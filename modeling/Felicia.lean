import Felicia.Support.FlatMap
import Felicia.Core.Messages
import Felicia.Util.Generator
import Felicia.Master.Client
import Felicia.Master.Errors
import Felicia.Master.Registry
import Felicia.Master.Tasks
import Felicia.Support.Lists
import Felicia.Support.Transition
import Felicia.Support.Obligations
import Felicia.Master.System
import Felicia.Master.Ownership
import Felicia.Master.Uniqueness
import Felicia.Master.HeartBeatListener
import Felicia.Master.Lookup
import Felicia.Master.Registration
import Felicia.Master.ErrorAtomicity
import Felicia.Master.Replies
import Felicia.Master.Admission
import Felicia.Support.Latest
import Felicia.Master.TopicAnnouncements
import Felicia.Master.ServiceAnnouncements
import Felicia.Master.Notifications
import Felicia.Support.Delivery
import Felicia.Support.Framing
import Felicia.Support.Transfer
import Felicia.Channel.IoBuffer
import Felicia.Channel.Socket
import Felicia.Channel.Broadcaster
import Felicia.Channel.BroadcastRounds
import Felicia.Support.Fifo
import Felicia.Support.Loops
import Felicia.Support.Fuelled
import Felicia.Support.Accumulator
import Felicia.Util.Pool
import Felicia.Util.PoolFifo
import Felicia.Util.PoolIterator
import Felicia.Support.Iteration
import Felicia.Util.PoolIteration
import Felicia.Util.PoolReserve
import Felicia.Message.Header
import Felicia.Util.BufferedReader
import Felicia.Util.BufferedReaderErrors
import Felicia.Util.BufferedWriter
import Felicia.Util.Csv
import Felicia.Util.Flag
import Felicia.Util.FlagParser
import Felicia.Util.FlagOrder
import Felicia.Slam.DatasetLoader
import Felicia.Slam.KittiDatasetLoader
import Felicia.Map.OccupancyGridMap
import Felicia.Map.OccupancyGridSegment
import Felicia.Map.OccupancyGridLine
import Felicia.Map.Pointcloud
import Felicia.Message.MessageFilter
import Felicia.Message.TimeSynchronizer
import Felicia.Message.TimeSynchronizerLoop
import Felicia.Message.TimeSynchronization
import Felicia.Support.Reissue
import Felicia.Channel.AcceptLoop
import Felicia.Channel.ChannelBuffer
import Felicia.Channel.MessageReceiver
import Felicia.Channel.OneShotReceiver
import Felicia.Channel.Receive
import Felicia.Message.RosHeader
import Felicia.Channel.RosHandshake
import Felicia.Channel.SharedMemory
import Felicia.Channel.WebSocketRequest
import Felicia.Channel.WebSocketRequestGrammar
import Felicia.Util.StringToInt
import Felicia.Channel.WebSocketExtension
import Felicia.Channel.WebSocketHandshake
import Felicia.Channel.WebSocketChannel
import Felicia.Channel.WebSocketClosing
import Felicia.Channel.WebSocketCloseFrame
import Felicia.Channel.WebSocketBroadcaster
import Felicia.Master.MasterNotificationWatcher
import Felicia.Communication.RegisterState
import Felicia.Communication.Routing
import Felicia.Communication.Process
import Felicia.Communication.Unsubscription
import Felicia.Communication.PublisherLifecycle
import Felicia.Communication.PublisherQueue
import Felicia.Communication.Framing
import Felicia.Communication.PublisherWakeUp
import Felicia.Communication.Subscriber
import Felicia.Communication.SubscriberHandlers
import Felicia.Communication.ChannelSelection
import Felicia.Communication.SubscriberLoop
import Felicia.Communication.SubscriberRegistration
import Felicia.Communication.SubscriberUpdates
import Felicia.Communication.SubscriberFailures
import Felicia.Communication.ServiceServer
import Felicia.Communication.ServiceClient
import Felicia.Communication.Publisher
import Felicia.Communication.DynamicSubscriber
import Felicia.Node.DynamicSubscribingNode
import Felicia.Rpc.RosServiceManager
import Felicia.Rpc.RosClient
import Felicia.Master.Completeness
import Felicia.Master.Delivery
import Felicia.Containers.Data
import Felicia.Containers.DataView
import Felicia.Map.RosPointcloud
import Felicia.Drivers.CameraFormat
import Felicia.Drivers.FrameMessages
import Felicia.Drivers.CameraFrame
import Felicia.Image.PngCodec
import Felicia.Unit.CheckedNumeric
import Felicia.Unit.UnitHelper
import Felicia.Unit.Length
import Felicia.Unit.LengthArithmetic
import Felicia.Message.RosHeaderDecoding
import Felicia.Message.ProtobufUtil
import Felicia.Channel.FixedBuffer
import Felicia.Communication.SubscriberBuffer
import Felicia.Channel.WebSocketFrameParser
import Felicia.Channel.WebSocketFrameStream
import Felicia.Channel.WebSocketBasicStream
import Felicia.Channel.WebSocketWriting
import Felicia.Support.Ring
import Felicia.Channel.Zlib
import Felicia.Channel.InflaterBuffers
import Felicia.Channel.StoredBlocks
import Felicia.Channel.WebSocketDeflateWriting
import Felicia.Channel.WebSocketInflater
import Felicia.Channel.WebSocketDeflateReading
import Felicia.Channel.WebSocketDeflateStream
