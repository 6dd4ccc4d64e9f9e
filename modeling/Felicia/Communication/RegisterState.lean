import Felicia.Channel.MessageReceiver

/-!
# Register states

`felicia/core/communication/register_state.h`, over `felicia/core/lib/base/state.h`: how far a
publisher, a subscriber, a service server or a service client is with the master.
-/

set_option autoImplicit false
set_option relaxedAutoImplicit false

namespace Felicia

/-- `communication::RegisterState`. -/
inductive RegisterState
  | registering | registered | unregistering | unregistered
  deriving DecidableEq, Repr

namespace RegisterState

/-- `RegisterStateTraits::ToString`. -/
def toString : RegisterState → String
  | .registering => "Registering"
  | .registered => "Registered"
  | .unregistering => "Unregistering"
  | .unregistered => "Unregistered"

/-- `State::InvalidStateError`. -/
def invalidStateError (state : RegisterState) : Status :=
  aborted ("Invalid state(" ++ state.toString ++ ")")

end RegisterState

end Felicia
