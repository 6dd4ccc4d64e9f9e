import Felicia.Channel.Broadcaster

/-!
# One broadcast after the other

The `StreamSocketBroadcaster` of a server over its whole life. Sockets are added at any time, also
while a broadcast is under way, and are then part of the next one. `Broadcast` is called only when
the callback of the broadcast before has returned, as its checks ask; a call from inside the
callback is not modelled. What the writes come to, and which peers are still there when the closed
sockets are erased, is chosen anew for each broadcast.

Sockets are told apart by names, which the source does not have. `Rounds` says what a broadcaster is
for, in terms of what can be seen of it: a history of rounds, in each of which every socket reports
once, in any order, and then the callback runs once; it is an error exactly if some socket reported
one or there was none, and a socket that was closed takes part in no later round. `bookkept_of_run`
says that every run is such a history, followed by the part of a round that is still under way, and
that the counts are 0 in between.
-/

set_option autoImplicit false
set_option relaxedAutoImplicit false

namespace Felicia

open Support TransitionSystem

/-! ### State and steps -/

/-- What is seen of the broadcasts of a server. -/
inductive BroadcastEvent
  /-- `Broadcast` is called and these sockets are left to write to. -/
  | started (names : List ℕ)
  /-- `OnWrite` is run for a socket. -/
  | ended (name : ℕ) (result : ℤ)
  /-- The callback of `Broadcast` is run. -/
  | reported (status : Status)
  deriving DecidableEq

/-- The broadcaster of a server. -/
structure BroadcastServer where
  broadcaster : Broadcaster := { sockets := [] }
  /-- The sockets of the last broadcast. -/
  names : List ℕ := []
  /-- The sockets that were added since it started. -/
  added : List ℕ := []
  /-- The name of the next socket. -/
  next : ℕ := 0
  /-- `callback_` is not null. -/
  hasCallback : Bool := false

/-- What can happen next. -/
inductive BroadcastAction
  | addSocket
  | broadcast (buffer : List UInt8) (size : ℕ) (isConnected : ℕ → Bool)
      (outcomes : ℕ → List (Outcome NetError))
  | complete (i : ℕ)

/-- What a socket reported. -/
def report (x : ℕ × ClientSocket) : Option (ℕ × ℤ) := x.2.ended.map fun result ↦ (x.1, result)

/-- What the sockets reported so far. -/
def reports (names : List ℕ) (sockets : List ClientSocket) : List (ℕ × ℤ) :=
  (names.zip sockets).filterMap report

def endedEvents (results : List (ℕ × ℤ)) : List BroadcastEvent :=
  results.map fun x ↦ .ended x.1 x.2

namespace BroadcastServer

variable (errorToString : ℤ → String) (server : BroadcastServer)

/-- The sockets when `Broadcast` is called: those of the last broadcast and those added since. -/
def sockets (isConnected : ℕ → Bool) (outcomes : ℕ → List (Outcome NetError)) :
    List (ℕ × ClientSocket) :=
  ((server.names.zip server.broadcaster.sockets).map fun x ↦
      (x.1, { connected := x.2.connected && isConnected x.1, outcomes := outcomes x.1 })) ++
    server.added.map fun name ↦
      (name, { connected := isConnected name, outcomes := outcomes name })

/-- The sockets that are left when the closed ones are erased. -/
def left (sockets : List (ℕ × ClientSocket)) : List (ℕ × ClientSocket) :=
  if server.broadcaster.hasClosedSockets then sockets.filter (·.2.connected) else sockets

/-- The broadcaster with the sockets of a new broadcast. -/
def renewed (sockets : List (ℕ × ClientSocket)) : Broadcaster :=
  { server.broadcaster with sockets := sockets.map Prod.snd, reported := none }

/-- The event for the callback, if it was run. -/
def reportedEvents (b : Broadcaster) : List BroadcastEvent :=
  (b.reported.map fun result ↦ .reported (callbackWithStatus errorToString result)).toList

def broadcast (buffer : List UInt8) (size : ℕ) (h : size ≤ buffer.length) (isConnected : ℕ → Bool)
    (outcomes : ℕ → List (Outcome NetError)) : BroadcastServer × List BroadcastEvent :=
  let sockets := server.sockets isConnected outcomes
  let names := (server.left sockets).map Prod.fst
  let b := (server.renewed sockets).broadcast buffer size h
  ({ server with broadcaster := b, names, added := [], hasCallback := b.reported.isNone },
    .started names :: (endedEvents (reports names b.sockets) ++ reportedEvents errorToString b))

/-- The write that waits at the socket at some place ends. -/
def complete (i : ℕ) : Option (BroadcastServer × List BroadcastEvent) :=
  (server.broadcaster.complete i).map fun b ↦
    ({ server with broadcaster := b, hasCallback := b.reported.isNone },
      endedEvents ((server.names.zip b.sockets)[i]?.bind report).toList ++
        reportedEvents errorToString b)

/-- `AddSocket` of the server. -/
def addSocket : BroadcastServer :=
  { server with added := server.added ++ [server.next], next := server.next + 1 }

/-- One step. `Broadcast` asks for something to write and for no other broadcast under way. -/
def step : BroadcastAction → Option (BroadcastServer × List BroadcastEvent)
  | .addSocket => some (server.addSocket, [])
  | .broadcast buffer size isConnected outcomes =>
    if h : server.hasCallback = false ∧ 0 < size ∧ size ≤ buffer.length then
      some (server.broadcast errorToString buffer size h.2.2 isConnected outcomes)
    else none
  | .complete i => server.complete errorToString i

end BroadcastServer

/-- The broadcaster of a server from its construction on. -/
def broadcastingRounds (errorToString : ℤ → String) :
    TransitionSystem BroadcastServer BroadcastAction BroadcastEvent where
  Initial server := server = {}
  step := BroadcastServer.step errorToString

/-! ### Rounds -/

/-- The sockets that are closed because of what they reported. -/
def closedBy (results : List (ℕ × ℤ)) : List ℕ := (results.filter (closes ·.2)).map Prod.fst

/-- Histories of complete broadcasts, with the sockets that were closed in them. -/
inductive Rounds : List ℕ → List BroadcastEvent → Prop
  | start : Rounds [] []
  | round {closed : List ℕ} {history : List BroadcastEvent} (rounds : Rounds closed history)
      {names : List ℕ} (hnodup : names.Nodup) (hopen : names.Disjoint closed)
      {results : List (ℕ × ℤ)} (hresults : (results.map Prod.fst).Perm names) {status : Status}
      (hstatus : status ≠ .OK ↔ names = [] ∨ ∃ x ∈ results, x.2 < 0) :
      Rounds (closed ++ closedBy results)
        (history ++ .started names :: (endedEvents results ++ [.reported status]))

/-- The history is one of complete broadcasts and, while one is under way, of what its sockets
reported; then some of them are still to report. -/
inductive BroadcastServer.Bookkept (server : BroadcastServer) : List BroadcastEvent → Prop
  | between {closed : List ℕ} {history : List BroadcastEvent} (rounds : Rounds closed history)
      (hcallback : server.hasCallback = false) (htoWrite : server.broadcaster.toWriteCount = 0)
      (hwritten : server.broadcaster.writtenCount = 0)
      (hwriteResult : server.broadcaster.writeResult = 0) : Bookkept server history
  | during {closed : List ℕ} {history : List BroadcastEvent} (rounds : Rounds closed history)
      (hcallback : server.hasCallback = true) (hnodup : server.names.Nodup)
      (hopen : server.names.Disjoint closed) {results : List (ℕ × ℤ)} {waiting : List ℕ}
      (hresults : (results.map Prod.fst ++ waiting).Perm server.names) (hwaiting : waiting ≠ [])
      (htoWrite : server.broadcaster.toWriteCount = server.names.length)
      (hwritten : server.broadcaster.writtenCount = results.length) :
      Bookkept server (history ++ .started server.names :: endedEvents results)

/-! ### What `OnWrite` leaves behind -/

namespace Broadcaster

/-- The counts are 0 when the callback was run, and a socket that was closed is marked for the next
broadcast. -/
structure Books (b : Broadcaster) : Prop where
  settled : b.reported ≠ none → b.toWriteCount = 0 ∧ b.writtenCount = 0 ∧ b.writeResult = 0
  closed : ∀ s ∈ b.sockets, ∀ r, s.ended = some r → closes r = true →
    s.connected = false ∧ b.hasClosedSockets = true

variable {b b' : Broadcaster} {i : ℕ}

theorem hasClosedSockets_onWrite (b : Broadcaster) (i : ℕ) (socket : ClientSocket) (r : ℤ) :
    (b.onWrite i socket r).hasClosedSockets = (b.hasClosedSockets || closes r) := by
  unfold onWrite
  dsimp only
  split <;> rfl

theorem Books.onWrite (h : b.Books) (hrunning : b.reported = none) (socket : ClientSocket) (r : ℤ) :
    (b.onWrite i socket r).Books := by
  refine ⟨fun hreported ↦ ?_, fun s hs x hended hcloses ↦ ?_⟩
  · unfold Broadcaster.onWrite at hreported ⊢
    dsimp only at hreported ⊢
    by_cases hlast : b.toWriteCount = b.writtenCount + 1
    · rw [if_pos hlast]
      exact ⟨rfl, rfl, rfl⟩
    · rw [if_neg hlast] at hreported
      exact absurd hrunning hreported
  · rw [sockets_onWrite] at hs
    rw [hasClosedSockets_onWrite]
    rcases List.mem_or_eq_of_mem_set hs with hold | rfl
    · obtain ⟨hconnected, hclosed⟩ := h.closed s hold x hended hcloses
      exact ⟨hconnected, by simp [hclosed]⟩
    · obtain rfl : r = x := Option.some.inj hended
      simp [ClientSocket.onWrite, hcloses]

theorem Books.writeTo (h : b.Books) (hrunning : b.reported = none) {s : ClientSocket}
    (hsocket : b.sockets[i]? = some s) (hfresh : s.Fresh) (buffer : DrainableIOBuffer) :
    (b.writeTo buffer i).Books := by
  have hended := (broadcastLoop_frame buffer s s.outcomes).2.trans hfresh.2.2
  unfold Broadcaster.writeTo
  rw [hsocket]
  dsimp only
  generalize broadcastLoop buffer s s.outcomes = written at *
  obtain ⟨socket, rv⟩ := written
  cases rv with
  | some r => exact h.onWrite hrunning socket r
  | none =>
    refine ⟨fun hreported ↦ absurd hrunning hreported, fun t ht x hx hcloses ↦ ?_⟩
    rcases List.mem_or_eq_of_mem_set ht with hold | rfl
    · exact h.closed t hold x hx hcloses
    · cases hended.symm.trans hx

end Broadcaster

/-! ### What the sockets reported -/

theorem map_fst_reports (names : List ℕ) (sockets : List ClientSocket) :
    (reports names sockets).map Prod.fst =
      ((names.zip sockets).filter (·.2.ended.isSome)).map Prod.fst := by
  unfold reports
  induction names.zip sockets with
  | nil => rfl
  | cons x xs ih =>
    cases hended : x.2.ended <;> simp [report, hended, ih]

theorem exists_report_neg_iff {names : List ℕ} {sockets : List ClientSocket}
    (hlength : names.length = sockets.length) :
    (∃ x ∈ reports names sockets, x.2 < 0) ↔
      sockets.any (fun s ↦ s.ended.any (· < 0)) = true := by
  have hreport (x : ℕ × ClientSocket) :
      (∃ y ∈ report x, y.2 < 0) ↔ x.2.ended.any (· < 0) = true := by
    cases hended : x.2.ended <;> simp [report, hended]
  have hsockets : sockets = (names.zip sockets).map Prod.snd := (List.map_snd_zip hlength.ge).symm
  conv_rhs => rw [hsockets]
  simp only [reports, List.mem_filterMap, List.any_map, List.any_eq_true, Function.comp_apply,
    ← hreport]
  constructor
  · rintro ⟨y, ⟨x, hx, hy⟩, hneg⟩
    exact ⟨x, hx, y, hy, hneg⟩
  · rintro ⟨x, hx, y, hy, hneg⟩
    exact ⟨y, ⟨x, hx, hy⟩, hneg⟩

theorem reports_set {names : List ℕ} {sockets : List ClientSocket} {i name : ℕ}
    {old new : ClientSocket} (hname : names[i]? = some name) (hold : sockets[i]? = some old)
    (hended : old.ended = none) {r : ℤ} (hended' : new.ended = some r) :
    (reports names (sockets.set i new)).Perm (reports names sockets ++ [(name, r)]) := by
  have hpair : (names.zip sockets)[i]? = some (name, old) := by
    simp [List.getElem?_zip_eq_some, hname, hold]
  obtain ⟨before, after, hsplit, hset⟩ := exists_split_set hpair (name, new)
  rw [reports, reports, zip_set hname, hset, hsplit]
  simp only [List.filterMap_append, List.filterMap_cons, report, hended, hended', Option.map_none,
    Option.map_some, List.append_assoc]
  exact (List.perm_append_singleton _ _).symm.append_left _

/-! ### Between the broadcasts and during one -/

namespace BroadcastServer

/-- The names tell the sockets apart, and new sockets get new names. -/
structure Named (server : BroadcastServer) (closed : List ℕ) : Prop where
  length : server.names.length = server.broadcaster.sockets.length
  nodup : (server.names ++ server.added).Nodup
  fresh : ∀ name ∈ server.names ++ server.added ++ closed, name < server.next
  added : server.added.Disjoint closed

/-- No broadcast is under way: the counts are 0, no write waits, and the sockets that were closed
and not yet erased are marked. -/
structure Between (server : BroadcastServer) (closed : List ℕ) : Prop extends
    Named server closed where
  toWriteCount : server.broadcaster.toWriteCount = 0
  writtenCount : server.broadcaster.writtenCount = 0
  writeResult : server.broadcaster.writeResult = 0
  waiting : ∀ s ∈ server.broadcaster.sockets, s.waiting = none
  gone : ∀ x ∈ server.names.zip server.broadcaster.sockets, x.1 ∈ closed →
    x.2.connected = false ∧ server.broadcaster.hasClosedSockets = true

/-- A broadcast to some sockets, none of which was closed before. -/
structure InRound (server : BroadcastServer) (closed : List ℕ) (results : List (ℕ × ℤ)) :
    Prop extends Named server closed where
  nonempty : server.names ≠ []
  unclosed : server.names.Disjoint closed
  progress : ∃ buffer, server.broadcaster.Progress buffer
  books : server.broadcaster.Books
  results : results.Perm (reports server.names server.broadcaster.sockets)

variable {errorToString : ℤ → String} {server : BroadcastServer} {closed : List ℕ}
  {results : List (ℕ × ℤ)}

theorem Named.zip_fst (h : server.Named closed) :
    (server.names.zip server.broadcaster.sockets).map Prod.fst = server.names :=
  List.map_fst_zip (by rw [h.length])

theorem Named.zip_snd (h : server.Named closed) :
    (server.names.zip server.broadcaster.sockets).map Prod.snd = server.broadcaster.sockets :=
  List.map_snd_zip (by rw [h.length])

/-- Assumes: a report of a socket. It is one of the sockets of the broadcast. -/
theorem InRound.exists_of_mem (h : server.InRound closed results) {x : ℕ × ℤ} (hx : x ∈ results) :
    ∃ s, (x.1, s) ∈ server.names.zip server.broadcaster.sockets ∧ s.ended = some x.2 := by
  obtain ⟨⟨name, s⟩, hmem, hreport⟩ := List.mem_filterMap.mp (h.results.mem_iff.mp hx)
  obtain ⟨r, hr, rfl⟩ := Option.map_eq_some_iff.mp hreport
  exact ⟨s, hmem, hr⟩

theorem InRound.mem_names_of_closedBy (h : server.InRound closed results) {name : ℕ}
    (hname : name ∈ closedBy results) :
    ∃ s, (name, s) ∈ server.names.zip server.broadcaster.sockets ∧ s.connected = false ∧
      server.broadcaster.hasClosedSockets = true := by
  obtain ⟨x, hx, rfl⟩ := List.mem_map.mp hname
  obtain ⟨hresult, hcloses⟩ := List.mem_filter.mp hx
  obtain ⟨s, hmem, hended⟩ := h.exists_of_mem hresult
  have hsocket : s ∈ server.broadcaster.sockets := (List.of_mem_zip hmem).2
  exact ⟨s, hmem, h.books.closed s hsocket x.2 hended hcloses⟩

/-- Assumes: the callback was run. Every socket reported, and the server is ready for the next
broadcast. -/
theorem InRound.reported (h : server.InRound closed results) {r : ℤ}
    (hreported : server.broadcaster.reported = some r) :
    server.Between (closed ++ closedBy results) ∧ (results.map Prod.fst).Perm server.names ∧
      (r < 0 ↔ ∃ x ∈ results, x.2 < 0) := by
  obtain ⟨buffer, hprogress⟩ := h.progress
  obtain ⟨hall, hworst⟩ := hprogress.done r hreported
  obtain ⟨htoWrite, hwritten, hwriteResult⟩ := h.books.settled (by simp [hreported])
  have hnames {name : ℕ} (hname : name ∈ closedBy results) : name ∈ server.names := by
    obtain ⟨s, hmem, -⟩ := h.mem_names_of_closedBy hname
    exact (List.of_mem_zip hmem).1
  refine ⟨⟨⟨h.length, h.nodup, fun name hname ↦ ?_, ?_⟩, htoWrite, hwritten, hwriteResult,
    fun s hs ↦ ?_, fun x hx hclosed ↦ ?_⟩, ?_, ?_⟩
  · rw [← List.append_assoc, List.mem_append] at hname
    rcases hname with hold | hnew
    · exact h.fresh name hold
    · exact h.fresh name (by simp [hnames hnew])
  · intro name hadded hclosed
    rcases List.mem_append.mp hclosed with hold | hnew
    · exact h.added hadded hold
    · exact (List.nodup_append.mp h.nodup).2.2 name (hnames hnew) name hadded rfl
  · obtain ⟨x, hx⟩ := Option.isSome_iff_exists.mp (hall s hs)
    exact ((hprogress.tracks s hs).ended x hx).1
  · rcases List.mem_append.mp hclosed with hold | hnew
    · exact absurd hold (h.unclosed (List.of_mem_zip hx).1)
    · obtain ⟨s, hmem, hgone⟩ := h.mem_names_of_closedBy hnew
      rw [eq_of_mem_zip h.length (List.nodup_append.mp h.nodup).1 hx hmem rfl]
      exact hgone
  · refine (h.results.map Prod.fst).trans ?_
    rw [map_fst_reports, List.filter_eq_self.mpr fun x hx ↦ hall x.2 (List.of_mem_zip hx).2,
      h.zip_fst]
  · refine Iff.trans hworst ?_
    rw [← exists_report_neg_iff h.length]
    exact exists_congr fun x ↦ and_congr_left fun _ ↦ h.results.mem_iff.symm

/-- Assumes: the callback was not run. Some sockets are still to report. -/
theorem InRound.running (h : server.InRound closed results)
    (hreported : server.broadcaster.reported = none) :
    ∃ waiting, (results.map Prod.fst ++ waiting).Perm server.names ∧ waiting ≠ [] ∧
      server.broadcaster.toWriteCount = server.names.length ∧
      server.broadcaster.writtenCount = results.length := by
  obtain ⟨buffer, hprogress⟩ := h.progress
  obtain ⟨hcount, hwritten, hlt, -⟩ := hprogress.running hreported
  set xs := server.names.zip server.broadcaster.sockets with hxs
  have hfst : (results.map Prod.fst).Perm ((xs.filter (·.2.ended.isSome)).map Prod.fst) := by
    rw [← map_fst_reports]
    exact h.results.map Prod.fst
  have hperm : (results.map Prod.fst ++
      (xs.filter (fun x ↦ !x.2.ended.isSome)).map Prod.fst).Perm server.names := by
    refine (hfst.append_right _).trans ?_
    rw [← List.map_append]
    conv_rhs => rw [← h.zip_fst]
    exact (List.filter_append_perm _ xs).map Prod.fst
  have hlength : server.broadcaster.writtenCount = results.length := by
    have hlengths := hfst.length_eq
    rw [List.length_map, List.length_map] at hlengths
    rw [hwritten, ← h.zip_snd, List.countP_map, List.countP_eq_length_filter, hlengths]
    rfl
  refine ⟨_, hperm, fun hnil ↦ ?_, hcount.trans h.length.symm, hlength⟩
  have htotal := hperm.length_eq
  rw [hnil, List.append_nil, List.length_map, h.length] at htotal
  omega

/-! ### The run -/

/-- The state of a server after a history. -/
inductive Kept (server : BroadcastServer) : List BroadcastEvent → Prop
  | between {closed : List ℕ} {history : List BroadcastEvent} (rounds : Rounds closed history)
      (hcallback : server.hasCallback = false) (h : server.Between closed) : Kept server history
  | during {closed : List ℕ} {history : List BroadcastEvent} {results : List (ℕ × ℤ)}
      (rounds : Rounds closed history) (hcallback : server.hasCallback = true)
      (h : server.InRound closed results) (hreported : server.broadcaster.reported = none) :
      Kept server (history ++ .started server.names :: endedEvents results)

variable {history : List BroadcastEvent}

theorem InRound.during (h : server.InRound closed results) (rounds : Rounds closed history)
    (hcallback : server.hasCallback = true) (hreported : server.broadcaster.reported = none) :
    server.Kept (history ++ .started server.names :: endedEvents results) :=
  .during rounds hcallback h hreported

theorem InRound.kept (h : server.InRound closed results) (rounds : Rounds closed history)
    (errorToString : ℤ → String)
    (hcallback : server.hasCallback = server.broadcaster.reported.isNone) :
    server.Kept (history ++ .started server.names ::
      (endedEvents results ++ reportedEvents errorToString server.broadcaster)) := by
  cases hreported : server.broadcaster.reported with
  | none =>
    have hevents : reportedEvents errorToString server.broadcaster = [] := by
      simp [reportedEvents, hreported]
    rw [hevents, List.append_nil]
    exact h.during rounds (by simp [hcallback, hreported]) hreported
  | some r =>
    obtain ⟨hbetween, hperm, hneg⟩ := h.reported hreported
    have hevents : reportedEvents errorToString server.broadcaster =
        [.reported (callbackWithStatus errorToString r)] := by
      simp [reportedEvents, hreported]
    rw [hevents]
    refine .between (rounds.round (List.nodup_append.mp h.nodup).1 h.unclosed hperm ?_)
      (by simp [hcallback, hreported]) hbetween
    rw [Ne, callbackWithStatus_eq_OK, not_le, hneg]
    simp [h.nonempty]

theorem Named.addSocket (h : server.Named closed) : server.addSocket.Named closed := by
  have hnext (name : ℕ) (hname : name ∈ server.names ++ server.added ++ closed) :
      name ≠ server.next := (h.fresh name hname).ne
  refine ⟨h.length, ?_, fun name hname ↦ ?_, ?_⟩
  · rw [BroadcastServer.addSocket, ← List.append_assoc]
    refine List.nodup_append.mpr ⟨h.nodup, List.nodup_singleton _, fun name hname other hother ↦ ?_⟩
    rw [List.mem_singleton.mp hother]
    exact hnext name (List.mem_append_left _ hname)
  · have hcases : name ∈ server.names ++ server.added ++ closed ∨ name = server.next := by
      simp only [BroadcastServer.addSocket, List.mem_append, List.mem_singleton] at hname ⊢
      tauto
    rcases hcases with hold | rfl
    · exact (h.fresh name hold).trans (Nat.lt_succ_self _)
    · exact Nat.lt_succ_self _
  · intro name hadded hclosed
    rcases List.mem_append.mp hadded with hold | hnew
    · exact h.added hold hclosed
    · exact hnext name (List.mem_append_right _ hclosed) (List.mem_singleton.mp hnew)

theorem Kept.addSocket (h : server.Kept history) : server.addSocket.Kept history := by
  cases h with
  | between rounds hcallback h =>
    exact .between rounds hcallback ⟨h.toNamed.addSocket, h.toWriteCount, h.writtenCount,
      h.writeResult, h.waiting, h.gone⟩
  | during rounds hcallback h hreported =>
    have hround : server.addSocket.InRound _ _ :=
      ⟨h.toNamed.addSocket, h.nonempty, h.unclosed, h.progress, h.books, h.results⟩
    exact hround.during rounds hcallback hreported

/-! ### A new broadcast -/

section Broadcast

variable {isConnected : ℕ → Bool} {outcomes : ℕ → List (Outcome NetError)}

theorem left_sublist (server : BroadcastServer) (sockets : List (ℕ × ClientSocket)) :
    (server.left sockets).Sublist sockets := by
  unfold left
  split_ifs
  · exact List.filter_sublist
  · exact List.Sublist.refl _

theorem Between.names_sublist (h : server.Between closed) :
    ((server.left (server.sockets isConnected outcomes)).map Prod.fst).Sublist
      (server.names ++ server.added) := by
  have hnames : (server.sockets isConnected outcomes).map Prod.fst =
      server.names ++ server.added := by
    simp only [BroadcastServer.sockets, List.map_append, List.map_map]
    refine congrArg₂ _ ?_ ?_
    · exact h.zip_fst
    · exact List.map_id _
  rw [← hnames]
  exact (server.left_sublist _).map Prod.fst

/-- A socket that was closed is erased before the next broadcast. -/
theorem Between.names_disjoint (h : server.Between closed) :
    ((server.left (server.sockets isConnected outcomes)).map Prod.fst).Disjoint closed := by
  intro name hname hclosed
  obtain ⟨x, hleft, rfl⟩ := List.mem_map.mp hname
  rcases List.mem_append.mp ((server.left_sublist _).subset hleft) with hold | hadded
  · obtain ⟨y, hy, rfl⟩ := List.mem_map.mp hold
    obtain ⟨hconnected, hmarked⟩ := h.gone y hy hclosed
    simp [left, hmarked, hconnected] at hleft
  · obtain ⟨other, hother, rfl⟩ := List.mem_map.mp hadded
    exact h.added hother hclosed

theorem sockets_eraseClosedSockets_renewed (server : BroadcastServer)
    (sockets : List (ℕ × ClientSocket)) :
    (server.renewed sockets).eraseClosedSockets.sockets =
      (server.left sockets).map Prod.snd := by
  unfold Broadcaster.eraseClosedSockets left renewed
  split_ifs
  · exact List.filter_map
  · rfl

theorem Between.idle (h : server.Between closed) :
    (server.renewed (server.sockets isConnected outcomes)).Idle := by
  refine ⟨h.toWriteCount, h.writtenCount, h.writeResult, rfl, fun s hs ↦ ?_⟩
  obtain ⟨x, hx, rfl⟩ := List.mem_map.mp hs
  rcases List.mem_append.mp hx with hold | hadded
  · obtain ⟨y, -, rfl⟩ := List.mem_map.mp hold
    exact ⟨rfl, rfl, rfl⟩
  · obtain ⟨name, -, rfl⟩ := List.mem_map.mp hadded
    exact ⟨rfl, rfl, rfl⟩

/-- Assumes: no socket is left. The callback is run at once. -/
theorem Between.broadcast_nil (errorToString : ℤ → String) (h : server.Between closed)
    (rounds : Rounds closed history)
    {buffer : List UInt8} {size : ℕ} (hsize : size ≤ buffer.length)
    (hleft : server.left (server.sockets isConnected outcomes) = []) :
    (server.broadcast errorToString buffer size hsize isConnected outcomes).1.Kept
      (history ++ (server.broadcast errorToString buffer size hsize isConnected outcomes).2) := by
  have hnil : (server.renewed (server.sockets isConnected outcomes)).eraseClosedSockets.sockets =
      [] := by
    rw [sockets_eraseClosedSockets_renewed, hleft, List.map_nil]
  have hcounts : (server.renewed (server.sockets isConnected outcomes)).eraseClosedSockets.Idle :=
    h.idle.eraseClosedSockets
  have hbroadcast : (server.renewed (server.sockets isConnected outcomes)).broadcast buffer size
      hsize = { (server.renewed (server.sockets isConnected outcomes)).eraseClosedSockets with
        reported := some errSocketNotConnected } := by
    simp [Broadcaster.broadcast, hnil]
  have hstatus : callbackWithStatus errorToString errSocketNotConnected ≠ .OK ↔
      ([] : List ℕ) = [] ∨ ∃ x ∈ ([] : List (ℕ × ℤ)), x.2 < 0 := by
    rw [Ne, callbackWithStatus_eq_OK]
    simp [errSocketNotConnected]
  have hround := rounds.round List.nodup_nil (List.disjoint_nil_left _) (List.Perm.refl _) hstatus
  unfold BroadcastServer.broadcast
  dsimp only
  rw [hbroadcast, hleft]
  rw [show closedBy [] = [] from rfl, List.append_nil] at hround
  refine .between (show Rounds closed _ from ?_) rfl ?_
  · simpa [reports, reportedEvents, endedEvents] using hround
  · refine ⟨⟨by simp [hnil], List.nodup_nil, fun name hname ↦ ?_, List.disjoint_nil_left _⟩,
      hcounts.toWriteCount, hcounts.writtenCount, hcounts.writeResult, by simp [hnil], by simp⟩
    exact h.fresh name (List.mem_append_right _ (by simpa using hname))

/-- Assumes: some sockets are left. Each of them is written to. -/
theorem Between.broadcast (errorToString : ℤ → String) (h : server.Between closed)
    (rounds : Rounds closed history)
    {buffer : List UInt8} {size : ℕ} (hsize : size ≤ buffer.length)
    (hleft : server.left (server.sockets isConnected outcomes) ≠ []) :
    (server.broadcast errorToString buffer size hsize isConnected outcomes).1.Kept
      (history ++ (server.broadcast errorToString buffer size hsize isConnected outcomes).2) := by
  have hsockets := sockets_eraseClosedSockets_renewed server (server.sockets isConnected outcomes)
  have hidle : (server.renewed (server.sockets isConnected outcomes)).Idle := h.idle
  have hstart : Broadcaster.Books
      { (server.renewed (server.sockets isConnected outcomes)).eraseClosedSockets with
        toWriteCount := (server.renewed
          (server.sockets isConnected outcomes)).eraseClosedSockets.sockets.length } := by
    refine ⟨fun hreported ↦ absurd hidle.eraseClosedSockets.reported hreported,
      fun s hs r hended ↦ ?_⟩
    cases (hidle.eraseClosedSockets.sockets s hs).2.2.symm.trans hended
  obtain ⟨hbooks, hprogress, houtcomes⟩ := hidle.broadcast_invariant (I := Broadcaster.Books) hsize
    (by simpa [hsockets] using hleft) hstart
    fun t i s hrunning hsocket hfresh hbooks ↦ hbooks.writeTo hrunning hsocket hfresh _
  have hlength := congrArg List.length houtcomes
  rw [List.length_map, List.length_map, hsockets, List.length_map] at hlength
  set started := server.broadcast errorToString buffer size hsize isConnected outcomes with hstarted
  have hround : started.1.InRound closed
      (reports started.1.names started.1.broadcaster.sockets) := by
    refine ⟨⟨?_, ?_, fun name hname ↦ ?_, List.disjoint_nil_left _⟩, ?_, h.names_disjoint,
      ⟨_, hprogress⟩, hbooks, List.Perm.refl _⟩
    · exact (List.length_map ..).trans hlength.symm
    · simpa [hstarted, BroadcastServer.broadcast] using h.names_sublist.nodup h.nodup
    · simp only [hstarted, BroadcastServer.broadcast, List.append_nil, List.mem_append] at hname
      rcases hname with hname | hclosed
      · exact h.fresh name (List.mem_append_left _ (h.names_sublist.subset hname))
      · exact h.fresh name (List.mem_append_right _ hclosed)
    · simpa [hstarted, BroadcastServer.broadcast] using hleft
  exact hround.kept rounds errorToString rfl

end Broadcast

/-! ### The end of a write -/

theorem InRound.complete (h : server.InRound closed results) (rounds : Rounds closed history)
    {server' : BroadcastServer} {events : List BroadcastEvent} {i : ℕ}
    (hstep : server.complete errorToString i = some (server', events)) :
    server'.Kept (history ++ .started server.names :: endedEvents results ++ events) := by
  obtain ⟨b, hcomplete, heq⟩ := Option.map_eq_some_iff.mp hstep
  obtain ⟨buffer, hprogress⟩ := h.progress
  have hprogress' := (hprogress.complete hcomplete).1
  obtain ⟨old, buffer', completion, wire, hsocket, hwaiting, -, hb⟩ :=
    Broadcaster.exists_of_complete hcomplete
  have hmem : old ∈ server.broadcaster.sockets := List.mem_of_getElem? hsocket
  have hended : old.ended = none := hprogress.ended_of_waiting hmem (by simp [hwaiting])
  have hrunning := hprogress.running_of_mem hmem hended
  obtain ⟨hi, -⟩ := List.getElem?_eq_some_iff.mp hsocket
  have hi' : i < server.names.length := by rwa [h.length]
  have hname : server.names[i]? = some server.names[i] := List.getElem?_eq_getElem hi'
  generalize hnew : { old with wire, waiting := none } = new at hb
  generalize result buffer'.bytesRemaining completion = r at hb
  have hsockets : b.sockets = server.broadcaster.sockets.set i (new.onWrite r) := by
    rw [hb, Broadcaster.sockets_onWrite]
  have hreport : (server.names.zip b.sockets)[i]?.bind report = some (server.names[i], r) := by
    rw [hsockets, zip_set hname, List.getElem?_set_self (by simpa using ⟨hi', hi⟩)]
    rfl
  rw [hreport] at heq
  cases heq
  have hround : InRound { server with broadcaster := b, hasCallback := b.reported.isNone } closed
      (results ++ [(server.names[i], r)]) := by
    refine ⟨⟨?_, h.nodup, h.fresh, h.added⟩, h.nonempty, h.unclosed, ⟨buffer, hprogress'⟩, ?_, ?_⟩
    · rw [hsockets, List.length_set]
      exact h.length
    · dsimp only
      rw [hb]
      exact h.books.onWrite hrunning new r
    · dsimp only
      rw [hsockets]
      exact (h.results.append_right _).trans (reports_set hname hsocket hended rfl).symm
  have hkept := hround.kept rounds errorToString rfl
  simpa [endedEvents] using hkept

theorem Between.complete_eq_none (h : server.Between closed) (i : ℕ) :
    server.complete errorToString i = none := by
  cases hcomplete : server.broadcaster.complete i with
  | none => simp [BroadcastServer.complete, hcomplete]
  | some b =>
    obtain ⟨old, _, _, _, hsocket, hwaiting, -⟩ := Broadcaster.exists_of_complete hcomplete
    rw [h.waiting old (List.mem_of_getElem? hsocket)] at hwaiting
    cases hwaiting

theorem Kept.step (h : server.Kept history) {a : BroadcastAction} {server' : BroadcastServer}
    {events : List BroadcastEvent}
    (hstep : server.step errorToString a = some (server', events)) :
    server'.Kept (history ++ events) := by
  cases a with
  | addSocket =>
    cases hstep
    simpa using h.addSocket
  | complete i =>
    cases h with
    | during rounds _ hround _ => exact hround.complete rounds hstep
    | between _ _ hbetween => cases (hbetween.complete_eq_none i).symm.trans hstep
  | broadcast buffer size isConnected outcomes =>
    simp only [BroadcastServer.step] at hstep
    split_ifs at hstep with hready
    have heq := Option.some.inj hstep
    cases h with
    | during _ hcallback _ _ => cases hcallback.symm.trans hready.1
    | between rounds _ hbetween =>
      by_cases hleft : server.left (server.sockets isConnected outcomes) = []
      · have hkept := hbetween.broadcast_nil errorToString rounds hready.2.2 hleft
        rwa [heq] at hkept
      · have hkept := hbetween.broadcast errorToString rounds hready.2.2 hleft
        rwa [heq] at hkept

theorem Kept.bookkept (h : server.Kept history) : server.Bookkept history := by
  cases h with
  | between rounds hcallback h =>
    exact .between rounds hcallback h.toWriteCount h.writtenCount h.writeResult
  | during rounds hcallback h hreported =>
    obtain ⟨waiting, hresults, hwaiting, htoWrite, hwritten⟩ := h.running hreported
    exact .during rounds hcallback (List.nodup_append.mp h.nodup).1 h.unclosed hresults hwaiting
      htoWrite hwritten

end BroadcastServer

/-- Every run of a broadcaster is a history of complete broadcasts, followed by what the sockets of
a broadcast under way reported. -/
theorem bookkept_of_run (errorToString : ℤ → String) (server : BroadcastServer)
    (history : List BroadcastEvent)
    (run : Run (broadcastingRounds errorToString) unguarded server history) :
    server.Bookkept history := by
  have hkept : server.Kept history := by
    refine run.invariant (I := BroadcastServer.Kept) ?_ ?_
    · rintro server rfl
      exact .between .start rfl ⟨⟨rfl, List.nodup_nil, by simp, List.disjoint_nil_left _⟩, rfl, rfl,
        rfl, by simp, by simp⟩
    · intro server a server' history events _ hkept _ hstep
      exact hkept.step hstep
  exact hkept.bookkept

/-- Of three sockets one takes the bytes at once, one is reset, and one has to wait; then the same
bytes are broadcast again. -/
def Scenario.broadcastAgain : List BroadcastAction :=
  [.addSocket, .addSocket, .addSocket,
    .broadcast [1, 2] 2 (fun _ ↦ true) fun name ↦ match name with
      | 0 => [.now (.moved 2)]
      | 1 => [.now (.failed ⟨errConnectionReset, by decide, by decide⟩)]
      | _ => [.pending (some (.moved 2))],
    .complete 2,
    .broadcast [1, 2] 2 (fun _ ↦ true) fun _ ↦ [.now (.moved 2)]]

/-- The second broadcast of `Scenario.broadcastAgain` goes to the other two sockets. -/
theorem bookkept_of_reset_socket :
    ∃ server history, Run (broadcastingRounds fun _ ↦ "reset") unguarded server history ∧
      server.Bookkept history ∧ history =
        [.started [0, 1, 2], .ended 0 2, .ended 1 errConnectionReset, .ended 2 2,
          .reported (networkError "reset"), .started [0, 2], .ended 0 2, .ended 2 2,
          .reported .OK] := by
  have hexec : ((broadcastingRounds fun _ ↦ "reset").exec unguarded {} []
      Scenario.broadcastAgain).map Prod.snd =
        some [.started [0, 1, 2], .ended 0 2, .ended 1 errConnectionReset, .ended 2 2,
          .reported (networkError "reset"), .started [0, 2], .ended 0 2, .ended 2 2,
          .reported .OK] := by
    decide
  obtain ⟨⟨server, history⟩, hrun, heq⟩ := Option.map_eq_some_iff.mp hexec
  have run := (Run.start rfl).of_exec hrun
  exact ⟨server, history, run, bookkept_of_run _ server history run, heq⟩

end Felicia
