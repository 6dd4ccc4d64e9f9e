import Felicia.Channel.Socket
import Felicia.Support.Lists
import Felicia.Support.Transition

/-!
# Broadcasting to the sockets of a server

`felicia/core/channel/socket/stream_socket_broadcaster.cc`. `Broadcast` writes one buffer to every
connected socket, each through a `DrainableIOBuffer` of its own, and runs its callback when the last
write ended. Writes that had to wait end afterwards, in any order: `broadcasting` is the system
whose steps are these ends. Nothing else is modelled between them, so the buffer stays as it is.

`broadcastLoop_eq` compares what happens to one socket with `WriteRepeating`. `Progress` is the
invariant of the broadcast: each socket got what `WriteRepeating` would have written, and the counts
and the result are those of the writes that ended. A part that was written later counts as the end
of a write there too.
-/

set_option autoImplicit false
set_option relaxedAutoImplicit false

namespace Felicia

open Support TransitionSystem

/-! ### The broadcaster -/

/-- A socket of the server. -/
structure ClientSocket where
  connected : Bool := true
  /-- What its writes come to in this broadcast. -/
  outcomes : List (Outcome NetError)
  wire : List UInt8 := []
  /-- The buffer of the write that has to wait, and how it will end. -/
  waiting : Option (DrainableIOBuffer × Option (Completion NetError)) := none
  /-- What `OnWrite` was run with. -/
  ended : Option ℤ := none

/-- A socket that nothing was written to. -/
def ClientSocket.Fresh (s : ClientSocket) : Prop :=
  s.wire = [] ∧ s.waiting = none ∧ s.ended = none

/-- The results for which `OnWrite` closes the socket. Every socket of the broadcaster is a stream
socket. -/
def closes (result : ℤ) : Bool := result = errConnectionReset ∨ result = errFailed

/-- The part of `OnWrite` about the socket. -/
def ClientSocket.onWrite (socket : ClientSocket) (result : ℤ) : ClientSocket :=
  { socket with connected := socket.connected && !closes result, ended := some result }

/-- `StreamSocketBroadcaster`, and what the callback of `Broadcast` was run with. -/
structure Broadcaster where
  sockets : List ClientSocket
  toWriteCount : ℕ := 0
  writtenCount : ℕ := 0
  writeResult : ℤ := 0
  hasClosedSockets : Bool := false
  reported : Option ℤ := none

/-- The loop of `Broadcast` over one socket, and what it calls `OnWrite` with. -/
def broadcastLoop (buffer : DrainableIOBuffer) (socket : ClientSocket) :
    List (Outcome NetError) → ClientSocket × Option ℤ
  | [] => (socket, none)
  | outcome :: rest =>
    if 0 < buffer.bytesRemaining then
      match outcome with
      | .now completion =>
        let rv := result buffer.bytesRemaining completion
        let wire := socket.wire ++ buffer.data.take (completion.count buffer.bytesRemaining)
        let socket := { socket with wire }
        let buffer := if 0 ≤ rv then
          buffer.didConsume (completion.count buffer.bytesRemaining)
            (buffer.count_le_bytesRemaining completion)
          else buffer
        if buffer.bytesRemaining = 0 ∨ rv ≤ 0 then (socket, some rv)
        else broadcastLoop buffer socket rest
      | .pending later => ({ socket with waiting := some (buffer, later) }, none)
    else (socket, none)

namespace Broadcaster

/-- `EraseClosedSockets`. -/
def eraseClosedSockets (b : Broadcaster) : Broadcaster :=
  if b.hasClosedSockets then
    { b with sockets := b.sockets.filter (·.connected), hasClosedSockets := false }
  else b

/-- `OnWrite` for the socket at some place. -/
def onWrite (b : Broadcaster) (i : ℕ) (socket : ClientSocket) (result : ℤ) : Broadcaster :=
  let sockets := b.sockets.set i (socket.onWrite result)
  let hasClosedSockets := b.hasClosedSockets || closes result
  let writeResult := if result < 0 then result else b.writeResult
  if b.toWriteCount = b.writtenCount + 1 then
    { sockets, hasClosedSockets, reported := some writeResult }
  else { b with sockets, hasClosedSockets, writeResult, writtenCount := b.writtenCount + 1 }

/-- One round of the outer loop of `Broadcast`. -/
def writeTo (buffer : DrainableIOBuffer) (b : Broadcaster) (i : ℕ) : Broadcaster :=
  match b.sockets[i]? with
  | none => b
  | some socket =>
    match broadcastLoop buffer socket socket.outcomes with
    | (socket, some rv) => b.onWrite i socket rv
    | (socket, none) => { b with sockets := b.sockets.set i socket }

/-- `Broadcast`, of a buffer that holds at least `size` bytes. -/
def broadcast (buffer : List UInt8) (size : ℕ) (h : size ≤ buffer.length) (b : Broadcaster) :
    Broadcaster :=
  let b := b.eraseClosedSockets
  if b.sockets.length = 0 then { b with reported := some errSocketNotConnected }
  else (List.range b.sockets.length).foldl (writeTo (.make buffer size h))
    { b with toWriteCount := b.sockets.length }

/-- The write that waits at the socket at some place ends. -/
def complete (b : Broadcaster) (i : ℕ) : Option Broadcaster :=
  match b.sockets[i]? with
  | some socket =>
    match socket.waiting with
    | some (buffer, some completion) =>
      let socket := { socket with
        wire := socket.wire ++ buffer.data.take (completion.count buffer.bytesRemaining)
        waiting := none }
      some (b.onWrite i socket (result buffer.bytesRemaining completion))
    | _ => none
  | none => none

/-- No broadcast is under way: the checks at the start of `Broadcast`. -/
structure Idle (b : Broadcaster) : Prop where
  toWriteCount : b.toWriteCount = 0
  writtenCount : b.writtenCount = 0
  writeResult : b.writeResult = 0
  reported : b.reported = none
  sockets : ∀ s ∈ b.sockets, s.Fresh

end Broadcaster

/-- A broadcast of the first `size` bytes of a buffer: its steps are the ends of writes that had to
wait. -/
def broadcasting (buffer : List UInt8) (size : ℕ) (h : size ≤ buffer.length) (b : Broadcaster) :
    TransitionSystem Broadcaster ℕ Empty where
  Initial t := t = b.broadcast buffer size h
  step t i := (t.complete i).map fun t' ↦ (t', [])

/-! ### One socket -/

/-- What became of a socket, with what `OnWrite` was run with, agrees with `WriteRepeating`. -/
structure Tracks (w : WriteState) (socket : ClientSocket) (rv : Option ℤ) : Prop where
  ended : ∀ r, rv = some r → socket.waiting = none ∧ socket.wire = w.wire ∧ w.result = some r
  waiting : ∀ buffer completion, socket.waiting = some (buffer, some completion) →
    socket.wire ++ buffer.data.take (completion.count buffer.bytesRemaining) = w.wire ∧
      w.result = some (result buffer.bytesRemaining completion)

/-- The loop changes what was written and what waits. -/
theorem broadcastLoop_frame (buffer : DrainableIOBuffer) (socket : ClientSocket)
    (outcomes : List (Outcome NetError)) :
    (broadcastLoop buffer socket outcomes).1.outcomes = socket.outcomes ∧
      (broadcastLoop buffer socket outcomes).1.ended = socket.ended := by
  induction outcomes generalizing buffer socket with
  | nil => exact ⟨rfl, rfl⟩
  | cons outcome rest ih =>
    cases outcome with
    | pending later =>
      rw [broadcastLoop]
      split_ifs <;> exact ⟨rfl, rfl⟩
    | now completion =>
      rw [broadcastLoop]
      dsimp only
      by_cases hpos : 0 < buffer.bytesRemaining
      · rw [if_pos hpos]
        generalize (if 0 ≤ result buffer.bytesRemaining completion then _ else buffer) = buffer'
        split_ifs
        · exact ⟨rfl, rfl⟩
        · exact ih buffer' _
      · rw [if_neg hpos]
        exact ⟨rfl, rfl⟩

/-- Assumes: a socket without a write that waits. What happens to it, at once and when a write that
waits ends, is what `WriteRepeating` does. -/
theorem broadcastLoop_eq (buffer : DrainableIOBuffer) (socket : ClientSocket)
    (hwaiting : socket.waiting = none) (outcomes : List (Outcome NetError)) :
    Tracks (writeLoop buffer socket.wire outcomes) (broadcastLoop buffer socket outcomes).1
      (broadcastLoop buffer socket outcomes).2 := by
  induction outcomes generalizing buffer socket with
  | nil => exact ⟨by simp [broadcastLoop], by simp [broadcastLoop, hwaiting]⟩
  | cons outcome rest ih =>
    by_cases hpos : 0 < buffer.bytesRemaining
    swap
    · constructor <;> cases outcome <;> simp [broadcastLoop, hpos, hwaiting]
    cases outcome with
    | pending later =>
      rw [broadcastLoop, if_pos hpos]
      refine ⟨by simp, fun buffer' completion h ↦ ?_⟩
      obtain ⟨rfl, rfl⟩ := Prod.mk.inj (Option.some.inj h)
      rw [writeLoop, if_pos hpos]
      exact ⟨rfl, rfl⟩
    | now completion =>
      rw [broadcastLoop, if_pos hpos, writeLoop, if_pos hpos]
      dsimp only
      by_cases hrv : result buffer.bytesRemaining completion ≤ 0
      · rw [if_pos (Or.inr hrv), if_pos (Or.inr hrv)]
        refine ⟨fun r hr ↦ ⟨hwaiting, rfl, hr⟩, fun buffer' completion' h ↦ ?_⟩
        rw [show socket.waiting = some _ from h] at hwaiting
        cases hwaiting
      · rw [if_pos (show 0 ≤ result buffer.bytesRemaining completion by omega),
          if_pos (not_le.mp hrv)]
        split_ifs
        · refine ⟨fun r hr ↦ ⟨hwaiting, rfl, hr⟩, fun buffer' completion' h ↦ ?_⟩
          rw [show socket.waiting = some _ from h] at hwaiting
          cases hwaiting
        · exact ih _ { socket with wire := _ } hwaiting

/-! ### The counts and the result -/

namespace Broadcaster

/-- A result is negative exactly when some write ended with an error. -/
def Worst (sockets : List ClientSocket) (r : ℤ) : Prop :=
  r < 0 ↔ sockets.any (fun s ↦ s.ended.any (· < 0)) = true

/-- The state of a broadcast: each socket got what `WriteRepeating` writes, the count is that of the
writes that ended, and the callback runs when all of them did. -/
structure Progress (buffer : DrainableIOBuffer) (b : Broadcaster) : Prop where
  tracks : ∀ s ∈ b.sockets, Tracks (writeLoop buffer [] s.outcomes) s s.ended
  running : b.reported = none → b.toWriteCount = b.sockets.length ∧
    b.writtenCount = b.sockets.countP (·.ended.isSome) ∧ b.writtenCount < b.toWriteCount ∧
    Worst b.sockets b.writeResult
  done : ∀ r, b.reported = some r →
    (∀ s ∈ b.sockets, s.ended.isSome = true) ∧ Worst b.sockets r

section Replace

variable {buffer : DrainableIOBuffer} {b : Broadcaster} {i : ℕ} {old new : ClientSocket}

theorem tracks_set (h : b.Progress buffer) (i : ℕ) (new : ClientSocket)
    (hnew : Tracks (writeLoop buffer [] new.outcomes) new new.ended) :
    ∀ s ∈ b.sockets.set i new, Tracks (writeLoop buffer [] s.outcomes) s s.ended := by
  intro s hs
  rcases List.mem_or_eq_of_mem_set hs with hold | rfl
  · exact h.tracks s hold
  · exact hnew

theorem outcomes_set (hold : b.sockets[i]? = some old) (new : ClientSocket)
    (hnew : new.outcomes = old.outcomes) :
    (b.sockets.set i new).map (·.outcomes) = b.sockets.map (·.outcomes) := by
  obtain ⟨before, after, hsplit, hset⟩ := exists_split_set hold new
  rw [hset, hsplit]
  simp [hnew]

theorem sockets_onWrite (b : Broadcaster) (i : ℕ) (socket : ClientSocket) (r : ℤ) :
    (b.onWrite i socket r).sockets = b.sockets.set i (socket.onWrite r) := by
  unfold Broadcaster.onWrite
  dsimp only
  split <;> rfl

theorem outcomes_onWrite (hold : b.sockets[i]? = some old) (hnew : new.outcomes = old.outcomes)
    (r : ℤ) : (b.onWrite i new r).sockets.map (·.outcomes) = b.sockets.map (·.outcomes) := by
  rw [sockets_onWrite]
  exact outcomes_set hold (new.onWrite r) hnew

/-- Assumes: a broadcast under way, and a socket whose write goes on. -/
theorem Progress.set (h : b.Progress buffer) (hrunning : b.reported = none)
    (hold : b.sockets[i]? = some old) (hended : old.ended = none) (hended' : new.ended = none)
    (hnew : Tracks (writeLoop buffer [] new.outcomes) new none) :
    Progress buffer { b with sockets := b.sockets.set i new } := by
  obtain ⟨hcount, hwritten, hlt, hworst⟩ := h.running hrunning
  obtain ⟨before, after, hsplit, hset⟩ := exists_split_set hold new
  refine ⟨tracks_set h i new (hended' ▸ hnew), fun _ ↦ ⟨?_, ?_, hlt, ?_⟩, fun r hr ↦ ?_⟩
  · rw [List.length_set]
    exact hcount
  · rw [hwritten, hset, hsplit]
    simp [hended, hended']
  · rw [hsplit] at hworst
    simpa [Worst, hset, hended, hended'] using hworst
  · rw [hrunning] at hr
    cases hr

/-- Assumes: a broadcast under way, and a socket whose write ends now. -/
theorem Progress.onWrite (h : b.Progress buffer) (hrunning : b.reported = none)
    (hold : b.sockets[i]? = some old) (hended : old.ended = none) {r : ℤ}
    (hnew : Tracks (writeLoop buffer [] new.outcomes) new (some r)) :
    (b.onWrite i new r).Progress buffer := by
  obtain ⟨hcount, hwritten, hlt, hworst⟩ := h.running hrunning
  obtain ⟨before, after, hsplit, hset⟩ := exists_split_set hold (new.onWrite r)
  have htracks := tracks_set h i (new.onWrite r) ⟨hnew.ended, hnew.waiting⟩
  have hwritten' : (b.sockets.set i (new.onWrite r)).countP (·.ended.isSome) =
      b.writtenCount + 1 := by
    rw [hwritten, hset, hsplit]
    simp only [List.countP_append, List.countP_cons, hended, ClientSocket.onWrite,
      Option.isSome_none, Option.isSome_some, Bool.false_eq_true, ↓reduceIte]
    omega
  have hworst' : Worst (b.sockets.set i (new.onWrite r))
      (if r < 0 then r else b.writeResult) := by
    rw [hsplit] at hworst
    rw [Worst, hset]
    split_ifs with hr
    · simp [ClientSocket.onWrite, hr]
    · simpa [Worst, ClientSocket.onWrite, hended, hr] using hworst
  unfold Broadcaster.onWrite
  dsimp only
  by_cases hlast : b.toWriteCount = b.writtenCount + 1
  · rw [if_pos hlast]
    refine ⟨htracks, by simp, fun r' hr' ↦ ?_⟩
    obtain rfl := Option.some.inj hr'
    refine ⟨?_, hworst'⟩
    rw [← List.countP_eq_length, hwritten', List.length_set, ← hcount, hlast]
  · rw [if_neg hlast]
    refine ⟨htracks, fun _ ↦ ⟨?_, hwritten'.symm, ?_, hworst'⟩, fun r' hr' ↦ ?_⟩
    · rw [List.length_set]
      exact hcount
    · dsimp only
      omega
    · rw [show b.reported = some r' from hr'] at hrunning
      cases hrunning

end Replace

/-- Assumes: an end of a write that waits. -/
theorem exists_of_complete {b b' : Broadcaster} {i : ℕ} (hstep : b.complete i = some b') :
    ∃ old buffer completion wire, b.sockets[i]? = some old ∧
      old.waiting = some (buffer, some completion) ∧
      wire = old.wire ++ buffer.data.take (completion.count buffer.bytesRemaining) ∧
      b' = b.onWrite i { old with wire, waiting := none }
        (result buffer.bytesRemaining completion) := by
  unfold Broadcaster.complete at hstep
  cases hsocket : b.sockets[i]? with
  | none => simp [hsocket] at hstep
  | some old =>
    simp only [hsocket] at hstep
    split at hstep
    · rename_i buffer completion hwaiting
      exact ⟨old, buffer, completion, _, rfl, hwaiting, rfl, (Option.some.inj hstep).symm⟩
    · cases hstep

/-- Assumes: a socket whose `OnWrite` was not run. The callback was not run. -/
theorem Progress.running_of_mem {buffer : DrainableIOBuffer} {b : Broadcaster} {s : ClientSocket}
    (h : b.Progress buffer) (hmem : s ∈ b.sockets) (hended : s.ended = none) :
    b.reported = none := by
  cases hreported : b.reported with
  | none => rfl
  | some r =>
    have hall := (h.done r hreported).1 s hmem
    rw [hended] at hall
    cases hall

/-- Assumes: a socket with a write that waits. Its `OnWrite` was not run. -/
theorem Progress.ended_of_waiting {buffer : DrainableIOBuffer} {b : Broadcaster} {s : ClientSocket}
    (h : b.Progress buffer) (hmem : s ∈ b.sockets) (hwaiting : s.waiting ≠ none) :
    s.ended = none := by
  cases hended : s.ended with
  | none => rfl
  | some r => exact absurd ((h.tracks s hmem).ended r hended).1 hwaiting

/-- Assumes: an end of a write that waits. The step lemma. -/
theorem Progress.complete {buffer : DrainableIOBuffer} {b b' : Broadcaster} {i : ℕ}
    (h : b.Progress buffer) (hstep : b.complete i = some b') :
    b'.Progress buffer ∧ b'.sockets.map (·.outcomes) = b.sockets.map (·.outcomes) := by
  obtain ⟨socket, buffer', completion, wire, hsocket, hwaiting, rfl, rfl⟩ :=
    exists_of_complete hstep
  have hmem : socket ∈ b.sockets := List.mem_of_getElem? hsocket
  obtain ⟨hwire, hresult⟩ := (h.tracks socket hmem).waiting buffer' completion hwaiting
  have hended : socket.ended = none := h.ended_of_waiting hmem (by simp [hwaiting])
  have hrunning : b.reported = none := h.running_of_mem hmem hended
  refine ⟨h.onWrite hrunning hsocket hended ⟨fun r hr ↦ ⟨rfl, hwire, ?_⟩, by simp⟩, ?_⟩
  · rw [← hr]
    exact hresult
  · refine outcomes_onWrite hsocket ?_ _
    rfl

/-- Assumes: the sockets from some place on were not written to. The next one is written to. -/
theorem Progress.writeTo {buffer : DrainableIOBuffer} {b : Broadcaster} {i : ℕ}
    (h : b.Progress buffer) (hi : i < b.sockets.length)
    (hfresh : ∀ j s, i ≤ j → b.sockets[j]? = some s → s.Fresh) :
    (b.writeTo buffer i).Progress buffer ∧
      (b.writeTo buffer i).sockets.map (·.outcomes) = b.sockets.map (·.outcomes) ∧
      ∀ j s, i < j → (b.writeTo buffer i).sockets[j]? = some s → s.Fresh := by
  have hsocket : b.sockets[i]? = some b.sockets[i] := List.getElem?_eq_getElem hi
  obtain ⟨hwire, hwaiting, hended⟩ := hfresh i _ (Nat.le_refl i) hsocket
  have hrunning : b.reported = none :=
    h.running_of_mem (List.mem_of_getElem? hsocket) hended
  have htracks := broadcastLoop_eq buffer b.sockets[i] hwaiting b.sockets[i].outcomes
  obtain ⟨houtcomes, hended'⟩ := broadcastLoop_frame buffer b.sockets[i] b.sockets[i].outcomes
  rw [hwire] at htracks
  have hother (new : ClientSocket) (j : ℕ) (s : ClientSocket) (hj : i < j)
      (hs : (b.sockets.set i new)[j]? = some s) : s.Fresh := by
    rw [List.getElem?_set_ne (Nat.ne_of_lt hj)] at hs
    exact hfresh j s (Nat.le_of_lt hj) hs
  unfold Broadcaster.writeTo
  rw [hsocket]
  dsimp only
  generalize broadcastLoop buffer b.sockets[i] b.sockets[i].outcomes = written at *
  obtain ⟨socket, rv⟩ := written
  dsimp only at houtcomes hended' htracks
  rw [← houtcomes] at htracks
  cases rv with
  | none =>
    exact ⟨h.set hrunning hsocket hended (hended'.trans hended) htracks,
      outcomes_set hsocket socket houtcomes, hother socket⟩
  | some r =>
    refine ⟨h.onWrite hrunning hsocket hended htracks, outcomes_onWrite hsocket houtcomes r, ?_⟩
    dsimp only
    rw [sockets_onWrite]
    exact hother _

/-- Assumes: no broadcast under way, and some sockets. The start of the loop. -/
theorem Idle.start {buffer : DrainableIOBuffer} {b : Broadcaster} (h : b.Idle)
    (hpos : 0 < b.sockets.length) :
    Progress buffer { b with toWriteCount := b.sockets.length } := by
  have hended (s : ClientSocket) (hs : s ∈ b.sockets) : s.ended = none := (h.sockets s hs).2.2
  have hnone : b.sockets.countP (·.ended.isSome) = 0 :=
    List.countP_eq_zero.mpr fun s hs ↦ by simp [hended s hs]
  have hworst : Worst b.sockets 0 := by
    simp only [Worst, Int.lt_irrefl, List.any_eq_true, false_iff, not_exists, not_and]
    intro s hs
    simp [hended s hs]
  refine ⟨fun s hs ↦ ?_, fun _ ↦ ⟨rfl, ?_, ?_, ?_⟩, fun r hr ↦ ?_⟩
  · obtain ⟨-, hwaiting, hended⟩ := h.sockets s hs
    exact ⟨by simp [hended], by simp [hwaiting]⟩
  · exact h.writtenCount.trans hnone.symm
  · dsimp only
    rwa [h.writtenCount]
  · dsimp only
    rwa [h.writeResult]
  · cases h.reported.symm.trans hr

theorem Idle.eraseClosedSockets {b : Broadcaster} (h : b.Idle) : b.eraseClosedSockets.Idle := by
  unfold Broadcaster.eraseClosedSockets
  split_ifs
  · exact ⟨h.toWriteCount, h.writtenCount, h.writeResult, h.reported,
      fun s hs ↦ h.sockets s (List.mem_of_mem_filter hs)⟩
  · exact h

/-- Assumes: no broadcast under way, a list of sockets that is not empty once the closed ones are
erased, and a set of states that is kept by the write to a socket that was not written to. -/
theorem Idle.broadcast_invariant {buffer : List UInt8} {size : ℕ} (hsize : size ≤ buffer.length)
    {b : Broadcaster} (h : b.Idle) (hsockets : b.eraseClosedSockets.sockets ≠ [])
    {I : Broadcaster → Prop}
    (hstart : I { b.eraseClosedSockets with
      toWriteCount := b.eraseClosedSockets.sockets.length })
    (hwrite : ∀ t i s, t.reported = none → t.sockets[i]? = some s → s.Fresh → I t →
      I (t.writeTo (.make buffer size hsize) i)) :
    I (b.broadcast buffer size hsize) ∧
      (b.broadcast buffer size hsize).Progress (.make buffer size hsize) ∧
      (b.broadcast buffer size hsize).sockets.map (·.outcomes) =
        b.eraseClosedSockets.sockets.map (·.outcomes) := by
  have herase := h.eraseClosedSockets
  rw [Broadcaster.broadcast]
  generalize b.eraseClosedSockets = e at *
  have hpos : 0 < e.sockets.length := List.length_pos_iff.mpr hsockets
  rw [if_neg (Nat.ne_of_gt hpos)]
  -- The invariant holds after any number of rounds, with the sockets that are left as they were.
  have hrounds (k : ℕ) (hk : k ≤ e.sockets.length) :
      ∀ t, t = (List.range k).foldl (Broadcaster.writeTo (.make buffer size hsize))
          { e with toWriteCount := e.sockets.length } →
        I t ∧ t.Progress (.make buffer size hsize) ∧
          t.sockets.map (·.outcomes) = e.sockets.map (·.outcomes) ∧
          ∀ j s, k ≤ j → t.sockets[j]? = some s → s.Fresh := by
    induction k with
    | zero =>
      rintro t rfl
      exact ⟨hstart, herase.start hpos, rfl,
        fun j s _ hs ↦ herase.sockets s (List.mem_of_getElem? hs)⟩
    | succ k ih =>
      rintro t rfl
      rw [List.range_succ, List.foldl_append]
      obtain ⟨hinv, hprogress, houtcomes, hfresh⟩ := ih (by omega) _ rfl
      generalize List.foldl (Broadcaster.writeTo (.make buffer size hsize)) _ (List.range k) = t
        at *
      have hlength := congrArg List.length houtcomes
      rw [List.length_map, List.length_map] at hlength
      have hsocket : t.sockets[k]? = some t.sockets[k] := List.getElem?_eq_getElem (by omega)
      have hsocketFresh := hfresh k _ (Nat.le_refl k) hsocket
      have hrunning := hprogress.running_of_mem (List.mem_of_getElem? hsocket) hsocketFresh.2.2
      obtain ⟨hprogress', houtcomes', hfresh'⟩ := hprogress.writeTo (by omega) hfresh
      exact ⟨hwrite t k _ hrunning hsocket hsocketFresh hinv, hprogress',
        houtcomes'.trans houtcomes, hfresh'⟩
  obtain ⟨hinv, hprogress, houtcomes, -⟩ := hrounds e.sockets.length (Nat.le_refl _) _ rfl
  exact ⟨hinv, hprogress, houtcomes⟩

/-- Assumes: a broadcast to some sockets. The run lemma. -/
theorem progress_of_reachable {buffer : List UInt8} {size : ℕ} {hsize : size ≤ buffer.length}
    {b₀ b : Broadcaster} (hidle : b₀.Idle) (hsockets : b₀.eraseClosedSockets.sockets ≠ [])
    (h : Reachable (broadcasting buffer size hsize b₀) unguarded b) :
    b.Progress (.make buffer size hsize) ∧
      b.sockets.map (·.outcomes) = b₀.eraseClosedSockets.sockets.map (·.outcomes) := by
  refine h.invariant (I := fun b ↦ b.Progress (.make buffer size hsize) ∧
    b.sockets.map (·.outcomes) = b₀.eraseClosedSockets.sockets.map (·.outcomes)) ?_ ?_
  · rintro b rfl
    exact (hidle.broadcast_invariant (I := fun _ ↦ True) hsize hsockets trivial
      fun _ _ _ _ _ _ _ ↦ trivial).2
  · rintro b i b' observed ⟨hprogress, houtcomes⟩ - hstep
    obtain ⟨t, hcomplete, heq⟩ := Option.map_eq_some_iff.mp hstep
    cases heq
    obtain ⟨hprogress', houtcomes'⟩ := hprogress.complete hcomplete
    exact ⟨hprogress', houtcomes'.trans houtcomes⟩

/-- Assumes: no sockets. The callback is run with an error, and nothing follows. -/
theorem reachable_of_no_sockets {buffer : List UInt8} {size : ℕ} {hsize : size ≤ buffer.length}
    {b₀ b : Broadcaster} (hsockets : b₀.eraseClosedSockets.sockets = [])
    (h : Reachable (broadcasting buffer size hsize b₀) unguarded b) :
    b.sockets = [] ∧ b.reported = some errSocketNotConnected := by
  refine h.invariant
    (I := fun b ↦ b.sockets = [] ∧ b.reported = some errSocketNotConnected) ?_ ?_
  · rintro b rfl
    simp [Broadcaster.broadcast, hsockets]
  · rintro b i b' observed ⟨hnil, -⟩ - hstep
    simp [broadcasting, Broadcaster.complete, hnil] at hstep

end Broadcaster

/-! ### Success and what was sent -/

section Exact

variable {buffer : List UInt8} {size : ℕ} {hsize : size ≤ buffer.length}

/-- Assumes: something to write, and a write that ended. What was written, and whether it failed. -/
theorem Tracks.of_ended (hpos : 0 < size) {s : ClientSocket} {r : ℤ}
    (h : Tracks (writeLoop (.make buffer size hsize) [] s.outcomes) s (some r)) :
    s.wire = buffer.take (transfer size s.outcomes).moved ∧ (r < 0 ↔ Fails size s.outcomes) ∧
      (0 ≤ r ↔ (transfer size s.outcomes).succeeded? = some true) := by
  obtain ⟨-, hwire, hresult⟩ := h.ended r rfl
  obtain ⟨hwire', hsucceeded⟩ := writeRepeating_eq hpos hsize s.outcomes
  rw [writeRepeating, hresult, Option.map_some] at hsucceeded
  refine ⟨hwire.trans hwire', ?_, ?_⟩
  · rw [← fails_iff hpos, ← hsucceeded]
    simp
  · rw [← hsucceeded]
    simp

/-- When the callback of a broadcast reports success, every socket was sent exactly the first `size`
bytes of the buffer; this is so precisely when the writes to some socket fail, or no write to any
socket moves nothing and each that has to wait fails or moves all that was left. -/
theorem broadcast_exact_iff (errorToString : ℤ → String) (buffer : List UInt8) (size : ℕ)
    (hpos : 0 < size) (hsize : size ≤ buffer.length) (b₀ : Broadcaster) (hidle : b₀.Idle)
    (b : Broadcaster) (hreach : Reachable (broadcasting buffer size hsize b₀) unguarded b) (r : ℤ)
    (hreported : b.reported = some r) :
    (callbackWithStatus errorToString r = .OK → ∀ s ∈ b.sockets, s.wire = buffer.take size) ↔
      (∃ s ∈ b₀.eraseClosedSockets.sockets, Fails size s.outcomes) ∨
        ∀ s ∈ b₀.eraseClosedSockets.sockets, Whole size s.outcomes := by
  rw [callbackWithStatus_eq_OK]
  by_cases hsockets : b₀.eraseClosedSockets.sockets = []
  · obtain ⟨hnil, -⟩ := Broadcaster.reachable_of_no_sockets hsockets hreach
    simp [hnil, hsockets]
  obtain ⟨hprogress, houtcomes⟩ := Broadcaster.progress_of_reachable hidle hsockets hreach
  obtain ⟨hall, hworst⟩ := hprogress.done r hreported
  have hended (s : ClientSocket) (hs : s ∈ b.sockets) : ∃ x, s.ended = some x ∧
      s.wire = buffer.take (transfer size s.outcomes).moved ∧ (x < 0 ↔ Fails size s.outcomes) ∧
      (0 ≤ x ↔ (transfer size s.outcomes).succeeded? = some true) := by
    obtain ⟨x, hx⟩ := Option.isSome_iff_exists.mp (hall s hs)
    exact ⟨x, hx, Tracks.of_ended hpos (hx ▸ hprogress.tracks s hs)⟩
  have hfails : r < 0 ↔ ∃ s ∈ b.sockets, Fails size s.outcomes := by
    refine hworst.trans ?_
    rw [List.any_eq_true]
    refine exists_congr fun s ↦ and_congr_right fun hs ↦ ?_
    obtain ⟨x, hx, -, hfail, -⟩ := hended s hs
    simp [hx, hfail]
  have hexists : (∃ s ∈ b₀.eraseClosedSockets.sockets, Fails size s.outcomes) ↔
      ∃ s ∈ b.sockets, Fails size s.outcomes := by
    simpa using congrArg (fun l ↦ ∃ o ∈ l, Fails size o) houtcomes.symm
  have hforall : (∀ s ∈ b₀.eraseClosedSockets.sockets, Whole size s.outcomes) ↔
      ∀ s ∈ b.sockets, Whole size s.outcomes := by
    simpa using congrArg (fun l ↦ ∀ o ∈ l, Whole size o) houtcomes.symm
  rw [hexists, hforall, ← hfails]
  constructor
  · intro hexact
    refine or_iff_not_imp_left.mpr fun hr s hs ↦ ?_
    obtain ⟨x, -, hwire, -⟩ := hended s hs
    rw [← whole_iff hpos]
    exact fun _ ↦ (take_moved_eq_iff hsize).mp (hwire.symm.trans (hexact (not_lt.mp hr) s hs))
  · rintro (hr | hwhole) hok s hs
    · exact absurd hr (not_lt.mpr hok)
    · obtain ⟨x, -, hwire, hfail, hsucceeded⟩ := hended s hs
      have hx : 0 ≤ x := not_lt.mp fun hx ↦
        absurd (hfails.mpr ⟨s, hs, hfail.mp hx⟩) (not_lt.mpr hok)
      rw [hwire, (whole_iff hpos _).mpr (hwhole s hs) (hsucceeded.mp hx)]

end Exact

/-- A broadcaster whose sockets were not written to. -/
def Scenario.broadcaster (outcomes : List (List (Outcome NetError))) : Broadcaster :=
  { sockets := outcomes.map fun outcomes ↦ { outcomes } }

theorem Scenario.broadcaster_idle (outcomes : List (List (Outcome NetError))) :
    (broadcaster outcomes).Idle :=
  ⟨rfl, rfl, rfl, rfl, by simp [broadcaster, ClientSocket.Fresh]⟩

/-- Three sockets: one takes the bytes at once, one in two parts of which the second waits, and one
has to wait for all of them. -/
def Scenario.threeSockets : Broadcaster :=
  broadcaster [[.now (.moved 4)], [.now (.moved 1), .pending (some (.moved 3))],
    [.pending (some (.moved 4))]]

/-- The write to the last of the three sockets is done before the one to the second. -/
theorem broadcast_exact_iff_of_three :
    ∃ b, Reachable (broadcasting [1, 2, 3, 4] 4 (by decide) Scenario.threeSockets) unguarded b ∧
      b.reported = some 0 ∧ b.sockets.length = 3 ∧
      ∀ s ∈ b.sockets, s.wire = [1, 2, 3, 4] := by
  have hexec : ((broadcasting [1, 2, 3, 4] 4 (by decide) Scenario.threeSockets).exec unguarded
      (Scenario.threeSockets.broadcast [1, 2, 3, 4] 4 (by decide)) [] [2, 1]).map
      (fun result ↦ (result.1.reported, result.1.sockets.length)) = some (some 0, 3) := by
    decide
  obtain ⟨⟨b, history⟩, hrun, heq⟩ := Option.map_eq_some_iff.mp hexec
  obtain ⟨hreported, hlength⟩ := Prod.mk.inj heq
  have hreach := (Run.start rfl).of_exec hrun
  refine ⟨b, ⟨history, hreach⟩, hreported, hlength, ?_⟩
  have hiff := broadcast_exact_iff (fun _ ↦ "") [1, 2, 3, 4] 4 (by decide) (by decide) _
    (Scenario.broadcaster_idle _) b ⟨history, hreach⟩ 0 hreported
  exact hiff.mpr (Or.inr (by decide)) rfl

/-- One of two sockets has to wait, and one byte of four is written to it later. -/
theorem pending_broadcast_not_exact :
    ¬ ∀ (b₀ b : Broadcaster), b₀.Idle →
      Reachable (broadcasting [1, 2, 3, 4] 4 (by decide) b₀) unguarded b →
        b.reported.map (callbackWithStatus fun _ ↦ "") = some .OK →
          ∀ s ∈ b.sockets, s.wire = [1, 2, 3, 4] := by
  intro h
  have hexec : ((broadcasting [1, 2, 3, 4] 4 (by decide) (Scenario.broadcaster
      [[.now (.moved 4)], [.pending (some (.moved 1))]])).exec unguarded
      (Broadcaster.broadcast [1, 2, 3, 4] 4 (by decide) (Scenario.broadcaster
        [[.now (.moved 4)], [.pending (some (.moved 1))]])) [] [1]).map
      (fun result ↦ (result.1.reported, result.1.sockets.map (·.wire))) =
      some (some 0, [[1, 2, 3, 4], [1]]) := by
    decide
  obtain ⟨⟨b, history⟩, hrun, heq⟩ := Option.map_eq_some_iff.mp hexec
  obtain ⟨hreported, hwires⟩ := Prod.mk.inj heq
  have hreach := (Run.start rfl).of_exec hrun
  have hall := h _ b (Scenario.broadcaster_idle _) ⟨history, hreach⟩ (by rw [hreported]; rfl)
  have hmem : [1] ∈ b.sockets.map (·.wire) := by
    rw [hwires]
    decide
  obtain ⟨s, hs, hwire⟩ := List.mem_map.mp hmem
  have hexact := hall s hs
  rw [hwire] at hexact
  exact absurd hexact (by decide)

end Felicia
