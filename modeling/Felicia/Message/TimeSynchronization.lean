import Felicia.Message.TimeSynchronizer

/-!
# Time synchronization

A `MessageFilter` whose filter callback is `TimeSyncrhonizerMF::Callback`, from its construction on:
the callback decides on the sets that it peeks at, and `Notify` then takes the oldest messages that
are left.

`PeekMessage` returns the oldest message for every index, so that the callback sees the same set
again after it went on to the next message, accepts it until its peek index is that of the last
message of the type, and drops the others. The set that is notified is then one that was never
examined. `synchronization_of_run` says that the notified sets keep to the limits in every run where
this does not happen: whenever a set is accepted whose time stamps differ, the type of its earliest
message has no further message.
-/

set_option autoImplicit false
set_option relaxedAutoImplicit false

namespace Felicia

open Support TransitionSystem

variable {n : ℕ} {M : Fin (n + 1) → Type}

/-! ### State and steps -/

/-- A filter and its callback. -/
structure Synchronization {n : ℕ} (M : Fin (n + 1) → Type) where
  filter : MessageFilter M
  synchronizer : TimeSynchronizer

namespace Synchronization

variable (T : TimeStamps M) (s : Synchronization M) (message : (i : Fin (n + 1)) × M i)

/-- The filter with one more message. -/
def pushed : MessageFilter M := s.filter.push message.1 message.2

/-- `OnMessage`, unless a `CHECK` fails. -/
def onMessage : Option (Synchronization M × List (FilterEvent M)) :=
  if (s.pushed message).doesAllQueueHaveElement then
    match s.synchronizer.callback T MessageFilter.peekMessage (s.pushed message) with
    | .finished result =>
      let applied := s.filter.onMessage
        (some (MessageFilter.callingBack (result.calls, result.returned))) message.1 message.2
      some (⟨applied.1, result.synchronizer⟩, applied.2)
    | .failed | .unfinished => none
  else some (⟨s.pushed message, s.synchronizer⟩, [])

end Synchronization

/-- A filter and its callback from their construction on. -/
def synchronizing (T : TimeStamps M) (capacity : ℕ+)
    (maxIntraTimeDifference minInterTimeDifference : ℤ) :
    TransitionSystem (Synchronization M) ((i : Fin (n + 1)) × M i) (FilterEvent M) where
  Initial s := s = ⟨MessageFilter.ofCapacity capacity,
    { maxIntraTimeDifference, minInterTimeDifference }⟩
  step s message := s.onMessage T message

/-! ### Limits -/

/-- Time stamps whose differences do not saturate. -/
structure TimeRange where
  first : ℤ
  last : ℤ
  min_lt_first : timeMin < first
  last_lt_max : last < timeMax
  sub_le : last - first ≤ timeMax

/-- The set that an event notifies. -/
def FilterEvent.notified? : FilterEvent M → Option (∀ i, Option (M i))
  | .notified messages => some messages
  | _ => none

/-- The sets that were notified. -/
def notifiedSets (history : List (FilterEvent M)) : List (∀ i, Option (M i)) :=
  history.filterMap FilterEvent.notified?

/-- Each of some sets has a message of each type, whose time stamps differ by at most the one limit,
and every later one begins at least the other after the end of the one before. -/
structure KeepsLimits (T : TimeStamps M) (maxIntraTimeDifference minInterTimeDifference : ℤ)
    (sets : List (∀ i, Option (M i))) : Prop where
  complete : ∀ set ∈ sets, ∀ i, (set i).isSome
  intra : ∀ set ∈ sets, ∀ i, ∀ a ∈ set i, ∀ j, ∀ b ∈ set j,
    T.timestamp i a - T.timestamp j b ≤ maxIntraTimeDifference
  inter : sets.IsChain fun set later ↦ ∀ i, ∀ a ∈ set i, ∀ j, ∀ b ∈ later j,
    minInterTimeDifference ≤ T.timestamp j b - T.timestamp i a

namespace Synchronization

variable (T : TimeStamps M) (s : Synchronization M) (message : (i : Fin (n + 1)) × M i)

/-- The queues when the callback accepts a set, or gives up. -/
def settled : TimeQueues n := s.synchronizer.settle (T.queuesOf (s.pushed message))

/-- If a set is accepted whose time stamps differ, then the type of its earliest message has no
further message. -/
def EndsAtOnce : Prop :=
  (s.pushed message).doesAllQueueHaveElement = true →
    s.synchronizer.accepts (s.settled T message).heads = true →
      (s.settled T message).heads.spread = 0 ∨ ¬ (s.settled T message).EarliestHasNext

instance : Decidable (s.EndsAtOnce T message) := inferInstanceAs (Decidable (_ → _ → _ ∨ _))

/-- The time stamp is in the range, and a set that is accepted ends the search. -/
def Orderly (range : TimeRange) : Prop :=
  T.timestamp message.1 message.2 ∈ Set.Icc range.first range.last ∧ s.EndsAtOnce T message

instance (range : TimeRange) : Decidable (s.Orderly T message range) :=
  inferInstanceAs (Decidable ((_ ∧ _) ∧ _))

end Synchronization

/-! ### Examining in a range -/

variable {T : TimeStamps M} {range : TimeRange} {f : MessageFilter M}

namespace TimeSynchronizer

variable {s : TimeSynchronizer} {times : TimeSet n}

/-- The time stamp that is kept is in the range, or none is kept. -/
def LastInRange (s : TimeSynchronizer) (range : TimeRange) : Prop :=
  s.lastTimestamp = timeMin ∨ s.lastTimestamp ∈ Set.Icc range.first range.last

/-- Assumes: time stamps in a range. No `CHECK` fails, and a set is accepted within the limits. -/
theorem examine_of_range (htimes : ∀ i, times i ∈ Set.Icc range.first range.last)
    (hlast : s.LastInRange range) :
    s.examine times ≠ none ∧
      (s.accepts times = true → times.spread ≤ s.maxIntraTimeDifference ∧
        (s.lastTimestamp = timeMin ∨
          s.minInterTimeDifference ≤ times.earliest - s.lastTimestamp)) := by
  have hmin := range.min_lt_first
  have hmax := range.last_lt_max
  have hsub := range.sub_le
  have hinRange : times.InRange := fun i ↦
    ⟨hmin.le.trans (htimes i).1, (htimes i).2.trans hmax.le⟩
  have hearliest : times.earliest ∈ Set.Icc range.first range.last :=
    ⟨Finset.le_inf' _ _ fun i _ ↦ (htimes i).1, (TimeSet.earliest_le 0).trans (htimes 0).2⟩
  have hlatest : times.latest ∈ Set.Icc range.first range.last :=
    ⟨(htimes 0).1.trans (TimeSet.le_latest 0), Finset.sup'_le _ _ fun i _ ↦ (htimes i).2⟩
  have hexact (value delta : ℤ) (hvalue : value ∈ Set.Icc range.first range.last)
      (hdelta : delta ∈ Set.Icc range.first range.last) :
      saturatedSub value delta = some (value - delta) := by
    obtain ⟨hvalue₁, hvalue₂⟩ := hvalue
    obtain ⟨hdelta₁, hdelta₂⟩ := hdelta
    refine saturatedSub_eq (hmin.trans_le hdelta₁) (hdelta₂.trans_lt hmax) ⟨?_, ?_⟩
    · unfold timeMin
      unfold timeMax at hsub
      omega
    · omega
  have hidx := hinRange.idx_eq (hearliest.2.trans_lt hmax)
  have haccepted : ∃ accepted, s.isAccepted times.spread times.earliest = some accepted ∧
      (accepted = true → times.spread ≤ s.maxIntraTimeDifference ∧
        (s.lastTimestamp = timeMin ∨
          s.minInterTimeDifference ≤ times.earliest - s.lastTimestamp)) := by
    unfold isAccepted
    split_ifs with hspread hfirst
    · exact ⟨false, rfl, nofun⟩
    · exact ⟨true, rfl, fun _ ↦ ⟨not_lt.mp hspread, .inl hfirst⟩⟩
    · have hlast' := hlast.resolve_left hfirst
      rw [hexact _ _ hearliest hlast']
      exact ⟨_, rfl, fun hle ↦ ⟨not_lt.mp hspread, .inr (of_decide_eq_true hle)⟩⟩
  obtain ⟨accepted, hsome, hlimits⟩ := haccepted
  have hexamine : s.examine times = some
      { earliestIdx := times.earliestIdx, latestTimestamp := times.latest, delta := times.spread
        isAccepted := accepted } := by
    rw [examine, hinRange.earliest_eq, hinRange.latest_eq, hexact _ _ hlatest hearliest, hidx]
    show (s.isAccepted times.spread times.earliest).bind _ = _
    rw [hsome]
    rfl
  refine ⟨by simp [hexamine], fun haccepts ↦ hlimits ?_⟩
  rwa [accepts, hexamine] at haccepts

end TimeSynchronizer

/-! ### The loop -/

/-- The time stamps of the messages of a filter are in a range. -/
def MessageFilter.StampedIn (T : TimeStamps M) (range : TimeRange) (f : MessageFilter M) : Prop :=
  ∀ i, ∀ message ∈ f.contents i, T.timestamp i message ∈ Set.Icc range.first range.last

namespace MessageFilter

variable {i : Fin (n + 1)}

theorem StampedIn.pop (h : f.StampedIn T range) (hwell : f.IsWellFormed) (i : Fin (n + 1)) :
    (f.pop i).StampedIn T range :=
  fun j message hmessage ↦ h j message (hwell.mem_contents_of_mem_pop hmessage)

theorem StampedIn.push (h : f.StampedIn T range) (hwell : f.IsWellFormed) {message : M i}
    (hmessage : T.timestamp i message ∈ Set.Icc range.first range.last) :
    (f.push i message).StampedIn T range := by
  intro j m hm
  by_cases hj : j = i
  · subst hj
    obtain heq | heq := hwell.contents_push_self j message <;> rw [heq] at hm
    · obtain hm | hm := List.mem_append.mp hm
      · exact h j m hm
      · exact List.mem_singleton.mp hm ▸ hmessage
    · obtain hm | hm := List.mem_append.mp hm
      · exact h j m (List.mem_of_mem_tail hm)
      · exact List.mem_singleton.mp hm ▸ hmessage
  · rw [contents_push_of_ne f hj] at hm
    exact h j m hm

theorem StampedIn.runCalls (h : f.StampedIn T range) (hkept : f.Kept)
    {calls : List (FilterCall (n + 1))} (hdrops : f.DropsMessages calls) :
    (f.runCalls calls).1.StampedIn T range := by
  induction calls generalizing f with
  | nil => exact h
  | cons c calls ih =>
    refine ih (fun j message hmessage ↦ ?_) (hkept.call hdrops.1) hdrops.2
    exact h j message (hkept.wellFormed.mem_contents_of_mem_call hmessage)

theorem StampedIn.takeFronts (h : f.StampedIn T range) (hwell : f.IsWellFormed)
    (indices : List (Fin (n + 1))) : (f.takeFronts indices).1.StampedIn T range := by
  induction indices generalizing f with
  | nil => exact h
  | cons i rest ih => exact ih (h.pop hwell i) (hwell.pop i)

theorem StampedIn.heads (h : f.StampedIn T range) (hready : f.Ready) (i : Fin (n + 1)) :
    (T.queuesOf f).heads i ∈ Set.Icc range.first range.last := by
  have hmem := TimeQueues.heads_mem (q := T.queuesOf f)
    (fun i hnil ↦ hready.ne_nil i (List.map_eq_nil_iff.mp hnil)) i
  obtain ⟨message, hmessage, heq⟩ := List.mem_map.mp hmem
  exact heq ▸ h i message hmessage

end MessageFilter

variable {s : TimeSynchronizer}

/-- The oldest messages are a set that is accepted, or none is. -/
structure SyncLoop.Ends (T : TimeStamps M) (s : TimeSynchronizer) (f : MessageFilter M)
    (loop : SyncLoop M) : Prop where
  ready : loop.filter.Ready
  peekIdxs : loop.peekIdxs = fun _ ↦ 0
  filter : loop.filter = (f.runCalls loop.calls).1
  drops : f.DropsMessages loop.calls
  candidate : loop.hasCandidate = true →
    s.accepts (T.queuesOf loop.filter).heads = true ∧
      loop.lastTimestampCandidate = (T.queuesOf loop.filter).heads.latest

/-- A round that accepts a set ends the loop, if the time stamps are the same, or no message follows
the earliest. -/
theorem SyncLoop.Searching.roundWith_ends {loop : SyncLoop M} (h : loop.Searching T s f)
    {set : Examined n} (hset : s.Describes (loop.view T).heads set)
    (haccepts : s.accepts (loop.view T).heads = true)
    (hends : (loop.view T).heads.spread = 0 ∨ ¬ (loop.view T).EarliestHasNext)
    {fails : Prop} {P : SyncLoop M → Prop} :
    (loop.roundWith (loop.view T).heads set).Meets fails P (fun result ↦ result.Ends T s f) := by
  have hview := view_of_start T h.peekIdxs
  have hcandidate : s.accepts (T.queuesOf loop.filter).heads = true ∧
      set.latestTimestamp = (T.queuesOf loop.filter).heads.latest := by
    rw [← hview]
    exact ⟨haccepts, hset.latestTimestamp⟩
  unfold roundWith
  rw [if_pos (hset.isAccepted.trans haccepts)]
  split_ifs with hdelta hlt
  · exact ⟨h.ready, h.peekIdxs, h.filter, h.drops, fun _ ↦ hcandidate⟩
  · rw [hset.earliestIdx] at hlt
    obtain hzero | hnext := hends
    · exact absurd (hset.delta.mpr hzero) hdelta
    · exact absurd (h.isWithin.lt_messageCountAt_iff.mp hlt) hnext
  · exact ⟨h.ready, h.peekIdxs, h.filter, h.drops, fun _ ↦ hcandidate⟩

/-- Assumes: time stamps in a range, and a set that is accepted ends the search. The loop ends, and
the oldest messages that it leaves are the set that is accepted, if there is one. -/
theorem SyncLoop.runLoop_ends (hready : f.Ready) (hstamped : f.StampedIn T range)
    (hlast : s.LastInRange range)
    (hends : s.accepts (s.settle (T.queuesOf f)).heads = true →
      (s.settle (T.queuesOf f)).heads.spread = 0 ∨ ¬ (s.settle (T.queuesOf f)).EarliestHasNext) :
    (runLoop (round T MessageFilter.peekMessage · s) (∑ i, f.messageCount i + 1)
      { filter := f }).Meets False (fun result ↦ result.Ends T s f) := by
  refine runLoop_meets (P := fun loop ↦ loop.Searching T s f) (fun loop ↦ (loop.view T).total) ?_
    (searching_start T s hready) ?_
  · intro loop h
    have hwell := h.ready.kept.wellFormed
    have hpeeks : loop.Peeks MessageFilter.peekMessage := by
      intro i
      rw [hwell.peekMessage_eq i (h.ready.ne_nil i), h.peekIdxs, List.head?_eq_getElem?]
    have hview := view_of_start T h.peekIdxs
    have hinRange : loop.filter.StampedIn T range := by
      rw [h.filter]
      exact hstamped.runCalls hready.kept h.drops
    refine h.isWithin.round_meets hpeeks (fun hnone ↦ ?_) fun set _ hset ↦ ?_
    · have htimes := hinRange.heads h.ready
      rw [← hview] at htimes
      exact (TimeSynchronizer.examine_of_range htimes hlast).1 hnone
    · refine h.roundWith_meets hset (fun next hnext hlt ↦ ⟨hnext, hlt⟩) ?_ fun haccepts ↦ ?_
      · exact ⟨h.ready, h.peekIdxs, h.filter, h.drops, fun hcandidate ↦ absurd hcandidate
          (by simp [h.hasCandidate])⟩
      · have hsettle := h.settle
        rw [s.settle_of_accepts haccepts] at hsettle
        rw [← hsettle] at hends
        exact h.roundWith_ends hset haccepts (hends haccepts)
  · rw [view_of_start T rfl, total_queuesOf T hready.kept]
    exact Nat.lt_succ_self _

/-! ### Notified sets -/

namespace MessageFilter

theorem notifiedSets_append (history rest : List (FilterEvent M)) :
    notifiedSets (history ++ rest) = notifiedSets history ++ notifiedSets rest :=
  List.filterMap_append

theorem notifiedSets_runCalls (f : MessageFilter M) (calls : List (FilterCall (n + 1))) :
    notifiedSets (f.runCalls calls).2 = [] := by
  induction calls generalizing f with
  | nil => rfl
  | cons c calls ih => exact ih (f.call c)

theorem notifiedSets_takeFronts (f : MessageFilter M) (indices : List (Fin (n + 1))) :
    notifiedSets (f.takeFronts indices).2 = [] := by
  induction indices generalizing f with
  | nil => rfl
  | cons i rest ih => exact ih (f.pop i)

theorem notifiedSets_notify (f : MessageFilter M) :
    notifiedSets f.notify.2 = [fun i ↦ (f.queues i).front] := by
  rw [notify, notifiedSets_append, notifiedSets_takeFronts]
  rfl

/-- A message of each type is notified, with the time stamp that was examined. -/
theorem Ready.front_eq (h : f.Ready) (T : TimeStamps M) (i : Fin (n + 1)) :
    ∃ message, (f.queues i).front = some message ∧
      T.timestamp i message = (T.queuesOf f).heads i := by
  have hne := h.ne_nil i
  have hfront := h.kept.wellFormed.front_eq i hne
  unfold TimeQueues.heads TimeStamps.queuesOf
  cases hcontents : f.contents i with
  | nil => exact absurd hcontents hne
  | cons message rest =>
    rw [hcontents] at hfront
    exact ⟨message, hfront, rfl⟩

end MessageFilter

/-! ### Steps -/

/-- The time stamp that is kept is not before any of the set that was notified last. -/
def KeepsLast (T : TimeStamps M) (range : TimeRange) (s : TimeSynchronizer) :
    Option (∀ i, Option (M i)) → Prop
  | none => s.lastTimestamp = timeMin
  | some set => s.lastTimestamp ∈ Set.Icc range.first range.last ∧
      ∀ i, ∀ message ∈ set i, T.timestamp i message ≤ s.lastTimestamp

theorem KeepsLast.lastInRange {s : TimeSynchronizer} {last : Option (∀ i, Option (M i))}
    (h : KeepsLast T range s last) : s.LastInRange range := by
  cases last with
  | none => exact .inl h
  | some set => exact .inr h.1

/-- A set that is accepted keeps to the limits. -/
theorem KeepsLimits.notify {s : TimeSynchronizer} {sets : List (∀ i, Option (M i))}
    (h : KeepsLimits T s.maxIntraTimeDifference s.minInterTimeDifference sets)
    (hlast : KeepsLast T range s sets.getLast?) (hready : f.Ready) (hstamped : f.StampedIn T range)
    (haccepts : s.accepts (T.queuesOf f).heads = true) :
    KeepsLimits T s.maxIntraTimeDifference s.minInterTimeDifference
      (sets ++ [fun i ↦ (f.queues i).front]) := by
  set times := (T.queuesOf f).heads with htimes
  obtain ⟨hspread, hgap⟩ :=
    (TimeSynchronizer.examine_of_range (hstamped.heads hready) hlast.lastInRange).2 haccepts
  rw [← htimes] at hspread hgap
  have hfront (i : Fin (n + 1)) (message : M i) (hmessage : message ∈ (f.queues i).front) :
      T.timestamp i message = times i := by
    obtain ⟨first, hfirst, htime⟩ := hready.front_eq T i
    rw [hfirst] at hmessage
    cases hmessage
    exact htime
  refine ⟨?_, ?_, ?_⟩
  · refine List.forall_mem_append.mpr ⟨h.complete, fun set hset i ↦ ?_⟩
    obtain ⟨first, hfirst, -⟩ := hready.front_eq T i
    rw [List.mem_singleton.mp hset]
    exact Option.isSome_of_eq_some hfirst
  · refine List.forall_mem_append.mpr ⟨h.intra, fun set hset i a ha j b hb ↦ ?_⟩
    rw [List.mem_singleton.mp hset] at ha hb
    rw [hfront i a ha, hfront j b hb]
    exact (TimeSet.sub_le_spread i j).trans hspread
  · refine List.isChain_append.mpr ⟨h.inter, List.isChain_singleton _, ?_⟩
    intro set hset later hlater i a ha j b hb
    rw [hset] at hlast
    cases hlater
    rw [hfront j b hb]
    obtain ⟨hinRange, hle⟩ := hlast
    have hearliest : times.earliest ≤ times j := TimeSet.earliest_le j
    have hbefore := hle i a ha
    have hmin := range.min_lt_first.trans_le hinRange.1
    have hgap := hgap.resolve_left hmin.ne'
    omega

/-- What holds in every run whose steps are orderly. -/
structure Synchronization.Kept (T : TimeStamps M) (range : TimeRange) (maxIntra minInter : ℤ)
    (s : Synchronization M) (sets : List (∀ i, Option (M i))) : Prop where
  filter : s.filter.Kept
  stamped : s.filter.StampedIn T range
  maxIntra_eq : s.synchronizer.maxIntraTimeDifference = maxIntra
  minInter_eq : s.synchronizer.minInterTimeDifference = minInter
  limits : KeepsLimits T maxIntra minInter sets
  last : KeepsLast T range s.synchronizer sets.getLast?

namespace Synchronization

variable {maxIntra minInter : ℤ} {s : Synchronization M} {sets : List (∀ i, Option (M i))}
  {message : (i : Fin (n + 1)) × M i}

/-- The latest time stamp of a set that is notified is kept. -/
theorem keepsLast_notify {s : TimeSynchronizer} (hready : f.Ready) (hstamped : f.StampedIn T range)
    (hlast : s.lastTimestamp = (T.queuesOf f).heads.latest) :
    KeepsLast T range s (some fun i ↦ (f.queues i).front) := by
  have htimes := hstamped.heads hready
  refine ⟨?_, fun i message hmessage ↦ ?_⟩
  · rw [hlast]
    exact ⟨(htimes 0).1.trans (TimeSet.le_latest 0), Finset.sup'_le _ _ fun i _ ↦ (htimes i).2⟩
  · obtain ⟨first, hfirst, htime⟩ := hready.front_eq T i
    have hmessage : message ∈ (f.queues i).front := hmessage
    rw [hfirst] at hmessage
    cases hmessage
    rw [htime, hlast]
    exact TimeSet.le_latest i

/-- What `finish` yields when no message is before the peek indices. -/
theorem finish_eq {s : TimeSynchronizer} {loop : SyncLoop M} (hends : loop.Ends T s f) :
    (loop.finish s).calls = loop.calls ∧ (loop.finish s).returned = loop.hasCandidate := by
  unfold SyncLoop.finish
  split_ifs with hcandidate
  · simp [hends.peekIdxs, hcandidate]
  · simp [hcandidate]

/-- The callback ends, and `OnMessage` does what its calls and its result say. -/
theorem Kept.onMessage_eq (hpushed : (s.pushed message).Kept)
    (hstamped : (s.pushed message).StampedIn T range) (hlast : s.synchronizer.LastInRange range)
    (hends : s.EndsAtOnce T message) (hall : (s.pushed message).doesAllQueueHaveElement = true) :
    ∃ loop : SyncLoop M, loop.Ends T s.synchronizer (s.pushed message) ∧
      s.onMessage T message = some
        (⟨(if loop.hasCandidate then loop.filter.notify else (loop.filter, [])).1,
          (loop.finish s.synchronizer).synchronizer⟩,
          .filtered true :: (((s.pushed message).runCalls loop.calls).2 ++
            (if loop.hasCandidate then loop.filter.notify else (loop.filter, [])).2)) := by
  have hready := hpushed.ready hall
  obtain ⟨loop, hloop, hends⟩ :=
    (SyncLoop.runLoop_ends hready hstamped hlast (hends hall)).finished
  obtain ⟨hcalls, hreturned⟩ := finish_eq hends
  have hcallback : s.synchronizer.callback T MessageFilter.peekMessage (s.pushed message) =
      .finished (loop.finish s.synchronizer) := by
    rw [TimeSynchronizer.callback, hloop]
  have hcomplete : (s.pushed message).isComplete = true :=
    hpushed.doesAllQueueHaveElement_eq.symm.trans hall
  have happlied : s.filter.onMessage (some (MessageFilter.callingBack
      ((loop.finish s.synchronizer).calls, (loop.finish s.synchronizer).returned)))
        message.1 message.2 =
      ((if loop.hasCandidate then loop.filter.notify else (loop.filter, [])).1,
        .filtered true :: (((s.pushed message).runCalls loop.calls).2 ++
          (if loop.hasCandidate then loop.filter.notify else (loop.filter, [])).2)) := by
    rw [hcalls, hreturned, hends.filter, MessageFilter.onMessage, if_pos (by exact hall)]
    exact hpushed.applyFilter_some hcomplete loop.calls loop.hasCandidate
  refine ⟨loop, hends, ?_⟩
  rw [onMessage, if_pos hall, hcallback]
  dsimp only
  rw [happlied]

/-- The step lemma. -/
theorem Kept.step (hn : n + 1 < 2 ^ 8) (h : s.Kept T range maxIntra minInter sets)
    (horderly : s.Orderly T message range) :
    ∃ s' events, s.onMessage T message = some (s', events) ∧
      s'.Kept T range maxIntra minInter (sets ++ notifiedSets events) := by
  obtain ⟨rfl, rfl⟩ := And.intro h.maxIntra_eq h.minInter_eq
  have hpushed : (s.pushed message).Kept := h.filter.push hn message.1 message.2
  have hstamped : (s.pushed message).StampedIn T range :=
    h.stamped.push h.filter.wellFormed horderly.1
  cases hall : (s.pushed message).doesAllQueueHaveElement with
  | false =>
    refine ⟨_, _, if_neg (by simp [hall]), hpushed, hstamped, rfl, rfl, ?_, ?_⟩
    · simpa [notifiedSets] using h.limits
    · simpa [notifiedSets] using h.last
  | true =>
    obtain ⟨loop, hends, heq⟩ :=
      Kept.onMessage_eq hpushed hstamped h.last.lastInRange horderly.2 hall
    have hinRange : loop.filter.StampedIn T range := by
      rw [hends.filter]
      exact hstamped.runCalls hpushed hends.drops
    refine ⟨_, _, heq, ?_⟩
    cases hcandidate : loop.hasCandidate with
    | false =>
      have hfinish : (loop.finish s.synchronizer).synchronizer = s.synchronizer := by
        rw [SyncLoop.finish, if_neg (by simp [hcandidate])]
      have hsets : notifiedSets (.filtered true :: (((s.pushed message).runCalls loop.calls).2 ++
          ([] : List (FilterEvent M)))) = [] := by
        rw [List.append_nil]
        exact MessageFilter.notifiedSets_runCalls _ _
      simp only [Bool.false_eq_true, if_false]
      rw [hfinish, hsets, List.append_nil]
      exact ⟨hends.ready.kept, hinRange, rfl, rfl, h.limits, h.last⟩
    | true =>
      have hfinish : (loop.finish s.synchronizer).synchronizer =
          { s.synchronizer with lastTimestamp := loop.lastTimestampCandidate } := by
        rw [SyncLoop.finish, if_pos hcandidate]
      have hsets : notifiedSets (.filtered true :: (((s.pushed message).runCalls loop.calls).2 ++
          loop.filter.notify.2)) = [fun i ↦ (loop.filter.queues i).front] := by
        rw [← MessageFilter.notifiedSets_notify]
        refine (MessageFilter.notifiedSets_append _ _).trans ?_
        rw [MessageFilter.notifiedSets_runCalls, List.nil_append]
      obtain ⟨haccepts, hlatest⟩ := hends.candidate hcandidate
      have hcomplete : loop.filter.isComplete = true :=
        hends.ready.kept.doesAllQueueHaveElement_eq.symm.trans
          hends.ready.doesAllQueueHaveElement
      simp only [if_true]
      rw [hfinish, hsets]
      refine ⟨(hends.ready.kept.notify hcomplete).1,
        hinRange.takeFronts hends.ready.kept.wellFormed _, rfl, rfl,
        h.limits.notify h.last hends.ready hinRange haccepts, ?_⟩
      rw [List.getLast?_concat, hlatest]
      exact keepsLast_notify hends.ready hinRange rfl

/-! ### Runs -/

/-- Assumes: from one to nine types of messages, any capacity and any limits; and a run on messages
whose time stamps are in a range, each of whose searches ends at once when it accepts a set of
different time stamps. The sets that were notified keep to the limits; and a further message of the
range that leaves it so is handled. -/
theorem synchronization_of_run (hn : n + 1 ≤ 9) (T : TimeStamps M) (range : TimeRange)
    (capacity : ℕ+) (maxIntra minInter : ℤ) (s : Synchronization M)
    (history : List (FilterEvent M))
    (run : Run (synchronizing T capacity maxIntra minInter)
      (fun s message ↦ s.Orderly T message range) s history) :
    KeepsLimits T maxIntra minInter (notifiedSets history) ∧
      ∀ message, s.Orderly T message range → (s.onMessage T message).isSome := by
  have hkept : s.Kept T range maxIntra minInter (notifiedSets history) := by
    refine run.invariant
      (I := fun s history ↦ s.Kept T range maxIntra minInter (notifiedSets history)) ?_ ?_
    · rintro s rfl
      refine ⟨MessageFilter.kept_ofCapacity capacity, ?_, rfl, rfl, ⟨nofun, nofun, .nil⟩, rfl⟩
      intro i message hmessage
      have hnil : (MessageFilter.ofCapacity capacity : MessageFilter M).contents i = [] :=
        (Pool.represents_ofCapacity capacity.pos).contents_eq
      rw [hnil] at hmessage
      cases hmessage
    · intro s message s' history observed _ h horderly hstep
      obtain ⟨next, events, heq, hnext⟩ := h.step (by omega) horderly
      rw [show s.onMessage T message = some (s', observed) from hstep] at heq
      cases heq
      rwa [MessageFilter.notifiedSets_append]
  refine ⟨hkept.limits, fun message horderly ↦ ?_⟩
  obtain ⟨next, events, heq, -⟩ := hkept.step (by omega) horderly
  exact Option.isSome_of_eq_some heq

end Synchronization

namespace Scenario

/-- A second. -/
def second : TimeRange := ⟨0, 1000000, by decide, by decide, by decide⟩

/-- A message is dropped, and then two sets are notified. -/
def closeMessages : List ((i : Fin 2) × Stamped i) :=
  [⟨firstType, 0⟩, ⟨firstType, 1000⟩, ⟨secondType, 1050⟩, ⟨firstType, 1100⟩, ⟨secondType, 1100⟩]

end Scenario

namespace Synchronization

/-- Two sets are notified that keep to the limits. -/
theorem synchronization_of_closeMessages :
    ∃ (s : Synchronization Scenario.Stamped) (history : List (FilterEvent Scenario.Stamped)),
      Run (synchronizing Scenario.stamps 2 100 20)
        (fun s message ↦ s.Orderly Scenario.stamps message Scenario.second) s history ∧
      KeepsLimits Scenario.stamps 100 20 (notifiedSets history) ∧
      (notifiedSets history).map (fun set ↦ (set 0, set 1)) =
        [(some 1000, some 1050), (some 1100, some 1100)] := by
  have hexec : ((synchronizing Scenario.stamps 2 100 20).exec
      (fun s message ↦ s.Orderly Scenario.stamps message Scenario.second)
      ⟨MessageFilter.ofCapacity 2, ⟨100, 20, timeMin⟩⟩ [] Scenario.closeMessages).map
        (fun result ↦ (notifiedSets result.2).map (fun set ↦ (set 0, set 1))) =
          some [(some 1000, some 1050), (some 1100, some 1100)] := by
    decide +kernel
  obtain ⟨⟨s, history⟩, hrun, heq⟩ := Option.map_eq_some_iff.mp hexec
  have run : Run (synchronizing Scenario.stamps 2 100 20)
      (fun s message ↦ s.Orderly Scenario.stamps message Scenario.second) s history :=
    (Run.start rfl).of_exec hrun
  exact ⟨s, history, run, (synchronization_of_run (by decide) Scenario.stamps Scenario.second 2
    100 20 s history run).1, heq⟩

/-- The second message of the first type is notified, which is a second away from that of the other
type. -/
theorem synchronization_wrong :
    ¬ ∀ (s : Synchronization Scenario.Stamped) (history : List (FilterEvent Scenario.Stamped)),
      Run (synchronizing Scenario.stamps 2 100 timeMin)
        (fun _ message ↦ Scenario.stamps.timestamp message.1 message.2 ∈
          Set.Icc Scenario.second.first Scenario.second.last) s history →
        KeepsLimits Scenario.stamps 100 timeMin (notifiedSets history) := by
  intro hall
  have hexec : ((synchronizing Scenario.stamps 2 100 timeMin).exec
      (fun _ message ↦ Scenario.stamps.timestamp message.1 message.2 ∈
        Set.Icc Scenario.second.first Scenario.second.last)
      ⟨MessageFilter.ofCapacity 2, ⟨100, timeMin, timeMin⟩⟩ [] [⟨0, 0⟩, ⟨0, 1000⟩, ⟨1, 50⟩]).map
        (fun result ↦ (notifiedSets result.2).map (fun set ↦ (set 0, set 1))) =
          some [(some 1000, some 50)] := by
    decide +kernel
  obtain ⟨⟨s, history⟩, hrun, heq⟩ := Option.map_eq_some_iff.mp hexec
  obtain ⟨set, hset, hpair⟩ := List.map_eq_singleton_iff.mp heq
  have hlimits := hall s history ((Run.start rfl).of_exec hrun)
  rw [Prod.mk.injEq] at hpair
  have hintra := hlimits.intra set (hset ▸ List.mem_singleton_self set) 0 1000 hpair.1 1 50 hpair.2
  exact absurd hintra (by decide)

end Synchronization

end Felicia
