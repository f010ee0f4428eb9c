import HftTrading.Feed.Handler
import HftTrading.Lib.Accounted

/-!
# What a feed run dispatches between two resets

From the moment the feed is in sync until the next reset, three things hand messages to the manager
or keep them from it: the replay of the sorted and deduplicated buffer, the number replay leaves in
the sequence tracker, and the tracker's check on the live path. Each keeps a counter of its own. The
invariant `Epoch` ties them together: while synced, the numbers strictly between the snapshot's and
the tracker's are *accounted for*, each exactly one of dispatched and reported missing by a gap
warning, and nothing outside that range has been dispatched.

Both halves of the statement "exactly once, or reported" are read off it:

* **at most once**, and nothing the snapshot already holds (`dispatched_increasing`);
* **no silent loss**: the feed does go on over a gap, and says so (`dispatched_or_warned`).

## Out of sync and in sync

Out of sync the invariant says that nothing has been dispatched or reported since the last reset
(`Idle`), and all that the snapshot channel does keeps it that way. Replay takes the range from
empty to whatever the buffer reaches to. It goes by the number of the message before, whose place
the loop hands on, so its lemma is an induction over the buffer with that number as a parameter.

In sync, a message that passes the tracker's check extends the range to its own number, and what it
skips is reported by the same check. A message that does not pass changes neither. Last, a message
that raises in the manager triggers the reset with which the next epoch starts.
-/

namespace HftTrading.SnapShotSynchronizer

open MarketData

/-- Some gap in a list of warnings counts this number as missing. -/
def SkippedIn (warnings : List GapWarning) (n : ℕ) : Prop :=
  ∃ w ∈ warnings, w.expected ≤ n ∧ n < w.got

/-- The invariant of a feed run. -/
structure Epoch (z : SnapShotSynchronizer) : Prop where
  /-- While not synced, nothing has been dispatched since the last reset. -/
  idle : z.sync = false → z.dispatched = [] ∧ z.gapWarnings = []
  /-- While synced, every number below the tracker's is accounted for. -/
  live : z.sync = true → ∃ expected, z.seqTracker.expectedSeq = some expected ∧
    Accounted z.lastSnapSeqNum expected z.dispatched (SkippedIn z.gapWarnings)

/-- Not synced, and nothing dispatched since the last reset. -/
structure Idle (z : SnapShotSynchronizer) : Prop where
  sync : z.sync = false
  dispatched : z.dispatched = []
  gapWarnings : z.gapWarnings = []

theorem Idle.epoch {z : SnapShotSynchronizer} (h : z.Idle) : z.Epoch where
  idle _ := ⟨h.dispatched, h.gapWarnings⟩
  live hs := by rw [h.sync] at hs; cases hs

theorem idle_start (totalSymbols : ℕ) : (start totalSymbols).Idle := ⟨rfl, rfl, rfl⟩

theorem idle_reset (z : SnapShotSynchronizer) : z.resetForResnap.Idle := ⟨rfl, rfl, rfl⟩

/-- The invariant is not about the books. -/
theorem Epoch.setManager {z : SnapShotSynchronizer} (h : z.Epoch) (m : OrderBookManager) :
    (setManager m z).Epoch := ⟨h.idle, h.live⟩

theorem Idle.setManager {z : SnapShotSynchronizer} (h : z.Idle) (m : OrderBookManager) :
    (setManager m z).Idle := ⟨h.sync, h.dispatched, h.gapWarnings⟩

/-- A call on the manager leaves a feed idle. -/
theorem keeps_idle_onManager {α : Type} (call : Method FeedError OrderBookManager α) :
    Method.Keeps Idle (onManager call) :=
  keeps_onManager (fun _ m h ↦ h.setManager m) call

/-! ### While not synced -/

theorem keeps_idle_handleSnapshotInfo (body : SnapshotInfo) :
    Method.Keeps Idle (handleSnapshotInfo body) := by
  refine Method.keeps_get.bind fun z ↦ ?_
  split
  · exact Method.keeps_modify fun _ h ↦ ⟨h.sync, h.dispatched, h.gapWarnings⟩
  · exact (Method.keeps_modify fun _ h ↦ ⟨h.sync, h.dispatched, h.gapWarnings⟩).bind fun _ ↦
      (keeps_idle_onManager _).bind fun _ ↦ keeps_idle_onManager _

theorem keeps_idle_handleSnapshotOrder (header : MDHeader) (body : NewOrder) :
    Method.Keeps Idle (handleSnapshotOrder header body) := by
  refine Method.keeps_get.bind fun z ↦ ?_
  split
  · exact Method.keeps_modify fun z _ ↦ idle_reset z
  · rename_i state _
    split
    · exact Method.keeps_throw _
    · refine (keeps_idle_onManager _).bind fun _ ↦ (keeps_idle_onManager _).bind fun _ ↦
        (keeps_idle_onManager _).bind fun _ ↦
          (Method.keeps_modify fun _ h ↦ ⟨h.sync, h.dispatched, h.gapWarnings⟩).bind fun _ ↦ ?_
      split
      · refine (Method.keeps_modify fun _ h ↦ ⟨h.sync, h.dispatched, h.gapWarnings⟩).bind fun _ ↦
          (keeps_idle_onManager _).bind fun _ ↦ Method.keeps_modify fun z h ↦ ?_
        split
        · exact ⟨h.sync, h.dispatched, h.gapWarnings⟩
        · exact h
      · exact Method.keeps_pure _

/-- **Out of sync, the snapshot channel dispatches nothing.** -/
theorem keeps_idle_handleSnapshotMessage (header : MDHeader) (body : MarketDataMessage) :
    Method.Keeps Idle (handleSnapshotMessage header body) := by
  unfold handleSnapshotMessage
  split
  · exact keeps_idle_handleSnapshotInfo _
  · exact keeps_idle_handleSnapshotOrder header _
  · exact Method.keeps_pure _

/-! ### Replay -/

/-- A number is reported if one of the warnings reports it. -/
theorem skippedIn_append (ws ws' : List GapWarning) (n : ℕ) :
    SkippedIn (ws ++ ws') n ↔ SkippedIn ws n ∨ SkippedIn ws' n := by
  simp [SkippedIn, or_and_right, exists_or]

/-- The gap between two numbers, as a warning counts it. -/
theorem skippedIn_gapsFrom_singleton (lastSeq : ℕ) (item : Message) (n : ℕ) :
    SkippedIn (gapsFrom lastSeq [item]) n ↔ lastSeq + 1 ≤ n ∧ n < seqOf item := by
  by_cases h : seqOf item = lastSeq + 1
  · simp only [gapsFrom, h, ne_eq, not_true_eq_false, if_false, List.append_nil]
    constructor
    · rintro ⟨w, hw, -⟩
      exact absurd hw List.not_mem_nil
    · omega
  · simp [gapsFrom, h, SkippedIn]

/-- Going through a strictly increasing list accounts for everything up to its last number. -/
theorem accounted_gapsFrom {lo lastSeq : ℕ} {taken : List ℕ} {warnings : List GapWarning}
    (h : Accounted lo (lastSeq + 1) taken (SkippedIn warnings)) {items : List Message}
    (hsorted : items.Pairwise fun x y ↦ seqOf x < seqOf y)
    (habove : ∀ item ∈ items, lastSeq < seqOf item) :
    Accounted lo (lastFrom lastSeq items + 1) (taken ++ items.map seqOf)
      (SkippedIn (warnings ++ gapsFrom lastSeq items)) := by
  induction items generalizing lastSeq taken warnings with
  | nil => simpa [lastFrom, gapsFrom] using h
  | cons item rest ih =>
    rw [List.pairwise_cons] at hsorted
    have hstep : Accounted lo (seqOf item + 1) (taken ++ [seqOf item])
        (SkippedIn (warnings ++ gapsFrom lastSeq [item])) := by
      refine h.take (habove item List.mem_cons_self) fun n ↦ ?_
      rw [skippedIn_append, skippedIn_gapsFrom_singleton]
    have hrest := ih hstep hsorted.2 hsorted.1
    rw [gapsFrom_cons, lastFrom]
    simpa using hrest

/-- **Replay starts an epoch**: it leaves the feed idle or in sync with everything accounted for. -/
theorem epoch_replay {z z' : SnapShotSynchronizer} (h : z.Idle)
    (hrun : replayBufferedMessages z = .ok () z') : z'.Epoch := by
  rcases replayBufferedMessages_eq_ok_iff.1 hrun with ⟨-, rfl⟩ | ⟨-, m, -, rfl⟩
  · exact (idle_reset z).epoch
  refine ⟨fun hs ↦ absurd hs (by simp [goLive]), fun _ ↦ ⟨_, rfl, ?_⟩⟩
  have hstart : Accounted z.lastSnapSeqNum (z.lastSnapSeqNum + 1) z.dispatched
      (SkippedIn z.gapWarnings) := by
    rw [h.dispatched]
    refine Accounted.nil z.lastSnapSeqNum ?_
    rintro n ⟨w, hw, -⟩
    rw [h.gapWarnings] at hw
    exact absurd hw List.not_mem_nil
  refine accounted_gapsFrom hstart ((pairwise_deduped z.liveBuffer).filter _) fun item hitem ↦ ?_
  simpa using (List.mem_filter.1 hitem).2

/-! ### The live path -/

/-- **The check reports exactly the numbers it skips.** -/
theorem skippedIn_checkGaps (expected seqNum n : ℕ) :
    SkippedIn (checkGaps expected seqNum) n ↔ expected ≤ n ∧ n < seqNum := by
  by_cases h : seqNum = expected
  · rw [checkGaps, if_pos h, h]
    constructor
    · rintro ⟨w, hw, -⟩
      exact absurd hw List.not_mem_nil
    · omega
  · simp [checkGaps, h, SkippedIn]

/-- **The live path continues an epoch**: a number below the tracker's is dropped, any other is
dispatched with its gap logged, and a book error resets. -/
theorem epoch_processLive {z z' : SnapShotSynchronizer} (h : z.Epoch) (hs : z.sync = true)
    {header : MDHeader} {body : MarketDataMessage}
    (hrun : processLive header body z = .ok () z') : z'.Epoch := by
  obtain ⟨expected, he, hacc⟩ := h.live hs
  rcases processLive_ok he hrun with ⟨-, rfl⟩ | ⟨hge, ⟨-, -, -, rfl⟩ | ⟨-, m', -, -, rfl⟩⟩
  · exact h
  · exact (idle_reset _).epoch
  · refine ⟨fun hs' ↦ ?_, fun _ ↦ ⟨_, rfl, ?_⟩⟩
    · rw [accepted, hs] at hs'
      cases hs'
    · refine hacc.take hge fun n ↦ ?_
      rw [accepted, skippedIn_append, skippedIn_checkGaps]

/-! ### Runs -/

/-- **One event** of a run keeps the epoch. -/
theorem Outcome.epoch {event : Event} {z z' : SnapShotSynchronizer} (hstep : Outcome z event z')
    (h : z.Epoch) : z'.Epoch := by
  have hidle : z.sync = false → z.Idle := fun hs ↦ ⟨hs, (h.idle hs).1, (h.idle hs).2⟩
  cases hstep with
  | readNothing | ignored => exact h
  | read => exact h.setManager _
  | buffered => exact ⟨h.idle, h.live⟩
  | live hs _ hlive => exact epoch_processLive h hs hlive
  | snapshot hs _ hsnap =>
    exact ((keeps_idle_handleSnapshotMessage _ _).ok (hidle hs) hsnap).epoch
  | replay hs _ hsnap _ hreplay =>
    have hidle₁ := (keeps_idle_handleSnapshotMessage _ _).ok (hidle hs) hsnap
    exact (epoch_replay hidle₁ hreplay).setManager _

/-- The invariant holds in every state that a run of the feed gets to. -/
theorem Reachable.epoch {totalSymbols : ℕ} {z : SnapShotSynchronizer}
    (h : Reachable totalSymbols z) : z.Epoch :=
  h.induct (idle_start totalSymbols).epoch fun _ _ _ h hstep ↦ hstep.epoch h

/-- **Exactly once.** Between the moment the feed is in sync and the next reset, the numbers of the
messages handed to the manager, by replay and by the live path together, increase strictly and lie
above the snapshot's. -/
theorem dispatched_increasing {totalSymbols : ℕ} {z : SnapShotSynchronizer}
    (h : Reachable totalSymbols z) (hs : z.sync = true) :
    z.dispatched.Pairwise (· < ·) ∧ ∀ n ∈ z.dispatched, z.lastSnapSeqNum < n := by
  obtain ⟨_, -, hacc⟩ := h.epoch.live hs
  exact ⟨hacc.increasing, fun n hn ↦ (hacc.taken_range n hn).1⟩

/-- A run with a replay of 11 and 12, a duplicate, and 13 live. -/
theorem dispatched_increasing_run :
    ∃ z, Reachable 13 z ∧ z.sync = true ∧ z.dispatched = [11, 12, 13] ∧
      (z.dispatched.Pairwise (· < ·) ∧ ∀ n ∈ z.dispatched, z.lastSnapSeqNum < n) := by
  obtain ⟨z, hz, hp⟩ := exists_reachable 13
    (liveHeartbeat 11 :: liveHeartbeat 12 :: liveHeartbeat 11 ::
      (List.range 13).flatMap (snapshotOf 10) ++ [liveHeartbeat 12, liveHeartbeat 13])
    (fun z ↦ z.sync && z.dispatched == [11, 12, 13]) (by decide +kernel)
  simp only [Bool.and_eq_true, beq_iff_eq] at hp
  exact ⟨z, hz, hp.1, hp.2, dispatched_increasing hz hp.1⟩

/-- **No silent loss.** While synced, every number strictly between the snapshot's and the tracker's
has been dispatched, or a gap warning since the last reset counts it as missing; never both. -/
theorem dispatched_or_warned {totalSymbols : ℕ} {z : SnapShotSynchronizer}
    (h : Reachable totalSymbols z) (hs : z.sync = true) :
    ∃ expected, z.seqTracker.expectedSeq = some expected ∧
      ∀ n, z.lastSnapSeqNum < n → n < expected →
        (n ∈ z.dispatched ↔ ¬ SkippedIn z.gapWarnings n) := by
  obtain ⟨expected, he, hacc⟩ := h.epoch.live hs
  exact ⟨expected, he, hacc.mem_iff⟩

/-- The feed goes on over a gap: after 11 the live channel brings 14, and 12 is never dispatched. -/
theorem gap_accepted_run :
    ∃ z expected, Reachable 13 z ∧ z.sync = true ∧ z.seqTracker.expectedSeq = some expected ∧
      z.lastSnapSeqNum < 12 ∧ 12 < expected ∧ 12 ∉ z.dispatched := by
  obtain ⟨z, hz, hp⟩ := exists_reachable 13
    (liveHeartbeat 11 :: (List.range 13).flatMap (snapshotOf 10) ++ [liveHeartbeat 14])
    (fun z ↦ z.sync && z.seqTracker.expectedSeq == some 15 && decide (z.lastSnapSeqNum < 12) &&
      !decide (12 ∈ z.dispatched)) (by decide +kernel)
  simp only [Bool.and_eq_true, beq_iff_eq, decide_eq_true_eq, Bool.not_eq_true',
    decide_eq_false_iff_not] at hp
  obtain ⟨⟨⟨hs, he⟩, hsnap⟩, hd⟩ := hp
  exact ⟨z, 15, hz, hs, he, hsnap, by omega, hd⟩

/-- A run with a gap on the live path, which the warnings count. -/
theorem dispatched_or_warned_run :
    ∃ z, Reachable 13 z ∧ z.sync = true ∧ z.gapWarnings = [⟨12, 14⟩] ∧
      ∃ expected, z.seqTracker.expectedSeq = some expected ∧
        ∀ n, z.lastSnapSeqNum < n → n < expected →
          (n ∈ z.dispatched ↔ ¬ SkippedIn z.gapWarnings n) := by
  obtain ⟨z, hz, hp⟩ := exists_reachable 13
    (liveHeartbeat 11 :: (List.range 13).flatMap (snapshotOf 10) ++ [liveHeartbeat 14])
    (fun z ↦ z.sync && z.gapWarnings == [⟨12, 14⟩]) (by decide +kernel)
  simp only [Bool.and_eq_true, beq_iff_eq] at hp
  exact ⟨z, hz, hp.1, hp.2, dispatched_or_warned hz hp.1⟩

end HftTrading.SnapShotSynchronizer
