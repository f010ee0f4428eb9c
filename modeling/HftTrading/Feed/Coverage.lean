import HftTrading.Feed.Epoch

/-!
# What replay covers, symbol by symbol

Books are loaded one symbol at a time, each from a `SnapshotInfo` with its own `last_md_seq_num`,
which `snap_state` keeps. Replay does not look at it: it goes by one number, the largest ever seen.
So a symbol whose book was loaded from an older snapshot than another's goes live without the
messages between the two, unless there are none for it in the buffer.

`Covered` is what the feed wants of a replay; `CoversEach` is when it gets it
(`replay_covered_iff`), a condition on the buffer and `snap_state` before the replay.

## Where a replay starts from

`AtReplay` are the states of a run in which replay is called: a snapshot message has just completed
the snapshots. What the statement needs of them is derived from the run: nothing has been dispatched
since the last reset, and the buffer reaches back to the largest of the snapshots. So nothing is
assumed of the buffer.

A replay that raises triggers a reset and leaves the feed out of sync, so that no symbol goes live
on it; the equivalence is about the ones that return. For these, what is dispatched is a part of the
buffer that is cut off at one number, and the condition compares this number with each symbol's own.
-/

namespace HftTrading.SnapShotSynchronizer

open MarketData

/-- The symbol a message is about. A delete, a modify and a trade carry an order id only: `owner`
says whose it is. -/
def symbolOf (owner : ℕ → Option ℤ) : MarketDataMessage → Option ℤ
  | .newOrder b => some b.symbol
  | .deleteOrder b => owner b.orderId
  | .modifyOrder b => owner b.orderId
  | .trade b => owner b.orderId
  | .tradeSummary b => some b.symbol
  | .snapshotInfo b => some b.symbol
  | .header _ => none

/-- What the feed wants of a replay from `z` that leaves `z'`: for every symbol, with `L` the
number of the snapshot its book was last loaded from, the buffer reaches back to `L + 1`, and every
buffered message of the symbol above `L` has been dispatched. -/
def Covered (owner : ℕ → Option ℤ) (z z' : SnapShotSynchronizer) : Prop :=
  ∀ symbol state, z.snapState.get? symbol = some state →
    (∃ item ∈ z.liveBuffer, seqOf item ≤ state.lastMdSeqNum + 1) ∧
    ∀ item ∈ z.liveBuffer, symbolOf owner item.2 = some symbol →
      state.lastMdSeqNum < seqOf item → seqOf item ∈ z'.dispatched

/-- The buffer reaches back to every symbol's own snapshot, and between that and the largest
snapshot number seen it holds no message of the symbol. -/
def CoversEach (owner : ℕ → Option ℤ) (z : SnapShotSynchronizer) : Prop :=
  ∀ symbol state, z.snapState.get? symbol = some state →
    (∃ item ∈ z.liveBuffer, seqOf item ≤ state.lastMdSeqNum + 1) ∧
    ∀ item ∈ z.liveBuffer, symbolOf owner item.2 = some symbol →
      ¬ (state.lastMdSeqNum < seqOf item ∧ seqOf item ≤ z.lastSnapSeqNum)

/-! ### When replay runs -/

/-- The states in which a run of the feed calls `replay_buffered_messages`: a snapshot message has
just been handled and `snap_complete` is set. -/
def AtReplay (totalSymbols : ℕ) (z : SnapShotSynchronizer) : Prop :=
  ∃ z₀ header body, Reachable totalSymbols z₀ ∧ z₀.sync = false ∧
    header.magicNumber ≠ MAGIC_NUMBER ∧ handleSnapshotMessage header body z₀ = .ok () z ∧
    z.snapComplete = true

/-- Snapshots become complete only with the buffer reaching back to the largest of them. -/
theorem handleSnapshotMessage_covers {z z' : SnapShotSynchronizer} (h : z.snapComplete = false)
    {header : MDHeader} {body : MarketDataMessage}
    (hrun : handleSnapshotMessage header body z = .ok () z') (hc : z'.snapComplete = true) :
    z'.bufferCovers := by
  rcases handleSnapshotMessage_cases header body with ⟨b, -, hb⟩ | ⟨b, -, hb⟩ | hb <;>
    rw [hb] at hrun
  · rcases handleSnapshotInfo_ok hrun with ⟨hcovers, -, -, rfl⟩ | ⟨-, m, -, rfl⟩
    · exact hcovers
    · exact absurd (h.symm.trans hc) Bool.false_ne_true
  · rcases handleSnapshotOrder_ok hrun with
      ⟨-, rfl⟩ | ⟨state, m, -, -, -, ⟨-, rfl⟩ | ⟨-, m', -, rfl⟩⟩
    · exact absurd hc Bool.false_ne_true
    · exact absurd (h.symm.trans hc) Bool.false_ne_true
    -- the last order of a symbol: `snap_complete` is set under the coverage test
    · unfold decideComplete at hc ⊢
      split at hc
      · rename_i hcovers
        rw [if_pos hcovers]
        exact hcovers.1
      · exact absurd (h.symm.trans hc) Bool.false_ne_true
  · cases hrun
    exact absurd (h.symm.trans hc) Bool.false_ne_true

/-- While not synced the snapshots are not complete: completing them starts the replay at once. -/
theorem Reachable.pending {totalSymbols : ℕ} {z : SnapShotSynchronizer}
    (h : Reachable totalSymbols z) (hs : z.sync = false) : z.snapComplete = false := by
  suffices hinv : z.Epoch ∧ (z.sync = false → z.snapComplete = false) from hinv.2 hs
  refine h.induct (I := fun z ↦ z.Epoch ∧ (z.sync = false → z.snapComplete = false))
    ⟨(idle_start totalSymbols).epoch, fun _ ↦ rfl⟩ ?_
  rintro z event z' ⟨hepoch, hz⟩ hstep
  refine ⟨hstep.epoch hepoch, ?_⟩
  cases hstep with
  | readNothing | ignored | read | buffered => exact hz
  | live hs _ hlive =>
    obtain ⟨expected, he, -⟩ := hepoch.live hs
    rcases processLive_ok he hlive with ⟨-, rfl⟩ | ⟨-, ⟨-, -, -, rfl⟩ | ⟨-, m', -, -, rfl⟩⟩
    · exact hz
    · exact fun _ ↦ rfl
    · exact fun hs' ↦ absurd (hs.symm.trans hs') (by simp)
  | snapshot _ _ _ hc => exact fun _ ↦ hc
  | replay _ _ _ _ hreplay =>
    rcases replayBufferedMessages_eq_ok_iff.1 hreplay with ⟨-, rfl⟩ | ⟨-, m, -, rfl⟩
    · exact fun _ ↦ rfl
    · exact fun hs' ↦ absurd (show true = false from hs') (by simp)

/-- The handlers' coverage test implies replay's. -/
theorem replayCovers_of_bufferCovers (z : SnapShotSynchronizer) (h : z.bufferCovers) :
    z.ReplayCovers := by
  unfold bufferCovers at h
  rcases hb : z.liveBuffer with - | ⟨⟨header, body⟩, rest⟩ <;> rw [hb] at h
  · exact h.elim
  · refine ⟨(header, body), by rw [hb]; exact List.mem_cons_self, ?_⟩
    show header.seqNum ≤ z.lastSnapSeqNum + 1
    have h' : header.seqNum < z.lastSnapSeqNum ∨ header.seqNum = z.lastSnapSeqNum + 1 := h
    omega

/-- The buffer reaches back to the number replay goes by. -/
theorem AtReplay.replayCovers {totalSymbols : ℕ} {z : SnapShotSynchronizer}
    (h : AtReplay totalSymbols z) : z.ReplayCovers := by
  obtain ⟨z₀, header, body, hreach, hs, -, hsnap, hc⟩ := h
  exact z.replayCovers_of_bufferCovers (handleSnapshotMessage_covers (hreach.pending hs) hsnap hc)

/-- Nothing has been dispatched since the last reset. -/
theorem AtReplay.idle {totalSymbols : ℕ} {z : SnapShotSynchronizer} (h : AtReplay totalSymbols z) :
    z.Idle := by
  obtain ⟨z₀, header, body, hreach, hs, -, hsnap, -⟩ := h
  have hidle := hreach.epoch.idle hs
  exact (keeps_idle_handleSnapshotMessage header body).ok ⟨hs, hidle.1, hidle.2⟩ hsnap

/-- **A replay that returns brings the feed into sync.** -/
theorem AtReplay.sync_of_replay {totalSymbols : ℕ} {z z' : SnapShotSynchronizer}
    (h : AtReplay totalSymbols z) (hrun : replayBufferedMessages z = .ok () z') :
    z'.sync = true := by
  rcases replayBufferedMessages_eq_ok_iff.1 hrun with ⟨hnot, -⟩ | ⟨-, m, -, rfl⟩
  · exact absurd h.replayCovers hnot
  · rfl

/-- Replay hands over exactly the buffered numbers above the largest snapshot number. -/
theorem AtReplay.mem_dispatched_iff {totalSymbols : ℕ} {z z' : SnapShotSynchronizer}
    (h : AtReplay totalSymbols z) (hrun : replayBufferedMessages z = .ok () z') (n : ℕ) :
    n ∈ z'.dispatched ↔ z.lastSnapSeqNum < n ∧ ∃ item ∈ z.liveBuffer, seqOf item = n := by
  rcases replayBufferedMessages_eq_ok_iff.1 hrun with ⟨hnot, -⟩ | ⟨-, m, -, rfl⟩
  · exact absurd h.replayCovers hnot
  have hdispatched : (goLive m z).dispatched = z.toReplay.map seqOf := by
    show z.dispatched ++ z.toReplay.map seqOf = _
    rw [h.idle.dispatched, List.nil_append]
  rw [hdispatched, List.mem_map]
  constructor
  · rintro ⟨item, hitem, rfl⟩
    obtain ⟨hmem, habove⟩ := List.mem_filter.1 hitem
    exact ⟨by simpa using habove, item, mem_of_mem_deduped hmem, rfl⟩
  · rintro ⟨habove, item, hitem, rfl⟩
    obtain ⟨item', hmem, heq⟩ := exists_mem_deduped hitem
    exact ⟨item', List.mem_filter.2 ⟨hmem, by simpa [heq] using habove⟩, heq⟩

theorem keeps_sync_dispatch (header : MDHeader) (body : MarketDataMessage) :
    Method.Keeps (fun z : SnapShotSynchronizer ↦ z.sync = false) (dispatch header body) := by
  refine Method.Keeps.bind (Method.keeps_modify fun _ hz ↦ ?_) fun _ ↦
    keeps_onManager (fun _ _ hz ↦ hz) _
  exact hz

theorem keeps_sync_replayLoop (snap : ℕ) (l : List Message) (lastSeq : ℕ) :
    Method.Keeps (fun z : SnapShotSynchronizer ↦ z.sync = false) (replayLoop snap l lastSeq) := by
  induction l generalizing lastSeq with
  | nil => exact Method.keeps_pure lastSeq
  | cons item rest ih =>
    obtain ⟨header, body⟩ := item
    rw [replayLoop]
    split
    · exact ih lastSeq
    · refine (Method.keeps_modify fun z hz ↦ ?_).bind fun _ ↦
        (keeps_sync_dispatch header body).bind fun _ ↦ ih header.seqNum
      unfold warnOnGap
      split
      · exact hz
      · exact hz

/-- A replay that raises leaves the feed out of sync. -/
theorem sync_of_replay_error {z z' : SnapShotSynchronizer} (hs : z.sync = false) {e : FeedError}
    (hrun : replayBufferedMessages z = .error e z') : z'.sync = false := by
  unfold replayBufferedMessages at hrun
  rw [Method.bind_ok (Method.get_apply z)] at hrun
  rcases hd : deduped z.liveBuffer with - | ⟨first, rest⟩
  · simp only [hd] at hrun
    cases hrun
  simp only [hd] at hrun
  by_cases hgap : seqOf first > z.lastSnapSeqNum + 1
  · rw [if_pos hgap] at hrun
    cases hrun
  rw [if_neg hgap] at hrun
  rcases hloop : replayLoop z.lastSnapSeqNum (first :: rest) z.lastSnapSeqNum z with
    ⟨lastSeq, t⟩ | ⟨e', t⟩
  · rw [Method.bind_ok hloop] at hrun
    cases hrun
  · rw [Method.bind_error hloop] at hrun
    cases hrun
    have hkeep := keeps_sync_replayLoop z.lastSnapSeqNum (first :: rest) z.lastSnapSeqNum z hs
    rwa [Method.after_error hloop] at hkeep

/-- **Replay covers every symbol's own snapshot exactly when the buffer reaches back to each of them
and holds none of a symbol's messages between its own snapshot and the largest.** A replay that
raises does not go live. -/
theorem replay_covered_iff (owner : ℕ → Option ℤ) {totalSymbols : ℕ} {z : SnapShotSynchronizer}
    (h : AtReplay totalSymbols z) :
    (∀ e z', replayBufferedMessages z = .error e z' → z'.sync = false) ∧
      ∀ z', replayBufferedMessages z = .ok () z' →
        z'.sync = true ∧ (Covered owner z z' ↔ CoversEach owner z) := by
  constructor
  · exact fun e z' hrun ↦ sync_of_replay_error h.idle.sync hrun
  · intro z' hrun
    refine ⟨h.sync_of_replay hrun, ?_⟩
    unfold Covered CoversEach
    refine forall₃_congr fun symbol state _ ↦ and_congr_right fun _ ↦
      forall₃_congr fun item hitem _ ↦ ?_
    rw [h.mem_dispatched_iff hrun]
    constructor
    · rintro hcovered ⟨habove, hle⟩
      have hlt := (hcovered habove).1
      omega
    · intro hnot habove
      exact ⟨by omega, item, hitem, rfl⟩

/-! ### A symbol left behind

Symbol 0 is loaded from a snapshot at 10, the twelve others from one at 12. Message 11, an order of
symbol 0, waits in the buffer, and replay skips it. -/

/-- The run up to the last message of the snapshots. -/
def staggeredRun : List Event :=
  liveOrder 11 ⟨1000, 0, .sell, 5, 200, 0⟩ :: liveHeartbeat 12 :: liveHeartbeat 13 ::
    (snapshotOf 10 0 ++ ((List.range 12).flatMap fun s ↦ snapshotOf 12 (s + 1)).dropLast)

/-- The last message of the snapshots: the one order of symbol 12. -/
def staggeredLast : MDHeader × NewOrder :=
  (⟨0, 45, 0, 0, .newOrder⟩, ⟨12, 12, .buy, 1, 100, 0⟩)

/-- The run gets there, and message 11 is not dispatched. -/
theorem staggered_replay :
    ∃ z z' state, AtReplay 13 z ∧ replayBufferedMessages z = .ok () z' ∧
      z.snapState.get? 0 = some state ∧ state.lastMdSeqNum = 10 ∧
      (∃ item ∈ z.liveBuffer, symbolOf (fun _ ↦ none) item.2 = some 0 ∧ seqOf item = 11) ∧
      11 ∉ z'.dispatched := by
  obtain ⟨z₀, hreach, hp⟩ := exists_reachable 13 staggeredRun
    (fun z₀ ↦ !z₀.sync &&
      ((handleSnapshotMessage staggeredLast.1 (.newOrder staggeredLast.2)).state? z₀).any
        fun z : SnapShotSynchronizer ↦
          z.snapComplete && ((z.snapState.get? 0).map SnapState.lastMdSeqNum) == some 10 &&
            decide (∃ item ∈ z.liveBuffer,
              symbolOf (fun _ ↦ none) item.2 = some 0 ∧ seqOf item = 11) &&
            (replayBufferedMessages.state? z).any
              fun z' : SnapShotSynchronizer ↦ !decide (11 ∈ z'.dispatched))
    (by decide +kernel)
  simp only [Bool.and_eq_true, Bool.not_eq_true', Option.any_eq_true, beq_iff_eq, decide_eq_true_eq,
    decide_eq_false_iff_not] at hp
  obtain ⟨hs, z, hz, ⟨⟨hc, hstate⟩, hitem⟩, z', hz', hd⟩ := hp
  obtain ⟨_, hsnap⟩ := Method.state?_eq_some_iff.1 hz
  obtain ⟨_, hreplay⟩ := Method.state?_eq_some_iff.1 hz'
  obtain ⟨state, hget, hlast⟩ := Option.map_eq_some_iff.1 hstate
  exact ⟨z, z', state, ⟨z₀, _, _, hreach, hs, by decide, hsnap, hc⟩, hreplay, hget, hlast, hitem,
    hd⟩

/-- The replay goes live and leaves symbol 0 behind. -/
theorem not_covered_staggered :
    ∃ z z', AtReplay 13 z ∧ replayBufferedMessages z = .ok () z' ∧ z'.sync = true ∧
      ¬ Covered (fun _ ↦ none) z z' := by
  obtain ⟨z, z', state, h, hrun, hstate, hlast, ⟨item, hitem, howner, hseq⟩, hd⟩ := staggered_replay
  refine ⟨z, z', h, hrun, h.sync_of_replay hrun, fun hcovered ↦ hd ?_⟩
  have hmem := (hcovered 0 state hstate).2 item hitem howner (by omega)
  rwa [hseq] at hmem

/-- At this replay the condition decides too. -/
theorem replay_covered_iff_staggered :
    ∃ z, AtReplay 13 z ∧
      (∀ e z', replayBufferedMessages z = .error e z' → z'.sync = false) ∧
      ∀ z', replayBufferedMessages z = .ok () z' →
        z'.sync = true ∧ (Covered (fun _ ↦ none) z z' ↔ CoversEach (fun _ ↦ none) z) := by
  obtain ⟨z, -, -, h, -⟩ := staggered_replay
  exact ⟨z, h, replay_covered_iff (fun _ ↦ none) h⟩

end HftTrading.SnapShotSynchronizer
