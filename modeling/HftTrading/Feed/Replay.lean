import HftTrading.Book.Guards
import HftTrading.Book.IdIndex
import HftTrading.Feed.Coverage
import HftTrading.Feed.SnapshotStep
import HftTrading.Lib.Agree

/-!
# Replay

Three questions about `replay_buffered_messages`.

* **Does the arrival order matter?** It sorts the buffer and drops repeats, so what it goes through
  is a function of the set of messages (`deduped_eq`), and so is everything it does
  (`replay_of_same_messages`).
* **Is it entered when it can go ahead?** Both snapshot handlers look at the first message to
  arrive, and replay at the least number; the two agree except where `FirstDecides` fails
  (`completes_iff_replayCovers`).
* **What does a message do that the books refuse?** The live path catches the exception and resets.
  Replay lets it through, with the messages before it applied, so it ends well exactly when every
  message is one the books take when its turn comes (`replay_ends_well_iff`).
-/

namespace HftTrading

open MarketData Method

namespace SnapShotSynchronizer

/-! ### The order of arrival -/

/-- The state with another live buffer. -/
def withBuffer (buffer : List Message) (z : SnapShotSynchronizer) : SnapShotSynchronizer :=
  { z with liveBuffer := buffer }

/-- Two states that differ in their live buffers at most. -/
def SameButBuffer (z w : SnapShotSynchronizer) : Prop := ∃ buffer, w = z.withBuffer buffer

/-- When a number belongs to one message, dropping repeats loses none. -/
theorem mem_deduped_iff {buffer : List Message}
    (hseq : ∀ x ∈ buffer, ∀ y ∈ buffer, seqOf x = seqOf y → x = y) {item : Message} :
    item ∈ deduped buffer ↔ item ∈ buffer := by
  refine ⟨mem_of_mem_deduped, fun hitem ↦ ?_⟩
  obtain ⟨item', hmem, heq⟩ := exists_mem_deduped hitem
  obtain rfl : item' = item := hseq item' (mem_of_mem_deduped hmem) item hitem heq
  exact hmem

/-- **What replay goes through is a function of the set of messages.** -/
theorem deduped_eq {buffer buffer' : List Message} (hmem : ∀ item, item ∈ buffer ↔ item ∈ buffer')
    (hseq : ∀ x ∈ buffer, ∀ y ∈ buffer, seqOf x = seqOf y → x = y) :
    deduped buffer = deduped buffer' := by
  have hseq' : ∀ x ∈ buffer', ∀ y ∈ buffer', seqOf x = seqOf y → x = y := fun x hx y hy ↦
    hseq x ((hmem x).2 hx) y ((hmem y).2 hy)
  have hsorted := pairwise_deduped buffer
  have hsorted' := pairwise_deduped buffer'
  have hnodup : ∀ {l : List Message}, (l.Pairwise fun x y ↦ seqOf x < seqOf y) → l.Nodup :=
    fun h ↦ h.imp fun hlt heq ↦ absurd (congrArg seqOf heq) hlt.ne
  have hperm : (deduped buffer).Perm (deduped buffer') := by
    rw [List.perm_ext_iff_of_nodup (hnodup hsorted) (hnodup hsorted')]
    intro item
    rw [mem_deduped_iff hseq, mem_deduped_iff hseq', hmem]
  refine hperm.eq_of_pairwise (fun x y _ _ hxy hyx ↦ ?_) hsorted hsorted'
  exact absurd hxy (lt_asymm hyx)

section Agree

/-- The loop does not look at the buffer it goes through. -/
theorem agree_replayLoop_withBuffer (snap : ℕ) (l : List Message) (lastSeq : ℕ) :
    Agree SameButBuffer (replayLoop snap l lastSeq) (replayLoop snap l lastSeq) := by
  induction l generalizing lastSeq with
  | nil => exact agree_pure lastSeq
  | cons item rest ih =>
    obtain ⟨header, body⟩ := item
    rw [replayLoop]
    split
    · exact ih lastSeq
    · refine (agree_modify ?_).bind fun _ ↦ Agree.bind ?_ fun _ ↦ ih header.seqNum
      · rintro z _ ⟨buffer, rfl⟩
        refine ⟨buffer, ?_⟩
        unfold warnOnGap
        split <;> rfl
      · refine (agree_modify ?_).bind fun _ ↦ ?_
        · rintro z _ ⟨buffer, rfl⟩
          exact ⟨buffer, rfl⟩
        · rintro z _ ⟨buffer, rfl⟩
          refine (Alike.refl (fun _ ↦ rfl) _ : Alike Eq _ _).focus ?_
          rintro m _ rfl
          exact ⟨buffer, rfl⟩

/-- **Replay does not depend on the order of arrival.** From states that differ in the live buffer
only, the two buffers holding the same messages in any order and with any repeats, replay returns or
raises alike, at the same message and with the same books, index and record; and if it returns, the
two states are the same. -/
theorem replay_of_same_messages (z : SnapShotSynchronizer) (buffer buffer' : List Message)
    (hmem : ∀ item, item ∈ buffer ↔ item ∈ buffer')
    (hseq : ∀ x ∈ buffer, ∀ y ∈ buffer, seqOf x = seqOf y → x = y) :
    Alike SameButBuffer (replayBufferedMessages (z.withBuffer buffer))
        (replayBufferedMessages (z.withBuffer buffer')) ∧
      ∀ z', replayBufferedMessages (z.withBuffer buffer) = .ok () z' →
        replayBufferedMessages (z.withBuffer buffer') = .ok () z' := by
  have hdeduped := deduped_eq hmem hseq
  have hcovers : (z.withBuffer buffer).ReplayCovers ↔ (z.withBuffer buffer').ReplayCovers :=
    exists_congr fun item ↦ and_congr_left fun _ ↦ hmem item
  have htoReplay : (z.withBuffer buffer).toReplay = (z.withBuffer buffer').toReplay :=
    congrArg (List.filter fun item ↦ decide (z.lastSnapSeqNum < seqOf item)) hdeduped
  refine ⟨?_, fun z' hrun ↦ ?_⟩
  -- the two runs differ in the buffer alone, which nothing reads once it is deduplicated
  · unfold replayBufferedMessages
    rw [bind_ok (get_apply _), bind_ok (get_apply _)]
    simp only [show (z.withBuffer buffer).liveBuffer = buffer from rfl,
      show (z.withBuffer buffer').liveBuffer = buffer' from rfl, hdeduped]
    rcases deduped buffer' with - | ⟨first, rest⟩
    · exact .ok _ ⟨[], rfl⟩
    · show Alike SameButBuffer
        ((if seqOf first > z.lastSnapSeqNum + 1 then _ else _ : Method _ _ _) _)
        ((if seqOf first > z.lastSnapSeqNum + 1 then _ else _ : Method _ _ _) _)
      split
      · exact .ok _ ⟨[], rfl⟩
      · refine ((agree_replayLoop_withBuffer z.lastSnapSeqNum (first :: rest) z.lastSnapSeqNum).bind
          fun lastSeq ↦ agree_modify ?_) _ _ ⟨buffer', rfl⟩
        rintro w _ ⟨b, rfl⟩
        exact ⟨[], rfl⟩
  -- a replay that returns empties the buffer, so nothing is left to tell the runs apart
  · have hlive : ∀ m, goLive m (z.withBuffer buffer) = goLive m (z.withBuffer buffer') := by
      intro m
      unfold goLive replayed
      rw [htoReplay]
      rfl
    rw [replayBufferedMessages_eq_ok_iff, hcovers, htoReplay] at hrun
    rw [replayBufferedMessages_eq_ok_iff]
    refine hrun.imp_right fun ⟨hc, m, hm, hz'⟩ ↦ ⟨hc, m, hm, hz'.trans (hlive m)⟩

end Agree

/-- Live messages as they are sent: a buy of ten, a sell, a trade against the buy, and the sell is
deleted. -/
def inSentOrder : List Message :=
  [(⟨MAGIC_NUMBER, 45, 1, 0, .newOrder⟩, .newOrder ⟨7, 1, .buy, 10, 100, 0⟩),
    (⟨MAGIC_NUMBER, 45, 2, 0, .newOrder⟩, .newOrder ⟨8, 1, .sell, 5, 103, 0⟩),
    (⟨MAGIC_NUMBER, 39, 3, 0, .trade⟩, .trade ⟨7, 4, 100⟩),
    (⟨MAGIC_NUMBER, 31, 4, 0, .deleteOrder⟩, .deleteOrder ⟨8⟩)]

/-- The same messages in the opposite order, and the buy once more behind them. -/
def scrambled : List Message := inSentOrder.reverse ++ inSentOrder.take 1

/-- Replayed from either buffer, the buy rests with six. -/
theorem replay_of_same_scrambled :
    ∃ z, replayBufferedMessages (init.withBuffer inSentOrder) = .ok () z ∧
      replayBufferedMessages (init.withBuffer scrambled) = .ok () z ∧
      (z.bookManager.order? 1 7).map Order.quantity = some 6 := by
  have hmem : ∀ item, item ∈ inSentOrder ↔ item ∈ scrambled := by
    intro item
    rw [scrambled, List.mem_append, List.mem_reverse]
    exact ⟨Or.inl, fun h ↦ h.elim id List.mem_of_mem_take⟩
  exact ⟨_, rfl, (replay_of_same_messages init _ _ hmem (by decide)).2 _ rfl, by decide +kernel⟩

/-! ### The coverage test -/

/-- The first message to arrive tells as much as the least number: it does not carry the number of
the snapshot itself, and if it lies above the next one, so does everything that came after it. -/
def FirstDecides (z : SnapShotSynchronizer) : Prop :=
  ∀ first rest, z.liveBuffer = first :: rest → seqOf first ≠ z.lastSnapSeqNum ∧
    (z.lastSnapSeqNum + 1 < seqOf first → ∀ item ∈ rest, z.lastSnapSeqNum + 1 < seqOf item)

/-- The handlers' test implies replay's, and is implied by it exactly when the first message
decides. -/
theorem bufferCovers_iff_replayCovers_iff (z : SnapShotSynchronizer) :
    (z.bufferCovers ↔ z.ReplayCovers) ↔ z.FirstDecides := by
  unfold bufferCovers ReplayCovers FirstDecides
  rcases z.liveBuffer with - | ⟨⟨header, body⟩, rest⟩
  · simp
  constructor
  · rintro hiff first rest' heq
    obtain ⟨rfl, rfl⟩ := List.cons.inj heq
    show header.seqNum ≠ z.lastSnapSeqNum ∧ _
    refine ⟨fun heq ↦ ?_, fun habove item hitem ↦ ?_⟩
    · have hcovers := hiff.2 ⟨(header, body), List.mem_cons_self, by simp only [seqOf]; omega⟩
      omega
    · by_contra hle
      have hcovers := hiff.2 ⟨item, List.mem_cons_of_mem _ hitem, by omega⟩
      have habove' : z.lastSnapSeqNum + 1 < header.seqNum := habove
      omega
  · intro h
    obtain ⟨hne, habove⟩ := h (header, body) rest rfl
    have hne' : header.seqNum ≠ z.lastSnapSeqNum := hne
    refine ⟨fun hcovers ↦ ⟨(header, body), List.mem_cons_self, ?_⟩, ?_⟩
    · show header.seqNum ≤ z.lastSnapSeqNum + 1
      omega
    · rintro ⟨item, hitem, hle⟩
      by_contra hnot
      have hlt : z.lastSnapSeqNum + 1 < header.seqNum := by omega
      rcases List.mem_cons.1 hitem with rfl | hrest
      · have hle' : header.seqNum ≤ z.lastSnapSeqNum + 1 := hle
        omega
      · have hgt := habove hlt item hrest
        omega

/-- What a completing order leaves of `snap_complete`. -/
theorem snapComplete_decideComplete (z : SnapShotSynchronizer) (hpending : z.snapComplete = false) :
    z.decideComplete.snapComplete = true ↔
      z.bufferCovers ∧ z.completedSymbols.card = z.totalSymbols := by
  unfold decideComplete
  split_ifs with hc
  · exact iff_of_true rfl hc
  · exact iff_of_false (by simp [hpending]) hc

/-- **The completion tests agree with replay's gap test exactly when the first message decides.**
When the order that completes the last symbol is handled, and when a `SNAPSHOT_INFO` arrives with
all symbols complete: then, moreover, it must be of one of these symbols. -/
theorem completes_iff_replayCovers (z : SnapShotSynchronizer) (hpending : z.snapComplete = false) :
    (∀ header body state z', z.snapState.get? (body : NewOrder).symbol = some state →
      state.ordersReceived + 1 = state.expectedTotal →
      handleSnapshotOrder header body z = .ok () z' →
      z'.completedSymbols.card = z.totalSymbols →
      ((z'.snapComplete = true ↔ z.ReplayCovers) ↔ z.FirstDecides)) ∧
    ∀ body z', z.completedSymbols.card = z.totalSymbols →
      handleSnapshotInfo body z = .ok () z' →
      ((z'.snapComplete = true ↔ z.ReplayCovers) ↔
        z.FirstDecides ∧ ((body.symbol : ℤ) ∈ z.completedSymbols ∨ ¬ z.ReplayCovers)) := by
  refine ⟨fun header body state z' hstate htotal hrun hcard ↦ ?_, fun body z' hcard hrun ↦ ?_⟩
  · rw [← bufferCovers_iff_replayCovers_iff]
    obtain ⟨hnone, -⟩ | ⟨state', m, hstate', -, -, hlast⟩ := handleSnapshotOrder_ok hrun
    · rw [hstate] at hnone
      cases hnone
    obtain rfl : state = state' := Option.some.inj (hstate.symm.trans hstate')
    obtain ⟨hne, -⟩ | ⟨-, m', -, rfl⟩ := hlast
    · exact absurd htotal hne
    rw [completedSymbols_decideComplete] at hcard
    have hset := snapComplete_decideComplete (setManager m'
      (completeSymbol body.symbol (countOrder body.symbol state z))) hpending
    rw [hset]
    exact iff_congr (and_iff_left hcard) Iff.rfl
  · have hreach := bufferCovers_iff_replayCovers_iff z
    obtain ⟨hcovers, hdone, -, rfl⟩ | ⟨hnot, m, -, rfl⟩ := handleSnapshotInfo_ok hrun
    · have hreplay := z.replayCovers_of_bufferCovers hcovers
      exact iff_of_true (iff_of_true rfl hreplay)
        ⟨hreach.1 (iff_of_true hcovers hreplay), Or.inl hdone⟩
    -- opening a snapshot does not touch `snap_complete`
    · have hpending' : (setManager m (startSnapshot body z)).snapComplete ≠ true := by
        show z.snapComplete ≠ true
        simp [hpending]
      refine ⟨fun hiff ↦ ?_, fun ⟨hfirst, hknown⟩ ↦ iff_of_false hpending' fun hreplay ↦ ?_⟩
      · have hreplay : ¬ z.ReplayCovers := fun h ↦ hpending' (hiff.2 h)
        have hcovers : ¬ z.bufferCovers := fun h ↦ hreplay (z.replayCovers_of_bufferCovers h)
        exact ⟨hreach.1 (iff_of_false hcovers hreplay), Or.inr hreplay⟩
      · have hknown' := hknown.resolve_right (not_not.2 hreplay)
        exact hnot ⟨(hreach.2 hfirst).2 hreplay, hknown', hcard⟩

/-- Two live packets, numbered 12 and 13, and thirteen snapshots at 12, up to the last order. -/
def levelRun : List Event :=
  liveHeartbeat 12 :: liveHeartbeat 13 ::
    ((List.range 13).flatMap fun s ↦ snapshotOf 12 s).dropLast

/-- The last message of the snapshots: the one order of symbol 12. -/
def levelLast : MDHeader × NewOrder := (⟨0, 45, 0, 0, .newOrder⟩, ⟨12, 12, .buy, 1, 100, 0⟩)

/-- The run comes to the order that completes the last symbol, with this buffer. -/
theorem level_completes :
    ∃ z state z', Reachable 13 z ∧ z.sync = false ∧ z.snapComplete = false ∧
      z.snapState.get? levelLast.2.symbol = some state ∧
      state.ordersReceived + 1 = state.expectedTotal ∧
      handleSnapshotOrder levelLast.1 levelLast.2 z = .ok () z' ∧ z.totalSymbols = 13 ∧
      z'.completedSymbols.card = 13 ∧ z'.snapComplete = false ∧
      ∃ item ∈ z.liveBuffer, seqOf item = z.lastSnapSeqNum := by
  obtain ⟨z, hreach, hp⟩ := exists_reachable 13 levelRun
    (fun z ↦ !z.sync && !z.snapComplete && z.totalSymbols == 13 &&
      decide (∃ item ∈ z.liveBuffer, seqOf item = z.lastSnapSeqNum) &&
      ((z.snapState.get? levelLast.2.symbol).any fun state ↦
        state.ordersReceived + 1 == state.expectedTotal) &&
      ((handleSnapshotOrder levelLast.1 levelLast.2).state? z).any
        fun z' : SnapShotSynchronizer ↦ z'.completedSymbols.card == 13 && !z'.snapComplete)
    (by decide +kernel)
  simp only [Bool.and_eq_true, Bool.not_eq_true', Option.any_eq_true, beq_iff_eq,
    decide_eq_true_eq] at hp
  obtain ⟨⟨⟨⟨⟨hs, hc⟩, hn⟩, hitem⟩, state, hstate, htotal⟩, z', hz', hcard, hc'⟩ := hp
  obtain ⟨_, hrun⟩ := Method.state?_eq_some_iff.1 hz'
  exact ⟨z, state, z', hreach, hs, hc, hstate, htotal, hrun, hn, hcard, hc', hitem⟩

/-- The buffer begins with the number of the snapshots: replay would go ahead, and is not called. -/
theorem level_not_complete :
    ∃ z z', Reachable 13 z ∧ z.sync = false ∧
      handleSnapshotOrder levelLast.1 levelLast.2 z = .ok () z' ∧
      z'.completedSymbols.card = z.totalSymbols ∧ z.ReplayCovers ∧ z'.snapComplete = false := by
  obtain ⟨z, state, z', hreach, hs, -, -, -, hrun, hn, hcard, hc', item, hitem, hseq⟩ :=
    level_completes
  exact ⟨z, z', hreach, hs, hrun, hcard.trans hn.symm, ⟨item, hitem, by omega⟩, hc'⟩

/-- There the first message does not decide. -/
theorem level_not_firstDecides : ∃ z, Reachable 13 z ∧ ¬ z.FirstDecides := by
  obtain ⟨z, state, z', hreach, -, hc, hstate, htotal, hrun, hn, hcard, hc', item, hitem, hseq⟩ :=
    level_completes
  have hiff := (completes_iff_replayCovers z hc).1 _ _ state z' hstate htotal hrun
    (hcard.trans hn.symm)
  refine ⟨z, hreach, fun hfirst ↦ ?_⟩
  have hset := (hiff.2 hfirst).2 ⟨item, hitem, by omega⟩
  rw [hc'] at hset
  cases hset

/-! ### Messages the books refuse -/

/-- The books take a message: what the handler of its type asks for. A `SNAPSHOT_INFO` is never
taken on the live channel. -/
def Takes (m : OrderBookManager) (item : Message) : Prop :=
  match item.1.msgType, item.2 with
  | .newOrder, .newOrder b => m.TakesNewOrder b.orderId b.symbol b.quantity
  | .deleteOrder, .deleteOrder b => m.TakesDelete b.orderId
  | .modifyOrder, .modifyOrder b => m.TakesModify b.orderId b.quantity
  | .trade, .trade b => m.TakesTrade b.orderId b.quantity
  | .snapshotInfo, .snapshotInfo _ => False
  | _, _ => True

/-- Each of a list of messages is taken when its turn comes. -/
def TakesEach : List Message → OrderBookManager → Prop
  | [], _ => True
  | item :: rest, m =>
    Takes m item ∧ TakesEach rest ((dispatchLiveMessage item.1 item.2).after m)

/-- A message that is only logged is never refused. -/
theorem raises_pass_iff (m : OrderBookManager) :
    (pure () : Method FeedError OrderBookManager Unit).Raises m ↔ ¬ True :=
  iff_of_false (not_raises_of_ok (pure_apply () m)) (not_not.2 trivial)

/-- **A message is refused exactly when the handler of its type refuses it.** -/
theorem dispatchLiveMessage_raises_iff (m : OrderBookManager) (item : Message) :
    (dispatchLiveMessage item.1 item.2).Raises m ↔ ¬ Takes m item := by
  obtain ⟨header, body⟩ := item
  unfold dispatchLiveMessage Takes
  generalize header.msgType = msgType
  cases msgType with
  | newOrder =>
    cases body with
    | newOrder b => exact m.processNewOrder_raises_iff _ _ _ _ _ _ _ _
    | _ => exact raises_pass_iff m
  | deleteOrder =>
    cases body with
    | deleteOrder b => exact m.processDeleteOrder_raises_iff _ _
    | _ => exact raises_pass_iff m
  | modifyOrder =>
    cases body with
    | modifyOrder b => exact m.processModifyOrder_raises_iff _ _ _ _ _
    | _ => exact raises_pass_iff m
  | trade =>
    cases body with
    | trade b => exact m.processTrade_raises_iff _ _ _ _
    | _ => exact raises_pass_iff m
  | snapshotInfo =>
    cases body with
    | snapshotInfo b => exact iff_of_true ⟨_, _, rfl⟩ not_false
    | _ => exact raises_pass_iff m
  | _ => cases body <;> exact raises_pass_iff m

/-- The dispatch of a list returns exactly when each of its messages is taken. -/
theorem dispatchAll_returns_iff (items : List Message) (m : OrderBookManager) :
    (∃ m', dispatchAll items m = .ok () m') ↔ TakesEach items m := by
  induction items generalizing m with
  | nil => exact iff_of_true ⟨m, rfl⟩ trivial
  | cons item rest ih =>
    rw [TakesEach, ← not_not (a := Takes m item), ← dispatchLiveMessage_raises_iff]
    constructor
    · rintro ⟨m', hrun⟩
      obtain ⟨_, m₁, hfirst, hrest⟩ := bind_eq_ok_iff.1 hrun
      refine ⟨not_raises_of_ok hfirst, (ih _).1 ⟨m', ?_⟩⟩
      rwa [after_ok hfirst]
    · rintro ⟨hfirst, hrest⟩
      obtain ⟨_, m₁, hok⟩ := not_raises_iff.1 hfirst
      rw [after_ok hok] at hrest
      obtain ⟨m', hm'⟩ := (ih m₁).2 hrest
      exact ⟨m', (bind_ok hok).trans hm'⟩

/-- **Replay ends well exactly when it has nothing to replay from or the books take every message.**
It returns, with every message above the snapshot applied and the feed in sync or with everything
reset, if the buffer does not reach back to the snapshot, or if each message above the snapshot is
one the books take when its turn comes. Otherwise the exception of the first one they do not take
goes through. -/
theorem replay_ends_well_iff (z : SnapShotSynchronizer) :
    (∃ z', replayBufferedMessages z = .ok () z' ∧
      ((z'.sync = true ∧ dispatchAll z.toReplay z.bookManager = .ok () z'.bookManager ∧
          ∀ item ∈ z.liveBuffer, z.lastSnapSeqNum < seqOf item → seqOf item ∈ z'.dispatched) ∨
        z' = z.resetForResnap)) ↔
      (z.ReplayCovers → TakesEach z.toReplay z.bookManager) := by
  rw [← dispatchAll_returns_iff]
  constructor
  · rintro ⟨z', hrun, -⟩ hcovers
    obtain ⟨hnot, -⟩ | ⟨-, m, hm, -⟩ := replayBufferedMessages_eq_ok_iff.1 hrun
    · exact absurd hcovers hnot
    · exact ⟨m, hm⟩
  · intro h
    by_cases hcovers : z.ReplayCovers
    swap
    · exact ⟨_, replayBufferedMessages_eq_ok_iff.2 (Or.inl ⟨hcovers, rfl⟩), Or.inr rfl⟩
    obtain ⟨m, hm⟩ := h hcovers
    refine ⟨goLive m z, replayBufferedMessages_eq_ok_iff.2 (Or.inr ⟨hcovers, m, hm, rfl⟩),
      Or.inl ⟨rfl, hm, fun item hitem habove ↦ ?_⟩⟩
    obtain ⟨item', hmem, heq⟩ := exists_mem_deduped hitem
    refine List.mem_append_right _ (List.mem_map.2 ⟨item', List.mem_filter.2 ⟨hmem, ?_⟩, heq⟩)
    simpa [heq] using habove

/-- An order at 11 and a trade at 12 of an id nobody has announced, then snapshots at 10 up to the
last order. -/
def refusedRun : List Event :=
  liveOrder 11 ⟨1000, 0, .sell, 5, 200, 0⟩ ::
    .packet ⟨MAGIC_NUMBER, 39, 12, 0, .trade⟩ (.trade ⟨999, 1, 100⟩) ::
    ((List.range 13).flatMap fun s ↦ snapshotOf 10 s).dropLast

/-- The exception goes through, with the order before it in the books and the feed not in sync. -/
theorem replay_stops_halfway :
    ∃ z z', AtReplay 13 z ∧
      replayBufferedMessages z = .error (.unknownOrderId 999) z' ∧ z'.sync = false ∧
      z'.bookManager.Rests 1000 0 := by
  obtain ⟨z₀, hreach, hp⟩ := exists_reachable 13 refusedRun
    (fun z₀ ↦ !z₀.sync &&
      ((handleSnapshotMessage levelLast.1 (.newOrder levelLast.2)).state? z₀).any
        fun z : SnapShotSynchronizer ↦ z.snapComplete &&
          match replayBufferedMessages z with
          | .ok _ _ => false
          | .error e z' => e == .unknownOrderId 999 && !z'.sync &&
              (z'.bookManager.order? 0 1000).isSome)
    (by decide +kernel)
  simp only [Bool.and_eq_true, Bool.not_eq_true', Option.any_eq_true] at hp
  obtain ⟨hs, z, hz, hc, hreplay⟩ := hp
  obtain ⟨_, hsnap⟩ := Method.state?_eq_some_iff.1 hz
  rcases hrun : replayBufferedMessages z with ⟨_, z'⟩ | ⟨e, z'⟩ <;> rw [hrun] at hreplay
  · cases hreplay
  · simp only [Bool.and_eq_true, Bool.not_eq_true', beq_iff_eq] at hreplay
    obtain ⟨⟨rfl, hsync⟩, hrests⟩ := hreplay
    exact ⟨z, z', ⟨z₀, _, _, hreach, hs, by decide, hsnap, hc⟩, hrun, hsync,
      Option.isSome_iff_exists.1 hrests⟩

end SnapShotSynchronizer

end HftTrading
