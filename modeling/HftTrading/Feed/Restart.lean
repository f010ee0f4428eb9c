import HftTrading.Book.Emptied
import HftTrading.Feed.Handler

/-!
# A reset is as good as a restart

`_reset_for_resnap` keeps more than a new process has: the books, emptied, with their traded
volume; the sequence tracker with its number; the count of unknown deletes. None of it is gone by
before the next replay sets it. The state after a reset and the state of a new manager and
synchronizer stand in a relation (`Mirrors`) that every event keeps, so **the two runs go the same
way, event by event, exceptions included** (`reset_as_good_as_restart`).

## The relation

On the managers it is `Resembles`: the books of the one are the books of the other but for their
volume, and where the other has no book at all, the one may have an empty one. An operation that
opens its book if need be sees no difference; one that looks its book up bare finds an order of it
in the index first, and the index is the same. Reading best prices is the delicate case, because a
read of an emptied book cleans its heaps while a missing book is not read at all.

On the synchronizers all fields are the same but for the manager, the two records and, until the
feed is in sync, the tracker. Most steps are `Apart` from these, and agree for that reason alone.

## What a reset can meet

The statement is about resets in any state that the feed gets to, and not only at the end of an
event: a book error is caught after a dispatch has been made and a number checked, so the states in
between are among them (`Reached`). All that is needed of such a state is that each of its books
stands under its own symbol (`Stocked`).
-/

namespace HftTrading

open MarketData Method

/-! ### The manager -/

/-- A message leaves every book under its own symbol. -/
theorem keeps_shelved_dispatchLiveMessage (header : MDHeader) (body : MarketDataMessage) :
    Keeps OrderBookManager.Shelved (dispatchLiveMessage header body) := by
  unfold dispatchLiveMessage
  split
  · exact OrderBookManager.keeps_shelved_processNewOrder _ _ _ _ _ _ _ _
  · exact OrderBookManager.keeps_shelved_processDeleteOrder _ _
  · exact OrderBookManager.keeps_shelved_processModifyOrder _ _ _ _ _
  · exact OrderBookManager.keeps_shelved_processTrade _ _ _ _
  · exact keeps_pure ()
  · exact keeps_throw _
  · exact keeps_pure ()

/-- **A message does the same to managers that resemble each other.** -/
theorem agree_dispatchLiveMessage (header : MDHeader) (body : MarketDataMessage) :
    Agree OrderBookManager.Resembles (dispatchLiveMessage header body)
      (dispatchLiveMessage header body) := by
  unfold dispatchLiveMessage
  split
  · exact OrderBookManager.agree_processNewOrder _ _ _ _ _ _ _ _
  · exact OrderBookManager.agree_processDeleteOrder _ _
  · exact OrderBookManager.agree_processModifyOrder _ _ _ _ _
  · exact OrderBookManager.agree_processTrade _ _ _ _
  · exact agree_pure ()
  · exact agree_throw _
  · exact agree_pure ()

namespace OrderBookManager

/-- A book once both its best prices have been read. -/
def cleaned (b : OrderBook) : OrderBook := (b.clearTop .buy).clearTop .sell

/-- What reading the books of some symbols leaves of a manager. -/
structure ReadFrom (symbols : List ℤ) (m m' : OrderBookManager) : Prop where
  index : m'.orderIdToSymbol = m.orderIdToSymbol
  books : ∀ s, m'.books.get? s =
    (m.books.get? s).map fun b ↦ if s ∈ symbols then cleaned b else b

/-- Reading a book that is there raises nothing. -/
theorem readBook_ok {m : OrderBookManager} {symbol : ℤ} {b : OrderBook}
    (hb : m.books.get? symbol = some b) :
    ∃ m', readBook symbol m = .ok () m' ∧ ReadFrom [symbol] m m' := by
  obtain ⟨bid, hbid, -⟩ := OrderBook.getBest_ok .buy b
  obtain ⟨ask, hask, -⟩ := OrderBook.getBest_ok .sell (b.clearTop .buy)
  have hread : onBook symbol OrderBook.getBestBid m =
      .ok bid (m.setBook symbol (b.clearTop .buy)) :=
    (onBook_of_book hb _).trans (focus_ok hbid (setBook symbol) m)
  have hb' : (m.setBook symbol (b.clearTop .buy)).books.get? symbol = some (b.clearTop .buy) := by
    rw [get?_books_setBook, if_pos rfl]
  have hread' : onBook symbol OrderBook.getBestAsk (m.setBook symbol (b.clearTop .buy)) =
      .ok ask ((m.setBook symbol (b.clearTop .buy)).setBook symbol (cleaned b)) :=
    (onBook_of_book hb' _).trans (focus_ok hask (setBook symbol) _)
  refine ⟨_, (bind_ok hread).trans (bind_ok hread'), rfl, fun s ↦ ?_⟩
  rw [get?_books_setBook, get?_books_setBook]
  by_cases hs : s = symbol
  · rw [if_pos hs, hs, hb]
    simp
  · rw [if_neg hs, if_neg hs]
    simp [hs]

/-- Reading books that are there raises nothing. -/
theorem readBooks_ok {symbols : List ℤ} (hnodup : symbols.Nodup) {m : OrderBookManager}
    (hbooks : ∀ s ∈ symbols, ∃ b, m.books.get? s = some b) :
    ∃ m', Method.all (symbols.map readBook) m = .ok () m' ∧ ReadFrom symbols m m' := by
  induction symbols generalizing m with
  | nil => exact ⟨m, rfl, rfl, fun s ↦ by simp⟩
  | cons symbol rest ih =>
    obtain ⟨hnot, hnodup⟩ := List.nodup_cons.1 hnodup
    obtain ⟨b, hb⟩ := hbooks symbol List.mem_cons_self
    obtain ⟨m₁, hread, hm₁⟩ := readBook_ok hb
    obtain ⟨m₂, hrest, hm₂⟩ := ih hnodup fun s hs ↦ by
      obtain ⟨b', hb'⟩ := hbooks s (List.mem_cons_of_mem _ hs)
      rw [hm₁.books, hb']
      exact ⟨_, rfl⟩
    refine ⟨m₂, (bind_ok hread).trans hrest, hm₂.index.trans hm₁.index, fun s ↦ ?_⟩
    rw [hm₂.books, hm₁.books, Option.map_map]
    congr 1
    funext b'
    by_cases hs : s = symbol
    · subst hs
      simp [hnot]
    · simp [hs]

/-- Logging the books cleans them all. -/
theorem logBooks_ok (m : OrderBookManager) : ∃ m', logBooks m = .ok () m' ∧
    m'.orderIdToSymbol = m.orderIdToSymbol ∧
    ∀ s, m'.books.get? s = (m.books.get? s).map cleaned := by
  have hmem : ∀ s, s ∈ m.books.keys.insertionSort (· ≤ ·) ↔ ∃ b, m.books.get? s = some b :=
    fun s ↦ (List.mem_insertionSort _).trans Dict.mem_keys_iff
  have hnodup : (m.books.keys.insertionSort (· ≤ ·)).Nodup :=
    (List.perm_insertionSort _ _).nodup_iff.2 m.books.nodup
  obtain ⟨m', hread, hm'⟩ := readBooks_ok hnodup fun s hs ↦ (hmem s).1 hs
  refine ⟨m', hread, hm'.index, fun s ↦ ?_⟩
  rw [hm'.books]
  rcases hb : m.books.get? s with - | b
  · rfl
  · rw [Option.map_some, Option.map_some, if_pos ((hmem s).2 ⟨b, hb⟩)]

theorem cleaned_of_sameButVolume {b b' : OrderBook} (h : b.SameButVolume b') :
    (cleaned b).SameButVolume (cleaned b') := by
  obtain ⟨v, rfl⟩ := h
  exact ⟨v, by rw [cleaned, OrderBook.clearTop_setVolume, OrderBook.clearTop_setVolume]; rfl⟩

/-- Books that correspond still do when both have been cleaned. -/
theorem Counterpart.cleaned {s : ℤ} {x x' : Option OrderBook} (h : Counterpart s x x') :
    Counterpart s (x.map OrderBookManager.cleaned) (x'.map OrderBookManager.cleaned) := by
  cases h with
  | absent => exact .absent
  | emptied v => exact .emptied v
  | kept h => exact .kept (cleaned_of_sameButVolume h)

theorem agree_logBooks : Agree Resembles logBooks logBooks := by
  intro m m' h
  obtain ⟨m₁, hlog, hindex, hbooks⟩ := logBooks_ok m
  obtain ⟨m₁', hlog', hindex', hbooks'⟩ := logBooks_ok m'
  rw [hlog, hlog']
  refine .ok () ⟨hindex.trans (h.index.trans hindex'.symm), fun s ↦ ?_, fun id s hs ↦ ?_⟩
  · rw [hbooks, hbooks']
    exact (h.books s).cleaned
  · obtain ⟨b', hb'⟩ := h.backed id s (hindex' ▸ hs)
    exact ⟨_, by rw [hbooks', hb']; rfl⟩

/-- Reading one book cleans it in both. -/
theorem agree_readBook (symbol : ℤ) :
    Agree (ResemblesAt symbol) (readBook symbol) (readBook symbol) :=
  (agree_onBook symbol (OrderBook.agree_getBest .buy)).bind fun _ ↦
    (agree_onBook symbol (OrderBook.agree_getBest .sell)).bind fun _ ↦ agree_pure ()

/-- Reading an emptied book, where the other manager has none. -/
theorem Resembles.readBook {m m' m₁ : OrderBookManager} (h : Resembles m m') {symbol : ℤ}
    (hm' : m'.books.get? symbol = none) (hread : ReadFrom [symbol] m m₁) : Resembles m₁ m' := by
  refine ⟨hread.index.trans h.index, fun s ↦ ?_, h.backed⟩
  rw [hread.books]
  by_cases hs : s = symbol
  · subst hs
    have hc := h.books s
    rw [hm'] at hc ⊢
    simpa using hc.cleaned
  · simpa [hs] using h.books s

/-- A read leaves every book under its own symbol. -/
theorem keeps_shelved_readBook (symbol : ℤ) : Keeps Shelved (readBook symbol) :=
  (keeps_shelved_onBook symbol (OrderBook.keeps_bookOf_getBest symbol .buy)).bind fun _ ↦
    (keeps_shelved_onBook symbol (OrderBook.keeps_bookOf_getBest symbol .sell)).bind fun _ ↦
      keeps_pure ()

theorem keeps_shelved_logBooks : Keeps Shelved logBooks := by
  intro m h
  obtain ⟨m', hlog, -, hbooks⟩ := logBooks_ok m
  rw [after_ok hlog]
  intro s b hb
  rw [hbooks, Option.map_eq_some_iff] at hb
  obtain ⟨b₀, hb₀, rfl⟩ := hb
  exact ((h s b₀ hb₀).clearTop .buy).clearTop .sell

end OrderBookManager

namespace SnapShotSynchronizer

open OrderBookManager (Resembles ResemblesAt Shelved)

/-! ### Two synchronizers -/

/-- The state with another manager, another tracker and another record. -/
def replacing (m : OrderBookManager) (t : SequenceTracker) (d : List ℕ) (g : List GapWarning)
    (w : SnapShotSynchronizer) : SnapShotSynchronizer :=
  { w with bookManager := m, seqTracker := t, dispatched := d, gapWarnings := g }

/-- `z` is `w` but for the manager, which is related to that of `w`, and, until they are in sync,
the tracker. -/
def Mirrors (R : OrderBookManager → OrderBookManager → Prop) (z w : SnapShotSynchronizer) : Prop :=
  ∃ m t d g, z = w.replacing m t d g ∧ R m w.bookManager ∧ (w.sync = true → t = w.seqTracker)

/-- `f` neither goes by the manager, the tracker or the record nor touches them, nor `sync`. -/
structure Apart (f : SnapShotSynchronizer → SnapShotSynchronizer) : Prop where
  replacing : ∀ m t d g w, f (w.replacing m t d g) = (f w).replacing m t d g
  manager : ∀ w, (f w).bookManager = w.bookManager
  sync : ∀ w, (f w).sync = w.sync
  tracker : ∀ w, (f w).seqTracker = w.seqTracker

section

variable {R : OrderBookManager → OrderBookManager → Prop} {z w : SnapShotSynchronizer}

theorem Mirrors.mono {Q : OrderBookManager → OrderBookManager → Prop} (h : Mirrors R z w)
    (hRQ : ∀ m m', R m m' → Q m m') : Mirrors Q z w := by
  obtain ⟨m, t, d, g, hz, hm, ht⟩ := h
  exact ⟨m, t, d, g, hz, hRQ _ _ hm, ht⟩

/-- A call on the manager, from two given states. -/
theorem Mirrors.onManager {Q : OrderBookManager → OrderBookManager → Prop} {α : Type}
    (h : Mirrors R z w) {call : Method FeedError OrderBookManager α}
    (hcall : ∀ m m', R m m' → Alike Q (call m) (call m')) :
    Alike (Mirrors Q) (onManager call z) (onManager call w) := by
  obtain ⟨m, t, d, g, rfl, hm, ht⟩ := h
  exact (hcall m w.bookManager hm).focus fun m₁ m₁' hm₁ ↦ ⟨m₁, t, d, g, rfl, hm₁, ht⟩

/-- A call on the manager, by what it does to two managers. -/
theorem agree_onManager {α : Type} {call : Method FeedError OrderBookManager α}
    (hcall : Agree R call call) : Agree (Mirrors R) (onManager call) (onManager call) :=
  fun _ _ h ↦ h.onManager hcall

/-- A step that is apart from them agrees. -/
theorem Apart.agree {f : SnapShotSynchronizer → SnapShotSynchronizer} (hf : Apart f) :
    Agree (Mirrors R) (modify f : Method FeedError SnapShotSynchronizer PUnit) (modify f) := by
  refine agree_modify ?_
  rintro _ w ⟨m, t, d, g, rfl, hm, ht⟩
  refine ⟨m, t, d, g, hf.replacing m t d g w, by rwa [hf.manager], fun hs ↦ ?_⟩
  rw [hf.tracker]
  exact ht (hf.sync w ▸ hs)

end

theorem Mirrors.resetForResnap {z w : SnapShotSynchronizer} (h : Mirrors Resembles z w) :
    Mirrors Resembles z.resetForResnap w.resetForResnap := by
  obtain ⟨m, t, d, g, rfl, hm, -⟩ := h
  refine ⟨_, t, [], [], rfl, ⟨rfl, fun s ↦ ?_, fun _ _ hs ↦ (nomatch hs)⟩, fun hs ↦ (nomatch hs)⟩
  show OrderBookManager.Counterpart s ((m.books.mapValues OrderBook.clear).get? s)
    ((w.bookManager.books.mapValues OrderBook.clear).get? s)
  rw [Dict.get?_mapValues, Dict.get?_mapValues]
  have hs := hm.books s
  revert hs
  rcases m.books.get? s with - | b <;> rcases w.bookManager.books.get? s with - | b' <;>
    intro hs <;> cases hs
  · exact .absent
  · exact .emptied _
  · obtain ⟨v, rfl⟩ := ‹b.SameButVolume b'›
    exact .kept ⟨v, rfl⟩

/-! ### The live channel -/

theorem agree_dispatch (header : MDHeader) (body : MarketDataMessage) :
    Agree (Mirrors Resembles) (dispatch header body) (dispatch header body) := by
  refine (agree_modify ?_).bind fun _ ↦ agree_onManager (agree_dispatchLiveMessage header body)
  rintro _ w ⟨m, t, d, g, rfl, hm, ht⟩
  exact ⟨m, t, d ++ [header.seqNum], g, rfl, hm, ht⟩

/-- Dispatching it, with a reset on a book error. -/
theorem agree_dispatchOrReset (header : MDHeader) (body : MarketDataMessage) :
    Agree (Mirrors Resembles) (dispatchOrReset header body) (dispatchOrReset header body) :=
  ((agree_dispatch header body).bind fun _ ↦ agree_pure true).tryCatch fun _ ↦
    (agree_modify fun _ _ h ↦ h.resetForResnap).bind fun _ ↦ agree_pure false

/-- While in sync the trackers are the same. -/
theorem Mirrors.processLive {z w : SnapShotSynchronizer} (h : Mirrors Resembles z w)
    (hs : w.sync = true) (header : MDHeader) (body : MarketDataMessage) :
    Alike (Mirrors Resembles) (processLive header body z) (processLive header body w) := by
  obtain ⟨m, t, d, g, rfl, hm, ht⟩ := h
  obtain rfl := ht hs
  unfold SnapShotSynchronizer.processLive
  rw [bind_ok (get_apply _), bind_ok (get_apply w),
    show (w.replacing m w.seqTracker d g).seqTracker = w.seqTracker from rfl]
  rcases w.seqTracker.check header.seqNum with ⟨- | -, warning, tracker⟩
  · exact .ok () ⟨m, _, d, g, rfl, hm, ht⟩
  · refine Agree.bind (agree_modify ?_)
      (fun _ ↦ (agree_dispatchOrReset header body).bind fun ok ↦ ?_)
      _ w ⟨m, _, d, g, rfl, hm, ht⟩
    · rintro _ w ⟨m, t, d, g, rfl, hm, -⟩
      exact ⟨m, tracker, d, _, rfl, hm, fun _ ↦ rfl⟩
    · split
      · exact agree_onManager OrderBookManager.agree_logBooks
      · exact agree_pure ()

/-! ### The snapshot channel -/

/-- Two calls on the manager in a row are one. -/
theorem onManager_bind {α β : Type} (call : Method FeedError OrderBookManager α)
    (rest : α → Method FeedError OrderBookManager β) :
    (onManager call >>= fun a ↦ onManager (rest a)) = onManager (call >>= rest) := by
  funext z
  rcases h : call z.bookManager with ⟨a, m⟩ | ⟨e, m⟩
  · rw [bind_ok (show onManager call z = .ok a (setManager m z) from focus_ok h setManager z)]
    rcases hrest : rest a m with ⟨b, m'⟩ | ⟨e, m'⟩
    · exact (focus_ok hrest setManager _).trans
        (focus_ok ((bind_ok h).trans hrest) setManager z).symm
    · exact (focus_error hrest setManager _).trans
        (focus_error ((bind_ok h).trans hrest) setManager z).symm
  · rw [bind_error (show onManager call z = .error e (setManager m z) from
      focus_error h setManager z)]
    exact (focus_error (bind_error h) setManager z).symm

/-- Two calls on the manager in a row, with more behind them. -/
theorem onManager_bind_bind {α β γ : Type} (call : Method FeedError OrderBookManager α)
    (rest : α → Method FeedError OrderBookManager β)
    (last : β → Method FeedError SnapShotSynchronizer γ) :
    (onManager call >>= fun a ↦ onManager (rest a) >>= last) =
      onManager (call >>= rest) >>= last := by
  rw [← onManager_bind]
  funext z
  rw [bind_apply, bind_apply, bind_apply]
  rcases onManager call z with ⟨a, t⟩ | ⟨e, t⟩
  · rfl
  · rfl

theorem apart_bufferLiveMessage (header : MDHeader) (body : MarketDataMessage) :
    Apart (bufferLiveMessage header body) :=
  ⟨fun _ _ _ _ _ ↦ rfl, fun _ ↦ rfl, fun _ ↦ rfl, fun _ ↦ rfl⟩

theorem apart_startSnapshot (body : SnapshotInfo) : Apart (startSnapshot body) :=
  ⟨fun _ _ _ _ _ ↦ rfl, fun _ ↦ rfl, fun _ ↦ rfl, fun _ ↦ rfl⟩

theorem apart_countOrder (symbol : ℤ) (state : SnapState) : Apart (countOrder symbol state) :=
  ⟨fun _ _ _ _ _ ↦ rfl, fun _ ↦ rfl, fun _ ↦ rfl, fun _ ↦ rfl⟩

theorem apart_completeSymbol (symbol : ℤ) : Apart (completeSymbol symbol) :=
  ⟨fun _ _ _ _ _ ↦ rfl, fun _ ↦ rfl, fun _ ↦ rfl, fun _ ↦ rfl⟩

/-- Completing them all is. -/
theorem apart_complete : Apart fun z ↦ { z with snapComplete := true } :=
  ⟨fun _ _ _ _ _ ↦ rfl, fun _ ↦ rfl, fun _ ↦ rfl, fun _ ↦ rfl⟩

/-- So is the decision, which goes by the counts and the buffer. -/
theorem apart_decideComplete : Apart decideComplete := by
  refine ⟨fun m t d g w ↦ ?_, fun w ↦ ?_, fun w ↦ ?_, fun w ↦ ?_⟩
  · unfold decideComplete
    by_cases hc : w.bufferCovers ∧ w.completedSymbols.card = w.totalSymbols
    · rw [if_pos hc]
      exact if_pos hc
    · rw [if_neg hc]
      exact if_neg hc
  all_goals
    unfold decideComplete
    split <;> rfl

theorem agree_handleSnapshotInfo (body : SnapshotInfo) :
    Agree (Mirrors Resembles) (handleSnapshotInfo body) (handleSnapshotInfo body) := by
  refine agree_get fun z w h ↦ ?_
  have hsame : (z.bufferCovers ∧ (body.symbol : ℤ) ∈ z.completedSymbols ∧
      z.completedSymbols.card = z.totalSymbols) ↔ (w.bufferCovers ∧
        (body.symbol : ℤ) ∈ w.completedSymbols ∧ w.completedSymbols.card = w.totalSymbols) := by
    obtain ⟨m, t, d, g, rfl, -⟩ := h
    exact Iff.rfl
  rw [onManager_bind]
  by_cases hc : w.bufferCovers ∧ (body.symbol : ℤ) ∈ w.completedSymbols ∧
      w.completedSymbols.card = w.totalSymbols
  · rw [if_pos hc, if_pos (hsame.2 hc)]
    exact apart_complete.agree z w h
  · rw [if_neg hc, if_neg fun hz ↦ hc (hsame.1 hz)]
    refine (apart_startSnapshot body).agree.bind (fun _ ↦ agree_onManager fun m m' hm ↦ ?_) z w h
    exact (OrderBookManager.alike_openBook hm.index hm.books
      (fun id s hs ↦ Or.inr (hm.backed id s hs)) OrderBook.agree_clear).mono fun _ _ ↦ And.left

theorem agree_handleSnapshotOrder (header : MDHeader) (body : NewOrder) :
    Agree (Mirrors Resembles) (handleSnapshotOrder header body)
      (handleSnapshotOrder header body) := by
  refine agree_get fun z w h ↦ ?_
  have hsame : z.snapState = w.snapState ∧ z.completedSymbols = w.completedSymbols := by
    obtain ⟨m, t, d, g, rfl, -⟩ := h
    exact ⟨rfl, rfl⟩
  rw [hsame.1, hsame.2]
  rcases w.snapState.get? body.symbol with - | state
  · exact .ok _ h.resetForResnap
  dsimp only
  by_cases hdone : (body.symbol : ℤ) ∈ w.completedSymbols
  · rw [if_pos hdone]
    exact .error _ h
  rw [if_neg hdone]
  simp only [onManager_bind_bind]
  -- from the order on, both managers have a book of the symbol
  have hload : Alike (Mirrors (ResemblesAt body.symbol)) (onManager (loadOrder header body) z)
      (onManager (loadOrder header body) w) :=
    h.onManager fun m m' hm ↦ OrderBookManager.alike_processNewOrder hm _ _ _ _ _ _ _ _
  refine (hload.bind fun _ ↦ ?_).mono fun _ _ h ↦ h.mono fun _ _ ↦ And.left
  refine (apart_countOrder body.symbol state).agree.bind fun _ ↦ ?_
  split
  · exact (apart_completeSymbol body.symbol).agree.bind fun _ ↦
      (agree_onManager (OrderBookManager.agree_onBook _ OrderBook.agree_validate)).bind fun _ ↦
        apart_decideComplete.agree
  · exact agree_pure ()

theorem agree_handleSnapshotMessage (header : MDHeader) (body : MarketDataMessage) :
    Agree (Mirrors Resembles) (handleSnapshotMessage header body)
      (handleSnapshotMessage header body) := by
  unfold handleSnapshotMessage
  split
  · exact agree_handleSnapshotInfo _
  · exact agree_handleSnapshotOrder header _
  · exact agree_pure ()

theorem agree_replayLoop (snap : ℕ) (l : List Message) (lastSeq : ℕ) :
    Agree (Mirrors Resembles) (replayLoop snap l lastSeq) (replayLoop snap l lastSeq) := by
  induction l generalizing lastSeq with
  | nil => exact agree_pure lastSeq
  | cons item rest ih =>
    obtain ⟨header, body⟩ := item
    rw [replayLoop]
    split
    · exact ih lastSeq
    · refine (agree_modify ?_).bind fun _ ↦ (agree_dispatch header body).bind fun _ ↦
        ih header.seqNum
      rintro _ w ⟨m, t, d, g, rfl, hm, ht⟩
      unfold warnOnGap
      split
      · exact ⟨m, t, d, _, rfl, hm, ht⟩
      · exact ⟨m, t, d, g, rfl, hm, ht⟩

/-- The replay, which brings the trackers together. -/
theorem agree_replayBufferedMessages :
    Agree (Mirrors Resembles) replayBufferedMessages replayBufferedMessages := by
  refine agree_get fun z w h ↦ ?_
  have hsame : z.liveBuffer = w.liveBuffer ∧ z.lastSnapSeqNum = w.lastSnapSeqNum := by
    obtain ⟨m, t, d, g, rfl, -⟩ := h
    exact ⟨rfl, rfl⟩
  rw [hsame.1, hsame.2]
  rcases deduped w.liveBuffer with - | ⟨first, rest⟩
  · exact .ok _ h.resetForResnap
  dsimp only
  split
  · exact .ok _ h.resetForResnap
  · refine (agree_replayLoop _ _ _ z w h).bind fun lastSeq ↦ agree_modify ?_
    -- the tracker is set to the same number
    rintro _ w ⟨m, t, d, g, rfl, hm, -⟩
    exact ⟨m, _, d, g, rfl, hm, fun _ ↦ rfl⟩

/-! ### Events -/

theorem agree_processPacket (header : MDHeader) (body : MarketDataMessage) :
    Agree (Mirrors Resembles) (processPacket header body) (processPacket header body) := by
  refine agree_get fun z w h ↦ ?_
  have hsync : z.sync = w.sync := by
    obtain ⟨m, t, d, g, rfl, -⟩ := h
    rfl
  rw [hsync]
  split
  · split
    · exact (apart_bufferLiveMessage header body).agree z w h
    · rename_i hs
      exact h.processLive (by simpa using hs) header body
  split
  · refine ((agree_handleSnapshotMessage header body).bind fun _ ↦ agree_get fun z w h ↦ ?_) z w h
    have hcomplete : z.snapComplete = w.snapComplete := by
      obtain ⟨m, t, d, g, rfl, -⟩ := h
      rfl
    rw [hcomplete]
    split
    · exact (agree_replayBufferedMessages.bind fun _ ↦
        agree_onManager OrderBookManager.agree_logBooks) z w h
    · exact .ok () h
  · exact .ok () h

/-- **Every event keeps the relation**, and comes out the same on both sides. -/
theorem Event.agree (event : Event) : Agree (Mirrors Resembles) event.step event.step := by
  cases event with
  | packet header body => exact agree_processPacket header body
  | read symbol =>
    refine agree_get fun z w h ↦ ?_
    obtain ⟨m, t, d, g, rfl, hm, ht⟩ := h
    have hc := hm.books symbol
    have hcontains : ∀ (v : SnapShotSynchronizer) (b : OrderBook),
        v.bookManager.books.get? symbol = some b →
          v.bookManager.books.contains symbol = true := fun v b hb ↦ by simp [hb]
    have hcontains' : ∀ v : SnapShotSynchronizer, v.bookManager.books.get? symbol = none →
        ¬v.bookManager.books.contains symbol = true := fun v hb ↦ by simp [hb]
    rcases hw : w.bookManager.books.get? symbol with - | b'
    · rw [if_neg (hcontains' w hw)]
      rcases hz : m.books.get? symbol with - | b
      · rw [if_neg (hcontains' (w.replacing m t d g) hz)]
        exact .ok () ⟨m, t, d, g, rfl, hm, ht⟩
      · obtain ⟨m₁, hread, hm₁⟩ := OrderBookManager.readBook_ok hz
        rw [if_pos (hcontains (w.replacing m t d g) b hz)]
        have hrun : onManager (OrderBookManager.readBook symbol) (w.replacing m t d g) =
            .ok () (setManager m₁ (w.replacing m t d g)) := focus_ok hread setManager _
        rw [hrun]
        exact .ok () ⟨m₁, t, d, g, rfl, hm.readBook hw hm₁, ht⟩
    · rw [hw] at hc
      obtain ⟨b, hz, -⟩ := hc.exists_book
      rw [if_pos (hcontains w b' hw), if_pos (hcontains (w.replacing m t d g) b hz)]
      have hmirrors : Mirrors (ResemblesAt symbol) (w.replacing m t d g) w :=
        ⟨m, t, d, g, rfl, ⟨hm, b', hw⟩, ht⟩
      exact (hmirrors.onManager (OrderBookManager.agree_readBook symbol)).mono fun _ _ h ↦
        h.mono fun _ _ ↦ And.left

/-! ### The states a reset can meet -/

/-- Every book stands under its own symbol, and the number of symbols waited for is what it was at
the start. -/
def Stocked (n : ℕ) (z : SnapShotSynchronizer) : Prop := z.bookManager.Shelved ∧ z.totalSymbols = n

section

variable {n : ℕ}

/-- A reset leaves every book in its place. -/
theorem Stocked.resetForResnap {z : SnapShotSynchronizer} (h : Stocked n z) :
    Stocked n z.resetForResnap := by
  refine ⟨fun s b hb ↦ ?_, h.2⟩
  have hb' : (z.bookManager.books.mapValues OrderBook.clear).get? s = some b := hb
  rw [Dict.get?_mapValues, Option.map_eq_some_iff] at hb'
  obtain ⟨b₀, hb₀, rfl⟩ := hb'
  exact ⟨OrderBook.consistent_clear b₀, (h.1 s b₀ hb₀).2⟩

/-- So does a call on the manager that does. -/
theorem keeps_stocked_onManager {α : Type} {call : Method FeedError OrderBookManager α}
    (hcall : Keeps Shelved call) : Keeps (Stocked n) (onManager call) := by
  intro z h
  rw [after_onManager]
  exact ⟨hcall z.bookManager h.1, h.2⟩

theorem keeps_stocked_dispatch (header : MDHeader) (body : MarketDataMessage) :
    Keeps (Stocked n) (dispatch header body) :=
  (keeps_modify fun _ h ↦ ⟨h.1, h.2⟩).bind fun _ ↦
    keeps_stocked_onManager (keeps_shelved_dispatchLiveMessage header body)

theorem keeps_stocked_processLive (header : MDHeader) (body : MarketDataMessage) :
    Keeps (Stocked n) (processLive header body) := by
  refine keeps_get.bind fun z ↦ ?_
  rcases z.seqTracker.check header.seqNum with ⟨- | -, warning, tracker⟩
  · exact keeps_pure ()
  refine (keeps_modify fun _ h ↦ ⟨h.1, h.2⟩).bind fun _ ↦ Keeps.bind ?_ fun ok ↦ ?_
  · exact ((keeps_stocked_dispatch header body).bind fun _ ↦ keeps_pure true).tryCatch fun _ ↦
      (keeps_modify fun _ h ↦ h.resetForResnap).bind fun _ ↦ keeps_pure false
  · split
    · exact keeps_stocked_onManager OrderBookManager.keeps_shelved_logBooks
    · exact keeps_pure ()

theorem keeps_stocked_handleSnapshotInfo (body : SnapshotInfo) :
    Keeps (Stocked n) (handleSnapshotInfo body) := by
  refine keeps_get.bind fun z ↦ ?_
  split
  · exact keeps_modify fun _ h ↦ ⟨h.1, h.2⟩
  · exact (keeps_modify fun _ h ↦ ⟨h.1, h.2⟩).bind fun _ ↦
      (keeps_stocked_onManager (OrderBookManager.keeps_shelved_getOrCreateBook _)).bind fun _ ↦
        keeps_stocked_onManager (OrderBookManager.keeps_shelved_onOp _ .clear)

theorem keeps_stocked_handleSnapshotOrder (header : MDHeader) (body : NewOrder) :
    Keeps (Stocked n) (handleSnapshotOrder header body) := by
  refine keeps_get.bind fun z ↦ ?_
  split
  · exact keeps_modify fun _ h ↦ h.resetForResnap
  split
  · exact keeps_throw _
  refine (keeps_stocked_onManager (keeps_modify fun _ h ↦ h.setIndex _)).bind fun _ ↦
    (keeps_stocked_onManager (OrderBookManager.keeps_shelved_getOrCreateBook _)).bind fun _ ↦
      (keeps_stocked_onManager (OrderBookManager.keeps_shelved_onOp _
        (.addOrder _ _ _ _ _ _))).bind fun _ ↦ (keeps_modify fun _ h ↦ ⟨h.1, h.2⟩).bind fun _ ↦ ?_
  split
  · refine (keeps_modify fun _ h ↦ ⟨h.1, h.2⟩).bind fun _ ↦ (keeps_stocked_onManager
      (OrderBookManager.keeps_shelved_onOp _ .validate)).bind fun _ ↦ keeps_modify fun z h ↦ ?_
    split
    · exact ⟨h.1, h.2⟩
    · exact h
  · exact keeps_pure ()

theorem keeps_stocked_replayLoop (snap : ℕ) (l : List Message) (lastSeq : ℕ) :
    Keeps (Stocked n) (replayLoop snap l lastSeq) := by
  induction l generalizing lastSeq with
  | nil => exact keeps_pure lastSeq
  | cons item rest ih =>
    obtain ⟨header, body⟩ := item
    rw [replayLoop]
    split
    · exact ih lastSeq
    · refine (keeps_modify fun z h ↦ ?_).bind fun _ ↦
        (keeps_stocked_dispatch header body).bind fun _ ↦ ih header.seqNum
      unfold warnOnGap
      split
      · exact ⟨h.1, h.2⟩
      · exact h

theorem keeps_stocked_replayBufferedMessages : Keeps (Stocked n) replayBufferedMessages := by
  refine keeps_get.bind fun z ↦ ?_
  split
  · exact keeps_modify fun _ h ↦ h.resetForResnap
  split
  · exact keeps_modify fun _ h ↦ h.resetForResnap
  · exact (keeps_stocked_replayLoop _ _ _).bind fun _ ↦ keeps_modify fun _ h ↦ ⟨h.1, h.2⟩

/-- **Every event leaves each book in its place**, raised or not. -/
theorem Event.keeps_stocked (event : Event) : Keeps (Stocked n) event.step := by
  cases event with
  | read symbol =>
    refine keeps_get.bind fun z ↦ ?_
    split
    · exact keeps_stocked_onManager (OrderBookManager.keeps_shelved_readBook symbol)
    · exact keeps_pure ()
  | packet header body =>
    refine keeps_get.bind fun z ↦ ?_
    split
    · split
      · exact keeps_modify fun _ h ↦ ⟨h.1, h.2⟩
      · exact keeps_stocked_processLive header body
    split
    · refine Keeps.bind ?_ fun _ ↦ keeps_get.bind fun z ↦ ?_
      · unfold handleSnapshotMessage
        split
        · exact keeps_stocked_handleSnapshotInfo _
        · exact keeps_stocked_handleSnapshotOrder header _
        · exact keeps_pure ()
      · split
        · exact keeps_stocked_replayBufferedMessages.bind fun _ ↦
            keeps_stocked_onManager OrderBookManager.keeps_shelved_logBooks
        · exact keeps_pure ()
    · exact keeps_pure ()

/-- The states of the feed: after any events, whatever they raised, and within an event, after the
check of a number and after a dispatch, which is where the loop catches a book error. -/
inductive Reached (n : ℕ) : SnapShotSynchronizer → Prop
  | start : Reached n (start n)
  | event {z : SnapShotSynchronizer} (h : Reached n z) (event : Event) :
      Reached n (event.step.after z)
  | checked {z : SnapShotSynchronizer} (h : Reached n z) (seqNum : ℕ) :
      Reached n { z with seqTracker := (z.seqTracker.check seqNum).2.2 }
  | dispatched {z : SnapShotSynchronizer} (h : Reached n z) (header : MDHeader)
      (body : MarketDataMessage) : Reached n ((dispatch header body).after z)

theorem Reached.run {z : SnapShotSynchronizer} (h : Reached n z) (events : List Event) :
    Reached n (Method.run (events.map Event.step) z) := by
  induction events generalizing z with
  | nil => exact h
  | cons event events ih => exact ih (h.event event)

/-- In every state that is reached, each book stands under its own symbol. -/
theorem Reached.stocked {z : SnapShotSynchronizer} (h : Reached n z) : Stocked n z := by
  induction h with
  | start => exact ⟨fun _ _ hb ↦ (nomatch hb), rfl⟩
  | event _ event ih => exact event.keeps_stocked _ ih
  | checked _ _ ih => exact ⟨ih.1, ih.2⟩
  | dispatched _ header body ih => exact keeps_stocked_dispatch header body _ ih

/-- **A reset state is a new one** but for emptied books and the tracker. -/
theorem Stocked.mirrors_reset {z : SnapShotSynchronizer} (h : Stocked n z) :
    Mirrors Resembles z.resetForResnap (SnapShotSynchronizer.start n) := by
  refine ⟨z.resetForResnap.bookManager, z.seqTracker, [], [], ?_, ⟨rfl, fun s ↦ ?_,
    fun _ _ hs ↦ (nomatch hs)⟩, fun hs ↦ (nomatch hs)⟩
  · rw [← h.2]
    rfl
  · show OrderBookManager.Counterpart s
      ((z.bookManager.books.mapValues OrderBook.clear).get? s) none
    rw [Dict.get?_mapValues]
    rcases hb : z.bookManager.books.get? s with - | b
    · exact .absent
    · rw [Option.map_some, (h.1 s b hb).clear_eq]
      exact .emptied _

end

/-! ### What can be told of a state -/

/-- No reading of the two states tells them apart: an absent book counts as empty, and the tracker
is read only in sync. -/
structure Indistinguishable (z w : SnapShotSynchronizer) : Prop where
  sync : z.sync = w.sync
  snapComplete : z.snapComplete = w.snapComplete
  completedSymbols : z.completedSymbols = w.completedSymbols
  snapState : z.snapState = w.snapState
  lastSnapSeqNum : z.lastSnapSeqNum = w.lastSnapSeqNum
  liveBuffer : z.liveBuffer = w.liveBuffer
  orderIdToSymbol : z.bookManager.orderIdToSymbol = w.bookManager.orderIdToSymbol
  resting : ∀ symbol orderId,
    z.bookManager.order? symbol orderId = w.bookManager.order? symbol orderId
  best : ∀ side symbol, (OrderBookManager.readBest side symbol).value? z.bookManager =
    (OrderBookManager.readBest side symbol).value? w.bookManager
  expectedSeq : z.sync = true → z.seqTracker.expectedSeq = w.seqTracker.expectedSeq

/-- What the relation leaves open cannot be read. -/
theorem Mirrors.indistinguishable {z w : SnapShotSynchronizer} (h : Mirrors Resembles z w) :
    Indistinguishable z w := by
  obtain ⟨m, t, d, g, rfl, hm, ht⟩ := h
  exact ⟨rfl, rfl, rfl, rfl, rfl, rfl, hm.index, fun symbol orderId ↦ by rw [← hm.order?_eq]; rfl,
    hm.readBest_eq, fun hs ↦ congrArg SequenceTracker.expectedSeq (ht hs)⟩

/-- **A reset is as good as a restart.** From the reset of any state and from a new manager and
synchronizer, any events go the same way: each returns or raises the same in both runs, and leaves
them in states that cannot be told apart. -/
theorem reset_as_good_as_restart {n : ℕ} {z : SnapShotSynchronizer} (h : Reached n z)
    (events : List Event) :
    Indistinguishable z.resetForResnap (start n) ∧
      List.Forall₂ (Alike Indistinguishable) (outcomes (events.map Event.step) z.resetForResnap)
        (outcomes (events.map Event.step) (start n)) := by
  have hmirrors := h.stocked.mirrors_reset
  refine ⟨hmirrors.indistinguishable, ?_⟩
  have hagree : List.Forall₂ (Agree (Mirrors Resembles)) (events.map Event.step)
      (events.map Event.step) :=
    List.forall₂_same.2 fun call hcall ↦ by
      obtain ⟨event, -, rfl⟩ := List.mem_map.1 hcall
      exact event.agree
  exact (Agree.outcomes hagree hmirrors).imp fun _ _ ho ↦ ho.mono fun _ _ ↦
    Mirrors.indistinguishable

/-- The whole feed of one symbol: a heartbeat, the snapshot of symbol 1, and a trade that fills its
order. -/
def tradedOut : List Event :=
  liveHeartbeat 4 :: snapshotOf 5 1 ++
    [.packet ⟨MAGIC_NUMBER, 39, 6, 0, .trade⟩ (.trade ⟨1, 1, 100⟩)]

/-- After that feed, a heartbeat and a snapshot go as on a new one. -/
theorem reset_as_good_as_restart_tradedOut :
    let z := Method.run (tradedOut.map Event.step) (start 1)
    Indistinguishable z.resetForResnap (start 1) ∧
      List.Forall₂ (Alike Indistinguishable)
        (outcomes ((liveHeartbeat 8 :: snapshotOf 9 1).map Event.step) z.resetForResnap)
        (outcomes ((liveHeartbeat 8 :: snapshotOf 9 1).map Event.step) (start 1)) :=
  reset_as_good_as_restart (Reached.start.run tradedOut) (liveHeartbeat 8 :: snapshotOf 9 1)

end SnapShotSynchronizer

end HftTrading
