import HftTrading.Book.Fills
import HftTrading.Book.Guards
import HftTrading.Feed.Handler

/-!
# What a snapshot message does to the books

A `SnapshotInfo` empties the book of its symbol, an order of the snapshot goes into it, and nothing
else rests differently afterwards. As long as every resting order has something left (`Solvent`), a
snapshot order is raised for one of four reasons, all of them visible before it is handled (`Fits`):
its symbol counts as complete already, its id rests in the book, it is an order of nothing, or it is
the last one the synchronizer counts on and the book is crossed with it.

## One lemma for each of the two handlers

`opened_of_handleSnapshotInfo` and `counted_of_handleSnapshotOrder` list all that the handlers can
leave: the books, read through `order?`, and the counts. Both name the cases in which the message
does something else, a `SnapshotInfo` that finds all snapshots complete and an order of a symbol
without a count. Statements about cycles go from here and never back to the handlers.

`validate` is called when the last order of a symbol has come in. It writes, because it reads the
best prices, but leaves the orders as they are (`Kept`); and in a solvent book it raises on crossed
best prices alone, which is a condition on the orders.
-/

namespace HftTrading

open MarketData

/-- Whether best prices are crossed is a matter of which orders there are. -/
theorem OrderBook.crossed_congr {os os' : List Order} (h : ∀ o, o ∈ os ↔ o ∈ os') :
    OrderBook.Crossed os ↔ OrderBook.Crossed os' := by
  have hprices : OrderBook.prices os = OrderBook.prices os' := by
    funext side
    ext price
    simp only [OrderBook.prices, h]
  unfold OrderBook.Crossed
  rw [hprices]

namespace OrderBookManager

/-! ### Calls that only read -/

/-- The books are consistent and hold the same orders, and no symbol has lost its book. -/
structure Kept (m m' : OrderBookManager) : Prop where
  books : m'.Books
  orders : m'.order? = m.order?
  index : m'.orderIdToSymbol = m.orderIdToSymbol
  backed : ∀ s, m.books.contains s = true → m'.books.contains s = true

theorem Kept.refl {m : OrderBookManager} (h : m.Books) : Kept m m := ⟨h, rfl, rfl, fun _ hs ↦ hs⟩

theorem Kept.trans {m₁ m₂ m₃ : OrderBookManager} (h : Kept m₁ m₂) (h' : Kept m₂ m₃) : Kept m₁ m₃ :=
  ⟨h'.books, h'.orders.trans h.orders, h'.index.trans h.index,
    fun s hs ↦ h'.backed s (h.backed s hs)⟩

/-- A call that leaves the orders of its book as they are. -/
theorem kept_onBook {α : Type} {m m' : OrderBookManager} (h : m.Books) {s : ℤ}
    {call : Method FeedError OrderBook α} {a : α}
    (hcall : ∀ b : OrderBook, b.Consistent →
      (call.after b).Consistent ∧ (call.after b).orders = b.orders)
    (hrun : onBook s call m = .ok a m') : Kept m m' := by
  obtain ⟨book, book', hb, hbook⟩ := onBook_eq_ok hrun
  obtain ⟨hcons, horders⟩ := hcall book (h s book hb)
  rw [Method.after_ok hbook] at hcons horders
  rw [onBook_of_book hb, Method.focus_ok hbook] at hrun
  cases hrun
  refine ⟨h.setBook s hcons, ?_, rfl, fun s' hs' ↦ (contains_setBook m s s' book').2 (Or.inr hs')⟩
  funext s' k
  rw [order?_setBook, horders]
  split
  · rename_i hs
    rw [hs, order?_of_book hb]
  · rfl

theorem kept_validate {m m' : OrderBookManager} (h : m.Books) {s : ℤ}
    (hrun : onBook s OrderBook.validate m = .ok () m') : Kept m m' := by
  refine kept_onBook h (fun b hb ↦ ?_) hrun
  obtain ⟨b', hafter, hl, -⟩ := OrderBook.validate_spec hb
  rw [hafter]
  exact ⟨hl.consistent, hl.orders_eq⟩

theorem kept_readBook {m m' : OrderBookManager} (h : m.Books) {s : ℤ}
    (hrun : readBook s m = .ok () m') : Kept m m' := by
  have hbest : ∀ (side : Side) (b : OrderBook), b.Consistent →
      ((OrderBook.getBest side).after b).Consistent ∧
        ((OrderBook.getBest side).after b).orders = b.orders := by
    intro side b hb
    obtain ⟨r, b', hget, -, hl, -⟩ := OrderBook.getBest_spec hb side
    rw [Method.after_ok hget]
    exact ⟨hl.consistent, hl.orders_eq⟩
  obtain ⟨_, m₁, hbid, hrest⟩ := Method.bind_eq_ok_iff.1 hrun
  obtain ⟨_, m₂, hask, hpure⟩ := Method.bind_eq_ok_iff.1 hrest
  cases hpure
  have h₁ := kept_onBook h (hbest .buy) hbid
  exact h₁.trans (kept_onBook h₁.books (hbest .sell) hask)

/-! ### Solvent books -/

/-- Every book is consistent, and every resting order has something left. -/
structure Solvent (m : OrderBookManager) : Prop where
  books : m.Books
  positive : ∀ s k o, m.order? s k = some o → 0 < o.quantity

theorem solvent_init : init.Solvent := ⟨books_init, fun s k o h ↦ by cases h⟩

/-- What leaves the orders leaves them with something left. -/
theorem Solvent.kept {m m' : OrderBookManager} (h : m.Solvent) (hk : Kept m m') : m'.Solvent := by
  refine ⟨hk.books, ?_⟩
  rw [hk.orders]
  exact h.positive

/-- The orders of a book have something left. -/
theorem Solvent.positive_orders {m : OrderBookManager} (h : m.Solvent) {s : ℤ} {book : OrderBook}
    (hb : m.books.get? s = some book) : OrderBook.Positive book.orders := by
  intro o ho
  obtain ⟨k, hk⟩ := Dict.mem_values_iff.1 ho
  exact h.positive s k o ((order?_of_book hb k).trans hk)

/-- The orders of a book are those that rest under some id. -/
theorem mem_ordersOf_iff {m : OrderBookManager} {symbol : ℤ} {o : Order} :
    o ∈ (m.ordersOf symbol).values ↔ ∃ k, m.order? symbol k = some o := by
  simp only [Dict.mem_values_iff, get?_ordersOf]

/-- Where there is a book, `validate` raises on crossed best prices alone. -/
theorem Solvent.validate_raises_iff_crossed {m : OrderBookManager} (h : m.Solvent) {s : ℤ}
    (hb : m.books.contains s = true) :
    (onBook s OrderBook.validate).Raises m ↔ OrderBook.Crossed (m.ordersOf s).values := by
  obtain ⟨book, hbook⟩ := Dict.contains_eq_true_iff.1 hb
  have hcrossed := (h.books s book hbook).validate_crossed_iff (h.positive_orders hbook)
  rw [onBook_raises_iff, ordersOf, hbook, ← hcrossed]
  simp

end OrderBookManager

open OrderBookManager SnapShotSynchronizer

/-! ### Opening a book, and loading an order -/

/-- **Opening the snapshot of a symbol** empties its book and leaves the others. -/
theorem openBook_returns {m : OrderBookManager} (h : m.Books) (s : ℤ) :
    ∃ m', openBook s m = .ok () m' ∧ m'.Books ∧ m'.orderIdToSymbol = m.orderIdToSymbol ∧
      (∀ s' k, m'.order? s' k = if s' = s then none else m.order? s' k) ∧
      ∀ s', s' = s ∨ m.books.contains s' = true → m'.books.contains s' = true := by
  obtain ⟨book, m₁, hget, hbook, hb₁, horder, hindex, hothers⟩ := getOrCreateBook_spec h s
  have hclear : onBook s (modify OrderBook.clear) m₁ = .ok () (m₁.setBook s book.clear) := by
    rw [onBook_of_book hbook]
    rfl
  refine ⟨_, (Method.bind_ok hget).trans hclear, hb₁.setBook s (OrderBook.consistent_clear book),
    hindex, fun s' k ↦ ?_, fun s' hs' ↦ ?_⟩
  · rw [order?_setBook, horder]
    rfl
  · rw [contains_setBook]
    rcases eq_or_ne s' s with heq | hne
    · exact Or.inl heq
    · rw [Dict.contains, hothers s' hne]
      exact Or.inr (hs'.resolve_left hne)

/-- A book that has been opened is empty, and the others are as they were. -/
theorem OrderBookManager.Solvent.of_openBook {m m' : OrderBookManager} (h : m.Solvent) {s : ℤ}
    (hrun : openBook s m = .ok () m') :
    m'.Solvent ∧ ∀ s' k, m'.order? s' k = if s' = s then none else m.order? s' k := by
  obtain ⟨m₁, hrun₁, hb, -, horder, -⟩ := openBook_returns h.books s
  cases hrun₁.symm.trans hrun
  refine ⟨⟨hb, fun s' k o ho ↦ ?_⟩, horder⟩
  rw [horder] at ho
  split at ho
  · cases ho
  · exact h.positive s' k o ho

/-- The order a snapshot order becomes. -/
def orderOf (header : MDHeader) (body : NewOrder) : Order where
  orderId := body.orderId
  symbol := body.symbol
  side := body.side
  quantity := body.quantity
  price := body.price
  timestamp := header.timestamp

/-- **A snapshot order** that returns has gone into the book of its symbol, under an id that was
free there. -/
theorem OrderBookManager.Solvent.of_loadOrder {m m' : OrderBookManager} (h : m.Solvent)
    {header : MDHeader} {body : NewOrder} (hrun : loadOrder header body m = .ok () m') :
    m.TakesNewOrder body.orderId body.symbol body.quantity ∧ m'.Solvent ∧
      m'.books.contains body.symbol = true ∧
      ∀ s k, m'.order? s k = if s = body.symbol ∧ k = body.orderId then some (orderOf header body)
        else m.order? s k := by
  have htakes : m.TakesNewOrder body.orderId body.symbol body.quantity := by
    by_contra hnot
    exact Method.not_raises_of_ok hrun ((processNewOrder_raises_iff m ..).2 hnot)
  obtain ⟨book, m₁, hget, hbook, hb₁, horder, -⟩ :=
    getOrCreateBook_spec (h.books.setIndex (m.orderIdToSymbol.insert body.orderId body.symbol))
      body.symbol
  have hadd : onBook body.symbol (OrderBook.addOrder body.orderId body.symbol body.side
      body.quantity body.price header.timestamp) m₁ = .ok () m' := by
    obtain ⟨_, _, hindex, hrest⟩ := Method.bind_eq_ok_iff.1 hrun
    cases hindex
    rwa [Method.bind_ok hget] at hrest
  obtain ⟨book', book'', hbook', hcall⟩ := onBook_eq_ok hadd
  cases hbook.symm.trans hbook'
  rw [onBook_of_book hbook, Method.focus_ok hcall] at hadd
  cases hadd
  obtain ⟨-, -, hl⟩ := OrderBook.addOrder_ok (hb₁ _ book hbook) hcall
  have horder' : ∀ s k, (m₁.setBook body.symbol book'').order? s k =
      if s = body.symbol ∧ k = body.orderId then some (orderOf header body)
      else m.order? s k := by
    intro s k
    rw [order?_setBook, hl.orders_eq, Dict.get?_insert, ← order?_of_book hbook, horder,
      order?_setIndex]
    split_ifs <;> simp_all [orderOf]
  refine ⟨htakes, ⟨hb₁.setBook _ hl.consistent, fun s k o ho ↦ ?_⟩,
    (contains_setBook m₁ body.symbol body.symbol book'').2 (Or.inl rfl), horder'⟩
  rw [horder'] at ho
  split at ho
  · cases ho
    exact htakes.2
  · exact h.positive s k o ho

/-! ### What a snapshot message raises -/

namespace SnapShotSynchronizer

/-- The checks a snapshot order meets, on the state it finds: if the synchronizer is counting the
symbol's orders, the symbol is not complete, the id is free in its book, the quantity is positive,
and with the last order of the count the book is not crossed. -/
def Fits (z : SnapShotSynchronizer) (header : MDHeader) (body : NewOrder) : Prop :=
  ∀ state, z.snapState.get? body.symbol = some state →
    (body.symbol : ℤ) ∉ z.completedSymbols ∧
      z.bookManager.TakesNewOrder body.orderId body.symbol body.quantity ∧
      (state.ordersReceived + 1 = state.expectedTotal →
        ¬ OrderBook.Crossed (orderOf header body :: (z.bookManager.ordersOf body.symbol).values))

/-- A `SnapshotInfo` is never raised. -/
theorem handleSnapshotInfo_returns {z : SnapShotSynchronizer} (h : z.bookManager.Books)
    (body : SnapshotInfo) : ∃ z', handleSnapshotInfo body z = .ok () z' := by
  obtain ⟨m, hopen, -⟩ := openBook_returns h body.symbol
  obtain ⟨book, m₁, hget, hclear⟩ := Method.bind_eq_ok_iff.1 hopen
  unfold handleSnapshotInfo
  rw [Method.bind_ok (Method.get_apply z)]
  split_ifs with hdone
  · exact ⟨_, rfl⟩
  · have hbook : onManager (getOrCreateBook body.symbol) (startSnapshot body z) =
        .ok book (setManager m₁ (startSnapshot body z)) := onManager_eq_ok_iff.2 ⟨m₁, hget, rfl⟩
    rw [Method.bind_ok (Method.modify_apply _ z), Method.bind_ok hbook]
    exact ⟨_, onManager_eq_ok_iff.2 ⟨m, hclear, rfl⟩⟩

/-- The orders of the book once an order has gone in. -/
theorem crossed_ordersOf_iff {m m' : OrderBookManager} {header : MDHeader} {body : NewOrder}
    (hnone : m.order? body.symbol body.orderId = none)
    (horder : ∀ s k, m'.order? s k = if s = body.symbol ∧ k = body.orderId then
      some (orderOf header body) else m.order? s k) :
    OrderBook.Crossed (m'.ordersOf body.symbol).values ↔
      OrderBook.Crossed (orderOf header body :: (m.ordersOf body.symbol).values) := by
  refine OrderBook.crossed_congr fun o ↦ ?_
  rw [List.mem_cons, mem_ordersOf_iff, mem_ordersOf_iff]
  constructor
  · rintro ⟨k, hk⟩
    rw [horder] at hk
    split at hk
    · exact Or.inl (Option.some.inj hk).symm
    · exact Or.inr ⟨k, hk⟩
  · rintro (rfl | ⟨k, hk⟩)
    · exact ⟨body.orderId, by rw [horder, if_pos ⟨rfl, rfl⟩]⟩
    · refine ⟨k, ?_⟩
      rw [horder, if_neg, hk]
      rintro ⟨-, rfl⟩
      cases hnone.symm.trans hk

/-- **A snapshot order is raised exactly when it does not fit.** -/
theorem handleSnapshotOrder_raises_iff {z : SnapShotSynchronizer} (h : z.bookManager.Solvent)
    (header : MDHeader) (body : NewOrder) :
    (handleSnapshotOrder header body).Raises z ↔ ¬ z.Fits header body := by
  constructor
  -- a fitting order passes every check
  · rintro hraise hfits
    refine Method.not_raises_iff.2 ?_ hraise
    unfold handleSnapshotOrder
    rw [Method.bind_ok (Method.get_apply z)]
    rcases hstate : z.snapState.get? body.symbol with - | state
    · exact ⟨(), _, rfl⟩
    obtain ⟨hdone, htakes, hcrossed⟩ := hfits state hstate
    obtain ⟨_, m, hload⟩ := Method.not_raises_iff.1 fun hraise ↦
      (processNewOrder_raises_iff z.bookManager header.seqNum header.timestamp body.orderId
        body.symbol body.side body.quantity body.price body.flags).1 hraise htakes
    obtain ⟨-, hm, hbacked, horder⟩ := h.of_loadOrder hload
    obtain ⟨_, m₁, hindex, hrest⟩ := Method.bind_eq_ok_iff.1 hload
    obtain ⟨book, m₂, hget, hadd⟩ := Method.bind_eq_ok_iff.1 hrest
    simp only [if_neg hdone]
    rw [Method.bind_ok (onManager_eq_ok_iff.2 ⟨m₁, hindex, rfl⟩),
      Method.bind_ok (onManager_eq_ok_iff.2 ⟨m₂, hget, rfl⟩),
      Method.bind_ok (onManager_eq_ok_iff.2 ⟨m, hadd, rfl⟩),
      Method.bind_ok (Method.modify_apply _ _)]
    split_ifs with htotal
    · have hquiet : ¬ (onBook body.symbol OrderBook.validate).Raises m := by
        rw [hm.validate_raises_iff_crossed hbacked, crossed_ordersOf_iff htakes.1 horder]
        exact hcrossed htotal
      obtain ⟨_, m', hvalidate⟩ := Method.not_raises_iff.1 hquiet
      rw [Method.bind_ok (Method.modify_apply _ _),
        Method.bind_ok (onManager_eq_ok_iff.2 ⟨m', hvalidate, rfl⟩)]
      exact ⟨(), _, rfl⟩
    · exact ⟨(), _, rfl⟩
  -- a returning order has passed them
  · intro hnot
    by_contra hquiet
    obtain ⟨_, z', hrun⟩ := Method.not_raises_iff.1 hquiet
    refine hnot fun state hstate ↦ ?_
    rcases handleSnapshotOrder_ok hrun with ⟨hnone, -⟩ | ⟨state', m, hstate', hdone, hload, hcases⟩
    · cases hnone.symm.trans hstate
    cases hstate'.symm.trans hstate
    obtain ⟨htakes, hm, hbacked, horder⟩ := h.of_loadOrder hload
    refine ⟨hdone, htakes, fun htotal hcrossed ↦ ?_⟩
    rcases hcases with ⟨hne, -⟩ | ⟨-, m', hvalidate, -⟩
    · exact hne htotal
    · rw [← crossed_ordersOf_iff htakes.1 horder,
        ← hm.validate_raises_iff_crossed hbacked] at hcrossed
      exact Method.not_raises_of_ok hvalidate hcrossed

theorem completedSymbols_decideComplete (z : SnapShotSynchronizer) :
    z.decideComplete.completedSymbols = z.completedSymbols := by
  unfold decideComplete
  split <;> rfl

/-! ### What a snapshot message leaves -/

/-- The snapshot of a symbol has been opened: its book is empty, its count at zero. -/
structure Opened (body : SnapshotInfo) (z z' : SnapShotSynchronizer) : Prop where
  solvent : z'.bookManager.Solvent
  orders : ∀ s k, z'.bookManager.order? s k =
    if s = body.symbol then none else z.bookManager.order? s k
  states : ∀ s, z'.snapState.get? s =
    if s = body.symbol then
      some ⟨body.askCount, body.bidCount, body.lastMdSeqNum, 0, body.askCount + body.bidCount⟩
    else z.snapState.get? s
  completed : ∀ s, s ∈ z'.completedSymbols ↔ s ≠ body.symbol ∧ s ∈ z.completedSymbols

/-- An order of a snapshot has been counted: it rests in the book of its symbol, and if it is the
last one the synchronizer counts on, the symbol is complete. -/
structure Counted (header : MDHeader) (body : NewOrder) (state : SnapState)
    (z z' : SnapShotSynchronizer) : Prop where
  fits : z.Fits header body
  solvent : z'.bookManager.Solvent
  orders : ∀ s k, z'.bookManager.order? s k =
    if s = body.symbol ∧ k = body.orderId then some (orderOf header body)
    else z.bookManager.order? s k
  states : ∀ s, z'.snapState.get? s =
    if s = body.symbol then some { state with ordersReceived := state.ordersReceived + 1 }
    else z.snapState.get? s
  completed : ∀ s, s ∈ z'.completedSymbols ↔
    s = body.symbol ∧ state.ordersReceived + 1 = state.expectedTotal ∨ s ∈ z.completedSymbols

/-- A `SnapshotInfo` opens its snapshot, unless it finds all snapshots complete. -/
theorem opened_of_handleSnapshotInfo {z z' : SnapShotSynchronizer} (h : z.bookManager.Solvent)
    {body : SnapshotInfo} (hrun : handleSnapshotInfo body z = .ok () z') :
    (z.bufferCovers ∧ (body.symbol : ℤ) ∈ z.completedSymbols ∧
        z.completedSymbols.card = z.totalSymbols ∧ z' = { z with snapComplete := true }) ∨
      ¬ (z.bufferCovers ∧ (body.symbol : ℤ) ∈ z.completedSymbols ∧
        z.completedSymbols.card = z.totalSymbols) ∧ Opened body z z' := by
  refine (handleSnapshotInfo_ok hrun).imp_right ?_
  rintro ⟨hnot, m, hopen, rfl⟩
  obtain ⟨hm, horder⟩ := h.of_openBook hopen
  exact ⟨hnot, hm, horder, fun s ↦ Dict.get?_insert _ _ _ _, fun s ↦ Finset.mem_erase⟩

/-- An order is counted if there is a count for its symbol, and a reason to start over if not. -/
theorem counted_of_handleSnapshotOrder {z z' : SnapShotSynchronizer} (h : z.bookManager.Solvent)
    {header : MDHeader} {body : NewOrder} (hrun : handleSnapshotOrder header body z = .ok () z') :
    (z.snapState.get? body.symbol = none ∧ z' = z.resetForResnap) ∨
      ∃ state, z.snapState.get? body.symbol = some state ∧ Counted header body state z z' := by
  have hfits : z.Fits header body := by
    by_contra hnot
    exact Method.not_raises_of_ok hrun ((handleSnapshotOrder_raises_iff h header body).2 hnot)
  refine (handleSnapshotOrder_ok hrun).imp_right ?_
  rintro ⟨state, m, hstate, -, hload, hcases⟩
  obtain ⟨-, hm, -, horder⟩ := h.of_loadOrder hload
  refine ⟨state, hstate, ?_⟩
  have hstates : ∀ s, (countOrder body.symbol state z).snapState.get? s =
      if s = body.symbol then some { state with ordersReceived := state.ordersReceived + 1 }
      else z.snapState.get? s := fun s ↦ Dict.get?_insert _ _ _ _
  rcases hcases with ⟨hne, rfl⟩ | ⟨htotal, m', hvalidate, rfl⟩
  · exact ⟨hfits, hm, horder, hstates, fun s ↦ by simp [setManager, countOrder, hne]⟩
  -- the last order: `validate` has run, which only reads
  · have hkept := kept_validate hm.books hvalidate
    set w := setManager m' (completeSymbol body.symbol (countOrder body.symbol state z)) with hw
    have hmanager : w.decideComplete.bookManager = m' := by
      unfold decideComplete
      split <;> rfl
    have hsnap : w.decideComplete.snapState = (countOrder body.symbol state z).snapState := by
      unfold decideComplete
      split <;> rfl
    refine ⟨hfits, ?_, fun s k ↦ ?_, fun s ↦ ?_, fun s ↦ ?_⟩
    · rw [hmanager]
      exact hm.kept hkept
    · rw [hmanager, hkept.orders, horder]
    · rw [hsnap, hstates]
    · rw [completedSymbols_decideComplete, hw]
      simp [setManager, completeSymbol, countOrder, htotal]

end SnapShotSynchronizer

end HftTrading
