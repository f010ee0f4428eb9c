import HftTrading.Book.IdIndex
import HftTrading.Book.Market

/-!
# The manager refines the market

A manager that is `Healthy` (its books consistent, its index right and backed by books, every
resting quantity positive) does to its `view` exactly what the market does, as long as the market
accepts the action: the operation returns, the manager stays healthy, and the view moves by
`Market.apply` (`refines_newOrder`, `refines_deleteOrder`, `refines_modifyOrder`, `refines_trade`).

## What the view forgets

The view is the resting orders, each with its side, quantity and price. It forgets the levels and
the heaps, which are functions of the orders; the timestamps, which no operation goes by; the traded
volumes; and the index entries of ids that no longer rest, which a healthy manager may still hold.

Two healthy managers with one view are therefore indistinguishable to every further message,
whatever their indexes hold for ids that no longer rest. This is how a book loaded from a snapshot
can stand in for one built from the whole log.

## The other direction

That the operations follow the market on accepted actions says nothing of the rest. Conversely, an
operation that returns has been accepted, as far as the manager can tell: a new order by its own
book only, since that is the only one it looks at, and a trade by the total of a level, which is why
the converse for trades needs a fair exchange. Those parts are the last section but one.

The best prices are functions of the view as well, so managers with one view quote the same
(`readBest_eq_of_view`).
-/

namespace HftTrading.OrderBookManager

open MarketData

/-- What of an order the market is about. -/
def resting (o : Order) : Resting Side := ⟨o.side, o.quantity, o.price⟩

/-- The market a manager holds. -/
def view (m : OrderBookManager) : Market ℤ ℤ Side := fun s k ↦ (m.order? s k).map resting

/-- What a manager must be for its operations to be the market's. -/
structure Healthy (m : OrderBookManager) : Prop where
  books : m.Books
  indexed : m.Indexed
  /-- An index entry names a symbol that has a book. -/
  backed : ∀ k s, m.orderIdToSymbol.get? k = some s → ∃ book, m.books.get? s = some book
  positive : ∀ s k o, m.order? s k = some o → 0 < o.quantity

theorem healthy_init : init.Healthy where
  books := books_init
  indexed := by rintro k s ⟨o, ho⟩; cases ho
  backed k s h := by cases h
  positive s k o h := by cases h

/-- The market has an order where the manager has one. -/
theorem view_eq_some_iff {m : OrderBookManager} {s k : ℤ} {r : Resting Side} :
    m.view s k = some r ↔ ∃ o, m.order? s k = some o ∧ resting o = r :=
  Option.map_eq_some_iff

theorem view_eq_none_iff {m : OrderBookManager} {s k : ℤ} :
    m.view s k = none ↔ m.order? s k = none :=
  Option.map_eq_none_iff

/-- Every id rests in one book at most. -/
theorem Healthy.unique {m : OrderBookManager} (h : m.Healthy) {k s s' : ℤ} (hs : m.Rests k s)
    (hs' : m.Rests k s') : s = s' := by
  have heq := h.indexed k s hs
  rw [h.indexed k s' hs', Option.some.injEq] at heq
  exact heq.symm

/-- No quantity in any book is negative. -/
theorem Healthy.quantity_nonneg {m : OrderBookManager} (h : m.Healthy) {s : ℤ} {book : OrderBook}
    (hb : m.books.get? s = some book) (k : ℤ) : ∀ o ∈ (book.orders.erase k).values,
    0 ≤ o.quantity := by
  intro o ho
  obtain ⟨k', hk'⟩ := Dict.mem_values_iff.1 ho
  rw [Dict.get?_erase] at hk'
  split at hk'
  · cases hk'
  · exact (h.positive s k' o (by rw [order?_of_book hb, hk'])).le

/-- A healthy manager with one order of one book replaced or removed. -/
theorem Healthy.setBook {m : OrderBookManager} (h : m.Healthy) {s k : ℤ} {book book' : OrderBook}
    (hb : m.books.get? s = some book) (hcons : book'.Consistent)
    (hothers : ∀ k', k' ≠ k → book'.orders.get? k' = book.orders.get? k')
    (hindex : ∀ o, book'.orders.get? k = some o → m.orderIdToSymbol.get? k = some s)
    (hpos : ∀ o, book'.orders.get? k = some o → 0 < o.quantity) :
    (m.setBook s book').Healthy where
  books := h.books.setBook s hcons
  indexed := by
    rintro k' s' ⟨o, ho⟩
    rw [order?_setBook] at ho
    split at ho
    · rename_i hs
      subst hs
      by_cases hk : k' = k
      · subst hk
        exact hindex o ho
      · rw [hothers k' hk] at ho
        exact h.indexed k' s' ⟨o, by rw [order?_of_book hb, ho]⟩
    · exact h.indexed k' s' ⟨o, ho⟩
  backed k' s' hk' := by
    rw [get?_books_setBook]
    split
    · exact ⟨_, rfl⟩
    · exact h.backed k' s' hk'
  positive s' k' o ho := by
    rw [order?_setBook] at ho
    split at ho
    · by_cases hk : k' = k
      · subst hk
        exact hpos o ho
      · rw [hothers k' hk, ← order?_of_book hb] at ho
        exact h.positive s k' o ho
    · exact h.positive s' k' o ho

/-- The view after one order of one book has been replaced or removed. -/
theorem view_setBook {m : OrderBookManager} {s k : ℤ} {book book' : OrderBook}
    (hb : m.books.get? s = some book)
    (hothers : ∀ k', k' ≠ k → book'.orders.get? k' = book.orders.get? k') (s' k' : ℤ) :
    (m.setBook s book').view s' k' =
      if (s', k') = (s, k) then (book'.orders.get? k).map resting else m.view s' k' := by
  unfold view
  rw [order?_setBook]
  by_cases hs : s' = s
  · subst hs
    by_cases hk : k' = k
    · subst hk
      simp
    · rw [if_pos rfl, if_neg (by simp [hk]), hothers k' hk, order?_of_book hb]
  · rw [if_neg hs, if_neg (by simp [hs])]

/-- **One order of the known book changed**: the market sees its id updated. -/
theorem Healthy.updateBook {m : OrderBookManager} (h : m.Healthy) {s k : ℤ} {book book' : OrderBook}
    (hid : m.orderIdToSymbol.get? k = some s) (hb : m.books.get? s = some book)
    (hcons : book'.Consistent)
    (hothers : ∀ k', k' ≠ k → book'.orders.get? k' = book.orders.get? k')
    (hpos : ∀ o, book'.orders.get? k = some o → 0 < o.quantity)
    {f : Option (Resting Side) → Option (Resting Side)} (hf : f none = none)
    (hself : (book'.orders.get? k).map resting = f (m.view s k)) :
    (m.setBook s book').Healthy ∧ (m.setBook s book').view = m.view.update k f := by
  refine ⟨h.setBook hb hcons hothers (fun _ _ ↦ hid) hpos, ?_⟩
  funext s' k'
  rw [view_setBook hb hothers, hself]
  by_cases hk : k' = k
  · subst hk
    rw [Market.update_self]
    by_cases hs : s' = s
    · rw [hs, if_pos rfl]
    -- the id rests in no other book
    · have hnone : m.view s' k' = none := by
        rcases ho : m.view s' k' with - | r
        · rfl
        · obtain ⟨o, ho, -⟩ := view_eq_some_iff.1 ho
          rw [h.indexed k' s' ⟨o, ho⟩, Option.some.injEq] at hid
          exact absurd hid hs
      rw [if_neg (by simp [hs]), hnone, hf]
  · rw [if_neg (by simp [hk]), Market.update_of_ne _ hk]

/-- An id that the index does not know rests nowhere. -/
theorem Healthy.view_of_unknown {m : OrderBookManager} (h : m.Healthy) {k : ℤ}
    (hid : m.orderIdToSymbol.get? k = none) (s : ℤ) : m.view s k = none := by
  rcases ho : m.view s k with - | r
  · rfl
  · obtain ⟨o, ho, -⟩ := view_eq_some_iff.1 ho
    rw [h.indexed k s ⟨o, ho⟩] at hid
    cases hid

/-! ### New orders -/

/-- **A new order under an id that rests nowhere.** -/
theorem refines_newOrder {m : OrderBookManager} (h : m.Healthy)
    (seqNum timestamp orderId symbol : ℤ) (side : Side) (qty price flags : ℤ)
    (hacc : m.view.Accepts (.new symbol orderId ⟨side, qty, price⟩)) :
    ∃ m', processNewOrder seqNum timestamp orderId symbol side qty price flags m = .ok () m' ∧
      m'.Healthy ∧ m'.view = m.view.apply (.new symbol orderId ⟨side, qty, price⟩) := by
  obtain ⟨hnone, hqty⟩ := hacc
  have hnone' : ∀ s, m.order? s orderId = none := fun s ↦ view_eq_none_iff.1 (hnone s)
  obtain ⟨book, m₂, hget, hbook, hb₂, horder, hindex, hbooks⟩ :=
    getOrCreateBook_spec (h.books.setIndex (m.orderIdToSymbol.insert orderId symbol)) symbol
  rw [order?_setIndex] at horder
  rw [index_setIndex] at hindex
  -- the manager is healthy once the symbol has a book, the order still missing from it
  have h₂ : m₂.Healthy := by
    refine ⟨hb₂, ?_, fun k s hk ↦ ?_, fun s k o ho ↦ h.positive s k o (by rwa [horder] at ho)⟩
    · rintro k s ⟨o, ho⟩
      rw [horder] at ho
      have hne : k ≠ orderId := by
        rintro rfl
        rw [hnone'] at ho
        cases ho
      rw [hindex, Dict.get?_insert_of_ne _ _ hne]
      exact h.indexed k s ⟨o, ho⟩
    · rw [hindex, Dict.get?_insert] at hk
      by_cases hs : s = symbol
      · exact ⟨book, hs ▸ hbook⟩
      · rw [hbooks s hs]
        split at hk
        · cases hk
          exact absurd rfl hs
        · exact h.backed k s hk
  have habsent : book.orders.get? orderId = none := by
    rw [← order?_of_book hbook, horder, hnone']
  rcases OrderBook.addOrder_spec (hb₂ symbol book hbook) orderId symbol side qty price timestamp
    with
    ⟨hdup, -⟩ | ⟨-, hle, -⟩ | ⟨-, -, book', hadd, hl⟩
  -- neither refusal meets an action the market accepts
  · simp [Dict.contains, habsent] at hdup
  · exact absurd hqty (not_lt.2 hle)
  set o : Order := ⟨orderId, symbol, side, qty, price, timestamp⟩ with ho
  have hothers : ∀ k, k ≠ orderId → book'.orders.get? k = book.orders.get? k := fun k hk ↦ by
    rw [hl.orders_eq, Dict.get?_insert_of_ne _ _ hk]
  have hself : book'.orders.get? orderId = some o := by
    rw [hl.orders_eq, Dict.get?_insert_self]
  refine ⟨m₂.setBook symbol book', ?_, ?_, ?_⟩
  · unfold processNewOrder
    rw [Method.bind_ok (Method.modify_apply _ m), Method.bind_ok hget, onBook_of_book hbook]
    exact Method.focus_ok hadd (setBook symbol) m₂
  · refine h₂.setBook hbook hl.consistent hothers (fun _ _ ↦ ?_) fun o' ho' ↦ ?_
    · rw [hindex, Dict.get?_insert_self]
    · rw [hself, Option.some.injEq] at ho'
      rw [← ho']
      exact hqty
  · funext s k
    rw [view_setBook hbook hothers, hself]
    have hview : m₂.view = m.view := by
      unfold view
      rw [horder]
    rw [hview]
    rfl

/-! ### Deletes -/

/-- An entry whose id rests nowhere may go. -/
theorem Healthy.eraseIndex {m : OrderBookManager} (h : m.Healthy) {k : ℤ}
    (hnone : ∀ s, m.order? s k = none) :
    (m.setIndex (m.orderIdToSymbol.erase k)).Healthy where
  books := h.books.setIndex _
  indexed := h.indexed.erase fun s hs ↦ by
    obtain ⟨o, ho⟩ := hs
    rw [hnone] at ho
    cases ho
  backed k' s hk' := by
    rw [index_setIndex, Dict.get?_erase] at hk'
    split at hk'
    · cases hk'
    · exact h.backed k' s hk'
  positive := h.positive

/-- **A delete**, of an order that rests or of one that does not. -/
theorem refines_deleteOrder {m : OrderBookManager} (h : m.Healthy) (seqNum orderId : ℤ) :
    ∃ m', processDeleteOrder seqNum orderId m = .ok () m' ∧ m'.Healthy ∧
      m'.view = m.view.apply (.delete orderId) := by
  rcases hid : m.orderIdToSymbol.get? orderId with - | symbol
  · refine ⟨_, processDeleteOrder_of_unknown seqNum hid,
      ⟨h.books, h.indexed, h.backed, h.positive⟩, ?_⟩
    funext s k
    show m.view s k = m.view.update orderId (fun _ ↦ none) s k
    by_cases hk : k = orderId
    · rw [hk, Market.update_self, h.view_of_unknown hid]
    · rw [Market.update_of_ne _ hk]
  obtain ⟨book, hb⟩ := h.backed orderId symbol hid
  have hl := OrderBook.deleteOrder_after (h.books symbol book hb) orderId
  obtain ⟨book', hdelete⟩ : ∃ book', OrderBook.deleteOrder orderId book = .ok () book' := by
    rcases ho : book.orders.get? orderId with - | o
    · exact ⟨book, OrderBook.deleteOrder_of_not_mem ho⟩
    · obtain ⟨book', -, hdelete⟩ := OrderBook.deleteOrder_spec (h.books symbol book hb) ho
      have hnonneg := OrderBook.totalAt_nonneg (h.quantity_nonneg hb orderId) o.side o.price
      exact ⟨book', hdelete.trans (if_neg (not_lt.2 hnonneg))⟩
  rw [Method.after_ok hdelete] at hl
  have hself : book'.orders.get? orderId = none := by
    rw [hl.orders_eq, Dict.get?_erase_self]
  obtain ⟨h₁, hview⟩ := h.updateBook (f := fun _ ↦ none) hid hb hl.consistent
    (fun k hk ↦ by rw [hl.orders_eq, Dict.get?_erase_of_ne _ hk])
    (fun o ho ↦ by rw [hself] at ho; cases ho) rfl (by rw [hself]; rfl)
  refine ⟨(m.setBook symbol book').setIndex
      ((m.setBook symbol book').orderIdToSymbol.erase orderId),
    ?_, h₁.eraseIndex fun s ↦ ?_, hview⟩
  · rw [processDeleteOrder_of_known seqNum hid,
      Method.bind_ok ((onBook_of_book hb _).trans (Method.focus_ok hdelete (setBook symbol) m))]
    rfl
  · rw [← view_eq_none_iff, hview, Market.update_self]

/-! ### Modifies -/

/-- An order that rests is known to the index, and its book has it. -/
theorem Healthy.of_view {m : OrderBookManager} (h : m.Healthy) {s k : ℤ} {r : Resting Side}
    (hr : m.view s k = some r) :
    ∃ book o, m.orderIdToSymbol.get? k = some s ∧ m.books.get? s = some book ∧
      book.orders.get? k = some o ∧ resting o = r := by
  obtain ⟨o, ho, hres⟩ := view_eq_some_iff.1 hr
  rcases hb : m.books.get? s with - | book
  · rw [order?_of_no_book hb] at ho
    cases ho
  · exact ⟨book, o, h.indexed k s ⟨o, ho⟩, rfl, by rwa [order?_of_book hb] at ho, hres⟩

/-- **A modify** of an order that rests, to a positive quantity. -/
theorem refines_modifyOrder {m : OrderBookManager} (h : m.Healthy) (seqNum orderId : ℤ)
    (side : Side) (qty price : ℤ) (hacc : m.view.Accepts (.modify orderId ⟨side, qty, price⟩)) :
    ∃ m', processModifyOrder seqNum orderId side qty price m = .ok () m' ∧ m'.Healthy ∧
      m'.view = m.view.apply (.modify orderId ⟨side, qty, price⟩) := by
  obtain ⟨⟨symbol, r, hr⟩, hqty⟩ := hacc
  obtain ⟨book, o, hid, hb, ho, -⟩ := h.of_view hr
  obtain ⟨-, -, hgood⟩ := OrderBook.modifyOrder_spec (h.books symbol book hb) ho side qty price
  obtain ⟨book', hl, hmodify⟩ :=
    hgood (OrderBook.totalAt_nonneg (h.quantity_nonneg hb orderId) o.side o.price) hqty
  have hself : book'.orders.get? orderId =
      some ⟨orderId, o.symbol, side, qty, price, o.timestamp⟩ := by
    rw [hl.orders_eq, Dict.get?_insert_self]
  obtain ⟨h₁, hview⟩ := h.updateBook (f := Option.map fun _ ↦ ⟨side, qty, price⟩) hid hb
    hl.consistent (fun k hk ↦ by
      rw [hl.orders_eq, Dict.get?_insert_of_ne _ _ hk, Dict.get?_erase_of_ne _ hk])
    (fun o' ho' ↦ by
      rw [hself, Option.some.injEq] at ho'
      rw [← ho']
      exact hqty)
    rfl (by rw [hself, hr]; rfl)
  refine ⟨m.setBook symbol book', ?_, h₁, hview⟩
  rw [processModifyOrder_of_known seqNum qty price side hid, onBook_of_book hb]
  exact Method.focus_ok hmodify (setBook symbol) m

/-! ### Trades -/

/-- **A trade** of no more than an order has left. -/
theorem refines_trade {m : OrderBookManager} (h : m.Healthy) (seqNum orderId qty price : ℤ)
    (hacc : m.view.Accepts (.trade orderId qty)) :
    ∃ m', processTrade seqNum orderId qty price m = .ok () m' ∧ m'.Healthy ∧
      m'.view = m.view.apply (.trade orderId qty) := by
  obtain ⟨symbol, r, hr, hle⟩ := hacc
  obtain ⟨book, o, hid, hb, ho, rfl⟩ := h.of_view hr
  have hle' : qty ≤ o.quantity := hle
  obtain ⟨-, hgood⟩ := OrderBook.tradeOrder_spec (h.books symbol book hb) ho qty price
  -- nothing at the price is negative after the trade
  have hnonneg : 0 ≤ OrderBook.totalAt (book.orders.insert orderId (OrderBook.traded o qty)).values
      o.side o.price := by
    refine OrderBook.totalAt_nonneg (fun o' ho' ↦ ?_) o.side o.price
    obtain ⟨k, hk⟩ := Dict.mem_values_iff.1 ho'
    rw [Dict.get?_insert] at hk
    split at hk
    · cases hk
      show 0 ≤ o.quantity - qty
      omega
    · exact (h.positive symbol k o' (by rw [order?_of_book hb, hk])).le
  obtain ⟨book', hl, htrade⟩ := hgood hnonneg
  have hself : (book'.orders.get? orderId).map resting = Market.fill qty (resting o) := by
    rw [hl.orders_eq, OrderBook.settle, Market.fill]
    by_cases hzero : (OrderBook.traded o qty).quantity = 0
    · rw [if_pos hzero, Dict.get?_erase_self]
      exact (if_pos hzero).symm
    · rw [if_neg hzero, Dict.get?_insert_self]
      exact (if_neg hzero).symm
  obtain ⟨h₁, hview⟩ := h.updateBook (f := fun o ↦ o.bind (Market.fill qty)) hid hb hl.consistent
    (fun k hk ↦ by
      rw [hl.orders_eq, OrderBook.settle]
      split
      · rw [Dict.get?_erase_of_ne _ hk]
      · rw [Dict.get?_insert_of_ne _ _ hk])
    (fun o' ho' ↦ by
      rw [ho', Market.fill] at hself
      split at hself
      · cases hself
      · rename_i hne
        rw [Option.map_some, Option.some.injEq] at hself
        have hq : o'.quantity = o.quantity - qty := congrArg Resting.quantity hself
        have hne' : o.quantity - qty ≠ 0 := hne
        omega)
    rfl (by rw [hself, hr]; rfl)
  refine ⟨m.setBook symbol book', ?_, h₁, hview⟩
  rw [processTrade_of_known seqNum qty price hid, onBook_of_book hb]
  exact Method.focus_ok htrade (setBook symbol) m

/-! ### What returning says

Conversely, an operation that returns on a fair exchange's message was accepted by the market. -/

/-- A new order that is taken is for a positive quantity. -/
theorem quantity_pos_of_newOrder {m m' : OrderBookManager} (h : m.Healthy)
    {seqNum timestamp orderId symbol : ℤ} {side : Side} {qty price flags : ℤ}
    (hrun : processNewOrder seqNum timestamp orderId symbol side qty price flags m = .ok () m') :
    0 < qty := by
  unfold processNewOrder at hrun
  rw [Method.bind_ok (Method.modify_apply _ m)] at hrun
  obtain ⟨book, m₁, hget, hbook, hb, -⟩ :=
    getOrCreateBook_spec (h.books.setIndex (m.orderIdToSymbol.insert orderId symbol)) symbol
  rw [Method.bind_ok hget] at hrun
  obtain ⟨book₁, book', hbook₁, hadd⟩ := onBook_eq_ok hrun
  exact (OrderBook.addOrder_ok (hb symbol book₁ hbook₁) hadd).2.1

/-- **A modify that returns** was one that the market accepts. -/
theorem accepts_of_modifyOrder {m m' : OrderBookManager} (h : m.Healthy) {seqNum orderId : ℤ}
    {side : Side} {qty price : ℤ}
    (hrun : processModifyOrder seqNum orderId side qty price m = .ok () m') :
    m.view.Accepts (.modify orderId ⟨side, qty, price⟩) := by
  rcases hid : m.orderIdToSymbol.get? orderId with - | symbol
  · rw [processModifyOrder_of_unknown seqNum qty price side hid] at hrun
    cases hrun
  rw [processModifyOrder_of_known seqNum qty price side hid] at hrun
  obtain ⟨book, book', hb, hmodify⟩ := onBook_eq_ok hrun
  obtain ⟨o, ho, hqty, -⟩ := OrderBook.modifyOrder_ok (h.books symbol book hb) hmodify
  exact ⟨⟨symbol, resting o, view_eq_some_iff.2 ⟨o, by rw [order?_of_book hb, ho], rfl⟩⟩, hqty⟩

/-- A trade that returns was on an order that rests. -/
theorem rests_of_trade {m m' : OrderBookManager} {seqNum orderId qty price : ℤ}
    (hrun : processTrade seqNum orderId qty price m = .ok () m') :
    ∃ s r, m.view s orderId = some r := by
  rcases hid : m.orderIdToSymbol.get? orderId with - | symbol
  · rw [processTrade_of_unknown seqNum qty price hid] at hrun
    cases hrun
  rw [processTrade_of_known seqNum qty price hid] at hrun
  obtain ⟨book, book', hb, htrade⟩ := onBook_eq_ok hrun
  rcases ho : book.orders.get? orderId with - | o
  · rw [OrderBook.tradeOrder_of_not_mem qty price ho] at htrade
    cases htrade
  · exact ⟨symbol, resting o, view_eq_some_iff.2 ⟨o, by rw [order?_of_book hb, ho], rfl⟩⟩

/-! ### Best prices

The best prices a manager quotes are functions of its view. -/

/-- The best price of a side as a client of the manager reads it; `(0, 0)` without a book. -/
def readBest (side : Side) (symbol : ℤ) : Method FeedError OrderBookManager (ℤ × ℤ) := fun m ↦
  match m.books.get? symbol with
  | none => .ok (0, 0) m
  | some _ => onBook symbol (OrderBook.getBest side) m

/-- A best price that is read is the best of the orders that rest. -/
theorem readBest_spec {m : OrderBookManager} (h : m.Books) (side : Side) (symbol : ℤ) :
    ∃ r m', readBest side symbol m = .ok r m' ∧
      OrderBook.Best (m.ordersOf symbol).values side r := by
  unfold readBest ordersOf
  rcases hb : m.books.get? symbol with - | book
  · exact ⟨(0, 0), m, rfl, Or.inl ⟨rfl, fun o ho ↦ absurd ho List.not_mem_nil⟩⟩
  · obtain ⟨r, book', hget, hbest, -⟩ := OrderBook.getBest_spec (h symbol book hb) side
    exact ⟨r, m.setBook symbol book',
      (onBook_of_book hb _).trans (Method.focus_ok hget (setBook symbol) m), hbest⟩

/-- The total at a price, from what the market knows of the orders. -/
theorem totalAt_eq_resting (os : List Order) (side : Side) (price : ℤ) :
    OrderBook.totalAt os side price = (((os.map resting).filter fun r ↦
      r.side = side ∧ r.price = price).map Resting.quantity).sum := by
  rw [OrderBook.totalAt, Tally.total, Tally.group, List.filter_map, List.map_map]
  have hfilter : os.filter (fun o ↦ OrderBook.levelKey o = (side, price)) =
      os.filter ((fun r : Resting Side ↦ decide (r.side = side ∧ r.price = price)) ∘ resting) := by
    refine List.filter_congr fun o _ ↦ ?_
    exact decide_eq_decide.2 Prod.mk_inj
  rw [hfilter]
  rfl

/-- A best price depends on what the market knows of the orders. -/
theorem best_of_resting_perm {os os' : List Order} {side : Side} {r : ℤ × ℤ}
    (hperm : (os.map resting).Perm (os'.map resting)) (h : OrderBook.Best os side r) :
    OrderBook.Best os' side r := by
  -- an order on one list has one like it on the other
  have hlike : ∀ o' ∈ os', ∃ o ∈ os, o.side = o'.side ∧ o.price = o'.price := by
    intro o' ho'
    obtain ⟨o, ho, heq⟩ := List.mem_map.1 (hperm.mem_iff.2 (List.mem_map.2 ⟨o', ho', rfl⟩))
    exact ⟨o, ho, congrArg Resting.side heq, congrArg Resting.price heq⟩
  rcases h with ⟨hr, hnone⟩ | ⟨⟨o, ho, hside, hprice⟩, htotal, hbest⟩
  · refine Or.inl ⟨hr, fun o' ho' ↦ ?_⟩
    obtain ⟨o, ho, hside, -⟩ := hlike o' ho'
    rw [← hside]
    exact hnone o ho
  · obtain ⟨o', ho', heq⟩ := List.mem_map.1 (hperm.mem_iff.1 (List.mem_map.2 ⟨o, ho, rfl⟩))
    refine Or.inr ⟨⟨o', ho', ?_, ?_⟩, ?_, fun o'' ho'' hs ↦ ?_⟩
    · exact (congrArg Resting.side heq).trans hside
    · exact (congrArg Resting.price heq).trans hprice
    · rw [htotal, totalAt_eq_resting, totalAt_eq_resting]
      exact ((hperm.filter _).map _).sum_eq
    · obtain ⟨o₁, ho₁, hside₁, hprice₁⟩ := hlike o'' ho''
      rw [← hprice₁]
      exact hbest o₁ ho₁ (hside₁.trans hs)

/-- **Two managers with one view quote the same best prices.** -/
theorem readBest_eq_of_view {m m' : OrderBookManager} (h : m.Books) (h' : m'.Books)
    (hview : m.view = m'.view) (side : Side) (symbol : ℤ) :
    ∃ r m₁ m₁', readBest side symbol m = .ok r m₁ ∧ readBest side symbol m' = .ok r m₁' := by
  obtain ⟨r, m₁, hread, hbest⟩ := readBest_spec h side symbol
  obtain ⟨r', m₁', hread', hbest'⟩ := readBest_spec h' side symbol
  have hperm : ((m.ordersOf symbol).values.map resting).Perm
      ((m'.ordersOf symbol).values.map resting) := by
    refine Dict.values_map_perm fun k ↦ ?_
    rw [get?_ordersOf, get?_ordersOf]
    exact congrFun (congrFun hview symbol) k
  obtain rfl := hbest'.unique (best_of_resting_perm hperm hbest)
  exact ⟨r', m₁, m₁', hread, hread'⟩

end HftTrading.OrderBookManager
