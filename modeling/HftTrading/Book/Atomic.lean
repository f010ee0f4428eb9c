import HftTrading.Book.IdIndex

/-!
# Calls that raise, and what they have changed by then

The checks of the book operations stand before, between and after their writes, and the manager
writes the index before its book has checked anything. So a call that raises may leave something
behind, and what it leaves is known: a refused new order has an index entry, a delete or a modify
that raises has taken its order out, a trade that raises has been booked.

`Unchanged` compares two managers as their dictionaries compare, key by key. A raising call leaves
the manager unchanged exactly in the cases `Call.Harmless` names (`Operated.unchanged_iff`).

## In which states

The statement is about every manager that a program comes to, and a program may raise and go on. So
it starts from all states that any calls lead to, raised or not (`Operated`). What is needed of
these is that the books are consistent and that every index entry names a symbol with a book
(`Backed`).

The two directions are proved call by call. That a harmless call leaves nothing behind is read off
its text; that any other call does is shown by an order, a level or an index entry that is there on
one side only. The heaps are left out of the comparison, since nothing that can be read depends on
them.
-/

namespace HftTrading

open MarketData

namespace OrderBook

/-- What a book holds: its orders, its levels and its traded volume. -/
def contents (b : OrderBook) : (ℤ → Option Order) × (Side → ℤ → Option PriceLevel) × ℤ :=
  (b.orders.get?, fun side ↦ (b.levels side).get?, b.totalVolume)

/-- A consistent book holds the same as another when its orders and its volume are the same; the
levels follow. -/
theorem Leaves.contents_eq_iff {b b' : OrderBook} (h : b.Consistent) {orders : Dict ℤ Order}
    {volume : ℤ} (hl : Leaves b orders volume b') :
    b'.contents = b.contents ↔ orders.get? = b.orders.get? ∧ volume = b.totalVolume := by
  constructor
  · intro heq
    obtain ⟨horders, hrest⟩ := Prod.mk.inj heq
    rw [← hl.orders_eq, ← hl.volume_eq]
    exact ⟨horders, (Prod.mk.inj hrest).2⟩
  · rintro ⟨horders, hvolume⟩
    have hperm : b'.orders.values.Perm b.orders.values := by
      refine (Dict.entries_perm_of_get?_eq fun k ↦ ?_).map _
      rw [hl.orders_eq, horders]
    have hlevels : (fun side ↦ (b'.levels side).get?) = fun side ↦ (b.levels side).get? := by
      funext side price
      rw [hl.consistent.levels_eq, h.levels_eq, tallyAt, tallyAt, Tally.tally_perm hperm]
    rw [contents, contents, hl.orders_eq, hl.volume_eq, horders, hvolume, hlevels]

/-- A refused order leaves the book alone. -/
theorem contents_of_addOrder {b b' : OrderBook} (h : b.Consistent) {orderId symbol : ℤ}
    {side : Side} {qty price timestamp : ℤ} {e : FeedError}
    (hrun : addOrder orderId symbol side qty price timestamp b = .error e b') : b' = b := by
  rcases addOrder_spec h orderId symbol side qty price timestamp with
    ⟨-, hadd⟩ | ⟨-, -, hadd⟩ | ⟨-, -, _, hadd, -⟩ <;> cases hadd.symm.trans hrun
  · rfl
  · rfl

theorem get?_erase_ne {d : Dict ℤ Order} {k : ℤ} {o : Order} (ho : d.get? k = some o) :
    (d.erase k).get? ≠ d.get? := by
  intro heq
  have hk := congrFun heq k
  rw [Dict.get?_erase_self, ho] at hk
  cases hk

/-- A delete that raises has taken its order out. -/
theorem contents_of_deleteOrder {b b' : OrderBook} (h : b.Consistent) {orderId : ℤ} {e : FeedError}
    (hrun : deleteOrder orderId b = .error e b') : b'.contents ≠ b.contents := by
  rcases ho : b.orders.get? orderId with - | o
  · cases (deleteOrder_of_not_mem ho).symm.trans hrun
  have hl := deleteOrder_after h orderId
  rw [Method.after_error hrun] at hl
  rw [ne_eq, hl.contents_eq_iff h]
  exact fun heq ↦ get?_erase_ne ho heq.1

/-- A modify that raises has taken its order out, unless there was none. -/
theorem contents_of_modifyOrder {b b' : OrderBook} (h : b.Consistent) {orderId : ℤ} {side : Side}
    {qty price : ℤ} {e : FeedError} (hrun : modifyOrder orderId side qty price b = .error e b') :
    b'.contents = b.contents ↔ b.orders.get? orderId = none := by
  rcases ho : b.orders.get? orderId with - | o
  · cases (modifyOrder_of_not_mem side qty price ho).symm.trans hrun
    exact iff_of_true rfl rfl
  have hl : Leaves b (b.orders.erase orderId) b.totalVolume b' := by
    obtain ⟨hneg, hbad, hgood⟩ := modifyOrder_spec h ho side qty price
    rcases lt_or_ge (totalAt (b.orders.erase orderId).values o.side o.price) 0 with htotal | htotal
    · obtain ⟨b'', hl, hmodify⟩ := hneg htotal
      cases hmodify.symm.trans hrun
      exact hl
    rcases le_or_gt qty 0 with hqty | hqty
    · obtain ⟨b'', hl, hmodify⟩ := hbad htotal hqty
      cases hmodify.symm.trans hrun
      exact hl
    · obtain ⟨b'', -, hmodify⟩ := hgood htotal hqty
      cases hmodify.symm.trans hrun
  rw [hl.contents_eq_iff h]
  exact iff_of_false (fun heq ↦ get?_erase_ne ho heq.1) nofun

/-- A trade that raises has been booked, unless there was no order or nothing to book. -/
theorem contents_of_tradeOrder {b b' : OrderBook} (h : b.Consistent) {orderId qty price : ℤ}
    {e : FeedError} (hrun : tradeOrder orderId qty price b = .error e b') :
    b'.contents = b.contents ↔ b.orders.get? orderId = none ∨ qty = 0 := by
  rcases ho : b.orders.get? orderId with - | o
  · cases (tradeOrder_of_not_mem qty price ho).symm.trans hrun
    exact iff_of_true rfl (Or.inl rfl)
  have hl : Leaves b (b.orders.insert orderId (traded o qty)) (b.totalVolume + qty) b' := by
    obtain ⟨hneg, hnonneg⟩ := tradeOrder_spec h ho qty price
    rcases lt_or_ge (totalAt (b.orders.insert orderId (traded o qty)).values o.side o.price) 0
      with htotal | htotal
    · obtain ⟨b'', hl, htrade⟩ := hneg htotal
      cases htrade.symm.trans hrun
      exact hl
    · obtain ⟨b'', -, htrade⟩ := hnonneg htotal
      cases htrade.symm.trans hrun
  rw [hl.contents_eq_iff h]
  constructor
  · rintro ⟨-, hvolume⟩
    exact Or.inr (by omega)
  · rintro (hnone | rfl)
    · cases hnone
    · have hsame : traded o 0 = o := by simp [traded]
      refine ⟨funext fun k ↦ ?_, add_zero _⟩
      rw [hsame, Dict.get?_insert]
      split
      · rename_i hk
        rw [hk, ho]
      · rfl

end OrderBook

namespace OrderBookManager

/-- The managers a program reaches: by the manager's own calls, whether they return or raise, by
calls on one of its books (as the synchronizer and the strategy make them), and by the clearing of
all books and of the index. -/
inductive Operated : OrderBookManager → Prop
  | init : Operated init
  | call {m : OrderBookManager} (h : Operated m) (call : Call) : Operated (call.method.after m)
  | getOrCreateBook {m : OrderBookManager} (h : Operated m) (symbol : ℤ) :
    Operated ((getOrCreateBook symbol).after m)
  | onBook {m : OrderBookManager} (h : Operated m) (symbol : ℤ) (op : OrderBook.Op) :
    Operated ((onBook symbol op.call).after m)
  | clear {m : OrderBookManager} (h : Operated m) :
    Operated { m with books := m.books.mapValues OrderBook.clear, orderIdToSymbol := .empty }

/-- An index entry names a symbol that has a book. -/
def Backed (m : OrderBookManager) : Prop :=
  ∀ k s, m.orderIdToSymbol.get? k = some s → m.books.contains s = true

/-- The books, the levels, the volumes and the index are as they were, key by key. -/
structure Unchanged (m m' : OrderBookManager) : Prop where
  index : m'.orderIdToSymbol.get? = m.orderIdToSymbol.get?
  books : ∀ s, (m'.books.get? s).map OrderBook.contents = (m.books.get? s).map OrderBook.contents

/-- The calls that, should they raise, leave nothing behind: a new order whose id the index already
gives to its symbol, a modify or a trade of an id that is unknown or does not rest in its book, and
a trade of nothing. -/
def Call.Harmless (m : OrderBookManager) : Call → Prop
  | .newOrder _ _ orderId symbol _ _ _ _ => m.orderIdToSymbol.get? orderId = some symbol
  | .deleteOrder _ _ => False
  | .modifyOrder _ orderId _ _ _ =>
    ∀ s, m.orderIdToSymbol.get? orderId = some s → m.order? s orderId = none
  | .trade _ orderId qty _ =>
    qty = 0 ∨ ∀ s, m.orderIdToSymbol.get? orderId = some s → m.order? s orderId = none

/-! ### Every index entry is backed by a book -/

theorem Backed.mono {m m' : OrderBookManager} (h : m.Backed)
    (hindex : m'.orderIdToSymbol = m.orderIdToSymbol)
    (hbooks : ∀ s, m.books.contains s = true → m'.books.contains s = true) : m'.Backed := by
  intro k s hk
  rw [hindex] at hk
  exact hbooks s (h k s hk)

theorem Backed.onBook {α : Type} {m : OrderBookManager} (h : m.Backed) (symbol : ℤ)
    (call : Method FeedError OrderBook α) : ((onBook symbol call).after m).Backed := by
  rcases hb : m.books.get? symbol with - | book
  · rwa [Method.after_error (onBook_of_no_book hb call)]
  · rw [after_onBook hb]
    exact h.mono rfl fun s hs ↦ (contains_setBook m symbol s _).2 (Or.inr hs)

theorem getOrCreateBook_after (m : OrderBookManager) (symbol : ℤ) :
    ((getOrCreateBook symbol).after m).orderIdToSymbol = m.orderIdToSymbol ∧
      ∀ s, ((getOrCreateBook symbol).after m).books.contains s = true ↔
        s = symbol ∨ m.books.contains s = true := by
  rcases hb : m.books.get? symbol with - | book
  · have hrun : getOrCreateBook symbol m =
        .ok (.init symbol) (m.setBook symbol (.init symbol)) := by
      unfold getOrCreateBook
      rw [hb]
    rw [Method.after_ok hrun]
    exact ⟨rfl, fun s ↦ contains_setBook m symbol s _⟩
  · have hrun : getOrCreateBook symbol m = .ok book m := by
      unfold getOrCreateBook
      rw [hb]
    rw [Method.after_ok hrun]
    refine ⟨rfl, fun s ↦ ⟨Or.inr, ?_⟩⟩
    rintro (rfl | hs)
    · simp [hb]
    · exact hs

/-- The entry a new order writes is backed by the book it then gets. -/
theorem Backed.processNewOrder {m : OrderBookManager} (h : m.Backed)
    (seqNum timestamp orderId symbol : ℤ) (side : Side) (qty price flags : ℤ) :
    ((processNewOrder seqNum timestamp orderId symbol side qty price flags).after m).Backed := by
  obtain ⟨hindex, hbooks⟩ := getOrCreateBook_after
    (m.setIndex (m.orderIdToSymbol.insert orderId symbol)) symbol
  have hbacked : ((getOrCreateBook symbol).after
      (m.setIndex (m.orderIdToSymbol.insert orderId symbol))).Backed := by
    intro k s hk
    rw [hindex, index_setIndex, Dict.get?_insert] at hk
    rw [hbooks]
    split at hk
    · cases hk
      exact Or.inl rfl
    · exact Or.inr (h k s hk)
  rw [Method.after, processNewOrder_eq]
  exact hbacked.onBook symbol _

theorem Backed.call {m : OrderBookManager} (h : m.Backed) (call : Call) :
    (call.method.after m).Backed := by
  cases call with
  | newOrder seqNum timestamp orderId symbol side qty price flags =>
    exact h.processNewOrder seqNum timestamp orderId symbol side qty price flags
  | deleteOrder seqNum orderId =>
    rw [Call.method]
    rcases hid : m.orderIdToSymbol.get? orderId with - | symbol
    · rw [Method.after_ok (processDeleteOrder_of_unknown seqNum hid)]
      exact h
    · rw [Method.after, processDeleteOrder_of_known seqNum hid]
      have hkeeps : Method.Keeps Backed
          (OrderBookManager.onBook symbol (OrderBook.deleteOrder orderId)) :=
        fun m h ↦ h.onBook symbol _
      refine hkeeps.bind (fun _ ↦ Method.keeps_modify fun m h k s hk ↦ ?_) m h
      rw [index_setIndex, Dict.get?_erase] at hk
      split at hk
      · cases hk
      · exact h k s hk
  | modifyOrder seqNum orderId side qty price =>
    rw [Call.method]
    rcases hid : m.orderIdToSymbol.get? orderId with - | symbol
    · rwa [Method.after_error (processModifyOrder_of_unknown seqNum qty price side hid)]
    · rw [Method.after, processModifyOrder_of_known seqNum qty price side hid]
      exact h.onBook symbol _
  | trade seqNum orderId qty price =>
    rw [Call.method]
    rcases hid : m.orderIdToSymbol.get? orderId with - | symbol
    · rwa [Method.after_error (processTrade_of_unknown seqNum qty price hid)]
    · rw [Method.after, processTrade_of_known seqNum qty price hid]
      exact h.onBook symbol _

/-- Whatever is done to a manager, its books stay consistent and its index backed. -/
theorem Operated.invariant {m : OrderBookManager} (h : m.Operated) : m.Books ∧ m.Backed := by
  induction h with
  | init => exact ⟨books_init, fun k s hk ↦ by cases hk⟩
  | call _ call ih => exact ⟨call.keeps_books _ ih.1, ih.2.call call⟩
  | @getOrCreateBook m _ symbol ih =>
    obtain ⟨book, m', hget, -, hb, -⟩ := getOrCreateBook_spec ih.1 symbol
    obtain ⟨hindex, hbooks⟩ := getOrCreateBook_after m symbol
    refine ⟨by rwa [Method.after_ok hget], ih.2.mono hindex fun s hs ↦ (hbooks s).2 (Or.inr hs)⟩
  | onBook _ symbol op ih =>
    exact ⟨keeps_onBook symbol op.keeps_consistent _ ih.1, ih.2.onBook symbol op.call⟩
  | clear _ ih =>
    refine ⟨fun s book hb ↦ ?_, fun k s hk ↦ by cases hk⟩
    rw [Dict.get?_mapValues, Option.map_eq_some_iff] at hb
    obtain ⟨book', -, rfl⟩ := hb
    exact OrderBook.consistent_clear book'

/-! ### What a raising call leaves -/

theorem Unchanged.refl (m : OrderBookManager) : Unchanged m m := ⟨rfl, fun _ ↦ rfl⟩

/-- Of a call on one book, only that book shows. -/
theorem unchanged_setBook {m : OrderBookManager} {symbol : ℤ} {book : OrderBook}
    (hb : m.books.get? symbol = some book) (book' : OrderBook) :
    Unchanged m (m.setBook symbol book') ↔ book'.contents = book.contents := by
  constructor
  · intro h
    have hs := h.books symbol
    rw [get?_books_setBook, if_pos rfl, hb] at hs
    exact Option.some.inj hs
  · refine fun heq ↦ ⟨rfl, fun s ↦ ?_⟩
    rw [get?_books_setBook]
    split
    · rename_i hs
      rw [hs, hb, Option.map_some, Option.map_some, heq]
    · rfl

/-- A call on a book that has raised. -/
theorem onBook_error {m m' : OrderBookManager} {symbol : ℤ} {book : OrderBook}
    (hb : m.books.get? symbol = some book) {call : Method FeedError OrderBook Unit} {e : FeedError}
    (hrun : onBook symbol call m = .error e m') :
    ∃ book', call book = .error e book' ∧ m' = m.setBook symbol book' := by
  rw [onBook_of_book hb] at hrun
  unfold Method.focus at hrun
  rcases hcall : call book with ⟨a, book'⟩ | ⟨e', book'⟩ <;> rw [hcall] at hrun <;> cases hrun
  exact ⟨book', rfl, rfl⟩

/-- The book of a known id. -/
theorem Operated.book_of_known {m : OrderBookManager} (h : m.Operated) {orderId symbol : ℤ}
    (hid : m.orderIdToSymbol.get? orderId = some symbol) :
    ∃ book, m.books.get? symbol = some book ∧ book.Consistent := by
  obtain ⟨hbooks, hbacked⟩ := h.invariant
  obtain ⟨book, hb⟩ := Dict.contains_eq_true_iff.1 (hbacked orderId symbol hid)
  exact ⟨book, hb, hbooks symbol book hb⟩

/-- With a known id, what is asked of every symbol of it is asked of the one. -/
theorem forall_known_iff {m : OrderBookManager} {orderId symbol : ℤ} {book : OrderBook}
    (hid : m.orderIdToSymbol.get? orderId = some symbol) (hb : m.books.get? symbol = some book) :
    (∀ s, m.orderIdToSymbol.get? orderId = some s → m.order? s orderId = none) ↔
      book.orders.get? orderId = none := by
  rw [← order?_of_book hb]
  refine ⟨fun h ↦ h symbol hid, fun h s hs ↦ ?_⟩
  obtain rfl : symbol = s := Option.some.inj (hid.symm.trans hs)
  exact h

/-- A refused new order has left the book alone, but not the index. -/
theorem Operated.unchanged_newOrder_iff {m m' : OrderBookManager} (h : m.Operated)
    (orderId symbol : ℤ) {side : Side} {qty price timestamp : ℤ} {e : FeedError}
    (hrun : OrderBookManager.onBook symbol
      (OrderBook.addOrder orderId symbol side qty price timestamp)
      ((OrderBookManager.getOrCreateBook symbol).after
        (m.setIndex (m.orderIdToSymbol.insert orderId symbol))) = .error e m') :
    Unchanged m m' ↔ m.orderIdToSymbol.get? orderId = some symbol := by
  set m₁ := m.setIndex (m.orderIdToSymbol.insert orderId symbol) with hm₁
  obtain ⟨book, m₂, hget, hb, hbooks, -, hindex, -⟩ :=
    getOrCreateBook_spec (h.invariant.1.setIndex (m.orderIdToSymbol.insert orderId symbol)) symbol
  rw [Method.after_ok hget] at hrun
  obtain ⟨book', hadd, rfl⟩ := onBook_error hb hrun
  obtain rfl := OrderBook.contents_of_addOrder (hbooks symbol book hb) hadd
  constructor
  -- the index has been written before the book refuses
  · intro hsame
    have hk := congrFun hsame.index orderId
    rw [index_setBook, hindex, index_setIndex, Dict.get?_insert_self] at hk
    exact hk.symm
  · intro hid
    obtain ⟨old, hold, -⟩ := h.book_of_known hid
    -- the book was there, so nothing has been created
    have hm₂ : OrderBookManager.getOrCreateBook symbol m₁ = .ok old m₁ := by
      unfold OrderBookManager.getOrCreateBook
      rw [show m₁.books.get? symbol = some old from hold]
    obtain ⟨rfl, rfl⟩ : book' = old ∧ m₂ = m₁ := by
      cases hget.symm.trans hm₂
      exact ⟨rfl, rfl⟩
    refine ⟨funext fun k ↦ ?_, fun s ↦ ?_⟩
    · rw [index_setBook, hm₁, index_setIndex, Dict.get?_insert]
      split
      · rename_i hk
        rw [hk, hid]
      · rfl
    · exact ((unchanged_setBook hold book').2 rfl).books s

/-- **A call that raises leaves the manager unchanged exactly when it is harmless.** For every
manager a program reaches and every call. -/
theorem Operated.unchanged_iff {m : OrderBookManager} (h : m.Operated) (call : Call) (e : FeedError)
    (m' : OrderBookManager) (hrun : call.method m = .error e m') :
    Unchanged m m' ↔ call.Harmless m := by
  cases call with
  | newOrder seqNum timestamp orderId symbol side qty price flags =>
    rw [Call.method, processNewOrder_eq] at hrun
    exact h.unchanged_newOrder_iff orderId symbol hrun
  | deleteOrder seqNum orderId =>
    rw [Call.method] at hrun
    rcases hid : m.orderIdToSymbol.get? orderId with - | symbol
    · cases (processDeleteOrder_of_unknown seqNum hid).symm.trans hrun
    obtain ⟨book, hb, hcons⟩ := h.book_of_known hid
    rw [processDeleteOrder_of_known seqNum hid, Method.bind_apply] at hrun
    rcases hcall : OrderBookManager.onBook symbol (OrderBook.deleteOrder orderId) m with
      ⟨a, m₁⟩ | ⟨e', m₁⟩ <;>
      rw [hcall] at hrun <;> cases hrun
    obtain ⟨book', hdelete, rfl⟩ := onBook_error hb hcall
    rw [unchanged_setBook hb]
    -- the id was known, so what raised is a check behind the removal
    exact iff_of_false (OrderBook.contents_of_deleteOrder hcons hdelete) not_false
  | modifyOrder seqNum orderId side qty price =>
    rw [Call.method] at hrun
    rcases hid : m.orderIdToSymbol.get? orderId with - | symbol
    · cases (processModifyOrder_of_unknown seqNum qty price side hid).symm.trans hrun
      exact iff_of_true (.refl m) fun s hs ↦ by rw [hid] at hs; cases hs
    obtain ⟨book, hb, hcons⟩ := h.book_of_known hid
    rw [processModifyOrder_of_known seqNum qty price side hid] at hrun
    obtain ⟨book', hmodify, rfl⟩ := onBook_error hb hrun
    rw [unchanged_setBook hb, Call.Harmless, forall_known_iff hid hb]
    exact OrderBook.contents_of_modifyOrder hcons hmodify
  | trade seqNum orderId qty price =>
    rw [Call.method] at hrun
    rcases hid : m.orderIdToSymbol.get? orderId with - | symbol
    · cases (processTrade_of_unknown seqNum qty price hid).symm.trans hrun
      exact iff_of_true (.refl m) (Or.inr fun s hs ↦ by rw [hid] at hs; cases hs)
    obtain ⟨book, hb, hcons⟩ := h.book_of_known hid
    rw [processTrade_of_known seqNum qty price hid] at hrun
    obtain ⟨book', htrade, rfl⟩ := onBook_error hb hrun
    rw [unchanged_setBook hb, Call.Harmless, forall_known_iff hid hb, or_comm]
    exact OrderBook.contents_of_tradeOrder hcons htrade

/-- A modify to nothing is refused, and the order is gone. -/
theorem refused_modify_removes :
    ∃ m e m', Operated m ∧ (Call.modifyOrder 2 1 .buy 0 100).method m = .error e m' ∧
      m.Rests 1 1 ∧ ¬ m'.Rests 1 1 :=
  ⟨_, _, _, .call .init (.newOrder 1 0 1 1 .buy 5 100 0), rfl, ⟨_, rfl⟩, nofun⟩

/-- The same call, seen by its condition: the id is known and rests. -/
theorem refused_modify_not_unchanged :
    ∃ m e m', Operated m ∧ (Call.modifyOrder 2 1 .buy 0 100).method m = .error e m' ∧
      ¬ Unchanged m m' := by
  have hop : Operated _ := .call .init (.newOrder 1 0 1 1 .buy 5 100 0)
  have hiff := hop.unchanged_iff (.modifyOrder 2 1 .buy 0 100) _ _ rfl
  exact ⟨_, _, _, hop, rfl, fun hsame ↦ nomatch hiff.1 hsame 1 rfl⟩

end OrderBookManager

end HftTrading
