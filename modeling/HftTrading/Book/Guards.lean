import HftTrading.Book.Manager

/-!
# When a call returns

On any state at all, with consistent books or not: the checks an operation makes, gathered into one
predicate on the state before it. A call returns exactly when its predicate holds.

Of `delete_order` and `trade_order` these are the checks behind the lookups (`Releases`, `Fills`);
`modify_order` asks for what its two halves ask for.

## Why on any state

On a consistent book most of the checks cannot fail, and a characterisation that assumes consistency
says less about the code than it seems to: it does not tell which of the checks are there. Here the
predicates are the checks. They are also what is left of them when an invariant is not available,
as for a manager that a caller has been handed in an unknown state.

The manager's predicates (`TakesNewOrder` and its kin) put the index in front. A delete of an
unknown id is taken, a trade or a modify of one is not, and a known id whose book is missing is
refused by all three.
-/

namespace HftTrading

open MarketData

namespace OrderBook

/-- The level of an order exists and can do without it. -/
def Releases (b : OrderBook) (o : Order) : Prop :=
  ∃ level, (b.levels o.side).get? o.price = some level ∧ o.quantity ≤ level.totalQty ∧
    1 ≤ level.orderCount ∧ (level.orderCount = 1 → level.totalQty = o.quantity)

/-- The level of an order exists and has a quantity to trade; if this is what the order has left, it
can do without the order. -/
def Fills (b : OrderBook) (o : Order) (qty : ℤ) : Prop :=
  ∃ level, (b.levels o.side).get? o.price = some level ∧ qty ≤ level.totalQty ∧
    (o.quantity = qty → 1 ≤ level.orderCount ∧ (level.orderCount = 1 → level.totalQty = qty))

/-- **`add_order`** wants a free id and a positive quantity. -/
theorem addOrder_raises_iff (b : OrderBook) (orderId symbol : ℤ) (side : Side)
    (qty price timestamp : ℤ) :
    (addOrder orderId symbol side qty price timestamp).Raises b ↔
      ¬ (b.orders.get? orderId = none ∧ 0 < qty) := by
  unfold Method.Raises addOrder
  rcases ho : b.orders.get? orderId with - | o
  · have hdup : ¬ b.orders.contains orderId = true := by simp [ho]
    rw [if_neg hdup]
    split_ifs with hqty
    · simp [hqty]
    · simp only [levels_setOrders]
      rcases (b.levels side).get? price with - | level <;> simp [hqty]
  · have hdup : b.orders.contains orderId = true := by simp [ho]
    rw [if_pos hdup]
    simp

/-- **`delete_order`** takes an id under which nothing rests, and else wants a level that can do
without the order. -/
theorem deleteOrder_raises_iff (b : OrderBook) (orderId : ℤ) :
    (deleteOrder orderId).Raises b ↔
      ¬ ∀ o, b.orders.get? orderId = some o → b.Releases o := by
  unfold Method.Raises deleteOrder
  rcases ho : b.orders.get? orderId with - | o
  · simp
  rcases hlevel : (b.levels o.side).get? o.price with - | level
  · simp [hlevel, Releases]
  · simp only [levels_setOrders, hlevel, Releases, Option.some.injEq, forall_eq', exists_eq_left']
    split_ifs with hqty hcount hlast htotal <;> simp
    all_goals omega

/-- Whatever book it is called on, a delete that returns has taken its order out. -/
theorem orders_of_deleteOrder {b b' : OrderBook} {orderId : ℤ}
    (hrun : deleteOrder orderId b = .ok () b') : b'.orders = b.orders.erase orderId := by
  unfold deleteOrder at hrun
  rcases ho : b.orders.get? orderId with - | o <;> simp only [ho] at hrun
  · cases hrun
    exact (Dict.erase_eq_self ho).symm
  · split at hrun
    · cases hrun
    · split_ifs at hrun <;> cases hrun <;> simp only [orders_setLevels, orders_setOrders]

/-- **`trade_order`** wants an order that rests on a level with the quantity. -/
theorem tradeOrder_raises_iff (b : OrderBook) (orderId qty price : ℤ) :
    (tradeOrder orderId qty price).Raises b ↔
      ¬ ∃ o, b.orders.get? orderId = some o ∧ b.Fills o qty := by
  unfold Method.Raises tradeOrder
  rcases ho : b.orders.get? orderId with - | o
  · simp
  rcases hlevel : (b.levels o.side).get? o.price with - | level
  · simp [hlevel, Fills]
  · simp only [hlevel, Fills, Option.some.injEq, exists_eq_left']
    split_ifs with hqty hfilled hcount hlast htotal <;> simp
    all_goals omega

/-- Both halves: the delete, and the add that finds the id free. -/
theorem modifyOrder_raises_iff (b : OrderBook) (orderId : ℤ) (side : Side) (qty price : ℤ) :
    (modifyOrder orderId side qty price).Raises b ↔
      ¬ ∃ o, b.orders.get? orderId = some o ∧ b.Releases o ∧ 0 < qty := by
  rcases ho : b.orders.get? orderId with - | o
  · exact iff_of_true ⟨_, _, modifyOrder_of_not_mem side qty price ho⟩ nofun
  have hrun : modifyOrder orderId side qty price b =
      (deleteOrder orderId >>= fun _ ↦
        addOrder orderId o.symbol side qty price o.timestamp) b := by
    unfold modifyOrder
    simp only [ho]
  have hdelete := deleteOrder_raises_iff b orderId
  simp only [ho, Option.some.injEq, forall_eq'] at hdelete
  simp only [Option.some.injEq, exists_eq_left']
  by_cases hraise : (deleteOrder orderId).Raises b
  · refine iff_of_true ?_ fun hboth ↦ hdelete.1 hraise hboth.1
    obtain ⟨e, b', herror⟩ := hraise
    exact ⟨e, b', hrun.trans (Method.bind_error herror)⟩
  · obtain ⟨_, b', hok⟩ := Method.not_raises_iff.1 hraise
    have hadd := addOrder_raises_iff b' orderId o.symbol side qty price o.timestamp
    rw [orders_of_deleteOrder hok, Dict.get?_erase_self] at hadd
    have hreleases : b.Releases o := not_not.1 fun hnot ↦ hraise (hdelete.2 hnot)
    have hsame : (modifyOrder orderId side qty price).Raises b ↔
        (addOrder orderId o.symbol side qty price o.timestamp).Raises b' := by
      unfold Method.Raises
      rw [hrun, Method.bind_ok hok]
    rw [hsame, hadd, and_iff_right rfl, and_iff_right hreleases]

end OrderBook

namespace OrderBookManager

/-- The manager has a book for the symbol the index gives to an id, and that book passes a test. -/
def KnownBook (m : OrderBookManager) (orderId : ℤ) (test : OrderBook → Prop) : Prop :=
  ∃ symbol book, m.orderIdToSymbol.get? orderId = some symbol ∧
    m.books.get? symbol = some book ∧ test book

/-- The manager takes a new order: its id is free in its own book. -/
def TakesNewOrder (m : OrderBookManager) (orderId symbol qty : ℤ) : Prop :=
  m.order? symbol orderId = none ∧ 0 < qty

/-- The manager takes a delete: the id is unknown, or its book lets the order go. -/
def TakesDelete (m : OrderBookManager) (orderId : ℤ) : Prop :=
  m.orderIdToSymbol.get? orderId = none ∨
    m.KnownBook orderId fun book ↦ ∀ o, book.orders.get? orderId = some o → book.Releases o

/-- The manager takes a modify: its book lets the order go, and the new quantity is positive. -/
def TakesModify (m : OrderBookManager) (orderId qty : ℤ) : Prop :=
  m.KnownBook orderId fun book ↦
    ∃ o, book.orders.get? orderId = some o ∧ book.Releases o ∧ 0 < qty

/-- The manager takes a trade: its book has the order, on a level with the quantity. -/
def TakesTrade (m : OrderBookManager) (orderId qty : ℤ) : Prop :=
  m.KnownBook orderId fun book ↦ ∃ o, book.orders.get? orderId = some o ∧ book.Fills o qty

/-- A call on one book raises if there is no such book, or if the book does. -/
theorem onBook_raises_iff (m : OrderBookManager) (symbol : ℤ)
    (call : Method FeedError OrderBook Unit) :
    (onBook symbol call).Raises m ↔
      ¬ ∃ book, m.books.get? symbol = some book ∧ ¬ call.Raises book := by
  rcases hb : m.books.get? symbol with - | book
  · exact iff_of_true ⟨_, _, onBook_of_no_book hb call⟩ nofun
  simp only [Option.some.injEq, exists_eq_left', not_not]
  constructor
  · rintro ⟨e, m', hrun⟩
    rw [onBook_of_book hb] at hrun
    by_contra hraise
    obtain ⟨_, book', hok⟩ := Method.not_raises_iff.1 hraise
    rw [Method.focus_ok hok] at hrun
    cases hrun
  · rintro ⟨e, book', herror⟩
    exact ⟨e, _, (onBook_of_book hb call).trans (Method.focus_error herror _ m)⟩

/-- A call on the book of a known id, its checks known. -/
theorem onBook_raises_iff_of_known {m : OrderBookManager} {orderId symbol : ℤ}
    (hid : m.orderIdToSymbol.get? orderId = some symbol) {call : Method FeedError OrderBook Unit}
    {test : OrderBook → Prop} (hcall : ∀ book, call.Raises book ↔ ¬ test book) :
    (onBook symbol call).Raises m ↔ ¬ m.KnownBook orderId test := by
  rw [onBook_raises_iff, KnownBook]
  simp only [hid, Option.some.injEq, exists_and_left, exists_eq_left', hcall, not_not]

/-- **A new order** is taken if its id is free in its own book. The ids of other books are not
looked at. -/
theorem processNewOrder_raises_iff (m : OrderBookManager) (seqNum timestamp orderId symbol : ℤ)
    (side : Side) (qty price flags : ℤ) :
    (processNewOrder seqNum timestamp orderId symbol side qty price flags).Raises m ↔
      ¬ m.TakesNewOrder orderId symbol qty := by
  obtain ⟨book, hb, horder⟩ :=
    getOrCreateBook_book (m.setIndex (m.orderIdToSymbol.insert orderId symbol)) symbol
  have hadd := book.addOrder_raises_iff orderId symbol side qty price timestamp
  have hsame : (processNewOrder seqNum timestamp orderId symbol side qty price flags).Raises m ↔
      (onBook symbol (OrderBook.addOrder orderId symbol side qty price timestamp)).Raises
        ((getOrCreateBook symbol).after
          (m.setIndex (m.orderIdToSymbol.insert orderId symbol))) := by
    unfold Method.Raises
    rw [processNewOrder_eq]
  rw [hsame, onBook_raises_iff, hb]
  simp only [Option.some.injEq, exists_eq_left', not_not, hadd, horder, order?_setIndex]
  rfl

/-- **A delete** is taken unless it is for a known id whose book is missing or does not let the
order go. -/
theorem processDeleteOrder_raises_iff (m : OrderBookManager) (seqNum orderId : ℤ) :
    (processDeleteOrder seqNum orderId).Raises m ↔ ¬ m.TakesDelete orderId := by
  rcases hid : m.orderIdToSymbol.get? orderId with - | symbol
  · exact iff_of_false (Method.not_raises_of_ok (processDeleteOrder_of_unknown seqNum hid))
      (not_not.2 (Or.inl hid))
  have hbook := onBook_raises_iff_of_known hid fun book ↦ book.deleteOrder_raises_iff orderId
  have hsame : (processDeleteOrder seqNum orderId).Raises m ↔
      (onBook symbol (OrderBook.deleteOrder orderId)).Raises m := by
    unfold Method.Raises
    rw [processDeleteOrder_of_known seqNum hid, Method.bind_apply]
    rcases onBook symbol (OrderBook.deleteOrder orderId) m with ⟨a, m'⟩ | ⟨e, m'⟩ <;> simp
  rw [hsame, hbook, TakesDelete, hid]
  simp

/-- **A modify** is taken if the id is known and its book takes the modification. -/
theorem processModifyOrder_raises_iff (m : OrderBookManager) (seqNum orderId : ℤ) (side : Side)
    (qty price : ℤ) :
    (processModifyOrder seqNum orderId side qty price).Raises m ↔
      ¬ m.TakesModify orderId qty := by
  rcases hid : m.orderIdToSymbol.get? orderId with - | symbol
  · refine iff_of_true ⟨_, _, processModifyOrder_of_unknown seqNum qty price side hid⟩ ?_
    rintro ⟨s, -, hs, -⟩
    cases hid.symm.trans hs
  · unfold Method.Raises
    rw [processModifyOrder_of_known seqNum qty price side hid]
    exact onBook_raises_iff_of_known hid fun book ↦
      book.modifyOrder_raises_iff orderId side qty price

/-- **A trade** is taken if the id is known and its book takes the trade. -/
theorem processTrade_raises_iff (m : OrderBookManager) (seqNum orderId qty price : ℤ) :
    (processTrade seqNum orderId qty price).Raises m ↔ ¬ m.TakesTrade orderId qty := by
  rcases hid : m.orderIdToSymbol.get? orderId with - | symbol
  · refine iff_of_true ⟨_, _, processTrade_of_unknown seqNum qty price hid⟩ ?_
    rintro ⟨s, -, hs, -⟩
    cases hid.symm.trans hs
  · unfold Method.Raises
    rw [processTrade_of_known seqNum qty price hid]
    exact onBook_raises_iff_of_known hid fun book ↦ book.tradeOrder_raises_iff orderId qty price

end OrderBookManager

end HftTrading
