import HftTrading.Book.Best

/-!
# The order book manager

`OrderBookManager`: one book a symbol, and an index from order ids to symbols, because the feed's
delete, modify and trade messages carry an order id only.

## How the operations are read

What rests where is read through `order?`, a function of symbol and id; `Books` carries the
consistency of every book along. Each `process_*` has a lemma saying what it leaves behind in these
terms, on every exit. Those that look the id up first come in two, one for an id that the index
knows and one for an id that it does not: a delete of an unknown id is counted and passed over,
while a trade or a modify of one is raised.

The book that an operation then works on is looked up bare. `onBook` is that lookup followed by the
call in place, and raises with the symbol as the key where there is no book. Only
`process_new_order` opens one.

## What an operation can reach

`Confined` says it once for all of them: the books of the other symbols, the index, and in the book
called every order but the one named are as they were. Most of what later modules need of an
operation on an id is that it is confined, and not what it does.
-/

namespace HftTrading

open MarketData

/-- `OrderBookManager`. -/
structure OrderBookManager where
  books : Dict ℤ OrderBook
  orderIdToSymbol : Dict ℤ ℤ
  unknownDeleteCount : ℕ
  deriving DecidableEq

namespace OrderBookManager

/-- `OrderBookManager.__init__`. -/
def init : OrderBookManager where
  books := .empty
  orderIdToSymbol := .empty
  unknownDeleteCount := 0

/-- Write back the book of a symbol. -/
def setBook (symbol : ℤ) (book : OrderBook) (m : OrderBookManager) : OrderBookManager :=
  { m with books := m.books.insert symbol book }

/-- Write back the index. -/
def setIndex (index : Dict ℤ ℤ) (m : OrderBookManager) : OrderBookManager :=
  { m with orderIdToSymbol := index }

/-- `get_or_create_book`. -/
def getOrCreateBook (symbol : ℤ) : Method FeedError OrderBookManager OrderBook := fun m ↦
  match m.books.get? symbol with
  | some book => .ok book m
  | none => .ok (.init symbol) (m.setBook symbol (.init symbol))

/-- A call on `books[symbol]`. -/
def onBook {α : Type} (symbol : ℤ) (call : Method FeedError OrderBook α) :
    Method FeedError OrderBookManager α := fun m ↦
  match m.books.get? symbol with
  | none => .error (.missingKey symbol) m
  | some book => call.focus book (setBook symbol) m

/-- `process_new_order`. The index is written before the book has accepted the order. -/
def processNewOrder (_seqNum timestamp orderId symbol : ℤ) (side : Side) (qty price _flags : ℤ) :
    Method FeedError OrderBookManager Unit := do
  modify fun m ↦ m.setIndex (m.orderIdToSymbol.insert orderId symbol)
  let _ ← getOrCreateBook symbol
  onBook symbol (OrderBook.addOrder orderId symbol side qty price timestamp)

/-- `process_delete_order`. -/
def processDeleteOrder (_seqNum orderId : ℤ) : Method FeedError OrderBookManager Unit := fun m ↦
  match m.orderIdToSymbol.get? orderId with
  | none => .ok () { m with unknownDeleteCount := m.unknownDeleteCount + 1 }
  | some symbol =>
    (do
      onBook symbol (OrderBook.deleteOrder orderId)
      modify fun m ↦ m.setIndex (m.orderIdToSymbol.erase orderId) :
      Method FeedError OrderBookManager Unit) m

/-- `process_trade`. -/
def processTrade (_seqNum orderId qty price : ℤ) : Method FeedError OrderBookManager Unit :=
  fun m ↦
    match m.orderIdToSymbol.get? orderId with
    | none => .error (.unknownOrderId orderId) m
    | some symbol => onBook symbol (OrderBook.tradeOrder orderId qty price) m

/-- `process_modify_order`. -/
def processModifyOrder (_seqNum orderId : ℤ) (side : Side) (qty price : ℤ) :
    Method FeedError OrderBookManager Unit := fun m ↦
  match m.orderIdToSymbol.get? orderId with
  | none => .error (.unknownOrderId orderId) m
  | some symbol => onBook symbol (OrderBook.modifyOrder orderId side qty price) m

/-- `process_trade_summary` only logs. -/
def processTradeSummary (_seqNum _symbol : ℤ) (_aggressor : Side) (_totalQty _lastPrice : ℤ) :
    Method FeedError OrderBookManager Unit := pure ()

section Lookup

variable {m : OrderBookManager} {orderId symbol : ℤ} (seqNum qty price : ℤ) (side : Side)

/-- A delete of an id that the index does not know is counted, and that is all. -/
theorem processDeleteOrder_of_unknown (h : m.orderIdToSymbol.get? orderId = none) :
    processDeleteOrder seqNum orderId m =
      .ok () { m with unknownDeleteCount := m.unknownDeleteCount + 1 } := by
  unfold processDeleteOrder
  rw [h]

/-- The index entry goes after the book has let the order go, so not if the book raises. -/
theorem processDeleteOrder_of_known (h : m.orderIdToSymbol.get? orderId = some symbol) :
    processDeleteOrder seqNum orderId m =
      (onBook symbol (OrderBook.deleteOrder orderId) >>= fun _ ↦
        modify fun m ↦ m.setIndex (m.orderIdToSymbol.erase orderId)) m := by
  unfold processDeleteOrder
  rw [h]

/-- A trade of an id that the index does not know is raised, and nothing is written. -/
theorem processTrade_of_unknown (h : m.orderIdToSymbol.get? orderId = none) :
    processTrade seqNum orderId qty price m = .error (.unknownOrderId orderId) m := by
  unfold processTrade
  rw [h]

/-- A trade of a known id is a trade in the book of its symbol. The index is left as it is. -/
theorem processTrade_of_known (h : m.orderIdToSymbol.get? orderId = some symbol) :
    processTrade seqNum orderId qty price m =
      onBook symbol (OrderBook.tradeOrder orderId qty price) m := by
  unfold processTrade
  rw [h]

theorem processModifyOrder_of_unknown (h : m.orderIdToSymbol.get? orderId = none) :
    processModifyOrder seqNum orderId side qty price m = .error (.unknownOrderId orderId) m := by
  unfold processModifyOrder
  rw [h]

/-- A modify of a known id is a modify in the book of its symbol. -/
theorem processModifyOrder_of_known (h : m.orderIdToSymbol.get? orderId = some symbol) :
    processModifyOrder seqNum orderId side qty price m =
      onBook symbol (OrderBook.modifyOrder orderId side qty price) m := by
  unfold processModifyOrder
  rw [h]

end Lookup

/-! ### What rests where -/

/-- The order resting under an id in the book of a symbol. -/
def order? (m : OrderBookManager) (symbol orderId : ℤ) : Option Order :=
  (m.books.get? symbol).bind fun book ↦ book.orders.get? orderId

theorem order?_of_book {m : OrderBookManager} {symbol : ℤ} {book : OrderBook}
    (h : m.books.get? symbol = some book) (orderId : ℤ) :
    m.order? symbol orderId = book.orders.get? orderId := by
  rw [order?, h, Option.bind_some]

theorem order?_of_no_book {m : OrderBookManager} {symbol : ℤ} (h : m.books.get? symbol = none)
    (orderId : ℤ) : m.order? symbol orderId = none := by
  rw [order?, h, Option.bind_none]

/-- The orders resting in the book of a symbol. -/
def ordersOf (m : OrderBookManager) (symbol : ℤ) : Dict ℤ Order :=
  match m.books.get? symbol with
  | none => .empty
  | some book => book.orders

/-- The orders of a symbol, looked up one by one. -/
theorem get?_ordersOf (m : OrderBookManager) (symbol k : ℤ) :
    (m.ordersOf symbol).get? k = m.order? symbol k := by
  unfold ordersOf order?
  rcases m.books.get? symbol with - | book <;> rfl

@[simp] theorem order?_setIndex (m : OrderBookManager) (index : Dict ℤ ℤ) :
    (m.setIndex index).order? = m.order? := rfl

@[simp] theorem index_setIndex (m : OrderBookManager) (index : Dict ℤ ℤ) :
    (m.setIndex index).orderIdToSymbol = index := rfl

@[simp] theorem index_setBook (m : OrderBookManager) (symbol : ℤ) (book : OrderBook) :
    (m.setBook symbol book).orderIdToSymbol = m.orderIdToSymbol := rfl

theorem get?_books_setBook (m : OrderBookManager) (symbol s : ℤ) (book : OrderBook) :
    (m.setBook symbol book).books.get? s = if s = symbol then some book else m.books.get? s :=
  m.books.get?_insert symbol s book

theorem contains_setBook (m : OrderBookManager) (symbol s : ℤ) (book : OrderBook) :
    (m.setBook symbol book).books.contains s = true ↔ s = symbol ∨ m.books.contains s = true := by
  rw [Dict.contains, get?_books_setBook, Dict.contains]
  split
  · rename_i hs
    simp [hs]
  · rename_i hs
    simp [hs]

/-- A book that is written back decides what rests under its symbol. -/
theorem order?_setBook (m : OrderBookManager) (symbol s : ℤ) (book : OrderBook) (k : ℤ) :
    (m.setBook symbol book).order? s k =
      if s = symbol then book.orders.get? k else m.order? s k := by
  rw [order?, get?_books_setBook]
  split
  · rfl
  · rfl

/-- Every book is consistent. -/
def Books (m : OrderBookManager) : Prop :=
  ∀ symbol book, m.books.get? symbol = some book → book.Consistent

theorem books_init : init.Books := by
  intro symbol book h
  cases h

/-- A consistent book may be written back. -/
theorem Books.setBook {m : OrderBookManager} (h : m.Books) (symbol : ℤ) {book : OrderBook}
    (hbook : book.Consistent) : (m.setBook symbol book).Books := by
  intro s b hb
  rw [get?_books_setBook] at hb
  split at hb
  · cases hb
    exact hbook
  · exact h s b hb

theorem Books.setIndex {m : OrderBookManager} (h : m.Books) (index : Dict ℤ ℤ) :
    (m.setIndex index).Books := h

/-! ### The books an operation reaches -/

/-- **Opening a book** never raises. The book is there afterwards, and nothing rests that did not.
-/
theorem getOrCreateBook_spec {m : OrderBookManager} (h : m.Books) (symbol : ℤ) :
    ∃ book m', getOrCreateBook symbol m = .ok book m' ∧ m'.books.get? symbol = some book ∧
      m'.Books ∧ m'.order? = m.order? ∧ m'.orderIdToSymbol = m.orderIdToSymbol ∧
      ∀ s, s ≠ symbol → m'.books.get? s = m.books.get? s := by
  unfold getOrCreateBook
  rcases hb : m.books.get? symbol with - | book
  · refine ⟨_, _, rfl, ?_, h.setBook symbol (OrderBook.consistent_init symbol), ?_, rfl,
      fun s hs ↦ ?_⟩
    · rw [get?_books_setBook, if_pos rfl]
    · funext s k
      rw [order?_setBook]
      split
      · rename_i hs
        rw [hs, order?_of_no_book hb]
        rfl
      · rfl
    · rw [get?_books_setBook, if_neg hs]
  · exact ⟨_, _, rfl, hb, h, rfl, rfl, fun _ _ ↦ rfl⟩

/-- A call on a book that is there. -/
theorem onBook_of_book {α : Type} {m : OrderBookManager} {symbol : ℤ} {book : OrderBook}
    (hb : m.books.get? symbol = some book) (call : Method FeedError OrderBook α) :
    onBook symbol call m = call.focus book (setBook symbol) m := by
  unfold onBook
  rw [hb]

/-- A call on a book that is not there raises, and leaves the manager alone. -/
theorem onBook_of_no_book {α : Type} {m : OrderBookManager} {symbol : ℤ}
    (hb : m.books.get? symbol = none) (call : Method FeedError OrderBook α) :
    onBook symbol call m = .error (.missingKey symbol) m := by
  unfold onBook
  rw [hb]

/-- What a call on a book leaves is written back, whether it returns or raises. -/
theorem after_onBook {α : Type} {m : OrderBookManager} {symbol : ℤ} {book : OrderBook}
    (hb : m.books.get? symbol = some book) (call : Method FeedError OrderBook α) :
    (onBook symbol call).after m = m.setBook symbol (call.after book) := by
  rw [Method.after, onBook_of_book hb]
  exact Method.after_focus call book (setBook symbol) m

/-- A call on one book that returns was a call on a book that exists, and returned there. -/
theorem onBook_eq_ok {α : Type} {m m' : OrderBookManager} {s : ℤ}
    {call : Method FeedError OrderBook α} {a : α} (hrun : onBook s call m = .ok a m') :
    ∃ book book', m.books.get? s = some book ∧ call book = .ok a book' := by
  rcases hb : m.books.get? s with - | book
  · rw [onBook_of_no_book hb] at hrun
    cases hrun
  · rw [onBook_of_book hb] at hrun
    rcases hcall : call book with ⟨b, book'⟩ | ⟨e, book'⟩
    · rw [Method.focus_ok hcall] at hrun
      cases hrun
      exact ⟨book, book', rfl, hcall⟩
    · rw [Method.focus_error hcall] at hrun
      cases hrun

/-- What every book keeps, the manager keeps. -/
theorem keeps_onBook {α : Type} (symbol : ℤ) {call : Method FeedError OrderBook α}
    (hcall : Method.Keeps OrderBook.Consistent call) : Method.Keeps Books (onBook symbol call) := by
  intro m h
  rcases hb : m.books.get? symbol with - | book
  · rwa [Method.after_error (onBook_of_no_book hb call)]
  · rw [after_onBook hb]
    exact h.setBook symbol (hcall book (h symbol book hb))

/-- What a call on one book leaves of the manager: the books of the other symbols, the index, and in
the book called only the order it names has changed. -/
structure Confined (symbol orderId : ℤ) (m m' : OrderBookManager) : Prop where
  books : m'.Books
  index : m'.orderIdToSymbol = m.orderIdToSymbol
  others : ∀ s k, (s, k) ≠ (symbol, orderId) → m'.order? s k = m.order? s k
  absent : m.order? symbol orderId = none → m'.order? symbol orderId = none

/-- **A call on one book** reaches no further than the call does in that book. -/
theorem confined_onBook {m : OrderBookManager} (h : m.Books) (symbol orderId : ℤ)
    {call : Method FeedError OrderBook Unit}
    (hcall : ∀ b : OrderBook, b.Consistent → ∃ orders volume,
      OrderBook.Leaves b orders volume (call.after b) ∧
        OrderBook.Confined orderId b.orders orders) :
    Confined symbol orderId m ((onBook symbol call).after m) := by
  rcases hb : m.books.get? symbol with - | book
  · rw [Method.after_error (onBook_of_no_book hb call)]
    exact ⟨h, rfl, fun _ _ _ ↦ rfl, fun hnone ↦ hnone⟩
  obtain ⟨orders, volume, hl, hconf⟩ := hcall book (h symbol book hb)
  rw [after_onBook hb]
  refine ⟨h.setBook symbol hl.consistent, rfl, fun s k hsk ↦ ?_, fun hnone ↦ ?_⟩
  · rw [order?_setBook, hl.orders_eq]
    split
    · rename_i hs
      subst hs
      rw [order?_of_book hb, hconf.others k fun hk ↦ hsk (by rw [hk])]
    · rfl
  · rw [order?_of_book hb] at hnone
    rw [order?_setBook, if_pos rfl, hl.orders_eq, hconf.absent hnone]

/-- The book `get_or_create_book` returns, by its orders. -/
theorem getOrCreateBook_book (m : OrderBookManager) (symbol : ℤ) :
    ∃ book, ((getOrCreateBook symbol).after m).books.get? symbol = some book ∧
      ∀ k, book.orders.get? k = m.order? symbol k := by
  rcases hb : m.books.get? symbol with - | book
  · have hrun : getOrCreateBook symbol m =
        .ok (.init symbol) (m.setBook symbol (.init symbol)) := by
      unfold getOrCreateBook
      rw [hb]
    refine ⟨.init symbol, ?_, fun k ↦ (order?_of_no_book hb k).symm⟩
    rw [Method.after_ok hrun, get?_books_setBook, if_pos rfl]
  · have hrun : getOrCreateBook symbol m = .ok book m := by
      unfold getOrCreateBook
      rw [hb]
    refine ⟨book, ?_, fun k ↦ (order?_of_book hb k).symm⟩
    rw [Method.after_ok hrun, hb]

/-- The state `process_new_order` calls the book from, and what it comes to. -/
theorem processNewOrder_eq (m : OrderBookManager) (seqNum timestamp orderId symbol : ℤ)
    (side : Side) (qty price flags : ℤ) :
    processNewOrder seqNum timestamp orderId symbol side qty price flags m =
      onBook symbol (OrderBook.addOrder orderId symbol side qty price timestamp)
        ((getOrCreateBook symbol).after
          (m.setIndex (m.orderIdToSymbol.insert orderId symbol))) := by
  obtain ⟨book, m', hget⟩ : ∃ book m', getOrCreateBook symbol
      (m.setIndex (m.orderIdToSymbol.insert orderId symbol)) = .ok book m' := by
    unfold getOrCreateBook
    rcases (m.setIndex (m.orderIdToSymbol.insert orderId symbol)).books.get? symbol with - | book
    · exact ⟨_, _, rfl⟩
    · exact ⟨_, _, rfl⟩
  unfold processNewOrder
  rw [Method.bind_ok (Method.modify_apply _ m), Method.bind_ok hget, Method.after_ok hget]

/-! ### Every operation keeps the books consistent -/

theorem keeps_processNewOrder (seqNum timestamp orderId symbol : ℤ) (side : Side)
    (qty price flags : ℤ) : Method.Keeps Books
      (processNewOrder seqNum timestamp orderId symbol side qty price flags) := by
  refine (Method.keeps_modify fun m h ↦ h.setIndex _).bind fun _ ↦
    Method.Keeps.bind (fun m h ↦ ?_) fun _ ↦ keeps_onBook symbol
      (OrderBook.Op.keeps_consistent (.addOrder orderId symbol side qty price timestamp))
  obtain ⟨book, m', hget, -, hb, -⟩ := getOrCreateBook_spec h symbol
  rwa [Method.after_ok hget]

theorem keeps_processDeleteOrder (seqNum orderId : ℤ) :
    Method.Keeps Books (processDeleteOrder seqNum orderId) := by
  intro m h
  rcases hid : m.orderIdToSymbol.get? orderId with - | symbol
  · rw [Method.after_ok (processDeleteOrder_of_unknown seqNum hid)]
    exact h
  · rw [Method.after, processDeleteOrder_of_known seqNum hid]
    exact (keeps_onBook symbol (OrderBook.Op.keeps_consistent (.deleteOrder orderId))).bind
      (fun _ ↦ Method.keeps_modify fun m h ↦ h.setIndex _) m h

theorem keeps_processTrade (seqNum orderId qty price : ℤ) :
    Method.Keeps Books (processTrade seqNum orderId qty price) := by
  intro m h
  rcases hid : m.orderIdToSymbol.get? orderId with - | symbol
  · rwa [Method.after_error (processTrade_of_unknown seqNum qty price hid)]
  · rw [Method.after, processTrade_of_known seqNum qty price hid]
    exact keeps_onBook symbol (OrderBook.Op.keeps_consistent (.tradeOrder orderId qty price)) m h

theorem keeps_processModifyOrder (seqNum orderId : ℤ) (side : Side) (qty price : ℤ) :
    Method.Keeps Books (processModifyOrder seqNum orderId side qty price) := by
  intro m h
  rcases hid : m.orderIdToSymbol.get? orderId with - | symbol
  · rwa [Method.after_error (processModifyOrder_of_unknown seqNum qty price side hid)]
  · rw [Method.after, processModifyOrder_of_known seqNum qty price side hid]
    exact keeps_onBook symbol (OrderBook.Op.keeps_consistent (.modifyOrder orderId side qty price))
      m h

end OrderBookManager

end HftTrading
