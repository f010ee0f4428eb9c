import HftTrading.Book.Refines
import HftTrading.Lib.Agree

/-!
# Books that have been emptied

`clear` takes everything from a book but its traded volume, and no operation goes by that: two
books that differ in their volume alone return the same, raise the same, and stay such books
(`SameButVolume`). An emptied book of a symbol is a new one but for its volume (`BookOf.clear_eq`),
and the manager opens a new one wherever there is none.

## Emptied books in place of none

So a manager with emptied books in place of none (`Resembles`) **cannot be told from the other by
any message** (`agree_dispatchLiveMessage` and its kin), as long as no id is indexed under a symbol
without a book. That last clause is needed: an id that is indexed under a symbol makes the manager
look its book up bare, and then it matters whether there is one.

The relation has to be weakened for a moment where a new order comes in. Its index entry is written
before its book is opened, so between the two an id may be indexed under a symbol without a book in
the second manager. `alike_openBook` covers that moment.

## What they show

Managers that resemble each other have the same orders (`Resembles.order?_eq`) and quote the same
best prices (`Resembles.readBest_eq`). They can differ in which symbols have a book at all, and in
the volumes.
-/

namespace HftTrading

open MarketData Method

namespace OrderBook

/-- The books are the same but for the traded volume. -/
def SameButVolume (b b' : OrderBook) : Prop := ∃ volume, b = b'.setVolume volume

section

variable (b : OrderBook) (side : Side) (d : Dict ℤ Order) (v w : ℤ) (l : Dict ℤ PriceLevel)
  (h : MinHeap ℤ)

theorem setOrders_setVolume : (b.setVolume v).setOrders d = (b.setOrders d).setVolume v := rfl

theorem setVolume_setVolume : (b.setVolume v).setVolume w = b.setVolume w := rfl

/-- The levels and the volume are written independently of each other. -/
theorem setLevels_setVolume :
    (b.setVolume v).setLevels side l = (b.setLevels side l).setVolume v := by
  cases side <;> rfl

theorem setHeap_setVolume : (b.setVolume v).setHeap side h = (b.setHeap side h).setVolume v := by
  cases side <;> rfl

/-- Cleaning a heap does not look at the volume. -/
theorem clearTop_setVolume : (b.setVolume v).clearTop side = (b.clearTop side).setVolume v := by
  cases side <;> rfl

end

/-- **`add_order` does not go by the volume.** -/
theorem agree_addOrder (orderId symbol : ℤ) (side : Side) (qty price timestamp : ℤ) :
    Agree SameButVolume (addOrder orderId symbol side qty price timestamp)
      (addOrder orderId symbol side qty price timestamp) := by
  rintro _ b ⟨v, rfl⟩
  unfold addOrder
  simp only [orders_setVolume, setOrders_setVolume, levels_setVolume, heap_setVolume,
    setLevels_setVolume, setHeap_setVolume]
  split
  · exact .error _ ⟨v, rfl⟩
  split
  · exact .error _ ⟨v, rfl⟩
  split
  · exact .ok () ⟨v, rfl⟩
  · exact .ok () ⟨v, rfl⟩

theorem agree_deleteOrder (orderId : ℤ) :
    Agree SameButVolume (deleteOrder orderId) (deleteOrder orderId) := by
  rintro _ b ⟨v, rfl⟩
  unfold deleteOrder
  simp only [orders_setVolume, setOrders_setVolume, levels_setVolume, setLevels_setVolume,
    symbol_setVolume]
  split
  · exact .ok () ⟨v, rfl⟩
  split
  · exact .error _ ⟨v, rfl⟩
  split
  · exact .error _ ⟨v, rfl⟩
  split
  · exact .error _ ⟨v, rfl⟩
  split
  · split
    · exact .error _ ⟨v, rfl⟩
    · exact .ok () ⟨v, rfl⟩
  · exact .ok () ⟨v, rfl⟩

/-- `trade_order` writes the volume, and does not go by it. -/
theorem agree_tradeOrder (orderId qty price : ℤ) :
    Agree SameButVolume (tradeOrder orderId qty price) (tradeOrder orderId qty price) := by
  rintro _ b ⟨v, rfl⟩
  unfold tradeOrder
  simp only [orders_setVolume, setOrders_setVolume, levels_setVolume, setLevels_setVolume,
    symbol_setVolume, setVolume_setVolume]
  split
  · exact .error _ ⟨v, rfl⟩
  split
  · exact .error _ ⟨v, rfl⟩
  split
  · exact .error _ ⟨v + qty, rfl⟩
  split
  · split
    · exact .error _ ⟨v + qty, rfl⟩
    split
    · split
      · exact .error _ ⟨v + qty, rfl⟩
      · exact .ok () ⟨v + qty, rfl⟩
    · exact .ok () ⟨v + qty, rfl⟩
  · exact .ok () ⟨v + qty, rfl⟩

/-- `modify_order` is a delete and an add. -/
theorem agree_modifyOrder (orderId : ℤ) (side : Side) (qty price : ℤ) :
    Agree SameButVolume (modifyOrder orderId side qty price)
      (modifyOrder orderId side qty price) := by
  rintro _ b ⟨v, rfl⟩
  unfold modifyOrder
  rw [orders_setVolume, symbol_setVolume]
  split
  · exact .error _ ⟨v, rfl⟩
  · exact ((agree_deleteOrder orderId).bind fun _ ↦ agree_addOrder _ _ _ _ _ _) _ b ⟨v, rfl⟩

/-- Reading the best price of a side cleans the top of its heap, and never raises. -/
theorem getBest_ok (side : Side) (b : OrderBook) : ∃ r, getBest side b = .ok r (b.clearTop side) ∧
    ∀ v, getBest side (b.setVolume v) = .ok r ((b.clearTop side).setVolume v) := by
  unfold getBest
  simp only [clearTop_setVolume, heap_setVolume, levels_setVolume]
  rcases htop : ((b.clearTop side).heap side).peek? with - | top
  · exact ⟨(0, 0), rfl, fun _ ↦ rfl⟩
  · have hlive : (b.levels side).contains (heapPrice side top) = true := by
      have hpeek : ((b.heap side).popWhile fun p ↦
          !(b.levels side).contains (heapPrice side p)).peek? = some top := by
        rw [← htop, clearTop, heap_setHeap, if_pos rfl]
      simpa using MinHeap.peek?_popWhile_live hpeek
    obtain ⟨level, hlevel⟩ := Dict.contains_eq_true_iff.1 hlive
    have hlevel' : ((b.clearTop side).levels side).get? (heapPrice side top) = some level := by
      rw [clearTop, levels_setHeap]
      exact hlevel
    simp only [hlevel']
    exact ⟨_, rfl, fun _ ↦ rfl⟩

theorem agree_getBest (side : Side) : Agree SameButVolume (getBest side) (getBest side) := by
  rintro _ b ⟨v, rfl⟩
  obtain ⟨r, hget, hget'⟩ := getBest_ok side b
  rw [hget, hget']
  exact .ok r ⟨v, rfl⟩

theorem agree_checkLevels (side : Side) (l : List (ℤ × PriceLevel)) :
    Agree SameButVolume (checkLevels side l) (checkLevels side l) := by
  induction l with
  | nil => exact agree_pure ()
  | cons e l ih =>
    rintro _ b ⟨v, rfl⟩
    unfold checkLevels
    rw [symbol_setVolume]
    split
    · exact .error _ ⟨v, rfl⟩
    split
    · exact .error _ ⟨v, rfl⟩
    · exact ih _ b ⟨v, rfl⟩

theorem agree_checkOrders (l : List (ℤ × Order)) :
    Agree SameButVolume (checkOrders l) (checkOrders l) := by
  induction l with
  | nil => exact agree_pure ()
  | cons e l ih =>
    rintro _ b ⟨v, rfl⟩
    unfold checkOrders
    rw [symbol_setVolume, levels_setVolume]
    split
    · exact ih _ b ⟨v, rfl⟩
    · exact .error _ ⟨v, rfl⟩

theorem agree_validate : Agree SameButVolume validate validate := by
  refine (agree_getBest .buy).bind fun bb ↦ (agree_getBest .sell).bind fun ba ↦ agree_get ?_
  rintro _ b ⟨v, rfl⟩
  rw [symbol_setVolume]
  split
  · exact .error _ ⟨v, rfl⟩
  · exact ((agree_checkLevels .sell _).bind fun _ ↦ (agree_checkLevels .buy _).bind fun _ ↦
      agree_checkOrders _) _ b ⟨v, rfl⟩

/-- A consistent book of a symbol. -/
def BookOf (symbol : ℤ) (b : OrderBook) : Prop := b.Consistent ∧ b.symbol = symbol

/-- A consistent book left by an operation is one of the same symbol. -/
theorem Leaves.bookOf {b b' : OrderBook} {orders : Dict ℤ Order} {volume symbol : ℤ}
    (h : Leaves b orders volume b') (hb : BookOf symbol b) : BookOf symbol b' :=
  ⟨h.consistent, h.symbol_eq.trans hb.2⟩

theorem keeps_bookOf_getBest (symbol : ℤ) (side : Side) :
    Keeps (BookOf symbol) (getBest side) := by
  intro b h
  obtain ⟨r, b', hget, -, hl, -⟩ := getBest_spec h.1 side
  rw [after_ok hget]
  exact hl.bookOf h

/-- Cleaning a heap leaves a book of the symbol. -/
theorem BookOf.clearTop {b : OrderBook} {symbol : ℤ} (h : BookOf symbol b) (side : Side) :
    BookOf symbol (b.clearTop side) := by
  obtain ⟨r, hget, -⟩ := getBest_ok side b
  rw [← after_ok hget]
  exact keeps_bookOf_getBest symbol side b h

/-- Every operation on a book of a symbol leaves a book of that symbol. -/
theorem Op.keeps_bookOf (symbol : ℤ) (op : Op) : Keeps (BookOf symbol) op.call := by
  intro b h
  cases op with
  | addOrder orderId symbol side qty price timestamp =>
    obtain ⟨_, hl, -⟩ := addOrder_after h.1 orderId symbol side qty price timestamp
    exact hl.bookOf h
  | deleteOrder orderId => exact (deleteOrder_after h.1 orderId).bookOf h
  | tradeOrder orderId qty price =>
    obtain ⟨_, _, hl, -⟩ := tradeOrder_after h.1 orderId qty price
    exact hl.bookOf h
  | modifyOrder orderId side qty price =>
    obtain ⟨_, _, hl, -⟩ := modifyOrder_after h.1 orderId side qty price
    exact hl.bookOf h
  | clear => exact ⟨consistent_clear b, h.2⟩
  | getBestBid => exact (keeps_bookOf_getBest symbol .buy).bind (fun _ ↦ keeps_pure ()) b h
  | getBestAsk => exact (keeps_bookOf_getBest symbol .sell).bind (fun _ ↦ keeps_pure ()) b h
  | validate =>
    obtain ⟨b', hval, hl, -⟩ := validate_spec h.1
    rw [Op.call, hval]
    exact hl.bookOf h

/-- An emptied book is a new one but for its volume. -/
theorem BookOf.clear_eq {b : OrderBook} {symbol : ℤ} (h : BookOf symbol b) :
    b.clear = (init symbol).setVolume b.totalVolume := by
  rw [← h.2]
  rfl

/-- Two emptied books differ in the volume at the most. -/
theorem agree_clear : Agree SameButVolume (ε := FeedError) (modify clear) (modify clear) := by
  refine agree_modify ?_
  rintro _ b ⟨v, rfl⟩
  exact ⟨v, rfl⟩

end OrderBook

namespace OrderBookManager

/-! ### Books under their own symbols -/

/-- Every book is one of the symbol it stands under. -/
def Shelved (m : OrderBookManager) : Prop :=
  ∀ s b, m.books.get? s = some b → OrderBook.BookOf s b

theorem Shelved.setIndex {m : OrderBookManager} (h : m.Shelved) (index : Dict ℤ ℤ) :
    (m.setIndex index).Shelved := h

theorem Shelved.setBook {m : OrderBookManager} (h : m.Shelved) {symbol : ℤ} {b : OrderBook}
    (hb : OrderBook.BookOf symbol b) : (m.setBook symbol b).Shelved := by
  intro s b' hs
  rw [get?_books_setBook] at hs
  split at hs
  · rename_i hsymbol
    cases hs
    exact hsymbol ▸ hb
  · exact h s b' hs

/-- A book that is opened is one of its symbol. -/
theorem keeps_shelved_getOrCreateBook (symbol : ℤ) :
    Keeps Shelved (getOrCreateBook symbol) := by
  intro m h
  rcases hb : m.books.get? symbol with - | book
  · have hget : getOrCreateBook symbol m =
        .ok (.init symbol) (m.setBook symbol (.init symbol)) := by
      simp only [getOrCreateBook, hb]
    rw [after_ok hget]
    exact h.setBook ⟨OrderBook.consistent_init symbol, rfl⟩
  · have hget : getOrCreateBook symbol m = .ok book m := by simp only [getOrCreateBook, hb]
    rwa [after_ok hget]

/-- A call that leaves books of their symbols does so in a manager. -/
theorem keeps_shelved_onBook {α : Type} (symbol : ℤ) {call : Method FeedError OrderBook α}
    (hcall : Keeps (OrderBook.BookOf symbol) call) : Keeps Shelved (onBook symbol call) := by
  intro m h
  rcases hb : m.books.get? symbol with - | book
  · rwa [after_error (onBook_of_no_book hb call)]
  · rw [after_onBook hb]
    exact h.setBook (hcall book (h symbol book hb))

theorem keeps_shelved_onOp (symbol : ℤ) (op : OrderBook.Op) :
    Keeps Shelved (onBook symbol op.call) :=
  keeps_shelved_onBook symbol (op.keeps_bookOf symbol)

theorem keeps_shelved_processNewOrder (seqNum timestamp orderId symbol : ℤ) (side : Side)
    (qty price flags : ℤ) : Keeps Shelved
      (processNewOrder seqNum timestamp orderId symbol side qty price flags) :=
  (keeps_modify fun _ h ↦ h.setIndex _).bind fun _ ↦
    (keeps_shelved_getOrCreateBook symbol).bind fun _ ↦
      keeps_shelved_onOp symbol (.addOrder orderId symbol side qty price timestamp)

theorem keeps_shelved_processDeleteOrder (seqNum orderId : ℤ) :
    Keeps Shelved (processDeleteOrder seqNum orderId) := by
  intro m h
  rcases hid : m.orderIdToSymbol.get? orderId with - | symbol
  · rwa [after_ok (processDeleteOrder_of_unknown seqNum hid)]
  · rw [Method.after, processDeleteOrder_of_known seqNum hid]
    exact (keeps_shelved_onOp symbol (.deleteOrder orderId)).bind
      (fun _ ↦ keeps_modify fun _ h ↦ h.setIndex _) m h

theorem keeps_shelved_processTrade (seqNum orderId qty price : ℤ) :
    Keeps Shelved (processTrade seqNum orderId qty price) := by
  intro m h
  rcases hid : m.orderIdToSymbol.get? orderId with - | symbol
  · rwa [after_error (processTrade_of_unknown seqNum qty price hid)]
  · rw [Method.after, processTrade_of_known seqNum qty price hid]
    exact keeps_shelved_onOp symbol (.tradeOrder orderId qty price) m h

theorem keeps_shelved_processModifyOrder (seqNum orderId : ℤ) (side : Side) (qty price : ℤ) :
    Keeps Shelved (processModifyOrder seqNum orderId side qty price) := by
  intro m h
  rcases hid : m.orderIdToSymbol.get? orderId with - | symbol
  · rwa [after_error (processModifyOrder_of_unknown seqNum qty price side hid)]
  · rw [Method.after, processModifyOrder_of_known seqNum qty price side hid]
    exact keeps_shelved_onOp symbol (.modifyOrder orderId side qty price) m h

/-! ### Emptied books in place of none -/

/-- What two managers have under a symbol: the same book but for its volume, or the first an emptied
book and the second none. -/
inductive Counterpart (symbol : ℤ) : Option OrderBook → Option OrderBook → Prop
  | absent : Counterpart symbol none none
  | emptied (volume : ℤ) :
      Counterpart symbol (some ((OrderBook.init symbol).setVolume volume)) none
  | kept {b b' : OrderBook} (h : b.SameButVolume b') : Counterpart symbol (some b) (some b')

/-- The first manager has emptied books where the second may have none; every indexed symbol has a
book. -/
structure Resembles (m m' : OrderBookManager) : Prop where
  index : m.orderIdToSymbol = m'.orderIdToSymbol
  books : ∀ s, Counterpart s (m.books.get? s) (m'.books.get? s)
  backed : ∀ id s, m'.orderIdToSymbol.get? id = some s → ∃ b', m'.books.get? s = some b'

/-- And both have a book of this symbol. -/
def ResemblesAt (symbol : ℤ) (m m' : OrderBookManager) : Prop :=
  Resembles m m' ∧ ∃ b', m'.books.get? symbol = some b'

section

variable {m m' : OrderBookManager}

/-- Where the second manager has a book, the first has one. -/
theorem Counterpart.exists_book {symbol : ℤ} {x : Option OrderBook} {b' : OrderBook}
    (h : Counterpart symbol x (some b')) : ∃ b, x = some b ∧ b.SameButVolume b' := by
  cases h with
  | kept h => exact ⟨_, rfl, h⟩

/-- Writing back two books that differ in their volume. -/
theorem Resembles.setBook (h : Resembles m m') (symbol : ℤ) {b b' : OrderBook}
    (hb : b.SameButVolume b') :
    ResemblesAt symbol (m.setBook symbol b) (m'.setBook symbol b') := by
  refine ⟨⟨h.index, fun s ↦ ?_, fun id s hs ↦ ?_⟩, b', ?_⟩
  · rw [get?_books_setBook, get?_books_setBook]
    split
    · exact .kept hb
    · exact h.books s
  · rw [get?_books_setBook]
    split
    · exact ⟨b', rfl⟩
    · exact h.backed id s hs
  · rw [get?_books_setBook, if_pos rfl]

/-- A call on a book that both have. -/
theorem agree_onBook {α : Type} (symbol : ℤ) {call : Method FeedError OrderBook α}
    (hcall : Agree OrderBook.SameButVolume call call) :
    Agree (ResemblesAt symbol) (onBook symbol call) (onBook symbol call) := by
  rintro m m' ⟨h, b', hm'⟩
  obtain ⟨b, hm, hb⟩ := (hm' ▸ h.books symbol).exists_book
  rw [onBook_of_book hm, onBook_of_book hm']
  exact (hcall b b' hb).focus fun _ _ hc ↦ h.setBook symbol hc

/-- A call on the book of an indexed symbol. -/
theorem Resembles.onIndexed {α : Type} (h : Resembles m m') {id symbol : ℤ}
    (hid : m'.orderIdToSymbol.get? id = some symbol) {call : Method FeedError OrderBook α}
    (hcall : Agree OrderBook.SameButVolume call call) :
    Alike Resembles (onBook symbol call m) (onBook symbol call m') :=
  (agree_onBook symbol hcall m m' ⟨h, h.backed id symbol hid⟩).mono fun _ _ ↦ And.left

/-- A book is opened where there is none, and called on. Until then its symbol may be indexed. -/
theorem alike_openBook {α : Type} (hindex : m.orderIdToSymbol = m'.orderIdToSymbol)
    (hbooks : ∀ s, Counterpart s (m.books.get? s) (m'.books.get? s)) {symbol : ℤ}
    (hbacked : ∀ id s, m'.orderIdToSymbol.get? id = some s →
      s = symbol ∨ ∃ b', m'.books.get? s = some b')
    {call : Method FeedError OrderBook α} (hcall : Agree OrderBook.SameButVolume call call) :
    Alike (ResemblesAt symbol) ((getOrCreateBook symbol >>= fun _ ↦ onBook symbol call) m)
      ((getOrCreateBook symbol >>= fun _ ↦ onBook symbol call) m') := by
  -- whatever each of them has, both have a book afterwards
  obtain ⟨b, b', m₁, m₁', hget, hget', h⟩ : ∃ b b' m₁ m₁',
      getOrCreateBook symbol m = .ok b m₁ ∧ getOrCreateBook symbol m' = .ok b' m₁' ∧
      ResemblesAt symbol m₁ m₁' := by
    have hc := hbooks symbol
    have hnew : ∀ id s, m'.orderIdToSymbol.get? id = some s →
        ∃ b', (m'.setBook symbol (.init symbol)).books.get? s = some b' := fun id s hs ↦ by
      rw [get?_books_setBook]
      split
      · exact ⟨_, rfl⟩
      · rename_i hne
        exact (hbacked id s hs).resolve_left hne
    unfold getOrCreateBook
    rcases hm : m.books.get? symbol with - | b <;> rcases hm' : m'.books.get? symbol with - | b' <;>
      rw [hm, hm'] at hc <;> dsimp only
    · refine ⟨_, _, _, _, rfl, rfl, ⟨hindex, fun s ↦ ?_, hnew⟩, .init symbol, ?_⟩
      · rw [get?_books_setBook, get?_books_setBook]
        split
        · exact .kept ⟨0, rfl⟩
        · exact hbooks s
      · rw [get?_books_setBook, if_pos rfl]
    · cases hc
    · refine ⟨_, _, _, _, rfl, rfl, ⟨hindex, fun s ↦ ?_, hnew⟩, .init symbol, ?_⟩
      · rw [get?_books_setBook]
        split
        · rename_i hs
          rw [hs, hm]
          cases hc with
          | emptied v => exact .kept ⟨v, rfl⟩
        · exact hbooks s
      · rw [get?_books_setBook, if_pos rfl]
    · refine ⟨_, _, _, _, rfl, rfl, ⟨hindex, hbooks, fun id s hs ↦ ?_⟩, b', hm'⟩
      rcases hbacked id s hs with rfl | hbook
      · exact ⟨b', hm'⟩
      · exact hbook
  rw [bind_ok hget, bind_ok hget']
  exact agree_onBook symbol hcall m₁ m₁' h

/-- **A new order** opens a book in one manager where the other has an emptied one, and has like
outcomes. -/
theorem alike_processNewOrder (h : Resembles m m') (seqNum timestamp orderId symbol : ℤ)
    (side : Side) (qty price flags : ℤ) : Alike (ResemblesAt symbol)
      (processNewOrder seqNum timestamp orderId symbol side qty price flags m)
      (processNewOrder seqNum timestamp orderId symbol side qty price flags m') := by
  have hindex : m.orderIdToSymbol.insert orderId symbol =
      m'.orderIdToSymbol.insert orderId symbol := by rw [h.index]
  have hbacked : ∀ id s, (m'.orderIdToSymbol.insert orderId symbol).get? id = some s →
      s = symbol ∨ ∃ b', m'.books.get? s = some b' := fun id s hs ↦ by
    rw [Dict.get?_insert] at hs
    split at hs
    · exact Or.inl (Option.some.inj hs).symm
    · exact Or.inr (h.backed id s hs)
  exact @alike_openBook (m.setIndex _) (m'.setIndex _) _ hindex h.books symbol hbacked _
    (OrderBook.agree_addOrder orderId symbol side qty price timestamp)

theorem agree_processNewOrder (seqNum timestamp orderId symbol : ℤ) (side : Side)
    (qty price flags : ℤ) : Agree Resembles
      (processNewOrder seqNum timestamp orderId symbol side qty price flags)
      (processNewOrder seqNum timestamp orderId symbol side qty price flags) := fun _ _ h ↦
  (alike_processNewOrder h seqNum timestamp orderId symbol side qty price flags).mono
    fun _ _ ↦ And.left

/-- **A delete** by the index, which is the same in both. -/
theorem agree_processDeleteOrder (seqNum orderId : ℤ) :
    Agree Resembles (processDeleteOrder seqNum orderId) (processDeleteOrder seqNum orderId) := by
  intro m m' h
  rcases hid : m'.orderIdToSymbol.get? orderId with - | symbol
  · rw [processDeleteOrder_of_unknown seqNum hid,
      processDeleteOrder_of_unknown seqNum (h.index ▸ hid)]
    exact .ok () ⟨h.index, h.books, h.backed⟩
  · rw [processDeleteOrder_of_known seqNum hid, processDeleteOrder_of_known seqNum (h.index ▸ hid)]
    refine (h.onIndexed hid (OrderBook.agree_deleteOrder orderId)).bind fun _ ↦
      agree_modify fun t t' ht ↦ ⟨?_, ht.books, fun id s hs ↦ ?_⟩
    · show t.orderIdToSymbol.erase orderId = t'.orderIdToSymbol.erase orderId
      rw [ht.index]
    · rw [index_setIndex, Dict.get?_erase] at hs
      split at hs
      · cases hs
      · exact ht.backed id s hs

/-- **A trade** likewise. -/
theorem agree_processTrade (seqNum orderId qty price : ℤ) :
    Agree Resembles (processTrade seqNum orderId qty price)
      (processTrade seqNum orderId qty price) := by
  intro m m' h
  rcases hid : m'.orderIdToSymbol.get? orderId with - | symbol
  · rw [processTrade_of_unknown seqNum qty price hid,
      processTrade_of_unknown seqNum qty price (h.index ▸ hid)]
    exact .error _ h
  · rw [processTrade_of_known seqNum qty price hid,
      processTrade_of_known seqNum qty price (h.index ▸ hid)]
    exact h.onIndexed hid (OrderBook.agree_tradeOrder orderId qty price)

/-- **A modify** likewise. -/
theorem agree_processModifyOrder (seqNum orderId : ℤ) (side : Side) (qty price : ℤ) :
    Agree Resembles (processModifyOrder seqNum orderId side qty price)
      (processModifyOrder seqNum orderId side qty price) := by
  intro m m' h
  rcases hid : m'.orderIdToSymbol.get? orderId with - | symbol
  · rw [processModifyOrder_of_unknown seqNum qty price side hid,
      processModifyOrder_of_unknown seqNum qty price side (h.index ▸ hid)]
    exact .error _ h
  · rw [processModifyOrder_of_known seqNum qty price side hid,
      processModifyOrder_of_known seqNum qty price side (h.index ▸ hid)]
    exact h.onIndexed hid (OrderBook.agree_modifyOrder orderId side qty price)

/-! ### What they show -/

/-- An emptied book and no book have the same orders: none. -/
theorem Counterpart.orders_eq {s : ℤ} {x x' : Option OrderBook} (h : Counterpart s x x') (k : ℤ) :
    (x.bind fun book ↦ book.orders.get? k) = x'.bind fun book ↦ book.orders.get? k := by
  cases h with
  | absent => rfl
  | emptied => rfl
  | kept h =>
    obtain ⟨v, rfl⟩ := h
    rfl

/-- The same orders rest in both. -/
theorem Resembles.order?_eq (h : Resembles m m') : m.order? = m'.order? :=
  funext fun s ↦ funext fun k ↦ (h.books s).orders_eq k

/-- The best price of a side that a book quotes, or none. -/
def quoted (side : Side) : Option OrderBook → Option (ℤ × ℤ)
  | none => some (0, 0)
  | some book => (OrderBook.getBest side).value? book

/-- What is read is what the book quotes. -/
theorem value?_readBest (side : Side) (symbol : ℤ) (m : OrderBookManager) :
    (readBest side symbol).value? m = quoted side (m.books.get? symbol) := by
  rcases hm : m.books.get? symbol with - | book
  · have hread : readBest side symbol m = .ok (0, 0) m := by simp only [readBest, hm]
    rw [value?, hread]
    rfl
  · obtain ⟨r, hget, -⟩ := OrderBook.getBest_ok side book
    have hread : readBest side symbol m = .ok r (m.setBook symbol (book.clearTop side)) := by
      simp only [readBest, hm, onBook_of_book hm, focus_ok hget]
    rw [value?, hread, quoted, value?, hget]

theorem Counterpart.quoted_eq {s : ℤ} {x x' : Option OrderBook} (h : Counterpart s x x')
    (side : Side) : quoted side x = quoted side x' := by
  cases h with
  | absent => rfl
  | emptied => cases side <;> rfl
  | @kept _ b' h =>
    obtain ⟨v, rfl⟩ := h
    obtain ⟨r, hget, hget'⟩ := OrderBook.getBest_ok side b'
    rw [quoted, quoted, value?, value?, hget, hget']

/-- Both quote the same prices. -/
theorem Resembles.readBest_eq (h : Resembles m m') (side : Side) (symbol : ℤ) :
    (readBest side symbol).value? m = (readBest side symbol).value? m' := by
  rw [value?_readBest, value?_readBest]
  exact (h.books symbol).quoted_eq side

end

end OrderBookManager

end HftTrading
