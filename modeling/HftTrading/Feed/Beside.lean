import HftTrading.Book.Heaps
import HftTrading.Feed.Restart

/-!
# Books that somebody reads

Reading a best price writes: it takes prices without a level off the top of the heap. But no other
operation goes by the heaps, and the best price of a consistent book is a function of its orders. So
two consistent books that differ in their heaps alone return the same, raise the same, and stay such
books (`ReadApart`), and if only one of them is read, they stay such books too.

Managers with such books **cannot be told apart by any message**, however often the books of one of
them are read in between, and no more can the synchronizers they belong to (`Beside`).

## How it is shown

`Agree R f g` says that `f` and `g`, started in states that `R` relates, end in such states and with
the same result. There is one such statement for each operation, and each follows the operation's
own text: what it reads is the same on both sides, what it writes keeps the relation, and the rules
for the combinators do the rest. On a single book the relation is `SameButHeaps`, and consistency is
added to it only where a best price is read, that is for `validate`.

On the synchronizer most steps do not touch the manager at all. These are `Aside`, which is enough
for them to agree; what is left are the calls on the manager.
-/

namespace HftTrading

open MarketData Method

namespace OrderBook

/-- The books are the same but for the heaps. -/
structure SameButHeaps (b b' : OrderBook) : Prop where
  symbol : b.symbol = b'.symbol
  orders : b.orders = b'.orders
  levels : b.levels = b'.levels
  volume : b.totalVolume = b'.totalVolume

namespace SameButHeaps

variable {b b' : OrderBook} (h : SameButHeaps b b')
include h

theorem setOrders (d : Dict ℤ Order) : SameButHeaps (b.setOrders d) (b'.setOrders d) :=
  ⟨h.symbol, rfl, by simpa using h.levels, h.volume⟩

theorem setVolume (v : ℤ) : SameButHeaps (b.setVolume v) (b'.setVolume v) :=
  ⟨h.symbol, h.orders, by simpa using h.levels, rfl⟩

theorem setLevels (side : Side) (l : Dict ℤ PriceLevel) :
    SameButHeaps (b.setLevels side l) (b'.setLevels side l) := by
  refine ⟨?_, ?_, ?_, ?_⟩
  · simpa using h.symbol
  · simpa using h.orders
  · funext s
    rw [levels_setLevels, levels_setLevels, h.levels]
  · simpa using h.volume

theorem setHeap (side : Side) (x y : MinHeap ℤ) :
    SameButHeaps (b.setHeap side x) (b'.setHeap side y) := by
  refine ⟨?_, ?_, ?_, ?_⟩
  · simpa using h.symbol
  · simpa using h.orders
  · simpa using h.levels
  · simpa using h.volume

/-- Which of the two has been read does not matter. -/
theorem symm : SameButHeaps b' b := ⟨h.symbol.symm, h.orders.symm, h.levels.symm, h.volume.symm⟩

/-- One of the books loses prices from the top of a heap. -/
theorem clearTop (side : Side) : SameButHeaps (b.clearTop side) b' := by
  have hcleared : SameButHeaps (b.clearTop side) b := by
    refine ⟨?_, ?_, ?_, ?_⟩ <;> simp [OrderBook.clearTop]
  exact ⟨hcleared.symbol.trans h.symbol, hcleared.orders.trans h.orders,
    hcleared.levels.trans h.levels, hcleared.volume.trans h.volume⟩

omit h

/-- Adding an order goes by the orders and the levels. -/
theorem agree_addOrder (orderId symbol : ℤ) (side : Side) (qty price timestamp : ℤ) :
    Agree SameButHeaps (addOrder orderId symbol side qty price timestamp)
      (addOrder orderId symbol side qty price timestamp) := by
  intro b b' h
  unfold addOrder
  simp only [levels_setOrders, h.orders, h.levels]
  split
  · exact .error _ h
  split
  · exact .error _ h
  split
  · exact .ok () ((h.setOrders _).setLevels _ _)
  · exact .ok () (((h.setOrders _).setLevels _ _).setHeap _ _ _)

theorem agree_deleteOrder (orderId : ℤ) :
    Agree SameButHeaps (deleteOrder orderId) (deleteOrder orderId) := by
  intro b b' h
  unfold deleteOrder
  simp only [levels_setOrders, symbol_setOrders, symbol_setLevels, h.orders, h.levels, h.symbol]
  split
  · exact .ok () h
  rename_i order _
  split
  · exact .error _ (h.setOrders _)
  rename_i level _
  have hset := (h.setOrders (b'.orders.erase orderId)).setLevels order.side
    ((b'.levels order.side).insert order.price ⟨level.price, level.totalQty - order.quantity,
      level.orderCount - 1⟩)
  rw [hset.levels]
  split
  · exact .error _ hset
  split
  · exact .error _ hset
  split
  · split
    · exact .error _ hset
    · exact .ok () (hset.setLevels _ _)
  · exact .ok () hset

/-- What `trade_order` does once the order and its level have been reduced. -/
def settleTrade (orderId : ℤ) (order : Order) (level : PriceLevel) :
    Method FeedError OrderBook Unit := fun b ↦
  if level.totalQty < 0 then
    .error (.negativeTotalOnTrade b.symbol level.totalQty order.price orderId) b
  else if order.quantity = 0 then
    let level : PriceLevel := { level with orderCount := level.orderCount - 1 }
    let b := b.setOrders (b.orders.erase orderId)
    let b := b.setLevels order.side ((b.levels order.side).insert order.price level)
    if level.orderCount < 0 then
      .error (.negativeCountOnTrade b.symbol level.orderCount order.price orderId) b
    else if level.orderCount = 0 then
      if level.totalQty ≠ 0 then
        .error (.inconsistentState b.symbol level.totalQty order.price) b
      else .ok () (b.setLevels order.side ((b.levels order.side).erase order.price))
    else .ok () b
  else .ok () b

/-- `trade_order`, with what it looks up before it settles the trade. -/
theorem tradeOrder_eq (orderId qty price : ℤ) (b : OrderBook) : tradeOrder orderId qty price b =
    match b.orders.get? orderId with
    | none => .error (.tradeNotFound b.symbol orderId) b
    | some order =>
      match (b.levels order.side).get? order.price with
      | none => .error (.missingKey order.price) b
      | some level =>
        let order : Order := { order with quantity := order.quantity - qty }
        let level : PriceLevel := { level with totalQty := level.totalQty - qty }
        let b := (b.setOrders (b.orders.insert orderId order)).setVolume (b.totalVolume + qty)
        settleTrade orderId order level
          (b.setLevels order.side ((b.levels order.side).insert order.price level)) := rfl

/-- Settling a trade goes by the orders and the levels. -/
theorem agree_settleTrade (orderId : ℤ) (order : Order) (level : PriceLevel) :
    Agree SameButHeaps (settleTrade orderId order level) (settleTrade orderId order level) := by
  intro b b' h
  unfold settleTrade
  have hset := (h.setOrders (b'.orders.erase orderId)).setLevels order.side
    ((b'.levels order.side).insert order.price { level with orderCount := level.orderCount - 1 })
  simp only [levels_setOrders, symbol_setOrders, symbol_setLevels, h.orders, h.levels, h.symbol,
    hset.levels]
  split
  · exact .error _ h
  split
  · split
    · exact .error _ hset
    split
    · split
      · exact .error _ hset
      · exact .ok () (hset.setLevels _ _)
    · exact .ok () hset
  · exact .ok () h

theorem agree_tradeOrder (orderId qty price : ℤ) :
    Agree SameButHeaps (tradeOrder orderId qty price) (tradeOrder orderId qty price) := by
  intro b b' h
  rw [tradeOrder_eq, tradeOrder_eq]
  simp only [levels_setOrders, levels_setVolume, h.orders, h.levels, h.symbol, h.volume]
  split
  · exact .error _ h
  split
  · exact .error _ h
  · exact agree_settleTrade _ _ _ _ _ (((h.setOrders _).setVolume _).setLevels _ _)

theorem agree_modifyOrder (orderId : ℤ) (side : Side) (qty price : ℤ) :
    Agree SameButHeaps (modifyOrder orderId side qty price)
      (modifyOrder orderId side qty price) := by
  intro b b' h
  unfold modifyOrder
  rw [h.orders, h.symbol]
  split
  · exact .error _ h
  · exact ((agree_deleteOrder orderId).bind fun _ ↦ agree_addOrder _ _ _ _ _ _) b b' h

theorem agree_clear : Agree SameButHeaps (ε := FeedError) (modify clear) (modify clear) :=
  agree_modify fun _ _ h ↦ ⟨h.symbol, rfl, rfl, h.volume⟩

/-- The checks on the levels read the levels. -/
theorem agree_checkLevels (side : Side) (l : List (ℤ × PriceLevel)) :
    Agree SameButHeaps (checkLevels side l) (checkLevels side l) := by
  induction l with
  | nil => exact agree_pure ()
  | cons e l ih =>
    intro b b' h
    unfold checkLevels
    rw [h.symbol]
    split
    · exact .error _ h
    split
    · exact .error _ h
    · exact ih b b' h

/-- The checks on the orders read the orders and the levels. -/
theorem agree_checkOrders (l : List (ℤ × Order)) :
    Agree SameButHeaps (checkOrders l) (checkOrders l) := by
  induction l with
  | nil => exact agree_pure ()
  | cons e l ih =>
    intro b b' h
    unfold checkOrders
    rw [h.symbol, h.levels]
    split
    · exact ih b b' h
    · exact .error _ h

end SameButHeaps

/-- Consistent books that are the same but for the heaps. -/
structure ReadApart (b b' : OrderBook) : Prop where
  same : SameButHeaps b b'
  consistent : b.Consistent
  consistent' : b'.Consistent

/-- Either of the two may be the one that has been read. -/
theorem ReadApart.symm {b b' : OrderBook} (h : ReadApart b b') : ReadApart b' b :=
  ⟨h.same.symm, h.consistent', h.consistent⟩

/-- A consistent book may be read or not. -/
theorem ReadApart.refl {b : OrderBook} (h : b.Consistent) : ReadApart b b :=
  ⟨⟨rfl, rfl, rfl, rfl⟩, h, h⟩

/-- What does not go by the heaps, and keeps a book consistent. -/
theorem agree_readApart {α : Type} {call : Method FeedError OrderBook α}
    (hcall : Agree SameButHeaps call call) (hkeeps : Keeps Consistent call) :
    Agree ReadApart call call := by
  intro b b' h
  have hafter := hkeeps b h.consistent
  have hafter' := hkeeps b' h.consistent'
  have halike := hcall b b' h.same
  unfold after at hafter hafter'
  revert halike hafter hafter'
  rcases call b with ⟨a, t⟩ | ⟨e, t⟩ <;> rcases call b' with ⟨a', t'⟩ | ⟨e', t'⟩ <;>
    intro hafter hafter' halike <;> cases halike
  · exact .ok a ⟨‹_›, hafter, hafter'⟩
  · exact .error e ⟨‹_›, hafter, hafter'⟩

/-- If only one of the books is read, nothing comes of it. -/
theorem ReadApart.clearTop {b b' : OrderBook} (h : ReadApart b b') (side : Side) :
    ReadApart (b.clearTop side) b' :=
  ⟨h.same.clearTop side, (h.consistent.clearTop side).consistent, h.consistent'⟩

/-- The best price is a function of the orders. -/
theorem agree_getBest_readApart (side : Side) : Agree ReadApart (getBest side) (getBest side) := by
  intro b b' h
  obtain ⟨r, hget, -⟩ := getBest_ok side b
  obtain ⟨r', hget', -⟩ := getBest_ok side b'
  obtain ⟨_, _, hspec, hbest, -⟩ := getBest_spec h.consistent side
  obtain ⟨_, _, hspec', hbest', -⟩ := getBest_spec h.consistent' side
  cases hget.symm.trans hspec
  cases hget'.symm.trans hspec'
  obtain rfl : r = r' := hbest.unique (h.same.orders ▸ hbest')
  rw [hget, hget']
  exact .ok r ((h.clearTop side).symm.clearTop side).symm

/-- **Validation comes out the same**, although it reads the best prices. -/
theorem agree_validate_readApart : Agree ReadApart validate validate := by
  have hkeeps (l l' : List (ℤ × PriceLevel)) (l'' : List (ℤ × Order)) : Keeps Consistent (do
      checkLevels .sell l
      checkLevels .buy l'
      checkOrders l'') :=
    Keeps.bind (fun b h ↦ by rwa [checkLevels_after]) fun _ ↦
      Keeps.bind (fun b h ↦ by rwa [checkLevels_after]) fun _ b h ↦ by rwa [checkOrders_after]
  refine (agree_getBest_readApart .buy).bind fun bb ↦ (agree_getBest_readApart .sell).bind
    fun ba ↦ agree_get fun b b' h ↦ ?_
  have hasks : b.askLevels = b'.askLevels := congrFun h.same.levels .sell
  have hbids : b.bidLevels = b'.bidLevels := congrFun h.same.levels .buy
  rw [h.same.symbol, h.same.orders, hasks, hbids]
  split
  · exact .error _ h
  · exact agree_readApart ((SameButHeaps.agree_checkLevels .sell _).bind fun _ ↦
      (SameButHeaps.agree_checkLevels .buy _).bind fun _ ↦ SameButHeaps.agree_checkOrders _)
        (hkeeps _ _ _) b b' h

end OrderBook

namespace OrderBookManager

/-- Managers with the same index, and books that are the same but for the heaps. -/
structure Beside (m m' : OrderBookManager) : Prop where
  index : m.orderIdToSymbol = m'.orderIdToSymbol
  unknown : m.unknownDeleteCount = m'.unknownDeleteCount
  books : ∀ s, Option.Rel OrderBook.ReadApart (m.books.get? s) (m'.books.get? s)

section

variable {m m' : OrderBookManager}

/-- A manager with consistent books stands beside itself. -/
theorem Beside.refl (h : m.Books) : Beside m m := by
  refine ⟨rfl, rfl, fun s ↦ ?_⟩
  rcases hb : m.books.get? s with - | b
  · exact .none
  · exact .some (.refl (h s b hb))

/-- Either of the two may be the one whose books have been read. -/
theorem Beside.symm (h : Beside m m') : Beside m' m := by
  refine ⟨h.index.symm, h.unknown.symm, fun s ↦ ?_⟩
  have hs := h.books s
  revert hs
  rcases m.books.get? s with - | b <;> rcases m'.books.get? s with - | b' <;> intro hs <;> cases hs
  · exact .none
  · exact .some (OrderBook.ReadApart.symm ‹_›)

/-- Both have a book of a symbol, or neither has. -/
theorem Beside.cases (h : Beside m m') (symbol : ℤ) :
    m.books.get? symbol = none ∧ m'.books.get? symbol = none ∨
      ∃ b b', m.books.get? symbol = some b ∧ m'.books.get? symbol = some b' ∧
        OrderBook.ReadApart b b' := by
  have hs := h.books symbol
  revert hs
  rcases m.books.get? symbol with - | b <;> rcases m'.books.get? symbol with - | b' <;>
    intro hs <;> cases hs
  · exact Or.inl ⟨rfl, rfl⟩
  · exact Or.inr ⟨b, b', rfl, rfl, ‹_›⟩

theorem Beside.setIndex (h : Beside m m') (index : Dict ℤ ℤ) :
    Beside (m.setIndex index) (m'.setIndex index) := ⟨rfl, h.unknown, h.books⟩

/-- Books that were read apart are put in place. -/
theorem Beside.setBook (h : Beside m m') (symbol : ℤ) {b b' : OrderBook}
    (hb : OrderBook.ReadApart b b') : Beside (m.setBook symbol b) (m'.setBook symbol b') := by
  refine ⟨h.index, h.unknown, fun s ↦ ?_⟩
  rw [get?_books_setBook, get?_books_setBook]
  split
  · exact .some hb
  · exact h.books s

/-- A call on the book of a symbol, by what it does to two books. -/
theorem beside_onBook {α : Type} (symbol : ℤ) {call : Method FeedError OrderBook α}
    (hcall : Agree OrderBook.ReadApart call call) :
    Agree Beside (onBook symbol call) (onBook symbol call) := by
  intro m m' h
  rcases h.cases symbol with ⟨hm, hm'⟩ | ⟨b, b', hm, hm', hb⟩
  · rw [onBook_of_no_book hm, onBook_of_no_book hm']
    exact .error _ h
  · rw [onBook_of_book hm, onBook_of_book hm']
    exact (hcall b b' hb).focus fun _ _ hc ↦ h.setBook symbol hc

/-- A call on a book that keeps it consistent and does not go by its heaps. -/
theorem beside_onOp (symbol : ℤ) (op : OrderBook.Op)
    (hop : Agree OrderBook.SameButHeaps op.call op.call) :
    Agree Beside (onBook symbol op.call) (onBook symbol op.call) :=
  beside_onBook symbol (OrderBook.agree_readApart hop op.keeps_consistent)

/-- Opening a book gives both managers one. -/
theorem beside_openBook {α : Type} (symbol : ℤ) {rest : Method FeedError OrderBookManager α}
    (hrest : Agree Beside rest rest) :
    Agree Beside (getOrCreateBook symbol >>= fun _ ↦ rest)
      (getOrCreateBook symbol >>= fun _ ↦ rest) := by
  have hnew {m : OrderBookManager} (hm : m.books.get? symbol = none) :
      getOrCreateBook symbol m = .ok (.init symbol) (m.setBook symbol (.init symbol)) := by
    simp only [getOrCreateBook, hm]
  have hold {m : OrderBookManager} {b : OrderBook} (hm : m.books.get? symbol = some b) :
      getOrCreateBook symbol m = .ok b m := by
    simp only [getOrCreateBook, hm]
  intro m m' h
  rcases h.cases symbol with ⟨hm, hm'⟩ | ⟨b, b', hm, hm', hb⟩
  · rw [bind_ok (hnew hm), bind_ok (hnew hm')]
    exact hrest _ _ (h.setBook symbol (.refl (OrderBook.consistent_init symbol)))
  · rw [bind_ok (hold hm), bind_ok (hold hm')]
    exact hrest _ _ h

theorem beside_processNewOrder (seqNum timestamp orderId symbol : ℤ) (side : Side)
    (qty price flags : ℤ) : Agree Beside
      (processNewOrder seqNum timestamp orderId symbol side qty price flags)
      (processNewOrder seqNum timestamp orderId symbol side qty price flags) := by
  refine (agree_modify fun m m' h ↦ ?_).bind fun _ ↦ beside_openBook symbol
    (beside_onOp symbol (.addOrder orderId symbol side qty price timestamp)
      (OrderBook.SameButHeaps.agree_addOrder _ _ _ _ _ _))
  rw [h.index]
  exact h.setIndex _

theorem beside_processDeleteOrder (seqNum orderId : ℤ) :
    Agree Beside (processDeleteOrder seqNum orderId) (processDeleteOrder seqNum orderId) := by
  intro m m' h
  rcases hid : m'.orderIdToSymbol.get? orderId with - | symbol
  · rw [processDeleteOrder_of_unknown seqNum hid,
      processDeleteOrder_of_unknown seqNum (h.index ▸ hid)]
    exact .ok () ⟨h.index, congrArg (· + 1) h.unknown, h.books⟩
  · rw [processDeleteOrder_of_known seqNum hid, processDeleteOrder_of_known seqNum (h.index ▸ hid)]
    refine (beside_onOp symbol (.deleteOrder orderId)
      (OrderBook.SameButHeaps.agree_deleteOrder orderId) m m' h).bind fun _ ↦
        agree_modify fun t t' ht ↦ ?_
    rw [ht.index]
    exact ht.setIndex _

theorem beside_processTrade (seqNum orderId qty price : ℤ) :
    Agree Beside (processTrade seqNum orderId qty price)
      (processTrade seqNum orderId qty price) := by
  intro m m' h
  rcases hid : m'.orderIdToSymbol.get? orderId with - | symbol
  · rw [processTrade_of_unknown seqNum qty price hid,
      processTrade_of_unknown seqNum qty price (h.index ▸ hid)]
    exact .error _ h
  · rw [processTrade_of_known seqNum qty price hid,
      processTrade_of_known seqNum qty price (h.index ▸ hid)]
    exact beside_onOp symbol (.tradeOrder orderId qty price)
      (OrderBook.SameButHeaps.agree_tradeOrder orderId qty price) m m' h

theorem beside_processModifyOrder (seqNum orderId : ℤ) (side : Side) (qty price : ℤ) :
    Agree Beside (processModifyOrder seqNum orderId side qty price)
      (processModifyOrder seqNum orderId side qty price) := by
  intro m m' h
  rcases hid : m'.orderIdToSymbol.get? orderId with - | symbol
  · rw [processModifyOrder_of_unknown seqNum qty price side hid,
      processModifyOrder_of_unknown seqNum qty price side (h.index ▸ hid)]
    exact .error _ h
  · rw [processModifyOrder_of_known seqNum qty price side hid,
      processModifyOrder_of_known seqNum qty price side (h.index ▸ hid)]
    exact beside_onOp symbol (.modifyOrder orderId side qty price)
      (OrderBook.SameButHeaps.agree_modifyOrder _ _ _ _) m m' h

/-! ### Reading -/

/-- The book of a symbol is replaced by one that has been read. -/
theorem Beside.setBook_left (h : Beside m m') {symbol : ℤ} {b b₁ : OrderBook}
    (hb : m.books.get? symbol = some b)
    (hread : ∀ b', OrderBook.ReadApart b b' → OrderBook.ReadApart b₁ b') :
    Beside (m.setBook symbol b₁) m' := by
  refine ⟨h.index, h.unknown, fun s ↦ ?_⟩
  rw [get?_books_setBook]
  split
  · rename_i hs
    subst hs
    rcases h.cases s with ⟨hm, -⟩ | ⟨b₀, b', hm, hm', hpair⟩
    · cases hb.symm.trans hm
    · cases hb.symm.trans hm
      rw [hm']
      exact .some (hread b' hpair)
  · exact h.books s

/-- **If the books of only one manager are read, nothing comes of it.** -/
theorem Beside.read (symbol : ℤ) (side : Side) :
    Keeps (fun m ↦ Beside m m') (onBook symbol (OrderBook.getBest side)) := by
  intro m h
  rcases hb : m.books.get? symbol with - | b
  · rwa [after_error (onBook_of_no_book hb _)]
  · obtain ⟨r, hget, -⟩ := OrderBook.getBest_ok side b
    rw [after_onBook hb, after_ok hget]
    exact h.setBook_left hb fun b' hpair ↦ hpair.clearTop side

/-- Logging the books of one of the two makes no difference. -/
theorem Beside.logBooks : Keeps (fun m ↦ Beside m m') logBooks := by
  refine Keeps.bind keeps_get fun m ↦ keeps_all fun call hcall ↦ ?_
  obtain ⟨symbol, -, rfl⟩ := List.mem_map.1 hcall
  exact (Beside.read symbol .buy).bind fun _ ↦ (Beside.read symbol .sell).bind fun _ ↦ keeps_pure ()

/-- Logging the books of both, which raises nothing. -/
theorem beside_logBooks : Agree Beside logBooks logBooks := by
  intro m m' h
  obtain ⟨m₁, hlog, -⟩ := logBooks_ok m
  obtain ⟨m₁', hlog', -⟩ := logBooks_ok m'
  have hleft := Beside.logBooks m h
  rw [after_ok hlog] at hleft
  have hright := Beside.logBooks m' hleft.symm
  rw [after_ok hlog'] at hright
  rw [hlog, hlog']
  exact .ok () hright.symm

/-- Both quote the same prices. -/
theorem Beside.readBest_eq (h : Beside m m') (side : Side) (symbol : ℤ) :
    (readBest side symbol).value? m = (readBest side symbol).value? m' := by
  rw [value?_readBest, value?_readBest]
  rcases h.cases symbol with ⟨hm, hm'⟩ | ⟨b, b', hm, hm', hb⟩
  · rw [hm, hm']
  · rw [hm, hm', quoted, quoted, value?, value?]
    have hbest := OrderBook.agree_getBest_readApart side b b' hb
    revert hbest
    rcases OrderBook.getBest side b with ⟨r, t⟩ | ⟨e, t⟩ <;>
      rcases OrderBook.getBest side b' with ⟨r', t'⟩ | ⟨e', t'⟩ <;> intro hbest <;> cases hbest
    · rfl
    · rfl

/-- **No message tells the two managers apart.** -/
theorem beside_dispatchLiveMessage (header : MDHeader) (body : MarketDataMessage) :
    Agree Beside (dispatchLiveMessage header body) (dispatchLiveMessage header body) := by
  unfold dispatchLiveMessage
  split
  · exact beside_processNewOrder _ _ _ _ _ _ _ _
  · exact beside_processDeleteOrder _ _
  · exact beside_processModifyOrder _ _ _ _ _
  · exact beside_processTrade _ _ _ _
  · exact agree_pure ()
  · exact agree_throw _
  · exact agree_pure ()

end

end OrderBookManager

namespace SnapShotSynchronizer

/-- `z` is `w` but for the heaps of its books. -/
def Beside (z w : SnapShotSynchronizer) : Prop :=
  ∃ m, z = setManager m w ∧ OrderBookManager.Beside m w.bookManager

/-- `f` neither goes by the manager nor touches it. -/
structure Aside (f : SnapShotSynchronizer → SnapShotSynchronizer) : Prop where
  setManager : ∀ m w, f (setManager m w) = SnapShotSynchronizer.setManager m (f w)
  manager : ∀ w, (f w).bookManager = w.bookManager

/-- A step that leaves the manager aside agrees on both sides. -/
theorem Aside.agree {f : SnapShotSynchronizer → SnapShotSynchronizer} (hf : Aside f) :
    Agree Beside (modify f : Method FeedError SnapShotSynchronizer PUnit) (modify f) := by
  refine agree_modify ?_
  rintro _ w ⟨m, rfl, hm⟩
  exact ⟨m, hf.setManager m w, by rwa [hf.manager]⟩

/-- A call on the manager, by what it does to two managers. -/
theorem beside_onManager {α : Type} {call : Method FeedError OrderBookManager α}
    (hcall : Agree OrderBookManager.Beside call call) :
    Agree Beside (onManager call) (onManager call) := by
  rintro _ w ⟨m, rfl, hm⟩
  exact (hcall m w.bookManager hm).focus fun m₁ m₁' hm₁ ↦ ⟨m₁, rfl, hm₁⟩

/-- A synchronizer with consistent books stands beside itself. -/
theorem Beside.refl {z : SnapShotSynchronizer} (h : z.bookManager.Books) : Beside z z :=
  ⟨z.bookManager, rfl, .refl h⟩

/-- The manager of one of the two is replaced. -/
theorem Beside.setManager {z w : SnapShotSynchronizer} (h : Beside z w) {m : OrderBookManager}
    (hm : OrderBookManager.Beside m w.bookManager) : Beside (setManager m z) w := by
  obtain ⟨m₀, rfl, -⟩ := h
  exact ⟨m, rfl, hm⟩

/-- A reset takes the books of both away. -/
theorem Beside.resetForResnap {z w : SnapShotSynchronizer} (h : Beside z w) :
    Beside z.resetForResnap w.resetForResnap := by
  obtain ⟨m, rfl, hm⟩ := h
  refine ⟨_, rfl, rfl, hm.unknown, fun s ↦ ?_⟩
  show Option.Rel _ ((m.books.mapValues OrderBook.clear).get? s)
    ((w.bookManager.books.mapValues OrderBook.clear).get? s)
  rw [Dict.get?_mapValues, Dict.get?_mapValues]
  rcases hm.cases s with ⟨hb, hb'⟩ | ⟨b, b', hb, hb', hpair⟩
  · rw [hb, hb']
    exact .none
  · rw [hb, hb']
    exact .some ⟨⟨hpair.same.symbol, rfl, rfl, hpair.same.volume⟩, OrderBook.consistent_clear b,
      OrderBook.consistent_clear b'⟩

/-! ### The live channel -/

theorem beside_dispatch (header : MDHeader) (body : MarketDataMessage) :
    Agree Beside (dispatch header body) (dispatch header body) := by
  refine Agree.bind (Aside.agree ?_) fun _ ↦
    beside_onManager (OrderBookManager.beside_dispatchLiveMessage header body)
  exact ⟨fun _ _ ↦ rfl, fun _ ↦ rfl⟩

/-! ### The snapshot channel -/

theorem aside_startSnapshot (body : SnapshotInfo) : Aside (startSnapshot body) :=
  ⟨fun _ _ ↦ rfl, fun _ ↦ rfl⟩

theorem aside_countOrder (symbol : ℤ) (state : SnapState) : Aside (countOrder symbol state) :=
  ⟨fun _ _ ↦ rfl, fun _ ↦ rfl⟩

theorem aside_completeSymbol (symbol : ℤ) : Aside (completeSymbol symbol) :=
  ⟨fun _ _ ↦ rfl, fun _ ↦ rfl⟩

theorem aside_complete : Aside fun z ↦ { z with snapComplete := true } :=
  ⟨fun _ _ ↦ rfl, fun _ ↦ rfl⟩

theorem aside_decideComplete : Aside decideComplete := by
  refine ⟨fun m w ↦ ?_, fun w ↦ ?_⟩
  · unfold decideComplete
    by_cases hc : w.bufferCovers ∧ w.completedSymbols.card = w.totalSymbols
    · rw [if_pos hc]
      exact if_pos hc
    · rw [if_neg hc]
      exact if_neg hc
  · unfold decideComplete
    split <;> rfl

theorem aside_warnOnGap (lastSeq seqNum : ℕ) : Aside (warnOnGap lastSeq seqNum) := by
  refine ⟨fun m w ↦ ?_, fun w ↦ ?_⟩
  · unfold warnOnGap
    split <;> rfl
  · unfold warnOnGap
    split <;> rfl

theorem beside_handleSnapshotInfo (body : SnapshotInfo) :
    Agree Beside (handleSnapshotInfo body) (handleSnapshotInfo body) := by
  refine agree_get fun z w h ↦ ?_
  have hsame : (z.bufferCovers ∧ (body.symbol : ℤ) ∈ z.completedSymbols ∧
      z.completedSymbols.card = z.totalSymbols) ↔ (w.bufferCovers ∧
        (body.symbol : ℤ) ∈ w.completedSymbols ∧ w.completedSymbols.card = w.totalSymbols) := by
    obtain ⟨m, rfl, -⟩ := h
    exact Iff.rfl
  have hopen : Agree Beside (do
        let _ ← onManager (OrderBookManager.getOrCreateBook body.symbol)
        onManager (OrderBookManager.onBook body.symbol (modify OrderBook.clear)))
      (do
        let _ ← onManager (OrderBookManager.getOrCreateBook body.symbol)
        onManager (OrderBookManager.onBook body.symbol (modify OrderBook.clear))) := by
    rw [onManager_bind]
    exact beside_onManager (OrderBookManager.beside_openBook body.symbol
      (OrderBookManager.beside_onOp body.symbol .clear OrderBook.SameButHeaps.agree_clear))
  by_cases hc : w.bufferCovers ∧ (body.symbol : ℤ) ∈ w.completedSymbols ∧
      w.completedSymbols.card = w.totalSymbols
  · rw [if_pos hc, if_pos (hsame.2 hc)]
    exact aside_complete.agree z w h
  · rw [if_neg hc, if_neg fun hz ↦ hc (hsame.1 hz)]
    exact ((aside_startSnapshot body).agree.bind fun _ ↦ hopen) z w h

theorem beside_handleSnapshotOrder (header : MDHeader) (body : NewOrder) :
    Agree Beside (handleSnapshotOrder header body) (handleSnapshotOrder header body) := by
  refine agree_get fun z w h ↦ ?_
  have hsame : z.snapState = w.snapState ∧ z.completedSymbols = w.completedSymbols := by
    obtain ⟨m, rfl, -⟩ := h
    exact ⟨rfl, rfl⟩
  rw [hsame.1, hsame.2]
  rcases w.snapState.get? body.symbol with - | state
  · exact .ok _ h.resetForResnap
  dsimp only
  by_cases hdone : (body.symbol : ℤ) ∈ w.completedSymbols
  · rw [if_pos hdone]
    exact .error _ h
  rw [if_neg hdone]
  simp only [onManager_bind_bind]
  have hload : Agree Beside (onManager (loadOrder header body))
      (onManager (loadOrder header body)) :=
    beside_onManager (OrderBookManager.beside_processNewOrder _ _ _ _ _ _ _ _)
  refine (hload.bind fun _ ↦ (aside_countOrder body.symbol state).agree.bind fun _ ↦ ?_) z w h
  split
  · exact (aside_completeSymbol body.symbol).agree.bind fun _ ↦
      (beside_onManager (OrderBookManager.beside_onBook _ OrderBook.agree_validate_readApart)).bind
        fun _ ↦ aside_decideComplete.agree
  · exact agree_pure ()

theorem beside_handleSnapshotMessage (header : MDHeader) (body : MarketDataMessage) :
    Agree Beside (handleSnapshotMessage header body) (handleSnapshotMessage header body) := by
  unfold handleSnapshotMessage
  split
  · exact beside_handleSnapshotInfo _
  · exact beside_handleSnapshotOrder header _
  · exact agree_pure ()

theorem beside_replayLoop (snap : ℕ) (l : List Message) (lastSeq : ℕ) :
    Agree Beside (replayLoop snap l lastSeq) (replayLoop snap l lastSeq) := by
  induction l generalizing lastSeq with
  | nil => exact agree_pure lastSeq
  | cons item rest ih =>
    obtain ⟨header, body⟩ := item
    rw [replayLoop]
    split
    · exact ih lastSeq
    · exact (aside_warnOnGap lastSeq header.seqNum).agree.bind fun _ ↦
        (beside_dispatch header body).bind fun _ ↦ ih header.seqNum

theorem beside_replayBufferedMessages :
    Agree Beside replayBufferedMessages replayBufferedMessages := by
  refine agree_get fun z w h ↦ ?_
  have hsame : z.liveBuffer = w.liveBuffer ∧ z.lastSnapSeqNum = w.lastSnapSeqNum := by
    obtain ⟨m, rfl, -⟩ := h
    exact ⟨rfl, rfl⟩
  rw [hsame.1, hsame.2]
  rcases deduped w.liveBuffer with - | ⟨first, rest⟩
  · exact .ok _ h.resetForResnap
  dsimp only
  split
  · exact .ok _ h.resetForResnap
  · refine (beside_replayLoop _ _ _ z w h).bind fun lastSeq ↦ Aside.agree ?_
    exact ⟨fun _ _ ↦ rfl, fun _ ↦ rfl⟩

end SnapShotSynchronizer

end HftTrading
