import HftTrading.Lib.Dict
import HftTrading.Lib.MinHeap
import HftTrading.Lib.Method
import HftTrading.MarketData.Struct
import Mathlib.Algebra.Group.Int.Defs

/-!
# The order book of one symbol

`OrderBook` with its operations as the source writes them. Each side keeps three things about the
same orders: the orders themselves (`orders`, both sides together), a dictionary of price levels,
and a heap of prices that is pushed when a level appears and cleaned only when the best price is
read, so that it may hold prices without a level and the same price more than once.

Every operation is a `Method`: what it wrote before raising stays written. The order of the writes
and of the checks is the source's, because that is what a caller that survives the exception sees.

## What is as in the source, and what is not

* The dictionaries keep their insertion order, and `validate` goes through them in that order. The
  first level or order that it finds wrong is the one it raises about.
* Quantities, prices and ids are Python integers, so they are `ℤ`, and nothing here keeps them
  positive: the source checks the quantity of an order that is added, and no other.
* The source writes each operation once for bids and once for asks, by an `if` at its head. Here the
  side is a parameter of the levels and heaps that an operation works on. Bids are on their heap
  negated, as in the source, so that the smallest element is the best price on both sides.
* A heap is its elements in order: that is all the operations on it can tell.
* A lookup that the source writes bare raises where it fails, with the key in the exception
  (`missingKey`). That none does on a book reached by its own operations is a theorem, not an
  assumption of the model.

What is logged or printed is left out; what an exception says is not, and the texts are the
source's, misspellings included.
-/

namespace HftTrading

open MarketData

/-- What the market-data side can raise, one constructor per `raise` and per failing bare lookup. -/
inductive FeedError
  | duplicateOrderId (symbol orderId : ℤ)
  | nonPositiveQty (symbol qty orderId : ℤ)
  | negativeTotalOnDelete (symbol total price orderId : ℤ)
  | negativeCountOnDelete (symbol count price orderId : ℤ)
  | tradeNotFound (symbol orderId : ℤ)
  | negativeTotalOnTrade (symbol total price orderId : ℤ)
  | negativeCountOnTrade (symbol count price orderId : ℤ)
  | inconsistentState (symbol total price : ℤ)
  | modifyNotFound (symbol orderId : ℤ)
  | crossed (symbol bid ask : ℤ)
  | levelQty (symbol : ℤ) (side : Side) (price total : ℤ)
  | levelCount (symbol : ℤ) (side : Side) (price count : ℤ)
  | noLevel (symbol orderId : ℤ) (side : Side) (price : ℤ)
  | missingKey (key : ℤ)
  | unknownOrderId (orderId : ℤ)
  | completedSymbol
  | snapshotInfoOnLive (seqNum : ℕ)
  deriving DecidableEq

/-- The exception classes these are raised as, the two that the feed handler catches. -/
inductive ErrorKind
  | valueError
  | keyError
  deriving DecidableEq

/-- The class of an error. -/
def FeedError.kind : FeedError → ErrorKind
  | .tradeNotFound .. | .modifyNotFound .. | .missingKey .. | .unknownOrderId ..
  | .snapshotInfoOnLive .. => .keyError
  | _ => .valueError

theorem FeedError.kind_ne {e : FeedError} (h : e.kind = .valueError) : e.kind ≠ .keyError := by
  rw [h]
  decide

/-- The exceptions by which a book says that it contradicts itself, a failing lookup among them. -/
def FeedError.Internal : FeedError → Prop
  | .negativeTotalOnDelete .. | .negativeCountOnDelete .. | .negativeTotalOnTrade ..
  | .negativeCountOnTrade .. | .inconsistentState .. | .levelQty .. | .levelCount .. | .noLevel ..
  | .missingKey .. => True
  | _ => False

/-- `"bid"` or `"ask"`. -/
def sideName : Side → String
  | .buy => "bid"
  | .sell => "ask"

/-- The text of an error. -/
def FeedError.text : FeedError → String
  | .duplicateOrderId symbol orderId => s!"[Book {symbol}] Duplicate order id: {orderId}"
  | .nonPositiveQty symbol qty orderId =>
    s!"[Book {symbol}] qty={qty} qty <=0 for order id: {orderId}"
  | .negativeTotalOnDelete symbol total price orderId =>
    s!"[Book {symbol}] Negative total quantity={total}" ++
      s!"price={price} after deleting order id {orderId}"
  | .negativeCountOnDelete symbol count price orderId =>
    s!"[Book {symbol}] Negative order_count={count}" ++
      s!"price={price} after deleting order id {orderId}"
  | .tradeNotFound symbol orderId => s!"[Book {symbol}] trade_oder: order_id={orderId} not found"
  | .negativeTotalOnTrade symbol total price orderId =>
    s!"[Book {symbol}] Negative total quantity={total}" ++
      s!"\nprice={price} after trading worder id {orderId}"
  | .negativeCountOnTrade symbol count price orderId =>
    s!"[Book {symbol}] Negative order_count={count}" ++
      s!"price={price} after trading order id {orderId}"
  | .inconsistentState symbol total price =>
    s!"[Book {symbol}] order_count=0 but total_qty{total}" ++
      s!"at price={price}. INCONSISTENT STATE"
  | .modifyNotFound symbol orderId =>
    s!"[Book {symbol}] modify_order: order_id={orderId} not found"
  | .crossed symbol bid ask => s!"[Book {symbol}] best bid {bid} >= best ask {ask}"
  | .levelQty symbol side price total =>
    s!"[Book {symbol}] {sideName side} level at px={price} has qty={total}"
  | .levelCount symbol side price count =>
    s!"[Book {symbol}] {sideName side} level at px={price} has order_count={count}"
  | .noLevel symbol orderId side price =>
    s!"[Book {symbol}] Order {orderId} at {sideName side} px={price} " ++
      "has no corresponding level"
  | .missingKey key => s!"{key}"
  | .unknownOrderId orderId => s!"Order_id: {orderId} not associated with symbol in order books"
  | .completedSymbol => "LOGIC is messed up"
  | .snapshotInfoOnLive seqNum =>
    s!"seq={seqNum}: SNAPSHOT_INFO (type 6) received on LIVE channel! " ++
      "This should NEVER happen. Check channel routing."

/-- `OrderBook`. -/
structure OrderBook where
  symbol : ℤ
  bidHeap : MinHeap ℤ
  bidLevels : Dict ℤ PriceLevel
  askHeap : MinHeap ℤ
  askLevels : Dict ℤ PriceLevel
  orders : Dict ℤ Order
  totalVolume : ℤ
  deriving DecidableEq

namespace OrderBook

/-- `OrderBook.__init__`. -/
def init (symbol : ℤ) : OrderBook where
  symbol := symbol
  bidHeap := .empty
  bidLevels := .empty
  askHeap := .empty
  askLevels := .empty
  orders := .empty
  totalVolume := 0

/-! ### The two sides

The source chooses between the bid and the ask fields at the head of each operation. -/

/-- The levels an operation on `side` works on. -/
def levels (b : OrderBook) : Side → Dict ℤ PriceLevel
  | .buy => b.bidLevels
  | .sell => b.askLevels

/-- The heap an operation on `side` works on. -/
def heap (b : OrderBook) : Side → MinHeap ℤ
  | .buy => b.bidHeap
  | .sell => b.askHeap

/-- Write back the orders. -/
def setOrders (b : OrderBook) (orders : Dict ℤ Order) : OrderBook := { b with orders := orders }

/-- Write back the traded volume. -/
def setVolume (b : OrderBook) (volume : ℤ) : OrderBook := { b with totalVolume := volume }

/-- Write back the levels of a side. -/
def setLevels (b : OrderBook) (side : Side) (levels : Dict ℤ PriceLevel) : OrderBook :=
  match side with
  | .buy => { b with bidLevels := levels }
  | .sell => { b with askLevels := levels }

/-- Write back the heap of a side. -/
def setHeap (b : OrderBook) (side : Side) (heap : MinHeap ℤ) : OrderBook :=
  match side with
  | .buy => { b with bidHeap := heap }
  | .sell => { b with askHeap := heap }

/-- A price as the heap of its side holds it: bids are negated, so that the smallest entry is the
best price on both sides. -/
def heapPrice : Side → ℤ → ℤ
  | .buy, price => -price
  | .sell, price => price

section Accessors

variable (b : OrderBook) (side : Side) (d : Dict ℤ Order) (v : ℤ) (l : Dict ℤ PriceLevel)
  (h : MinHeap ℤ)

@[simp] theorem orders_setOrders : (b.setOrders d).orders = d := rfl
@[simp] theorem orders_setVolume : (b.setVolume v).orders = b.orders := rfl
@[simp] theorem orders_setLevels : (b.setLevels side l).orders = b.orders := by cases side <;> rfl
@[simp] theorem orders_setHeap : (b.setHeap side h).orders = b.orders := by cases side <;> rfl

@[simp] theorem volume_setOrders : (b.setOrders d).totalVolume = b.totalVolume := rfl
@[simp] theorem volume_setVolume : (b.setVolume v).totalVolume = v := rfl
@[simp] theorem volume_setLevels : (b.setLevels side l).totalVolume = b.totalVolume := by
  cases side <;> rfl
@[simp] theorem volume_setHeap : (b.setHeap side h).totalVolume = b.totalVolume := by
  cases side <;> rfl

@[simp] theorem symbol_setOrders : (b.setOrders d).symbol = b.symbol := rfl
@[simp] theorem symbol_setVolume : (b.setVolume v).symbol = b.symbol := rfl
@[simp] theorem symbol_setLevels : (b.setLevels side l).symbol = b.symbol := by cases side <;> rfl
@[simp] theorem symbol_setHeap : (b.setHeap side h).symbol = b.symbol := by cases side <;> rfl

@[simp] theorem levels_setOrders : (b.setOrders d).levels = b.levels := by
  funext s; cases s <;> rfl
@[simp] theorem levels_setVolume : (b.setVolume v).levels = b.levels := by
  funext s; cases s <;> rfl
@[simp] theorem levels_setHeap : (b.setHeap side h).levels = b.levels := by
  funext s; cases side <;> cases s <;> rfl

@[simp] theorem heap_setOrders : (b.setOrders d).heap = b.heap := by funext s; cases s <;> rfl
@[simp] theorem heap_setVolume : (b.setVolume v).heap = b.heap := by funext s; cases s <;> rfl
@[simp] theorem heap_setLevels : (b.setLevels side l).heap = b.heap := by
  funext s; cases side <;> cases s <;> rfl

/-- Writing the levels of a side leaves those of the other. -/
theorem levels_setLevels (s : Side) :
    (b.setLevels side l).levels s = if s = side then l else b.levels s := by
  cases side <;> cases s <;> rfl

/-- Writing the heap of a side leaves that of the other. -/
theorem heap_setHeap (s : Side) :
    (b.setHeap side h).heap s = if s = side then h else b.heap s := by
  cases side <;> cases s <;> rfl

/-- No two prices are the same on a heap. -/
theorem heapPrice_injective (side : Side) : Function.Injective (heapPrice side) := by
  intro p q h
  cases side <;> simp only [heapPrice] at h <;> omega

@[simp] theorem heapPrice_heapPrice (price : ℤ) :
    heapPrice side (heapPrice side price) = price := by
  cases side
  · exact neg_neg price
  · rfl

end Accessors

/-! ### The operations -/

/-- `add_order`. -/
def addOrder (orderId symbol : ℤ) (side : Side) (qty price timestamp : ℤ) :
    Method FeedError OrderBook Unit := fun b ↦
  if b.orders.contains orderId then .error (.duplicateOrderId symbol orderId) b
  else if qty ≤ 0 then .error (.nonPositiveQty symbol qty orderId) b
  else
    let order : Order :=
      { orderId := orderId, symbol := symbol, side := side, quantity := qty, price := price,
        timestamp := timestamp }
    let b := b.setOrders (b.orders.insert orderId order)
    match (b.levels side).get? price with
    | some level =>
      let level : PriceLevel := { level with
        totalQty := level.totalQty + qty, orderCount := level.orderCount + 1 }
      .ok () (b.setLevels side ((b.levels side).insert price level))
    | none =>
      let level : PriceLevel := { price := price, totalQty := qty, orderCount := 1 }
      .ok () ((b.setLevels side ((b.levels side).insert price level)).setHeap side
        ((b.heap side).push (heapPrice side price)))

/-- `delete_order`. -/
def deleteOrder (orderId : ℤ) : Method FeedError OrderBook Unit := fun b ↦
  match b.orders.get? orderId with
  | none => .ok () b
  | some order =>
    let b := b.setOrders (b.orders.erase orderId)
    match (b.levels order.side).get? order.price with
    | none => .error (.missingKey order.price) b
    | some level =>
      let level : PriceLevel := { level with
        totalQty := level.totalQty - order.quantity, orderCount := level.orderCount - 1 }
      let b := b.setLevels order.side ((b.levels order.side).insert order.price level)
      -- consistency checks
      if level.totalQty < 0 then
        .error (.negativeTotalOnDelete b.symbol level.totalQty order.price orderId) b
      else if level.orderCount < 0 then
        .error (.negativeCountOnDelete b.symbol level.orderCount order.price orderId) b
      else if level.orderCount = 0 then
        if level.totalQty ≠ 0 then
          .error (.inconsistentState b.symbol level.totalQty order.price) b
        else .ok () (b.setLevels order.side ((b.levels order.side).erase order.price))
      else .ok () b

/-- `trade_order`. The traded price is not looked at. -/
def tradeOrder (orderId qty _price : ℤ) : Method FeedError OrderBook Unit := fun b ↦
  match b.orders.get? orderId with
  | none => .error (.tradeNotFound b.symbol orderId) b
  | some order =>
    match (b.levels order.side).get? order.price with
    | none => .error (.missingKey order.price) b
    | some level =>
      let order : Order := { order with quantity := order.quantity - qty }
      let level : PriceLevel := { level with totalQty := level.totalQty - qty }
      let b := (b.setOrders (b.orders.insert orderId order)).setVolume (b.totalVolume + qty)
      let b := b.setLevels order.side ((b.levels order.side).insert order.price level)
      if level.totalQty < 0 then
        .error (.negativeTotalOnTrade b.symbol level.totalQty order.price orderId) b
      else if order.quantity = 0 then
        let level : PriceLevel := { level with orderCount := level.orderCount - 1 }
        let b := b.setOrders (b.orders.erase orderId)
        let b := b.setLevels order.side ((b.levels order.side).insert order.price level)
        if level.orderCount < 0 then
          .error (.negativeCountOnTrade b.symbol level.orderCount order.price orderId) b
        else if level.orderCount = 0 then
          if level.totalQty ≠ 0 then
            .error (.inconsistentState b.symbol level.totalQty order.price) b
          else .ok () (b.setLevels order.side ((b.levels order.side).erase order.price))
        else .ok () b
      else .ok () b

/-- `modify_order`: a delete followed by an add under the same id, symbol and timestamp. -/
def modifyOrder (orderId : ℤ) (side : Side) (qty price : ℤ) : Method FeedError OrderBook Unit :=
  fun b ↦
    match b.orders.get? orderId with
    | none => .error (.modifyNotFound b.symbol orderId) b
    | some order =>
      (do
        deleteOrder orderId
        addOrder orderId order.symbol side qty price order.timestamp :
          Method FeedError OrderBook Unit) b

/-- `_clear_top_of_bid` and `_clear_top_of_ask`: pop prices without a level off the top. -/
def clearTop (side : Side) (b : OrderBook) : OrderBook :=
  b.setHeap side ((b.heap side).popWhile fun p ↦ !(b.levels side).contains (heapPrice side p))

/-- `get_best_bid` and `get_best_ask`: clean the top, then read its level. -/
def getBest (side : Side) : Method FeedError OrderBook (ℤ × ℤ) := fun b ↦
  let b := b.clearTop side
  match (b.heap side).peek? with
  | none => .ok (0, 0) b
  | some top =>
    let bestPrice := heapPrice side top
    match (b.levels side).get? bestPrice with
    | none => .error (.missingKey bestPrice) b
    | some level => .ok (bestPrice, level.totalQty) b

/-- `get_best_bid`. -/
def getBestBid : Method FeedError OrderBook (ℤ × ℤ) := getBest .buy

/-- `get_best_ask`. -/
def getBestAsk : Method FeedError OrderBook (ℤ × ℤ) := getBest .sell

/-- The level checks of `validate`, for one side. -/
def checkLevels (side : Side) : List (ℤ × PriceLevel) → Method FeedError OrderBook Unit
  | [] => pure ()
  | (px, lvl) :: rest => fun b ↦
    if lvl.totalQty ≤ 0 then .error (.levelQty b.symbol side px lvl.totalQty) b
    else if lvl.orderCount ≤ 0 then .error (.levelCount b.symbol side px lvl.orderCount) b
    else checkLevels side rest b

/-- The order checks of `validate`. -/
def checkOrders : List (ℤ × Order) → Method FeedError OrderBook Unit
  | [] => pure ()
  | (oid, order) :: rest => fun b ↦
    if (b.levels order.side).contains order.price then checkOrders rest b
    else .error (.noLevel b.symbol oid order.side order.price) b

/-- `validate`. -/
def validate : Method FeedError OrderBook Unit := do
  let bb ← getBestBid
  let ba ← getBestAsk
  let b ← get
  if bb.1 > 0 ∧ ba.1 > 0 ∧ bb.1 ≥ ba.1 then throw (.crossed b.symbol bb.1 ba.1)
  else do
    checkLevels .sell b.askLevels.entries
    checkLevels .buy b.bidLevels.entries
    checkOrders b.orders.entries

/-- `clear`. The traded volume stays. -/
def clear (b : OrderBook) : OrderBook :=
  { b with
    bidHeap := .empty, bidLevels := .empty, askHeap := .empty, askLevels := .empty,
    orders := .empty }

end OrderBook

end HftTrading
