import HftTrading.Lib.Dict
import HftTrading.Lib.Double
import HftTrading.OrderEntry.Protocol
import Mathlib.Algebra.BigOperators.Group.List.Basic
import Mathlib.Algebra.Order.Ring.Unbundled.Rat

/-!
# Position, exposure, PnL and the pre-trade check

The trackers of `safety.py`. Cash is a double that starts at zero and moves by products of a price
and a quantity, so it is an integer at all times, and each product and each sum is rounded to the
nearest double (`roundDouble`): what has been booked is exact only while it fits. A price has 32
bits on the wire and a quantity too, so nothing overflows. The clock is an argument of `is_valid`.

`is_valid` is a row of checks in a fixed order, each with the text that it refuses with. Those that
look at the order and the trackers come first and are one function, which gives the text of the
first that refuses (`refusal?`). The counters come behind them, and each is rolled over as the call
gets as far as it, whether the order is approved in the end or not.
-/

namespace HftTrading.OrderEntry

/-- `PositionTracker`. -/
structure PositionTracker where
  symbolPosition : Dict ℤ ℤ
  totalBought : Dict ℤ ℤ
  totalSold : Dict ℤ ℤ
  deriving DecidableEq

namespace PositionTracker

/-- `PositionTracker.__init__`. -/
def init : PositionTracker := ⟨.empty, .empty, .empty⟩

/-- `get_position`. -/
def getPosition (symbol : ℤ) (t : PositionTracker) : ℤ := (t.symbolPosition.get? symbol).getD 0

/-- Add to a symbol's total, unless there is nothing to add. -/
def addTotal (d : Dict ℤ ℤ) (symbol qty : ℤ) : Dict ℤ ℤ :=
  if qty = 0 then d else d.insert symbol ((d.get? symbol).getD 0 + qty)

/-- `update_position`. -/
def updatePosition (symbol buyQty sellQty : ℤ) (t : PositionTracker) : PositionTracker where
  symbolPosition := t.symbolPosition.insert symbol (t.getPosition symbol + buyQty - sellQty)
  totalBought := addTotal t.totalBought symbol buyQty
  totalSold := addTotal t.totalSold symbol sellQty

/-- An update moves the position of its own symbol only. -/
theorem getPosition_updatePosition (s symbol buyQty sellQty : ℤ) (t : PositionTracker) :
    (t.updatePosition symbol buyQty sellQty).getPosition s =
      t.getPosition s + if s = symbol then buyQty - sellQty else 0 := by
  show ((t.symbolPosition.insert symbol _).get? s).getD 0 = _
  rw [Dict.get?_insert]
  split
  · rename_i hs
    rw [hs, Option.getD_some]
    omega
  · rw [getPosition, add_zero]

end PositionTracker

namespace ExposureTracker

/-- What is left of an order, if it is of this symbol and side. -/
def left (symbol : ℤ) (side : Side) (entry : OeConfig) : ℤ :=
  if entry.symbol = symbol ∧ entry.side = side.value then entry.qty - entry.filled else 0

/-- The outstanding quantity of the open orders of a symbol and side. -/
def outstanding (symbol : ℤ) (side : Side) (openOrders : Dict ℤ OeConfig) : ℤ :=
  (openOrders.values.map (left symbol side)).sum

/-- `buy_exposure`. -/
def buyExposure (symbol : ℤ) (openOrders : Dict ℤ OeConfig) (position : ℤ) : ℤ :=
  position + outstanding symbol .buy openOrders

/-- `sell_exposure`. -/
def sellExposure (symbol : ℤ) (openOrders : Dict ℤ OeConfig) (position : ℤ) : ℤ :=
  -position + outstanding symbol .sell openOrders

end ExposureTracker

/-- `PnLTracker`, its cash as the integer that the double is. -/
structure PnLTracker where
  cash : ℤ
  deriving DecidableEq

namespace PnLTracker

/-- `PnLTracker.__init__`. -/
def init : PnLTracker := ⟨0⟩

/-- `on_fill_buy`. -/
def onFillBuy (quantity price : ℤ) (t : PnLTracker) : PnLTracker :=
  ⟨roundDouble (t.cash - roundDouble (price * quantity))⟩

/-- `on_fill_sell`. -/
def onFillSell (quantity price : ℤ) (t : PnLTracker) : PnLTracker :=
  ⟨roundDouble (t.cash + roundDouble (price * quantity))⟩

/-- `get_pnl`. -/
def getPnl (t : PnLTracker) : ℤ := t.cash

end PnLTracker

/-- `RiskTracker`. -/
structure RiskTracker where
  maxQtyPerOrder : ℤ
  maxQtyPerSide : ℤ
  positionLimit : ℤ
  maxExposure : ℤ
  maxOrdersPerSecond : ℕ
  maxPerSequence : ℕ
  maxUnackedOrders : ℕ
  ordersThisSecond : ℕ
  lastSecondTime : Option ℚ
  ordersThisSeqNum : ℕ
  lastSeqNum : Option ℕ
  minPnl : ℤ
  deriving DecidableEq

namespace RiskTracker

/-- `RiskTracker.__init__`. -/
def init : RiskTracker where
  maxQtyPerOrder := 1000
  maxQtyPerSide := 500
  positionLimit := 8
  maxExposure := 8
  maxOrdersPerSecond := 30
  maxPerSequence := 1000
  maxUnackedOrders := 50
  ordersThisSecond := 0
  lastSecondTime := none
  ordersThisSeqNum := 0
  lastSeqNum := none
  minPnl := -18000

/-- The per-second counter starts over once a second has passed. -/
def rollSecond (now : ℚ) (r : RiskTracker) : RiskTracker :=
  match r.lastSecondTime with
  | none => { r with ordersThisSecond := 0, lastSecondTime := some now }
  | some last =>
    if now - last ≥ 1 then { r with ordersThisSecond := 0, lastSecondTime := some now } else r

/-- The per-sequence counter starts over with a new sequence number. -/
def rollSequence (currentSeqNum : ℕ) (r : RiskTracker) : RiskTracker :=
  if some currentSeqNum ≠ r.lastSeqNum then
    { r with ordersThisSeqNum := 0, lastSeqNum := some currentSeqNum }
  else r

/-- The exposure `is_valid` looks at: every side but `BUY` counts as a sell. -/
def exposureOf (symbol side : ℤ) (openOrders : Dict ℤ OeConfig) (position : ℤ) : ℤ :=
  if side = Side.buy.value then ExposureTracker.buyExposure symbol openOrders position
  else ExposureTracker.sellExposure symbol openOrders position

/-- The checks of `is_valid` that look at the order and the trackers, in order; the text of the
first that fails. -/
def refusal? (symbol side quantity price : ℤ) (openOrders : Dict ℤ OeConfig)
    (positionTracker : PositionTracker) (pnlTracker : PnLTracker) (r : RiskTracker) :
    Option String :=
  let position := positionTracker.getPosition symbol
  let newPosition := if side = Side.buy.value then position + quantity else position - quantity
  if pnlTracker.getPnl ≤ r.minPnl then some "reached 1,000 off before min PNL stop trading"
  else if quantity ≤ 0 then some s!"non-positive quantity {quantity}"
  else if price ≤ 0 then some "non-positive price"
  else if quantity > r.maxQtyPerOrder then
    some s!"Order quantity {quantity} exceeds maximum allowed {r.maxQtyPerOrder}"
  else if quantity > r.maxQtyPerSide then
    some s!"Order quantity {quantity} exceeds maximum allowed per side {r.maxQtyPerSide}"
  else if exposureOf symbol side openOrders position + quantity > r.maxExposure then
    some s!"Order would exceed maximum exposure of {r.maxExposure} for symbol {symbol}"
  else if price ≤ 0 then some "Order price cannot be negative"
  else if |newPosition| > r.positionLimit then
    some s!"Order would exceed position limit of {r.positionLimit} for symbol {symbol}"
  else none

/-- `is_valid`. The counters move on some of the refusing paths too. -/
def isValid (symbol side quantity price : ℤ) (openOrders : Dict ℤ OeConfig)
    (positionTracker : PositionTracker) (pnlTracker : PnLTracker) (currentSeqNum : ℕ) (now : ℚ)
    (r : RiskTracker) : (Bool × String) × RiskTracker :=
  match r.refusal? symbol side quantity price openOrders positionTracker pnlTracker with
  | some reason => ((false, reason), r)
  | none =>
    let r := r.rollSecond now
    if r.ordersThisSecond ≥ r.maxOrdersPerSecond then
      ((false, s!"exceeded maximum orders per second {r.maxOrdersPerSecond}"), r)
    else
      let r := r.rollSequence currentSeqNum
      if r.ordersThisSeqNum > r.maxPerSequence then
        ((false, s!"Order quantity {quantity} exceeds maximum per sequence {r.maxPerSequence}"), r)
      else if openOrders.entries.length ≥ r.maxUnackedOrders then
        ((false, s!"Number of unacknowledged orders {openOrders.entries.length} exceeds " ++
          s!"maximum allowed {r.maxUnackedOrders}"), r)
      else
        ((true, ""), { r with
          ordersThisSecond := r.ordersThisSecond + 1
          ordersThisSeqNum := r.ordersThisSeqNum + 1 })

/-- Nothing but the counters differs. -/
structure SameLimits (r r' : RiskTracker) : Prop where
  maxExposure : r'.maxExposure = r.maxExposure
  positionLimit : r'.positionLimit = r.positionLimit

theorem SameLimits.trans {r r' r'' : RiskTracker} (h : SameLimits r r') (h' : SameLimits r' r'') :
    SameLimits r r'' :=
  ⟨h'.maxExposure.trans h.maxExposure, h'.positionLimit.trans h.positionLimit⟩

theorem sameLimits_rollSecond (now : ℚ) (r : RiskTracker) : SameLimits r (r.rollSecond now) := by
  unfold rollSecond
  rcases r.lastSecondTime with - | last
  · exact ⟨rfl, rfl⟩
  · dsimp only
    split
    · exact ⟨rfl, rfl⟩
    · exact ⟨rfl, rfl⟩

theorem sameLimits_rollSequence (currentSeqNum : ℕ) (r : RiskTracker) :
    SameLimits r (r.rollSequence currentSeqNum) := by
  unfold rollSequence
  split
  · exact ⟨rfl, rfl⟩
  · exact ⟨rfl, rfl⟩

/-- A chain of checks that refuses nothing has passed its first check, and the others. -/
theorem check_passed {p : Prop} [Decidable p] {reason : String} {rest : Option String}
    (h : (if p then some reason else rest) = none) : ¬ p ∧ rest = none := by
  split at h
  · cases h
  · rename_i hp
    exact ⟨hp, h⟩

section

variable {symbol side quantity price : ℤ} {openOrders : Dict ℤ OeConfig}
  {positionTracker : PositionTracker} {pnlTracker : PnLTracker}

/-- The check does not move the limits. -/
theorem sameLimits_isValid (currentSeqNum : ℕ) (now : ℚ) (r : RiskTracker) :
    SameLimits r (r.isValid symbol side quantity price openOrders positionTracker pnlTracker
      currentSeqNum now).2 := by
  have hsecond := sameLimits_rollSecond now r
  have hsequence := hsecond.trans (sameLimits_rollSequence currentSeqNum (r.rollSecond now))
  unfold isValid
  rcases r.refusal? symbol side quantity price openOrders positionTracker pnlTracker with - | reason
  · dsimp only
    split
    · exact hsecond
    · split
      · exact hsequence
      · split
        · exact hsequence
        · exact ⟨hsequence.maxExposure, hsequence.positionLimit⟩
  · exact ⟨rfl, rfl⟩

/-- **What an approved order satisfies**: it is of positive size, and its side's exposure has room
for it. -/
theorem exposure_of_isValid {currentSeqNum : ℕ} {now : ℚ} {r : RiskTracker}
    (h : (r.isValid symbol side quantity price openOrders positionTracker pnlTracker currentSeqNum
      now).1.1 = true) :
    0 < quantity ∧
      exposureOf symbol side openOrders (positionTracker.getPosition symbol) + quantity ≤
        r.maxExposure := by
  have hnone :
      r.refusal? symbol side quantity price openOrders positionTracker pnlTracker = none := by
    rcases hr : r.refusal? symbol side quantity price openOrders positionTracker pnlTracker with
      - | reason
    · rfl
    · unfold isValid at h
      rw [hr] at h
      cases h
  unfold refusal? at hnone
  obtain ⟨-, hnone⟩ := check_passed hnone
  obtain ⟨hquantity, hnone⟩ := check_passed hnone
  obtain ⟨-, hnone⟩ := check_passed hnone
  obtain ⟨-, hnone⟩ := check_passed hnone
  obtain ⟨-, hnone⟩ := check_passed hnone
  obtain ⟨hexposure, -⟩ := check_passed hnone
  exact ⟨not_le.1 hquantity, not_lt.1 hexposure⟩

end

end RiskTracker

end HftTrading.OrderEntry
