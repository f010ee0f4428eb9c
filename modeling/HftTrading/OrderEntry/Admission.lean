import HftTrading.Lib.FixedWindow
import HftTrading.OrderEntry.Safety
import Mathlib.Algebra.Order.Ring.Rat

/-!
# Which orders the pre-trade check approves

`isValid_approves_iff` says it for one call: no check of the order refuses, and the counters have
room. The rest is about runs of calls.

The per-second counter is a fixed-window counter (`step_isValid`): it starts over at the first call
that gets as far as the counter a second or more after it last started. So it lets at most its limit
through in each of its windows (`approved_in_window`), and at most twice its limit in an interval
shorter than a second (`approved_le`), which it can reach: a full count late in one window, and
another right after the counter has started over (`approved_in_a_second`).

A run here is a list of calls with all their arguments, the time among them, from any tracker. The
orders, positions and cash that the calls are made with are given anew for each call, so nothing is
assumed of how they came about. What a counter of this kind does is not a matter of this tracker; it
is shown once that a call is a step of one, and refused calls may be steps that do not count.
-/

namespace HftTrading.OrderEntry.RiskTracker

/-! ### One call -/

section

variable {symbol side quantity price : ℤ} {openOrders : Dict ℤ OeConfig}
  {positionTracker : PositionTracker} {pnlTracker : PnLTracker} {currentSeqNum : ℕ} {now : ℚ}
  {r : RiskTracker}

/-- What the per-second counter comes to. -/
def window (r : RiskTracker) : FixedWindow ℚ := ⟨r.lastSecondTime, r.ordersThisSecond⟩

/-- Rolling the per-second counter touches nothing but its two fields. -/
theorem rollSecond_eq (now : ℚ) (r : RiskTracker) :
    r.rollSecond now = { r with
      ordersThisSecond := (r.window.roll 1 now).count
      lastSecondTime := (r.window.roll 1 now).start } := by
  unfold rollSecond FixedWindow.roll window
  rcases hlast : r.lastSecondTime with - | last
  · rfl
  · dsimp only
    split
    · rfl
    · rw [← hlast]

/-- Rolling the per-sequence counter touches nothing but its two fields. -/
theorem rollSequence_eq (currentSeqNum : ℕ) (r : RiskTracker) :
    r.rollSequence currentSeqNum = { r with
      ordersThisSeqNum :=
        if some currentSeqNum ≠ r.lastSeqNum then 0 else r.ordersThisSeqNum
      lastSeqNum := some currentSeqNum } := by
  unfold rollSequence
  split
  · rfl
  · rename_i h
    rw [not_not] at h
    rw [h]

/-- What no check of the order refuses. -/
theorem refusal?_eq_none_iff :
    r.refusal? symbol side quantity price openOrders positionTracker pnlTracker = none ↔
      r.minPnl < pnlTracker.getPnl ∧ 0 < quantity ∧ 0 < price ∧ quantity ≤ r.maxQtyPerOrder ∧
        quantity ≤ r.maxQtyPerSide ∧
        exposureOf symbol side openOrders (positionTracker.getPosition symbol) + quantity ≤
          r.maxExposure ∧
        |if side = Side.buy.value then positionTracker.getPosition symbol + quantity
          else positionTracker.getPosition symbol - quantity| ≤ r.positionLimit := by
  constructor
  -- the checks in the order they are made; the price is checked twice
  · intro h
    unfold refusal? at h
    obtain ⟨hpnl, h⟩ := check_passed h
    obtain ⟨hquantity, h⟩ := check_passed h
    obtain ⟨hprice, h⟩ := check_passed h
    obtain ⟨horder, h⟩ := check_passed h
    obtain ⟨hside, h⟩ := check_passed h
    obtain ⟨hexposure, h⟩ := check_passed h
    obtain ⟨-, h⟩ := check_passed h
    obtain ⟨hposition, -⟩ := check_passed h
    exact ⟨not_le.1 hpnl, not_le.1 hquantity, not_le.1 hprice, not_lt.1 horder, not_lt.1 hside,
      not_lt.1 hexposure, not_lt.1 hposition⟩
  · rintro ⟨hpnl, hquantity, hprice, horder, hside, hexposure, hposition⟩
    unfold refusal?
    dsimp only
    rw [if_neg (not_le.2 hpnl), if_neg (not_le.2 hquantity), if_neg (not_le.2 hprice),
      if_neg (not_lt.2 horder), if_neg (not_lt.2 hside), if_neg (not_lt.2 hexposure),
      if_neg (not_le.2 hprice), if_neg (not_lt.2 hposition)]

/-- **What `is_valid` approves**: an order that no check refuses, while neither counter is exhausted
and there is room for another open order. -/
theorem isValid_approves_iff :
    (r.isValid symbol side quantity price openOrders positionTracker pnlTracker currentSeqNum
      now).1.1 = true ↔
      r.refusal? symbol side quantity price openOrders positionTracker pnlTracker = none ∧
        (r.rollSecond now).ordersThisSecond < r.maxOrdersPerSecond ∧
        (r.rollSequence currentSeqNum).ordersThisSeqNum ≤ r.maxPerSequence ∧
        openOrders.entries.length < r.maxUnackedOrders := by
  unfold isValid
  rcases r.refusal? symbol side quantity price openOrders positionTracker pnlTracker with
    - | reason
  · dsimp only
    rw [rollSecond_eq, rollSequence_eq, rollSequence_eq]
    dsimp only
    generalize (if some currentSeqNum ≠ r.lastSeqNum then 0 else r.ordersThisSeqNum) = inSequence
    simp only [ge_iff_le, gt_iff_lt, true_and]
    split
    · simp only [Bool.false_eq_true, false_iff]
      omega
    · split
      · simp only [Bool.false_eq_true, false_iff]
        omega
      · split
        · simp only [Bool.false_eq_true, false_iff]
          omega
        · simp only [true_iff]
          omega
  · simp

/-- Limits that leave room for an order that closes a position. -/
structure Coherent (r : RiskTracker) : Prop where
  side_le_order : r.maxQtyPerSide ≤ r.maxQtyPerOrder
  maxExposure_nonneg : 0 ≤ r.maxExposure
  positionLimit_nonneg : 0 ≤ r.positionLimit
  maxUnackedOrders_pos : 0 < r.maxUnackedOrders

/-- Those that the tracker is made with do. -/
theorem coherent_init : init.Coherent :=
  ⟨by decide, by decide, by decide, by decide⟩

/-- **One call** is one step of the per-second counter, and leaves its limit as it is. -/
theorem step_isValid :
    (r.isValid symbol side quantity price openOrders positionTracker pnlTracker currentSeqNum
        now).2.maxOrdersPerSecond = r.maxOrdersPerSecond ∧
      FixedWindow.Step r.maxOrdersPerSecond 1 now r.window
        (r.isValid symbol side quantity price openOrders positionTracker pnlTracker currentSeqNum
          now).1.1
        (r.isValid symbol side quantity price openOrders positionTracker pnlTracker currentSeqNum
          now).2.window := by
  unfold isValid
  rcases r.refusal? symbol side quantity price openOrders positionTracker pnlTracker with
    - | reason
  · dsimp only
    rw [rollSecond_eq, rollSequence_eq]
    dsimp only
    generalize (if some currentSeqNum ≠ r.lastSeqNum then 0 else r.ordersThisSeqNum) = inSequence
    split
    · exact ⟨rfl, .refused r.window⟩
    -- an order that one of the other counters refuses is not counted
    · rename_i hsecond
      split
      · exact ⟨rfl, .refused r.window⟩
      · split
        · exact ⟨rfl, .refused r.window⟩
        · exact ⟨rfl, .admitted r.window (not_le.1 hsecond)⟩
  · exact ⟨rfl, .unseen r.window⟩

end

/-! ### Runs of calls -/

/-- A call of `is_valid`: its arguments, and the reading of the clock. -/
structure Check where
  symbol : ℤ
  side : ℤ
  quantity : ℤ
  price : ℤ
  openOrders : Dict ℤ OeConfig
  positionTracker : PositionTracker
  pnlTracker : PnLTracker
  currentSeqNum : ℕ
  now : ℚ

/-- The answer to a call, and the tracker after it. -/
def Check.answer (check : Check) (r : RiskTracker) : (Bool × String) × RiskTracker :=
  r.isValid check.symbol check.side check.quantity check.price check.openOrders
    check.positionTracker check.pnlTracker check.currentSeqNum check.now

/-- The verdicts of a run of calls, each with its reading of the clock. -/
def verdicts : List Check → RiskTracker → List (ℚ × Bool)
  | [], _ => []
  | check :: checks, r => (check.now, (check.answer r).1.1) :: verdicts checks (check.answer r).2

/-- How many calls of a run return `True` from one time to another, both included. -/
def approved (a b : ℚ) (checks : List Check) (r : RiskTracker) : ℕ :=
  FixedWindow.admitted a b (verdicts checks r)

/-- One verdict for each question, in order. -/
theorem map_fst_verdicts (checks : List Check) (r : RiskTracker) :
    (verdicts checks r).map Prod.fst = checks.map Check.now := by
  induction checks generalizing r with
  | nil => rfl
  | cons check checks ih =>
    show check.now :: (verdicts checks (check.answer r).2).map Prod.fst = _
    rw [ih]
    rfl

/-- The tracker after a run of calls. -/
def afterChecks (checks : List Check) (r : RiskTracker) : RiskTracker :=
  checks.foldl (fun r check ↦ (check.answer r).2) r

/-- One more question comes to the tracker as the others left it. -/
theorem afterChecks_concat (checks : List Check) (check : Check) (r : RiskTracker) :
    afterChecks (checks ++ [check]) r = (check.answer (afterChecks checks r)).2 :=
  List.foldl_append

theorem verdicts_concat (checks : List Check) (check : Check) (r : RiskTracker) :
    verdicts (checks ++ [check]) r =
      verdicts checks r ++ [(check.now, (check.answer (afterChecks checks r)).1.1)] := by
  induction checks generalizing r with
  | nil => rfl
  | cons first checks ih => exact congrArg _ (ih (first.answer r).2)

/-- **A run of calls** is a run of the per-second counter. -/
theorem run_verdicts (checks : List Check) (r : RiskTracker) :
    FixedWindow.Run r.maxOrdersPerSecond 1 r.window (verdicts checks r) := by
  induction checks generalizing r with
  | nil => exact .nil r.window
  | cons check checks ih =>
    obtain ⟨hlimit, hstep⟩ : (check.answer r).2.maxOrdersPerSecond = r.maxOrdersPerSecond ∧
      FixedWindow.Step r.maxOrdersPerSecond 1 check.now r.window (check.answer r).1.1
        (check.answer r).2.window := step_isValid
    have hrest := ih (check.answer r).2
    rw [hlimit] at hrest
    exact .cons hstep hrest

section

variable {checks : List Check} {r : RiskTracker} {a b : ℚ}

/-- In the second after the counter has started over, it lets its limit through at the most. -/
theorem approved_in_window (hclock : (checks.map Check.now).Pairwise (· ≤ ·)) {start : ℚ}
    (hstart : r.lastSecondTime = some start) (hb : b - start < 1) :
    approved a b checks r + r.ordersThisSecond ≤ max r.maxOrdersPerSecond r.ordersThisSecond :=
  (run_verdicts checks r).admitted_le_room (by rwa [map_fst_verdicts]) hstart hb

/-- **In an interval shorter than a second** at most twice the limit is approved, on whatever
trackers and arguments the calls are made. -/
theorem approved_le (hclock : (checks.map Check.now).Pairwise (· ≤ ·)) (hab : b - a < 1) :
    approved a b checks r ≤ 2 * r.maxOrdersPerSecond :=
  (run_verdicts checks r).admitted_le (by rwa [map_fst_verdicts]) hab

/-- A call for one share at a price of one, with nothing open and no position. -/
def smallCheck (now : ℚ) : Check :=
  ⟨1, Side.buy.value, 1, 1, .empty, .init, .init, 0, now⟩

/-- One call starts the counter, 29 come just before it starts over and 40 right then. -/
def burst : List Check :=
  smallCheck 0 :: (List.replicate 29 (smallCheck (9 / 10)) ++ List.replicate 40 (smallCheck 1))

theorem clock_burst : (burst.map Check.now).Pairwise (· ≤ ·) := by decide +kernel

/-- In the tenth of a second across which the counter starts over 59 are approved, the last ten are
not, and the bound is 60. -/
theorem approved_le_burst :
    approved (9 / 10) 1 burst .init = 59 ∧
      approved (9 / 10) 1 burst .init ≤ 2 * RiskTracker.init.maxOrdersPerSecond :=
  ⟨by decide +kernel, approved_le clock_burst (by decide +kernel)⟩

/-- So more than 30 are approved within a tenth of a second. -/
theorem approved_in_a_second :
    ¬ ∀ (checks : List Check) (a b : ℚ), (checks.map Check.now).Pairwise (· ≤ ·) → b - a < 1 →
      approved a b checks .init ≤ RiskTracker.init.maxOrdersPerSecond := by
  intro h
  have hfew := h burst (9 / 10) 1 clock_burst (by decide +kernel)
  revert hfew
  decide +kernel

end

end HftTrading.OrderEntry.RiskTracker
