import HftTrading.Lib.RoundHalfEven
import HftTrading.Strategy.OrderStrategy

/-!
# The prices of a quote

What `_step_symbol` computes before it quotes, in exact rational arithmetic: the fair value, the
shift for spoofed size, the half spread in whole ticks, the inventory skew and the rounding to the
tick, away from the market. Volatility, spoof pressures and the detection of aggression are part of
the market it is computed for, and range over all their values.

The guard against crossing the book comes before the override of an extreme inventory, which prices
one side anew from the shifted fair value. So a quote crosses exactly when such an override, on a
side that is not pulled, lands on the market (`quotes_uncrossed_iff`), which takes a shift of more
than half a tick (`quotes_uncrossed`).

The half spread widens with the inventory by whole ticks, and the skew moves both prices down by a
part of one. So a longer position quotes no higher on a side exactly as far as the half spread has
not moved against the skew (`quotes_antitone`).
-/

namespace HftTrading.Strategy

open OrderEntry

/-! ### The computation -/

/-- What of `StrategyConfig` only the prices use. -/
structure PricingConfig where
  baseSpreadTicks : ℤ := 1
  maxSpreadTicks : ℤ := 4
  volatilityFactor : ℚ := 3 / 2
  skewPerUnit : ℚ := 1 / 2
  day1Mode : Bool := false

/-- What a symbol is priced on: a top of book, and what has been made of its past. -/
structure Market where
  tick : ℤ
  bb : ℤ
  bbQty : ℤ
  ba : ℤ
  baQty : ℤ
  volatility : ℚ
  bidSpoof : ℚ
  askSpoof : ℚ
  buyAggression : Bool
  sellAggression : Bool
  tick_pos : 0 < tick
  bb_pos : 0 < bb
  bb_lt_ba : bb < ba
  bbQty_pos : 0 < bbQty
  baQty_pos : 0 < baQty
  volatility_nonneg : 0 ≤ volatility
  bidSpoof_nonneg : 0 ≤ bidSpoof
  askSpoof_nonneg : 0 ≤ askSpoof

namespace Market

/-- `_compute_fair_value`. -/
def computeFairValue (bb bbQty ba baQty tick : ℤ) : ℚ :=
  let mid : ℚ := (bb + ba) / 2
  let total := bbQty + baQty
  if total = 0 then mid
  else
    let micro : ℚ := bb + (ba - bb) * (bbQty / total)
    let maxDev : ℚ := 1 / 2 * tick
    max (mid - maxDev) (min (mid + maxDev) micro)

/-- `fair`, shifted for the spoofed size. -/
def fair (m : Market) : ℚ :=
  computeFairValue m.bb m.bbQty m.ba m.baQty m.tick +
    (m.askSpoof - m.bidSpoof) * (1 / 20) * m.tick

/-- `_compute_half_spread_ticks`. -/
def computeHalfSpreadTicks (cfg : OrderStrategyConfig) (pricing : PricingConfig) (m : Market)
    (position : ℤ) : ℤ :=
  let volTicks := m.volatility / m.tick
  let inventoryRatio : ℚ := |position| / cfg.softPosition
  let half := pricing.baseSpreadTicks + volTicks * pricing.volatilityFactor +
    inventoryRatio * (3 / 2) + if pricing.day1Mode then 1 else 0
  roundHalfEven (min half pricing.maxSpreadTicks)

/-- The signals of a market, at a position. -/
def signals (cfg : OrderStrategyConfig) (pricing : PricingConfig) (m : Market) (position : ℤ) :
    Signals :=
  let halfSpreadPx : ℚ := m.computeHalfSpreadTicks cfg pricing position * m.tick
  let skewPx := -position * pricing.skewPerUnit * m.tick
  let rawBid := m.fair - halfSpreadPx + skewPx
  let rawAsk := m.fair + halfSpreadPx + skewPx
  { bidPrice := OrderStrategy.roundTick rawBid m.tick Side.buy.value
    askPrice := OrderStrategy.roundTick rawAsk m.tick Side.sell.value
    panicBid := OrderStrategy.roundTick (m.fair - m.tick) m.tick Side.buy.value
    panicAsk := OrderStrategy.roundTick (m.fair + m.tick) m.tick Side.sell.value
    buyAggression := m.buyAggression
    sellAggression := m.sellAggression }

/-- The targets that `_step_symbol` hands to `_manage_quote`, unless it returns before. -/
def targets (cfg : OrderStrategyConfig) (pricing : PricingConfig) (m : Market) (position : ℤ) :
    Option OrderStrategy.Targets :=
  let signals := m.signals cfg pricing position
  (OrderStrategy.uncrossed m.tick m.bb m.ba signals).map fun prices ↦
    OrderStrategy.widened m.tick signals (OrderStrategy.guarded cfg position signals prices)

/-! ### What is handed over -/

variable {ω : Type} {cfg : OrderStrategyConfig} {pricing : PricingConfig} {m : Market}
  {position : ℤ}

/-- **`_step_symbol` on a market**: with the signals of the market, what it hands over are its
targets. -/
theorem stepQuoted_eq (O : Outside ω) (symbol : ℤ) (pricing : PricingConfig) (m : Market)
    {x : OrderStrategy ω × OrderBookManager} {state : SymbolState}
    (hstate : x.1.state.get? symbol = some state) (htick : state.tick = m.tick)
    (hsignals : (O.signals symbol m.tick (m.bb, m.bbQty) (m.ba, m.baQty)
      (x.1.client.positionTracker.getPosition symbol) x.1.outside).1 =
      some (m.signals x.1.config pricing (x.1.client.positionTracker.getPosition symbol))) :
    let position := x.1.client.positionTracker.getPosition symbol
    OrderStrategy.stepQuoted O symbol (m.bb, m.bbQty) (m.ba, m.baQty) x =
      (match m.targets x.1.config pricing position with
        | none => pure ()
        | some t => OrderStrategy.quoteBoth O symbol m.bb m.ba
          (m.signals x.1.config pricing position) x.1.config t)
      ({ x.1 with outside := (O.signals symbol m.tick (m.bb, m.bbQty) (m.ba, m.baQty) position
          x.1.outside).2 }, x.2) := by
  intro position
  have hget : OrderStrategy.getStrategy x = .ok x.1 x := rfl
  have hprices : OrderStrategy.signals O symbol m.tick (m.bb, m.bbQty) (m.ba, m.baQty) position x =
      .ok (m.signals x.1.config pricing position) ({ x.1 with
        outside := (O.signals symbol m.tick (m.bb, m.bbQty) (m.ba, m.baQty) position
          x.1.outside).2 }, x.2) := by
    unfold OrderStrategy.signals
    rw [hsignals]
  unfold OrderStrategy.stepQuoted targets
  rw [Method.bind_ok hget, hstate]
  dsimp only
  rw [htick, Method.bind_ok hprices]
  generalize m.signals x.1.config pricing position = signals
  rcases OrderStrategy.uncrossed m.tick m.bb m.ba signals with - | prices
  · rfl
  · rfl

/-! ### Crossing the market -/

/-- What is handed over for placing or modifying does not cross the market. -/
def Uncrossing (m : Market) (t : OrderStrategy.Targets) : Prop :=
  (t.shouldBid = true → t.bidPrice < m.ba) ∧ (t.shouldAsk = true → m.bb < t.askPrice)

/-- Short beyond the panic position, with the bid still quoted, at a fair value a tick or more above
the ask, and two with an aggressive seller. -/
def BuysThrough (cfg : OrderStrategyConfig) (m : Market) (position : ℤ) : Prop :=
  position < cfg.panicPosition ∧ position ≤ -cfg.panicPosition ∧
    position + cfg.orderQty ≤ cfg.softPosition ∧ m.buyAggression = false ∧
    ((⌈(m.ba : ℚ) / m.tick⌉ + 1 + (if m.sellAggression then 1 else 0) : ℤ) : ℚ) ≤ m.fair / m.tick

/-- Long beyond the panic position, with the ask still quoted, at a fair value a tick or more below
the bid, and two with an aggressive buyer. -/
def SellsThrough (cfg : OrderStrategyConfig) (m : Market) (position : ℤ) : Prop :=
  cfg.panicPosition ≤ position ∧ position - cfg.orderQty ≥ -cfg.softPosition ∧
    m.sellAggression = false ∧
    m.fair / m.tick ≤ ((⌊(m.bb : ℚ) / m.tick⌋ - 1 - (if m.buyAggression then 1 else 0) : ℤ) : ℚ)

/-- A price is at most a number of ticks exactly when it is so rounded up. -/
theorem le_mul_tick_iff (m : Market) (price n : ℤ) :
    price ≤ n * m.tick ↔ ⌈(price : ℚ) / m.tick⌉ ≤ n := by
  have htick : (0 : ℚ) < m.tick := by exact_mod_cast m.tick_pos
  rw [Int.ceil_le, div_le_iff₀ htick]
  exact_mod_cast Iff.rfl

/-- And at least, when it is so rounded down. -/
theorem mul_tick_le_iff (m : Market) (price n : ℤ) :
    n * m.tick ≤ price ↔ n ≤ ⌊(price : ℚ) / m.tick⌋ := by
  have htick : (0 : ℚ) < m.tick := by exact_mod_cast m.tick_pos
  rw [Int.le_floor, le_div_iff₀ htick]
  exact_mod_cast Iff.rfl

/-- The bid of an extreme short inventory. -/
theorem panicBid_eq (cfg : OrderStrategyConfig) (pricing : PricingConfig) (m : Market)
    (position : ℤ) :
    (m.signals cfg pricing position).panicBid = (⌊m.fair / m.tick⌋ - 1) * m.tick := by
  have htick : (m.tick : ℚ) ≠ 0 := by exact_mod_cast m.tick_pos.ne'
  show OrderStrategy.roundTick (m.fair - m.tick) m.tick Side.buy.value = _
  unfold OrderStrategy.roundTick
  rw [if_pos rfl, sub_div, div_self htick, Int.floor_sub_one]

/-- The ask of an extreme long inventory. -/
theorem panicAsk_eq (cfg : OrderStrategyConfig) (pricing : PricingConfig) (m : Market)
    (position : ℤ) :
    (m.signals cfg pricing position).panicAsk = (⌈m.fair / m.tick⌉ + 1) * m.tick := by
  have htick : (m.tick : ℚ) ≠ 0 := by exact_mod_cast m.tick_pos.ne'
  show OrderStrategy.roundTick (m.fair + m.tick) m.tick Side.sell.value = _
  unfold OrderStrategy.roundTick
  rw [if_neg (by decide), add_div, div_self htick, Int.ceil_add_one]

/-- **The guard**: what `_step_symbol` goes on with, if it does. -/
theorem uncrossed_eq {tick bb ba : ℤ} {signals : Signals} {prices : ℤ × ℤ}
    (h : OrderStrategy.uncrossed tick bb ba signals = some prices) :
    prices = (if signals.bidPrice ≥ ba then ba - tick else signals.bidPrice,
      if signals.askPrice ≤ bb then bb + tick else signals.askPrice) := by
  unfold OrderStrategy.uncrossed at h
  dsimp only at h
  generalize (if signals.bidPrice ≥ ba then ba - tick else signals.bidPrice) = bidPrice at h ⊢
  generalize (if signals.askPrice ≤ bb then bb + tick else signals.askPrice) = askPrice at h ⊢
  split at h
  · cases h
  · split at h
    · cases h
    · exact (Option.some.inj h).symm

/-- It leaves no price across the market. -/
theorem uncrossed_prices {tick bb ba : ℤ} {signals : Signals} {prices : ℤ × ℤ} (htick : 0 < tick)
    (h : OrderStrategy.uncrossed tick bb ba signals = some prices) :
    prices.1 < ba ∧ bb < prices.2 := by
  rw [uncrossed_eq h]
  dsimp only
  constructor
  · split <;> omega
  · split <;> omega

/-- A bid made anew, and lowered by an aggressive seller, is at the ask or above. -/
theorem panicBid_through_iff (m : Market) (lowered : Bool) :
    m.ba ≤ (⌊m.fair / m.tick⌋ - 1) * m.tick - (if lowered then m.tick else 0) ↔
      ((⌈(m.ba : ℚ) / m.tick⌉ + 1 + (if lowered then 1 else 0) : ℤ) : ℚ) ≤ m.fair / m.tick := by
  have hlower : (⌊m.fair / m.tick⌋ - 1) * m.tick - (if lowered then m.tick else 0) =
      (⌊m.fair / m.tick⌋ - 1 - if lowered then 1 else 0) * m.tick := by
    cases lowered
    · rw [if_neg Bool.false_ne_true, if_neg Bool.false_ne_true, sub_zero, sub_zero]
    · rw [if_pos rfl, if_pos rfl]
      ring
  rw [hlower, le_mul_tick_iff, ← Int.le_floor]
  constructor
  · intro h
    omega
  · intro h
    omega

/-- An ask made anew, and raised by an aggressive buyer, is at the bid or below. -/
theorem panicAsk_through_iff (m : Market) (raised : Bool) :
    (⌈m.fair / m.tick⌉ + 1) * m.tick + (if raised then m.tick else 0) ≤ m.bb ↔
      m.fair / m.tick ≤ ((⌊(m.bb : ℚ) / m.tick⌋ - 1 - (if raised then 1 else 0) : ℤ) : ℚ) := by
  have hraise : (⌈m.fair / m.tick⌉ + 1) * m.tick + (if raised then m.tick else 0) =
      (⌈m.fair / m.tick⌉ + 1 + if raised then 1 else 0) * m.tick := by
    cases raised
    · rw [if_neg Bool.false_ne_true, if_neg Bool.false_ne_true, add_zero, add_zero]
    · rw [if_pos rfl, if_pos rfl]
      ring
  rw [hraise, mul_tick_le_iff, ← Int.ceil_le]
  constructor
  · intro h
    omega
  · intro h
    omega

/-- What aggressive flow leaves of two targets. -/
theorem uncrossing_widened_iff (m : Market) (signals : Signals) (t : OrderStrategy.Targets) :
    m.Uncrossing (OrderStrategy.widened m.tick signals t) ↔
      (t.shouldBid = true → signals.buyAggression = false →
        t.bidPrice - (if signals.sellAggression then m.tick else 0) < m.ba) ∧
      (t.shouldAsk = true → signals.sellAggression = false →
        m.bb < t.askPrice + if signals.buyAggression then m.tick else 0) := by
  have hbid : (OrderStrategy.widened m.tick signals t).bidPrice =
      t.bidPrice - if signals.sellAggression then m.tick else 0 := by
    show (if signals.sellAggression then t.bidPrice - m.tick else t.bidPrice) = _
    split
    · rfl
    · exact (sub_zero _).symm
  have hask : (OrderStrategy.widened m.tick signals t).askPrice =
      t.askPrice + if signals.buyAggression then m.tick else 0 := by
    show (if signals.buyAggression then t.askPrice + m.tick else t.askPrice) = _
    split
    · rfl
    · exact (add_zero _).symm
  unfold Uncrossing
  rw [hbid, hask]
  show ((t.shouldBid && !signals.buyAggression) = true → _) ∧
    ((t.shouldAsk && !signals.sellAggression) = true → _) ↔ _
  rw [Bool.and_eq_true, Bool.and_eq_true, Bool.not_eq_true', Bool.not_eq_true', and_imp, and_imp]

/-- **The quotes of one step** do not cross exactly when no override does. -/
theorem uncrossing_iff {prices : ℤ × ℤ}
    (h : OrderStrategy.uncrossed m.tick m.bb m.ba (m.signals cfg pricing position) = some prices) :
    m.Uncrossing (OrderStrategy.widened m.tick (m.signals cfg pricing position)
        (OrderStrategy.guarded cfg position (m.signals cfg pricing position) prices)) ↔
      ¬ m.BuysThrough cfg position ∧ ¬ m.SellsThrough cfg position := by
  obtain ⟨hbid, hask⟩ := uncrossed_prices m.tick_pos h
  have htick := m.tick_pos
  -- a price that the guard has left is only moved away from the market
  have hbid' : ∀ lowered : Bool, prices.1 - (if lowered then m.tick else 0) < m.ba := by
    intro lowered
    split <;> omega
  have hask' : ∀ raised : Bool, m.bb < prices.2 + if raised then m.tick else 0 := by
    intro raised
    split <;> omega
  rw [uncrossing_widened_iff]
  unfold OrderStrategy.guarded BuysThrough SellsThrough
  rw [panicBid_eq, panicAsk_eq, ← panicBid_through_iff, ← panicAsk_through_iff]
  show (_ → m.buyAggression = false → _ - (if m.sellAggression then m.tick else 0) < m.ba) ∧
    (_ → m.sellAggression = false → m.bb < _ + if m.buyAggression then m.tick else 0) ↔ _
  split
  -- long: the bid is pulled and the ask is made anew
  · rename_i hlong
    constructor
    · rintro ⟨-, hsell⟩
      refine ⟨fun hshort ↦ absurd hlong (not_le.2 hshort.1), ?_⟩
      rintro ⟨-, hroom, hquiet, hthrough⟩
      exact absurd (hsell (decide_eq_true hroom) hquiet) (not_lt.2 hthrough)
    · rintro ⟨-, hsell⟩
      refine ⟨fun hpulled ↦ absurd hpulled Bool.false_ne_true, fun hroom hquiet ↦ ?_⟩
      exact not_le.1 fun hthrough ↦ hsell ⟨hlong, of_decide_eq_true hroom, hquiet, hthrough⟩
  · rename_i hlong
    split
    -- short: the ask is pulled and the bid is made anew
    · rename_i hshort
      constructor
      · rintro ⟨hbuy, -⟩
        refine ⟨?_, fun hlong' ↦ hlong hlong'.1⟩
        rintro ⟨-, -, hroom, hquiet, hthrough⟩
        exact absurd (hbuy (decide_eq_true hroom) hquiet) (not_lt.2 hthrough)
      · rintro ⟨hbuy, -⟩
        refine ⟨fun hroom hquiet ↦ ?_, fun hpulled ↦ absurd hpulled Bool.false_ne_true⟩
        exact not_le.1 fun hthrough ↦
          hbuy ⟨not_le.1 hlong, hshort, of_decide_eq_true hroom, hquiet, hthrough⟩
    -- neither: both prices are those that the guard has left
    · rename_i hshort
      constructor
      · intro _
        exact ⟨fun hbuy ↦ hshort hbuy.2.1, fun hsell ↦ hlong hsell.1⟩
      · intro _
        exact ⟨fun _ _ ↦ hbid' _, fun _ _ ↦ hask' _⟩

/-- **Quotes do not cross the market** exactly when no override of an extreme inventory does, in the
steps that get as far as quoting. -/
theorem quotes_uncrossed_iff (cfg : OrderStrategyConfig) (pricing : PricingConfig) (m : Market)
    (position : ℤ) :
    (∀ t, m.targets cfg pricing position = some t → m.Uncrossing t) ↔
      ((OrderStrategy.uncrossed m.tick m.bb m.ba (m.signals cfg pricing position)).isSome = true →
        ¬ m.BuysThrough cfg position ∧ ¬ m.SellsThrough cfg position) := by
  unfold targets
  dsimp only
  rcases h : OrderStrategy.uncrossed m.tick m.bb m.ba (m.signals cfg pricing position) with
    - | prices
  · simp
  · rw [← uncrossing_iff h]
    constructor
    · intro hall _
      exact hall _ rfl
    · rintro hone t ht
      cases ht
      exact hone rfl

/-- The fair value, unshifted, is within half a tick of the middle. -/
theorem computeFairValue_bounds (m : Market) :
    |computeFairValue m.bb m.bbQty m.ba m.baQty m.tick - (m.bb + m.ba) / 2| ≤ 1 / 2 * m.tick := by
  have htick : (0 : ℚ) < m.tick := by exact_mod_cast m.tick_pos
  unfold computeFairValue
  dsimp only
  split
  · rw [sub_self, abs_zero]
    linarith
  · generalize (m.bb : ℚ) + (m.ba - m.bb) * (m.bbQty / ((m.bbQty + m.baQty : ℤ) : ℚ)) = micro
    rw [abs_sub_le_iff]
    constructor
    · have hmin := min_le_left ((m.bb + m.ba : ℚ) / 2 + 1 / 2 * m.tick) micro
      have hmax : max ((m.bb + m.ba : ℚ) / 2 - 1 / 2 * m.tick)
          (min ((m.bb + m.ba : ℚ) / 2 + 1 / 2 * m.tick) micro) ≤
            (m.bb + m.ba : ℚ) / 2 + 1 / 2 * m.tick := max_le (by linarith) hmin
      linarith
    · have hmax := le_max_left ((m.bb + m.ba : ℚ) / 2 - 1 / 2 * m.tick)
        (min ((m.bb + m.ba : ℚ) / 2 + 1 / 2 * m.tick) micro)
      linarith

/-- **Without a shift of more than half a tick** no quote crosses the market, at any inventory. -/
theorem quotes_uncrossed (h : |m.askSpoof - m.bidSpoof| ≤ 10) {t : OrderStrategy.Targets}
    (ht : m.targets cfg pricing position = some t) : m.Uncrossing t := by
  have htick : (0 : ℚ) < m.tick := by exact_mod_cast m.tick_pos
  have hmarket : (m.bb : ℚ) < m.ba := by exact_mod_cast m.bb_lt_ba
  obtain ⟨hup, hdown⟩ := abs_sub_le_iff.1 (computeFairValue_bounds m)
  obtain ⟨hbelow, habove⟩ := abs_le.1 h
  have hshift : (m.askSpoof - m.bidSpoof) * (1 / 20) * m.tick ≤ 1 / 2 * m.tick :=
    mul_le_mul_of_nonneg_right (by linarith) htick.le
  have hshift' : -(1 / 2) * (m.tick : ℚ) ≤ (m.askSpoof - m.bidSpoof) * (1 / 20) * m.tick :=
    mul_le_mul_of_nonneg_right (by linarith) htick.le
  obtain ⟨prices, hprices, rfl⟩ := Option.map_eq_some_iff.1 ht
  refine (uncrossing_iff hprices).2 ⟨?_, ?_⟩
  · rintro ⟨-, -, -, -, hthrough⟩
    have hceil : (m.ba : ℚ) / m.tick + 1 ≤ m.fair / m.tick := by
      refine le_trans ?_ hthrough
      have := Int.le_ceil ((m.ba : ℚ) / m.tick)
      split
      · push_cast
        linarith
      · push_cast
        linarith
    rw [← div_self htick.ne', ← add_div, div_le_div_iff_of_pos_right htick] at hceil
    unfold fair at hceil
    linarith
  · rintro ⟨-, -, -, hthrough⟩
    have hfloor : m.fair / m.tick ≤ (m.bb : ℚ) / m.tick - 1 := by
      refine hthrough.trans ?_
      have := Int.floor_le ((m.bb : ℚ) / m.tick)
      split
      · push_cast
        linarith
      · push_cast
        linarith
    rw [← div_self htick.ne', ← sub_div, div_le_div_iff_of_pos_right htick] at hfloor
    unfold fair at hfloor
    linarith

/-- A market of one tick, with this much size spoofed on the ask. -/
def oneTick (bbQty baQty : ℕ) (askSpoof : ℕ) : Market where
  tick := 5
  bb := 100
  bbQty := bbQty + 1
  ba := 105
  baQty := baQty + 1
  volatility := 0
  bidSpoof := 0
  askSpoof := askSpoof
  buyAggression := false
  sellAggression := false
  tick_pos := by decide
  bb_pos := by decide
  bb_lt_ba := by decide
  bbQty_pos := by positivity
  baQty_pos := by positivity
  volatility_nonneg := le_rfl
  bidSpoof_nonneg := le_rfl
  askSpoof_nonneg := by positivity

/-- Short five, with 40 spoofed on the ask: the bid is made anew at the ask. -/
theorem quotes_cross :
    ¬ ∀ (m : Market) (position : ℤ) (t : OrderStrategy.Targets),
      m.targets {} {} position = some t → m.Uncrossing t := by
  intro h
  have hquote : (oneTick 0 0 40).targets {} {} (-5) = some ⟨105, 135, true, false⟩ := by
    decide +kernel
  exact absurd ((h (oneTick 0 0 40) (-5) _ hquote).1 rfl) (by decide)

/-! ### The skew of the inventory -/

/-- The bid before the guard, in ticks. -/
theorem bidPrice_signals (cfg : OrderStrategyConfig) (pricing : PricingConfig) (m : Market)
    (position : ℤ) :
    (m.signals cfg pricing position).bidPrice =
      ⌊m.fair / m.tick - m.computeHalfSpreadTicks cfg pricing position -
        position * pricing.skewPerUnit⌋ * m.tick := by
  have htick : (m.tick : ℚ) ≠ 0 := by exact_mod_cast m.tick_pos.ne'
  show OrderStrategy.roundTick (m.fair - m.computeHalfSpreadTicks cfg pricing position * m.tick +
    -position * pricing.skewPerUnit * m.tick) m.tick Side.buy.value = _
  unfold OrderStrategy.roundTick
  rw [if_pos rfl]
  congr 2
  field_simp
  ring

/-- The ask before the guard, in ticks. -/
theorem askPrice_signals (cfg : OrderStrategyConfig) (pricing : PricingConfig) (m : Market)
    (position : ℤ) :
    (m.signals cfg pricing position).askPrice =
      ⌈m.fair / m.tick + m.computeHalfSpreadTicks cfg pricing position -
        position * pricing.skewPerUnit⌉ * m.tick := by
  have htick : (m.tick : ℚ) ≠ 0 := by exact_mod_cast m.tick_pos.ne'
  show OrderStrategy.roundTick (m.fair + m.computeHalfSpreadTicks cfg pricing position * m.tick +
    -position * pricing.skewPerUnit * m.tick) m.tick Side.sell.value = _
  unfold OrderStrategy.roundTick
  rw [if_neg (by decide)]
  congr 2
  field_simp
  ring

/-- A price in whole ticks below another is a tick below it. -/
theorem le_sub_of_dvd {tick price limit : ℤ} (hprice : tick ∣ price) (hlimit : tick ∣ limit)
    (h : price < limit) : price ≤ limit - tick := by
  have := Int.le_of_dvd (sub_pos.2 h) (dvd_sub hlimit hprice)
  omega

/-- **Away from an extreme inventory**, with a best bid and ask in whole ticks and no aggression,
the quotes are the rounded prices, each kept a tick off the other side. -/
theorem targets_of_quiet (hbuy : m.buyAggression = false) (hsell : m.sellAggression = false)
    (hbb : m.tick ∣ m.bb) (hba : m.tick ∣ m.ba) (hposition : |position| < cfg.panicPosition)
    {t : OrderStrategy.Targets} (ht : m.targets cfg pricing position = some t) :
    t.bidPrice = min (m.signals cfg pricing position).bidPrice (m.ba - m.tick) ∧
      t.askPrice = max (m.signals cfg pricing position).askPrice (m.bb + m.tick) := by
  have htick := m.tick_pos
  obtain ⟨hshort, hlong⟩ := abs_lt.1 hposition
  obtain ⟨prices, hprices, rfl⟩ := Option.map_eq_some_iff.1 ht
  unfold OrderStrategy.widened OrderStrategy.guarded
  rw [if_neg (not_le.2 hlong), if_neg (not_le.2 hshort)]
  show (if m.sellAggression then prices.1 - m.tick else prices.1) = _ ∧
    (if m.buyAggression then prices.2 + m.tick else prices.2) = _
  rw [hbuy, hsell, if_neg Bool.false_ne_true, if_neg Bool.false_ne_true, uncrossed_eq hprices]
  have hbid : m.tick ∣ (m.signals cfg pricing position).bidPrice := by
    rw [bidPrice_signals]
    exact dvd_mul_left _ _
  have hask : m.tick ∣ (m.signals cfg pricing position).askPrice := by
    rw [askPrice_signals]
    exact dvd_mul_left _ _
  constructor
  · dsimp only
    split
    · exact (min_eq_right (by omega)).symm
    · rename_i h
      exact (min_eq_left (le_sub_of_dvd hbid hba (not_le.1 h))).symm
  · dsimp only
    split
    · exact (max_eq_right (by omega)).symm
    · rename_i h
      have := le_sub_of_dvd hbb hask (not_le.1 h)
      exact (max_eq_left (by omega)).symm

/-- The rounded bid is no higher at the longer inventory, if the skew makes up for the half
spread. -/
theorem bidPrice_signals_le {p₁ p₂ : ℤ}
    (h : m.computeHalfSpreadTicks cfg pricing p₁ - m.computeHalfSpreadTicks cfg pricing p₂ ≤
      pricing.skewPerUnit * (p₂ - p₁)) :
    (m.signals cfg pricing p₂).bidPrice ≤ (m.signals cfg pricing p₁).bidPrice := by
  rw [bidPrice_signals, bidPrice_signals]
  refine mul_le_mul_of_nonneg_right (Int.floor_le_floor ?_) m.tick_pos.le
  linarith

/-- The rounded ask is no higher at the longer inventory, if the skew makes up for the half
spread. -/
theorem askPrice_signals_le {p₁ p₂ : ℤ}
    (h : m.computeHalfSpreadTicks cfg pricing p₂ - m.computeHalfSpreadTicks cfg pricing p₁ ≤
      pricing.skewPerUnit * (p₂ - p₁)) :
    (m.signals cfg pricing p₂).askPrice ≤ (m.signals cfg pricing p₁).askPrice := by
  rw [askPrice_signals, askPrice_signals]
  refine mul_le_mul_of_nonneg_right (Int.ceil_le_ceil ?_) m.tick_pos.le
  linarith

/-- **Being longer never quotes higher**, as far as the whole ticks of the half spread do not move
against the skew. -/
theorem quotes_antitone (cfg : OrderStrategyConfig) (pricing : PricingConfig) (m : Market)
    (hbuy : m.buyAggression = false) (hsell : m.sellAggression = false) (hbb : m.tick ∣ m.bb)
    (hba : m.tick ∣ m.ba) {p₁ p₂ : ℤ} (hp₁ : |p₁| < cfg.panicPosition)
    (hp₂ : |p₂| < cfg.panicPosition) {t₁ t₂ : OrderStrategy.Targets}
    (ht₁ : m.targets cfg pricing p₁ = some t₁) (ht₂ : m.targets cfg pricing p₂ = some t₂) :
    (m.computeHalfSpreadTicks cfg pricing p₁ - m.computeHalfSpreadTicks cfg pricing p₂ ≤
        pricing.skewPerUnit * (p₂ - p₁) → t₂.bidPrice ≤ t₁.bidPrice) ∧
      (m.computeHalfSpreadTicks cfg pricing p₂ - m.computeHalfSpreadTicks cfg pricing p₁ ≤
        pricing.skewPerUnit * (p₂ - p₁) → t₂.askPrice ≤ t₁.askPrice) := by
  obtain ⟨hbid₁, hask₁⟩ := targets_of_quiet hbuy hsell hbb hba hp₁ ht₁
  obtain ⟨hbid₂, hask₂⟩ := targets_of_quiet hbuy hsell hbb hba hp₂ ht₂
  rw [hbid₁, hask₁, hbid₂, hask₂]
  constructor
  · intro hspread
    exact min_le_min_right _ (bidPrice_signals_le hspread)
  · intro hspread
    exact max_le_max_right _ (askPrice_signals_le hspread)

/-- The half spread is wider for a larger inventory. -/
theorem computeHalfSpreadTicks_le (pricing : PricingConfig) (m : Market)
    (hsoft : 0 < cfg.softPosition) {p q : ℤ} (h : |p| ≤ |q|) :
    m.computeHalfSpreadTicks cfg pricing p ≤ m.computeHalfSpreadTicks cfg pricing q := by
  have hratio : ((|p| : ℤ) : ℚ) / cfg.softPosition ≤ ((|q| : ℤ) : ℚ) / cfg.softPosition :=
    div_le_div_of_nonneg_right (by exact_mod_cast h) (by exact_mod_cast hsoft.le)
  refine roundHalfEven_mono (min_le_min_right _ ?_)
  push_cast at hratio ⊢
  linarith

/-- Away from zero the bid follows the skew, and towards zero the ask does: there the half spread
moves with it. -/
theorem quotes_antitone_of_abs (hbuy : m.buyAggression = false) (hsell : m.sellAggression = false)
    (hbb : m.tick ∣ m.bb) (hba : m.tick ∣ m.ba) (hsoft : 0 < cfg.softPosition)
    (hskew : 0 ≤ pricing.skewPerUnit) {p₁ p₂ : ℤ} (hlt : p₁ < p₂)
    (hp₁ : |p₁| < cfg.panicPosition) (hp₂ : |p₂| < cfg.panicPosition)
    {t₁ t₂ : OrderStrategy.Targets} (ht₁ : m.targets cfg pricing p₁ = some t₁)
    (ht₂ : m.targets cfg pricing p₂ = some t₂) :
    (|p₁| ≤ |p₂| → t₂.bidPrice ≤ t₁.bidPrice) ∧ (|p₂| ≤ |p₁| → t₂.askPrice ≤ t₁.askPrice) := by
  have hfurther : (p₁ : ℚ) ≤ p₂ := by exact_mod_cast hlt.le
  have hroom : 0 ≤ pricing.skewPerUnit * (p₂ - p₁) := mul_nonneg hskew (sub_nonneg.2 hfurther)
  have hwider : ∀ {p q : ℤ}, |p| ≤ |q| → (m.computeHalfSpreadTicks cfg pricing p : ℚ) -
      m.computeHalfSpreadTicks cfg pricing q ≤ pricing.skewPerUnit * (p₂ - p₁) := by
    intro p q hle
    have hspread := computeHalfSpreadTicks_le pricing m hsoft hle
    exact (sub_nonpos.2 (by exact_mod_cast hspread)).trans hroom
  obtain ⟨hbid₁, hask₁⟩ := targets_of_quiet hbuy hsell hbb hba hp₁ ht₁
  obtain ⟨hbid₂, hask₂⟩ := targets_of_quiet hbuy hsell hbb hba hp₂ ht₂
  rw [hbid₁, hask₁, hbid₂, hask₂]
  constructor
  · intro hle
    exact min_le_min_right _ (bidPrice_signals_le (hwider hle))
  · intro hle
    exact max_le_max_right _ (askPrice_signals_le (hwider hle))

/-- With a position of one more, the prices are no higher. -/
theorem quotes_antitone_oneTick : ∃ t₁ t₂ : OrderStrategy.Targets,
    (oneTick 0 0 0).targets {} {} 0 = some t₁ ∧ (oneTick 0 0 0).targets {} {} 1 = some t₂ ∧
      t₂.bidPrice ≤ t₁.bidPrice ∧ t₂.askPrice ≤ t₁.askPrice := by
  have ht₁ : (oneTick 0 0 0).targets {} {} 0 = some ⟨95, 110, true, true⟩ := by decide +kernel
  have ht₂ : (oneTick 0 0 0).targets {} {} 1 = some ⟨95, 105, true, true⟩ := by decide +kernel
  have hp₁ : |(0 : ℤ)| < ({} : OrderStrategyConfig).panicPosition := by decide
  have hp₂ : |(1 : ℤ)| < ({} : OrderStrategyConfig).panicPosition := by decide
  have h := quotes_antitone {} {} (oneTick 0 0 0) rfl rfl (by decide) (by decide) hp₁ hp₂ ht₁ ht₂
  exact ⟨_, _, ht₁, ht₂, h.1 (by decide +kernel), h.2 (by decide +kernel)⟩

/-- A bid for ten at 100 and an ask for ten at 110, and a seller who is aggressive. -/
def sellerAhead : Market where
  tick := 5
  bb := 100
  bbQty := 10
  ba := 110
  baQty := 10
  volatility := 0
  bidSpoof := 0
  askSpoof := 0
  buyAggression := false
  sellAggression := true
  tick_pos := by decide
  bb_pos := by decide
  bb_lt_ba := by decide
  bbQty_pos := by decide
  baQty_pos := by decide
  volatility_nonneg := le_rfl
  bidSpoof_nonneg := le_rfl
  askSpoof_nonneg := le_rfl

-- one share longer, the bid is a tick lower
example : [0, 1].map (sellerAhead.targets { orderQty := 1 } {}) =
    [some ⟨95, 110, true, false⟩, some ⟨90, 110, true, false⟩] := by decide +kernel

/-- A market with its best prices off the tick, and 16 spoofed on the ask. -/
def offTick : Market where
  tick := 5
  bb := 101
  bbQty := 1
  ba := 103
  baQty := 1
  volatility := 0
  bidSpoof := 0
  askSpoof := 16
  buyAggression := false
  sellAggression := false
  tick_pos := by decide
  bb_pos := by decide
  bb_lt_ba := by decide
  bbQty_pos := by decide
  baQty_pos := by decide
  volatility_nonneg := le_rfl
  bidSpoof_nonneg := le_rfl
  askSpoof_nonneg := by norm_num

/-- **Being longer can quote higher**: in whole ticks, where the half spread widens by one from a
position of 1 to one of 2, and off the tick, where the guard puts the bid at -4 below the one at
-3, with the same half spread. -/
theorem quotes_rise :
    (¬ ∀ (m : Market) (p₁ p₂ : ℤ) (t₁ t₂ : OrderStrategy.Targets), m.buyAggression = false →
      m.sellAggression = false → m.tick ∣ m.bb → m.tick ∣ m.ba → p₁ < p₂ → |p₁| < 5 → |p₂| < 5 →
      m.targets {} {} p₁ = some t₁ → m.targets {} {} p₂ = some t₂ →
      t₂.bidPrice ≤ t₁.bidPrice ∧ t₂.askPrice ≤ t₁.askPrice) ∧
    ¬ ∀ (m : Market) (p₁ p₂ : ℤ) (t₁ t₂ : OrderStrategy.Targets), m.buyAggression = false →
      m.sellAggression = false → p₁ < p₂ → |p₁| < 5 → |p₂| < 5 →
      m.computeHalfSpreadTicks {} {} p₁ = m.computeHalfSpreadTicks {} {} p₂ →
      m.targets {} {} p₁ = some t₁ → m.targets {} {} p₂ = some t₂ →
      t₂.bidPrice ≤ t₁.bidPrice ∧ t₂.askPrice ≤ t₁.askPrice := by
  constructor
  · intro h
    exact absurd (h (oneTick 0 2 0) 1 2 ⟨90, 105, true, true⟩ ⟨85, 110, true, true⟩ rfl rfl
      (by decide) (by decide) (by decide) (by decide) (by decide) (by decide +kernel)
      (by decide +kernel)).2 (by decide)
  · intro h
    exact absurd (h offTick (-4) (-3) ⟨98, 130, true, true⟩ ⟨100, 125, true, true⟩ rfl rfl
      (by decide) (by decide) (by decide) (by decide +kernel) (by decide +kernel)
      (by decide +kernel)).1 (by decide)

end Market

end HftTrading.Strategy
