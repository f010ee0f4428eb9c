import HftTrading.Strategy.Aggression
import HftTrading.Strategy.Apart
import HftTrading.Strategy.Pricing
import HftTrading.Strategy.SpoofDetector

/-!
# What a symbol is priced on

`_step_symbol` prices a symbol on the top of its book and on what the strategy remembers of its
past: the middles of the last hundred steps, the trade summaries, and what the spoof detector has
counted, which it is told by `on_raw_message`. Here that memory is a state like any other
(`Senses`), and of what is outside only the clock and the answers of the ETF service are left. The
square root is a parameter.

So the prices of every step are those of a `Market` of which each part is known (`Told`): the
pressures, for one, from the history of what the detector has been told. As these only take a quote
across the market by a shift of more than half a tick, **no quote crosses, in any run, while the
spoofs seen on each side are small** (`uncrossing_of_runs`).

## What is exact and what is not

All of it is computed in exact rational arithmetic, the averages of the detector among them, where
the program computes with doubles. An order that comes out at exactly a multiple of the average of
its symbol may be taken for a spoof here and not there, or the other way round.

## What is only asked for when it has been checked

The signals are a function of any top of book, and the statement about them needs one that
`_step_symbol` has found fit to be quoted on. The strategy asks for no other: with an outside that
gives signals for these alone (`Outside.checked`) every run is the same.
-/

namespace HftTrading.Strategy

open OrderEntry Method OrderStrategy
open MarketData (MDHeader MarketDataMessage TradeSummary)

variable {ω : Type}

/-! ### What is checked before -/

/-- What `_step_symbol` has checked when it prices a symbol. -/
def Quotable (tick : ℤ) (bid ask : ℤ × ℤ) : Prop :=
  0 < tick ∧ (0 < bid.1 ∧ 0 < ask.1 ∧ bid.1 ≤ ask.1) ∧ 0 < bid.2 ∧ 0 < ask.2

instance (tick : ℤ) (bid ask : ℤ × ℤ) : Decidable (Quotable tick bid ask) :=
  inferInstanceAs (Decidable (_ ∧ _))

/-- The same outside, if it is only asked for the signals of what has been checked. -/
def Outside.checked (O : Outside ω) : Outside ω :=
  { O with
    signals := fun symbol tick bid ask position w ↦
      if Quotable tick bid ask then O.signals symbol tick bid ask position w else (none, w) }

theorem getTick_pos (symbol : ℤ) : 0 < getTick symbol := by
  have hall : ∀ tick ∈ TICK_SIZE.values, 0 < tick := by decide
  unfold getTick
  rcases h : TICK_SIZE.get? symbol with - | tick
  · decide
  · exact hall tick (Dict.mem_values_iff.2 ⟨symbol, h⟩)

/-- On a top of book that is fit, the signals are the same. -/
theorem signals_checked (O : Outside ω) {symbol tick : ℤ} {bid ask : ℤ × ℤ} {position : ℤ}
    (h : Quotable tick bid ask) :
    signals O.checked symbol tick bid ask position = signals O symbol tick bid ask position := by
  have heq : O.checked.signals symbol tick bid ask position =
      O.signals symbol tick bid ask position := funext fun w ↦ if_pos h
  unfold signals
  rw [heq]

/-- One symbol that has prices and sizes. -/
theorem stepQuoted_checked (O : Outside ω) {symbol : ℤ} {bid ask : ℤ × ℤ}
    (hprices : ¬(bid.1 ≤ 0 ∨ ask.1 ≤ 0 ∨ bid.1 > ask.1)) (hsizes : ¬(bid.2 ≤ 0 ∨ ask.2 ≤ 0)) :
    stepQuoted O.checked symbol bid ask = stepQuoted O symbol bid ask := by
  unfold stepQuoted
  refine congrArg (getStrategy >>= ·) (funext fun s ↦ ?_)
  rcases s.state.get? symbol with - | state
  · rfl
  have h : Quotable state.tick bid ask := by
    refine ⟨state.tick_eq ▸ getTick_pos _, ?_, ?_⟩
    · omega
    · omega
  dsimp only
  rw [signals_checked O h]
  rfl

theorem stepSymbol_checked (O : Outside ω) (symbol : ℤ) :
    stepSymbol O.checked symbol = stepSymbol O symbol := by
  unfold stepSymbol
  refine congrArg (best? symbol .buy >>= ·) (funext fun bid ↦
    congrArg (best? symbol .sell >>= ·) (funext fun ask ↦ ?_))
  rcases bid with - | bid
  · rfl
  rcases ask with - | ask
  · rfl
  dsimp only
  split
  · rfl
  · split
    · rfl
    · exact stepQuoted_checked O ‹_› ‹_›

theorem flattenLoop_checked (O : Outside ω) (deadline : ℚ) (turns attempt : ℕ) :
    flattenLoop O.checked deadline turns attempt = flattenLoop O deadline turns attempt := by
  induction turns generalizing attempt with
  | zero => rfl
  | succ turns ih =>
    unfold flattenLoop
    rw [ih]
    rfl

theorem goFlat_checked (O : Outside ω) : goFlat O.checked = goFlat O := by
  unfold goFlat
  simp only [flattenLoop_checked]
  rfl

theorem buyBasket_checked (O : Outside ω) (syms filled : List ℤ) :
    ETFArbEngine.buyBasket O.checked syms filled = ETFArbEngine.buyBasket O syms filled := by
  induction syms generalizing filled with
  | nil => rfl
  | cons sym syms ih =>
    unfold ETFArbEngine.buyBasket
    simp only [ih]
    rfl

theorem executeCreateArb_checked (O : Outside ω) (undyBid : ℤ) :
    ETFArbEngine.executeCreateArb O.checked undyBid = ETFArbEngine.executeCreateArb O undyBid := by
  unfold ETFArbEngine.executeCreateArb
  rw [buyBasket_checked]
  rfl

theorem etfStep_checked (O : Outside ω) :
    ETFArbEngine.step O.checked = ETFArbEngine.step O := by
  unfold ETFArbEngine.step ETFArbEngine.stepPriced
  simp only [executeCreateArb_checked]
  rfl

/-- **The signals are only asked for what has been checked.** -/
theorem onMarketDataUpdate_checked (O : Outside ω) :
    onMarketDataUpdate O.checked = onMarketDataUpdate O := by
  have h : stepSymbol O.checked = stepSymbol O := funext (stepSymbol_checked O)
  unfold onMarketDataUpdate
  rw [h, goFlat_checked, etfStep_checked]
  rfl

/-- **Every run is the same.** -/
theorem runEvents_checked (O : Outside ω) (events : List Event) :
    runEvents O.checked events = runEvents O events := by
  have h : Event.method O.checked = Event.method O := funext fun event ↦ by
    cases event with
    | marketDataUpdate => exact onMarketDataUpdate_checked O
    | goFlat => exact goFlat_checked O
    | _ => rfl
  unfold runEvents
  rw [h]

/-! ### What is computed -/

/-- `_compute_volatility`. -/
def computeVolatility (sqrt : ℚ → ℚ) (mids : List ℚ) : ℚ :=
  if mids.length < 10 then 0
  else
    let changes := List.zipWith (fun m prev ↦ m - prev) mids.tail mids
    if changes = [] then 0
    else
      let mean : ℚ := changes.sum / changes.length
      let var : ℚ := (changes.map fun c ↦ (c - mean) ^ 2).sum / changes.length
      sqrt var

/-- The fair value of a top of book, shifted for the spoofed size. -/
def shiftedFair (tick : ℤ) (bid ask : ℤ × ℤ) (bidSpoof askSpoof : ℚ) : ℚ :=
  Market.computeFairValue bid.1 bid.2 ask.1 ask.2 tick + (askSpoof - bidSpoof) * (1 / 20) * tick

/-- `_compute_half_spread_ticks`, and the prices that `_step_symbol` makes of it. -/
def pricesAt (cfg : OrderStrategyConfig) (pricing : PricingConfig) (tick : ℤ) (volatility fair : ℚ)
    (position : ℤ) (buyAggression sellAggression : Bool) : Signals :=
  let volTicks := volatility / tick
  let inventoryRatio : ℚ := |position| / cfg.softPosition
  let half := pricing.baseSpreadTicks + volTicks * pricing.volatilityFactor +
    inventoryRatio * (3 / 2) + if pricing.day1Mode then 1 else 0
  let halfSpreadPx : ℚ := roundHalfEven (min half pricing.maxSpreadTicks) * tick
  let skewPx := -position * pricing.skewPerUnit * tick
  { bidPrice := roundTick (fair - halfSpreadPx + skewPx) tick Side.buy.value
    askPrice := roundTick (fair + halfSpreadPx + skewPx) tick Side.sell.value
    panicBid := roundTick (fair - tick) tick Side.buy.value
    panicAsk := roundTick (fair + tick) tick Side.sell.value
    buyAggression := buyAggression
    sellAggression := sellAggression }

/-- On a market these are its signals. -/
theorem signals_eq_pricesAt (cfg : OrderStrategyConfig) (pricing : PricingConfig) (m : Market)
    (position : ℤ) : m.signals cfg pricing position = pricesAt cfg pricing m.tick m.volatility
      (shiftedFair m.tick (m.bb, m.bbQty) (m.ba, m.baQty) m.bidSpoof m.askSpoof) position
      m.buyAggression m.sellAggression := rfl

/-- A volatility is not negative, if no square root is. -/
theorem computeVolatility_nonneg {sqrt : ℚ → ℚ} (hsqrt : ∀ v, 0 ≤ v → 0 ≤ sqrt v)
    (mids : List ℚ) : 0 ≤ computeVolatility sqrt mids := by
  unfold computeVolatility
  split
  · exact le_rfl
  dsimp only
  split
  · exact le_rfl
  refine hsqrt _ (div_nonneg (List.sum_nonneg fun v hv ↦ ?_) (Nat.cast_nonneg _))
  obtain ⟨c, -, rfl⟩ := List.mem_map.1 hv
  exact sq_nonneg _

/-! ### The memory -/

/-- A symbol has been priced: on which top of book and at which position, what the spoof detector
had been told until then, and what came of it, unless it raised. -/
structure Quotation where
  symbol : ℤ
  tick : ℤ
  bid : ℤ × ℤ
  ask : ℤ × ℤ
  position : ℤ
  heard : List SpoofDetector.Call
  signals : Option Signals
  deriving DecidableEq

/-- The middle of the top of book. -/
def Quotation.mid (p : Quotation) : ℚ := (p.bid.1 + p.ask.1) / 2

/-- What is handed over for quoting, unless `_step_symbol` returns before. -/
def Quotation.targets (cfg : OrderStrategyConfig) (p : Quotation) : Option Targets :=
  p.signals.bind fun signals ↦ (uncrossed p.tick p.bid.1 p.ask.1 signals).map fun prices ↦
    widened p.tick signals (guarded cfg p.position signals prices)

/-- It has been priced on these middles, and on what the detector had counted by then. -/
def Quotation.Sensed (sqrt : ℚ → ℚ) (cfg : OrderStrategyConfig) (pricing : PricingConfig)
    (mids : List ℚ) (p : Quotation) : Prop :=
  let detector := SpoofDetector.run p.heard
  let fair := shiftedFair p.tick p.bid p.ask (detector.spoofQty .buy p.symbol)
    (detector.spoofQty .sell p.symbol)
  match p.signals with
  | none => cfg.softPosition = 0
  | some signals => cfg.softPosition ≠ 0 ∧
    signals = pricesAt cfg pricing p.tick (computeVolatility sqrt mids) fair p.position
      signals.buyAggression signals.sellAggression

/-- What the strategy remembers of the past of its symbols, and what is outside. The fields `heard`
and `priced` are records and not state: no operation reads them. -/
structure Senses (ω : Type) where
  outside : ω
  spoofDetector : SpoofDetector
  recentMids : Dict ℤ (Deque ℚ 100)
  recentTrades : RecentTrades
  heard : List SpoofDetector.Call
  priced : List Quotation

namespace Senses

/-- As `__init__` makes it. -/
def init (symbols : List ℤ) (outside : ω) : Senses ω where
  outside := outside
  spoofDetector := .init
  recentMids := symbols.foldl (fun d sym ↦ d.insert sym .empty) .empty
  recentTrades := .init symbols
  heard := []
  priced := []

/-- The detector is told, and it is noted. -/
def hear (call : SpoofDetector.Call) (w : Senses ω) : Senses ω :=
  { w with spoofDetector := call.apply w.spoofDetector, heard := w.heard ++ [call] }

/-- What is outside goes on to this. -/
def setOutside (outside : ω) (w : Senses ω) : Senses ω := { w with outside := outside }

/-- It is noted that a symbol has been priced. -/
def notePriced (p : Quotation) (w : Senses ω) : Senses ω := { w with priced := w.priced ++ [p] }

/-- `state.recent_mids.append`. -/
def appendMid (symbol : ℤ) (mid : ℚ) (w : Senses ω) : Senses ω :=
  { w with
    recentMids := match w.recentMids.get? symbol with
      | none => w.recentMids
      | some mids => w.recentMids.insert symbol (mids.append mid) }

/-- The `recent_mids` of a symbol. -/
def mids (symbol : ℤ) (w : Senses ω) : List ℚ :=
  ((w.recentMids.get? symbol).map Deque.items).getD []

variable (O : Outside ω)

/-- `on_raw_message`. The clock is read if the detector reads it. -/
def onRawMessage (body : MarketDataMessage) (m : OrderBookManager) (w : Senses ω) : Senses ω :=
  let (now, later) := O.monotonic w.outside
  match body with
  | .newOrder b =>
    if w.recentMids.contains b.symbol then
      let reads := SpoofDetector.Large (w.spoofDetector.average b.symbol b.quantity) b.quantity
      (w.setOutside (if reads then later else w.outside)).hear
        (.newOrder b.orderId b.symbol b.side b.quantity now)
    else w
  | .deleteOrder b =>
    match m.orderIdToSymbol.get? b.orderId with
    | none => w
    | some symbol =>
      if w.recentMids.contains symbol then
        let reads := w.spoofDetector.tracked.contains b.orderId
        (w.setOutside (if reads then later else w.outside)).hear (.cancel b.orderId symbol now)
      else w
  | .trade b => w.hear (.trade b.orderId)
  | _ => w

/-- Both calls of `_detect_aggression`. -/
def aggressions (cfg : AggressionConfig) (symbol : ℤ) (w : Senses ω) : (Bool × Bool) × Senses ω :=
  let (now, later) := O.monotonic w.outside
  let (now', later) := O.monotonic later
  ((detectAggression cfg now Side.buy.value (w.recentTrades.trades symbol),
    detectAggression cfg now' Side.sell.value (w.recentTrades.trades symbol)), w.setOutside later)

variable (sqrt : ℚ → ℚ) (cfg : OrderStrategyConfig) (pricing : PricingConfig)
  (aggression : AggressionConfig)

/-- What `_step_symbol` computes of a top of book. It divides by `soft_position`, and it looks out
for aggression only if it has not returned before. -/
def signals (symbol tick : ℤ) (bid ask : ℤ × ℤ) (position : ℤ) (w : Senses ω) :
    Option Signals × Senses ω :=
  let mid : ℚ := (bid.1 + ask.1) / 2
  let note (signals : Option Signals) :=
    notePriced ⟨symbol, tick, bid, ask, position, w.heard, signals⟩
  let w := w.appendMid symbol mid
  let bidSpoof := w.spoofDetector.spoofQty .buy symbol
  let askSpoof := w.spoofDetector.spoofQty .sell symbol
  let fair := shiftedFair tick bid ask bidSpoof askSpoof
  let w := w.hear (.decay symbol)
  let volatility := computeVolatility sqrt (w.mids symbol)
  if cfg.softPosition = 0 then (none, note none w)
  else
    let prices := pricesAt cfg pricing tick volatility fair position
    match uncrossed tick bid.1 ask.1 (prices false false) with
    | none => (some (prices false false), note (some (prices false false)) w)
    | some _ =>
      let (a, w) := w.aggressions O aggression symbol
      (some (prices a.1 a.2), note (some (prices a.1 a.2)) w)

/-- What is outside, with the memory. -/
def sensing : Outside (Senses ω) where
  monotonic w := ((O.monotonic w.outside).1, w.setOutside (O.monotonic w.outside).2)
  attempts w := O.attempts w.outside
  signals := signals O sqrt cfg pricing aggression
  onRawMessage _ body m w := w.onRawMessage O body m
  onTradeSummary body timestamp w :=
    { w with recentTrades := w.recentTrades.onTradeSummary body timestamp }
  post call w := ((O.post call w.outside).1, w.setOutside (O.post call w.outside).2)

/-- **Each pricing is noted**, with what came of it. -/
theorem priced_signals (symbol tick : ℤ) (bid ask : ℤ × ℤ) (position : ℤ) (w : Senses ω) :
    (signals O sqrt cfg pricing aggression symbol tick bid ask position w).2.priced =
      w.priced ++ [⟨symbol, tick, bid, ask, position, w.heard,
        (signals O sqrt cfg pricing aggression symbol tick bid ask position w).1⟩] := by
  unfold signals
  dsimp only
  split
  · rfl
  · split <;> rfl

/-! ### What the memory tells -/

/-- The middles at which a symbol has been priced. -/
def midsOf (symbol : ℤ) (priced : List Quotation) : List ℚ :=
  (priced.filter fun p ↦ p.symbol = symbol).map Quotation.mid

/-- **The memory tells the past**: the deques hold the last middles, the detector is as what it has
been told makes it, and each step has been priced on what these were at the time. -/
structure Told (symbols : List ℤ) (w : Senses ω) : Prop where
  spoofDetector : w.spoofDetector = .run w.heard
  recentMids : ∀ symbol ∈ symbols, w.recentMids.get? symbol =
    some ((midsOf symbol w.priced).foldl Deque.append .empty)
  priced : ∀ i p, w.priced[i]? = some p →
    p.heard <+: w.heard ∧ Quotable p.tick p.bid p.ask ∧ ∃ mids,
      (p.symbol ∈ symbols → mids = (midsOf p.symbol (w.priced.take (i + 1))).rtake 100) ∧
        p.Sensed sqrt cfg pricing mids

section

variable {O sqrt cfg pricing aggression} {symbols : List ℤ} {w w' : Senses ω}

/-- The middles that are remembered are the last hundred. -/
theorem mids_of_told (h : w.Told sqrt cfg pricing symbols) {symbol : ℤ}
    (hsymbol : symbol ∈ symbols) : w.mids symbol = (midsOf symbol w.priced).rtake 100 := by
  unfold mids
  rw [h.recentMids symbol hsymbol]
  exact Deque.items_foldl_append _

theorem told_init (symbols : List ℤ) (outside : ω) :
    (init symbols outside).Told sqrt cfg pricing symbols where
  spoofDetector := rfl
  recentMids symbol hsymbol := by
    have h (d : Dict ℤ (Deque ℚ 100)) (hd : symbol ∈ symbols ∨ d.get? symbol = some .empty) :
        (symbols.foldl (fun d sym ↦ d.insert sym .empty) d).get? symbol = some .empty := by
      clear hsymbol
      induction symbols generalizing d with
      | nil => exact hd.resolve_left List.not_mem_nil
      | cons sym symbols ih =>
        refine ih _ ?_
        rw [Dict.get?_insert]
        split
        · exact Or.inr rfl
        · rename_i hne
          exact hd.imp_left fun hmem ↦ (List.mem_cons.1 hmem).resolve_left hne
    exact h _ (Or.inl hsymbol)
  priced i p hp := by
    rw [show (init symbols outside).priced[i]? = none from rfl] at hp
    cases hp

/-- Nothing is priced. -/
theorem Told.congr (h : w.Told sqrt cfg pricing symbols)
    (hdetector : w'.spoofDetector = .run w'.heard) (hheard : w.heard <+: w'.heard)
    (hmids : w'.recentMids = w.recentMids) (hpriced : w'.priced = w.priced) :
    w'.Told sqrt cfg pricing symbols := by
  refine ⟨hdetector, ?_, ?_⟩
  · rw [hmids, hpriced]
    exact h.recentMids
  · rw [hpriced]
    exact fun i p hp ↦ (h.priced i p hp).imp_left fun hp ↦ hp.trans hheard

/-- The detector is told. -/
theorem Told.hear (h : w.Told sqrt cfg pricing symbols) (call : SpoofDetector.Call) :
    (w.hear call).Told sqrt cfg pricing symbols := by
  refine h.congr ?_ ⟨[call], rfl⟩ rfl rfl
  show call.apply w.spoofDetector = _
  rw [h.spoofDetector]
  exact (SpoofDetector.run_concat w.heard call).symm

/-- A middle is remembered for its own symbol. -/
theorem get?_appendMid (symbol symbol' : ℤ) (mid : ℚ) (w : Senses ω) :
    (w.appendMid symbol mid).recentMids.get? symbol' = (w.recentMids.get? symbol').map fun mids ↦
      if symbol' = symbol then mids.append mid else mids := by
  unfold appendMid
  dsimp only
  rcases hmids : w.recentMids.get? symbol with - | mids
  · by_cases hsymbol : symbol' = symbol
    · rw [hsymbol, hmids]
      rfl
    · simp only [if_neg hsymbol, Option.map_id']
  · dsimp only
    rw [Dict.get?_insert]
    split
    · rename_i hsymbol
      rw [hsymbol, hmids]
      rfl
    · exact Option.map_id'.symm

/-- A symbol is priced. -/
theorem Told.step (h : w.Told sqrt cfg pricing symbols) {p : Quotation}
    (hquotable : Quotable p.tick p.bid p.ask) (hheard : p.heard = w.heard)
    (hdetector : w'.spoofDetector = .run w'.heard) (hgrows : w.heard <+: w'.heard)
    (hmids : w'.recentMids = (w.appendMid p.symbol p.mid).recentMids)
    (hpriced : w'.priced = w.priced ++ [p])
    (hsensed : p.Sensed sqrt cfg pricing (w'.mids p.symbol)) :
    w'.Told sqrt cfg pricing symbols := by
  have hrecent : ∀ symbol ∈ symbols, w'.recentMids.get? symbol =
      some ((midsOf symbol w'.priced).foldl Deque.append .empty) := by
    intro symbol hsymbol
    rw [hmids, get?_appendMid, h.recentMids symbol hsymbol, hpriced]
    unfold midsOf
    rw [Option.map_some, List.filter_append, List.map_append, List.foldl_append]
    by_cases hp : p.symbol = symbol
    · rw [if_pos hp.symm, List.filter_cons_of_pos (by simpa using hp)]
      rfl
    · rw [if_neg (Ne.symm hp), List.filter_cons_of_neg (by simpa using hp)]
      rfl
  refine ⟨hdetector, hrecent, fun i q hq ↦ ?_⟩
  rw [hpriced] at hq ⊢
  rcases lt_or_ge i w.priced.length with hlt | hge
  · rw [List.getElem?_append_left hlt] at hq
    rw [List.take_append_of_le_length hlt]
    exact (h.priced i q hq).imp_left fun hq ↦ hq.trans hgrows
  · rw [List.getElem?_append_right hge, List.getElem?_singleton] at hq
    obtain ⟨hi, hq⟩ := Option.ite_none_right_eq_some.1 hq
    obtain rfl := Option.some.inj hq
    rw [List.take_of_length_le (by simp; omega), hheard]
    refine ⟨hgrows, hquotable, w'.mids p.symbol, fun hsymbol ↦ ?_, hsensed⟩
    unfold mids
    rw [hrecent _ hsymbol, ← hpriced]
    exact Deque.items_foldl_append _

/-- **Each thing that moves the memory** leaves it telling the past. -/
theorem told_moves (h : w.Told sqrt cfg pricing symbols)
    (hmoves : (sensing O sqrt cfg pricing aggression).checked.Moves w w') :
    w'.Told sqrt cfg pricing symbols := by
  cases hmoves with
  | monotonic => exact h.congr h.spoofDetector ⟨[], List.append_nil _⟩ rfl rfl
  | post => exact h.congr h.spoofDetector ⟨[], List.append_nil _⟩ rfl rfl
  | onTradeSummary => exact h.congr h.spoofDetector ⟨[], List.append_nil _⟩ rfl rfl
  | onRawMessage header body m =>
    have hquiet (outside : ω) : (w.setOutside outside).Told sqrt cfg pricing symbols :=
      h.congr h.spoofDetector ⟨[], List.append_nil _⟩ rfl rfl
    show (w.onRawMessage O body m).Told sqrt cfg pricing symbols
    unfold onRawMessage
    cases body with
    | newOrder b =>
      dsimp only
      split
      · exact (hquiet _).hear _
      · exact h
    | deleteOrder b =>
      dsimp only
      split
      · exact h
      · split
        · exact (hquiet _).hear _
        · exact h
    | trade b => exact h.hear _
    | _ => exact h
  | signals symbol tick bid ask position =>
    have hdetector : (w.spoofDetector.decay symbol) =
        .run (w.heard ++ [.decay symbol]) := (h.hear (.decay symbol)).spoofDetector
    show ((if Quotable tick bid ask then
      signals O sqrt cfg pricing aggression symbol tick bid ask position w else (none, w)).2).Told
        sqrt cfg pricing symbols
    by_cases hquotable : Quotable tick bid ask
    swap
    · rw [if_neg hquotable]
      exact h
    rw [if_pos hquotable]
    unfold signals
    dsimp only
    split
    · rename_i hzero
      exact h.step hquotable rfl hdetector ⟨[_], rfl⟩ rfl rfl hzero
    · rename_i hne
      -- the pressures are read before they fade
      have hsensed (w' : Senses ω) (buy sell : Bool) (hmids : w'.mids symbol =
          ((w.appendMid symbol ((bid.1 + ask.1) / 2)).hear (.decay symbol)).mids symbol) :
          Quotation.Sensed sqrt cfg pricing (w'.mids symbol) ⟨symbol, tick, bid, ask, position,
            w.heard, some (pricesAt cfg pricing tick (computeVolatility sqrt
              (((w.appendMid symbol ((bid.1 + ask.1) / 2)).hear (.decay symbol)).mids symbol))
              (shiftedFair tick bid ask (w.spoofDetector.spoofQty .buy symbol)
                (w.spoofDetector.spoofQty .sell symbol)) position buy sell)⟩ := by
        rw [hmids, h.spoofDetector]
        exact ⟨hne, rfl⟩
      split
      · exact h.step hquotable rfl hdetector ⟨[_], rfl⟩ rfl rfl (hsensed _ _ _ rfl)
      · exact h.step hquotable rfl hdetector ⟨[_], rfl⟩ rfl rfl (hsensed _ _ _ rfl)

end

end Senses

/-! ### Runs -/

section

variable {O : Outside ω} {sqrt : ℚ → ℚ} {cfg : OrderStrategyConfig}
  {pricing : PricingConfig} {aggression : AggressionConfig} {symbols : List ℤ}

/-- **A run** leaves the memory telling the past, whatever happens in it. -/
theorem told_runEvents (events : List Event) {x : OrderStrategy (Senses ω) × OrderBookManager}
    (hx : x.1.outside.Told sqrt cfg pricing symbols) :
    (runEvents (Senses.sensing O sqrt cfg pricing aggression) events x).1.outside.Told
      sqrt cfg pricing symbols := by
  have hparts : KeptByRunParts (Senses.sensing O sqrt cfg pricing aggression).checked
      (Apart fun w _ ↦ w.Told sqrt cfg pricing symbols) :=
    apart_keptByRunParts (fun hmoves _ hw ↦ Senses.told_moves hw hmoves) fun _ _ _ _ hw ↦ hw
  rw [← runEvents_checked]
  exact hparts.run (fun _ hx ↦ hx) events hx

/-- The pressure is no more than the spoofs add up to. -/
theorem spoofQty_mem {calls : List SpoofDetector.Call} {side : MarketData.Side} {symbol : ℤ}
    (h : ∀ spoofs, SpoofDetector.Lists calls side symbol spoofs →
      SpoofDetector.total symbol calls spoofs ≤ 10) :
    0 ≤ (SpoofDetector.run calls).spoofQty side symbol ∧
      (SpoofDetector.run calls).spoofQty side symbol ≤ 10 := by
  obtain ⟨spoofs, hlists, hnear⟩ := SpoofDetector.near_run calls side symbol
  exact ⟨hnear.nonneg, hnear.le.trans (h spoofs hlists)⟩

/-- **No quote crosses the market while few spoofs are seen.** In any run, whatever the books, the
messages, the clock and the exchange, each time a symbol is priced: if the spoofs that its orders
have shown until then add up to ten shares at most on each side, each faded since, then neither
quote that is asked for reaches the best price of the other side, not even at an extreme inventory.
-/
theorem uncrossing_of_runs (hsqrt : ∀ v, 0 ≤ v → 0 ≤ sqrt v) {events : List Event}
    {s : OrderStrategy (Senses ω)} {m : OrderBookManager} (client : OrderEntryClient) (outside : ω)
    (hrun : (runEvents (Senses.sensing O sqrt cfg pricing aggression) events
      (.init client cfg (.init cfg.symbols outside), m)).1 = s)
    {p : Quotation} (hp : p ∈ s.outside.priced) (hunlocked : p.bid.1 ≠ p.ask.1)
    (hbids : ∀ bids, SpoofDetector.Lists p.heard .buy p.symbol bids →
      SpoofDetector.total p.symbol p.heard bids ≤ 10)
    (hasks : ∀ asks, SpoofDetector.Lists p.heard .sell p.symbol asks →
      SpoofDetector.total p.symbol p.heard asks ≤ 10)
    {t : Targets} (ht : p.targets cfg = some t) :
    (t.shouldBid = true → t.bidPrice < p.ask.1) ∧ (t.shouldAsk = true → p.bid.1 < t.askPrice) := by
  have hstart : (Senses.init cfg.symbols outside).Told sqrt cfg pricing cfg.symbols :=
    Senses.told_init cfg.symbols outside
  have htold : (runEvents (Senses.sensing O sqrt cfg pricing aggression) events
      (.init client cfg (.init cfg.symbols outside), m)).1.outside.Told sqrt cfg pricing
        cfg.symbols := told_runEvents events hstart
  rw [hrun] at htold
  obtain ⟨i, hi⟩ := List.mem_iff_getElem?.1 hp
  obtain ⟨-, ⟨htick, ⟨hbid, -, hle⟩, hbidQty, haskQty⟩, mids, -, hsensed⟩ := htold.priced i p hi
  obtain ⟨hbids, hbids'⟩ := spoofQty_mem hbids
  obtain ⟨hasks, hasks'⟩ := spoofQty_mem hasks
  obtain ⟨signals, hsignals, ht⟩ := Option.bind_eq_some_iff.1 ht
  unfold Quotation.Sensed at hsensed
  rw [hsignals] at hsensed
  let market : Market :=
    { tick := p.tick
      bb := p.bid.1
      bbQty := p.bid.2
      ba := p.ask.1
      baQty := p.ask.2
      volatility := computeVolatility sqrt mids
      bidSpoof := (SpoofDetector.run p.heard).spoofQty .buy p.symbol
      askSpoof := (SpoofDetector.run p.heard).spoofQty .sell p.symbol
      buyAggression := signals.buyAggression
      sellAggression := signals.sellAggression
      tick_pos := htick
      bb_pos := hbid
      bb_lt_ba := lt_of_le_of_ne hle hunlocked
      bbQty_pos := hbidQty
      baQty_pos := haskQty
      volatility_nonneg := computeVolatility_nonneg hsqrt mids
      bidSpoof_nonneg := hbids
      askSpoof_nonneg := hasks }
  have hmarket : market.signals cfg pricing p.position = signals :=
    (signals_eq_pricesAt cfg pricing market p.position).trans hsensed.2.symm
  have htargets : market.targets cfg pricing p.position = some t := by
    unfold Market.targets
    rw [hmarket]
    exact ht
  refine Market.quotes_uncrossed (abs_sub_le_iff.2 ⟨?_, ?_⟩) htargets
  · show (SpoofDetector.run p.heard).spoofQty .sell p.symbol -
      (SpoofDetector.run p.heard).spoofQty .buy p.symbol ≤ 10
    linarith
  · show (SpoofDetector.run p.heard).spoofQty .buy p.symbol -
      (SpoofDetector.run p.heard).spoofQty .sell p.symbol ≤ 10
    linarith

end

/-- Symbol 5 is quoted at 100 and 110, and the strategy has no connection. -/
def pricedOnce : OrderStrategy (Senses Unit) × OrderBookManager :=
  runEvents (Senses.sensing idle id { symbols := [5], etfArbEnabled := false } {} {})
    [.marketDataUpdate]
    (.init (.init [] [] 0 0 0 none []) { symbols := [5], etfArbEnabled := false } (.init [5] ()),
      Method.run [OrderBookManager.processNewOrder 1 1 1 5 .buy 10 100 0,
        OrderBookManager.processNewOrder 2 2 2 5 .sell 10 110 0] .init)

/-- A bid of a hundred and an ask of a hundred and ten are handed over. -/
theorem uncrossing_of_runs_pricedOnce :
    ∃ p ∈ pricedOnce.1.outside.priced, ∃ t : Targets,
      p.targets { symbols := [5], etfArbEnabled := false } = some t ∧ t = ⟨100, 110, true, true⟩ ∧
      (t.shouldBid = true → t.bidPrice < p.ask.1) ∧
      (t.shouldAsk = true → p.bid.1 < t.askPrice) := by
  have hpriced : pricedOnce.1.outside.priced = [⟨5, 5, (100, 10), (110, 10), 0, [],
      some ⟨100, 110, 100, 110, false, false⟩⟩] := by decide +kernel
  -- nothing has been heard
  have hcalm (side : MarketData.Side) (spoofs : List (ℕ × ℕ))
      (h : SpoofDetector.Lists [] side 5 spoofs) : SpoofDetector.total 5 [] spoofs ≤ 10 := by
    obtain rfl : spoofs = [] :=
      List.eq_nil_iff_forall_not_mem.2 fun p hp ↦ absurd (h.lt_length p hp) (Nat.not_lt_zero _)
    decide
  refine ⟨_, hpriced ▸ List.mem_singleton_self _, ⟨100, 110, true, true⟩, by decide, rfl, ?_⟩
  unfold pricedOnce at hpriced
  exact uncrossing_of_runs (fun _ hv ↦ hv) _ () rfl (hpriced ▸ List.mem_singleton_self _)
    (by decide) (hcalm .buy) (hcalm .sell) (by decide)

end HftTrading.Strategy
