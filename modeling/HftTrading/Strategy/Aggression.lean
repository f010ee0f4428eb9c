import HftTrading.Lib.Deque
import HftTrading.Strategy.Gate

/-!
# Old trades

`_detect_aggression` adds up the recent trades of a symbol, and skips those that are older than
`trade_window` by the local clock. But what it goes by is the timestamp in the header of the trade
summary, which the exchange has put there and which is of another clock.

So a summary may count long after it was received. The sides are told apart by an excess
(`excess`): what a side has traded beyond its threshold of the whole. A side is aggressive if its
excess is positive (`detectAggression_eq`), and old summaries make a difference exactly if the
excess of those that are not skipped outweighs that of the recent ones
(`detectAggression_recent_iff`).

## When a summary was received

The program does not keep that time, so it is noted beside the deques (`Tape`), with each summary as
it is told to the strategy by the packet loop. Only `on_trade_summary` writes there, and the deque
of a symbol is the end of what has been noted for it; so the statement is about every run of the
loop by a clock that does not go back. The share of a side is a quotient of doubles in the program,
of two sums of quantities, and an exact one here.
-/

namespace HftTrading.Strategy

open OrderEntry Method OrderStrategy
open MarketData (MDHeader MarketDataMessage TradeSummary)

/-! ### The recent trades -/

/-- What only `_detect_aggression` uses of `StrategyConfig`. -/
structure AggressionConfig where
  tradeWindow : ℚ := 5
  aggressionThreshold : ℚ := 7 / 10

/-- `RecentTrade`. -/
structure RecentTrade where
  timestamp : ℕ
  symbol : ℤ
  aggressorSide : MarketData.Side
  quantity : ℕ
  price : ℤ
  deriving DecidableEq

/-- The `recent_trades` of every symbol that has a state. -/
abbrev RecentTrades : Type := Dict ℤ (Deque RecentTrade 200)

namespace RecentTrades

/-- The states as `__init__` makes them. -/
def init (symbols : List ℤ) : RecentTrades :=
  symbols.foldl (fun d sym ↦ d.insert sym .empty) .empty

/-- `on_trade_summary`. -/
def onTradeSummary (body : TradeSummary) (timestamp : ℕ) (d : RecentTrades) : RecentTrades :=
  match d.get? body.symbol with
  | none => d
  | some trades =>
    d.insert body.symbol (trades.append
      ⟨timestamp, body.symbol, body.aggressorSide, body.totalQuantity, body.lastPrice⟩)

/-- The `recent_trades` of a symbol. -/
def trades (symbol : ℤ) (d : RecentTrades) : List RecentTrade :=
  ((d.get? symbol).map Deque.items).getD []

end RecentTrades

/-- `buy_vol` and `sell_vol` after the loop of `_detect_aggression`. -/
def volumes (cutoff : ℚ) (recentTrades : List RecentTrade) (v : ℕ × ℕ) : ℕ × ℕ :=
  recentTrades.foldl (fun v trade ↦
    if trade.timestamp < cutoff then v
    else if trade.aggressorSide = .buy then (v.1 + trade.quantity, v.2)
    else (v.1, v.2 + trade.quantity)) v

/-- `_detect_aggression`. The shares are exact here. Rounding them makes no difference to the
default threshold: so few trades do not come close enough to it without meeting it. -/
def detectAggression (cfg : AggressionConfig) (now : ℚ) (side : ℤ)
    (recentTrades : List RecentTrade) : Bool :=
  let cutoff := now - cfg.tradeWindow
  let (buyVol, sellVol) := volumes cutoff recentTrades (0, 0)
  let total := buyVol + sellVol
  if total = 0 then false
  else if side = Side.buy.value then (buyVol / total : ℚ) > cfg.aggressionThreshold
  else (sellVol / total : ℚ) > cfg.aggressionThreshold

/-- The signals, with the aggression that the recent trades show. The source only reads the clock if
the prices do not cross. -/
def Outside.detecting {ω : Type} (O : Outside ω) (cfg : AggressionConfig) (d : RecentTrades) :
    Outside ω :=
  { O with
    signals := fun symbol tick bid ask position w ↦
      match O.signals symbol tick bid ask position w with
      | (none, w) => (none, w)
      | (some signals, w) =>
        let (now, w) := O.monotonic w
        let (now', w) := O.monotonic w
        (some { signals with
          buyAggression := detectAggression cfg now Side.buy.value (d.trades symbol)
          sellAggression := detectAggression cfg now' Side.sell.value (d.trades symbol) }, w) }

/-! ### Runs with a clock -/

/-- A trade summary that the strategy was told of, with the timestamp of its header and the local
time at which it was received. -/
structure Received where
  body : TradeSummary
  timestamp : ℕ
  received : ℚ

/-- What it is in `recent_trades`. -/
def Received.trade (r : Received) : RecentTrade :=
  ⟨r.timestamp, r.body.symbol, r.body.aggressorSide, r.body.totalQuantity, r.body.lastPrice⟩

/-- The recent trades, with records: the local time, and the trade summaries received so far. -/
structure Tape where
  recentTrades : RecentTrades
  clock : ℚ
  history : List Received

/-- Nothing has been received yet. -/
def Tape.init (symbols : List ℤ) (t : ℚ) : Tape := ⟨.init symbols, t, []⟩

/-- `on_trade_summary`, and a note of it. -/
def Tape.onTradeSummary (body : TradeSummary) (timestamp : ℕ) (tape : Tape) : Tape :=
  { tape with
    recentTrades := tape.recentTrades.onTradeSummary body timestamp
    history := tape.history ++ [⟨body, timestamp, tape.clock⟩] }

/-- The time goes on. -/
def Tape.tick (t : ℚ) (tape : Tape) : Tape := { tape with clock := t }

variable {ω : Type}

/-- A method that leaves the recent trades alone. -/
def untaped (call : StrategyM ω Unit) :
    Method StrategyError ((OrderStrategy ω × Tape) × OrderBookManager) Unit :=
  call.zoom (fun x ↦ (x.1.1, x.2)) (fun y x ↦ ((y.1, x.1.2), y.2)) id

/-- The strategy with its recent trades, as the packet loop calls it. -/
def tapedMethods (O : Outside ω) (cfg : AggressionConfig) :
    StrategyMethods (OrderStrategy ω × Tape) StrategyError where
  suspend x := (x.1.suspend, x.2)
  resume x := (x.1.resume, x.2)
  onRawMessage header body := untaped (OrderStrategy.onRawMessage O header body)
  onTradeSummary body timestamp :=
    modify fun x ↦ ((x.1.1, x.1.2.onTradeSummary body timestamp), x.2)
  onMarketDataUpdate := fun x ↦
    untaped (OrderStrategy.onMarketDataUpdate (O.detecting cfg x.1.2.recentTrades)) x
  isConnectionError := StrategyError.isConnectionError

/-- What an event does. -/
def LoopEvent.tapedMethod (O : Outside ω) (cfg : AggressionConfig) :
    LoopEvent → World.LoopM StrategyError (OrderStrategy ω × Tape) Unit
  | .turn rest => do
    let _ ← World.turn (tapedMethods O cfg) rest
  | .connectionLost => World.onStrategy (untaped OrderStrategy.connectionLost)

/-- The state after a run, in which each event has its local time. -/
def runTaped (O : Outside ω) (cfg : AggressionConfig) :
    List (ℚ × LoopEvent) → World (OrderStrategy ω × Tape) → World (OrderStrategy ω × Tape)
  | [], w => w
  | (t, event) :: events, w =>
    runTaped O cfg events ((event.tapedMethod O cfg).after
      { w with strategy := w.strategy.map fun x ↦ (x.1, x.2.tick t) })

/-- The recent trades that these summaries make, one after another. -/
def recorded (symbols : List ℤ) (history : List Received) : RecentTrades :=
  history.foldl (fun d r ↦ d.onTradeSummary r.body r.timestamp) (.init symbols)

/-! ### The excess of a side -/

/-- What a trade adds to the excess of a side over a threshold. -/
def RecentTrade.weight (threshold : ℚ) (side : ℤ) (trade : RecentTrade) : ℚ :=
  if trade.aggressorSide = .buy ↔ side = Side.buy.value then (1 - threshold) * trade.quantity
  else -(threshold * trade.quantity)

/-- What a side has traded beyond a share of the whole. -/
def excess (threshold : ℚ) (side : ℤ) (trades : List RecentTrade) : ℚ :=
  (trades.map (RecentTrade.weight threshold side)).sum

/-- The same of the volumes of both sides. -/
def volumeExcess (threshold : ℚ) (side : ℤ) (v : ℕ × ℕ) : ℚ :=
  if side = Side.buy.value then (1 - threshold) * v.1 - threshold * v.2
  else (1 - threshold) * v.2 - threshold * v.1

section

variable {threshold : ℚ} {side : ℤ}

/-- One trade more, counted on its side unless it is too old. -/
theorem volumes_cons (cutoff : ℚ) (trade : RecentTrade) (trades : List RecentTrade) (v : ℕ × ℕ) :
    volumes cutoff (trade :: trades) v = volumes cutoff trades
      (if trade.timestamp < cutoff then v
      else if trade.aggressorSide = .buy then (v.1 + trade.quantity, v.2)
      else (v.1, v.2 + trade.quantity)) := rfl

theorem excess_cons (trade : RecentTrade) (trades : List RecentTrade) :
    excess threshold side (trade :: trades) =
      trade.weight threshold side + excess threshold side trades := List.sum_cons

/-- A trade adds its weight to the excess. -/
theorem volumeExcess_add (trade : RecentTrade) (v : ℕ × ℕ) :
    volumeExcess threshold side
        (if trade.aggressorSide = .buy then (v.1 + trade.quantity, v.2)
        else (v.1, v.2 + trade.quantity)) =
      volumeExcess threshold side v + trade.weight threshold side := by
  unfold volumeExcess RecentTrade.weight
  by_cases hbuy : trade.aggressorSide = .buy
  · rw [if_pos hbuy]
    split
    · rename_i hside
      rw [if_pos (iff_of_true hbuy hside)]
      push_cast
      ring
    · rename_i hside
      rw [if_neg fun h ↦ hside (h.1 hbuy)]
      push_cast
      ring
  · rw [if_neg hbuy]
    split
    · rename_i hside
      rw [if_neg fun h ↦ hbuy (h.2 hside)]
      push_cast
      ring
    · rename_i hside
      rw [if_pos (iff_of_false hbuy hside)]
      push_cast
      ring

/-- The loop adds up the weights of what it does not skip. -/
theorem volumeExcess_volumes (threshold : ℚ) (side : ℤ) (cutoff : ℚ) (trades : List RecentTrade)
    (v : ℕ × ℕ) :
    volumeExcess threshold side (volumes cutoff trades v) = volumeExcess threshold side v +
      excess threshold side (trades.filter fun trade ↦ cutoff ≤ trade.timestamp) := by
  induction trades generalizing v with
  | nil => exact (add_zero _).symm
  | cons trade trades ih =>
    rw [volumes_cons, ih]
    by_cases hskip : (trade.timestamp : ℚ) < cutoff
    · rw [if_pos hskip, List.filter_cons_of_neg (by simpa using hskip)]
    · rw [if_neg hskip, List.filter_cons_of_pos (by simpa using hskip), volumeExcess_add,
        excess_cons, add_assoc]

/-- A share is above a threshold exactly if there is an excess over it. -/
theorem lt_div_iff_excess {a b : ℕ} (htotal : a + b ≠ 0) :
    threshold < (a / (a + b : ℕ) : ℚ) ↔ 0 < (1 - threshold) * a - threshold * b := by
  have hpos : (0 : ℚ) < (a + b : ℕ) := Nat.cast_pos.2 (Nat.pos_of_ne_zero htotal)
  rw [lt_div_iff₀ hpos, ← sub_pos]
  have hexcess : (a : ℚ) - threshold * (a + b : ℕ) = (1 - threshold) * a - threshold * b := by
    push_cast
    ring
  rw [hexcess]

/-- **A side is aggressive** exactly if what is not skipped shows an excess. -/
theorem detectAggression_eq (cfg : AggressionConfig) (now : ℚ) (trades : List RecentTrade) :
    detectAggression cfg now side trades = decide (0 < excess cfg.aggressionThreshold side
      (trades.filter fun trade ↦ now - cfg.tradeWindow ≤ trade.timestamp)) := by
  have hexcess := volumeExcess_volumes cfg.aggressionThreshold side (now - cfg.tradeWindow) trades
    (0, 0)
  have hzero : volumeExcess cfg.aggressionThreshold side (0, 0) = 0 := by
    unfold volumeExcess
    split
    · simp
    · simp
  rw [hzero, zero_add] at hexcess
  rw [← hexcess]
  unfold detectAggression
  dsimp only
  rcases volumes (now - cfg.tradeWindow) trades (0, 0) with ⟨buyVol, sellVol⟩
  dsimp only
  split
  · rename_i htotal
    obtain ⟨rfl, rfl⟩ := Nat.add_eq_zero_iff.1 htotal
    rw [hzero]
    rfl
  · rename_i htotal
    unfold volumeExcess
    split
    · exact decide_eq_decide.2 (lt_div_iff_excess htotal)
    · rw [Nat.add_comm] at htotal ⊢
      exact decide_eq_decide.2 (lt_div_iff_excess htotal)

end

/-! ### Old summaries -/

/-- The summaries of a symbol that its deque still holds. -/
def held (symbol : ℤ) (history : List Received) : List Received :=
  (history.filter fun r ↦ (r.body.symbol : ℤ) = symbol).rtake 200

/-- Those that were received in the window before a time. -/
def Received.recent (cfg : AggressionConfig) (now : ℚ) (r : Received) : Bool :=
  now - cfg.tradeWindow ≤ r.received

/-- Those that their timestamps put in it. -/
def Received.counted (cfg : AggressionConfig) (now : ℚ) (r : Received) : Bool :=
  now - cfg.tradeWindow ≤ r.timestamp

/-- The excess of a side that summaries show. -/
def shown (cfg : AggressionConfig) (side : ℤ) (l : List Received) : ℚ :=
  excess cfg.aggressionThreshold side (l.map Received.trade)

/-- **The old summaries that count outweigh the recent ones.** If these show an excess, the old ones
use it up; and if not, they make up for what is missing. -/
def OldOutweigh (cfg : AggressionConfig) (now : ℚ) (side : ℤ) (l : List Received) : Prop :=
  let counted := l.filter (Received.counted cfg now)
  let recent := shown cfg side (counted.filter fun r ↦ r.recent cfg now)
  let old := shown cfg side (counted.filter fun r ↦ !r.recent cfg now)
  if 0 < recent then old ≤ -recent else -recent < old

section

variable {cfg : AggressionConfig} {now : ℚ} {side : ℤ}

/-- A side is aggressive if what is counted shows it. -/
theorem detectAggression_trades (l : List Received) :
    detectAggression cfg now side (l.map Received.trade) =
      decide (0 < shown cfg side (l.filter (Received.counted cfg now))) := by
  rw [detectAggression_eq, List.filter_map]
  rfl

/-- What counts is recent or old. -/
theorem shown_filter_add (p : Received → Bool) (l : List Received) :
    shown cfg side l = shown cfg side (l.filter p) + shown cfg side (l.filter fun r ↦ !p r) := by
  have h := List.sum_map_filter_add_sum_map_filter_not (fun r ↦ p r = true)
    (RecentTrade.weight cfg.aggressionThreshold side ∘ Received.trade) l
  simp only [Bool.decide_eq_true, decide_not] at h
  unfold shown excess
  rw [List.map_map, List.map_map, List.map_map]
  exact h.symm

/-- **Old summaries make a difference** exactly if they outweigh the recent ones. -/
theorem detectAggression_recent_iff (l : List Received) :
    detectAggression cfg now side (l.map Received.trade) =
        detectAggression cfg now side ((l.filter fun r ↦ r.recent cfg now).map Received.trade) ↔
      ¬OldOutweigh cfg now side l := by
  rw [detectAggression_trades, detectAggression_trades, List.filter_comm, decide_eq_decide,
    shown_filter_add (fun r ↦ r.recent cfg now) (l.filter (Received.counted cfg now))]
  unfold OldOutweigh
  dsimp only
  split
  · rename_i hrecent
    rw [not_le, neg_lt_iff_pos_add']
    exact ⟨fun h ↦ h.2 hrecent, fun h ↦ iff_of_true h hrecent⟩
  · rename_i hrecent
    rw [not_lt, ← not_lt, neg_lt_iff_pos_add']
    exact ⟨fun h hall ↦ hrecent (h.1 hall), fun h ↦ iff_of_false h hrecent⟩

/-- If the timestamp of every old summary is old too, there is nothing that outweighs. -/
theorem not_oldOutweigh {l : List Received}
    (h : ∀ r ∈ l, r.recent cfg now = false → r.counted cfg now = false) :
    ¬OldOutweigh cfg now side l := by
  have hold : (l.filter (Received.counted cfg now)).filter (fun r ↦ !r.recent cfg now) = [] := by
    refine List.filter_eq_nil_iff.2 fun r hr hold ↦ ?_
    obtain ⟨hr, hcounted⟩ := List.mem_filter.1 hr
    rw [h r hr (by simpa using hold)] at hcounted
    cases hcounted
  have hzero : shown cfg side [] = 0 := rfl
  unfold OldOutweigh
  dsimp only
  rw [hold, hzero]
  split
  · rename_i hrecent
    rw [not_le]
    exact neg_neg_of_pos hrecent
  · rename_i hrecent
    rwa [neg_lt_zero]

end

/-! ### What the deques hold -/

section

variable {symbols : List ℤ} {symbol : ℤ}

/-- Every symbol starts with an empty deque. -/
theorem get?_init (hsymbol : symbol ∈ symbols) :
    (RecentTrades.init symbols).get? symbol = some .empty := by
  unfold RecentTrades.init
  induction symbols using List.reverseRecOn with
  | nil => cases hsymbol
  | append_singleton symbols sym ih =>
    rw [List.foldl_append, List.foldl_cons, List.foldl_nil, Dict.get?_insert]
    split
    · rfl
    · rename_i hne
      rcases List.mem_append.1 hsymbol with hmem | hlast
      · exact ih hmem
      · exact absurd (List.mem_singleton.1 hlast) hne

theorem recorded_concat (history : List Received) (r : Received) :
    recorded symbols (history ++ [r]) =
      (recorded symbols history).onTradeSummary r.body r.timestamp := by
  unfold recorded
  rw [List.foldl_append]
  rfl

/-- **The deque of a symbol** is filled with its summaries. -/
theorem recorded_get? (hsymbol : symbol ∈ symbols) (history : List Received) :
    (recorded symbols history).get? symbol =
      some (((history.filter fun r ↦ (r.body.symbol : ℤ) = symbol).map Received.trade).foldl
        Deque.append .empty) := by
  induction history using List.reverseRecOn with
  | nil => exact get?_init hsymbol
  | append_singleton history r ih =>
    rw [recorded_concat, List.filter_append, List.map_append, List.foldl_append]
    unfold RecentTrades.onTradeSummary
    by_cases hr : (r.body.symbol : ℤ) = symbol
    · subst hr
      have hone : [r].filter (fun r' ↦ (r'.body.symbol : ℤ) = r.body.symbol) = [r] :=
        List.filter_eq_self.2 (by simp)
      rw [ih, hone]
      exact Dict.get?_insert_self _ _ _
    · have hnone : [r].filter (fun r ↦ (r.body.symbol : ℤ) = symbol) = [] :=
        List.filter_eq_nil_iff.2 (by simpa using hr)
      rw [hnone, List.map_nil, List.foldl_nil, ← ih]
      split
      · rfl
      · exact Dict.get?_insert_of_ne _ _ (Ne.symm hr)

/-- **The deque of a symbol holds the last 200 of its summaries.** -/
theorem recorded_trades (hsymbol : symbol ∈ symbols) (history : List Received) :
    (recorded symbols history).trades symbol = (held symbol history).map Received.trade := by
  unfold RecentTrades.trades held
  rw [recorded_get? hsymbol, Deque.map_rtake]
  exact Deque.items_foldl_append _

/-- Without the old summaries, a deque holds what it held of the recent ones. -/
theorem held_filter_recent {cfg : AggressionConfig} {now : ℚ} {history : List Received}
    (hsorted : history.Pairwise fun r r' ↦ r.received ≤ r'.received) :
    held symbol (history.filter fun r ↦ r.recent cfg now) =
      (held symbol history).filter fun r ↦ r.recent cfg now := by
  unfold held
  rw [List.filter_comm, Deque.filter_rtake]
  refine (hsorted.filter _).imp fun hle hrecent ↦ ?_
  unfold Received.recent at hrecent ⊢
  rw [decide_eq_true_eq] at hrecent ⊢
  exact hrecent.trans hle

end

/-! ### Every run -/

/-- The tape tells what has been received until a time. -/
structure Tape.Told (symbols : List ℤ) (t : ℚ) (tape : Tape) : Prop where
  recentTrades : tape.recentTrades = recorded symbols tape.history
  sorted : tape.history.Pairwise fun r r' ↦ r.received ≤ r'.received
  received : ∀ r ∈ tape.history, r.received ≤ t
  clock : tape.clock = t

namespace Tape.Told

variable {symbols : List ℤ} {t t' : ℚ} {tape : Tape}

theorem init (symbols : List ℤ) (t : ℚ) : (Tape.init symbols t).Told symbols t :=
  ⟨rfl, .nil, fun _ hr ↦ (nomatch hr), rfl⟩

theorem tick (h : tape.Told symbols t) (hle : t ≤ t') : (tape.tick t').Told symbols t' :=
  ⟨h.recentTrades, h.sorted, fun r hr ↦ (h.received r hr).trans hle, rfl⟩

/-- A summary is received. -/
theorem onTradeSummary (h : tape.Told symbols t) (body : TradeSummary) (timestamp : ℕ) :
    (tape.onTradeSummary body timestamp).Told symbols t where
  recentTrades := by
    unfold Tape.onTradeSummary recorded
    rw [List.foldl_append, ← recorded, ← h.recentTrades]
    rfl
  sorted := by
    refine List.pairwise_append.2 ⟨h.sorted, List.pairwise_singleton _ _, fun r hr r' hr' ↦ ?_⟩
    rw [List.mem_singleton.1 hr']
    exact (h.received r hr).trans h.clock.ge
  received r hr := by
    rcases List.mem_append.1 hr with hr | hr
    · exact h.received r hr
    · rw [List.mem_singleton.1 hr]
      exact h.clock.le
  clock := h.clock

end Tape.Told

section

variable {O : Outside ω} {cfg : AggressionConfig} {symbols : List ℤ} {t : ℚ}

/-- What does not record leaves the tape as it is. -/
theorem keeps_untaped (P : Tape → Prop) (call : StrategyM ω Unit) :
    Keeps (fun x : (OrderStrategy ω × Tape) × OrderBookManager ↦ P x.1.2) (untaped call) := by
  intro x hx
  unfold untaped
  rw [after_zoom]
  exact hx

theorem keeps_onMarketDataUpdate (P : Tape → Prop) :
    Keeps (fun x : (OrderStrategy ω × Tape) × OrderBookManager ↦ P x.1.2)
      (tapedMethods O cfg).onMarketDataUpdate := by
  intro x hx
  have hafter : (tapedMethods O cfg).onMarketDataUpdate.after x =
      (untaped (onMarketDataUpdate (O.detecting cfg x.1.2.recentTrades))).after x :=
    after_congr rfl
  rw [hafter]
  exact keeps_untaped P _ x hx

/-- **Only `on_trade_summary` writes the tape.** -/
theorem guards_told : World.Guards (tapedMethods O cfg) (fun x ↦ x.2.Told symbols t)
    (fun x ↦ x.2.Told symbols t) where
  weaken _ hx := hx
  suspend _ hx := hx
  resume _ hx := hx
  onRawMessage header body := keeps_untaped (Tape.Told symbols t) (onRawMessage O header body)
  onTradeSummary body timestamp := keeps_modify fun _ hx ↦ hx.onTradeSummary body timestamp
  onMarketDataUpdate := keeps_iff_triple.1 (keeps_onMarketDataUpdate (Tape.Told symbols t))

/-- One event. -/
theorem told_tapedMethod (event : LoopEvent) :
    Keeps (World.Holds fun x ↦ x.2.Told symbols t) (event.tapedMethod O cfg) := by
  cases event with
  | turn rest => exact (keeps_iff_triple.2 (guards_told.turn rest)).bind fun _ ↦ keeps_pure _
  | connectionLost => exact World.holds_onStrategy (keeps_untaped _ _)

/-- **A run** by a clock that does not go back. -/
theorem told_runTaped {events : List (ℚ × LoopEvent)} {w : World (OrderStrategy ω × Tape)}
    (hclock : (t :: events.map Prod.fst).Pairwise (· ≤ ·))
    (hw : World.Holds (fun x ↦ x.2.Told symbols t) w) :
    ∃ t', World.Holds (fun x ↦ x.2.Told symbols t') (runTaped O cfg events w) := by
  induction events generalizing t w with
  | nil => exact ⟨t, hw⟩
  | cons e events ih =>
    obtain ⟨t', event⟩ := e
    obtain ⟨hfirst, hclock⟩ := List.pairwise_cons.1 hclock
    refine ih hclock (told_tapedMethod event _ fun x hx ↦ ?_)
    obtain ⟨y, hy, rfl⟩ := Option.map_eq_some_iff.1 hx
    exact (hw y hy).tick (hfirst t' (List.mem_cons_self ..))

end

/-- **When old trades do not count as aggression**: in any run, by a clock that does not go back,
leaving out the summaries that were received before the window changes nothing exactly if the old
ones that the deque still holds and that count do not outweigh the recent ones. -/
theorem detectAggression_iff {O : Outside ω} {cfg : AggressionConfig} {symbols : List ℤ}
    {synchronizer : SnapShotSynchronizer} {s₀ s : OrderStrategy ω} {tape : Tape} {t₀ : ℚ}
    {events : List (ℚ × LoopEvent)} (hclock : (t₀ :: events.map Prod.fst).Pairwise (· ≤ ·))
    (hrun : (runTaped O cfg events
      ⟨synchronizer, some (s₀, .init symbols t₀)⟩).strategy = some (s, tape))
    {symbol : ℤ} (hsymbol : symbol ∈ symbols) (now : ℚ) (side : ℤ) :
    detectAggression cfg now side (tape.recentTrades.trades symbol) =
        detectAggression cfg now side
          ((recorded symbols (tape.history.filter fun r ↦ r.recent cfg now)).trades symbol) ↔
      ¬OldOutweigh cfg now side (held symbol tape.history) := by
  have hstart : World.Holds (fun x : OrderStrategy ω × Tape ↦ x.2.Told symbols t₀)
      ⟨synchronizer, some (s₀, .init symbols t₀)⟩ := by
    intro x hx
    obtain rfl := Option.some.inj hx
    exact .init symbols t₀
  obtain ⟨t, htold⟩ := told_runTaped hclock hstart
  obtain ⟨hrecent, hsorted, -, -⟩ := htold _ hrun
  rw [hrecent, recorded_trades hsymbol, recorded_trades hsymbol, held_filter_recent hsorted]
  exact detectAggression_recent_iff _

/-- Number 1 on the live channel: a buyer has traded one of symbol 1. The timestamp counts the
nanoseconds since 1970. -/
def summaryPacket : List UInt8 :=
  [0x47, 0x4F, 0x49, 0x52, 0x49, 0x53, 0x48, 0x21, 36, 0, 1, 0, 0, 0] ++ List.replicate 7 0 ++
    [0x17, 5, 1, 0, 0, 0, 1, 1, 0, 0, 0, 100, 0, 0, 0]

/-- A new strategy has received it at local time 0. -/
def afterSummary : World (OrderStrategy Unit × Tape) :=
  runTaped idle {} [(0, .turn summaryPacket)] ⟨World.synced.synchronizer,
    some (.init (.init [] [] 0 0 0 none []) {} (), .init ({} : OrderStrategyConfig).symbols 0)⟩

theorem exists_afterSummary : ∃ s tape, afterSummary.strategy = some (s, tape) ∧
    tape.history = [⟨⟨1, .buy, 1, 100⟩, 0x17 * 2 ^ 56, 0⟩] ∧
    tape.recentTrades.trades 1 = [⟨0x17 * 2 ^ 56, 1, .buy, 1, 100⟩] :=
  ⟨_, _, rfl, rfl, rfl⟩

/-- The condition on the one summary of that run. -/
theorem detectAggression_iff_afterSummary :
    ∃ s tape, afterSummary.strategy = some (s, tape) ∧
      (detectAggression {} 1000 Side.buy.value (tape.recentTrades.trades 1) =
          detectAggression {} 1000 Side.buy.value ((recorded ({} : OrderStrategyConfig).symbols
            (tape.history.filter fun r ↦ r.recent {} 1000)).trades 1) ↔
        ¬OldOutweigh {} 1000 Side.buy.value (held 1 tape.history)) := by
  obtain ⟨s, tape, hrun, -, -⟩ := exists_afterSummary
  exact ⟨s, tape, hrun, detectAggression_iff (by simp) hrun (by decide) 1000 Side.buy.value⟩

/-- **A trade of long ago** counts as aggression, and without it there is none. -/
theorem aggression_of_long_ago :
    ∃ s tape, afterSummary.strategy = some (s, tape) ∧
      (∀ r ∈ tape.history, r.received = 0) ∧
      detectAggression {} 1000 Side.buy.value (tape.recentTrades.trades 1) = true ∧
      detectAggression {} 1000 Side.buy.value ((recorded ({} : OrderStrategyConfig).symbols
        (tape.history.filter fun r ↦ r.recent {} 1000)).trades 1) = false := by
  obtain ⟨s, tape, hrun, hhistory, htrades⟩ := exists_afterSummary
  refine ⟨s, tape, hrun, ?_, ?_, ?_⟩
  · rw [hhistory]
    intro r hr
    rw [List.mem_singleton.1 hr]
  · rw [htrades]
    decide +kernel
  · rw [hhistory]
    decide +kernel

end HftTrading.Strategy
