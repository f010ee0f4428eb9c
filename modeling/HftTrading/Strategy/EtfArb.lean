import HftTrading.Strategy.OrderStrategy

/-!
# ETF arbitrage and the update of the strategy

`ETFArbEngine`: when the ETF trades above its basket the basket is bought, turned into the ETF and
the ETF is sold, and the other way round. The ETF service is outside: what it answers is given, and
what it moves is booked straight into the position tracker.

`on_market_data_update` is what the feed calls after each message, and `connectionLost` is what
`run_market_data` does about a lost connection.

The engine trades one of everything, in immediate-or-cancel orders under ids of its own. A leg is
accepted or not by the first response to its order. The service may succeed, fail, or raise, and the
source tells two kinds of exceptions apart: the one of the requests is caught like a failure, and
any other gets out of the engine. A run of the strategy is a sequence of the things that the packet
loop does with it (`Event`).
-/

namespace HftTrading.Strategy

open OrderEntry
open MarketData (MDHeader MarketDataMessage TradeSummary)

/-- `ETF_SYM`. -/
def ETF_SYM : ℤ := 13

/-- `UNDERLYING_SYMS`. -/
def UNDERLYING_SYMS : List ℤ := [3, 4, 5, 6, 7, 8, 9, 10, 11, 12]

namespace ETFArbEngine

open OrderStrategy

variable {ω : Type} (O : Outside ω)

/-- Change the engine. -/
def update (f : ETFArbEngine → ETFArbEngine) : StrategyM ω Unit :=
  OrderStrategy.update fun s ↦ { s with etfArb := f s.etfArb }

/-- `_alloc_oid`. -/
def allocOid : StrategyM ω ℤ := do
  let s ← getStrategy
  update fun e ↦ { e with nextOid := e.nextOid + 1 }
  pure s.etfArb.nextOid

/-- No arbitrage for a while. -/
def coolDown (seconds : ℚ) : StrategyM ω Unit := do
  let now ← monotonic O
  update fun e ↦ { e with cooldownUntil := now + seconds }

/-- `client.position_tracker.update_position`, for what the ETF service has moved. -/
def updatePosition (symbol buyQty sellQty : ℤ) : StrategyM ω Unit :=
  OrderStrategy.update fun s ↦ s.setClient { s.client with
    positionTracker := s.client.positionTracker.updatePosition symbol buyQty sellQty }

/-- `_basket_prices`: the sum of the best asks and the sum of the best bids. -/
def basketPrices : List ℤ → StrategyM ω (Option (ℤ × ℤ))
  | [] => pure (some (0, 0))
  | sym :: syms => do
    match ← best? sym .buy, ← best? sym .sell with
    | some bid, some ask =>
      if bid.1 ≤ 0 ∨ ask.1 ≤ 0 then pure none
      else do
        let sums ← basketPrices syms
        pure (sums.map fun s ↦ (ask.1 + s.1, bid.1 + s.2))
    | _, _ => pure none

/-- `_unwind`. -/
def unwind (syms : List ℤ) (side : Side) : StrategyM ω Unit :=
  Method.all (syms.map fun sym ↦ do
    let price ← best? sym (if side = .sell then .buy else .sell)
    match price with
    | none => pure ()
    | some price =>
      if price.1 ≤ 0 then pure ()
      else do
        let oid ← allocOid
        let _ ← immediateOrCancel O oid sym side.value 1 price.1)

/-- The buys of `_execute_create_arb`, up to the first that fails, behind those filled so far. -/
def buyBasket : List ℤ → List ℤ → StrategyM ω (List ℤ)
  | [], filled => pure filled
  | sym :: syms, filled => do
    match ← best? sym .sell with
    | none => pure filled
    | some ask =>
      if ask.1 ≤ 0 then pure filled
      else do
        let oid ← allocOid
        let resp ← immediateOrCancel O oid sym Side.buy.value 1 ask.1
        if Quoting.accepted resp then buyBasket syms (filled ++ [sym]) else pure filled

/-- `_execute_create_arb`, once the whole basket is bought. -/
def createAndSell (filled : List ℤ) (undyBid : ℤ) : StrategyM ω Unit := do
  let reply ← post O .create
  match reply with
  | .success => do
    Method.all (UNDERLYING_SYMS.map fun sym ↦ updatePosition sym 0 1)
    updatePosition ETF_SYM 1 0
    let oid ← allocOid
    let _ ← immediateOrCancel O oid ETF_SYM Side.sell.value 1 undyBid
  | .failed | .requestException => unwind O filled .sell
  | .otherException => throw .rest

/-- `_execute_create_arb`. -/
def executeCreateArb (undyBid : ℤ) : StrategyM ω Unit := do
  let filled ← buyBasket O UNDERLYING_SYMS []
  if filled.length = UNDERLYING_SYMS.length then createAndSell O filled undyBid
  else unwind O filled .sell
  coolDown O 2

/-- The sales of `_execute_redeem_arb`. -/
def sellBasket (syms : List ℤ) : StrategyM ω Unit :=
  Method.all (syms.map fun sym ↦ do
    match ← best? sym .buy with
    | none => pure ()
    | some bid =>
      if bid.1 ≤ 0 then pure ()
      else do
        let oid ← allocOid
        let _ ← immediateOrCancel O oid sym Side.sell.value 1 bid.1)

/-- `_execute_redeem_arb`, once the ETF is bought. -/
def redeemAndSell : StrategyM ω Unit := do
  let reply ← post O .redeem
  match reply with
  | .success => do
    updatePosition ETF_SYM 0 1
    Method.all (UNDERLYING_SYMS.map fun sym ↦ updatePosition sym 1 0)
    sellBasket O UNDERLYING_SYMS
  | .failed | .requestException => pure ()
  | .otherException => throw .rest

/-- `_execute_redeem_arb`. -/
def executeRedeemArb (undyAsk : ℤ) : StrategyM ω Unit := do
  let oid ← allocOid
  let resp ← immediateOrCancel O oid ETF_SYM Side.buy.value 1 undyAsk
  if !Quoting.accepted resp then coolDown O 1
  else do
    redeemAndSell O
    coolDown O 2

/-- `step`, with a price on both sides of the ETF. -/
def stepPriced (undyBid undyAsk : ℤ) : StrategyM ω Unit := do
  let s ← getStrategy
  match ← basketPrices UNDERLYING_SYMS with
  | none => pure ()
  | some (basketAsk, basketBid) =>
    if undyBid - basketAsk ≥ s.etfArb.threshold then executeCreateArb O undyBid
    else if basketBid - undyAsk ≥ s.etfArb.threshold then executeRedeemArb O undyAsk
    else pure ()

/-- `step`. -/
def step : StrategyM ω Unit := do
  let now ← monotonic O
  let s ← getStrategy
  if now < s.etfArb.cooldownUntil then pure ()
  else
    match ← best? ETF_SYM .buy, ← best? ETF_SYM .sell with
    | some undyBid, some undyAsk =>
      if undyBid.1 ≤ 0 ∨ undyAsk.1 ≤ 0 then pure ()
      else stepPriced O undyBid.1 undyAsk.1
    | _, _ => pure ()

end ETFArbEngine

namespace OrderStrategy

variable {ω : Type} (O : Outside ω)

/-- `on_market_data_update`. -/
def onMarketDataUpdate : StrategyM ω Unit := do
  let s ← getStrategy
  if !s.enabled || s.killed then pure ()
  else if s.pendingFlatten then goFlat O
  else do
    checkActiveSpoofs O
    let s ← getStrategy
    if s.client.pnlTracker.getPnl < s.config.pnlKillFloor then do
      update fun s ↦ { s with killed := true }
      stop
    else do
      Method.all (s.config.symbols.map (stepSymbol O))
      if s.config.etfArbEnabled then ETFArbEngine.step O

/-- What a book error does: `enabled = False`, `_pending_flatten = True`. -/
def suspend (s : OrderStrategy ω) : OrderStrategy ω :=
  { s with enabled := false, pendingFlatten := true }

/-- What a replay does: `if _pending_flatten: enabled = True`. -/
def resume (s : OrderStrategy ω) : OrderStrategy ω :=
  if s.pendingFlatten then { s with enabled := true } else s

/-- `on_raw_message`. -/
def onRawMessage (header : MDHeader) (body : MarketDataMessage) : StrategyM ω Unit :=
  modify fun x ↦ ({ x.1 with outside := O.onRawMessage header body x.2 x.1.outside }, x.2)

/-- `on_trade_summary`. -/
def onTradeSummary (body : TradeSummary) (timestamp : ℕ) : StrategyM ω Unit :=
  update fun s ↦ { s with outside := O.onTradeSummary body timestamp s.outside }

/-- The strategy, as the packet loop calls it. -/
def methods : StrategyMethods (OrderStrategy ω) StrategyError where
  suspend := suspend
  resume := resume
  onRawMessage := onRawMessage O
  onTradeSummary := onTradeSummary O
  onMarketDataUpdate := onMarketDataUpdate O
  isConnectionError := StrategyError.isConnectionError

/-- What `run_market_data` does about a `ConnectionError`. -/
def connectionLost : StrategyM ω Unit := do
  update suspend
  tryCatch (do
    dealing (fun _ ↦ .reconnect) (onClient OrderEntryClient.reconnect)
    update fun s ↦ { s with enabled := true }) fun e ↦
      if e.isConnectionError then update fun s ↦ { s with killed := true } else throw e

/-! ### Runs -/

/-- What happens to the strategy, one thing after another. -/
inductive Event
  /-- The feed has left the books like this. -/
  | books (m : OrderBookManager)
  | rawMessage (header : MDHeader) (body : MarketDataMessage)
  | tradeSummary (body : TradeSummary) (timestamp : ℕ)
  | marketDataUpdate
  | suspend
  | resume
  | connectionLost
  /-- `go_flat`, at a keyboard interrupt. -/
  | goFlat
  | stop

/-- What the strategy does about it. -/
def Event.method : Event → StrategyM ω Unit
  | .books m => modify fun x ↦ (x.1, m)
  | .rawMessage header body => OrderStrategy.onRawMessage O header body
  | .tradeSummary body timestamp => OrderStrategy.onTradeSummary O body timestamp
  | .marketDataUpdate => OrderStrategy.onMarketDataUpdate O
  | .suspend => update OrderStrategy.suspend
  | .resume => update OrderStrategy.resume
  | .connectionLost => OrderStrategy.connectionLost
  | .goFlat => OrderStrategy.goFlat O
  | .stop => OrderStrategy.stop

/-- The state after a run, which goes on whatever is raised. -/
def runEvents (events : List Event) (x : OrderStrategy ω × OrderBookManager) :
    OrderStrategy ω × OrderBookManager :=
  Method.run (events.map (Event.method O)) x

end OrderStrategy

end HftTrading.Strategy
