import HftTrading.Book.Manager
import HftTrading.Feed.Buffer
import HftTrading.Strategy.Quote
import Mathlib.Algebra.Order.Floor.Ring
import Mathlib.Data.Rat.Floor

/-!
# The strategy

`OrderStrategy`, with the ETF arbitrage that it owns: what it does on each update of the market, and
`go_flat`. Its integer logic is written as the source has it: which quotes are placed, moved or
withdrawn, which spoofs are sent, which orders close a position, and which order ids are used up.

What it takes from outside is a parameter (`Outside`), over a hidden state of any type: the clock,
the floating-point signals on which a quote is priced, and the answers of the ETF service. So a run
is a run for every clock, every signal and every answer.

The fields `history` and `flattened` are records and not state: no operation reads them. They note
what the strategy has had to do with the exchange, and how often `go_flat` has run to its end.

## Exceptions

The methods are methods on the strategy and the manager, so that whatever has been done before an
exception stays done. Some are caught where the source catches them, around a quote or a cancel; a
lost connection is not, and ends the update. An update is one turn of the packet loop, which goes on
or handles the lost connection according to what it raises.
-/

namespace HftTrading.Strategy

open OrderEntry
open MarketData (MDHeader MarketDataMessage TradeSummary)

/-! ### What is outside -/

/-- What `_step_symbol` computes in floating point. -/
structure Signals where
  /-- The rounded `raw_bid` and `raw_ask`. -/
  bidPrice : ℤ
  askPrice : ℤ
  /-- The bid and the ask that replace them when the inventory is extreme. -/
  panicBid : ℤ
  panicAsk : ℤ
  /-- `_detect_aggression` of each side. -/
  buyAggression : Bool
  sellAggression : Bool
  deriving DecidableEq

/-- A request to the ETF service. -/
inductive RestCall
  | create
  | redeem
  deriving DecidableEq

/-- How it ends. -/
inductive RestReply
  | success
  | failed
  | requestException
  | otherException
  deriving DecidableEq

/-- What the strategy takes from outside, over a hidden state. -/
structure Outside (ω : Type) where
  /-- `time.monotonic`. -/
  monotonic : ω → ℚ × ω
  /-- How many turns of `go_flat` there is time for at the most: each of them sleeps. -/
  attempts : ω → ℕ
  /-- The signals for a symbol with a tick, a best bid and a best ask, each with its quantity, and a
  position. Computing them may raise. -/
  signals : ℤ → ℤ → ℤ × ℤ → ℤ × ℤ → ℤ → ω → Option Signals × ω
  /-- `on_raw_message` feeds the spoof detector. -/
  onRawMessage : MDHeader → MarketDataMessage → OrderBookManager → ω → ω
  /-- `on_trade_summary` feeds the detection of aggression. -/
  onTradeSummary : TradeSummary → ℕ → ω → ω
  /-- A request to the ETF service. -/
  post : RestCall → ω → RestReply × ω

/-! ### The state -/

/-- `StrategyConfig`, but for what only the signals use. -/
structure OrderStrategyConfig extends StrategyConfig where
  softPosition : ℤ := 6
  panicPosition : ℤ := 5
  pnlKillFloor : ℚ := -18000
  symbols : List ℤ := [1, 2, 3, 4, 5, 6, 7, 8, 9, 10, 11, 12]
  etfArbEnabled : Bool := true
  etfArbThreshold : ℤ := 100
  spoofEnabled : Bool := true
  spoofQty : ℤ := 5
  spoofOffsetTicks : ℤ := 2
  spoofLifetime : ℚ := 2 / 5
  deriving DecidableEq

/-- `ActiveSpoof`. -/
structure ActiveSpoof where
  orderId : ℤ
  symbol : ℤ
  side : ℤ
  cancelAt : ℚ
  deriving DecidableEq

/-- `ETFArbEngine`. -/
structure ETFArbEngine where
  threshold : ℤ
  cooldownUntil : ℚ
  nextOid : ℤ
  deriving DecidableEq

/-- What the strategy has to do with the exchange at a time. -/
inductive Task
  /-- Place a quote under this id. -/
  | place (orderId : ℤ)
  /-- Move a quote to a price. -/
  | move (orderId price currentPrice : ℤ)
  /-- Withdraw a quote. -/
  | withdraw (orderId : ℤ)
  /-- Any other call on the client. -/
  | other
  /-- `go_flat` has looked at the positions that it is going to close. -/
  | attempt
  /-- Connect anew. -/
  | reconnect
  deriving DecidableEq

/-- A task, with what was tracked and the client before it, and the client after it. -/
structure Dealing where
  task : Task
  quotes : Dict ℤ SymbolState
  before : OrderEntryClient
  after : OrderEntryClient
  returned : Bool

/-- `OrderStrategy`. It has an ETF engine if the configuration enables it. -/
structure OrderStrategy (ω : Type) where
  client : OrderEntryClient
  enabled : Bool
  config : OrderStrategyConfig
  killed : Bool
  state : Dict ℤ SymbolState
  activeSpoofs : Dict ℤ ActiveSpoof
  etfArb : ETFArbEngine
  pendingFlatten : Bool
  flattenOidCounter : ℤ
  /-- What is outside. -/
  outside : ω
  /-- What it has had to do with the exchange. -/
  history : List Dealing
  /-- How often `go_flat` has run to its end. -/
  flattened : ℕ

/-- `ARB_ORDER_ID_BASE`. -/
def ARB_ORDER_ID_BASE : ℤ := 5000000

/-- `ETFArbEngine.__init__`. -/
def ETFArbEngine.init (threshold : ℤ) : ETFArbEngine := ⟨threshold, 0, ARB_ORDER_ID_BASE⟩

/-- What the strategy raises, or lets through. -/
inductive StrategyError
  | orderEntry (e : OeError)
  | feed (e : FeedError)
  | keyError (symbol : ℤ)
  | signal
  | rest
  deriving DecidableEq

/-- Whether an exception is a `ConnectionError`. -/
def StrategyError.isConnectionError : StrategyError → Bool
  | .orderEntry .brokenConnection | .orderEntry .connectionReset | .orderEntry .connectionRefused
  | .orderEntry .reconnectFailed => true
  | _ => false

namespace OrderStrategy

variable {ω α : Type}

/-- `OrderStrategy.__init__`. -/
def init (client : OrderEntryClient) (config : OrderStrategyConfig) (outside : ω) :
    OrderStrategy ω where
  client := client
  enabled := true
  config := config
  killed := false
  state := config.symbols.foldl (fun d sym ↦ d.insert sym (.init sym (sym * 100000))) .empty
  activeSpoofs := .empty
  etfArb := .init config.etfArbThreshold
  pendingFlatten := false
  flattenOidCounter := 15000000
  outside := outside
  history := []
  flattened := 0

/-- A method of the strategy. It shares the books with the feed. -/
abbrev StrategyM (ω α : Type) : Type :=
  Method StrategyError (OrderStrategy ω × OrderBookManager) α

/-! ### Calls on the parts -/

/-- Write back the client. -/
def setClient (client : OrderEntryClient) (s : OrderStrategy ω) : OrderStrategy ω :=
  { s with client := client }

/-- The strategy. -/
def getStrategy : StrategyM ω (OrderStrategy ω) := fun x ↦ .ok x.1 x

/-- The books. -/
def getManager : StrategyM ω OrderBookManager := fun x ↦ .ok x.2 x

/-- Change the strategy. -/
def update (f : OrderStrategy ω → OrderStrategy ω) : StrategyM ω Unit := modify fun x ↦ (f x.1, x.2)

/-- A call on the client. -/
def onClient (call : OrderEntryClient.ClientM α) : StrategyM ω α :=
  call.zoom (fun x ↦ x.1.client) (fun c x ↦ (x.1.setClient c, x.2)) .orderEntry

/-- A call on the books. -/
def onManager (call : Method FeedError OrderBookManager α) : StrategyM ω α :=
  call.zoom Prod.snd (fun m x ↦ (x.1, m)) .feed

/-- What a symbol is quoted with. -/
def quoting (state : SymbolState) (s : OrderStrategy ω) : Quoting :=
  ⟨s.client, s.config.toStrategyConfig, state⟩

/-- Write back what a symbol is quoted with. -/
def setQuoting (symbol : ℤ) (q : Quoting) (s : OrderStrategy ω) : OrderStrategy ω :=
  { s with client := q.client, state := s.state.insert symbol q.state }

/-- A call on `self.state[symbol]`. -/
def onQuoting (symbol : ℤ) (call : Quoting.QuotingM α) : StrategyM ω α := fun x ↦
  match x.1.state.get? symbol with
  | none => .error (.keyError symbol) x
  | some state =>
    call.zoom (fun x ↦ x.1.quoting state) (fun q x ↦ (x.1.setQuoting symbol q, x.2)) .orderEntry x

/-- Note what has been dealt with since a state. -/
def noteDealing (task : Task) (s₀ : OrderStrategy ω) (returned : Bool) (s : OrderStrategy ω) :
    OrderStrategy ω :=
  { s with history := s.history ++ [⟨task, s₀.state, s₀.client, s.client, returned⟩] }

/-- Do something that has to do with the exchange, and note it. -/
def dealing (task : OrderStrategy ω → Task) (m : StrategyM ω α) : StrategyM ω α := fun x ↦
  m.onExit (fun y ↦ (noteDealing (task x.1) x.1 true y.1, y.2))
    (fun y ↦ (noteDealing (task x.1) x.1 false y.1, y.2)) x

/-- The best bid or ask of a symbol, if it has a book. -/
def best? (symbol : ℤ) (side : MarketData.Side) : StrategyM ω (Option (ℤ × ℤ)) := do
  let m ← getManager
  if m.books.contains symbol then do
    let best ← onManager (OrderBookManager.onBook symbol (OrderBook.getBest side))
    pure (some best)
  else pure none

variable (O : Outside ω)

/-- `time.monotonic`. -/
def monotonic : StrategyM ω ℚ := fun x ↦
  .ok (O.monotonic x.1.outside).1 ({ x.1 with outside := (O.monotonic x.1.outside).2 }, x.2)

/-- The signals of a symbol. -/
def signals (symbol tick : ℤ) (bid ask : ℤ × ℤ) (position : ℤ) : StrategyM ω Signals := fun x ↦
  let y := ({ x.1 with outside := (O.signals symbol tick bid ask position x.1.outside).2 }, x.2)
  match (O.signals symbol tick bid ask position x.1.outside).1 with
  | none => .error .signal y
  | some signals => .ok signals y

/-- A request to the ETF service. -/
def post (call : RestCall) : StrategyM ω RestReply := fun x ↦
  .ok (O.post call x.1.outside).1 ({ x.1 with outside := (O.post call x.1.outside).2 }, x.2)

/-- `client.new_order`. -/
def newOrder (orderId symbol side quantity price : ℤ) (flags : OrderFlags) :
    StrategyM ω (List OeResponse) := do
  let now ← monotonic O
  dealing (fun _ ↦ .other)
    (onClient (OrderEntryClient.newOrder now orderId symbol side quantity price flags.value))

/-- `client.immediate_or_cancel`. -/
def immediateOrCancel (orderId symbol side quantity price : ℤ) : StrategyM ω (List OeResponse) :=
  newOrder O orderId symbol side quantity price .ioc

/-- `client.delete_order`. -/
def deleteOrder (orderId : ℤ) : StrategyM ω (List OeResponse) :=
  dealing (fun _ ↦ .other) (onClient (OrderEntryClient.deleteOrder orderId))

/-! ### Quotes -/

/-- The id and the price tracked for a side of a symbol. -/
def quote (symbol side : ℤ) (s : OrderStrategy ω) : Option ℤ × ℤ :=
  ((s.state.get? symbol).map (SymbolState.quote side)).getD (none, 0)

/-- What withdrawing a quote comes to. -/
def withdrawTask (symbol side : ℤ) (s : OrderStrategy ω) : Task :=
  match (s.quote symbol side).1 with
  | none => .other
  | some orderId => .withdraw orderId

/-- What managing a quote comes to. -/
def manageTask (symbol side targetPrice : ℤ) (shouldQuote : Bool) (s : OrderStrategy ω) : Task :=
  if !shouldQuote then s.withdrawTask symbol side
  else match s.quote symbol side with
    | (none, _) => .place (((s.state.get? symbol).map SymbolState.nextOrderId).getD 0)
    | (some orderId, currentPrice) => .move orderId targetPrice currentPrice

/-- `_manage_quote`. -/
def manageQuote (symbol side targetPrice : ℤ) (shouldQuote : Bool) : StrategyM ω Unit := do
  let now ← monotonic O
  dealing (manageTask symbol side targetPrice shouldQuote)
    (onQuoting symbol (Quoting.manageQuote now side targetPrice shouldQuote))

/-- `_cancel_quote`. -/
def cancelQuote (symbol side : ℤ) : StrategyM ω Unit :=
  dealing (withdrawTask symbol side) (onQuoting symbol (Quoting.cancelQuote side))

/-- `_cancel_all_quotes`. -/
def cancelAllQuotes : StrategyM ω Unit := do
  let s ← getStrategy
  Method.all (s.state.keys.map fun symbol ↦ do
    cancelQuote symbol Side.buy.value
    cancelQuote symbol Side.sell.value)

/-! ### Spoofs -/

/-- `round_tick`. -/
def roundTick (price : ℚ) (tick side : ℤ) : ℤ :=
  if side = Side.buy.value then ⌊price / tick⌋ * tick else ⌈price / tick⌉ * tick

/-- `del self.active_spoofs[order_id]`. -/
def dropSpoof (orderId : ℤ) (s : OrderStrategy ω) : OrderStrategy ω :=
  { s with activeSpoofs := s.activeSpoofs.erase orderId }

/-- `_check_active_spoofs`. -/
def checkActiveSpoofs : StrategyM ω Unit := do
  let s ← getStrategy
  if s.activeSpoofs.entries = [] then pure ()
  else do
    let now ← monotonic O
    let toCancel := s.activeSpoofs.values.filter fun spoof ↦ spoof.cancelAt ≤ now
    Method.all (toCancel.map fun spoof ↦ do
      let _ ← deleteOrder spoof.orderId
      update (dropSpoof spoof.orderId))

/-- `_cancel_active_spoofs`. -/
def cancelActiveSpoofs : StrategyM ω Unit := do
  let s ← getStrategy
  Method.all (s.activeSpoofs.values.map fun spoof ↦ do
    let _ ← deleteOrder spoof.orderId)
  update fun s ↦ { s with activeSpoofs := .empty }

/-- `alloc_order_id` of a symbol's state. -/
def allocOrderId (symbol : ℤ) : StrategyM ω ℤ := onQuoting symbol Quoting.allocOrderId

/-- Keep track of a spoof. -/
def addSpoof (spoof : ActiveSpoof) (s : OrderStrategy ω) : OrderStrategy ω :=
  { s with activeSpoofs := s.activeSpoofs.insert spoof.orderId spoof }

/-- The price of a spoof, behind the best by some ticks. -/
def spoofPrice (cfg : OrderStrategyConfig) (tick side bb ba : ℤ) : ℤ :=
  if side = Side.buy.value then
    roundTick (bb - cfg.spoofOffsetTicks * tick : ℤ) tick Side.buy.value
  else roundTick (ba + cfg.spoofOffsetTicks * tick : ℤ) tick Side.sell.value

/-- `_maybe_send_spoof`. -/
def maybeSendSpoof (symbol side bb ba : ℤ) : StrategyM ω Unit := do
  let s ← getStrategy
  if s.activeSpoofs.values.any fun spoof ↦ spoof.symbol = symbol then pure ()
  else do
    let price := spoofPrice s.config (getTick symbol) side bb ba
    if price ≤ 0 then pure ()
    else do
      let oid ← allocOrderId symbol
      let responses ← newOrder O oid symbol side s.config.spoofQty price .none
      if Quoting.accepted responses then do
        let now ← monotonic O
        update (addSpoof ⟨oid, symbol, side, now + s.config.spoofLifetime⟩)
      else pure ()

/-- `_maybe_send_spoof`, behind its guard. -/
def spoofIf (sends : Bool) (symbol side bb ba : ℤ) : StrategyM ω Unit :=
  if sends then maybeSendSpoof O symbol side bb ba else pure ()

/-! ### One symbol -/

/-- What `_step_symbol` wants of a symbol. -/
structure Targets where
  bidPrice : ℤ
  askPrice : ℤ
  shouldBid : Bool
  shouldAsk : Bool
  deriving DecidableEq

/-- The prices on which nothing crosses the book, unless there are none. -/
def uncrossed (tick bb ba : ℤ) (signals : Signals) : Option (ℤ × ℤ) :=
  let bidPrice := if signals.bidPrice ≥ ba then ba - tick else signals.bidPrice
  let askPrice := if signals.askPrice ≤ bb then bb + tick else signals.askPrice
  if bidPrice ≥ askPrice then none
  else if bidPrice ≤ 0 ∨ askPrice ≤ 0 then none
  else some (bidPrice, askPrice)

/-- The position limit guards, and what an extreme inventory changes. -/
def guarded (cfg : OrderStrategyConfig) (position : ℤ) (signals : Signals) (prices : ℤ × ℤ) :
    Targets :=
  let shouldBid : Bool := position + cfg.orderQty ≤ cfg.softPosition
  let shouldAsk : Bool := position - cfg.orderQty ≥ -cfg.softPosition
  if position ≥ cfg.panicPosition then ⟨prices.1, signals.panicAsk, false, shouldAsk⟩
  else if position ≤ -cfg.panicPosition then ⟨signals.panicBid, prices.2, shouldBid, false⟩
  else ⟨prices.1, prices.2, shouldBid, shouldAsk⟩

/-- An aggressive buyer widens the ask and pulls the bid, an aggressive seller the other way. -/
def widened (tick : ℤ) (signals : Signals) (t : Targets) : Targets where
  bidPrice := if signals.sellAggression then t.bidPrice - tick else t.bidPrice
  askPrice := if signals.buyAggression then t.askPrice + tick else t.askPrice
  shouldBid := t.shouldBid && !signals.buyAggression
  shouldAsk := t.shouldAsk && !signals.sellAggression

/-- The end of `_step_symbol`: a spoof against an aggressive side, and then the two quotes. -/
def quoteBoth (symbol bb ba : ℤ) (signals : Signals) (cfg : OrderStrategyConfig) (t : Targets) :
    StrategyM ω Unit := do
  spoofIf O (signals.buyAggression && cfg.spoofEnabled) symbol Side.sell.value bb ba
  spoofIf O (signals.sellAggression && cfg.spoofEnabled) symbol Side.buy.value bb ba
  manageQuote O symbol Side.buy.value t.bidPrice t.shouldBid
  manageQuote O symbol Side.sell.value t.askPrice t.shouldAsk

/-- `_step_symbol`, once the book has a bid and an ask. -/
def stepQuoted (symbol : ℤ) (bid ask : ℤ × ℤ) : StrategyM ω Unit := do
  let s ← getStrategy
  match s.state.get? symbol with
  | none => throw (.keyError symbol)
  | some state =>
    let position := s.client.positionTracker.getPosition symbol
    let signals ← signals O symbol state.tick bid ask position
    match uncrossed state.tick bid.1 ask.1 signals with
    | none => pure ()
    | some prices =>
      quoteBoth O symbol bid.1 ask.1 signals s.config
        (widened state.tick signals (guarded s.config position signals prices))

/-- `_step_symbol`. -/
def stepSymbol (symbol : ℤ) : StrategyM ω Unit := do
  match ← best? symbol .buy, ← best? symbol .sell with
  | some bid, some ask =>
    if bid.1 ≤ 0 ∨ ask.1 ≤ 0 ∨ bid.1 > ask.1 then pure ()
    else if bid.2 ≤ 0 ∨ ask.2 ≤ 0 then pure ()
    else stepQuoted O symbol bid ask
  | _, _ => pure ()

/-! ### Going flat -/

/-- `_next_flatten_oid`. -/
def nextFlattenOid : StrategyM ω ℤ := do
  let s ← getStrategy
  update fun s ↦ { s with flattenOidCounter := s.flattenOidCounter + 1 }
  pure s.flattenOidCounter

/-- An order that closes a position, and survives whatever it raises. -/
def submitClosing (symbol side quantity price : ℤ) : StrategyM ω Unit := do
  let oid ← nextFlattenOid
  tryCatch (do let _ ← immediateOrCancel O oid symbol side quantity price) fun _ ↦ pure ()

/-- The body of an attempt of `go_flat`, for one position. -/
def closePosition (attempt : ℕ) (symbol position : ℤ) : StrategyM ω Unit := do
  let m ← getManager
  if m.books.contains symbol then do
    let tick := getTick symbol
    let aggression := attempt * 2 * tick
    if position > 0 then do
      let bb ← onManager (OrderBookManager.onBook symbol OrderBook.getBestBid)
      if bb.1 > 0 then
        submitClosing O symbol Side.sell.value position (max tick (bb.1 - aggression))
    else do
      let ba ← onManager (OrderBookManager.onBook symbol OrderBook.getBestAsk)
      if ba.1 > 0 then submitClosing O symbol Side.buy.value |position| (ba.1 + aggression)

/-- The positions that are not zero. -/
def openPositions (s : OrderStrategy ω) : List (ℤ × ℤ) :=
  s.client.positionTracker.symbolPosition.entries.filter fun p ↦ p.2 ≠ 0

/-- The attempts of `go_flat`, from one on. -/
def flattenLoop (deadline : ℚ) : ℕ → ℕ → StrategyM ω Unit
  | 0, _ => pure ()
  | turns + 1, attempt => do
    let now ← monotonic O
    if now < deadline then do
      let s ← getStrategy
      if s.openPositions = [] then pure ()
      else do
        dealing (fun _ ↦ .attempt) (pure ())
        Method.all (s.openPositions.map fun p ↦ closePosition O attempt p.1 p.2)
        flattenLoop deadline turns (attempt + 1)
    else pure ()

/-- `go_flat`. -/
def goFlat : StrategyM ω Unit := do
  cancelActiveSpoofs
  cancelAllQuotes
  let now ← monotonic O
  let s ← getStrategy
  flattenLoop O (now + 5) (O.attempts s.outside) 0
  update fun s ↦ { s with pendingFlatten := false, flattened := s.flattened + 1 }

/-- `stop`. -/
def stop : StrategyM ω Unit := do
  update fun s ↦ { s with enabled := false }
  cancelActiveSpoofs
  cancelAllQuotes

end OrderStrategy

end HftTrading.Strategy
