import HftTrading.OrderEntry.Live

/-!
# Quoting

The quotes of `OrderStrategy`: for each symbol it remembers, side by side, the id and the price of
the order that it takes to be its quote (`SymbolState`), and places, moves and withdraws it through
the client (`placeQuote`, `modifyQuote`, `cancelQuote`, `manageQuote`). Whether an order was
accepted is read off the first response alone (`accepted`).

The four are methods on the state of one symbol and the client; the strategy runs them on the state
that it has for the symbol. What each of them leaves is said without its text, by what the call of
the client returned or raised (`Placed`, `Moved`): which id and which price are tracked then. No
statement here is about the order itself, whether it is open or what it is at.
-/

namespace HftTrading.Strategy

open OrderEntry OrderEntryClient

/-- `TICK_SIZE`. -/
def TICK_SIZE : Dict ℤ ℤ where
  entries := [(1, 10), (2, 5), (3, 5), (4, 5), (5, 5), (6, 5), (7, 5), (8, 5), (9, 5), (10, 5),
    (11, 5), (12, 5), (13, 10)]
  nodup := by decide

/-- `get_tick`. -/
def getTick (symbol : ℤ) : ℤ := (TICK_SIZE.get? symbol).getD 5

/-- What quoting reads of `StrategyConfig`. -/
structure StrategyConfig where
  orderQty : ℤ := 2
  requoteThresholdTicks : ℤ := 2
  deriving DecidableEq

/-- What quoting uses of `SymbolState`. -/
structure SymbolState where
  symbol : ℤ
  tick : ℤ
  bidOrderId : Option ℤ
  askOrderId : Option ℤ
  bidPrice : ℤ
  askPrice : ℤ
  nextOrderId : ℤ
  tick_eq : tick = getTick symbol
  deriving DecidableEq

namespace SymbolState

/-- `SymbolState.__init__`. -/
def init (symbol startOrderId : ℤ) : SymbolState where
  symbol := symbol
  tick := getTick symbol
  bidOrderId := none
  askOrderId := none
  bidPrice := 0
  askPrice := 0
  nextOrderId := startOrderId
  tick_eq := rfl

/-- The order id and the price tracked on a side. -/
def quote (side : ℤ) (s : SymbolState) : Option ℤ × ℤ :=
  if side = Side.buy.value then (s.bidOrderId, s.bidPrice) else (s.askOrderId, s.askPrice)

/-- Track this on a side. -/
def track (side : ℤ) (orderId : Option ℤ) (price : ℤ) (s : SymbolState) : SymbolState :=
  if side = Side.buy.value then { s with bidOrderId := orderId, bidPrice := price }
  else { s with askOrderId := orderId, askPrice := price }

/-- Two integers name one side if both or neither are `Side.BUY`. -/
theorem quote_track (side side' : ℤ) (orderId : Option ℤ) (price : ℤ) (s : SymbolState) :
    (s.track side orderId price).quote side' =
      if (side' = Side.buy.value ↔ side = Side.buy.value) then (orderId, price)
      else s.quote side' := by
  unfold track quote
  by_cases hside : side = Side.buy.value
  · by_cases hside' : side' = Side.buy.value
    · rw [if_pos hside, if_pos hside', if_pos (iff_of_true hside' hside)]
    · rw [if_pos hside, if_neg hside', if_neg fun h ↦ hside' (h.2 hside), if_neg hside']
  · by_cases hside' : side' = Side.buy.value
    · rw [if_neg hside, if_pos hside', if_neg fun h ↦ hside (h.1 hside'), if_pos hside']
    · rw [if_neg hside, if_neg hside', if_pos (iff_of_false hside' hside)]

end SymbolState

/-- What the strategy quotes one symbol with. -/
structure Quoting where
  client : OrderEntryClient
  config : StrategyConfig
  state : SymbolState
  deriving DecidableEq

namespace Quoting

/-- A method of the strategy that quotes one symbol. -/
abbrev QuotingM (α : Type) : Type := Method OeError Quoting α

/-- Write back the client. -/
def setClient (client : OrderEntryClient) (s : Quoting) : Quoting := { s with client := client }

/-- Track a quote. -/
def track (side : ℤ) (orderId : Option ℤ) (price : ℤ) (s : Quoting) : Quoting :=
  { s with state := s.state.track side orderId price }

/-- A call on the client. -/
def onClient {α : Type} (call : ClientM α) : QuotingM α := fun s ↦ call.focus s.client setClient s

/-- Use up an order id. -/
def allocated (s : Quoting) : Quoting :=
  { s with state := { s.state with nextOrderId := s.state.nextOrderId + 1 } }

/-- `alloc_order_id`. -/
def allocOrderId : QuotingM ℤ := do
  let s ← get
  modify allocated
  pure s.state.nextOrderId

/-- `responses and not self._is_reject(responses[0])`. -/
def accepted (responses : List OeResponse) : Bool :=
  match responses with
  | [] => false
  | first :: _ => !isReject first

/-- `_place_quote`. -/
def placeQuote (now : ℚ) (side price : ℤ) : QuotingM Unit := do
  let oid ← allocOrderId
  let s ← get
  if price % s.state.tick ≠ 0 then pure ()
  else do
    let responses ← onClient
      (newOrder now oid s.state.symbol side s.config.orderQty price OrderFlags.none.value)
    if accepted responses then modify (track side (some oid) price) else pure ()

/-- `_modify_quote`. -/
def modifyQuote (side newPrice : ℤ) : QuotingM Unit := do
  let s ← get
  if newPrice % s.state.tick ≠ 0 then pure ()
  else
    match (s.state.quote side).1 with
    | none => pure ()
    | some oid => do
      let responses ← onClient (modifyOrder oid side s.config.orderQty newPrice)
      if accepted responses then modify (track side (some oid) newPrice)
      else modify (track side none 0)

/-- `_cancel_quote`. -/
def cancelQuote (side : ℤ) : QuotingM Unit := do
  let s ← get
  match (s.state.quote side).1 with
  | none => pure ()
  | some oid => do
    let _ ← onClient (deleteOrder oid)
    modify (track side none 0)

/-- `_manage_quote`. -/
def manageQuote (now : ℚ) (side targetPrice : ℤ) (shouldQuote : Bool) : QuotingM Unit := do
  let s ← get
  let thresholdPx := s.config.requoteThresholdTicks * s.state.tick
  let (currentOid, currentPx) := s.state.quote side
  if !shouldQuote then
    if currentOid.isSome then cancelQuote side else pure ()
  else if currentOid.isNone then placeQuote now side targetPrice
  else if |targetPrice - currentPx| ≥ thresholdPx then modifyQuote side targetPrice
  else pure ()

/-! ### What a call tracks -/

variable {s : Quoting} {side price : ℤ}

/-- A call of the client that returns. -/
theorem onClient_ok {α : Type} {call : ClientM α} {a : α} {c : OrderEntryClient}
    (h : call s.client = .ok a c) : onClient call s = .ok a (s.setClient c) :=
  Method.focus_ok h setClient s

/-- One that raises, with the client as it leaves it. -/
theorem onClient_error {α : Type} {call : ClientM α} {e : OeError} {c : OrderEntryClient}
    (h : call s.client = .error e c) : onClient call s = .error e (s.setClient c) :=
  Method.focus_error h setClient s

/-- How `_place_quote` can end. -/
inductive Placed (now : ℚ) (side price : ℤ) (s s' : Quoting) : Prop
  /-- No quote is tracked that was not. -/
  | refused (hclient : s'.client = s.client ∨ s'.client =
        (newOrder now s.state.nextOrderId s.state.symbol side s.config.orderQty price
          OrderFlags.none.value).after s.client)
      (hquote : ∀ side', s'.state.quote side' = s.state.quote side')
  /-- The responses begin with one that counts as an acceptance. -/
  | tracked {responses : List OeResponse}
      (hrun : newOrder now s.state.nextOrderId s.state.symbol side s.config.orderQty price
        OrderFlags.none.value s.client = .ok responses s'.client)
      (haccepted : accepted responses = true)
      (hquote : s'.state.quote side = (some s.state.nextOrderId, price))

/-- **What placing a quote leaves tracked.** -/
theorem placed_after_placeQuote (now : ℚ) (side price : ℤ) (s : Quoting) :
    Placed now side price s ((placeQuote now side price).after s) := by
  unfold placeQuote Method.after
  rw [Method.bind_ok (show allocOrderId s = .ok s.state.nextOrderId s.allocated from rfl),
    Method.bind_ok (Method.get_apply s.allocated)]
  by_cases htick : price % s.allocated.state.tick ≠ 0
  · rw [if_pos htick]
    exact .refused (Or.inl rfl) fun _ ↦ rfl
  rw [if_neg htick]
  rcases hrun : newOrder now s.state.nextOrderId s.allocated.state.symbol side
    s.allocated.config.orderQty price OrderFlags.none.value s.allocated.client with
    ⟨responses, c⟩ | ⟨e, c⟩
  · rw [Method.bind_ok (onClient_ok hrun)]
    rcases haccepted : accepted responses with - | -
    · exact .refused (Or.inr (Method.after_ok hrun).symm) fun _ ↦ rfl
    · exact .tracked hrun haccepted
        ((SymbolState.quote_track side side _ price _).trans (if_pos Iff.rfl))
  · rw [Method.bind_error (onClient_error hrun)]
    exact .refused (Or.inr (Method.after_error hrun).symm) fun _ ↦ rfl

/-- How `_modify_quote` can end. -/
inductive Moved (side newPrice : ℤ) (s s' : Quoting) : Prop
  /-- Every quote is what it was, or is given up. -/
  | refused (hquote : ∀ side', s'.state.quote side' = s.state.quote side' ∨
      s'.state.quote side' = (none, 0))
  /-- The responses begin with one that counts as an acceptance. -/
  | tracked {oid : ℤ} {responses : List OeResponse}
      (hoid : (s.state.quote side).1 = some oid)
      (hrun : modifyOrder oid side s.config.orderQty newPrice s.client = .ok responses s'.client)
      (haccepted : accepted responses = true)

/-- **What moving one leaves tracked.** -/
theorem moved_after_modifyQuote (side newPrice : ℤ) (s : Quoting) :
    Moved side newPrice s ((modifyQuote side newPrice).after s) := by
  unfold modifyQuote Method.after
  rw [Method.bind_ok (Method.get_apply s)]
  by_cases htick : newPrice % s.state.tick ≠ 0
  · rw [if_pos htick]
    exact .refused fun _ ↦ Or.inl rfl
  rw [if_neg htick]
  rcases hoid : (s.state.quote side).1 with - | oid
  · exact .refused fun _ ↦ Or.inl rfl
  dsimp only
  rcases hrun : modifyOrder oid side s.config.orderQty newPrice s.client with
    ⟨responses, c⟩ | ⟨e, c⟩
  · rw [Method.bind_ok (onClient_ok hrun)]
    rcases haccepted : accepted responses with - | -
    · refine .refused fun side' ↦ ?_
      have htrack := SymbolState.quote_track side side' none 0 s.state
      split at htrack
      · exact Or.inr htrack
      · exact Or.inl htrack
    · exact .tracked hoid hrun haccepted
  · rw [Method.bind_error (onClient_error hrun)]
    exact .refused fun _ ↦ Or.inl rfl

end Quoting

end HftTrading.Strategy
