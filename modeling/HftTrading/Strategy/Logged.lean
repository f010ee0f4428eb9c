import HftTrading.Lib.Agree
import HftTrading.Strategy.EtfArb

/-!
# The requests to the ETF service

What the engine asks of the ETF service leaves no trace in the strategy. But the strategy takes
anything for its outside, and so also one that notes the requests (`Outside.logged`). The notes
change nothing: an arbitrage does the same with them and without (`agree_executeCreateArb`,
`agree_executeRedeemArb`).

Each method has its lemma, after its own text: started in states that are the same but for the notes
(`Forgets`), it returns or raises alike and leaves such states. So what is proved of the requests
with the notes in place holds of the engine as the program has it.
-/

namespace HftTrading.Strategy

open OrderEntry Method OrderStrategy

variable {ω : Type}

/-- Requests to the ETF service, and how each of them ended. -/
abbrev Requests : Type := List (RestCall × RestReply)

/-- The same outside, noting the requests to the ETF service. -/
def Outside.logged (O : Outside ω) : Outside (ω × Requests) where
  monotonic w := ((O.monotonic w.1).1, (O.monotonic w.1).2, w.2)
  attempts w := O.attempts w.1
  signals symbol tick bid ask position w :=
    ((O.signals symbol tick bid ask position w.1).1, (O.signals symbol tick bid ask position w.1).2,
      w.2)
  onRawMessage header body m w := (O.onRawMessage header body m w.1, w.2)
  onTradeSummary body timestamp w := (O.onTradeSummary body timestamp w.1, w.2)
  post call w :=
    ((O.post call w.1).1, (O.post call w.1).2, w.2 ++ [(call, (O.post call w.1).1)])

/-- A state of a strategy whose requests are noted. -/
abbrev LoggedState (ω : Type) : Type := OrderStrategy (ω × Requests) × OrderBookManager

/-- The state without the notes. -/
def LoggedState.forget (x : LoggedState ω) : OrderStrategy ω × OrderBookManager :=
  (⟨x.1.client, x.1.enabled, x.1.config, x.1.killed, x.1.state, x.1.activeSpoofs, x.1.etfArb,
    x.1.pendingFlatten, x.1.flattenOidCounter, x.1.outside.1, x.1.history, x.1.flattened⟩, x.2)

/-- The requests made since. -/
def requestsSince (x y : LoggedState ω) : Requests := y.1.outside.2.drop x.1.outside.2.length

/-! ### Forgetting the notes -/

/-- The state without the notes is this one. -/
def Forgets (x : LoggedState ω) (y : OrderStrategy ω × OrderBookManager) : Prop := x.forget = y

variable (O : Outside ω)

theorem agree_monotonic : Agree (Forgets (ω := ω)) (monotonic O.logged) (monotonic O) := by
  rintro x _ rfl
  exact .ok _ rfl

theorem agree_post (call : RestCall) :
    Agree (Forgets (ω := ω)) (post O.logged call) (post O call) := by
  rintro x _ rfl
  exact .ok _ rfl

theorem agree_best? (symbol : ℤ) (side : MarketData.Side) :
    Agree (Forgets (ω := ω)) (best? symbol side) (best? symbol side) := by
  refine Agree.bind (m := getManager) (n := getManager) ?_ fun m ↦ ?_
  · rintro x _ rfl
    exact .ok _ rfl
  split
  · refine Agree.bind (agree_zoom _ ?_ ?_) fun _ ↦ agree_pure _
    · rintro x _ rfl
      rfl
    · rintro m x _ rfl
      rfl
  · exact agree_pure _

/-- The dealings are noted in both. -/
theorem agree_dealing {α : Type} (task : Task) {m : StrategyM (ω × Requests) α}
    {n : StrategyM ω α} (h : Agree Forgets m n) :
    Agree Forgets (dealing (fun _ ↦ task) m) (dealing (fun _ ↦ task) n) := by
  rintro x _ rfl
  refine (h x _ rfl).onExit ?_ ?_
  · rintro y _ rfl
    rfl
  · rintro y _ rfl
    rfl

theorem agree_immediateOrCancel (orderId symbol side quantity price : ℤ) :
    Agree (Forgets (ω := ω)) (immediateOrCancel O.logged orderId symbol side quantity price)
      (immediateOrCancel O orderId symbol side quantity price) := by
  refine (agree_monotonic O).bind fun now ↦ agree_dealing _ (agree_zoom _ ?_ ?_)
  · rintro x _ rfl
    rfl
  · rintro c x _ rfl
    rfl

theorem agree_allocOid :
    Agree (Forgets (ω := ω)) ETFArbEngine.allocOid ETFArbEngine.allocOid := by
  rintro x _ rfl
  exact .ok _ rfl

theorem agree_coolDown (seconds : ℚ) :
    Agree (Forgets (ω := ω)) (ETFArbEngine.coolDown O.logged seconds)
      (ETFArbEngine.coolDown O seconds) := by
  rintro x _ rfl
  exact .ok _ rfl

theorem agree_updatePosition (symbol buyQty sellQty : ℤ) :
    Agree (Forgets (ω := ω)) (ETFArbEngine.updatePosition symbol buyQty sellQty)
      (ETFArbEngine.updatePosition symbol buyQty sellQty) := by
  rintro x _ rfl
  exact .ok _ rfl

theorem agree_unwind (syms : List ℤ) (side : Side) :
    Agree (Forgets (ω := ω)) (ETFArbEngine.unwind O.logged syms side)
      (ETFArbEngine.unwind O syms side) := by
  refine agree_all (fun sym ↦ (agree_best? sym _).bind fun price ↦ ?_) syms
  rcases price with - | price
  · exact agree_pure _
  dsimp only
  split
  · exact agree_pure _
  · exact agree_allocOid.bind fun _ ↦ (agree_immediateOrCancel O _ _ _ _ _).bind fun _ ↦
      agree_pure _

theorem agree_buyBasket (syms filled : List ℤ) :
    Agree (Forgets (ω := ω)) (ETFArbEngine.buyBasket O.logged syms filled)
      (ETFArbEngine.buyBasket O syms filled) := by
  induction syms generalizing filled with
  | nil => exact agree_pure _
  | cons sym syms ih =>
    refine (agree_best? sym .sell).bind fun ask ↦ ?_
    rcases ask with - | ask
    · exact agree_pure _
    dsimp only
    split
    · exact agree_pure _
    refine agree_allocOid.bind fun _ ↦ (agree_immediateOrCancel O _ _ _ _ _).bind fun resp ↦ ?_
    split
    · exact ih _
    · exact agree_pure _

/-- **`_execute_create_arb`** does the same with the notes and without. -/
theorem agree_executeCreateArb (undyBid : ℤ) :
    Agree (Forgets (ω := ω)) (ETFArbEngine.executeCreateArb O.logged undyBid)
      (ETFArbEngine.executeCreateArb O undyBid) := by
  have hsell (filled : List ℤ) : Agree (Forgets (ω := ω))
      (ETFArbEngine.createAndSell O.logged filled undyBid)
      (ETFArbEngine.createAndSell O filled undyBid) := by
    refine (agree_post O .create).bind fun reply ↦ ?_
    cases reply with
    | success =>
      exact (agree_all (fun sym ↦ agree_updatePosition sym 0 1) UNDERLYING_SYMS).bind fun _ ↦
        (agree_updatePosition _ _ _).bind fun _ ↦ agree_allocOid.bind fun _ ↦
          (agree_immediateOrCancel O _ _ _ _ _).bind fun _ ↦ agree_pure _
    | failed => exact agree_unwind O _ _
    | requestException => exact agree_unwind O _ _
    | otherException => exact agree_throw _
  refine (agree_buyBasket O _ _).bind fun filled ↦ ?_
  split
  · exact (hsell filled).bind fun _ ↦ agree_coolDown O _
  · exact (agree_unwind O _ _).bind fun _ ↦ agree_coolDown O _

/-- The sales of `_execute_redeem_arb` are those of `_unwind`. -/
theorem sellBasket_eq (syms : List ℤ) :
    ETFArbEngine.sellBasket O syms = ETFArbEngine.unwind O syms .sell := rfl

theorem agree_sellBasket (syms : List ℤ) :
    Agree (Forgets (ω := ω)) (ETFArbEngine.sellBasket O.logged syms)
      (ETFArbEngine.sellBasket O syms) := by
  rw [sellBasket_eq, sellBasket_eq]
  exact agree_unwind O syms .sell

/-- **`_execute_redeem_arb`** does the same with the notes and without. -/
theorem agree_executeRedeemArb (undyAsk : ℤ) :
    Agree (Forgets (ω := ω)) (ETFArbEngine.executeRedeemArb O.logged undyAsk)
      (ETFArbEngine.executeRedeemArb O undyAsk) := by
  have hsell : Agree (Forgets (ω := ω)) (ETFArbEngine.redeemAndSell O.logged)
      (ETFArbEngine.redeemAndSell O) := by
    refine (agree_post O .redeem).bind fun reply ↦ ?_
    cases reply with
    | success =>
      exact (agree_updatePosition _ _ _).bind fun _ ↦
        (agree_all (fun sym ↦ agree_updatePosition sym 1 0) UNDERLYING_SYMS).bind fun _ ↦
          agree_sellBasket O UNDERLYING_SYMS
    | failed => exact agree_pure _
    | requestException => exact agree_pure _
    | otherException => exact agree_throw _
  refine agree_allocOid.bind fun _ ↦ (agree_immediateOrCancel O _ _ _ _ _).bind fun resp ↦ ?_
  split
  · exact agree_coolDown O _
  · exact hsell.bind fun _ ↦ agree_coolDown O _

end HftTrading.Strategy
