import HftTrading.Strategy.EtfArb

/-!
# What the strategy does, step by step

Every method of the strategy is made of a few parts that touch its state (`KeptByParts`). An
invariant is checked for these, and then holds at the end of every method, whatever it raised
(`KeptByParts.onMarketDataUpdate`), and at the end of every run (`KeptByRunParts.run`). The parts
are made of single steps in turn, and an invariant of the steps is one of the parts (`Kept.parts`).

`trades` says whether anything else than going flat is among the parts: quotes, spoofs, ETF orders
and the kill switch. Going flat needs none of these (`KeptByParts.goFlat`).

## Two kinds of invariants

Most invariants survive each single step: a call of the client, an id that is drawn, a quote that is
tracked (`Kept`). Some only survive a part as a whole. That a tracked quote is an open order does
not hold between the order and the tracking, and is checked for `manageQuote` as one part. Each
module with an invariant chooses at which of the two it is checked, and the methods follow from
here.

The lemmas under `KeptByParts` are named after the methods and stand in the order in which these
call each other. What changes in one method of the source changes one of them.
-/

namespace HftTrading.Strategy

open OrderEntry Method OrderStrategy
open MarketData (MDHeader MarketDataMessage TradeSummary)

variable {ω : Type} {O : Outside ω} {trades : Prop}
  {I : OrderStrategy ω × OrderBookManager → Prop}

/-- What is outside moves on. -/
inductive Outside.Moves (O : Outside ω) : ω → ω → Prop
  | monotonic (w : ω) : O.Moves w (O.monotonic w).2
  | signals (symbol tick : ℤ) (bid ask : ℤ × ℤ) (position : ℤ) (w : ω) :
      O.Moves w (O.signals symbol tick bid ask position w).2
  | post (call : RestCall) (w : ω) : O.Moves w (O.post call w).2
  | onRawMessage (header : MDHeader) (body : MarketDataMessage) (m : OrderBookManager) (w : ω) :
      O.Moves w (O.onRawMessage header body m w)
  | onTradeSummary (body : TradeSummary) (timestamp : ℕ) (w : ω) :
      O.Moves w (O.onTradeSummary body timestamp w)

/-- **The parts of the strategy** keep an invariant, each as a whole. What the ETF service moves is
booked only if it ever answers that it has. -/
structure KeptByParts (O : Outside ω) (trades : Prop)
    (I : OrderStrategy ω × OrderBookManager → Prop) : Prop where
  outside : ∀ {s m w}, O.Moves s.outside w → I (s, m) → I ({ s with outside := w }, m)
  read : ∀ symbol side,
    Keeps I (onManager (OrderBookManager.onBook symbol (OrderBook.getBest side)))
  cancelActiveSpoofs : Keeps I cancelActiveSpoofs
  cancelQuote : ∀ symbol (side : Side), Keeps I (cancelQuote symbol side.value)
  attempt : Keeps I (dealing (fun _ ↦ .attempt) (pure ()))
  submitClosing : ∀ symbol side quantity price,
    Keeps I (submitClosing O symbol side quantity price)
  finished : ∀ {s m}, I (s, m) →
    I ({ s with pendingFlatten := false, flattened := s.flattened + 1 }, m)
  checkActiveSpoofs : trades → Keeps I (checkActiveSpoofs O)
  killed : trades → ∀ {s m}, I (s, m) → I ({ s with killed := true }, m)
  stopped : trades → ∀ {s m}, I (s, m) → I ({ s with enabled := false }, m)
  maybeSendSpoof : trades → ∀ symbol (side : Side) bb ba,
    Keeps I (maybeSendSpoof O symbol side.value bb ba)
  manageQuote : trades → ∀ symbol (side : Side) targetPrice shouldQuote,
    Keeps I (manageQuote O symbol side.value targetPrice shouldQuote)
  cooldown : trades → ∀ {s m} (time : ℚ), I (s, m) →
    I ({ s with etfArb := { s.etfArb with cooldownUntil := time } }, m)
  offer : trades → ∀ symbol (side : Side) price, Keeps I
    (ETFArbEngine.allocOid >>= fun oid ↦ immediateOrCancel O oid symbol side.value 1 price)
  updatePosition : trades → (∃ call w, (O.post call w).1 = .success) →
    ∀ symbol buyQty sellQty, Keeps I (ETFArbEngine.updatePosition symbol buyQty sellQty)

theorem keeps_getStrategy : Keeps I (getStrategy (ω := ω)) := fun _ hx ↦ hx

theorem keeps_getManager : Keeps I (getManager (ω := ω)) := fun _ hx ↦ hx

/-- A change of the strategy that keeps the invariant. -/
theorem keeps_update {f : OrderStrategy ω → OrderStrategy ω}
    (hf : ∀ {s m}, I (s, m) → I (f s, m)) : Keeps I (update f) := fun _ hx ↦ hf hx

/-- What a call on the client leaves behind. -/
theorem after_onClient {α : Type} (call : OrderEntryClient.ClientM α)
    (x : OrderStrategy ω × OrderBookManager) :
    (onClient call).after x = (x.1.setClient (call.after x.1.client), x.2) := after_zoom _ _ _ _ x

/-- A symbol without a state raises its key. -/
theorem onQuoting_of_none {α : Type} {symbol : ℤ} {x : OrderStrategy ω × OrderBookManager}
    (h : x.1.state.get? symbol = none) (call : Quoting.QuotingM α) :
    onQuoting symbol call x = .error (.keyError symbol) x := by
  unfold onQuoting
  rw [h]

/-- With one, its quoting is run and put back. -/
theorem onQuoting_of_some {α : Type} {symbol : ℤ} {state : SymbolState}
    {x : OrderStrategy ω × OrderBookManager} (h : x.1.state.get? symbol = some state)
    (call : Quoting.QuotingM α) :
    onQuoting symbol call x = call.zoom (fun x ↦ x.1.quoting state)
      (fun q x ↦ (x.1.setQuoting symbol q, x.2)) .orderEntry x := by
  unfold onQuoting
  rw [h]

theorem onQuoting_ok {α : Type} {symbol : ℤ} {state : SymbolState} {q : Quoting} {a : α}
    {x : OrderStrategy ω × OrderBookManager} (h : x.1.state.get? symbol = some state)
    {call : Quoting.QuotingM α} (hcall : call (x.1.quoting state) = .ok a q) :
    onQuoting symbol call x = .ok a (x.1.setQuoting symbol q, x.2) :=
  (onQuoting_of_some h call).trans (zoom_ok
    (fun x : OrderStrategy ω × OrderBookManager ↦ x.1.quoting state) hcall _ _)

theorem onQuoting_error {α : Type} {symbol : ℤ} {state : SymbolState} {q : Quoting} {e : OeError}
    {x : OrderStrategy ω × OrderBookManager} (h : x.1.state.get? symbol = some state)
    {call : Quoting.QuotingM α} (hcall : call (x.1.quoting state) = .error e q) :
    onQuoting symbol call x = .error (.orderEntry e) (x.1.setQuoting symbol q, x.2) :=
  (onQuoting_of_some h call).trans (zoom_error
    (fun x : OrderStrategy ω × OrderBookManager ↦ x.1.quoting state) hcall _ _)

/-- What a call on the state of a symbol leaves behind, if there is one. -/
theorem after_onQuoting {α : Type} (symbol : ℤ) (call : Quoting.QuotingM α)
    (x : OrderStrategy ω × OrderBookManager) :
    (x.1.state.get? symbol = none ∧ (onQuoting symbol call).after x = x) ∨
      ∃ state, x.1.state.get? symbol = some state ∧ (onQuoting symbol call).after x =
        (x.1.setQuoting symbol (call.after (x.1.quoting state)), x.2) := by
  rcases hstate : x.1.state.get? symbol with - | state
  · refine Or.inl ⟨rfl, ?_⟩
    unfold after
    rw [onQuoting_of_none hstate]
  · refine Or.inr ⟨state, rfl, ?_⟩
    refine Eq.trans ?_ (after_zoom call (fun x : OrderStrategy ω × OrderBookManager ↦
      x.1.quoting state) (fun q x ↦ (x.1.setQuoting symbol q, x.2)) StrategyError.orderEntry x)
    unfold after
    rw [onQuoting_of_some hstate]

section

variable {α : Type} {x y : OrderStrategy ω × OrderBookManager} {m : StrategyM ω α}

theorem dealing_ok {a : α} (h : m x = .ok a y) (task : OrderStrategy ω → Task) :
    dealing task m x = .ok a (noteDealing (task x.1) x.1 true y.1, y.2) := onExit_ok h _ _

theorem dealing_error {e : StrategyError} (h : m x = .error e y) (task : OrderStrategy ω → Task) :
    dealing task m x = .error e (noteDealing (task x.1) x.1 false y.1, y.2) := onExit_error h _ _

/-- A dealing leaves behind what it did, and a note of it. -/
theorem after_dealing (task : OrderStrategy ω → Task) (m : StrategyM ω α)
    (x : OrderStrategy ω × OrderBookManager) : ∃ returned, (dealing task m).after x =
      (noteDealing (task x.1) x.1 returned (m.after x).1, (m.after x).2) := by
  rcases hrun : m x with ⟨a, y⟩ | ⟨e, y⟩
  · rw [after_ok (dealing_ok hrun task), after_ok hrun]
    exact ⟨true, rfl⟩
  · rw [after_error (dealing_error hrun task), after_error hrun]
    exact ⟨false, rfl⟩

end

/-- What a call on the client establishes, a dealing with it does: all else stays. -/
theorem triple_dealing_onClient {α : Type} {call : OrderEntryClient.ClientM α}
    {A E : OrderStrategy ω × OrderBookManager → Prop}
    {B : α → OrderStrategy ω × OrderBookManager → Prop} (task : OrderStrategy ω → Task)
    (h : ∀ x, A x → Triple (fun c ↦ c = x.1.client) call
      (fun a c ↦ B a (noteDealing (task x.1) x.1 true (x.1.setClient c), x.2))
      fun c ↦ E (noteDealing (task x.1) x.1 false (x.1.setClient c), x.2)) :
    Triple A (dealing task (onClient call)) B E := by
  intro x hx
  have hcall := h x hx x.1.client rfl
  unfold dealing onExit onClient zoom
  rcases hrun : call x.1.client with ⟨a, c⟩ | ⟨e, c⟩
  · rw [hrun] at hcall
    exact hcall
  · rw [hrun] at hcall
    exact hcall

/-- An invariant that does not look at the notes. -/
theorem keeps_dealing {α : Type} (hnote : ∀ {s m} task s₀ returned, I (s, m) →
    I (noteDealing task s₀ returned s, m)) (task : OrderStrategy ω → Task) {m : StrategyM ω α}
    (hm : Keeps I m) : Keeps I (dealing task m) := by
  intro x hx
  obtain ⟨returned, heq⟩ := after_dealing task m x
  rw [heq]
  exact hnote _ _ _ (hm x hx)

/-- A call on the client, of what a symbol is quoted with. -/
theorem keeps_quotingOnClient {α : Type} {J : OrderEntryClient → Prop}
    {call : OrderEntryClient.ClientM α} (hcall : Keeps J call) :
    Keeps (fun q : Quoting ↦ J q.client) (Quoting.onClient call) := by
  intro q hq
  have hafter := after_focus call q.client Quoting.setClient q
  unfold after at hafter ⊢
  unfold Quoting.onClient
  rw [hafter]
  exact hcall _ hq

/-- A conditional without an alternative. -/
theorem keeps_ite {p : Prop} [Decidable p] {m : StrategyM ω Unit} (hm : Keeps I m) :
    Keeps I (if p then m else pure ()) := by
  split
  · exact hm
  · exact keeps_pure _

/-- What withdrawing a quote keeps of the client. -/
theorem keeps_client_cancelQuote {J : OrderEntryClient → Prop}
    (hdelete : ∀ orderId, Keeps J (OrderEntryClient.deleteOrder orderId)) (side : ℤ) :
    Keeps (fun q : Quoting ↦ J q.client) (Quoting.cancelQuote side) := by
  refine keeps_get.bind fun q ↦ ?_
  rcases (q.state.quote side).1 with - | oid
  · exact keeps_pure _
  · exact (keeps_quotingOnClient (hdelete oid)).bind fun _ _ hq ↦ hq

/-- What quoting keeps of the client. -/
theorem keeps_client_manageQuote {J : OrderEntryClient → Prop} {now : ℚ}
    (hnew : ∀ orderId symbol side quantity price flags,
      Keeps J (OrderEntryClient.newOrder now orderId symbol side quantity price flags))
    (hmodify : ∀ orderId side quantity price,
      Keeps J (OrderEntryClient.modifyOrder orderId side quantity price))
    (hdelete : ∀ orderId, Keeps J (OrderEntryClient.deleteOrder orderId))
    (side targetPrice : ℤ) (shouldQuote : Bool) : Keeps (fun q : Quoting ↦ J q.client)
      (Quoting.manageQuote now side targetPrice shouldQuote) := by
  refine keeps_get.bind fun q ↦ ?_
  dsimp only
  split
  · split
    · exact keeps_client_cancelQuote hdelete side
    · exact keeps_pure _
  split
  · refine Keeps.bind (m := Quoting.allocOrderId) (fun _ hq ↦ hq) fun oid ↦
      keeps_get.bind fun q ↦ ?_
    split
    · exact keeps_pure _
    refine (keeps_quotingOnClient (hnew _ _ _ _ _ _)).bind fun responses ↦ ?_
    split
    · exact fun _ hq ↦ hq
    · exact keeps_pure _
  split
  · refine keeps_get.bind fun q ↦ ?_
    split
    · exact keeps_pure _
    rcases (q.state.quote side).1 with - | oid
    · exact keeps_pure _
    refine (keeps_quotingOnClient (hmodify _ _ _ _)).bind fun responses ↦ ?_
    split
    · exact fun _ hq ↦ hq
    · exact fun _ hq ↦ hq
  · exact keeps_pure _

/-- All spoofs are cancelled, one by one. -/
theorem keeps_cancelActiveSpoofs
    (hspoofs : ∀ {s m} (spoofs : Dict ℤ ActiveSpoof), I (s, m) →
      I ({ s with activeSpoofs := spoofs }, m))
    (hdelete : ∀ orderId, Keeps I (deleteOrder orderId)) : Keeps I cancelActiveSpoofs := by
  refine keeps_getStrategy.bind fun s ↦ (keeps_all fun m hm ↦ ?_).bind fun _ ↦ ?_
  · obtain ⟨spoof, -, rfl⟩ := List.mem_map.1 hm
    exact (hdelete spoof.orderId).bind fun _ ↦ keeps_pure _
  · exact fun _ hx ↦ hspoofs _ hx

theorem keeps_checkActiveSpoofs
    (houtside : ∀ {s m w}, O.Moves s.outside w → I (s, m) → I ({ s with outside := w }, m))
    (hspoofs : ∀ {s m} (spoofs : Dict ℤ ActiveSpoof), I (s, m) →
      I ({ s with activeSpoofs := spoofs }, m))
    (hdelete : ∀ orderId, Keeps I (deleteOrder orderId)) : Keeps I (checkActiveSpoofs O) := by
  refine keeps_getStrategy.bind fun s ↦ ?_
  split
  · exact keeps_pure _
  · refine Keeps.bind (m := monotonic O) (fun _ hx ↦ houtside (.monotonic _) hx) fun now ↦
      keeps_all fun m hm ↦ ?_
    obtain ⟨spoof, -, rfl⟩ := List.mem_map.1 hm
    exact (hdelete spoof.orderId).bind fun _ _ hx ↦ hspoofs _ hx

theorem keeps_cancelAllQuotes
    (hcancel : ∀ symbol (side : Side), Keeps I (cancelQuote symbol side.value)) :
    Keeps I cancelAllQuotes := by
  refine keeps_getStrategy.bind fun s ↦ keeps_all fun m hm ↦ ?_
  obtain ⟨symbol, -, rfl⟩ := List.mem_map.1 hm
  exact (hcancel symbol .buy).bind fun _ ↦ hcancel symbol .sell

namespace KeptByParts

variable (h : KeptByParts O trades I)

include h

theorem monotonic : Keeps I (monotonic O) := fun _ hx ↦ h.outside (.monotonic _) hx

theorem best? (symbol : ℤ) (side : MarketData.Side) : Keeps I (best? symbol side) := by
  refine keeps_getManager.bind fun m ↦ ?_
  split
  · exact (h.read symbol side).bind fun _ ↦ keeps_pure _
  · exact keeps_pure _

/-! ### Going flat -/

theorem cancelAllQuotes : Keeps I cancelAllQuotes := keeps_cancelAllQuotes h.cancelQuote

theorem closePosition (attempt : ℕ) (symbol position : ℤ) :
    Keeps I (closePosition O attempt symbol position) := by
  refine keeps_getManager.bind fun m ↦ ?_
  split
  · dsimp only
    split
    · exact (h.read _ .buy).bind fun bb ↦ keeps_ite (h.submitClosing _ _ _ _)
    · exact (h.read _ .sell).bind fun ba ↦ keeps_ite (h.submitClosing _ _ _ _)
  · exact keeps_pure _

theorem flattenLoop (deadline : ℚ) (turns attempt : ℕ) :
    Keeps I (flattenLoop O deadline turns attempt) := by
  induction turns generalizing attempt with
  | zero => exact keeps_pure _
  | succ turns ih =>
    refine h.monotonic.bind fun now ↦ ?_
    split
    · refine keeps_getStrategy.bind fun s ↦ ?_
      split
      · exact keeps_pure _
      · refine h.attempt.bind fun _ ↦ (keeps_all fun m hm ↦ ?_).bind fun _ ↦ ih _
        obtain ⟨p, -, rfl⟩ := List.mem_map.1 hm
        exact h.closePosition attempt p.1 p.2
    · exact keeps_pure _

/-- `go_flat`, once the spoofs have been cancelled. -/
theorem goFlat_rest : Keeps I (do
    OrderStrategy.cancelAllQuotes
    let now ← OrderStrategy.monotonic O
    let s ← getStrategy
    OrderStrategy.flattenLoop O (now + 5) (O.attempts s.outside) 0
    update fun s ↦ { s with pendingFlatten := false, flattened := s.flattened + 1 }) :=
  h.cancelAllQuotes.bind fun _ ↦ h.monotonic.bind fun _ ↦ keeps_getStrategy.bind fun _ ↦
    (h.flattenLoop _ _ _).bind fun _ _ hx ↦ h.finished hx

/-- **`go_flat`**. -/
theorem goFlat : Keeps I (goFlat O) := h.cancelActiveSpoofs.bind fun _ ↦ h.goFlat_rest

/-! ### Quoting -/

theorem signals (symbol tick : ℤ) (bid ask : ℤ × ℤ) (position : ℤ) :
    Keeps I (signals O symbol tick bid ask position) := by
  rintro ⟨s, m⟩ hx
  unfold after OrderStrategy.signals
  dsimp only
  rcases (O.signals symbol tick bid ask position s.outside).1 with - | signals
  · exact h.outside (.signals ..) hx
  · exact h.outside (.signals ..) hx

variable (htrades : trades)

include htrades

theorem stop : Keeps I stop :=
  Keeps.bind (fun _ hx ↦ h.stopped htrades hx) fun _ ↦
    h.cancelActiveSpoofs.bind fun _ ↦ h.cancelAllQuotes

theorem quoteBoth (symbol bb ba : ℤ) (signals : Signals) (cfg : OrderStrategyConfig) (t : Targets) :
    Keeps I (quoteBoth O symbol bb ba signals cfg t) :=
  (keeps_ite (h.maybeSendSpoof htrades _ .sell _ _)).bind fun _ ↦
    (keeps_ite (h.maybeSendSpoof htrades _ .buy _ _)).bind fun _ ↦
      (h.manageQuote htrades _ .buy _ _).bind fun _ ↦ h.manageQuote htrades _ .sell _ _

theorem stepSymbol (symbol : ℤ) : Keeps I (stepSymbol O symbol) := by
  refine (h.best? symbol .buy).bind fun bid ↦ (h.best? symbol .sell).bind fun ask ↦ ?_
  rcases bid with - | bid
  · exact keeps_pure _
  rcases ask with - | ask
  · exact keeps_pure _
  dsimp only
  split
  · exact keeps_pure _
  split
  · exact keeps_pure _
  refine keeps_getStrategy.bind fun s ↦ ?_
  rcases s.state.get? symbol with - | state
  · exact keeps_throw _
  refine (h.signals symbol _ bid ask _).bind fun signals ↦ ?_
  rcases uncrossed state.tick bid.1 ask.1 signals with - | prices
  · exact keeps_pure _
  · exact h.quoteBoth htrades _ _ _ _ _ _

/-! ### ETF arbitrage -/

theorem coolDown (seconds : ℚ) : Keeps I (ETFArbEngine.coolDown O seconds) :=
  h.monotonic.bind fun _ _ hx ↦ h.cooldown htrades _ hx

omit htrades in
theorem basketPrices (syms : List ℤ) : Keeps I (ETFArbEngine.basketPrices (ω := ω) syms) := by
  induction syms with
  | nil => exact keeps_pure _
  | cons sym syms ih =>
    refine (h.best? sym .buy).bind fun bid ↦ (h.best? sym .sell).bind fun ask ↦ ?_
    rcases bid with - | bid
    · exact keeps_pure _
    rcases ask with - | ask
    · exact keeps_pure _
    dsimp only
    split
    · exact keeps_pure _
    · exact ih.bind fun _ ↦ keeps_pure _

/-- One order of the engine, under its next id. -/
theorem etfOrder (symbol : ℤ) (side : Side) (price : ℤ) {β : Type}
    {f : List OeResponse → StrategyM ω β} (hf : ∀ resp, Keeps I (f resp)) :
    Keeps I (do
      let oid ← ETFArbEngine.allocOid
      let resp ← immediateOrCancel O oid symbol side.value 1 price
      f resp) := by
  have hoffer := (h.offer htrades symbol side price).bind hf
  rwa [bind_assoc] at hoffer

theorem unwind (syms : List ℤ) (side : Side) : Keeps I (ETFArbEngine.unwind O syms side) := by
  refine keeps_all fun m hm ↦ ?_
  obtain ⟨sym, -, rfl⟩ := List.mem_map.1 hm
  refine (h.best? sym _).bind fun price ↦ ?_
  rcases price with - | price
  · exact keeps_pure _
  dsimp only
  split
  · exact keeps_pure _
  · exact h.etfOrder htrades _ _ _ fun _ ↦ keeps_pure _

theorem buyBasket (syms filled : List ℤ) : Keeps I (ETFArbEngine.buyBasket O syms filled) := by
  induction syms generalizing filled with
  | nil => exact keeps_pure _
  | cons sym syms ih =>
    refine (h.best? sym .sell).bind fun ask ↦ ?_
    rcases ask with - | ask
    · exact keeps_pure _
    dsimp only
    split
    · exact keeps_pure _
    refine h.etfOrder htrades _ .buy _ fun resp ↦ ?_
    split
    · exact ih _
    · exact keeps_pure _

/-- What the ETF service moves is booked. -/
theorem updatePositions (hsuccess : ∃ call w, (O.post call w).1 = .success) (syms : List ℤ)
    (buyQty sellQty : ℤ) :
    Keeps I (Method.all (syms.map fun sym ↦
      ETFArbEngine.updatePosition (ω := ω) sym buyQty sellQty)) := by
  refine keeps_all fun m hm ↦ ?_
  obtain ⟨sym, -, rfl⟩ := List.mem_map.1 hm
  exact h.updatePosition htrades hsuccess sym buyQty sellQty

omit htrades in
/-- What follows a request to the ETF service may rely on the service giving such a reply. -/
theorem post {β : Type} (call : RestCall) {f : RestReply → StrategyM ω β}
    (hf : ∀ reply, (∃ call w, (O.post call w).1 = reply) → Keeps I (f reply)) :
    Keeps I (do
      let reply ← post O call
      f reply) :=
  fun x hx ↦ hf _ ⟨call, x.1.outside, rfl⟩ _ (h.outside (.post call _) hx)

theorem executeCreateArb (undyBid : ℤ) : Keeps I (ETFArbEngine.executeCreateArb O undyBid) := by
  have hsell (filled : List ℤ) : Keeps I (ETFArbEngine.createAndSell O filled undyBid) := by
    refine h.post .create fun reply hreply ↦ ?_
    cases reply with
    | success =>
      exact (h.updatePositions htrades hreply _ _ _).bind fun _ ↦
        (h.updatePosition htrades hreply _ _ _).bind fun _ ↦
          h.etfOrder htrades _ .sell _ fun _ ↦ keeps_pure _
    | failed => exact h.unwind htrades _ _
    | requestException => exact h.unwind htrades _ _
    | otherException => exact keeps_throw _
  refine (h.buyBasket htrades _ _).bind fun filled ↦ ?_
  split
  · exact (hsell filled).bind fun _ ↦ h.coolDown htrades _
  · exact (h.unwind htrades _ _).bind fun _ ↦ h.coolDown htrades _

theorem sellBasket (syms : List ℤ) : Keeps I (ETFArbEngine.sellBasket O syms) := by
  refine keeps_all fun m hm ↦ ?_
  obtain ⟨sym, -, rfl⟩ := List.mem_map.1 hm
  refine (h.best? sym .buy).bind fun bid ↦ ?_
  rcases bid with - | bid
  · exact keeps_pure _
  dsimp only
  split
  · exact keeps_pure _
  · exact h.etfOrder htrades _ .sell _ fun _ ↦ keeps_pure _

theorem executeRedeemArb (undyAsk : ℤ) : Keeps I (ETFArbEngine.executeRedeemArb O undyAsk) := by
  have hsell : Keeps I (ETFArbEngine.redeemAndSell O) := by
    refine h.post .redeem fun reply hreply ↦ ?_
    cases reply with
    | success =>
      exact (h.updatePosition htrades hreply _ _ _).bind fun _ ↦
        (h.updatePositions htrades hreply _ _ _).bind fun _ ↦ h.sellBasket htrades _
    | failed => exact keeps_pure _
    | requestException => exact keeps_pure _
    | otherException => exact keeps_throw _
  refine h.etfOrder htrades _ .buy _ fun resp ↦ ?_
  split
  · exact h.coolDown htrades _
  · exact hsell.bind fun _ ↦ h.coolDown htrades _

theorem etfStep : Keeps I (ETFArbEngine.step O) := by
  refine h.monotonic.bind fun now ↦ keeps_getStrategy.bind fun s ↦ ?_
  split
  · exact keeps_pure _
  refine (h.best? ETF_SYM .buy).bind fun bid ↦ (h.best? ETF_SYM .sell).bind fun ask ↦ ?_
  rcases bid with - | bid
  · exact keeps_pure _
  rcases ask with - | ask
  · exact keeps_pure _
  dsimp only
  split
  · exact keeps_pure _
  refine keeps_getStrategy.bind fun s ↦ (h.basketPrices _).bind fun prices ↦ ?_
  rcases prices with - | prices
  · exact keeps_pure _
  dsimp only
  split
  · exact h.executeCreateArb htrades _
  split
  · exact h.executeRedeemArb htrades _
  · exact keeps_pure _

/-- `on_market_data_update`, once the spoofs have been looked at. -/
theorem onMarketDataUpdate_rest : Keeps I (do
    let s ← getStrategy
    if s.client.pnlTracker.getPnl < s.config.pnlKillFloor then do
      update fun s ↦ { s with killed := true }
      OrderStrategy.stop
    else do
      Method.all (s.config.symbols.map (OrderStrategy.stepSymbol O))
      if s.config.etfArbEnabled then ETFArbEngine.step O) := by
  refine keeps_getStrategy.bind fun s ↦ ?_
  split
  · exact Keeps.bind (fun _ hx ↦ h.killed htrades hx) fun _ ↦ h.stop htrades
  refine (keeps_all fun m hm ↦ ?_).bind fun _ ↦ keeps_ite (h.etfStep htrades)
  obtain ⟨sym, -, rfl⟩ := List.mem_map.1 hm
  exact h.stepSymbol htrades sym

/-- **`on_market_data_update`**. -/
theorem onMarketDataUpdate : Keeps I (onMarketDataUpdate O) := by
  refine keeps_getStrategy.bind fun s ↦ ?_
  split
  · exact keeps_pure _
  split
  · exact h.goFlat
  · exact (h.checkActiveSpoofs htrades).bind fun _ ↦ h.onMarketDataUpdate_rest htrades

end KeptByParts

/-! ### Invariants of single steps -/

/-- **The steps of the strategy** keep an invariant. -/
structure Kept (O : Outside ω) (trades : Prop) (I : OrderStrategy ω × OrderBookManager → Prop) :
    Prop where
  outside : ∀ {s m} (w : ω), I (s, m) → I ({ s with outside := w }, m)
  books : ∀ {s m} (m' : OrderBookManager), I (s, m) → I (s, m')
  spoofs : ∀ {s m} (spoofs : Dict ℤ ActiveSpoof), I (s, m) →
    I ({ s with activeSpoofs := spoofs }, m)
  deleteOrder : ∀ orderId, Keeps I (deleteOrder orderId)
  cancelQuote : ∀ symbol (side : Side), Keeps I (cancelQuote symbol side.value)
  attempt : Keeps I (dealing (fun _ ↦ .attempt) (pure ()))
  submitClosing : ∀ symbol side quantity price,
    Keeps I (submitClosing O symbol side quantity price)
  finished : ∀ {s m}, I (s, m) →
    I ({ s with pendingFlatten := false, flattened := s.flattened + 1 }, m)
  killed : trades → ∀ {s m}, I (s, m) → I ({ s with killed := true }, m)
  stopped : trades → ∀ {s m}, I (s, m) → I ({ s with enabled := false }, m)
  manageQuote : trades → ∀ symbol (side : Side) targetPrice shouldQuote,
    Keeps I (manageQuote O symbol side.value targetPrice shouldQuote)
  allocOrderId : trades → ∀ symbol, Keeps I (allocOrderId symbol)
  newOrder : trades → ∀ orderId symbol side quantity price flags,
    Keeps I (newOrder O orderId symbol side quantity price flags)
  cooldown : trades → ∀ {s m} (time : ℚ), I (s, m) →
    I ({ s with etfArb := { s.etfArb with cooldownUntil := time } }, m)
  allocOid : trades → Keeps I ETFArbEngine.allocOid
  updatePosition : trades → ∀ symbol buyQty sellQty,
    Keeps I (ETFArbEngine.updatePosition symbol buyQty sellQty)

namespace Kept

variable (h : Kept O trades I)

include h

theorem monotonic : Keeps I (monotonic O) := fun _ hx ↦ h.outside _ hx

theorem onManager {α : Type} (call : Method FeedError OrderBookManager α) :
    Keeps I (onManager call) := by
  intro x hx
  unfold OrderStrategy.onManager
  rw [after_zoom]
  exact h.books _ hx

theorem maybeSendSpoof (htrades : trades) (symbol side bb ba : ℤ) :
    Keeps I (maybeSendSpoof O symbol side bb ba) := by
  refine keeps_getStrategy.bind fun s ↦ ?_
  split
  · exact keeps_pure _
  dsimp only
  split
  · exact keeps_pure _
  refine (h.allocOrderId htrades symbol).bind fun oid ↦
    (h.newOrder htrades _ _ _ _ _ _).bind fun responses ↦ ?_
  split
  · exact h.monotonic.bind fun now _ hx ↦ h.spoofs _ hx
  · exact keeps_pure _

/-- **An invariant of the steps** is one of the parts. -/
theorem parts : KeptByParts O trades I where
  outside _ := h.outside _
  read _ _ := h.onManager _
  cancelActiveSpoofs := keeps_cancelActiveSpoofs h.spoofs h.deleteOrder
  cancelQuote := h.cancelQuote
  attempt := h.attempt
  submitClosing := h.submitClosing
  finished := h.finished
  checkActiveSpoofs _ := keeps_checkActiveSpoofs (fun _ ↦ h.outside _) h.spoofs h.deleteOrder
  killed := h.killed
  stopped := h.stopped
  maybeSendSpoof htrades symbol side bb ba := h.maybeSendSpoof htrades symbol side.value bb ba
  manageQuote := h.manageQuote
  cooldown := h.cooldown
  offer htrades _ _ _ := (h.allocOid htrades).bind fun _ ↦ h.newOrder htrades _ _ _ _ _ _
  updatePosition htrades _ := h.updatePosition htrades

theorem goFlat : Keeps I (goFlat O) := h.parts.goFlat

theorem onMarketDataUpdate (htrades : trades) : Keeps I (onMarketDataUpdate O) :=
  h.parts.onMarketDataUpdate htrades

end Kept

/-! ### Runs -/

/-- The parts of a run keep an invariant: those of the strategy, and what the feed does to it. -/
structure KeptByRunParts (O : Outside ω) (I : OrderStrategy ω × OrderBookManager → Prop) : Prop
    extends KeptByParts O True I where
  suspend : ∀ {s m}, I (s, m) → I (s.suspend, m)
  enabled : ∀ {s m}, I (s, m) → I ({ s with enabled := true }, m)
  reconnect : Keeps I (dealing (fun _ ↦ .reconnect) (onClient OrderEntryClient.reconnect))

namespace KeptByRunParts

variable (h : KeptByRunParts O I)

include h

/-- What is done about a lost connection. -/
theorem connectionLost : Keeps I connectionLost := by
  refine Keeps.bind (fun _ hx ↦ h.suspend hx) fun _ ↦
    (h.reconnect.bind fun _ ↦ keeps_update h.enabled).tryCatch fun e ↦ ?_
  split
  · exact keeps_update (h.killed trivial)
  · exact keeps_throw _

variable (hbooks : ∀ {s m} (m' : OrderBookManager), I (s, m) → I (s, m'))

include hbooks

theorem event (event : Event) : Keeps I (event.method O) := by
  cases event with
  | books m => exact fun _ hx ↦ hbooks m hx
  | rawMessage header body => exact fun _ hx ↦ h.outside (.onRawMessage ..) hx
  | tradeSummary body timestamp => exact fun _ hx ↦ h.outside (.onTradeSummary ..) hx
  | marketDataUpdate => exact h.onMarketDataUpdate trivial
  | suspend => exact fun _ hx ↦ h.suspend hx
  | resume =>
    rintro ⟨s, m⟩ hx
    show I (s.resume, m)
    unfold resume
    split
    · exact h.enabled hx
    · exact hx
  | connectionLost => exact h.connectionLost
  | goFlat => exact h.goFlat
  | stop => exact h.stop trivial

/-- **A run**. -/
theorem run (events : List Event) {x : OrderStrategy ω × OrderBookManager} (hx : I x) :
    I (runEvents O events x) := by
  refine run_keeps (fun m hm ↦ ?_) hx
  obtain ⟨event, -, rfl⟩ := List.mem_map.1 hm
  exact h.event hbooks event

end KeptByRunParts

/-- The steps of a run keep an invariant. -/
structure KeptByRuns (O : Outside ω) (I : OrderStrategy ω × OrderBookManager → Prop) : Prop
    extends Kept O True I where
  suspend : ∀ {s m}, I (s, m) → I (s.suspend, m)
  enabled : ∀ {s m}, I (s, m) → I ({ s with enabled := true }, m)
  reconnect : Keeps I (dealing (fun _ ↦ .reconnect) (onClient OrderEntryClient.reconnect))

namespace KeptByRuns

variable (h : KeptByRuns O I)

include h

theorem parts : KeptByRunParts O I where
  toKeptByParts := h.toKept.parts
  suspend := h.suspend
  enabled := h.enabled
  reconnect := h.reconnect

/-- What is done about a lost connection. -/
theorem connectionLost : Keeps I connectionLost := h.parts.connectionLost

/-- **A run**. -/
theorem run (events : List Event) {x : OrderStrategy ω × OrderBookManager} (hx : I x) :
    I (runEvents O events x) := h.parts.run h.books events hx

end KeptByRuns

end HftTrading.Strategy
