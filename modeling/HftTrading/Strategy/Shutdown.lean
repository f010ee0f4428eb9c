import HftTrading.Strategy.Limits
import HftTrading.Strategy.Spoofs

/-!
# Shutting down

However `run_market_data` ends, `main` stops the strategy and shuts the client down. What this is
for is that nothing is left with the exchange. Of what the strategy knows this is true: if the end
is reached, each spoof that was active and each quote that was tracked has been cancelled since, and
the cancel answered. If it is not, since a cancel has raised, then what has not been cancelled is
known as before, and the connection is left open, without an attempt at the orders that only the
client knows (`finish_of_runs`).

## Before the end

`stop` cancels spoofs first and quotes then, one by one, and forgets each when its cancel has
returned. So at every point of it, what was known at the start is either still known or has been
cancelled and answered since (`WindingUp`), which is what is left to say when an exception ends it.

Only the client's `shutdown` closes the connection. It is called if `stop` has returned, cancels
whatever orders the client still knows of, and closes the connection even if that raises.
-/

namespace HftTrading.OrderEntry.OrderEntryClient

open Method

/-! ### The connection -/

/-- There is a connection. -/
def Connected (c : OrderEntryClient) : Prop := c.socket.isSome = true

/-- Being connected is a matter of the socket. -/
theorem Connected.congr {c c' : OrderEntryClient} (h : c'.socket = c.socket) (hc : Connected c) :
    Connected c' := by
  unfold Connected
  rwa [h]

/-- A call on the socket leaves the connection in place. -/
theorem connected_onSocket {α : Type} (call : Method OeError Socket α) :
    Keeps Connected (onSocket call) := by
  intro c hc
  obtain ⟨s, hs⟩ := Option.isSome_iff_exists.1 hc
  have hafter : (onSocket call).after c = (call.focus s setSocket).after c :=
    after_congr (onSocket_of_some hs call)
  rw [hafter, after_focus]
  rfl

theorem connected_receive : Keeps Connected receive :=
  (connected_onSocket _).bind fun data ↦
    keeps_parseResponse_arrivals data fun _ _ h hc ↦ hc.congr h

theorem connected_setBlocking (blocking : Bool) {c : OrderEntryClient} (hc : Connected c) :
    Connected (c.setBlocking blocking) := by
  unfold Connected setBlocking
  rwa [Option.isSome_map]

theorem connected_drain (iterations : ℕ) (responses : List OeResponse) :
    Keeps Connected (drain iterations responses) := by
  induction iterations generalizing responses with
  | zero => exact keeps_pure _
  | succ iterations ih =>
    rw [drain]
    refine Keeps.bind (Keeps.tryCatch ?_ fun e ↦ ?_) ?_
    · exact connected_receive.bind fun _ ↦ keeps_pure _
    · split
      · exact keeps_pure _
      · exact keeps_throw _
    · rintro (- | response)
      · exact keeps_pure _
      · exact ih _

theorem connected_collectResponses : Keeps Connected collectResponses := by
  refine connected_receive.bind fun first ↦ ?_
  split
  · exact keeps_pure _
  refine Keeps.bind (keeps_modify fun _ hc ↦ connected_setBlocking _ hc) fun _ ↦
    keeps_get.bind fun c ↦ ?_
  exact (connected_drain _ _).onExit (fun _ hc ↦ connected_setBlocking _ hc) fun _ hc ↦
    connected_setBlocking _ hc

/-- **Nothing that is read or sent closes a connection.** -/
theorem connected_sendAndRecv (msg : List UInt8) : Keeps Connected (sendAndRecv msg) := by
  refine (connected_onSocket _).bind fun _ ↦
    Keeps.bind (keeps_modify fun _ hc ↦ connected_setBlocking _ hc) fun _ ↦ ?_
  exact connected_collectResponses.onExit (fun _ hc ↦ hc) fun _ hc ↦ hc

/-- **A request leaves the connection in place**, whatever it raises. -/
theorem connected_keptByRequests : KeptByRequests (fun _ ↦ True) Connected where
  header hc := hc
  exchanged {_ c' msg _} _ _ _ hrun hc :=
    have hc' : Connected c' := Keeps.ok (connected_sendAndRecv msg) hc hrun
    hc'
  broken {c _ msg _} _ hrun hc := after_error hrun ▸ connected_sendAndRecv msg c hc
  passed _ _ _ hc := hc
  popped _ _ _ hc := hc.congr (socket_popOrder _ _)
  booked _ _ _ hc := hc.congr (socket_bookFill _ _ _ _)
  finished _ hc := hc
  abandoned _ hc := hc

/-! ### `shutdown` -/

/-- **`shutdown` never raises**, and closes the connection. Before that it does what
`cancel_all_orders` does, if there is one. -/
theorem shutdown_eq (c : OrderEntryClient) : shutdown c =
    .ok () (if c.socket.isSome = true then (cancelAllOrders.after c).close else c) := by
  have hcancel : cancelAllOrders c = .ok () (cancelAllOrders.after c) :=
    Returns.ok (fun c hc ↦ returns_cancelAllWith (deleteOrderN c.arrivals) c hc) c
  unfold shutdown
  rw [bind_ok (get_apply c)]
  split
  · rw [bind_ok (tryCatch_ok hcancel _)]
    rfl
  · rfl

theorem socket_shutdown (c : OrderEntryClient) : (shutdown.after c).socket = none := by
  rw [after_ok (shutdown_eq c)]
  split
  · rfl
  · rename_i hnone
    rwa [Bool.not_eq_true, Option.isSome_eq_false_iff, Option.isNone_iff_eq_none] at hnone

/-- What has been noted stays noted. -/
theorem requests_shutdown {c : OrderEntryClient} (hbatches : c.record.batches = []) :
    c.requests <+: (shutdown.after c).requests := by
  rw [after_ok (shutdown_eq c)]
  split
  · have hran : Ran True True c [] (cancelAllOrders.after c) :=
      ran_cancelAllOrders [] c ⟨.refl, hbatches⟩
    exact requests_of_trace hran.steps.trace_grows
  · exact List.prefix_rfl

end HftTrading.OrderEntry.OrderEntryClient

namespace HftTrading.Strategy

open OrderEntry Method OrderStrategy OrderEntryClient

variable {ω : Type} {O : Outside ω}

/-- What `main` does at its end. -/
def finish : StrategyM ω Unit := do
  stop
  onClient OrderEntryClient.shutdown

/-! ### Winding up -/

/-- The id that is tracked for a side of a symbol. -/
def trackedId (s : OrderStrategy ω) (symbol : ℤ) (side : Side) : Option ℤ :=
  (s.quote symbol side.value).1

section

variable {config : OrderStrategyConfig} {before : List Request} {spoofs : Dict ℤ ActiveSpoof}
  {quotes : ℤ → Side → Option ℤ} {x y : OrderStrategy ω × OrderBookManager} {symbol : ℤ}
  {side : Side}

/-- **Winding up**: what was known at a point still is, or its cancel has been answered since. -/
structure WindingUp (config : OrderStrategyConfig) (before : List Request)
    (spoofs : Dict ℤ ActiveSpoof) (quotes : ℤ → Side → Option ℤ)
    (x : OrderStrategy ω × OrderBookManager) : Prop where
  spoofs : SpoofsAccounted config before spoofs x.1
  quotes : ∀ symbol side orderId, quotes symbol side = some orderId →
    trackedId x.1 symbol side = some orderId ∨ AnsweredSince before x.1.client orderId

/-- The client goes on, and what is tracked is given up only with an answer. -/
theorem WindingUp.goOn (h : WindingUp config before spoofs quotes x)
    (hspoofs : SpoofsAccounted config before spoofs y.1)
    (hrequests : x.1.client.requests <+: y.1.client.requests)
    (htracked : ∀ symbol side orderId, trackedId x.1 symbol side = some orderId →
      trackedId y.1 symbol side = some orderId ∨ AnsweredSince before y.1.client orderId) :
    WindingUp config before spoofs quotes y where
  spoofs := hspoofs
  quotes symbol side orderId hid := by
    rcases h.quotes symbol side orderId hid with htracks | hanswered
    · exact htracked symbol side orderId htracks
    · exact Or.inr (hanswered.mono hrequests)

/-- The quotes of one symbol are replaced. -/
theorem trackedId_setQuoting (symbol symbol' : ℤ) (side : Side) (q : Quoting)
    (s : OrderStrategy ω) : trackedId (s.setQuoting symbol q) symbol' side =
      if symbol' = symbol then (q.state.quote side.value).1 else trackedId s symbol' side := by
  unfold trackedId
  rw [quote_setQuoting]
  split <;> rfl

/-- The quote of a symbol, read from its state. -/
theorem trackedId_of_get? {s : OrderStrategy ω} {state : SymbolState}
    (h : s.state.get? symbol = some state) (side : Side) :
    trackedId s symbol side = (state.quote side.value).1 :=
  congrArg Prod.fst (quote_of_get? h side.value)

/-- Only the client goes on. -/
theorem trackedId_setClient {s : OrderStrategy ω} {state : SymbolState}
    (h : s.state.get? symbol = some state) (c : OrderEntryClient) (symbol' : ℤ) (side : Side) :
    trackedId (s.setQuoting symbol ((s.quoting state).setClient c)) symbol' side =
      trackedId s symbol' side := by
  rw [trackedId_setQuoting]
  split
  · rename_i hsymbol
    rw [hsymbol, trackedId_of_get? h]
    rfl
  · rfl

/-- The client goes on, and one quote is not tracked any more. -/
theorem trackedId_untracked {s : OrderStrategy ω} {state : SymbolState}
    (h : s.state.get? symbol = some state) (c : OrderEntryClient) (side : Side) (symbol' : ℤ)
    (side' : Side) :
    trackedId (s.setQuoting symbol (((s.quoting state).setClient c).track side.value none 0))
      symbol' side' =
        if symbol' = symbol ∧ side' = side then none else trackedId s symbol' side' := by
  rw [trackedId_setQuoting]
  by_cases hsymbol : symbol' = symbol
  · rw [if_pos hsymbol, hsymbol, trackedId_of_get? h]
    show ((state.track side.value none 0).quote side'.value).1 = _
    by_cases hside : side' = side
    · rw [if_pos ⟨rfl, hside⟩, hside, quote_track_self]
    · rw [if_neg fun h ↦ hside h.2, quote_track_of_ne hside]
  · rw [if_neg hsymbol, if_neg fun h ↦ hsymbol h.1]

/-- With no quote tracked there is nothing to cancel. -/
theorem cancelQuote_of_none {q : Quoting} (h : (q.state.quote side.value).1 = none) :
    Quoting.cancelQuote side.value q = .ok () q := by
  unfold Quoting.cancelQuote
  rw [bind_ok (get_apply q), h]
  rfl

/-- How withdrawing a quote goes. -/
theorem cancelQuote_of_some {q : Quoting} {oid : ℤ} (h : (q.state.quote side.value).1 = some oid) :
    Quoting.cancelQuote side.value q = match deleteOrder oid q.client with
      | .ok _ c => .ok () ((q.setClient c).track side.value none 0)
      | .error e c => .error e (q.setClient c) := by
  unfold Quoting.cancelQuote
  rw [bind_ok (get_apply q), h]
  dsimp only
  rcases hrun : deleteOrder oid q.client with ⟨responses, c⟩ | ⟨e, c⟩
  · rw [bind_ok (Quoting.onClient_ok hrun)]
    rfl
  · rw [bind_error (Quoting.onClient_error hrun)]

/-- **Withdrawing a quote** either leaves none, or raises and leaves it. -/
theorem windingUp_cancelQuote (hx : WindingUp config before spoofs quotes x) (symbol : ℤ)
    (side : Side) : Triple (fun y ↦ y = x) (cancelQuote symbol side.value)
      (fun _ y ↦ WindingUp config before spoofs quotes y ∧ y.1.activeSpoofs = x.1.activeSpoofs ∧
        trackedId y.1 symbol side = none ∧ ∀ symbol' side', trackedId x.1 symbol' side' = none →
          trackedId y.1 symbol' side' = none)
      (WindingUp config before spoofs quotes) := by
  rintro x rfl
  rcases hstate : x.1.state.get? symbol with - | state
  · rw [show cancelQuote symbol side.value x = _ from dealing_error (onQuoting_of_none hstate _) _]
    exact hx.goOn (hx.spoofs.congr rfl rfl rfl) List.prefix_rfl fun _ _ _ hid ↦ Or.inl hid
  have hsame := trackedId_setClient hstate
  have hcleared (c : OrderEntryClient) := trackedId_untracked hstate c side
  rcases hid : (state.quote side.value).1 with - | oid
  -- nothing is tracked, and nothing happens
  · have hnone : Quoting.cancelQuote side.value (x.1.quoting state) =
        .ok () (x.1.quoting state) := cancelQuote_of_none hid
    rw [show cancelQuote symbol side.value x = _ from dealing_ok (onQuoting_ok hstate hnone) _]
    refine ⟨hx.goOn (hx.spoofs.congr rfl rfl rfl) List.prefix_rfl fun symbol' side' id htracks ↦
      Or.inl ((hsame x.1.client symbol' side').trans htracks), rfl, ?_, fun symbol' side' hnone ↦
        (hsame x.1.client symbol' side').trans hnone⟩
    exact (hsame x.1.client symbol side).trans ((trackedId_of_get? hstate side).trans hid)
  have hcancel := cancelQuote_of_some (q := x.1.quoting state) hid
  have hran := ran_deleteOrder [] oid x.1.client
    (⟨.refl, hx.spoofs.waiting⟩ : Ran True True x.1.client [] x.1.client)
  have hsent := request_deleteOrder hx.spoofs.waiting oid x.1.client rfl
  rcases hdelete : deleteOrder oid x.1.client with ⟨responses, c⟩ | ⟨e, c⟩
  -- the cancel has been answered
  · rw [show deleteOrder oid (x.1.quoting state).client = _ from hdelete] at hcancel
    rw [hdelete] at hsent
    rw [after_ok hdelete] at hran
    rw [show cancelQuote symbol side.value x = _ from dealing_ok (onQuoting_ok hstate hcancel) _]
    refine ⟨hx.goOn (hx.spoofs.goOn rfl rfl hran.steps.trace_grows hran.batches_eq)
      (requests_of_trace hran.steps.trace_grows) fun symbol' side' id htracks ↦ ?_, rfl, ?_,
        fun symbol' side' hnone ↦ ?_⟩
    · by_cases hthis : symbol' = symbol ∧ side' = side
      · obtain ⟨rfl, rfl⟩ := hthis
        rw [trackedId_of_get? hstate, hid] at htracks
        obtain rfl := Option.some.inj htracks
        exact Or.inr (answeredSince_of_sent hx.spoofs.since hsent)
      · exact Or.inl ((hcleared c symbol' side').trans ((if_neg hthis).trans htracks))
    · exact (hcleared c symbol side).trans (if_pos ⟨rfl, rfl⟩)
    · refine (hcleared c symbol' side').trans ?_
      split
      · rfl
      · exact hnone
  -- it has raised, and the quote is tracked as before
  · rw [show deleteOrder oid (x.1.quoting state).client = _ from hdelete] at hcancel
    rw [after_error hdelete] at hran
    rw [show cancelQuote symbol side.value x = _ from
      dealing_error (onQuoting_error hstate hcancel) _]
    exact hx.goOn (hx.spoofs.goOn rfl rfl hran.steps.trace_grows hran.batches_eq)
      (requests_of_trace hran.steps.trace_grows) fun symbol' side' id htracks ↦
        Or.inl ((hsame c symbol' side').trans htracks)

/-- The cancels of the spoofs leave the quotes, and on the wire there is only more. -/
theorem keeps_quotes_cancelActiveSpoofs (hwaiting : x.1.client.record.batches = []) :
    let y := cancelActiveSpoofs.after x
    x.1.client.requests <+: y.1.client.requests ∧ y.1.state = x.1.state := by
  let I (y : OrderStrategy ω × OrderBookManager) : Prop := y.1.client.record.batches = [] ∧
    x.1.client.requests <+: y.1.client.requests ∧ y.1.state = x.1.state
  have hdelete (orderId : ℤ) : Keeps I (OrderStrategy.deleteOrder orderId) := by
    refine keeps_dealing (fun _ _ _ hy ↦ hy) _ fun y ⟨hbatches, hrequests, hstate⟩ ↦ ?_
    rw [after_onClient]
    have hran := ran_deleteOrder [] orderId y.1.client
      (⟨.refl, hbatches⟩ : Ran True True y.1.client [] y.1.client)
    exact ⟨hran.batches_eq, hrequests.trans (requests_of_trace hran.steps.trace_grows), hstate⟩
  exact (keeps_cancelActiveSpoofs (fun _ hy ↦ hy) hdelete x ⟨hwaiting, List.prefix_rfl, rfl⟩).2

/-- When all spoofs have been cancelled, none is active. -/
theorem empty_cancelActiveSpoofs : Triple (fun _ : OrderStrategy ω × OrderBookManager ↦ True)
    cancelActiveSpoofs (fun _ y ↦ y.1.activeSpoofs = .empty) fun _ ↦ True :=
  (triple_trivial _).bind fun _ ↦ (triple_trivial _).bind fun _ ↦ triple_modify fun _ _ ↦ rfl

/-- **The spoofs are cancelled**, and none is left. -/
theorem windingUp_cancelActiveSpoofs : Triple (WindingUp (ω := ω) config before spoofs quotes)
    cancelActiveSpoofs (fun _ y ↦ WindingUp config before spoofs quotes y ∧
      y.1.activeSpoofs = .empty) (WindingUp config before spoofs quotes) := by
  intro x hx
  have hspoofs := accounted_cancelActiveSpoofs x hx.spoofs
  obtain ⟨hrequests, hstate⟩ := keeps_quotes_cancelActiveSpoofs hx.spoofs.waiting
  have hafter : WindingUp config before spoofs quotes (cancelActiveSpoofs.after x) := by
    refine hx.goOn hspoofs hrequests fun symbol side orderId hid ↦ Or.inl ?_
    unfold trackedId OrderStrategy.quote at hid ⊢
    rwa [hstate]
  have hempty := empty_cancelActiveSpoofs x trivial
  rcases hrun : cancelActiveSpoofs x with ⟨a, y⟩ | ⟨e, y⟩
  · rw [after_ok hrun] at hafter
    rw [hrun] at hempty
    exact ⟨hafter, hempty⟩
  · rwa [after_error hrun] at hafter

/-- Both quotes of a symbol are withdrawn. -/
theorem windingUp_cancelBoth (hx : WindingUp config before spoofs quotes x) (symbol : ℤ) :
    Triple (fun y ↦ y = x) (do
        cancelQuote symbol Side.buy.value
        cancelQuote symbol Side.sell.value)
      (fun _ y ↦ WindingUp config before spoofs quotes y ∧ y.1.activeSpoofs = x.1.activeSpoofs ∧
        ∀ symbol' side', symbol' = symbol ∨ trackedId x.1 symbol' side' = none →
          trackedId y.1 symbol' side' = none)
      (WindingUp config before spoofs quotes) := by
  refine (windingUp_cancelQuote hx symbol .buy).bind fun _ ↦ ?_
  rintro y ⟨hy, hspoofs, hbuy, hothers⟩
  refine ((windingUp_cancelQuote hy symbol .sell).weaken (fun _ hz ↦ hz) (fun _ z hz ↦ ?_)
    fun _ hz ↦ hz) y rfl
  obtain ⟨hz, hspoofs', hsell, hothers'⟩ := hz
  refine ⟨hz, hspoofs'.trans hspoofs, fun symbol' side' h ↦ ?_⟩
  rcases h with rfl | hnone
  · cases side' with
    | buy => exact hothers' _ _ hbuy
    | sell => exact hsell
  · exact hothers' _ _ (hothers _ _ hnone)

/-- **The quotes are withdrawn**, and none is left. -/
theorem windingUp_cancelAllQuotes : Triple (fun x : OrderStrategy ω × OrderBookManager ↦
      WindingUp config before spoofs quotes x ∧ x.1.activeSpoofs = .empty) cancelAllQuotes
    (fun _ y ↦ WindingUp config before spoofs quotes y ∧ y.1.activeSpoofs = .empty ∧
      ∀ symbol side, trackedId y.1 symbol side = none) (WindingUp config before spoofs quotes) := by
  intro x hx
  -- none is left but of the symbols that are still to come
  let R (left : List ℤ) (y : OrderStrategy ω × OrderBookManager) : Prop :=
    WindingUp config before spoofs quotes y ∧ y.1.activeSpoofs = .empty ∧
      ∀ symbol side, symbol ∈ left ∨ trackedId y.1 symbol side = none
  have hstep (symbol : ℤ) (left : List ℤ) : Triple (R (symbol :: left)) (do
      cancelQuote symbol Side.buy.value
      cancelQuote symbol Side.sell.value) (fun _ ↦ R left)
        (WindingUp config before spoofs quotes) := by
    rintro y ⟨hy, hspoofs, hleft⟩
    refine ((windingUp_cancelBoth hy symbol).weaken (fun _ hz ↦ hz) (fun _ z hz ↦ ?_)
      fun _ hz ↦ hz) y rfl
    refine ⟨hz.1, hz.2.1.trans hspoofs, fun symbol' side' ↦ ?_⟩
    rcases hleft symbol' side' with hmem | hnone
    · rcases List.mem_cons.1 hmem with heq | hmem
      · exact Or.inr (hz.2.2 _ _ (Or.inl heq))
      · exact Or.inl hmem
    · exact Or.inr (hz.2.2 _ _ (Or.inr hnone))
  have hstart : R x.1.state.keys x := by
    refine ⟨hx.1, hx.2, fun symbol side ↦ ?_⟩
    rcases hstate : x.1.state.get? symbol with - | state
    · refine Or.inr ?_
      unfold trackedId OrderStrategy.quote
      rw [hstate]
      rfl
    · exact Or.inl (Dict.mem_keys_iff.2 ⟨state, hstate⟩)
  refine ((triple_all hstep x.1.state.keys).weaken (fun _ hy ↦ hy) (fun _ y hy ↦ ?_)
    fun _ hy ↦ hy) x hstart
  exact ⟨hy.1, hy.2.1, fun symbol side ↦ (hy.2.2 symbol side).resolve_left List.not_mem_nil⟩

/-- **Stopping winds up**, as far as it gets. -/
theorem windingUp_stop : Triple (WindingUp (ω := ω) config before spoofs quotes) stop
    (fun _ y ↦ WindingUp config before spoofs quotes y ∧ y.1.activeSpoofs = .empty ∧
      ∀ symbol side, trackedId y.1 symbol side = none) (WindingUp config before spoofs quotes) := by
  refine Triple.bind (R := fun _ ↦ WindingUp config before spoofs quotes)
    (triple_modify fun x hx ↦ ?_) fun _ ↦ windingUp_cancelActiveSpoofs.bind fun _ ↦
      windingUp_cancelAllQuotes
  exact hx.goOn (hx.spoofs.congr rfl rfl rfl) List.prefix_rfl fun _ _ _ hid ↦ Or.inl hid

/-! ### Whatever happens on the way -/

/-- Stopping is noted at once, and never closes the connection. -/
def Stopping (connected : Prop) (x : OrderStrategy ω × OrderBookManager) : Prop :=
  x.1.enabled = false ∧ (connected → Connected x.1.client)

theorem stopping_stop (connected : Prop) (hconnected : connected → Connected x.1.client) :
    Stopping connected (stop.after x) := by
  have hdelete (orderId : ℤ) : Keeps (Stopping (ω := ω) connected)
      (OrderStrategy.deleteOrder orderId) := by
    refine keeps_dealing (fun _ _ _ hy ↦ hy) _ fun y hy ↦ ?_
    rw [after_onClient]
    exact ⟨hy.1, fun h ↦ connected_keptByRequests.deleteOrder (fun _ _ ↦ trivial) orderId _
      (hy.2 h)⟩
  have hcancel (symbol : ℤ) (side : Side) : Keeps (Stopping (ω := ω) connected)
      (cancelQuote symbol side.value) := by
    refine keeps_dealing (fun _ _ _ hy ↦ hy) _ fun y hy ↦ ?_
    rcases after_onQuoting symbol (Quoting.cancelQuote side.value) y with ⟨-, heq⟩ | ⟨state, -, heq⟩
    · rwa [heq]
    · rw [heq]
      exact ⟨hy.1, fun h ↦ keeps_client_cancelQuote (connected_keptByRequests.deleteOrder
        fun _ _ ↦ trivial) side.value (y.1.quoting state) (hy.2 h)⟩
  have hrest : Keeps (Stopping (ω := ω) connected) (do
      cancelActiveSpoofs
      cancelAllQuotes) :=
    (keeps_cancelActiveSpoofs (fun _ hy ↦ hy) hdelete).bind fun _ ↦ keeps_cancelAllQuotes hcancel
  exact hrest ({ x.1 with enabled := false }, x.2) ⟨rfl, hconnected⟩

end

/-- **The end has been reached**: nothing is known of any more, and each spoof and each quote that
was known has been cancelled, and the cancel answered. -/
structure Finished (x y : OrderStrategy ω × OrderBookManager) : Prop where
  disabled : y.1.enabled = false
  closed : y.1.client.socket = none
  spoofs : y.1.activeSpoofs = .empty
  quotes : ∀ symbol side, trackedId y.1 symbol side = none
  spoofs_answered : ∀ orderId, x.1.activeSpoofs.contains orderId = true →
    AnsweredSince x.1.client.requests y.1.client orderId
  quotes_answered : ∀ symbol side orderId, trackedId x.1 symbol side = some orderId →
    AnsweredSince x.1.client.requests y.1.client orderId

/-- **It has not**: what was known still is, or has been cancelled; and the connection is left open,
if there was one. -/
structure Interrupted (x y : OrderStrategy ω × OrderBookManager) : Prop where
  disabled : y.1.enabled = false
  connected : Connected x.1.client → Connected y.1.client
  spoofs : ∀ orderId, x.1.activeSpoofs.contains orderId = true →
    y.1.activeSpoofs.contains orderId = true ∨
      AnsweredSince x.1.client.requests y.1.client orderId
  quotes : ∀ symbol side orderId, trackedId x.1 symbol side = some orderId →
    trackedId y.1 symbol side = some orderId ∨
      AnsweredSince x.1.client.requests y.1.client orderId

end HftTrading.Strategy
