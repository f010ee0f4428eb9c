import HftTrading.Lib.Counters
import HftTrading.Strategy.Steps

/-!
# Order ids

The strategy takes its order ids from several counters, each with a base of its own: one for each
symbol that it quotes, one for `go_flat` and one for the ETF engine (`Source`). The counters know
nothing of each other, so what keeps the ids apart is that no counter gets as far as the base of
another: **no id is allocated twice exactly when the ranges used do not meet**
(`allocated_nodup_iff`). Nothing in the source stops a counter at the next base.

Whatever the strategy does, its counters stand as after some allocations (`exists_sources`).

## Which calls draw an id

An id is drawn where an order is about to be placed: a quote draws one even if the order is then
refused, a modified quote none. `Allocates` says of a state that each counter stands as far as some
list of sources has moved it, and is checked for the parts of the strategy one by one; the quoting
of one symbol moves its own counter forward only, and no other. Counters as such, with keys and
bases, are not a matter of this strategy.
-/

namespace HftTrading.Strategy

open OrderEntry Method OrderStrategy

/-- A source of order ids. -/
inductive Source (config : OrderStrategyConfig)
  /-- `alloc_order_id` of a configured symbol, for quotes and spoofs. -/
  | quotes (symbol : ℤ) (h : symbol ∈ config.symbols)
  /-- `_next_flatten_oid`. -/
  | flatten
  /-- `_alloc_oid` of the ETF engine. -/
  | etfArb
  deriving DecidableEq

namespace Source

variable {config : OrderStrategyConfig} {ω : Type}

/-- The first id of a source. -/
def base : Source config → ℤ
  | .quotes symbol _ => symbol * 100000
  | .flatten => 15000000
  | .etfArb => ARB_ORDER_ID_BASE

/-- Allocate an id. -/
def alloc : Source config → StrategyM ω ℤ
  | .quotes symbol _ => allocOrderId symbol
  | .flatten => nextFlattenOid
  | .etfArb => ETFArbEngine.allocOid

/-- The id that a source allocates next. -/
def nextId (s : OrderStrategy ω) : Source config → ℤ
  | .quotes symbol _ => ((s.state.get? symbol).map SymbolState.nextOrderId).getD 0
  | .flatten => s.flattenOidCounter
  | .etfArb => s.etfArb.nextOid

/-- The ids allocated in a run, from these sources in this order. -/
def allocated : List (Source config) → OrderStrategy ω × OrderBookManager → List ℤ
  | [], _ => []
  | source :: sources, x =>
    (source.alloc.value? x).toList ++ allocated sources (source.alloc.after x)

/-- Two sources do not reach into each other: one of them is not used, or ends where the other has
not begun. -/
def Apart (sources : List (Source config)) (a b : Source config) : Prop :=
  sources.count a = 0 ∨ sources.count b = 0 ∨ a.base + sources.count a ≤ b.base ∨
    b.base + sources.count b ≤ a.base

/-- The ranges of ids used do not meet. -/
theorem disjoint_range_iff (sources : List (Source config)) (a b : Source config) :
    Disjoint (Counters.range base sources a) (Counters.range base sources b) ↔
      Apart sources a b := by
  unfold Counters.range Apart
  rw [Set.Ico_disjoint_Ico]
  omega

/-! ### Allocating -/

/-- There is a state for exactly the symbols that are configured. -/
def HasStates (config : OrderStrategyConfig) (s : OrderStrategy ω) : Prop :=
  ∀ symbol, (∃ state, s.state.get? symbol = some state) ↔ symbol ∈ config.symbols

/-- A configured symbol starts with its own base. -/
theorem get?_init (client : OrderEntryClient) (outside : ω) (symbol : ℤ) :
    (OrderStrategy.init client config outside).state.get? symbol =
      if symbol ∈ config.symbols then some (.init symbol (symbol * 100000)) else none := by
  have hfold (d : Dict ℤ SymbolState) (symbols : List ℤ) :
      (symbols.foldl (fun d sym ↦ d.insert sym (SymbolState.init sym (sym * 100000))) d).get?
          symbol =
        if symbol ∈ symbols then some (.init symbol (symbol * 100000)) else d.get? symbol := by
    induction symbols generalizing d with
    | nil => rfl
    | cons sym symbols ih =>
      rw [List.foldl_cons, ih, Dict.get?_insert]
      by_cases hmem : symbol ∈ symbols
      · rw [if_pos hmem, if_pos (List.mem_cons_of_mem _ hmem)]
      · rw [if_neg hmem]
        by_cases hsym : symbol = sym
        · rw [if_pos hsym, if_pos (hsym ▸ List.mem_cons_self), hsym]
        · rw [if_neg hsym, if_neg (by rw [List.mem_cons]; exact not_or.2 ⟨hsym, hmem⟩)]
  exact hfold .empty config.symbols

theorem hasStates_init (client : OrderEntryClient) (outside : ω) :
    HasStates config (OrderStrategy.init client config outside) := by
  intro symbol
  rw [get?_init]
  split
  · exact iff_of_true ⟨_, rfl⟩ ‹_›
  · exact iff_of_false (fun ⟨_, h⟩ ↦ by cases h) ‹_›

theorem nextId_init (client : OrderEntryClient) (outside : ω) :
    nextId (OrderStrategy.init client config outside) = (base : Source config → ℤ) := by
  funext source
  cases source with
  | quotes symbol h =>
    show ((_ : Option SymbolState).map SymbolState.nextOrderId).getD 0 = symbol * 100000
    rw [get?_init, if_pos h]
    rfl
  | flatten => rfl
  | etfArb => rfl

/-- Rewriting a symbol's state moves that symbol's counter only. -/
theorem nextId_setQuoting {s : OrderStrategy ω} {symbol : ℤ} (h : symbol ∈ config.symbols)
    (q : Quoting) :
    nextId (s.setQuoting symbol q) =
      Function.update (nextId s) (.quotes symbol h : Source config) q.state.nextOrderId := by
  funext source
  rw [Function.update_apply]
  cases source with
  | quotes symbol' h' =>
    show (((s.state.insert symbol q.state).get? symbol').map SymbolState.nextOrderId).getD 0 = _
    rw [Dict.get?_insert]
    by_cases hs : symbol' = symbol
    · subst hs
      rw [if_pos rfl, if_pos rfl]
      rfl
    · rw [if_neg hs, if_neg fun he ↦ hs (by injection he)]
      rfl
  | flatten => rw [if_neg (by simp)]; rfl
  | etfArb => rw [if_neg (by simp)]; rfl

/-- Quoting one symbol leaves all of them with a state. -/
theorem HasStates.setQuoting {s : OrderStrategy ω} {symbol : ℤ} (hs : HasStates config s)
    (h : symbol ∈ config.symbols) (q : Quoting) : HasStates config (s.setQuoting symbol q) := by
  intro symbol'
  show (∃ state, (s.state.insert symbol q.state).get? symbol' = some state) ↔ _
  rw [Dict.get?_insert]
  split
  · rename_i heq
    exact iff_of_true ⟨_, rfl⟩ (heq ▸ h)
  · exact hs symbol'

/-- **An allocation** hands out the next id and moves that counter on. -/
theorem alloc_ok (source : Source config) {x : OrderStrategy ω × OrderBookManager}
    (hx : HasStates config x.1) : ∃ x', source.alloc x = .ok (nextId x.1 source) x' ∧
      HasStates config x'.1 ∧
      (nextId x'.1 : Source config → ℤ) = Counters.advance (nextId x.1) source := by
  cases source with
  | quotes symbol h =>
    obtain ⟨state, hstate⟩ := (hx symbol).2 h
    refine ⟨(x.1.setQuoting symbol (x.1.quoting state).allocated, x.2), ?_, hx.setQuoting h _, ?_⟩
    · show onQuoting symbol Quoting.allocOrderId x = _
      unfold onQuoting
      rw [hstate]
      show EStateM.Result.ok state.nextOrderId _ = .ok (((_ : Option SymbolState).map _).getD 0) _
      rw [hstate]
      rfl
    · rw [nextId_setQuoting h]
      unfold Counters.advance
      congr 1
      show state.nextOrderId + 1 = ((x.1.state.get? symbol).map _).getD 0 + 1
      rw [hstate]
      rfl
  | flatten =>
    refine ⟨({ x.1 with flattenOidCounter := x.1.flattenOidCounter + 1 }, x.2), rfl, hx, ?_⟩
    funext source
    rw [Counters.advance_apply]
    cases source with
    | flatten => rfl
    | _ => exact (add_zero _).symm
  | etfArb =>
    refine ⟨({ x.1 with etfArb := { x.1.etfArb with nextOid := x.1.etfArb.nextOid + 1 } }, x.2),
      rfl, hx, ?_⟩
    funext source
    rw [Counters.advance_apply]
    cases source with
    | etfArb => rfl
    | _ => exact (add_zero _).symm

/-- The ids are what counters hand out that start where these stand. -/
theorem allocated_eq (sources : List (Source config)) {x : OrderStrategy ω × OrderBookManager}
    (hx : HasStates config x.1) : allocated sources x = Counters.handOut (nextId x.1) sources := by
  induction sources generalizing x with
  | nil => rfl
  | cons source sources ih =>
    obtain ⟨x', hrun, hx', hnext⟩ := alloc_ok source hx
    rw [allocated, Counters.handOut, after_ok hrun, ih hx', hnext,
      value?_eq_some_iff.2 ⟨x', hrun⟩]
    rfl

theorem allocated_init (sources : List (Source config)) (client : OrderEntryClient) (outside : ω)
    (m : OrderBookManager) :
    allocated sources (.init client config outside, m) = Counters.handOut base sources := by
  rw [allocated_eq sources (hasStates_init client outside), nextId_init]

/-- **The order ids of a run are distinct** exactly when no source reaches into another. -/
theorem allocated_nodup_iff (client : OrderEntryClient) (outside : ω) (m : OrderBookManager)
    (sources : List (Source config)) :
    (allocated sources (.init client config outside, m)).Nodup ↔
      ∀ a b : Source config, a ≠ b → Apart sources a b := by
  rw [allocated_init, Counters.nodup_handOut_iff]
  simp only [disjoint_range_iff]

/-- The hundred thousand and first id of symbol 1 is the first of symbol 2. -/
theorem symbol_two_id_repeated :
    ¬(allocated (List.replicate 100001 (.quotes 1 (by decide)) ++ [.quotes 2 (by decide)] :
      List (Source {})) (OrderStrategy.init (.init [] [] 0 0 0 none []) {} (), .init)).Nodup := by
  have hcount (n : ℕ) (a b : Source {}) (hne : a ≠ b) :
      (List.replicate n a ++ [b]).count a = n ∧ (List.replicate n a ++ [b]).count b = 1 := by
    constructor
    · rw [List.count_append, List.count_replicate_self, List.count_singleton,
        if_neg (by simpa using hne.symm), add_zero]
    · rw [List.count_append, List.count_replicate, if_neg (by simpa using hne), zero_add,
        List.count_singleton_self]
  rw [allocated_init, Counters.nodup_handOut_iff]
  intro h
  have hne : (.quotes 1 (by decide) : Source {}) ≠ .quotes 2 (by decide) := by decide
  have hapart := (disjoint_range_iff _ _ _).1 (h _ _ hne)
  obtain ⟨hone, htwo⟩ := hcount 100001 _ _ hne
  unfold Apart at hapart
  rw [hone, htwo] at hapart
  revert hapart
  decide

/-! ### The strategy allocates from these sources only -/

/-- The counters stand as after some allocations. -/
def Allocates (config : OrderStrategyConfig) (x : OrderStrategy ω × OrderBookManager) : Prop :=
  HasStates config x.1 ∧ ∃ sources : List (Source config),
    ∀ source, nextId x.1 source = source.base + sources.count source

theorem Allocates.of_eq {x x' : OrderStrategy ω × OrderBookManager} (h : Allocates config x)
    (hstate : x'.1.state = x.1.state) (hflatten : x'.1.flattenOidCounter = x.1.flattenOidCounter)
    (hetf : x'.1.etfArb.nextOid = x.1.etfArb.nextOid) : Allocates config x' := by
  obtain ⟨hstates, sources, hnext⟩ := h
  refine ⟨?_, sources, fun source ↦ ?_⟩
  · unfold HasStates
    rw [hstate]
    exact hstates
  · rw [← hnext source]
    cases source with
    | quotes symbol h =>
      show ((x'.1.state.get? symbol).map _).getD 0 = ((x.1.state.get? symbol).map _).getD 0
      rw [hstate]
    | flatten => exact hflatten
    | etfArb => exact hetf

/-- A counter is moved on by some calls. -/
theorem Allocates.advance {x x' : OrderStrategy ω × OrderBookManager} (h : Allocates config x)
    (hstates : HasStates config x'.1) (source : Source config) (n : ℕ)
    (hnext : (nextId x'.1 : Source config → ℤ) =
      Function.update (nextId x.1) source (nextId x.1 source + n)) : Allocates config x' := by
  obtain ⟨-, sources, hsources⟩ := h
  refine ⟨hstates, sources ++ List.replicate n source, fun source' ↦ ?_⟩
  rw [hnext, Function.update_apply, List.count_append]
  split
  · rename_i heq
    rw [heq, hsources, List.count_replicate_self]
    push_cast
    ring
  · rename_i hne
    rw [hsources, List.count_replicate, if_neg (by simpa using fun h ↦ hne h.symm), add_zero]

theorem allocates_nextFlattenOid : Keeps (Allocates config) (nextFlattenOid (ω := ω)) := by
  intro x hx
  obtain ⟨x', hrun, hstates, hnext⟩ := alloc_ok (.flatten : Source config) hx.1
  rw [show nextFlattenOid = (.flatten : Source config).alloc from rfl, after_ok hrun]
  exact hx.advance hstates _ 1 hnext

theorem allocates_allocOid : Keeps (Allocates config) (ETFArbEngine.allocOid (ω := ω)) := by
  intro x hx
  obtain ⟨x', hrun, hstates, hnext⟩ := alloc_ok (.etfArb : Source config) hx.1
  rw [show ETFArbEngine.allocOid = (.etfArb : Source config).alloc from rfl, after_ok hrun]
  exact hx.advance hstates _ 1 hnext

/-- Quoting a symbol moves its counter forward, if at all. -/
theorem allocates_onQuoting {α : Type} {call : Quoting.QuotingM α}
    (hcall : ∀ n, Keeps (fun q ↦ n ≤ q.state.nextOrderId) call) (symbol : ℤ) :
    Keeps (Allocates config) (onQuoting (ω := ω) symbol call) := by
  intro x hx
  rcases after_onQuoting symbol call x with ⟨-, heq⟩ | ⟨state, hstate, heq⟩
  · rw [heq]
    exact hx
  rw [heq]
  have hmem := (hx.1 symbol).1 ⟨state, hstate⟩
  obtain ⟨n, hn⟩ := Int.le.dest (hcall state.nextOrderId (x.1.quoting state) (le_refl _))
  have hnext : nextId x.1 (.quotes symbol hmem : Source config) = state.nextOrderId := by
    show ((x.1.state.get? symbol).map SymbolState.nextOrderId).getD 0 = _
    rw [hstate]
    rfl
  refine hx.advance (hx.1.setQuoting hmem _) (.quotes symbol hmem) n ?_
  rw [nextId_setQuoting hmem, ← hn, hnext]

section

variable {n : ℤ}

theorem forward_onClient {α : Type} (call : OrderEntryClient.ClientM α) :
    Keeps (fun q : Quoting ↦ n ≤ q.state.nextOrderId) (Quoting.onClient call) :=
  keeps_focus fun _ _ hq ↦ hq

theorem forward_track (side : ℤ) (orderId : Option ℤ) (price : ℤ) :
    Keeps (fun q : Quoting ↦ n ≤ q.state.nextOrderId)
      (modify (Quoting.track side orderId price) : Quoting.QuotingM PUnit) := by
  intro q hq
  show n ≤ (q.state.track side orderId price).nextOrderId
  unfold SymbolState.track
  split
  · exact hq
  · exact hq

theorem forward_allocOrderId :
    Keeps (fun q : Quoting ↦ n ≤ q.state.nextOrderId) Quoting.allocOrderId :=
  fun _ hq ↦ Int.le_add_one hq

theorem forward_cancelQuote (side : ℤ) :
    Keeps (fun q : Quoting ↦ n ≤ q.state.nextOrderId) (Quoting.cancelQuote side) := by
  refine keeps_get.bind fun q ↦ ?_
  rcases (q.state.quote side).1 with - | oid
  · exact keeps_pure _
  · exact (forward_onClient _).bind fun _ ↦ forward_track _ _ _

theorem forward_placeQuote (now : ℚ) (side price : ℤ) :
    Keeps (fun q : Quoting ↦ n ≤ q.state.nextOrderId) (Quoting.placeQuote now side price) := by
  refine forward_allocOrderId.bind fun oid ↦ keeps_get.bind fun q ↦ ?_
  split
  · exact keeps_pure _
  · refine (forward_onClient _).bind fun responses ↦ ?_
    split
    · exact forward_track _ _ _
    · exact keeps_pure _

theorem forward_modifyQuote (side newPrice : ℤ) :
    Keeps (fun q : Quoting ↦ n ≤ q.state.nextOrderId) (Quoting.modifyQuote side newPrice) := by
  refine keeps_get.bind fun q ↦ ?_
  split
  · exact keeps_pure _
  rcases (q.state.quote side).1 with - | oid
  · exact keeps_pure _
  · refine (forward_onClient _).bind fun responses ↦ ?_
    split
    · exact forward_track _ _ _
    · exact forward_track _ _ _

/-- Whatever is done about a quote, the counter does not go back. -/
theorem forward_manageQuote (now : ℚ) (side targetPrice : ℤ) (shouldQuote : Bool) :
    Keeps (fun q : Quoting ↦ n ≤ q.state.nextOrderId)
      (Quoting.manageQuote now side targetPrice shouldQuote) := by
  refine keeps_get.bind fun q ↦ ?_
  dsimp only
  split
  · split
    · exact forward_cancelQuote side
    · exact keeps_pure _
  split
  · exact forward_placeQuote now side targetPrice
  split
  · exact forward_modifyQuote side targetPrice
  · exact keeps_pure _

end

variable {O : Outside ω}

/-- A call of the client, as a part of the strategy. -/
theorem allocates_onClient {α : Type} (call : OrderEntryClient.ClientM α) :
    Keeps (Allocates config) (dealing (ω := ω) (fun _ ↦ .other) (onClient call)) := by
  refine keeps_dealing (fun _ _ _ hx ↦ hx.of_eq rfl rfl rfl) _ fun x hx ↦ ?_
  rw [after_onClient]
  exact hx.of_eq rfl rfl rfl

/-- A new order, under an id that has been drawn. -/
theorem allocates_newOrder (orderId symbol side quantity price : ℤ) (flags : OrderFlags) :
    Keeps (Allocates config) (newOrder O orderId symbol side quantity price flags) :=
  Keeps.bind (fun _ hx ↦ hx.of_eq rfl rfl rfl) fun _ ↦ allocates_onClient _

/-- **Every part of a run allocates.** -/
theorem allocates_keptByRuns : KeptByRuns O (Allocates config) where
  outside _ hx := hx.of_eq rfl rfl rfl
  books _ hx := hx.of_eq rfl rfl rfl
  spoofs _ hx := hx.of_eq rfl rfl rfl
  deleteOrder _ := allocates_onClient _
  cancelQuote symbol side := keeps_dealing (fun _ _ _ hx ↦ hx.of_eq rfl rfl rfl) _
    (allocates_onQuoting (fun _ ↦ forward_cancelQuote side.value) symbol)
  attempt := keeps_dealing (fun _ _ _ hx ↦ hx.of_eq rfl rfl rfl) _ (keeps_pure _)
  submitClosing symbol side quantity price := allocates_nextFlattenOid.bind fun oid ↦
    Keeps.tryCatch ((allocates_newOrder oid symbol side quantity price .ioc).bind fun _ ↦
      keeps_pure _) fun _ ↦ keeps_pure _
  finished hx := hx.of_eq rfl rfl rfl
  killed _ _ _ hx := hx.of_eq rfl rfl rfl
  stopped _ _ _ hx := hx.of_eq rfl rfl rfl
  manageQuote _ symbol side price shouldQuote := Keeps.bind (fun _ hx ↦ hx.of_eq rfl rfl rfl)
    fun now ↦ keeps_dealing (fun _ _ _ hx ↦ hx.of_eq rfl rfl rfl) _
      (allocates_onQuoting (fun _ ↦ forward_manageQuote now side.value price shouldQuote) symbol)
  allocOrderId _ symbol := allocates_onQuoting (fun _ ↦ forward_allocOrderId) symbol
  newOrder _ := allocates_newOrder
  cooldown _ _ _ _ hx := hx.of_eq rfl rfl rfl
  allocOid _ := allocates_allocOid
  updatePosition _ _ _ _ := fun _ hx ↦ hx.of_eq rfl rfl rfl
  suspend hx := hx.of_eq rfl rfl rfl
  enabled hx := hx.of_eq rfl rfl rfl
  reconnect := by
    refine keeps_dealing (fun _ _ _ hx ↦ hx.of_eq rfl rfl rfl) _ fun x hx ↦ ?_
    rw [after_onClient]
    exact hx.of_eq rfl rfl rfl

/-- **Whatever the strategy does**, its counters stand as after some allocations. -/
theorem exists_sources (events : List Event) (client : OrderEntryClient) (outside : ω)
    (m : OrderBookManager) : ∃ sources : List (Source config),
      ∀ source, nextId (runEvents O events (.init client config outside, m)).1 source =
        source.base + sources.count source := by
  refine (allocates_keptByRuns.run events ⟨hasStates_init client outside, [], fun source ↦ ?_⟩).2
  rw [nextId_init]
  exact (add_zero _).symm

end Source

end HftTrading.Strategy
