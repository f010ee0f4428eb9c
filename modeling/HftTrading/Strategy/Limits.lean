import HftTrading.OrderEntry.Sizes
import HftTrading.Strategy.Tracked

/-!
# The limits, whatever the strategy does

The client checks the limits where an order is placed, and not where one is modified, so they hold
for a caller that modifies orders in price only. The strategy is such a caller as long as the order
that it takes for a quote is the one that it placed: a quote is moved with the quantity that all
quotes have, on its own side. What could come between is an order of another size under the same id,
which takes a counter that has reached into the ids of another (`Source`).

So **the limits hold at every point of every run** in which fills fit their orders, the ids stay
apart, and the ETF service moves nothing: what it moves is booked without any check
(`withinLimits_runEvents`).

## Whose ids are whose

Every id comes from one of a few counters: the quotes of each symbol, `go_flat`, the arbitrages.
Each counter has a base and, in a run, a place that it has got to. As long as the ranges between do
not overlap, an id that is drawn is no quote's. So whatever is open under the id of a quote is of
the quotes' quantity and on the quote's side, which is what the invariant says, of one symbol
(`Ranged`) and of all of them (`Limited`), and what a modify relies on. Other orders may be of any
size, as they are never modified.
-/

namespace HftTrading.Strategy

open OrderEntry Method OrderStrategy OrderEntryClient

/-! ### Quoting one symbol -/

theorem SymbolState.nextOrderId_track (side : ℤ) (orderId : Option ℤ) (price : ℤ)
    (state : SymbolState) : (state.track side orderId price).nextOrderId = state.nextOrderId := by
  unfold track
  split
  · rfl
  · rfl

/-- A value says which side it is. -/
theorem side_eq_of_iff {side side' : Side}
    (h : side'.value = Side.buy.value ↔ side.value = Side.buy.value) : side' = side := by
  revert h
  cases side <;> cases side' <;> decide

namespace Quoting

/-- The orders that are quotes of the symbol, and some more, with side and quantity. -/
def Quoted (others : ℤ → ℤ → Prop) (q : Quoting) (orderId side quantity : ℤ) : Prop :=
  quantity = q.config.orderQty ∧
    (others orderId side ∨ ∃ side' : Side, side = side'.value ∧
      (q.state.quote side'.value).1 = some orderId)

/-- The quotes are within the limit and have ids that this symbol's counter has been past, whose
range is `first` up to `last`. -/
structure Within (limit first : ℤ) (others : ℤ → ℤ → Prop) (q : Quoting) : Prop where
  within : OrderEntryClient.Within limit (q.Quoted others) q.client
  first_le : first ≤ q.state.nextOrderId
  own : ∀ {side : Side} {orderId}, (q.state.quote side.value).1 = some orderId →
    first ≤ orderId ∧ orderId < q.state.nextOrderId

/-- So it is, unless the counter has left its range. -/
def Ranged (limit first last qty : ℤ) (others : ℤ → ℤ → Prop) (q : Quoting) : Prop :=
  q.config.orderQty = qty ∧ (q.state.nextOrderId ≤ last → q.Within limit first others)

section

variable {limit first last qty : ℤ} {others : ℤ → ℤ → Prop} {q : Quoting} {side : Side}
  {c : OrderEntryClient}

/-- A call on the client that keeps the quotes within the limit. -/
theorem Ranged.setClient (h : q.Ranged limit first last qty others)
    (hc : q.state.nextOrderId ≤ last → OrderEntryClient.Within limit (q.Quoted others) c) :
    (q.setClient c).Ranged limit first last qty others :=
  ⟨h.1, fun hle ↦ ⟨hc hle, (h.2 hle).first_le, (h.2 hle).own⟩⟩

/-- What is tracked becomes nothing, or an order that the client has just as it should be. -/
theorem Ranged.track {orderId : Option ℤ} (h : q.Ranged limit first last qty others)
    (hid : ∀ id, orderId = some id → q.state.nextOrderId ≤ last →
      first ≤ id ∧ id < q.state.nextOrderId ∧
        OrderEntryClient.Within limit (Plus (q.Quoted others) id side.value q.config.orderQty)
          q.client) (price : ℤ) :
    (q.track side.value orderId price).Ranged limit first last qty others := by
  have hnext := SymbolState.nextOrderId_track side.value orderId price q.state
  have hcases : ∀ {side' : Side} {id : ℤ},
      ((q.state.track side.value orderId price).quote side'.value).1 = some id →
        (side' = side ∧ orderId = some id) ∨ (q.state.quote side'.value).1 = some id := by
    intro side' id hquote
    rw [SymbolState.quote_track] at hquote
    split at hquote
    · rename_i hiff
      exact Or.inl ⟨side_eq_of_iff hiff, hquote⟩
    · exact Or.inr hquote
  refine ⟨h.1, fun hle ↦ ?_⟩
  replace hle : (q.state.track side.value orderId price).nextOrderId ≤ last := hle
  rw [hnext] at hle
  refine ⟨?_, ?_, fun {side' id} hquote ↦ ?_⟩
  · refine ⟨(h.2 hle).within.kept, (h.2 hle).within.waiting, ?_⟩
    rintro id side' quantity ⟨hquantity, hothers | ⟨side'', rfl, hquote⟩⟩
    · exact (h.2 hle).within.sized id side' quantity ⟨hquantity, Or.inl hothers⟩
    rcases hcases hquote with ⟨rfl, hnew⟩ | hold
    · exact (hid id hnew hle).2.2.sized id _ quantity (Or.inr ⟨rfl, rfl, hquantity⟩)
    · exact (h.2 hle).within.sized id _ quantity ⟨hquantity, Or.inr ⟨side'', rfl, hold⟩⟩
  · show first ≤ (q.state.track side.value orderId price).nextOrderId
    rw [hnext]
    exact (h.2 hle).first_le
  · show first ≤ id ∧ id < (q.state.track side.value orderId price).nextOrderId
    rw [hnext]
    rcases hcases hquote with ⟨-, hnew⟩ | hold
    · exact ⟨(hid id hnew hle).1, (hid id hnew hle).2.1⟩
    · exact (h.2 hle).own hold

theorem Ranged.untrack (h : q.Ranged limit first last qty others) :
    (q.track side.value none 0).Ranged limit first last qty others :=
  h.track (fun _ hid ↦ by cases hid) 0

theorem ranged_cancelQuote :
    Keeps (Ranged limit first last qty others) (cancelQuote side.value) := by
  intro q hq
  unfold after cancelQuote
  rw [bind_ok (get_apply q)]
  rcases hoid : (q.state.quote side.value).1 with - | oid
  · exact hq
  have hdelete := fun h ↦ keeps_within_deleteOrder oid q.client (hq.2 h).within
  dsimp only
  rcases hrun : deleteOrder oid q.client with ⟨responses, c⟩ | ⟨e, c⟩
  · rw [bind_ok (onClient_ok hrun)]
    rw [after_ok hrun] at hdelete
    exact (hq.setClient hdelete).untrack
  · rw [bind_error (onClient_error hrun)]
    rw [after_error hrun] at hdelete
    exact hq.setClient hdelete

/-- **A quote is moved** with the side and the quantity that it has. -/
theorem ranged_modifyQuote (newPrice : ℤ) :
    Keeps (Ranged limit first last qty others) (modifyQuote side.value newPrice) := by
  intro q hq
  unfold after modifyQuote
  rw [bind_ok (get_apply q)]
  by_cases htick : newPrice % q.state.tick ≠ 0
  · rw [if_pos htick]
    exact hq
  rw [if_neg htick]
  rcases hoid : (q.state.quote side.value).1 with - | oid
  · exact hq
  dsimp only
  have hquoted : q.Quoted others oid side.value q.config.orderQty :=
    ⟨rfl, Or.inr ⟨side, rfl, hoid⟩⟩
  have hmodify := fun h ↦ keeps_within_modifyOrder hquoted newPrice q.client
    (hq.2 h).within
  rcases hrun : modifyOrder oid side.value q.config.orderQty newPrice q.client with
    ⟨responses, c⟩ | ⟨e, c⟩
  · rw [bind_ok (onClient_ok hrun)]
    rw [after_ok hrun] at hmodify
    rcases accepted responses with - | -
    · exact (hq.setClient hmodify).untrack
    · refine (hq.setClient hmodify).track (fun id hid hle ↦ ?_) newPrice
      cases hid
      refine ⟨((hq.2 hle).own hoid).1, ((hq.2 hle).own hoid).2, (hmodify hle).kept,
        (hmodify hle).waiting, ?_⟩
      refine (hmodify hle).sized.mono ?_
      rintro id side' quantity (hold | ⟨rfl, rfl, rfl⟩)
      · exact hold
      · exact hquoted
  · rw [bind_error (onClient_error hrun)]
    rw [after_error hrun] at hmodify
    exact hq.setClient hmodify

/-- **A quote is placed** under an id that no quote has. -/
theorem ranged_placeQuote
    (hothers : ∀ orderId side, others orderId side → ¬(first ≤ orderId ∧ orderId < last)) (now : ℚ)
    (price : ℤ) : Keeps (Ranged limit first last qty others) (placeQuote now side.value price) := by
  intro q hq
  -- the next id is free
  have hnew : q.state.nextOrderId + 1 ≤ last →
      ∀ side quantity, ¬ q.Quoted others q.state.nextOrderId side quantity := by
    rintro hle side quantity ⟨-, hother | ⟨side', -, hquote⟩⟩
    · exact hothers _ _ hother ⟨(hq.2 (by omega)).first_le, by omega⟩
    · have hlt := ((hq.2 (by omega)).own hquote).2
      omega
  have hallocated : q.allocated.Ranged limit first last qty others := by
    refine ⟨hq.1, fun hle ↦ ?_⟩
    replace hle : q.state.nextOrderId + 1 ≤ last := hle
    have hwithin := hq.2 (by omega)
    refine ⟨hwithin.within, ?_, fun {side' id} hquote ↦ ?_⟩
    · show first ≤ q.state.nextOrderId + 1
      have := hwithin.first_le
      omega
    · show first ≤ id ∧ id < q.state.nextOrderId + 1
      have := hwithin.own hquote
      omega
  unfold after placeQuote
  rw [bind_ok (show allocOrderId q = .ok q.state.nextOrderId q.allocated from rfl),
    bind_ok (get_apply q.allocated)]
  by_cases htick : price % q.allocated.state.tick ≠ 0
  · rw [if_pos htick]
    exact hallocated
  rw [if_neg htick]
  have horder := fun hle ↦ triple_within_newOrder (hnew hle) now q.allocated.state.symbol side.value
    q.allocated.config.orderQty price OrderFlags.none.value q.allocated.client
    (hallocated.2 hle).within
  rcases hrun : newOrder now q.state.nextOrderId q.allocated.state.symbol side.value
    q.allocated.config.orderQty price OrderFlags.none.value q.allocated.client with
    ⟨responses, c⟩ | ⟨e, c⟩
  · rw [hrun] at horder
    rw [bind_ok (onClient_ok (s := q.allocated) hrun)]
    have hset := hallocated.setClient fun hle ↦ (horder hle).1
    rcases haccepted : accepted responses with - | -
    · exact hset
    · refine hset.track (fun id hid hle ↦ ?_) price
      cases hid
      replace hle : q.state.nextOrderId + 1 ≤ last := hle
      refine ⟨(hq.2 (by omega)).first_le, Int.lt_succ _, ?_⟩
      rcases (horder hle).2 with ⟨r, rfl, hreject⟩ | hown
      · rw [accepted, hreject] at haccepted
        cases haccepted
      · exact hown
  · rw [hrun] at horder
    rw [bind_error (onClient_error (s := q.allocated) hrun)]
    exact hallocated.setClient horder

/-- **`_manage_quote`**. -/
theorem ranged_manageQuote
    (hothers : ∀ orderId side, others orderId side → ¬(first ≤ orderId ∧ orderId < last)) (now : ℚ)
    (targetPrice : ℤ) (shouldQuote : Bool) :
    Keeps (Ranged limit first last qty others)
      (manageQuote now side.value targetPrice shouldQuote) := by
  refine keeps_get.bind fun q ↦ ?_
  dsimp only
  split
  · split
    · exact ranged_cancelQuote
    · exact keeps_pure _
  split
  · exact ranged_placeQuote hothers now targetPrice
  split
  · exact ranged_modifyQuote targetPrice
  · exact keeps_pure _

end

end Quoting

/-! ### The strategy -/

variable {ω : Type} {O : Outside ω} {config : OrderStrategyConfig} {limit : ℤ}

open Source (HasStates nextId nextId_setQuoting)

/-- The quotes of one symbol are replaced. -/
theorem quote_setQuoting (symbol symbol' side : ℤ) (q : Quoting) (s : OrderStrategy ω) :
    (s.setQuoting symbol q).quote symbol' side =
      if symbol' = symbol then q.state.quote side else s.quote symbol' side := by
  show (((s.state.insert symbol q.state).get? symbol').map _).getD _ = _
  rw [Dict.get?_insert]
  split
  · rfl
  · rfl

/-- The orders that are quotes, with side and quantity. -/
def Quotes (qty : ℤ) (s : OrderStrategy ω) (orderId side quantity : ℤ) : Prop :=
  quantity = qty ∧ ∃ (symbol : ℤ) (side' : Side), side = side'.value ∧
    (s.quote symbol side'.value).1 = some orderId

/-- **The quotes are within the limit**, with ids from the counters of their symbols. -/
structure QuotesWithin (limit : ℤ) (config : OrderStrategyConfig) (s : OrderStrategy ω) : Prop where
  config_eq : s.config = config
  within : OrderEntryClient.Within limit (Quotes config.orderQty s) s.client
  base_le : ∀ source : Source config, source.base ≤ nextId s source
  range : ∀ {symbol : ℤ} {side : Side} {orderId}, (s.quote symbol side.value).1 = some orderId →
    ∃ h : symbol ∈ config.symbols,
      orderId ∈ Set.Ico (symbol * 100000) (nextId s (.quotes symbol h : Source config))

/-- So it is, unless a counter has gone too far. -/
def Limited (limit : ℤ) (last : Source config → ℤ) (x : OrderStrategy ω × OrderBookManager) :
    Prop :=
  HasStates config x.1 ∧ ((∀ source, nextId x.1 source ≤ last source) →
    QuotesWithin limit config x.1)

/-- An id is free: no quote has it. -/
def Free (last : Source config → ℤ) (orderId : ℤ) (x : OrderStrategy ω × OrderBookManager) : Prop :=
  (∀ source, nextId x.1 source ≤ last source) → ∀ (symbol : ℤ) (side : Side),
    (x.1.quote symbol side.value).1 ≠ some orderId

section

variable {last : Source config → ℤ} {x x' : OrderStrategy ω × OrderBookManager}

theorem nextId_congr {s s' : OrderStrategy ω} (hstate : s'.state = s.state)
    (hflatten : s'.flattenOidCounter = s.flattenOidCounter)
    (hetf : s'.etfArb.nextOid = s.etfArb.nextOid) (source : Source config) :
    nextId s' source = nextId s source := by
  cases source with
  | quotes symbol h =>
    show ((s'.state.get? symbol).map _).getD 0 = ((s.state.get? symbol).map _).getD 0
    rw [hstate]
  | flatten => exact hflatten
  | etfArb => exact hetf

/-- Neither quotes nor counters change, and the client keeps the limits. -/
theorem Limited.of_client (h : Limited limit last x) (hstate : x'.1.state = x.1.state)
    (hconfig : x'.1.config = x.1.config)
    (hflatten : x'.1.flattenOidCounter = x.1.flattenOidCounter)
    (hetf : x'.1.etfArb.nextOid = x.1.etfArb.nextOid)
    (hclient : (∀ source, nextId x.1 source ≤ last source) →
      OrderEntryClient.Within limit (Quotes config.orderQty x.1) x.1.client →
        OrderEntryClient.Within limit (Quotes config.orderQty x.1) x'.1.client) :
    Limited limit last x' := by
  have hnext (source : Source config) : nextId x'.1 source = nextId x.1 source :=
    nextId_congr hstate hflatten hetf source
  have hquote (symbol side : ℤ) : x'.1.quote symbol side = x.1.quote symbol side := by
    unfold OrderStrategy.quote
    rw [hstate]
  have hquotes : Quotes config.orderQty x'.1 = Quotes config.orderQty x.1 := by
    unfold Quotes
    simp only [hquote]
  refine ⟨?_, fun hlast ↦ ?_⟩
  · unfold HasStates
    rw [hstate]
    exact h.1
  replace hlast : ∀ source, nextId x.1 source ≤ last source :=
    fun source ↦ hnext source ▸ hlast source
  have hbefore := h.2 hlast
  refine ⟨hconfig.trans hbefore.config_eq, ?_, fun source ↦ ?_, fun {symbol side orderId} hid ↦ ?_⟩
  · rw [hquotes]
    exact hclient hlast hbefore.within
  · rw [hnext]
    exact hbefore.base_le source
  · rw [hquote] at hid
    obtain ⟨hmem, hrange⟩ := hbefore.range hid
    refine ⟨hmem, ?_⟩
    rwa [hnext]

/-- Nothing that matters changes. -/
theorem Limited.congr (h : Limited limit last x) (hstate : x'.1.state = x.1.state)
    (hconfig : x'.1.config = x.1.config)
    (hflatten : x'.1.flattenOidCounter = x.1.flattenOidCounter)
    (hetf : x'.1.etfArb.nextOid = x.1.etfArb.nextOid) (hclient : x'.1.client = x.1.client) :
    Limited limit last x' :=
  h.of_client hstate hconfig hflatten hetf fun _ hwithin ↦ hclient ▸ hwithin

/-- A call of the client that keeps it within the limits. -/
theorem limited_onClient {α : Type} {call : ClientM α} (task : OrderStrategy ω → Task)
    (hcall : ∀ W, Keeps (OrderEntryClient.Within limit W) call) :
    Keeps (Limited (ω := ω) limit last) (dealing task (onClient call)) := by
  refine keeps_dealing (fun _ _ _ hx ↦ hx.congr rfl rfl rfl rfl rfl) _ fun x hx ↦ ?_
  rw [after_onClient]
  exact hx.of_client rfl rfl rfl rfl fun _ hwithin ↦ hcall _ _ hwithin

/-- The quotes of the other symbols. -/
def OtherQuotes (symbol : ℤ) (s : OrderStrategy ω) (orderId side : ℤ) : Prop :=
  ∃ (symbol' : ℤ) (side' : Side), symbol' ≠ symbol ∧ side = side'.value ∧
    (s.quote symbol' side'.value).1 = some orderId

section

variable {s : OrderStrategy ω} {symbol : ℤ} {state : SymbolState} {q : Quoting}

theorem nextId_of_get? (h : s.state.get? symbol = some state) (hmem : symbol ∈ config.symbols) :
    nextId s (.quotes symbol hmem : Source config) = state.nextOrderId := by
  show ((s.state.get? symbol).map SymbolState.nextOrderId).getD 0 = _
  rw [h]
  rfl

/-- One symbol, next to the others. -/
theorem QuotesWithin.quoting (h : QuotesWithin limit config s)
    (hstate : s.state.get? symbol = some state) (hmem : symbol ∈ config.symbols) :
    (s.quoting state).Within limit (symbol * 100000) (OtherQuotes symbol s) := by
  have hqty : (s.quoting state).config.orderQty = config.orderQty :=
    congrArg (fun c : OrderStrategyConfig ↦ c.orderQty) h.config_eq
  refine ⟨⟨h.within.kept, h.within.waiting, h.within.sized.mono ?_⟩, ?_,
    fun {side orderId} hid ↦ ?_⟩
  · rintro orderId side quantity ⟨hquantity, ⟨symbol', side', -, rfl, hid⟩ | ⟨side', rfl, hid⟩⟩
    · exact ⟨hquantity.trans hqty, symbol', side', rfl, hid⟩
    · refine ⟨hquantity.trans hqty, symbol, side', rfl, ?_⟩
      rw [quote_of_get? hstate]
      exact hid
  · exact (h.base_le (.quotes symbol hmem)).trans_eq (nextId_of_get? hstate hmem)
  · have htracked : (s.quote symbol side.value).1 = some orderId :=
      (congrArg Prod.fst (quote_of_get? hstate side.value)).trans hid
    obtain ⟨hmem', hrange⟩ := h.range htracked
    rw [nextId_of_get? hstate] at hrange
    exact hrange

/-- And back. -/
theorem QuotesWithin.setQuoting (h : QuotesWithin limit config s) (hmem : symbol ∈ config.symbols)
    (hqty : q.config.orderQty = config.orderQty)
    (hq : q.Within limit (symbol * 100000) (OtherQuotes symbol s)) :
    QuotesWithin limit config (s.setQuoting symbol q) := by
  refine ⟨h.config_eq, ⟨hq.within.kept, hq.within.waiting, hq.within.sized.mono ?_⟩,
    fun source ↦ ?_, fun {symbol' side orderId} hid ↦ ?_⟩
  · rintro orderId side quantity ⟨hquantity, symbol', side', rfl, hid⟩
    rw [quote_setQuoting] at hid
    split at hid
    · exact ⟨hquantity.trans hqty.symm, Or.inr ⟨side', rfl, hid⟩⟩
    · rename_i hne
      exact ⟨hquantity.trans hqty.symm, Or.inl ⟨symbol', side', hne, rfl, hid⟩⟩
  · rw [nextId_setQuoting hmem, Function.update_apply]
    split
    · rename_i heq
      rw [heq]
      exact hq.first_le
    · exact h.base_le source
  · rw [quote_setQuoting] at hid
    split at hid
    · rename_i heq
      subst heq
      refine ⟨hmem, ?_⟩
      rw [nextId_setQuoting hmem, Function.update_self]
      exact hq.own hid
    · rename_i hne
      obtain ⟨hmem', hrange⟩ := h.range hid
      refine ⟨hmem', ?_⟩
      rwa [nextId_setQuoting hmem, Function.update_of_ne fun heq ↦ hne (by injection heq)]

end

/-- **Quoting a symbol** keeps the limits, if it does so next to the quotes of the others. -/
theorem limited_onQuoting {α : Type} {call : Quoting.QuotingM α}
    (hlast : ∀ a b : Source config, a ≠ b →
      Disjoint (Set.Ico a.base (last a)) (Set.Ico b.base (last b)))
    (hforward : ∀ n, Keeps (fun q ↦ n ≤ q.state.nextOrderId) call)
    (hcall : ∀ {first last : ℤ} {others : ℤ → ℤ → Prop},
      (∀ orderId side, others orderId side → ¬(first ≤ orderId ∧ orderId < last)) →
      Keeps (Quoting.Ranged limit first last config.orderQty others) call) (symbol : ℤ) :
    Keeps (Limited (ω := ω) limit last) (onQuoting symbol call) := by
  intro x hx
  rcases after_onQuoting symbol call x with ⟨-, heq⟩ | ⟨state, hstate, heq⟩
  · rw [heq]
    exact hx
  rw [heq]
  have hmem : symbol ∈ config.symbols := (hx.1 symbol).1 ⟨state, hstate⟩
  refine ⟨hx.1.setQuoting hmem _, fun hafter ↦ ?_⟩
  -- the counter of the symbol only goes forward, the others stand still
  have hle := hforward state.nextOrderId (x.1.quoting state) le_rfl
  simp only [nextId_setQuoting hmem, Function.update_apply] at hafter
  have hown := hafter (.quotes symbol hmem)
  rw [if_pos rfl] at hown
  have hbounded : ∀ source, nextId x.1 source ≤ last source := by
    intro source
    by_cases hsource : source = .quotes symbol hmem
    · rw [hsource, nextId_of_get? hstate]
      exact hle.trans hown
    · have hother := hafter source
      rwa [if_neg hsource] at hother
  have hbefore := hx.2 hbounded
  -- and the ids of the others are out of its range
  have hothers : ∀ orderId side, OtherQuotes symbol x.1 orderId side →
      ¬(symbol * 100000 ≤ orderId ∧ orderId < last (.quotes symbol hmem)) := by
    rintro orderId side ⟨symbol', side', hne, -, hid⟩ hrange
    obtain ⟨hmem', hlow, hhigh⟩ := hbefore.range hid
    have hdisjoint := hlast (.quotes symbol' hmem') (.quotes symbol hmem)
      fun heq ↦ hne (by injection heq)
    exact Set.disjoint_left.1 hdisjoint ⟨hlow, hhigh.trans_le (hbounded _)⟩ hrange
  have hranged := hcall hothers (x.1.quoting state)
    ⟨congrArg (fun c : OrderStrategyConfig ↦ c.orderQty) hbefore.config_eq,
      fun _ ↦ hbefore.quoting hstate hmem⟩
  exact hbefore.setQuoting hmem hranged.1 (hranged.2 hown)

/-- What allocating an id leaves alone. -/
theorem alloc_frame (source : Source config) {n : ℤ} (h : source.alloc x = .ok n x') :
    x'.1.client = x.1.client ∧ x'.1.config = x.1.config ∧
      ∀ symbol side, x'.1.quote symbol side = x.1.quote symbol side := by
  cases source with
  | quotes symbol hmem =>
    replace h : onQuoting symbol Quoting.allocOrderId x = .ok n x' := h
    rcases hstate : x.1.state.get? symbol with - | state
    · rw [onQuoting_of_none hstate] at h
      cases h
    · rw [onQuoting_of_some hstate] at h
      cases h
      refine ⟨rfl, rfl, fun symbol' side ↦ ?_⟩
      rw [quote_setQuoting]
      split
      · rename_i heq
        rw [heq, quote_of_get? hstate]
        rfl
      · rfl
  | flatten =>
    cases h
    exact ⟨rfl, rfl, fun _ _ ↦ rfl⟩
  | etfArb =>
    cases h
    exact ⟨rfl, rfl, fun _ _ ↦ rfl⟩

/-- **An allocated id is free.** -/
theorem triple_limited_alloc
    (hlast : ∀ a b : Source config, a ≠ b →
      Disjoint (Set.Ico a.base (last a)) (Set.Ico b.base (last b))) (source : Source config) :
    Triple (Limited (ω := ω) limit last) source.alloc
      (fun orderId x ↦ Limited limit last x ∧ Free last orderId x) (Limited limit last) := by
  intro x hx
  obtain ⟨x', hrun, hstates, hnext⟩ := Source.alloc_ok source hx.1
  obtain ⟨hclient, hconfig, hquote⟩ := alloc_frame source hrun
  rw [hrun]
  have hbounded (h : ∀ source, nextId x'.1 source ≤ last source) :
      ∀ source, nextId x.1 source ≤ last source := by
    intro source'
    have hle := h source'
    rw [hnext, Counters.advance_apply] at hle
    split at hle
    · omega
    · omega
  have hquotes : Quotes config.orderQty x'.1 = Quotes config.orderQty x.1 := by
    unfold Quotes
    simp only [hquote]
  refine ⟨⟨hstates, fun h ↦ ?_⟩, fun h symbol side hid ↦ ?_⟩
  · have hbefore := hx.2 (hbounded h)
    refine ⟨hconfig.trans hbefore.config_eq, ?_, fun source' ↦ ?_, fun hid ↦ ?_⟩
    · rw [hquotes, hclient]
      exact hbefore.within
    · have hle := hbefore.base_le source'
      rw [hnext, Counters.advance_apply]
      split
      · omega
      · omega
    · rw [hquote] at hid
      obtain ⟨hmem, hlow, hhigh⟩ := hbefore.range hid
      refine ⟨hmem, hlow, hhigh.trans_le ?_⟩
      rw [hnext, Counters.advance_apply]
      split
      · omega
      · omega
  · have hbefore := hx.2 (hbounded h)
    rw [hquote] at hid
    obtain ⟨hmem, hlow, hhigh⟩ := hbefore.range hid
    by_cases hsource : source = .quotes symbol hmem
    · rw [hsource] at hhigh
      exact lt_irrefl _ hhigh
    · have hown := h source
      rw [hnext, Counters.advance_apply, if_pos rfl] at hown
      refine Set.disjoint_left.1 (hlast source (.quotes symbol hmem) hsource)
        ⟨hbefore.base_le source, by omega⟩ ⟨hlow, hhigh.trans_le (hbounded h _)⟩

/-- **An order is placed** under a free id. -/
theorem triple_limited_newOrder (orderId symbol side quantity price : ℤ) (flags : OrderFlags) :
    Triple (fun x ↦ Limited limit last x ∧ Free last orderId x)
      (OrderStrategy.newOrder O orderId symbol side quantity price flags)
      (fun _ ↦ Limited limit last) (Limited limit last) := by
  refine triple_iff_after.2 fun x ⟨hx, hfree⟩ ↦ ?_
  have hclock : Limited limit last ((OrderStrategy.monotonic O).after x) :=
    hx.congr rfl rfl rfl rfl rfl
  unfold OrderStrategy.newOrder
  rw [after_bind_of_ok (show OrderStrategy.monotonic O x = .ok _ _ from rfl)]
  obtain ⟨returned, heq⟩ := after_dealing (fun _ ↦ Task.other) (onClient (OrderEntryClient.newOrder
    (O.monotonic x.1.outside).1 orderId symbol side quantity price flags.value))
    ((OrderStrategy.monotonic O).after x)
  refine (congrArg (Limited limit last) heq).mpr ?_
  rw [after_onClient]
  refine hclock.of_client rfl rfl rfl rfl fun hlast hwithin ↦ ?_
  have hnew : ∀ side quantity, ¬ Quotes config.orderQty x.1 orderId side quantity :=
    fun side quantity ⟨_, symbol, side', _, hid⟩ ↦ hfree hlast symbol side' hid
  exact triple_iff_after.1 ((triple_within_newOrder hnew _ symbol side quantity price
    flags.value).weaken (fun _ hc ↦ hc) (fun _ _ hc ↦ hc.1) fun _ hc ↦ hc) _ hwithin

/-- An id that is drawn is in the range of its own counter. -/
theorem triple_limited_allocOrderId
    (hlast : ∀ a b : Source config, a ≠ b →
      Disjoint (Set.Ico a.base (last a)) (Set.Ico b.base (last b))) (symbol : ℤ) :
    Triple (Limited (ω := ω) limit last) (allocOrderId symbol)
      (fun orderId x ↦ Limited limit last x ∧ Free last orderId x) (Limited limit last) := by
  by_cases hmem : symbol ∈ config.symbols
  · exact triple_limited_alloc hlast (.quotes symbol hmem)
  -- no state, no id
  · intro x hx
    have hnone : x.1.state.get? symbol = none := by
      rcases hstate : x.1.state.get? symbol with - | state
      · rfl
      · exact absurd ((hx.1 symbol).1 ⟨state, hstate⟩) hmem
    unfold allocOrderId
    rw [onQuoting_of_none hnone]
    exact hx

/-- **Everything the strategy does** keeps the limits, if the ETF service moves nothing. -/
theorem limited_keptByRunParts (hpost : ∀ call w, (O.post call w).1 ≠ .success)
    (hlast : ∀ a b : Source config, a ≠ b →
      Disjoint (Set.Ico a.base (last a)) (Set.Ico b.base (last b))) :
    KeptByRunParts O (Limited limit last) where
  outside _ hx := hx.congr rfl rfl rfl rfl rfl
  read symbol side := by
    intro x hx
    unfold onManager
    rw [after_zoom]
    exact hx.congr rfl rfl rfl rfl rfl
  cancelActiveSpoofs := keeps_cancelActiveSpoofs (fun _ hx ↦ hx.congr rfl rfl rfl rfl rfl)
    fun orderId ↦ limited_onClient _ fun _ ↦ keeps_within_deleteOrder orderId
  cancelQuote symbol side := keeps_dealing (fun _ _ _ hx ↦ hx.congr rfl rfl rfl rfl rfl) _
    (limited_onQuoting hlast (fun _ ↦ Source.forward_cancelQuote side.value)
      (fun _ ↦ Quoting.ranged_cancelQuote) symbol)
  attempt := keeps_dealing (fun _ _ _ hx ↦ hx.congr rfl rfl rfl rfl rfl) _ (keeps_pure _)
  submitClosing symbol side quantity price := keeps_iff_triple.2 <|
    (triple_limited_alloc hlast .flatten).bind fun orderId ↦
      Triple.tryCatch ((triple_limited_newOrder orderId symbol side quantity price .ioc).bind
        fun _ ↦ triple_pure _ fun _ hx ↦ hx) fun _ ↦ triple_pure _ fun _ hx ↦ hx
  finished hx := hx.congr rfl rfl rfl rfl rfl
  checkActiveSpoofs _ := keeps_checkActiveSpoofs (fun _ hx ↦ hx.congr rfl rfl rfl rfl rfl)
    (fun _ hx ↦ hx.congr rfl rfl rfl rfl rfl) fun orderId ↦ limited_onClient _ fun _ ↦
      keeps_within_deleteOrder orderId
  killed _ _ _ hx := hx.congr rfl rfl rfl rfl rfl
  stopped _ _ _ hx := hx.congr rfl rfl rfl rfl rfl
  maybeSendSpoof _ symbol side bb ba := by
    refine keeps_getStrategy.bind fun s ↦ ?_
    split
    · exact keeps_pure _
    dsimp only
    split
    · exact keeps_pure _
    refine keeps_iff_triple.2 ((triple_limited_allocOrderId hlast symbol).bind fun orderId ↦
      (triple_limited_newOrder orderId symbol side.value _ _ .none).bind fun responses ↦ ?_)
    split
    · exact fun _ hx ↦ hx.congr rfl rfl rfl rfl rfl
    · exact triple_pure _ fun _ hx ↦ hx
  manageQuote _ symbol side targetPrice shouldQuote :=
    Keeps.bind (m := monotonic O) (fun _ hx ↦ hx.congr rfl rfl rfl rfl rfl) fun now ↦
      keeps_dealing (fun _ _ _ hx ↦ hx.congr rfl rfl rfl rfl rfl) _
        (limited_onQuoting hlast
          (fun _ ↦ Source.forward_manageQuote now side.value targetPrice shouldQuote)
          (fun hothers ↦ Quoting.ranged_manageQuote hothers now targetPrice shouldQuote) symbol)
  cooldown _ _ _ _ hx := hx.congr rfl rfl rfl rfl rfl
  offer _ symbol side price := keeps_iff_triple.2 <|
    (triple_limited_alloc hlast .etfArb).bind fun orderId ↦
      triple_limited_newOrder orderId symbol side.value 1 price .ioc
  updatePosition _ := fun ⟨call, w, hsuccess⟩ ↦ absurd hsuccess (hpost call w)
  suspend hx := hx.congr rfl rfl rfl rfl rfl
  enabled hx := hx.congr rfl rfl rfl rfl rfl
  reconnect := limited_onClient _ fun _ ↦ keeps_within_reconnect

/-- A strategy on a client that is within its limits. -/
theorem limited_init {client : OrderEntryClient} (hkept : client.Kept limit)
    (hwaiting : client.record.batches = []) (outside : ω) (m : OrderBookManager) :
    Limited limit last (.init client config outside, m) := by
  have hquote (symbol : ℤ) (side : Side) :
      ((OrderStrategy.init client config outside).quote symbol side.value).1 = none := by
    unfold OrderStrategy.quote
    rw [Source.get?_init]
    split
    · cases side <;> rfl
    · rfl
  refine ⟨Source.hasStates_init client outside, fun _ ↦ ⟨rfl, ⟨hkept, hwaiting, ?_⟩,
    fun source ↦ ?_, fun {symbol side orderId} hid ↦ ?_⟩⟩
  · rintro orderId side quantity ⟨-, symbol, side', -, hid⟩
    rw [hquote] at hid
    cases hid
  · rw [Source.nextId_init]
  · rw [hquote] at hid
    cases hid

end

/-- As long as no counter has handed out more than a hundred thousand ids, their ranges do not
meet: no symbol has a base of `go_flat` or of the ETF engine. -/
theorem disjoint_of_le {s : OrderStrategy ω} (hetf : 50 ∉ config.symbols)
    (hflatten : 150 ∉ config.symbols)
    (hle : ∀ source : Source config, nextId s source ≤ source.base + 100000)
    (a b : Source config) (hne : a ≠ b) :
    Disjoint (Set.Ico a.base (nextId s a)) (Set.Ico b.base (nextId s b)) := by
  -- the bases are different multiples of a hundred thousand
  have hbase (source : Source config) : ∃ k, source.base = k * 100000 := by
    cases source with
    | quotes symbol h => exact ⟨symbol, rfl⟩
    | flatten => exact ⟨150, rfl⟩
    | etfArb => exact ⟨50, rfl⟩
  have hbases : a.base ≠ b.base := by
    intro heq
    rcases a with ⟨symbol, h⟩ | - | - <;> rcases b with ⟨symbol', h'⟩ | - | -
    · obtain rfl : symbol = symbol' := mul_right_cancel₀ (by decide) heq
      exact hne rfl
    · exact hflatten ((show symbol = 150 from mul_right_cancel₀ (by decide) heq) ▸ h)
    · exact hetf ((show symbol = 50 from mul_right_cancel₀ (by decide) heq) ▸ h)
    · exact hflatten ((show symbol' = 150 from mul_right_cancel₀ (by decide) heq.symm) ▸ h')
    · exact hne rfl
    · exact absurd (show (15000000 : ℤ) = 5000000 from heq) (by decide)
    · exact hetf ((show symbol' = 50 from mul_right_cancel₀ (by decide) heq.symm) ▸ h')
    · exact absurd (show (5000000 : ℤ) = 15000000 from heq) (by decide)
    · exact hne rfl
  obtain ⟨k, hk⟩ := hbase a
  obtain ⟨l, hl⟩ := hbase b
  have ha := hle a
  have hb := hle b
  rw [Set.Ico_disjoint_Ico]
  omega

/-- **The limits hold at every point of every run** of the strategy: whatever the market does and
whatever is received, whichever quotes are placed, moved and withdrawn, spoofs sent, positions
closed and connections lost, as long as fills fit their orders, the ranges of ids that have been
used do not meet, and the ETF service never answers that it has moved anything. -/
theorem withinLimits_runEvents (username password : List UInt8)
    (clientId pnlFloor positionCap : ℤ) (socket : Option Socket)
    (network : List (Option (List Arrival))) (calls : List Call)
    (hcalls : ∀ call ∈ calls, call.modifies = false) (outside : ω) (m : OrderBookManager)
    (hpost : ∀ call w, (O.post call w).1 ≠ .success) (events : List Event) :
    let s := (runEvents O events (.init (runCalls calls
      (init username password clientId pnlFloor positionCap socket network)) config outside, m)).1
    (∀ a b : Source config, a ≠ b →
      Disjoint (Set.Ico a.base (nextId s a)) (Set.Ico b.base (nextId s b))) →
    (∀ p ∈ s.client.record.trace, p.note.Fits) →
    (∀ p ∈ s.client.record.trace,
        WithinLimits s.client.riskTracker p.openOrders p.positionTracker) ∧
      WithinLimits s.client.riskTracker s.client.openOrders s.client.positionTracker := by
  intro s hlast hfits
  have hran : Ran False True _ [] (runCalls calls
      (init username password clientId pnlFloor positionCap socket network)) := ran_runCalls
    (fun call hcall htrue ↦ absurd (hcalls call hcall) (by rw [htrue]; decide))
    (fun _ _ _ ↦ trivial) rfl
  have hlimited : Limited RiskTracker.init.maxExposure (nextId s) (s, _) :=
    (limited_keptByRunParts hpost hlast).run (fun _ hx ↦ hx.congr rfl rfl rfl rfl rfl) events
      (limited_init (hran.steps.kept (kept_init ..)) hran.batches_eq outside m)
  exact (hlimited.2 fun _ ↦ le_rfl).within.kept.withinLimits hfits

/-- Signals that ask for these bids, one after another, and for no ask. -/
def movingBid : Outside (List ℤ) where
  monotonic w := (0, w)
  attempts _ := 1
  signals _ _ _ _ _ w := (some ⟨w.headD 100, 115, w.headD 100, 115, false, true⟩, w.tail)
  onRawMessage _ _ _ w := w
  onTradeSummary _ _ w := w
  post _ w := (.failed, w)

/-- A bid for two of symbol 5 is placed at 95 and moved to 85, and one of them is bought then. -/
def movedBid : OrderStrategy (List ℤ) × OrderBookManager :=
  runEvents movingBid [.marketDataUpdate, .marketDataUpdate]
    (.init (runCalls [] (init [] [] 7 (-20000) 10 (some (.connected
      (Arrival.burst [.ack ⟨⟨40, 101, 1, 1, 1, 7⟩, 500000, 901, 2, 95⟩] ++ [.pause] ++
        Arrival.burst [.ack ⟨⟨40, 101, 1, 2, 2, 7⟩, 500000, 901, 2, 85⟩,
          .fill ⟨⟨33, 103, 1, 3, 2, 7⟩, 500000, 1, 85, 1⟩] ++ [.pause]))) []))
      { symbols := [5], etfArbEnabled := false, spoofEnabled := false } [100, 90],
    (OrderBookManager.processNewOrder 2 2 2 5 .sell 10 110 0).after
      ((OrderBookManager.processNewOrder 1 1 1 5 .buy 10 100 0).after .init))

/-- A bid that is moved and filled: the limits hold throughout. -/
theorem withinLimits_runEvents_movedBid :
    movedBid.1.quote 5 Side.buy.value = (some 500000, 85) ∧
      movedBid.1.client.positionTracker.getPosition 5 = 1 ∧
      ((∀ p ∈ movedBid.1.client.record.trace,
          WithinLimits movedBid.1.client.riskTracker p.openOrders p.positionTracker) ∧
        WithinLimits movedBid.1.client.riskTracker movedBid.1.client.openOrders
          movedBid.1.client.positionTracker) := by
  refine ⟨by decide +kernel, by decide +kernel, ?_⟩
  have hle : ∀ source : Source { symbols := [5], etfArbEnabled := false, spoofEnabled := false },
      nextId movedBid.1 source ≤ source.base + 100000 := by
    rintro (⟨symbol, h⟩ | - | -)
    · obtain rfl := List.mem_singleton.1 h
      show ((movedBid.1.state.get? 5).map SymbolState.nextOrderId).getD 0 ≤ 5 * 100000 + 100000
      decide +kernel
    · decide +kernel
    · decide +kernel
  have hfits : ∀ p ∈ movedBid.1.client.record.trace, p.note.Fits := by decide +kernel
  have hlast := disjoint_of_le (by decide) (by decide) hle
  unfold movedBid at hfits hlast ⊢
  exact withinLimits_runEvents [] [] 7 (-20000) 10 _ [] [] (by decide) _ _
    (fun _ _ h ↦ by cases h) _ hlast hfits

end HftTrading.Strategy
