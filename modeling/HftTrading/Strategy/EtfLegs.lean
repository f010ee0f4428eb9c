import HftTrading.Book.Emptied
import HftTrading.OrderEntry.Accounts
import HftTrading.OrderEntry.Submitted
import HftTrading.Strategy.Logged
import HftTrading.Strategy.Steps

/-!
# The legs of an arbitrage

The orders of `ETFArbEngine`, one by one. `leg` says of an order which message goes out, if one
does, and how it is answered; buying a basket is a list of them, up to the first that is not
accepted (`legs`, `buys_buyBasket`), and so is selling it again (`closings`, `did_unwind`).

What a method does to the world is read through `Did`: the orders that it has sent, and the requests
that it has made to the ETF service, as they are noted.

## Composing what is done

`Did` composes along a method, and a step that neither sends nor asks is `Silent`: cooling down,
booking a position, reading a price. These are taken care of by their own rules, so that the lemmas
on buying and selling speak of orders only. A leg is looked at from the state in which it is
offered, because whether its order goes out and how it is answered depends on the client as it is by
then.

## Selling again

`unwind` sells each symbol at its best bid, if there is one. Its orders are all closing orders of
one (`Closes`), whatever the state (`closing?_spec`); whether a symbol is sold at all depends on the
state in which its turn comes (`SoldAgain`).
-/

namespace HftTrading.Strategy

open OrderEntry Method OrderStrategy

variable {ω : Type}

/-! ### Orders and requests -/

/-- Between two states these orders have been sent, and these requests made. -/
structure Did (orders : List NewOrder) (requests : Requests) (x y : LoggedState ω) : Prop where
  submitted : y.1.client.submitted = x.1.client.submitted ++ orders
  requests : y.1.outside.2 = x.1.outside.2 ++ requests

section

variable {α β : Type} {orders orders' : List NewOrder} {requests requests' : Requests}
  {x y z : LoggedState ω}

theorem Did.of_eq (hsubmitted : y.1.client.submitted = x.1.client.submitted)
    (hrequests : y.1.outside.2 = x.1.outside.2) : Did [] [] x y :=
  ⟨hsubmitted.trans (List.append_nil _).symm, hrequests.trans (List.append_nil _).symm⟩

theorem Did.refl (x : LoggedState ω) : Did [] [] x x := .of_eq rfl rfl

theorem Did.trans (h : Did orders requests x y) (h' : Did orders' requests' y z) :
    Did (orders ++ orders') (requests ++ requests') x z where
  submitted := by rw [h'.submitted, h.submitted, List.append_assoc]
  requests := by rw [h'.requests, h.requests, List.append_assoc]

/-- A method that sends no order and makes no request. -/
def Silent (m : StrategyM (ω × Requests) α) : Prop := ∀ x, Did [] [] x (m.after x)

theorem Did.silent (h : Did orders requests x y) (h' : Did [] [] y z) :
    Did orders requests x z := by
  have hboth := h.trans h'
  rwa [List.append_nil, List.append_nil] at hboth

/-- Nothing is sent behind a call. -/
theorem Did.bind {m : StrategyM (ω × Requests) α} {f : α → StrategyM (ω × Requests) β}
    (h : Did orders requests x (m.after x)) (hf : ∀ a, Silent (f a)) :
    Did orders requests x ((m >>= f).after x) := by
  rcases hrun : m x with ⟨a, y⟩ | ⟨e, y⟩
  · rw [after_ok hrun] at h
    rw [after_bind_of_ok hrun]
    exact h.silent (hf a y)
  · rw [after_error hrun] at h
    rwa [after_error (bind_error hrun)]

theorem silent_pure (a : α) : Silent (pure a : StrategyM (ω × Requests) α) := fun x ↦ .refl x

theorem Silent.bind {m : StrategyM (ω × Requests) α} {f : α → StrategyM (ω × Requests) β}
    (hm : Silent m) (hf : ∀ a, Silent (f a)) : Silent (m >>= f) := fun x ↦ (hm x).bind hf

theorem silent_all {calls : List (StrategyM (ω × Requests) Unit)} (h : ∀ m ∈ calls, Silent m) :
    Silent (Method.all calls) := by
  induction calls with
  | nil => exact silent_pure ()
  | cons m calls ih =>
    exact (h m List.mem_cons_self).bind fun _ ↦ ih fun m' hm' ↦ h m' (List.mem_cons_of_mem _ hm')

end

variable (O : Outside ω)

theorem silent_coolDown (seconds : ℚ) : Silent (ETFArbEngine.coolDown O.logged seconds) :=
  fun _ ↦ .of_eq rfl rfl

/-- Booking a position neither sends nor asks. -/
theorem silent_updatePosition (symbol buyQty sellQty : ℤ) :
    Silent (ETFArbEngine.updatePosition (ω := ω × Requests) symbol buyQty sellQty) :=
  fun _ ↦ .of_eq rfl rfl

theorem silent_updatePositions (syms : List ℤ) (buyQty sellQty : ℤ) :
    Silent (Method.all (syms.map fun sym ↦
      ETFArbEngine.updatePosition (ω := ω × Requests) sym buyQty sellQty)) := by
  refine silent_all fun m hm ↦ ?_
  obtain ⟨sym, -, rfl⟩ := List.mem_map.1 hm
  exact silent_updatePosition sym buyQty sellQty

/-- A best price is always found, if only that there is none. -/
theorem best?_ok (symbol : ℤ) (side : MarketData.Side) (x : OrderStrategy ω × OrderBookManager) :
    ∃ best m, best? symbol side x = .ok best (x.1, m) := by
  rcases hbook : x.2.books.get? symbol with - | book
  · have hnone : x.2.books.contains symbol = false := by rw [Dict.contains, hbook]; rfl
    refine ⟨none, x.2, ?_⟩
    rw [best?, bind_ok (show getManager x = .ok x.2 x from rfl), hnone]
    rfl
  · have hsome : x.2.books.contains symbol = true := by rw [Dict.contains, hbook]; rfl
    obtain ⟨r, hget, -⟩ := OrderBook.getBest_ok side book
    have hbest : onManager (OrderBookManager.onBook symbol (OrderBook.getBest side)) x =
        .ok r (x.1, x.2.setBook symbol (book.clearTop side)) := by
      unfold onManager zoom
      rw [OrderBookManager.onBook_of_book hbook, focus_ok hget]
    refine ⟨some r, x.2.setBook symbol (book.clearTop side), ?_⟩
    rw [best?, bind_ok (show getManager x = .ok x.2 x from rfl), hsome, if_pos rfl, bind_ok hbest]
    rfl

/-! ### One leg -/

/-- How an order is answered: the first response decides. -/
inductive Answer
  | accepted
  | refused
  | raised
  deriving DecidableEq

/-- The answer, by how the call ends. -/
def Answer.of {σ : Type} : EStateM.Result StrategyError σ (List OeResponse) → Answer
  | .ok resp _ => if Quoting.accepted resp then .accepted else .refused
  | .error _ _ => .raised

/-- One order of the engine: the order that goes out, if it does, and how it is answered. -/
structure Leg where
  symbol : ℤ
  order : Option NewOrder
  answer : Answer

/-- The exchange fills it. -/
def Leg.Filled (filled : ℤ → Prop) (l : Leg) : Prop := ∃ m ∈ l.order, filled m.orderId

/-- One order of the engine, under its next id. -/
def offer (symbol : ℤ) (side : Side) (price : ℤ) : StrategyM ω (List OeResponse) := do
  let oid ← ETFArbEngine.allocOid
  immediateOrCancel O oid symbol side.value 1 price

theorem offer_bind {β : Type} (symbol : ℤ) (side : Side) (price : ℤ)
    (f : List OeResponse → StrategyM ω β) :
    (do
      let oid ← ETFArbEngine.allocOid
      let resp ← immediateOrCancel O oid symbol side.value 1 price
      f resp) = offer O symbol side price >>= f := (bind_assoc _ _ _).symm

/-- What becomes of it. -/
def leg (symbol : ℤ) (side : Side) (price : ℤ) (x : OrderStrategy ω × OrderBookManager) : Leg where
  symbol := symbol
  order := x.1.client.goesOut? (O.monotonic x.1.outside).1 x.1.etfArb.nextOid symbol side.value 1
    price OrderFlags.ioc.value
  answer := .of (offer O symbol side price x)

/-- A leg that returns is accepted or refused, by its first response. -/
theorem answer_of_ok {symbol price : ℤ} {side : Side} {x y : OrderStrategy ω × OrderBookManager}
    {resp : List OeResponse} (h : offer O symbol side price x = .ok resp y) :
    (leg O symbol side price x).answer =
      if Quoting.accepted resp then .accepted else .refused := by
  show Answer.of (offer O symbol side price x) = _
  rw [h]
  rfl

theorem answer_of_error {symbol price : ℤ} {side : Side}
    {x y : OrderStrategy ω × OrderBookManager} {e : StrategyError}
    (h : offer O symbol side price x = .error e y) :
    (leg O symbol side price x).answer = .raised := by
  show Answer.of (offer O symbol side price x) = _
  rw [h]
  rfl

/-- The order of a leg is for one of its symbol, on its side, at once or not at all. -/
theorem leg_order {symbol price : ℤ} {side : Side} {x : OrderStrategy ω × OrderBookManager}
    {m : NewOrder} (h : m ∈ (leg O symbol side price x).order) :
    m.symbol = symbol ∧ m.side = side.value ∧ m.quantity = 1 ∧ m.flags = OrderFlags.ioc.value := by
  rw [OrderEntryClient.goesOut?_eq_some h]
  exact ⟨rfl, rfl, rfl, rfl⟩

theorem side_isSome (side : Side) : (Side.ofValue? side.value).isSome := by cases side <;> rfl

/-- **One order** sends itself, if it goes out. -/
theorem did_offer (symbol : ℤ) (side : Side) (price : ℤ) (x : LoggedState ω) :
    Did (leg O.logged symbol side price x).order.toList [] x
      ((offer O.logged symbol side price).after x) := by
  obtain ⟨returned, hafter⟩ := after_dealing (fun _ ↦ .other)
    (onClient (OrderEntryClient.newOrder (O.monotonic x.1.outside.1).1 x.1.etfArb.nextOid symbol
      side.value 1 price OrderFlags.ioc.value))
    ((monotonic O.logged).after (ETFArbEngine.allocOid.after x))
  rw [after_onClient] at hafter
  have hoffer : (offer O.logged symbol side price).after x =
      (dealing (fun _ ↦ .other) (onClient (OrderEntryClient.newOrder (O.monotonic x.1.outside.1).1
        x.1.etfArb.nextOid symbol side.value 1 price OrderFlags.ioc.value))).after
        ((monotonic O.logged).after (ETFArbEngine.allocOid.after x)) := rfl
  rw [hoffer, hafter]
  exact ⟨OrderEntryClient.submitted_newOrder _ _ _ _ _ (side_isSome side) rfl _,
    (List.append_nil _).symm⟩

/-! ### Buying the basket -/

/-- The legs of a basket, up to the first that is not accepted. -/
def legs : List ℤ → OrderStrategy ω × OrderBookManager → List Leg
  | [], _ => []
  | sym :: syms, x =>
    match best? sym .sell x with
    | .ok (some ask) y =>
      if ask.1 ≤ 0 then []
      else leg O sym .buy ask.1 y ::
        if (leg O sym .buy ask.1 y).answer = .accepted then
          legs syms ((offer O sym .buy ask.1).after y)
        else []
    | _ => []

/-- The symbols of the legs that are accepted. -/
def acceptedSymbols (ls : List Leg) : List ℤ :=
  (ls.filter fun l ↦ l.answer = .accepted).map Leg.symbol

/-- The legs go through the symbols in order, and may stop early. -/
theorem symbol_legs (syms : List ℤ) (x : OrderStrategy ω × OrderBookManager) :
    List.Sublist ((legs O syms x).map Leg.symbol) syms := by
  induction syms generalizing x with
  | nil => exact List.Sublist.refl []
  | cons sym syms ih =>
    rw [legs]
    split
    · split
      · exact List.nil_sublist _
      · rw [List.map_cons]
        refine List.Sublist.cons_cons sym ?_
        split
        · exact ih _
        · exact List.nil_sublist _
    · exact List.nil_sublist _

/-- Each order of a basket buys its own symbol. -/
theorem order_legs (syms : List ℤ) (x : OrderStrategy ω × OrderBookManager) :
    ∀ l ∈ legs O syms x, ∀ m ∈ l.order, m.symbol = l.symbol ∧ m.side = Side.buy.value := by
  induction syms generalizing x with
  | nil => exact fun l hl ↦ absurd hl List.not_mem_nil
  | cons sym syms ih =>
    rw [legs]
    split
    · rename_i ask y _
      split
      · exact fun l hl ↦ absurd hl List.not_mem_nil
      · rintro l hl m hm
        rcases List.mem_cons.1 hl with rfl | hl
        · obtain ⟨hsymbol, hside, -⟩ := leg_order O hm
          exact ⟨hsymbol, hside⟩
        · split at hl
          · exact ih _ l hl m hm
          · exact absurd hl List.not_mem_nil
    · exact fun l hl ↦ absurd hl List.not_mem_nil

/-- The legs are sent. One that raises makes the call raise, and otherwise it returns the symbols of
those that were accepted, behind what it was given. -/
def Buys (ls : List Leg) (filled : List ℤ) (m : StrategyM (ω × Requests) (List ℤ))
    (x : LoggedState ω) : Prop :=
  Did (ls.filterMap Leg.order) [] x (m.after x) ∧
    if ∃ l ∈ ls, l.answer = .raised then m.Raises x
    else m x = .ok (filled ++ acceptedSymbols ls) (m.after x)

section

variable {ls : List Leg} {l : Leg} {filled : List ℤ} {m m' : StrategyM (ω × Requests) (List ℤ)}
  {x z : LoggedState ω}

theorem buys_nil (hquiet : Did [] [] x z) (hrun : m x = .ok filled z) : Buys [] filled m x := by
  refine ⟨(after_ok hrun).symm ▸ hquiet, ?_⟩
  rw [if_neg (by rintro ⟨l, hl, -⟩; exact absurd hl List.not_mem_nil), after_ok hrun, hrun,
    acceptedSymbols, List.filter_nil, List.map_nil, List.append_nil]

theorem did_one (hdid : Did l.order.toList [] x z) : Did ([l].filterMap Leg.order) [] x z := by
  rwa [OrderEntryClient.toList_filterMap]

/-- **A leg that is refused** ends the buying, with what is there. -/
theorem buys_refused (hl : l.answer = .refused) (hdid : Did l.order.toList [] x z)
    (hrun : m x = .ok filled z) : Buys [l] filled m x := by
  have hquiet : ¬ ∃ l' ∈ [l], l'.answer = .raised := by
    rintro ⟨l', hmem, hraised⟩
    rw [List.mem_singleton.1 hmem, hl] at hraised
    cases hraised
  have hnone : acceptedSymbols [l] = [] := by
    rw [acceptedSymbols, List.filter_cons_of_neg (by rw [hl]; decide), List.filter_nil,
      List.map_nil]
  refine ⟨(after_ok hrun).symm ▸ did_one hdid, ?_⟩
  rw [if_neg hquiet, hnone, List.append_nil, after_ok hrun, hrun]

/-- **A leg that raises** ends it by the exception. -/
theorem buys_raised {e : StrategyError} (hl : l.answer = .raised)
    (hdid : Did l.order.toList [] x z) (hrun : m x = .error e z) : Buys [l] filled m x := by
  refine ⟨(after_error hrun).symm ▸ did_one hdid, ?_⟩
  rw [if_pos ⟨l, List.mem_singleton_self l, hl⟩]
  exact ⟨e, z, hrun⟩

/-- An accepted leg, and those behind it. -/
theorem Buys.cons (h : Buys ls (filled ++ [l.symbol]) m' z) (hl : l.answer = .accepted)
    (hdid : Did l.order.toList [] x z) (hrun : m x = m' z) : Buys (l :: ls) filled m x := by
  have hraised : (∃ l' ∈ l :: ls, l'.answer = .raised) ↔ ∃ l' ∈ ls, l'.answer = .raised := by
    rw [List.exists_mem_cons_iff, hl]
    exact or_iff_right (by decide)
  have haccepted : filled ++ acceptedSymbols (l :: ls) =
      filled ++ [l.symbol] ++ acceptedSymbols ls := by
    rw [acceptedSymbols, List.filter_cons_of_pos (by rw [hl]; decide), List.map_cons,
      List.append_assoc]
    rfl
  obtain ⟨hsent, hend⟩ := h
  refine ⟨?_, ?_⟩
  -- its own order comes first
  · have hboth := (did_one hdid).trans hsent
    rw [← List.filterMap_append] at hboth
    rwa [after_congr hrun]
  · rw [haccepted, after_congr hrun, hrun]
    by_cases hany : ∃ l' ∈ ls, l'.answer = .raised
    · rw [if_pos (hraised.2 hany)]
      rw [if_pos hany] at hend
      obtain ⟨e, t, herror⟩ := hend
      exact ⟨e, t, hrun.trans herror⟩
    · rw [if_neg fun h ↦ hany (hraised.1 h)]
      rwa [if_neg hany] at hend

end

/-- **Buying a basket** sends its legs. -/
theorem buys_buyBasket (syms filled : List ℤ) (x : LoggedState ω) :
    Buys (legs O.logged syms x) filled (ETFArbEngine.buyBasket O.logged syms filled) x := by
  induction syms generalizing filled x with
  | nil => exact buys_nil (.refl x) rfl
  | cons sym syms ih =>
    obtain ⟨best, m, hbest⟩ := best?_ok sym .sell x
    have hquiet : Did [] [] x (x.1, m) := .of_eq rfl rfl
    rcases best with - | ask
    -- nothing on offer: the loop ends here
    · rw [legs, hbest]
      exact buys_nil hquiet (bind_ok hbest)
    have hrun : ETFArbEngine.buyBasket O.logged (sym :: syms) filled x =
        (if ask.1 ≤ 0 then pure filled
        else offer O.logged sym .buy ask.1 >>= fun resp ↦
          if Quoting.accepted resp then ETFArbEngine.buyBasket O.logged syms (filled ++ [sym])
          else pure filled) (x.1, m) := by
      refine (bind_ok hbest).trans ?_
      rw [← offer_bind]
    rw [legs, hbest]
    dsimp only
    split
    · rename_i hask
      exact buys_nil hquiet (hrun.trans (by rw [if_pos hask]; rfl))
    rename_i hask
    rw [if_neg hask] at hrun
    have hdid := hquiet.trans (did_offer O sym .buy ask.1 (x.1, m))
    -- how the leg is answered decides whether the loop goes on
    rcases hoffer : offer O.logged sym .buy ask.1 (x.1, m) with ⟨resp, z⟩ | ⟨e, z⟩
    · rw [after_ok hoffer] at hdid
      have hanswer := answer_of_ok O.logged hoffer
      rw [bind_ok hoffer] at hrun
      by_cases haccepted : Quoting.accepted resp = true
      · rw [if_pos haccepted] at hanswer hrun
        rw [if_pos hanswer, after_ok hoffer]
        exact (ih (filled ++ [sym]) z).cons hanswer hdid hrun
      · rw [if_neg haccepted] at hanswer hrun
        rw [if_neg (by rw [hanswer]; decide)]
        exact buys_refused hanswer hdid hrun
    · rw [after_error hoffer] at hdid
      have hanswer := answer_of_error O.logged hoffer
      rw [if_neg (by rw [hanswer]; decide)]
      exact buys_raised hanswer hdid (hrun.trans (bind_error hoffer))

/-! ### Selling it again -/

/-- One turn of `_unwind`, for a symbol that has been bought. -/
def unwindOne (sym : ℤ) : StrategyM ω Unit := do
  match ← best? sym .buy with
  | none => pure ()
  | some price =>
    if price.1 ≤ 0 then pure ()
    else do
      let _ ← offer O sym .sell price.1

/-- The order that it sends. -/
def closing? (sym : ℤ) (x : OrderStrategy ω × OrderBookManager) : Option NewOrder :=
  match best? sym .buy x with
  | .ok (some price) y => if price.1 ≤ 0 then none else (leg O sym .sell price.1 y).order
  | _ => none

/-- The orders that `_unwind` sends, up to the first turn that raises. -/
def closings : List ℤ → OrderStrategy ω × OrderBookManager → List NewOrder
  | [], _ => []
  | sym :: syms, x => (closing? O sym x).toList ++
    match unwindOne O sym x with
    | .ok _ y => closings syms y
    | .error _ _ => []

theorem unwind_eq (syms : List ℤ) :
    ETFArbEngine.unwind O syms .sell = Method.all (syms.map (unwindOne O)) := by
  refine congrArg (fun body : ℤ → StrategyM ω Unit ↦ Method.all (syms.map body))
    (funext fun sym ↦ ?_)
  refine congrArg (best? sym .buy >>= ·) (funext fun price ↦ ?_)
  rcases price with - | price
  · rfl
  dsimp only
  rw [← offer_bind]

/-- One symbol sends its closing order, if it has one. -/
theorem did_unwindOne (sym : ℤ) (x : LoggedState ω) :
    Did (closing? O.logged sym x).toList [] x ((unwindOne O.logged sym).after x) := by
  obtain ⟨best, m, hbest⟩ := best?_ok sym .buy x
  have hquiet : Did [] [] x (x.1, m) := .of_eq rfl rfl
  rw [closing?, hbest, unwindOne, after_bind_of_ok hbest]
  rcases best with - | price
  · exact hquiet
  dsimp only
  split
  · exact hquiet
  · exact hquiet.trans ((did_offer O sym .sell price.1 (x.1, m)).bind fun _ ↦ silent_pure _)

/-- **`_unwind`** sends its orders. -/
theorem did_unwind (syms : List ℤ) (x : LoggedState ω) :
    Did (closings O.logged syms x) [] x ((ETFArbEngine.unwind O.logged syms .sell).after x) := by
  rw [unwind_eq]
  induction syms generalizing x with
  | nil => exact .refl x
  | cons sym syms ih =>
    have hone := did_unwindOne O sym x
    rw [closings]
    show Did _ [] x ((unwindOne O.logged sym >>= fun _ ↦
      Method.all (syms.map (unwindOne O.logged))).after x)
    rcases hrun : unwindOne O.logged sym x with ⟨_, y⟩ | ⟨e, y⟩
    · rw [after_ok hrun] at hone
      rw [after_bind_of_ok hrun]
      exact hone.trans (ih y)
    · rw [after_error hrun] at hone
      rw [after_error (bind_error hrun), List.append_nil]
      exact hone

/-- An order of quantity 1 that is filled at once or not at all, and sells. -/
structure Closes (m : NewOrder) : Prop where
  side : m.side = Side.sell.value
  quantity : m.quantity = 1
  flags : m.flags = OrderFlags.ioc.value

/-- A closing order is of its own symbol, and closes. -/
theorem closing?_spec {sym : ℤ} {x : OrderStrategy ω × OrderBookManager} {m : NewOrder}
    (h : closing? O sym x = some m) : m.symbol = sym ∧ Closes m := by
  unfold closing? at h
  split at h
  · split at h
    · cases h
    · obtain ⟨hsymbol, hside, hquantity, hflags⟩ := leg_order O h
      exact ⟨hsymbol, hside, hquantity, hflags⟩
  · cases h

theorem closes_closings (syms : List ℤ) (x : OrderStrategy ω × OrderBookManager) :
    ∀ m ∈ closings O syms x, Closes m := by
  induction syms generalizing x with
  | nil => exact fun m hm ↦ absurd hm List.not_mem_nil
  | cons sym syms ih =>
    intro m hm
    rw [closings] at hm
    rcases List.mem_append.1 hm with hone | hrest
    · exact (closing?_spec O (Option.mem_toList.1 hone)).2
    · split at hrest
      · exact ih _ m hrest
      · exact absurd hrest List.not_mem_nil

/-- At most one order for each symbol. -/
theorem symbol_closings (syms : List ℤ) (x : OrderStrategy ω × OrderBookManager) :
    List.Sublist ((closings O syms x).map NewOrder.symbol) syms := by
  induction syms generalizing x with
  | nil => exact List.Sublist.refl []
  | cons sym syms ih =>
    have hrest : List.Sublist ((match unwindOne O sym x with
        | .ok _ y => closings O syms y
        | .error _ _ => []).map NewOrder.symbol) syms := by
      split
      · exact ih _
      · exact List.nil_sublist _
    rw [closings, List.map_append]
    rcases hone : closing? O sym x with - | m
    · exact hrest.cons sym
    · rw [Option.toList_some, List.map_singleton, (closing?_spec O hone).1]
      exact hrest.cons_cons sym

/-- The order that sells a symbol again goes out: no turn before its own raises, and there is a bid
and an order that the client lets out. -/
def SoldAgain (sym : ℤ) (syms : List ℤ) (x : OrderStrategy ω × OrderBookManager) : Prop :=
  ∃ pre post y, syms = pre ++ sym :: post ∧ Method.all (pre.map (unwindOne O)) x = .ok () y ∧
    (closing? O sym y).isSome

/-- A symbol is sold again if there is a best price when its turn comes. -/
theorem exists_closing_iff (sym : ℤ) (syms : List ℤ) (x : OrderStrategy ω × OrderBookManager) :
    (∃ m ∈ closings O syms x, m.symbol = sym) ↔ SoldAgain O sym syms x := by
  induction syms generalizing x with
  | nil =>
    refine iff_of_false ?_ ?_
    · rintro ⟨m, hm, -⟩
      exact absurd hm List.not_mem_nil
    · rintro ⟨pre, post, y, hsyms, -⟩
      exact absurd hsyms.symm (List.append_ne_nil_of_right_ne_nil _ (List.cons_ne_nil _ _))
  | cons sym' syms ih =>
    rw [closings]
    constructor
    -- an order is the first turn's, or one of those after it, which have then been reached
    · rintro ⟨m, hm, hsymbol⟩
      rcases List.mem_append.1 hm with hone | hrest
      · have hone' := Option.mem_toList.1 hone
        have hsame : sym' = sym := (closing?_spec O hone').1.symm.trans hsymbol
        exact ⟨[], syms, x, congrArg (· :: syms) hsame, rfl, hsame ▸ Option.isSome_of_mem hone'⟩
      · split at hrest
        · rename_i y hrun
          obtain ⟨pre, post, z, rfl, hpre, hsome⟩ := (ih y).1 ⟨m, hrest, hsymbol⟩
          exact ⟨sym' :: pre, post, z, rfl, (bind_ok hrun).trans hpre, hsome⟩
        · exact absurd hrest List.not_mem_nil
    · rintro ⟨pre, post, z, hsyms, hpre, hsome⟩
      rcases pre with - | ⟨first, pre⟩
      · cases hsyms
        cases hpre
        obtain ⟨m, hm⟩ := Option.isSome_iff_exists.1 hsome
        exact ⟨m, List.mem_append_left _ (Option.mem_toList.2 hm), (closing?_spec O hm).1⟩
      · cases hsyms
        obtain ⟨_, y, hrun, hpre'⟩ := bind_eq_ok_iff.1 hpre
        rw [hrun]
        obtain ⟨m, hm, hsymbol⟩ := (ih y).2 ⟨pre, post, z, rfl, hpre', hsome⟩
        exact ⟨m, List.mem_append_right _ hm, hsymbol⟩

/-- A method that makes no request, and whose orders all sell. -/
def SellsOnly {α : Type} (m : StrategyM (ω × Requests) α) : Prop :=
  ∀ x, ∃ orders, (∀ o ∈ orders, Closes o) ∧ Did orders [] x (m.after x)

section

variable {α β : Type} {m : StrategyM (ω × Requests) α} {f : α → StrategyM (ω × Requests) β}

theorem Silent.sellsOnly (h : Silent m) : SellsOnly m := fun x ↦
  ⟨[], fun _ ho ↦ absurd ho List.not_mem_nil, h x⟩

/-- One step that sells only after another. -/
theorem SellsOnly.bind (hm : SellsOnly m) (hf : ∀ a, SellsOnly (f a)) : SellsOnly (m >>= f) := by
  intro x
  obtain ⟨orders, hsell, hdid⟩ := hm x
  rcases hrun : m x with ⟨a, y⟩ | ⟨e, y⟩
  · obtain ⟨orders', hsell', hdid'⟩ := hf a y
    rw [after_ok hrun] at hdid
    rw [after_bind_of_ok hrun]
    refine ⟨orders ++ orders', fun o ho ↦ ?_, hdid.trans hdid'⟩
    exact (List.mem_append.1 ho).elim (hsell o) (hsell' o)
  · rw [after_error hrun] at hdid
    rw [after_error (bind_error hrun)]
    exact ⟨orders, hsell, hdid⟩

theorem sellsOnly_offer (symbol price : ℤ) : SellsOnly (offer O.logged symbol .sell price) := by
  refine fun x ↦ ⟨_, fun o ho ↦ ?_, did_offer O symbol .sell price x⟩
  obtain ⟨-, hside, hquantity, hflags⟩ := leg_order O.logged (Option.mem_toList.1 ho)
  exact ⟨hside, hquantity, hflags⟩

theorem sellsOnly_sellBasket (syms : List ℤ) :
    SellsOnly (ETFArbEngine.sellBasket O.logged syms) := by
  rw [sellBasket_eq]
  exact fun x ↦ ⟨_, closes_closings O.logged syms x, did_unwind O syms x⟩

end

end HftTrading.Strategy
