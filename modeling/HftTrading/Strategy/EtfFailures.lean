import HftTrading.OrderEntry.Accounts
import HftTrading.Strategy.EtfLegs

/-!
# Arbitrages that fail

A basket is bought leg by leg, and what has been bought is sold again when the rest of it, or the
ETF service, fails. `_execute_create_arb` goes by the first response to each order: a leg that is
acknowledged counts as bought, filled or not, and an exception leaves it without selling anything.
So the basket is all or nothing exactly when the answers agree with what the exchange has filled and
the closing orders go out (`createsOrUnwinds_iff`). `_execute_redeem_arb` sells the ETF in no case:
when the ETF service does not redeem, what has been bought is left (`redeemsOrCloses_iff`).

Which orders the exchange has filled is given (`filled`): its fills need not have been read.

## What a call comes to

The list of legs, each with its order and its answer, decides which way an arbitrage goes: into the
ETF service, back out by selling, or out by an exception. `Ended` says for each of these ways which
orders have been sent and what has been asked of the service. It is stated of the methods with the
requests noted; what the engine itself does is the same without the notes. The two equivalences then
only compare lists of orders with what has been filled of them.
-/

namespace HftTrading.Strategy

open OrderEntry Method OrderStrategy

variable {ω : Type} (O : Outside ω)

/-! ### A basket is all or nothing -/

/-- The orders that sell a symbol. -/
def sells (symbol : ℤ) (orders : List NewOrder) : List NewOrder :=
  orders.filter fun m ↦ m.symbol = symbol ∧ m.side = Side.sell.value

/-- A buy of a symbol has been filled. -/
def Bought (filled : ℤ → Prop) (symbol : ℤ) (orders : List NewOrder) : Prop :=
  ∃ m ∈ orders, m.symbol = symbol ∧ m.side = Side.buy.value ∧ filled m.orderId

/-- **All or nothing**: what has been bought of the basket is sold again, by one order of quantity 1
that is filled at once or not at all, and nothing else is sold. -/
def AllOrNothing (filled : ℤ → Prop) (orders : List NewOrder) : Prop :=
  ∀ symbol,
    (symbol ∈ UNDERLYING_SYMS ∧ Bought filled symbol orders →
      ∃ m, sells symbol orders = [m] ∧ m.quantity = 1 ∧ m.flags = OrderFlags.ioc.value) ∧
    (¬ (symbol ∈ UNDERLYING_SYMS ∧ Bought filled symbol orders) → sells symbol orders = [])

/-- The legs of a basket, and the orders that close some of them. -/
structure Basket (ls : List Leg) (closed : List NewOrder) : Prop where
  legs : List.Sublist (ls.map Leg.symbol) UNDERLYING_SYMS
  orders : ∀ l ∈ ls, ∀ m ∈ l.order, m.symbol = l.symbol ∧ m.side = Side.buy.value
  closes : ∀ m ∈ closed, Closes m
  symbols : List.Sublist (closed.map NewOrder.symbol) (ls.map Leg.symbol)

namespace Basket

variable {filled : ℤ → Prop} {ls : List Leg} {closed : List NewOrder} (h : Basket ls closed)

include h

/-- The legs of a basket are of different symbols. -/
theorem nodup : (ls.map Leg.symbol).Nodup := h.legs.nodup (by decide)

/-- There is one leg for a symbol at the most. -/
theorem eq_of_symbol {l l' : Leg} (hl : l ∈ ls) (hl' : l' ∈ ls) (hsymbol : l.symbol = l'.symbol) :
    l = l' := List.inj_on_of_nodup_map h.nodup hl hl' hsymbol

/-- What is bought is a leg that is filled. -/
theorem bought_iff (symbol : ℤ) : Bought filled symbol (ls.filterMap Leg.order ++ closed) ↔
    ∃ l ∈ ls, l.symbol = symbol ∧ l.Filled filled := by
  constructor
  · rintro ⟨m, hm, hsymbol, hside, hfilled⟩
    rcases List.mem_append.1 hm with hleg | hclose
    · obtain ⟨l, hl, hm⟩ := List.mem_filterMap.1 hleg
      exact ⟨l, hl, (h.orders l hl m hm).1.symm.trans hsymbol, m, hm, hfilled⟩
    · rw [(h.closes m hclose).side] at hside
      cases hside
  · rintro ⟨l, hl, hsymbol, m, hm, hfilled⟩
    obtain ⟨hsame, hside⟩ := h.orders l hl m hm
    exact ⟨m, List.mem_append_left _ (List.mem_filterMap.2 ⟨l, hl, hm⟩), hsame.trans hsymbol,
      hside, hfilled⟩

/-- The legs sell nothing. -/
theorem sells_eq (symbol : ℤ) : sells symbol (ls.filterMap Leg.order ++ closed) =
    closed.filter fun m ↦ m.symbol = symbol := by
  have hnone : (ls.filterMap Leg.order).filter
      (fun m ↦ m.symbol = symbol ∧ m.side = Side.sell.value) = [] := by
    refine List.filter_eq_nil_iff.2 fun m hm hsell ↦ ?_
    obtain ⟨l, hl, hm⟩ := List.mem_filterMap.1 hm
    have hside := (of_decide_eq_true hsell).2
    rw [(h.orders l hl m hm).2] at hside
    cases hside
  rw [sells, List.filter_append, hnone, List.nil_append]
  refine List.filter_congr fun m hm ↦ ?_
  rw [decide_eq_decide]
  exact and_iff_left (h.closes m hm).side

/-- A closing order is the only one for its symbol. -/
theorem filter_symbol {m : NewOrder} (hm : m ∈ closed) :
    (closed.filter fun m' ↦ m'.symbol = m.symbol) = [m] := by
  have hmem : m ∈ closed.filter fun m' ↦ m'.symbol = m.symbol :=
    List.mem_filter.2 ⟨hm, decide_eq_true rfl⟩
  have hmap : (closed.filter fun m' ↦ m'.symbol = m.symbol).map NewOrder.symbol = [m.symbol] := by
    have hcount := List.count_eq_one_of_mem (h.symbols.nodup h.nodup)
      (List.mem_map_of_mem (f := NewOrder.symbol) hm)
    have hfilter := List.filter_eq (l := closed.map NewOrder.symbol) m.symbol
    rw [hcount, List.filter_map] at hfilter
    exact hfilter
  obtain ⟨m', hsingle, -⟩ := List.map_eq_singleton_iff.1 hmap
  rw [hsingle] at hmem ⊢
  rw [List.mem_singleton.1 hmem]

/-- **A basket** is all or nothing when those legs are closed that are filled. -/
theorem allOrNothing_iff : AllOrNothing filled (ls.filterMap Leg.order ++ closed) ↔
    ∀ l ∈ ls, l.Filled filled ↔ ∃ m ∈ closed, m.symbol = l.symbol := by
  constructor
  -- a leg has a symbol of its own, so that what is sold of it is what closes it
  · intro hall l hl
    have hunderlying := h.legs.subset (List.mem_map_of_mem hl)
    obtain ⟨hfilled, hnone⟩ := hall l.symbol
    rw [h.sells_eq] at hfilled hnone
    constructor
    · intro hl'
      obtain ⟨m, hm, -⟩ := hfilled ⟨hunderlying, (h.bought_iff l.symbol).2 ⟨l, hl, rfl, hl'⟩⟩
      have hmem := List.mem_filter.1 (hm ▸ List.mem_singleton_self m)
      exact ⟨m, hmem.1, of_decide_eq_true hmem.2⟩
    · rintro ⟨m, hm, hsymbol⟩
      by_contra hopen
      refine List.filter_eq_nil_iff.1 (hnone ?_) m hm (decide_eq_true hsymbol)
      rintro ⟨-, hbought⟩
      obtain ⟨l', hl', hsame, hfilled'⟩ := (h.bought_iff l.symbol).1 hbought
      rw [h.eq_of_symbol hl' hl hsame] at hfilled'
      exact hopen hfilled'
  · intro hclosed symbol
    rw [h.sells_eq]
    constructor
    · rintro ⟨-, hbought⟩
      obtain ⟨l, hl, rfl, hfilled⟩ := (h.bought_iff symbol).1 hbought
      obtain ⟨m, hm, hsymbol⟩ := (hclosed l hl).1 hfilled
      rw [← hsymbol]
      exact ⟨m, h.filter_symbol hm, (h.closes m hm).quantity, (h.closes m hm).flags⟩
    · intro hopen
      refine List.filter_eq_nil_iff.2 fun m hm hsame ↦ hopen ?_
      have hmem := h.symbols.subset (List.mem_map_of_mem (f := NewOrder.symbol) hm)
      obtain ⟨l, hl, hsymbol⟩ := List.mem_map.1 hmem
      have hl' : l.symbol = symbol := hsymbol.trans (of_decide_eq_true hsame)
      have hfilled := (hclosed l hl).2 ⟨m, hm, hsymbol.symm⟩
      exact ⟨hl' ▸ h.legs.subset (List.mem_map_of_mem hl),
        (h.bought_iff symbol).2 ⟨l, hl, hl', hfilled⟩⟩

end Basket

/-! ### Creating -/

/-- What has been sent and asked since the start. -/
theorem Did.since {orders : List NewOrder} {requests : Requests} {x y : LoggedState ω}
    (h : Did orders requests x y) :
    OrderEntryClient.submittedSince x.1.client y.1.client = orders ∧
      requestsSince x y = requests :=
  ⟨OrderEntryClient.submittedSince_of_append h.submitted, by
    rw [requestsSince, h.requests, List.drop_left]⟩

/-- A request is asked, and nothing is sent. -/
theorem did_post (call : RestCall) (x : LoggedState ω) :
    Did [] [(call, (O.post call x.1.outside.1).1)] x ((post O.logged call).after x) :=
  ⟨(List.append_nil _).symm, rfl⟩

/-- How `_execute_create_arb` goes on behind the buys. -/
inductive Ending (ω : Type)
  /-- The ETF service has created. -/
  | created
  /-- An exception of the order client, or one of the request that is not caught, leaves it. -/
  | raised
  /-- It unwinds what was accepted, from this state on. -/
  | unwound (x : OrderStrategy ω × OrderBookManager)

/-- What the answer of the ETF service makes of it. -/
def served (y : OrderStrategy ω × OrderBookManager) : Ending ω :=
  match (O.post .create y.1.outside).1 with
  | .success => .created
  | .failed | .requestException => .unwound ((post O .create).after y)
  | .otherException => .raised

/-- What the answers to the legs make of it. -/
def ending (x : OrderStrategy ω × OrderBookManager) : Ending ω :=
  if ∃ l ∈ legs O UNDERLYING_SYMS x, l.answer = .raised then .raised
  else if (acceptedSymbols (legs O UNDERLYING_SYMS x)).length = UNDERLYING_SYMS.length then
    served O ((ETFArbEngine.buyBasket O UNDERLYING_SYMS []).after x)
  else .unwound ((ETFArbEngine.buyBasket O UNDERLYING_SYMS []).after x)

/-- What `_execute_create_arb` does, by its ending. -/
def Ended (ls : List Leg) (orders : List NewOrder) (requests : Requests) : Ending ω → Prop
  | .created => (.create, .success) ∈ requests
  | .raised => (.create, .success) ∉ requests ∧ orders = ls.filterMap Leg.order
  | .unwound y => (.create, .success) ∉ requests ∧
      orders = ls.filterMap Leg.order ++ closings O (acceptedSymbols ls) y

/-- **A basket that is bought**: the ETF is created and sold, or the basket is sold again. -/
theorem did_createAndSell (ls : List Leg) (undyBid : ℤ) (y : LoggedState ω) :
    ∃ orders requests, Did orders requests y
        ((ETFArbEngine.createAndSell O.logged (acceptedSymbols ls) undyBid).after y) ∧
      Ended O.logged ls (ls.filterMap Leg.order ++ orders) requests (served O.logged y) := by
  have hpost := did_post O .create y
  have hunwind := did_unwind O (acceptedSymbols ls) ((post O.logged .create).after y)
  have hrun : post O.logged .create y =
      .ok (O.post .create y.1.outside.1).1 ((post O.logged .create).after y) := rfl
  have hserved : served O.logged y = match (O.post .create y.1.outside.1).1 with
      | .success => .created
      | .failed | .requestException => .unwound ((post O.logged .create).after y)
      | .otherException => .raised := rfl
  have hother {reply : RestReply} (hreply : reply ≠ .success) :
      (RestCall.create, RestReply.success) ∉ [(RestCall.create, reply)] := fun hmem ↦
    hreply (congrArg Prod.snd (List.mem_singleton.1 hmem)).symm
  rw [ETFArbEngine.createAndSell, after_bind_of_ok hrun, hserved]
  rcases hreply : (O.post .create y.1.outside.1).1 with - | - | - | - <;> rw [hreply] at hpost
  · have hsell := (silent_updatePositions (ω := ω) UNDERLYING_SYMS 0 1).sellsOnly.bind fun _ ↦
      (silent_updatePosition (ω := ω) ETF_SYM 1 0).sellsOnly.bind fun _ ↦
        (sellsOnly_offer O ETF_SYM undyBid).bind fun _ ↦ (silent_pure ()).sellsOnly
    obtain ⟨orders, -, hdid⟩ := hsell ((post O.logged .create).after y)
    exact ⟨orders, _, hpost.trans hdid, List.mem_singleton_self _⟩
  · exact ⟨_, _, hpost.trans hunwind, hother (by decide), rfl⟩
  · exact ⟨_, _, hpost.trans hunwind, hother (by decide), rfl⟩
  · exact ⟨[], _, hpost, hother (by decide), List.append_nil _⟩

/-- **`_execute_create_arb`**: the orders that it sends, by its ending. -/
theorem did_executeCreateArb (undyBid : ℤ) (x : LoggedState ω) :
    ∃ orders requests, Did orders requests x
        ((ETFArbEngine.executeCreateArb O.logged undyBid).after x) ∧
      Ended O.logged (legs O.logged UNDERLYING_SYMS x) orders requests (ending O.logged x) := by
  obtain ⟨hbuy, hend⟩ := buys_buyBasket O UNDERLYING_SYMS [] x
  rw [List.nil_append] at hend
  rw [ETFArbEngine.executeCreateArb, ending]
  by_cases hraised : ∃ l ∈ legs O.logged UNDERLYING_SYMS x, l.answer = .raised
  -- the exception of a leg leaves the call at once
  · rw [if_pos hraised] at hend ⊢
    obtain ⟨e, y, hrun⟩ := hend
    rw [after_error hrun] at hbuy
    rw [after_error (bind_error hrun)]
    exact ⟨_, _, hbuy, List.not_mem_nil, rfl⟩
  · rw [if_neg hraised] at hend ⊢
    rw [after_bind_of_ok hend]
    dsimp only
    split
    · obtain ⟨orders, requests, hdid, hended⟩ := did_createAndSell O
        (legs O.logged UNDERLYING_SYMS x) undyBid
        ((ETFArbEngine.buyBasket O.logged UNDERLYING_SYMS []).after x)
      exact ⟨_, _, hbuy.trans (hdid.bind fun _ ↦ silent_coolDown O 2), hended⟩
    · have hunwind := did_unwind O (acceptedSymbols (legs O.logged UNDERLYING_SYMS x))
        ((ETFArbEngine.buyBasket O.logged UNDERLYING_SYMS []).after x)
      exact ⟨_, _, hbuy.trans (hunwind.bind fun _ ↦ silent_coolDown O 2), List.not_mem_nil, rfl⟩

/-- **The basket is bought and unwound without a remainder**, unless the ETF service creates. -/
def CreatesOrUnwinds (undyBid : ℤ) (filled : ℤ → Prop) (x : LoggedState ω) : Prop :=
  let y := (ETFArbEngine.executeCreateArb O.logged undyBid).after x
  (.create, .success) ∉ requestsSince x y →
    AllOrNothing filled (OrderEntryClient.submittedSince x.1.client y.1.client)

/-- When it is: an exception leaves the call only while nothing is filled; and when it unwinds, no
leg is filled that was refused, and one that was accepted is filled exactly if its closing order
goes out. -/
def Unwinds (filled : ℤ → Prop) (x : OrderStrategy ω × OrderBookManager) : Prop :=
  match ending O x with
  | .created => True
  | .raised => ∀ l ∈ legs O UNDERLYING_SYMS x, ¬ l.Filled filled
  | .unwound y => ∀ l ∈ legs O UNDERLYING_SYMS x,
      (l.answer = .refused → ¬ l.Filled filled) ∧
        (l.answer = .accepted →
          (l.Filled filled ↔ SoldAgain O l.symbol (acceptedSymbols (legs O UNDERLYING_SYMS x)) y))

/-- A basket is only sold again if no leg has raised. -/
theorem answer_of_unwound {x y : OrderStrategy ω × OrderBookManager}
    (h : ending O x = .unwound y) : ∀ l ∈ legs O UNDERLYING_SYMS x, l.answer ≠ .raised := by
  intro l hl hraised
  rw [ending, if_pos ⟨l, hl, hraised⟩] at h
  cases h

theorem basket_nil (x : OrderStrategy ω × OrderBookManager) :
    Basket (legs O UNDERLYING_SYMS x) [] where
  legs := symbol_legs O UNDERLYING_SYMS x
  orders := order_legs O UNDERLYING_SYMS x
  closes _ hm := absurd hm List.not_mem_nil
  symbols := List.nil_sublist _

theorem basket_closings (x y : OrderStrategy ω × OrderBookManager) :
    Basket (legs O UNDERLYING_SYMS x)
      (closings O (acceptedSymbols (legs O UNDERLYING_SYMS x)) y) where
  legs := symbol_legs O UNDERLYING_SYMS x
  orders := order_legs O UNDERLYING_SYMS x
  closes := closes_closings O _ y
  symbols := (symbol_closings O _ y).trans (List.filter_sublist.map _)

/-- A leg that is refused is not sold again. -/
theorem not_soldAgain_of_refused {x : OrderStrategy ω × OrderBookManager} {l : Leg}
    (hl : l ∈ legs O UNDERLYING_SYMS x) (hrefused : l.answer = .refused)
    (y : OrderStrategy ω × OrderBookManager) :
    ¬ SoldAgain O l.symbol (acceptedSymbols (legs O UNDERLYING_SYMS x)) y := by
  rintro ⟨pre, post, z, hsyms, -⟩
  have hmem : l.symbol ∈ acceptedSymbols (legs O UNDERLYING_SYMS x) := by
    rw [hsyms]
    exact List.mem_append_right _ List.mem_cons_self
  obtain ⟨l', hl', hsame⟩ := List.mem_map.1 hmem
  obtain ⟨hmem', haccepted⟩ := List.mem_filter.1 hl'
  obtain rfl := (basket_nil O x).eq_of_symbol hmem' hl hsame
  rw [hrefused] at haccepted
  exact absurd haccepted (by decide)

/-- **Creating is all or nothing** exactly when the legs are answered, and the closing orders let
out, so that what is filled is what is unwound. -/
theorem createsOrUnwinds_iff (undyBid : ℤ) (filled : ℤ → Prop) (x : LoggedState ω) :
    CreatesOrUnwinds O undyBid filled x ↔ Unwinds O.logged filled x := by
  obtain ⟨orders, requests, hdid, hended⟩ := did_executeCreateArb O undyBid x
  obtain ⟨hsubmitted, hrequests⟩ := hdid.since
  unfold CreatesOrUnwinds Unwinds
  dsimp only
  rw [hsubmitted, hrequests]
  rcases hending : ending O.logged x with - | - | y <;> rw [hending] at hended
  · exact iff_of_true (fun hfailed ↦ absurd hended hfailed) trivial
  -- nothing is sold behind the legs
  · obtain ⟨hfailed, rfl⟩ := hended
    have hiff : AllOrNothing filled
        ((legs O.logged UNDERLYING_SYMS x).filterMap Leg.order ++ []) ↔ _ :=
      (basket_nil O.logged x).allOrNothing_iff
    rw [List.append_nil] at hiff
    rw [imp_iff_right hfailed, hiff]
    refine forall₂_congr fun l _ ↦ iff_false_right ?_
    rintro ⟨m, hm, -⟩
    exact absurd hm List.not_mem_nil
  · obtain ⟨hfailed, rfl⟩ := hended
    rw [imp_iff_right hfailed, (basket_closings O.logged x y).allOrNothing_iff]
    refine forall₂_congr fun l hl ↦ ?_
    rw [exists_closing_iff]
    have hraised := answer_of_unwound O.logged hending l hl
    -- the legs have all been answered, or this ending would not have been reached
    rcases hanswer : l.answer with - | - | -
    · exact ⟨fun h ↦ ⟨nofun, fun _ ↦ h⟩, fun h ↦ h.2 rfl⟩
    · rw [iff_false_right (not_soldAgain_of_refused O.logged hl hanswer y)]
      exact ⟨fun h ↦ ⟨fun _ ↦ h, nofun⟩, fun h ↦ h.1 rfl⟩
    · exact absurd hanswer hraised

/-! ### Redeeming -/

/-- **The ETF that is bought**: it is redeemed and the basket sold, or nothing follows. -/
theorem did_redeemAndSell (x : LoggedState ω) : ∃ sold, (∀ m ∈ sold, Closes m) ∧
    Did sold [(.redeem, (O.post .redeem x.1.outside.1).1)] x
      ((ETFArbEngine.redeemAndSell O.logged).after x) ∧
      ((O.post .redeem x.1.outside.1).1 ≠ .success → sold = []) := by
  have hnone : ∀ m ∈ ([] : List NewOrder), Closes m := fun m hm ↦ absurd hm List.not_mem_nil
  have hpost := did_post O .redeem x
  have hrun : post O.logged .redeem x =
      .ok (O.post .redeem x.1.outside.1).1 ((post O.logged .redeem).after x) := rfl
  rw [ETFArbEngine.redeemAndSell, after_bind_of_ok hrun]
  rcases hreply : (O.post .redeem x.1.outside.1).1 with - | - | - | - <;> rw [hreply] at hpost
  · have hsell := (silent_updatePosition (ω := ω) ETF_SYM 0 1).sellsOnly.bind fun _ ↦
      (silent_updatePositions (ω := ω) UNDERLYING_SYMS 1 0).sellsOnly.bind fun _ ↦
        sellsOnly_sellBasket O UNDERLYING_SYMS
    obtain ⟨sold, hsold, hdid⟩ := hsell ((post O.logged .redeem).after x)
    exact ⟨sold, hsold, hpost.trans hdid, fun h ↦ absurd rfl h⟩
  · exact ⟨[], hnone, hpost, fun _ ↦ rfl⟩
  · exact ⟨[], hnone, hpost, fun _ ↦ rfl⟩
  · exact ⟨[], hnone, hpost, fun _ ↦ rfl⟩

/-- **`_execute_redeem_arb`**: behind its buy it sends nothing unless the ETF service redeems, and
then it only sells. -/
theorem did_executeRedeemArb (undyAsk : ℤ) (x : LoggedState ω) :
    ∃ sold requests, (∀ m ∈ sold, Closes m) ∧
      Did ((leg O.logged ETF_SYM .buy undyAsk x).order.toList ++ sold) requests x
        ((ETFArbEngine.executeRedeemArb O.logged undyAsk).after x) ∧
      if (leg O.logged ETF_SYM .buy undyAsk x).answer = .accepted then
        ∃ reply, reply = (O.post .redeem
            ((offer O.logged ETF_SYM .buy undyAsk).after x).1.outside.1).1 ∧
          requests = [(.redeem, reply)] ∧ (reply ≠ .success → sold = [])
      else requests = [] ∧ sold = [] := by
  have hnone : ∀ m ∈ ([] : List NewOrder), Closes m := fun m hm ↦ absurd hm List.not_mem_nil
  have hdid := did_offer O ETF_SYM .buy undyAsk x
  have hrun : ETFArbEngine.executeRedeemArb O.logged undyAsk =
      offer O.logged ETF_SYM .buy undyAsk >>= fun resp ↦
        if !Quoting.accepted resp then ETFArbEngine.coolDown O.logged 1
        else ETFArbEngine.redeemAndSell O.logged >>= fun _ ↦ ETFArbEngine.coolDown O.logged 2 :=
    offer_bind ..
  rw [hrun]
  rcases hoffer : offer O.logged ETF_SYM .buy undyAsk x with ⟨resp, y⟩ | ⟨e, y⟩
  · have hanswer := answer_of_ok O.logged hoffer
    rw [after_ok hoffer] at hdid ⊢
    rw [after_bind_of_ok hoffer]
    rcases haccepted : Quoting.accepted resp with - | - <;> rw [haccepted] at hanswer
    -- not accepted: nothing but the cool-down follows
    · rw [if_neg Bool.false_ne_true] at hanswer
      refine ⟨[], [], hnone, (List.append_nil _).symm ▸ hdid.silent (silent_coolDown O 1 y), ?_⟩
      rw [if_neg (by rw [hanswer]; decide)]
      exact ⟨rfl, rfl⟩
    · rw [if_pos rfl] at hanswer
      obtain ⟨sold, hsold, hsell, hfailed⟩ := did_redeemAndSell O y
      refine ⟨sold, _, hsold, hdid.trans (hsell.bind fun _ ↦ silent_coolDown O 2), ?_⟩
      rw [if_pos hanswer]
      exact ⟨_, rfl, rfl, hfailed⟩
  · have hanswer := answer_of_error O.logged hoffer
    rw [after_error hoffer] at hdid
    rw [after_error (bind_error hoffer)]
    refine ⟨[], [], hnone, (List.append_nil _).symm ▸ hdid, ?_⟩
    rw [if_neg (by rw [hanswer]; decide)]
    exact ⟨rfl, rfl⟩

/-- **The ETF that is bought is redeemed or sold again**, and nothing is redeemed that has not been
bought. -/
def RedeemsOrCloses (undyAsk : ℤ) (filled : ℤ → Prop) (x : LoggedState ω) : Prop :=
  let y := (ETFArbEngine.executeRedeemArb O.logged undyAsk).after x
  let orders := OrderEntryClient.submittedSince x.1.client y.1.client
  ((.redeem, .success) ∉ requestsSince x y → Bought filled ETF_SYM orders →
    ∃ m ∈ orders, m.symbol = ETF_SYM ∧ m.side = Side.sell.value ∧ m.flags = OrderFlags.ioc.value) ∧
  ((∃ reply, (.redeem, reply) ∈ requestsSince x y) → Bought filled ETF_SYM orders)

/-- When it is: the buy is accepted exactly if it is filled, and then the ETF service redeems. -/
def Redeems (undyAsk : ℤ) (filled : ℤ → Prop) (x : OrderStrategy ω × OrderBookManager) : Prop :=
  if (leg O ETF_SYM .buy undyAsk x).answer = .accepted then
    (leg O ETF_SYM .buy undyAsk x).Filled filled ∧
      (O.post .redeem ((offer O ETF_SYM .buy undyAsk).after x).1.outside).1 = .success
  else ¬ (leg O ETF_SYM .buy undyAsk x).Filled filled

/-- The ETF is bought when the first order is filled: those behind it only sell. -/
theorem bought_etf_iff {undyAsk : ℤ} {x : OrderStrategy ω × OrderBookManager}
    {sold : List NewOrder} (hsold : ∀ m ∈ sold, Closes m) :
    Bought filled ETF_SYM ((leg O ETF_SYM .buy undyAsk x).order.toList ++ sold) ↔
      (leg O ETF_SYM .buy undyAsk x).Filled filled := by
  constructor
  · rintro ⟨m, hm, -, hside, hfilled⟩
    rcases List.mem_append.1 hm with hleg | hsell
    · exact ⟨m, Option.mem_toList.1 hleg, hfilled⟩
    · rw [(hsold m hsell).side] at hside
      cases hside
  · rintro ⟨m, hm, hfilled⟩
    obtain ⟨hsymbol, hside, -⟩ := leg_order O hm
    exact ⟨m, List.mem_append_left _ (Option.mem_toList.2 hm), hsymbol, hside, hfilled⟩

/-- The buy on its own sells nothing. -/
theorem not_sold_by_leg {undyAsk : ℤ} {x : OrderStrategy ω × OrderBookManager}
    {sold : List NewOrder} (hsold : sold = []) :
    ¬ ∃ m ∈ (leg O ETF_SYM .buy undyAsk x).order.toList ++ sold, m.symbol = ETF_SYM ∧
      m.side = Side.sell.value ∧ m.flags = OrderFlags.ioc.value := by
  subst hsold
  rintro ⟨m, hm, -, hside, -⟩
  rw [List.append_nil] at hm
  rw [(leg_order O (Option.mem_toList.1 hm)).2.1] at hside
  cases hside

/-- **A redeem that fails leaves the ETF position behind**: nothing sells it. -/
theorem redeemsOrCloses_iff (undyAsk : ℤ) (filled : ℤ → Prop) (x : LoggedState ω) :
    RedeemsOrCloses O undyAsk filled x ↔ Redeems O.logged undyAsk filled x := by
  obtain ⟨sold, requests, hsold, hdid, hended⟩ := did_executeRedeemArb O undyAsk x
  obtain ⟨hsubmitted, hrequests⟩ := hdid.since
  unfold RedeemsOrCloses Redeems
  dsimp only
  rw [hsubmitted, hrequests, bought_etf_iff O.logged hsold]
  by_cases haccepted : (leg O.logged ETF_SYM .buy undyAsk x).answer = .accepted
  -- one request has been made, and only a success lets anything be sold
  · rw [if_pos haccepted] at hended ⊢
    obtain ⟨reply, hreply, rfl, hfailed⟩ := hended
    have hasked : ∃ reply', (RestCall.redeem, reply') ∈ [(RestCall.redeem, reply)] :=
      ⟨reply, List.mem_singleton_self _⟩
    rw [imp_iff_right hasked, and_comm]
    refine and_congr_right fun hfilled ↦ ?_
    have hpost : (O.logged.post .redeem
        ((offer O.logged ETF_SYM .buy undyAsk).after x).1.outside).1 = reply := hreply.symm
    rw [hpost, imp_iff_right hfilled]
    constructor
    · intro hclosed
      by_contra hne
      refine not_sold_by_leg O.logged (hfailed hne) (hclosed fun hmem ↦ hne ?_)
      cases List.mem_singleton.1 hmem
      rfl
    · rintro rfl hmem
      exact absurd (List.mem_singleton_self _) hmem
  -- no request has been made, and nothing is sold
  · rw [if_neg haccepted] at hended ⊢
    obtain ⟨rfl, rfl⟩ := hended
    rw [imp_iff_right List.not_mem_nil]
    constructor
    · rintro ⟨hclosed, -⟩ hfilled
      exact not_sold_by_leg O.logged rfl (hclosed hfilled)
    · intro hunfilled
      refine ⟨fun hfilled ↦ absurd hfilled hunfilled, ?_⟩
      rintro ⟨reply, hmem⟩
      exact absurd hmem List.not_mem_nil

/-! ### What is left behind -/

/-- A clock that stands still, and an ETF service that answers like this. -/
def etfService (reply : RestReply) : Outside Unit where
  monotonic w := (0, w)
  attempts _ := 0
  signals _ _ _ _ _ w := (none, w)
  onRawMessage _ _ _ w := w
  onTradeSummary _ _ w := w
  post _ w := (reply, w)

/-- A bid of 90 and an ask of 100 for each underlying. -/
def quotedBasket : OrderBookManager :=
  Method.run (UNDERLYING_SYMS.flatMap fun sym ↦
    [OrderBookManager.processNewOrder 1 1 (2 * sym) sym .buy 10 90 0,
      OrderBookManager.processNewOrder 1 1 (2 * sym + 1) sym .sell 10 100 0]) .init

/-- A new strategy, with this to arrive. -/
def arbitraging (incoming : List Arrival) : LoggedState Unit :=
  (.init (OrderEntryClient.init [] [] 7 (-20000) 10 (some (.connected incoming)) []) {} ((), []),
    quotedBasket)

/-- The orders for which a fill has been booked. -/
def filledIn (symbol : ℤ) (x y : LoggedState Unit) (orderId : ℤ) : Prop :=
  orderId ∈ (OrderEntryClient.bookedSince symbol x.1.client y.1.client).map Prod.fst

instance (symbol : ℤ) (x y : LoggedState Unit) : DecidablePred (filledIn symbol x y) :=
  fun orderId ↦ inferInstanceAs (Decidable (orderId ∈ _))

instance (filled : ℤ → Prop) [DecidablePred filled] (symbol : ℤ) (orders : List NewOrder) :
    Decidable (Bought filled symbol orders) := inferInstanceAs (Decidable (∃ m ∈ orders, _))

/-- The first leg is filled, and the exchange rejects the second. -/
def rejectedLeg : LoggedState Unit :=
  arbitraging (Arrival.burst [.ack ⟨⟨40, 101, 1, 1, 1, 7⟩, 5000000, 901, 1, 100⟩,
      .fill ⟨⟨33, 103, 1, 2, 1, 7⟩, 5000000, 1, 100, 2⟩] ++ [.pause] ++
    Arrival.burst [.reject ⟨⟨25, 102, 1, 3, 2, 7⟩, 5000001, 10⟩])

/-- **The rejected leg raises**, and the one that is filled is not sold again. -/
theorem rejected_leg_leaves_basket :
    let y := (ETFArbEngine.executeCreateArb (etfService .failed).logged 2000).after rejectedLeg
    (∀ sym ∈ UNDERLYING_SYMS, (best? sym .buy).value? rejectedLeg = some (some (90, 10))) ∧
      OrderEntryClient.bookedSince 3 rejectedLeg.1.client y.1.client = [(5000000, 1)] ∧
      ¬ CreatesOrUnwinds (etfService .failed) 2000 (filledIn 3 rejectedLeg y) rejectedLeg := by
  refine ⟨by decide +kernel, by decide +kernel, fun h ↦ ?_⟩
  obtain ⟨m, hm, -⟩ := (h (by decide +kernel) 3).1 ⟨by decide, by decide +kernel⟩
  have hnone : sells 3 (OrderEntryClient.submittedSince rejectedLeg.1.client
      ((ETFArbEngine.executeCreateArb (etfService .failed).logged 2000).after
        rejectedLeg).1.client) = [] := by decide +kernel
  rw [hnone] at hm
  cases hm

/-- The ETF is bought. -/
def filledEtf : LoggedState Unit :=
  arbitraging (Arrival.burst [.ack ⟨⟨40, 101, 1, 1, 1, 7⟩, 5000000, 901, 1, 100⟩,
    .fill ⟨⟨33, 103, 1, 2, 1, 7⟩, 5000000, 1, 100, 2⟩])

/-- **The ETF service refuses to redeem**, and the ETF is not sold again. -/
theorem failed_redeem_leaves_etf :
    let y := (ETFArbEngine.executeRedeemArb (etfService .failed).logged 100).after filledEtf
    OrderEntryClient.bookedSince ETF_SYM filledEtf.1.client y.1.client = [(5000000, 1)] ∧
      y.1.client.position ETF_SYM = 1 ∧ requestsSince filledEtf y = [(.redeem, .failed)] ∧
      ¬ RedeemsOrCloses (etfService .failed) 100 (filledIn ETF_SYM filledEtf y) filledEtf := by
  refine ⟨by decide +kernel, by decide +kernel, by decide +kernel, fun h ↦ ?_⟩
  have hclosed := h.1 (by decide +kernel) (by decide +kernel)
  revert hclosed
  decide +kernel

end HftTrading.Strategy
