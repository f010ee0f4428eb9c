import HftTrading.Strategy.EtfFailures
import Mathlib.Data.List.DropRight

/-!
# What an arbitrage earns

`step` compares the ETF with its basket at the best prices, and then trades leg by leg, reading the
best price of each leg anew. Reading writes to the heaps, but it changes no price (`best?_reads`),
and neither does an order or a request. So each leg goes out at the price that it was counted with,
whatever is answered in between (`Priced`).

If the ETF service has done its part and all that is left is sold again, the prices of the orders
add up to the threshold at least (`proceeds_step`).

## From step to step

`Traded` says of a point of the arbitrage what has been sent and asked since its start, and that all
best prices are what they were. It goes along each method: an order adds itself, a request adds
itself, everything else adds nothing. Where the arbitrage ends, either the service has done its
part, for a whole basket or for the ETF and at a margin of the threshold, or no request has
succeeded and all that is known is that each order was priced (`Outcome`).

The prices of an arbitrage that is left halfway add up to nothing in particular, and no more is said
of it. Quantities are all one, so that what is bought and sold again nets out symbol by symbol.
-/

namespace HftTrading

namespace OrderBook

open MarketData

variable (side : Side) (b : OrderBook)

/-- The best price goes by the levels and by the heap, once it is cleaned. -/
theorem value?_getBest : (getBest side).value? b =
    match ((b.clearTop side).heap side).peek? with
    | none => some (0, 0)
    | some top => ((b.levels side).get? (heapPrice side top)).map fun level ↦
        (heapPrice side top, level.totalQty) := by
  unfold Method.value? getBest
  have hlevels : (b.clearTop side).levels = b.levels := levels_setHeap ..
  dsimp only
  rw [hlevels]
  rcases ((b.clearTop side).heap side).peek? with - | top
  · rfl
  · dsimp only
    rcases (b.levels side).get? (heapPrice side top) with - | level <;> rfl

/-- Reading a best price changes none. -/
theorem value?_getBest_clearTop (side' : Side) :
    (getBest side).value? (b.clearTop side') = (getBest side).value? b := by
  have hlevels : (b.clearTop side').levels = b.levels := levels_setHeap ..
  have hheap : ((b.clearTop side').clearTop side).heap side = (b.clearTop side).heap side := by
    unfold clearTop
    rw [levels_setHeap, heap_setHeap, heap_setHeap, heap_setHeap, if_pos rfl, if_pos rfl]
    split
    · rename_i hside
      subst hside
      exact MinHeap.ext_elems (List.dropWhile_idempotent _ _)
    · rfl
  rw [value?_getBest, value?_getBest, hheap, hlevels]

end OrderBook

namespace Strategy

open OrderEntry Method OrderStrategy

variable {ω : Type}

/-! ### Best prices -/

/-- The best price of a side of a symbol, if it has a book: 0 if nothing rests there. -/
def bestPrice? (side : MarketData.Side) (symbol : ℤ) (m : OrderBookManager) : Option ℤ :=
  (m.books.get? symbol).bind fun book ↦ ((OrderBook.getBest side).value? book).map Prod.fst

/-- **Reading a best price** gives it, and leaves all of them as they are. -/
theorem best?_reads (symbol : ℤ) (side : MarketData.Side) (x : OrderStrategy ω × OrderBookManager) :
    ∃ best m, best? symbol side x = .ok best (x.1, m) ∧
      best.map Prod.fst = bestPrice? side symbol x.2 ∧
      ∀ side' symbol', bestPrice? side' symbol' m = bestPrice? side' symbol' x.2 := by
  rcases hbook : x.2.books.get? symbol with - | book
  · have hnone : x.2.books.contains symbol = false := by rw [Dict.contains, hbook]; rfl
    refine ⟨none, x.2, ?_, ?_, fun _ _ ↦ rfl⟩
    · rw [best?, bind_ok (show getManager x = .ok x.2 x from rfl), hnone]
      rfl
    · rw [bestPrice?, hbook]
      rfl
  · have hsome : x.2.books.contains symbol = true := by rw [Dict.contains, hbook]; rfl
    obtain ⟨r, hget, -⟩ := OrderBook.getBest_ok side book
    have hbest : onManager (OrderBookManager.onBook symbol (OrderBook.getBest side)) x =
        .ok r (x.1, x.2.setBook symbol (book.clearTop side)) := by
      unfold onManager zoom
      rw [OrderBookManager.onBook_of_book hbook, focus_ok hget]
    refine ⟨some r, x.2.setBook symbol (book.clearTop side), ?_, ?_, fun side' symbol' ↦ ?_⟩
    · rw [best?, bind_ok (show getManager x = .ok x.2 x from rfl), hsome, if_pos rfl, bind_ok hbest]
      rfl
    · rw [bestPrice?, hbook, Option.bind_some, value?_eq_some_iff.2 ⟨_, hget⟩,
        Option.map_some]
    · show ((x.2.books.insert symbol (book.clearTop side)).get? symbol').bind _ = _
      rw [Dict.get?_insert, bestPrice?]
      split
      · rename_i hsymbol
        rw [hsymbol, hbook, Option.bind_some, Option.bind_some, OrderBook.value?_getBest_clearTop]
      · rfl

/-! ### What is traded -/

/-- Since a state these orders have been sent and these requests made, and the best prices are what
they were. -/
structure Traded (x₀ : LoggedState ω) (orders : List NewOrder) (requests : Requests)
    (x : LoggedState ω) : Prop where
  did : Did orders requests x₀ x
  prices : ∀ side symbol, bestPrice? side symbol x.2 = bestPrice? side symbol x₀.2

/-- **An order at the best price** that there was for it: of quantity 1, and filled at once or not
at all. -/
structure Priced (x₀ : LoggedState ω) (symbol : ℤ) (side : Side) (m : NewOrder) : Prop where
  symbol_eq : m.symbol = symbol
  side_eq : m.side = side.value
  quantity : m.quantity = 1
  flags : m.flags = OrderFlags.ioc.value
  price : bestPrice? (if side = .buy then .sell else .buy) symbol x₀.2 = some m.price
  price_pos : 0 < m.price

section

variable {O : Outside ω} {x₀ x y : LoggedState ω} {orders : List NewOrder} {requests : Requests}

theorem Traded.refl (x : LoggedState ω) : Traded x [] [] x := ⟨.refl x, fun _ _ ↦ rfl⟩

/-- What is done next, with the books left alone. -/
theorem Traded.trans (h : Traded x₀ orders requests x) {orders' : List NewOrder}
    {requests' : Requests} (hdid : Did orders' requests' x y) (hbooks : y.2 = x.2) :
    Traded x₀ (orders ++ orders') (requests ++ requests') y :=
  ⟨h.did.trans hdid, fun side symbol ↦ hbooks ▸ h.prices side symbol⟩

theorem Traded.silent (h : Traded x₀ orders requests x) (hdid : Did [] [] x y)
    (hbooks : y.2 = x.2) : Traded x₀ orders requests y :=
  ⟨h.did.silent hdid, fun side symbol ↦ hbooks ▸ h.prices side symbol⟩

/-- Reading a best price gives what it was at the start. -/
theorem traded_best? (symbol : ℤ) (side : MarketData.Side) :
    Triple (Traded x₀ orders requests) (best? symbol side)
      (fun best x ↦ best.map Prod.fst = bestPrice? side symbol x₀.2 ∧ Traded x₀ orders requests x)
      fun _ ↦ False := by
  intro x hx
  obtain ⟨best, m, hrun, hprice, hprices⟩ := best?_reads symbol side x
  rw [hrun]
  exact ⟨hprice.trans (hx.prices side symbol), ⟨hx.did.submitted, hx.did.requests⟩,
    fun side' symbol' ↦ (hprices side' symbol').trans (hx.prices side' symbol')⟩

/-- An order is a dealing with the exchange: what is accepted has gone out. -/
theorem order_of_accepted {symbol price : ℤ} {side : Side}
    {x y : OrderStrategy ω × OrderBookManager} {resp : List OeResponse}
    (hrun : offer O symbol side price x = .ok resp y) (haccepted : Quoting.accepted resp = true) :
    (leg O symbol side price x).order.isSome = true := by
  let x' := (monotonic O).after (ETFArbEngine.allocOid.after x)
  have hdealing : Triple (fun t ↦ t = x')
      (dealing (fun _ ↦ .other) (onClient (OrderEntryClient.newOrder (O.monotonic x.1.outside).1
        x.1.etfArb.nextOid symbol side.value 1 price OrderFlags.ioc.value)))
      (fun resp _ ↦ Quoting.accepted resp = true →
        (leg O symbol side price x).order.isSome = true) fun _ ↦ True := by
    refine triple_dealing_onClient _ fun t ht ↦ ?_
    subst ht
    refine (OrderEntryClient.triple_newOrder_goesOut _ _ _ _ _ _ _ _).weaken (fun _ hc ↦ hc)
      (fun resp _ hresp haccepted ↦ hresp.resolve_left ?_) fun _ _ ↦ trivial
    rintro ⟨r, rfl, hreject⟩
    rw [Quoting.accepted, hreject] at haccepted
    cases haccepted
  have h := hdealing x' rfl
  have hoffer : offer O symbol side price x =
      dealing (fun _ ↦ .other) (onClient (OrderEntryClient.newOrder (O.monotonic x.1.outside).1
        x.1.etfArb.nextOid symbol side.value 1 price OrderFlags.ioc.value)) x' := rfl
  rw [← hoffer, hrun] at h
  exact h haccepted

/-- The books are no part of it. -/
theorem books_offer (O : Outside ω) (symbol : ℤ) (side : Side) (price : ℤ)
    (x : OrderStrategy ω × OrderBookManager) : ((offer O symbol side price).after x).2 = x.2 := by
  obtain ⟨returned, hafter⟩ := after_dealing (fun _ ↦ .other)
    (onClient (OrderEntryClient.newOrder (O.monotonic x.1.outside).1 x.1.etfArb.nextOid symbol
      side.value 1 price OrderFlags.ioc.value))
    ((monotonic O).after (ETFArbEngine.allocOid.after x))
  rw [after_onClient] at hafter
  exact (congrArg Prod.snd hafter :)

/-- At most one order has been sent since. -/
def Offered (x₀ : LoggedState ω) (orders : List NewOrder) (requests : Requests) (symbol : ℤ)
    (side : Side) (x : LoggedState ω) : Prop :=
  ∃ sent : Option NewOrder, (∀ m ∈ sent, Priced x₀ symbol side m) ∧
    Traded x₀ (orders ++ sent.toList) requests x

/-- **One order** is of the kind that it is offered as, and goes out if it is accepted. -/
theorem traded_offer (side : Side) {symbol price : ℤ}
    (hprice : bestPrice? (if side = .buy then .sell else .buy) symbol x₀.2 = some price)
    (hpos : 0 < price) :
    Triple (Traded x₀ orders requests) (offer O.logged symbol side price)
      (fun resp x ↦ ∃ sent : Option NewOrder, (∀ m ∈ sent, Priced x₀ symbol side m) ∧
        (Quoting.accepted resp = true → sent.isSome = true) ∧
        Traded x₀ (orders ++ sent.toList) requests x)
      (Offered x₀ orders requests symbol side) := by
  intro x hx
  have hdid := did_offer O symbol side price x
  have hpriced : ∀ m ∈ (leg O.logged symbol side price x).order, Priced x₀ symbol side m := by
    intro m hm
    have hmessage := OrderEntryClient.goesOut?_eq_some hm
    subst hmessage
    exact ⟨rfl, rfl, rfl, rfl, hprice, hpos⟩
  have hafter := hx.trans hdid (books_offer O.logged symbol side price x)
  rw [List.append_nil] at hafter
  rcases hrun : offer O.logged symbol side price x with ⟨resp, y⟩ | ⟨e, y⟩
  · rw [after_ok hrun] at hafter
    exact ⟨_, hpriced, order_of_accepted hrun, hafter⟩
  · rw [after_error hrun] at hafter
    exact ⟨_, hpriced, hafter⟩

theorem traded_coolDown (seconds : ℚ) :
    Keeps (Traded x₀ orders requests) (ETFArbEngine.coolDown O.logged seconds) :=
  fun x hx ↦ hx.silent (silent_coolDown O seconds x) rfl

theorem traded_updatePosition (symbol buyQty sellQty : ℤ) :
    Keeps (Traded x₀ orders requests) (ETFArbEngine.updatePosition symbol buyQty sellQty) :=
  fun x hx ↦ hx.silent (silent_updatePosition symbol buyQty sellQty x) rfl

theorem traded_updatePositions (syms : List ℤ) (buyQty sellQty : ℤ) :
    Keeps (Traded x₀ orders requests) (Method.all (syms.map fun sym ↦
      ETFArbEngine.updatePosition (ω := ω × Requests) sym buyQty sellQty)) := by
  refine keeps_all fun m hm ↦ ?_
  obtain ⟨sym, -, rfl⟩ := List.mem_map.1 hm
  exact traded_updatePosition sym buyQty sellQty

/-- A request is noted with its answer. -/
theorem traded_post (call : RestCall) :
    Triple (Traded x₀ orders requests) (post O.logged call)
      (fun reply ↦ Traded x₀ orders (requests ++ [(call, reply)])) fun _ ↦ False :=
  fun x hx ↦ ⟨⟨hx.did.submitted, by
    show x.1.outside.2 ++ _ = _
    rw [hx.did.requests, List.append_assoc]
    rfl⟩, hx.prices⟩

/-- What has been sent is priced, whatever is sent on the way. -/
def Left (x₀ : LoggedState ω) (orders : List NewOrder) (requests : Requests)
    (x : LoggedState ω) : Prop :=
  ∃ sent, Traded x₀ (orders ++ sent) requests x ∧ ∀ m ∈ sent, ∃ symbol side, Priced x₀ symbol side m

theorem Traded.left {sent : List NewOrder} (h : Traded x₀ (orders ++ sent) requests x)
    (hpriced : ∀ m ∈ sent, ∃ symbol side, Priced x₀ symbol side m) : Left x₀ orders requests x :=
  ⟨sent, h, hpriced⟩

/-- The best prices of a basket, added up. -/
def basketPrice (side : MarketData.Side) (syms : List ℤ) (m : OrderBookManager) : ℤ :=
  (syms.map fun sym ↦ (bestPrice? side sym m).getD 0).sum

/-- **`_basket_prices`** adds up the best prices. -/
theorem traded_basketPrices (syms : List ℤ) :
    Triple (Traded x₀ orders requests) (ETFArbEngine.basketPrices syms)
      (fun sums x ↦ (∀ p ∈ sums, p = (basketPrice .sell syms x₀.2, basketPrice .buy syms x₀.2)) ∧
        Traded x₀ orders requests x) fun _ ↦ False := by
  induction syms with
  | nil => exact triple_pure _ fun _ hx ↦ ⟨fun p hp ↦ (Option.some.inj hp).symm, hx⟩
  | cons sym syms ih =>
    refine (traded_best? sym .buy).bind fun bid ↦ triple_of_imp fun hbid ↦
      (traded_best? sym .sell).bind fun ask ↦ triple_of_imp fun hask ↦ ?_
    rcases bid with - | bid
    · exact triple_pure _ fun _ hx ↦ ⟨fun p hp ↦ absurd hp (Option.not_mem_none p), hx⟩
    rcases ask with - | ask
    · exact triple_pure _ fun _ hx ↦ ⟨fun p hp ↦ absurd hp (Option.not_mem_none p), hx⟩
    dsimp only
    split
    · exact triple_pure _ fun _ hx ↦ ⟨fun p hp ↦ absurd hp (Option.not_mem_none p), hx⟩
    · refine ih.bind fun sums ↦ triple_pure _ fun x hx ↦ ⟨fun p hp ↦ ?_, hx.2⟩
      obtain ⟨q, hq, rfl⟩ := Option.map_eq_some_iff.1 hp
      rw [hx.1 q hq, basketPrice, basketPrice, basketPrice, basketPrice, List.map_cons,
        List.map_cons, List.sum_cons, List.sum_cons, ← hask, ← hbid]
      rfl

/-- **Buying a basket** sends one order for each symbol, if it gets through with all of them. -/
theorem traded_buyBasket (syms filled : List ℤ) :
    Triple (Traded x₀ orders requests) (ETFArbEngine.buyBasket O.logged syms filled)
      (fun filled' x ↦ ∃ bought, Traded x₀ (orders ++ bought) requests x ∧
        (∀ m ∈ bought, ∃ symbol side, Priced x₀ symbol side m) ∧
        filled'.length ≤ filled.length + syms.length ∧
        (filled'.length = filled.length + syms.length →
          List.Forall₂ (fun symbol m ↦ Priced x₀ symbol .buy m) syms bought))
      (Left x₀ orders requests) := by
  induction syms generalizing filled orders with
  | nil =>
    refine triple_pure _ fun x hx ↦ ⟨[], ?_, by simp, le_rfl, fun _ ↦ .nil⟩
    rwa [List.append_nil]
  | cons sym syms ih =>
    have hstop (sent : List NewOrder) {x : LoggedState ω}
        (hx : Traded x₀ (orders ++ sent) requests x)
        (hpriced : ∀ m ∈ sent, ∃ symbol side, Priced x₀ symbol side m) :
        ∃ bought, Traded x₀ (orders ++ bought) requests x ∧
          (∀ m ∈ bought, ∃ symbol side, Priced x₀ symbol side m) ∧
          filled.length ≤ filled.length + (sym :: syms).length ∧
          (filled.length = filled.length + (sym :: syms).length →
            List.Forall₂ (fun symbol m ↦ Priced x₀ symbol .buy m) (sym :: syms) bought) :=
      ⟨sent, hx, hpriced, Nat.le_add_right _ _, fun h ↦ by simp at h⟩
    refine (traded_best? sym .sell).weaken (fun _ hx ↦ hx) (fun _ _ hx ↦ hx) (fun _ h ↦ h.elim)
      |>.bind fun ask ↦ triple_of_imp fun hask ↦ ?_
    rcases ask with - | ask
    · exact triple_pure _ fun x hx ↦ hstop [] (by rwa [List.append_nil]) (by simp)
    dsimp only
    split
    · exact triple_pure _ fun x hx ↦ hstop [] (by rwa [List.append_nil]) (by simp)
    rename_i hpos
    rw [offer_bind]
    refine ((traded_offer .buy hask.symm (not_le.1 hpos)).weaken (fun _ hx ↦ hx)
      (fun _ _ hx ↦ hx) (fun x hx ↦ ?_)).bind fun resp ↦ ?_
    · obtain ⟨sent, hpriced, hx⟩ := hx
      exact hx.left fun m hm ↦ ⟨sym, .buy, hpriced m (Option.mem_toList.1 hm)⟩
    split
    · rename_i haccepted
      rintro x ⟨sent, hpriced, hsome, hx⟩
      obtain ⟨m, rfl⟩ := Option.isSome_iff_exists.1 (hsome haccepted)
      have hm : Priced x₀ sym .buy m := hpriced m rfl
      refine (@ih (orders ++ [m]) (filled ++ [sym])).weaken (fun _ hx ↦ hx)
        (fun filled' x hx ↦ ?_) (fun x hx ↦ ?_) x hx
      · obtain ⟨bought, hx, hpriced', hle, hall⟩ := hx
        rw [List.append_assoc] at hx
        rw [List.length_append, List.length_singleton, Nat.add_assoc, Nat.add_comm 1] at hle hall
        exact ⟨m :: bought, hx, List.forall_mem_cons.2 ⟨⟨sym, .buy, hm⟩, hpriced'⟩, hle,
          fun h ↦ .cons hm (hall h)⟩
      · obtain ⟨bought, hx, hpriced'⟩ := hx
        rw [List.append_assoc] at hx
        exact hx.left (List.forall_mem_cons.2 ⟨⟨sym, .buy, hm⟩, hpriced'⟩)
    · rintro x ⟨sent, hpriced, -, hx⟩
      exact hstop _ hx fun m hm ↦ ⟨sym, .buy, hpriced m (Option.mem_toList.1 hm)⟩

/-- Some of these symbols have been sold, one order for each. -/
def Sold (x₀ : LoggedState ω) (orders : List NewOrder) (requests : Requests) (syms : List ℤ)
    (x : LoggedState ω) : Prop :=
  ∃ symbols sold, Traded x₀ (orders ++ sold) requests x ∧
    List.Forall₂ (fun symbol m ↦ Priced x₀ symbol .sell m) symbols sold ∧
    List.Sublist symbols syms

/-- **Selling a basket** sends at most one order for each symbol. -/
theorem traded_unwind (syms : List ℤ) :
    Triple (Traded x₀ orders requests) (ETFArbEngine.unwind O.logged syms .sell)
      (fun _ ↦ Sold x₀ orders requests syms) (Sold x₀ orders requests syms) := by
  rw [unwind_eq]
  induction syms generalizing orders with
  | nil => exact triple_pure () fun x hx ↦ ⟨[], [], by rwa [List.append_nil], .nil, .refl []⟩
  | cons sym syms ih =>
    have hnone : Triple (Traded x₀ orders requests) (pure () : StrategyM (ω × Requests) Unit)
        (fun _ ↦ Offered x₀ orders requests sym .sell) (Sold x₀ orders requests (sym :: syms)) :=
      triple_pure () fun x hx ↦ ⟨none, fun m hm ↦ absurd hm (Option.not_mem_none m), by
        rwa [Option.toList_none, List.append_nil]⟩
    -- an order, if any, and those for the other symbols
    have hcons {m : NewOrder} (hm : Priced x₀ sym .sell m) (x : LoggedState ω)
        (hx : Sold x₀ (orders ++ [m]) requests syms x) :
        Sold x₀ orders requests (sym :: syms) x := by
      obtain ⟨symbols, sold, hx, hpriced, hsub⟩ := hx
      rw [List.append_assoc] at hx
      exact ⟨sym :: symbols, m :: sold, hx, .cons hm hpriced, hsub.cons_cons sym⟩
    have hskip (x : LoggedState ω) (hx : Sold x₀ orders requests syms x) :
        Sold x₀ orders requests (sym :: syms) x := by
      obtain ⟨symbols, sold, hx, hpriced, hsub⟩ := hx
      exact ⟨symbols, sold, hx, hpriced, hsub.cons sym⟩
    have hone : Triple (Traded x₀ orders requests) (unwindOne O.logged sym)
        (fun _ ↦ Offered x₀ orders requests sym .sell)
        (Sold x₀ orders requests (sym :: syms)) := by
      refine ((traded_best? sym .buy).weaken (fun _ hx ↦ hx) (fun _ _ hx ↦ hx)
        fun _ h ↦ h.elim).bind fun bid ↦ triple_of_imp fun hbid ↦ ?_
      rcases bid with - | bid
      · exact hnone
      dsimp only
      split
      · exact hnone
      rename_i hpos
      refine ((traded_offer .sell hbid.symm (not_le.1 hpos)).weaken (fun _ hx ↦ hx)
        (fun _ _ hx ↦ hx) (fun x hx ↦ ?_)).bind fun resp ↦ triple_pure () fun x hx ↦ ?_
      · obtain ⟨sent, hpriced, hx⟩ := hx
        rcases sent with - | m
        · rw [Option.toList_none, List.append_nil] at hx
          exact ⟨[], [], by rwa [List.append_nil], .nil, List.nil_sublist _⟩
        · exact ⟨[sym], [m], hx, .cons (hpriced m rfl) .nil, (List.nil_sublist _).cons_cons sym⟩
      · obtain ⟨sent, hpriced, -, hx⟩ := hx
        exact ⟨sent, hpriced, hx⟩
    refine hone.bind fun _ ↦ ?_
    rintro x ⟨sent, hpriced, hx⟩
    rcases sent with - | m
    · rw [Option.toList_none, List.append_nil] at hx
      exact ih.weaken (fun _ hx ↦ hx) (fun _ ↦ hskip) hskip x hx
    · exact ih.weaken (fun _ hx ↦ hx) (fun _ ↦ hcons (hpriced m rfl)) (hcons (hpriced m rfl)) x hx

/-! ### What an arbitrage comes to -/

/-- What has been sent and asked by an arbitrage that ends in one way or another. The ETF service
does its part only for a whole basket or for the ETF, and at a margin of the threshold. -/
inductive Outcome (x₀ : LoggedState ω) : List NewOrder → Requests → Prop
  | failed {orders : List NewOrder} {requests : Requests} :
    (∀ m ∈ orders, ∃ symbol side, Priced x₀ symbol side m) →
    (∀ call, (call, RestReply.success) ∉ requests) → Outcome x₀ orders requests
  | created {bid : ℤ} {bought : List NewOrder} {sold : Option NewOrder} :
    bestPrice? .buy ETF_SYM x₀.2 = some bid →
    x₀.1.etfArb.threshold ≤ bid - basketPrice .sell UNDERLYING_SYMS x₀.2 →
    List.Forall₂ (fun symbol m ↦ Priced x₀ symbol .buy m) UNDERLYING_SYMS bought →
    (∀ m ∈ sold, Priced x₀ ETF_SYM .sell m) →
    Outcome x₀ (bought ++ sold.toList) [(.create, .success)]
  | redeemed {ask : ℤ} {bought : NewOrder} {symbols : List ℤ} {sold : List NewOrder} :
    bestPrice? .sell ETF_SYM x₀.2 = some ask →
    x₀.1.etfArb.threshold ≤ basketPrice .buy UNDERLYING_SYMS x₀.2 - ask →
    Priced x₀ ETF_SYM .buy bought →
    List.Forall₂ (fun symbol m ↦ Priced x₀ symbol .sell m) symbols sold →
    List.Sublist symbols UNDERLYING_SYMS →
    Outcome x₀ (bought :: sold) [(.redeem, .success)]

/-- It has ended. -/
def HasOutcome (x₀ x : LoggedState ω) : Prop :=
  ∃ orders requests, Traded x₀ orders requests x ∧ Outcome x₀ orders requests

/-- Each order of a basket is priced. -/
theorem priced_of_forall₂ {side : Side} {symbols : List ℤ}
    (h : List.Forall₂ (fun symbol m ↦ Priced x₀ symbol side m) symbols orders) :
    ∀ m ∈ orders, ∃ symbol side, Priced x₀ symbol side m := by
  intro m hm
  induction h with
  | nil => cases hm
  | cons hpriced _ ih =>
    rcases List.mem_cons.1 hm with rfl | hm
    · exact ⟨_, _, hpriced⟩
    · exact ih hm

/-- An arbitrage that is left, with no request that succeeded. -/
theorem Left.ended (h : Left x₀ orders requests x)
    (hpriced : ∀ m ∈ orders, ∃ symbol side, Priced x₀ symbol side m)
    (hfailed : ∀ call, (call, RestReply.success) ∉ requests) : HasOutcome x₀ x := by
  obtain ⟨sent, hx, hsent⟩ := h
  exact ⟨_, _, hx, .failed (List.forall_mem_append.2 ⟨hpriced, hsent⟩) hfailed⟩

theorem Sold.ended {syms : List ℤ} (h : Sold x₀ orders requests syms x)
    (hpriced : ∀ m ∈ orders, ∃ symbol side, Priced x₀ symbol side m)
    (hfailed : ∀ call, (call, RestReply.success) ∉ requests) : HasOutcome x₀ x := by
  obtain ⟨symbols, sold, hx, hsold, -⟩ := h
  exact Left.ended ⟨sold, hx, priced_of_forall₂ hsold⟩ hpriced hfailed

/-- **Creating**: the basket has been bought at its asks, the ETF is sold at its bid. -/
theorem traded_createAndSell {bid : ℤ} (hbid : bestPrice? .buy ETF_SYM x₀.2 = some bid)
    (hpos : 0 < bid)
    (hmargin : x₀.1.etfArb.threshold ≤ bid - basketPrice .sell UNDERLYING_SYMS x₀.2)
    (hbought : List.Forall₂ (fun symbol m ↦ Priced x₀ symbol .buy m) UNDERLYING_SYMS orders)
    (filled : List ℤ) :
    Triple (Traded x₀ orders []) (ETFArbEngine.createAndSell O.logged filled bid)
      (fun _ ↦ HasOutcome x₀) (HasOutcome x₀) := by
  refine ((traded_post .create).weaken (fun _ hx ↦ hx) (fun _ _ hx ↦ hx) fun _ h ↦ h.elim).bind
    fun reply ↦ ?_
  have hunwind (hreply : reply ≠ .success) :
      Triple (Traded x₀ orders [(.create, reply)]) (ETFArbEngine.unwind O.logged filled .sell)
        (fun _ ↦ HasOutcome x₀) (HasOutcome x₀) := by
    have hended (x : LoggedState ω) (hx : Sold x₀ orders [(.create, reply)] filled x) :
        HasOutcome x₀ x :=
      hx.ended (priced_of_forall₂ hbought) fun call h ↦ by
        rw [List.mem_singleton, Prod.mk.injEq] at h
        exact hreply h.2.symm
    exact (traded_unwind filled).weaken (fun _ hx ↦ hx) (fun _ ↦ hended) hended
  cases reply with
  | success =>
    have hended (x : LoggedState ω)
        (hx : Offered x₀ orders [(.create, .success)] ETF_SYM .sell x) : HasOutcome x₀ x := by
      obtain ⟨sent, hpriced, hx⟩ := hx
      exact ⟨_, _, hx, .created hbid hmargin hbought hpriced⟩
    have hnone (x : LoggedState ω) (hx : Traded x₀ orders [(.create, .success)] x) :
        HasOutcome x₀ x :=
      hended x ⟨none, fun m hm ↦ absurd hm (Option.not_mem_none m), by
        rwa [Option.toList_none, List.append_nil]⟩
    have hmoved {m : StrategyM (ω × Requests) Unit}
        (hm : Keeps (Traded x₀ orders [(.create, .success)]) m) :
        Triple (Traded x₀ orders [(.create, .success)]) m
          (fun _ ↦ Traded x₀ orders [(.create, .success)]) (HasOutcome x₀) :=
      (keeps_iff_triple.1 hm).weaken (fun _ hx ↦ hx) (fun _ _ hx ↦ hx) hnone
    refine (hmoved (traded_updatePositions _ _ _)).bind fun _ ↦
      (hmoved (traded_updatePosition _ _ _)).bind fun _ ↦ ?_
    rw [offer_bind]
    exact ((traded_offer .sell hbid hpos).weaken (fun _ hx ↦ hx) (fun _ _ hx ↦ hx)
      hended).bind fun resp ↦ triple_pure _ fun x ⟨sent, hpriced, _, hx⟩ ↦
        hended x ⟨sent, hpriced, hx⟩
  | failed => exact hunwind (by decide)
  | requestException => exact hunwind (by decide)
  | otherException =>
    refine triple_throw _ fun x hx ↦ ⟨_, _, hx, .failed (priced_of_forall₂ hbought) ?_⟩
    intro call h
    rw [List.nil_append, List.mem_singleton] at h
    cases h

/-- **`_execute_create_arb`** at a margin. -/
theorem traded_executeCreateArb {bid : ℤ} (hbid : bestPrice? .buy ETF_SYM x₀.2 = some bid)
    (hpos : 0 < bid)
    (hmargin : x₀.1.etfArb.threshold ≤ bid - basketPrice .sell UNDERLYING_SYMS x₀.2) :
    Triple (Traded x₀ [] []) (ETFArbEngine.executeCreateArb O.logged bid)
      (fun _ ↦ HasOutcome x₀) (HasOutcome x₀) := by
  have hcool : Keeps (HasOutcome x₀) (ETFArbEngine.coolDown O.logged 2) :=
    fun x ⟨orders, requests, hx, houtcome⟩ ↦
      ⟨orders, requests, traded_coolDown 2 x hx, houtcome⟩
  refine ((traded_buyBasket UNDERLYING_SYMS []).weaken (fun _ hx ↦ hx) (fun _ _ hx ↦ hx)
    fun x hx ↦ ?_).bind fun filled ↦ ?_
  · exact hx.ended (by simp) (by simp)
  dsimp only
  split
  · rename_i hlength
    rintro x ⟨bought, hx, -, -, hall⟩
    have hbought := hall (hlength.trans (Nat.zero_add _).symm)
    exact (traded_createAndSell hbid hpos hmargin hbought filled).bind
      (fun _ ↦ keeps_iff_triple.1 hcool) x hx
  · rintro x ⟨bought, hx, hpriced, -⟩
    have hended (y : LoggedState ω) (hy : Sold x₀ bought [] filled y) : HasOutcome x₀ y :=
      hy.ended hpriced (by simp)
    exact ((traded_unwind filled).weaken (fun _ hx ↦ hx) (fun _ ↦ hended) hended).bind
      (fun _ ↦ keeps_iff_triple.1 hcool) x hx

/-- **Redeeming**: the ETF has been bought at its ask, the basket is sold at its bids. -/
theorem traded_redeemAndSell {ask : ℤ} {m : NewOrder}
    (hask : bestPrice? .sell ETF_SYM x₀.2 = some ask)
    (hmargin : x₀.1.etfArb.threshold ≤ basketPrice .buy UNDERLYING_SYMS x₀.2 - ask)
    (hm : Priced x₀ ETF_SYM .buy m) :
    Triple (Traded x₀ [m] []) (ETFArbEngine.redeemAndSell O.logged) (fun _ ↦ HasOutcome x₀)
      (HasOutcome x₀) := by
  refine ((traded_post .redeem).weaken (fun _ hx ↦ hx) (fun _ _ hx ↦ hx) fun _ h ↦ h.elim).bind
    fun reply ↦ ?_
  have hfailed (hreply : reply ≠ .success) (x : LoggedState ω)
      (hx : Traded x₀ [m] [(.redeem, reply)] x) : HasOutcome x₀ x := by
    refine ⟨_, _, hx, .failed (by simpa using ⟨ETF_SYM, .buy, hm⟩) fun call h ↦ ?_⟩
    rw [List.mem_singleton, Prod.mk.injEq] at h
    exact hreply h.2.symm
  cases reply with
  | success =>
    have hended (x : LoggedState ω)
        (hx : Sold x₀ [m] [(.redeem, .success)] UNDERLYING_SYMS x) : HasOutcome x₀ x := by
      obtain ⟨symbols, sold, hx, hpriced, hsub⟩ := hx
      exact ⟨_, _, hx, .redeemed hask hmargin hm hpriced hsub⟩
    have hmoved {n : StrategyM (ω × Requests) Unit}
        (hn : Keeps (Traded x₀ [m] [(.redeem, .success)]) n) :
        Triple (Traded x₀ [m] [(.redeem, .success)]) n
          (fun _ ↦ Traded x₀ [m] [(.redeem, .success)]) (HasOutcome x₀) :=
      (keeps_iff_triple.1 hn).weaken (fun _ hx ↦ hx) (fun _ _ hx ↦ hx) fun x hx ↦
        hended x ⟨[], [], hx, .nil, List.nil_sublist _⟩
    refine (hmoved (traded_updatePosition _ _ _)).bind fun _ ↦
      (hmoved (traded_updatePositions _ _ _)).bind fun _ ↦ ?_
    rw [sellBasket_eq]
    exact (traded_unwind UNDERLYING_SYMS).weaken (fun _ hx ↦ hx) (fun _ ↦ hended) hended
  | failed => exact triple_pure _ (hfailed (by decide))
  | requestException => exact triple_pure _ (hfailed (by decide))
  | otherException => exact triple_throw _ (hfailed (by decide))

/-- **`_execute_redeem_arb`** at a margin. -/
theorem traded_executeRedeemArb {ask : ℤ} (hask : bestPrice? .sell ETF_SYM x₀.2 = some ask)
    (hpos : 0 < ask)
    (hmargin : x₀.1.etfArb.threshold ≤ basketPrice .buy UNDERLYING_SYMS x₀.2 - ask) :
    Triple (Traded x₀ [] []) (ETFArbEngine.executeRedeemArb O.logged ask)
      (fun _ ↦ HasOutcome x₀) (HasOutcome x₀) := by
  have hcool (seconds : ℚ) : Keeps (HasOutcome x₀) (ETFArbEngine.coolDown O.logged seconds) :=
    fun x ⟨orders, requests, hx, houtcome⟩ ↦
      ⟨orders, requests, traded_coolDown seconds x hx, houtcome⟩
  have hunsold (x : LoggedState ω) (hx : Offered x₀ [] [] ETF_SYM .buy x) : HasOutcome x₀ x := by
    obtain ⟨sent, hpriced, hx⟩ := hx
    exact ⟨_, _, hx, .failed (fun m hm ↦ ⟨_, _, hpriced m (Option.mem_toList.1 hm)⟩) (by simp)⟩
  unfold ETFArbEngine.executeRedeemArb
  rw [offer_bind]
  refine ((traded_offer .buy hask hpos).weaken (fun _ hx ↦ hx) (fun _ _ hx ↦ hx)
    hunsold).bind fun resp ↦ ?_
  split
  · rintro x ⟨sent, hpriced, -, hx⟩
    exact keeps_iff_triple.1 (hcool 1) x (hunsold x ⟨sent, hpriced, hx⟩)
  · rename_i haccepted
    rintro x ⟨sent, hpriced, hsome, hx⟩
    obtain ⟨m, rfl⟩ := Option.isSome_iff_exists.1 (hsome (by simpa using haccepted))
    exact (traded_redeemAndSell hask hmargin (hpriced m rfl)).bind
      (fun _ ↦ keeps_iff_triple.1 (hcool 2)) x hx

/-- **`step`**: whatever is answered, it comes to an outcome. -/
theorem hasOutcome_step (O : Outside ω) (x : LoggedState ω) :
    HasOutcome x ((ETFArbEngine.step O.logged).after x) := by
  have hquiet (y : LoggedState ω) (hy : Traded x [] [] y) : HasOutcome x y :=
    ⟨[], [], hy, .failed (by simp) (by simp)⟩
  -- until the prices of the ETF are read, the engine is what it was
  have hbest (symbol : ℤ) (side : MarketData.Side) :
      Triple (fun y : LoggedState ω ↦ Traded x [] [] y ∧ y.1.etfArb = x.1.etfArb)
        (best? symbol side)
        (fun best y ↦ best.map Prod.fst = bestPrice? side symbol x.2 ∧
          Traded x [] [] y ∧ y.1.etfArb = x.1.etfArb) (HasOutcome x) := by
    rintro y ⟨hy, hengine⟩
    have htraded := traded_best? symbol side y hy
    obtain ⟨best, m, hrun, -⟩ := best?_reads symbol side y
    rw [hrun] at htraded ⊢
    exact ⟨htraded.1, htraded.2, hengine⟩
  have hpriced {bid ask : ℤ} (hbid : bestPrice? .buy ETF_SYM x.2 = some bid)
      (hask : bestPrice? .sell ETF_SYM x.2 = some ask) (hpos : 0 < bid ∧ 0 < ask) :
      Triple (fun y : LoggedState ω ↦ Traded x [] [] y ∧ y.1.etfArb = x.1.etfArb)
        (ETFArbEngine.stepPriced O.logged bid ask) (fun _ ↦ HasOutcome x) (HasOutcome x) := by
    refine Triple.bind (m := getStrategy)
      (R := fun s y ↦ s.etfArb = x.1.etfArb ∧ Traded x [] [] y) (fun y hy ↦ hy.symm) fun s ↦
        triple_of_imp fun hengine ↦ ((traded_basketPrices UNDERLYING_SYMS).weaken (fun _ hy ↦ hy)
          (fun _ _ hy ↦ hy) fun _ h ↦ h.elim).bind fun sums ↦ triple_of_imp fun hsums ↦ ?_
    rcases sums with - | ⟨basketAsk, basketBid⟩
    · exact triple_pure _ hquiet
    obtain ⟨rfl, rfl⟩ := Prod.mk.inj (hsums _ rfl)
    dsimp only
    rw [hengine]
    split
    · rename_i hmargin
      exact traded_executeCreateArb hbid hpos.1 hmargin
    split
    · rename_i hmargin
      exact traded_executeRedeemArb hask hpos.2 hmargin
    · exact triple_pure _ hquiet
  have hstep : Triple (fun y ↦ y = x) (ETFArbEngine.step O.logged) (fun _ ↦ HasOutcome x)
      (HasOutcome x) := by
    refine Triple.bind (m := monotonic O.logged)
      (R := fun _ y ↦ Traded x [] [] y ∧ y.1.etfArb = x.1.etfArb) ?_ fun now ↦
      Triple.bind (m := getStrategy)
        (R := fun _ y ↦ Traded x [] [] y ∧ y.1.etfArb = x.1.etfArb) (fun _ hy ↦ hy) fun s ↦ ?_
    · rintro _ rfl
      exact ⟨(Traded.refl _).silent (.of_eq rfl rfl) rfl, rfl⟩
    split
    · exact triple_pure _ fun y hy ↦ hquiet y hy.1
    refine (hbest ETF_SYM .buy).bind fun bid ↦ triple_of_imp fun hbid ↦
      (hbest ETF_SYM .sell).bind fun ask ↦ triple_of_imp fun hask ↦ ?_
    rcases bid with - | bid
    · exact triple_pure _ fun y hy ↦ hquiet y hy.1
    rcases ask with - | ask
    · exact triple_pure _ fun y hy ↦ hquiet y hy.1
    dsimp only
    split
    · exact triple_pure _ fun y hy ↦ hquiet y hy.1
    · rename_i hpos
      rw [not_or, not_le, not_le] at hpos
      exact hpriced hbid.symm hask.symm hpos
  exact triple_iff_after.1 hstep x rfl

end

/-! ### What it earns -/

/-- What orders bring in, and cost, if all of them are filled at their prices. -/
def proceeds (orders : List NewOrder) : ℤ :=
  (orders.map fun m ↦
    if m.side = Side.sell.value then m.price * m.quantity else -(m.price * m.quantity)).sum

/-- What they add to the position of a symbol. -/
def netQuantity (symbol : ℤ) (orders : List NewOrder) : ℤ :=
  (orders.map fun m ↦
    if m.symbol = symbol then if m.side = Side.buy.value then m.quantity else -m.quantity
    else 0).sum

/-- What the ETF service adds to it, as the engine books it. -/
def moved (symbol : ℤ) : RestCall → ℤ
  | .create => if symbol = ETF_SYM then 1 else if symbol ∈ UNDERLYING_SYMS then -1 else 0
  | .redeem => if symbol = ETF_SYM then -1 else if symbol ∈ UNDERLYING_SYMS then 1 else 0

section

variable {x₀ : LoggedState ω} {orders : List NewOrder} {symbols : List ℤ}

/-- Orders behind others add to what they earn. -/
theorem proceeds_append (orders orders' : List NewOrder) :
    proceeds (orders ++ orders') = proceeds orders + proceeds orders' := by
  rw [proceeds, List.map_append, List.sum_append, proceeds, proceeds]

theorem netQuantity_append (symbol : ℤ) (orders orders' : List NewOrder) :
    netQuantity symbol (orders ++ orders') =
      netQuantity symbol orders + netQuantity symbol orders' := by
  rw [netQuantity, List.map_append, List.sum_append, netQuantity, netQuantity]

/-- A basket that is bought costs the best asks. -/
theorem proceeds_bought
    (h : List.Forall₂ (fun symbol m ↦ Priced x₀ symbol .buy m) symbols orders) :
    proceeds orders = -basketPrice .sell symbols x₀.2 := by
  induction h with
  | nil => rfl
  | @cons symbol m symbols orders hm _ ih =>
    have hprice : (bestPrice? .sell symbol x₀.2).getD 0 = m.price := by
      rw [show bestPrice? .sell symbol x₀.2 = some m.price from hm.price]
      rfl
    rw [proceeds, basketPrice] at ih
    rw [proceeds, basketPrice, List.map_cons, List.sum_cons, List.map_cons, List.sum_cons, ih,
      hm.side_eq, hm.quantity, hprice, if_neg (by decide)]
    omega

/-- A basket that is sold brings in the best bids. -/
theorem proceeds_sold
    (h : List.Forall₂ (fun symbol m ↦ Priced x₀ symbol .sell m) symbols orders) :
    proceeds orders = basketPrice .buy symbols x₀.2 := by
  induction h with
  | nil => rfl
  | @cons symbol m symbols orders hm _ ih =>
    have hprice : (bestPrice? .buy symbol x₀.2).getD 0 = m.price := by
      rw [show bestPrice? .buy symbol x₀.2 = some m.price from hm.price]
      rfl
    rw [proceeds, basketPrice] at ih
    rw [proceeds, basketPrice, List.map_cons, List.sum_cons, List.map_cons, List.sum_cons, ih,
      hm.side_eq, hm.quantity, hprice, if_pos rfl, mul_one]

/-- A symbol that is not among them is not traded. -/
theorem netQuantity_of_not_mem {side : Side} {symbol : ℤ}
    (h : List.Forall₂ (fun symbol m ↦ Priced x₀ symbol side m) symbols orders)
    (hsymbol : symbol ∉ symbols) : netQuantity symbol orders = 0 := by
  induction h with
  | nil => rfl
  | @cons symbol' m symbols orders hm _ ih =>
    rw [List.mem_cons, not_or] at hsymbol
    have hrest := ih hsymbol.2
    rw [netQuantity] at hrest
    rw [netQuantity, List.map_cons, List.sum_cons, hrest, hm.symbol_eq,
      if_neg (Ne.symm hsymbol.1), zero_add]

end

/-- **An arbitrage earns its threshold**: each order goes out at the best price that there was when
the ETF was compared with its basket. So whatever the exchange and the ETF service answer, if the
service has done its part and the orders leave no position, then what the orders bring in at these
prices is more than what they cost, by the threshold at least. -/
theorem proceeds_step (O : Outside ω) (x : LoggedState ω) (call : RestCall) :
    let y := (ETFArbEngine.step O.logged).after x
    let orders := OrderEntryClient.submittedSince x.1.client y.1.client
    (∀ m ∈ orders, ∃ symbol side, Priced x symbol side m) ∧
    ((call, .success) ∈ requestsSince x y →
      (∀ symbol ∈ ETF_SYM :: UNDERLYING_SYMS,
          netQuantity symbol orders + moved symbol call = 0) →
        x.1.etfArb.threshold ≤ proceeds orders) := by
  intro y orders
  obtain ⟨orders', requests, htraded, houtcome⟩ := hasOutcome_step O x
  obtain ⟨rfl, hrequests⟩ : orders = orders' ∧ requestsSince x y = requests := htraded.did.since
  rw [hrequests]
  clear htraded hrequests
  generalize orders = orders at houtcome ⊢
  cases houtcome with
  | failed hpriced hfailed => exact ⟨hpriced, fun hsuccess ↦ absurd hsuccess (hfailed call)⟩
  | @created bid bought sold hbid hmargin hbought hsold =>
    refine ⟨List.forall_mem_append.2 ⟨priced_of_forall₂ hbought, fun m hm ↦
      ⟨_, _, hsold m (Option.mem_toList.1 hm)⟩⟩, fun hsuccess hflat ↦ ?_⟩
    rw [List.mem_singleton, Prod.mk.injEq] at hsuccess
    obtain ⟨rfl, -⟩ := hsuccess
    have hetf := hflat ETF_SYM List.mem_cons_self
    rw [netQuantity_append, netQuantity_of_not_mem hbought (by decide), moved, if_pos rfl] at hetf
    -- what has been created is sold
    rcases sold with - | m
    · exact absurd hetf (by decide)
    have hm := hsold m rfl
    have hprice : some m.price = some bid := hm.price.symm.trans hbid
    have hsale : proceeds (Option.toList (some m)) = bid := by
      rw [Option.toList_some, proceeds, List.map_singleton, List.sum_singleton, hm.side_eq,
        if_pos rfl, hm.quantity, mul_one, Option.some.inj hprice]
    rw [proceeds_append, proceeds_bought hbought, hsale]
    omega
  | @redeemed ask bought symbols sold hask hmargin hbought hsold hsub =>
    refine ⟨List.forall_mem_cons.2 ⟨⟨_, _, hbought⟩, priced_of_forall₂ hsold⟩,
      fun hsuccess hflat ↦ ?_⟩
    rw [List.mem_singleton, Prod.mk.injEq] at hsuccess
    obtain ⟨rfl, -⟩ := hsuccess
    -- what the ETF has been redeemed for is sold
    have hall : UNDERLYING_SYMS ⊆ symbols := by
      intro symbol hsymbol
      by_contra hunsold
      have hne : ETF_SYM ≠ symbol := fun h ↦ absurd hsymbol (h ▸ by decide)
      have hleft := hflat symbol (List.mem_cons_of_mem _ hsymbol)
      rw [← List.singleton_append, netQuantity_append, netQuantity_of_not_mem hsold hunsold,
        netQuantity, List.map_singleton, List.sum_singleton, hbought.symbol_eq, if_neg hne, moved,
        if_neg (Ne.symm hne), if_pos hsymbol] at hleft
      exact absurd hleft (by decide)
    have hsymbols : symbols = UNDERLYING_SYMS :=
      hsub.eq_of_length_le (List.subperm_of_subset (by decide) hall).length_le
    subst hsymbols
    have hprice : some bought.price = some ask := hbought.price.symm.trans hask
    have hbuy : proceeds [bought] = -ask := by
      rw [proceeds, List.map_singleton, List.sum_singleton, hbought.side_eq, if_neg (by decide),
        hbought.quantity, mul_one, Option.some.inj hprice]
    rw [← List.singleton_append, proceeds_append, proceeds_sold hsold, hbuy]
    omega

/-- The ETF a hundred above its basket, and an exchange that acknowledges and fills whatever is sent
next. -/
def creating : LoggedState Unit :=
  (.init (OrderEntryClient.init [] [] 7 (-20000) 10
      (some (.connected ((List.range 11).flatMap fun k ↦ Arrival.burst
        [.ack ⟨⟨40, 101, 1, 2 * k + 1, k + 1, 7⟩, 5000000 + k, 901, 1, 100⟩,
          .fill ⟨⟨33, 103, 1, 2 * k + 2, k + 1, 7⟩, 5000000 + k, 1, 100, 2⟩] ++ [.pause]))) [])
    {} ((), []),
    Method.run [OrderBookManager.processNewOrder 1 1 100 ETF_SYM .buy 10 1100 0,
      OrderBookManager.processNewOrder 1 1 101 ETF_SYM .sell 10 1200 0] quotedBasket)

/-- The basket is bought for 1000, and the ETF is sold for 1100. -/
theorem proceeds_step_creating :
    100 ≤ proceeds (OrderEntryClient.submittedSince creating.1.client
      ((ETFArbEngine.step (etfService .success).logged).after creating).1.client) :=
  (proceeds_step (etfService .success) creating .create).2 (by decide +kernel) (by decide +kernel)

end Strategy

end HftTrading
