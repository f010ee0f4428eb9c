import HftTrading.Book.Levels

/-!
# Reading a book, and runs of a book

The reading operations on a consistent book, and then whole runs: any sequence of operations on a
new book, the caller surviving whatever an operation raises.

Reading writes too. `get_best_bid` and `get_best_ask` pop stale prices, so a read is a step of a run
like any other (`getBest_spec`): what it returns is a function of the resting orders (`Best`), and
what it pops has no level.

## One step, and a run

`Op` lists the operations that a caller has, the reads and `validate` among them, and `runOps` is a
run of these. One step keeps a book consistent on both its exits, the normal and the raising one; by
induction a run does. So what is said of a consistent book holds in every state that a run reaches:
a level exists exactly where an order rests, its totals are sums over these orders, and the best
prices are theirs.
-/

namespace HftTrading.OrderBook

open MarketData

/-! ### Reading the best price -/

/-- `r` is the best price of a side and the quantity resting there, or `(0, 0)` when nothing rests
on that side. -/
def Best (os : List Order) (side : Side) (r : ℤ × ℤ) : Prop :=
  (r = (0, 0) ∧ ∀ o ∈ os, o.side ≠ side) ∨
    ((∃ o ∈ os, o.side = side ∧ o.price = r.1) ∧ r.2 = totalAt os side r.1 ∧
      ∀ o ∈ os, o.side = side → heapPrice side r.1 ≤ heapPrice side o.price)

theorem Best.unique {os : List Order} {side : Side} {r r' : ℤ × ℤ} (h : Best os side r)
    (h' : Best os side r') : r = r' := by
  rcases h with ⟨rfl, hnone⟩ | ⟨⟨o, ho, hside, hprice⟩, htotal, hbest⟩
  · rcases h' with ⟨rfl, -⟩ | ⟨⟨o, ho, hside, -⟩, -⟩
    · rfl
    · exact absurd hside (hnone o ho)
  · rcases h' with ⟨-, hnone⟩ | ⟨⟨o', ho', hside', hprice'⟩, htotal', hbest'⟩
    · exact absurd hside (hnone o ho)
    · have hle := hbest o' ho' hside'
      have hge := hbest' o ho hside
      rw [hprice'] at hle
      rw [hprice] at hge
      have hfst : r.1 = r'.1 := heapPrice_injective side (le_antisymm hle hge)
      exact Prod.ext hfst (by rw [htotal, htotal', hfst])

theorem Consistent.contains_iff {b : OrderBook} (h : b.Consistent) (side : Side) (price : ℤ) :
    (b.levels side).contains price = true ↔
      ∃ o ∈ b.orders.values, o.side = side ∧ o.price = price := by
  have hnone : tallyAt b.orders.values side price = none ↔ _ := Tally.tally_eq_none_iff
  rw [Dict.contains, h.levels_eq, Option.isSome_map, ← Option.ne_none_iff_isSome, ne_eq, hnone]
  simp [levelKey]

theorem Consistent.clearTop {b : OrderBook} (h : b.Consistent) (side : Side) :
    Leaves b b.orders b.totalVolume (b.clearTop side) := by
  refine ⟨by simp [OrderBook.clearTop], by simp [OrderBook.clearTop],
    by simp [OrderBook.clearTop], ⟨?_, ?_⟩⟩
  · simpa [OrderBook.clearTop] using h.levels_eq
  · intro s p hc
    have hc' : (b.levels s).contains p = true := by simpa [OrderBook.clearTop] using hc
    rw [OrderBook.clearTop, heap_setHeap]
    split
    · rename_i hs
      subst hs
      refine MinHeap.mem_popWhile_of_not (h.heap_covers s p hc') ?_
      rw [heapPrice_heapPrice, hc']
      rfl
    · exact h.heap_covers s p hc'

/-- **Reading the best price returns it**, whatever the heap has gathered, and changes neither the
orders nor the levels. -/
theorem getBest_spec {b : OrderBook} (h : b.Consistent) (side : Side) :
    ∃ r b', getBest side b = .ok r b' ∧ Best b.orders.values side r ∧
      Leaves b b.orders b.totalVolume b' ∧ b'.levels = b.levels := by
  have hclear := h.clearTop side
  have hlevels : (b.clearTop side).levels = b.levels := by simp [OrderBook.clearTop]
  have htop : ((b.clearTop side).heap side) =
      (b.heap side).popWhile fun p ↦ !(b.levels side).contains (heapPrice side p) := by
    rw [OrderBook.clearTop, heap_setHeap, if_pos rfl]
  unfold getBest
  simp only [hlevels, htop]
  rcases hp : ((b.heap side).popWhile fun p ↦
    !(b.levels side).contains (heapPrice side p)).peek? with - | top
  -- nothing live on the heap: no level, so no order on this side
  · refine ⟨_, _, rfl, Or.inl ⟨rfl, fun o ho hs ↦ ?_⟩, hclear, hlevels⟩
    have hc := (h.contains_iff side o.price).2 ⟨o, ho, hs, rfl⟩
    have hstale := MinHeap.peek?_popWhile_eq_none_iff.1 hp _ (h.heap_covers side o.price hc)
    rw [heapPrice_heapPrice, hc] at hstale
    exact absurd hstale (by simp)
  -- the top is the least live price
  · obtain ⟨-, hlive, hmin⟩ := MinHeap.peek?_popWhile_eq_some hp
    have hc : (b.levels side).contains (heapPrice side top) = true := by simpa using hlive
    obtain ⟨level, hlevel⟩ := Dict.contains_eq_true_iff.1 hc
    have htotal : level.totalQty = totalAt b.orders.values side (heapPrice side top) := by
      rw [h.levels_eq, Option.map_eq_some_iff] at hlevel
      obtain ⟨e, he, rfl⟩ := hlevel
      exact Tally.total_of_tally he
    simp only [hlevel]
    refine ⟨_, _, rfl, Or.inr ⟨?_, htotal, fun o ho hs ↦ ?_⟩, hclear, hlevels⟩
    · exact (h.contains_iff side _).1 hc
    · have hco := (h.contains_iff side o.price).2 ⟨o, ho, hs, rfl⟩
      rw [heapPrice_heapPrice]
      refine hmin _ (h.heap_covers side o.price hco) ?_
      rw [heapPrice_heapPrice, hco]
      rfl

/-! ### `validate` -/

/-- The level checks only read. -/
theorem checkLevels_after (side : Side) (l : List (ℤ × PriceLevel)) (b : OrderBook) :
    (checkLevels side l).after b = b := by
  induction l with
  | nil => rfl
  | cons e l ih =>
    by_cases hqty : e.2.totalQty ≤ 0
    · exact Method.after_error (if_pos hqty)
    by_cases hcount : e.2.orderCount ≤ 0
    · exact Method.after_error ((if_neg hqty).trans (if_pos hcount))
    · have hrest : checkLevels side (e :: l) b = checkLevels side l b :=
        (if_neg hqty).trans (if_neg hcount)
      rw [Method.after, hrest]
      exact ih

/-- They return where every level has a positive total and a positive count. -/
theorem checkLevels_ok {side : Side} {l : List (ℤ × PriceLevel)} (b : OrderBook)
    (h : ∀ e ∈ l, 0 < e.2.totalQty ∧ 0 < e.2.orderCount) : checkLevels side l b = .ok () b := by
  induction l with
  | nil => rfl
  | cons e l ih =>
    obtain ⟨hqty, hcount⟩ := h e List.mem_cons_self
    refine (if_neg (not_le.2 hqty)).trans ((if_neg (not_le.2 hcount)).trans ?_)
    exact ih fun e' he' ↦ h e' (List.mem_cons_of_mem _ he')

/-- The order checks return where every order has a level. -/
theorem checkOrders_ok {l : List (ℤ × Order)} {b : OrderBook}
    (h : ∀ e ∈ l, (b.levels e.2.side).contains e.2.price = true) :
    checkOrders l b = .ok () b := by
  induction l with
  | nil => rfl
  | cons e l ih =>
    refine (if_pos (h e List.mem_cons_self)).trans ?_
    exact ih fun e' he' ↦ h e' (List.mem_cons_of_mem _ he')

theorem Consistent.checkOrders_ok {b : OrderBook} (h : b.Consistent) :
    checkOrders b.orders.entries b = .ok () b :=
  OrderBook.checkOrders_ok fun e he ↦ (h.contains_iff _ _).2
    ⟨e.2, List.mem_map.2 ⟨e, he, rfl⟩, rfl, rfl⟩

/-- `validate` reads the best prices, which may clean the heaps, and from there on only checks. -/
theorem validate_run {b : OrderBook} (h : b.Consistent) :
    ∃ bid ask b', Best b.orders.values .buy bid ∧ Best b.orders.values .sell ask ∧
      Leaves b b.orders b.totalVolume b' ∧ b'.levels = b.levels ∧
      validate b =
        (if bid.1 > 0 ∧ ask.1 > 0 ∧ bid.1 ≥ ask.1 then throw (.crossed b'.symbol bid.1 ask.1)
        else (do
          checkLevels .sell b'.askLevels.entries
          checkLevels .buy b'.bidLevels.entries
          checkOrders b'.orders.entries) : Method FeedError OrderBook Unit) b' := by
  obtain ⟨bid, b₁, hbid, hbest, hl₁, hlev₁⟩ := getBest_spec h .buy
  obtain ⟨ask, b₂, hask, hbest', hl₂, hlev₂⟩ := getBest_spec hl₁.consistent .sell
  rw [hl₁.orders_eq] at hbest' hl₂
  refine ⟨bid, ask, b₂, hbest, hbest', hl₁.trans hl₂, hlev₂.trans hlev₁, ?_⟩
  unfold validate
  rw [Method.bind_ok (show getBestBid b = .ok bid b₁ from hbid),
    Method.bind_ok (show getBestAsk b₁ = .ok ask b₂ from hask),
    Method.bind_ok (Method.get_apply b₂)]

/-- `validate` only reads. It returns when the best prices are not crossed and every level has a
positive total; the level counts and the levels of the orders it checks too are always right. -/
theorem validate_spec {b : OrderBook} (h : b.Consistent) :
    ∃ b', validate.after b = b' ∧ Leaves b b.orders b.totalVolume b' ∧ b'.levels = b.levels ∧
      (∀ bid ask, Best b.orders.values .buy bid → Best b.orders.values .sell ask →
        ¬ (bid.1 > 0 ∧ ask.1 > 0 ∧ bid.1 ≥ ask.1) →
        (∀ o ∈ b.orders.values, 0 < totalAt b.orders.values o.side o.price) →
        validate b = .ok () b') := by
  obtain ⟨bid, ask, b₂, hbest, hbest', hl₂, hlev, hrun⟩ := validate_run h
  have hlevelsOk : (∀ o ∈ b.orders.values, 0 < totalAt b.orders.values o.side o.price) →
      ∀ side, ∀ e ∈ (b₂.levels side).entries, 0 < e.2.totalQty ∧ 0 < e.2.orderCount := by
    intro hpos side e he
    have hget : (b₂.levels side).get? e.1 = some e.2 := Dict.get?_eq_some_iff.2 he
    rw [hlev] at hget
    obtain ⟨o, ho, hside, hprice⟩ := (h.contains_iff side e.1).1 (by simp [Dict.contains, hget])
    rw [h.levels_eq, Option.map_eq_some_iff] at hget
    obtain ⟨t, ht, hte⟩ := hget
    have htotal := Tally.total_of_tally ht
    have hcount := Tally.one_le_count ht
    have ho' := hpos o ho
    rw [hside, hprice] at ho'
    rw [← hte]
    refine ⟨?_, hcount⟩
    show 0 < t.total
    rw [htotal]
    exact ho'
  refine ⟨b₂, ?_, hl₂, hlev, ?_⟩
  · have hkeeps : ∀ l side, Method.Keeps (· = b₂) (checkLevels side l) := by
      rintro l side s rfl
      exact checkLevels_after side l s
    have hlast : (checkOrders b₂.orders.entries).after b₂ = b₂ :=
      Method.after_ok hl₂.consistent.checkOrders_ok
    have hchecks := (hkeeps b₂.askLevels.entries .sell).bind fun _ ↦
      (hkeeps b₂.bidLevels.entries .buy).bind fun _ ↦
        (show Method.Keeps (· = b₂) (checkOrders b₂.orders.entries) from
          fun s hs ↦ by subst hs; exact hlast)
    rw [Method.after, hrun]
    split_ifs
    · rfl
    · exact hchecks b₂ rfl
  · intro r r' hr hr' hcross hpos
    obtain rfl := hr.unique hbest
    obtain rfl := hr'.unique hbest'
    have hsell : checkLevels .sell b₂.askLevels.entries b₂ = .ok () b₂ :=
      checkLevels_ok b₂ (hlevelsOk hpos .sell)
    have hbuy : checkLevels .buy b₂.bidLevels.entries b₂ = .ok () b₂ :=
      checkLevels_ok b₂ (hlevelsOk hpos .buy)
    rw [hrun, if_neg hcross]
    exact (Method.bind_ok hsell).trans
      ((Method.bind_ok hbuy).trans hl₂.consistent.checkOrders_ok)

/-- Crossed best prices are raised. -/
theorem validate_of_crossed {b : OrderBook} (h : b.Consistent) {bid ask : ℤ × ℤ}
    (hbid : Best b.orders.values .buy bid) (hask : Best b.orders.values .sell ask)
    (hcross : bid.1 > 0 ∧ ask.1 > 0 ∧ bid.1 ≥ ask.1) :
    ∃ b', validate b = .error (.crossed b.symbol bid.1 ask.1) b' := by
  obtain ⟨bid', ask', b', hbid', hask', hl, -, hrun⟩ := validate_run h
  obtain rfl := hbid.unique hbid'
  obtain rfl := hask.unique hask'
  rw [if_pos hcross, hl.symbol_eq] at hrun
  exact ⟨b', hrun⟩

/-! ### Runs -/

/-- A call on a book, with its arguments. -/
inductive Op
  | addOrder (orderId symbol : ℤ) (side : Side) (qty price timestamp : ℤ)
  | deleteOrder (orderId : ℤ)
  | tradeOrder (orderId qty price : ℤ)
  | modifyOrder (orderId : ℤ) (side : Side) (qty price : ℤ)
  | clear
  | getBestBid
  | getBestAsk
  | validate

/-- Make a call, and forget what it returns. -/
def Op.call : Op → Method FeedError OrderBook Unit
  | .addOrder orderId symbol side qty price timestamp =>
    OrderBook.addOrder orderId symbol side qty price timestamp
  | .deleteOrder orderId => OrderBook.deleteOrder orderId
  | .tradeOrder orderId qty price => OrderBook.tradeOrder orderId qty price
  | .modifyOrder orderId side qty price => OrderBook.modifyOrder orderId side qty price
  | .clear => modify OrderBook.clear
  | .getBestBid => do let _ ← OrderBook.getBestBid
  | .getBestAsk => do let _ ← OrderBook.getBestAsk
  | .validate => OrderBook.validate

/-- The book a sequence of calls leaves, whichever of them raise. -/
def runOps (ops : List Op) (b : OrderBook) : OrderBook := Method.run (ops.map Op.call) b

/-- Reading a best price keeps the book consistent, although it rewrites a heap. -/
theorem keeps_getBest (side : Side) : Method.Keeps Consistent (getBest side) := by
  intro b h
  obtain ⟨r, b', hget, -, hl, -⟩ := getBest_spec h side
  rw [Method.after_ok hget]
  exact hl.consistent

/-- **Every operation keeps a book consistent**, on its normal and on its raising exits. -/
theorem Op.keeps_consistent (op : Op) : Method.Keeps Consistent op.call := by
  intro b h
  cases op with
  | addOrder orderId symbol side qty price timestamp =>
    obtain ⟨_, hl, -⟩ := addOrder_after h orderId symbol side qty price timestamp
    exact hl.consistent
  | deleteOrder orderId => exact (deleteOrder_after h orderId).consistent
  | tradeOrder orderId qty price =>
    obtain ⟨_, _, hl, -⟩ := tradeOrder_after h orderId qty price
    exact hl.consistent
  | modifyOrder orderId side qty price =>
    obtain ⟨_, _, hl, -⟩ := modifyOrder_after h orderId side qty price
    exact hl.consistent
  | clear => exact consistent_clear b
  | getBestBid => exact (keeps_getBest .buy).bind (fun _ ↦ Method.keeps_pure ()) b h
  | getBestAsk => exact (keeps_getBest .sell).bind (fun _ ↦ Method.keeps_pure ()) b h
  | validate =>
    obtain ⟨b', hval, hl, -⟩ := validate_spec h
    rw [Op.call, hval]
    exact hl.consistent

/-- **Whatever is run** on a new book, returning or raising, the book is consistent. -/
theorem consistent_runOps (symbol : ℤ) (ops : List Op) : (runOps ops (init symbol)).Consistent := by
  refine Method.run_keeps (fun m hm ↦ ?_) (consistent_init symbol)
  obtain ⟨op, -, rfl⟩ := List.mem_map.1 hm
  exact op.keeps_consistent

/-- The orders resting at a side and price. -/
def restingAt (b : OrderBook) (side : Side) (price : ℤ) : List Order :=
  b.orders.values.filter fun o ↦ o.side = side ∧ o.price = price

/-- The orders at a place are the group of that place. -/
theorem restingAt_eq (b : OrderBook) (side : Side) (price : ℤ) :
    b.restingAt side price = Tally.group levelKey b.orders.values (side, price) := by
  unfold restingAt Tally.group
  refine List.filter_congr fun o _ ↦ ?_
  simp [levelKey]

/-- Their quantities add up to the total of the place. -/
theorem totalAt_eq (b : OrderBook) (side : Side) (price : ℤ) :
    totalAt b.orders.values side price = ((b.restingAt side price).map Order.quantity).sum := by
  rw [restingAt_eq, totalAt, Tally.total]

/-- What it means for every level of a book to be right. -/
theorem Consistent.level_iff {b : OrderBook} (h : b.Consistent) (side : Side) (price : ℤ)
    (level : PriceLevel) :
    (b.levels side).get? price = some level ↔
      b.restingAt side price ≠ [] ∧
        level = ⟨price, ((b.restingAt side price).map Order.quantity).sum,
          (b.restingAt side price).length⟩ := by
  rw [h.levels_eq, ← totalAt_eq, restingAt_eq, tallyAt, Tally.tally, totalAt]
  split
  · rename_i hnil
    simp [hnil]
  · rename_i hnil
    simp [hnil, levelOf, eq_comm]

/-- **In every state a run reaches, levels and best prices are functions of the resting orders.** A
level exists exactly where an order rests, with the orders' total and number; the best bid is the
highest buy price and the best ask the lowest sell price, each with the quantity resting there, and
`(0, 0)` on a side without orders. -/
theorem runOps_levels_and_best (symbol : ℤ) (ops : List Op) :
    let b := runOps ops (init symbol)
    (∀ side price,
      (((b.levels side).get? price).isSome ↔
        ∃ o ∈ b.orders.values, o.side = side ∧ o.price = price) ∧
      ∀ level, (b.levels side).get? price = some level →
        level.totalQty = ((b.restingAt side price).map Order.quantity).sum ∧
        level.orderCount = (b.restingAt side price).length) ∧
    (∃ price qty b', getBestBid b = .ok (price, qty) b' ∧
      ((price, qty) = (0, 0) ∧ (∀ o ∈ b.orders.values, o.side ≠ .buy) ∨
        (∃ o ∈ b.orders.values, o.side = .buy ∧ o.price = price) ∧
        (∀ o ∈ b.orders.values, o.side = .buy → o.price ≤ price) ∧
        qty = ((b.restingAt .buy price).map Order.quantity).sum)) ∧
    (∃ price qty b', getBestAsk b = .ok (price, qty) b' ∧
      ((price, qty) = (0, 0) ∧ (∀ o ∈ b.orders.values, o.side ≠ .sell) ∨
        (∃ o ∈ b.orders.values, o.side = .sell ∧ o.price = price) ∧
        (∀ o ∈ b.orders.values, o.side = .sell → price ≤ o.price) ∧
        qty = ((b.restingAt .sell price).map Order.quantity).sum)) := by
  intro b
  have h : b.Consistent := consistent_runOps symbol ops
  refine ⟨fun side price ↦ ⟨?_, fun level hlevel ↦ ?_⟩, ?_, ?_⟩
  · exact h.contains_iff side price
  · obtain ⟨-, rfl⟩ := (h.level_iff side price level).1 hlevel
    exact ⟨rfl, rfl⟩
  · obtain ⟨⟨price, qty⟩, b', hget, hbest, -⟩ := getBest_spec h .buy
    refine ⟨price, qty, b', hget, hbest.imp id ?_⟩
    rintro ⟨hrests, htotal, hle⟩
    refine ⟨hrests, fun o ho hs ↦ ?_, htotal.trans (totalAt_eq b .buy price)⟩
    have hneg : -price ≤ -o.price := hle o ho hs
    omega
  · obtain ⟨⟨price, qty⟩, b', hget, hbest, -⟩ := getBest_spec h .sell
    refine ⟨price, qty, b', hget, hbest.imp id ?_⟩
    rintro ⟨hrests, htotal, hle⟩
    exact ⟨hrests, hle, htotal.trans (totalAt_eq b .sell price)⟩

end HftTrading.OrderBook
