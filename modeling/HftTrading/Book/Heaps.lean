import HftTrading.Book.Fills
import Mathlib.Data.Finset.Card

/-!
# What the heaps gather

`add_order` pushes a price when its level appears, and asks only the levels: the heap may still hold
the price from an earlier time, since the prices of levels that are gone are popped off the top
alone, and only when a best price is read. A price whose level comes back under a better one is then
on the heap twice.

`Op.Pushes` says when an operation pushes, from the resting orders. Every operation pushes that
price or takes prices out (`Op.heap_after`), so a heap is free of repetitions, and no longer than
the list of prices ever added, as long as nothing is pushed that is on it already
(`runOps_nodup_iff`).

## What is compared

The heap is a list of prices in some order, and only which prices it holds, and how often, is spoken
of. The prices ever added on a side are read off the run, from what each operation finds in the book
(`addedPrices`); a modification adds its order again under the new price. The condition asks of each
operation in turn that it does not push a price that the heap of its side still holds
(`Op.Repushes`), so it is a condition on the state before each operation and not on the result.
-/

namespace HftTrading.OrderBook

open MarketData

/-! ### When a price is pushed -/

/-- The order that an operation adds, if it gets to it: the orders that rest by then, and the side
and the price of the new one. -/
def Op.adds (d : Dict ℤ Order) : Op → Option (Dict ℤ Order × Side × ℤ)
  | .addOrder orderId _ side qty price _ =>
    if d.contains orderId ∨ qty ≤ 0 then none else some (d, side, price)
  | .modifyOrder orderId side qty price =>
    (d.get? orderId).bind fun o ↦
      if totalAt (d.erase orderId).values o.side o.price < 0 ∨ qty ≤ 0 then none
      else some (d.erase orderId, side, price)
  | _ => none

/-- The operation adds an order where no other rests. -/
def Op.Pushes (d : Dict ℤ Order) (side : Side) (price : ℤ) (op : Op) : Prop :=
  ∃ d', op.adds d = some (d', side, price) ∧ ∀ o ∈ d'.values, ¬ (o.side = side ∧ o.price = price)

/-- The operation pushes a price that is on the heap already. -/
def Op.Repushes (b : OrderBook) (op : Op) : Prop :=
  ∃ side price, op.Pushes b.orders side price ∧ heapPrice side price ∈ b.heap side

/-- The prices that a run adds orders at, on a side. -/
def addedPrices (side : Side) : List Op → OrderBook → List ℤ
  | [], _ => []
  | op :: ops, b =>
    ((op.adds b.orders).elim [] fun new ↦ if new.2.1 = side then [new.2.2] else []) ++
      addedPrices side ops (op.call.after b)

/-! ### What an operation does to a heap -/

/-- `delete_order` leaves the heaps alone, on every exit. -/
theorem heap_deleteOrder (orderId : ℤ) (b : OrderBook) :
    ((deleteOrder orderId).after b).heap = b.heap := by
  unfold Method.after deleteOrder
  rcases b.orders.get? orderId with - | o
  · rfl
  · simp only [levels_setOrders]
    rcases (b.levels o.side).get? o.price with - | level
    · exact heap_setOrders b _
    · dsimp only
      split_ifs <;> simp

/-- `trade_order` too. -/
theorem heap_tradeOrder (orderId qty price : ℤ) (b : OrderBook) :
    ((tradeOrder orderId qty price).after b).heap = b.heap := by
  unfold Method.after tradeOrder
  rcases b.orders.get? orderId with - | o
  · rfl
  · dsimp only
    rcases (b.levels o.side).get? o.price with - | level
    · rfl
    · dsimp only
      split_ifs <;> simp

/-- A refused order leaves the book as it is. -/
theorem after_addOrder_of_refused {b : OrderBook} (h : b.Consistent) {orderId symbol : ℤ}
    {side : Side} {qty price timestamp : ℤ}
    (hrefused : b.orders.contains orderId = true ∨ qty ≤ 0) :
    (addOrder orderId symbol side qty price timestamp).after b = b := by
  rcases addOrder_spec h orderId symbol side qty price timestamp with
    ⟨-, herror⟩ | ⟨-, -, herror⟩ | ⟨hnone, hqty, -⟩
  · exact Method.after_error herror
  · exact Method.after_error herror
  · rcases hrefused with hdup | hle
    · rw [Dict.contains, hnone] at hdup
      cases hdup
    · omega

/-- An accepted order pushes its price where no other rests, and else leaves the heaps alone. -/
theorem heap_addOrder {b : OrderBook} (h : b.Consistent) {orderId symbol : ℤ} {side : Side}
    {qty price timestamp : ℤ} (haccepted : ¬ (b.orders.contains orderId = true ∨ qty ≤ 0))
    (s : Side) :
    ((addOrder orderId symbol side qty price timestamp).after b).heap s =
      if s = side ∧ ∀ o ∈ b.orders.values, ¬ (o.side = side ∧ o.price = price) then
        (b.heap s).push (heapPrice side price)
      else b.heap s := by
  obtain ⟨hdup, hqty⟩ := not_or.1 haccepted
  have hlevel := h.contains_iff side price
  unfold Method.after addOrder
  rw [if_neg hdup, if_neg hqty]
  simp only [levels_setOrders]
  rcases hget : (b.levels side).get? price with - | level
  -- no level, so no order at this price
  · have hnone : ∀ o ∈ b.orders.values, ¬ (o.side = side ∧ o.price = price) := by
      intro o ho hat
      have hc := hlevel.2 ⟨o, ho, hat⟩
      rw [Dict.contains, hget] at hc
      cases hc
    rw [heap_setHeap, heap_setLevels, heap_setOrders]
    by_cases hs : s = side
    · rw [if_pos hs, if_pos ⟨hs, hnone⟩, hs]
    · rw [if_neg hs, if_neg fun hboth ↦ hs hboth.1]
  -- a level, and so an order
  · have hc : (b.levels side).contains price = true := by rw [Dict.contains, hget]; rfl
    obtain ⟨o, ho, hat⟩ := hlevel.1 hc
    rw [heap_setLevels, heap_setOrders, if_neg fun hboth ↦ hboth.2 o ho hat]

/-- What an operation does to the heap of a side: it pushes a price, or takes prices out. -/
def HeapStep (op : Op) (b b' : OrderBook) (side : Side) : Prop :=
  (∃ price, op.Pushes b.orders side price ∧
      b'.heap side = (b.heap side).push (heapPrice side price)) ∨
    ((∀ price, ¬ op.Pushes b.orders side price) ∧
      (b'.heap side).elems.Sublist (b.heap side).elems)

/-- An operation that adds no order, and takes prices out at the most. -/
theorem HeapStep.of_adds_none {op : Op} {b b' : OrderBook} {side : Side}
    (hnone : op.adds b.orders = none)
    (hsub : (b'.heap side).elems.Sublist (b.heap side).elems) : HeapStep op b b' side := by
  refine .inr ⟨fun price ⟨d', hadds, _⟩ ↦ ?_, hsub⟩
  rw [hnone] at hadds
  cases hadds

/-- An operation that adds an order: the heap of its side is pushed if no other rests there. -/
theorem HeapStep.of_adds_some {op : Op} {b b' : OrderBook} {d' : Dict ℤ Order} {side : Side}
    {price : ℤ} (hadds : op.adds b.orders = some (d', side, price))
    (hheap : ∀ s, b'.heap s =
      if s = side ∧ ∀ o ∈ d'.values, ¬ (o.side = side ∧ o.price = price) then
        (b.heap s).push (heapPrice side price)
      else b.heap s) (s : Side) : HeapStep op b b' s := by
  by_cases hpush : s = side ∧ ∀ o ∈ d'.values, ¬ (o.side = side ∧ o.price = price)
  · refine .inl ⟨price, ⟨d', hpush.1 ▸ hadds, hpush.1 ▸ hpush.2⟩, ?_⟩
    rw [hheap, if_pos hpush, hpush.1]
  · refine .inr ⟨fun price' ⟨d'', hadds', hfree⟩ ↦ ?_, ?_⟩
    -- the side and the price are those of the order added
    · rw [hadds] at hadds'
      cases hadds'
      exact hpush ⟨rfl, hfree⟩
    · rw [hheap, if_neg hpush]

/-- Reading a best price takes prices out of the heap of its side. -/
theorem heap_getBest {b : OrderBook} (h : b.Consistent) (side s : Side) :
    (((getBest side).after b).heap s).elems.Sublist (b.heap s).elems := by
  obtain ⟨r, b', hget, -⟩ := getBest_spec h side
  have hafter : (getBest side).after b = b.clearTop side := by
    rw [Method.after_ok hget]
    unfold getBest at hget
    dsimp only at hget
    split at hget
    · cases hget
      rfl
    · split at hget
      · cases hget
      · cases hget
        rfl
  rw [hafter, clearTop, heap_setHeap]
  split
  · rename_i hs
    rw [hs]
    exact MinHeap.popWhile_sublist _ _
  · exact List.Sublist.refl _

theorem checkOrders_after (l : List (ℤ × Order)) (b : OrderBook) : (checkOrders l).after b = b := by
  induction l with
  | nil => rfl
  | cons e l ih =>
    by_cases hlevel : (b.levels e.2.side).contains e.2.price = true
    · have hrest : checkOrders (e :: l) b = checkOrders l b := if_pos hlevel
      rw [Method.after, hrest]
      exact ih
    · exact Method.after_error (if_neg hlevel)

/-- `validate` reads both best prices, and nothing else of it touches the heaps. -/
theorem heap_validate {b : OrderBook} (h : b.Consistent) (s : Side) :
    ((validate.after b).heap s).elems.Sublist (b.heap s).elems := by
  have hbest (side : Side) : Method.Keeps
      (fun b' ↦ b'.Consistent ∧ (b'.heap s).elems.Sublist (b.heap s).elems) (getBest side) :=
    fun b' h' ↦ ⟨keeps_getBest side b' h'.1, (heap_getBest h'.1 side s).trans h'.2⟩
  have hlevels (side : Side) (l : List (ℤ × PriceLevel)) : Method.Keeps
      (fun b' ↦ b'.Consistent ∧ (b'.heap s).elems.Sublist (b.heap s).elems) (checkLevels side l) :=
    fun b' h' ↦ by rwa [checkLevels_after]
  have horders (l : List (ℤ × Order)) : Method.Keeps
      (fun b' ↦ b'.Consistent ∧ (b'.heap s).elems.Sublist (b.heap s).elems) (checkOrders l) :=
    fun b' h' ↦ by rwa [checkOrders_after]
  have hvalidate : Method.Keeps
      (fun b' ↦ b'.Consistent ∧ (b'.heap s).elems.Sublist (b.heap s).elems) validate := by
    refine (hbest .buy).bind fun bid ↦ (hbest .sell).bind fun ask ↦
      Method.keeps_get.bind fun b' ↦ ?_
    split
    · exact Method.keeps_throw _
    · exact (hlevels .sell _).bind fun _ ↦ (hlevels .buy _).bind fun _ ↦ horders _
  exact (hvalidate b ⟨h, List.Sublist.refl _⟩).2

/-- A modification is a removal, which leaves the heaps alone, and an order added to what rests
without the old one. -/
theorem heapStep_modifyOrder {b : OrderBook} (h : b.Consistent) (orderId : ℤ) (side' : Side)
    (qty price : ℤ) (side : Side) :
    HeapStep (.modifyOrder orderId side' qty price) b
      ((modifyOrder orderId side' qty price).after b) side := by
  rcases ho : b.orders.get? orderId with - | o
  · refine .of_adds_none (by rw [Op.adds, ho]; rfl) ?_
    rw [Method.after_error (modifyOrder_of_not_mem side' qty price ho)]
  obtain ⟨b₁, hleaves, hdelete⟩ := deleteOrder_spec h ho
  have hrun : modifyOrder orderId side' qty price b =
      (deleteOrder orderId >>= fun _ ↦
        addOrder orderId o.symbol side' qty price o.timestamp) b := by
    unfold modifyOrder
    simp only [ho]
  have hheap : b₁.heap = b.heap := by
    rw [← heap_deleteOrder orderId b, Method.after, hdelete]
    split_ifs <;> rfl
  by_cases hneg : totalAt (b.orders.erase orderId).values o.side o.price < 0
  -- the order is gone, and none comes
  · refine .of_adds_none (by rw [Op.adds, ho]; exact if_pos (.inl hneg)) ?_
    rw [if_pos hneg] at hdelete
    rw [Method.after_error (hrun.trans (Method.bind_error hdelete)), hheap]
  rw [if_neg hneg] at hdelete
  have hafter : (modifyOrder orderId side' qty price).after b =
      (addOrder orderId o.symbol side' qty price o.timestamp).after b₁ :=
    Method.after_congr (hrun.trans (Method.bind_ok hdelete))
  have hfree : ¬ b₁.orders.contains orderId = true := by
    rw [hleaves.orders_eq, Dict.contains, Dict.get?_erase_self]
    exact Bool.false_ne_true
  by_cases hqty : qty ≤ 0
  -- the order is gone, and the new one is refused
  · refine .of_adds_none (by rw [Op.adds, ho]; exact if_pos (.inr hqty)) ?_
    rw [hafter, after_addOrder_of_refused hleaves.consistent (.inr hqty), hheap]
  · have hadds : (Op.modifyOrder orderId side' qty price).adds b.orders =
        some (b.orders.erase orderId, side', price) := by
      rw [Op.adds, ho]
      exact if_neg (not_or.2 ⟨hneg, hqty⟩)
    refine .of_adds_some hadds (fun s ↦ ?_) side
    rw [hafter, heap_addOrder hleaves.consistent (not_or.2 ⟨hfree, hqty⟩),
      hleaves.orders_eq, hheap]

/-- **One operation** pushes a price where it adds an order and no other rests, or takes prices out
at the most. -/
theorem Op.heap_after {b : OrderBook} (h : b.Consistent) (op : Op) (side : Side) :
    HeapStep op b (op.call.after b) side := by
  cases op with
  | addOrder orderId symbol side' qty price timestamp =>
    by_cases hbad : b.orders.contains orderId = true ∨ qty ≤ 0
    · refine .of_adds_none (if_pos hbad) ?_
      rw [Op.call, after_addOrder_of_refused h hbad]
    · have hadds : (Op.addOrder orderId symbol side' qty price timestamp).adds b.orders =
          some (b.orders, side', price) := if_neg hbad
      exact .of_adds_some hadds (heap_addOrder h hbad) side
  | deleteOrder orderId =>
    refine .of_adds_none rfl ?_
    rw [Op.call, heap_deleteOrder]
  | tradeOrder orderId qty price =>
    refine .of_adds_none rfl ?_
    rw [Op.call, heap_tradeOrder]
  | modifyOrder orderId side' qty price =>
    exact heapStep_modifyOrder h orderId side' qty price side
  | clear =>
    refine .of_adds_none rfl ?_
    cases side with
    | buy => exact List.nil_sublist _
    | sell => exact List.nil_sublist _
  | getBestBid =>
    refine .of_adds_none rfl ?_
    rw [Op.call, Method.after_bind_pure]
    exact heap_getBest h .buy side
  | getBestAsk =>
    refine .of_adds_none rfl ?_
    rw [Op.call, Method.after_bind_pure]
    exact heap_getBest h .sell side
  | validate =>
    exact .of_adds_none rfl (heap_validate h side)

/-! ### Runs -/

/-- The prices that a run adds, stretch by stretch. -/
theorem addedPrices_append (side : Side) (ops ops' : List Op) (b : OrderBook) :
    addedPrices side (ops ++ ops') b =
      addedPrices side ops b ++ addedPrices side ops' (runOps ops b) := by
  induction ops generalizing b with
  | nil => rfl
  | cons op ops ih =>
    rw [List.cons_append, addedPrices, ih, addedPrices, List.append_assoc]
    rfl

/-- What is pushed is added. -/
theorem Op.Pushes.mem_addedPrices {b : OrderBook} {side : Side} {price : ℤ} {op : Op}
    (h : op.Pushes b.orders side price) : price ∈ addedPrices side [op] b := by
  obtain ⟨d', hadds, -⟩ := h
  rw [addedPrices, hadds, Option.elim, if_pos rfl]
  exact List.mem_append_left _ List.mem_cons_self

/-- **Whatever is run**, a heap holds prices that orders were added at, and no others. -/
theorem mem_heap_runOps (symbol : ℤ) (ops : List Op) {side : Side} {x : ℤ}
    (hx : x ∈ (runOps ops (init symbol)).heap side) :
    heapPrice side x ∈ addedPrices side ops (init symbol) := by
  induction ops using List.reverseRecOn with
  | nil =>
    cases side with
    | buy => exact absurd hx List.not_mem_nil
    | sell => exact absurd hx List.not_mem_nil
  | append_singleton ops op ih =>
    rw [addedPrices_append]
    rw [runOps_append] at hx
    rcases op.heap_after (consistent_runOps symbol ops) side with
      ⟨price, hpushes, hheap⟩ | ⟨-, hsub⟩
    · rw [hheap, MinHeap.mem_push] at hx
      rcases hx with rfl | hx
      · rw [heapPrice_heapPrice]
        exact List.mem_append_right _ hpushes.mem_addedPrices
      · exact List.mem_append_left _ (ih hx)
    · exact List.mem_append_left _ (ih (hsub.subset hx))

/-- A heap without repetitions is no longer than the prices ever added are many. -/
theorem length_heap_le (symbol : ℤ) (ops : List Op) {side : Side}
    (hnodup : ((runOps ops (init symbol)).heap side).elems.Nodup) :
    ((runOps ops (init symbol)).heap side).elems.length ≤
      (addedPrices side ops (init symbol)).toFinset.card := by
  have hprices := hnodup.map (heapPrice_injective side)
  rw [← List.length_map (heapPrice side), ← List.toFinset_card_of_nodup hprices]
  refine Finset.card_le_card fun price hprice ↦ ?_
  obtain ⟨x, hx, rfl⟩ := List.mem_map.1 (List.mem_toFinset.1 hprice)
  exact List.mem_toFinset.2 (mem_heap_runOps symbol ops hx)

/-- **When the heaps hold every price once**, and no more prices than were ever added on their side:
as long as no operation of the run adds an order at a price where no other rests while the heap
still holds that price. -/
theorem runOps_nodup_iff (symbol : ℤ) (ops : List Op) :
    (∀ pre, pre <+: ops → ∀ side,
        ((runOps pre (init symbol)).heap side).elems.Nodup ∧
          ((runOps pre (init symbol)).heap side).elems.length ≤
            (addedPrices side pre (init symbol)).toFinset.card) ↔
      ∀ pre op, pre ++ [op] <+: ops → ¬ op.Repushes (runOps pre (init symbol)) := by
  constructor
  -- a price that is pushed again is there twice
  · rintro h pre op hpre ⟨side, price, hpushes, hmem⟩
    have hnodup := (h (pre ++ [op]) hpre side).1
    rw [runOps_append] at hnodup
    rcases op.heap_after (consistent_runOps symbol pre) side with
      ⟨price', hpushes', hheap⟩ | ⟨hnone, -⟩
    · obtain ⟨d, hadds, -⟩ := hpushes
      obtain ⟨d', hadds', -⟩ := hpushes'
      obtain rfl : price = price' :=
        (Prod.mk.inj (Prod.mk.inj (Option.some.inj (hadds.symm.trans hadds'))).2).2
      rw [hheap, MinHeap.nodup_push] at hnodup
      exact hnodup.1 hmem
    · exact hnone price hpushes
  · intro h pre hpre side
    suffices hnodup : ((runOps pre (init symbol)).heap side).elems.Nodup from
      ⟨hnodup, length_heap_le symbol pre hnodup⟩
    induction pre using List.reverseRecOn with
    | nil =>
      cases side with
      | buy => exact List.nodup_nil
      | sell => exact List.nodup_nil
    | append_singleton pre op ih =>
      have hbefore := ih ((List.prefix_append _ _).trans hpre)
      rw [runOps_append]
      rcases op.heap_after (consistent_runOps symbol pre) side with
        ⟨price, hpushes, hheap⟩ | ⟨-, hsub⟩
      · rw [hheap, MinHeap.nodup_push]
        exact ⟨fun hmem ↦ h pre op hpre ⟨side, price, hpushes, hmem⟩, hbefore⟩
      · exact hbefore.sublist hsub

/-- An order comes, goes and comes again at the same price, and no best price is read in between:
the price is on the heap twice. -/
theorem repushed_price :
    ¬ ∀ (symbol : ℤ) (ops : List Op), ∀ pre, pre <+: ops → ∀ side,
      ((runOps pre (init symbol)).heap side).elems.Nodup ∧
        ((runOps pre (init symbol)).heap side).elems.length ≤
          (addedPrices side pre (init symbol)).toFinset.card := by
  intro h
  have hnodup := (h 1 [.addOrder 1 1 .buy 5 100 0, .deleteOrder 1, .addOrder 2 1 .buy 5 100 0] _
    (List.prefix_refl _) .buy).1
  revert hnodup
  decide +kernel

end HftTrading.OrderBook
