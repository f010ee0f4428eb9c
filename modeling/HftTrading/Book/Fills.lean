import HftTrading.Book.Best
import Mathlib.Data.List.Induction
import Mathlib.Order.Bounds.Basic

/-!
# Fills, and what can be raised along a run

What an operation does to a consistent book is a function of the resting orders alone: which
exception it ends with (`Op.error?`) and which orders it leaves (`Op.ordersAfter`), the latter on
every exit. Levels and heaps follow (`Op.call_spec`). So a question about runs is a question about
dictionaries of orders.

## Over-fills

`trade_order` looks at the total of the level, never at what the order itself has left. An order
filled past its quantity goes on resting with a negative quantity for as long as the others at its
price outweigh it (`overfill_accepted`). Along runs whose trades stay within the order (`Op.Within`)
every resting quantity is positive, and that is the only way to keep it so (`runOps_filled_iff`).

## What is left to raise

With positive quantities none of the internal checks can fire, and an operation raises where its
caller is at fault and nowhere else (`Orderly.raises_iff`): a duplicate id, a quantity that is not
positive, an order that does not rest. Which of the two exception classes it raises then is whether
the order was looked for and not found (`Consistent.kind_of_call`), a statement that needs the book
to be consistent and no more.

`validate` is apart. It is the one operation that looks at the best prices, and it raises exactly
when they are crossed (`Orderly.validate_raises_iff`).
-/

namespace HftTrading.OrderBook

open MarketData

/-! ### Operations as functions of the orders -/

/-- The exception an operation ends with, from the symbol of the book and the orders resting in it.
`validate` is left to its own lemmas. -/
def Op.error? (symbol : ℤ) (d : Dict ℤ Order) : Op → Option FeedError
  | .addOrder orderId symbol' _ qty _ _ =>
    if d.contains orderId then some (.duplicateOrderId symbol' orderId)
    else if qty ≤ 0 then some (.nonPositiveQty symbol' qty orderId)
    else none
  | .deleteOrder orderId =>
    (d.get? orderId).bind fun o ↦
      let total := totalAt (d.erase orderId).values o.side o.price
      if total < 0 then some (.negativeTotalOnDelete symbol total o.price orderId) else none
  | .tradeOrder orderId qty _ =>
    match d.get? orderId with
    | none => some (.tradeNotFound symbol orderId)
    | some o =>
      let total := totalAt (d.insert orderId (traded o qty)).values o.side o.price
      if total < 0 then some (.negativeTotalOnTrade symbol total o.price orderId) else none
  | .modifyOrder orderId _ qty _ =>
    match d.get? orderId with
    | none => some (.modifyNotFound symbol orderId)
    | some o =>
      let total := totalAt (d.erase orderId).values o.side o.price
      if total < 0 then some (.negativeTotalOnDelete symbol total o.price orderId)
      else if qty ≤ 0 then some (.nonPositiveQty o.symbol qty orderId)
      else none
  | .clear | .getBestBid | .getBestAsk | .validate => none

/-- The orders an operation leaves, whether it returns or raises. -/
def Op.ordersAfter (d : Dict ℤ Order) : Op → Dict ℤ Order
  | .addOrder orderId symbol side qty price timestamp =>
    if d.contains orderId ∨ qty ≤ 0 then d
    else d.insert orderId ⟨orderId, symbol, side, qty, price, timestamp⟩
  | .deleteOrder orderId => d.erase orderId
  | .tradeOrder orderId qty _ =>
    match d.get? orderId with
    | none => d
    | some o =>
      if totalAt (d.insert orderId (traded o qty)).values o.side o.price < 0 then
        d.insert orderId (traded o qty)
      else settle d orderId (traded o qty)
  | .modifyOrder orderId side qty price =>
    match d.get? orderId with
    | none => d
    | some o =>
      if totalAt (d.erase orderId).values o.side o.price < 0 ∨ qty ≤ 0 then d.erase orderId
      else (d.erase orderId).insert orderId ⟨orderId, o.symbol, side, qty, price, o.timestamp⟩
  | .clear => .empty
  | .getBestBid | .getBestAsk | .validate => d

/-- **The resting orders decide.** On a consistent book an operation ends as `error?` says and
leaves, in a consistent book again, the orders `ordersAfter` says. -/
theorem Op.call_spec {b : OrderBook} (h : b.Consistent) (op : Op) (hop : op ≠ .validate) :
    ∃ volume b', Leaves b (op.ordersAfter b.orders) volume b' ∧
      op.call b = Method.exit (op.error? b.symbol b.orders) b' := by
  cases op with
  | addOrder orderId symbol side qty price timestamp =>
    rcases addOrder_spec h orderId symbol side qty price timestamp with
      ⟨hdup, hrun⟩ | ⟨hnone, hqty, hrun⟩ | ⟨hnone, hqty, b', hrun, hl⟩
    · rw [ordersAfter, error?, if_pos (Or.inl hdup), if_pos hdup]
      exact ⟨_, b, ⟨rfl, rfl, rfl, h⟩, hrun⟩
    · rw [ordersAfter, error?, if_pos (Or.inr hqty), if_neg (by simp [hnone]), if_pos hqty]
      exact ⟨_, b, ⟨rfl, rfl, rfl, h⟩, hrun⟩
    · have hdup : ¬ b.orders.contains orderId = true := by simp [hnone]
      rw [ordersAfter, error?, if_neg (not_or.2 ⟨hdup, not_le.2 hqty⟩), if_neg hdup,
        if_neg (not_le.2 hqty)]
      exact ⟨_, b', hl, hrun⟩
  | deleteOrder orderId =>
    rcases ho : b.orders.get? orderId with - | o
    · rw [ordersAfter, Dict.erase_eq_self ho, error?, ho]
      exact ⟨_, b, ⟨rfl, rfl, rfl, h⟩, deleteOrder_of_not_mem ho⟩
    · obtain ⟨b', hl, hrun⟩ := deleteOrder_spec h ho
      refine ⟨_, b', hl, hrun.trans ?_⟩
      simp only [error?, ho, Option.bind_some]
      split_ifs <;> rfl
  | tradeOrder orderId qty price =>
    rcases ho : b.orders.get? orderId with - | o <;> simp only [ordersAfter, error?, ho]
    · exact ⟨_, b, ⟨rfl, rfl, rfl, h⟩, tradeOrder_of_not_mem qty price ho⟩
    obtain ⟨hneg, hnonneg⟩ := tradeOrder_spec h ho qty price
    split_ifs with htotal
    · obtain ⟨b', hl, hrun⟩ := hneg htotal
      exact ⟨_, b', hl, hrun⟩
    · obtain ⟨b', hl, hrun⟩ := hnonneg (not_lt.1 htotal)
      exact ⟨_, b', hl, hrun⟩
  | modifyOrder orderId side qty price =>
    rcases ho : b.orders.get? orderId with - | o <;> simp only [ordersAfter, error?, ho]
    · exact ⟨_, b, ⟨rfl, rfl, rfl, h⟩, modifyOrder_of_not_mem side qty price ho⟩
    obtain ⟨hneg, hbad, hgood⟩ := modifyOrder_spec h ho side qty price
    -- both errors come after the removal, so the order is gone in either case
    rcases lt_or_ge (totalAt (b.orders.erase orderId).values o.side o.price) 0 with htotal | htotal
    · rw [if_pos (Or.inl htotal), if_pos htotal]
      obtain ⟨b', hl, hrun⟩ := hneg htotal
      exact ⟨_, b', hl, hrun⟩
    rw [if_neg (not_lt.2 htotal)]
    rcases le_or_gt qty 0 with hqty | hqty
    · rw [if_pos (Or.inr hqty), if_pos hqty]
      obtain ⟨b', hl, hrun⟩ := hbad htotal hqty
      exact ⟨_, b', hl, hrun⟩
    · rw [if_neg (not_or.2 ⟨not_lt.2 htotal, not_le.2 hqty⟩), if_neg (not_le.2 hqty)]
      obtain ⟨b', hl, hrun⟩ := hgood htotal hqty
      exact ⟨_, b', hl, hrun⟩
  | clear => exact ⟨b.totalVolume, b.clear, ⟨rfl, rfl, rfl, consistent_clear b⟩, rfl⟩
  | getBestBid =>
    obtain ⟨r, b', hget, -, hl, -⟩ := getBest_spec h .buy
    exact ⟨_, b', hl, Method.bind_ok (show OrderBook.getBestBid b = .ok r b' from hget)⟩
  | getBestAsk =>
    obtain ⟨r, b', hget, -, hl, -⟩ := getBest_spec h .sell
    exact ⟨_, b', hl, Method.bind_ok (show OrderBook.getBestAsk b = .ok r b' from hget)⟩
  | validate => exact absurd rfl hop

/-- What an operation leaves, on every exit. -/
theorem Op.after_spec {b : OrderBook} (h : b.Consistent) (op : Op) :
    ∃ volume, Leaves b (op.ordersAfter b.orders) volume (op.call.after b) := by
  by_cases hop : op = .validate
  · subst hop
    obtain ⟨b', hafter, hl, -⟩ := validate_spec h
    rw [← hafter] at hl
    exact ⟨_, hl⟩
  · obtain ⟨volume, b', hl, hrun⟩ := op.call_spec h hop
    refine ⟨volume, ?_⟩
    rwa [Method.after, hrun, ← Method.after, Method.after_exit]

/-- The orders a run leaves do not depend on the levels, the heaps or the traded volume it started
with. -/
theorem orders_runOps {b b' : OrderBook} (h : b.Consistent) (h' : b'.Consistent)
    (horders : b'.orders = b.orders) (ops : List Op) :
    (runOps ops b).Consistent ∧ (runOps ops b').Consistent ∧
      (runOps ops b').orders = (runOps ops b).orders := by
  induction ops generalizing b b' with
  | nil => exact ⟨h, h', horders⟩
  | cons op ops ih =>
    obtain ⟨volume, hl⟩ := op.after_spec h
    obtain ⟨volume', hl'⟩ := op.after_spec h'
    refine ih hl.consistent hl'.consistent ?_
    rw [hl.orders_eq, hl'.orders_eq, horders]

/-! ### Quantities stay positive -/

/-- Every resting order has something left. -/
def Positive (d : Dict ℤ Order) : Prop := ∀ o ∈ d.values, 0 < o.quantity

/-- A trade takes no more than its order has left. -/
def Op.Within (d : Dict ℤ Order) : Op → Prop
  | .tradeOrder orderId qty _ => ∀ o, d.get? orderId = some o → qty ≤ o.quantity
  | _ => True

instance (d : Dict ℤ Order) : DecidablePred (Op.Within d)
  | .tradeOrder orderId qty _ =>
    inferInstanceAs (Decidable (∀ o ∈ d.get? orderId, qty ≤ o.quantity))
  | .addOrder .. | .deleteOrder .. | .modifyOrder .. | .clear | .getBestBid | .getBestAsk
  | .validate => inferInstanceAs (Decidable True)

section Positive

variable {d : Dict ℤ Order}

/-- What is looked up has something left. -/
theorem Positive.get? (h : Positive d) {k : ℤ} {o : Order} (ho : d.get? k = some o) :
    0 < o.quantity :=
  h o (Dict.mem_values_iff.2 ⟨k, ho⟩)

/-- Taking an order out leaves the others. -/
theorem Positive.erase (h : Positive d) (k : ℤ) : Positive (d.erase k) := by
  intro o ho
  obtain ⟨k', hk'⟩ := Dict.mem_values_iff.1 ho
  rw [Dict.get?_erase] at hk'
  split at hk'
  · cases hk'
  · exact h.get? hk'

/-- The values after an assignment: the assigned one, and the others. -/
theorem forall_values_insert {P : Order → Prop} {k : ℤ} {o : Order} (hself : P o)
    (hothers : ∀ o' ∈ (d.erase k).values, P o') : ∀ o' ∈ (d.insert k o).values, P o' := by
  intro o' ho'
  rcases List.mem_cons.1 ((d.values_insert_perm k o).mem_iff.1 ho') with rfl | hmem
  · exact hself
  · exact hothers o' hmem

/-- An order with something left may be written. -/
theorem Positive.insert (h : Positive d) (k : ℤ) {o : Order} (ho : 0 < o.quantity) :
    Positive (d.insert k o) :=
  forall_values_insert ho (h.erase k)

theorem Positive.total_nonneg (h : Positive d) (side : Side) (price : ℤ) :
    0 ≤ totalAt d.values side price :=
  totalAt_nonneg (fun o ho ↦ (h o ho).le) side price

/-- Where an order rests, the total is positive. -/
theorem Positive.total_pos (h : Positive d) {o : Order} (ho : o ∈ d.values) :
    0 < totalAt d.values o.side o.price := by
  obtain ⟨k, hk⟩ := Dict.mem_values_iff.1 ho
  have hsum : totalAt d.values o.side o.price =
      o.quantity + totalAt (d.erase k).values o.side o.price := by
    rw [totalAt, Tally.total_perm (Dict.values_perm_of_get? hk)]
    exact Tally.total_cons_of_eq rfl
  have hrest := (h.erase k).total_nonneg o.side o.price
  have hown := h o ho
  omega

/-- A trade within the order leaves no negative total. -/
theorem Positive.traded_nonneg (h : Positive d) {k : ℤ} {o : Order} {qty : ℤ}
    (hqty : qty ≤ o.quantity) (side : Side) (price : ℤ) :
    0 ≤ totalAt (d.insert k (traded o qty)).values side price := by
  refine totalAt_nonneg (forall_values_insert ?_ fun o' ho' ↦ (h.erase k o' ho').le) side price
  show 0 ≤ o.quantity - qty
  omega

/-- **One step.** What stays within its order keeps every resting quantity positive. -/
theorem Positive.ordersAfter (h : Positive d) {op : Op} (hop : op.Within d) :
    Positive (op.ordersAfter d) := by
  cases op with
  | addOrder orderId symbol side qty price timestamp =>
    rw [Op.ordersAfter]
    split_ifs with hbad
    · exact h
    · exact h.insert orderId (not_le.1 (not_or.1 hbad).2)
  | deleteOrder orderId => exact h.erase orderId
  | tradeOrder orderId qty price =>
    rcases ho : d.get? orderId with - | o <;> simp only [Op.ordersAfter, ho]
    · exact h
    have hle : qty ≤ o.quantity := hop o ho
    rw [if_neg (not_lt.2 (h.traded_nonneg hle o.side o.price)), settle]
    split_ifs with hzero
    · exact h.erase orderId
    · refine h.insert orderId ?_
      have hne : o.quantity - qty ≠ 0 := hzero
      show 0 < o.quantity - qty
      omega
  | modifyOrder orderId side qty price =>
    rcases ho : d.get? orderId with - | o <;> simp only [Op.ordersAfter, ho]
    · exact h
    split_ifs with hbad
    · exact h.erase orderId
    · exact (h.erase orderId).insert orderId (not_le.1 (not_or.1 hbad).2)
  | clear => exact fun o ho ↦ absurd ho (List.not_mem_nil)
  | getBestBid | getBestAsk | validate => exact h

/-- A trade past its order that is not raised leaves the order resting, below zero. -/
theorem not_positive_ordersAfter {symbol : ℤ} {op : Op} (hop : ¬ op.Within d)
    (hok : op.error? symbol d = none) : ¬ Positive (op.ordersAfter d) := by
  cases op with
  | tradeOrder orderId qty price =>
    obtain ⟨o, hne⟩ := not_forall.1 hop
    obtain ⟨ho, hlt⟩ := Classical.not_imp.1 hne
    simp only [Op.error?, ho, ite_eq_right_iff, reduceCtorEq, imp_false] at hok
    have hleft : (traded o qty).quantity < 0 := by
      show o.quantity - qty < 0
      omega
    simp only [Op.ordersAfter, ho, if_neg hok, settle, if_neg hleft.ne]
    intro h
    have hpos := h.get? (Dict.get?_insert_self d orderId (traded o qty))
    omega
  | addOrder | deleteOrder | modifyOrder | clear | getBestBid | getBestAsk | validate =>
    exact absurd trivial hop

end Positive

/-! ### Over-fills -/

/-- Nothing rests with nothing left, neither an order nor a level. -/
structure Filled (b : OrderBook) : Prop where
  orders : ∀ o ∈ b.orders.values, 0 < o.quantity
  levels : ∀ side price level, (b.levels side).get? price = some level → 0 < level.totalQty

/-- Levels follow from the orders. -/
theorem Consistent.filled_iff {b : OrderBook} (h : b.Consistent) :
    b.Filled ↔ Positive b.orders := by
  refine ⟨Filled.orders, fun hpos ↦ ⟨hpos, fun side price level hlevel ↦ ?_⟩⟩
  obtain ⟨o, ho, rfl, rfl⟩ := (h.contains_iff side price).1 (by simp [hlevel])
  rw [h.levels_eq, Option.map_eq_some_iff] at hlevel
  obtain ⟨e, he, rfl⟩ := hlevel
  have htotal : e.total = totalAt b.orders.values o.side o.price := Tally.total_of_tally he
  show 0 < e.total
  rw [htotal]
  exact hpos.total_pos ho

/-- What a trade of any quantity looks at: the total of the level. -/
theorem Consistent.tradeOrder_raises_iff {b : OrderBook} (h : b.Consistent) {orderId : ℤ}
    {o : Order} (ho : b.orders.get? orderId = some o) {level : PriceLevel}
    (hlevel : (b.levels o.side).get? o.price = some level) (qty price : ℤ) :
    (tradeOrder orderId qty price).Raises b ↔ level.totalQty < qty := by
  obtain ⟨e, he, hlevel'⟩ := h.exists_level ho
  obtain rfl : levelOf o.price e = level := Option.some.inj (hlevel'.symm.trans hlevel)
  obtain ⟨hafter, -⟩ := relink_spec h ho he qty
  obtain ⟨hneg, hnonneg⟩ := tradeOrder_spec h ho qty price
  have htotal : totalAt (b.orders.insert orderId (traded o qty)).values o.side o.price =
      e.total - qty := hafter.symm
  rw [htotal] at hneg hnonneg
  show _ ↔ e.total < qty
  constructor
  · intro hraise
    by_contra hle
    obtain ⟨b', -, hok⟩ := hnonneg (by omega)
    exact Method.not_raises_of_ok hok hraise
  · intro hlt
    obtain ⟨b', -, hrun⟩ := hneg (by omega)
    exact ⟨_, b', hrun⟩

theorem runOps_append (ops : List Op) (op : Op) (b : OrderBook) :
    runOps (ops ++ [op]) b = op.call.after (runOps ops b) := by
  rw [runOps, List.map_append, Method.run_append]
  rfl

/-- **Over-fills are what makes a quantity negative.** Along a sequence of calls that all return,
every order and every level has something left in every state exactly as long as no trade takes
more than its order has left; and whatever an order has left, a trade against it is raised exactly
when it exceeds the total of the whole level. -/
theorem runOps_filled_iff (symbol : ℤ) (ops : List Op) (b : OrderBook)
    (hrun : Method.all (ops.map Op.call) (init symbol) = .ok () b) :
    ((∀ pre, pre <+: ops → (runOps pre (init symbol)).Filled) ↔
      ∀ pre op, pre ++ [op] <+: ops → op.Within (runOps pre (init symbol)).orders) ∧
    ∀ orderId o level qty price, b.orders.get? orderId = some o →
      (b.levels o.side).get? o.price = some level →
      ((tradeOrder orderId qty price).Raises b ↔ level.totalQty < qty) := by
  have hb : runOps ops (init symbol) = b := Method.run_of_all hrun
  refine ⟨⟨fun h pre op hpre ↦ ?_, fun h pre hpre ↦ ?_⟩, fun orderId o level qty price ho hl ↦ ?_⟩
  -- the call returned, so a trade past its order would have left it below zero
  · have hcons := consistent_runOps symbol pre
    by_contra hop
    obtain ⟨t, hall⟩ := Method.all_of_prefix (hpre.map Op.call) hrun
    rw [List.map_append] at hall
    have hok : op.call (runOps pre (init symbol)) = .ok () t := Method.apply_of_all hall
    have hne : op ≠ .validate := by
      rintro rfl
      exact hop trivial
    obtain ⟨volume, b', hl, hcall⟩ := op.call_spec hcons hne
    have hquiet : op.error? (runOps pre (init symbol)).symbol (runOps pre (init symbol)).orders =
        none := by
      rw [hcall] at hok
      exact Method.exit_eq_ok_iff.1 hok |>.1
    refine not_positive_ordersAfter hop hquiet ?_
    have hafter := (op.after_spec hcons).choose_spec.orders_eq
    rw [← hafter, ← runOps_append]
    exact (h _ hpre).orders
  · refine (consistent_runOps symbol pre).filled_iff.2 ?_
    induction pre using List.reverseRecOn with
    | nil => exact fun o ho ↦ absurd ho List.not_mem_nil
    | append_singleton pre op ih =>
      obtain ⟨_, hl⟩ := op.after_spec (consistent_runOps symbol pre)
      rw [runOps_append, hl.orders_eq]
      exact (ih ((List.prefix_append _ _).trans hpre)).ordersAfter (h pre op hpre)
  · rw [← hb] at ho hl ⊢
    exact (consistent_runOps symbol ops).tradeOrder_raises_iff ho hl qty price

/-- Two orders share a price, 5 and 10 units; 8 are traded against the first and nothing is raised:
it rests on with −3. -/
theorem overfill_accepted :
    ∃ b o, Method.all ([Op.addOrder 1 1 .buy 5 100 0, .addOrder 2 1 .buy 10 100 0,
        .tradeOrder 1 8 100].map Op.call) (init 1) = .ok () b ∧
      b.orders.get? 1 = some o ∧ o.quantity = -3 :=
  ⟨_, _, rfl, rfl, rfl⟩

/-- In the same sequence the last trade is the one that is not within its order. -/
theorem overfill_not_filled :
    ¬ ∀ pre, pre <+: [Op.addOrder 1 1 .buy 5 100 0, .addOrder 2 1 .buy 10 100 0,
      .tradeOrder 1 8 100] → (runOps pre (init 1)).Filled := by
  intro h
  have hwithin := (runOps_filled_iff 1 _ _ rfl).1.1 h [.addOrder 1 1 .buy 5 100 0,
    .addOrder 2 1 .buy 10 100 0] (.tradeOrder 1 8 100) (List.prefix_refl _) _ rfl
  exact absurd hwithin (by decide)

/-! ### What can be raised -/

/-- The books reached from an empty one when every call returns and no trade takes more than its
order has left. -/
inductive Orderly (symbol : ℤ) : OrderBook → Prop
  | init : Orderly symbol (init symbol)
  | step {b b' : OrderBook} (h : Orderly symbol b) (op : Op) (hwithin : op.Within b.orders)
    (hcall : op.call b = .ok () b') : Orderly symbol b'

/-- **Along such a run** the book is consistent and every quantity positive. -/
theorem Orderly.invariant {symbol : ℤ} {b : OrderBook} (h : Orderly symbol b) :
    b.Consistent ∧ Positive b.orders := by
  induction h with
  | init => exact ⟨consistent_init symbol, fun o ho ↦ absurd ho List.not_mem_nil⟩
  | step _ op hwithin hcall ih =>
    obtain ⟨volume, hl⟩ := op.after_spec ih.1
    rw [Method.after_ok hcall] at hl
    refine ⟨hl.consistent, ?_⟩
    rw [hl.orders_eq]
    exact ih.2.ordersAfter hwithin

/-- What the caller did wrong: the guards at the head of an operation, and the one `modify_order`
inherits from `add_order`. -/
def Op.Refused (d : Dict ℤ Order) : Op → Prop
  | .addOrder orderId _ _ qty _ _ => d.contains orderId = true ∨ qty ≤ 0
  | .tradeOrder orderId _ _ => d.get? orderId = none
  | .modifyOrder orderId _ qty _ => d.get? orderId = none ∨ qty ≤ 0
  | _ => False

/-- **Only the guards.** With positive quantities and trades within their orders, an operation
raises where the caller is at fault, and never over the book's own state. -/
theorem Positive.error?_cases {d : Dict ℤ Order} (h : Positive d) {op : Op} (hwithin : op.Within d)
    (symbol : ℤ) :
    (op.error? symbol d = none ∧ ¬ op.Refused d) ∨
      ∃ e, op.error? symbol d = some e ∧ op.Refused d ∧ ¬ e.Internal := by
  cases op with
  | addOrder orderId symbol' side qty price timestamp =>
    by_cases hdup : d.contains orderId = true
    · exact Or.inr ⟨_, if_pos hdup, Or.inl hdup, not_false⟩
    rcases le_or_gt qty 0 with hqty | hqty
    · exact Or.inr ⟨_, (if_neg hdup).trans (if_pos hqty), Or.inr hqty, not_false⟩
    · exact Or.inl ⟨(if_neg hdup).trans (if_neg (not_le.2 hqty)), not_or.2 ⟨hdup, not_le.2 hqty⟩⟩
  | deleteOrder orderId =>
    refine Or.inl ⟨?_, not_false⟩
    rcases ho : d.get? orderId with - | o <;> simp only [Op.error?, ho]
    · rfl
    · exact if_neg (not_lt.2 ((h.erase orderId).total_nonneg o.side o.price))
  | tradeOrder orderId qty price =>
    rcases ho : d.get? orderId with - | o <;> simp only [Op.error?, Op.Refused, ho]
    · exact Or.inr ⟨_, rfl, trivial, not_false⟩
    · exact Or.inl ⟨if_neg (not_lt.2 (h.traded_nonneg (hwithin o ho) o.side o.price)),
        Option.some_ne_none o⟩
  | modifyOrder orderId side qty price =>
    rcases ho : d.get? orderId with - | o <;> simp only [Op.error?, Op.Refused, ho]
    · exact Or.inr ⟨_, rfl, Or.inl trivial, not_false⟩
    rw [if_neg (not_lt.2 ((h.erase orderId).total_nonneg o.side o.price))]
    rcases le_or_gt qty 0 with hqty | hqty
    · exact Or.inr ⟨_, if_pos hqty, Or.inr hqty, not_false⟩
    · exact Or.inl ⟨if_neg (not_le.2 hqty), not_or.2 ⟨Option.some_ne_none o, not_le.2 hqty⟩⟩
  | clear | getBestBid | getBestAsk | validate => exact Or.inl ⟨rfl, not_false⟩

/-- **Returning, or at fault**: an operation raises exactly if it is refused, and over nothing
internal. -/
theorem Orderly.call_cases {symbol : ℤ} {b : OrderBook} (h : Orderly symbol b) (op : Op)
    (hwithin : op.Within b.orders) (hop : op ≠ .validate) :
    (op.call.Raises b ↔ op.Refused b.orders) ∧
      ∀ e b', op.call b = .error e b' → ¬ e.Internal := by
  obtain ⟨hcons, hpos⟩ := h.invariant
  obtain ⟨_, b', -, hcall⟩ := op.call_spec hcons hop
  rcases hpos.error?_cases hwithin b.symbol with ⟨hnone, hfine⟩ | ⟨e, hsome, hbad, hsafe⟩
  · have hok : op.call b = .ok () b' := by
      rw [hcall, hnone]
      rfl
    have hquiet := Method.not_raises_of_ok hok
    exact ⟨⟨fun hraise ↦ absurd hraise hquiet, fun hbad ↦ absurd hbad hfine⟩,
      fun e b'' hrun ↦ absurd ⟨e, b'', hrun⟩ hquiet⟩
  · have herror : op.call b = .error e b' := by
      rw [hcall, hsome]
      rfl
    refine ⟨⟨fun _ ↦ hbad, fun _ ↦ ⟨e, b', herror⟩⟩, fun e' b'' hrun ↦ ?_⟩
    cases herror.symm.trans hrun
    exact hsafe

/-! ### The class of what is raised

The live handler recovers from `KeyError` and from `ValueError` alike. Which of them a book raises
matters to a caller that catches one class only. -/

/-- The operation asks for an order that does not rest, and takes that for an error. A delete of
such an order is passed over. -/
def Op.Missing (d : Dict ℤ Order) : Op → Prop
  | .tradeOrder orderId .. | .modifyOrder orderId .. => d.get? orderId = none
  | _ => False

/-- The class is decided with the exception. -/
theorem Op.kind_of_error? {symbol : ℤ} {d : Dict ℤ Order} {op : Op} {e : FeedError}
    (he : op.error? symbol d = some e) : e.kind = .keyError ↔ op.Missing d := by
  cases op with
  | addOrder orderId symbol' side qty price timestamp =>
    simp only [error?] at he
    split_ifs at he <;> cases he <;> exact iff_of_false (FeedError.kind_ne rfl) not_false
  | deleteOrder orderId =>
    obtain ⟨o, -, ho⟩ := Option.bind_eq_some_iff.1 he
    simp only at ho
    split_ifs at ho
    cases ho
    exact iff_of_false (FeedError.kind_ne rfl) not_false
  | tradeOrder orderId qty price =>
    rcases ho : d.get? orderId with - | o <;> simp only [error?, ho] at he
    · cases he
      exact iff_of_true rfl ho
    · split_ifs at he
      cases he
      exact iff_of_false (FeedError.kind_ne rfl) (by simp [Missing, ho])
  | modifyOrder orderId side qty price =>
    rcases ho : d.get? orderId with - | o <;> simp only [error?, ho] at he
    · cases he
      exact iff_of_true rfl ho
    · -- the two errors of the halves, `delete_order` and `add_order`
      split_ifs at he <;> cases he <;>
        exact iff_of_false (FeedError.kind_ne rfl) (by simp [Missing, ho])
  | clear | getBestBid | getBestAsk | validate => cases he

/-- The level checks raise a `ValueError`, for a total or for a count. -/
theorem kind_of_checkLevels {side : Side} {l : List (ℤ × PriceLevel)} {b b' : OrderBook}
    {e : FeedError} (hcall : checkLevels side l b = .error e b') : e.kind = .valueError := by
  induction l with
  | nil => cases hcall
  | cons entry l ih =>
    simp only [checkLevels] at hcall
    split_ifs at hcall
    · cases hcall
      rfl
    · cases hcall
      rfl
    · exact ih hcall

/-- The lookups behind the best prices do not fail on a consistent book, and every check of
`validate` raises a `ValueError`. -/
theorem Consistent.kind_of_validate {b b' : OrderBook} {e : FeedError} (h : b.Consistent)
    (hcall : validate b = .error e b') : e.kind = .valueError := by
  obtain ⟨bid, ask, b₂, -, -, hl, -, hrun⟩ := validate_run h
  rw [hrun] at hcall
  split_ifs at hcall
  · cases hcall
    rfl
  -- the checks of the two sides come one after the other, and those of the orders last
  rcases hsell : checkLevels .sell b₂.askLevels.entries b₂ with ⟨⟨⟩, b₃⟩ | ⟨e', b₃⟩
  · have hb₃ : b₃ = b₂ := (Method.after_ok hsell).symm.trans (checkLevels_after _ _ _)
    subst hb₃
    rw [Method.bind_ok hsell] at hcall
    rcases hbuy : checkLevels .buy b₃.bidLevels.entries b₃ with ⟨⟨⟩, b₄⟩ | ⟨e', b₄⟩
    · have hb₄ : b₄ = b₃ := (Method.after_ok hbuy).symm.trans (checkLevels_after _ _ _)
      subst hb₄
      rw [Method.bind_ok hbuy, hl.consistent.checkOrders_ok] at hcall
      cases hcall
    · rw [Method.bind_error hbuy] at hcall
      cases hcall
      exact kind_of_checkLevels hbuy
  · rw [Method.bind_error hsell] at hcall
    cases hcall
    exact kind_of_checkLevels hsell

/-- **A `KeyError` is an order not found.** On a consistent book, reached however, an operation that
raises does so with a `KeyError` if it was to trade or modify an order that does not rest, and with
a `ValueError` otherwise. -/
theorem Consistent.kind_of_call {b b' : OrderBook} {op : Op} {e : FeedError} (h : b.Consistent)
    (hcall : op.call b = .error e b') : e.kind = .keyError ↔ op.Missing b.orders := by
  by_cases hop : op = .validate
  · subst hop
    have hkind := h.kind_of_validate hcall
    exact iff_of_false (FeedError.kind_ne hkind) not_false
  · obtain ⟨_, b'', -, hspec⟩ := op.call_spec h hop
    rw [hcall] at hspec
    rcases herror : op.error? b.symbol b.orders with - | e' <;> rw [herror] at hspec <;> cases hspec
    exact Op.kind_of_error? herror

/-! ### `validate` -/

/-- The prices at which orders rest on a side. -/
def prices (os : List Order) (side : Side) : Set ℤ := {p | ∃ o ∈ os, o.side = side ∧ o.price = p}

/-- The best prices are crossed: both sides have orders, at positive best prices, and the highest
buy price reaches the lowest sell price. -/
def Crossed (os : List Order) : Prop :=
  ∃ bid ask, IsGreatest (prices os .buy) bid ∧ IsLeast (prices os .sell) ask ∧
    0 < bid ∧ 0 < ask ∧ ask ≤ bid

/-- A positive best price is the best of an order, and is the extreme price of its side. -/
theorem Best.extreme {os : List Order} {side : Side} {r : ℤ × ℤ} (h : Best os side r)
    (hpos : 0 < r.1) :
    r.1 ∈ prices os side ∧ ∀ p ∈ prices os side, heapPrice side r.1 ≤ heapPrice side p := by
  rcases h with ⟨rfl, -⟩ | ⟨hrests, -, hbest⟩
  · exact absurd hpos (lt_irrefl 0)
  · refine ⟨hrests, ?_⟩
    rintro p ⟨o, ho, hside, rfl⟩
    exact hbest o ho hside

/-- The extreme price of a side with orders is the best price. -/
theorem Best.eq_of_extreme {os : List Order} {side : Side} {r : ℤ × ℤ} (h : Best os side r) {p : ℤ}
    (hp : p ∈ prices os side) (hmin : ∀ p' ∈ prices os side, heapPrice side p ≤ heapPrice side p') :
    r.1 = p := by
  obtain ⟨o, ho, hside, rfl⟩ := hp
  rcases h with ⟨-, hnone⟩ | ⟨hrests, -, hbest⟩
  · exact absurd hside (hnone o ho)
  · exact heapPrice_injective side (le_antisymm (hbest o ho hside) (hmin r.1 hrests))

/-- The best prices that are read are crossed if the resting orders are. -/
theorem crossed_iff {os : List Order} {bid ask : ℤ × ℤ} (hbid : Best os .buy bid)
    (hask : Best os .sell ask) : Crossed os ↔ bid.1 > 0 ∧ ask.1 > 0 ∧ bid.1 ≥ ask.1 := by
  constructor
  · rintro ⟨p, q, ⟨hp, hmax⟩, ⟨hq, hmin⟩, hp0, hq0, hle⟩
    have hneg : ∀ p' ∈ prices os .buy, -p ≤ -p' := fun p' hp' ↦ Int.neg_le_neg (hmax hp')
    have hpb : bid.1 = p := hbid.eq_of_extreme hp hneg
    have hqa : ask.1 = q := hask.eq_of_extreme hq fun q' hq' ↦ hmin hq'
    exact ⟨hpb ▸ hp0, hqa ▸ hq0, hpb ▸ hqa ▸ hle⟩
  · rintro ⟨hp0, hq0, hle⟩
    obtain ⟨hp, hmax⟩ := hbid.extreme hp0
    obtain ⟨hq, hmin⟩ := hask.extreme hq0
    exact ⟨bid.1, ask.1, ⟨hp, fun p' hp' ↦ Int.neg_le_neg_iff.1 (hmax p' hp')⟩,
      ⟨hq, fun q' hq' ↦ hmin q' hq'⟩, hp0, hq0, hle⟩

/-- **`validate` where every order has something left**: it returns, or raises that the book is
crossed. -/
theorem Consistent.validate_cases {b : OrderBook} (h : b.Consistent) (hpos : Positive b.orders) :
    (¬ Crossed b.orders.values ∧ ∃ b', validate b = .ok () b') ∨
      (Crossed b.orders.values ∧
        ∃ bid ask b', validate b = .error (.crossed b.symbol bid ask) b') := by
  obtain ⟨bid, ask, -, hbid, hask, -⟩ := validate_run h
  rw [crossed_iff hbid hask]
  by_cases hcross : bid.1 > 0 ∧ ask.1 > 0 ∧ bid.1 ≥ ask.1
  · obtain ⟨b', hrun⟩ := validate_of_crossed h hbid hask hcross
    exact Or.inr ⟨hcross, _, _, b', hrun⟩
  · obtain ⟨b', -, -, -, hok⟩ := validate_spec h
    exact Or.inl ⟨hcross, b', hok bid ask hbid hask hcross fun o ho ↦ hpos.total_pos ho⟩

/-- So it raises exactly on crossed best prices. -/
theorem Consistent.validate_crossed_iff {b : OrderBook} (h : b.Consistent)
    (hpos : Positive b.orders) : validate.Raises b ↔ Crossed b.orders.values := by
  rcases h.validate_cases hpos with ⟨hcross, b', hrun⟩ | ⟨hcross, bid, ask, b', hrun⟩
  · exact ⟨fun hraise ↦ absurd hraise (Method.not_raises_of_ok hrun), fun hc ↦ absurd hc hcross⟩
  · exact ⟨fun _ ↦ hcross, fun _ ↦ ⟨_, b', hrun⟩⟩

/-- **`validate` raises exactly on crossed best prices, and disturbs nothing.** In every book
reached by returning calls whose trades stay within their orders. Whatever is called afterwards, the
orders, the levels and the best quotes are those of the book that was not validated. -/
theorem Orderly.validate_raises_iff {symbol : ℤ} {b : OrderBook} (h : Orderly symbol b) :
    (validate.Raises b ↔ Crossed b.orders.values) ∧
    (validate.after b).orders = b.orders ∧ (validate.after b).levels = b.levels ∧
    ∀ ops side, (getBest side).value? (runOps ops (validate.after b)) =
      (getBest side).value? (runOps ops b) := by
  obtain ⟨hcons, hpos⟩ := h.invariant
  obtain ⟨b', hafter, hl, hlevels, -⟩ := validate_spec hcons
  refine ⟨hcons.validate_crossed_iff hpos, by rw [hafter, hl.orders_eq], by rw [hafter, hlevels],
    fun ops side ↦ ?_⟩
  obtain ⟨hrun, hrun', horders⟩ := orders_runOps hcons hl.consistent hl.orders_eq ops
  obtain ⟨r, s, hget, hbest, -⟩ := getBest_spec hrun side
  obtain ⟨r', s', hget', hbest', -⟩ := getBest_spec hrun' side
  rw [horders] at hbest'
  obtain rfl := hbest.unique hbest'
  rw [hafter, Method.value?_eq_some_iff.2 ⟨_, hget⟩, Method.value?_eq_some_iff.2 ⟨_, hget'⟩]

/-- A buy at 100 against a sell at 99. -/
theorem validate_raises_on_crossed :
    ∃ b, Orderly 1 b ∧ Crossed b.orders.values ∧ validate.Raises b := by
  have h₁ := (Orderly.init : Orderly 1 _).step (.addOrder 1 1 .buy 5 100 0) trivial rfl
  have h₂ := h₁.step (.addOrder 2 1 .sell 5 99 0) trivial rfl
  have hiff := h₂.validate_raises_iff.1
  exact ⟨_, h₂, hiff.1 ⟨_, _, rfl⟩, _, _, rfl⟩

/-! ### The guards -/

/-- A quotation raises if the reading behind it does. -/
theorem raises_quote {side : Side} {b : OrderBook} (h : (getBest side).Raises b) :
    (getBest side >>= fun _ ↦ pure () : Method FeedError OrderBook Unit).Raises b := by
  obtain ⟨e, b', hrun⟩ := h
  exact ⟨e, b', Method.bind_error hrun⟩

/-- **Operations raise exactly at their guards.** In every book reached by returning calls whose
trades stay within their orders. -/
theorem Orderly.raises_iff {symbol : ℤ} {b : OrderBook} (h : Orderly symbol b) :
    (∀ orderId symbol' side qty price timestamp,
      (addOrder orderId symbol' side qty price timestamp).Raises b ↔
        b.orders.contains orderId = true ∨ qty ≤ 0) ∧
    (∀ orderId, ¬ (deleteOrder orderId).Raises b) ∧
    (∀ orderId qty price, (∀ o, b.orders.get? orderId = some o → qty ≤ o.quantity) →
      ((tradeOrder orderId qty price).Raises b ↔ b.orders.get? orderId = none)) ∧
    (∀ orderId side qty price, (modifyOrder orderId side qty price).Raises b ↔
      b.orders.get? orderId = none ∨ qty ≤ 0) ∧
    ¬ getBestBid.Raises b ∧ ¬ getBestAsk.Raises b ∧
    ∀ (op : Op) e b', op.Within b.orders → op.call b = .error e b' → ¬ e.Internal := by
  refine ⟨fun orderId symbol' side qty price timestamp ↦ ?_, fun orderId ↦ ?_,
    fun orderId qty price hle ↦ ?_, fun orderId side qty price ↦ ?_, fun hraise ↦ ?_,
    fun hraise ↦ ?_, fun op e b' hwithin hcall ↦ ?_⟩
  · exact (h.call_cases (.addOrder orderId symbol' side qty price timestamp) trivial nofun).1
  · exact (h.call_cases (.deleteOrder orderId) trivial nofun).1.1
  · exact (h.call_cases (.tradeOrder orderId qty price) hle nofun).1
  · exact (h.call_cases (.modifyOrder orderId side qty price) trivial nofun).1
  · exact (h.call_cases .getBestBid trivial nofun).1.1 (raises_quote hraise)
  · exact (h.call_cases .getBestAsk trivial nofun).1.1 (raises_quote hraise)
  · by_cases hop : op = .validate
    · subst hop
      rcases h.invariant.1.validate_cases h.invariant.2 with
        ⟨-, b'', hrun⟩ | ⟨-, bid, ask, b'', hrun⟩
      · cases hrun.symm.trans hcall
      · cases hrun.symm.trans hcall
        exact not_false
    · exact (h.call_cases op hwithin hop).2 e b' hcall

/-- One order, half of it traded: a second order under its id is refused, and nothing else is. -/
theorem raises_iff_after_trade :
    ∃ b, Orderly 1 b ∧ (addOrder 1 1 .sell 5 100 0).Raises b ∧
      ¬ (addOrder 2 1 .sell 5 100 0).Raises b := by
  have h₁ := (Orderly.init : Orderly 1 _).step (.addOrder 1 1 .buy 5 100 0) trivial rfl
  have h₂ := h₁.step (.tradeOrder 1 3 100) (by decide) rfl
  have hadd := h₂.raises_iff.1
  exact ⟨_, h₂, (hadd 1 1 .sell 5 100 0).2 (Or.inl (by decide)),
    fun hraise ↦ absurd ((hadd 2 1 .sell 5 100 0).1 hraise) (by decide)⟩

end HftTrading.OrderBook
