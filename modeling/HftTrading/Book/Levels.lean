import HftTrading.Book.OrderBook
import HftTrading.Lib.Tally
import Mathlib.Algebra.Order.BigOperators.Group.List

/-!
# Levels and heaps are views of the resting orders

The book's redundant structures, against the one that matters: `orders`. A book is `Consistent` when

* each level dictionary **is** the tally of the resting orders of its side by price, entry by entry
  (`levels_eq`), so that a level exists exactly where an order rests;
* each heap has, among whatever stale entries, every price that has a level (`heap_covers`).

Nothing about signs is part of it. A trade may take more than its order has left while other orders
share the level, so quantities and totals can be negative; both clauses hold all the same, and it is
by them that the raising paths are harmless: an operation raises *after* it has written both the
order and its level.

Each operation has one specification lemma (`addOrder_spec`, `deleteOrder_spec`, `tradeOrder_spec`,
`modifyOrder_spec`): which exit it takes, what `orders` is afterwards, and that the book left behind
is consistent. Everything later cites these and never unfolds an operation.
-/

namespace HftTrading.OrderBook

open MarketData

/-- Where an order rests: its side and price. -/
def levelKey (o : Order) : Side × ℤ := (o.side, o.price)

/-- The tally of a collection of orders at a side and price. -/
def tallyAt (os : List Order) (side : Side) (price : ℤ) : Option (Tally.Entry ℤ) :=
  Tally.tally levelKey Order.quantity os (side, price)

/-- The quantity resting at a side and price. -/
def totalAt (os : List Order) (side : Side) (price : ℤ) : ℤ :=
  Tally.total levelKey Order.quantity os (side, price)

/-- Orders whose quantities are not negative have totals that are not. -/
theorem totalAt_nonneg {os : List Order} (h : ∀ o ∈ os, 0 ≤ o.quantity) (side : Side) (price : ℤ) :
    0 ≤ totalAt os side price := by
  refine List.sum_nonneg fun q hq ↦ ?_
  obtain ⟨o, ho, rfl⟩ := List.mem_map.1 hq
  exact h o (List.mem_of_mem_filter ho)

/-- The price level that says what a tally entry says. -/
def levelOf (price : ℤ) (e : Tally.Entry ℤ) : PriceLevel := ⟨price, e.total, e.count⟩

/-- The levels and heaps of a book are views of its orders. -/
structure Consistent (b : OrderBook) : Prop where
  /-- Each level is the tally of the orders resting there; no order, no level. -/
  levels_eq : ∀ side price,
    (b.levels side).get? price = (tallyAt b.orders.values side price).map (levelOf price)
  /-- Every price with a level is in its heap. -/
  heap_covers : ∀ side price, (b.levels side).contains price = true →
    heapPrice side price ∈ b.heap side

/-- What an operation leaves behind: these orders and this traded volume, in a consistent book of
the same symbol. -/
structure Leaves (b : OrderBook) (orders : Dict ℤ Order) (volume : ℤ) (b' : OrderBook) : Prop where
  orders_eq : b'.orders = orders
  volume_eq : b'.totalVolume = volume
  symbol_eq : b'.symbol = b.symbol
  consistent : b'.Consistent

/-- What is left by one operation after another: what the second leaves, the first having left the
volume that the second keeps. -/
theorem Leaves.trans {b b₁ b₂ : OrderBook} {orders orders' : Dict ℤ Order} {volume : ℤ}
    (h : Leaves b orders volume b₁) (h' : Leaves b₁ orders' b₁.totalVolume b₂) :
    Leaves b orders' volume b₂ where
  orders_eq := h'.orders_eq
  volume_eq := h'.volume_eq.trans h.volume_eq
  symbol_eq := h'.symbol_eq.trans h.symbol_eq
  consistent := h'.consistent

theorem consistent_init (symbol : ℤ) : (init symbol).Consistent where
  levels_eq side price := by cases side <;> rfl
  heap_covers side price h := by cases side <;> exact absurd h (by simp [levels, init])

theorem consistent_clear (b : OrderBook) : b.clear.Consistent where
  levels_eq side price := by cases side <;> rfl
  heap_covers side price h := by cases side <;> exact absurd h (by simp [levels, clear])

/-! ### One level rewritten -/

/-- A level that is written shows at its own place. -/
theorem get?_levels_insert (b : OrderBook) (side s : Side) (price p : ℤ) (l : PriceLevel) :
    ((b.setLevels side ((b.levels side).insert price l)).levels s).get? p =
      if (s, p) = (side, price) then some l else (b.levels s).get? p := by
  rw [levels_setLevels]
  by_cases hs : s = side
  · subst hs
    rw [if_pos rfl, Dict.get?_insert]
    simp
  · simp [hs]

/-- A level that is removed is gone from its own place. -/
theorem get?_levels_erase (b : OrderBook) (side s : Side) (price p : ℤ) :
    ((b.setLevels side ((b.levels side).erase price)).levels s).get? p =
      if (s, p) = (side, price) then none else (b.levels s).get? p := by
  rw [levels_setLevels]
  by_cases hs : s = side
  · subst hs
    rw [if_pos rfl, Dict.get?_erase]
    simp
  · simp [hs]

/-- A book that differs from a consistent one in the orders resting at one place, and whose levels
differ only there and say what the new orders say, is consistent, provided its heaps have not lost
anything and cover that place. -/
theorem Consistent.rewrite {b b' : OrderBook} (h : b.Consistent) (side : Side) (price : ℤ)
    (htally : ∀ s p, (s, p) ≠ (side, price) →
      tallyAt b'.orders.values s p = tallyAt b.orders.values s p)
    (hlevels : ∀ s p, (b'.levels s).get? p =
      if (s, p) = (side, price) then (tallyAt b'.orders.values side price).map (levelOf price)
      else (b.levels s).get? p)
    (hheap : ∀ s x, x ∈ b.heap s → x ∈ b'.heap s)
    (hcover : (b'.levels side).contains price = true → heapPrice side price ∈ b'.heap side) :
    b'.Consistent where
  levels_eq s p := by
    rw [hlevels s p]
    by_cases hsp : (s, p) = (side, price)
    · obtain ⟨rfl, rfl⟩ := Prod.mk.inj hsp
      rw [if_pos rfl]
    · rw [if_neg hsp, h.levels_eq s p, htally s p hsp]
  heap_covers s p hc := by
    by_cases hsp : (s, p) = (side, price)
    · obtain ⟨rfl, rfl⟩ := Prod.mk.inj hsp
      exact hcover hc
    · refine hheap s _ (h.heap_covers s p ?_)
      rwa [Dict.contains, hlevels s p, if_neg hsp] at hc

/-- Orders that rest elsewhere do not show. -/
theorem tallyAt_cons_of_ne {o : Order} {os : List Order} {s : Side} {p : ℤ}
    (h : (s, p) ≠ levelKey o) : tallyAt (o :: os) s p = tallyAt os s p := by
  rw [tallyAt, Tally.tally_cons, if_neg fun heq ↦ h heq.symm]
  rfl

/-- The orders after writing one: the written one, and the others. -/
theorem tallyAt_insert (d : Dict ℤ Order) (id : ℤ) (o : Order) (s : Side) (p : ℤ) :
    tallyAt (d.insert id o).values s p = tallyAt (o :: (d.erase id).values) s p :=
  Tally.tally_perm (d.values_insert_perm id o) (s, p)

/-- A present order, set apart from the others. -/
theorem tallyAt_of_get? {d : Dict ℤ Order} {id : ℤ} {o : Order} (h : d.get? id = some o) (s : Side)
    (p : ℤ) : tallyAt d.values s p = tallyAt (o :: (d.erase id).values) s p :=
  Tally.tally_perm (Dict.values_perm_of_get? h) (s, p)

/-- The level of a resting order exists, and is its tally entry. -/
theorem Consistent.exists_level {b : OrderBook} (h : b.Consistent) {id : ℤ} {o : Order}
    (ho : b.orders.get? id = some o) :
    ∃ e, tallyAt (o :: (b.orders.erase id).values) o.side o.price = some e ∧
      (b.levels o.side).get? o.price = some (levelOf o.price e) := by
  rw [h.levels_eq, tallyAt_of_get? ho]
  rcases he : tallyAt (o :: (b.orders.erase id).values) o.side o.price with - | e
  · exact absurd rfl (Tally.tally_eq_none_iff.1 he o List.mem_cons_self)
  · exact ⟨e, rfl, rfl⟩

/-! ### Adding an order -/

/-- **`add_order`** refuses a duplicate id, then a quantity that is not positive, and in both cases
leaves the book alone; otherwise the order rests, at the end of the dictionary. -/
theorem addOrder_spec {b : OrderBook} (h : b.Consistent) (orderId symbol : ℤ) (side : Side)
    (qty price timestamp : ℤ) :
    (b.orders.contains orderId = true ∧
      addOrder orderId symbol side qty price timestamp b =
        .error (.duplicateOrderId symbol orderId) b) ∨
    (b.orders.get? orderId = none ∧ qty ≤ 0 ∧
      addOrder orderId symbol side qty price timestamp b =
        .error (.nonPositiveQty symbol qty orderId) b) ∨
    (b.orders.get? orderId = none ∧ 0 < qty ∧
      ∃ b', addOrder orderId symbol side qty price timestamp b = .ok () b' ∧
        Leaves b (b.orders.insert orderId ⟨orderId, symbol, side, qty, price, timestamp⟩)
          b.totalVolume b') := by
  unfold addOrder
  by_cases hdup : b.orders.contains orderId = true
  · exact Or.inl ⟨hdup, if_pos hdup⟩
  have hnone : b.orders.get? orderId = none := by
    rwa [Bool.not_eq_true, Dict.contains_eq_false_iff] at hdup
  refine Or.inr ?_
  rw [if_neg hdup]
  by_cases hqty : qty ≤ 0
  · exact Or.inl ⟨hnone, hqty, if_pos hqty⟩
  refine Or.inr ⟨hnone, by omega, ?_⟩
  rw [if_neg hqty]
  set o : Order := ⟨orderId, symbol, side, qty, price, timestamp⟩
  have hvals : ∀ s p, tallyAt (b.orders.insert orderId o).values s p =
      tallyAt (o :: b.orders.values) s p := by
    intro s p
    rw [tallyAt_insert, Dict.erase_eq_self hnone]
  have hother : ∀ s p, (s, p) ≠ (side, price) →
      tallyAt (b.orders.insert orderId o).values s p = tallyAt b.orders.values s p := by
    intro s p hsp
    rw [hvals, tallyAt_cons_of_ne hsp]
  -- the tally after the join, whatever it was before
  have hjoin : tallyAt (b.orders.insert orderId o).values side price =
      some (Tally.Entry.join (tallyAt b.orders.values side price) qty) := by
    rw [hvals, tallyAt, Tally.tally_cons, if_pos (show levelKey o = (side, price) from rfl)]
    rfl
  have hold := h.levels_eq side price
  simp only [levels_setOrders, heap_setOrders]
  rcases he : tallyAt b.orders.values side price with - | e <;> rw [he] at hold hjoin <;>
    simp only [hold, Option.map_none, Option.map_some]
  -- no order rested at this price: a new level, and its price on the heap
  · refine ⟨_, rfl, by simp, by simp, by simp, ?_⟩
    refine h.rewrite side price ?_ ?_ ?_ ?_
    · simpa using hother
    · intro s p
      rw [levels_setHeap, ← levels_setOrders b (b.orders.insert orderId o), get?_levels_insert,
        orders_setHeap, orders_setLevels, orders_setOrders, hjoin]
      rfl
    · intro s x hx
      rw [heap_setHeap, heap_setLevels, heap_setOrders]
      by_cases hs : s = side
      · subst hs
        rw [if_pos rfl, MinHeap.mem_push]
        exact Or.inr hx
      · rwa [if_neg hs]
    · intro _
      rw [heap_setHeap, if_pos rfl, MinHeap.mem_push]
      exact Or.inl rfl
  -- the level exists, so its price is on the heap already
  · refine ⟨_, rfl, by simp, by simp, by simp, ?_⟩
    refine h.rewrite side price ?_ ?_ ?_ ?_
    · simpa using hother
    · intro s p
      rw [← levels_setOrders b (b.orders.insert orderId o), get?_levels_insert, orders_setLevels,
        orders_setOrders, hjoin]
      rfl
    · intro s x hx
      rwa [heap_setLevels, heap_setOrders]
    · intro _
      rw [heap_setLevels, heap_setOrders]
      exact h.heap_covers side price (by simp [hold])

/-! ### Removing an order

Both ways an order leaves (`delete_order`, and `trade_order` on the last fill) end in the same
sequence: the order is taken out, its level written back without it, three checks, and the level
removed if it is empty. `unlink` names the state before the checks and `unlink_spec` says which of
them can fire: only the negative total. -/

/-- The book without an order, its level written back with the order's share taken out. -/
def unlink (b : OrderBook) (orderId : ℤ) (o : Order) (level : PriceLevel) : OrderBook :=
  (b.setOrders (b.orders.erase orderId)).setLevels o.side ((b.levels o.side).insert o.price level)

section Unlink

variable (b : OrderBook) (orderId : ℤ) (o : Order) (level : PriceLevel)

@[simp] theorem orders_unlink : (unlink b orderId o level).orders = b.orders.erase orderId := by
  simp [unlink]

@[simp] theorem volume_unlink : (unlink b orderId o level).totalVolume = b.totalVolume := by
  simp [unlink]

@[simp] theorem symbol_unlink : (unlink b orderId o level).symbol = b.symbol := by
  simp [unlink]

@[simp] theorem heap_unlink : (unlink b orderId o level).heap = b.heap := by
  simp [unlink]

theorem get?_levels_unlink (s : Side) (p : ℤ) :
    ((unlink b orderId o level).levels s).get? p =
      if (s, p) = (o.side, o.price) then some level else (b.levels s).get? p := by
  rw [unlink, ← levels_setOrders b (b.orders.erase orderId), get?_levels_insert]

end Unlink

/-- The level of an order without its share. -/
def levelWithout (o : Order) (level : PriceLevel) : PriceLevel :=
  { level with totalQty := level.totalQty - o.quantity, orderCount := level.orderCount - 1 }

/-- **Without the order**, the level says what the tally of the others says, and of the three checks
behind it only the one for a negative total can fail. -/
theorem unlink_spec {b : OrderBook} (h : b.Consistent) {orderId : ℤ} {o : Order}
    (ho : b.orders.get? orderId = some o) {e : Tally.Entry ℤ}
    (he : tallyAt (o :: (b.orders.erase orderId).values) o.side o.price = some e) :
    let level := levelWithout o (levelOf o.price e)
    let b₁ := unlink b orderId o level
    level.totalQty = totalAt (b.orders.erase orderId).values o.side o.price ∧
      0 ≤ level.orderCount ∧
      (level.orderCount = 0 → level.totalQty = 0 ∧
        Leaves b (b.orders.erase orderId) b.totalVolume
          (b₁.setLevels o.side ((b₁.levels o.side).erase o.price))) ∧
      (level.orderCount ≠ 0 → Leaves b (b.orders.erase orderId) b.totalVolume b₁) := by
  intro level b₁
  have hrest : tallyAt (b.orders.erase orderId).values o.side o.price =
      if e.count - 1 = 0 then none else some ⟨e.total - o.quantity, e.count - 1⟩ :=
    Tally.tally_of_cons he
  have hother : ∀ s p, (s, p) ≠ (o.side, o.price) →
      tallyAt (b.orders.erase orderId).values s p = tallyAt b.orders.values s p := by
    intro s p hsp
    rw [tallyAt_of_get? ho, tallyAt_cons_of_ne hsp]
  have hone : 1 ≤ e.count := Tally.one_le_count he
  refine ⟨Tally.total_sub_of_cons he, ?_, fun hzero ↦ ⟨Tally.total_sub_eq_zero he hzero, ?_⟩,
    fun hne ↦ ?_⟩
  · show 0 ≤ e.count - 1
    omega
  -- the last order at its price: the level goes
  · have hempty : tallyAt (b.orders.erase orderId).values o.side o.price = none :=
      hrest.trans (if_pos hzero)
    refine ⟨by simp [b₁], by simp [b₁], by simp [b₁], ?_⟩
    refine h.rewrite o.side o.price ?_ ?_ ?_ ?_
    · simpa [b₁] using hother
    · intro s p
      rw [get?_levels_erase, orders_setLevels, orders_unlink, hempty]
      split
      · rfl
      · rename_i hsp
        rw [get?_levels_unlink, if_neg hsp]
    · intro s x hx
      simpa [b₁] using hx
    · intro hc
      rw [Dict.contains, get?_levels_erase, if_pos rfl] at hc
      exact absurd hc (by simp)
  -- others stay at the price: the level stays, with their share
  · have hothers : tallyAt (b.orders.erase orderId).values o.side o.price =
        some ⟨e.total - o.quantity, e.count - 1⟩ := hrest.trans (if_neg hne)
    refine ⟨by simp [b₁], by simp [b₁], by simp [b₁], ?_⟩
    refine h.rewrite o.side o.price ?_ ?_ ?_ ?_
    · simpa [b₁] using hother
    · intro s p
      rw [get?_levels_unlink, orders_unlink, hothers]
      rfl
    · intro s x hx
      simpa [b₁] using hx
    · intro _
      have hcov := h.heap_covers o.side o.price
        (by rw [Dict.contains, h.levels_eq, tallyAt_of_get? ho, he]; rfl)
      simpa [b₁] using hcov

/-- `delete_order` of a resting order takes it out of a consistent book. It raises, having done so,
exactly when the orders left at that price have a negative total. -/
theorem deleteOrder_spec {b : OrderBook} (h : b.Consistent) {orderId : ℤ} {o : Order}
    (ho : b.orders.get? orderId = some o) :
    ∃ b', Leaves b (b.orders.erase orderId) b.totalVolume b' ∧
      deleteOrder orderId b =
        if totalAt (b.orders.erase orderId).values o.side o.price < 0 then
          .error (.negativeTotalOnDelete b.symbol
            (totalAt (b.orders.erase orderId).values o.side o.price) o.price orderId) b'
        else .ok () b' := by
  obtain ⟨e, he, hlevel⟩ := h.exists_level ho
  obtain ⟨htotal, hcount, hzero, hpos⟩ := unlink_spec h ho he
  rw [← htotal]
  have hrun : deleteOrder orderId b =
      let level := levelWithout o (levelOf o.price e)
      let b₁ := unlink b orderId o level
      if level.totalQty < 0 then
        .error (.negativeTotalOnDelete b.symbol level.totalQty o.price orderId) b₁
      else if level.orderCount < 0 then
        .error (.negativeCountOnDelete b.symbol level.orderCount o.price orderId) b₁
      else if level.orderCount = 0 then
        if level.totalQty ≠ 0 then .error (.inconsistentState b.symbol level.totalQty o.price) b₁
        else .ok () (b₁.setLevels o.side ((b₁.levels o.side).erase o.price))
      else .ok () b₁ := by
    unfold deleteOrder
    simp only [ho, levels_setOrders, hlevel, symbol_setLevels, symbol_setOrders]
    rfl
  rw [hrun]
  simp only [if_neg (not_lt.2 hcount)]
  by_cases hz : (levelWithout o (levelOf o.price e)).orderCount = 0
  · obtain ⟨hqty, hleaves⟩ := hzero hz
    exact ⟨_, hleaves, by simp [hz, hqty]⟩
  · exact ⟨_, hpos hz, by simp [hz]⟩

/-- A delete of an id under which nothing rests is passed over. -/
theorem deleteOrder_of_not_mem {b : OrderBook} {orderId : ℤ} (ho : b.orders.get? orderId = none) :
    deleteOrder orderId b = .ok () b := by
  unfold deleteOrder
  simp only [ho]

/-! ### Trading against an order -/

/-- The order after a trade of `qty`. -/
def traded (o : Order) (qty : ℤ) : Order := { o with quantity := o.quantity - qty }

/-- The resting orders after a trade that leaves `o`: an order with nothing left goes. -/
def settle (d : Dict ℤ Order) (orderId : ℤ) (o : Order) : Dict ℤ Order :=
  if o.quantity = 0 then d.erase orderId else d.insert orderId o

/-- The book with an order rewritten in place, its level written back. -/
def relink (b : OrderBook) (orderId : ℤ) (o : Order) (volume : ℤ) (level : PriceLevel) :
    OrderBook :=
  ((b.setOrders (b.orders.insert orderId o)).setVolume volume).setLevels o.side
    ((b.levels o.side).insert o.price level)

section Relink

variable (b : OrderBook) (orderId : ℤ) (o : Order) (volume : ℤ) (level : PriceLevel)

@[simp] theorem orders_relink :
    (relink b orderId o volume level).orders = b.orders.insert orderId o := by
  simp [relink]

@[simp] theorem volume_relink : (relink b orderId o volume level).totalVolume = volume := by
  simp [relink]

@[simp] theorem symbol_relink : (relink b orderId o volume level).symbol = b.symbol := by
  simp [relink]

@[simp] theorem heap_relink : (relink b orderId o volume level).heap = b.heap := by
  simp [relink]

theorem get?_levels_relink (s : Side) (p : ℤ) :
    ((relink b orderId o volume level).levels s).get? p =
      if (s, p) = (o.side, o.price) then some level else (b.levels s).get? p := by
  have h := get?_levels_insert ((b.setOrders (b.orders.insert orderId o)).setVolume volume)
    o.side s o.price p level
  rwa [levels_setVolume, levels_setOrders] at h

end Relink

/-- **With the order rewritten**, the level says what the tally says again. -/
theorem relink_spec {b : OrderBook} (h : b.Consistent) {orderId : ℤ} {o : Order}
    (ho : b.orders.get? orderId = some o) {e : Tally.Entry ℤ}
    (he : tallyAt (o :: (b.orders.erase orderId).values) o.side o.price = some e) (qty : ℤ) :
    let level : PriceLevel := { levelOf o.price e with totalQty := e.total - qty }
    level.totalQty = totalAt (b.orders.insert orderId (traded o qty)).values o.side o.price ∧
      Leaves b (b.orders.insert orderId (traded o qty)) (b.totalVolume + qty)
        (relink b orderId (traded o qty) (b.totalVolume + qty) level) := by
  intro level
  have hnew : tallyAt (b.orders.insert orderId (traded o qty)).values o.side o.price =
      some ⟨e.total - qty, e.count⟩ := by
    rw [tallyAt_insert]
    refine (Tally.tally_cons_of_key_eq o (traded o qty) rfl he).trans ?_
    have htotal : e.total - o.quantity + (traded o qty).quantity = e.total - qty := by
      show e.total - o.quantity + (o.quantity - qty) = e.total - qty
      omega
    rw [htotal]
  have hother : ∀ s p, (s, p) ≠ (o.side, o.price) →
      tallyAt (b.orders.insert orderId (traded o qty)).values s p =
        tallyAt b.orders.values s p := by
    intro s p hsp
    rw [tallyAt_insert, tallyAt_of_get? ho, tallyAt_cons_of_ne hsp]
    exact tallyAt_cons_of_ne (o := traded o qty) hsp
  refine ⟨Tally.total_of_tally hnew, by simp, by simp, by simp, ?_⟩
  refine h.rewrite o.side o.price ?_ ?_ ?_ ?_
  · simpa using hother
  · intro s p
    rw [get?_levels_relink, orders_relink, hnew]
    rfl
  · intro s x hx
    simpa using hx
  · intro _
    have hcov := h.heap_covers o.side o.price
      (by rw [Dict.contains, h.levels_eq, tallyAt_of_get? ho, he]; rfl)
    simpa using hcov

/-- `trade_order` on a resting order takes the quantity out of it. It raises, having done so and
leaving the order in place whatever it has left, exactly when the orders at that price then have a
negative total; otherwise an order with nothing left is removed. -/
theorem tradeOrder_spec {b : OrderBook} (h : b.Consistent) {orderId : ℤ} {o : Order}
    (ho : b.orders.get? orderId = some o) (qty price : ℤ) :
    let total := totalAt (b.orders.insert orderId (traded o qty)).values o.side o.price
    (total < 0 → ∃ b',
      Leaves b (b.orders.insert orderId (traded o qty)) (b.totalVolume + qty) b' ∧
      tradeOrder orderId qty price b =
        .error (.negativeTotalOnTrade b.symbol total o.price orderId) b') ∧
    (0 ≤ total → ∃ b',
      Leaves b (settle b.orders orderId (traded o qty)) (b.totalVolume + qty) b' ∧
      tradeOrder orderId qty price b = .ok () b') := by
  obtain ⟨e, he, hlevel⟩ := h.exists_level ho
  intro total
  obtain ⟨htotal, hleaves⟩ := relink_spec h ho he qty
  set level : PriceLevel := { levelOf o.price e with totalQty := e.total - qty } with hlev
  set b₁ := relink b orderId (traded o qty) (b.totalVolume + qty) level with hb₁
  have hrun : tradeOrder orderId qty price b =
      if level.totalQty < 0 then
        .error (.negativeTotalOnTrade b.symbol level.totalQty o.price orderId) b₁
      else if (traded o qty).quantity = 0 then
        let level : PriceLevel := { level with orderCount := level.orderCount - 1 }
        let b₂ := unlink b₁ orderId (traded o qty) level
        if level.orderCount < 0 then
          .error (.negativeCountOnTrade b.symbol level.orderCount o.price orderId) b₂
        else if level.orderCount = 0 then
          if level.totalQty ≠ 0 then .error (.inconsistentState b.symbol level.totalQty o.price) b₂
          else .ok () (b₂.setLevels o.side ((b₂.levels o.side).erase o.price))
        else .ok () b₂
      else .ok () b₁ := by
    have hside : (traded o qty).side = o.side := rfl
    have hprice : (traded o qty).price = o.price := rfl
    unfold tradeOrder
    simp only [ho, hlevel, levels_setOrders, levels_setVolume, symbol_setLevels, symbol_setOrders,
      symbol_setVolume, hb₁, hlev, unlink, relink, hside, hprice]
    rfl
  constructor
  · intro hneg
    refine ⟨b₁, hleaves, ?_⟩
    rw [hrun, if_pos (htotal ▸ hneg), htotal]
  intro hnonneg
  rw [hrun, if_neg (not_lt.2 (htotal ▸ hnonneg))]
  -- a partial fill ends with the rewritten level
  by_cases hq : (traded o qty).quantity = 0
  swap
  · refine ⟨b₁, ?_, by rw [if_neg hq]⟩
    rwa [settle, if_neg hq]
  -- the last fill: the order, with nothing left, is taken out of the rewritten book
  rw [if_pos hq, settle, if_pos hq]
  have ho₁ : b₁.orders.get? orderId = some (traded o qty) := by
    rw [hleaves.orders_eq, Dict.get?_insert_self]
  have herase : b₁.orders.erase orderId = b.orders.erase orderId := by
    rw [hleaves.orders_eq, Dict.erase_insert_self]
  obtain ⟨e₁, he₁, hlevel₁⟩ := hleaves.consistent.exists_level ho₁
  have hsame : levelOf o.price e₁ = level := by
    have h₁ : (b₁.levels o.side).get? o.price = some (levelOf o.price e₁) := hlevel₁
    have hkey : (o.side, o.price) = ((traded o qty).side, (traded o qty).price) := rfl
    rw [hb₁, get?_levels_relink, if_pos hkey, Option.some.injEq] at h₁
    exact h₁.symm
  have hwithout : levelWithout (traded o qty) (levelOf o.price e₁) =
      { level with orderCount := level.orderCount - 1 } := by
    rw [hsame, levelWithout, hq, sub_zero]
  obtain ⟨-, hcount, hzero, hpos⟩ := unlink_spec hleaves.consistent ho₁ he₁
  have hprice : (traded o qty).price = o.price := rfl
  have hside : (traded o qty).side = o.side := rfl
  rw [herase, hprice, hside, hwithout] at hzero
  rw [herase, hprice, hwithout] at hpos
  rw [hprice, hwithout] at hcount
  simp only [if_neg (not_lt.2 hcount)]
  by_cases hz : level.orderCount - 1 = 0
  · obtain ⟨hqty, hl⟩ := hzero hz
    refine ⟨_, hleaves.trans hl, ?_⟩
    rw [if_pos hz, if_neg (not_not.2 hqty)]
  · refine ⟨_, hleaves.trans (hpos hz), ?_⟩
    rw [if_neg hz]

/-- A trade against an id under which nothing rests is raised, and nothing is written. -/
theorem tradeOrder_of_not_mem {b : OrderBook} {orderId : ℤ} (qty price : ℤ)
    (ho : b.orders.get? orderId = none) :
    tradeOrder orderId qty price b = .error (.tradeNotFound b.symbol orderId) b := by
  unfold tradeOrder
  simp only [ho]

/-! ### Modifying an order -/

/-- `modify_order` of a resting order is its removal and, if that raised nothing and the new
quantity is positive, the arrival of the modified order. A quantity that is not positive is found
out only after the order is gone. -/
theorem modifyOrder_spec {b : OrderBook} (h : b.Consistent) {orderId : ℤ} {o : Order}
    (ho : b.orders.get? orderId = some o) (side : Side) (qty price : ℤ) :
    let total := totalAt (b.orders.erase orderId).values o.side o.price
    (total < 0 → ∃ b', Leaves b (b.orders.erase orderId) b.totalVolume b' ∧
      modifyOrder orderId side qty price b =
        .error (.negativeTotalOnDelete b.symbol total o.price orderId) b') ∧
    (0 ≤ total → qty ≤ 0 → ∃ b', Leaves b (b.orders.erase orderId) b.totalVolume b' ∧
      modifyOrder orderId side qty price b =
        .error (.nonPositiveQty o.symbol qty orderId) b') ∧
    (0 ≤ total → 0 < qty → ∃ b',
      Leaves b ((b.orders.erase orderId).insert orderId
        ⟨orderId, o.symbol, side, qty, price, o.timestamp⟩) b.totalVolume b' ∧
      modifyOrder orderId side qty price b = .ok () b') := by
  intro total
  obtain ⟨b₁, hleaves, hdelete⟩ := deleteOrder_spec h ho
  have hnone : b₁.orders.get? orderId = none := by
    rw [hleaves.orders_eq, Dict.get?_erase_self]
  have hrun : modifyOrder orderId side qty price b =
      (deleteOrder orderId >>= fun _ ↦
        addOrder orderId o.symbol side qty price o.timestamp) b := by
    unfold modifyOrder
    simp only [ho]
  refine ⟨fun hneg ↦ ?_, fun hnonneg hqty ↦ ?_, fun hnonneg hqty ↦ ?_⟩
  · refine ⟨b₁, hleaves, ?_⟩
    rw [hrun, Method.bind_error (hdelete.trans (if_pos hneg))]
  · refine ⟨b₁, hleaves, ?_⟩
    rw [hrun, Method.bind_ok (hdelete.trans (if_neg (not_lt.2 hnonneg)))]
    rcases addOrder_spec hleaves.consistent orderId o.symbol side qty price o.timestamp with
      ⟨hdup, -⟩ | ⟨-, -, hadd⟩ | ⟨-, hpos, -⟩
    · simp [Dict.contains, hnone] at hdup
    · exact hadd
    · omega
  · rw [hrun, Method.bind_ok (hdelete.trans (if_neg (not_lt.2 hnonneg)))]
    rcases addOrder_spec hleaves.consistent orderId o.symbol side qty price o.timestamp with
      ⟨hdup, -⟩ | ⟨-, hle, -⟩ | ⟨-, -, b₂, hadd, hl⟩
    · simp [Dict.contains, hnone] at hdup
    · omega
    · have hboth := hleaves.trans hl
      rw [hleaves.orders_eq] at hboth
      exact ⟨b₂, hboth, hadd⟩

theorem modifyOrder_of_not_mem {b : OrderBook} {orderId : ℤ} (side : Side) (qty price : ℤ)
    (ho : b.orders.get? orderId = none) :
    modifyOrder orderId side qty price b = .error (.modifyNotFound b.symbol orderId) b := by
  unfold modifyOrder
  simp only [ho]

/-! ### What returning says

An operation that returns has met none of its errors, and did to the orders what it is for. -/

/-- An order that is added was not there, and is for a positive quantity. -/
theorem addOrder_ok {b b' : OrderBook} (h : b.Consistent) {orderId symbol : ℤ} {side : Side}
    {qty price timestamp : ℤ}
    (hrun : addOrder orderId symbol side qty price timestamp b = .ok () b') :
    b.orders.get? orderId = none ∧ 0 < qty ∧
      Leaves b (b.orders.insert orderId ⟨orderId, symbol, side, qty, price, timestamp⟩)
        b.totalVolume b' := by
  rcases addOrder_spec h orderId symbol side qty price timestamp with
    ⟨-, herror⟩ | ⟨-, -, herror⟩ | ⟨hnone, hqty, b₁, hok, hl⟩
  · cases herror.symm.trans hrun
  · cases herror.symm.trans hrun
  · cases hok.symm.trans hrun
    exact ⟨hnone, hqty, hl⟩

/-- A trade that returns was against an order that rests. -/
theorem tradeOrder_ok {b b' : OrderBook} (h : b.Consistent) {orderId qty price : ℤ}
    (hrun : tradeOrder orderId qty price b = .ok () b') :
    ∃ o, b.orders.get? orderId = some o ∧
      Leaves b (settle b.orders orderId (traded o qty)) (b.totalVolume + qty) b' := by
  rcases ho : b.orders.get? orderId with - | o
  · cases (tradeOrder_of_not_mem qty price ho).symm.trans hrun
  refine ⟨o, rfl, ?_⟩
  obtain ⟨hneg, hnonneg⟩ := tradeOrder_spec h ho qty price
  rcases lt_or_ge (totalAt (b.orders.insert orderId (traded o qty)).values o.side o.price) 0
    with htotal | htotal
  · obtain ⟨_, -, herror⟩ := hneg htotal
    cases herror.symm.trans hrun
  · obtain ⟨b₁, hl, hok⟩ := hnonneg htotal
    cases hok.symm.trans hrun
    exact hl

/-- A modification that returns was of an order that rests, to a positive quantity. -/
theorem modifyOrder_ok {b b' : OrderBook} (h : b.Consistent) {orderId : ℤ} {side : Side}
    {qty price : ℤ} (hrun : modifyOrder orderId side qty price b = .ok () b') :
    ∃ o, b.orders.get? orderId = some o ∧ 0 < qty ∧
      Leaves b ((b.orders.erase orderId).insert orderId
        ⟨orderId, o.symbol, side, qty, price, o.timestamp⟩) b.totalVolume b' := by
  rcases ho : b.orders.get? orderId with - | o
  · cases (modifyOrder_of_not_mem side qty price ho).symm.trans hrun
  refine ⟨o, rfl, ?_⟩
  obtain ⟨hneg, hbad, hgood⟩ := modifyOrder_spec h ho side qty price
  rcases lt_or_ge (totalAt (b.orders.erase orderId).values o.side o.price) 0 with htotal | htotal
  · obtain ⟨_, -, herror⟩ := hneg htotal
    cases herror.symm.trans hrun
  rcases le_or_gt qty 0 with hqty | hqty
  · obtain ⟨_, -, herror⟩ := hbad htotal hqty
    cases herror.symm.trans hrun
  · obtain ⟨b₁, hl, hok⟩ := hgood htotal hqty
    cases hok.symm.trans hrun
    exact ⟨hqty, hl⟩

/-! ### Every exit

What an operation leaves whether it returns or raises, seen from the ids: only the order it names
can change, and only `add_order` makes an id rest that did not. -/

/-- The orders after an operation on `id`, seen from the ids. -/
structure Confined (id : ℤ) (orders orders' : Dict ℤ Order) : Prop where
  /-- The other orders are as they were. -/
  others : ∀ k, k ≠ id → orders'.get? k = orders.get? k
  /-- Nothing rests under an id that did not. -/
  absent : orders.get? id = none → orders'.get? id = none

/-- An operation that does nothing is confined. -/
theorem Confined.refl (id : ℤ) (d : Dict ℤ Order) : Confined id d d :=
  ⟨fun _ _ ↦ rfl, fun h ↦ h⟩

/-- Taking an order out is confined to its id. -/
theorem confined_erase (id : ℤ) (d : Dict ℤ Order) : Confined id d (d.erase id) :=
  ⟨fun _ hk ↦ d.get?_erase_of_ne hk, fun _ ↦ d.get?_erase_self id⟩

theorem confined_insert {id : ℤ} {d : Dict ℤ Order} {o : Order} (h : d.get? id = some o)
    (o' : Order) : Confined id d (d.insert id o') :=
  ⟨fun _ hk ↦ d.get?_insert_of_ne o' hk, fun hnone ↦ by rw [h] at hnone; cases hnone⟩

/-- **A delete** leaves the orders without its own, whether it returns or raises. -/
theorem deleteOrder_after {b : OrderBook} (h : b.Consistent) (orderId : ℤ) :
    Leaves b (b.orders.erase orderId) b.totalVolume ((deleteOrder orderId).after b) := by
  rcases ho : b.orders.get? orderId with - | o
  · rw [Method.after_ok (deleteOrder_of_not_mem ho), Dict.erase_eq_self ho]
    exact ⟨rfl, rfl, rfl, h⟩
  obtain ⟨b', hl, hdelete⟩ := deleteOrder_spec h ho
  split at hdelete
  · rwa [Method.after_error hdelete]
  · rwa [Method.after_ok hdelete]

/-- **A trade** is confined to its order, on every exit. -/
theorem tradeOrder_after {b : OrderBook} (h : b.Consistent) (orderId qty price : ℤ) :
    ∃ orders volume, Leaves b orders volume ((tradeOrder orderId qty price).after b) ∧
      Confined orderId b.orders orders := by
  rcases ho : b.orders.get? orderId with - | o
  · rw [Method.after_error (tradeOrder_of_not_mem qty price ho)]
    exact ⟨_, _, ⟨rfl, rfl, rfl, h⟩, .refl orderId b.orders⟩
  obtain ⟨hneg, hnonneg⟩ := tradeOrder_spec h ho qty price
  rcases lt_or_ge (totalAt (b.orders.insert orderId (traded o qty)).values o.side o.price) 0
    with htotal | htotal
  · obtain ⟨b', hl, htrade⟩ := hneg htotal
    rw [Method.after_error htrade]
    exact ⟨_, _, hl, confined_insert ho _⟩
  · obtain ⟨b', hl, htrade⟩ := hnonneg htotal
    rw [Method.after_ok htrade]
    refine ⟨_, _, hl, ?_⟩
    unfold settle
    split
    · exact confined_erase orderId b.orders
    · exact confined_insert ho _

/-- **A modification** is confined to its order, on every exit. -/
theorem modifyOrder_after {b : OrderBook} (h : b.Consistent) (orderId : ℤ) (side : Side)
    (qty price : ℤ) :
    ∃ orders volume, Leaves b orders volume ((modifyOrder orderId side qty price).after b) ∧
      Confined orderId b.orders orders := by
  rcases ho : b.orders.get? orderId with - | o
  · rw [Method.after_error (modifyOrder_of_not_mem side qty price ho)]
    exact ⟨_, _, ⟨rfl, rfl, rfl, h⟩, .refl orderId b.orders⟩
  obtain ⟨hneg, hbad, hgood⟩ := modifyOrder_spec h ho side qty price
  rcases lt_or_ge (totalAt (b.orders.erase orderId).values o.side o.price) 0 with htotal | htotal
  · obtain ⟨b', hl, hmodify⟩ := hneg htotal
    rw [Method.after_error hmodify]
    exact ⟨_, _, hl, confined_erase orderId b.orders⟩
  rcases le_or_gt qty 0 with hqty | hqty
  · obtain ⟨b', hl, hmodify⟩ := hbad htotal hqty
    rw [Method.after_error hmodify]
    exact ⟨_, _, hl, confined_erase orderId b.orders⟩
  · obtain ⟨b', hl, hmodify⟩ := hgood htotal hqty
    rw [Method.after_ok hmodify]
    refine ⟨_, _, hl, fun k hk ↦ ?_, fun hnone ↦ ?_⟩
    · rw [Dict.get?_insert_of_ne _ _ hk, Dict.get?_erase_of_ne _ hk]
    · rw [ho] at hnone
      cases hnone

/-- **An addition** leaves the other orders alone, on every exit. -/
theorem addOrder_after {b : OrderBook} (h : b.Consistent) (orderId symbol : ℤ) (side : Side)
    (qty price timestamp : ℤ) :
    ∃ orders, Leaves b orders b.totalVolume
        ((addOrder orderId symbol side qty price timestamp).after b) ∧
      ∀ k, k ≠ orderId → orders.get? k = b.orders.get? k := by
  rcases addOrder_spec h orderId symbol side qty price timestamp with
    ⟨-, hadd⟩ | ⟨-, -, hadd⟩ | ⟨-, -, b', hadd, hl⟩
  · rw [Method.after_error hadd]
    exact ⟨_, ⟨rfl, rfl, rfl, h⟩, fun _ _ ↦ rfl⟩
  · rw [Method.after_error hadd]
    exact ⟨_, ⟨rfl, rfl, rfl, h⟩, fun _ _ ↦ rfl⟩
  · rw [Method.after_ok hadd]
    exact ⟨_, hl, fun k hk ↦ b.orders.get?_insert_of_ne _ hk⟩

end HftTrading.OrderBook
