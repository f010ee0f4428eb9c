import HftTrading.Feed.SnapshotStep
import HftTrading.Lib.Cycles

/-!
# The snapshot channel

The exchange sends the snapshots of all symbols in cycles: for each symbol a `SnapshotInfo` with the
number of its orders and then these orders. Packets get lost. What the synchronizer is handed is,
symbol by symbol, a part of what was sent, in the order in which it was sent (`Lossy`); how the
symbols interleave is left open.

A received item carries the number of the cycle it was sent in. The synchronizer does not see that
number, and it is what the statements are about: the cycle of the last `SnapshotInfo` of a symbol
(`lastInfo`) and the orders received of one cycle (`ordersIn`).

## What the exchange vouches for

A `SymbolSnapshot` is well formed by construction: the orders carry distinct ids, are all of its
symbol, do not cross, and are as many as the info says. What a part of it amounts to as a book
(`filed`) then needs no side conditions, and grows by one order at a time (`filed_concat`).

## One more item

The statements about runs go item by item from the end of the list, so each of the functions above
has a lemma for a list with one more item (`itemsIn_concat`, `ordersIn_concat_info`,
`ordersIn_concat_order`, `lastInfo_concat_info`, `lastInfo_concat_order`). A cycle that loses
nothing (`InOrder`) is the special case in which every order comes after its own info.
-/

namespace HftTrading

open MarketData SnapShotSynchronizer

/-! ### Items -/

/-- A message the snapshot handlers act on. -/
inductive SnapshotItem
  | info (body : SnapshotInfo)
  | order (header : MDHeader) (body : NewOrder)
  deriving DecidableEq

namespace SnapshotItem

/-- The symbol an item is about. -/
def symbol : SnapshotItem → ℕ
  | .info body => body.symbol
  | .order _ body => body.symbol

/-- The order an item is. -/
def order? : SnapshotItem → Option (MDHeader × NewOrder)
  | .info _ => none
  | .order header body => some (header, body)

/-- The handler of an item. -/
def handle : SnapshotItem → Method FeedError SnapShotSynchronizer Unit
  | .info body => handleSnapshotInfo body
  | .order header body => handleSnapshotOrder header body

end SnapshotItem

namespace SnapShotSynchronizer

/-- The item a message is, if it is one: `handle_snapshot_message` goes by type and body. -/
def itemOf (header : MDHeader) (body : MarketDataMessage) : Option SnapshotItem :=
  match header.msgType, body with
  | .snapshotInfo, .snapshotInfo b => some (.info b)
  | .newOrder, .newOrder b => some (.order header b)
  | _, _ => none

/-- The item an event hands to the snapshot handlers, if any. -/
def Event.item? : Event → Option SnapshotItem
  | .packet header body => if header.magicNumber = MAGIC_NUMBER then none else itemOf header body
  | .read _ => none

theorem itemOf_eq_order {header header' : MDHeader} {body : MarketDataMessage} {b : NewOrder}
    (h : itemOf header body = some (.order header' b)) :
    header' = header ∧ header.msgType = .newOrder ∧ body = .newOrder b := by
  unfold itemOf at h
  split at h
  · cases h
  · rename_i hmsg
    cases h
    exact ⟨rfl, hmsg, rfl⟩
  · cases h

/-- An event that hands over an order is a snapshot packet of a new order. -/
theorem Event.item?_eq_order {event : Event} {header : MDHeader} {b : NewOrder}
    (h : event.item? = some (.order header b)) :
    header.magicNumber ≠ MAGIC_NUMBER ∧ header.msgType = .newOrder ∧
      event = .packet header (.newOrder b) := by
  cases event with
  | read symbol => cases h
  | packet header' body =>
    simp only [Event.item?] at h
    split_ifs at h with hmagic
    obtain ⟨rfl, hmsg, rfl⟩ := itemOf_eq_order h
    exact ⟨hmagic, hmsg, rfl⟩

/-- And a message that is a new order is handed over as one. -/
theorem itemOf_order {header : MDHeader} (hmsg : header.msgType = .newOrder) (b : NewOrder) :
    itemOf header (.newOrder b) = some (.order header b) := by
  unfold itemOf
  rw [hmsg]

/-- A message that is an item is handled as that item. -/
theorem handleSnapshotMessage_of_item {header : MDHeader} {body : MarketDataMessage}
    {item : SnapshotItem} (h : itemOf header body = some item) :
    handleSnapshotMessage header body = item.handle := by
  unfold itemOf at h
  split at h
  · rename_i hmsg
    cases h
    unfold handleSnapshotMessage
    rw [hmsg]
    rfl
  · rename_i hmsg
    cases h
    unfold handleSnapshotMessage
    rw [hmsg]
    rfl
  · cases h

theorem handleSnapshotMessage_of_no_item {header : MDHeader} {body : MarketDataMessage}
    (h : itemOf header body = none) : handleSnapshotMessage header body = pure () := by
  unfold handleSnapshotMessage
  split
  · rename_i b hmsg
    simp [itemOf, hmsg] at h
  · rename_i b hmsg
    simp [itemOf, hmsg] at h
  · rfl

/-- **The snapshot handlers raise exactly on orders that do not fit.** -/
theorem handleSnapshotMessage_raises_iff {z : SnapShotSynchronizer} (h : z.bookManager.Solvent)
    (header : MDHeader) (body : MarketDataMessage) :
    (handleSnapshotMessage header body).Raises z ↔
      ∃ b, header.msgType = .newOrder ∧ body = .newOrder b ∧ ¬ z.Fits header b := by
  rcases hitem : itemOf header body with - | ⟨b | ⟨header', b⟩⟩
  · rw [handleSnapshotMessage_of_no_item hitem]
    refine iff_of_false (Method.not_raises_of_ok rfl) ?_
    rintro ⟨b, hmsg, rfl, -⟩
    cases hitem.symm.trans (itemOf_order hmsg b)
  · rw [handleSnapshotMessage_of_item hitem]
    obtain ⟨z', hrun⟩ := handleSnapshotInfo_returns h.books b
    have hreturns : SnapshotItem.handle (.info b) z = .ok () z' := hrun
    refine iff_of_false (Method.not_raises_of_ok hreturns) ?_
    rintro ⟨b', hmsg, rfl, -⟩
    cases hitem.symm.trans (itemOf_order hmsg b')
  · obtain ⟨rfl, hmsg, rfl⟩ := itemOf_eq_order hitem
    rw [handleSnapshotMessage_of_item hitem]
    show (handleSnapshotOrder header' b).Raises z ↔ _
    rw [handleSnapshotOrder_raises_iff h]
    constructor
    · intro hnot
      exact ⟨b, hmsg, rfl, hnot⟩
    · rintro ⟨b', -, hb, hnot⟩
      cases hb
      exact hnot

end SnapShotSynchronizer

/-! ### What is sent -/

/-- The snapshot of a symbol, as the exchange sends it. -/
structure SymbolSnapshot (symbol : ℕ) where
  /-- The `SnapshotInfo` it opens with. -/
  info : SnapshotInfo
  /-- The orders that follow, with their headers. -/
  orders : List (MDHeader × NewOrder)
  symbol_info : info.symbol = symbol
  symbol_orders : ∀ o ∈ orders, o.2.symbol = symbol
  count_eq : info.bidCount + info.askCount = orders.length
  nodup : (orders.map fun o ↦ o.2.orderId).Nodup
  positive : ∀ o ∈ orders, 0 < o.2.quantity
  uncrossed : ∀ o ∈ orders, ∀ o' ∈ orders, o.2.side = .buy → o'.2.side = .sell →
    o.2.price < o'.2.price

namespace SymbolSnapshot

variable {symbol : ℕ}

/-- Everything that is sent for it. -/
def items (snap : SymbolSnapshot symbol) : List SnapshotItem :=
  .info snap.info :: snap.orders.map fun o ↦ .order o.1 o.2

/-- The orders among what is sent are the orders of the snapshot. -/
theorem orders_of_items (snap : SymbolSnapshot symbol) :
    snap.items.filterMap SnapshotItem.order? = snap.orders := by
  rw [items, List.filterMap_cons_none rfl, List.filterMap_map]
  exact List.filterMap_some

end SymbolSnapshot

/-- The book that a list of orders amounts to. -/
def filed (os : List (MDHeader × NewOrder)) (k : ℤ) : Option Order :=
  (os.find? fun o ↦ (o.2.orderId : ℤ) = k).map fun o ↦ orderOf o.1 o.2

/-- What is filed under an id is one of the orders, under that id. -/
theorem filed_eq_some {os : List (MDHeader × NewOrder)} {k : ℤ} {r : Order}
    (h : filed os k = some r) : ∃ o ∈ os, (o.2.orderId : ℤ) = k ∧ orderOf o.1 o.2 = r := by
  obtain ⟨o, ho, hr⟩ := Option.map_eq_some_iff.1 h
  exact ⟨o, List.mem_of_find?_eq_some ho, by simpa using List.find?_some ho, hr⟩

section Parts

variable {symbol : ℕ} (snap : SymbolSnapshot symbol) {os : List (MDHeader × NewOrder)}
  {header : MDHeader} {body : NewOrder}

/-- The ids before an order differ from its own. -/
theorem SymbolSnapshot.new_id (h : (os ++ [(header, body)]).Sublist snap.orders) :
    ∀ o ∈ os, o.2.orderId ≠ body.orderId := by
  have hnodup := snap.nodup.sublist (h.map fun o ↦ o.2.orderId)
  rw [List.map_append, List.nodup_append] at hnodup
  exact fun o ho ↦ hnodup.2.2 _ (List.mem_map.2 ⟨o, ho, rfl⟩) _ List.mem_cons_self

/-- One more order, under its new id. -/
theorem SymbolSnapshot.filed_concat (h : (os ++ [(header, body)]).Sublist snap.orders) (k : ℤ) :
    filed (os ++ [(header, body)]) k =
      if k = body.orderId then some (orderOf header body) else filed os k := by
  unfold filed
  rw [Dict.find?_concat (fun o : MDHeader × NewOrder ↦ (o.2.orderId : ℤ))
    fun o ho ↦ Nat.cast_injective.ne (snap.new_id h o ho)]
  split <;> rfl

/-- No part of a snapshot is crossed. -/
theorem SymbolSnapshot.not_crossed (h : os.Sublist snap.orders) {rs : List Order}
    (hrs : ∀ r ∈ rs, ∃ o ∈ os, orderOf o.1 o.2 = r) : ¬ OrderBook.Crossed rs := by
  rintro ⟨bid, ask, ⟨⟨r, hr, hside, rfl⟩, -⟩, ⟨⟨r', hr', hside', rfl⟩, -⟩, -, -, hle⟩
  obtain ⟨o, ho, rfl⟩ := hrs r hr
  obtain ⟨o', ho', rfl⟩ := hrs r' hr'
  exact absurd hle (not_le.2 (snap.uncrossed o (h.subset ho) o' (h.subset ho') hside hside'))

end Parts

/-! ### What is received -/

/-- The items among numbered events, each with its number. -/
def received (events : List (ℕ × Event)) : List (ℕ × SnapshotItem) :=
  events.filterMap fun x ↦ x.2.item?.map fun item ↦ (x.1, item)

/-- Of each symbol, what is received is part of what `exchange` sent in a number of cycles. -/
def Lossy (exchange : ℕ → (symbol : ℕ) → SymbolSnapshot symbol) (cycles : ℕ)
    (l : List (ℕ × SnapshotItem)) : Prop :=
  ∀ s, (l.filter fun x ↦ x.2.symbol = s).Sublist
    (Cycles.sent (fun c ↦ (exchange c s).items) cycles)

/-- The cycle of the last `SnapshotInfo` of a symbol. -/
def lastInfo (s : ℕ) (l : List (ℕ × SnapshotItem)) : Option ℕ :=
  (l.filter fun x ↦ x.2.symbol = s ∧ x.2.order? = none).getLast?.map Prod.fst

/-- What is there of the snapshot of a symbol in a cycle. -/
def itemsIn (c s : ℕ) (l : List (ℕ × SnapshotItem)) : List SnapshotItem :=
  Cycles.part c (l.filter fun x ↦ x.2.symbol = s)

/-- The orders that are there of it. -/
def ordersIn (c s : ℕ) (l : List (ℕ × SnapshotItem)) : List (MDHeader × NewOrder) :=
  (itemsIn c s l).filterMap SnapshotItem.order?

section Received

variable {exchange : ℕ → (symbol : ℕ) → SymbolSnapshot symbol} {cycles c c' s : ℕ}
  {l l' : List (ℕ × SnapshotItem)}

/-- One more event that hands an item over. -/
theorem received_concat {events : List (ℕ × Event)} {x : ℕ × Event} {item : SnapshotItem}
    (h : x.2.item? = some item) : received (events ++ [x]) = received events ++ [(x.1, item)] := by
  unfold received
  rw [List.filterMap_append]
  simp [h]

theorem received_concat_of_none {events : List (ℕ × Event)} {x : ℕ × Event}
    (h : x.2.item? = none) : received (events ++ [x]) = received events := by
  unfold received
  rw [List.filterMap_append]
  simp [h]

/-- An earlier part of the events has an earlier part of the items. -/
theorem received_mono {events events' : List (ℕ × Event)} (h : events <+: events') :
    received events <+: received events' :=
  h.filterMap _

/-- Losses are losses of any earlier part too. -/
theorem Lossy.mono (h : Lossy exchange cycles l') (hpre : l <+: l') :
    Lossy exchange cycles l :=
  fun s ↦ ((hpre.sublist).filter _).trans (h s)

/-- Of a cycle, what is there of a symbol is part of what was sent. -/
theorem Lossy.items_sublist (h : Lossy exchange cycles l) (c s : ℕ) :
    (itemsIn c s l).Sublist (exchange c s).items :=
  Cycles.part_sublist (h s) c

/-- Its orders are part of the orders that were sent. -/
theorem Lossy.orders_sublist (h : Lossy exchange cycles l) (c s : ℕ) :
    (ordersIn c s l).Sublist (exchange c s).orders := by
  have hsub := (h.items_sublist c s).filterMap SnapshotItem.order?
  rwa [SymbolSnapshot.orders_of_items] at hsub

/-- One more item counts in its own cycle and for its own symbol. -/
theorem itemsIn_concat (item : SnapshotItem) :
    itemsIn c s (l ++ [(c', item)]) =
      if c' = c ∧ item.symbol = s then itemsIn c s l ++ [item] else itemsIn c s l := by
  unfold itemsIn
  rw [List.filter_append, Cycles.part_append]
  by_cases hs : item.symbol = s
  · by_cases hc : c' = c <;> simp [Cycles.part, hs, hc]
  · simp [Cycles.part, hs]

theorem ordersIn_concat_info (b : SnapshotInfo) :
    ordersIn c s (l ++ [(c', .info b)]) = ordersIn c s l := by
  unfold ordersIn
  rw [itemsIn_concat]
  split
  · rw [List.filterMap_append]
    exact List.append_nil _
  · rfl

/-- An order is added in its own cycle and for its own symbol. -/
theorem ordersIn_concat_order (header : MDHeader) (b : NewOrder) :
    ordersIn c s (l ++ [(c', .order header b)]) =
      if c' = c ∧ b.symbol = s then ordersIn c s l ++ [(header, b)] else ordersIn c s l := by
  unfold ordersIn
  rw [itemsIn_concat]
  by_cases hown : c' = c ∧ b.symbol = s
  · have hitem : c' = c ∧ (SnapshotItem.order header b).symbol = s := hown
    rw [if_pos hitem, if_pos hown, List.filterMap_append]
    rfl
  · have hitem : ¬ (c' = c ∧ (SnapshotItem.order header b).symbol = s) := hown
    rw [if_neg hitem, if_neg hown]

/-- The last info of a symbol is the newest one about it. -/
theorem lastInfo_concat_info (b : SnapshotInfo) :
    lastInfo s (l ++ [(c, .info b)]) = if b.symbol = s then some c else lastInfo s l := by
  unfold lastInfo
  rw [List.filter_append]
  by_cases hs : b.symbol = s <;> simp [SnapshotItem.symbol, SnapshotItem.order?, hs]

/-- An order does not change which info was last. -/
theorem lastInfo_concat_order (header : MDHeader) (b : NewOrder) :
    lastInfo s (l ++ [(c, .order header b)]) = lastInfo s l := by
  unfold lastInfo
  rw [List.filter_append]
  simp [SnapshotItem.order?]

/-- **A `SnapshotInfo` comes before the orders of its cycle**, and is the one that was sent. -/
theorem Lossy.of_info {b : SnapshotInfo} (h : Lossy exchange cycles (l ++ [(c, .info b)])) :
    b = (exchange c b.symbol).info ∧ ordersIn c b.symbol l = [] := by
  have hsub := h.items_sublist c b.symbol
  rw [itemsIn_concat, if_pos ⟨rfl, rfl⟩] at hsub
  obtain ⟨hnil, heq⟩ := Cycles.eq_nil_of_concat_sublist hsub (by simp)
  refine ⟨SnapshotItem.info.inj heq, ?_⟩
  rw [ordersIn, hnil]
  rfl

/-! ### A cycle in order -/

/-- Of each symbol, what is received is what was sent so far in one cycle, with nothing lost. -/
def InOrder (snap : (symbol : ℕ) → SymbolSnapshot symbol) (c : ℕ) (l : List (ℕ × SnapshotItem)) :
    Prop :=
  ∀ s, (l.filter fun x ↦ x.2.symbol = s) <+: (snap s).items.map fun item ↦ (c, item)

variable {snap : (symbol : ℕ) → SymbolSnapshot symbol}

theorem InOrder.mono (h : InOrder snap c l') (hpre : l <+: l') : InOrder snap c l :=
  fun s ↦ (hpre.filter _).trans (h s)

/-- A cycle in order is one with nothing lost. -/
theorem InOrder.lossy (h : InOrder (exchange c) c l) : Lossy exchange (c + 1) l := by
  intro s
  rw [Cycles.sent_succ]
  exact (h s).sublist.trans (List.sublist_append_right _ _)

/-- Once anything of a symbol is there, its `SnapshotInfo` is. -/
theorem InOrder.lastInfo_eq (h : InOrder snap c l) (s : ℕ) :
    lastInfo s l = if l.filter (fun x ↦ x.2.symbol = s) = [] then none else some c := by
  have hfilter : lastInfo s l = (((l.filter fun x ↦ x.2.symbol = s).filter
      fun x ↦ x.2.order? = none).getLast?).map Prod.fst := by
    rw [lastInfo, List.filter_filter]
    simp only [Bool.decide_and, Bool.and_comm]
  have hs := h s
  rw [hfilter]
  generalize l.filter (fun x ↦ decide (x.2.symbol = s)) = own at hs ⊢
  rcases own with - | ⟨first, rest⟩
  · rfl
  · obtain ⟨rfl, hrest⟩ := List.cons_prefix_cons.1 hs
    have horders : rest.filter (fun x ↦ x.2.order? = none) = [] := by
      refine List.filter_eq_nil_iff.2 fun x hx ↦ ?_
      obtain ⟨item, hitem, rfl⟩ := List.mem_map.1 (hrest.subset hx)
      obtain ⟨o, -, rfl⟩ := List.mem_map.1 hitem
      simp [SnapshotItem.order?]
    rw [List.filter_cons_of_pos (by simp [SnapshotItem.order?]), horders,
      if_neg (List.cons_ne_nil _ _)]
    rfl

/-- With the whole snapshot of a symbol there, its info is. -/
theorem InOrder.lastInfo_of_all (h : InOrder snap c l)
    (hall : (l.filter fun x ↦ x.2.symbol = s) = (snap s).items.map fun item ↦ (c, item)) :
    lastInfo s l = some c := by
  rw [h.lastInfo_eq, if_neg]
  rw [hall]
  exact List.cons_ne_nil _ _

/-- An order comes after its `SnapshotInfo`. -/
theorem InOrder.of_order {header : MDHeader} {b : NewOrder}
    (h : InOrder snap c (l ++ [(c', .order header b)])) :
    c' = c ∧ lastInfo b.symbol l = some c := by
  have hs := h b.symbol
  have hlast : [(c', SnapshotItem.order header b)].filter (fun x ↦ x.2.symbol = b.symbol) =
      [(c', .order header b)] := by
    simp [SnapshotItem.symbol]
  rw [List.filter_append, hlast] at hs
  refine ⟨?_, ?_⟩
  · have hmem := hs.subset (List.mem_append_right _ (List.mem_singleton_self _))
    obtain ⟨item, -, heq⟩ := List.mem_map.1 hmem
    exact (Prod.mk.inj heq).1.symm
  · rw [(h.mono (List.prefix_append _ _)).lastInfo_eq, if_neg]
    intro hnil
    rw [hnil] at hs
    obtain ⟨hinfo, -⟩ := List.cons_prefix_cons.1 hs
    cases hinfo

end Received

/-! ### Snapshots for concrete runs -/

/-- A snapshot of buys of one at 100, under given ids. -/
def buysOf (symbol : ℕ) (ids : List ℕ) (hids : ids.Nodup) : SymbolSnapshot symbol where
  info := ⟨symbol, ids.length, 0, 0⟩
  orders := ids.map fun id ↦ (⟨0, 45, 0, 0, .newOrder⟩, ⟨id, symbol, .buy, 1, 100, 0⟩)
  symbol_info := rfl
  symbol_orders := by simp
  count_eq := by simp
  nodup := by simpa [List.map_map, Function.comp_def] using hids
  positive := by simp
  uncrossed := by simp

/-- The packet an item arrives in, with the number of its cycle. -/
def packetOf (c : ℕ) : SnapshotItem → ℕ × Event
  | .info b => (c, .packet ⟨0, 39, 0, 0, .snapshotInfo⟩ (.snapshotInfo b))
  | .order header b => (c, .packet header (.newOrder b))

/-- Of messages about one symbol, those about a symbol are all or none. -/
theorem filter_symbol {s : ℕ} {l : List (ℕ × SnapshotItem)} (hall : ∀ x ∈ l, x.2.symbol = s)
    (s' : ℕ) : l.filter (fun x ↦ x.2.symbol = s') = if s' = s then l else [] := by
  split
  · rename_i hs
    exact List.filter_eq_self.2 fun x hx ↦ by simp [hall x hx, hs]
  · rename_i hs
    exact List.filter_eq_nil_iff.2 fun x hx ↦ by simp [hall x hx, Ne.symm hs]

/-- Messages about one symbol are lossy if they are for that symbol. -/
theorem lossy_of_symbol {exchange : ℕ → (symbol : ℕ) → SymbolSnapshot symbol} {cycles : ℕ} (s : ℕ)
    {l : List (ℕ × SnapshotItem)} (hall : ∀ x ∈ l, x.2.symbol = s)
    (h : l.Sublist (Cycles.sent (fun c ↦ (exchange c s).items) cycles)) :
    Lossy exchange cycles l := by
  intro s'
  rw [filter_symbol hall]
  split
  · rename_i hs
    rwa [hs]
  · exact List.nil_sublist _

end HftTrading
