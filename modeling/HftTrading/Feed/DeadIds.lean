import HftTrading.Feed.Log

/-!
# Dead ids

An entry of `order_id_to_symbol` is dead when no order rests under its id in the book it names.
`process_delete_order` takes the entry away with the order. `process_trade` leaves it to
`trade_order` to take out an order that is filled, and `trade_order` knows nothing of the index: the
entry stays. So a message makes a dead entry exactly if it is a trade of all that its order has left
(`noDeadIds_dispatch_iff`), and a run keeps the index free of them exactly if it has no such trade
(`noDeadIds_iff`). The ids that new orders come with do not matter.

The step lemma is an equivalence from a state without dead entries: what a message leaves is free of
them if it is no such trade, and only then. The statement about runs asks for all states of the run,
so that the first such trade decides, and what happens to its entry later does not come up.
-/

namespace HftTrading

open MarketData

namespace OrderBookManager

/-- Every index entry is the id of an order that rests in the book the entry names. -/
def NoDeadIds (m : OrderBookManager) : Prop :=
  ∀ k s, m.orderIdToSymbol.get? k = some s → m.Rests k s

/-- A trade of a quantity against an id takes all that its order has left. -/
def FillsUp (m : OrderBookManager) (orderId qty : ℤ) : Prop :=
  ∃ s o, m.orderIdToSymbol.get? orderId = some s ∧ m.order? s orderId = some o ∧ o.quantity = qty

theorem noDeadIds_init : init.NoDeadIds := by
  intro k s hk
  cases hk

/-! ### One operation -/

section

variable {m m' : OrderBookManager} {seqNum orderId : ℤ}

/-- An operation on one id: the entries of the others stay, and their orders. -/
theorem NoDeadIds.update (h : m.NoDeadIds) (orderId : ℤ)
    (hindex : ∀ k, k ≠ orderId → m'.orderIdToSymbol.get? k = m.orderIdToSymbol.get? k)
    (hothers : ∀ s k, k ≠ orderId → m'.order? s k = m.order? s k)
    (hid : ∀ s, m'.orderIdToSymbol.get? orderId = some s → m'.Rests orderId s) :
    m'.NoDeadIds := by
  intro k s hk
  by_cases hne : k = orderId
  · rw [hne] at hk ⊢
    exact hid s hk
  · rw [hindex k hne] at hk
    obtain ⟨o, ho⟩ := h k s hk
    exact ⟨o, (hothers s k hne).trans ho⟩

/-- A call on one book that returns: the book it was made on, and the book put back. -/
theorem setBook_of_onBook (hb : m.Books) {s : ℤ} {call : Method FeedError OrderBook Unit}
    (hrun : onBook s call m = .ok () m') :
    ∃ book book', m.books.get? s = some book ∧ book.Consistent ∧ call book = .ok () book' ∧
      m' = m.setBook s book' := by
  obtain ⟨book, book', hbook, hcall⟩ := onBook_eq_ok hrun
  have hafter := after_onBook hbook call
  rw [Method.after_ok hrun, Method.after_ok hcall] at hafter
  exact ⟨book, book', hbook, hb s book hbook, hcall, hafter⟩

/-- A call that changes the one order of a book that the index names leaves the other ids alone. -/
theorem order?_setBook_of_ne {s s' k : ℤ} {book book' : OrderBook} {orders : Dict ℤ Order}
    {volume : ℤ} (hbook : m.books.get? s = some book)
    (hl : OrderBook.Leaves book orders volume book')
    (hothers : ∀ k, k ≠ orderId → orders.get? k = book.orders.get? k) (hk : k ≠ orderId) :
    (m.setBook s book').order? s' k = m.order? s' k := by
  rw [order?_setBook]
  split
  · rename_i hs
    rw [hs, hl.orders_eq, hothers k hk, order?_of_book hbook]
  · rfl

/-- An order that is put in rests. -/
theorem rests_setBook_insert {s : ℤ} {book book' : OrderBook} {d : Dict ℤ Order} {o : Order}
    {volume : ℤ} (hl : OrderBook.Leaves book (d.insert orderId o) volume book') :
    (m.setBook s book').Rests orderId s :=
  ⟨o, by rw [order?_setBook, if_pos rfl, hl.orders_eq, Dict.get?_insert_self]⟩

/-- The order that a new order's entry speaks of rests by the time the call returns. -/
theorem noDeadIds_newOrder (hb : m.Books) (h : m.NoDeadIds) {timestamp symbol : ℤ} {side : Side}
    {qty price flags : ℤ}
    (hrun : processNewOrder seqNum timestamp orderId symbol side qty price flags m = .ok () m') :
    m'.NoDeadIds := by
  obtain ⟨hindex, hothers⟩ :=
    processNewOrder_after hb seqNum timestamp orderId symbol side qty price flags
  rw [Method.after_ok hrun] at hindex hothers
  refine h.update orderId (fun k hk ↦ ?_) (fun s k hk ↦ ?_) fun s hs ↦ ?_
  · rw [hindex, Dict.get?_insert_of_ne _ _ hk]
  · exact hothers s k fun heq ↦ hk (Prod.mk.inj heq).2
  · rw [hindex, Dict.get?_insert_self] at hs
    obtain rfl := Option.some.inj hs
    rw [processNewOrder_eq] at hrun
    have hbooks : ((getOrCreateBook symbol).after
        (m.setIndex (m.orderIdToSymbol.insert orderId symbol))).Books := by
      obtain ⟨book, m₁, hget, -, hb₁, -⟩ :=
        getOrCreateBook_spec (hb.setIndex (m.orderIdToSymbol.insert orderId symbol)) symbol
      rwa [Method.after_ok hget]
    obtain ⟨book, book', -, hcons, hadd, rfl⟩ := setBook_of_onBook hbooks hrun
    exact rests_setBook_insert (OrderBook.addOrder_ok hcons hadd).2.2

/-- A delete takes the entry away with the order. -/
theorem noDeadIds_deleteOrder (hb : m.Books) (h : m.NoDeadIds)
    (hrun : processDeleteOrder seqNum orderId m = .ok () m') : m'.NoDeadIds := by
  rcases hid : m.orderIdToSymbol.get? orderId with - | s
  · rw [processDeleteOrder_of_unknown seqNum hid] at hrun
    cases hrun
    exact h
  · rw [processDeleteOrder_of_known seqNum hid] at hrun
    obtain ⟨_, m₁, hdelete, herase⟩ := Method.bind_eq_ok_iff.1 hrun
    cases herase
    have hconf := confined_deleteOrder hb s orderId
    rw [Method.after_ok hdelete] at hconf
    refine h.update orderId (fun k hk ↦ ?_) (fun s' k hk ↦ ?_) fun s' hs' ↦ ?_
    · rw [index_setIndex, Dict.get?_erase_of_ne _ hk, hconf.index]
    · exact hconf.others s' k fun heq ↦ hk (Prod.mk.inj heq).2
    · rw [index_setIndex, Dict.get?_erase_self] at hs'
      cases hs'

/-- A modify that returns has put the order back. -/
theorem noDeadIds_modifyOrder (hb : m.Books) (h : m.NoDeadIds) {side : Side} {qty price : ℤ}
    (hrun : processModifyOrder seqNum orderId side qty price m = .ok () m') : m'.NoDeadIds := by
  rcases hid : m.orderIdToSymbol.get? orderId with - | s
  · rw [processModifyOrder_of_unknown seqNum qty price side hid] at hrun
    cases hrun
  rw [processModifyOrder_of_known seqNum qty price side hid] at hrun
  obtain ⟨book, book', hbook, hcons, hmodify, rfl⟩ := setBook_of_onBook hb hrun
  obtain ⟨o, -, -, hl⟩ := OrderBook.modifyOrder_ok hcons hmodify
  refine h.update orderId (fun _ _ ↦ rfl) (fun s' k hk ↦ ?_) fun s' hs' ↦ ?_
  · refine order?_setBook_of_ne hbook hl (fun k hk ↦ ?_) hk
    rw [Dict.get?_insert_of_ne _ _ hk, Dict.get?_erase_of_ne _ hk]
  · obtain rfl : s = s' := Option.some.inj (hid.symm.trans hs')
    exact rests_setBook_insert hl

/-- **A trade leaves a dead entry** if it takes all that its order has left, and only then. -/
theorem noDeadIds_trade_iff (hb : m.Books) (h : m.NoDeadIds) {qty price : ℤ}
    (hrun : processTrade seqNum orderId qty price m = .ok () m') :
    m'.NoDeadIds ↔ ¬ m.FillsUp orderId qty := by
  rcases hid : m.orderIdToSymbol.get? orderId with - | s
  · rw [processTrade_of_unknown seqNum qty price hid] at hrun
    cases hrun
  rw [processTrade_of_known seqNum qty price hid] at hrun
  obtain ⟨book, book', hbook, hcons, htrade, rfl⟩ := setBook_of_onBook hb hrun
  obtain ⟨o, ho, hl⟩ := OrderBook.tradeOrder_ok hcons htrade
  have hfills : m.FillsUp orderId qty ↔ (OrderBook.traded o qty).quantity = 0 := by
    show _ ↔ o.quantity - qty = 0
    rw [sub_eq_zero]
    constructor
    · rintro ⟨s', o', hs', ho', hq⟩
      obtain rfl : s = s' := Option.some.inj (hid.symm.trans hs')
      rw [order?_of_book hbook, ho] at ho'
      obtain rfl := Option.some.inj ho'
      exact hq
    · exact fun hq ↦ ⟨s, o, hid, by rw [order?_of_book hbook, ho], hq⟩
  rw [hfills]
  by_cases hzero : (OrderBook.traded o qty).quantity = 0
  -- the order is gone and its entry is not
  · refine iff_of_false (fun hclean ↦ ?_) (not_not.2 hzero)
    obtain ⟨o', ho'⟩ := hclean orderId s hid
    rw [order?_setBook, if_pos rfl, hl.orders_eq, OrderBook.settle, if_pos hzero,
      Dict.get?_erase_self] at ho'
    cases ho'
  · refine iff_of_true ?_ hzero
    rw [OrderBook.settle, if_neg hzero] at hl
    refine h.update orderId (fun _ _ ↦ rfl) (fun s' k hk ↦ ?_) fun s' hs' ↦ ?_
    · exact order?_setBook_of_ne hbook hl (fun k hk ↦ Dict.get?_insert_of_ne _ _ hk) hk
    · obtain rfl : s = s' := Option.some.inj (hid.symm.trans hs')
      exact rests_setBook_insert hl

end

end OrderBookManager

open OrderBookManager SnapShotSynchronizer

/-! ### Runs -/

/-- A message is a trade of all that its order has left. -/
def LastFill (m : OrderBookManager) (item : Message) : Prop :=
  ∃ orderId qty, actionOf item = .trade orderId qty ∧ m.FillsUp orderId qty

/-- **One message.** What it leaves in the index is an order's entry for as long as it fills none
up. -/
theorem noDeadIds_dispatch_iff {m m' : OrderBookManager} (hb : m.Books) (h : m.NoDeadIds)
    {item : Message} (hrun : dispatchLiveMessage item.1 item.2 m = .ok () m') :
    m'.NoDeadIds ↔ ¬ LastFill m item := by
  have hitem := dispatched item
  unfold LastFill
  revert hitem hrun
  generalize actionOf item = action, dispatchLiveMessage item.1 item.2 = call
  rintro hrun (b | b | b | b | - | -)
  · exact iff_of_true (noDeadIds_newOrder hb h hrun) nofun
  · exact iff_of_true (noDeadIds_deleteOrder hb h hrun) nofun
  · exact iff_of_true (noDeadIds_modifyOrder hb h hrun) nofun
  · rw [noDeadIds_trade_iff hb h hrun]
    refine not_congr ⟨fun hfills ↦ ⟨_, _, rfl, hfills⟩, ?_⟩
    rintro ⟨orderId, qty, heq, hfills⟩
    cases heq
    exact hfills
  · cases hrun
  · cases hrun
    exact iff_of_true h nofun

/-- Dispatching keeps the books consistent. -/
theorem keeps_books_dispatch (item : Message) :
    Method.Keeps Books (dispatchLiveMessage item.1 item.2) := by
  have hitem := dispatched item
  revert hitem
  generalize actionOf item = action, dispatchLiveMessage item.1 item.2 = call
  rintro (b | b | b | b | - | -)
  · exact keeps_processNewOrder _ _ _ _ _ _ _ _
  · exact keeps_processDeleteOrder _ _
  · exact keeps_processModifyOrder _ _ _ _ _
  · exact keeps_processTrade _ _ _ _
  · exact Method.keeps_throw _
  · exact Method.keeps_pure ()

/-- The books are consistent after any messages from the start. -/
theorem books_of_dispatchAll {items : List Message} {m : OrderBookManager}
    (hrun : dispatchAll items init = .ok () m) : m.Books := by
  have hkeeps : Method.Keeps Books (dispatchAll items) := by
    refine Method.keeps_all fun call hcall ↦ ?_
    obtain ⟨item, -, rfl⟩ := List.mem_map.1 hcall
    exact keeps_books_dispatch item
  exact hkeeps.ok books_init hrun

/-- The last message of a run that returns, and the run before it. -/
theorem dispatchAll_concat {pre : List Message} {item : Message} {m m' : OrderBookManager}
    (hrun : dispatchAll (pre ++ [item]) m = .ok () m') :
    ∃ m₁, dispatchAll pre m = .ok () m₁ ∧ dispatchLiveMessage item.1 item.2 m₁ = .ok () m' := by
  rw [dispatchAll_append] at hrun
  obtain ⟨_, m₁, hpre, hlast⟩ := Method.bind_eq_ok_iff.1 hrun
  obtain ⟨_, m₂, hitem, hnil⟩ := Method.bind_eq_ok_iff.1 hlast
  cases hnil
  exact ⟨m₁, hpre, hitem⟩

/-- **When the index holds no dead ids.** In every state of a run from an empty manager that raises
nothing, exactly if no trade of the run takes all that its order has left. -/
theorem noDeadIds_iff {items : List Message} {m : OrderBookManager}
    (hrun : dispatchAll items init = .ok () m) :
    (∀ pre, pre <+: items → ∀ m', dispatchAll pre init = .ok () m' → m'.NoDeadIds) ↔
      ∀ pre item, pre ++ [item] <+: items → ∀ m', dispatchAll pre init = .ok () m' →
        ¬ LastFill m' item := by
  constructor
  · intro h pre item hpre m₁ hpreRun
    obtain ⟨m₂, hall⟩ := Method.all_of_prefix (hpre.map _) hrun
    obtain ⟨m₁', hpreRun', hitem⟩ := dispatchAll_concat hall
    cases hpreRun.symm.trans hpreRun'
    exact (noDeadIds_dispatch_iff (books_of_dispatchAll hpreRun)
      (h pre ((List.prefix_append _ _).trans hpre) m₁ hpreRun) hitem).1 (h _ hpre m₂ hall)
  · intro h pre hpre
    induction pre using List.reverseRecOn with
    | nil =>
      intro m' hnil
      cases hnil
      exact noDeadIds_init
    | append_singleton pre item ih =>
      intro m₂ hall
      obtain ⟨m₁, hpreRun, hitem⟩ := dispatchAll_concat hall
      have hclean := ih ((List.prefix_append _ _).trans hpre) m₁ hpreRun
      exact (noDeadIds_dispatch_iff (books_of_dispatchAll hpreRun) hclean hitem).2
        (h pre item hpre m₁ hpreRun)

/-- A new order under an id that rests in some book. -/
def ReusesId (m : OrderBookManager) (item : Message) : Prop :=
  ∃ s id r s', actionOf item = .new s id r ∧ m.Rests id s'

/-- An order of 50 shares, and a trade against it. -/
def orderAndTrade (quantity : ℕ) : List Message :=
  [(⟨MAGIC_NUMBER, 45, 1, 0, .newOrder⟩, .newOrder ⟨100, 1, .buy, 50, 10000, 0⟩),
    (⟨MAGIC_NUMBER, 39, 2, 0, .trade⟩, .trade ⟨100, quantity, 10000⟩)]

/-- The prefixes of the two messages, seen from what comes next. -/
theorem prefix_orderAndTrade {quantity : ℕ} {pre : List Message} {item : Message}
    (hpre : pre ++ [item] <+: orderAndTrade quantity) :
    (pre = [] ∧ actionOf item = .new 1 100 ⟨.buy, 50, 10000⟩) ∨
      (pre = (orderAndTrade quantity).take 1 ∧ actionOf item = .trade 100 quantity) := by
  rcases pre with - | ⟨x, - | ⟨y, pre⟩⟩
  · obtain ⟨rfl, -⟩ := List.cons_prefix_cons.1 hpre
    exact .inl ⟨rfl, rfl⟩
  · obtain ⟨rfl, hrest⟩ := List.cons_prefix_cons.1 hpre
    obtain ⟨rfl, -⟩ := List.cons_prefix_cons.1 hrest
    exact .inr ⟨rfl, rfl⟩
  · have hlength := hpre.length_le
    simp [orderAndTrade] at hlength

/-- A trade of 20 of the 50 leaves the order, and its entry. -/
theorem noDeadIds_of_partial_fill :
    ∃ m, dispatchAll (orderAndTrade 20) init = .ok () m ∧
      ∀ pre, pre <+: orderAndTrade 20 → ∀ m', dispatchAll pre init = .ok () m' →
        m'.NoDeadIds := by
  obtain ⟨m, hrun⟩ : ∃ m, dispatchAll (orderAndTrade 20) init = .ok () m := ⟨_, rfl⟩
  refine ⟨m, hrun, (noDeadIds_iff hrun).2 fun pre item hpre m' hm' ↦ ?_⟩
  rintro ⟨orderId, qty, haction, s, o, hs, ho, hq⟩
  rcases prefix_orderAndTrade hpre with ⟨rfl, hnew⟩ | ⟨rfl, htrade⟩
  · cases hnew.symm.trans haction
  · cases htrade.symm.trans haction
    cases hm'
    cases hs
    cases ho
    cases hq

/-- A trade of all 50 leaves an entry for an order that is gone. -/
theorem dead_id_after_full_fill :
    ¬ ∀ (items : List Message) (m : OrderBookManager), dispatchAll items init = .ok () m →
      (∀ pre item, pre ++ [item] <+: items → ∀ m', dispatchAll pre init = .ok () m' →
        ¬ ReusesId m' item) → m.NoDeadIds := by
  intro h
  obtain ⟨m, hrun, hentry, hgone⟩ : ∃ m, dispatchAll (orderAndTrade 50) init = .ok () m ∧
      m.orderIdToSymbol.get? 100 = some 1 ∧ m.order? 1 100 = none := ⟨_, rfl, rfl, rfl⟩
  obtain ⟨o, ho⟩ := h (orderAndTrade 50) m hrun (fun pre item hpre m' hm' ↦ by
    rintro ⟨s, id, r, s', haction, o, ho⟩
    rcases prefix_orderAndTrade hpre with ⟨rfl, -⟩ | ⟨-, htrade⟩
    · cases hm'
      cases ho
    · cases htrade.symm.trans haction) 100 1 hentry
  rw [hgone] at ho
  cases ho

end HftTrading
