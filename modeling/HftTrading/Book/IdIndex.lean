import HftTrading.Book.Manager
import Mathlib.Data.List.Induction

/-!
# The id index over runs of a manager

A delete, a modify or a trade carries an order id and no symbol, so everything hangs on the index
being right for the ids that rest (`Indexed`). What each operation does to it:

* a delete, a modify or a trade touches one order of one book, and can only take ids out of the
  index when it takes the order out of the book: it keeps the index right (`Indexed.confined`);
* a new order overwrites the index entry of its id **before** its book has looked for a duplicate,
  and its book can only see its own orders. If the id rests in the book of another symbol, the entry
  of that order is lost and nothing is raised (`not_indexed_of_reuses`).

So the index stays right along a run exactly as long as no new order reuses an id that rests in
another symbol's book (`runCalls_sound_iff`).
-/

namespace HftTrading.OrderBookManager

open MarketData

/-- An order rests under this id in the book of this symbol. -/
def Rests (m : OrderBookManager) (orderId symbol : ℤ) : Prop :=
  ∃ o, m.order? symbol orderId = some o

/-- The index is right for every resting id. -/
def Indexed (m : OrderBookManager) : Prop :=
  ∀ orderId symbol, m.Rests orderId symbol → m.orderIdToSymbol.get? orderId = some symbol

/-- A call on a manager, with its arguments. -/
inductive Call
  | newOrder (seqNum timestamp orderId symbol : ℤ) (side : Side) (qty price flags : ℤ)
  | deleteOrder (seqNum orderId : ℤ)
  | modifyOrder (seqNum orderId : ℤ) (side : Side) (qty price : ℤ)
  | trade (seqNum orderId qty price : ℤ)

/-- Make a call. -/
def Call.method : Call → Method FeedError OrderBookManager Unit
  | .newOrder seqNum timestamp orderId symbol side qty price flags =>
    processNewOrder seqNum timestamp orderId symbol side qty price flags
  | .deleteOrder seqNum orderId => processDeleteOrder seqNum orderId
  | .modifyOrder seqNum orderId side qty price => processModifyOrder seqNum orderId side qty price
  | .trade seqNum orderId qty price => processTrade seqNum orderId qty price

/-- The call is a new order under an id that rests in the book of another symbol. -/
def Call.Reuses (m : OrderBookManager) : Call → Prop
  | .newOrder _ _ orderId symbol _ _ _ _ => ∃ s, s ≠ symbol ∧ m.Rests orderId s
  | _ => False

/-- The manager a sequence of calls leaves. -/
def runCalls (calls : List Call) (m : OrderBookManager) : OrderBookManager :=
  Method.run (calls.map Call.method) m

/-! ### What each operation does to the index -/

/-- **An operation on an id the index knows** keeps the index right. -/
theorem Indexed.confined {m m' : OrderBookManager} (h : m.Indexed) {symbol orderId : ℤ}
    (hconf : Confined symbol orderId m m') : m'.Indexed := by
  rintro k s ⟨o, ho⟩
  rw [hconf.index]
  refine h k s ?_
  by_cases hsk : (s, k) = (symbol, orderId)
  · obtain ⟨rfl, rfl⟩ := Prod.mk.inj hsk
    rcases hold : m.order? s k with - | o'
    · rw [hconf.absent hold] at ho
      cases ho
    · exact ⟨o', hold⟩
  · exact ⟨o, by rw [← hconf.others s k hsk, ho]⟩

/-- An order that no longer rests needs no entry. -/
theorem Indexed.erase {m : OrderBookManager} (h : m.Indexed) {orderId : ℤ}
    (hgone : ∀ s, ¬ m.Rests orderId s) :
    (m.setIndex (m.orderIdToSymbol.erase orderId)).Indexed := by
  rintro k s hk
  have hne : k ≠ orderId := by
    rintro rfl
    exact hgone s hk
  rw [index_setIndex, Dict.get?_erase_of_ne _ hne]
  exact h k s hk

theorem confined_deleteOrder {m : OrderBookManager} (h : m.Books) (symbol orderId : ℤ) :
    Confined symbol orderId m ((onBook symbol (OrderBook.deleteOrder orderId)).after m) :=
  confined_onBook h symbol orderId fun b hb ↦
    ⟨_, _, OrderBook.deleteOrder_after hb orderId, OrderBook.confined_erase orderId b.orders⟩

/-- Deleting takes the order out of the book it is asked of. -/
theorem deleteOrder_order? {m : OrderBookManager} (h : m.Books) (symbol orderId : ℤ) :
    ((onBook symbol (OrderBook.deleteOrder orderId)).after m).order? symbol orderId = none := by
  rcases hb : m.books.get? symbol with - | book
  · rw [Method.after_error (onBook_of_no_book hb _), order?_of_no_book hb]
  · rw [after_onBook hb, order?_setBook, if_pos rfl,
      (OrderBook.deleteOrder_after (h symbol book hb) orderId).orders_eq, Dict.get?_erase_self]

/-- What `process_delete_order` leaves: with a right index, the id rests nowhere. -/
theorem processDeleteOrder_after {m : OrderBookManager} (hb : m.Books) (h : m.Indexed)
    (seqNum orderId : ℤ) :
    ((processDeleteOrder seqNum orderId).after m).Indexed ∧
      ∀ s, ¬ ((processDeleteOrder seqNum orderId).after m).Rests orderId s := by
  rcases hid : m.orderIdToSymbol.get? orderId with - | symbol
  · rw [Method.after_ok (processDeleteOrder_of_unknown seqNum hid)]
    refine ⟨h, fun s hs ↦ ?_⟩
    rw [h orderId s hs] at hid
    cases hid
  have hrun := processDeleteOrder_of_known seqNum hid
  have hconf := confined_deleteOrder hb symbol orderId
  have hgone := deleteOrder_order? hb symbol orderId
  have hindexed := h.confined hconf
  have hnone : ∀ s,
      ¬ ((onBook symbol (OrderBook.deleteOrder orderId)).after m).Rests orderId s := by
    intro s hs
    have hs' := hindexed orderId s hs
    rw [hconf.index, hid, Option.some.injEq] at hs'
    subst hs'
    obtain ⟨o, ho⟩ := hs
    rw [hgone] at ho
    cases ho
  rcases hcall : onBook symbol (OrderBook.deleteOrder orderId) m with ⟨a, m'⟩ | ⟨e, m'⟩
  · rw [Method.after_ok hcall] at hindexed hnone
    rw [Method.after_ok (hrun.trans (Method.bind_ok hcall))]
    exact ⟨hindexed.erase hnone, hnone⟩
  · rw [Method.after_error hcall] at hindexed hnone
    rw [Method.after_error (hrun.trans (Method.bind_error hcall))]
    exact ⟨hindexed, hnone⟩

/-- What `process_new_order` leaves: its own entry written, and at most one more order resting. -/
theorem processNewOrder_after {m : OrderBookManager} (hb : m.Books)
    (seqNum timestamp orderId symbol : ℤ) (side : Side) (qty price flags : ℤ) :
    let m' := (processNewOrder seqNum timestamp orderId symbol side qty price flags).after m
    m'.orderIdToSymbol = m.orderIdToSymbol.insert orderId symbol ∧
      ∀ s k, (s, k) ≠ (symbol, orderId) → m'.order? s k = m.order? s k := by
  intro m'
  set m₁ := m.setIndex (m.orderIdToSymbol.insert orderId symbol) with hm₁
  obtain ⟨book, m₂, hget, hbook, hb₂, horder, hindex, -⟩ :=
    getOrCreateBook_spec (hb.setIndex (m.orderIdToSymbol.insert orderId symbol)) symbol
  obtain ⟨orders, hl, hothers⟩ :=
    OrderBook.addOrder_after (hb₂ symbol book hbook) orderId symbol side qty price timestamp
  have hrun : processNewOrder seqNum timestamp orderId symbol side qty price flags m =
      onBook symbol (OrderBook.addOrder orderId symbol side qty price timestamp) m₂ := by
    unfold processNewOrder
    rw [Method.bind_ok (Method.modify_apply _ m), Method.bind_ok hget]
  have hm' : m' = m₂.setBook symbol
      ((OrderBook.addOrder orderId symbol side qty price timestamp).after book) := by
    show Method.after _ m = _
    rw [Method.after, hrun]
    exact after_onBook hbook _
  rw [hm']
  refine ⟨hindex, fun s k hsk ↦ ?_⟩
  rw [order?_setBook, hl.orders_eq]
  split
  · rename_i hs
    subst hs
    rw [hothers k fun hk ↦ hsk (by rw [hk]), ← order?_of_book hbook, horder, order?_setIndex]
  · rw [horder, order?_setIndex]

/-- Every call keeps the books consistent, returning or raising. -/
theorem Call.keeps_books (call : Call) : Method.Keeps Books call.method := by
  cases call with
  | newOrder seqNum timestamp orderId symbol side qty price flags =>
    exact keeps_processNewOrder seqNum timestamp orderId symbol side qty price flags
  | deleteOrder seqNum orderId => exact keeps_processDeleteOrder seqNum orderId
  | modifyOrder seqNum orderId side qty price =>
    exact keeps_processModifyOrder seqNum orderId side qty price
  | trade seqNum orderId qty price => exact keeps_processTrade seqNum orderId qty price

/-- **One step.** A call that does not reuse an id resting elsewhere keeps the index right. -/
theorem Call.keeps_indexed {m : OrderBookManager} (hb : m.Books) (h : m.Indexed) (call : Call)
    (hreuse : ¬ call.Reuses m) : (call.method.after m).Indexed := by
  cases call with
  | newOrder seqNum timestamp orderId symbol side qty price flags =>
    obtain ⟨hindex, hothers⟩ :=
      processNewOrder_after hb seqNum timestamp orderId symbol side qty price flags
    rintro k s ⟨o, ho⟩
    rw [Call.method, hindex, Dict.get?_insert]
    by_cases hsk : (s, k) = (symbol, orderId)
    · obtain ⟨rfl, rfl⟩ := Prod.mk.inj hsk
      exact if_pos rfl
    rw [Call.method, hothers s k hsk] at ho
    have hne : k ≠ orderId := by
      rintro rfl
      exact hreuse ⟨s, fun hs ↦ hsk (by rw [hs]), o, ho⟩
    rw [if_neg hne]
    exact h k s ⟨o, ho⟩
  | deleteOrder seqNum orderId => exact (processDeleteOrder_after hb h seqNum orderId).1
  | modifyOrder seqNum orderId side qty price =>
    rw [Call.method]
    rcases hid : m.orderIdToSymbol.get? orderId with - | symbol
    · rwa [Method.after_error (processModifyOrder_of_unknown seqNum qty price side hid)]
    · rw [Method.after, processModifyOrder_of_known seqNum qty price side hid]
      exact h.confined (confined_onBook hb symbol orderId
        fun b hb ↦ OrderBook.modifyOrder_after hb orderId side qty price)
  | trade seqNum orderId qty price =>
    rw [Call.method]
    rcases hid : m.orderIdToSymbol.get? orderId with - | symbol
    · rwa [Method.after_error (processTrade_of_unknown seqNum qty price hid)]
    · rw [Method.after, processTrade_of_known seqNum qty price hid]
      exact h.confined (confined_onBook hb symbol orderId
        fun b hb ↦ OrderBook.tradeOrder_after hb orderId qty price)

/-- A new order that reuses an id resting elsewhere leaves that order without its index entry. -/
theorem not_indexed_of_reuses {m : OrderBookManager} (hb : m.Books) {call : Call}
    (hreuse : call.Reuses m) : ¬ (call.method.after m).Indexed := by
  cases call with
  | newOrder seqNum timestamp orderId symbol side qty price flags =>
    obtain ⟨s, hs, o, ho⟩ := hreuse
    obtain ⟨hindex, hothers⟩ :=
      processNewOrder_after hb seqNum timestamp orderId symbol side qty price flags
    intro h
    have hrests : m.order? s orderId = some o := ho
    rw [← hothers s orderId fun hsk ↦ hs (Prod.mk.inj hsk).1] at hrests
    have hget := h orderId s ⟨o, hrests⟩
    rw [Call.method, hindex, Dict.get?_insert_self, Option.some.injEq] at hget
    exact hs hget.symm
  | deleteOrder | modifyOrder | trade => exact absurd hreuse not_false

/-! ### Runs -/

/-- Everything the feed relies on when it hands the manager an order id: the id rests in one book at
most, the index names it, the id-only operations reach that book, and a deleted id rests nowhere. -/
structure Sound (m : OrderBookManager) : Prop where
  atMostOne : ∀ orderId s s', m.Rests orderId s → m.Rests orderId s' → s = s'
  index : m.Indexed
  modify_reaches : ∀ seqNum orderId s, m.Rests orderId s → ∀ side qty price,
    processModifyOrder seqNum orderId side qty price m =
      onBook s (OrderBook.modifyOrder orderId side qty price) m
  trade_reaches : ∀ seqNum orderId s, m.Rests orderId s → ∀ qty price,
    processTrade seqNum orderId qty price m = onBook s (OrderBook.tradeOrder orderId qty price) m
  delete_reaches : ∀ seqNum orderId s, m.Rests orderId s →
    processDeleteOrder seqNum orderId m =
      (onBook s (OrderBook.deleteOrder orderId) >>= fun _ ↦
        modify fun m ↦ m.setIndex (m.orderIdToSymbol.erase orderId)) m
  delete_clears : ∀ seqNum orderId m', processDeleteOrder seqNum orderId m = .ok () m' →
    ∀ s, ¬ m'.Rests orderId s

/-- A right index is all that the feed relies on. -/
theorem Indexed.sound {m : OrderBookManager} (hb : m.Books) (h : m.Indexed) : m.Sound where
  atMostOne orderId s s' hs hs' := by
    have heq := h orderId s hs
    rw [h orderId s' hs', Option.some.injEq] at heq
    exact heq.symm
  index := h
  modify_reaches seqNum orderId s hs side qty price :=
    processModifyOrder_of_known seqNum qty price side (h orderId s hs)
  trade_reaches seqNum orderId s hs qty price :=
    processTrade_of_known seqNum qty price (h orderId s hs)
  delete_reaches seqNum orderId s hs := processDeleteOrder_of_known seqNum (h orderId s hs)
  delete_clears seqNum orderId m' hrun := by
    obtain ⟨-, hgone⟩ := processDeleteOrder_after hb h seqNum orderId
    rwa [Method.after_ok hrun] at hgone

theorem runCalls_append (calls : List Call) (call : Call) (m : OrderBookManager) :
    runCalls (calls ++ [call]) m = call.method.after (runCalls calls m) := by
  rw [runCalls, List.map_append, Method.run_append]
  rfl

theorem runCalls_books (calls : List Call) : (runCalls calls init).Books := by
  refine Method.run_keeps (fun m hm ↦ ?_) books_init
  obtain ⟨call, -, rfl⟩ := List.mem_map.1 hm
  exact call.keeps_books

/-- **The index is right along a run exactly as long as no id resting in one book is reused in
another.** The calls may return or raise. -/
theorem runCalls_sound_iff (calls : List Call) :
    (∀ pre, pre <+: calls → (runCalls pre init).Sound) ↔
      ∀ pre call, pre ++ [call] <+: calls → ¬ call.Reuses (runCalls pre init) := by
  constructor
  · intro h pre call hpre hreuse
    have hsound := (h _ hpre).index
    rw [runCalls_append] at hsound
    exact not_indexed_of_reuses (runCalls_books pre) hreuse hsound
  · intro h pre hpre
    refine Indexed.sound (runCalls_books pre) ?_
    induction pre using List.reverseRecOn with
    | nil =>
      rintro orderId symbol ⟨o, ho⟩
      cases ho
    | append_singleton pre call ih =>
      rw [runCalls_append]
      exact call.keeps_indexed (runCalls_books pre) (ih ((List.prefix_append _ _).trans hpre))
        (h pre call hpre)

/-- One id, two symbols: nothing raises, the order rests in both books, and after the delete it
still rests in the first. -/
theorem reused_id_rests_after_delete :
    ∃ m m', (do
        processNewOrder 1 0 7 1 .buy 5 100 0
        processNewOrder 2 0 7 2 .buy 5 100 0 : Method FeedError OrderBookManager Unit) init
        = .ok () m ∧
      m.Rests 7 1 ∧ m.Rests 7 2 ∧ processDeleteOrder 3 7 m = .ok () m' ∧ m'.Rests 7 1 :=
  ⟨_, _, rfl, ⟨_, rfl⟩, ⟨_, rfl⟩, rfl, ⟨_, rfl⟩⟩

end HftTrading.OrderBookManager
