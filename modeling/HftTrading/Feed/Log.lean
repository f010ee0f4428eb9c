import HftTrading.Book.Refines
import HftTrading.Feed.Synchronizer

/-!
# Logs of live messages

`dispatch_live_message` against the market: what a message does (`actionOf`), and that a healthy
manager does it (`refines_dispatch`). A message that a manager takes without raising, from an
exchange that is fair, is accepted by the market (`accepts_of_dispatch`); and a sequence of messages
that are accepted one by one every healthy manager with that view takes, and ends with the view that
they lead to (`refines_dispatchAll`).

What an exchange sends is a log (`ExchangeLog`): messages numbered from one on, each fair where the
ones before it have led to, and taken by an empty manager. The market after the first so many of
them (`marketAt`) is a function of the log, and every healthy manager that has taken them has it for
its view. That is all that later modules use to compare two managers.
-/

namespace HftTrading

open MarketData

/-- What a message on the live channel does to the market. -/
def actionOf (item : Message) : Action ℤ ℤ Side :=
  match item.1.msgType, item.2 with
  | .newOrder, .newOrder b => .new b.symbol b.orderId ⟨b.side, b.quantity, b.price⟩
  | .deleteOrder, .deleteOrder b => .delete b.orderId
  | .modifyOrder, .modifyOrder b => .modify b.orderId ⟨b.side, b.quantity, b.price⟩
  | .trade, .trade b => .trade b.orderId b.quantity
  | .snapshotInfo, .snapshotInfo _ => .refuse
  | _, _ => .skip

open OrderBookManager SnapShotSynchronizer

/-- The operation behind a message, and the action behind the operation. -/
inductive Dispatched (header : MDHeader) :
    Action ℤ ℤ Side → Method FeedError OrderBookManager Unit → Prop
  | new (b : NewOrder) : Dispatched header (.new b.symbol b.orderId ⟨b.side, b.quantity, b.price⟩)
      (processNewOrder header.seqNum header.timestamp b.orderId b.symbol b.side b.quantity b.price
        b.flags)
  | delete (b : DeleteOrder) :
      Dispatched header (.delete b.orderId) (processDeleteOrder header.seqNum b.orderId)
  | modify (b : ModifyOrder) : Dispatched header (.modify b.orderId ⟨b.side, b.quantity, b.price⟩)
      (processModifyOrder header.seqNum b.orderId b.side b.quantity b.price)
  | trade (b : Trade) : Dispatched header (.trade b.orderId b.quantity)
      (processTrade header.seqNum b.orderId b.quantity b.price)
  | refused : Dispatched header .refuse (throw (.snapshotInfoOnLive header.seqNum))
  | skipped : Dispatched header .skip (pure ())

/-- **What a message does is its action.** -/
theorem dispatched (item : Message) :
    Dispatched item.1 (actionOf item) (dispatchLiveMessage item.1 item.2) := by
  obtain ⟨⟨magicNumber, length, seqNum, timestamp, msgType⟩, body⟩ := item
  cases msgType <;> cases body <;>
    first
    | exact .skipped
    | exact .new _
    | exact .delete _
    | exact .modify _
    | exact .trade _
    | exact .refused

/-- **One message** the market accepts: a healthy manager takes it, and does to its view what the
message does to the market. -/
theorem refines_dispatch {m : OrderBookManager} (h : m.Healthy) (item : Message)
    (hacc : m.view.Accepts (actionOf item)) :
    ∃ m', dispatchLiveMessage item.1 item.2 m = .ok () m' ∧ m'.Healthy ∧
      m'.view = m.view.apply (actionOf item) := by
  have hitem := dispatched item
  revert hitem hacc
  generalize actionOf item = action, dispatchLiveMessage item.1 item.2 = call
  rintro hacc (b | b | b | b | - | -)
  · exact refines_newOrder h _ _ _ _ _ _ _ _ hacc
  · exact refines_deleteOrder h _ _
  · exact refines_modifyOrder h _ _ _ _ _ hacc
  · exact refines_trade h _ _ _ _ hacc
  · exact hacc.elim
  · exact ⟨m, rfl, h, rfl⟩

/-- A message from a fair exchange that a healthy manager takes is accepted by the market. -/
theorem accepts_of_dispatch {m m' : OrderBookManager} (h : m.Healthy) {item : Message}
    (hfair : m.view.Fair (actionOf item))
    (hrun : dispatchLiveMessage item.1 item.2 m = .ok () m') :
    m.view.Accepts (actionOf item) := by
  have hitem := dispatched item
  revert hitem hfair hrun
  generalize actionOf item = action, dispatchLiveMessage item.1 item.2 = call
  rintro hfair hrun (b | b | b | b | - | -)
  · exact ⟨hfair, quantity_pos_of_newOrder h hrun⟩
  · exact trivial
  · exact accepts_of_modifyOrder h hrun
  · obtain ⟨s, r, hr⟩ := rests_of_trade hrun
    exact ⟨s, r, hr, hfair s r hr⟩
  · cases hrun
  · exact trivial

/-! ### Sequences of messages -/

/-- Messages behind others are dispatched behind them. -/
theorem dispatchAll_append (items items' : List Message) (m : OrderBookManager) :
    dispatchAll (items ++ items') m = (dispatchAll items >>= fun _ ↦ dispatchAll items') m := by
  unfold dispatchAll
  rw [List.map_append, Method.all_append]

/-- **A sequence of messages** the market accepts one by one. -/
theorem refines_dispatchAll {m : OrderBookManager} (h : m.Healthy) {items : List Message}
    (hacc : m.view.AcceptsAll (items.map actionOf)) :
    ∃ m', dispatchAll items m = .ok () m' ∧ m'.Healthy ∧
      m'.view = m.view.applyAll (items.map actionOf) := by
  induction items generalizing m with
  | nil => exact ⟨m, rfl, h, rfl⟩
  | cons item rest ih =>
    obtain ⟨hitem, hrest⟩ := hacc
    obtain ⟨m₁, hrun, h₁, hview⟩ := refines_dispatch h item hitem
    rw [← hview] at hrest
    obtain ⟨m', hrun', h', hview'⟩ := ih h₁ hrest
    exact ⟨m', (Method.bind_ok hrun).trans hrun', h', by rw [hview', hview]; rfl⟩

/-! ### An exchange's log -/

/-- A log of live messages, numbered from 1, that an empty manager takes without raising, from a
fair exchange, about the given symbols. -/
structure ExchangeLog (symbols : Finset ℤ) (E : List Message) : Prop where
  numbered : ∀ i (h : i < E.length), seqOf E[i] = i + 1
  dispatches : ∃ m, dispatchAll E OrderBookManager.init = .ok () m
  fair : ∀ pre item, pre ++ [item] <+: E → ∀ m,
    dispatchAll pre OrderBookManager.init = .ok () m → m.view.Fair (actionOf item)
  about : ∀ item ∈ E, ∀ s id r, actionOf item = .new s id r → s ∈ symbols

/-- The market after the first `n` messages of a log. -/
def marketAt (E : List Message) (n : ℕ) : Market ℤ ℤ Side :=
  Market.empty.applyAll ((E.take n).map actionOf)

namespace ExchangeLog

variable {symbols : Finset ℤ} {E : List Message}

/-- **Along a log**: the market accepts every prefix, and the manager that took it is healthy and
holds that market. -/
theorem prefix_spec (h : ExchangeLog symbols E) {pre : List Message} (hpre : pre <+: E) :
    Market.empty.AcceptsAll (pre.map actionOf) ∧
      ∃ m, dispatchAll pre OrderBookManager.init = .ok () m ∧ m.Healthy ∧
        m.view = Market.empty.applyAll (pre.map actionOf) := by
  induction pre using List.reverseRecOn with
  | nil => exact ⟨trivial, _, rfl, healthy_init, rfl⟩
  | append_singleton pre item ih =>
    obtain ⟨hacc, m, hrun, hm, hview⟩ := ih ((List.prefix_append _ _).trans hpre)
    -- the log goes on, so the next message was taken
    have hnext : ∃ m', dispatchLiveMessage item.1 item.2 m = .ok () m' := by
      obtain ⟨rest, rfl⟩ := hpre
      obtain ⟨m', hall⟩ := h.dispatches
      rw [List.append_assoc, dispatchAll_append, Method.bind_ok hrun] at hall
      obtain ⟨_, m₁, hitem, -⟩ := Method.bind_eq_ok_iff.1 hall
      exact ⟨m₁, hitem⟩
    obtain ⟨m', hitem⟩ := hnext
    have haccept := accepts_of_dispatch hm (h.fair pre item hpre m hrun) hitem
    obtain ⟨m₁, hrun₁, hm₁, hview₁⟩ := refines_dispatch hm item haccept
    refine ⟨?_, m₁, ?_, hm₁, ?_⟩
    · rw [List.map_append, Market.acceptsAll_append, ← hview]
      exact ⟨hacc, haccept, trivial⟩
    · rw [dispatchAll_append, Method.bind_ok hrun]
      exact Method.bind_ok hrun₁
    · rw [hview₁, List.map_append, Market.applyAll_append, ← hview]
      rfl

/-- The manager that took the first `n` messages. -/
theorem exists_manager (h : ExchangeLog symbols E) (n : ℕ) :
    ∃ m, dispatchAll (E.take n) OrderBookManager.init = .ok () m ∧ m.Healthy ∧
      m.view = marketAt E n :=
  (h.prefix_spec (List.take_prefix n E)).2

/-- The market accepts the messages after the first `n`, up to any later one. -/
theorem accepts_from (h : ExchangeLog symbols E) (n k : ℕ) (hnk : n ≤ k) :
    (marketAt E n).AcceptsAll (((E.take k).drop n).map actionOf) ∧
      marketAt E k = (marketAt E n).applyAll (((E.take k).drop n).map actionOf) := by
  have hsplit : E.take k = E.take n ++ (E.take k).drop n := by
    conv_lhs => rw [← List.take_append_drop n (E.take k), List.take_take, min_eq_left hnk]
  have hacc := (h.prefix_spec (List.take_prefix k E)).1
  constructor
  · rw [hsplit, List.map_append, Market.acceptsAll_append] at hacc
    exact hacc.2
  · unfold marketAt
    conv_lhs => rw [hsplit, List.map_append, Market.applyAll_append]

/-- Orders rest in the books of the log's symbols only. -/
theorem mem_of_marketAt (h : ExchangeLog symbols E) {n : ℕ} {s k : ℤ} {r : Resting Side}
    (hr : marketAt E n s k = some r) : s ∈ symbols := by
  rcases Market.exists_of_applyAll hr with ⟨r', hr'⟩ | ⟨r', hr'⟩
  · cases hr'
  · obtain ⟨item, hitem, hnew⟩ := List.mem_map.1 hr'
    exact h.about item (List.mem_of_mem_take hitem) s k r' hnew

/-! ### Positions in the log -/

/-- A message is where its number says. -/
theorem getElem_of_mem (h : ExchangeLog symbols E) {item : Message} (hitem : item ∈ E) :
    ∃ (i : ℕ) (hi : i < E.length), E[i] = item ∧ seqOf item = i + 1 := by
  obtain ⟨i, hi, rfl⟩ := List.getElem_of_mem hitem
  exact ⟨i, hi, rfl, h.numbered i hi⟩

/-- No two messages have the same number. -/
theorem eq_of_seqOf_eq (h : ExchangeLog symbols E) {x y : Message} (hx : x ∈ E) (hy : y ∈ E)
    (hseq : seqOf x = seqOf y) : x = y := by
  obtain ⟨i, hi, rfl, hxi⟩ := h.getElem_of_mem hx
  obtain ⟨j, hj, rfl, hyj⟩ := h.getElem_of_mem hy
  obtain rfl : i = j := by omega
  rfl

/-- The messages numbered above `n`, up to `k`. -/
theorem mem_drop_take_iff (h : ExchangeLog symbols E) {n k : ℕ} {item : Message} :
    item ∈ (E.take k).drop n ↔ item ∈ E ∧ n < seqOf item ∧ seqOf item ≤ k := by
  constructor
  · intro hitem
    obtain ⟨i, hi, rfl⟩ := List.getElem_of_mem hitem
    rw [List.length_drop, List.length_take] at hi
    rw [List.getElem_drop, List.getElem_take, h.numbered (n + i) (by omega)]
    exact ⟨List.getElem_mem _, by omega, by omega⟩
  · rintro ⟨hitem, habove, hle⟩
    obtain ⟨i, hi, rfl, hseq⟩ := h.getElem_of_mem hitem
    have hlen : i - n < ((E.take k).drop n).length := by
      rw [List.length_drop, List.length_take]
      omega
    refine List.mem_of_getElem (i := i - n) (h := hlen) ?_
    rw [List.getElem_drop, List.getElem_take]
    congr 1
    omega

/-- Any stretch of the log is in order. -/
theorem pairwise_drop_take (h : ExchangeLog symbols E) (n k : ℕ) :
    ((E.take k).drop n).Pairwise fun x y ↦ seqOf x < seqOf y := by
  have hE : E.Pairwise fun x y ↦ seqOf x < seqOf y := by
    rw [List.pairwise_iff_getElem]
    intro i j hi hj hij
    rw [h.numbered i hi, h.numbered j hj]
    omega
  exact hE.sublist ((List.drop_sublist _ _).trans (List.take_sublist _ _))

end ExchangeLog

end HftTrading
