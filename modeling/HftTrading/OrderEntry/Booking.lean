import HftTrading.OrderEntry.Steps
import Mathlib.Algebra.BigOperators.Group.List.Basic
import Mathlib.Algebra.Group.Pi.Basic
import Mathlib.Algebra.Group.Prod
import Mathlib.Algebra.Order.Group.Multiset
import Mathlib.Tactic.Abel

/-!
# What the exchange has filled, and what the client has booked

The wire says what was filled. `Ledger` is the account of an observer who sees the messages that
the client sends and the responses that it reads, in order: a `NewOrder` opens an order, an
`OrderClosed` and a closing fill end it, and an `OrderAck` that carries the number of a
`ModifyOrder` moves its order to the side asked for. A fill counts if its order is open, on the side
that the exchange has acknowledged last. Of what the client does with all this the ledger keeps only
which fills have been booked.

The client books a fill when it gets to it, on the side that `open_orders` has then, if the order is
still there. It need not be: cancelling from inside `_process_responses` reads and handles later
responses first, an exception drops the rest of a batch, and `modify_order` rewrites its entry only
when all that came with the acknowledgement has been handled, or over an acknowledgement that was
for another request.

## The condition

`Orderly` is the condition under which the two agree, point by point. Of the fills that count, the
ledger also knows which the client has not booked (`Ledger.due`), and each of the four clauses is
about these:

* when a fill that counts is read, `open_orders` has its order, for the symbol and on the side that
  the exchange has it;
* no order leaves `open_orders` while a fill of it is due;
* no fill that is due is among the responses that an exception throws away;
* a fill that is booked is due, and the amount and the balance are integers that a double holds.

In every run that keeps to it, whenever nothing is waiting, positions and cash are those of the
ledger (`holdings_of_orderly`). It is not always kept: a kill switch that cancels an order whose
fill is already in the batch loses that fill (`fill_lost_to_kill_switch`).
-/

namespace HftTrading.OrderEntry

/-! ### The ledger -/

/-- Positions by symbol, and cash. -/
abbrev Holdings : Type := (ℤ → ℤ) × ℤ

/-- What a fill of an order with this entry adds. -/
def OeConfig.gain (entry : OeConfig) (fill : OrderFill) : Holdings :=
  (fun symbol ↦ if symbol = entry.symbol then entry.signed fill.quantity else 0,
    -(fill.price * entry.signed fill.quantity))

/-- Only symbol and side of the order matter for what a fill adds. -/
theorem OeConfig.gain_congr {entry entry' : OeConfig} (hsymbol : entry.symbol = entry'.symbol)
    (hside : entry.side = entry'.side) (fill : OrderFill) : entry.gain fill = entry'.gain fill := by
  unfold gain signed
  rw [hsymbol, hside]

/-- A fill that counts, with its order as the exchange has it. -/
structure Counted where
  entry : OeConfig
  fill : OrderFill
  deriving DecidableEq

/-- What it adds. -/
def Counted.gain (f : Counted) : Holdings := f.entry.gain f.fill

/-- What some fills add. -/
def total (fills : List Counted) : Holdings := (fills.map Counted.gain).sum

@[simp] theorem total_nil : total [] = 0 := rfl

theorem total_append (fs gs : List Counted) : total (fs ++ gs) = total fs + total gs := by
  unfold total
  rw [List.map_append, List.sum_append]

theorem total_cons (f : Counted) (fs : List Counted) : total (f :: fs) = f.gain + total fs :=
  List.sum_cons

theorem total_concat (fs : List Counted) (f : Counted) : total (fs ++ [f]) = total fs + f.gain := by
  rw [total_append, total_cons, total_nil, add_zero]

/-- The order that a message places, if it is a `NewOrder`. -/
def NewOrder.ofMessage (message : List UInt8) : Option NewOrder :=
  (NewOrder.unpack message).filter fun m ↦ m.header.msgType = MsgType.newOrder.value

/-- The modification that a message asks for, if it is a `ModifyOrder`. -/
def ModifyOrder.ofMessage (message : List UInt8) : Option ModifyOrder :=
  (ModifyOrder.unpack message).filter fun m ↦ m.header.msgType = MsgType.modifyOrder.value

/-- The account of an observer of the connection. -/
structure Ledger where
  /-- The orders that were placed and that the exchange has not closed, as it has them. -/
  opened : Dict ℤ OeConfig
  /-- The modifications asked for in this session, by the sequence number of the request. -/
  asked : Dict ℕ ModifyOrder
  /-- The fills that count. -/
  counted : List Counted
  /-- Those of them that have not been booked. -/
  due : List Counted

namespace Ledger

/-- Before anything is sent. -/
def empty : Ledger := ⟨.empty, .empty, [], []⟩

/-- An order goes out. -/
def place (m : NewOrder) (L : Ledger) : Ledger :=
  { L with opened := L.opened.insert m.orderId ⟨m.symbol, m.side, m.quantity, m.price, 0⟩ }

/-- A message goes out. Until the exchange acknowledges a modification, its order is as it was. -/
def send (message : List UInt8) (L : Ledger) : Ledger :=
  match NewOrder.ofMessage message, ModifyOrder.ofMessage message with
  | some m, _ => L.place m
  | none, some m => { L with asked := L.asked.insert m.header.seqNum m }
  | none, none => L

/-- The exchange acknowledges a request, by its number: a modification is in force from here on. -/
def acked (m : OrderAck) (L : Ledger) : Ledger :=
  match L.asked.get? m.header.lastSeqNum, L.opened.get? m.orderId with
  | some request, some entry =>
    let entry' : OeConfig :=
      ⟨entry.symbol, request.side, request.quantity, request.price, entry.filled⟩
    if request.orderId = m.orderId then { L with opened := L.opened.insert m.orderId entry' } else L
  | _, _ => L

/-- A fill counts if its order is open, and can close it. -/
def fill (m : OrderFill) (L : Ledger) : Ledger :=
  match L.opened.get? m.orderId with
  | none => L
  | some entry =>
    { L with
      opened :=
        if FillFlags.ofValue? m.flags = some .closed then L.opened.erase m.orderId else L.opened
      counted := L.counted ++ [⟨entry, m⟩]
      due := L.due ++ [⟨entry, m⟩] }

/-- A fill has been booked and is due no longer. -/
def book (m : OrderFill) (L : Ledger) : Ledger :=
  { L with due := L.due.eraseP fun f ↦ f.fill = m }

/-- What the observer makes of what happens. Sequence numbers start over with a new session. -/
def next (L : Ledger) : Note → Ledger
  | .sent message => L.send message
  | .read (.ack m) => L.acked m
  | .read (.fill m) => L.fill m
  | .read (.closed m) => { L with opened := L.opened.erase m.orderId }
  | .booked _ _ m => L.book m
  | .cleared => { L with asked := .empty }
  | _ => L

/-- The sum over the fills that count. -/
def holdings (L : Ledger) : Holdings := total L.counted

/-- The sum over those that have been booked. -/
def booked (L : Ledger) : Holdings := L.holdings - total L.due

/-- A message moves no fill. -/
theorem fills_send (message : List UInt8) (L : Ledger) :
    (L.send message).counted = L.counted ∧ (L.send message).due = L.due := by
  unfold send
  split
  · exact ⟨rfl, rfl⟩
  · exact ⟨rfl, rfl⟩
  · exact ⟨rfl, rfl⟩

/-- An acknowledgement moves no fill. -/
theorem fills_acked (m : OrderAck) (L : Ledger) :
    (L.acked m).counted = L.counted ∧ (L.acked m).due = L.due := by
  unfold acked
  split
  · dsimp only
    split
    · exact ⟨rfl, rfl⟩
    · exact ⟨rfl, rfl⟩
  · exact ⟨rfl, rfl⟩

/-- A property of every point of a trace, with the ledger right before it. -/
def Along (Q : Ledger → Point → Prop) : Ledger → List Point → Prop
  | _, [] => True
  | L, p :: rest => Q L p ∧ Along Q (L.next p.note) rest

/-- The ledger after a trace. -/
def after (L : Ledger) (trace : List Point) : Ledger := trace.foldl (fun L p ↦ L.next p.note) L

theorem after_append_singleton (L : Ledger) (trace : List Point) (p : Point) :
    L.after (trace ++ [p]) = (L.after trace).next p.note := by
  unfold after
  rw [List.foldl_append, List.foldl_cons, List.foldl_nil]

/-- One more point is looked at with the ledger after all the points before it. -/
theorem along_append_singleton {Q : Ledger → Point → Prop} {L : Ledger} {trace : List Point}
    {p : Point} : Along Q L (trace ++ [p]) ↔ Along Q L trace ∧ Q (L.after trace) p := by
  induction trace generalizing L with
  | nil => exact ⟨fun h ↦ ⟨trivial, h.1⟩, fun h ↦ ⟨h.2, trivial⟩⟩
  | cons q trace ih =>
    show Q L q ∧ Along Q (L.next q.note) (trace ++ [p]) ↔ (Q L q ∧ _) ∧ Q (after _ trace) p
    rw [ih, and_assoc]

instance {Q : Ledger → Point → Prop} [∀ L p, Decidable (Q L p)] (L : Ledger) (trace : List Point) :
    Decidable (Along Q L trace) := go L trace
where
  go : ∀ L trace, Decidable (Along Q L trace)
  | _, [] => .isTrue trivial
  | L, p :: rest =>
    have := go (L.next p.note) rest
    inferInstanceAs (Decidable (Q L p ∧ Along Q (L.next p.note) rest))

end Ledger

/-! ### Orderly runs -/

/-- The fill a response is, if it is one. -/
def OeResponse.fill? : OeResponse → Option OrderFill
  | .fill m => some m
  | _ => none

/-- The fills among some responses. -/
def fills (responses : List OeResponse) : List OrderFill := responses.filterMap OeResponse.fill?

/-- An order is open for this symbol and on this side. -/
def Carried (openOrders : Dict ℤ OeConfig) (orderId : ℤ) (entry : OeConfig) : Prop :=
  ∃ e ∈ openOrders.get? orderId, e.symbol = entry.symbol ∧ e.side = entry.side

instance (openOrders : Dict ℤ OeConfig) (orderId : ℤ) (entry : OeConfig) :
    Decidable (Carried openOrders orderId entry) :=
  inferInstanceAs (Decidable (∃ e ∈ openOrders.get? orderId, _))

/-- A fill may be booked: it is due, its amount and the balance are doubles, and if its order leaves
with it, nothing else of the order is due. -/
structure Bookable (L : Ledger) (orderId : ℤ) (m : OrderFill) (openOrders : Dict ℤ OeConfig) :
    Prop where
  due : m ∈ L.due.map Counted.fill
  amount : IsDouble (m.price * m.quantity)
  balance : IsDouble (L.book m).booked.2
  last : openOrders.get? orderId = none → ∀ f ∈ (L.book m).due, f.fill.orderId ≠ orderId

instance (L : Ledger) (orderId : ℤ) (m : OrderFill) (openOrders : Dict ℤ OeConfig) :
    Decidable (Bookable L orderId m openOrders) :=
  decidable_of_iff (m ∈ L.due.map Counted.fill ∧ IsDouble (m.price * m.quantity) ∧
      IsDouble (L.book m).booked.2 ∧
      (openOrders.get? orderId = none → ∀ f ∈ (L.book m).due, f.fill.orderId ≠ orderId))
    ⟨fun h ↦ ⟨h.1, h.2.1, h.2.2.1, h.2.2.2⟩, fun h ↦ ⟨h.1, h.2, h.3, h.4⟩⟩

/-- Nothing goes wrong at this point, given the ledger before it. -/
def OrderlyAt (L : Ledger) (p : Point) : Prop :=
  match p.note with
  | .read r => ∀ m ∈ r.fill?, ∀ entry ∈ L.opened.get? m.orderId,
      Carried p.openOrders m.orderId entry
  | .removed orderId => ∀ f ∈ L.due, f.fill.orderId ≠ orderId
  | .booked orderId _ m => Bookable L orderId m p.openOrders
  | .lost responses => ∀ f ∈ L.due, f.fill ∉ fills responses
  | _ => True

instance (L : Ledger) : DecidablePred (OrderlyAt L)
  | ⟨.read r, openOrders, _, _, _⟩ =>
    inferInstanceAs (Decidable (∀ m ∈ r.fill?, ∀ entry ∈ L.opened.get? m.orderId,
      Carried openOrders m.orderId entry))
  | ⟨.removed orderId, _, _, _, _⟩ =>
    inferInstanceAs (Decidable (∀ f ∈ L.due, f.fill.orderId ≠ orderId))
  | ⟨.booked orderId _ m, openOrders, _, _, _⟩ =>
    inferInstanceAs (Decidable (Bookable L orderId m openOrders))
  | ⟨.lost responses, _, _, _, _⟩ =>
    inferInstanceAs (Decidable (∀ f ∈ L.due, f.fill ∉ fills responses))
  | ⟨.placed _ _, _, _, _, _⟩ | ⟨.cleared, _, _, _, _⟩ | ⟨.modified _ _ _, _, _, _, _⟩
  | ⟨.sent _, _, _, _, _⟩ | ⟨.replied _ _ _ _, _, _, _, _⟩ => .isTrue trivial

/-- **An orderly trace.** -/
def Orderly (trace : List Point) : Prop := Ledger.empty.Along OrderlyAt trace

instance : DecidablePred Orderly := fun trace ↦
  inferInstanceAs (Decidable (Ledger.empty.Along OrderlyAt trace))

/-! ### The balance -/

/-- The ledger is what has been booked together with what is due; what is due waits, and its orders
are open as the exchange has them. -/
structure Balanced (L : Ledger) (openOrders : Dict ℤ OeConfig) (holdings : Holdings)
    (waiting : List OeResponse) : Prop where
  holdings_eq : L.holdings = holdings + total L.due
  waits : (L.due.map Counted.fill : Multiset OrderFill) ≤ fills waiting
  carried : ∀ f ∈ L.due, Carried openOrders f.fill.orderId f.entry

section

variable {r : OeResponse} {m : OrderFill} (responses responses' : List OeResponse)

theorem fills_append : fills (responses ++ responses') = fills responses ++ fills responses' :=
  List.filterMap_append

theorem fills_cons_of_none (h : r.fill? = none) : fills (r :: responses) = fills responses :=
  List.filterMap_cons_none h

theorem fills_cons_fill : fills (.fill m :: responses) = m :: fills responses :=
  List.filterMap_cons_some rfl

/-- Wherever a response is put among the others, its fill is added to theirs. -/
theorem fills_insert (r : OeResponse) :
    (fills (responses ++ r :: responses') : Multiset OrderFill) =
      fills [r] + fills (responses ++ responses') := by
  rw [← List.singleton_append, fills_append, fills_append, fills_append, ← Multiset.coe_add,
    ← Multiset.coe_add, ← Multiset.coe_add]
  exact add_left_comm _ _ _

end

namespace Balanced

variable {L L' : Ledger} {openOrders openOrders' : Dict ℤ OeConfig} {holdings : Holdings}
  {waiting : List OeResponse}

/-- With nothing waiting, nothing is due. -/
theorem due_eq_nil (h : Balanced L openOrders holdings []) : L.due = [] := by
  have hwaits : (L.due.map Counted.fill : Multiset OrderFill) ≤ 0 := h.waits
  rw [Multiset.le_zero, Multiset.coe_eq_zero] at hwaits
  exact List.map_eq_nil_iff.1 hwaits

/-- With nothing waiting, everything is booked. -/
theorem holdings_of_nil (h : Balanced L openOrders holdings []) : holdings = L.holdings := by
  rw [h.holdings_eq, h.due_eq_nil, total_nil, add_zero]

/-- What is booked is what the ledger has as booked. -/
theorem booked_eq (h : Balanced L openOrders holdings waiting) : L.booked = holdings := by
  rw [Ledger.booked, h.holdings_eq, add_sub_cancel_right]

/-- The observer learns of nothing that fills. -/
theorem congr (h : Balanced L openOrders holdings waiting)
    (hfills : L'.counted = L.counted ∧ L'.due = L.due) :
    Balanced L' openOrders holdings waiting where
  holdings_eq := by
    rw [Ledger.holdings, hfills.1, hfills.2]
    exact h.holdings_eq
  waits := hfills.2 ▸ h.waits
  carried := hfills.2 ▸ h.carried

/-- With nothing waiting, the entries may change. -/
theorem idle (h : Balanced L openOrders holdings []) (openOrders' : Dict ℤ OeConfig) :
    Balanced L openOrders' holdings [] :=
  ⟨h.holdings_eq, h.waits, fun f hf ↦ by rw [h.due_eq_nil] at hf; cases hf⟩

/-- An order leaves, with nothing of it due. -/
theorem erase (h : Balanced L openOrders holdings waiting) {orderId : ℤ}
    (hnone : ∀ f ∈ L.due, f.fill.orderId ≠ orderId) :
    Balanced L (openOrders.erase orderId) holdings waiting := by
  refine ⟨h.holdings_eq, h.waits, fun f hf ↦ ?_⟩
  unfold Carried
  rw [Dict.get?_erase_of_ne _ (hnone f hf)]
  exact h.carried f hf

/-- An entry is rewritten for the same symbol and side. -/
theorem rewrite (h : Balanced L openOrders holdings waiting) {orderId : ℤ} {entry entry' : OeConfig}
    (hentry : openOrders.get? orderId = some entry) (hsymbol : entry'.symbol = entry.symbol)
    (hside : entry'.side = entry.side) :
    Balanced L (openOrders.insert orderId entry') holdings waiting := by
  refine ⟨h.holdings_eq, h.waits, fun f hf ↦ ?_⟩
  obtain ⟨e, he, hsame⟩ := h.carried f hf
  unfold Carried
  rw [Dict.get?_insert]
  split
  · rename_i hid
    rw [hid, hentry] at he
    obtain rfl := Option.some.inj he
    exact ⟨entry', rfl, hsymbol.trans hsame.1, hside.trans hsame.2⟩
  · exact ⟨e, he, hsame⟩

/-- **A response is read.** -/
theorem read {batch outer : List OeResponse} {r : OeResponse}
    (h : Balanced L openOrders holdings (batch ++ outer))
    (horderly : ∀ m ∈ r.fill?, ∀ entry ∈ L.opened.get? m.orderId,
      Carried openOrders m.orderId entry) :
    Balanced (L.next (.read r)) openOrders holdings ((batch ++ [r]) ++ outer) := by
  have hwaiting : (fills ((batch ++ [r]) ++ outer) : Multiset OrderFill) =
      fills [r] + fills (batch ++ outer) := by
    rw [List.append_assoc, List.singleton_append]
    exact fills_insert batch outer r
  have hmore : Balanced L openOrders holdings ((batch ++ [r]) ++ outer) :=
    ⟨h.holdings_eq, h.waits.trans (by rw [hwaiting]; exact Multiset.le_add_left _ _), h.carried⟩
  cases r with
  | fill m =>
    show Balanced (L.fill m) _ _ _
    unfold Ledger.fill
    rcases hentry : L.opened.get? m.orderId with - | entry
    · exact hmore
    · refine ⟨?_, ?_, fun f hf ↦ ?_⟩
      · show total (L.counted ++ [_]) = holdings + total (L.due ++ [_])
        rw [total_concat, total_concat, ← add_assoc]
        exact congrArg (· + _) h.holdings_eq
      · show (((L.due ++ [Counted.mk entry m]).map Counted.fill : List OrderFill) :
          Multiset OrderFill) ≤ _
        rw [hwaiting, List.map_append, ← Multiset.coe_add, add_comm]
        exact add_le_add_right h.waits _
      · rcases List.mem_append.1 hf with hf | hf
        · exact h.carried f hf
        · obtain rfl := List.mem_singleton.1 hf
          exact horderly m rfl entry hentry
  | ack m => exact hmore.congr (L.fills_acked m)
  | closed m => exact hmore.congr ⟨rfl, rfl⟩
  | _ => exact hmore

/-- A response that adds nothing is handled. -/
theorem pass {r : OeResponse} (h : Balanced L openOrders holdings (r :: waiting))
    (hr : ∀ m, r = .fill m → openOrders.get? m.orderId = none) :
    Balanced L openOrders holdings waiting := by
  refine ⟨h.holdings_eq, ?_, h.carried⟩
  have hwaits := h.waits
  cases r with
  | fill m =>
    rw [fills_cons_fill, ← Multiset.cons_coe] at hwaits
    -- a fill whose order is not open is not due
    refine (Multiset.le_cons_of_notMem fun hdue ↦ ?_).1 hwaits
    obtain ⟨f, hf, rfl⟩ := List.mem_map.1 (Multiset.mem_coe.1 hdue)
    obtain ⟨e, he, -⟩ := h.carried f hf
    rw [hr _ rfl] at he
    cases he
  | _ => rwa [fills_cons_of_none _ rfl] at hwaits

/-- **A fill that is due is booked.** -/
theorem book {m : OrderFill} {entry : OeConfig}
    (h : Balanced L openOrders holdings (.fill m :: waiting))
    (hdue : m ∈ L.due.map Counted.fill) (hentry : openOrders.get? m.orderId = some entry) :
    Balanced (L.book m) openOrders (holdings + entry.gain m) waiting := by
  obtain ⟨g, hg, hgm⟩ := List.mem_map.1 hdue
  obtain ⟨f, before, after, -, hfm, hsplit, herase⟩ :=
    List.exists_of_eraseP (p := fun f ↦ f.fill = m) hg (decide_eq_true hgm)
  obtain rfl : f.fill = m := of_decide_eq_true hfm
  have hmem : f ∈ L.due := by
    rw [hsplit]
    exact List.mem_append_right _ List.mem_cons_self
  have hgain : f.gain = entry.gain f.fill := by
    obtain ⟨e, he, hsymbol, hside⟩ := h.carried f hmem
    obtain rfl := Option.some.inj (hentry.symm.trans he)
    exact OeConfig.gain_congr hsymbol.symm hside.symm f.fill
  have hbook : (L.book f.fill).due = before ++ after := herase
  refine ⟨?_, ?_, fun f' hf' ↦ h.carried f' ?_⟩
  · show L.holdings = _
    rw [h.holdings_eq, hbook, hsplit, total_append, total_cons, total_append, hgain]
    abel
  · have hwaits := h.waits
    rw [hsplit, fills_cons_fill, ← Multiset.cons_coe, List.map_append, List.map_cons,
      Multiset.coe_eq_coe.2 List.perm_middle, ← Multiset.cons_coe,
      Multiset.cons_le_cons_iff] at hwaits
    rw [hbook, List.map_append]
    exact hwaits
  · rw [hbook] at hf'
    rw [hsplit]
    exact (List.sublist_cons_self f after).append_left before |>.subset hf'

/-- Some responses are dropped, with nothing among them that is due. -/
theorem drop {batch : List OeResponse} (h : Balanced L openOrders holdings (batch ++ waiting))
    (hnone : ∀ f ∈ L.due, f.fill ∉ fills batch) : Balanced L openOrders holdings waiting := by
  refine ⟨h.holdings_eq, Multiset.le_iff_count.2 fun m ↦ ?_, h.carried⟩
  have hwaits := Multiset.le_iff_count.1 h.waits m
  rw [fills_append, ← Multiset.coe_add, Multiset.count_add] at hwaits
  by_cases hdue : m ∈ L.due.map Counted.fill
  · obtain ⟨f, hf, rfl⟩ := List.mem_map.1 hdue
    have hbatch : Multiset.count f.fill (fills batch : Multiset OrderFill) = 0 :=
      Multiset.count_eq_zero_of_notMem (hnone f hf)
    rwa [hbatch, zero_add] at hwaits
  · have hnone : Multiset.count m (L.due.map Counted.fill : Multiset OrderFill) = 0 :=
      Multiset.count_eq_zero_of_notMem hdue
    rw [hnone]
    exact Nat.zero_le _

end Balanced

/-! ### Every step of the client -/

/-- Positions and cash at a point. -/
def Point.holdings (p : Point) : Holdings :=
  (fun symbol ↦ p.positionTracker.getPosition symbol, p.pnlTracker.cash)

/-- Whenever nothing waits, everything that counts is booked. -/
def SettledAt (L : Ledger) (p : Point) : Prop :=
  p.waiting = [] → p.holdings = (L.next p.note).holdings

namespace OrderEntryClient

variable {modifies connects : Prop} {c c' : OrderEntryClient}

/-- The client's positions and cash. -/
def holdings (c : OrderEntryClient) : Holdings :=
  (fun symbol ↦ c.positionTracker.getPosition symbol, c.pnlTracker.cash)

/-- The ledger of everything noted so far. -/
def ledger (c : OrderEntryClient) : Ledger := Ledger.empty.after c.record.trace

/-- As long as the trace has been orderly, the client is balanced, and has been settled whenever
nothing was waiting. -/
def Booked (c : OrderEntryClient) : Prop :=
  Orderly c.record.trace →
    Balanced c.ledger c.openOrders c.holdings c.record.waiting ∧
      Ledger.empty.Along SettledAt c.record.trace

/-- What is not noted. -/
theorem Booked.step (h : Booked c) (htrace : c'.record.trace = c.record.trace)
    (hbalanced : Orderly c.record.trace →
      Balanced c.ledger c.openOrders c.holdings c.record.waiting →
      Balanced c.ledger c'.openOrders c'.holdings c'.record.waiting) : Booked c' := by
  unfold Booked ledger
  rw [htrace]
  exact fun horderly ↦ ⟨hbalanced horderly (h horderly).1, (h horderly).2⟩

/-- What is noted. -/
theorem Booked.note {n : Note} (h : Booked c) (htrace : c'.record.trace = c.record.trace)
    (hbalanced : OrderlyAt c.ledger (c'.point n) →
      Balanced c.ledger c.openOrders c.holdings c.record.waiting →
      Balanced (c.ledger.next n) c'.openOrders c'.holdings c'.record.waiting) :
    Booked (c'.note n) := by
  intro horderly
  replace horderly : Ledger.empty.Along OrderlyAt (c'.record.trace ++ [c'.point n]) := horderly
  rw [htrace, Ledger.along_append_singleton] at horderly
  obtain ⟨hbefore, hsettled⟩ := h horderly.1
  have hafter := hbalanced horderly.2 hbefore
  have htrace' : (c'.note n).record.trace = c.record.trace ++ [c'.point n] :=
    congrArg (· ++ [c'.point n]) htrace
  constructor
  · rw [ledger, htrace', Ledger.after_append_singleton]
    exact hafter
  · rw [htrace', Ledger.along_append_singleton]
    refine ⟨hsettled, fun hnil ↦ ?_⟩
    replace hnil : c'.record.waiting = [] := hnil
    rw [hnil] at hafter
    exact hafter.holdings_of_nil

/-- Nothing but a note, of something that is neither a placement nor a response. -/
theorem Booked.noted (h : Booked c) {n : Note} (hn : ∀ L : Ledger, L.next n = L) :
    Booked (c.note n) := h.note rfl fun _ hb ↦ by rwa [hn]

/-- An order leaves `open_orders` with no fill of it due. -/
theorem Booked.popOrder (h : Booked c) (orderId : ℤ) : Booked (c.popOrder orderId) := by
  unfold OrderEntryClient.popOrder
  split
  · exact h.note rfl fun horderly hb ↦ hb.erase horderly
  · exact h

/-- Booking adds what the fill adds, if the amount and the balance are doubles. -/
theorem holdings_bookTrackers (entry : OeConfig) {m : OrderFill} (c : OrderEntryClient)
    (hamount : IsDouble (m.price * m.quantity))
    (hbalance : IsDouble (c.holdings + entry.gain m).2) :
    (c.bookTrackers entry m).holdings = c.holdings + entry.gain m := by
  have hcash : IsDouble (c.pnlTracker.cash - m.price * entry.signed m.quantity) := by
    rw [sub_eq_add_neg]
    exact hbalance
  refine Prod.ext ?_ ?_
  · funext symbol
    exact getPosition_bookTrackers entry m c symbol
  · exact (cash_bookTrackers hamount hcash).trans (sub_eq_add_neg _ _)

/-- The response that is taken up was the first to wait. -/
theorem waiting_take {response : OeResponse} {batch : List OeResponse}
    {outer : List (List OeResponse)} (h : c.record.batches = (response :: batch) :: outer) :
    c.record.waiting = response :: (c.onRecord Record.take).record.waiting := by
  show c.record.batches.flatten = response :: c.record.take.batches.flatten
  rw [h, take_batches h]
  rfl

/-- **A fill that is booked** was due, and moves both sides alike. -/
theorem Booked.bookFill (h : Booked c) {m : OrderFill} {batch : List OeResponse}
    {outer : List (List OeResponse)} {entry : OeConfig} (flags : FillFlags)
    (hbatches : c.record.batches = (.fill m :: batch) :: outer)
    (hentry : c.openOrders.get? m.orderId = some entry) : Booked (c.bookFill entry m flags) := by
  unfold OrderEntryClient.bookFill
  have hholdings := @holdings_bookTrackers entry m (c.onRecord Record.take)
  rw [bookTrackers_eq] at hholdings ⊢
  refine h.note rfl fun horderly hb ↦ ?_
  replace horderly : Bookable c.ledger m.orderId m
      (if flags = .closed then c.openOrders.erase m.orderId
        else c.openOrders.insert m.orderId (filledBy m entry)) := horderly
  rw [waiting_take hbatches] at hb
  have hbook := hb.book horderly.due hentry
  have hgain : c.holdings + entry.gain m = _ :=
    (hholdings horderly.amount (hbook.booked_eq ▸ horderly.balance)).symm
  rw [hgain] at hbook
  have hlast := horderly.last
  dsimp only
  split at hlast
  · rename_i hclosed
    rw [if_pos hclosed]
    exact hbook.erase (hlast (Dict.get?_erase_self _ _))
  · rename_i hclosed
    rw [if_neg hclosed]
    exact hbook.rewrite hentry rfl rfl

/-- What an exception throws away was not due. -/
theorem Booked.abandonBatch (h : Booked c) {batch : List OeResponse}
    {outer : List (List OeResponse)} (hbatches : c.record.batches = batch :: outer) :
    Booked c.abandonBatch := by
  refine (h.noted fun _ ↦ rfl).step rfl fun horderly hb ↦ ?_
  replace horderly : Ledger.empty.Along OrderlyAt (c.record.trace ++ [_]) := horderly
  rw [Ledger.along_append_singleton] at horderly
  have hledger : (c.note (.lost c.record.batch)).ledger = c.ledger :=
    Ledger.after_append_singleton _ _ _
  have hlost : ∀ f ∈ (c.note (.lost c.record.batch)).ledger.due, f.fill ∉ fills c.record.batch :=
    hledger ▸ horderly.2
  have hwaiting : (c.note (.lost c.record.batch)).record.waiting =
      c.record.batch ++ c.abandonBatch.record.waiting := by
    show c.record.batches.flatten = c.record.batches.headD [] ++ c.record.batches.tail.flatten
    rw [hbatches]
    rfl
  rw [hwaiting] at hb
  exact hb.drop hlost

/-- The balance is about orders, holdings and what waits. -/
theorem SameBooks.balanced (h : SameBooks c c') {L : Ledger}
    (hb : Balanced L c.openOrders c.holdings c.record.waiting) :
    Balanced L c'.openOrders c'.holdings c'.record.waiting := by
  unfold holdings
  rw [h.openOrders, h.positionTracker, h.pnlTracker, h.record]
  exact hb

/-- What is read becomes due as it begins to wait. -/
theorem ReadStep.keepsBooked (h : ReadStep c c') (hc : Booked c) : Booked c' := by
  cases h with
  | wire h => exact hc.step (by rw [h.record]) fun _ hb ↦ h.balanced hb
  | sent message => exact hc.note rfl fun _ hb ↦ hb.congr (Ledger.fills_send message _)
  | opened => exact hc.step rfl fun _ hb ↦ hb
  | @read batch outer h response =>
    refine hc.note rfl fun horderly hb ↦ ?_
    have hwaiting : c.record.waiting = batch ++ outer.flatten := congrArg List.flatten h
    have hwaiting' : (c.onRecord (·.collect response)).record.waiting =
        (batch ++ [response]) ++ outer.flatten := by
      show (c.record.collect response).batches.flatten = _
      unfold Record.collect
      rw [h]
      rfl
    rw [hwaiting] at hb
    rw [hwaiting']
    exact hb.read horderly
  | abandoned h => exact hc.abandonBatch h

theorem Reads.keepsBooked (h : Reads c c') (hc : Booked c) : Booked c' := by
  induction h with
  | refl => exact hc
  | tail _ hstep ih => exact hstep.keepsBooked ih

theorem waiting_of_nil (h : c.record.batches = []) : c.record.waiting = [] := by
  unfold Record.waiting
  rw [h]
  rfl

/-- An entry is rewritten while nothing is due. -/
theorem Booked.settleModify (h : Booked c) (hbatches : c.record.batches = [])
    (orderId side quantity price : ℤ) (first : OeResponse) :
    Booked (c.settleModify orderId side quantity price first) := by
  unfold OrderEntryClient.settleModify
  cases first with
  | ack m =>
    dsimp only
    unfold rewriteEntry
    rcases hentry : c.openOrders.get? orderId with - | entry
    · exact h
    · refine h.note rfl fun _ hb ↦ ?_
      rw [waiting_of_nil hbatches] at hb
      show Balanced _ _ _ c.record.waiting
      rw [waiting_of_nil hbatches]
      exact hb.idle _
  | closed m => exact h.popOrder orderId
  | reject m =>
    dsimp only
    split
    · exact h.popOrder orderId
    · exact h
  | _ => exact h

/-- **Every step** of the client keeps what it has booked in balance with the ledger. -/
theorem Step.keepsBooked (h : Step modifies connects c c') (hc : Booked c) : Booked c' := by
  cases h with
  | header => exact hc.step rfl fun _ hb ↦ hb
  | exchanged h => exact ((reads_of_ok h).keepsBooked hc).noted fun _ ↦ rfl
  | broken h => exact (reads_of_error h).keepsBooked hc
  | passed h hresponse =>
    refine hc.step rfl fun _ hb ↦ ?_
    rw [waiting_take h] at hb
    exact hb.pass hresponse
  | popped h hresponse =>
    refine Booked.popOrder ?_ _
    refine hc.step rfl fun _ hb ↦ ?_
    rw [waiting_take h] at hb
    exact hb.pass fun m hm ↦ absurd hm (hresponse m)
  | booked h _ hentry => exact hc.bookFill _ h hentry
  | finished h =>
    refine hc.step rfl fun _ hb ↦ ?_
    have hwaiting : c.record.waiting = (c.onRecord Record.closeBatch).record.waiting := by
      show c.record.batches.flatten = c.record.batches.tail.flatten
      rw [h]
      rfl
    rwa [hwaiting] at hb
  | abandoned h => exact hc.abandonBatch h
  | checked => exact hc.step rfl fun _ hb ↦ hb
  | placed hbatches =>
    refine hc.note rfl fun _ hb ↦ ?_
    rw [waiting_of_nil hbatches] at hb
    show Balanced _ _ _ c.record.waiting
    rw [waiting_of_nil hbatches]
    exact hb.idle _
  | settled _ hbatches => exact hc.settleModify hbatches _ _ _ _ _
  | forgotten _ hbatches =>
    refine hc.note rfl fun _ hb ↦ ?_
    rw [waiting_of_nil hbatches] at hb
    show Balanced _ _ _ c.record.waiting
    rw [waiting_of_nil hbatches]
    have hcleared : Balanced (c.ledger.next .cleared) c.openOrders c.holdings [] :=
      hb.congr ⟨rfl, rfl⟩
    exact hcleared.idle _
  | connected _ h => exact hc.step (by rw [h.record]) fun _ hb ↦ h.balanced hb
  | loginExchanged _ data => exact (reads_after_exchangeLogin data c).keepsBooked hc

/-- **Whatever the client does keeps the balance**, on an orderly run. -/
theorem Steps.keepsBooked (h : Steps modifies connects c c') (hc : Booked c) : Booked c' := by
  induction h with
  | refl => exact hc
  | tail _ hstep ih => exact hstep.keepsBooked ih

/-- Two buys; the first fills for so much that the kill switch cancels the second, with these
responses behind the fill and to the cancel. -/
def killSwitchRun (behind reply : List OeResponse) : OrderEntryClient :=
  runCalls [.newOrder 0 1 5 1 7 3000 0, .newOrder 0 2 5 1 1 10 0]
    (init [] [] 7 (-20000) 10 (some (.connected
      (Arrival.burst [.ack ⟨⟨40, 101, 1, 1, 1, 7⟩, 1, 901, 7, 3000⟩] ++ [.pause] ++
      Arrival.burst ([.ack ⟨⟨40, 101, 1, 2, 2, 7⟩, 2, 902, 1, 10⟩,
        .fill ⟨⟨33, 103, 1, 3, 2, 7⟩, 1, 7, 3000, 2⟩] ++ behind) ++ [.pause] ++
      Arrival.burst reply ++ [.pause]))) [])

end OrderEntryClient

end HftTrading.OrderEntry
