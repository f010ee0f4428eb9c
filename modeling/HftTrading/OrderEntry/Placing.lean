import HftTrading.OrderEntry.Admission
import HftTrading.OrderEntry.Exposure
import HftTrading.OrderEntry.Requests

/-!
# Placing orders

Of all that the client does only `new_order` places an order and moves the risk tracker, and it
places its order only if the tracker has approved it (`asks_newOrder`). Whatever else is requested,
received, cancelled, modified or forgotten is idle in this respect: no order is placed, the tracker
stays as it is, and no more orders are open than before (`Idle`).

So **no order goes around the check**: with each order that is placed, the client is within all the
limits of the tracker (`Cleared`), and there are never more open orders than it allows (`Ruled`).

## How an invariant of the tracker is shown

Being idle is a relation between two states, reflexive and transitive, and each step of reading,
booking and cancelling has it. An invariant of the tracker therefore needs two lemmas: that it
survives what is idle, and that it survives a question to the tracker, followed by an order if the
answer was yes. `Asks` is that one step of `new_order`, with the responses that come after it.

## Three such invariants

* `Ruled`, of which the limits are a part: they are those of the start, and no more orders are open
  than they allow.
* `Cleared`, of a note: an order that is noted as placed was within the limits as the client stood.
* `Paced`, of a stretch of time: the placed orders are as many as the questions that the tracker
  answered with yes, at the most, and these came with a clock between two bounds. So **the limit per
  second holds for what is sent**, and not just for what is approved.
-/

namespace HftTrading.OrderEntry

/-- The note of an order that is placed. -/
def Note.places : Note → Bool
  | .placed .. => true
  | _ => false

namespace RiskTracker

/-- The limits, with the counters as at the start. -/
def rules (r : RiskTracker) : RiskTracker :=
  { r with
    ordersThisSecond := 0
    lastSecondTime := none
    ordersThisSeqNum := 0
    lastSeqNum := none }

/-- The check does not move the limits. -/
theorem rules_answer (check : Check) (r : RiskTracker) :
    (check.answer r).2.rules = r.rules := by
  unfold Check.answer isValid
  rcases r.refusal? check.symbol check.side check.quantity check.price check.openOrders
    check.positionTracker check.pnlTracker with - | reason
  · dsimp only
    rw [rollSecond_eq, rollSequence_eq]
    dsimp only
    generalize (if some check.currentSeqNum ≠ r.lastSeqNum then 0 else r.ordersThisSeqNum) = n
    split
    · rfl
    · split
      · rfl
      · split
        · rfl
        · rfl
  · rfl

end RiskTracker

namespace OrderEntryClient

open Method RiskTracker

/-! ### What places no order -/

/-- Nothing is placed on the way, the risk tracker does not move, and no order is opened. -/
structure Idle (c c' : OrderEntryClient) : Prop where
  riskTracker_eq : c'.riskTracker = c.riskTracker
  noted : ∃ points, c'.record.trace = c.record.trace ++ points ∧
    ∀ p ∈ points, p.note.places = false
  open_le : c'.openOrders.entries.length ≤ c.openOrders.entries.length

section

variable {c c' c'' : OrderEntryClient}

/-- Nothing has been done. -/
theorem Idle.refl (c : OrderEntryClient) : Idle c c :=
  ⟨rfl, ⟨[], (List.append_nil _).symm, fun _ hp ↦ by cases hp⟩, le_rfl⟩

/-- One idle step after another. -/
theorem Idle.trans (h : Idle c c') (h' : Idle c' c'') : Idle c c'' := by
  refine ⟨h'.riskTracker_eq.trans h.riskTracker_eq, ?_, h'.open_le.trans h.open_le⟩
  obtain ⟨points, heq, hpoints⟩ := h.noted
  obtain ⟨points', heq', hpoints'⟩ := h'.noted
  refine ⟨points ++ points', by rw [heq', heq, List.append_assoc], fun p hp ↦ ?_⟩
  rcases List.mem_append.1 hp with hp | hp
  · exact hpoints p hp
  · exact hpoints' p hp

/-- Nothing that counts is touched. -/
theorem idle_of_eq (htracker : c'.riskTracker = c.riskTracker)
    (hrecord : c'.record.trace = c.record.trace) (hopen : c'.openOrders = c.openOrders) :
    Idle c c' :=
  ⟨htracker, ⟨[], hrecord.trans (List.append_nil _).symm, fun _ hp ↦ by cases hp⟩, hopen ▸ le_rfl⟩

/-- Something is noted that is not the placing of an order. -/
theorem idle_note {n : Note} (hn : n.places = false) (htracker : c'.riskTracker = c.riskTracker)
    (hrecord : c'.record.trace = c.record.trace)
    (hopen : c'.openOrders.entries.length ≤ c.openOrders.entries.length) : Idle c (c'.note n) :=
  ⟨htracker, ⟨[c'.point n], congrArg (· ++ [c'.point n]) hrecord, fun _ hp ↦ by
    rwa [List.mem_singleton.1 hp]⟩, hopen⟩

/-- Reading a response places nothing. -/
theorem ReadStep.idle (h : ReadStep c c') : Idle c c' := by
  cases h with
  | wire hsame =>
    exact idle_of_eq hsame.riskTracker (congrArg Record.trace hsame.record) hsame.openOrders
  | sent => exact idle_note rfl rfl rfl le_rfl
  | opened => exact idle_of_eq rfl rfl rfl
  | read => exact idle_note rfl rfl rfl le_rfl
  | abandoned => exact (idle_note rfl rfl rfl le_rfl).trans (idle_of_eq rfl rfl rfl)

/-- Nor does reading several. -/
theorem Reads.idle (h : Reads c c') : Idle c c' := by
  induction h with
  | refl => exact .refl c
  | tail _ hstep ih => exact ih.trans hstep.idle

/-- An order that is forgotten makes room and no order. -/
theorem idle_popOrder (orderId : ℤ) (c : OrderEntryClient) : Idle c (c.popOrder orderId) := by
  unfold popOrder
  split
  · exact idle_note rfl rfl rfl (List.length_filter_le _ _)
  · exact .refl c

/-- A fill moves quantity and places nothing. -/
theorem idle_bookFill {m : OrderFill} {entry : OeConfig} (flags : FillFlags)
    (h : c.openOrders.get? m.orderId = some entry) : Idle c (c.bookFill entry m flags) := by
  unfold bookFill
  rw [bookTrackers_eq]
  refine idle_note rfl rfl rfl ?_
  dsimp only
  split
  · exact List.length_filter_le _ _
  · exact (Dict.length_insert_of_get? h _).le

/-- A modify rewrites its entry and places nothing. -/
theorem idle_settleModify (orderId side quantity price : ℤ) (first : OeResponse)
    (c : OrderEntryClient) : Idle c (c.settleModify orderId side quantity price first) := by
  unfold settleModify
  split
  · unfold rewriteEntry
    rcases hentry : c.openOrders.get? orderId with - | entry
    · exact .refl c
    · exact idle_note rfl rfl rfl (Dict.length_insert_of_get? hentry _).le
  · exact idle_popOrder orderId c
  · split
    · exact idle_popOrder orderId c
    · exact .refl c
  · exact .refl c

/-- **Requests are idle**, up to the end of the handling of their responses. -/
theorem idle_keptByRequests (c₀ : OrderEntryClient) : KeptByRequests (fun _ ↦ True) (Idle c₀) where
  header hc := hc.trans (idle_of_eq rfl rfl rfl)
  exchanged _ _ _ hsend hc :=
    (hc.trans (reads_of_ok hsend).idle).trans (idle_note rfl rfl rfl le_rfl)
  broken _ hsend hc := hc.trans (reads_of_error hsend).idle
  passed _ _ _ hc := hc.trans (idle_of_eq rfl rfl rfl)
  popped {c} _ _ _ _ _ _ _ hc :=
    have htaken : Idle c (c.onRecord Record.take) := idle_of_eq rfl rfl rfl
    hc.trans (htaken.trans (idle_popOrder _ _))
  booked _ _ hentry hc := hc.trans (idle_bookFill _ hentry)
  finished _ hc := hc.trans (idle_of_eq rfl rfl rfl)
  abandoned _ hc := (hc.trans (idle_note rfl rfl rfl le_rfl)).trans (idle_of_eq rfl rfl rfl)

/-- **A cancel places nothing**, whatever its responses set off. -/
theorem idle_deleteOrder (orderId : ℤ) (c : OrderEntryClient) :
    Idle c ((deleteOrder orderId).after c) :=
  (idle_keptByRequests c).deleteOrder (fun _ _ ↦ trivial) orderId c (.refl c)

/-- Nor do as many cancels as there are orders. -/
theorem idle_cancelAllOrders (c : OrderEntryClient) : Idle c (cancelAllOrders.after c) :=
  keeps_cancelAllWith (I := Idle c) (fun orderId c' hc' ↦ ((idle_keptByRequests c).deleteOrderN
    (fun _ _ ↦ trivial) c.arrivals c'.record.batches orderId c' ⟨hc', rfl⟩).1) c (.refl c)

/-- Nor does a modify, which asks no tracker. -/
theorem idle_modifyOrder (orderId side quantity price : ℤ) (c : OrderEntryClient) :
    Idle c ((modifyOrder orderId side quantity price).after c) := by
  have hmodify : Triple (With (Idle c) c.record.batches) (modifyOrder orderId side quantity price)
      (fun responses c' ↦ (With (Idle c) c.record.batches c' ∧
        ∀ first, responses.head? = some first → isReject first = true) ∨
          ∃ c₁ first, With (Idle c) c.record.batches c₁ ∧ responses.head? = some first ∧
            c' = c₁.settleModify orderId side quantity price first)
      (With (Idle c) c.record.batches) :=
    (idle_keptByRequests c).modifyOrder (fun _ _ ↦ trivial) orderId side quantity price
      fun _ _ _ ↦ trivial
  refine triple_iff_after.1 (hmodify.weaken (fun _ hc ↦ hc) (fun responses c' hc' ↦ ?_)
    fun _ hc' ↦ hc'.1) c ⟨.refl c, rfl⟩
  rcases hc' with ⟨hc', -⟩ | ⟨c₁, first, hc₁, -, rfl⟩
  · exact hc'.1
  · exact hc₁.1.trans (idle_settleModify ..)

/-- Nor does a login. -/
theorem idle_login (c : OrderEntryClient) : Idle c (login.after c) :=
  keeps_login (fun hc ↦ hc.trans (idle_of_eq rfl rfl rfl))
    (fun hsame hc ↦ hc.trans (ReadStep.wire hsame).idle) (fun hreads hc ↦ hc.trans hreads.idle) c
    (.refl c)

/-- Nor does a reconnect. -/
theorem idle_reconnect (c : OrderEntryClient) : Idle c (reconnect.after c) :=
  keeps_reconnect (fun hc ↦ hc.trans (idle_of_eq rfl rfl rfl))
    (fun hsame hc ↦ hc.trans (ReadStep.wire hsame).idle) (fun hreads hc ↦ hc.trans hreads.idle)
    (fun _ hc ↦ hc.trans (idle_note rfl rfl rfl (Nat.zero_le _))) c (.refl c)

end

/-! ### `new_order` -/

/-- What `new_order` asks the risk tracker. -/
def check (now : ℚ) (symbol side quantity price : ℤ) (c : OrderEntryClient) : Check :=
  ⟨symbol, side, quantity, price, c.openOrders, c.positionTracker, c.pnlTracker, c.respSeq, now⟩

/-- The client, once the tracker has answered. -/
def asked (check : Check) (c : OrderEntryClient) : OrderEntryClient :=
  { c with riskTracker := (check.answer c.riskTracker).2 }

/-- How a call of `new_order` that asks this goes. -/
inductive Asks (check : Check) (orderId : ℤ) (c : OrderEntryClient) : OrderEntryClient → Prop
  /-- The id is that of an open order, and nothing is asked. -/
  | duplicate {c' : OrderEntryClient} (hidle : Idle c c') : Asks check orderId c c'
  /-- The order is not placed, approved or not. -/
  | answered {c' : OrderEntryClient} (hidle : Idle (c.asked check) c') : Asks check orderId c c'
  /-- The order is placed. -/
  | placed {side : Side} {c' : OrderEntryClient}
      (happroved : (check.answer c.riskTracker).1.1 = true) (hside : check.side = side.value)
      (hnew : c.openOrders.get? orderId = none)
      (hidle : Idle ((c.asked check).placeEntry orderId
        ⟨check.symbol, check.side, check.quantity, check.price, 0⟩) c') : Asks check orderId c c'

/-- An order that is submitted is placed, unless its side is none. -/
theorem idle_submitNewOrder (orderId symbol side quantity price flags : ℤ) (c : OrderEntryClient) :
    Idle c ((submitNewOrder orderId symbol side quantity price flags).after c) ∨
      (∃ member, Side.ofValue? side = some member) ∧
        Idle (c.placeEntry orderId ⟨symbol, side, quantity, price, 0⟩)
          ((submitNewOrder orderId symbol side quantity price flags).after c) := by
  rw [submitNewOrder, after_bind_of_ok (makeHeader_eq _ _ c)]
  generalize NewOrder.pack
    ⟨c.nextHeader .newOrder NewOrder.SIZE, orderId, symbol, side, quantity, price, flags⟩ = packet
  have hbefore : Idle c { c with seqNum := c.seqNum + 1 } := idle_of_eq rfl rfl rfl
  rcases hside : Side.ofValue? side with - | member
  · left
    unfold nameOf
    rw [hside]
    exact hbefore
  rw [after_bind_of_ok (nameOf_of_isSome _ (hside ▸ rfl) _)]
  rcases hflags : OrderFlags.ofValue? flags with - | flag
  · left
    unfold nameOf
    rw [hflags]
    exact hbefore
  rw [after_bind_of_ok (nameOf_of_isSome _ (hflags ▸ rfl) _),
    after_bind_of_ok (modify_apply _ _)]
  refine Or.inr ⟨⟨member, rfl⟩, ?_⟩
  set placed := c.placeEntry orderId ⟨symbol, side, quantity, price, 0⟩
  have hkept : KeptByRequests (fun _ ↦ True) (Idle placed) := idle_keptByRequests placed
  have hprocess (responses : List OeResponse) :
      Triple (With (Idle placed) (responses :: c.record.batches)) (processResponses responses)
        (fun _ ↦ With (Idle placed) c.record.batches) (With (Idle placed) c.record.batches) :=
    hkept.processResponses (fun _ _ ↦ trivial) responses
  have hrequest := hkept.request hprocess (fun responses ↦ triple_pure responses fun _ hc ↦ hc)
    (fun _ hc ↦ hc) (fun msg (_ : msg ∈ packet) ↦ trivial) (c.seqNum + 1) orderId
  have hstart : With (Idle placed) c.record.batches
      (placeEntry orderId ⟨symbol, side, quantity, price, 0⟩ { c with seqNum := c.seqNum + 1 }) :=
    ⟨idle_of_eq rfl rfl rfl, rfl⟩
  exact triple_iff_after.1 (hrequest.weaken (fun _ hc ↦ hc) (fun _ _ hc ↦ hc.1) fun _ hc ↦ hc.1) _
    hstart

/-- **What a call of `new_order` comes to.** -/
theorem asks_newOrder (now : ℚ) (orderId symbol side quantity price flags : ℤ)
    (c : OrderEntryClient) :
    Asks (c.check now symbol side quantity price) orderId c
      ((newOrder now orderId symbol side quantity price flags).after c) := by
  rw [newOrder, after_bind_of_ok (get_apply c)]
  split
  · exact .duplicate (.refl c)
  rename_i hnew
  rw [Bool.not_eq_true, Dict.contains_eq_false_iff] at hnew
  have hcheck : riskCheck now symbol side quantity price c =
      .ok ((c.check now symbol side quantity price).answer c.riskTracker).1.1
        (c.asked (c.check now symbol side quantity price)) := rfl
  rw [after_bind_of_ok hcheck]
  split
  · rename_i happroved
    rcases idle_submitNewOrder orderId symbol side quantity price flags
      (c.asked (c.check now symbol side quantity price)) with hidle | ⟨⟨member, hside⟩, hidle⟩
    · exact .answered hidle
    · exact .placed happroved (Side.value_of_ofValue? hside).symm hnew hidle
  · exact .answered (idle_of_eq rfl rfl rfl)

/-! ### No order goes around the check -/

/-- If an order is placed, it is of a positive size and at a positive price, and the client is
within all the limits with it. -/
def Cleared (rules : RiskTracker) (p : Point) : Prop :=
  ∀ orderId entry, p.note = .placed orderId entry →
    0 < entry.qty ∧ entry.qty ≤ rules.maxQtyPerOrder ∧ entry.qty ≤ rules.maxQtyPerSide ∧
      0 < entry.prc ∧ rules.minPnl < p.pnlTracker.getPnl ∧
      exposureOf entry.symbol entry.side p.openOrders
        (p.positionTracker.getPosition entry.symbol) ≤ rules.maxExposure ∧
      |p.positionTracker.getPosition entry.symbol + entry.signed entry.qty| ≤ rules.positionLimit ∧
      p.openOrders.entries.length ≤ rules.maxUnackedOrders

/-- By these limits every order has been placed, and no more are open than they allow. -/
structure Ruled (rules : RiskTracker) (c : OrderEntryClient) : Prop where
  rules_eq : c.riskTracker.rules = rules
  cleared : ∀ p ∈ c.record.trace, Cleared rules p
  open_le : c.openOrders.entries.length ≤ rules.maxUnackedOrders

section

variable {rules : RiskTracker} {c c' : OrderEntryClient}

/-- A note that is not of an order has nothing to clear. -/
theorem cleared_of_places {p : Point} (h : p.note.places = false) : Cleared rules p := by
  intro orderId entry hp
  rw [hp] at h
  cases h

/-- What is idle keeps to the limits. -/
theorem Ruled.idle (h : Ruled rules c) (hidle : Idle c c') : Ruled rules c' := by
  refine ⟨hidle.riskTracker_eq ▸ h.rules_eq, fun p hp ↦ ?_, hidle.open_le.trans h.open_le⟩
  obtain ⟨points, heq, hpoints⟩ := hidle.noted
  rw [heq] at hp
  rcases List.mem_append.1 hp with hp | hp
  · exact h.cleared p hp
  · exact cleared_of_places (hpoints p hp)

/-- So does a question, whatever the answer. -/
theorem Ruled.asked (h : Ruled rules c) (check : Check) : Ruled rules (c.asked check) :=
  ⟨(rules_answer check c.riskTracker).trans h.rules_eq, h.cleared, h.open_le⟩

/-- The exposure of a side with a new order on it. -/
theorem exposureOf_insert {openOrders : Dict ℤ OeConfig} {orderId : ℤ}
    (hnew : openOrders.get? orderId = none) (symbol quantity price position : ℤ) (side : Side) :
    exposureOf symbol side.value
        (openOrders.insert orderId ⟨symbol, side.value, quantity, price, 0⟩) position =
      exposureOf symbol side.value openOrders position + quantity := by
  have houtstanding : ExposureTracker.outstanding symbol side
      (openOrders.insert orderId ⟨symbol, side.value, quantity, price, 0⟩) =
        ExposureTracker.outstanding symbol side openOrders + quantity := by
    rw [ExposureTracker.outstanding_insert, Dict.erase_eq_self hnew, ExposureTracker.left,
      if_pos ⟨rfl, rfl⟩]
    dsimp only
    omega
  unfold exposureOf
  cases side with
  | buy =>
    rw [if_pos rfl, if_pos rfl, ExposureTracker.buyExposure, ExposureTracker.buyExposure,
      houtstanding, add_assoc]
  | sell =>
    rw [if_neg (by decide), if_neg (by decide), ExposureTracker.sellExposure,
      ExposureTracker.sellExposure, houtstanding, add_assoc]

/-- The position once an order is filled. -/
theorem add_signed (position : ℤ) (entry : OeConfig) : position + entry.signed entry.qty =
    if entry.side = Side.buy.value then position + entry.qty else position - entry.qty := by
  unfold OeConfig.signed
  split
  · rfl
  · exact (sub_eq_add_neg _ _).symm

/-- **An approved order** is placed within the limits. -/
theorem Ruled.placed (h : Ruled rules c) {orderId symbol quantity price : ℤ} {side : Side} {now : ℚ}
    (happroved : ((c.check now symbol side.value quantity price).answer c.riskTracker).1.1 = true)
    (hnew : c.openOrders.get? orderId = none) :
    Ruled rules ((c.asked (c.check now symbol side.value quantity price)).placeEntry orderId
      ⟨symbol, side.value, quantity, price, 0⟩) := by
  have hrules := h.rules_eq
  subst hrules
  obtain ⟨hnone, -, -, hroom⟩ := isValid_approves_iff.1 happroved
  obtain ⟨hpnl, hquantity, hprice, horder, hside, hexposure, hposition⟩ :=
    refusal?_eq_none_iff.1 hnone
  have hopen : (c.openOrders.insert orderId ⟨symbol, side.value, quantity, price, 0⟩).entries.length
      ≤ c.riskTracker.maxUnackedOrders := (Dict.length_insert_of_none hnew _).trans_le hroom
  refine ⟨rules_answer _ _, fun p hp ↦ ?_, hopen⟩
  rcases List.mem_append.1 hp with hp | hp
  · exact h.cleared p hp
  obtain rfl := List.mem_singleton.1 hp
  intro orderId' entry hentry
  cases hentry
  refine ⟨hquantity, horder, hside, hprice, hpnl, ?_, ?_, hopen⟩
  · exact (exposureOf_insert hnew symbol quantity price _ side).trans_le hexposure
  · exact (congrArg abs (add_signed _ _)).trans_le hposition

/-- **`new_order`** keeps to the limits. -/
theorem Ruled.newOrder (h : Ruled rules c) (now : ℚ)
    (orderId symbol side quantity price flags : ℤ) :
    Ruled rules ((newOrder now orderId symbol side quantity price flags).after c) := by
  cases asks_newOrder now orderId symbol side quantity price flags c with
  | duplicate hidle => exact h.idle hidle
  | answered hidle => exact (h.asked _).idle hidle
  | placed happroved hside hnew hidle =>
    obtain rfl := hside
    exact (h.placed happroved hnew).idle hidle

/-- **A run of calls** keeps to the limits, whatever is asked and received. -/
theorem ruled_runCalls (calls : List Call) (h : Ruled rules c) :
    Ruled rules (runCalls calls c) := by
  refine run_keeps (fun m hm ↦ ?_) h
  obtain ⟨call, -, rfl⟩ := List.mem_map.1 hm
  cases call with
  | newOrder => exact keeps_discard fun c hc ↦ hc.newOrder _ _ _ _ _ _ _
  | immediateOrCancel => exact keeps_discard fun c hc ↦ hc.newOrder _ _ _ _ _ _ _
  | deleteOrder orderId => exact keeps_discard fun c hc ↦ hc.idle (idle_deleteOrder orderId c)
  | modifyOrder => exact keeps_discard fun c hc ↦ hc.idle (idle_modifyOrder _ _ _ _ c)
  | cancelAllOrders => exact fun c hc ↦ hc.idle (idle_cancelAllOrders c)
  | login => exact keeps_discard fun c hc ↦ hc.idle (idle_login c)
  | reconnect => exact fun c hc ↦ hc.idle (idle_reconnect c)

end

/-! ### Orders per second -/

/-- How many orders have been placed. -/
def placements (c : OrderEntryClient) : ℕ := c.record.trace.countP fun p ↦ p.note.places

/-- Since the tracker was `r` and `n` orders had been placed, at time `a`, the tracker has been
asked time and again up to time `b`, and each order has been placed upon an approval. -/
structure Paced (r : RiskTracker) (n : ℕ) (a b : ℚ) (c : OrderEntryClient) : Prop where
  elapsed : a ≤ b
  asked : ∃ checks, c.riskTracker = afterChecks checks r ∧
    (checks.map Check.now).Pairwise (· ≤ ·) ∧
    (∀ check ∈ checks, a ≤ check.now ∧ check.now ≤ b) ∧
    c.placements ≤ n + (verdicts checks r).countP Prod.snd

section

variable {r : RiskTracker} {n : ℕ} {a b b' : ℚ} {c c' : OrderEntryClient}

/-- What is idle places no order. -/
theorem Idle.placements_eq (h : Idle c c') : c'.placements = c.placements := by
  obtain ⟨points, heq, hpoints⟩ := h.noted
  have hnone : points.countP (fun p ↦ p.note.places) = 0 :=
    List.countP_eq_zero.2 fun p hp ↦ Bool.eq_false_iff.1 (hpoints p hp)
  unfold placements
  rw [heq, List.countP_append, hnone, add_zero]

/-- An order that is placed is counted. -/
theorem placements_placeEntry (orderId : ℤ) (entry : OeConfig) (c : OrderEntryClient) :
    (c.placeEntry orderId entry).placements = c.placements + 1 := by
  unfold placements placeEntry note
  rw [List.countP_append, List.countP_singleton]
  rfl

/-- At the start of a stretch nothing has been placed in it. -/
theorem paced_start (h : a ≤ b) (c : OrderEntryClient) :
    Paced c.riskTracker c.placements a b c :=
  ⟨h, [], rfl, List.Pairwise.nil, fun _ hcheck ↦ absurd hcheck List.not_mem_nil,
    Nat.le_add_right _ _⟩

/-- A stretch may be taken to end later. -/
theorem Paced.later (h : Paced r n a b c) (hb : b ≤ b') : Paced r n a b' c := by
  obtain ⟨checks, htracker, hsorted, hwithin, hplaced⟩ := h.asked
  exact ⟨h.elapsed.trans hb, checks, htracker, hsorted,
    fun check hcheck ↦ (hwithin check hcheck).imp_right hb.trans', hplaced⟩

/-- What is idle takes no part in it. -/
theorem Paced.idle (h : Paced r n a b c) (hidle : Idle c c') : Paced r n a b c' := by
  obtain ⟨checks, htracker, hsorted, hwithin, hplaced⟩ := h.asked
  exact ⟨h.elapsed, checks, hidle.riskTracker_eq.trans htracker, hsorted, hwithin,
    hidle.placements_eq.trans_le hplaced⟩

/-- **A question more**, asked no earlier than the others: an order may be placed if it is
approved. -/
theorem Paced.ask (h : Paced r n a b c) (check : Check) (hnow : b ≤ check.now)
    (htracker : c'.riskTracker = (check.answer c.riskTracker).2)
    (hplaced : c'.placements ≤
      c.placements + if (check.answer c.riskTracker).1.1 = true then 1 else 0) :
    Paced r n a check.now c' := by
  obtain ⟨checks, hasked, hsorted, hwithin, hbefore⟩ := h.asked
  refine ⟨h.elapsed.trans hnow, checks ++ [check], ?_, ?_, fun check' hcheck ↦ ?_, ?_⟩
  · rw [htracker, hasked, afterChecks_concat]
  · rw [List.map_append, List.pairwise_append]
    refine ⟨hsorted, List.pairwise_singleton _ _, fun t ht t' ht' ↦ ?_⟩
    obtain ⟨check', hcheck, rfl⟩ := List.mem_map.1 ht
    obtain rfl := List.mem_singleton.1 ht'
    exact (hwithin check' hcheck).2.trans hnow
  · rcases List.mem_append.1 hcheck with hcheck | hcheck
    · exact (hwithin check' hcheck).imp_right hnow.trans'
    · obtain rfl := List.mem_singleton.1 hcheck
      exact ⟨h.elapsed.trans hnow, le_rfl⟩
  · rw [verdicts_concat, List.countP_append, List.countP_singleton, ← hasked, ← add_assoc]
    exact hplaced.trans (Nat.add_le_add_right hbefore _)

/-- **`new_order`** asks once at the most. -/
theorem Paced.newOrder (h : Paced r n a b c) {now : ℚ} (hnow : b ≤ now)
    (orderId symbol side quantity price flags : ℤ) :
    Paced r n a now ((newOrder now orderId symbol side quantity price flags).after c) := by
  cases asks_newOrder now orderId symbol side quantity price flags c with
  | duplicate hidle => exact (h.later hnow).idle hidle
  | answered hidle =>
    have hsame : (c.asked (c.check now symbol side quantity price)).placements = c.placements := rfl
    exact (h.ask (c.check now symbol side quantity price) hnow rfl
      (hsame.trans_le (Nat.le_add_right _ _))).idle hidle
  | placed happroved _ _ hidle =>
    refine (h.ask (c.check now symbol side quantity price) hnow rfl ?_).idle hidle
    rw [placements_placeEntry, if_pos happroved]
    exact le_rfl

/-- **In less than a second** no more than twice the orders are placed that the tracker allows in
one. -/
theorem Paced.placements_le (h : Paced r n a b c) (hab : b - a < 1) :
    c.placements ≤ n + 2 * r.maxOrdersPerSecond := by
  obtain ⟨checks, -, hsorted, hwithin, hplaced⟩ := h.asked
  have hall : ∀ verdict ∈ verdicts checks r, a ≤ verdict.1 ∧ verdict.1 ≤ b := by
    intro verdict hverdict
    have hmem := List.mem_map_of_mem (f := Prod.fst) hverdict
    rw [map_fst_verdicts] at hmem
    obtain ⟨check, hcheck, heq⟩ := List.mem_map.1 hmem
    exact heq ▸ hwithin check hcheck
  have hadmitted := (run_verdicts checks r).admitted_le (by rwa [map_fst_verdicts]) hab
  rw [FixedWindow.admitted_eq_countP hall] at hadmitted
  omega

end

end OrderEntryClient

end HftTrading.OrderEntry
