import HftTrading.OrderEntry.Handling
import HftTrading.OrderEntry.Reading

/-!
# What the client does, step by step

Every method of the client is a sequence of the steps listed here (`Step`), each with what is known
when it is taken: that a fill is booked only while it is the response being handled and its order
is open, that an order is placed only after the risk check has found room for it, that nothing is
waiting when an order is placed. An invariant of the client is proved once, step by step, and then
holds at the end of every call, whatever the call raised and however deep the kill switch nested
(`Call.ran`).

`modifies` and `connects` say whether `modify_order` and the connecting methods are among the calls.

A method that is started with some batches on the record ends with the same ones, except that
`_process_responses` takes its own away (`ran_processWith`).

## The methods, one by one

There is one lemma for each method, named after it, about `Ran`: from a point of a run, the method
comes to a later point of the run, with these batches open. They follow the order of the source, and
each uses those of the methods that it calls. The recursion of the cancels goes by the fuel it is
closed over.

## The source's equations

The last part is about that fuel. Two closures of the methods agree as soon as both have fuel for
the arrivals that are to come, because a cancel that gets as far as handling has used one up. So the
closed methods satisfy the equations that the source writes (`deleteOrder_eq`).
-/

namespace HftTrading.OrderEntry.OrderEntryClient

/-- One step of the client. -/
inductive Step (modifies connects : Prop) : OrderEntryClient → OrderEntryClient → Prop
  /-- A sequence number is used up. -/
  | header (c : OrderEntryClient) : Step modifies connects c { c with seqNum := c.seqNum + 1 }
  /-- A request has been sent and its responses collected. -/
  | exchanged {c c' : OrderEntryClient} {msg : List UInt8} {responses : List OeResponse}
      (h : sendAndRecv msg c = .ok responses c') (seqNum : ℕ) (orderId : ℤ) :
      Step modifies connects c (c'.note (.replied seqNum orderId msg responses))
  /-- Sending or collecting has raised. -/
  | broken {c c' : OrderEntryClient} {msg : List UInt8} {e : OeError}
      (h : sendAndRecv msg c = .error e c') : Step modifies connects c c'
  /-- A response without effect is handled. -/
  | passed {c : OrderEntryClient} {response : OeResponse} {batch : List OeResponse}
      {outer : List (List OeResponse)} (h : c.record.batches = (response :: batch) :: outer)
      (hresponse : ∀ m, response = .fill m → c.openOrders.get? m.orderId = none) :
      Step modifies connects c (c.onRecord Record.take)
  /-- A close or an `UNKNOWN_ORDER_ID` reject is handled. -/
  | popped {c : OrderEntryClient} {response : OeResponse} {batch : List OeResponse}
      {outer : List (List OeResponse)} (h : c.record.batches = (response :: batch) :: outer)
      (hresponse : ∀ m, response ≠ .fill m) (orderId : ℤ) :
      Step modifies connects c ((c.onRecord Record.take).popOrder orderId)
  /-- A fill of an open order is booked. -/
  | booked {c : OrderEntryClient} {m : OrderFill} {batch : List OeResponse}
      {outer : List (List OeResponse)} {entry : OeConfig} {flags : FillFlags}
      (h : c.record.batches = (.fill m :: batch) :: outer)
      (hflags : FillFlags.ofValue? m.flags = some flags)
      (hentry : c.openOrders.get? m.orderId = some entry) :
      Step modifies connects c (c.bookFill entry m flags)
  /-- All of a batch has been handled. -/
  | finished {c : OrderEntryClient} {outer : List (List OeResponse)}
      (h : c.record.batches = [] :: outer) : Step modifies connects c (c.onRecord Record.closeBatch)
  /-- The rest of a batch is thrown away. -/
  | abandoned {c : OrderEntryClient} {batch : List OeResponse} {outer : List (List OeResponse)}
      (h : c.record.batches = batch :: outer) : Step modifies connects c c.abandonBatch
  /-- The risk check has moved its counters. -/
  | checked {c : OrderEntryClient} {tracker : RiskTracker}
      (h : c.riskTracker.SameLimits tracker) :
      Step modifies connects c { c with riskTracker := tracker }
  /-- An order that the risk check has approved is placed. -/
  | placed {c : OrderEntryClient} {orderId symbol quantity price : ℤ} {side : Side}
      (hbatches : c.record.batches = []) (hnew : c.openOrders.get? orderId = none)
      (hquantity : 0 < quantity)
      (hexposure : RiskTracker.exposureOf symbol side.value c.openOrders
        (c.positionTracker.getPosition symbol) + quantity ≤ c.riskTracker.maxExposure) :
      Step modifies connects c (c.placeEntry orderId ⟨symbol, side.value, quantity, price, 0⟩)
  /-- `modify_order` has looked at its first response. -/
  | settled (hmodifies : modifies) {c : OrderEntryClient} (hbatches : c.record.batches = [])
      (orderId side quantity price : ℤ) (first : OeResponse) :
      Step modifies connects c (c.settleModify orderId side quantity price first)
  /-- `reconnect` has forgotten the session. -/
  | forgotten (hconnects : connects) {c : OrderEntryClient} (hbatches : c.record.batches = []) :
      Step modifies connects c c.forgetSession
  /-- The connection has been replaced, or the login has set the session. -/
  | connected (hconnects : connects) {c c' : OrderEntryClient} (h : SameBooks c c') :
      Step modifies connects c c'
  /-- A login has been sent and a response read. -/
  | loginExchanged (hconnects : connects) {c : OrderEntryClient} (data : List UInt8) :
      Step modifies connects c ((exchangeLogin data).after c)

/-- Any number of steps. -/
abbrev Steps (modifies connects : Prop) : OrderEntryClient → OrderEntryClient → Prop :=
  Relation.ReflTransGen (Step modifies connects)

/-- Steps since `c₀`, with these batches on the record. -/
structure Ran (modifies connects : Prop) (c₀ : OrderEntryClient) (batches : List (List OeResponse))
    (c : OrderEntryClient) : Prop where
  steps : Steps modifies connects c₀ c
  batches_eq : c.record.batches = batches

section

variable {modifies connects : Prop} {c₀ c : OrderEntryClient}
  {batch : List OeResponse} {batches outer : List (List OeResponse)}

/-- One more step, with the batches it leaves. -/
theorem Ran.step {c' : OrderEntryClient} (h : Ran modifies connects c₀ batches c)
    (hstep : Step modifies connects c c') (hbatches : c'.record.batches = outer) :
    Ran modifies connects c₀ outer c' :=
  ⟨h.steps.tail hstep, hbatches⟩

theorem batches_popOrder (orderId : ℤ) (c : OrderEntryClient) :
    (c.popOrder orderId).record.batches = c.record.batches := by
  unfold popOrder
  split
  · rfl
  · rfl

theorem openOrders_popOrder (orderId : ℤ) (c : OrderEntryClient) :
    (c.popOrder orderId).openOrders = c.openOrders.erase orderId ∧
      (c.popOrder orderId).positionTracker = c.positionTracker := by
  unfold popOrder
  split
  · exact ⟨rfl, rfl⟩
  · rename_i h
    rw [Bool.not_eq_true, Dict.contains_eq_false_iff] at h
    exact ⟨(Dict.erase_eq_self h).symm, rfl⟩

/-- Booking takes the fill from its batch. -/
theorem batches_bookFill (entry : OeConfig) (m : OrderFill) (flags : FillFlags)
    (c : OrderEntryClient) : (c.bookFill entry m flags).record.batches = c.record.take.batches := by
  unfold bookFill
  rw [bookTrackers_eq]
  rfl

/-- It takes its order out, or fills it further. -/
theorem openOrders_bookFill (entry : OeConfig) (m : OrderFill) (flags : FillFlags)
    (c : OrderEntryClient) : (c.bookFill entry m flags).openOrders =
      if flags = .closed then c.openOrders.erase m.orderId
      else c.openOrders.insert m.orderId (filledBy m entry) := by
  unfold bookFill
  rw [bookTrackers_eq]
  rfl

theorem batches_settleModify (orderId side quantity price : ℤ) (first : OeResponse)
    (c : OrderEntryClient) :
    (c.settleModify orderId side quantity price first).record.batches = c.record.batches := by
  unfold settleModify
  rcases first with m | m | m | m | m | m | m
  · rfl
  · show (c.rewriteEntry orderId side quantity price).record.batches = _
    unfold rewriteEntry
    rcases c.openOrders.get? orderId with - | entry
    · rfl
    · rfl
  · dsimp only
    split
    · exact batches_popOrder orderId c
    · rfl
  · rfl
  · exact batches_popOrder orderId c
  · rfl
  · rfl

/-- The innermost batch is one response shorter. -/
theorem take_batches {response : OeResponse} {r : Record}
    (h : r.batches = (response :: batch) :: outer) : r.take.batches = batch :: outer := by
  unfold Record.take
  rw [h]
  rfl

theorem ran_makeHeader (msgType : MsgType) (length : ℕ) :
    Method.Keeps (Ran modifies connects c₀ batches) (makeHeader msgType length) :=
  Method.Keeps.bind (Method.keeps_modify fun c hc ↦ hc.step (.header c) hc.batches_eq) fun _ ↦
    Method.keeps_get.bind fun _ ↦ Method.keeps_pure _

theorem keeps_packed {I : OrderEntryClient → Prop} (data : Option (List UInt8)) :
    Method.Keeps I (packed data) := by
  rcases data with - | data
  · exact Method.keeps_throw _
  · exact Method.keeps_pure _

/-- Nothing is changed when packing fails either. -/
theorem triple_packed {P : OrderEntryClient → Prop} (data : Option (List UInt8)) :
    Method.Triple P (packed data) (fun _ ↦ P) P := Method.keeps_iff_triple.1 (keeps_packed data)

/-- A request is sent and its responses collected: they are the innermost batch from then on. -/
theorem ran_exchange (msg : List UInt8) (seqNum : ℕ) (orderId : ℤ) :
    Method.Triple (Ran modifies connects c₀ batches) (exchange seqNum orderId msg)
      (fun responses ↦ Ran modifies connects c₀ (responses :: batches))
      (Ran modifies connects c₀ batches) := by
  intro c hc
  have hreads := reads_sendAndRecv msg c ⟨.refl, hc.batches_eq⟩
  unfold exchange
  rcases hsend : sendAndRecv msg c with ⟨responses, c'⟩ | ⟨e, c'⟩
  · rw [Method.bind_ok hsend]
    rw [hsend] at hreads
    exact hc.step (.exchanged hsend seqNum orderId) hreads.batches_eq
  · rw [Method.bind_error hsend]
    rw [hsend] at hreads
    exact hc.step (.broken hsend) hreads.batches_eq

/-! ### Handling responses -/

/-- **One response** is handled and no longer waits, unless it raises. -/
theorem ran_handleResponse {checkLimits : ℤ → ClientM Unit}
    (hcheck : ∀ batches symbol, Method.Keeps (Ran modifies connects c₀ batches)
      (checkLimits symbol))
    (response : OeResponse) :
    Method.Triple (Ran modifies connects c₀ ((response :: batch) :: outer))
      (handleResponse checkLimits response) (fun _ ↦ Ran modifies connects c₀ (batch :: outer))
      fun c ↦ ∃ batch, Ran modifies connects c₀ (batch :: outer) c := by
  refine triple_handleResponse (R := fun _ ↦ Ran modifies connects c₀ (batch :: outer))
    (fun c hc _ ↦ ⟨_, hc⟩) (fun c hc _ hnone ↦ ?_) (fun c orderId hc _ hcloses ↦ ?_)
    (fun c m flags entry hc hfill hflags hentry ↦ ?_) fun symbol ↦ ?_
  · exact hc.step (.passed hc.batches_eq hnone.2) (take_batches hc.batches_eq)
  · exact hc.step (.popped hc.batches_eq hcloses.2 orderId)
      ((batches_popOrder _ _).trans (take_batches hc.batches_eq))
  · subst hfill
    exact hc.step (.booked hc.batches_eq hflags hentry)
      ((batches_bookFill _ _ _ _).trans (take_batches hc.batches_eq))
  · exact (Method.keeps_iff_triple.1 (hcheck _ symbol)).weaken (fun _ hc ↦ hc) (fun _ _ hc ↦ hc)
      fun _ hc ↦ ⟨_, hc⟩

/-- **`_process_responses`** takes its batch away, returning or raising. -/
theorem ran_processWith {checkLimits : ℤ → ClientM Unit}
    (hcheck : ∀ batches symbol, Method.Keeps (Ran modifies connects c₀ batches)
      (checkLimits symbol))
    (responses : List OeResponse) :
    Method.Triple (Ran modifies connects c₀ (responses :: outer))
      (processWith checkLimits responses) (fun _ ↦ Ran modifies connects c₀ outer)
      (Ran modifies connects c₀ outer) := by
  refine Method.Triple.onExit (R := fun _ ↦ Ran modifies connects c₀ ([] :: outer))
    (F := fun c ↦ ∃ batch, Ran modifies connects c₀ (batch :: outer) c) ?_ ?_ ?_
  · exact Method.triple_all (R := fun batch ↦ Ran modifies connects c₀ (batch :: outer))
      (fun response batch ↦ ran_handleResponse hcheck response) responses
  · intro _ c hc
    refine hc.step (.finished hc.batches_eq) ?_
    show c.record.batches.tail = outer
    rw [hc.batches_eq, List.tail_cons]
  · rintro c ⟨batch, hc⟩
    refine hc.step (.abandoned hc.batches_eq) ?_
    show c.record.batches.tail = outer
    rw [hc.batches_eq, List.tail_cons]

/-! ### Cancelling -/

/-- A request from its header on: packed, sent, and its responses handled. -/
theorem ran_deleteOrderWith {processResponses : List OeResponse → ClientM Unit}
    (hprocess : ∀ responses, Method.Triple (Ran modifies connects c₀ (responses :: batches))
      (processResponses responses) (fun _ ↦ Ran modifies connects c₀ batches)
      (Ran modifies connects c₀ batches)) (orderId : ℤ) :
    Method.Keeps (Ran modifies connects c₀ batches) (deleteOrderWith processResponses orderId) := by
  refine (ran_makeHeader _ _).bind fun header ↦ (keeps_packed _).bind fun data ↦
    Method.keeps_iff_triple.2 ?_
  exact (ran_exchange data header.seqNum orderId).bind fun responses ↦
    (hprocess responses).bind fun _ ↦ Method.triple_pure responses fun _ hc ↦ hc

/-- **The recursion**: a cancel, however deep it nests, ends with the batches it started with. -/
theorem ran_deleteOrderN (n : ℕ) (batches : List (List OeResponse)) (orderId : ℤ) :
    Method.Keeps (Ran modifies connects c₀ batches) (deleteOrderN n orderId) := by
  induction n generalizing batches orderId with
  | zero =>
    exact ran_deleteOrderWith (ran_processWith fun _ _ ↦ Method.keeps_pure _) orderId
  | succ n ih =>
    exact ran_deleteOrderWith (ran_processWith fun batches symbol ↦
      keeps_checkLimitsWith (keeps_cancelAllWith (ih batches)) symbol) orderId

/-- With any fuel. -/
theorem ran_deleteOrder (batches : List (List OeResponse)) (orderId : ℤ) :
    Method.Keeps (Ran modifies connects c₀ batches) (deleteOrder orderId) :=
  fun c hc ↦ ran_deleteOrderN c.arrivals batches orderId c hc

theorem ran_cancelAllOrders (batches : List (List OeResponse)) :
    Method.Keeps (Ran modifies connects c₀ batches) cancelAllOrders :=
  fun c hc ↦ keeps_cancelAllWith (ran_deleteOrderN c.arrivals batches) c hc

/-- Handling a batch, which is gone afterwards. -/
theorem ran_processResponses (responses : List OeResponse) :
    Method.Triple (Ran modifies connects c₀ (responses :: outer)) (processResponses responses)
      (fun _ ↦ Ran modifies connects c₀ outer) (Ran modifies connects c₀ outer) :=
  ran_processWith (fun batches symbol ↦ keeps_checkLimitsWith (ran_cancelAllOrders batches) symbol)
    responses

/-! ### The calls -/

/-- A packed request is exchanged and its responses are handled, with nothing waiting before or
after; `finish` has the last word. -/
theorem ran_request {finish : List OeResponse → ClientM (List OeResponse)}
    (hfinish : ∀ responses, Method.Keeps (Ran modifies connects c₀ []) (finish responses))
    (packet : Option (List UInt8)) (seqNum : ℕ) (orderId : ℤ) :
    Method.Triple (Ran modifies connects c₀ [])
      (do
        let data ← packed packet
        let responses ← exchange seqNum orderId data
        processResponses responses
        finish responses)
      (fun _ ↦ Ran modifies connects c₀ []) (Ran modifies connects c₀ []) :=
  (triple_packed packet).bind fun data ↦ (ran_exchange data seqNum orderId).bind fun responses ↦
    (ran_processResponses responses).bind fun _ ↦ Method.keeps_iff_triple.1 (hfinish responses)

/-- Past the check, the integer is a member. -/
theorem triple_nameOf {P : OrderEntryClient → Prop} {α : Type} (enumeration : String)
    (ofValue? : ℤ → Option α) (n : ℤ) :
    Method.Triple P (nameOf enumeration ofValue? n)
      (fun _ c ↦ P c ∧ ∃ member, ofValue? n = some member) P := by
  unfold nameOf
  rcases ofValue? n with - | member
  · exact Method.triple_throw _ fun _ hc ↦ hc
  · exact Method.triple_pure _ fun _ hc ↦ ⟨hc, member, rfl⟩

/-- The state in which an order has passed the checks of `new_order`. -/
structure Approved (modifies connects : Prop) (c₀ : OrderEntryClient)
    (orderId symbol side quantity : ℤ) (c : OrderEntryClient) : Prop where
  ran : Ran modifies connects c₀ [] c
  new : c.openOrders.get? orderId = none
  quantity_pos : 0 < quantity
  exposure : RiskTracker.exposureOf symbol side c.openOrders
    (c.positionTracker.getPosition symbol) + quantity ≤ c.riskTracker.maxExposure

theorem Approved.header {orderId symbol side quantity : ℤ}
    (h : Approved modifies connects c₀ orderId symbol side quantity c) :
    Approved modifies connects c₀ orderId symbol side quantity { c with seqNum := c.seqNum + 1 } :=
  ⟨h.ran.step (.header c) h.ran.batches_eq, h.new, h.quantity_pos, h.exposure⟩

/-- **Placing** an approved order, on a side that is one. -/
theorem Approved.placed {orderId symbol side quantity price : ℤ} {member : Side}
    (h : Approved modifies connects c₀ orderId symbol side quantity c)
    (hside : Side.ofValue? side = some member) :
    Ran modifies connects c₀ [] (c.placeEntry orderId ⟨symbol, side, quantity, price, 0⟩) := by
  obtain rfl := Side.value_of_ofValue? hside
  exact h.ran.step (.placed h.ran.batches_eq h.new h.quantity_pos h.exposure) h.ran.batches_eq

theorem ran_submitNewOrder (orderId symbol side quantity price flags : ℤ) :
    Method.Triple (Approved modifies connects c₀ orderId symbol side quantity)
      (submitNewOrder orderId symbol side quantity price flags)
      (fun _ ↦ Ran modifies connects c₀ []) (Ran modifies connects c₀ []) := by
  have hheader : Method.Keeps (Approved modifies connects c₀ orderId symbol side quantity)
      (makeHeader .newOrder NewOrder.SIZE) :=
    Method.Keeps.bind (Method.keeps_modify fun c hc ↦ hc.header) fun _ ↦
      Method.keeps_get.bind fun _ ↦ Method.keeps_pure _
  refine Method.Triple.bind ((Method.keeps_iff_triple.1 hheader).weaken (fun _ hc ↦ hc)
    (fun _ _ hc ↦ hc) fun _ hc ↦ hc.ran) fun header ↦ ?_
  refine Method.Triple.bind ((triple_nameOf _ _ _).weaken (fun _ hc ↦ hc) (fun _ _ hc ↦ hc)
    fun _ hc ↦ hc.ran) fun _ ↦ ?_
  refine Method.Triple.bind ((triple_nameOf _ _ _).weaken (fun _ hc ↦ hc) (fun _ _ hc ↦ hc)
    fun _ hc ↦ hc.1.ran) fun _ ↦ ?_
  generalize NewOrder.pack ⟨header, orderId, symbol, side, quantity, price, flags⟩ = packet
  refine Method.Triple.bind (R := fun _ ↦ Ran modifies connects c₀ [])
    (Method.triple_modify ?_) fun _ ↦ ?_
  · rintro c ⟨⟨hc, member, hside⟩, -⟩
    exact hc.placed hside
  · exact ran_request (fun responses ↦ Method.keeps_pure responses) _ header.seqNum orderId

theorem ran_newOrder (now : ℚ) (orderId symbol side quantity price flags : ℤ) :
    Method.Keeps (Ran modifies connects c₀ [])
      (newOrder now orderId symbol side quantity price flags) := by
  refine Method.keeps_iff_triple.2 (Method.triple_get fun c hc ↦ ?_)
  rcases hopen : c.openOrders.contains orderId with - | -
  · rw [if_neg Bool.false_ne_true]
    rw [Dict.contains_eq_false_iff] at hopen
    -- the risk check moves its own counters, and answers for the orders and positions as they are
    refine Method.Triple.bind (R := fun valid c ↦ Ran modifies connects c₀ [] c ∧
      (valid = true → Approved modifies connects c₀ orderId symbol side quantity c)) ?_ ?_
    · refine Method.triple_get fun c' hc' ↦ ?_
      subst hc'
      set answer := c'.riskTracker.isValid symbol side quantity price c'.openOrders
        c'.positionTracker c'.pnlTracker c'.respSeq now with hanswer
      have hlimits : c'.riskTracker.SameLimits answer.2 := RiskTracker.sameLimits_isValid _ _ _
      refine Method.Triple.bind (R := fun _ c ↦ c = { c' with riskTracker := answer.2 })
        (Method.triple_modify fun _ h ↦ by rw [h]) fun _ ↦ Method.triple_pure _ ?_
      rintro _ rfl
      have hran : Ran modifies connects c₀ [] { c' with riskTracker := answer.2 } :=
        hc.step (.checked hlimits) hc.batches_eq
      refine ⟨hran, fun hvalid ↦ ?_⟩
      obtain ⟨hquantity, hexposure⟩ := RiskTracker.exposure_of_isValid hvalid
      exact ⟨hran, hopen, hquantity, by rw [hlimits.maxExposure]; exact hexposure⟩
    · rintro (- | -)
      · rw [if_neg Bool.false_ne_true]
        refine Method.Triple.bind (R := fun _ ↦ Ran modifies connects c₀ [])
          (Method.triple_modify fun c hc ↦ hc.1.step (.header c) hc.1.batches_eq) fun _ ↦
          Method.triple_get fun c hc ↦ Method.triple_pure _ fun _ h ↦ h ▸ hc
      · rw [if_pos rfl]
        exact (ran_submitNewOrder orderId symbol side quantity price flags).weaken
          (fun _ hc ↦ hc.2 rfl) (fun _ _ hc ↦ hc) fun _ hc ↦ hc
  · rw [if_pos rfl]
    exact Method.triple_pure _ fun _ h ↦ h ▸ hc

/-- A modify, where modifies are among the calls. -/
theorem ran_modifyOrder (hmodifies : modifies) (orderId side quantity price : ℤ) :
    Method.Keeps (Ran modifies connects c₀ []) (modifyOrder orderId side quantity price) := by
  refine Method.keeps_iff_triple.2 (Method.triple_get fun c hc ↦ ?_)
  split
  · refine Method.Triple.bind ((Method.keeps_iff_triple.1 (ran_makeHeader _ _)).weaken
      (fun _ h ↦ h ▸ hc) (fun _ _ hc ↦ hc) fun _ hc ↦ hc) fun header ↦ ?_
    refine Method.Triple.bind ((triple_nameOf _ _ _).weaken (fun _ hc ↦ hc) (fun _ _ hc ↦ hc.1)
      fun _ hc ↦ hc) fun _ ↦ ?_
    refine ran_request (fun responses ↦ ?_) _ header.seqNum orderId
    rcases responses with - | ⟨first, rest⟩
    · exact Method.keeps_pure _
    · refine Method.Keeps.bind (Method.keeps_modify fun c hc ↦ ?_) fun _ ↦ Method.keeps_pure _
      exact hc.step (.settled hmodifies hc.batches_eq orderId side quantity price first)
        ((batches_settleModify _ _ _ _ _ _).trans hc.batches_eq)
  · exact Method.triple_pure _ fun _ h ↦ h ▸ hc

/-! ### Connecting -/

theorem ran_connect (hconnects : connects) :
    Method.Keeps (Ran modifies connects c₀ batches) connect := by
  intro c hc
  have hsame : ∀ c', SameBooks c c' → Ran modifies connects c₀ batches c' := fun c' h ↦
    hc.step (.connected hconnects h) (by rw [h.record, hc.batches_eq])
  unfold Method.after connect
  rcases c.network with - | ⟨- | incoming, rest⟩
  · exact hsame _ ⟨rfl, rfl, rfl, rfl, rfl⟩
  · exact hsame _ ⟨rfl, rfl, rfl, rfl, rfl⟩
  · exact hsame _ ⟨rfl, rfl, rfl, rfl, rfl⟩

theorem ran_login (hconnects : connects) :
    Method.Keeps (Ran modifies connects c₀ batches) login := by
  refine Method.keeps_get.bind fun c ↦ (ran_makeHeader _ _).bind fun header ↦
    (keeps_packed _).bind fun data ↦ Method.Keeps.bind ?_ fun response ↦ ?_
  · intro c hc
    have hreads := Method.keeps_iff_triple.2
      (reads_exchangeLogin data) c (Reading.refl c)
    exact hc.step (.loginExchanged hconnects data) (hreads.batches_eq.trans hc.batches_eq)
  · cases response with
    | loginResponse m =>
      dsimp only
      rcases LoginStatus.ofValue? m.status with - | status
      · exact Method.keeps_throw _
      · dsimp only
        split
        · exact Method.keeps_throw _
        · refine Method.Keeps.bind (Method.keeps_modify fun c hc ↦ ?_) fun _ ↦ Method.keeps_pure _
          exact hc.step (.connected hconnects ⟨rfl, rfl, rfl, rfl, rfl⟩) hc.batches_eq
    | _ => exact Method.keeps_throw _

theorem ran_reconnect (hconnects : connects) :
    Method.Keeps (Ran modifies connects c₀ []) reconnect := by
  refine Method.Keeps.bind (Method.keeps_modify fun c hc ↦
    hc.step (.forgotten hconnects hc.batches_eq) hc.batches_eq) fun _ ↦ ?_
  have hattempts : ∀ n, Method.Keeps (Ran modifies connects c₀ []) (attempts n) := by
    intro n
    induction n with
    | zero => exact Method.keeps_throw _
    | succ n ih =>
      refine Method.Keeps.bind (Method.Keeps.tryCatch ?_ fun _ ↦ Method.keeps_pure _) ?_
      · exact (ran_connect hconnects).bind fun _ ↦ (ran_login hconnects).bind fun _ ↦
          Method.keeps_pure _
      · rintro (- | -)
        · exact ih
        · exact Method.keeps_pure _
  exact hattempts 5

end

/-- A call on the client. -/
inductive Call
  | newOrder (now : ℚ) (orderId symbol side quantity price flags : ℤ)
  | immediateOrCancel (now : ℚ) (orderId symbol side quantity price : ℤ)
  | deleteOrder (orderId : ℤ)
  | modifyOrder (orderId side quantity price : ℤ)
  | cancelAllOrders
  | login
  | reconnect

/-- Forget what a method returns. -/
def discard {α : Type} (m : ClientM α) : ClientM Unit := do
  let _ ← m

/-- The method behind a call. -/
def Call.method : Call → ClientM Unit
  | .newOrder now orderId symbol side quantity price flags =>
    discard (OrderEntryClient.newOrder now orderId symbol side quantity price flags)
  | .immediateOrCancel now orderId symbol side quantity price =>
    discard (OrderEntryClient.immediateOrCancel now orderId symbol side quantity price)
  | .deleteOrder orderId => discard (OrderEntryClient.deleteOrder orderId)
  | .modifyOrder orderId side quantity price =>
    discard (OrderEntryClient.modifyOrder orderId side quantity price)
  | .cancelAllOrders => OrderEntryClient.cancelAllOrders
  | .login => discard OrderEntryClient.login
  | .reconnect => OrderEntryClient.reconnect

/-- Whether a call is `modify_order`. -/
def Call.modifies : Call → Bool
  | .modifyOrder .. => true
  | _ => false

/-- Whether a call is about the connection. -/
def Call.connects : Call → Bool
  | .login | .reconnect => true
  | _ => false

/-- The state after a run of calls, the caller surviving whatever they raise. -/
def runCalls (calls : List Call) (c : OrderEntryClient) : OrderEntryClient :=
  Method.run (calls.map Call.method) c

section

variable {modifies connects : Prop}

/-- What a call returns may be thrown away. -/
theorem keeps_discard {α : Type} {I : OrderEntryClient → Prop} {m : ClientM α}
    (h : Method.Keeps I m) : Method.Keeps I (discard m) := h.bind fun _ ↦ Method.keeps_pure _

/-- **A call** is steps, and leaves nothing waiting. -/
theorem Call.ran {call : Call} (hmodifies : call.modifies = true → modifies)
    (hconnects : call.connects = true → connects) (c₀ : OrderEntryClient) :
    Method.Keeps (Ran modifies connects c₀ []) call.method := by
  cases call with
  | newOrder => exact keeps_discard (ran_newOrder _ _ _ _ _ _ _)
  | immediateOrCancel => exact keeps_discard (ran_newOrder _ _ _ _ _ _ _)
  | deleteOrder orderId => exact keeps_discard (ran_deleteOrder [] orderId)
  | modifyOrder => exact keeps_discard (ran_modifyOrder (hmodifies rfl) _ _ _ _)
  | cancelAllOrders => exact ran_cancelAllOrders []
  | login => exact keeps_discard (ran_login (hconnects rfl))
  | reconnect => exact ran_reconnect (hconnects rfl)

/-- **A run** is steps. -/
theorem ran_runCalls {calls : List Call}
    (hmodifies : ∀ call ∈ calls, call.modifies = true → modifies)
    (hconnects : ∀ call ∈ calls, call.connects = true → connects) {c : OrderEntryClient}
    (hc : c.record.batches = []) : Ran modifies connects c [] (runCalls calls c) := by
  refine Method.run_keeps (fun m hm ↦ ?_) ⟨.refl, hc⟩
  obtain ⟨call, hcall, rfl⟩ := List.mem_map.1 hm
  exact Call.ran (hmodifies call hcall) (hconnects call hcall) c

end

/-! ### The recursive equations -/

section

variable {k : ℕ}

theorem socket_bookFill (entry : OeConfig) (m : OrderFill) (flags : FillFlags)
    (c : OrderEntryClient) : (c.bookFill entry m flags).socket = c.socket := by
  unfold bookFill
  rw [bookTrackers_eq]
  rfl

theorem socket_popOrder (orderId : ℤ) (c : OrderEntryClient) :
    (c.popOrder orderId).socket = c.socket := by
  unfold popOrder
  split
  · rfl
  · rfl

/-- Cancelling connects to nothing: what is to come only gets less. -/
theorem Step.atMost {c c' : OrderEntryClient} (h : Step False False c c') (hc : AtMost k c) :
    AtMost k c' := by
  cases h with
  | header => exact hc
  | @exchanged _ _ msg _ h =>
    have hbelow := sendAndRecv_arrivals msg k c hc
    rw [h] at hbelow
    exact hbelow.atMost.congr rfl
  | @broken _ _ msg _ h =>
    have hatMost := sendAndRecv_arrivals msg k c hc
    rwa [h] at hatMost
  | passed => exact hc
  | popped => exact hc.congr (socket_popOrder _ _)
  | booked => exact hc.congr (socket_bookFill _ _ _ _)
  | finished => exact hc
  | abandoned => exact hc
  | checked => exact hc
  | placed => exact hc
  | settled hmodifies => exact hmodifies.elim
  | forgotten hconnects => exact hconnects.elim
  | connected hconnects => exact hconnects.elim
  | loginExchanged hconnects => exact hconnects.elim

/-- A run on one connection puts no arrival back. -/
theorem Steps.atMost {c c' : OrderEntryClient} (h : Steps False False c c') (hc : AtMost k c) :
    AtMost k c' := by
  induction h with
  | refl => exact hc
  | tail _ hstep ih => exact hstep.atMost ih

theorem keeps_deleteOrderN_atMost (n : ℕ) (orderId : ℤ) :
    Method.Keeps (AtMost k) (deleteOrderN n orderId) := by
  intro c hc
  have hran : Ran False False c c.record.batches ((deleteOrderN n orderId).after c) :=
    ran_deleteOrderN n c.record.batches orderId c ⟨.refl, rfl⟩
  exact hran.steps.atMost hc

theorem keeps_deleteOrder_atMost (orderId : ℤ) :
    Method.Keeps (AtMost k) (deleteOrder orderId) :=
  fun c hc ↦ keeps_deleteOrderN_atMost c.arrivals orderId c hc

theorem keptByHandling_atMost : KeptByHandling (AtMost k) where
  taken hc := hc
  popped orderId hc := hc.congr (socket_popOrder orderId _)
  booked flags _ hc := hc.congr (socket_bookFill _ _ flags _)
  finished hc := hc
  abandoned hc := hc

end

section

variable {I : OrderEntryClient → Prop}

/-- A response is handled alike if the limits are checked alike. -/
theorem sameOn_handleResponse {checkLimits checkLimits' : ℤ → ClientM Unit}
    (h : ∀ symbol, Method.SameOn (AtMost k) (checkLimits symbol) (checkLimits' symbol))
    (response : OeResponse) :
    Method.SameOn (AtMost k) (handleResponse checkLimits response)
      (handleResponse checkLimits' response) := by
  unfold handleResponse
  cases response with
  | fill m =>
    dsimp only
    rcases FillFlags.ofValue? m.flags with - | flags
    · exact Method.SameOn.refl _
    · refine Method.SameOn.get fun c ↦ ?_
      rcases c.openOrders.get? m.orderId with - | entry
      · exact Method.SameOn.refl _
      · exact Method.SameOn.cons (J := fun _ ↦ AtMost k)
          (Method.triple_modify fun c hc ↦ hc.congr (socket_bookFill entry m flags c)) fun _ ↦
          h _
  | _ => exact Method.SameOn.refl _

theorem sameOn_processWith {checkLimits checkLimits' : ℤ → ClientM Unit}
    (h : ∀ symbol, Method.SameOn (AtMost k) (checkLimits symbol) (checkLimits' symbol))
    (hkeeps : ∀ symbol, Method.Keeps (AtMost k) (checkLimits symbol))
    (responses : List OeResponse) :
    Method.SameOn (AtMost k) (processWith checkLimits responses)
      (processWith checkLimits' responses) :=
  (Method.sameOn_all (sameOn_handleResponse h)
    (keptByHandling_atMost.handleResponse hkeeps) responses).onExit _ _

/-- All orders are cancelled alike if each is. -/
theorem sameOn_cancelAllWith {deleteOrder deleteOrder' : ℤ → ClientM (List OeResponse)}
    (h : ∀ orderId, Method.SameOn I (deleteOrder orderId) (deleteOrder' orderId))
    (hkeeps : ∀ orderId, Method.Keeps I (deleteOrder orderId)) :
    Method.SameOn I (cancelAllWith deleteOrder) (cancelAllWith deleteOrder') := by
  have hcancel : ∀ orderId, Method.SameOn I (cancelWith deleteOrder orderId)
      (cancelWith deleteOrder' orderId) := by
    refine fun orderId ↦ Method.SameOn.tryCatch (Method.SameOn.get fun c ↦ ?_) _
    split
    · exact (h orderId).snoc _
    · exact Method.SameOn.refl _
  exact Method.SameOn.get fun c ↦
    Method.sameOn_all hcancel (fun orderId ↦ keeps_cancelWith hkeeps orderId) _

/-- The limits are checked alike if the orders are cancelled alike. -/
theorem sameOn_checkLimitsWith {cancelAllOrders cancelAllOrders' : ClientM Unit}
    (h : Method.SameOn I cancelAllOrders cancelAllOrders')
    (hkeeps : Method.Keeps I cancelAllOrders) (symbol : ℤ) :
    Method.SameOn I (checkLimitsWith cancelAllOrders symbol)
      (checkLimitsWith cancelAllOrders' symbol) := by
  have hif : ∀ tripped, Method.SameOn I (cancelIf tripped cancelAllOrders)
      (cancelIf tripped cancelAllOrders') := by
    rintro (- | -)
    · exact Method.SameOn.refl _
    · exact h
  refine Method.SameOn.get fun c ↦ (hif _).bind (J := fun _ ↦ I) ?_ fun _ ↦ hif _
  exact (Method.keeps_iff_triple.1 (keeps_cancelIf hkeeps _)).weaken (fun _ hc ↦ hc)
    (fun _ _ hc ↦ hc) fun _ _ ↦ trivial

/-- Two ways to handle the responses that agree once fewer arrivals are to come. -/
theorem sameOn_request {processResponses processResponses' : List OeResponse → ClientM Unit}
    (h : ∀ responses, Method.SameOn (Below k) (processResponses responses)
      (processResponses' responses)) (packet : Option (List UInt8)) (seqNum : ℕ) (orderId : ℤ) :
    Method.SameOn (AtMost k)
      (do
        let data ← packed packet
        let responses ← exchange seqNum orderId data
        processResponses responses
        pure responses)
      (do
        let data ← packed packet
        let responses ← exchange seqNum orderId data
        processResponses' responses
        pure responses) := by
  refine Method.SameOn.cons (J := fun _ ↦ AtMost k) ?_ fun data ↦
    Method.SameOn.cons (J := fun _ ↦ Below k) ?_ fun responses ↦ (h responses).snoc _
  · exact (triple_packed packet).weaken (fun _ hc ↦ hc) (fun _ _ hc ↦ hc) fun _ _ ↦ trivial
  · refine Method.Triple.bind ((sendAndRecv_arrivals data k).weaken (fun _ hc ↦ hc)
      (fun _ _ hc ↦ hc) fun _ _ ↦ trivial) fun responses ↦ ?_
    exact Method.Triple.bind (R := fun _ ↦ Below k) (Method.triple_modify fun c hc ↦ hc.congr rfl)
      fun _ ↦ Method.triple_pure _ fun _ hc ↦ hc

/-- A cancel uses an arrival up before its responses are handled. -/
theorem sameOn_deleteOrderWith {processResponses processResponses' : List OeResponse → ClientM Unit}
    (h : ∀ responses, Method.SameOn (Below k) (processResponses responses)
      (processResponses' responses)) (orderId : ℤ) :
    Method.SameOn (AtMost k) (deleteOrderWith processResponses orderId)
      (deleteOrderWith processResponses' orderId) :=
  Method.SameOn.cons (J := fun _ ↦ AtMost k) (fun _ hc ↦ hc) fun _ ↦ sameOn_request h _ _ orderId

/-- **Enough fuel is enough**: beyond the arrivals to come, more of it changes nothing. -/
theorem sameOn_deleteOrderN {n m : ℕ} (h : n ≤ m) (orderId : ℤ) :
    Method.SameOn (AtMost n) (deleteOrderN n orderId) (deleteOrderN m orderId) := by
  induction n generalizing m orderId with
  | zero =>
    rcases m with - | m
    · exact Method.SameOn.refl _
    -- with nothing to come, no response is ever handled
    · exact sameOn_deleteOrderWith (fun _ c hc ↦ absurd hc (Nat.not_lt_zero _)) orderId
  | succ n ih =>
    obtain ⟨m, rfl⟩ : ∃ m', m = m' + 1 := ⟨m - 1, by omega⟩
    refine sameOn_deleteOrderWith (fun responses c hc ↦ ?_) orderId
    have hcancel : Method.SameOn (AtMost n) (cancelAllWith (deleteOrderN n))
        (cancelAllWith (deleteOrderN m)) :=
      sameOn_cancelAllWith (fun orderId ↦ ih (Nat.le_of_succ_le_succ h) orderId)
        (keeps_deleteOrderN_atMost n)
    have hkeeps : Method.Keeps (AtMost n) (cancelAllWith (deleteOrderN n)) :=
      keeps_cancelAllWith (keeps_deleteOrderN_atMost n)
    exact sameOn_processWith (fun symbol ↦ sameOn_checkLimitsWith hcancel hkeeps symbol)
      (fun symbol ↦ keeps_checkLimitsWith hkeeps symbol) responses c (Nat.le_of_lt_succ hc)

/-- **More fuel than arrivals makes no difference.** -/
theorem sameOn_deleteOrder (n : ℕ) (orderId : ℤ) :
    Method.SameOn (AtMost n) (deleteOrder orderId) (deleteOrderN n orderId) :=
  fun c hc ↦ sameOn_deleteOrderN hc orderId c (le_refl c.arrivals)

/-- **`cancel_all_orders`** is a loop of `delete_order`. -/
theorem cancelAllOrders_eq : cancelAllOrders = cancelAllWith deleteOrder := by
  funext c
  exact (sameOn_cancelAllWith (sameOn_deleteOrder c.arrivals) keeps_deleteOrder_atMost c
    (le_refl c.arrivals)).symm

/-- **`delete_order`** handles its responses by `_process_responses`. -/
theorem deleteOrder_eq (orderId : ℤ) :
    deleteOrder orderId = deleteOrderWith processResponses orderId := by
  funext c
  have hfuel := sameOn_deleteOrder (c.arrivals + 1) orderId c (Nat.le_succ c.arrivals)
  rw [hfuel]
  refine sameOn_deleteOrderWith (k := c.arrivals + 1) (fun responses c' hc' ↦ ?_) orderId c
    (Nat.le_succ c.arrivals)
  have hkeeps : Method.Keeps (AtMost c.arrivals) (cancelAllWith (deleteOrderN c.arrivals)) :=
    keeps_cancelAllWith (keeps_deleteOrderN_atMost c.arrivals)
  refine sameOn_processWith (fun symbol ↦ sameOn_checkLimitsWith (fun c' hc' ↦ ?_) hkeeps symbol)
    (fun symbol ↦ keeps_checkLimitsWith hkeeps symbol) responses c' (Nat.le_of_lt_succ hc')
  rw [cancelAllOrders_eq]
  exact (sameOn_cancelAllWith (sameOn_deleteOrder c.arrivals) keeps_deleteOrder_atMost c' hc').symm

end

end HftTrading.OrderEntry.OrderEntryClient
