import HftTrading.OrderEntry.Steps

/-!
# Invariants of a request

`delete_order` and `new_order` run the same course: a header, a message, a list of responses, and
the handling of these, which may run it again for other orders. `KeptByRequests` lists what can
happen on the way, with all that is known about it: which response is being handled, of which list,
and what it does. An invariant checked against the list is kept by the calls
(`KeptByRequests.deleteOrder`, `KeptByRequests.newOrder`).

Unlike the steps of `Step`, these are about one call at a time: they say what a call does not do.

## Open batches

While a list is being handled it is the innermost open batch, and a cancel inside opens another one
over it. The invariant may speak of the batches, so each lemma carries them along: it holds with the
batches as they were before, or with one more in front (`With`). When the handling of a list ends,
by its last response or by an exception, its batch is gone again. An invariant may be asked, with
`P`, to hold only for requests whose message is of some kind.
-/

namespace HftTrading.OrderEntry

/-- A cancel, packed. -/
def IsCancel (msg : List UInt8) : Prop := ∃ m : DeleteOrder, m.pack = some msg

namespace OrderEntryClient

/-- **The steps of a request** keep an invariant, for messages of a kind. -/
structure KeptByRequests (P : List UInt8 → Prop) (I : OrderEntryClient → Prop) : Prop where
  header : ∀ {c}, I c → I { c with seqNum := c.seqNum + 1 }
  exchanged : ∀ {c c' msg responses} (seqNum : ℕ) (orderId : ℤ), P msg →
    sendAndRecv msg c = .ok responses c' → I c → I (c'.note (.replied seqNum orderId msg responses))
  broken : ∀ {c c' msg e}, P msg → sendAndRecv msg c = .error e c' → I c → I c'
  passed : ∀ {c : OrderEntryClient} {response batch outer},
    c.record.batches = (response :: batch) :: outer → response.Harmless →
    (∀ orderId, response.Closes orderId → c.openOrders.get? orderId = none) → I c →
    I (c.onRecord Record.take)
  popped : ∀ {c : OrderEntryClient} {response batch outer orderId},
    c.record.batches = (response :: batch) :: outer → response.Harmless →
    response.Closes orderId → I c → I ((c.onRecord Record.take).popOrder orderId)
  booked : ∀ {c : OrderEntryClient} {m : OrderFill} {batch outer entry flags},
    c.record.batches = (.fill m :: batch) :: outer → FillFlags.ofValue? m.flags = some flags →
    c.openOrders.get? m.orderId = some entry → I c → I (c.bookFill entry m flags)
  finished : ∀ {c : OrderEntryClient} {outer}, c.record.batches = [] :: outer → I c →
    I (c.onRecord Record.closeBatch)
  abandoned : ∀ {c : OrderEntryClient} {batch outer}, c.record.batches = batch :: outer → I c →
    I c.abandonBatch

/-- An invariant, with these batches on the record. -/
def With (I : OrderEntryClient → Prop) (batches : List (List OeResponse)) (c : OrderEntryClient) :
    Prop := I c ∧ c.record.batches = batches

namespace KeptByRequests

variable {P : List UInt8 → Prop} {I J : OrderEntryClient → Prop} (h : KeptByRequests P I)
  {batch : List OeResponse} {batches outer : List (List OeResponse)}

include h

theorem makeHeader (msgType : MsgType) (length : ℕ) :
    Method.Keeps (With I batches) (makeHeader msgType length) :=
  Method.Keeps.bind (Method.keeps_modify fun _ hc ↦ ⟨h.header hc.1, hc.2⟩) fun _ ↦
    Method.keeps_get.bind fun _ ↦ Method.keeps_pure _

/-- An exchange opens a batch with what it returns. -/
theorem exchange {msg : List UInt8} (hmsg : P msg) (seqNum : ℕ) (orderId : ℤ) :
    Method.Triple (With I batches) (exchange seqNum orderId msg)
      (fun responses ↦ With I (responses :: batches)) (With I batches) := by
  intro c hc
  have hreads := reads_sendAndRecv msg c ⟨.refl, hc.2⟩
  unfold OrderEntryClient.exchange
  rcases hsend : sendAndRecv msg c with ⟨responses, c'⟩ | ⟨e, c'⟩
  · rw [Method.bind_ok hsend]
    rw [hsend] at hreads
    exact ⟨h.exchanged seqNum orderId hmsg hsend hc.1, hreads.batches_eq⟩
  · rw [Method.bind_error hsend]
    rw [hsend] at hreads
    exact ⟨h.broken hmsg hsend hc.1, hreads.batches_eq⟩

/-- Two invariants at once. -/
theorem and (hJ : KeptByRequests P J) : KeptByRequests P (fun c ↦ I c ∧ J c) where
  header hc := ⟨h.header hc.1, hJ.header hc.2⟩
  exchanged n orderId hmsg hsend hc :=
    ⟨h.exchanged n orderId hmsg hsend hc.1, hJ.exchanged n orderId hmsg hsend hc.2⟩
  broken hmsg hsend hc := ⟨h.broken hmsg hsend hc.1, hJ.broken hmsg hsend hc.2⟩
  passed hb hharmless hcloses hc :=
    ⟨h.passed hb hharmless hcloses hc.1, hJ.passed hb hharmless hcloses hc.2⟩
  popped hb hharmless hcloses hc :=
    ⟨h.popped hb hharmless hcloses hc.1, hJ.popped hb hharmless hcloses hc.2⟩
  booked hb hflags hentry hc := ⟨h.booked hb hflags hentry hc.1, hJ.booked hb hflags hentry hc.2⟩
  finished hb hc := ⟨h.finished hb hc.1, hJ.finished hb hc.2⟩
  abandoned hb hc := ⟨h.abandoned hb hc.1, hJ.abandoned hb hc.2⟩

/-! ### Handling responses -/

/-- One response of the innermost batch is handled. -/
theorem handleResponse {checkLimits : ℤ → ClientM Unit}
    (hcheck : ∀ batches symbol, Method.Keeps (With I batches) (checkLimits symbol))
    (response : OeResponse) :
    Method.Triple (With I ((response :: batch) :: outer)) (handleResponse checkLimits response)
      (fun _ ↦ With I (batch :: outer)) fun c ↦ ∃ batch, With I (batch :: outer) c := by
  refine triple_handleResponse (R := fun _ ↦ With I (batch :: outer)) (fun c hc _ ↦ ⟨_, hc⟩)
    (fun c hc hharmless hnone ↦ ?_) (fun c orderId hc hharmless hcloses ↦ ?_)
    (fun c m flags entry hc hfill hflags hentry ↦ ?_) fun symbol ↦ ?_
  · exact ⟨h.passed hc.2 hharmless hnone.1 hc.1, take_batches hc.2⟩
  · exact ⟨h.popped hc.2 hharmless hcloses.1 hc.1,
      (batches_popOrder _ _).trans (take_batches hc.2)⟩
  · subst hfill
    exact ⟨h.booked hc.2 hflags hentry hc.1, (batches_bookFill _ _ _ _).trans (take_batches hc.2)⟩
  · exact (Method.keeps_iff_triple.1 (hcheck _ symbol)).weaken (fun _ hc ↦ hc) (fun _ _ hc ↦ hc)
      fun _ hc ↦ ⟨_, hc⟩

/-- The loop over the responses, before its batch is put away. -/
theorem handleAll {checkLimits : ℤ → ClientM Unit}
    (hcheck : ∀ batches symbol, Method.Keeps (With I batches) (checkLimits symbol))
    (responses : List OeResponse) :
    Method.Triple (With I (responses :: outer))
      (Method.all (responses.map (OrderEntryClient.handleResponse checkLimits)))
      (fun _ ↦ With I ([] :: outer)) fun c ↦ ∃ batch, With I (batch :: outer) c :=
  Method.triple_all (R := fun batch ↦ With I (batch :: outer))
    (fun response _ ↦ h.handleResponse hcheck response) responses

/-- All of the batch, or up to the first exception; either way it is gone. -/
theorem processWith {checkLimits : ℤ → ClientM Unit}
    (hcheck : ∀ batches symbol, Method.Keeps (With I batches) (checkLimits symbol))
    (responses : List OeResponse) :
    Method.Triple (With I (responses :: outer)) (processWith checkLimits responses)
      (fun _ ↦ With I outer) (With I outer) := by
  refine Method.Triple.onExit (R := fun _ ↦ With I ([] :: outer))
    (F := fun c ↦ ∃ batch, With I (batch :: outer) c) ?_ ?_ ?_
  · exact h.handleAll hcheck responses
  · intro _ c hc
    refine ⟨h.finished hc.2 hc.1, ?_⟩
    show c.record.batches.tail = outer
    rw [hc.2, List.tail_cons]
  · rintro c ⟨batch, hc⟩
    refine ⟨h.abandoned hc.2 hc.1, ?_⟩
    show c.record.batches.tail = outer
    rw [hc.2, List.tail_cons]

/-! ### Requests -/

/-- A packed request is exchanged and its responses are handled; `finish` has the last word. -/
theorem request {process : List OeResponse → ClientM Unit}
    (hprocess : ∀ responses, Method.Triple (With I (responses :: batches)) (process responses)
      (fun _ ↦ With I batches) (With I batches))
    {finish : List OeResponse → ClientM (List OeResponse)} {Q : OrderEntryClient → Prop}
    (hfinish : ∀ responses, Method.Triple (With I batches) (finish responses) (fun _ ↦ Q) Q)
    (hQ : ∀ c, With I batches c → Q c)
    {packet : Option (List UInt8)} (hpacket : ∀ msg ∈ packet, P msg) (seqNum : ℕ) (orderId : ℤ) :
    Method.Triple (With I batches)
      (do
        let data ← packed packet
        let responses ← OrderEntryClient.exchange seqNum orderId data
        process responses
        finish responses)
      (fun _ ↦ Q) Q := by
  rcases packet with - | msg
  · exact fun c hc ↦ hQ c hc
  · refine Method.Triple.bind (m := OrderEntryClient.exchange seqNum orderId msg)
      ((h.exchange (hpacket msg rfl) seqNum orderId).weaken (fun _ hc ↦ hc) (fun _ _ hc ↦ hc) hQ)
      fun responses ↦ ?_
    exact ((hprocess responses).weaken (fun _ hc ↦ hc) (fun _ _ hc ↦ hc) hQ).bind fun _ ↦
      hfinish responses

variable (hcancel : ∀ msg, IsCancel msg → P msg)

include hcancel

/-- A cancel, given how its responses are handled. -/
theorem deleteOrderWith {process : List OeResponse → ClientM Unit}
    (hprocess : ∀ responses, Method.Triple (With I (responses :: batches)) (process responses)
      (fun _ ↦ With I batches) (With I batches)) (orderId : ℤ) :
    Method.Keeps (With I batches) (deleteOrderWith process orderId) := by
  refine (h.makeHeader _ _).bind fun header ↦ Method.keeps_iff_triple.2 ?_
  have hpacket : ∀ msg ∈ DeleteOrder.pack ⟨header, orderId⟩, P msg :=
    fun msg hmsg ↦ hcancel msg ⟨_, hmsg⟩
  revert hpacket
  generalize DeleteOrder.pack ⟨header, orderId⟩ = packet
  intro hpacket
  exact h.request hprocess (fun responses ↦ Method.triple_pure responses fun _ hc ↦ hc)
    (fun _ hc ↦ hc) hpacket header.seqNum orderId

/-- **Cancels within cancels**, by induction on how deep they may go. -/
theorem deleteOrderN (n : ℕ) (batches : List (List OeResponse)) (orderId : ℤ) :
    Method.Keeps (With I batches) (deleteOrderN n orderId) := by
  induction n generalizing batches orderId with
  | zero =>
    exact h.deleteOrderWith hcancel (h.processWith fun _ _ ↦ Method.keeps_pure _) orderId
  | succ n ih =>
    exact h.deleteOrderWith hcancel (h.processWith fun batches symbol ↦
      keeps_checkLimitsWith (keeps_cancelAllWith (ih batches)) symbol) orderId

/-- **`delete_order`**. -/
theorem deleteOrder (orderId : ℤ) : Method.Keeps I (deleteOrder orderId) :=
  fun c hc ↦ (h.deleteOrderN hcancel c.arrivals c.record.batches orderId c ⟨hc, rfl⟩).1

/-- **`_check_limits`**, however many orders it cancels. -/
theorem checkLimits (batches : List (List OeResponse)) (symbol : ℤ) :
    Method.Keeps (With I batches) (checkLimits symbol) :=
  keeps_checkLimitsWith
    (fun c hc ↦ keeps_cancelAllWith (h.deleteOrderN hcancel c.arrivals batches) c hc) symbol

/-- The handling of a batch, with all that it sets off. -/
theorem processResponses (responses : List OeResponse) :
    Method.Triple (With I (responses :: outer)) (processResponses responses)
      (fun _ ↦ With I outer) (With I outer) :=
  h.processWith (h.checkLimits hcancel) responses

end KeptByRequests

theorem keeps_nameOf {I : OrderEntryClient → Prop} {α : Type} (enumeration : String)
    (ofValue? : ℤ → Option α) (n : ℤ) : Method.Keeps I (nameOf enumeration ofValue? n) := by
  unfold nameOf
  rcases ofValue? n with - | member
  · exact Method.keeps_throw _
  · exact Method.keeps_pure _

section

variable {P : List UInt8 → Prop} {I J : OrderEntryClient → Prop}
  {orderId symbol side quantity price : ℤ} (flags : ℤ)
  (hheader : ∀ {c : OrderEntryClient}, I c → I { c with seqNum := c.seqNum + 1 })
  (hrisk : ∀ {c : OrderEntryClient} (tracker : RiskTracker), I c →
    I { c with riskTracker := tracker })
  (hplace : ∀ {c : OrderEntryClient}, c.openOrders.get? orderId = none → I c →
    J (c.placeEntry orderId ⟨symbol, side, quantity, price, 0⟩))
  (hJ : KeptByRequests P J) (hcancel : ∀ msg, IsCancel msg → P msg)
  (hown : ∀ header, ∀ msg ∈ NewOrder.pack ⟨header, orderId, symbol, side, quantity, price, flags⟩,
    P msg) (now : ℚ)

include hheader hrisk hplace hJ hcancel hown

/-- Only a local reject is returned before the order has been placed. -/
theorem triple_newOrder {batches : List (List OeResponse)} :
    Method.Triple (With I batches) (newOrder now orderId symbol side quantity price flags)
      (fun responses ↦
        With (fun c ↦ (I c ∧ ∃ r, responses = [r] ∧ isReject r = true) ∨ J c) batches)
      (With (fun c ↦ I c ∨ J c) batches) := by
  have hleft : ∀ c, With I batches c → With (fun c ↦ I c ∨ J c) batches c :=
    fun c hc ↦ ⟨Or.inl hc.1, hc.2⟩
  refine Method.triple_get fun c hc ↦ ?_
  rcases hopen : c.openOrders.contains orderId with - | -
  · rw [if_neg Bool.false_ne_true]
    rw [Dict.contains_eq_false_iff] at hopen
    refine Method.Triple.bind (R := fun _ c ↦ With I batches c ∧ c.openOrders.get? orderId = none)
      (m := riskCheck now symbol side quantity price) ?_ fun valid ↦ ?_
    · rintro _ rfl
      exact ⟨⟨hrisk _ hc.1, hc.2⟩, hopen⟩
    split
    · refine Method.Triple.bind (R := fun _ c ↦ With I batches c ∧ c.openOrders.get? orderId = none)
        (fun c hc ↦ ⟨⟨hheader hc.1.1, hc.1.2⟩, hc.2⟩) fun header ↦ ?_
      refine Method.Triple.bind ((Method.keeps_iff_triple.1 (keeps_nameOf _ _ _)).weaken
        (fun _ hc ↦ hc) (fun _ _ hc ↦ hc) fun c hc ↦ hleft c hc.1) fun _ ↦ ?_
      refine Method.Triple.bind ((Method.keeps_iff_triple.1 (keeps_nameOf _ _ _)).weaken
        (fun _ hc ↦ hc) (fun _ _ hc ↦ hc) fun c hc ↦ hleft c hc.1) fun _ ↦ ?_
      have hpacket := hown header
      revert hpacket
      generalize NewOrder.pack ⟨header, orderId, symbol, side, quantity, price, flags⟩ = packet
      intro hpacket
      refine Method.Triple.bind (R := fun _ ↦ With J batches)
        (Method.triple_modify fun c hc ↦ ⟨hplace hc.2 hc.1.1, hc.1.2⟩) fun _ ↦ ?_
      exact (hJ.request (hJ.processResponses hcancel) (fun responses ↦
        Method.triple_pure responses fun _ hc ↦ hc) (fun _ hc ↦ hc) hpacket header.seqNum
        orderId).weaken (fun _ hc ↦ hc) (fun _ c hc ↦ ⟨Or.inr hc.1, hc.2⟩)
        fun c hc ↦ ⟨Or.inr hc.1, hc.2⟩
    · refine Method.Triple.bind (R := fun _ ↦ With I batches)
        (Method.triple_modify fun c hc ↦ ⟨hheader hc.1.1, hc.1.2⟩) fun _ ↦
        Method.triple_get fun c hc ↦ Method.triple_pure _ ?_
      rintro _ rfl
      exact ⟨Or.inl ⟨hc.1, _, rfl, rfl⟩, hc.2⟩
  · rw [if_pos rfl]
    refine Method.triple_pure _ ?_
    rintro _ rfl
    exact ⟨Or.inl ⟨hc.1, _, rfl, rfl⟩, hc.2⟩

/-- **`new_order`** may place its order: from then on it is `J` that is kept. -/
theorem KeptByRequests.newOrder {c : OrderEntryClient} (hc : I c) :
    I ((newOrder now orderId symbol side quantity price flags).after c) ∨
      J ((newOrder now orderId symbol side quantity price flags).after c) := by
  have h : Method.Triple (With I c.record.batches)
      (OrderEntryClient.newOrder now orderId symbol side quantity price flags) (fun _ c ↦ I c ∨ J c)
      fun c ↦ I c ∨ J c :=
    (triple_newOrder flags hheader hrisk hplace hJ hcancel hown now).weaken (fun _ hc ↦ hc)
      (fun _ _ hc ↦ hc.1.imp_left And.left) fun _ hc ↦ hc.1
  exact Method.triple_iff_after.1 h c ⟨hc, rfl⟩

end

section

variable {I : OrderEntryClient → Prop}
  (hheader : ∀ {c : OrderEntryClient}, I c → I { c with seqNum := c.seqNum + 1 })
  (hconnected : ∀ {c c'}, SameBooks c c' → I c → I c')
  (hread : ∀ {c c'}, Reads c c' → I c → I c')

include hheader hconnected hread

/-- **`login`** keeps what the counters, the session and the reading of responses keep. -/
theorem keeps_login : Method.Keeps I login := by
  refine Method.keeps_get.bind fun c ↦
    Method.Keeps.bind (m := makeHeader _ _) (fun _ hc ↦ hheader hc) fun header ↦
      (keeps_packed _).bind fun data ↦ Method.Keeps.bind (m := exchangeLogin data)
        (fun c hc ↦ hread (reads_after_exchangeLogin data c) hc) fun response ↦ ?_
  cases response with
  | loginResponse m =>
    dsimp only
    rcases LoginStatus.ofValue? m.status with - | status
    · exact Method.keeps_throw _
    dsimp only
    split
    · exact Method.keeps_throw _
    · refine Method.Keeps.bind (Method.keeps_modify fun c hc ↦ ?_) fun _ ↦ Method.keeps_pure _
      have hsame : ∀ c', SameBooks c c' → I c' := fun c' h ↦ hconnected h hc
      exact hsame _ ⟨rfl, rfl, rfl, rfl, rfl⟩
  | _ => exact Method.keeps_throw _

/-- **`reconnect`** keeps besides what forgetting the session keeps. -/
theorem keeps_reconnect (hforget : ∀ c, I c → I c.forgetSession) : Method.Keeps I reconnect := by
  have hconnect : Method.Keeps I connect := by
    intro c hc
    have hsame : ∀ c', SameBooks c c' → I c' := fun c' h ↦ hconnected h hc
    unfold Method.after connect
    rcases c.network with - | ⟨- | incoming, rest⟩
    · exact hsame _ ⟨rfl, rfl, rfl, rfl, rfl⟩
    · exact hsame _ ⟨rfl, rfl, rfl, rfl, rfl⟩
    · exact hsame _ ⟨rfl, rfl, rfl, rfl, rfl⟩
  have hattempts (n : ℕ) : Method.Keeps I (attempts n) := by
    induction n with
    | zero => exact Method.keeps_throw _
    | succ n ih =>
      refine Method.Keeps.bind (Method.Keeps.tryCatch ?_ fun _ ↦ Method.keeps_pure _) ?_
      · exact hconnect.bind fun _ ↦ (keeps_login hheader hconnected hread).bind fun _ ↦
          Method.keeps_pure _
      · rintro (- | -)
        · exact ih
        · exact Method.keeps_pure _
  exact Method.Keeps.bind (Method.keeps_modify hforget) fun _ ↦ hattempts 5

end

section

variable {P : List UInt8 → Prop} {I : OrderEntryClient → Prop} {batches : List (List OeResponse)}

/-- **`modify_order`**, up to the state in which it looks at its first response. -/
theorem KeptByRequests.modifyOrder (h : KeptByRequests P I) (hcancel : ∀ msg, IsCancel msg → P msg)
    (orderId side quantity price : ℤ)
    (hown : ∀ header, ∀ msg ∈ ModifyOrder.pack ⟨header, orderId, side, quantity, price⟩, P msg) :
    Method.Triple (With I batches) (modifyOrder orderId side quantity price)
      (fun responses c ↦
        (With I batches c ∧ ∀ first, responses.head? = some first → isReject first = true) ∨
          ∃ c₁ first, With I batches c₁ ∧ responses.head? = some first ∧
            c = c₁.settleModify orderId side quantity price first)
      (With I batches) := by
  refine Method.triple_get fun c hc ↦ ?_
  split
  · refine Method.Triple.bind ((Method.keeps_iff_triple.1 (h.makeHeader _ _)).weaken
      (fun _ heq ↦ heq ▸ hc) (fun _ _ hc ↦ hc) fun _ hc ↦ hc) fun header ↦ ?_
    refine Method.Triple.bind (Method.keeps_iff_triple.1 (keeps_nameOf _ _ _)) fun _ ↦ ?_
    have hpacket := hown header
    revert hpacket
    generalize ModifyOrder.pack ⟨header, orderId, side, quantity, price⟩ = packet
    intro hpacket
    rcases packet with - | msg
    · exact Method.triple_throw _ fun _ hc ↦ hc
    refine Method.Triple.bind (m := OrderEntryClient.exchange header.seqNum orderId msg)
      (h.exchange (hpacket msg rfl) _ _) fun responses ↦
        (h.processResponses hcancel responses).bind fun _ ↦ ?_
    rcases responses with - | ⟨first, rest⟩
    · exact Method.triple_pure _ fun c hc ↦ Or.inl ⟨hc, fun first hfirst ↦ by cases hfirst⟩
    · refine Method.Triple.bind (R := fun _ c ↦ ∃ c₁, With I batches c₁ ∧
        c = c₁.settleModify orderId side quantity price first)
        (Method.triple_modify fun c hc ↦ ⟨c, hc, rfl⟩) fun _ ↦ Method.triple_pure _ ?_
      rintro c ⟨c₁, hc₁, heq⟩
      exact Or.inr ⟨c₁, first, hc₁, rfl, heq⟩
  · refine Method.triple_pure _ ?_
    rintro _ rfl
    refine Or.inl ⟨hc, fun first hfirst ↦ ?_⟩
    cases hfirst
    rfl

end

end OrderEntryClient

end HftTrading.OrderEntry
