import HftTrading.OrderEntry.Pairing
import HftTrading.OrderEntry.Requests

/-!
# What a call returns

`new_order`, `modify_order` and `delete_order` each make one request of their own (`Ask`). Handling
its responses may cancel orders, which makes further requests, but only behind it: the request of
the call is the first that the call adds, with the list that the call returns (`Ask.returned`). It
is the harmless lists whose handling returns (`Ask.ended`).

`modify_order` rewrites the entry of its order when the list begins with an acknowledgement
(`returned_modifyOrder`).

## Three ways for a call to end

`Handled` is the call that returns: it has asked nothing, or it has noted one request with the list
and gone through all of it. `Failed` is the call that raises before it has a list, or with a list
that is not harmless. For the statements about runs it is enough to know of either what it noted
(`Returned`, `Raised`). All three calls have these ends, and the proofs go through their common
course once: a header, an exchange, and the handling.
-/

namespace HftTrading.OrderEntry

/-- A response whose handling raises nothing. -/
def OeResponse.Calm : OeResponse → Prop
  | .reject _ => False
  | .fill m => (FillFlags.ofValue? m.flags).isSome
  | _ => True

theorem OeResponse.Calm.harmless {r : OeResponse} (h : r.Calm) : r.Harmless := by
  cases r with
  | reject m => exact h.elim
  | fill m => exact h
  | _ => exact trivial

theorem OeResponse.Unsolicited.calm {r : OeResponse} (h : r.Unsolicited) : r.Calm := by
  cases r with
  | fill m => exact h
  | closed m => exact trivial
  | _ => exact h.elim

namespace OrderEntryClient

/-! ### What never raises -/

theorem returns_cancelAllWith (deleteOrder : ℤ → ClientM (List OeResponse)) :
    Method.Returns (cancelAllWith deleteOrder) := by
  refine Method.triple_get fun c _ ↦ ?_
  refine (Method.triple_all (R := fun _ _ ↦ True) (fun orderId orderIds ↦ ?_)
    c.openOrders.keys).weaken (fun _ _ ↦ trivial) (fun _ _ _ ↦ trivial) fun _ h ↦ h
  exact Method.returns_tryCatch _ fun _ ↦ Method.triple_pure _ fun _ _ ↦ trivial

theorem returns_checkLimits (symbol : ℤ) : Method.Returns (checkLimits symbol) := by
  have hcancel : Method.Returns cancelAllOrders := fun c hc ↦
    returns_cancelAllWith (deleteOrderN c.arrivals) c hc
  have hif : ∀ tripped, Method.Returns (cancelIf tripped cancelAllOrders) := by
    rintro (- | -)
    · exact Method.triple_pure _ fun _ _ ↦ trivial
    · exact hcancel
  refine Method.triple_get fun c _ ↦ ?_
  exact ((hif _).weaken (fun _ _ ↦ trivial) (fun _ _ h ↦ h) fun _ h ↦ h).bind fun _ ↦ hif _

/-- **A response raises** exactly if it is not harmless, whatever the kill switch runs into. -/
theorem harmless_handleResponse (response : OeResponse) :
    Method.Triple (fun _ ↦ True) (handleResponse checkLimits response)
      (fun _ _ ↦ response.Harmless) fun _ ↦ ¬ response.Harmless := by
  refine triple_handleResponse (R := fun _ _ ↦ response.Harmless) (fun _ _ hraised ↦ hraised)
    (fun _ _ hharmless _ ↦ hharmless) (fun _ _ _ hharmless _ ↦ hharmless)
    (fun _ m flags _ _ hfill hflags _ ↦ ?_) fun symbol ↦ ?_
  · rw [hfill]
    exact Option.isSome_iff_exists.2 ⟨flags, hflags⟩
  · intro c hharmless
    have hchecked : Method.Triple (fun _ ↦ True) (checkLimits symbol)
        (fun _ _ ↦ response.Harmless) fun _ ↦ ¬ response.Harmless :=
      (returns_checkLimits symbol).weaken (fun _ _ ↦ trivial) (fun _ _ _ ↦ hharmless)
        fun _ h ↦ h.elim
    exact hchecked c trivial

/-- **A list of responses** is handled to its end exactly if all of them are harmless. -/
theorem harmless_processResponses (responses : List OeResponse) :
    Method.Triple (fun _ ↦ True) (processResponses responses)
      (fun _ _ ↦ ∀ r ∈ responses, r.Harmless) fun _ ↦ ¬ ∀ r ∈ responses, r.Harmless := by
  refine Method.Triple.onExit (R := fun _ _ ↦ ∀ r ∈ responses, r.Harmless)
    (F := fun _ ↦ ¬ ∀ r ∈ responses, r.Harmless) ?_ (fun _ _ h ↦ h) fun _ h ↦ h
  -- what is left of the list decides whether all of it is harmless
  let Left (left : List OeResponse) (_ : OrderEntryClient) : Prop :=
    left ⊆ responses ∧ ((∀ r ∈ left, r.Harmless) → ∀ r ∈ responses, r.Harmless)
  have hhead (response : OeResponse) (left : List OeResponse) :
      Method.Triple (Left (response :: left)) (handleResponse checkLimits response)
        (fun _ ↦ Left left) fun _ ↦ ¬ ∀ r ∈ responses, r.Harmless := by
    rintro c ⟨hsubset, hleft⟩
    have hone := harmless_handleResponse response c trivial
    revert hone
    rcases handleResponse checkLimits response c with ⟨a, c'⟩ | ⟨e, c'⟩
    · exact fun hone ↦ ⟨fun _ hr ↦ hsubset (List.mem_cons_of_mem _ hr), fun hrest ↦
        hleft (List.forall_mem_cons.2 ⟨hone, hrest⟩)⟩
    · exact fun hone hharmless ↦ hone (hharmless _ (hsubset List.mem_cons_self))
  exact (Method.triple_all hhead responses).weaken (fun _ _ ↦ ⟨List.Subset.refl _, id⟩)
    (fun _ _ h ↦ h.2 fun _ hr ↦ absurd hr List.not_mem_nil) fun _ h ↦ h

/-! ### One request -/

section

variable {before : List Request} {seqNum : ℕ} {orderId : ℤ}

/-- This is the first request since those before. -/
def Sent (before : List Request) (q : Request) (c : OrderEntryClient) : Prop :=
  before ++ [q] <+: c.requests

/-- Nothing was sent, or the request is there with the responses that are returned. -/
def Returned (before : List Request) (seqNum : ℕ) (orderId : ℤ) (responses : List OeResponse)
    (c : OrderEntryClient) : Prop :=
  c.requests = before ∨ ∃ msg, Sent before ⟨seqNum, orderId, msg, responses⟩ c

/-- Nothing was collected, or not all of what was could be handled. -/
def Raised (before : List Request) (seqNum : ℕ) (orderId : ℤ) (c : OrderEntryClient) : Prop :=
  c.requests = before ∨ ∃ msg responses, Sent before ⟨seqNum, orderId, msg, responses⟩ c ∧
    ¬ ∀ r ∈ responses, r.Calm

/-- `Returned`, with a reject if nothing was sent, and otherwise with all responses handled. -/
def Handled (before : List Request) (seqNum : ℕ) (orderId : ℤ) (responses : List OeResponse)
    (c : OrderEntryClient) : Prop :=
  (c.requests = before ∧ ∃ r, responses = [r] ∧ isReject r = true) ∨
    (∃ msg, Sent before ⟨seqNum, orderId, msg, responses⟩ c) ∧ ∀ r ∈ responses, r.Harmless

/-- `Raised`, over one that is not harmless. -/
def Failed (before : List Request) (seqNum : ℕ) (orderId : ℤ) (c : OrderEntryClient) : Prop :=
  c.requests = before ∨ ∃ msg responses, Sent before ⟨seqNum, orderId, msg, responses⟩ c ∧
    ¬ ∀ r ∈ responses, r.Harmless

/-- What has been handled has been returned. -/
theorem Handled.returned {responses : List OeResponse} {c : OrderEntryClient}
    (h : Handled before seqNum orderId responses c) : Returned before seqNum orderId responses c :=
  h.imp And.left And.left

theorem Failed.raised {c : OrderEntryClient} (h : Failed before seqNum orderId c) :
    Raised before seqNum orderId c :=
  h.imp_right fun ⟨msg, responses, hsent, hfailed⟩ ↦
    ⟨msg, responses, hsent, fun hcalm ↦ hfailed fun r hr ↦ (hcalm r hr).harmless⟩

/-- An exchange notes its request with the list. -/
theorem triple_exchange (msg : List UInt8) :
    Method.Triple (fun c ↦ c.requests = before ∧ c.record.batches = [])
      (exchange seqNum orderId msg)
      (fun responses c ↦ c.requests = before ++ [⟨seqNum, orderId, msg, responses⟩] ∧
        c.record.batches = [responses]) fun c ↦ c.requests = before := by
  rintro c ⟨rfl, hbatches⟩
  have hreads := reads_sendAndRecv msg c ⟨.refl, hbatches⟩
  unfold exchange
  rcases hsend : sendAndRecv msg c with ⟨responses, c'⟩ | ⟨e, c'⟩
  · rw [Method.bind_ok hsend]
    rw [hsend] at hreads
    refine ⟨?_, hreads.batches_eq⟩
    rw [requests_note, hreads.reads.requests_eq]
    rfl
  · rw [Method.bind_error hsend]
    rw [hsend] at hreads
    exact hreads.reads.requests_eq

/-- Handling returns if every response is harmless, and raises otherwise. -/
theorem triple_processResponses {q : Request} (responses : List OeResponse) :
    Method.Triple (fun c ↦ c.requests = before ++ [q] ∧ c.record.batches = [responses])
      (processResponses responses)
      (fun _ c ↦ Sent before q c ∧ ∀ r ∈ responses, r.Harmless)
      fun c ↦ Sent before q c ∧ ¬ ∀ r ∈ responses, r.Harmless := by
  rintro c ⟨hrequests, hbatches⟩
  have hstart : Ran False False c [responses] c := ⟨.refl, hbatches⟩
  have hran := ran_processResponses responses c hstart
  have hharmless := harmless_processResponses responses c trivial
  unfold Sent
  rw [← hrequests]
  revert hran hharmless
  rcases processResponses responses c with ⟨a, c'⟩ | ⟨e, c'⟩
  · exact fun hran hharmless ↦ ⟨hran.steps.requests_prefix, hharmless⟩
  · exact fun hran hharmless ↦ ⟨hran.steps.requests_prefix, hharmless⟩

/-- A packed request is exchanged and handled; `finish` has the last word. -/
theorem triple_request {finish : List OeResponse → ClientM (List OeResponse)}
    {Q : List OeResponse → OrderEntryClient → Prop}
    (packet : Option (List UInt8))
    (hfinish : ∀ msg ∈ packet, ∀ responses,
      Method.Triple (Sent before ⟨seqNum, orderId, msg, responses⟩) (finish responses)
        (fun returned c ↦ returned = responses ∧ Sent before ⟨seqNum, orderId, msg, returned⟩ c ∧
          Q returned c) fun _ ↦ False) :
    Method.Triple (fun c ↦ c.requests = before ∧ c.record.batches = [])
      (do
        let data ← packed packet
        let responses ← exchange seqNum orderId data
        processResponses responses
        finish responses)
      (fun returned c ↦ Handled before seqNum orderId returned c ∧ Q returned c)
      (Failed before seqNum orderId) := by
  rcases packet with - | msg
  · exact fun c hc ↦ Or.inl hc.1
  refine Method.Triple.bind (m := exchange seqNum orderId msg) ((triple_exchange msg).weaken
    (fun _ hc ↦ hc) (fun _ _ hc ↦ hc) fun _ hc ↦ Or.inl hc) fun responses ↦ ?_
  refine Method.Triple.bind ((triple_processResponses responses).weaken (fun _ hc ↦ hc)
    (fun _ _ hc ↦ hc) fun _ hc ↦ Or.inr ⟨msg, responses, hc⟩) fun _ ↦ ?_
  intro c hc
  have hfinished := hfinish msg rfl responses c hc.1
  revert hfinished
  rcases finish responses c with ⟨returned, c'⟩ | ⟨e, c'⟩
  · rintro ⟨rfl, hsent, hQ⟩
    exact ⟨Or.inr ⟨⟨msg, hsent⟩, hc.2⟩, hQ⟩
  · exact False.elim

/-- The next header carries the next sequence number. -/
theorem triple_makeHeader (msgType : MsgType) (length seqNum : ℕ) :
    Method.Triple (fun c ↦ c.requests = before ∧ c.record.batches = [] ∧ c.seqNum + 1 = seqNum)
      (makeHeader msgType length)
      (fun header c ↦ header.seqNum = seqNum ∧ c.requests = before ∧ c.record.batches = [])
      fun _ ↦ False := by
  rintro c ⟨hrequests, hbatches, hseq⟩
  exact ⟨hseq, hrequests, hbatches⟩

theorem requests_placeEntry (orderId : ℤ) (entry : OeConfig) (c : OrderEntryClient) :
    (c.placeEntry orderId entry).requests = c.requests := requests_note_of_none rfl _

/-- The course of a new order, behind the check. -/
theorem ended_submitNewOrder (orderId symbol side quantity price flags : ℤ) :
    Method.Triple (fun c ↦ c.requests = before ∧ c.record.batches = [] ∧ c.seqNum + 1 = seqNum)
      (submitNewOrder orderId symbol side quantity price flags) (Handled before seqNum orderId)
      (Failed before seqNum orderId) := by
  refine Method.Triple.bind ((triple_makeHeader _ _ _).weaken (fun _ hc ↦ hc) (fun _ _ hc ↦ hc)
    fun _ hc ↦ hc.elim) fun header ↦ Method.triple_of_imp ?_
  rintro rfl
  refine Method.Triple.bind ((triple_nameOf _ _ _).weaken (fun _ hc ↦ hc) (fun _ _ hc ↦ hc.1)
    fun _ hc ↦ Or.inl hc.1) fun _ ↦ ?_
  refine Method.Triple.bind ((triple_nameOf _ _ _).weaken (fun _ hc ↦ hc) (fun _ _ hc ↦ hc.1)
    fun _ hc ↦ Or.inl hc.1) fun _ ↦ ?_
  generalize NewOrder.pack ⟨header, orderId, symbol, side, quantity, price, flags⟩ = packet
  refine Method.Triple.bind (R := fun _ c ↦ c.requests = before ∧ c.record.batches = [])
    (Method.triple_modify fun c hc ↦ ⟨(requests_placeEntry _ _ c).trans hc.1, hc.2⟩) fun _ ↦ ?_
  exact (triple_request (Q := fun _ _ ↦ True) packet fun msg _ responses ↦
    Method.triple_pure _ fun _ hc ↦ ⟨rfl, hc, trivial⟩).weaken (fun _ hc ↦ hc)
      (fun _ _ hc ↦ hc.1) fun _ hc ↦ hc

end

section

variable {c : OrderEntryClient}

/-- **`new_order`** returns the responses to its own request, if it makes one. -/
theorem ended_newOrder (hbatches : c.record.batches = []) (now : ℚ)
    (orderId symbol side quantity price flags : ℤ) :
    Method.Triple (fun t ↦ t = c) (newOrder now orderId symbol side quantity price flags)
      (Handled c.requests (c.seqNum + 1) orderId) (Failed c.requests (c.seqNum + 1) orderId) := by
  refine Method.triple_get fun t ht ↦ ?_
  subst ht
  split
  · exact Method.triple_pure _ fun _ h ↦ Or.inl ⟨congrArg requests h, _, rfl, rfl⟩
  have hcheck : Method.Triple (fun s ↦ s = t) (riskCheck now symbol side quantity price)
      (fun _ c ↦ c.requests = t.requests ∧ c.record.batches = [] ∧ c.seqNum + 1 = t.seqNum + 1)
      fun _ ↦ False := by
    rintro _ rfl
    exact ⟨rfl, hbatches, rfl⟩
  refine (hcheck.weaken (fun _ h ↦ h) (fun _ _ hc ↦ hc) fun _ h ↦ h.elim).bind fun valid ↦ ?_
  split
  · exact ended_submitNewOrder orderId symbol side quantity price flags
  · refine Method.Triple.bind (R := fun _ c ↦ c.requests = t.requests)
      (Method.triple_modify fun c hc ↦ hc.1) fun _ ↦ Method.triple_get fun c hc ↦ ?_
    exact Method.triple_pure _ fun _ h ↦ Or.inl ⟨(congrArg requests h).trans hc, _, rfl, rfl⟩

/-- The header of the request of a call. -/
theorem header_of_eq (hbatches : c.record.batches = []) (msgType : MsgType) (length : ℕ)
    {E : OrderEntryClient → Prop} :
    Method.Triple (fun t ↦ t = c) (makeHeader msgType length)
      (fun header t ↦ header.seqNum = c.seqNum + 1 ∧ t.requests = c.requests ∧
        t.record.batches = []) E :=
  (triple_makeHeader msgType length (c.seqNum + 1)).weaken
    (by rintro _ rfl; exact ⟨rfl, hbatches, rfl⟩) (fun _ _ hc ↦ hc) fun _ hc ↦ hc.elim

/-- **`delete_order`** returns the responses to its own request. -/
theorem ended_deleteOrder (hbatches : c.record.batches = []) (orderId : ℤ) :
    Method.Triple (fun t ↦ t = c) (deleteOrder orderId)
      (Handled c.requests (c.seqNum + 1) orderId) (Failed c.requests (c.seqNum + 1) orderId) := by
  rw [deleteOrder_eq]
  unfold deleteOrderWith
  refine (header_of_eq hbatches .deleteOrder DeleteOrder.SIZE).bind ?_
  intro header
  generalize DeleteOrder.pack ⟨header, orderId⟩ = packet
  refine Method.triple_of_imp fun hseq ↦ ?_
  rw [← hseq]
  exact (triple_request (Q := fun _ _ ↦ True) packet fun msg _ responses ↦
    Method.triple_pure _ fun _ hc ↦ ⟨rfl, hc, trivial⟩).weaken (fun _ hc ↦ hc)
      (fun _ _ hc ↦ hc.1) fun _ hc ↦ hc

/-- **`modify_order`** returns the responses to its own request, if it makes one. -/
theorem ended_modifyOrder (hbatches : c.record.batches = [])
    (orderId side quantity price : ℤ) :
    Method.Triple (fun t ↦ t = c) (modifyOrder orderId side quantity price)
      (Handled c.requests (c.seqNum + 1) orderId) (Failed c.requests (c.seqNum + 1) orderId) := by
  refine Method.triple_get fun t ht ↦ ?_
  subst ht
  split
  · refine (header_of_eq hbatches .modifyOrder ModifyOrder.SIZE).bind fun header ↦
      Method.triple_of_imp fun hseq ↦ ?_
    rw [← hseq]
    refine Method.Triple.bind ((triple_nameOf _ _ _).weaken (fun _ hc ↦ hc) (fun _ _ hc ↦ hc.1)
      fun _ hc ↦ Or.inl hc.1) fun _ ↦ ?_
    generalize ModifyOrder.pack ⟨header, orderId, side, quantity, price⟩ = packet
    refine (triple_request (Q := fun _ _ ↦ True) packet fun msg _ responses ↦ ?_).weaken
      (fun _ hc ↦ hc) (fun _ _ hc ↦ hc.1) fun _ hc ↦ hc
    rcases responses with - | ⟨first, rest⟩
    · exact Method.triple_pure _ fun _ hc ↦ ⟨rfl, hc, trivial⟩
    · refine Method.Triple.bind (Method.triple_modify fun c hc ↦ ⟨rfl, ?_, trivial⟩) fun _ ↦
        Method.triple_pure _ fun _ hc ↦ hc
      unfold Sent
      rw [(untouched_settleModify orderId side quantity price first c).requests]
      exact hc
  · exact Method.triple_pure _ fun _ h ↦ Or.inl ⟨congrArg requests h, _, rfl, rfl⟩

end

/-- A call that returns the responses to a request of its own. -/
inductive Ask
  | newOrder (now : ℚ) (orderId symbol side quantity price flags : ℤ)
  | modifyOrder (orderId side quantity price : ℤ)
  | deleteOrder (orderId : ℤ)

/-- The method behind it. -/
def Ask.method : Ask → ClientM (List OeResponse)
  | .newOrder now orderId symbol side quantity price flags =>
    OrderEntryClient.newOrder now orderId symbol side quantity price flags
  | .modifyOrder orderId side quantity price =>
    OrderEntryClient.modifyOrder orderId side quantity price
  | .deleteOrder orderId => OrderEntryClient.deleteOrder orderId

/-- The order it is about. -/
def Ask.orderId : Ask → ℤ
  | .newOrder _ orderId .. => orderId
  | .modifyOrder orderId .. => orderId
  | .deleteOrder orderId => orderId

/-- **A call's own request** is the first that it makes. The call returns its responses if they are
harmless, and raises over one that is not. -/
theorem Ask.ended (ask : Ask) {c : OrderEntryClient} (hbatches : c.record.batches = []) :
    Method.Triple (fun t ↦ t = c) ask.method (Handled c.requests (c.seqNum + 1) ask.orderId)
      (Failed c.requests (c.seqNum + 1) ask.orderId) := by
  cases ask with
  | newOrder => exact ended_newOrder hbatches _ _ _ _ _ _ _
  | modifyOrder => exact ended_modifyOrder hbatches _ _ _ _
  | deleteOrder => exact ended_deleteOrder hbatches _

/-- **The request of a call is the first that it adds**, and carries what it returns. -/
theorem Ask.returned (ask : Ask) {c : OrderEntryClient} (hbatches : c.record.batches = []) :
    Method.Triple (fun t ↦ t = c) ask.method (Returned c.requests (c.seqNum + 1) ask.orderId)
      (Raised c.requests (c.seqNum + 1) ask.orderId) :=
  (ask.ended hbatches).weaken (fun _ h ↦ h) (fun _ _ h ↦ h.returned) fun _ h ↦ h.raised

/-- A call is steps, and leaves nothing waiting. -/
theorem Ask.ran (ask : Ask) {c : OrderEntryClient} (hbatches : c.record.batches = []) :
    Ran True False c [] (ask.method.after c) := by
  cases ask with
  | newOrder => exact ran_newOrder _ _ _ _ _ _ _ c ⟨.refl, hbatches⟩
  | modifyOrder => exact ran_modifyOrder trivial _ _ _ _ c ⟨.refl, hbatches⟩
  | deleteOrder orderId => exact ran_deleteOrder [] orderId c ⟨.refl, hbatches⟩

/-- A call is a run of steps of the client. -/
theorem Ask.steps (ask : Ask) {c : OrderEntryClient} (hbatches : c.record.batches = []) :
    Steps True False c (ask.method.after c) := (ask.ran hbatches).steps

section

variable (ask : Ask) {c c' : OrderEntryClient} (hbatches : c.record.batches = [])

include hbatches

/-- A call that returns has gone through its list. -/
theorem Ask.handled {responses : List OeResponse} (hrun : ask.method c = .ok responses c') :
    Handled c.requests (c.seqNum + 1) ask.orderId responses c' ∧ c'.record.batches = [] := by
  have hended := ask.ended hbatches c rfl
  have hran := ask.ran hbatches
  rw [hrun] at hended
  rw [Method.after_ok hrun] at hran
  exact ⟨hended, hran.batches_eq⟩

/-- A call that raises has no list, or one that raises. -/
theorem Ask.failed {e : OeError} (hrun : ask.method c = .error e c') :
    Failed c.requests (c.seqNum + 1) ask.orderId c' ∧ c'.record.batches = [] := by
  have hended := ask.ended hbatches c rfl
  have hran := ask.ran hbatches
  rw [hrun] at hended
  rw [Method.after_error hrun] at hran
  exact ⟨hended, hran.batches_eq⟩

end

end OrderEntryClient

end HftTrading.OrderEntry
