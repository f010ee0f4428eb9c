import HftTrading.OrderEntry.Live

/-!
# The kill switch empties the order map

A fill that trips a limit cancels every open order. Cancelling reads responses, whose fills may trip
the limit again, so that a cancel runs inside another, over a map that both of them change. Three
facts carry the argument through all nestings. Orders only leave the map while cancels run. No
exception gets past the cancel of an order. And as many lists of responses have been collected as
cancels sent, at the most; so when all of them have been answered, each cancel has been, inside
whatever others it ran (`AllClosed.split`).

So if every cancel is answered by a list that closes its order, the map is empty when the outermost
check of the limits returns (`killSwitch_empties`).

## Counting answers

A cancel takes a number before it sends, and notes its request when it has its list. Between two
points, the requests noted are therefore as many as the numbers taken, or fewer if some were never
answered (`Counted`). If they are as many in the end, then they were as many over every stretch in
between, nested or not, because no stretch can have more. This is how the condition on the whole run
reaches each cancel by itself.

## From one cancel to all of them

Handling a list that closes an order leaves it gone: either a response before has taken it out, or
the one that closes it does, and no exception ends the handling in between (`GoneOrLeft`). The loop
goes through the ids that were open when it began, and what is not among them was not open, so
nothing is left.
-/

namespace HftTrading.OrderEntry.OrderEntryClient

/-! ### AllClosed cancels -/

/-- The requests whose responses have been collected since. -/
def requestsSince (c₀ c : OrderEntryClient) : List Request := c.requests.drop c₀.requests.length

/-- **Every cancel sent since has been answered**, by a list of responses that can be handled and
that closes its order. -/
structure AllClosed (c₀ c : OrderEntryClient) : Prop where
  all : c.seqNum = c₀.seqNum + (requestsSince c₀ c).length
  closes : ∀ q ∈ requestsSince c₀ c,
    (∀ r ∈ q.responses, r.Harmless) ∧ ∃ r ∈ q.responses, r.Closes q.orderId

/-- All cancels are answered, each by a list that closes its order. -/
theorem allClosed_iff (c₀ c : OrderEntryClient) :
    AllClosed c₀ c ↔ c.seqNum = c₀.seqNum + (requestsSince c₀ c).length ∧
      ∀ q ∈ requestsSince c₀ c,
        (∀ r ∈ q.responses, r.Harmless) ∧ ∃ r ∈ q.responses, r.Closes q.orderId :=
  ⟨fun h ↦ ⟨h.all, h.closes⟩, fun h ↦ ⟨h.1, h.2⟩⟩

instance (c₀ c : OrderEntryClient) : Decidable (AllClosed c₀ c) :=
  decidable_of_iff' _ (allClosed_iff c₀ c)

/-- No more lists have been collected than sequence numbers used up. -/
structure Counted (c₀ c : OrderEntryClient) : Prop where
  since : c₀.requests <+: c.requests
  le : c₀.seqNum + (requestsSince c₀ c).length ≤ c.seqNum

section

variable {c₀ c₁ c c' : OrderEntryClient} {orderId : ℤ}

theorem requestsSince_self (c : OrderEntryClient) : requestsSince c c = [] := List.drop_length

/-- Requests since one point, by way of a later one. -/
theorem requestsSince_append (h : c₀.requests <+: c₁.requests) (h' : c₁.requests <+: c.requests) :
    requestsSince c₀ c = requestsSince c₀ c₁ ++ requestsSince c₁ c := by
  obtain ⟨first, hfirst⟩ := h
  obtain ⟨second, hsecond⟩ := h'
  unfold requestsSince
  rw [← hsecond, ← hfirst, List.append_assoc, List.drop_left, List.drop_left, ← List.append_assoc,
    List.drop_left]

theorem Counted.refl (c : OrderEntryClient) : Counted c c :=
  ⟨List.prefix_rfl, by rw [requestsSince_self]; exact le_rfl⟩

/-- Counting is about the numbers and the requests. -/
theorem Counted.congr (h : Counted c₀ c) (hrequests : c'.requests = c.requests)
    (hseq : c'.seqNum = c.seqNum) : Counted c₀ c' := by
  have hle := h.le
  refine ⟨hrequests ▸ h.since, ?_⟩
  rw [hseq]
  unfold requestsSince at hle ⊢
  rwa [hrequests]

/-- What has been answered in all has been answered in each part. -/
theorem AllClosed.split (h : AllClosed c₀ c) (hfirst : Counted c₀ c₁) (hsecond : Counted c₁ c) :
    AllClosed c₀ c₁ ∧ AllClosed c₁ c := by
  have happend := requestsSince_append hfirst.since hsecond.since
  have hall := h.all
  have hle := hfirst.le
  have hle' := hsecond.le
  have hcloses := h.closes
  rw [happend, List.length_append] at hall
  rw [happend] at hcloses
  constructor
  · exact ⟨by omega, fun q hq ↦ hcloses q (List.mem_append_left _ hq)⟩
  · exact ⟨by omega, fun q hq ↦ hcloses q (List.mem_append_right _ hq)⟩

/-! ### Requests and sequence numbers -/

theorem seqNum_popOrder (orderId : ℤ) (c : OrderEntryClient) :
    (c.popOrder orderId).seqNum = c.seqNum := by
  unfold popOrder
  split
  · rfl
  · rfl

theorem seqNum_bookFill (entry : OeConfig) (m : OrderFill) (flags : FillFlags)
    (c : OrderEntryClient) : (c.bookFill entry m flags).seqNum = c.seqNum := by
  unfold bookFill
  rw [bookTrackers_eq]
  rfl

/-- These requests have been answered, and this is the last sequence number. -/
structure Stands (requests : List Request) (seqNum : ℕ) (c : OrderEntryClient) : Prop where
  requests_eq : c.requests = requests
  seqNum_eq : c.seqNum = seqNum

theorem requests_abandonBatch (c : OrderEntryClient) : c.abandonBatch.requests = c.requests :=
  requests_note_of_none (n := .lost c.record.batch) rfl c

/-- Reading takes no number and notes no request. -/
theorem stands_keptByReading (requests : List Request) (seqNum : ℕ) :
    KeptByReading (Stands requests seqNum) where
  took _ _ hc := ⟨hc.requests_eq, hc.seqNum_eq⟩
  blocking _ hc := ⟨hc.requests_eq, hc.seqNum_eq⟩
  counted _ hc := ⟨hc.requests_eq, hc.seqNum_eq⟩
  sent _ hc := ⟨(requests_note_of_none rfl _).trans hc.requests_eq, hc.seqNum_eq⟩
  opened hc := ⟨hc.requests_eq, hc.seqNum_eq⟩
  read _ hc := ⟨(requests_note_of_none rfl _).trans hc.requests_eq, hc.seqNum_eq⟩
  abandoned hc := ⟨(requests_abandonBatch _).trans hc.requests_eq, hc.seqNum_eq⟩

/-- Sending changes neither. -/
theorem stands_sendRaw (requests : List Request) (seqNum : ℕ) (msg : List UInt8) :
    Method.Keeps (Stands requests seqNum) (sendRaw msg) := by
  intro c hc
  rcases hs : c.socket with - | s
  · rw [sendRaw, Method.after_error (onSocket_of_none hs _)]
    exact hc
  · rw [sendRaw, after_onSocket_of_some hs]
    exact ⟨hc.requests_eq, hc.seqNum_eq⟩

/-- **A request** whose responses are collected is noted. -/
theorem triple_exchange_stands (requests : List Request) (seqNum n : ℕ) (orderId : ℤ)
    (msg : List UInt8) :
    Method.Triple (Stands requests seqNum) (exchange n orderId msg)
      (fun responses ↦ Stands (requests ++ [⟨n, orderId, msg, responses⟩]) seqNum)
      (Stands requests seqNum) := by
  have hsend := (stands_keptByReading requests seqNum).sendAndRecv
    (Method.keeps_iff_triple.1 (stands_sendRaw requests seqNum msg)) fun _ hc ↦ hc
  refine hsend.bind fun responses ↦ Method.Triple.bind
    (R := fun _ ↦ Stands (requests ++ [⟨n, orderId, msg, responses⟩]) seqNum)
    (Method.triple_modify fun c hc ↦ ⟨?_, hc.seqNum_eq⟩) fun _ ↦ Method.triple_pure _ fun _ hc ↦ hc
  rw [requests_note, hc.requests_eq]
  rfl

/-- **What a cancel comes to**: it uses up a sequence number, and either raises without a list of
responses, or handles the one that it has collected. -/
theorem deleteOrderWith_cases (process : List OeResponse → ClientM Unit) (orderId : ℤ)
    (c : OrderEntryClient) :
    (∃ e c', deleteOrderWith process orderId c = .error e c' ∧
      Stands c.requests (c.seqNum + 1) c') ∨
    ∃ msg responses c', deleteOrderWith process orderId c =
        (process responses >>= fun _ ↦ pure responses) c' ∧
      Stands (c.requests ++ [⟨c.seqNum + 1, orderId, msg, responses⟩]) (c.seqNum + 1) c' := by
  have hstart : Stands c.requests (c.seqNum + 1) { c with seqNum := c.seqNum + 1 } := ⟨rfl, rfl⟩
  unfold deleteOrderWith
  rw [Method.bind_ok (makeHeader_eq _ _ c)]
  rcases hpack : DeleteOrder.pack ⟨c.nextHeader .deleteOrder DeleteOrder.SIZE, orderId⟩ with
    - | data
  · exact .inl ⟨_, _, rfl, hstart⟩
  have hdata : packed (some data) { c with seqNum := c.seqNum + 1 } =
      .ok data { c with seqNum := c.seqNum + 1 } := rfl
  have hexchange := triple_exchange_stands c.requests (c.seqNum + 1) (c.seqNum + 1) orderId data
    { c with seqNum := c.seqNum + 1 } hstart
  rw [Method.bind_ok hdata]
  show (∃ e c', (exchange (c.seqNum + 1) orderId data >>= _) _ = _ ∧ _) ∨
    ∃ msg responses c', (exchange (c.seqNum + 1) orderId data >>= _) _ = _ ∧ _
  rcases hrun : exchange (c.seqNum + 1) orderId data { c with seqNum := c.seqNum + 1 } with
    ⟨responses, c'⟩ | ⟨e, c'⟩
  · rw [hrun] at hexchange
    rw [Method.bind_ok hrun]
    exact .inr ⟨data, responses, c', rfl, hexchange⟩
  · rw [hrun] at hexchange
    rw [Method.bind_error hrun]
    exact .inl ⟨e, c', rfl, hexchange⟩

/-! ### However deep -/

/-- Handling alone neither takes numbers nor notes requests. -/
theorem keptByHandling_counted : KeptByHandling (Counted c₀) where
  taken hc := hc.congr rfl rfl
  popped {c} orderId hc :=
    hc.congr (untouched_popOrder orderId c).requests (seqNum_popOrder orderId c)
  booked {c m entry} flags _ hc :=
    hc.congr (untouched_bookFill entry m flags c).requests (seqNum_bookFill entry m flags c)
  finished hc := hc.congr rfl rfl
  abandoned {c} hc := hc.congr (requests_abandonBatch c) rfl

/-- A request more answered than there were, or as many, with a sequence number more. -/
theorem Counted.stands (h : Counted c₀ c) {new : List Request} (hnew : new.length ≤ 1)
    (hc' : Stands (c.requests ++ new) (c.seqNum + 1) c') : Counted c₀ c' := by
  obtain ⟨before, hbefore⟩ := h.since
  have hle := h.le
  unfold requestsSince at hle
  rw [← hbefore, List.drop_left] at hle
  have hrequests : c'.requests = c₀.requests ++ (before ++ new) := by
    rw [hc'.requests_eq, ← hbefore, List.append_assoc]
  refine ⟨⟨before ++ new, hrequests.symm⟩, ?_⟩
  unfold requestsSince
  rw [hrequests, List.drop_left, List.length_append, hc'.seqNum_eq]
  omega

/-- **A cancel takes one number and notes one request at the most.** -/
theorem counted_deleteOrderWith (process : List OeResponse → ClientM Unit) (orderId : ℤ)
    (hprocess : ∀ responses, Method.Keeps (Counted c₀) (process responses)) :
    Method.Keeps (Counted c₀) (deleteOrderWith process orderId) := by
  intro c hc
  rcases deleteOrderWith_cases process orderId c with
    ⟨e, c', hrun, hc'⟩ | ⟨msg, responses, c', hrun, hc'⟩
  · rw [Method.after_error hrun]
    have hnone : Stands (c.requests ++ []) (c.seqNum + 1) c' := by rwa [List.append_nil]
    exact hc.stands (List.length_nil.trans_le (Nat.zero_le 1)) hnone
  · have hafter : (deleteOrderWith process orderId).after c = (process responses).after c' :=
      (Method.after_congr hrun).trans
        (Method.after_bind_pure (process responses) (fun _ ↦ responses) c')
    rw [hafter]
    exact hprocess responses c' (hc.stands le_rfl hc')

theorem counted_request (process : List OeResponse → ClientM Unit)
    (hprocess : ∀ responses, Method.Keeps (Counted c₀) (process responses)) :
    KeepsOpen (Counted c₀) (deleteOrderWith process) :=
  keepsOpen_of_keeps fun orderId ↦ counted_deleteOrderWith process orderId hprocess

/-- An order that is not open. -/
def Gone (orderId : ℤ) (c : OrderEntryClient) : Prop := c.openOrders.get? orderId = none

theorem gone_keptByReading (orderId : ℤ) : KeptByReading (Gone orderId) where
  took _ _ hc := hc
  blocking _ hc := hc
  counted _ hc := hc
  sent _ hc := hc
  opened hc := hc
  read _ hc := hc
  abandoned hc := hc

theorem gone_keptByHandling (orderId : ℤ) : KeptByHandling (Gone orderId) where
  taken hc := hc
  popped {c} orderId' hc := by
    show (c.popOrder orderId').openOrders.get? orderId = none
    rw [(openOrders_popOrder orderId' c).1, Dict.get?_erase]
    split
    · rfl
    · exact hc
  booked {c m entry} flags hentry hc := by
    show (c.bookFill entry m flags).openOrders.get? orderId = none
    have hne : orderId ≠ m.orderId := by
      rintro rfl
      cases hc.symm.trans hentry
    rw [openOrders_bookFill]
    split
    · rw [Dict.get?_erase_of_ne _ hne]
      exact hc
    · rw [Dict.get?_insert_of_ne _ _ hne]
      exact hc
  finished hc := hc
  abandoned hc := hc

theorem gone_deleteOrderWith (process : List OeResponse → ClientM Unit) (orderId' : ℤ)
    (hprocess : ∀ responses, Method.Keeps (Gone orderId) (process responses)) :
    Method.Keeps (Gone orderId) (deleteOrderWith process orderId') := by
  have hsend (msg : List UInt8) : Method.Keeps (Gone orderId) (sendRaw msg) := by
    intro c hc
    rcases hs : c.socket with - | s
    · rw [sendRaw, Method.after_error (onSocket_of_none hs _)]
      exact hc
    · rw [sendRaw, after_onSocket_of_some hs]
      exact hc
  have hexchange (n : ℕ) (msg : List UInt8) :
      Method.Keeps (Gone orderId) (exchange n orderId' msg) := by
    refine Method.Keeps.bind (Method.keeps_iff_triple.2 ?_) fun responses ↦
      Method.Keeps.bind (fun c hc ↦ hc) fun _ ↦ Method.keeps_pure _
    exact (gone_keptByReading orderId).sendAndRecv (Method.keeps_iff_triple.1 (hsend msg))
      fun _ hc ↦ hc
  have hheader : Method.Keeps (Gone orderId) (makeHeader .deleteOrder DeleteOrder.SIZE) :=
    fun c hc ↦ hc
  exact hheader.bind fun header ↦ (keeps_packed _).bind fun data ↦
    (hexchange _ data).bind fun responses ↦ (hprocess responses).bind fun _ ↦ Method.keeps_pure _

theorem gone_request (process : List OeResponse → ClientM Unit)
    (hprocess : ∀ responses, Method.Keeps (Gone orderId) (process responses)) :
    KeepsOpen (Gone orderId) (deleteOrderWith process) :=
  keepsOpen_of_keeps fun orderId' ↦ gone_deleteOrderWith process orderId' hprocess

theorem gone_checkLimits (orderId symbol : ℤ) : Method.Keeps (Gone orderId) (checkLimits symbol) :=
  (gone_keptByHandling orderId).checkLimits gone_request symbol

theorem gone_popOrder (orderId : ℤ) (c : OrderEntryClient) : Gone orderId (c.popOrder orderId) := by
  show (c.popOrder orderId).openOrders.get? orderId = none
  rw [(openOrders_popOrder orderId c).1, Dict.get?_erase_self]

/-- A response closes one order. -/
theorem eq_of_closes {response : OeResponse} {orderId' : ℤ} (h : response.Closes orderId)
    (h' : response.Closes orderId') : orderId' = orderId := by
  cases response with
  | reject m => exact h'.2.symm.trans h.2
  | fill m => exact h'.2.symm.trans h.2
  | closed m => exact h'.symm.trans h
  | _ => exact h.elim

/-- **A response that closes an order** leaves it closed, whatever its handling sets off. -/
theorem gone_handleResponse {response : OeResponse} (hcloses : response.Closes orderId) :
    Method.Triple (fun _ ↦ True) (handleResponse checkLimits response) (fun _ ↦ Gone orderId)
      fun _ ↦ True := by
  refine triple_handleResponse (R := fun _ ↦ Gone orderId) (fun _ _ _ ↦ trivial)
    (fun c _ _ hnone ↦ hnone.1 orderId hcloses) (fun c orderId' _ _ hcloses' ↦ ?_)
    (fun c m flags entry _ hfill hflags _ ↦ ?_) fun symbol ↦ ?_
  · rw [eq_of_closes hcloses hcloses'.1]
    exact gone_popOrder _ _
  -- the last fill
  · rw [hfill] at hcloses
    obtain ⟨hclosed, rfl⟩ := hcloses
    cases hclosed.symm.trans hflags
    show (bookFill entry m .closed c).openOrders.get? m.orderId = none
    rw [openOrders_bookFill, if_pos rfl, Dict.get?_erase_self]
  -- the kill switch that it may set off opens nothing
  · exact (Method.keeps_iff_triple.1 (gone_checkLimits orderId symbol)).weaken (fun _ hc ↦ hc)
      (fun _ _ hc ↦ hc) fun _ _ ↦ trivial

/-- The order is gone, or a response that closes it is still to be handled. -/
def GoneOrLeft (orderId : ℤ) (left : List OeResponse) (c : OrderEntryClient) : Prop :=
  Gone orderId c ∨ ∃ r ∈ left, r.Closes orderId

/-- A response that closes the order leaves it gone; any other leaves the rest to do so. -/
theorem goneOrLeft_handleResponse (orderId : ℤ) (response : OeResponse) (left : List OeResponse) :
    Method.Triple (GoneOrLeft orderId (response :: left)) (handleResponse checkLimits response)
      (fun _ ↦ GoneOrLeft orderId left) fun _ ↦ True := by
  by_cases hnow : response.Closes orderId
  · exact (gone_handleResponse hnow).weaken (fun _ _ ↦ trivial) (fun _ _ hc ↦ .inl hc)
      fun _ _ ↦ trivial
  · rintro c (hgone | ⟨r, hr, hr'⟩)
    -- an order that is gone stays gone
    · have hkeeps := (gone_keptByHandling orderId).handleResponse (gone_checkLimits orderId)
        response
      exact ((Method.keeps_iff_triple.1 hkeeps).weaken (fun _ hc ↦ hc) (fun _ _ hc ↦ Or.inl hc)
        fun _ _ ↦ trivial) c hgone
    -- the response that closes it is one of those after this one
    · have hrest : ∃ r ∈ left, r.Closes orderId := by
        rcases List.mem_cons.1 hr with rfl | hmem
        · exact absurd hr' hnow
        · exact ⟨r, hmem, hr'⟩
      have htrivial : Method.Triple (fun _ ↦ True) (handleResponse checkLimits response)
          (fun _ ↦ GoneOrLeft orderId left) fun _ ↦ True :=
        (Method.triple_trivial _).weaken (fun _ _ ↦ trivial) (fun _ _ _ ↦ Or.inr hrest)
          fun _ _ ↦ trivial
      exact htrivial c trivial

/-- **A list of responses** that closes an order, handled to its end. -/
theorem gone_processResponses {responses : List OeResponse}
    (hcloses : ∃ r ∈ responses, r.Closes orderId)
    (h : processResponses responses c = .ok () c') : Gone orderId c' := by
  have hall : Method.Triple (GoneOrLeft orderId responses) (processResponses responses)
      (fun _ ↦ Gone orderId) fun _ ↦ True := by
    refine Method.Triple.onExit (Method.triple_all (goneOrLeft_handleResponse orderId) responses)
      (fun _ c hc ↦ ?_) fun _ _ ↦ trivial
    rcases hc with hgone | ⟨r, hr, -⟩
    · exact hgone
    · exact absurd hr List.not_mem_nil
  have hafter := hall c (.inr hcloses)
  rwa [h] at hafter

/-! ### Every cancel of every loop -/

theorem counted_deleteOrder (orderId : ℤ) : Method.Keeps (Counted c₀) (deleteOrder orderId) := by
  rw [deleteOrder_eq]
  exact counted_deleteOrderWith _ orderId (keptByHandling_counted.processResponses counted_request)

theorem gone_deleteOrder (orderId' : ℤ) : Method.Keeps (Gone orderId) (deleteOrder orderId') := by
  rw [deleteOrder_eq]
  exact gone_deleteOrderWith _ orderId'
    ((gone_keptByHandling orderId).processResponses gone_request)

/-- **An answered cancel** closes its order. -/
theorem closes_deleteOrder (h : AllClosed c ((deleteOrder orderId).after c)) :
    Gone orderId ((deleteOrder orderId).after c) := by
  rw [deleteOrder_eq] at h ⊢
  rcases deleteOrderWith_cases processResponses orderId c with
    ⟨e, c', hrun, hc'⟩ | ⟨msg, responses, c', hrun, hc'⟩
  -- a sequence number is used up and nothing answers it
  · rw [Method.after_error hrun] at h
    have hall := h.all
    have hnone : requestsSince c c' = [] := by
      rw [requestsSince, hc'.requests_eq, List.drop_length]
    rw [hnone, hc'.seqNum_eq, List.length_nil] at hall
    omega
  -- its responses are handled, and one of them closes the order
  · have hafter : (deleteOrderWith processResponses orderId).after c =
        (processResponses responses).after c' :=
      (Method.after_congr hrun).trans
        (Method.after_bind_pure (processResponses responses) (fun _ ↦ responses) c')
    rw [hafter] at h ⊢
    have hcounted : Counted c c' := (Counted.refl c).stands le_rfl hc'
    have hrest : Counted c' ((processResponses responses).after c') :=
      keptByHandling_counted.processResponses counted_request responses c' (.refl c')
    obtain ⟨hown, -⟩ := h.split hcounted hrest
    have hrequest : requestsSince c c' = [⟨c.seqNum + 1, orderId, msg, responses⟩] := by
      rw [requestsSince, hc'.requests_eq, List.drop_left]
    obtain ⟨hharmless, hcloses⟩ := hown.closes _ (by rw [hrequest]; exact List.mem_singleton_self _)
    have hreturns := harmless_processResponses responses c' trivial
    rcases hprocess : processResponses responses c' with ⟨a, c''⟩ | ⟨e, c''⟩
    · rw [Method.after_ok hprocess]
      exact gone_processResponses hcloses hprocess
    · rw [hprocess] at hreturns
      exact absurd hharmless hreturns

/-! ### All of them -/

theorem returns_cancelWith (deleteOrder : ℤ → ClientM (List OeResponse)) (orderId : ℤ) :
    Method.Returns (cancelWith deleteOrder orderId) :=
  Method.returns_tryCatch _ fun _ ↦ Method.triple_pure _ fun _ _ ↦ trivial

/-- **A cancel whose requests are all answered leaves its order gone.** -/
theorem closes_cancelWith (h : AllClosed c ((cancelWith deleteOrder orderId).after c)) :
    Gone orderId ((cancelWith deleteOrder orderId).after c) := by
  rw [after_cancelWith] at h ⊢
  split at h
  · rename_i hopen
    rw [if_pos hopen]
    exact closes_deleteOrder h
  · rename_i hopen
    rw [if_neg hopen]
    exact Dict.contains_eq_false_iff.1 (Bool.not_eq_true _ ▸ hopen)

/-- **A loop of cancels** that are all answered closes every order of it. -/
theorem gone_cancels (orderIds : List ℤ)
    (h : AllClosed c ((Method.all (orderIds.map (cancelWith deleteOrder))).after c)) :
    ∀ orderId ∈ orderIds,
      Gone orderId ((Method.all (orderIds.map (cancelWith deleteOrder))).after c) := by
  induction orderIds generalizing c with
  | nil => exact fun _ horderId ↦ absurd horderId List.not_mem_nil
  | cons first rest ih =>
    have hafter : (Method.all ((first :: rest).map (cancelWith deleteOrder))).after c =
        (Method.all (rest.map (cancelWith deleteOrder))).after
          ((cancelWith deleteOrder first).after c) :=
      Method.after_bind_of_ok ((returns_cancelWith deleteOrder first).ok c) _
    have hkept {I : OrderEntryClient → Prop}
        (hI : ∀ orderId, Method.Keeps I (deleteOrder orderId)) :
        Method.Keeps I (Method.all (rest.map (cancelWith deleteOrder))) := by
      refine Method.keeps_all fun m hm ↦ ?_
      obtain ⟨orderId, -, rfl⟩ := List.mem_map.1 hm
      exact keeps_cancelWith hI orderId
    rw [hafter] at h ⊢
    obtain ⟨hfirst, hrest⟩ := h.split
      (keeps_cancelWith counted_deleteOrder first c (.refl c))
      (hkept counted_deleteOrder _ (.refl _))
    -- what the first cancel has closed the others leave closed
    intro orderId horderId
    rcases List.mem_cons.1 horderId with rfl | hmem
    · exact hkept gone_deleteOrder _ (closes_cancelWith hfirst)
    · exact ih hrest orderId hmem

/-- No order is open. -/
def Empty (c : OrderEntryClient) : Prop := c.openOrders.entries = []

/-- The map is empty when every order is gone. -/
theorem empty_iff : Empty c ↔ ∀ orderId, Gone orderId c := by
  constructor
  · intro h orderId
    refine Dict.get?_eq_none_iff.2 fun hmem ↦ ?_
    rw [Dict.keys, h] at hmem
    exact List.not_mem_nil hmem
  · intro h
    refine List.eq_nil_iff_forall_not_mem.2 fun entry hentry ↦ ?_
    exact Dict.get?_eq_none_iff.1 (h entry.1) (List.mem_map_of_mem hentry)

/-- **`cancel_all_orders`** empties the map. -/
theorem empty_cancelAllOrders (h : AllClosed c (cancelAllOrders.after c)) :
    Empty (cancelAllOrders.after c) := by
  have hkept (orderId : ℤ) : Method.Keeps (Gone orderId) cancelAllOrders :=
    (gone_keptByHandling orderId).cancelAllOrders gone_request
  refine empty_iff.2 fun orderId ↦ ?_
  rcases hentry : c.openOrders.get? orderId with - | entry
  · exact hkept orderId c hentry
  · rw [cancelAllOrders_eq] at h ⊢
    exact gone_cancels c.openOrders.keys h orderId (Dict.mem_keys_iff.2 ⟨entry, hentry⟩)

/-! ### The kill switch -/

/-- PnL below the floor, or a position beyond the limit. -/
def Trips (symbol : ℤ) (c : OrderEntryClient) : Prop :=
  c.pnlTracker.getPnl < c.pnlMinVal ∨ |c.positionTracker.getPosition symbol| > c.positionLimit

/-- `_check_limits` is one cancel-all for each limit that is passed. -/
theorem after_checkLimits (symbol : ℤ) (c : OrderEntryClient) : (checkLimits symbol).after c =
    (cancelIf (|c.positionTracker.getPosition symbol| > c.positionLimit) cancelAllOrders).after
      ((cancelIf (c.pnlTracker.getPnl < c.pnlMinVal) cancelAllOrders).after c) := by
  have hreturns (tripped : Bool) : Method.Returns (cancelIf tripped cancelAllOrders) := by
    rcases tripped with - | -
    · exact Method.triple_pure _ fun _ _ ↦ trivial
    · exact fun c hc ↦ returns_cancelAllWith (deleteOrderN c.arrivals) c hc
  exact Method.after_bind_of_ok ((hreturns (c.pnlTracker.getPnl < c.pnlMinVal)).ok c) _

/-- **`_check_limits`** past a limit empties the map, if every cancel is answered. -/
theorem empty_checkLimits {symbol : ℤ} (htrips : c.Trips symbol)
    (h : AllClosed c ((checkLimits symbol).after c)) : Empty ((checkLimits symbol).after c) := by
  have hcounted (c₀ : OrderEntryClient) (tripped : Bool) :
      Method.Keeps (Counted c₀) (cancelIf tripped cancelAllOrders) :=
    keeps_cancelIf (keptByHandling_counted.cancelAllOrders counted_request) tripped
  have hempty (tripped : Bool) : Method.Keeps Empty (cancelIf tripped cancelAllOrders) := by
    intro c hc
    refine empty_iff.2 fun orderId ↦ ?_
    exact keeps_cancelIf ((gone_keptByHandling orderId).cancelAllOrders gone_request)
      tripped c (empty_iff.1 hc orderId)
  rw [after_checkLimits] at h ⊢
  obtain ⟨hfirst, hsecond⟩ := h.split (hcounted c _ c (.refl c)) (hcounted _ _ _ (.refl _))
  by_cases hfloor : c.pnlTracker.getPnl < c.pnlMinVal
  -- the floor empties the map, and the other limit leaves it empty
  · rw [decide_eq_true hfloor] at hfirst ⊢
    exact hempty _ _ (empty_cancelAllOrders hfirst)
  · have hcap := htrips.resolve_left hfloor
    rw [decide_eq_true hcap, decide_eq_false hfloor] at hsecond ⊢
    exact empty_cancelAllOrders hsecond

/-- More fuel than arrivals changes nothing. -/
theorem sameOn_checkLimits (fuel : ℕ) (symbol : ℤ) :
    Method.SameOn (AtMost fuel) (checkLimits symbol)
      (checkLimitsWith (cancelAllWith (deleteOrderN fuel)) symbol) := by
  have hkeeps : Method.Keeps (AtMost fuel) (cancelAllWith deleteOrder) :=
    keeps_cancelAllWith keeps_deleteOrder_atMost
  unfold checkLimits
  rw [cancelAllOrders_eq]
  exact sameOn_checkLimitsWith (sameOn_cancelAllWith (sameOn_deleteOrder fuel)
    keeps_deleteOrder_atMost) hkeeps symbol

/-- **The kill switch empties the order map.** A fill that trips a limit is handled without an
exception, to the same end for any fuel from the arrivals to come on; and if every cancel made on
the way is answered, no order is open in the end. -/
theorem killSwitch_empties {m : OrderFill} {entry : OeConfig} {flags : FillFlags}
    (hflags : FillFlags.ofValue? m.flags = some flags)
    (hentry : c.openOrders.get? m.orderId = some entry)
    (htrips : (c.bookFill entry m flags).Trips entry.symbol) :
    ∃ c', handleResponse checkLimits (.fill m) c = .ok () c' ∧
      (∀ fuel, c.arrivals ≤ fuel →
        handleResponse (checkLimitsWith (cancelAllWith (deleteOrderN fuel))) (.fill m) c =
          .ok () c') ∧
      (AllClosed (c.bookFill entry m flags) c' → Empty c') := by
  have hhandle : handleResponse checkLimits (.fill m) c =
      checkLimits entry.symbol (c.bookFill entry m flags) := by
    unfold handleResponse
    dsimp only
    rw [hflags]
    dsimp only
    rw [Method.bind_ok (Method.get_apply c), hentry]
    rfl
  have hreturns := (returns_checkLimits entry.symbol).ok (c.bookFill entry m flags)
  refine ⟨_, hhandle.trans hreturns, fun fuel hfuel ↦ ?_, empty_checkLimits htrips⟩
  rw [← sameOn_handleResponse (sameOn_checkLimits fuel) (.fill m) c hfuel]
  exact hhandle.trans hreturns

/-- Two buys of two, acknowledged, and what answers their cancels. A fill of the second order comes
ahead of the first close. -/
def twoOpen : OrderEntryClient :=
  let ack (seqNum : ℕ) (orderId : ℤ) : OeResponse :=
    .ack ⟨⟨40, 101, 1, seqNum, 1, 7⟩, orderId, 900, 2, 100⟩
  let closed (seqNum : ℕ) (orderId : ℤ) : OeResponse :=
    .closed ⟨⟨24, 104, 1, seqNum, 1, 7⟩, orderId⟩
  let fill (seqNum : ℕ) (orderId : ℤ) : OeResponse :=
    .fill ⟨⟨33, 103, 1, seqNum, 1, 7⟩, orderId, 1, 100, 1⟩
  let lists : List (List OeResponse) :=
    [[ack 1 1], [ack 2 2], [fill 3 2, closed 4 1], [closed 5 1], [closed 6 2]]
  runCalls [.newOrder 0 1 5 1 2 100 0, .newOrder 0 2 5 1 2 100 0]
    (init [] [] 7 (-20000) 0 (some (.connected
      (lists.flatMap fun responses ↦ Arrival.burst responses ++ [.pause]))) [])

/-- A fill of the first of them. -/
def tripping : OrderFill := ⟨⟨33, 103, 1, 2, 1, 7⟩, 1, 1, 100, 1⟩

/-- With two orders open, both are gone. -/
theorem killSwitch_empties_twoOpen :
    Empty ((handleResponse checkLimits (.fill tripping)).after twoOpen) := by
  have hflags : FillFlags.ofValue? tripping.flags = some .partialFill := by decide
  have hentry : twoOpen.openOrders.get? tripping.orderId = some ⟨5, 1, 2, 100, 0⟩ := by
    decide +kernel
  have htrips : (twoOpen.bookFill ⟨5, 1, 2, 100, 0⟩ tripping .partialFill).Trips 5 :=
    .inr (by decide +kernel)
  obtain ⟨c', hrun, -, hempty⟩ := killSwitch_empties hflags hentry htrips
  have hanswered : AllClosed (twoOpen.bookFill ⟨5, 1, 2, 100, 0⟩ tripping .partialFill)
      ((handleResponse checkLimits (.fill tripping)).after twoOpen) := by
    decide +kernel
  rw [Method.after_ok hrun] at hanswered ⊢
  exact hempty hanswered

end

end HftTrading.OrderEntry.OrderEntryClient
