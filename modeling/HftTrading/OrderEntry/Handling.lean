import HftTrading.OrderEntry.Client

/-!
# Invariants of reading and handling

Reading takes arrivals, and counts and notes what it reads; an invariant that survives these
(`KeptByReading`) survives `_send_and_recv` behind the message that it sends.

Handling responses cancels orders, which sends requests whose responses are handled in turn. An
invariant that handling itself leaves alone (`KeptByHandling`) survives all of that as soon as one
request keeps it, given that the handling of its responses does: the recursion is closed here once,
for any such invariant (`KeptByHandling.deleteOrderN`).

## What an invariant has to name

The conditions are on the elementary changes of the state, one field for each: a response is taken
from the socket and noted, a batch is opened, a response is taken up, a fill is booked, an order is
dropped, an exception abandons a batch. A module that has an invariant of its own proves these
fields and gets all methods of the client from here. None of them is gone through again.

## The loop that cancels

Cancelling all orders goes through the ids that were open when it began. For an order that has gone
since, the lookup raises, which is caught. So a weaker condition is enough for the cancel there:
that it keeps the invariant for orders that are open (`KeepsOpen`).
-/

namespace HftTrading.OrderEntry

/-- A response that is handled without an exception. -/
def OeResponse.Harmless : OeResponse → Prop
  | .reject m => RejectReason.ofValue? m.rejectReason = some .unknownOrderId
  | .fill m => (FillFlags.ofValue? m.flags).isSome
  | _ => True

/-- A response that says that an order is no longer open. -/
def OeResponse.Closes (orderId : ℤ) : OeResponse → Prop
  | .reject m => RejectReason.ofValue? m.rejectReason = some .unknownOrderId ∧ m.orderId = orderId
  | .fill m => FillFlags.ofValue? m.flags = some .closed ∧ m.orderId = orderId
  | .closed m => m.orderId = orderId
  | _ => False

namespace OrderEntryClient

variable {I : OrderEntryClient → Prop}

/-! ### Cancelling -/

/-- A cancel is asked for only if the order is open. -/
theorem after_cancelWith (deleteOrder : ℤ → ClientM (List OeResponse)) (orderId : ℤ)
    (c : OrderEntryClient) : (cancelWith deleteOrder orderId).after c =
      if c.openOrders.contains orderId then (deleteOrder orderId).after c else c := by
  have hafter : (cancelWith deleteOrder orderId).after c =
      (if c.openOrders.contains orderId then do let _ ← deleteOrder orderId
        else throw (.orderNotOpen orderId) : ClientM Unit).after c :=
    Method.after_tryCatch_pure _ _ c
  rw [hafter]
  split
  · exact Method.after_bind_pure _ _ c
  · rfl

/-- The cancel of an order that is open keeps an invariant. -/
def KeepsOpen (I : OrderEntryClient → Prop) (deleteOrder : ℤ → ClientM (List OeResponse)) : Prop :=
  ∀ orderId c, c.openOrders.contains orderId = true → I c → I ((deleteOrder orderId).after c)

/-- A cancel that keeps the invariant for all orders keeps it for open ones. -/
theorem keepsOpen_of_keeps {deleteOrder : ℤ → ClientM (List OeResponse)}
    (hdelete : ∀ orderId, Method.Keeps I (deleteOrder orderId)) : KeepsOpen I deleteOrder :=
  fun orderId c _ hc ↦ hdelete orderId c hc

/-- The exception that is caught around a cancel breaks nothing. -/
theorem KeepsOpen.cancelWith {deleteOrder : ℤ → ClientM (List OeResponse)}
    (hdelete : KeepsOpen I deleteOrder) (orderId : ℤ) :
    Method.Keeps I (cancelWith deleteOrder orderId) := by
  intro c hc
  rw [after_cancelWith]
  split
  · rename_i hopen
    exact hdelete orderId c hopen hc
  · exact hc

theorem KeepsOpen.cancelAllWith {deleteOrder : ℤ → ClientM (List OeResponse)}
    (hdelete : KeepsOpen I deleteOrder) : Method.Keeps I (cancelAllWith deleteOrder) := by
  refine Method.keeps_get.bind fun c ↦ Method.keeps_all fun m hm ↦ ?_
  obtain ⟨orderId, -, rfl⟩ := List.mem_map.1 hm
  exact hdelete.cancelWith orderId

theorem keeps_cancelWith {deleteOrder : ℤ → ClientM (List OeResponse)}
    (hdelete : ∀ orderId, Method.Keeps I (deleteOrder orderId)) (orderId : ℤ) :
    Method.Keeps I (cancelWith deleteOrder orderId) :=
  (keepsOpen_of_keeps hdelete).cancelWith orderId

theorem keeps_cancelAllWith {deleteOrder : ℤ → ClientM (List OeResponse)}
    (hdelete : ∀ orderId, Method.Keeps I (deleteOrder orderId)) :
    Method.Keeps I (cancelAllWith deleteOrder) :=
  (keepsOpen_of_keeps hdelete).cancelAllWith

/-- All orders are cancelled if a limit has been tripped. -/
theorem keeps_cancelIf {cancelAllOrders : ClientM Unit}
    (hcancel : Method.Keeps I cancelAllOrders) (tripped : Bool) :
    Method.Keeps I (cancelIf tripped cancelAllOrders) := by
  rcases tripped with - | -
  · exact Method.keeps_pure _
  · exact hcancel

/-- The check of the limits, whether it trips or not. -/
theorem keeps_checkLimitsWith {cancelAllOrders : ClientM Unit}
    (hcancel : Method.Keeps I cancelAllOrders) (symbol : ℤ) :
    Method.Keeps I (checkLimitsWith cancelAllOrders symbol) :=
  Method.keeps_get.bind fun _ ↦ (keeps_cancelIf hcancel _).bind fun _ ↦ keeps_cancelIf hcancel _

/-! ### Headers and names -/

/-- The header that is made next. -/
def nextHeader (msgType : MsgType) (length : ℕ) (c : OrderEntryClient) : OeRequestHeader :=
  ⟨length, msgType.value, OE_PROTOCOL_VERSION, c.seqNum + 1, c.clientId, c.sessionId⟩

theorem makeHeader_eq (msgType : MsgType) (length : ℕ) (c : OrderEntryClient) :
    makeHeader msgType length c =
      .ok (c.nextHeader msgType length) { c with seqNum := c.seqNum + 1 } := rfl

/-- A value of an enumeration has a name. -/
theorem nameOf_of_isSome {α : Type} (enumeration : String) {ofValue? : ℤ → Option α} {n : ℤ}
    (h : (ofValue? n).isSome) (c : OrderEntryClient) :
    nameOf enumeration ofValue? n c = .ok () c := by
  obtain ⟨a, ha⟩ := Option.isSome_iff_exists.1 h
  unfold nameOf
  rw [ha]
  rfl

/-! ### Reading responses -/

/-- What taking arrivals leaves alone: what has been sent, and a reset that comes first. -/
structure Took (s s' : Socket) : Prop where
  sent : s'.sent = s.sent
  reset : s.incoming.head? = some .reset → s'.incoming.head? = some .reset

/-- Reading keeps an invariant. -/
structure KeptByReading (I : OrderEntryClient → Prop) : Prop where
  took : ∀ {c : OrderEntryClient} {s s' : Socket}, c.socket = some s → Took s s' → I c →
    I (setSocket s' c)
  blocking : ∀ {c} (blocking : Bool), I c → I (c.setBlocking blocking)
  counted : ∀ {c : OrderEntryClient} (n : ℕ), I c → I { c with respSeq := n }
  sent : ∀ {c} (message : List UInt8), I c → I (c.note (.sent message))
  opened : ∀ {c}, I c → I (c.onRecord Record.openBatch)
  read : ∀ {c} (response : OeResponse), I c →
    I ((c.onRecord (·.collect response)).note (.read response))
  abandoned : ∀ {c}, I c → I c.abandonBatch

/-- Receiving takes arrivals and puts none back. -/
theorem took_recvInto (n : ℕ) (s₀ : Socket) : Method.Keeps (Took s₀) (Socket.recvInto n) := by
  intro s hs
  have harrived : s₀.incoming.head? = some .reset → ∃ rest, s.incoming = .reset :: rest := by
    intro hreset
    exact List.head?_eq_some_iff.1 (hs.reset hreset)
  unfold Method.after Socket.recvInto
  rcases hrest : Socket.arrived s.blocking s.incoming with - | ⟨arrival, rest⟩
  · refine ⟨hs.sent, fun hreset ↦ ?_⟩
    obtain ⟨rest, hincoming⟩ := harrived hreset
    rw [hincoming] at hrest
    cases hrest
  · cases arrival with
    | reset => exact ⟨hs.sent, fun _ ↦ rfl⟩
    | _ =>
      refine ⟨hs.sent, fun hreset ↦ ?_⟩
      obtain ⟨rest', hincoming⟩ := harrived hreset
      rw [hincoming] at hrest
      cases hrest

theorem took_recvMessage (s₀ : Socket) : Method.Keeps (Took s₀) Socket.recvMessage := by
  have hloop (iterations missing : ℕ) (buf : List UInt8) :
      Method.Keeps (Took s₀) (Socket.recvLoop iterations missing buf) := by
    induction iterations generalizing missing buf with
    | zero => exact Method.keeps_pure _
    | succ iterations ih =>
      rw [Socket.recvLoop]
      split
      · exact Method.keeps_pure _
      · refine (took_recvInto _ s₀).bind fun bytes ↦ ?_
        split
        · exact Method.keeps_throw _
        · exact ih _ _
  refine (hloop _ _ _).bind fun hdrBytes ↦ ?_
  split
  · exact Method.keeps_throw _
  split
  · exact Method.keeps_pure _
  · exact (hloop _ _ _).bind fun rest ↦ Method.keeps_pure _

/-- A call on the socket, when there is one. -/
theorem after_onSocket_of_some {α : Type} {c : OrderEntryClient} {s : Socket}
    (h : c.socket = some s) (call : Method OeError Socket α) :
    (onSocket call).after c = setSocket (call.after s) c := by
  rw [← Method.after_focus call s setSocket c]
  unfold Method.after
  rw [onSocket_of_some h]

namespace KeptByReading

variable (h : KeptByReading I)

include h

/-- An invariant about something else survives that. -/
theorem recvMessage : Method.Keeps I (onSocket Socket.recvMessage) := by
  intro c hc
  rcases hs : c.socket with - | s
  · rw [Method.after_error (onSocket_of_none hs _)]
    exact hc
  · rw [after_onSocket_of_some hs]
    exact h.took hs (took_recvMessage s s ⟨rfl, id⟩) hc

/-- Parsing notes what it parses, or raises. -/
theorem parseResponse (data : List UInt8) : Method.Keeps I (parseResponse data) := by
  unfold OrderEntryClient.parseResponse
  rcases OeResponseHeader.unpack data with - | hdr
  · exact Method.keeps_throw _
  refine Method.Keeps.bind (Method.keeps_get.bind fun c ↦ ?_) fun _ ↦
    Method.Keeps.bind (Method.keeps_modify fun c hc ↦ h.counted _ hc) fun _ ↦ ?_
  · split
    · exact Method.keeps_throw _
    split
    · exact Method.keeps_throw _
    split
    · exact Method.keeps_throw _
    · exact Method.keeps_pure _
  · rcases MsgType.ofValue? hdr.msgType with - | msgType
    · exact Method.keeps_throw _
    dsimp only
    rcases msgType.unpack hdr data with - | response
    · exact Method.keeps_throw _
    · exact Method.Keeps.bind (Method.keeps_modify fun c hc ↦ h.read response hc) fun _ ↦
        Method.keeps_pure _

theorem receive : Method.Keeps I receive := h.recvMessage.bind h.parseResponse

/-- Draining the socket, as often as it goes. -/
theorem drain (iterations : ℕ) (responses : List OeResponse) :
    Method.Keeps I (drain iterations responses) := by
  induction iterations generalizing responses with
  | zero => exact Method.keeps_pure _
  | succ iterations ih =>
    rw [OrderEntryClient.drain]
    refine Method.Keeps.bind (Method.Keeps.tryCatch ?_ fun e ↦ ?_) ?_
    · exact h.receive.bind fun _ ↦ Method.keeps_pure _
    · split
      · exact Method.keeps_pure _
      · exact Method.keeps_throw _
    · rintro (- | response)
      · exact Method.keeps_pure _
      · exact ih _

/-- The first response, and all that can be had behind it. -/
theorem collectResponses : Method.Keeps I collectResponses := by
  refine h.receive.bind fun first ↦ ?_
  split
  · exact Method.keeps_pure _
  · exact (Method.keeps_modify fun _ hc ↦ h.blocking false hc).bind fun _ ↦
      Method.keeps_get.bind fun c ↦ (h.drain _ _).onExit (fun _ hc ↦ h.blocking true hc)
        fun _ hc ↦ h.blocking true hc

/-- **Behind its message** `_send_and_recv` only reads. -/
theorem sendAndRecv {P E : OrderEntryClient → Prop} {msg : List UInt8}
    (hsend : Method.Triple P (sendRaw msg) (fun _ ↦ I) E) (hE : ∀ c, I c → E c) :
    Method.Triple P (sendAndRecv msg) (fun _ ↦ I) E := by
  refine hsend.bind fun _ ↦ Method.Triple.bind (R := fun _ ↦ I)
    (Method.triple_modify fun c hc ↦ h.opened (h.blocking true (h.sent msg hc))) fun _ ↦ ?_
  exact (Method.keeps_iff_triple.1 h.collectResponses).onExit (fun _ _ hc ↦ hc)
    fun c hc ↦ hE _ (h.abandoned hc)

theorem exchangeLogin {P E : OrderEntryClient → Prop} {data : List UInt8}
    (hsend : Method.Triple P (sendRaw data) (fun _ ↦ I) E) (hE : ∀ c, I c → E c) :
    Method.Triple P (exchangeLogin data) (fun _ ↦ I) E := by
  refine hsend.bind fun _ ↦ Method.Triple.bind (R := fun _ ↦ I)
    (Method.triple_modify fun c hc ↦ h.opened hc) fun _ ↦ ?_
  exact (Method.keeps_iff_triple.1 h.receive).onExit (fun _ c hc ↦ h.abandoned hc)
    fun c hc ↦ hE _ (h.abandoned hc)

end KeptByReading

/-! ### Handling responses -/

/-- **What handling a response does**, before the limits are looked at: it raises, or goes on to the
next response, or drops an order, or books a fill. -/
theorem triple_handleResponse {checkLimits : ℤ → ClientM Unit} {response : OeResponse}
    {P Q E : OrderEntryClient → Prop} {R : ℤ → OrderEntryClient → Prop}
    (hraised : ∀ c, P c → ¬ response.Harmless → E c)
    (hpassed : ∀ c, P c → response.Harmless →
      (∀ orderId, response.Closes orderId → c.openOrders.get? orderId = none) ∧
        (∀ m, response = .fill m → c.openOrders.get? m.orderId = none) →
      Q (c.onRecord Record.take))
    (hpopped : ∀ c orderId, P c → response.Harmless →
      response.Closes orderId ∧ (∀ m, response ≠ .fill m) →
      Q ((c.onRecord Record.take).popOrder orderId))
    (hbooked : ∀ c m flags entry, P c → response = .fill m →
      FillFlags.ofValue? m.flags = some flags → c.openOrders.get? m.orderId = some entry →
      R entry.symbol (c.bookFill entry m flags))
    (hchecked : ∀ symbol, Method.Triple (R symbol) (checkLimits symbol) (fun _ ↦ Q) E) :
    Method.Triple P (handleResponse checkLimits response) (fun _ ↦ Q) E := by
  unfold handleResponse
  cases response with
  | reject m =>
    dsimp only
    rcases hreason : RejectReason.ofValue? m.rejectReason with - | reason
    · exact Method.triple_throw _ fun c hc ↦ hraised c hc fun h ↦ by cases hreason.symm.trans h
    · dsimp only
      split
      · rename_i heq
        have hunknown := hreason.trans (congrArg some heq)
        exact Method.triple_modify fun c hc ↦ hpopped c _ hc hunknown ⟨⟨hunknown, rfl⟩, nofun⟩
      · rename_i hne
        exact Method.triple_throw _ fun c hc ↦ hraised c hc fun h ↦
          hne (Option.some.inj (hreason.symm.trans h))
  | fill m =>
    dsimp only
    rcases hflags : FillFlags.ofValue? m.flags with - | flags
    · refine Method.triple_throw _ fun c hc ↦ hraised c hc fun h ↦ ?_
      rw [OeResponse.Harmless, hflags] at h
      cases h
    · refine Method.triple_get fun c hc ↦ ?_
      rcases hentry : c.openOrders.get? m.orderId with - | entry
      -- a fill of an order that is not open
      · refine Method.triple_modify ?_
        rintro _ rfl
        refine hpassed _ hc (Option.isSome_iff_exists.2 ⟨flags, hflags⟩) ⟨?_, ?_⟩
        · exact fun orderId hcloses ↦ hcloses.2 ▸ hentry
        · rintro m' hm
          cases hm
          exact hentry
      · refine Method.Triple.bind (R := fun _ ↦ R entry.symbol) (Method.triple_modify ?_)
          fun _ ↦ hchecked entry.symbol
        rintro _ rfl
        exact hbooked _ m flags entry hc rfl hflags hentry
  | closed m => exact Method.triple_modify fun c hc ↦ hpopped c _ hc trivial ⟨rfl, nofun⟩
  | _ => exact Method.triple_modify fun c hc ↦ hpassed c hc trivial ⟨fun _ h ↦ h.elim, nofun⟩

/-- Handling a response, and the end of a list of them, keep an invariant. -/
structure KeptByHandling (I : OrderEntryClient → Prop) : Prop where
  taken : ∀ {c}, I c → I (c.onRecord Record.take)
  popped : ∀ {c} (orderId : ℤ), I c → I (c.popOrder orderId)
  booked : ∀ {c : OrderEntryClient} {m : OrderFill} {entry : OeConfig} (flags : FillFlags),
    c.openOrders.get? m.orderId = some entry → I c → I (c.bookFill entry m flags)
  finished : ∀ {c}, I c → I (c.onRecord Record.closeBatch)
  abandoned : ∀ {c}, I c → I c.abandonBatch

namespace KeptByHandling

variable (h : KeptByHandling I)

include h

/-- One response, with whatever the check of the limits does. -/
theorem handleResponse {checkLimits : ℤ → ClientM Unit}
    (hcheck : ∀ symbol, Method.Keeps I (checkLimits symbol)) (response : OeResponse) :
    Method.Keeps I (handleResponse checkLimits response) := by
  refine Method.keeps_iff_triple.2 (triple_handleResponse (R := fun _ ↦ I) (fun _ hc _ ↦ hc)
    (fun c hc _ _ ↦ h.taken hc) (fun c orderId hc _ _ ↦ h.popped orderId (h.taken hc))
    (fun c m flags entry hc _ _ hentry ↦ h.booked flags hentry hc) fun symbol ↦ ?_)
  exact Method.keeps_iff_triple.1 (hcheck symbol)

/-- All of a batch, or up to the first exception. -/
theorem processWith {checkLimits : ℤ → ClientM Unit}
    (hcheck : ∀ symbol, Method.Keeps I (checkLimits symbol)) (responses : List OeResponse) :
    Method.Keeps I (processWith checkLimits responses) := by
  refine Method.Keeps.onExit (Method.keeps_all fun m hm ↦ ?_) (fun _ hc ↦ h.finished hc)
    fun _ hc ↦ h.abandoned hc
  obtain ⟨response, -, rfl⟩ := List.mem_map.1 hm
  exact h.handleResponse hcheck response

/-! ### The recursion -/

variable (hrequest : ∀ process : List OeResponse → ClientM Unit,
  (∀ responses, Method.Keeps I (process responses)) → KeepsOpen I (deleteOrderWith process))

include hrequest

/-- **However deep a cancel nests**, it keeps what one request keeps. -/
theorem deleteOrderN (n : ℕ) : KeepsOpen I (deleteOrderN n) := by
  induction n with
  | zero => exact hrequest _ (h.processWith fun _ ↦ Method.keeps_pure _)
  | succ n ih =>
    exact hrequest _ (h.processWith fun symbol ↦ keeps_checkLimitsWith ih.cancelAllWith symbol)

/-- **Cancelling everything keeps it**, however deep the cancels nest. -/
theorem cancelAllOrders : Method.Keeps I cancelAllOrders :=
  fun c ↦ (h.deleteOrderN hrequest c.arrivals).cancelAllWith c

theorem checkLimits (symbol : ℤ) : Method.Keeps I (checkLimits symbol) :=
  keeps_checkLimitsWith (h.cancelAllOrders hrequest) symbol

theorem processResponses (responses : List OeResponse) :
    Method.Keeps I (processResponses responses) :=
  h.processWith (h.checkLimits hrequest) responses

end KeptByHandling

end OrderEntryClient

end HftTrading.OrderEntry
