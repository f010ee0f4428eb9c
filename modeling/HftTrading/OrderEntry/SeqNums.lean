import HftTrading.OrderEntry.RoundTrip
import HftTrading.OrderEntry.Sent

/-!
# Sequence numbers on the wire

One counter numbers the requests, and `_make_header` moves it before the request is packed and sent.
So the numbers on the wire are consecutive as long as every number that is taken is sent. A header
is followed by its message in all but four cases. The connection is gone, or no header fits the wire
any more: then nothing is sent ever again (`Mute`). A side or a flag has no name, or a field does
not fit: the request raises before it is sent. And an order that the risk check refuses takes a
number for the reject that is made up locally, where the other local rejects carry zero.

`Sends` says of a call that the last two do not happen to it. Between a header and its message the
number is `Due`, and everywhere else the numbers are those sent (`Numbered`), however deep the kill
switch nests. So a run of such calls sends the numbers from one on (`consecutive_runCalls`).

## Reading the numbers back

The statement is about the bytes on the connection: the number of a message is what its header
unpacks to. That a message which was packed from a header carries the header's number comes from the
codec, once for all requests (`pack_of_fits` and what follows it).

## Cancels of open orders

A cancel that the kill switch sends is packed with the id of an open order. Such an id fits if the
request that placed the order could be packed, which the condition on the calls asks for; the
invariant says so of all ids in the map (`IdsFit`). That is why the cancels need no condition.
-/

namespace HftTrading.OrderEntry

open Struct (Field Value)

/-! ### The number of a message -/

/-- The sequence number in the header of a request on the wire. -/
def seqNumOf (msg : List UInt8) : Option ℕ :=
  (OeRequestHeader.unpack msg).map OeRequestHeader.seqNum

section

variable {header : OeRequestHeader} {tail : List Field} {rest : List Value} {data : List UInt8}

/-- **A header fits** if each of its fields does. -/
theorem header_fits_iff (header : OeRequestHeader) : OeRequestHeader.record.Fits header ↔
    header.length < 256 ^ 2 ∧ (0 ≤ header.msgType ∧ header.msgType < 256 ^ 1) ∧
      header.version < 256 ^ 1 ∧ header.seqNum < 256 ^ 4 ∧
      (0 ≤ header.clientId ∧ header.clientId < 256 ^ 4) ∧ header.sessionId < 256 ^ 8 := by
  show Struct.Fits OeRequestHeader.FORMAT header.fields ↔ _
  simp only [OeRequestHeader.FORMAT, OeRequestHeader.fields, Struct.Fits, Struct.Field.Fits,
    Int.natCast_nonneg, true_and, and_true]
  norm_cast

/-- What is packed behind a header fits, and so does the header, which can be read back. -/
theorem header_of_pack
    (h : Struct.pack (OeRequestHeader.FORMAT ++ tail) (header.fields ++ rest) = some data) :
    OeRequestHeader.record.Fits header ∧ Struct.Fits tail rest ∧
      seqNumOf data = some header.seqNum := by
  have hlength : header.fields.length = OeRequestHeader.FORMAT.length := rfl
  obtain ⟨hheader, htail⟩ := (Struct.fits_append hlength).1 (Struct.fits_of_pack h)
  obtain ⟨head, after, hhead, rfl⟩ := Struct.pack_append hlength h
  have hwire : OeRequestHeader.record.fields header =
      Struct.wire OeRequestHeader.FORMAT (OeRequestHeader.record.fields header) := rfl
  obtain ⟨packet, hpacket, -, hunpack⟩ :=
    Struct.Record.unpack_pack (R := OeRequestHeader.record.toRecord) hheader hwire after
  obtain rfl := Option.some.inj (hhead.symm.trans hpacket)
  refine ⟨hheader, htail, ?_⟩
  have hread : OeRequestHeader.unpack (head ++ after) = some header := hunpack
  rw [seqNumOf, hread]
  rfl

/-- A header that fits, before fields that do, is packed. -/
theorem pack_of_fits (hheader : OeRequestHeader.record.Fits header)
    (htail : Struct.Fits tail rest) :
    ∃ data, Struct.pack (OeRequestHeader.FORMAT ++ tail) (header.fields ++ rest) = some data := by
  have hlength : header.fields.length = OeRequestHeader.FORMAT.length := rfl
  obtain ⟨data, hdata, -⟩ :=
    Struct.unpack_pack ((Struct.fits_append hlength).2 ⟨hheader, htail⟩)
  exact ⟨data, hdata⟩

end

namespace OrderEntryClient

variable {c c' : OrderEntryClient}

/-! ### Numbers taken and numbers sent -/

/-- **The numbers on the wire** are consecutive, from one on. -/
def Consecutive (c : OrderEntryClient) : Prop :=
  c.sent.map seqNumOf = (List.range' 1 c.sent.length).map some

instance (c : OrderEntryClient) : Decidable (Consecutive c) :=
  inferInstanceAs (Decidable (_ = _))

/-- Nothing can be sent: there is no connection, or it is lost. -/
def CutOff (c : OrderEntryClient) : Prop :=
  ∀ s, c.socket = some s → s.incoming.head? = some .reset

/-- The header made next fits its format. -/
structure HeaderFits (c : OrderEntryClient) : Prop where
  seqNum : c.seqNum + 1 < 256 ^ 4
  clientId_nonneg : 0 ≤ c.clientId
  clientId_lt : c.clientId < 256 ^ 4

/-- Nothing will be sent on the connection any more. -/
def Mute (c : OrderEntryClient) : Prop := CutOff c ∨ ¬ HeaderFits c

/-- An order id that a cancel can carry. -/
def IdFits (orderId : ℤ) : Prop := Struct.Fits [.unsigned 8] [.int orderId]

/-- Every open order can be cancelled. -/
def IdsFit (openOrders : Dict ℤ OeConfig) : Prop :=
  ∀ orderId entry, openOrders.get? orderId = some entry → IdFits orderId

theorem IdsFit.erase {openOrders : Dict ℤ OeConfig} (h : IdsFit openOrders) (orderId : ℤ) :
    IdsFit (openOrders.erase orderId) := by
  intro orderId' entry hentry
  rw [Dict.get?_erase] at hentry
  split at hentry
  · cases hentry
  · exact h orderId' entry hentry

theorem IdsFit.insert {openOrders : Dict ℤ OeConfig} (h : IdsFit openOrders) {orderId : ℤ}
    (hid : IdFits orderId) (entry : OeConfig) : IdsFit (openOrders.insert orderId entry) := by
  intro orderId' entry' hentry
  rw [Dict.get?_insert] at hentry
  split at hentry
  · rename_i heq
    exact heq ▸ hid
  · exact h orderId' entry' hentry

/-- **All numbers taken have been sent**, unless nothing can be sent. -/
structure Numbered (c : OrderEntryClient) : Prop where
  consecutive : Consecutive c
  counted : c.seqNum = c.sent.length ∨ Mute c
  ids : IdsFit c.openOrders
  sessionId_lt : c.sessionId < 256 ^ 8

/-- **One number is taken** for the message that is sent next. -/
structure Due (c : OrderEntryClient) : Prop where
  consecutive : Consecutive c
  counted : c.seqNum = c.sent.length + 1 ∨ CutOff c
  ids : IdsFit c.openOrders
  sessionId_lt : c.sessionId < 256 ^ 8

/-- Nothing sent, no number taken, and the same session. -/
structure Quiet (c c' : OrderEntryClient) : Prop where
  sent : c'.sent = c.sent
  cutOff : CutOff c → CutOff c'
  seqNum : c'.seqNum = c.seqNum
  clientId : c'.clientId = c.clientId
  sessionId : c'.sessionId = c.sessionId

/-- A step that leaves the connection and the counter alone. -/
theorem quiet_of_socket (hsocket : c'.socket = c.socket) (hseqNum : c'.seqNum = c.seqNum)
    (hclientId : c'.clientId = c.clientId) (hsessionId : c'.sessionId = c.sessionId) :
    Quiet c c' :=
  ⟨sent_of_socket hsocket, fun hcut s hs ↦ hcut s (hsocket ▸ hs), hseqNum, hclientId, hsessionId⟩

/-- The numbers are those of what has been sent. -/
theorem Consecutive.congr (h : Consecutive c) (hsent : c'.sent = c.sent) : Consecutive c' := by
  unfold Consecutive at h ⊢
  rwa [hsent]

/-- Nothing is sent and no number taken. -/
theorem Numbered.congr (h : Numbered c) (hquiet : Quiet c c') (hids : IdsFit c'.openOrders) :
    Numbered c' := by
  refine ⟨h.consecutive.congr hquiet.sent, ?_, hids, hquiet.sessionId ▸ h.sessionId_lt⟩
  rcases h.counted with hcounted | hcut | hunfit
  · exact .inl (by rw [hquiet.seqNum, hquiet.sent, hcounted])
  · exact .inr (.inl (hquiet.cutOff hcut))
  · refine .inr (.inr fun hfits ↦ hunfit ?_)
    exact ⟨hquiet.seqNum ▸ hfits.seqNum, hquiet.clientId ▸ hfits.clientId_nonneg,
      hquiet.clientId ▸ hfits.clientId_lt⟩

theorem Due.congr (h : Due c) (hquiet : Quiet c c') (hids : IdsFit c'.openOrders) : Due c' := by
  refine ⟨h.consecutive.congr hquiet.sent, ?_, hids, hquiet.sessionId ▸ h.sessionId_lt⟩
  rcases h.counted with hcounted | hcut
  · exact .inl (by rw [hquiet.seqNum, hquiet.sent, hcounted])
  · exact .inr (hquiet.cutOff hcut)

/-! ### Reading and handling -/

/-- **Reading takes no number and sends nothing.** -/
theorem numbered_keptByReading : KeptByReading Numbered where
  took {c s s'} hs htook hc := by
    have hcut : CutOff c → CutOff (setSocket s' c) := by
      intro hcut t ht
      obtain rfl := Option.some.inj ht
      exact htook.reset (hcut s hs)
    have hsent : (setSocket s' c).sent = c.sent := htook.sent.trans (sent_of_some hs).symm
    exact hc.congr ⟨hsent, hcut, rfl, rfl, rfl⟩ hc.ids
  blocking {c} blocking hc := by
    have hcut : CutOff c → CutOff (c.setBlocking blocking) := by
      intro hcut t ht
      obtain ⟨s, hs, rfl⟩ := Option.map_eq_some_iff.1 ht
      exact hcut s hs
    exact hc.congr ⟨sent_setBlocking blocking c, hcut, rfl, rfl, rfl⟩ hc.ids
  counted _ hc := hc.congr (quiet_of_socket rfl rfl rfl rfl) hc.ids
  sent _ hc := hc.congr (quiet_of_socket rfl rfl rfl rfl) hc.ids
  opened hc := hc.congr (quiet_of_socket rfl rfl rfl rfl) hc.ids
  read _ hc := hc.congr (quiet_of_socket rfl rfl rfl rfl) hc.ids
  abandoned hc := hc.congr (quiet_of_socket rfl rfl rfl rfl) hc.ids

theorem quiet_popOrder (orderId : ℤ) (c : OrderEntryClient) : Quiet c (c.popOrder orderId) := by
  unfold popOrder
  split
  · exact quiet_of_socket rfl rfl rfl rfl
  · exact quiet_of_socket rfl rfl rfl rfl

theorem Numbered.popOrder (h : Numbered c) (orderId : ℤ) : Numbered (c.popOrder orderId) := by
  refine h.congr (quiet_popOrder orderId c) ?_
  rw [(openOrders_popOrder orderId c).1]
  exact h.ids.erase orderId

/-- **Handling takes no number and sends nothing**, apart from what it cancels. -/
theorem numbered_keptByHandling : KeptByHandling Numbered where
  taken hc := hc.congr (quiet_of_socket rfl rfl rfl rfl) hc.ids
  popped orderId hc := hc.popOrder orderId
  booked {c m entry} flags hentry hc := by
    have hquiet : Quiet c (c.bookFill entry m flags) := by
      unfold bookFill
      rw [bookTrackers_eq]
      exact quiet_of_socket rfl rfl rfl rfl
    refine hc.congr hquiet ?_
    rw [openOrders_bookFill]
    split
    · exact hc.ids.erase m.orderId
    · exact hc.ids.insert (hc.ids m.orderId entry hentry) _
  finished hc := hc.congr (quiet_of_socket rfl rfl rfl rfl) hc.ids
  abandoned hc := hc.congr (quiet_of_socket rfl rfl rfl rfl) hc.ids

/-! ### One request -/

/-- **A number that is due** is sent, or nothing ever is. -/
theorem numbered_sendRaw (msg : List UInt8) :
    Method.Triple (fun c ↦ Due c ∧ seqNumOf msg = some c.seqNum) (sendRaw msg)
      (fun _ ↦ Numbered) Numbered := by
  rintro c ⟨hdue, hmsg⟩
  have hcutOff : CutOff c → Numbered c := fun hcut ↦
    ⟨hdue.consecutive, .inr (.inl hcut), hdue.ids, hdue.sessionId_lt⟩
  rcases hs : c.socket with - | s
  -- without a connection nothing is ever sent again
  · rw [sendRaw, onSocket_of_none hs]
    refine hcutOff fun s hs' ↦ ?_
    cases hs.symm.trans hs'
  have hput : setSocket s c = c := by
    unfold setSocket
    rw [← hs]
  rw [sendRaw, onSocket_of_some hs]
  by_cases hreset : s.incoming.head? = some .reset
  -- nor over one that is reset
  · have hrun : Socket.sendall msg s = .error .connectionReset s := if_pos hreset
    rw [Method.focus_error hrun, hput]
    refine hcutOff fun t ht ↦ ?_
    obtain rfl := Option.some.inj (hs.symm.trans ht)
    exact hreset
  · have hrun : Socket.sendall msg s = .ok () { s with sent := s.sent ++ [msg] } := if_neg hreset
    rw [Method.focus_ok hrun]
    have hsent : (setSocket { s with sent := s.sent ++ [msg] } c).sent = c.sent ++ [msg] :=
      congrArg (· ++ [msg]) (sent_of_some hs).symm
    have hcounted : c.seqNum = c.sent.length + 1 :=
      hdue.counted.resolve_right fun hcut ↦ hreset (hcut s hs)
    refine ⟨?_, .inl ?_, hdue.ids, hdue.sessionId_lt⟩
    · have hconsecutive := hdue.consecutive
      unfold Consecutive at hconsecutive ⊢
      rw [hsent, List.map_append, hconsecutive, List.map_singleton, hmsg, hcounted,
        List.length_append, List.length_singleton, List.range'_concat, List.map_append,
        List.map_singleton, Nat.one_mul, Nat.add_comm 1]
    · rw [hsent, List.length_append]
      exact hcounted

/-- What the next request packs to, if the fields behind its header fit. -/
inductive Request.Packed (c : OrderEntryClient) : Option (List UInt8) → Prop
  | intro {tail : List Field} {rest : List Value} (htail : Struct.Fits tail rest)
      (msgType : MsgType) {length : ℕ} (hlength : length < 256 ^ 2) :
      Request.Packed c (Struct.pack (OeRequestHeader.FORMAT ++ tail)
        ((c.nextHeader msgType length).fields ++ rest))

/-- **A header** is due with its message. -/
theorem numbered_packed (hc : Numbered c) {packet : Option (List UInt8)}
    (hpacket : Request.Packed c packet) :
    Method.Triple
      (fun t ↦ Quiet { c with seqNum := c.seqNum + 1 } t ∧ IdsFit t.openOrders) (packed packet)
      (fun data t ↦ Due t ∧ seqNumOf data = some t.seqNum) Numbered := by
  obtain ⟨htail, msgType, hlength⟩ := hpacket
  rename_i tail rest length
  generalize hpack : Struct.pack (OeRequestHeader.FORMAT ++ tail)
    ((c.nextHeader msgType length).fields ++ rest) = packet
  rintro t ⟨hquiet, hids⟩
  have hfits : HeaderFits c → OeRequestHeader.record.Fits (c.nextHeader msgType length) := by
    intro hheader
    have hmsgType : 0 ≤ msgType.value ∧ msgType.value < 256 ^ 1 := by cases msgType <;> decide
    have hversion : OE_PROTOCOL_VERSION < 256 ^ 1 := by decide
    exact (header_fits_iff _).2 ⟨hlength, hmsgType, hversion, hheader.seqNum,
      ⟨hheader.clientId_nonneg, hheader.clientId_lt⟩, hc.sessionId_lt⟩
  rcases packet with - | data
  -- no header fits any more
  · have hunfit : ¬ HeaderFits c := by
      intro hheader
      obtain ⟨data, hdata⟩ := pack_of_fits (hfits hheader) htail
      cases hpack.symm.trans hdata
    have hnext : Numbered { c with seqNum := c.seqNum + 1 } := by
      refine ⟨hc.consecutive, .inr (.inr fun hheader ↦ hunfit ?_), hc.ids, hc.sessionId_lt⟩
      exact ⟨(Nat.lt_succ_self _).trans hheader.seqNum, hheader.clientId_nonneg,
        hheader.clientId_lt⟩
    exact hnext.congr hquiet hids
  -- the number that the message starts with is the one just taken
  · obtain ⟨hheader, -, hseqNum⟩ := header_of_pack hpack
    have hfit : HeaderFits c := by
      obtain ⟨-, -, -, hseqNum, ⟨hnonneg, hlt⟩, -⟩ := (header_fits_iff _).1 hheader
      exact ⟨hseqNum, hnonneg, hlt⟩
    have hnext : Due { c with seqNum := c.seqNum + 1 } := by
      refine ⟨hc.consecutive, ?_, hc.ids, hc.sessionId_lt⟩
      rcases hc.counted with hcounted | hcut | hunfit
      · exact .inl (congrArg (· + 1) hcounted)
      · exact .inr hcut
      · exact absurd hfit hunfit
    refine ⟨hnext.congr hquiet hids, ?_⟩
    rw [hseqNum, hquiet.seqNum]
    rfl

/-- **A request**, from its header on: however its responses are handled, if that keeps the numbers
sent. -/
theorem numbered_request (hc : Numbered c) {packet : Option (List UInt8)}
    (hpacket : Request.Packed c packet) {process : List OeResponse → ClientM Unit}
    (hprocess : ∀ responses, Method.Keeps Numbered (process responses))
    {finish : List OeResponse → ClientM (List OeResponse)}
    (hfinish : ∀ responses, Method.Keeps Numbered (finish responses)) (seqNum : ℕ) (orderId : ℤ) :
    Method.Triple
      (fun t ↦ Quiet { c with seqNum := c.seqNum + 1 } t ∧ IdsFit t.openOrders)
      (do
        let data ← packed packet
        let responses ← exchange seqNum orderId data
        process responses
        finish responses)
      (fun _ ↦ Numbered) Numbered := by
  refine (numbered_packed hc hpacket).bind fun data ↦ ?_
  have hsend := numbered_keptByReading.sendAndRecv (numbered_sendRaw data) fun _ hc ↦ hc
  have hexchange : Method.Triple (fun t ↦ Due t ∧ seqNumOf data = some t.seqNum)
      (exchange seqNum orderId data) (fun _ ↦ Numbered) Numbered := by
    refine hsend.bind fun responses ↦ Method.Triple.bind (R := fun _ ↦ Numbered)
      (Method.triple_modify fun t ht ↦ ?_) fun _ ↦ Method.triple_pure _ fun _ ht ↦ ht
    exact ht.congr (quiet_of_socket rfl rfl rfl rfl) ht.ids
  exact hexchange.bind fun responses ↦ (Method.keeps_iff_triple.1 (hprocess responses)).bind
    fun _ ↦ Method.keeps_iff_triple.1 (hfinish responses)

theorem quiet_refl (c : OrderEntryClient) : Quiet c c := quiet_of_socket rfl rfl rfl rfl

/-- **A cancel** of an order whose id fits. -/
theorem numbered_deleteOrderWith {process : List OeResponse → ClientM Unit}
    (hprocess : ∀ responses, Method.Keeps Numbered (process responses)) {orderId : ℤ}
    (hid : IdFits orderId) : Method.Keeps Numbered (deleteOrderWith process orderId) := by
  intro c hc
  have hpacket : Request.Packed c
      (DeleteOrder.pack ⟨c.nextHeader .deleteOrder DeleteOrder.SIZE, orderId⟩) :=
    .intro hid .deleteOrder (by decide)
  rw [deleteOrderWith, Method.after_bind_of_ok (makeHeader_eq _ _ c)]
  revert hpacket
  generalize DeleteOrder.pack ⟨c.nextHeader .deleteOrder DeleteOrder.SIZE, orderId⟩ = packet
  intro hpacket
  exact Method.triple_iff_after.1 (numbered_request hc hpacket hprocess
    (fun responses ↦ Method.keeps_pure responses) _ orderId) _ ⟨quiet_refl _, hc.ids⟩

/-- Only orders that are open are cancelled, and their ids fit. -/
theorem numbered_cancel (process : List OeResponse → ClientM Unit)
    (hprocess : ∀ responses, Method.Keeps Numbered (process responses)) :
    KeepsOpen Numbered (deleteOrderWith process) := by
  intro orderId c hopen hc
  obtain ⟨entry, hentry⟩ := Dict.contains_eq_true_iff.1 hopen
  exact numbered_deleteOrderWith hprocess (hc.ids orderId entry hentry) c hc

/-- The handling of any responses, kill switch and all. -/
theorem numbered_process (responses : List OeResponse) :
    Method.Keeps Numbered (processResponses responses) :=
  numbered_keptByHandling.processResponses numbered_cancel responses

theorem numbered_deleteOrder {orderId : ℤ} (hid : IdFits orderId) :
    Method.Keeps Numbered (deleteOrder orderId) := by
  rw [deleteOrder_eq]
  exact numbered_deleteOrderWith numbered_process hid

/-- **A new order** that the check has approved, whose side and flags have names. -/
theorem numbered_submitNewOrder {orderId symbol side quantity price flags : ℤ}
    (hside : (Side.ofValue? side).isSome) (hflags : (OrderFlags.ofValue? flags).isSome)
    (hfits : Struct.Fits
      [.unsigned 8, .unsigned 4, .unsigned 1, .unsigned 4, .signed 4, .unsigned 1]
      [.int orderId, .int symbol, .int side, .int quantity, .int price, .int flags]) :
    Method.Keeps Numbered (submitNewOrder orderId symbol side quantity price flags) := by
  intro c hc
  have hpacket : Request.Packed c (NewOrder.pack
      ⟨c.nextHeader .newOrder NewOrder.SIZE, orderId, symbol, side, quantity, price, flags⟩) :=
    .intro hfits .newOrder (by decide)
  have hid : IdFits orderId := ⟨hfits.1, trivial⟩
  rw [submitNewOrder, Method.after_bind_of_ok (makeHeader_eq _ _ c),
    Method.after_bind_of_ok (nameOf_of_isSome _ hside _),
    Method.after_bind_of_ok (nameOf_of_isSome _ hflags _),
    Method.after_bind_of_ok (Method.modify_apply _ _)]
  revert hpacket
  generalize NewOrder.pack
    ⟨c.nextHeader .newOrder NewOrder.SIZE, orderId, symbol, side, quantity, price, flags⟩ = packet
  intro hpacket
  exact Method.triple_iff_after.1 (numbered_request hc hpacket numbered_process
    (fun responses ↦ Method.keeps_pure responses) _ orderId) _
    ⟨quiet_of_socket rfl rfl rfl rfl, hc.ids.insert hid _⟩

/-- A modify rewrites its entry under an id that is there. -/
theorem numbered_settleModify {orderId side quantity price : ℤ} (first : OeResponse)
    (hc : Numbered c) : Numbered (c.settleModify orderId side quantity price first) := by
  unfold settleModify
  cases first with
  | ack m =>
    show Numbered (c.rewriteEntry orderId side quantity price)
    unfold rewriteEntry
    rcases hentry : c.openOrders.get? orderId with - | entry
    · exact hc
    · exact hc.congr (quiet_of_socket rfl rfl rfl rfl)
        (hc.ids.insert (hc.ids orderId entry hentry) _)
  | closed m => exact hc.popOrder orderId
  | reject m =>
    dsimp only
    split
    · exact hc.popOrder orderId
    · exact hc
  | _ => exact hc

/-- **A modification** of an open order. -/
theorem numbered_modifyOrder {orderId side quantity price : ℤ} (hc : Numbered c)
    (h : c.openOrders.contains orderId = true → (Side.ofValue? side).isSome ∧
      Struct.Fits [.unsigned 8, .unsigned 1, .unsigned 4, .signed 4]
        [.int orderId, .int side, .int quantity, .int price]) :
    Numbered ((modifyOrder orderId side quantity price).after c) := by
  rw [modifyOrder, Method.after_bind_of_ok (Method.get_apply c)]
  split
  · rename_i hopen
    obtain ⟨hside, hfits⟩ := h hopen
    have hpacket : Request.Packed c (ModifyOrder.pack
        ⟨c.nextHeader .modifyOrder ModifyOrder.SIZE, orderId, side, quantity, price⟩) :=
      .intro hfits .modifyOrder (by decide)
    rw [Method.after_bind_of_ok (makeHeader_eq _ _ c),
      Method.after_bind_of_ok (nameOf_of_isSome _ hside _)]
    revert hpacket
    generalize ModifyOrder.pack
      ⟨c.nextHeader .modifyOrder ModifyOrder.SIZE, orderId, side, quantity, price⟩ = packet
    intro hpacket
    refine Method.triple_iff_after.1 (numbered_request hc hpacket numbered_process
      (fun responses ↦ ?_) _ orderId) _ ⟨quiet_refl _, hc.ids⟩
    rcases responses with - | ⟨first, rest⟩
    · exact Method.keeps_pure _
    · exact (Method.keeps_modify fun c hc ↦ numbered_settleModify first hc).bind fun _ ↦
        Method.keeps_pure _
  · exact hc

/-! ### Logging in -/

/-- What is read is what its message type makes of the data. -/
theorem triple_parseResponse (data : List UInt8) :
    Method.Triple (fun _ ↦ True) (parseResponse data)
      (fun response _ ↦ ∃ hdr, ∃ msgType : MsgType, msgType.unpack hdr data = some response)
      fun _ ↦ True := by
  unfold parseResponse
  rcases OeResponseHeader.unpack data with - | hdr
  · exact Method.triple_throw _ fun _ _ ↦ trivial
  refine Method.Triple.bind (R := fun _ _ ↦ True)
    ((Method.triple_trivial _).weaken (fun _ h ↦ h) (fun _ _ h ↦ h) fun _ h ↦ h) fun _ ↦
    Method.Triple.bind (R := fun _ _ ↦ True) (Method.triple_modify fun _ _ ↦ trivial) fun _ ↦ ?_
  rcases MsgType.ofValue? hdr.msgType with - | msgType
  · exact Method.triple_throw _ fun _ _ ↦ trivial
  dsimp only
  rcases hresponse : msgType.unpack hdr data with - | response
  · exact Method.triple_throw _ fun _ _ ↦ trivial
  · exact Method.Triple.bind (R := fun _ _ ↦ True) (Method.triple_modify fun _ _ ↦ trivial)
      fun _ ↦ Method.triple_pure _ fun _ _ ↦ ⟨hdr, msgType, hresponse⟩

/-- A login is answered by something that unpacks. -/
theorem triple_exchangeLogin (data : List UInt8) :
    Method.Triple (fun _ ↦ True) (exchangeLogin data)
      (fun response _ ↦ ∃ hdr, ∃ msgType : MsgType, ∃ data, msgType.unpack hdr data = some response)
      fun _ ↦ True := by
  have hreceive : Method.Triple (fun _ ↦ True) receive
      (fun response _ ↦ ∃ hdr, ∃ msgType : MsgType, ∃ data, msgType.unpack hdr data = some response)
      fun _ ↦ True := by
    refine (Method.triple_trivial _).bind fun data ↦ (triple_parseResponse data).weaken
      (fun _ h ↦ h) (fun response _ h ↦ ?_) fun _ h ↦ h
    obtain ⟨hdr, msgType, hresponse⟩ := h
    exact ⟨hdr, msgType, data, hresponse⟩
  exact (Method.triple_trivial _).bind fun _ ↦ Method.Triple.bind (R := fun _ _ ↦ True)
    (Method.triple_modify fun _ _ ↦ trivial) fun _ ↦
    hreceive.onExit (fun _ _ h ↦ h) fun _ h ↦ h

/-- A session id that is read fits. -/
theorem sessionId_lt_of_unpack {msgType : MsgType} {hdr : OeResponseHeader} {data : List UInt8}
    {m : LoginResponse} (h : msgType.unpack hdr data = some (.loginResponse m)) :
    m.sessionId < 256 ^ 8 := by
  have hunpack : LoginResponse.unpack data = some m := by
    cases msgType with
    | loginResponse =>
      obtain ⟨m', hm', heq⟩ := Option.map_eq_some_iff.1 h
      cases heq
      exact hm'
    | ack | reject | fill | close | error =>
      obtain ⟨m', -, heq⟩ := Option.map_eq_some_iff.1 h
      cases heq
    | _ => cases h
  have hfits : Struct.Fits (OeResponseHeader.FORMAT ++ [.unsigned 8, .unsigned 1])
      (m.header.fields ++ [.int m.sessionId, .int m.status]) :=
    (Struct.Record.pack_unpack (R := LoginResponse.record.toRecord) hunpack).1
  obtain ⟨-, ⟨-, hlt⟩, -⟩ := (Struct.fits_append rfl).1 hfits
  exact_mod_cast hlt

/-- A login that is due is sent, and the session id of its answer fits. -/
theorem numbered_exchangeLogin (data : List UInt8) :
    Method.Triple (fun t ↦ Due t ∧ seqNumOf data = some t.seqNum) (exchangeLogin data)
      (fun response t ↦ Numbered t ∧ ∀ m, response = .loginResponse m → m.sessionId < 256 ^ 8)
      Numbered := by
  intro t ht
  have hnumbered := numbered_keptByReading.exchangeLogin (numbered_sendRaw data)
    (fun _ hc ↦ hc) t ht
  have hread := triple_exchangeLogin data t trivial
  rcases hrun : exchangeLogin data t with ⟨response, t'⟩ | ⟨e, t'⟩
  · rw [hrun] at hnumbered hread
    obtain ⟨hdr, msgType, data, hunpack⟩ := hread
    exact ⟨hnumbered, fun m hm ↦ sessionId_lt_of_unpack (hm ▸ hunpack)⟩
  · rw [hrun] at hnumbered
    exact hnumbered

/-- Another session id counts as well. -/
theorem Numbered.withSessionId (h : Numbered c) {sessionId : ℕ} (hsession : sessionId < 256 ^ 8) :
    Numbered { c with sessionId := sessionId } := by
  refine ⟨h.consecutive, ?_, h.ids, hsession⟩
  rcases h.counted with hcounted | hcut | hunfit
  · exact .inl hcounted
  · exact .inr (.inl hcut)
  · exact .inr (.inr fun hfits ↦ hunfit ⟨hfits.1, hfits.2, hfits.3⟩)

/-- **A login** takes its number and sends it, and sets the session id to one that fits. -/
theorem numbered_login : Method.Keeps Numbered login := by
  intro c hc
  have hbytes : Struct.Fits [.bytes 16, .bytes 16] [.bytes c.username, .bytes c.password] :=
    ⟨trivial, trivial, trivial⟩
  have hpacket : Request.Packed c
      (Login.pack ⟨c.nextHeader .login Login.SIZE, c.username, c.password⟩) :=
    .intro hbytes .login (by decide)
  rw [login, Method.after_bind_of_ok (Method.get_apply c),
    Method.after_bind_of_ok (makeHeader_eq _ _ c)]
  revert hpacket
  generalize Login.pack ⟨c.nextHeader .login Login.SIZE, c.username, c.password⟩ = packet
  intro hpacket
  refine Method.triple_iff_after.1 ((numbered_packed hc hpacket).bind fun data ↦
    (numbered_exchangeLogin data).bind fun response ↦ ?_) _ ⟨quiet_refl _, hc.ids⟩
  -- whatever the answer is, the number has been sent
  cases response with
  | loginResponse m =>
    dsimp only
    rcases LoginStatus.ofValue? m.status with - | status
    · exact Method.triple_throw _ fun _ ht ↦ ht.1
    dsimp only
    split
    · exact Method.triple_throw _ fun _ ht ↦ ht.1
    · exact Method.Triple.bind (R := fun _ ↦ Numbered)
        (Method.triple_modify fun t ht ↦ ht.1.withSessionId (ht.2 m rfl))
        fun _ ↦ Method.triple_pure _ fun _ ht ↦ ht
  | _ => exact Method.triple_throw _ fun _ ht ↦ ht.1

/-! ### Runs -/

/-- A new order takes no number, or sends it: its id is open, or the risk check approves it, its
side and flags have names and its fields fit. -/
def SendsNewOrder (now : ℚ) (orderId symbol side quantity price flags : ℤ) (c : OrderEntryClient) :
    Prop :=
  c.openOrders.contains orderId = true ∨
    ((c.riskTracker.isValid symbol side quantity price c.openOrders c.positionTracker c.pnlTracker
        c.respSeq now).1.1 = true ∧
      (Side.ofValue? side).isSome ∧ (OrderFlags.ofValue? flags).isSome ∧
      ∃ header, (NewOrder.pack ⟨header, orderId, symbol, side, quantity, price, flags⟩).isSome)

/-- **Every number that a call takes is sent.** A session has no `reconnect`. -/
def Call.Sends : Call → OrderEntryClient → Prop
  | .newOrder now orderId symbol side quantity price flags, c =>
    SendsNewOrder now orderId symbol side quantity price flags c
  | .immediateOrCancel now orderId symbol side quantity price, c =>
    SendsNewOrder now orderId symbol side quantity price OrderFlags.ioc.value c
  | .deleteOrder orderId, _ => ∃ header, (DeleteOrder.pack ⟨header, orderId⟩).isSome
  | .modifyOrder orderId side quantity price, c =>
    c.openOrders.contains orderId = true → (Side.ofValue? side).isSome ∧
      ∃ header, (ModifyOrder.pack ⟨header, orderId, side, quantity, price⟩).isSome
  | .cancelAllOrders, _ | .login, _ => True
  | .reconnect, _ => False

/-- Every call of a run does, from the state it is made in. -/
def AllSend : List Call → OrderEntryClient → Prop
  | [], _ => True
  | call :: calls, c => call.Sends c ∧ AllSend calls (call.method.after c)

theorem numbered_newOrder {now : ℚ} {orderId symbol side quantity price flags : ℤ}
    (h : SendsNewOrder now orderId symbol side quantity price flags c) (hc : Numbered c) :
    Numbered ((newOrder now orderId symbol side quantity price flags).after c) := by
  rw [newOrder, Method.after_bind_of_ok (Method.get_apply c)]
  split
  · exact hc
  · rename_i hnew
    obtain ⟨hvalid, hside, hflags, header, hsome⟩ := h.resolve_left hnew
    obtain ⟨data, hdata⟩ := Option.isSome_iff_exists.1 hsome
    obtain ⟨-, hfits, -⟩ := header_of_pack hdata
    have hcheck : riskCheck now symbol side quantity price c = .ok true
        { c with riskTracker := (c.riskTracker.isValid symbol side quantity price c.openOrders
          c.positionTracker c.pnlTracker c.respSeq now).2 } := by
      rw [← hvalid]
      rfl
    rw [Method.after_bind_of_ok hcheck]
    exact numbered_submitNewOrder hside hflags hfits _
      (hc.congr (quiet_of_socket rfl rfl rfl rfl) hc.ids)

/-- **One call** of the kind sends every number it takes. -/
theorem Call.numbered {call : Call} (h : call.Sends c) (hc : Numbered c) :
    Numbered (call.method.after c) := by
  have hdiscard {α : Type} (m : ClientM α) : (discard m).after c = m.after c :=
    Method.after_bind_pure m (fun _ ↦ ()) c
  cases call with
  | newOrder =>
    rw [Call.method, hdiscard]
    exact numbered_newOrder h hc
  | immediateOrCancel =>
    rw [Call.method, hdiscard]
    exact numbered_newOrder h hc
  | deleteOrder orderId =>
    obtain ⟨header, hsome⟩ := h
    obtain ⟨data, hdata⟩ := Option.isSome_iff_exists.1 hsome
    rw [Call.method, hdiscard]
    exact numbered_deleteOrder (header_of_pack hdata).2.1 c hc
  | modifyOrder orderId side quantity price =>
    rw [Call.method, hdiscard]
    refine numbered_modifyOrder hc fun hopen ↦ ?_
    obtain ⟨hside, header, hsome⟩ := h hopen
    obtain ⟨data, hdata⟩ := Option.isSome_iff_exists.1 hsome
    exact ⟨hside, (header_of_pack hdata).2.1⟩
  | cancelAllOrders => exact numbered_keptByHandling.cancelAllOrders numbered_cancel c hc
  | login =>
    rw [Call.method, hdiscard]
    exact numbered_login c hc
  | reconnect => exact h.elim

/-- **Calls that send their numbers leave them consecutive.** -/
theorem numbered_runCalls {calls : List Call} (h : AllSend calls c) (hc : Numbered c) :
    Numbered (runCalls calls c) := by
  induction calls generalizing c with
  | nil => exact hc
  | cons call calls ih => exact ih h.2 (call.numbered h.1 hc)

/-- The start of a session: nothing sent, no number taken, no order open. -/
structure Fresh (c : OrderEntryClient) : Prop where
  sent : c.sent = []
  seqNum : c.seqNum = 0
  openOrders : c.openOrders = .empty
  sessionId : c.sessionId = 0

/-- A client that has just been made has taken no number. -/
theorem fresh_init (username password : List UInt8) (clientId pnlFloor positionCap : ℤ)
    (incoming : Option (List Arrival)) (network : List (Option (List Arrival))) :
    Fresh (init username password clientId pnlFloor positionCap (incoming.map .connected)
      network) := by
  refine ⟨?_, rfl, rfl, rfl⟩
  rcases incoming with - | incoming
  · rfl
  · rfl

theorem Fresh.numbered (h : Fresh c) : Numbered c := by
  refine ⟨?_, .inl ?_, ?_, ?_⟩
  · unfold Consecutive
    rw [h.sent]
    rfl
  · rw [h.seqNum, h.sent, List.length_nil]
  · rw [h.openOrders]
    exact fun orderId entry hentry ↦ by cases hentry
  · rw [h.sessionId]
    decide

/-- What is asked of a run is asked of its beginnings. -/
theorem AllSend.of_prefix_run {pre calls : List Call} (h : AllSend calls c) (hpre : pre <+: calls) :
    AllSend pre c := by
  induction pre generalizing c calls with
  | nil => exact trivial
  | cons call pre ih =>
    obtain ⟨post, rfl⟩ := hpre
    exact ⟨h.1, ih h.2 (List.prefix_append pre post)⟩

/-- **The numbers on the wire are consecutive, from one on**, in every state that a session reaches
whose calls send every number they take. -/
theorem consecutive_runCalls (hc : Fresh c) {calls : List Call} (h : AllSend calls c) :
    ∀ pre, pre <+: calls → Consecutive (runCalls pre c) :=
  fun _ hpre ↦ (numbered_runCalls (h.of_prefix_run hpre) hc.numbered).consecutive

/-- A login that is accepted, a buy that is acknowledged, the same id again, a cancel. -/
def oneSession : List Call :=
  [.login, .newOrder 0 1 5 1 1 100 0, .newOrder 0 1 5 1 1 100 0, .deleteOrder 1]

/-- The exchange's side of it. -/
def oneSessionClient : OrderEntryClient :=
  let lists : List (List OeResponse) :=
    [[.loginResponse ⟨⟨25, 100, 1, 1, 1, 7⟩, 77, 0⟩],
      [.ack ⟨⟨40, 101, 1, 2, 2, 7⟩, 1, 900, 1, 100⟩], [.closed ⟨⟨24, 104, 1, 3, 3, 7⟩, 1⟩]]
  init [] [] 7 (-20000) 10
    ((some (lists.flatMap fun responses ↦ Arrival.burst responses ++ [.pause])).map .connected) []

/-- Its three messages are numbered one, two and three. -/
theorem consecutive_runCalls_oneSession : Consecutive (runCalls oneSession oneSessionClient) := by
  have hheader : (NewOrder.pack ⟨⟨0, 0, 0, 0, 0, 0⟩, 1, 5, 1, 1, 100, 0⟩).isSome := by decide
  have hdelete : (DeleteOrder.pack ⟨⟨0, 0, 0, 0, 0, 0⟩, 1⟩).isSome := by decide
  have hall : AllSend oneSession oneSessionClient :=
    ⟨trivial, .inr ⟨by decide +kernel, by decide, by decide, _, hheader⟩, .inl (by decide +kernel),
      ⟨_, hdelete⟩, trivial⟩
  exact consecutive_runCalls (fresh_init ..) hall oneSession List.prefix_rfl

/-- **A refused order takes a number**: the next one is the first on the wire, with number two. -/
theorem refused_order_skips :
    ¬ ∀ (c : OrderEntryClient) (calls : List Call), Fresh c →
      (∀ call ∈ calls, call ≠ .reconnect) → Consecutive (runCalls calls c) := by
  intro h
  have hskips : Consecutive (runCalls [.newOrder 0 1 5 1 9 100 0, .newOrder 0 2 5 1 1 100 0]
      (init [] [] 7 (-20000) 10 ((some []).map .connected) [])) :=
    h _ _ (fresh_init ..) (by simp)
  revert hskips
  decide +kernel

end OrderEntryClient

end HftTrading.OrderEntry
