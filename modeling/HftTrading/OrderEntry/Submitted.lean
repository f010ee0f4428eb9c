import HftTrading.OrderEntry.RoundTrip
import HftTrading.OrderEntry.Sent

/-!
# The orders that reach the exchange

The orders among the messages on the connection, read back from their bytes (`submitted`). A cancel
is none of them, so handling responses submits nothing, however deep the kill switch nests.
`new_order` submits its own order and no other, and it does so exactly when `goesOut?` says so,
which looks at the client before the call: the id is not open, the risk check approves, the message
can be packed, and the connection takes it.

Since an order is read back from its bytes, what is submitted does not depend on what the call
returns: an order whose responses raise has reached the exchange all the same. Statements about the
strategy speak of orders in these terms.
-/

namespace HftTrading.OrderEntry

/-- A packed order is read back. -/
theorem NewOrder.unpack_of_pack {m : NewOrder} {msg : List UInt8} (h : m.pack = some msg) :
    NewOrder.unpack msg = some m := by
  have hfields : NewOrder.record.fields m =
      Struct.wire NewOrder.record.format (NewOrder.record.fields m) := rfl
  have hread : NewOrder.unpack (msg ++ []) = some m :=
    (Struct.Record.unpack_of_pack (R := NewOrder.record.toRecord) h hfields).2 []
  rwa [List.append_nil] at hread

/-- A cancel is too short to be read as an order. -/
theorem IsCancel.unpack_eq_none {msg : List UInt8} (h : IsCancel msg) :
    NewOrder.unpack msg = none := by
  obtain ⟨m, hm⟩ := h
  have hfields : DeleteOrder.record.fields m =
      Struct.wire DeleteOrder.record.format (DeleteOrder.record.fields m) := rfl
  have hlength := (Struct.Record.unpack_of_pack (R := DeleteOrder.record.toRecord) hm hfields).1
  have hshort : msg.length < NewOrder.record.size := by
    rw [hlength]
    decide
  exact Struct.Record.unpack_of_short (R := NewOrder.record.toRecord) hshort

namespace OrderEntryClient

/-- The orders sent on the connection. -/
def submitted (c : OrderEntryClient) : List NewOrder := c.sent.filterMap NewOrder.unpack

/-- The orders sent since. -/
def submittedSince (c₀ c : OrderEntryClient) : List NewOrder :=
  c.submitted.drop c₀.submitted.length

/-- What has been submitted since is what has come behind. -/
theorem submittedSince_of_append {c₀ c : OrderEntryClient} {orders : List NewOrder}
    (h : c.submitted = c₀.submitted ++ orders) : submittedSince c₀ c = orders := by
  rw [submittedSince, h, List.drop_left]

variable {orders : List NewOrder} {c c' : OrderEntryClient}

/-- What has been submitted is among what has been sent. -/
theorem submitted_of_sent (h : c'.sent = c.sent) : c'.submitted = c.submitted := by
  unfold submitted
  rw [h]

/-! ### What submits nothing -/

theorem submitted_keptByReading : KeptByReading (fun c ↦ c.submitted = orders) where
  took {c s s'} hs htook hc := by
    have hsent : (setSocket s' c).sent = c.sent := htook.sent.trans (sent_of_some hs).symm
    exact (submitted_of_sent hsent).trans hc
  blocking blocking hc := (submitted_of_sent (sent_setBlocking blocking _)).trans hc
  counted _ hc := hc
  sent _ hc := hc
  opened hc := hc
  read _ hc := hc
  abandoned hc := hc

theorem submitted_keptByHandling : KeptByHandling (fun c ↦ c.submitted = orders) where
  taken hc := hc
  popped _ hc := (submitted_of_sent (sent_of_socket (socket_popOrder _ _))).trans hc
  booked _ _ hc := (submitted_of_sent (sent_of_socket (socket_bookFill _ _ _ _))).trans hc
  finished hc := hc
  abandoned hc := hc

/-! ### Sending -/

/-- The connection takes a message: it is there, and not known to be lost. -/
def Takes (c : OrderEntryClient) : Prop :=
  ∃ s ∈ c.socket, s.incoming.head? ≠ some .reset

instance (c : OrderEntryClient) : Decidable c.Takes :=
  inferInstanceAs (Decidable (∃ s ∈ c.socket, _))

/-- **A message** is sent if the connection takes it. -/
theorem sendRaw_cases (msg : List UInt8) (c : OrderEntryClient) :
    (c.Takes ∧ ∃ c', sendRaw msg c = .ok () c' ∧ c'.sent = c.sent ++ [msg]) ∨
      (¬ c.Takes ∧ ∃ e, sendRaw msg c = .error e c) := by
  rcases hs : c.socket with - | s
  · refine Or.inr ⟨?_, _, onSocket_of_none hs _⟩
    rintro ⟨s, hmem, -⟩
    rw [hs] at hmem
    cases hmem
  have hsend : sendRaw msg c = (Socket.sendall msg).focus s setSocket c := onSocket_of_some hs _
  by_cases hreset : s.incoming.head? = some .reset
  · have hrun : Socket.sendall msg s = .error .connectionReset s := if_pos hreset
    have hsame : setSocket s c = c := by
      unfold setSocket
      rw [← hs]
    refine Or.inr ⟨?_, .connectionReset, ?_⟩
    · rintro ⟨t, hmem, htakes⟩
      rw [hs] at hmem
      cases hmem
      exact htakes hreset
    · rw [hsend, Method.focus_error hrun, hsame]
  · have hrun : Socket.sendall msg s = .ok () { s with sent := s.sent ++ [msg] } := if_neg hreset
    refine Or.inl ⟨⟨s, hs, hreset⟩, _, hsend.trans (Method.focus_ok hrun _ _), ?_⟩
    exact congrArg (· ++ [msg]) (sent_of_some hs).symm

/-- What a packed request submits. -/
def submits (packet : Option (List UInt8)) (c : OrderEntryClient) : List NewOrder :=
  if c.Takes then packet.toList.filterMap NewOrder.unpack else []

/-- **A packed request** submits what the connection takes of it, if the handling of its responses
submits nothing. -/
theorem submitted_request {process : List OeResponse → ClientM Unit} {c : OrderEntryClient}
    (packet : Option (List UInt8))
    (hprocess : ∀ responses, Method.Keeps (fun t ↦ t.submitted = c.submitted ++ c.submits packet)
      (process responses)) (seqNum : ℕ) (orderId : ℤ) :
    ((do
      let data ← packed packet
      let responses ← exchange seqNum orderId data
      process responses
      pure responses : ClientM (List OeResponse)).after c).submitted =
        c.submitted ++ c.submits packet := by
  rcases packet with - | msg
  · show c.submitted = c.submitted ++ if c.Takes then [] else []
    rw [ite_self, List.append_nil]
  show ((do
    let responses ← exchange seqNum orderId msg
    process responses
    pure responses : ClientM (List OeResponse)).after c).submitted = _
  rcases sendRaw_cases msg c with ⟨htakes, c', hsend, hsent⟩ | ⟨hlost, e, hsend⟩
  -- it is sent first, and neither collecting nor handling the responses submits anything
  · have hnow : c'.submitted = c.submitted ++ c.submits (some msg) := by
      rw [submits, if_pos htakes, submitted, hsent, List.filterMap_append]
      rfl
    have hraw : Method.Triple (· = c) (sendRaw msg)
        (fun _ t ↦ t.submitted = c.submitted ++ c.submits (some msg))
        fun t ↦ t.submitted = c.submitted ++ c.submits (some msg) := by
      rintro _ rfl
      rw [hsend]
      exact hnow
    have hexchange := (submitted_keptByReading.sendAndRecv hraw fun _ ht ↦ ht).bind fun responses ↦
      Method.Triple.bind (R := fun _ t ↦ t.submitted = c.submitted ++ c.submits (some msg))
        (Method.triple_modify (f := note (.replied seqNum orderId msg responses)) fun _ ht ↦ ht)
        fun _ ↦ Method.triple_pure responses fun _ ht ↦ ht
    have hrun := Method.Triple.bind (m := exchange seqNum orderId msg) hexchange fun responses ↦
      (Method.keeps_iff_triple.1 (hprocess responses)).bind fun _ ↦
        Method.keeps_iff_triple.1 (Method.keeps_pure responses)
    exact Method.triple_iff_after.1 hrun c rfl
  -- the exchange raises before anything is sent
  · have hbroken : exchange seqNum orderId msg c = .error e c :=
      Method.bind_error (Method.bind_error hsend)
    rw [Method.after_error (Method.bind_error hbroken), submits, if_neg hlost, List.append_nil]

/-- A cancel submits nothing. -/
theorem submitted_cancel (process : List OeResponse → ClientM Unit)
    (hprocess : ∀ responses, Method.Keeps (fun c ↦ c.submitted = orders) (process responses)) :
    KeepsOpen (fun c ↦ c.submitted = orders) (deleteOrderWith process) := by
  refine keepsOpen_of_keeps fun orderId c hc ↦ ?_
  rw [deleteOrderWith, Method.after_bind_of_ok (makeHeader_eq _ _ c)]
  have hpacket : ∀ msg ∈ DeleteOrder.pack ⟨c.nextHeader .deleteOrder DeleteOrder.SIZE, orderId⟩,
      IsCancel msg := fun msg hmsg ↦ ⟨_, hmsg⟩
  revert hpacket
  generalize DeleteOrder.pack ⟨c.nextHeader .deleteOrder DeleteOrder.SIZE, orderId⟩ = packet
  intro hpacket
  have hnone (t : OrderEntryClient) : t.submits packet = [] := by
    unfold submits
    split
    · refine List.filterMap_eq_nil_iff.2 fun msg hmsg ↦ ?_
      exact (hpacket msg (Option.mem_toList.1 hmsg)).unpack_eq_none
    · rfl
  have hsame : submitted { c with seqNum := c.seqNum + 1 } = orders := hc
  have hquiet (responses : List OeResponse) : Method.Keeps
      (fun t ↦ t.submitted = submitted { c with seqNum := c.seqNum + 1 } ++
        submits packet { c with seqNum := c.seqNum + 1 }) (process responses) := by
    rw [hnone, List.append_nil, hsame]
    exact hprocess responses
  have hafter := submitted_request packet hquiet (c.seqNum + 1) orderId
  rw [hnone, List.append_nil] at hafter
  exact hafter.trans hc

/-- Handling responses submits nothing. -/
theorem submitted_processResponses (responses : List OeResponse) :
    Method.Keeps (fun c ↦ c.submitted = orders) (processResponses responses) :=
  submitted_keptByHandling.processResponses submitted_cancel responses

/-! ### New orders -/

/-- The message of a new order. -/
def orderMessage (orderId symbol side quantity price flags : ℤ) (c : OrderEntryClient) : NewOrder :=
  ⟨c.nextHeader .newOrder NewOrder.SIZE, orderId, symbol, side, quantity, price, flags⟩

/-- **The order that goes out**, if it does: its id is not open, the risk check approves it, its
message can be packed, and the connection takes it. -/
def goesOut? (now : ℚ) (orderId symbol side quantity price flags : ℤ) (c : OrderEntryClient) :
    Option NewOrder :=
  let message := c.orderMessage orderId symbol side quantity price flags
  if c.openOrders.contains orderId = false ∧
      (c.riskTracker.isValid symbol side quantity price c.openOrders c.positionTracker c.pnlTracker
        c.respSeq now).1.1 = true ∧ message.pack.isSome ∧ c.Takes then some message
  else none

/-- What goes out is the order of the call. -/
theorem goesOut?_eq_some {now : ℚ} {orderId symbol side quantity price flags : ℤ} {m : NewOrder}
    (h : c.goesOut? now orderId symbol side quantity price flags = some m) :
    m = c.orderMessage orderId symbol side quantity price flags :=
  (Option.some.inj (Option.ite_none_right_eq_some.1 h).2).symm

/-- What the message of a new order submits. -/
theorem submits_pack (m : NewOrder) (c : OrderEntryClient) :
    c.submits m.pack = (if m.pack.isSome ∧ c.Takes then some m else none).toList := by
  unfold submits
  by_cases htakes : c.Takes
  · rw [if_pos htakes]
    rcases hpack : m.pack with - | msg
    · rfl
    · rw [if_pos ⟨rfl, htakes⟩, Option.toList_some, Option.toList_some,
        List.filterMap_cons_some (NewOrder.unpack_of_pack hpack), List.filterMap_nil]
  · rw [if_neg htakes, if_neg fun h ↦ htakes h.2, Option.toList_none]

/-- **A new order is submitted if it packs and the connection takes it.** -/
theorem submitted_submitNewOrder (orderId symbol : ℤ) {side : ℤ} (quantity price : ℤ) {flags : ℤ}
    (hside : (Side.ofValue? side).isSome) (hflags : (OrderFlags.ofValue? flags).isSome)
    (c : OrderEntryClient) :
    ((submitNewOrder orderId symbol side quantity price flags).after c).submitted =
      c.submitted ++ c.submits (c.orderMessage orderId symbol side quantity price flags).pack := by
  rw [submitNewOrder, Method.after_bind_of_ok (makeHeader_eq _ _ c),
    Method.after_bind_of_ok (nameOf_of_isSome _ hside _),
    Method.after_bind_of_ok (nameOf_of_isSome _ hflags _),
    Method.after_bind_of_ok (Method.modify_apply _ _), orderMessage]
  generalize NewOrder.pack
    ⟨c.nextHeader .newOrder NewOrder.SIZE, orderId, symbol, side, quantity, price, flags⟩ = packet
  exact submitted_request (c := placeEntry orderId ⟨symbol, side, quantity, price, 0⟩
    { c with seqNum := c.seqNum + 1 }) packet submitted_processResponses (c.seqNum + 1) orderId

/-- **`new_order`** submits its order if it goes out, and nothing else. -/
theorem submitted_newOrder (now : ℚ) (orderId symbol : ℤ) {side : ℤ} (quantity price : ℤ)
    {flags : ℤ} (hside : (Side.ofValue? side).isSome) (hflags : (OrderFlags.ofValue? flags).isSome)
    (c : OrderEntryClient) :
    ((newOrder now orderId symbol side quantity price flags).after c).submitted =
      c.submitted ++ (c.goesOut? now orderId symbol side quantity price flags).toList := by
  have hquiet {p : Prop} [Decidable p] (m : NewOrder) (hp : ¬ p) :
      c.submitted = c.submitted ++ (if p then some m else none).toList := by
    rw [if_neg hp, Option.toList_none, List.append_nil]
  rw [newOrder, Method.after_bind_of_ok (Method.get_apply c)]
  split
  · rename_i hopen
    exact hquiet _ fun h ↦ absurd (h.1.symm.trans hopen) Bool.false_ne_true
  rename_i hnew
  have hcheck : riskCheck now symbol side quantity price c =
      .ok (c.riskTracker.isValid symbol side quantity price c.openOrders c.positionTracker
        c.pnlTracker c.respSeq now).1.1
        { c with riskTracker := (c.riskTracker.isValid symbol side quantity price c.openOrders
          c.positionTracker c.pnlTracker c.respSeq now).2 } := rfl
  rw [Method.after_bind_of_ok hcheck]
  split
  · rename_i hvalid
    refine (submitted_submitNewOrder orderId symbol quantity price hside hflags _).trans ?_
    refine congrArg (c.submitted ++ ·) ((submits_pack _ _).trans (congrArg Option.toList ?_))
    refine if_congr ⟨fun h ↦ ?_, fun h ↦ ?_⟩ rfl rfl
    · exact ⟨Bool.eq_false_iff.2 hnew, hvalid, h⟩
    · exact h.2.2
  · rename_i hrefused
    exact hquiet _ fun h ↦ hrefused h.2.1

/-- A request is answered only if it has been packed and the connection has taken it. -/
theorem triple_request_takes (c : OrderEntryClient) (packet : Option (List UInt8)) (seqNum : ℕ)
    (orderId : ℤ) (process : List OeResponse → ClientM Unit) :
    Method.Triple (fun t ↦ t.Takes ↔ c.Takes)
      (do
        let data ← packed packet
        let responses ← exchange seqNum orderId data
        process responses
        pure responses)
      (fun _ _ ↦ packet.isSome = true ∧ c.Takes) fun _ ↦ True := by
  rcases packet with - | msg
  · exact Method.Triple.bind (Q := fun _ _ ↦ _) (R := fun _ _ ↦ False)
      (Method.triple_throw _ fun _ _ ↦ trivial) fun _ _ h ↦ h.elim
  have hsend : Method.Triple (fun t ↦ t.Takes ↔ c.Takes) (sendRaw msg) (fun _ _ ↦ c.Takes)
      fun _ ↦ True := by
    intro t ht
    rcases sendRaw_cases msg t with ⟨htakes, c', hrun, -⟩ | ⟨-, e, hrun⟩
    · rw [hrun]
      exact ht.1 htakes
    · rw [hrun]
      trivial
  have hexchange : Method.Triple (fun t ↦ t.Takes ↔ c.Takes) (exchange seqNum orderId msg)
      (fun _ _ ↦ c.Takes) fun _ ↦ True :=
    (hsend.bind fun _ ↦ (Method.triple_const _).bind fun _ ↦ Method.triple_const _).bind fun _ ↦
      (Method.triple_const _).bind fun _ ↦ Method.triple_const _
  refine Method.Triple.bind (m := packed (some msg)) (R := fun data t ↦ data = msg ∧
    (t.Takes ↔ c.Takes)) (fun _ ht ↦ ⟨rfl, ht⟩) fun data ↦ Method.triple_of_imp ?_
  rintro rfl
  exact hexchange.bind fun responses ↦ (Method.triple_const (process responses)).bind fun _ ↦
    Method.triple_pure responses fun _ h ↦ ⟨rfl, h⟩

/-- **An order that is answered** has gone out, unless it is rejected locally. -/
theorem triple_newOrder_goesOut (c : OrderEntryClient) (now : ℚ)
    (orderId symbol side quantity price flags : ℤ) :
    Method.Triple (fun t ↦ t = c) (newOrder now orderId symbol side quantity price flags)
      (fun responses _ ↦ (∃ r, responses = [r] ∧ isReject r = true) ∨
        (c.goesOut? now orderId symbol side quantity price flags).isSome = true)
      fun _ ↦ True := by
  refine Method.triple_get fun _ hc ↦ ?_
  subst hc
  split
  · exact Method.triple_pure _ fun _ _ ↦ Or.inl ⟨_, rfl, rfl⟩
  rename_i c hnew
  let answer := c.riskTracker.isValid symbol side quantity price c.openOrders c.positionTracker
    c.pnlTracker c.respSeq now
  refine Method.Triple.bind (m := riskCheck now symbol side quantity price)
    (R := fun valid t ↦ valid = answer.1.1 ∧ t = { c with riskTracker := answer.2 })
    (by rintro _ rfl; exact ⟨rfl, rfl⟩) fun valid ↦ Method.triple_of_imp fun hvalid ↦ ?_
  split
  · rename_i happroved
    refine Method.Triple.bind (m := makeHeader .newOrder NewOrder.SIZE)
      (R := fun header t ↦ header = c.nextHeader .newOrder NewOrder.SIZE ∧ (t.Takes ↔ c.Takes))
      (by rintro _ rfl; exact ⟨rfl, Iff.rfl⟩) fun header ↦ Method.triple_of_imp fun hheader ↦ ?_
    have hname {α : Type} (enumeration : String) (ofValue? : ℤ → Option α) (n : ℤ) :
        Method.Triple (fun t ↦ t.Takes ↔ c.Takes) (nameOf enumeration ofValue? n)
          (fun _ t ↦ t.Takes ↔ c.Takes) fun _ ↦ True :=
      (triple_nameOf enumeration ofValue? n).weaken (fun _ h ↦ h) (fun _ _ h ↦ h.1)
        fun _ _ ↦ trivial
    generalize hpacket : NewOrder.pack
      ⟨header, orderId, symbol, side, quantity, price, flags⟩ = packet
    refine (hname _ _ _).bind fun _ ↦ (hname _ _ _).bind fun _ ↦
      Method.Triple.bind (R := fun _ t ↦ t.Takes ↔ c.Takes) (Method.triple_modify fun _ h ↦ h)
        fun _ ↦ (triple_request_takes c packet header.seqNum orderId processResponses).weaken
          (fun _ h ↦ h) (fun _ _ h ↦ Or.inr ?_) fun _ h ↦ h
    subst hheader hpacket
    have hout : c.goesOut? now orderId symbol side quantity price flags =
        some (c.orderMessage orderId symbol side quantity price flags) :=
      if_pos ⟨Bool.eq_false_iff.2 hnew, hvalid.symm.trans happroved, h⟩
    rw [hout, Option.isSome_some]
  · refine Method.Triple.bind (R := fun _ _ ↦ True) (Method.triple_modify fun _ _ ↦ trivial)
      fun _ ↦ Method.triple_get fun _ _ ↦ Method.triple_pure _ fun _ _ ↦ Or.inl ⟨_, rfl, rfl⟩

end OrderEntryClient

end HftTrading.OrderEntry
