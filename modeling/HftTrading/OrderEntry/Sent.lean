import HftTrading.OrderEntry.Requests

/-!
# What the client sends

The messages on the connection only ever grow, and each call adds messages of few kinds: a cancel
and a kill switch send cancels, `new_order` sends its own request besides (`sent_deleteOrder`,
`sent_newOrder`). What has been sent since a point is read through `SentSince`.

The kind is a property of the bytes, a parameter of the invariant: whatever has been sent since is
of that kind. Each call then has one lemma that names the kinds it needs. The connection may be lost
on the way, and then what was sent on it is not to be seen any more; a client without a connection
has sent nothing.
-/

namespace HftTrading.OrderEntry

/-- An immediate-or-cancel order under this id, packed. -/
def IsIoc (orderId : ℤ) (msg : List UInt8) : Prop :=
  ∃ m : NewOrder, m.pack = some msg ∧ m.orderId = orderId ∧ m.flags = OrderFlags.ioc.value

namespace OrderEntryClient

/-- What has been sent on the connection, message by message. -/
def sent (c : OrderEntryClient) : List (List UInt8) := (c.socket.map Socket.sent).getD []

/-- Nothing but messages like these has been sent since. -/
def SentSince (P : List UInt8 → Prop) (before : List (List UInt8)) (c : OrderEntryClient) : Prop :=
  ∃ new, c.sent = before ++ new ∧ ∀ msg ∈ new, P msg

variable {P : List UInt8 → Prop} {before : List (List UInt8)} {c c' : OrderEntryClient}

theorem SentSince.refl (P : List UInt8 → Prop) (c : OrderEntryClient) : SentSince P c.sent c :=
  ⟨[], (List.append_nil _).symm, fun _ h ↦ absurd h List.not_mem_nil⟩

/-- What has been sent is all that it is about. -/
theorem SentSince.congr (h : SentSince P before c) (hsent : c'.sent = c.sent) :
    SentSince P before c' := by
  obtain ⟨new, hnew, hP⟩ := h
  exact ⟨new, hsent.trans hnew, hP⟩

theorem SentSince.append (h : SentSince P before c) {msg : List UInt8} (hmsg : P msg)
    (hsent : c'.sent = c.sent ++ [msg]) : SentSince P before c' := by
  obtain ⟨new, hnew, hP⟩ := h
  refine ⟨new ++ [msg], by rw [hsent, hnew, List.append_assoc], fun msg' hmem ↦ ?_⟩
  rcases List.mem_append.1 hmem with hold | hlast
  · exact hP msg' hold
  · rw [List.mem_singleton.1 hlast]
    exact hmsg

/-- What has been sent is on the socket. -/
theorem sent_of_socket (h : c'.socket = c.socket) : c'.sent = c.sent := by
  unfold sent
  rw [h]

/-! ### Reading sends nothing -/

theorem sent_of_some {s : Socket} (h : c.socket = some s) : c.sent = s.sent := by
  unfold sent
  rw [h]
  rfl

theorem sent_setBlocking (blocking : Bool) (c : OrderEntryClient) :
    (c.setBlocking blocking).sent = c.sent := by
  show ((c.socket.map (Socket.setBlocking blocking)).map Socket.sent).getD [] = _
  rw [Option.map_map]
  rfl

/-- **Reading sends nothing.** -/
theorem sentSince_keptByReading : KeptByReading (SentSince P before) where
  took hs htook hc := hc.congr (htook.sent.trans (sent_of_some hs).symm)
  blocking blocking hc := hc.congr (sent_setBlocking blocking _)
  counted _ hc := hc
  sent _ hc := hc
  opened hc := hc
  read _ hc := hc
  abandoned hc := hc

/-! ### Requests -/

/-- Sending a message adds it, unless it raises. -/
theorem sent_sendRaw {msg : List UInt8} (hmsg : P msg) :
    Method.Keeps (SentSince P before) (sendRaw msg) := by
  intro c hc
  rcases hs : c.socket with - | s
  · rw [sendRaw, Method.after_error (onSocket_of_none hs _)]
    exact hc
  rw [sendRaw, after_onSocket_of_some hs]
  by_cases hreset : s.incoming.head? = some .reset
  · have hrun : Socket.sendall msg s = .error .connectionReset s := if_pos hreset
    rw [Method.after_error hrun]
    exact hc.congr (sent_of_some hs).symm
  · have hrun : Socket.sendall msg s = .ok () { s with sent := s.sent ++ [msg] } := if_neg hreset
    rw [Method.after_ok hrun]
    exact hc.append hmsg (congrArg (· ++ [msg]) (sent_of_some hs).symm)

/-- A `_send_and_recv` sends its message, if anything. -/
theorem sent_sendAndRecv {msg : List UInt8} (hmsg : P msg) :
    Method.Keeps (SentSince P before) (sendAndRecv msg) :=
  Method.keeps_iff_triple.2 (sentSince_keptByReading.sendAndRecv
    (Method.keeps_iff_triple.1 (sent_sendRaw hmsg)) fun _ hc ↦ hc)

/-- **A request sends messages of its kind only**, with all that it sets off. -/
theorem sentSince_kept : KeptByRequests P (SentSince P before) where
  header hc := hc
  exchanged _ _ hmsg hsend hc :=
    SentSince.congr (Method.Keeps.ok (sent_sendAndRecv hmsg) hc hsend) rfl
  broken hmsg hsend hc := Method.after_error hsend ▸ sent_sendAndRecv hmsg _ hc
  passed _ _ _ hc := hc
  popped _ _ _ hc := hc.congr (sent_of_socket (socket_popOrder _ _))
  booked _ _ _ hc := hc.congr (sent_of_socket (socket_bookFill _ _ _ _))
  finished _ hc := hc
  abandoned _ hc := hc

/-- **A cancel** sends cancels only, however deep the kill switch nests. -/
theorem sent_deleteOrder (hcancel : ∀ msg, IsCancel msg → P msg) (orderId : ℤ) :
    Method.Keeps (SentSince P before) (deleteOrder orderId) :=
  sentSince_kept.deleteOrder hcancel orderId

/-- **`new_order`** sends its own request besides, if anything. -/
theorem sent_newOrder (hcancel : ∀ msg, IsCancel msg → P msg) (now : ℚ)
    {orderId symbol side quantity price flags : ℤ}
    (hown : ∀ header, ∀ msg ∈ NewOrder.pack ⟨header, orderId, symbol, side, quantity, price, flags⟩,
      P msg) :
    Method.Keeps (SentSince P before)
      (newOrder now orderId symbol side quantity price flags) := by
  intro c hc
  exact (KeptByRequests.newOrder (I := SentSince P before) _ (fun hc ↦ hc) (fun _ hc ↦ hc)
    (fun _ hc ↦ hc) sentSince_kept hcancel hown now hc).elim id id

end OrderEntryClient

end HftTrading.OrderEntry
