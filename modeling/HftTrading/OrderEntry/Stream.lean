import HftTrading.OrderEntry.Client
import HftTrading.OrderEntry.Timeline

/-!
# The stream of responses

The exchange sends packets that the client's parser accepts (`Packet`, `Stream`), and the network
delivers their bytes in some segmentation, at some times. Successive `_send_and_recv` calls are
faithful if, after any number of them, what they have returned is the first so many responses sent,
and what is still unread is exactly the packets behind them (`Faithful`).

A first response is waited for and always read whole. The drain behind it reads without blocking and
takes a pause for the end: what it reads is whole packets exactly when the bytes that are ready then
end where a packet ends (`DrainsWhole`). That condition on the timeline is the exact one
(`faithful_iff_drainsWhole`); a pause inside a drained packet tears it (`torn_packet`).

## One call at a time

`Feeding` is the state before a call: the connection has these packets to come, at these times, and
the client expects the number of the first. A call that drains whole packets leaves such a state,
for the packets that are left, and returns what it has read. A call that does not has taken bytes of
a packet that it could not return, and no later call can put them back: from there the unread bytes
are no longer those of whole packets. So the equivalence goes call by call, by induction on them.
-/

namespace HftTrading.OrderEntry

open Arrival

/-! ### Packets -/

/-- A packet that the parser of this client accepts, with what it stands for. -/
structure Packet (clientId : ℤ) where
  data : List UInt8
  hdr : OeResponseHeader
  response : OeResponse
  totalLength_eq : Socket.totalLength data = data.length
  hdr_eq : OeResponseHeader.unpack data = some hdr
  version_eq : hdr.version = OE_PROTOCOL_VERSION
  clientId_eq : hdr.clientId = clientId
  response_eq : ((MsgType.ofValue? hdr.msgType).bind fun t ↦ t.unpack hdr data) = some response

/-- Whether the parser of this client takes a packed response back. -/
def OeResponse.Accepted (clientId : ℤ) (r : OeResponse) : Prop :=
  Socket.totalLength (r.pack.getD []) = (r.pack.getD []).length ∧
    OeResponseHeader.unpack (r.pack.getD []) = some r.hdr ∧
    r.hdr.version = OE_PROTOCOL_VERSION ∧ r.hdr.clientId = clientId ∧
    ((MsgType.ofValue? r.hdr.msgType).bind fun t ↦ t.unpack r.hdr (r.pack.getD [])) = some r

instance (clientId : ℤ) (r : OeResponse) : Decidable (r.Accepted clientId) :=
  inferInstanceAs (Decidable (_ ∧ _))

/-- The packet of a response. -/
def OeResponse.packet {clientId : ℤ} (r : OeResponse) (h : r.Accepted clientId) : Packet clientId :=
  ⟨r.pack.getD [], r.hdr, r, h.1, h.2.1, h.2.2.1, h.2.2.2.1, h.2.2.2.2⟩

/-- Packets whose sequence numbers the client accepts, coming from this one. -/
def Stream {clientId : ℤ} : ℕ → List (Packet clientId) → Prop
  | _, [] => True
  | respSeq, p :: packets =>
    (respSeq = 0 ∨ respSeq < p.hdr.seqNum) ∧ Stream p.hdr.seqNum packets

/-- The bytes of packets. -/
def wire {clientId : ℤ} (packets : List (Packet clientId)) : List UInt8 :=
  (packets.map Packet.data).flatten

/-- The packets left once exactly `k` bytes have been read, if a packet ends there. -/
def leftAfter {clientId : ℤ} : List (Packet clientId) → ℕ → Option (List (Packet clientId))
  | packets, 0 => some packets
  | [], _ + 1 => none
  | p :: packets, k + 1 =>
    if p.data.length ≤ k + 1 then leftAfter packets (k + 1 - p.data.length) else none

section

variable {clientId : ℤ}

theorem Packet.sized (p : Packet clientId) : Socket.Sized p.data := by
  refine ⟨p.totalLength_eq, ?_⟩
  obtain ⟨fields, hfields, -⟩ := Option.bind_eq_some_iff.1 p.hdr_eq
  have hsome : (Struct.unpack OeResponseHeader.FORMAT
      (p.data.take OeResponseHeader.SIZE)).isSome := by
    rw [hfields]
    rfl
  rw [Struct.unpack_isSome_iff, List.length_take] at hsome
  exact Nat.le_trans (Nat.le_of_eq hsome.symm) (Nat.min_le_right _ _)

theorem Packet.length_pos (p : Packet clientId) : 0 < p.data.length :=
  Nat.lt_of_lt_of_le (by decide) p.sized.header_le

/-- The bytes of the first packet come first. -/
theorem wire_cons (p : Packet clientId) (packets : List (Packet clientId)) :
    wire (p :: packets) = p.data ++ wire packets := rfl

end

namespace OrderEntryClient

variable {clientId : ℤ} {c : OrderEntryClient} {p : Packet clientId}
  {packets : List (Packet clientId)} {blocking : Bool} {incoming : List Arrival}

/-! ### One packet -/

/-- The parser takes a packet. -/
theorem parseResponse_packet (hclient : c.clientId = clientId)
    (hseq : c.respSeq = 0 ∨ c.respSeq < p.hdr.seqNum) :
    parseResponse p.data c = .ok p.response
      (({ c with respSeq := p.hdr.seqNum }.onRecord (·.collect p.response)).note
        (.read p.response)) := by
  have hvalid : validateResponseHeader p.hdr c = .ok () c := by
    unfold validateResponseHeader
    rw [Method.bind_ok (Method.get_apply c), if_neg (not_not.2 p.version_eq),
      if_neg (not_not.2 (p.clientId_eq.trans hclient.symm)), if_neg (by omega)]
    rfl
  obtain ⟨t, ht, hunpack⟩ := Option.bind_eq_some_iff.1 p.response_eq
  unfold parseResponse
  rw [p.hdr_eq]
  dsimp only
  rw [Method.bind_ok hvalid, Method.bind_ok (Method.modify_apply _ c), ht]
  dsimp only
  rw [hunpack]
  rfl

/-- The stream ahead of a client: these packets, arriving like this. -/
structure Feeding (packets : List (Packet clientId)) (blocking : Bool) (incoming : List Arrival)
    (c : OrderEntryClient) : Prop where
  socket : ∃ sent, c.socket = some ⟨blocking, incoming, sent⟩
  clientId_eq : c.clientId = clientId
  reset : .reset ∉ incoming
  bytes : bytesOf incoming = wire packets
  stream : Stream c.respSeq packets

/-- The next packet is read if it is available. -/
theorem receive_of_available (h : Feeding (p :: packets) blocking incoming c)
    (hready : blocking = false → p.data.length ≤ ready incoming) :
    ∃ c', receive c = .ok p.response c' ∧
      Feeding packets blocking (skip p.data.length incoming) c' := by
  obtain ⟨sent, hs⟩ := h.socket
  have havailable : Socket.Available p.data.length ⟨blocking, incoming, sent⟩ := by
    refine ⟨?_, hready⟩
    rw [h.bytes, wire_cons, List.length_append]
    exact Nat.le_add_right _ _
  have hsocket : onSocket Socket.recvMessage c =
      .ok p.data (setSocket ⟨blocking, skip p.data.length incoming, sent⟩ c) := by
    rw [onSocket_of_some hs]
    exact Method.focus_ok (Socket.recvMessage_of_available (s := ⟨blocking, incoming, sent⟩)
      p.sized h.reset h.bytes havailable) setSocket c
  refine ⟨_,
    (Method.bind_ok hsocket).trans (parseResponse_packet (p := p) h.clientId_eq h.stream.1),
    ⟨sent, rfl⟩, h.clientId_eq, fun hmem ↦ h.reset (mem_of_mem_skip hmem), ?_, h.stream.2⟩
  rw [bytesOf_skip, h.bytes, wire_cons, List.drop_left]

/-- **A blocking read** gets the next packet, however it is spread over time. -/
theorem receive_blocking (h : Feeding (p :: packets) true incoming c) :
    ∃ c', receive c = .ok p.response c' ∧
      Feeding packets true (skip p.data.length incoming) c' :=
  receive_of_available h fun hfalse ↦ by cases hfalse

/-- A non-blocking read gets the next packet if it is there. -/
theorem receive_ready (h : Feeding (p :: packets) false incoming c)
    (hready : p.data.length ≤ ready incoming) :
    ∃ c', receive c = .ok p.response c' ∧
      Feeding packets false (skip p.data.length incoming) c' :=
  receive_of_available h fun _ ↦ hready

/-- If the next packet is not there, the read raises, and what was there is gone. -/
theorem receive_short (h : Feeding packets false incoming c)
    (hready : ∀ p ∈ packets.head?, ready incoming < p.data.length) :
    ∃ (e : OeError) (c' : OrderEntryClient), e.isSocketError = true ∧ receive c = .error e c' ∧
      c'.clientId = c.clientId ∧ c'.respSeq = c.respSeq ∧
      ∃ sent, c'.socket = some ⟨false, behind incoming, sent⟩ := by
  obtain ⟨sent, hs⟩ := h.socket
  obtain ⟨e, he, hread⟩ := Socket.recvMessage_short (s := ⟨false, incoming, sent⟩) rfl h.reset (by
    rcases packets with - | ⟨p, packets⟩
    · have hzero := ready_le_length_bytesOf incoming
      rw [h.bytes] at hzero
      exact Or.inl (Nat.lt_of_le_of_lt hzero (show 0 < 16 by decide))
    · exact Or.inr ⟨p.data, wire packets, p.sized, h.bytes, hready p rfl⟩)
  refine ⟨e, setSocket ⟨false, behind incoming, sent⟩ c, he, ?_, rfl, rfl, sent,
    rfl⟩
  refine Method.bind_error ?_
  rw [onSocket_of_some hs]
  exact Method.focus_error hread setSocket c

/-! ### One call -/

/-- How a drain over what is ready can end. -/
inductive Drained (packets : List (Packet clientId)) (incoming : List Arrival) :
    List OeResponse → OrderEntryClient → Prop
  /-- A packet ended where what was ready ended: nothing is lost. -/
  | whole {read left : List (Packet clientId)} {c' : OrderEntryClient}
      (hleft : leftAfter packets (ready incoming) = some left) (heq : packets = read ++ left)
      (hfeeding : Feeding left false (behind incoming) c') :
      Drained packets incoming (read.map Packet.response) c'
  /-- The last packet that was begun was not there whole: its beginning is lost. -/
  | torn {read left : List (Packet clientId)} {c' : OrderEntryClient} {sent : List (List UInt8)}
      (hleft : leftAfter packets (ready incoming) = none) (heq : packets = read ++ left)
      (hsocket : c'.socket = some ⟨false, behind incoming, sent⟩)
      (hbytes : (bytesOf (behind incoming)).length < (wire left).length) :
      Drained packets incoming (read.map Packet.response) c'

/-- Reading on behind a packet that was ready. -/
theorem Drained.cons {responses : List OeResponse} {c' : OrderEntryClient}
    (hready : p.data.length ≤ ready incoming)
    (h : Drained packets (skip p.data.length incoming) responses c') :
    Drained (p :: packets) incoming (p.response :: responses) c' := by
  obtain ⟨k, hk⟩ : ∃ k, ready incoming = k + 1 := ⟨ready incoming - 1, by
    have := p.length_pos
    omega⟩
  have hleft : leftAfter (p :: packets) (ready incoming) =
      leftAfter packets (ready (skip p.data.length incoming)) := by
    rw [ready_skip hready, hk, leftAfter, if_pos (by omega)]
  have hdrop := behind_skip hready
  have hcons : ∀ {read left : List (Packet clientId)}, packets = read ++ left →
      p :: packets = (p :: read) ++ left := fun heq ↦ congrArg (p :: ·) heq
  rcases h with ⟨hl, heq, hfeeding⟩ | ⟨hl, heq, hsocket, hbytes⟩
  · rw [hdrop] at hfeeding
    exact Drained.whole (hleft.trans hl) (hcons heq) hfeeding
  · rw [hdrop] at hsocket hbytes
    exact Drained.torn (hleft.trans hl) (hcons heq) hsocket hbytes

/-- **The drain** reads the packets that are ready, and ends whole or torn. -/
theorem drain_feeding (h : Feeding packets false incoming c) {iterations : ℕ}
    (hiterations : incoming.length < iterations) (responses : List OeResponse) :
    ∃ responses' c', drain iterations responses c = .ok (responses ++ responses') c' ∧
      Drained packets incoming responses' c' := by
  induction iterations generalizing c packets incoming responses with
  | zero => exact absurd hiterations (Nat.not_lt_zero _)
  | succ iterations ih =>
    rw [drain]
    by_cases hshort : ∀ p ∈ packets.head?, ready incoming < p.data.length
    -- nothing more can be read
    · have hnothing : packets = [] ++ packets := rfl
      obtain ⟨e, c', he, hrun, hclient, hseq, sent, hsocket⟩ := receive_short h hshort
      refine ⟨[], c', ?_, ?_⟩
      · rw [List.append_nil]
        refine Method.bind_ok (a := none)
          ((Method.tryCatch_error (Method.bind_error hrun) _).trans ?_)
        rw [if_pos he]
        rfl
      · have hbytes := bytesOf_behind h.reset
        rw [h.bytes] at hbytes
        have hle := ready_le_length_bytesOf incoming
        rw [h.bytes] at hle
        rcases hzero : ready incoming with - | k
        · rw [hzero, List.drop_zero] at hbytes
          refine Drained.whole (by rw [hzero]; cases packets <;> rfl) hnothing
            ⟨⟨sent, hsocket⟩, hclient.trans h.clientId_eq,
              fun hmem ↦ h.reset (mem_of_mem_behind hmem), ?_, by rw [hseq]; exact h.stream⟩
          exact hbytes
        · refine Drained.torn ?_ hnothing hsocket ?_
          · rcases packets with - | ⟨p, packets⟩
            · rw [hzero]
              rfl
            · have hlt := hshort p rfl
              rw [hzero, leftAfter, if_neg (by omega)]
          · rw [hbytes, List.length_drop]
            omega
    -- the next packet is there
    · rcases packets with - | ⟨p, packets⟩
      · exact absurd (fun p hp ↦ by cases hp) hshort
      have hready : p.data.length ≤ ready incoming := by
        by_contra hlt
        refine hshort fun q hq ↦ ?_
        obtain rfl := Option.some.inj hq
        exact Nat.not_le.1 hlt
      obtain ⟨c', hrun, hfeeding⟩ := receive_ready h hready
      have hpos := p.length_pos
      have hlength := Nat.le_trans (ready_le_length_bytesOf incoming) (length_bytesOf_le incoming)
      have hskip := length_skip_le p.data.length incoming
      obtain ⟨responses', c'', hdrain, hdrained⟩ := ih hfeeding
        (by omega) (responses ++ [p.response])
      refine ⟨p.response :: responses', c'', ?_, hdrained.cons hready⟩
      rw [Method.bind_ok (a := some p.response) (Method.tryCatch_ok
        ((Method.bind_ok hrun).trans (Method.pure_apply (some p.response) c')) _)]
      dsimp only
      rw [hdrain, List.append_assoc, List.singleton_append]

/-- What a call gets out of the stream. -/
inductive Collected (packets : List (Packet clientId)) (incoming : List Arrival) :
    List OeResponse → OrderEntryClient → Prop
  /-- A reject or an error is all there is to it. -/
  | rejected {p : Packet clientId} {left : List (Packet clientId)} {c' : OrderEntryClient}
      (heq : packets = p :: left) (hreject : isReject p.response = true)
      (hfeeding : Feeding left true (skip p.data.length incoming) c') :
      Collected packets incoming [p.response] c'
  /-- Anything else is followed by a drain. -/
  | followed {p : Packet clientId} {packets' : List (Packet clientId)} {responses : List OeResponse}
      {c' : OrderEntryClient} (heq : packets = p :: packets')
      (hreject : isReject p.response = false)
      (hdrained : Drained packets' (skip p.data.length incoming) responses c') :
      Collected packets incoming (p.response :: responses) (c'.setBlocking true)

/-- Blocking or not, the same is to come. -/
theorem Feeding.setBlocking (h : Feeding packets blocking incoming c) (blocking' : Bool) :
    Feeding packets blocking' incoming (c.setBlocking blocking') := by
  obtain ⟨sent, hs⟩ := h.socket
  refine ⟨⟨sent, ?_⟩, h.clientId_eq, h.reset, h.bytes, h.stream⟩
  unfold OrderEntryClient.setBlocking
  rw [hs]
  rfl

/-- Sending and collecting starts from a socket that blocks. -/
theorem sendAndRecv_eq (h : Feeding packets blocking incoming c) (msg : List UInt8) :
    ∃ c₁, sendAndRecv msg c = collectResponses.onExit id abandonBatch c₁ ∧
      Feeding packets true incoming c₁ := by
  obtain ⟨sent, hs⟩ := h.socket
  have hhead : incoming.head? ≠ some .reset := fun hhead ↦
    h.reset (List.mem_of_mem_head? hhead)
  have hsend : sendRaw msg c =
      .ok () (setSocket ⟨blocking, incoming, sent ++ [msg]⟩ c) := by
    refine (onSocket_of_some hs _).trans (Method.focus_ok ?_ setSocket c)
    exact if_neg hhead
  have hfeeding : Feeding packets blocking incoming
      (setSocket ⟨blocking, incoming, sent ++ [msg]⟩ c) :=
    ⟨⟨_, rfl⟩, h.clientId_eq, h.reset, h.bytes, h.stream⟩
  have hblocking := hfeeding.setBlocking true
  exact ⟨_, (Method.bind_ok hsend).trans (Method.bind_ok (Method.modify_apply _ _)),
    hblocking.socket, hblocking.clientId_eq, hblocking.reset, hblocking.bytes, hblocking.stream⟩

/-- **One call** returns the next packet, and what its drain reads. -/
theorem sendAndRecv_feeding (h : Feeding (p :: packets) blocking incoming c) (msg : List UInt8) :
    ∃ responses c', sendAndRecv msg c = .ok responses c' ∧
      Collected (p :: packets) incoming responses c' := by
  obtain ⟨c₁, heq, h₁⟩ := sendAndRecv_eq h msg
  obtain ⟨c₂, hreceive, h₂⟩ := receive_blocking h₁
  rcases hreject : isReject p.response with - | -
  · obtain ⟨responses, c₃, hdrain, hdrained⟩ := drain_feeding (h₂.setBlocking false)
      (Nat.lt_succ_self _) [p.response]
    refine ⟨p.response :: responses, c₃.setBlocking true, heq.trans ?_, .followed rfl hreject
      hdrained⟩
    refine Method.onExit_ok ?_ id abandonBatch
    unfold collectResponses
    rw [Method.bind_ok hreceive, hreject, if_neg Bool.false_ne_true,
      Method.bind_ok (Method.modify_apply _ c₂), Method.bind_ok (Method.get_apply _)]
    refine Method.onExit_ok ?_ _ _
    obtain ⟨sent, hs⟩ := (h₂.setBlocking false).socket
    rw [show (c₂.setBlocking false).arrivals = (skip p.data.length incoming).length by
      rw [arrivals, hs]; rfl]
    exact hdrain
  · refine ⟨[p.response], c₂, heq.trans ?_, .rejected rfl hreject h₂⟩
    refine Method.onExit_ok ?_ id abandonBatch
    unfold collectResponses
    rw [Method.bind_ok hreceive, hreject, if_pos rfl]
    rfl

/-- At the end of the stream a call raises. -/
theorem sendAndRecv_end (h : Feeding ([] : List (Packet clientId)) blocking incoming c)
    (msg : List UInt8) :
    ∃ e c', sendAndRecv msg c = .error e c' ∧ Feeding ([] : List (Packet clientId)) true [] c' := by
  obtain ⟨c₁, heq, h₁⟩ := sendAndRecv_eq h msg
  obtain ⟨sent, hs⟩ := h₁.socket
  have hread : receive c₁ = .error .brokenConnection (setSocket ⟨true, [], sent⟩ c₁) := by
    refine Method.bind_error ((onSocket_of_some hs _).trans (Method.focus_error ?_ setSocket c₁))
    exact Socket.recvMessage_end (s := ⟨true, incoming, sent⟩) rfl h₁.reset h₁.bytes
  refine ⟨_, _, heq.trans (Method.onExit_error (Method.bind_error hread) id abandonBatch),
    ⟨sent, rfl⟩, h₁.clientId_eq, List.not_mem_nil, rfl, trivial⟩

/-! ### Successive calls -/

/-- Successive `_send_and_recv` calls: everything that they return, and the client afterwards. -/
def exchanges : List (List UInt8) → OrderEntryClient → List OeResponse × OrderEntryClient
  | [], c => ([], c)
  | msg :: msgs, c =>
    match sendAndRecv msg c with
    | .ok responses c' => (responses ++ (exchanges msgs c').1, (exchanges msgs c').2)
    | .error _ c' => exchanges msgs c'

/-- The bytes still to be read. -/
def unread (c : OrderEntryClient) : List UInt8 :=
  (c.socket.map fun s ↦ bytesOf s.incoming).getD []

/-- What has been returned are the first responses sent, and the packets behind them are unread. -/
def Faithful (packets : List (Packet clientId)) (outcome : List OeResponse × OrderEntryClient) :
    Prop :=
  outcome.1 = (packets.take outcome.1.length).map Packet.response ∧
    outcome.2.unread = wire (packets.drop outcome.1.length)

/-- **What is ready ends where a packet ends**, for each of the next `n` calls when it drains. -/
def DrainsWhole : ℕ → List (Packet clientId) → List Arrival → Prop
  | 0, _, _ => True
  | _ + 1, [], _ => True
  | n + 1, p :: packets, incoming =>
    let rest := skip p.data.length incoming
    if isReject p.response then DrainsWhole n packets rest
    else ∃ left ∈ leftAfter packets (ready rest), DrainsWhole n left (behind rest)

theorem unread_of_some {s : Socket} (h : c.socket = some s) : c.unread = bytesOf s.incoming := by
  unfold unread
  rw [h]
  rfl

theorem unread_setBlocking (blocking : Bool) (c : OrderEntryClient) :
    (c.setBlocking blocking).unread = c.unread := by
  unfold unread OrderEntryClient.setBlocking
  rcases c.socket with - | s
  · rfl
  · rfl

instance (packets : List (Packet clientId)) (outcome : List OeResponse × OrderEntryClient) :
    Decidable (Faithful packets outcome) := inferInstanceAs (Decidable (_ ∧ _))

instance DrainsWhole.decidable : ∀ (n : ℕ) (packets : List (Packet clientId))
    (incoming : List Arrival), Decidable (DrainsWhole n packets incoming)
  | 0, _, _ => .isTrue trivial
  | _ + 1, [], _ => .isTrue trivial
  | n + 1, p :: packets, incoming =>
    have := DrainsWhole.decidable n
    inferInstanceAs (Decidable (
      if isReject p.response then DrainsWhole n packets (skip p.data.length incoming)
      else ∃ left ∈ leftAfter packets (ready (skip p.data.length incoming)),
        DrainsWhole n left (behind (skip p.data.length incoming))))

/-- What is unread is the packets to come. -/
theorem Feeding.unread_eq (h : Feeding packets blocking incoming c) : c.unread = wire packets := by
  obtain ⟨sent, hs⟩ := h.socket
  exact (unread_of_some hs).trans h.bytes

/-- Packets that have been returned may be left out on both sides. -/
theorem faithful_append (read left : List (Packet clientId)) (responses : List OeResponse)
    (c : OrderEntryClient) :
    Faithful (read ++ left) (read.map Packet.response ++ responses, c) ↔
      Faithful left (responses, c) := by
  unfold Faithful
  dsimp only
  rw [List.length_append, List.length_map, List.take_length_add_append,
    List.drop_length_add_append, List.map_append, List.append_cancel_left_eq]

/-- With no packet to come there is nothing to tear. -/
theorem drainsWhole_nil (n : ℕ) (incoming : List Arrival) :
    DrainsWhole n ([] : List (Packet clientId)) incoming := by
  cases n <;> exact trivial

/-- A call that returns adds what it returns. -/
theorem exchanges_of_ok {msg : List UInt8} {responses : List OeResponse} {c' : OrderEntryClient}
    (h : sendAndRecv msg c = .ok responses c') (msgs : List (List UInt8)) :
    exchanges (msg :: msgs) c = (responses ++ (exchanges msgs c').1, (exchanges msgs c').2) := by
  rw [exchanges, h]

theorem exchanges_of_error {msg : List UInt8} {e : OeError} {c' : OrderEntryClient}
    (h : sendAndRecv msg c = .error e c') (msgs : List (List UInt8)) :
    exchanges (msg :: msgs) c = exchanges msgs c' := by
  rw [exchanges, h]

/-- The first call made: what is faithful from the start is faithful from there. -/
theorem forall_take_cons {msg : List UInt8} {msgs : List (List UInt8)}
    (h : Feeding packets blocking incoming c) :
    (∀ k ≤ (msg :: msgs).length, Faithful packets (exchanges ((msg :: msgs).take k) c)) ↔
      ∀ k ≤ msgs.length, Faithful packets (exchanges (msg :: msgs.take k) c) := by
  constructor
  · intro hall k hk
    exact hall (k + 1) (Nat.succ_le_succ hk)
  · rintro hall (- | k) hk
    · exact ⟨rfl, h.unread_eq⟩
    · exact hall k (Nat.le_of_succ_le_succ hk)

/-- **The equivalence**, from any state in which packets are to come. -/
theorem faithful_iff_of_feeding (msgs : List (List UInt8))
    (h : Feeding packets blocking incoming c) :
    (∀ k ≤ msgs.length, Faithful packets (exchanges (msgs.take k) c)) ↔
      DrainsWhole msgs.length packets incoming := by
  induction msgs generalizing packets blocking incoming c with
  | nil =>
    refine ⟨fun _ ↦ trivial, fun _ k _ ↦ ?_⟩
    rw [List.take_nil]
    exact ⟨rfl, h.unread_eq⟩
  | cons msg msgs ih =>
    rw [forall_take_cons h]
    rcases packets with - | ⟨p, packets⟩
    · obtain ⟨e, c', hrun, hfeeding⟩ := sendAndRecv_end h msg
      have hrest := (ih hfeeding).2 (drainsWhole_nil _ _)
      refine ⟨fun _ ↦ trivial, fun _ k hk ↦ ?_⟩
      rw [exchanges_of_error hrun]
      exact hrest k hk
    obtain ⟨responses, c', hrun, hcollected⟩ := sendAndRecv_feeding h msg
    show _ ↔ if isReject p.response then _ else _
    simp only [exchanges_of_ok hrun]
    rcases hcollected with ⟨heq, hreject, hfeeding⟩ | ⟨heq, hreject, hdrained⟩
    · obtain ⟨rfl, rfl⟩ := List.cons.inj heq
      rw [if_pos hreject, ← ih hfeeding]
      exact forall₂_congr fun k _ ↦ faithful_append [p] packets _ _
    obtain ⟨rfl, rfl⟩ := List.cons.inj heq
    rw [if_neg (by rw [hreject]; decide)]
    rcases hdrained with @⟨read, left, c', hleft, rfl, hfeeding⟩ |
      @⟨read, left, c', sent, hleft, rfl, hsocket, hbytes⟩
    · rw [hleft]
      simp only [Option.mem_some_iff, exists_eq_left']
      rw [← ih (hfeeding.setBlocking true)]
      exact forall₂_congr fun k _ ↦ faithful_append (p :: read) left _ _
    · rw [hleft]
      refine ⟨fun hall ↦ ?_, fun ⟨_, hnone, _⟩ ↦ by cases hnone⟩
      -- already after the first call some bytes are neither returned nor unread
      have hfirst := hall 0 (Nat.zero_le _)
      rw [List.take_zero] at hfirst
      have hunread : (OrderEntryClient.setBlocking true _).unread = wire left :=
        ((faithful_append (p :: read) left [] _).1 hfirst).2
      rw [unread_setBlocking, unread_of_some hsocket] at hunread
      rw [hunread] at hbytes
      exact absurd hbytes (Nat.lt_irrefl _)

/-- **Exactly when nothing is lost**: however the bytes of the packets are segmented and timed,
successive calls return the packets in order, and leave those behind them to be read, if and only if
every drain finds whole packets. -/
theorem faithful_iff_drainsWhole {packets : List (Packet clientId)} {c : OrderEntryClient}
    {s : Socket}
    (hclient : c.clientId = clientId) (hsocket : c.socket = some s) (hreset : .reset ∉ s.incoming)
    (hbytes : bytesOf s.incoming = wire packets) (hstream : Stream c.respSeq packets)
    (msgs : List (List UInt8)) :
    (∀ k ≤ msgs.length, Faithful packets (exchanges (msgs.take k) c)) ↔
      DrainsWhole msgs.length packets s.incoming :=
  faithful_iff_of_feeding msgs
    ⟨⟨s.sent, hsocket⟩, hclient, hreset, hbytes, hstream⟩

/-- An acknowledgement and a fill of its order. -/
def ackAndFill : List (Packet 7) :=
  [(OeResponse.ack ⟨⟨40, 101, 1, 1, 1, 7⟩, 1, 900, 8, 100⟩).packet (by decide +kernel),
    (OeResponse.fill ⟨⟨33, 103, 1, 2, 1, 7⟩, 1, 3, 100, 1⟩).packet (by decide +kernel)]

/-- A client to which they arrive, with a pause behind so many of their bytes. -/
def pausedAt (k : ℕ) : OrderEntryClient :=
  init [] [] 7 (-20000) 10 (some (.connected
    (((wire ackAndFill).take k).map .byte ++ .pause :: ((wire ackAndFill).drop k).map .byte))) []

/-- A pause inside the first packet is waited out. -/
theorem faithful_iff_drainsWhole_pausedAt :
    Faithful ackAndFill (exchanges [[], []] (pausedAt 20)) := by
  have hstream : Stream (pausedAt 20).respSeq ackAndFill :=
    ⟨Or.inl rfl, Or.inr (by decide), trivial⟩
  have hclient : (pausedAt 20).clientId = 7 := rfl
  exact (faithful_iff_drainsWhole hclient rfl (by decide +kernel) (by decide +kernel) hstream
    [[], []]).2 (by decide +kernel) 2 (Nat.le_refl 2)

/-- **A pause inside the second one tears it**: its first ten bytes, read by the drain, are lost. -/
theorem torn_packet : ¬ Faithful ackAndFill (exchanges [[]] (pausedAt 50)) := by
  decide +kernel

end OrderEntryClient

end HftTrading.OrderEntry
