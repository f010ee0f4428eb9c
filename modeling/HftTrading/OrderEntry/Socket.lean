import HftTrading.Lib.Triple
import HftTrading.OrderEntry.Protocol

/-!
# The TCP connection

What the client's socket delivers, as a timeline of arrivals. A `cut` between two bytes is a
boundary at which a read stops short, the next one going on behind it. A `pause` is a moment at
which the later byte has not arrived yet: a non-blocking read that meets it raises, a blocking read
waits it out. The end of the timeline is the end of the stream, where reads return nothing; a
`reset` is a lost connection, on which reads and writes raise. So every segmentation and every
timing of a byte stream against the client's reads is a timeline, and `_recv_exact` and
`_recv_message` are written over it as the source writes them.

The timeline is also what reading uses up. `_recv_exact` loops until it has its bytes, and each turn
takes at least one arrival, so a bound on the number of turns can be read off the timeline; nothing
that the client does puts an arrival back. Writes are kept on the socket in order (`sent`), and
nothing reads them.
-/

namespace HftTrading.OrderEntry

/-! ### What order entry raises -/

/-- The exceptions of the order-entry client. -/
inductive OeError
  | orderRejected (orderId : ℤ) (reason : RejectReason)
  | orderNotOpen (orderId : ℤ)
  | versionMismatch (got : ℕ)
  | clientIdMismatch (got expected : ℤ)
  | seqNotMonotonic (got last : ℕ)
  | notAMember (enumeration : String) (value : ℤ)
  | malformedPacket
  | structError
  | wouldBlock
  | brokenConnection
  | connectionReset
  | connectionRefused
  | notConnected
  | loginExpected
  | loginFailed (status : LoginStatus)
  | reconnectFailed
  deriving DecidableEq

/-- Whether an exception is a `socket.error`, which is `OSError`: the connection errors and
`PermissionError` are. -/
def OeError.isSocketError : OeError → Bool
  | .wouldBlock | .brokenConnection | .connectionReset | .connectionRefused | .reconnectFailed
  | .loginExpected | .loginFailed _ => true
  | _ => false

/-! ### The socket -/

/-- What happens on the receiving side. -/
inductive Arrival
  | byte (b : UInt8)
  | cut
  | pause
  | reset
  deriving DecidableEq

/-- Packed responses that arrive together. -/
def Arrival.burst (responses : List OeResponse) : List Arrival :=
  responses.flatMap fun r ↦ (r.pack.getD []).map .byte

/-- A connected socket. -/
structure Socket where
  blocking : Bool
  incoming : List Arrival
  /-- What has been sent, message by message. -/
  sent : List (List UInt8)
  deriving DecidableEq

namespace Socket

/-- A new connection, on which this is going to arrive. -/
def connected (incoming : List Arrival) : Socket := ⟨true, incoming, []⟩

/-- `setblocking`. -/
def setBlocking (blocking : Bool) (s : Socket) : Socket := { s with blocking := blocking }

/-- At most `n` bytes that are there without a break, and what comes after them. -/
def takeBytes : ℕ → List Arrival → List UInt8 × List Arrival
  | n + 1, .byte b :: rest => ((b :: (takeBytes n rest).1), (takeBytes n rest).2)
  | _, incoming => ([], incoming)

/-- The timeline as a read meets it: behind the cuts, and a blocking read waits until something is
there. -/
def arrived (blocking : Bool) : List Arrival → List Arrival
  | .cut :: rest => arrived blocking rest
  | .pause :: rest => if blocking then arrived blocking rest else .pause :: rest
  | incoming => incoming

/-- `recv_into`, for a buffer of `n` bytes. -/
def recvInto (n : ℕ) : Method OeError Socket (List UInt8) := fun s ↦
  match arrived s.blocking s.incoming with
  | [] => .ok [] { s with incoming := [] }
  | .byte b :: rest =>
    .ok (takeBytes n (.byte b :: rest)).1 { s with incoming := (takeBytes n (.byte b :: rest)).2 }
  | .reset :: rest => .error .connectionReset { s with incoming := .reset :: rest }
  | _ :: rest => .error .wouldBlock { s with incoming := rest }

/-- `sendall`. -/
def sendall (data : List UInt8) : Method OeError Socket Unit := fun s ↦
  if s.incoming.head? = some .reset then .error .connectionReset s
  else .ok () { s with sent := s.sent ++ [data] }

/-- The loop of `_recv_exact`, with `missing` bytes still to come. A read that returns brings at
least one of them, so that many iterations are enough. -/
def recvLoop : ℕ → ℕ → List UInt8 → Method OeError Socket (List UInt8)
  | 0, _, buf => pure buf
  | iterations + 1, missing, buf =>
    if missing = 0 then pure buf
    else do
      let bytes ← recvInto missing
      if bytes = [] then throw .brokenConnection
      else recvLoop iterations (missing - bytes.length) (buf ++ bytes)

/-- `_recv_exact`. -/
def recvExact (expectedSize : ℕ) : Method OeError Socket (List UInt8) :=
  recvLoop expectedSize expectedSize []

/-- `RESP_HDR_SIZE`. -/
def RESP_HDR_SIZE : ℕ := OeResponseHeader.SIZE

/-- The length a packet announces. -/
def totalLength (data : List UInt8) : ℕ := Struct.fromBytes (data.take 2)

/-- `_recv_message`. -/
def recvMessage : Method OeError Socket (List UInt8) := do
  let hdrBytes ← recvExact RESP_HDR_SIZE
  if totalLength hdrBytes < RESP_HDR_SIZE then throw .malformedPacket
  else if totalLength hdrBytes = RESP_HDR_SIZE then pure hdrBytes
  else do
    let rest ← recvExact (totalLength hdrBytes - RESP_HDR_SIZE)
    pure (hdrBytes ++ rest)

/-! ### Reading uses arrivals up -/

/-- Taking bytes splits the timeline. -/
theorem length_takeBytes (n : ℕ) (incoming : List Arrival) :
    (takeBytes n incoming).1.length + (takeBytes n incoming).2.length = incoming.length := by
  induction incoming generalizing n with
  | nil => cases n <;> rfl
  | cons arrival rest ih =>
    cases n with
    | zero => simp [takeBytes]
    | succ n =>
      cases arrival with
      | byte b =>
        have h := ih n
        simp only [takeBytes, List.length_cons]
        omega
      | _ => simp [takeBytes]

/-- It takes as many as asked for at the most. -/
theorem length_takeBytes_le (n : ℕ) (incoming : List Arrival) :
    (takeBytes n incoming).1.length ≤ n := by
  induction incoming generalizing n with
  | nil => cases n <;> simp [takeBytes]
  | cons arrival rest ih =>
    cases n with
    | zero => simp [takeBytes]
    | succ n =>
      cases arrival with
      | byte b =>
        have h := ih n
        simp only [takeBytes, List.length_cons]
        omega
      | _ => simp [takeBytes]

/-- A wait takes arrivals off the timeline. -/
theorem length_arrived_le (blocking : Bool) (incoming : List Arrival) :
    (arrived blocking incoming).length ≤ incoming.length := by
  induction incoming with
  | nil => exact Nat.le_refl 0
  | cons arrival rest ih =>
    cases arrival with
    | cut => exact Nat.le_succ_of_le ih
    | pause =>
      cases blocking
      · exact Nat.le_refl _
      · exact Nat.le_succ_of_le ih
    | _ => exact Nat.le_refl _

/-- A read takes at least as many arrivals as it returns bytes; `d` bytes have been read before. -/
theorem recvInto_arrivals (n d k : ℕ) : Method.Triple (fun s : Socket ↦ s.incoming.length + d ≤ k)
    (recvInto n) (fun bytes s ↦ s.incoming.length + (d + bytes.length) ≤ k ∧ bytes.length ≤ n)
    fun s ↦ s.incoming.length ≤ k := by
  intro s hs
  have hle := length_arrived_le s.blocking s.incoming
  unfold recvInto
  rcases hrest : arrived s.blocking s.incoming with - | ⟨arrival, rest⟩ <;> rw [hrest] at hle
  · show 0 + (d + 0) ≤ k ∧ 0 ≤ n
    omega
  rw [List.length_cons] at hle
  cases arrival with
  | byte b =>
    have htake := length_takeBytes n (.byte b :: rest)
    have hn := length_takeBytes_le n (.byte b :: rest)
    rw [List.length_cons] at htake
    show (takeBytes n (.byte b :: rest)).2.length +
      (d + (takeBytes n (.byte b :: rest)).1.length) ≤ k ∧ _
    omega
  | reset =>
    show rest.length + 1 ≤ k
    omega
  | _ =>
    show rest.length ≤ k
    omega

/-- What the loop returns is of the size asked for, and was taken from what arrived. -/
theorem recvLoop_arrivals (iterations missing : ℕ) (buf : List UInt8) (k : ℕ)
    (hm : missing ≤ iterations) :
    Method.Triple (fun s : Socket ↦ s.incoming.length + buf.length ≤ k)
      (recvLoop iterations missing buf)
      (fun data s ↦ s.incoming.length + data.length ≤ k ∧ data.length = buf.length + missing)
      fun s ↦ s.incoming.length ≤ k := by
  induction iterations generalizing missing buf with
  | zero => exact Method.triple_pure _ fun s hs ↦ ⟨hs, by omega⟩
  | succ iterations ih =>
    rw [recvLoop]
    split
    · exact Method.triple_pure _ fun s hs ↦ ⟨hs, by omega⟩
    · refine (recvInto_arrivals missing buf.length k).bind fun bytes ↦ ?_
      split
      · exact Method.triple_throw _ fun s hs ↦ by omega
      · rename_i hne
        have hpos := List.length_pos_of_ne_nil hne
        intro s hs
        have hlen : (buf ++ bytes).length = buf.length + bytes.length := List.length_append
        have h := ih (missing - bytes.length) (buf ++ bytes) (by omega) s (by rw [hlen]; exact hs.1)
        revert h
        rcases recvLoop iterations (missing - bytes.length) (buf ++ bytes) s with ⟨data, t⟩ | ⟨e, t⟩
        · intro h
          exact ⟨h.1, by omega⟩
        · exact id

/-- **What is received has been on the timeline**, and is used up even if the read raises. -/
theorem recvExact_arrivals (n d k : ℕ) :
    Method.Triple (fun s : Socket ↦ s.incoming.length + d ≤ k) (recvExact n)
      (fun data s ↦ s.incoming.length + (d + data.length) ≤ k ∧ data.length = n)
      fun s ↦ s.incoming.length ≤ k := by
  intro s hs
  have h := recvLoop_arrivals n n [] (k - d) (Nat.le_refl n) s
    (by simp only [List.length_nil]; omega)
  unfold recvExact
  revert h
  rcases recvLoop n n [] s with ⟨data, t⟩ | ⟨e, t⟩
  · rintro ⟨h, hlen⟩
    refine ⟨by omega, by simpa using hlen⟩
  · intro h
    exact Nat.le_trans h (Nat.sub_le k d)

/-- **A message read is at least a header's worth of arrivals gone.** -/
theorem recvMessage_arrivals (k : ℕ) :
    Method.Triple (fun s : Socket ↦ s.incoming.length ≤ k) recvMessage
      (fun _ s ↦ s.incoming.length + RESP_HDR_SIZE ≤ k) fun s ↦ s.incoming.length ≤ k := by
  refine ((recvExact_arrivals RESP_HDR_SIZE 0 k).weaken (fun _ hs ↦ hs) (fun _ _ hs ↦ hs)
    fun _ hs ↦ hs).bind fun hdr ↦ ?_
  split
  · exact Method.triple_throw _ fun s hs ↦ by omega
  split
  · exact Method.triple_pure _ fun s hs ↦ by omega
  · refine ((recvExact_arrivals _ RESP_HDR_SIZE k).weaken (fun s hs ↦ ?_) (fun _ _ hs ↦ hs)
      fun _ hs ↦ hs).bind fun rest ↦ Method.triple_pure _ fun s hs ↦ ?_
    · omega
    · omega

end Socket

end HftTrading.OrderEntry
