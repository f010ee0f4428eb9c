import HftTrading.OrderEntry.Client
import Mathlib.Logic.Relation

/-!
# What reading responses can do

A read never touches orders, positions or cash: atom by atom, it moves the connection and the
counters of the wire, opens a batch, collects a response into it, or abandons it (`ReadStep`). A
`_send_and_recv` that returns leaves the list it returns as the innermost batch, and one that raises
leaves the batches as they were (`reads_sendAndRecv`).

## Where a read has got to

`Reading c₀ batches` says of a state that it has been read to from `c₀` and that these batches are
now open. Each method of reading has one lemma in these terms, of what it returns and of what it
raises; the batch in front is what the method has collected. The lemma on `_send_and_recv` is put
together from them in the order of its text.

The last section is about how much a read uses up: `_send_and_recv` returns only with fewer arrivals
to come than before (`sendAndRecv_arrivals`). It is what bounds the recursion of the kill switch.
-/

namespace HftTrading.OrderEntry.OrderEntryClient

/-- Nothing but the connection and the counters of the wire differs. -/
structure SameBooks (c c' : OrderEntryClient) : Prop where
  positionTracker : c'.positionTracker = c.positionTracker
  openOrders : c'.openOrders = c.openOrders
  pnlTracker : c'.pnlTracker = c.pnlTracker
  riskTracker : c'.riskTracker = c.riskTracker
  record : c'.record = c.record

/-- One atom of reading. -/
inductive ReadStep : OrderEntryClient → OrderEntryClient → Prop
  | wire {c c' : OrderEntryClient} (h : SameBooks c c') : ReadStep c c'
  | sent (c : OrderEntryClient) (message : List UInt8) : ReadStep c (c.note (.sent message))
  | opened (c : OrderEntryClient) : ReadStep c (c.onRecord Record.openBatch)
  | read {c : OrderEntryClient} {batch : List OeResponse} {outer : List (List OeResponse)}
      (h : c.record.batches = batch :: outer) (response : OeResponse) :
      ReadStep c ((c.onRecord (·.collect response)).note (.read response))
  | abandoned {c : OrderEntryClient} {batch : List OeResponse} {outer : List (List OeResponse)}
      (h : c.record.batches = batch :: outer) : ReadStep c c.abandonBatch

/-- Any number of atoms of reading. -/
abbrev Reads : OrderEntryClient → OrderEntryClient → Prop := Relation.ReflTransGen ReadStep

theorem ReadStep.openOrders_eq {c c' : OrderEntryClient} (h : ReadStep c c') :
    c'.openOrders = c.openOrders ∧ c'.positionTracker = c.positionTracker := by
  cases h with
  | wire h => exact ⟨h.openOrders, h.positionTracker⟩
  | sent => exact ⟨rfl, rfl⟩
  | opened => exact ⟨rfl, rfl⟩
  | read => exact ⟨rfl, rfl⟩
  | abandoned => exact ⟨rfl, rfl⟩

/-- Reading leaves orders and positions alone. -/
theorem Reads.openOrders_eq {c c' : OrderEntryClient} (h : Reads c c') :
    c'.openOrders = c.openOrders ∧ c'.positionTracker = c.positionTracker := by
  induction h with
  | refl => exact ⟨rfl, rfl⟩
  | tail _ hstep ih =>
    obtain ⟨hopen, hposition⟩ := hstep.openOrders_eq
    exact ⟨hopen.trans ih.1, hposition.trans ih.2⟩

/-- Reads since `c₀`, with these batches on the record. -/
structure Reading (c₀ : OrderEntryClient) (batches : List (List OeResponse))
    (c : OrderEntryClient) : Prop where
  reads : Reads c₀ c
  batches_eq : c.record.batches = batches

section

variable {c₀ : OrderEntryClient} {batches outer : List (List OeResponse)}

/-- Nothing read yet. -/
theorem Reading.refl (c : OrderEntryClient) : Reading c c.record.batches c := ⟨.refl, rfl⟩

/-- A step on the connection or its counters. -/
theorem Reading.wire {c c' : OrderEntryClient} (h : Reading c₀ batches c) (hsame : SameBooks c c') :
    Reading c₀ batches c' :=
  ⟨h.reads.tail (.wire hsame), by rw [hsame.record, h.batches_eq]⟩

theorem Reading.sent {c : OrderEntryClient} (h : Reading c₀ batches c) (message : List UInt8) :
    Reading c₀ batches (c.note (.sent message)) :=
  ⟨h.reads.tail (.sent c message), h.batches_eq⟩

theorem Reading.opened {c : OrderEntryClient} (h : Reading c₀ batches c) :
    Reading c₀ ([] :: batches) (c.onRecord Record.openBatch) :=
  ⟨h.reads.tail (.opened c), congrArg ([] :: ·) h.batches_eq⟩

/-- A response is collected into the innermost batch. -/
theorem Reading.read {c : OrderEntryClient} {batch : List OeResponse}
    (h : Reading c₀ (batch :: outer) c) (response : OeResponse) :
    Reading c₀ ((batch ++ [response]) :: outer)
      ((c.onRecord (·.collect response)).note (.read response)) := by
  refine ⟨h.reads.tail (.read h.batches_eq response), ?_⟩
  show (c.record.collect response).batches = _
  unfold Record.collect
  rw [h.batches_eq]

theorem Reading.abandoned {c : OrderEntryClient} {batch : List OeResponse}
    (h : Reading c₀ (batch :: outer) c) : Reading c₀ outer c.abandonBatch := by
  refine ⟨h.reads.tail (.abandoned h.batches_eq), ?_⟩
  show c.record.batches.tail = outer
  rw [h.batches_eq, List.tail_cons]

theorem reads_onSocket {α : Type} (call : Method OeError Socket α) :
    Method.Triple (Reading c₀ batches) (onSocket call) (fun _ ↦ Reading c₀ batches)
      (Reading c₀ batches) := by
  intro c hc
  rcases hs : c.socket with - | s
  · rw [onSocket_of_none hs]
    exact hc
  · rw [onSocket_of_some hs]
    unfold Method.focus
    rcases call s with ⟨a, s'⟩ | ⟨e, s'⟩
    · exact hc.wire ⟨rfl, rfl, rfl, rfl, rfl⟩
    · exact hc.wire ⟨rfl, rfl, rfl, rfl, rfl⟩

/-- Validating a header changes nothing. -/
theorem triple_validateResponseHeader {P : OrderEntryClient → Prop} (hdr : OeResponseHeader) :
    Method.Triple P (validateResponseHeader hdr) (fun _ ↦ P) P := by
  refine Method.triple_get fun c hc ↦ ?_
  split
  · exact Method.triple_throw _ fun _ hs ↦ hs ▸ hc
  split
  · exact Method.triple_throw _ fun _ hs ↦ hs ▸ hc
  split
  · exact Method.triple_throw _ fun _ hs ↦ hs ▸ hc
  · exact Method.triple_pure _ fun _ hs ↦ hs ▸ hc

/-- Parsing collects the response, or raises with nothing collected. -/
theorem reads_parseResponse {batch : List OeResponse} (data : List UInt8) :
    Method.Triple (Reading c₀ (batch :: outer)) (parseResponse data)
      (fun response ↦ Reading c₀ ((batch ++ [response]) :: outer))
      (Reading c₀ (batch :: outer)) := by
  unfold parseResponse
  rcases OeResponseHeader.unpack data with - | hdr
  · exact Method.triple_throw _ fun _ hc ↦ hc
  refine (triple_validateResponseHeader hdr).bind fun _ ↦ ?_
  refine (Method.triple_modify (Q := fun _ ↦ Reading c₀ (batch :: outer)) fun c hc ↦
    hc.wire ⟨rfl, rfl, rfl, rfl, rfl⟩).bind fun _ ↦ ?_
  rcases MsgType.ofValue? hdr.msgType with - | msgType
  · exact Method.triple_throw _ fun _ hc ↦ hc
  dsimp only
  rcases msgType.unpack hdr data with - | response
  · exact Method.triple_throw _ fun _ hc ↦ hc
  · exact (Method.triple_modify fun c hc ↦ hc.read response).bind fun _ ↦
      Method.triple_pure response fun _ hc ↦ hc

theorem reads_receive {batch : List OeResponse} :
    Method.Triple (Reading c₀ (batch :: outer)) receive
      (fun response ↦ Reading c₀ ((batch ++ [response]) :: outer)) (Reading c₀ (batch :: outer)) :=
  (reads_onSocket Socket.recvMessage).bind reads_parseResponse

theorem reads_drain (iterations : ℕ) (responses : List OeResponse) :
    Method.Triple (Reading c₀ (responses :: outer)) (drain iterations responses)
      (fun responses' ↦ Reading c₀ (responses' :: outer))
      fun c ↦ ∃ batch, Reading c₀ (batch :: outer) c := by
  induction iterations generalizing responses with
  | zero => exact Method.triple_pure _ fun _ hc ↦ hc
  | succ iterations ih =>
    rw [drain]
    refine Method.Triple.bind (R := fun next ↦ Reading c₀ ((responses ++ next.toList) :: outer))
      ?_ ?_
    · refine Method.Triple.tryCatch (F := Reading c₀ (responses :: outer)) ?_ fun e ↦ ?_
      · exact reads_receive.bind fun response ↦ Method.triple_pure _ fun _ hc ↦ hc
      · split
        · exact Method.triple_pure _ fun _ hc ↦ by rwa [Option.toList_none, List.append_nil]
        · exact Method.triple_throw _ fun _ hc ↦ ⟨_, hc⟩
    · rintro (- | response)
      · exact Method.triple_pure _ fun _ hc ↦ by rwa [Option.toList_none, List.append_nil] at hc
      · exact ih (responses ++ [response])

/-- Blocking or not is a matter of the connection. -/
theorem sameBooks_setBlocking (blocking : Bool) (c : OrderEntryClient) :
    SameBooks c (c.setBlocking blocking) := ⟨rfl, rfl, rfl, rfl, rfl⟩

/-- What is collected is what is returned. -/
theorem reads_collectResponses :
    Method.Triple (Reading c₀ ([] :: outer)) collectResponses
      (fun responses ↦ Reading c₀ (responses :: outer))
      fun c ↦ ∃ batch, Reading c₀ (batch :: outer) c := by
  refine (reads_receive.weaken (fun _ hc ↦ hc) (fun _ _ hc ↦ hc) fun _ hc ↦ ⟨_, hc⟩).bind
    fun first ↦ ?_
  rw [List.nil_append]
  split
  · exact Method.triple_pure _ fun _ hc ↦ hc
  · refine (Method.triple_modify (Q := fun _ ↦ Reading c₀ ([first] :: outer)) fun c hc ↦
      hc.wire (sameBooks_setBlocking false c)).bind fun _ ↦ Method.triple_get fun c hc ↦ ?_
    refine Method.Triple.onExit ((reads_drain _ _).weaken (fun t ht ↦ ht ▸ hc) (fun _ _ hc ↦ hc)
      fun _ hc ↦ hc) (fun responses t ht ↦ ?_) ?_
    · exact ht.wire (sameBooks_setBlocking true t)
    · rintro t ⟨batch, ht⟩
      exact ⟨batch, ht.wire (sameBooks_setBlocking true t)⟩

/-- **`_send_and_recv`** only reads; the list it returns is left as the innermost batch. -/
theorem reads_sendAndRecv (msg : List UInt8) :
    Method.Triple (Reading c₀ outer) (sendAndRecv msg)
      (fun responses ↦ Reading c₀ (responses :: outer)) (Reading c₀ outer) := by
  refine (reads_onSocket _).bind fun _ ↦ ?_
  refine (Method.triple_modify (Q := fun _ ↦ Reading c₀ ([] :: outer)) fun c hc ↦ ?_).bind
    fun _ ↦ ?_
  · exact ((hc.sent msg).wire (sameBooks_setBlocking true _)).opened
  · refine reads_collectResponses.onExit (fun _ _ hc ↦ hc) ?_
    rintro c ⟨batch, hc⟩
    exact hc.abandoned

/-- The exchange of a login only reads, and leaves no batch. -/
theorem reads_exchangeLogin (data : List UInt8) :
    Method.Triple (Reading c₀ outer) (exchangeLogin data) (fun _ ↦ Reading c₀ outer)
      (Reading c₀ outer) := by
  refine (reads_onSocket _).bind fun _ ↦ ?_
  refine (Method.triple_modify (Q := fun _ ↦ Reading c₀ ([] :: outer)) fun c hc ↦ hc.opened).bind
    fun _ ↦ ?_
  exact reads_receive.onExit (fun _ _ hc ↦ hc.abandoned) fun _ hc ↦ hc.abandoned

theorem reads_of_ok {c c' : OrderEntryClient} {msg : List UInt8} {responses : List OeResponse}
    (h : sendAndRecv msg c = .ok responses c') : Reads c c' := by
  have hreads := reads_sendAndRecv msg c (Reading.refl c)
  rw [h] at hreads
  exact hreads.reads

theorem reads_of_error {c c' : OrderEntryClient} {msg : List UInt8} {e : OeError}
    (h : sendAndRecv msg c = .error e c') : Reads c c' := by
  have hreads := reads_sendAndRecv msg c (Reading.refl c)
  rw [h] at hreads
  exact hreads.reads

theorem reads_after_exchangeLogin (data : List UInt8) (c : OrderEntryClient) :
    Reads c ((exchangeLogin data).after c) :=
  (Method.keeps_iff_triple.2 (reads_exchangeLogin data) c (Reading.refl c)).reads

end

/-! ### Reading uses arrivals up -/

/-- At most this many arrivals are still to come. -/
def AtMost (k : ℕ) (c : OrderEntryClient) : Prop := c.arrivals ≤ k

/-- Fewer arrivals than this are still to come. -/
def Below (k : ℕ) (c : OrderEntryClient) : Prop := c.arrivals < k

theorem Below.atMost {k : ℕ} {c : OrderEntryClient} (h : Below k c) : AtMost k c := le_of_lt h

/-- The arrivals are those on the socket. -/
theorem arrivals_of_some {c : OrderEntryClient} {s : Socket} (h : c.socket = some s) :
    c.arrivals = s.incoming.length := by
  rw [arrivals, h]
  rfl

/-- Blocking or not, they are the same. -/
theorem arrivals_setBlocking (blocking : Bool) (c : OrderEntryClient) :
    (c.setBlocking blocking).arrivals = c.arrivals := by
  unfold arrivals setBlocking
  rcases c.socket with - | s <;> rfl

/-- What a call uses up of its socket, it uses up of the client's arrivals. -/
theorem onSocket_arrivals {α : Type} {call : Method OeError Socket α} {P Q E : ℕ → Prop}
    (h : Method.Triple (fun s : Socket ↦ P s.incoming.length) call
      (fun _ s ↦ Q s.incoming.length) fun s ↦ E s.incoming.length) (hPE : ∀ n, P n → E n) :
    Method.Triple (fun c : OrderEntryClient ↦ P c.arrivals) (onSocket call)
      (fun _ c ↦ Q c.arrivals) fun c ↦ E c.arrivals := by
  intro c hc
  rcases hs : c.socket with - | s
  · rw [onSocket_of_none hs]
    exact hPE _ hc
  · rw [onSocket_of_some hs]
    rw [arrivals_of_some hs] at hc
    have hcall := h s hc
    unfold Method.focus
    revert hcall
    rcases call s with ⟨a, s'⟩ | ⟨e, s'⟩
    · exact id
    · exact id

theorem keeps_parseResponse_arrivals {I : OrderEntryClient → Prop} (data : List UInt8)
    (hI : ∀ c c' : OrderEntryClient, c'.socket = c.socket → I c → I c') :
    Method.Keeps I (parseResponse data) := by
  unfold parseResponse
  rcases OeResponseHeader.unpack data with - | hdr
  · exact Method.keeps_throw _
  refine (Method.keeps_iff_triple.2 (triple_validateResponseHeader hdr)).bind fun _ ↦
    Method.Keeps.bind (Method.keeps_modify fun c hc ↦ hI c _ rfl hc) fun _ ↦ ?_
  rcases MsgType.ofValue? hdr.msgType with - | msgType
  · exact Method.keeps_throw _
  dsimp only
  rcases msgType.unpack hdr data with - | response
  · exact Method.keeps_throw _
  · exact Method.Keeps.bind (Method.keeps_modify fun c hc ↦ hI c _ rfl hc) fun _ ↦
      Method.keeps_pure _

/-- The arrivals are a matter of the socket. -/
theorem AtMost.congr {k : ℕ} {c c' : OrderEntryClient} (h : c'.socket = c.socket)
    (hc : AtMost k c) : AtMost k c' := by
  unfold AtMost arrivals at *
  rwa [h]

theorem Below.congr {k : ℕ} {c c' : OrderEntryClient} (h : c'.socket = c.socket)
    (hc : Below k c) : Below k c' := by
  unfold Below arrivals at *
  rwa [h]

/-- A response that has been read took arrivals. -/
theorem receive_arrivals (k : ℕ) :
    Method.Triple (AtMost k) receive (fun _ ↦ Below k) (AtMost k) := by
  refine Method.Triple.bind (R := fun _ ↦ Below k) ?_ fun data ↦ ?_
  · refine onSocket_arrivals (P := (· ≤ k)) (Q := (· < k)) (E := (· ≤ k)) ?_ fun _ hn ↦ hn
    refine (Socket.recvMessage_arrivals k).weaken (fun _ hs ↦ hs) (fun _ s hs ↦ ?_) fun _ hs ↦ hs
    have hsize : Socket.RESP_HDR_SIZE = 16 := rfl
    omega
  · exact (Method.keeps_iff_triple.1
      (keeps_parseResponse_arrivals data fun _ _ h hc ↦ hc.congr h)).weaken (fun _ hc ↦ hc)
      (fun _ _ hc ↦ hc) fun _ hc ↦ hc.atMost

theorem keeps_receive_arrivals (k : ℕ) : Method.Keeps (AtMost k) receive :=
  Method.keeps_iff_triple.2 ((receive_arrivals k).weaken (fun _ hc ↦ hc)
    (fun _ _ hc ↦ hc.atMost) fun _ hc ↦ hc)

theorem keeps_drain_arrivals (iterations : ℕ) (responses : List OeResponse) (k : ℕ) :
    Method.Keeps (AtMost k) (drain iterations responses) := by
  induction iterations generalizing responses with
  | zero => exact Method.keeps_pure _
  | succ iterations ih =>
    rw [drain]
    refine Method.Keeps.bind (Method.Keeps.tryCatch ?_ fun e ↦ ?_) ?_
    · exact (keeps_receive_arrivals k).bind fun _ ↦ Method.keeps_pure _
    · split
      · exact Method.keeps_pure _
      · exact Method.keeps_throw _
    · rintro (- | response)
      · exact Method.keeps_pure _
      · exact ih _

/-- **`_send_and_recv` returns only after having read.** -/
theorem sendAndRecv_arrivals (msg : List UInt8) (k : ℕ) :
    Method.Triple (AtMost k) (sendAndRecv msg) (fun _ ↦ Below k) (AtMost k) := by
  refine Method.Triple.bind (R := fun _ ↦ AtMost k) ?_ fun _ ↦ ?_
  · refine onSocket_arrivals (P := (· ≤ k)) (Q := (· ≤ k)) (E := (· ≤ k)) ?_ fun _ hn ↦ hn
    intro s hs
    unfold Socket.sendall
    by_cases hreset : s.incoming.head? = some .reset
    · rw [if_pos hreset]
      exact hs
    · rw [if_neg hreset]
      exact hs
  refine (Method.triple_modify (Q := fun _ ↦ AtMost k) fun c hc ↦ ?_).bind fun _ ↦ ?_
  · exact (arrivals_setBlocking true c).trans_le hc
  refine Method.Triple.onExit (R := fun _ ↦ Below k) (F := AtMost k) ?_ (fun _ _ hc ↦ hc)
    fun _ hc ↦ hc
  refine (receive_arrivals k).bind fun first ↦ ?_
  split
  · exact Method.triple_pure _ fun _ hc ↦ hc
  rcases k with - | k
  -- nothing was there to be read
  · intro c hc
    exact absurd hc (Nat.not_lt_zero _)
  -- what is left after the first response is at most `k`
  have hkeeps : Method.Keeps (AtMost k) (do
      modify (setBlocking false)
      let c ← get
      (drain (c.arrivals + 1) [first]).onExit (setBlocking true) (setBlocking true) :
        ClientM (List OeResponse)) := by
    refine Method.Keeps.bind (Method.keeps_modify fun c hc ↦ ?_) fun _ ↦
      Method.keeps_get.bind fun c ↦ (keeps_drain_arrivals _ _ k).onExit (fun c hc ↦ ?_)
        fun c hc ↦ ?_
    · exact (arrivals_setBlocking false c).trans_le hc
    · exact (arrivals_setBlocking true c).trans_le hc
    · exact (arrivals_setBlocking true c).trans_le hc
  exact (Method.keeps_iff_triple.1 hkeeps).weaken (fun _ hc ↦ Nat.le_of_lt_succ hc)
    (fun _ _ hc ↦ Nat.lt_succ_of_le hc) fun _ hc ↦ Nat.le_succ_of_le hc

end HftTrading.OrderEntry.OrderEntryClient
