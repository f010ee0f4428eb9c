import HftTrading.OrderEntry.SeqNums
import HftTrading.OrderEntry.Stream

/-!
# Reconnecting

`reconnect` forgets the session and makes up to five attempts, each on a new connection. An attempt
is refused or lost, or the exchange answers the login, with its first response on that connection
(`Meets`). The sequence number of that response is kept when the login fails, and the next
connection numbers its responses from one again: an answer that turns the login down makes every
later one look out of order (`raises_of_turnedDown`). As long as no attempt has been answered, the
first answer that accepts the login is taken (`returns_of_untouched`).

`Facing` is the situation before each attempt: what the next attempts will meet, and that the client
can log in at all. An attempt either fails in one of these ways and leaves the client facing the
rest, or returns. So a run of attempts is gone through by an induction over the outcomes, with the
number that is expected of the next response as the only thing that makes a difference.
-/

namespace HftTrading.OrderEntry

/-! ### Attempts -/

/-- Nothing comes of a login on this connection: it cannot be sent, or reading the answer fails. -/
def Socket.Loses (incoming : List Arrival) : Prop :=
  incoming.head? = some .reset ∨
    ∀ sent, Method.Raises Socket.recvMessage ⟨true, incoming, sent⟩

/-- These are the bytes of the first message on this connection. -/
structure Socket.Delivers (incoming : List Arrival) (data : List UInt8) : Prop where
  alive : incoming.head? ≠ some .reset
  read : ∀ sent, ∃ s, Socket.recvMessage ⟨true, incoming, sent⟩ = .ok data s

/-- **A packet is delivered**, in any segmentation and at any times. -/
theorem Socket.delivers_of_bytes {incoming : List Arrival} {data rest : List UInt8}
    (hdata : Socket.Sized data) (hreset : .reset ∉ incoming)
    (hbytes : Arrival.bytesOf incoming = data ++ rest) : Socket.Delivers incoming data := by
  refine ⟨fun hhead ↦ ?_, fun sent ↦ ⟨_, Socket.recvMessage_of_available hdata hreset hbytes ?_⟩⟩
  · obtain ⟨tail, rfl⟩ := List.head?_eq_some_iff.1 hhead
    exact hreset List.mem_cons_self
  · refine ⟨?_, fun hblocking ↦ by cases hblocking⟩
    dsimp only
    rw [hbytes, List.length_append]
    exact Nat.le_add_right _ _

/-- What an attempt to connect and log in comes to, as the exchange sees it. -/
inductive Outcome
  | refused
  | lost
  | answered (status : LoginStatus) (sessionId : ℕ)
  deriving DecidableEq

/-- The exchange has answered. -/
def Outcome.Answered : Outcome → Prop
  | .answered _ _ => True
  | _ => False

/-- The session that the exchange has opened. -/
def Outcome.accepted? : Outcome → Option ℕ
  | .answered .success sessionId => some sessionId
  | _ => none

/-- An entry of the network has this outcome for a client: an answer is the first message on its
connection and has number one. -/
inductive Meets (clientId : ℤ) : Option (List Arrival) → Outcome → Prop
  | refused : Meets clientId none .refused
  | lost {incoming : List Arrival} (h : Socket.Loses incoming) :
      Meets clientId (some incoming) .lost
  | answered {incoming : List Arrival} {p : Packet clientId} {m : LoginResponse}
      {status : LoginStatus} (hdelivers : Socket.Delivers incoming p.data)
      (hfirst : p.hdr.seqNum = 1) (hresponse : p.response = .loginResponse m)
      (hstatus : LoginStatus.ofValue? m.status = some status) :
      Meets clientId (some incoming) (.answered status m.sessionId)

namespace OrderEntryClient

variable {c c' : OrderEntryClient} {incoming : List Arrival}

/-! ### One login -/

/-- What `login` does with the response. -/
def settleLogin (response : OeResponse) : ClientM LoginResponse :=
  match response with
  | .loginResponse m =>
    match LoginStatus.ofValue? m.status with
    | none => throw (.notAMember "LoginStatus" m.status)
    | some status =>
      if status ≠ .success then throw (.loginFailed status)
      else do
        modify fun c ↦ { c with sessionId := m.sessionId }
        pure m
  | _ => throw .loginExpected

/-- The login, packed. -/
def loginPacket (c : OrderEntryClient) : Option (List UInt8) :=
  Login.pack ⟨c.nextHeader .login Login.SIZE, c.username, c.password⟩

/-- A number is taken. -/
def numberTaken (c : OrderEntryClient) : OrderEntryClient := { c with seqNum := c.seqNum + 1 }

/-- A login takes its number, packs the request, and settles the response. -/
theorem login_eq (c : OrderEntryClient) :
    login c = (do
      let data ← packed c.loginPacket
      let response ← exchangeLogin data
      settleLogin response) c.numberTaken := by
  unfold login
  rw [Method.bind_ok (Method.get_apply c), Method.bind_ok (makeHeader_eq _ _ c)]
  unfold loginPacket
  rfl

/-- Nothing but the number taken, the connection and the record has changed. -/
structure Tried (c c' : OrderEntryClient) : Prop where
  network : c'.network = c.network
  clientId : c'.clientId = c.clientId
  sessionId : c'.sessionId = c.sessionId
  seqNum : c'.seqNum ≤ c.seqNum + 1

/-- The client once the login has been sent. -/
def loginSent (s : Socket) (data : List UInt8) (c : OrderEntryClient) : OrderEntryClient :=
  (setSocket { s with sent := s.sent ++ [data] } c.numberTaken).onRecord Record.openBatch

theorem packed_some (data : List UInt8) (c : OrderEntryClient) :
    packed (some data) c = .ok data c := rfl

/-- Then the response is read. -/
theorem login_of_sent {s : Socket} (hs : c.socket = some s)
    (hopen : s.incoming.head? ≠ some .reset) {data : List UInt8}
    (hpack : c.loginPacket = some data) :
    login c = (receive.onExit abandonBatch abandonBatch >>= settleLogin) (loginSent s data c) := by
  have hsocket : c.numberTaken.socket = some s := hs
  have hsend : sendRaw data c.numberTaken =
      .ok () (setSocket { s with sent := s.sent ++ [data] } c.numberTaken) := by
    have hrun : Socket.sendall data s = .ok () { s with sent := s.sent ++ [data] } := if_neg hopen
    rw [sendRaw, onSocket_of_some hsocket, Method.focus_ok hrun]
  have hexchange : exchangeLogin data c.numberTaken =
      receive.onExit abandonBatch abandonBatch (loginSent s data c) := by
    rw [exchangeLogin, Method.bind_ok hsend]
    rfl
  rw [login_eq, hpack, Method.bind_ok (packed_some data _), Method.bind_apply, hexchange,
    Method.bind_apply]

/-- **A lost login** raises and reads nothing. -/
theorem login_lost (hs : c.socket = some (.connected incoming)) (hlost : Socket.Loses incoming) :
    ∃ e c', login c = .error e c' ∧ Tried c c' ∧ c'.respSeq = c.respSeq := by
  rcases hpack : c.loginPacket with - | data
  · refine ⟨.structError, c.numberTaken, ?_, ⟨rfl, rfl, rfl, le_rfl⟩, rfl⟩
    rw [login_eq, hpack]
    rfl
  by_cases hreset : incoming.head? = some .reset
  -- lost before the login goes out
  · have hsocket : c.numberTaken.socket = some (.connected incoming) := hs
    have hrun : Socket.sendall data (.connected incoming) =
        .error .connectionReset (.connected incoming) := if_pos hreset
    have hsend : sendRaw data c.numberTaken =
        .error .connectionReset (setSocket (.connected incoming) c.numberTaken) := by
      rw [sendRaw, onSocket_of_some hsocket, Method.focus_error hrun]
    have hexchange : exchangeLogin data c.numberTaken =
        .error .connectionReset (setSocket (.connected incoming) c.numberTaken) := by
      rw [exchangeLogin, Method.bind_error hsend]
    refine ⟨.connectionReset, setSocket (.connected incoming) c.numberTaken, ?_,
      ⟨rfl, rfl, rfl, le_rfl⟩, rfl⟩
    rw [login_eq, hpack, Method.bind_ok (packed_some data _), Method.bind_error hexchange]
  -- lost before its answer has come in
  · obtain ⟨e, s, hread⟩ := hlost.resolve_left hreset [data]
    have hsocket : (loginSent (.connected incoming) data c).socket =
        some ⟨true, incoming, [data]⟩ := rfl
    have hrecv := (onSocket_of_some hsocket Socket.recvMessage).trans
      (Method.focus_error hread setSocket _)
    have hreceive : receive (loginSent (.connected incoming) data c) =
        .error e (setSocket s (loginSent (.connected incoming) data c)) := Method.bind_error hrecv
    refine ⟨e, (setSocket s (loginSent (.connected incoming) data c)).abandonBatch, ?_,
      ⟨rfl, rfl, rfl, le_rfl⟩, rfl⟩
    rw [login_of_sent hs hreset hpack]
    exact Method.bind_error (Method.onExit_error hreceive _ _)

/-! ### Answered logins -/

variable {p : Packet c.clientId}

/-- A login that is answered could be packed: the answer carries the client's id. -/
theorem loginPacket_of_packet (p : Packet c.clientId) (hseqNum : c.seqNum + 1 < 256 ^ 4)
    (hsession : c.sessionId < 256 ^ 8) : ∃ data, c.loginPacket = some data := by
  have hfits : Struct.Fits OeResponseHeader.FORMAT p.hdr.fields :=
    (Struct.Record.pack_unpack (R := OeResponseHeader.record.toRecord) p.hdr_eq).1
  have hclient : 0 ≤ c.clientId ∧ c.clientId < 256 ^ 4 := by
    obtain ⟨-, -, -, -, -, hclient, -⟩ := hfits
    rwa [← p.clientId_eq]
  have hbytes : Struct.Fits [.bytes 16, .bytes 16] [.bytes c.username, .bytes c.password] :=
    ⟨trivial, trivial, trivial⟩
  have hsize : Login.SIZE < 256 ^ 2 := by decide
  have hmsgType : 0 ≤ MsgType.login.value ∧ MsgType.login.value < 256 ^ 1 := by decide
  have hversion : OE_PROTOCOL_VERSION < 256 ^ 1 := by decide
  have hheader : OeRequestHeader.record.Fits (c.nextHeader .login Login.SIZE) :=
    (header_fits_iff _).2 ⟨hsize, hmsgType, hversion, hseqNum, hclient, hsession⟩
  exact pack_of_fits hheader hbytes

/-- **An answered login** has its answer parsed. -/
theorem login_delivered (hs : c.socket = some (.connected incoming))
    (hdelivers : Socket.Delivers incoming p.data) (hseqNum : c.seqNum + 1 < 256 ^ 4)
    (hsession : c.sessionId < 256 ^ 8) :
    ∃ c', login c = ((parseResponse p.data).onExit abandonBatch abandonBatch >>= settleLogin) c' ∧
      Tried c c' ∧ c'.respSeq = c.respSeq := by
  obtain ⟨data, hpack⟩ := loginPacket_of_packet p hseqNum hsession
  obtain ⟨s, hread⟩ := hdelivers.read [data]
  have hsocket : (loginSent (.connected incoming) data c).socket =
      some ⟨true, incoming, [data]⟩ := rfl
  have hrecv := (onSocket_of_some hsocket Socket.recvMessage).trans
    (Method.focus_ok hread setSocket _)
  have hreceive : receive (loginSent (.connected incoming) data c) =
      parseResponse p.data (setSocket s (loginSent (.connected incoming) data c)) :=
    Method.bind_ok hrecv
  refine ⟨setSocket s (loginSent (.connected incoming) data c), ?_, ⟨rfl, rfl, rfl, le_rfl⟩, rfl⟩
  rw [login_of_sent hs hdelivers.alive hpack, Method.bind_apply, Method.bind_apply]
  unfold Method.onExit
  rw [hreceive]

/-- Where a response has been read before, one with number one is out of order. -/
theorem parseResponse_outOfOrder {clientId : ℤ} {p : Packet clientId}
    (hclient : c.clientId = clientId) (hfirst : p.hdr.seqNum = 1) (hread : c.respSeq ≠ 0) :
    parseResponse p.data c = .error (.seqNotMonotonic p.hdr.seqNum c.respSeq) c := by
  have hinvalid : validateResponseHeader p.hdr c =
      .error (.seqNotMonotonic p.hdr.seqNum c.respSeq) c := by
    unfold validateResponseHeader
    rw [Method.bind_ok (Method.get_apply c), if_neg (not_not.2 p.version_eq),
      if_neg (not_not.2 (p.clientId_eq.trans hclient.symm)), if_pos ⟨hread, by omega⟩]
    rfl
  unfold parseResponse
  rw [p.hdr_eq]
  exact Method.bind_error hinvalid

/-- A login that is turned down raises its status. -/
theorem settleLogin_of_failure {m : LoginResponse} {status : LoginStatus}
    (hstatus : LoginStatus.ofValue? m.status = some status) (hne : status ≠ .success)
    (c : OrderEntryClient) :
    settleLogin (.loginResponse m) c = .error (.loginFailed status) c := by
  unfold settleLogin
  dsimp only
  rw [hstatus]
  exact congrFun (if_pos hne) c

theorem settleLogin_of_success {m : LoginResponse}
    (hstatus : LoginStatus.ofValue? m.status = some .success) (c : OrderEntryClient) :
    settleLogin (.loginResponse m) c = .ok m { c with sessionId := m.sessionId } := by
  unfold settleLogin
  dsimp only
  rw [hstatus]
  rfl

/-- The client once the answer has been read. -/
def answerRead {clientId : ℤ} (p : Packet clientId) (c : OrderEntryClient) : OrderEntryClient :=
  (({ c with respSeq := p.hdr.seqNum }.onRecord (·.collect p.response)).note
    (.read p.response)).abandonBatch

/-- A login that is answered first settles that answer. -/
theorem login_of_parsed {c₁ : OrderEntryClient}
    (hlogin : login c =
      ((parseResponse p.data).onExit abandonBatch abandonBatch >>= settleLogin) c₁)
    (hclient : c₁.clientId = c.clientId) (hread : c₁.respSeq = 0) :
    login c = settleLogin p.response (answerRead p c₁) := by
  have hparse := parseResponse_packet (p := p) hclient (.inl hread)
  rw [hlogin, Method.bind_ok (Method.onExit_ok hparse _ _)]
  rfl

/-- **A login that is turned down**, or answered behind another answer, raises, and a response has
been read. -/
theorem login_turnedDown {m : LoginResponse} {status : LoginStatus}
    (hs : c.socket = some (.connected incoming)) (hdelivers : Socket.Delivers incoming p.data)
    (hfirst : p.hdr.seqNum = 1) (hresponse : p.response = .loginResponse m)
    (hstatus : LoginStatus.ofValue? m.status = some status)
    (hdown : c.respSeq ≠ 0 ∨ status ≠ .success) (hseqNum : c.seqNum + 1 < 256 ^ 4)
    (hsession : c.sessionId < 256 ^ 8) :
    ∃ e c', login c = .error e c' ∧ Tried c c' ∧ c'.respSeq ≠ 0 := by
  obtain ⟨c₁, hlogin, htried, hresp⟩ := login_delivered hs hdelivers hseqNum hsession
  by_cases hread : c.respSeq = 0
  -- the answer is read, and its number is the last one from now on
  · refine ⟨.loginFailed status, answerRead p c₁, ?_,
      ⟨htried.network, htried.clientId, htried.sessionId, htried.seqNum⟩, ?_⟩
    · rw [login_of_parsed hlogin htried.clientId (hresp.trans hread), hresponse,
        settleLogin_of_failure hstatus (hdown.resolve_left (not_not.2 hread))]
    · show p.hdr.seqNum ≠ 0
      omega
  -- it starts the numbers anew, and they have to grow
  · have hparse := parseResponse_outOfOrder (p := p) htried.clientId hfirst
      (fun h ↦ hread (hresp.symm.trans h))
    refine ⟨.seqNotMonotonic p.hdr.seqNum c₁.respSeq, c₁.abandonBatch, ?_,
      ⟨htried.network, htried.clientId, htried.sessionId, htried.seqNum⟩, ?_⟩
    · rw [hlogin, Method.bind_error (Method.onExit_error hparse _ _)]
    · show c₁.respSeq ≠ 0
      rwa [hresp]

/-- **A login that is accepted**, as the first to be answered, opens its session. -/
theorem login_accepted {m : LoginResponse} (hs : c.socket = some (.connected incoming))
    (hdelivers : Socket.Delivers incoming p.data) (hresponse : p.response = .loginResponse m)
    (hstatus : LoginStatus.ofValue? m.status = some .success) (hread : c.respSeq = 0)
    (hseqNum : c.seqNum + 1 < 256 ^ 4) (hsession : c.sessionId < 256 ^ 8) :
    ∃ c', login c = .ok m c' ∧ c'.sessionId = m.sessionId ∧ c'.network = c.network := by
  obtain ⟨c₁, hlogin, htried, hresp⟩ := login_delivered hs hdelivers hseqNum hsession
  refine ⟨{ answerRead p c₁ with sessionId := m.sessionId }, ?_, rfl, htried.network⟩
  rw [login_of_parsed hlogin htried.clientId (hresp.trans hread), hresponse,
    settleLogin_of_success hstatus]

/-! ### One attempt -/

/-- What an attempt tries. -/
def attempt : ClientM Bool := do
  connect
  let _ ← login
  pure true

/-- One attempt, and the others if it fails. -/
theorem attempts_succ (n : ℕ) (c : OrderEntryClient) :
    attempts (n + 1) c = (do
      let done ← tryCatch attempt fun _ ↦ pure false
      if done then pure () else attempts n) c := rfl

/-- The client on a new connection. -/
def connected (incoming : List Arrival) (rest : List (Option (List Arrival)))
    (c : OrderEntryClient) : OrderEntryClient :=
  { c with socket := some (.connected incoming), network := rest }

/-- An attempt later. -/
structure Moved (rest : List (Option (List Arrival))) (c c' : OrderEntryClient) : Prop where
  network : c'.network = rest
  clientId : c'.clientId = c.clientId
  sessionId : c'.sessionId = c.sessionId
  seqNum : c'.seqNum ≤ c.seqNum + 1

/-- A login that fails moves nothing but the connection and the counters. -/
theorem Tried.moved {rest : List (Option (List Arrival))}
    (h : Tried (c.connected incoming rest) c') : Moved rest c c' :=
  ⟨h.network, h.clientId, h.sessionId, h.seqNum⟩

section

variable {entry : Option (List Arrival)} {rest : List (Option (List Arrival))} {o : Outcome}
  {n : ℕ}

theorem connect_some (hnetwork : c.network = some incoming :: rest) :
    connect c = .ok () (c.connected incoming rest) := by
  unfold connect
  rw [hnetwork]
  rfl

theorem connect_none (hnetwork : c.network = none :: rest) :
    connect c = .error .connectionRefused { c.close with network := rest } := by
  unfold connect
  rw [hnetwork]

/-- An attempt that raises is followed by the next. -/
theorem attempts_of_error {e : OeError} (n : ℕ) (h : attempt c = .error e c') :
    attempts (n + 1) c = attempts n c' := by
  have htry := Method.tryCatch_error h fun _ ↦ pure false
  rw [attempts_succ, Method.bind_ok htry]
  exact congrFun (if_neg Bool.false_ne_true) c'

/-- A login that raises leaves the other attempts. -/
theorem attempts_of_login_error {e : OeError} (n : ℕ)
    (hnetwork : c.network = some incoming :: rest)
    (h : login (c.connected incoming rest) = .error e c') :
    attempts (n + 1) c = attempts n c' :=
  attempts_of_error n ((Method.bind_ok (connect_some hnetwork)).trans (Method.bind_error h))

/-- **An attempt that is not answered** leaves the counter of responses alone. -/
theorem attempts_unanswered (n : ℕ) (hnetwork : c.network = entry :: rest)
    (hmeets : Meets c.clientId entry o) (ho : ¬ o.Answered) :
    ∃ c', attempts (n + 1) c = attempts n c' ∧ Moved rest c c' ∧ c'.respSeq = c.respSeq := by
  cases hmeets with
  | refused =>
    exact ⟨{ c.close with network := rest },
      attempts_of_error n (Method.bind_error (connect_none hnetwork)),
      ⟨rfl, rfl, rfl, Nat.le_succ _⟩, rfl⟩
  | @lost incoming h =>
    have hs : (c.connected incoming rest).socket = some (.connected incoming) := rfl
    obtain ⟨e, c', hlogin, htried, hresp⟩ := login_lost hs h
    exact ⟨c', attempts_of_login_error n hnetwork hlogin, htried.moved, hresp⟩
  | answered => exact absurd trivial ho

/-- **An answer that turns the login down**, and any answer behind one, sets it. -/
theorem attempts_turnedDown (n : ℕ) {status : LoginStatus} {sessionId : ℕ}
    (hnetwork : c.network = entry :: rest)
    (hmeets : Meets c.clientId entry (.answered status sessionId))
    (hdown : c.respSeq ≠ 0 ∨ status ≠ .success) (hseqNum : c.seqNum + 1 < 256 ^ 4)
    (hsession : c.sessionId < 256 ^ 8) :
    ∃ c', attempts (n + 1) c = attempts n c' ∧ Moved rest c c' ∧ c'.respSeq ≠ 0 := by
  cases hmeets with
  | @answered incoming p m status hdelivers hfirst hresponse hstatus =>
    have hs : (c.connected incoming rest).socket = some (.connected incoming) := rfl
    obtain ⟨e, c', hlogin, htried, hresp⟩ :=
      login_turnedDown hs hdelivers hfirst hresponse hstatus hdown hseqNum hsession
    exact ⟨c', attempts_of_login_error n hnetwork hlogin, htried.moved, hresp⟩

/-- **The first answer**, if it accepts the login, ends the attempts. -/
theorem attempts_accepted (n : ℕ) {sessionId : ℕ} (hnetwork : c.network = entry :: rest)
    (hmeets : Meets c.clientId entry (.answered .success sessionId)) (hread : c.respSeq = 0)
    (hseqNum : c.seqNum + 1 < 256 ^ 4) (hsession : c.sessionId < 256 ^ 8) :
    ∃ c', attempts (n + 1) c = .ok () c' ∧ c'.sessionId = sessionId ∧ c'.network = rest := by
  cases hmeets with
  | @answered incoming p m status hdelivers hfirst hresponse hstatus =>
    have hs : (c.connected incoming rest).socket = some (.connected incoming) := rfl
    obtain ⟨c', hlogin, hid, hnet⟩ :=
      login_accepted hs hdelivers hresponse hstatus hread hseqNum hsession
    have hattempt : attempt c = .ok true c' :=
      (Method.bind_ok (connect_some hnetwork)).trans (Method.bind_ok hlogin)
    refine ⟨c', ?_, hid, hnet⟩
    rw [attempts_succ, Method.bind_ok (Method.tryCatch_ok hattempt _)]
    rfl

/-! ### All attempts -/

/-- The outcomes that are to come, with sequence numbers left for so many attempts. -/
structure Facing (outcomes : List Outcome) (n : ℕ) (c : OrderEntryClient) : Prop where
  meets : List.Forall₂ (Meets c.clientId) c.network outcomes
  seqNum : c.seqNum + n < 256 ^ 4
  sessionId : c.sessionId < 256 ^ 8

variable {outcomes : List Outcome}

/-- What is to come behind one attempt. -/
theorem Facing.cons (h : Facing (o :: outcomes) (n + 1) c) :
    ∃ entry rest, c.network = entry :: rest ∧ Meets c.clientId entry o ∧
      ∀ c', Moved rest c c' → Facing outcomes n c' := by
  obtain ⟨hmeets, hseqNum, hsession⟩ := h
  obtain ⟨entry, rest, hfirst, hrest, hnetwork⟩ := List.forall₂_cons_right_iff.1 hmeets
  refine ⟨entry, rest, hnetwork, hfirst, fun c' hmoved ↦ ⟨?_, ?_, ?_⟩⟩
  · rw [hmoved.network, hmoved.clientId]
    exact hrest
  · have hle := hmoved.seqNum
    omega
  · rw [hmoved.sessionId]
    exact hsession

/-- **An attempt without an answer** leaves the expected number as it is. -/
theorem Facing.unanswered (h : Facing (o :: outcomes) (n + 1) c) (ho : ¬ o.Answered) :
    ∃ c', attempts (n + 1) c = attempts n c' ∧ Facing outcomes n c' ∧ c'.respSeq = c.respSeq ∧
      c'.network = c.network.tail := by
  obtain ⟨entry, rest, hnetwork, hmeets, hnext⟩ := h.cons
  obtain ⟨c', hstep, hmoved, hresp⟩ := attempts_unanswered n hnetwork hmeets ho
  exact ⟨c', hstep, hnext c' hmoved, hresp, by rw [hmoved.network, hnetwork, List.tail_cons]⟩

/-- **An answer that turns the login down**, or comes after one, leaves it wrong. -/
theorem Facing.turnedDown {status : LoginStatus} {sessionId : ℕ}
    (h : Facing (.answered status sessionId :: outcomes) (n + 1) c)
    (hdown : c.respSeq ≠ 0 ∨ status ≠ .success) :
    ∃ c', attempts (n + 1) c = attempts n c' ∧ Facing outcomes n c' ∧ c'.respSeq ≠ 0 := by
  obtain ⟨entry, rest, hnetwork, hmeets, hnext⟩ := h.cons
  have hseqNum := h.seqNum
  obtain ⟨c', hstep, hmoved, hresp⟩ :=
    attempts_turnedDown n hnetwork hmeets hdown (by omega) h.sessionId
  exact ⟨c', hstep, hnext c' hmoved, hresp⟩

/-- **Once a response has been read**, no attempt succeeds any more. -/
theorem raises_of_read (h : Facing outcomes n c) (hread : c.respSeq ≠ 0) :
    Method.Raises (attempts n) c := by
  induction n generalizing c outcomes with
  | zero => exact ⟨.reconnectFailed, c, rfl⟩
  | succ n ih =>
    rcases outcomes with - | ⟨o, outcomes⟩
    -- no connection is left: refused
    · have hnetwork : c.network = [] := List.forall₂_nil_right_iff.1 h.meets
      have hconnect : connect c = .error .connectionRefused c.close := by
        unfold connect
        rw [hnetwork]
      have hstep := attempts_of_error n (Method.bind_error hconnect)
      have hseqNum := h.seqNum
      obtain ⟨e, c', hrun⟩ := ih (c := c.close)
        ⟨h.meets, (Nat.lt_succ_self _).trans hseqNum, h.sessionId⟩ hread
      exact ⟨e, c', hstep.trans hrun⟩
    · have hnext : ∃ c', attempts (n + 1) c = attempts n c' ∧ Facing outcomes n c' ∧
          c'.respSeq ≠ 0 := by
        cases o with
        | answered status sessionId => exact h.turnedDown (.inl hread)
        | refused | lost =>
          obtain ⟨c', hstep, hfacing, hresp, -⟩ := h.unanswered id
          exact ⟨c', hstep, hfacing, hresp ▸ hread⟩
      obtain ⟨c', hstep, hfacing, hread'⟩ := hnext
      obtain ⟨e, c'', hrun⟩ := ih hfacing hread'
      exact ⟨e, c'', hstep.trans hrun⟩

/-- **An answer that turns the login down** is the end of all attempts. -/
theorem raises_of_turnedDown {failed later : List Outcome} {status : LoginStatus} {sessionId : ℕ}
    (h : Facing (failed ++ .answered status sessionId :: later) n c)
    (hfailed : ∀ o ∈ failed, ¬ o.Answered) (hdown : status ≠ .success) :
    Method.Raises (attempts n) c := by
  induction n generalizing c failed with
  | zero => exact ⟨.reconnectFailed, c, rfl⟩
  | succ n ih =>
    rcases failed with - | ⟨o, failed⟩
    · obtain ⟨c', hstep, hfacing, hread⟩ := h.turnedDown (.inr hdown)
      obtain ⟨e, c'', hrun⟩ := raises_of_read hfacing hread
      exact ⟨e, c'', hstep.trans hrun⟩
    · obtain ⟨c', hstep, hfacing, -⟩ := h.unanswered (hfailed o List.mem_cons_self)
      obtain ⟨e, c'', hrun⟩ := ih hfacing fun o ho ↦ hfailed o (List.mem_cons_of_mem _ ho)
      exact ⟨e, c'', hstep.trans hrun⟩

/-- **As long as nothing has been answered**, the first attempt that is accepted succeeds. -/
theorem returns_of_untouched {failed later : List Outcome} {sessionId : ℕ}
    (h : Facing (failed ++ .answered .success sessionId :: later) n c)
    (hfailed : ∀ o ∈ failed, ¬ o.Answered) (hlength : failed.length < n) (hread : c.respSeq = 0) :
    ∃ c', attempts n c = .ok () c' ∧ c'.sessionId = sessionId ∧
      c'.network = c.network.drop (failed.length + 1) := by
  induction n generalizing c failed with
  | zero => exact absurd hlength (Nat.not_lt_zero _)
  | succ n ih =>
    rcases failed with - | ⟨o, failed⟩
    · obtain ⟨entry, rest, hnetwork, hmeets, -⟩ := h.cons
      have hseqNum := h.seqNum
      obtain ⟨c', hstep, hid, hnet⟩ :=
        attempts_accepted n hnetwork hmeets hread (by omega) h.sessionId
      exact ⟨c', hstep, hid, by rw [hnet, hnetwork]; rfl⟩
    · obtain ⟨c₁, hstep, hfacing, hresp, hnet⟩ := h.unanswered (hfailed o List.mem_cons_self)
      obtain ⟨c', hrun, hid, hdrop⟩ := ih hfacing (fun o ho ↦ hfailed o (List.mem_cons_of_mem _ ho))
        (Nat.lt_of_succ_lt_succ hlength) (hresp.trans hread)
      refine ⟨c', hstep.trans hrun, hid, ?_⟩
      rw [hdrop, hnet, List.drop_tail]
      rfl

end

/-! ### The call -/

/-- The first attempt of the five that is accepted comes behind these, and opens this session. -/
def FirstAccepted (outcomes failed : List Outcome) (sessionId : ℕ) : Prop :=
  (∃ later, outcomes.take 5 = failed ++ .answered .success sessionId :: later) ∧
    ∀ o ∈ failed, o.accepted? = none

/-- **What `reconnect` is for**: it returns at the first attempt that is accepted, with its session
id, and raises only if none is. -/
structure TakesFirstAccepted (outcomes : List Outcome) (c : OrderEntryClient) : Prop where
  returns : ∀ failed sessionId, FirstAccepted outcomes failed sessionId →
    ∃ c', reconnect c = .ok () c' ∧ c'.sessionId = sessionId ∧
      c'.network = c.network.drop (failed.length + 1)
  raises : Method.Raises reconnect c → ∀ o ∈ outcomes.take 5, o.accepted? = none

/-- An outcome accepts with the session id that it answers. -/
theorem accepted?_eq_some_iff {o : Outcome} {sessionId : ℕ} :
    o.accepted? = some sessionId ↔ o = .answered .success sessionId := by
  constructor
  · intro h
    rcases o with - | - | ⟨status, sessionId'⟩
    · cases h
    · cases h
    · cases status with
      | success =>
        cases h
        rfl
      | _ => cases h
  · rintro rfl
    rfl

/-- The first of a list that has a property. -/
theorem exists_first {p : Outcome → Prop} {outcomes : List Outcome} {o : Outcome}
    (ho : o ∈ outcomes) (hp : p o) :
    ∃ before first later, outcomes = before ++ first :: later ∧ p first ∧
      ∀ o ∈ before, ¬ p o := by
  classical
  rcases hfind : outcomes.find? fun o ↦ decide (p o) with - | first
  · exact absurd (decide_eq_true hp) (List.find?_eq_none.1 hfind o ho)
  · obtain ⟨hfirst, before, later, heq, hbefore⟩ := List.find?_eq_some_iff_append.1 hfind
    exact ⟨before, first, later, heq, of_decide_eq_true hfirst, fun o ho h ↦ by
      simpa [h] using hbefore o ho⟩

/-- Before the answer that is taken, all have failed. -/
theorem FirstAccepted.split {outcomes failed : List Outcome} {sessionId : ℕ}
    (h : FirstAccepted outcomes failed sessionId) :
    ∃ later, outcomes = failed ++ .answered .success sessionId :: later ∧ failed.length < 5 := by
  obtain ⟨⟨later, htake⟩, -⟩ := h
  refine ⟨later ++ outcomes.drop 5, ?_, ?_⟩
  · rw [← List.cons_append, ← List.append_assoc, ← htake, List.take_append_drop]
  · have hle := congrArg List.length htake
    have htaken := List.length_take_le 5 outcomes
    rw [List.length_append, List.length_cons] at hle
    omega

/-- `reconnect` makes five attempts, and starts the session anew for them. -/
theorem facing_forgetSession {outcomes : List Outcome}
    (hmeets : List.Forall₂ (Meets c.clientId) c.network outcomes) :
    Facing outcomes 5 c.forgetSession :=
  ⟨hmeets, (by decide : 0 + 5 < 256 ^ 4), (by decide : 0 < 256 ^ 8)⟩

/-- **An attempt that is accepted in vain**: one before it has been answered. -/
theorem raises_of_answered {outcomes failed : List Outcome} {sessionId : ℕ} {o : Outcome}
    (hmeets : List.Forall₂ (Meets c.clientId) c.network outcomes)
    (hfirst : FirstAccepted outcomes failed sessionId) (ho : o ∈ failed) (hanswered : o.Answered) :
    Method.Raises reconnect c := by
  have hfacing := facing_forgetSession hmeets
  obtain ⟨later, houtcomes, -⟩ := hfirst.split
  obtain ⟨before, first, between, rfl, hfirstAnswered, hbefore⟩ := exists_first ho hanswered
  cases first with
  | refused => exact hfirstAnswered.elim
  | lost => exact hfirstAnswered.elim
  | answered status sessionId' =>
    have hdown : status ≠ .success := by
      rintro rfl
      have hnone := hfirst.2 _ (List.mem_append_right _ List.mem_cons_self)
      cases hnone
    rw [houtcomes, List.append_assoc, List.cons_append] at hfacing
    exact raises_of_turnedDown hfacing hbefore hdown

/-- **`reconnect` takes the first attempt that is accepted exactly if no attempt before it has been
answered.** -/
theorem takesFirstAccepted_iff {outcomes : List Outcome}
    (hmeets : List.Forall₂ (Meets c.clientId) c.network outcomes) :
    TakesFirstAccepted outcomes c ↔
      ∀ failed sessionId, FirstAccepted outcomes failed sessionId → ∀ o ∈ failed, ¬ o.Answered := by
  constructor
  · intro htakes failed sessionId hfirst o ho hanswered
    obtain ⟨c', hreturns, -⟩ := htakes.returns failed sessionId hfirst
    exact Method.not_raises_of_ok hreturns (raises_of_answered hmeets hfirst ho hanswered)
  · intro huntouched
    have hreturns : ∀ failed sessionId, FirstAccepted outcomes failed sessionId →
        ∃ c', reconnect c = .ok () c' ∧ c'.sessionId = sessionId ∧
          c'.network = c.network.drop (failed.length + 1) := by
      intro failed sessionId hfirst
      have hfacing := facing_forgetSession hmeets
      obtain ⟨later, houtcomes, hlength⟩ := hfirst.split
      rw [houtcomes] at hfacing
      exact returns_of_untouched hfacing (huntouched _ _ hfirst) hlength rfl
    refine ⟨hreturns, fun hraises o ho ↦ ?_⟩
    -- were one of them accepted, the first of these would have returned
    by_contra haccepted
    obtain ⟨before, first, later, htake, hfirst, hbefore⟩ :=
      exists_first (p := fun o ↦ o.accepted? ≠ none) ho haccepted
    obtain ⟨sessionId, hsome⟩ := Option.ne_none_iff_exists'.1 hfirst
    obtain rfl := accepted?_eq_some_iff.1 hsome
    obtain ⟨c', hrun, -⟩ := hreturns before sessionId
      ⟨⟨later, htake⟩, fun o ho ↦ not_not.1 (hbefore o ho)⟩
    exact Method.not_raises_of_ok hrun hraises

/-- The first response on a connection, to a login. -/
def loginAnswer (status : ℕ) : OeResponse := .loginResponse ⟨⟨25, 100, 1, 1, 1, 7⟩, 77, status⟩

/-- A client with these connections ahead. -/
def reconnecting (network : List (Option (List Arrival))) : OrderEntryClient :=
  init [] [] 7 (-20000) 10 none network

/-- The bytes of a login response are such an answer. -/
theorem meets_loginAnswer {status : LoginStatus} {value : ℕ}
    (haccepted : (loginAnswer value).Accepted 7)
    (hstatus : LoginStatus.ofValue? value = some status)
    (hreset : .reset ∉ Arrival.burst [loginAnswer value])
    (hbytes : Arrival.bytesOf (Arrival.burst [loginAnswer value]) =
      ((loginAnswer value).packet haccepted).data ++ []) :
    Meets 7 (some (Arrival.burst [loginAnswer value])) (.answered status 77) :=
  .answered (m := ⟨⟨25, 100, 1, 1, 1, 7⟩, 77, value⟩)
    (Socket.delivers_of_bytes ((loginAnswer value).packet haccepted).sized hreset hbytes) rfl rfl
    hstatus

/-- Refused, lost, accepted: the third session is taken. -/
theorem takesFirstAccepted_iff_thrice :
    ∃ c', reconnect (reconnecting [none, some [], some (Arrival.burst [loginAnswer 0])]) =
      .ok () c' ∧ c'.sessionId = 77 := by
  have hlost : Socket.Loses [] := .inr fun sent ↦
    ⟨_, _, Socket.recvMessage_end (s := ⟨true, [], sent⟩) rfl List.not_mem_nil rfl⟩
  have hanswer : Meets 7 (some (Arrival.burst [loginAnswer 0])) (.answered .success 77) :=
    meets_loginAnswer (by decide) (by decide) (by decide) (by decide)
  have hmeets : List.Forall₂ (Meets 7) [none, some [], some (Arrival.burst [loginAnswer 0])]
      [.refused, .lost, .answered .success 77] :=
    .cons .refused (.cons (.lost hlost) (.cons hanswer .nil))
  have huntouched : ∀ failed sessionId,
      FirstAccepted [.refused, .lost, .answered .success 77] failed sessionId →
        ∀ o ∈ failed, ¬ o.Answered := by
    rintro failed sessionId ⟨⟨later, htake⟩, hfailed⟩ o ho hanswered
    have hmem : o ∈ [Outcome.refused, .lost, .answered .success 77].take 5 :=
      htake ▸ List.mem_append_left _ ho
    simp only [List.take_succ_cons, List.take_nil, List.mem_cons, List.not_mem_nil,
      or_false] at hmem
    rcases hmem with rfl | rfl | rfl
    · exact hanswered
    · exact hanswered
    · cases hfailed _ ho
  have htakes := (takesFirstAccepted_iff
    (c := reconnecting [none, some [], some (Arrival.burst [loginAnswer 0])]) hmeets).2 huntouched
  obtain ⟨c', hrun, hid, -⟩ := htakes.returns [.refused, .lost] 77 ⟨⟨[], rfl⟩, by decide⟩
  exact ⟨c', hrun, hid⟩

/-- **Turned down once, accepted then**: the second answer has the number of the first, and
`reconnect` raises. -/
theorem turnedDown_then_accepted :
    ¬ ∀ (c : OrderEntryClient) (outcomes : List Outcome),
      List.Forall₂ (Meets c.clientId) c.network outcomes → TakesFirstAccepted outcomes c := by
  intro h
  have hdown : Meets 7 (some (Arrival.burst [loginAnswer 8]))
      (.answered .sessionAlreadyActive 77) :=
    meets_loginAnswer (by decide) (by decide) (by decide) (by decide)
  have hanswer : Meets 7 (some (Arrival.burst [loginAnswer 0])) (.answered .success 77) :=
    meets_loginAnswer (by decide) (by decide) (by decide) (by decide)
  have htakes := h (reconnecting [some (Arrival.burst [loginAnswer 8]),
    some (Arrival.burst [loginAnswer 0])]) [.answered .sessionAlreadyActive 77,
      .answered .success 77] (.cons hdown (.cons hanswer .nil))
  obtain ⟨c', hrun, -⟩ := htakes.returns [.answered .sessionAlreadyActive 77] 77
    ⟨⟨[], rfl⟩, by decide⟩
  have hraises : Method.Raises reconnect (reconnecting [some (Arrival.burst [loginAnswer 8]),
    some (Arrival.burst [loginAnswer 0])]) := Method.raises_of_state? (by decide +kernel)
  exact Method.not_raises_of_ok hrun hraises

end OrderEntryClient

end HftTrading.OrderEntry
