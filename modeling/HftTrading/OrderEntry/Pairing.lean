import HftTrading.OrderEntry.Steps
import HftTrading.OrderEntry.Stream

/-!
# Requests and their replies

The exchange replies to requests in order, on the stream on which it also reports the fills and
closes of resting orders. Nothing in a response says that it is a reply: the client takes the first
one that it reads after sending. `InStep` is the condition on the stream under which that is right,
for the next `n` requests: the reply comes first, and what is ready behind it is whole and
unsolicited. Then the lists collected are the replies in order, each with what the drain has read
behind it (`Steps.paired`).

The step lemma is about one exchange (`PairedAt.exchanged`). All other steps of the client leave the
stream and the requests alone (`Untouched`).

## What a run uses up

The condition is on a stream that is still to come, and each exchange uses the front of it up. The
invariant therefore speaks of the requests made so far, the packets read for them, and the condition
for the requests that are left, all at once (`PairedAt`). Its number of requests goes down by one
with each exchange; a run that makes more than `n` of them is not spoken of.
-/

namespace HftTrading.OrderEntry

open Arrival

/-! ### Requests -/

/-- A request whose responses have been collected. -/
structure Request where
  seqNum : ℕ
  orderId : ℤ
  message : List UInt8
  responses : List OeResponse
  deriving DecidableEq

/-- The request whose responses a note is about. -/
def Note.request? : Note → Option Request
  | .replied seqNum orderId message responses => some ⟨seqNum, orderId, message, responses⟩
  | _ => none

/-- The order a response is about. -/
def OeResponse.orderId? : OeResponse → Option ℤ
  | .ack m => some m.orderId
  | .reject m => some m.orderId
  | .fill m => some m.orderId
  | .closed m => some m.orderId
  | _ => none

/-- A response that replies to a request of this sequence number, about this order. -/
def Answers (seqNum : ℕ) (orderId : ℤ) (r : OeResponse) : Prop :=
  r.hdr.lastSeqNum = seqNum ∧ ∀ id ∈ r.orderId?, id = orderId

instance (seqNum : ℕ) (orderId : ℤ) (r : OeResponse) : Decidable (Answers seqNum orderId r) :=
  inferInstanceAs (Decidable (_ ∧ _))

/-- What the exchange sends without being asked: a fill or a close. -/
def OeResponse.Unsolicited : OeResponse → Prop
  | .fill m => (FillFlags.ofValue? m.flags).isSome
  | .closed _ => True
  | _ => False

instance : DecidablePred OeResponse.Unsolicited
  | .fill m => inferInstanceAs (Decidable ((FillFlags.ofValue? m.flags).isSome = true))
  | .closed _ => .isTrue trivial
  | .loginResponse _ | .ack _ | .reject _ | .error _ | .header _ => .isFalse id

/-- **The stream is in step** with the next `n` requests: what is read first is solicited, and what
is ready behind it is whole packets that are not. -/
def InStep {clientId : ℤ} (solicited : Packet clientId → Bool) :
    ℕ → List (Packet clientId) → List Arrival → Prop
  | 0, _, _ => True
  | _ + 1, [], _ => True
  | n + 1, p :: packets, incoming =>
    let rest := skip p.data.length incoming
    solicited p = true ∧
      if OrderEntryClient.isReject p.response then InStep solicited n packets rest
      else ∃ left ∈ leftAfter packets (ready rest),
        (∀ q ∈ packets.take (packets.length - left.length), solicited q = false) ∧
          InStep solicited n left (behind rest)

instance InStep.decidable {clientId : ℤ} (solicited : Packet clientId → Bool) :
    ∀ (n : ℕ) (packets : List (Packet clientId)) (incoming : List Arrival),
      Decidable (InStep solicited n packets incoming)
  | 0, _, _ => .isTrue trivial
  | _ + 1, [], _ => .isTrue trivial
  | n + 1, p :: packets, incoming =>
    have := InStep.decidable solicited n
    inferInstanceAs (Decidable (solicited p = true ∧
      if OrderEntryClient.isReject p.response then
        InStep solicited n packets (skip p.data.length incoming)
      else ∃ left ∈ leftAfter packets (ready (skip p.data.length incoming)),
        (∀ q ∈ packets.take (packets.length - left.length), solicited q = false) ∧
          InStep solicited n left (behind (skip p.data.length incoming))))

/-- A request has collected this reply, and unsolicited responses behind it. -/
def Matches {clientId : ℤ} (solicited : Packet clientId → Bool) (packets : List (Packet clientId))
    (p : Packet clientId) (q : Request) : Prop :=
  ∃ others : List (Packet clientId), q.responses = p.response :: others.map Packet.response ∧
    ∀ o ∈ others, o ∈ packets ∧ solicited o = false

namespace OrderEntryClient

variable {modifies : Prop} {c c' : OrderEntryClient}

/-- The requests whose responses have been collected so far. -/
def requests (c : OrderEntryClient) : List Request :=
  c.record.trace.filterMap fun p ↦ p.note.request?

/-- A note adds the request that it is of. -/
theorem requests_note (n : Note) (c : OrderEntryClient) :
    (c.note n).requests = c.requests ++ n.request?.toList := by
  show (c.record.trace ++ [c.point n]).filterMap (fun p ↦ p.note.request?) = _
  rw [List.filterMap_append]
  refine congrArg (c.requests ++ ·) ?_
  rw [List.filterMap_cons, show (c.point n).note = n from rfl]
  rcases n.request? with - | q
  · rfl
  · rfl

/-- A note that is of no request adds none. -/
theorem requests_note_of_none {n : Note} (h : n.request? = none) (c : OrderEntryClient) :
    (c.note n).requests = c.requests := by
  rw [requests_note, h]
  exact List.append_nil _

/-! ### Steps that leave the stream alone -/

/-- Neither the stream nor the requests have moved. -/
structure Untouched (c c' : OrderEntryClient) : Prop where
  socket : c'.socket = c.socket
  clientId : c'.clientId = c.clientId
  respSeq : c'.respSeq = c.respSeq
  requests : c'.requests = c.requests

theorem Untouched.trans {c'' : OrderEntryClient} (h : Untouched c c') (h' : Untouched c' c'') :
    Untouched c c'' :=
  ⟨h'.socket.trans h.socket, h'.clientId.trans h.clientId, h'.respSeq.trans h.respSeq,
    h'.requests.trans h.requests⟩

theorem Untouched.note {n : Note} (h : Untouched c c') (hn : n.request? = none) :
    Untouched c (c'.note n) :=
  ⟨h.socket, h.clientId, h.respSeq, (requests_note_of_none hn c').trans h.requests⟩

theorem untouched_popOrder (orderId : ℤ) (c : OrderEntryClient) :
    Untouched c (c.popOrder orderId) := by
  unfold popOrder
  split
  · exact Untouched.note ⟨rfl, rfl, rfl, rfl⟩ rfl
  · exact ⟨rfl, rfl, rfl, rfl⟩

theorem untouched_bookFill (entry : OeConfig) (m : OrderFill) (flags : FillFlags)
    (c : OrderEntryClient) : Untouched c (c.bookFill entry m flags) := by
  unfold bookFill
  rw [bookTrackers_eq]
  exact Untouched.note ⟨rfl, rfl, rfl, rfl⟩ rfl

theorem untouched_settleModify (orderId side quantity price : ℤ) (first : OeResponse)
    (c : OrderEntryClient) : Untouched c (c.settleModify orderId side quantity price first) := by
  unfold settleModify
  cases first with
  | ack m =>
    dsimp only
    unfold rewriteEntry
    rcases c.openOrders.get? orderId with - | entry
    · exact ⟨rfl, rfl, rfl, rfl⟩
    · exact Untouched.note ⟨rfl, rfl, rfl, rfl⟩ rfl
  | closed m => exact untouched_popOrder orderId c
  | reject m =>
    dsimp only
    split
    · exact untouched_popOrder orderId c
    · exact ⟨rfl, rfl, rfl, rfl⟩
  | _ => exact ⟨rfl, rfl, rfl, rfl⟩

theorem ReadStep.requests_eq (h : ReadStep c c') : c'.requests = c.requests := by
  cases h with
  | wire h => rw [requests, requests, h.record]
  | sent => exact requests_note_of_none rfl c
  | opened => rfl
  | read h response => exact requests_note_of_none rfl _
  | abandoned h => exact requests_note_of_none rfl c

/-- Reading collects for a request that is noted only afterwards. -/
theorem Reads.requests_eq (h : Reads c c') : c'.requests = c.requests := by
  induction h with
  | refl => rfl
  | tail _ hstep ih => exact hstep.requests_eq.trans ih

/-- A step exchanges a request, fails to, or leaves the stream alone. -/
inductive Wired : OrderEntryClient → OrderEntryClient → Prop
  | exchanged {c c' : OrderEntryClient} {msg : List UInt8} {responses : List OeResponse}
      (h : sendAndRecv msg c = .ok responses c') (seqNum : ℕ) (orderId : ℤ) :
      Wired c (c'.note (.replied seqNum orderId msg responses))
  | broken {c c' : OrderEntryClient} {msg : List UInt8} {e : OeError}
      (h : sendAndRecv msg c = .error e c') : Wired c c'
  | untouched {c c' : OrderEntryClient} (h : Untouched c c') : Wired c c'

/-- A step on one connection stays on it. -/
theorem Step.wired (h : Step modifies False c c') : Wired c c' := by
  cases h with
  | header => exact .untouched ⟨rfl, rfl, rfl, rfl⟩
  | exchanged h => exact .exchanged h _ _
  | broken h => exact .broken h
  | passed => exact .untouched ⟨rfl, rfl, rfl, rfl⟩
  | popped =>
    have htake : Untouched c (c.onRecord Record.take) := ⟨rfl, rfl, rfl, rfl⟩
    exact .untouched (htake.trans (untouched_popOrder _ _))
  | booked => exact .untouched (untouched_bookFill _ _ _ c)
  | finished => exact .untouched ⟨rfl, rfl, rfl, rfl⟩
  | abandoned =>
    have hlost : Untouched c (c.note (.lost c.record.batch)) := .note ⟨rfl, rfl, rfl, rfl⟩ rfl
    exact .untouched (hlost.trans ⟨rfl, rfl, rfl, rfl⟩)
  | checked => exact .untouched ⟨rfl, rfl, rfl, rfl⟩
  | placed => exact .untouched (.note ⟨rfl, rfl, rfl, rfl⟩ rfl)
  | settled => exact .untouched (untouched_settleModify _ _ _ _ _ c)
  | forgotten hconnects => exact hconnects.elim
  | connected hconnects => exact hconnects.elim
  | loginExchanged hconnects => exact hconnects.elim

/-- Requests are only ever added. -/
theorem Step.requests_prefix (h : Step modifies False c c') : c.requests <+: c'.requests := by
  cases h.wired with
  | exchanged hrun =>
    rw [requests_note, (reads_of_ok hrun).requests_eq]
    exact List.prefix_append _ _
  | broken hrun => exact (reads_of_error hrun).requests_eq ▸ List.prefix_rfl
  | untouched hsame => exact hsame.requests ▸ List.prefix_rfl

theorem Steps.requests_prefix (h : Steps modifies False c c') : c.requests <+: c'.requests := by
  induction h with
  | refl => exact List.prefix_rfl
  | tail _ hstep ih => exact ih.trans hstep.requests_prefix

/-! ### Steps that exchange a request -/

section

variable {clientId : ℤ} {solicited : Packet clientId → Bool} {n : ℕ}
  {packets left : List (Packet clientId)} {blocking : Bool} {incoming : List Arrival}

/-- The replies read so far belong to the requests so far, and the stream is in step with those that
are still to come, `n` in all. -/
structure PairedAt (solicited : Packet clientId → Bool) (packets : List (Packet clientId)) (n : ℕ)
    (left : List (Packet clientId)) (blocking : Bool) (incoming : List Arrival)
    (c : OrderEntryClient) : Prop where
  feeding : Feeding left blocking incoming c
  inStep : InStep solicited (n - c.requests.length) left incoming
  paired : ∃ done, packets = done ++ left ∧
    List.Forall₂ (Matches solicited packets) (done.filter solicited) c.requests

/-- Of a stream with no packet left nothing is asked. -/
theorem inStep_nil (n : ℕ) (incoming : List Arrival) : InStep solicited n [] incoming := by
  cases n <;> exact trivial

theorem Feeding.untouched (h : Feeding left blocking incoming c) (hsame : Untouched c c') :
    Feeding left blocking incoming c' := by
  refine ⟨?_, hsame.clientId.trans h.clientId_eq, h.reset, h.bytes, ?_⟩
  · rw [hsame.socket]
    exact h.socket
  · rw [hsame.respSeq]
    exact h.stream

theorem PairedAt.untouched (h : PairedAt solicited packets n left blocking incoming c)
    (hsame : Untouched c c') : PairedAt solicited packets n left blocking incoming c' := by
  refine ⟨h.feeding.untouched hsame, ?_, ?_⟩
  · rw [hsame.requests]
    exact h.inStep
  · rw [hsame.requests]
    exact h.paired

/-- An exchange that raises has found the stream at its end. -/
theorem PairedAt.broken (h : PairedAt solicited packets n left blocking incoming c)
    {msg : List UInt8}
    {e : OeError} (hrun : sendAndRecv msg c = .error e c') :
    PairedAt solicited packets n [] true [] c' := by
  obtain ⟨done, hpackets, hpaired⟩ := h.paired
  rcases left with - | ⟨p, left⟩
  · obtain ⟨e', c'', hrun', hfeeding⟩ := sendAndRecv_end h.feeding msg
    rw [hrun] at hrun'
    obtain ⟨rfl, rfl⟩ := EStateM.Result.error.inj hrun'
    refine ⟨hfeeding, inStep_nil _ _, done, hpackets, ?_⟩
    rw [(reads_of_error hrun).requests_eq]
    exact hpaired
  · obtain ⟨responses, c'', hrun', -⟩ := sendAndRecv_feeding h.feeding msg
    rw [hrun] at hrun'
    cases hrun'

/-- **An exchange in step** collects the reply, and what is unsolicited behind it. -/
theorem PairedAt.exchanged (h : PairedAt solicited packets n left blocking incoming c)
    {msg : List UInt8} {responses : List OeResponse} (hrun : sendAndRecv msg c = .ok responses c')
    (hn : c.requests.length < n) (seqNum : ℕ) (orderId : ℤ) :
    ∃ left' blocking' incoming', PairedAt solicited packets n left' blocking' incoming'
      (c'.note (.replied seqNum orderId msg responses)) := by
  obtain ⟨done, hpackets, hpaired⟩ := h.paired
  have hinStep := h.inStep
  have hrequests : (c'.note (.replied seqNum orderId msg responses)).requests =
      c.requests ++ [⟨seqNum, orderId, msg, responses⟩] := by
    rw [requests_note, (reads_of_ok hrun).requests_eq]
    rfl
  have hlength : (c'.note (.replied seqNum orderId msg responses)).requests.length =
      c.requests.length + 1 := by
    rw [hrequests, List.length_append]
    rfl
  obtain ⟨m, hm, hm'⟩ : ∃ m, n - c.requests.length = m + 1 ∧
      n - (c'.note (.replied seqNum orderId msg responses)).requests.length = m :=
    ⟨n - c.requests.length - 1, by omega, by omega⟩
  rw [hm] at hinStep
  rcases left with - | ⟨p, left⟩
  · obtain ⟨e, c'', hrun', -⟩ := sendAndRecv_end h.feeding msg
    rw [hrun] at hrun'
    cases hrun'
  obtain ⟨responses', c'', hrun', hcollected⟩ := sendAndRecv_feeding h.feeding msg
  rw [hrun] at hrun'
  obtain ⟨rfl, rfl⟩ := EStateM.Result.ok.inj hrun'
  obtain ⟨hsolicited, hinStep⟩ := hinStep
  obtain ⟨left', blocking', incoming', hfeeding, hrest, others, hresponses, hothers, hleft⟩ :
      ∃ left' blocking' incoming', Feeding left' blocking' incoming' c' ∧
        InStep solicited m left' incoming' ∧ ∃ others,
          responses = p.response :: others.map Packet.response ∧
          (∀ o ∈ others, solicited o = false) ∧ left = others ++ left' := by
    -- a reject is all that is read; after any other reply the socket is drained
    rcases hcollected with ⟨heq, hreject, hfeeding⟩ | ⟨heq, hreject, hdrained⟩
    · obtain ⟨rfl, rfl⟩ := List.cons.inj heq
      rw [if_pos hreject] at hinStep
      exact ⟨_, _, _, hfeeding, hinStep, [], rfl, fun o ho ↦ absurd ho List.not_mem_nil, rfl⟩
    obtain ⟨rfl, rfl⟩ := List.cons.inj heq
    rw [if_neg (by rw [hreject]; decide)] at hinStep
    obtain ⟨left', hleft', hothers, hinStep⟩ := hinStep
    rcases hdrained with ⟨hleft, heq, hfeeding⟩ | ⟨hleft, -⟩
    · obtain rfl := Option.some.inj (hleft'.symm.trans hleft)
      refine ⟨_, _, _, hfeeding.setBlocking true, hinStep, _, rfl, ?_, heq⟩
      rw [heq, List.length_append, Nat.add_sub_cancel, List.take_left] at hothers
      exact hothers
    · rw [hleft] at hleft'
      cases hleft'
  refine ⟨left', blocking', incoming', ?_, by rwa [hm'], done ++ p :: others, ?_, ?_⟩
  · exact ⟨hfeeding.socket, hfeeding.clientId_eq, hfeeding.reset, hfeeding.bytes, hfeeding.stream⟩
  · rw [hpackets, hleft, List.append_assoc, List.cons_append]
  · have hnone : others.filter solicited = [] :=
      List.filter_eq_nil_iff.2 fun o ho ↦ by rw [hothers o ho]; decide
    rw [hrequests, List.filter_append, List.filter_cons_of_pos hsolicited, hnone]
    refine List.rel_append hpaired (.cons ⟨others, hresponses, fun o ho ↦ ⟨?_, hothers o ho⟩⟩ .nil)
    rw [hpackets, hleft]
    exact List.mem_append_right _ (List.mem_cons_of_mem _ (List.mem_append_left _ ho))

/-- The replies read so far belong to the requests so far, wherever in the stream that is. -/
def Paired (solicited : Packet clientId → Bool) (packets : List (Packet clientId)) (n : ℕ)
    (c : OrderEntryClient) : Prop :=
  ∃ left blocking incoming, PairedAt solicited packets n left blocking incoming c

/-- **One step** of the client keeps requests and replies paired. -/
theorem Step.paired (h : Step modifies False c c') (hc : Paired solicited packets n c)
    (hn : c'.requests.length ≤ n) : Paired solicited packets n c' := by
  obtain ⟨left, blocking, incoming, hc⟩ := hc
  cases h.wired with
  | exchanged hrun seqNum orderId =>
    rw [requests_note, (reads_of_ok hrun).requests_eq, List.length_append] at hn
    exact hc.exchanged hrun (Nat.lt_of_succ_le hn) seqNum orderId
  | broken hrun => exact ⟨_, _, _, hc.broken hrun⟩
  | untouched hsame => exact ⟨_, _, _, hc.untouched hsame⟩

/-- **A run** that sends no more than `n` requests keeps them paired with their replies. -/
theorem Steps.paired (h : Steps modifies False c c') (hc : Paired solicited packets n c)
    (hn : c'.requests.length ≤ n) : Paired solicited packets n c' := by
  induction h with
  | refl => exact hc
  | tail _ hstep ih => exact hstep.paired (ih (hstep.requests_prefix.length_le.trans hn)) hn

/-- The reply of the same number as a request. -/
theorem Paired.reply (h : Paired solicited packets n c) {k : ℕ} {q : Request}
    (hq : c.requests[k]? = some q) :
    ∃ p, (packets.filter solicited)[k]? = some p ∧ Matches solicited packets p q := by
  obtain ⟨left, -, -, -, -, done, hpackets, hpaired⟩ := h
  obtain ⟨hk, hget⟩ := List.getElem?_eq_some_iff.1 hq
  have hlength := hpaired.length_eq
  refine ⟨(done.filter solicited)[k], ?_, ?_⟩
  · rw [hpackets, List.filter_append, List.getElem?_append_left (by omega)]
    exact List.getElem?_eq_getElem _
  · have hmatches := hpaired.get (by omega) hk
    rwa [List.get_eq_getElem, List.get_eq_getElem, hget] at hmatches

end

end OrderEntryClient

end HftTrading.OrderEntry
