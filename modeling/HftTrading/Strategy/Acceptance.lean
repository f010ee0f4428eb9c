import HftTrading.Strategy.Quote

/-!
# Going by the first response

`modify_order` rewrites its entry, and the strategy tracks its quote, because the first response
that was collected is an acknowledgement, or at least no reject. That is right when the first
response is the exchange's reply to the request (`RepliesKept`), which it is after every run on
which the stream is in step (`repliesKept_of_inStep`). A fill that arrives between a drain and the
reply to the next request comes first in its place: the reply is then taken for that of a later
request, and a rejected quote is tracked as accepted (`rejected_quote_tracked`).

## What keeping a reply means

`RepliesKept` is about the next call, whatever it is and whatever the kill switch asks on the way.
Its first response is the reply to its request; a modify whose reply is an acknowledgement leaves
its order open with the new values, unless a response that was handled since has closed it; a quote
whose reply is a reject is not tracked, and one whose modify is rejected is not moved. The stream
being in step is a condition on what arrives when, and on nothing that the client does.
-/

namespace HftTrading.Strategy

open OrderEntry Arrival OrderEntryClient Quoting

section

variable {clientId : ℤ}

/-- The replies on the stream answer the requests that have been made, in order. -/
def InOrder (solicited : Packet clientId → Bool) (packets : List (Packet clientId))
    (requests : List Request) : Prop :=
  ∀ qp ∈ requests.zip (packets.filter solicited), Answers qp.1.seqNum qp.1.orderId qp.2.response

instance (solicited : Packet clientId → Bool) (packets : List (Packet clientId))
    (requests : List Request) : Decidable (InOrder solicited packets requests) :=
  inferInstanceAs (Decidable (∀ qp ∈ _, _))

/-- The exchange's reply to the next request. -/
def nextReply (solicited : Packet clientId → Bool) (packets : List (Packet clientId))
    (c : OrderEntryClient) : Option OeResponse :=
  ((packets.filter solicited)[c.requests.length]?).map Packet.response

/-- A request has been made, and no more than `n` in all. -/
structure Asked (n : ℕ) (c c' : OrderEntryClient) : Prop where
  lt : c.requests.length < c'.requests.length
  le : c'.requests.length ≤ n

/-- **The next call goes by the right reply**, as long as no more than `n` requests are made. -/
structure RepliesKept (solicited : Packet clientId → Bool) (packets : List (Packet clientId))
    (n : ℕ) (c : OrderEntryClient) : Prop where
  /-- The first response that a call returns is the reply to its request. -/
  first : ∀ (ask : Ask) (responses : List OeResponse) (c' : OrderEntryClient),
    ask.method c = .ok responses c' → Asked n c c' → InOrder solicited packets c'.requests →
      ∃ r, responses.head? = some r ∧ Answers (c.seqNum + 1) ask.orderId r
  /-- An order whose modification is acknowledged is open as it was acknowledged, unless a response
  that closes it has been handled since. -/
  acknowledged : ∀ (orderId side quantity price : ℤ) (m : OrderAck),
    Asked n c ((modifyOrder orderId side quantity price).after c) →
      nextReply solicited packets c = some (.ack m) →
        ((modifyOrder orderId side quantity price).after c).Carries orderId side quantity price ∨
          ClosedBy orderId (((modifyOrder orderId side quantity price).after c).requests.drop
            c.requests.length)
  /-- A quote that is rejected is not tracked. -/
  refused : ∀ (now : ℚ) (side price : ℤ) (config : StrategyConfig) (state : SymbolState)
    (r : OeResponse), Asked n c ((placeQuote now side price).after ⟨c, config, state⟩).client →
      nextReply solicited packets c = some r → isReject r = true →
        ∀ side', ((placeQuote now side price).after ⟨c, config, state⟩).state.quote side' =
          state.quote side'
  /-- A quote whose modification is rejected is not moved. -/
  unmoved : ∀ (side newPrice : ℤ) (config : StrategyConfig) (state : SymbolState)
    (r : OeResponse), Asked n c ((modifyQuote side newPrice).after ⟨c, config, state⟩).client →
      nextReply solicited packets c = some r → isReject r = true →
        ∀ side', ((modifyQuote side newPrice).after ⟨c, config, state⟩).state.quote side' =
            state.quote side' ∨
          ((modifyQuote side newPrice).after ⟨c, config, state⟩).state.quote side' = (none, 0)

variable {solicited : Packet clientId → Bool} {packets : List (Packet clientId)} {n : ℕ}
  {c c' : OrderEntryClient}

/-- The request that a call adds has collected the next reply, and unsolicited responses. -/
theorem Paired.next (h : Paired solicited packets n c') {q : Request}
    (hsent : Sent c.requests q c') :
    ∃ p, (packets.filter solicited)[c.requests.length]? = some p ∧
      Matches solicited packets p q := by
  refine h.reply ?_
  obtain ⟨rest, hrest⟩ := hsent
  rw [← hrest, List.append_assoc, List.getElem?_append_right (Nat.le_refl _), Nat.sub_self]
  rfl

/-- What a call returns begins with the next reply. -/
theorem head?_of_returned (h : Paired solicited packets n c') {seqNum : ℕ} {orderId : ℤ}
    {responses : List OeResponse} (hreturned : Returned c.requests seqNum orderId responses c')
    (hlt : c.requests.length < c'.requests.length) :
    (∃ msg, Sent c.requests ⟨seqNum, orderId, msg, responses⟩ c') ∧
      ∃ r, nextReply solicited packets c = some r ∧ responses.head? = some r := by
  rcases hreturned with hsame | ⟨msg, hsent⟩
  · rw [hsame] at hlt
    exact absurd hlt (Nat.lt_irrefl _)
  · obtain ⟨p, hp, others, hresponses, -⟩ := Paired.next h hsent
    refine ⟨⟨msg, hsent⟩, p.response, ?_, ?_⟩
    · rw [nextReply, hp]
      rfl
    · rw [show responses = _ from hresponses]
      rfl

/-- When the next reply is calm, the handling of what was collected with it does not raise. -/
theorem not_raised (h : Paired solicited packets n c')
    (hunsolicited : ∀ p ∈ packets, solicited p = false → p.response.Unsolicited) {seqNum : ℕ}
    {orderId : ℤ} {r : OeResponse} (hr : nextReply solicited packets c = some r) (hcalm : r.Calm)
    (hlt : c.requests.length < c'.requests.length) : ¬ Raised c.requests seqNum orderId c' := by
  rintro (hsame | ⟨msg, responses, hsent, hraised⟩)
  · rw [hsame] at hlt
    exact Nat.lt_irrefl _ hlt
  obtain ⟨p, hp, others, hresponses, hothers⟩ := Paired.next h hsent
  rw [nextReply, hp] at hr
  obtain rfl : p.response = r := Option.some.inj hr
  refine hraised fun r hmem ↦ ?_
  rw [show responses = _ from hresponses] at hmem
  rcases List.mem_cons.1 hmem with rfl | hmem
  · exact hcalm
  · obtain ⟨o, ho, rfl⟩ := List.mem_map.1 hmem
    exact (hunsolicited o (hothers o ho).1 (hothers o ho).2).calm

/-- An accepted list does not begin with a reject. -/
theorem not_accepted {responses : List OeResponse} {r : OeResponse}
    (hhead : responses.head? = some r) (hreject : isReject r = true) :
    accepted responses = false := by
  rcases responses with - | ⟨first, rest⟩
  · rfl
  · obtain rfl := Option.some.inj hhead
    show (!isReject first) = false
    rw [hreject]
    rfl

/-- From a paired state on, a call that returns returns the next reply first. -/
theorem reply_of_ask (hpaired : Paired solicited packets n c) (hbatches : c.record.batches = [])
    {ask : Ask} {responses : List OeResponse} (hrun : ask.method c = .ok responses c')
    (hasked : Asked n c c') :
    Paired solicited packets n c' ∧
      (∃ msg, Sent c.requests ⟨c.seqNum + 1, ask.orderId, msg, responses⟩ c') ∧
        ∃ r, nextReply solicited packets c = some r ∧ responses.head? = some r := by
  have hsteps := ask.steps hbatches
  rw [Method.after_ok hrun] at hsteps
  have hpaired' := hsteps.paired hpaired hasked.le
  have hreturned := ask.returned hbatches c rfl
  rw [hrun] at hreturned
  exact ⟨hpaired', head?_of_returned hpaired' hreturned hasked.lt⟩

/-- An acceptance is none if the next reply is a reject. -/
theorem not_accepted_of_ask (hpaired : Paired solicited packets n c)
    (hbatches : c.record.batches = []) {ask : Ask} {responses : List OeResponse}
    (hrun : ask.method c = .ok responses c') (hasked : Asked n c c') {r : OeResponse}
    (hr : nextReply solicited packets c = some r) (hreject : isReject r = true) :
    accepted responses = false := by
  obtain ⟨-, -, r', hr', hhead⟩ := reply_of_ask hpaired hbatches hrun hasked
  obtain rfl := Option.some.inj (hr'.symm.trans hr)
  exact not_accepted hhead hreject

/-- What a call reads first is the reply to its request, while the stream is in step. -/
theorem first_of_paired (hpaired : Paired solicited packets n c) (hbatches : c.record.batches = [])
    {ask : Ask} {responses : List OeResponse} (hrun : ask.method c = .ok responses c')
    (hasked : Asked n c c') (horder : InOrder solicited packets c'.requests) :
    ∃ r, responses.head? = some r ∧ Answers (c.seqNum + 1) ask.orderId r := by
  obtain ⟨hpaired', ⟨msg, hsent⟩, r, hr, hhead⟩ := reply_of_ask hpaired hbatches hrun hasked
  obtain ⟨p, hp, -⟩ := Paired.next hpaired' hsent
  refine ⟨r, hhead, ?_⟩
  rw [nextReply, hp] at hr
  obtain rfl : p.response = r := Option.some.inj hr
  obtain ⟨rest, hrest⟩ := hsent
  refine horder (⟨c.seqNum + 1, ask.orderId, msg, responses⟩, p) (List.mem_iff_getElem?.2
    ⟨c.requests.length, List.getElem?_zip_eq_some.2 ⟨?_, hp⟩⟩)
  rw [← hrest, List.append_assoc, List.getElem?_append_right (Nat.le_refl _), Nat.sub_self]
  rfl

/-- So an order whose modify is acknowledged carries the new values, unless it has been closed. -/
theorem carries_of_paired (hpaired : Paired solicited packets n c)
    (hbatches : c.record.batches = [])
    (hunsolicited : ∀ p ∈ packets, solicited p = false → p.response.Unsolicited)
    {orderId side quantity price : ℤ} {m : OrderAck}
    (hasked : Asked n c ((modifyOrder orderId side quantity price).after c))
    (hr : nextReply solicited packets c = some (.ack m)) :
    ((modifyOrder orderId side quantity price).after c).Carries orderId side quantity price ∨
      ClosedBy orderId (((modifyOrder orderId side quantity price).after c).requests.drop
        c.requests.length) := by
  have hsteps := (Ask.modifyOrder orderId side quantity price).steps hbatches
  have hpaired' := hsteps.paired hpaired hasked.le
  have hreturned := (Ask.modifyOrder orderId side quantity price).returned hbatches c rfl
  rcases hrun : modifyOrder orderId side quantity price c with ⟨responses, c'⟩ | ⟨e, c'⟩
  · have hask : (Ask.modifyOrder orderId side quantity price).method c = .ok responses c' := hrun
    rw [Method.after_ok hrun] at hasked
    obtain ⟨-, -, r, hr', hhead⟩ := reply_of_ask hpaired hbatches hask hasked
    obtain rfl := Option.some.inj (hr'.symm.trans hr)
    rw [Method.after_ok hrun]
    exact carries_of_acked hbatches hrun hhead
  · have hask : (Ask.modifyOrder orderId side quantity price).method c = .error e c' := hrun
    rw [hask] at hreturned
    rw [show (Ask.modifyOrder orderId side quantity price).method.after c = c' from
      Method.after_error hrun] at hpaired'
    rw [Method.after_error hrun] at hasked
    exact absurd hreturned (not_raised hpaired' hunsolicited hr trivial hasked.lt)

/-- **The right reply, every time**: after every run on a stream that is in step, whatever is called
and however the fills and closes arrive in between, the next call goes by the reply to its own
request. -/
theorem repliesKept_of_inStep {c₀ : OrderEntryClient} {s : Socket}
    (hclient : c₀.clientId = clientId) (hsocket : c₀.socket = some s) (hreset : .reset ∉ s.incoming)
    (hbytes : bytesOf s.incoming = wire packets) (hstream : Stream c₀.respSeq packets)
    (hrequests : c₀.requests = []) (hbatches : c₀.record.batches = [])
    (hunsolicited : ∀ p ∈ packets, solicited p = false → p.response.Unsolicited)
    (hinStep : InStep solicited n packets s.incoming) (calls : List Call)
    (hcalls : ∀ call ∈ calls, call.connects = false) :
    RepliesKept solicited packets n (runCalls calls c₀) := by
  have hran : Ran True False c₀ [] (runCalls calls c₀) := ran_runCalls (fun _ _ _ ↦ trivial)
    (fun call hcall hconnects ↦ by rw [hcalls call hcall] at hconnects; cases hconnects) hbatches
  have hstart : Paired solicited packets n c₀ := by
    refine ⟨packets, s.blocking, s.incoming, ⟨⟨s.sent, hsocket⟩, hclient, hreset, hbytes, hstream⟩,
      ?_, [], rfl, ?_⟩
    · rw [hrequests]
      exact hinStep
    · rw [hrequests]
      exact .nil
  have hpaired : ∀ {c'}, Asked n (runCalls calls c₀) c' →
      Paired solicited packets n (runCalls calls c₀) := fun hasked ↦
    hran.steps.paired hstart (hasked.lt.le.trans hasked.le)
  refine ⟨fun ask responses c' hrun hasked ↦
      first_of_paired (hpaired hasked) hran.batches_eq hrun hasked,
    fun orderId side quantity price m hasked ↦
      carries_of_paired (hpaired hasked) hran.batches_eq hunsolicited hasked,
    fun now side price config state r hasked hr hreject ↦ ?_,
    fun side newPrice config state r hasked hr hreject ↦ ?_⟩
  · cases placed_after_placeQuote now side price ⟨runCalls calls c₀, config, state⟩ with
    | refused hclient hquote => exact hquote
    | tracked hrun haccepted =>
      have hask : (Ask.newOrder ..).method (runCalls calls c₀) = .ok _ _ := hrun
      rw [not_accepted_of_ask (hpaired hasked) hran.batches_eq hask hasked hr hreject] at haccepted
      cases haccepted
  · cases moved_after_modifyQuote side newPrice ⟨runCalls calls c₀, config, state⟩ with
    | refused hquote => exact hquote
    | tracked hoid hrun haccepted =>
      have hask : (Ask.modifyOrder ..).method (runCalls calls c₀) = .ok _ _ := hrun
      rw [not_accepted_of_ask (hpaired hasked) hran.batches_eq hask hasked hr hreject] at haccepted
      cases haccepted

end

/-- The first order is acknowledged and fills; the second one is rejected. -/
def rejectedSecond : List (Packet 7) :=
  [(OeResponse.ack ⟨⟨40, 101, 1, 1, 1, 7⟩, 1, 901, 2, 100⟩).packet (by decide +kernel),
    (OeResponse.fill ⟨⟨33, 103, 1, 2, 1, 7⟩, 1, 1, 100, 1⟩).packet (by decide +kernel),
    (OeResponse.reject ⟨⟨25, 102, 1, 3, 2, 7⟩, 2, 3⟩).packet (by decide +kernel)]

/-- Whether a packet is a reply: all but the fill are. -/
def isReply (p : Packet 7) : Bool := decide (¬ p.response.Unsolicited)

/-- What arrives, with this between the acknowledgement and the fill. -/
def arriving (between : List Arrival) : Socket :=
  .connected (Arrival.burst [.ack ⟨⟨40, 101, 1, 1, 1, 7⟩, 1, 901, 2, 100⟩] ++ between ++
    Arrival.burst [.fill ⟨⟨33, 103, 1, 2, 1, 7⟩, 1, 1, 100, 1⟩] ++ [.pause] ++
    Arrival.burst [.reject ⟨⟨25, 102, 1, 3, 2, 7⟩, 2, 3⟩])

/-- The client once the first order has been acknowledged. -/
def restingFirst (between : List Arrival) : OrderEntryClient :=
  runCalls [.newOrder 0 1 5 1 2 100 0] (init [] [] 7 (-20000) 10 (some (arriving between)) [])

/-- The fill is there for the drain: the stream is in step. -/
theorem repliesKept_of_inStep_restingFirst :
    RepliesKept isReply rejectedSecond 2 (restingFirst []) := by
  have hstream : OrderEntry.Stream 0 rejectedSecond :=
    ⟨Or.inl rfl, Or.inr (by decide), Or.inr (by decide), trivial⟩
  have hclient : (init [] [] 7 (-20000) 10 (some (arriving [])) []).clientId = 7 := rfl
  have hbytes : bytesOf (arriving []).incoming = wire rejectedSecond := by decide +kernel
  unfold restingFirst
  exact repliesKept_of_inStep hclient rfl (by decide +kernel) hbytes hstream rfl rfl
    (by decide +kernel) (by decide +kernel) _ (by decide)

/-- **The fill arrives after the drain**: it is taken for the reply to the second order, whose
rejection is read by nobody, and the strategy tracks the rejected quote. -/
theorem rejected_quote_tracked :
    let c := restingFirst [.pause]
    let s := (placeQuote 0 1 100).after ⟨c, {}, .init 5 2⟩
    InOrder isReply rejectedSecond s.client.requests ∧ s.state.quote 1 = (some 2, 100) ∧
      ¬ RepliesKept isReply rejectedSecond 2 c := by
  refine ⟨by decide +kernel, by decide +kernel, fun h ↦ ?_⟩
  have hrefused :=
    h.refused 0 1 100 {} (.init 5 2) _ ⟨by decide +kernel, by decide +kernel⟩ rfl rfl 1
  exact absurd hrefused (by decide +kernel)

end HftTrading.Strategy
