import HftTrading.OrderEntry.Live
import HftTrading.Strategy.OrderIds
import HftTrading.Strategy.Pricing

/-!
# Tracked quotes

The strategy remembers which orders are its quotes, and the client which orders are open. The two
records are written by different events: the strategy writes its own when it places, moves or
withdraws a quote, by the first response to that request, and the client's changes with every
response that is handled. Nothing tells the strategy that a quote has been filled or closed, or
that the session was forgotten, so a quote that is no longer open goes on being tracked
(`stale_quote_tracked`).

`Dealing.Undisturbed` is the condition on what the exchange responds, dealing by dealing, under
which this does not happen. In every run that keeps to it, **each tracked quote is an open order**
on its side and at its price (`tracked_live`).

## Dealings

Whatever the strategy has to do with the exchange is one dealing: a quote that is placed, moved or
withdrawn, another order, a reconnect. It is noted with the quotes and the client before it and the
client after it, so that the condition can speak of the responses that were handled in between, and
of the first one. The condition asks that nothing that is handled in it closes a tracked quote, but
for the one that it gives up, and that what it takes up is there.

## One dealing at a time

For each way of dealing with a quote there is a lemma that says what it leaves tracked and what it
leaves open (`live_manageQuote`, `live_cancelQuote`); all other dealings leave the quotes alone and,
by the condition, open. The invariant (`LiveQuotes`) is then checked for the parts of the strategy.
-/

namespace HftTrading.Strategy

open OrderEntry Method OrderStrategy OrderEntryClient

/-! ### Dealings -/

/-- An order is tracked as the quote of a symbol on a side, at a price. -/
def Tracks (quotes : Dict ℤ SymbolState) (symbol : ℤ) (side : Side) (orderId price : ℤ) : Prop :=
  ∃ state, quotes.get? symbol = some state ∧ state.quote side.value = (some orderId, price)

/-- The orders that are tracked. -/
def trackedIds (quotes : Dict ℤ SymbolState) : List ℤ :=
  quotes.values.flatMap fun state ↦ [Side.buy, Side.sell].filterMap fun side ↦
    (state.quote side.value).1

/-- What is tracked is among the ids that are. -/
theorem Tracks.mem_trackedIds {quotes : Dict ℤ SymbolState} {symbol orderId price : ℤ} {side : Side}
    (h : Tracks quotes symbol side orderId price) : orderId ∈ trackedIds quotes := by
  obtain ⟨state, hstate, hquote⟩ := h
  refine List.mem_flatMap.2 ⟨state, Dict.mem_values_iff.2 ⟨symbol, hstate⟩, ?_⟩
  refine List.mem_filterMap.2 ⟨side, ?_, congrArg Prod.fst hquote⟩
  cases side with
  | buy => exact List.mem_cons_self
  | sell => exact List.mem_cons_of_mem _ List.mem_cons_self

namespace Dealing

/-- The requests that were made in it. -/
def requests (d : Dealing) : List Request := d.after.requests.drop d.before.requests.length

/-- What was collected for the first of them, its own. -/
def reply (d : Dealing) : List OeResponse := (d.requests.head?.map Request.responses).getD []

/-- Its own request is answered with responses that all get handled. -/
def Answered (d : Dealing) : Prop := ∀ r ∈ d.reply, r.Harmless

instance (d : Dealing) : Decidable d.Answered :=
  inferInstanceAs (Decidable (∀ r ∈ d.reply, r.Harmless))

/-- The quote that it gives up: one that is withdrawn, or whose move is rejected. -/
def released (d : Dealing) : Option ℤ :=
  if d.Answered then
    match d.task with
    | .withdraw orderId => some orderId
    | .move orderId _ _ => if Quoting.accepted d.reply then none else some orderId
    | _ => none
  else none

/-- What it takes up is there: a quote that is placed is not closed at once, one that is moved is
moved by the first response, and a new session starts without quotes. -/
def TakesUp (d : Dealing) : Prop :=
  match d.task with
  | .place orderId =>
    d.Answered → Quoting.accepted d.reply = true → ¬ ClosedBy orderId d.requests
  | .move _ price currentPrice =>
    d.Answered → Quoting.accepted d.reply = true →
      ∀ first ∈ d.reply.head?, first.Moves price currentPrice
  | .reconnect => trackedIds d.quotes = []
  | _ => True

instance : DecidablePred TakesUp
  | ⟨.place _, _, _, _, _⟩ => inferInstanceAs (Decidable (_ → _ → ¬ _))
  | ⟨.move _ _ _, _, _, _, _⟩ => inferInstanceAs (Decidable (_ → _ → ∀ first ∈ _, _))
  | ⟨.reconnect, _, _, _, _⟩ => inferInstanceAs (Decidable (_ = _))
  | ⟨.withdraw _, _, _, _, _⟩ | ⟨.other, _, _, _, _⟩ | ⟨.attempt, _, _, _, _⟩ => .isTrue trivial

/-- **The condition on a dealing**: nothing that the exchange responds in it closes a quote that is
tracked, but for the one that it gives up, and what it takes up is there. -/
structure Undisturbed (d : Dealing) : Prop where
  closes : ∀ orderId ∈ trackedIds d.quotes, ClosedBy orderId d.requests →
    d.released = some orderId
  takesUp : d.TakesUp

instance (d : Dealing) : Decidable d.Undisturbed :=
  decidable_of_iff (_ ∧ _) ⟨fun h ↦ ⟨h.1, h.2⟩, fun h ↦ ⟨h.closes, h.takesUp⟩⟩

section

variable {d : Dealing} {symbol seqNum orderId price : ℤ} {side : Side}

theorem requests_eq_nil (h : d.after.requests = d.before.requests) : d.requests = [] := by
  rw [requests, h, List.drop_length]

/-- The reply of a dealing is the list of its first request. -/
theorem reply_of_sent {seqNum : ℕ} {msg : List UInt8} {responses : List OeResponse}
    (h : Sent d.before.requests ⟨seqNum, orderId, msg, responses⟩ d.after) :
    d.reply = responses := by
  obtain ⟨rest, hrest⟩ := h
  unfold reply requests
  rw [← hrest, List.append_assoc, List.drop_left]
  rfl

/-- Only a quote that is withdrawn or moved is given up. -/
theorem task_of_released (h : d.released = some orderId) :
    d.task = .withdraw orderId ∨
      ∃ price currentPrice, d.task = .move orderId price currentPrice := by
  unfold released at h
  split at h
  · rcases htask : d.task with id | ⟨id, price, current⟩ | id | - | - | -
    · rw [htask] at h
      cases h
    · rw [htask] at h
      dsimp only at h
      split at h
      · cases h
      · cases h
        exact Or.inr ⟨price, current, rfl⟩
    · rw [htask] at h
      cases h
      exact Or.inl rfl
    · rw [htask] at h
      cases h
    · rw [htask] at h
      cases h
    · rw [htask] at h
      cases h
  · cases h

/-- A placed quote gives nothing up. -/
theorem not_released_of_place (htask : d.task = .place orderId) {orderId' : ℤ} :
    d.released ≠ some orderId' := by
  intro h
  rcases task_of_released h with heq | ⟨_, _, heq⟩
  · cases htask.symm.trans heq
  · cases htask.symm.trans heq

/-- A move gives up no other quote than its own. -/
theorem eq_of_released_of_move {price currentPrice orderId' : ℤ}
    (htask : d.task = .move orderId price currentPrice) (h : d.released = some orderId') :
    orderId' = orderId := by
  rcases task_of_released h with heq | ⟨_, _, heq⟩
  · cases htask.symm.trans heq
  · cases htask.symm.trans heq
    rfl

/-- An accepted one gives nothing up. -/
theorem released_of_accepted_move {price currentPrice : ℤ}
    (htask : d.task = .move orderId price currentPrice) (hanswered : d.Answered)
    (haccepted : Quoting.accepted d.reply = true) : d.released = none := by
  unfold released
  rw [if_pos hanswered, htask]
  exact if_pos haccepted

/-- A dealing whose own request fails gives nothing up. -/
theorem not_closedBy_of_failed {seqNum : ℕ} {orderId' : ℤ}
    (h : Failed d.before.requests seqNum orderId' d.after) (hreleased : d.released = some orderId) :
    d.requests = [] := by
  rcases h with hsame | ⟨msg, responses, hsent, hfailed⟩
  · exact requests_eq_nil hsame
  · unfold released at hreleased
    rw [if_neg] at hreleased
    · cases hreleased
    · unfold Answered
      rwa [reply_of_sent hsent]

/-- **A quote that is not given up** stays open. -/
theorem Undisturbed.live (h : d.Undisturbed) (htracked : Tracks d.quotes symbol side orderId price)
    (hremains : Live orderId side.value price d.after ∨ ClosedBy orderId d.requests)
    (hkept : d.released = some orderId → d.requests = []) :
    Live orderId side.value price d.after := by
  rcases hremains with hlive | hclosed
  · exact hlive
  · obtain ⟨q, hq, -⟩ := id hclosed
    rw [hkept (h.closes orderId htracked.mem_trackedIds hclosed)] at hq
    cases hq

end

end Dealing

/-! ### The invariant -/

variable {ω : Type} {O : Outside ω}

/-- **The tracked quotes are open orders**, each with an id of its own. -/
structure LiveQuotes (s : OrderStrategy ω) : Prop where
  waiting : s.client.record.batches = []
  live : ∀ {symbol side orderId price}, Tracks s.state symbol side orderId price →
    Live orderId side.value price s.client
  apart : ∀ {symbol side symbol' side' orderId price price'},
    Tracks s.state symbol side orderId price → Tracks s.state symbol' side' orderId price' →
      symbol = symbol' ∧ side = side'

/-- Nothing has been disturbed so far. -/
def Undisturbed (s : OrderStrategy ω) : Prop := ∀ d ∈ s.history, d.Undisturbed

instance (s : OrderStrategy ω) : Decidable (Undisturbed s) :=
  inferInstanceAs (Decidable (∀ d ∈ s.history, d.Undisturbed))

/-- The tracked quotes are open orders, unless something has been disturbed. -/
def TracksLive (x : OrderStrategy ω × OrderBookManager) : Prop := Undisturbed x.1 → LiveQuotes x.1

section

variable {symbol : ℤ} {side : Side} {state : SymbolState} {s s' : OrderStrategy ω} {q : Quoting}

/-- Nothing that is tracked changes, and the client only where no order is concerned. -/
theorem LiveQuotes.congr (h : LiveQuotes s) (hstate : s'.state = s.state)
    (horders : s'.client.openOrders = s.client.openOrders)
    (hwaiting : s'.client.record.batches = s.client.record.batches) : LiveQuotes s' where
  waiting := hwaiting.trans h.waiting
  live htracked := (h.live (hstate ▸ htracked)).congr horders
  apart htracked htracked' := h.apart (hstate ▸ htracked) (hstate ▸ htracked')

/-- Writing back a symbol's state sets its quotes, and no others. -/
theorem tracks_setQuoting {symbol' orderId price : ℤ} {side' : Side}
    (h : Tracks (s.setQuoting symbol q).state symbol' side' orderId price) :
    (symbol' = symbol ∧ q.state.quote side'.value = (some orderId, price)) ∨
      (symbol' ≠ symbol ∧ Tracks s.state symbol' side' orderId price) := by
  obtain ⟨state', hstate', hquote⟩ := h
  replace hstate' : (s.state.insert symbol q.state).get? symbol' = some state' := hstate'
  rw [Dict.get?_insert] at hstate'
  split at hstate'
  · rename_i heq
    obtain rfl := Option.some.inj hstate'
    exact Or.inl ⟨heq, hquote⟩
  · rename_i hne
    exact Or.inr ⟨hne, state', hstate', hquote⟩

/-- **One quote is dealt with**: the others are tracked as before and still open, and this one, if
it is tracked then, is an open order that is not the quote of another symbol or side. -/
theorem LiveQuotes.setQuoting (h : LiveQuotes s) (side : Side)
    (hstate : s.state.get? symbol = some state)
    (hwaiting : q.client.record.batches = [])
    (hother : ∀ side', side' ≠ side → q.state.quote side'.value = state.quote side'.value)
    (hlive : ∀ {symbol' side' orderId price}, ¬(symbol' = symbol ∧ side' = side) →
      Tracks s.state symbol' side' orderId price → Live orderId side'.value price q.client)
    (hown : ∀ {orderId price}, q.state.quote side.value = (some orderId, price) →
      Live orderId side.value price q.client ∧
        ∀ {symbol' side' price'}, Tracks s.state symbol' side' orderId price' →
          symbol' = symbol ∧ side' = side) :
    LiveQuotes (s.setQuoting symbol q) := by
  have hcases : ∀ {symbol' side' orderId price},
      Tracks (s.setQuoting symbol q).state symbol' side' orderId price →
        (symbol' = symbol ∧ side' = side ∧ q.state.quote side.value = (some orderId, price)) ∨
          (¬(symbol' = symbol ∧ side' = side) ∧ Tracks s.state symbol' side' orderId price) := by
    intro symbol' side' orderId price htracked
    rcases tracks_setQuoting htracked with ⟨rfl, hquote⟩ | ⟨hne, htracked⟩
    · by_cases hside : side' = side
      · subst hside
        exact Or.inl ⟨rfl, rfl, hquote⟩
      · rw [hother side' hside] at hquote
        exact Or.inr ⟨fun heq ↦ hside heq.2, state, hstate, hquote⟩
    · exact Or.inr ⟨fun heq ↦ hne heq.1, htracked⟩
  refine ⟨hwaiting, fun htracked ↦ ?_, fun htracked htracked' ↦ ?_⟩
  · rcases hcases htracked with ⟨-, rfl, hquote⟩ | ⟨hne, htracked⟩
    · exact (hown hquote).1
    · exact hlive hne htracked
  · rcases hcases htracked with ⟨rfl, rfl, hquote⟩ | ⟨hne, hold⟩
    · rcases hcases htracked' with ⟨rfl, rfl, -⟩ | ⟨hne', hold'⟩
      · exact ⟨rfl, rfl⟩
      · exact absurd ((hown hquote).2 hold') hne'
    · rcases hcases htracked' with ⟨rfl, rfl, hquote'⟩ | ⟨-, hold'⟩
      · exact absurd ((hown hquote').2 hold) hne
      · exact h.apart hold hold'

/-- The quotes are as before, and all of them are still open. -/
theorem LiveQuotes.unmoved (h : LiveQuotes s) (hstate : s.state.get? symbol = some state)
    (hwaiting : q.client.record.batches = [])
    (hquotes : ∀ side : Side, q.state.quote side.value = state.quote side.value)
    (hlive : ∀ {symbol' side' orderId price}, Tracks s.state symbol' side' orderId price →
      Live orderId side'.value price q.client) :
    LiveQuotes (s.setQuoting symbol q) :=
  h.setQuoting .buy hstate hwaiting (fun side' _ ↦ hquotes side') (fun _ ↦ hlive)
    fun hquote ↦ by
      have htracked : Tracks s.state symbol .buy _ _ :=
        ⟨state, hstate, (hquotes .buy).symm.trans hquote⟩
      exact ⟨hlive htracked, fun htracked' ↦ h.apart htracked' htracked⟩

end

/-! ### Calls on the client -/

/-- What a call on the client may do to the orders that are tracked. -/
theorem tracksLive_onClient {α : Type} {call : ClientM α}
    (hwaiting : ∀ {c : OrderEntryClient}, c.record.batches = [] →
      (call.after c).record.batches = [])
    (hremains : ∀ {c : OrderEntryClient} {orderId side price}, Live orderId side price c →
      c.record.batches = [] → Live orderId side price (call.after c) ∨
        ClosedBy orderId ((call.after c).requests.drop c.requests.length)) :
    Keeps (TracksLive (ω := ω)) (dealing (fun _ ↦ .other) (onClient call)) := by
  rintro ⟨s, m⟩ hs
  obtain ⟨returned, heq⟩ := after_dealing (fun _ ↦ Task.other) (onClient call) (s, m)
  rw [heq, after_onClient]
  intro hundisturbed
  have hbefore := hs fun d hd ↦ hundisturbed d (List.mem_append_left _ hd)
  have hdealing := hundisturbed ⟨.other, s.state, s.client, call.after s.client, returned⟩
    (List.mem_append_right _ List.mem_cons_self)
  refine ⟨hwaiting hbefore.waiting, fun htracked ↦ ?_, hbefore.apart⟩
  refine hdealing.live htracked (hremains (hbefore.live htracked) hbefore.waiting)
    fun hreleased ↦ ?_
  rcases Dealing.task_of_released hreleased with htask | ⟨_, _, htask⟩
  · cases htask
  · cases htask

/-! ### Quoting -/

section

variable {s : Quoting} {side price oid : ℤ} {now : ℚ} {c : OrderEntryClient}
  {responses : List OeResponse} {e : OeError}

/-- What follows a call on the client. -/
theorem after_quoting_of_ok {α β : Type} {call : ClientM α} {a : α} (h : call s.client = .ok a c)
    (f : α → Quoting.QuotingM β) :
    (Quoting.onClient call >>= f).after s = (f a).after (s.setClient c) :=
  after_bind_of_ok (Quoting.onClient_ok h) f

/-- What a call that raises leaves of the quoting. -/
theorem after_quoting_of_error {α β : Type} {call : ClientM α} (h : call s.client = .error e c)
    (f : α → Quoting.QuotingM β) : (Quoting.onClient call >>= f).after s = s.setClient c := by
  unfold after
  rw [bind_error (Quoting.onClient_error h)]

theorem after_quoting_get {β : Type} (f : Quoting → Quoting.QuotingM β) (s : Quoting) :
    ((get : Quoting.QuotingM Quoting) >>= f).after s = (f s).after s := rfl

theorem after_cancelQuote_of_none (h : (s.state.quote side).1 = none) :
    (Quoting.cancelQuote side).after s = s := by
  unfold Quoting.cancelQuote
  rw [after_quoting_get, h]
  rfl

/-- **A quote whose cancel returns** is not tracked any more. -/
theorem after_cancelQuote_of_ok (h : (s.state.quote side).1 = some oid)
    (hrun : OrderEntryClient.deleteOrder oid s.client = .ok responses c) :
    (Quoting.cancelQuote side).after s = (s.setClient c).track side none 0 := by
  unfold Quoting.cancelQuote
  rw [after_quoting_get, h]
  exact after_quoting_of_ok hrun _

theorem after_cancelQuote_of_error (h : (s.state.quote side).1 = some oid)
    (hrun : OrderEntryClient.deleteOrder oid s.client = .error e c) :
    (Quoting.cancelQuote side).after s = s.setClient c := by
  unfold Quoting.cancelQuote
  rw [after_quoting_get, h]
  exact after_quoting_of_error hrun _

theorem after_allocOrderId {β : Type} (f : ℤ → Quoting.QuotingM β) (s : Quoting) :
    (Quoting.allocOrderId >>= f).after s = (f s.state.nextOrderId).after s.allocated := rfl

/-- A price off the tick is not placed. -/
theorem after_placeQuote_of_tick (h : price % s.state.tick ≠ 0) :
    (Quoting.placeQuote now side price).after s = s.allocated := by
  unfold Quoting.placeQuote
  rw [after_allocOrderId, after_quoting_get]
  exact congrArg (after · s.allocated) (if_pos h)

/-- **A quote that is placed** is tracked if its first response is no reject. -/
theorem after_placeQuote_of_ok (h : ¬ price % s.state.tick ≠ 0)
    (hrun : OrderEntryClient.newOrder now s.state.nextOrderId s.state.symbol side s.config.orderQty
      price OrderFlags.none.value s.client = .ok responses c) :
    (Quoting.placeQuote now side price).after s =
      if Quoting.accepted responses then
        (s.allocated.setClient c).track side (some s.state.nextOrderId) price
      else s.allocated.setClient c := by
  unfold Quoting.placeQuote
  rw [after_allocOrderId, after_quoting_get]
  refine (congrArg (after · s.allocated) (if_neg h)).trans
    ((after_quoting_of_ok (s := s.allocated) hrun _).trans ?_)
  split <;> rfl

theorem after_placeQuote_of_error (h : ¬ price % s.state.tick ≠ 0)
    (hrun : OrderEntryClient.newOrder now s.state.nextOrderId s.state.symbol side s.config.orderQty
      price OrderFlags.none.value s.client = .error e c) :
    (Quoting.placeQuote now side price).after s = s.allocated.setClient c := by
  unfold Quoting.placeQuote
  rw [after_allocOrderId, after_quoting_get]
  exact (congrArg (after · s.allocated) (if_neg h)).trans
    (after_quoting_of_error (s := s.allocated) hrun _)

/-- A price off the tick is not moved to. -/
theorem after_modifyQuote_of_tick (h : price % s.state.tick ≠ 0) :
    (Quoting.modifyQuote side price).after s = s := by
  unfold Quoting.modifyQuote
  rw [after_quoting_get, if_pos h]
  rfl

/-- **A quote that is moved** is tracked at its new price, likewise. -/
theorem after_modifyQuote_of_ok (h : ¬ price % s.state.tick ≠ 0)
    (hoid : (s.state.quote side).1 = some oid)
    (hrun : modifyOrder oid side s.config.orderQty price s.client = .ok responses c) :
    (Quoting.modifyQuote side price).after s =
      if Quoting.accepted responses then (s.setClient c).track side (some oid) price
      else (s.setClient c).track side none 0 := by
  unfold Quoting.modifyQuote
  rw [after_quoting_get, if_neg h, hoid]
  refine (after_quoting_of_ok hrun _).trans ?_
  split <;> rfl

theorem after_modifyQuote_of_error (h : ¬ price % s.state.tick ≠ 0)
    (hoid : (s.state.quote side).1 = some oid)
    (hrun : modifyOrder oid side s.config.orderQty price s.client = .error e c) :
    (Quoting.modifyQuote side price).after s = s.setClient c := by
  unfold Quoting.modifyQuote
  rw [after_quoting_get, if_neg h, hoid]
  exact after_quoting_of_error hrun _

/-- A quote that is not wanted is cancelled. -/
theorem after_manageQuote_of_not :
    (Quoting.manageQuote now side price false).after s = (Quoting.cancelQuote side).after s := by
  have hstart : (Quoting.manageQuote now side price false).after s =
      (if (s.state.quote side).1.isSome then Quoting.cancelQuote side else pure ()).after s := rfl
  rw [hstart]
  split
  · rfl
  · rename_i hnone
    rw [after_cancelQuote_of_none (Option.not_isSome_iff_eq_none.1 hnone)]
    rfl

/-- One that is wanted and not there is placed. -/
theorem after_manageQuote_of_none (h : (s.state.quote side).1 = none) :
    (Quoting.manageQuote now side price true).after s =
      (Quoting.placeQuote now side price).after s := by
  have hstart : (Quoting.manageQuote now side price true).after s =
      (if (s.state.quote side).1.isNone then Quoting.placeQuote now side price
      else if |price - (s.state.quote side).2| ≥ s.config.requoteThresholdTicks * s.state.tick then
        Quoting.modifyQuote side price
      else pure ()).after s := rfl
  rw [hstart, if_pos (Option.isNone_iff_eq_none.2 h)]

/-- A quote is moved, or it is near enough. -/
theorem after_manageQuote_of_some (now : ℚ) (price : ℤ)
    (h : (s.state.quote side).1 = some oid) :
    (Quoting.manageQuote now side price true).after s = (Quoting.modifyQuote side price).after s ∨
      (Quoting.manageQuote now side price true).after s = s := by
  have hstart : (Quoting.manageQuote now side price true).after s =
      (if (s.state.quote side).1.isNone then Quoting.placeQuote now side price
      else if |price - (s.state.quote side).2| ≥ s.config.requoteThresholdTicks * s.state.tick then
        Quoting.modifyQuote side price
      else pure ()).after s := rfl
  rw [hstart, if_neg (by rw [h]; exact Bool.false_ne_true)]
  split
  · exact Or.inl rfl
  · exact Or.inr rfl

end

/-- An accepted list begins with a response that is no reject. -/
theorem head?_of_accepted {responses : List OeResponse} (h : Quoting.accepted responses = true) :
    ∃ first, responses.head? = some first ∧ isReject first = false := by
  rcases responses with - | ⟨first, rest⟩
  · cases h
  · exact ⟨first, rfl, Bool.not_eq_true' _ ▸ h⟩

/-- It has been collected for a request, and handled to its end. -/
theorem sent_of_accepted {before : List Request} {seqNum : ℕ} {orderId : ℤ}
    {responses : List OeResponse} {c : OrderEntryClient}
    (h : Handled before seqNum orderId responses c)
    (haccepted : Quoting.accepted responses = true) :
    (∃ msg, Sent before ⟨seqNum, orderId, msg, responses⟩ c) ∧
      ∀ r ∈ responses, r.Harmless := by
  rcases h with ⟨-, r, rfl, hreject⟩ | hsent
  · obtain ⟨first, hfirst, hno⟩ := head?_of_accepted haccepted
    cases hfirst
    cases hreject.symm.trans hno
  · exact hsent

/-- It is the reply of its dealing, which it answers. -/
theorem Dealing.reply_of_accepted {d : Dealing} {seqNum : ℕ} {orderId : ℤ}
    {responses : List OeResponse} (h : Handled d.before.requests seqNum orderId responses d.after)
    (haccepted : Quoting.accepted responses = true) : d.reply = responses ∧ d.Answered := by
  obtain ⟨⟨msg, hsent⟩, hharmless⟩ := sent_of_accepted h haccepted
  obtain rfl : d.reply = responses := reply_of_sent hsent
  exact ⟨rfl, hharmless⟩

theorem quote_track_self (side : Side) (orderId : Option ℤ) (price : ℤ) (state : SymbolState) :
    (state.track side.value orderId price).quote side.value = (orderId, price) :=
  (SymbolState.quote_track _ _ _ _ _).trans (if_pos Iff.rfl)

theorem quote_track_of_ne {side side' : Side} (h : side' ≠ side) (orderId : Option ℤ) (price : ℤ)
    (state : SymbolState) :
    (state.track side.value orderId price).quote side'.value = state.quote side'.value := by
  refine (SymbolState.quote_track _ _ _ _ _).trans (if_neg ?_)
  cases side with
  | buy => cases side' with
    | buy => exact absurd rfl h
    | sell => decide
  | sell => cases side' with
    | buy => decide
    | sell => exact absurd rfl h

section

variable {symbol : ℤ} {side : Side} {state : SymbolState} {s : OrderStrategy ω} {q : Quoting}
  {task : Task} {returned : Bool}

/-- A dealing that ends with its quote untracked, or open. -/
theorem LiveQuotes.ended (h : LiveQuotes s) (side : Side)
    (hstate : s.state.get? symbol = some state)
    (hd : (⟨task, s.state, s.client, q.client, returned⟩ : Dealing).Undisturbed)
    (hwaiting : q.client.record.batches = [])
    (hother : ∀ side', side' ≠ side → q.state.quote side'.value = state.quote side'.value)
    (hremains : ∀ {symbol' side' orderId price}, ¬(symbol' = symbol ∧ side' = side) →
      Tracks s.state symbol' side' orderId price → Live orderId side'.value price q.client ∨
        ClosedBy orderId (q.client.requests.drop s.client.requests.length))
    (hreleased : ∀ {orderId}, (⟨task, s.state, s.client, q.client, returned⟩ : Dealing).released =
      some orderId → ∃ price, Tracks s.state symbol side orderId price)
    (hown : ∀ {orderId price}, q.state.quote side.value = (some orderId, price) →
      Live orderId side.value price q.client ∧
        ∀ {symbol' side' price'}, Tracks s.state symbol' side' orderId price' →
          symbol' = symbol ∧ side' = side) :
    LiveQuotes (s.setQuoting symbol q) := by
  refine h.setQuoting side hstate hwaiting hother (fun hne htracked ↦ ?_) hown
  refine hd.live htracked (hremains hne htracked) fun hgiven ↦ ?_
  obtain ⟨price, htracked'⟩ := hreleased hgiven
  exact absurd (h.apart htracked htracked') hne

/-- A dealing whose request fails, which leaves the quotes as they are. -/
theorem LiveQuotes.failed (h : LiveQuotes s) (hstate : s.state.get? symbol = some state)
    (hd : (⟨task, s.state, s.client, q.client, returned⟩ : Dealing).Undisturbed)
    (hwaiting : q.client.record.batches = [])
    (hquotes : ∀ side : Side, q.state.quote side.value = state.quote side.value)
    (hremains : ∀ {orderId side price}, Live orderId side price s.client →
      Live orderId side price q.client ∨
        ClosedBy orderId (q.client.requests.drop s.client.requests.length))
    {seqNum : ℕ} {orderId' : ℤ} (hfailed : Failed s.client.requests seqNum orderId' q.client) :
    LiveQuotes (s.setQuoting symbol q) :=
  h.unmoved hstate hwaiting hquotes fun htracked ↦ hd.live htracked (hremains (h.live htracked))
    fun hreleased ↦ Dealing.not_closedBy_of_failed
      (d := ⟨task, s.state, s.client, q.client, returned⟩) hfailed hreleased

/-- **`_cancel_quote`** of a tracked quote. -/
theorem live_withdrawn {oid price : ℤ} (h : LiveQuotes s)
    (hstate : s.state.get? symbol = some state)
    (hquote : state.quote side.value = (some oid, price))
    (hd : (⟨.withdraw oid, s.state, s.client,
      ((Quoting.cancelQuote side.value).after (s.quoting state)).client, returned⟩ :
        Dealing).Undisturbed) :
    LiveQuotes
      (s.setQuoting symbol ((Quoting.cancelQuote side.value).after (s.quoting state))) := by
  have hoid : ((s.quoting state).state.quote side.value).1 = some oid := congrArg Prod.fst hquote
  have hremains {orderId side price : ℤ} (hlive : Live orderId side price s.client) :=
    (remains_deleteOrder hlive h.waiting oid).live
  rcases hrun : OrderEntryClient.deleteOrder oid s.client with ⟨responses, c⟩ | ⟨e, c⟩
  · have hended := (Ask.deleteOrder oid).handled h.waiting hrun
    rw [after_cancelQuote_of_ok hoid hrun] at hd ⊢
    simp only [after_ok hrun] at hremains
    refine h.ended side hstate hd hended.2 (fun side' hne ↦ quote_track_of_ne hne _ _ _)
      (fun _ htracked ↦ hremains (h.live htracked)) (fun hreleased ↦ ?_) fun hown ↦ ?_
    · rcases Dealing.task_of_released hreleased with htask | ⟨_, _, htask⟩
      · cases htask
        exact ⟨price, state, hstate, hquote⟩
      · cases htask
    · cases (quote_track_self side none 0 state).symm.trans hown
  · have hended := (Ask.deleteOrder oid).failed h.waiting hrun
    rw [after_cancelQuote_of_error hoid hrun] at hd ⊢
    simp only [after_error hrun] at hremains
    exact h.failed hstate hd hended.2 (fun _ ↦ rfl) hremains hended.1

/-- **`_place_quote`**, with none tracked. -/
theorem live_placed {now : ℚ} {price : ℤ} (h : LiveQuotes s)
    (hstate : s.state.get? symbol = some state) (hquote : (state.quote side.value).1 = none)
    (hd : (⟨.place state.nextOrderId, s.state, s.client,
      ((Quoting.placeQuote now side.value price).after (s.quoting state)).client, returned⟩ :
        Dealing).Undisturbed) :
    LiveQuotes
      (s.setQuoting symbol
        ((Quoting.placeQuote now side.value price).after (s.quoting state))) := by
  by_cases htick : price % (s.quoting state).state.tick ≠ 0
  · rw [after_placeQuote_of_tick htick]
    exact h.unmoved hstate h.waiting (fun _ ↦ rfl) fun htracked ↦ h.live htracked
  have hremains {orderId side' price' : ℤ} (hlive : Live orderId side' price' s.client) :=
    (remains_newOrder hlive h.waiting now state.nextOrderId state.symbol side.value
      s.config.orderQty price OrderFlags.none.value).live
  rcases hrun : OrderEntryClient.newOrder now state.nextOrderId state.symbol side.value
    s.config.orderQty price OrderFlags.none.value s.client with ⟨responses, c⟩ | ⟨e, c⟩
  · have hended := (Ask.newOrder ..).handled h.waiting hrun
    rw [after_placeQuote_of_ok (s := s.quoting state) htick hrun] at hd ⊢
    simp only [after_ok hrun] at hremains
    split at hd
    · rename_i haccepted
      rw [if_pos haccepted]
      refine h.ended side hstate hd hended.2 (fun side' hne ↦ quote_track_of_ne hne _ _ _)
        (fun _ htracked ↦ hremains (h.live htracked))
        (fun hreleased ↦ absurd hreleased (Dealing.not_released_of_place rfl)) fun hown ↦ ?_
      obtain ⟨first, hfirst, hno⟩ := head?_of_accepted haccepted
      obtain ⟨hnew, hplaced⟩ := remains_of_accepted h.waiting hrun hfirst hno
      cases (quote_track_self side (some state.nextOrderId) price _).symm.trans hown
      obtain ⟨hreply, hanswered⟩ := Dealing.reply_of_accepted
        (d := ⟨.place state.nextOrderId, s.state, s.client, c, returned⟩) hended.1 haccepted
      refine ⟨hplaced.live.resolve_right (hd.takesUp hanswered (hreply.symm ▸ haccepted)),
        fun htracked ↦ ?_⟩
      -- a quote that is tracked is open, and this order was not
      · obtain ⟨entry, hentry, -⟩ := h.live htracked
        cases hnew.symm.trans hentry
    · rename_i hrejected
      rw [if_neg hrejected]
      refine h.ended side hstate hd hended.2 (fun _ _ ↦ rfl)
        (fun _ htracked ↦ hremains (h.live htracked))
        (fun hreleased ↦ absurd hreleased (Dealing.not_released_of_place rfl)) fun hown ↦ ?_
      cases hquote.symm.trans (congrArg Prod.fst hown)
  · have hended := (Ask.newOrder ..).failed h.waiting hrun
    rw [after_placeQuote_of_error (s := s.quoting state) htick hrun] at hd ⊢
    simp only [after_error hrun] at hremains
    exact h.failed hstate hd hended.2 (fun _ ↦ rfl) hremains hended.1

/-- **`_modify_quote`** of a tracked quote. -/
theorem live_moved {oid price currentPrice : ℤ} (h : LiveQuotes s)
    (hstate : s.state.get? symbol = some state)
    (hquote : state.quote side.value = (some oid, currentPrice))
    (hd : (⟨.move oid price currentPrice, s.state, s.client,
      ((Quoting.modifyQuote side.value price).after (s.quoting state)).client, returned⟩ :
        Dealing).Undisturbed) :
    LiveQuotes
      (s.setQuoting symbol ((Quoting.modifyQuote side.value price).after (s.quoting state))) := by
  have htracked : Tracks s.state symbol side oid currentPrice := ⟨state, hstate, hquote⟩
  have hoid : ((s.quoting state).state.quote side.value).1 = some oid := congrArg Prod.fst hquote
  by_cases htick : price % (s.quoting state).state.tick ≠ 0
  · rw [after_modifyQuote_of_tick htick]
    exact h.unmoved hstate h.waiting (fun _ ↦ rfl) fun htracked ↦ h.live htracked
  rcases hrun : modifyOrder oid side.value s.config.orderQty price s.client with
    ⟨responses, c⟩ | ⟨e, c⟩
  · have hended := (Ask.modifyOrder ..).handled h.waiting hrun
    have hreleased {d : Dealing} (htask : d.task = .move oid price currentPrice) {orderId : ℤ}
        (hreleased : d.released = some orderId) :
        ∃ price, Tracks s.state symbol side orderId price :=
      ⟨currentPrice, Dealing.eq_of_released_of_move htask hreleased ▸ htracked⟩
    -- the other quotes have other ids
    have hremains {symbol' : ℤ} {side' : Side} {orderId price' : ℤ}
        (hne : ¬(symbol' = symbol ∧ side' = side))
        (htracked' : Tracks s.state symbol' side' orderId price') :
        Live orderId side'.value price' c ∨
          ClosedBy orderId (c.requests.drop s.client.requests.length) := by
      have hother : orderId ≠ oid := by
        rintro rfl
        exact hne (h.apart htracked' htracked)
      have hkept := remains_modifyOrder (h.live htracked') h.waiting hother side.value
        s.config.orderQty price
      rwa [after_ok hrun] at hkept
    rw [after_modifyQuote_of_ok (s := s.quoting state) htick hoid hrun] at hd ⊢
    split at hd
    · rename_i haccepted
      rw [if_pos haccepted]
      refine h.ended side hstate hd hended.2 (fun side' hne ↦ quote_track_of_ne hne _ _ _)
        hremains (hreleased rfl) fun hown ↦ ?_
      obtain ⟨first, hfirst, hno⟩ := head?_of_accepted haccepted
      cases (quote_track_self side (some oid) price state).symm.trans hown
      obtain ⟨hreply, hanswered⟩ := Dealing.reply_of_accepted
        (d := ⟨.move oid price currentPrice, s.state, s.client, c, returned⟩) hended.1 haccepted
      have hmoves : first.Moves price currentPrice :=
        hd.takesUp hanswered (hreply.symm ▸ haccepted) first (hreply.symm ▸ hfirst)
      refine ⟨?_, fun htracked' ↦ h.apart htracked' htracked⟩
      refine (live_of_moved (h.live htracked) h.waiting hrun hfirst hno hmoves).resolve_right
        fun hclosed ↦ ?_
      have hgiven := hd.closes oid htracked.mem_trackedIds hclosed
      have hnone := Dealing.released_of_accepted_move rfl hanswered (hreply.symm ▸ haccepted)
      cases hnone.symm.trans hgiven
    -- a refused move: the strategy no longer tracks the quote
    · rename_i hrejected
      rw [if_neg hrejected]
      refine h.ended side hstate hd hended.2 (fun side' hne ↦ quote_track_of_ne hne _ _ _)
        hremains (hreleased rfl) fun hown ↦ ?_
      cases (quote_track_self side none 0 state).symm.trans hown
  · have hended := (Ask.modifyOrder ..).failed h.waiting hrun
    rw [after_modifyQuote_of_error (s := s.quoting state) htick hoid hrun] at hd ⊢
    exact h.failed hstate hd hended.2 (fun _ ↦ rfl)
      (fun hlive ↦ (remains_of_raised hlive h.waiting hrun).live) hended.1

/-- The quote of a symbol, read from its state. -/
theorem quote_of_get? (hstate : s.state.get? symbol = some state) (side : ℤ) :
    s.quote symbol side = state.quote side := by
  unfold OrderStrategy.quote
  rw [hstate]
  rfl

/-- What withdrawing a quote comes to. -/
theorem withdrawTask_of_some {oid : ℤ} (hstate : s.state.get? symbol = some state)
    (h : (state.quote side.value).1 = some oid) :
    s.withdrawTask symbol side.value = .withdraw oid := by
  unfold withdrawTask
  rw [quote_of_get? hstate, h]

/-- What managing one comes to, with none tracked. -/
theorem manageTask_of_none {targetPrice : ℤ} (hstate : s.state.get? symbol = some state)
    (h : (state.quote side.value).1 = none) :
    s.manageTask symbol side.value targetPrice true = .place state.nextOrderId := by
  have hquote : s.quote symbol side.value = (none, (state.quote side.value).2) :=
    (quote_of_get? hstate side.value).trans (Prod.ext h rfl)
  unfold manageTask
  rw [hquote, hstate]
  rfl

/-- A quote that is there and wanted elsewhere is to be moved. -/
theorem manageTask_of_some {targetPrice oid currentPrice : ℤ}
    (hstate : s.state.get? symbol = some state)
    (h : state.quote side.value = (some oid, currentPrice)) :
    s.manageTask symbol side.value targetPrice true = .move oid targetPrice currentPrice := by
  unfold manageTask
  rw [quote_of_get? hstate, h]
  rfl

/-- Withdrawing a quote leaves the others open. -/
theorem live_cancelQuote (h : LiveQuotes s) (hstate : s.state.get? symbol = some state)
    (hd : (⟨s.withdrawTask symbol side.value, s.state, s.client,
      ((Quoting.cancelQuote side.value).after (s.quoting state)).client, returned⟩ :
        Dealing).Undisturbed) :
    LiveQuotes
      (s.setQuoting symbol ((Quoting.cancelQuote side.value).after (s.quoting state))) := by
  rcases hquote : state.quote side.value with ⟨- | oid, price⟩
  · rw [after_cancelQuote_of_none (s := s.quoting state) (congrArg Prod.fst hquote)]
    exact h.unmoved hstate h.waiting (fun _ ↦ rfl) fun htracked ↦ h.live htracked
  · rw [withdrawTask_of_some hstate (congrArg Prod.fst hquote)] at hd
    exact live_withdrawn h hstate hquote hd

/-- **`_manage_quote`**, whatever it comes to. -/
theorem live_manageQuote {now : ℚ} {targetPrice : ℤ} {shouldQuote : Bool} (h : LiveQuotes s)
    (hstate : s.state.get? symbol = some state)
    (hd : (⟨s.manageTask symbol side.value targetPrice shouldQuote, s.state, s.client,
      ((Quoting.manageQuote now side.value targetPrice shouldQuote).after (s.quoting state)).client,
      returned⟩ : Dealing).Undisturbed) :
    LiveQuotes (s.setQuoting symbol
      ((Quoting.manageQuote now side.value targetPrice shouldQuote).after (s.quoting state))) := by
  cases shouldQuote with
  | false =>
    rw [after_manageQuote_of_not] at hd ⊢
    exact live_cancelQuote h hstate hd
  | true =>
    rcases hquote : state.quote side.value with ⟨- | oid, currentPrice⟩
    · have hnone : ((s.quoting state).state.quote side.value).1 = none := congrArg Prod.fst hquote
      rw [manageTask_of_none hstate (congrArg Prod.fst hquote),
        after_manageQuote_of_none hnone] at hd
      rw [after_manageQuote_of_none hnone]
      exact live_placed h hstate hnone hd
    · have hsome : ((s.quoting state).state.quote side.value).1 = some oid :=
        congrArg Prod.fst hquote
      rw [manageTask_of_some hstate hquote] at hd
      rcases after_manageQuote_of_some now targetPrice hsome with heq | heq
      · rw [heq] at hd ⊢
        exact live_moved h hstate hquote hd
      · rw [heq]
        exact h.unmoved hstate h.waiting (fun _ ↦ rfl) fun htracked ↦ h.live htracked

end

/-! ### Runs -/

/-- A dealing with one quote. -/
theorem tracksLive_onQuoting {task : OrderStrategy ω → Task} {symbol : ℤ}
    {call : Quoting.QuotingM Unit}
    (hcall : ∀ {s : OrderStrategy ω} {state : SymbolState} {returned : Bool}, LiveQuotes s →
      s.state.get? symbol = some state →
        (⟨task s, s.state, s.client, (call.after (s.quoting state)).client, returned⟩ :
          Dealing).Undisturbed →
            LiveQuotes (s.setQuoting symbol (call.after (s.quoting state)))) :
    Keeps (TracksLive (ω := ω)) (dealing task (onQuoting symbol call)) := by
  rintro ⟨s, m⟩ hs
  obtain ⟨returned, heq⟩ := after_dealing task (onQuoting symbol call) (s, m)
  rw [heq]
  rcases after_onQuoting symbol call (s, m) with ⟨-, hafter⟩ | ⟨state, hstate, hafter⟩
  · rw [hafter]
    intro hundisturbed
    exact (hs fun d hd ↦ hundisturbed d (List.mem_append_left _ hd)).congr rfl rfl rfl
  · rw [hafter]
    intro hundisturbed
    have hbefore := hs fun d hd ↦ hundisturbed d (List.mem_append_left _ hd)
    have hdealing := hundisturbed
      ⟨task s, s.state, s.client, (call.after (s.quoting state)).client, returned⟩
      (List.mem_append_right _ List.mem_cons_self)
    exact (hcall hbefore hstate hdealing).congr rfl rfl rfl

theorem tracksLive_newOrder (orderId symbol side quantity price : ℤ) (flags : OrderFlags) :
    Keeps (TracksLive (ω := ω))
      (OrderStrategy.newOrder O orderId symbol side quantity price flags) :=
  Keeps.bind (m := monotonic O) (fun _ hx h ↦ (hx h).congr rfl rfl rfl) fun _ ↦
    tracksLive_onClient (fun hwaiting ↦ ((Ask.newOrder ..).ran hwaiting).batches_eq)
      fun hlive hwaiting ↦ (remains_newOrder hlive hwaiting _ _ _ _ _ _ _).live

/-- A new session forgets the open orders: it needs that no quote is tracked. -/
theorem tracksLive_reconnect :
    Keeps (TracksLive (ω := ω)) (dealing (fun _ ↦ .reconnect) (onClient reconnect)) := by
  rintro ⟨s, m⟩ hs
  obtain ⟨returned, heq⟩ := after_dealing (fun _ ↦ Task.reconnect) (onClient reconnect) (s, m)
  rw [heq, after_onClient]
  intro hundisturbed
  have hbefore := hs fun d hd ↦ hundisturbed d (List.mem_append_left _ hd)
  have hdealing := hundisturbed ⟨.reconnect, s.state, s.client, reconnect.after s.client, returned⟩
    (List.mem_append_right _ List.mem_cons_self)
  have hnone : trackedIds s.state = [] := hdealing.takesUp
  have hran : Ran False True s.client [] (reconnect.after s.client) :=
    ran_reconnect trivial _ ⟨.refl, hbefore.waiting⟩
  refine ⟨hran.batches_eq, fun htracked ↦ ?_, hbefore.apart⟩
  have hmem : _ ∈ trackedIds s.state := htracked.mem_trackedIds
  rw [hnone] at hmem
  cases hmem

/-- **Everything the strategy does** keeps tracked quotes open orders, unless it is disturbed. -/
theorem tracksLive_keptByRuns : KeptByRuns O (TracksLive (ω := ω)) where
  outside _ hx h := (hx h).congr rfl rfl rfl
  books _ hx h := (hx h).congr rfl rfl rfl
  spoofs _ hx h := (hx h).congr rfl rfl rfl
  deleteOrder orderId := tracksLive_onClient
    (fun hwaiting ↦ ((Ask.deleteOrder orderId).ran hwaiting).batches_eq)
    fun hlive hwaiting ↦ (remains_deleteOrder hlive hwaiting orderId).live
  cancelQuote _ _ := tracksLive_onQuoting live_cancelQuote
  attempt := by
    rintro ⟨s, m⟩ hs hundisturbed
    exact (hs fun d hd ↦ hundisturbed d (List.mem_append_left _ hd)).congr rfl rfl rfl
  submitClosing symbol side quantity price := Keeps.bind (m := nextFlattenOid)
    (fun _ hx h ↦ (hx h).congr rfl rfl rfl) fun oid ↦
      ((tracksLive_newOrder oid symbol side quantity price .ioc).bind fun _ ↦
        keeps_pure _).tryCatch fun _ ↦ keeps_pure _
  finished hx h := (hx h).congr rfl rfl rfl
  killed _ _ _ hx h := (hx h).congr rfl rfl rfl
  stopped _ _ _ hx h := (hx h).congr rfl rfl rfl
  manageQuote _ _ _ _ _ := Keeps.bind (m := monotonic O) (fun _ hx h ↦ (hx h).congr rfl rfl rfl)
    fun _ ↦ tracksLive_onQuoting live_manageQuote
  allocOrderId _ symbol := by
    intro x hx
    show TracksLive ((onQuoting symbol Quoting.allocOrderId).after x)
    rcases after_onQuoting symbol Quoting.allocOrderId x with ⟨-, heq⟩ | ⟨state, hstate, heq⟩
    · rw [heq]
      exact hx
    · rw [heq]
      intro h
      have hbefore := hx h
      exact hbefore.unmoved hstate hbefore.waiting (fun _ ↦ rfl) fun htracked ↦
        hbefore.live htracked
  newOrder _ := tracksLive_newOrder
  cooldown _ _ _ _ hx h := (hx h).congr rfl rfl rfl
  allocOid _ _ hx h := (hx h).congr rfl rfl rfl
  updatePosition _ _ _ _ _ hx h := (hx h).congr rfl rfl rfl
  suspend hx h := (hx h).congr rfl rfl rfl
  enabled hx h := (hx h).congr rfl rfl rfl
  reconnect := tracksLive_reconnect

theorem liveQuotes_init {client : OrderEntryClient} (h : client.record.batches = [])
    (config : OrderStrategyConfig) (outside : ω) :
    LiveQuotes (OrderStrategy.init client config outside) := by
  have hnone {symbol orderId price : ℤ} {side : Side}
      (htracked :
        Tracks (OrderStrategy.init client config outside).state symbol side orderId price) :
      False := by
    obtain ⟨state, hstate, hquote⟩ := htracked
    rw [Source.get?_init] at hstate
    split at hstate
    · cases hstate
      cases side with
      | buy => cases hquote
      | sell => cases hquote
    · cases hstate
  exact ⟨h, fun htracked ↦ (hnone htracked).elim, fun htracked ↦ (hnone htracked).elim⟩

/-- **Tracked quotes are open orders** as long as nothing disturbs them: in every run in which each
dealing with the exchange is undisturbed, whatever is quoted, received and raised, each tracked id
is open on its side and at its price. -/
theorem tracked_live (username password : List UInt8) (clientId pnlFloor positionCap : ℤ)
    (socket : Option Socket) (network : List (Option (List Arrival))) (calls : List Call)
    (config : OrderStrategyConfig) (outside : ω) (m : OrderBookManager) (events : List Event)
    (hundisturbed : Undisturbed (runEvents O events
      (.init (runCalls calls (init username password clientId pnlFloor positionCap socket network))
        config outside, m)).1) :
    let s := (runEvents O events
      (.init (runCalls calls (init username password clientId pnlFloor positionCap socket network))
        config outside, m)).1
    ∀ symbol side orderId price, Tracks s.state symbol side orderId price →
      Live orderId side.value price s.client := by
  intro s symbol side orderId price htracked
  have hran : Ran True True _ []
      (runCalls calls (init username password clientId pnlFloor positionCap socket network)) :=
    ran_runCalls (fun _ _ _ ↦ trivial) (fun _ _ _ ↦ trivial) rfl
  have hinit := liveQuotes_init hran.batches_eq config outside
  have hlive : LiveQuotes s := tracksLive_keptByRuns.run events (fun _ ↦ hinit) hundisturbed
  exact hlive.live htracked

/-! ### A quote that is filled -/

/-- Symbol 5 is quoted with one share, and nothing else is done. -/
def quotingOne : OrderStrategyConfig :=
  { orderQty := 1, symbols := [5], etfArbEnabled := false, spoofEnabled := false }

/-- The signals are those of a market with an aggressive seller. They ask for a bid at 95, one share
long for a bid at 90, and for no ask. -/
def bidding : Outside Unit where
  monotonic w := (0, w)
  attempts _ := 1
  signals _ _ _ _ position w := (some (Market.sellerAhead.signals quotingOne {} position), w)
  onRawMessage _ _ _ w := w
  onTradeSummary _ _ w := w
  post _ w := (.otherException, w)

/-- Two market data updates of symbol 5 on the books of that market, with these responses to the
first request. -/
def quotingRun (responses : List OeResponse) : OrderStrategy Unit × OrderBookManager :=
  runEvents bidding [.marketDataUpdate, .marketDataUpdate]
    (.init (runCalls []
      (init [] [] 7 (-20000) 10 (some (.connected (Arrival.burst responses))) [])) quotingOne (),
      (OrderBookManager.processNewOrder 2 2 2 5 .sell 10 110 0).after
        ((OrderBookManager.processNewOrder 1 1 1 5 .buy 10 100 0).after .init))

/-- The bid is acknowledged. -/
def bidPlaced : OeResponse := .ack ⟨⟨40, 101, 1, 1, 1, 7⟩, 500000, 901, 1, 95⟩

/-- It is filled, and closed. -/
def bidFilled : OeResponse := .fill ⟨⟨33, 103, 1, 2, 1, 7⟩, 500000, 1, 95, 2⟩

theorem tracked_live_bidPlaced :
    (quotingRun [bidPlaced]).1.state.values.map (fun state ↦ state.quote Side.buy.value) =
        [(some 500000, 95)] ∧
      ∀ symbol side orderId price,
        Tracks (quotingRun [bidPlaced]).1.state symbol side orderId price →
          Live orderId side.value price (quotingRun [bidPlaced]).1.client := by
  have hundisturbed : Undisturbed (quotingRun [bidPlaced]).1 := by decide +kernel
  refine ⟨by decide +kernel, ?_⟩
  unfold quotingRun at hundisturbed ⊢
  exact tracked_live [] [] 7 (-20000) 10 _ [] [] _ () _ _ hundisturbed

/-- **A bid that is filled goes on being tracked**: its fill arrives with the acknowledgement, and
the client closes the order. One share long, the strategy wants its bid less than two ticks lower,
leaves it where it takes it to be, and asks for nothing more. -/
theorem stale_quote_tracked :
    let s := (quotingRun [bidPlaced, bidFilled]).1
    (s.state.get? 5).map (fun state ↦ state.quote Side.buy.value) = some (some 500000, 95) ∧
      s.client.openOrders.get? 500000 = none ∧ s.client.requests.length = 1 ∧
      ¬ ∀ symbol side orderId price, Tracks s.state symbol side orderId price →
        Live orderId side.value price s.client := by
  intro s
  have htracked : (s.state.get? 5).map (fun state ↦ state.quote Side.buy.value) =
      some (some 500000, 95) := by decide +kernel
  have hclosed : s.client.openOrders.get? 500000 = none := by decide +kernel
  refine ⟨htracked, hclosed, by decide +kernel, fun h ↦ ?_⟩
  obtain ⟨state, hstate, hquote⟩ := Option.map_eq_some_iff.1 htracked
  obtain ⟨entry, hentry, -⟩ := h 5 .buy 500000 95 ⟨state, hstate, hquote⟩
  cases hclosed.symm.trans hentry

end HftTrading.Strategy
