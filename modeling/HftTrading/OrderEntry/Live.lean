import HftTrading.OrderEntry.Replies

/-!
# Orders that stay open

An order that is open stays open, on its side and at its price, through every call that does not
modify it, unless a response that closes it is handled on the way (`Remains`). Which responses are
handled can be read off the requests that the call makes: of each list that it collects, those up
to the first that raises (`handledOf`).

The invariant compares the requests of a call with those before it (`Batched`): every list that is
still being handled is one that has been noted since, and the part of it that has been gone through
raises nothing. So a response that has been handled is one that `handledOf` lists, and an order that
has left was closed by one of these. A modify of another order writes an entry, but not this one.
-/

namespace HftTrading.OrderEntry

instance : DecidablePred OeResponse.Harmless
  | .reject _ => inferInstanceAs (Decidable (_ = _))
  | .fill _ => inferInstanceAs (Decidable (_ = true))
  | .loginResponse _ | .ack _ | .closed _ | .error _ | .header _ => .isTrue trivial

instance (orderId : ℤ) : DecidablePred (OeResponse.Closes orderId)
  | .reject _ => inferInstanceAs (Decidable (_ ∧ _))
  | .fill _ => inferInstanceAs (Decidable (_ ∧ _))
  | .closed _ => inferInstanceAs (Decidable (_ = _))
  | .loginResponse _ | .ack _ | .error _ | .header _ => .isFalse id

/-- The responses of a list that get handled. -/
def handledOf (responses : List OeResponse) : List OeResponse :=
  responses.takeWhile fun r ↦ decide r.Harmless

/-- A first response with which `modify_order` leaves the order at the new price: an
acknowledgement, or none that tells it anything while the price is the old one. -/
def OeResponse.Moves (price currentPrice : ℤ) : OeResponse → Prop
  | .ack _ => True
  | .closed _ => False
  | _ => price = currentPrice

instance (price currentPrice : ℤ) : DecidablePred (OeResponse.Moves price currentPrice)
  | .ack _ => .isTrue trivial
  | .closed _ => .isFalse id
  | .loginResponse _ | .reject _ | .fill _ | .error _ | .header _ =>
    inferInstanceAs (Decidable (price = currentPrice))

/-- A response that closes the order has been handled for one of these requests. -/
def ClosedBy (orderId : ℤ) (requests : List Request) : Prop :=
  ∃ q ∈ requests, ∃ r ∈ handledOf q.responses, r.Closes orderId

instance (orderId : ℤ) (requests : List Request) : Decidable (ClosedBy orderId requests) :=
  inferInstanceAs (Decidable (∃ q ∈ requests, ∃ r ∈ handledOf q.responses, r.Closes orderId))

/-- What comes behind responses that raise nothing is handled. -/
theorem mem_handledOf {done rest : List OeResponse} {r : OeResponse}
    (hdone : ∀ r ∈ done, r.Harmless) (hr : r.Harmless) : r ∈ handledOf (done ++ r :: rest) := by
  have hpassed : ∀ r ∈ done, decide r.Harmless = true := fun r hmem ↦ decide_eq_true (hdone r hmem)
  have hhead : handledOf (r :: rest) = r :: handledOf rest :=
    List.takeWhile_cons_of_pos (decide_eq_true hr)
  have hsplit : handledOf (done ++ r :: rest) = done ++ handledOf (r :: rest) :=
    List.takeWhile_append_of_pos hpassed
  rw [hsplit, hhead]
  exact List.mem_append_right _ List.mem_cons_self

namespace OrderEntryClient

/-- The order is open, on this side and at this price. -/
def Live (orderId side price : ℤ) (c : OrderEntryClient) : Prop :=
  ∃ entry, c.openOrders.get? orderId = some entry ∧ entry.side = side ∧ entry.prc = price

/-- The order is open, with this side, quantity and price. -/
def Carries (orderId side quantity price : ℤ) (c : OrderEntryClient) : Prop :=
  ∃ entry, c.openOrders.get? orderId = some entry ∧
    entry.side = side ∧ entry.qty = quantity ∧ entry.prc = price

/-- What waits is the rest of a list that has been collected since, of which the first part has been
handled. -/
structure Batched (before : List Request) (c : OrderEntryClient) : Prop where
  since : before <+: c.requests
  collected : ∀ batch ∈ c.record.batches, ∃ q ∈ c.requests.drop before.length, ∃ done,
    q.responses = done ++ batch ∧ ∀ r ∈ done, r.Harmless

/-- The order has stayed open since, or a response that closes it has been handled. -/
structure Remains (before : List Request) (orderId side price : ℤ) (c : OrderEntryClient) : Prop
    extends Batched before c where
  live : Live orderId side price c ∨ ClosedBy orderId (c.requests.drop before.length)

section

variable {before : List Request} {orderId side price : ℤ} {c c' : OrderEntryClient}
  {r : OeResponse} {batch : List OeResponse} {outer : List (List OeResponse)}

theorem Batched.refl (hbatches : c.record.batches = []) : Batched c.requests c where
  since := List.prefix_rfl
  collected batch hbatch := by
    rw [hbatches] at hbatch
    exact absurd hbatch List.not_mem_nil

namespace Batched

variable (h : Batched before c)

include h

/-- Nothing is collected, and nothing handled. -/
theorem congr (hrequests : c'.requests = c.requests)
    (hbatches : ∀ batch ∈ c'.record.batches, batch ∈ c.record.batches) : Batched before c' where
  since := hrequests ▸ h.since
  collected batch hbatch := by
    rw [hrequests]
    exact h.collected batch (hbatches batch hbatch)

/-- A list is noted before any of it is handled. -/
theorem exchanged {msg : List UInt8} {responses : List OeResponse}
    (hsend : sendAndRecv msg c = .ok responses c') (seqNum : ℕ) (orderId : ℤ) :
    Batched before (c'.note (.replied seqNum orderId msg responses)) := by
  have hreads := reads_sendAndRecv msg c (Reading.refl c)
  rw [hsend] at hreads
  have hrequests : (c'.note (.replied seqNum orderId msg responses)).requests =
      c.requests ++ [⟨seqNum, orderId, msg, responses⟩] := by
    rw [requests_note, hreads.reads.requests_eq]
    rfl
  refine ⟨hrequests ▸ h.since.trans (List.prefix_append _ _), fun batch hbatch ↦ ?_⟩
  rw [hrequests, List.drop_append_of_le_length h.since.length_le]
  replace hbatch : batch ∈ c'.record.batches := hbatch
  rw [hreads.batches_eq] at hbatch
  rcases List.mem_cons.1 hbatch with rfl | hbatch
  · exact ⟨_, List.mem_append_right _ List.mem_cons_self, [], rfl, fun _ hr ↦
      absurd hr List.not_mem_nil⟩
  · obtain ⟨q, hq, hcollected⟩ := h.collected batch hbatch
    exact ⟨q, List.mem_append_left _ hq, hcollected⟩

/-- A response is handled. -/
theorem take (hbatches : c.record.batches = (r :: batch) :: outer) (hr : r.Harmless)
    (hrequests : c'.requests = c.requests) (hrest : c'.record.batches = batch :: outer) :
    Batched before c' where
  since := hrequests ▸ h.since
  collected b hb := by
    rw [hrest] at hb
    rw [hrequests]
    rcases List.mem_cons.1 hb with rfl | hb
    · obtain ⟨q, hq, done, hresponses, hdone⟩ :=
        h.collected (r :: b) (hbatches ▸ List.mem_cons_self)
      refine ⟨q, hq, done ++ [r], ?_, fun r' hr' ↦ ?_⟩
      · rw [hresponses, List.append_assoc, List.singleton_append]
      · rcases List.mem_append.1 hr' with hold | hnew
        · exact hdone r' hold
        · rwa [List.mem_singleton.1 hnew]
    · exact h.collected b (hbatches ▸ List.mem_cons_of_mem _ hb)

/-- The response that is handled next belongs to a list that has been collected. -/
theorem closedBy (hbatches : c.record.batches = (r :: batch) :: outer) (hr : r.Harmless)
    (hcloses : r.Closes orderId) : ClosedBy orderId (c.requests.drop before.length) := by
  obtain ⟨q, hq, done, hresponses, hdone⟩ :=
    h.collected (r :: batch) (hbatches ▸ List.mem_cons_self)
  exact ⟨q, hq, r, hresponses ▸ mem_handledOf hdone hr, hcloses⟩

end Batched

/-- An order that has been closed stays so as more requests follow. -/
theorem ClosedBy.append {requests : List Request} (h : ClosedBy orderId requests)
    (rest : List Request) : ClosedBy orderId (requests ++ rest) := by
  obtain ⟨q, hq, hclosed⟩ := h
  exact ⟨q, List.mem_append_left _ hq, hclosed⟩

/-- Whether an order is open is seen in the map of open orders. -/
theorem Live.congr (h : Live orderId side price c) (horders : c'.openOrders = c.openOrders) :
    Live orderId side price c' := by
  unfold Live
  rw [horders]
  exact h

theorem Live.popOrder {orderId' : ℤ} (h : Live orderId side price c) (hne : orderId ≠ orderId') :
    Live orderId side price (c.popOrder orderId') := by
  obtain ⟨entry, hentry, hcarries⟩ := h
  refine ⟨entry, ?_, hcarries⟩
  rw [(openOrders_popOrder _ _).1, Dict.get?_erase_of_ne _ hne]
  exact hentry

/-- A fill that does not close the order leaves it on its side and at its price. -/
theorem Live.bookFill {m : OrderFill} {entry : OeConfig} {flags : FillFlags}
    (h : Live orderId side price c) (hentry : c.openOrders.get? m.orderId = some entry)
    (hopen : orderId = m.orderId → flags ≠ .closed) :
    Live orderId side price (c.bookFill entry m flags) := by
  obtain ⟨entry', hentry', hcarries⟩ := h
  unfold Live
  rw [openOrders_bookFill]
  by_cases hid : orderId = m.orderId
  · subst hid
    obtain rfl := Option.some.inj (hentry.symm.trans hentry')
    rw [if_neg (hopen rfl), Dict.get?_insert_self]
    exact ⟨_, rfl, hcarries⟩
  · refine ⟨entry', ?_, hcarries⟩
    split
    · rwa [Dict.get?_erase_of_ne _ hid]
    · rwa [Dict.get?_insert_of_ne _ _ hid]

/-- Placing or modifying another order. -/
theorem Live.placeEntry {orderId' : ℤ} (h : Live orderId side price c)
    (hnew : c.openOrders.get? orderId' = none) (entry : OeConfig) :
    Live orderId side price (c.placeEntry orderId' entry) := by
  obtain ⟨entry', hentry', hcarries⟩ := h
  refine ⟨entry', ?_, hcarries⟩
  have hne : orderId ≠ orderId' := by
    rintro rfl
    cases hnew.symm.trans hentry'
  exact (Dict.get?_insert_of_ne _ _ hne).trans hentry'

theorem Live.settleModify {orderId' side' quantity price' : ℤ} {first : OeResponse}
    (h : Live orderId side price c) (hne : orderId ≠ orderId') :
    Live orderId side price (c.settleModify orderId' side' quantity price' first) := by
  unfold OrderEntryClient.settleModify
  cases first with
  | ack m =>
    obtain ⟨entry, hentry, hcarries⟩ := h
    dsimp only
    unfold rewriteEntry
    rcases c.openOrders.get? orderId' with - | before
    · exact ⟨entry, hentry, hcarries⟩
    · exact ⟨entry, (Dict.get?_insert_of_ne _ _ hne).trans hentry, hcarries⟩
  | closed m => exact h.popOrder hne
  | reject m =>
    dsimp only
    split
    · exact h.popOrder hne
    · exact h
  | _ => exact h

/-! ### Calls -/

/-- **Every request accounts for what it handles.** -/
theorem batched_kept : KeptByRequests (fun _ ↦ True) (Batched before) where
  header hc := hc.congr rfl fun _ hb ↦ hb
  exchanged seqNum orderId _ hsend hc := hc.exchanged hsend seqNum orderId
  broken {c _ msg _} _ hsend hc := by
    have hreads := reads_sendAndRecv msg c (Reading.refl c)
    rw [hsend] at hreads
    exact hc.congr hreads.reads.requests_eq fun _ hb ↦ hreads.batches_eq ▸ hb
  passed hbatches hr _ hc := hc.take hbatches hr rfl (take_batches hbatches)
  popped {c} _ _ _ orderId hbatches hr _ hc :=
    hc.take hbatches hr ((untouched_popOrder orderId (c.onRecord Record.take)).requests)
      ((batches_popOrder _ _).trans (take_batches hbatches))
  booked hbatches hflags _ hc := hc.take hbatches (Option.isSome_iff_exists.2 ⟨_, hflags⟩)
    (untouched_bookFill _ _ _ _).requests ((batches_bookFill _ _ _ _).trans (take_batches hbatches))
  finished _ hc := hc.congr rfl fun _ hb ↦ List.mem_of_mem_tail hb
  abandoned _ hc := hc.congr (requests_note_of_none rfl _) fun _ hb ↦ List.mem_of_mem_tail hb

/-- **An open order remains** through the steps of a request. -/
theorem remains_kept : KeptByRequests (fun _ ↦ True) (Remains before orderId side price) where
  header hc := ⟨batched_kept.header hc.toBatched, hc.live⟩
  exchanged {c c' msg responses} seqNum orderId' hmsg hsend hc := by
    refine ⟨batched_kept.exchanged seqNum orderId' hmsg hsend hc.toBatched, ?_⟩
    have hreads := reads_of_ok hsend
    refine hc.live.imp (fun h ↦ h.congr hreads.openOrders_eq.1) fun h ↦ ?_
    rw [requests_note, hreads.requests_eq, List.drop_append_of_le_length hc.since.length_le]
    exact ClosedBy.append h _
  broken hmsg hsend hc := by
    refine ⟨batched_kept.broken hmsg hsend hc.toBatched, ?_⟩
    have hreads := reads_of_error hsend
    rw [hreads.requests_eq]
    exact hc.live.imp_left fun h ↦ h.congr hreads.openOrders_eq.1
  passed hbatches hr hnone hc := ⟨batched_kept.passed hbatches hr hnone hc.toBatched, hc.live⟩
  popped {c r batch outer orderId'} hbatches hr hcloses hc := by
    refine ⟨batched_kept.popped hbatches hr hcloses hc.toBatched, ?_⟩
    rw [(untouched_popOrder orderId' (c.onRecord Record.take)).requests]
    by_cases hid : orderId = orderId'
    · exact Or.inr (hc.closedBy hbatches hr (hid ▸ hcloses))
    · exact hc.live.imp_left fun h ↦ Live.popOrder h hid
  booked {c m batch outer entry flags} hbatches hflags hentry hc := by
    refine ⟨batched_kept.booked hbatches hflags hentry hc.toBatched, ?_⟩
    rw [(untouched_bookFill entry m flags c).requests]
    by_cases hclosed : orderId = m.orderId ∧ flags = .closed
    · exact Or.inr (hc.closedBy hbatches (Option.isSome_iff_exists.2 ⟨_, hflags⟩)
        ⟨hclosed.2 ▸ hflags, hclosed.1.symm⟩)
    · exact hc.live.imp_left fun h ↦ h.bookFill hentry fun hid hflag ↦ hclosed ⟨hid, hflag⟩
  finished hbatches hc := ⟨batched_kept.finished hbatches hc.toBatched, hc.live⟩
  abandoned {c batch outer} hbatches hc := by
    refine ⟨batched_kept.abandoned hbatches hc.toBatched, ?_⟩
    show _ ∨ ClosedBy orderId ((c.note (.lost c.record.batch)).requests.drop _)
    rw [requests_note_of_none rfl]
    exact hc.live

/-- Nothing has happened yet. -/
theorem Remains.refl (h : Live orderId side price c) (hbatches : c.record.batches = []) :
    Remains c.requests orderId side price c := ⟨.refl hbatches, Or.inl h⟩

/-- Through a cancel, of this order or another one. -/
theorem remains_deleteOrder (h : Live orderId side price c) (hbatches : c.record.batches = [])
    (orderId' : ℤ) : Remains c.requests orderId side price ((deleteOrder orderId').after c) :=
  remains_kept.deleteOrder (fun _ _ ↦ trivial) orderId' c (.refl h hbatches)

theorem remains_newOrder (h : Live orderId side price c) (hbatches : c.record.batches = [])
    (now : ℚ) (orderId' symbol side' quantity price' flags : ℤ) :
    Remains c.requests orderId side price
      ((newOrder now orderId' symbol side' quantity price' flags).after c) := by
  refine (KeptByRequests.newOrder (I := Remains c.requests orderId side price) _ remains_kept.header
    (fun _ hc ↦ ⟨hc.toBatched.congr rfl fun _ hb ↦ hb, hc.live⟩) (fun {t} hnew hc ↦ ?_) remains_kept
    (fun _ _ ↦ trivial) (fun _ _ _ ↦ trivial) now (.refl h hbatches)).elim id id
  have hrequests := requests_placeEntry orderId' ⟨symbol, side', quantity, price', 0⟩ t
  refine ⟨hc.toBatched.congr hrequests fun _ hb ↦ hb, ?_⟩
  rw [hrequests]
  exact hc.live.imp_left fun h ↦ h.placeEntry hnew _

/-- **An order that is accepted** was not open before, and remains. -/
theorem remains_of_accepted (hbatches : c.record.batches = []) {now : ℚ}
    {symbol quantity flags : ℤ} {responses : List OeResponse}
    (hrun : newOrder now orderId symbol side quantity price flags c = .ok responses c')
    {first : OeResponse} (hfirst : responses.head? = some first)
    (haccepted : isReject first = false) :
    c.openOrders.get? orderId = none ∧ Remains c.requests orderId side price c' := by
  have hnew : c.openOrders.get? orderId = none := by
    by_contra hopen
    rw [← Dict.contains_eq_false_iff, Bool.not_eq_false] at hopen
    unfold newOrder at hrun
    rw [Method.bind_ok (Method.get_apply c), if_pos hopen] at hrun
    cases hrun
    cases hfirst
    cases haccepted
  have hplace : ∀ {t : OrderEntryClient}, t.openOrders.get? orderId = none →
      Batched c.requests t → Remains c.requests orderId side price
        (t.placeEntry orderId ⟨symbol, side, quantity, price, 0⟩) := fun {t} _ ht ↦
    ⟨ht.congr (requests_placeEntry _ _ t) fun _ hb ↦ hb,
      Or.inl ⟨_, Dict.get?_insert_self _ _ _, rfl, rfl⟩⟩
  have hended := triple_newOrder (I := Batched c.requests) flags batched_kept.header
    (fun _ hc ↦ hc.congr rfl fun _ hb ↦ hb) hplace remains_kept (fun _ _ ↦ trivial)
    (fun _ _ _ ↦ trivial) now c ⟨Batched.refl hbatches, rfl⟩
  rw [hrun] at hended
  rcases hended.1 with ⟨-, r, rfl, hreject⟩ | hremains
  · cases hfirst
    rw [haccepted] at hreject
    cases hreject
  · exact ⟨hnew, hremains⟩

section

variable {quantity : ℤ} {responses : List OeResponse} {first : OeResponse}

/-- **A modification** leaves the other orders as they are. -/
theorem remains_modifyOrder (h : Live orderId side price c) (hbatches : c.record.batches = [])
    {orderId' : ℤ} (hne : orderId ≠ orderId') (side' quantity price' : ℤ) :
    Live orderId side price ((modifyOrder orderId' side' quantity price').after c) ∨
      ClosedBy orderId (((modifyOrder orderId' side' quantity price').after c).requests.drop
        c.requests.length) := by
  have hkept : Method.Triple (With (Remains c.requests orderId side price) [])
      (modifyOrder orderId' side' quantity price')
      (fun _ t ↦ Live orderId side price t ∨ ClosedBy orderId (t.requests.drop c.requests.length))
      fun t ↦ Live orderId side price t ∨ ClosedBy orderId (t.requests.drop c.requests.length) := by
    refine (remains_kept.modifyOrder (fun _ _ ↦ trivial) _ _ _ _ fun _ _ _ ↦ trivial).weaken
      (fun _ ht ↦ ht)
      (fun _ t ht ↦ ?_) fun _ ht ↦ ht.1.live
    rcases ht with ⟨ht, -⟩ | ⟨t₁, first, ht, -, rfl⟩
    · exact ht.1.live
    · rw [(untouched_settleModify orderId' side' quantity price' first t₁).requests]
      exact ht.1.live.imp_left fun h ↦ h.settleModify hne
  exact Method.triple_iff_after.1 hkept c ⟨.refl h hbatches, hbatches⟩

/-- The entry of an open order is rewritten. -/
theorem carries_rewriteEntry {side' price' : ℤ} (h : Live orderId side' price' c)
    (side quantity price : ℤ) :
    Carries orderId side quantity price (c.rewriteEntry orderId side quantity price) := by
  obtain ⟨entry, hentry, -⟩ := h
  unfold rewriteEntry
  rw [hentry]
  exact ⟨_, Dict.get?_insert_self _ _ _, rfl, rfl, rfl⟩

/-- An order that carries given values is open with them. -/
theorem Carries.live (h : Carries orderId side quantity price c) : Live orderId side price c := by
  obtain ⟨entry, hentry, hside, -, hprice⟩ := h
  exact ⟨entry, hentry, hside, hprice⟩

/-- **An acknowledged modification** is in the entry, unless a response that closes the order has
been handled. -/
theorem carries_of_acked (hbatches : c.record.batches = []) {m : OrderAck}
    (hrun : modifyOrder orderId side quantity price c = .ok responses c')
    (hfirst : responses.head? = some (.ack m)) :
    Carries orderId side quantity price c' ∨
      ClosedBy orderId (c'.requests.drop c.requests.length) := by
  rcases hopen : c.openOrders.get? orderId with - | entry
  -- an order that is not open is rejected locally
  · have hnone : ¬ c.openOrders.contains orderId = true := by
      rw [Bool.not_eq_true, Dict.contains_eq_false_iff]
      exact hopen
    unfold modifyOrder at hrun
    rw [Method.bind_ok (Method.get_apply c), if_neg hnone] at hrun
    cases hrun
    cases hfirst
  · have hlive : Live orderId entry.side entry.prc c := ⟨entry, hopen, rfl, rfl⟩
    have hended := remains_kept.modifyOrder (fun _ _ ↦ trivial) orderId side quantity price
      (fun _ _ _ ↦ trivial) c
      (⟨.refl hlive hbatches, rfl⟩ : With (Remains c.requests orderId _ _) c.record.batches c)
    rw [hrun] at hended
    rcases hended with ⟨-, hreject⟩ | ⟨t, first, ⟨ht, -⟩, hhead, rfl⟩
    · cases hreject _ hfirst
    obtain rfl := Option.some.inj (hfirst.symm.trans hhead)
    rw [(untouched_settleModify orderId side quantity price _ t).requests]
    exact ht.live.imp_left fun hlive ↦ carries_rewriteEntry hlive side quantity price

/-- A modification that raises has not looked at its first response. -/
theorem remains_of_raised (h : Live orderId side price c) (hbatches : c.record.batches = [])
    {orderId' side' quantity price' : ℤ} {e : OeError}
    (hrun : modifyOrder orderId' side' quantity price' c = .error e c') :
    Remains c.requests orderId side price c' := by
  have hstart : With (Remains c.requests orderId side price) c.record.batches c :=
    ⟨.refl h hbatches, rfl⟩
  have hended := remains_kept.modifyOrder (fun _ _ ↦ trivial) orderId' side' quantity price'
    (fun _ _ _ ↦ trivial) c hstart
  rw [hrun] at hended
  exact hended.1

/-- **A modification that is accepted** by a first response that moves the order. -/
theorem live_of_moved {currentPrice : ℤ} (h : Live orderId side currentPrice c)
    (hbatches : c.record.batches = [])
    (hrun : modifyOrder orderId side quantity price c = .ok responses c')
    (hfirst : responses.head? = some first) (haccepted : isReject first = false)
    (hmoves : first.Moves price currentPrice) :
    Live orderId side price c' ∨ ClosedBy orderId (c'.requests.drop c.requests.length) := by
  have hstart : With (Remains c.requests orderId side currentPrice) c.record.batches c :=
    ⟨.refl h hbatches, rfl⟩
  have hended := remains_kept.modifyOrder (fun _ _ ↦ trivial) orderId side quantity price
    (fun _ _ _ ↦ trivial) c hstart
  rw [hrun] at hended
  rcases hended with ⟨-, hreject⟩ | ⟨t, first', ⟨ht, -⟩, hhead, rfl⟩
  · rw [hreject first hfirst] at haccepted
    cases haccepted
  obtain rfl := Option.some.inj (hfirst.symm.trans hhead)
  rw [(untouched_settleModify orderId side quantity price first t).requests]
  refine ht.live.imp_left fun hlive ↦ ?_
  cases first with
  | ack m => exact (carries_rewriteEntry hlive side quantity price).live
  | closed m => exact hmoves.elim
  | reject m => cases haccepted
  | error m => cases haccepted
  | _ =>
    obtain rfl : price = currentPrice := hmoves
    exact hlive

end

end

end OrderEntryClient

end HftTrading.OrderEntry
