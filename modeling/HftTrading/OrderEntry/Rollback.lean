import HftTrading.OrderEntry.Lowered

/-!
# Orders that the exchange does not accept

`new_order` writes the order's entry before it sends the request. The entry is taken back in the
handling of the responses, or never. A reject that says the order id is unknown takes out the order
it names, and so does a close; a reject with any other reason makes `_process_responses` raise with
the entry still in place, and an error is only logged.

What a call leaves behind is therefore a matter of the list of responses it has collected, the reply
among them or not (`TakenBack`): up to the first response that makes the call raise, one has to take
the order out, and none may touch anything else, a fill of an open order or the close of another
order of which something is left. **An order that is not accepted leaves no trace exactly then**
(`leavesNoTrace_iff`):

* the condition is enough in every state of the client, since nothing is booked on the way and so no
  limit is looked at (`takenBack_all`);
* without it the order stays open, or an exposure has been lowered for good. A fill moves quantity
  into the position and takes as much from what is outstanding, so that it lowers the exposure of
  the other side, and nothing that happens later raises an exposure again, however deep the kill
  switch nests (`Lowered`, `lowered_of_not_takenBack`). This rests on fills that fit their orders.

When the reject or the error is the first response, it is the only one (`exchange_eq_singleton`),
and no trace is left exactly when it is a reject as an unknown order id, whatever the state.
-/

namespace HftTrading.OrderEntry

open ExposureTracker
open OrderEntryClient (filledBy)

namespace OrderEntryClient

/-! ### What is collected -/

section

variable {c c' : OrderEntryClient}

/-- The drain adds behind what has been collected. -/
theorem triple_drain_extends (iterations : ℕ) (responses : List OeResponse) :
    Method.Triple (fun _ ↦ True) (drain iterations responses)
      (fun responses' _ ↦ responses <+: responses') fun _ ↦ True := by
  induction iterations generalizing responses with
  | zero => exact Method.triple_pure _ fun _ _ ↦ List.prefix_rfl
  | succ iterations ih =>
    rw [drain]
    refine Method.Triple.bind (Method.triple_trivial _) ?_
    rintro (- | response)
    · exact Method.triple_pure _ fun _ _ ↦ List.prefix_rfl
    · exact (ih (responses ++ [response])).weaken (fun _ h ↦ h)
        (fun _ _ h ↦ (List.prefix_append _ _).trans h) fun _ h ↦ h

/-- A list that begins with a reject or an error holds nothing else. -/
theorem triple_collectResponses :
    Method.Triple (fun _ ↦ True) collectResponses
      (fun responses _ ↦ ∀ r, responses.head? = some r → isReject r = true → responses = [r])
      fun _ ↦ True := by
  refine Method.Triple.bind (Method.triple_trivial _) fun first ↦ ?_
  rcases hfirst : isReject first with - | -
  · rw [if_neg Bool.false_ne_true]
    refine Method.Triple.bind (R := fun _ _ ↦ True) (Method.triple_modify fun _ _ ↦ trivial)
      fun _ ↦ Method.triple_get fun c _ ↦ ?_
    refine ((triple_drain_extends _ [first]).weaken (fun _ _ ↦ trivial) (fun _ _ h ↦ h)
      fun _ h ↦ h).onExit (fun responses _ hprefix r hr hreject ↦ ?_) fun _ h ↦ h
    -- the drained list begins with the first response, which is neither
    obtain ⟨rest, rfl⟩ := hprefix
    cases hr
    rw [hfirst] at hreject
    cases hreject
  · rw [if_pos rfl]
    refine Method.triple_pure _ fun _ _ r hr _ ↦ ?_
    cases hr
    rfl

/-- A first response that is a reject or an error ends the collecting. -/
theorem exchange_eq_singleton {seqNum : ℕ} {orderId : ℤ} {msg : List UInt8}
    {responses : List OeResponse} {r : OeResponse}
    (h : exchange seqNum orderId msg c = .ok responses c') (hhead : responses.head? = some r)
    (hreject : isReject r = true) : responses = [r] := by
  have hcollect : Method.Triple (fun _ ↦ True) (exchange seqNum orderId msg)
      (fun responses _ ↦ ∀ r, responses.head? = some r → isReject r = true → responses = [r])
      fun _ ↦ True := by
    refine Method.Triple.bind ?_ fun responses ↦ Method.Triple.bind
      (Method.triple_modify fun _ h ↦ h) fun _ ↦ Method.triple_pure _ fun _ h ↦ h
    refine Method.Triple.bind (Method.triple_trivial _) fun _ ↦ Method.Triple.bind
      (R := fun _ _ ↦ True) (Method.triple_modify fun _ _ ↦ trivial) fun _ ↦ ?_
    exact triple_collectResponses.onExit (fun _ _ h ↦ h) fun _ h ↦ h
  have hrun := hcollect c trivial
  rw [h] at hrun
  exact hrun r hhead hreject

/-- An exchange that returns leaves orders and positions. -/
theorem openOrders_of_exchange {seqNum : ℕ} {orderId : ℤ} {msg : List UInt8}
    {responses : List OeResponse} (h : exchange seqNum orderId msg c = .ok responses c') :
    c'.openOrders = c.openOrders ∧ c'.positionTracker = c.positionTracker := by
  obtain ⟨responses', t, hsend, hnote⟩ := Method.bind_eq_ok_iff.1 h
  cases hnote
  exact (reads_of_ok hsend).openOrders_eq

/-- So does one that raises, as to the orders. -/
theorem openOrders_of_exchange_error {seqNum : ℕ} {orderId : ℤ} {msg : List UInt8} {e : OeError}
    (h : exchange seqNum orderId msg c = .error e c') : c'.openOrders = c.openOrders := by
  unfold exchange at h
  rcases hsend : sendAndRecv msg c with ⟨responses, t⟩ | ⟨e', t⟩
  · rw [Method.bind_ok hsend] at h
    cases h
  · rw [Method.bind_error hsend] at h
    cases h
    exact (reads_of_error hsend).openOrders_eq.1

/-- What has been collected waits to be handled. -/
theorem batches_of_exchange {seqNum : ℕ} {orderId : ℤ} {msg : List UInt8}
    {responses : List OeResponse} (h : exchange seqNum orderId msg c = .ok responses c') :
    c'.record.batches = responses :: c.record.batches := by
  obtain ⟨responses', t, hsend, hnote⟩ := Method.bind_eq_ok_iff.1 h
  cases hnote
  have hreads := reads_sendAndRecv msg c (Reading.refl c)
  rw [hsend] at hreads
  exact hreads.batches_eq

/-- An exchange takes nothing from the record. -/
theorem since_of_exchange {seqNum : ℕ} {orderId : ℤ} {msg : List UInt8}
    {responses : List OeResponse} (h : exchange seqNum orderId msg c = .ok responses c') :
    c.record.trace <+: c'.record.trace := by
  obtain ⟨responses', t, hsend, hnote⟩ := Method.bind_eq_ok_iff.1 h
  cases hnote
  have hmeanwhile : Meanwhile (fun _ ↦ True) (fun _ _ ↦ True) c c := .refl trivial
  exact (hmeanwhile.reads (reads_of_ok hsend)).since.trans (List.prefix_append _ _)

end

/-! ### What the responses take out -/

end OrderEntryClient

/-- The order that a response takes out when it is handled, unless it is a fill. -/
def OeResponse.takesOut? : OeResponse → Option ℤ
  | .reject m =>
    if RejectReason.ofValue? m.rejectReason = some .unknownOrderId then some m.orderId else none
  | .closed m => some m.orderId
  | _ => none

/-- A fill of an order that is open. -/
def OeResponse.Fills (openOrders : Dict ℤ OeConfig) : OeResponse → Prop
  | .fill m => openOrders.contains m.orderId = true
  | _ => False

/-- The orders that are open when a response has been handled that does not fill one of them. -/
def OeResponse.leaves (openOrders : Dict ℤ OeConfig) (r : OeResponse) : Dict ℤ OeConfig :=
  match r.takesOut? with
  | none => openOrders
  | some orderId => openOrders.erase orderId

/-- **The responses take an order back**, and touch nothing else: up to the first that cannot be
handled, the order is taken out, no order is filled that is open by then, and no other order is
taken out of which something is left. -/
def TakenBack (orderId : ℤ) : Dict ℤ OeConfig → List OeResponse → Prop
  | openOrders, [] => openOrders.get? orderId = none
  | openOrders, r :: rest =>
    (¬ r.Harmless ∧ openOrders.get? orderId = none) ∨
      (r.Harmless ∧ ¬ r.Fills openOrders ∧
        (∀ orderId' entry, r.takesOut? = some orderId' → orderId' ≠ orderId →
          openOrders.get? orderId' = some entry → entry.filled = entry.qty) ∧
        TakenBack orderId (r.leaves openOrders) rest)

/-- What a response takes out of the map. -/
theorem Apart.leaves {orderId : ℤ} {own : Side} {base : ℤ → Side → ℤ}
    {openOrders : Dict ℤ OeConfig} {positionTracker : PositionTracker}
    (h : Apart orderId own base openOrders positionTracker) (r : OeResponse) :
    Apart orderId own base (r.leaves openOrders) positionTracker := by
  unfold OeResponse.leaves
  rcases r.takesOut? with - | orderId'
  · exact h
  · exact h.erase orderId'

namespace OrderEntryClient

section

variable {orderId : ℤ} {c c' : OrderEntryClient} {r : OeResponse} {responses : List OeResponse}
  {batch : List OeResponse} {outer : List (List OeResponse)}

/-- A response that is not harmless is raised, with nothing changed. -/
theorem handleResponse_of_not_harmless (checkLimits : ℤ → ClientM Unit) (h : ¬ r.Harmless)
    (c : OrderEntryClient) : ∃ e, handleResponse checkLimits r c = .error e c := by
  cases r with
  | reject m =>
    unfold handleResponse
    dsimp only
    rcases hreason : RejectReason.ofValue? m.rejectReason with - | reason
    · exact ⟨_, rfl⟩
    · dsimp only
      rw [if_neg fun heq ↦ h (hreason.trans (congrArg some heq))]
      exact ⟨_, rfl⟩
  | fill m =>
    unfold handleResponse
    dsimp only
    rcases hflags : FillFlags.ofValue? m.flags with - | flags
    · exact ⟨_, rfl⟩
    · exact absurd (Option.isSome_iff_exists.2 ⟨flags, hflags⟩) h
  | _ => exact absurd trivial h

/-- A response that fills no open order takes out at most one, and books nothing. -/
theorem handleResponse_of_not_fills (checkLimits : ℤ → ClientM Unit) (h : r.Harmless)
    (hfills : ¬ r.Fills c.openOrders) :
    ∃ c', handleResponse checkLimits r c = .ok () c' ∧
      c'.openOrders = r.leaves c.openOrders ∧ c'.positionTracker = c.positionTracker ∧
      c.record.trace <+: c'.record.trace ∧ c'.record.batches = c.record.take.batches := by
  have hpop (orderId : ℤ) : c.record.trace <+:
      ((c.onRecord Record.take).popOrder orderId).record.trace := by
    unfold popOrder
    split
    · exact List.prefix_append _ _
    · exact List.prefix_rfl
  cases r with
  | reject m =>
    replace h : RejectReason.ofValue? m.rejectReason = some .unknownOrderId := h
    obtain ⟨hopen, hposition⟩ := openOrders_popOrder m.orderId (c.onRecord Record.take)
    refine ⟨(c.onRecord Record.take).popOrder m.orderId, ?_, ?_, hposition, hpop m.orderId,
      batches_popOrder _ _⟩
    · unfold handleResponse
      simp only [h, if_true]
      rfl
    · unfold OeResponse.leaves OeResponse.takesOut?
      simp only [h, if_true]
      exact hopen
  | fill m =>
    obtain ⟨flags, hflags⟩ := Option.isSome_iff_exists.1 h
    have hnone : c.openOrders.get? m.orderId = none := by
      rcases hget : c.openOrders.get? m.orderId with - | entry
      · rfl
      · exact absurd (Dict.contains_eq_true_iff.2 ⟨entry, hget⟩) hfills
    refine ⟨c.onRecord Record.take, ?_, rfl, rfl, List.prefix_rfl, rfl⟩
    unfold handleResponse
    simp only [hflags]
    rw [Method.bind_ok (Method.get_apply c), hnone]
    rfl
  | closed m =>
    obtain ⟨hopen, hposition⟩ := openOrders_popOrder m.orderId (c.onRecord Record.take)
    exact ⟨(c.onRecord Record.take).popOrder m.orderId, rfl, hopen, hposition, hpop m.orderId,
      batches_popOrder _ _⟩
  | _ => exact ⟨c.onRecord Record.take, rfl, rfl, rfl, List.prefix_rfl, rfl⟩

/-- What is left without the order, when nothing of the others is taken. -/
theorem apart_leaves (positionTracker : PositionTracker) {openOrders : Dict ℤ OeConfig}
    (h : ∀ orderId' entry, r.takesOut? = some orderId' → orderId' ≠ orderId →
      openOrders.get? orderId' = some entry → entry.filled = entry.qty) (symbol : ℤ) (side : Side) :
    apart orderId (r.leaves openOrders) positionTracker symbol side =
      apart orderId openOrders positionTracker symbol side := by
  unfold OeResponse.leaves
  rcases hout : r.takesOut? with - | orderId'
  · rfl
  by_cases hown : orderId' = orderId
  · rw [hown]
    exact apart_erase_self orderId openOrders positionTracker symbol side
  rcases hget : openOrders.get? orderId' with - | entry
  · exact congrArg (fun d ↦ apart orderId d positionTracker symbol side) (Dict.erase_eq_self hget)
  · have hfilled := h orderId' entry hout hown hget
    have hleft : left symbol side entry = 0 := by
      unfold left
      rw [hfilled, sub_self, ite_self]
    exact (apart_erase positionTracker hget hown symbol side).trans (by rw [hleft, sub_zero])

/-- **Enough to leave no trace**, in every state: nothing is booked on the way. -/
theorem takenBack_all (h : TakenBack orderId c.openOrders responses) :
    let after := (Method.all (responses.map (handleResponse checkLimits))).after c
    after.openOrders.get? orderId = none ∧
      ∀ symbol side, apart orderId after.openOrders after.positionTracker symbol side =
        apart orderId c.openOrders c.positionTracker symbol side := by
  induction responses generalizing c with
  | nil => exact ⟨h, fun _ _ ↦ rfl⟩
  | cons r rest ih =>
    rcases h with ⟨hraises, hnone⟩ | ⟨hharmless, hfills, hfinished, hrest⟩
    · obtain ⟨e, hrun⟩ := handleResponse_of_not_harmless checkLimits hraises c
      rw [List.map_cons, Method.after_all_cons_of_error hrun]
      exact ⟨hnone, fun _ _ ↦ rfl⟩
    · obtain ⟨c', hrun, hopen, hposition, -, -⟩ :=
        handleResponse_of_not_fills checkLimits hharmless hfills
      obtain ⟨hnone, hapart⟩ := ih (c := c') (hopen ▸ hrest)
      rw [List.map_cons, Method.after_all_cons_of_ok hrun]
      refine ⟨hnone, fun symbol side ↦ ?_⟩
      rw [hapart, hopen, hposition]
      exact apart_leaves c.positionTracker hfinished symbol side

/-! ### What cannot be made good -/

variable {own : Side} {base : ℤ → Side → ℤ}

/-- Handling the rest of the responses raises no exposure again, nor do the cancels that it sets
off. -/
theorem keeps_lowered_all (c₀ : OrderEntryClient) (responses : List OeResponse)
    (outer : List (List OeResponse)) :
    Method.Triple (With (Meanwhile Note.Fits (Lowered orderId own base) c₀) (responses :: outer))
      (Method.all (responses.map (handleResponse checkLimits)))
      (fun _ ↦ Meanwhile Note.Fits (Lowered orderId own base) c₀)
      (Meanwhile Note.Fits (Lowered orderId own base) c₀) := by
  have hkept := keptByRequests_lowered orderId own base c₀
  exact (hkept.handleAll (hkept.checkLimits fun _ _ ↦ trivial) responses).weaken (fun _ hc ↦ hc)
    (fun _ _ hc ↦ hc.1) fun _ hc ↦ hc.choose_spec.1

/-- What has been lowered before the rest of the responses is handled. -/
theorem lowered_all (hbatches : c.record.batches = responses :: outer)
    (hlowered : Lowered orderId own base c.openOrders c.positionTracker)
    (hfits : ∀ n ∈ notedSince c ((Method.all (responses.map (handleResponse checkLimits))).after c),
      n.Fits) :
    let after := (Method.all (responses.map (handleResponse checkLimits))).after c
    Lowered orderId own base after.openOrders after.positionTracker :=
  (Method.triple_iff_after.1 (keeps_lowered_all c responses outer) c
    ⟨.refl hlowered, hbatches⟩).holds hfits

/-- **A fill of an open order** lowers an exposure as it is booked, unless it does not fit. -/
theorem lowered_bookFill {m : OrderFill} {entry : OeConfig} {flags : FillFlags}
    (hbatches : c.record.batches = (.fill m :: responses) :: outer)
    (hapart : Apart orderId own base c.openOrders c.positionTracker)
    (hbase : ∀ symbol side,
      apart orderId c.openOrders c.positionTracker symbol side = base symbol side)
    (hquantity : 0 < m.quantity) (hentry : c.openOrders.get? m.orderId = some entry) :
    With (Meanwhile Note.Fits (Lowered orderId own base) c) (responses :: outer)
      (c.bookFill entry m flags) := by
  refine ⟨?_, (batches_bookFill ..).trans (take_batches hbatches)⟩
  unfold bookFill
  rw [bookTrackers_eq]
  refine ⟨List.prefix_append _ _, rfl, fun hnoted ↦ ?_⟩
  rw [notedSince_note (by exact List.prefix_rfl), List.forall_mem_append,
    List.forall_mem_singleton] at hnoted
  have hfilled := hapart.lowered_of_fill (fun symbol side _ ↦ le_of_eq (hbase symbol side))
    hentry hnoted.2 hquantity (getPosition_bookTrackers entry m (c.onRecord Record.take))
  show Lowered orderId own base (if flags = .closed then c.openOrders.erase m.orderId
    else c.openOrders.insert m.orderId (filledBy m entry)) _
  split
  -- the last fill of an order: as if it were booked and the order then removed
  · have herased := hfilled.erase m.orderId
    rwa [Dict.erase_insert_self] at herased
  · exact hfilled

/-- A fill of an open order, and what is handled behind it. -/
theorem lowered_all_fill {m : OrderFill} {entry : OeConfig} {flags : FillFlags}
    (hbatches : c.record.batches = (.fill m :: responses) :: outer)
    (hapart : Apart orderId own base c.openOrders c.positionTracker)
    (hbase : ∀ symbol side,
      apart orderId c.openOrders c.positionTracker symbol side = base symbol side)
    (hquantity : 0 < m.quantity) (hflags : FillFlags.ofValue? m.flags = some flags)
    (hentry : c.openOrders.get? m.orderId = some entry)
    (hfits : ∀ n ∈ notedSince c
      ((Method.all ((.fill m :: responses).map (handleResponse checkLimits))).after c), n.Fits) :
    let after := (Method.all ((.fill m :: responses).map (handleResponse checkLimits))).after c
    Lowered orderId own base after.openOrders after.positionTracker := by
  have hrun : handleResponse checkLimits (.fill m) c =
      checkLimits entry.symbol (c.bookFill entry m flags) := by
    unfold handleResponse
    simp only [hflags]
    rw [Method.bind_ok (Method.get_apply c), hentry]
    rfl
  have hafter : (Method.all ((.fill m :: responses).map (handleResponse checkLimits))).after c =
      (checkLimits entry.symbol >>= fun _ ↦
        Method.all (responses.map (handleResponse checkLimits))).after
          (c.bookFill entry m flags) := by
    unfold Method.after
    rw [List.map_cons, Method.all, Method.bind_apply, hrun, ← Method.bind_apply]
  have hcheck := (keptByRequests_lowered orderId own base c).checkLimits fun _ _ ↦ trivial
  have hrest := Method.Triple.bind ((Method.keeps_iff_triple.1
    (hcheck (responses :: outer) entry.symbol)).weaken (fun _ hc ↦ hc) (fun _ _ hc ↦ hc)
      fun _ hc ↦ hc.1) fun _ ↦ keeps_lowered_all c responses outer
  rw [hafter] at hfits ⊢
  exact (Method.triple_iff_after.1 hrest _
    (lowered_bookFill hbatches hapart hbase hquantity hentry)).holds hfits

/-- **Without the condition** the order is still open, or an exposure has been lowered for good. -/
theorem lowered_of_not_takenBack (hbatches : c.record.batches = responses :: outer)
    (hapart : Apart orderId own base c.openOrders c.positionTracker)
    (hbase : ∀ symbol side,
      apart orderId c.openOrders c.positionTracker symbol side = base symbol side)
    (hquantity : ∀ m, .fill m ∈ responses → 0 < m.quantity)
    (hfits : ∀ n ∈ notedSince c ((Method.all (responses.map (handleResponse checkLimits))).after c),
      n.Fits)
    (h : ¬ TakenBack orderId c.openOrders responses) :
    let after := (Method.all (responses.map (handleResponse checkLimits))).after c
    after.openOrders.get? orderId ≠ none ∨
      Lowered orderId own base after.openOrders after.positionTracker := by
  induction responses generalizing c with
  | nil => exact Or.inl h
  | cons r rest ih =>
    by_cases hharmless : r.Harmless
    -- it raises, and nothing behind it is handled
    swap
    · obtain ⟨e, hrun⟩ := handleResponse_of_not_harmless checkLimits hharmless c
      rw [List.map_cons, Method.after_all_cons_of_error hrun]
      exact Or.inl fun hnone ↦ h (Or.inl ⟨hharmless, hnone⟩)
    by_cases hfills : r.Fills c.openOrders
    · cases r with
      | fill m =>
        obtain ⟨flags, hflags⟩ := Option.isSome_iff_exists.1 hharmless
        obtain ⟨entry, hentry⟩ := Dict.contains_eq_true_iff.1 hfills
        exact Or.inr (lowered_all_fill hbatches hapart hbase
          (hquantity m List.mem_cons_self) hflags hentry hfits)
      | _ => exact hfills.elim
    obtain ⟨c', hrun, hopen, hposition, hsince, hbatches'⟩ :=
      handleResponse_of_not_fills checkLimits hharmless hfills
    rw [List.map_cons, Method.after_all_cons_of_ok hrun] at hfits ⊢
    replace hfits := fun n hn ↦ hfits n (notedSince_subset hsince _ hn)
    rw [take_batches hbatches] at hbatches'
    by_cases hfinished : ∀ orderId' entry, r.takesOut? = some orderId' → orderId' ≠ orderId →
        c.openOrders.get? orderId' = some entry → entry.filled = entry.qty
    · have hapart' : Apart orderId own base c'.openOrders c'.positionTracker := by
        rw [hopen, hposition]
        exact hapart.leaves r
      refine ih hbatches' hapart' (fun symbol side ↦ ?_)
        (fun m hm ↦ hquantity m (List.mem_cons_of_mem _ hm)) hfits fun hrest ↦ ?_
      · rw [hopen, hposition, apart_leaves _ hfinished, hbase]
      · exact h (Or.inr ⟨hharmless, hfills, hfinished, hopen ▸ hrest⟩)
    -- another order is taken out of which something is left
    · push Not at hfinished
      obtain ⟨orderId', entry, hout, hne, hentry, hleft⟩ := hfinished
      refine Or.inr (lowered_all hbatches' ?_ hfits)
      rw [hopen, hposition]
      unfold OeResponse.leaves
      rw [hout]
      exact hapart.lowered_of_erase (fun symbol side ↦ le_of_eq (hbase symbol side)) hentry hne
        hleft

end

/-! ### An order and its responses -/

section

variable {now : ℚ} {orderId symbol side quantity price flags : ℤ} {seqNum : ℕ} {msg : List UInt8}
  {responses : List OeResponse} {c c₁ c' : OrderEntryClient}

/-- `new_order` passes its local checks and is about to send this request: `c₁` is the client as it
stands then, with the order's entry written. -/
inductive Submitted (now : ℚ) (orderId symbol side quantity price flags : ℤ) (c : OrderEntryClient)
    (seqNum : ℕ) (msg : List UInt8) (c₁ : OrderEntryClient) : Prop
  | mk {c₀ c₂ : OrderEntryClient} {header : OeRequestHeader}
      (hnew : c.openOrders.contains orderId = false)
      (hvalid : riskCheck now symbol side quantity price c = .ok true c₀)
      (hheader : makeHeader .newOrder NewOrder.SIZE c₀ = .ok header c₂)
      (hside : (Side.ofValue? side).isSome = true)
      (hflags : (OrderFlags.ofValue? flags).isSome = true)
      (hpack : NewOrder.pack ⟨header, orderId, symbol, side, quantity, price, flags⟩ = some msg)
      (hseqNum : seqNum = header.seqNum)
      (hplaced : c₁ = c₂.placeEntry orderId ⟨symbol, side, quantity, price, 0⟩)

/-- What is left of the call is to collect the responses and to handle them. -/
theorem Submitted.after_newOrder
    (h : Submitted now orderId symbol side quantity price flags c seqNum msg c₁) :
    (newOrder now orderId symbol side quantity price flags).after c =
      (exchange seqNum orderId msg >>= processResponses).after c₁ := by
  obtain @⟨c₀, c₂, header, hnew, hvalid, hheader, hside, hflags, hpack, rfl, rfl⟩ := h
  have hsubmit : submitNewOrder orderId symbol side quantity price flags c₀ =
      (do
        let responses ← exchange header.seqNum orderId msg
        processResponses responses
        pure responses : ClientM _) (c₂.placeEntry orderId ⟨symbol, side, quantity, price, 0⟩) := by
    unfold submitNewOrder
    rw [Method.bind_ok hheader, Method.bind_ok (nameOf_of_isSome _ hside _),
      Method.bind_ok (nameOf_of_isSome _ hflags _), Method.bind_ok (Method.modify_apply _ _), hpack,
      Method.bind_ok (show packed (some msg) _ = .ok msg _ from rfl)]
  unfold newOrder Method.after
  rw [Method.bind_ok (Method.get_apply c), if_neg (by rw [hnew]; exact Bool.false_ne_true),
    Method.bind_ok hvalid, if_pos rfl, hsubmit, Method.bind_apply, Method.bind_apply]
  rcases exchange header.seqNum orderId msg _ with ⟨responses, t⟩ | ⟨e, t⟩
  · dsimp only
    rw [Method.bind_apply]
    rcases processResponses responses t with ⟨a, t'⟩ | ⟨e, t'⟩
    · rfl
    · rfl
  · rfl

/-- The order's entry is there, and nothing else is new. -/
structure Placed (orderId symbol side quantity price : ℤ) (c c₁ : OrderEntryClient) : Prop where
  new : c.openOrders.get? orderId = none
  quantity_pos : 0 < quantity
  side_eq : ∃ own : Side, side = own.value
  openOrders_eq : c₁.openOrders = c.openOrders.insert orderId ⟨symbol, side, quantity, price, 0⟩
  positionTracker_eq : c₁.positionTracker = c.positionTracker
  since : c.record.trace <+: c₁.record.trace

theorem Submitted.placed
    (h : Submitted now orderId symbol side quantity price flags c seqNum msg c₁) :
    Placed orderId symbol side quantity price c c₁ := by
  obtain ⟨hnew, hvalid, hheader, hside, -, -, -, rfl⟩ := h
  obtain ⟨happroved, rfl⟩ := EStateM.Result.ok.inj hvalid
  cases hheader
  obtain ⟨own, hown⟩ := Option.isSome_iff_exists.1 hside
  obtain ⟨hquantity, -⟩ := RiskTracker.exposure_of_isValid happroved
  exact ⟨Dict.contains_eq_false_iff.1 hnew, hquantity, ⟨own, (Side.value_of_ofValue? hown).symm⟩,
    rfl, rfl, List.prefix_append _ _⟩

/-- The exposures without the order, from then on. -/
theorem Placed.exists_apart (h : Placed orderId symbol side quantity price c c')
    (hsound : ∀ orderId entry, c.openOrders.get? orderId = some entry → entry.Sound) :
    ∃ own, Apart orderId own (apart orderId c'.openOrders c'.positionTracker) c'.openOrders
      c'.positionTracker := by
  obtain ⟨own, rfl⟩ := h.side_eq
  refine ⟨own, fun orderId' entry hentry ↦ ?_, fun entry hentry ↦ ?_, fun _ ↦ le_rfl⟩
  · rw [h.openOrders_eq, Dict.get?_insert] at hentry
    split at hentry
    · cases hentry
      refine ⟨?_, le_of_lt h.quantity_pos⟩
      cases own
      · exact Or.inl rfl
      · exact Or.inr rfl
    · exact hsound orderId' entry hentry
  · rw [h.openOrders_eq, Dict.get?_insert_self] at hentry
    cases hentry
    rfl

/-- Collecting the responses leaves it at that. -/
theorem Placed.exchange (h : Placed orderId symbol side quantity price c c₁)
    (hexchange : exchange seqNum orderId msg c₁ = .ok responses c') :
    Placed orderId symbol side quantity price c c' := by
  obtain ⟨hopen, hposition⟩ := openOrders_of_exchange hexchange
  exact ⟨h.new, h.quantity_pos, h.side_eq, hopen.trans h.openOrders_eq,
    hposition.trans h.positionTracker_eq, h.since.trans (since_of_exchange hexchange)⟩

/-- The order is not open, and every exposure is what it was. -/
structure NoTrace (orderId : ℤ) (c c' : OrderEntryClient) : Prop where
  notOpen : c'.openOrders.contains orderId = false
  buyExposure : ∀ symbol,
    buyExposure symbol c'.openOrders (c'.positionTracker.getPosition symbol) =
      buyExposure symbol c.openOrders (c.positionTracker.getPosition symbol)
  sellExposure : ∀ symbol,
    sellExposure symbol c'.openOrders (c'.positionTracker.getPosition symbol) =
      sellExposure symbol c.openOrders (c.positionTracker.getPosition symbol)

/-- In terms of the exposures without the order. -/
theorem noTrace_iff (hnew : c.openOrders.get? orderId = none) :
    NoTrace orderId c c' ↔ c'.openOrders.get? orderId = none ∧
      ∀ symbol side, apart orderId c'.openOrders c'.positionTracker symbol side =
        apart orderId c.openOrders c.positionTracker symbol side := by
  constructor
  · intro h
    have hnone := Dict.contains_eq_false_iff.1 h.notOpen
    refine ⟨hnone, fun symbol side ↦ ?_⟩
    cases side with
    | buy => rw [apart_buy hnone, apart_buy hnew, h.buyExposure]
    | sell => rw [apart_sell hnone, apart_sell hnew, h.sellExposure]
  · rintro ⟨hnone, hapart⟩
    refine ⟨Dict.contains_eq_false_iff.2 hnone, fun symbol ↦ ?_, fun symbol ↦ ?_⟩
    · rw [← apart_buy hnone, ← apart_buy hnew, hapart]
    · rw [← apart_sell hnone, ← apart_sell hnew, hapart]

/-- Putting the batch away changes neither orders nor positions. -/
theorem after_processResponses (responses : List OeResponse) (c : OrderEntryClient) :
    let handled := (Method.all (responses.map (handleResponse checkLimits))).after c
    let after := (processResponses responses).after c
    after.openOrders = handled.openOrders ∧ after.positionTracker = handled.positionTracker ∧
      handled.record.trace <+: after.record.trace := by
  unfold processResponses processWith Method.after Method.onExit
  rcases Method.all (responses.map (handleResponse checkLimits)) c with ⟨a, t⟩ | ⟨e, t⟩
  · exact ⟨rfl, rfl, List.prefix_rfl⟩
  · exact ⟨rfl, rfl, List.prefix_append _ _⟩

/-- A single reject or error takes out what it takes out. -/
theorem after_all_singleton {r : OeResponse} (hreject : isReject r = true) (c : OrderEntryClient) :
    let after := (Method.all ([r].map (handleResponse checkLimits))).after c
    after.openOrders = r.leaves c.openOrders ∧ after.positionTracker = c.positionTracker := by
  by_cases hharmless : r.Harmless
  · have hfills : ¬ r.Fills c.openOrders := by
      cases r with
      | fill m => cases hreject
      | _ => exact id
    obtain ⟨c', hrun, hopen, hposition, -, -⟩ :=
      handleResponse_of_not_fills checkLimits hharmless hfills
    rw [List.map_singleton, Method.after_all_cons_of_ok hrun]
    exact ⟨hopen, hposition⟩
  · obtain ⟨e, hrun⟩ := handleResponse_of_not_harmless checkLimits hharmless c
    have hout : r.takesOut? = none := by
      cases r with
      | reject m => exact if_neg hharmless
      | error m => rfl
      | _ => cases hreject
    rw [List.map_singleton, Method.after_all_cons_of_error hrun]
    unfold OeResponse.leaves
    rw [hout]
    exact ⟨rfl, rfl⟩

/-- **A reject or an error as the only response** leaves no trace if it takes the order out. -/
theorem noTrace_singleton_iff {r : OeResponse} (hreject : isReject r = true)
    (hplaced : Placed orderId symbol side quantity price c c') :
    NoTrace orderId c ((processResponses [r]).after c') ↔ r.takesOut? = some orderId := by
  obtain ⟨hopen₁, hposition₁, -⟩ := after_processResponses [r] c'
  obtain ⟨hopen₂, hposition₂⟩ := after_all_singleton hreject c'
  rw [noTrace_iff hplaced.new, hopen₁, hopen₂, hposition₁, hposition₂, hplaced.positionTracker_eq,
    hplaced.openOrders_eq]
  unfold OeResponse.leaves
  rcases r.takesOut? with - | orderId'
  · simp
  · dsimp only
    rw [Option.some.injEq, Dict.get?_erase]
    constructor
    · rintro ⟨hnone, -⟩
      by_contra hne
      rw [if_neg (Ne.symm hne), Dict.get?_insert_self] at hnone
      cases hnone
    · rintro rfl
      refine ⟨if_pos rfl, fun symbol' side' ↦ ?_⟩
      rw [apart_erase_self]
      unfold apart
      rw [Dict.erase_insert_self]

/-- **An order that the exchange does not accept leaves no trace** exactly when the responses that
the call collects take it back. This is about every order that is sent, whatever is read during the
call, the reply first, behind other responses or not at all:

* when the reading itself raises, nothing is handled, and the order stays open;
* responses that take the order back leave no trace, in whatever state;
* and no others do, when the entries are sound and every fill is of some quantity and fits;
* when the first response is a reject or an error, the condition is that it takes the order out, in
  whatever state. -/
theorem leavesNoTrace_iff
    (h : Submitted now orderId symbol side quantity price flags c seqNum msg c₁) :
    let after := (newOrder now orderId symbol side quantity price flags).after c
    (∀ e c', exchange seqNum orderId msg c₁ = .error e c' → ¬ NoTrace orderId c after) ∧
    ∀ responses c', exchange seqNum orderId msg c₁ = .ok responses c' →
      let takenBack := TakenBack orderId
        (c.openOrders.insert orderId ⟨symbol, side, quantity, price, 0⟩) responses
      (takenBack → NoTrace orderId c after) ∧
      ((∀ orderId entry, c.openOrders.get? orderId = some entry → entry.Sound) →
        (∀ m, .fill m ∈ responses → 0 < m.quantity) →
        (∀ n ∈ notedSince c after, n.Fits) →
        (NoTrace orderId c after ↔ takenBack)) ∧
      (∀ r, responses.head? = some r → isReject r = true →
        (NoTrace orderId c after ↔ r.takesOut? = some orderId)) := by
  intro after
  have hafter : after = (exchange seqNum orderId msg >>= processResponses).after c₁ :=
    h.after_newOrder
  have hplaced₁ := h.placed
  refine ⟨fun e c' hexchange htrace ↦ ?_, fun responses c' hexchange ↦ ?_⟩
  -- nothing is handled: the order is as it was placed
  · rw [hafter, Method.after_error (Method.bind_error hexchange)] at htrace
    have hnone := Dict.contains_eq_false_iff.1 htrace.notOpen
    rw [openOrders_of_exchange_error hexchange, hplaced₁.openOrders_eq,
      Dict.get?_insert_self] at hnone
    cases hnone
  have hplaced := hplaced₁.exchange hexchange
  rw [Method.after_bind_of_ok hexchange] at hafter
  obtain ⟨hopen, hposition, hsince⟩ := after_processResponses responses c'
  have hbase : ∀ symbol' side', apart orderId c'.openOrders c'.positionTracker symbol' side' =
      apart orderId c.openOrders c.positionTracker symbol' side' := by
    intro symbol' side'
    unfold apart
    rw [hplaced.openOrders_eq, hplaced.positionTracker_eq, Dict.erase_insert_self]
  intro takenBack
  have henough : takenBack → NoTrace orderId c after := by
    intro htaken
    obtain ⟨hnone, hapart⟩ := takenBack_all (c := c') (by rwa [hplaced.openOrders_eq])
    rw [noTrace_iff hplaced.new, hafter, hopen, hposition]
    exact ⟨hnone, fun symbol' side' ↦ (hapart symbol' side').trans (hbase symbol' side')⟩
  refine ⟨henough, fun hsound hquantity hfits ↦ ⟨fun htrace ↦ ?_, henough⟩,
    fun r hhead hreject ↦ ?_⟩
  · by_contra hnot
    obtain ⟨own, hapart⟩ := hplaced.exists_apart hsound
    have hnoted : notedSince c' _ ⊆ notedSince c _ :=
      List.Subset.trans (notedSince_mono hsince) (notedSince_subset hplaced.since _)
    rcases lowered_of_not_takenBack (batches_of_exchange hexchange) hapart (fun _ _ ↦ rfl) hquantity
      (fun n hn ↦ hfits n (hafter ▸ hnoted hn)) (by rwa [hplaced.openOrders_eq]) with
      hstill | hlowered
    · exact hstill (hopen ▸ Dict.contains_eq_false_iff.1 (hafter ▸ htrace.notOpen))
    · obtain ⟨symbol', side', hlt⟩ := hlowered.lowered
      have hsame := ((noTrace_iff hplaced.new).1 htrace).2 symbol' side'
      rw [hafter, hopen, hposition, ← hbase] at hsame
      exact hlt.ne hsame
  · obtain rfl := exchange_eq_singleton hexchange hhead hreject
    rw [hafter]
    exact noTrace_singleton_iff hreject hplaced

end

/-- The message of a buy of one, and the client that is about to send it. -/
def aboutToSend (c : OrderEntryClient) : List UInt8 × OrderEntryClient :=
  ((NewOrder.pack ⟨c.nextHeader .newOrder NewOrder.SIZE, 2, 5, 1, 1, 10, 0⟩).getD [],
    ((makeHeader .newOrder NewOrder.SIZE).after ((riskCheck 0 5 1 1 10).after c)).placeEntry 2
      ⟨5, 1, 1, 10, 0⟩)

/-- A client that is about to send an order of one at ten. -/
theorem submitted_aboutToSend {c : OrderEntryClient} (hnew : c.openOrders.contains 2 = false)
    (hvalid : (riskCheck 0 5 1 1 10).value? c = some true)
    (hpack : (NewOrder.pack
      ⟨c.nextHeader .newOrder NewOrder.SIZE, 2, 5, 1, 1, 10, 0⟩).isSome = true) :
    Submitted 0 2 5 1 1 10 0 c (c.seqNum + 1) (aboutToSend c).1 (aboutToSend c).2 := by
  obtain ⟨c₀, hc₀⟩ := Method.value?_eq_some_iff.1 hvalid
  obtain ⟨msg, hmsg⟩ := Option.isSome_iff_exists.1 hpack
  obtain ⟨-, hchecked⟩ := EStateM.Result.ok.inj hc₀
  unfold aboutToSend
  rw [Method.after_ok hc₀, hmsg]
  subst hchecked
  exact .mk hnew hc₀ rfl rfl rfl hmsg rfl rfl

/-- A client with the order 1 open, to which this is going to be sent. -/
def offered (responses : List OeResponse) : OrderEntryClient :=
  runCalls [.newOrder 0 1 5 1 1 10 0] (init [] [] 7 (-20000) 10 (some (.connected
    (Arrival.burst [.ack ⟨⟨40, 101, 1, 1, 1, 7⟩, 1, 900, 1, 10⟩] ++ [.pause] ++
      Arrival.burst responses ++ [.pause]))) [])

/-- The buy of another one is rejected for this reason, behind something about the first order. -/
def rejectedBehind (late : OeResponse) (reason : RejectReason) : List OeResponse :=
  [late, .reject ⟨⟨25, 102, 1, 3, 2, 7⟩, 2, reason.value⟩]

/-- The first order has been acknowledged once more. -/
def lateAck : OeResponse := .ack ⟨⟨40, 101, 1, 2, 1, 7⟩, 1, 900, 1, 10⟩

/-- The first order has filled. -/
def lateFill : OeResponse := .fill ⟨⟨33, 103, 1, 2, 1, 7⟩, 1, 1, 10, 2⟩

/-- Behind another response a rejected order is taken back; **behind a late fill** it is as well,
but the exposures are no longer what they were. -/
theorem leavesNoTrace_unknownOrderId :
    let c := offered (rejectedBehind lateAck .unknownOrderId)
    let c' := offered (rejectedBehind lateFill .unknownOrderId)
    NoTrace 2 c ((newOrder 0 2 5 1 1 10 0).after c) ∧
      ¬ NoTrace 2 c' ((newOrder 0 2 5 1 1 10 0).after c') := by
  intro c c'
  obtain ⟨t, hexchange⟩ := Method.value?_eq_some_iff.1 (show
    (exchange (c.seqNum + 1) 2 (aboutToSend c).1).value? (aboutToSend c).2 =
      some (rejectedBehind lateAck .unknownOrderId) by decide +kernel)
  obtain ⟨t', hexchange'⟩ := Method.value?_eq_some_iff.1 (show
    (exchange (c'.seqNum + 1) 2 (aboutToSend c').1).value? (aboutToSend c').2 =
      some (rejectedBehind lateFill .unknownOrderId) by decide +kernel)
  have hsubmitted : Submitted 0 2 5 1 1 10 0 c (c.seqNum + 1) (aboutToSend c).1 (aboutToSend c).2 :=
    submitted_aboutToSend (by decide +kernel) (by decide +kernel) (by decide +kernel)
  have hsubmitted' : Submitted 0 2 5 1 1 10 0 c' (c'.seqNum + 1) (aboutToSend c').1
      (aboutToSend c').2 :=
    submitted_aboutToSend (by decide +kernel) (by decide +kernel) (by decide +kernel)
  obtain ⟨henough, -⟩ := (leavesNoTrace_iff hsubmitted).2 _ _ hexchange
  obtain ⟨-, hiff, -⟩ := (leavesNoTrace_iff hsubmitted').2 _ _ hexchange'
  have hopen : c.openOrders = (Dict.empty.insert 1 ⟨5, 1, 1, 10, 0⟩) := by decide +kernel
  have hopen' : c'.openOrders = (Dict.empty.insert 1 ⟨5, 1, 1, 10, 0⟩) := by decide +kernel
  constructor
  · refine henough (Or.inr ⟨trivial, id, fun _ _ hout ↦ (nomatch hout), Or.inr ⟨rfl, id, ?_, ?_⟩⟩)
    · intro orderId' _ hout hne
      exact absurd (Option.some.inj hout).symm hne
    · rw [hopen]
      rfl
  · rw [hiff]
    · rintro (⟨hraises, -⟩ | ⟨-, hfills, -⟩)
      · exact hraises rfl
      · exact hfills (by rw [hopen']; rfl)
    · intro orderId entry hentry
      rw [hopen', Dict.get?_insert] at hentry
      split at hentry
      · cases hentry
        exact ⟨Or.inl rfl, by decide⟩
      · cases hentry
    · intro m hm
      rcases List.mem_cons.1 hm with h | h
      · cases h
        decide
      · cases List.mem_singleton.1 h
    · decide +kernel

/-- A new client to which this is going to be replied. -/
def replied (reply : OeResponse) : OrderEntryClient :=
  init [] [] 7 (-20000) 10 (some (.connected (Arrival.burst [reply]))) []

/-- **Rejected for its price, the buy stays open**, and keeps its share of the exposure. -/
theorem rejected_order_stays_open :
    let reply : OeResponse := .reject ⟨⟨25, 102, 1, 1, 1, 7⟩, 2, RejectReason.invalidPrice.value⟩
    let c := replied reply
    let c' := (newOrder 0 2 5 1 1 10 0).after c
    (∃ msg c₁ t, Submitted 0 2 5 1 1 10 0 c 1 msg c₁ ∧ exchange 1 2 msg c₁ = .ok [reply] t) ∧
      c'.openOrders.contains 2 = true ∧
      buyExposure 5 c.openOrders (c.positionTracker.getPosition 5) = 0 ∧
      buyExposure 5 c'.openOrders (c'.positionTracker.getPosition 5) = 1 := by
  intro reply c c'
  obtain ⟨t, hexchange⟩ := Method.value?_eq_some_iff.1 (show
    (exchange 1 2 (aboutToSend c).1).value? (aboutToSend c).2 = some [reply] by decide +kernel)
  exact ⟨⟨_, _, t, submitted_aboutToSend rfl (by decide +kernel) (by decide +kernel), hexchange⟩,
    by decide +kernel, by decide +kernel, by decide +kernel⟩

end OrderEntryClient

end HftTrading.OrderEntry
