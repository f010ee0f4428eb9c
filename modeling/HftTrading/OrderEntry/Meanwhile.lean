import HftTrading.OrderEntry.Accounts

/-!
# Invariants under a condition on what is noted

An invariant of the orders and positions is often kept only if the exchange plays by the rules: no
fill overfills its order, nothing is booked at all. Such a rule is a condition on the notes.
`Meanwhile P Q c₀` says of a later state that as long as everything noted since `c₀` is of the kind
`P`, orders and positions are of the kind `Q`; and that the limits are those of `c₀`.

A request writes orders and positions in two ways only, which both leave a note: an order is taken
out (`removed`), or a fill is booked (`booked`). So two conditions on `P` and `Q` make this an
invariant of the requests (`keptByRequests_meanwhile`), however deep the kill switch nests inside
of them. What a call does after the rule has been broken is left open.
-/

namespace HftTrading.OrderEntry

open OrderEntryClient (filledBy)

/-- A note of something that orders or positions have felt. -/
def Note.Moves : Note → Prop
  | .booked _ _ _ | .removed _ => True
  | _ => False

instance : DecidablePred Note.Moves
  | .booked _ _ _ | .removed _ => .isTrue trivial
  | .read _ | .placed _ _ | .cleared | .modified _ _ _ | .lost _ | .sent _ | .replied _ _ _ _ =>
    .isFalse id

namespace OrderEntryClient

/-- Less has been noted since a later point. -/
theorem notedSince_subset {c₀ c₁ : OrderEntryClient} (h : c₀.record.trace <+: c₁.record.trace)
    (c : OrderEntryClient) : notedSince c₁ c ⊆ notedSince c₀ c :=
  List.map_subset _ (List.drop_subset_drop_left _ h.length_le)

/-- More has been noted at a later point. -/
theorem notedSince_mono {c₀ c₁ c : OrderEntryClient}
    (h : c₁.record.trace <+: c.record.trace) : notedSince c₀ c₁ ⊆ notedSince c₀ c :=
  List.map_subset _ (h.sublist.drop _).subset

/-- As long as only things of a kind have been noted since, orders and positions are so, and the
risk tracker is the same. -/
structure Meanwhile (P : Note → Prop) (Q : Dict ℤ OeConfig → PositionTracker → Prop)
    (c₀ c : OrderEntryClient) : Prop where
  since : c₀.record.trace <+: c.record.trace
  riskTracker : c.riskTracker = c₀.riskTracker
  holds : (∀ n ∈ notedSince c₀ c, P n) → Q c.openOrders c.positionTracker

section

variable {P : Note → Prop} {Q : Dict ℤ OeConfig → PositionTracker → Prop}
  {c₀ c c' : OrderEntryClient}

theorem Meanwhile.refl (h : Q c.openOrders c.positionTracker) : Meanwhile P Q c c :=
  ⟨List.prefix_rfl, rfl, fun _ ↦ h⟩

/-- What has no effect on orders, positions, limits and the trace. -/
theorem Meanwhile.congr (h : Meanwhile P Q c₀ c) (htrace : c'.record.trace = c.record.trace)
    (hrisk : c'.riskTracker = c.riskTracker) (horders : c'.openOrders = c.openOrders)
    (hpositions : c'.positionTracker = c.positionTracker) : Meanwhile P Q c₀ c' := by
  refine ⟨htrace ▸ h.since, hrisk.trans h.riskTracker, ?_⟩
  rw [horders, hpositions]
  have hnoted : notedSince c₀ c' = notedSince c₀ c := by rw [notedSince, htrace, notedSince]
  rw [hnoted]
  exact h.holds

/-- What has an effect and is noted. -/
theorem Meanwhile.note (h : Meanwhile P Q c₀ c) {n : Note}
    (htrace : c'.record.trace = c.record.trace) (hrisk : c'.riskTracker = c.riskTracker)
    (hmoved : P n → Q c.openOrders c.positionTracker → Q c'.openOrders c'.positionTracker) :
    Meanwhile P Q c₀ (c'.note n) := by
  have hsince : c₀.record.trace <+: c'.record.trace := htrace ▸ h.since
  refine ⟨hsince.trans (List.prefix_append _ _), hrisk.trans h.riskTracker, fun hall ↦ ?_⟩
  rw [notedSince_note hsince, List.forall_mem_append, List.forall_mem_singleton] at hall
  have hnoted : notedSince c₀ c' = notedSince c₀ c := by rw [notedSince, htrace, notedSince]
  rw [hnoted] at hall
  exact hmoved hall.2 (h.holds hall.1)

/-- Reading a response writes no order and no position. -/
theorem Meanwhile.readStep (h : Meanwhile P Q c₀ c) (hstep : ReadStep c c') :
    Meanwhile P Q c₀ c' := by
  cases hstep with
  | wire hsame =>
    exact h.congr (congrArg Record.trace hsame.record) hsame.riskTracker hsame.openOrders
      hsame.positionTracker
  | sent => exact h.note rfl rfl fun _ hQ ↦ hQ
  | opened => exact h.congr rfl rfl rfl rfl
  | read _ response =>
    have hcollected : Meanwhile P Q c₀ (c.onRecord (·.collect response)) :=
      h.congr rfl rfl rfl rfl
    exact hcollected.note rfl rfl fun _ hQ ↦ hQ
  | abandoned =>
    exact (h.note (n := .lost c.record.batch) rfl rfl fun _ hQ ↦ hQ).congr rfl rfl rfl rfl

theorem Meanwhile.reads (h : Meanwhile P Q c₀ c) (hreads : Reads c c') : Meanwhile P Q c₀ c' := by
  induction hreads with
  | refl => exact h
  | tail _ hstep ih => exact ih.readStep hstep

/-- **What a request keeps**: it is enough to look at orders that leave and at fills. -/
theorem keptByRequests_meanwhile
    (hremoved : ∀ orderId d t, P (.removed orderId) → Q d t → Q (d.erase orderId) t)
    (hbooked : ∀ (m : OrderFill) (entry : OeConfig) (flags : FillFlags) d t t',
      P (.booked m.orderId entry m) → d.get? m.orderId = some entry → Q d t →
      (∀ symbol, t'.getPosition symbol = t.getPosition symbol +
        if symbol = entry.symbol then entry.signed m.quantity else 0) →
      Q (if flags = .closed then d.erase m.orderId else d.insert m.orderId (filledBy m entry)) t') :
    KeptByRequests (fun _ ↦ True) (Meanwhile P Q c₀) where
  header hc := hc.congr rfl rfl rfl rfl
  exchanged _ _ _ hsend hc := (hc.reads (reads_of_ok hsend)).note rfl rfl fun _ hQ ↦ hQ
  broken _ hsend hc := hc.reads (reads_of_error hsend)
  passed _ _ _ hc := hc.congr rfl rfl rfl rfl
  popped {c} _ _ _ orderId _ _ _ hc := by
    have htaken : Meanwhile P Q c₀ (c.onRecord Record.take) := hc.congr rfl rfl rfl rfl
    unfold popOrder
    split
    · exact htaken.note rfl rfl (hremoved orderId _ _)
    · exact htaken
  booked {c m _ _ entry flags} _ _ hentry hc := by
    have htaken : Meanwhile P Q c₀ (c.onRecord Record.take) := hc.congr rfl rfl rfl rfl
    unfold bookFill
    rw [bookTrackers_eq]
    exact htaken.note rfl rfl fun hP hQ ↦ hbooked m entry flags _ _ _ hP hentry hQ
      (getPosition_bookTrackers entry m _)
  finished _ hc := hc.congr rfl rfl rfl rfl
  abandoned _ hc := hc.readStep (.abandoned ‹_›)

end

end OrderEntryClient

end HftTrading.OrderEntry
