import HftTrading.OrderEntry.Modify
import HftTrading.OrderEntry.Requests

/-!
# Sizes of orders

`modify_order` asks no risk check, so an order may grow beyond the limits. It cannot when it is told
the side and the quantity that the order has (`keeps_within_modifyOrder`): then only the price is
rewritten, and no exposure moves.

Which orders have which side and quantity is a relation that the caller keeps (`Sized`). Fills and
closes leave it true, and a new order does unless it is placed under an id that is spoken for
(`triple_sized_newOrder`).

The relation may speak of ids that are not open; of these nothing is asked. A caller that forgets an
order goes over to a smaller relation, and one that places an order to a larger one (`Plus`). The
limits come along (`Within`), so that a caller which keeps the relation keeps the limits, and has
not to go through the methods of the client itself.
-/

namespace HftTrading.OrderEntry.OrderEntryClient

open Method ExposureTracker

variable {limit orderId symbol side quantity price : ℤ} {c : OrderEntryClient}

/-! ### Properties of the open orders alone -/

section

variable {Q : Dict ℤ OeConfig → Prop}

/-- **What survives closes and fills** survives every request. -/
theorem keptByRequests_openOrders (hclosed : ∀ d orderId, Q d → Q (d.erase orderId))
    (hfilled : ∀ (d : Dict ℤ OeConfig) (m : OrderFill) entry, d.get? m.orderId = some entry →
      Q d → Q (d.insert m.orderId (filledBy m entry))) :
    KeptByRequests (fun _ ↦ True) (fun c ↦ Q c.openOrders) where
  header hc := hc
  exchanged {c c'} _ _ _ _ _ hsend hc := by
    show Q c'.openOrders
    rwa [(reads_of_ok hsend).openOrders_eq.1]
  broken {c c'} _ _ _ hsend hc := by
    show Q c'.openOrders
    rwa [(reads_of_error hsend).openOrders_eq.1]
  passed _ _ _ hc := hc
  popped _ _ _ hc := by
    rw [(openOrders_popOrder _ _).1]
    exact hclosed _ _ hc
  booked {c m _ _ entry flags} _ _ hentry hc := by
    rw [openOrders_bookFill]
    split
    · exact hclosed _ _ hc
    · exact hfilled _ m entry hentry hc
  finished _ hc := hc
  abandoned _ hc := hc

/-- **A new session** starts with no open order. -/
theorem keeps_openOrders_reconnect (hempty : Q .empty) :
    Keeps (fun c ↦ Q c.openOrders) reconnect :=
  keeps_reconnect (fun hc ↦ hc) (fun hsame hc ↦ hsame.openOrders.symm ▸ hc)
    (fun hreads hc ↦ hreads.openOrders_eq.1.symm ▸ hc) fun _ _ ↦ hempty

end

/-! ### Sizes -/

/-- The orders of a relation have the side and the quantity that it gives, as long as they are
open. -/
def Sized (W : ℤ → ℤ → ℤ → Prop) (openOrders : Dict ℤ OeConfig) : Prop :=
  ∀ orderId side quantity, W orderId side quantity →
    ∀ entry, openOrders.get? orderId = some entry → entry.side = side ∧ entry.qty = quantity

/-- A relation, and one more order. -/
def Plus (W : ℤ → ℤ → ℤ → Prop) (orderId side quantity : ℤ) (orderId' side' quantity' : ℤ) : Prop :=
  W orderId' side' quantity' ∨ orderId' = orderId ∧ side' = side ∧ quantity' = quantity

section

variable {W W' : ℤ → ℤ → ℤ → Prop} {openOrders : Dict ℤ OeConfig}

theorem Sized.mono (h : Sized W openOrders)
    (hle : ∀ orderId side quantity, W' orderId side quantity → W orderId side quantity) :
    Sized W' openOrders :=
  fun orderId side quantity hW ↦ h orderId side quantity (hle _ _ _ hW)

theorem sized_empty (W : ℤ → ℤ → ℤ → Prop) : Sized W .empty := fun _ _ _ _ _ hget ↦ by cases hget

theorem Sized.erase (h : Sized W openOrders) (orderId : ℤ) :
    Sized W (openOrders.erase orderId) := by
  intro orderId' side quantity hW entry hget
  rw [Dict.get?_erase] at hget
  split at hget
  · cases hget
  · exact h orderId' side quantity hW entry hget

/-- An entry is written that has the side and the quantity it should have. -/
theorem Sized.insert (h : Sized W openOrders) {entry : OeConfig}
    (hentry : ∀ side quantity, W orderId side quantity → entry.side = side ∧ entry.qty = quantity) :
    Sized W (openOrders.insert orderId entry) := by
  intro orderId' side quantity hW entry' hget
  rw [Dict.get?_insert] at hget
  split at hget
  · rename_i heq
    subst heq
    cases hget
    exact hentry side quantity hW
  · exact h orderId' side quantity hW entry' hget

/-- Fills and closes leave side and quantity. -/
theorem keptByRequests_sized (W : ℤ → ℤ → ℤ → Prop) :
    KeptByRequests (fun _ ↦ True) (fun c ↦ Sized W c.openOrders) :=
  keptByRequests_openOrders (fun _ orderId h ↦ h.erase orderId) fun _ _ entry hentry h ↦
    h.insert fun side quantity hW ↦ h _ side quantity hW entry hentry

/-- **A new order** leaves sizes as they are and has its own, unless its id is spoken for. -/
theorem triple_sized_newOrder (hnew : ∀ side quantity, ¬ W orderId side quantity)
    (now : ℚ) (symbol side quantity price flags : ℤ) :
    Triple (fun c ↦ Sized W c.openOrders) (newOrder now orderId symbol side quantity price flags)
      (fun responses c ↦ Sized W c.openOrders ∧ ((∃ r, responses = [r] ∧ isReject r = true) ∨
        Sized (Plus W orderId side quantity) c.openOrders))
      (fun c ↦ Sized W c.openOrders) := by
  have hmono {c : OrderEntryClient} (h : Sized (Plus W orderId side quantity) c.openOrders) :
      Sized W c.openOrders := h.mono fun _ _ _ hW ↦ Or.inl hW
  have hplace {c : OrderEntryClient} (_ : c.openOrders.get? orderId = none)
      (h : Sized W c.openOrders) : Sized (Plus W orderId side quantity)
        (c.placeEntry orderId ⟨symbol, side, quantity, price, 0⟩).openOrders := by
    have hsized : Sized W (c.openOrders.insert orderId ⟨symbol, side, quantity, price, 0⟩) :=
      h.insert fun side' quantity' hW ↦ absurd hW (hnew side' quantity')
    rintro orderId' side' quantity' (hW | ⟨rfl, rfl, rfl⟩) entry hget
    · exact hsized orderId' side' quantity' hW entry hget
    · cases (Dict.get?_insert_self _ _ _).symm.trans hget
      exact ⟨rfl, rfl⟩
  intro c hc
  refine (triple_newOrder (I := fun c ↦ Sized W c.openOrders) flags (fun hc ↦ hc) (fun _ hc ↦ hc)
    hplace (keptByRequests_sized _) (fun _ _ ↦ trivial) (fun _ _ _ ↦ trivial) now).weaken
    (fun c hc ↦ hc) (fun responses c hc ↦ ?_) (fun c hc ↦ ?_) c ⟨hc, rfl⟩
  · rcases hc.1 with ⟨hsized, hreject⟩ | hsized
    · exact ⟨hsized, Or.inl hreject⟩
    · exact ⟨hmono hsized, Or.inr hsized⟩
  · exact hc.1.elim id hmono

end

/-! ### Within the limit, with sizes -/

/-- The exposure has been within the limit as long as fills fit, nothing waits to be handled, and
the orders of a relation have their sizes. -/
structure Within (limit : ℤ) (W : ℤ → ℤ → ℤ → Prop) (c : OrderEntryClient) : Prop where
  kept : c.Kept limit
  waiting : c.record.batches = []
  sized : Sized W c.openOrders

/-- A request that does not modify keeps the exposure within the limit. -/
theorem keptByRequests_kept : KeptByRequests (fun _ ↦ True) (Kept limit) where
  header hc := (Step.header _ : Step False False _ _).kept hc
  exchanged seqNum orderId _ hsend hc :=
    (Step.exchanged hsend seqNum orderId : Step False False _ _).kept hc
  broken _ hsend hc := (Step.broken hsend : Step False False _ _).kept hc
  passed _ _ _ hc := hc.congr rfl rfl ⟨rfl, rfl⟩ rfl
  popped {c} _ _ _ orderId _ _ _ hc := by
    have htaken : Kept limit (c.onRecord Record.take) := hc.congr rfl rfl ⟨rfl, rfl⟩ rfl
    exact htaken.popOrder orderId
  booked _ _ hentry hc := hc.bookFill _ hentry
  finished h hc := (Step.finished h : Step False False _ _).kept hc
  abandoned h hc := (Step.abandoned h : Step False False _ _).kept hc

/-- **A new price** for an open order moves no exposure. -/
theorem covered_reprice {openOrders : Dict ℤ OeConfig} {positionTracker : PositionTracker}
    {entry : OeConfig} (h : Covered limit openOrders positionTracker)
    (hentry : openOrders.get? orderId = some entry) (price : ℤ) :
    Covered limit (openOrders.insert orderId (entry.rewritten entry.side entry.qty price))
      positionTracker := by
  have houtstanding (symbol : ℤ) (side : Side) : outstanding symbol side
      (openOrders.insert orderId (entry.rewritten entry.side entry.qty price)) =
        outstanding symbol side openOrders := by
    rw [outstanding_rewrite hentry]
    exact sub_add_cancel _ _
  refine ⟨fun orderId' entry' hget ↦ ?_, fun symbol ↦ ?_, fun symbol ↦ ?_⟩
  · rw [Dict.get?_insert] at hget
    split at hget
    · cases hget
      exact ⟨(h.sound orderId entry hentry).side, (h.sound orderId entry hentry).filled_le⟩
    · exact h.sound orderId' entry' hget
  · unfold buyExposure
    rw [houtstanding]
    exact h.buy_le symbol
  · unfold sellExposure
    rw [houtstanding]
    exact h.sell_le symbol

section

variable {W : ℤ → ℤ → ℤ → Prop}

/-- An order is rewritten with the side and the quantity that it has. -/
theorem Within.settleModify (h : Within limit W c) (hW : W orderId side quantity)
    (first : OeResponse) : Within limit W (c.settleModify orderId side quantity price first) := by
  have hpop : Within limit W (c.popOrder orderId) := by
    refine ⟨h.kept.popOrder orderId, (batches_popOrder _ _).trans h.waiting, ?_⟩
    rw [(openOrders_popOrder _ _).1]
    exact h.sized.erase orderId
  unfold OrderEntryClient.settleModify
  cases first with
  | ack m =>
    dsimp only
    rcases hentry : c.openOrders.get? orderId with - | entry
    · unfold rewriteEntry
      rw [hentry]
      exact h
    · obtain ⟨rfl, rfl⟩ := h.sized _ _ _ hW entry hentry
      rw [rewriteEntry_of_get? hentry]
      refine ⟨h.kept.note (fun _ hcovered ↦ covered_reprice hcovered hentry price) ⟨rfl, rfl⟩ rfl,
        h.waiting, h.sized.insert fun side quantity hW' ↦ h.sized _ side quantity hW' entry hentry⟩
  | closed m => exact hpop
  | reject m =>
    dsimp only
    split
    · exact hpop
    · exact h
  | _ => exact h

/-- **A quote is moved** within the limit. -/
theorem keeps_within_modifyOrder (hW : W orderId side quantity) (price : ℤ) :
    Keeps (Within limit W) (modifyOrder orderId side quantity price) := by
  have hboth : KeptByRequests (fun _ ↦ True) (fun c ↦ c.Kept limit ∧ Sized W c.openOrders) :=
    keptByRequests_kept.and (keptByRequests_sized W)
  refine keeps_iff_triple.2 ((hboth.modifyOrder (fun _ _ ↦ trivial) orderId side quantity price
    fun _ _ _ ↦ trivial).weaken (fun c hc ↦ ⟨⟨hc.kept, hc.sized⟩, hc.waiting⟩)
    (fun responses c hc ↦ ?_) fun c hc ↦ ⟨hc.1.1, hc.2, hc.1.2⟩)
  rcases hc with ⟨hc, -⟩ | ⟨c₁, first, hc₁, -, rfl⟩
  · exact ⟨hc.1.1, hc.2, hc.1.2⟩
  · have hwithin : Within limit W c₁ := ⟨hc₁.1.1, hc₁.2, hc₁.1.2⟩
    exact hwithin.settleModify hW first

/-- A cancel keeps the client within the limit. -/
theorem keeps_within_deleteOrder (orderId : ℤ) : Keeps (Within limit W) (deleteOrder orderId) :=
  fun c hc ↦ ⟨keptByRequests_kept.deleteOrder (fun _ _ ↦ trivial) orderId c hc.kept,
    (ran_deleteOrder [] orderId c ⟨.refl, hc.waiting⟩ : Ran False False c [] _).batches_eq,
    (keptByRequests_sized W).deleteOrder (fun _ _ ↦ trivial) orderId c hc.sized⟩

theorem keeps_within_reconnect : Keeps (Within limit W) reconnect := by
  intro c hc
  have hran : Ran False True c [] (reconnect.after c) := ran_reconnect trivial c ⟨.refl, hc.waiting⟩
  exact ⟨hran.steps.kept hc.kept, hran.batches_eq,
    keeps_openOrders_reconnect (sized_empty W) c hc.sized⟩

/-- **A new order** is placed within the limit, and has its size from then on. -/
theorem triple_within_newOrder (hnew : ∀ side quantity, ¬ W orderId side quantity) (now : ℚ)
    (symbol side quantity price flags : ℤ) :
    Triple (Within limit W) (newOrder now orderId symbol side quantity price flags)
      (fun responses c ↦ Within limit W c ∧ ((∃ r, responses = [r] ∧ isReject r = true) ∨
        Within limit (Plus W orderId side quantity) c))
      (Within limit W) := by
  intro c hc
  have hran : Ran False False c []
      ((newOrder now orderId symbol side quantity price flags).after c) :=
    ran_newOrder now orderId symbol side quantity price flags c ⟨.refl, hc.waiting⟩
  have hkept := hran.steps.kept hc.kept
  have hwaiting := hran.batches_eq
  have hsized := triple_sized_newOrder hnew now symbol side quantity price flags c hc.sized
  revert hkept hwaiting hsized
  unfold after
  rcases newOrder now orderId symbol side quantity price flags c with ⟨responses, c'⟩ | ⟨e, c'⟩
  · exact fun hkept hwaiting hsized ↦ ⟨⟨hkept, hwaiting, hsized.1⟩,
      hsized.2.imp_right fun hown ↦ ⟨hkept, hwaiting, hown⟩⟩
  · exact fun hkept hwaiting hsized ↦ ⟨hkept, hwaiting, hsized⟩

end

/-- **Within the limits throughout**, if fills fit. -/
theorem Kept.withinLimits (h : Kept limit c) (hfits : ∀ p ∈ c.record.trace, p.note.Fits) :
    (∀ p ∈ c.record.trace, WithinLimits c.riskTracker p.openOrders p.positionTracker) ∧
      WithinLimits c.riskTracker c.openOrders c.positionTracker := by
  obtain ⟨hnow, hpoints⟩ := h.covered hfits
  have hlimit : c.riskTracker.positionLimit = c.riskTracker.maxExposure :=
    h.positionLimit_eq.trans h.limit_eq.symm
  rw [← h.limit_eq] at hnow hpoints
  exact ⟨fun p hp ↦ (hpoints p hp).withinLimits hlimit, hnow.withinLimits hlimit⟩

end HftTrading.OrderEntry.OrderEntryClient
