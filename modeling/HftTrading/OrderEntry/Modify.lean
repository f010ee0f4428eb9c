import HftTrading.OrderEntry.Exposure
import HftTrading.OrderEntry.Meanwhile

/-!
# A modified order and the limits

`modify_order` asks no risk check: it rewrites the entry of its order as told once the exchange has
acknowledged. What the limits then need is what `is_valid` would have asked (`Room`): a positive
quantity within the one of an order, and room for what the order then has left, on the side it is
moved to.

The rewriting is the last thing the call does, behind the handling of all responses, and it depends
on the first of them alone. So three cases are told apart (`modifyOrder_within_iff`):

* the first response is the acknowledgement. Then the entry is rewritten if the order is still open
  when the responses have been handled, and the limits hold afterwards exactly if there is room for
  the order in that state (`withinAfterModify_rewriteEntry_iff`). Fills and closes on the way only
  make room, so that room before the call is enough (`Roomy`); and it is exactly what is needed when
  nothing is booked and nothing closes on the way;
* the order has left by then, or the acknowledgement has been read behind a late response, or not
  during the call at all, or the handling raises. Then nothing is rewritten: the exposures are
  within the limit as before, and all that can be wrong with the order is what was wrong with it;
* the order is not open in the first place. Then nothing is sent.
-/

namespace HftTrading.OrderEntry

open ExposureTracker
open OrderEntryClient (filledBy)

/-! ### Rewriting one entry -/

/-- Every exposure is within the limit. -/
def ExposuresWithin (limit : ℤ) (openOrders : Dict ℤ OeConfig) (positionTracker : PositionTracker) :
    Prop :=
  ∀ symbol,
    buyExposure symbol openOrders (positionTracker.getPosition symbol) ≤ limit ∧
    sellExposure symbol openOrders (positionTracker.getPosition symbol) ≤ limit

/-- Orders and positions within a limit keep the exposures within it. -/
theorem Covered.exposuresWithin {limit : ℤ} {d : Dict ℤ OeConfig} {t : PositionTracker}
    (h : Covered limit d t) : ExposuresWithin limit d t :=
  fun symbol ↦ ⟨h.buy_le symbol, h.sell_le symbol⟩

/-- **Room for a modified order**: what the pre-trade check would ask of it, with the order as it
was left out of the exposures and its filled part kept. -/
structure Room (limits : RiskTracker) (openOrders : Dict ℤ OeConfig)
    (positionTracker : PositionTracker) (entry : OeConfig) (side quantity : ℤ) : Prop where
  quantity_pos : 0 < quantity
  quantity_le : quantity ≤ limits.maxQtyPerOrder
  buy_le : buyExposure entry.symbol openOrders (positionTracker.getPosition entry.symbol) -
    left entry.symbol .buy entry + (if side = Side.buy.value then quantity - entry.filled else 0) ≤
      limits.maxExposure
  sell_le : sellExposure entry.symbol openOrders (positionTracker.getPosition entry.symbol) -
    left entry.symbol .sell entry +
      (if side = Side.sell.value then quantity - entry.filled else 0) ≤ limits.maxExposure

/-- The limits after a modification: on every exposure, and on the order itself if it is open. -/
structure ModifiedWithin (limits : RiskTracker) (orderId : ℤ) (openOrders : Dict ℤ OeConfig)
    (positionTracker : PositionTracker) : Prop where
  exposures : ExposuresWithin limits.maxExposure openOrders positionTracker
  quantity : ∀ entry, openOrders.get? orderId = some entry →
    0 < entry.qty ∧ entry.qty ≤ limits.maxQtyPerOrder

/-- An entry with a new side, quantity and price, and its filled part kept. -/
def OeConfig.rewritten (side quantity price : ℤ) (entry : OeConfig) : OeConfig :=
  ⟨entry.symbol, side, quantity, price, entry.filled⟩

section

variable {openOrders : Dict ℤ OeConfig} {positionTracker : PositionTracker} {orderId : ℤ}
  {entry entry' : OeConfig}

/-- A rewritten order has its new quantity left, less what was filled, on its new side. -/
theorem left_rewritten (side quantity price : ℤ) (entry : OeConfig) (side' : Side) :
    left entry.symbol side' (entry.rewritten side quantity price) =
      if side = side'.value then quantity - entry.filled else 0 := by
  unfold left OeConfig.rewritten
  simp only [true_and]

/-- An order of another symbol has nothing left of this one. -/
theorem left_of_ne {symbol : ℤ} (h : entry.symbol ≠ symbol) (side : Side) :
    left symbol side entry = 0 :=
  if_neg fun hsame ↦ h hsame.1

/-- **Rewriting an entry** stays within the limits exactly when there is room. -/
theorem modifiedWithin_rewrite_iff {limits : RiskTracker}
    (hwithin : ExposuresWithin limits.maxExposure openOrders positionTracker)
    (hentry : openOrders.get? orderId = some entry) (side quantity price : ℤ) :
    ModifiedWithin limits orderId
        (openOrders.insert orderId (entry.rewritten side quantity price)) positionTracker ↔
      Room limits openOrders positionTracker entry side quantity := by
  have hbuy : ∀ symbol position,
      buyExposure symbol (openOrders.insert orderId (entry.rewritten side quantity price))
        position = buyExposure symbol openOrders position - left symbol .buy entry +
          left symbol .buy (entry.rewritten side quantity price) := by
    intro symbol position
    unfold buyExposure
    rw [outstanding_rewrite hentry]
    omega
  have hsell : ∀ symbol position,
      sellExposure symbol (openOrders.insert orderId (entry.rewritten side quantity price))
        position = sellExposure symbol openOrders position - left symbol .sell entry +
          left symbol .sell (entry.rewritten side quantity price) := by
    intro symbol position
    unfold sellExposure
    rw [outstanding_rewrite hentry]
    omega
  constructor
  -- only the symbol of the entry says anything about the room
  · rintro ⟨hexposures, hquantity⟩
    obtain ⟨hpos, hle⟩ := hquantity _ (openOrders.get?_insert_self orderId _)
    obtain ⟨hbuy_le, hsell_le⟩ := hexposures entry.symbol
    rw [hbuy, left_rewritten] at hbuy_le
    rw [hsell, left_rewritten] at hsell_le
    exact ⟨hpos, hle, hbuy_le, hsell_le⟩
  · rintro ⟨hpos, hle, hbuy_le, hsell_le⟩
    refine ⟨fun symbol ↦ ?_, fun entry' hentry' ↦ ?_⟩
    · rw [hbuy, hsell]
      by_cases hsymbol : entry.symbol = symbol
      · subst hsymbol
        rw [left_rewritten, left_rewritten]
        exact ⟨hbuy_le, hsell_le⟩
      -- no other symbol is affected
      · have hother : ∀ side', left symbol side' (entry.rewritten side quantity price) = 0 :=
          left_of_ne hsymbol
        rw [left_of_ne hsymbol, left_of_ne hsymbol, hother, hother, sub_zero, add_zero, sub_zero,
          add_zero]
        exact hwithin symbol
    · rw [Dict.get?_insert_self] at hentry'
      cases hentry'
      exact ⟨hpos, hle⟩

end

/-! ### Fills on the way -/

section

variable {limits : RiskTracker} {openOrders openOrders' : Dict ℤ OeConfig}
  {positionTracker positionTracker' : PositionTracker} {entry : OeConfig} {m : OrderFill}
  {side quantity : ℤ}

/-- Exposures that have only come down leave room as it is. -/
theorem Room.mono (h : Room limits openOrders positionTracker entry side quantity)
    (hbuy : buyExposure entry.symbol openOrders' (positionTracker'.getPosition entry.symbol) ≤
      buyExposure entry.symbol openOrders (positionTracker.getPosition entry.symbol))
    (hsell : sellExposure entry.symbol openOrders' (positionTracker'.getPosition entry.symbol) ≤
      sellExposure entry.symbol openOrders (positionTracker.getPosition entry.symbol)) :
    Room limits openOrders' positionTracker' entry side quantity := by
  have hbuy_le := h.buy_le
  have hsell_le := h.sell_le
  exact ⟨h.quantity_pos, h.quantity_le, by omega, by omega⟩

/-- The room of an order survives its own fills. -/
theorem Room.fill (h : Room limits openOrders positionTracker entry side quantity)
    (hcovered : Covered limits.maxExposure openOrders positionTracker)
    (hentry : openOrders.get? m.orderId = some entry)
    (hfits : entry.filled + m.quantity ≤ entry.qty)
    (hposition : ∀ symbol, positionTracker'.getPosition symbol =
      positionTracker.getPosition symbol +
        if symbol = entry.symbol then entry.signed m.quantity else 0) :
    Room limits (openOrders.insert m.orderId (filledBy m entry)) positionTracker'
      (filledBy m entry) side quantity := by
  have hsound := hcovered.sound _ _ hentry
  have hne : Side.sell.value ≠ Side.buy.value := by decide
  obtain ⟨hbuy, hsell⟩ := exposures_fill hsound hentry hposition entry.symbol
  have hcovered_buy := hcovered.buy_le entry.symbol
  have hcovered_sell := hcovered.sell_le entry.symbol
  have hbuy_le := h.buy_le
  have hsell_le := h.sell_le
  refine ⟨h.quantity_pos, h.quantity_le, ?_, ?_⟩
  -- a fill moves as much into the position as it takes from what is left
  · show buyExposure entry.symbol _ (positionTracker'.getPosition entry.symbol) -
      left entry.symbol .buy (filledBy m entry) +
      (if side = Side.buy.value then quantity - (entry.filled + m.quantity) else 0) ≤ _
    rw [hbuy, left_filledBy]
    unfold left at hbuy_le ⊢
    rcases hsound.side with hside | hside
    · simp only [hside, hne.symm, and_true, and_false, if_true, if_false] at hbuy_le ⊢
      split at hbuy_le <;> omega
    · simp only [hside, hne, and_true, and_false, if_true, if_false] at hbuy_le ⊢
      split at hbuy_le <;> omega
  · show sellExposure entry.symbol _ (positionTracker'.getPosition entry.symbol) -
      left entry.symbol .sell (filledBy m entry) +
      (if side = Side.sell.value then quantity - (entry.filled + m.quantity) else 0) ≤ _
    rw [hsell, left_filledBy]
    unfold left at hsell_le ⊢
    rcases hsound.side with hside | hside
    · simp only [hside, hne.symm, and_true, and_false, if_true, if_false] at hsell_le ⊢
      split at hsell_le <;> omega
    · simp only [hside, hne, and_true, and_false, if_true, if_false] at hsell_le ⊢
      split at hsell_le <;> omega

/-- Whatever happens to other orders and to itself, an order has room as long as it is open. -/
structure Roomy (limits : RiskTracker) (orderId side quantity : ℤ) (openOrders : Dict ℤ OeConfig)
    (positionTracker : PositionTracker) : Prop where
  covered : Covered limits.maxExposure openOrders positionTracker
  room : ∀ entry, openOrders.get? orderId = some entry →
    Room limits openOrders positionTracker entry side quantity

theorem Roomy.erase {orderId : ℤ} (h : Roomy limits orderId side quantity openOrders
      positionTracker) (orderId' : ℤ) :
    Roomy limits orderId side quantity (openOrders.erase orderId') positionTracker := by
  refine ⟨h.covered.erase orderId', fun entry hentry ↦ ?_⟩
  rw [Dict.get?_erase] at hentry
  split at hentry
  · cases hentry
  · obtain ⟨hbuy, hsell⟩ := exposures_erase h.covered.sound orderId' entry.symbol
      (positionTracker.getPosition entry.symbol)
    exact (h.room entry hentry).mono hbuy hsell

/-- A fill takes as much room as it gives back. -/
theorem Roomy.fill {orderId : ℤ} (h : Roomy limits orderId side quantity openOrders
      positionTracker) (hentry : openOrders.get? m.orderId = some entry)
    (hfits : entry.filled + m.quantity ≤ entry.qty)
    (hposition : ∀ symbol, positionTracker'.getPosition symbol =
      positionTracker.getPosition symbol +
        if symbol = entry.symbol then entry.signed m.quantity else 0) :
    Roomy limits orderId side quantity (openOrders.insert m.orderId (filledBy m entry))
      positionTracker' := by
  refine ⟨h.covered.fill hentry hfits hposition, fun entry' hentry' ↦ ?_⟩
  rw [Dict.get?_insert] at hentry'
  split at hentry'
  -- its own fill
  · rename_i hown
    cases hentry'
    rw [hown] at h
    exact (h.room entry hentry).fill h.covered hentry hfits hposition
  -- the fill of another order only lowers the exposures
  · obtain ⟨hbuy, hsell⟩ := exposures_fill (h.covered.sound _ _ hentry) hentry hposition
      entry'.symbol
    refine (h.room entry' hentry').mono ?_ ?_
    · rw [hbuy]
      split <;> omega
    · rw [hsell]
      split <;> omega

end

/-! ### What a modification keeps -/

namespace OrderEntryClient

section

variable {c₀ c c' : OrderEntryClient}

/-- `modify_order`, up to where it looks at its first response. -/
def handleModify (orderId side quantity price : ℤ) : ClientM (List OeResponse) := do
  let header ← makeHeader .modifyOrder ModifyOrder.SIZE
  nameOf "Side" Side.ofValue? side
  let data ← packed (ModifyOrder.pack ⟨header, orderId, side, quantity, price⟩)
  let responses ← exchange header.seqNum orderId data
  processResponses responses
  pure responses

/-- What is left then. -/
def settleAll (orderId side quantity price : ℤ) (responses : List OeResponse)
    (c : OrderEntryClient) : OrderEntryClient :=
  match responses with
  | [] => c
  | first :: _ => c.settleModify orderId side quantity price first

/-- **The modification of an open order** is to handle the responses, and to settle. -/
theorem modifyOrder_eq {orderId : ℤ} (hopen : c.openOrders.contains orderId = true)
    (side quantity price : ℤ) :
    modifyOrder orderId side quantity price c =
      (do
        let responses ← handleModify orderId side quantity price
        modify (settleAll orderId side quantity price responses)
        pure responses : ClientM _) c := by
  unfold modifyOrder handleModify
  rw [Method.bind_ok (Method.get_apply c), if_pos hopen]
  simp only [bind_assoc, pure_bind]
  refine congrFun (bind_congr fun header ↦ bind_congr fun _ ↦ bind_congr fun data ↦
    bind_congr fun responses ↦ bind_congr fun _ ↦ ?_) c
  rcases responses with - | ⟨first, rest⟩
  · rfl
  · rfl

/-- What requests keep, a modify keeps up to its last step. -/
theorem KeptByRequests.handleModify {I : OrderEntryClient → Prop}
    (h : KeptByRequests (fun _ ↦ True) I) (orderId side quantity price : ℤ) :
    Method.Keeps I (handleModify orderId side quantity price) := by
  intro c hc
  have htriple : Method.Keeps (With I c.record.batches)
      (OrderEntryClient.handleModify orderId side quantity price) := by
    refine (h.makeHeader _ _).bind fun header ↦ (keeps_nameOf _ _ _).bind fun _ ↦
      Method.keeps_iff_triple.2 ?_
    generalize ModifyOrder.pack ⟨header, orderId, side, quantity, price⟩ = packet
    exact h.request (h.processResponses fun _ _ ↦ trivial)
      (fun responses ↦ Method.triple_pure responses fun _ hc ↦ hc) (fun _ hc ↦ hc)
      (fun _ _ ↦ trivial) header.seqNum orderId
  exact (htriple c ⟨hc, rfl⟩).1

/-- The limits, in a state of the client. -/
def WithinAfterModify (orderId : ℤ) (c : OrderEntryClient) : Prop :=
  ModifiedWithin c.riskTracker orderId c.openOrders c.positionTracker

/-- An order that is open is rewritten. -/
theorem rewriteEntry_of_get? {entry : OeConfig} {orderId : ℤ}
    (h : c.openOrders.get? orderId = some entry) (side quantity price : ℤ) :
    c.rewriteEntry orderId side quantity price =
      { c with openOrders :=
          c.openOrders.insert orderId (entry.rewritten side quantity price) }.note
        (.modified orderId entry (entry.rewritten side quantity price)) := by
  unfold rewriteEntry
  rw [h]
  rfl

/-- A request that books nothing and removes nothing leaves orders and positions as they are. -/
theorem keptByRequests_unmoved (d : Dict ℤ OeConfig) (t : PositionTracker) :
    KeptByRequests (fun _ ↦ True)
      (Meanwhile (fun n ↦ ¬ n.Moves) (fun d' t' ↦ d' = d ∧ t' = t) c₀) :=
  keptByRequests_meanwhile (fun _ _ _ hP ↦ absurd trivial hP)
    fun _ _ _ _ _ _ hP ↦ absurd trivial hP

/-- A request whose fills fit leaves an order its room. -/
theorem keptByRequests_roomy (limits : RiskTracker) (orderId side quantity : ℤ) :
    KeptByRequests (fun _ ↦ True)
      (Meanwhile Note.Fits (Roomy limits orderId side quantity) c₀) := by
  refine keptByRequests_meanwhile (fun orderId' _ _ _ hroomy ↦ hroomy.erase orderId') ?_
  intro m entry flags d t t' hfits hget hroomy hposition
  have hfilled := hroomy.fill hget hfits hposition
  split
  -- the last fill of an order: as if it were booked and the order then removed
  · have herased := hfilled.erase m.orderId
    rwa [Dict.erase_insert_self] at herased
  · exact hfilled

/-- The exposures are within the limit, and the order has the quantity it had. -/
structure Steady (limit orderId qty : ℤ) (openOrders : Dict ℤ OeConfig)
    (positionTracker : PositionTracker) : Prop where
  covered : Covered limit openOrders positionTracker
  qty_eq : ∀ entry, openOrders.get? orderId = some entry → entry.qty = qty

/-- A close leaves the order as it is, or drops it. -/
theorem Steady.erase {limit orderId qty : ℤ} {d : Dict ℤ OeConfig} {t : PositionTracker}
    (h : Steady limit orderId qty d t) (orderId' : ℤ) :
    Steady limit orderId qty (d.erase orderId') t := by
  refine ⟨h.covered.erase orderId', fun entry hentry ↦ ?_⟩
  rw [Dict.get?_erase] at hentry
  split at hentry
  · cases hentry
  · exact h.qty_eq entry hentry

/-- What the limits say of the client before the call. -/
theorem Steady.start {limit orderId : ℤ} {d : Dict ℤ OeConfig} {t : PositionTracker}
    {entry : OeConfig} (h : Covered limit d t) (hentry : d.get? orderId = some entry) :
    Steady limit orderId entry.qty d t := by
  refine ⟨h, fun entry' hentry' ↦ ?_⟩
  rw [hentry] at hentry'
  cases hentry'
  rfl

theorem Steady.exposuresWithin {limit orderId qty : ℤ} {d : Dict ℤ OeConfig} {t : PositionTracker}
    (h : Steady limit orderId qty d t) : ExposuresWithin limit d t := h.covered.exposuresWithin

/-- A request whose fills fit keeps the exposures within the limit, and changes no quantity. -/
theorem keptByRequests_steady (limit orderId qty : ℤ) :
    KeptByRequests (fun _ ↦ True) (Meanwhile Note.Fits (Steady limit orderId qty) c₀) := by
  refine keptByRequests_meanwhile (fun orderId' _ _ _ hsteady ↦ hsteady.erase orderId') ?_
  intro m entry flags d t t' hfits hget hsteady hposition
  have hfilled : Steady limit orderId qty (d.insert m.orderId (filledBy m entry)) t' := by
    refine ⟨hsteady.covered.fill hget hfits hposition, fun entry' hentry' ↦ ?_⟩
    rw [Dict.get?_insert] at hentry'
    split at hentry'
    · rename_i hown
      cases hentry'
      exact hsteady.qty_eq entry (hown ▸ hget)
    · exact hsteady.qty_eq entry' hentry'
  split
  -- the last fill of an order: as if it were booked and the order then removed
  · have herased := hfilled.erase m.orderId
    rwa [Dict.erase_insert_self] at herased
  · exact hfilled

/-- An order that has the quantity it had is within the limits if it was, or has left. -/
theorem Steady.modifiedWithin_iff {limits : RiskTracker} {orderId qty : ℤ} {d : Dict ℤ OeConfig}
    {t : PositionTracker} (h : Steady limits.maxExposure orderId qty d t) :
    ModifiedWithin limits orderId d t ↔
      (d.contains orderId = true → 0 < qty ∧ qty ≤ limits.maxQtyPerOrder) := by
  constructor
  · intro hwithin hopen
    obtain ⟨entry, hentry⟩ := Dict.contains_eq_true_iff.1 hopen
    have hquantity := hwithin.quantity entry hentry
    rwa [h.qty_eq entry hentry] at hquantity
  · intro hquantity
    refine ⟨h.exposuresWithin, fun entry hentry ↦ ?_⟩
    rw [h.qty_eq entry hentry]
    exact hquantity (Dict.contains_eq_true_iff.2 ⟨entry, hentry⟩)

/-- **Rewriting the entry** stays within the limits exactly if there is room for the order as it is
by then, or the order has left. -/
theorem withinAfterModify_rewriteEntry_iff
    (h : ExposuresWithin c.riskTracker.maxExposure c.openOrders c.positionTracker)
    (orderId side quantity price : ℤ) :
    (c.rewriteEntry orderId side quantity price).WithinAfterModify orderId ↔
      ∀ entry, c.openOrders.get? orderId = some entry →
        Room c.riskTracker c.openOrders c.positionTracker entry side quantity := by
  rcases hentry : c.openOrders.get? orderId with - | entry
  -- nothing is rewritten
  · have hsame : c.rewriteEntry orderId side quantity price = c := by
      unfold rewriteEntry
      rw [hentry]
    rw [hsame]
    refine iff_of_true ⟨h, fun entry hentry' ↦ ?_⟩ fun entry hentry' ↦ (nomatch hentry')
    rw [hentry] at hentry'
    cases hentry'
  · rw [rewriteEntry_of_get? hentry]
    refine (modifiedWithin_rewrite_iff h hentry side quantity price).trans
      ⟨fun hroom entry' heq ↦ ?_, fun hroom ↦ hroom entry rfl⟩
    cases heq
    exact hroom

/-- Whatever the first response is, if it is not the acknowledgement: nothing is rewritten. -/
theorem steady_settleAll {limit orderId side quantity price qty : ℤ} {responses : List OeResponse}
    (hfirst : ∀ m rest, responses ≠ .ack m :: rest)
    (h : Steady limit orderId qty c.openOrders c.positionTracker) :
    let after := c.settleAll orderId side quantity price responses
    Steady limit orderId qty after.openOrders after.positionTracker ∧
      after.riskTracker = c.riskTracker := by
  have hpop : Steady limit orderId qty (c.popOrder orderId).openOrders
      (c.popOrder orderId).positionTracker ∧
        (c.popOrder orderId).riskTracker = c.riskTracker := by
    obtain ⟨hopen, hposition⟩ := openOrders_popOrder orderId c
    rw [hopen, hposition]
    refine ⟨h.erase orderId, ?_⟩
    unfold popOrder
    split
    · rfl
    · rfl
  rcases responses with - | ⟨first, rest⟩
  · exact ⟨h, rfl⟩
  · show Steady limit orderId qty (c.settleModify orderId side quantity price first).openOrders
      (c.settleModify orderId side quantity price first).positionTracker ∧
        (c.settleModify orderId side quantity price first).riskTracker = c.riskTracker
    unfold settleModify
    cases first with
    | ack m => exact absurd rfl (hfirst m rest)
    | closed m => exact hpop
    | reject m =>
      dsimp only
      split
      · exact hpop
      · exact ⟨h, rfl⟩
    | _ => exact ⟨h, rfl⟩

/-- What settling notes comes on top. -/
theorem since_settleAll (orderId side quantity price : ℤ) (responses : List OeResponse)
    (c : OrderEntryClient) :
    c.record.trace <+: (c.settleAll orderId side quantity price responses).record.trace := by
  have hpop : c.record.trace <+: (c.popOrder orderId).record.trace := by
    unfold popOrder
    split
    · exact List.prefix_append _ _
    · exact List.prefix_rfl
  have hrewrite : c.record.trace <+:
      (c.rewriteEntry orderId side quantity price).record.trace := by
    unfold rewriteEntry
    split
    · exact List.prefix_rfl
    · exact List.prefix_append _ _
  rcases responses with - | ⟨first, rest⟩
  · exact List.prefix_rfl
  · unfold settleAll settleModify
    cases first with
    | ack m => exact hrewrite
    | closed m => exact hpop
    | reject m =>
      dsimp only
      split
      · exact hpop
      · exact List.prefix_rfl
    | _ => exact List.prefix_rfl

/-- Sound entries with the exposures within a limit. -/
theorem covered_of_exposuresWithin
    (hwithin : ExposuresWithin c.riskTracker.maxExposure c.openOrders c.positionTracker)
    (hsound : ∀ orderId entry, c.openOrders.get? orderId = some entry → entry.Sound) :
    Covered c.riskTracker.maxExposure c.openOrders c.positionTracker :=
  ⟨hsound, fun symbol ↦ (hwithin symbol).1, fun symbol ↦ (hwithin symbol).2⟩

/-- What the handling of the responses keeps, if fills fit, up to where the first is looked at. -/
theorem holds_handleModify {Q : Dict ℤ OeConfig → PositionTracker → Prop} {P : Note → Prop}
    (hkept : KeptByRequests (fun _ ↦ True) (Meanwhile P Q c))
    (hQ : Q c.openOrders c.positionTracker) (orderId side quantity price : ℤ)
    (responses : List OeResponse) :
    let c₁ := (handleModify orderId side quantity price).after c
    (∀ n ∈ notedSince c (c₁.settleAll orderId side quantity price responses), P n) →
      Q c₁.openOrders c₁.positionTracker ∧ c₁.riskTracker = c.riskTracker := by
  intro c₁ hnoted
  have hmeanwhile : Meanwhile P Q c c₁ :=
    hkept.handleModify orderId side quantity price c (.refl hQ)
  refine ⟨hmeanwhile.holds fun n hn ↦ hnoted n ?_, hmeanwhile.riskTracker⟩
  exact notedSince_mono (since_settleAll orderId side quantity price responses c₁) hn

/-- **Acknowledged by the first response**, the entry is rewritten. -/
theorem withinAfterModify_acked {orderId side quantity price : ℤ} {entry : OeConfig} {m : OrderAck}
    {rest : List OeResponse}
    (hwithin : ExposuresWithin c.riskTracker.maxExposure c.openOrders c.positionTracker)
    (hentry : c.openOrders.get? orderId = some entry) :
    let c₁ := (handleModify orderId side quantity price).after c
    let after := c₁.settleAll orderId side quantity price (.ack m :: rest)
    ((∀ n ∈ notedSince c after, ¬ n.Moves) → (after.WithinAfterModify orderId ↔
      Room c.riskTracker c.openOrders c.positionTracker entry side quantity)) ∧
    ((∀ orderId entry, c.openOrders.get? orderId = some entry → entry.Sound) →
      (∀ n ∈ notedSince c after, n.Fits) →
      (after.WithinAfterModify orderId ↔ ∀ entry', c₁.openOrders.get? orderId = some entry' →
        Room c₁.riskTracker c₁.openOrders c₁.positionTracker entry' side quantity) ∧
      (Room c.riskTracker c.openOrders c.positionTracker entry side quantity →
        after.WithinAfterModify orderId)) := by
  intro c₁ after
  refine ⟨fun hquiet ↦ ?_, fun hsound hfits ↦ ?_⟩
  -- nothing has moved: the entry that is rewritten is the one at the start
  · obtain ⟨⟨horders, hpositions⟩, hrisk⟩ := holds_handleModify
      (keptByRequests_unmoved c.openOrders c.positionTracker) ⟨rfl, rfl⟩ orderId side quantity price
      (.ack m :: rest) hquiet
    show (c₁.rewriteEntry orderId side quantity price).WithinAfterModify orderId ↔ _
    rw [withinAfterModify_rewriteEntry_iff (by rw [horders, hpositions, hrisk]; exact hwithin),
      horders, hpositions, hrisk]
    constructor
    · exact fun hroom ↦ hroom entry hentry
    · intro hroom entry' hentry'
      rw [hentry] at hentry'
      cases hentry'
      exact hroom
  · have hcovered := covered_of_exposuresWithin hwithin hsound
    obtain ⟨hsteady, hrisk⟩ := holds_handleModify
      (keptByRequests_steady c.riskTracker.maxExposure orderId entry.qty)
      (.start hcovered hentry) orderId side quantity price (.ack m :: rest) hfits
    have hiff := withinAfterModify_rewriteEntry_iff (by rw [hrisk]; exact hsteady.exposuresWithin)
      orderId side quantity price
    refine ⟨hiff, fun hroom ↦ hiff.2 fun entry' hentry' ↦ ?_⟩
    have hroomy : Roomy c.riskTracker orderId side quantity c.openOrders c.positionTracker := by
      refine ⟨hcovered, fun entry' hentry' ↦ ?_⟩
      rw [hentry] at hentry'
      cases hentry'
      exact hroom
    obtain ⟨hroomy₁, -⟩ := holds_handleModify
      (keptByRequests_roomy c.riskTracker orderId side quantity) hroomy orderId side quantity price
      (.ack m :: rest) hfits
    rw [hrisk]
    exact hroomy₁.room entry' hentry'

/-- **Otherwise** the order is as it was, or has left. -/
theorem withinAfterModify_not_acked {orderId side quantity price : ℤ} {entry : OeConfig}
    {responses : List OeResponse} (hfirst : ∀ m rest, responses ≠ .ack m :: rest)
    (hwithin : ExposuresWithin c.riskTracker.maxExposure c.openOrders c.positionTracker)
    (hentry : c.openOrders.get? orderId = some entry)
    (hsound : ∀ orderId entry, c.openOrders.get? orderId = some entry → entry.Sound) :
    let after := ((handleModify orderId side quantity price).after c).settleAll orderId side
      quantity price responses
    (∀ n ∈ notedSince c after, n.Fits) →
      (after.WithinAfterModify orderId ↔ (after.openOrders.contains orderId = true →
        0 < entry.qty ∧ entry.qty ≤ c.riskTracker.maxQtyPerOrder)) := by
  intro after hfits
  obtain ⟨hsteady, hrisk⟩ := holds_handleModify
    (keptByRequests_steady c.riskTracker.maxExposure orderId entry.qty)
    (.start (covered_of_exposuresWithin hwithin hsound) hentry) orderId side quantity price
    responses hfits
  obtain ⟨hsteady', hrisk'⟩ := steady_settleAll hfirst hsteady
  show ModifiedWithin after.riskTracker orderId after.openOrders after.positionTracker ↔ _
  rw [hrisk'.trans hrisk]
  exact hsteady'.modifiedWithin_iff

/-- **A modification respects the limits** exactly when there is room for it in the state in which
the entry is rewritten.

* Acknowledged by the first response, the entry is rewritten as the last thing. If nothing has moved
  until then, the room is that before the call. If something has, and fills fit, it is that of the
  order as it is by then, if it is still open; and room before the call is enough.
* Otherwise nothing is rewritten, and what is asked of the order is asked of it as it was. -/
theorem modifyOrder_within_iff {orderId : ℤ} {entry : OeConfig}
    (hwithin : ExposuresWithin c.riskTracker.maxExposure c.openOrders c.positionTracker)
    (hentry : c.openOrders.get? orderId = some entry) (side quantity price : ℤ) :
    let after := (modifyOrder orderId side quantity price).after c
    let sound := ∀ orderId entry, c.openOrders.get? orderId = some entry → entry.Sound
    let fits := ∀ n ∈ notedSince c after, n.Fits
    let room := Room c.riskTracker c.openOrders c.positionTracker entry side quantity
    (∀ m rest c₁, handleModify orderId side quantity price c = .ok (.ack m :: rest) c₁ →
      ((∀ n ∈ notedSince c after, ¬ n.Moves) → (after.WithinAfterModify orderId ↔ room)) ∧
      (sound → fits →
        (after.WithinAfterModify orderId ↔ ∀ entry', c₁.openOrders.get? orderId = some entry' →
          Room c₁.riskTracker c₁.openOrders c₁.positionTracker entry' side quantity) ∧
        (room → after.WithinAfterModify orderId))) ∧
    ((∀ m rest c₁, handleModify orderId side quantity price c ≠ .ok (.ack m :: rest) c₁) →
      sound → fits →
      (after.WithinAfterModify orderId ↔ (after.openOrders.contains orderId = true →
        0 < entry.qty ∧ entry.qty ≤ c.riskTracker.maxQtyPerOrder))) := by
  intro after sound fits room
  have hrun := modifyOrder_eq (Dict.contains_eq_true_iff.2 ⟨entry, hentry⟩) side quantity price
  have hafter (responses : List OeResponse) (c₁ : OrderEntryClient)
      (hhandled : handleModify orderId side quantity price c = .ok responses c₁) :
      after = c₁.settleAll orderId side quantity price responses := by
    show Method.after _ _ = _
    rw [Method.after_congr hrun, Method.after_bind_of_ok hhandled]
    rfl
  refine ⟨fun m rest c₁ hhandled ↦ ?_, fun hfirst hsound hfits ↦ ?_⟩
  · obtain rfl : c₁ = (handleModify orderId side quantity price).after c :=
      (Method.after_ok hhandled).symm
    have hsettled := hafter _ _ hhandled
    revert fits
    rw [hsettled]
    exact withinAfterModify_acked hwithin hentry
  · rcases hhandled : handleModify orderId side quantity price c with ⟨responses, c₁⟩ | ⟨e, c₁⟩
    · have hsettled := hafter _ _ hhandled
      have hnot : ∀ m rest, responses ≠ .ack m :: rest :=
        fun m rest heq ↦ hfirst m rest c₁ (heq ▸ hhandled)
      obtain rfl : c₁ = (handleModify orderId side quantity price).after c :=
        (Method.after_ok hhandled).symm
      revert fits
      rw [hsettled]
      exact fun hfits ↦ withinAfterModify_not_acked hnot hwithin hentry hsound hfits
    -- the handling raises: as if nothing had come back
    · have hsettled : after = c₁.settleAll orderId side quantity price [] := by
        show Method.after _ _ = _
        rw [Method.after_congr hrun, Method.after_error (Method.bind_error hhandled)]
        rfl
      obtain rfl : c₁ = (handleModify orderId side quantity price).after c :=
        (Method.after_error hhandled).symm
      revert fits
      rw [hsettled]
      exact fun hfits ↦ withinAfterModify_not_acked (fun m rest heq ↦ by cases heq) hwithin hentry
        hsound hfits

/-- A buy of two, acknowledged. -/
def buyOpen (incoming : List Arrival) : OrderEntryClient :=
  runCalls [.newOrder 0 1 5 1 2 100 0] (init [] [] 7 (-20000) 10 (some (.connected
    (Arrival.burst [.ack ⟨⟨40, 101, 1, 1, 1, 7⟩, 1, 900, 2, 100⟩] ++ [.pause] ++ incoming))) [])

/-- The acknowledgement of its modification. -/
def modifyAck (seqNum : ℕ) : OeResponse := .ack ⟨⟨40, 101, 1, seqNum, 2, 7⟩, 1, 900, 2, 100⟩

/-- A fill of one of the two. -/
def oneFill : OeResponse := .fill ⟨⟨33, 103, 1, 2, 1, 7⟩, 1, 1, 100, 1⟩

/-- The one open order is within the limits. -/
theorem covered_buyOpen {incoming : List Arrival}
    (hfits : ∀ p ∈ (buyOpen incoming).record.trace, p.note.Fits) :
    let c := buyOpen incoming
    Covered c.riskTracker.maxExposure c.openOrders c.positionTracker := by
  have hran : Ran False True _ [] (buyOpen incoming) :=
    ran_runCalls (by decide) (fun _ _ _ ↦ trivial) rfl
  have hkept := hran.steps.kept (kept_init ..)
  intro c
  show Covered c.riskTracker.maxExposure _ _
  rw [hkept.limit_eq]
  exact (hkept.covered hfits).1

/-- There is room for five, and **behind a late fill** even a thousand are within the limits, since
the order is left as it is. -/
theorem modifyOrder_within_iff_buyOpen :
    let quiet := buyOpen (Arrival.burst [modifyAck 2] ++ [.pause])
    let behind := buyOpen (Arrival.burst [oneFill, modifyAck 3] ++ [.pause])
    ((modifyOrder 1 1 5 100).after quiet).WithinAfterModify 1 ∧
      ((modifyOrder 1 1 1000 100).after behind).WithinAfterModify 1 := by
  intro quiet behind
  have hquiet : Covered quiet.riskTracker.maxExposure quiet.openOrders quiet.positionTracker :=
    covered_buyOpen (by decide +kernel)
  have hbehind : Covered behind.riskTracker.maxExposure behind.openOrders behind.positionTracker :=
    covered_buyOpen (by decide +kernel)
  have hentry : quiet.openOrders.get? 1 = some ⟨5, 1, 2, 100, 0⟩ := by decide +kernel
  have hentry' : behind.openOrders.get? 1 = some ⟨5, 1, 2, 100, 0⟩ := by decide +kernel
  obtain ⟨hacked, -⟩ := modifyOrder_within_iff hquiet.exposuresWithin hentry 1 5 100
  obtain ⟨-, hnot⟩ := modifyOrder_within_iff hbehind.exposuresWithin hentry' 1 1000 100
  obtain ⟨c₁, hhandled⟩ := Method.value?_eq_some_iff.1 (show
    (handleModify 1 1 5 100).value? quiet = some [modifyAck 2] by decide +kernel)
  obtain ⟨c₂, hhandled'⟩ := Method.value?_eq_some_iff.1 (show
    (handleModify 1 1 1000 100).value? behind = some [oneFill, modifyAck 3] by decide +kernel)
  constructor
  · obtain ⟨hiff, -⟩ := hacked _ _ _ hhandled
    refine (hiff (by decide +kernel)).2 ⟨by decide, by decide +kernel, ?_, ?_⟩
    · decide +kernel
    · decide +kernel
  · refine (hnot (fun m rest c₃ hrun ↦ ?_) hbehind.sound (by decide +kernel)).2 fun _ ↦
      ⟨by decide, by decide +kernel⟩
    rw [hhandled'] at hrun
    cases hrun

/-- **A buy of two becomes a buy of 1000**: the exposure is 1000, and the limit 8. -/
theorem modifyOrder_exceeds :
    ¬ ∀ (c c' : OrderEntryClient) (orderId side quantity price : ℤ) (m : OrderAck)
      (rest : List OeResponse),
      ExposuresWithin c.riskTracker.maxExposure c.openOrders c.positionTracker →
      modifyOrder orderId side quantity price c = .ok (.ack m :: rest) c' →
      c'.WithinAfterModify orderId := by
  intro h
  let c := buyOpen (Arrival.burst [modifyAck 2] ++ [.pause])
  have hcovered : Covered c.riskTracker.maxExposure c.openOrders c.positionTracker :=
    covered_buyOpen (by decide +kernel)
  obtain ⟨c', hrun⟩ := Method.value?_eq_some_iff.1 (show
    (modifyOrder 1 1 1000 100).value? c = some [modifyAck 2] by decide +kernel)
  have hwithin := h _ _ 1 1 1000 100 _ [] hcovered.exposuresWithin hrun
  have hbuy := (hwithin.exposures 5).1
  rw [← Method.after_ok hrun] at hbuy
  revert hbuy
  decide +kernel

end

end OrderEntryClient

end HftTrading.OrderEntry
