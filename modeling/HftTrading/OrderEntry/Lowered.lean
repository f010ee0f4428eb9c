import HftTrading.OrderEntry.Exposure
import HftTrading.OrderEntry.Meanwhile

/-!
# Exposures that have been lowered for good

While no order is placed, no exposure grows: a close drops what was left of an order, and a fill
moves as much into the position as it takes from what is outstanding on its side, so that it lowers
the exposure of the other side. What has been lowered once therefore stays lower, whatever is
requested meanwhile and however deep the kill switch nests, as long as fills fit their orders.

Here this is said of the exposures without one order (`apart`), which is going to be taken out
again. The fills of that order itself need care: they raise the exposure of its side by what they
move into the position, since the order's own remainder does not count. But then the exposure of the
other side has come down, for good (`Lowered.fill`). So for the comparison with a state before the
order was there, it does not matter whether something happens to that order or to another one
(`keptByRequests_lowered`).

## What the invariant carries

* `Apart`: every entry is sound, the order is on its side if it is open, and the exposures of the
  other side, without it, are at most what they were. It holds from the start and is kept by closes
  and fills (`Apart.erase`, `Apart.fill`).
* `Lowered`: besides, one of the exposures is below what it was. A fill of any quantity brings it
  about (`Apart.lowered_of_fill`), and so does the close of another order of which something is left
  (`Apart.lowered_of_erase`).
-/

namespace HftTrading.OrderEntry

open OrderEntryClient (filledBy)

/-- The other side. -/
def Side.opposite : Side → Side
  | .buy => .sell
  | .sell => .buy

namespace ExposureTracker

/-- Maps that agree as functions have the same outstanding quantities. -/
theorem outstanding_congr {d d' : Dict ℤ OeConfig} (h : ∀ orderId, d.get? orderId = d'.get? orderId)
    (symbol : ℤ) (side : Side) : outstanding symbol side d = outstanding symbol side d' := by
  unfold outstanding
  exact (Dict.values_map_perm fun orderId ↦ by rw [h]).sum_eq

/-- A position, as it counts for a side. -/
def toward (side : Side) (position : ℤ) : ℤ :=
  match side with
  | .buy => position
  | .sell => -position

end ExposureTracker

open ExposureTracker

/-- The exposures without an order: the position, and what the other open orders could add to it. -/
def apart (orderId : ℤ) (openOrders : Dict ℤ OeConfig) (positionTracker : PositionTracker)
    (symbol : ℤ) (side : Side) : ℤ :=
  toward side (positionTracker.getPosition symbol) +
    outstanding symbol side (openOrders.erase orderId)

section

variable {orderId : ℤ} {openOrders : Dict ℤ OeConfig}
  {positionTracker positionTracker' : PositionTracker} {entry : OeConfig} {m : OrderFill}

/-- An order that is not there does not count, on the buy side. -/
theorem apart_buy (h : openOrders.get? orderId = none) (positionTracker : PositionTracker)
    (symbol : ℤ) : apart orderId openOrders positionTracker symbol .buy =
      buyExposure symbol openOrders (positionTracker.getPosition symbol) := by
  unfold apart
  rw [Dict.erase_eq_self h]
  rfl

theorem apart_sell (h : openOrders.get? orderId = none) (positionTracker : PositionTracker)
    (symbol : ℤ) : apart orderId openOrders positionTracker symbol .sell =
      sellExposure symbol openOrders (positionTracker.getPosition symbol) := by
  unfold apart
  rw [Dict.erase_eq_self h]
  rfl

/-! ### Closes -/

/-- Whether the order itself is open does not matter. -/
theorem apart_erase_self (orderId : ℤ) (openOrders : Dict ℤ OeConfig)
    (positionTracker : PositionTracker) (symbol : ℤ) (side : Side) :
    apart orderId (openOrders.erase orderId) positionTracker symbol side =
      apart orderId openOrders positionTracker symbol side := by
  unfold apart
  rw [Dict.erase_eq_self (openOrders.get?_erase_self orderId)]

/-- Another order that leaves takes its remainder away. -/
theorem apart_erase (positionTracker : PositionTracker) {orderId' : ℤ}
    (hentry : openOrders.get? orderId' = some entry) (hne : orderId' ≠ orderId) (symbol : ℤ)
    (side : Side) :
    apart orderId (openOrders.erase orderId') positionTracker symbol side =
      apart orderId openOrders positionTracker symbol side - left symbol side entry := by
  have hentry' : (openOrders.erase orderId).get? orderId' = some entry := by
    rw [Dict.get?_erase_of_ne _ hne, hentry]
  have hcomm : outstanding symbol side ((openOrders.erase orderId').erase orderId) =
      outstanding symbol side ((openOrders.erase orderId).erase orderId') := by
    refine outstanding_congr (fun orderId'' ↦ ?_) symbol side
    simp only [Dict.get?_erase]
    split
    · split
      · rfl
      · rfl
    · rfl
  unfold apart
  rw [hcomm, outstanding_of_get? hentry']
  omega

/-! ### Fills -/

/-- What a fill does to the position, as it counts for either side. -/
theorem toward_signed {side : Side} (hside : entry.side = side.value) (position quantity : ℤ) :
    toward side (position + entry.signed quantity) = toward side position + quantity ∧
      toward side.opposite (position + entry.signed quantity) =
        toward side.opposite position - quantity := by
  have hne : Side.sell.value ≠ Side.buy.value := by decide
  unfold OeConfig.signed
  cases side with
  | buy =>
    rw [if_pos hside]
    exact ⟨rfl, neg_add' position quantity⟩
  | sell =>
    rw [if_neg (by rw [hside]; exact hne)]
    refine ⟨?_, rfl⟩
    show -(position + -quantity) = -position + quantity
    rw [neg_add, neg_neg]

theorem Side.value_injective : Function.Injective Side.value := by
  intro side side' h
  cases side with
  | buy =>
    cases side' with
    | buy => rfl
    | sell => exact absurd h (by decide)
  | sell =>
    cases side' with
    | buy => exact absurd h (by decide)
    | sell => rfl

theorem Side.value_opposite_ne (side : Side) : side.value ≠ side.opposite.value := by
  cases side with
  | buy => decide
  | sell => decide

/-- What is left of the others when an order fills: the fill is taken from its side. -/
theorem outstanding_fill {side : Side} (hside : entry.side = side.value)
    (hentry : openOrders.get? m.orderId = some entry) (hne : m.orderId ≠ orderId) (symbol : ℤ) :
    outstanding symbol side ((openOrders.insert m.orderId (filledBy m entry)).erase orderId) =
        outstanding symbol side (openOrders.erase orderId) -
          (if entry.symbol = symbol then (m.quantity : ℤ) else 0) ∧
      outstanding symbol side.opposite
          ((openOrders.insert m.orderId (filledBy m entry)).erase orderId) =
        outstanding symbol side.opposite (openOrders.erase orderId) := by
  have hentry' : (openOrders.erase orderId).get? m.orderId = some entry := by
    rw [Dict.get?_erase_of_ne _ hne, hentry]
  have hcomm (side' : Side) : outstanding symbol side'
      ((openOrders.insert m.orderId (filledBy m entry)).erase orderId) =
        outstanding symbol side'
          ((openOrders.erase orderId).insert m.orderId (filledBy m entry)) := by
    refine outstanding_congr (fun orderId' ↦ ?_) symbol side'
    simp only [Dict.get?_erase, Dict.get?_insert]
    split
    · rename_i hown
      rw [if_neg (hown ▸ hne.symm)]
    · rfl
  rw [hcomm, hcomm, outstanding_rewrite hentry', outstanding_rewrite hentry', left_filledBy,
    left_filledBy]
  simp only [hside, and_true, side.value_opposite_ne, and_false, if_false]
  constructor
  · omega
  · omega

/-- **A fill**, of whichever order, lowers the exposure of the other side by its quantity. -/
theorem apart_fill_opposite {side : Side} (hside : entry.side = side.value)
    (hentry : openOrders.get? m.orderId = some entry)
    (hposition : ∀ symbol, positionTracker'.getPosition symbol =
      positionTracker.getPosition symbol +
        if symbol = entry.symbol then entry.signed m.quantity else 0) (symbol : ℤ) :
    apart orderId (openOrders.insert m.orderId (filledBy m entry)) positionTracker' symbol
        side.opposite =
      apart orderId openOrders positionTracker symbol side.opposite -
        if symbol = entry.symbol then (m.quantity : ℤ) else 0 := by
  -- what is outstanding on that side, with the order or without it, is not affected
  have houtstanding : outstanding symbol side.opposite
      ((openOrders.insert m.orderId (filledBy m entry)).erase orderId) =
        outstanding symbol side.opposite (openOrders.erase orderId) := by
    by_cases hown : m.orderId = orderId
    · rw [hown, Dict.erase_insert_self]
    · exact (outstanding_fill hside hentry hown symbol).2
  unfold apart
  rw [houtstanding, hposition]
  split
  · rw [(toward_signed hside _ _).2]
    omega
  · rw [add_zero, sub_zero]

/-- On its own side a fill of another order changes nothing. -/
theorem apart_fill_other {side : Side} (hside : entry.side = side.value)
    (hentry : openOrders.get? m.orderId = some entry) (hne : m.orderId ≠ orderId)
    (hposition : ∀ symbol, positionTracker'.getPosition symbol =
      positionTracker.getPosition symbol +
        if symbol = entry.symbol then entry.signed m.quantity else 0) (symbol : ℤ) :
    apart orderId (openOrders.insert m.orderId (filledBy m entry)) positionTracker' symbol side =
      apart orderId openOrders positionTracker symbol side := by
  unfold apart
  rw [(outstanding_fill hside hentry hne symbol).1, hposition]
  by_cases hsymbol : symbol = entry.symbol
  · rw [if_pos hsymbol, if_pos hsymbol.symm, (toward_signed hside _ _).1]
    omega
  · rw [if_neg hsymbol, if_neg (Ne.symm hsymbol), add_zero, sub_zero]

/-- On its own side a fill of the order itself raises the exposure of the others. -/
theorem apart_fill_self {side : Side} (hside : entry.side = side.value)
    (hown : m.orderId = orderId)
    (hposition : ∀ symbol, positionTracker'.getPosition symbol =
      positionTracker.getPosition symbol +
        if symbol = entry.symbol then entry.signed m.quantity else 0) (symbol : ℤ) :
    apart orderId (openOrders.insert m.orderId (filledBy m entry)) positionTracker' symbol side =
      apart orderId openOrders positionTracker symbol side +
        if symbol = entry.symbol then (m.quantity : ℤ) else 0 := by
  unfold apart
  rw [hown, Dict.erase_insert_self, hposition]
  split
  · rw [(toward_signed hside _ _).1]
    omega
  · rw [add_zero, add_zero]

end

/-! ### The invariant -/

/-- **Nothing has been raised** since the exposures without this order were as given, but on the
order's own side. -/
structure Apart (orderId : ℤ) (own : Side) (base : ℤ → Side → ℤ) (openOrders : Dict ℤ OeConfig)
    (positionTracker : PositionTracker) : Prop where
  sound : ∀ orderId entry, openOrders.get? orderId = some entry → entry.Sound
  side_eq : ∀ entry, openOrders.get? orderId = some entry → entry.side = own.value
  opposite_le : ∀ symbol,
    apart orderId openOrders positionTracker symbol own.opposite ≤ base symbol own.opposite

/-- **Some exposure has been lowered** for good. -/
structure Lowered (orderId : ℤ) (own : Side) (base : ℤ → Side → ℤ) (openOrders : Dict ℤ OeConfig)
    (positionTracker : PositionTracker) : Prop
    extends Apart orderId own base openOrders positionTracker where
  lowered : ∃ symbol side, apart orderId openOrders positionTracker symbol side < base symbol side

section

variable {orderId orderId' : ℤ} {own : Side} {base : ℤ → Side → ℤ} {openOrders : Dict ℤ OeConfig}
  {positionTracker positionTracker' : PositionTracker} {entry : OeConfig} {m : OrderFill}

theorem Side.eq_or_eq_opposite (side side' : Side) : side = side' ∨ side = side'.opposite := by
  cases side with
  | buy =>
    cases side' with
    | buy => exact Or.inl rfl
    | sell => exact Or.inr rfl
  | sell =>
    cases side' with
    | buy => exact Or.inr rfl
    | sell => exact Or.inl rfl

/-- A sound entry is on one of them. -/
theorem OeConfig.Sound.exists_side (h : entry.Sound) : ∃ side : Side, entry.side = side.value :=
  h.side.elim (fun h ↦ ⟨.buy, h⟩) fun h ↦ ⟨.sell, h⟩

/-- An order that leaves raises nothing. -/
theorem apart_erase_le (hsound : ∀ orderId entry, openOrders.get? orderId = some entry →
      entry.Sound) (positionTracker : PositionTracker) (orderId orderId' symbol : ℤ) (side : Side) :
    apart orderId (openOrders.erase orderId') positionTracker symbol side ≤
      apart orderId openOrders positionTracker symbol side := by
  by_cases hown : orderId' = orderId
  · rw [hown, apart_erase_self]
  rcases hget : openOrders.get? orderId' with - | entry
  · rw [Dict.erase_eq_self hget]
  · rw [apart_erase positionTracker hget hown]
    have hleft : 0 ≤ left symbol side entry := left_nonneg (hsound orderId' entry hget).filled_le
    omega

theorem Apart.erase (h : Apart orderId own base openOrders positionTracker) (orderId' : ℤ) :
    Apart orderId own base (openOrders.erase orderId') positionTracker := by
  have hget : ∀ orderId'' entry, (openOrders.erase orderId').get? orderId'' = some entry →
      openOrders.get? orderId'' = some entry := by
    intro orderId'' entry hentry
    rw [Dict.get?_erase] at hentry
    split at hentry
    · cases hentry
    · exact hentry
  exact ⟨fun orderId'' entry hentry ↦ h.sound orderId'' entry (hget orderId'' entry hentry),
    fun entry hentry ↦ h.side_eq entry (hget orderId entry hentry),
    fun symbol ↦ (apart_erase_le h.sound _ _ _ _ _).trans (h.opposite_le symbol)⟩

/-- What has been lowered stays lower when an order closes. -/
theorem Lowered.erase (h : Lowered orderId own base openOrders positionTracker) (orderId' : ℤ) :
    Lowered orderId own base (openOrders.erase orderId') positionTracker := by
  obtain ⟨symbol, side, hlt⟩ := h.lowered
  exact ⟨h.toApart.erase orderId', symbol, side, (apart_erase_le h.sound _ _ _ _ _).trans_lt hlt⟩

/-- The close of another order of which something is left. -/
theorem Apart.lowered_of_erase (h : Apart orderId own base openOrders positionTracker)
    (hbase : ∀ symbol side,
      apart orderId openOrders positionTracker symbol side ≤ base symbol side)
    (hentry : openOrders.get? orderId' = some entry) (hne : orderId' ≠ orderId)
    (hleft : entry.filled ≠ entry.qty) :
    Lowered orderId own base (openOrders.erase orderId') positionTracker := by
  have hsound := h.sound orderId' entry hentry
  have hfilled := hsound.filled_le
  obtain ⟨side, hside⟩ := hsound.exists_side
  refine ⟨h.erase orderId', entry.symbol, side, ?_⟩
  have hle := hbase entry.symbol side
  rw [apart_erase positionTracker hentry hne]
  unfold left
  rw [if_pos ⟨rfl, hside⟩]
  omega

/-- A fill raises nothing, unless it is the order's own and on its side. -/
theorem Apart.fill_le (h : Apart orderId own base openOrders positionTracker)
    (hentry : openOrders.get? m.orderId = some entry)
    (hposition : ∀ symbol, positionTracker'.getPosition symbol =
      positionTracker.getPosition symbol +
        if symbol = entry.symbol then entry.signed m.quantity else 0) (symbol : ℤ) {side : Side}
    (hother : m.orderId = orderId → side ≠ own) :
    apart orderId (openOrders.insert m.orderId (filledBy m entry)) positionTracker' symbol side ≤
      apart orderId openOrders positionTracker symbol side := by
  obtain ⟨side', hside⟩ := (h.sound _ _ hentry).exists_side
  rcases side.eq_or_eq_opposite side' with rfl | rfl
  · have hne : m.orderId ≠ orderId := by
      intro hown
      have hvalue := h.side_eq entry (hown ▸ hentry)
      rw [hside] at hvalue
      exact hother hown (Side.value_injective hvalue)
    exact le_of_eq (apart_fill_other hside hentry hne hposition symbol)
  · rw [apart_fill_opposite hside hentry hposition]
    split
    · omega
    · omega

/-- A fill of any order, of as much as it has left. -/
theorem Apart.fill (h : Apart orderId own base openOrders positionTracker)
    (hentry : openOrders.get? m.orderId = some entry)
    (hfits : entry.filled + m.quantity ≤ entry.qty)
    (hposition : ∀ symbol, positionTracker'.getPosition symbol =
      positionTracker.getPosition symbol +
        if symbol = entry.symbol then entry.signed m.quantity else 0) :
    Apart orderId own base (openOrders.insert m.orderId (filledBy m entry)) positionTracker' := by
  have hsound := h.sound _ _ hentry
  have hne : own.opposite ≠ own := fun heq ↦ own.value_opposite_ne (by rw [heq])
  refine ⟨fun orderId' entry' hentry' ↦ ?_, fun entry' hentry' ↦ ?_, fun symbol ↦ ?_⟩
  · rw [Dict.get?_insert] at hentry'
    split at hentry'
    · cases hentry'
      exact ⟨hsound.side, hfits⟩
    · exact h.sound orderId' entry' hentry'
  · rw [Dict.get?_insert] at hentry'
    split at hentry'
    · rename_i hown
      cases hentry'
      exact h.side_eq entry (hown ▸ hentry)
    · exact h.side_eq entry' hentry'
  · exact (h.fill_le hentry hposition symbol fun _ ↦ hne).trans (h.opposite_le symbol)

/-- **A fill of some quantity** lowers the exposure of the other side, whichever order it is of. -/
theorem Apart.lowered_of_fill (h : Apart orderId own base openOrders positionTracker)
    (hbase : ∀ symbol side, m.orderId ≠ orderId →
      apart orderId openOrders positionTracker symbol side ≤ base symbol side)
    (hentry : openOrders.get? m.orderId = some entry)
    (hfits : entry.filled + m.quantity ≤ entry.qty) (hquantity : 0 < m.quantity)
    (hposition : ∀ symbol, positionTracker'.getPosition symbol =
      positionTracker.getPosition symbol +
        if symbol = entry.symbol then entry.signed m.quantity else 0) :
    Lowered orderId own base (openOrders.insert m.orderId (filledBy m entry)) positionTracker' := by
  obtain ⟨side, hside⟩ := (h.sound _ _ hentry).exists_side
  refine ⟨h.fill hentry hfits hposition, entry.symbol, side.opposite, ?_⟩
  have hle : apart orderId openOrders positionTracker entry.symbol side.opposite ≤
      base entry.symbol side.opposite := by
    by_cases hown : m.orderId = orderId
    · have hvalue := h.side_eq entry (hown ▸ hentry)
      rw [hside] at hvalue
      rw [Side.value_injective hvalue]
      exact h.opposite_le entry.symbol
    · exact hbase _ _ hown
  rw [apart_fill_opposite hside hentry hposition, if_pos rfl]
  omega

/-- What has been lowered stays lower when an order fills. -/
theorem Lowered.fill (h : Lowered orderId own base openOrders positionTracker)
    (hentry : openOrders.get? m.orderId = some entry)
    (hfits : entry.filled + m.quantity ≤ entry.qty)
    (hposition : ∀ symbol, positionTracker'.getPosition symbol =
      positionTracker.getPosition symbol +
        if symbol = entry.symbol then entry.signed m.quantity else 0) :
    Lowered orderId own base (openOrders.insert m.orderId (filledBy m entry)) positionTracker' := by
  by_cases hown : m.orderId = orderId ∧ 0 < m.quantity
  -- what it adds on its side, it takes from the other
  · exact h.toApart.lowered_of_fill (fun _ _ hne ↦ absurd hown.1 hne) hentry hfits hown.2 hposition
  · obtain ⟨symbol, side, hlt⟩ := h.lowered
    refine ⟨h.toApart.fill hentry hfits hposition, symbol, side, lt_of_le_of_lt ?_ hlt⟩
    by_cases hself : m.orderId = orderId
    -- an own fill of nothing
    · have hzero : m.quantity = 0 := by
        by_contra hpos
        exact hown ⟨hself, Nat.pos_of_ne_zero hpos⟩
      obtain ⟨side', hside⟩ := (h.sound _ _ hentry).exists_side
      rcases side.eq_or_eq_opposite side' with rfl | rfl
      · rw [apart_fill_self hside hself hposition, hzero, Nat.cast_zero, ite_self, add_zero]
      · rw [apart_fill_opposite hside hentry hposition, hzero, Nat.cast_zero, ite_self, sub_zero]
    · exact h.fill_le hentry hposition symbol fun hown ↦ absurd hown hself

end

/-- **What is lowered stays lowered**, whatever is requested, as long as fills fit. -/
theorem OrderEntryClient.keptByRequests_lowered (orderId : ℤ) (own : Side) (base : ℤ → Side → ℤ)
    (c₀ : OrderEntryClient) :
    KeptByRequests (fun _ ↦ True) (Meanwhile Note.Fits (Lowered orderId own base) c₀) := by
  refine keptByRequests_meanwhile (fun orderId' _ _ _ hlowered ↦ hlowered.erase orderId') ?_
  intro m entry flags d t t' hfits hget hlowered hposition
  have hfilled := hlowered.fill hget hfits hposition
  split
  -- the last fill of an order: as if it were booked and the order then removed
  · have herased := hfilled.erase m.orderId
    rwa [Dict.erase_insert_self] at herased
  · exact hfilled

end HftTrading.OrderEntry
