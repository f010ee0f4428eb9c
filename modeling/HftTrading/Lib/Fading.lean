import Mathlib.Algebra.Order.Field.Basic
import Mathlib.Tactic.Linarith

/-!
# Quantities that fade

A quantity that is added to now and then, and that fades: by a factor each time, and to nothing once
it has come below a floor. Without the floor it would be the sum of what has been added, each
summand faded since. The floor drops a little of that, and may do so again and again.

What it drops stays small all the same, if each summand is well above the floor (`Near.bounds`): by
the time the quantity comes below the floor again, what had been dropped before has faded as much as
the last summand has. The bound does not depend on the factor.
-/

/-- How a quantity fades. -/
structure Fading (𝕜 : Type*) [Field 𝕜] [LinearOrder 𝕜] where
  factor : 𝕜
  floor : 𝕜
  factor_nonneg : 0 ≤ factor
  factor_le_one : factor ≤ 1
  floor_nonneg : 0 ≤ floor

namespace Fading

variable {𝕜 : Type*} [Field 𝕜] [LinearOrder 𝕜] (F : Fading 𝕜)

/-- Fade once. -/
def fade (x : 𝕜) : 𝕜 := if x * F.factor < F.floor then 0 else x * F.factor

/-- **What is left is near the sum** `s` of all that has been added and faded, where each summand is
`least` at the least: while there is anything left, by a share of it. -/
structure Near (least s x : 𝕜) : Prop where
  nonneg : 0 ≤ x
  le : x ≤ s
  gap : (least - F.floor) * (s - x) ≤ F.floor * least
  gap_of_ne : x ≠ 0 → (least - F.floor) * (s - x) ≤ F.floor * x

variable {F} [IsStrictOrderedRing 𝕜] {least s x : 𝕜}

/-- To begin with nothing has been added and nothing dropped. -/
theorem near_zero (hleast : F.floor < least) : F.Near least 0 0 where
  nonneg := le_rfl
  le := le_rfl
  gap := by
    rw [sub_self, mul_zero]
    exact mul_nonneg F.floor_nonneg (F.floor_nonneg.trans hleast.le)
  gap_of_ne h := absurd rfl h

/-- **Adding** keeps it near. -/
theorem Near.add (h : F.Near least s x) (hleast : F.floor < least) {q : 𝕜} (hq : least ≤ q) :
    F.Near least (s + q) (x + q) := by
  have hpos : 0 ≤ q := (F.floor_nonneg.trans hleast.le).trans hq
  have hgap : s + q - (x + q) = s - x := add_sub_add_right_eq_sub s x q
  refine ⟨add_nonneg h.nonneg hpos, add_le_add_left h.le q, hgap ▸ h.gap, fun _ ↦ ?_⟩
  rw [hgap]
  have hle : least ≤ x + q := hq.trans (le_add_of_nonneg_left h.nonneg)
  exact h.gap.trans (mul_le_mul_of_nonneg_left hle F.floor_nonneg)

/-- **Fading** keeps it near, whether the floor drops it or not. -/
theorem Near.fade (h : F.Near least s x) (hleast : F.floor < least) :
    F.Near least (s * F.factor) (F.fade x) := by
  have hroom : 0 < least - F.floor := sub_pos.2 hleast
  have hgap : 0 ≤ s - x := sub_nonneg.2 h.le
  -- what has been dropped fades with it
  have hfaded : (least - F.floor) * (s * F.factor - x * F.factor) ≤
      (least - F.floor) * (s - x) := by
    refine mul_le_mul_of_nonneg_left ?_ hroom.le
    rw [← sub_mul]
    exact mul_le_of_le_one_right hgap F.factor_le_one
  have hle : x * F.factor ≤ s * F.factor := mul_le_mul_of_nonneg_right h.le F.factor_nonneg
  have hnonneg : 0 ≤ x * F.factor := mul_nonneg h.nonneg F.factor_nonneg
  unfold Fading.fade
  split
  · rename_i hdropped
    refine ⟨le_rfl, hnonneg.trans hle, ?_, fun hne ↦ absurd rfl hne⟩
    by_cases hx : x = 0
    · rw [hx, zero_mul] at hfaded
      exact hfaded.trans (hx ▸ h.gap)
    · have hshare := mul_le_mul_of_nonneg_right (h.gap_of_ne hx) F.factor_nonneg
      have hdrop := mul_le_mul_of_nonneg_left hdropped.le (F.floor_nonneg.trans hleast.le)
      nlinarith
  · refine ⟨hnonneg, hle, hfaded.trans h.gap, fun hne ↦ ?_⟩
    have hx : x ≠ 0 := fun hx ↦ hne (by rw [hx, zero_mul])
    have hshare := mul_le_mul_of_nonneg_right (h.gap_of_ne hx) F.factor_nonneg
    linarith

/-- **How much the floor has dropped**, whatever has been added and however often it has faded. -/
theorem Near.bounds (h : F.Near least s x) (hleast : F.floor < least) :
    x ≤ s ∧ s ≤ x + F.floor * least / (least - F.floor) := by
  have hroom : 0 < least - F.floor := sub_pos.2 hleast
  refine ⟨h.le, ?_⟩
  rw [← sub_le_iff_le_add', le_div_iff₀ hroom, mul_comm]
  exact h.gap

end Fading
