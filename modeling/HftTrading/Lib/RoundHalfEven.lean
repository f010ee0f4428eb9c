import Mathlib.Algebra.Order.Floor.Ring
import Mathlib.Tactic.Linarith

/-!
# Rounding half to even

The integer nearest to a number, and the even one of the two when they are equally near. It lies
between the floor and the next integer, and it is monotone.
-/

variable {α : Type*} [Field α] [LinearOrder α] [FloorRing α]

/-- Round to the nearest integer, ties to even. -/
def roundHalfEven (x : α) : ℤ :=
  if Int.fract x < 1 / 2 then ⌊x⌋
  else if 1 / 2 < Int.fract x then ⌊x⌋ + 1
  else if Even ⌊x⌋ then ⌊x⌋
  else ⌊x⌋ + 1

/-- It does not go below the floor. -/
theorem floor_le_roundHalfEven (x : α) : ⌊x⌋ ≤ roundHalfEven x := by
  unfold roundHalfEven
  split_ifs <;> omega

/-- It does not go above the next integer. -/
theorem roundHalfEven_le_floor_add_one (x : α) : roundHalfEven x ≤ ⌊x⌋ + 1 := by
  unfold roundHalfEven
  split_ifs <;> omega

variable [IsStrictOrderedRing α]

/-- **A larger number** does not round to less. -/
theorem roundHalfEven_mono {x y : α} (hxy : x ≤ y) : roundHalfEven x ≤ roundHalfEven y := by
  rcases (Int.floor_le_floor hxy).lt_or_eq with hlt | heq
  · calc
      roundHalfEven x ≤ ⌊x⌋ + 1 := roundHalfEven_le_floor_add_one x
      _ ≤ ⌊y⌋ := hlt
      _ ≤ roundHalfEven y := floor_le_roundHalfEven y
  -- between the same two integers the fractions decide
  · have hfract : Int.fract x ≤ Int.fract y := by
      unfold Int.fract
      rw [heq]
      exact sub_le_sub_right hxy _
    unfold roundHalfEven
    rw [heq]
    split_ifs <;> first | omega | (exfalso; linarith)
