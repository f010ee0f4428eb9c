import HftTrading.Lib.RoundHalfEven
import Mathlib.Data.Rat.Floor

/-!
# Integers as doubles

A double holds 53 significant bits. An integer of no more than that is held as it is; a larger one
is rounded to a multiple of the power of two that leaves 53 bits, ties to even, and is an integer
again. So sums and products of doubles that hold integers can be followed on the integers, one
rounding for each operation, as long as nothing overflows, which takes more than a thousand bits.

## What it is for

A program that adds up integers in a float is exact for as long as its sums and summands are small,
and says nothing when they no longer are. With `roundDouble` in the model at the places where the
program computes, exactness is a hypothesis on the values of a run, and what a run comes to outside
that hypothesis can still be evaluated.

`IsDouble` says that nothing is lost. It holds of every integer of at most 53 bits, by the first
branch of `roundDouble`, and of larger ones that end in enough zeros; the first odd integer beyond
is rounded away.
-/

/-- The double nearest to an integer. -/
def roundDouble (n : ℤ) : ℤ :=
  if n.natAbs ≤ 2 ^ 53 then n
  else
    let ulp : ℤ := 2 ^ (n.natAbs.log2 - 52)
    roundHalfEven ((n : ℚ) / ulp) * ulp

/-- A double holds this integer exactly. -/
def IsDouble (n : ℤ) : Prop := roundDouble n = n

instance : DecidablePred IsDouble := fun n ↦ inferInstanceAs (Decidable (roundDouble n = n))

/-- Beyond 53 bits the odd integers are no doubles any more. -/
example : IsDouble (2 ^ 53) ∧ ¬ IsDouble (2 ^ 53 + 1) ∧ IsDouble (2 ^ 53 + 2) := by decide +kernel
