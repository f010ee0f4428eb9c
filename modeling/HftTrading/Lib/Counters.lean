import Mathlib

/-!
# Numbers handed out by several counters

A family of counters, each starting at a number of its own; a call on one of them hands out its
number and moves it on by one.

## Order does not matter, up to order

What a sequence of calls hands out depends on the order of the calls only as far as the order of the
numbers goes. As a set it is, for each counter, the range from where it started, as long as it has
been called often (`mem_handOut_iff`). That is what makes collisions a question about ranges and not
about interleavings: **no number is handed out twice exactly when the ranges do not meet**
(`nodup_handOut_iff`).

Both directions are there. That disjoint ranges are enough is what one relies on; that they are
needed says that a scheme in which two ranges do meet hands out some number twice, in whatever order
the calls are made.

## What is not said

Nothing is said of how far the counters are apart. They start where they start, and a counter that
is called often enough comes to the start of the next one. Counters of the same start are allowed,
and so are counters that are never called: their ranges are empty and meet nothing.
-/

namespace Counters

variable {ι : Type*} [DecidableEq ι]

/-- The counters after a call on one of them. -/
def advance (next : ι → ℤ) (i : ι) : ι → ℤ := Function.update next i (next i + 1)

/-- What the counters hand out, called in this order. -/
def handOut (next : ι → ℤ) : List ι → List ℤ
  | [] => []
  | i :: calls => next i :: handOut (advance next i) calls

/-- What one of them hands out. -/
def range (next : ι → ℤ) (calls : List ι) (i : ι) : Set ℤ :=
  Set.Ico (next i) (next i + calls.count i)

variable {next : ι → ℤ} {i j : ι} {calls : List ι} {n : ℤ}

/-- Only the counter that is called moves. -/
theorem advance_apply (next : ι → ℤ) (i j : ι) :
    advance next i j = next j + if j = i then 1 else 0 := by
  unfold advance
  rw [Function.update_apply]
  split
  · rename_i h
    rw [h]
  · rw [add_zero]

/-- A first call adds the number that it hands out. -/
theorem mem_range_cons_iff :
    n ∈ range next (i :: calls) j ↔ (j = i ∧ n = next i) ∨ n ∈ range (advance next i) calls j := by
  unfold range
  rw [Set.mem_Ico, Set.mem_Ico, advance_apply, List.count_cons]
  by_cases h : j = i
  · subst h
    simp only [BEq.rfl, if_true, true_and]
    push_cast
    omega
  · have hne : (i == j) = false := beq_eq_false_iff_ne.2 fun hij ↦ h hij.symm
    simp only [hne, h, false_and, false_or, Bool.false_eq_true, if_false]
    push_cast
    omega

/-- A number is handed out if it is in the range of some counter: who asked when plays no part. -/
theorem mem_handOut_iff : n ∈ handOut next calls ↔ ∃ i, n ∈ range next calls i := by
  induction calls generalizing next with
  | nil => simp [handOut, range]
  | cons i calls ih =>
    rw [handOut, List.mem_cons, ih]
    simp only [mem_range_cons_iff, exists_or, exists_eq_left]

/-- **No number twice**: the ranges do not meet. -/
theorem nodup_handOut_iff : (handOut next calls).Nodup ↔
    ∀ i j, i ≠ j → Disjoint (range next calls i) (range next calls j) := by
  induction calls generalizing next with
  | nil => simp [handOut, range]
  | cons i calls ih =>
    rw [handOut, List.nodup_cons, mem_handOut_iff, ih]
    constructor
    · rintro ⟨hnew, hrest⟩ j k hne
      rw [Set.disjoint_left]
      intro n hj hk
      rcases mem_range_cons_iff.1 hj with ⟨rfl, rfl⟩ | hj' <;>
        rcases mem_range_cons_iff.1 hk with ⟨rfl, hn⟩ | hk'
      · exact hne rfl
      · exact hnew ⟨k, hk'⟩
      · exact hnew ⟨j, hn ▸ hj'⟩
      · exact Set.disjoint_left.1 (hrest j k hne) hj' hk'
    · intro h
      have hfirst : next i ∈ range next (i :: calls) i := mem_range_cons_iff.2 (Or.inl ⟨rfl, rfl⟩)
      refine ⟨?_, fun j k hne ↦ ?_⟩
      · rintro ⟨j, hj⟩
        by_cases hji : j = i
        -- its own next number is the one after
        · subst hji
          have hle := (Set.mem_Ico.1 hj).1
          rw [advance_apply, if_pos rfl] at hle
          omega
        · exact Set.disjoint_left.1 (h i j (Ne.symm hji)) hfirst (mem_range_cons_iff.2 (Or.inr hj))
      · exact (h j k hne).mono (fun n hn ↦ mem_range_cons_iff.2 (Or.inr hn))
          fun n hn ↦ mem_range_cons_iff.2 (Or.inr hn)

end Counters
