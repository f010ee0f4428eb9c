import Mathlib.Data.List.Basic
import Mathlib.Order.Basic

/-!
# Accounting for a numbered stream

Messages numbered `1, 2, 3, …` are taken in increasing order, and numbers can be skipped.
`Accounted` says that every number of an open interval has been either taken or skipped, never
both, and nothing outside it: no number is taken twice, and none goes missing without being counted
as skipped.

`Accounted.take` is the one step: taking a number at or above the bound skips what lies between.

What counts as skipped is a parameter. An account in which nothing is skipped is one of a stream
without gaps; one in which whatever is not taken is skipped says nothing. It is for the user to put
in what a program reports, and then the account says that it reports every gap and no other.
-/

/-- Each number strictly between `lo` and `hi` is exactly one of taken and skipped; the taken ones
were taken in increasing order. -/
structure Accounted (lo hi : ℕ) (taken : List ℕ) (skipped : ℕ → Prop) : Prop where
  lo_lt : lo < hi
  increasing : taken.Pairwise (· < ·)
  taken_range : ∀ n ∈ taken, lo < n ∧ n < hi
  skipped_range : ∀ n, skipped n → lo < n ∧ n < hi
  mem_iff : ∀ n, lo < n → n < hi → (n ∈ taken ↔ ¬ skipped n)

namespace Accounted

variable {lo hi : ℕ} {taken : List ℕ} {skipped : ℕ → Prop}

/-- Nothing lies between consecutive numbers. -/
theorem nil (lo : ℕ) (h : ∀ n, ¬ skipped n) : Accounted lo (lo + 1) [] skipped where
  lo_lt := Nat.lt_succ_self lo
  increasing := .nil
  taken_range n hn := absurd hn List.not_mem_nil
  skipped_range n hn := absurd hn (h n)
  mem_iff n hlo hhi := by omega

/-- **One step.** Taking a number at or above the bound skips what lies between. -/
theorem take (h : Accounted lo hi taken skipped) {m : ℕ} (hm : hi ≤ m) {skipped' : ℕ → Prop}
    (hskip : ∀ n, skipped' n ↔ skipped n ∨ (hi ≤ n ∧ n < m)) :
    Accounted lo (m + 1) (taken ++ [m]) skipped' where
  lo_lt := by
    have := h.lo_lt
    omega
  increasing := by
    rw [List.pairwise_append]
    refine ⟨h.increasing, List.pairwise_singleton _ m, fun a ha b hb ↦ ?_⟩
    have hlt := (h.taken_range a ha).2
    rw [List.mem_singleton.1 hb]
    omega
  taken_range n hn := by
    have hlo := h.lo_lt
    rcases List.mem_append.1 hn with hn | hn
    · have hrange := h.taken_range n hn
      omega
    · rw [List.mem_singleton.1 hn]
      omega
  skipped_range n hn := by
    have hlo := h.lo_lt
    rcases (hskip n).1 hn with hn | hn
    · have hrange := h.skipped_range n hn
      omega
    · omega
  mem_iff n hlo hhi := by
    rw [List.mem_append, List.mem_singleton, hskip n]
    by_cases hn : n < hi
    · rw [h.mem_iff n hlo hn]
      constructor
      · rintro (hnot | rfl)
        · rintro (hs | hs)
          · exact hnot hs
          · omega
        · omega
      · intro hnot
        exact Or.inl fun hs ↦ hnot (Or.inl hs)
    -- at or above the old bound: only `m` was taken
    · have hnot : n ∉ taken := fun hmem ↦ hn (h.taken_range n hmem).2
      have hnot' : ¬ skipped n := fun hs ↦ hn (h.skipped_range n hs).2
      constructor
      · rintro (hmem | rfl)
        · exact absurd hmem hnot
        · rintro (hs | hs)
          · exact hnot' hs
          · omega
      · intro hs
        refine Or.inr ?_
        by_contra hne
        exact hs (Or.inr (by omega))

end Accounted
