import Mathlib.Data.List.DropRight

/-!
# Bounded deques

A deque of a maximal length: what is appended to a full one pushes out the oldest item. So filled
from a list it holds the last items of the list (`items_foldl_append`).

Where what is wanted of the items is never lost again once it has begun, as with everything that is
recent enough, the bound and the wish commute: what is wanted of the last items is the last of what
is wanted (`filter_rtake`).
-/

/-- A deque of a maximal length, the oldest item in front. -/
@[ext]
structure Deque (α : Type*) (maxlen : ℕ) where
  items : List α
  length_le : items.length ≤ maxlen

namespace Deque

variable {α β : Type*} {n : ℕ}

/-- The last `n` items are at most `n`. -/
theorem length_rtake_le (l : List α) (n : ℕ) : (l.rtake n).length ≤ n := by
  rw [List.rtake, List.length_drop]
  omega

/-- An empty deque. -/
def empty : Deque α n := ⟨[], Nat.zero_le _⟩

/-- Append an item, and push out the oldest one if there is no room. -/
def append (d : Deque α n) (x : α) : Deque α n := ⟨(d.items ++ [x]).rtake n, length_rtake_le _ _⟩

/-- The last items of a few more of the last items. -/
theorem rtake_rtake_succ (l : List α) (n : ℕ) : (l.rtake (n + 1)).rtake n = l.rtake n := by
  unfold List.rtake
  rw [List.drop_drop, List.length_drop]
  congr 1
  omega

/-- Of the last items and one more, the last ones. -/
theorem rtake_rtake_concat (l : List α) (x : α) (n : ℕ) :
    (l.rtake n ++ [x]).rtake n = (l ++ [x]).rtake n := by
  cases n with
  | zero => rw [List.rtake_zero, List.rtake_zero]
  | succ n => rw [List.rtake_concat_succ, List.rtake_concat_succ, rtake_rtake_succ]

/-- A deque that holds the last items of a list holds, with one more appended, those of the longer
list. -/
theorem items_append {d : Deque α n} {l : List α} (h : d.items = l.rtake n) (x : α) :
    (d.append x).items = (l ++ [x]).rtake n := by
  show (d.items ++ [x]).rtake n = _
  rw [h, rtake_rtake_concat]

/-- **A deque that is filled from a list** holds its last items. -/
theorem items_foldl_append (l : List α) :
    (l.foldl append (empty : Deque α n)).items = l.rtake n := by
  induction l using List.reverseRecOn with
  | nil => exact (List.rtake_nil n).symm
  | append_singleton l x ih =>
    rw [List.foldl_append]
    exact items_append ih x

/-- Taking the last items does not look at them. -/
theorem map_rtake (f : α → β) (l : List α) (n : ℕ) : (l.rtake n).map f = (l.map f).rtake n := by
  rw [List.rtake, List.rtake, List.map_drop, List.length_map]

/-- **What is wanted of the last items**, where wanting does not end once it has begun. -/
theorem filter_rtake {p : α → Bool} {l : List α} (h : l.Pairwise fun a b ↦ p a → p b) (n : ℕ) :
    (l.rtake n).filter p = (l.filter p).rtake n := by
  induction l using List.reverseRecOn generalizing n with
  | nil => rw [List.rtake_nil, List.filter_nil, List.rtake_nil]
  | append_singleton l x ih =>
    obtain ⟨hl, -, hx⟩ := List.pairwise_append.1 h
    rcases hwanted : p x with - | -
    -- the last one is not wanted, so none is
    · have hnone : (l ++ [x]).filter p = [] := by
        refine List.filter_eq_nil_iff.2 fun a ha hpa ↦ ?_
        rcases List.mem_append.1 ha with ha | ha
        · exact absurd (hx a ha x (List.mem_singleton_self x) hpa) (by simp [hwanted])
        · rw [List.mem_singleton.1 ha, hwanted] at hpa
          cases hpa
      have hsublist : (((l ++ [x]).rtake n).filter p).Sublist ((l ++ [x]).filter p) :=
        (List.drop_sublist _ _).filter p
      rw [hnone] at hsublist ⊢
      rw [List.rtake_nil]
      exact List.sublist_nil.1 hsublist
    · cases n with
      | zero => rw [List.rtake_zero, List.rtake_zero, List.filter_nil]
      | succ n =>
        have hlast : [x].filter p = [x] := List.filter_eq_self.2 (by simpa using hwanted)
        rw [List.rtake_concat_succ, List.filter_append, List.filter_append, hlast,
          List.rtake_concat_succ, ih hl]

end Deque
