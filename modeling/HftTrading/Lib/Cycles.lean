import Mathlib.Data.List.Basic
import Mathlib.Data.List.Range

/-!
# A cyclic broadcast with losses

A sender sends one block of messages a cycle, again and again; a receiver gets what is left of that
after an arbitrary part of it has been dropped. `sent` is the whole of what goes out, each message
with the number of its cycle, so what a receiver gets is any `l <+ sent block n`.

The numbers are not on the wire: they are what statements about a receiver that is not told where a
cycle ends can speak of. A sublist keeps the order, so losses are arbitrary here and reordering is
excluded; a channel that can reorder would need `Perm` in place of `Sublist` and would lose the
second of the two facts below.

## The two facts

* Whatever was dropped, what is there of one cycle is a part of its block (`part_sublist`). It rests
  on the cycles being sent one after another, and on nothing else.
* If a block opens with a message that does not come up again in it, nothing of the cycle comes
  before that message (`eq_nil_of_concat_sublist`). So a receiver that waits for an opening message
  and counts from there on has, as long as the opening message is not itself lost, begun with the
  first message of the cycle that it has received at all.
-/

namespace Cycles

variable {α : Type*}

/-- Everything sent in `n` cycles. -/
def sent (block : ℕ → List α) (n : ℕ) : List (ℕ × α) :=
  (List.range n).flatMap fun c ↦ (block c).map fun a ↦ (c, a)

/-- What is there of a cycle. -/
def part (c : ℕ) (l : List (ℕ × α)) : List α :=
  l.filterMap fun x ↦ if x.1 = c then some x.2 else none

/-- What is there of a cycle in two stretches, one after the other. -/
theorem part_append (c : ℕ) (l l' : List (ℕ × α)) : part c (l ++ l') = part c l ++ part c l' :=
  List.filterMap_append

/-- All messages of one cycle are of that cycle. -/
theorem part_map_self (c : ℕ) (l : List α) : part c (l.map fun a ↦ (c, a)) = l := by
  simp [part, List.filterMap_map]

/-- They are of no other. -/
theorem part_map_of_ne {c c' : ℕ} (h : c' ≠ c) (l : List α) :
    part c (l.map fun a ↦ (c', a)) = [] := by
  simp [part, List.filterMap_map, h]

/-- One cycle more appends its block. -/
theorem sent_succ (block : ℕ → List α) (n : ℕ) :
    sent block (n + 1) = sent block n ++ (block n).map fun a ↦ (n, a) := by
  simp [sent, List.range_succ]

/-- Nothing is sent of a cycle that has not begun. -/
theorem part_sent_of_le {block : ℕ → List α} {n c : ℕ} (h : n ≤ c) :
    part c (sent block n) = [] := by
  induction n with
  | zero => rfl
  | succ n ih =>
    rw [sent_succ, part_append, ih (by omega), part_map_of_ne (by omega), List.nil_append]

/-- Of what has been sent, a cycle has no more than its block; it has less only before it has begun.
-/
theorem part_sent_sublist (block : ℕ → List α) (n c : ℕ) :
    (part c (sent block n)).Sublist (block c) := by
  induction n with
  | zero => exact List.nil_sublist _
  | succ n ih =>
    rw [sent_succ, part_append]
    rcases eq_or_ne n c with rfl | hne
    · rw [part_sent_of_le le_rfl, part_map_self, List.nil_append]
    · rwa [part_map_of_ne hne, List.append_nil]

/-- **What is received of a cycle is a part of its block.** -/
theorem part_sublist {block : ℕ → List α} {n : ℕ} {l : List (ℕ × α)} (h : l.Sublist (sent block n))
    (c : ℕ) : (part c l).Sublist (block c) :=
  (h.filterMap _).trans (part_sent_sublist block n c)

/-- The opening message of a block comes first. -/
theorem eq_nil_of_concat_sublist {first a : α} {rest pre : List α}
    (h : (pre ++ [a]).Sublist (first :: rest)) (ha : a ∉ rest) : pre = [] ∧ a = first := by
  rcases List.sublist_cons_iff.1 h with hrest | ⟨pre', hpre, hrest⟩
  · exact absurd (hrest.subset (List.mem_append_right _ (List.mem_singleton_self a))) ha
  · rcases pre with - | ⟨b, pre⟩
    · exact ⟨rfl, (List.cons.inj hpre).1⟩
    · obtain ⟨-, rfl⟩ := List.cons.inj hpre
      exact absurd (hrest.subset (List.mem_append_right _ (List.mem_singleton_self a))) ha

end Cycles
