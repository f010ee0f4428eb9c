import Mathlib.Data.List.Sort
import Mathlib.Data.List.TakeWhile
import Mathlib.Order.Defs.LinearOrder

/-!
# Min-heaps

A min-heap seen through the operations a client of a binary heap has: push an element, look at the
smallest one, pop it. Those operations cannot tell two heaps with the same multiset of elements
apart, so a heap is kept as the increasing list of its elements, with that order carried as a field;
repeated elements stay repeated.

`popWhile` is the lazy clean-up loop "while the top is stale, pop it" (`popWhile_eq`). What a
client needs of it is that it drops stale elements only (`mem_popWhile_of_not`), and that
afterwards the top is the least live element (`peek?_popWhile_eq_some`), or there is none left
(`peek?_popWhile_eq_none_iff`).
-/

/-- A min-heap, as the increasing list of its elements. -/
structure MinHeap (α : Type*) [LinearOrder α] where
  /-- The elements, smallest first. -/
  elems : List α
  /-- They are in increasing order. -/
  sorted : elems.Pairwise (· ≤ ·)

namespace MinHeap

variable {α : Type*} [LinearOrder α]

/-- A heap is its elements. -/
theorem ext_elems {h h' : MinHeap α} (heq : h.elems = h'.elems) : h = h' := by
  cases h; cases h'; cases heq; rfl

instance : DecidableEq (MinHeap α) := fun h h' ↦
  decidable_of_iff (h.elems = h'.elems) ⟨ext_elems, fun e ↦ e ▸ rfl⟩

instance : Membership α (MinHeap α) := ⟨fun h x ↦ x ∈ h.elems⟩

/-- The heap without elements. -/
def empty : MinHeap α := ⟨[], List.Pairwise.nil⟩

/-- Add an element. -/
def push (h : MinHeap α) (x : α) : MinHeap α :=
  ⟨h.elems.orderedInsert (· ≤ ·) x, h.sorted.orderedInsert x h.elems⟩

/-- The smallest element. -/
def peek? (h : MinHeap α) : Option α := h.elems.head?

/-- Remove the smallest element. -/
def pop (h : MinHeap α) : MinHeap α := ⟨h.elems.tail, h.sorted.tail⟩

/-- Pop as long as the smallest element satisfies `stale`. -/
def popWhile (h : MinHeap α) (stale : α → Bool) : MinHeap α :=
  ⟨h.elems.dropWhile stale, h.sorted.sublist (List.dropWhile_sublist stale)⟩

/-- **`popWhile` is the loop** that looks at the top, pops it if it is stale, and goes on. -/
theorem popWhile_eq (h : MinHeap α) (stale : α → Bool) :
    h.popWhile stale =
      match h.peek? with
      | some x => if stale x then h.pop.popWhile stale else h
      | none => h := by
  obtain ⟨l, hl⟩ := h
  cases l with
  | nil => rfl
  | cons x l =>
    refine ext_elems ?_
    show (x :: l).dropWhile stale = _
    rw [List.dropWhile_cons]
    by_cases hx : stale x <;> simp [peek?, pop, popWhile, hx]

/-- A pushed element is there, and nothing else is new. -/
@[simp] theorem mem_push {h : MinHeap α} {x y : α} : y ∈ h.push x ↔ y = x ∨ y ∈ h :=
  List.mem_orderedInsert (· ≤ ·)

/-- Pushing keeps the elements apart just when the pushed one is not there yet. -/
theorem nodup_push {h : MinHeap α} {x : α} : (h.push x).elems.Nodup ↔ x ∉ h ∧ h.elems.Nodup :=
  (List.perm_orderedInsert (· ≤ ·) x h.elems).nodup_iff.trans List.nodup_cons

/-- The clean-up only takes elements out. -/
theorem popWhile_sublist (h : MinHeap α) (stale : α → Bool) :
    (h.popWhile stale).elems.Sublist h.elems :=
  List.dropWhile_sublist stale

/-- The clean-up adds nothing. -/
theorem mem_of_mem_popWhile {h : MinHeap α} {stale : α → Bool} {x : α}
    (hx : x ∈ h.popWhile stale) : x ∈ h :=
  List.dropWhile_subset stale hx

/-- Only stale elements are dropped. -/
theorem mem_popWhile_of_not {h : MinHeap α} {stale : α → Bool} {x : α} (hx : x ∈ h)
    (hlive : stale x = false) : x ∈ h.popWhile stale := by
  have hmem : x ∈ h.elems.takeWhile stale ++ h.elems.dropWhile stale := by
    rw [List.takeWhile_append_dropWhile]
    exact hx
  rcases List.mem_append.1 hmem with h' | h'
  · rw [List.mem_takeWhile_imp h'] at hlive
    exact absurd hlive (by simp)
  · exact h'

/-- The top is at most every element. -/
theorem peek?_le {h : MinHeap α} {m x : α} (hm : h.peek? = some m) (hx : x ∈ h) : m ≤ x := by
  obtain ⟨l, hl⟩ := h
  cases l with
  | nil => exact absurd hx List.not_mem_nil
  | cons y l =>
    obtain rfl : y = m := by simpa [peek?] using hm
    rcases List.mem_cons.1 hx with rfl | hx'
    · exact le_refl _
    · exact (List.pairwise_cons.1 hl).1 x hx'

/-- After the clean-up the top is not stale. -/
theorem peek?_popWhile_live {h : MinHeap α} {stale : α → Bool} {m : α}
    (hm : (h.popWhile stale).peek? = some m) : stale m = false := by
  have hhead : (h.elems.dropWhile stale).head? = some m := hm
  have hnot := List.head?_dropWhile_not stale h.elems
  rw [hhead] at hnot
  simpa using hnot

/-- **After the clean-up the top is the least live element.** -/
theorem peek?_popWhile_eq_some {h : MinHeap α} {stale : α → Bool} {m : α}
    (hm : (h.popWhile stale).peek? = some m) :
    m ∈ h ∧ stale m = false ∧ ∀ x ∈ h, stale x = false → m ≤ x :=
  ⟨mem_of_mem_popWhile (List.mem_of_head? hm), peek?_popWhile_live hm,
    fun _ hx hlive ↦ peek?_le hm (mem_popWhile_of_not hx hlive)⟩

/-- After the clean-up nothing is left exactly when nothing was live. -/
theorem peek?_popWhile_eq_none_iff {h : MinHeap α} {stale : α → Bool} :
    (h.popWhile stale).peek? = none ↔ ∀ x ∈ h, stale x = true := by
  show (h.elems.dropWhile stale).head? = none ↔ _
  rw [List.head?_eq_none_iff, List.dropWhile_eq_nil_iff]
  exact Iff.rfl

end MinHeap
