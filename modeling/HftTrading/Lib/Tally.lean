import Mathlib.Algebra.BigOperators.Group.List.Basic
import Mathlib.Tactic.Abel
import Mathlib.Data.Int.Basic

/-!
# Tallies: totals and counts per key

A collection is grouped by a key, and for each key that occurs its members' total weight and their
number are kept. `tally` is the value such an aggregate *should* have; the lemmas say how it moves
when one member joins (`tally_cons`), leaves (`tally_of_cons`) or changes its weight
(`tally_cons_of_key_eq`), so that an incrementally maintained aggregate can be checked against it
one update at a time.

A key without members has no entry at all, rather than an entry with count zero: that is what makes
"the aggregate has an entry at `k`" mean "some member has key `k`" (`tally_eq_none_iff`).
-/

namespace Tally

variable {β κ M : Type*} [DecidableEq κ] [AddCommGroup M]

/-- The entry of one key: the total weight and the number of its members. -/
@[ext] structure Entry (M : Type*) where
  /-- The sum of the members' weights. -/
  total : M
  /-- The number of members. -/
  count : ℤ
  deriving DecidableEq

/-- One more member of weight `w`. -/
def Entry.join (e : Option (Entry M)) (w : M) : Entry M :=
  match e with
  | none => ⟨w, 1⟩
  | some e => ⟨e.total + w, e.count + 1⟩

/-- The members of a collection with a given key. -/
def group (key : β → κ) (xs : List β) (k : κ) : List β := xs.filter fun x ↦ key x = k

/-- The total weight of the members with a given key. -/
def total (key : β → κ) (weight : β → M) (xs : List β) (k : κ) : M :=
  ((group key xs k).map weight).sum

/-- The tally of a collection at a key. -/
def tally (key : β → κ) (weight : β → M) (xs : List β) (k : κ) : Option (Entry M) :=
  if group key xs k = [] then none
  else some ⟨total key weight xs k, (group key xs k).length⟩

variable {key : β → κ} {weight : β → M}

/-- A member joins its own group. -/
theorem group_cons_of_eq {x : β} {xs : List β} {k : κ} (h : key x = k) :
    group key (x :: xs) k = x :: group key xs k := by
  simp [group, h]

/-- It joins no other. -/
theorem group_cons_of_ne {x : β} {xs : List β} {k : κ} (h : key x ≠ k) :
    group key (x :: xs) k = group key xs k := by
  simp [group, h]

/-- Its weight goes to the total of its key. -/
theorem total_cons_of_eq {x : β} {xs : List β} {k : κ} (h : key x = k) :
    total key weight (x :: xs) k = weight x + total key weight xs k := by
  rw [total, group_cons_of_eq h, List.map_cons, List.sum_cons, total]

/-- The tally does not depend on the order of the collection. -/
theorem tally_perm {xs ys : List β} (h : xs.Perm ys) (k : κ) :
    tally key weight xs k = tally key weight ys k := by
  have hg : (group key xs k).Perm (group key ys k) := h.filter _
  unfold tally total
  rw [(hg.map weight).sum_eq, hg.length_eq]
  have hnil : group key xs k = [] ↔ group key ys k = [] := by
    rw [← List.length_eq_zero_iff, ← List.length_eq_zero_iff, hg.length_eq]
  simp only [hnil]

/-- The total does not depend on the order of the collection. -/
theorem total_perm {xs ys : List β} (h : xs.Perm ys) (k : κ) :
    total key weight xs k = total key weight ys k :=
  ((h.filter _).map weight).sum_eq

/-- An entry that is there has the total in it. -/
theorem total_of_tally {xs : List β} {k : κ} {e : Entry M} (h : tally key weight xs k = some e) :
    e.total = total key weight xs k := by
  unfold tally at h
  split at h
  · cases h
  · cases h; rfl

/-- **No entry means no member**, and the other way round. -/
theorem tally_eq_none_iff {xs : List β} {k : κ} :
    tally key weight xs k = none ↔ ∀ x ∈ xs, key x ≠ k := by
  have hgroup : group key xs k = [] ↔ ∀ x ∈ xs, key x ≠ k := by
    simp [group, List.filter_eq_nil_iff]
  rw [← hgroup, tally, ite_eq_left_iff]
  simp

/-- A member joins: its own key's entry takes it in, the others stay. -/
theorem tally_cons (x : β) (xs : List β) (k : κ) :
    tally key weight (x :: xs) k =
      if key x = k then some (Entry.join (tally key weight xs k) (weight x))
      else tally key weight xs k := by
  split
  · rename_i h
    unfold tally
    rw [group_cons_of_eq h, total_cons_of_eq h]
    by_cases hnil : group key xs k = []
    · simp [hnil, Entry.join, total]
    · simp [hnil, Entry.join, add_comm]
  · rename_i h
    rw [tally, tally, total, total, group_cons_of_ne h]

/-- A member leaves: what the entry that counted it says about the rest. -/
theorem tally_of_cons {x : β} {xs : List β} {e : Entry M}
    (h : tally key weight (x :: xs) (key x) = some e) :
    tally key weight xs (key x) =
      if e.count - 1 = 0 then none else some ⟨e.total - weight x, e.count - 1⟩ := by
  rw [tally_cons, if_pos rfl, Option.some.injEq] at h
  subst h
  unfold tally
  by_cases hnil : group key xs (key x) = []
  · simp [hnil, Entry.join]
  · have hpos : (group key xs (key x)).length ≠ 0 := by simpa using hnil
    simp [hnil, Entry.join]

/-- What is left in the total once a member has left is the others' total. -/
theorem total_sub_of_cons {x : β} {xs : List β} {e : Entry M}
    (h : tally key weight (x :: xs) (key x) = some e) :
    e.total - weight x = total key weight xs (key x) := by
  rw [total_of_tally h, total_cons_of_eq rfl, add_sub_cancel_left]

/-- An entry whose last member leaves has nothing left in its total. -/
theorem total_sub_eq_zero {x : β} {xs : List β} {e : Entry M}
    (h : tally key weight (x :: xs) (key x) = some e) (hcount : e.count - 1 = 0) :
    e.total - weight x = 0 := by
  have hnone := tally_of_cons h
  rw [if_pos hcount] at hnone
  rw [total_sub_of_cons h, total, group, List.filter_eq_nil_iff.2, List.map_nil, List.sum_nil]
  simpa using tally_eq_none_iff.1 hnone

/-- A member changes its weight and keeps its key: the total moves by the difference. -/
theorem tally_cons_of_key_eq (x x' : β) {xs : List β} {e : Entry M} (hkey : key x' = key x)
    (h : tally key weight (x :: xs) (key x) = some e) :
    tally key weight (x' :: xs) (key x) = some ⟨e.total - weight x + weight x', e.count⟩ := by
  rw [tally_cons, if_pos rfl, Option.some.injEq] at h
  subst h
  rw [tally_cons, if_pos hkey]
  rcases tally key weight xs (key x) with - | e
  · simp [Entry.join]
  · simp [Entry.join]

/-- An entry counts at least one member. -/
theorem one_le_count {xs : List β} {k : κ} {e : Entry M} (h : tally key weight xs k = some e) :
    1 ≤ e.count := by
  unfold tally at h
  by_cases hnil : group key xs k = []
  · simp [hnil] at h
  · rw [if_neg hnil, Option.some.injEq] at h
    subst h
    have hpos : 0 < (group key xs k).length := List.length_pos_iff.2 hnil
    show (1 : ℤ) ≤ (group key xs k).length
    omega

/-! ### Splitting a sum by keys -/

/-- The members with none of these keys. -/
def without (key : β → κ) (xs : List β) (keys : List κ) : List β :=
  xs.filter fun x ↦ key x ∉ keys

/-- The members with one more key are set apart from those with none of the others. -/
theorem sum_without_eq {keys : List κ} {k : κ} (hk : k ∉ keys) (xs : List β) :
    ((without key xs keys).map weight).sum =
      total key weight xs k + ((without key xs (k :: keys)).map weight).sum := by
  induction xs with
  | nil => exact (zero_add _).symm
  | cons x xs ih =>
    by_cases hx : key x = k
    · have hin : key x ∉ keys := hx ▸ hk
      have hout : ¬key x ∉ k :: keys := not_not.2 (hx ▸ List.mem_cons_self)
      rw [without, List.filter_cons_of_pos (by simpa using hin), List.map_cons, List.sum_cons,
        without, List.filter_cons_of_neg (by simpa using hout), total_cons_of_eq hx, add_assoc]
      exact congrArg _ ih
    · have htotal : total key weight (x :: xs) k = total key weight xs k := by
        rw [total, group_cons_of_ne hx, total]
      have hiff : key x ∉ k :: keys ↔ key x ∉ keys := by simp [hx]
      rw [htotal]
      by_cases hin : key x ∉ keys
      · rw [without, List.filter_cons_of_pos (by simpa using hin), List.map_cons, List.sum_cons,
          without, List.filter_cons_of_pos (by simpa using hiff.2 hin), List.map_cons,
          List.sum_cons, add_left_comm]
        exact congrArg _ ih
      · rw [without, List.filter_cons_of_neg (by simpa using hin), without,
          List.filter_cons_of_neg (by simpa using mt hiff.1 hin)]
        exact ih

/-- **The whole is the sum of its parts**: the totals of some keys, and what has none of them. -/
theorem sum_eq_totals_add {keys : List κ} (hkeys : keys.Nodup) (xs : List β) :
    (xs.map weight).sum =
      (keys.map (total key weight xs)).sum + ((without key xs keys).map weight).sum := by
  induction keys with
  | nil =>
    have hall : without key xs [] = xs := List.filter_eq_self.2 fun x _ ↦ by simp
    rw [hall, List.map_nil, List.sum_nil, zero_add]
  | cons k keys ih =>
    obtain ⟨hk, hkeys⟩ := List.nodup_cons.1 hkeys
    rw [ih hkeys, sum_without_eq hk, List.map_cons, List.sum_cons]
    abel

end Tally
