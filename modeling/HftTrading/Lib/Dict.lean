import Mathlib.Data.List.Nodup
import Mathlib.Data.List.Perm.Basic

/-!
# Insertion-ordered dictionaries

A finite map kept as the list of its entries in insertion order, with the distinctness of its keys
carried as a field. Assigning to a present key rewrites the entry in place; assigning to a new key
appends; removing a key closes the gap. This is the order in which such a map is iterated.

## Why not a function

A map without an order would do for every lookup. It would not do for a loop over the entries, which
goes through them in the order in which the keys came in: which exception such a loop raises, and
what it has done before, depends on that order. So equality of maps is equality of entry lists, and
where only the lookups matter two maps are compared through `get?`.

## Two readings of the same data

They are related once and for all:

* **as a function**, through `get?`, with the update equations `get?_insert` and `get?_erase`;
* **as a collection**, through `values`, where the perm laws `values_perm_of_get?` and
  `values_insert_perm` say that a key contributes exactly one value, so that anything computed from
  the values up to permutation (a sum, a count) is updated by one term.

`entries_perm_of_get?_eq` goes from the first to the second: maps that agree as functions hold the
same entries.
-/

/-- A finite map in insertion order, no key twice. -/
structure Dict (κ ν : Type*) where
  /-- The entries, oldest first. -/
  entries : List (κ × ν)
  /-- No key occurs twice. -/
  nodup : (entries.map Prod.fst).Nodup

namespace Dict

variable {κ ν : Type*}

/-- A map is its entries: that the keys are distinct is a proof, and proofs are all equal. -/
theorem ext_entries {d d' : Dict κ ν} (h : d.entries = d'.entries) : d = d' := by
  cases d; cases d'; cases h; rfl

instance [DecidableEq κ] [DecidableEq ν] : DecidableEq (Dict κ ν) := fun d d' ↦
  decidable_of_iff (d.entries = d'.entries) ⟨ext_entries, fun h ↦ h ▸ rfl⟩

/-- The map without entries. -/
def empty : Dict κ ν := ⟨[], List.nodup_nil⟩

/-- The keys, in insertion order. -/
def keys (d : Dict κ ν) : List κ := d.entries.map Prod.fst

/-- The values, in insertion order of their keys. -/
def values (d : Dict κ ν) : List ν := d.entries.map Prod.snd

variable [DecidableEq κ]

/-- The value at a key. -/
def get? (d : Dict κ ν) (k : κ) : Option ν := d.entries.lookup k

/-- Whether a key is present. -/
def contains (d : Dict κ ν) (k : κ) : Bool := (d.get? k).isSome

/-- Entries with the value at `k` rewritten in place, or appended when `k` is new. -/
def insertEntries (l : List (κ × ν)) (k : κ) (v : ν) : List (κ × ν) :=
  if k ∈ l.map Prod.fst then l.map fun e ↦ if e.1 = k then (k, v) else e else l ++ [(k, v)]

/-- The keys after an assignment: a new key comes last, a present one stays where it is. -/
theorem map_fst_insertEntries (l : List (κ × ν)) (k : κ) (v : ν) :
    (insertEntries l k v).map Prod.fst =
      if k ∈ l.map Prod.fst then l.map Prod.fst else l.map Prod.fst ++ [k] := by
  unfold insertEntries
  split
  · rw [List.map_map]
    refine List.map_congr_left fun e _ ↦ ?_
    by_cases he : e.1 = k <;> simp [he]
  · simp

/-- Assign a value to a key. -/
def insert (d : Dict κ ν) (k : κ) (v : ν) : Dict κ ν where
  entries := insertEntries d.entries k v
  nodup := by
    rw [map_fst_insertEntries]
    split
    · exact d.nodup
    · rename_i hk
      exact d.nodup.append (List.nodup_singleton k) (by simpa using hk)

/-- Remove a key, if present. -/
def erase (d : Dict κ ν) (k : κ) : Dict κ ν where
  entries := d.entries.filter fun e ↦ e.1 ≠ k
  nodup := d.nodup.sublist ((List.filter_sublist).map _)

/-! ### The map as a function -/

/-- A lookup finds the entry that is there. That there is one entry to a key is what the field is
for. -/
theorem get?_eq_some_iff {d : Dict κ ν} {k : κ} {v : ν} :
    d.get? k = some v ↔ (k, v) ∈ d.entries := by
  obtain ⟨l, hl⟩ := d
  show l.lookup k = some v ↔ (k, v) ∈ l
  induction l with
  | nil => simp
  | cons e l ih =>
    obtain ⟨k', v'⟩ := e
    rw [List.map_cons, List.nodup_cons] at hl
    rw [List.lookup_cons, List.mem_cons, Prod.mk.injEq]
    by_cases hk : k = k'
    · subst hk
      have hnot : (k, v) ∉ l := fun h ↦ hl.1 (List.mem_map.2 ⟨_, h, rfl⟩)
      simp [hnot, eq_comm]
    · have hbeq : (k == k') = false := beq_eq_false_iff_ne.2 hk
      rw [hbeq]
      simp [hk, ih hl.2]

/-- A lookup finds nothing where there is no entry. -/
theorem get?_eq_none_iff {d : Dict κ ν} {k : κ} : d.get? k = none ↔ k ∉ d.keys := by
  rw [Option.eq_none_iff_forall_ne_some, keys]
  constructor
  · intro h hmem
    obtain ⟨⟨k', v⟩, he, rfl⟩ := List.mem_map.1 hmem
    exact h v (get?_eq_some_iff.2 he)
  · intro h v hv
    exact h (List.mem_map.2 ⟨(k, v), get?_eq_some_iff.1 hv, rfl⟩)

@[simp] theorem get?_empty (k : κ) : (empty : Dict κ ν).get? k = none := rfl

@[simp] theorem contains_eq_true_iff {d : Dict κ ν} {k : κ} :
    d.contains k = true ↔ ∃ v, d.get? k = some v := by
  rw [contains, Option.isSome_iff_exists]

@[simp] theorem contains_eq_false_iff {d : Dict κ ν} {k : κ} :
    d.contains k = false ↔ d.get? k = none := by
  rw [contains, Option.isSome_eq_false_iff, Option.isNone_iff_eq_none]

theorem mem_keys_iff {d : Dict κ ν} {k : κ} : k ∈ d.keys ↔ ∃ v, d.get? k = some v := by
  rw [← not_iff_not, ← get?_eq_none_iff, Option.eq_none_iff_forall_ne_some]
  simp

@[simp] theorem get?_insert_self (d : Dict κ ν) (k : κ) (v : ν) :
    (d.insert k v).get? k = some v := by
  rw [get?_eq_some_iff]
  show (k, v) ∈ insertEntries d.entries k v
  unfold insertEntries
  split
  · rename_i hk
    obtain ⟨e, he, rfl⟩ := List.mem_map.1 hk
    exact List.mem_map.2 ⟨e, he, by simp⟩
  · simp

theorem get?_insert_of_ne (d : Dict κ ν) {k k' : κ} (v : ν) (h : k' ≠ k) :
    (d.insert k v).get? k' = d.get? k' := by
  refine Option.ext fun w ↦ ?_
  rw [get?_eq_some_iff, get?_eq_some_iff]
  show (k', w) ∈ insertEntries d.entries k v ↔ _
  unfold insertEntries
  split
  · rw [List.mem_map]
    constructor
    · rintro ⟨e, he, heq⟩
      by_cases hek : e.1 = k
      · simp only [hek, if_true, Prod.mk.injEq] at heq
        exact absurd heq.1.symm h
      · simpa [hek, ← heq] using he
    · intro he
      exact ⟨(k', w), he, by simp [h]⟩
  · simp [h]

/-- **Assigning** changes the value at one key. -/
theorem get?_insert (d : Dict κ ν) (k k' : κ) (v : ν) :
    (d.insert k v).get? k' = if k' = k then some v else d.get? k' := by
  split
  · rename_i h
    rw [h, get?_insert_self]
  · rename_i h
    exact d.get?_insert_of_ne v h

/-- **Removing** takes the value from one key. -/
theorem get?_erase (d : Dict κ ν) (k k' : κ) :
    (d.erase k).get? k' = if k' = k then none else d.get? k' := by
  refine Option.ext fun w ↦ ?_
  rw [get?_eq_some_iff]
  show (k', w) ∈ d.entries.filter _ ↔ _
  rw [List.mem_filter]
  by_cases h : k' = k <;> simp [h, get?_eq_some_iff]

@[simp] theorem get?_erase_self (d : Dict κ ν) (k : κ) : (d.erase k).get? k = none := by
  simp [get?_erase]

theorem get?_erase_of_ne (d : Dict κ ν) {k k' : κ} (h : k' ≠ k) :
    (d.erase k).get? k' = d.get? k' := by
  simp [get?_erase, h]

/-- Removing an absent key changes nothing. -/
theorem erase_eq_self {d : Dict κ ν} {k : κ} (h : d.get? k = none) : d.erase k = d := by
  refine ext_entries (List.filter_eq_self.2 fun e he ↦ ?_)
  simp only [decide_eq_true_eq, ne_eq]
  rintro rfl
  exact get?_eq_none_iff.1 h (List.mem_map.2 ⟨e, he, rfl⟩)

/-- Rewrite every value. -/
def mapValues {μ : Type*} (d : Dict κ ν) (f : ν → μ) : Dict κ μ where
  entries := d.entries.map fun e ↦ (e.1, f e.2)
  nodup := by
    rw [List.map_map]
    exact d.nodup

/-- Rewriting the values commutes with looking up. -/
theorem get?_mapValues {μ : Type*} (d : Dict κ ν) (f : ν → μ) (k : κ) :
    (d.mapValues f).get? k = (d.get? k).map f := by
  refine Option.ext fun w ↦ ?_
  rw [get?_eq_some_iff, Option.map_eq_some_iff]
  show (k, w) ∈ d.entries.map _ ↔ _
  rw [List.mem_map]
  constructor
  · rintro ⟨⟨k', v⟩, he, heq⟩
    obtain ⟨rfl, rfl⟩ := Prod.mk.inj heq
    exact ⟨v, get?_eq_some_iff.2 he, rfl⟩
  · rintro ⟨v, hv, rfl⟩
    exact ⟨(k, v), get?_eq_some_iff.1 hv, rfl⟩

/-! ### The map as a collection -/

/-- A value is held by some key. -/
theorem mem_values_iff {d : Dict κ ν} {v : ν} : v ∈ d.values ↔ ∃ k, d.get? k = some v := by
  constructor
  · intro h
    obtain ⟨e, he, rfl⟩ := List.mem_map.1 h
    exact ⟨e.1, get?_eq_some_iff.2 he⟩
  · rintro ⟨k, hk⟩
    exact List.mem_map.2 ⟨(k, v), get?_eq_some_iff.1 hk, rfl⟩

/-- A present key contributes exactly one value. -/
theorem values_perm_of_get? {d : Dict κ ν} {k : κ} {v : ν} (h : d.get? k = some v) :
    d.values.Perm (v :: (d.erase k).values) := by
  obtain ⟨l, hl⟩ := d
  have hmem : (k, v) ∈ l := get?_eq_some_iff.1 h
  show (l.map Prod.snd).Perm (v :: (l.filter fun e ↦ e.1 ≠ k).map Prod.snd)
  clear h
  induction l with
  | nil => simp at hmem
  | cons e l ih =>
    rw [List.map_cons, List.nodup_cons] at hl
    rcases List.mem_cons.1 hmem with rfl | hmem'
    · have hrest : (l.filter fun e ↦ e.1 ≠ k) = l := by
        refine List.filter_eq_self.2 fun e he ↦ ?_
        simp only [decide_eq_true_eq, ne_eq]
        rintro rfl
        exact hl.1 (List.mem_map.2 ⟨e, he, rfl⟩)
      rw [List.filter_cons_of_neg (by simp), hrest, List.map_cons]
    · have hne : e.1 ≠ k := fun he ↦ hl.1 (he ▸ List.mem_map.2 ⟨(k, v), hmem', rfl⟩)
      rw [List.filter_cons_of_pos (by simpa using hne), List.map_cons, List.map_cons]
      exact ((ih hl.2 hmem').cons _).trans (List.Perm.swap _ _ _)

/-- Assigning and then removing is removing. -/
theorem erase_insert_self (d : Dict κ ν) (k : κ) (v : ν) : (d.insert k v).erase k = d.erase k := by
  refine ext_entries ?_
  show (insertEntries d.entries k v).filter _ = d.entries.filter _
  unfold insertEntries
  split
  · rw [List.filter_map]
    have hfilter : ((fun e : κ × ν ↦ decide (e.1 ≠ k)) ∘
        fun e ↦ if e.1 = k then (k, v) else e) = fun e ↦ decide (e.1 ≠ k) := by
      funext e
      by_cases he : e.1 = k <;> simp [he]
    rw [hfilter]
    refine (List.map_congr_left fun e he ↦ ?_).trans (List.map_id _)
    have hne : e.1 ≠ k := by simpa using (List.mem_filter.1 he).2
    simp [hne]
  · simp

/-- Assigning to a key leaves the values of the other keys, and adds the new one. -/
theorem values_insert_perm (d : Dict κ ν) (k : κ) (v : ν) :
    (d.insert k v).values.Perm (v :: (d.erase k).values) := by
  have h := values_perm_of_get? (d.get?_insert_self k v)
  rwa [erase_insert_self] at h

/-- Assigning to a present key replaces its entry. -/
theorem length_insert_of_get? {d : Dict κ ν} {k : κ} {v : ν} (h : d.get? k = some v) (v' : ν) :
    (d.insert k v').entries.length = d.entries.length := by
  have hbefore := (values_perm_of_get? h).length_eq
  have hafter := (d.values_insert_perm k v').length_eq
  unfold values at hbefore hafter
  rw [List.length_map] at hbefore hafter
  exact hafter.trans hbefore.symm

/-- Assigning to a new key adds an entry. -/
theorem length_insert_of_none {d : Dict κ ν} {k : κ} (h : d.get? k = none) (v : ν) :
    (d.insert k v).entries.length = d.entries.length + 1 := by
  have hperm := (d.values_insert_perm k v).length_eq
  rw [erase_eq_self h, List.length_cons] at hperm
  unfold values at hperm
  rwa [List.length_map, List.length_map] at hperm

/-- Two maps that agree as functions have the same entries, in whatever order. -/
theorem entries_perm_of_get?_eq {d d' : Dict κ ν} (h : ∀ k, d.get? k = d'.get? k) :
    d.entries.Perm d'.entries := by
  rw [List.perm_ext_iff_of_nodup (List.Nodup.of_map _ d.nodup) (List.Nodup.of_map _ d'.nodup)]
  rintro ⟨k, v⟩
  rw [← get?_eq_some_iff, ← get?_eq_some_iff, h]

/-- Two maps that agree as functions, up to what `f` makes of their values, agree as collections up
to that. -/
theorem values_map_perm {μ : Type*} {d d' : Dict κ ν} {f : ν → μ}
    (h : ∀ k, (d.get? k).map f = (d'.get? k).map f) : (d.values.map f).Perm (d'.values.map f) := by
  have hmap : ∀ e : Dict κ ν, e.values.map f = (e.mapValues f).entries.map Prod.snd := by
    intro e
    show (e.entries.map Prod.snd).map f = (e.entries.map fun x ↦ (x.1, f x.2)).map Prod.snd
    rw [List.map_map, List.map_map]
    rfl
  rw [hmap, hmap]
  refine (entries_perm_of_get?_eq fun k ↦ ?_).map _
  rw [get?_mapValues, get?_mapValues, h]

/-! ### Lists looked up by a key

A list of records with a key is looked up the same way. -/

/-- One more record, under a new key. -/
theorem find?_concat {α : Type*} (key : α → κ) {l : List α} {a : α}
    (hnew : ∀ b ∈ l, key b ≠ key a) (k : κ) :
    (l ++ [a]).find? (fun b ↦ key b = k) =
      if k = key a then some a else l.find? fun b ↦ key b = k := by
  rw [List.find?_append]
  split
  · rename_i hk
    subst hk
    have hnone : l.find? (fun b ↦ key b = key a) = none := by
      rw [List.find?_eq_none]
      intro b hb
      simpa using hnew b hb
    rw [hnone]
    simp
  · rename_i hk
    have hlast : [a].find? (fun b ↦ key b = k) = none := by
      simpa using fun h : key a = k ↦ hk h.symm
    rw [hlast, Option.or_none]

end Dict
