import Mathlib.Algebra.Order.Group.Nat
import Mathlib.Data.List.Count
import Mathlib.Data.List.DropRight

/-!
# Counters that start over with a new key

A limiter that counts what it lets through for one key, and starts over when it is asked with
another. It remembers one key only, and it learns of a key only from the requests that it sees: a
request that is turned down before it gets to the counter leaves the old key, and its count, in
place.

So the stretches of requests with one key are not where the counter starts over. What holds is a
balance (`Run.count_eq`): over a stretch, what the counter comes to is what it came to before and
what was let through. A stretch that is entered with a count from an earlier one lets through less.
-/

/-- A counter: the key it counts for, if any, and what it has let through for it. -/
structure KeyedCounter (κ : Type*) where
  key : Option κ
  count : ℕ

namespace KeyedCounter

variable {κ : Type*} [DecidableEq κ]

/-- The counter starts over with a new key. -/
def roll (k : κ) (s : KeyedCounter κ) : KeyedCounter κ := if some k ≠ s.key then ⟨some k, 0⟩ else s

/-- A request with a key, and whether it is let through. -/
inductive Step (room : ℕ) (k : κ) : KeyedCounter κ → Bool → KeyedCounter κ → Prop
  /-- The counter does not see it. -/
  | unseen (s : KeyedCounter κ) : Step room k s false s
  /-- The counter sees it and it is not let through. -/
  | refused (s : KeyedCounter κ) : Step room k s false (s.roll k)
  /-- The counter has room for it. -/
  | admitted (s : KeyedCounter κ) (hroom : (s.roll k).count < room) :
    Step room k s true ⟨some k, (s.roll k).count + 1⟩

/-- A run: each request with its key and whether it was let through. -/
inductive Run (room : ℕ) : KeyedCounter κ → List (κ × Bool) → KeyedCounter κ → Prop
  | nil (s : KeyedCounter κ) : Run room s [] s
  | cons {s s' s'' : KeyedCounter κ} {k : κ} {verdict : Bool} {events : List (κ × Bool)}
    (hstep : Step room k s verdict s') (hrun : Run room s' events s'') :
    Run room s ((k, verdict) :: events) s''

/-- How many requests were let through. -/
def admitted (events : List (κ × Bool)) : ℕ := events.countP Prod.snd

variable {room : ℕ} {k : κ} {s s' : KeyedCounter κ} {verdict : Bool} {events : List (κ × Bool)}

/-- A counter for its own key is left as it is. -/
theorem roll_of_key (h : s.key = some k) : s.roll k = s := if_neg (not_not.2 h.symm)

/-- Asked with a key, the counter counts for it. -/
theorem key_roll (k : κ) (s : KeyedCounter κ) : (s.roll k).key = some k := by
  unfold roll
  split
  · rfl
  · rename_i h
    exact (not_not.1 h).symm

/-- Asking again with the same key changes nothing. -/
theorem roll_roll (k : κ) (s : KeyedCounter κ) : (s.roll k).roll k = s.roll k :=
  roll_of_key (key_roll k s)

/-- **One request** adds what it lets through to what the counter comes to for its key. -/
theorem Step.count_eq (h : Step room k s verdict s') :
    (s'.roll k).count = (s.roll k).count + if verdict then 1 else 0 := by
  cases h with
  | unseen => rfl
  | refused => rw [roll_roll, if_neg Bool.false_ne_true, add_zero]
  | admitted =>
    rw [roll_of_key rfl]
    rfl

/-- One request leaves the counter within its room, unless it was over it before. -/
theorem Step.count_le (h : Step room k s verdict s') :
    (s'.roll k).count ≤ max room (s.roll k).count := by
  cases h with
  | unseen => exact le_max_right _ _
  | refused =>
    rw [roll_roll]
    exact le_max_right _ _
  | admitted hroom =>
    rw [roll_of_key rfl]
    exact hroom.trans_le (le_max_left _ _)

/-- **The balance of a stretch**: what the counter comes to is what it came to before and what was
let through. -/
theorem Run.count_eq (h : Run room s events s') (hkey : ∀ event ∈ events, event.1 = k) :
    (s'.roll k).count = (s.roll k).count + admitted events := by
  induction h with
  | nil s => rfl
  | @cons s s' s'' k' verdict events hstep hrun ih =>
    obtain rfl : k' = k := hkey (k', verdict) List.mem_cons_self
    have hrest := ih fun event hevent ↦ hkey event (List.mem_cons_of_mem _ hevent)
    have hcount : admitted ((k', verdict) :: events) = admitted events + if verdict then 1 else 0 :=
      List.countP_cons
    rw [hrest, hstep.count_eq, hcount, add_assoc, add_comm (admitted events)]

/-- Over a stretch the counter stays within its room, unless it was over it before. -/
theorem Run.count_le (h : Run room s events s') (hkey : ∀ event ∈ events, event.1 = k) :
    (s'.roll k).count ≤ max room (s.roll k).count := by
  induction h with
  | nil s => exact le_max_right _ _
  | @cons s s' s'' k' verdict events hstep hrun ih =>
    obtain rfl : k' = k := hkey (k', verdict) List.mem_cons_self
    have hrest := ih fun event hevent ↦ hkey event (List.mem_cons_of_mem _ hevent)
    exact hrest.trans (max_le (le_max_left _ _) hstep.count_le)

/-- **A stretch** lets through no more than there is room for. -/
theorem Run.admitted_le (h : Run room s events s') (hkey : ∀ event ∈ events, event.1 = k) :
    admitted events ≤ room := by
  have heq := h.count_eq hkey
  have hle := h.count_le hkey
  omega

/-- A stretch that fills the room was entered with the counter at zero. -/
theorem Run.count_eq_zero (h : Run room s events s') (hkey : ∀ event ∈ events, event.1 = k)
    (hroom : 0 < room) (hfull : room ≤ admitted events) : (s.roll k).count = 0 := by
  have heq := h.count_eq hkey
  have hle := h.count_le hkey
  omega

end KeyedCounter

/-! ### Stretches of a list -/

section

variable {α κ : Type*} [DecidableEq κ] {f : α → κ} {k : κ} {pre stretch post : List α}

/-- A stretch of a list, between what stands before it and what stands after it: all of one key, and
no longer stretch of that key. -/
structure IsStretch (f : α → κ) (k : κ) (pre stretch post : List α) : Prop where
  same : ∀ a ∈ stretch, f a = k
  before : ∀ a ∈ pre.getLast?, f a ≠ k
  after : ∀ a ∈ post.head?, f a ≠ k

/-- Elements of one key that stand together are part of a stretch. -/
theorem exists_isStretch (hsame : ∀ a ∈ stretch, f a = k) (pre post : List α) :
    ∃ pre' front back post', pre = pre' ++ front ∧ post = back ++ post' ∧
      IsStretch f k pre' (front ++ stretch ++ back) post' := by
  set p : α → Bool := fun a ↦ decide (f a = k) with hp
  have hfront : ∀ a ∈ pre.rtakeWhile p, f a = k := by
    intro a ha
    have hpa := List.mem_rtakeWhile_imp ha
    rwa [hp, decide_eq_true_eq] at hpa
  have hback : ∀ a ∈ post.takeWhile p, f a = k := by
    intro a ha
    have hpa := List.mem_takeWhile_imp ha
    rwa [hp, decide_eq_true_eq] at hpa
  refine ⟨pre.rdropWhile p, pre.rtakeWhile p, post.takeWhile p, post.dropWhile p,
    List.rdropWhile_append_rtakeWhile.symm, List.takeWhile_append_dropWhile.symm, ?_, ?_, ?_⟩
  · intro a ha
    rcases List.mem_append.1 ha with ha | ha
    · rcases List.mem_append.1 ha with ha | ha
      · exact hfront a ha
      · exact hsame a ha
    · exact hback a ha
  · intro a ha hk
    obtain ⟨hne, rfl⟩ := List.mem_getLast?_eq_getLast ha
    exact List.rdropWhile_last_not _ _ hne (decide_eq_true hk)
  · intro a ha hk
    have hnot := List.head?_dropWhile_not (fun a ↦ decide (f a = k)) post
    rw [Option.mem_def.1 ha] at hnot
    simp [hk] at hnot

end
