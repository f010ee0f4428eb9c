import Mathlib.Algebra.Order.Group.Nat
import Mathlib.Algebra.Order.Group.Unbundled.Basic
import Mathlib.Data.List.Count

/-!
# Fixed-window counters

A limiter that counts what it lets through and starts over when a window has passed since it last
started. The window is not anchored to the clock: it starts at the first request that finds the old
one passed.

Such a counter does not bound every interval of a window's length by its limit: it may let through
a full count at the end of one window and another at the start of the next. It bounds each window by
the limit, and so each interval shorter than a window by twice the limit, since no two starts are
that close (`Run.admitted_le`).

Times are in any linearly ordered group, and nothing is said of requests that the counter does not
see, or of why it is asked and then does not let through.
-/

/-- A counter: when its window started, if it has, and what it has let through since. -/
structure FixedWindow (T : Type*) where
  start : Option T
  count : ℕ

namespace FixedWindow

section

variable {T : Type*} [LinearOrder T] {a b : T} {events : List (T × Bool)}

/-- How many requests were let through from one time to another, both included. -/
def admitted (a b : T) (events : List (T × Bool)) : ℕ :=
  events.countP fun event ↦ event.2 && decide (a ≤ event.1) && decide (event.1 ≤ b)

/-- One request more, in front: it counts if it was let through within the interval. -/
theorem admitted_cons (a b : T) (event : T × Bool) (events : List (T × Bool)) :
    admitted a b (event :: events) = admitted a b events +
      if event.2 = true ∧ a ≤ event.1 ∧ event.1 ≤ b then 1 else 0 := by
  unfold admitted
  rw [List.countP_cons]
  congr 1
  simp only [Bool.and_eq_true, decide_eq_true_eq, and_assoc]

/-- A request that was not let through does not count. -/
theorem admitted_cons_false (a b now : T) (events : List (T × Bool)) :
    admitted a b ((now, false) :: events) = admitted a b events :=
  (admitted_cons a b _ events).trans (by rw [if_neg (by simp), add_zero])

/-- A request counts once at the most. -/
theorem admitted_cons_le (a b : T) (event : T × Bool) (events : List (T × Bool)) :
    admitted a b (event :: events) ≤ admitted a b events + 1 := by
  rw [admitted_cons]
  split
  · exact le_rfl
  · exact Nat.le_succ _

/-- Nothing is let through where nothing is asked. -/
theorem admitted_eq_zero (h : ∀ event ∈ events, b < event.1) : admitted a b events = 0 := by
  refine List.countP_eq_zero.2 fun event hevent hcounted ↦ ?_
  simp only [Bool.and_eq_true, decide_eq_true_eq] at hcounted
  exact absurd hcounted.2 (not_le.2 (h event hevent))

/-- All that was let through, if all was asked in the interval. -/
theorem admitted_eq_countP (h : ∀ event ∈ events, a ≤ event.1 ∧ event.1 ≤ b) :
    admitted a b events = events.countP Prod.snd := by
  refine List.countP_congr fun event hevent ↦ ?_
  rw [decide_eq_true (h event hevent).1, decide_eq_true (h event hevent).2, Bool.and_true,
    Bool.and_true]

end

variable {T : Type*} [AddCommGroup T] [LinearOrder T]

/-- The counter starts over once a window has passed. -/
def roll (width now : T) (s : FixedWindow T) : FixedWindow T :=
  match s.start with
  | none => ⟨some now, 0⟩
  | some start => if width ≤ now - start then ⟨some now, 0⟩ else s

/-- A request at a time, and whether it is let through. -/
inductive Step (limit : ℕ) (width now : T) : FixedWindow T → Bool → FixedWindow T → Prop
  /-- The counter does not see it. -/
  | unseen (s : FixedWindow T) : Step limit width now s false s
  /-- The counter sees it and it is not let through. -/
  | refused (s : FixedWindow T) : Step limit width now s false (s.roll width now)
  /-- The counter has room for it. -/
  | admitted (s : FixedWindow T) (hroom : (s.roll width now).count < limit) :
    Step limit width now s true { s.roll width now with count := (s.roll width now).count + 1 }

/-- A run: each request with its time and whether it was let through. -/
inductive Run (limit : ℕ) (width : T) : FixedWindow T → List (T × Bool) → Prop
  | nil (s : FixedWindow T) : Run limit width s []
  | cons {s s' : FixedWindow T} {now : T} {verdict : Bool} {events : List (T × Bool)}
    (hstep : Step limit width now s verdict s') (hrun : Run limit width s' events) :
    Run limit width s ((now, verdict) :: events)

variable {limit : ℕ} {width a b now : T} {s : FixedWindow T} {events : List (T × Bool)}

/-- A counter whose window has not passed stays as it is. -/
theorem roll_of_start {start : T} (h : s.start = some start) (hlt : now - start < width) :
    s.roll width now = s := by
  unfold roll
  rw [h]
  exact if_neg (not_le.2 hlt)

/-- Rolled or not. -/
theorem roll_cases (width now : T) (s : FixedWindow T) :
    s.roll width now = s ∨ s.roll width now = ⟨some now, 0⟩ := by
  unfold roll
  rcases s.start with - | start
  · exact .inr rfl
  · by_cases h : width ≤ now - start
    · exact .inr (if_pos h)
    · exact .inl (if_neg h)

variable [IsOrderedAddMonoid T]

/-- **Within one window** the counter lets through no more than it has room for. -/
theorem Run.admitted_le_room {start : T} (h : Run limit width s events)
    (hsorted : (events.map Prod.fst).Pairwise (· ≤ ·)) (hstart : s.start = some start)
    (hb : b - start < width) : admitted a b events + s.count ≤ max limit s.count := by
  induction h with
  | nil s => exact (zero_add s.count).trans_le (le_max_right _ _)
  | @cons s s' now verdict events hstep hrun ih =>
    rw [List.map_cons, List.pairwise_cons] at hsorted
    by_cases hnow : now ≤ b
    -- still in the window, so that nothing starts over
    · have hroll : s.roll width now = s :=
        roll_of_start hstart (lt_of_le_of_lt (sub_le_sub_right hnow start) hb)
      cases hstep with
      | unseen =>
        rw [admitted_cons_false]
        exact ih hsorted.2 hstart
      | refused =>
        rw [hroll] at ih
        rw [admitted_cons_false]
        exact ih hsorted.2 hstart
      | admitted hroom =>
        rw [hroll] at ih hroom
        have hrest := ih hsorted.2 hstart
        have hone := admitted_cons_le a b (now, true) events
        dsimp only at hrest
        rw [max_eq_left (Nat.succ_le_of_lt hroom)] at hrest
        rw [max_eq_left hroom.le]
        omega
    -- past the interval, and so is all that follows
    · have hlater : ∀ event ∈ (now, verdict) :: events, b < event.1 := by
        rintro event (- | ⟨-, hevent⟩)
        · exact not_le.1 hnow
        · exact (not_le.1 hnow).trans_le (hsorted.1 _ (List.mem_map_of_mem hevent))
      rw [admitted_eq_zero hlater, zero_add]
      exact le_max_right _ _

/-- A window that starts at a time lets through a full count at the most, up to any time before its
end. -/
theorem Run.admitted_le_fresh {count : ℕ} (h : Run limit width ⟨some now, count⟩ events)
    (hsorted : (events.map Prod.fst).Pairwise (· ≤ ·)) (hb : b - now < width)
    (hcount : count ≤ limit) : admitted a b events + count ≤ limit :=
  (h.admitted_le_room hsorted rfl hb).trans (max_eq_left hcount).le

/-- From a time on, in an interval shorter than a window: what is left in this window, and one full
count more. -/
theorem Run.admitted_le_of_le (h : Run limit width s events)
    (hsorted : (events.map Prod.fst).Pairwise (· ≤ ·)) (ha : ∀ event ∈ events, a ≤ event.1)
    (hab : b - a < width) : admitted a b events + min limit s.count ≤ limit + limit := by
  induction h with
  | nil s => exact (zero_add _).trans_le ((min_le_left limit s.count).trans (Nat.le_add_left _ _))
  | @cons s s' now verdict events hstep hrun ih =>
    rw [List.map_cons, List.pairwise_cons] at hsorted
    have hrest := ih hsorted.2 fun event hevent ↦ ha event (List.mem_cons_of_mem _ hevent)
    have hnow : b - now < width :=
      (sub_le_sub_left (ha _ List.mem_cons_self) b).trans_lt hab
    cases hstep with
    | unseen =>
      rw [admitted_cons_false]
      exact hrest
    | refused =>
      rw [admitted_cons_false]
      rcases roll_cases width now s with hroll | hroll
      · rwa [hroll] at hrest
      -- a window starts here and covers what is left of the interval
      · rw [hroll] at hrun
        have hfresh := hrun.admitted_le_fresh (a := a) hsorted.2 hnow (Nat.zero_le limit)
        have hmin := min_le_left limit s.count
        omega
    | admitted hroom =>
      have hone := admitted_cons_le a b (now, true) events
      rcases roll_cases width now s with hroll | hroll
      · rw [hroll] at hrest hroom
        dsimp only at hrest
        omega
      -- this one is the first of its window
      · rw [hroll] at hrun hroom
        have hfresh := hrun.admitted_le_fresh (a := a) hsorted.2 hnow (Nat.succ_le_of_lt hroom)
        have hmin := min_le_left limit s.count
        omega

/-- **No interval shorter than a window** sees more than twice the limit let through. -/
theorem Run.admitted_le (h : Run limit width s events)
    (hsorted : (events.map Prod.fst).Pairwise (· ≤ ·)) (hab : b - a < width) :
    admitted a b events ≤ 2 * limit := by
  induction h with
  | nil => exact Nat.zero_le _
  | @cons s s' now verdict events hstep hrun ih =>
    by_cases hnow : now < a
    -- nothing counts before the interval
    · rw [List.map_cons, List.pairwise_cons] at hsorted
      rw [admitted_cons, if_neg fun hcounted ↦ absurd hcounted.2.1 (not_le.2 hnow), add_zero]
      exact ih hsorted.2
    · have hfrom : ∀ event ∈ (now, verdict) :: events, a ≤ event.1 := by
        rw [List.map_cons, List.pairwise_cons] at hsorted
        rintro event (- | ⟨-, hevent⟩)
        · exact not_lt.1 hnow
        · exact (not_lt.1 hnow).trans (hsorted.1 _ (List.mem_map_of_mem hevent))
      have hbound := (Run.cons hstep hrun).admitted_le_of_le hsorted hfrom hab
      omega

end FixedWindow
