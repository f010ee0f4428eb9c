import HftTrading.Lib.KeyedCounter
import HftTrading.OrderEntry.Admission

/-!
# How many orders the pre-trade check approves for one sequence number

The per-sequence counter starts over at the first call that gets as far as the counter with another
sequence number (`step_isValid_sequence`). The call is refused when the counter stands above the
limit, and not when it stands at the limit, as with the counter of the orders per second: so it lets
one order more than `max_per_sequence` through (`approvals_le_succ`). Over a stretch of calls with
one sequence number the limit holds unless an order gets past every other check when the counter
stands at the limit, having counted from zero within the stretch (`approvals_le_iff`).

A call that is refused before it gets as far as the counter leaves it as it is, with the number it
counts for. A stretch may therefore begin with the counter at anything, and what has been counted in
it is told from what was there before by whether the counter has started over within it.
-/

namespace HftTrading.OrderEntry.RiskTracker

/-! ### The counter -/

/-- What the per-sequence counter comes to. -/
def sequence (r : RiskTracker) : KeyedCounter ℕ := ⟨r.lastSeqNum, r.ordersThisSeqNum⟩

/-- The counter of the tracker is the counter rolled. -/
theorem sequence_rollSequence (currentSeqNum : ℕ) (r : RiskTracker) :
    (r.rollSequence currentSeqNum).sequence = r.sequence.roll currentSeqNum := by
  unfold rollSequence KeyedCounter.roll sequence
  dsimp only
  split
  · rfl
  · rfl

/-- **One call** is one step of the per-sequence counter, with room for one more than the limit, and
leaves the limit as it is. -/
theorem step_isValid_sequence {symbol side quantity price : ℤ} {openOrders : Dict ℤ OeConfig}
    {positionTracker : PositionTracker} {pnlTracker : PnLTracker} {currentSeqNum : ℕ} {now : ℚ}
    {r : RiskTracker} :
    (r.isValid symbol side quantity price openOrders positionTracker pnlTracker currentSeqNum
        now).2.maxPerSequence = r.maxPerSequence ∧
      KeyedCounter.Step (r.maxPerSequence + 1) currentSeqNum r.sequence
        (r.isValid symbol side quantity price openOrders positionTracker pnlTracker currentSeqNum
          now).1.1
        (r.isValid symbol side quantity price openOrders positionTracker pnlTracker currentSeqNum
          now).2.sequence := by
  have hroll : ((r.rollSecond now).rollSequence currentSeqNum).sequence =
      r.sequence.roll currentSeqNum := by
    rw [sequence_rollSequence, rollSecond_eq]
    rfl
  have hlimit : ((r.rollSecond now).rollSequence currentSeqNum).maxPerSequence =
      r.maxPerSequence := by
    rw [rollSequence_eq, rollSecond_eq]
  unfold isValid
  rcases r.refusal? symbol side quantity price openOrders positionTracker pnlTracker with
    - | reason
  · dsimp only
    split
    -- the second is full, and the counter is not asked
    · rw [rollSecond_eq]
      exact ⟨rfl, .unseen r.sequence⟩
    · revert hroll hlimit
      generalize (r.rollSecond now).rollSequence currentSeqNum = r'
      intro hroll hlimit
      split
      · refine ⟨hlimit, ?_⟩
        rw [hroll]
        exact .refused r.sequence
      · rename_i hsequence
        split
        · refine ⟨hlimit, ?_⟩
          rw [hroll]
          exact .refused r.sequence
        · refine ⟨hlimit, ?_⟩
          have hcount : (r.sequence.roll currentSeqNum).count = r'.ordersThisSeqNum := by
            rw [← hroll]
            rfl
          have hkey : r'.lastSeqNum = some currentSeqNum :=
            (congrArg KeyedCounter.key hroll).trans (KeyedCounter.key_roll _ _)
          show KeyedCounter.Step _ _ _ true ⟨r'.lastSeqNum, r'.ordersThisSeqNum + 1⟩
          rw [hkey, ← hcount]
          refine .admitted r.sequence ?_
          omega
  · exact ⟨rfl, .unseen r.sequence⟩

/-! ### Stretches of calls -/

/-- The tracker after a run of calls. -/
def after : List Check → RiskTracker → RiskTracker
  | [], r => r
  | check :: checks, r => after checks (check.answer r).2

/-- How many calls of a run return `True`. -/
def approvals : List Check → RiskTracker → ℕ
  | [], _ => 0
  | check :: checks, r =>
    approvals checks (check.answer r).2 + if (check.answer r).1.1 then 1 else 0

/-- Checks after checks. -/
theorem after_append (checks checks' : List Check) (r : RiskTracker) :
    after (checks ++ checks') r = after checks' (after checks r) := by
  induction checks generalizing r with
  | nil => rfl
  | cons check checks ih => exact ih _

/-- Those that the first approve, and those that the second do. -/
theorem approvals_append (checks checks' : List Check) (r : RiskTracker) :
    approvals (checks ++ checks') r = approvals checks r + approvals checks' (after checks r) := by
  induction checks generalizing r with
  | nil => exact (Nat.zero_add _).symm
  | cons check checks ih =>
    show approvals (checks ++ checks') _ + _ = approvals checks _ + _ + _
    rw [ih, add_right_comm]
    rfl

/-- **A run of calls** is a run of the per-sequence counter, and leaves the limit as it is. -/
theorem run_sequence (checks : List Check) (r : RiskTracker) :
    (after checks r).maxPerSequence = r.maxPerSequence ∧
      ∃ events : List (ℕ × Bool), events.map Prod.fst = checks.map Check.currentSeqNum ∧
        KeyedCounter.admitted events = approvals checks r ∧
        KeyedCounter.Run (r.maxPerSequence + 1) r.sequence events (after checks r).sequence := by
  induction checks generalizing r with
  | nil => exact ⟨rfl, [], rfl, rfl, .nil r.sequence⟩
  | cons check checks ih =>
    obtain ⟨hlimit, hstep⟩ : (check.answer r).2.maxPerSequence = r.maxPerSequence ∧
      KeyedCounter.Step (r.maxPerSequence + 1) check.currentSeqNum r.sequence
        (check.answer r).1.1 (check.answer r).2.sequence := step_isValid_sequence
    obtain ⟨hsame, events, hkeys, hadmitted, hrun⟩ := ih (check.answer r).2
    rw [hlimit] at hsame hrun
    refine ⟨hsame, (check.currentSeqNum, (check.answer r).1.1) :: events, ?_, ?_,
      .cons hstep hrun⟩
    · rw [List.map_cons, List.map_cons, hkeys]
    · rw [KeyedCounter.admitted, List.countP_cons]
      exact congrArg (· + _) hadmitted

section

variable {checks : List Check} {n : ℕ} {r : RiskTracker}

/-- The keys of a stretch are its sequence number. -/
theorem keys_of_same {events : List (ℕ × Bool)}
    (hkeys : events.map Prod.fst = checks.map Check.currentSeqNum)
    (hsame : ∀ check ∈ checks, check.currentSeqNum = n) : ∀ event ∈ events, event.1 = n := by
  intro event hevent
  have hmem : event.1 ∈ checks.map Check.currentSeqNum := hkeys ▸ List.mem_map_of_mem hevent
  obtain ⟨check, hcheck, heq⟩ := List.mem_map.1 hmem
  exact heq.symm.trans (hsame check hcheck)

/-- **The counter after a stretch** has counted what was approved in it. -/
theorem count_after (hsame : ∀ check ∈ checks, check.currentSeqNum = n) :
    ((after checks r).rollSequence n).ordersThisSeqNum =
      (r.rollSequence n).ordersThisSeqNum + approvals checks r := by
  obtain ⟨-, events, hkeys, hadmitted, hrun⟩ := run_sequence checks r
  have hcount := hrun.count_eq (keys_of_same hkeys hsame)
  rw [← sequence_rollSequence, ← sequence_rollSequence, hadmitted] at hcount
  exact hcount

/-- **A stretch approves** at most one order more than the limit. -/
theorem approvals_le_succ (hsame : ∀ check ∈ checks, check.currentSeqNum = n) :
    approvals checks r ≤ r.maxPerSequence + 1 := by
  obtain ⟨-, events, hkeys, hadmitted, hrun⟩ := run_sequence checks r
  exact hadmitted ▸ hrun.admitted_le (keys_of_same hkeys hsame)

/-- A stretch that approves more than the limit was entered with the counter at zero. -/
theorem count_eq_zero (hsame : ∀ check ∈ checks, check.currentSeqNum = n)
    (hover : r.maxPerSequence < approvals checks r) :
    (r.rollSequence n).ordersThisSeqNum = 0 := by
  obtain ⟨-, events, hkeys, hadmitted, hrun⟩ := run_sequence checks r
  have hzero := hrun.count_eq_zero (keys_of_same hkeys hsame) (Nat.succ_pos _)
    (Nat.succ_le_of_lt (hadmitted ▸ hover))
  rw [← sequence_rollSequence] at hzero
  exact hzero

/-- More approvals than a number: one of them came after just that many. -/
theorem exists_approval_after {m : ℕ} (h : m < approvals checks r) :
    ∃ earlier check later, checks = earlier ++ check :: later ∧ approvals earlier r = m ∧
      (check.answer (after earlier r)).1.1 = true := by
  induction checks generalizing m r with
  | nil => exact absurd h (Nat.not_lt_zero m)
  | cons check checks ih =>
    have hsplit : approvals (check :: checks) r = approvals checks (check.answer r).2 +
      if (check.answer r).1.1 then 1 else 0 := rfl
    rcases hverdict : (check.answer r).1.1 with - | -
    -- not approved, and so it is among the later ones
    · rw [hverdict, if_neg Bool.false_ne_true, add_zero] at hsplit
      obtain ⟨earlier, found, later, rfl, hcount, hfound⟩ := ih (hsplit ▸ h)
      refine ⟨check :: earlier, found, later, rfl, ?_, hfound⟩
      show approvals earlier _ + (if (check.answer r).1.1 then 1 else 0) = m
      rw [hcount, hverdict]
      rfl
    · rw [hverdict, if_pos rfl] at hsplit
      rcases m with - | m
      · exact ⟨[], check, checks, rfl, rfl, hverdict⟩
      · obtain ⟨earlier, found, later, rfl, hcount, hfound⟩ :=
          ih (Nat.lt_of_succ_lt_succ (hsplit ▸ h))
        refine ⟨check :: earlier, found, later, rfl, ?_, hfound⟩
        show approvals earlier _ + (if (check.answer r).1.1 then 1 else 0) = m + 1
        rw [hcount, hverdict]
        rfl

end

/-- A call that gets past every other check when the counter of its sequence number stands at the
limit. -/
def Check.Overruns (check : Check) (r : RiskTracker) : Prop :=
  (r.rollSequence check.currentSeqNum).ordersThisSeqNum = r.maxPerSequence ∧
    r.refusal? check.symbol check.side check.quantity check.price check.openOrders
      check.positionTracker check.pnlTracker = none ∧
    (r.rollSecond check.now).ordersThisSecond < r.maxOrdersPerSecond ∧
    check.openOrders.entries.length < r.maxUnackedOrders

/-- Such a call is one that is approved at the limit. -/
theorem Check.overruns_iff {check : Check} {r : RiskTracker} :
    check.Overruns r ↔
      (r.rollSequence check.currentSeqNum).ordersThisSeqNum = r.maxPerSequence ∧
        (check.answer r).1.1 = true := by
  refine and_congr_right fun hcount ↦ ?_
  rw [Check.answer, isValid_approves_iff, hcount]
  exact ⟨fun ⟨hnone, hsecond, hunacked⟩ ↦ ⟨hnone, hsecond, le_rfl, hunacked⟩,
    fun ⟨hnone, hsecond, _, hunacked⟩ ↦ ⟨hnone, hsecond, hunacked⟩⟩

/-- **When the limit holds.** No stretch of calls with one sequence number approves more than
`max_per_sequence` orders, just when no order gets past every other check with the counter at the
limit, in a stretch that the counter has counted from zero. -/
theorem approvals_le_iff (checks : List Check) (r : RiskTracker) :
    (∀ n pre stretch post, checks = pre ++ stretch ++ post →
        IsStretch Check.currentSeqNum n pre stretch post →
        approvals stretch (after pre r) ≤ r.maxPerSequence) ↔
      ∀ pre earlier check post, checks = pre ++ earlier ++ check :: post →
        (∀ other ∈ earlier, other.currentSeqNum = check.currentSeqNum) →
        ((after pre r).rollSequence check.currentSeqNum).ordersThisSeqNum = 0 →
        ¬ check.Overruns (after (pre ++ earlier) r) := by
  have hlimit (checks : List Check) : (after checks r).maxPerSequence = r.maxPerSequence :=
    (run_sequence checks r).1
  constructor
  -- the stretch that an overrun is part of approves one too many
  · rintro h pre earlier check post rfl hsame hzero hover
    obtain ⟨hcount, hanswer⟩ := Check.overruns_iff.1 hover
    rw [hlimit, after_append, count_after hsame, hzero, zero_add] at hcount
    have hpart : ∀ other ∈ earlier ++ [check], other.currentSeqNum = check.currentSeqNum := by
      intro other hother
      rcases List.mem_append.1 hother with hother | hother
      · exact hsame other hother
      · rw [List.mem_singleton.1 hother]
    obtain ⟨pre', front, back, post', rfl, rfl, hstretch⟩ := exists_isStretch hpart pre post
    have hle := h _ pre' (front ++ (earlier ++ [check]) ++ back) post' (by simp) hstretch
    have happroved : approvals [check] (after (pre' ++ front ++ earlier) r) = 1 := by
      show 0 + (if _ then 1 else 0) = 1
      rw [hanswer, if_pos rfl]
    rw [after_append, after_append] at happroved
    rw [approvals_append, approvals_append, approvals_append, happroved] at hle
    rw [after_append] at hcount
    omega
  -- the approval that comes after just `max_per_sequence` of them is an overrun
  · rintro h n pre stretch post rfl hstretch
    by_contra hle
    have hover : (after pre r).maxPerSequence < approvals stretch (after pre r) := by
      rw [hlimit]
      omega
    have hzero := count_eq_zero hstretch.same hover
    obtain ⟨earlier, check, later, rfl, hcount, hanswer⟩ := exists_approval_after hover
    have hkey : check.currentSeqNum = n :=
      hstretch.same check (List.mem_append_right _ List.mem_cons_self)
    have hsame : ∀ other ∈ earlier, other.currentSeqNum = check.currentSeqNum := fun other hother ↦
      (hstretch.same other (List.mem_append_left _ hother)).trans hkey.symm
    refine h pre earlier check (later ++ post) (by simp) hsame (hkey ▸ hzero)
      (Check.overruns_iff.2 ⟨?_, ?_⟩)
    · rw [hlimit, after_append, count_after hsame, hkey, hzero, zero_add, hcount, hlimit]
    · rw [after_append]
      exact hanswer

/-! ### The limit that the tracker is made with -/

/-- That many small calls, a second apart. -/
def smallChecks (calls : ℕ) : List Check := (List.range calls).map fun i ↦ smallCheck (i : ℕ)

/-- The tracker after that many small calls, a second apart, under a limit. -/
def steady (limit : ℕ) : ℕ → RiskTracker
  | 0 => { init with maxPerSequence := limit }
  | calls + 1 => { init with
      maxPerSequence := limit
      ordersThisSecond := 1
      lastSecondTime := some calls
      ordersThisSeqNum := calls + 1
      lastSeqNum := some 0 }

/-- The next such call is approved, as long as the counter is not above the limit. -/
theorem answer_steady {limit calls : ℕ} (h : calls ≤ limit) :
    (smallCheck calls).answer (steady limit calls) = ((true, ""), steady limit (calls + 1)) := by
  have hnone (r : RiskTracker) (hr : r = { init with
      maxPerSequence := r.maxPerSequence
      ordersThisSecond := r.ordersThisSecond
      lastSecondTime := r.lastSecondTime
      ordersThisSeqNum := r.ordersThisSeqNum
      lastSeqNum := r.lastSeqNum }) :
      r.refusal? 1 Side.buy.value 1 1 .empty .init .init = none := by
    rw [hr]
    rfl
  unfold Check.answer isValid smallCheck
  dsimp only
  rcases calls with - | calls
  · rw [hnone _ rfl]
    rfl
  · rw [hnone _ rfl]
    have hroll : (steady limit (calls + 1)).rollSecond ((calls + 1 : ℕ) : ℚ) =
        { steady limit (calls + 1) with
          ordersThisSecond := 0
          lastSecondTime := some ((calls + 1 : ℕ) : ℚ) } := by
      refine if_pos ?_
      push_cast
      rw [add_sub_cancel_left]
    dsimp only
    rw [hroll]
    have hle : ¬ calls + 1 > limit := not_lt.2 h
    show (if (0 : ℕ) ≥ 30 then _ else if calls + 1 > limit then _ else _) = _
    rw [if_neg (by decide), if_neg hle]
    rfl

/-- So the limit and one more of them are. -/
theorem approvals_steady (limit calls : ℕ) (h : calls ≤ limit + 1) :
    after (smallChecks calls) (steady limit 0) = steady limit calls ∧
      approvals (smallChecks calls) (steady limit 0) = calls := by
  induction calls with
  | zero => exact ⟨rfl, rfl⟩
  | succ calls ih =>
    obtain ⟨hafter, happroved⟩ := ih (by omega)
    have hanswer := answer_steady (Nat.le_of_lt_succ h)
    rw [smallChecks, List.range_succ, List.map_append, ← smallChecks, after_append,
      approvals_append, hafter, happroved]
    show ((smallCheck calls).answer (steady limit calls)).2 = _ ∧
      calls + (0 + if ((smallCheck calls).answer (steady limit calls)).1.1 then 1 else 0) = _
    rw [hanswer]
    exact ⟨rfl, rfl⟩

/-- With the limit that the tracker is made with, 1001 orders of one sequence number are
approved. -/
theorem approvals_over_limit :
    ¬ ∀ (checks : List Check) (r : RiskTracker) (n : ℕ) (pre stretch post : List Check),
      checks = pre ++ stretch ++ post → IsStretch Check.currentSeqNum n pre stretch post →
      approvals stretch (after pre r) ≤ r.maxPerSequence := by
  intro h
  have hle := h (smallChecks 1001) init 0 [] (smallChecks 1001) [] (by simp)
    ⟨fun check hcheck ↦ by
      obtain ⟨i, -, rfl⟩ := List.mem_map.1 hcheck
      rfl, by simp, by simp⟩
  have hstart : after [] init = steady 1000 0 := rfl
  have hlimit : init.maxPerSequence = 1000 := rfl
  rw [hstart, hlimit, (approvals_steady 1000 1001 (by omega)).2] at hle
  omega

end HftTrading.OrderEntry.RiskTracker
