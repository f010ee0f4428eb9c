import HftTrading.Lib.Dict
import HftTrading.Lib.Fading
import HftTrading.MarketData.Struct
import Mathlib.Algebra.BigOperators.Ring.List
import Mathlib.Data.List.Induction

/-!
# The spoof detector

`SpoofDetector` looks out for orders that are large beside the average of their symbol, and counts
those that are cancelled soon and have not traded. What it has counted on a side of a symbol is a
pressure, which fades each time the symbol is stepped, and is forgotten once it is small.

What the pressure says is a matter of the history of calls alone: which announcements, cancels and
trades there have been, and how often the symbol has been stepped since (`Spoofed`). Each cancel
counts for one announcement, and the pressure is the sum of their sizes, each faded since, but for
the little that has been forgotten on the way (`pressure_bounds`).

## Exact arithmetic

The arithmetic is exact here, where the program computes with doubles. The average of a symbol is a
running one, to which the size of a new order contributes a twentieth, and an order is large from
four times that on. In doubles the average may come out next to the exact one, so an order of just
as much as that may be large here and not there, or the other way round.

## From call to call

The history grows by one call at a time, and so do the statements about it: which announcement a
cancel is of, is not changed by later calls (`spoofed_concat`), and what the detector keeps for each
order is what the last announcement of it has left, unless it was settled since (`Watches`). The
pressure then changes in three ways only, by a fading, by a counted cancel, or not at all.
-/

namespace HftTrading.Strategy

open MarketData (Side)

/-- An order that is looked out for: when it was announced, and of which side and size it is. -/
structure TrackedOrder where
  time : ℚ
  side : Side
  qty : ℕ
  deriving DecidableEq

/-- `SpoofDetector`. -/
structure SpoofDetector where
  tracked : Dict ℤ TrackedOrder
  avgQty : Dict ℤ ℚ
  bidPressure : Dict ℤ ℚ
  askPressure : Dict ℤ ℚ

namespace SpoofDetector

/-! ### The detector -/

/-- `WINDOW_S`. -/
def WINDOW_S : ℚ := 2

/-- `LARGE_MULT`. -/
def LARGE_MULT : ℚ := 4

/-- `DECAY`, and what is forgotten. -/
def DECAY : Fading ℚ where
  factor := 22 / 25
  floor := 1 / 2
  factor_nonneg := by norm_num
  factor_le_one := by norm_num
  floor_nonneg := by norm_num

/-- `SpoofDetector.__init__`. -/
def init : SpoofDetector := ⟨.empty, .empty, .empty, .empty⟩

/-- The pressures on a side. -/
def pressures (d : SpoofDetector) : Side → Dict ℤ ℚ
  | .buy => d.bidPressure
  | .sell => d.askPressure

/-- Write back the pressures on a side. -/
def setPressures (side : Side) (p : Dict ℤ ℚ) (d : SpoofDetector) : SpoofDetector :=
  match side with
  | .buy => { d with bidPressure := p }
  | .sell => { d with askPressure := p }

/-- The average size of a symbol's orders, or the size of its first. -/
def average (symbol : ℤ) (qty : ℕ) (d : SpoofDetector) : ℚ := (d.avgQty.get? symbol).getD qty

/-- The average with one more order. -/
def nextAverage (avg : ℚ) (qty : ℕ) : ℚ := avg * (19 / 20) + qty * (1 / 20)

/-- An order that is large beside the average. -/
def Large (avg : ℚ) (qty : ℕ) : Prop := max 3 (LARGE_MULT * avg) ≤ qty

instance (avg : ℚ) (qty : ℕ) : Decidable (Large avg qty) := inferInstanceAs (Decidable (_ ≤ _))

/-- `on_new_order`. The clock is read for a large order only. -/
def onNewOrder (orderId symbol : ℤ) (side : Side) (qty : ℕ) (now : ℚ) (d : SpoofDetector) :
    SpoofDetector :=
  let avg := d.average symbol qty
  let d := { d with avgQty := d.avgQty.insert symbol (nextAverage avg qty) }
  if Large avg qty then { d with tracked := d.tracked.insert orderId ⟨now, side, qty⟩ } else d

/-- `bid_spoof_qty` and `ask_spoof_qty`. -/
def spoofQty (side : Side) (symbol : ℤ) (d : SpoofDetector) : ℚ :=
  ((d.pressures side).get? symbol).getD 0

/-- `on_cancel`. The clock is read for a tracked order only. -/
def onCancel (orderId symbol : ℤ) (now : ℚ) (d : SpoofDetector) : SpoofDetector :=
  match d.tracked.get? orderId with
  | none => d
  | some entry =>
    let d := { d with tracked := d.tracked.erase orderId }
    if now - entry.time < WINDOW_S then
      d.setPressures entry.side
        ((d.pressures entry.side).insert symbol (d.spoofQty entry.side symbol + entry.qty))
    else d

/-- `on_trade`. -/
def onTrade (orderId : ℤ) (d : SpoofDetector) : SpoofDetector :=
  { d with tracked := d.tracked.erase orderId }

/-- The pressures on one side, with that of a symbol faded. -/
def decayed (symbol : ℤ) (p : Dict ℤ ℚ) : Dict ℤ ℚ :=
  match p.get? symbol with
  | none => p
  | some v =>
    let v := v * DECAY.factor
    if v < DECAY.floor then p.erase symbol else p.insert symbol v

/-- `decay`. -/
def decay (symbol : ℤ) (d : SpoofDetector) : SpoofDetector :=
  { d with
    bidPressure := decayed symbol d.bidPressure
    askPressure := decayed symbol d.askPressure }

/-! ### Runs -/

/-- A call on the detector, with the reading of the clock if it makes one. -/
inductive Call
  | newOrder (orderId symbol : ℤ) (side : Side) (qty : ℕ) (now : ℚ)
  | cancel (orderId symbol : ℤ) (now : ℚ)
  | trade (orderId : ℤ)
  | decay (symbol : ℤ)
  deriving DecidableEq

/-- What a call does. -/
def Call.apply : Call → SpoofDetector → SpoofDetector
  | .newOrder orderId symbol side qty now => onNewOrder orderId symbol side qty now
  | .cancel orderId symbol now => onCancel orderId symbol now
  | .trade orderId => onTrade orderId
  | .decay symbol => SpoofDetector.decay symbol

/-- The detector after a history of calls. -/
def run (calls : List Call) : SpoofDetector := calls.foldl (fun d call ↦ call.apply d) init

theorem run_concat (calls : List Call) (call : Call) :
    run (calls ++ [call]) = call.apply (run calls) := by
  rw [run, List.foldl_append]
  rfl

/-! ### What a history says -/

/-- The sizes of a symbol's orders, as they were announced. -/
def sizes (symbol : ℤ) (calls : List Call) : List ℕ :=
  calls.filterMap fun
    | .newOrder _ symbol' _ qty _ => if symbol' = symbol then some qty else none
    | _ => none

/-- The average of sizes, the later ones counting for more. -/
def averageOf (sizes : List ℕ) : Option ℚ :=
  sizes.foldl (fun (avg : Option ℚ) (qty : ℕ) ↦ some (nextAverage (avg.getD qty) qty)) none

/-- A large order has been announced, as the call in this place. -/
def Announces (calls : List Call) (i : ℕ) (orderId : ℤ) (entry : TrackedOrder) : Prop :=
  ∃ symbol, calls[i]? = some (.newOrder orderId symbol entry.side entry.qty entry.time) ∧
    Large ((averageOf (sizes symbol (calls.take i))).getD entry.qty) entry.qty

/-- An order has been traded or cancelled, as the call in this place. -/
def Settles (calls : List Call) (i : ℕ) (orderId : ℤ) : Prop :=
  calls[i]? = some (.trade orderId) ∨ ∃ symbol now, calls[i]? = some (.cancel orderId symbol now)

/-- Before a place, a large order has been announced, and nothing has been said of it since. -/
def Watches (calls : List Call) (j : ℕ) (orderId : ℤ) (entry : TrackedOrder) : Prop :=
  ∃ i < j, Announces calls i orderId entry ∧ ∀ k, i < k → k < j →
    ¬ Settles calls k orderId ∧ ∀ entry', ¬ Announces calls k orderId entry'

/-- **A spoof**: in this place an order is cancelled that had been announced as large within the
window, and has not traded. -/
def Spoofed (calls : List Call) (side : Side) (symbol : ℤ) (j qty : ℕ) : Prop :=
  ∃ orderId now entry, calls[j]? = some (.cancel orderId symbol now) ∧
    Watches calls j orderId entry ∧ now - entry.time < WINDOW_S ∧ entry.side = side ∧
    entry.qty = qty

/-- How often a symbol has been stepped. -/
def decays (symbol : ℤ) (calls : List Call) : ℕ := calls.count (.decay symbol)

/-- The sizes of spoofs, given with their places, each faded since. -/
def total (symbol : ℤ) (calls : List Call) (spoofs : List (ℕ × ℕ)) : ℚ :=
  (spoofs.map fun p ↦ p.2 * DECAY.factor ^ decays symbol (calls.drop (p.1 + 1))).sum

section

variable {calls : List Call} {call : Call} {orderId symbol : ℤ} {entry : TrackedOrder} {side : Side}
  {i j qty : ℕ}

/-! ### One more call -/

/-- An earlier call stands where it stood. -/
theorem getElem?_of_lt (h : i < calls.length) (call : Call) : (calls ++ [call])[i]? = calls[i]? :=
  List.getElem?_append_left h

theorem getElem?_length (calls : List Call) (call : Call) :
    (calls ++ [call])[calls.length]? = some call := by
  rw [List.getElem?_append_right le_rfl, Nat.sub_self]
  rfl

/-- An earlier call announces what it did. -/
theorem announces_concat (h : i < calls.length) (call : Call) :
    Announces (calls ++ [call]) i orderId entry ↔ Announces calls i orderId entry := by
  unfold Announces
  rw [getElem?_of_lt h, List.take_append_of_le_length h.le]

theorem settles_concat (h : i < calls.length) (call : Call) :
    Settles (calls ++ [call]) i orderId ↔ Settles calls i orderId := by
  unfold Settles
  rw [getElem?_of_lt h]

/-- What was watched up to an earlier call. -/
theorem watches_concat (h : j ≤ calls.length) (call : Call) :
    Watches (calls ++ [call]) j orderId entry ↔ Watches calls j orderId entry := by
  unfold Watches
  refine exists_congr fun i ↦ and_congr_right fun hi ↦ ?_
  rw [announces_concat (hi.trans_le h)]
  refine and_congr_right fun _ ↦ forall_congr' fun k ↦ imp_congr_right fun _ ↦
    imp_congr_right fun hk ↦ ?_
  rw [settles_concat (hk.trans_le h)]
  exact and_congr_right fun _ ↦ forall_congr' fun entry' ↦ by
    rw [announces_concat (hk.trans_le h)]

theorem spoofed_concat (h : j < calls.length) (call : Call) :
    Spoofed (calls ++ [call]) side symbol j qty ↔ Spoofed calls side symbol j qty := by
  unfold Spoofed
  refine exists_congr fun orderId ↦ exists_congr fun now ↦ exists_congr fun entry ↦ ?_
  rw [getElem?_of_lt h, watches_concat h.le]

/-- **What is watched** after one more call: what it announces, or what has been watched before and
the call says nothing of. -/
theorem watches_succ : Watches (calls ++ [call]) (calls.length + 1) orderId entry ↔
    Announces (calls ++ [call]) calls.length orderId entry ∨
      Watches calls calls.length orderId entry ∧ ¬ Settles (calls ++ [call]) calls.length orderId ∧
        ∀ entry', ¬ Announces (calls ++ [call]) calls.length orderId entry' := by
  constructor
  · rintro ⟨i, hi, hannounces, hquiet⟩
    rcases (Nat.lt_succ_iff.1 hi).eq_or_lt with rfl | hlt
    · exact Or.inl hannounces
    · refine Or.inr ⟨?_, hquiet _ hlt (Nat.lt_succ_self _)⟩
      exact (watches_concat le_rfl call).1 ⟨i, hlt, hannounces, fun k hik hk ↦
        hquiet k hik (hk.trans (Nat.lt_succ_self _))⟩
  · rintro (hannounces | ⟨hwatches, hquiet⟩)
    · exact ⟨calls.length, Nat.lt_succ_self _, hannounces, fun k hik hk ↦ by omega⟩
    · obtain ⟨i, hi, hannounces, hbefore⟩ := (watches_concat le_rfl call).2 hwatches
      refine ⟨i, hi.trans (Nat.lt_succ_self _), hannounces, fun k hik hk ↦ ?_⟩
      rcases (Nat.lt_succ_iff.1 hk).eq_or_lt with rfl | hlt
      · exact hquiet
      · exact hbefore k hik hlt

/-! ### What the detector keeps -/

theorem averageOf_concat (sizes : List ℕ) (qty : ℕ) : averageOf (sizes ++ [qty]) =
    some (nextAverage ((averageOf sizes).getD qty) qty) := by
  rw [averageOf, List.foldl_append]
  rfl

theorem sizes_concat (symbol : ℤ) (calls : List Call) (call : Call) :
    sizes symbol (calls ++ [call]) = sizes symbol calls ++ sizes symbol [call] :=
  List.filterMap_append

theorem avgQty_onCancel (orderId symbol : ℤ) (now : ℚ) (d : SpoofDetector) :
    (d.onCancel orderId symbol now).avgQty = d.avgQty := by
  unfold onCancel
  split
  · rfl
  · dsimp only
    split
    · unfold setPressures
      split <;> rfl
    · rfl

/-- A new order moves that of its own symbol. -/
theorem avgQty_onNewOrder (orderId symbol : ℤ) (side : Side) (qty : ℕ) (now : ℚ)
    (d : SpoofDetector) : (d.onNewOrder orderId symbol side qty now).avgQty =
      d.avgQty.insert symbol (nextAverage (d.average symbol qty) qty) := by
  unfold onNewOrder
  dsimp only
  split <;> rfl

/-- **The averages** are those of the sizes that were announced. -/
theorem get?_avgQty_run (calls : List Call) (symbol : ℤ) :
    (run calls).avgQty.get? symbol = averageOf (sizes symbol calls) := by
  induction calls using List.reverseRecOn with
  | nil => rfl
  | append_singleton calls call ih =>
    rw [run_concat, sizes_concat]
    cases call with
    | newOrder orderId symbol' side qty now =>
      show ((run calls).onNewOrder orderId symbol' side qty now).avgQty.get? symbol = _
      rw [avgQty_onNewOrder, Dict.get?_insert, average]
      split
      · rename_i hsymbol
        subst hsymbol
        rw [ih, show sizes symbol [.newOrder orderId symbol side qty now] = [qty] from
          List.filterMap_cons_some (if_pos rfl), averageOf_concat]
      · rename_i hsymbol
        rw [ih, show sizes symbol [.newOrder orderId symbol' side qty now] = [] from
          List.filterMap_cons_none (if_neg (Ne.symm hsymbol)), List.append_nil]
    | cancel orderId symbol' now =>
      show ((run calls).onCancel orderId symbol' now).avgQty.get? symbol = _
      rw [avgQty_onCancel, ih, show sizes symbol [.cancel orderId symbol' now] = [] from rfl,
        List.append_nil]
    | trade orderId =>
      rw [show sizes symbol [.trade orderId] = [] from rfl, List.append_nil]
      exact ih
    | decay symbol' =>
      rw [show sizes symbol [.decay symbol'] = [] from rfl, List.append_nil]
      exact ih

/-- A cancelled order is not watched any more. -/
theorem tracked_onCancel (orderId symbol : ℤ) (now : ℚ) (d : SpoofDetector) :
    (d.onCancel orderId symbol now).tracked = d.tracked.erase orderId := by
  unfold onCancel
  split
  · rename_i hnone
    exact (Dict.erase_eq_self hnone).symm
  · dsimp only
    split
    · unfold setPressures
      split <;> rfl
    · rfl

/-- What the next call announces. -/
theorem announces_last : Announces (calls ++ [call]) calls.length orderId entry ↔
    ∃ symbol, call = .newOrder orderId symbol entry.side entry.qty entry.time ∧
      Large ((run calls).average symbol entry.qty) entry.qty := by
  unfold Announces average
  rw [getElem?_length, List.take_left]
  refine exists_congr fun symbol ↦ ?_
  rw [get?_avgQty_run, Option.some.injEq]

/-- A trade or a cancel settles its order. -/
theorem settles_last : Settles (calls ++ [call]) calls.length orderId ↔
    call = .trade orderId ∨ ∃ symbol now, call = .cancel orderId symbol now := by
  unfold Settles
  rw [getElem?_length]
  simp only [Option.some.injEq]

/-- **What is tracked** after a call: what it announces, or what has been tracked before and the
call says nothing of. -/
theorem get?_tracked_apply (call : Call) (d : SpoofDetector) (orderId : ℤ) (entry : TrackedOrder) :
    (call.apply d).tracked.get? orderId = some entry ↔
      (∃ symbol, call = .newOrder orderId symbol entry.side entry.qty entry.time ∧
        Large (d.average symbol entry.qty) entry.qty) ∨
      d.tracked.get? orderId = some entry ∧
        ¬ (call = .trade orderId ∨ ∃ symbol now, call = .cancel orderId symbol now) ∧
        ∀ entry' : TrackedOrder, ¬ ∃ symbol,
          call = .newOrder orderId symbol entry'.side entry'.qty entry'.time ∧
            Large (d.average symbol entry'.qty) entry'.qty := by
  cases call with
  | newOrder orderId' symbol side qty now =>
    show (d.onNewOrder orderId' symbol side qty now).tracked.get? orderId = _ ↔ _
    unfold onNewOrder
    dsimp only
    split
    · rename_i hlarge
      rw [Dict.get?_insert]
      split
      · rename_i hid
        subst hid
        constructor
        · intro h
          cases h
          exact Or.inl ⟨symbol, rfl, hlarge⟩
        · rintro (⟨symbol', heq, -⟩ | ⟨-, -, hnone⟩)
          · cases heq
            rfl
          · exact absurd ⟨symbol, rfl, hlarge⟩ (hnone ⟨now, side, qty⟩)
      · rename_i hid
        refine ⟨fun h ↦ Or.inr ⟨h, by simp, ?_⟩, ?_⟩
        · rintro entry' ⟨symbol', heq, -⟩
          cases heq
          exact hid rfl
        · rintro (⟨symbol', heq, -⟩ | ⟨h, -⟩)
          · cases heq
            exact absurd rfl hid
          · exact h
    · rename_i hsmall
      refine ⟨fun h ↦ Or.inr ⟨h, by simp, ?_⟩, ?_⟩
      · rintro entry' ⟨symbol', heq, hlarge⟩
        cases heq
        exact hsmall hlarge
      · rintro (⟨symbol', heq, hlarge⟩ | ⟨h, -⟩)
        · cases heq
          exact absurd hlarge hsmall
        · exact h
  | cancel orderId' symbol now =>
    show (d.onCancel orderId' symbol now).tracked.get? orderId = _ ↔ _
    rw [tracked_onCancel, Dict.get?_erase]
    split
    · rename_i hid
      subst hid
      simp
    · rename_i hid
      simp [Ne.symm hid]
  | trade orderId' =>
    show (d.tracked.erase orderId').get? orderId = _ ↔ _
    rw [Dict.get?_erase]
    split
    · rename_i hid
      subst hid
      simp
    · rename_i hid
      simp [Ne.symm hid]
  | decay symbol =>
    show d.tracked.get? orderId = _ ↔ _
    simp

/-- **The orders that are tracked** are those that are watched. -/
theorem get?_tracked_run (calls : List Call) (orderId : ℤ) (entry : TrackedOrder) :
    (run calls).tracked.get? orderId = some entry ↔ Watches calls calls.length orderId entry := by
  induction calls using List.reverseRecOn with
  | nil =>
    refine Iff.intro (fun h ↦ absurd h (by simp [run, init])) ?_
    rintro ⟨i, hi, -⟩
    exact absurd hi (Nat.not_lt_zero i)
  | append_singleton calls call ih =>
    rw [run_concat, get?_tracked_apply, List.length_append, List.length_singleton, watches_succ,
      ← ih, settles_last]
    simp only [announces_last]

/-! ### The pressures -/

/-- A step fades the pressure of its own symbol. -/
theorem getD_decayed (symbol symbol' : ℤ) (p : Dict ℤ ℚ) :
    ((decayed symbol' p).get? symbol).getD 0 =
      if symbol = symbol' then DECAY.fade ((p.get? symbol).getD 0) else (p.get? symbol).getD 0 := by
  have hzero : DECAY.fade 0 = 0 := by
    unfold Fading.fade
    rw [zero_mul, ite_self]
  unfold decayed
  split
  · rename_i hnone
    split
    · rename_i hsymbol
      subst hsymbol
      rw [hnone, Option.getD_none, hzero]
    · rfl
  · rename_i v hsome
    dsimp only
    split
    · rename_i hdropped
      rw [Dict.get?_erase]
      split
      · rename_i hsymbol
        subst hsymbol
        rw [hsome, Option.getD_some, Option.getD_none]
        exact (if_pos hdropped).symm
      · rfl
    · rename_i hkept
      rw [Dict.get?_insert]
      split
      · rename_i hsymbol
        subst hsymbol
        rw [hsome, Option.getD_some, Option.getD_some]
        exact (if_neg hkept).symm
      · rfl

theorem spoofQty_decay (side : Side) (symbol symbol' : ℤ) (d : SpoofDetector) :
    (d.decay symbol').spoofQty side symbol =
      if symbol = symbol' then DECAY.fade (d.spoofQty side symbol) else d.spoofQty side symbol := by
  cases side with
  | buy => exact getD_decayed symbol symbol' d.bidPressure
  | sell => exact getD_decayed symbol symbol' d.askPressure

theorem spoofQty_onNewOrder (side : Side) (symbol orderId symbol' : ℤ) (side' : Side) (qty : ℕ)
    (now : ℚ) (d : SpoofDetector) :
    (d.onNewOrder orderId symbol' side' qty now).spoofQty side symbol = d.spoofQty side symbol := by
  unfold onNewOrder
  dsimp only
  split <;> cases side <;> rfl

/-- The pressures of one side are replaced. -/
theorem pressures_setPressures (side side' : Side) (p : Dict ℤ ℚ) (d : SpoofDetector) :
    (d.setPressures side' p).pressures side = if side = side' then p else d.pressures side := by
  cases side <;> cases side' <;> rfl

/-- What a cancel counts. -/
def counted? (side : Side) (symbol : ℤ) (d : SpoofDetector) : Call → Option ℕ
  | .cancel orderId symbol' now => (d.tracked.get? orderId).bind fun entry ↦
      if now - entry.time < WINDOW_S ∧ entry.side = side ∧ symbol' = symbol then some entry.qty
      else none
  | _ => none

/-- **A cancel adds what it counts for** to its side and symbol. -/
theorem spoofQty_onCancel (side : Side) (symbol orderId symbol' : ℤ) (now : ℚ)
    (d : SpoofDetector) : (d.onCancel orderId symbol' now).spoofQty side symbol =
      d.spoofQty side symbol +
        ((counted? side symbol d (.cancel orderId symbol' now)).getD 0 : ℕ) := by
  rcases hentry : d.tracked.get? orderId with - | entry
  · have hnone : counted? side symbol d (.cancel orderId symbol' now) = none := by
      rw [counted?, hentry]
      rfl
    rw [hnone, onCancel, hentry]
    exact (add_zero (d.spoofQty side symbol)).symm
  have hsome : counted? side symbol d (.cancel orderId symbol' now) =
      if now - entry.time < WINDOW_S ∧ entry.side = side ∧ symbol' = symbol then some entry.qty
      else none := by
    rw [counted?, hentry, Option.bind_some]
  have hquiet (h : ¬ (now - entry.time < WINDOW_S ∧ entry.side = side ∧ symbol' = symbol)) :
      d.spoofQty side symbol = d.spoofQty side symbol +
        ((counted? side symbol d (.cancel orderId symbol' now)).getD 0 : ℕ) := by
    rw [hsome, if_neg h]
    exact (add_zero (d.spoofQty side symbol)).symm
  rw [onCancel, hentry]
  dsimp only
  split
  · rename_i hsoon
    rw [spoofQty, pressures_setPressures]
    by_cases hside : entry.side = side
    · subst hside
      rw [if_pos rfl, Dict.get?_insert]
      by_cases hsymbol : symbol' = symbol
      · subst hsymbol
        rw [if_pos rfl, hsome, if_pos ⟨hsoon, rfl, rfl⟩]
        cases entry.side <;> rfl
      · rw [if_neg (Ne.symm hsymbol), ← hquiet fun h ↦ hsymbol h.2.2]
        cases entry.side <;> rfl
    · rw [if_neg (Ne.symm hside), ← hquiet fun h ↦ hside h.2.1]
      cases side <;> rfl
  · rename_i hlate
    rw [← hquiet fun h ↦ hlate h.1]
    cases side <;> rfl

/-- **The pressure after a call**. -/
theorem spoofQty_apply (side : Side) (symbol : ℤ) (call : Call) (d : SpoofDetector) :
    (call.apply d).spoofQty side symbol =
      if call = .decay symbol then DECAY.fade (d.spoofQty side symbol)
      else d.spoofQty side symbol + ((counted? side symbol d call).getD 0 : ℕ) := by
  cases call with
  | newOrder orderId symbol' side' qty now =>
    rw [if_neg Call.noConfusion]
    refine (spoofQty_onNewOrder side symbol orderId symbol' side' qty now d).trans ?_
    exact (add_zero _).symm
  | cancel orderId symbol' now =>
    rw [if_neg Call.noConfusion]
    exact spoofQty_onCancel side symbol orderId symbol' now d
  | trade orderId =>
    rw [if_neg Call.noConfusion]
    cases side <;> exact (add_zero _).symm
  | decay symbol' =>
    refine (spoofQty_decay side symbol symbol' d).trans (if_congr ?_ rfl (add_zero _).symm)
    exact ⟨fun h ↦ congrArg Call.decay h.symm, fun h ↦ (Call.decay.inj h).symm⟩

/-- **What the next call counts** is a spoof. -/
theorem spoofed_last : Spoofed (calls ++ [call]) side symbol calls.length qty ↔
    counted? side symbol (run calls) call = some qty := by
  unfold Spoofed
  simp only [getElem?_length, Option.some.injEq, watches_concat le_rfl, ← get?_tracked_run]
  unfold counted?
  split
  · rename_i orderId symbol' now
    rw [Option.bind_eq_some_iff]
    constructor
    · rintro ⟨_, _, entry, heq, hentry, hsoon, hside, hqty⟩
      cases heq
      exact ⟨entry, hentry, (if_pos ⟨hsoon, hside, rfl⟩).trans (congrArg some hqty)⟩
    · rintro ⟨entry, hentry, hcounted⟩
      obtain ⟨⟨hsoon, hside, rfl⟩, hqty⟩ := Option.ite_none_right_eq_some.1 hcounted
      exact ⟨orderId, now, entry, rfl, hentry, hsoon, hside, Option.some.inj hqty⟩
  · rename_i hother
    refine ⟨?_, fun h ↦ by cases h⟩
    rintro ⟨orderId, now, entry, rfl, -⟩
    exact absurd rfl (hother orderId symbol now)

theorem lt_of_spoofed (h : Spoofed calls side symbol j qty) : j < calls.length := by
  obtain ⟨_, _, _, hcancel, -⟩ := h
  exact (List.getElem?_eq_some_iff.1 hcancel).1

/-- The size of a spoof is that of a large order. -/
theorem three_le_of_spoofed (h : Spoofed calls side symbol j qty) : 3 ≤ qty := by
  obtain ⟨orderId, now, entry, -, ⟨i, -, ⟨symbol', -, hlarge⟩, -⟩, -, -, rfl⟩ := h
  exact_mod_cast (le_max_left _ _).trans hlarge

/-- The places are before the end: each summand has faded once more, or none has. -/
theorem total_concat {spoofs : List (ℕ × ℕ)} (h : ∀ p ∈ spoofs, p.1 < calls.length)
    (call : Call) (symbol : ℤ) : total symbol (calls ++ [call]) spoofs =
      if call = .decay symbol then total symbol calls spoofs * DECAY.factor
      else total symbol calls spoofs := by
  have hcount (p : ℕ × ℕ) (hp : p ∈ spoofs) :
      decays symbol ((calls ++ [call]).drop (p.1 + 1)) =
        decays symbol (calls.drop (p.1 + 1)) + if call = .decay symbol then 1 else 0 := by
    unfold decays
    rw [List.drop_append_of_le_length (h p hp), List.count_append, List.count_singleton]
    simp only [beq_iff_eq]
  unfold total
  split
  · rename_i heq
    rw [← List.sum_map_mul_right]
    refine congrArg List.sum (List.map_congr_left fun p hp ↦ ?_)
    rw [hcount p hp, if_pos heq, pow_succ, mul_assoc]
  · rename_i hne
    refine congrArg List.sum (List.map_congr_left fun p hp ↦ ?_)
    rw [hcount p hp, if_neg hne, add_zero]

/-- A spoof in the last place has not faded yet. -/
theorem total_last (symbol : ℤ) (calls : List Call) (call : Call) (spoofs : List (ℕ × ℕ))
    (qty : ℕ) : total symbol (calls ++ [call]) (spoofs ++ [(calls.length, qty)]) =
      total symbol (calls ++ [call]) spoofs + qty := by
  unfold total
  rw [List.map_append, List.sum_append, List.map_singleton, List.sum_singleton,
    List.drop_of_length_le (by simp)]
  show _ + (qty : ℚ) * DECAY.factor ^ 0 = _
  rw [pow_zero, mul_one]

/-- The list has each spoof once, in the order of their places, and nothing else. -/
def Lists (calls : List Call) (side : Side) (symbol : ℤ) (spoofs : List (ℕ × ℕ)) : Prop :=
  (spoofs.map Prod.fst).Pairwise (· < ·) ∧
    ∀ j qty, (j, qty) ∈ spoofs ↔ Spoofed calls side symbol j qty

theorem Lists.lt_length {spoofs : List (ℕ × ℕ)} (h : Lists calls side symbol spoofs) :
    ∀ p ∈ spoofs, p.1 < calls.length :=
  fun p hp ↦ lt_of_spoofed ((h.2 p.1 p.2).1 hp)

/-- A call that is no spoof leaves the list. -/
theorem Lists.concat_none {spoofs : List (ℕ × ℕ)} (h : Lists calls side symbol spoofs)
    (hcounted : counted? side symbol (run calls) call = none) :
    Lists (calls ++ [call]) side symbol spoofs := by
  refine ⟨h.1, fun j qty ↦ ?_⟩
  rcases lt_or_ge j calls.length with hlt | hge
  · rw [h.2, spoofed_concat hlt]
  refine iff_of_false (fun hmem ↦ absurd (h.lt_length _ hmem) (not_lt.2 hge)) fun hspoofed ↦ ?_
  have hlt := lt_of_spoofed hspoofed
  rw [List.length_append, List.length_singleton] at hlt
  obtain rfl : j = calls.length := le_antisymm (Nat.lt_succ_iff.1 hlt) hge
  rw [spoofed_last, hcounted] at hspoofed
  cases hspoofed

/-- A spoof is added to the list. -/
theorem Lists.concat_some {spoofs : List (ℕ × ℕ)} (h : Lists calls side symbol spoofs)
    (hcounted : counted? side symbol (run calls) call = some qty) :
    Lists (calls ++ [call]) side symbol (spoofs ++ [(calls.length, qty)]) := by
  constructor
  · rw [List.map_append, List.pairwise_append]
    refine ⟨h.1, List.pairwise_singleton _ _, fun j hj k hk ↦ ?_⟩
    obtain ⟨p, hp, rfl⟩ := List.mem_map.1 hj
    obtain rfl := List.mem_singleton.1 hk
    exact h.lt_length p hp
  · intro j qty'
    rw [List.mem_append, List.mem_singleton, Prod.mk.injEq]
    rcases lt_or_ge j calls.length with hlt | hge
    · rw [spoofed_concat hlt, h.2, or_iff_left fun heq ↦ absurd heq.1 hlt.ne]
    rw [or_iff_right fun hmem ↦ absurd (h.lt_length _ hmem) (not_lt.2 hge)]
    constructor
    · rintro ⟨rfl, rfl⟩
      exact spoofed_last.2 hcounted
    · intro hspoofed
      have hlt := lt_of_spoofed hspoofed
      rw [List.length_append, List.length_singleton] at hlt
      obtain rfl : j = calls.length := le_antisymm (Nat.lt_succ_iff.1 hlt) hge
      rw [spoofed_last, hcounted] at hspoofed
      exact ⟨rfl, (Option.some.inj hspoofed).symm⟩

/-- What is forgotten is less than three. -/
theorem floor_lt_three : DECAY.floor < 3 := by norm_num [DECAY]

/-- The pressure is near the sum over a list of the spoofs. -/
theorem near_run (calls : List Call) (side : Side) (symbol : ℤ) :
    ∃ spoofs, Lists calls side symbol spoofs ∧
      DECAY.Near 3 (total symbol calls spoofs) ((run calls).spoofQty side symbol) := by
  induction calls using List.reverseRecOn with
  | nil =>
    refine ⟨[], ⟨List.Pairwise.nil, fun j qty ↦ ?_⟩, ?_⟩
    · exact iff_of_false List.not_mem_nil fun h ↦ absurd (lt_of_spoofed h) (Nat.not_lt_zero j)
    · have hzero : (run []).spoofQty side symbol = 0 := by cases side <;> rfl
      rw [hzero]
      exact Fading.near_zero floor_lt_three
  | append_singleton calls call ih =>
    obtain ⟨spoofs, hlists, hnear⟩ := ih
    rcases hcounted : counted? side symbol (run calls) call with - | qty
    · refine ⟨spoofs, hlists.concat_none hcounted, ?_⟩
      rw [total_concat hlists.lt_length, run_concat, spoofQty_apply, hcounted]
      split
      · exact hnear.fade floor_lt_three
      · rw [Option.getD_none, Nat.cast_zero, add_zero]
        exact hnear
    · have hspoofed := hlists.concat_some hcounted
      have hne : call ≠ .decay symbol := by
        rintro rfl
        cases hcounted
      have hleast : (3 : ℚ) ≤ qty := by
        exact_mod_cast three_le_of_spoofed (spoofed_last.2 hcounted)
      refine ⟨_, hspoofed, ?_⟩
      rw [total_last, total_concat hlists.lt_length, run_concat, spoofQty_apply, hcounted,
        if_neg hne, if_neg hne]
      exact hnear.add floor_lt_three hleast

/-- **The pressure is what the history says**: there is a list that has each spoof of the symbol on
the side once, in the order of the cancels in which they show, and nothing else; and the pressure is
the sum of their sizes, each faded as often as the symbol has been stepped since, but for less than
one share. -/
theorem pressure_bounds (calls : List Call) (side : Side) (symbol : ℤ) :
    ∃ spoofs, Lists calls side symbol spoofs ∧
      (run calls).spoofQty side symbol ≤ total symbol calls spoofs ∧
      total symbol calls spoofs ≤ (run calls).spoofQty side symbol + 3 / 5 := by
  obtain ⟨spoofs, hlists, hnear⟩ := near_run calls side symbol
  have hbounds := hnear.bounds floor_lt_three
  refine ⟨spoofs, hlists, hbounds.1, hbounds.2.trans_eq ?_⟩
  norm_num [DECAY]

/-- Without a spoof there is no pressure. -/
theorem spoofQty_eq_zero (h : ∀ j qty, ¬ Spoofed calls side symbol j qty) :
    (run calls).spoofQty side symbol = 0 := by
  obtain ⟨spoofs, hlists, hnear⟩ := near_run calls side symbol
  have hnil : spoofs = [] :=
    List.eq_nil_iff_forall_not_mem.2 fun p hp ↦ h p.1 p.2 ((hlists.2 p.1 p.2).1 hp)
  rw [hnil] at hnear
  exact le_antisymm hnear.le hnear.nonneg

end

end SpoofDetector

end HftTrading.Strategy
