import Mathlib.Data.Int.Notation
import Mathlib.Logic.Function.Basic

/-!
# The market the books are a picture of

What the order books are for, without levels, heaps or an index: which order rests under which id in
which symbol's book. A `Market` is that function; `Action` is what an exchange message does to it,
and `Accepts` is when the message makes sense there.

The id-only actions need no index here: they act on the id in every symbol at once, and where a new
order is accepted only under an id that rests nowhere, that is one place at most.

## Accepted and fair

The books may take a message that does not make sense in the market: a new order under an id that
rests in another symbol's book, a trade of more than an order has left. What an exchange sees to by
itself, and the books do not check, is `Fair`. Sequences of actions are applied from the left, and
accepted one by one, each where the ones before it have led to (`AcceptsAll`).

Symbols, ids and sides are of any types here.
-/

namespace HftTrading

/-- What of a resting order the market is about. -/
structure Resting (Side : Type) where
  side : Side
  quantity : ℤ
  price : ℤ
  deriving DecidableEq

/-- Which orders rest: by symbol and order id. -/
abbrev Market (σ κ Side : Type) : Type := σ → κ → Option (Resting Side)

/-- What a message does; `skip` does nothing, and `refuse` has no place in a market. -/
inductive Action (σ κ Side : Type)
  | new (symbol : σ) (id : κ) (order : Resting Side)
  | delete (id : κ)
  | modify (id : κ) (order : Resting Side)
  | trade (id : κ) (quantity : ℤ)
  | skip
  | refuse

namespace Market

variable {σ κ Side : Type} [DecidableEq σ] [DecidableEq κ]

/-- The market without orders. -/
def empty : Market σ κ Side := fun _ _ ↦ none

/-- An order after a trade: nothing when nothing is left. -/
def fill (quantity : ℤ) (o : Resting Side) : Option (Resting Side) :=
  if o.quantity - quantity = 0 then none else some { o with quantity := o.quantity - quantity }

/-- The market with what rests under one id changed, wherever it rests. -/
def update (V : Market σ κ Side) (id : κ) (f : Option (Resting Side) → Option (Resting Side)) :
    Market σ κ Side :=
  fun s k ↦ if k = id then f (V s k) else V s k

/-- The market after an action. -/
def apply (V : Market σ κ Side) : Action σ κ Side → Market σ κ Side
  | .new symbol id order => fun s k ↦ if (s, k) = (symbol, id) then some order else V s k
  | .delete id => V.update id fun _ ↦ none
  | .modify id order => V.update id (Option.map fun _ ↦ order)
  | .trade id quantity => V.update id fun o ↦ o.bind (fill quantity)
  | .skip => V
  | .refuse => V

omit [DecidableEq σ] in
theorem update_self (V : Market σ κ Side) (id : κ)
    (f : Option (Resting Side) → Option (Resting Side)) (s : σ) :
    V.update id f s id = f (V s id) := if_pos rfl

omit [DecidableEq σ] in
theorem update_of_ne (V : Market σ κ Side) {id k : κ} (h : k ≠ id)
    (f : Option (Resting Side) → Option (Resting Side)) (s : σ) : V.update id f s k = V s k :=
  if_neg h

/-- When an action makes sense: a new order under an id that rests nowhere, a change of an order
that rests, a trade of no more than is left. A delete of an id that does not rest is allowed. -/
def Accepts (V : Market σ κ Side) : Action σ κ Side → Prop
  | .new _ id order => (∀ s, V s id = none) ∧ 0 < order.quantity
  | .delete _ => True
  | .modify id order => (∃ s o, V s id = some o) ∧ 0 < order.quantity
  | .trade id quantity => ∃ s o, V s id = some o ∧ quantity ≤ o.quantity
  | .skip => True
  | .refuse => False

/-- What an exchange sees to by itself: it gives no new order an id that rests, and fills no order
beyond its quantity. -/
def Fair (V : Market σ κ Side) : Action σ κ Side → Prop
  | .new _ id _ => ∀ s, V s id = none
  | .trade id quantity => ∀ s o, V s id = some o → quantity ≤ o.quantity
  | _ => True

/-- The market after a sequence of actions. -/
def applyAll (V : Market σ κ Side) (actions : List (Action σ κ Side)) : Market σ κ Side :=
  actions.foldl apply V

/-- Each action makes sense when its turn comes. -/
def AcceptsAll (V : Market σ κ Side) : List (Action σ κ Side) → Prop
  | [] => True
  | a :: rest => V.Accepts a ∧ AcceptsAll (V.apply a) rest

@[simp] theorem applyAll_nil (V : Market σ κ Side) : V.applyAll [] = V := rfl

@[simp] theorem applyAll_cons (V : Market σ κ Side) (a : Action σ κ Side)
    (rest : List (Action σ κ Side)) : V.applyAll (a :: rest) = (V.apply a).applyAll rest := rfl

theorem applyAll_append (V : Market σ κ Side) (as bs : List (Action σ κ Side)) :
    V.applyAll (as ++ bs) = (V.applyAll as).applyAll bs :=
  List.foldl_append

theorem acceptsAll_append {V : Market σ κ Side} {as bs : List (Action σ κ Side)} :
    V.AcceptsAll (as ++ bs) ↔ V.AcceptsAll as ∧ (V.applyAll as).AcceptsAll bs := by
  induction as generalizing V with
  | nil => simp [AcceptsAll]
  | cons a as ih => simp [AcceptsAll, ih, and_assoc]

theorem exists_of_apply {V : Market σ κ Side} {a : Action σ κ Side} {s : σ} {k : κ}
    {r : Resting Side} (h : V.apply a s k = some r) :
    (∃ r', V s k = some r') ∨ ∃ r', a = .new s k r' := by
  have hupdate : ∀ (id : κ) (f : Option (Resting Side) → Option (Resting Side)), f none = none →
      V.update id f s k = some r → ∃ r', V s k = some r' := by
    intro id f hf hr
    by_contra hnone
    rw [← Option.ne_none_iff_exists', not_not] at hnone
    rw [update, hnone, hf, ite_self] at hr
    cases hr
  cases a with
  | new symbol id order =>
    by_cases heq : (s, k) = (symbol, id)
    · obtain ⟨rfl, rfl⟩ := Prod.mk.inj heq
      exact Or.inr ⟨order, rfl⟩
    · exact Or.inl ⟨r, (if_neg heq).symm.trans h⟩
  | delete id => exact Or.inl (hupdate id (fun _ ↦ none) rfl h)
  | modify id order => exact Or.inl (hupdate id (Option.map fun _ ↦ order) rfl h)
  | trade id quantity => exact Or.inl (hupdate id (fun o ↦ o.bind (fill quantity)) rfl h)
  | skip => exact Or.inl ⟨r, h⟩
  | refuse => exact Or.inl ⟨r, h⟩

/-- What rests in the end rested before or was placed on the way. -/
theorem exists_of_applyAll {V : Market σ κ Side} {as : List (Action σ κ Side)} {s : σ} {k : κ}
    {r : Resting Side} (h : V.applyAll as s k = some r) :
    (∃ r', V s k = some r') ∨ ∃ r', .new s k r' ∈ as := by
  induction as generalizing V with
  | nil => exact Or.inl ⟨r, h⟩
  | cons a as ih =>
    rcases ih h with ⟨r', hr'⟩ | ⟨r', hr'⟩
    · rcases exists_of_apply hr' with hold | ⟨r'', rfl⟩
      · exact Or.inl hold
      · exact Or.inr ⟨r'', List.mem_cons_self⟩
    · exact Or.inr ⟨r', List.mem_cons_of_mem _ hr'⟩

end Market

end HftTrading
