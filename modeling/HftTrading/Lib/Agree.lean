import HftTrading.Lib.Method
import Mathlib.Data.List.Forall2

/-!
# Two runs of one method

The same call on two states that differ in something the call does not go by: it returns the same
value from both or raises the same exception from both, and what differs stays of the same kind
(`Agree R`).

## The rules

They follow the statement forms of a method's text, as those of `Keeps` do, so that a proof about a
method is a walk along its text. There are two levels because of one statement form. `Agree R`
quantifies over related states, and composes; but where a method reads its state the two readings
are related, not equal, and the rest of the method is not one method any more. So `agree_get` leaves
the rest to be compared as outcomes, from the two states at hand (`Alike R`).

The states need not be of the same type. This is what lets a system be compared with a part of it,
or with a copy that carries a record the other does not.

## From calls to runs

**What holds of every call holds of a run** (`Agree.outcomes`), outcome by outcome, the caller
going on with whatever a call that raised left behind.
-/

namespace Method

variable {ε σ τ α β : Type}

/-- Two outcomes that return the same or raise the same, in related states. -/
inductive Alike (R : σ → τ → Prop) : EStateM.Result ε σ α → EStateM.Result ε τ α → Prop
  | ok (a : α) {s : σ} {t : τ} (h : R s t) : Alike R (.ok a s) (.ok a t)
  | error (e : ε) {s : σ} {t : τ} (h : R s t) : Alike R (.error e s) (.error e t)

/-- From related states the two methods have like outcomes. -/
def Agree (R : σ → τ → Prop) (m : Method ε σ α) (n : Method ε τ α) : Prop :=
  ∀ s t, R s t → Alike R (m s) (n t)

variable {R : σ → τ → Prop}

/-- An outcome is like itself, if every state is related to itself. -/
theorem Alike.refl {R : σ → σ → Prop} (h : ∀ s, R s s) (x : EStateM.Result ε σ α) :
    Alike R x x := by
  rcases x with ⟨a, s⟩ | ⟨e, s⟩
  · exact .ok a (h s)
  · exact .error e (h s)

/-- A weaker relation relates more outcomes. -/
theorem Alike.mono {Q : σ → τ → Prop} {x : EStateM.Result ε σ α} {y : EStateM.Result ε τ α}
    (h : Alike R x y) (hRQ : ∀ s t, R s t → Q s t) : Alike Q x y := by
  cases h with
  | ok a h => exact .ok a (hRQ _ _ h)
  | error e h => exact .error e (hRQ _ _ h)

/-- Like outcomes leave related states behind, on either exit. -/
theorem Alike.after {m : Method ε σ α} {n : Method ε τ α} {s : σ} {t : τ}
    (h : Alike R (m s) (n t)) : R (m.after s) (n.after t) := by
  unfold Method.after
  revert h
  rcases m s with ⟨a, s'⟩ | ⟨e, s'⟩ <;> rcases n t with ⟨b, t'⟩ | ⟨e', t'⟩ <;> intro h <;>
    cases h <;> assumption

/-- From like outcomes on, methods that agree have like outcomes. -/
theorem Alike.bind {m : Method ε σ α} {n : Method ε τ α} {f : α → Method ε σ β}
    {g : α → Method ε τ β} {s : σ} {t : τ} (h : Alike R (m s) (n t))
    (hfg : ∀ a, Agree R (f a) (g a)) : Alike R ((m >>= f) s) ((n >>= g) t) := by
  rw [bind_apply, bind_apply]
  revert h
  rcases m s with ⟨a, s'⟩ | ⟨e, s'⟩ <;> rcases n t with ⟨b, t'⟩ | ⟨e', t'⟩ <;> intro h <;> cases h
  · exact hfg a s' t' ‹_›
  · exact .error e ‹_›

theorem agree_pure (a : α) : Agree R (pure a : Method ε σ α) (pure a) := fun _ _ h ↦ .ok a h

theorem agree_throw (e : ε) : Agree R (throw e : Method ε σ α) (throw e) := fun _ _ h ↦ .error e h

theorem agree_modify {f : σ → σ} {g : τ → τ} (h : ∀ s t, R s t → R (f s) (g t)) :
    Agree R (modify f : Method ε σ PUnit) (modify g) := fun s t hst ↦
  show Alike R (.ok PUnit.unit (f s)) (.ok PUnit.unit (g t)) from .ok _ (h s t hst)

/-- Reading the state. -/
theorem agree_get {f : σ → Method ε σ β} {g : τ → Method ε τ β}
    (h : ∀ s t, R s t → Alike R (f s s) (g t t)) :
    Agree R ((get : Method ε σ σ) >>= f) ((get : Method ε τ τ) >>= g) := h

/-- **A sequence**: the first parts agree, and then the second parts, on whatever the first return.
-/
theorem Agree.bind {m : Method ε σ α} {n : Method ε τ α} {f : α → Method ε σ β}
    {g : α → Method ε τ β} (h : Agree R m n) (hfg : ∀ a, Agree R (f a) (g a)) :
    Agree R (m >>= f) (n >>= g) := fun s t hst ↦ (h s t hst).bind hfg

/-- A handler starts from the states that the failed bodies left, which are related. -/
theorem Agree.tryCatch {m : Method ε σ α} {n : Method ε τ α} {f : ε → Method ε σ α}
    {g : ε → Method ε τ α} (h : Agree R m n) (hfg : ∀ e, Agree R (f e) (g e)) :
    Agree R (tryCatch m f) (tryCatch n g) := by
  intro s t hst
  have hmn := h s t hst
  rw [tryCatch_apply, tryCatch_apply]
  revert hmn
  rcases m s with ⟨a, s'⟩ | ⟨e, s'⟩ <;> rcases n t with ⟨b, t'⟩ | ⟨e', t'⟩ <;> intro hmn <;>
    cases hmn
  · exact .ok a ‹_›
  · exact hfg e s' t' ‹_›

/-- A call on a part of each state. -/
theorem Alike.focus {σ' τ' : Type} {Q : σ' → τ' → Prop} {m : Method ε σ' α} {n : Method ε τ' α}
    {s : σ'} {t : τ'} (h : Alike Q (m s) (n t)) {put : σ' → σ → σ} {put' : τ' → τ → τ} {x : σ}
    {y : τ}
    (hput : ∀ s t, Q s t → R (put s x) (put' t y)) :
    Alike R (m.focus s put x) (n.focus t put' y) := by
  unfold Method.focus
  revert h
  rcases m s with ⟨a, s'⟩ | ⟨e, s'⟩ <;> rcases n t with ⟨b, t'⟩ | ⟨e', t'⟩ <;> intro h <;> cases h
  · exact .ok a (hput _ _ ‹_›)
  · exact .error e (hput _ _ ‹_›)

/-- A call on a part that is the same in both. -/
theorem agree_zoom {δ ρ : Type} (m : Method δ ρ α) {part : σ → ρ} {part' : τ → ρ} {put : ρ → σ → σ}
    {put' : ρ → τ → τ} {raise : δ → ε} (hpart : ∀ s t, R s t → part s = part' t)
    (hput : ∀ r s t, R s t → R (put r s) (put' r t)) :
    Agree R (m.zoom part put raise) (m.zoom part' put' raise) := by
  intro s t hst
  unfold Method.zoom
  rw [hpart s t hst]
  rcases m (part' t) with ⟨a, r⟩ | ⟨e, r⟩
  · exact .ok a (hput r s t hst)
  · exact .error (raise e) (hput r s t hst)

/-- What is rewritten on the way out. -/
theorem Alike.onExit {m : Method ε σ α} {n : Method ε τ α} {s : σ} {t : τ}
    (h : Alike R (m s) (n t)) {f g : σ → σ} {f' g' : τ → τ} (hf : ∀ s t, R s t → R (f s) (f' t))
    (hg : ∀ s t, R s t → R (g s) (g' t)) : Alike R (m.onExit f g s) (n.onExit f' g' t) := by
  unfold Method.onExit
  revert h
  rcases m s with ⟨a, s'⟩ | ⟨e, s'⟩ <;> rcases n t with ⟨b, t'⟩ | ⟨e', t'⟩ <;> intro h <;> cases h
  · exact .ok a (hf _ _ ‹_›)
  · exact .error e (hg _ _ ‹_›)

/-- One call after another. -/
theorem agree_all {ι : Type} {body : ι → Method ε σ Unit} {body' : ι → Method ε τ Unit}
    (h : ∀ i, Agree R (body i) (body' i)) (items : List ι) :
    Agree R (Method.all (items.map body)) (Method.all (items.map body')) := by
  induction items with
  | nil => exact agree_pure ()
  | cons i items ih => exact (h i).bind fun _ ↦ ih

/-! ### Runs -/

/-- The outcome of each call of a run. -/
def outcomes : List (Method ε σ α) → σ → List (EStateM.Result ε σ α)
  | [], _ => []
  | m :: calls, s => m s :: outcomes calls (m.after s)

/-- **Calls that agree have like outcomes all through a run.** -/
theorem Agree.outcomes {calls : List (Method ε σ α)} {calls' : List (Method ε τ α)}
    (h : List.Forall₂ (Agree R) calls calls') {s : σ} {t : τ} (hst : R s t) :
    List.Forall₂ (Alike R) (outcomes calls s) (outcomes calls' t) := by
  induction h generalizing s t with
  | nil => exact .nil
  | cons hmn _ ih => exact .cons (hmn s t hst) (ih (hmn s t hst).after)

end Method
