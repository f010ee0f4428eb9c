import Mathlib.Data.List.Basic

/-!
# Methods: state left behind on every exit

A method of an object reads and rewrites the object's state, and either returns or raises. What it
wrote before raising stays written, so the state after the call is defined on both exits (`after`),
and an invariant has to survive both (`Keeps`).

## Why not a state transformer over `Except`

With the state inside the error monad a call that raises has no state to leave, which is a
transaction and not a method. The base is therefore the core exception-state monad, in which both
outcomes carry a state, with the non-backtracking `try`: the handler starts from the state the
failed body left. A caller that survives an exception sees exactly what the failed call had done up
to it, and an invariant that the body breaks before it raises is broken for the handler.

## Two ways to reason

* The `_apply` equations, and `bind_ok`, `bind_error` and their like, run a method symbolically, one
  statement at a time. They are for what a method does.
* The `Keeps` rules do the same for an invariant, one rule per statement form, so that an invariant
  of a program is checked along its text. They are for what a method does not do.

## Calls in a row

`run` is a caller that survives whatever is raised, `all` one that stops at the first exception. A
sequence that `all` gets through is a run (`run_of_all`). **What every call keeps, a run keeps**
(`run_keeps`).
-/

/-- A method on states `σ`: it returns a value of type `α` or raises an `ε`, and leaves a state
behind in both cases. -/
abbrev Method (ε σ α : Type) : Type := EStateM ε σ α

namespace Method

variable {ε σ α β : Type}

/-- The state a call leaves behind, returning or raising. -/
def after (m : Method ε σ α) (s : σ) : σ :=
  match m s with
  | .ok _ s' => s'
  | .error _ s' => s'

/-- A call that returns leaves the state that it returns with. -/
theorem after_ok {m : Method ε σ α} {s s' : σ} {a : α} (h : m s = .ok a s') : m.after s = s' := by
  rw [after, h]

/-- A call that raises leaves the state that it raises with. -/
theorem after_error {m : Method ε σ α} {s s' : σ} {e : ε} (h : m s = .error e s') :
    m.after s = s' := by
  rw [after, h]

theorem after_congr {m m' : Method ε σ α} {s t : σ} (h : m s = m' t) : m.after s = m'.after t := by
  rw [after, h, after]

/-- The call raises. -/
def Raises (m : Method ε σ α) (s : σ) : Prop := ∃ e s', m s = .error e s'

theorem not_raises_of_ok {m : Method ε σ α} {s s' : σ} {a : α} (h : m s = .ok a s') :
    ¬ m.Raises s := by
  rintro ⟨e, t, he⟩
  rw [h] at he
  cases he

/-- A method does one or the other. -/
theorem not_raises_iff {m : Method ε σ α} {s : σ} : ¬ m.Raises s ↔ ∃ a s', m s = .ok a s' := by
  unfold Raises
  rcases m s with ⟨a, t⟩ | ⟨e, t⟩ <;> simp

/-- End as told: return, or raise. -/
def exit (e : Option ε) : Method ε σ Unit := fun s ↦
  match e with
  | none => .ok () s
  | some e => .error e s

theorem after_exit (e : Option ε) (s : σ) : (exit e).after s = s := by
  cases e <;> rfl

theorem exit_eq_ok_iff {e : Option ε} {s s' : σ} : exit e s = .ok () s' ↔ e = none ∧ s' = s := by
  cases e with
  | none =>
    constructor
    · intro h
      cases h
      exact ⟨rfl, rfl⟩
    · rintro ⟨-, rfl⟩
      rfl
  | some e => exact ⟨fun h ↦ (by cases h), fun h ↦ (by cases h.1)⟩

/-- The state a call that returns leaves behind. -/
def state? (m : Method ε σ α) (s : σ) : Option σ :=
  match m s with
  | .ok _ s' => some s'
  | .error _ _ => none

theorem state?_eq_some_iff {m : Method ε σ α} {s s' : σ} :
    m.state? s = some s' ↔ ∃ a, m s = .ok a s' := by
  unfold state?
  rcases m s with ⟨a, t⟩ | ⟨e, t⟩ <;> simp

theorem raises_of_state? {m : Method ε σ α} {s : σ} (h : (m.state? s).isNone = true) :
    m.Raises s := by
  by_contra hquiet
  obtain ⟨a, t, hok⟩ := not_raises_iff.1 hquiet
  rw [state?_eq_some_iff.2 ⟨a, hok⟩] at h
  cases h

/-- The value a call returns. -/
def value? (m : Method ε σ α) (s : σ) : Option α :=
  match m s with
  | .ok a _ => some a
  | .error _ _ => none

theorem value?_eq_some_iff {m : Method ε σ α} {s : σ} {a : α} :
    m.value? s = some a ↔ ∃ s', m s = .ok a s' := by
  unfold value?
  rcases m s with ⟨b, t⟩ | ⟨e, t⟩ <;> simp

/-! ### Running a method, one statement at a time -/

@[simp] theorem pure_apply (a : α) (s : σ) : (pure a : Method ε σ α) s = .ok a s := rfl

@[simp] theorem get_apply (s : σ) : (get : Method ε σ σ) s = .ok s s := rfl

@[simp] theorem modify_apply (f : σ → σ) (s : σ) : (modify f : Method ε σ PUnit) s = .ok ⟨⟩ (f s) :=
  rfl

theorem bind_apply (m : Method ε σ α) (f : α → Method ε σ β) (s : σ) :
    (m >>= f) s =
      match m s with
      | .ok a s' => f a s'
      | .error e s' => .error e s' := rfl

/-- Past a first part that returns, a sequence is its second part. -/
theorem bind_ok {m : Method ε σ α} {f : α → Method ε σ β} {s s' : σ} {a : α} (h : m s = .ok a s') :
    (m >>= f) s = f a s' := by
  rw [bind_apply, h]

/-- A first part that raises ends the sequence. -/
theorem bind_error {m : Method ε σ α} {f : α → Method ε σ β} {s s' : σ} {e : ε}
    (h : m s = .error e s') : (m >>= f) s = .error e s' := by
  rw [bind_apply, h]

/-- A sequence returns exactly when its first part does and the rest does from there. -/
theorem bind_eq_ok_iff {m : Method ε σ α} {f : α → Method ε σ β} {s s' : σ} {b : β} :
    (m >>= f) s = .ok b s' ↔ ∃ a t, m s = .ok a t ∧ f a t = .ok b s' := by
  rw [bind_apply]
  rcases m s with ⟨a, t⟩ | ⟨e, t⟩
  · constructor
    · intro h
      exact ⟨a, t, rfl, h⟩
    · rintro ⟨a', t', heq, h⟩
      cases heq
      exact h
  · constructor
    · intro h
      cases h
    · rintro ⟨a', t', heq, -⟩
      cases heq

theorem tryCatch_apply (m : Method ε σ α) (handler : ε → Method ε σ α) (s : σ) :
    (tryCatch m handler) s =
      match m s with
      | .ok a s' => .ok a s'
      | .error e s' => handler e s' := by
  show EStateM.tryCatch m handler s = _
  unfold EStateM.tryCatch
  rcases m s with ⟨a, t⟩ | ⟨e, t⟩ <;> rfl

theorem tryCatch_ok {m : Method ε σ α} {s s' : σ} {a : α} (h : m s = .ok a s')
    (handler : ε → Method ε σ α) : tryCatch m handler s = .ok a s' := by
  rw [tryCatch_apply, h]

/-- The handler goes on from the state that the body left. -/
theorem tryCatch_error {m : Method ε σ α} {s s' : σ} {e : ε} (h : m s = .error e s')
    (handler : ε → Method ε σ α) : tryCatch m handler s = handler e s' := by
  rw [tryCatch_apply, h]

/-- Whatever is made of the outcome, the state is left as it is. -/
theorem after_bind_pure (m : Method ε σ α) (f : α → β) (s : σ) :
    (m >>= fun a ↦ pure (f a)).after s = m.after s := by
  unfold after
  rw [bind_apply]
  rcases m s with ⟨a, t⟩ | ⟨e, t⟩ <;> rfl

theorem after_tryCatch_pure (m : Method ε σ α) (f : ε → α) (s : σ) :
    (tryCatch m fun e ↦ pure (f e)).after s = m.after s := by
  unfold after
  rw [tryCatch_apply]
  rcases m s with ⟨a, t⟩ | ⟨e, t⟩ <;> rfl

theorem after_bind_of_ok {m : Method ε σ α} {s t : σ} {a : α} (h : m s = .ok a t)
    (f : α → Method ε σ β) : (m >>= f).after s = (f a).after t := by
  unfold after
  rw [bind_ok h]

/-- Run a method of a part of the state in place; `put` writes the part back, on both exits. -/
def focus {τ : Type} (m : Method ε τ α) (part : τ) (put : τ → σ → σ) : Method ε σ α := fun s ↦
  match m part with
  | .ok a part' => .ok a (put part' s)
  | .error e part' => .error e (put part' s)

/-- What a call on a part leaves is the part it leaves, written back. -/
theorem after_focus {τ : Type} (m : Method ε τ α) (part : τ) (put : τ → σ → σ) (s : σ) :
    (focus m part put).after s = put (m.after part) s := by
  unfold after focus
  rcases m part with ⟨a, t⟩ | ⟨e, t⟩ <;> rfl

theorem focus_ok {τ : Type} {m : Method ε τ α} {part part' : τ} {a : α}
    (h : m part = .ok a part') (put : τ → σ → σ) (s : σ) :
    focus m part put s = .ok a (put part' s) := by
  unfold focus
  rw [h]

theorem focus_error {τ : Type} {m : Method ε τ α} {part part' : τ} {e : ε}
    (h : m part = .error e part') (put : τ → σ → σ) (s : σ) :
    focus m part put s = .error e (put part' s) := by
  unfold focus
  rw [h]

/-- Run a method of a part of the state in place, its exceptions renamed. -/
def zoom {δ τ : Type} (m : Method δ τ α) (part : σ → τ) (put : τ → σ → σ) (raise : δ → ε) :
    Method ε σ α := fun s ↦
  match m (part s) with
  | .ok a t => .ok a (put t s)
  | .error e t => .error (raise e) (put t s)

/-- The same if the exceptions are renamed. -/
theorem after_zoom {δ τ : Type} (m : Method δ τ α) (part : σ → τ) (put : τ → σ → σ) (raise : δ → ε)
    (s : σ) : (zoom m part put raise).after s = put (m.after (part s)) s := by
  unfold after zoom
  rcases m (part s) with ⟨a, t⟩ | ⟨e, t⟩ <;> rfl

theorem zoom_ok {δ τ : Type} {m : Method δ τ α} (part : σ → τ) {s : σ} {a : α} {t : τ}
    (h : m (part s) = .ok a t) (put : τ → σ → σ) (raise : δ → ε) :
    zoom m part put raise s = .ok a (put t s) := by
  unfold zoom
  rw [h]

theorem zoom_error {δ τ : Type} {m : Method δ τ α} (part : σ → τ) {s : σ} {e : δ} {t : τ}
    (h : m (part s) = .error e t) (put : τ → σ → σ) (raise : δ → ε) :
    zoom m part put raise s = .error (raise e) (put t s) := by
  unfold zoom
  rw [h]

/-- Run a method and rewrite the state on the way out, one way when it returns and another when it
raises. -/
def onExit (m : Method ε σ α) (onOk onError : σ → σ) : Method ε σ α := fun s ↦
  match m s with
  | .ok a s' => .ok a (onOk s')
  | .error e s' => .error e (onError s')

theorem onExit_ok {m : Method ε σ α} {s s' : σ} {a : α} (h : m s = .ok a s') (f g : σ → σ) :
    onExit m f g s = .ok a (f s') := by
  unfold onExit
  rw [h]

theorem onExit_error {m : Method ε σ α} {s s' : σ} {e : ε} (h : m s = .error e s') (f g : σ → σ) :
    onExit m f g s = .error e (g s') := by
  unfold onExit
  rw [h]

/-! ### Invariants survive both exits -/

/-- The method leaves a state satisfying `I` behind whenever it starts in one, returning or
raising. -/
def Keeps (I : σ → Prop) (m : Method ε σ α) : Prop := ∀ s, I s → I (m.after s)

variable {I : σ → Prop}

theorem keeps_pure (a : α) : Keeps I (pure a : Method ε σ α) := fun _ h ↦ h

theorem keeps_throw (e : ε) : Keeps I (throw e : Method ε σ α) := fun _ h ↦ h

theorem keeps_get : Keeps I (get : Method ε σ σ) := fun _ h ↦ h

theorem keeps_modify {f : σ → σ} (h : ∀ s, I s → I (f s)) :
    Keeps I (modify f : Method ε σ PUnit) := h

theorem Keeps.ok {m : Method ε σ α} (h : Keeps I m) {s s' : σ} {a : α} (hs : I s)
    (hrun : m s = .ok a s') : I s' := by
  have hafter := h s hs
  rwa [after_ok hrun] at hafter

/-- **A sequence** keeps what its parts keep: the second is not reached if the first raises. -/
theorem Keeps.bind {m : Method ε σ α} {f : α → Method ε σ β} (hm : Keeps I m)
    (hf : ∀ a, Keeps I (f a)) : Keeps I (m >>= f) := by
  intro s hs
  have h := hm s hs
  unfold after at h ⊢
  rw [bind_apply]
  revert h
  rcases m s with ⟨a, t⟩ | ⟨e, t⟩
  · exact hf a t
  · exact id

/-- A handler keeps it from wherever the body has raised. -/
theorem Keeps.tryCatch {m : Method ε σ α} {handler : ε → Method ε σ α} (hm : Keeps I m)
    (hh : ∀ e, Keeps I (handler e)) : Keeps I (tryCatch m handler) := by
  intro s hs
  have h := hm s hs
  unfold after at h ⊢
  rw [tryCatch_apply]
  revert h
  rcases m s with ⟨a, t⟩ | ⟨e, t⟩
  · exact id
  · exact hh e t

/-- What is rewritten on the way out must keep it on both exits. -/
theorem Keeps.onExit {m : Method ε σ α} (hm : Keeps I m) {f g : σ → σ} (hf : ∀ s, I s → I (f s))
    (hg : ∀ s, I s → I (g s)) : Keeps I (onExit m f g) := by
  intro s hs
  have h := hm s hs
  unfold after at h ⊢
  unfold Method.onExit
  revert h
  rcases m s with ⟨a, t⟩ | ⟨e, t⟩
  · exact hf t
  · exact hg t

/-- A call on a part keeps what does not speak of that part. -/
theorem keeps_focus {τ : Type} {m : Method ε τ α} {part : σ → τ} {put : τ → σ → σ}
    (h : ∀ s t, I s → I (put t s)) : Keeps I fun s ↦ focus m (part s) put s := by
  intro s hs
  have hafter := after_focus m (part s) put s
  unfold after at hafter ⊢
  rw [hafter]
  exact h s _ hs

/-! ### Runs -/

/-- A run: one call after another, the caller surviving whatever a call raises. -/
def run (calls : List (Method ε σ α)) (s : σ) : σ :=
  calls.foldl (fun s m ↦ m.after s) s

/-- A run goes on from where its first part has come. -/
theorem run_append (calls calls' : List (Method ε σ α)) (s : σ) :
    run (calls ++ calls') s = run calls' (run calls s) :=
  List.foldl_append

/-- **What every call keeps, a run keeps.** -/
theorem run_keeps {calls : List (Method ε σ α)} (h : ∀ m ∈ calls, Keeps I m) {s : σ} (hs : I s) :
    I (run calls s) := by
  induction calls generalizing s with
  | nil => exact hs
  | cons m calls ih =>
    exact ih (fun m' hm' ↦ h m' (List.mem_cons_of_mem _ hm')) (h m List.mem_cons_self s hs)

/-- One call after another, up to the first that raises. -/
def all : List (Method ε σ Unit) → Method ε σ Unit
  | [] => pure ()
  | m :: calls => do
    m
    all calls

/-- The first of a sequence returns, and the others go on from there. -/
theorem after_all_cons_of_ok {m : Method ε σ Unit} {s t : σ} (h : m s = .ok () t)
    (calls : List (Method ε σ Unit)) : (all (m :: calls)).after s = (all calls).after t :=
  after_bind_of_ok h _

/-- The first of a sequence raises, and that is the end of it. -/
theorem after_all_cons_of_error {m : Method ε σ Unit} {s t : σ} {e : ε} (h : m s = .error e t)
    (calls : List (Method ε σ Unit)) : (all (m :: calls)).after s = t :=
  after_error (bind_error h)

/-- A sequence that stops at the first exception keeps it as well. -/
theorem keeps_all {calls : List (Method ε σ Unit)} (h : ∀ m ∈ calls, Keeps I m) :
    Keeps I (all calls) := by
  induction calls with
  | nil => exact keeps_pure ()
  | cons m calls ih =>
    exact (h m List.mem_cons_self).bind fun _ ↦ ih fun m' hm' ↦ h m' (List.mem_cons_of_mem _ hm')

theorem all_append (calls calls' : List (Method ε σ Unit)) (s : σ) :
    all (calls ++ calls') s = (all calls >>= fun _ ↦ all calls') s := by
  induction calls generalizing s with
  | nil => rfl
  | cons m calls ih =>
    show (m >>= fun _ ↦ all (calls ++ calls')) s =
      ((m >>= fun _ ↦ all calls) >>= fun _ ↦ all calls') s
    rw [bind_apply, bind_apply, bind_apply]
    rcases m s with ⟨a, t⟩ | ⟨e, t⟩
    · exact ih t
    · rfl

/-- **What every returning call preserves, a returning sequence preserves.** -/
theorem all_induct {calls : List (Method ε σ Unit)}
    (h : ∀ m ∈ calls, ∀ s s', I s → m s = .ok () s' → I s') {s s' : σ} (hs : I s)
    (hrun : all calls s = .ok () s') : I s' := by
  induction calls generalizing s with
  | nil =>
    cases hrun
    exact hs
  | cons m calls ih =>
    obtain ⟨_, t, hm, hrest⟩ := bind_eq_ok_iff.1 hrun
    exact ih (fun m' hm' ↦ h m' (List.mem_cons_of_mem _ hm')) (h m List.mem_cons_self s t hs hm)
      hrest

/-- A returning sequence is a run. -/
theorem run_of_all {calls : List (Method ε σ Unit)} {s s' : σ} (h : all calls s = .ok () s') :
    run calls s = s' := by
  induction calls generalizing s with
  | nil =>
    cases h
    rfl
  | cons m calls ih =>
    obtain ⟨_, t, hm, hrest⟩ := bind_eq_ok_iff.1 h
    show run calls (m.after s) = s'
    rw [after_ok hm]
    exact ih hrest

/-- A sequence that returns gets through each of its prefixes. -/
theorem all_of_prefix {pre calls : List (Method ε σ Unit)} (hpre : pre <+: calls) {s s' : σ}
    (h : all calls s = .ok () s') : ∃ t, all pre s = .ok () t := by
  obtain ⟨rest, rfl⟩ := hpre
  rw [all_append] at h
  obtain ⟨_, t, hfst, -⟩ := bind_eq_ok_iff.1 h
  exact ⟨t, hfst⟩

/-- Each call of a returning sequence returns, from where the run up to it has come. -/
theorem apply_of_all {pre : List (Method ε σ Unit)} {m : Method ε σ Unit} {s s' : σ}
    (h : all (pre ++ [m]) s = .ok () s') : m (run pre s) = .ok () s' := by
  rw [all_append] at h
  obtain ⟨_, t, hfst, hlast⟩ := bind_eq_ok_iff.1 h
  obtain ⟨_, t', hm, hnil⟩ := bind_eq_ok_iff.1 hlast
  cases hnil
  rwa [run_of_all hfst]

end Method
