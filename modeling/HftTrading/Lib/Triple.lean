import HftTrading.Lib.Method

/-!
# Triples for methods

`Triple P m Q E`: started in `P`, the method ends in `Q` when it returns and in `E` when it raises.
Both postconditions are there because what a method wrote before raising stays written. The rules
follow the statement forms of a method's text, as those of `Keeps` do; `Keeps I` is the triple whose
three assertions are all `I`.

A triple is needed over `Keeps` where an invariant is broken for a while. Between two statements the
assertion is another one than at the ends, and what is left behind when the first of the two raises
may be weaker than what the two establish together. The `E` of a triple is where that is said.

## Where the exceptions go

`RaisesOnly p m` leaves the states aside and says of which kind the exceptions are, from whatever
state. `Returns m` is the case of none. A handler that never raises makes any body return
(`returns_tryCatch`), which is how a method that catches everything is shown to.

## Fuel

`SameOn I m m'`: the two methods do the same from every state in `I`. It is what makes a fuel
argument disappear: two fuels that both suffice give the same method on the states they suffice for.
-/

namespace Method

variable {ε σ α β : Type}

/-- From `P` to `Q` returning, or to `E` raising. -/
def Triple (P : σ → Prop) (m : Method ε σ α) (Q : α → σ → Prop) (E : σ → Prop) : Prop :=
  ∀ s, P s → match m s with
    | .ok a t => Q a t
    | .error _ t => E t

variable {P : σ → Prop} {E : σ → Prop}

/-- Ending in the same on both exits. -/
theorem triple_iff_after {I J : σ → Prop} {m : Method ε σ α} :
    Triple I m (fun _ ↦ J) J ↔ ∀ s, I s → J (m.after s) := by
  refine forall₂_congr fun s _ ↦ ?_
  rw [after]
  rcases m s with ⟨a, t⟩ | ⟨e, t⟩ <;> rfl

/-- Keeping an invariant is the triple with it in all three places. -/
theorem keeps_iff_triple {I : σ → Prop} {m : Method ε σ α} :
    Keeps I m ↔ Triple I m (fun _ ↦ I) I := triple_iff_after.symm

/-- A value returned: the assertion at the return is that before. -/
theorem triple_pure {Q : α → σ → Prop} (a : α) (h : ∀ s, P s → Q a s) :
    Triple P (pure a : Method ε σ α) Q E := h

/-- A raise ends in the assertion for raising. -/
theorem triple_throw {Q : α → σ → Prop} (e : ε) (h : ∀ s, P s → E s) :
    Triple P (throw e : Method ε σ α) Q E := h

/-- A rewriting of the state. -/
theorem triple_modify {Q : PUnit → σ → Prop} {f : σ → σ} (h : ∀ s, P s → Q ⟨⟩ (f s)) :
    Triple P (modify f : Method ε σ PUnit) Q E := h

/-- Reading the state: the continuation may use that it is the state it starts in. -/
theorem triple_get {Q : β → σ → Prop} {f : σ → Method ε σ β}
    (h : ∀ s, P s → Triple (fun t ↦ t = s) (f s) Q E) :
    Triple P ((get : Method ε σ σ) >>= f) Q E := fun s hs ↦ h s hs s rfl

/-- Nothing is said. -/
theorem triple_trivial (m : Method ε σ α) : Triple P m (fun _ _ ↦ True) fun _ ↦ True := by
  intro s _
  rcases m s with ⟨a, t⟩ | ⟨e, t⟩ <;> trivial

/-- What is not about the state stays. -/
theorem triple_const {p : Prop} (m : Method ε σ α) :
    Triple (fun _ ↦ p) m (fun _ _ ↦ p) fun _ ↦ True := by
  intro s hp
  rcases m s with ⟨a, t⟩ | ⟨e, t⟩
  · exact hp
  · trivial

/-- **A sequence.** What the first part may leave when it raises, the whole may. -/
theorem Triple.bind {m : Method ε σ α} {f : α → Method ε σ β} {R : α → σ → Prop}
    {Q : β → σ → Prop} (hm : Triple P m R E) (hf : ∀ a, Triple (R a) (f a) Q E) :
    Triple P (m >>= f) Q E := by
  intro s hs
  have h := hm s hs
  rw [bind_apply]
  revert h
  rcases m s with ⟨a, t⟩ | ⟨e, t⟩
  · exact hf a t
  · exact id

/-- Stronger before, weaker after, on both exits. -/
theorem Triple.weaken {m : Method ε σ α} {P' E' : σ → Prop} {Q Q' : α → σ → Prop}
    (h : Triple P' m Q' E') (hP : ∀ s, P s → P' s) (hQ : ∀ a s, Q' a s → Q a s)
    (hE : ∀ s, E' s → E s) : Triple P m Q E := by
  intro s hs
  have hm := h s (hP s hs)
  revert hm
  rcases m s with ⟨a, t⟩ | ⟨e, t⟩
  · exact hQ a t
  · exact hE t

/-- A precondition that is not about the state. -/
theorem triple_of_imp {m : Method ε σ α} {Q : α → σ → Prop} {p : Prop} (h : p → Triple P m Q E) :
    Triple (fun s ↦ p ∧ P s) m Q E := fun s hs ↦ h hs.1 s hs.2

/-- The handler starts from what the body leaves when it raises. -/
theorem Triple.tryCatch {m : Method ε σ α} {handler : ε → Method ε σ α} {F : σ → Prop}
    {Q : α → σ → Prop} (hm : Triple P m Q F) (hh : ∀ e, Triple F (handler e) Q E) :
    Triple P (tryCatch m handler) Q E := by
  intro s hs
  have h := hm s hs
  rw [tryCatch_apply]
  revert h
  rcases m s with ⟨a, t⟩ | ⟨e, t⟩
  · exact id
  · exact hh e t

/-- What is rewritten on the way out, exit by exit. -/
theorem Triple.onExit {m : Method ε σ α} {f g : σ → σ} {R : α → σ → Prop} {F : σ → Prop}
    {Q : α → σ → Prop} (hm : Triple P m R F) (hf : ∀ a s, R a s → Q a (f s))
    (hg : ∀ s, F s → E (g s)) : Triple P (onExit m f g) Q E := by
  intro s hs
  have h := hm s hs
  unfold Method.onExit
  revert h
  rcases m s with ⟨a, t⟩ | ⟨e, t⟩
  · exact hf a t
  · exact hg t

/-- **A loop over a list**: what holds with `items` still to come holds with none. -/
theorem triple_all {ι : Type} {body : ι → Method ε σ Unit} {R : List ι → σ → Prop}
    (h : ∀ i items, Triple (R (i :: items)) (body i) (fun _ ↦ R items) E) (items : List ι) :
    Triple (R items) (all (items.map body)) (fun _ ↦ R []) E := by
  induction items with
  | nil => exact triple_pure () fun _ hs ↦ hs
  | cons i items ih => exact (h i items).bind fun _ ↦ ih

/-- A method that never raises. -/
abbrev Returns (m : Method ε σ α) : Prop :=
  Triple (fun _ ↦ True) m (fun _ _ ↦ True) fun _ ↦ False

/-- Whatever the body raises, a handler that never does makes up for it. -/
theorem returns_tryCatch (m : Method ε σ α) {handler : ε → Method ε σ α}
    (h : ∀ e, Returns (handler e)) : Returns (tryCatch m handler) :=
  (triple_trivial m).tryCatch h

/-- What never raises returns. -/
theorem Returns.ok {m : Method ε σ Unit} (h : Returns m) (s : σ) : m s = .ok () (m.after s) := by
  have hs := h s trivial
  rcases hrun : m s with ⟨⟨⟩, t⟩ | ⟨e, t⟩
  · rw [after_ok hrun]
  · rw [hrun] at hs
    exact hs.elim

/-! ### What a method raises -/

/-- Whatever it raises is of a kind. -/
def RaisesOnly (p : ε → Prop) (m : Method ε σ α) : Prop := ∀ s e s', m s = .error e s' → p e

variable {p : ε → Prop}

theorem raisesOnly_pure (a : α) : RaisesOnly p (pure a : Method ε σ α) := fun _ _ _ h ↦ by cases h

theorem raisesOnly_get : RaisesOnly p (get : Method ε σ σ) := fun _ _ _ h ↦ by cases h

theorem raisesOnly_modify (f : σ → σ) : RaisesOnly p (modify f : Method ε σ PUnit) :=
  fun _ _ _ h ↦ by cases h

/-- A sequence raises what its parts raise. -/
theorem RaisesOnly.bind {m : Method ε σ α} {f : α → Method ε σ β} (hm : RaisesOnly p m)
    (hf : ∀ a, RaisesOnly p (f a)) : RaisesOnly p (m >>= f) := by
  intro s e s' h
  rw [bind_apply] at h
  rcases hrun : m s with ⟨a, t⟩ | ⟨e', t⟩ <;> rw [hrun] at h
  · exact hf a t e s' h
  · cases h
    exact hm s _ _ hrun

/-! ### Methods that do the same -/

/-- The same outcome from every state in `I`. -/
def SameOn (I : σ → Prop) (m m' : Method ε σ α) : Prop := ∀ s, I s → m s = m' s

variable {I : σ → Prop}

theorem SameOn.refl (m : Method ε σ α) : SameOn I m m := fun _ _ ↦ rfl

/-- **A sequence**: the second parts need to be the same where the first part can come to. -/
theorem SameOn.bind {m m' : Method ε σ α} {f f' : α → Method ε σ β} {J : α → σ → Prop}
    (hm : SameOn I m m') (hJ : Triple I m J fun _ ↦ True) (hf : ∀ a, SameOn (J a) (f a) (f' a)) :
    SameOn I (m >>= f) (m' >>= f') := by
  intro s hs
  have h := hJ s hs
  rw [bind_apply, bind_apply, ← hm s hs]
  revert h
  rcases m s with ⟨a, t⟩ | ⟨e, t⟩
  · exact hf a t
  · exact fun _ ↦ rfl

/-- Behind the same first part. -/
theorem SameOn.cons {m : Method ε σ α} {f f' : α → Method ε σ β} {J : α → σ → Prop}
    (hJ : Triple I m J fun _ ↦ True) (hf : ∀ a, SameOn (J a) (f a) (f' a)) :
    SameOn I (m >>= f) (m >>= f') := (SameOn.refl m).bind hJ hf

/-- Reading the state changes nothing about it. -/
theorem SameOn.get {f f' : σ → Method ε σ β} (hf : ∀ s, SameOn I (f s) (f' s)) :
    SameOn I ((get : Method ε σ σ) >>= f) ((get : Method ε σ σ) >>= f') :=
  SameOn.cons (J := fun _ ↦ I) (fun _ hs ↦ hs) hf

/-- Ahead of the same last part. -/
theorem SameOn.snoc {m m' : Method ε σ α} (hm : SameOn I m m') (f : α → Method ε σ β) :
    SameOn I (m >>= f) (m' >>= f) := by
  intro s hs
  rw [bind_apply, bind_apply, hm s hs]

theorem SameOn.tryCatch {m m' : Method ε σ α} (hm : SameOn I m m') (handler : ε → Method ε σ α) :
    SameOn I (tryCatch m handler) (tryCatch m' handler) := by
  intro s hs
  rw [tryCatch_apply, tryCatch_apply, hm s hs]

theorem SameOn.onExit {m m' : Method ε σ α} (hm : SameOn I m m') (f g : σ → σ) :
    SameOn I (onExit m f g) (onExit m' f g) := by
  intro s hs
  unfold Method.onExit
  rw [hm s hs]

/-- A loop over a list, its bodies the same wherever the loop can be. -/
theorem sameOn_all {ι : Type} {body body' : ι → Method ε σ Unit}
    (h : ∀ i, SameOn I (body i) (body' i)) (hkeeps : ∀ i, Keeps I (body i)) (items : List ι) :
    SameOn I (all (items.map body)) (all (items.map body')) := by
  induction items with
  | nil => exact SameOn.refl _
  | cons i items ih =>
    refine (h i).bind (J := fun _ ↦ I) ?_ fun _ ↦ ih
    exact (keeps_iff_triple.1 (hkeeps i)).weaken (fun _ hs ↦ hs) (fun _ _ hs ↦ hs) fun _ _ ↦ trivial

end Method
