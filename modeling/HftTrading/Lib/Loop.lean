import HftTrading.Lib.Method

/-!
# Loops that may run forever

A loop over a body that says, turn by turn, whether it goes on and from where. Running it takes a
number of turns that the run may exceed, so a run that ends is one that some number of turns
suffices for (`Ends`), and a loop need not end at all.

Two views of the same loop are related. `turns` runs it, for as many turns as it is given, and can
be evaluated; `Ends` is the relation between where a loop starts and what it ends with, and can be
reasoned about without a number (`ends_iff_exists_turns`). `Reaches` is the relation between two
turns of one run.

## When a loop ends

Termination is not built into the definition, because a loop whose termination depends on its input
is exactly one about which there is something to say. The criterion is for bodies that make progress
unless they change nothing: **such a loop ends exactly when no turn it comes to leaves everything as
it was** (`exists_ends_iff`). A turn that does is repeated forever, since the next one starts from
the same place; and if there is none, the measure falls with every turn.
-/

namespace Method

/-- What a turn of a loop says: go on from here, or stop with this. -/
inductive Turn (β γ : Type)
  | again (b : β)
  | done (c : γ)
  deriving DecidableEq

variable {ε σ β γ : Type} (body : β → Method ε σ (Turn β γ))

/-- At most a number of turns of the loop; `none` while it has not ended. -/
def turns : ℕ → β → σ → Option (EStateM.Result ε σ γ)
  | 0, _, _ => none
  | n + 1, b, s =>
    match body b s with
    | .ok (.again b') s' => turns n b' s'
    | .ok (.done c) s' => some (.ok c s')
    | .error e s' => some (.error e s')

/-- The loop ends, by a return or an exception. -/
inductive Ends : β → σ → EStateM.Result ε σ γ → Prop
  | again {b b' : β} {s s' : σ} {r : EStateM.Result ε σ γ}
      (hturn : body b s = .ok (.again b') s') (hrest : Ends b' s' r) : Ends b s r
  | done {b : β} {s s' : σ} {c : γ} (hturn : body b s = .ok (.done c) s') : Ends b s (.ok c s')
  | error {b : β} {s s' : σ} {e : ε} (hturn : body b s = .error e s') : Ends b s (.error e s')

/-- The loop comes to a turn. -/
inductive Reaches : β → σ → β → σ → Prop
  | refl (b : β) (s : σ) : Reaches b s b s
  | again {b b' b'' : β} {s s' s'' : σ} (hturn : body b s = .ok (.again b') s')
      (hrest : Reaches b' s' b'' s'') : Reaches b s b'' s''

variable {body}

/-- A run ends exactly when some number of turns is enough for it. -/
theorem ends_iff_exists_turns {b : β} {s : σ} {r : EStateM.Result ε σ γ} :
    Ends body b s r ↔ ∃ n, turns body n b s = some r := by
  constructor
  · intro h
    induction h with
    | again hturn _ ih =>
      obtain ⟨n, hn⟩ := ih
      exact ⟨n + 1, by rw [turns, hturn]; exact hn⟩
    | done hturn => exact ⟨1, by rw [turns, hturn]⟩
    | error hturn => exact ⟨1, by rw [turns, hturn]⟩
  · rintro ⟨n, hn⟩
    induction n generalizing b s with
    | zero => cases hn
    | succ n ih =>
      rw [turns] at hn
      split at hn
      · rename_i hturn
        exact .again hturn (ih hn)
      · rename_i hturn
        cases hn
        exact .done hturn
      · rename_i hturn
        cases hn
        exact .error hturn

/-- A turn that goes on can be left out. -/
theorem ends_again_iff {b b' : β} {s s' : σ} {r : EStateM.Result ε σ γ}
    (hturn : body b s = .ok (.again b') s') : Ends body b s r ↔ Ends body b' s' r := by
  refine ⟨fun h ↦ ?_, .again hturn⟩
  cases h with
  | again hturn' hrest =>
    cases hturn.symm.trans hturn'
    exact hrest
  | done hturn' => cases hturn.symm.trans hturn'
  | error hturn' => cases hturn.symm.trans hturn'

/-- A loop ends with one thing only. -/
theorem Ends.unique {b : β} {s : σ} {r r' : EStateM.Result ε σ γ} (h : Ends body b s r)
    (h' : Ends body b s r') : r = r' := by
  induction h with
  | again hturn _ ih => exact ih ((ends_again_iff hturn).1 h')
  | done hturn =>
    cases h' with
    | again hturn' => cases hturn.symm.trans hturn'
    | done hturn' =>
      cases hturn.symm.trans hturn'
      rfl
    | error hturn' => cases hturn.symm.trans hturn'
  | error hturn =>
    cases h' with
    | again hturn' => cases hturn.symm.trans hturn'
    | done hturn' => cases hturn.symm.trans hturn'
    | error hturn' =>
      cases hturn.symm.trans hturn'
      rfl

/-- A run that ends does so from every turn it comes to. -/
theorem Reaches.ends {b b' : β} {s s' : σ} {r : EStateM.Result ε σ γ}
    (h : Reaches body b s b' s') (hends : Ends body b s r) : Ends body b' s' r := by
  induction h with
  | refl => exact hends
  | again hturn _ ih => exact ih ((ends_again_iff hturn).1 hends)

/-- A run through an intermediate turn. -/
theorem Reaches.trans {b b' b'' : β} {s s' s'' : σ} (h : Reaches body b s b' s')
    (h' : Reaches body b' s' b'' s'') : Reaches body b s b'' s'' := by
  induction h with
  | refl => exact h'
  | again hturn _ ih => exact .again hturn (ih h')

/-- A run that ends does so in a last turn. -/
theorem Ends.exists_last {b : β} {s : σ} {r : EStateM.Result ε σ γ} (h : Ends body b s r) :
    ∃ b' s', Reaches body b s b' s' ∧
      ((∃ c s'', body b' s' = .ok (.done c) s'' ∧ r = .ok c s'') ∨
        ∃ e s'', body b' s' = .error e s'' ∧ r = .error e s'') := by
  induction h with
  | again hturn _ ih =>
    obtain ⟨b', s', hreaches, hlast⟩ := ih
    exact ⟨b', s', .again hturn hreaches, hlast⟩
  | @done b s s' c hturn => exact ⟨b, s, .refl b s, Or.inl ⟨c, s', hturn, rfl⟩⟩
  | @error b s s' e hturn => exact ⟨b, s, .refl b s, Or.inr ⟨e, s', hturn, rfl⟩⟩

/-- A turn that leaves everything as it was is repeated forever. -/
theorem not_ends_of_again_self {b : β} {s : σ} (hturn : body b s = .ok (.again b) s)
    {r : EStateM.Result ε σ γ} : ¬Ends body b s r := by
  intro hends
  obtain ⟨n, hn⟩ := ends_iff_exists_turns.1 hends
  induction n with
  | zero => cases hn
  | succ n ih =>
    rw [turns, hturn] at hn
    exact ih hn

/-- **A loop whose turns make progress unless they change nothing** ends exactly when it comes to no
turn that changes nothing. -/
theorem exists_ends_iff (size : β → ℕ)
    (hprogress : ∀ {b b' s s'}, body b s = .ok (.again b') s' →
      size b' < size b ∨ b' = b ∧ s' = s) {b : β} {s : σ} :
    (∃ r, Ends body b s r) ↔
      ∀ b' s', Reaches body b s b' s' → body b' s' ≠ .ok (.again b') s' := by
  constructor
  · rintro ⟨r, hends⟩ b' s' hreaches hturn
    exact not_ends_of_again_self hturn (hreaches.ends hends)
  · intro h
    generalize hn : size b = n
    induction n using Nat.strongRecOn generalizing b s with
    | ind n ih =>
      rcases hturn : body b s with ⟨b' | c, s'⟩ | ⟨e, s'⟩
      · rcases hprogress hturn with hlt | ⟨rfl, rfl⟩
        · obtain ⟨r, hends⟩ :=
            ih (size b') (hn ▸ hlt) (fun b'' s'' hreaches ↦ h b'' s'' (.again hturn hreaches)) rfl
          exact ⟨r, .again hturn hends⟩
        · exact absurd hturn (h b' s' (.refl b' s'))
      · exact ⟨_, .done hturn⟩
      · exact ⟨_, .error hturn⟩

end Method
