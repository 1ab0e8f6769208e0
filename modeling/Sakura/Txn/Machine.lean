/-
  Machines.

  A machine is a function from the label of a step and a state to the state after the step, where the
  step can be taken.  The steps of its parties come in any order.

  * `Moves`, `Runs`: one step, and any number of them, with a condition on the steps;
  * `Runs.keeps`: what every step keeps holds in every state of a run;
  * `play`: a schedule that computes, sound for `Runs`.
-/
import Mathlib.Logic.Relation

namespace Txn

variable {κ σ : Type}

/-- One step, with a label that `allowed` accepts in the state before. -/
def Moves (step : κ → σ → Option σ) (allowed : κ → σ → Prop) (s s' : σ) : Prop :=
  ∃ l, allowed l s ∧ step l s = some s'

/-- The states that steps of the machine lead to. -/
def Runs (step : κ → σ → Option σ) (allowed : κ → σ → Prop) : σ → σ → Prop :=
  Relation.ReflTransGen (Moves step allowed)

/-- Every step is accepted. -/
def anyStep (_ : κ) (_ : σ) : Prop := True

instance (l : κ) (s : σ) : Decidable (anyStep l s) := inferInstanceAs (Decidable True)

variable {step : κ → σ → Option σ} {allowed : κ → σ → Prop} {s s' : σ}

/-- **What every step keeps holds in every state of a run.** -/
theorem Runs.keeps {I : σ → Prop} (h : Runs step allowed s s') (h₀ : I s)
    (hstep : ∀ l t t', allowed l t → step l t = some t' → I t → I t') : I s' := by
  induction h with
  | refl => exact h₀
  | tail _ hm ih =>
    obtain ⟨l, hl, hst⟩ := hm
    exact hstep l _ _ hl hst ih

theorem Runs.mono {allowed' : κ → σ → Prop} (hmono : ∀ l t, allowed l t → allowed' l t)
    (h : Runs step allowed s s') : Runs step allowed' s s' :=
  Relation.ReflTransGen.mono (fun _ _ ⟨l, hl, hst⟩ => ⟨l, hmono _ _ hl, hst⟩) _ _ h

/-! ## Schedules -/

variable [∀ l s, Decidable (allowed l s)]

/-- The state after the steps `ls`, if each is accepted and can be taken. -/
def play (step : κ → σ → Option σ) (allowed : κ → σ → Prop) [∀ l s, Decidable (allowed l s)] :
    List κ → σ → Option σ
  | [], s => some s
  | l :: ls, s => if allowed l s then (step l s).bind (play step allowed ls) else none

theorem play_runs : ∀ {ls : List κ} {s : σ}, play step allowed ls s = some s' →
    Runs step allowed s s'
  | [], s, h => by cases h; exact .refl
  | l :: ls, s, h => by
    simp only [play] at h
    split at h
    · next hl =>
      obtain ⟨t, ht, hrest⟩ := Option.bind_eq_some_iff.1 h
      exact .head ⟨l, hl, ht⟩ (play_runs hrest)
    · cases h

/-- A state that a schedule leads to, with a property that was computed. -/
theorem play_any (step : κ → σ → Option σ) (allowed : κ → σ → Prop) [∀ l s, Decidable (allowed l s)]
    (ls : List κ) (s : σ) (p : σ → Bool) (h : (play step allowed ls s).any p = true) :
    ∃ s', Runs step allowed s s' ∧ p s' = true := by
  obtain ⟨s', hs, hp⟩ := (Option.any_eq_true _ _).1 h
  exact ⟨s', play_runs hs, hp⟩

end Txn
