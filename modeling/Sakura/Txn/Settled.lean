/-
  What calls know at their end.

  The postcondition of a call speaks of the data at its end.  If no commit that the discipline allows
  makes it false, it holds of the data ever after.

  * `Discipline.Stable`: what no commit makes false;
  * `Settled.of_reachable`: in every interleaving, the postconditions of the calls that have ended hold
    of the data.
-/
import Sakura.Txn.Rely

namespace Txn

variable {ι ν σ ℓ ε χ α : Type}

/-- No commit makes `P` false. -/
def Discipline.Stable (D : Discipline ν σ ℓ ε) (P : σ → Prop) : Prop :=
  ∀ L db e db', D.inv db → D.step L db e db' → P db → P db'

theorem Discipline.Stable.rely {D : Discipline ν σ ℓ ε} {P : σ → Prop} (h : D.Stable P) {L : Held ℓ}
    {db db' : σ} (hr : D.rely L db db') (h₀ : P db) : P db' :=
  Discipline.rely_induction (fun hi _ hs => h _ _ _ _ hi hs) hr h₀

section

variable [DecidableEq ι]

/-- The calls that run will end with their postconditions, and those that have ended have them. -/
structure Settled (D : Discipline ν σ ℓ ε) (P : ι → α → σ → Prop) (F : ι → χ → σ → Prop)
    (s : State ι ν σ ℓ ε χ α) : Prop where
  running : ∀ i c, s.phase i = .running c → ∃ db, D.rely c.held db s.db ∧
    wp D c.prog (fun a c => P i a c.db) (fun x c => F i x c.db) ⟨db, c.writes, c.held, c.done⟩
  returned : ∀ i a, s.phase i = .ended (.ok a) → P i a s.db
  failed : ∀ i x, s.phase i = .ended (.error x) → F i x s.db

variable {D : Discipline ν σ ℓ ε} {progs : ι → Prog ν σ ℓ ε χ α} {P : ι → α → σ → Prop}
  {F : ι → χ → σ → Prop} {db₀ : σ} {s s' : State ι ν σ ℓ ε χ α}

/-- A step that commits nothing and leaves call `i` in phase `p`. -/
theorem Settled.set (h : Settled D P F s) {i : ι} {p : Phase ν σ ℓ ε χ α}
    (hrun : ∀ c, p = .running c → ∃ db, D.rely c.held db s.db ∧
      wp D c.prog (fun a c => P i a c.db) (fun x c => F i x c.db) ⟨db, c.writes, c.held, c.done⟩)
    (hret : ∀ a, p = .ended (.ok a) → P i a s.db)
    (hfail : ∀ x, p = .ended (.error x) → F i x s.db) : Settled D P F (s.set i p) where
  running j c hj := by
    rw [State.set_phase] at hj; split at hj
    · next e => subst e; exact hrun c hj
    · exact h.running j c hj
  returned j a hj := by
    rw [State.set_phase] at hj; split at hj
    · next e => subst e; exact hret a hj
    · exact h.returned j a hj
  failed j x hj := by
    rw [State.set_phase] at hj; split at hj
    · next e => subst e; exact hfail x hj
    · exact h.failed j x hj

variable {Q : ι → α → List ε → Prop} {E : ι → χ → List ε → Prop}

/-- A commit of call `i`. -/
theorem Settled.publish (hP : ∀ i a, D.Stable (P i a)) (hF : ∀ i x, D.Stable (F i x))
    (hs : Sound D progs Q E db₀ s) (h : Settled D P F s) {i : ι} {e : ε} {next : Prog ν σ ℓ ε χ α}
    {w : σ → σ} {L : Held ℓ} {done : List ε}
    (hi : s.phase i = .running ⟨.commit e next, w, L, done⟩) :
    Settled D P F (s.publish i e (w s.db) ⟨next, id, [], done ++ [e]⟩) := by
  obtain ⟨db, hrely, hwp⟩ := h.running i _ hi
  obtain ⟨hstep, hnext⟩ := hwp ⟨s.db, w, L, done⟩ ⟨s.db, hrely, hs.inv, rfl⟩
  constructor
  case running =>
    intro j c hj
    rw [State.publish_phase] at hj; split at hj
    · next e' =>
      cases hj; subst e'
      exact ⟨w s.db, .refl, hnext⟩
    · next ne =>
      obtain ⟨db', hrely', hwp'⟩ := h.running j c hj
      exact ⟨db', .tail hrely' ⟨hs.inv, L, e, hs.apart j i _ _ ne hj hi, hstep⟩, hwp'⟩
  case returned =>
    intro j a hj
    rw [State.publish_phase] at hj; split at hj
    · cases hj
    · exact hP j a _ _ _ _ hs.inv hstep (h.returned j a hj)
  case failed =>
    intro j x hj
    rw [State.publish_phase] at hj; split at hj
    · cases hj
    · exact hF j x _ _ _ _ hs.inv hstep (h.failed j x hj)

theorem Settled.step (hP : ∀ i a, D.Stable (P i a)) (hF : ∀ i x, D.Stable (F i x))
    (hw : ∀ i db, D.inv db → wp D (progs i) (fun a c => P i a c.db) (fun x c => F i x c.db)
      { db := db })
    (hsound : Sound D progs Q E db₀ s) (h : Settled D P F s) (hs : Step progs D.allowed s s') :
    Settled D P F s' := by
  cases hs with
  | @start i hi =>
    refine h.set (fun c hc => ?_) (by simp) (by simp)
    cases hc
    exact ⟨s.db, .refl, hw i _ hsound.inv⟩
  | @stmt i site eff next w L done hi ha hg =>
    obtain ⟨db, hrely, hwp⟩ := h.running i _ hi
    refine h.set (fun c hc => ?_) (by simp) (by simp)
    cases hc
    exact ⟨s.db, .refl, hwp ⟨s.db, w, L, done⟩ ⟨s.db, hrely, hsound.inv, rfl⟩ ha⟩
  | commit hi => exact h.publish hP hF hsound hi
  | @rollback i next w L done hi =>
    obtain ⟨db, hrely, hwp⟩ := h.running i _ hi
    refine h.set (fun c hc => ?_) (by simp) (by simp)
    cases hc
    exact ⟨db, Discipline.rely_mono (List.nil_subset _) hrely, hwp⟩
  | @ret i a w L done hi =>
    obtain ⟨db, hrely, hwp⟩ := h.running i _ hi
    refine h.set (by simp) (fun b hb => ?_) (by simp)
    cases hb
    exact (hP i a).rely hrely hwp
  | @fail i x w L done hi =>
    obtain ⟨db, hrely, hwp⟩ := h.running i _ hi
    refine h.set (by simp) (by simp) fun y hy => ?_
    cases hy
    exact (hF i x).rely hrely hwp
  | abort hi => exact h.set (by simp) (by simp) (by simp)

/-- **What a call knows at its end holds ever after**, if no commit makes it false. -/
theorem Settled.of_reachable (hP : ∀ i a, D.Stable (P i a)) (hF : ∀ i x, D.Stable (F i x))
    (hw : ∀ i db, D.inv db → wp D (progs i) (fun a c => P i a c.db) (fun x c => F i x c.db)
      { db := db })
    (h₀ : D.inv db₀) (h : ReachableIf progs D.allowed (.initial ι ν ℓ ε χ α db₀) s) :
    D.inv s.db ∧ Settled D P F s := by
  have hw' : ∀ i db, D.inv db → wp D (progs i) (fun _ _ => True) (fun _ _ => True) { db := db } :=
    fun i db hi => wp_mono (fun _ _ _ => trivial) (fun _ _ _ => trivial) (hw i db hi)
  suffices Sound D progs (fun _ _ _ => True) (fun _ _ _ => True) db₀ s ∧ Settled D P F s from
    ⟨this.1.inv, this.2⟩
  induction h with
  | refl => exact ⟨.initial h₀, nofun, nofun, nofun⟩
  | tail _ hs ih => exact ⟨ih.1.step hw' hs, ih.2.step hP hF hw ih.1 hs⟩

end

end Txn
