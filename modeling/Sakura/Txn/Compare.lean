/-
  Properties along a run.

  * `AfterEach`: what holds in the state after every step;
  * `BeforeEach`: what every step meets in the state before it;
  * `after_iff_before`: the rule by which the steps alone decide what holds along a run.
-/

namespace Txn

variable {μ τ : Type} {act : μ → τ → τ}

/-- `P` holds after every step of the run `ms`. -/
def AfterEach (act : μ → τ → τ) (P : τ → Prop) : List μ → τ → Prop
  | [], _ => True
  | m :: ms, t => P (act m t) ∧ AfterEach act P ms (act m t)

/-- Every step of the run `ms` meets `C` in the state before it. -/
def BeforeEach (act : μ → τ → τ) (C : μ → τ → Prop) : List μ → τ → Prop
  | [], _ => True
  | m :: ms, t => C m t ∧ BeforeEach act C ms (act m t)

/-- **A relation `R` that the steps of `C` keep, and no other step keeps unseen, decides what holds along
a run.** -/
theorem after_iff_before {R P : τ → Prop} {C : μ → τ → Prop} (hview : ∀ t, R t → P t)
    (hstep : ∀ m t, R t → C m t → R (act m t)) (hback : ∀ m t, R t → P (act m t) → C m t) :
    ∀ (ms : List μ) {t : τ}, R t → (AfterEach act P ms t ↔ BeforeEach act C ms t)
  | [], _, _ => Iff.rfl
  | m :: ms, t, hR => by
    constructor
    · rintro ⟨hP, hrest⟩
      have hC := hback m t hR hP
      exact ⟨hC, (after_iff_before hview hstep hback ms (hstep m t hR hC)).1 hrest⟩
    · rintro ⟨hC, hrest⟩
      have hR' := hstep m t hR hC
      exact ⟨hview _ hR', (after_iff_before hview hstep hback ms hR').2 hrest⟩

end Txn
