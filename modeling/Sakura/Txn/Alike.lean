/-
  Two programs side by side.

  * `Prog.Alike`: two programs that take the same steps where what they see is related;
  * `Alike.bind`, `alike_query`, `alike_exec`, `alike_check` …: a rule for each form of statement;
  * `alone_alike`: such calls leave related data and related answers.
-/
import Sakura.Txn.Alone

namespace Txn.Prog

variable {ν σ ℓ ε χ α β α' β' : Type} {R : σ → σ → Prop} {Q : α → β → Prop}

/-- On data that `R` relates, the programs take the same steps, keep `R`, fail with the same error, and
return what `Q` relates. -/
inductive Alike (R : σ → σ → Prop) (Q : α → β → Prop) :
    Prog ν σ ℓ ε χ α → Prog ν σ ℓ ε χ β → Prop
  | ret {a : α} {b : β} (h : Q a b) : Alike R Q (.ret a) (.ret b)
  | fail (x : χ) : Alike R Q (.fail x) (.fail x)
  | stmt {site site' : ν} {eff eff' : σ → Effect σ ℓ} {next : σ → Prog ν σ ℓ ε χ α}
      {next' : σ → Prog ν σ ℓ ε χ β}
      (hw : ∀ v v', R v v' → R ((eff v).write v) ((eff' v').write v'))
      (hn : ∀ v v', R v v' → Alike R Q (next v) (next' v')) :
      Alike R Q (.stmt site eff next) (.stmt site' eff' next')
  | commit {e e' : ε} {next : Prog ν σ ℓ ε χ α} {next' : Prog ν σ ℓ ε χ β}
      (hn : Alike R Q next next') : Alike R Q (.commit e next) (.commit e' next')
  | rollback {next : Prog ν σ ℓ ε χ α} {next' : Prog ν σ ℓ ε χ β}
      (hn : Alike R Q next next') : Alike R Q (.rollback next) (.rollback next')

/-- The same of two answers. -/
def AlikeAnswers (Q : α → β → Prop) : Except χ α → Except χ β → Prop
  | .ok a, .ok b => Q a b
  | .error x, .error y => x = y
  | _, _ => False

theorem AlikeAnswers.eq {r r' : Except χ α} (h : AlikeAnswers (· = ·) r r') : r = r' := by
  cases r <;> cases r' <;> simp_all [AlikeAnswers]

theorem Alike.mono {Q' : α → β → Prop} (hQ : ∀ a b, Q a b → Q' a b) {p : Prog ν σ ℓ ε χ α}
    {q : Prog ν σ ℓ ε χ β} (h : Alike R Q p q) : Alike R Q' p q := by
  induction h with
  | ret h => exact .ret (hQ _ _ h)
  | fail x => exact .fail x
  | stmt hw _ ih => exact .stmt hw ih
  | commit _ ih => exact .commit ih
  | rollback _ ih => exact .rollback ih

theorem Alike.bind {Q' : α' → β' → Prop} {f : α → Prog ν σ ℓ ε χ α'} {g : β → Prog ν σ ℓ ε χ β'}
    {p : Prog ν σ ℓ ε χ α} {q : Prog ν σ ℓ ε χ β} (h : Alike R Q p q)
    (hf : ∀ a b, Q a b → Alike R Q' (f a) (g b)) : Alike R Q' (p >>= f) (q >>= g) := by
  induction h with
  | ret h => exact hf _ _ h
  | fail x => exact .fail x
  | stmt hw _ ih => exact .stmt hw ih
  | commit _ ih => exact .commit ih
  | rollback _ ih => exact .rollback ih

theorem alike_pure {a : α} {b : β} (h : Q a b) :
    Alike R Q (pure a : Prog ν σ ℓ ε χ α) (pure b) := .ret h

theorem alike_publish {e e' : ε} :
    Alike R (fun _ _ => True) (publish e : Prog ν σ ℓ ε χ Unit) (publish e') :=
  .commit (.ret trivial)

theorem alike_query {site site' : ν} {f : σ → α} {g : σ → β} (h : ∀ v v', R v v' → Q (f v) (g v')) :
    Alike R Q (query site f : Prog ν σ ℓ ε χ α) (query site' g) :=
  .stmt (fun _ _ hR => hR) fun v v' hR => .ret (h v v' hR)

theorem alike_exec {site site' : ν} {f : σ → Outcome σ ℓ χ α} {g : σ → Outcome σ ℓ χ β}
    (hw : ∀ v v', R v v' → R ((f v).write v) ((g v').write v'))
    (hr : ∀ v v', R v v' → AlikeAnswers Q (f v).result (g v').result) :
    Alike R Q (exec site f : Prog ν σ ℓ ε χ α) (exec site' g) := by
  refine .stmt hw fun v v' hR => ?_
  have h := hr v v' hR
  show Alike R Q (ofExcept (f v).result) (ofExcept (g v').result)
  cases hf : (f v).result <;> cases hg : (g v').result <;> rw [hf, hg] at h
  · cases h
    exact .fail _
  · exact h.elim
  · exact h.elim
  · exact .ret h

theorem alike_check {p q : Prop} [Decidable p] [Decidable q] {x : χ} (h : p ↔ q) :
    Alike R (fun _ _ => p) (check p x : Prog ν σ ℓ ε χ Unit) (check q x) := by
  unfold check
  by_cases hp : p
  · rw [if_pos hp, if_pos (h.1 hp)]
    exact .ret hp
  · rw [if_neg hp, if_neg fun hq => hp (h.2 hq)]
    exact .fail x

theorem alike_orFail {x : χ} {o : Option α} :
    Alike R (fun a b => a = b ∧ o = some a) (orFail x o : Prog ν σ ℓ ε χ α) (orFail x o) := by
  cases o with
  | none => exact .fail x
  | some a => exact .ret ⟨rfl, rfl⟩

theorem eval_alike {p : Prog ν σ ℓ ε χ α} {q : Prog ν σ ℓ ε χ β} (h : Alike R Q p q) :
    ∀ {db db' : σ} {w w' : σ → σ}, R db db' → R (w db) (w' db') →
      R (p.eval db w).1 (q.eval db' w').1 ∧ AlikeAnswers Q (p.eval db w).2.2 (q.eval db' w').2.2 := by
  induction h with
  | ret h => exact fun hdb _ => ⟨hdb, h⟩
  | fail x => exact fun hdb _ => ⟨hdb, rfl⟩
  | stmt hw _ ih => exact fun hdb hv => ih _ _ hv hdb (hw _ _ hv)
  | commit _ ih => exact fun _ hv => ih hv hv
  | rollback _ ih => exact fun hdb _ => ih hdb hdb

/-- **Calls of like programs on related data** leave related data, and answer alike. -/
theorem alone_alike {p : Prog ν σ ℓ ε χ α} {q : Prog ν σ ℓ ε χ β} (h : Alike R Q p q) {db db' : σ}
    (hdb : R db db') :
    R (p.alone db).1 (q.alone db').1 ∧ AlikeAnswers Q (p.alone db).2 (q.alone db').2 :=
  eval_alike h hdb hdb

end Txn.Prog
