/-
  One transaction on its own.

  * `Prog.run`: what a program without commits returns, and what it then sees;
  * `run_bind`, `run_exec`, `run_orFail` …: an equation for each form of statement;
  * `run_lockRow`, `run_updateRow` …: what the statements on a table have read and written;
  * `eval_bind_run`: the first part of a program, as a run;
  * `run_statements`: what all statements of a program keep;
  * `alone_publish`, `alone_commit`: a call that commits once, at its end.
-/
import Sakura.Txn.Alone

namespace Txn

variable {ν σ ℓ ε χ α β : Type}

namespace Prog

/-- The result of the program where it sees `v`, with what it sees at its end; `none` if it fails. -/
def run : Prog ν σ ℓ ε χ α → σ → Option (α × σ)
  | ret a, v => some (a, v)
  | fail _, _ => none
  | stmt _ eff next, v => (next v).run ((eff v).write v)
  | commit _ _, _ => none
  | rollback _, _ => none

section

variable {v v' : σ} {a : α} {b : β}

theorem run_bind {f : α → Prog ν σ ℓ ε χ β} : ∀ {p : Prog ν σ ℓ ε χ α} {v : σ},
    (p >>= f).run v = (p.run v).bind fun r => (f r.1).run r.2
  | ret _, _ => rfl
  | fail _, _ => rfl
  | stmt _ _ next, v => run_bind (p := next v)
  | commit _ _, _ => rfl
  | rollback _, _ => rfl

theorem bind_assoc {γ : Type} {f : α → Prog ν σ ℓ ε χ β} {g : β → Prog ν σ ℓ ε χ γ} :
    ∀ p : Prog ν σ ℓ ε χ α, p >>= f >>= g = p >>= fun a => f a >>= g
  | ret _ => rfl
  | fail _ => rfl
  | stmt site eff next => congrArg (stmt site eff) (funext fun v => bind_assoc (next v))
  | commit e next => congrArg (commit e) (bind_assoc next)
  | rollback next => congrArg rollback (bind_assoc next)

/-- The two parts of a program that ends. -/
theorem run_bind_some {f : α → Prog ν σ ℓ ε χ β} {p : Prog ν σ ℓ ε χ α}
    (h : (p >>= f).run v = some (b, v')) :
    ∃ a v₁, p.run v = some (a, v₁) ∧ (f a).run v₁ = some (b, v') := by
  rw [run_bind] at h
  obtain ⟨⟨a, v₁⟩, h₁, h₂⟩ := Option.bind_eq_some_iff.1 h
  exact ⟨a, v₁, h₁, h₂⟩

theorem run_pure : (pure a : Prog ν σ ℓ ε χ α).run v = some (a, v) := rfl

theorem run_query {site : ν} {f : σ → α} :
    (query site f : Prog ν σ ℓ ε χ α).run v = some (f v, v) := rfl

theorem run_orFail {x : χ} {o : Option α} :
    (orFail x o : Prog ν σ ℓ ε χ α).run v = o.map (·, v) := by
  cases o <;> rfl

theorem run_exec {site : ν} {f : σ → Outcome σ ℓ χ α} :
    (exec site f : Prog ν σ ℓ ε χ α).run v = match (f v).result with
      | .ok a => some (a, (f v).write v)
      | .error _ => none := by
  show (ofExcept (f v).result).run ((f v).write v) = _
  cases (f v).result <;> rfl

/-- A statement that was not refused. -/
theorem run_exec_some {site : ν} {f : σ → Outcome σ ℓ χ α}
    (h : (exec site f : Prog ν σ ℓ ε χ α).run v = some (a, v')) :
    (f v).result = .ok a ∧ v' = (f v).write v := by
  rw [run_exec] at h
  split at h
  · next hr =>
    cases h
    exact ⟨hr, rfl⟩
  · cases h

end

theorem run_orFail_some {x : χ} {o : Option α} {v v' : σ} {a : α}
    (h : (orFail x o : Prog ν σ ℓ ε χ α).run v = some (a, v')) : o = some a ∧ v' = v := by
  rw [run_orFail] at h
  obtain ⟨a', ha, he⟩ := Option.map_eq_some_iff.1 h
  cases he
  exact ⟨ha, rfl⟩

theorem run_check_some {p : Prop} [Decidable p] {x : χ} {v v' : σ} {u : Unit}
    (h : (check p x : Prog ν σ ℓ ε χ Unit).run v = some (u, v')) : p ∧ v' = v := by
  unfold check at h
  split at h
  · next hp =>
    cases h
    exact ⟨hp, rfl⟩
  · cases h

/-! ## Statements on a table -/

section Rows

variable {δ ρ κ : Type} [Layers σ δ] [Inhabited ν] [DecidableEq κ] {T : Rows σ δ ρ κ ℓ}
  {p : ρ → Bool} {set : ρ → ρ} {v v' : σ} {o : Option ρ} {mode : Mode}

omit [Layers σ δ] in
theorem run_lockRow (h : (T.lockRow mode p : Prog ν σ ℓ ε χ (Option ρ)).run v = some (o, v')) :
    v' = v ∧ ∀ r, o = some r → r ∈ T.rows v ∧ p r := by
  unfold Rows.lockRow at h
  obtain ⟨found, v₁, h₁, h₂⟩ := run_bind_some h
  cases h₁
  split at h₂
  · cases h₂
    exact ⟨rfl, fun _ h => by cases h⟩
  · cases h₂
    refine ⟨rfl, fun r hr => ?_⟩
    obtain ⟨hmem, -, hp⟩ := Rows.find_some hr
    exact ⟨hmem, hp⟩

omit [Layers σ δ] in
theorem run_lockFirst : ∀ {ks : List κ},
    (T.lockFirst mode p ks : Prog ν σ ℓ ε χ (Option ρ)).run v = some (o, v') →
      v' = v ∧ ∀ r, o = some r → r ∈ T.rows v ∧ p r
  | [], h => by
    cases h
    exact ⟨rfl, fun _ h => by cases h⟩
  | k :: ks, h => by
    unfold Rows.lockFirst at h
    obtain ⟨found, v₁, h₁, h₂⟩ := run_bind_some h
    cases h₁
    split at h₂
    · next r hr =>
      cases h₂
      refine ⟨rfl, fun r' hr' => ?_⟩
      cases hr'
      obtain ⟨hmem, -, hp⟩ := Rows.find_some hr
      exact ⟨hmem, hp⟩
    · exact run_lockFirst h₂

theorem run_updateRow {site : κ → ν} {search : ν}
    (h : (T.updateRow p set site search : Prog ν σ ℓ ε χ (Option ρ)).run v = some (o, v')) :
    (v' = v ∧ ∀ r ∈ T.rows v, ¬p r) ∨
      ∃ r ∈ T.rows v, p r ∧ v' = Layers.lay v (T.version (set r)) := by
  unfold Rows.updateRow at h
  obtain ⟨found, v₁, h₁, h₂⟩ := run_bind_some h
  cases h₁
  split at h₂
  · next hnone =>
    cases h₂
    exact Or.inl ⟨rfl, by simpa using hnone⟩
  · next r₀ hr₀ =>
    obtain ⟨-, rfl⟩ := run_exec_some h₂
    unfold Rows.updated
    split
    · next hno =>
      exact absurd (List.find?_some hr₀) (Rows.find_none hno r₀ (List.mem_of_find?_eq_some hr₀) rfl)
    · next r hr =>
      obtain ⟨hmem, -, hp⟩ := Rows.find_some hr
      exact Or.inr ⟨r, hmem, hp, rfl⟩

omit [DecidableEq κ] in
theorem run_insertRow {taken : σ → Bool} {locks : Held ℓ} {r : ρ} {x : χ} {site : ν} {u : Unit}
    (h : (T.insertRow taken locks r x site : Prog ν σ ℓ ε χ Unit).run v = some (u, v')) :
    taken v = false ∧ v' = Layers.lay v (T.version r) := by
  obtain ⟨hok, rfl⟩ := run_exec_some h
  unfold Rows.inserted at hok ⊢
  cases ht : taken v with
  | true =>
    rw [ht] at hok
    cases hok
  | false => exact ⟨rfl, by simp⟩

end Rows

/-! ## A commit at the end -/

/-- The writes of a program without commits are those of its run. -/
theorem eval_run {S : σ → Effect σ ℓ → Prop} : ∀ {p : Prog ν σ ℓ ε χ α}, p.Statements S →
    ∀ (db : σ) (w : σ → σ), match p.run (w db) with
      | some (a, v) => ∃ w', p.eval db w = (db, w', .ok a) ∧ w' db = v
      | none => ∃ w' x, p.eval db w = (db, w', .error x)
  | ret _, _, _, w => ⟨w, rfl, rfl⟩
  | fail x, _, _, w => ⟨w, x, rfl⟩
  | stmt _ eff next, hp, db, w =>
    eval_run (p := next (w db)) (hp (w db)).2 db ((eff (w db)).write ∘ w)
  | commit _ _, hp, _, _ => hp.elim
  | rollback _, hp, _, _ => hp.elim

/-- The first part of a program that returns, if it has no commits. -/
theorem eval_bind_run {S : σ → Effect σ ℓ → Prop} {f : α → Prog ν σ ℓ ε χ β} {p : Prog ν σ ℓ ε χ α}
    (hp : p.Statements S) {db : σ} {w : σ → σ} {b : β}
    (h : ((p >>= f).eval db w).2.2 = .ok b) :
    ∃ a v w', p.run (w db) = some (a, v) ∧ w' db = v ∧ (p >>= f).eval db w = (f a).eval db w' := by
  have hrun := eval_run hp db w
  rw [eval_bind] at h ⊢
  cases hr : p.run (w db) with
  | none =>
    rw [hr] at hrun
    obtain ⟨w', x, he⟩ := hrun
    rw [he] at h
    cases h
  | some r =>
    rw [hr] at hrun
    obtain ⟨w', he, hv⟩ := hrun
    exact ⟨r.1, r.2, w', rfl, hv, by rw [he]⟩

/-- What every statement keeps holds of what the program sees at its end. -/
theorem run_statements {S : σ → Effect σ ℓ → Prop} {P : σ → Prop}
    (hS : ∀ v e, S v e → P v → P (e.write v)) : ∀ {p : Prog ν σ ℓ ε χ α} {v v' : σ} {a : α},
    p.Statements S → P v → p.run v = some (a, v') → P v'
  | ret _, v, v', _, _, hv, h => by
    cases h
    exact hv
  | fail _, _, _, _, _, _, h => by cases h
  | stmt _ _ next, v, v', a, hp, hv, h =>
    run_statements hS (p := next v) (hp v).2 (hS _ _ (hp v).1 hv) h
  | commit _ _, _, _, _, hp, _, _ => hp.elim
  | rollback _, _, _, _, hp, _, _ => hp.elim

/-- A program without commits leaves the data as they are. -/
theorem eval_db {S : σ → Effect σ ℓ → Prop} {p : Prog ν σ ℓ ε χ α} (hp : p.Statements S) {db : σ}
    {w : σ → σ} : (p.eval db w).1 = db := by
  have h := eval_run hp db w
  split at h
  · obtain ⟨w', he, -⟩ := h
    rw [he]
  · obtain ⟨w', x, he⟩ := h
    rw [he]

/-- The data that a call leaves with one commit, after which it only reads. -/
theorem alone_commit {S : σ → Effect σ ℓ → Prop} {p : Prog ν σ ℓ ε χ α} (hp : p.Statements S)
    {e : α → ε} {f : α → Prog ν σ ℓ ε χ β} (hf : ∀ a, (f a).Statements S) {db : σ} :
    ((p >>= fun a => publish (e a) >>= fun _ => f a).alone db).1 =
      ((p.run db).map (·.2)).getD db := by
  have h := eval_run hp db id
  unfold alone
  rw [eval_bind]
  simp only [id_eq] at h
  cases hr : p.run db with
  | none =>
    rw [hr] at h
    obtain ⟨w', x, he⟩ := h
    simp [he]
  | some r =>
    obtain ⟨a, v⟩ := r
    rw [hr] at h
    obtain ⟨w', he, rfl⟩ := h
    simp only [he]
    exact eval_db (hf a)

/-- **A call that commits once, at its end**, leaves what its transaction sees. -/
theorem alone_publish {S : σ → Effect σ ℓ → Prop} {p : Prog ν σ ℓ ε χ α} (hp : p.Statements S)
    {e : ε} {db db' : σ} :
    (p >>= fun _ => publish e).alone db = (db', .ok ()) ↔ ∃ a, p.run db = some (a, db') := by
  have h := eval_run hp db id
  unfold alone
  rw [eval_bind]
  simp only [id_eq] at h
  cases hr : p.run db with
  | none =>
    rw [hr] at h
    obtain ⟨w', x, he⟩ := h
    simp [he]
  | some r =>
    obtain ⟨a, v⟩ := r
    rw [hr] at h
    obtain ⟨w', he, rfl⟩ := h
    simp only [he, publish, eval]
    constructor
    · intro heq
      exact ⟨a, by rw [(Prod.mk.inj heq).1]⟩
    · rintro ⟨b, heq⟩
      rw [(Prod.mk.inj (Option.some.inj heq)).2]

end Prog

end Txn
