/-
  Commits labelled by their calls.

  * `Prog.label`: the program with other events;
  * `label_bind`, `label_query`, `label_lockRow` …: labels go through the forms of programs;
  * `wp_label_bind`, `Statements.label`: labels under rely-guarantee reasoning;
  * `sure_of_mem`: the log has only what the calls commit; `label_of_mem`: in a system of labelled calls, it
    says whose commit it is.
-/
import Sakura.Txn.Traces

namespace Txn

variable {ι ν σ δ ρ κ ℓ ε ε' χ χ' α β : Type}

namespace Prog

/-- The program, with the event `f e` where it commits `e`. -/
def label (f : ε → ε') : Prog ν σ ℓ ε χ α → Prog ν σ ℓ ε' χ α
  | ret a => ret a
  | fail x => fail x
  | stmt site eff next => stmt site eff fun v => (next v).label f
  | commit e next => commit (f e) (next.label f)
  | rollback next => rollback (next.label f)

variable {f : ε → ε'}

theorem label_bind {g : α → Prog ν σ ℓ ε χ β} : ∀ {p : Prog ν σ ℓ ε χ α},
    (p >>= g).label f = p.label f >>= fun a => (g a).label f
  | ret _ => rfl
  | fail _ => rfl
  | stmt site eff next => congrArg (stmt site eff) (funext fun v => label_bind (p := next v))
  | commit e next => congrArg (commit (f e)) (label_bind (p := next))
  | rollback next => congrArg rollback (label_bind (p := next))

@[simp] theorem label_pure {a : α} : (pure a : Prog ν σ ℓ ε χ α).label f = pure a := rfl

@[simp] theorem label_query {site : ν} {g : σ → α} :
    (query site g : Prog ν σ ℓ ε χ α).label f = query site g := rfl

@[simp] theorem label_exec {site : ν} {g : σ → Outcome σ ℓ χ α} :
    (exec site g : Prog ν σ ℓ ε χ α).label f = exec site g := by
  refine congrArg (stmt site fun v => (g v).toEffect) (funext fun v => ?_)
  show (ofExcept (g v).result : Prog ν σ ℓ ε χ α).label f = ofExcept (g v).result
  cases (g v).result <;> rfl

@[simp] theorem label_check {p : Prop} [Decidable p] {x : χ} :
    (check p x : Prog ν σ ℓ ε χ Unit).label f = check p x := by
  unfold check
  split <;> rfl

@[simp] theorem label_orFail {x : χ} {o : Option α} :
    (orFail x o : Prog ν σ ℓ ε χ α).label f = orFail x o := by
  cases o <;> rfl

@[simp] theorem label_publish {e : ε} :
    (publish e : Prog ν σ ℓ ε χ Unit).label f = publish (f e) := rfl

theorem label_mapError {g : χ → χ'} : ∀ {p : Prog ν σ ℓ ε χ α},
    (p.mapError g).label f = (p.label f).mapError g
  | ret _ => rfl
  | fail _ => rfl
  | stmt site eff next => congrArg (stmt site eff) (funext fun v => label_mapError (p := next v))
  | commit e next => congrArg (commit (f e)) (label_mapError (p := next))
  | rollback next => congrArg rollback (label_mapError (p := next))

/-- The statements of a program are not changed. -/
theorem Statements.label {S : σ → Effect σ ℓ → Prop} : ∀ {p : Prog ν σ ℓ ε χ α},
    p.Statements S → (p.label f).Statements S
  | ret _, _ => trivial
  | fail _, _ => trivial
  | stmt _ _ next, h => fun v => ⟨(h v).1, Statements.label (p := next v) (h v).2⟩
  | commit _ _, h => h.elim
  | rollback _, h => h.elim

/-- A program whose commits all have one label commits nothing else. -/
theorem sure_label {e : ε'} : ∀ (p : Prog ν σ ℓ ε χ α),
    (p.label fun _ => e).Sure (fun _ => True) (· = e)
  | ret _ => trivial
  | fail _ => trivial
  | stmt _ _ next => fun v => sure_label (next v)
  | commit _ next => ⟨rfl, sure_label next⟩
  | rollback next => sure_label next

end Prog

open Prog

section Forms

variable [Inhabited ν] {f : ε → ε'}

@[simp] theorem label_read {g : σ → α} : (read g : Prog ν σ ℓ ε χ α).label f = read g := rfl

variable [Layers σ δ] [DecidableEq κ] {T : Rows σ δ ρ κ ℓ} {p : ρ → Bool} {set : ρ → ρ}

omit [Layers σ δ] in
@[simp] theorem label_lockRow {mode : Mode} :
    (T.lockRow mode p : Prog ν σ ℓ ε χ (Option ρ)).label f = T.lockRow mode p := by
  unfold Rows.lockRow
  rw [label_bind, label_read]
  congr 1
  funext o
  cases o with
  | none => rfl
  | some r => exact label_exec

@[simp] theorem label_updateRow {site : κ → ν} {search : ν} :
    (T.updateRow p set site search : Prog ν σ ℓ ε χ (Option ρ)).label f =
      T.updateRow p set site search := by
  unfold Rows.updateRow
  rw [label_bind, label_query]
  congr 1
  funext o
  cases o with
  | none => rfl
  | some r => exact label_exec

omit [DecidableEq κ] in
@[simp] theorem label_insertRow {taken : σ → Bool} {locks : Held ℓ} {r : ρ} {x : χ} {site : ν} :
    (T.insertRow taken locks r x site : Prog ν σ ℓ ε χ Unit).label f =
      T.insertRow taken locks r x site := label_exec

end Forms

theorem wp_label_bind {D : Discipline ν σ ℓ ε'} {f : ε → ε'} {p : Prog ν σ ℓ ε χ α}
    {g : α → Prog ν σ ℓ ε χ β} {Q : β → Ctx σ ℓ ε' → Prop} {E : χ → Ctx σ ℓ ε' → Prop}
    {c : Ctx σ ℓ ε'} :
    wp D ((p >>= g).label f) Q E c ↔
      wp D (p.label f) (fun a => wp D ((g a).label f) Q E) E c := by
  rw [label_bind]
  exact wp_bind

/-! ## Systems of labelled calls -/

section Log

variable [DecidableEq ι] {progs : ι → Prog ν σ ℓ ε χ α} {E : ι → ε → Prop} {allowed : ν → σ → Prop}
  {db : σ} {s s' : State ι ν σ ℓ ε χ α}

/-- Every call still commits only what `E` says, and has. -/
structure Committing (E : ι → ε → Prop) (s : State ι ν σ ℓ ε χ α) : Prop where
  running : ∀ i c, s.phase i = .running c → c.prog.Sure (fun _ => True) (E i)
  log : ∀ x ∈ s.log, E x.1 x.2

theorem Committing.set (h : Committing E s) {i : ι} {p : Phase ν σ ℓ ε χ α}
    (hp : ∀ c, p = .running c → c.prog.Sure (fun _ => True) (E i)) : Committing E (s.set i p) where
  running j c hj := by
    rw [State.set_phase] at hj; split at hj
    · next e => subst e; exact hp c hj
    · exact h.running j c hj
  log := h.log

theorem Committing.step (h : Committing E s) (hprogs : ∀ i, (progs i).Sure (fun _ => True) (E i))
    (hs : Step progs allowed s s') : Committing E s' := by
  cases hs with
  | start hi => exact h.set fun c hc => by cases hc; exact hprogs _
  | stmt hi _ _ => exact h.set fun c hc => by cases hc; exact h.running _ _ hi _
  | @commit i e next w L done hi =>
    have hsure : E i e ∧ next.Sure (fun _ => True) (E i) := h.running _ _ hi
    refine ⟨fun j c hj => ?_, fun x hx => ?_⟩
    · rw [State.publish_phase] at hj; split at hj
      · next e' => cases hj; subst e'; exact hsure.2
      · exact h.running j c hj
    · rcases List.mem_append.1 hx with hx | hx
      · exact h.log x hx
      · cases List.mem_singleton.1 hx
        exact hsure.1
  | @rollback i next w L done hi =>
    have hsure : next.Sure (fun _ => True) (E i) := h.running _ _ hi
    exact h.set fun c hc => by cases hc; exact hsure
  | ret hi => exact h.set fun c hc => by cases hc
  | fail hi => exact h.set fun c hc => by cases hc
  | abort hi => exact h.set fun c hc => by cases hc

/-- **The log of a run has what its calls commit.** -/
theorem sure_of_mem (hprogs : ∀ i, (progs i).Sure (fun _ => True) (E i))
    (h : ReachableIf progs allowed (.initial ι ν ℓ ε χ α db) s) {x : ι × ε} (hx : x ∈ s.log) :
    E x.1 x.2 := by
  suffices Committing E s from this.log x hx
  clear hx
  induction h with
  | refl => exact ⟨fun _ _ hc => (nomatch hc), fun _ hx => absurd hx List.not_mem_nil⟩
  | tail _ hs ih => exact ih.step hprogs hs

/-- **The log of a run says whose commits they are.** -/
theorem label_of_mem {l : ι → ε'} {s : State ι ν σ ℓ ε' χ α}
    (h : ReachableIf (fun i => (progs i).label fun _ => l i) allowed (.initial ι ν ℓ ε' χ α db) s)
    {x : ι × ε'} (hx : x ∈ s.log) : x.2 = l x.1 :=
  sure_of_mem (E := fun i e => e = l i) (fun i => sure_label (progs i)) h hx

end Log

end Txn
