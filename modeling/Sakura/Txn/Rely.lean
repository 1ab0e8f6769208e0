/-
  Rely-guarantee reasoning for concurrent transactions.

  A discipline says what a commit may do to the data, given the locks its transaction holds.  While
  a transaction holds its locks, the others can only commit what a compatible set of locks allows:
  this is all it relies on between two statements, and keeping to the discipline is what it
  guarantees at its commits.

  * `Discipline`, `Discipline.rely`: guarantee and interference;
  * `wp`: the weakest precondition of a program under interference, with one rule for each
    construct (`wp_bind`, `wp_query`, `wp_exec`, `wp_check`, `wp_publish`, `wp_attempt`);
  * `Sound.of_reachable`: in every interleaving of programs whose `wp` holds, the data follow a chain
    of commits allowed by the discipline.
-/
import Sakura.Txn.System

namespace Txn

variable {ι ν σ ℓ ε χ α β : Type}

/-- What the transactions of a system keep to.  `step L db e db'` says that a transaction holding
the locks `L` may turn `db` into `db'` by committing the event `e`. -/
structure Discipline (ν σ ℓ ε : Type) where
  inv : σ → Prop
  step : Held ℓ → σ → ε → σ → Prop
  allowed : ν → σ → Prop
  step_inv : ∀ {L db e db'}, inv db → step L db e db' → inv db'

namespace Discipline

variable (D : Discipline ν σ ℓ ε)

/-- A commit of a transaction whose locks do not exclude those of `L`. -/
def Other (L : Held ℓ) (db db' : σ) : Prop :=
  D.inv db ∧ ∃ M e, Compatible L M ∧ D.step M db e db'

/-- What may happen to the data while a transaction holds the locks `L`. -/
def rely (L : Held ℓ) : σ → σ → Prop := Relation.ReflTransGen (D.Other L)

variable {D}

theorem rely_refl {L : Held ℓ} {db : σ} : D.rely L db db := .refl

theorem rely_trans {L : Held ℓ} {db db' db'' : σ} (h : D.rely L db db') (h' : D.rely L db' db'') :
    D.rely L db db'' :=
  Relation.ReflTransGen.trans h h'

/-- With fewer locks a transaction has to expect more. -/
theorem rely_mono {L M : Held ℓ} (hLM : L ⊆ M) {db db' : σ} (h : D.rely M db db') :
    D.rely L db db' :=
  Relation.ReflTransGen.mono
    (fun _ _ ⟨hi, N, e, hc, hs⟩ => ⟨hi, N, e, hc.mono hLM, hs⟩) _ _ h

/-- A property that survives each commit of the others survives all of them. -/
theorem rely_induction {L : Held ℓ} {P : σ → Prop}
    (hP : ∀ {M db e db'}, D.inv db → Compatible L M → D.step M db e db' → P db → P db')
    {db db' : σ} (h : D.rely L db db') (h₀ : P db) : P db' := by
  induction h with
  | refl => exact h₀
  | tail _ hs ih =>
    obtain ⟨hi, M, e, hc, hst⟩ := hs
    exact hP hi hc hst ih

/-- The data after the commits of `es`, each allowed by the discipline. -/
inductive Commits (D : Discipline ν σ ℓ ε) : σ → List ε → σ → Prop
  | nil {db} : Commits D db [] db
  | snoc {db es db' L e db''} : Commits D db es db' → D.inv db' → D.step L db' e db'' →
      Commits D db (es ++ [e]) db''

theorem Commits.inv {db : σ} {es : List ε} {db' : σ} (h : D.Commits db es db') (h₀ : D.inv db) :
    D.inv db' := by
  cases h with
  | nil => exact h₀
  | snoc _ hi hs => exact D.step_inv hi hs

end Discipline

/-! ## Weakest preconditions -/

/-- What a running program knows of its surroundings: the committed data, its own writes and locks,
the events it has committed. -/
structure Ctx (σ ℓ ε : Type) where
  db : σ
  writes : σ → σ := id
  held : Held ℓ := []
  done : List ε := []

/-- What the statements of the transaction see. -/
def Ctx.view (c : Ctx σ ℓ ε) : σ := c.writes c.db

/-- `c'` is `c` after some commits of the others. -/
def Ctx.Waits (D : Discipline ν σ ℓ ε) (c c' : Ctx σ ℓ ε) : Prop :=
  ∃ db, D.rely c.held c.db db ∧ D.inv db ∧ c' = { c with db := db }

/-- `c` with the effect of a statement. -/
def Ctx.apply (c : Ctx σ ℓ ε) (f : Effect σ ℓ) : Ctx σ ℓ ε :=
  { c with writes := f.write ∘ c.writes, held := c.held ++ f.locks }

/-- `c` after its commit of `e`. -/
def Ctx.commit (c : Ctx σ ℓ ε) (e : ε) : Ctx σ ℓ ε := { db := c.view, done := c.done ++ [e] }

/-- `c` after a rollback. -/
def Ctx.rollback (c : Ctx σ ℓ ε) : Ctx σ ℓ ε := { db := c.db, done := c.done }

/-- From `c`, whatever the others do, the program keeps to the discipline, returns only with `Q` and
fails only with `E`. -/
def wp (D : Discipline ν σ ℓ ε) : Prog ν σ ℓ ε χ α → (α → Ctx σ ℓ ε → Prop) →
    (χ → Ctx σ ℓ ε → Prop) → Ctx σ ℓ ε → Prop
  | .ret a, Q, _, c => Q a c
  | .fail x, _, E, c => E x c
  | .stmt site eff next, Q, E, c => ∀ c', c.Waits D c' → D.allowed site c'.view →
      wp D (next c'.view) Q E (c'.apply (eff c'.view))
  | .commit e next, Q, E, c => ∀ c', c.Waits D c' →
      D.step c'.held c'.db e c'.view ∧ wp D next Q E (c'.commit e)
  | .rollback next, Q, E, c => wp D next Q E c.rollback

section Rules

variable {D : Discipline ν σ ℓ ε} {Q : α → Ctx σ ℓ ε → Prop} {E : χ → Ctx σ ℓ ε → Prop}
  {c : Ctx σ ℓ ε}

theorem wp_mono {Q' : α → Ctx σ ℓ ε → Prop} {E' : χ → Ctx σ ℓ ε → Prop}
    (hQ : ∀ a c, Q a c → Q' a c) (hE : ∀ x c, E x c → E' x c) :
    ∀ {p : Prog ν σ ℓ ε χ α} {c : Ctx σ ℓ ε}, wp D p Q E c → wp D p Q' E' c
  | .ret _, _, h => hQ _ _ h
  | .fail _, _, h => hE _ _ h
  | .stmt _ _ _, _, h => fun c' hw ha => wp_mono hQ hE (h c' hw ha)
  | .commit _ _, _, h => fun c' hw => ⟨(h c' hw).1, wp_mono hQ hE (h c' hw).2⟩
  | .rollback next, _, h => wp_mono (p := next) hQ hE h

theorem wp_bind {f : α → Prog ν σ ℓ ε χ β} {Q : β → Ctx σ ℓ ε → Prop} :
    ∀ {p : Prog ν σ ℓ ε χ α} {c : Ctx σ ℓ ε},
      wp D (p >>= f) Q E c ↔ wp D p (fun a => wp D (f a) Q E) E c
  | .ret _, _ => Iff.rfl
  | .fail _, _ => Iff.rfl
  | .stmt _ _ next, _ =>
    forall_congr' fun c' => imp_congr_right fun _ => imp_congr_right fun _ =>
      wp_bind (p := next c'.view)
  | .commit _ next, _ =>
    forall_congr' fun _ => imp_congr_right fun _ => and_congr_right fun _ => wp_bind (p := next)
  | .rollback next, _ => wp_bind (p := next)

@[simp] theorem wp_ret {a : α} : wp D (.ret a : Prog ν σ ℓ ε χ α) Q E c ↔ Q a c := Iff.rfl

@[simp] theorem wp_pure {a : α} : wp D (pure a : Prog ν σ ℓ ε χ α) Q E c ↔ Q a c := Iff.rfl

@[simp] theorem wp_fail {x : χ} : wp D (.fail x : Prog ν σ ℓ ε χ α) Q E c ↔ E x c := Iff.rfl

theorem wp_map {f : α → β} {Q : β → Ctx σ ℓ ε → Prop} {p : Prog ν σ ℓ ε χ α} :
    wp D (f <$> p) Q E c ↔ wp D p (fun a => Q (f a)) E c :=
  wp_bind (f := fun a => .ret (f a))

theorem wp_query {site : ν} {f : σ → α} :
    wp D (.query site f : Prog ν σ ℓ ε χ α) Q E c ↔
      ∀ c', c.Waits D c' → D.allowed site c'.view → Q (f c'.view) c' := by
  simp only [Prog.query, wp, Ctx.apply, List.append_nil, Function.id_comp]

theorem wp_exec {site : ν} {f : σ → Prog.Outcome σ ℓ χ α} :
    wp D (.exec site f : Prog ν σ ℓ ε χ α) Q E c ↔
      ∀ c', c.Waits D c' → D.allowed site c'.view →
        match (f c'.view).result with
        | .ok a => Q a (c'.apply (f c'.view).toEffect)
        | .error x => E x (c'.apply (f c'.view).toEffect) := by
  refine forall_congr' fun c' => imp_congr_right fun _ => imp_congr_right fun _ => ?_
  show wp D (Prog.ofExcept (f c'.view).result) Q E _ ↔ _
  cases (f c'.view).result <;> rfl

theorem wp_check {p : Prop} [Decidable p] {x : χ} {Q : Unit → Ctx σ ℓ ε → Prop} :
    wp D (.check p x : Prog ν σ ℓ ε χ Unit) Q E c ↔ (p → Q () c) ∧ (¬p → E x c) := by
  unfold Prog.check
  split <;> simp_all

theorem wp_orFail {x : χ} {o : Option α} :
    wp D (.orFail x o : Prog ν σ ℓ ε χ α) Q E c ↔
      (∀ a, o = some a → Q a c) ∧ (o = none → E x c) := by
  cases o <;> simp [Prog.orFail]

theorem wp_publish {e : ε} {Q : Unit → Ctx σ ℓ ε → Prop} :
    wp D (.publish e : Prog ν σ ℓ ε χ Unit) Q E c ↔
      ∀ c', c.Waits D c' → D.step c'.held c'.db e c'.view ∧ Q () (c'.commit e) := Iff.rfl

/-- An attempt ends with the value of the program, or rolled back with its error. -/
theorem wp_attempt {Q : Except χ α → Ctx σ ℓ ε → Prop} :
    ∀ {p : Prog ν σ ℓ ε χ α} {c : Ctx σ ℓ ε}, wp D p.attempt Q E c ↔
      wp D p (fun a => Q (.ok a)) (fun x c => Q (.error x) c.rollback) c
  | .ret _, _ => Iff.rfl
  | .fail _, _ => Iff.rfl
  | .stmt _ _ next, _ =>
    forall_congr' fun c' => imp_congr_right fun _ => imp_congr_right fun _ =>
      wp_attempt (p := next c'.view)
  | .commit _ next, _ =>
    forall_congr' fun _ => imp_congr_right fun _ => and_congr_right fun _ => wp_attempt (p := next)
  | .rollback next, _ => wp_attempt (p := next)

theorem wp_catching {χ' : Type} {Q : Except χ α → Ctx σ ℓ ε → Prop} {E : χ' → Ctx σ ℓ ε → Prop} :
    ∀ {p : Prog ν σ ℓ ε χ α} {c : Ctx σ ℓ ε}, wp D p.catching Q E c ↔
      wp D p (fun a => Q (.ok a)) (fun x c => Q (.error x) c.rollback) c
  | .ret _, _ => Iff.rfl
  | .fail _, _ => Iff.rfl
  | .stmt _ _ next, _ =>
    forall_congr' fun c' => imp_congr_right fun _ => imp_congr_right fun _ =>
      wp_catching (p := next c'.view)
  | .commit _ next, _ =>
    forall_congr' fun _ => imp_congr_right fun _ => and_congr_right fun _ => wp_catching (p := next)
  | .rollback next, _ => wp_catching (p := next)

theorem wp_mapError {χ' : Type} {f : χ → χ'} {E : χ' → Ctx σ ℓ ε → Prop} :
    ∀ {p : Prog ν σ ℓ ε χ α} {c : Ctx σ ℓ ε}, wp D (p.mapError f) Q E c ↔
      wp D p Q (fun x => E (f x)) c
  | .ret _, _ => Iff.rfl
  | .fail _, _ => Iff.rfl
  | .stmt _ _ next, _ =>
    forall_congr' fun c' => imp_congr_right fun _ => imp_congr_right fun _ =>
      wp_mapError (p := next c'.view)
  | .commit _ next, _ =>
    forall_congr' fun _ => imp_congr_right fun _ => and_congr_right fun _ => wp_mapError (p := next)
  | .rollback next, _ => wp_mapError (p := next)

/-- What the commits of the others and all statements of a program keep, it keeps. -/
theorem wp_statements {P : Ctx σ ℓ ε → Prop} {S : σ → Effect σ ℓ → Prop}
    (hw : ∀ {c c'}, P c → c.Waits D c' → P c') (hs : ∀ {c f}, P c → S c.view f → P (c.apply f)) :
    ∀ {p : Prog ν σ ℓ ε χ α} {c : Ctx σ ℓ ε}, p.Statements S → P c →
      wp D p (fun _ => P) (fun _ => P) c
  | .ret _, _, _, h => h
  | .fail _, _, _, h => h
  | .stmt _ _ next, _, hp, h => fun c' hc _ =>
    wp_statements hw hs (p := next c'.view) (hp c'.view).2 (hs (hw h hc) (hp c'.view).1)
  | .commit _ _, _, hp, _ => hp.elim
  | .rollback _, _, hp, _ => hp.elim

/-- A program without commits has committed what was committed before it. -/
theorem wp_done {S : σ → Effect σ ℓ → Prop} {done : List ε} : ∀ {p : Prog ν σ ℓ ε χ α}
    {c : Ctx σ ℓ ε}, p.Statements S → c.done = done →
      wp D p (fun a c' => c'.done = done → Q a c') E c → wp D p Q E c
  | .ret _, _, _, hd, h => h hd
  | .fail _, _, _, _, h => h
  | .stmt _ _ next, c, hp, hd, h => fun c' hw ha => by
    have hd' : c'.done = done := by
      obtain ⟨db, -, -, rfl⟩ := hw
      exact hd
    exact wp_done (p := next c'.view) (hp c'.view).2 hd' (h c' hw ha)
  | .commit _ _, _, hp, _, _ => hp.elim
  | .rollback _, _, hp, _, _ => hp.elim

end Rules

/-! ## Soundness -/

section Sound

variable [DecidableEq ι]

/-- The state of a system whose programs keep to the discipline. -/
structure Sound (D : Discipline ν σ ℓ ε) (progs : ι → Prog ν σ ℓ ε χ α)
    (Q : ι → α → List ε → Prop) (E : ι → χ → List ε → Prop) (db₀ : σ) (s : State ι ν σ ℓ ε χ α) :
    Prop where
  inv : D.inv s.db
  commits : D.Commits db₀ (s.log.map (·.2)) s.db
  idle : ∀ i, s.phase i = .idle → s.events i = []
  running : ∀ i c, s.phase i = .running c → s.events i = c.done ∧ ∃ db, D.rely c.held db s.db ∧
    wp D c.prog (fun a c => Q i a c.done) (fun x c => E i x c.done) ⟨db, c.writes, c.held, c.done⟩
  apart : ∀ i j c d, i ≠ j → s.phase i = .running c → s.phase j = .running d →
    Compatible c.held d.held
  failed : ∀ i x, s.phase i = .ended (.error x) → E i x (s.events i)
  returned : ∀ i a, s.phase i = .ended (.ok a) → Q i a (s.events i)

variable {D : Discipline ν σ ℓ ε} {progs : ι → Prog ν σ ℓ ε χ α} {Q : ι → α → List ε → Prop}
  {E : ι → χ → List ε → Prop} {db₀ : σ}

theorem Sound.initial (h₀ : D.inv db₀) :
    Sound D progs Q E db₀ (State.initial ι ν ℓ ε χ α db₀) where
  inv := h₀
  commits := .nil
  idle _ _ := rfl
  running _ _ h := by cases h
  apart _ _ _ _ _ h := by cases h
  failed _ _ h := by cases h
  returned _ _ h := by cases h

variable {s s' : State ι ν σ ℓ ε χ α}

/-- A step that commits nothing and leaves call `i` in phase `p`. -/
theorem Sound.set (h : Sound D progs Q E db₀ s) {i : ι} {p : Phase ν σ ℓ ε χ α}
    (hidle : p ≠ .idle)
    (hrun : ∀ c, p = .running c → s.events i = c.done ∧ (∃ db, D.rely c.held db s.db ∧
      wp D c.prog (fun a c => Q i a c.done) (fun x c => E i x c.done)
        ⟨db, c.writes, c.held, c.done⟩) ∧ s.Grants i c.held)
    (hfail : ∀ x, p = .ended (.error x) → E i x (s.events i))
    (hret : ∀ a, p = .ended (.ok a) → Q i a (s.events i)) :
    Sound D progs Q E db₀ (s.set i p) where
  inv := h.inv
  commits := h.commits
  idle j hj := by
    rw [State.set_phase] at hj; split at hj
    · exact absurd hj hidle
    · exact h.idle j hj
  running j c hj := by
    rw [State.set_phase] at hj; split at hj
    · next e => subst e; exact ⟨(hrun c hj).1, (hrun c hj).2.1⟩
    · exact h.running j c hj
  apart j k c d hjk hj hk := by
    rw [State.set_phase] at hj hk; split at hj <;> split at hk
    · next e e' => exact absurd (e.trans e'.symm) hjk
    · next e e' => exact (hrun c hj).2.2 k d e' hk
    · next e e' => exact ((hrun d hk).2.2 j c e hj).symm
    · exact h.apart j k c d hjk hj hk
  failed j x hj := by
    rw [State.set_phase] at hj; split at hj
    · next e => subst e; exact hfail x hj
    · exact h.failed j x hj
  returned j a hj := by
    rw [State.set_phase] at hj; split at hj
    · next e => subst e; exact hret a hj
    · exact h.returned j a hj

/-- A commit of call `i`: the others see it as a commit whose locks do not exclude theirs. -/
theorem Sound.publish (h : Sound D progs Q E db₀ s) {i : ι} {e : ε} {next : Prog ν σ ℓ ε χ α}
    {w : σ → σ} {L : Held ℓ} {done : List ε}
    (hi : s.phase i = .running ⟨.commit e next, w, L, done⟩) :
    Sound D progs Q E db₀ (s.publish i e (w s.db) ⟨next, id, [], done ++ [e]⟩) := by
  obtain ⟨hev, db, hrely, hwp⟩ := h.running i _ hi
  obtain ⟨hstep, hnext⟩ := hwp ⟨s.db, w, L, done⟩ ⟨s.db, hrely, h.inv, rfl⟩
  constructor
  case inv => exact D.step_inv h.inv hstep
  case commits => simpa [State.publish, Ctx.view] using h.commits.snoc h.inv hstep
  case idle =>
    intro j hj
    rw [State.publish_phase] at hj; split at hj
    · cases hj
    · next ne => rw [State.publish_events, if_neg ne]; exact h.idle j hj
  case running =>
    intro j c hj
    rw [State.publish_phase] at hj; split at hj
    · next e' =>
      cases hj; subst e'
      rw [State.publish_events, if_pos rfl, hev]
      exact ⟨rfl, w s.db, .refl, hnext⟩
    · next ne =>
      obtain ⟨hev', db', hrely', hwp'⟩ := h.running j c hj
      rw [State.publish_events, if_neg ne]
      exact ⟨hev', db', .tail hrely' ⟨h.inv, L, e, h.apart j i _ _ ne hj hi, hstep⟩, hwp'⟩
  case apart =>
    intro j k c d hjk hj hk
    rw [State.publish_phase] at hj hk; split at hj <;> split at hk
    · next e₁ e₂ => exact absurd (e₁.trans e₂.symm) hjk
    · cases hj; exact compatible_nil
    · cases hk; exact compatible_nil.symm
    · exact h.apart j k c d hjk hj hk
  case failed =>
    intro j x hj
    rw [State.publish_phase] at hj; split at hj
    · cases hj
    · next ne => rw [State.publish_events, if_neg ne]; exact h.failed j x hj
  case returned =>
    intro j a hj
    rw [State.publish_phase] at hj; split at hj
    · cases hj
    · next ne => rw [State.publish_events, if_neg ne]; exact h.returned j a hj

theorem Sound.step (hw : ∀ i db, D.inv db → wp D (progs i) (fun a c => Q i a c.done)
      (fun x c => E i x c.done) { db := db })
    (h : Sound D progs Q E db₀ s) (hs : Step progs D.allowed s s') : Sound D progs Q E db₀ s' := by
  cases hs with
  | @start i hi =>
    refine h.set (by simp) (fun c hc => ?_) (by simp) (by simp)
    cases hc
    exact ⟨h.idle i hi, ⟨s.db, .refl, hw i _ h.inv⟩, fun _ _ _ _ => compatible_nil⟩
  | @stmt i site eff next w L done hi ha hg =>
    obtain ⟨hev, db, hrely, hwp⟩ := h.running i _ hi
    refine h.set (by simp) (fun c hc => ?_) (by simp) (by simp)
    cases hc
    refine ⟨hev, ⟨s.db, .refl, hwp ⟨s.db, w, L, done⟩ ⟨s.db, hrely, h.inv, rfl⟩ ha⟩, ?_⟩
    exact fun j d hj hd => compatible_append.2 ⟨h.apart i j _ d (Ne.symm hj) hi hd, hg j d hj hd⟩
  | commit hi => exact h.publish hi
  | @rollback i next w L done hi =>
    obtain ⟨hev, db, hrely, hwp⟩ := h.running i _ hi
    refine h.set (by simp) (fun c hc => ?_) (by simp) (by simp)
    cases hc
    exact ⟨hev, ⟨db, Discipline.rely_mono (List.nil_subset _) hrely, hwp⟩,
      fun _ _ _ _ => compatible_nil⟩
  | @ret i a w L done hi =>
    obtain ⟨hev, db, -, hwp⟩ := h.running i _ hi
    refine h.set (by simp) (by simp) (by simp) (fun b hb => ?_)
    cases hb; rw [hev]; exact hwp
  | @fail i x w L done hi =>
    obtain ⟨hev, db, -, hwp⟩ := h.running i _ hi
    refine h.set (by simp) (by simp) (fun y hy => ?_) (by simp)
    cases hy; rw [hev]; exact hwp
  | abort hi => exact h.set (by simp) (by simp) (by simp) (by simp)

/-- **Soundness of the discipline.**  If the weakest precondition of every program holds where the
invariant does, then in every interleaving the invariant holds, the committed data are the result of
a chain of allowed commits, and each call that has ended did so with its postcondition. -/
theorem Sound.of_reachable
    (hw : ∀ i db, D.inv db → wp D (progs i) (fun a c => Q i a c.done)
      (fun x c => E i x c.done) { db := db })
    (h₀ : D.inv db₀) (h : ReachableIf progs D.allowed (.initial ι ν ℓ ε χ α db₀) s) :
    Sound D progs Q E db₀ s := by
  induction h with
  | refl => exact .initial h₀
  | tail _ hs ih => exact ih.step hw hs

/-- A step changes the data only as the discipline allows. -/
theorem Sound.db_step
    (h : Sound D progs Q E db₀ s) (hs : Step progs D.allowed s s') :
    s'.db = s.db ∨ ∃ L e, D.step L s.db e s'.db := by
  cases hs with
  | @commit i e next w L done hi =>
    obtain ⟨-, db, hrely, hwp⟩ := h.running i _ hi
    exact Or.inr ⟨L, e, (hwp ⟨s.db, w, L, done⟩ ⟨s.db, hrely, h.inv, rfl⟩).1⟩
  | _ => exact Or.inl rfl

/-- What holds of the data of a state, and survives every allowed commit, holds ever after. -/
theorem Sound.later
    (hw : ∀ i db, D.inv db → wp D (progs i) (fun a c => Q i a c.done)
      (fun x c => E i x c.done) { db := db })
    {P : σ → Prop} (hP : ∀ {db L e db'}, D.inv db → D.step L db e db' → P db → P db')
    (h : Sound D progs Q E db₀ s) (hr : ReachableIf progs D.allowed s s') (h₀ : P s.db) :
    P s'.db := by
  suffices Sound D progs Q E db₀ s' ∧ P s'.db from this.2
  induction hr with
  | refl => exact ⟨h, h₀⟩
  | tail _ hs ih =>
    refine ⟨ih.1.step hw hs, ?_⟩
    rcases ih.1.db_step hs with e | ⟨L, e, hst⟩
    · rw [e]; exact ih.2
    · exact hP ih.1.inv hst ih.2

end Sound

end Txn
