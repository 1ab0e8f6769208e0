/-
  What a call does after its first statement.

  The first statement of a program is where it looks at the store for the first time.  A run is cut
  there: what the call does later depends on what this statement saw.

  * `Prog.Sure`: what a program returns and commits; `Prog.Opens`: the same, by what its first statement
    sees;
  * `Begun`: the call has run its first statement;
  * `After`: what the call still returns and commits;
  * `Begun.after`: a call that has begun did so in some state of the run;
  * `Sound.committed`: an event of the log was committed in some state of the run.
-/
import Sakura.Txn.Rows

namespace Txn

variable {ι ν σ δ ρ κ ℓ ε χ α β : Type}

/-! ## Results and commits of a program -/

namespace Prog

/-- Whatever its statements see, the program returns with `R` and commits only `E`. -/
def Sure (R : α → Prop) (E : ε → Prop) : Prog ν σ ℓ ε χ α → Prop
  | ret a => R a
  | fail _ => True
  | stmt _ _ next => ∀ v, (next v).Sure R E
  | commit e next => E e ∧ next.Sure R E
  | rollback next => next.Sure R E

/-- What the program returns and commits when its first statement sees `v`. -/
def Opens (R : σ → α → Prop) (E : σ → ε → Prop) : Prog ν σ ℓ ε χ α → Prop
  | stmt _ _ next => ∀ v, (next v).Sure (R v) (E v)
  | fail _ => True
  | _ => False

variable {R : α → Prop} {E : ε → Prop}

theorem Sure.bind {R' : β → Prop} {f : α → Prog ν σ ℓ ε χ β} :
    ∀ {p : Prog ν σ ℓ ε χ α}, p.Sure R E → (∀ a, R a → (f a).Sure R' E) → (p >>= f).Sure R' E
  | ret a, h, hf => hf a h
  | fail _, _, _ => trivial
  | stmt _ _ next, h, hf => fun v => Sure.bind (p := next v) (h v) hf
  | commit _ next, h, hf => ⟨h.1, Sure.bind (p := next) h.2 hf⟩
  | rollback next, h, hf => Sure.bind (p := next) h hf

theorem Sure.mono {R' : α → Prop} (hR : ∀ a, R a → R' a) :
    ∀ {p : Prog ν σ ℓ ε χ α}, p.Sure R E → p.Sure R' E
  | ret a, h => hR a h
  | fail _, _ => trivial
  | stmt _ _ next, h => fun v => Sure.mono hR (p := next v) (h v)
  | commit _ next, h => ⟨h.1, Sure.mono hR (p := next) h.2⟩
  | rollback next, h => Sure.mono hR (p := next) h

theorem Sure.events {E' : ε → Prop} (hE : ∀ e, E e → E' e) :
    ∀ {p : Prog ν σ ℓ ε χ α}, p.Sure R E → p.Sure R E'
  | ret _, h => h
  | fail _, _ => trivial
  | stmt _ _ next, h => fun v => Sure.events hE (p := next v) (h v)
  | commit _ next, h => ⟨hE _ h.1, Sure.events hE (p := next) h.2⟩
  | rollback next, h => Sure.events hE (p := next) h

theorem sure_pure {a : α} (h : R a) : (pure a : Prog ν σ ℓ ε χ α).Sure R E := h

theorem sure_query {site : ν} {f : σ → α} (h : ∀ v, R (f v)) :
    (query site f : Prog ν σ ℓ ε χ α).Sure R E := h

theorem sure_exec {site : ν} {f : σ → Outcome σ ℓ χ α} :
    (exec site f : Prog ν σ ℓ ε χ α).Sure (fun _ => True) E := by
  intro v
  show (ofExcept (f v).result).Sure _ E
  cases (f v).result <;> trivial

theorem sure_check {p : Prop} [Decidable p] {x : χ} :
    (check p x : Prog ν σ ℓ ε χ Unit).Sure (fun _ => p) E := by
  unfold check
  split
  · assumption
  · trivial

theorem sure_orFail {x : χ} {o : Option α} :
    (orFail x o : Prog ν σ ℓ ε χ α).Sure (fun a => o = some a) E := by
  cases o with
  | none => trivial
  | some a => rfl

theorem sure_publish {e : ε} (h : E e) :
    (publish e : Prog ν σ ℓ ε χ Unit).Sure (fun _ => True) E := ⟨h, trivial⟩

theorem sure_readOne [Inhabited ν] {x : χ} {f : σ → Option α} :
    (readOne x f : Prog ν σ ℓ ε χ α).Sure (fun a => ∃ v, f v = some a) E :=
  Sure.bind (R := fun o => ∃ v, f v = o) (fun v => ⟨v, rfl⟩) fun _ ⟨v, hv⟩ =>
    sure_orFail.mono fun _ e => ⟨v, hv.trans e⟩

section Rows

variable [Layers σ δ] [Inhabited ν] [DecidableEq κ] {T : Rows σ δ ρ κ ℓ} {p : ρ → Bool}
  {set : ρ → ρ}

theorem sure_updateRow {site : κ → ν} {search : ν} :
    (T.updateRow p set site search : Prog ν σ ℓ ε χ (Option ρ)).Sure (fun _ => True) E := by
  refine Sure.bind (R := fun _ => True) (fun _ => trivial) fun o _ => ?_
  cases o with
  | none => trivial
  | some r => exact sure_exec

omit [Layers σ δ] in
theorem sure_lockRow {mode : Mode} :
    (T.lockRow mode p : Prog ν σ ℓ ε χ (Option ρ)).Sure (fun _ => True) E := by
  refine Sure.bind (R := fun _ => True) (fun _ => trivial) fun o _ => ?_
  cases o with
  | none => trivial
  | some r => exact sure_exec

theorem sure_updateEach : ∀ ks : List κ,
    (T.updateEach p set ks : Prog ν σ ℓ ε χ Nat).Sure (fun _ => True) E
  | [] => trivial
  | _ :: ks => Sure.bind sure_exec fun _ _ => (sure_updateEach ks).bind fun _ _ => sure_pure trivial

theorem sure_updateRows :
    (T.updateRows p set : Prog ν σ ℓ ε χ Nat).Sure (fun _ => True) E :=
  Sure.bind (R := fun _ => True) (fun _ => trivial) fun ks _ => sure_updateEach ks

end Rows

end Prog

/-! ## The first statement of a call -/

section Begun

variable {progs : ι → Prog ν σ ℓ ε χ α} {allowed : ν → σ → Prop}

/-- The call has run its first statement. -/
def Begun (progs : ι → Prog ν σ ℓ ε χ α) (s : State ι ν σ ℓ ε χ α) (i : ι) : Prop :=
  s.phase i ≠ .idle ∧ s.phase i ≠ .running { prog := progs i }

/-- Since its log was `log`, the call `i` has committed only `E`, and it goes on so and returns with
`R`. -/
structure After (R : α → Prop) (E : ε → Prop) (log : List (ι × ε)) (s : State ι ν σ ℓ ε χ α) (i : ι) :
    Prop where
  running : ∀ c, s.phase i = .running c → c.prog.Sure R E
  returned : ∀ a, s.phase i = .ended (.ok a) → R a
  logged : ∀ e, (i, e) ∈ s.log → (i, e) ∈ log ∨ E e
  started : s.phase i ≠ .idle

variable [DecidableEq ι] {R : α → Prop} {E : ε → Prop} {log : List (ι × ε)}
  {s s' : State ι ν σ ℓ ε χ α} {i : ι}

/-- Another phase of call `j`, with what it takes for call `i`. -/
theorem After.set (h : After R E log s i) {j : ι} {p : Phase ν σ ℓ ε χ α} (hidle : p ≠ .idle)
    (hrun : ∀ c, j = i → p = .running c → c.prog.Sure R E)
    (hret : ∀ a, j = i → p = .ended (.ok a) → R a) : After R E log (s.set j p) i where
  running c hc := by
    rw [State.set_phase] at hc; split at hc
    · next e => exact hrun c e.symm hc
    · exact h.running c hc
  returned a ha := by
    rw [State.set_phase] at ha; split at ha
    · next e => exact hret a e.symm ha
    · exact h.returned a ha
  logged := h.logged
  started := by
    rw [State.set_phase]; split
    · exact hidle
    · exact h.started

theorem After.step (h : After R E log s i) (hs : Step progs allowed s s') :
    After R E log s' i := by
  cases hs with
  | @start j hj =>
    refine h.set (by simp) (fun c e _ => ?_) (by simp)
    subst e
    exact absurd hj h.started
  | @stmt j site eff next w L done hj _ _ =>
    refine h.set (by simp) (fun c e hc => ?_) (by simp)
    subst e; cases hc
    exact h.running _ hj _
  | @commit j e next w L done hj =>
    have hsure : j = i → E e ∧ next.Sure R E := fun hji => by subst hji; exact h.running _ hj
    constructor
    case running =>
      intro c hc
      rw [State.publish_phase] at hc; split at hc
      · next hij => cases hc; exact (hsure hij.symm).2
      · exact h.running c hc
    case returned =>
      intro a ha
      rw [State.publish_phase] at ha; split at ha
      · cases ha
      · exact h.returned a ha
    case logged =>
      intro e' he
      simp only [State.publish, List.mem_append, List.mem_singleton, Prod.mk.injEq] at he
      rcases he with he | ⟨hij, rfl⟩
      · exact h.logged e' he
      · exact Or.inr (hsure hij.symm).1
    case started =>
      rw [State.publish_phase]; split
      · simp
      · exact h.started
  | @rollback j next w L done hj =>
    refine h.set (by simp) (fun c e hc => ?_) (by simp)
    subst e; cases hc
    have := h.running _ hj
    exact this
  | @ret j a w L done hj =>
    refine h.set (by simp) (by simp) (fun b e hb => ?_)
    subst e; cases hb
    exact h.running _ hj
  | fail hj => exact h.set (by simp) (by simp) (by simp)
  | abort hj => exact h.set (by simp) (by simp) (by simp)

theorem After.run (h : After R E log s i) (hr : ReachableIf progs allowed s s') :
    After R E log s' i := by
  induction hr with
  | refl => exact h
  | tail _ hs ih => exact ih.step hs

/-- A call enters the phase `p`. -/
theorem After.enter {p : Phase ν σ ℓ ε χ α} (hidle : p ≠ .idle)
    (hrun : ∀ c, p = .running c → c.prog.Sure R E) (hret : ∀ a, p ≠ .ended (.ok a))
    (hlog : ∀ e, (i, e) ∈ s.log → (i, e) ∈ log) : After R E log (s.set i p) i where
  running c hc := hrun c (by rwa [State.set_phase, if_pos rfl] at hc)
  returned a ha := absurd (by rwa [State.set_phase, if_pos rfl] at ha) (hret a)
  logged e he := Or.inl (hlog e he)
  started := by rwa [State.set_phase, if_pos rfl]

omit [DecidableEq ι] in
theorem not_begun : ¬Begun progs s i ↔ s.phase i = .idle ∨ s.phase i = .running { prog := progs i } := by
  unfold Begun
  tauto

/-- Another call makes a step. -/
theorem not_begun_set (h : ¬Begun progs s i) {j : ι} (hij : i ≠ j) {p : Phase ν σ ℓ ε χ α} :
    ¬Begun progs (s.set j p) i := by
  rw [not_begun] at h ⊢
  rwa [State.set_phase, if_neg hij]

variable {R : σ → α → Prop} {E : σ → ε → Prop}

/-- **A call begins in some state of the run**, and what it does after is by what it saw there. -/
theorem Begun.after (hp : (progs i).Opens R E) (hb : ¬Begun progs s i)
    (hr : ReachableIf progs allowed s s') :
    (¬Begun progs s' i ∧ ∀ e, (i, e) ∈ s'.log → (i, e) ∈ s.log) ∨
      ∃ t, ReachableIf progs allowed s t ∧ ReachableIf progs allowed t s' ∧
        After (R t.db) (E t.db) s.log s' i := by
  induction hr with
  | refl => exact Or.inl ⟨hb, fun _ he => he⟩
  | @tail u u' hu hs ih =>
    rcases ih with ⟨hn, hlog⟩ | ⟨t, ht, ht', ha⟩
    · have henter : ∀ {p}, p ≠ .idle → (∀ c, p = .running c → c.prog.Sure (R u.db) (E u.db)) →
          (∀ a, p ≠ .ended (.ok a)) → u' = u.set i p →
          ∃ t, ReachableIf progs allowed s t ∧ ReachableIf progs allowed t u' ∧
            After (R t.db) (E t.db) s.log u' i := fun hidle hrun hret e =>
        ⟨u, hu, .tail .refl hs, e ▸ After.enter hidle hrun hret hlog⟩
      have hprog : ∀ {c}, u.phase i = .running c → c = { prog := progs i } := fun hc => by
        rcases not_begun.1 hn with h | h <;> rw [hc] at h <;> cases h
        rfl
      cases hs with
      | @start j hj =>
        by_cases hij : i = j
        · subst hij
          exact Or.inl ⟨not_begun.2 (Or.inr (by rw [State.set_phase, if_pos rfl])), hlog⟩
        · exact Or.inl ⟨not_begun_set hn hij, hlog⟩
      | @stmt j site eff next w L done hj _ _ =>
        by_cases hij : i = j
        · subst hij
          obtain ⟨hprog, rfl, -, -⟩ := Session.mk.inj (hprog hj)
          rw [← hprog] at hp
          exact Or.inr (henter (by simp) (fun c hc => by cases hc; exact hp _) (by simp) rfl)
        · exact Or.inl ⟨not_begun_set hn hij, hlog⟩
      | @commit j e next w L done hj =>
        by_cases hij : i = j
        · subst hij
          rw [← (Session.mk.inj (hprog hj)).1] at hp
          exact hp.elim
        · refine Or.inl ⟨?_, fun e' he => hlog e' ?_⟩
          · rw [not_begun] at hn ⊢
            rwa [State.publish_phase, if_neg hij]
          · simpa [State.publish, hij] using he
      | @rollback j next w L done hj =>
        by_cases hij : i = j
        · subst hij
          rw [← (Session.mk.inj (hprog hj)).1] at hp
          exact hp.elim
        · exact Or.inl ⟨not_begun_set hn hij, hlog⟩
      | @ret j a w L done hj =>
        by_cases hij : i = j
        · subst hij
          rw [← (Session.mk.inj (hprog hj)).1] at hp
          exact hp.elim
        · exact Or.inl ⟨not_begun_set hn hij, hlog⟩
      | @fail j x w L done hj =>
        by_cases hij : i = j
        · subst hij
          exact Or.inr (henter (by simp) (by simp) (by simp) rfl)
        · exact Or.inl ⟨not_begun_set hn hij, hlog⟩
      | @abort j c hj =>
        by_cases hij : i = j
        · subst hij
          exact Or.inr (henter (by simp) (by simp) (by simp) rfl)
        · exact Or.inl ⟨not_begun_set hn hij, hlog⟩
    · exact Or.inr ⟨t, ht, .tail ht' hs, ha.step hs⟩

end Begun

/-! ## Replays in three parts -/

/-- The answer of a call. -/
def Phase.answer : Phase ν σ ℓ ε χ α → Option (Except χ α)
  | .ended r => some r
  | _ => none

def Phase.isIdle : Phase ν σ ℓ ε χ α → Bool
  | .idle => true
  | _ => false

/-- The events that a running call has committed. -/
def Phase.done : Phase ν σ ℓ ε χ α → List ε
  | .running c => c.done
  | _ => []

theorem Phase.eq_of_answer {p : Phase ν σ ℓ ε χ α} {r : Except χ α} (h : p.answer = some r) :
    p = .ended r := by
  cases p <;> simp_all [Phase.answer]

theorem not_begun_of_isIdle {progs : ι → Prog ν σ ℓ ε χ α} {s : State ι ν σ ℓ ε χ α} {i : ι}
    (h : (s.phase i).isIdle = true) : ¬Begun progs s i := by
  refine not_begun.2 (Or.inl ?_)
  cases hp : s.phase i with
  | idle => rfl
  | _ => rw [hp] at h; cases h

theorem begun_of_done {progs : ι → Prog ν σ ℓ ε χ α} {s : State ι ν σ ℓ ε χ α} {i : ι}
    (h : (s.phase i).done ≠ []) : Begun progs s i := by
  refine ⟨fun hp => ?_, fun hp => ?_⟩ <;> rw [hp] at h <;> exact h rfl

/-- A schedule, a step of one call and another schedule, with what is computed of the states. -/
theorem replay_step_any [DecidableEq ι] [DecidableEq ℓ] (ids : List ι) (hids : ∀ i, i ∈ ids)
    (progs : ι → Prog ν σ ℓ ε χ α) (allowed : ν → σ → Prop) [∀ site v, Decidable (allowed site v)]
    (is : List ι) (i : ι) (is' : List ι) (s : State ι ν σ ℓ ε χ α)
    (p : State ι ν σ ℓ ε χ α → State ι ν σ ℓ ε χ α → State ι ν σ ℓ ε χ α → Bool)
    (h : (replay ids progs allowed is s).any (fun s₁ => (advance ids progs allowed s₁ i).any fun s₂ =>
      (replay ids progs allowed is' s₂).any (p s₁ s₂)) = true) :
    ∃ s₁ s₂ s₃, ReachableIf progs allowed s s₁ ∧ Step progs allowed s₁ s₂ ∧
      ReachableIf progs allowed s₂ s₃ ∧ p s₁ s₂ s₃ = true := by
  obtain ⟨s₁, h₁, h⟩ := replay_any ids hids progs allowed is s _ h
  obtain ⟨s₂, h₂, h⟩ := (Option.any_eq_true _ _).1 h
  obtain ⟨s₃, h₃, h⟩ := replay_any ids hids progs allowed is' s₂ _ h
  exact ⟨s₁, s₂, s₃, h₁, advance_step hids h₂, h₃, h⟩

/-! ## Events of the log -/

section Committed

variable [DecidableEq ι] {D : Discipline ν σ ℓ ε} {progs : ι → Prog ν σ ℓ ε χ α}
  {Q : ι → α → List ε → Prop} {E : ι → χ → List ε → Prop} {db₀ : σ} {s s' : State ι ν σ ℓ ε χ α}

/-- The step that commits an event. -/
theorem Sound.step_commit (h : Sound D progs Q E db₀ s) (hs : Step progs D.allowed s s') {x : ι × ε}
    (hl : s'.log = s.log ++ [x]) : ∃ L, D.step L s.db x.2 s'.db := by
  cases hs with
  | @commit i e next w L done hi =>
    obtain ⟨-, db, hrely, hwp⟩ := h.running i _ hi
    have hx : x = (i, e) := by simpa [State.publish] using hl.symm
    subst hx
    exact ⟨L, (hwp ⟨s.db, w, L, done⟩ ⟨s.db, hrely, h.inv, rfl⟩).1⟩
  | _ => simp [State.set] at hl

/-- An event that was not committed yet is committed where `P` holds, if `P` holds from now on. -/
theorem Sound.committed
    (hw : ∀ i db, D.inv db → wp D (progs i) (fun a c => Q i a c.done)
      (fun x c => E i x c.done) { db := db })
    {P : σ → Prop} (hP : ∀ {db L e db'}, D.inv db → D.step L db e db' → P db → P db')
    (h : Sound D progs Q E db₀ s) (hr : ReachableIf progs D.allowed s s') (h₀ : P s.db) {x : ι × ε}
    (hx : x ∈ s'.log) : x ∈ s.log ∨ ∃ db L db', D.inv db ∧ P db ∧ D.step L db x.2 db' := by
  suffices Sound D progs Q E db₀ s' ∧ P s'.db ∧
      (x ∈ s'.log → x ∈ s.log ∨ ∃ db L db', D.inv db ∧ P db ∧ D.step L db x.2 db') from this.2.2 hx
  clear hx
  induction hr with
  | refl => exact ⟨h, h₀, Or.inl⟩
  | @tail u u' _ hs ih =>
    obtain ⟨hsound, hPu, hlog⟩ := ih
    refine ⟨hsound.step hw hs, ?_, ?_⟩
    · rcases hsound.db_step hs with e | ⟨L, e, hst⟩
      · rw [e]; exact hPu
      · exact hP hsound.inv hst hPu
    · cases hs' : hs with
      | @commit i e next w L done hi =>
        obtain ⟨M, hst⟩ := hsound.step_commit hs (x := (i, e)) rfl
        intro hx
        simp only [State.publish, List.mem_append, List.mem_singleton] at hx
        rcases hx with hx | rfl
        · exact hlog hx
        · exact Or.inr ⟨u.db, M, _, hsound.inv, hPu, hst⟩
      | _ => exact hlog

end Committed

end Txn
