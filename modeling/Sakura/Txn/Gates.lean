/-
  Commits behind gates.

  Some runs of a system are of interest in which a call commits only under a condition: on the committed
  data, and on the locks of the other open transactions.  What a call guarantees at its commits may
  then rely on the condition, and on the condition at the commits of the others.

  * `Gate`, `GatedRun`: the conditions, and the runs under them;
  * `replayGated`: gated runs that compute;
  * `wpAt`: the weakest precondition of a program behind a gate, with its rules;
  * `SoundAt.of_run`, `SoundAt.commit`: in such a run every commit keeps to the discipline.
-/
import Sakura.Txn.Rely

namespace Txn

variable {ι ν σ ℓ ε ε' χ χ' α β : Type}

/-! ## Gated runs -/

/-- A commit of `e` takes place where the committed data are `ok e`, and while no lock of another open
transaction excludes one of `locks e`. -/
structure Gate (σ ℓ ε : Type) where
  locks : ε → Held ℓ
  ok : ε → σ → Prop

section

variable [DecidableEq ι]

/-- A step; a commit passes the gate of its call. -/
def GatedStep (progs : ι → Prog ν σ ℓ ε χ α) (gates : ι → Gate σ ℓ ε)
    (s s' : State ι ν σ ℓ ε χ α) : Prop :=
  Step progs (fun _ _ => True) s s' ∧ ∀ i e, s'.log = s.log ++ [(i, e)] →
    (gates i).ok e s.db ∧ s.Grants i ((gates i).locks e)

/-- The runs whose commits pass the gates. -/
abbrev GatedRun (progs : ι → Prog ν σ ℓ ε χ α) (gates : ι → Gate σ ℓ ε) :
    State ι ν σ ℓ ε χ α → State ι ν σ ℓ ε χ α → Prop :=
  Relation.ReflTransGen (GatedStep progs gates)

theorem GatedRun.reachable {progs : ι → Prog ν σ ℓ ε χ α} {gates : ι → Gate σ ℓ ε}
    {s s' : State ι ν σ ℓ ε χ α} (h : GatedRun progs gates s s') : Reachable progs s s' :=
  Relation.ReflTransGen.mono (fun _ _ hs => hs.1) _ _ h

end

/-! ## Gated schedules -/

section Replay

variable [DecidableEq ι] [DecidableEq ℓ] (ids : List ι) (progs : ι → Prog ν σ ℓ ε χ α)
  (gates : ι → Gate σ ℓ ε) [∀ i e db, Decidable ((gates i).ok e db)]

/-- Whether the next step of call `i` passes its gate, if it is a commit. -/
def gateOpen (s : State ι ν σ ℓ ε χ α) (i : ι) : Bool :=
  match s.phase i with
  | .running ⟨.commit e _, _, _, _⟩ => decide ((gates i).ok e s.db) &&
      ids.all fun j => j = i || match s.phase j with
        | .running c => decide (Compatible ((gates i).locks e) c.held)
        | _ => true
  | _ => true

/-- The schedule, as long as its commits pass the gates. -/
def replayGated : List ι → State ι ν σ ℓ ε χ α → Option (State ι ν σ ℓ ε χ α)
  | [], s => some s
  | i :: is, s =>
    if gateOpen ids gates s i then
      (advance ids progs (fun _ _ => True) s i).bind (replayGated is)
    else none

variable {ids progs gates}

theorem gatedStep_of_advance (hids : ∀ i, i ∈ ids) {s s' : State ι ν σ ℓ ε χ α} {i : ι}
    (hgate : gateOpen ids gates s i = true)
    (h : advance ids progs (fun _ _ => True) s i = some s') : GatedStep progs gates s s' := by
  refine ⟨advance_step hids h, fun j e hlog => ?_⟩
  unfold advance at h
  unfold gateOpen at hgate
  split at h
  · cases h; simp [State.set] at hlog
  · split at h
    · cases h; simp [State.set] at hlog
    · cases h
  · next e' next w L done hp =>
    cases h
    obtain ⟨rfl, rfl⟩ : i = j ∧ e' = e := by simpa [State.publish] using hlog
    rw [hp] at hgate
    obtain ⟨hok, hall⟩ := Bool.and_eq_true_iff.1 hgate
    refine ⟨of_decide_eq_true hok, fun k c hk hc => ?_⟩
    have := List.all_eq_true.1 hall k (hids k)
    simpa [hk, hc] using this
  · cases h; simp [State.set] at hlog
  · cases h; simp [State.set] at hlog
  · cases h; simp [State.set] at hlog
  · cases h
  · cases h

theorem replayGated_run (hids : ∀ i, i ∈ ids) : ∀ (is : List ι) {s s' : State ι ν σ ℓ ε χ α},
    replayGated ids progs gates is s = some s' → GatedRun progs gates s s'
  | [], _, _, h => by cases h; exact .refl
  | i :: is, s, s', h => by
    unfold replayGated at h
    split at h
    · next hgate =>
      obtain ⟨s₁, h₁, h₂⟩ := Option.bind_eq_some_iff.1 h
      exact .head (gatedStep_of_advance hids hgate h₁) (replayGated_run hids is h₂)
    · cases h

end Replay

/-- What is computed of the state that a schedule behind gates leads to is true of a state that a
gated run reaches. -/
theorem replayGated_any [DecidableEq ι] [DecidableEq ℓ] (ids : List ι) (hids : ∀ i, i ∈ ids)
    (progs : ι → Prog ν σ ℓ ε χ α) (gates : ι → Gate σ ℓ ε)
    [∀ i e db, Decidable ((gates i).ok e db)] (is : List ι) (s : State ι ν σ ℓ ε χ α)
    (p : State ι ν σ ℓ ε χ α → Bool) (h : (replayGated ids progs gates is s).any p = true) :
    ∃ s', GatedRun progs gates s s' ∧ p s' = true := by
  cases hs : replayGated ids progs gates is s with
  | none => rw [hs] at h; cases h
  | some s' => rw [hs] at h; exact ⟨s', replayGated_run hids is hs, h⟩

/-! ## Weakest preconditions -/

/-- `wp` of a program behind a gate, whose commits of `e` count as `f e` in the discipline. -/
def wpAt (D : Discipline ν σ ℓ ε') (g : Gate σ ℓ ε) (f : ε → ε') : Prog ν σ ℓ ε χ α →
    (α → Ctx σ ℓ ε' → Prop) → (χ → Ctx σ ℓ ε' → Prop) → Ctx σ ℓ ε' → Prop
  | .ret a, Q, _, c => Q a c
  | .fail x, _, E, c => E x c
  | .stmt site eff next, Q, E, c => ∀ c', c.Waits D c' → D.allowed site c'.view →
      wpAt D g f (next c'.view) Q E (c'.apply (eff c'.view))
  | .commit e next, Q, E, c => ∀ c', c.Waits D c' → g.ok e c'.db →
      D.step (c'.held ++ g.locks e) c'.db (f e) c'.view ∧ wpAt D g f next Q E (c'.commit (f e))
  | .rollback next, Q, E, c => wpAt D g f next Q E c.rollback

section Rules

variable {D : Discipline ν σ ℓ ε'} {g : Gate σ ℓ ε} {f : ε → ε'} {Q : α → Ctx σ ℓ ε' → Prop}
  {E : χ → Ctx σ ℓ ε' → Prop} {c : Ctx σ ℓ ε'}

theorem wpAt_mono {Q' : α → Ctx σ ℓ ε' → Prop} {E' : χ → Ctx σ ℓ ε' → Prop}
    (hQ : ∀ a c, Q a c → Q' a c) (hE : ∀ x c, E x c → E' x c) :
    ∀ {p : Prog ν σ ℓ ε χ α} {c : Ctx σ ℓ ε'}, wpAt D g f p Q E c → wpAt D g f p Q' E' c
  | .ret _, _, h => hQ _ _ h
  | .fail _, _, h => hE _ _ h
  | .stmt _ _ _, _, h => fun c' hw ha => wpAt_mono hQ hE (h c' hw ha)
  | .commit _ _, _, h => fun c' hw ho => ⟨(h c' hw ho).1, wpAt_mono hQ hE (h c' hw ho).2⟩
  | .rollback next, _, h => wpAt_mono (p := next) hQ hE h

theorem wpAt_bind {k : α → Prog ν σ ℓ ε χ β} {Q : β → Ctx σ ℓ ε' → Prop} :
    ∀ {p : Prog ν σ ℓ ε χ α} {c : Ctx σ ℓ ε'},
      wpAt D g f (p >>= k) Q E c ↔ wpAt D g f p (fun a => wpAt D g f (k a) Q E) E c
  | .ret _, _ => Iff.rfl
  | .fail _, _ => Iff.rfl
  | .stmt _ _ next, _ =>
    forall_congr' fun c' => imp_congr_right fun _ => imp_congr_right fun _ =>
      wpAt_bind (p := next c'.view)
  | .commit _ next, _ =>
    forall_congr' fun _ => imp_congr_right fun _ => imp_congr_right fun _ =>
      and_congr_right fun _ => wpAt_bind (p := next)
  | .rollback next, _ => wpAt_bind (p := next)

theorem wpAt_map {k : α → β} {Q : β → Ctx σ ℓ ε' → Prop} {p : Prog ν σ ℓ ε χ α} :
    wpAt D g f (k <$> p) Q E c ↔ wpAt D g f p (fun a => Q (k a)) E c :=
  wpAt_bind (k := fun a => .ret (k a))

theorem wpAt_query {site : ν} {k : σ → α} :
    wpAt D g f (.query site k : Prog ν σ ℓ ε χ α) Q E c ↔
      ∀ c', c.Waits D c' → D.allowed site c'.view → Q (k c'.view) c' := by
  simp only [Prog.query, wpAt, Ctx.apply, List.append_nil, Function.id_comp]

theorem wpAt_exec {site : ν} {k : σ → Prog.Outcome σ ℓ χ α} :
    wpAt D g f (.exec site k : Prog ν σ ℓ ε χ α) Q E c ↔
      ∀ c', c.Waits D c' → D.allowed site c'.view →
        match (k c'.view).result with
        | .ok a => Q a (c'.apply (k c'.view).toEffect)
        | .error x => E x (c'.apply (k c'.view).toEffect) := by
  refine forall_congr' fun c' => imp_congr_right fun _ => imp_congr_right fun _ => ?_
  show wpAt D g f (Prog.ofExcept (k c'.view).result) Q E _ ↔ _
  cases (k c'.view).result <;> rfl

theorem wpAt_check {p : Prop} [Decidable p] {x : χ} {Q : Unit → Ctx σ ℓ ε' → Prop} :
    wpAt D g f (.check p x : Prog ν σ ℓ ε χ Unit) Q E c ↔ (p → Q () c) ∧ (¬p → E x c) := by
  unfold Prog.check
  split <;> simp_all [wpAt]

theorem wpAt_orFail {x : χ} {o : Option α} :
    wpAt D g f (.orFail x o : Prog ν σ ℓ ε χ α) Q E c ↔
      (∀ a, o = some a → Q a c) ∧ (o = none → E x c) := by
  cases o <;> simp [Prog.orFail, wpAt]

theorem wpAt_publish {e : ε} {Q : Unit → Ctx σ ℓ ε' → Prop} :
    wpAt D g f (.publish e : Prog ν σ ℓ ε χ Unit) Q E c ↔ ∀ c', c.Waits D c' → g.ok e c'.db →
      D.step (c'.held ++ g.locks e) c'.db (f e) c'.view ∧ Q () (c'.commit (f e)) := Iff.rfl

theorem wpAt_attempt {Q : Except χ α → Ctx σ ℓ ε' → Prop} :
    ∀ {p : Prog ν σ ℓ ε χ α} {c : Ctx σ ℓ ε'}, wpAt D g f p.attempt Q E c ↔
      wpAt D g f p (fun a => Q (.ok a)) (fun x c => Q (.error x) c.rollback) c
  | .ret _, _ => Iff.rfl
  | .fail _, _ => Iff.rfl
  | .stmt _ _ next, _ =>
    forall_congr' fun c' => imp_congr_right fun _ => imp_congr_right fun _ =>
      wpAt_attempt (p := next c'.view)
  | .commit _ next, _ =>
    forall_congr' fun _ => imp_congr_right fun _ => imp_congr_right fun _ =>
      and_congr_right fun _ => wpAt_attempt (p := next)
  | .rollback next, _ => wpAt_attempt (p := next)

/-- What the commits of the others and all statements of a program keep, it keeps. -/
theorem wpAt_statements {P : Ctx σ ℓ ε' → Prop} {S : σ → Effect σ ℓ → Prop}
    (hw : ∀ {c c'}, P c → c.Waits D c' → P c') (hs : ∀ {c e}, P c → S c.view e → P (c.apply e)) :
    ∀ {p : Prog ν σ ℓ ε χ α} {c : Ctx σ ℓ ε'}, p.Statements S → P c →
      wpAt D g f p (fun _ => P) (fun _ => P) c
  | .ret _, _, _, h => h
  | .fail _, _, _, h => h
  | .stmt _ _ next, _, hp, h => fun c' hc _ =>
    wpAt_statements hw hs (p := next c'.view) (hp c'.view).2 (hs (hw h hc) (hp c'.view).1)
  | .commit _ _, _, hp, _ => hp.elim
  | .rollback _, _, hp, _ => hp.elim

end Rules

/-! ## Soundness -/

section Sound

variable [DecidableEq ι] {D : Discipline ν σ ℓ ε'} {gates : ι → Gate σ ℓ ε} {f : ι → ε → ε'}
  {progs : ι → Prog ν σ ℓ ε χ α} {s s' : State ι ν σ ℓ ε χ α}

/-- The state of a system whose programs keep to the discipline behind their gates. -/
structure SoundAt (D : Discipline ν σ ℓ ε') (gates : ι → Gate σ ℓ ε) (f : ι → ε → ε')
    (s : State ι ν σ ℓ ε χ α) : Prop where
  inv : D.inv s.db
  running : ∀ i c, s.phase i = .running c → ∃ db done, D.rely c.held db s.db ∧
    wpAt D (gates i) (f i) c.prog (fun _ _ => True) (fun _ _ => True) ⟨db, c.writes, c.held, done⟩
  apart : ∀ i j c d, i ≠ j → s.phase i = .running c → s.phase j = .running d →
    Compatible c.held d.held

theorem SoundAt.initial {db : σ} (h₀ : D.inv db) :
    SoundAt D gates f (State.initial ι ν ℓ ε χ α db) where
  inv := h₀
  running _ _ h := by cases h
  apart _ _ _ _ _ h := by cases h

/-- A step that commits nothing and leaves call `i` in phase `p`. -/
theorem SoundAt.set (h : SoundAt D gates f s) {i : ι} {p : Phase ν σ ℓ ε χ α}
    (hrun : ∀ c, p = .running c → (∃ db done, D.rely c.held db s.db ∧
      wpAt D (gates i) (f i) c.prog (fun _ _ => True) (fun _ _ => True)
        ⟨db, c.writes, c.held, done⟩) ∧ s.Grants i c.held) : SoundAt D gates f (s.set i p) where
  inv := h.inv
  running j c hj := by
    rw [State.set_phase] at hj; split at hj
    · next e => subst e; exact (hrun c hj).1
    · exact h.running j c hj
  apart j k c d hjk hj hk := by
    rw [State.set_phase] at hj hk; split at hj <;> split at hk
    · next e e' => exact absurd (e.trans e'.symm) hjk
    · next e e' => exact (hrun c hj).2 k d e' hk
    · next e e' => exact ((hrun d hk).2 j c e hj).symm
    · exact h.apart j k c d hjk hj hk

/-- What a commit through the gate is in the discipline, and what its program does after it. -/
theorem SoundAt.passes (h : SoundAt D gates f s) {i : ι} {e : ε} {next : Prog ν σ ℓ ε χ α}
    {w : σ → σ} {L : Held ℓ} {done : List ε}
    (hi : s.phase i = .running ⟨.commit e next, w, L, done⟩) (hok : (gates i).ok e s.db) :
    D.step (L ++ (gates i).locks e) s.db (f i e) (w s.db) ∧ ∃ done',
      wpAt D (gates i) (f i) next (fun _ _ => True) (fun _ _ => True) ⟨w s.db, id, [], done'⟩ := by
  obtain ⟨db, done', hrely, hwp⟩ := h.running i _ hi
  obtain ⟨hstep, hnext⟩ := hwp ⟨s.db, w, L, done'⟩ ⟨s.db, hrely, h.inv, rfl⟩ hok
  exact ⟨hstep, _, hnext⟩

theorem SoundAt.step
    (hw : ∀ i db, D.inv db → wpAt D (gates i) (f i) (progs i) (fun _ _ => True) (fun _ _ => True)
      { db := db }) (hD : ∀ site v, D.allowed site v) (h : SoundAt D gates f s)
    (hs : GatedStep progs gates s s') : SoundAt D gates f s' := by
  obtain ⟨hs, hgate⟩ := hs
  cases hs with
  | @start i hi =>
    refine h.set fun c hc => ?_
    cases hc
    exact ⟨⟨s.db, [], .refl, hw i _ h.inv⟩, fun _ _ _ _ => compatible_nil⟩
  | @stmt i site eff next w L done hi _ hg =>
    obtain ⟨db, done', hrely, hwp⟩ := h.running i _ hi
    refine h.set fun c hc => ?_
    cases hc
    refine ⟨⟨s.db, done', .refl,
      hwp ⟨s.db, w, L, done'⟩ ⟨s.db, hrely, h.inv, rfl⟩ (hD _ _)⟩, ?_⟩
    exact fun j d hj hd => compatible_append.2 ⟨h.apart i j _ d (Ne.symm hj) hi hd, hg j d hj hd⟩
  | @commit i e next w L done hi =>
    obtain ⟨hok, hgrants⟩ := hgate i e rfl
    obtain ⟨hstep, done', hnext⟩ := h.passes hi hok
    refine ⟨D.step_inv h.inv hstep, fun j c hj => ?_, fun j k c d hjk hj hk => ?_⟩
    · rw [State.publish_phase] at hj; split at hj
      · next e' =>
        cases hj; subst e'
        exact ⟨w s.db, done', .refl, hnext⟩
      · next ne =>
        obtain ⟨db', done'', hrely', hwp'⟩ := h.running j c hj
        refine ⟨db', done'', .tail hrely' ⟨h.inv, _, f i e, ?_, hstep⟩, hwp'⟩
        exact (compatible_append.2
          ⟨(h.apart j i _ _ ne hj hi).symm, hgrants j c ne hj⟩).symm
    · rw [State.publish_phase] at hj hk; split at hj <;> split at hk
      · next e₁ e₂ => exact absurd (e₁.trans e₂.symm) hjk
      · cases hj; exact compatible_nil
      · cases hk; exact compatible_nil.symm
      · exact h.apart j k c d hjk hj hk
  | @rollback i next w L done hi =>
    obtain ⟨db, done', hrely, hwp⟩ := h.running i _ hi
    refine h.set fun c hc => ?_
    cases hc
    exact ⟨⟨db, done', Discipline.rely_mono (List.nil_subset _) hrely, hwp⟩,
      fun _ _ _ _ => compatible_nil⟩
  | ret hi => exact h.set fun c hc => by cases hc
  | fail hi => exact h.set fun c hc => by cases hc
  | abort hi => exact h.set fun c hc => by cases hc

/-- **Soundness behind gates.** -/
theorem SoundAt.of_run {db : σ}
    (hw : ∀ i db, D.inv db → wpAt D (gates i) (f i) (progs i) (fun _ _ => True) (fun _ _ => True)
      { db := db }) (hD : ∀ site v, D.allowed site v) (h₀ : D.inv db)
    (h : GatedRun progs gates (.initial ι ν ℓ ε χ α db) s) : SoundAt D gates f s := by
  induction h with
  | refl => exact .initial h₀
  | tail _ hs ih => exact ih.step hw hD hs

/-- A step leaves the data and the log, or commits an event as the discipline allows. -/
theorem SoundAt.commit (h : SoundAt D gates f s) (hs : GatedStep progs gates s s') :
    s'.db = s.db ∧ s'.log = s.log ∨
      ∃ i e, s'.log = s.log ++ [(i, e)] ∧ ∃ L, D.step L s.db (f i e) s'.db := by
  obtain ⟨hs, hgate⟩ := hs
  cases hs with
  | @commit i e next w L done hi =>
    exact Or.inr ⟨i, e, rfl, _, (h.passes hi (hgate i e rfl).1).1⟩
  | _ => exact Or.inl ⟨rfl, rfl⟩

end Sound

end Txn
