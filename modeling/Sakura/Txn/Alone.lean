/-
  A call on its own.

  * `Prog.eval`, `Prog.alone`: what a program does when no other call runs;
  * `alone_reachable`: it is a run of the system;
  * `Prog.Effects`, `Prog.Maintains`: what all statements of a program do, and what they maintain;
  * `alone_maintains`, `alone_rel`: the same of the call; `wp_effects`: the same under a discipline;
  * `Prog.Fails`, `alone_fails`: the errors that a program and a call may fail with;
  * `mapError_bind`, `mapError_mapError`: programs whose errors are handed on;
  * `Does`, `Breaks`: a part of a program that returns, and one that fails before its commit, with a
    rule for each form of statement.
-/
import Sakura.Txn.Rows

namespace Txn

variable {ι ν σ δ ρ κ ℓ ε χ α β : Type}

/-! ## Evaluation -/

namespace Prog

/-- The committed data, the writes of the open transaction and the result. -/
def eval : Prog ν σ ℓ ε χ α → σ → (σ → σ) → σ × (σ → σ) × Except χ α
  | ret a, db, w => (db, w, .ok a)
  | fail x, db, w => (db, w, .error x)
  | stmt _ eff next, db, w => (next (w db)).eval db ((eff (w db)).write ∘ w)
  | commit _ next, db, w => next.eval (w db) id
  | rollback next, db, _ => next.eval db id

/-- The data that a call leaves, and its answer. -/
def alone (p : Prog ν σ ℓ ε χ α) (db : σ) : σ × Except χ α :=
  ((p.eval db id).1, (p.eval db id).2.2)

theorem eval_bind {f : α → Prog ν σ ℓ ε χ β} : ∀ (p : Prog ν σ ℓ ε χ α) (db : σ) (w : σ → σ),
    (p >>= f).eval db w = match p.eval db w with
      | (db', w', .ok a) => (f a).eval db' w'
      | (db', w', .error x) => (db', w', .error x)
  | ret _, _, _ => rfl
  | fail _, _, _ => rfl
  | stmt _ _ next, db, w => eval_bind (next (w db)) db _
  | commit _ next, db, w => eval_bind next (w db) id
  | rollback next, db, _ => eval_bind next db id

/-- The result of a program in two parts is that of its second part. -/
theorem eval_bind_ok {f : α → Prog ν σ ℓ ε χ β} {p : Prog ν σ ℓ ε χ α} {db : σ} {w : σ → σ} {b : β}
    (h : ((p >>= f).eval db w).2.2 = .ok b) :
    ∃ a db' w', p.eval db w = (db', w', .ok a) ∧ ((f a).eval db' w').2.2 = .ok b := by
  rw [eval_bind] at h
  split at h
  · next db' w' a hp => exact ⟨a, db', w', hp, h⟩
  · cases h

/-! ## Effects -/

/-- Every statement, where it sees `v`, has an effect with `S v`. -/
def Effects (S : σ → Effect σ ℓ → Prop) : Prog ν σ ℓ ε χ α → Prop
  | ret _ => True
  | fail _ => True
  | stmt _ eff next => ∀ v, S v (eff v) ∧ (next v).Effects S
  | commit _ next => next.Effects S
  | rollback next => next.Effects S

section

variable {S : σ → Effect σ ℓ → Prop}

theorem Statements.effects : ∀ {p : Prog ν σ ℓ ε χ α}, p.Statements S → p.Effects S
  | ret _, _ => trivial
  | fail _, _ => trivial
  | stmt _ _ next, h => fun v => ⟨(h v).1, Statements.effects (p := next v) (h v).2⟩
  | commit _ _, h => h.elim
  | rollback _, h => h.elim

theorem Effects.mono {S' : σ → Effect σ ℓ → Prop} (hS : ∀ v e, S v e → S' v e) :
    ∀ {p : Prog ν σ ℓ ε χ α}, p.Effects S → p.Effects S'
  | ret _, _ => trivial
  | fail _, _ => trivial
  | stmt _ _ next, h => fun v => ⟨hS _ _ (h v).1, Effects.mono hS (p := next v) (h v).2⟩
  | commit _ next, h => Effects.mono hS (p := next) h
  | rollback next, h => Effects.mono hS (p := next) h

theorem Effects.bind {f : α → Prog ν σ ℓ ε χ β} : ∀ {p : Prog ν σ ℓ ε χ α}, p.Effects S →
    (∀ a, (f a).Effects S) → (p >>= f).Effects S
  | ret a, _, hf => hf a
  | fail _, _, _ => trivial
  | stmt _ _ next, hp, hf => fun v => ⟨(hp v).1, Effects.bind (p := next v) (hp v).2 hf⟩
  | commit _ next, hp, hf => Effects.bind (p := next) hp hf
  | rollback next, hp, hf => Effects.bind (p := next) hp hf

theorem effects_pure {a : α} : (pure a : Prog ν σ ℓ ε χ α).Effects S := trivial

theorem effects_publish {e : ε} : (publish e : Prog ν σ ℓ ε χ Unit).Effects S := trivial

/-- Every statement leaves `I` as it is, where what it sees has it. -/
def Maintains (I : σ → Prop) : Prog ν σ ℓ ε χ α → Prop
  | ret _ => True
  | fail _ => True
  | stmt _ eff next => ∀ v, I v → I ((eff v).write v) ∧ (next v).Maintains I
  | commit _ next => next.Maintains I
  | rollback next => next.Maintains I

variable {I : σ → Prop}

theorem Effects.maintains : ∀ {p : Prog ν σ ℓ ε χ α}, p.Effects (fun v e => I v → I (e.write v)) →
    p.Maintains I
  | ret _, _ => trivial
  | fail _, _ => trivial
  | stmt _ _ next, h => fun v hv => ⟨(h v).1 hv, Effects.maintains (p := next v) (h v).2⟩
  | commit _ next, h => Effects.maintains (p := next) h
  | rollback next, h => Effects.maintains (p := next) h

theorem Maintains.bind {f : α → Prog ν σ ℓ ε χ β} : ∀ {p : Prog ν σ ℓ ε χ α}, p.Maintains I →
    (∀ a, (f a).Maintains I) → (p >>= f).Maintains I
  | ret a, _, hf => hf a
  | fail _, _, _ => trivial
  | stmt _ _ next, hp, hf => fun v hv => ⟨(hp v hv).1, Maintains.bind (p := next v) (hp v hv).2 hf⟩
  | commit _ next, hp, hf => Maintains.bind (p := next) hp hf
  | rollback next, hp, hf => Maintains.bind (p := next) hp hf

/-- What comes after a statement that only reads may rely on what it has read. -/
theorem maintains_query {site : ν} {g : σ → α} {f : α → Prog ν σ ℓ ε χ β}
    (h : ∀ v, I v → (f (g v)).Maintains I) : (query site g >>= f).Maintains I :=
  fun v hv => ⟨hv, h v hv⟩

theorem eval_maintains : ∀ {p : Prog ν σ ℓ ε χ α} {db : σ} {w : σ → σ}, p.Maintains I →
    I db → I (w db) → I (p.eval db w).1
  | ret _, _, _, _, h, _ => h
  | fail _, _, _, _, h, _ => h
  | stmt _ _ next, db, w, hp, h, hw =>
    eval_maintains (p := next (w db)) (hp _ hw).2 h (hp _ hw).1
  | commit _ next, _, _, hp, _, hw => eval_maintains (p := next) hp hw hw
  | rollback next, _, _, hp, h, _ => eval_maintains (p := next) hp h h

/-- **What each statement maintains** holds after the call. -/
theorem alone_maintains {p : Prog ν σ ℓ ε χ α} (hp : p.Maintains I) {db : σ} (h : I db) :
    I (p.alone db).1 :=
  eval_maintains hp h h

/-- **What relates the data before and after each statement** relates them before and after the
call. -/
theorem alone_rel {R : σ → σ → Prop} (hrefl : ∀ a, R a a) (htrans : ∀ a b c, R a b → R b c → R a c)
    {p : Prog ν σ ℓ ε χ α} (hp : p.Effects fun v e => R v (e.write v)) (db : σ) :
    R db (p.alone db).1 := by
  refine alone_maintains (I := R db) (Effects.maintains ?_) (hrefl db)
  exact hp.mono fun _ _ h hv => htrans _ _ _ hv h

end

end Prog

/-- What statements with an effect `S`, commits and rollbacks keep to be true of a program's context is
kept by a program of such statements. -/
theorem wp_effects {D : Discipline ν σ ℓ ε} {P : Ctx σ ℓ ε → Prop} {S : σ → Effect σ ℓ → Prop}
    (hw : ∀ {c c'}, P c → c.Waits D c' → P c') (hs : ∀ {c f}, P c → S c.view f → P (c.apply f))
    (hc : ∀ {c} e, P c → D.step c.held c.db e c.view ∧ P (c.commit e))
    (hr : ∀ {c}, P c → P c.rollback) :
    ∀ {p : Prog ν σ ℓ ε χ α} {c : Ctx σ ℓ ε}, p.Effects S → P c →
      wp D p (fun _ => P) (fun _ => P) c
  | .ret _, _, _, h => h
  | .fail _, _, _, h => h
  | .stmt _ _ next, _, hp, h => fun c' hwait _ =>
    wp_effects hw hs hc hr (p := next c'.view) (hp c'.view).2 (hs (hw h hwait) (hp c'.view).1)
  | .commit e next, _, hp, h => fun _ hwait =>
    (hc e (hw h hwait)).imp_right fun h' => wp_effects hw hs hc hr (p := next) hp h'
  | .rollback next, _, hp, h => wp_effects hw hs hc hr (p := next) hp (hr h)

/-! ## Failures -/

namespace Prog

/-- Every failure of the program is one of `E`. -/
def Fails (E : χ → Prop) : Prog ν σ ℓ ε χ α → Prop
  | ret _ => True
  | fail x => E x
  | stmt _ _ next => ∀ v, (next v).Fails E
  | commit _ next => next.Fails E
  | rollback next => next.Fails E

section

variable {E : χ → Prop}

theorem Fails.bind {f : α → Prog ν σ ℓ ε χ β} : ∀ {p : Prog ν σ ℓ ε χ α}, p.Fails E →
    (∀ a, (f a).Fails E) → (p >>= f).Fails E
  | ret a, _, hf => hf a
  | fail _, hp, _ => hp
  | stmt _ _ next, hp, hf => fun v => Fails.bind (p := next v) (hp v) hf
  | commit _ next, hp, hf => Fails.bind (p := next) hp hf
  | rollback next, hp, hf => Fails.bind (p := next) hp hf

theorem fails_pure {a : α} : (pure a : Prog ν σ ℓ ε χ α).Fails E := trivial

theorem fails_publish {e : ε} : (publish e : Prog ν σ ℓ ε χ Unit).Fails E := trivial

theorem fails_query {site : ν} {f : σ → α} : (query site f : Prog ν σ ℓ ε χ α).Fails E :=
  fun _ => trivial

theorem fails_orFail {x : χ} {o : Option α} (h : E x) : (orFail x o : Prog ν σ ℓ ε χ α).Fails E := by
  cases o with
  | none => exact h
  | some a => trivial

theorem fails_check {p : Prop} [Decidable p] {x : χ} (h : ¬p → E x) :
    (check p x : Prog ν σ ℓ ε χ Unit).Fails E := by
  unfold check
  split
  · trivial
  · next hp => exact h hp

theorem fails_exec {site : ν} {f : σ → Outcome σ ℓ χ α}
    (h : ∀ v x, (f v).result = .error x → E x) : (exec site f : Prog ν σ ℓ ε χ α).Fails E := by
  intro v
  show (ofExcept (f v).result).Fails E
  cases hr : (f v).result with
  | ok a => trivial
  | error x => exact h v x hr

/-- The failures of a program whose errors are handed on. -/
theorem fails_mapError {χ' : Type} {g : χ' → χ} (h : ∀ x, E (g x)) :
    ∀ {p : Prog ν σ ℓ ε χ' α}, (p.mapError g).Fails E
  | ret _ => trivial
  | fail x => h x
  | stmt _ _ next => fun v => fails_mapError h (p := next v)
  | commit _ next => fails_mapError h (p := next)
  | rollback next => fails_mapError h (p := next)

/-- What comes after a check may rely on it. -/
theorem fails_check_bind {p : Prop} [Decidable p] {x : χ} {f : Unit → Prog ν σ ℓ ε χ α} (hx : E x)
    (h : p → (f ()).Fails E) : (check p x >>= f : Prog ν σ ℓ ε χ α).Fails E := by
  unfold check
  split
  · next hp => exact h hp
  · exact hx

theorem fails_readOne [Inhabited ν] {x : χ} {f : σ → Option α} (h : E x) :
    (readOne x f : Prog ν σ ℓ ε χ α).Fails E :=
  fails_query.bind fun _ => fails_orFail h

section Rows

variable [Layers σ δ] [Inhabited ν] [DecidableEq κ] {T : Rows σ δ ρ κ ℓ}

omit [Layers σ δ] in
theorem fails_lockRow {mode : Mode} {q : ρ → Bool} :
    (T.lockRow mode q : Prog ν σ ℓ ε χ (Option ρ)).Fails E := by
  refine fails_query.bind fun o => ?_
  cases o with
  | none => exact fails_pure
  | some r => exact fails_exec fun v x h => by cases h

omit [DecidableEq κ] in
theorem fails_insertRow {taken : σ → Bool} {locks : Held ℓ} {r : ρ} {x : χ} (h : E x) :
    (T.insertRow taken locks r x : Prog ν σ ℓ ε χ Unit).Fails E := by
  refine fails_exec fun v y hy => ?_
  unfold Rows.inserted at hy
  split at hy
  · cases hy
    exact h
  · cases hy

end Rows

theorem eval_fails : ∀ {p : Prog ν σ ℓ ε χ α} {db : σ} {w : σ → σ} {x : χ}, p.Fails E →
    (p.eval db w).2.2 = .error x → E x
  | fail _, _, _, _, hp, h => by
    cases h
    exact hp
  | stmt _ _ next, db, w, _, hp, h => eval_fails (p := next (w db)) (hp _) h
  | commit _ next, _, _, _, hp, h => eval_fails (p := next) hp h
  | rollback next, _, _, _, hp, h => eval_fails (p := next) hp h

/-- A call fails as its program does. -/
theorem alone_fails {p : Prog ν σ ℓ ε χ α} {db : σ} {x : χ} (hp : p.Fails E)
    (h : (p.alone db).2 = .error x) : E x :=
  eval_fails hp h

end

end Prog

/-! ## Errors handed on -/

namespace Prog

section

variable {χ' χ'' : Type} {g : χ → χ'} {g' : χ' → χ''}

theorem mapError_bind {f : α → Prog ν σ ℓ ε χ β} : ∀ {p : Prog ν σ ℓ ε χ α},
    (p >>= f).mapError g = p.mapError g >>= fun a => (f a).mapError g
  | ret _ => rfl
  | fail _ => rfl
  | stmt site eff next => congrArg (stmt site eff) (funext fun v => mapError_bind (p := next v))
  | commit e next => congrArg (commit e) (mapError_bind (p := next))
  | rollback next => congrArg rollback (mapError_bind (p := next))

theorem mapError_mapError : ∀ {p : Prog ν σ ℓ ε χ α},
    (p.mapError g).mapError g' = p.mapError fun x => g' (g x)
  | ret _ => rfl
  | fail _ => rfl
  | stmt site eff next => congrArg (stmt site eff) (funext fun v => mapError_mapError (p := next v))
  | commit e next => congrArg (commit e) (mapError_mapError (p := next))
  | rollback next => congrArg rollback (mapError_mapError (p := next))

theorem mapError_id : ∀ {p : Prog ν σ ℓ ε χ α}, (p.mapError fun x => x) = p
  | ret _ => rfl
  | fail _ => rfl
  | stmt site eff next => congrArg (stmt site eff) (funext fun v => mapError_id (p := next v))
  | commit e next => congrArg (commit e) (mapError_id (p := next))
  | rollback next => congrArg rollback (mapError_id (p := next))

theorem mapError_check {p : Prop} [Decidable p] {x : χ} :
    (check p x : Prog ν σ ℓ ε χ Unit).mapError g = check p (g x) := by
  unfold check
  split <;> rfl

theorem mapError_orFail {x : χ} {o : Option α} :
    (orFail x o : Prog ν σ ℓ ε χ α).mapError g = orFail (g x) o := by
  cases o <;> rfl

theorem mapError_publish {e : ε} : (publish e : Prog ν σ ℓ ε χ Unit).mapError g = publish e := rfl

theorem mapError_read [Inhabited ν] {f : σ → α} :
    (read f : Prog ν σ ℓ ε χ α).mapError g = read f := rfl

theorem mapError_lockRow [Layers σ δ] [Inhabited ν] [DecidableEq κ] {T : Rows σ δ ρ κ ℓ} {mode : Mode}
    {q : ρ → Bool} : (T.lockRow mode q : Prog ν σ ℓ ε χ (Option ρ)).mapError g = T.lockRow mode q := by
  unfold Rows.lockRow
  rw [mapError_bind, mapError_read]
  congr 1
  funext o
  cases o <;> rfl

end

end Prog

/-! ## Runs of one call -/

section Runs

variable [DecidableEq ι] {progs : ι → Prog ν σ ℓ ε χ α}

theorem eval_reachable (i : ι) : ∀ (p : Prog ν σ ℓ ε χ α) {s : State ι ν σ ℓ ε χ α} {w : σ → σ}
    {L : Held ℓ} {done : List ε}, s.phase i = .running ⟨p, w, L, done⟩ →
    (∀ j c, j ≠ i → s.phase j ≠ .running c) →
    ∃ s', Reachable progs s s' ∧ s'.db = (p.eval s.db w).1 ∧
      s'.phase i = .ended (p.eval s.db w).2.2
  | .ret a, s, w, L, done, hi, _ =>
    ⟨_, .tail .refl (.ret hi), rfl, by rw [State.set_phase, if_pos rfl]; rfl⟩
  | .fail x, s, w, L, done, hi, _ =>
    ⟨_, .tail .refl (.fail hi), rfl, by rw [State.set_phase, if_pos rfl]; rfl⟩
  | .stmt site eff next, s, w, L, done, hi, hj => by
    have hs : Step progs (fun _ _ => True) s _ :=
      .stmt hi trivial fun j c hne hc => absurd hc (hj j c hne)
    obtain ⟨s', hr, hdb, hph⟩ := eval_reachable i (next (w s.db)) (s := s.set i _)
      (by rw [State.set_phase, if_pos rfl])
      fun j c hne => by rw [State.set_phase, if_neg hne]; exact hj j c hne
    exact ⟨s', .head hs hr, hdb, hph⟩
  | .commit e next, s, w, L, done, hi, hj => by
    obtain ⟨s', hr, hdb, hph⟩ := eval_reachable i next
      (s := s.publish i e (w s.db) ⟨next, id, [], done ++ [e]⟩)
      (by rw [State.publish_phase, if_pos rfl])
      fun j c hne => by rw [State.publish_phase, if_neg hne]; exact hj j c hne
    exact ⟨s', .head (.commit hi) hr, hdb, hph⟩
  | .rollback next, s, w, L, done, hi, hj => by
    obtain ⟨s', hr, hdb, hph⟩ := eval_reachable i next (s := s.set i _)
      (by rw [State.set_phase, if_pos rfl])
      fun j c hne => by rw [State.set_phase, if_neg hne]; exact hj j c hne
    exact ⟨s', .head (.rollback hi) hr, hdb, hph⟩

/-- **What a call does alone is a run of the system.** -/
theorem alone_reachable (progs : ι → Prog ν σ ℓ ε χ α) (i : ι) (db : σ) :
    ∃ s, Reachable progs (.initial ι ν ℓ ε χ α db) s ∧ s.db = ((progs i).alone db).1 ∧
      s.phase i = .ended ((progs i).alone db).2 := by
  have hstart : Step progs (fun _ _ => True) (.initial ι ν ℓ ε χ α db)
      ((State.initial ι ν ℓ ε χ α db).set i (.running { prog := progs i })) := .start rfl
  obtain ⟨s, hr, hdb, hph⟩ := eval_reachable i (progs i)
    (s := (State.initial ι ν ℓ ε χ α db).set i (.running { prog := progs i }))
    (by rw [State.set_phase, if_pos rfl])
    fun j c hne => by rw [State.set_phase, if_neg hne]; simp [State.initial]
  exact ⟨s, .head hstart hr, hdb, hph⟩

end Runs

/-! ## Parts of a program -/

section Does

variable [Layers σ δ] {db db' db'' : σ} {d d' d'' : δ} {p : Prog ν σ ℓ ε χ α} {f : α → Prog ν σ ℓ ε χ β}
  {a : α} {b : β} {x : χ}

/-- With the versions `d` over `db`, the program returns `a`, and leaves `d'` over `db'`. -/
def Does (p : Prog ν σ ℓ ε χ α) (db : σ) (d : δ) (db' : σ) (d' : δ) (a : α) : Prop :=
  p.eval db (fun s => Layers.lay s d) = (db', fun s => Layers.lay s d', .ok a)

/-- With the versions `d` over `db`, the program fails and commits nothing. -/
def Breaks (p : Prog ν σ ℓ ε χ α) (db : σ) (d : δ) (x : χ) : Prop :=
  ∃ w, p.eval db (fun s => Layers.lay s d) = (db, w, .error x)

theorem Does.alone (h : Does p db (Layers.none σ) db' d' a) : p.alone db = (db', .ok a) := by
  have hid : (fun s : σ => Layers.lay s (Layers.none σ)) = id := funext Layers.lay_none
  unfold Does at h
  rw [hid] at h
  rw [Prog.alone, h]

theorem Breaks.alone (h : Breaks p db (Layers.none σ) x) : p.alone db = (db, .error x) := by
  have hid : (fun s : σ => Layers.lay s (Layers.none σ)) = id := funext Layers.lay_none
  obtain ⟨w, h⟩ := h
  rw [hid] at h
  rw [Prog.alone, h]

theorem Does.bind (h : Does p db d db' d' a) (hf : Does (f a) db' d' db'' d'' b) :
    Does (p >>= f) db d db'' d'' b := by
  unfold Does at *
  rw [Prog.eval_bind, h]
  exact hf

theorem Does.breaks (h : Does p db d db d' a) (hf : Breaks (f a) db d' x) :
    Breaks (p >>= f) db d x := by
  obtain ⟨w, hf⟩ := hf
  refine ⟨w, ?_⟩
  unfold Does at h
  rw [Prog.eval_bind, h]
  exact hf

theorem Breaks.bind (h : Breaks p db d x) : Breaks (p >>= f) db d x := by
  obtain ⟨w, h⟩ := h
  exact ⟨w, by rw [Prog.eval_bind, h]⟩

theorem does_pure : Does (pure a : Prog ν σ ℓ ε χ α) db d db d a := rfl

theorem breaks_fail : Breaks (.fail x : Prog ν σ ℓ ε χ α) db d x := ⟨_, rfl⟩

theorem does_query {site : ν} {g : σ → α} :
    Does (.query site g : Prog ν σ ℓ ε χ α) db d db d (g (Layers.lay db d)) := rfl

theorem does_read [Inhabited ν] {g : σ → α} :
    Does (read g : Prog ν σ ℓ ε χ α) db d db d (g (Layers.lay db d)) := rfl

theorem does_publish {e : ε} :
    Does (.publish e : Prog ν σ ℓ ε χ Unit) db d (Layers.lay db d) (Layers.none σ) () := by
  have hid : (fun s : σ => Layers.lay s (Layers.none σ)) = id := funext Layers.lay_none
  unfold Does
  rw [hid]
  rfl

/-- A statement that is not refused. -/
theorem does_exec {site : ν} {g : σ → Prog.Outcome σ ℓ χ α} (locks : Held ℓ) {e : δ}
    (h : g (Layers.lay db d) = { locks, write := fun s => Layers.lay s e, result := .ok a }) :
    Does (.exec site g : Prog ν σ ℓ ε χ α) db d db (Layers.merge σ d e) a := by
  show (Prog.ofExcept (g (Layers.lay db d)).result).eval db
    ((g (Layers.lay db d)).write ∘ fun s => Layers.lay s d) = _
  rw [h]
  show (db, _, _) = _
  congr 2
  funext s
  exact Layers.lay_lay s d e

theorem does_exec_none {site : ν} {g : σ → Prog.Outcome σ ℓ χ α} {locks : Held ℓ}
    (h : g (Layers.lay db d) = { locks, result := .ok a }) :
    Does (.exec site g : Prog ν σ ℓ ε χ α) db d db d a := by
  show (Prog.ofExcept (g (Layers.lay db d)).result).eval db
    ((g (Layers.lay db d)).write ∘ fun s => Layers.lay s d) = _
  rw [h]
  rfl

theorem does_check {P : Prop} [Decidable P] (h : P) :
    Does (.check P x : Prog ν σ ℓ ε χ Unit) db d db d () := by
  unfold Prog.check
  rw [if_pos h]
  rfl

theorem breaks_check {P : Prop} [Decidable P] (h : ¬P) :
    Breaks (.check P x : Prog ν σ ℓ ε χ Unit) db d x := by
  unfold Prog.check
  rw [if_neg h]
  exact breaks_fail

theorem does_orFail {o : Option α} (h : o = some a) :
    Does (.orFail x o : Prog ν σ ℓ ε χ α) db d db d a := by
  rw [h]
  rfl

theorem does_readOne [Inhabited ν] {g : σ → Option α} (h : g (Layers.lay db d) = some a) :
    Does (readOne x g : Prog ν σ ℓ ε χ α) db d db d a :=
  does_read.bind (does_orFail h)

theorem Does.mapError {χ' : Type} {g : χ → χ'} (h : Does p db d db' d' a) :
    Does (p.mapError g) db d db' d' a := by
  have heval : ∀ (p : Prog ν σ ℓ ε χ α) (db : σ) (w : σ → σ), (p.mapError g).eval db w =
      ((p.eval db w).1, (p.eval db w).2.1, (p.eval db w).2.2.mapError g) := by
    intro p
    induction p with
    | ret a => exact fun _ _ => rfl
    | fail x => exact fun _ _ => rfl
    | stmt site eff next ih => exact fun db w => ih (w db) db _
    | commit e next ih => exact fun db w => ih (w db) id
    | rollback next ih => exact fun db w => ih db id
  unfold Does at *
  rw [heval, h]
  rfl

section Rows

variable [Inhabited ν] [DecidableEq κ] {T : Rows σ δ ρ κ ℓ} {q : ρ → Bool} {set : ρ → ρ} {r : ρ}

/-- The first row that fits is locked. -/
theorem does_lockRow {mode : Mode} (hr : (T.rows (Layers.lay db d)).find? q = some r)
    (hkey : T.find (T.key r) q (Layers.lay db d) = some r) :
    Does (T.lockRow mode q : Prog ν σ ℓ ε χ (Option ρ)) db d db d (some r) := by
  refine does_read.bind ?_
  rw [hr]
  exact does_exec_none (by rw [hkey])

/-- The only row fits. -/
theorem does_lockRow_one {mode : Mode} (hr : T.rows (Layers.lay db d) = [r]) (hq : q r = true) :
    Does (T.lockRow mode q : Prog ν σ ℓ ε χ (Option ρ)) db d db d (some r) := by
  refine does_lockRow ?_ ?_
  · rw [hr]
    exact List.find?_cons_of_pos hq
  · unfold Rows.find
    rw [hr]
    simp [hq]

/-- The one row that fits is updated. -/
theorem does_updateRow {site : κ → ν} {search : ν} (hr : r ∈ T.rows (Layers.lay db d)) (hq : q r)
    (hone : ∀ r' ∈ T.rows (Layers.lay db d), q r' → r' = r) :
    Does (T.updateRow q set site search : Prog ν σ ℓ ε χ (Option ρ)) db d db
      (Layers.merge σ d (T.version (set r))) (some r) := by
  have hfind : (T.rows (Layers.lay db d)).find? q = some r := by
    cases hf : (T.rows (Layers.lay db d)).find? q with
    | none => exact absurd hq (List.find?_eq_none.1 hf r hr)
    | some r' => rw [hone r' (List.mem_of_find?_eq_some hf) (List.find?_some hf)]
  have hkey : T.find (T.key r) q (Layers.lay db d) = some r := by
    cases hf : T.find (T.key r) q (Layers.lay db d) with
    | none => exact absurd hq (Rows.find_none hf r hr rfl)
    | some r' =>
      obtain ⟨hr', -, hq'⟩ := Rows.find_some hf
      rw [hone r' hr' hq']
  refine does_query.bind ?_
  rw [hfind]
  refine does_exec [(T.lock (T.key r), .exclusive)] ?_
  rw [Rows.updated, hkey]

/-- No row fits. -/
theorem does_updateRow_none {site : κ → ν} {search : ν} (h : ∀ r ∈ T.rows (Layers.lay db d), ¬q r) :
    Does (T.updateRow q set site search : Prog ν σ ℓ ε χ (Option ρ)) db d db d none := by
  refine does_query.bind ?_
  rw [List.find?_eq_none.2 h]
  exact does_pure

end Rows

end Does

end Txn
