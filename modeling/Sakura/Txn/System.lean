/-
  Concurrent transactions at READ COMMITTED.

  A system runs one program for each call.  Every statement of a running program sees the data
  committed when it runs, with its own transaction's writes on top, and runs only when no other
  open transaction holds a lock that excludes one it asks for.

  * `Session`, `Phase`, `State`: the open transactions and the committed data;
  * `Step`: one step of one call, `Reachable`: any interleaving;
  * `replay`: a computable schedule, sound for `Reachable`.
-/
import Mathlib.Algebra.GroupWithZero.Nat
import Mathlib.Logic.Relation
import Mathlib.Logic.Function.Basic
import Sakura.Txn.Prog

namespace Txn

variable {ι ν σ ℓ ε χ α : Type}

/-! ## States -/

/-- A running call: what is left of its program, the writes and locks of its open transaction and
the events it has committed. -/
structure Session (ν σ ℓ ε χ α : Type) where
  prog : Prog ν σ ℓ ε χ α
  writes : σ → σ := id
  held : Held ℓ := []
  done : List ε := []

/-- Where a call is.  An aborted call was rolled back without an answer (a crash, a deadlock, a
lost connection). -/
inductive Phase (ν σ ℓ ε χ α : Type) where
  | idle
  | running (c : Session ν σ ℓ ε χ α)
  | ended (r : Except χ α)
  | aborted

/-- The committed data, the calls, and the events committed so far with the call of each. -/
structure State (ι ν σ ℓ ε χ α : Type) where
  db : σ
  phase : ι → Phase ν σ ℓ ε χ α
  log : List (ι × ε)

namespace State

/-- No call has started. -/
def initial (ι ν ℓ ε χ α : Type) (db : σ) : State ι ν σ ℓ ε χ α :=
  ⟨db, fun _ => .idle, []⟩

def set [DecidableEq ι] (s : State ι ν σ ℓ ε χ α) (i : ι) (p : Phase ν σ ℓ ε χ α) :
    State ι ν σ ℓ ε χ α :=
  { s with phase := Function.update s.phase i p }

/-- Call `i` commits `e`: its writes become the data `db`, it goes on as `c`. -/
def publish [DecidableEq ι] (s : State ι ν σ ℓ ε χ α) (i : ι) (e : ε) (db : σ)
    (c : Session ν σ ℓ ε χ α) : State ι ν σ ℓ ε χ α :=
  ⟨db, Function.update s.phase i (.running c), s.log ++ [(i, e)]⟩

/-- The events that call `i` has committed. -/
def events [DecidableEq ι] (s : State ι ν σ ℓ ε χ α) (i : ι) : List ε :=
  (s.log.filter (·.1 = i)).map (·.2)

/-- The other open transactions hold no lock that excludes one of `L`. -/
def Grants (s : State ι ν σ ℓ ε χ α) (i : ι) (L : Held ℓ) : Prop :=
  ∀ j c, j ≠ i → s.phase j = .running c → Compatible L c.held

section

variable [DecidableEq ι] (s : State ι ν σ ℓ ε χ α) (i j : ι)

theorem set_phase (p : Phase ν σ ℓ ε χ α) :
    (s.set i p).phase j = if j = i then p else s.phase j := by
  simp [set, Function.update_apply]

theorem publish_phase (e : ε) (db : σ) (c : Session ν σ ℓ ε χ α) :
    (s.publish i e db c).phase j = if j = i then .running c else s.phase j := by
  simp [publish, Function.update_apply]

theorem publish_events (e : ε) (db : σ) (c : Session ν σ ℓ ε χ α) :
    (s.publish i e db c).events j = if j = i then s.events j ++ [e] else s.events j := by
  by_cases h : j = i
  · subst h; simp [events, publish]
  · simp [events, publish, List.filter_append, h, Ne.symm h]

end

end State

/-! ## Steps -/

section Step

variable [DecidableEq ι]

/-- One step of one call.  `allowed` restricts the runs considered: a statement labelled `site`
runs only where `allowed site` holds of what its transaction sees. -/
inductive Step (progs : ι → Prog ν σ ℓ ε χ α) (allowed : ν → σ → Prop) :
    State ι ν σ ℓ ε χ α → State ι ν σ ℓ ε χ α → Prop
  | start {s i} : s.phase i = .idle → Step progs allowed s (s.set i (.running { prog := progs i }))
  | stmt {s i site eff next w L done} :
      s.phase i = .running ⟨.stmt site eff next, w, L, done⟩ → allowed site (w s.db) →
      s.Grants i (eff (w s.db)).locks →
      Step progs allowed s (s.set i
        (.running ⟨next (w s.db), (eff (w s.db)).write ∘ w, L ++ (eff (w s.db)).locks, done⟩))
  | commit {s i e next w L done} : s.phase i = .running ⟨.commit e next, w, L, done⟩ →
      Step progs allowed s (s.publish i e (w s.db) ⟨next, id, [], done ++ [e]⟩)
  | rollback {s i next w L done} : s.phase i = .running ⟨.rollback next, w, L, done⟩ →
      Step progs allowed s (s.set i (.running ⟨next, id, [], done⟩))
  | ret {s i a w L done} : s.phase i = .running ⟨.ret a, w, L, done⟩ →
      Step progs allowed s (s.set i (.ended (.ok a)))
  | fail {s i x w L done} : s.phase i = .running ⟨.fail x, w, L, done⟩ →
      Step progs allowed s (s.set i (.ended (.error x)))
  | abort {s i c} : s.phase i = .running c → Step progs allowed s (s.set i .aborted)

/-- The states that some interleaving of the calls leads to. -/
def ReachableIf (progs : ι → Prog ν σ ℓ ε χ α) (allowed : ν → σ → Prop) :
    State ι ν σ ℓ ε χ α → State ι ν σ ℓ ε χ α → Prop :=
  Relation.ReflTransGen (Step progs allowed)

/-- All interleavings. -/
abbrev Reachable (progs : ι → Prog ν σ ℓ ε χ α) :
    State ι ν σ ℓ ε χ α → State ι ν σ ℓ ε χ α → Prop :=
  ReachableIf progs fun _ _ => True

theorem Step.mono {progs : ι → Prog ν σ ℓ ε χ α} {p q : ν → σ → Prop}
    (h : ∀ site v, p site v → q site v) {s s' : State ι ν σ ℓ ε χ α} (hs : Step progs p s s') :
    Step progs q s s' := by
  cases hs with
  | start h1 => exact .start h1
  | stmt h1 h2 h3 => exact .stmt h1 (h _ _ h2) h3
  | commit h1 => exact .commit h1
  | rollback h1 => exact .rollback h1
  | ret h1 => exact .ret h1
  | fail h1 => exact .fail h1
  | abort h1 => exact .abort h1

theorem ReachableIf.mono {progs : ι → Prog ν σ ℓ ε χ α} {p q : ν → σ → Prop}
    (h : ∀ site v, p site v → q site v) {s s' : State ι ν σ ℓ ε χ α}
    (hs : ReachableIf progs p s s') : ReachableIf progs q s s' :=
  Relation.ReflTransGen.mono (fun _ _ hst => Step.mono h hst) _ _ hs

/-- The committed data only changes in a commit. -/
theorem Step.db_eq {progs : ι → Prog ν σ ℓ ε χ α} {allowed : ν → σ → Prop}
    {s s' : State ι ν σ ℓ ε χ α} (h : Step progs allowed s s') (hl : s'.log = s.log) :
    s'.db = s.db := by
  cases h with
  | commit => simp [State.publish] at hl
  | _ => rfl

/-! ## Schedules that compute -/

section Replay

variable [DecidableEq ℓ] (ids : List ι) (progs : ι → Prog ν σ ℓ ε χ α) (allowed : ν → σ → Prop)
  [∀ site v, Decidable (allowed site v)]

/-- The next step of call `i`, if it is allowed and not waiting for a lock; `ids` lists the calls. -/
def advance (s : State ι ν σ ℓ ε χ α) (i : ι) : Option (State ι ν σ ℓ ε χ α) :=
  match s.phase i with
  | .idle => some (s.set i (.running { prog := progs i }))
  | .running ⟨.stmt site eff next, w, L, done⟩ =>
    if allowed site (w s.db) ∧ (ids.all fun j => j = i || match s.phase j with
        | .running c => decide (Compatible (eff (w s.db)).locks c.held)
        | _ => true)
    then some (s.set i
      (.running ⟨next (w s.db), (eff (w s.db)).write ∘ w, L ++ (eff (w s.db)).locks, done⟩))
    else none
  | .running ⟨.commit e next, w, _, done⟩ =>
    some (s.publish i e (w s.db) ⟨next, id, [], done ++ [e]⟩)
  | .running ⟨.rollback next, _, _, done⟩ => some (s.set i (.running ⟨next, id, [], done⟩))
  | .running ⟨.ret a, _, _, _⟩ => some (s.set i (.ended (.ok a)))
  | .running ⟨.fail x, _, _, _⟩ => some (s.set i (.ended (.error x)))
  | .ended _ | .aborted => none

def replay : List ι → State ι ν σ ℓ ε χ α → Option (State ι ν σ ℓ ε χ α)
  | [], s => some s
  | i :: is, s => (advance ids progs allowed s i).bind (replay is)

variable {ids progs allowed}

theorem advance_step (hids : ∀ i, i ∈ ids) {s s' : State ι ν σ ℓ ε χ α} {i : ι}
    (h : advance ids progs allowed s i = some s') : Step progs allowed s s' := by
  unfold advance at h
  split at h
  · next hp => cases h; exact .start hp
  · next hp =>
    split at h
    · next hg =>
      cases h
      refine .stmt hp hg.1 fun j c hj hc => ?_
      have := List.all_eq_true.1 hg.2 j (hids j)
      simpa [hj, hc] using this
    · cases h
  · next hp => cases h; exact .commit hp
  · next hp => cases h; exact .rollback hp
  · next hp => cases h; exact .ret hp
  · next hp => cases h; exact .fail hp
  · cases h
  · cases h

/-- **A replayed schedule is a run.** -/
theorem replay_reachable (hids : ∀ i, i ∈ ids) : ∀ (is : List ι) {s s' : State ι ν σ ℓ ε χ α},
    replay ids progs allowed is s = some s' → ReachableIf progs allowed s s'
  | [], _, _, h => by cases h; exact .refl
  | i :: is, s, s', h => by
    obtain ⟨s₁, h₁, h₂⟩ := Option.bind_eq_some_iff.1 h
    exact .head (advance_step hids h₁) (replay_reachable hids is h₂)

end Replay

/-- What is computed of the state that a schedule leads to is true of a reachable state. -/
theorem replay_any [DecidableEq ℓ] (ids : List ι) (hids : ∀ i, i ∈ ids)
    (progs : ι → Prog ν σ ℓ ε χ α) (allowed : ν → σ → Prop) [∀ site v, Decidable (allowed site v)]
    (is : List ι) (s : State ι ν σ ℓ ε χ α) (p : State ι ν σ ℓ ε χ α → Bool)
    (h : (replay ids progs allowed is s).any p = true) :
    ∃ s', ReachableIf progs allowed s s' ∧ p s' = true := by
  cases hs : replay ids progs allowed is s with
  | none => rw [hs] at h; cases h
  | some s' => rw [hs] at h; exact ⟨s', replay_reachable hids is hs, h⟩

end Step

/-! ## Numbered sessions -/

instance threeSessions : NeZero 3 := ⟨by decide⟩

instance fiveSessions : NeZero 5 := ⟨by decide⟩

end Txn
