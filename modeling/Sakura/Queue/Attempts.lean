/-
  How often a task is started.

  * `runTask`, `enqueue`, `QueueCall`: the calls on the queue;
  * `heedful`: a restriction on runs;
  * `Task.Bounded`, `Task.Follows`: what the attempts of a task are, and what a commit does to them;
  * `attempts_bounded`: they never exceed the maximum, and no task is started more often.
-/
import Sakura.Queue.Statements
import Sakura.Txn.Versions
import Sakura.Txn.Traces

namespace Sakura.Queue

open Txn

/-! ## Calls -/

/-- `ProcessNext` around a handler that ends with `outcome`; no handler writes a row of
platform_tasks. -/
def runTask (w : Worker) (now finished : Time) (entry : Nat) (pick : UUID)
    (outcome : ClaimedTask → Except Failure Unit) : Call Unit := do
  match ← claim w now pick with
  | none => pure ()
  | some task => match outcome task with
    | .ok _ => finish w finished task
    | .error failure => fail w finished entry task failure

/-- `INSERT INTO platform_tasks(id,task_type,idempotency_key,payload,max_attempts,created_by)`, with
CHECK(max_attempts BETWEEN 1 AND 100). -/
def enqueue (id : UUID) (type : TaskType) (idempotencyKey : String) (payload : Payload)
    (maxAttempts : Nat) (now : Time) : Call Unit := do
  tasks.insertRow (fun v => maxAttempts < 1 || 100 < maxAttempts ||
      v.tasks.any fun t => t.id = id || t.idempotencyKey = idempotencyKey)
    [(.task id, .exclusive), (.taskKey idempotencyKey, .exclusive)]
    { id, type, status := .pending, idempotencyKey, payload, attempts := 0, maxAttempts
      availableAt := now } .conflict
  .publish (.requested id)

/-- What happens to the queue; a worker that crashes is a call that is aborted. -/
inductive QueueCall where
  | enqueue (id : UUID) (type : TaskType) (idempotencyKey : String) (payload : Payload)
      (maxAttempts : Nat) (now : Time)
  | runTask (worker : Worker) (now finished : Time) (entry : Nat) (pick : UUID)
      (outcome : ClaimedTask → Except Failure Unit)
  | keepLease (worker : Worker) (now : Time) (taskID : UUID)
  | retryTask (now : Time) (id : UUID)

def QueueCall.call : QueueCall → Call Unit
  | .enqueue id type key payload maxAttempts now =>
    Queue.enqueue id type key payload maxAttempts now
  | .runTask worker now finished entry pick outcome =>
    Queue.runTask worker now finished entry pick outcome
  | .keepLease worker now task => (fun _ => ()) <$> Queue.keepLease worker now task
  | .retryTask now id => Queue.retryTask now id

/-! ## Attempts -/

/-- An expired lease is taken over only while attempts are left, and a worker that fails a task has
claimed it last. -/
def heedful : Site → Store → Prop
  | .claimTask id, v => ∀ t ∈ v.tasks, t.id = id → t.status = .running → t.attempts < t.maxAttempts
  | .failTask id owner attempts, v => ∀ t ∈ v.tasks, t.id = id → t.leaseOwner = some owner →
    t.attempts ≤ attempts
  | _, _ => True

/-- At most the maximum of attempts are made, and one is left for a task that waits. -/
structure Task.Bounded (t : Task) : Prop where
  le : t.attempts ≤ t.maxAttempts
  pos : 0 < t.maxAttempts
  left : t.status = .pending ∨ t.status = .retry → t.attempts < t.maxAttempts

/-- The attempts of the task `id` after the event, if they were `n`. -/
def Event.attempts (id : UUID) (n : Nat) : Event → Nat
  | .claimed task _ => if task = id then n + 1 else n
  | .retried task => if task = id then 0 else n
  | _ => n

/-- How often the task was claimed since it was last reset. -/
def starts (id : UUID) (es : List Event) : Nat := es.foldl (Event.attempts id) 0

theorem starts_snoc {id : UUID} {es : List Event} {e : Event} :
    starts id (es ++ [e]) = e.attempts id (starts id es) := by
  simp [starts, List.foldl_append]

theorem Event.attempts_mono {id : UUID} {n m : Nat} (h : n ≤ m) (e : Event) :
    e.attempts id n ≤ e.attempts id m := by
  cases e <;> simp only [attempts] <;> first | exact h | (split <;> omega)

theorem Event.attempts_le {id : UUID} {n : Nat} {e : Event} (h : ∀ o, e ≠ .claimed id o) :
    e.attempts id n ≤ n := by
  cases e with
  | claimed task o =>
    have hne : task ≠ id := fun heq => h o (heq ▸ rfl)
    simp [attempts, hne]
  | retried task =>
    simp only [attempts]
    split <;> omega
  | _ => exact le_rfl

/-- A task that was never claimed. -/
theorem starts_eq_zero {id : UUID} : ∀ {es : List Event}, (∀ e ∈ es, ∀ o, e ≠ .claimed id o) →
    starts id es = 0
  | [], _ => rfl
  | e :: es, h => by
    have he : e.attempts id 0 = 0 := Nat.le_zero.1 (Event.attempts_le (h e (by simp)))
    show es.foldl (Event.attempts id) (e.attempts id 0) = 0
    rw [he]
    exact starts_eq_zero fun e' he' => h e' (List.mem_cons_of_mem _ he')

/-! ## Commits -/

/-- The version `t'` of the task `t` that a commit of the event may leave. -/
def Task.Follows (e : Event) (t t' : Task) : Prop :=
  t'.maxAttempts = t.maxAttempts ∧ t'.attempts = e.attempts t.id t.attempts ∧ t'.Bounded

/-- What a commit with the versions `ts` of tasks does to them. -/
structure TaskCommit (e : Event) (ts : List Task) (L : Held Lock) (db : Store) : Prop where
  versions : Versioned Task.id (fun id => Owns L (.task id)) (fun id => Owns L (.task id))
    (Task.Follows e) db.tasks ts
  fresh : ∀ t ∈ ts, (∀ t₀ ∈ db.tasks, t₀.id ≠ t.id) → t.Bounded
  claimed : ∀ id o, e = .claimed id o → ∃ t ∈ ts, t.id = id ∧ ∃ t₀ ∈ db.tasks, t₀.id = id

structure Attempted (db : Store) : Prop where
  ids : UniqueBy Task.id db.tasks
  bounded : ∀ t ∈ db.tasks, t.Bounded

variable {δ δ' : Versions} {ts ts' : List Task} {L M : Held Lock} {db : Store}
  {c : Ctx Store Lock Event} {e e' : Event}

theorem TaskCommit.attempted (h : TaskCommit e δ.tasks L db) (hdb : Attempted db) :
    Attempted (db.overlay δ) where
  ids := h.versions.uniqueBy hdb.ids
  bounded t ht := by
    rcases mem_overlay.1 ht with ⟨ht, -⟩ | ht
    · exact hdb.bounded t ht
    · rcases h.versions.version t ht with ⟨t₀, ht₀, -, hk, -⟩ | ⟨hf, -⟩
      · exact hk.2.2
      · exact h.fresh t ht hf

def attempting : Discipline Site Store Lock Event where
  inv := Attempted
  step L db e db' := ∃ δ : Versions, db' = db.overlay δ ∧ TaskCommit e δ.tasks L db
  allowed := heedful
  step_inv := by
    rintro L db e _ hi ⟨δ, rfl, h⟩
    exact h.attempted hi

/-- Some version of the task remains, with the same maximum. -/
theorem TaskCommit.maximum (h : TaskCommit e δ.tasks L db) (hdb : Attempted db) {t : Task}
    (ht : t ∈ db.tasks) :
    ∃ t' ∈ (db.overlay δ).tasks, t'.id = t.id ∧ t'.maxAttempts = t.maxAttempts := by
  have hk : Versioned Task.id (fun id => Owns L (.task id)) (fun id => Owns L (.task id))
      (fun t t' : Task => t'.maxAttempts = t.maxAttempts) db.tasks δ.tasks :=
    h.versions.weaken fun _ _ hk => hk.1
  have hrefl : ∀ t : Task, (fun t t' : Task => t'.maxAttempts = t.maxAttempts) t t := fun _ => rfl
  obtain ⟨t', ht', hid, hmax⟩ := Versioned.version_overlay hrefl hk hdb.ids ht
  exact ⟨t', ht', hid, hmax⟩

theorem keeps_taskCommit : attempting.Keeps (TaskCommit e ts) where
  mono hLM h := ⟨h.versions.mono (fun _ => Owns.mono hLM) fun _ => Owns.mono hLM, h.fresh, h.claimed⟩
  step := by
    rintro L M db e' _ hi hc ⟨δ, rfl, hs⟩ h
    have hold : ∀ t₀ ∈ db.tasks, ∃ t' ∈ (db.overlay δ).tasks, t'.id = t₀.id := fun t₀ ht₀ =>
      (hs.maximum hi ht₀).imp fun _ h' => ⟨h'.1, h'.2.1⟩
    refine ⟨h.versions.overlay hs.versions (fun _ hl => hl.not_owns hc) fun _ hl => hl.not_owns hc,
      fun t ht hf => h.fresh t ht fun t₀ ht₀ e => ?_, fun id o e => ?_⟩
    · obtain ⟨t', ht', e'⟩ := hold t₀ ht₀
      exact hf t' ht' (e'.trans e)
    · obtain ⟨t, ht, hid, t₀, ht₀, hid₀⟩ := h.claimed id o e
      obtain ⟨t', ht', e'⟩ := hold t₀ ht₀
      exact ⟨t, ht, hid, t', ht', e'.trans hid₀⟩

/-- Nothing is done to the tasks. -/
theorem TaskCommit.nil (he : ∀ id o, e ≠ .claimed id o) : TaskCommit e [] L db :=
  ⟨.nil, fun _ h => (List.not_mem_nil h).elim, fun id o h => absurd h (he id o)⟩

/-- A new version of one task. -/
theorem TaskCommit.single {t t' : Task} (ht : t ∈ db.tasks) (hid : t'.id = t.id)
    (hf : t.Follows e t') (hl : Owns L (.task t.id))
    (he : ∀ id o, e = .claimed id o → id = t.id) : TaskCommit e [t'] L db where
  versions := .single (Or.inl ⟨t, ht, hid.symm, hf, hid ▸ hl⟩)
  fresh _ h hno := absurd (List.mem_singleton.1 h ▸ hid.symm) (hno t ht)
  claimed id o h :=
    ⟨t', List.mem_singleton_self _, hid.trans (he id o h).symm, t, ht, (he id o h).symm⟩

/-- The row of the task, locked. -/
def TaskLocked (t : Task) (L : Held Lock) (db : Store) : Prop :=
  t ∈ db.tasks ∧ Owns L (.task t.id)

theorem keeps_taskLocked {t : Task} : attempting.Keeps (TaskLocked t) where
  mono hLM h := ⟨h.1, h.2.mono hLM⟩
  step := by
    rintro L M db e _ - hc ⟨δ, rfl, hs⟩ ⟨ht, hl⟩
    exact ⟨hs.versions.mem_overlay ht (hl.not_owns hc), hl⟩

/-- A task of the maximum. -/
def HasMaximum (id : UUID) (n : Nat) (db : Store) : Prop :=
  ∃ t ∈ db.tasks, t.id = id ∧ t.maxAttempts = n

theorem keeps_maximum (id : UUID) (n : Nat) : attempting.Keeps fun _ => HasMaximum id n where
  mono _ h := h
  step := by
    rintro L M db e _ hi - ⟨δ, rfl, hs⟩ ⟨t, ht, hid, hn⟩
    obtain ⟨t', ht', hid', hn'⟩ := hs.maximum hi ht
    exact ⟨t', ht', hid'.trans hid, hn'.trans hn⟩

/-! ## Transactions -/

/-- The open transaction has written the versions `ts` of tasks, and knows `K`. -/
def TasksWritten (ts : List Task) (K : Held Lock → Store → Prop) (c : Ctx Store Lock Event) : Prop :=
  ∃ δ : Versions, δ.tasks = ts ∧ Knows attempting c δ K

/-- The statement does not write to the tasks. -/
def TasksAside (_ : Store) (f : Effect Store Lock) : Prop :=
  ∃ d : Versions, d.tasks = [] ∧ f.write = fun s => Layers.lay s d

theorem tasksAside_lock (v : Store) (L : Held Lock) : TasksAside v { locks := L } :=
  ⟨{}, rfl, funext fun s => (Layers.lay_none s).symm⟩

theorem tasksAside_other {v : Store} {d : Versions} {locks : Held Lock} (hd : d.tasks = []) :
    TasksAside v ⟨locks, fun s => Layers.lay s d⟩ :=
  ⟨d, hd, rfl⟩

variable {K : Store → Prop} {KL : Held Lock → Store → Prop} {α χ : Type}
  {E : χ → Ctx Store Lock Event → Prop}

theorem wp_tasksAside {p : Prog Site Store Lock Event χ α} (hp : p.Statements TasksAside)
    (h : TasksWritten ts KL c) {Q : α → Ctx Store Lock Event → Prop}
    (hQ : ∀ a c', TasksWritten ts KL c' → Q a c') (hE : ∀ x c', TasksWritten ts KL c' → E x c') :
    wp attempting p Q E c := by
  refine wp_mono hQ hE (wp_statements (P := TasksWritten ts KL) ?_ ?_ hp h)
  · rintro c c' ⟨δ, hts, h⟩ hw
    exact ⟨δ, hts, h.waits hw⟩
  · rintro c ⟨locks, write⟩ ⟨δ, hts, h⟩ ⟨d, hd, rfl⟩
    refine ⟨Layers.merge Store δ d, ?_, h.write rfl h.keeps
      (h.keeps.mono (List.subset_append_left _ _) h.known)⟩
    show Txn.overlay Task.id δ.tasks d.tasks = ts
    rw [hd, overlay_nil, hts]

theorem TasksWritten.publish (hK : attempting.Keeps fun _ => K)
    (h : TasksWritten ts (fun L db => TaskCommit e ts L db ∧ K db) c)
    {Q : Unit → Ctx Store Lock Event → Prop}
    (hQ : ∀ c', Knows attempting c' (Layers.none Store) (fun _ => K) → Q () c') :
    wp attempting (.publish e : Prog Site Store Lock Event χ Unit) Q E c := by
  obtain ⟨δ, rfl, h⟩ := h
  refine h.publish hK (fun L db hdb hk => ?_) hQ
  have hstep : attempting.step L db e (db.overlay δ) := ⟨δ, rfl, hk.1⟩
  exact ⟨hstep, hK.step hdb compatible_nil hstep hk.2⟩

/-- An UPDATE of a task that is the first statement of its transaction. -/
theorem wp_updateTask (he : ∀ id o, e ≠ .claimed id o) {p : Task → Bool} {set : Task → Task}
    {site : UUID → Site} {search : Site}
    (h : Knows attempting c (Layers.none Store) fun _ => K)
    (hset : ∀ db t, Attempted db → K db → heedful (site t.id) db → t ∈ db.tasks → p t →
      (set t).id = t.id ∧ t.Follows e (set t))
    {Q : Option Task → Ctx Store Lock Event → Prop}
    (hQ : ∀ o c' ts, TasksWritten ts (fun L db => TaskCommit e ts L db ∧ K db) c' → Q o c') :
    wp attempting (tasks.updateRow p set site search : Prog Site Store Lock Event χ (Option Task))
      Q E c := by
  have hkeeps : ∀ ts, attempting.Keeps fun L db => TaskCommit e ts L db ∧ K db := fun ts =>
    keeps_taskCommit.and h.keeps
  refine h.updateRow (fun c₁ h₁ _ => hQ _ c₁ [] ?_) fun c₁ t h₁ ha ht hp => hQ _ _ [set t] ?_
  · exact ⟨{}, rfl, h₁.wrote, h₁.inv, ⟨.nil he, h₁.known⟩, hkeeps []⟩
  · rw [h₁.view, Layers.lay_none] at ha
    rw [Layers.lay_none] at ht
    obtain ⟨hid, hf⟩ := hset _ t h₁.inv h₁.known ha ht hp
    refine ⟨{ tasks := [set t] }, rfl, h₁.write rfl (hkeeps [set t]) ⟨?_, h₁.known⟩⟩
    refine .single ht hid hf ?_ fun id o h => absurd h (he id o)
    exact List.mem_append_right _ (List.mem_singleton_self _)

/-! ## Calls -/

/-- The call keeps to the discipline, whatever it returns. -/
abbrev Attempting {α : Type} (p : Call α) (c : Ctx Store Lock Event) : Prop :=
  wp attempting p (fun _ _ => True) (fun _ _ => True) c

variable {w : Worker} {now : Time} {entry : Nat} {task : ClaimedTask}

theorem keepLease_attempting (h : Knows attempting c (Layers.none Store) fun _ _ => True) {id : UUID} :
    Attempting (keepLease w now id) c := by
  have hK := Discipline.keeps_true (D := attempting)
  refine wp_bind.2 (wp_updateTask (e := .renewed id w.id) (by simp) h (fun db t hdb _ _ ht hp => ?_)
    fun _ c₁ ts h₁ => wp_bind.2 (h₁.publish hK fun _ _ => trivial))
  simp only [Bool.and_eq_true, decide_eq_true_eq] at hp
  have hb := hdb.bounded t ht
  exact ⟨rfl, rfl, rfl, hb.le, hb.pos, hb.left⟩

theorem finish_attempting (h : Knows attempting c (Layers.none Store) fun _ => K) :
    Attempting (finish w now task) c := by
  refine wp_bind.2 (wp_updateTask (e := .finished task.id w.id) (by simp) h
    (fun db t hdb _ _ ht _ => ?_) fun _ c₁ ts h₁ => h₁.publish h.keeps fun _ _ => trivial)
  have hb := hdb.bounded t ht
  exact ⟨rfl, rfl, rfl, hb.le, hb.pos, by simp⟩

/-- A failed task waits only while attempts are left. -/
theorem failStatus_waits {permanent : Bool}
    (h : failStatus task permanent = .pending ∨ failStatus task permanent = .retry) :
    task.attempts < task.maximum := by
  unfold failStatus at h
  by_contra hle
  have hmax : task.attempts ≥ task.maximum := by omega
  cases permanent <;> simp [hmax] at h

theorem failDomain_aside {status : TaskStatus} {message : Bytes} :
    (failDomain w now entry task status message).Statements TasksAside :=
  failDomain_statements tasksAside_lock (fun hd _ _ _ => tasksAside_other hd) fun _ _ _ _ _ _ => tasksAside_other rfl

theorem fail_attempting
    (h : Knows attempting c (Layers.none Store) fun _ => HasMaximum task.id task.maximum)
    {failure : Failure} : Attempting (fail w now entry task failure) c := by
  refine wp_bind.2 ?_
  unfold failTask storeError
  cases storedText 2000 (truncateError failure.text) with
  | none => trivial
  | some text =>
    refine wp_bind.2 (wp_updateTask (e := .failed task.id w.id) (by simp) h
      (fun db t hdb hmax ha ht hp => ?_) fun _ c₁ ts h₁ => ?_)
    · simp only [Bool.and_eq_true, decide_eq_true_eq] at hp
      obtain ⟨hid, howner⟩ := hp
      obtain ⟨t', ht', hid', hn⟩ := hmax
      have htt' : t' = t := hdb.ids.eq ht' ht (hid'.trans hid.symm)
      subst htt'
      have hle : t'.attempts ≤ task.attempts := ha t' ht hid howner
      have hb := hdb.bounded t' ht
      refine ⟨rfl, rfl, rfl, hb.le, hb.pos, fun hs => ?_⟩
      have hlt := failStatus_waits hs
      show t'.attempts < t'.maxAttempts
      omega
    · exact wp_bind.2 (wp_tasksAside failDomain_aside h₁
        (fun _ c₂ h₂ => h₂.publish h.keeps fun _ _ => trivial) fun _ _ _ => trivial)

theorem retryTask_attempting (h : Knows attempting c (Layers.none Store) fun _ _ => True) {id : UUID} :
    Attempting (retryTask now id) c := by
  have hK := Discipline.keeps_true (D := attempting)
  refine wp_bind.2 (wp_updateTask (e := .retried id) (by simp) h (fun db t hdb _ _ ht hp => ?_)
    fun changed c₁ ts h₁ => ?_)
  · simp only [Bool.and_eq_true, decide_eq_true_eq] at hp
    have hb := hdb.bounded t ht
    exact ⟨rfl, rfl, by simp [Event.attempts, hp.1], Nat.zero_le _, hb.pos, fun _ => hb.pos⟩
  · refine wp_bind.2 (wp_check.2 ⟨fun _ => ?_, fun _ => trivial⟩)
    refine wp_bind.2 (wp_tasksAside (Rows.statements_updateRow tasksAside_lock fun _ _ _ _ => tasksAside_other rfl)
      h₁ (fun _ c₂ h₂ => h₂.publish hK fun _ _ => trivial) fun _ _ _ => trivial)

theorem enqueue_attempting (h : Knows attempting c (Layers.none Store) fun _ _ => True) {id : UUID}
    {type : TaskType} {key : String} {payload : Payload} {maxAttempts : Nat} :
    Attempting (enqueue id type key payload maxAttempts now) c := by
  refine wp_bind.2 (h.insertRow (fun _ _ => trivial) fun c₁ h₁ _ hfree => ?_)
  rw [Layers.lay_none] at hfree
  simp only [Bool.or_eq_false_iff, decide_eq_false_iff_not, List.any_eq_false, Bool.or_eq_true,
    decide_eq_true_eq, not_or] at hfree
  obtain ⟨⟨hpos, -⟩, hno⟩ := hfree
  have hcommit : TaskCommit (.requested id) [{
      id, type, status := .pending, idempotencyKey := key, payload, attempts := 0, maxAttempts
      availableAt := now }] (c₁.held ++ [(.task id, .exclusive), (.taskKey key, .exclusive)]) c₁.db := by
    refine ⟨.single (Or.inr ⟨fun t₀ ht₀ => (hno t₀ ht₀).1, ?_⟩), fun t ht _ => ?_, by simp⟩
    · exact List.mem_append_right _ (List.mem_cons_self ..)
    · cases List.mem_singleton.1 ht
      have hlt : 0 < maxAttempts := by omega
      exact ⟨Nat.zero_le _, hlt, fun _ => hlt⟩
  refine TasksWritten.publish Discipline.keeps_true ⟨_, rfl, h₁.write rfl
    (keeps_taskCommit.and Discipline.keeps_true) ⟨hcommit, trivial⟩⟩ fun _ _ => trivial

theorem claimRequest_aside {item : ClaimedTask} : (claimRequest item).Statements TasksAside :=
  claimRequest_statements tasksAside_lock fun _ _ _ => tasksAside_other rfl

theorem claim_attempting (h : Knows attempting c (Layers.none Store) fun _ _ => True) {pick : UUID}
    {Q : Option ClaimedTask → Ctx Store Lock Event → Prop} (hnone : ∀ c', Q none c')
    (hsome : ∀ c' item, Knows attempting c' (Layers.none Store)
      (fun _ => HasMaximum item.id item.maximum) → Q (some item) c') :
    wp attempting (claim w now pick) Q (fun _ _ => True) c := by
  refine wp_bind.2 (h.lockRow (fun c₁ _ => hnone c₁) fun c₁ t h₁ hl ht hp => ?_)
  rw [Layers.lay_none] at ht
  simp only [Bool.and_eq_true, decide_eq_true_eq] at hp
  have h₂ := (h₁.learn keeps_taskLocked ⟨ht, hl⟩).learn
    (keeps_maximum t.id t.maxAttempts) ⟨t, ht, rfl, rfl⟩
  refine wp_bind.2 (h₂.updateKey (k := t.id) (by simp [tasks]) (fun L db _ hk => ?_)
    fun c₃ x h₃ ha hx hxid => ?_)
  · rw [Layers.lay_none]
    exact ⟨t, hk.1.2.1, rfl⟩
  · rw [h₃.view, Layers.lay_none] at ha
    rw [Layers.lay_none] at hx
    obtain ⟨⟨-, ht₃, -⟩, hmax⟩ := h₃.known
    have hxt : x = t := h₃.inv.ids.eq hx ht₃ hxid
    subst hxt
    have hb := h₃.inv.bounded x ht₃
    have hlt : x.attempts < x.maxAttempts := by
      have hcl := hp.2
      simp only [Task.claimable, Bool.or_eq_true, Bool.and_eq_true, decide_eq_true_eq] at hcl
      rcases hcl with ⟨hs, -⟩ | ⟨hs, -⟩
      · exact hb.left hs
      · exact ha x ht₃ rfl hs
    have hcommit : TaskCommit (.claimed x.id w.id) [{ x with
        status := .running, attempts := x.attempts + 1, startedAt := x.startedAt.or (some now)
        leaseOwner := some w.id, leaseExpiresAt := some (now + w.lease) }]
        (c₃.held ++ [(.task x.id, .exclusive)]) c₃.db := by
      refine .single ht₃ rfl ⟨rfl, by simp [Event.attempts], ⟨hlt, hb.pos, by simp⟩⟩ ?_ ?_
      · exact List.mem_append_right _ (List.mem_singleton_self _)
      · rintro id o ⟨⟩
        rfl
    refine wp_bind.2 (wp_tasksAside claimRequest_aside ⟨_, rfl, h₃.write rfl
      (keeps_taskCommit.and (keeps_maximum _ _)) ⟨hcommit, hmax⟩⟩ (fun _ c₄ h₄ => ?_) fun _ _ _ => trivial)
    exact wp_bind.2 (h₄.publish (keeps_maximum _ _) fun c₅ h₅ => hsome c₅ _ h₅)

theorem QueueCall.keeps (q : QueueCall) (hdb : Attempted db) : Attempting q.call { db := db } := by
  have h : Knows attempting { db := db } (Layers.none Store) fun _ _ => True := .start hdb
  cases q with
  | enqueue id type key payload maxAttempts now => exact enqueue_attempting h
  | runTask w now finished entry pick outcome =>
    refine wp_bind.2 (claim_attempting h (fun _ => trivial) fun c₁ item h₁ => ?_)
    show Attempting (match outcome item with | .ok _ => _ | .error failure => _) c₁
    cases outcome item with
    | ok _ => exact finish_attempting h₁
    | error failure => exact fail_attempting h₁
  | keepLease w now task => exact wp_map.2 (keepLease_attempting h)
  | retryTask now id => exact retryTask_attempting h

/-! ## Runs -/

/-- No task has been claimed more often than its attempts say. -/
structure Started (es : List Event) (db : Store) : Prop where
  starts : ∀ t ∈ db.tasks, starts t.id es ≤ t.attempts
  claimed : ∀ id o, .claimed id o ∈ es → ∃ t ∈ db.tasks, t.id = id

theorem Started.snoc {es : List Event} (h : Started es db) (hdb : Attempted db)
    (hc : TaskCommit e δ.tasks L db) : Started (es ++ [e]) (db.overlay δ) where
  starts t ht := by
    rw [starts_snoc]
    rcases mem_overlay.1 ht with ⟨ht, hno⟩ | ht
    · have hle : e.attempts t.id (Queue.starts t.id es) ≤ Queue.starts t.id es := by
        refine Event.attempts_le fun o he => ?_
        obtain ⟨t', ht', hid, -⟩ := hc.claimed t.id o he
        exact hno t' ht' hid
      exact hle.trans (h.starts t ht)
    · rcases hc.versions.version t ht with ⟨t₀, ht₀, hid, hk, -⟩ | ⟨hf, -⟩
      · rw [hk.2.1, ← hid]
        exact Event.attempts_mono (h.starts t₀ ht₀) e
      · have hzero : Queue.starts t.id es = 0 := starts_eq_zero fun e' he' o heq => by
          obtain ⟨t₀, ht₀, hid⟩ := h.claimed t.id o (heq ▸ he')
          exact hf t₀ ht₀ hid
        have hle : e.attempts t.id 0 ≤ 0 := by
          refine Event.attempts_le fun o he => ?_
          obtain ⟨-, -, -, t₀, ht₀, hid⟩ := hc.claimed t.id o he
          exact hf t₀ ht₀ hid
        rw [hzero]
        exact hle.trans (Nat.zero_le _)
  claimed id o ho := by
    have hold : ∃ t ∈ db.tasks, t.id = id := by
      rcases List.mem_append.1 ho with ho | ho
      · exact h.claimed id o ho
      · obtain ⟨-, -, -, t₀, ht₀, hid⟩ := hc.claimed id o (List.mem_singleton.1 ho).symm
        exact ⟨t₀, ht₀, hid⟩
    obtain ⟨t, ht, hid⟩ := hold
    obtain ⟨t', ht', hid', -⟩ := hc.maximum hdb ht
    exact ⟨t', ht', hid'.trans hid⟩

theorem started_of_commits {db₀ : Store} {es : List Event} (h : attempting.Commits db₀ es db) :
    Started es db := by
  induction h with
  | nil => exact ⟨fun _ _ => Nat.zero_le _, fun _ _ h => (List.not_mem_nil h).elim⟩
  | snoc _ hi hs ih =>
    obtain ⟨δ, rfl, hc⟩ := hs
    exact ih.snoc hi hc

section Runs

variable {ι : Type} [DecidableEq ι] {calls : ι → QueueCall}

/-- The queue over the data `db`, before the first call. -/
def idleQueue (ι : Type) (db : Store) : State ι Site Store Lock Event Err Unit :=
  .initial ι Site Lock Event Err Unit db

/-- **Attempts never exceed the maximum**, and no task is started more often than that, or again once
it has no attempt left. -/
theorem attempts_bounded (hdb : Attempted db) {s : State ι Site Store Lock Event Err Unit}
    (h : ReachableIf (fun i => (calls i).call) heedful (idleQueue ι db) s) :
    (∀ t ∈ s.db.tasks, t.attempts ≤ t.maxAttempts ∧
      starts t.id (s.log.map (·.2)) ≤ t.maxAttempts) ∧
    ∀ s' i id owner, Step (fun i => (calls i).call) heedful s s' →
      s'.log = s.log ++ [(i, .claimed id owner)] →
      ∃ t ∈ s.db.tasks, t.id = id ∧ t.attempts < t.maxAttempts := by
  have hsound : Txn.Sound attempting (fun i => (calls i).call) (fun _ _ _ => True)
      (fun _ _ _ => True) db s := Sound.of_reachable (fun i _ hi => (calls i).keeps hi) hdb h
  refine ⟨fun t ht => ?_, fun s' i id owner hs hlog => ?_⟩
  · have hle := (hsound.inv.bounded t ht).le
    exact ⟨hle, ((started_of_commits hsound.commits).starts t ht).trans hle⟩
  · obtain ⟨L, δ, -, hc⟩ := hsound.step_commit hs hlog
    obtain ⟨t', ht', hid', t₀, ht₀, hid₀⟩ := hc.claimed id owner rfl
    rcases hc.versions.version t' ht' with ⟨t, ht, hid, ⟨hmax, hatt, hb⟩, -⟩ | ⟨hf, -⟩
    · refine ⟨t, ht, hid.trans hid', ?_⟩
      have hle := hb.le
      rw [hmax, hatt] at hle
      simp only [Event.attempts, hid.trans hid', if_true] at hle
      exact hle
    · exact absurd (hid₀.trans hid'.symm) (hf t₀ ht₀)

end Runs

/-! ## A task that crashes its worker -/

/-- A task that may be attempted `n` times. -/
def syncTask (n : Nat) : Store where
  tasks := [{ id := idOf '1', type := .embySync, status := .pending, payload := {}, attempts := 0
              maxAttempts := n, availableAt := 0 }]

/-- Two workers, the second after the lease of the first has expired. -/
def twoWorkers : Fin 2 → QueueCall
  | 0 => .runTask ⟨"worker-1", 90⟩ 0 0 0 (idOf '1') fun _ => .ok ()
  | 1 => .runTask ⟨"worker-2", 90⟩ 91 91 0 (idOf '1') fun _ => .ok ()

theorem syncTask_attempted : Attempted (syncTask 2) where
  ids := uniqueBy_singleton
  bounded t ht := by
    cases List.mem_singleton.1 ht
    exact ⟨by decide, by decide, fun _ => by decide⟩

instance (site : Site) (v : Store) : Decidable (heedful site v) := by
  unfold heedful
  split <;> infer_instance

/-- The second attempt is the last one. -/
theorem attempts_bounded_twoWorkers :
    ∃ s, ReachableIf (fun i => (twoWorkers i).call) heedful (idleQueue (Fin 2) (syncTask 2)) s ∧
      ∃ t ∈ s.db.tasks, t.attempts = 2 ∧ t.attempts ≤ t.maxAttempts ∧
        starts t.id (s.log.map (·.2)) ≤ t.maxAttempts := by
  obtain ⟨s, hs, hf⟩ := replay_any [0, 1] (by decide) (fun i => (twoWorkers i).call) heedful
    (List.replicate 6 0 ++ List.replicate 6 1) (idleQueue (Fin 2) (syncTask 2))
    (fun s => decide (∃ t ∈ s.db.tasks, t.attempts = 2)) (by decide +kernel)
  obtain ⟨t, ht, hn⟩ := of_decide_eq_true hf
  exact ⟨s, hs, t, ht, hn, (attempts_bounded syncTask_attempted hs).1 t ht⟩

/-- **An expired lease is taken over although no attempt is left.** -/
theorem crashedTask_restarted :
    ∃ s, Reachable (fun i => (twoWorkers i).call) (idleQueue (Fin 2) (syncTask 1)) s ∧
      ∃ t ∈ s.db.tasks, t.maxAttempts = 1 ∧ t.attempts = 2 ∧
        starts t.id (s.log.map (·.2)) = 2 := by
  obtain ⟨s, hs, hf⟩ := replay_any [0, 1] (by decide) (fun i => (twoWorkers i).call) (fun _ _ => True)
    (List.replicate 6 0 ++ List.replicate 6 1) (idleQueue (Fin 2) (syncTask 1))
    (fun s => decide (∃ t ∈ s.db.tasks, t.maxAttempts = 1 ∧ t.attempts = 2 ∧
      starts t.id (s.log.map (·.2)) = 2)) (by decide +kernel)
  exact ⟨s, hs, of_decide_eq_true hf⟩

end Sakura.Queue
