/-
  Workers and their handlers, step by step.

  A transaction of the queue is one step: it locks the row of its task before it writes.  A handler goes
  through stages, one for each of its statements and calls; other steps may come between any two.

  * `Running`, `Workers`, `QueueStep`, `Workers.queueStep`: the handlers that run, and the steps of the
    queue around them;
  * `Work`: what the transactions of the queue leave of the tasks;
  * `claim_alone`: the task that a worker claims;
  * `queueStep_work`: all of it for one step.
-/
import Sakura.Queue.Statements
import Sakura.Txn.Alone
import Sakura.Txn.Machine

namespace Sakura.Queue

open Txn

variable {γ : Type}

/-! ## Steps -/

/-- A worker with the task that it has claimed, and where its handler is. -/
structure Running (γ : Type) where
  worker : Worker
  task : ClaimedTask
  stage : γ

structure Workers (γ : Type) where
  db : Store
  running : List (Running γ) := []

/-- `n` is the number of a handler that runs; `entry` the next value of the sequence of the timeline. -/
inductive QueueStep where
  | claim (worker : Worker) (now : Time) (pick : UUID)
  | keepLease (worker : Worker) (now : Time) (taskID : UUID)
  | retryTask (now : Time) (id : UUID)
  | settle (n : Nat) (now : Time) (entry : Nat)
  | crash (n : Nat)

/-- A claimed task starts at the stage `start`; `outcome` says how a handler has ended, with its error. -/
def Workers.queueStep (start : γ) (outcome : γ → Option (Option Failure)) :
    QueueStep → Workers γ → Option (Workers γ)
  | .claim w now pick, s =>
    match (claim w now pick).alone s.db with
    | (db, .ok (some task)) => some ⟨db, s.running ++ [⟨w, task, start⟩]⟩
    | _ => none
  | .keepLease w now id, s => some { s with db := ((keepLease w now id).alone s.db).1 }
  | .retryTask now id, s => some { s with db := ((retryTask now id).alone s.db).1 }
  | .settle n now entry, s =>
    match s.running[n]? with
    | none => none
    | some r => match outcome r.stage with
      | none => none
      | some none => some ⟨((finish r.worker now r.task).alone s.db).1, s.running.eraseIdx n⟩
      | some (some failure) =>
        some ⟨((fail r.worker now entry r.task failure).alone s.db).1, s.running.eraseIdx n⟩
  | .crash n, s => some { s with running := s.running.eraseIdx n }

/-- `INSERT INTO platform_tasks`, with the defaults of the table. -/
def insertTask (taskID : UUID) (type : TaskType) (idempotencyKey : String) (payload : Payload)
    (now : Time) (tasks : List Task) : Except Err (List Task) :=
  if tasks.any fun t => t.id = taskID || t.idempotencyKey = idempotencyKey then .error .database
  else .ok (tasks ++ [
    { id := taskID, type, status := .pending, idempotencyKey, payload, attempts := 0
      maxAttempts := 8, availableAt := now }])

/-! ## Tasks -/

/-- What no transaction changes of a task. -/
def Task.Same (t t' : Task) : Prop := t'.id = t.id ∧ t'.type = t.type ∧ t'.payload = t.payload

/-- What the transactions of the queue leave: the tasks, where only those of `done` have come to their
end, and the bindings. -/
structure Work (done : UUID → Prop) (db db' : Store) : Prop where
  ids : UniqueBy Task.id db.tasks → UniqueBy Task.id db'.tasks
  tasks : ∀ t' ∈ db'.tasks, ∃ t ∈ db.tasks, t.Same t' ∧
    (t'.status = .succeeded → t.status = .succeeded ∨ done t.id)
  kept : ∀ t ∈ db.tasks, ∃ t' ∈ db'.tasks, t'.id = t.id
  bindings : db'.bindings = db.bindings
  instances : db'.instances = db.instances

section

variable {done done' : UUID → Prop} {db db' db'' : Store}

theorem Work.refl (done : UUID → Prop) (db : Store) : Work done db db where
  ids h := h
  tasks t ht := ⟨t, ht, ⟨rfl, rfl, rfl⟩, Or.inl⟩
  kept t ht := ⟨t, ht, rfl⟩
  bindings := rfl
  instances := rfl

theorem Work.trans (h : Work done db db') (h' : Work done db' db'') : Work done db db'' where
  ids hu := h'.ids (h.ids hu)
  tasks t'' ht'' := by
    obtain ⟨t', ht', ⟨hid', htype', hp'⟩, hs'⟩ := h'.tasks t'' ht''
    obtain ⟨t, ht, ⟨hid, htype, hp⟩, hs⟩ := h.tasks t' ht'
    refine ⟨t, ht, ⟨hid'.trans hid, htype'.trans htype, hp'.trans hp⟩, fun hd => ?_⟩
    rcases hs' hd with hd | hd
    · exact hs hd
    · exact Or.inr (hid ▸ hd)
  kept t ht := by
    obtain ⟨t', ht', hid⟩ := h.kept t ht
    obtain ⟨t'', ht'', hid'⟩ := h'.kept t' ht'
    exact ⟨t'', ht'', hid'.trans hid⟩
  bindings := h'.bindings.trans h.bindings
  instances := h'.instances.trans h.instances

theorem Work.mono (hd : ∀ id, done id → done' id) (h : Work done db db') : Work done' db db' where
  ids := h.ids
  tasks t' ht' := by
    obtain ⟨t, ht, hsame, hs⟩ := h.tasks t' ht'
    exact ⟨t, ht, hsame, fun e => (hs e).imp id (hd _)⟩
  kept := h.kept
  bindings := h.bindings
  instances := h.instances

/-- Versions of other tables. -/
theorem Work.aside {δ : Versions} (ht : δ.tasks = []) (hb : δ.bindings = []) :
    Work done db (db.overlay δ) := by
  have htasks : (db.overlay δ).tasks = db.tasks := by simp [Store.overlay, ht]
  exact { ids := fun h => by rw [htasks]; exact h
          tasks := fun t h => ⟨t, htasks ▸ h, ⟨rfl, rfl, rfl⟩, Or.inl⟩
          kept := fun t h => ⟨t, htasks.symm ▸ h, rfl⟩
          bindings := by simp [Store.overlay, hb]
          instances := rfl }

/-- A version of one task. -/
theorem Work.task {t t' : Task} (ht : t ∈ db.tasks) (hsame : t.Same t')
    (hs : t'.status = .succeeded → t.status = .succeeded ∨ done t.id) :
    Work done db (db.overlay { tasks := [t'] }) := by
  have htasks : (db.overlay { tasks := [t'] }).tasks = put Task.id db.tasks t' := rfl
  have hbindings : (db.overlay { tasks := [t'] }).bindings = db.bindings := by simp [Store.overlay]
  refine { ids := fun h => ?_, tasks := fun x hx => ?_, kept := fun x hx => ?_,
           bindings := hbindings, instances := rfl }
  · rw [htasks]
    exact h.put fun _ _ e => e
  · rcases mem_put.1 (htasks ▸ hx) with ⟨hx, -⟩ | rfl
    · exact ⟨x, hx, ⟨rfl, rfl, rfl⟩, Or.inl⟩
    · exact ⟨t, ht, hsame, hs⟩
  · rw [htasks]
    by_cases he : x.id = t'.id
    · exact ⟨t', mem_put.2 (Or.inr rfl), he.symm⟩
    · exact ⟨x, mem_put.2 (Or.inl ⟨hx, he⟩), rfl⟩

end

theorem insertTask_ok {taskID : UUID} {type : TaskType} {key : String} {payload : Payload}
    {now : Time} {ts ts' : List Task} (h : insertTask taskID type key payload now ts = .ok ts') :
    (∀ t ∈ ts, t.id ≠ taskID) ∧ ∃ t, ts' = ts ++ [t] ∧ t.id = taskID ∧ t.type = type ∧
      t.payload = payload ∧ t.status = .pending := by
  unfold insertTask at h
  split at h
  · cases h
  · next hfree =>
    cases h
    refine ⟨fun t ht e => hfree ?_, _, rfl, rfl, rfl, rfl, rfl⟩
    exact List.any_eq_true.2 ⟨t, ht, by simp [e]⟩

/-! ## Transactions -/

section

variable {done : UUID → Prop} {db : Store} {w : Worker} {now : Time} {entry : Nat}
  {task : ClaimedTask}

/-- The statements of a transaction of the queue. -/
abbrev Works (done : UUID → Prop) : Store → Effect Store Lock → Prop :=
  fun v e => Work done v (e.write v)

theorem claimRequest_works {item : ClaimedTask} : (claimRequest item).Statements (Works done) :=
  claimRequest_statements (fun v _ => .refl done v) fun _ _ _ => .aside rfl rfl

theorem claim_works {pick : UUID} : (claim w now pick).Effects (Works done) := by
  unfold claim
  refine (Rows.statements_lockRow fun v _ => .refl done v).effects.bind fun o => ?_
  cases o with
  | none => exact Prog.effects_pure
  | some t =>
    refine (Rows.statements_updateRow (fun v _ => .refl done v) fun v t ht _ => ?_).effects.bind
      fun _ => ?_
    · exact .task ht ⟨rfl, rfl, rfl⟩ fun h => by cases h
    exact claimRequest_works.effects.bind fun _ => Prog.effects_publish.bind fun _ =>
      Prog.effects_pure

theorem keepLease_works {taskID : UUID} : (keepLease w now taskID).Effects (Works done) := by
  unfold keepLease
  refine (Rows.statements_updateRow (fun v _ => .refl done v) fun v t ht _ => ?_).effects.bind
    fun _ => Prog.effects_publish.bind fun _ => Prog.effects_pure
  exact .task ht ⟨rfl, rfl, rfl⟩ Or.inl

theorem finish_works : (finish w now task).Effects (Works (· = task.id)) := by
  unfold finish
  refine (Rows.statements_updateRow (fun v _ => .refl _ v) fun v t ht hp => ?_).effects.bind
    fun _ => Prog.effects_publish
  simp only [Bool.and_eq_true, decide_eq_true_eq] at hp
  exact .task ht ⟨rfl, rfl, rfl⟩ fun _ => Or.inr hp.1

theorem failStatus_ne_succeeded {permanent : Bool} : failStatus task permanent ≠ .succeeded := by
  unfold failStatus
  split
  · simp
  · split <;> simp

theorem fail_works {failure : Failure} : (fail w now entry task failure).Effects (Works done) := by
  unfold fail
  refine (storeError_statements (fun v _ => .refl done v) fun text v t ht _ => ?_).effects.bind
    fun _ => ?_
  · exact .task ht ⟨rfl, rfl, rfl⟩ fun h => absurd h failStatus_ne_succeeded
  refine (failDomain_statements (fun v _ => .refl done v) ?_ ?_).effects.bind
    fun _ => Prog.effects_publish
  · exact fun ht _ hb _ => .aside ht hb
  · exact fun _ _ _ _ _ _ => .aside rfl rfl

theorem retryTask_works {id : UUID} : (retryTask now id).Effects (Works done) := by
  unfold retryTask
  refine (Rows.statements_updateRow (fun v _ => .refl done v) fun v t ht _ => ?_).effects.bind
    fun _ => ?_
  · exact .task ht ⟨rfl, rfl, rfl⟩ fun h => by cases h
  refine Prog.statements_check.effects.bind fun _ => ?_
  refine (Rows.statements_updateRow (fun v _ => .refl done v) fun _ _ _ _ => ?_).effects.bind
    fun _ => Prog.effects_publish
  exact .aside rfl rfl

theorem work_alone {ε χ α : Type} {p : Prog Site Store Lock ε χ α}
    (h : p.Effects (Works done)) : Work done db (p.alone db).1 :=
  Prog.alone_rel (.refl done) (fun _ _ _ => .trans) h db

/-- **The task that a worker claims.** -/
theorem claim_alone {pick : UUID} {db' : Store} {item : ClaimedTask}
    (h : (claim w now pick).alone db = (db', .ok (some item))) :
    ∃ t ∈ db.tasks, t.id = pick ∧ t.claimable now ∧
      item = ⟨t.id, t.type, t.payload, t.attempts + 1, t.maxAttempts⟩ := by
  have hres : ((claim w now pick).eval db id).2.2 = .ok (some item) := congrArg Prod.snd h
  unfold claim at hres
  obtain ⟨o, db₁, w₁, hlock, hrest⟩ := Prog.eval_bind_ok hres
  cases o with
  | none => cases hrest
  | some t =>
    -- the row as the statement that locks it has found it
    have ht : t ∈ db.tasks ∧ (decide (t.id = pick) && t.claimable now) := by
      unfold Rows.lockRow at hlock
      have hres : ((tasks.lockRow .exclusive fun t => t.id = pick && t.claimable now :
          Call (Option Task)).eval db id).2.2 = .ok (some t) := by
        unfold Rows.lockRow
        rw [hlock]
      obtain ⟨o', db₂, w₂, hread, hfind⟩ := Prog.eval_bind_ok hres
      cases hread
      cases hf : db.tasks.find? fun t => t.id = pick && t.claimable now with
      | none =>
        simp only [tasks, id_eq, hf] at hfind
        cases hfind
      | some r =>
        simp only [tasks, id_eq, hf] at hfind
        have hkey : tasks.find r.id (fun t => t.id = pick && t.claimable now) db = some t := by
          simpa [Prog.exec, Prog.eval, Prog.ofExcept, tasks] using hfind
        obtain ⟨hr, -, hq⟩ := Rows.find_some hkey
        exact ⟨hr, hq⟩
    obtain ⟨hmem, hp⟩ := ht
    simp only [Bool.and_eq_true, decide_eq_true_eq] at hp
    obtain ⟨_, _, _, -, hrest⟩ := Prog.eval_bind_ok hrest
    obtain ⟨_, _, _, -, hrest⟩ := Prog.eval_bind_ok hrest
    obtain ⟨_, _, _, -, hrest⟩ := Prog.eval_bind_ok hrest
    cases hrest
    exact ⟨t, hmem, hp.1, hp.2, rfl⟩

end

/-! ## One step -/

/-- The task of a handler that runs is the row as it was claimed. -/
def Running.Of (r : Running γ) (t : Task) : Prop :=
  r.task.id = t.id ∧ r.task.type = t.type ∧ r.task.payload = t.payload

/-- **A step of the queue**: the tasks change by the work of their handlers that have ended well, and
a handler that starts has claimed a task. -/
theorem queueStep_work {start : γ} {outcome : γ → Option (Option Failure)} {l : QueueStep}
    {s s' : Workers γ} (h : s.queueStep start outcome l = some s') :
    Work (fun id => ∃ r ∈ s.running, r.task.id = id ∧ outcome r.stage = some none) s.db s'.db ∧
      ∀ r ∈ s'.running, r ∈ s.running ∨
        r.stage = start ∧ ∃ t ∈ s.db.tasks, r.Of t ∧ t.status ≠ .succeeded := by
  have herase : ∀ n, ∀ r ∈ s.running.eraseIdx n, r ∈ s.running ∨
      r.stage = start ∧ ∃ t ∈ s.db.tasks, r.Of t ∧ t.status ≠ .succeeded :=
    fun n r hr => Or.inl (List.mem_of_mem_eraseIdx hr)
  cases l with
  | claim w now pick =>
    simp only [Workers.queueStep] at h
    split at h
    · next db task hc =>
      cases h
      have hdb : db = ((claim w now pick).alone s.db).1 := by rw [hc]
      refine ⟨hdb ▸ work_alone claim_works, fun r hr => ?_⟩
      rcases List.mem_append.1 hr with hr | hr
      · exact Or.inl hr
      · cases List.mem_singleton.1 hr
        obtain ⟨t, ht, -, hclaimable, rfl⟩ := claim_alone hc
        refine Or.inr ⟨rfl, t, ht, ⟨rfl, rfl, rfl⟩, fun hs => ?_⟩
        simp [Task.claimable, hs] at hclaimable
    · cases h
  | keepLease w now id =>
    cases h
    exact ⟨work_alone keepLease_works, fun r hr => Or.inl hr⟩
  | retryTask now id =>
    cases h
    exact ⟨work_alone retryTask_works, fun r hr => Or.inl hr⟩
  | settle n now entry =>
    simp only [Workers.queueStep] at h
    split at h
    · cases h
    · next r hr =>
      split at h
      · cases h
      · next ho =>
        cases h
        refine ⟨(work_alone finish_works).mono ?_, herase n⟩
        rintro id rfl
        exact ⟨r, List.mem_of_getElem? hr, rfl, ho⟩
      · next failure ho =>
        cases h
        exact ⟨work_alone fail_works, herase n⟩
  | crash n =>
    cases h
    exact ⟨.refl _ _, herase n⟩

end Sakura.Queue
