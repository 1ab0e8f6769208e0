/-
  Leases.

  A worker claims a task for the duration of a lease and renews the lease while its handler runs.  When
  the lease runs out another worker may claim the task, and the two handlers run side by side.

  * `Running.Holds`, `oneTask`: the lease of a handler, and what the workers of a queue agree on;
  * `queueStep_rows`: what one step does to the rows of the tasks;
  * `Leased`: at most one handler holds the lease of a task, and its row is as it claimed it;
  * `lease_fencing`: a handler whose task was claimed again changes the task no more.
-/
import Sakura.Queue.Workers
import Sakura.Txn.Single

namespace Sakura.Queue

open Txn

variable {γ : Type}

/-! ## Leases -/

/-- The row of its task names the worker as the owner. -/
def Running.Holds (r : Running γ) (db : Store) : Prop :=
  ∃ t ∈ db.tasks, t.id = r.task.id ∧ t.leaseOwner = some r.worker.id

/-- A worker claims a task only when it runs no handler, and the workers have different ids. -/
def oneTask : QueueStep → Workers γ → Prop
  | .claim w _ _, s => ∀ r ∈ s.running, r.worker.id ≠ w.id
  | _, _ => True

/-- What the UPDATEs of the queue leave of a property `Q` of the rows: a renewal, and the end of a
lease. -/
structure LeaseRule (Q : Task → Prop) : Prop where
  renew : ∀ t e, Q t → Q { t with leaseExpiresAt := e }
  release : ∀ t', t'.leaseOwner = none → Q t'

/-- All rows of the tasks have the property. -/
def AllTasks (Q : Task → Prop) (db : Store) : Prop := ∀ t ∈ db.tasks, Q t

section

variable {Q : Task → Prop} {db : Store} {w : Worker} {now : Time} {entry : Nat} {task : ClaimedTask}

/-- A statement that keeps the property of the rows. -/
abbrev KeepsTasks (Q : Task → Prop) : Store → Effect Store Lock → Prop :=
  fun v e => AllTasks Q v → AllTasks Q (e.write v)

theorem keepsTasks_lock (v : Store) (L : Held Lock) : KeepsTasks Q v { locks := L } := fun h => h

theorem keepsTasks_aside {v : Store} {d : Versions} {locks : Held Lock} (hd : d.tasks = []) :
    KeepsTasks Q v ⟨locks, fun s => Layers.lay s d⟩ := by
  intro h t ht
  refine h t ?_
  simpa [Layers.lay, Store.overlay, hd] using ht

theorem keepsTasks_task {v : Store} {t' : Task} {locks : Held Lock} (hQ : Q t') :
    KeepsTasks Q v ⟨locks, fun s => Layers.lay s (tasks.version t')⟩ := by
  intro h x hx
  rcases mem_put.1 (show x ∈ put Task.id v.tasks t' from hx) with ⟨hx, -⟩ | rfl
  · exact h x hx
  · exact hQ

theorem alone_tasks {ε χ α : Type} {p : Prog Site Store Lock ε χ α}
    (hp : p.Effects (KeepsTasks Q)) (h : AllTasks Q db) : AllTasks Q (p.alone db).1 :=
  Prog.alone_maintains hp.maintains h

theorem claimRequest_tasks {item : ClaimedTask} : (claimRequest item).Statements (KeepsTasks Q) :=
  claimRequest_statements keepsTasks_lock fun _ _ _ => keepsTasks_aside rfl

theorem claim_tasks {pick : UUID}
    (hclaim : ∀ t', t'.status = .running → t'.leaseOwner = some w.id → Q t') :
    (claim w now pick).Effects (KeepsTasks Q) := by
  unfold claim
  refine (Rows.statements_lockRow keepsTasks_lock).effects.bind fun o => ?_
  cases o with
  | none => exact Prog.effects_pure
  | some t =>
    refine (Rows.statements_updateRow keepsTasks_lock fun v t _ _ => ?_).effects.bind fun _ => ?_
    · exact keepsTasks_task (hclaim _ rfl rfl)
    exact claimRequest_tasks.effects.bind fun _ => Prog.effects_publish.bind fun _ =>
      Prog.effects_pure

theorem keepLease_tasks (hQ : LeaseRule Q) {taskID : UUID} :
    (keepLease w now taskID).Effects (KeepsTasks Q) := by
  unfold keepLease
  refine (Rows.statements_updateRow keepsTasks_lock fun v t ht _ => ?_).effects.bind
    fun _ => Prog.effects_publish.bind fun _ => Prog.effects_pure
  exact fun h => keepsTasks_task (hQ.renew t _ (h t ht)) h

theorem finish_tasks (hQ : LeaseRule Q) : (finish w now task).Effects (KeepsTasks Q) := by
  unfold finish
  refine (Rows.statements_updateRow keepsTasks_lock fun v t _ _ => ?_).effects.bind
    fun _ => Prog.effects_publish
  exact keepsTasks_task (hQ.release _ rfl)

theorem failDomain_tasks {status : TaskStatus} {message : Bytes} :
    (failDomain w now entry task status message).Statements (KeepsTasks Q) :=
  failDomain_statements keepsTasks_lock (fun ht _ _ _ => keepsTasks_aside ht)
    fun _ _ _ _ _ _ => keepsTasks_aside rfl

theorem fail_tasks (hQ : LeaseRule Q) {failure : Failure} :
    (fail w now entry task failure).Effects (KeepsTasks Q) := by
  unfold fail
  refine (storeError_statements keepsTasks_lock fun text v t _ _ => ?_).effects.bind fun _ =>
    failDomain_tasks.effects.bind fun _ => Prog.effects_publish
  exact keepsTasks_task (hQ.release _ rfl)

theorem retryTask_tasks (hQ : LeaseRule Q) {id : UUID} :
    (retryTask now id).Effects (KeepsTasks Q) := by
  unfold retryTask
  refine (Rows.statements_updateRow keepsTasks_lock fun v t _ _ => ?_).effects.bind fun _ =>
    Prog.statements_check.effects.bind fun _ =>
      (Rows.statements_updateRow keepsTasks_lock fun _ _ _ _ => ?_).effects.bind
        fun _ => Prog.effects_publish
  · exact keepsTasks_task (hQ.release _ rfl)
  · exact keepsTasks_aside rfl

end

/-- **What a step does to the rows of the tasks**: a property that renewals and the ends of leases keep,
and that the rows have which a worker claims, all rows keep. -/
theorem queueStep_rows {start : γ} {outcome : γ → Option (Option Failure)} {l : QueueStep}
    {s s' : Workers γ} (h : s.queueStep start outcome l = some s') {Q : Task → Prop}
    (hQ : LeaseRule Q)
    (hclaim : ∀ w now pick, l = .claim w now pick → ∀ t', t'.status = .running →
      t'.leaseOwner = some w.id → Q t')
    (h₀ : AllTasks Q s.db) : AllTasks Q s'.db := by
  cases l with
  | claim w now pick =>
    simp only [Workers.queueStep] at h
    split at h
    · next db task hc =>
      cases h
      have hdb : db = ((claim w now pick).alone s.db).1 := by rw [hc]
      exact hdb ▸ alone_tasks (claim_tasks (hclaim w now pick rfl)) h₀
    · cases h
  | keepLease w now id =>
    cases h
    exact alone_tasks (keepLease_tasks hQ) h₀
  | retryTask now id =>
    cases h
    exact alone_tasks (retryTask_tasks hQ) h₀
  | settle n now entry =>
    simp only [Workers.queueStep] at h
    split at h
    · cases h
    · next r hr =>
      split at h
      · cases h
      · cases h
        exact alone_tasks (finish_tasks hQ) h₀
      · cases h
        exact alone_tasks (fail_tasks hQ) h₀
  | crash n =>
    cases h
    exact h₀

/-! ## A claim -/

section

variable {w : Worker} {now : Time} {db db' : Store} {item : ClaimedTask}

/-- The row of a claimed task. -/
def Task.ClaimedBy (w : Worker) (item : ClaimedTask) (t : Task) : Prop :=
  t.leaseOwner = some w.id ∧ t.attempts = item.attempts ∧ t.maxAttempts = item.maximum

/-- **What a worker has claimed** is the row as the claim leaves it. -/
theorem claim_row {pick : UUID} (hids : UniqueBy Task.id db.tasks)
    (h : (claim w now pick).alone db = (db', .ok (some item))) :
    ∀ t ∈ db'.tasks, t.id = item.id → t.ClaimedBy w item := by
  have hres : ((claim w now pick).eval db id).2.2 = .ok (some item) := congrArg Prod.snd h
  have hdb : ((claim w now pick).eval db id).1 = db' := congrArg Prod.fst h
  unfold claim at hres hdb
  obtain ⟨o, v, w₁, hlock, hv, heval⟩ := Prog.eval_bind_run
    (Rows.statements_lockRow (S := fun _ _ => True) fun _ _ => trivial) hres
  rw [heval] at hres hdb
  obtain ⟨rfl, hrow⟩ := Prog.run_lockRow hlock
  cases o with
  | none => cases hres
  | some t =>
    obtain ⟨ht, -⟩ := hrow t rfl
    obtain ⟨o', v₂, w₂, hupdate, hv₂, heval⟩ :=
      Prog.eval_bind_run (Rows.statements_updateRow (S := fun _ _ => True) (fun _ _ => trivial)
        fun _ _ _ _ => trivial) hres
    rw [heval] at hres hdb
    obtain ⟨_, v₃, w₃, hrequest, hv₃, heval⟩ :=
      Prog.eval_bind_run (S := KeepsTasks fun t' => t'.id = t.id → t'.ClaimedBy w
        ⟨t.id, t.type, t.payload, t.attempts + 1, t.maxAttempts⟩) claimRequest_tasks hres
    rw [heval] at hres hdb
    cases hres
    -- the UPDATE has found the row that was locked
    have hclaimed : AllTasks (fun t' => t'.id = t.id → t'.ClaimedBy w
        ⟨t.id, t.type, t.payload, t.attempts + 1, t.maxAttempts⟩) v₂ := by
      rw [hv] at hupdate
      rcases Prog.run_updateRow hupdate with ⟨-, hno⟩ | ⟨x, hx, hp, rfl⟩
      · exact absurd (decide_eq_true rfl) (hno t ht)
      · have hxt : x = t := hids.eq hx ht (of_decide_eq_true hp)
        subst hxt
        intro t' ht' hid
        rcases mem_put.1 (show t' ∈ put Task.id v.tasks _ from ht') with ⟨-, hne⟩ | rfl
        · exact absurd hid hne
        · exact ⟨rfl, rfl, rfl⟩
    have hdb' : db' = v₃ := by
      rw [← hdb, ← hv₃]
      rfl
    rw [hdb']
    exact Prog.run_statements (fun v e hS => hS) claimRequest_tasks hclaimed (hv₂ ▸ hrequest)

end

/-! ## Handlers -/

/-- What the lease of a handler is worth. -/
structure Leased (s : Workers γ) : Prop where
  ids : UniqueBy Task.id s.db.tasks
  running : AllTasks (fun t => t.leaseOwner ≠ none → t.status = .running) s.db
  apart : (s.running.map fun r => r.worker.id).Nodup
  claimed : ∀ r ∈ s.running, AllTasks (fun t => t.id = r.task.id →
    t.leaseOwner = some r.worker.id → t.ClaimedBy r.worker r.task) s.db

section

variable {start : γ} {outcome : γ → Option (Option Failure)} {l : QueueStep} {s s' : Workers γ}
  {r r' : Running γ}

theorem owned_rule : LeaseRule fun t => t.leaseOwner ≠ none → t.status = .running :=
  ⟨fun _ _ h => h, fun _ h hne => absurd h hne⟩

theorem claimedBy_rule (w : Worker) (item : ClaimedTask) :
    LeaseRule fun t => t.id = item.id → t.leaseOwner = some w.id → t.ClaimedBy w item :=
  ⟨fun _ _ h => h, fun _ h _ howner => by rw [h] at howner; cases howner⟩

theorem unheld_rule (id : UUID) (owner : String) :
    LeaseRule fun t => t.id = id → t.leaseOwner ≠ some owner :=
  ⟨fun _ _ h => h, fun _ h _ howner => by rw [h] at howner; cases howner⟩

/-- The handlers after a step ran before it, but for one that has claimed its task. -/
theorem queueStep_running (h : s.queueStep start outcome l = some s') :
    s'.running.Sublist s.running ∨ ∃ w now pick db item, l = .claim w now pick ∧
      (claim w now pick).alone s.db = (db, .ok (some item)) ∧
      s' = ⟨db, s.running ++ [⟨w, item, start⟩]⟩ := by
  cases l with
  | claim w now pick =>
    simp only [Workers.queueStep] at h
    split at h
    · next db item hc =>
      cases h
      exact Or.inr ⟨w, now, pick, db, item, rfl, hc, rfl⟩
    · cases h
  | keepLease w now id =>
    cases h
    exact Or.inl (.refl _)
  | retryTask now id =>
    cases h
    exact Or.inl (.refl _)
  | settle n now entry =>
    simp only [Workers.queueStep] at h
    split at h
    · cases h
    · split at h
      · cases h
      · cases h
        exact Or.inl (List.eraseIdx_sublist _ _)
      · cases h
        exact Or.inl (List.eraseIdx_sublist _ _)
  | crash n =>
    cases h
    exact Or.inl (List.eraseIdx_sublist _ _)

theorem queueStep_leased (hl : oneTask l s) (h : s.queueStep start outcome l = some s')
    (hs : Leased s) : Leased s' := by
  have hids : UniqueBy Task.id s'.db.tasks := (queueStep_work h).1.ids hs.ids
  have hrunning := queueStep_rows h owned_rule (fun _ _ _ _ _ hstatus _ _ => hstatus) hs.running
  -- a handler that runs on: the owner of its row changes only to another
  have hkeeps : ∀ r ∈ s.running, AllTasks (fun t => t.id = r.task.id →
      t.leaseOwner = some r.worker.id → t.ClaimedBy r.worker r.task) s'.db := by
    intro r hr
    refine queueStep_rows h (claimedBy_rule r.worker r.task) ?_ (hs.claimed r hr)
    rintro w now pick rfl t' - howner - howner'
    exact absurd (Option.some.inj (howner'.symm.trans howner)) (hl r hr)
  rcases queueStep_running h with hsub | ⟨w, now, pick, db, item, rfl, hc, rfl⟩
  · exact { ids := hids, running := hrunning, apart := (hsub.map _).nodup hs.apart
            claimed := fun r hr => hkeeps r (hsub.subset hr) }
  · refine { ids := hids, running := hrunning, apart := ?_, claimed := fun r hr => ?_ }
    · rw [List.map_append, List.nodup_append]
      refine ⟨hs.apart, List.nodup_singleton _, ?_⟩
      rintro id hid id' hid' rfl
      obtain ⟨r, hr, rfl⟩ := List.mem_map.1 hid
      exact hl r hr (List.mem_singleton.1 hid')
    · rcases List.mem_append.1 hr with hr | hr
      · exact hkeeps r hr
      · cases List.mem_singleton.1 hr
        exact fun t ht hid _ => claim_row hs.ids hc t ht hid

/-- Two handlers do not hold the lease of one task. -/
theorem Leased.holds_inj (hs : Leased s) (hr : r ∈ s.running) (hr' : r' ∈ s.running)
    (htask : r.task.id = r'.task.id) (h : r.Holds s.db) (h' : r'.Holds s.db) : r = r' := by
  obtain ⟨t, ht, hid, howner⟩ := h
  obtain ⟨t', ht', hid', howner'⟩ := h'
  have htt : t = t' := hs.ids.eq ht ht' (by rw [hid, hid', htask])
  subst htt
  exact List.inj_on_of_nodup_map hs.apart hr hr' (Option.some.inj (howner.symm.trans howner'))

/-- A handler without the lease of its task does not get it back. -/
theorem queueStep_unheld (hl : oneTask l s) (hr : r ∈ s.running)
    (h : s.queueStep start outcome l = some s') (hno : ¬r.Holds s.db) : ¬r.Holds s'.db := by
  have hrows : AllTasks (fun t => t.id = r.task.id → t.leaseOwner ≠ some r.worker.id) s'.db := by
    refine queueStep_rows h (unheld_rule r.task.id r.worker.id) ?_
      fun t ht hid howner => hno ⟨t, ht, hid, howner⟩
    rintro w now pick rfl t' - howner - howner'
    exact absurd (Option.some.inj (howner'.symm.trans howner)) (hl r hr)
  exact fun ⟨t, ht, hid, howner⟩ => hrows t ht hid howner

end

/-! ## Handlers without a lease -/

section

variable {w : Worker} {now : Time} {entry : Nat} {task : ClaimedTask} {db : Store}

theorem unheld_update {α : Type} {p : Task → Bool} {set : Task → Task} {site : UUID → Site}
    {f : Option Task → Call α} (hno : ∀ t ∈ db.tasks, ¬p t) :
    (tasks.updateRow p set site >>= f).alone db = (f none).alone db := by
  have hid : (fun s : Store => Layers.lay s (Layers.none Store)) = id := funext Layers.lay_none
  have h : Does (tasks.updateRow p set site : Call (Option Task)) db (Layers.none Store) db
      (Layers.none Store) none := does_updateRow_none (by rwa [Layers.lay_none])
  unfold Does at h
  rw [hid] at h
  unfold Prog.alone
  rw [Prog.eval_bind, h]

theorem keepLease_unheld (hno : ∀ t ∈ db.tasks, t.id = task.id → t.leaseOwner ≠ some w.id) :
    (keepLease w now task.id).alone db = (db, .ok false) := by
  unfold keepLease
  rw [unheld_update fun t ht => by simpa using fun hid _ => hno t ht hid]
  rfl

theorem finish_unheld (hno : ∀ t ∈ db.tasks, t.id = task.id → t.leaseOwner ≠ some w.id) :
    (finish w now task).alone db = (db, .ok ()) := by
  unfold finish
  rw [unheld_update fun t ht => by simpa using hno t ht]
  rfl

/-- What `fail` writes without the lease are rows of the domain. -/
theorem fail_unheld (hno : ∀ t ∈ db.tasks, t.id = task.id → t.leaseOwner ≠ some w.id)
    {failure : Failure} : ((fail w now entry task failure).alone db).1.tasks = db.tasks := by
  have haside : ∀ {v : Store} {d : Versions}, d.tasks = [] → v.tasks = db.tasks →
      (Layers.lay v d : Store).tasks = db.tasks := by
    intro v d hd hv
    simpa [Layers.lay, Store.overlay, hd] using hv
  refine Prog.alone_maintains (I := fun v : Store => v.tasks = db.tasks) (Prog.Effects.maintains ?_) rfl
  unfold fail
  refine (storeError_statements (fun (_ : Store) _ h => h)
    fun text (v : Store) t ht hp hv => ?_).effects.bind fun _ =>
      (failDomain_statements (fun (_ : Store) _ h => h) (fun ht _ _ _ => haside ht)
        fun _ _ _ _ _ _ => haside rfl).effects.bind fun _ => Prog.effects_publish
  simp only [Bool.and_eq_true, decide_eq_true_eq] at hp
  exact absurd hp.2 (hno t (hv ▸ ht) hp.1)

end

/-! ## Runs -/

variable {start : γ} {outcome : γ → Option (Option Failure)} {s₀ s s₁ s' : Workers γ}
  {r : Running γ}

theorem leased_start (hids : UniqueBy Task.id s₀.db.tasks) (hidle : s₀.running = [])
    (hfree : ∀ t ∈ s₀.db.tasks, t.leaseOwner = none) : Leased s₀ where
  ids := hids
  running t ht hne := absurd (hfree t ht) hne
  apart := by simp [hidle]
  claimed r hr := by simp [hidle] at hr

theorem Runs.leased {allowed : QueueStep → Workers γ → Prop}
    (h : Runs (Workers.queueStep start outcome) allowed s s')
    (hallowed : ∀ l t, allowed l t → oneTask l t) (hs : Leased s) : Leased s' :=
  h.keeps hs fun l _ _ hl hstep ht => queueStep_leased (hallowed l _ hl) hstep ht

/-- **Leases fence the handlers off.**  Workers with different ids run the queue, in any order of their
steps.  When the task of a handler is claimed again, the lease of the handler had expired, if it held
it; and as long as the handler runs on, none of what it does changes the task. -/
theorem lease_fencing (hids : UniqueBy Task.id s₀.db.tasks) (hidle : s₀.running = [])
    (hfree : ∀ t ∈ s₀.db.tasks, t.leaseOwner = none)
    (h : Runs (Workers.queueStep start outcome) oneTask s₀ s) (hr : r ∈ s.running)
    {w : Worker} {now : Time} (hw : oneTask (.claim w now r.task.id) s)
    (hclaim : s.queueStep start outcome (.claim w now r.task.id) = some s₁)
    (h' : Runs (Workers.queueStep start outcome) (fun l t => oneTask l t ∧ r ∈ t.running) s₁ s') :
    (r.Holds s.db → ∃ t ∈ s.db.tasks, t.id = r.task.id ∧ t.ClaimedBy r.worker r.task ∧
        t.status = .running ∧ t.leaseExpiresAt.any (· < now)) ∧
      (∀ r₁ ∈ s'.running, ∀ r₂ ∈ s'.running, r₁.task.id = r₂.task.id → r₁.Holds s'.db →
        r₂.Holds s'.db → r₁ = r₂) ∧
      ∀ now, (keepLease r.worker now r.task.id).alone s'.db = (s'.db, .ok false) ∧
        (finish r.worker now r.task).alone s'.db = (s'.db, .ok ()) ∧
        ∀ entry failure, ((fail r.worker now entry r.task failure).alone s'.db).1.tasks =
          s'.db.tasks := by
  have hs : Leased s := Runs.leased h (fun _ _ => id) (leased_start hids hidle hfree)
  have hs₁ : Leased s₁ := queueStep_leased hw hclaim hs
  have hs' : Leased s' := Runs.leased h' (fun _ _ => And.left) hs₁
  -- the claim makes another worker the owner
  have hlost : ¬r.Holds s₁.db := by
    simp only [Workers.queueStep] at hclaim
    split at hclaim
    · next db item hc =>
      cases hclaim
      obtain ⟨t₀, -, hpick, -, hitem⟩ := claim_alone hc
      have hid : item.id = r.task.id := by rw [hitem, ← hpick]
      rintro ⟨t, ht, htask, howner⟩
      have howner' := (claim_row hs.ids hc t ht (htask.trans hid.symm)).1
      exact hw r hr (Option.some.inj (howner.symm.trans howner'))
    · cases hclaim
  have hlost' : ¬r.Holds s'.db :=
    h'.keeps hlost fun l _ _ hl hstep hno => queueStep_unheld hl.1 hl.2 hstep hno
  have hno : ∀ t ∈ s'.db.tasks, t.id = r.task.id → t.leaseOwner ≠ some r.worker.id :=
    fun t ht hid howner => hlost' ⟨t, ht, hid, howner⟩
  refine ⟨?_, fun r₁ h₁ r₂ h₂ => hs'.holds_inj h₁ h₂, fun now =>
    ⟨keepLease_unheld hno, finish_unheld hno, fun entry failure => fail_unheld hno⟩⟩
  -- a task whose lease is held can be claimed only once the lease has expired
  rintro ⟨t, ht, hid, howner⟩
  have hstatus : t.status = .running := hs.running t ht (by simp [howner])
  simp only [Workers.queueStep] at hclaim
  split at hclaim
  · next db item hc =>
    obtain ⟨t', ht', hpick, hclaimable, -⟩ := claim_alone hc
    have htt : t' = t := hs.ids.eq ht' ht (hpick.trans hid.symm)
    subst htt
    refine ⟨t', ht', hid, hs.claimed r hr t' ht' hid howner, hstatus, ?_⟩
    simpa [Task.claimable, hstatus] using hclaimable
  · cases hclaim

/-! ## An expired lease -/

/-- A synchronization that waits. -/
def waitingSync : Workers Unit where
  db := { tasks := [
    { id := idOf '1', type := .embySync, status := .pending, payload := {}, attempts := 0
      maxAttempts := 8, availableAt := 0 }] }

/-- Handlers that end well. -/
def syncStep : QueueStep → Workers Unit → Option (Workers Unit) :=
  Workers.queueStep () fun _ => some none

/-- Another worker, when the lease of 90 has run out. -/
def takeOver : QueueStep := .claim ⟨"worker-2", 90⟩ 91 (idOf '1')

instance (l : QueueStep) (s : Workers γ) : Decidable (oneTask l s) := by
  unfold oneTask
  split <;> infer_instance

/-- The second worker has claimed the task; what the first then does is in vain. -/
theorem lease_fencing_expired :
    ∃ s : Workers Unit, ∃ r ∈ s.running, r.worker.id = "worker-1" ∧
      (∃ t ∈ s.db.tasks, t.id = r.task.id ∧ t.leaseOwner = some "worker-2") ∧
      (keepLease r.worker 120 r.task.id).alone s.db = (s.db, .ok false) ∧
      (finish r.worker 120 r.task).alone s.db = (s.db, .ok ()) := by
  obtain ⟨s, hs, hp⟩ := play_any syncStep oneTask [.claim ⟨"worker-1", 90⟩ 0 (idOf '1')] waitingSync
    (fun s => decide (∃ r ∈ s.running, r.worker.id = "worker-1" ∧ r.task.id = idOf '1') &&
      decide (oneTask takeOver s) && (syncStep takeOver s).any fun s' : Workers Unit =>
        decide (∃ t ∈ s'.db.tasks, t.id = idOf '1' ∧ t.leaseOwner = some "worker-2"))
    (by decide +kernel)
  simp only [Bool.and_eq_true, decide_eq_true_eq, Option.any_eq_true] at hp
  obtain ⟨⟨⟨r, hr, hworker, htask⟩, hone⟩, s', hclaim, howner⟩ := hp
  have hr' : r ∈ s'.running := by
    simp only [syncStep, takeOver, Workers.queueStep] at hclaim
    split at hclaim
    · cases hclaim
      exact List.mem_append_left _ hr
    · cases hclaim
  rw [← htask] at howner
  rw [takeOver, ← htask] at hone hclaim
  have hvain := (lease_fencing uniqueBy_singleton rfl (by simp [waitingSync]) hs hr hone hclaim
    .refl).2.2 120
  exact ⟨s', r, hr', hworker, howner, hvain.1, hvain.2.1⟩

end Sakura.Queue
