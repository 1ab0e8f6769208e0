/-
  The tasks that the workers schedule (platform/tasks.go).

  Every worker calls `ScheduleDue` every half minute.  The key of a task has the number of the interval
  that the time lies in, so that of all workers one creates the task.

  * `Duty`, `Planner`, `scheduleDue`: the tasks that are due, and the call;
  * `Duty.key_inj`: a key tells its duty;
  * `scheduling`: what the calls on the queue agree on, statement by statement;
  * `scheduleDue_keeps`: a schedule never fails, and leaves no duty without a task;
  * `schedule_once`: in every interleaving of schedules with the rest of the queue, each duty has exactly
    one task.
-/
import Sakura.Limits
import Sakura.Settings.Casts
import Sakura.Queue.Attempts
import Sakura.Txn.Settled

namespace Sakura.Queue

open Txn

/-! ## Duties -/

/-- The column `task_type`. -/
def TaskType.text : TaskType → String
  | .embyProvision => "emby.provision"
  | .embySync => "emby.sync"
  | .embyReconcile => "emby.reconcile"
  | .embyImport => "emby.import"
  | .embyPlaybackSync => "emby.playback_sync"
  | .riskAction => "risk.action"
  | .riskRevert => "risk.revert"
  | .mediaMatch => "media.match"
  | .moviepilotSubmit => "moviepilot.submit"
  | .entitlementSync => "entitlement.sync"
  | .embyFavorite => "emby.favorite"
  | .embyFavoriteSync => "emby.favorite_sync"
  | .lineProbe => "line.probe"

/-- `fmt.Sprintf("auto-%d", bucket)` -/
def autoBucket (bucket : Int) : String := "auto-" ++ toString bucket

/-- A task that is due for an instance, a binding or a line in one of its intervals. -/
structure Duty where
  type : TaskType
  target : UUID
  bucket : Int
  deriving DecidableEq

/-- `taskType + ":" + id.String() + ":" + bucket` -/
def Duty.key (d : Duty) : String := Limits.instanceTaskKey d.type.text d.target (autoBucket d.bucket)

/-- `now.Unix()` -/
def unixSeconds (now : Time) : Int := now / 1000000000 - 62135596800

/-- What a schedule finds in the other tables, and the ids that it draws for its tasks.  `setting` is the
value of the row of a setting, and `maxAttempts` that of `emby.task_max_attempts`; `entitled` tells the
bindings with entitlements, and `lines` are those that are enabled and not in maintenance. -/
structure Planner where
  setting : String → Option Settings.Json
  maxAttempts : Nat
  entitled : UUID → Bool
  lines : List UUID
  newID : String → UUID

/-- The seconds of an interval; a setting that is missing, no integer or below `least` is not used. -/
def Planner.interval (p : Planner) (key : String) (least fallback : Int) : Int :=
  match (p.setting key).map Settings.Json.asInteger with
  | some (.value n) => if n < least then fallback else n
  | _ => fallback

/-- `now.Unix() / int64(seconds)` -/
def Planner.bucket (p : Planner) (now : Time) (key : String) (least fallback : Int) : Int :=
  (unixSeconds now).tdiv (p.interval key least fallback)

def Planner.instanceDuties (p : Planner) (now : Time) (id : UUID) : List Duty :=
  [⟨.embySync, id, p.bucket now "emby.sync_interval_seconds" 30 300⟩,
   ⟨.embyReconcile, id, p.bucket now "emby.reconcile_interval_seconds" 60 900⟩,
   ⟨.embyPlaybackSync, id, p.bucket now "playback.sync_interval_seconds" 10 30⟩]

def Planner.bindingDuties (p : Planner) (now : Time) (b : Binding) : List Duty :=
  (if p.entitled b.id then
    [⟨.entitlementSync, b.id, p.bucket now "entitlements.sync_interval_seconds" 60 300⟩]
   else []) ++
  [⟨.embyFavoriteSync, b.id, p.bucket now "favorites.sync_interval_seconds" 300 3600⟩]

def Planner.lineDuties (p : Planner) (now : Time) (id : UUID) : List Duty :=
  [⟨.lineProbe, id, p.bucket now "lines.probe_interval_seconds" 30 300⟩]

/-! ## Calls -/

/-- `for _, a := range as` -/
def forEach {α : Type} (f : α → Call Unit) : List α → Call Unit
  | [] => pure ()
  | a :: as => do
    f a
    forEach f as

/-- `EnqueueInstanceTask` in the loop of a schedule, which passes over `ErrConflict`. -/
def enqueueDuty (p : Planner) (now : Time) (d : Duty) : Call Unit := do
  match ← ((Limits.enqueueInstanceTask (p.newID d.key) now d.type.text d.target (autoBucket d.bucket)
      p.maxAttempts).mapError Limits.Fault.err).attempt with
  | .ok _ => pure ()
  | .error .conflict => pure ()
  | .error x => .fail x

/-- `INSERT INTO platform_tasks … ON CONFLICT(idempotency_key) DO NOTHING` -/
def insertIgnoring (task : Task) : Call Unit := do
  .exec default fun v =>
    if v.tasks.any fun t => t.idempotencyKey = task.idempotencyKey then
      { locks := [(.taskKey task.idempotencyKey, .exclusive)], result := .ok () }
    else
      tasks.inserted (fun v => v.tasks.any fun t => t.id = task.id)
        [(.task task.id, .exclusive), (.taskKey task.idempotencyKey, .exclusive)] task .database v
  .publish (.requested task.id)

/-- The row of a duty, with the default of `max_attempts`. -/
def Planner.task (p : Planner) (now : Time) (payload : Payload) (d : Duty) : Task where
  id := p.newID d.key
  type := d.type
  status := .pending
  idempotencyKey := d.key
  payload
  attempts := 0
  maxAttempts := 8
  availableAt := now

/-- `enqueueBindingTask` -/
def enqueueBindingTask (p : Planner) (now : Time) (b : Binding) (d : Duty) : Call Unit :=
  insertIgnoring (p.task now { instanceId := some b.instanceId, bindingId := some b.id } d)

def scheduleDue (p : Planner) (now : Time) : Call Unit := do
  let ids ← read fun v => (v.instances.filter (·.enabled)).map (·.id)
  forEach (fun id => forEach (enqueueDuty p now) (p.instanceDuties now id)) ids
  let bindings ← read fun v => v.bindings.filter fun b => b.status ≠ .deleted
  forEach (fun b => forEach (enqueueBindingTask p now b) (p.bindingDuties now b)) bindings
  forEach (fun id => forEach (fun d => insertIgnoring (p.task now {} d)) (p.lineDuties now id)) p.lines

/-- What is due at the time `now`. -/
def Planner.duties (p : Planner) (now : Time) (db : Store) : List Duty :=
  ((db.instances.filter (·.enabled)).map (·.id)).flatMap (p.instanceDuties now) ++
    (db.bindings.filter fun b => b.status ≠ .deleted).flatMap (p.bindingDuties now) ++
    p.lines.flatMap (p.lineDuties now)

/-- What happens to the queue. -/
inductive ScheduleCall where
  | queue (call : QueueCall)
  | schedule (planner : Planner) (now : Time)

def ScheduleCall.call : ScheduleCall → Call Unit
  | .queue q => q.call
  | .schedule p now => scheduleDue p now

/-! ## Keys -/

theorem TaskType.colon_notMem (type : TaskType) : ':' ∉ type.text.toList := by
  cases type <;> decide

theorem TaskType.text_inj {type type' : TaskType} (h : type.text = type'.text) : type = type' := by
  cases type <;> cases type' <;> first | rfl | exact absurd h (by decide)

theorem TaskType.length_text (type : TaskType) : type.text.length ≤ 19 := by
  cases type <;> decide

theorem toList_autoBucket (n : Int) : (autoBucket n).toList = "auto-".toList ++ (toString n).toList :=
  String.toList_append

theorem colon_notMem_autoBucket (n : Int) : ':' ∉ (autoBucket n).toList := by
  rw [toList_autoBucket]
  intro h
  rcases List.mem_append.1 h with h | h
  · exact absurd h (by decide)
  · exact colon_notMem_intText n h

/-- **A key tells its duty.** -/
theorem Duty.key_inj {d d' : Duty} (h : d.key = d'.key) : d = d' := by
  have hlist : (d.type.text.toList ++ ':' :: d.target.text.toList) ++ ':' :: (autoBucket d.bucket).toList =
      (d'.type.text.toList ++ ':' :: d'.target.text.toList) ++ ':' :: (autoBucket d'.bucket).toList := by
    have := congrArg String.toList h
    simpa [Duty.key, Limits.instanceTaskKey, String.toList_append] using this
  obtain ⟨hfront, hbucket⟩ := append_cons_inj (colon_notMem_autoBucket _) (colon_notMem_autoBucket _) hlist
  have hlen : (':' :: d.target.text.toList).length = (':' :: d'.target.text.toList).length := by
    rw [List.length_cons, List.length_cons, String.length_toList, String.length_toList, d.target.valid,
      d'.target.valid]
  obtain ⟨htype, htarget⟩ := List.append_inj' hfront hlen
  rw [toList_autoBucket, toList_autoBucket] at hbucket
  have htype' : d.type = d'.type := TaskType.text_inj (String.toList_inj.1 htype)
  have htarget' : d.target = d'.target :=
    UUID.text_inj.1 (String.toList_inj.1 (List.cons.inj htarget).2)
  have hbucket' : d.bucket = d'.bucket := intText_inj (List.append_cancel_left hbucket)
  cases d
  cases d'
  simp_all

/-- The texts of 64-bit numbers. -/
theorem length_intText {n : Int} (h : -2 ^ 63 ≤ n) (h' : n < 2 ^ 63) : (toString n).length ≤ 20 := by
  rw [← String.length_toList, toList_toString]
  split
  · have := (Nat.length_repr_le_iff (n := n.toNat) (k := 19) (by omega)).2 (by omega)
    rw [String.length_toList]
    omega
  · have := (Nat.length_repr_le_iff (n := (-n).toNat) (k := 19) (by omega)).2 (by omega)
    rw [List.length_cons, String.length_toList]
    omega

theorem space_notMem_autoBucket (n : Int) : ∀ c ∈ (autoBucket n).toList, isSpace c = false := by
  intro c hc
  rw [toList_autoBucket, toList_toString] at hc
  rcases List.mem_append.1 hc with hc | hc
  · have hauto : ("auto-".toList.all fun c => !isSpace c) = true := by decide
    simpa only [Bool.not_eq_true'] using List.all_eq_true.1 hauto c hc
  · split at hc
    · exact digit_not_space (isDigit_of_mem_repr hc)
    · rcases List.mem_cons.1 hc with rfl | hc
      · decide
      · exact digit_not_space (isDigit_of_mem_repr hc)

theorem trimSpace_autoBucket (n : Int) : trimSpace (autoBucket n) = autoBucket n :=
  trimSpace_of (space_notMem_autoBucket n)

theorem autoBucket_ne_empty (n : Int) : autoBucket n ≠ "" := by
  intro h
  have := congrArg String.toList h
  rw [toList_autoBucket] at this
  simp at this

theorem bytes_le_length (s : String) : s.utf8ByteSize ≤ 4 * s.length := by
  rw [← String.length_toList]
  show s.toByteArray.size ≤ _
  rw [toByteArray_eq, List.size_toByteArray]
  unfold bytesOf
  induction s.toList with
  | nil => simp
  | cons c cs ih =>
    have hc : (String.utf8EncodeChar c).length ≤ 4 := by
      rw [String.length_utf8EncodeChar]
      exact c.utf8Size_le_four
    rw [List.flatMap_cons, List.length_append, List.length_cons]
    omega

theorem autoBucket_short {n : Int} (h : -2 ^ 63 ≤ n) (h' : n < 2 ^ 63) :
    (autoBucket n).utf8ByteSize ≤ 160 := by
  have hsize := bytes_le_length (autoBucket n)
  have hlen := length_intText h h'
  rw [autoBucket, String.length_append, show "auto-".length = 5 by decide] at hsize
  rw [autoBucket]
  omega

/-! ## Commits -/

/-- What no commit changes of a task. -/
def Task.Alike (t t' : Task) : Prop :=
  t'.id = t.id ∧ t'.idempotencyKey = t.idempotencyKey ∧ t'.type = t.type

theorem Task.Alike.refl (t : Task) : t.Alike t := ⟨rfl, rfl, rfl⟩

theorem Task.Alike.trans {t t' t'' : Task} (h : t.Alike t') (h' : t'.Alike t'') : t.Alike t'' :=
  ⟨h'.1.trans h.1, h'.2.1.trans h.2.1, h'.2.2.trans h.2.2⟩

/-- Where a task may come from, by its id, key and type. -/
abbrev Source := UUID → String → TaskType → Prop

/-- The tables between two commits; the instances and the bindings are `I` and `B`. -/
structure Scheduled (O : Source) (I : List Instance) (B : List Binding) (db : Store) : Prop where
  ids : UniqueBy Task.id db.tasks
  keys : UniqueBy Task.idempotencyKey db.tasks
  source : ∀ t ∈ db.tasks, O t.id t.idempotencyKey t.type
  instances : db.instances = I
  bindings : db.bindings = B

/-- A commit keeps the tasks that there are, and has the locks of those that are new. -/
structure TasksKept (L : Held Lock) (db db' : Store) : Prop where
  kept : ∀ t ∈ db.tasks, ∃ t' ∈ db'.tasks, t.Alike t'
  new : ∀ t' ∈ db'.tasks, (∃ t ∈ db.tasks, t.Alike t') ∨
    Owns L (.task t'.id) ∧ Owns L (.taskKey t'.idempotencyKey)

def scheduling (O : Source) (I : List Instance) (B : List Binding) :
    Discipline Site Store Lock Event where
  inv := Scheduled O I B
  step L db _ db' := TasksKept L db db' ∧ Scheduled O I B db'
  allowed _ _ := True
  step_inv _ h := h.2

variable {O : Source} {I : List Instance} {B : List Binding} {c : Ctx Store Lock Event} {db : Store}

/-- The versions of a transaction that only rewrites tasks. -/
structure Rewrite (db : Store) (δ : Versions) : Prop where
  ids : UniqueBy Task.id δ.tasks
  tasks : ∀ t' ∈ δ.tasks, ∃ t ∈ db.tasks, t.Alike t'
  bindings : δ.bindings = []

theorem Rewrite.none (db : Store) : Rewrite db (Layers.none Store) :=
  ⟨uniqueBy_nil, fun _ h => (List.not_mem_nil h).elim, rfl⟩

theorem Rewrite.merge {δ δ' : Versions} (h : Rewrite db δ) (h' : Rewrite (db.overlay δ) δ') :
    Rewrite db (Layers.merge Store δ δ') where
  ids := h.ids.overlay h'.ids fun _ _ _ _ e => e
  tasks t' ht' := by
    rcases mem_overlay.1 (show t' ∈ Txn.overlay Task.id δ.tasks δ'.tasks from ht') with ⟨ht', -⟩ | ht'
    · exact h.tasks t' ht'
    · obtain ⟨t, ht, halike⟩ := h'.tasks t' ht'
      rcases mem_overlay.1 ht with ⟨ht, -⟩ | ht
      · exact ⟨t, ht, halike⟩
      · obtain ⟨t₀, ht₀, halike₀⟩ := h.tasks t ht
        exact ⟨t₀, ht₀, halike₀.trans halike⟩
  bindings := by
    show Txn.overlay Binding.id δ.bindings δ'.bindings = []
    rw [h.bindings, h'.bindings, overlay_nil]

/-- The tasks under the versions of a rewrite. -/
theorem Rewrite.step {δ : Versions} (h : Rewrite db δ) (hdb : Scheduled O I B db) (L : Held Lock)
    (e : Event) : (scheduling O I B).step L db e (db.overlay δ) := by
  have hids : UniqueBy Task.id (db.overlay δ).tasks := hdb.ids.overlay h.ids fun _ _ _ _ e => e
  have hold : ∀ t' ∈ (db.overlay δ).tasks, ∃ t ∈ db.tasks, t.Alike t' := by
    intro t' ht'
    rcases mem_overlay.1 ht' with ⟨hmem, -⟩ | hmem
    · exact ⟨t', hmem, .refl t'⟩
    · exact h.tasks t' hmem
  refine ⟨⟨fun t ht => ?_, fun t' ht' => Or.inl (hold t' ht')⟩, ⟨hids, ?_, ?_, hdb.instances, ?_⟩⟩
  · obtain ⟨t', ht', hid⟩ : ∃ t' ∈ (db.overlay δ).tasks, t'.id = t.id := exists_overlay δ.tasks ht
    obtain ⟨t₀, ht₀, halike⟩ := hold t' ht'
    rw [hdb.ids.eq ht₀ ht (halike.1.symm.trans hid)] at halike
    exact ⟨t', ht', halike⟩
  · -- rows of one key are versions of one row
    refine (List.nodup_map_iff_inj_on (List.Nodup.of_map _ hids)).2 fun t ht t' ht' hkey => ?_
    obtain ⟨t₀, ht₀, hid, hk, -⟩ := hold t ht
    obtain ⟨t₀', ht₀', hid', hk', -⟩ := hold t' ht'
    have heq : t₀ = t₀' := hdb.keys.eq ht₀ ht₀' (by rw [← hk, ← hk', hkey])
    exact hids.eq ht ht' (by rw [hid, hid', heq])
  · intro t' ht'
    obtain ⟨t, ht, hid, hkey, htype⟩ := hold t' ht'
    rw [hid, hkey, htype]
    exact hdb.source t ht
  · show Txn.overlay Binding.id db.bindings δ.bindings = B
    rw [h.bindings, overlay_nil, hdb.bindings]

/-! ## The rest of the queue -/

/-- The statement only rewrites tasks. -/
def Rewrites (v : Store) (f : Effect Store Lock) : Prop :=
  ∃ d : Versions, Rewrite v d ∧ f.write = fun s => Layers.lay s d

theorem rewrites_lock (v : Store) (L : Held Lock) : Rewrites v { locks := L } :=
  ⟨{}, .none v, funext fun s => (Layers.lay_none s).symm⟩

theorem rewrites_aside {v : Store} {d : Versions} {locks : Held Lock} (ht : d.tasks = [])
    (hb : d.bindings = []) : Rewrites v ⟨locks, fun s => Layers.lay s d⟩ :=
  ⟨d, ⟨by rw [ht]; exact uniqueBy_nil, by simp [ht], hb⟩, rfl⟩

theorem rewrites_task {v : Store} {t t' : Task} {locks : Held Lock} (ht : t ∈ v.tasks)
    (h : t.Alike t') : Rewrites v ⟨locks, fun s => Layers.lay s (tasks.version t')⟩ := by
  refine ⟨{ tasks := [t'] }, ⟨uniqueBy_singleton, fun x hx => ?_, rfl⟩, rfl⟩
  cases List.mem_singleton.1 hx
  exact ⟨t, ht, h⟩

/-- The open transaction has only rewritten tasks. -/
def Rewritten (O : Source) (I : List Instance) (B : List Binding) (c : Ctx Store Lock Event) : Prop :=
  ∃ δ : Versions, c.Wrote δ ∧ Rewrite c.db δ ∧ Scheduled O I B c.db

theorem Rewrite.rely {δ : Versions} {L : Held Lock} {db' : Store} (h : Rewrite db δ)
    (hr : (scheduling O I B).rely L db db') : Rewrite db' δ := by
  refine Discipline.rely_induction (P := fun db => Rewrite db δ) (fun _ _ hs hδ => ⟨hδ.ids, fun t' ht' => ?_, hδ.bindings⟩) hr h
  obtain ⟨t, ht, halike⟩ := hδ.tasks t' ht'
  obtain ⟨x, hx, hx'⟩ := hs.1.kept t ht
  exact ⟨x, hx, halike.1.trans hx'.1.symm, halike.2.1.trans hx'.2.1.symm,
    halike.2.2.trans hx'.2.2.symm⟩

/-- **A call that only rewrites tasks** keeps to the discipline, whatever it commits. -/
theorem wp_rewrites {χ α : Type} {p : Prog Site Store Lock Event χ α} {c : Ctx Store Lock Event}
    (hp : p.Effects Rewrites) (h : Rewritten O I B c) :
    wp (scheduling O I B) p (fun _ => Rewritten O I B) (fun _ => Rewritten O I B) c := by
  refine wp_effects (fun {c c'} h hwait => ?_) (fun {c f} h hf => ?_) (fun {c} e h => ?_)
    (fun {c} h => ?_) hp h
  · obtain ⟨δ, hw, hδ, -⟩ := h
    have hw' : c'.Wrote δ := hw.waits hwait
    obtain ⟨db', hr, hi, rfl⟩ := hwait
    exact ⟨δ, hw', hδ.rely hr, hi⟩
  · obtain ⟨δ, hw, hδ, hdb⟩ := h
    obtain ⟨d, hd, heff⟩ := hf
    rw [hw.view] at hd
    refine ⟨Layers.merge Store δ d, fun s => ?_, hδ.merge hd, hdb⟩
    show f.write (c.writes s) = _
    rw [heff, hw s]
    exact Layers.lay_lay s δ d
  · obtain ⟨δ, hw, hδ, hdb⟩ := h
    have hstep := hδ.step hdb c.held e
    rw [← show c.view = c.db.overlay δ from hw.view] at hstep
    exact ⟨hstep, Layers.none Store, .start, .none _, hstep.2⟩
  · obtain ⟨-, -, -, hdb⟩ := h
    exact ⟨Layers.none Store, .start, .none _, hdb⟩

section

variable {w : Worker} {now : Time} {entry : Nat} {task : ClaimedTask}

theorem claim_rewrites {pick : UUID} : (claim w now pick).Effects Rewrites := by
  unfold claim
  refine (Rows.statements_lockRow rewrites_lock).effects.bind fun o => ?_
  cases o with
  | none => exact Prog.effects_pure
  | some t =>
    refine (Rows.statements_updateRow rewrites_lock fun v t ht _ => ?_).effects.bind fun _ => ?_
    · exact rewrites_task ht ⟨rfl, rfl, rfl⟩
    exact (claimRequest_statements rewrites_lock fun _ _ _ => rewrites_aside rfl rfl).effects.bind
      fun _ => Prog.effects_publish.bind fun _ => Prog.effects_pure

theorem keepLease_rewrites {taskID : UUID} : (keepLease w now taskID).Effects Rewrites := by
  unfold keepLease
  refine (Rows.statements_updateRow rewrites_lock fun v t ht _ => ?_).effects.bind
    fun _ => Prog.effects_publish.bind fun _ => Prog.effects_pure
  exact rewrites_task ht ⟨rfl, rfl, rfl⟩

theorem finish_rewrites : (finish w now task).Effects Rewrites := by
  unfold finish
  refine (Rows.statements_updateRow rewrites_lock fun v t ht _ => ?_).effects.bind
    fun _ => Prog.effects_publish
  exact rewrites_task ht ⟨rfl, rfl, rfl⟩

theorem fail_rewrites {failure : Failure} : (fail w now entry task failure).Effects Rewrites := by
  unfold fail
  refine (storeError_statements rewrites_lock fun text v t ht _ => ?_).effects.bind fun _ =>
    (failDomain_statements rewrites_lock (fun ht _ hb _ => rewrites_aside ht hb)
      fun _ _ _ _ _ _ => rewrites_aside rfl rfl).effects.bind fun _ => Prog.effects_publish
  exact rewrites_task ht ⟨rfl, rfl, rfl⟩

theorem retryTask_rewrites {id : UUID} : (retryTask now id).Effects Rewrites := by
  unfold retryTask
  refine (Rows.statements_updateRow rewrites_lock fun v t ht _ => ?_).effects.bind fun _ =>
    Prog.statements_check.effects.bind fun _ =>
      (Rows.statements_updateRow rewrites_lock fun _ _ _ _ => ?_).effects.bind
        fun _ => Prog.effects_publish
  · exact rewrites_task ht ⟨rfl, rfl, rfl⟩
  · exact rewrites_aside rfl rfl

theorem runTask_rewrites {finished : Time} {pick : UUID} {outcome : ClaimedTask → Except Failure Unit} :
    (runTask w now finished entry pick outcome).Effects Rewrites := by
  unfold runTask
  refine claim_rewrites.bind fun o => ?_
  cases o with
  | none => exact Prog.effects_pure
  | some task =>
    dsimp only
    cases outcome task with
    | ok _ => exact finish_rewrites
    | error failure => exact fail_rewrites

end

/-! ## New tasks -/

/-- There is a task for the key. -/
def HasTask (key : String) (db : Store) : Prop := ∃ t ∈ db.tasks, t.idempotencyKey = key

theorem HasTask.step {key : String} {L : Held Lock} {db db' : Store} (h : HasTask key db)
    (hs : TasksKept L db db') : HasTask key db' := by
  obtain ⟨t, ht, hkey⟩ := h
  obtain ⟨t', ht', -, hkey', -⟩ := hs.kept t ht
  exact ⟨t', ht', hkey'.trans hkey⟩

/-- The keys of `ks` have their tasks. -/
def HasTasks (ks : List String) (db : Store) : Prop := ∀ key ∈ ks, HasTask key db

theorem keeps_hasTasks (ks : List String) :
    (scheduling O I B).Keeps fun _ => HasTasks ks where
  mono _ h := h
  step _ _ hs h key hkey := (h key hkey).step hs.1

/-- The task `t` is new, and its transaction has the locks of it. -/
structure NewTask (t : Task) (L : Held Lock) (db : Store) : Prop where
  ids : ∀ t' ∈ db.tasks, t'.id ≠ t.id
  keys : ∀ t' ∈ db.tasks, t'.idempotencyKey ≠ t.idempotencyKey
  idLock : Owns L (.task t.id)
  keyLock : Owns L (.taskKey t.idempotencyKey)

theorem keeps_newTask (t : Task) : (scheduling O I B).Keeps (NewTask t) where
  mono hLM h := ⟨h.ids, h.keys, h.idLock.mono hLM, h.keyLock.mono hLM⟩
  step := by
    rintro L M db e db' - hc hs h
    refine ⟨fun t' ht' hid => ?_, fun t' ht' hkey => ?_, h.idLock, h.keyLock⟩
    · rcases hs.1.new t' ht' with ⟨t₀, ht₀, halike⟩ | ⟨hl, -⟩
      · exact h.ids t₀ ht₀ (halike.1.symm.trans hid)
      · exact h.idLock.not_owns hc (hid ▸ hl)
    · rcases hs.1.new t' ht' with ⟨t₀, ht₀, halike⟩ | ⟨-, hl⟩
      · exact h.keys t₀ ht₀ (halike.2.1.symm.trans hkey)
      · exact h.keyLock.not_owns hc (hkey ▸ hl)

/-- The commit of a new task. -/
theorem NewTask.step {t : Task} {L : Held Lock} (h : NewTask t L db) (hdb : Scheduled O I B db)
    (ht : O t.id t.idempotencyKey t.type) (e : Event) :
    (scheduling O I B).step L db e (db.overlay { tasks := [t] }) := by
  have htasks : (db.overlay { tasks := [t] }).tasks = db.tasks ++ [t] := by
    refine overlay_of_fresh fun y hy x hx => ?_
    cases List.mem_singleton.1 hy
    exact h.ids x hx
  have hbindings : (db.overlay { tasks := [t] }).bindings = db.bindings := by simp [Store.overlay]
  refine ⟨⟨fun x hx => ⟨x, ?_, .refl x⟩, fun x hx => ?_⟩,
    ⟨?_, ?_, fun x hx => ?_, hdb.instances, hbindings.trans hdb.bindings⟩⟩
  · rw [htasks]
    exact List.mem_append_left _ hx
  · rw [htasks] at hx
    rcases List.mem_append.1 hx with hx | hx
    · exact Or.inl ⟨x, hx, .refl x⟩
    · cases List.mem_singleton.1 hx
      exact Or.inr ⟨h.idLock, h.keyLock⟩
  · rw [htasks]
    exact hdb.ids.snoc h.ids
  · rw [htasks]
    exact hdb.keys.snoc h.keys
  · rw [htasks] at hx
    rcases List.mem_append.1 hx with hx | hx
    · exact hdb.source x hx
    · cases List.mem_singleton.1 hx
      exact ht

/-- An INSERT of a task whose id and key are free where it is not refused. -/
theorem wp_insertTask {K : Held Lock → Store → Prop} {χ : Type} {taken : Store → Bool} {t : Task} {x : χ}
    {site : Site} {Q : Unit → Ctx Store Lock Event → Prop} {E : χ → Ctx Store Lock Event → Prop}
    (h : Knows (scheduling O I B) c (Layers.none Store) K)
    (hfree : ∀ db, taken db = false →
      ∀ t' ∈ db.tasks, t'.id ≠ t.id ∧ t'.idempotencyKey ≠ t.idempotencyKey)
    (hx : ∀ c', Knows (scheduling O I B) c' (Layers.none Store) K → taken c'.db = true → E x c')
    (hQ : ∀ c', Knows (scheduling O I B) c' { tasks := [t] } (fun L db => NewTask t L db ∧ K L db) →
      Q () c') :
    wp (scheduling O I B) (.exec site (tasks.inserted taken
      [(.task t.id, .exclusive), (.taskKey t.idempotencyKey, .exclusive)] t x)) Q E c := by
  refine wp_exec.2 fun c' hw _ => ?_
  have h' := h.waits hw
  have hview : c'.view = c'.db := by rw [h'.view, Layers.lay_none]
  unfold Rows.inserted
  cases ht : taken c'.view with
  | true => exact hx _ h'.lock (hview ▸ ht)
  | false =>
    rw [hview] at ht
    have hnew : NewTask t (c'.held ++
        [(.task t.id, .exclusive), (.taskKey t.idempotencyKey, .exclusive)]) c'.db :=
      ⟨fun t' ht' => (hfree _ ht t' ht').1, fun t' ht' => (hfree _ ht t' ht').2,
        List.mem_append_right _ (by simp), List.mem_append_right _ (by simp)⟩
    exact hQ _ (h'.write rfl ((keeps_newTask t).and h'.keeps)
      ⟨hnew, h'.keeps.mono (List.subset_append_left _ _) h'.known⟩)

theorem enqueue_keeps {now : Time} {id : UUID} {type : TaskType} {key : String} {payload : Payload}
    {maxAttempts : Nat} (h : Knows (scheduling O I B) c (Layers.none Store) fun _ _ => True)
    (hO : O id key type) : wp (scheduling O I B) (enqueue id type key payload maxAttempts now)
      (fun _ _ => True) (fun _ _ => True) c := by
  let t : Task := {
    id, type, status := .pending, idempotencyKey := key, payload, attempts := 0, maxAttempts
    availableAt := now }
  refine wp_bind.2 (wp_insertTask (t := t) h (fun db hfree t' ht' => ?_) (fun _ _ _ => trivial)
    fun c₁ h₁ => ?_)
  · simp only [Bool.or_eq_false_iff, decide_eq_false_iff_not, List.any_eq_false, Bool.or_eq_true,
      decide_eq_true_eq, not_or] at hfree
    exact hfree.2 t' ht'
  · exact h₁.publish Discipline.keeps_true (fun L db hdb hk => ⟨hk.1.step hdb hO _, trivial⟩)
      fun _ _ => trivial

/-- A call that is not a schedule keeps to the discipline, if its tasks have a source. -/
theorem QueueCall.scheduled {q : QueueCall} (hdb : Scheduled O I B db)
    (hO : ∀ id type key payload maxAttempts now, q = .enqueue id type key payload maxAttempts now →
      O id key type) :
    wp (scheduling O I B) q.call (fun _ _ => True) (fun _ _ => True) { db := db } := by
  have hrewritten : Rewritten O I B { db := db } := ⟨Layers.none Store, .start, .none db, hdb⟩
  have hrewrites : ∀ {p : Call Unit}, p.Effects Rewrites →
      wp (scheduling O I B) p (fun _ _ => True) (fun _ _ => True) { db := db } := fun hp =>
    wp_mono (fun _ _ _ => trivial) (fun _ _ _ => trivial) (wp_rewrites hp hrewritten)
  cases q with
  | enqueue id type key payload maxAttempts now => exact enqueue_keeps (.start hdb) (hO _ _ _ _ _ _ rfl)
  | runTask w now finished entry pick outcome => exact hrewrites runTask_rewrites
  | keepLease w now task => exact hrewrites (keepLease_rewrites.bind fun _ => Prog.effects_pure)
  | retryTask now id => exact hrewrites retryTask_rewrites

/-! ## A schedule -/

/-- No transaction is open, and the keys of `ks` have their tasks. -/
abbrev AtRest (O : Source) (I : List Instance) (B : List Binding) (ks : List String)
    (c : Ctx Store Lock Event) : Prop :=
  Knows (scheduling O I B) c (Layers.none Store) fun _ => HasTasks ks

/-- The draw of a schedule for a duty, and that its key fits its column. -/
structure Duty.Planned (O : Source) (p : Planner) (d : Duty) : Prop where
  source : O (p.newID d.key) d.key d.type
  drawn : ∀ key type, O (p.newID d.key) key type → key = d.key
  lower : -2 ^ 63 ≤ d.bucket
  upper : d.bucket < 2 ^ 63

variable {p : Planner} {now : Time} {d : Duty} {ks : List String}

theorem hasTasks_snoc {key : String} (h : HasTasks ks db) (h' : HasTask key db) :
    HasTasks (ks ++ [key]) db := by
  intro k hk
  rcases List.mem_append.1 hk with hk | hk
  · exact h k hk
  · rwa [List.mem_singleton.1 hk]

/-- The transaction is rolled back. -/
theorem AtRest.rollback (h : AtRest O I B ks c) : AtRest O I B ks c.rollback :=
  ⟨.start, h.inv, h.known, h.keeps⟩

/-- A row that a duty's INSERT meets has the key of the duty. -/
theorem Duty.Planned.hasTask (hp : d.Planned O p) (hdb : Scheduled O I B db)
    (h : ∃ t ∈ db.tasks, t.id = p.newID d.key ∨ t.idempotencyKey = d.key) : HasTask d.key db := by
  obtain ⟨t, ht, hid | hkey⟩ := h
  · exact ⟨t, ht, hp.drawn _ t.type (hid ▸ hdb.source t ht)⟩
  · exact ⟨t, ht, hkey⟩

theorem Duty.Planned.admits (hp : d.Planned O p) :
    (Limits.Limit.column 200).admits d.key = true := by
  have htrim := trimSpace_autoBucket d.bucket
  have h : (Limits.Limit.column 200).admits
      (Limits.instanceTaskKey d.type.text d.target (trimSpace (autoBucket d.bucket))) = true ↔
        d.type.text.length + (trimSpace (autoBucket d.bucket)).length ≤ 162 :=
    Limits.admits_instanceTaskKey (by rw [htrim]; exact autoBucket_ne_empty _)
  rw [htrim] at h
  refine h.2 ?_
  have hlen := length_intText hp.lower hp.upper
  have htype := d.type.length_text
  rw [autoBucket, String.length_append, show "auto-".length = 5 by decide]
  omega

theorem nul_notMem_key {d : Duty} (h : '\x00' ∉ d.target.text.toList) : '\x00' ∉ d.key.toList := by
  have htype : '\x00' ∉ d.type.text.toList := by
    cases d.type <;> decide
  have hbucket : '\x00' ∉ (autoBucket d.bucket).toList := by
    rw [toList_autoBucket, toList_toString]
    intro hm
    rcases List.mem_append.1 hm with hm | hm
    · exact absurd hm (by decide)
    · split at hm
      · exact absurd (isDigit_of_mem_repr hm) (by decide)
      · exact absurd (isDigit_of_mem_repr ((List.mem_cons.1 hm).resolve_left (by decide))) (by decide)
  simp only [Duty.key, Limits.instanceTaskKey, String.toList_append, List.mem_append, not_or]
  exact ⟨⟨⟨⟨htype, by decide⟩, h⟩, by decide⟩, hbucket⟩

/-- A version of the task stays. -/
theorem keeps_present (t : Task) :
    (scheduling O I B).Keeps fun _ db => ∃ t' ∈ db.tasks, t.Alike t' where
  mono _ h := h
  step := by
    rintro L M db e db' - - hs ⟨t', ht', halike⟩
    obtain ⟨t'', ht'', halike'⟩ := hs.1.kept t' ht'
    exact ⟨t'', ht'', halike.trans halike'⟩

/-- The commit of a transaction that has written nothing. -/
theorem step_none (hdb : Scheduled O I B db) (L : Held Lock) (e : Event) :
    (scheduling O I B).step L db e (Layers.lay db (Layers.none Store)) :=
  (Rewrite.none db).step hdb L e

/-- `GetTask` of a task that there is. -/
theorem getTask_wp {t : Task} {Q : Task → Ctx Store Lock Event → Prop}
    {E : Limits.Fault → Ctx Store Lock Event → Prop}
    (h : Knows (scheduling O I B) c (Layers.none Store) fun _ db =>
      HasTasks ks db ∧ ∃ t' ∈ db.tasks, t.Alike t')
    (hQ : ∀ t c', AtRest O I B ks c' → Q t c') :
    wp (scheduling O I B) (Limits.getTask t.id) Q E c := by
  refine h.readOne (fun c' t' h' _ => hQ t' c' (h'.mono (keeps_hasTasks ks) And.left))
    fun c' h' hnone => ?_
  obtain ⟨-, t', ht', halike⟩ := h'.known
  rw [Layers.lay_none] at hnone
  exact absurd halike.1 (by simpa using List.find?_eq_none.1 hnone t' ht')

/-- The tasks of an instance. -/
def TaskType.OfInstance (type : TaskType) : Prop := Limits.instanceTaskType type.text = some type

variable {E : Limits.Fault → Ctx Store Lock Event → Prop}

/-- `EnqueueInstanceTask` for a duty: its key has a task, also where the INSERT meets one. -/
theorem enqueueInstanceTask_wp (hp : d.Planned O p) (htype : d.type.OfInstance)
    (hnul : '\x00' ∉ d.target.text.toList) (hI : UniqueBy Instance.id I)
    (hi : ⟨d.target, true⟩ ∈ I) (hmax : 1 ≤ p.maxAttempts ∧ p.maxAttempts ≤ 100)
    (h : AtRest O I B ks c) {Q : Task → Ctx Store Lock Event → Prop}
    (hQ : ∀ t c', AtRest O I B (ks ++ [d.key]) c' → Q t c')
    (hE : ∀ c', AtRest O I B (ks ++ [d.key]) c' → E (.refused .conflict) c') :
    wp (scheduling O I B) (Limits.enqueueInstanceTask (p.newID d.key) now d.type.text d.target
      (autoBucket d.bucket) p.maxAttempts) Q E c := by
  have hkey : Limits.instanceTaskKey d.type.text d.target (trimSpace (autoBucket d.bucket)) = d.key := by
    rw [trimSpace_autoBucket]
    rfl
  unfold Limits.enqueueInstanceTask
  refine wp_bind.2 (wp_orFail.2 ⟨fun type htype' => ?_, fun hno => by rw [htype] at hno; cases hno⟩)
  rw [htype] at htype'
  cases htype'
  refine wp_bind.2 (wp_check.2 ⟨fun _ => ?_, fun hno => absurd ⟨?_, ?_⟩ hno⟩)
  rotate_left
  · rw [trimSpace_autoBucket]
    exact autoBucket_ne_empty _
  · rw [trimSpace_autoBucket]
    exact autoBucket_short hp.lower hp.upper
  have hfind : ∀ c' : Ctx Store Lock Event, AtRest O I B ks c' →
      (Layers.lay c'.db (Layers.none Store)).instances.find? (·.id = d.target) = some ⟨d.target, true⟩ := by
    intro c' h'
    rw [Layers.lay_none, h'.inv.instances]
    exact hI.find?_eq hi
  refine wp_bind.2 (h.readOne (fun c₁ i h₁ hf => ?_) fun c₁ h₁ hf => ?_)
  rotate_left
  · rw [hfind c₁ h₁] at hf
    cases hf
  rw [hfind c₁ h₁] at hf
  cases hf
  refine wp_bind.2 (wp_check.2 ⟨fun _ => ?_, fun hno => absurd rfl hno⟩)
  rw [hkey]
  refine wp_bind.2 (wp_check.2 ⟨fun _ => ?_, fun hno => absurd ?_ hno⟩)
  rotate_left
  · exact nul_notMem_key hnul
  refine wp_bind.2 (h₁.read fun c₂ h₂ => ?_)
  rw [Layers.lay_none]
  cases hexisting : c₂.db.tasks.find? (·.idempotencyKey = d.key) with
  | some existing =>
    have hmem : existing ∈ c₂.db.tasks := List.mem_of_find?_eq_some hexisting
    have hkey' : existing.idempotencyKey = d.key := by simpa using List.find?_some hexisting
    have h₃ := h₂.learn (keeps_present existing) ⟨existing, hmem, .refl existing⟩
    refine wp_bind.2 (h₃.publish ((keeps_hasTasks (ks ++ [d.key])).and (keeps_present existing))
      (fun L db hdb hk => ⟨step_none hdb L _, ?_⟩) fun c₄ h₄ => getTask_wp h₄ hQ)
    rw [Layers.lay_none]
    obtain ⟨hks, t', ht', halike⟩ := hk
    exact ⟨hasTasks_snoc hks ⟨t', ht', halike.2.1.trans hkey'⟩, t', ht', halike⟩
  | none =>
    refine wp_bind.2 (wp_check.2 ⟨fun _ => ?_, fun hno => absurd hp.admits hno⟩)
    let t : Task := {
      id := p.newID d.key, type := d.type, status := .pending, idempotencyKey := d.key
      payload := { instanceId := some d.target }, attempts := 0, maxAttempts := p.maxAttempts
      availableAt := now }
    refine wp_bind.2 (wp_insertTask (t := t) h₂ (fun db hfree t' ht' => ?_) (fun c₃ h₃ htaken => ?_)
      fun c₃ h₃ => wp_bind.2 (h₃.publish ((keeps_hasTasks (ks ++ [d.key])).and (keeps_present t))
        (fun L db hdb hk => ?_) fun c₄ h₄ => getTask_wp h₄ hQ))
    · simp only [Bool.or_eq_false_iff, decide_eq_false_iff_not, List.any_eq_false, Bool.or_eq_true,
        decide_eq_true_eq, not_or] at hfree
      exact hfree.2 t' ht'
    · -- a row that another transaction has put there meanwhile
      have hrow : ∃ t ∈ c₃.db.tasks, t.id = p.newID d.key ∨ t.idempotencyKey = d.key := by
        simp only [Bool.or_eq_true, decide_eq_true_eq, List.any_eq_true] at htaken
        rcases htaken with hno | hrow
        · omega
        · exact hrow
      exact hE c₃ ⟨h₃.wrote, h₃.inv, hasTasks_snoc h₃.known (hp.hasTask h₃.inv hrow), keeps_hasTasks _⟩
    · have hstep := hk.1.step hdb hp.source (.requested t.id)
      have ht : t ∈ (db.overlay { tasks := [t] }).tasks := mem_overlay_right (List.mem_singleton_self t)
      exact ⟨hstep, hasTasks_snoc (fun k hks => (hk.2 k hks).step hstep.1) ⟨t, ht, rfl⟩, t, ht, .refl t⟩

section

variable {F : Err → Ctx Store Lock Event → Prop} {Q : Unit → Ctx Store Lock Event → Prop}

theorem enqueueDuty_wp (hp : d.Planned O p) (htype : d.type.OfInstance)
    (hnul : '\x00' ∉ d.target.text.toList) (hI : UniqueBy Instance.id I)
    (hi : ⟨d.target, true⟩ ∈ I) (hmax : 1 ≤ p.maxAttempts ∧ p.maxAttempts ≤ 100)
    (h : AtRest O I B ks c) (hQ : ∀ c', AtRest O I B (ks ++ [d.key]) c' → Q () c') :
    wp (scheduling O I B) (enqueueDuty p now d) Q F c := by
  refine wp_bind.2 (wp_attempt.2 (wp_mapError.2 ?_))
  exact enqueueInstanceTask_wp hp htype hnul hI hi hmax h (fun _ c' h' => hQ c' h')
    fun _ h' => hQ _ h'.rollback

theorem insertIgnoring_wp {payload : Payload} (hp : d.Planned O p) (h : AtRest O I B ks c)
    (hQ : ∀ c', AtRest O I B (ks ++ [d.key]) c' → Q () c') :
    wp (scheduling O I B) (insertIgnoring (p.task now payload d)) Q F c := by
  refine wp_bind.2 (wp_exec.2 fun c₁ hw _ => ?_)
  have h₁ := h.waits hw
  have hview : c₁.view = c₁.db := by rw [h₁.view, Layers.lay_none]
  have hany : (c₁.db.tasks.any fun t =>
      t.idempotencyKey = (p.task now payload d).idempotencyKey) = true ↔ HasTask d.key c₁.db := by
    refine List.any_eq_true.trans ⟨fun ⟨t, ht, he⟩ => ⟨t, ht, of_decide_eq_true he⟩,
      fun ⟨t, ht, he⟩ => ⟨t, ht, decide_eq_true he⟩⟩
  rw [hview]
  by_cases hkey : HasTask d.key c₁.db
  · -- the key is there
    rw [if_pos (hany.2 hkey)]
    have h₂ : AtRest O I B (ks ++ [d.key]) (c₁.apply { locks := [(.taskKey d.key, .exclusive)] }) :=
      ⟨h₁.wrote, h₁.inv, hasTasks_snoc h₁.known hkey, keeps_hasTasks _⟩
    refine h₂.publish (keeps_hasTasks _) (fun L db hdb hk => ⟨step_none hdb L _, ?_⟩) hQ
    rwa [Layers.lay_none]
  · rw [if_neg fun h => hkey (hany.1 h)]
    let t := p.task now payload d
    have hid : ¬(c₁.db.tasks.any fun t' => t'.id = t.id) = true := by
      intro hany
      obtain ⟨t', ht', he⟩ := List.any_eq_true.1 hany
      exact hkey (hp.hasTask h₁.inv ⟨t', ht', Or.inl (of_decide_eq_true he)⟩)
    have hinserted : (tasks.inserted (fun v => v.tasks.any fun t' => t'.id = t.id)
        [(.task t.id, .exclusive), (.taskKey t.idempotencyKey, .exclusive)] t Err.database c₁.db :
          Prog.Outcome Store Lock Err Unit) =
        { locks := [(.task t.id, .exclusive), (.taskKey t.idempotencyKey, .exclusive)]
          write := fun s => Layers.lay s (tasks.version t), result := .ok () } := if_neg hid
    rw [hinserted]
    have hnew : NewTask t (c₁.held ++
        [(.task t.id, .exclusive), (.taskKey t.idempotencyKey, .exclusive)]) c₁.db := by
      refine ⟨fun t' ht' he => ?_, fun t' ht' he => hkey ⟨t', ht', he⟩,
        List.mem_append_right _ (by simp), List.mem_append_right _ (by simp)⟩
      exact hkey (hp.hasTask h₁.inv ⟨t', ht', Or.inl he⟩)
    have h₂ : Knows (scheduling O I B) (c₁.apply ⟨[(.task t.id, .exclusive),
        (.taskKey t.idempotencyKey, .exclusive)], fun s => Layers.lay s (tasks.version t)⟩)
          { tasks := [t] } fun L db => NewTask t L db ∧ HasTasks ks db :=
      h₁.write rfl ((keeps_newTask t).and (keeps_hasTasks ks)) ⟨hnew, h₁.known⟩
    refine h₂.publish (keeps_hasTasks _) (fun L db hdb hk => ?_) hQ
    have hstep := hk.1.step hdb hp.source (.requested t.id)
    have ht : t ∈ (db.overlay { tasks := [t] }).tasks := mem_overlay_right (List.mem_singleton_self t)
    exact ⟨hstep, hasTasks_snoc (fun k hks => (hk.2 k hks).step hstep.1) ⟨t, ht, rfl⟩⟩

/-- A loop, each of whose turns settles its keys. -/
theorem forEach_wp {α : Type} {f : α → Call Unit} {k : α → List String} : ∀ {as : List α}
    {ks : List String} {c : Ctx Store Lock Event} {Q : Unit → Ctx Store Lock Event → Prop},
    (∀ a ∈ as, ∀ {ks c Q}, AtRest O I B ks c → (∀ c', AtRest O I B (ks ++ k a) c' → Q () c') →
      wp (scheduling O I B) (f a) Q F c) →
    AtRest O I B ks c → (∀ c', AtRest O I B (ks ++ as.flatMap k) c' → Q () c') →
      wp (scheduling O I B) (forEach f as) Q F c
  | [], ks, c, _, _, h, hQ => hQ c (by simpa using h)
  | a :: as, ks, c, _, hf, h, hQ => by
    refine wp_bind.2 (hf a List.mem_cons_self h fun c₁ h₁ => ?_)
    refine forEach_wp (fun b hb => hf b (List.mem_cons_of_mem _ hb)) h₁ fun c₂ h₂ => hQ c₂ ?_
    rwa [List.flatMap_cons, ← List.append_assoc]

end

/-- What a schedule relies on. -/
structure Planner.Fits (O : Source) (I : List Instance) (B : List Binding) (p : Planner) (now : Time) :
    Prop where
  planned : ∀ db : Store, db.instances = I → db.bindings = B → ∀ d ∈ p.duties now db, d.Planned O p
  instances : UniqueBy Instance.id I
  names : ∀ i ∈ I, '\x00' ∉ i.id.text.toList
  attempts : 1 ≤ p.maxAttempts ∧ p.maxAttempts ≤ 100

theorem mem_instanceDuties {id : UUID} (h : d ∈ p.instanceDuties now id) :
    d.target = id ∧ d.type.OfInstance := by
  have hsync : TaskType.embySync.OfInstance := by unfold TaskType.OfInstance; decide
  have hreconcile : TaskType.embyReconcile.OfInstance := by unfold TaskType.OfInstance; decide
  have hplayback : TaskType.embyPlaybackSync.OfInstance := by unfold TaskType.OfInstance; decide
  simp only [Planner.instanceDuties, List.mem_cons, List.not_mem_nil, or_false] at h
  rcases h with rfl | rfl | rfl
  · exact ⟨rfl, hsync⟩
  · exact ⟨rfl, hreconcile⟩
  · exact ⟨rfl, hplayback⟩

/-- **A schedule never fails**, and at its end no duty is without a task. -/
theorem scheduleDue_keeps (hp : p.Fits O I B now) (hdb : Scheduled O I B db) {F : Err → Store → Prop} :
    wp (scheduling O I B) (scheduleDue p now)
      (fun _ c => HasTasks ((p.duties now db).map Duty.key) c.db) (fun x c => F x c.db)
      { db := db } := by
  have h₀ : AtRest O I B [] { db := db } :=
    ⟨.start, hdb, fun _ h => (List.not_mem_nil h).elim, keeps_hasTasks _⟩
  have hplanned := hp.planned db hdb.instances hdb.bindings
  have hI := hp.instances
  have hnames := hp.names
  have hmax := hp.attempts
  have hkeys : ∀ ds : List Duty, ds.flatMap (fun d => [d.key]) = ds.map Duty.key :=
    fun ds => List.map_eq_flatMap.symm
  obtain rfl := hdb.instances
  obtain rfl := hdb.bindings
  refine wp_bind.2 (h₀.read fun c₁ h₁ => ?_)
  rw [Layers.lay_none, h₁.inv.instances]
  refine wp_bind.2 (forEach_wp (k := fun id => (p.instanceDuties now id).map Duty.key)
    (fun id hid ks c Q hc hQ => ?_) h₁ fun c₂ h₂ => ?_)
  · -- the tasks of one instance
    obtain ⟨i, hi, rfl⟩ := List.mem_map.1 hid
    obtain ⟨hi, henabled⟩ := List.mem_filter.1 hi
    have hi' : ⟨i.id, true⟩ ∈ db.instances := by
      rw [← henabled]
      exact hi
    refine forEach_wp (k := fun d => [d.key]) (fun d hd ks c Q hc hQ => ?_) hc (hkeys _ ▸ hQ)
    obtain ⟨htarget, htype⟩ := mem_instanceDuties hd
    have hmem : d ∈ p.duties now db :=
      List.mem_append_left _ (List.mem_append_left _ (List.mem_flatMap.2 ⟨i.id, hid, hd⟩))
    exact enqueueDuty_wp (hplanned d hmem) htype (htarget ▸ hnames i hi) hI (htarget ▸ hi') hmax hc hQ
  refine wp_bind.2 (h₂.read fun c₃ h₃ => ?_)
  rw [Layers.lay_none, h₃.inv.bindings]
  refine wp_bind.2 (forEach_wp (k := fun b => (p.bindingDuties now b).map Duty.key)
    (fun b hb ks c Q hc hQ => ?_) h₃ fun c₄ h₄ => ?_)
  · refine forEach_wp (k := fun d => [d.key]) (fun d hd ks c Q hc hQ => ?_) hc (hkeys _ ▸ hQ)
    have hmem : d ∈ p.duties now db :=
      List.mem_append_left _ (List.mem_append_right _ (List.mem_flatMap.2 ⟨b, hb, hd⟩))
    exact insertIgnoring_wp (hplanned d hmem) hc hQ
  refine forEach_wp (k := fun id => (p.lineDuties now id).map Duty.key)
    (fun id hid ks c Q hc hQ => ?_) h₄ fun c₅ h₅ => ?_
  · refine forEach_wp (k := fun d => [d.key]) (fun d hd ks c Q hc hQ => ?_) hc (hkeys _ ▸ hQ)
    have hmem : d ∈ p.duties now db := List.mem_append_right _ (List.mem_flatMap.2 ⟨id, hid, hd⟩)
    exact insertIgnoring_wp (hplanned d hmem) hc hQ
  have hknown := h₅.known
  rw [List.nil_append] at hknown
  have hall : (p.duties now db).map Duty.key =
      ((db.instances.filter (·.enabled)).map (·.id)).flatMap
          (fun id => (p.instanceDuties now id).map Duty.key) ++
        (db.bindings.filter fun b => b.status ≠ .deleted).flatMap
          (fun b => (p.bindingDuties now b).map Duty.key) ++
        p.lines.flatMap (fun id => (p.lineDuties now id).map Duty.key) := by
    simp only [Planner.duties, List.map_append, List.map_flatMap]
  rw [hall]
  exact hknown

/-! ## Runs -/

theorem Planner.interval_pos (p : Planner) (key : String) {least fallback : Int} (hl : 0 < least)
    (hf : 0 < fallback) : 0 < p.interval key least fallback := by
  unfold Planner.interval
  split
  · split <;> omega
  · exact hf

/-- The numbers of the intervals of a time are no further from zero than its seconds. -/
theorem tdiv_bounds {a b : Int} (hb : 0 < b) (h : -2 ^ 63 ≤ a) (h' : a < 2 ^ 63) :
    -2 ^ 63 ≤ a.tdiv b ∧ a.tdiv b < 2 ^ 63 := by
  have habs : (a.tdiv b).natAbs ≤ a.natAbs := by
    rw [Int.natAbs_tdiv]
    exact Nat.div_le_self _ _
  have hpos : 0 ≤ a → 0 ≤ a.tdiv b := fun ha => Int.tdiv_nonneg ha (by omega)
  have hneg : a ≤ 0 → 0 ≤ -a.tdiv b := fun ha => by
    rw [← Int.neg_tdiv]
    exact Int.tdiv_nonneg (by omega) (by omega)
  omega

theorem Planner.bucket_bounds (p : Planner) {now : Time} (h : -2 ^ 63 ≤ unixSeconds now)
    (h' : unixSeconds now < 2 ^ 63) {d : Duty} (hd : d ∈ p.duties now db) :
    -2 ^ 63 ≤ d.bucket ∧ d.bucket < 2 ^ 63 := by
  have hbucket : ∀ key {least fallback : Int}, 0 < least → 0 < fallback →
      -2 ^ 63 ≤ p.bucket now key least fallback ∧ p.bucket now key least fallback < 2 ^ 63 :=
    fun key _ _ hl hf => tdiv_bounds (p.interval_pos key hl hf) h h'
  simp only [Planner.duties, List.mem_append, List.mem_flatMap] at hd
  rcases hd with (⟨id, -, hd⟩ | ⟨b, -, hd⟩) | ⟨id, -, hd⟩
  · simp only [Planner.instanceDuties, List.mem_cons, List.not_mem_nil, or_false] at hd
    rcases hd with rfl | rfl | rfl
    · exact hbucket _ (by omega) (by omega)
    · exact hbucket _ (by omega) (by omega)
    · exact hbucket _ (by omega) (by omega)
  · unfold Planner.bindingDuties at hd
    rcases List.mem_append.1 hd with hd | hd
    · split at hd
      · cases List.mem_singleton.1 hd
        exact hbucket _ (by omega) (by omega)
      · cases hd
    · cases List.mem_singleton.1 hd
      exact hbucket _ (by omega) (by omega)
  · cases List.mem_singleton.1 hd
    exact hbucket _ (by omega) (by omega)

variable {ι : Type} [DecidableEq ι] {calls : ι → ScheduleCall}

/-- Where the tasks of a run come from: the data at its start, a call that enqueues a task, or a duty. -/
inductive Origin (calls : ι → ScheduleCall) (db : Store) : UUID → String → TaskType → Prop
  | stored {t} : t ∈ db.tasks → Origin calls db t.id t.idempotencyKey t.type
  | enqueued {i id type key payload maxAttempts now} :
      calls i = .queue (.enqueue id type key payload maxAttempts now) → Origin calls db id key type
  | due {i p now d} : calls i = .schedule p now → d ∈ p.duties now db →
      Origin calls db (p.newID d.key) d.key d.type

/-- The data at the start of a run, and its calls: a schedule draws ids that no other key has, the
maximum of attempts is one that the table takes, and the key of a duty stands for its type. -/
structure Orderly (calls : ι → ScheduleCall) (db : Store) : Prop where
  ids : UniqueBy Task.id db.tasks
  keys : UniqueBy Task.idempotencyKey db.tasks
  instances : UniqueBy Instance.id db.instances
  names : ∀ i ∈ db.instances, '\x00' ∉ i.id.text.toList
  attempts : ∀ i p now, calls i = .schedule p now → 1 ≤ p.maxAttempts ∧ p.maxAttempts ≤ 100
  times : ∀ i p now, calls i = .schedule p now →
    -2 ^ 63 ≤ unixSeconds now ∧ unixSeconds now < 2 ^ 63
  drawn : ∀ i p now, calls i = .schedule p now → ∀ d ∈ p.duties now db, ∀ key type,
    Origin calls db (p.newID d.key) key type → key = d.key
  typed : ∀ id type (d : Duty), Origin calls db id d.key type → type = d.type

theorem duties_eq {db' : Store} (hI : db'.instances = db.instances) (hB : db'.bindings = db.bindings) :
    p.duties now db' = p.duties now db := by
  unfold Planner.duties
  rw [hI, hB]

omit [DecidableEq ι] in
theorem Orderly.fits (h : Orderly calls db) {i : ι} {p : Planner} {now : Time}
    (hi : calls i = .schedule p now) : p.Fits (Origin calls db) db.instances db.bindings now where
  planned db' hI hB d hd := by
    rw [duties_eq hI hB] at hd
    obtain ⟨hlow, hup⟩ := h.times i p now hi
    obtain ⟨hlow', hup'⟩ := p.bucket_bounds hlow hup hd
    exact ⟨.due hi hd, h.drawn i p now hi d hd, hlow', hup'⟩
  instances := h.instances
  names := h.names
  attempts := h.attempts i p now hi

/-- **Every duty has exactly one task.**  Workers schedule at any times, while the rest of the queue goes
on, statement by statement.  No schedule fails, and once one has ended, there is one task for each of
its duties, of its type; and there are no tasks but those of the start, those that are enqueued and
those that are due. -/
theorem schedule_once (h₀ : Orderly calls db) {s : State ι Site Store Lock Event Err Unit}
    (h : Reachable (fun i => (calls i).call) (idleQueue ι db) s) :
    (∀ i p now r, calls i = .schedule p now → s.phase i = .ended r → r = .ok () ∧
      ∀ d ∈ p.duties now db, ∃ t ∈ s.db.tasks, t.idempotencyKey = d.key ∧ t.type = d.type ∧
        ∀ t' ∈ s.db.tasks, t'.idempotencyKey = d.key → t' = t) ∧
      ∀ t ∈ s.db.tasks, Origin calls db t.id t.idempotencyKey t.type := by
  let P : ι → Unit → Store → Prop := fun i _ db' => ∀ p now, calls i = .schedule p now →
    HasTasks ((p.duties now db).map Duty.key) db'
  let F : ι → Err → Store → Prop := fun i _ _ => ∀ p now, calls i ≠ .schedule p now
  have hdb : Scheduled (Origin calls db) db.instances db.bindings db :=
    ⟨h₀.ids, h₀.keys, fun t ht => .stored ht, rfl, rfl⟩
  have hw : ∀ i db', Scheduled (Origin calls db) db.instances db.bindings db' →
      wp (scheduling (Origin calls db) db.instances db.bindings) (calls i).call
        (fun a c => P i a c.db) (fun x c => F i x c.db) { db := db' } := by
    intro i db' hi
    cases hcall : calls i with
    | queue q =>
      refine wp_mono (fun _ _ _ p now he => ?_) (fun _ _ _ p now he => ?_)
        (QueueCall.scheduled hi fun id type key payload maxAttempts now hq => ?_)
      · rw [hcall] at he
        cases he
      · rw [hcall] at he
        cases he
      · exact .enqueued (by rw [hcall, hq])
    | schedule p now =>
      refine wp_mono (fun _ c hc p' now' he => ?_) (fun x c hc => hc)
        (scheduleDue_keeps (h₀.fits hcall) hi)
      rw [hcall] at he
      cases he
      rwa [duties_eq hi.instances hi.bindings] at hc
  have hP : ∀ i a, (scheduling (Origin calls db) db.instances db.bindings).Stable (P i a) :=
    fun i a L db₁ e db₂ _ hs hP p now he key hkey => (hP p now he key hkey).step hs.1
  have hF : ∀ i x, (scheduling (Origin calls db) db.instances db.bindings).Stable (F i x) :=
    fun i x L db₁ e db₂ _ _ hF => hF
  obtain ⟨hinv, hsettled⟩ := Settled.of_reachable hP hF hw hdb h
  refine ⟨fun i p now r hi hr => ?_, hinv.source⟩
  cases r with
  | error x => exact absurd hi (hsettled.failed i x hr p now)
  | ok u =>
    refine ⟨rfl, fun d hd => ?_⟩
    obtain ⟨t, ht, hkey⟩ := hsettled.returned i u hr p now hi d.key (List.mem_map_of_mem hd)
    have htype : t.type = d.type := h₀.typed t.id t.type d (hkey ▸ hinv.source t ht)
    exact ⟨t, ht, hkey, htype, fun t' ht' hkey' => hinv.keys.eq ht' ht (hkey'.trans hkey.symm)⟩

/-! ## Two workers -/

def scheduledInstance : Store where
  instances := [⟨idOf 'a', true⟩]

/-- The settings have their fallbacks, and there are no lines. -/
def planner : Planner where
  setting _ := none
  maxAttempts := 8
  entitled _ := false
  lines := []
  newID key := if key.length < 55 then idOf '1' else if key.length < 60 then idOf '2' else idOf '3'

/-- The time `n` seconds after the epoch. -/
def epoch (n : Nat) : Time := (62135596800 + n) * 1000000000

/-- Two workers that schedule ten seconds apart. -/
def schedulers (i : Fin 2) : ScheduleCall := .schedule planner (epoch (10 * i))

def firstDuties : List Duty :=
  [⟨.embySync, idOf 'a', 0⟩, ⟨.embyReconcile, idOf 'a', 0⟩, ⟨.embyPlaybackSync, idOf 'a', 0⟩]

theorem duties_schedulers (i : Fin 2) :
    planner.duties (epoch (10 * i)) scheduledInstance = firstDuties := by
  revert i
  decide +kernel

theorem origin_schedulers {id : UUID} {key : String} {type : TaskType}
    (h : Origin schedulers scheduledInstance id key type) :
    ∃ d ∈ firstDuties, id = planner.newID d.key ∧ key = d.key ∧ type = d.type := by
  cases h with
  | stored ht => cases ht
  | enqueued h => cases h
  | @due i p now d h hd =>
    cases h
    exact ⟨d, duties_schedulers i ▸ hd, rfl, rfl, rfl⟩

theorem schedulers_orderly : Orderly schedulers scheduledInstance where
  ids := uniqueBy_nil
  keys := uniqueBy_nil
  instances := uniqueBy_singleton
  names := by decide
  attempts i p now h := by
    cases h
    decide
  times i p now h := by
    cases h
    revert i
    decide +kernel
  drawn i p now h d hd key type ho := by
    have hdraws : ∀ d ∈ firstDuties, ∀ d' ∈ firstDuties,
        planner.newID d.key = planner.newID d'.key → d.key = d'.key := by decide +kernel
    cases h
    obtain ⟨d', hd', hid, rfl, -⟩ := origin_schedulers ho
    exact (hdraws d (duties_schedulers i ▸ hd) d' hd' hid).symm
  typed id type d ho := by
    obtain ⟨d', -, -, hkey, rfl⟩ := origin_schedulers ho
    rw [Duty.key_inj hkey]

def allEnded (s : State (Fin 2) Site Store Lock Event Err Unit) : Bool :=
  [0, 1].all fun i => match s.phase i with
    | .ended _ => true
    | _ => false

/-- The second worker finds no task for the first duty, and then meets that of the other. -/
theorem schedule_once_schedulers :
    ∃ s, Reachable (fun i => (schedulers i).call) (idleQueue (Fin 2) scheduledInstance) s ∧
      s.phase 1 = .ended (.ok ()) ∧
      ∀ d ∈ firstDuties, ∃ t ∈ s.db.tasks, t.idempotencyKey = d.key ∧ t.type = d.type ∧
        ∀ t' ∈ s.db.tasks, t'.idempotencyKey = d.key → t' = t := by
  obtain ⟨s, hs, hended⟩ := replay_any [0, 1] (by decide) (fun i => (schedulers i).call)
    (fun _ _ => True) ([0, 0, 0, 0, 1, 1, 1, 1, 0, 0, 1] ++ List.replicate 13 0 ++ List.replicate 11 1)
    (idleQueue (Fin 2) scheduledInstance) allEnded (by decide +kernel)
  have hphase : ∃ r, s.phase 1 = .ended r := by
    have h := List.all_eq_true.1 hended 1 (by decide)
    split at h
    · next r hr => exact ⟨r, hr⟩
    · cases h
  obtain ⟨r, hr⟩ := hphase
  obtain ⟨rfl, hduties⟩ := (schedule_once schedulers_orderly hs).1 1 planner (epoch 10) r rfl hr
  exact ⟨s, hs, hr, fun d hd => hduties d (duties_schedulers 1 ▸ hd)⟩

end Sakura.Queue
