/-
  A failed task is recorded (platform/worker.go, platform/batch.go).

  * `Recorded`: what `fail` leaves of a failed task;
  * `fail_recorded_iff`: it does so exactly for the texts that all columns it writes to accept;
  * `failures_recorded_iff`: the same with the items of a batch;
  * `longError_lost`: an upstream message of 1001 letters.
-/
import Sakura.BatchItems
import Sakura.Queue.Service
import Sakura.Txn.Alone

namespace Sakura.Queue

open Txn

/-! ## What a failure leaves -/

/-- The column keeps the text of the error. -/
def Carries (n : Nat) (text : Bytes) (lastError : Option String) : Prop :=
  ∃ s, storedText n (truncateError text) = some s ∧ lastError = some s

/-- The length of the shortest column that the failure of a task is written to. -/
def errorLimit : TaskType → Nat
  | .embyProvision | .riskAction | .riskRevert => 1000
  | _ => 2000

/-- The domain row that is inserted together with a task. -/
def Enqueued (db : Store) (task : ClaimedTask) : Prop :=
  match task.type with
  | .embyProvision => ∃ r ∈ db.provisionRequests, r.taskId = task.id
  | .riskAction | .riskRevert => ∃ a ∈ db.riskActions, task.payload.actionId = some a.id
  | .moviepilotSubmit => ∃ j ∈ db.moviepilotJobs, task.payload.moviepilotJobId = some j.id
  | .mediaMatch => ∃ m ∈ db.mediaMatches, task.payload.mediaId = some m.mediaId ∧
      task.payload.instanceId = some m.instanceId
  | _ => True

/-- The risk action of the task, and its entry in the timeline. -/
def ActionRecorded (task : ClaimedTask) (failure : Failure) (status : ActionStatus)
    (eventType : String) (db db' : Store) : Prop :=
  ∃ a ∈ db'.riskActions, task.payload.actionId = some a.id ∧ a.status = status ∧
    Carries 2000 failure.text a.lastError ∧
    ∃ e ∈ db'.timeline, (∀ e' ∈ db.timeline, e'.id ≠ e.id) ∧ e.eventId = a.eventId ∧
      e.eventType = eventType ∧ Carries 1000 failure.text e.reason

/-- The domain row of the task carries the error. -/
def DomainRecorded (task : ClaimedTask) (failure : Failure) (db db' : Store) : Prop :=
  match task.type with
  | .embyProvision => ∃ r ∈ db'.provisionRequests, r.taskId = task.id ∧
      (r.status = .failed ∨ r.status = .pending) ∧ Carries 1000 failure.text r.lastError
  | .riskAction => ActionRecorded task failure .failed "action_failed" db db'
  | .riskRevert => ActionRecorded task failure .revertFailed "revert_failed" db db'
  | .moviepilotSubmit => ∃ j ∈ db'.moviepilotJobs, task.payload.moviepilotJobId = some j.id ∧
      j.status = .failed ∧ Carries 2000 failure.text j.lastError
  | .mediaMatch => ∃ m ∈ db'.mediaMatches, task.payload.mediaId = some m.mediaId ∧
      task.payload.instanceId = some m.instanceId ∧ m.status = .failed ∧
        Carries 2000 failure.text m.lastError
  | _ => True

/-- The task has ended its attempt, its lease is released, and the error is kept. -/
def TaskRecorded (task : ClaimedTask) (failure : Failure) (db' : Store) : Prop :=
  ∃ t ∈ db'.tasks, t.id = task.id ∧ (t.status = .retry ∨ t.status = .failed ∨ t.status = .dead) ∧
    t.leaseOwner = none ∧ t.leaseExpiresAt = none ∧ Carries 2000 failure.text t.lastError

/-- `fail` commits, and the failure is recorded. -/
def Recorded (w : Worker) (now : Time) (entry : Nat) (task : ClaimedTask) (failure : Failure)
    (db : Store) : Prop :=
  ∃ db', (fail w now entry task failure).alone db = (db', .ok ()) ∧ TaskRecorded task failure db' ∧
    DomainRecorded task failure db db'

/-! ## Statements -/

section

variable {ρ κ : Type} [DecidableEq κ] {T : Rows Store Versions ρ κ Lock} {n : Nat} {message : Bytes}
  {p : ρ → Bool} {set : String → ρ → ρ} {site : Site} {db : Store} {δ δ' : Versions}

theorem does_storeError {text : String} (h : storedText n message = some text) {r : ρ}
    (hr : r ∈ T.rows (Layers.lay db δ)) (hp : p r)
    (hone : ∀ r' ∈ T.rows (Layers.lay db δ), p r' → r' = r)
    (hm : Layers.merge Store δ (T.version (set text r)) = δ') :
    Does (storeError n message T p set site) db δ db δ' () := by
  subst hm
  unfold storeError
  rw [h]
  exact (does_updateRow hr hp hone).bind does_pure

theorem breaks_storeError (h : storedText n message = none) :
    Breaks (storeError n message T p set site) db δ .database := by
  unfold storeError
  rw [h]
  exact breaks_fail

end

variable {w : Worker} {now : Time} {entry : Nat} {task : ClaimedTask} {failure : Failure} {db : Store}
  {δ : Versions} {status : TaskStatus} {text : String}

theorem failStatus_cases (task : ClaimedTask) (permanent : Bool) :
    failStatus task permanent = .retry ∨ failStatus task permanent = .failed ∨
      failStatus task permanent = .dead := by
  unfold failStatus
  split
  · exact Or.inr (Or.inl rfl)
  · split
    · exact Or.inr (Or.inr rfl)
    · exact Or.inl rfl

/-- The task row of the lease is written. -/
theorem failTask_does (now : Time) (hdb : db.WellFormed) {t : Task} (ht : t ∈ db.tasks) (hid : t.id = task.id)
    (howner : t.leaseOwner = some w.id)
    (h : storedText 2000 (truncateError failure.text) = some text) :
    ∃ t' : Task, (t'.id = task.id ∧ t'.status = failStatus task failure.permanent ∧
      t'.leaseOwner = none ∧ t'.leaseExpiresAt = none ∧ t'.lastError = some text) ∧
      Does (failTask w now task (failStatus task failure.permanent) (truncateError failure.text))
        db (Layers.none Store) db { tasks := [t'] } () := by
  have hrows : tasks.rows (Layers.lay db (Layers.none Store)) = db.tasks := by
    rw [Layers.lay_none]
    rfl
  refine ⟨{ t with
    status := failStatus task failure.permanent, lastError := some text
    availableAt := now + retryDelay task.attempts, leaseOwner := none, leaseExpiresAt := none
    finishedAt := if failStatus task failure.permanent = .failed ∨
      failStatus task failure.permanent = .dead then some now else none },
    ⟨hid, rfl, rfl, rfl, rfl⟩, does_storeError (r := t) h (hrows ▸ ht) (by simp [hid, howner])
      (fun t' ht' hp => ?_) ?_⟩
  · rw [hrows] at ht'
    simp only [Bool.and_eq_true, decide_eq_true_eq] at hp
    exact hdb.taskIds.eq ht' ht (hp.1.trans hid.symm)
  · simp [Layers.merge, Layers.none, Versions.overlay, tasks]

/-! ## Domain rows -/

variable {t : Task}

theorem failRequest_does (status : TaskStatus) (t : Task) (hdb : db.WellFormed) (hr : ∃ r ∈ db.provisionRequests, r.taskId = task.id)
    (h : storedText 1000 (truncateError failure.text) = some text) :
    ∃ r : ProvisionRequest, (r.taskId = task.id ∧ (r.status = .failed ∨ r.status = .pending) ∧
      Carries 1000 failure.text r.lastError) ∧
      Does (failRequest task status (truncateError failure.text)) db { tasks := [t] } db
        { tasks := [t], provisionRequests := [r] } () := by
  obtain ⟨r, hr, hid⟩ := hr
  have hrows : provisionRequests.rows (Layers.lay db { tasks := [t] }) = db.provisionRequests := by
    simp [provisionRequests, Layers.lay, Store.overlay]
  refine ⟨{ r with
    status := if status = .failed ∨ status = .dead then .failed else .pending
    lastError := some text }, ⟨hid, ?_, text, h, rfl⟩,
    does_storeError (r := r) h (hrows ▸ hr) (by simp [hid]) (fun r' hr' hp => ?_) ?_⟩
  · simp only
    split
    · exact Or.inl rfl
    · exact Or.inr rfl
  · rw [hrows] at hr'
    exact hdb.requestTasks.eq hr' hr ((of_decide_eq_true hp).trans hid.symm)
  · simp [Layers.merge, Versions.overlay, provisionRequests]

theorem failJob_does (t : Task) (hdb : db.WellFormed)
    (hj : ∃ j ∈ db.moviepilotJobs, task.payload.moviepilotJobId = some j.id)
    (h : storedText 2000 (truncateError failure.text) = some text) :
    ∃ j : MoviePilotJob, (task.payload.moviepilotJobId = some j.id ∧ j.status = .failed ∧
      Carries 2000 failure.text j.lastError) ∧
      Does (failJob task (truncateError failure.text)) db { tasks := [t] } db
        { tasks := [t], moviepilotJobs := [j] } () := by
  obtain ⟨j, hj, hid⟩ := hj
  have hrows : moviepilotJobs.rows (Layers.lay db { tasks := [t] }) = db.moviepilotJobs := by
    simp [moviepilotJobs, Layers.lay, Store.overlay]
  refine ⟨{ j with status := .failed, lastError := some text }, ⟨hid, rfl, text, h, rfl⟩, ?_⟩
  unfold failJob
  rw [hid]
  refine does_storeError (r := j) h (hrows ▸ hj) (by simp) (fun j' hj' hp => ?_) ?_
  · rw [hrows] at hj'
    exact hdb.jobIds.eq hj' hj (of_decide_eq_true hp)
  · simp [Layers.merge, Versions.overlay, moviepilotJobs]

theorem failMatch_does (now : Time) (t : Task) (hdb : db.WellFormed)
    (hm : ∃ m ∈ db.mediaMatches, task.payload.mediaId = some m.mediaId ∧
      task.payload.instanceId = some m.instanceId)
    (h : storedText 2000 (truncateError failure.text) = some text) :
    ∃ m : MediaMatch, (task.payload.mediaId = some m.mediaId ∧
      task.payload.instanceId = some m.instanceId ∧ m.status = .failed ∧
        Carries 2000 failure.text m.lastError) ∧
      Does (failMatch now task (truncateError failure.text)) db { tasks := [t] } db
        { tasks := [t], mediaMatches := [m] } () := by
  obtain ⟨m, hm, hmedia, hinst⟩ := hm
  have hrows : mediaMatches.rows (Layers.lay db { tasks := [t] }) = db.mediaMatches := by
    simp [mediaMatches, Layers.lay, Store.overlay]
  refine ⟨{ m with status := .failed, lastError := some text, lastCheckedAt := now },
    ⟨hmedia, hinst, rfl, text, h, rfl⟩, ?_⟩
  unfold failMatch
  rw [hmedia, hinst]
  refine does_storeError (r := m) h (hrows ▸ hm) (by simp [MediaMatch.key]) (fun m' hm' hp => ?_) ?_
  · rw [hrows] at hm'
    exact hdb.matchKeys.eq hm' hm (of_decide_eq_true hp)
  · simp [Layers.merge, Versions.overlay, mediaMatches]

theorem insertTimeline_does {a : RiskAction} {eventType actor : String} {details : TimelineDetails}
    (hentry : ∀ e ∈ db.timeline, e.id ≠ entry) {text : String}
    (hids : UniqueBy RiskAction.id (db.overlay δ).riskActions) (ha : a ∈ (db.overlay δ).riskActions)
    (hδ : δ.timeline = []) (h : storedText 1000 (truncateError failure.text) = some text) :
    Does (insertTimeline entry a.id eventType actor (truncateError failure.text) details) db δ db
      { δ with timeline := [{ id := entry, eventId := a.eventId, eventType, actor
                              reason := some text, details }] } () := by
  have hfind : (Layers.lay db δ).riskActions.find? (·.id = a.id) = some a := hids.find?_eq ha
  have hfree : ((Layers.lay db δ).timeline.any (·.id = entry)) = false := by
    simp only [Layers.lay, Store.overlay, hδ, overlay_nil]
    simpa using hentry
  unfold insertTimeline
  rw [h]
  have hmerge : Layers.merge Store δ (timeline.version
      { id := entry, eventId := a.eventId, eventType, actor, reason := some text, details }) =
      { δ with timeline := [{ id := entry, eventId := a.eventId, eventType, actor
                              reason := some text, details }] } := by
    simp [Layers.merge, Versions.overlay, timeline, hδ]
  rw [← hmerge]
  refine does_exec [(.timeline entry, .exclusive)] ?_
  simp only [hfind, Rows.inserted, hfree]
  rfl

theorem failAction_does (w : Worker) (status : TaskStatus) (t : Task) (hdb : db.WellFormed) (hentry : ∀ e ∈ db.timeline, e.id ≠ entry)
    (ha : ∃ a ∈ db.riskActions, task.payload.actionId = some a.id) {text' : String}
    {actionStatus : ActionStatus} {timelineType : String}
    (h : storedText 2000 (truncateError failure.text) = some text)
    (h' : storedText 1000 (truncateError failure.text) = some text') :
    ∃ a e, (task.payload.actionId = some a.id ∧ a.status = actionStatus ∧
        Carries 2000 failure.text a.lastError) ∧
      (e.id = entry ∧ e.eventId = a.eventId ∧ e.eventType = timelineType ∧
        Carries 1000 failure.text e.reason) ∧
      Does (failAction w entry task status (truncateError failure.text) actionStatus timelineType)
        db { tasks := [t] } db { tasks := [t], riskActions := [a], timeline := [e] } () := by
  obtain ⟨a, ha, hid⟩ := ha
  have hrows : riskActions.rows (Layers.lay db { tasks := [t] }) = db.riskActions := by
    simp [riskActions, Layers.lay, Store.overlay]
  refine ⟨{ a with status := actionStatus, lastError := some text },
    { id := entry, eventId := a.eventId, eventType := timelineType, actor := "system:" ++ w.id
      reason := some text', details := ⟨a.id, task.id, task.attempts, status⟩ },
    ⟨hid, rfl, text, h, rfl⟩, ⟨rfl, rfl, rfl, text', h', rfl⟩, ?_⟩
  unfold failAction
  rw [hid]
  have hset : Does (storeError 2000 (truncateError failure.text) riskActions
      (fun x => x.id = a.id) fun text x => { x with status := actionStatus, lastError := some text })
      db { tasks := [t] } db { tasks := [t], riskActions := [{ a with
        status := actionStatus, lastError := some text }] } () := by
    refine does_storeError (r := a) h (hrows ▸ ha) (by simp) (fun a' ha' hp => ?_) ?_
    · rw [hrows] at ha'
      exact hdb.actionIds.eq ha' ha (of_decide_eq_true hp)
    · simp [Layers.merge, Versions.overlay, riskActions]
  refine hset.bind ?_
  refine insertTimeline_does (a := { a with status := actionStatus, lastError := some text }) hentry
    ?_ (mem_overlay_right (List.mem_singleton_self _)) rfl h'
  exact hdb.actionIds.put fun _ _ e => e

theorem ActionRecorded.of_does {a : RiskAction} {e : TimelineEntry} {actionStatus : ActionStatus}
    {timelineType : String} (hentry : ∀ e ∈ db.timeline, e.id ≠ entry)
    (ha : task.payload.actionId = some a.id ∧ a.status = actionStatus ∧
      Carries 2000 failure.text a.lastError)
    (he : e.id = entry ∧ e.eventId = a.eventId ∧ e.eventType = timelineType ∧
      Carries 1000 failure.text e.reason) :
    ActionRecorded task failure actionStatus timelineType db
      (db.overlay { tasks := [t], riskActions := [a], timeline := [e] }) :=
  ⟨a, mem_overlay_right (List.mem_singleton_self _), ha.1, ha.2.1, ha.2.2, e,
    mem_overlay_right (List.mem_singleton_self _), he.1 ▸ hentry, he.2.1, he.2.2.1, he.2.2.2⟩

/-- The domain row is written, if its columns accept the text. -/
theorem failDomain_does (w : Worker) (now : Time) (status : TaskStatus) (t : Task) (hdb : db.WellFormed) (hentry : ∀ e ∈ db.timeline, e.id ≠ entry)
    (henq : Enqueued db task) (h : storedText 2000 (truncateError failure.text) = some text)
    {text' : String}
    (h' : storedText (errorLimit task.type) (truncateError failure.text) = some text') :
    ∃ δ, δ.tasks = [t] ∧ DomainRecorded task failure db (db.overlay δ) ∧
      Does (failDomain w now entry task status (truncateError failure.text)) db { tasks := [t] }
        db δ () := by
  unfold Enqueued at henq
  unfold errorLimit at h'
  unfold DomainRecorded failDomain
  cases htype : task.type with
  | embyProvision =>
    rw [htype] at henq h'
    obtain ⟨r, hr, hdoes⟩ := failRequest_does status t hdb henq h'
    exact ⟨_, rfl, ⟨r, mem_overlay_right (List.mem_singleton_self _), hr⟩, hdoes⟩
  | riskAction =>
    rw [htype] at henq h'
    obtain ⟨a, e, ha, he, hdoes⟩ := failAction_does w status t hdb hentry henq
      h h'
    exact ⟨_, rfl, .of_does hentry ha he, hdoes⟩
  | riskRevert =>
    rw [htype] at henq h'
    obtain ⟨a, e, ha, he, hdoes⟩ := failAction_does w status t hdb hentry henq
      h h'
    exact ⟨_, rfl, .of_does hentry ha he, hdoes⟩
  | moviepilotSubmit =>
    rw [htype] at henq
    obtain ⟨j, hj, hdoes⟩ := failJob_does t hdb henq h
    exact ⟨_, rfl, ⟨j, mem_overlay_right (List.mem_singleton_self _), hj⟩, hdoes⟩
  | mediaMatch =>
    rw [htype] at henq
    obtain ⟨m, hm, hdoes⟩ := failMatch_does now t hdb henq h
    exact ⟨_, rfl, ⟨m, mem_overlay_right (List.mem_singleton_self _), hm⟩, hdoes⟩
  | _ => exact ⟨_, rfl, trivial, does_pure⟩

theorem failAction_breaks (hdb : db.WellFormed)
    (ha : ∃ a ∈ db.riskActions, task.payload.actionId = some a.id) {actionStatus : ActionStatus}
    {timelineType : String} (h : storedText 2000 (truncateError failure.text) = some text)
    (h' : storedText 1000 (truncateError failure.text) = none) :
    Breaks (failAction w entry task status (truncateError failure.text) actionStatus timelineType)
      db { tasks := [t] } .database := by
  obtain ⟨a, ha, hid⟩ := ha
  have hrows : riskActions.rows (Layers.lay db { tasks := [t] }) = db.riskActions := by
    simp [riskActions, Layers.lay, Store.overlay]
  unfold failAction insertTimeline
  rw [hid, h']
  refine (does_storeError (r := a) h (hrows ▸ ha) (by simp) (fun a' ha' hp => ?_) rfl).breaks
    breaks_fail
  rw [hrows] at ha'
  exact hdb.actionIds.eq ha' ha (of_decide_eq_true hp)

/-- A column that does not accept the text makes the statement fail. -/
theorem failDomain_breaks (hdb : db.WellFormed) (henq : Enqueued db task)
    (h : storedText 2000 (truncateError failure.text) = some text)
    (h' : storedText (errorLimit task.type) (truncateError failure.text) = none) :
    Breaks (failDomain w now entry task status (truncateError failure.text)) db { tasks := [t] }
      .database := by
  unfold Enqueued at henq
  unfold errorLimit at h'
  unfold failDomain
  cases htype : task.type with
  | embyProvision =>
    rw [htype] at h'
    exact breaks_storeError h'
  | riskAction | riskRevert =>
    rw [htype] at henq h'
    exact failAction_breaks hdb henq h h'
  | _ =>
    rw [htype] at h'
    rw [h] at h'
    cases h'

/-! ## Tasks -/

theorem errorLimit_le : errorLimit task.type ≤ 2000 := by
  unfold errorLimit
  split <;> omega

/-- A text that a column does not accept makes `fail` roll back. -/
theorem fail_lost (hdb : db.WellFormed)
    (hlease : ∃ t ∈ db.tasks, t.id = task.id ∧ t.leaseOwner = some w.id) (henq : Enqueued db task)
    (hno : ¬Storable (errorLimit task.type) failure.text) :
    (fail w now entry task failure).alone db = (db, .error .database) := by
  obtain ⟨t, ht, hid, howner⟩ := hlease
  rw [← storedText_isSome, Option.not_isSome_iff_eq_none] at hno
  refine Breaks.alone ?_
  cases h : storedText 2000 (truncateError failure.text) with
  | none => exact (breaks_storeError h).bind
  | some text =>
    obtain ⟨t', -, hdoes⟩ := failTask_does now hdb ht hid howner h
    exact hdoes.breaks (failDomain_breaks hdb henq h hno).bind

/-- **A failed task is recorded exactly if the columns accept its error.** -/
theorem fail_recorded_iff (hdb : db.WellFormed) (hentry : ∀ e ∈ db.timeline, e.id ≠ entry)
    (hlease : ∃ t ∈ db.tasks, t.id = task.id ∧ t.leaseOwner = some w.id) (henq : Enqueued db task) :
    Recorded w now entry task failure db ↔ Storable (errorLimit task.type) failure.text := by
  constructor
  · rintro ⟨db', halone, -, -⟩
    by_contra hno
    rw [fail_lost hdb hlease henq hno] at halone
    cases halone
  · intro hst
    obtain ⟨t, ht, hid, howner⟩ := hlease
    obtain ⟨text', h'⟩ := Option.isSome_iff_exists.1 ((storedText_isSome _ _).2 hst)
    obtain ⟨text, h⟩ := Option.isSome_iff_exists.1 ((storedText_isSome _ _).2 (hst.mono errorLimit_le))
    obtain ⟨t', ⟨hid', hstatus, howner', hexpires, herror⟩, hdoes⟩ :=
      failTask_does now hdb ht hid howner h
    obtain ⟨δ, hδ, hrec, hdomain⟩ := failDomain_does w now
      (failStatus task failure.permanent) t' hdb hentry henq h h'
    refine ⟨db.overlay δ, (hdoes.bind (hdomain.bind does_publish)).alone, ?_, hrec⟩
    refine ⟨t', mem_overlay_right (hδ ▸ List.mem_singleton_self _), hid', ?_, howner', hexpires,
      text, h, herror⟩
    rw [hstatus]
    exact failStatus_cases _ _

/-! ## Batch items -/

/-- A run of `ProcessNextBatch` whose items fail with the texts `texts`. -/
def withTexts (r : BatchRun) (texts : Nat → Bytes) : BatchRun :=
  { r with failRecorded := fun n => (storedText 1000 (truncateError (texts n))).isSome }

/-- The `n`-th item of the run, which has failed, is left in status `failed`. -/
def ItemRecorded (r : BatchRun) (n itemID : Nat) (x : Err) (db : DB) : Prop :=
  ∃ i ∈ ((recordOutcome r n itemID (.error x)).alone db).1.batchItems,
    i.id = itemID ∧ i.status = .failed

theorem failItem_alone {db : DB} {item : BatchItem} (hdb : UniqueBy BatchItem.id db.batchItems)
    (hitem : item ∈ db.batchItems) :
    ((failItem item.id).alone db).1 =
      db.overlay { batchItems := [{ item with status := .failed, attempts := item.attempts + 1 }] } := by
  have hfind : db.batchItems.find? (fun i => decide (i.id = item.id) && true) = some item := by
    simpa using hdb.find?_eq hitem
  unfold Prog.alone failItem updateItem
  simp only [Prog.eval_bind, select, Prog.query, Prog.eval, Function.comp_id, id_eq, hfind, Prog.exec,
    writes, Prog.ofExcept, Prog.publish]

theorem item_recorded_iff {r : BatchRun} {texts : Nat → Bytes} {n : Nat} {x : Err} {db : DB}
    {item : BatchItem} (hdb : UniqueBy BatchItem.id db.batchItems) (hitem : item ∈ db.batchItems)
    (hst : item.status ≠ .failed) :
    ItemRecorded (withTexts r texts) n item.id x db ↔ Storable 1000 (texts n) := by
  rw [← storedText_isSome]
  have hif : recordOutcome (withTexts r texts) n item.id (.error x) =
      if (storedText 1000 (truncateError (texts n))).isSome then failItem item.id else pure () := rfl
  unfold ItemRecorded
  rw [hif]
  split
  · next h =>
    rw [failItem_alone hdb hitem]
    refine ⟨fun _ => h, fun _ => ⟨_, mem_overlay_right (List.mem_singleton_self _), rfl, rfl⟩⟩
  · next h =>
    refine ⟨fun ⟨i, hi, hid, hfailed⟩ => ?_, fun h' => absurd h' h⟩
    rw [hdb.eq hi hitem hid] at hfailed
    exact absurd hfailed hst

/-- **Failures are recorded exactly if the columns accept the error**: of a task whose lease the worker
holds, and of an item of a batch. -/
theorem failures_recorded_iff {w : Worker} {now : Time} {entry : Nat} {task : ClaimedTask}
    {failure : Failure} {db : Store} (hdb : db.WellFormed) (hentry : ∀ e ∈ db.timeline, e.id ≠ entry)
    (hlease : ∃ t ∈ db.tasks, t.id = task.id ∧ t.leaseOwner = some w.id) (henq : Enqueued db task)
    {r : BatchRun} {texts : Nat → Bytes} {n : Nat} {x : Err} {batches : DB} {item : BatchItem}
    (hids : UniqueBy BatchItem.id batches.batchItems) (hitem : item ∈ batches.batchItems)
    (hst : item.status ≠ .failed) :
    (Recorded w now entry task failure db ↔ Storable (errorLimit task.type) failure.text) ∧
      (ItemRecorded (withTexts r texts) n item.id x batches ↔ Storable 1000 (texts n)) :=
  ⟨fail_recorded_iff hdb hentry hlease henq, item_recorded_iff hids hitem hst⟩

/-! ## A long error -/

/-- A provisioning task that the worker holds. -/
def heldTask : Store where
  tasks := [{ id := idOf '1', type := .embyProvision, status := .running, payload := {}, attempts := 1
              maxAttempts := 8, availableAt := 0, leaseOwner := some "worker-1"
              leaseExpiresAt := some 90 }]
  provisionRequests := [{ id := idOf '2', taskId := idOf '1', accountId := idOf '3'
                          instanceId := idOf '4', requestedUsername := "ann"
                          requestedUsernameNormalized := "ann", password := some "secret"
                          status := .provisioning }]

def heldClaim : ClaimedTask := ⟨idOf '1', .embyProvision, {}, 1, 8⟩

/-- An upstream error of `n` letters. -/
def longError (n : Nat) : Failure := ⟨List.replicate n 97, false⟩

theorem heldTask_wellFormed : heldTask.WellFormed := by
  constructor <;> unfold UniqueBy <;> decide

theorem stripAll_letters (n fuel : Nat) :
    stripAll spaceEncodings fuel (List.replicate n 97) = List.replicate n 97 ∧
      stripAll (spaceEncodings.map List.reverse) fuel (List.replicate n 97) = List.replicate n 97 := by
  cases fuel with
  | zero => exact ⟨rfl, rfl⟩
  | succ fuel => cases n <;> exact ⟨rfl, rfl⟩

theorem longError_trim (n : Nat) : trimSpaceBytes (longError n).text = List.replicate n 97 := by
  show (stripAll _ (stripAll spaceEncodings _ (List.replicate n 97)).length
    (stripAll spaceEncodings _ (List.replicate n 97)).reverse).reverse = _
  rw [(stripAll_letters n _).1, List.reverse_replicate, (stripAll_letters n _).2,
    List.reverse_replicate]

theorem longError_utf8 (n : Nat) :
    (String.ofList (List.replicate n 'a')).toByteArray = (List.replicate n (97 : UInt8)).toByteArray := by
  rw [String.toByteArray_ofList]
  show ((List.replicate n 'a').flatMap String.utf8EncodeChar).toByteArray = _
  congr 1
  induction n with
  | zero => rfl
  | succ n ih =>
    rw [List.replicate_succ, List.flatMap_cons, ih]
    rfl

theorem heldTask_leased :
    ∃ t ∈ heldTask.tasks, t.id = heldClaim.id ∧ t.leaseOwner = some "worker-1" :=
  ⟨_, List.mem_singleton_self _, rfl, rfl⟩

theorem heldTask_enqueued : Enqueued heldTask heldClaim :=
  show ∃ r ∈ heldTask.provisionRequests, r.taskId = heldClaim.id from
    ⟨_, List.mem_singleton_self _, rfl⟩

/-- The column of 1000 characters accepts at most 1000 letters. -/
theorem longError_storable {n : Nat} (hn : n ≤ 1800) :
    Storable 1000 (longError n).text ↔ n ≤ 1000 := by
  have hbytes : ((trimSpaceBytes (longError n).text).take 1800).toByteArray =
      (String.ofList (List.replicate n 'a')).toByteArray := by
    rw [longError_trim, List.take_of_length_le (by simpa using hn), longError_utf8]
  constructor
  · rintro ⟨s, he, -, hsp⟩
    rw [String.toByteArray_inj.1 (he.trans hbytes), String.toList_ofList, List.drop_replicate] at hsp
    by_contra hlt
    exact absurd (hsp 'a' (List.mem_replicate.2 ⟨by omega, rfl⟩)) (by decide)
  · intro hle
    refine ⟨_, hbytes.symm, fun hmem => ?_, fun c hc => ?_⟩
    · rw [String.toList_ofList] at hmem
      exact absurd (List.eq_of_mem_replicate hmem) (by decide)
    · rw [String.toList_ofList, List.drop_of_length_le (by simpa using hle)] at hc
      cases hc

/-- The item of the batch. -/
def taggedItem : BatchItem :=
  { id := 1, operationId := idOf '7', accountId := idOf '1', status := .pending, attempts := 0 }

theorem taggedItem_mem : taggedItem ∈ tagBatch.batchItems := List.mem_singleton_self _

/-- A short error is recorded. -/
theorem failures_recorded_iff_shortError :
    ((Recorded ⟨"worker-1", 90⟩ 10 1 heldClaim (longError 3) heldTask ↔
      Storable (errorLimit .embyProvision) (longError 3).text) ∧
    (ItemRecorded (withTexts (batchRun "worker-1" 0) fun _ => (longError 3).text) 0 taggedItem.id
      .database tagBatch ↔ Storable 1000 (longError 3).text)) ∧ Storable 1000 (longError 3).text :=
  ⟨failures_recorded_iff heldTask_wellFormed (by simp [heldTask]) heldTask_leased heldTask_enqueued
    uniqueBy_singleton taggedItem_mem (by decide), (longError_storable (by omega)).2 (by omega)⟩

theorem longErrors_lost {n : Nat} (hn : 1000 < n) (hn' : n ≤ 1800) :
    ¬Recorded ⟨"worker-1", 90⟩ 10 1 heldClaim (longError n) heldTask ∧
      (fail ⟨"worker-1", 90⟩ 10 1 heldClaim (longError n)).alone heldTask =
        (heldTask, .error .database) ∧
      ¬ItemRecorded (withTexts (batchRun "worker-1" 0) fun _ => (longError n).text) 0
        taggedItem.id .database tagBatch := by
  have hno : ¬Storable 1000 (longError n).text := fun h =>
    absurd ((longError_storable hn').1 h) (by omega)
  refine ⟨fun h => hno ?_, fail_lost heldTask_wellFormed heldTask_leased heldTask_enqueued hno,
    fun h => hno ?_⟩
  · exact (fail_recorded_iff heldTask_wellFormed (by simp [heldTask]) heldTask_leased
      heldTask_enqueued).1 h
  · have hitem : UniqueBy BatchItem.id tagBatch.batchItems := uniqueBy_singleton
    exact (item_recorded_iff hitem taggedItem_mem (by decide)).1 h

/-- **A long upstream error is lost**: `fail` rolls back, and the task stays leased in status `running`;
the item of a batch stays pending. -/
theorem longError_lost :
    ¬Recorded ⟨"worker-1", 90⟩ 10 1 heldClaim (longError 1001) heldTask ∧
      (fail ⟨"worker-1", 90⟩ 10 1 heldClaim (longError 1001)).alone heldTask =
        (heldTask, .error .database) ∧
      ¬ItemRecorded (withTexts (batchRun "worker-1" 0) fun _ => (longError 1001).text) 0
        taggedItem.id .database tagBatch :=
  longErrors_lost (by omega) (by omega)

end Sakura.Queue
