/-
  The task queue (platform/worker.go, platform/tasks.go).

  * `claim`, `keepLease`, `finish`, `fail`: what a worker does to a task around its handler;
  * `retryTask`: what an administrator does to a failed one.
-/
import Sakura.Text
import Sakura.Queue.Schema

namespace Sakura.Queue

open Txn

/-! ## Calls -/

/-- What a commit is, or a call to an Emby server. -/
inductive Event where
  | claimed (task : UUID) (owner : String)
  | renewed (task : UUID) (owner : String)
  | finished (task : UUID) (owner : String)
  | failed (task : UUID) (owner : String)
  | retried (task : UUID)
  | requested (task : UUID)
  | marked (request : UUID)
  | userCreated (request : Option UUID) (user : UUID × String)
  | remembered (request : UUID)
  | passwordSet (request : UUID) (user : UUID × String)
  | provisioned (request : UUID)
  | bound (binding : UUID)
  | adopted (embyInstance : UUID)
  | synced (embyInstance : UUID)
  | invited
  | redeemed (redemption : UUID)
  | revoked (invitation : UUID)
  deriving DecidableEq

/-- The statements that a run may be restricted at. -/
inductive Site where
  | sql
  /-- The UPDATE of a task that `claim` has locked. -/
  | claimTask (task : UUID)
  /-- The UPDATE of the task row with which `fail` begins, by a worker that has claimed it with so many
  attempts. -/
  | failTask (task : UUID) (owner : String) (attempts : Nat)
  /-- A worker lists the users of a server for the request, as it has read it. -/
  | listUsers (request : ProvisionRequest)
  /-- Somebody else creates a user of the server with the normalized name. -/
  | outsideUser (name : UUID × String)
  /-- The INSERT of a binding of the account to the user. -/
  | bind (account : UUID) (user : UUID × String)
  /-- The COUNT of the bindings of the account, before one more on the instance is granted. -/
  | capacity (account : UUID) (embyInstance : UUID)
  deriving DecidableEq, Inhabited

abbrev Call := Prog Site Store Lock Event Err

/-- The error of a handler; `permanent` says that it is a PermanentError. -/
structure Failure where
  text : Bytes
  permanent : Bool

/-- The handler of a task. -/
abbrev Handler := Prog Site Store Lock Event Failure

/-- A worker process, with the duration of its leases. -/
structure Worker where
  id : String
  lease : Time

structure ClaimedTask where
  id : UUID
  type : TaskType
  payload : Payload
  attempts : Nat
  maximum : Nat
  deriving DecidableEq

/-! ## Leases -/

/-- The tasks that the query of `claim` finds. -/
def Task.claimable (t : Task) (now : Time) : Bool :=
  ((t.status = .pending || t.status = .retry) && t.availableAt ≤ now) ||
    (t.status = .running && t.leaseExpiresAt.any (· < now))

/-- The provision request of a task that is claimed. -/
def claimRequest (item : ClaimedTask) : Call (Option ProvisionRequest) :=
  if item.type = .embyProvision then
    provisionRequests.updateRow
      (fun r => r.taskId = item.id &&
        (r.status = .pending || r.status = .failed || r.status = .provisioning))
      fun r => { r with status := .provisioning }
  else pure none

/-- `pick` is the task that FOR UPDATE SKIP LOCKED picks. -/
def claim (w : Worker) (now : Time) (pick : UUID) : Call (Option ClaimedTask) := do
  match ← tasks.lockRow .exclusive fun t => t.id = pick && t.claimable now with
  | none => pure none
  | some t =>
    let item : ClaimedTask := ⟨t.id, t.type, t.payload, t.attempts + 1, t.maxAttempts⟩
    let _ ← tasks.updateRow (fun x => x.id = item.id) (fun x =>
      { x with
        status := .running, attempts := item.attempts, startedAt := x.startedAt.or (some now)
        leaseOwner := some w.id, leaseExpiresAt := some (now + w.lease) }) fun id => .claimTask id
    let _ ← claimRequest item
    .publish (.claimed item.id w.id)
    pure (some item)

/-- One renewal; the worker stops renewing when it returns false. -/
def keepLease (w : Worker) (now : Time) (taskID : UUID) : Call Bool := do
  let changed ← tasks.updateRow
    (fun t => t.id = taskID && t.status = .running && t.leaseOwner = some w.id)
    fun t => { t with leaseExpiresAt := some (now + w.lease) }
  .publish (.renewed taskID w.id)
  pure changed.isSome

def finish (w : Worker) (now : Time) (task : ClaimedTask) : Call Unit := do
  let _ ← tasks.updateRow (fun t => t.id = task.id && t.leaseOwner = some w.id)
    fun t => { t with
      status := .succeeded, lastError := none, leaseOwner := none, leaseExpiresAt := none
      finishedAt := some now }
  .publish (.finished task.id w.id)

/-! ## Failures -/

def failStatus (task : ClaimedTask) (permanent : Bool) : TaskStatus :=
  if permanent then .failed else if task.maximum ≤ task.attempts then .dead else .retry

/-- `math.Min(math.Pow(2, attempts), 300)` seconds. -/
def retryDelay (attempts : Nat) : Time := min (2 ^ attempts) 300 * 1000000000

/-- An UPDATE that writes the message to a column VARCHAR(n); the statement fails if the column does
not accept it. -/
def storeError {ρ κ : Type} [DecidableEq κ] (n : Nat) (message : Bytes)
    (T : Rows Store Versions ρ κ Lock) (p : ρ → Bool) (set : String → ρ → ρ)
    (site : Site := .sql) : Call Unit :=
  match storedText n message with
  | none => .fail .database
  | some text => do
    let _ ← T.updateRow p (set text) (fun _ => site) site
    pure ()

def failTask (w : Worker) (now : Time) (task : ClaimedTask) (status : TaskStatus) (message : Bytes) :
    Call Unit :=
  storeError 2000 message tasks (fun t => t.id = task.id && t.leaseOwner = some w.id)
    (fun text t => { t with
      status, lastError := some text, availableAt := now + retryDelay task.attempts
      leaseOwner := none, leaseExpiresAt := none
      finishedAt := if status = .failed ∨ status = .dead then some now else none })
    (.failTask task.id w.id task.attempts)

def failRequest (task : ClaimedTask) (status : TaskStatus) (message : Bytes) : Call Unit :=
  storeError 1000 message provisionRequests (fun r => r.taskId = task.id) fun text r =>
    { r with
      status := if status = .failed ∨ status = .dead then .failed else .pending
      lastError := some text }

/-- `INSERT INTO risk_event_timeline … SELECT event_id,… FROM risk_actions WHERE id=…`; `entry` is the
next value of the sequence. -/
def insertTimeline (entry : Nat) (actionID : UUID) (eventType actor : String) (message : Bytes)
    (details : TimelineDetails) : Call Unit :=
  match storedText 1000 message with
  | none => .fail .database
  | some text => .exec default fun v =>
    match v.riskActions.find? (·.id = actionID) with
    | none => { result := .ok () }
    | some a =>
      timeline.inserted (fun v => v.timeline.any (·.id = entry)) [(.timeline entry, .exclusive)]
        { id := entry, eventId := a.eventId, eventType, actor, reason := some text, details }
        .database v

/-- The risk action of a task, `failed` or `revert_failed`, with its entry in the timeline. -/
def failAction (w : Worker) (entry : Nat) (task : ClaimedTask) (status : TaskStatus)
    (message : Bytes) (actionStatus : ActionStatus) (timelineType : String) : Call Unit :=
  match task.payload.actionId with
  | none => pure ()
  | some actionID => do
    storeError 2000 message riskActions (fun a => a.id = actionID)
      fun text a => { a with status := actionStatus, lastError := some text }
    insertTimeline entry actionID timelineType ("system:" ++ w.id) message
      ⟨actionID, task.id, task.attempts, status⟩

def failJob (task : ClaimedTask) (message : Bytes) : Call Unit :=
  match task.payload.moviepilotJobId with
  | none => pure ()
  | some jobID =>
    storeError 2000 message moviepilotJobs (fun j => j.id = jobID)
      fun text j => { j with status := .failed, lastError := some text }

def failMatch (now : Time) (task : ClaimedTask) (message : Bytes) : Call Unit :=
  match task.payload.mediaId, task.payload.instanceId with
  | some mediaID, some instanceID =>
    storeError 2000 message mediaMatches (fun m => m.key = (mediaID, instanceID))
      fun text m => { m with status := .failed, lastError := some text, lastCheckedAt := now }
  | _, _ => pure ()

/-- The row of the domain that the task maintains. -/
def failDomain (w : Worker) (now : Time) (entry : Nat) (task : ClaimedTask) (status : TaskStatus)
    (message : Bytes) : Call Unit :=
  match task.type with
  | .embyProvision => failRequest task status message
  | .riskAction => failAction w entry task status message .failed "action_failed"
  | .riskRevert => failAction w entry task status message .revertFailed "revert_failed"
  | .moviepilotSubmit => failJob task message
  | .mediaMatch => failMatch now task message
  | _ => pure ()

def fail (w : Worker) (now : Time) (entry : Nat) (task : ClaimedTask) (failure : Failure) :
    Call Unit := do
  let status := failStatus task failure.permanent
  let message := truncateError failure.text
  failTask w now task status message
  failDomain w now entry task status message
  .publish (.failed task.id w.id)

/-! ## Administrators -/

def retryTask (now : Time) (id : UUID) : Call Unit := do
  let changed ← tasks.updateRow (fun t => t.id = id && (t.status = .failed || t.status = .dead))
    fun t => { t with
      status := .retry, attempts := 0, availableAt := now, leaseOwner := none
      leaseExpiresAt := none, lastError := none, finishedAt := none }
  .check changed.isSome .conflict
  let _ ← provisionRequests.updateRow (fun r => r.taskId = id && r.status = .failed)
    fun r => { r with status := .pending, lastError := none }
  .publish (.retried id)

end Sakura.Queue
