/-
  The tasks that maintain an instance (platform/worker.go), each on its own.

  * `reconcile`: sets the flag of each bound user to what its account is to have;
  * `syncEntitlement`, `playbackSync`: two tasks that leave the flags;
  * `Job`, `runJobs`: a sequence of tasks.
-/
import Sakura.Risk.Service

namespace Sakura.Risk

open Txn Queue

/-! ## Reconciling -/

/-- An order in which the database returns rows. -/
structure Arrangement (ρ : Type) where
  order : List ρ → List ρ
  perm : ∀ rows, (order rows).Perm rows

/-- A binding with the flag that its user is to have. -/
structure Desired where
  bindingID : UUID
  remoteID : String
  disabled : Bool
  deriving DecidableEq

/-- The latest current membership of the account has expired, or it has none. -/
def membershipExpired (now : Time) (db : Store) (accountID : UUID) : Bool :=
  db.memberships.all fun m => m.accountId ≠ accountID || !m.current || m.expiresAt ≤ now

def desiredOf (now : Time) (instanceID : UUID) (db : Store) (b : Binding) : Option Desired :=
  if b.instanceId = instanceID ∧ b.status ≠ .deleted then
    (db.accounts.find? (·.id = b.accountId)).map fun account =>
      ⟨b.id, b.remoteUserId, account.status ≠ .active || membershipExpired now db account.id⟩
  else none

/-- What a run of `reconcile` meets: the clock, how the listing of the users and the query end, and, for
each binding, the call to the server and the UPDATE of the row. -/
structure ReconcileAnswer where
  now : Time
  listed : Bool := true
  queried : Bool := true
  arrangement : Arrangement Desired
  call : UUID → Reply := fun _ => {}
  update : UUID → Reply := fun _ => {}

/-- The users that a server lists. -/
def listedUsers (instanceID : UUID) (db : Store) : List EmbyUser :=
  db.upstream.filter fun u => u.instanceId = instanceID && u.id ≠ "" && u.name ≠ ""

def updateBinding (bindingID : UUID) (set : Binding → Binding) (db : Store) : Store :=
  { db with bindings := db.bindings.map fun b => if b.id = bindingID then set b else b }

def Replied (r : Reply) : Bool := r.effect && r.answer

/-- The flag is as it is to be, or the call has set it. -/
def flagSet (a : ReconcileAnswer) (remote : EmbyUser) (item : Desired) : Bool :=
  remote.disabled = item.disabled || Replied (a.call item.bindingID)

/-- The loop goes on after the item. -/
def itemDone (a : ReconcileAnswer) (users : List EmbyUser) (item : Desired) : Bool :=
  match users.find? (·.id = item.remoteID) with
  | none => true
  | some remote => flagSet a remote item && Replied (a.update item.bindingID)

/-- The call to the server. -/
def callItem (a : ReconcileAnswer) (instanceID : UUID) (remote : EmbyUser) (item : Desired)
    (db : Store) : Store :=
  if remote.disabled ≠ item.disabled && (a.call item.bindingID).effect then
    setDisabled instanceID item.remoteID item.disabled db
  else db

/-- The UPDATE of the row. -/
def updateItem (a : ReconcileAnswer) (item : Desired) (set : Binding → Binding) (db : Store) :
    Store :=
  if (a.update item.bindingID).effect then updateBinding item.bindingID set db else db

def markMissing (b : Binding) : Binding :=
  { b with status := .missing, lastError := some "remote user missing" }

def markReconciled (disabled : Bool) (b : Binding) : Binding :=
  { b with
    status := if disabled then .suspended else .active, remoteDisabled := some disabled
    lastError := none }

/-- The body of the loop; the error of a missing user's UPDATE is ignored. -/
def reconcileItem (a : ReconcileAnswer) (instanceID : UUID) (users : List EmbyUser) (item : Desired)
    (db : Store) : Store :=
  match users.find? (·.id = item.remoteID) with
  | none => updateItem a item markMissing db
  | some remote =>
    let db := callItem a instanceID remote item db
    if flagSet a remote item then updateItem a item (markReconciled item.disabled) db else db

def reconcileItems (a : ReconcileAnswer) (instanceID : UUID) (users : List EmbyUser) :
    List Desired → Store → Store
  | [], db => db
  | item :: items, db =>
    let db := reconcileItem a instanceID users item db
    if itemDone a users item then reconcileItems a instanceID users items db else db

def reconcile (a : ReconcileAnswer) (instanceID : UUID) (db : Store) : Store :=
  if a.listed && a.queried then
    reconcileItems a instanceID (listedUsers instanceID db)
      (a.arrangement.order (db.bindings.filterMap (desiredOf a.now instanceID db))) db
  else db

/-! ## Other tasks -/

/-- `syncEntitlement` sends back the policy of the user as it was listed; the flag is part of it. -/
def syncEntitlement (reply : Reply) (instanceID bindingID : UUID) (db : Store) : Store :=
  match db.bindings.find? (fun b => b.id = bindingID && b.instanceId = instanceID &&
      b.status ≠ .deleted) with
  | none => db
  | some b => match (listedUsers instanceID db).find? (·.id = b.remoteUserId) with
    | none => db
    | some remote =>
      if reply.effect then setDisabled instanceID b.remoteUserId remote.disabled db else db

/-- `playbackSync` queues actions with their tasks; the rest of its rows is of no other task here. -/
def playbackSync (queued : List (Task × RiskAction)) (db : Store) : Store :=
  if queued.any fun q => db.tasks.any (·.id = q.1.id) || db.riskActions.any (·.id = q.2.id) then db
  else { db with
    tasks := db.tasks ++ queued.map (·.1), riskActions := db.riskActions ++ queued.map (·.2) }

/-- A run of a task on the instance, with what its handler meets. -/
inductive Job where
  | sync (instanceID : UUID) (attempt : Attempt)
  | reconcile (instanceID : UUID) (answer : ReconcileAnswer)
  | playbackSync (queued : List (Task × RiskAction))
  | syncEntitlement (instanceID bindingID : UUID) (reply : Reply)

def Job.run (env : Environment) : Job → Store → Store
  | .sync instanceID attempt, db => ((Queue.sync env attempt instanceID).alone db).1
  | .reconcile instanceID answer, db => Risk.reconcile answer instanceID db
  | .playbackSync queued, db => Risk.playbackSync queued db
  | .syncEntitlement instanceID bindingID reply, db =>
    Risk.syncEntitlement reply instanceID bindingID db

def runJobs (env : Environment) (jobs : List Job) (db : Store) : Store :=
  jobs.foldl (fun db j => j.run env db) db

end Sakura.Risk
