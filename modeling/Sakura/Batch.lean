/-
  Batch operations (platform/batch.go).

  * `processBatchItem`: the effect of one item, in a transaction of its own;
  * `processNextBatch`: claim an operation, process a chunk of its items, finish the chunk;
  * `pauseBatch`, `resumeBatch`, `cancelBatch`, `retryBatch`: what administrators do to it.
-/
import Mathlib.Data.List.Sort
import Sakura.Membership

namespace Sakura

open Txn

/-! ## Items -/

/-- `UPDATE batch_operation_items SET … WHERE id=… AND p`; how many rows it changed. -/
def updateItem (id : Nat) (p : BatchItem → Bool) (set : BatchItem → BatchItem)
    (site : Site := .sql) : Call Nat := do
  match ← select fun v => v.batchItems.find? fun i => i.id = id && p i with
  | none => pure 0
  | some _ => .exec site fun v =>
    match v.batchItems.find? fun i => i.id = id && p i with
    | none => { locks := [exclusive (.item id)], result := .ok 0 }
    | some i => writes [exclusive (.item id)] { batchItems := [{ set i with id }] } 1

/-- The same for each item of a list that still satisfies `p`. -/
def updateItems (p : BatchItem → Bool) (set : BatchItem → BatchItem) : List Nat → Call Unit
  | [] => pure ()
  | id :: ids => do
    let _ ← updateItem id p set
    updateItems p set ids

/-- `INSERT INTO account_tag_assignments … ON CONFLICT DO NOTHING` -/
def addTag (accountID tagID : UUID) (actor : Actor) : Call Unit := do
  let known ← select fun v => v.config.tags.contains tagID
  .check known .database
  insertOrIgnore (.tagAssignment (accountID, tagID)) [.tagAssignment (accountID, tagID)]
    { tagAssignments := [{ accountId := accountID, tagId := tagID, assignedBy := actor.label }] }
    .database

/-- `DELETE FROM account_tag_assignments` -/
def removeTag (accountID tagID : UUID) : Call Unit := do
  match ← select fun v => v.tagAssignments.find? fun t => t.key = (accountID, tagID) && !t.deleted with
  | none => pure ()
  | some _ => exec fun v =>
    match v.tagAssignments.find? fun t => t.key = (accountID, tagID) && !t.deleted with
    | none => { locks := [exclusive (.tag (accountID, tagID))], result := .ok () }
    | some t => writes [exclusive (.tag (accountID, tagID))]
        { tagAssignments := [{ t with deleted := true }] } ()

def notificationAllowedTx (accountID : UUID) (eventKey channel : String) : Call Bool := do
  match ← select fun v => v.config.notificationPreferences.find? fun p =>
      p.accountId = accountID && p.eventKey = eventKey && p.channel = channel with
  | none => pure true
  | some p => pure p.enabled

def notify (fresh : Fresh) (operation : BatchOperation) (accountID : UUID) : Call Unit := do
  let channel := normalize operation.payload.channel
  let channel := if channel = "" then "in_app" else channel
  let eventKey := normalize operation.payload.eventKey
  let eventKey := if eventKey = "" then "broadcast.general" else eventKey
  match ← notificationAllowedTx accountID eventKey channel with
  | false => pure ()
  | true => do
    let reachable ← select fun v => channel ≠ "telegram" || v.config.telegramAccounts.contains accountID
    .check reachable .notFound
    .check (channel = "in_app" ∨ channel = "telegram") .database
    insertOrIgnore (.notification (operation.id, accountID, channel))
      [.notificationId fresh.row, .notification (operation.id, accountID, channel)]
      { notifications := [{ id := fresh.row, accountId := accountID, batchOperationId := operation.id
                            title := operation.payload.title, body := operation.payload.body, channel
                            deliveryStatus := if channel = "in_app" then "sent" else "pending"
                            eventKey }] } .database

/-- The effect of an item; for a membership_adjust the account and the days granted. -/
def itemEffect (fresh : Fresh) (operation : BatchOperation) (accountID : UUID) (actor : Actor) :
    Call (Option (UUID × Int64)) :=
  match operation.operationType with
  | .tagAdd => do
    let tagID ← .orFail .invalid operation.payload.tagId
    addTag accountID tagID actor
    pure none
  | .tagRemove => do
    let tagID ← .orFail .invalid operation.payload.tagId
    removeTag accountID tagID
    pure none
  | .membershipAdjust => do
    let planID ← .orFail .invalid operation.payload.planId
    let membership ← assignMembershipTx fresh accountID planID fresh.clock
      operation.payload.durationDays "batch_adjustment" operation.id.text actor
    pure (some (accountID, membership.days))
  | .notification => do
    notify fresh operation accountID
    pure none

def processBatchItem (fresh : Fresh) (operation : BatchOperation) (itemID : Nat) (accountID : UUID)
    (workerID : String) : Call Unit := do
  let changed ← updateItem itemID (fun i => i.status = .pending)
    fun i => { i with status := .running, attempts := i.attempts + 1 }
  .check (changed = 1) .conflict
  let granted ← itemEffect fresh operation accountID ⟨"system", workerID⟩
  let _ ← updateItem itemID (fun _ => true) fun i => { i with status := .succeeded }
  .publish (.batchItem itemID granted)

/-! ## Chunks -/

/-- `UPDATE batch_operations SET … WHERE id=… AND p` -/
def updateBatch (id : UUID) (p : BatchOperation → Bool) (set : BatchOperation → BatchOperation) :
    Call Nat :=
  updateRow .batchOperations DB.batchOperations BatchOperation.id (fun b => b.id = id && p b)
    fun b => { batchOperations := [{ set b with id }] }

def getBatch (id : UUID) : Call BatchOperation :=
  selectOne .notFound fun v => v.batchOperations.find? (·.id = id)

/-- What a run of `ProcessNextBatch` takes from outside: the operation that FOR UPDATE SKIP LOCKED
picks, the clocks, and whether the record of the `n`-th item's failure fits its column. -/
structure BatchRun where
  pick : Option UUID
  workerID : String
  now : Time
  leaseUntil : Nat → Time
  fresh : Nat → Fresh
  failRecorded : Nat → Bool

/-- `status IN ('pending','retry') OR (status='running' AND lease_expires_at<NOW())` -/
def BatchOperation.claimable (b : BatchOperation) (now : Time) : Bool :=
  b.status = .pending || b.status = .retry ||
    (b.status = .running && b.leaseExpiresAt.any (· < now))

def itemIds (v : DB) (operationID : UUID) (status : ItemStatus) : List Nat :=
  (v.batchItems.filter fun i => i.operationId = operationID && i.status = status).map (·.id)

/-- The transaction that claims an operation. -/
def claimBatch (r : BatchRun) (operationID : UUID) : Call Bool := do
  match ← selectLock .batchOperations .exclusive DB.batchOperations BatchOperation.id
      fun b => b.id = operationID && b.claimable r.now with
  | none => pure false
  | some _ => do
    let _ ← updateBatch operationID (fun _ => true) fun b =>
      { b with
        status := .running, attempts := b.attempts + 1, leaseOwner := some r.workerID
        leaseExpiresAt := some (r.leaseUntil 0) }
    updateItems (fun i => i.operationId = operationID && i.status = .running)
      (fun i => { i with status := .pending })
      (← select fun v => itemIds v operationID .running)
    .publish (.batchState operationID)
    pure true

/-- The statement that records a failed item, on its own. -/
def failItem (itemID : Nat) : Call Unit := do
  let _ ← updateItem itemID (fun _ => true)
    (fun i => { i with status := .failed, attempts := i.attempts + 1 }) (.failItem itemID)
  .publish (.itemFailed itemID)

/-- `UPDATE batch_operations SET lease_expires_at=… WHERE id=… AND lease_owner=… AND
status='running'` -/
def renewBatch (r : BatchRun) (operationID : UUID) (n : Nat) : Call Unit := do
  let _ ← updateBatch operationID
    (fun b => b.leaseOwner = some r.workerID && b.status = .running)
    fun b => { b with leaseExpiresAt := some (r.leaseUntil (n + 1)) }
  .publish (.batchState operationID)

/-- What the worker does with the outcome of the `n`-th item. -/
def recordOutcome (r : BatchRun) (n itemID : Nat) : Except Err Unit → Call Unit
  | .ok () => pure ()
  | .error _ => if r.failRecorded n then failItem itemID else pure ()

/-- The read of the status before an item.  The lock only marks the transactions that have seen the
batch running: it is shared, and excludes nobody. -/
def checkBatch (id : UUID) : Call BatchStatus :=
  .exec .sql fun v =>
    match v.batchOperations.find? (·.id = id) with
    | none => Prog.refuse .notFound
    | some b => { locks := if b.status = .running then [(.checked id, .share)] else []
                  result := .ok b.status }

/-- The loop over the items of a chunk; whether it reached the end. -/
def processItems (r : BatchRun) (operation : BatchOperation) : Nat → List BatchItem → Call Bool
  | _, [] => pure true
  | n, item :: items => do
    let status ← checkBatch operation.id
    if status ≠ .running then pure false
    else do
      let outcome ← .attempt
        (processBatchItem (r.fresh n) operation item.id item.accountId r.workerID)
      recordOutcome r n item.id outcome
      renewBatch r operation.id n
      processItems r operation (n + 1) items

/-- The items that are counted.  The lock only marks the transactions that have counted: it is shared,
and excludes nobody. -/
def countItems (operationID : UUID) : Call (List BatchItem) :=
  .exec .sql fun v => { locks := [(.counted operationID, .share)]
                        result := .ok (v.batchItems.filter (·.operationId = operationID)) }

def finalizeBatchChunk (operationID : UUID) (workerID : String) : Call Unit := do
  let items ← countItems operationID
  let count := fun status => (items.filter fun i : BatchItem => i.status = status).length
  .check (count .running = 0) .database
  let status := if count .pending ≠ 0 then .pending
    else if 0 < count .failed then .failed else .succeeded
  let _ ← updateBatch operationID (fun b => b.leaseOwner = some workerID) fun b =>
    { b with
      status, processedCount := count .succeeded + count .failed
      succeededCount := count .succeeded, failedCount := count .failed, leaseOwner := none
      leaseExpiresAt := none }
  .publish (.batchState operationID)

/-- The items of a chunk: `ORDER BY id LIMIT chunk`. -/
def pendingItems (v : DB) (operationID : UUID) : List BatchItem :=
  let chunk := v.config.batchChunkSize.getD 50
  let chunk := if chunk < 1 ∨ 500 < chunk then 50 else chunk
  ((v.batchItems.filter fun i => i.operationId = operationID && i.status = .pending).insertionSort
    fun i j => i.id ≤ j.id).take chunk.toNat

def processNextBatch (r : BatchRun) : Call Bool := do
  match r.pick with
  | none => pure false
  | some operationID => do
    match ← claimBatch r operationID with
    | false => pure false
    | true => do
      let operation ← getBatch operationID
      let items ← select fun v => pendingItems v operationID
      match ← processItems r operation 0 items with
      | false => pure true
      | true => do
        finalizeBatchChunk operationID r.workerID
        pure true

/-! ## Transitions -/

def batchTransition (id : UUID) (next : BatchStatus) (allowed : List BatchStatus) :
    Call BatchOperation := do
  let changed ← updateBatch id (fun b => allowed.contains b.status) fun b =>
    { b with status := next, leaseOwner := none, leaseExpiresAt := none }
  .check (changed = 1) .conflict
  .publish (.batchState id)
  getBatch id

def pauseBatch (id : UUID) : Call BatchOperation :=
  batchTransition id .paused [.pending, .retry, .running]

def resumeBatch (id : UUID) : Call BatchOperation := batchTransition id .pending [.paused]

def cancelBatch (id : UUID) : Call BatchOperation :=
  batchTransition id .canceled [.pending, .retry, .paused, .running, .failed]

def retryBatch (id : UUID) : Call BatchOperation := do
  let changed ← updateBatch id (fun b => b.status = .failed) fun b =>
    { b with status := .retry, attempts := 0, leaseOwner := none, leaseExpiresAt := none }
  .check (changed = 1) .conflict
  updateItems (fun i => i.operationId = id && i.status = .failed)
    (fun i => { i with status := .pending }) (← select fun v => itemIds v id .failed)
  .publish (.batchState id)
  getBatch id

end Sakura
