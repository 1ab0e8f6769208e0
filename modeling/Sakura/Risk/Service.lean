/-
  Risk actions (platform/risk.go, platform/worker.go).

  A risk event may have an action: to stop a session, or to disable a user of a server.  A task executes
  it; a review of the event as a false positive cancels it, or has it reverted.

  * `RiskEvent`, `State`: the events, and the actions of whose effects the servers know;
  * `dispositionRiskEvent`, `markRiskFalsePositive`: reviews;
  * `Stage`, `advance`: the handler `executeRiskAction`, a statement or a call to the server at a time;
  * `Label`, `step`: any interleaving of them.
-/
import Sakura.Emby.Handlers

namespace Sakura.Risk

open Txn Queue

/-! ## Rows -/

inductive EventStatus where
  | opened | acknowledged | resolved | falsePositive
  deriving DecidableEq, Repr

structure RiskEvent where
  id : UUID
  instanceId : UUID
  status : EventStatus
  dispositionReason : Option String := none
  dispositionBy : Option String := none
  deriving DecidableEq

/-- Where a handler is, with the row of its action as it has read it: `loaded` before its guarded UPDATE
and `guarded` after it; `listed` knows the user of the action, `prepared` has kept the state before,
`applied` has had its effect, `stored` has noted that. -/
inductive Stage where
  | start
  | loaded (action : RiskAction)
  | guarded (action : RiskAction)
  | listed (action : RiskAction) (remote : Option EmbyUser)
  | prepared (action : RiskAction) (remote : Option EmbyUser) (before : Option BeforeState)
  | applied (action : RiskAction) (before : Option BeforeState)
  | stored (action : RiskAction) (before : Option BeforeState)
  | ended (failure : Option Failure)

def Stage.outcome : Stage → Option (Option Failure)
  | .ended failure => some failure
  | _ => none

/-- `effects` is the history of the effects that the servers have carried out: the sessions stopped and
the users disabled, by their actions. -/
structure State extends Workers Stage where
  events : List RiskEvent := []
  effects : List UUID := []

/-! ## Reviews -/

/-- The text of a disposition. -/
def dispositionReason (reason : String) : Except Err String :=
  if trimSpace reason = "" ∨ 1000 < (trimSpace reason).utf8ByteSize then .error .invalid
  else varchar 1000 (trimSpace reason)

def setEvent (eventID : UUID) (status : EventStatus) (reason : String) (actor : Actor)
    (events : List RiskEvent) : List RiskEvent :=
  events.map fun e => if e.id = eventID then { e with
    status, dispositionReason := some reason, dispositionBy := some actor.label } else e

/-- `DispositionRiskEvent` -/
def dispositionRiskEvent (eventID : UUID) (status : EventStatus) (reason : String) (actor : Actor)
    (s : State) : Except Err State := do
  let reason ← dispositionReason reason
  if status ≠ .acknowledged ∧ status ≠ .resolved then .error .invalid
  else if s.events.any fun e => e.id = eventID && e.status ≠ .falsePositive then
    pure { s with events := setEvent eventID status reason actor s.events }
  else .error .conflict

/-- `ORDER BY created_at DESC LIMIT 1` -/
def latestAction (db : Store) (eventID : UUID) : Option RiskAction :=
  db.riskActions.find? fun a => a.eventId = eventID &&
    db.riskActions.all fun b => b.eventId ≠ eventID || b.createdAt ≤ a.createdAt

/-- `UPDATE risk_actions SET … WHERE id=… AND …` -/
def updateAction (actionID : UUID) (p : RiskAction → Bool) (set : RiskAction → RiskAction)
    (db : Store) : Store :=
  { db with riskActions := db.riskActions.map fun a => if a.id = actionID && p a then set a else a }

def canceledText : String := "canceled after false-positive review"

/-- The review cancels the action. -/
def RiskAction.cancelable (a : RiskAction) : Bool :=
  (a.status = .pending || a.status = .failed) &&
    !(a.status = .failed && a.actionEffectApplied && a.actionType = .disableUser)

/-- The review has the action reverted. -/
def RiskAction.revertible (a : RiskAction) : Bool :=
  (a.status = .succeeded || (a.status = .failed && a.actionEffectApplied)) &&
    a.actionType = .disableUser

/-- The task of a canceled action, unless it is running. -/
def cancelTask (taskID : UUID) (now : Time) (tasks : List Task) : List Task :=
  tasks.map fun t =>
    if t.id = taskID ∧ (t.status = .pending ∨ t.status = .retry ∨ t.status = .failed ∨
      t.status = .dead) then
      { t with
        status := .failed, lastError := some canceledText, leaseOwner := none
        leaseExpiresAt := none, finishedAt := some now }
    else t

def cancelAction (now : Time) (a : RiskAction) (db : Store) : Store :=
  let db := updateAction a.id (fun _ => true)
    (fun x => { x with status := .canceled, lastError := some canceledText }) db
  match a.taskId with
  | none => db
  | some taskID => { db with tasks := cancelTask taskID now db.tasks }

def queueRevert (taskID : UUID) (now : Time) (instanceID : UUID) (a : RiskAction) (db : Store) :
    Except Err Store := do
  let tasks ← insertTask taskID .riskRevert ("risk-revert:" ++ a.id.text)
    { instanceId := some instanceID, actionId := some a.id } now db.tasks
  pure (updateAction a.id (fun _ => true)
    (fun x => { x with status := .revertPending, taskId := some taskID }) { db with tasks })

/-- What the review does to the latest action of the event. -/
def reviewAction (taskID : UUID) (now : Time) (instanceID : UUID) (db : Store) :
    Option RiskAction → Except Err Store
  | none => .ok db
  | some a =>
    if a.status = .running || a.status = .reverting then .error .conflict
    else if RiskAction.cancelable a then .ok (cancelAction now a db)
    else if RiskAction.revertible a then queueRevert taskID now instanceID a db
    else .ok db

/-- `MarkRiskFalsePositive` -/
def markRiskFalsePositive (taskID : UUID) (now : Time) (eventID : UUID) (reason : String)
    (actor : Actor) (s : State) : Except Err State := do
  let reason ← dispositionReason reason
  match s.events.find? (·.id = eventID) with
  | none => .error .notFound
  | some e =>
    if e.status = .falsePositive then .error .conflict else do
      let db ← reviewAction taskID now e.instanceId s.db (latestAction s.db eventID)
      pure { s with db, events := setEvent eventID .falsePositive reason actor s.events }

/-! ## The handler -/

/-- The stage after a statement or a call, if the handler knows that it is carried out. -/
def goOn (a : Answer) (next : Stage) : Stage :=
  if a.ok then next else .ended (some a.failure)

section

variable (revert : Bool)

def expected : List ActionStatus :=
  if revert then [.revertPending, .revertFailed] else [.pending, .failed]

def nextStatus : ActionStatus := if revert then .reverting else .running

/-- `completedStatus` -/
def doneStatus : ActionStatus := if revert then .reverted else .succeeded

/-- The effect was applied when the row was read. -/
def effectApplied (a : RiskAction) : Bool :=
  if revert then a.revertEffectApplied else a.actionEffectApplied

/-- The first statement: the row of the action. -/
def loadAction (instanceID : UUID) (task : ClaimedTask) (db : Store) : Stage :=
  match task.payload.actionId with
  | none => .ended (some (permanent "risk task has invalid action id"))
  | some actionID =>
    match db.riskActions.find? (fun a => a.id = actionID && a.instanceId = instanceID) with
    | none => .ended (some (permanent "not found"))
    | some action =>
      if action.status = doneStatus revert then .ended none else .loaded action

def startTask (a : Answer) (task : ClaimedTask) (db : Store) : Stage :=
  match instanceOf a task db with
  | .error failure => .ended (some failure)
  | .ok instanceID =>
    if task.type = .riskAction ∨ task.type = .riskRevert then loadAction revert instanceID task db
    else .ended a.other

/-- The guarded UPDATE; an error of it counts as no row. -/
def guardAction (a : Answer) (action : RiskAction) (s : State) : Stage × State :=
  let fits := fun x : RiskAction => (expected revert).contains x.status
  let found := s.db.riskActions.any fun x => x.id = action.id && fits x
  (if a.ok && found then .guarded action
    else .ended (some (permanent "risk action is not executable in its current state")),
    if a.reply.effect then { s with
      db := updateAction action.id fits
        (fun x => { x with status := nextStatus revert, attempts := x.attempts + 1, lastError := none })
        s.db }
    else s)

/-- The user of the action, as the server lists it. -/
def remoteOf (action : RiskAction) (db : Store) : Option EmbyUser :=
  db.upstream.find? fun u => u.instanceId = action.instanceId && u.id ≠ "" && u.name ≠ "" &&
    u.id = action.remoteUserId.getD ""

/-- The state before the effect, kept unless the row has it. -/
def keepBefore (a : Answer) (action : RiskAction) (remote : Option EmbyUser)
    (before : BeforeState) (s : State) : Stage × State :=
  match action.beforeState with
  | some kept => (.prepared action remote (some kept), s)
  | none => (goOn a (.prepared action remote (some before)),
      if a.reply.effect then { s with
        db := updateAction action.id (·.status = .running)
          (fun x => { x with beforeState := some before }) s.db }
      else s)

/-- What comes before the call to the server. -/
def prepare (a : Answer) (action : RiskAction) (remote : Option EmbyUser) (s : State) :
    Stage × State :=
  if effectApplied revert action then (.prepared action remote action.beforeState, s)
  else match revert, action.actionType, remote with
    | false, .stopSession, remote => keepBefore a action remote .sessionActive s
    | true, .stopSession, _ => (.ended (some (permanent "risk action is not reversible")), s)
    | _, .disableUser, none => (.ended (some (permanent "risk action remote user is missing")), s)
    | false, .disableUser, some u => keepBefore a action remote (.disabled u.disabled) s
    | true, .disableUser, some _ => (.prepared action remote action.beforeState, s)

/-- The server sets the flag of a user. -/
def setDisabled (instanceID : UUID) (userID : String) (disabled : Bool) (db : Store) : Store :=
  { db with upstream := db.upstream.map fun u =>
      if u.key = (instanceID, userID) then { u with disabled } else u }

/-- The flag that the user is to have. -/
def flagAfter (before : Option BeforeState) : Bool :=
  if revert then before = some (.disabled true) else true

/-- The effect on the server, where it is not there yet. -/
def applyEffect (a : Answer) (action : RiskAction) (remote : Option EmbyUser)
    (before : Option BeforeState) (s : State) : Stage × State :=
  if effectApplied revert action then (.applied action before, s)
  else match action.actionType with
    | .stopSession =>
      if trimSpace (action.remoteSessionId.getD "") = "" then
        (.ended (some ⟨bytesOf "Emby session id is empty", false⟩), s)
      else (goOn a (.applied action before),
        if a.reply.effect then { s with effects := s.effects ++ [action.id] } else s)
    | .disableUser =>
      if remote.any (·.disabled = flagAfter revert before) then (.applied action before, s)
      else (goOn a (.applied action before),
        if a.reply.effect then { s with
          db := setDisabled action.instanceId (action.remoteUserId.getD "") (flagAfter revert before)
            s.db
          effects := if revert then s.effects else s.effects ++ [action.id] }
        else s)

/-- The note that the effect was applied. -/
def storeEffect (a : Answer) (action : RiskAction) (before : Option BeforeState) (s : State) :
    Stage × State :=
  if effectApplied revert action then (.stored action before, s)
  else (goOn a (.stored action before),
    if a.reply.effect then { s with
      db := updateAction action.id (fun _ => true)
        (fun x => if revert then { x with revertEffectApplied := true }
          else { x with actionEffectApplied := true }) s.db }
    else s)

/-- The last transaction. -/
def completeAction (a : Answer) (action : RiskAction) (before : Option BeforeState) (s : State) :
    Stage × State :=
  let db := updateAction action.id (fun _ => true) (fun x => { x with
    status := doneStatus revert, beforeState := if revert then x.beforeState else before
    lastError := none }) s.db
  (goOn a (.ended none),
    if a.reply.effect then { s with
      db := if action.actionType = .disableUser then { db with
          bindings := db.bindings.map fun b =>
            if b.remote = (action.instanceId, action.remoteUserId.getD "") then { b with
              remoteDisabled := some (flagAfter revert before), lastError := none
              status := if flagAfter revert before then .suspended else .active }
            else b }
        else db }
    else s)

end

/-- The next statement or call of a handler, with the stage after it. -/
def advance (a : Answer) (task : ClaimedTask) (s : State) (stage : Stage) :
    Option (Stage × State) :=
  let revert := decide (task.type = .riskRevert)
  match stage with
  | .start => some (startTask revert a task s.db, s)
  | .loaded action => some (guardAction revert a action s)
  | .guarded action =>
    if action.actionType = .disableUser ∧ !effectApplied revert action then
      some (goOn a (.listed action (remoteOf action s.db)), s)
    else some (.listed action none, s)
  | .listed action remote => some (prepare revert a action remote s)
  | .prepared action remote before => some (applyEffect revert a action remote before s)
  | .applied action before => some (storeEffect revert a action before s)
  | .stored action before => some (completeAction revert a action before s)
  | .ended _ => none

/-! ## Steps -/

inductive Label where
  | queue (step : QueueStep)
  | dispositionRiskEvent (eventID : UUID) (status : EventStatus) (reason : String) (actor : Actor)
  | markRiskFalsePositive (taskID : UUID) (now : Time) (eventID : UUID) (reason : String)
      (actor : Actor)
  | advance (n : Nat) (answer : Answer)

/-- A refused request changes nothing. -/
def accepted (s : State) : Except Err State → State
  | .ok s' => s'
  | .error _ => s

def step : Label → State → Option State
  | .queue l, s =>
    (s.toWorkers.queueStep .start Stage.outcome l).map fun ws => { s with toWorkers := ws }
  | .dispositionRiskEvent eventID status reason actor, s =>
    some (accepted s (dispositionRiskEvent eventID status reason actor s))
  | .markRiskFalsePositive taskID now eventID reason actor, s =>
    some (accepted s (markRiskFalsePositive taskID now eventID reason actor s))
  | .advance n a, s =>
    match s.running[n]? with
    | none => none
    | some r => (advance a r.task s r.stage).map fun (stage, s') =>
      { s' with running := s.running.set n { r with stage } }

end Sakura.Risk
