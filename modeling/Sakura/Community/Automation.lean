/-
  Automation rules (platform/community.go).

  A worker claims an event, reads the rules and runs each that the event triggers in a transaction of its
  own.  Between any two of its statements that commit, other steps may come.

  * `automationConditionsMatch`, `executeAutomationAction`: what a rule does;
  * `Stage`, `AutomationRun`: where a worker is;
  * `runRule`, `recordFailure`: the rows of the log;
  * `AutomationStep`, `Automation.step`: `ProcessNextAutomation`, step by step.
-/
import Mathlib.Data.List.Sort
import Sakura.Community.Media

namespace Sakura.Community

open Txn

/-! ## Actions -/

/-- The error of an action; `permanent` says that it is a PermanentError. -/
structure Fault where
  err : Err
  permanent : Bool := false
  deriving DecidableEq

def faultOf {α : Type} : Except Err α → Except Fault α := Except.mapError (⟨·, false⟩)

def permanent {α : Type} : Except Err α → Except Fault α := Except.mapError (⟨·, true⟩)

def automationConditionsMatch (conditions payload : Fields) : Bool :=
  conditions.all fun c => payload.sprint c.1 = c.2

def stringOr (value fallback : String) : String :=
  let result := trimSpace value
  if result = "" || result = "<nil>" then fallback else result

/-- `parse` is `uuid.Parse`. -/
def automationUUID (parse : String → Option UUID) (raw : String) (payload : Fields)
    (fallback : String) : Except Err UUID :=
  let value := trimSpace raw
  let value :=
    if "$event.".toList.isPrefixOf value.toList then
      payload.sprint (String.ofList (value.toList.drop "$event.".length))
    else if value = "" then payload.sprint fallback
    else value
  (parse value).elim (.error .invalid) .ok

/-- What the actions of a rule know: the event, the rule, the worker, and the identifiers that are drawn
for a job and its task. -/
structure Occasion where
  parse : String → Option UUID
  now : Time
  eventID : UUID
  rule : AutomationRule
  payload : Fields
  workerID : String
  jobID : UUID
  taskID : UUID

def Occasion.actor (o : Occasion) : String := "system:" ++ o.workerID

def notifyAccount (o : Occasion) (action : Fields) (b : Board) : Except Fault Board := do
  let accountID ← permanent
    (automationUUID o.parse (action.sprint "account_id") o.payload "account_id")
  let title := trimSpace (action.sprint "title")
  let body := trimSpace (action.sprint "body")
  if title = "" || title = "<nil>" || body = "" || body = "<nil>" || 160 < title.utf8ByteSize ||
      4000 < body.utf8ByteSize then .error ⟨.invalid, true⟩
  else faultOf (queuePreferredNotification o.now accountID
    (stringOr (action.sprint "event_key") "automation.notification") title body
    [("automation_rule_id", o.rule.id.text), ("automation_event_id", o.eventID.text)] b)

/-- `status=CASE WHEN status IN ('requested','approved') THEN 'queued' ELSE status END` -/
def RequestStatus.queue : RequestStatus → RequestStatus
  | .requested | .approved => .queued
  | status => status

def submitAutomation (o : Occasion) (action : Fields) (b : Board) : Except Fault Board := do
  let requestID ← permanent
    (automationUUID o.parse (action.sprint "request_id") o.payload "media_request_id")
  let r ← faultOf (findRequest requestID b)
  if (activeJob r.mediaId b).isSome then pure b
  else do
    let key := "automation:" ++ o.rule.id.text ++ ":" ++ o.eventID.text
    let b ← faultOf (insertJob o.now o.jobID o.taskID r.mediaId requestID key o.actor b)
    let b ← faultOf (updateRequest
      { r with status := r.status.queue, revision := r.revision + 1, updatedAt := o.now } b)
    pure (insertRequestEvent
      { requestId := requestID, eventType := "automation_moviepilot_queued"
        toStatus := some .queued, actor := o.actor
        reason := some "Automation queued MoviePilot" } b)

/-- The status of a text in the list of `set_request_status`. -/
def statusOf (text : String) : Option RequestStatus :=
  [RequestStatus.approved, .queued, .downloading, .completed, .rejected, .canceled].find?
    (·.text = text)

def changeStatus (o : Occasion) (r : MediaRequest) (status : RequestStatus) (reason : String)
    (b : Board) : Except Fault Board := do
  let text ← faultOf (varchar 1000 reason)
  let b ← faultOf (updateRequest (r.resolve o.now status text o.actor) b)
  faultOf (notifyRequestSubscribers o.now r.id "media_request.status" "求片状态已更新" reason
    (insertRequestEvent
      { requestId := r.id, eventType := "automation_status_changed", fromStatus := some r.status
        toStatus := some status, actor := o.actor, reason := some text } b))

/-- The request as it is set to a status, or left if it has it already. -/
def setStatus (o : Occasion) (requestID : UUID) (status : RequestStatus) (reason : String)
    (b : Board) : Except Fault Board := do
  let r ← faultOf (findRequest requestID b)
  if r.status = status then pure b
  else if !validRequestTransition r.status status then .error ⟨.conflict, true⟩
  else changeStatus o r status reason b

def setRequestStatus (o : Occasion) (action : Fields) (b : Board) : Except Fault Board := do
  let requestID ← permanent
    (automationUUID o.parse (action.sprint "request_id") o.payload "media_request_id")
  (statusOf (normalize (action.sprint "status"))).elim (.error ⟨.invalid, true⟩) fun status =>
    setStatus o requestID status
      (stringOr (action.sprint "reason") ("Automation rule: " ++ o.rule.name)) b

def executeAutomationAction (o : Occasion) (action : Fields) (b : Board) : Except Fault Board :=
  match normalize (action.sprint "type") with
  | "notify_account" => notifyAccount o action b
  | "submit_moviepilot" => submitAutomation o action b
  | "set_request_status" => setRequestStatus o action b
  | _ => .error ⟨.invalid, true⟩

/-! ## Transactions of a rule -/

def ruleOrder (r r' : AutomationRule) : Prop :=
  r.priority < r'.priority ∨ (r.priority = r'.priority ∧ r.id.text ≤ r'.id.text)

instance : DecidableRel ruleOrder := fun _ _ => inferInstanceAs (Decidable (_ ∨ _))

def listAutomationRules (b : Board) : List AutomationRule := b.rules.insertionSort ruleOrder

def findExecution (eventID ruleID : UUID) (b : Board) : Option ExecutionStatus :=
  (b.executions.find? fun x => x.key = (eventID, ruleID)).map (·.status)

/-- `DELETE FROM automation_executions WHERE … AND status='failed'` -/
def deleteFailed (eventID ruleID : UUID) (b : Board) : Board :=
  { b with
    executions := b.executions.filter fun x =>
      !(x.key = (eventID, ruleID) && x.status = .failed) }

def insertExecution (eventID ruleID : UUID) (status : ExecutionStatus) (b : Board) :
    Except Fault Board :=
  if b.executions.any (·.key = (eventID, ruleID)) then .error ⟨.database, false⟩
  else .ok { b with executions := b.executions ++ [⟨eventID, ruleID, status⟩] }

/-- What the transaction of a rule comes to: it commits, or an action fails, or another statement. -/
inductive Outcome where
  | committed (b : Board) (ran : Bool)
  | refused (fault : Fault)
  | broken (fault : Fault)

/-- The transaction of a rule after it has read `previous`. -/
def runRule (o : Occasion) (previous : Option ExecutionStatus) (b : Board) : Outcome :=
  let b := if previous = some .failed then deleteFailed o.eventID o.rule.id b else b
  if automationConditionsMatch o.rule.conditions o.payload then
    match o.rule.actions.foldlM (fun b action => executeAutomationAction o action b) b with
    | .error fault => .refused fault
    | .ok b => match insertExecution o.eventID o.rule.id .succeeded b with
      | .error fault => .broken fault
      | .ok b => .committed b true
  else match insertExecution o.eventID o.rule.id .skipped b with
    | .error fault => .broken fault
    | .ok b => .committed b false

/-- `INSERT … 'failed' … ON CONFLICT(event_id,rule_id) DO UPDATE SET status='failed'` -/
def recordFailure (eventID ruleID : UUID) (b : Board) : Board :=
  { b with executions := put Execution.key b.executions ⟨eventID, ruleID, .failed⟩ }

/-! ## Workers -/

/-- Where a worker is with its event.  `claimed` has not read the rules; `next` is between two rules,
`opened` has begun the transaction of a rule and read the log; `refused` has rolled it back. -/
inductive Stage where
  | claimed
  | next (rules : List AutomationRule)
  | opened (rule : AutomationRule) (rules : List AutomationRule) (previous : Option ExecutionStatus)
  | refused (rule : AutomationRule) (fault : Fault)
  | ended (failure : Option Fault)

structure AutomationRun where
  workerID : String
  eventID : UUID
  eventType : String
  payload : Fields
  attempts : Nat
  maximum : Nat
  stage : Stage

/-- `effects` is the history of the rules whose actions were committed. -/
structure Automation where
  board : Board := {}
  running : List AutomationRun := []
  effects : List (UUID × UUID) := []

/-- The events that the query of `ProcessNextAutomation` finds. -/
def AutomationEvent.claimable (e : AutomationEvent) (now : Time) : Bool :=
  (((e.status = .pending || e.status = .failed) && e.availableAt ≤ now) ||
    (e.status = .running && e.leaseExpiresAt.any (· < now))) && e.attempts < e.maxAttempts

def updateEvent (p : AutomationEvent → Bool) (set : AutomationEvent → AutomationEvent) (b : Board) :
    Board :=
  { b with events := b.events.map fun e => if p e then set e else e }

/-- `if lease < 30*time.Second { lease = 90 * time.Second }` -/
def leaseOf (lease : Time) : Time := if lease < 30000000000 then 90000000000 else lease

/-- `pick` is the event that FOR UPDATE SKIP LOCKED picks. -/
def claimEvent (workerID : String) (lease now : Time) (pick : UUID) (s : Automation) :
    Option Automation :=
  (s.board.events.find? fun e => e.id = pick && e.claimable now).map fun e =>
    { s with
      board := updateEvent (·.id = e.id) (fun x => { x with
        status := .running, attempts := e.attempts + 1, leaseOwner := some workerID
        leaseExpiresAt := some (now + leaseOf lease) }) s.board
      running := s.running ++ [
        ⟨workerID, e.id, e.eventType, e.payload, e.attempts + 1, e.maxAttempts, .claimed⟩] }

/-- What the worker leaves of its event when it is done. -/
def settleEvent (now : Time) (r : AutomationRun) (failure : Option Fault) (b : Board) : Board :=
  match failure with
  | none => updateEvent (fun e => e.id = r.eventID && e.leaseOwner = some r.workerID) (fun e =>
      { e with
        status := .succeeded, leaseOwner := none, leaseExpiresAt := none
        finishedAt := some now }) b
  | some fault =>
    let attempts := if fault.permanent then r.maximum else r.attempts
    updateEvent (·.id = r.eventID) (fun e =>
      { e with
        status := .failed, attempts, leaseOwner := none, leaseExpiresAt := none
        availableAt := now + min (2 ^ attempts) 300 * 1000000000
        finishedAt := if r.maximum ≤ attempts then some now else none }) b

/-- What a step draws: the time, and the identifiers of a job and its task. -/
structure Draw where
  now : Time
  jobID : UUID
  taskID : UUID

def AutomationRun.occasion (parse : String → Option UUID) (d : Draw) (r : AutomationRun)
    (rule : AutomationRule) : Occasion :=
  ⟨parse, d.now, r.eventID, rule, r.payload, r.workerID, d.jobID, d.taskID⟩

/-- The next statement of a worker that commits, or the end of its work: the stage it comes to, the
tables, and the rule whose actions were committed. -/
def AutomationRun.advance (parse : String → Option UUID) (d : Draw) (r : AutomationRun) (b : Board) :
    Option Stage × Board × Option UUID :=
  match r.stage with
  | .claimed => (some (.next (listAutomationRules b)), b, none)
  | .next [] => (some (.ended none), b, none)
  | .next (rule :: rules) =>
    if !rule.enabled || rule.triggerEvent ≠ r.eventType then (some (.next rules), b, none)
    else (some (.opened rule rules (findExecution r.eventID rule.id b)), b, none)
  | .opened rule rules previous =>
    if previous = some .succeeded ∨ previous = some .skipped then (some (.next rules), b, none)
    else match runRule (r.occasion parse d rule) previous b with
      | .committed b ran => (some (.next rules), b, if ran then some rule.id else none)
      | .refused fault => (some (.refused rule fault), b, none)
      | .broken fault => (some (.ended (some fault)), b, none)
  | .refused rule fault => (some (.ended (some fault)), recordFailure r.eventID rule.id b, none)
  | .ended failure => (none, settleEvent d.now r failure b, none)

/-- `n` is the number of a worker that runs. -/
inductive AutomationStep where
  | claim (workerID : String) (lease now : Time) (pick : UUID)
  | advance (n : Nat) (draw : Draw)
  | crash (n : Nat)

def Automation.step (parse : String → Option UUID) : AutomationStep → Automation → Option Automation
  | .claim workerID lease now pick, s => claimEvent workerID lease now pick s
  | .advance n d, s =>
    s.running[n]?.map fun r =>
      match r.advance parse d s.board with
      | (stage, board, effect) =>
        { board
          running := stage.elim (s.running.eraseIdx n) fun stage =>
            s.running.set n { r with stage }
          effects := s.effects ++ (effect.map (r.eventID, ·)).toList }
  | .crash n, s => some { s with running := s.running.eraseIdx n }

end Sakura.Community
