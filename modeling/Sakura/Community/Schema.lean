/-
  The tables of the community (migration 000006) and of its notifications.

  A column that no modelled statement reads is left out, and so are the identifiers of rows that nothing
  refers to.  An object of JSON is the list of its members, as `fmt.Sprint` prints them.

  * `Preference`, `Notification`: what an account is told, and on which channels;
  * `MediaRequest`, `MoviePilotJob`: requests for media and their jobs;
  * `AutomationRule`, `AutomationEvent`, `Execution`: rules, the events they wait for, and the log;
  * `Board`: these tables.
-/
import Sakura.Text

namespace Sakura.Community

/-! ## Objects -/

abbrev Fields := List (String × String)

/-- `fmt.Sprint(fields[key])` -/
def Fields.sprint (fields : Fields) (key : String) : String :=
  (fields.lookup key).getD "<nil>"

/-! ## Notifications -/

inductive Channel where
  | inApp | telegram
  deriving DecidableEq, Repr

structure Preference where
  accountId : UUID
  eventKey : String
  channel : Channel
  enabled : Bool
  deriving DecidableEq

inductive DeliveryStatus where
  | pending | sent
  deriving DecidableEq, Repr

structure Notification where
  accountId : UUID
  title : String
  body : String
  channel : Channel
  deliveryStatus : DeliveryStatus
  metadata : Fields
  createdAt : Time
  deriving DecidableEq

/-! ## Media requests -/

inductive RequestStatus where
  | requested | approved | queued | downloading | completed | rejected | canceled
  deriving DecidableEq, Repr

def RequestStatus.text : RequestStatus → String
  | .requested => "requested"
  | .approved => "approved"
  | .queued => "queued"
  | .downloading => "downloading"
  | .completed => "completed"
  | .rejected => "rejected"
  | .canceled => "canceled"

/-- The statuses of the partial index media_requests_active_media_uidx. -/
def RequestStatus.active : RequestStatus → Bool
  | .requested | .approved | .queued | .downloading => true
  | _ => false

structure MediaRequest where
  id : UUID
  requestNo : String
  mediaId : UUID
  requestedBy : UUID
  status : RequestStatus := .requested
  note : Option String := none
  subscriberCount : Nat := 1
  resolutionReason : Option String := none
  resolvedBy : Option String := none
  resolvedAt : Option Time := none
  revision : Nat := 1
  createdAt : Time
  updatedAt : Time
  deriving DecidableEq

structure Subscription where
  requestId : UUID
  accountId : UUID
  note : Option String := none
  deriving DecidableEq

inductive JobStatus where
  | pending | submitting | submitted | downloading | completed | failed | canceled
  deriving DecidableEq, Repr

/-- The statuses of the partial index moviepilot_jobs_active_media_uidx. -/
def JobStatus.active : JobStatus → Bool
  | .failed | .canceled => false
  | _ => true

structure MoviePilotJob where
  id : UUID
  mediaId : UUID
  requestId : Option UUID
  taskId : Option UUID
  idempotencyKey : String
  status : JobStatus := .pending
  externalJobId : Option String := none
  attempts : Nat := 0
  lastError : Option String := none
  createdBy : String
  createdAt : Time
  deriving DecidableEq

/-- A task of type moviepilot.submit. -/
structure SubmitTask where
  id : UUID
  idempotencyKey : String
  jobId : UUID
  deriving DecidableEq

structure RequestEvent where
  requestId : UUID
  eventType : String
  fromStatus : Option RequestStatus := none
  toStatus : Option RequestStatus := none
  actor : String
  reason : Option String := none
  deriving DecidableEq

/-! ## Automation -/

/-- A member of an action; the object of `resource` is not read. -/
structure AutomationRule where
  id : UUID
  code : String
  name : String
  triggerEvent : String
  conditions : Fields
  actions : List Fields
  enabled : Bool
  priority : Nat
  revision : Nat := 1
  deriving DecidableEq

inductive EventStatus where
  | pending | running | succeeded | failed
  deriving DecidableEq, Repr

structure AutomationEvent where
  id : UUID
  eventKey : String
  eventType : String
  subjectType : String
  subjectId : String
  payload : Fields
  status : EventStatus := .pending
  attempts : Nat := 0
  maxAttempts : Nat := 5
  leaseOwner : Option String := none
  leaseExpiresAt : Option Time := none
  availableAt : Time
  createdAt : Time
  finishedAt : Option Time := none
  deriving DecidableEq

inductive ExecutionStatus where
  | succeeded | failed | skipped
  deriving DecidableEq, Repr

/-- UNIQUE(event_id,rule_id) -/
structure Execution where
  eventId : UUID
  ruleId : UUID
  status : ExecutionStatus
  deriving DecidableEq

def Execution.key (x : Execution) : UUID × UUID := (x.eventId, x.ruleId)

/-! ## Tables -/

/-- `telegram` are the accounts with an identity of kind telegram that is not disabled. -/
structure Board where
  preferences : List Preference := []
  telegram : List UUID := []
  notifications : List Notification := []
  requests : List MediaRequest := []
  subscriptions : List Subscription := []
  requestEvents : List RequestEvent := []
  jobs : List MoviePilotJob := []
  tasks : List SubmitTask := []
  rules : List AutomationRule := []
  events : List AutomationEvent := []
  executions : List Execution := []

end Sakura.Community
