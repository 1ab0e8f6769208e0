/-
  Notifications and media requests (platform/media.go, platform/community.go).

  Each function is what one transaction, or a part of one, leaves of the tables; an error rolls it back.

  * `queuePreferredNotification`, `notifyRequestSubscribers`: notifications;
  * `emitAutomationEvent`: the event that rules wait for;
  * `validRequestTransition`, `updateRequest`, `insertJob`: the rows of a request.
-/
import Sakura.Txn.Table
import Sakura.Community.Schema

namespace Sakura.Community

open Txn

/-! ## Notifications -/

def notificationAllowed (accountID : UUID) (eventKey : String) (channel : Channel) (b : Board) :
    Bool :=
  (b.preferences.find? fun p =>
    p.accountId = accountID && p.eventKey = eventKey && p.channel = channel).all (·.enabled)

/-- The notification on one channel, unless the account does not want it or cannot be reached. -/
def queueNotification (now : Time) (accountID : UUID) (eventKey title body : String)
    (metadata : Fields) (b : Board) (channel : Channel) : Except Err Board :=
  if !notificationAllowed accountID eventKey channel b then pure b
  else if channel = .telegram && accountID ∉ b.telegram then pure b
  else do
    let title ← varchar 160 title
    let body ← varchar 4000 body
    pure { b with
      notifications := b.notifications ++ [
        { accountId := accountID, title, body, channel
          deliveryStatus := if channel = .inApp then .sent else .pending
          metadata := metadata ++ [("event_key", eventKey)], createdAt := now }] }

def queuePreferredNotification (now : Time) (accountID : UUID) (eventKey title body : String)
    (metadata : Fields) (b : Board) : Except Err Board :=
  [Channel.inApp, .telegram].foldlM (queueNotification now accountID eventKey title body metadata) b

def notifyRequestSubscribers (now : Time) (requestID : UUID) (eventKey title body : String)
    (b : Board) : Except Err Board :=
  (b.subscriptions.filter (·.requestId = requestID)).foldlM (fun b x =>
    queuePreferredNotification now x.accountId eventKey title body
      [("media_request_id", requestID.text)] b) b

/-! ## Events -/

/-- `INSERT INTO automation_events … ON CONFLICT(event_key) DO NOTHING`; `id` is new. -/
def emitAutomationEvent (id : UUID) (now : Time) (key eventType subjectType subjectID : String)
    (payload : Fields) (b : Board) : Board :=
  if b.events.any (·.eventKey = key) then b
  else { b with
    events := b.events ++ [
      { id, eventKey := key, eventType, subjectType, subjectId := subjectID, payload
        availableAt := now, createdAt := now }] }

/-! ## Requests -/

def validRequestTransition : RequestStatus → RequestStatus → Bool
  | .requested, t => t ∈ [.approved, .rejected, .canceled, .completed]
  | .approved, t => t ∈ [.queued, .rejected, .canceled, .completed]
  | .queued, t => t ∈ [.downloading, .rejected, .canceled, .completed]
  | .downloading, t => t ∈ [.completed, .rejected, .canceled]
  | _, _ => false

/-- `UPDATE media_requests … WHERE id=…`, with the partial index on the media of active requests. -/
def updateRequest (r : MediaRequest) (b : Board) : Except Err Board :=
  if r.status.active && b.requests.any (fun x =>
      x.id ≠ r.id && x.status.active && x.mediaId = r.mediaId) then .error .database
  else .ok { b with requests := put MediaRequest.id b.requests r }

def findRequest (id : UUID) (b : Board) : Except Err MediaRequest :=
  (b.requests.find? (·.id = id)).elim (.error .notFound) .ok

/-- `resolution_reason=…,resolved_by=…,resolved_at=CASE …` -/
def MediaRequest.resolve (r : MediaRequest) (now : Time) (status : RequestStatus)
    (reason resolver : String) : MediaRequest :=
  { r with
    status, resolutionReason := some reason, resolvedBy := some resolver
    resolvedAt := if status.active then none else some now
    revision := r.revision + 1, updatedAt := now }

/-- A job that is not over, of the media. -/
def activeJob (mediaID : UUID) (b : Board) : Option MoviePilotJob :=
  b.jobs.find? fun j => j.mediaId = mediaID && j.status.active

/-- The INSERTs of a task and its job, with their keys and the partial index on the media. -/
def insertJob (now : Time) (jobID taskID mediaID requestID : UUID) (key createdBy : String)
    (b : Board) : Except Err Board :=
  if b.tasks.any (·.idempotencyKey = key) || b.jobs.any (·.idempotencyKey = key) ||
      (activeJob mediaID b).isSome then .error .database
  else .ok { b with
    tasks := b.tasks ++ [⟨taskID, key, jobID⟩]
    jobs := b.jobs ++ [
      { id := jobID, mediaId := mediaID, requestId := some requestID, taskId := some taskID
        idempotencyKey := key, createdBy, createdAt := now }] }

def insertRequestEvent (e : RequestEvent) (b : Board) : Board :=
  { b with requestEvents := b.requestEvents ++ [e] }

end Sakura.Community
