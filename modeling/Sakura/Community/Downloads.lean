/-
  What becomes of media requests (platform/media.go, platform/worker.go).

  Every writer holds the row of a request from its first statement that reads the status to its commit,
  so each transaction is one step here; the handler of a task takes several.

  * `submitMoviePilot`: an administrator hands a request to MoviePilot;
  * `readJob`, `markJob`, `acceptJob`: the statements of the task moviepilot.submit;
  * `completeRequests`: the transaction of media.match once the media is found;
  * `Shelf`, `Step`, `Shelf.step`: any step of the system.
-/
import Sakura.Community.Requests
import Sakura.Txn.Alone

namespace Sakura.Community

open Txn

/-! ## Submission -/

/-- A call of `SubmitMoviePilot`: the resource is JSON text, and `jobID` and `taskID` are drawn. -/
structure Submission where
  now : Time
  jobID : UUID
  taskID : UUID
  requestID : UUID
  resource : String
  idempotencyKey : String
  actor : Actor

def Submission.invalid (c : Submission) : Bool :=
  trimSpace c.idempotencyKey = "" || 160 < (trimSpace c.idempotencyKey).utf8ByteSize ||
    512 * 1024 < c.resource.utf8ByteSize

def Submission.fullKey (c : Submission) (r : MediaRequest) : String :=
  "moviepilot:" ++ r.mediaId.text ++ ":" ++ trimSpace c.idempotencyKey

/-- The job that is returned, and whether it was there before. -/
structure Submitted where
  jobID : UUID
  duplicate : Bool

/-- `if requestStatus == "requested" || requestStatus == "approved"` -/
def queueRequest (now : Time) (r : MediaRequest) (b : Board) : Except Err Board :=
  if r.status = .requested || r.status = .approved then
    updateRequest { r with status := .queued, revision := r.revision + 1, updatedAt := now } b
  else pure b

/-- The INSERTs and the UPDATE of a submission. The key goes into a task and into a job. -/
def queueJob (c : Submission) (r : MediaRequest) (b : Board) : Except Err Board := do
  let _ ← varchar 200 (c.fullKey r)
  let key ← varchar 255 (c.fullKey r)
  let label ← varchar 255 c.actor.label
  let _ ← Settings.jsonb (.object c.resource)
  let b ← insertJob c.now c.jobID c.taskID r.mediaId r.id key label b
  let b ← queueRequest c.now r b
  let e ← storedEvent
    { requestId := r.id, eventType := "moviepilot_queued", fromStatus := some r.status
      toStatus := some .queued, actor := c.actor.label, reason := some "MoviePilot task queued" }
  pure (insertRequestEvent e b)

def submitRequest (c : Submission) (r : MediaRequest) (b : Board) : Except Err (Submitted × Board) :=
  if !r.status.active then .error .conflict
  else match activeJob r.mediaId b with
    | some j => .ok (⟨j.id, true⟩, b)
    | none => (queueJob c r b).map (⟨c.jobID, false⟩, ·)

def submitMoviePilot (c : Submission) (b : Board) : Except Err (Submitted × Board) :=
  if c.invalid then .error .invalid
  else do submitRequest c (← findRequest c.requestID b) b

/-! ## The task moviepilot.submit -/

def findJob (id : UUID) (b : Board) : Except Err MoviePilotJob :=
  (b.jobs.find? (·.id = id)).elim (.error .notFound) .ok

/-- `UPDATE moviepilot_jobs … WHERE id=…`, with the partial index on the media and the index on the
external identifiers. -/
def updateJob (j : MoviePilotJob) (b : Board) : Except Err Board :=
  if b.jobs.any fun x => x.id ≠ j.id &&
      ((j.status.active && x.status.active && x.mediaId = j.mediaId) ||
        (j.externalJobId.isSome && x.externalJobId = j.externalJobId)) then .error .database
  else .ok { b with jobs := put MoviePilotJob.id b.jobs j }

/-- The task goes on with a job in this status; it has nothing to do with one that was submitted. -/
def JobStatus.submittable : JobStatus → Bool
  | .pending | .failed | .submitting => true
  | _ => false

def readJob (jobID : UUID) (b : Board) : Bool := b.jobs.any fun j => j.id = jobID && j.status.submittable

def markJob (jobID : UUID) (b : Board) : Except Err Board := do
  let j ← findJob jobID b
  updateJob { j with status := .submitting, attempts := j.attempts + 1, lastError := none } b

/-- The statements on the request of a job that MoviePilot has accepted. -/
def downloadRequest (now : Time) (workerID title : String) (r : MediaRequest) (b : Board) :
    Except Err Board := do
  let b ← updateRequest
    { r with status := .downloading, revision := r.revision + 1, updatedAt := now } b
  let e ← storedEvent
    { requestId := r.id, eventType := "moviepilot_submitted", fromStatus := some r.status
      toStatus := some .downloading, actor := "system:" ++ workerID
      reason := some "MoviePilot accepted the task" }
  notifyRequestSubscribers now r.id "media_request.status" "求片开始下载" (title ++ " 已提交 MoviePilot")
    (insertRequestEvent e b)

/-- The request of an accepted job goes on unless it is completed. -/
def acceptRequest (now : Time) (workerID title : String) (id : UUID) (b : Board) : Except Err Board := do
  let r ← findRequest id b
  if r.status ≠ .completed then downloadRequest now workerID title r b else pure b

/-- The last transaction of the task. -/
def acceptJob (now : Time) (workerID title externalID : String) (jobID : UUID) (b : Board) :
    Except Err Board := do
  let j ← findJob jobID b
  let external ← varchar 255 externalID
  let b ← updateJob
    { j with status := .submitted, externalJobId := some external, lastError := none } b
  match j.requestId with
  | none => pure b
  | some id => acceptRequest now workerID title id b

/-! ## The task media.match -/

/-- `instanceName` is where the media `title` was found. -/
structure Match where
  now : Time
  workerID : String
  mediaID : UUID
  title : String
  instanceName : String

def completeRequest (m : Match) (b : Board) (r : MediaRequest) : Except Err Board := do
  let reason ← varchar 1000 ("已在 Emby 实例 " ++ m.instanceName ++ " 匹配到媒体")
  let resolver ← varchar 255 ("system:" ++ m.workerID)
  let b ← updateRequest
    { r with
      status := .completed, resolutionReason := some reason, resolvedBy := some resolver
      resolvedAt := some m.now, revision := r.revision + 1, updatedAt := m.now } b
  let e ← storedEvent
    { requestId := r.id, eventType := "emby_matched", fromStatus := some r.status
      toStatus := some .completed, actor := "system:" ++ m.workerID
      reason := some "Emby media matched" }
  notifyRequestSubscribers m.now r.id "media_request.status" "求片已入库"
    (m.title ++ " 已可在 " ++ m.instanceName ++ " 播放") (insertRequestEvent e b)

def completeRequests (m : Match) (b : Board) : Except Err Board :=
  (b.requests.filter fun r => r.mediaId = m.mediaID && r.status.active).foldlM (completeRequest m) b

/-! ## Steps -/

/-- A handler of the task moviepilot.submit; it has marked its job, or only read it. -/
structure SubmitRun where
  workerID : String
  jobID : UUID
  marked : Bool := false

structure Shelf extends Automation where
  submitting : List SubmitRun := []

/-- A call of `CreateMediaRequest`. -/
structure Creation where
  draw : RequestDraw
  catalog : Catalog
  accountID : UUID
  mediaID : UUID
  note : String
  actor : Actor

/-- A call of `UpdateMediaRequestStatus`. -/
structure Update where
  draw : RequestDraw
  catalog : Catalog
  id : UUID
  status : String
  reason : String
  expected : Int
  actor : Actor

def Creation.call (c : Creation) : Call RequestView :=
  createMediaRequest c.draw c.catalog c.accountID c.mediaID c.note c.actor

def Update.call (c : Update) : Call RequestView :=
  updateMediaRequestStatus c.draw c.catalog c.id c.status c.reason c.expected c.actor

/-- `n` is the number of a handler.  `failJob` is what `fail` leaves of the job of a task; `other` is a
transaction that writes no request, no event of one, no job and none of their tasks. -/
inductive Step where
  | create (c : Creation)
  | update (c : Update)
  | submit (c : Submission)
  | automation (l : AutomationStep)
  | begin (workerID : String) (jobID : UUID)
  | mark (n : Nat)
  | accept (n : Nat) (now : Time) (title externalID : String)
  | drop (n : Nat)
  | failJob (jobID : UUID) (message : String)
  | matched (m : Match)
  | other (f : Board → Board)

def Shelf.withBoard (s : Shelf) (b : Board) : Shelf := { s with board := b }

/-- A transaction that fails is rolled back. -/
def Shelf.run (s : Shelf) (r : Except Err Board) : Shelf := s.withBoard (r.toOption.getD s.board)

/-- A step that cannot be taken leaves the state as it is. -/
def Shelf.step (parse : String → Option UUID) : Step → Shelf → Shelf
  | .create c, s => s.withBoard (c.call.alone s.board).1
  | .update c, s => s.withBoard (c.call.alone s.board).1
  | .submit c, s => s.run ((submitMoviePilot c s.board).map (·.2))
  | .automation l, s =>
    (Automation.step parse l s.toAutomation).elim s fun a => { s with toAutomation := a }
  | .begin workerID jobID, s =>
    if readJob jobID s.board then { s with submitting := s.submitting ++ [⟨workerID, jobID, false⟩] }
    else s
  | .mark n, s => match s.submitting[n]? with
    | some run => match markJob run.jobID s.board with
      | .ok b =>
        { s.withBoard b with submitting := s.submitting.set n { run with marked := true } }
      | .error _ => { s with submitting := s.submitting.eraseIdx n }
    | none => s
  | .accept n now title externalID, s => match s.submitting[n]? with
    | some run =>
      if run.marked then
        { s.run (acceptJob now run.workerID title externalID run.jobID s.board) with
          submitting := s.submitting.eraseIdx n }
      else s
    | none => s
  | .drop n, s => { s with submitting := s.submitting.eraseIdx n }
  | .failJob jobID message, s => s.withBoard
    { s.board with
      jobs := s.board.jobs.map fun j =>
        if j.id = jobID then { j with status := .failed, lastError := some message } else j }
  | .matched m, s => s.run (completeRequests m s.board)
  | .other f, s => s.withBoard
    { f s.board with
      requests := s.board.requests, requestEvents := s.board.requestEvents
      jobs := s.board.jobs, tasks := s.board.tasks }

def Shelf.steps (parse : String → Option UUID) (l : List Step) (s : Shelf) : Shelf :=
  l.foldl (fun s step => s.step parse step) s

end Sakura.Community
