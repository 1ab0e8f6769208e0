/-
  Requests for media (platform/media.go), statement by statement.

  A transaction keeps its writes as a function on the tables, and its locks until it ends.

  * `Lock`, `Site`, `Writes`: what transactions lock and write;
  * `createMediaRequest`, `updateMediaRequestStatus`, `getMediaRequest`: the functions of the service.
-/
import Sakura.Txn.Rows
import Sakura.Settings.Casts
import Sakura.Community.Tickets

namespace Sakura.Community

open Txn

/-! ## Transactions -/

inductive Lock where
  /-- `pg_advisory_xact_lock` of a media -/
  | media (id : UUID)
  | request (id : UUID)
  /-- UNIQUE(request_no) -/
  | requestNo (text : String)
  /-- media_requests_active_media_uidx -/
  | activeMedia (mediaID : UUID)
  | subscription (key : UUID × UUID)
  /-- UNIQUE(event_key) of automation_events -/
  | eventKey (key : String)
  deriving DecidableEq

/-- The INSERT of a request, and any other statement. -/
inductive Site where
  | statement
  | insertRequest (id : UUID) (requestNo : String)
  deriving DecidableEq

instance : Inhabited Site := ⟨.statement⟩

/-- What a commit has done to the requests. -/
inductive Change where
  | created (id accountID : UUID)
  | joined (id accountID : UUID)
  | moved (id : UUID) (status : RequestStatus)
  deriving DecidableEq

abbrev Call (α : Type) := Prog Site Board Lock Change Err α

abbrev Writes := Board → Board

instance : Layers Board Writes where
  lay b w := w b
  none := id
  merge w w' := w' ∘ w
  lay_none _ := rfl
  lay_lay _ _ _ := rfl

def Subscription.key (x : Subscription) : UUID × UUID := (x.requestId, x.accountId)

def mediaRequests : Rows Board Writes MediaRequest UUID Lock where
  rows := Board.requests
  key := MediaRequest.id
  lock := Lock.request
  version r := fun b => { b with requests := put MediaRequest.id b.requests r }

/-! ## Statements -/

/-- What the calls read and none of them writes: the media that exist, and the value of the setting
media.auto_match_enabled. -/
structure Catalog where
  media : List UUID
  autoMatch : Option Settings.Json

/-- What `CreateMediaRequest` reads of the setting, with `false` where it has no value; `none` if the
cast fails, and with it the transaction. -/
def Catalog.autoMatches (catalog : Catalog) : Option Bool :=
  match catalog.autoMatch with
  | none => some false
  | some value => match value.asBoolean with
    | .null => some false
    | .value b => some b
    | .error => none

/-- The time of a transaction, and the identifiers that are drawn in it. -/
structure RequestDraw where
  now : Time
  requestID : UUID
  eventID : UUID

def requestNumber (d : RequestDraw) : String :=
  "REQ-" ++ dateText d.now ++ "-" ++
    toUpper (String.ofList ((d.requestID.text.toList.take 8).filter (· ≠ '-')))

/-- `status IN ('requested','approved','queued','downloading','completed')` -/
def joinable (mediaID : UUID) (r : MediaRequest) : Bool :=
  r.mediaId = mediaID && (r.status.active || r.status = .completed)

/-- `ORDER BY CASE status WHEN 'completed' THEN 1 ELSE 0 END,created_at DESC` -/
def joinOrder (r r' : MediaRequest) : Prop :=
  (r.status ≠ .completed ∧ r'.status = .completed) ∨
    ((r.status = .completed ↔ r'.status = .completed) ∧ r'.createdAt ≤ r.createdAt)

instance : DecidableRel joinOrder := fun _ _ => inferInstanceAs (Decidable (_ ∨ _))

def joinableRequests (mediaID : UUID) (b : Board) : List UUID :=
  ((b.requests.filter (joinable mediaID)).insertionSort joinOrder).map (·.id)

/-- `NULLIF(note,'')` in a column VARCHAR(1000). -/
def storedNote (note : String) : Except Err (Option String) := (varchar 1000 note).map nullIfEmpty

def storedEvent (e : RequestEvent) : Except Err RequestEvent := do
  let actor ← varchar 255 e.actor
  let reason ← e.reason.mapM (varchar 1000)
  pure { e with actor, reason }

def recordEvent (e : RequestEvent) : Call Unit :=
  .exec default fun _ => match storedEvent e with
    | .ok e => { write := insertRequestEvent e, result := .ok () }
    | .error x => Prog.refuse x

def emitEvent (d : RequestDraw) (key eventType : String) (id : UUID) (payload : Fields) : Call Unit :=
  .exec default fun _ =>
    { locks := [(.eventKey key, .exclusive)]
      write := emitAutomationEvent d.eventID d.now key eventType "media_request" id.text payload
      result := .ok () }

/-- The notifications of the subscribers that the statement sees. -/
def notifySubscribers (d : RequestDraw) (id : UUID) (title body : String) : Call Unit :=
  .exec default fun v =>
    match notifyRequestSubscribers d.now id "media_request.status" title body v with
    | .ok b =>
      { write := fun s => { s with
          notifications := s.notifications ++ b.notifications.drop v.notifications.length }
        result := .ok () }
    | .error x => Prog.refuse x

/-! ## Creation -/

/-- A row with the identifier, the number or the active media of `r`. -/
def requestTaken (r : MediaRequest) (b : Board) : Bool :=
  b.requests.any fun x =>
    x.id = r.id || x.requestNo = r.requestNo || (x.status.active && x.mediaId = r.mediaId)

def insertRequest (r : MediaRequest) : Call Unit :=
  mediaRequests.insertRow (requestTaken r)
    [(.request r.id, .exclusive), (.requestNo r.requestNo, .exclusive),
      (.activeMedia r.mediaId, .exclusive)] r .conflict (.insertRequest r.id r.requestNo)

/-- A request where there is none to join. -/
def newRequest (d : RequestDraw) (catalog : Catalog) (accountID mediaID : UUID) (note : String)
    (actor : Actor) : Call UUID := do
  let text ← .orFail .conflict (storedNote note).toOption
  insertRequest
    { id := d.requestID, requestNo := requestNumber d, mediaId := mediaID, requestedBy := accountID
      note := text, createdAt := d.now, updatedAt := d.now }
  recordEvent
    { requestId := d.requestID, eventType := "created", toStatus := some .requested
      actor := actor.label, reason := some note }
  emitEvent d ("media_request.created:" ++ d.requestID.text) "media_request.created" d.requestID
    [("media_request_id", d.requestID.text), ("media_id", mediaID.text),
      ("account_id", accountID.text)]
  -- the error of this statement is dropped, but the next one fails
  .check (catalog.autoMatches ≠ none) .database
  pure d.requestID

def requestFor (d : RequestDraw) (catalog : Catalog) (accountID mediaID : UUID) (note : String)
    (actor : Actor) : Option MediaRequest → Call UUID
  | some r => pure r.id
  | none => newRequest d catalog accountID mediaID note actor

/-- `INSERT INTO media_request_subscriptions … ON CONFLICT DO NOTHING`; whether it inserted. -/
def subscribe (x : Subscription) : Call Bool :=
  .exec default fun v =>
    { locks := [(.subscription x.key, .exclusive)]
      write := fun s =>
        if v.subscriptions.any (·.key = x.key) then s
        else { s with subscriptions := s.subscriptions ++ [x] }
      result := .ok !(v.subscriptions.any (·.key = x.key)) }

/-- The subscriber is counted if it is new to a request that exists. -/
def countSubscriber (d : RequestDraw) (id : UUID) (note : String) (actor : Actor) : Bool → Call Unit
  | false => pure ()
  | true => do
    let _ ← mediaRequests.updateRow (·.id = id) fun r =>
      { r with subscriberCount := r.subscriberCount + 1, updatedAt := d.now }
    recordEvent
      { requestId := id, eventType := "subscribed", actor := actor.label, reason := some note }

def createMediaRequestTx (d : RequestDraw) (catalog : Catalog) (accountID mediaID : UUID)
    (note : String) (actor : Actor) : Call (UUID × Bool) := do
  .exec default fun _ => { locks := [(.media mediaID, .exclusive)], result := .ok () }
  .check (mediaID ∈ catalog.media) .notFound
  let found ← mediaRequests.lockFirst .exclusive (joinable mediaID)
    (← read (joinableRequests mediaID))
  let id ← requestFor d catalog accountID mediaID note actor found
  let text ← .orFail .database (storedNote note).toOption
  let added ← subscribe ⟨id, accountID, text⟩
  countSubscriber d id note actor (added && found.isSome)
  pure (id, found.isSome)

/-- What `GetMediaRequest` serves. -/
structure RequestView where
  request : MediaRequest
  note : Option String
  subscribed : Bool
  duplicate : Bool := false

def viewRequest (id : UUID) (viewer : Option UUID) (b : Board) : Option RequestView :=
  (b.requests.find? fun r =>
    r.id = id && viewer.all fun a => b.subscriptions.any (·.key = (id, a))).map fun r =>
    { request := r
      note := viewer.elim r.note fun a =>
        (b.subscriptions.find? (·.key = (id, a))).bind (·.note)
      subscribed := viewer.any fun a => b.subscriptions.any (·.key = (id, a)) }

def getMediaRequest (catalog : Catalog) (id : UUID) (viewer : Option UUID) : Call RequestView := do
  let item ← readOne .notFound (viewRequest id viewer)
  .check (item.request.mediaId ∈ catalog.media) .notFound
  pure item

def createMediaRequest (d : RequestDraw) (catalog : Catalog) (accountID mediaID : UUID)
    (note : String) (actor : Actor) : Call RequestView := do
  .check ((trimSpace note).utf8ByteSize ≤ 1000) .invalid
  let r ← createMediaRequestTx d catalog accountID mediaID (trimSpace note) actor
  .publish (if r.2 then .joined r.1 accountID else .created r.1 accountID)
  let item ← getMediaRequest catalog r.1 (some accountID)
  pure { item with duplicate := r.2 }

/-! ## Status -/

/-- The statements of `UpdateMediaRequestStatus` after it has locked the request. -/
def moveRequest (d : RequestDraw) (r : MediaRequest) (status : RequestStatus) (reason : String)
    (actor : Actor) : Call Unit := do
  let text ← .orFail .database (varchar 1000 reason).toOption
  let label ← .orFail .database (varchar 255 actor.label).toOption
  let _ ← mediaRequests.updateRow (·.id = r.id) (·.resolve d.now status text label)
  recordEvent
    { requestId := r.id, eventType := "status_changed", fromStatus := some r.status
      toStatus := some status, actor := actor.label, reason := some reason }
  notifySubscribers d r.id "求片状态已更新" reason
  emitEvent d ("media_request.status:" ++ r.id.text ++ ":" ++ toString (r.revision + 1))
    "media_request.status_changed" r.id
    [("media_request_id", r.id.text), ("from_status", r.status.text), ("to_status", status.text)]

def updateMediaRequestStatusTx (d : RequestDraw) (id : UUID) (target : RequestStatus)
    (reason : String) (expected : Int) (actor : Actor) : Call Unit := do
  let r ← .orFail .notFound (← mediaRequests.lockRow .exclusive (·.id = id))
  .check (r.revision = expected ∧ validRequestTransition r.status target) .conflict
  moveRequest d r target reason actor

def updateMediaRequestStatus (d : RequestDraw) (catalog : Catalog) (id : UUID) (status : String)
    (reason : String) (expected : Int) (actor : Actor) : Call RequestView := do
  let target ← .orFail .invalid (statusOf (normalize status))
  .check (trimSpace reason ≠ "" ∧ (trimSpace reason).utf8ByteSize ≤ 1000) .invalid
  updateMediaRequestStatusTx d id target (trimSpace reason) expected actor
  .publish (.moved id target)
  getMediaRequest catalog id none

/-! ## Their statements -/

section

variable {d : RequestDraw} {catalog : Catalog} {accountID mediaID : UUID} {note reason : String}
  {actor : Actor}

theorem getMediaRequest_statements {id : UUID} {viewer : Option UUID} :
    (getMediaRequest catalog id viewer).Statements fun _ _ => True :=
  (statements_readOne fun _ _ => trivial).bind fun _ =>
    Prog.statements_check.bind fun _ => Prog.statements_pure

theorem createMediaRequestTx_statements :
    (createMediaRequestTx d catalog accountID mediaID note actor).Statements fun _ _ => True := by
  have hrecord : ∀ e, (recordEvent e).Statements fun _ _ => True := fun e =>
    Prog.statements_exec fun _ => trivial
  refine (Prog.statements_exec fun _ => trivial).bind fun _ => Prog.statements_check.bind fun _ => ?_
  refine (statements_read fun _ _ => trivial).bind fun _ => ?_
  refine (Rows.statements_lockFirst fun _ _ => trivial).bind fun found => ?_
  refine Prog.Statements.bind ?_ fun id => Prog.statements_orFail.bind fun _ =>
    (Prog.statements_exec fun _ => trivial).bind fun added => Prog.Statements.bind ?_ fun _ =>
      Prog.statements_pure
  · cases found with
    | some r => exact Prog.statements_pure
    | none =>
      refine Prog.statements_orFail.bind fun _ => (Prog.statements_exec fun _ => trivial).bind fun _ => ?_
      refine (hrecord _).bind fun _ => (Prog.statements_exec fun _ => trivial).bind fun _ => ?_
      exact Prog.statements_check.bind fun _ => Prog.statements_pure
  · cases added && found.isSome with
    | false => exact Prog.statements_pure
    | true =>
      exact (Rows.statements_updateRow (fun _ _ => trivial) fun _ _ _ _ => trivial).bind fun _ =>
        hrecord _

theorem updateMediaRequestStatusTx_statements {id : UUID} {target : RequestStatus} {expected : Int} :
    (updateMediaRequestStatusTx d id target reason expected actor).Statements fun _ _ => True := by
  refine (Rows.statements_lockRow fun _ _ => trivial).bind fun _ => Prog.statements_orFail.bind fun _ => ?_
  refine Prog.statements_check.bind fun _ => Prog.statements_orFail.bind fun _ => ?_
  refine Prog.statements_orFail.bind fun _ => ?_
  refine (Rows.statements_updateRow (fun _ _ => trivial) fun _ _ _ _ => trivial).bind fun _ => ?_
  refine (Prog.statements_exec fun _ => trivial).bind fun _ => ?_
  exact (Prog.statements_exec fun _ => trivial).bind fun _ => Prog.statements_exec fun _ => trivial

end

end Sakura.Community
