/-
  The worker and the Emby servers (platform/worker.go, platform/emby_client.go).

  The users of the servers are a table of the store.  A call to a server is a transaction of its own;
  its answer may be lost after it took effect.

  * `Reply`, `Attempt`: how the calls of an attempt end;
  * `createUser`, `setPassword`: calls that change a server, and `outsideUser`, what others do there;
  * `provision`, `sync`: two handlers;
  * `processNext`: claim a task, handle it, and finish or fail it.
-/
import Sakura.Emby.Accounts

namespace Sakura.Queue

open Txn

/-! ## Calls to a server -/

/-- How a call to a server ends: whether the server carries it out, whether its answer arrives, and
the text of the error if not. -/
structure Reply where
  effect : Bool := true
  answer : Bool := true
  text : Bytes := []

/-- The order in which a server lists its users. -/
structure Listing where
  order : List EmbyUser → List EmbyUser
  mem : ∀ {users u}, u ∈ order users ↔ u ∈ users

/-- The clock, the new ids and the answers of an attempt.  `client` is the error of `Worker.client`
after it has found the instance enabled, `rowID` the id of a new row for a user. -/
structure Attempt where
  now : Time
  finished : Time
  client : Option Failure := none
  probe : Option Bytes := none
  listing : Except Bytes Listing
  creation : Reply := {}
  newUser : String := ""
  password : Reply := {}
  database : Bytes := []
  vault : Bytes := []
  binding : UUID
  rowID : String → UUID
  entry : Nat := 0

/-- The text of an error; that of a statement depends on the database. -/
def Attempt.message (a : Attempt) : Err → Bytes
  | .invalid => bytesOf "invalid request"
  | .conflict => bytesOf "conflict"
  | .forbidden => bytesOf "forbidden"
  | .notFound => bytesOf "not found"
  | .database => a.database

def Attempt.failure (a : Attempt) (x : Err) : Failure := ⟨a.message x, false⟩

def permanent (text : String) : Failure := ⟨bytesOf text, true⟩

/-- The INSERT of a user by its server.  The id is new to everybody; with `uniqueNames` the normalized
name is new on the server. -/
def insertUser {χ : Type} (env : Environment) (user : EmbyUser) (x : χ) :
    Prog Site Store Lock Event χ Unit :=
  upstream.insertRow (fun v => v.upstream.any (fun u => u.key = user.key || (env.uniqueNames &&
      u.instanceId = user.instanceId && env.normalize u.name = env.normalize user.name)) ||
      v.bindings.any (·.remote = user.key))
    [(.upstreamUser user.key, .exclusive), (.bindingRemote user.key, .exclusive),
      (.upstreamName (user.instanceId, env.normalize user.name), .exclusive)] user x
    (match user.createdFor with
      | some _ => .sql
      | none => .outsideUser (user.instanceId, env.normalize user.name))

/-- Somebody else creates a user. -/
def outsideUser (env : Environment) (instanceID : UUID) (id name : String) : Call Unit := do
  insertUser env { instanceId := instanceID, id, name } .conflict
  .publish (.userCreated none (instanceID, id))

/-- The users with an id and a name. -/
def listUsers (listing : Except Bytes Listing) (instanceID : UUID) (site : Site) :
    Handler (List EmbyUser) :=
  match listing with
  | .error text => .fail ⟨text, false⟩
  | .ok l => .query site fun v =>
    l.order (v.upstream.filter fun u => u.instanceId = instanceID && u.id ≠ "" && u.name ≠ "")

/-- `requestID` is the request whose task calls. -/
def createUser (env : Environment) (a : Attempt) (requestID instanceID : UUID) (username : String) :
    Handler String := do
  .check a.creation.effect ⟨a.creation.text, false⟩
  insertUser env { instanceId := instanceID, id := a.newUser, name := username
                   createdFor := some requestID } ⟨a.creation.text, false⟩
  .publish (.userCreated (some requestID) (instanceID, a.newUser))
  .check a.creation.answer ⟨a.creation.text, false⟩
  .check (a.newUser ≠ "") ⟨bytesOf "Emby created a user without an id", false⟩
  pure a.newUser

def setPassword (a : Attempt) (requestID : UUID) (user : UUID × String) (password : String) :
    Handler Unit := do
  .check a.password.effect ⟨a.password.text, false⟩
  let changed ← upstream.updateRow (fun u => u.key = user) fun u => { u with password := some password }
  .check changed.isSome ⟨a.password.text, false⟩
  .publish (.passwordSet requestID user)
  .check a.password.answer ⟨a.password.text, false⟩

/-! ## Provisioning -/

/-- The user that the handler takes for the one of the request: one of its name, or the one it
remembers. -/
def findRemote (env : Environment) (username : String) (knownRemoteID : Option String)
    (users : List EmbyUser) : Option EmbyUser :=
  let named := users.find? fun u => env.normalize u.name = env.normalize username
  match knownRemoteID with
  | none => named
  | some known => if known = "" then named else (users.find? (·.id = known)).or named

def existedText (env : Environment) (username : String) : String :=
  "Emby username " ++ env.quote username ++ " already existed before provisioning"

/-- The mark that the name was free, unless it is set. -/
def markPreflight (request : ProvisionRequest) : Handler Unit :=
  if request.preflightCompleted then pure () else do
    let tag ← provisionRequests.updateRow (fun r => r.id = request.id && !r.preflightCompleted)
      fun r => { r with preflightCompleted := true }
    .check tag.isSome ⟨bytesOf "cannot reserve remote creation: %!w(<nil>)", false⟩
    .publish (.marked request.id)

/-- A new user, remembered in the request. -/
def createRemote (env : Environment) (a : Attempt) (request : ProvisionRequest) (instanceID : UUID) :
    Handler String := do
  markPreflight request
  let remote ← createUser env a request.id instanceID request.requestedUsername
  let _ ← provisionRequests.updateRow (fun r => r.id = request.id)
    fun r => { r with remoteUserId := some remote }
  .publish (.remembered request.id)
  pure remote

/-- The user found, which must not have existed before the mark, or a new one. -/
def remoteUser (env : Environment) (a : Attempt) (request : ProvisionRequest) (instanceID : UUID) :
    Option EmbyUser → Handler String
  | some u => do
    .check request.preflightCompleted (permanent (existedText env request.requestedUsername))
    pure u.id
  | none => createRemote env a request instanceID

/-- The binding of the user, or a new one of the account that requested it. -/
def provisionBinding (a : Attempt) (request : ProvisionRequest) (instanceID : UUID)
    (remoteID : String) : Option Binding → Handler Binding
  | some b => pure b
  | none =>
    (createBindingTx a.binding request.accountId instanceID remoteID request.requestedUsername false
      .provision).mapError a.failure

/-- The last transaction: the binding of the user, and the request succeeded. -/
def recordProvisioned (env : Environment) (a : Attempt) (request : ProvisionRequest)
    (instanceID : UUID) (remoteID : String) : Handler Unit := do
  let binding ← provisionBinding a request instanceID remoteID
    (← read fun v => v.bindings.find? (·.remote = (instanceID, remoteID)))
  upsertRemoteUser
    { id := a.rowID remoteID, instanceId := instanceID, remoteUserId := remoteID
      username := request.requestedUsername
      usernameNormalized := env.normalize request.requestedUsername, claimStatus := .claimed
      bindingId := some binding.id }
    fun u => { u with
      username := request.requestedUsername
      usernameNormalized := env.normalize request.requestedUsername, disabled := false
      claimStatus := .claimed, bindingId := some binding.id, missingSince := none }
  let _ ← provisionRequests.updateRow (fun r => r.id = request.id)
    fun r => { r with status := .succeeded, remoteUserId := some remoteID, lastError := none }
  .publish (.provisioned request.id)

def provision (env : Environment) (a : Attempt) (task : ClaimedTask) (instanceID : UUID) :
    Handler Unit := do
  let requestID ← .orFail (permanent "provision task has invalid request id")
    task.payload.provisionRequestId
  let request ← readOne ⟨a.message .notFound, true⟩ fun v =>
    v.provisionRequests.find? (·.id = requestID)
  let password ← .orFail ⟨a.vault, true⟩ request.password
  let users ← listUsers a.listing instanceID (.listUsers request)
  let remote ← remoteUser env a request instanceID
    (findRemote env request.requestedUsername request.remoteUserId users)
  setPassword a requestID (instanceID, remote) password
  recordProvisioned env a request instanceID remote

/-! ## Synchronization -/

def syncUsers (env : Environment) (a : Attempt) (instanceID : UUID) : List EmbyUser → Handler Unit
  | [] => pure ()
  | user :: users => do
    upsertRemoteUser
      { id := a.rowID user.id, instanceId := instanceID, remoteUserId := user.id, username := user.name
        usernameNormalized := env.normalize user.name, disabled := user.disabled
        claimStatus := .unclaimed }
      fun u => { u with
        username := user.name, usernameNormalized := env.normalize user.name, disabled := user.disabled
        missingSince := none, claimStatus := if u.bindingId = none then .unclaimed else .claimed }
    let _ ← bindings.updateRow (fun b => b.remote = (instanceID, user.id)) fun b => { b with
      remoteUsername := user.name, remoteDisabled := some user.disabled, lastError := none
      status := if user.disabled then .suspended else .active }
    syncUsers env a instanceID users

def sync (env : Environment) (a : Attempt) (instanceID : UUID) : Handler Unit := do
  .check (a.probe = none) ⟨a.probe.getD [], false⟩
  let users ← listUsers a.listing instanceID .sql
  syncUsers env a instanceID users
  let _ ← remoteUsers.updateRows (fun u => u.instanceId = instanceID &&
      !users.any (·.id = u.remoteUserId))
    fun u => { u with claimStatus := .missing, missingSince := u.missingSince.or (some a.now) }
  let _ ← bindings.updateRows (fun b => b.instanceId = instanceID &&
      !users.any (·.id = b.remoteUserId))
    fun b => { b with status := .missing, lastError := some "remote user missing" }
  .publish (.synced instanceID)

/-! ## Tasks -/

/-- The instance of the task and its client. -/
def client (a : Attempt) (task : ClaimedTask) : Handler UUID := do
  let instanceID ← .orFail (permanent "task has invalid instance id") task.payload.instanceId
  let i ← readOne ⟨a.message .notFound, true⟩ fun v => v.instances.find? (·.id = instanceID)
  .check i.enabled (permanent "Emby instance is disabled")
  match a.client with
  | some failure => .fail failure
  | none => pure i.id

/-- Tasks of the other types have no part in provisioning: the worker stops before their handler. -/
def process (env : Environment) (a : Attempt) (task : ClaimedTask) : Handler Bool :=
  match task.type with
  | .embyProvision => do
    let instanceID ← client a task
    provision env a task instanceID
    pure true
  | .embySync | .embyImport => do
    let instanceID ← client a task
    sync env a instanceID
    pure true
  | _ => pure false

/-- `ProcessNext`, without the renewals of the lease; `pick` is the task that `claim` picks. -/
def processNext (env : Environment) (w : Worker) (pick : UUID) (a : Attempt) : Call Unit := do
  match ← claim w a.now pick with
  | none => pure ()
  | some task => do
    match ← (process env a task).catching with
    | .ok true => finish w a.finished task
    | .ok false => pure ()
    | .error failure => fail w a.finished a.entry task failure

/-! ## Requests -/

/-- The calls of the platform on Emby accounts, and what others do on the servers. -/
inductive Request where
  | requestProvisioning (fresh : Fresh) (accountID : UUID) (instanceID : Option UUID)
      (username invitationCode idempotencyKey : String) (maxAttempts : Nat) (actor : Actor)
  | processNext (worker : Worker) (pick : UUID) (attempt : Attempt)
  | keepLease (worker : Worker) (now : Time) (taskID : UUID)
  | retryTask (now : Time) (id : UUID)
  | claimRemoteUser (now : Time) (bindingID accountID : UUID) (token : String)
  | adminClaimRemoteUser (bindingID accountID remoteID : UUID)
  | adoptLegacyIdentities (ids : LegacyIdentity → UUID × UUID) (instanceID : UUID)
  | outsideUser (instanceID : UUID) (id name : String)

def Request.call (env : Environment) : Request → Call Unit
  | .requestProvisioning fresh account inst username code key attempts actor =>
    (fun _ => ()) <$> Queue.requestProvisioning env fresh account inst username code key attempts actor
  | .processNext worker pick attempt => Queue.processNext env worker pick attempt
  | .keepLease worker now task => (fun _ => ()) <$> Queue.keepLease worker now task
  | .retryTask now id => Queue.retryTask now id
  | .claimRemoteUser now binding account token =>
    (fun _ => ()) <$> Queue.claimRemoteUser env now binding account token
  | .adminClaimRemoteUser binding account remote =>
    (fun _ => ()) <$> Queue.adminClaimRemoteUser binding account remote
  | .adoptLegacyIdentities ids inst => Queue.adoptLegacyIdentities env ids inst
  | .outsideUser inst id name => Queue.outsideUser env inst id name

end Sakura.Queue
