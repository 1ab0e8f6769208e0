/-
  The tables of the task queue, of the Emby accounts and of the domain rows that a failed task writes
  to (migrations 000003, 000005, 000006, 000010 and 000011), and the users of the Emby servers.

  A column that no modelled statement reads or writes is left out.

  * `Task`, `ProvisionRequest`, `RiskAction`, `TimelineEntry`, `MoviePilotJob`, `MediaMatch`: the rows
    of the queue;
  * `Binding`, `RemoteUser`, `ClaimToken`, `EmbyUser`: bindings, the users that a sync has seen, the
    tokens to claim them, and the users of the servers;
  * `Store`, `Versions`: the tables, and the row versions of a transaction;
  * `Lock`, `tasks` … `upstream`: rows that a transaction may lock.
-/
import Sakura.Schema
import Sakura.Txn.Rows

namespace Sakura.Queue

open Txn

/-! ## Rows -/

inductive TaskType where
  | embyProvision | embySync | embyReconcile | embyImport | embyPlaybackSync | riskAction | riskRevert
  | mediaMatch | moviepilotSubmit | entitlementSync | embyFavorite | embyFavoriteSync | lineProbe
  deriving DecidableEq, Repr

inductive TaskStatus where
  | pending | running | retry | succeeded | failed | dead | canceled
  deriving DecidableEq, Repr

/-- The identifiers of a payload that the worker parses; `none` where the payload has no such text. -/
structure Payload where
  provisionRequestId : Option UUID := none
  actionId : Option UUID := none
  moviepilotJobId : Option UUID := none
  mediaId : Option UUID := none
  instanceId : Option UUID := none
  bindingId : Option UUID := none
  favoriteId : Option UUID := none
  deriving DecidableEq

structure Task where
  id : UUID
  type : TaskType
  status : TaskStatus
  idempotencyKey : String := ""
  payload : Payload
  attempts : Nat
  maxAttempts : Nat
  availableAt : Time
  startedAt : Option Time := none
  finishedAt : Option Time := none
  leaseOwner : Option String := none
  leaseExpiresAt : Option Time := none
  lastError : Option String := none
  deriving DecidableEq

inductive ProvisionStatus where
  | pending | provisioning | succeeded | failed | canceled
  deriving DecidableEq, Repr

/-- `password` is what the vault decrypts; `none` where it cannot. -/
structure ProvisionRequest where
  id : UUID
  taskId : UUID
  accountId : UUID
  instanceId : UUID
  requestedUsername : String
  requestedUsernameNormalized : String
  password : Option String
  remoteUserId : Option String := none
  preflightCompleted : Bool := false
  status : ProvisionStatus
  lastError : Option String := none
  deriving DecidableEq

/-- UNIQUE(instance_id,requested_username_normalized) -/
def ProvisionRequest.name (r : ProvisionRequest) : UUID × String :=
  (r.instanceId, r.requestedUsernameNormalized)

inductive ActionStatus where
  | pending | running | succeeded | failed | canceled | revertPending | reverting | reverted
  | revertFailed
  deriving DecidableEq, Repr

inductive ActionType where
  | stopSession | disableUser
  deriving DecidableEq, Repr

/-- The object in the column `before_state`, unless it is empty. -/
inductive BeforeState where
  | sessionActive
  | disabled (value : Bool)
  deriving DecidableEq, Repr

/-- `actionEffectApplied` and `revertEffectApplied` are the flags in the object `result`. -/
structure RiskAction where
  id : UUID
  eventId : UUID
  instanceId : UUID
  taskId : Option UUID
  actionType : ActionType
  status : ActionStatus
  remoteSessionId : Option String := none
  remoteUserId : Option String := none
  beforeState : Option BeforeState := none
  actionEffectApplied : Bool := false
  revertEffectApplied : Bool := false
  attempts : Nat := 0
  createdAt : Time := 0
  lastError : Option String := none
  deriving DecidableEq

/-- The object in the column `details`. -/
structure TimelineDetails where
  actionId : UUID
  taskId : UUID
  attempt : Nat
  taskStatus : TaskStatus
  deriving DecidableEq

structure TimelineEntry where
  id : Nat
  eventId : UUID
  eventType : String
  actor : String
  reason : Option String
  details : TimelineDetails
  deriving DecidableEq

inductive JobStatus where
  | pending | submitting | submitted | downloading | completed | failed | canceled
  deriving DecidableEq, Repr

structure MoviePilotJob where
  id : UUID
  status : JobStatus
  lastError : Option String := none
  deriving DecidableEq

inductive MatchStatus where
  | pending | matched | notFound | failed
  deriving DecidableEq, Repr

structure MediaMatch where
  mediaId : UUID
  instanceId : UUID
  status : MatchStatus
  lastCheckedAt : Time
  lastError : Option String := none
  deriving DecidableEq

/-- UNIQUE(media_id, instance_id) -/
def MediaMatch.key (m : MediaMatch) : UUID × UUID := (m.mediaId, m.instanceId)

/-! ## Rows of the Emby accounts -/

structure Instance where
  id : UUID
  enabled : Bool
  deriving DecidableEq

/-- An identity of kind `emby` that an import has left: its subject is the id of a remote user. -/
structure LegacyIdentity where
  accountId : UUID
  subject : String
  username : Option String
  disabled : Bool
  deriving DecidableEq

inductive BindingStatus where
  | active | suspended | missing | error | deleted
  deriving DecidableEq, Repr

inductive BindingOrigin where
  | provision | remoteImport | legacyImport | manualClaim
  deriving DecidableEq, Repr

structure Binding where
  id : UUID
  accountId : UUID
  instanceId : UUID
  remoteUserId : String
  remoteUsername : String
  status : BindingStatus
  origin : BindingOrigin
  isPrimary : Bool
  remoteDisabled : Option Bool
  lastError : Option String := none
  deriving DecidableEq

/-- UNIQUE(instance_id,remote_user_id) -/
def Binding.remote (b : Binding) : UUID × String := (b.instanceId, b.remoteUserId)

/-- UNIQUE(account_id,instance_id) -/
def Binding.place (b : Binding) : UUID × UUID := (b.accountId, b.instanceId)

inductive ClaimStatus where
  | unclaimed | claimed | ignored | missing
  deriving DecidableEq, Repr

/-- A row of `remote_emby_users`. -/
structure RemoteUser where
  id : UUID
  instanceId : UUID
  remoteUserId : String
  username : String
  usernameNormalized : String
  disabled : Bool := false
  claimStatus : ClaimStatus
  bindingId : Option UUID := none
  missingSince : Option Time := none
  deriving DecidableEq

/-- UNIQUE(instance_id,remote_user_id) -/
def RemoteUser.remote (u : RemoteUser) : UUID × String := (u.instanceId, u.remoteUserId)

inductive TokenStatus where
  | active | used | expired | revoked
  deriving DecidableEq, Repr

/-- The token is kept as its hash; `token` stands for it. -/
structure ClaimToken where
  id : UUID
  remoteUserId : UUID
  token : String
  status : TokenStatus
  expiresAt : Time
  usedByAccountId : Option UUID := none
  deriving DecidableEq

/-- A user of an Emby server.  `createdFor` is the provision request whose task created it. -/
structure EmbyUser where
  instanceId : UUID
  id : String
  name : String
  disabled : Bool := false
  password : Option String := none
  createdFor : Option UUID := none
  deriving DecidableEq

def EmbyUser.key (u : EmbyUser) : UUID × String := (u.instanceId, u.id)

/-! ## Tables -/

/-- The accounts, the instances in the order in which one is selected, the imported identities in the
order of their creation and the plans are not written by a modelled statement. -/
structure Store where
  accounts : List Account := []
  instances : List Instance := []
  legacyIdentities : List LegacyIdentity := []
  plans : List MembershipPlan := []
  tasks : List Task := []
  provisionRequests : List ProvisionRequest := []
  riskActions : List RiskAction := []
  timeline : List TimelineEntry := []
  moviepilotJobs : List MoviePilotJob := []
  mediaMatches : List MediaMatch := []
  memberships : List AccountMembership := []
  invitations : List InvitationCode := []
  redemptions : List InvitationRedemption := []
  bindings : List Binding := []
  remoteUsers : List RemoteUser := []
  claimTokens : List ClaimToken := []
  upstream : List EmbyUser := []

/-- The row versions of a transaction. -/
structure Versions where
  tasks : List Task := []
  provisionRequests : List ProvisionRequest := []
  riskActions : List RiskAction := []
  timeline : List TimelineEntry := []
  moviepilotJobs : List MoviePilotJob := []
  mediaMatches : List MediaMatch := []
  memberships : List AccountMembership := []
  invitations : List InvitationCode := []
  redemptions : List InvitationRedemption := []
  bindings : List Binding := []
  remoteUsers : List RemoteUser := []
  claimTokens : List ClaimToken := []
  upstream : List EmbyUser := []

/-- The tables under the versions `δ`. -/
def Store.overlay (db : Store) (δ : Versions) : Store where
  accounts := db.accounts
  instances := db.instances
  legacyIdentities := db.legacyIdentities
  plans := db.plans
  tasks := Txn.overlay Task.id db.tasks δ.tasks
  provisionRequests := Txn.overlay ProvisionRequest.id db.provisionRequests δ.provisionRequests
  riskActions := Txn.overlay RiskAction.id db.riskActions δ.riskActions
  timeline := Txn.overlay TimelineEntry.id db.timeline δ.timeline
  moviepilotJobs := Txn.overlay MoviePilotJob.id db.moviepilotJobs δ.moviepilotJobs
  mediaMatches := Txn.overlay MediaMatch.key db.mediaMatches δ.mediaMatches
  memberships := Txn.overlay AccountMembership.id db.memberships δ.memberships
  invitations := Txn.overlay InvitationCode.id db.invitations δ.invitations
  redemptions := Txn.overlay InvitationRedemption.id db.redemptions δ.redemptions
  bindings := Txn.overlay Binding.id db.bindings δ.bindings
  remoteUsers := Txn.overlay RemoteUser.id db.remoteUsers δ.remoteUsers
  claimTokens := Txn.overlay ClaimToken.id db.claimTokens δ.claimTokens
  upstream := Txn.overlay EmbyUser.key db.upstream δ.upstream

/-- The versions `δ` under later versions `δ'` of the same transaction. -/
def Versions.overlay (δ δ' : Versions) : Versions where
  tasks := Txn.overlay Task.id δ.tasks δ'.tasks
  provisionRequests := Txn.overlay ProvisionRequest.id δ.provisionRequests δ'.provisionRequests
  riskActions := Txn.overlay RiskAction.id δ.riskActions δ'.riskActions
  timeline := Txn.overlay TimelineEntry.id δ.timeline δ'.timeline
  moviepilotJobs := Txn.overlay MoviePilotJob.id δ.moviepilotJobs δ'.moviepilotJobs
  mediaMatches := Txn.overlay MediaMatch.key δ.mediaMatches δ'.mediaMatches
  memberships := Txn.overlay AccountMembership.id δ.memberships δ'.memberships
  invitations := Txn.overlay InvitationCode.id δ.invitations δ'.invitations
  redemptions := Txn.overlay InvitationRedemption.id δ.redemptions δ'.redemptions
  bindings := Txn.overlay Binding.id δ.bindings δ'.bindings
  remoteUsers := Txn.overlay RemoteUser.id δ.remoteUsers δ'.remoteUsers
  claimTokens := Txn.overlay ClaimToken.id δ.claimTokens δ'.claimTokens
  upstream := Txn.overlay EmbyUser.key δ.upstream δ'.upstream

instance : Layers Store Versions where
  lay := Store.overlay
  none := {}
  merge := Versions.overlay
  lay_none db := by simp [Store.overlay]
  lay_lay db δ δ' := by simp [Store.overlay, Versions.overlay, overlay_assoc]

/-- A row, or an entry of a unique index.  `upstreamName` is an entry of the index by which a server
refuses a second user of a name. -/
inductive Lock where
  | account (id : UUID)
  | embyInstance (id : UUID)
  | plan (id : UUID)
  | task (id : UUID)
  | taskKey (idempotencyKey : String)
  | provisionRequest (id : UUID)
  | requestTask (task : UUID)
  | requestName (name : UUID × String)
  | riskAction (id : UUID)
  | timeline (id : Nat)
  | moviepilotJob (id : UUID)
  | mediaMatch (key : UUID × UUID)
  | membership (id : UUID)
  | currentMembership (account : UUID)
  | invitation (id : UUID)
  | invitationCode (code : String)
  | redemption (id : UUID)
  | redemptionUse (invitation account : UUID)
  | redemptionKey (idempotencyKey : String)
  | binding (id : UUID)
  | bindingRemote (remote : UUID × String)
  | bindingPlace (place : UUID × UUID)
  | remoteUser (id : UUID)
  | remoteKey (remote : UUID × String)
  | claimToken (id : UUID)
  | counted (account : UUID)
  | upstreamUser (key : UUID × String)
  | upstreamName (name : UUID × String)
  deriving DecidableEq

/-- The accounts, instances and plans are only locked. -/
def accounts : Rows Store Versions Account UUID Lock :=
  ⟨Store.accounts, Account.id, .account, fun _ => {}⟩

def instances : Rows Store Versions Instance UUID Lock :=
  ⟨Store.instances, Instance.id, .embyInstance, fun _ => {}⟩

def plans : Rows Store Versions MembershipPlan UUID Lock :=
  ⟨Store.plans, MembershipPlan.id, .plan, fun _ => {}⟩

def tasks : Rows Store Versions Task UUID Lock :=
  ⟨Store.tasks, Task.id, .task, fun t => { tasks := [t] }⟩

def provisionRequests : Rows Store Versions ProvisionRequest UUID Lock :=
  ⟨Store.provisionRequests, ProvisionRequest.id, .provisionRequest,
    fun r => { provisionRequests := [r] }⟩

def riskActions : Rows Store Versions RiskAction UUID Lock :=
  ⟨Store.riskActions, RiskAction.id, .riskAction, fun a => { riskActions := [a] }⟩

def timeline : Rows Store Versions TimelineEntry Nat Lock :=
  ⟨Store.timeline, TimelineEntry.id, .timeline, fun e => { timeline := [e] }⟩

def moviepilotJobs : Rows Store Versions MoviePilotJob UUID Lock :=
  ⟨Store.moviepilotJobs, MoviePilotJob.id, .moviepilotJob, fun j => { moviepilotJobs := [j] }⟩

def mediaMatches : Rows Store Versions MediaMatch (UUID × UUID) Lock :=
  ⟨Store.mediaMatches, MediaMatch.key, .mediaMatch, fun m => { mediaMatches := [m] }⟩

def memberships : Rows Store Versions AccountMembership UUID Lock :=
  ⟨Store.memberships, AccountMembership.id, .membership, fun m => { memberships := [m] }⟩

def invitations : Rows Store Versions InvitationCode UUID Lock :=
  ⟨Store.invitations, InvitationCode.id, .invitation, fun i => { invitations := [i] }⟩

def redemptions : Rows Store Versions InvitationRedemption UUID Lock :=
  ⟨Store.redemptions, InvitationRedemption.id, .redemption, fun r => { redemptions := [r] }⟩

def bindings : Rows Store Versions Binding UUID Lock :=
  ⟨Store.bindings, Binding.id, .binding, fun b => { bindings := [b] }⟩

def remoteUsers : Rows Store Versions RemoteUser UUID Lock :=
  ⟨Store.remoteUsers, RemoteUser.id, .remoteUser, fun u => { remoteUsers := [u] }⟩

def claimTokens : Rows Store Versions ClaimToken UUID Lock :=
  ⟨Store.claimTokens, ClaimToken.id, .claimToken, fun t => { claimTokens := [t] }⟩

def upstream : Rows Store Versions EmbyUser (UUID × String) Lock :=
  ⟨Store.upstream, EmbyUser.key, .upstreamUser, fun u => { upstream := [u] }⟩

/-- The primary keys, and UNIQUE(task_id) of emby_provision_requests. -/
structure Store.WellFormed (db : Store) : Prop where
  taskIds : UniqueBy Task.id db.tasks
  requestIds : UniqueBy ProvisionRequest.id db.provisionRequests
  requestTasks : UniqueBy ProvisionRequest.taskId db.provisionRequests
  actionIds : UniqueBy RiskAction.id db.riskActions
  jobIds : UniqueBy MoviePilotJob.id db.moviepilotJobs
  matchKeys : UniqueBy MediaMatch.key db.mediaMatches

end Sakura.Queue
