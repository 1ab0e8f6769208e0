/-
  Emby accounts (platform/emby.go).

  * `Environment`: what the platform takes from outside;
  * `requestProvisioning`: ask for a user on a server, with the membership of an invitation or the
    current one;
  * `createBindingTx`, `claimRemoteUser`, `adminClaimRemoteUser`, `adoptLegacyIdentities`: bind accounts
    to existing users.
-/
import Sakura.Queue.Service

namespace Sakura.Queue

open Txn

/-- `strings.ToLower`, the verb `%q`; whether a server refuses a second user of one normalized name;
what `entitlementInt` reads for `max_emby_accounts` in the entitlements of a plan. -/
structure Environment where
  toLower : String → String
  quote : String → String
  uniqueNames : Bool
  maxEmbyAccounts : String → Int

def Environment.normalize (env : Environment) (value : String) : String :=
  env.toLower (trimSpace value)

/-- `^[^\s/\\<>]{3,32}$` -/
def embyUsernamePattern (s : String) : Bool :=
  (s.toList.all fun c => c.val ∉ [0x09, 0x0A, 0x0C, 0x0D, 0x20, 0x2F, 0x5C, 0x3C, 0x3E]) &&
    3 ≤ s.length && s.length ≤ 32

/-! ## Memberships -/

/-- `uuid.New()` and the clock of a call that may redeem an invitation. -/
structure Fresh where
  membership : UUID
  redemption : UUID
  task : UUID
  request : UUID
  password : String
  now : Time

/-- The membership starts now, and lasts as long as its plan says. -/
def assignMembershipTx (fresh : Fresh) (accountID planID : UUID) (source sourceRef : String)
    (actor : Actor) : Call (AccountMembership × MembershipPlan) := do
  let plan ← .orFail .notFound (← plans.lockRow .share fun p => p.id = planID)
  .check plan.enabled .forbidden
  let current ← memberships.lockRow .exclusive fun m => m.accountId = accountID && m.current
  let expiryBase := match current with
    | some m => if fresh.now < m.expiresAt then m.expiresAt else fresh.now
    | none => fresh.now
  let _ ← memberships.updateRows (fun m => m.accountId = accountID && m.current)
    fun m => { m with status := .expired }
  let membership : AccountMembership :=
    { id := fresh.membership, accountId := accountID, planId := planID, status := .active
      startsAt := stored fresh.now, expiresAt := stored (expiryBase + (days plan.durationDays).toInt)
      source, sourceRef := nullIfEmpty sourceRef, createdBy := actor.label }
  memberships.insertRow (fun v => v.memberships.any fun m =>
      m.id = membership.id || (m.accountId = accountID && m.current))
    [(.membership membership.id, .exclusive), (.currentMembership accountID, .exclusive)]
    membership .database
  pure (membership, plan)

/-- A membership row with its plan. -/
def scanMembership (id : UUID) (v : Store) : Option (AccountMembership × MembershipPlan) := do
  let m ← v.memberships.find? (·.id = id)
  let p ← v.plans.find? (·.id = m.planId)
  pure (m, p)

/-- A new redemption. -/
def newRedemption (fresh : Fresh) (accountID : UUID) (invitation : InvitationCode)
    (idempotencyKey : String) (actor : Actor) : Call (AccountMembership × MembershipPlan) := do
  .check (invitation.status = .active ∧ invitation.usedCount < invitation.maxUses ∧
    ∀ t ∈ invitation.expiresAt, ¬t < fresh.now) .conflict
  let (membership, plan) ← assignMembershipTx fresh accountID invitation.planId
    ("invitation_" ++ invitation.kind.text) invitation.id.text actor
  redemptions.insertRow (fun v => v.redemptions.any fun r => r.id = fresh.redemption ||
      (r.invitationId = invitation.id && r.accountId = accountID) ||
      r.idempotencyKey = idempotencyKey)
    [(.redemption fresh.redemption, .exclusive),
      (.redemptionUse invitation.id accountID, .exclusive), (.redemptionKey idempotencyKey, .exclusive)]
    { id := fresh.redemption, invitationId := invitation.id, accountId := accountID
      membershipId := membership.id, idempotencyKey } .conflict
  let newStatus := if invitation.maxUses ≤ invitation.usedCount + 1 then .used else .active
  let _ ← invitations.updateRow (fun i => i.id = invitation.id)
    fun i => { i with usedCount := i.usedCount + 1, status := newStatus }
  pure (membership, plan)

def redeemInvitationTx (fresh : Fresh) (accountID : UUID) (code idempotencyKey : String)
    (actor : Actor) : Call (AccountMembership × MembershipPlan) := do
  let code := trimSpace code
  let idempotencyKey := trimSpace idempotencyKey
  .check (code ≠ "" ∧ code.utf8ByteSize ≤ 100 ∧ idempotencyKey ≠ "" ∧
    idempotencyKey.utf8ByteSize ≤ 160) .invalid
  let invitation ← .orFail .notFound (← invitations.lockRow .exclusive fun i => i.code = code)
  match ← read fun v => v.redemptions.find? fun r => r.idempotencyKey = idempotencyKey &&
      r.accountId = accountID && r.invitationId = invitation.id with
  | some replay => readOne .notFound (scanMembership replay.membershipId)
  | none => newRedemption fresh accountID invitation idempotencyKey actor

/-- The current membership of the account with its plan, locked. -/
def currentMembership (mode : Mode) (accountID : UUID) (now : Time) :
    Call (AccountMembership × MembershipPlan) := do
  let membership ← .orFail .forbidden (← memberships.lockRow mode
    fun m => m.accountId = accountID && m.current && now < m.expiresAt)
  let plan ← readOne .forbidden fun v => v.plans.find? (·.id = membership.planId)
  pure (membership, plan)

/-! ## Bindings -/

/-- `COUNT(*) … WHERE account_id=… AND status<>'deleted'` -/
def Store.bindingCount (v : Store) (accountID : UUID) : Nat :=
  (v.bindings.filter fun b => b.accountId = accountID && b.status ≠ .deleted).length

/-- The COUNT, before a binding on the instance is granted.  The lock only marks the transactions
that have counted: it is shared, and excludes nobody. -/
def countBindings (accountID instanceID : UUID) : Call Nat :=
  .exec (.capacity accountID instanceID) fun v =>
    { locks := [(.counted accountID, .share)], result := .ok (v.bindingCount accountID) }

def enforceBindingCapacityTx (env : Environment) (now : Time) (accountID instanceID : UUID) :
    Call Unit := do
  let (_, plan) ← currentMembership .share accountID now
  let count ← countBindings accountID instanceID
  .check (count < env.maxEmbyAccounts plan.entitlements) .forbidden

def createBindingTx (bindingID accountID instanceID : UUID) (remoteUserID username : String)
    (disabled : Bool) (origin : BindingOrigin) : Call Binding := do
  let account ← readOne .notFound fun v => v.accounts.find? (·.id = accountID)
  .check (account.status = .active) .forbidden
  let primary ← read fun v => decide (v.bindingCount accountID = 0)
  let binding : Binding :=
    { id := bindingID, accountId := accountID, instanceId := instanceID
      remoteUserId := remoteUserID, remoteUsername := username
      status := if disabled then .suspended else .active, origin, isPrimary := primary
      remoteDisabled := some disabled }
  bindings.insertRow (fun v => v.bindings.any fun b =>
      b.id = bindingID || b.remote = binding.remote || b.place = binding.place)
    [(.binding bindingID, .exclusive), (.bindingRemote binding.remote, .exclusive),
      (.bindingPlace binding.place, .exclusive)]
    binding .conflict (.bind accountID binding.remote)
  pure binding

/-- `INSERT INTO remote_emby_users … ON CONFLICT(instance_id,remote_user_id) DO UPDATE` -/
def upsertRemoteUser {χ : Type} (row : RemoteUser) (set : RemoteUser → RemoteUser) :
    Prog Site Store Lock Event χ Unit :=
  .exec default fun v =>
    match v.remoteUsers.find? (·.remote = row.remote) with
    | some u =>
      { locks := [(.remoteUser u.id, .exclusive)]
        write := fun s => Layers.lay s (remoteUsers.version (set u)), result := .ok () }
    | none =>
      { locks := [(.remoteUser row.id, .exclusive), (.remoteKey row.remote, .exclusive)]
        write := fun s => Layers.lay s (remoteUsers.version row), result := .ok () }

def setClaimed (remoteID bindingID : UUID) : Call Unit := do
  let _ ← remoteUsers.updateRow (fun u => u.id = remoteID)
    fun u => { u with claimStatus := .claimed, bindingId := some bindingID }
  pure ()

def claimRemoteUser (env : Environment) (now : Time) (bindingID accountID : UUID) (token : String) :
    Call Binding := do
  let claim ← .orFail .notFound (← claimTokens.lockRow .exclusive fun t =>
    t.token = trimSpace token && t.status = .active && now < t.expiresAt)
  let remote ← .orFail .notFound (← remoteUsers.lockRow .exclusive fun u => u.id = claim.remoteUserId)
  .check (remote.claimStatus = .unclaimed) .conflict
  enforceBindingCapacityTx env now accountID remote.instanceId
  let binding ← createBindingTx bindingID accountID remote.instanceId remote.remoteUserId
    remote.username remote.disabled .manualClaim
  setClaimed remote.id binding.id
  let _ ← claimTokens.updateRow (fun t => t.id = claim.id)
    fun t => { t with status := .used, usedByAccountId := some accountID }
  .publish (.bound binding.id)
  pure binding

def adminClaimRemoteUser (bindingID accountID remoteID : UUID) : Call Binding := do
  let remote ← .orFail .notFound (← remoteUsers.lockRow .exclusive fun u => u.id = remoteID)
  .check (remote.claimStatus = .unclaimed) .conflict
  let binding ← createBindingTx bindingID accountID remote.instanceId remote.remoteUserId
    remote.username remote.disabled .remoteImport
  setClaimed remote.id binding.id
  .publish (.bound binding.id)
  pure binding

/-- One imported identity; `bindingID` and `rowID` are the ids of its new rows. -/
def adoptIdentity (env : Environment) (bindingID rowID instanceID : UUID) (item : LegacyIdentity) :
    Call Unit := do
  let username := item.username.getD item.subject
  match ← read fun v => v.bindings.any fun b => b.place = (item.accountId, instanceID) ||
      b.remote = (instanceID, item.subject) with
  | true => pure ()
  | false => do
    let binding ← createBindingTx bindingID item.accountId instanceID item.subject username false
      .legacyImport
    upsertRemoteUser
      { id := rowID, instanceId := instanceID, remoteUserId := item.subject, username
        usernameNormalized := env.normalize username, claimStatus := .claimed
        bindingId := some binding.id }
      fun u => { u with claimStatus := .claimed, bindingId := some binding.id }

/-- The identities with the ids of their new rows. -/
def adoptIdentities (env : Environment) (instanceID : UUID) (ids : LegacyIdentity → UUID × UUID) :
    List LegacyIdentity → Call Unit
  | [] => pure ()
  | item :: legacy => do
    adoptIdentity env (ids item).1 (ids item).2 instanceID item
    adoptIdentities env instanceID ids legacy

/-- `subject NOT LIKE '%:%'` -/
def LegacyIdentity.legacy (i : LegacyIdentity) : Bool := !i.subject.toList.contains ':' && !i.disabled

def adoptLegacyIdentities (env : Environment) (ids : LegacyIdentity → UUID × UUID)
    (instanceID : UUID) : Call Unit := do
  .check (← read fun v => v.instances.any (·.id = instanceID)) .notFound
  adoptIdentities env instanceID ids (← read fun v => v.legacyIdentities.filter LegacyIdentity.legacy)
  .publish (.adopted instanceID)

/-! ## Provision requests -/

def selectInstanceTx : Option UUID → Call UUID
  | some id => do
    let i ← .orFail .notFound (← instances.lockRow .share fun i => i.id = id && i.enabled)
    pure i.id
  | none => do
    let i ← .orFail .notFound (← instances.lockRow .share fun i => i.enabled)
    pure i.id

/-- The task and its request, as `GetProvisioning` shows them. -/
def getProvisioning (accountID taskID : UUID) : Call (Task × ProvisionRequest) :=
  readOne .notFound fun v => do
    let t ← v.tasks.find? (·.id = taskID)
    let r ← v.provisionRequests.find? fun r => r.taskId = taskID && r.accountId = accountID
    pure (t, r)

/-- A binding of the account on the instance, or a request that has not failed. -/
def Store.occupied (v : Store) (accountID instanceID : UUID) : Bool :=
  (v.bindings.any fun b => b.accountId = accountID && b.instanceId = instanceID && b.status ≠ .deleted) ||
    v.provisionRequests.any fun r => r.accountId = accountID && r.instanceId = instanceID &&
      (r.status = .pending || r.status = .provisioning || r.status = .succeeded)

@[irreducible] def provisionMembership (fresh : Fresh) (accountID : UUID) (invitationCode idempotencyKey : String)
    (actor : Actor) : Call (AccountMembership × MembershipPlan) :=
  if trimSpace invitationCode ≠ "" then
    redeemInvitationTx fresh accountID invitationCode
      ("provision-invite:" ++ accountID.text ++ ":" ++ idempotencyKey) actor
  else currentMembership .exclusive accountID fresh.now

/-- The INSERTs of the task and the request; `maxAttempts` is the setting `emby.task_max_attempts`. -/
def insertProvisioning (env : Environment) (fresh : Fresh) (accountID instanceID : UUID)
    (username idempotencyKey : String) (maxAttempts : Nat) : Call Unit := do
  let task : Task :=
    { id := fresh.task, type := .embyProvision, status := .pending, idempotencyKey
      payload := { provisionRequestId := some fresh.request, instanceId := some instanceID }
      attempts := 0, maxAttempts, availableAt := fresh.now }
  tasks.insertRow (fun v => maxAttempts < 1 || 100 < maxAttempts ||
      v.tasks.any fun t => t.id = task.id || t.idempotencyKey = idempotencyKey)
    [(.task task.id, .exclusive), (.taskKey idempotencyKey, .exclusive)] task .conflict
  let request : ProvisionRequest :=
    { id := fresh.request, taskId := fresh.task, accountId := accountID, instanceId := instanceID
      requestedUsername := username, requestedUsernameNormalized := env.normalize username
      password := some fresh.password, status := .pending }
  provisionRequests.insertRow (fun v => v.provisionRequests.any fun r =>
      r.id = request.id || r.taskId = request.taskId || r.name = request.name)
    [(.provisionRequest request.id, .exclusive), (.requestTask request.taskId, .exclusive),
      (.requestName request.name, .exclusive)] request .conflict

def newProvisioning (env : Environment) (fresh : Fresh) (accountID : UUID) (instanceID : Option UUID)
    (username invitationCode idempotencyKey taskKey : String) (maxAttempts : Nat) (actor : Actor) :
    Call (Task × ProvisionRequest) := do
  let account ← .orFail .notFound (← accounts.lockRow .exclusive fun a => a.id = accountID)
  .check (account.status = .active) .forbidden
  let selectedInstanceID ← selectInstanceTx instanceID
  .check (¬(← read fun v => v.occupied accountID selectedInstanceID)) .conflict
  let (_, plan) ← (provisionMembership fresh accountID invitationCode idempotencyKey actor).mapError
    fun _ => .forbidden
  let count ← countBindings accountID selectedInstanceID
  .check (count < env.maxEmbyAccounts plan.entitlements) .forbidden
  insertProvisioning env fresh accountID selectedInstanceID username taskKey maxAttempts
  .publish (.requested fresh.task)
  getProvisioning accountID fresh.task

def requestProvisioning (env : Environment) (fresh : Fresh) (accountID : UUID)
    (instanceID : Option UUID) (username invitationCode idempotencyKey : String) (maxAttempts : Nat)
    (actor : Actor) : Call (Task × ProvisionRequest) := do
  let username := trimSpace username
  let idempotencyKey := trimSpace idempotencyKey
  .check (embyUsernamePattern username ∧ idempotencyKey ≠ "" ∧ idempotencyKey.utf8ByteSize ≤ 160)
    .invalid
  let taskKey := "provision:" ++ accountID.text ++ ":" ++ idempotencyKey
  match ← read fun v => v.tasks.find? (·.idempotencyKey = taskKey) with
  | some replay => do
    .publish (.requested replay.id)
    getProvisioning accountID replay.id
  | none =>
    newProvisioning env fresh accountID instanceID username invitationCode idempotencyKey taskKey
      maxAttempts actor

end Sakura.Queue
