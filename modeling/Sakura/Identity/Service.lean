/-
  Accounts, roles and sessions (identity/accounts.go, identity/governance.go).

  * `changeLifecycle`, `assignRoles`, `saveRole`: the calls that change accounts and roles;
  * `authenticateLocal`, `authenticateSession`: logins and the requests made in their sessions;
  * `Request`, `Request.call`: the calls of the service.
-/
import Sakura.Identity.Schema

namespace Sakura.Identity

open Txn

/-! ## Calls -/

inductive Event where
  | lifecycle (account : UUID) (fromStatus toStatus : AccountStatus)
  | roles (account : UUID)
  | role (code : String)
  | identityUsed (account : UUID)
  /-- A session, with the revision of the account when its status was read. -/
  | session (id account : UUID) (revision : Nat)
  | seen (session : UUID)
  deriving DecidableEq

/-- The statements that a run may be restricted at. -/
inductive Site where
  | sql
  /-- The INSERT of a session for an account whose status was read at the revision. -/
  | createSession (account : UUID) (revision : Nat)
  deriving DecidableEq, Inhabited

inductive Error where
  | service (e : Err)
  | invalidCredentials
  | accountDisabled
  deriving DecidableEq

inductive Reply where
  | account (id : UUID)
  | role (id : UUID)
  | session (id account : UUID)
  | principal (account session : UUID) (permissions : List String)
  deriving DecidableEq

abbrev Call := Prog Site Store Lock Event Error

/-- The functions of other packages that the service calls. -/
structure Security where
  verifyPassword : (password hash : String) → Bool
  hashToken : String → String
  /-- `strings.ToLower` -/
  toLower : String → String

/-- The values that a login takes from the random source and the clock, and the TTL that the service
is configured with; `upgraded` is the result of `HashPassword`. -/
structure Login where
  sessionID : UUID
  token : String
  csrf : String
  upgraded : Option String
  now : Time
  clock : Time
  sessionTTL : Int

/-! ## Owners -/

def getAccount (id : UUID) : Call Reply := do
  let a ← readOne (.service .notFound) fun v => v.accounts.find? (·.id = id)
  pure (.account a.id)

/-- `SELECT id FROM roles WHERE code='owner' FOR UPDATE` -/
def lockOwnerRole : Call UUID := do
  let r ← .orFail (.service .database) (← roles.lockRow .exclusive fun r => r.code = "owner")
  pure r.id

instance (db : Store) (a role : UUID) : Decidable (db.Assigned a role) :=
  inferInstanceAs (Decidable (∃ x ∈ db.accountRoles, _))

/-- The assignments of the role to active accounts. -/
def Store.activeAssignments (db : Store) (role : UUID) : List AccountRole :=
  db.accountRoles.filter fun x => x.deleted = false && x.roleId = role &&
    db.accounts.any fun a => a.id = x.accountId && a.status = .active

def requireAnotherOwner (ownerRoleID : UUID) : Call Unit := do
  let activeOwners ← read fun v => (v.activeAssignments ownerRoleID).length
  .check (1 < activeOwners) (.service .forbidden)

/-! ## Lifecycle -/

def transitions : AccountStatus → List AccountStatus
  | .pending => [.active, .deleted]
  | .active => [.suspended, .banned, .deleted]
  | .suspended => [.active, .banned, .deleted]
  | .banned => [.active, .deleted]
  | .deleted => []

/-- An account that leaves `active` must not be the last active owner. -/
def leaveActive (account : Account) (toStatus : AccountStatus) : Call Unit :=
  if account.status = .active ∧ toStatus ≠ .active then do
    let ownerRoleID ← lockOwnerRole
    let targetIsOwner ← read fun v => decide (v.Assigned account.id ownerRoleID)
    if targetIsOwner then requireAnotherOwner ownerRoleID else pure ()
  else pure ()

/-- `revoked_at=NOW()` on the sessions of the account that are not revoked. -/
def revokeSessions (now : Time) (id : UUID) (toStatus : AccountStatus) : Call Unit :=
  if toStatus ≠ .active then do
    let _ ← sessions.updateRows (fun s => s.accountId = id && s.revokedAt = none)
      fun s => { s with revokedAt := some now }
  else pure ()

/-- `toStatus` is the status that the text names, if it names one. -/
def changeLifecycle (now : Time) (id : UUID) (toStatus : Option AccountStatus) (reason : String) :
    Call Reply := do
  let reason := trimSpace reason
  .check (reason.utf8ByteSize ≤ 500) (.service .invalid)
  let account ← .orFail (.service .notFound) (← accounts.lockRow .exclusive fun a => a.id = id)
  let toStatus ← .orFail (.service .conflict) toStatus
  .check (toStatus ∈ transitions account.status ∧ reason ≠ "") (.service .conflict)
  leaveActive account toStatus
  let _ ← accounts.updateRow (fun a => a.id = id)
    fun a => { a with status := toStatus, revision := a.revision + 1 }
  revokeSessions now id toStatus
  .publish (.lifecycle id account.status toStatus)
  getAccount id

/-! ## Roles -/

/-- The trimmed values that are not empty, each once, in order. -/
def uniqueSorted (values : List String) : List String :=
  ((values.map trimSpace).filter (· ≠ "")).dedup.mergeSort fun a b => a ≤ b

/-- `^[a-z][a-z0-9_.-]{2,63}$` -/
def roleCodePattern : String → Bool :=
  matchesHeadTail isLowerAscii
    (fun c => isLowerAscii c || isDigitAscii c || c = '_' || c = '.' || c = '-') 2 63

def insertPermissions (roleID : UUID) : List String → Call Unit
  | [] => pure ()
  | code :: codes => do
    rolePermissions.insertRow
      (fun v => v.rolePermissions.any fun p => p.key = (roleID, code) && !p.deleted)
      [(.rolePermission (roleID, code), .exclusive), (.role roleID, .share)]
      { roleId := roleID, permissionCode := code } (.service .database)
    insertPermissions roleID codes

/-- The row of the role: a new one, or the name of the existing one that is not of the system. -/
def saveRoleRow (newID : UUID) (code name : String) : Call UUID := do
  match ← roles.lockRow .exclusive fun r => r.code = code with
  | none =>
    roles.insertRow (fun v => v.roles.any fun r => r.id = newID || r.code = code)
      [(.role newID, .exclusive), (.roleCode code, .exclusive)]
      { id := newID, code, name, system := false } (.service .database)
    pure newID
  | some r =>
    .check (r.system = false) (.service .forbidden)
    let _ ← roles.updateRow (fun x => x.id = r.id) fun x => { x with name }
    pure r.id

def saveRole (newID : UUID) (code name : String) (permissions : List String) : Call Reply := do
  let code := toLower (trimSpace code)
  let name := trimSpace name
  .check (roleCodePattern code ∧ name ≠ "" ∧ name.utf8ByteSize ≤ 100 ∧ permissions ≠ [])
    (.service .invalid)
  let permissions := uniqueSorted permissions
  let roleID ← saveRoleRow newID code name
  let known ← read fun v => (v.permissions.filter (· ∈ permissions)).length
  .check (known = permissions.length) (.service .invalid)
  let _ ← rolePermissions.updateRows (fun p => p.roleId = roleID && !p.deleted)
    fun p => { p with deleted := true }
  insertPermissions roleID permissions
  .publish (.role code)
  let role ← readOne (.service .notFound) fun v => v.roles.find? (·.code = code)
  pure (.role role.id)

def insertRoles (accountID : UUID) (assignedBy : String) : List UUID → Call Unit
  | [] => pure ()
  | roleID :: roleIDs => do
    accountRoles.insertRow
      (fun v => v.accountRoles.any fun x => x.key = (accountID, roleID) && !x.deleted)
      [(.accountRole (accountID, roleID), .exclusive), (.account accountID, .share),
        (.role roleID, .share)]
      { accountId := accountID, roleId := roleID, assignedBy } (.service .database)
    insertRoles accountID assignedBy roleIDs

/-- The DELETE of the account's roles and the INSERTs of the new ones. -/
def replaceRoles (accountID : UUID) (assignedBy : String) (roleIDs : List UUID) : Call Unit := do
  let _ ← accountRoles.updateRows (fun x => x.accountId = accountID && !x.deleted)
    fun x => { x with deleted := true }
  insertRoles accountID assignedBy roleIDs

/-- An active owner that loses the role must not be the last one. -/
def dropOwner (currentlyOwner : Bool) (account : Account) (codes : List String)
    (ownerRoleID : UUID) : Call Unit :=
  if currentlyOwner ∧ account.status = .active ∧ "owner" ∉ codes then
    requireAnotherOwner ownerRoleID
  else pure ()

def assignRoles (accountID : UUID) (codes : List String) (actor : Actor) : Call Reply := do
  let codes := uniqueSorted codes
  .check (codes ≠ []) (.service .invalid)
  let account ← .orFail (.service .notFound)
    (← accounts.lockRow .exclusive fun a => a.id = accountID)
  let ownerRoleID ← lockOwnerRole
  let roleIDs ← read fun v => (v.roles.filter (·.code ∈ codes)).map (·.id)
  .check (roleIDs.length = codes.length) (.service .invalid)
  let currentlyOwner ← read fun v => decide (v.Assigned accountID ownerRoleID)
  dropOwner currentlyOwner account codes ownerRoleID
  replaceRoles accountID actor.label roleIDs
  .publish (.roles accountID)
  getAccount accountID

/-! ## Logins -/

/-- `^[^\s/\\<>]{3,32}$` -/
def usernamePattern (username : String) : Bool :=
  3 ≤ username.length && username.length ≤ 32 &&
    username.toList.all fun c => c ∉ ['\t', '\n', '\x0c', '\r', ' ', '/', '\\', '<', '>']

@[irreducible] def normalizeUsername (sec : Security) (value : String) : Option String :=
  let username := trimSpace value
  if usernamePattern username then some (sec.toLower username) else none

/-- The local identity of a user name, with its account. -/
def Store.localIdentity (db : Store) (normalized : String) : Option (AccountIdentity × Account) := do
  let i ← db.identities.find? fun i =>
    i.kind = .local && i.usernameNormalized = some normalized && !i.disabled
  let a ← db.accounts.find? (·.id = i.accountId)
  pure (i, a)

def createSession (sec : Security) (l : Login) (accountID : UUID) (revision : Nat) : Call Reply := do
  let configured ← read (·.sessionTtlHours)
  let ttl := match configured with
    | some hours => if 0 < hours ∧ hours ≤ 24 * 365 then hours * 3600000000000 else l.sessionTTL
    | none => l.sessionTTL
  sessions.insertRow
    (fun v => v.sessions.any (fun s => s.id = l.sessionID || s.tokenHash = sec.hashToken l.token) ||
      !v.accounts.any (·.id = accountID))
    [(.session l.sessionID, .exclusive), (.sessionToken (sec.hashToken l.token), .exclusive),
      (.account accountID, .share)]
    { id := l.sessionID, accountId := accountID, tokenHash := sec.hashToken l.token
      csrfHash := sec.hashToken l.csrf, expiresAt := stored (l.clock + ttl), lastSeenAt := l.now }
    (.service .database) (.createSession accountID revision)
  .publish (.session l.sessionID accountID revision)
  let _ ← getAccount accountID
  pure (.session l.sessionID accountID)

/-- The identity is marked as used, and its password hash upgraded from scrypt. -/
def useIdentity (l : Login) (accountID : UUID) (passwordHash : String) : Call Unit := do
  if passwordHash.startsWith "scrypt$" then
    match l.upgraded with
    | none => pure ()
    | some upgraded =>
      let _ ← identities.updateRows
        (fun i => i.accountId = accountID && i.kind = .local && i.passwordHash = passwordHash)
        fun i => { i with passwordHash := upgraded, lastUsedAt := some l.now }
      .publish (.identityUsed accountID)
  else
    let _ ← identities.updateRows (fun i => i.accountId = accountID && i.kind = .local)
      fun i => { i with lastUsedAt := some l.now }
    .publish (.identityUsed accountID)

/-- The label of the INSERT carries the revision of the account row that the status was read from. -/
def authenticateLocal (sec : Security) (l : Login) (username password : String) : Call Reply := do
  let normalized ← .orFail .invalidCredentials (normalizeUsername sec username)
  let (i, account) ← readOne .invalidCredentials fun v => v.localIdentity normalized
  .check (sec.verifyPassword password i.passwordHash) .invalidCredentials
  .check (account.status = .active) .accountDisabled
  useIdentity l account.id i.passwordHash
  createSession sec l account.id account.revision

/-! ## Sessions -/

/-- The session of a token, not revoked and not expired, with its account. -/
def Store.openSession (db : Store) (tokenHash : String) (now : Time) : Option (Session × Account) := do
  let s ← db.sessions.find? fun s =>
    s.tokenHash = tokenHash && s.revokedAt = none && now < s.expiresAt
  let a ← db.accounts.find? (·.id = s.accountId)
  pure (s, a)

def Store.permissionsOf (db : Store) (accountID : UUID) : List String :=
  ((db.accountRoles.filter fun x => x.accountId = accountID && !x.deleted).flatMap fun x =>
    (db.rolePermissions.filter fun p => p.roleId = x.roleId && !p.deleted).map
      (·.permissionCode)).dedup

/-- `INTERVAL '5 minutes'` -/
def fiveMinutes : Time := 5 * 60000000000

def authenticateSession (sec : Security) (now : Time) (token : String) : Call Reply := do
  let (s, account) ← readOne .invalidCredentials fun v => v.openSession (sec.hashToken token) now
  .check (account.status = .active) .invalidCredentials
  let permissions ← read fun v => v.permissionsOf account.id
  let _ ← sessions.updateRow (fun x => x.id = s.id && x.lastSeenAt < now - fiveMinutes)
    fun x => { x with lastSeenAt := now }
  .publish (.seen s.id)
  pure (.principal account.id s.id permissions)

/-! ## Requests -/

inductive Request where
  | changeLifecycle (now : Time) (id : UUID) (toStatus : Option AccountStatus) (reason : String)
  | assignRoles (accountID : UUID) (codes : List String) (actor : Actor)
  | saveRole (newID : UUID) (code name : String) (permissions : List String)
  | authenticateLocal (l : Login) (username password : String)
  | authenticateSession (now : Time) (token : String)

def Request.call (sec : Security) : Request → Call Reply
  | .changeLifecycle now id toStatus reason =>
    Identity.changeLifecycle now id toStatus reason
  | .assignRoles account codes actor => Identity.assignRoles account codes actor
  | .saveRole newID code name permissions => Identity.saveRole newID code name permissions
  | .authenticateLocal l username password => Identity.authenticateLocal sec l username password
  | .authenticateSession now token => Identity.authenticateSession sec now token

end Sakura.Identity
