/-
  The tables of package identity (migration 000002).

  A column that no modelled statement reads is left out.  A DELETE leaves a version of its row that
  is marked as deleted.

  * `Account`, `AccountIdentity`, `Session`, `Role`, `RolePermission`, `AccountRole`: the rows;
  * `Store`, `Versions`: the tables, and the row versions of a transaction;
  * `Lock`, `accounts` … `accountRoles`: rows and index entries that a transaction may lock;
  * `Store.ActiveOwner`: the active accounts with the role `owner`.
-/
import Sakura.Schema
import Sakura.Txn.Rows

namespace Sakura.Identity

open Txn

/-! ## Rows -/

structure Account where
  id : UUID
  status : AccountStatus
  revision : Nat
  deriving DecidableEq

inductive IdentityKind where
  | «local» | telegram | emby | legacy
  deriving DecidableEq, Repr

structure AccountIdentity where
  id : UUID
  accountId : UUID
  kind : IdentityKind
  usernameNormalized : Option String
  passwordHash : String
  lastUsedAt : Option Time
  disabled : Bool
  deriving DecidableEq

structure Session where
  id : UUID
  accountId : UUID
  tokenHash : String
  csrfHash : String
  expiresAt : Time
  lastSeenAt : Time
  revokedAt : Option Time := none
  deriving DecidableEq

structure Role where
  id : UUID
  code : String
  name : String
  system : Bool
  deriving DecidableEq

structure RolePermission where
  roleId : UUID
  permissionCode : String
  deleted : Bool := false
  deriving DecidableEq

/-- PRIMARY KEY(role_id, permission_code) -/
def RolePermission.key (p : RolePermission) : UUID × String := (p.roleId, p.permissionCode)

structure AccountRole where
  accountId : UUID
  roleId : UUID
  assignedBy : String
  deleted : Bool := false
  deriving DecidableEq

/-- PRIMARY KEY(account_id, role_id) -/
def AccountRole.key (r : AccountRole) : UUID × UUID := (r.accountId, r.roleId)

/-! ## Tables -/

structure Store where
  permissions : List String
  /-- The setting auth.session_ttl_hours, if it is an integer. -/
  sessionTtlHours : Option Int
  accounts : List Account
  identities : List AccountIdentity
  sessions : List Session
  roles : List Role
  rolePermissions : List RolePermission
  accountRoles : List AccountRole

/-- The row versions of a transaction. -/
structure Versions where
  accounts : List Account := []
  identities : List AccountIdentity := []
  sessions : List Session := []
  roles : List Role := []
  rolePermissions : List RolePermission := []
  accountRoles : List AccountRole := []

/-- The tables under the versions `δ`. -/
def Store.overlay (db : Store) (δ : Versions) : Store where
  permissions := db.permissions
  sessionTtlHours := db.sessionTtlHours
  accounts := Txn.overlay Account.id db.accounts δ.accounts
  identities := Txn.overlay AccountIdentity.id db.identities δ.identities
  sessions := Txn.overlay Session.id db.sessions δ.sessions
  roles := Txn.overlay Role.id db.roles δ.roles
  rolePermissions := Txn.overlay RolePermission.key db.rolePermissions δ.rolePermissions
  accountRoles := Txn.overlay AccountRole.key db.accountRoles δ.accountRoles

/-- The versions `δ` under later versions `δ'` of the same transaction. -/
def Versions.overlay (δ δ' : Versions) : Versions where
  accounts := Txn.overlay Account.id δ.accounts δ'.accounts
  identities := Txn.overlay AccountIdentity.id δ.identities δ'.identities
  sessions := Txn.overlay Session.id δ.sessions δ'.sessions
  roles := Txn.overlay Role.id δ.roles δ'.roles
  rolePermissions := Txn.overlay RolePermission.key δ.rolePermissions δ'.rolePermissions
  accountRoles := Txn.overlay AccountRole.key δ.accountRoles δ'.accountRoles

instance : Layers Store Versions where
  lay := Store.overlay
  none := {}
  merge := Versions.overlay
  lay_none db := by simp [Store.overlay]
  lay_lay db δ δ' := by simp [Store.overlay, Versions.overlay, overlay_assoc]

inductive Lock where
  | account (id : UUID)
  | identity (id : UUID)
  | session (id : UUID)
  | role (id : UUID)
  | rolePermission (key : UUID × String)
  | accountRole (key : UUID × UUID)
  /-- UNIQUE(token_hash) of sessions -/
  | sessionToken (hash : String)
  /-- UNIQUE(code) of roles -/
  | roleCode (code : String)
  deriving DecidableEq

def accounts : Rows Store Versions Account UUID Lock :=
  ⟨Store.accounts, Account.id, .account, fun a => { accounts := [a] }⟩

def identities : Rows Store Versions AccountIdentity UUID Lock :=
  ⟨Store.identities, AccountIdentity.id, .identity, fun i => { identities := [i] }⟩

def sessions : Rows Store Versions Session UUID Lock :=
  ⟨Store.sessions, Session.id, .session, fun s => { sessions := [s] }⟩

def roles : Rows Store Versions Role UUID Lock :=
  ⟨Store.roles, Role.id, .role, fun r => { roles := [r] }⟩

def rolePermissions : Rows Store Versions RolePermission (UUID × String) Lock :=
  ⟨Store.rolePermissions, RolePermission.key, .rolePermission, fun p => { rolePermissions := [p] }⟩

def accountRoles : Rows Store Versions AccountRole (UUID × UUID) Lock :=
  ⟨Store.accountRoles, AccountRole.key, .accountRole, fun r => { accountRoles := [r] }⟩

/-! ## Owners -/

/-- The account `a` has the role of the id `role`. -/
def Store.Assigned (db : Store) (a role : UUID) : Prop :=
  ∃ x ∈ db.accountRoles, x.deleted = false ∧ x.accountId = a ∧ x.roleId = role

/-- The account `a` is active and holds the system role `owner`. -/
def Store.ActiveOwner (db : Store) (a : UUID) : Prop :=
  (∃ x ∈ db.accounts, x.id = a ∧ x.status = .active) ∧
    ∃ r ∈ db.roles, r.code = "owner" ∧ r.system = true ∧ db.Assigned a r.id

/-- The unique indexes, and the role `owner` that the migration inserts. -/
structure Store.WellFormed (db : Store) : Prop where
  accountIds : UniqueBy Account.id db.accounts
  sessionIds : UniqueBy Session.id db.sessions
  roleIds : UniqueBy Role.id db.roles
  roleCodes : UniqueBy Role.code db.roles
  accountRoleKeys : UniqueBy AccountRole.key db.accountRoles
  owner : ∃ r ∈ db.roles, r.code = "owner" ∧ r.system = true

end Sakura.Identity
