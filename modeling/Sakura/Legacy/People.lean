/-
  Accounts and roles of an import (legacyimport/importer.go).

  * `LegacyDatabase`: what an import reads of v2, `LegacyDatabase.source`: its ledger part;
  * `importPeople`: the loops over accounts, emby users and role members;
  * `importPeople_holds`: who holds a role after them.
-/
import Sakura.Identity.Schema
import Sakura.Legacy.Rows

namespace Sakura

open Txn

/-! ## Rows of v2 -/

/-- A row of accounts. -/
structure LegacyAccount where
  id : String
  tg : Int64

/-- A row of web_role_members with the name of its role. -/
structure LegacyRoleMember where
  roleName : String
  tg : Int64

structure LegacyDatabase where
  accounts : List LegacyAccount
  /-- The Telegram users of the rows of emby. -/
  emby : List Int64
  roleMembers : List LegacyRoleMember
  entries : List LegacyLedgerRow
  wallets : List LegacyWallet

variable (im : Importer) (parseUUID : String → Option UUID)

/-- The account of v3. -/
def accountUUID (id : String) : UUID :=
  match parseUUID id with
  | some id => id
  | none => im.deterministicUUID ("sakura-v2-account:" ++ id)

/-- `idMap` -/
def LegacyDatabase.idMap (database : LegacyDatabase) (id : String) : Option UUID :=
  if database.accounts.any (·.id = id) then some (accountUUID im parseUUID id) else none

def LegacyDatabase.source (database : LegacyDatabase) : LegacySource where
  idMap := database.idMap im parseUUID
  entries := database.entries
  wallets := database.wallets

/-! ## Loops -/

def ownerRoleID : UUID := idOf '1'
def adminRoleID : UUID := idOf '2'
def userRoleID : UUID := idOf '3'

/-- The role of v3 of a role of v2. -/
def importRole (casing : Casing) (roleName : String) : Option UUID :=
  let name := casing.toLower roleName
  if name = "owner" then some ownerRoleID
  else if name = "admin" ∨ name = "administrator" then some adminRoleID
  else if name = "user" then some userRoleID
  else none

/-- `tgMap` and account_roles. -/
structure People where
  tgMap : List (Int64 × UUID)
  accountRoles : List Identity.AccountRole

namespace People

/-- `tgMap[tg]` -/
def lookup (p : People) (tg : Int64) : Option UUID := (p.tgMap.find? (·.1 = tg)).map (·.2)

/-- INSERT INTO account_roles … ON CONFLICT DO NOTHING -/
def addRole (p : People) (accountID roleID : UUID) : People :=
  if p.accountRoles.any fun r => r.key = (accountID, roleID) then p
  else { p with accountRoles := p.accountRoles ++
    [{ accountId := accountID, roleId := roleID, assignedBy := "system:legacy-import" }] }

def setTG (p : People) (tg : Int64) (accountID : UUID) : People :=
  { p with tgMap := (tg, accountID) :: p.tgMap }

def importAccount (p : People) (a : LegacyAccount) : People :=
  let id := accountUUID im parseUUID a.id
  (p.setTG a.tg id).addRole id userRoleID

/-- A user of emby without an account gets one. -/
def importEmby (p : People) (tg : Int64) : People :=
  match p.lookup tg with
  | some _ => p
  | none =>
    let accountID := im.deterministicUUID ("sakura-account:" ++ toString tg)
    (p.setTG tg accountID).addRole accountID userRoleID

/-- A member without an account is left out, and one of another role. -/
def importRoleMember (p : People) (m : LegacyRoleMember) : People :=
  match p.lookup m.tg with
  | none => p
  | some accountID =>
    match importRole im.casing m.roleName with
    | none => p
    | some roleID => p.addRole accountID roleID

end People

/-- The accounts of Telegram users after the loops over accounts and emby users. -/
def LegacyDatabase.people (database : LegacyDatabase)
    (accountRoles : List Identity.AccountRole) : People :=
  database.emby.foldl (People.importEmby im)
    (database.accounts.foldl (People.importAccount im parseUUID) ⟨[], accountRoles⟩)

def importPeople (database : LegacyDatabase) (accountRoles : List Identity.AccountRole) : People :=
  database.roleMembers.foldl (People.importRoleMember im) (database.people im parseUUID accountRoles)

/-! ## Who holds a role -/

/-- The Telegram user has an account, and it holds the role. -/
def People.Holds (p : People) (tg : Int64) (roleID : UUID) : Prop :=
  ∃ a, p.lookup tg = some a ∧ ∃ r ∈ p.accountRoles, r.key = (a, roleID)

/-- Each member of one of the roles has an account or is a user of emby. -/
def LegacyDatabase.MembersKnown (database : LegacyDatabase) (casing : Casing) : Prop :=
  ∀ m ∈ database.roleMembers, (importRole casing m.roleName).isSome →
    m.tg ∈ database.accounts.map (·.tg) ∨ m.tg ∈ database.emby

section

variable {im parseUUID} {p p' : People} {tg : Int64} {a : UUID}

theorem People.addRole_tgMap {x r : UUID} : (p.addRole x r).tgMap = p.tgMap := by
  unfold People.addRole
  split <;> rfl

theorem People.addRole_key {x r : UUID} :
    ∃ row ∈ (p.addRole x r).accountRoles, row.key = (x, r) := by
  unfold People.addRole
  split
  · next h =>
    obtain ⟨row, hrow, hk⟩ := List.any_eq_true.1 h
    exact ⟨row, hrow, of_decide_eq_true hk⟩
  · exact ⟨_, List.mem_append_right _ (List.mem_singleton_self _), rfl⟩

theorem People.mem_addRole {x r : UUID} {row : Identity.AccountRole} (h : row ∈ p.accountRoles) :
    row ∈ (p.addRole x r).accountRoles := by
  unfold People.addRole
  split
  · exact h
  · exact List.mem_append_left _ h

/-- The loops lose neither an account of a Telegram user nor a role. -/
structure People.Keeps (p p' : People) : Prop where
  known : ∀ tg, (p.lookup tg).isSome → (p'.lookup tg).isSome
  roles : ∀ row ∈ p.accountRoles, row ∈ p'.accountRoles

theorem People.Keeps.refl : p.Keeps p := ⟨fun _ h => h, fun _ h => h⟩

theorem People.Keeps.trans {q : People} (h : p.Keeps p') (h' : p'.Keeps q) : p.Keeps q :=
  ⟨fun tg ht => h'.known tg (h.known tg ht), fun row hr => h'.roles row (h.roles row hr)⟩

theorem People.setTG_keeps : p.Keeps (p.setTG tg a) :=
  ⟨fun t ht => by
    unfold People.lookup People.setTG at *
    by_cases h : tg = t
    · simp [h]
    · rwa [List.find?_cons_of_neg (by simpa using h)], fun _ h => h⟩

theorem People.addRole_keeps {x r : UUID} : p.Keeps (p.addRole x r) :=
  ⟨fun t ht => by
    unfold People.lookup at *
    rwa [People.addRole_tgMap], fun _ h => mem_addRole h⟩

theorem People.lookup_setTG : (p.setTG tg a).lookup tg = some a := by
  simp [People.lookup, People.setTG]

theorem People.importAccount_known {x : LegacyAccount} :
    p.Keeps (p.importAccount im parseUUID x) ∧
      ((p.importAccount im parseUUID x).lookup x.tg).isSome := by
  refine ⟨setTG_keeps.trans addRole_keeps, addRole_keeps.known _ ?_⟩
  rw [lookup_setTG]
  rfl

theorem People.importEmby_known : p.Keeps (p.importEmby im tg) ∧
    ((p.importEmby im tg).lookup tg).isSome := by
  unfold People.importEmby
  split
  · next a h => exact ⟨.refl, by rw [h]; rfl⟩
  · refine ⟨setTG_keeps.trans addRole_keeps, addRole_keeps.known _ ?_⟩
    rw [lookup_setTG]
    rfl

theorem People.importRoleMember_tgMap {m : LegacyRoleMember} :
    (p.importRoleMember im m).tgMap = p.tgMap := by
  unfold People.importRoleMember
  split
  · rfl
  · split
    · rfl
    · exact addRole_tgMap

theorem People.importRoleMember_keeps {m : LegacyRoleMember} :
    p.Keeps (p.importRoleMember im m) := by
  unfold People.importRoleMember
  split
  · exact .refl
  · split
    · exact .refl
    · exact addRole_keeps

/-- A loop whose steps keep what is known knows every row it went over. -/
theorem People.foldl_known {α : Type} (f : People → α → People) (tgOf : α → Int64)
    (hf : ∀ p x, p.Keeps (f p x) ∧ ((f p x).lookup (tgOf x)).isSome) :
    ∀ (xs : List α) (p : People), p.Keeps (xs.foldl f p) ∧
      ∀ x ∈ xs, ((xs.foldl f p).lookup (tgOf x)).isSome
  | [], p => ⟨.refl, fun _ h => absurd h List.not_mem_nil⟩
  | x :: xs, p => by
    obtain ⟨hk, hall⟩ := foldl_known f tgOf hf xs (f p x)
    refine ⟨(hf p x).1.trans hk, fun y hy => ?_⟩
    rcases List.mem_cons.1 hy with rfl | hy
    · exact hk.known _ (hf p y).2
    · exact hall y hy

theorem LegacyDatabase.people_known (database : LegacyDatabase) (roles : List Identity.AccountRole)
    (h : tg ∈ database.accounts.map (·.tg) ∨ tg ∈ database.emby) :
    ((database.people im parseUUID roles).lookup tg).isSome := by
  obtain ⟨-, haccounts⟩ := People.foldl_known (People.importAccount im parseUUID) (·.tg)
    (fun _ _ => People.importAccount_known) database.accounts ⟨[], roles⟩
  obtain ⟨hk, hemby⟩ := People.foldl_known (People.importEmby im) id
    (fun _ _ => People.importEmby_known) database.emby
    (database.accounts.foldl (People.importAccount im parseUUID) ⟨[], roles⟩)
  rcases h with h | h
  · obtain ⟨x, hx, rfl⟩ := List.mem_map.1 h
    exact hk.known _ (haccounts x hx)
  · exact hemby tg h

theorem People.foldl_importRoleMember : ∀ (ms : List LegacyRoleMember) (p : People),
    (ms.foldl (People.importRoleMember im) p).tgMap = p.tgMap ∧
      p.Keeps (ms.foldl (People.importRoleMember im) p) ∧
      ∀ m ∈ ms, ∀ a r, p.lookup m.tg = some a → importRole im.casing m.roleName = some r →
        ∃ row ∈ (ms.foldl (People.importRoleMember im) p).accountRoles, row.key = (a, r)
  | [], p => ⟨rfl, .refl, fun _ h => absurd h List.not_mem_nil⟩
  | m :: ms, p => by
    obtain ⟨htg, hk, hall⟩ := foldl_importRoleMember ms (p.importRoleMember im m)
    refine ⟨htg.trans importRoleMember_tgMap, importRoleMember_keeps.trans hk, fun x hx a r ha hr => ?_⟩
    rcases List.mem_cons.1 hx with rfl | hx
    · have hadd : p.importRoleMember im x = p.addRole a r := by
        unfold People.importRoleMember
        rw [ha]
        dsimp only
        rw [hr]
      obtain ⟨row, hrow, hkey⟩ : ∃ row ∈ (p.addRole a r).accountRoles, row.key = (a, r) := addRole_key
      exact ⟨row, hk.roles row (hadd ▸ hrow), hkey⟩
    · refine hall x hx a r ?_ hr
      unfold People.lookup
      rw [importRoleMember_tgMap]
      exact ha

/-- **Roles after an import**: if the members have accounts, they hold their roles. -/
theorem importPeople_holds {database : LegacyDatabase} {roles : List Identity.AccountRole}
    (h : database.MembersKnown im.casing) : ∀ m ∈ database.roleMembers, ∀ r,
      importRole im.casing m.roleName = some r →
        (importPeople im parseUUID database roles).Holds m.tg r := by
  intro m hm r hr
  have hknown : ((database.people im parseUUID roles).lookup m.tg).isSome :=
    database.people_known roles (h m hm (by rw [hr]; rfl))
  obtain ⟨a, ha⟩ := Option.isSome_iff_exists.1 hknown
  obtain ⟨htg, -, hall⟩ :=
    People.foldl_importRoleMember database.roleMembers (database.people im parseUUID roles)
  refine ⟨a, ?_, hall m hm a r ha hr⟩
  unfold importPeople People.lookup
  rw [htg]
  exact ha

end

end Sakura
