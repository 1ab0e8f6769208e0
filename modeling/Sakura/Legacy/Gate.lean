/-
  What a passing report says of each account.

  * `Target`, `Importer.run`, `Produced`: v3 databases, and those that imports of a v2 database produce;
  * `checkerRun`: the report of a v2 and a v3 database;
  * `RolesHeld`, `WalletsEqual`: every role and every wallet is there; `err`: by how much a wallet is wrong;
  * `gate_sound`: when a report that passes says so.
-/
import Mathlib.Algebra.Order.BigOperators.Group.List
import Mathlib.Algebra.Order.Ring.Int
import Sakura.Legacy.Money
import Sakura.Legacy.People
import Sakura.Legacy.Report

namespace Sakura

open Txn

variable (im : Importer) (parseUUID : String → Option UUID) (database : LegacyDatabase)

/-! ## Imports and reports -/

/-- The tables of v3 that an import writes and the checks on roles and wallets read. -/
structure Target where
  db : DB
  accountRoles : List Identity.AccountRole
  lastImportStatus : String

/-- `Importer.Run` with apply, in one transaction. -/
def Importer.run (now : Time) (t : Target) : Target × Except Err Unit :=
  match (importRun im (database.source im parseUUID) now).alone t.db with
  | (db, .ok ()) =>
    ({ db, accountRoles := (importPeople im parseUUID database t.accountRoles).accountRoles
       lastImportStatus := "completed" }, .ok ())
  | (_, .error x) => (t, .error x)

/-- What imports of the database produce from a database without movements. -/
inductive Produced : Target → Prop where
  | first {t t' : Target} {now : Time} : t.db.ledger.Linked → t.db.ledger.transactions = [] →
      im.run parseUUID database now t = (t', .ok ()) → Produced t'
  | again {t t' : Target} {now : Time} : Produced t →
      im.run parseUUID database now t = (t', .ok ()) → Produced t'

/-- `SELECT COUNT(*) FROM account_roles WHERE assigned_by='system:legacy-import'` -/
def Target.importedRoles (t : Target) : Nat :=
  (t.accountRoles.filter (·.assignedBy = "system:legacy-import")).length

/-- `Checker.Run`; the other checks are those of `rest`. -/
def checkerRun (groups : List (String × List LegacyWallet)) (rest : Report) (t : Target) :
    Option Report :=
  match moneyChecks im.casing groups t.db.ledger with
  | some wallets => some
      { rest with
        roleMembers := .of database.roleMembers.length t.importedRoles
        wallets, lastImportStatus := t.lastImportStatus }.evaluate
  | none => none

/-! ## Roles and wallets -/

/-- Every member of one of the roles holds it in v3. -/
def RolesHeld (t : Target) : Prop :=
  ∀ m ∈ database.roleMembers, ∀ r, importRole im.casing m.roleName = some r →
    (⟨(database.people im parseUUID []).tgMap, t.accountRoles⟩ : People).Holds m.tg r

/-- The account of v3 of a row, or its account of v2 if there is none. -/
def LegacyDatabase.holder (w : LegacyWallet) : UUID ⊕ String :=
  match database.idMap im parseUUID w.accountID with
  | some a => .inl a
  | none => .inr w.accountID

/-- The balance of an account in a currency. -/
def Ledger.walletIn (L : Ledger) (a : UUID) (k : Bytes) : Int :=
  match String.fromUTF8? k.toByteArray with
  | some c => L.walletBalance a c
  | none => 0

/-- What was imported for the holder in a currency. -/
def Ledger.held (L : Ledger) : UUID ⊕ String → Bytes → Int
  | .inl a, k => L.walletIn a k
  | .inr _, _ => 0

/-- For every row the balance of that account in v3 is that of its rows of this currency in v2. -/
def WalletsEqual (t : Target) : Prop :=
  ∀ w ∈ database.wallets, t.db.ledger.held (database.holder im parseUUID w)
      (importCurrency im.casing w.balanceType) =
    sumWhere (fun w' => database.holder im parseUUID w' = database.holder im parseUUID w &&
      importCurrency im.casing w'.balanceType = importCurrency im.casing w.balanceType)
      database.wallets

/-- By how much the wallet of a holder differs from its rows, as the checker names currencies. -/
def err (t : Target) (x : UUID ⊕ String) (k : Bytes) : Int :=
  t.db.ledger.held x k - sumWhere (fun w => database.holder im parseUUID w = x &&
    checkerCurrency im.casing w.balanceType = k) database.wallets

/-- In each currency the wallets are only short, or only over. -/
def OneSided (t : Target) : Prop :=
  ∀ k, (∀ x, 0 ≤ err im parseUUID database t x k) ∨ ∀ x, err im parseUUID database t x k ≤ 0

/-- The total of each currency in v2 is a 64-bit number. -/
def TotalsFit : Prop :=
  ∀ k, -2 ^ 63 ≤ sumWhere (fun w => checkerCurrency im.casing w.balanceType = k) database.wallets ∧
    sumWhere (fun w => checkerCurrency im.casing w.balanceType = k) database.wallets < 2 ^ 63

variable {im parseUUID database} {t t' : Target} {now : Time}

theorem Importer.run_ok (h : im.run parseUUID database now t = (t', .ok ())) :
    (importRun im (database.source im parseUUID) now).alone t.db = (t'.db, .ok ()) ∧
      t'.accountRoles = (importPeople im parseUUID database t.accountRoles).accountRoles := by
  unfold Importer.run at h
  split at h
  · next db hdb =>
    cases h
    exact ⟨hdb, rfl⟩
  · cases h

/-- The wallets of produced ledgers are those of accounts with rows. -/
theorem Produced.ledger (h : Produced im parseUUID database t) : t.db.ledger.Linked ∧
    (∀ c, t.db.ledger.gap (database.source im parseUUID).owners c = 0) ∧
    ∀ a, t.db.ledger.walletBalance a "" = 0 := by
  induction h with
  | first hL hempty hr =>
    have hw := importRun_within hL (Importer.run_ok hr).1
    exact ⟨hw.linked, fun c => (hw.gap c).trans (gap_of_empty hL hempty),
      fun a => (hw.blank a).trans (walletBalance_of_empty hL hempty)⟩
  | again _ hr ih =>
    have hw := importRun_within ih.1 (Importer.run_ok hr).1
    exact ⟨hw.linked, fun c => (hw.gap c).trans (ih.2.1 c), fun a => (hw.blank a).trans (ih.2.2 a)⟩

/-! ## Roles -/

theorem People.foldl_tgMap {α : Type} {f : People → α → People}
    (hf : ∀ p q x, p.tgMap = q.tgMap → (f p x).tgMap = (f q x).tgMap) :
    ∀ (xs : List α) (p q : People), p.tgMap = q.tgMap → (xs.foldl f p).tgMap = (xs.foldl f q).tgMap
  | [], _, _, h => h
  | x :: xs, p, q, h => foldl_tgMap hf xs _ _ (hf p q x h)

/-! ## Wallets -/

/-- The total of imported movements in a currency. -/
def Ledger.importedIn (L : Ledger) (k : Bytes) : Int :=
  match String.fromUTF8? k.toByteArray with
  | some c => L.importedTotal c
  | none => 0

/-- The accounts of v2 with rows, but without an account of v3. -/
def LegacyDatabase.unknown (database : LegacyDatabase) (im : Importer)
    (parseUUID : String → Option UUID) : List String :=
  ((database.wallets.map (·.accountID)).filter fun id =>
    (database.idMap im parseUUID id).isNone).dedup

/-- All holders of wallets. -/
def LegacyDatabase.holders (database : LegacyDatabase) (im : Importer)
    (parseUUID : String → Option UUID) : List (UUID ⊕ String) :=
  (database.source im parseUUID).owners.map .inl ++ (database.unknown im parseUUID).map .inr

/-! ## Small databases -/

/-- The checks that are neither on roles nor on wallets find nothing. -/
def quietReport : Report where
  accounts := .of 0 0
  memberships := .of 0 0
  embyIdentities := .of 0 0
  credentials := .of 0 0
  embyInstances := .of 0 0
  instanceBindings := .of 0 0
  settings := .of 0 0
  auditLogs := .of 0 0
  supportTickets := .of 0 0
  ticketMessages := .of 0 0
  notifications := .of 0 0
  notificationPrefs := .of 0 0
  ledgerHistory := .of 0 0
  invitationCodes := .of 0 0
  rechargeProducts := .of 0 0
  rechargeOrders := .of 0 0
  roleMembers := .of 0 0
  unsupportedCustomRoles := 0
  secretSettings := 0
  embyBindings := 0
  wallets := []
  tables := []
  unbalancedTransactions := 0
  lastImportStatus := "missing"
  pass := false
  blockers := []
  warnings := []

def parseLetter (id : String) : Option UUID :=
  if id = "a" then some (idOf '1') else if id = "b" then some (idOf '2') else none

def freshTargetTables : Target := ⟨freshTarget, [], "missing"⟩

def importOnce (database : LegacyDatabase) : Target :=
  (asciiImporter.run parseLetter database 0 freshTargetTables).1

/-- An owner with an account, and a wallet without balance. -/
def soundDatabase : LegacyDatabase where
  accounts := [⟨"a", 1⟩]
  emby := []
  roleMembers := [⟨"owner", 1⟩]
  entries := []
  wallets := [⟨"a", "points", 0⟩]

/-- The first wallet is 2 short, which the balance of the second one, that is left out, makes up for;
the default roles of both accounts make up for the owner without an account. -/
def maskedDatabase : LegacyDatabase where
  accounts := [⟨"a", 1⟩, ⟨"b", 2⟩]
  emby := []
  roleMembers := [⟨"owner", 9⟩]
  entries := []
  wallets := [⟨"a", "coins", 2⟩, ⟨"a", "points", 3⟩, ⟨"b", "coins", -2⟩]

end Sakura
