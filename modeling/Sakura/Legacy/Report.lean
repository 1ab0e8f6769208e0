/-
  The reconciliation report and its verdict (reconcile/reconcile.go).

  * `CountCheck`, `TableCheck`, `Report`: the report;
  * `legacyDomainAdapters`, `requiredTransformTables`: the tables of v2 with an adapter;
  * `Report.evaluate`: the blockers, the warnings and the verdict; `evaluate_pass`: what a verdict means.
-/
import Sakura.Legacy.Checker

namespace Sakura

open Txn

/-! ## Reports -/

/-- Numbers of rows, which are 64-bit numbers. -/
structure CountCheck where
  source : Int
  target : Int
  missing : Int
  deriving DecidableEq

def positive (value : Int) : Int := if 0 < value then value else 0

def CountCheck.of (source target : Int) : CountCheck := ⟨source, target, positive (source - target)⟩

structure TableCheck where
  name : String
  rows : Int
  disposition : String
  archivedRows : Int
  transformedRows : Int
  targetRows : Int
  archiveOnlyRows : Int
  deferredRows : Int
  missingRows : Int
  implemented : Bool

/-- `SELECT status FROM legacy_import_runs ORDER BY started_at DESC LIMIT 1` sets `lastImportStatus`. -/
structure Report where
  accounts : CountCheck
  memberships : CountCheck
  embyIdentities : CountCheck
  credentials : CountCheck
  embyInstances : CountCheck
  instanceBindings : CountCheck
  settings : CountCheck
  auditLogs : CountCheck
  supportTickets : CountCheck
  ticketMessages : CountCheck
  notifications : CountCheck
  notificationPrefs : CountCheck
  ledgerHistory : CountCheck
  invitationCodes : CountCheck
  rechargeProducts : CountCheck
  rechargeOrders : CountCheck
  roleMembers : CountCheck
  unsupportedCustomRoles : Int
  secretSettings : Int
  embyBindings : Int
  wallets : List MoneyCheck
  tables : List TableCheck
  unbalancedTransactions : Int
  lastImportStatus : String
  pass : Bool
  blockers : List Bytes
  warnings : List Bytes

/-! ## Evaluation -/

def legacyDomainAdapters : List String :=
  ["point_transactions", "billing_entries", "account_lifecycle_events", "emby2", "partition_codes",
    "partition_grants", "line_endpoints", "playback_sessions", "known_devices",
    "device_client_rules", "security_events", "risk_rules", "media_requests", "request_records",
    "media_reviews", "review_reactions", "review_reports", "automation_rules", "operation_tasks",
    "config_revisions", "api_clients", "idempotency_records", "job_runs", "system_events",
    "automation_runs", "line_health_samples", "service_probes", "alert_deliveries"]

def requiredTransformTables : List String :=
  ["point_transactions", "billing_entries", "account_lifecycle_events"]

/-- A message, if there is a reason for it. -/
def messageIf (reason : Bool) (message : Bytes) : List Bytes := if reason then [message] else []

/-- `fmt.Sprintf("missing %d %s", check.Missing, name)` -/
def missingBlocker (name : String) (check : CountCheck) : List Bytes :=
  messageIf (0 < check.missing) (bytesOf ("missing " ++ toString check.missing ++ " " ++ name))

namespace Report

variable (r : Report)

/-- The checks whose order in the report is that of a map. -/
def namedChecks : List (String × CountCheck) :=
  [("credentials", r.credentials), ("Emby instances", r.embyInstances),
    ("Emby instance bindings", r.instanceBindings), ("settings", r.settings),
    ("audit logs", r.auditLogs), ("support tickets", r.supportTickets),
    ("ticket messages", r.ticketMessages), ("notifications", r.notifications),
    ("notification preferences", r.notificationPrefs), ("ledger history", r.ledgerHistory),
    ("invitation codes", r.invitationCodes), ("recharge products", r.rechargeProducts),
    ("recharge orders", r.rechargeOrders), ("role members", r.roleMembers)]

end Report

def MoneyCheck.blockers (wallet : MoneyCheck) : List Bytes :=
  messageIf (wallet.difference ≠ 0) (bytesOf "wallet " ++ wallet.currency ++
    bytesOf (" differs by " ++ toString wallet.difference))

def MoneyCheck.warnings (wallet : MoneyCheck) : List Bytes :=
  messageIf (wallet.current ≠ wallet.imported) (bytesOf "wallet " ++ wallet.currency ++
    bytesOf (" current total differs from imported total by " ++
      toString (wallet.current - wallet.imported)))

def TableCheck.blockers (table : TableCheck) : List Bytes :=
  if table.rows = 0 then []
  else if table.name ∈ legacyDomainAdapters then
    messageIf (0 < table.missingRows) (bytesOf ("v2 table " ++ table.name ++ " is missing " ++
      toString table.missingRows ++ " archived migration rows")) ++
    messageIf (0 < table.deferredRows) (bytesOf ("v2 table " ++ table.name ++ " has " ++
      toString table.deferredRows ++ " deferred rows requiring operator resolution")) ++
    messageIf (table.name ∈ requiredTransformTables &&
        (table.transformedRows ≠ table.rows || table.targetRows ≠ table.rows))
      (bytesOf ("v2 table " ++ table.name ++ " requires " ++ toString table.rows ++
        " transformed target rows but archive=" ++ toString table.transformedRows ++ " target=" ++
        toString table.targetRows))
  else
    messageIf (table.disposition = "pending_adapter" || table.disposition = "unknown")
      (bytesOf ("v2 table " ++ table.name ++ " has " ++ toString table.rows ++
        " rows but no active-domain migration adapter"))

def TableCheck.warnings (table : TableCheck) : List Bytes :=
  if table.rows = 0 ∨ table.name ∈ legacyDomainAdapters then []
  else
    messageIf (table.disposition = "archive" || table.disposition = "rebuild" ||
        table.disposition = "invalidate")
      (bytesOf ("v2 table " ++ table.name ++ " has " ++ toString table.rows ++
        " rows and will be " ++ table.disposition))

namespace Report

variable (r : Report)

def allBlockers : List Bytes :=
  missingBlocker "accounts" r.accounts ++ missingBlocker "memberships" r.memberships ++
  missingBlocker "Emby identities" r.embyIdentities ++
  r.namedChecks.flatMap (fun check => missingBlocker check.1 check.2) ++
  r.wallets.flatMap MoneyCheck.blockers ++
  messageIf (0 < r.unbalancedTransactions) (bytesOf (toString r.unbalancedTransactions ++
    " ledger transactions are unbalanced")) ++
  messageIf (r.lastImportStatus ≠ "completed") (bytesOf "last import is not completed") ++
  messageIf (0 < r.secretSettings) (bytesOf (toString r.secretSettings ++
    " secret dynamic settings require credential-center migration")) ++
  messageIf (0 < r.unsupportedCustomRoles) (bytesOf (toString r.unsupportedCustomRoles ++
    " custom v2 roles require explicit permission mapping")) ++
  r.tables.flatMap TableCheck.blockers

def allWarnings : List Bytes :=
  r.wallets.flatMap MoneyCheck.warnings ++
  messageIf (r.embyBindings < r.embyIdentities.target) (bytesOf
    (toString (r.embyIdentities.target - r.embyBindings) ++
      " imported Emby identities are not adopted into instance bindings")) ++
  r.tables.flatMap TableCheck.warnings

/-- `Report.Evaluate` -/
def evaluate : Report :=
  { r with blockers := r.allBlockers, warnings := r.allWarnings, pass := r.allBlockers.isEmpty }

variable {r}

/-- **A report that passes** misses no role members, and no money in any currency. -/
theorem evaluate_pass (h : r.evaluate.pass = true) :
    r.roleMembers.missing ≤ 0 ∧ (∀ m ∈ r.wallets, m.difference = 0) ∧
      r.lastImportStatus = "completed" := by
  have hnone : r.allBlockers = [] := List.isEmpty_iff.1 h
  simp only [allBlockers, List.append_eq_nil_iff, List.flatMap_eq_nil_iff] at hnone
  obtain ⟨⟨⟨⟨⟨⟨⟨-, hnamed⟩, hwallets⟩, -⟩, hstatus⟩, -⟩, -⟩, -⟩ := hnone
  refine ⟨?_, fun m hm => ?_, ?_⟩
  · have hroles := hnamed ("role members", r.roleMembers) (by simp [namedChecks])
    by_contra hpos
    simp [missingBlocker, messageIf, Int.not_le.1 hpos] at hroles
  · have hone := hwallets m hm
    by_contra hne
    simp [MoneyCheck.blockers, messageIf, hne] at hone
  · by_contra hne
    simp [messageIf, hne] at hstatus

end Report

end Sakura
