/-
  The ledger part of the import from v2 (legacyimport/importer.go).

  * `ensureWalletAccounts`: the two ledger accounts of an imported wallet;
  * `importWallet`: the difference to a final balance, `importLegacyLedger`: one old movement;
  * `importBalances`: both loops, in the import's one transaction.
-/
import Sakura.Wallet

namespace Sakura

open Txn

/-- A row of account_ledger_entries. -/
structure LegacyLedger where
  id : Int64
  sourceTransactionID : Option Int64
  reason : String
  actorKind : String
  actorID : String
  amount : Int64
  created : Time

/-- `strings.ToUpper(strings.ReplaceAll(id.String(), "-", ""))` -/
def compactUpper (id : UUID) : String := toUpper (String.ofList (id.text.toList.filter (· ≠ '-')))

section

-- `uuid.NewSHA1(uuid.NameSpaceURL, …)`
variable (deterministicUUID : String → UUID)

def ensureWalletAccounts (accountID : UUID) (currency : String) : Call (UUID × UUID) := do
  ledger .database (.insertAccountOrIgnore
    { id := deterministicUUID ("sakura-v3-migration-clearing:" ++ currency), ownerType := .system
      ownerId := "system", code := "legacy_migration", currency, normalSide := .debit })
  let systemID ← selectOne .database fun v =>
    (v.ledger.accounts.find? (·.key = systemKey "legacy_migration" currency)).map (·.id)
  ledger .database (.insertAccountOrIgnore
    { id := deterministicUUID ("sakura-v3-wallet-ledger:" ++ accountID.text ++ ":" ++ currency)
      ownerType := .account, ownerId := accountID.text, code := "wallet", currency
      normalSide := .credit })
  let walletLedgerID ← selectOne .database fun v =>
    (v.ledger.accounts.find? (·.key = walletKey accountID currency)).map (·.id)
  let walletID := deterministicUUID ("sakura-v3-wallet:" ++ accountID.text ++ ":" ++ currency)
  insertOrIgnore (.wallet accountID currency)
    [.walletId walletID, .wallet accountID currency, .walletLedgerAccount walletLedgerID]
    { wallets := [{ id := walletID, accountId := accountID, ledgerAccountId := walletLedgerID
                    currency, status := .active }] } .database
  pure (systemID, walletLedgerID)

/-- The sum of the movements on a wallet that were imported before. -/
def importedBalance (accountID : UUID) (currency : String) (walletLedgerID : UUID) (v : DB) : Int :=
  ((v.ledger.entries.filter fun e => e.ledgerAccountId = walletLedgerID &&
    v.ledger.transactions.any fun t => t.id = e.transactionId && t.status = .posted &&
      t.referenceType = some "legacy_wallet" && t.referenceId = some accountID.text &&
      t.currency = currency).map LedgerEntry.signed).sum

/-- The two entries of an imported movement, and its posting. -/
def postImported (txnID systemID walletID : UUID) (amount : Int64) (postedAt now : Time) :
    Call Unit := do
  let value := if amount < 0 then -amount else amount
  let systemSide : Side := if amount < 0 then .credit else .debit
  let walletSide : Side := if amount < 0 then .debit else .credit
  insertEntries txnID [⟨systemID, systemSide, value⟩, ⟨walletID, walletSide, value⟩]
  ledger .database (.updateTransaction txnID (fun _ => true)
    (fun t => { t with status := .posted, postedAt := some postedAt }) now)

def importWallet (accountID : UUID) (currency : String) (balance : Int64) (now : Time) :
    Call Unit := do
  let (systemID, walletLedgerID) ← ensureWalletAccounts deterministicUUID accountID currency
  let imported ← selectOne .database fun v =>
    scanInt64 (importedBalance accountID currency walletLedgerID v)
  let delta := balance - imported
  if delta = 0 then pure ()
  else do
    let key := "legacy-wallet:" ++ accountID.text ++ ":" ++ currency ++ ":balance:" ++
      toString balance
    match ← select fun v => v.ledger.transactions.any (·.idempotencyKey = key) with
    | true => pure ()
    | false => do
      let txnID := deterministicUUID ("sakura-v3-" ++ key)
      ledger .database (.insertTransaction
        { id := txnID, transactionNo := "MIG-" ++ compactUpper txnID, idempotencyKey := key
          kind := .adminAdjustment, currency, referenceType := some "legacy_wallet"
          referenceId := some accountID.text, reversalOfId := none
          description := some "v2 final balance import", metadata := []
          actor := "system:legacy-import", createdAt := now } now)
      postImported txnID systemID walletLedgerID delta now now

def importLegacyLedger (accountID : UUID) (currency : String) (entry : LegacyLedger) (now : Time) :
    Call Unit := do
  if entry.amount = 0 then pure ()
  else do
    let (systemID, walletID) ← ensureWalletAccounts deterministicUUID accountID currency
    let key := "legacy-ledger:account_ledger_entries:" ++ toString entry.id
    match ← select fun v => v.ledger.transactions.any (·.idempotencyKey = key) with
    | true => pure ()
    | false => do
      let txnID := deterministicUUID ("sakura-v3-" ++ key)
      let source := match entry.sourceTransactionID with
        | some id => [("legacy_source_transaction_id", toString id)]
        | none => []
      ledger .database (.insertTransaction
        { id := txnID, transactionNo := "MIG-H-" ++ compactUpper txnID, idempotencyKey := key
          kind := .adminAdjustment, currency, referenceType := some "legacy_wallet"
          referenceId := some accountID.text, reversalOfId := none
          description := some entry.reason
          metadata := [("source", "v2"), ("legacy_entry_id", toString entry.id),
            ("legacy_actor", entry.actorKind ++ ":" ++ entry.actorID)] ++ source
          actor := "legacy:" ++ entry.actorKind ++ ":" ++ entry.actorID
          createdAt := stored entry.created } now)
      postImported txnID systemID walletID entry.amount (stored entry.created) now

/-- An imported row with its account and currency in v3. -/
structure Imported (α : Type) where
  accountID : UUID
  currency : String
  row : α

def importEntries (now : Time) : List (Imported LegacyLedger) → Call Unit
  | [] => pure ()
  | e :: es => do
    importLegacyLedger deterministicUUID e.accountID e.currency e.row now
    importEntries now es

/-- A negative balance is left for a manual decision. -/
def importWallets (now : Time) : List (Imported Int64) → Call Unit
  | [] => pure ()
  | w :: ws => do
    (if w.row < 0 then pure ()
      else importWallet deterministicUUID w.accountID w.currency w.row now)
    importWallets now ws

def importBalances (entries : List (Imported LegacyLedger)) (wallets : List (Imported Int64))
    (now : Time) : Call Unit := do
  importEntries deterministicUUID now entries
  importWallets deterministicUUID now wallets
  .publish .legacyImport

end

end Sakura
