/-
  Wallets and the ledger (platform/wallet.go).

  * `ensureWalletTx`, `walletBalanceTx`, `systemLedgerAccountTx`: the accounts of a movement;
  * `postLedgerTx`, `ledgerTransactionTx`: a movement posted once for each idempotency key;
  * `adjustWallet`: an administrator's adjustment.
-/
import Sakura.Sql

namespace Sakura

open Txn

structure LedgerPosting where
  accountId : UUID
  side : Side
  amount : Int64

/-- A posted transaction with its entries and the codes of their accounts. -/
structure LedgerItem where
  transaction : LedgerTransaction
  entries : List (LedgerEntry × String)

def normalizeCurrency (value : String) : String :=
  let value := toUpper (trimSpace value)
  if value = "" then "POINTS" else value

/-- `CASE WHEN status='active' THEN 'active' ELSE 'frozen' END` -/
def walletStatusOf (status : AccountStatus) : WalletStatus :=
  if status = .active then .active else .frozen

/-- The key of an account's wallet in the ledger. -/
def walletKey (accountID : UUID) (currency : String) : OwnerType × String × String × String :=
  (.account, accountID.text, "wallet", currency)

theorem walletKey_inj {i i' : UUID} {c c' : String} (h : walletKey i c = walletKey i' c') :
    i = i' ∧ c = c' := by
  simp only [walletKey, Prod.mk.injEq, true_and] at h
  exact ⟨UUID.text_inj.1 h.1, h.2⟩

/-- The key of a system account in the ledger. -/
def systemKey (code currency : String) : OwnerType × String × String × String :=
  (.system, "system", code, currency)

def ensureWalletTx (fresh : Fresh) (accountID : UUID) (currency : String) : Call Wallet := do
  let accountStatus ← selectOne .notFound fun v =>
    (v.config.accounts.find? (·.id = accountID)).map (·.status)
  ledger .database (.insertAccountOrIgnore
    { id := fresh.ledgerAccount, ownerType := .account, ownerId := accountID.text, code := "wallet"
      currency, normalSide := .credit })
  let ledgerID ← selectOne .database fun v =>
    (v.ledger.accounts.find? (·.key = walletKey accountID currency)).map (·.id)
  insertOrIgnore (.wallet accountID currency)
    [.walletId fresh.wallet, .wallet accountID currency, .walletLedgerAccount ledgerID]
    { wallets := [{ id := fresh.wallet, accountId := accountID, ledgerAccountId := ledgerID
                    currency, status := walletStatusOf accountStatus }] } .database
  let _ ← updateRow .wallets DB.wallets Wallet.id
    (fun w => w.accountId = accountID && w.currency = currency && w.status ≠ .closed)
    fun w => { wallets := [{ w with status := walletStatusOf accountStatus }] }
  .orFail .database (← selectLock .wallets .exclusive DB.wallets Wallet.id
    fun w => w.accountId = accountID && w.currency = currency)

def walletBalanceTx (ledgerAccountID : UUID) : Call Int64 :=
  selectOne .database fun v => scanInt64 (v.ledger.balance ledgerAccountID)

/-- The balance check before a debit. -/
def requireBalance (ledgerAccountID : UUID) (amount : Int64) : Call Unit := do
  let balance ← walletBalanceTx ledgerAccountID
  .check (¬balance < amount) .forbidden

def systemLedgerAccountTx (fresh : Fresh) (code currency : String) : Call UUID := do
  let normalSide := if code = "membership_revenue" then .credit else .debit
  ledger .database (.insertAccountOrIgnore
    { id := fresh.systemAccount, ownerType := .system, ownerId := "system", code, currency
      normalSide })
  selectOne .notFound fun v =>
    (v.ledger.accounts.find? fun a => a.key = systemKey code currency && a.status = .active).map
      (·.id)

def ledgerTransactionTx (id : UUID) : Call LedgerItem := do
  let t ← selectOne .notFound fun v =>
    v.ledger.transactions.find? fun t => t.id = id && t.status = .posted
  let rows ← select fun v => v.ledger.joined id
  pure ⟨t, rows.map fun r => (r.1, r.2.code)⟩

/-- The loop over the postings: the totals with Go's wrapping addition, or nothing if an amount is
not positive. -/
def addPostings (debit credit : Int64) : List LedgerPosting → Option (Int64 × Int64)
  | [] => some (debit, credit)
  | p :: ps =>
    if p.amount ≤ 0 then none
    else if p.side = .debit then addPostings (debit + p.amount) credit ps
    else addPostings debit (credit + p.amount) ps

/-- `INSERT INTO ledger_entries` -/
def insertEntry (id : UUID) (p : LedgerPosting) : Call Unit :=
  if h : 0 < p.amount then ledger .database (.insertEntry ⟨id, p.accountId, p.side, p.amount, h⟩)
  else .fail .database

/-- One entry for each posting. -/
def insertEntries (id : UUID) : List LedgerPosting → Call Unit
  | [] => pure ()
  | p :: ps => do insertEntry id p; insertEntries id ps

def postLedgerTx (fresh : Fresh) (kind : TransactionKind)
    (currency idempotencyKey referenceType referenceID description : String)
    (reversalOf : Option UUID) (metadata : List (String × String)) (actor : Actor)
    (postings : List LedgerPosting) : Call LedgerItem := do
  let idempotencyKey := trimSpace idempotencyKey
  let currency := normalizeCurrency currency
  .check (idempotencyKey ≠ "" ∧ idempotencyKey.utf8ByteSize ≤ 255 ∧ currencyPattern currency ∧
    2 ≤ postings.length) .invalid
  match ← select fun v => v.ledger.transactions.find? (·.idempotencyKey = idempotencyKey) with
  | some existing => ledgerTransactionTx existing.id
  | none =>
    let (debit, credit) ← .orFail .invalid (addPostings 0 0 postings)
    .check (0 < debit ∧ debit = credit) .invalid
    let id := fresh.transaction
    ledger .conflict (.insertTransaction
      { id, transactionNo := fresh.transactionNo, idempotencyKey, kind, currency
        referenceType := nullIfEmpty referenceType, referenceId := nullIfEmpty referenceID
        reversalOfId := reversalOf, description := nullIfEmpty description, metadata
        actor := actor.label, createdAt := stored fresh.now } (stored fresh.now))
    insertEntries id postings
    ledger .database (.updateTransaction id (·.status = .draft)
      (fun t => { t with status := .posted, postedAt := some (stored fresh.now) })
      (stored fresh.now))
    ledgerTransactionTx id

def adjustKey (accountID : UUID) (idempotencyKey : String) : String :=
  "adjust:" ++ accountID.text ++ ":" ++ trimSpace idempotencyKey

def adjustWallet (fresh : Fresh) (accountID : UUID) (amount : Int64)
    (currency reason idempotencyKey : String) (actor : Actor) : Call LedgerItem := do
  .check (amount ≠ 0 ∧ trimSpace reason ≠ "" ∧ reason.utf8ByteSize ≤ 500 ∧
    trimSpace idempotencyKey ≠ "" ∧ idempotencyKey.utf8ByteSize ≤ 160) .invalid
  let currency := normalizeCurrency currency
  let fullKey := adjustKey accountID idempotencyKey
  match ← select fun v => v.ledger.transactions.find? (·.idempotencyKey = fullKey) with
  | some replay => ledgerTransactionTx replay.id
  | none =>
    let wallet ← ensureWalletTx fresh accountID currency
    .check (wallet.status = .active) .forbidden
    let system ← systemLedgerAccountTx fresh "admin_adjustment" currency
    let value := if amount < 0 then -amount else amount
    (if amount < 0 then requireBalance wallet.ledgerAccountId value else pure ())
    let postings := if amount < 0
      then [⟨system, .credit, value⟩, ⟨wallet.ledgerAccountId, .debit, value⟩]
      else [⟨system, .debit, value⟩, ⟨wallet.ledgerAccountId, .credit, value⟩]
    let item ← postLedgerTx fresh .adminAdjustment currency fullKey "account" accountID.text reason
      none [("signed_amount", toString amount)] actor postings
    .publish (.adjust item.transaction.id)
    pure item

end Sakura
