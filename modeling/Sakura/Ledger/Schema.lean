/-
  The ledger tables and their triggers (migration 000004).

  * `LedgerAccount`, `LedgerTransaction`, `LedgerEntry`, `Ledger`: the three tables;
  * `sakuraLedgerEntryGuard`, `sakuraLedgerTransactionGuard`: the trigger functions;
  * `Dml`, `Dml.run`: one row of an INSERT, UPDATE or DELETE on these tables, with the locks it
    takes, its triggers and its unique indexes.

  A statement on several rows runs the trigger of each row after the changes of the rows before it,
  so it is one `Dml` after the other.
-/
import Sakura.Basics
import Sakura.Txn.Table
import Sakura.Txn.Prog

namespace Sakura

open Txn

/-! ## Tables -/

inductive Side where
  | debit | credit
  deriving DecidableEq, Repr

inductive OwnerType where
  | system | account
  deriving DecidableEq, Repr

inductive WalletStatus where
  | active | frozen | closed
  deriving DecidableEq, Repr

inductive TransactionKind where
  | recharge | refund | adminAdjustment | membershipPurchase | batchAdjustment
  deriving DecidableEq, Repr

inductive TransactionStatus where
  | draft | posted
  deriving DecidableEq, Repr

structure LedgerAccount where
  id : UUID
  ownerType : OwnerType
  ownerId : String
  code : String
  currency : String
  normalSide : Side
  status : WalletStatus := .active
  deriving DecidableEq

/-- UNIQUE(owner_type,owner_id,code,currency) -/
def LedgerAccount.key (a : LedgerAccount) : OwnerType × String × String × String :=
  (a.ownerType, a.ownerId, a.code, a.currency)

structure LedgerTransaction where
  id : UUID
  transactionNo : String
  idempotencyKey : String
  kind : TransactionKind
  currency : String
  status : TransactionStatus := .draft
  referenceType : Option String
  referenceId : Option String
  reversalOfId : Option UUID
  description : Option String
  metadata : List (String × String)
  actor : String
  createdAt : Time
  postedAt : Option Time := none
  deriving DecidableEq

/-- CHECK(amount > 0) -/
@[ext] structure LedgerEntry where
  transactionId : UUID
  ledgerAccountId : UUID
  side : Side
  amount : Int64
  amount_pos : 0 < amount

instance : DecidableEq LedgerEntry := fun _ _ => decidable_of_iff _ LedgerEntry.ext_iff.symm

/-- UNIQUE(transaction_id,ledger_account_id,side) -/
def LedgerEntry.key (e : LedgerEntry) : UUID × UUID × Side :=
  (e.transactionId, e.ledgerAccountId, e.side)

structure Ledger where
  accounts : List LedgerAccount
  transactions : List LedgerTransaction
  entries : List LedgerEntry

namespace Ledger

/-- The rows of `L` under the versions of `δ`; entries are only ever added. -/
def overlay (L δ : Ledger) : Ledger where
  accounts := Txn.overlay LedgerAccount.id L.accounts δ.accounts
  transactions := Txn.overlay LedgerTransaction.id L.transactions δ.transactions
  entries := L.entries ++ δ.entries

def empty : Ledger := ⟨[], [], []⟩

@[simp] theorem overlay_empty (L : Ledger) : L.overlay empty = L := by simp [overlay, empty]

theorem overlay_assoc (L δ δ' : Ledger) : (L.overlay δ).overlay δ' = L.overlay (δ.overlay δ') := by
  simp [overlay, Txn.overlay_assoc]

def entriesOf (L : Ledger) (transactionId : UUID) : List LedgerEntry :=
  L.entries.filter (·.transactionId = transactionId)

/-- `SELECT status FROM ledger_transactions WHERE id=…` -/
def statusOf (L : Ledger) (id : UUID) : Option TransactionStatus :=
  (L.transactions.find? (·.id = id)).map (·.status)

end Ledger

/-- `COALESCE(SUM(amount) FILTER(WHERE side=…),0)` -/
def sumOf (side : Side) (es : List LedgerEntry) : Int :=
  ((es.filter (·.side = side)).map (·.amount.toInt)).sum

/-- `CASE WHEN side='credit' THEN amount ELSE -amount END` -/
def LedgerEntry.signed (e : LedgerEntry) : Int :=
  if e.side = .credit then e.amount.toInt else -e.amount.toInt

/-! ## Triggers -/

/-- The row event a trigger runs for. -/
inductive RowOp (ρ : Type) where
  | insert (new : ρ)
  | update (old new : ρ)
  | delete (old : ρ)

inductive LedgerErr where
  | uniqueViolation | foreignKeyViolation
  | raised (message : String)
  deriving DecidableEq, Repr

/-- `sakura_ledger_entry_guard` -/
def sakuraLedgerEntryGuard (L : Ledger) : RowOp LedgerEntry → Except LedgerErr LedgerEntry
  | .insert new =>
    if L.statusOf new.transactionId = some .draft then .ok new
    else .error (.raised "entries can only be added to a draft transaction")
  | _ => .error (.raised "ledger entries are immutable")

/-- `ledger_entries e JOIN ledger_accounts a ON a.id=e.ledger_account_id WHERE e.transaction_id=…` -/
def Ledger.joined (L : Ledger) (transactionId : UUID) : List (LedgerEntry × LedgerAccount) :=
  (L.entriesOf transactionId).flatMap fun e =>
    (L.accounts.filter (·.id = e.ledgerAccountId)).map fun a => (e, a)

/-- The columns that an update of a transaction may not touch. -/
def LedgerTransaction.sameColumns (old new : LedgerTransaction) : Prop :=
  old.id = new.id ∧ old.transactionNo = new.transactionNo ∧
    old.idempotencyKey = new.idempotencyKey ∧ old.kind = new.kind ∧ old.currency = new.currency ∧
    old.referenceType = new.referenceType ∧ old.referenceId = new.referenceId ∧
    old.reversalOfId = new.reversalOfId ∧ old.description = new.description ∧
    old.metadata = new.metadata ∧ old.actor = new.actor

instance (old new : LedgerTransaction) : Decidable (old.sameColumns new) :=
  inferInstanceAs (Decidable (_ ∧ _))

/-- What the guard counts before it posts a transaction of the given currency. -/
def balancedRows (currency : String) (rows : List (LedgerEntry × LedgerAccount)) : Prop :=
  2 ≤ rows.length ∧ 0 < sumOf .debit (rows.map (·.1)) ∧
    sumOf .debit (rows.map (·.1)) = sumOf .credit (rows.map (·.1)) ∧
    ∀ r ∈ rows, r.2.currency = currency

instance (currency : String) (rows : List (LedgerEntry × LedgerAccount)) :
    Decidable (balancedRows currency rows) :=
  inferInstanceAs (Decidable (_ ∧ _))

/-- `sakura_ledger_transaction_guard`; `now` is `NOW()`.  The totals are BIGINT variables and the
counts INTEGER variables: larger values are errors. -/
def sakuraLedgerTransactionGuard (L : Ledger) (now : Time) :
    RowOp LedgerTransaction → Except LedgerErr LedgerTransaction
  | .insert new =>
    if new.status ≠ .draft ∨ new.postedAt ≠ none then
      .error (.raised "ledger transactions must be created as drafts")
    else .ok new
  | .delete _ => .error (.raised "ledger transactions are immutable")
  | .update old new =>
    if old.status = .draft ∧ new.status = .posted ∧ old.sameColumns new then
      let rows := L.joined new.id
      if 2 ^ 31 ≤ rows.length then .error (.raised "integer out of range")
      else if 2 ^ 63 ≤ sumOf .debit (rows.map (·.1)) ∨ 2 ^ 63 ≤ sumOf .credit (rows.map (·.1)) then
        .error (.raised "bigint out of range")
      else if ¬balancedRows new.currency rows then
        .error (.raised "ledger transaction is not balanced")
      else .ok { new with postedAt := new.postedAt.or (some now) }
    else .error (.raised "ledger transactions are immutable after creation")

/-! ## Statements -/

/-- What a statement on the ledger may lock: a row, or an entry of a unique index. -/
inductive LedgerLock where
  | account (id : UUID)
  | accountId (id : UUID)
  | accountKey (key : OwnerType × String × String × String)
  | transaction (id : UUID)
  | transactionId (id : UUID)
  | transactionNo (no : String)
  | idempotencyKey (key : String)
  | entryKey (key : UUID × UUID × Side)
  deriving DecidableEq

abbrev LedgerOutcome := Prog.Outcome Ledger LedgerLock LedgerErr Unit

/-- One row of a statement on the ledger tables. -/
inductive Dml where
  | insertAccount (a : LedgerAccount)
  /-- `ON CONFLICT(owner_type,owner_id,code,currency) DO NOTHING` -/
  | insertAccountOrIgnore (a : LedgerAccount)
  | updateAccount (id : UUID) (set : LedgerAccount → LedgerAccount)
  | insertTransaction (t : LedgerTransaction) (now : Time)
  | updateTransaction (id : UUID) (which : LedgerTransaction → Bool)
      (set : LedgerTransaction → LedgerTransaction) (now : Time)
  | deleteTransaction (id : UUID) (which : LedgerTransaction → Bool)
  | insertEntry (e : LedgerEntry)
  | updateEntry (which : LedgerEntry → Bool) (set : LedgerEntry → LedgerEntry)
  | deleteEntry (which : LedgerEntry → Bool)

namespace Ledger

variable (L : Ledger)

def writeAccount (a : LedgerAccount) : Ledger := L.overlay ⟨[a], [], []⟩

def writeTransaction (t : LedgerTransaction) : Ledger := L.overlay ⟨[], [t], []⟩

def addEntry (e : LedgerEntry) : Ledger := L.overlay ⟨[], [], [e]⟩

def insertAccount (a : LedgerAccount) : LedgerOutcome :=
  if L.accounts.any fun b => b.id = a.id || b.key = a.key then Prog.refuse .uniqueViolation
  else
    { locks := [(.accountId a.id, .exclusive), (.accountKey a.key, .exclusive)]
      write := fun L => L.writeAccount a
      result := .ok () }

def insertAccountOrIgnore (a : LedgerAccount) : LedgerOutcome :=
  if L.accounts.any fun b => b.key = a.key then { result := .ok () } else L.insertAccount a

/-- The currency of an account, like its id, is never updated. -/
def updateAccount (id : UUID) (set : LedgerAccount → LedgerAccount) : LedgerOutcome :=
  match L.accounts.find? (·.id = id) with
  | none => { result := .ok () }
  | some old =>
    let new := { set old with id := old.id, currency := old.currency }
    if L.accounts.any fun b => b.id ≠ id && b.key = new.key then Prog.refuse .uniqueViolation
    else
      { locks := [(.account id, .exclusive), (.accountKey new.key, .exclusive)]
        write := fun L => L.writeAccount new
        result := .ok () }

def insertTransaction (t : LedgerTransaction) (now : Time) : LedgerOutcome :=
  match sakuraLedgerTransactionGuard L now (.insert t) with
  | .error x => Prog.refuse x
  | .ok t =>
    if L.transactions.any fun u =>
        u.id = t.id || u.transactionNo = t.transactionNo || u.idempotencyKey = t.idempotencyKey
    then Prog.refuse .uniqueViolation
    else
      { locks := [(.transactionId t.id, .exclusive), (.transactionNo t.transactionNo, .exclusive),
          (.idempotencyKey t.idempotencyKey, .exclusive)]
        write := fun L => L.writeTransaction t
        result := .ok () }

def updateTransaction (id : UUID) (which : LedgerTransaction → Bool)
    (set : LedgerTransaction → LedgerTransaction) (now : Time) : LedgerOutcome :=
  match L.transactions.find? (fun t => t.id = id && which t) with
  | none => { result := .ok () }
  | some old =>
    match sakuraLedgerTransactionGuard L now (.update old (set old)) with
    | .error x => Prog.refuse x
    | .ok new =>
      { locks := [(.transaction id, .exclusive)]
        write := fun L => L.writeTransaction new
        result := .ok () }

def deleteTransaction (id : UUID) (which : LedgerTransaction → Bool) : LedgerOutcome :=
  match L.transactions.find? (fun t => t.id = id && which t) with
  | none => { result := .ok () }
  | some old =>
    match sakuraLedgerTransactionGuard L 0 (.delete old) with
    | .error x => Prog.refuse x
    | .ok _ => { result := .ok () }

def insertEntry (e : LedgerEntry) : LedgerOutcome :=
  match sakuraLedgerEntryGuard L (.insert e) with
  | .error x => Prog.refuse x
  | .ok e =>
    if L.accounts.all fun a => a.id ≠ e.ledgerAccountId then Prog.refuse .foreignKeyViolation
    else if L.entries.any fun f => f.key = e.key then Prog.refuse .uniqueViolation
    else
      { locks := [(.transaction e.transactionId, .share), (.entryKey e.key, .exclusive)]
        write := fun L => L.addEntry e
        result := .ok () }

/-- An UPDATE or DELETE of entries: the guard refuses the first row it meets. -/
def changeEntries (which : LedgerEntry → Bool) (op : LedgerEntry → RowOp LedgerEntry) :
    LedgerOutcome :=
  match L.entries.find? which with
  | none => { result := .ok () }
  | some e =>
    match sakuraLedgerEntryGuard L (op e) with
    | .error x => Prog.refuse x
    | .ok _ => { result := .ok () }

/-! ### Statements that are not refused -/

variable {L}

theorem insertAccount_ok {a : LedgerAccount} (h : (L.insertAccount a).result = .ok ()) :
    (∀ b ∈ L.accounts, b.id ≠ a.id ∧ b.key ≠ a.key) ∧ L.insertAccount a =
      { locks := [(.accountId a.id, .exclusive), (.accountKey a.key, .exclusive)]
        write := fun L => L.writeAccount a
        result := .ok () } := by
  unfold insertAccount at h ⊢
  split at h
  · cases h
  · next hno =>
    exact ⟨by simpa [not_or] using hno, if_neg hno⟩

theorem insertTransaction_ok {t : LedgerTransaction} {now : Time}
    (h : (L.insertTransaction t now).result = .ok ()) :
    (∀ u ∈ L.transactions, u.id ≠ t.id ∧ u.idempotencyKey ≠ t.idempotencyKey) ∧
      L.insertTransaction t now =
        { locks := [(.transactionId t.id, .exclusive), (.transactionNo t.transactionNo, .exclusive),
            (.idempotencyKey t.idempotencyKey, .exclusive)]
          write := fun L => L.writeTransaction t
          result := .ok () } := by
  unfold insertTransaction sakuraLedgerTransactionGuard at h ⊢
  by_cases hd : t.status ≠ .draft ∨ t.postedAt ≠ none
  · simp only [if_pos hd] at h; cases h
  · simp only [if_neg hd] at h ⊢
    split at h
    · cases h
    · next hno =>
      refine ⟨fun u hu => ?_, if_neg hno⟩
      simp only [Bool.not_eq_true, List.any_eq_false, Bool.or_eq_true, decide_eq_true_eq,
        not_or] at hno
      exact ⟨(hno u hu).1.1, (hno u hu).2⟩

theorem updateTransaction_ok {id : UUID} {which : LedgerTransaction → Bool}
    {set : LedgerTransaction → LedgerTransaction} {now : Time} {old : LedgerTransaction}
    (hf : L.transactions.find? (fun t => t.id = id && which t) = some old)
    (h : (L.updateTransaction id which set now).result = .ok ()) :
    ∃ new, sakuraLedgerTransactionGuard L now (.update old (set old)) = .ok new ∧
      L.updateTransaction id which set now =
        { locks := [(.transaction id, .exclusive)]
          write := fun L => L.writeTransaction new
          result := .ok () } := by
  unfold updateTransaction at h ⊢
  simp only [hf] at h ⊢
  cases hg : sakuraLedgerTransactionGuard L now (.update old (set old)) with
  | error x => simp [hg, Prog.refuse] at h
  | ok new => exact ⟨new, rfl, rfl⟩

theorem insertEntry_ok {e : LedgerEntry} (h : (L.insertEntry e).result = .ok ()) :
    L.insertEntry e =
      { locks := [(.transaction e.transactionId, .share), (.entryKey e.key, .exclusive)]
        write := fun L => L.addEntry e
        result := .ok () } := by
  unfold insertEntry sakuraLedgerEntryGuard at h ⊢
  by_cases hd : L.statusOf e.transactionId = some .draft
  · simp only [if_pos hd] at h ⊢
    split at h
    · cases h
    · next hown =>
      rw [if_neg hown]
      split at h
      · cases h
      · next hno => rw [if_neg hno]
  · simp only [if_neg hd] at h; cases h

end Ledger

def Dml.run (L : Ledger) : Dml → LedgerOutcome
  | .insertAccount a => L.insertAccount a
  | .insertAccountOrIgnore a => L.insertAccountOrIgnore a
  | .updateAccount id set => L.updateAccount id set
  | .insertTransaction t now => L.insertTransaction t now
  | .updateTransaction id which set now => L.updateTransaction id which set now
  | .deleteTransaction id which => L.deleteTransaction id which
  | .insertEntry e => L.insertEntry e
  | .updateEntry which set => L.changeEntries which fun e => .update e (set e)
  | .deleteEntry which => L.changeEntries which .delete

end Sakura
