/-
  Statements of the platform code.

  An UPDATE or SELECT … FOR UPDATE first finds its row in what the transaction sees, waits for the
  row, and then tests the newest version of that row again; a row inserted meanwhile is not seen.

  * `Event`, `Site`, `Call`: programs over `DB`;
  * `select`, `selectLock`, `updateRow`, `insert`, `insertOrIgnore`, `ledger`: the forms of
    statements.
-/
import Sakura.Schema

namespace Sakura

open Txn

/-- What a commit did.  The days of a grant are those by which the membership is extended. -/
inductive Event where
  | createOrder (order : UUID)
  | callbackReplay (order : UUID)
  | recharge (order transaction : UUID)
  | adjust (transaction : UUID)
  | refund (order refund : UUID)
  | purchase (purchase account : UUID) (days : Int64)
  | grant (account : UUID) (days : Int64)
  /-- The effect of a batch item, with the account and days of a membership_adjust. -/
  | batchItem (item : Nat) (granted : Option (UUID × Int64))
  | itemFailed (item : Nat)
  | batchState (operation : UUID)
  | legacyImport
  deriving DecidableEq

/-- The statements that a run may be restricted at. -/
inductive Site where
  | sql
  /-- The locking read of the row `id` as the account's current membership. -/
  | currentMembership (accountId id : UUID)
  /-- The sums of an order's refunds, read before these amounts are refunded. -/
  | usedRefunds (orderId : UUID) (walletAmount externalAmount : Int64)
  /-- The statement that records the failure of an item. -/
  | failItem (item : Nat)
  deriving DecidableEq

abbrev Call := Prog Site DB Lock Event Err

abbrev Effects (α : Type) := Prog.Outcome DB Lock Err α

variable {α ρ : Type}

/-- The identifiers that a call takes from `uuid.New()`, the numbers it makes, `NOW()` and
`time.Now()`. -/
structure Fresh where
  ledgerAccount : UUID
  systemAccount : UUID
  wallet : UUID
  transaction : UUID
  transactionNo : String
  row : UUID
  rowNo : String
  membership : UUID
  now : Time
  clock : Time

def select (f : DB → α) : Call α := .query .sql f

/-- `QueryRow(…).Scan`, with the error of a missing row. -/
def selectOne (x : Err) (f : DB → Option α) : Call α := do
  .orFail x (← select f)

def exec (f : DB → Effects α) : Call α := .exec .sql f

def exclusive (k : Lock) : Lock × Mode := (k, .exclusive)

/-- The effect of writing the versions `δ`. -/
def writes (locks : Held Lock) (δ : Versions) (a : α) : Effects α :=
  { locks, write := fun db => db.overlay δ, result := .ok a }

/-- `SELECT … WHERE p FOR UPDATE` or `FOR SHARE`, on at most one row. -/
def selectLock (table : Table) (mode : Mode) (rows : DB → List ρ) (key : ρ → UUID) (p : ρ → Bool)
    (site : UUID → Site := fun _ => .sql) : Call (Option ρ) := do
  match ← select fun v => (rows v).find? p with
  | none => pure none
  | some r => .exec (site (key r)) fun v =>
    { locks := [(.row table (key r), mode)]
      result := .ok ((rows v).find? fun r' => key r' = key r && p r') }

/-- `UPDATE … SET … WHERE p` on at most one row; how many rows it changed. -/
def updateRow (table : Table) (rows : DB → List ρ) (key : ρ → UUID) (p : ρ → Bool)
    (set : ρ → Versions) : Call Nat := do
  match ← select fun v => (rows v).find? p with
  | none => pure 0
  | some r => exec fun v =>
    match (rows v).find? fun r' => key r' = key r && p r' with
    | none => { locks := [exclusive (.row table (key r))], result := .ok 0 }
    | some r' => writes [exclusive (.row table (key r))] (set r') 1

/-- `INSERT` of a row with the index entries `keys`. -/
def insertEffects (keys : List IndexKey) (δ : Versions) (x : Err) (v : DB) : Effects Unit :=
  if keys.any v.has then Prog.refuse x
  else writes (keys.map fun k => exclusive (.index k)) δ ()

def insert (keys : List IndexKey) (δ : Versions) (x : Err) : Call Unit :=
  exec (insertEffects keys δ x)

/-- `INSERT … ON CONFLICT(conflict) DO NOTHING` -/
def insertOrIgnore (conflict : IndexKey) (keys : List IndexKey) (δ : Versions) (x : Err) :
    Call Unit :=
  exec fun v => if v.has conflict then { result := .ok () } else insertEffects keys δ x v

/-- The effect on `DB` of a statement on the ledger tables. -/
def ledgerEffects (x : Err) (o : LedgerOutcome) : Effects Unit where
  locks := o.locks.map fun l => (.ledger l.1, l.2)
  write := fun db => { db with ledger := o.write db.ledger }
  result := match o.result with
    | .ok () => .ok ()
    | .error _ => .error x

/-- A statement on the ledger tables; any error of it is reported as `x`. -/
def ledger (x : Err) (d : Dml) : Call Unit := exec fun v => ledgerEffects x (d.run v.ledger)

/-- `Scan` of a NUMERIC sum into an `int64`. -/
def scanInt64 (n : Int) : Option Int64 :=
  if -2 ^ 63 ≤ n ∧ n < 2 ^ 63 then some (Int64.ofInt n) else none

theorem scanInt64_eq {n : Int} {i : Int64} (h : scanInt64 n = some i) : i.toInt = n := by
  unfold scanInt64 at h
  split at h
  · next hn =>
    cases h
    rw [Int64.toInt_ofInt]
    exact Int.bmod_eq_of_le (by simp [Int64.size]; omega) (by simp [Int64.size]; omega)
  · cases h

end Sakura
