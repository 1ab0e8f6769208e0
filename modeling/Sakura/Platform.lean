/-
  The calls of the platform, over a fresh v3 database.

  * `Request`, `Request.call`: the calls that move money or membership time;
  * `DB.Initial`: the database before the first of them;
  * `Run`: any number of calls, in any interleaving of their statements;
  * `shop`: a small installation to run schedules on.
-/
import Sakura.Wallet
import Sakura.Commerce
import Sakura.Batch
import Sakura.Txn.System

namespace Sakura

open Txn

/-- The source of a call of `AssignMembership` is the one of its route. -/
inductive Request where
  | createRechargeOrder (fresh : Fresh) (accountID productID : UUID)
      (provider idempotencyKey : String)
  | confirmRecharge (fresh : Fresh) (provider eventID orderNo externalOrderID : String)
      (amountMinor : Int64)
  | refundRecharge (fresh : Fresh) (orderID : UUID) (walletAmount externalAmount : Int64)
      (reason idempotencyKey : String) (actor : Actor)
  | adjustWallet (fresh : Fresh) (accountID : UUID) (amount : Int64)
      (currency reason idempotencyKey : String) (actor : Actor)
  | purchaseMembership (fresh : Fresh) (accountID productID : UUID) (idempotencyKey : String)
      (actor : Actor)
  | assignMembership (fresh : Fresh) (accountID planID : UUID) (startsAt : Time)
      (durationDays : Int64) (sourceRef : String) (actor : Actor)
  | redeemInvitation (fresh : Fresh) (accountID : UUID) (code idempotencyKey : String)
      (actor : Actor)
  | processBatchItem (fresh : Fresh) (operation : BatchOperation) (itemID : Nat) (accountID : UUID)
      (workerID : String)

def Request.call : Request → Call Unit
  | .createRechargeOrder fresh account product provider key =>
    (fun _ => ()) <$> Sakura.createRechargeOrder fresh account product provider key
  | .confirmRecharge fresh provider event order external amount =>
    (fun _ => ()) <$> Sakura.confirmRecharge fresh provider event order external amount
  | .refundRecharge fresh order wallet external reason key actor =>
    (fun _ => ()) <$> Sakura.refundRecharge fresh order wallet external reason key actor
  | .adjustWallet fresh account amount currency reason key actor =>
    (fun _ => ()) <$> Sakura.adjustWallet fresh account amount currency reason key actor
  | .purchaseMembership fresh account product key actor =>
    (fun _ => ()) <$> Sakura.purchaseMembership fresh account product key actor
  | .assignMembership fresh account plan startsAt days ref actor =>
    (fun _ => ()) <$> Sakura.assignMembership fresh account plan startsAt days "admin" ref actor
  | .redeemInvitation fresh account code key actor =>
    (fun _ => ()) <$> Sakura.redeemInvitation fresh account code key actor
  | .processBatchItem fresh operation item account worker =>
    Sakura.processBatchItem fresh operation item account worker

/-- Nothing has been ordered, paid, refunded or bought, and the ledger accounts are those of the
system; accounts may have memberships. -/
structure DB.Initial (db : DB) : Prop where
  transactions : db.ledger.transactions = []
  entries : db.ledger.entries = []
  system : ∀ a ∈ db.ledger.accounts, a.ownerType = .system
  accountIds : UniqueBy LedgerAccount.id db.ledger.accounts
  accountKeys : UniqueBy LedgerAccount.key db.ledger.accounts
  wallets : db.wallets = []
  orders : db.rechargeOrders = []
  callbacks : db.callbackEvents = []
  refunds : db.rechargeRefunds = []
  purchases : db.purchases = []
  membershipIds : UniqueBy AccountMembership.id db.memberships
  currents : UniqueBy AccountMembership.accountId (db.memberships.filter AccountMembership.current)
  plans : ∀ m ∈ db.memberships, ∃ p ∈ db.config.membershipPlans, p.id = m.planId
  stored : ∀ m ∈ db.memberships, stored m.expiresAt = m.expiresAt
  sources : ∀ m ∈ db.memberships, m.source ≠ "wallet_purchase"

/-- The states of the platform while the calls of `ι` run. -/
abbrev Running (ι : Type) := State ι Site DB Lock Event Err Unit

/-- The platform over the database `db`, before the first call. -/
def Running.over (ι : Type) (db : DB) : Running ι := .initial ι Site Lock Event Err Unit db

/-- The runs of the calls `calls` whose statements run only where `allowed`. -/
abbrev RunIf {ι : Type} [DecidableEq ι] (calls : ι → Request) (allowed : Site → DB → Prop) :
    Running ι → Running ι → Prop :=
  ReachableIf (fun i => (calls i).call) allowed

/-- The runs of the calls `calls`. -/
abbrev Run {ι : Type} [DecidableEq ι] (calls : ι → Request) : Running ι → Running ι → Prop :=
  RunIf calls fun _ _ => True

/-! ## A small installation -/

/-- The identifiers and the clock of a call, from the digits of its ledger account, system account,
wallet, transaction, row and membership. -/
def freshOf (account system wallet transaction row membership : Char) (now : Time) : Fresh where
  ledgerAccount := idOf account
  systemAccount := idOf system
  wallet := idOf wallet
  transaction := idOf transaction
  transactionNo := "L" ++ String.singleton transaction
  row := idOf row
  rowNo := "R" ++ String.singleton row
  membership := idOf membership
  now := now
  clock := now

/-- One account, a recharge of 2 points for 2 units of money, a plan of 30 days and a product that
sells it for 2 points. -/
def shop (memberships : List AccountMembership) : DB where
  config :=
    { accounts := [⟨idOf '1', .active⟩], paymentWebhooks := ["stripe"]
      orderTtlMinutes := none, batchChunkSize := none
      rechargeProducts := [{ id := idOf '2', name := "points", priceMinor := 2
                             priceMinor_pos := by decide, paymentCurrency := "CNY"
                             grantAmount := 2, grantAmount_pos := by decide
                             walletCurrency := "POINTS", enabled := true }]
      membershipPlans := [{ id := idOf '3', code := "basic", name := "Basic", durationDays := 30
                            durationDays_range := thirtyDays_range, entitlements := "", enabled := true }]
      membershipProducts := [{ id := idOf '2', code := "month", name := "Month", planId := idOf '3'
                               durationDays := 30, durationDays_range := thirtyDays_range
                               priceAmount := 2, priceAmount_pos := by decide
                               walletCurrency := "POINTS", enabled := true }]
      tags := [], notificationPreferences := [], telegramAccounts := [] }
  ledger := .empty
  wallets := []
  rechargeOrders := []
  callbackEvents := []
  rechargeRefunds := []
  purchases := []
  memberships
  invitations := []
  redemptions := []
  batchOperations := []
  batchItems := []
  tagAssignments := []
  notifications := []

/-- An order of the shop, and its payment. -/
def orderCall : Request :=
  .createRechargeOrder (freshOf '0' '0' '0' '0' '4' '0' 0) (idOf '1') (idOf '2') "stripe" "k"

def payCall : Request :=
  .confirmRecharge (freshOf '5' '6' '7' '8' '0' '0' 1) "stripe" "e1" "R4" "x" 2

theorem shop_initial : (shop []).Initial := by
  constructor <;> simp [shop, Ledger.empty, uniqueBy_nil]

end Sakura
