/-
  The tables of the commerce, membership and batch code (migrations 000002 to 000004).

  A column that no modelled statement reads is left out, and a CHECK constraint is a field of its
  row.

  * `Account` … `AccountNotification`: the rows;
  * `DB`: the tables, `DB.overlay`: what a transaction sees;
  * `IndexKey`, `DB.has`: the entries of the unique indexes;
  * `Lock`: rows and index entries that a transaction may lock.
-/
import Sakura.Ledger.Clients

namespace Sakura

open Txn

/-! ## Rows -/

inductive AccountStatus where
  | pending | active | suspended | banned | deleted
  deriving DecidableEq, Repr

structure Account where
  id : UUID
  status : AccountStatus
  deriving DecidableEq

structure RechargeProduct where
  id : UUID
  name : String
  priceMinor : Int64
  priceMinor_pos : 0 < priceMinor
  paymentCurrency : String
  grantAmount : Int64
  grantAmount_pos : 0 < grantAmount
  walletCurrency : String
  enabled : Bool
  deriving DecidableEq

structure MembershipPlan where
  id : UUID
  code : String
  name : String
  durationDays : Int64
  durationDays_range : 1 ≤ durationDays ∧ durationDays ≤ 3650
  entitlements : String
  enabled : Bool
  deriving DecidableEq

/-- The length of a plan of thirty days is within the bounds. -/
theorem thirtyDays_range : (1 : Int64) ≤ 30 ∧ (30 : Int64) ≤ 3650 := by decide

structure MembershipProduct where
  id : UUID
  code : String
  name : String
  planId : UUID
  durationDays : Int64
  durationDays_range : 1 ≤ durationDays ∧ durationDays ≤ 3650
  priceAmount : Int64
  priceAmount_pos : 0 < priceAmount
  walletCurrency : String
  enabled : Bool
  deriving DecidableEq

structure Wallet where
  id : UUID
  accountId : UUID
  ledgerAccountId : UUID
  currency : String
  status : WalletStatus
  deriving DecidableEq

inductive OrderStatus where
  | pending | paid | partiallyRefunded | refunded | canceled | expired
  deriving DecidableEq, Repr

structure RechargeOrderRow where
  id : UUID
  orderNo : String
  idempotencyKey : String
  accountId : UUID
  productId : UUID
  provider : String
  externalOrderId : Option String := none
  status : OrderStatus := .pending
  priceMinor : Int64
  paymentCurrency : String
  grantAmount : Int64
  walletCurrency : String
  paidAmountMinor : Option Int64 := none
  ledgerTransactionId : Option UUID := none
  expiresAt : Time
  paidAt : Option Time := none
  deriving DecidableEq

structure CallbackEvent where
  provider : String
  eventId : String
  orderId : UUID
  externalOrderId : String
  amountMinor : Int64
  ledgerTransactionId : Option UUID
  deriving DecidableEq

/-- UNIQUE(provider,event_id) -/
def CallbackEvent.key (e : CallbackEvent) : String × String := (e.provider, e.eventId)

structure RechargeRefund where
  id : UUID
  refundNo : String
  orderId : UUID
  walletAmount : Int64
  walletAmount_pos : 0 < walletAmount
  externalAmountMinor : Int64
  externalAmountMinor_pos : 0 < externalAmountMinor
  reason : String
  ledgerTransactionId : UUID
  idempotencyKey : String
  actor : String
  deriving DecidableEq

inductive MembershipStatus where
  | active | grace | expired | canceled
  deriving DecidableEq, Repr

structure AccountMembership where
  id : UUID
  accountId : UUID
  planId : UUID
  status : MembershipStatus
  startsAt : Time
  expiresAt : Time
  source : String
  sourceRef : Option String
  createdBy : String
  deriving DecidableEq

/-- `status IN ('active','grace')` -/
def AccountMembership.current (m : AccountMembership) : Bool :=
  m.status = .active || m.status = .grace

structure MembershipPurchaseRow where
  id : UUID
  purchaseNo : String
  accountId : UUID
  productId : UUID
  membershipId : UUID
  amount : Int64
  amount_pos : 0 < amount
  currency : String
  ledgerTransactionId : UUID
  idempotencyKey : String
  deriving DecidableEq

inductive InvitationKind where
  | registration | renewal
  deriving DecidableEq, Repr

def InvitationKind.text : InvitationKind → String
  | .registration => "registration"
  | .renewal => "renewal"

inductive InvitationStatus where
  | active | used | expired | revoked
  deriving DecidableEq, Repr

/-- The code is kept as its hash; `code` stands for it. -/
structure InvitationCode where
  id : UUID
  code : String
  kind : InvitationKind
  planId : UUID
  maxUses : Int
  usedCount : Int
  status : InvitationStatus
  expiresAt : Option Time
  deriving DecidableEq

structure InvitationRedemption where
  id : UUID
  invitationId : UUID
  accountId : UUID
  membershipId : UUID
  idempotencyKey : String
  deriving DecidableEq

inductive BatchType where
  | tagAdd | tagRemove | membershipAdjust | notification
  deriving DecidableEq, Repr

inductive BatchStatus where
  | pending | running | paused | retry | succeeded | failed | canceled
  deriving DecidableEq, Repr

/-- The values of the payload that the items read: `uuid.Parse` of the ids, `numberInt` of the days,
`fmt.Sprint` of the texts. -/
structure BatchPayload where
  tagId : Option UUID
  planId : Option UUID
  durationDays : Int64
  title : String
  body : String
  channel : String
  eventKey : String
  deriving DecidableEq

structure BatchOperation where
  id : UUID
  operationType : BatchType
  status : BatchStatus
  payload : BatchPayload
  totalCount : Nat
  processedCount : Nat
  succeededCount : Nat
  failedCount : Nat
  attempts : Nat
  leaseOwner : Option String
  leaseExpiresAt : Option Time
  createdAt : Time
  deriving DecidableEq

inductive ItemStatus where
  | pending | running | succeeded | failed | skipped
  deriving DecidableEq, Repr

structure BatchItem where
  id : Nat
  operationId : UUID
  accountId : UUID
  status : ItemStatus
  attempts : Nat
  deriving DecidableEq

/-- A row of account_tag_assignments; `deleted` marks the version that a DELETE leaves. -/
structure TagAssignment where
  accountId : UUID
  tagId : UUID
  assignedBy : String
  deleted : Bool := false
  deriving DecidableEq

def TagAssignment.key (t : TagAssignment) : UUID × UUID := (t.accountId, t.tagId)

structure NotificationPreference where
  accountId : UUID
  eventKey : String
  channel : String
  enabled : Bool
  deriving DecidableEq

structure AccountNotification where
  id : UUID
  accountId : UUID
  batchOperationId : UUID
  title : String
  body : String
  channel : String
  deliveryStatus : String
  eventKey : String
  deriving DecidableEq

/-- UNIQUE(batch_operation_id,account_id,channel) -/
def AccountNotification.key (n : AccountNotification) : UUID × UUID × String :=
  (n.batchOperationId, n.accountId, n.channel)

/-! ## Tables -/

/-- The tables that these programs only read. -/
structure Config where
  accounts : List Account
  /-- The providers with a credential of kind payment_webhook. -/
  paymentWebhooks : List String
  /-- The setting commerce.order_ttl_minutes, if it is an integer. -/
  orderTtlMinutes : Option Int
  /-- The setting batch.chunk_size, if it is an integer. -/
  batchChunkSize : Option Int
  rechargeProducts : List RechargeProduct
  membershipPlans : List MembershipPlan
  membershipProducts : List MembershipProduct
  tags : List UUID
  notificationPreferences : List NotificationPreference
  /-- The accounts with an enabled Telegram identity. -/
  telegramAccounts : List UUID

structure DB where
  config : Config
  ledger : Ledger
  wallets : List Wallet
  rechargeOrders : List RechargeOrderRow
  callbackEvents : List CallbackEvent
  rechargeRefunds : List RechargeRefund
  purchases : List MembershipPurchaseRow
  memberships : List AccountMembership
  invitations : List InvitationCode
  redemptions : List InvitationRedemption
  batchOperations : List BatchOperation
  batchItems : List BatchItem
  tagAssignments : List TagAssignment
  notifications : List AccountNotification

/-- The row versions of a transaction. -/
structure Versions where
  ledger : Ledger := .empty
  wallets : List Wallet := []
  rechargeOrders : List RechargeOrderRow := []
  callbackEvents : List CallbackEvent := []
  rechargeRefunds : List RechargeRefund := []
  purchases : List MembershipPurchaseRow := []
  memberships : List AccountMembership := []
  invitations : List InvitationCode := []
  redemptions : List InvitationRedemption := []
  batchOperations : List BatchOperation := []
  batchItems : List BatchItem := []
  tagAssignments : List TagAssignment := []
  notifications : List AccountNotification := []

/-- The tables under the versions `δ`. -/
def DB.overlay (db : DB) (δ : Versions) : DB where
  config := db.config
  ledger := db.ledger.overlay δ.ledger
  wallets := Txn.overlay Wallet.id db.wallets δ.wallets
  rechargeOrders := Txn.overlay RechargeOrderRow.id db.rechargeOrders δ.rechargeOrders
  callbackEvents := Txn.overlay CallbackEvent.key db.callbackEvents δ.callbackEvents
  rechargeRefunds := Txn.overlay RechargeRefund.id db.rechargeRefunds δ.rechargeRefunds
  purchases := Txn.overlay MembershipPurchaseRow.id db.purchases δ.purchases
  memberships := Txn.overlay AccountMembership.id db.memberships δ.memberships
  invitations := Txn.overlay InvitationCode.id db.invitations δ.invitations
  redemptions := Txn.overlay InvitationRedemption.id db.redemptions δ.redemptions
  batchOperations := Txn.overlay BatchOperation.id db.batchOperations δ.batchOperations
  batchItems := Txn.overlay BatchItem.id db.batchItems δ.batchItems
  tagAssignments := Txn.overlay TagAssignment.key db.tagAssignments δ.tagAssignments
  notifications := Txn.overlay AccountNotification.key db.notifications δ.notifications

/-- The versions `δ` under later versions `δ'` of the same transaction. -/
def Versions.overlay (δ δ' : Versions) : Versions where
  ledger := δ.ledger.overlay δ'.ledger
  wallets := Txn.overlay Wallet.id δ.wallets δ'.wallets
  rechargeOrders := Txn.overlay RechargeOrderRow.id δ.rechargeOrders δ'.rechargeOrders
  callbackEvents := Txn.overlay CallbackEvent.key δ.callbackEvents δ'.callbackEvents
  rechargeRefunds := Txn.overlay RechargeRefund.id δ.rechargeRefunds δ'.rechargeRefunds
  purchases := Txn.overlay MembershipPurchaseRow.id δ.purchases δ'.purchases
  memberships := Txn.overlay AccountMembership.id δ.memberships δ'.memberships
  invitations := Txn.overlay InvitationCode.id δ.invitations δ'.invitations
  redemptions := Txn.overlay InvitationRedemption.id δ.redemptions δ'.redemptions
  batchOperations := Txn.overlay BatchOperation.id δ.batchOperations δ'.batchOperations
  batchItems := Txn.overlay BatchItem.id δ.batchItems δ'.batchItems
  tagAssignments := Txn.overlay TagAssignment.key δ.tagAssignments δ'.tagAssignments
  notifications := Txn.overlay AccountNotification.key δ.notifications δ'.notifications

theorem DB.overlay_overlay (db : DB) (δ δ' : Versions) :
    (db.overlay δ).overlay δ' = db.overlay (δ.overlay δ') := by
  simp [DB.overlay, Versions.overlay, Txn.overlay_assoc, Ledger.overlay_assoc]

@[simp] theorem DB.overlay_none (db : DB) : db.overlay {} = db := by
  simp [DB.overlay]

/-! ## Unique indexes -/

/-- An entry of a unique index. -/
inductive IndexKey where
  | walletId (id : UUID)
  | wallet (accountId : UUID) (currency : String)
  | walletLedgerAccount (id : UUID)
  | orderId (id : UUID)
  | orderNo (no : String)
  | orderKey (key : String)
  | orderExternal (provider externalOrderId : String)
  | orderTransaction (id : UUID)
  | callbackEvent (key : String × String)
  | refundId (id : UUID)
  | refundNo (no : String)
  | refundTransaction (id : UUID)
  | refundKey (key : String)
  | purchaseId (id : UUID)
  | purchaseNo (no : String)
  | purchaseTransaction (id : UUID)
  | purchaseKey (key : String)
  | membershipId (id : UUID)
  /-- account_memberships_one_current_idx -/
  | currentMembership (accountId : UUID)
  | redemptionId (id : UUID)
  | redemption (invitationId accountId : UUID)
  | redemptionKey (key : String)
  | tagAssignment (key : UUID × UUID)
  | notificationId (id : UUID)
  | notification (key : UUID × UUID × String)
  deriving DecidableEq

/-- A row with this index entry exists. -/
def DB.has (db : DB) : IndexKey → Bool
  | .walletId id => db.wallets.any (·.id = id)
  | .wallet a c => db.wallets.any fun w => w.accountId = a && w.currency = c
  | .walletLedgerAccount id => db.wallets.any (·.ledgerAccountId = id)
  | .orderId id => db.rechargeOrders.any (·.id = id)
  | .orderNo no => db.rechargeOrders.any (·.orderNo = no)
  | .orderKey key => db.rechargeOrders.any (·.idempotencyKey = key)
  | .orderExternal p x => db.rechargeOrders.any fun o => o.provider = p && o.externalOrderId = some x
  | .orderTransaction id => db.rechargeOrders.any (·.ledgerTransactionId = some id)
  | .callbackEvent key => db.callbackEvents.any (·.key = key)
  | .refundId id => db.rechargeRefunds.any (·.id = id)
  | .refundNo no => db.rechargeRefunds.any (·.refundNo = no)
  | .refundTransaction id => db.rechargeRefunds.any (·.ledgerTransactionId = id)
  | .refundKey key => db.rechargeRefunds.any (·.idempotencyKey = key)
  | .purchaseId id => db.purchases.any (·.id = id)
  | .purchaseNo no => db.purchases.any (·.purchaseNo = no)
  | .purchaseTransaction id => db.purchases.any (·.ledgerTransactionId = id)
  | .purchaseKey key => db.purchases.any (·.idempotencyKey = key)
  | .membershipId id => db.memberships.any (·.id = id)
  | .currentMembership a => db.memberships.any fun m => m.accountId = a && m.current
  | .redemptionId id => db.redemptions.any (·.id = id)
  | .redemption i a => db.redemptions.any fun r => r.invitationId = i && r.accountId = a
  | .redemptionKey key => db.redemptions.any (·.idempotencyKey = key)
  | .tagAssignment key => db.tagAssignments.any fun t => t.key = key && !t.deleted
  | .notificationId id => db.notifications.any (·.id = id)
  | .notification key => db.notifications.any (·.key = key)

/-! ## Locks -/

inductive Table where
  | rechargeProducts | membershipPlans | membershipProducts | wallets | rechargeOrders
  | memberships | invitations | batchOperations
  deriving DecidableEq

inductive Lock where
  | ledger (l : LedgerLock)
  | row (table : Table) (id : UUID)
  | item (id : Nat)
  | checked (operation : UUID)
  | counted (operation : UUID)
  | tag (key : UUID × UUID)
  | index (k : IndexKey)
  deriving DecidableEq

/-- The ledger tables in `DB`. -/
def DB.store : LedgerStore DB Lock := ⟨DB.ledger, .ledger⟩

end Sakura
