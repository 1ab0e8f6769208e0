/-
  Recharge orders, refunds and membership purchases (platform/commerce.go).

  * `createRechargeOrder`, `confirmRecharge`, `refundRecharge`: the life of an order;
  * `purchaseMembership`: a membership paid from the wallet.
-/
import Sakura.Wallet
import Sakura.Membership

namespace Sakura

open Txn

/-- An order joined with the name of its product. -/
structure RechargeOrder extends RechargeOrderRow where
  productName : String

/-- `recharge_orders o JOIN recharge_products p ON p.id=o.product_id WHERE o.id=…` -/
def scanRechargeOrder (p : RechargeOrderRow → Bool) (v : DB) : Option RechargeOrder := do
  let o ← v.rechargeOrders.find? p
  let product ← v.config.rechargeProducts.find? (·.id = o.productId)
  pure { o with productName := product.name }

def rechargeOrderTx (id : UUID) : Call RechargeOrder :=
  selectOne .notFound (scanRechargeOrder (·.id = id))

def getRechargeOrder (accountID id : UUID) (admin : Bool) : Call RechargeOrder :=
  selectOne .notFound (scanRechargeOrder fun o => o.id = id && (admin || o.accountId = accountID))

def orderKey (accountID : UUID) (idempotencyKey : String) : String :=
  accountID.text ++ ":" ++ trimSpace idempotencyKey

/-- The time to live of a new order: the setting, or 30 minutes if it is out of range. -/
def orderTtl (v : DB) : Int :=
  let ttl := v.config.orderTtlMinutes.getD 30
  if ttl < 5 ∨ 1440 < ttl then 30 else ttl

def createRechargeOrder (fresh : Fresh) (accountID productID : UUID)
    (provider idempotencyKey : String) : Call RechargeOrder := do
  let provider := normalize provider
  .check (providerPattern provider ∧ trimSpace idempotencyKey ≠ "" ∧
    (trimSpace idempotencyKey).utf8ByteSize ≤ 160) .invalid
  let fullKey := orderKey accountID idempotencyKey
  match ← select fun v => v.rechargeOrders.find? (·.idempotencyKey = fullKey) with
  | some existing => rechargeOrderTx existing.id
  | none => do
    let providerConfigured ← select fun v => v.config.paymentWebhooks.contains provider
    .check providerConfigured .notFound
    let product ← .orFail .notFound (← selectLock .rechargeProducts .share
      (·.config.rechargeProducts) RechargeProduct.id fun p => p.id = productID)
    .check product.enabled .notFound
    let accountStatus ← selectOne .forbidden fun v =>
      (v.config.accounts.find? (·.id = accountID)).map (·.status)
    .check (accountStatus = .active) .forbidden
    let ttl ← select orderTtl
    insert [.orderId fresh.row, .orderNo fresh.rowNo, .orderKey fullKey]
      { rechargeOrders := [{ id := fresh.row, orderNo := fresh.rowNo, idempotencyKey := fullKey
                             accountId := accountID, productId := productID, provider
                             priceMinor := product.priceMinor
                             paymentCurrency := product.paymentCurrency
                             grantAmount := product.grantAmount
                             walletCurrency := product.walletCurrency
                             expiresAt := stored (fresh.now + ttl * 60000000000) }] } .conflict
    .publish (.createOrder fresh.row)
    getRechargeOrder accountID fresh.row false

/-! ## Payment -/

def paymentKey (provider externalOrderID : String) : String :=
  "payment:" ++ provider ++ ":" ++ externalOrderID

/-- `status IN ('paid','partially_refunded','refunded')` -/
def OrderStatus.settled (s : OrderStatus) : Bool :=
  s = .paid || s = .partiallyRefunded || s = .refunded

def insertCallbackEvent (e : CallbackEvent) : Call Unit :=
  insert [.callbackEvent e.key] { callbackEvents := [e] } .conflict

/-- `UPDATE recharge_orders SET status='paid',…`: the unique indexes on the external order id and on
the ledger transaction refuse a second order with either. -/
def markPaid (id : UUID) (externalOrderID : String) (amountMinor : Int64) (transactionID : UUID)
    (now : Time) : Call Unit := exec fun v =>
  match v.rechargeOrders.find? (·.id = id) with
  | none => { result := .ok () }
  | some o =>
    if v.rechargeOrders.any fun p => p.id ≠ id && ((p.provider = o.provider &&
        p.externalOrderId = some externalOrderID) || p.ledgerTransactionId = some transactionID)
    then Prog.refuse .database
    else writes [exclusive (.row .rechargeOrders id),
        exclusive (.index (.orderExternal o.provider externalOrderID)),
        exclusive (.index (.orderTransaction transactionID))]
      { rechargeOrders := [{ o with
          status := .paid, externalOrderId := some externalOrderID
          paidAmountMinor := some amountMinor, ledgerTransactionId := some transactionID
          paidAt := some (stored now) }] } ()

def confirmRecharge (fresh : Fresh) (provider eventID orderNo externalOrderID : String)
    (amountMinor : Int64) : Call RechargeOrder := do
  let provider := normalize provider
  let eventID := trimSpace eventID
  let orderNo := trimSpace orderNo
  let externalOrderID := trimSpace externalOrderID
  .check (providerPattern provider ∧ eventID ≠ "" ∧ eventID.utf8ByteSize ≤ 180 ∧ orderNo ≠ "" ∧
    orderNo.utf8ByteSize ≤ 80 ∧ externalOrderID ≠ "" ∧ externalOrderID.utf8ByteSize ≤ 160 ∧
    0 < amountMinor) .invalid
  match ← select fun v => v.callbackEvents.find? (·.key = (provider, eventID)) with
  | some replay => do
    let replayOrder ← rechargeOrderTx replay.orderId
    .check (replayOrder.orderNo = orderNo ∧ replay.externalOrderId = externalOrderID ∧
      replay.amountMinor = amountMinor) .conflict
    pure replayOrder
  | none => do
    let locked ← .orFail .notFound (← selectLock .rechargeOrders .exclusive DB.rechargeOrders
      RechargeOrderRow.id fun o => o.orderNo = orderNo && o.provider = provider)
    let order ← rechargeOrderTx locked.id
    if order.status ≠ .pending then do
      .check (order.status.settled ∧ order.externalOrderId.getD "" = externalOrderID ∧
        order.paidAmountMinor = some amountMinor) .conflict
      insertCallbackEvent { provider, eventId := eventID, orderId := order.id
                            externalOrderId := externalOrderID, amountMinor
                            ledgerTransactionId := order.ledgerTransactionId }
      .publish (.callbackReplay order.id)
      getRechargeOrder order.accountId order.id true
    else do
      .check (¬order.expiresAt < fresh.clock ∧ amountMinor = order.priceMinor) .conflict
      let wallet ← ensureWalletTx fresh order.accountId order.walletCurrency
      let system ← systemLedgerAccountTx fresh "cash_clearing" order.walletCurrency
      let ledger ← postLedgerTx fresh .recharge order.walletCurrency
        (paymentKey provider externalOrderID) "recharge_order" order.id.text "Recharge order paid"
        none [("provider", provider), ("external_order_id", externalOrderID)]
        ⟨"service", "payment:" ++ provider⟩
        [⟨system, .debit, order.grantAmount⟩, ⟨wallet.ledgerAccountId, .credit, order.grantAmount⟩]
      insertCallbackEvent { provider, eventId := eventID, orderId := order.id
                            externalOrderId := externalOrderID, amountMinor
                            ledgerTransactionId := some ledger.transaction.id }
      markPaid order.id externalOrderID amountMinor ledger.transaction.id fresh.now
      .publish (.recharge order.id ledger.transaction.id)
      getRechargeOrder order.accountId order.id true

/-! ## Refunds -/

def refundsOf (v : DB) (orderID : UUID) : List RechargeRefund :=
  v.rechargeRefunds.filter (·.orderId = orderID)

/-- `COALESCE(SUM(wallet_amount),0)` of the refunds of an order. -/
def usedWallet (v : DB) (orderID : UUID) : Int :=
  ((refundsOf v orderID).map (·.walletAmount.toInt)).sum

/-- `COALESCE(SUM(external_amount_minor),0)` of the refunds of an order. -/
def usedExternal (v : DB) (orderID : UUID) : Int :=
  ((refundsOf v orderID).map (·.externalAmountMinor.toInt)).sum

/-- `INSERT INTO recharge_refunds`; its CHECK constraints want positive amounts. -/
def insertRefund (id : UUID) (refundNo : String) (orderID : UUID)
    (walletAmount externalAmount : Int64) (reason : String) (transactionID : UUID)
    (idempotencyKey : String) (actor : Actor) : Call Unit :=
  if h : 0 < walletAmount ∧ 0 < externalAmount then
    insert [.refundId id, .refundNo refundNo, .refundTransaction transactionID,
        .refundKey idempotencyKey]
      { rechargeRefunds := [{ id, refundNo, orderId := orderID, walletAmount
                              walletAmount_pos := h.1, externalAmountMinor := externalAmount
                              externalAmountMinor_pos := h.2, reason
                              ledgerTransactionId := transactionID, idempotencyKey
                              actor := actor.label }] } .conflict
  else .fail .conflict

/-- `UPDATE recharge_orders SET status=… WHERE id=…` -/
def setOrderStatus (id : UUID) (status : OrderStatus) : Call Unit := do
  let _ ← updateRow .rechargeOrders DB.rechargeOrders RechargeOrderRow.id (fun o => o.id = id)
    fun o => { rechargeOrders := [{ o with status }] }

def getRefund (id : UUID) : Call RechargeRefund :=
  selectOne .notFound fun v => v.rechargeRefunds.find? (·.id = id)

def refundKey (orderID : UUID) (idempotencyKey : String) : String :=
  orderID.text ++ ":" ++ trimSpace idempotencyKey

def refundRecharge (fresh : Fresh) (orderID : UUID) (walletAmount externalAmount : Int64)
    (reason idempotencyKey : String) (actor : Actor) : Call RechargeRefund := do
  let reason := trimSpace reason
  .check (0 < walletAmount ∧ 0 < externalAmount ∧ reason ≠ "" ∧ reason.utf8ByteSize ≤ 500 ∧
    trimSpace idempotencyKey ≠ "" ∧ (trimSpace idempotencyKey).utf8ByteSize ≤ 160) .invalid
  let fullKey := refundKey orderID idempotencyKey
  match ← select fun v => v.rechargeRefunds.find? (·.idempotencyKey = fullKey) with
  | some existing => getRefund existing.id
  | none => do
    let locked ← .orFail .notFound (← selectLock .rechargeOrders .exclusive DB.rechargeOrders
      RechargeOrderRow.id fun o => o.id = orderID)
    let order ← rechargeOrderTx locked.id
    .check (order.status = .paid ∨ order.status = .partiallyRefunded) .conflict
    let used ← .query (.usedRefunds orderID walletAmount externalAmount) fun v =>
      (scanInt64 (usedWallet v orderID), scanInt64 (usedExternal v orderID))
    let usedWallet ← .orFail .database used.1
    let usedExternal ← .orFail .database used.2
    .check (¬(order.grantAmount < usedWallet + walletAmount ∨
      order.priceMinor < usedExternal + externalAmount)) .conflict
    .check (walletAmount.toInt * order.priceMinor.toInt =
      externalAmount.toInt * order.grantAmount.toInt) .invalid
    let wallet ← ensureWalletTx fresh order.accountId order.walletCurrency
    requireBalance wallet.ledgerAccountId walletAmount
    let system ← systemLedgerAccountTx fresh "cash_clearing" order.walletCurrency
    let ledger ← postLedgerTx fresh .refund order.walletCurrency ("refund:" ++ fullKey)
      "recharge_order" order.id.text reason order.ledgerTransactionId
      [("external_amount_minor", toString externalAmount)] actor
      [⟨wallet.ledgerAccountId, .debit, walletAmount⟩, ⟨system, .credit, walletAmount⟩]
    insertRefund fresh.row fresh.rowNo order.id walletAmount externalAmount reason
      ledger.transaction.id fullKey actor
    let newStatus := if usedWallet + walletAmount = order.grantAmount ∧
      usedExternal + externalAmount = order.priceMinor then .refunded else .partiallyRefunded
    setOrderStatus order.id newStatus
    .publish (.refund order.id fresh.row)
    getRefund fresh.row

/-! ## Membership purchases -/

structure MembershipPurchase where
  row : MembershipPurchaseRow
  membership : Membership

def purchaseKey (accountID : UUID) (idempotencyKey : String) : String :=
  accountID.text ++ ":" ++ trimSpace idempotencyKey

/-- A product with its plan, both locked `FOR SHARE OF m,p`. -/
def lockMembershipProduct (productID : UUID) : Call MembershipProduct := do
  let product ← .orFail .notFound (← selectLock .membershipProducts .share
    (·.config.membershipProducts) MembershipProduct.id fun m => m.id = productID)
  let _ ← .orFail .notFound (← selectLock .membershipPlans .share (·.config.membershipPlans)
    MembershipPlan.id fun p => p.id = product.planId)
  pure product

def insertPurchase (row : MembershipPurchaseRow) : Call Unit :=
  insert [.purchaseId row.id, .purchaseNo row.purchaseNo,
      .purchaseTransaction row.ledgerTransactionId, .purchaseKey row.idempotencyKey]
    { purchases := [row] } .conflict

def membershipPurchaseTx (id : UUID) : Call MembershipPurchase := do
  let row ← selectOne .notFound fun v => v.purchases.find? (·.id = id)
  let membership ← selectOne .notFound (scanMembership row.membershipId)
  pure ⟨row, membership⟩

def getMembershipPurchase (accountID id : UUID) : Call MembershipPurchase := do
  let item ← membershipPurchaseTx id
  .check (item.row.accountId = accountID) .notFound
  pure item

def purchaseMembership (fresh : Fresh) (accountID productID : UUID) (idempotencyKey : String)
    (actor : Actor) : Call MembershipPurchase := do
  .check (trimSpace idempotencyKey ≠ "" ∧ (trimSpace idempotencyKey).utf8ByteSize ≤ 160) .invalid
  let fullKey := purchaseKey accountID idempotencyKey
  match ← select fun v => v.purchases.find? (·.idempotencyKey = fullKey) with
  | some existing => membershipPurchaseTx existing.id
  | none => do
    let product ← lockMembershipProduct productID
    .check product.enabled .notFound
    let wallet ← ensureWalletTx fresh accountID product.walletCurrency
    .check (wallet.status = .active) .forbidden
    requireBalance wallet.ledgerAccountId product.priceAmount
    let system ← systemLedgerAccountTx fresh "membership_revenue" product.walletCurrency
    let ledger ← postLedgerTx fresh .membershipPurchase product.walletCurrency
      ("membership-purchase:" ++ fullKey) "membership_purchase" fresh.row.text
      "Membership purchase" none [("product_id", product.id.text), ("plan_id", product.planId.text)]
      actor [⟨wallet.ledgerAccountId, .debit, product.priceAmount⟩,
        ⟨system, .credit, product.priceAmount⟩]
    let membership ← assignMembershipTx fresh accountID product.planId fresh.clock
      product.durationDays "wallet_purchase" fresh.row.text actor
    insertPurchase { id := fresh.row, purchaseNo := fresh.rowNo, accountId := accountID
                     productId := product.id, membershipId := membership.id
                     amount := product.priceAmount, amount_pos := product.priceAmount_pos
                     currency := product.walletCurrency
                     ledgerTransactionId := ledger.transaction.id, idempotencyKey := fullKey }
    .publish (.purchase fresh.row accountID membership.days)
    getMembershipPurchase accountID fresh.row

end Sakura
