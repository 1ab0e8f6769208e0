/-
  Orders, refunds and purchases (platform/commerce.go), under interference.

  * `createRechargeOrder_runs`, `confirmRecharge_runs`, `refundRecharge_runs`,
    `purchaseMembership_runs`: each keeps to the discipline, and where it fails it has committed
    nothing.
-/
import Sakura.Proof.Membership

namespace Sakura

open Txn

variable {G : Scope} {α β : Type} {L M : Held Lock} {db : DB} {c c' : Moment} {δ : Versions}
  {A : List LedgerAccount} {W : List Wallet} {t : LedgerTransaction} {es : List LedgerEntry}

/-! ## Rows -/

theorem overlay_order (o : RechargeOrderRow) :
    (db.overlay δ).overlay { rechargeOrders := [o] } =
      db.overlay { δ with rechargeOrders := put RechargeOrderRow.id δ.rechargeOrders o } := by
  simp [DB.overlay_overlay, Versions.overlay, put]

theorem overlay_callbackEvent (e : CallbackEvent) :
    (db.overlay δ).overlay { callbackEvents := [e] } =
      db.overlay { δ with callbackEvents := put CallbackEvent.key δ.callbackEvents e } := by
  simp [DB.overlay_overlay, Versions.overlay, put]

theorem overlay_refund (r : RechargeRefund) :
    (db.overlay δ).overlay { rechargeRefunds := [r] } =
      db.overlay { δ with rechargeRefunds := put RechargeRefund.id δ.rechargeRefunds r } := by
  simp [DB.overlay_overlay, Versions.overlay, put]

theorem overlay_purchase (p : MembershipPurchaseRow) :
    (db.overlay δ).overlay { purchases := [p] } =
      db.overlay { δ with purchases := put MembershipPurchaseRow.id δ.purchases p } := by
  simp [DB.overlay_overlay, Versions.overlay, put]

theorem Respects.newOrder (h : Respects L db δ) {o : RechargeOrderRow}
    (hf : ∀ o' ∈ db.rechargeOrders, o'.id ≠ o.id) (hl : Holds L (.index (.orderId o.id))) :
    Respects L db { δ with rechargeOrders := [o] } :=
  { h with
    orders := ⟨uniqueBy_singleton, List.forall_mem_singleton.2 (Or.inr ⟨hf, hl⟩)⟩ }

theorem Respects.updateOrder (h : Respects L db δ) {o o' : RechargeOrderRow}
    (ho : o ∈ db.rechargeOrders) (hl : Holds L (.row .rechargeOrders o.id)) (hid : o'.id = o.id)
    (hs : sameOrder o o') : Respects L db { δ with rechargeOrders := [o'] } :=
  { h with
    orders := ⟨uniqueBy_singleton, List.forall_mem_singleton.2
      (Or.inl ⟨o, ho, hid.symm, hs, hid ▸ hl⟩)⟩ }

theorem Respects.newRefund (h : Respects L db δ) {r : RechargeRefund}
    (hf : ∀ r' ∈ db.rechargeRefunds, r'.id ≠ r.id) (hl : Holds L (.index (.refundId r.id)))
    (ho : Holds L (.row .rechargeOrders r.orderId)) :
    Respects L db { δ with rechargeRefunds := [r] } :=
  { h with
    refunds := ⟨uniqueBy_singleton, List.forall_mem_singleton.2 (Or.inr ⟨hf, hl⟩)⟩
    refundOrders := List.forall_mem_singleton.2 ho }

theorem Respects.newPurchase (h : Respects L db δ) {p : MembershipPurchaseRow}
    (hf : ∀ q ∈ db.purchases, q.id ≠ p.id) (hl : Holds L (.index (.purchaseId p.id)))
    (hk : ∀ q ∈ db.purchases, q.idempotencyKey ≠ p.idempotencyKey)
    (hl' : Holds L (.index (.purchaseKey p.idempotencyKey))) :
    Respects L db { δ with purchases := [p] } :=
  { h with
    purchases := ⟨uniqueBy_singleton, List.forall_mem_singleton.2 (Or.inr ⟨hf, hl⟩)⟩
    purchaseKeys := ⟨uniqueBy_singleton, List.forall_mem_singleton.2 (Or.inr ⟨hk, hl'⟩)⟩ }

/-! ## What stays true of an order -/

theorem Later.order (hl : Later G c c') {o : RechargeOrderRow} (ho : o ∈ c.db.rechargeOrders)
    (hk : Holds c.held (.row .rechargeOrders o.id)) : o ∈ c'.db.rechargeOrders :=
  hl.keep (P := fun db => o ∈ db.rechargeOrders)
    (fun _ _ hc hr h => hr.orders.mem_overlay h (hk.not_holds hc)) ho

theorem Later.refunds (hl : Later G c c') {id : UUID} (hk : Holds c.held (.row .rechargeOrders id)) :
    refundsOf c'.db id = refundsOf c.db id :=
  hl.keep (P := fun db => refundsOf db id = refundsOf c.db id)
    (fun _ _ hc hr h => (hr.refunds_held hc hk).trans h) rfl

theorem Later.transaction (hl : Later G c c') (ht : t ∈ c.db.ledger.transactions) :
    t ∈ c'.db.ledger.transactions :=
  hl.keep (P := fun db => t ∈ db.ledger.transactions) (fun _ _ _ hr h => hr.mem_transactions h) ht

/-- A committed order keeps its id and its account. -/
def HasOrder (id accountID : UUID) (db : DB) : Prop :=
  ∃ o ∈ db.rechargeOrders, o.id = id ∧ o.accountId = accountID

theorem HasOrder.overlay {id accountID : UUID} (hi : Inv G db) (hr : Respects M db δ)
    (h : HasOrder id accountID db) : HasOrder id accountID (db.overlay δ) := by
  obtain ⟨o, ho, hid, hacc⟩ := h
  obtain ⟨o', ho', hid', hs⟩ := hr.order_version hi.wellFormed ho
  exact ⟨o', ho', hid'.trans hid, hs.1.trans hacc⟩

theorem scanRechargeOrder_some {p : RechargeOrderRow → Bool} {v : DB} {order : RechargeOrder}
    (h : scanRechargeOrder p v = some order) :
    order.toRechargeOrderRow ∈ v.rechargeOrders ∧ p order.toRechargeOrderRow := by
  simp only [scanRechargeOrder, Option.bind_eq_bind, Option.bind_eq_some_iff] at h
  obtain ⟨o, ho, product, -, h⟩ := h
  cases h
  exact ⟨List.mem_of_find?_eq_some ho, List.find?_some ho⟩

theorem scanRechargeOrder_isSome (hi : Inv G db) {p : RechargeOrderRow → Bool}
    (h : ∃ o ∈ db.rechargeOrders, p o) : (scanRechargeOrder p db).isSome := by
  obtain ⟨o, ho, hp⟩ := h
  cases hf : db.rechargeOrders.find? p with
  | none => exact absurd hp (List.find?_eq_none.1 hf o ho)
  | some o' =>
    obtain ⟨q, hq, hid⟩ := (hi.orders o' (List.mem_of_find?_eq_some hf)).product
    cases hf' : db.config.rechargeProducts.find? (·.id = o'.productId) with
    | none => exact absurd hid (by simpa using List.find?_eq_none.1 hf' q hq)
    | some product => simp [scanRechargeOrder, hf, hf']

/-- After its commit a call finds its order again. -/
theorem getRechargeOrder_runs {id accountID : UUID} {admin : Bool} {done : List Event}
    (h₀ : HasOrder id accountID db) :
    Runs G (getRechargeOrder accountID id admin) (fun _ _ => True) { db := db, done := done } := by
  refine reread (P := HasOrder id accountID) (fun hi _ hr h => h.overlay hi hr) h₀ ?_
    fun _ _ _ _ _ => trivial
  rintro db' hi ⟨o, ho, hid, hacc⟩
  exact scanRechargeOrder_isSome hi ⟨o, ho, by simp [hid, hacc]⟩

/-! ## New orders -/

theorem refundsOf_new (h : Inv G db) {id : UUID} (hf : ∀ o ∈ db.rechargeOrders, o.id ≠ id) :
    refundsOf db id = [] := by
  refine List.filter_eq_nil_iff.2 fun r hr e => ?_
  obtain ⟨o, ho, hid⟩ := h.refundOrders r hr
  exact hf o ho (hid.trans (of_decide_eq_true e))

theorem RefundsOk.new {o : RechargeOrderRow} (hno : refundsOf db o.id = [])
    (hs : o.status = .pending) (hp : 0 < o.priceMinor.toInt) (hg : 0 < o.grantAmount.toInt) :
    RefundsOk db o := by
  have hw : usedWallet db o.id = 0 := by simp [usedWallet, hno]
  have hx : usedExternal db o.id = 0 := by simp [usedExternal, hno]
  refine ⟨by omega, by omega, by rw [hw, hx]; omega, ?_, ?_⟩
  · rw [hs, hw]; exact ⟨nofun, fun h => by omega⟩
  · rw [hs, hno]; exact ⟨nofun, fun h => absurd rfl h.1⟩

theorem createRechargeOrder_runs (h : Inv G db) {fresh : Fresh} {accountID productID : UUID}
    {provider key : String} :
    Runs G (createRechargeOrder fresh accountID productID provider key) (fun _ _ => True)
      { db := db } := by
  have h₀ := At.start h
  unfold createRechargeOrder
  refine h₀.check_bind fun _ => h₀.select_bind fun c₁ h₁ _ => ?_
  split
  · exact h₁.selectOne_runs fun _ _ _ _ _ => trivial
  refine h₁.select_bind fun c₂ h₂ _ => h₂.check_bind fun _ => ?_
  refine h₂.selectLock_orFail_bind fun c₃ product h₃ _ hproduct hpid _ => ?_
  refine h₃.check_bind fun _ => h₃.selectOne_bind fun c₄ h₄ l₄ _ _ => ?_
  refine h₄.check_bind fun _ => h₄.select_bind fun c₅ h₅ l₅ => ?_
  have hproduct : product ∈ c₅.db.config.rechargeProducts := by
    rw [(l₄.trans l₅).config]; exact hproduct
  generalize orderTtl (c₅.db.overlay {}) = ttl
  refine h₅.insert_bind fun c₆ h₆ l₆ hno c₇ hc₇ l₇ hk => ?_
  simp only [List.forall_mem_cons, DB.has, List.any_eq_false, decide_eq_true_eq] at hno hk
  have hfresh : ∀ o ∈ c₆.db.rechargeOrders, o.id ≠ fresh.row :=
    fun o ho => hno.1 o (mem_overlay_left (fun _ h => absurd h List.not_mem_nil) ho)
  have hproduct := l₇.config ▸ hproduct
  generalize ho : (RechargeOrderRow.mk _ _ _ _ _ _ _ _ _ _ _ _ _ _ _ _) = o at hc₇
  have hid : o.id = fresh.row := by rw [← ho]
  have h₇ : At G c₇ { rechargeOrders := [o] } := by
    subst hc₇
    refine h₆.apply (fun _ => overlay_order _) ?_ (h₆.links.of_eq rfl rfl)
    exact (h₆.respects.mono (List.subset_append_left _ _)).newOrder (hid ▸ hfresh) (hid ▸ hk.1)
  have hfresh : ∀ o ∈ c₇.db.rechargeOrders, o.id ≠ fresh.row := by subst hc₇; exact hfresh
  refine h₇.publish_bind fun c₈ h₈ l₈ => ?_
  have hfresh : ∀ o ∈ c₈.db.rechargeOrders, o.id ≠ fresh.row :=
    l₈.keep (P := fun db => ∀ o ∈ db.rechargeOrders, o.id ≠ fresh.row)
      (fun _ _ hc hr h => hr.orders.fresh_overlay h (Holds.not_holds hk.1 hc)) hfresh
  have hprice : 0 < o.priceMinor.toInt := by
    rw [← ho]; simpa using Int64.lt_iff_toInt_lt.1 product.priceMinor_pos
  have hgrant : 0 < o.grantAmount.toInt := by
    rw [← ho]; simpa using Int64.lt_iff_toInt_lt.1 product.grantAmount_pos
  have hpending : o.status = .pending := by rw [← ho]
  refine ⟨?_, .none (fun _ => rfl) rfl, fun _ => getRechargeOrder_runs ?_⟩
  · refine { links := h₈.links, solvent := h₈.solvent rfl, grants := h₈.grants rfl
             orders := ?_, settled := ?_, refunds := ?_ }
    · refine List.forall_mem_singleton.2 ⟨⟨product, ?_, ?_⟩, hprice, hgrant, fun hs => ?_⟩
      · exact l₈.config ▸ hproduct
      · rw [← ho]; simpa using hpid
      · rw [hpending] at hs; cases hs
    · exact List.forall_mem_singleton.2 fun o₀ h₀ e => absurd (e.trans hid) (hfresh o₀ h₀)
    · rintro x - - (hx | ⟨r, hr, -⟩)
      · cases List.mem_singleton.1 hx
        refine RefundsOk.new ?_ hpending hprice hgrant
        rw [h₈.respects.refundsOf_overlay, hid, refundsOf_new h₈.inv hfresh]; rfl
      · cases hr
  · exact ⟨o, mem_overlay_right (List.mem_singleton.2 rfl), hid, by rw [← ho]⟩

/-! ## Payment -/

/-- The order that a call has locked is the one it goes on with. -/
theorem rechargeOrderTx_runs (h : At G c {}) {locked : RechargeOrderRow}
    (hmem : locked ∈ c.db.rechargeOrders) (hl : Holds c.held (.row .rechargeOrders locked.id))
    {Q : RechargeOrder → Moment → Prop}
    (hQ : ∀ c' order, At G c' {} → Later G c c' → order.toRechargeOrderRow = locked → Q order c') :
    Runs G (rechargeOrderTx locked.id) Q c := by
  refine h.selectOne_runs fun c₁ h₁ l₁ order horder => ?_
  rw [DB.overlay_none] at horder
  obtain ⟨ho, hid⟩ := scanRechargeOrder_some horder
  exact hQ c₁ order h₁ l₁
    (h₁.inv.wellFormed.orderIds.eq ho (l₁.order hmem hl) (of_decide_eq_true hid))

theorem insertCallbackEvent_runs (h : At G c δ) {e : CallbackEvent} {Q : Unit → Moment → Prop}
    (hQ : ∀ c' E, At G c' { δ with callbackEvents := E } → Later G c c' → Q () c') :
    Runs G (insertCallbackEvent e) Q c := by
  refine wp_bind.1 (h.insert_bind (k := pure) fun c₁ h₁ _ _ c₂ hc₂ l₂ _ => ?_)
  subst hc₂
  exact hQ _ _ (h₁.untracked (fun _ => overlay_callbackEvent _) ⟨rfl, rfl, rfl, rfl, rfl, rfl⟩) l₂

/-- `o` after its payment. -/
def RechargeOrderRow.payment (o : RechargeOrderRow) (externalOrderID : String) (amountMinor : Int64)
    (transactionID : UUID) (now : Time) : RechargeOrderRow :=
  { o with
    status := .paid, externalOrderId := some externalOrderID, paidAmountMinor := some amountMinor
    ledgerTransactionId := some transactionID, paidAt := some (stored now) }

/-- The order is marked, unless another order has the same ledger transaction. -/
theorem markPaid_runs (h : At G c δ) (hδ : δ.rechargeOrders = []) {o : RechargeOrderRow}
    (ho : o ∈ c.db.rechargeOrders) (hl : Holds c.held (.row .rechargeOrders o.id))
    {externalOrderID : String} {amountMinor : Int64} {transactionID : UUID} {now : Time}
    {Q : Unit → Moment → Prop}
    (hQ : ∀ c' c₁, At G c₁ δ → Later G c c₁ → Later G c c' →
      (∀ p ∈ c₁.db.rechargeOrders, p.id ≠ o.id → p.ledgerTransactionId ≠ some transactionID) →
      At G c' { δ with
        rechargeOrders := [o.payment externalOrderID amountMinor transactionID now] } → Q () c') :
    Runs G (markPaid o.id externalOrderID amountMinor transactionID now) Q c := by
  refine wp_bind.1 (h.exec_bind (k := pure) fun c₁ h₁ l₁ _ a ha => ?_)
  have ho := l₁.order ho hl
  have hview : (c₁.db.overlay δ).rechargeOrders = c₁.db.rechargeOrders := by
    show Txn.overlay _ _ _ = _
    rw [hδ, overlay_nil]
  have hf : c₁.db.rechargeOrders.find? (·.id = o.id) = some o :=
    h₁.inv.wellFormed.orderIds.find?_eq ho
  simp only [hview, hf] at ha ⊢
  split at ha
  · cases ha
  · next hno =>
    rw [if_neg hno]
    simp only [Bool.not_eq_true, List.any_eq_false, Bool.and_eq_true, Bool.or_eq_true,
      decide_eq_true_eq, not_and, not_or] at hno
    refine hQ _ c₁ h₁ l₁ (l₁.trans .apply) (fun p hp hid => (hno p hp hid).2) ?_
    have hover : ∀ (db : DB) (o' : RechargeOrderRow), (db.overlay δ).overlay { rechargeOrders := [o'] } =
        db.overlay { δ with rechargeOrders := [o'] } := fun db o' => by
      rw [overlay_order, hδ, put_nil]
    refine h₁.apply (fun db => hover db _) ?_ (h₁.links.of_eq rfl rfl)
    exact (h₁.respects.mono (List.subset_append_left _ _)).updateOrder ho
      (List.mem_append_left _ (l₁.held hl)) rfl ⟨rfl, rfl, rfl, rfl, rfl, rfl⟩

/-- A key of a committed transaction tells its kind. -/
theorem Inv.kind_of_key (h : Inv G db) (ht : t ∈ db.ledger.transactions) {k : TransactionKind}
    (hk : t.idempotencyKey.toList.head? = some k.initial) : t.kind = k :=
  TransactionKind.initial_inj (Option.some.inj ((h.keys t ht).symm.trans hk))

theorem RefundsOk.payment {db' : DB} {o : RechargeOrderRow} (h : RefundsOk db o)
    (hs : o.status = .pending) (hsame : refundsOf db' o.id = refundsOf db o.id) {x : String}
    {n : Int64} {i : UUID} {now : Time} : RefundsOk db' (o.payment x n i now) := by
  obtain ⟨h₁, h₂, h₃, h₄, h₅⟩ := h.of_refundsOf hsame
  rw [hs] at h₄ h₅
  refine ⟨h₁, h₂, h₃, ⟨nofun, fun hb => ?_⟩, ⟨nofun, fun hb => ?_⟩⟩
  · exact absurd (h₄.2 hb) (by decide)
  · exact absurd (h₅.2 hb) (by decide)

/-- The commit of a payment is lawful. -/
theorem lawful_payment {E : List CallbackEvent} {o : RechargeOrderRow} {x : String} {n : Int64}
    {now : Time} {key : String} {system wallet : UUID}
    (h : At G c { booked A W t es with
      callbackEvents := E, rechargeOrders := [o.payment x n t.id now] })
    (ho : o ∈ c.db.rechargeOrders) (hs : o.status = .pending)
    (hf : Filed t .recharge key "recharge_order" o.id.text)
    (hkey : (trimSpace key).toList.head? = some 'p')
    (hes : Entered t es [⟨system, .debit, o.grantAmount⟩, ⟨wallet, .credit, o.grantAmount⟩])
    (hsys : Usable c A system (systemKey "cash_clearing" o.walletCurrency))
    (hw : Usable c A wallet (walletKey o.accountId o.walletCurrency)) :
    Lawful G c.db { booked A W t es with
      callbackEvents := E, rechargeOrders := [o.payment x n t.id now] } := by
  set δ : Versions := { booked A W t es with
    callbackEvents := E, rechargeOrders := [o.payment x n t.id now] } with hδ
  have hrow : o.payment x n t.id now ∈ (c.db.overlay δ).rechargeOrders :=
    mem_overlay_right (List.mem_singleton.2 rfl)
  have ht : t ∈ (c.db.overlay δ).ledger.transactions :=
    mem_overlay_right (List.mem_singleton.2 rfl)
  have hrecharged : Recharged (c.db.overlay δ) (o.payment x n t.id now) t :=
    { settled := rfl, transaction := rfl, kind := hf.kind, referenceType := hf.referenceType
      referenceId := by
        rw [hf.referenceId, nullIfEmpty, if_neg o.id.text_ne_empty]; rfl
      moves := h.moves rfl hes hsys hw }
  have hok := h.inv.orders o ho
  refine { links := h.links, grants := h.grants rfl
           solvent := h.solvent_of_entered hes (Or.inl rfl) (Or.inl ⟨_, _, hsys⟩)
           posted := List.forall_mem_singleton.2 hf.posted
           keys := List.forall_mem_singleton.2 ?_, purpose := List.forall_mem_singleton.2 ?_
           orders := List.forall_mem_singleton.2 ⟨hok.product, hok.price, hok.grant, fun _ => ⟨t, ht, hrecharged⟩⟩
           settled := List.forall_mem_singleton.2 fun o₀ h₀ e hset => ?_, refunds := ?_ }
  · rw [hf.key, hf.kind]; exact hkey
  · unfold Purpose; rw [hf.kind]; exact ⟨_, hrow, hrecharged⟩
  · rw [h.inv.wellFormed.orderIds.eq h₀ ho e, hs] at hset; cases hset
  · rintro y - hG (hy | ⟨r, hr, -⟩)
    · cases List.mem_singleton.1 hy
      refine (h.inv.refunds o ho hG).payment hs ?_
      rw [h.respects.refundsOf_overlay]; exact List.append_nil _
    · cases hr

theorem confirmRecharge_runs (h : Inv G db) {fresh : Fresh}
    {provider eventID orderNo externalOrderID : String} {amountMinor : Int64} :
    Runs G (confirmRecharge fresh provider eventID orderNo externalOrderID amountMinor)
      (fun _ _ => True) { db := db } := by
  have h₀ := At.start h
  unfold confirmRecharge
  refine h₀.check_bind fun _ => h₀.select_bind fun c₁ h₁ _ => ?_
  split
  · exact wp_bind.2 (h₁.selectOne_runs fun c₂ h₂ _ _ _ => h₂.check_bind fun _ => trivial)
  refine h₁.selectLock_orFail_bind fun c₂ o h₂ l₂ ho hp hl => ?_
  rw [DB.overlay_none] at ho
  refine wp_bind.2 (rechargeOrderTx_runs h₂ ho hl fun c₃ order h₃ l₃ horder => ?_)
  subst horder
  have ho := l₃.order ho hl
  have hl : Holds c₃.held (.row .rechargeOrders order.id) := l₃.held hl
  have hmem : ∀ {c : Moment}, Later G c₃ c → HasOrder order.id order.accountId c.db :=
    fun l => ⟨_, l.order ho hl, rfl, rfl⟩
  split
  · -- a callback for an order that has been settled before
    refine h₃.check_bind fun _ => ?_
    refine wp_bind.2 (insertCallbackEvent_runs h₃ fun c₄ E h₄ l₄ => ?_)
    refine h₄.publish_bind fun c₅ h₅ l₅ => ⟨?_, .none (fun _ => rfl) rfl, fun _ => ?_⟩
    · exact { links := h₅.links, solvent := h₅.solvent rfl, grants := h₅.grants rfl }
    · exact getRechargeOrder_runs ((hmem (l₄.trans l₅)).overlay h₅.inv h₅.respects)
  · next hpending =>
    have hpending : order.status = .pending := not_not.1 hpending
    refine h₃.check_bind fun _ => ?_
    refine wp_bind.2 (ensureWalletTx_runs h₃ fun c₄ A W wallet h₄ l₄ hw => ?_)
    refine wp_bind.2 (systemLedgerAccountTx_runs h₄ fun c₅ A' system h₅ l₅ hA hsys => ?_)
    have hw := hw.later l₅ hA
    have l₅ := l₄.trans l₅
    have hkey : (trimSpace (paymentKey (normalize provider) (trimSpace externalOrderID))).toList.head? =
        some 'p' := trimSpace_head (by simp [paymentKey, String.toList_append]) (by decide)
    refine wp_bind.2 (postLedgerTx_runs h₅ ?_ (fun c₆ item h₆ l₆ hitem hik => ?_)
      fun c₆ t es item h₆ l₆ hf hes hit => ?_)
    · simp only [List.forall_mem_cons, List.not_mem_nil, false_imp_iff, implies_true, and_true]
      exact ⟨⟨_, hsys⟩, ⟨_, hw⟩⟩
    · -- another order was recharged by this payment, so marking this one is refused
      refine wp_bind.2 (insertCallbackEvent_runs h₆ fun c₇ E h₇ l₆' => ?_)
      have l₇ := (l₅.trans l₆).trans l₆'
      refine wp_bind.2 (markPaid_runs h₇ rfl (l₇.order ho hl) (l₇.held hl)
        fun c₈ c₉ h₉ l₉ _ hno _ => ?_)
      have ht := (l₆'.trans l₉).transaction hitem
      have hkind : item.transaction.kind = .recharge := h₉.inv.kind_of_key ht (by rw [hik]; exact hkey)
      have hpurpose := h₉.inv.purpose _ ht
      unfold Purpose at hpurpose
      rw [hkind] at hpurpose
      obtain ⟨o', ho', hre⟩ := hpurpose
      refine absurd hre.transaction (hno o' ho' fun hid => ?_)
      have hset := hre.settled
      rw [h₉.inv.wellFormed.orderIds.eq ho' ((l₇.trans l₉).order ho hl) hid, hpending] at hset
      cases hset
    · refine wp_bind.2 (insertCallbackEvent_runs h₆ fun c₇ E h₇ l₇ => ?_)
      have l₇ := l₆.trans l₇
      have l := l₅.trans l₇
      refine wp_bind.2 (markPaid_runs h₇ rfl (l.order ho hl) (l.held hl)
        fun c₈ c₉ _ _ l₈ _ h₈ => ?_)
      rw [hit] at h₈
      refine h₈.publish_bind fun c₉ h₉ l₉ => ?_
      have l₉ := l₈.trans l₉
      have l := l.trans l₉
      refine ⟨lawful_payment h₉ (l.order ho hl) hpending hf hkey hes
          (hsys.later (l₇.trans l₉) (List.Subset.refl _)) (hw.later (l₇.trans l₉) (List.Subset.refl _)),
        .none (fun _ => rfl) rfl, fun _ => getRechargeOrder_runs ((hmem l).overlay h₉.inv h₉.respects)⟩

/-! ## Refunds -/

theorem toInt_add_of_lt {a b : Int64} (hb : 0 < b) (h : a.toInt + b.toInt < 2 ^ 63) :
    (a + b).toInt = a.toInt + b.toInt := by
  have hb : 0 < b.toInt := by simpa using Int64.lt_iff_toInt_lt.1 hb
  have ha := Int64.le_toInt a
  rw [Int64.toInt_add]
  exact Int.bmod_eq_of_le (by simp at ha ⊢; omega) (by simp; omega)

/-- The bound on one side, from the other: both amounts are in the proportion of the order. -/
theorem le_of_proportion {U w X x price grant : Int} (hg : 0 < grant)
    (hp : U * price = X * grant) (hq : w * price = x * grant) (h : U + w ≤ grant)
    (hprice : 0 ≤ price) : X + x ≤ price := by
  refine Int.le_of_mul_le_mul_right ?_ hg
  calc (X + x) * grant = (U + w) * price := by rw [Int.add_mul, Int.add_mul, hp, hq]
    _ ≤ grant * price := Int.mul_le_mul_of_nonneg_right h hprice
    _ = price * grant := Int.mul_comm _ _

/-- The sums that a refund compares are exact, unless both overflow. -/
theorem RefundsOk.sums {o : RechargeOrderRow} (h : RefundsOk db o) (hprice : 0 < o.priceMinor.toInt)
    (hgrant : 0 < o.grantAmount.toInt) {uw ux w x : Int64} (huw : uw.toInt = usedWallet db o.id)
    (hux : ux.toInt = usedExternal db o.id) (hw : 0 < w) (hx : 0 < x)
    (hover : usedWallet db o.id + w.toInt < 2 ^ 63 ∨ usedExternal db o.id + x.toInt < 2 ^ 63)
    (hle : ¬(o.grantAmount < uw + w ∨ o.priceMinor < ux + x))
    (hprop : w.toInt * o.priceMinor.toInt = x.toInt * o.grantAmount.toInt) :
    (uw + w).toInt = usedWallet db o.id + w.toInt ∧ (ux + x).toInt = usedExternal db o.id + x.toInt ∧
      usedWallet db o.id + w.toInt ≤ o.grantAmount.toInt ∧
      usedExternal db o.id + x.toInt ≤ o.priceMinor.toInt := by
  have hpr := h.proportion
  rw [not_or, Int64.lt_iff_toInt_lt, Int64.lt_iff_toInt_lt] at hle
  have hgm := Int64.toInt_lt o.grantAmount
  have hpm := Int64.toInt_lt o.priceMinor
  rw [← huw, ← hux] at *
  rcases hover with hover | hover
  · have hs := toInt_add_of_lt hw hover
    have h₁ : uw.toInt + w.toInt ≤ o.grantAmount.toInt := by omega
    have h₂ := le_of_proportion hgrant hpr hprop h₁ (by omega)
    exact ⟨hs, toInt_add_of_lt hx (by omega), h₁, h₂⟩
  · have hs := toInt_add_of_lt hx hover
    have h₂ : ux.toInt + x.toInt ≤ o.priceMinor.toInt := by omega
    have h₁ := le_of_proportion hprice hpr.symm hprop.symm h₂ (by omega)
    exact ⟨toInt_add_of_lt hw (by omega), hs, h₁, h₂⟩

/-- **A refund keeps the sums of its order**, if they do not both overflow. -/
theorem RefundsOk.refund {db' : DB} {o : RechargeOrderRow} (h : RefundsOk db o)
    (hok : OrderOk db o) {r : RechargeRefund}
    (hr : refundsOf db' o.id = refundsOf db o.id ++ [r]) {uw ux : Int64}
    (huw : uw.toInt = usedWallet db o.id) (hux : ux.toInt = usedExternal db o.id)
    (hover : usedWallet db o.id + r.walletAmount.toInt < 2 ^ 63 ∨
      usedExternal db o.id + r.externalAmountMinor.toInt < 2 ^ 63)
    (hle : ¬(o.grantAmount < uw + r.walletAmount ∨ o.priceMinor < ux + r.externalAmountMinor))
    (hprop : r.walletAmount.toInt * o.priceMinor.toInt =
      r.externalAmountMinor.toInt * o.grantAmount.toInt) :
    RefundsOk db' { o with
      status := if uw + r.walletAmount = o.grantAmount ∧ ux + r.externalAmountMinor = o.priceMinor
        then .refunded else .partiallyRefunded } := by
  obtain ⟨hw, hx, hwle, hxle⟩ := h.sums hok.price hok.grant huw hux r.walletAmount_pos
    r.externalAmountMinor_pos hover hle hprop
  have hU : usedWallet db' o.id = usedWallet db o.id + r.walletAmount.toInt := by
    simp [usedWallet, hr]
  have hX : usedExternal db' o.id = usedExternal db o.id + r.externalAmountMinor.toInt := by
    simp [usedExternal, hr]
  have hboth : (uw + r.walletAmount = o.grantAmount ∧ ux + r.externalAmountMinor = o.priceMinor) ↔
      usedWallet db' o.id = o.grantAmount.toInt ∧ usedExternal db' o.id = o.priceMinor.toInt := by
    rw [hU, hX, ← hw, ← hx, Int64.toInt_inj, Int64.toInt_inj]
  constructor
  case wallet => exact hU ▸ hwle
  case external => exact hX ▸ hxle
  case proportion =>
    show usedWallet db' o.id * _ = usedExternal db' o.id * _
    rw [hU, hX, Int.add_mul, Int.add_mul, h.proportion, hprop]
  case refunded =>
    rw [← hboth]
    dsimp only
    split
    · next hb => exact ⟨fun _ => hb, fun _ => rfl⟩
    · next hb => exact ⟨nofun, fun h => absurd h hb⟩
  case partially =>
    rw [← hboth, hr]
    dsimp only
    split
    · next hb => exact ⟨nofun, fun h => absurd hb h.2⟩
    · next hb => exact ⟨fun _ => ⟨by simp, hb⟩, fun _ => rfl⟩

/-- A refund row is new, and so is its ledger transaction among the refunds. -/
theorem insertRefund_runs (h : At G c δ) (hδ : δ.rechargeRefunds = []) {id : UUID} {refundNo : String}
    {orderID : UUID} {w x : Int64} {reason : String} {transactionID : UUID} {key : String}
    {actor : Actor} (hl : Holds c.held (.row .rechargeOrders orderID)) {Q : Unit → Moment → Prop}
    (hQ : ∀ c' c₁ r, At G c₁ δ → Later G c c₁ → Later G c c' →
      (∀ r' ∈ c₁.db.rechargeRefunds, r'.ledgerTransactionId ≠ transactionID) →
      r.id = id ∧ r.orderId = orderID ∧ r.walletAmount = w ∧ r.externalAmountMinor = x ∧
        r.ledgerTransactionId = transactionID →
      At G c' { δ with rechargeRefunds := [r] } → Q () c') :
    Runs G (insertRefund id refundNo orderID w x reason transactionID key actor) Q c := by
  unfold insertRefund
  split
  · next hpos =>
    refine wp_bind.1 (h.insert_bind (k := pure) fun c₁ h₁ l₁ hno c₂ hc₂ l₂ hk => ?_)
    simp only [List.forall_mem_cons, DB.has, List.any_eq_false, decide_eq_true_eq] at hno hk
    have hview : (c₁.db.overlay δ).rechargeRefunds = c₁.db.rechargeRefunds := by
      show Txn.overlay _ _ _ = _
      rw [hδ, overlay_nil]
    rw [hview] at hno
    refine hQ c₂ c₁ ⟨id, refundNo, orderID, w, hpos.1, x, hpos.2, reason, transactionID, key,
      actor.label⟩ h₁ l₁ l₂ hno.2.2.1 ⟨rfl, rfl, rfl, rfl, rfl⟩ ?_
    subst hc₂
    refine h₁.apply (fun db => ?_) ?_ (h₁.links.of_eq rfl rfl)
    · exact (overlay_refund _).trans (by rw [hδ, put_nil])
    · exact (h₁.respects.mono (List.subset_append_left _ _)).newRefund hno.1 hk.1
        (List.mem_append_left _ (l₁.held hl))
  · exact h.done

/-- The order is there, so its status is set. -/
theorem setOrderStatus_runs (h : At G c δ) (hδ : δ.rechargeOrders = []) {o : RechargeOrderRow}
    (ho : o ∈ c.db.rechargeOrders) (hl : Holds c.held (.row .rechargeOrders o.id))
    {status : OrderStatus} {Q : Unit → Moment → Prop}
    (hQ : ∀ c', At G c' { δ with rechargeOrders := [{ o with status }] } → Later G c c' → Q () c') :
    Runs G (setOrderStatus o.id status) Q c := by
  have hview : ∀ db : DB, (db.overlay δ).rechargeOrders = db.rechargeOrders := fun db => by
    show Txn.overlay _ _ _ = _
    rw [hδ, overlay_nil]
  refine h.updateRow_bind (fun c₁ h₁ l₁ hno => ?_) fun c₁ r h₁ l₁ hr hp c₂ hc₂ l₂ _ => ?_
  · have ho := hview c₁.db ▸ l₁.order ho hl
    rcases hno with hno | ⟨r, hr, hno⟩
    · exact absurd (decide_eq_true rfl) (hno o ho)
    · exact absurd (decide_eq_true rfl) (hno o ho (of_decide_eq_true hr).symm)
  · have ho := l₁.order ho hl
    rw [hview] at hr
    cases h₁.inv.wellFormed.orderIds.eq hr ho (of_decide_eq_true hp)
    refine hQ c₂ ?_ l₂
    subst hc₂
    refine h₁.apply (fun db => ?_) ?_ (h₁.links.of_eq rfl rfl)
    · exact (overlay_order _).trans (by rw [hδ, put_nil])
    · exact (h₁.respects.mono (List.subset_append_left _ _)).updateOrder ho
        (List.mem_append_left _ (l₁.held hl)) rfl ⟨rfl, rfl, rfl, rfl, rfl, rfl⟩

/-- After its commit a call finds its refund again. -/
theorem getRefund_runs {id : UUID} {done : List Event} (h₀ : ∃ r ∈ db.rechargeRefunds, r.id = id) :
    Runs G (getRefund id) (fun _ _ => True) { db := db, done := done } := by
  refine reread (P := fun db => ∃ r ∈ db.rechargeRefunds, r.id = id)
    (fun _ _ hr ⟨r, hmem, hid⟩ => ⟨r, hr.mem_refunds hmem, hid⟩) h₀ ?_ fun _ _ _ _ _ => trivial
  rintro db' - ⟨r, hr, hid⟩
  rw [List.find?_isSome]
  exact ⟨r, hr, by simp [hid]⟩

/-- The commit of a refund is lawful. -/
theorem lawful_refund {o : RechargeOrderRow} {r : RechargeRefund} {status : OrderStatus}
    {key : String} {system wallet : UUID} {w : Int64}
    (h : At G c { booked A W t es with
      rechargeRefunds := [r], rechargeOrders := [{ o with status }] })
    (ho : o ∈ c.db.rechargeOrders) (hs : o.status.settled) (hstatus : status.settled)
    (hr : r.orderId = o.id ∧ r.ledgerTransactionId = t.id)
    (hf : Filed t .refund key "recharge_order" o.id.text)
    (hkey : (trimSpace key).toList.head? = some 'r')
    (hes : Entered t es [⟨wallet, .debit, w⟩, ⟨system, .credit, w⟩])
    (hw : w.toInt ≤ c.db.ledger.movements wallet)
    (href : G.refunds o.id → refundsOf c.db o.id ++ [r] = refundsOf (c.db.overlay
        { booked A W t es with rechargeRefunds := [r], rechargeOrders := [{ o with status }] }) o.id →
      RefundsOk (c.db.overlay { booked A W t es with
        rechargeRefunds := [r], rechargeOrders := [{ o with status }] }) { o with status }) :
    Lawful G c.db { booked A W t es with
      rechargeRefunds := [r], rechargeOrders := [{ o with status }] } := by
  set δ : Versions := { booked A W t es with
    rechargeRefunds := [r], rechargeOrders := [{ o with status }] } with hδ
  have hok := h.inv.orders o ho
  refine { links := h.links, grants := h.grants rfl
           solvent := h.solvent_of_entered hes (Or.inl rfl) (Or.inr hw)
           posted := List.forall_mem_singleton.2 hf.posted
           keys := List.forall_mem_singleton.2 ?_, purpose := List.forall_mem_singleton.2 ?_
           orders := List.forall_mem_singleton.2 ⟨hok.product, hok.price, hok.grant, fun _ => ?_⟩
           settled := List.forall_mem_singleton.2 fun o₀ h₀ e _ => ?_
           refundOrders := List.forall_mem_singleton.2
             ⟨_, mem_overlay_right (List.mem_singleton.2 rfl), hr.1.symm⟩
           refunds := ?_ }
  · rw [hf.key, hf.kind]; exact hkey
  · unfold Purpose; rw [hf.kind]
    exact ⟨r, mem_overlay_right (List.mem_singleton.2 rfl), hr.2⟩
  · obtain ⟨t₀, ht₀, hre⟩ := hok.settled hs
    exact ⟨t₀, h.respects.mem_transactions ht₀, hre.overlay h.respects ht₀ rfl
      ⟨rfl, rfl, rfl, rfl, rfl, rfl⟩ hstatus rfl⟩
  · rw [h.inv.wellFormed.orderIds.eq h₀ ho e]
    exact ⟨hstatus, rfl⟩
  · intro y hy hG hyd
    have hyo : y = { o with status } := by
      refine (h.wellFormed).orderIds.eq hy (mem_overlay_right (List.mem_singleton.2 rfl)) ?_
      rcases hyd with hyd | ⟨r', hr', he⟩
      · rw [List.mem_singleton.1 hyd]
      · rw [← he, List.mem_singleton.1 hr']; exact hr.1
    subst hyo
    refine href hG ?_
    rw [h.respects.refundsOf_overlay]
    simp [hδ, hr.1]

theorem refundRecharge_runs (h : Inv G db) {fresh : Fresh} {orderID : UUID} {w x : Int64}
    {reason key : String} {actor : Actor} :
    Runs G (refundRecharge fresh orderID w x reason key actor) (fun _ _ => True) { db := db } := by
  have h₀ := At.start h
  unfold refundRecharge
  refine h₀.check_bind fun hargs => h₀.select_bind fun c₁ h₁ _ => ?_
  obtain ⟨hwpos, hxpos, -⟩ := hargs
  split
  · exact h₁.selectOne_runs fun _ _ _ _ _ => trivial
  refine h₁.selectLock_orFail_bind fun c₂ o h₂ _ ho hp hl => ?_
  rw [DB.overlay_none] at ho
  have hid : o.id = orderID := of_decide_eq_true hp
  refine wp_bind.2 (rechargeOrderTx_runs h₂ ho hl fun c₃ order h₃ l₃ horder => ?_)
  subst horder hid
  have ho := l₃.order ho hl
  have hl : Holds c₃.held (.row .rechargeOrders order.id) := l₃.held hl
  refine h₃.check_bind fun hstatus => ?_
  have hsettled : order.status.settled := by
    rcases hstatus with hs | hs <;> rw [hs] <;> rfl
  refine h₃.query_bind fun c₄ h₄ l₄ hallow => ?_
  rw [DB.overlay_none] at hallow ⊢
  refine h₄.orFail_bind fun uw huw => h₄.orFail_bind fun ux hux => ?_
  have huw := scanInt64_eq huw
  have hux := scanInt64_eq hux
  refine h₄.check_bind fun hle => h₄.check_bind fun hprop => ?_
  have hl₄ : Holds c₄.held (.row .rechargeOrders order.id) := l₄.held hl
  have ho₄ := l₄.order ho hl
  refine wp_bind.2 (ensureWalletTx_runs h₄ fun c₅ A W wallet h₅ l₅ hw => ?_)
  refine wp_bind.2 (requireBalance_runs h₅ fun c₆ h₆ l₆ hbal => ?_)
  refine wp_bind.2 (systemLedgerAccountTx_runs h₆ fun c₇ A' system h₇ l₇ hA hsys => ?_)
  have hbal : w.toInt ≤ c₇.db.ledger.movements wallet.ledgerAccountId := by
    rw [(hw.later l₆ (List.Subset.refl _)).movements (δ := setup A W) rfl h₆.respects l₇]
    exact hbal
  have hw := hw.later (l₆.trans l₇) hA
  have l₇ := (l₅.trans l₆).trans l₇
  have hkey : (trimSpace ("refund:" ++ refundKey order.id key)).toList.head? = some 'r' :=
    trimSpace_head (by simp [String.toList_append]) (by decide)
  refine wp_bind.2 (postLedgerTx_runs h₇ ?_ (fun c₈ item h₈ l₈ hitem hik => ?_)
    fun c₈ t es item h₈ l₈ hf hes hit => ?_)
  · simp only [List.forall_mem_cons, List.not_mem_nil, false_imp_iff, implies_true, and_true]
    exact ⟨⟨_, hw⟩, ⟨_, hsys⟩⟩
  · -- a refund was recorded with this transaction, so this one cannot be
    refine wp_bind.2 (insertRefund_runs h₈ rfl ((l₇.trans l₈).held hl₄)
      fun c₉ c₁₀ r h₁₀ l₁₀ _ hno _ _ => ?_)
    have ht := l₁₀.transaction hitem
    have hpurpose := h₁₀.inv.purpose _ ht
    unfold Purpose at hpurpose
    rw [h₁₀.inv.kind_of_key ht (k := .refund) (by rw [hik]; exact hkey)] at hpurpose
    obtain ⟨r', hr', he⟩ := hpurpose
    exact absurd he (hno r' hr')
  · have l₈' := l₇.trans l₈
    refine wp_bind.2 (insertRefund_runs h₈ rfl (l₈'.held hl₄)
      fun c₉ _ r _ _ l₉ _ hr h₉ => ?_)
    have l₉' := l₈'.trans l₉
    obtain ⟨hrid, hro, rfl, rfl, hrt⟩ := hr
    refine wp_bind.2 (setOrderStatus_runs h₉ rfl (l₉'.order ho₄ hl₄) (l₉'.held hl₄)
      fun c₁₀ h₁₀ l₁₀ => ?_)
    refine h₁₀.publish_bind fun c₁₁ h₁₁ l₁₁ => ?_
    have l := (l₉'.trans l₁₀).trans l₁₁
    have ho' := l.order ho₄ hl₄
    refine ⟨lawful_refund h₁₁ ho' hsettled ?_ ⟨hro, hrt.trans hit⟩ hf hkey hes ?_ fun hG hsame => ?_,
      .none (fun _ => rfl) rfl, fun _ => getRefund_runs ⟨r, mem_overlay_right ?_, hrid⟩⟩
    · split <;> rfl
    · rw [hw.movements (δ := setup A' W) rfl h₇.respects (((l₈.trans l₉).trans l₁₀).trans l₁₁)]
      exact hbal
    · have hrefunds := l.refunds hl₄
      have hU : usedWallet c₁₁.db order.id = usedWallet c₄.db order.id := by
        simp only [usedWallet, hrefunds]
      have hX : usedExternal c₁₁.db order.id = usedExternal c₄.db order.id := by
        simp only [usedExternal, hrefunds]
      refine (h₁₁.inv.refunds _ ho' hG).refund (h₁₁.inv.orders _ ho') hsame.symm (huw.trans hU.symm)
        (hux.trans hX.symm) ?_ hle hprop
      rw [hU, hX]
      exact hallow hG
    · exact List.mem_singleton.2 rfl

/-! ## Membership purchases -/

theorem lockMembershipProduct_runs (h : At G c δ) {productID : UUID}
    {Q : MembershipProduct → Moment → Prop}
    (hQ : ∀ c' product, At G c' δ → Later G c c' → Q product c') :
    Runs G (lockMembershipProduct productID) Q c := by
  refine h.selectLock_orFail_bind fun c₁ product h₁ l₁ _ _ _ => ?_
  exact h₁.selectLock_orFail_bind fun c₂ _ h₂ l₂ _ _ _ => hQ c₂ product h₂ (l₁.trans l₂)

/-- A purchase row is new, and so is its ledger transaction among the purchases. -/
theorem insertPurchase_runs (h : At G c δ) (hδ : δ.purchases = []) {row : MembershipPurchaseRow}
    {Q : Unit → Moment → Prop}
    (hQ : ∀ c' c₁, At G c₁ δ → Later G c c₁ → Later G c c' →
      (∀ q ∈ c₁.db.purchases, q.ledgerTransactionId ≠ row.ledgerTransactionId) →
      At G c' { δ with purchases := [row] } → Q () c') : Runs G (insertPurchase row) Q c := by
  refine wp_bind.1 (h.insert_bind (k := pure) fun c₁ h₁ l₁ hno c₂ hc₂ l₂ hk => ?_)
  simp only [List.forall_mem_cons, DB.has, List.any_eq_false, decide_eq_true_eq] at hno hk
  have hview : (c₁.db.overlay δ).purchases = c₁.db.purchases := by
    show Txn.overlay _ _ _ = _
    rw [hδ, overlay_nil]
  rw [hview] at hno
  refine hQ c₂ c₁ h₁ l₁ l₂ hno.2.2.1 ?_
  subst hc₂
  refine h₁.apply (fun db => ?_) ?_ (h₁.links.of_eq rfl rfl)
  · exact (overlay_purchase _).trans (by rw [hδ, put_nil])
  · exact (h₁.respects.mono (List.subset_append_left _ _)).newPurchase hno.1 hk.1 hno.2.2.2.1
      hk.2.2.2.1

theorem membershipPurchaseTx_reads (h : At G c δ) {id : UUID} :
    Runs G (membershipPurchaseTx id) (fun _ _ => True) c :=
  h.selectOne_bind fun _ h₁ _ _ _ => h₁.selectOne_bind fun _ _ _ _ _ => trivial

theorem scanMembership_isSome (h : Inv G db) {id : UUID} (hm : ∃ m ∈ db.memberships, m.id = id) :
    (scanMembership id db).isSome := by
  obtain ⟨m, hm, hid⟩ := hm
  cases hf : db.memberships.find? (·.id = id) with
  | none => exact absurd hid (by simpa using List.find?_eq_none.1 hf m hm)
  | some m' =>
    obtain ⟨p, hp, hpid⟩ := h.plans m' (List.mem_of_find?_eq_some hf)
    cases hf' : db.config.membershipPlans.find? (·.id = m'.planId) with
    | none => exact absurd hpid (by simpa using List.find?_eq_none.1 hf' p hp)
    | some plan => simp [scanMembership, hf, hf']

/-- After its commit a call finds its purchase again. -/
theorem getMembershipPurchase_runs {accountID id : UUID} {done : List Event}
    (h₀ : ∃ row ∈ db.purchases, row.accountId = accountID ∧ row.id = id) :
    Runs G (getMembershipPurchase accountID id) (fun _ _ => True) { db := db, done := done } := by
  obtain ⟨row, h₀, rfl, rfl⟩ := h₀
  unfold getMembershipPurchase membershipPurchaseTx
  refine wp_bind.2 (wp_bind.2 (reread (P := fun db => row ∈ db.purchases)
    (fun _ _ hr h => hr.mem_purchases h) h₀ (fun db' _ hr => ?_) fun r db' hi hr hf => ?_))
  · rw [List.find?_isSome]
    exact ⟨row, hr, by simp⟩
  · have hrow : r = row := hi.wellFormed.purchaseIds.eq (List.mem_of_find?_eq_some hf) hr
      (by simpa using List.find?_some hf)
    subst hrow
    obtain ⟨_, -, m, hm, hpm⟩ := hi.purchases r hr
    refine wp_bind.2 (reread (P := fun db => ∃ m ∈ db.memberships, m.id = r.membershipId)
      (fun hi _ hr ⟨m, hm, hid⟩ => ?_) ⟨m, hm, hpm.membership.symm⟩
      (fun db' hi hm => scanMembership_isSome hi hm) fun membership db' _ _ _ => ?_)
    · obtain ⟨m', hm', hid', -⟩ := hr.membership_version hi.wellFormed hm
      exact ⟨m', hm', hid'.trans hid⟩
    · exact wp_bind.2 (wp_check.2 ⟨fun _ => trivial, fun hno => absurd rfl hno⟩)

/-- The commit of a purchase is lawful. -/
theorem lawful_purchase {ms : List AccountMembership} {m : AccountMembership} {days : Int64}
    {row : MembershipPurchaseRow} {key : String} {system wallet : UUID}
    (h : At G c { booked A W t es with memberships := ms, purchases := [row] })
    (hA : Assigned G c.db ms m days)
    (hm : row.membershipId = m.id ∧ m.accountId = row.accountId ∧ m.source = "wallet_purchase" ∧
      m.sourceRef = some row.id.text)
    (ht : row.ledgerTransactionId = t.id) (hrk : ∃ k, row.idempotencyKey = purchaseKey row.accountId k)
    (hf : Filed t .membershipPurchase key "membership_purchase" row.id.text)
    (hkey : (trimSpace key).toList.head? = some 'm')
    (hes : Entered t es [⟨wallet, .debit, row.amount⟩, ⟨system, .credit, row.amount⟩])
    (hw : Usable c A wallet (walletKey row.accountId row.currency))
    (hsys : Usable c A system (systemKey "membership_revenue" row.currency))
    (hbal : row.amount.toInt ≤ c.db.ledger.movements wallet) :
    Lawful G c.db { booked A W t es with memberships := ms, purchases := [row] } := by
  set δ : Versions := { booked A W t es with memberships := ms, purchases := [row] } with hδ
  have hrow : row ∈ (c.db.overlay δ).purchases := mem_overlay_right (List.mem_singleton.2 rfl)
  have htx : t ∈ (c.db.overlay δ).ledger.transactions :=
    mem_overlay_right (List.mem_singleton.2 rfl)
  have hmem : m ∈ (c.db.overlay δ).memberships := mem_overlay_right hA.mem
  have hp : Purchased (c.db.overlay δ) row t m :=
    { transaction := ht, kind := hf.kind, referenceType := hf.referenceType
      referenceId := by rw [hf.referenceId, nullIfEmpty, if_neg row.id.text_ne_empty]
      moves := h.moves rfl hes hw hsys, membership := hm.1, account := hm.2.1
      source := hm.2.2.1, sourceRef := hm.2.2.2, key := hrk }
  refine { links := h.links, plans := hA.plans h.inv, stored := hA.storedTimes h.inv
           grants := hA.grants (δ := { booked A W t es with purchases := [row] }) h.inv
           bought := hA.bought (δ := { booked A W t es with purchases := [row] }) h.inv h.respects
             fun _ => ⟨row, hrow, hm.1⟩
           solvent := h.solvent_of_entered hes (Or.inl rfl) (Or.inr hbal)
           posted := List.forall_mem_singleton.2 hf.posted
           keys := List.forall_mem_singleton.2 ?_, purpose := List.forall_mem_singleton.2 ?_
           purchases := List.forall_mem_singleton.2 ⟨t, htx, m, hmem, hp⟩ }
  · rw [hf.key, hf.kind]; exact hkey
  · unfold Purpose; rw [hf.kind]
    exact ⟨row, hrow, m, hmem, hp⟩

theorem purchaseMembership_runs (h : Inv G db) {fresh : Fresh} {accountID productID : UUID}
    {key : String} {actor : Actor} :
    Runs G (purchaseMembership fresh accountID productID key actor) (fun _ _ => True)
      { db := db } := by
  have h₀ := At.start h
  unfold purchaseMembership
  refine h₀.check_bind fun _ => h₀.select_bind fun c₁ h₁ _ => ?_
  split
  · exact membershipPurchaseTx_reads h₁
  refine wp_bind.2 (lockMembershipProduct_runs h₁ fun c₂ product h₂ _ => ?_)
  refine h₂.check_bind fun _ => ?_
  refine wp_bind.2 (ensureWalletTx_runs h₂ fun c₃ A W wallet h₃ _ hw => ?_)
  refine h₃.check_bind fun _ => ?_
  refine wp_bind.2 (requireBalance_runs h₃ fun c₄ h₄ l₄ hbal => ?_)
  refine wp_bind.2 (systemLedgerAccountTx_runs h₄ fun c₅ A' system h₅ l₅ hA hsys => ?_)
  have hbal : product.priceAmount.toInt ≤ c₅.db.ledger.movements wallet.ledgerAccountId := by
    rw [(hw.later l₄ (List.Subset.refl _)).movements (δ := setup A W) rfl h₄.respects l₅]
    exact hbal
  have hw := hw.later (l₄.trans l₅) hA
  have hkey : (trimSpace ("membership-purchase:" ++ purchaseKey accountID key)).toList.head? =
      some 'm' := trimSpace_head (by simp [String.toList_append]) (by decide)
  have hfit : G.grants accountID → product.durationDays.toInt ≤ maxDays := fun _ =>
    Int.le_trans (Int64.le_iff_toInt_le.1 product.durationDays_range.2) (by decide)
  refine wp_bind.2 (postLedgerTx_runs h₅ ?_ (fun c₆ item h₆ l₆ hitem hik => ?_)
    fun c₆ t es item h₆ l₆ hf hes hit => ?_)
  · simp only [List.forall_mem_cons, List.not_mem_nil, false_imp_iff, implies_true, and_true]
    exact ⟨⟨_, hw⟩, ⟨_, hsys⟩⟩
  · -- a purchase was recorded with this transaction, so this one cannot be
    refine wp_bind.2 (assignMembershipTx_runs h₆ rfl hfit fun c₇ ms m membership h₇ l₇ _ _ _ _ _ _ => ?_)
    refine wp_bind.2 (insertPurchase_runs h₇ rfl fun c₈ c₉ h₉ l₉ _ hno _ => ?_)
    have ht := (l₇.trans l₉).transaction hitem
    have hpurpose := h₉.inv.purpose _ ht
    unfold Purpose at hpurpose
    rw [h₉.inv.kind_of_key ht (k := .membershipPurchase) (by rw [hik]; exact hkey)] at hpurpose
    obtain ⟨p, hp, _, -, hpm⟩ := hpurpose
    exact absurd hpm.transaction (hno p hp)
  · refine wp_bind.2 (assignMembershipTx_runs h₆ rfl hfit
      fun c₇ ms m membership h₇ l₇ hA hid hacc hsrc href hmid => ?_)
    refine wp_bind.2 (insertPurchase_runs h₇ rfl fun c₈ c₉ _ _ l₈ _ h₈ => ?_)
    refine h₈.publish_bind fun c₁₀ h₁₀ l₁₀ => ?_
    have hA := hA.later h₇ (l₈.trans l₁₀)
    have l := ((l₆.trans l₇).trans l₈).trans l₁₀
    refine ⟨lawful_purchase h₁₀ hA ⟨hmid.trans hid.symm, hacc, hsrc, ?_⟩ hit ⟨key, rfl⟩ hf hkey hes
        (hw.later l (List.Subset.refl _)) (hsys.later l (List.Subset.refl _)) ?_,
      hA.extends (δ := { booked A' W t es with purchases := _ }) h₁₀.inv fun i => ?_,
      fun _ => getMembershipPurchase_runs ⟨_, mem_overlay_right (List.mem_singleton.2 rfl), rfl, rfl⟩⟩
    · rw [href, nullIfEmpty, if_neg fresh.row.text_ne_empty]
    · rw [hw.movements (δ := setup A' W) rfl h₅.respects l]
      exact hbal
    · rw [hacc]; rfl

end Sakura