/-
  The joint invariant of orders, ledger, wallets, purchases and memberships.

  * `Recharged`, `Purchased`, `Purpose`: what a posted transaction was posted for;
  * `RefundsOk`: the refunds of an order;
  * `Inv`: the invariant, over the orders and accounts of a `Scope` with more;
  * `Lawful`, `Lawful.inv`: what the new rows of a commit have to satisfy;
  * `discipline`: the commits of the platform code.
-/
import Sakura.Interference
import Sakura.Txn.Rely

namespace Sakura

open Txn

/-! ## Rows that belong together -/

/-- `t` moves `amount` from the account with key `debit` to the one with key `credit`. -/
def Ledger.Moves (K : Ledger) (t : LedgerTransaction)
    (debit credit : OwnerType × String × String × String) (amount : Int64) : Prop :=
  ∃ d ∈ K.accounts, ∃ c ∈ K.accounts, d.key = debit ∧ c.key = credit ∧
    (K.entriesOf t.id).map (fun e => (e.ledgerAccountId, e.side, e.amount)) =
      [(d.id, .debit, amount), (c.id, .credit, amount)]

/-- `t` is the recharge of the order `o`. -/
structure Recharged (db : DB) (o : RechargeOrderRow) (t : LedgerTransaction) : Prop where
  settled : o.status.settled
  transaction : o.ledgerTransactionId = some t.id
  kind : t.kind = .recharge
  referenceType : t.referenceType = some "recharge_order"
  referenceId : t.referenceId = some o.id.text
  moves : db.ledger.Moves t (systemKey "cash_clearing" o.walletCurrency)
    (walletKey o.accountId o.walletCurrency) o.grantAmount

/-- `t` is the payment of the purchase `p`, and `m` the membership it bought. -/
structure Purchased (db : DB) (p : MembershipPurchaseRow) (t : LedgerTransaction)
    (m : AccountMembership) : Prop where
  transaction : p.ledgerTransactionId = t.id
  kind : t.kind = .membershipPurchase
  referenceType : t.referenceType = some "membership_purchase"
  referenceId : t.referenceId = some p.id.text
  moves : db.ledger.Moves t (walletKey p.accountId p.currency)
    (systemKey "membership_revenue" p.currency) p.amount
  membership : p.membershipId = m.id
  account : m.accountId = p.accountId
  source : m.source = "wallet_purchase"
  sourceRef : m.sourceRef = some p.id.text
  key : ∃ k, p.idempotencyKey = purchaseKey p.accountId k

/-- The first letter of the keys of each kind of transaction. -/
def TransactionKind.initial : TransactionKind → Char
  | .recharge => 'p'
  | .refund => 'r'
  | .adminAdjustment => 'a'
  | .membershipPurchase => 'm'
  | .batchAdjustment => 'b'

theorem TransactionKind.initial_inj {k k' : TransactionKind} (h : k.initial = k'.initial) :
    k = k' := by
  cases k <;> cases k' <;> first | rfl | exact absurd h (by decide)

/-- The row that a transaction was posted for. -/
def Purpose (db : DB) (t : LedgerTransaction) : Prop :=
  match t.kind with
  | .recharge => ∃ o ∈ db.rechargeOrders, Recharged db o t
  | .refund => ∃ r ∈ db.rechargeRefunds, r.ledgerTransactionId = t.id
  | .adminAdjustment => True
  | .membershipPurchase => ∃ p ∈ db.purchases, ∃ m ∈ db.memberships, Purchased db p t m
  | .batchAdjustment => False

structure OrderOk (db : DB) (o : RechargeOrderRow) : Prop where
  product : ∃ p ∈ db.config.rechargeProducts, p.id = o.productId
  price : 0 < o.priceMinor.toInt
  grant : 0 < o.grantAmount.toInt
  settled : o.status.settled → ∃ t ∈ db.ledger.transactions, Recharged db o t

/-- The refunds of an order: their sums, in the proportion of the order, and its status. -/
structure RefundsOk (db : DB) (o : RechargeOrderRow) : Prop where
  wallet : usedWallet db o.id ≤ o.grantAmount.toInt
  external : usedExternal db o.id ≤ o.priceMinor.toInt
  proportion : usedWallet db o.id * o.priceMinor.toInt = usedExternal db o.id * o.grantAmount.toInt
  refunded : o.status = .refunded ↔
    usedWallet db o.id = o.grantAmount.toInt ∧ usedExternal db o.id = o.priceMinor.toInt
  partially : o.status = .partiallyRefunded ↔ refundsOf db o.id ≠ [] ∧
    ¬(usedWallet db o.id = o.grantAmount.toInt ∧ usedExternal db o.id = o.priceMinor.toInt)

theorem RefundsOk.of_refundsOf {db db' : DB} {o : RechargeOrderRow} (h : RefundsOk db o)
    (hs : refundsOf db' o.id = refundsOf db o.id) : RefundsOk db' o := by
  have hw : usedWallet db' o.id = usedWallet db o.id := by unfold usedWallet; rw [hs]
  have hx : usedExternal db' o.id = usedExternal db o.id := by unfold usedExternal; rw [hs]
  obtain ⟨h₁, h₂, h₃, h₄, h₅⟩ := h
  exact ⟨by rwa [hw], by rwa [hx], by rwa [hw, hx], by rwa [hw, hx], by rwa [hw, hx, hs]⟩

/-- Wallets and the ledger accounts of accounts. -/
structure Links (db : DB) : Prop where
  wallets : ∀ w ∈ db.wallets, ∃ a ∈ db.ledger.accounts,
    a.id = w.ledgerAccountId ∧ a.key = walletKey w.accountId w.currency
  owners : ∀ a ∈ db.ledger.accounts, a.ownerType = .account → ∃ i c, a.key = walletKey i c

theorem Links.of_eq {db db' : DB} (h : Links db) (ha : db'.ledger.accounts = db.ledger.accounts)
    (hw : db'.wallets = db.wallets) : Links db' :=
  ⟨by rw [ha, hw]; exact h.wallets, by rw [ha]; exact h.owners⟩

/-! ## The invariant -/

/-- The orders whose refunds and the accounts whose grants are followed. -/
structure Scope where
  refunds : UUID → Prop := fun _ => False
  grants : UUID → Prop := fun _ => False

structure Inv (G : Scope) (db : DB) : Prop where
  wellFormed : db.WellFormed
  links : Links db
  posted : ∀ t ∈ db.ledger.transactions, t.status = .posted
  keys : ∀ t ∈ db.ledger.transactions, t.idempotencyKey.toList.head? = some t.kind.initial
  purpose : ∀ t ∈ db.ledger.transactions, Purpose db t
  solvent : ∀ a ∈ db.ledger.accounts, a.ownerType = .account → 0 ≤ db.ledger.balance a.id
  orders : ∀ o ∈ db.rechargeOrders, OrderOk db o
  purchases : ∀ p ∈ db.purchases, ∃ t ∈ db.ledger.transactions, ∃ m ∈ db.memberships,
    Purchased db p t m
  bought : ∀ m ∈ db.memberships, m.source = "wallet_purchase" →
    ∃ p ∈ db.purchases, p.membershipId = m.id
  plans : ∀ m ∈ db.memberships, ∃ p ∈ db.config.membershipPlans, p.id = m.planId
  stored : ∀ m ∈ db.memberships, stored m.expiresAt = m.expiresAt
  refundOrders : ∀ r ∈ db.rechargeRefunds, ∃ o ∈ db.rechargeOrders, o.id = r.orderId
  refunds : ∀ o ∈ db.rechargeOrders, G.refunds o.id → RefundsOk db o
  grants : ∀ i, G.grants i → ∃ m ∈ db.memberships, m.current ∧ m.accountId = i

/-- What the versions of a transaction have to satisfy when it commits; the tables that it has not
written ask for nothing. -/
structure Lawful (G : Scope) (db : DB) (δ : Versions) : Prop where
  links : Links (db.overlay δ)
  posted : ∀ t ∈ δ.ledger.transactions, t.status = .posted := by
    exact fun _ h => absurd h List.not_mem_nil
  keys : ∀ t ∈ δ.ledger.transactions,
    t.idempotencyKey.toList.head? = some t.kind.initial := by
    exact fun _ h => absurd h List.not_mem_nil
  purpose : ∀ t ∈ δ.ledger.transactions, Purpose (db.overlay δ) t := by
    exact fun _ h => absurd h List.not_mem_nil
  solvent : ∀ a ∈ (db.overlay δ).ledger.accounts, a.ownerType = .account →
    0 ≤ (db.overlay δ).ledger.movements a.id
  orders : ∀ o ∈ δ.rechargeOrders, OrderOk (db.overlay δ) o := by
    exact fun _ h => absurd h List.not_mem_nil
  settled : ∀ o ∈ δ.rechargeOrders, ∀ o₀ ∈ db.rechargeOrders, o₀.id = o.id → o₀.status.settled →
    o.status.settled ∧ o.ledgerTransactionId = o₀.ledgerTransactionId := by
    exact fun _ h => absurd h List.not_mem_nil
  purchases : ∀ p ∈ δ.purchases, ∃ t ∈ (db.overlay δ).ledger.transactions,
    ∃ m ∈ (db.overlay δ).memberships, Purchased (db.overlay δ) p t m := by
    exact fun _ h => absurd h List.not_mem_nil
  bought : ∀ m ∈ δ.memberships, m.source = "wallet_purchase" →
    ∃ p ∈ (db.overlay δ).purchases, p.membershipId = m.id := by
    exact fun _ h => absurd h List.not_mem_nil
  plans : ∀ m ∈ δ.memberships, ∃ p ∈ db.config.membershipPlans, p.id = m.planId := by
    exact fun _ h => absurd h List.not_mem_nil
  stored : ∀ m ∈ δ.memberships, Sakura.stored m.expiresAt = m.expiresAt := by
    exact fun _ h => absurd h List.not_mem_nil
  refundOrders : ∀ r ∈ δ.rechargeRefunds,
    ∃ o ∈ (db.overlay δ).rechargeOrders, o.id = r.orderId := by
    exact fun _ h => absurd h List.not_mem_nil
  refunds : ∀ o ∈ (db.overlay δ).rechargeOrders, G.refunds o.id →
    (o ∈ δ.rechargeOrders ∨ ∃ r ∈ δ.rechargeRefunds, r.orderId = o.id) →
      RefundsOk (db.overlay δ) o := by
    exact fun _ _ _ h => absurd h fun h => h.elim List.not_mem_nil fun ⟨_, h, _⟩ => List.not_mem_nil h
  grants : ∀ i, G.grants i → ∃ m ∈ (db.overlay δ).memberships, m.current ∧ m.accountId = i

/-! ## Old rows in the new tables -/

section Frame

variable {G : Scope} {L : Held Lock} {db : DB} {δ : Versions}

/-- No entry is added to a committed transaction. -/
theorem Respects.entriesOf (hr : Respects L db δ) {t : LedgerTransaction}
    (ht : t ∈ db.ledger.transactions) :
    (db.overlay δ).ledger.entriesOf t.id = db.ledger.entriesOf t.id := by
  show List.filter _ (db.ledger.entries ++ δ.ledger.entries) = _
  have hno : δ.ledger.entries.filter (·.transactionId = t.id) = [] := by
    refine List.filter_eq_nil_iff.2 fun e he hid => ?_
    obtain ⟨u, hu, huid⟩ := hr.entryTransaction e he
    exact (hr.transactions.fresh hu).1 t ht ((of_decide_eq_true hid).symm.trans huid.symm)
  rw [List.filter_append, hno, List.append_nil]
  rfl

theorem Respects.mem_accounts (hr : Respects L db δ) {a : LedgerAccount}
    (ha : a ∈ db.ledger.accounts) : a ∈ (db.overlay δ).ledger.accounts :=
  hr.accounts.mem_overlay ha id

theorem Respects.mem_transactions (hr : Respects L db δ) {t : LedgerTransaction}
    (ht : t ∈ db.ledger.transactions) : t ∈ (db.overlay δ).ledger.transactions :=
  hr.transactions.mem_overlay ht id

theorem Respects.mem_refunds (hr : Respects L db δ) {r : RechargeRefund}
    (h : r ∈ db.rechargeRefunds) : r ∈ (db.overlay δ).rechargeRefunds :=
  hr.refunds.mem_overlay h id

theorem Respects.mem_purchases (hr : Respects L db δ) {p : MembershipPurchaseRow}
    (h : p ∈ db.purchases) : p ∈ (db.overlay δ).purchases :=
  hr.purchases.mem_overlay h id

theorem Ledger.Moves.overlay (hr : Respects L db δ) {t : LedgerTransaction}
    (ht : t ∈ db.ledger.transactions) {debit credit : OwnerType × String × String × String}
    {amount : Int64} (h : db.ledger.Moves t debit credit amount) :
    (db.overlay δ).ledger.Moves t debit credit amount := by
  obtain ⟨d, hd, c, hc, hdk, hck, he⟩ := h
  exact ⟨d, hr.mem_accounts hd, c, hr.mem_accounts hc, hdk, hck, by rw [hr.entriesOf ht]; exact he⟩

/-- A recharge stays the recharge of its order, whatever becomes of the order. -/
theorem Recharged.overlay (hr : Respects L db δ) {o o' : RechargeOrderRow} {t : LedgerTransaction}
    (ht : t ∈ db.ledger.transactions) (h : Recharged db o t) (hid : o'.id = o.id)
    (hs : sameOrder o o') (hset : o'.status.settled)
    (htx : o'.ledgerTransactionId = o.ledgerTransactionId) : Recharged (db.overlay δ) o' t where
  settled := hset
  transaction := htx.trans h.transaction
  kind := h.kind
  referenceType := h.referenceType
  referenceId := by rw [hid]; exact h.referenceId
  moves := by
    obtain ⟨hacc, -, -, -, hgrant, hcur⟩ := hs
    rw [hacc, hgrant, hcur]
    exact h.moves.overlay hr ht

/-- So does the payment of a purchase, whatever becomes of the membership. -/
theorem Purchased.overlay (hr : Respects L db δ) {p : MembershipPurchaseRow} {t : LedgerTransaction}
    {m m' : AccountMembership} (ht : t ∈ db.ledger.transactions) (h : Purchased db p t m)
    (hm : expires m m') : Purchased (db.overlay δ) p t m' := by
  rcases hm with rfl | rfl
  · exact { h with moves := h.moves.overlay hr ht }
  · exact { h with moves := h.moves.overlay hr ht }

theorem expires_refl (m : AccountMembership) : expires m m := Or.inl rfl

theorem sameOrder_refl (o : RechargeOrderRow) : sameOrder o o := ⟨rfl, rfl, rfl, rfl, rfl, rfl⟩

/-- Some version of a committed membership is in the new table. -/
theorem Respects.membership_version (hdb : db.WellFormed) (hr : Respects L db δ)
    {m : AccountMembership} (hm : m ∈ db.memberships) :
    ∃ m' ∈ (db.overlay δ).memberships, m'.id = m.id ∧ expires m m' :=
  hr.memberships.version_overlay expires_refl hdb.membershipIds hm

/-- Some version of a committed order is in the new table. -/
theorem Respects.order_version (hdb : db.WellFormed) (hr : Respects L db δ)
    {o : RechargeOrderRow} (ho : o ∈ db.rechargeOrders) :
    ∃ o' ∈ (db.overlay δ).rechargeOrders, o'.id = o.id ∧ sameOrder o o' :=
  hr.orders.version_overlay sameOrder_refl hdb.orderIds ho

/-- The purpose of a committed transaction survives a lawful commit. -/
theorem Purpose.overlay (hdb : db.WellFormed) (hr : Respects L db δ)
    (hset : ∀ o ∈ δ.rechargeOrders, ∀ o₀ ∈ db.rechargeOrders, o₀.id = o.id → o₀.status.settled →
      o.status.settled ∧ o.ledgerTransactionId = o₀.ledgerTransactionId)
    {t : LedgerTransaction} (ht : t ∈ db.ledger.transactions) (h : Purpose db t) :
    Purpose (db.overlay δ) t := by
  unfold Purpose at h ⊢
  split at h
  · obtain ⟨o, ho, hro⟩ := h
    obtain ⟨o', ho', hid, hs⟩ := hr.order_version hdb ho
    refine ⟨o', ho', ?_⟩
    rcases mem_overlay.1 ho' with ⟨ho', -⟩ | hδ
    · cases hdb.orderIds.eq ho' ho hid
      exact hro.overlay hr ht rfl hs hro.settled rfl
    · obtain ⟨h₁, h₂⟩ := hset o' hδ o ho hid.symm hro.settled
      exact hro.overlay hr ht hid hs h₁ h₂
  · obtain ⟨r, hr', hid⟩ := h
    exact ⟨r, hr.mem_refunds hr', hid⟩
  · trivial
  · obtain ⟨p, hp, m, hm, hpm⟩ := h
    obtain ⟨m', hm', -, hex⟩ := hr.membership_version hdb hm
    exact ⟨p, hr.mem_purchases hp, m', hm', hpm.overlay hr ht hex⟩
  · exact h

/-- **A lawful commit keeps the invariant.** -/
theorem Lawful.inv (hl : Lawful G db δ) (h : Inv G db) (hr : Respects L db δ) :
    Inv G (db.overlay δ) where
  wellFormed := hr.wellFormed h.wellFormed
  links := hl.links
  posted t ht := by
    rcases mem_overlay.1 ht with ⟨ht, -⟩ | ht
    · exact h.posted t ht
    · exact hl.posted t ht
  keys t ht := by
    rcases mem_overlay.1 ht with ⟨ht, -⟩ | ht
    · exact h.keys t ht
    · exact hl.keys t ht
  purpose t ht := by
    rcases mem_overlay.1 ht with ⟨ht, -⟩ | ht
    · exact (h.purpose t ht).overlay h.wellFormed hr hl.settled ht
    · exact hl.purpose t ht
  solvent a ha ho := by
    rw [(hr.wellFormed h.wellFormed).balance_eq fun t ht => ?_]
    · exact hl.solvent a ha ho
    · rcases mem_overlay.1 ht with ⟨ht, -⟩ | ht
      · exact h.posted t ht
      · exact hl.posted t ht
  orders o ho := by
    rcases mem_overlay.1 ho with ⟨ho, -⟩ | ho
    · obtain ⟨hp, hprice, hgrant, hset⟩ := h.orders o ho
      refine ⟨hp, hprice, hgrant, fun hs => ?_⟩
      obtain ⟨t, ht, hro⟩ := hset hs
      exact ⟨t, hr.mem_transactions ht, hro.overlay hr ht rfl (sameOrder_refl o) hs rfl⟩
    · exact hl.orders o ho
  purchases p hp := by
    rcases mem_overlay.1 hp with ⟨hp, -⟩ | hp
    · obtain ⟨t, ht, m, hm, hpm⟩ := h.purchases p hp
      obtain ⟨m', hm', -, hex⟩ := hr.membership_version h.wellFormed hm
      exact ⟨t, hr.mem_transactions ht, m', hm', hpm.overlay hr ht hex⟩
    · exact hl.purchases p hp
  bought m hm hs := by
    rcases mem_overlay.1 hm with ⟨hm, -⟩ | hm
    · obtain ⟨p, hp, hid⟩ := h.bought m hm hs
      exact ⟨p, hr.mem_purchases hp, hid⟩
    · exact hl.bought m hm hs
  plans m hm := by
    rcases mem_overlay.1 hm with ⟨hm, -⟩ | hm
    · exact h.plans m hm
    · exact hl.plans m hm
  stored m hm := by
    rcases mem_overlay.1 hm with ⟨hm, -⟩ | hm
    · exact h.stored m hm
    · exact hl.stored m hm
  refundOrders r hr' := by
    rcases mem_overlay.1 hr' with ⟨hr', -⟩ | hr'
    · obtain ⟨o, ho, hid⟩ := h.refundOrders r hr'
      obtain ⟨o', ho', hid', -⟩ := hr.order_version h.wellFormed ho
      exact ⟨o', ho', hid'.trans hid⟩
    · exact hl.refundOrders r hr'
  refunds o ho hG := by
    by_cases hn : o ∈ δ.rechargeOrders ∨ ∃ r ∈ δ.rechargeRefunds, r.orderId = o.id
    · exact hl.refunds o ho hG hn
    · -- neither the order nor its refunds have changed
      have ho' : o ∈ db.rechargeOrders := by
        rcases mem_overlay.1 ho with ⟨ho, -⟩ | ho
        · exact ho
        · exact absurd (Or.inl ho) hn
      have hsame : refundsOf (db.overlay δ) o.id = refundsOf db o.id := by
        rw [hr.refundsOf_overlay, List.filter_eq_nil_iff.2, List.append_nil]
        exact fun r hr' e => hn (Or.inr ⟨r, hr', of_decide_eq_true e⟩)
      exact (h.refunds o ho' hG).of_refundsOf hsame
  grants := hl.grants

end Frame

/-! ## The discipline -/

/-- The days by which an event extends the membership of an account. -/
def granted (accountID : UUID) : Event → Int
  | .purchase _ i d | .grant i d | .batchItem _ (some (i, d)) =>
    if i = accountID then d.toInt else 0
  | _ => 0

/-- The membership of each account of the scope is extended by what the event grants. -/
def Extends (G : Scope) (db : DB) (e : Event) (db' : DB) : Prop :=
  ∀ i, G.grants i → ∀ m ∈ db.memberships, m.current → m.accountId = i →
    ∃ m' ∈ db'.memberships, m'.current ∧ m'.accountId = i ∧
      m.expiresAt + granted i e * dayNanos ≤ m'.expiresAt

/-- The runs that the further invariants of the scope hold of: a locking read of a current
membership finds it still current when it has got the row, and the sums that a refund adds its
amounts to do not both overflow. -/
def Scope.allows (G : Scope) : Site → DB → Prop
  | .currentMembership i id, v =>
    G.grants i → ∃ m ∈ v.memberships, m.id = id ∧ m.accountId = i ∧ m.current
  | .usedRefunds o w x, v =>
    G.refunds o → usedWallet v o + w.toInt < 2 ^ 63 ∨ usedExternal v o + x.toInt < 2 ^ 63
  | _, _ => True

theorem Extends.none {G : Scope} {db : DB} {e : Event} {δ : Versions}
    (he : ∀ i, granted i e = 0) (hm : δ.memberships = []) : Extends G db e (db.overlay δ) := by
  intro i _ m hmem hcur hacc
  refine ⟨m, ?_, hcur, hacc, ?_⟩
  · show m ∈ Txn.overlay _ _ _
    rw [hm, overlay_nil]; exact hmem
  · exact Int.le_of_eq (by rw [he, Int.zero_mul, Int.add_zero])

def discipline (G : Scope) : Discipline Site DB Lock Event where
  inv := Inv G
  step L db e db' := ∃ δ, db' = db.overlay δ ∧ Respects L db δ ∧ Inv G db' ∧ Extends G db e db'
  allowed := G.allows
  step_inv := fun _ ⟨_, _, _, h, _⟩ => h

end Sakura
