/-
  What the locks of a transaction protect.

  * `DB.WellFormed`: the unique indexes and foreign keys that the proofs use;
  * `Respects`: the versions of a transaction are new under locked index entries, or change rows that
    it has locked; movements on a wallet are made by the holder of the wallet;
  * `Respects.overlay`: this survives the commits of transactions whose locks do not exclude these;
  * `Respects.movements_held`, `Respects.refunds_held`, `Respects.currents_held`: what the holder of a
    wallet, an order or the index entry of a membership has read stays true.
-/
import Sakura.Wallet
import Sakura.Commerce
import Sakura.Txn.Versions

namespace Sakura

open Txn

/-- An exclusive lock. -/
def Holds (L : Held Lock) (k : Lock) : Prop := (k, Mode.exclusive) ∈ L

theorem Holds.not_holds {L M : Held Lock} {k : Lock} (h : Holds L k) (hc : Compatible L M) :
    ¬Holds M k :=
  hc.not_mem h

theorem Holds.mono {L M : Held Lock} (hLM : L ⊆ M) {k : Lock} (h : Holds L k) : Holds M k := hLM h

/-! ## Rows that keep their identity -/

def sameWallet (w w' : Wallet) : Prop :=
  w'.accountId = w.accountId ∧ w'.ledgerAccountId = w.ledgerAccountId ∧ w'.currency = w.currency

/-- The columns of an order that no statement updates. -/
def sameOrder (o o' : RechargeOrderRow) : Prop :=
  o'.accountId = o.accountId ∧ o'.productId = o.productId ∧ o'.provider = o.provider ∧
    o'.priceMinor = o.priceMinor ∧ o'.grantAmount = o.grantAmount ∧
    o'.walletCurrency = o.walletCurrency

/-- A membership is only ever expired. -/
def expires (m m' : AccountMembership) : Prop := m' = m ∨ m' = { m with status := .expired }

def currentOf (ms : List AccountMembership) : List AccountMembership :=
  ms.filter AccountMembership.current

def Wallet.key (w : Wallet) : UUID × String := (w.accountId, w.currency)

/-! ## Well-formed tables -/

structure DB.WellFormed (db : DB) : Prop where
  accountIds : UniqueBy LedgerAccount.id db.ledger.accounts
  accountKeys : UniqueBy LedgerAccount.key db.ledger.accounts
  transactionIds : UniqueBy LedgerTransaction.id db.ledger.transactions
  transactionKeys : UniqueBy LedgerTransaction.idempotencyKey db.ledger.transactions
  entryTransaction : ∀ e ∈ db.ledger.entries, ∃ t ∈ db.ledger.transactions, t.id = e.transactionId
  entryAccount : ∀ e ∈ db.ledger.entries, ∃ a ∈ db.ledger.accounts, a.id = e.ledgerAccountId
  walletIds : UniqueBy Wallet.id db.wallets
  walletKeys : UniqueBy Wallet.key db.wallets
  orderIds : UniqueBy RechargeOrderRow.id db.rechargeOrders
  refundIds : UniqueBy RechargeRefund.id db.rechargeRefunds
  purchaseIds : UniqueBy MembershipPurchaseRow.id db.purchases
  purchaseKeys : UniqueBy MembershipPurchaseRow.idempotencyKey db.purchases
  membershipIds : UniqueBy AccountMembership.id db.memberships
  currents : UniqueBy AccountMembership.accountId (currentOf db.memberships)

/-- The wallet of an account is locked, by its row or, before it exists, by its index entry. -/
def HoldsWallet (L : Held Lock) (db : DB) (accountID : UUID) (currency : String) : Prop :=
  (∃ w ∈ db.wallets, w.key = (accountID, currency) ∧ Holds L (.row .wallets w.id)) ∨
    (∀ w ∈ db.wallets, w.key ≠ (accountID, currency)) ∧
      Holds L (.index (.wallet accountID currency))

/-! ## Versions under locks -/

/-- The versions `δ` of a transaction that holds `L`, over the tables `db`. -/
structure Respects (L : Held Lock) (db : DB) (δ : Versions) : Prop where
  accounts : Versioned LedgerAccount.id (fun id => Holds L (.ledger (.accountId id)))
    (fun _ => False) (fun _ _ => True) db.ledger.accounts δ.ledger.accounts
  accountKeys : Indexed LedgerAccount.id LedgerAccount.key
    (fun k => Holds L (.ledger (.accountKey k))) db.ledger.accounts δ.ledger.accounts
  transactions : Versioned LedgerTransaction.id (fun id => Holds L (.ledger (.transactionId id)))
    (fun _ => False) (fun _ _ => True) db.ledger.transactions δ.ledger.transactions
  transactionKeys : Indexed LedgerTransaction.id LedgerTransaction.idempotencyKey
    (fun k => Holds L (.ledger (.idempotencyKey k))) db.ledger.transactions δ.ledger.transactions
  entryTransaction : ∀ e ∈ δ.ledger.entries,
    ∃ t ∈ δ.ledger.transactions, t.id = e.transactionId
  entryAccount : ∀ e ∈ δ.ledger.entries, ∃ a, (a ∈ db.ledger.accounts ∨ a ∈ δ.ledger.accounts) ∧
    a.id = e.ledgerAccountId ∧ ∀ i c, a.key = walletKey i c → HoldsWallet L db i c
  wallets : Versioned Wallet.id (fun id => Holds L (.index (.walletId id)))
    (fun id => Holds L (.row .wallets id)) sameWallet db.wallets δ.wallets
  walletKeys : Indexed Wallet.id Wallet.key (fun k => Holds L (.index (.wallet k.1 k.2)))
    db.wallets δ.wallets
  orders : Versioned RechargeOrderRow.id (fun id => Holds L (.index (.orderId id)))
    (fun id => Holds L (.row .rechargeOrders id)) sameOrder db.rechargeOrders δ.rechargeOrders
  refunds : Versioned RechargeRefund.id (fun id => Holds L (.index (.refundId id)))
    (fun _ => False) (fun _ _ => True) db.rechargeRefunds δ.rechargeRefunds
  refundOrders : ∀ r ∈ δ.rechargeRefunds, Holds L (.row .rechargeOrders r.orderId)
  purchases : Versioned MembershipPurchaseRow.id (fun id => Holds L (.index (.purchaseId id)))
    (fun _ => False) (fun _ _ => True) db.purchases δ.purchases
  purchaseKeys : Indexed MembershipPurchaseRow.id MembershipPurchaseRow.idempotencyKey
    (fun k => Holds L (.index (.purchaseKey k))) db.purchases δ.purchases
  memberships : Versioned AccountMembership.id (fun id => Holds L (.index (.membershipId id)))
    (fun id => Holds L (.row .memberships id)) expires db.memberships δ.memberships
  currents : UniqueBy AccountMembership.accountId (currentOf δ.memberships)
  currentLock : ∀ m ∈ δ.memberships, m.current →
    Holds L (.index (.currentMembership m.accountId)) ∧
      ∀ m₀ ∈ db.memberships, m₀.current → m₀.accountId = m.accountId →
        ∃ m₁ ∈ δ.memberships, m₁.id = m₀.id

theorem Respects.none {L : Held Lock} {db : DB} : Respects L db {} where
  accounts := .nil
  accountKeys := .nil
  transactions := .nil
  transactionKeys := .nil
  entryTransaction _ h := by cases h
  entryAccount _ h := by cases h
  wallets := .nil
  walletKeys := .nil
  orders := .nil
  refunds := .nil
  refundOrders _ h := by cases h
  purchases := .nil
  purchaseKeys := .nil
  memberships := .nil
  currents := uniqueBy_nil
  currentLock _ h := by cases h

theorem HoldsWallet.mono {L M : Held Lock} (hLM : L ⊆ M) {db : DB} {i : UUID} {c : String}
    (h : HoldsWallet L db i c) : HoldsWallet M db i c :=
  h.imp (fun ⟨w, hw, hk, hl⟩ => ⟨w, hw, hk, hLM hl⟩) fun ⟨hn, hl⟩ => ⟨hn, hLM hl⟩

theorem Respects.mono {L M : Held Lock} (hLM : L ⊆ M) {db : DB} {δ : Versions}
    (h : Respects L db δ) : Respects M db δ where
  accounts := h.accounts.mono (fun _ => Holds.mono hLM) fun _ => id
  accountKeys := h.accountKeys.mono fun _ => Holds.mono hLM
  transactions := h.transactions.mono (fun _ => Holds.mono hLM) fun _ => id
  transactionKeys := h.transactionKeys.mono fun _ => Holds.mono hLM
  entryTransaction := h.entryTransaction
  entryAccount e he := by
    obtain ⟨a, ha, hid, hw⟩ := h.entryAccount e he
    exact ⟨a, ha, hid, fun i c hk => (hw i c hk).mono hLM⟩
  wallets := h.wallets.mono (fun _ => Holds.mono hLM) fun _ => Holds.mono hLM
  walletKeys := h.walletKeys.mono fun _ => Holds.mono hLM
  orders := h.orders.mono (fun _ => Holds.mono hLM) fun _ => Holds.mono hLM
  refunds := h.refunds.mono (fun _ => Holds.mono hLM) fun _ => id
  refundOrders r hr := (h.refundOrders r hr).mono hLM
  purchases := h.purchases.mono (fun _ => Holds.mono hLM) fun _ => id
  purchaseKeys := h.purchaseKeys.mono fun _ => Holds.mono hLM
  memberships := h.memberships.mono (fun _ => Holds.mono hLM) fun _ => Holds.mono hLM
  currents := h.currents
  currentLock m hm hc := ⟨(h.currentLock m hm hc).1.mono hLM, (h.currentLock m hm hc).2⟩

variable {L M : Held Lock} {db : DB} {δ δ' : Versions}

/-! ## Interference -/

theorem HoldsWallet.overlay {i : UUID} {c : String} (h : HoldsWallet L db i c)
    (h' : Respects M db δ') (hc : Compatible L M) : HoldsWallet L (db.overlay δ') i c := by
  rcases h with ⟨w, hw, hk, hl⟩ | ⟨hn, hl⟩
  · exact Or.inl ⟨w, h'.wallets.mem_overlay hw (hl.not_holds hc), hk, hl⟩
  · exact Or.inr ⟨h'.walletKeys.fresh_overlay hn (hl.not_holds hc), hl⟩

/-- Two transactions do not hold one wallet. -/
theorem HoldsWallet.not_holds (hdb : db.WellFormed) {i : UUID} {c : String}
    (h : HoldsWallet L db i c) (hc : Compatible L M) : ¬HoldsWallet M db i c := by
  rintro (⟨w', hw', hk', hl'⟩ | ⟨hn', hl'⟩) <;> rcases h with ⟨w, hw, hk, hl⟩ | ⟨hn, hl⟩
  · rw [hdb.walletKeys.eq hw hw' (hk.trans hk'.symm)] at hl
    exact hl.not_holds hc hl'
  · exact hn w' hw' hk'
  · exact hn' w hw hk
  · exact hl.not_holds hc hl'

/-- **Interference**: versions under locks stay so when the others commit theirs. -/
theorem Respects.overlay (h : Respects L db δ) (h' : Respects M db δ') (hc : Compatible L M) :
    Respects L (db.overlay δ') δ where
  accounts := h.accounts.overlay h'.accounts (fun _ hl => hl.not_holds hc) fun _ => False.elim
  accountKeys := h.accountKeys.overlay h.accounts h'.accountKeys h'.accounts
    (fun _ hl => hl.not_holds hc) fun _ => False.elim
  transactions := h.transactions.overlay h'.transactions (fun _ hl => hl.not_holds hc)
    fun _ => False.elim
  transactionKeys := h.transactionKeys.overlay h.transactions h'.transactionKeys h'.transactions
    (fun _ hl => hl.not_holds hc) fun _ => False.elim
  entryTransaction := h.entryTransaction
  entryAccount e he := by
    obtain ⟨a, ha, hid, hw⟩ := h.entryAccount e he
    exact ⟨a, ha.imp_left fun ha => h'.accounts.mem_overlay ha id, hid,
      fun i c hk => (hw i c hk).overlay h' hc⟩
  wallets := h.wallets.overlay h'.wallets (fun _ hl => hl.not_holds hc) fun _ hl => hl.not_holds hc
  walletKeys := h.walletKeys.overlay h.wallets h'.walletKeys h'.wallets
    (fun _ hl => hl.not_holds hc) fun _ hl => hl.not_holds hc
  orders := h.orders.overlay h'.orders (fun _ hl => hl.not_holds hc) fun _ hl => hl.not_holds hc
  refunds := h.refunds.overlay h'.refunds (fun _ hl => hl.not_holds hc) fun _ => False.elim
  refundOrders := h.refundOrders
  purchases := h.purchases.overlay h'.purchases (fun _ hl => hl.not_holds hc) fun _ => False.elim
  purchaseKeys := h.purchaseKeys.overlay h.purchases h'.purchaseKeys h'.purchases
    (fun _ hl => hl.not_holds hc) fun _ => False.elim
  memberships := h.memberships.overlay h'.memberships (fun _ hl => hl.not_holds hc)
    fun _ hl => hl.not_holds hc
  currents := h.currents
  currentLock m hm hcur := by
    obtain ⟨hl, hall⟩ := h.currentLock m hm hcur
    refine ⟨hl, fun m₀ hm₀ hcur₀ hacc => ?_⟩
    rcases mem_overlay.1 hm₀ with ⟨hm₀, -⟩ | hm₀
    · exact hall m₀ hm₀ hcur₀ hacc
    · exact absurd (hacc ▸ (h'.currentLock m₀ hm₀ hcur₀).1) (hl.not_holds hc)

/-- Committing versions under locks keeps the tables well formed. -/
theorem Respects.wellFormed (hdb : db.WellFormed) (h : Respects L db δ) :
    (db.overlay δ).WellFormed where
  accountIds := h.accounts.uniqueBy hdb.accountIds
  accountKeys := h.accountKeys.uniqueBy hdb.accountKeys
  transactionIds := h.transactions.uniqueBy hdb.transactionIds
  transactionKeys := h.transactionKeys.uniqueBy hdb.transactionKeys
  entryTransaction e he := by
    rcases List.mem_append.1 he with he | he
    · obtain ⟨t, ht, hid⟩ := hdb.entryTransaction e he
      exact ⟨t, h.transactions.mem_overlay ht id, hid⟩
    · obtain ⟨t, ht, hid⟩ := h.entryTransaction e he
      exact ⟨t, mem_overlay_right ht, hid⟩
  entryAccount e he := by
    rcases List.mem_append.1 he with he | he
    · obtain ⟨a, ha, hid⟩ := hdb.entryAccount e he
      exact ⟨a, h.accounts.mem_overlay ha id, hid⟩
    · obtain ⟨a, ha | ha, hid, -⟩ := h.entryAccount e he
      · exact ⟨a, h.accounts.mem_overlay ha id, hid⟩
      · exact ⟨a, mem_overlay_right ha, hid⟩
  walletIds := h.wallets.uniqueBy hdb.walletIds
  walletKeys := h.walletKeys.uniqueBy hdb.walletKeys
  orderIds := h.orders.uniqueBy hdb.orderIds
  refundIds := h.refunds.uniqueBy hdb.refundIds
  purchaseIds := h.purchases.uniqueBy hdb.purchaseIds
  purchaseKeys := h.purchaseKeys.uniqueBy hdb.purchaseKeys
  membershipIds := h.memberships.uniqueBy hdb.membershipIds
  currents := by
    have hsplit : currentOf (db.overlay δ).memberships =
        (Txn.overlay AccountMembership.id db.memberships δ.memberships).filter
          AccountMembership.current := rfl
    rw [hsplit, Txn.overlay, List.filter_append]
    unfold UniqueBy
    rw [List.map_append]
    refine List.Nodup.append ?_ h.currents ?_
    · refine List.Sublist.nodup (List.Sublist.map _ ?_) hdb.currents
      exact List.Sublist.filter _ List.filter_sublist
    · intro i hi hi'
      obtain ⟨m₀, hm₀, rfl⟩ := List.mem_map.1 hi
      obtain ⟨m, hm, hacc⟩ := List.mem_map.1 hi'
      obtain ⟨hm₀, hc₀⟩ := List.mem_filter.1 hm₀
      obtain ⟨hm₀, hno⟩ := List.mem_filter.1 hm₀
      obtain ⟨hm, hcm⟩ := List.mem_filter.1 hm
      obtain ⟨m₁, hm₁, hid⟩ := (h.currentLock m hm hcm).2 m₀ hm₀ hc₀ hacc.symm
      simp only [List.mem_map, not_exists, not_and, decide_eq_true_eq] at hno
      exact hno m₁ hm₁ hid

/-! ## What a lock keeps -/

/-- Credits minus debits on an account, over all entries. -/
def Ledger.movements (K : Ledger) (accountId : UUID) : Int :=
  ((K.entries.filter (·.ledgerAccountId = accountId)).map LedgerEntry.signed).sum

@[simp] theorem Ledger.movements_overlay (K δ : Ledger) (id : UUID) :
    (K.overlay δ).movements id = K.movements id + δ.movements id := by
  simp [movements, Ledger.overlay]

/-- Where every transaction is posted, all entries count. -/
theorem DB.WellFormed.balance_eq (hdb : db.WellFormed)
    (hp : ∀ t ∈ db.ledger.transactions, t.status = .posted) (id : UUID) :
    db.ledger.balance id = db.ledger.movements id := by
  unfold Ledger.balance Ledger.movements
  congr 2
  refine List.filter_congr fun e he => ?_
  obtain ⟨t, ht, hid⟩ := hdb.entryTransaction e he
  have : db.ledger.isPosted e.transactionId = true :=
    List.any_eq_true.2 ⟨t, ht, by simp [hid, hp t ht]⟩
  simp [this]

/-- Nobody else moves anything on a wallet that is held. -/
theorem Respects.movements_held (hdb : db.WellFormed) (h : Respects L db δ) (h' : Respects M db δ')
    (hc : Compatible L M) {a : LedgerAccount} (ha : a ∈ db.ledger.accounts ∨ a ∈ δ.ledger.accounts)
    {i : UUID} {c : String} (hk : a.key = walletKey i c) (hw : HoldsWallet L db i c) :
    δ'.ledger.movements a.id = 0 := by
  have hno : ∀ e ∈ δ'.ledger.entries, e.ledgerAccountId ≠ a.id := by
    intro e he hid
    obtain ⟨b, hb, hbid, hbw⟩ := h'.entryAccount e he
    have hab : b.id = a.id := hbid.trans hid
    rcases ha with ha | ha <;> rcases hb with hb | hb
    · cases hdb.accountIds.eq hb ha hab
      exact hw.not_holds hdb hc (hbw i c hk)
    · exact (h'.accounts.fresh hb).1 a ha hab.symm
    · exact (h.accounts.fresh ha).1 b hb hab
    · exact (h.accounts.fresh ha).2.not_holds hc (hab ▸ (h'.accounts.fresh hb).2)
  have : δ'.ledger.entries.filter (·.ledgerAccountId = a.id) = [] :=
    List.filter_eq_nil_iff.2 fun e he => by simpa using hno e he
  simp [Ledger.movements, this]

theorem Respects.refundsOf_overlay (h : Respects L db δ) (orderID : UUID) :
    refundsOf (db.overlay δ) orderID =
      refundsOf db orderID ++ δ.rechargeRefunds.filter (·.orderId = orderID) := by
  show List.filter _ (Txn.overlay _ _ _) = _
  rw [h.refunds.overlay_append, List.filter_append]
  rfl

/-- Nobody else refunds an order that is held. -/
theorem Respects.refunds_held (h' : Respects M db δ') (hc : Compatible L M) {orderID : UUID}
    (hl : Holds L (.row .rechargeOrders orderID)) :
    refundsOf (db.overlay δ') orderID = refundsOf db orderID := by
  rw [h'.refundsOf_overlay, List.filter_eq_nil_iff.2, List.append_nil]
  intro r hr e
  exact hl.not_holds hc (of_decide_eq_true e ▸ h'.refundOrders r hr)

/-- Nobody else gives a current membership to an account whose index entry is held. -/
theorem Respects.currents_held (h' : Respects M db δ') (hc : Compatible L M) {accountID : UUID}
    (hl : Holds L (.index (.currentMembership accountID))) {m : AccountMembership}
    (hm : m ∈ (db.overlay δ').memberships) (hcur : m.current) (hacc : m.accountId = accountID) :
    m ∈ db.memberships := by
  rcases mem_overlay.1 hm with ⟨hm, -⟩ | hm
  · exact hm
  · exact absurd (hacc ▸ (h'.currentLock m hm hcur).1) (hl.not_holds hc)

end Sakura
