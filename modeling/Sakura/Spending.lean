/-
  Wallets, and the memberships bought from them.

  * `wallets_never_negative`: no debit, however it interleaves with others, overdraws a wallet;
  * `payments`, `boughtMemberships`: the transactions and memberships of purchases;
  * `purchase_charged_and_granted_once`: they correspond one to one.
-/
import Sakura.Proof.Runs

namespace Sakura

open Txn

variable {G : Scope} {db : DB} {ι : Type} [DecidableEq ι] {calls : ι → Request} {s : Running ι}

/-! ## Balances -/

/-- **No wallet goes negative.**  In every interleaving of orders, payments, refunds, adjustments and
purchases, with any amounts, the posted balance of each ledger account that an account owns is at
least 0. -/
theorem wallets_never_negative (h₀ : db.Initial) (h : Run calls (.over ι db) s) :
    ∀ a ∈ s.db.ledger.accounts, a.ownerType = .account → 0 ≤ s.db.ledger.balance a.id :=
  (Run.sound h₀ h).inv.solvent

def admin : Actor := ⟨"admin", "root"⟩

/-- An adjustment of the wallet of the shop's account. -/
def adjustCall (fresh : Fresh) (amount : Int64) (key : String) : Request :=
  .adjustWallet fresh (idOf '1') amount "" "correction" key admin

/-- Two points are given and, twice at the same time, taken away. -/
def twoDebits : Fin 3 → Request
  | 0 => adjustCall (freshOf '5' '6' '7' '8' '0' '0' 0) 2 "a"
  | 1 => adjustCall (freshOf '0' '9' '0' 'a' '0' '0' 1) (-2) "b"
  | 2 => adjustCall (freshOf '0' 'b' '0' 'c' '0' '0' 2) (-2) "c"

def twoDebitsSchedule : List (Fin 3) :=
  List.replicate 21 0 ++ List.replicate 14 1 ++ List.replicate 7 2 ++ List.replicate 8 1 ++
    List.replicate 7 2

theorem wallets_never_negative_twoDebits :
    ∃ s, Run twoDebits (.over (Fin 3) (shop [])) s ∧
      (s.db.ledger.transactions.length = 2 ∧ s.db.ledger.balance (idOf '5') = 0) ∧
      ∀ a ∈ s.db.ledger.accounts, a.ownerType = .account → 0 ≤ s.db.ledger.balance a.id := by
  obtain ⟨s, hs, hf⟩ := replay_any [0, 1, 2] (by decide) (fun i => (twoDebits i).call)
    (fun _ _ => True) twoDebitsSchedule (Running.over (Fin 3) (shop []))
    (fun s => decide (s.db.ledger.transactions.length = 2 ∧ s.db.ledger.balance (idOf '5') = 0))
    (by decide +kernel)
  exact ⟨s, hs, of_decide_eq_true hf, wallets_never_negative shop_initial hs⟩

/-! ## Purchases -/

/-- The posted ledger transactions of kind `membership_purchase`. -/
def payments (db : DB) : List LedgerTransaction :=
  db.ledger.transactions.filter fun t => t.status = .posted && t.kind = .membershipPurchase

/-- The memberships with source `wallet_purchase`. -/
def boughtMemberships (db : DB) : List AccountMembership :=
  db.memberships.filter (·.source = "wallet_purchase")

theorem Inv.mem_payments (h : Inv G db) {t : LedgerTransaction} :
    t ∈ payments db ↔ ∃ p ∈ db.purchases, ∃ m ∈ db.memberships,
      t ∈ db.ledger.transactions ∧ Purchased db p t m := by
  simp only [payments, List.mem_filter, Bool.and_eq_true, decide_eq_true_eq]
  constructor
  · rintro ⟨ht, -, hk⟩
    have hp := h.purpose t ht
    rw [Purpose, hk] at hp
    obtain ⟨p, hp, m, hm, hpm⟩ := hp
    exact ⟨p, hp, m, hm, ht, hpm⟩
  · rintro ⟨p, -, m, -, ht, hpm⟩
    exact ⟨ht, h.posted t ht, hpm.kind⟩

/-- The members of a triple determine its purchase. -/
theorem Purchased.purchase_eq (h : Inv G db) {p p' : MembershipPurchaseRow}
    {t t' : LedgerTransaction} {m m' : AccountMembership} (hp : p ∈ db.purchases)
    (hp' : p' ∈ db.purchases) (hpm : Purchased db p t m) (hpm' : Purchased db p' t' m')
    (he : t = t' ∨ m = m') : p = p' := by
  refine h.wellFormed.purchaseIds.eq hp hp' (UUID.text_inj.1 (Option.some.inj ?_))
  rcases he with rfl | rfl
  · exact hpm.referenceId.symm.trans hpm'.referenceId
  · exact hpm.sourceRef.symm.trans hpm'.sourceRef

/-- Each purchase has its own transaction, and each payment its purchase. -/
theorem Inv.purchases_perm_payments (h : Inv G db) :
    (db.purchases.map (·.ledgerTransactionId)).Perm ((payments db).map (·.id)) := by
  refine (List.perm_ext_iff_of_nodup ?_ ?_).2 fun id => ?_
  · refine List.Nodup.map_on (fun p hp p' hp' he => ?_) (List.Nodup.of_map _ h.wellFormed.purchaseIds)
    obtain ⟨t, ht, m, -, hpm⟩ := h.purchases p hp
    obtain ⟨t', ht', m', -, hpm'⟩ := h.purchases p' hp'
    have hid := hpm.transaction.symm.trans (he.trans hpm'.transaction)
    exact hpm.purchase_eq h hp hp' hpm' (Or.inl (h.wellFormed.transactionIds.eq ht ht' hid))
  · exact (List.filter_sublist.map _).nodup h.wellFormed.transactionIds
  · simp only [List.mem_map, h.mem_payments]
    constructor
    · rintro ⟨p, hp, rfl⟩
      obtain ⟨t, ht, m, hm, hpm⟩ := h.purchases p hp
      exact ⟨t, ⟨p, hp, m, hm, ht, hpm⟩, hpm.transaction.symm⟩
    · rintro ⟨t, ⟨p, hp, m, -, -, hpm⟩, rfl⟩
      exact ⟨p, hp, hpm.transaction⟩

/-- Each purchase has its own membership, and each bought membership its purchase. -/
theorem Inv.purchases_perm_bought (h : Inv G db) :
    (db.purchases.map (·.membershipId)).Perm ((boughtMemberships db).map (·.id)) := by
  refine (List.perm_ext_iff_of_nodup ?_ ?_).2 fun id => ?_
  · refine List.Nodup.map_on (fun p hp p' hp' he => ?_) (List.Nodup.of_map _ h.wellFormed.purchaseIds)
    obtain ⟨t, -, m, hm, hpm⟩ := h.purchases p hp
    obtain ⟨t', -, m', hm', hpm'⟩ := h.purchases p' hp'
    have hid := hpm.membership.symm.trans (he.trans hpm'.membership)
    exact hpm.purchase_eq h hp hp' hpm' (Or.inr (h.wellFormed.membershipIds.eq hm hm' hid))
  · exact (List.filter_sublist.map _).nodup h.wellFormed.membershipIds
  · simp only [List.mem_map, boughtMemberships, List.mem_filter, decide_eq_true_eq]
    constructor
    · rintro ⟨p, hp, rfl⟩
      obtain ⟨t, -, m, hm, hpm⟩ := h.purchases p hp
      exact ⟨m, ⟨hm, hpm.source⟩, hpm.membership.symm⟩
    · rintro ⟨m, ⟨hm, hs⟩, rfl⟩
      obtain ⟨p, hp, hid⟩ := h.bought m hm hs
      exact ⟨p, hp, hid⟩

/-- **A purchase is charged and granted exactly once.**  In every interleaving, purchases, payments
and bought memberships correspond one to one; the members of a triple belong to one account, whose
wallet the payment debits by the amount of the purchase; an account has one purchase for each key;
and a call that fails has committed nothing. -/
theorem purchase_charged_and_granted_once (h₀ : db.Initial) (h : Run calls (.over ι db) s) :
    (s.db.purchases.map (·.ledgerTransactionId)).Perm ((payments s.db).map (·.id)) ∧
    (s.db.purchases.map (·.membershipId)).Perm ((boughtMemberships s.db).map (·.id)) ∧
    (∀ p ∈ s.db.purchases, ∃ t ∈ payments s.db, ∃ m ∈ boughtMemberships s.db, Purchased s.db p t m) ∧
    (∀ i k, ∀ p ∈ s.db.purchases, ∀ p' ∈ s.db.purchases, p.idempotencyKey = purchaseKey i k →
      p'.idempotencyKey = purchaseKey i k → p = p') ∧
    ∀ i x, s.phase i = .ended (.error x) → s.events i = [] := by
  have hs := Run.sound h₀ h
  refine ⟨hs.inv.purchases_perm_payments, hs.inv.purchases_perm_bought, fun p hp => ?_, ?_,
    hs.failed⟩
  · obtain ⟨t, ht, m, hm, hpm⟩ := hs.inv.purchases p hp
    exact ⟨t, hs.inv.mem_payments.2 ⟨p, hp, m, hm, ht, hpm⟩, m,
      List.mem_filter.2 ⟨hm, decide_eq_true hpm.source⟩, hpm⟩
  · intro i k p hp p' hp' hk hk'
    exact hs.inv.wellFormed.purchaseKeys.eq hp hp' (hk.trans hk'.symm)

def user : Actor := ⟨"user", "member"⟩

/-- Four points are given, then one key buys twice at the same time: both calls pass the first
lookup. -/
def twoPurchases : Fin 3 → Request
  | 0 => adjustCall (freshOf '5' '6' '7' '8' '0' '0' 0) 4 "a"
  | 1 => .purchaseMembership (freshOf '0' '9' '0' 'a' 'b' 'c' 1) (idOf '1') (idOf '2') "k" user
  | 2 => .purchaseMembership (freshOf '0' 'd' '0' 'e' 'f' '0' 2) (idOf '1') (idOf '2') "k" user

def twoPurchasesSchedule : List (Fin 3) :=
  List.replicate 21 0 ++ List.replicate 2 2 ++ List.replicate 32 1 ++ List.replicate 27 2

theorem purchase_charged_and_granted_once_twoPurchases :
    ∃ s, Run twoPurchases (.over (Fin 3) (shop [])) s ∧
      (s.db.purchases.length = 1 ∧ s.db.ledger.balance (idOf '5') = 2) ∧
      (s.db.purchases.map (·.membershipId)).Perm ((boughtMemberships s.db).map (·.id)) := by
  obtain ⟨s, hs, hf⟩ := replay_any [0, 1, 2] (by decide) (fun i => (twoPurchases i).call)
    (fun _ _ => True) twoPurchasesSchedule (Running.over (Fin 3) (shop []))
    (fun s => decide (s.db.purchases.length = 1 ∧ s.db.ledger.balance (idOf '5') = 2))
    (by decide +kernel)
  exact ⟨s, hs, of_decide_eq_true hf, (purchase_charged_and_granted_once shop_initial hs).2.1⟩

end Sakura
