/-
  A recharge is credited exactly once.

  * `rechargesOf`: the posted recharges that reference an order;
  * `Inv.rechargesOf_eq`: a settled order has one, an unsettled order none;
  * `recharge_credited_once`: every interleaving of callbacks, refunds and other calls.
-/
import Sakura.Proof.Runs

namespace Sakura

open Txn

variable {G : Scope} {db : DB} {o o' : RechargeOrderRow} {t : LedgerTransaction}

/-- The posted ledger transactions of kind `recharge` that reference the order. -/
def rechargesOf (db : DB) (o : RechargeOrderRow) : List LedgerTransaction :=
  db.ledger.transactions.filter fun t => t.status = .posted && t.kind = .recharge &&
    t.referenceType = some "recharge_order" && t.referenceId = some o.id.text

theorem mem_rechargesOf : t ∈ rechargesOf db o ↔ t ∈ db.ledger.transactions ∧
    t.status = .posted ∧ t.kind = .recharge ∧ t.referenceType = some "recharge_order" ∧
      t.referenceId = some o.id.text := by
  simp [rechargesOf, and_assoc]

/-- A recharge that references an order is the recharge of that order. -/
theorem Inv.recharged (h : Inv G db) (ho : o ∈ db.rechargeOrders) (ht : t ∈ rechargesOf db o) :
    Recharged db o t := by
  obtain ⟨ht, -, hk, -, hr⟩ := mem_rechargesOf.1 ht
  have hp := h.purpose t ht
  rw [Purpose, hk] at hp
  obtain ⟨o', ho', hro⟩ := hp
  have hid : o'.id = o.id := UUID.text_inj.1 (Option.some.inj (hro.referenceId.symm.trans hr))
  cases h.wellFormed.orderIds.eq ho' ho hid
  exact hro

/-- The recharge of an order is its only one. -/
theorem Inv.rechargesOf_eq (h : Inv G db) (ho : o ∈ db.rechargeOrders)
    (ht : t ∈ db.ledger.transactions) (hro : Recharged db o t) : rechargesOf db o = [t] := by
  rw [← h.wellFormed.transactionIds.filter_eq ht]
  refine List.filter_congr fun u hu => Bool.eq_iff_iff.2 ⟨fun hm => ?_, fun hid => ?_⟩
  · have hu : u ∈ rechargesOf db o := List.mem_filter.2 ⟨hu, hm⟩
    have he := (h.recharged ho hu).transaction.symm.trans hro.transaction
    exact decide_eq_true (Option.some.inj he)
  · cases h.wellFormed.transactionIds.eq hu ht (of_decide_eq_true hid)
    exact (List.mem_filter.1 (mem_rechargesOf.2
      ⟨ht, h.posted _ ht, hro.kind, hro.referenceType, hro.referenceId⟩)).2

variable {ι : Type} [DecidableEq ι] {calls : ι → Request} {s : Running ι}

/-- **A recharge is credited exactly once.**  Whatever calls run, and however their statements
interleave: an order is settled iff exactly one posted recharge references it, which moves the grant
from `cash_clearing` to the wallet; distinct orders have distinct recharges; and a call that fails
has committed nothing. -/
theorem recharge_credited_once (h₀ : db.Initial) (h : Run calls (.over ι db) s) :
    (∀ o ∈ s.db.rechargeOrders,
      (o.status.settled ↔ ∃ t, rechargesOf s.db o = [t]) ∧
      ∀ t ∈ rechargesOf s.db o, s.db.ledger.Moves t (systemKey "cash_clearing" o.walletCurrency)
        (walletKey o.accountId o.walletCurrency) o.grantAmount) ∧
    (∀ o ∈ s.db.rechargeOrders, ∀ o' ∈ s.db.rechargeOrders, o ≠ o' →
      ∀ t ∈ rechargesOf s.db o, t ∉ rechargesOf s.db o') ∧
    ∀ i x, s.phase i = .ended (.error x) → s.events i = [] := by
  have hs := Run.sound h₀ h
  refine ⟨fun o ho => ⟨⟨fun hset => ?_, ?_⟩, fun t ht => (hs.inv.recharged ho ht).moves⟩, ?_,
    hs.failed⟩
  · obtain ⟨t, ht, hro⟩ := (hs.inv.orders o ho).settled hset
    exact ⟨t, hs.inv.rechargesOf_eq ho ht hro⟩
  · rintro ⟨t, ht⟩
    exact (hs.inv.recharged ho (ht ▸ List.mem_singleton_self t)).settled
  · intro o ho o' ho' hne t ht ht'
    have hr := (mem_rechargesOf.1 ht).2.2.2.2.symm.trans (mem_rechargesOf.1 ht').2.2.2.2
    exact hne (hs.inv.wellFormed.orderIds.eq ho ho' (UUID.text_inj.1 (Option.some.inj hr)))

/-- Two callbacks for one order, the second waiting for the lock of the first. -/
def twoCallbacks : Fin 3 → Request
  | 0 => orderCall
  | 1 => payCall
  | 2 => .confirmRecharge (freshOf '9' 'a' 'b' 'c' '0' '0' 2) "stripe" "e2" "R4" "x" 2

def twoCallbacksSchedule : List (Fin 3) :=
  List.replicate 11 0 ++ List.replicate 20 1 ++ List.replicate 3 2 ++ List.replicate 7 1 ++
    List.replicate 6 2

theorem recharge_credited_once_twoCallbacks :
    ∃ s, Run twoCallbacks (.over (Fin 3) (shop [])) s ∧
      (s.db.rechargeOrders.map (·.status) = [.paid] ∧ s.db.callbackEvents.length = 2) ∧
      ∀ o ∈ s.db.rechargeOrders, o.status.settled ↔ ∃ t, rechargesOf s.db o = [t] := by
  obtain ⟨s, hs, hf⟩ := replay_any [0, 1, 2] (by decide)
    (fun i => (twoCallbacks i).call) (fun _ _ => True) twoCallbacksSchedule
    (Running.over (Fin 3) (shop []))
    (fun s => decide (s.db.rechargeOrders.map (·.status) = [.paid] ∧
      s.db.callbackEvents.length = 2)) (by decide +kernel)
  exact ⟨s, hs, of_decide_eq_true hf,
    fun o ho => ((recharge_credited_once shop_initial hs).1 o ho).1⟩

end Sakura
