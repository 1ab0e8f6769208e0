/-
  Refunds of an order.

  The sums that bound a refund are 64-bit additions.  They wrap only when the wallet holds more than
  the order granted, and the proportion of the two amounts then catches all but one case.

  * `refundFits`: not both sums of a refund of the order wrap;
  * `refunds_within_payment`: the runs in which this holds of every refund of the order;
  * `wrappedRefund_exceeds`: a run in which it does not.
-/
import Sakura.Spending

namespace Sakura

open Txn

variable {db : DB} {ι : Type} [DecidableEq ι] {calls : ι → Request} {s : Running ι}

/-- A refund of the order `id`, when it reads the sums of the earlier ones, can add one of its two
amounts without leaving the 64-bit integers. -/
def refundFits (id : UUID) : Site → DB → Prop
  | .usedRefunds o w x, v =>
    o = id → usedWallet v o + w.toInt < 2 ^ 63 ∨ usedExternal v o + x.toInt < 2 ^ 63
  | _, _ => True

instance (id : UUID) : ∀ site v, Decidable (refundFits id site v)
  | .usedRefunds o w x, v => inferInstanceAs (Decidable
    (o = id → usedWallet v o + w.toInt < 2 ^ 63 ∨ usedExternal v o + x.toInt < 2 ^ 63))
  | .sql, _ | .currentMembership _ _, _ | .failItem _, _ => isTrue trivial

theorem refundFits_allows {id : UUID} (site : Site) (v : DB) (h : refundFits id site v) :
    Scope.allows { refunds := (· = id) } site v := by
  cases site with
  | usedRefunds => exact h
  | currentMembership => exact fun hi => hi.elim
  | _ => trivial

/-- **Refunds never exceed what was paid**, in a run whose refunds of the order fit.  The sums stay
within the order, and its status says whether they have reached it. -/
theorem refunds_within_payment {id : UUID} (h₀ : db.Initial)
    (h : RunIf calls (refundFits id) (.over ι db) s) :
    ∀ o ∈ s.db.rechargeOrders, o.id = id →
      usedWallet s.db o.id ≤ o.grantAmount.toInt ∧
      usedExternal s.db o.id ≤ o.priceMinor.toInt ∧
      (o.status = .refunded ↔
        usedWallet s.db o.id = o.grantAmount.toInt ∧ usedExternal s.db o.id = o.priceMinor.toInt) ∧
      (o.status = .partiallyRefunded ↔ refundsOf s.db o.id ≠ [] ∧
        ¬(usedWallet s.db o.id = o.grantAmount.toInt ∧
          usedExternal s.db o.id = o.priceMinor.toInt)) := by
  have hs : SoundRun { refunds := (· = id) } calls db s :=
    RunIf.sound h₀ (fun _ hi => hi.elim)
      (fun i => by cases hc : calls i <;> simp [Request.Fits])
      (ReachableIf.mono refundFits_allows h)
  intro o ho hid
  obtain ⟨hw, hx, -, hr, hp⟩ := hs.inv.refunds o ho hid
  exact ⟨hw, hx, hr, hp⟩

/-- A refund of the shop's order, for as many points as units of money. -/
def refundCall (fresh : Fresh) (amount : Int64) (key : String) : Request :=
  .refundRecharge fresh (idOf '4') amount amount "changed my mind" key admin

/-- The order of 2 points is paid and refunded by 1 and by 1. -/
def fittingRefunds : Fin 4 → Request
  | 0 => orderCall
  | 1 => payCall
  | 2 => refundCall (freshOf '0' '0' '0' '9' 'a' '0' 2) 1 "a"
  | 3 => refundCall (freshOf '0' '0' '0' 'd' 'e' '0' 4) 1 "c"

theorem refunds_within_payment_fittingRefunds :
    ∃ s, RunIf fittingRefunds (refundFits (idOf '4')) (.over (Fin 4) (shop [])) s ∧
      s.db.rechargeRefunds.length = 2 ∧ ∀ o ∈ s.db.rechargeOrders, o.id = idOf '4' →
        usedWallet s.db o.id ≤ o.grantAmount.toInt := by
  obtain ⟨s, hs, hf⟩ := replay_any [0, 1, 2, 3] (by decide) (fun i => (fittingRefunds i).call)
    (refundFits (idOf '4')) (List.replicate 11 0 ++ List.replicate 27 1 ++ List.replicate 30 2 ++
      List.replicate 30 3) (Running.over (Fin 4) (shop []))
    (fun s => decide (s.db.rechargeRefunds.length = 2)) (by decide +kernel)
  exact ⟨s, hs, of_decide_eq_true hf,
    fun o ho hid => (refunds_within_payment shop_initial hs o ho hid).1⟩

/-- The order of 2 points is paid and refunded by 1; then the wallet is filled up to the largest
64-bit number, and that much is refunded. -/
def wrappedRefund : Fin 5 → Request
  | 0 => orderCall
  | 1 => payCall
  | 2 => refundCall (freshOf '0' '0' '0' '9' 'a' '0' 2) 1 "a"
  | 3 => adjustCall (freshOf '0' 'b' '0' 'c' '0' '0' 3) 9223372036854775806 "b"
  | 4 => refundCall (freshOf '0' '0' '0' 'd' 'e' '0' 4) 9223372036854775807 "c"

def wrappedRefundSchedule : List (Fin 5) :=
  List.replicate 11 0 ++ List.replicate 27 1 ++ List.replicate 30 2 ++ List.replicate 21 3 ++
    List.replicate 30 4

/-- **The sums wrap**: 1 + (2^63 - 1) is negative, so the last refund passes both bounds. -/
theorem wrappedRefund_exceeds :
    ∃ s, Run wrappedRefund (.over (Fin 5) (shop [])) s ∧ ∃ o ∈ s.db.rechargeOrders,
      o.status = .partiallyRefunded ∧ o.grantAmount = 2 ∧ usedWallet s.db o.id = 2 ^ 63 ∧
        o.priceMinor = 2 ∧ usedExternal s.db o.id = 2 ^ 63 := by
  obtain ⟨s, hs, hf⟩ := replay_any [0, 1, 2, 3, 4] (by decide) (fun i => (wrappedRefund i).call)
    (fun _ _ => True) wrappedRefundSchedule (Running.over (Fin 5) (shop []))
    (fun s => decide (∃ o ∈ s.db.rechargeOrders, o.status = .partiallyRefunded ∧
      o.grantAmount = 2 ∧ usedWallet s.db o.id = 2 ^ 63 ∧ o.priceMinor = 2 ∧
        usedExternal s.db o.id = 2 ^ 63)) (by decide +kernel)
  exact ⟨s, hs, of_decide_eq_true hf⟩

end Sakura
