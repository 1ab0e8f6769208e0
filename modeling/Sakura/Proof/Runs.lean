/-
  The runs of the platform keep the joint invariant.

  * `Request.runs`: every call keeps to the discipline;
  * `DB.Initial.inv`: a fresh database satisfies the invariant;
  * `RunIf.sound`, `Run.sound`: what holds of every state that a run reaches.
-/
import Sakura.Platform
import Sakura.Proof.Grants
import Sakura.Proof.Commerce

namespace Sakura

open Txn

variable {G : Scope} {db : DB}

/-- The days of a call to an account of the scope fit in a `time.Duration`. -/
def Request.Fits (G : Scope) : Request → Prop
  | .assignMembership _ i _ _ d _ _ => G.grants i → d.toInt ≤ maxDays
  | .processBatchItem _ b _ i _ => G.grants i → b.payload.durationDays.toInt ≤ maxDays
  | _ => True

/-- **Every call keeps to the discipline**, and fails only with nothing committed. -/
theorem Request.runs (h : Inv G db) (r : Request) (hf : r.Fits G) :
    Runs G r.call (fun _ _ => True) { db := db } := by
  cases r with
  | createRechargeOrder => exact wp_map.2 (createRechargeOrder_runs h)
  | confirmRecharge => exact wp_map.2 (confirmRecharge_runs h)
  | refundRecharge => exact wp_map.2 (refundRecharge_runs h)
  | adjustWallet => exact wp_map.2 (adjustWallet_runs h)
  | purchaseMembership => exact wp_map.2 (purchaseMembership_runs h)
  | assignMembership => exact wp_map.2 (assignMembership_runs h (by decide) hf)
  | redeemInvitation => exact wp_map.2 (redeemInvitation_runs h)
  | processBatchItem => exact processBatchItem_runs h hf

/-- A fresh database satisfies the invariant, if the accounts of the scope have a membership. -/
theorem DB.Initial.inv (h : db.Initial)
    (hG : ∀ i, G.grants i → ∃ m ∈ db.memberships, m.current ∧ m.accountId = i) : Inv G db where
  wellFormed :=
    { accountIds := h.accountIds
      accountKeys := h.accountKeys
      transactionIds := by rw [h.transactions]; exact uniqueBy_nil
      transactionKeys := by rw [h.transactions]; exact uniqueBy_nil
      entryTransaction := by simp [h.entries]
      entryAccount := by simp [h.entries]
      walletIds := by rw [h.wallets]; exact uniqueBy_nil
      walletKeys := by rw [h.wallets]; exact uniqueBy_nil
      orderIds := by rw [h.orders]; exact uniqueBy_nil
      refundIds := by rw [h.refunds]; exact uniqueBy_nil
      purchaseIds := by rw [h.purchases]; exact uniqueBy_nil
      purchaseKeys := by rw [h.purchases]; exact uniqueBy_nil
      membershipIds := h.membershipIds
      currents := h.currents }
  links :=
    { wallets := by simp [h.wallets]
      owners := fun a ha ho => by rw [h.system a ha] at ho; cases ho }
  posted := by simp [h.transactions]
  keys := by simp [h.transactions]
  purpose := by simp [h.transactions]
  solvent a ha ho := by rw [h.system a ha] at ho; cases ho
  orders := by simp [h.orders]
  purchases := by simp [h.purchases]
  bought m hm hs := absurd hs (h.sources m hm)
  plans := h.plans
  stored := h.stored
  refundOrders := by simp [h.refunds]
  refunds := by simp [h.orders]
  grants := hG

variable {ι : Type} [DecidableEq ι] {calls : ι → Request} {s s' : Running ι}

/-- A state of a run in the scope `G` over the database `db₀`. -/
abbrev SoundRun (G : Scope) (calls : ι → Request) (db₀ : DB) (s : Running ι) : Prop :=
  Sound (discipline G) (fun i => (calls i).call) (fun _ _ _ => True) (fun _ _ es => es = []) db₀ s

/-- **The runs that the scope allows are sound.** -/
theorem RunIf.sound (h₀ : db.Initial)
    (hG : ∀ i, G.grants i → ∃ m ∈ db.memberships, m.current ∧ m.accountId = i)
    (hf : ∀ i, (calls i).Fits G) (h : RunIf calls G.allows (.over ι db) s) :
    SoundRun G calls db s :=
  Sound.of_reachable (fun i _ hi => (calls i).runs hi (hf i)) (h₀.inv hG) h

theorem Scope.allows_none (site : Site) (v : DB) : Scope.allows {} site v := by
  cases site <;> simp [Scope.allows]

theorem Request.fits_none (r : Request) : r.Fits {} := by
  cases r <;> simp [Request.Fits]

/-- Without a scope every run is allowed. -/
theorem Run.sound (h₀ : db.Initial) (h : Run calls (.over ι db) s) : SoundRun {} calls db s :=
  RunIf.sound h₀ (fun _ hi => hi.elim) (fun i => (calls i).fits_none)
    (ReachableIf.mono (fun site v _ => Scope.allows_none site v) h)

end Sakura
