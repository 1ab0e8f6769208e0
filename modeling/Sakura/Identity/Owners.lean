/-
  There is always an active owner.

  * `owner_remains`: whatever the interleaving of lifecycle changes, role assignments, role edits and
    logins, some account is active and holds the role `owner`.
-/
import Sakura.Identity.Requests

namespace Sakura.Identity

open Txn

variable {ι : Type} [DecidableEq ι]

/-- The calls of the requests `reqs`. -/
abbrev calls (sec : Security) (reqs : ι → Request) : ι → Call Reply := fun i => (reqs i).call sec

/-- No call of the service has started. -/
abbrev fresh (ι : Type) (db : Store) : State ι Site Store Lock Event Error Reply := .initial ι _ _ _ _ _ db

/-- The calls keep to the discipline in every run that it allows. -/
theorem sound {strict : Prop} {sec : Security} {reqs : ι → Request} {db₀ : Store}
    (hdb : db₀.WellFormed) {s : State ι Site Store Lock Event Error Reply}
    (h : ReachableIf (calls sec reqs) (discipline strict).allowed (fresh ι db₀) s) :
    Sound (discipline strict) (calls sec reqs) (fun _ _ _ => True) (fun _ _ _ => True) db₀ s :=
  Sound.of_reachable (fun i db h => (reqs i).keeps strict sec db h) hdb h

/-- **There is always an active owner.** -/
theorem owner_remains (sec : Security) (reqs : ι → Request) (db₀ : Store) (hdb : db₀.WellFormed)
    (howner : ∃ a, db₀.ActiveOwner a) (s : State ι Site Store Lock Event Error Reply)
    (h : Reachable (calls sec reqs) (fresh ι db₀) s) : ∃ a, s.db.ActiveOwner a := by
  have hall : ReachableIf (calls sec reqs) (discipline False).allowed (fresh ι db₀) s :=
    h.mono fun _ _ _ hf => hf.elim
  have hw : ∀ i db, (discipline False).inv db → wp (discipline False) (calls sec reqs i)
      (fun _ _ => True) (fun _ _ => True) { db := db } := fun i db hi => (reqs i).keeps False sec db hi
  refine Sound.later (Q := fun _ _ _ => True) (E := fun _ _ _ => True)
    (P := fun db => ∃ a, db.ActiveOwner a) hw ?_ (.initial hdb) hall howner
  rintro db L e _ - ⟨δ, rfl, hs⟩ ha
  exact hs.owner ha

/-! ## Two owners -/

/-- Two active owners, and the local identity of the first. -/
def twoOwners : Store where
  permissions := ["account.write"]
  sessionTtlHours := none
  accounts := [⟨idOf '1', .active, 0⟩, ⟨idOf '2', .active, 0⟩]
  identities := [⟨idOf '3', idOf '1', .local, some "sakura", "hash", none, false⟩]
  sessions := []
  roles := [⟨idOf '4', "owner", "Owner", true⟩, ⟨idOf '5', "user", "User", true⟩]
  rolePermissions := []
  accountRoles := [⟨idOf '1', idOf '4', "", false⟩, ⟨idOf '2', idOf '4', "", false⟩]

theorem twoOwners_wellFormed : twoOwners.WellFormed := by
  constructor
  case owner => exact ⟨⟨idOf '4', "owner", "Owner", true⟩, by simp [twoOwners], rfl, rfl⟩
  all_goals
    unfold UniqueBy
    decide +kernel

theorem twoOwners_activeOwner : twoOwners.ActiveOwner (idOf '1') :=
  ⟨⟨⟨idOf '1', .active, 0⟩, by simp [twoOwners], rfl, rfl⟩, ⟨idOf '4', "owner", "Owner", true⟩,
    by simp [twoOwners], rfl, rfl, ⟨idOf '1', idOf '4', "", false⟩, by simp [twoOwners], rfl, rfl, rfl⟩

/-- No other package is asked. -/
def plainSecurity : Security where
  verifyPassword password hash := password = hash
  hashToken token := token
  toLower name := name

/-- One call suspends the first owner, the other takes the role of the second. -/
def bothLeave : Fin 2 → Request
  | 0 => .changeLifecycle 0 (idOf '1') (some .suspended) "left"
  | 1 => .assignRoles (idOf '2') ["user"] ⟨"account", "root"⟩

theorem owner_remains_bothLeave :
    ∃ s, Reachable (calls plainSecurity bothLeave) (fresh (Fin 2) twoOwners) s ∧
      (s.db.accounts.map (·.status) = [.active, .suspended] ∧
        s.events 1 = []) ∧ ∃ a, s.db.ActiveOwner a := by
  obtain ⟨s, hs, hf⟩ := replay_any [0, 1] (by decide) (calls plainSecurity bothLeave)
    (fun _ _ => True) ([1, 1, 1] ++ List.replicate 13 0 ++ List.replicate 6 1)
    (fresh (Fin 2) twoOwners)
    (fun s => decide (s.db.accounts.map (·.status) = [.active, .suspended] ∧ s.events 1 = []))
    (by decide +kernel)
  exact ⟨s, hs, of_decide_eq_true hf, owner_remains plainSecurity bothLeave twoOwners
    twoOwners_wellFormed ⟨_, twoOwners_activeOwner⟩ s hs⟩

end Sakura.Identity
