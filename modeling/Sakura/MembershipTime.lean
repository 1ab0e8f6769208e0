/-
  Membership time under concurrent grants.

  `assignMembershipTx` reads the current membership with a lock.  If it has to wait, it re-checks only
  the row it had found; the row that replaced it is expired by the next statement without its time
  being added.

  * `grantFinds`: a locking read finds its row still current;
  * `Commits.extended`, `membership_time_kept`: the runs in which this holds lose no time;
  * `twoGrants_lose_time`: two grants in which it does not.
-/
import Sakura.Spending

namespace Sakura

open Txn

variable {G : Scope} {db : DB} {ι : Type} [DecidableEq ι] {calls : ι → Request} {s : Running ι}

/-- When a locking read of the current membership of the account `i` has got the row it found, that
row is still the current membership. -/
def grantFinds (i : UUID) : Site → DB → Prop
  | .currentMembership accountID id, v =>
    accountID = i → ∃ m ∈ v.memberships, m.id = id ∧ m.accountId = accountID ∧ m.current
  | _, _ => True

instance (i : UUID) : ∀ site v, Decidable (grantFinds i site v)
  | .currentMembership accountID id, v => inferInstanceAs (Decidable
    (accountID = i → ∃ m ∈ v.memberships, m.id = id ∧ m.accountId = accountID ∧ m.current))
  | .sql, _ | .usedRefunds _ _ _, _ | .failItem _, _ => isTrue trivial

theorem grantFinds_allows {i : UUID} (site : Site) (v : DB) (h : grantFinds i site v) :
    Scope.allows { grants := (· = i) } site v := by
  cases site with
  | currentMembership => exact h
  | usedRefunds => exact fun hi => hi.elim
  | _ => trivial

/-- The days granted to the account `i` by the commits of a run. -/
def grantedDays (i : UUID) (s : Running ι) : Int := (s.log.map fun x => granted i x.2).sum

/-- Along a chain of commits the membership of an account of the scope is extended by all that they
grant. -/
theorem Commits.extended {i : UUID} (hG : G.grants i) {m : AccountMembership}
    (hm : m ∈ db.memberships) (hcur : m.current) (hacc : m.accountId = i) {es : List Event} {db' : DB}
    (h : (discipline G).Commits db es db') : ∃ m' ∈ db'.memberships, m'.current ∧ m'.accountId = i ∧
      m.expiresAt + (es.map (granted i)).sum * dayNanos ≤ m'.expiresAt := by
  induction h with
  | nil => exact ⟨m, hm, hcur, hacc, by simp⟩
  | @snoc es db' L e db'' _ _ hs ih =>
    obtain ⟨m₁, hm₁, hcur₁, hacc₁, hle₁⟩ := ih
    obtain ⟨-, -, -, -, hext⟩ := hs
    obtain ⟨m₂, hm₂, hcur₂, hacc₂, hle₂⟩ := hext i hG m₁ hm₁ hcur₁ hacc₁
    refine ⟨m₂, hm₂, hcur₂, hacc₂, ?_⟩
    rw [List.map_append, List.sum_append, List.map_singleton, List.sum_singleton, Int.add_mul]
    calc m.expiresAt + ((es.map (granted i)).sum * dayNanos + granted i e * dayNanos)
        = m.expiresAt + (es.map (granted i)).sum * dayNanos + granted i e * dayNanos :=
          (Int.add_assoc _ _ _).symm
      _ ≤ m₁.expiresAt + granted i e * dayNanos := Int.add_le_add_right hle₁ _
      _ ≤ m₂.expiresAt := hle₂

/-- **Membership time is never lost**, in a run whose locking reads on the account find their row.
The account has exactly one current membership, which expires no earlier than its first one plus all
the days granted by the calls that have committed. -/
theorem membership_time_kept {i : UUID} {m : AccountMembership} (h₀ : db.Initial)
    (hm : m ∈ db.memberships) (hcur : m.current) (hacc : m.accountId = i)
    (hdays : ∀ j, (calls j).Fits { grants := (· = i) })
    (h : RunIf calls (grantFinds i) (.over ι db) s) :
    ∃ m', (currentOf s.db.memberships).filter (·.accountId = i) = [m'] ∧
      m.expiresAt + grantedDays i s * dayNanos ≤ m'.expiresAt := by
  have hs : SoundRun { grants := (· = i) } calls db s :=
    RunIf.sound h₀ (fun j hj => ⟨m, hm, hcur, hacc.trans (Eq.symm hj)⟩) hdays
      (ReachableIf.mono grantFinds_allows h)
  obtain ⟨m', hm', hcur', hacc', hle⟩ := Commits.extended rfl hm hcur hacc hs.commits
  refine ⟨m', ?_, by rwa [List.map_map] at hle⟩
  rw [← hacc']
  exact hs.inv.wellFormed.currents.filter_eq (List.mem_filter.2 ⟨hm', hcur'⟩)

/-- The membership of the shop's account, for ten days. -/
def tenDays : AccountMembership where
  id := idOf '5'
  accountId := idOf '1'
  planId := idOf '3'
  status := .active
  startsAt := 0
  expiresAt := 10 * dayNanos
  source := "admin"
  sourceRef := none
  createdBy := "admin:root"

theorem shop_tenDays_initial : (shop [tenDays]).Initial where
  transactions := rfl
  entries := rfl
  system := by simp [shop, Ledger.empty]
  accountIds := uniqueBy_nil
  accountKeys := uniqueBy_nil
  wallets := rfl
  orders := rfl
  callbacks := rfl
  refunds := rfl
  purchases := rfl
  membershipIds := uniqueBy_singleton
  currents := uniqueBy_singleton
  plans := by simp [shop, tenDays]
  stored := by decide
  sources := by decide

/-- A grant of 30 days on the second day. -/
def assignCall (membership : Char) : Request :=
  .assignMembership (freshOf '0' '0' '0' '0' '0' membership dayNanos) (idOf '1') (idOf '3') dayNanos
    30 "" admin

def twoGrants : Fin 2 → Request
  | 0 => assignCall '6'
  | 1 => assignCall '7'

theorem membership_time_kept_twoGrants :
    ∃ s, RunIf twoGrants (grantFinds (idOf '1')) (.over (Fin 2) (shop [tenDays])) s ∧
      grantedDays (idOf '1') s = 60 ∧
      ∃ m', (currentOf s.db.memberships).filter (·.accountId = idOf '1') = [m'] ∧
        tenDays.expiresAt + grantedDays (idOf '1') s * dayNanos ≤ m'.expiresAt := by
  obtain ⟨s, hs, hf⟩ := replay_any [0, 1] (by decide) (fun i => (twoGrants i).call)
    (grantFinds (idOf '1')) (List.replicate 10 0 ++ List.replicate 10 1)
    (Running.over (Fin 2) (shop [tenDays])) (fun s => decide (grantedDays (idOf '1') s = 60))
    (by decide +kernel)
  have hdays : ∀ j, (twoGrants j).Fits { grants := (· = idOf '1') }
    | 0 | 1 => fun _ => by decide
  exact ⟨s, hs, of_decide_eq_true hf, membership_time_kept shop_tenDays_initial
    (List.mem_singleton_self _) rfl rfl hdays hs⟩

/-- **Time is lost**: both grants find the first membership; the second one waits for it, finds it
expired and starts from now, so that of 10 + 30 + 30 days 1 + 30 remain. -/
theorem twoGrants_lose_time :
    ∃ s, Run twoGrants (.over (Fin 2) (shop [tenDays])) s ∧
      s.log = [(0, .grant (idOf '1') 30), (1, .grant (idOf '1') 30)] ∧
      ∃ m' ∈ s.db.memberships, (currentOf s.db.memberships).filter (·.accountId = idOf '1') = [m'] ∧
        m'.expiresAt < tenDays.expiresAt + 30 * dayNanos + 30 * dayNanos := by
  obtain ⟨s, hs, hf⟩ := replay_any [0, 1] (by decide) (fun i => (twoGrants i).call)
    (fun _ _ => True) (List.replicate 5 0 ++ List.replicate 4 1 ++ List.replicate 5 0 ++
      List.replicate 6 1) (Running.over (Fin 2) (shop [tenDays]))
    (fun s => decide (s.log = [(0, .grant (idOf '1') 30), (1, .grant (idOf '1') 30)] ∧
      ∃ m' ∈ s.db.memberships, (currentOf s.db.memberships).filter (·.accountId = idOf '1') = [m'] ∧
        m'.expiresAt < tenDays.expiresAt + 30 * dayNanos + 30 * dayNanos)) (by decide +kernel)
  exact ⟨s, hs, of_decide_eq_true hf⟩

end Sakura
