/-
  The users that the platform creates on the servers, and those whose password it sets.

  * `Store.Initial`: the data before the first request;
  * `one_user_created`: a request creates at most one user, and remembers it;
  * `own_users_only`: whose password is set, and what a request that succeeds is bound to.
-/
import Mathlib
import Sakura.Emby.Requests
import Sakura.Txn.Traces

namespace Sakura.Queue

open Txn

variable {ι : Type} [DecidableEq ι] {env : Environment} {reqs : ι → Request} {db : Store}
  {G : Option (UUID × String)}

/-! ## Runs -/

def calls (env : Environment) (reqs : ι → Request) (i : ι) : Call Unit := (reqs i).call env

/-- The platform over the data `db`, before the first call. -/
def fresh (ι : Type) (db : Store) : State ι Site Store Lock Event Err Unit :=
  .initial ι Site Lock Event Err Unit db

/-- No user has been requested yet. -/
structure Store.Initial (db : Store) : Prop where
  requests : db.provisionRequests = []
  tasks : ∀ t ∈ db.tasks, t.type ≠ .embyProvision
  createdFor : ∀ u ∈ db.upstream, u.createdFor = none
  userKeys : UniqueBy EmbyUser.key db.upstream
  bindingIds : UniqueBy Binding.id db.bindings

theorem Store.Initial.sound (h : db.Initial) : Sound env G db where
  requestIds := h.requests ▸ uniqueBy_nil
  requestNames := h.requests ▸ uniqueBy_nil
  bindingIds := h.bindingIds
  users := h.userKeys
  linked t ht hp := absurd hp (h.tasks t ht)
  requestSound r hr := by
    rw [h.requests] at hr
    cases hr
  userSound u hu := ⟨fun q hq => by simp [h.createdFor u hu] at hq,
    fun _ q hq => by simp [h.createdFor u hu] at hq⟩
  own _ b _ u hu _ r _ hq := by simp [h.createdFor u hu] at hq

theorem sound (hdb : db.Initial) {s : State ι Site Store Lock Event Err Unit}
    (h : ReachableIf (calls env reqs) (Admits env G) (fresh ι db) s) :
    Txn.Sound (discipline env G) (calls env reqs) (fun _ _ _ => True) (fun _ _ _ => True) db s :=
  Sound.of_reachable (fun i _ hi => (reqs i).keeps hi) hdb.sound h

/-! ## One user for a request -/

/-- **A request creates at most one user**, if its name is refused to a second one and nobody else takes
it; and the user that it remembers when it succeeds is that one. -/
theorem one_user_created (henv : env.uniqueNames = true) (hdb : db.Initial) {name : UUID × String}
    {s : State ι Site Store Lock Event Err Unit}
    (h : ReachableIf (calls env reqs) (undisturbed name) (fresh ι db) s) {r : ProvisionRequest}
    (hr : r ∈ s.db.provisionRequests) (hname : r.name = name) :
    (∀ u ∈ s.db.upstream, ∀ u' ∈ s.db.upstream, u.createdFor = some r.id →
      u'.createdFor = some r.id → u' = u) ∧
    (r.status = .succeeded →
      ∃ x, r.remoteUserId = some x ∧ s.db.CreatedFor r.id (r.instanceId, x)) := by
  have hs : Sound env (some name) s.db := (sound (G := some name) hdb h).inv
  refine ⟨fun u hu u' hu' hc hc' => ?_, fun hst => ?_⟩
  · exact hs.users.eq hu' hu ((hs.userSound u hu).once henv r.id hc u' hu' hc')
  · have hrs := hs.requestSound r hr
    obtain ⟨x, hx⟩ := Option.ne_none_iff_exists'.1 (hrs.succeeded hst)
    exact ⟨x, hx, hrs.remembered (fun n hn => hname.trans (Option.some.inj hn)) x hx⟩

/-- An account with a membership, and an instance. -/
def household : Store where
  accounts := [⟨idOf '1', .active⟩]
  instances := [⟨idOf '2', true⟩]
  plans := [{ id := idOf '3', code := "basic", name := "Basic", durationDays := 30
              durationDays_range := thirtyDays_range, entitlements := "", enabled := true }]
  memberships := [{ id := idOf '4', accountId := idOf '1', planId := idOf '3', status := .active
                    startsAt := 0, expiresAt := 10000000000, source := "grant", sourceRef := none
                    createdBy := "system" }]

/-- One user for an account; all names are in lower case. -/
def plainEnvironment : Environment where
  toLower s := s
  quote s := s
  uniqueNames := true
  maxEmbyAccounts _ := 1

def plainListing : Listing where
  order users := users
  mem := Iff.rfl

/-- The request of a user "sakura". -/
def sakuraCall : Request :=
  .requestProvisioning ⟨idOf '9', idOf '9', idOf '5', idOf '6', "secret", 0⟩ (idOf '1') none "sakura"
    "" "k" 8 ⟨"account", "root"⟩

/-- An attempt at its task. -/
def attemptAt (now : Time) (creation : Reply) (user : String) : Request :=
  .processNext ⟨"worker-1", 90⟩ (idOf '5')
    { now, finished := now, listing := .ok plainListing, creation, newUser := user
      binding := idOf '7', rowID := fun _ => idOf '8' }

/-- The answer of the first creation is lost. -/
def lostAnswer : Fin 3 → Request
  | 0 => sakuraCall
  | 1 => attemptAt 0 { answer := false } "u1"
  | 2 => attemptAt 3000000000 {} "u2"

instance (name : UUID × String) (site : Site) (v : Store) : Decidable (undisturbed name site v) := by
  unfold undisturbed
  split <;> infer_instance

theorem household_initial : household.Initial :=
  ⟨rfl, by simp [household], by simp [household], uniqueBy_nil, uniqueBy_nil⟩

/-- The second attempt finds the user of the first. -/
theorem one_user_created_lostAnswer :
    ∃ s, ReachableIf (calls plainEnvironment lostAnswer) (undisturbed (idOf '2', "sakura"))
        (fresh (Fin 3) household) s ∧
      (∃ r ∈ s.db.provisionRequests, r.name = (idOf '2', "sakura") ∧ r.status = .succeeded ∧
        (∀ u ∈ s.db.upstream, ∀ u' ∈ s.db.upstream, u.createdFor = some r.id →
          u'.createdFor = some r.id → u' = u) ∧
        ∃ x, r.remoteUserId = some x ∧ s.db.CreatedFor r.id (r.instanceId, x)) ∧
      s.db.upstream.map EmbyUser.id = ["u1"] := by
  obtain ⟨s, hs, hf⟩ := replay_any [0, 1, 2] (by decide) (calls plainEnvironment lostAnswer)
    (undisturbed (idOf '2', "sakura"))
    (List.replicate 16 0 ++ List.replicate 23 1 ++ List.replicate 26 2) (fresh (Fin 3) household)
    (fun s => decide ((∃ r ∈ s.db.provisionRequests, r.name = (idOf '2', "sakura") ∧
      r.status = .succeeded) ∧ s.db.upstream.map EmbyUser.id = ["u1"])) (by decide +kernel)
  obtain ⟨⟨r, hr, hname, hst⟩, hu⟩ := of_decide_eq_true hf
  have hone := one_user_created rfl household_initial hs hr hname
  exact ⟨s, hs, ⟨r, hr, hname, hst, hone.1, hone.2 hst⟩, hu⟩

/-! ## Users of the request only -/

/-- **A task sets the password of a user of its own request only**, no other account is bound to it,
and a request that succeeds leaves its account bound to its user. -/
theorem own_users_only (hdb : db.Initial) {s s' : State ι Site Store Lock Event Err Unit}
    (h : ReachableIf (calls env reqs) (careful env) (fresh ι db) s)
    (hs : Step (calls env reqs) (careful env) s s') :
    (∀ i q k, s'.log = s.log ++ [(i, .passwordSet q k)] → ∃ r ∈ s.db.provisionRequests, r.id = q ∧
      s.db.CreatedFor q k ∧ ∀ b ∈ s.db.bindings, b.remote = k → b.accountId = r.accountId) ∧
    ∀ r ∈ s'.db.provisionRequests, r.status = .succeeded →
      (∀ r₀ ∈ s.db.provisionRequests, r₀.id = r.id → r₀.status ≠ .succeeded) →
      s'.db.Provisioned r := by
  have hsound := sound (G := none) hdb h
  refine ⟨fun i q k hlog => ?_, fun r hr hst hnew => ?_⟩
  · obtain ⟨L, δ, -, hc⟩ := hsound.step_commit hs hlog
    obtain ⟨r, hr, rfl, hcr⟩ := hc.password q k rfl
    have hcreated : s.db.CreatedFor r.id k := hcr (by simp [Protected])
    obtain ⟨u, hu, hk, hq⟩ := id hcreated
    exact ⟨r, hr, rfl, hcreated, fun b hb hbk =>
      (hsound.inv.own rfl b hb u hu (hk.trans hbk.symm) r hr hq).symm⟩
  · rcases hsound.db_step hs with e | ⟨L, e, δ, hδ, hc⟩
    · rw [e] at hr
      exact absurd hst (hnew r hr rfl)
    · rw [hδ] at hr ⊢
      rcases mem_overlay.1 hr with ⟨hr, -⟩ | hr
      · exact absurd hst (hnew r hr rfl)
      · rcases hc.succeeded r hr hst with ⟨r₀, hr₀, hid, hst₀⟩ | hp
        · exact absurd hst₀ (hnew r₀ hr₀ hid)
        · exact hp rfl

/-- Somebody else creates the user after the mark was set. -/
def outsideSakura : Fin 4 → Request
  | 0 => sakuraCall
  | 1 => attemptAt 0 {} "u1"
  | 2 => .outsideUser (idOf '2') "x1" "sakura"
  | 3 => attemptAt 3000000000 {} "u2"

/-- Another account, and a sync. -/
def twoAccounts : Store :=
  { household with
    accounts := [⟨idOf '1', .active⟩, ⟨idOf 'b', .active⟩]
    tasks := [{ id := idOf 'c', type := .embySync, status := .pending
                payload := { instanceId := some (idOf '2') }, attempts := 0, maxAttempts := 8
                availableAt := 0 }] }

/-- The user is bound to the other account while the task works on it. -/
def claimedSakura : Fin 4 → Request
  | 0 => sakuraCall
  | 1 => attemptAt 0 {} "u1"
  | 2 => .processNext ⟨"worker-2", 90⟩ (idOf 'c')
    { now := 0, finished := 0, listing := .ok plainListing, binding := idOf 'e'
      rowID := fun _ => idOf '8' }
  | 3 => .adminClaimRemoteUser (idOf 'd') (idOf 'b') (idOf '8')

/-- **A stranger's password is set**: of a user that somebody else has created after the mark was set,
and of one that is bound to another account, whose binding the request then takes for its own. -/
theorem strangers_password_set :
    (∃ s s', Reachable (calls plainEnvironment outsideSakura) (fresh (Fin 4) household) s ∧
      Step (calls plainEnvironment outsideSakura) (fun _ _ => True) s s' ∧
      s'.log = s.log ++ [(3, .passwordSet (idOf '6') (idOf '2', "x1"))] ∧
      ∀ u ∈ s.db.upstream, u.createdFor = none) ∧
    ∃ s s' s'', Reachable (calls plainEnvironment claimedSakura) (fresh (Fin 4) twoAccounts) s ∧
      Step (calls plainEnvironment claimedSakura) (fun _ _ => True) s s' ∧
      Reachable (calls plainEnvironment claimedSakura) s' s'' ∧
      s'.log = s.log ++ [(1, .passwordSet (idOf '6') (idOf '2', "u1"))] ∧
      s.db.bindings.map (fun b => (b.remote, b.accountId)) = [((idOf '2', "u1"), idOf 'b')] ∧
      s''.db.bindings.map (fun b => (b.remote, b.accountId)) = [((idOf '2', "u1"), idOf 'b')] ∧
      s''.db.provisionRequests.map (fun r => (r.accountId, r.status, r.remoteUserId)) =
        [(idOf '1', .succeeded, some "u1")] := by
  constructor
  · obtain ⟨s, s', -, h, hs, -, hf⟩ := replay_step_any [0, 1, 2, 3] (by decide)
      (calls plainEnvironment outsideSakura) (fun _ _ => True)
      (List.replicate 16 0 ++ List.replicate 14 1 ++ List.replicate 4 2 ++ List.replicate 8 1 ++
        List.replicate 13 3) 3 [] (fresh (Fin 4) household)
      (fun s s' _ => decide (s'.log = s.log ++ [(3, .passwordSet (idOf '6') (idOf '2', "x1"))] ∧
        ∀ u ∈ s.db.upstream, u.createdFor = none)) (by decide +kernel)
    exact ⟨s, s', h, hs, of_decide_eq_true hf⟩
  · obtain ⟨s, s', s'', h, hs, h', hf⟩ := replay_step_any [0, 1, 2, 3] (by decide)
      (calls plainEnvironment claimedSakura) (fun _ _ => True)
      (List.replicate 16 0 ++ List.replicate 19 1 ++ List.replicate 17 2 ++ List.replicate 10 3 ++
        List.replicate 2 1) 1 (List.replicate 9 1) (fresh (Fin 4) twoAccounts)
      (fun s s' s'' => decide (s'.log = s.log ++ [(1, .passwordSet (idOf '6') (idOf '2', "u1"))] ∧
        s.db.bindings.map (fun b => (b.remote, b.accountId)) = [((idOf '2', "u1"), idOf 'b')] ∧
        s''.db.bindings.map (fun b => (b.remote, b.accountId)) = [((idOf '2', "u1"), idOf 'b')] ∧
        s''.db.provisionRequests.map (fun r => (r.accountId, r.status, r.remoteUserId)) =
          [(idOf '1', .succeeded, some "u1")])) (by decide +kernel)
    exact ⟨s, s', s'', h, hs, h', of_decide_eq_true hf⟩

instance (env : Environment) (site : Site) (v : Store) : Decidable (careful env site v) := by
  unfold careful
  split <;> infer_instance

/-- The password is set in the second attempt after the lost answer. -/
theorem own_users_only_lostAnswer :
    ∃ s s', ReachableIf (calls plainEnvironment lostAnswer) (careful plainEnvironment)
        (fresh (Fin 3) household) s ∧
      Step (calls plainEnvironment lostAnswer) (careful plainEnvironment) s s' ∧
      s'.log = s.log ++ [(2, .passwordSet (idOf '6') (idOf '2', "u1"))] ∧
      ∃ r ∈ s.db.provisionRequests, r.id = idOf '6' ∧ s.db.CreatedFor (idOf '6') (idOf '2', "u1") ∧
        ∀ b ∈ s.db.bindings, b.remote = (idOf '2', "u1") → b.accountId = r.accountId := by
  obtain ⟨s, s', -, h, hs, -, hf⟩ := replay_step_any [0, 1, 2] (by decide)
    (calls plainEnvironment lostAnswer) (careful plainEnvironment)
    (List.replicate 16 0 ++ List.replicate 23 1 ++ List.replicate 13 2) 2 []
    (fresh (Fin 3) household)
    (fun s s' _ => decide (s'.log = s.log ++ [(2, .passwordSet (idOf '6') (idOf '2', "u1"))]))
    (by decide +kernel)
  have hlog := of_decide_eq_true hf
  exact ⟨s, s', h, hs, hlog, (own_users_only household_initial h hs).1 2 _ _ hlog⟩

end Sakura.Queue
