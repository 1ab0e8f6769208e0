/-
  The tasks that carry entitlements to the servers.

  A grant and a revocation enqueue a task to sync the binding; workers claim and finish the tasks in
  between.

  * `Request`, `State`, `step`: calls and steps of the queue, in any order;
  * `Cause`: what the key of a task says of the call that enqueued it;
  * `Accounted`: the keys in the table are those of the calls so far;
  * `sync_iff`: when a call leaves a task that no worker has claimed.
-/
import Sakura.Entitlements.Service

namespace Sakura.Entitlements

open Txn Queue

/-! ## Calls and workers -/

inductive Request where
  | grant (g : GrantRequest)
  | revoke (id : UUID) (reason : String)

def Request.transaction (d : Draw) : Request → Grants → Except Err (UUID × Grants)
  | .grant g, t => grantEntitlement d g t
  | .revoke id reason, t => revokeEntitlement d id reason t

/-- What the key of a task is made of. -/
inductive Cause where
  | granted (id : UUID) (clock : Time)
  | revoked (id : UUID)
  deriving DecidableEq

def Cause.key : Cause → String
  | .granted id clock => grantKey id clock
  | .revoked id => revokeKey id

/-- The cause of the task of a call that returns the entitlement `id`. -/
def Request.cause (d : Draw) (id : UUID) : Request → Cause
  | .grant _ => .granted id d.clock
  | .revoke _ _ => .revoked id

/-- The binding that a call is to sync. -/
def Request.syncBinding : Request → Grants → Option UUID
  | .grant g, t => (bindingFor g.accountID g.instanceID t.bindings).map (·.id)
  | .revoke id _, t =>
    (t.entitlements.find? fun e => e.id = id && e.status ≠ .revoked).bind (·.bindingId)

/-- A handler has not ended, or has with its failure.  `caused` is the history of the causes. -/
structure State extends Workers (Option (Option Failure)) where
  codes : List EntitlementCode := []
  entitlements : List AccountEntitlement := []
  caused : List Cause := []

def State.grants (s : State) : Grants where
  bindings := s.db.bindings
  codes := s.codes
  entitlements := s.entitlements
  tasks := s.db.tasks

/-- The state after a call that commits. -/
def State.commit (d : Draw) (r : Request) (id : UUID) (t : Grants) (s : State) : State :=
  { s with
    db := { s.db with tasks := t.tasks }
    entitlements := t.entitlements
    caused := if (r.syncBinding s.grants).isSome then s.caused ++ [r.cause d id] else s.caused }

/-- `n` is the number of a handler that runs. -/
inductive Label where
  | queue (step : QueueStep)
  | ends (n : Nat) (failure : Option Failure)
  | request (draw : Draw) (request : Request)

def step : Label → State → Option State
  | .queue l, s => (s.toWorkers.queueStep none id l).map fun ws => { s with toWorkers := ws }
  | .ends n failure, s =>
    s.running[n]?.map fun r =>
      { s with running := s.running.set n { r with stage := some failure } }
  | .request d r, s =>
    match r.transaction d s.grants with
    | .ok (id, t) => some (s.commit d r id t)
    | .error _ => some s

/-- The entitlement has no binding, or its binding has a task that no worker has claimed. -/
def Covered (id : UUID) (t : Grants) : Prop :=
  ∀ e ∈ t.entitlements, e.id = id → ∀ bindingID, e.bindingId = some bindingID →
    Unclaimed t.tasks bindingID

/-! ## Keys -/

theorem text_append_inj {a b : UUID} {t t' : List Char}
    (h : a.text.toList ++ t = b.text.toList ++ t') : a = b ∧ t = t' := by
  obtain ⟨ha, ht⟩ := List.append_inj h
    (by rw [String.length_toList, String.length_toList, a.valid, b.valid])
  exact ⟨UUID.text_inj.1 (String.toList_inj.1 ha), ht⟩

/-- A key says what it is the key of. -/
theorem Cause.key_inj {c c' : Cause} (h : c.key = c'.key) : c = c' := by
  have hl := congrArg String.toList h
  cases c <;> cases c' <;>
    simp only [Cause.key, grantKey, revokeKey, String.toList_append, List.append_assoc] at hl
  case granted.granted id clock id' clock' =>
    obtain ⟨hid, ht⟩ := text_append_inj (List.append_cancel_left hl)
    rw [hid, intText_inj (List.append_cancel_left ht)]
  case granted.revoked => exact absurd (List.cons.inj hl).1 (by decide)
  case revoked.granted => exact absurd (List.cons.inj hl).1 (by decide)
  case revoked.revoked id id' =>
    rw [UUID.text_inj.1 (String.toList_inj.1 (List.append_cancel_left hl))]

theorem taskKey_inj {c c' : Cause}
    (h : "entitlement-sync:" ++ c.key = "entitlement-sync:" ++ c'.key) : c = c' := by
  have hl := congrArg String.toList h
  rw [String.toList_append, String.toList_append, List.append_cancel_left_eq] at hl
  exact Cause.key_inj (String.toList_inj.1 hl)

/-! ## What a call leaves -/

/-- The ids are unique, and a key of a call is in the table if it is in the history. -/
structure Accounted (s : State) : Prop where
  tasks : UniqueBy Task.id s.db.tasks
  ids : UniqueBy AccountEntitlement.id s.entitlements
  keys : ∀ c : Cause, Used s.db.tasks ("entitlement-sync:" ++ c.key) ↔ c ∈ s.caused

section
variable {d : Draw} {r : Request} {id : UUID} {s : State} {t : Grants}

/-- A call leaves the entitlement it returns with the binding it is to sync, and enqueues the task of
its cause if there is one. -/
theorem request_ok (hu : UniqueBy AccountEntitlement.id s.entitlements)
    (h : r.transaction d s.grants = .ok (id, t)) :
    UniqueBy AccountEntitlement.id t.entitlements ∧
      (∃ e ∈ t.entitlements, e.id = id ∧ e.bindingId = r.syncBinding s.grants) ∧
      ((r.syncBinding s.grants = none ∧ t.tasks = s.db.tasks) ∨
        ∃ bindingID, r.syncBinding s.grants = some bindingID ∧
          ∃ t₁ : Grants, t₁.tasks = s.db.tasks ∧
            enqueueEntitlementSyncTx d bindingID (r.cause d id).key t₁ = .ok t) := by
  cases r with
  | grant g =>
    obtain ⟨-, b, hb, resourceKey, es, -, hes, ht⟩ := grant_ok h
    have hsync : (Request.grant g).syncBinding s.grants = some b.id := by
      show (bindingFor g.accountID g.instanceID s.grants.bindings).map _ = _
      rw [hb]
      rfl
    obtain ⟨⟨e, he, heid, hebinding⟩, -⟩ :=
      upsert_row hes (fun _ _ => rfl) (p := fun e => e.bindingId = some b.id) rfl fun _ _ => rfl
    have hunique := upsert_unique hu hes
    rw [hsync, show t.entitlements = es by rw [enqueue_tables ht]]
    exact ⟨hunique, ⟨e, he, heid, hebinding⟩, .inr ⟨b.id, rfl, _, rfl, ht⟩⟩
  | revoke id' reason =>
    obtain ⟨rfl, -, e, he, t₁, ht₁, hcase⟩ := revoke_ok h
    have hmem := List.mem_of_find?_eq_some he
    have heid : e.id = id := (by simpa using List.find?_some he : e.id = id ∧ _).1
    have hsync : (Request.revoke id reason).syncBinding s.grants = e.bindingId := by
      show (s.grants.entitlements.find? _).bind _ = _
      rw [he]
      rfl
    have htables : t.entitlements = put AccountEntitlement.id s.entitlements e.revoke := by
      rcases hcase with ⟨-, rfl⟩ | ⟨b, -, ht⟩
      · rw [ht₁]; rfl
      · rw [enqueue_tables ht, ht₁]; rfl
    rw [hsync, htables]
    refine ⟨hu.put fun _ _ e => e, ⟨e.revoke, mem_put.2 (.inr rfl), heid, rfl⟩, ?_⟩
    rcases hcase with ⟨hb, rfl⟩ | ⟨b, hb, ht⟩
    · exact .inl ⟨hb, by rw [ht₁]; rfl⟩
    · exact .inr ⟨b, hb, t₁, by rw [ht₁]; rfl, ht⟩

/-- **What a call leaves of the queue**: a task for the binding, unless the key of its cause is used and
there was none. -/
theorem covered_iff (hu : UniqueBy AccountEntitlement.id s.entitlements)
    (h : r.transaction d s.grants = .ok (id, t)) :
    Covered id t ↔ ∀ bindingID, r.syncBinding s.grants = some bindingID →
      ¬Used s.db.tasks ("entitlement-sync:" ++ (r.cause d id).key) ∨
        Unclaimed s.db.tasks bindingID := by
  obtain ⟨hunique, ⟨e, he, heid, hebinding⟩, htask⟩ := request_ok hu h
  have hcovered : Covered id t ↔ ∀ bindingID, r.syncBinding s.grants = some bindingID →
      Unclaimed t.tasks bindingID := by
    constructor
    · intro hc bindingID hb
      exact hc e he heid bindingID (hebinding.trans hb)
    · intro hc x hx hxid bindingID hb
      rw [hunique.eq hx he (hxid.trans heid.symm)] at hb
      exact hc bindingID (hebinding.symm.trans hb)
  rw [hcovered]
  refine forall_congr' fun bindingID => forall_congr' fun hb => ?_
  rcases htask with ⟨hnone, -⟩ | ⟨b, hsome, t₁, ht₁, ht⟩
  · rw [hnone] at hb
    cases hb
  · rw [hsome] at hb
    cases hb
    rw [enqueue_unclaimed ht, ht₁]

/-! ## Runs -/

/-- A call that commits keeps the account of the keys. -/
theorem Accounted.commit (hs : Accounted s) (h : r.transaction d s.grants = .ok (id, t)) :
    Accounted (s.commit d r id t) := by
  obtain ⟨hunique, -, htask⟩ := request_ok hs.ids h
  rcases htask with ⟨hnone, htasks⟩ | ⟨b, hsome, t₁, ht₁, ht⟩
  · have hcaused : (s.commit d r id t).caused = s.caused := by
      unfold State.commit
      rw [hnone]
      rfl
    refine ⟨?_, hunique, fun c => ?_⟩
    · show UniqueBy Task.id t.tasks
      rw [htasks]
      exact hs.tasks
    · rw [hcaused, ← hs.keys c]
      show Used t.tasks _ ↔ _
      rw [htasks]
  · have hcaused : (s.commit d r id t).caused = s.caused ++ [r.cause d id] := by
      unfold State.commit
      rw [hsome]
      rfl
    rcases enqueue_ok ht with ⟨hused, rfl⟩ | ⟨hunused, x, rfl, hfree, hkey, -⟩
    · rw [ht₁] at hused
      refine ⟨?_, hunique, fun c => ?_⟩
      · show UniqueBy Task.id t.tasks
        rw [ht₁]
        exact hs.tasks
      · rw [hcaused, List.mem_append, List.mem_singleton, ← hs.keys c]
        show Used t.tasks _ ↔ _
        rw [ht₁]
        exact (or_iff_left_of_imp fun hc => hc ▸ hused).symm
    · rw [ht₁] at hfree
      refine ⟨?_, hunique, fun c => ?_⟩
      · show UniqueBy Task.id (t₁.tasks ++ [x])
        rw [ht₁]
        exact hs.tasks.snoc hfree
      · rw [hcaused, List.mem_append, List.mem_singleton, ← hs.keys c]
        show Used (t₁.tasks ++ [x]) _ ↔ _
        rw [ht₁]
        constructor
        · rintro ⟨y, hy, hk⟩
          rcases List.mem_append.1 hy with hy | hy
          · exact .inl ⟨y, hy, hk⟩
          · rw [List.mem_singleton.1 hy, hkey] at hk
            exact .inr (taskKey_inj hk).symm
        · rintro (⟨y, hy, hk⟩ | rfl)
          · exact ⟨y, List.mem_append_left _ hy, hk⟩
          · exact ⟨x, List.mem_append_right _ (List.mem_singleton.2 rfl), hkey⟩

/-- Every step keeps the account of the keys. -/
theorem Accounted.step {l : Label} {s' : State} (hs : Accounted s)
    (h : Entitlements.step l s = some s') : Accounted s' := by
  cases l with
  | queue l =>
    obtain ⟨ws, hws, rfl⟩ := Option.map_eq_some_iff.1 h
    obtain ⟨hu, hk⟩ := queueStep_keyed hws hs.tasks
    exact ⟨hu, hs.ids, fun c => (hk _).trans (hs.keys c)⟩
  | ends n failure =>
    obtain ⟨r, -, rfl⟩ := Option.map_eq_some_iff.1 h
    exact ⟨hs.tasks, hs.ids, hs.keys⟩
  | request d r =>
    simp only [Entitlements.step] at h
    split at h
    · next id t ht =>
      cases h
      exact hs.commit ht
    · cases h
      exact hs

/-- **The tasks of calls.** In every run, after a call that commits, the binding of its entitlement has a
task that no worker has claimed if no earlier call had the same cause, or if there was such a task
before the call. -/
theorem sync_iff {s₀ : State} (h₀ : Accounted s₀) (hrun : Runs step anyStep s₀ s)
    (h : r.transaction d s.grants = .ok (id, t)) :
    Covered id t ↔ r.cause d id ∉ s.caused ∨
      ∀ bindingID, r.syncBinding s.grants = some bindingID → Unclaimed s.db.tasks bindingID := by
  have hs : Accounted s := hrun.keeps h₀ fun _ _ _ _ hst hacc => hacc.step hst
  rw [covered_iff hs.ids h, hs.keys]
  by_cases hc : r.cause d id ∈ s.caused
  · simp [hc]
  · simp [hc]

end

/-! ## A second revocation -/

def boundAccount : Binding where
  id := idOf 'b'
  accountId := idOf 'a'
  instanceId := idOf '1'
  remoteUserId := "u"
  remoteUsername := "u"
  status := .active
  origin := .manualClaim
  isPrimary := true
  remoteDisabled := none

/-- An imported entitlement, which has no task. -/
def importedGrant : State where
  db := { bindings := [boundAccount] }
  entitlements := [
    { id := idOf 'e', accountId := idOf 'a', instanceId := some (idOf '1')
      bindingId := some (idOf 'b'), resourceKey := "films", sourceCodeId := none, startsAt := 0
      expiresAt := 1000 }]

/-- The draw of a call that enqueues the task `digit`. -/
def drawing (digit : Char) (now : Time) : Draw := ⟨idOf 'f', idOf digit, now, now⟩

/-- A worker claims the task `digit` and finishes it. -/
def worked (digit : Char) (now : Time) : List Label :=
  [.queue (.claim ⟨"w", 60⟩ now (idOf digit)), .ends 0 none, .queue (.settle 0 now 0)]

/-- A revocation and a new grant, each with its sync. -/
def revokedAndGranted : List Label :=
  [.request (drawing '2' 1) (.revoke (idOf 'e') "r")] ++ worked '2' 2 ++
    [.request (drawing '3' 3) (.grant ⟨idOf 'a', some (idOf '1'), "emby_library", "films", 1⟩)] ++
    worked '3' 4

/-- The next revocation commits, its entitlement has the binding, and no task is pending. -/
def dropsSync (s : State) : Bool :=
  match revokeEntitlement (drawing '4' 5) (idOf 'e') "r" s.grants with
  | .ok (_, t) => (t.entitlements.any fun e => e.id = idOf 'e' && e.bindingId = some (idOf 'b')) &&
      t.tasks.all (·.status ≠ .pending)
  | .error _ => false

theorem importedGrant_accounted : Accounted importedGrant where
  tasks := uniqueBy_nil
  ids := uniqueBy_singleton
  keys c := iff_of_false (fun ⟨_, ht, _⟩ => absurd ht List.not_mem_nil) List.not_mem_nil

/-- The second revocation of an entitlement enqueues no task. -/
theorem second_revocation : ¬∀ (s₀ s : State) (d : Draw) (r : Request) (id : UUID) (t : Grants),
    Accounted s₀ → Runs step anyStep s₀ s → r.transaction d s.grants = .ok (id, t) →
      Covered id t := by
  intro h
  obtain ⟨s, hrun, hdrops⟩ :=
    play_any step anyStep revokedAndGranted importedGrant dropsSync (by decide +kernel)
  unfold dropsSync at hdrops
  split at hdrops
  · next id t ht =>
    obtain ⟨hrow, hnone⟩ := Bool.and_eq_true_iff.1 hdrops
    obtain ⟨e, he, hp⟩ := List.any_eq_true.1 hrow
    have hp : e.id = idOf 'e' ∧ e.bindingId = some (idOf 'b') := by simpa using hp
    have hid : id = idOf 'e' := (revoke_ok ht).1
    have hcovered := h importedGrant s (drawing '4' 5) (.revoke (idOf 'e') "r") id t
      importedGrant_accounted hrun ht
    obtain ⟨x, hx, -, -, hpending⟩ := hcovered e he (hp.1.trans hid.symm) _ hp.2
    exact of_decide_eq_true (List.all_eq_true.1 hnone x hx) hpending
  · cases hdrops

/-- What the first revocation leaves. -/
def firstRevocation : Except Err (UUID × Grants) :=
  Request.transaction (drawing '2' 1) (.revoke (idOf 'e') "r") importedGrant.grants

theorem sync_iff_first : Accounted importedGrant ∧ Runs step anyStep importedGrant importedGrant ∧
    ∃ t, firstRevocation = .ok (idOf 'e', t) ∧ Covered (idOf 'e') t := by
  have hrun : Runs step anyStep importedGrant importedGrant := .refl
  cases ht : firstRevocation with
  | error e =>
    have hok : firstRevocation.isOk = true := by decide +kernel
    rw [ht] at hok
    cases hok
  | ok p =>
    obtain ⟨id, t⟩ := p
    have hrevoked : revokeEntitlement (drawing '2' 1) (idOf 'e') "r" importedGrant.grants =
        .ok (id, t) := ht
    obtain rfl := (revoke_ok hrevoked).1
    exact ⟨importedGrant_accounted, hrun, t, rfl,
      (sync_iff importedGrant_accounted hrun ht).2 (.inl List.not_mem_nil)⟩

end Sakura.Entitlements
