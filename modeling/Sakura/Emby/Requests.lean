/-
  All calls on Emby accounts keep to the discipline.

  * `Binds.commit`, `claimRemoteUser_keeps`, `adminClaimRemoteUser_keeps`, `adoptLegacyIdentities_keeps`:
    the calls that bind accounts to existing users;
  * `insertProvisioning_keeps`, `requestProvisioning_keeps`: new tasks with their requests;
  * `Request.keeps`.
-/
import Sakura.Emby.Provision

namespace Sakura.Queue

open Txn

variable {env : Environment} {G : Option (UUID × String)} {δ : Versions} {L M : Held Lock}
  {db : Store} {c : Ctx Store Lock Event} {b : Option Binding}

/-! ## Transactions that bind -/

theorem Binds.commit (h : Binds G δ L db) (hdb : Sound env G db) {e : Event}
    (he : ∀ q k, e ≠ .passwordSet q k) : Commit env G L db e δ := by
  have hr : Respects env δ L db := h.respects
  have huser : ¬∃ u, u ∈ δ.upstream := by simp [h.upstream]
  refine ⟨hr, hdb.overlay hr (by simp [h.tasks]) (by simp [h.requests])
    (fun u hu => absurd ⟨u, hu⟩ huser) fun hG b hb _ u hu => ?_, fun _ _ u hu => absurd ⟨u, hu⟩ huser,
    by simp [h.requests], fun q k hq => absurd hq (he q k)⟩
  rcases mem_overlay.1 hu with ⟨hu, -⟩ | hu
  · exact (h.own hG b hb u hu).overlay hdb hr hu
  · exact absurd ⟨u, hu⟩ huser

theorem Bound.start (h : Knows (discipline env G) c (Layers.none Store) fun _ _ => True) :
    Bound env G (fun _ => True) none c :=
  ⟨{}, by simp, h.wrote, h.inv, ⟨.empty, trivial⟩, keeps_binds.and Discipline.keeps_true⟩

theorem Bound.forget (h : Bound env G (fun _ => True) b c) : Bound env G (fun _ => True) none c := by
  obtain ⟨δ, -, h⟩ := h
  exact ⟨δ, by simp, h⟩

theorem Bound.publish (h : Bound env G (fun _ => True) b c) {e : Event}
    (he : ∀ q k, e ≠ .passwordSet q k) {Q : Unit → Ctx Store Lock Event → Prop}
    {E : Err → Ctx Store Lock Event → Prop}
    (hQ : ∀ c', Knows (discipline env G) c' (Layers.none Store) (fun _ _ => True) → Q () c') :
    wp (discipline env G) (.publish e : Call Unit) Q E c := by
  obtain ⟨δ, -, h⟩ := h
  exact h.publish Discipline.keeps_true
    (fun L db hdb hk => ⟨⟨δ, rfl, hk.1.commit hdb he⟩, trivial⟩) hQ

/-- Statements aside, in a transaction that binds. -/
theorem aside_keeps {α : Type} {p : Call α} (hp : p.Statements Aside)
    (h : Bound env G (fun _ => True) b c) {Q : α → Ctx Store Lock Event → Prop}
    (hQ : ∀ a c', Bound env G (fun _ => True) b c' → Q a c') :
    wp (discipline env G) p Q (fun _ _ => True) c :=
  wp_aside hp Discipline.keeps_true h hQ fun _ _ _ => trivial

theorem binding_keeps (h : Bound env G (fun _ => True) b c) {id account i : UUID}
    {remote username : String} {disabled : Bool} {origin : BindingOrigin}
    {Q : Binding → Ctx Store Lock Event → Prop}
    (hQ : ∀ b c', Bound env G (fun _ => True) none c' → Q b c') :
    wp (discipline env G) (createBindingTx id account i remote username disabled origin) Q
      (fun _ _ => True) c :=
  wp_mono (fun _ _ h => h) (fun _ _ _ => trivial) (createBindingTx_keeps Discipline.keeps_true h
    fun c' b _ _ h' => hQ b c' h'.forget)

theorem setClaimed_aside {remote binding : UUID} : (setClaimed remote binding).Statements Aside :=
  (Rows.statements_updateRow aside_lock fun _ _ _ _ => Or.inr ⟨_, rfl, rfl, rfl, rfl, rfl⟩).bind
    fun _ => Prog.statements_pure

theorem currentMembership_aside {mode : Mode} {account : UUID} {now : Time} :
    (currentMembership mode account now).Statements Aside :=
  (Rows.statements_lockRow aside_lock).bind fun _ => Prog.statements_orFail.bind fun _ =>
    (statements_readOne aside_lock).bind fun _ => Prog.statements_pure

theorem countBindings_aside {account i : UUID} : (countBindings account i).Statements Aside :=
  Prog.statements_exec fun v => aside_lock v _

theorem enforceBindingCapacityTx_aside {now : Time} {account i : UUID} :
    (enforceBindingCapacityTx env now account i).Statements Aside :=
  currentMembership_aside.bind fun _ => countBindings_aside.bind fun _ => Prog.statements_check

theorem claimRemoteUser_keeps (h : Knows (discipline env G) c (Layers.none Store) fun _ _ => True)
    {now : Time} {binding account : UUID} {token : String} :
    Keeping env G (claimRemoteUser env now binding account token) c := by
  refine wp_bind.2 (aside_keeps (Rows.statements_lockRow aside_lock) (.start h) fun _ c₁ h₁ => ?_)
  refine wp_bind.2 (aside_keeps Prog.statements_orFail h₁ fun _ c₂ h₂ => ?_)
  refine wp_bind.2 (aside_keeps (Rows.statements_lockRow aside_lock) h₂ fun _ c₃ h₃ => ?_)
  refine wp_bind.2 (aside_keeps Prog.statements_orFail h₃ fun remote c₄ h₄ => ?_)
  refine wp_bind.2 (aside_keeps Prog.statements_check h₄ fun _ c₅ h₅ => ?_)
  refine wp_bind.2 (aside_keeps enforceBindingCapacityTx_aside h₅ fun _ c₆ h₆ => ?_)
  refine wp_bind.2 (binding_keeps h₆ fun _ c₇ h₇ => ?_)
  refine wp_bind.2 (aside_keeps setClaimed_aside h₇ fun _ c₈ h₈ => ?_)
  refine wp_bind.2 (aside_keeps (Rows.statements_updateRow aside_lock
    fun _ _ _ _ => Or.inr ⟨_, rfl, rfl, rfl, rfl, rfl⟩) h₈ fun _ c₉ h₉ => ?_)
  exact wp_bind.2 (h₉.publish (by simp) fun _ _ => trivial)

theorem adminClaimRemoteUser_keeps
    (h : Knows (discipline env G) c (Layers.none Store) fun _ _ => True)
    {binding account remote : UUID} : Keeping env G (adminClaimRemoteUser binding account remote) c := by
  refine wp_bind.2 (aside_keeps (Rows.statements_lockRow aside_lock) (.start h) fun _ c₁ h₁ => ?_)
  refine wp_bind.2 (aside_keeps Prog.statements_orFail h₁ fun _ c₂ h₂ => ?_)
  refine wp_bind.2 (aside_keeps Prog.statements_check h₂ fun _ c₃ h₃ => ?_)
  refine wp_bind.2 (binding_keeps h₃ fun _ c₄ h₄ => ?_)
  refine wp_bind.2 (aside_keeps setClaimed_aside h₄ fun _ c₅ h₅ => ?_)
  exact wp_bind.2 (h₅.publish (by simp) fun _ _ => trivial)

theorem adoptIdentity_keeps (h : Bound env G (fun _ => True) b c) {binding row i : UUID}
    {item : LegacyIdentity} {Q : Unit → Ctx Store Lock Event → Prop}
    (hQ : ∀ c', Bound env G (fun _ => True) none c' → Q () c') :
    wp (discipline env G) (adoptIdentity env binding row i item) Q (fun _ _ => True) c := by
  refine wp_bind.2 (aside_keeps (statements_read aside_lock) h fun bound c₁ h₁ => ?_)
  cases bound with
  | true => exact hQ c₁ h₁.forget
  | false =>
    refine wp_bind.2 (binding_keeps h₁ fun _ c₂ h₂ => ?_)
    exact aside_keeps upsertRemoteUser_aside h₂ fun _ c₃ h₃ => hQ c₃ h₃

/-- Identity after identity, in one transaction. -/
theorem adoptIdentities_keeps {i : UUID} {ids : LegacyIdentity → UUID × UUID}
    {Q : Unit → Ctx Store Lock Event → Prop}
    (hQ : ∀ c', Bound env G (fun _ => True) none c' → Q () c') :
    ∀ (legacy : List LegacyIdentity) {c : Ctx Store Lock Event},
      Bound env G (fun _ => True) none c →
      wp (discipline env G) (adoptIdentities env i ids legacy) Q (fun _ _ => True) c
  | [], c, h => hQ c h
  | _ :: legacy, _, h =>
    wp_bind.2 (adoptIdentity_keeps h fun _ h₁ => adoptIdentities_keeps hQ legacy h₁)

theorem adoptLegacyIdentities_keeps
    (h : Knows (discipline env G) c (Layers.none Store) fun _ _ => True)
    {ids : LegacyIdentity → UUID × UUID} {i : UUID} :
    Keeping env G (adoptLegacyIdentities env ids i) c := by
  refine wp_bind.2 (aside_keeps (statements_read aside_lock) (.start h) fun _ c₁ h₁ => ?_)
  refine wp_bind.2 (aside_keeps Prog.statements_check h₁ fun _ c₂ h₂ => ?_)
  refine wp_bind.2 (aside_keeps (statements_read aside_lock) h₂ fun legacy c₃ h₃ => ?_)
  refine wp_bind.2 (adoptIdentities_keeps (fun c₄ h₄ => ?_) legacy h₃)
  exact h₄.publish (by simp) fun _ _ => trivial

/-! ## New tasks and requests -/

/-- The id of the task is free, and locked. -/
structure TaskRoom (t : Task) (L : Held Lock) (db : Store) : Prop where
  taskLock : Owns L (.task t.id)
  free : ∀ t₀ ∈ db.tasks, t₀.id ≠ t.id

/-- The id and the name of the request are free, and locked. -/
structure RequestRoom (r : ProvisionRequest) (L : Held Lock) (db : Store) : Prop where
  requestLock : Owns L (.provisionRequest r.id)
  nameLock : Owns L (.requestName r.name)
  free : ∀ r₀ ∈ db.provisionRequests, r₀.id ≠ r.id
  unnamed : ∀ r₀ ∈ db.provisionRequests, r₀.name ≠ r.name

theorem keeps_taskRoom {t : Task} : (discipline env G).Keeps (TaskRoom t) where
  mono hLM h := ⟨h.taskLock.mono hLM, h.free⟩
  step := by
    rintro L M db e _ - hc ⟨δ, rfl, hs⟩ h
    exact ⟨h.taskLock, hs.respects.tasks.fresh_overlay h.free (h.taskLock.not_owns hc)⟩

theorem keeps_requestRoom {r : ProvisionRequest} : (discipline env G).Keeps (RequestRoom r) where
  mono hLM h := ⟨h.requestLock.mono hLM, h.nameLock.mono hLM, h.free, h.unnamed⟩
  step := by
    rintro L M db e _ - hc ⟨δ, rfl, hs⟩ h
    exact ⟨h.requestLock, h.nameLock,
      hs.respects.requests.fresh_overlay h.free (h.requestLock.not_owns hc),
      hs.respects.requestNames.fresh_overlay h.unnamed (h.nameLock.not_owns hc)⟩

/-- A request that no worker has handled. -/
def Untried (env : Environment) (r : ProvisionRequest) : Prop :=
  r.requestedUsernameNormalized = env.normalize r.requestedUsername ∧ r.remoteUserId = none ∧
    r.status = .pending ∧ r.preflightCompleted = false

/-- **A new task with its request may be committed.** -/
theorem Binds.request (h : Binds G δ L db) (hdb : Sound env G db) {t : Task} {r : ProvisionRequest}
    (ht : TaskRoom t L db) (hr : RequestRoom r L db) (hnew : Untried env r)
    (hid : t.payload.provisionRequestId = some r.id) (hi : t.payload.instanceId = some r.instanceId)
    {e : Event} (he : ∀ q k, e ≠ .passwordSet q k) :
    Commit env G L db e { δ with tasks := [t], provisionRequests := [r] } := by
  have hb : Respects env δ L db := h.respects
  have hresp : Respects env { δ with tasks := [t], provisionRequests := [r] } L db :=
    { hb with
      tasks := Versioned.single (Or.inr ⟨ht.free, ht.taskLock⟩)
      requests := Versioned.single (Or.inr ⟨hr.free, hr.requestLock⟩)
      requestNames := ⟨uniqueBy_singleton, fun x hx => by
        cases List.mem_singleton.1 hx
        exact Or.inr ⟨hr.unnamed, hr.nameLock⟩⟩ }
  have huser : ¬∃ u, u ∈ δ.upstream := by simp [h.upstream]
  refine ⟨hresp, hdb.overlay hresp (fun x hx _ _ => ?_) (fun x hx => ?_)
    (fun u hu => absurd ⟨u, hu⟩ huser) fun hG b hb' _ u hu => ?_,
    fun _ _ u hu => absurd ⟨u, hu⟩ huser, fun x hx hs => ?_, fun q k hq => absurd hq (he q k)⟩
  · cases List.mem_singleton.1 hx
    exact ⟨r, mem_overlay_right (List.mem_singleton_self _), hid, hi⟩
  · cases List.mem_singleton.1 hx
    obtain ⟨hnorm, hrem, hst, hpre⟩ := hnew
    exact ⟨hnorm, fun _ y hy => by simp [hrem] at hy, fun hs => by simp [hst] at hs,
      fun n _ _ hp => by simp [hpre] at hp⟩
  · rcases mem_overlay.1 hu with ⟨hu, -⟩ | hu
    · exact (h.own hG b hb' u hu).overlay hdb hresp hu
    · exact absurd ⟨u, hu⟩ huser
  · cases List.mem_singleton.1 hx
    simp [hnew.2.2.1] at hs

theorem merge_task {t : Task} : Layers.merge Store δ (tasks.version t) =
    { δ with tasks := put Task.id δ.tasks t } := by
  simp [Layers.merge, Versions.overlay, tasks, put]

/-- The INSERTs of a task and its request, and the commit of them. -/
theorem newRequest_keeps (h : Bound env G (fun _ => True) b c) {t : Task} {r : ProvisionRequest}
    {taken taken' : Store → Bool} {locks locks' : Held Lock}
    (ht : ∀ v, taken v = false → ∀ t₀ ∈ v.tasks, t₀.id ≠ t.id) (hl : Owns locks (.task t.id))
    (hr : ∀ v, taken' v = false → ∀ r₀ ∈ v.provisionRequests, r₀.id ≠ r.id ∧ r₀.name ≠ r.name)
    (hl₁ : Owns locks' (.provisionRequest r.id)) (hl₂ : Owns locks' (.requestName r.name))
    (hnew : Untried env r) (hid : t.payload.provisionRequestId = some r.id)
    (hi : t.payload.instanceId = some r.instanceId) {e : Event} (he : ∀ q k, e ≠ .passwordSet q k)
    {Q : Unit → Ctx Store Lock Event → Prop}
    (hQ : ∀ c', Knows (discipline env G) c' (Layers.none Store) (fun _ _ => True) → Q () c') :
    wp (discipline env G) (do
      tasks.insertRow taken locks t .conflict
      provisionRequests.insertRow taken' locks' r .conflict : Call Unit)
      (fun _ => wp (discipline env G) (.publish e : Call Unit) Q fun _ _ => True)
      (fun _ _ => True) c := by
  obtain ⟨δ, -, h⟩ := h
  refine wp_bind.2 (h.insertRow (fun _ _ => trivial) fun c₁ h₁ _ hfree => ?_)
  have htasks : (Layers.lay c₁.db δ).tasks = c₁.db.tasks := by
    simp [Layers.lay, Store.overlay, h₁.known.1.tasks]
  have hroom : TaskRoom t (c₁.held ++ locks) c₁.db :=
    ⟨hl.mono (List.subset_append_right _ _), fun t₀ ht₀ => ht _ hfree t₀ (htasks ▸ ht₀)⟩
  refine (h₁.write merge_task (keeps_binds.and (keeps_taskRoom (t := t)))
    ⟨h₁.known.1.mono (List.subset_append_left _ _), hroom⟩).insertRow (fun _ _ => trivial)
    fun c₂ h₂ _ hfree' => ?_
  have hrequests : (Layers.lay c₂.db { δ with tasks := put Task.id δ.tasks t }).provisionRequests =
      c₂.db.provisionRequests := by
    simp [Layers.lay, Store.overlay, h₂.known.1.requests]
  have hroom' : RequestRoom r (c₂.held ++ locks') c₂.db :=
    ⟨hl₁.mono (List.subset_append_right _ _), hl₂.mono (List.subset_append_right _ _),
      fun r₀ hr₀ => (hr _ hfree' r₀ (hrequests ▸ hr₀)).1,
      fun r₀ hr₀ => (hr _ hfree' r₀ (hrequests ▸ hr₀)).2⟩
  refine (h₂.write merge_request ((keeps_binds.and keeps_taskRoom).and (keeps_requestRoom (r := r)))
    ⟨⟨h₂.known.1.mono (List.subset_append_left _ _),
      keeps_taskRoom.mono (D := discipline env G) (List.subset_append_left _ _) h₂.known.2⟩,
      hroom'⟩).publish Discipline.keeps_true (fun L db hdb ⟨⟨hb, ht⟩, hr⟩ => ⟨⟨_, rfl, ?_⟩, trivial⟩) hQ
  have hcommit := hb.request hdb ht hr hnew hid hi he
  rwa [hb.tasks, hb.requests, put_nil, put_nil]

/-! ## Provisioning requested -/

theorem assignMembershipTx_aside {fresh : Fresh} {account plan : UUID} {source ref : String}
    {actor : Actor} : (assignMembershipTx fresh account plan source ref actor).Statements Aside := by
  refine (Rows.statements_lockRow aside_lock).bind fun _ => Prog.statements_orFail.bind fun _ => ?_
  refine Prog.statements_check.bind fun _ => (Rows.statements_lockRow aside_lock).bind fun _ => ?_
  refine (Rows.statements_updateRows aside_lock fun _ _ _ _ => ?_).bind fun _ => ?_
  · exact Or.inr ⟨_, rfl, rfl, rfl, rfl, rfl⟩
  refine (Rows.statements_insertRow aside_lock fun _ _ => ?_).bind fun _ => Prog.statements_pure
  exact Or.inr ⟨_, rfl, rfl, rfl, rfl, rfl⟩

theorem newRedemption_aside {fresh : Fresh} {account : UUID} {invitation : InvitationCode}
    {key : String} {actor : Actor} :
    (newRedemption fresh account invitation key actor).Statements Aside := by
  refine Prog.statements_check.bind fun _ => assignMembershipTx_aside.bind fun _ => ?_
  refine (Rows.statements_insertRow aside_lock fun _ _ => ?_).bind fun _ => ?_
  · exact Or.inr ⟨_, rfl, rfl, rfl, rfl, rfl⟩
  refine (Rows.statements_updateRow aside_lock fun _ _ _ _ => ?_).bind fun _ => Prog.statements_pure
  exact Or.inr ⟨_, rfl, rfl, rfl, rfl, rfl⟩

theorem redeemInvitationTx_aside {fresh : Fresh} {account : UUID} {code key : String}
    {actor : Actor} : (redeemInvitationTx fresh account code key actor).Statements Aside := by
  refine Prog.statements_check.bind fun _ => (Rows.statements_lockRow aside_lock).bind fun _ =>
    Prog.statements_orFail.bind fun _ => (statements_read aside_lock).bind fun replay => ?_
  cases replay with
  | none => exact newRedemption_aside
  | some replay => exact statements_readOne aside_lock

theorem provisionMembership_aside {fresh : Fresh} {account : UUID} {code key : String}
    {actor : Actor} : (provisionMembership fresh account code key actor).Statements Aside := by
  unfold provisionMembership
  split
  · exact redeemInvitationTx_aside
  · exact currentMembership_aside

theorem selectInstanceTx_aside : ∀ {i : Option UUID}, (selectInstanceTx i).Statements Aside
  | some _ => (Rows.statements_lockRow aside_lock).bind fun _ => Prog.statements_orFail.bind
    fun _ => Prog.statements_pure
  | none => (Rows.statements_lockRow aside_lock).bind fun _ => Prog.statements_orFail.bind
    fun _ => Prog.statements_pure

theorem getProvisioning_keeps (h : Bound env G (fun _ => True) b c) {account task : UUID} :
    Keeping env G (getProvisioning account task) c :=
  aside_keeps (statements_readOne aside_lock) h fun _ _ _ => trivial

theorem newProvisioning_keeps (h : Bound env G (fun _ => True) none c) {fresh : Fresh} {account : UUID}
    {i : Option UUID} {username code key taskKey : String} {maxAttempts : Nat} {actor : Actor} :
    Keeping env G (newProvisioning env fresh account i username code key taskKey maxAttempts actor)
      c := by
  refine wp_bind.2 (aside_keeps (Rows.statements_lockRow aside_lock) h fun _ c₁ h₁ => ?_)
  refine wp_bind.2 (aside_keeps Prog.statements_orFail h₁ fun _ c₂ h₂ => ?_)
  refine wp_bind.2 (aside_keeps Prog.statements_check h₂ fun _ c₃ h₃ => ?_)
  refine wp_bind.2 (aside_keeps selectInstanceTx_aside h₃ fun i c₄ h₄ => ?_)
  refine wp_bind.2 (aside_keeps (statements_read aside_lock) h₄ fun _ c₅ h₅ => ?_)
  refine wp_bind.2 (aside_keeps Prog.statements_check h₅ fun _ c₆ h₆ => ?_)
  refine wp_bind.2 (wp_mapError.2 (aside_keeps provisionMembership_aside h₆ fun _ c₇ h₇ => ?_))
  refine wp_bind.2 (aside_keeps countBindings_aside h₇ fun _ c₈ h₈ => ?_)
  refine wp_bind.2 (aside_keeps Prog.statements_check h₈ fun _ c₉ h₉ => ?_)
  refine wp_bind.2 (wp_mono (fun _ _ h => wp_bind.2 h) (fun _ _ h => h)
    (newRequest_keeps h₉ (fun v hv t₀ ht₀ => ?_) ?_ (fun v hv r₀ hr₀ => ?_) ?_ ?_
      ⟨rfl, rfl, rfl, rfl⟩ rfl rfl (by simp) fun c' h' => getProvisioning_keeps (.start h')))
  · simp only [Bool.or_eq_false_iff, List.any_eq_false, Bool.or_eq_true, decide_eq_true_eq,
      not_or] at hv
    exact (hv.2 t₀ ht₀).1
  · exact List.mem_cons_self
  · simp only [List.any_eq_false, Bool.or_eq_true, decide_eq_true_eq, not_or] at hv
    exact ⟨(hv r₀ hr₀).1.1, (hv r₀ hr₀).2⟩
  · exact List.mem_cons_self
  · simp [Owns]

theorem requestProvisioning_keeps
    (h : Knows (discipline env G) c (Layers.none Store) fun _ _ => True) {fresh : Fresh}
    {account : UUID} {i : Option UUID} {username code key : String} {maxAttempts : Nat}
    {actor : Actor} :
    Keeping env G (requestProvisioning env fresh account i username code key maxAttempts actor) c := by
  refine wp_bind.2 (aside_keeps Prog.statements_check (.start h) fun _ c₁ h₁ => ?_)
  refine wp_bind.2 (aside_keeps (statements_read aside_lock) h₁ fun replay c₂ h₂ => ?_)
  cases replay with
  | none => exact newProvisioning_keeps h₂
  | some t => exact wp_bind.2 (h₂.publish (by simp) fun _ h' => getProvisioning_keeps (.start h'))

/-! ## All calls -/

/-- **Every call keeps to the discipline.** -/
theorem Request.keeps (r : Request) (hdb : Sound env G db) :
    wp (discipline env G) (r.call env) (fun _ _ => True) (fun _ _ => True)
      ({ db := db } : Ctx Store Lock Event) := by
  have h : Knows (discipline env G) ({ db := db } : Ctx Store Lock Event) (Layers.none Store)
      fun _ _ => True := .start hdb
  cases r with
  | requestProvisioning => exact wp_map.2 (requestProvisioning_keeps h)
  | processNext => exact processNext_keeps h
  | keepLease => exact wp_map.2 (keepLease_keeps h)
  | retryTask => exact retryTask_keeps h
  | claimRemoteUser => exact wp_map.2 (claimRemoteUser_keeps h)
  | adminClaimRemoteUser => exact wp_map.2 (adminClaimRemoteUser_keeps h)
  | adoptLegacyIdentities => exact adoptLegacyIdentities_keeps h
  | outsideUser => exact outsideUser_keeps h

end Sakura.Queue
