/-
  The handler of provisioning keeps to the discipline.

  * `Room`: there is room on the server for a new user; `insertUser_keeps`;
  * `markPreflight_keeps`, `createUser_keeps`, `createRemote_keeps`, `setPassword_keeps`: the transactions
    of the handler up to the last;
  * `Binds`, `createBindingTx_keeps`: versions that create bindings;
  * `recordProvisioned_keeps`, `provision_keeps`.
-/
import Sakura.Emby.Upkeep

namespace Sakura.Queue

open Txn

variable {env : Environment} {G : Option (UUID × String)} {δ δ' : Versions} {L M : Held Lock}
  {db : Store} {c : Ctx Store Lock Event} {K : Store → Prop}

/-- A handler keeps to the discipline; where it fails, the data are sound. -/
abbrev Handling (env : Environment) (G : Option (UUID × String)) {α χ : Type}
    (p : Prog Site Store Lock Event χ α) (Q : α → Ctx Store Lock Event → Prop)
    (c : Ctx Store Lock Event) : Prop :=
  wp (discipline env G) p Q (fun _ c' => Sound env G c'.db) c

/-! ## New users -/

/-- The id and the name of the user are free, and locked. -/
structure Room (env : Environment) (u : EmbyUser) (L : Held Lock) (db : Store) : Prop where
  userLock : Owns L (.upstreamUser u.key)
  remoteLock : Owns L (.bindingRemote u.key)
  nameLock : Owns L (.upstreamName (u.normalized env))
  free : ∀ u₀ ∈ db.upstream, u₀.key ≠ u.key
  unbound : ∀ b ∈ db.bindings, b.remote ≠ u.key
  unnamed : env.uniqueNames = true → ∀ u₀ ∈ db.upstream, u₀.normalized env ≠ u.normalized env

theorem keeps_room {u : EmbyUser} : (discipline env G).Keeps (Room env u) where
  mono hLM h := ⟨h.userLock.mono hLM, h.remoteLock.mono hLM, h.nameLock.mono hLM, h.free, h.unbound,
    h.unnamed⟩
  step := by
    rintro L M db e _ - hc ⟨δ, rfl, hs⟩ h
    have hr := hs.respects
    refine ⟨h.userLock, h.remoteLock, h.nameLock,
      hr.upstream.fresh_overlay h.free (h.userLock.not_owns hc), fun b hb hk => ?_,
      fun hu u' hu' hn => ?_⟩
    · rcases hr.bindings.origin keepBinding.refl hb with ⟨b₀, hb₀, -, hkeep⟩ | ⟨hb, hf, -⟩
      · exact h.unbound b₀ hb₀ (hkeep.remote.symm.trans hk)
      · exact h.remoteLock.not_owns hc (hk ▸ hr.newBindings b hb hf)
    · rcases hr.user hu' with ⟨u₀, hu₀, hk, hkeep⟩ | ⟨hu', hf⟩
      · exact h.unnamed hu u₀ hu₀ ((EmbyUser.normalized_eq hk hkeep).symm.trans hn)
      · exact h.nameLock.not_owns hc (hn ▸ (hr.newUsers u' hu' hf).2)

/-- A server refuses a user, or has room for it. -/
theorem insertUser_keeps {χ : Type} (hK : (discipline env G).Keeps fun _ => K)
    (h : Knows (discipline env G) c (Layers.none Store) fun _ => K) {u : EmbyUser} {x : χ}
    {Q : Unit → Ctx Store Lock Event → Prop}
    (hQ : ∀ c', (u.createdFor = none → ∀ n ∈ G, u.normalized env ≠ n) →
      Knows (discipline env G) c' { upstream := [u] } (fun L db => Room env u L db ∧ K db) →
      Q () c') : Handling env G (insertUser env u x) Q c := by
  refine h.insertRow (fun c₁ h₁ => h₁.inv) fun c₁ h₁ ha ht => ?_
  simp only [Layers.lay_none, Bool.or_eq_false_iff, List.any_eq_false, Bool.or_eq_true,
    decide_eq_true_eq, not_or, Bool.and_eq_true, not_and] at ht
  refine hQ _ (fun hu n hn => ?_) (h₁.write merge_user (keeps_room.and hK) ⟨⟨?_, ?_, ?_, ?_, ?_, ?_⟩, h₁.known⟩)
  · subst hn
    rw [hu] at ha
    exact ha
  · exact List.mem_append_right _ (by simp)
  · exact List.mem_append_right _ (by simp)
  · exact List.mem_append_right _ (by simp [EmbyUser.normalized])
  · exact fun u₀ hu₀ => (ht.1 u₀ hu₀).1
  · exact ht.2
  · intro hn u₀ hu₀ he
    have := Prod.ext_iff.1 he
    exact (ht.1 u₀ hu₀).2 ⟨hn, this.1⟩ this.2

/-- The new user of a server may be there, if it is a request's or has no name of `G`. -/
theorem Room.commit {u : EmbyUser} (h : Room env u L db) (hdb : Sound env G db)
    (hreq : ∀ q, u.createdFor = some q → ∃ r ∈ db.provisionRequests, r.id = q ∧
      r.preflightCompleted = true ∧ u.normalized env = r.name)
    (hother : u.createdFor = none → ∀ n ∈ G, u.normalized env ≠ n) {e : Event}
    (he : ∀ q k, e ≠ .passwordSet q k) : Commit env G L db e { upstream := [u] } := by
  have hr : Respects env { upstream := [u] } L db := { @Respects.none env L db with
    upstream := Versioned.single (Or.inr ⟨h.free, h.userLock⟩)
    newUsers := fun u' hu' _ => by
      cases List.mem_singleton.1 hu'
      exact ⟨h.remoteLock, h.nameLock⟩ }
  have hnew : NewUser env G u (db.overlay { upstream := [u] }) := by
    refine ⟨⟨fun q hq => ?_, fun hu q hq u' hu' hq' => ?_⟩, fun _ b hb hk => ?_, fun n hn hun hc => ?_⟩
    · obtain ⟨r, hr', hid, hp, hname⟩ := hreq q hq
      obtain ⟨r', hr', hid', hkeep⟩ := hr.request hdb hr'
      exact ⟨r', hr', hid'.trans hid, hkeep.2.2.2.2.2 hp, hname.trans hkeep.name.symm⟩
    · rcases mem_overlay.1 hu' with ⟨hu', -⟩ | hu'
      · obtain ⟨r, hr₁, hid, -, hname⟩ := hdb.creator hu' hq'
        obtain ⟨r₂, hr₂, hid₂, -, hname₂⟩ := hreq q hq
        rw [hdb.requestIds.eq hr₁ hr₂ (hid.trans hid₂.symm), ← hname₂] at hname
        exact absurd hname (h.unnamed hu u' hu')
      · rw [List.mem_singleton.1 hu']
    · rcases mem_overlay.1 hb with ⟨hb, -⟩ | hb
      · exact absurd hk.symm (h.unbound b hb)
      · cases hb
    · exact hother hc n hn hun
  have husers : ∀ u' ∈ [u], (∀ u₀ ∈ db.upstream, u₀.key ≠ u'.key) →
      NewUser env G u' (db.overlay { upstream := [u] }) := fun u' hu' _ => by
    cases List.mem_singleton.1 hu'
    exact hnew
  exact ⟨hr, hdb.overlay hr (by simp) (by simp) husers (by simp),
    fun n hn u' hu' hf => (husers u' hu' hf).reserved n hn, by simp, fun q k hq => absurd hq (he q k)⟩

theorem outsideUser_keeps (h : Knows (discipline env G) c (Layers.none Store) fun _ _ => True)
    {i : UUID} {id name : String} : Keeping env G (outsideUser env i id name) c := by
  refine wp_bind.2 (wp_mono (fun _ _ h => h) (fun _ _ _ => trivial)
    (insertUser_keeps Discipline.keeps_true h fun c₁ hother h₁ => ?_))
  refine h₁.publish Discipline.keeps_true (fun L db hdb hk => ⟨⟨_, rfl, ?_⟩, trivial⟩) fun _ _ => trivial
  exact hk.1.commit hdb (by simp) hother (by simp)

/-! ## Marks -/

/-- The request with its mark set. -/
def marked (q : ProvisionRequest) : ProvisionRequest := { q with preflightCompleted := true }

/-- The row of the request, locked. -/
def RequestLocked (r : ProvisionRequest) (L : Held Lock) (db : Store) : Prop :=
  r ∈ db.provisionRequests ∧ Owns L (.provisionRequest r.id)

theorem keeps_requestLocked {r : ProvisionRequest} :
    (discipline env G).Keeps (RequestLocked r) where
  mono hLM h := ⟨h.1, h.2.mono hLM⟩
  step := by
    rintro L M db e _ - hc ⟨δ, rfl, hs⟩ ⟨hr, hl⟩
    exact ⟨hs.respects.requests.mem_overlay hr (hl.not_owns hc), hl⟩

/-- A new version of a locked request. -/
theorem RequestLocked.respects {r r' : ProvisionRequest} (h : RequestLocked r L db)
    (hid : r.id = r'.id) (hk : keepRequest r r') :
    Respects env { provisionRequests := [r'] } L db := { @Respects.none env L db with
  requests := Versioned.single (Or.inl ⟨r, h.1, hid, hk, hid ▸ h.2⟩)
  requestNames := ⟨uniqueBy_singleton, fun x hx => by
    cases List.mem_singleton.1 hx
    exact Or.inl ⟨r, h.1, hid, hk.name.symm⟩⟩ }

/-- A new version of a locked request that is not more succeeded. -/
theorem RequestLocked.commit {r r' : ProvisionRequest} (h : RequestLocked r L db)
    (hdb : Sound env G db) (hid : r.id = r'.id) (hk : keepRequest r r')
    (hs : RequestSound env G r' (db.overlay { provisionRequests := [r'] }))
    (hst : r'.status = .succeeded → r.status = .succeeded) {e : Event}
    (he : ∀ q k, e ≠ .passwordSet q k) : Commit env G L db e { provisionRequests := [r'] } := by
  have hr : Respects env { provisionRequests := [r'] } L db := h.respects hid hk
  refine ⟨hr, hdb.overlay hr (by simp) (fun x hx => ?_) (by simp) (by simp), by simp,
    fun x hx hsx => Or.inl ?_, fun q k hq => absurd hq (he q k)⟩
  · cases List.mem_singleton.1 hx
    exact hs
  · cases List.mem_singleton.1 hx
    exact ⟨r, h.1, hid, hst hsx⟩

theorem isRequest_marked {q : ProvisionRequest} (hp : q.preflightCompleted = true) :
    IsRequest q db ↔ IsRequest (marked q) db := by
  have : marked q = q := by
    cases q
    simp only [marked, ProvisionRequest.mk.injEq, true_and, and_true]
    exact hp.symm
  rw [this]

/-- The mark is set where no user has the name, if nobody else creates one. -/
theorem markPreflight_keeps {q : ProvisionRequest}
    (h : Knows (discipline env G) c (Layers.none Store) fun _ db =>
      IsRequest q db ∧ (G = some q.name → q.preflightCompleted = false → Unnamed env q db))
    {Q : Unit → Ctx Store Lock Event → Prop}
    (hQ : ∀ c', Knows (discipline env G) c' (Layers.none Store) (fun _ => IsRequest (marked q)) →
      Q () c') : Handling env G (markPreflight q) Q c := by
  unfold markPreflight
  split
  · next hp => exact hQ c (h.mono keeps_isRequest fun hk => (isRequest_marked hp).1 hk.1)
  · next hp =>
    have hpf : q.preflightCompleted = false := by simpa using hp
    have h₀ : Knows (discipline env G) c (Layers.none Store) fun _ db =>
        IsRequest q db ∧ (G = some q.name → Unnamed env q db) :=
      h.mono keeps_unnamed fun hk => ⟨hk.1, fun hG => hk.2 hG hpf⟩
    refine wp_bind.2 (h₀.updateRow (fun c₁ h₁ _ => ?_) fun c₁ r h₁ _ hr hpr => ?_)
    · exact wp_bind.2 (wp_check.2 ⟨fun hn => by simp at hn, fun _ => h₁.inv⟩)
    · simp only [Bool.and_eq_true, decide_eq_true_eq, Bool.not_eq_true'] at hpr
      rw [Layers.lay_none] at hr
      refine wp_bind.2 (wp_check.2 ⟨fun _ => ?_, fun hn => by simp at hn⟩)
      refine (h₁.write merge_request (keeps_unnamed.and (keeps_requestLocked (r := r)))
        ⟨h₁.known, hr, List.mem_append_right _ (List.mem_singleton_self _)⟩).publish keeps_isRequest
        (fun L db hdb hk => ?_) hQ
      obtain ⟨⟨hq, hun⟩, hlock⟩ := hk
      obtain ⟨r₀, hr₀, hid₀, hk₀⟩ := hq
      have he : r₀ = r := hdb.requestIds.eq hr₀ hlock.1 (hid₀.trans hpr.1.symm)
      subst he
      have hs := hdb.requestSound r₀ hlock.1
      have hk : keepRequest r₀ (marked r₀) := ⟨rfl, rfl, rfl, rfl, rfl, fun _ => rfl⟩
      have hid : r₀.id = (marked r₀).id := rfl
      have hr : Respects env _ L db := hlock.respects hid hk
      have hcommit : Commit env G L db (.marked q.id) { provisionRequests := [marked r₀] } := by
        refine hlock.commit hdb hid hk ⟨hs.normalized, fun hp x hx => ?_, hs.succeeded,
          fun n hn hname _ u hu hl hne => ?_⟩ id (by simp)
        · exact hr.createdFor hdb (hs.remembered hp x hx)
        · have hG : G = some q.name := by
            rw [← hk₀.name]
            exact hn.trans (congrArg some hname.symm)
          rcases mem_overlay.1 hu with ⟨hu, -⟩ | hu
          · refine absurd ?_ (hun hG r₀ hlock.1 hid₀ hpr.2 u hu hl)
            rw [hne, ← hk₀.name]
            exact hname.symm
          · cases hu
      refine ⟨⟨_, rfl, hcommit⟩, _, mem_overlay_right (List.mem_singleton_self _), hid₀, ?_⟩
      exact ⟨hk₀.1, hk₀.2.1, hk₀.2.2.1, hk₀.2.2.2.1, hk₀.2.2.2.2.1, fun _ => rfl⟩

/-! ## The user of a request -/

/-- The request, and a user that it has created. -/
def HasUser (q : ProvisionRequest) (user : UUID × String) (db : Store) : Prop :=
  IsRequest q db ∧ db.CreatedFor q.id user

theorem keeps_hasUser {q : ProvisionRequest} {user : UUID × String} :
    (discipline env G).Keeps fun _ => HasUser q user :=
  keeps_isRequest.and keeps_createdFor

theorem createUser_keeps {q : ProvisionRequest}
    (h : Knows (discipline env G) c (Layers.none Store) fun _ => IsRequest (marked q)) {a : Attempt}
    {Q : String → Ctx Store Lock Event → Prop}
    (hQ : ∀ c' x, Knows (discipline env G) c' (Layers.none Store)
      (fun _ => HasUser (marked q) (q.instanceId, x)) → Q x c') :
    Handling env G (createUser env a q.id q.instanceId q.requestedUsername) Q c := by
  refine wp_bind.2 (wp_check.2 ⟨fun _ => ?_, fun _ => h.inv⟩)
  refine wp_bind.2 (insertUser_keeps keeps_isRequest h fun c₁ _ h₁ => ?_)
  have hkeeps : (discipline env G).Keeps fun _ => HasUser (marked q) (q.instanceId, a.newUser) :=
    keeps_hasUser
  refine wp_bind.2 (h₁.publish hkeeps (fun L db hdb ⟨hroom, hq⟩ => ?_) fun c₂ h₂ => ?_)
  · obtain ⟨r, hr, hid, hk⟩ := id hq
    have hname : EmbyUser.normalized env
        { instanceId := q.instanceId, id := a.newUser, name := q.requestedUsername
          createdFor := some q.id } = r.name := by
      have := (hdb.requestSound r hr).normalized
      rw [hk.2.2.2.1] at this
      exact Prod.ext hk.2.2.1.symm this.symm
    have hcommit := hroom.commit hdb (e := .userCreated (some q.id) (q.instanceId, a.newUser))
      (fun p hp => ⟨r, hr, hid.trans (Option.some.inj hp), hk.2.2.2.2.2 rfl, hname⟩) (by simp)
      (by simp)
    refine ⟨⟨_, rfl, hcommit⟩, keeps_isRequest.step (L := []) hdb compatible_nil ⟨_, rfl, hcommit⟩ hq,
      ?_⟩
    exact ⟨_, mem_overlay_right (List.mem_singleton_self _), rfl, rfl⟩
  · refine wp_bind.2 (wp_check.2 ⟨fun _ => ?_, fun _ => h₂.inv⟩)
    exact wp_bind.2 (wp_check.2 ⟨fun _ => hQ c₂ _ h₂, fun _ => h₂.inv⟩)

/-- The request as its current row. -/
theorem IsRequest.row {q r : ProvisionRequest} (h : IsRequest q db) (hdb : Sound env G db)
    (hr : r ∈ db.provisionRequests) (hid : r.id = q.id) : keepRequest q r := by
  obtain ⟨r₀, hr₀, hid₀, hk⟩ := h
  rwa [hdb.requestIds.eq hr₀ hr (hid₀.trans hid.symm)] at hk

theorem createRemote_keeps {q : ProvisionRequest}
    (h : Knows (discipline env G) c (Layers.none Store) fun _ db =>
      IsRequest q db ∧ (G = some q.name → q.preflightCompleted = false → Unnamed env q db))
    {a : Attempt} {Q : String → Ctx Store Lock Event → Prop}
    (hQ : ∀ c' x, Knows (discipline env G) c' (Layers.none Store)
      (fun _ => HasUser (marked q) (q.instanceId, x)) → Q x c') :
    Handling env G (createRemote env a q q.instanceId) Q c := by
  refine wp_bind.2 (markPreflight_keeps h fun c₁ h₁ => ?_)
  refine wp_bind.2 (createUser_keeps h₁ fun c₂ x h₂ => ?_)
  refine wp_bind.2 (h₂.updateKey (k := q.id) (fun r => by simp [provisionRequests])
    (fun L db _ hk => ?_) fun c₃ r h₃ _ hr hid => ?_)
  · obtain ⟨r, hr, hid, -⟩ := hk.1
    exact ⟨r, by rwa [Layers.lay_none], hid⟩
  rw [Layers.lay_none] at hr
  refine wp_bind.2 ((h₃.write merge_request (keeps_hasUser.and (keeps_requestLocked (r := r)))
    ⟨h₃.known, hr, List.mem_append_right _ (hid ▸ List.mem_singleton_self _)⟩).publish keeps_hasUser
    (fun L db hdb hk => ?_) fun c₄ h₄ => hQ c₄ x h₄)
  obtain ⟨hq, hlock⟩ := hk
  have hk := hq.1.row hdb hlock.1 hid
  have hs := hdb.requestSound r hlock.1
  have hid' : r.id = { r with remoteUserId := some x : ProvisionRequest }.id := rfl
  have hkeep : keepRequest r { r with remoteUserId := some x } := ⟨rfl, rfl, rfl, rfl, rfl, id⟩
  have hr' : Respects env _ L db := hlock.respects hid' hkeep
  have hcommit : Commit env G L db (.remembered q.id)
      { provisionRequests := [{ r with remoteUserId := some x }] } := by
    refine hlock.commit hdb hid' hkeep ⟨hs.normalized, fun hp y hy => ?_, fun _ => by simp,
      fun n hn hname hpre u hu hl hne => ?_⟩ id (by simp)
    · cases hy
      have := hr'.createdFor hdb hq.2
      rwa [show (marked q).id = r.id from hid.symm, show q.instanceId = r.instanceId from
        hk.2.2.1.symm] at this
    · rcases mem_overlay.1 hu with ⟨hu, -⟩ | hu
      · exact hs.reserved n hn hname hpre u hu hl hne
      · cases hu
  exact ⟨⟨_, rfl, hcommit⟩, keeps_hasUser.step (L := []) hdb compatible_nil ⟨_, rfl, hcommit⟩ hq⟩

/-! ## Passwords -/

/-- The user that the handler works on: one that the request has created, if it is protected. -/
def Found (G : Option (UUID × String)) (q : ProvisionRequest) (user : UUID × String) (db : Store) :
    Prop :=
  IsRequest q db ∧ (Protected G q → db.CreatedFor q.id user)

theorem keeps_found {q : ProvisionRequest} {user : UUID × String} :
    (discipline env G).Keeps fun _ => Found G q user :=
  ⟨fun _ h => h, fun hi hc hst ⟨hq, h⟩ => ⟨keeps_isRequest.step hi hc hst hq,
    fun hp => keeps_createdFor.step hi hc hst (h hp)⟩⟩

/-- The row of the user, locked. -/
def UserLocked (u : EmbyUser) (L : Held Lock) (db : Store) : Prop :=
  u ∈ db.upstream ∧ Owns L (.upstreamUser u.key)

theorem keeps_userLocked {u : EmbyUser} : (discipline env G).Keeps (UserLocked u) where
  mono hLM h := ⟨h.1, h.2.mono hLM⟩
  step := by
    rintro L M db e _ - hc ⟨δ, rfl, hs⟩ ⟨hu, hl⟩
    exact ⟨hs.respects.upstream.mem_overlay hu (hl.not_owns hc), hl⟩

/-- A new version of a locked user. -/
theorem UserLocked.commit {u u' : EmbyUser} (h : UserLocked u L db) (hdb : Sound env G db)
    (hk : u.key = u'.key) (hkeep : keepUser u u') {e : Event}
    (he : ∀ q k, e = .passwordSet q k → ∃ r ∈ db.provisionRequests, r.id = q ∧
      (Protected G r → db.CreatedFor q k)) : Commit env G L db e { upstream := [u'] } := by
  have hold : ∀ x ∈ [u'], ¬∀ u₀ ∈ db.upstream, u₀.key ≠ x.key := fun x hx hf => by
    cases List.mem_singleton.1 hx
    exact hf u h.1 hk
  have hr : Respects env { upstream := [u'] } L db := { @Respects.none env L db with
    upstream := Versioned.single (Or.inl ⟨u, h.1, hk, hkeep, hk ▸ h.2⟩)
    newUsers := fun x hx hf => absurd hf (hold x hx) }
  exact ⟨hr, hdb.overlay hr (by simp) (by simp) (fun x hx hf => absurd hf (hold x hx)) (by simp),
    fun n _ x hx hf => absurd hf (hold x hx), by simp, he⟩

theorem setPassword_keeps {q : ProvisionRequest} {user : UUID × String}
    (h : Knows (discipline env G) c (Layers.none Store) fun _ => Found G q user) {a : Attempt}
    {password : String} {Q : Unit → Ctx Store Lock Event → Prop}
    (hQ : ∀ c', Knows (discipline env G) c' (Layers.none Store) (fun _ => Found G q user) → Q () c') :
    Handling env G (setPassword a q.id user password) Q c := by
  refine wp_bind.2 (wp_check.2 ⟨fun _ => ?_, fun _ => h.inv⟩)
  refine wp_bind.2 (h.updateRow (fun c₁ h₁ _ => ?_) fun c₁ u h₁ _ hu hp => ?_)
  · exact wp_bind.2 (wp_check.2 ⟨fun hn => by simp at hn, fun _ => h₁.inv⟩)
  refine wp_bind.2 (wp_check.2 ⟨fun _ => ?_, fun hn => by simp at hn⟩)
  rw [Layers.lay_none] at hu
  have hkeeps : (discipline env G).Keeps fun _ => Found G q user := keeps_found
  refine wp_bind.2 ((h₁.write merge_user (keeps_found.and (keeps_userLocked (u := u))) ⟨h₁.known, hu,
    List.mem_append_right _ (List.mem_singleton_self _)⟩).publish hkeeps
    (fun L db hdb ⟨hk, hlock⟩ => ?_) fun c₂ h₂ => ?_)
  · have hcommit : Commit env G L db (.passwordSet q.id user)
        { upstream := [{ u with password := some password }] } := by
      have hkey : u.key = { u with password := some password : EmbyUser }.key := rfl
      refine hlock.commit hdb hkey ⟨rfl, rfl⟩ fun p k he => ?_
      cases he
      obtain ⟨⟨r, hr, hid, hkeep⟩, hcr⟩ := hk
      exact ⟨r, hr, hid, fun hp => hcr fun n hn => hkeep.name.symm.trans (hp n hn)⟩
    exact ⟨⟨_, rfl, hcommit⟩, hkeeps.step hdb (L := []) compatible_nil ⟨_, rfl, hcommit⟩ hk⟩
  · exact wp_check.2 ⟨fun _ => hQ c₂ h₂, fun _ => h₂.inv⟩

/-! ## New bindings -/

/-- Versions that create bindings, none of them to a user that the request of another account has
created. -/
structure Binds (G : Option (UUID × String)) (δ : Versions) (L : Held Lock) (db : Store) : Prop where
  tasks : δ.tasks = []
  requests : δ.provisionRequests = []
  upstream : δ.upstream = []
  bindings : Versioned Binding.id (fun id => Owns L (.binding id)) (fun _ => False) keepBinding
    db.bindings δ.bindings
  remotes : ∀ b ∈ δ.bindings, Owns L (.bindingRemote b.remote)
  own : G = none → ∀ b ∈ δ.bindings, ∀ u ∈ db.upstream, OwnUser b u db

theorem Binds.empty : Binds G {} L db where
  tasks := rfl
  requests := rfl
  upstream := rfl
  bindings := .nil
  remotes _ h := by cases h
  own _ _ h := by cases h

theorem Binds.respects (h : Binds G δ L db) : Respects env δ L db where
  tasks := h.tasks ▸ .nil
  requests := h.requests ▸ .nil
  requestNames := h.requests ▸ .nil
  bindings := h.bindings.mono (fun _ => id) fun _ hn => hn.elim
  newBindings b hb _ := h.remotes b hb
  upstream := h.upstream ▸ .nil
  newUsers u hu := by
    rw [h.upstream] at hu
    cases hu

theorem Binds.mono (hLM : L ⊆ M) (h : Binds G δ L db) : Binds G δ M db where
  tasks := h.tasks
  requests := h.requests
  upstream := h.upstream
  bindings := h.bindings.mono (fun _ => Owns.mono hLM) fun _ => id
  remotes b hb := (h.remotes b hb).mono hLM
  own := h.own

theorem keeps_binds : (discipline env G).Keeps (Binds G δ) where
  mono := Binds.mono
  step := by
    rintro L M db e _ hi hc ⟨δ', rfl, hs⟩ h
    refine ⟨h.tasks, h.requests, h.upstream, h.bindings.overlay hs.respects.bindings
      (fun _ hl => hl.not_owns hc) fun _ hn => hn.elim, h.remotes, fun hG b hb u hu hkey => ?_⟩
    rcases hs.respects.user hu with ⟨u₀, hu₀, hk, hkeep⟩ | ⟨hu', hf⟩
    · exact ((h.own hG b hb u₀ hu₀).overlay hi hs.respects hu₀).keep (.refl b) hk hkeep hkey
    · exact absurd (hkey ▸ (hs.respects.newUsers u hu' hf).1) ((h.remotes b hb).not_owns hc)

/-- One more binding. -/
theorem Binds.put (h : Binds G δ L db) {b : Binding} {locks : Held Lock}
    (hfree : ∀ b₀ ∈ (db.overlay δ).bindings, b₀.id ≠ b.id) (hid : Owns locks (.binding b.id))
    (hremote : Owns locks (.bindingRemote b.remote))
    (hown : G = none → ∀ u ∈ db.upstream, OwnUser b u db) :
    Binds G { δ with bindings := put Binding.id δ.bindings b } (L ++ locks) db where
  tasks := h.tasks
  requests := h.requests
  upstream := h.upstream
  bindings := (h.bindings.mono (fun _ => Owns.mono (List.subset_append_left _ _)) fun _ => id).put
    (Or.inr ⟨(fresh_of_view hfree).1, hid.mono (List.subset_append_right _ _)⟩)
  remotes b' hb' := by
    rcases mem_put.1 hb' with ⟨hb', -⟩ | rfl
    · exact (h.remotes b' hb').mono (List.subset_append_left _ _)
    · exact hremote.mono (List.subset_append_right _ _)
  own hG b' hb' u hu := by
    rcases mem_put.1 hb' with ⟨hb', -⟩ | rfl
    · exact h.own hG b' hb' u hu
    · exact hown hG u hu

/-- The open transaction has created the binding `b`, if any, and knows `K`. -/
def Bound (env : Environment) (G : Option (UUID × String)) (K : Store → Prop) (b : Option Binding)
    (c : Ctx Store Lock Event) : Prop :=
  ∃ δ, (∀ x ∈ b, x ∈ δ.bindings) ∧
    Knows (discipline env G) c δ fun L db => Binds G δ L db ∧ K db

theorem Bound.inv {b : Option Binding} (h : Bound env G K b c) : Sound env G c.db := by
  obtain ⟨δ, -, h⟩ := h
  exact h.inv

theorem createBindingTx_keeps (hK : (discipline env G).Keeps fun _ => K) {b₀ : Option Binding}
    (h : Bound env G K b₀ c) {id account i : UUID} {remote username : String} {disabled : Bool}
    {origin : BindingOrigin} {Q : Binding → Ctx Store Lock Event → Prop}
    (hQ : ∀ c' b, b.accountId = account → b.remote = (i, remote) → Bound env G K (some b) c' →
      Q b c') : Handling env G (createBindingTx id account i remote username disabled origin) Q c := by
  obtain ⟨δ, -, h⟩ := h
  refine wp_bind.2 (h.readOne (fun c₁ a h₁ _ => ?_) fun c₁ h₁ _ => h₁.inv)
  refine wp_bind.2 (wp_check.2 ⟨fun _ => ?_, fun _ => h₁.inv⟩)
  refine wp_bind.2 (h₁.read fun c₂ h₂ => ?_)
  refine wp_bind.2 (h₂.insertRow (fun c₃ h₃ => h₃.inv) fun c₃ h₃ ha ht => ?_)
  simp only [List.any_eq_false, Bool.or_eq_true, decide_eq_true_eq, not_or] at ht
  refine hQ _ _ rfl rfl ⟨_, fun x hx => ?_, h₃.write merge_binding (keeps_binds.and hK) ⟨?_, h₃.known.2⟩⟩
  · cases hx
    exact mem_put.2 (Or.inr rfl)
  · refine h₃.known.1.put (fun b₀ hb₀ => (ht b₀ hb₀).1.1) (by simp [Owns]) (by simp [Owns])
      fun hG u hu hkey r hr hq => ?_
    subst hG
    rw [h₃.view] at ha
    have hup : (Layers.lay c₃.db δ).upstream = c₃.db.upstream := by
      simp [Layers.lay, Store.overlay, h₃.known.1.upstream]
    have hreq : (Layers.lay c₃.db δ).provisionRequests = c₃.db.provisionRequests := by
      simp [Layers.lay, Store.overlay, h₃.known.1.requests]
    exact ha u (hup ▸ hu) hkey r (hreq ▸ hr) hq

/-! ## Other tables -/

/-- The statement locks, or writes to a table that no invariant is about. -/
def Aside (_ : Store) (f : Effect Store Lock) : Prop :=
  f.write = id ∨ ∃ d : Versions, (f.write = fun s => Layers.lay s d) ∧ d.tasks = [] ∧
    d.provisionRequests = [] ∧ d.bindings = [] ∧ d.upstream = []

theorem aside_lock (v : Store) (L : Held Lock) : Aside v { locks := L } := Or.inl rfl

theorem Binds.aside {d : Versions} (h : Binds G δ L db) (ht : d.tasks = [])
    (hr : d.provisionRequests = []) (hb : d.bindings = []) (hu : d.upstream = []) :
    Binds G (δ.overlay d) L db where
  tasks := by simp [Versions.overlay, h.tasks, ht]
  requests := by simp [Versions.overlay, h.requests, hr]
  upstream := by simp [Versions.overlay, h.upstream, hu]
  bindings := by simpa [Versions.overlay, hb] using h.bindings
  remotes := by simpa [Versions.overlay, hb] using h.remotes
  own := by simpa [Versions.overlay, hb] using h.own

theorem wp_aside {α χ : Type} {p : Prog Site Store Lock Event χ α} (hp : p.Statements Aside)
    (hK : (discipline env G).Keeps fun _ => K) {b : Option Binding} (h : Bound env G K b c)
    {Q : α → Ctx Store Lock Event → Prop} {E : χ → Ctx Store Lock Event → Prop}
    (hQ : ∀ a c', Bound env G K b c' → Q a c') (hE : ∀ x c', Bound env G K b c' → E x c') :
    wp (discipline env G) p Q E c := by
  refine wp_mono hQ hE (wp_statements (P := Bound env G K b) ?_ ?_ hp h)
  · rintro c c' ⟨δ, hb, h⟩ hw
    exact ⟨δ, hb, h.waits hw⟩
  · rintro c f ⟨δ, hb, h⟩ (hf | ⟨d, hf, ht, hr, hbs, hu⟩)
    · refine ⟨δ, hb, fun s => ?_, h.inv, h.keeps.mono (List.subset_append_left _ _) h.known, h.keeps⟩
      show f.write (c.writes s) = _
      rw [hf]
      exact h.wrote s
    · have hw : (c.apply ⟨f.locks, fun s => Layers.lay s d⟩).Wrote (δ.overlay d) := h.wrote.apply
      refine ⟨δ.overlay d, fun x hx => ?_, fun s => ?_, h.inv,
        ⟨(h.known.1.aside ht hr hbs hu).mono (List.subset_append_left _ _), h.known.2⟩,
        keeps_binds.and hK⟩
      · simpa [Versions.overlay, hbs] using hb x hx
      · show f.write (c.writes s) = _
        rw [hf]
        exact hw s

theorem upsertRemoteUser_aside {χ : Type} {row : RemoteUser} {set : RemoteUser → RemoteUser} :
    (upsertRemoteUser row set : Prog Site Store Lock Event χ Unit).Statements Aside := by
  refine Prog.statements_exec fun v => ?_
  split <;> exact Or.inr ⟨_, rfl, rfl, rfl, rfl, rfl⟩

/-! ## The last transaction -/

/-- Some account is bound to the user. -/
def IsBound (user : UUID × String) (db : Store) : Prop := ∃ b ∈ db.bindings, b.remote = user

theorem keeps_isBound {user : UUID × String} :
    (discipline env G).Keeps fun _ => IsBound user :=
  keeps_of_overlay fun hi hs ⟨b, hb, hu⟩ => by
    obtain ⟨b', hb', -, hk⟩ := hs.respects.binding hi hb
    exact ⟨b', hb', hk.remote.trans hu⟩

/-- The request, succeeded with the user `x`. -/
def succeededWith (x : String) (r : ProvisionRequest) : ProvisionRequest :=
  { r with status := .succeeded, remoteUserId := some x, lastError := none }

theorem Binds.respectsRequest {r r' : ProvisionRequest} (h : Binds G δ L db)
    (hlock : RequestLocked r L db) (hid : r.id = r'.id) (hk : keepRequest r r') :
    Respects env { δ with provisionRequests := [r'] } L db :=
  have hr : Respects env { provisionRequests := [r'] } L db := hlock.respects hid hk
  have hb : Respects env δ L db := h.respects
  ⟨hb.tasks, hr.requests, hr.requestNames, hb.bindings, hb.newBindings, hb.upstream, hb.newUsers⟩

/-- **What the last transaction of the handler commits.** -/
theorem Binds.provisioned {q r : ProvisionRequest} {x : String} {b : Option Binding}
    (h : Binds G δ L db) (hdb : Sound env G db) (hb : ∀ y ∈ b, y ∈ δ.bindings)
    (hlock : RequestLocked r L db) (hid : r.id = q.id) (hq : Found G q (q.instanceId, x) db)
    (hbound : (∃ y ∈ b, y.remote = (q.instanceId, x)) ∨ IsBound (q.instanceId, x) db) {e : Event} (he : ∀ q k, e ≠ .passwordSet q k) :
    Commit env G L db e { δ with provisionRequests := [succeededWith x r] } := by
  have hk := hq.1.row hdb hlock.1 hid
  have hid' : r.id = (succeededWith x r).id := rfl
  have hr : Respects env { δ with provisionRequests := [succeededWith x r] } L db :=
    h.respectsRequest hlock hid' ⟨rfl, rfl, rfl, rfl, rfl, id⟩
  have huser : ¬∃ u, u ∈ δ.upstream := by simp [h.upstream]
  have hcreated : Protected G r → db.CreatedFor r.id (r.instanceId, x) := fun hp => by
    rw [hid, hk.2.2.1]
    exact hq.2 fun n hn => hk.name.symm.trans (hp n hn)
  have hsound : Sound env G (db.overlay { δ with provisionRequests := [succeededWith x r] }) := by
    refine hdb.overlay hr (by simp [h.tasks]) (fun y hy => ?_) (fun u hu => absurd ⟨u, hu⟩ huser)
      fun hG b hb _ u hu => ?_
    · cases List.mem_singleton.1 hy
      have hs := (hdb.requestSound r hlock.1).overlay hdb hlock.1 hr
        (hr.requestNames.uniqueBy hdb.requestNames) fun u hu => absurd ⟨u, hu⟩ huser
      refine ⟨hs.normalized, fun hp z hz => ?_, fun _ => by simp [succeededWith], hs.reserved⟩
      cases hz
      exact hr.createdFor hdb (hcreated hp)
    · rcases mem_overlay.1 hu with ⟨hu, -⟩ | hu
      · exact (h.own hG b hb u hu).overlay hdb hr hu
      · exact absurd ⟨u, hu⟩ huser
  refine ⟨hr, hsound, fun _ _ u hu => absurd ⟨u, hu⟩ huser, fun y hy _ => Or.inr fun hG => ?_,
    fun q k hq => absurd hq (he q k)⟩
  cases List.mem_singleton.1 hy
  have hall : ∀ y ∈ (db.overlay { δ with provisionRequests := [succeededWith x r] }).bindings,
      y.remote = (r.instanceId, x) → y.accountId = r.accountId := fun y hy hyr => by
    obtain ⟨u, hu, hkey, hfor⟩ := hr.createdFor hdb (hcreated (by simp [Protected, hG]))
    exact (hsound.own hG y hy u hu (hkey.trans hyr.symm) (succeededWith x r)
      (mem_overlay_right (List.mem_singleton_self _)) hfor).symm
  refine ⟨x, rfl, ?_, hall⟩
  rcases hbound with ⟨y, hyb, hyr⟩ | ⟨y, hy, hyr⟩
  · have hy : y ∈ (db.overlay { δ with provisionRequests := [succeededWith x r] }).bindings :=
      mem_overlay_right (hb y hyb)
    have hyr' : y.remote = (r.instanceId, x) := by rw [hyr, hk.2.2.1]
    exact ⟨y, hy, hyr', hall y hy hyr'⟩
  · obtain ⟨y', hy', -, hk'⟩ := hr.binding hdb hy
    have hyr' : y'.remote = (r.instanceId, x) := by rw [hk'.remote, hyr, hk.2.2.1]
    exact ⟨y', hy', hyr', hall y' hy' hyr'⟩

section

variable {q : ProvisionRequest} {x : String} {a : Attempt} {Q : Unit → Ctx Store Lock Event → Prop}

/-- The rest of the last transaction, after the binding. -/
theorem recordRest_keeps (hK : (discipline env G).Keeps fun _ => K)
    (hfound : ∀ db, K db → Found G q (q.instanceId, x) db) {b : Option Binding}
    (hbound : (∃ y ∈ b, y.remote = (q.instanceId, x)) ∨ ∀ db, K db → IsBound (q.instanceId, x) db)
    (h : Bound env G K b c) {row : RemoteUser} {set : RemoteUser → RemoteUser}
    (hQ : ∀ c', Knows (discipline env G) c' (Layers.none Store) (fun _ _ => True) → Q () c') :
    Handling env G (do
      upsertRemoteUser row set
      let _ ← provisionRequests.updateRow (fun r => r.id = q.id) (succeededWith x)
      .publish (.provisioned q.id) : Handler Unit) Q c := by
  refine wp_bind.2 (wp_aside upsertRemoteUser_aside hK h (fun _ c₁ h₁ => ?_) fun _ c' h' => h'.inv)
  obtain ⟨δ, hb, h₁⟩ := h₁
  have hrows : Binds G δ c₁.held c₁.db → ∀ db : Store,
      provisionRequests.rows (Layers.lay db δ) = db.provisionRequests := fun hbs db => by
    simp [provisionRequests, Layers.lay, Store.overlay, hbs.requests]
  have hrows := hrows h₁.known.1
  refine wp_bind.2 (h₁.updateKey (k := q.id) (fun r => by simp [provisionRequests])
    (fun L db _ hk => ?_) fun c₂ r h₂ _ hr hid => ?_)
  · obtain ⟨r, hr, hid, -⟩ := (hfound db hk.2).1
    exact ⟨r, by rwa [hrows], hid⟩
  rw [hrows] at hr
  have hput : put ProvisionRequest.id δ.provisionRequests (succeededWith x r) = [succeededWith x r] := by
    rw [h₂.known.1.requests, put_nil]
  refine (h₂.write (merge_request.trans (by rw [hput]))
    ((keeps_binds.and hK).and (keeps_requestLocked (r := r)))
    ⟨⟨h₂.known.1.mono (List.subset_append_left _ _), h₂.known.2⟩, hr,
      List.mem_append_right _ (hid ▸ List.mem_singleton_self _)⟩).publish Discipline.keeps_true
    (fun L db hdb hk => ⟨⟨_, rfl, ?_⟩, trivial⟩) hQ
  obtain ⟨⟨hbs, hk⟩, hlock⟩ := hk
  exact hbs.provisioned hdb hb hlock hid (hfound db hk) (hbound.imp_right fun h => h db hk) (by simp)

theorem recordProvisioned_keeps
    (h : Knows (discipline env G) c (Layers.none Store) fun _ => Found G q (q.instanceId, x))
    (hQ : ∀ c', Knows (discipline env G) c' (Layers.none Store) (fun _ _ => True) → Q () c') :
    Handling env G (recordProvisioned env a q q.instanceId x) Q c := by
  refine wp_bind.2 (h.read fun c₁ h₁ => ?_)
  cases hf : (Layers.lay c₁.db (Layers.none Store)).bindings.find?
      (·.remote = (q.instanceId, x)) with
  | none =>
    have hstart : Bound env G (Found G q (q.instanceId, x)) none c₁ :=
      ⟨{}, by simp, h₁.wrote, h₁.inv, ⟨.empty, h₁.known⟩, keeps_binds.and keeps_found⟩
    refine wp_bind.2 (wp_mapError.2 (createBindingTx_keeps keeps_found hstart fun c₂ b _ hrem h₂ => ?_))
    exact recordRest_keeps keeps_found (fun _ hk => hk) (Or.inl ⟨b, rfl, hrem⟩) h₂ hQ
  | some b =>
    have hb : IsBound (q.instanceId, x) c₁.db := by
      have hmem := List.mem_of_find?_eq_some hf
      rw [Layers.lay_none] at hmem
      exact ⟨b, hmem, by simpa using List.find?_some hf⟩
    have hkeeps : (discipline env G).Keeps fun _ db =>
        Found G q (q.instanceId, x) db ∧ IsBound (q.instanceId, x) db :=
      keeps_found.and keeps_isBound
    have hstart : Bound env G (fun db => Found G q (q.instanceId, x) db ∧
        IsBound (q.instanceId, x) db) none c₁ :=
      ⟨{}, by simp, h₁.wrote, h₁.inv, ⟨.empty, h₁.known, hb⟩, keeps_binds.and hkeeps⟩
    exact recordRest_keeps hkeeps (fun _ hk => hk.1) (Or.inr fun _ hk => hk.2) hstart hQ

end

/-! ## The handler -/

/-- The user that is remembered, or one of the name if no such user is listed. -/
theorem findRemote_some {username : String} {known : Option String} {users : List EmbyUser}
    {u : EmbyUser} (h : findRemote env username known users = some u) :
    u ∈ users ∧ (known = some u.id ∨ env.normalize u.name = env.normalize username ∧
      ∀ u' ∈ users, u'.id ≠ "" → known ≠ some u'.id) := by
  have hnamed : users.find? (fun u => env.normalize u.name = env.normalize username) = some u →
      u ∈ users ∧ env.normalize u.name = env.normalize username := fun hf =>
    ⟨List.mem_of_find?_eq_some hf, by simpa using List.find?_some hf⟩
  unfold findRemote at h
  cases known with
  | none => exact (hnamed h).imp_right fun hn => Or.inr ⟨hn, by simp⟩
  | some k =>
    simp only at h
    split at h
    · next hk =>
      exact (hnamed h).imp_right fun hn => Or.inr ⟨hn, fun u' _ hne he => hne (by simpa [hk] using he.symm)⟩
    · cases hf : users.find? (·.id = k) with
      | none =>
        rw [hf] at h
        have hno : ∀ u' ∈ users, u'.id ≠ k := by simpa using hf
        exact (hnamed h).imp_right fun hn => Or.inr ⟨hn, fun u' hu' _ he =>
          hno u' hu' (Option.some.inj he).symm⟩
      | some u' =>
        rw [hf] at h
        cases h
        have hid : u.id = k := by simpa using List.find?_some hf
        exact ⟨List.mem_of_find?_eq_some hf, Or.inl (congrArg some hid.symm)⟩

theorem findRemote_none {username : String} {known : Option String} {users : List EmbyUser}
    (h : findRemote env username known users = none) :
    ∀ u ∈ users, env.normalize u.name ≠ env.normalize username := by
  have hnamed : users.find? (fun u => env.normalize u.name = env.normalize username) = none := by
    unfold findRemote at h
    cases known with
    | none => exact h
    | some k =>
      simp only at h
      split at h
      · exact h
      · exact (Option.or_eq_none_iff.1 h).2
  intro u hu
  simpa using List.find?_eq_none.1 hnamed u hu

/-- The request as it was read, with the user that it remembers. -/
def Recalls (G : Option (UUID × String)) (q : ProvisionRequest) (db : Store) : Prop :=
  IsRequest q db ∧ (Protected G q → ∀ x, q.remoteUserId = some x →
    db.CreatedFor q.id (q.instanceId, x))

theorem keeps_recalls {q : ProvisionRequest} : (discipline env G).Keeps fun _ => Recalls G q :=
  ⟨fun _ h => h, fun hi hc hst ⟨hq, h⟩ => ⟨keeps_isRequest.step hi hc hst hq,
    fun hp x hx => keeps_createdFor.step hi hc hst (h hp x hx)⟩⟩

/-- The user that the handler finds when the mark is set is one that the request has created. -/
theorem found_of_listed {q : ProvisionRequest} (hdb : Sound env G db) (hq : Recalls G q db)
    (hp : q.preflightCompleted = true) (ha : Admits env G (.listUsers q) db) {u : EmbyUser}
    (hu : u ∈ db.upstream) (hi : u.instanceId = q.instanceId) (hl : u.listed = true)
    (hf : q.remoteUserId = some u.id ∨ env.normalize u.name = env.normalize q.requestedUsername ∧
      ∀ u' ∈ db.upstream, u'.listed = true → u'.instanceId = q.instanceId →
        q.remoteUserId ≠ some u'.id) : Found G q (q.instanceId, u.id) db := by
  refine ⟨hq.1, fun hprot => ?_⟩
  rcases hf with hknown | ⟨hname, hforgot⟩
  · exact hq.2 hprot u.id hknown
  · obtain ⟨r, hr, hid, hk⟩ := hq.1
    have hs := hdb.requestSound r hr
    have hn : u.normalized env = r.name := by
      refine Prod.ext (hi.trans hk.2.2.1.symm) ?_
      show env.normalize u.name = r.requestedUsernameNormalized
      rw [hname, hs.normalized, hk.2.2.2.1]
    refine ⟨u, hu, Prod.ext hi rfl, ?_⟩
    cases G with
    | none => exact ha hp hforgot u hu hl (hn.trans hk.name)
    | some n =>
      have hrn : r.name = n := hk.name.trans (hprot n rfl)
      rw [← hid]
      exact hs.reserved n rfl hrn (hk.2.2.2.2.2 hp) u hu hl (hn.trans hrn)

theorem keeps_unmarked {q : ProvisionRequest} : (discipline env G).Keeps fun _ db =>
    IsRequest q db ∧ (G = some q.name → q.preflightCompleted = false → Unnamed env q db) := by
  cases hp : q.preflightCompleted with
  | true => exact ⟨fun _ h => h, fun hi hc hst h => ⟨keeps_isRequest.step hi hc hst h.1, by simp⟩⟩
  | false => simpa using (keeps_unnamed : (discipline env G).Keeps _)

theorem found_of_hasUser {q : ProvisionRequest} {user : UUID × String} (h : HasUser (marked q) user db) :
    Found G q user db := by
  obtain ⟨⟨r, hr, hid, hk⟩, hc⟩ := h
  exact ⟨⟨r, hr, hid, hk.1, hk.2.1, hk.2.2.1, hk.2.2.2.1, hk.2.2.2.2.1, fun _ => hk.2.2.2.2.2 rfl⟩,
    fun _ => hc⟩

/-- The handler has a user of the request when it goes on to set the password. -/
theorem remoteUser_keeps {q : ProvisionRequest}
    (h : Knows (discipline env G) c (Layers.none Store) fun _ => Recalls G q)
    (ha : Admits env G (.listUsers q) c.db) {l : Listing} {a : Attempt}
    {Q : String → Ctx Store Lock Event → Prop}
    (hQ : ∀ c' x, Knows (discipline env G) c' (Layers.none Store)
      (fun _ => Found G q (q.instanceId, x)) → Q x c') :
    Handling env G (remoteUser env a q q.instanceId (findRemote env q.requestedUsername q.remoteUserId
      (l.order (c.db.upstream.filter fun u =>
        u.instanceId = q.instanceId && u.id ≠ "" && u.name ≠ "")))) Q c := by
  cases hf : findRemote env q.requestedUsername q.remoteUserId (l.order (c.db.upstream.filter
      fun u => u.instanceId = q.instanceId && u.id ≠ "" && u.name ≠ "")) with
  | some u =>
    obtain ⟨hu, hfound⟩ := findRemote_some hf
    simp only [l.mem, List.mem_filter, Bool.and_eq_true, decide_eq_true_eq] at hu
    refine wp_bind.2 (wp_check.2 ⟨fun hp => ?_, fun _ => h.inv⟩)
    have hlisted : u.listed = true := by simp [EmbyUser.listed, hu.2.1.2, hu.2.2]
    refine hQ c u.id ⟨h.wrote, h.inv, found_of_listed h.inv h.known hp ha hu.1 hu.2.1.1 hlisted
      (hfound.imp_right fun hn => ⟨hn.1, fun u' hu' hl hi => ?_⟩), keeps_found⟩
    simp only [EmbyUser.listed, Bool.and_eq_true, decide_eq_true_eq] at hl
    refine hn.2 u' ?_ hl.1
    simp only [l.mem, List.mem_filter, Bool.and_eq_true, decide_eq_true_eq]
    exact ⟨hu', ⟨hi, hl.1⟩, hl.2⟩
  | none =>
    have hnone := findRemote_none hf
    refine createRemote_keeps ⟨h.wrote, h.inv, ⟨h.known.1, fun _ _ r hr hid _ u hu hl hn => ?_⟩,
      keeps_unmarked⟩ fun c' x h' => hQ c' x (h'.mono keeps_found found_of_hasUser)
    have hnorm : r.requestedUsernameNormalized = env.normalize r.requestedUsername :=
      (h.inv.requestSound r hr).normalized
    have hk := h.known.1.row h.inv hr hid
    rw [hk.2.2.2.1, hk.2.2.2.2.1] at hnorm
    obtain ⟨hi, hname⟩ := Prod.ext_iff.1 hn
    simp only [EmbyUser.listed, Bool.and_eq_true, decide_eq_true_eq] at hl
    refine hnone u ?_ (hname.trans hnorm)
    simp only [l.mem, List.mem_filter, Bool.and_eq_true, decide_eq_true_eq]
    exact ⟨hu, ⟨hi, hl.1⟩, hl.2⟩

theorem provision_keeps {task : ClaimedTask} {i : UUID}
    (h : Knows (discipline env G) c (Layers.none Store) fun _ => Linked task.type task.payload)
    (ht : task.type = .embyProvision) (hi : task.payload.instanceId = some i) {a : Attempt}
    {Q : Unit → Ctx Store Lock Event → Prop}
    (hQ : ∀ c', Knows (discipline env G) c' (Layers.none Store) (fun _ _ => True) → Q () c') :
    Handling env G (provision env a task i) Q c := by
  refine wp_bind.2 (wp_orFail.2 ⟨fun id hid => ?_, fun _ => h.inv⟩)
  refine wp_bind.2 (h.readOne (fun c₁ q h₁ hq => ?_) fun c₁ h₁ _ => h₁.inv)
  rw [Layers.lay_none] at hq
  have hmem : q ∈ c₁.db.provisionRequests := List.mem_of_find?_eq_some hq
  have hqid : q.id = id := by simpa using List.find?_some hq
  subst hqid
  obtain ⟨r, hr, hrid, hri⟩ := h₁.known ht
  rw [hid] at hrid
  have hrq : r = q := h₁.inv.requestIds.eq hr hmem (Option.some.inj hrid).symm
  rw [hi, hrq] at hri
  cases hri
  have hs := h₁.inv.requestSound q hmem
  have h₁' : Knows (discipline env G) c₁ (Layers.none Store) fun _ => Recalls G q :=
    ⟨h₁.wrote, h₁.inv, ⟨⟨q, hmem, rfl, .refl q⟩, hs.remembered⟩, keeps_recalls⟩
  refine wp_bind.2 (wp_orFail.2 ⟨fun password _ => ?_, fun _ => h₁.inv⟩)
  unfold listUsers
  cases a.listing with
  | error text => exact h₁.inv
  | ok l =>
    refine wp_bind.2 (wp_query.2 fun c₂ hw ha => ?_)
    have h₂ := h₁'.waits hw
    have hview : c₂.view = c₂.db := by rw [h₂.view, Layers.lay_none]
    rw [hview] at ha ⊢
    refine wp_bind.2 (remoteUser_keeps h₂ ha fun c₃ x h₃ => ?_)
    refine wp_bind.2 (setPassword_keeps h₃ fun c₄ h₄ => ?_)
    exact recordProvisioned_keeps h₄ hQ

/-! ## Tasks -/

theorem client_keeps (h : Knows (discipline env G) c (Layers.none Store) fun _ => K) {a : Attempt}
    {task : ClaimedTask} {Q : UUID → Ctx Store Lock Event → Prop}
    (hQ : ∀ c' i, Knows (discipline env G) c' (Layers.none Store) (fun _ => K) →
      task.payload.instanceId = some i → Q i c') : Handling env G (client a task) Q c := by
  refine wp_bind.2 (wp_orFail.2 ⟨fun id hid => ?_, fun _ => h.inv⟩)
  refine wp_bind.2 (h.readOne (fun c₁ i h₁ hf => ?_) fun c₁ h₁ _ => h₁.inv)
  have hi : i.id = id := by simpa using List.find?_some hf
  refine wp_bind.2 (wp_check.2 ⟨fun _ => ?_, fun _ => h₁.inv⟩)
  cases a.client with
  | some failure => exact h₁.inv
  | none => exact hQ c₁ i.id h₁ (hid.trans (congrArg some hi.symm))

theorem process_keeps {task : ClaimedTask}
    (h : Knows (discipline env G) c (Layers.none Store) fun _ => Linked task.type task.payload)
    {a : Attempt} {Q : Bool → Ctx Store Lock Event → Prop}
    (hQ : ∀ b c', Knows (discipline env G) c' (Layers.none Store) (fun _ _ => True) → Q b c') :
    Handling env G (process env a task) Q c := by
  have hsync : Handling env G (do
      let instanceID ← client a task
      sync env a instanceID
      pure true : Handler Bool) Q c := by
    refine wp_bind.2 (client_keeps h fun c₁ i h₁ _ => ?_)
    refine wp_bind.2 (sync_keeps (h₁.mono Discipline.keeps_true fun _ => trivial)
      (fun c₂ h₂ => hQ true c₂ h₂) fun _ c₂ h₂ => ?_)
    obtain ⟨δ, h₂⟩ := h₂
    exact h₂.inv
  have hother : Q false c := hQ false c (h.mono Discipline.keeps_true fun _ => trivial)
  unfold process
  cases ht : task.type with
  | embyProvision =>
    refine wp_bind.2 (client_keeps h fun c₁ i h₁ hi => ?_)
    exact wp_bind.2 (provision_keeps h₁ ht hi fun c₂ h₂ => hQ true c₂ h₂)
  | embySync => exact hsync
  | embyImport => exact hsync
  | _ => exact hother

theorem processNext_keeps (h : Knows (discipline env G) c (Layers.none Store) fun _ _ => True)
    {w : Worker} {pick : UUID} {a : Attempt} : Keeping env G (processNext env w pick a) c := by
  refine wp_bind.2 (claim_keeps h (fun _ => trivial) fun c₁ item h₁ => ?_)
  refine wp_bind.2 (wp_catching.2 (wp_mono (fun _ _ h => h) (fun failure c₂ hi => ?_)
    (process_keeps h₁ fun b c₂ h₂ => ?_)))
  · exact fail_keeps (.start hi)
  · cases b with
    | true => exact finish_keeps h₂
    | false => trivial

end Sakura.Queue
