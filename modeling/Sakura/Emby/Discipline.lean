/-
  What the calls on Emby accounts may do to requests, bindings and users.

  * `careful`, `undisturbed`: two restrictions on runs;
  * `Sound`: what holds of the data in every state;
  * `Respects`: the versions of a transaction are made under its locks; `Sound.overlay`: what they must
    be for the data to stay sound;
  * `discipline`, and the facts that a transaction keeps: `keeps_isRequest`, `keeps_createdFor`, ….
-/
import Sakura.Emby.Worker
import Sakura.Txn.Versions

namespace Sakura.Queue

open Txn

/-! ## Restrictions on runs -/

/-- The request has created the user. -/
def Store.CreatedFor (db : Store) (request : UUID) (user : UUID × String) : Prop :=
  ∃ u ∈ db.upstream, u.key = user ∧ u.createdFor = some request

def EmbyUser.listed (u : EmbyUser) : Bool := u.id ≠ "" && u.name ≠ ""

def EmbyUser.normalized (env : Environment) (u : EmbyUser) : UUID × String :=
  (u.instanceId, env.normalize u.name)

/-- When users are listed for a request with the mark set, and the one that it remembers is not among
them, those of its name are the request's; and no account is bound to a user that the request of
another one has created. -/
def careful (env : Environment) : Site → Store → Prop
  | .listUsers q, v => q.preflightCompleted = true →
    (∀ u ∈ v.upstream, u.listed = true → u.instanceId = q.instanceId →
      q.remoteUserId ≠ some u.id) →
    ∀ u ∈ v.upstream, u.listed = true → u.normalized env = q.name → u.createdFor = some q.id
  | .bind account user, v => ∀ u ∈ v.upstream, u.key = user → ∀ r ∈ v.provisionRequests,
    u.createdFor = some r.id → r.accountId = account
  | _, _ => True

/-- Nobody else creates a user of the name. -/
def undisturbed (name : UUID × String) : Site → Store → Prop
  | .outsideUser n, _ => n ≠ name
  | _, _ => True

/-- The runs that are `undisturbed` at a name, or `careful` for all requests. -/
def Admits (env : Environment) : Option (UUID × String) → Site → Store → Prop
  | none => careful env
  | some name => undisturbed name

/-- The requests that the restriction is about. -/
def Protected (G : Option (UUID × String)) (r : ProvisionRequest) : Prop := ∀ n ∈ G, r.name = n

/-! ## Sound data -/

/-- The payload of the task names its request and the instance of it. -/
def Linked (type : TaskType) (payload : Payload) (db : Store) : Prop :=
  type = .embyProvision → ∃ r ∈ db.provisionRequests, payload.provisionRequestId = some r.id ∧
    payload.instanceId = some r.instanceId

variable (env : Environment) (G : Option (UUID × String))

structure RequestSound (r : ProvisionRequest) (db : Store) : Prop where
  normalized : r.requestedUsernameNormalized = env.normalize r.requestedUsername
  remembered : Protected G r → ∀ x, r.remoteUserId = some x → db.CreatedFor r.id (r.instanceId, x)
  succeeded : r.status = .succeeded → r.remoteUserId ≠ none
  reserved : ∀ n ∈ G, r.name = n → r.preflightCompleted = true → ∀ u ∈ db.upstream,
    u.listed = true → u.normalized env = n → u.createdFor = some r.id

structure UserSound (u : EmbyUser) (db : Store) : Prop where
  created : ∀ q, u.createdFor = some q → ∃ r ∈ db.provisionRequests, r.id = q ∧
    r.preflightCompleted = true ∧ u.normalized env = r.name
  once : env.uniqueNames = true → ∀ q, u.createdFor = some q → ∀ u' ∈ db.upstream,
    u'.createdFor = some q → u'.key = u.key

/-- The binding is not to a user that the request of another account has created. -/
def OwnUser (b : Binding) (u : EmbyUser) (db : Store) : Prop :=
  u.key = b.remote → ∀ r ∈ db.provisionRequests, u.createdFor = some r.id → r.accountId = b.accountId

structure Sound (db : Store) : Prop where
  requestIds : UniqueBy ProvisionRequest.id db.provisionRequests
  requestNames : UniqueBy ProvisionRequest.name db.provisionRequests
  bindingIds : UniqueBy Binding.id db.bindings
  users : UniqueBy EmbyUser.key db.upstream
  linked : ∀ t ∈ db.tasks, Linked t.type t.payload db
  requestSound : ∀ r ∈ db.provisionRequests, RequestSound env G r db
  userSound : ∀ u ∈ db.upstream, UserSound env u db
  own : G = none → ∀ b ∈ db.bindings, ∀ u ∈ db.upstream, OwnUser b u db

variable {env : Environment} {G : Option (UUID × String)}

/-! ## Versions under locks -/

def keepTask (t t' : Task) : Prop := t'.type = t.type ∧ t'.payload = t.payload

/-- The mark is never taken back. -/
def keepRequest (r r' : ProvisionRequest) : Prop :=
  r'.taskId = r.taskId ∧ r'.accountId = r.accountId ∧ r'.instanceId = r.instanceId ∧
    r'.requestedUsername = r.requestedUsername ∧
    r'.requestedUsernameNormalized = r.requestedUsernameNormalized ∧
    (r.preflightCompleted = true → r'.preflightCompleted = true)

def keepBinding (b b' : Binding) : Prop :=
  b'.accountId = b.accountId ∧ b'.instanceId = b.instanceId ∧ b'.remoteUserId = b.remoteUserId

def keepUser (u u' : EmbyUser) : Prop := u'.name = u.name ∧ u'.createdFor = u.createdFor

theorem keepTask.refl (t : Task) : keepTask t t := ⟨rfl, rfl⟩

theorem keepRequest.refl (r : ProvisionRequest) : keepRequest r r := ⟨rfl, rfl, rfl, rfl, rfl, id⟩

theorem keepBinding.refl (b : Binding) : keepBinding b b := ⟨rfl, rfl, rfl⟩

theorem keepUser.refl (u : EmbyUser) : keepUser u u := ⟨rfl, rfl⟩

theorem keepRequest.name {r r' : ProvisionRequest} (h : keepRequest r r') : r'.name = r.name :=
  Prod.ext h.2.2.1 h.2.2.2.2.1

theorem keepBinding.remote {b b' : Binding} (h : keepBinding b b') : b'.remote = b.remote :=
  Prod.ext h.2.1 h.2.2

structure Respects (env : Environment) (δ : Versions) (L : Held Lock) (db : Store) : Prop where
  tasks : Versioned Task.id (fun id => Owns L (.task id)) (fun id => Owns L (.task id)) keepTask
    db.tasks δ.tasks
  requests : Versioned ProvisionRequest.id (fun id => Owns L (.provisionRequest id))
    (fun id => Owns L (.provisionRequest id)) keepRequest db.provisionRequests δ.provisionRequests
  requestNames : Indexed ProvisionRequest.id ProvisionRequest.name (fun n => Owns L (.requestName n))
    db.provisionRequests δ.provisionRequests
  bindings : Versioned Binding.id (fun id => Owns L (.binding id)) (fun id => Owns L (.binding id))
    keepBinding db.bindings δ.bindings
  newBindings : ∀ b ∈ δ.bindings, (∀ b₀ ∈ db.bindings, b₀.id ≠ b.id) →
    Owns L (.bindingRemote b.remote)
  upstream : Versioned EmbyUser.key (fun k => Owns L (.upstreamUser k))
    (fun k => Owns L (.upstreamUser k)) keepUser db.upstream δ.upstream
  newUsers : ∀ u ∈ δ.upstream, (∀ u₀ ∈ db.upstream, u₀.key ≠ u.key) →
    Owns L (.bindingRemote u.key) ∧ Owns L (.upstreamName (u.normalized env))

variable {δ δ' : Versions} {L M : Held Lock} {db db' : Store}

theorem Respects.none : Respects env {} L db where
  tasks := .nil
  requests := .nil
  requestNames := .nil
  bindings := .nil
  newBindings _ h := by cases h
  upstream := .nil
  newUsers _ h := by cases h

theorem Respects.mono (hLM : L ⊆ M) (h : Respects env δ L db) : Respects env δ M db where
  tasks := h.tasks.mono (fun _ => Owns.mono hLM) fun _ => Owns.mono hLM
  requests := h.requests.mono (fun _ => Owns.mono hLM) fun _ => Owns.mono hLM
  requestNames := h.requestNames.mono fun _ => Owns.mono hLM
  bindings := h.bindings.mono (fun _ => Owns.mono hLM) fun _ => Owns.mono hLM
  newBindings b hb hf := (h.newBindings b hb hf).mono hLM
  upstream := h.upstream.mono (fun _ => Owns.mono hLM) fun _ => Owns.mono hLM
  newUsers u hu hf := (h.newUsers u hu hf).imp (Owns.mono hLM) (Owns.mono hLM)

/-- **Interference.** -/
theorem Respects.overlay (h : Respects env δ L db) (h' : Respects env δ' M db) (hc : Compatible L M) :
    Respects env δ L (db.overlay δ') where
  tasks := h.tasks.overlay h'.tasks (fun _ hl => hl.not_owns hc) fun _ hl => hl.not_owns hc
  requests := h.requests.overlay h'.requests (fun _ hl => hl.not_owns hc) fun _ hl => hl.not_owns hc
  requestNames := h.requestNames.overlay h.requests h'.requestNames h'.requests
    (fun _ hl => hl.not_owns hc) fun _ hl => hl.not_owns hc
  bindings := h.bindings.overlay h'.bindings (fun _ hl => hl.not_owns hc) fun _ hl => hl.not_owns hc
  newBindings b hb hf := h.newBindings b hb (fresh_overlay hf)
  upstream := h.upstream.overlay h'.upstream (fun _ hl => hl.not_owns hc) fun _ hl => hl.not_owns hc
  newUsers u hu hf := h.newUsers u hu (fresh_overlay hf)

/-! ## What stays -/

/-- A request remains, as a version of it. -/
theorem Respects.request (h : Respects env δ L db) (hdb : Sound env G db) {r : ProvisionRequest}
    (hr : r ∈ db.provisionRequests) :
    ∃ r' ∈ (db.overlay δ).provisionRequests, r'.id = r.id ∧ keepRequest r r' :=
  h.requests.version_overlay keepRequest.refl hdb.requestIds hr

theorem Respects.binding (h : Respects env δ L db) (hdb : Sound env G db) {b : Binding}
    (hb : b ∈ db.bindings) : ∃ b' ∈ (db.overlay δ).bindings, b'.id = b.id ∧ keepBinding b b' :=
  h.bindings.version_overlay keepBinding.refl hdb.bindingIds hb

theorem Respects.createdFor (h : Respects env δ L db) (hdb : Sound env G db) {q : UUID}
    {k : UUID × String} : db.CreatedFor q k → (db.overlay δ).CreatedFor q k := by
  rintro ⟨u, hu, hk, hq⟩
  obtain ⟨u', hu', hk', hkeep⟩ := h.upstream.version_overlay keepUser.refl hdb.users hu
  exact ⟨u', hu', hk'.trans hk, hkeep.2.trans hq⟩

theorem Respects.linked (h : Respects env δ L db) (hdb : Sound env G db) {type : TaskType}
    {payload : Payload} (hl : Linked type payload db) : Linked type payload (db.overlay δ) := by
  intro ht
  obtain ⟨r, hr, hid, hinst⟩ := hl ht
  obtain ⟨r', hr', hid', hkeep⟩ := h.request hdb hr
  exact ⟨r', hr', hid.trans (congrArg some hid'.symm),
    hinst.trans (congrArg some hkeep.2.2.1.symm)⟩

/-- A user of after was there before, or is new. -/
theorem Respects.user (h : Respects env δ L db) {u : EmbyUser} (hu : u ∈ (db.overlay δ).upstream) :
    (∃ u₀ ∈ db.upstream, u₀.key = u.key ∧ keepUser u₀ u) ∨
      u ∈ δ.upstream ∧ ∀ u₀ ∈ db.upstream, u₀.key ≠ u.key :=
  (h.upstream.origin keepUser.refl hu).imp_right fun ⟨hu, hf, _⟩ => ⟨hu, hf⟩

theorem EmbyUser.normalized_eq {u u' : EmbyUser} (hk : u.key = u'.key) (h : keepUser u u') :
    u'.normalized env = u.normalized env := by
  have hinst : u.instanceId = u'.instanceId := congrArg Prod.fst hk
  rw [EmbyUser.normalized, EmbyUser.normalized, hinst, h.1]

theorem EmbyUser.listed_eq {u u' : EmbyUser} (hk : u.key = u'.key) (h : keepUser u u') :
    u'.listed = u.listed := by
  have hid : u.id = u'.id := congrArg Prod.snd hk
  rw [EmbyUser.listed, EmbyUser.listed, hid, h.1]

/-- A request that has created a user is there. -/
theorem Sound.creator (hdb : Sound env G db) {u : EmbyUser} (hu : u ∈ db.upstream) {q : UUID}
    (hq : u.createdFor = some q) : ∃ r ∈ db.provisionRequests, r.id = q ∧
      r.preflightCompleted = true ∧ u.normalized env = r.name :=
  (hdb.userSound u hu).created q hq

/-! ## New rows -/

/-- What a new user must be. -/
structure NewUser (env : Environment) (G : Option (UUID × String)) (u : EmbyUser) (db : Store) :
    Prop where
  sound : UserSound env u db
  own : G = none → ∀ b ∈ db.bindings, OwnUser b u db
  reserved : ∀ n ∈ G, u.normalized env = n → u.createdFor ≠ none

/-- A request that stays as it is, among new users. -/
theorem RequestSound.overlay {r : ProvisionRequest} (hr : RequestSound env G r db)
    (hdb : Sound env G db) (hmem : r ∈ db.provisionRequests) (h : Respects env δ L db)
    (hnames : UniqueBy ProvisionRequest.name (db.overlay δ).provisionRequests)
    (husers : ∀ u ∈ δ.upstream, (∀ u₀ ∈ db.upstream, u₀.key ≠ u.key) →
      NewUser env G u (db.overlay δ)) : RequestSound env G r (db.overlay δ) where
  normalized := hr.normalized
  remembered hp x hx := h.createdFor hdb (hr.remembered hp x hx)
  succeeded := hr.succeeded
  reserved n hn hname hp u hu hl hun := by
    rcases h.user hu with ⟨u₀, hu₀, hk, hkeep⟩ | ⟨hu, hf⟩
    · rw [EmbyUser.listed_eq hk hkeep] at hl
      rw [EmbyUser.normalized_eq hk hkeep] at hun
      exact hkeep.2.trans (hr.reserved n hn hname hp u₀ hu₀ hl hun)
    · obtain ⟨⟨hcreated, -⟩, -, hres⟩ := husers u hu hf
      obtain ⟨q, hq⟩ := Option.ne_none_iff_exists'.1 (hres n hn hun)
      obtain ⟨r₁, hr₁, rfl, -, hname₁⟩ := hcreated q hq
      obtain ⟨r₂, hr₂, hid₂, hkeep₂⟩ := h.request hdb hmem
      have he : r₁ = r₂ := hnames.eq hr₁ hr₂ (by rw [← hname₁, hun, ← hname, hkeep₂.name])
      rw [hq, he, hid₂]

/-- A user of before stays sound among new ones. -/
theorem UserSound.overlay {u₀ u : EmbyUser} (hu₀ : u₀ ∈ db.upstream) (hk : u₀.key = u.key)
    (hkeep : keepUser u₀ u) (hdb : Sound env G db) (h : Respects env δ L db)
    (husers : ∀ u ∈ δ.upstream, (∀ u₀ ∈ db.upstream, u₀.key ≠ u.key) →
      NewUser env G u (db.overlay δ)) : UserSound env u (db.overlay δ) where
  created q hq := by
    obtain ⟨r, hr, hid, hp, hname⟩ := hdb.creator hu₀ (hkeep.2.symm.trans hq)
    obtain ⟨r', hr', hid', hkeep'⟩ := h.request hdb hr
    refine ⟨r', hr', hid'.trans hid, hkeep'.2.2.2.2.2 hp, ?_⟩
    rw [EmbyUser.normalized_eq hk hkeep, hname, hkeep'.name]
  once huniq q hq u' hu' hq' := by
    rcases h.user hu' with ⟨u₁, hu₁, hk₁, hkeep₁⟩ | ⟨hnew, hf⟩
    · rw [← hk₁, ← hk]
      exact (hdb.userSound u₀ hu₀).once huniq q (hkeep.2.symm.trans hq) u₁ hu₁
        (hkeep₁.2.symm.trans hq')
    · obtain ⟨u₂, hu₂, hk₂, hkeep₂⟩ := h.upstream.version_overlay keepUser.refl hdb.users hu₀
      rw [← hk, ← hk₂]
      exact ((husers u' hnew hf).sound.once huniq q hq' u₂ hu₂
        (hkeep₂.2.trans (hkeep.2.symm.trans hq))).symm

theorem OwnUser.overlay {b : Binding} {u : EmbyUser} (ho : OwnUser b u db) (hdb : Sound env G db)
    (h : Respects env δ L db) (hu : u ∈ db.upstream) : OwnUser b u (db.overlay δ) := by
  intro hkey r hr hq
  obtain ⟨r₀, hr₀, hid₀, -, -⟩ := hdb.creator hu hq
  obtain ⟨r', hr', hid', hkeep'⟩ := h.request hdb hr₀
  have he : r' = r := (h.requests.uniqueBy hdb.requestIds).eq hr' hr (hid'.trans hid₀)
  rw [← he, hkeep'.2.1]
  exact ho hkey r₀ hr₀ (hq.trans (congrArg some hid₀.symm))

theorem OwnUser.keep {b₀ b : Binding} {u₀ u : EmbyUser} (ho : OwnUser b₀ u₀ db)
    (hkeepb : keepBinding b₀ b) (hk : u₀.key = u.key) (hkeep : keepUser u₀ u) : OwnUser b u db := by
  intro hkey r hr hq
  rw [hkeepb.1]
  exact ho (hk.trans (hkey.trans hkeepb.remote)) r hr (hkeep.2.symm.trans hq)

/-- **The data stay sound** if the new rows are. -/
theorem Sound.overlay (hdb : Sound env G db) (h : Respects env δ L db)
    (htasks : ∀ t ∈ δ.tasks, (∀ t₀ ∈ db.tasks, t₀.id ≠ t.id) → Linked t.type t.payload (db.overlay δ))
    (hrequests : ∀ r ∈ δ.provisionRequests, RequestSound env G r (db.overlay δ))
    (husers : ∀ u ∈ δ.upstream, (∀ u₀ ∈ db.upstream, u₀.key ≠ u.key) →
      NewUser env G u (db.overlay δ))
    (hbindings : G = none → ∀ b ∈ δ.bindings, (∀ b₀ ∈ db.bindings, b₀.id ≠ b.id) →
      ∀ u ∈ (db.overlay δ).upstream, OwnUser b u (db.overlay δ)) :
    Sound env G (db.overlay δ) where
  requestIds := h.requests.uniqueBy hdb.requestIds
  requestNames := h.requestNames.uniqueBy hdb.requestNames
  bindingIds := h.bindings.uniqueBy hdb.bindingIds
  users := h.upstream.uniqueBy hdb.users
  linked t ht := by
    rcases h.tasks.origin keepTask.refl ht with ⟨t₀, ht₀, -, hkeep⟩ | ⟨ht, hf, -⟩
    · rw [hkeep.1, hkeep.2]
      exact h.linked hdb (hdb.linked t₀ ht₀)
    · exact htasks t ht hf
  requestSound r hr := by
    rcases mem_overlay.1 hr with ⟨hr, -⟩ | hr
    · exact (hdb.requestSound r hr).overlay hdb hr h (h.requestNames.uniqueBy hdb.requestNames) husers
    · exact hrequests r hr
  userSound u hu := by
    rcases h.user hu with ⟨u₀, hu₀, hk, hkeep⟩ | ⟨hu, hf⟩
    · exact UserSound.overlay hu₀ hk hkeep hdb h husers
    · exact (husers u hu hf).sound
  own hG b hb u hu := by
    rcases h.bindings.origin keepBinding.refl hb with ⟨b₀, hb₀, -, hkeepb⟩ | ⟨hb', hf, -⟩
    · rcases h.user hu with ⟨u₀, hu₀, hk, hkeep⟩ | ⟨hu', hf⟩
      · exact ((hdb.own hG b₀ hb₀ u₀ hu₀).overlay hdb h hu₀).keep hkeepb hk hkeep
      · exact (husers u hu' hf).own hG b hb
    · exact hbindings hG b hb' hf u hu

/-! ## Commits -/

/-- The remote user of the request is bound to its account, and to no other. -/
def Store.Provisioned (db : Store) (r : ProvisionRequest) : Prop :=
  ∃ x, r.remoteUserId = some x ∧
    (∃ b ∈ db.bindings, b.remote = (r.instanceId, x) ∧ b.accountId = r.accountId) ∧
    ∀ b ∈ db.bindings, b.remote = (r.instanceId, x) → b.accountId = r.accountId

/-- What a commit with the versions `δ` does. -/
structure Commit (env : Environment) (G : Option (UUID × String)) (L : Held Lock) (db : Store)
    (e : Event) (δ : Versions) : Prop where
  respects : Respects env δ L db
  sound : Sound env G (db.overlay δ)
  /-- Only requests create users of the name. -/
  users : ∀ n ∈ G, ∀ u ∈ δ.upstream, (∀ u₀ ∈ db.upstream, u₀.key ≠ u.key) → u.normalized env = n →
    u.createdFor ≠ none
  succeeded : ∀ r ∈ δ.provisionRequests, r.status = .succeeded →
    (∃ r₀ ∈ db.provisionRequests, r₀.id = r.id ∧ r₀.status = .succeeded) ∨
      (G = none → (db.overlay δ).Provisioned r)
  password : ∀ q k, e = .passwordSet q k → ∃ r ∈ db.provisionRequests, r.id = q ∧
    (Protected G r → db.CreatedFor q k)

/-- **What the calls keep to.** -/
def discipline (env : Environment) (G : Option (UUID × String)) :
    Discipline Site Store Lock Event where
  inv := Sound env G
  step L db e db' := ∃ δ, db' = db.overlay δ ∧ Commit env G L db e δ
  allowed := Admits env G
  step_inv := by
    rintro L db e _ - ⟨δ, rfl, h⟩
    exact h.sound

theorem keeps_respects : (discipline env G).Keeps (Respects env δ) :=
  ⟨Respects.mono, fun _ hc ⟨_, e, hs⟩ h => e ▸ h.overlay hs.respects hc⟩

/-- What every commit keeps is known without locks. -/
theorem keeps_of_overlay {P : Store → Prop} (h : ∀ {δ L e db}, Sound env G db →
    Commit env G L db e δ → P db → P (db.overlay δ)) : (discipline env G).Keeps fun _ => P where
  mono _ hp := hp
  step := by
    rintro L M db e _ hi - ⟨δ, rfl, hs⟩ hp
    exact h hi hs hp

/-! ## Versions written -/

theorem merge_request {r : ProvisionRequest} :
    Layers.merge Store δ (provisionRequests.version r) =
      { δ with provisionRequests := put ProvisionRequest.id δ.provisionRequests r } := by
  simp [Layers.merge, Versions.overlay, provisionRequests, put]

theorem merge_binding {b : Binding} : Layers.merge Store δ (bindings.version b) =
    { δ with bindings := put Binding.id δ.bindings b } := by
  simp [Layers.merge, Versions.overlay, bindings, put]

theorem merge_remoteUser {u : RemoteUser} : Layers.merge Store δ (remoteUsers.version u) =
    { δ with remoteUsers := put RemoteUser.id δ.remoteUsers u } := by
  simp [Layers.merge, Versions.overlay, remoteUsers, put]

theorem merge_user {u : EmbyUser} : Layers.merge Store δ (upstream.version u) =
    { δ with upstream := put EmbyUser.key δ.upstream u } := by
  simp [Layers.merge, Versions.overlay, upstream, put]

/-! ## What a transaction knows -/

/-- The request, as it was or in a later version. -/
def IsRequest (q : ProvisionRequest) (db : Store) : Prop :=
  ∃ r ∈ db.provisionRequests, r.id = q.id ∧ keepRequest q r

theorem keeps_isRequest {q : ProvisionRequest} :
    (discipline env G).Keeps fun _ => IsRequest q := by
  refine keeps_of_overlay fun hi hs ⟨r, hr, hid, hk⟩ => ?_
  obtain ⟨r', hr', hid', hk'⟩ := hs.respects.request hi hr
  refine ⟨r', hr', hid'.trans hid, hk'.1.trans hk.1, hk'.2.1.trans hk.2.1, hk'.2.2.1.trans hk.2.2.1,
    hk'.2.2.2.1.trans hk.2.2.2.1, hk'.2.2.2.2.1.trans hk.2.2.2.2.1, fun hp => ?_⟩
  exact hk'.2.2.2.2.2 (hk.2.2.2.2.2 hp)

theorem keeps_linked {type : TaskType} {payload : Payload} :
    (discipline env G).Keeps fun _ => Linked type payload :=
  keeps_of_overlay fun hi hs h => hs.respects.linked hi h

theorem keeps_createdFor {q : UUID} {k : UUID × String} :
    (discipline env G).Keeps fun _ db => db.CreatedFor q k :=
  keeps_of_overlay fun hi hs h => hs.respects.createdFor hi h

/-- While the mark of the request is not set, no user has its name. -/
def Unnamed (env : Environment) (q : ProvisionRequest) (db : Store) : Prop :=
  ∀ r ∈ db.provisionRequests, r.id = q.id → r.preflightCompleted = false →
    ∀ u ∈ db.upstream, u.listed = true → u.normalized env ≠ q.name

/-- Only the request itself could create one. -/
theorem keeps_unnamed {q : ProvisionRequest} : (discipline env G).Keeps
    fun _ db => IsRequest q db ∧ (G = some q.name → Unnamed env q db) := by
  refine keeps_of_overlay fun {δ L e db} hi hs ⟨hq, h⟩ =>
    ⟨keeps_isRequest.step (L := []) hi compatible_nil ⟨δ, rfl, hs⟩ hq, ?_⟩
  intro hG r hr hid hp u hu hl hn
  obtain ⟨r₀, hr₀, hid₀, hk₀⟩ := hq
  obtain ⟨r', hr', hid', hk'⟩ := hs.respects.request hi hr₀
  have hr' : r' = r := hs.sound.requestIds.eq hr' hr (hid'.trans (hid₀.trans hid.symm))
  have hp₀ : r₀.preflightCompleted = false := by
    by_contra hne
    rw [← hr', hk'.2.2.2.2.2 (by simpa using hne)] at hp
    cases hp
  rcases hs.respects.user hu with ⟨u₀, hu₀, hk, hkeep⟩ | ⟨hu', hf⟩
  · rw [EmbyUser.listed_eq hk hkeep] at hl
    rw [EmbyUser.normalized_eq hk hkeep] at hn
    exact h hG r₀ hr₀ hid₀ hp₀ u₀ hu₀ hl hn
  · obtain ⟨p, hpc⟩ := Option.ne_none_iff_exists'.1 (hs.users q.name hG u hu' hf hn)
    obtain ⟨r₁, hr₁, -, hp₁, hname₁⟩ := hs.sound.creator hu hpc
    have he : r₁ = r := hs.sound.requestNames.eq hr₁ hr
      (by rw [← hname₁, hn, ← hr', hk'.name, hk₀.name])
    rw [he, hp] at hp₁
    cases hp₁

end Sakura.Queue
