/-
  What the calls of package identity may do to accounts, sessions and roles.

  * `Respects`: the versions of a transaction are made under its locks;
  * `Step`: what a commit does, `discipline`;
  * `Request.keeps`: every call keeps to it.
-/
import Sakura.Identity.Service
import Sakura.Txn.Versions

namespace Sakura.Identity

open Txn

/-! ## Versions under locks -/

def later (a a' : Account) : Prop := a.revision < a'.revision

/-- A session keeps its account, and stays revoked. -/
def keepsRevoked (s s' : Session) : Prop :=
  s'.accountId = s.accountId ∧ (s.revokedAt ≠ none → s'.revokedAt ≠ none)

/-- A role of the system is never written, and no role changes its code. -/
def keepsCode (r r' : Role) : Prop :=
  r.system = false ∧ r'.system = false ∧ r'.code = r.code

structure Respects (δ : Versions) (L : Held Lock) (db : Store) : Prop where
  accounts : Versioned Account.id (fun _ => False) (fun id => Owns L (.account id)) later
    db.accounts δ.accounts
  sessions : Versioned Session.id (fun id => Owns L (.session id)) (fun id => Owns L (.session id))
    keepsRevoked db.sessions δ.sessions
  newSessions : ∀ s ∈ δ.sessions, (∀ s₀ ∈ db.sessions, s₀.id ≠ s.id) → Has L (.account s.accountId)
  roles : Versioned Role.id (fun id => Owns L (.role id)) (fun id => Owns L (.role id)) keepsCode
    db.roles δ.roles
  roleCodes : Indexed Role.id Role.code (fun code => Owns L (.roleCode code)) db.roles δ.roles
  newRoles : ∀ r ∈ δ.roles, (∀ r₀ ∈ db.roles, r₀.id ≠ r.id) → r.code ≠ "owner"
  accountRoles : Versioned AccountRole.key (fun k => Owns L (.account k.1))
    (fun k => Owns L (.account k.1)) (fun _ _ => True) db.accountRoles δ.accountRoles

variable {δ δ' : Versions} {L M : Held Lock} {db db' : Store}

theorem Respects.none : Respects {} L db where
  accounts := .nil
  sessions := .nil
  newSessions _ h := by cases h
  roles := .nil
  roleCodes := .nil
  newRoles _ h := by cases h
  accountRoles := .nil

theorem Respects.mono (hLM : L ⊆ M) (h : Respects δ L db) : Respects δ M db where
  accounts := h.accounts.mono (fun _ => id) fun _ => Owns.mono hLM
  sessions := h.sessions.mono (fun _ => Owns.mono hLM) fun _ => Owns.mono hLM
  newSessions s hs hf := (h.newSessions s hs hf).mono hLM
  roles := h.roles.mono (fun _ => Owns.mono hLM) fun _ => Owns.mono hLM
  roleCodes := h.roleCodes.mono fun _ => Owns.mono hLM
  newRoles := h.newRoles
  accountRoles := h.accountRoles.mono (fun _ => Owns.mono hLM) fun _ => Owns.mono hLM

/-- **Interference.** -/
theorem Respects.overlay (h : Respects δ L db) (h' : Respects δ' M db) (hc : Compatible L M) :
    Respects δ L (db.overlay δ') where
  accounts := h.accounts.overlay h'.accounts (fun _ => False.elim) fun _ hl => hl.not_owns hc
  sessions := h.sessions.overlay h'.sessions (fun _ hl => hl.not_owns hc) fun _ hl => hl.not_owns hc
  newSessions s hs hf := h.newSessions s hs (fresh_overlay hf)
  roles := h.roles.overlay h'.roles (fun _ hl => hl.not_owns hc) fun _ hl => hl.not_owns hc
  roleCodes := h.roleCodes.overlay h.roles h'.roleCodes h'.roles (fun _ hl => hl.not_owns hc)
    fun _ hl => hl.not_owns hc
  newRoles r hr hf := h.newRoles r hr (fresh_overlay hf)
  accountRoles := h.accountRoles.overlay h'.accountRoles (fun _ hl => hl.not_owns hc)
    fun _ hl => hl.not_owns hc

/-- A role of the system stays as it is. -/
theorem Respects.systemRole (h : Respects δ L db) (hdb : db.WellFormed) {r : Role}
    (hr : r ∈ db.roles) (hs : r.system = true) : r ∈ (db.overlay δ).roles := by
  refine mem_overlay_left (fun r' hr' e => ?_) hr
  rcases h.roles.version r' hr' with ⟨r₀, h₀, e₀, ⟨hk, -⟩, -⟩ | ⟨hf, -⟩
  · rw [hdb.roleIds.eq h₀ hr (e₀.trans e), hs] at hk
    cases hk
  · exact hf r hr e.symm

theorem Store.WellFormed.overlay (hdb : db.WellFormed) (h : Respects δ L db) :
    (db.overlay δ).WellFormed where
  accountIds := h.accounts.uniqueBy hdb.accountIds
  sessionIds := h.sessions.uniqueBy hdb.sessionIds
  roleIds := h.roles.uniqueBy hdb.roleIds
  roleCodes := h.roleCodes.uniqueBy hdb.roleCodes
  accountRoleKeys := h.accountRoles.uniqueBy hdb.accountRoleKeys
  owner := by
    obtain ⟨r, hr, hc, hs⟩ := hdb.owner
    exact ⟨r, h.systemRole hdb hr hs, hc, hs⟩

/-! ## Commits -/

/-- The INSERT of a session finds the account as its status was read. -/
def asRead : Site → Store → Prop
  | .createSession a revision, v => ∀ x ∈ v.accounts, x.id = a → x.revision = revision
  | .sql, _ => True

instance : ∀ site v, Decidable (asRead site v)
  | .createSession a revision, v =>
    inferInstanceAs (Decidable (∀ x ∈ v.accounts, x.id = a → x.revision = revision))
  | .sql, _ => isTrue trivial

/-- What a commit with the versions `δ` does.  `strict` says that sessions are only inserted
`asRead`. -/
structure Commit (strict : Prop) (L : Held Lock) (db : Store) (e : Event) (δ : Versions) : Prop where
  respects : Respects δ L db
  /-- Only a transaction that owns the row of the role `owner` takes an active owner away. -/
  owners : ∀ r ∈ db.roles, r.code = "owner" → ¬Owns L (.role r.id) →
    ∀ a, db.ActiveOwner a → (db.overlay δ).ActiveOwner a
  owner : (∃ a, db.ActiveOwner a) → ∃ a, (db.overlay δ).ActiveOwner a
  changed : ∀ x ∈ δ.accounts, ∃ f t, e = .lifecycle x.id f t
  lifecycle : ∀ a f t, e = .lifecycle a f t → (∃ x ∈ db.accounts, x.id = a ∧ x.status = f) ∧
    (∃ x ∈ δ.accounts, x.id = a ∧ x.status = t) ∧
      (t ≠ .active → ∀ s ∈ (db.overlay δ).sessions, s.accountId = a → s.revokedAt ≠ none)
  created : ∀ s ∈ δ.sessions, (∀ s₀ ∈ db.sessions, s₀.id ≠ s.id) →
    ∃ r, e = .session s.id s.accountId r
  session : ∀ id a r, e = .session id a r → (∀ s₀ ∈ db.sessions, s₀.id ≠ id) ∧
    (∃ s ∈ δ.sessions, s.id = id ∧ s.accountId = a) ∧
      (strict → ∃ x ∈ db.accounts, x.id = a ∧ x.revision = r ∧ x.status = .active)

/-- **What the calls keep to.** -/
def discipline (strict : Prop) : Discipline Site Store Lock Event where
  inv := Store.WellFormed
  step L db e db' := ∃ δ, db' = db.overlay δ ∧ Commit strict L db e δ
  allowed site v := strict → asRead site v
  step_inv := by
    rintro L db e _ hdb ⟨δ, rfl, h⟩
    exact hdb.overlay h.respects

variable {strict : Prop}

theorem keeps_respects : (discipline strict).Keeps (Respects δ) :=
  ⟨Respects.mono, fun _ hc ⟨_, e, hs⟩ h => e ▸ h.overlay hs.respects hc⟩

/-! ## What locks tell -/

/-- The account row is locked. -/
def AccountLocked (a : Account) (L : Held Lock) (db : Store) : Prop :=
  a ∈ db.accounts ∧ Owns L (.account a.id)

theorem keeps_accountLocked {a : Account} : (discipline strict).Keeps (AccountLocked a) where
  mono hLM h := ⟨h.1, h.2.mono hLM⟩
  step := by
    rintro L M db e _ - hc ⟨δ, rfl, hs⟩ ⟨ha, hl⟩
    exact ⟨hs.respects.accounts.mem_overlay ha (hl.not_owns hc), hl⟩

/-- The row of the role `owner` is locked. -/
def OwnerLocked (id : UUID) (L : Held Lock) (db : Store) : Prop :=
  Owns L (.role id) ∧ ∃ r ∈ db.roles, r.id = id ∧ r.code = "owner" ∧ r.system = true

theorem keeps_ownerLocked {id : UUID} : (discipline strict).Keeps (OwnerLocked id) where
  mono hLM h := ⟨h.1.mono hLM, h.2⟩
  step := by
    rintro L M db e _ hi - ⟨δ, rfl, hs⟩ ⟨hl, r, hr, hid, hc, hsys⟩
    exact ⟨hl, r, hs.respects.systemRole hi hr hsys, hid, hc, hsys⟩

/-- The row of the role is locked, and another account than `a` is an active owner. -/
def AnotherOwner (a id : UUID) (L : Held Lock) (db : Store) : Prop :=
  OwnerLocked id L db ∧ ∃ b, b ≠ a ∧ db.ActiveOwner b

theorem keeps_anotherOwner {a id : UUID} : (discipline strict).Keeps (AnotherOwner a id) where
  mono hLM h := ⟨(@keeps_ownerLocked strict _).mono hLM h.1, h.2⟩
  step := by
    rintro L M db e db' hi hc hst ⟨ho, b, hb, hact⟩
    refine ⟨keeps_ownerLocked.step hi hc hst ho, b, hb, ?_⟩
    obtain ⟨δ, rfl, hs⟩ := hst
    obtain ⟨hl, r, hr, rfl, hcode, -⟩ := ho
    exact hs.owners r hr hcode (hl.not_owns hc) b hact

/-- The account row is locked, and the account has not the role. -/
def NotAssigned (a id : UUID) (L : Held Lock) (db : Store) : Prop :=
  Owns L (.account a) ∧ ¬db.Assigned a id

theorem keeps_notAssigned {a id : UUID} : (discipline strict).Keeps (NotAssigned a id) where
  mono hLM h := ⟨h.1.mono hLM, h.2⟩
  step := by
    rintro L M db e _ - hc ⟨δ, rfl, hs⟩ ⟨hl, hn⟩
    refine ⟨hl, fun ⟨x, hx, hd, ha, hr⟩ => ?_⟩
    rcases mem_overlay.1 hx with ⟨hx, -⟩ | hx
    · exact hn ⟨x, hx, hd, ha, hr⟩
    · have hlock : Owns M (.account x.accountId) := by
        rcases hs.respects.accountRoles.version x hx with ⟨-, -, -, -, h⟩ | ⟨-, h⟩ <;> exact h
      exact hl.not_owns hc (ha ▸ hlock)

/-- The account row is locked, and its sessions that are not revoked are those of `ids` and of the
versions `S`. -/
def Unrevoked (a : UUID) (ids : List UUID) (S : List Session) (L : Held Lock) (db : Store) : Prop :=
  Owns L (.account a) ∧ ∀ s ∈ db.sessions, s.accountId = a → s.revokedAt = none →
    s.id ∈ ids ∨ ∃ s' ∈ S, s'.id = s.id

theorem keeps_unrevoked {a : UUID} {ids : List UUID} {S : List Session} :
    (discipline strict).Keeps (Unrevoked a ids S) where
  mono hLM h := ⟨h.1.mono hLM, h.2⟩
  step := by
    rintro L M db e _ - hc ⟨δ, rfl, hs⟩ ⟨hl, h⟩
    refine ⟨hl, fun s hmem ha hr => ?_⟩
    rcases mem_overlay.1 hmem with ⟨hmem, -⟩ | hmem
    · exact h s hmem ha hr
    · rcases hs.respects.sessions.version s hmem with ⟨s₀, h₀, e₀, ⟨hacc, hrev⟩, -⟩ | ⟨hf, -⟩
      · rw [← e₀]
        refine h s₀ h₀ (hacc ▸ ha) ?_
        by_contra hne
        exact hrev hne hr
      · exact absurd (ha ▸ hs.respects.newSessions s hmem hf) (hl.not_has hc)

/-! ## Versions written -/

theorem merge_account {x : Account} : Layers.merge Store δ (accounts.version x) =
    { δ with accounts := put Account.id δ.accounts x } := by
  simp [Layers.merge, Versions.overlay, accounts, put]

theorem merge_identity {x : AccountIdentity} : Layers.merge Store δ (identities.version x) =
    { δ with identities := put AccountIdentity.id δ.identities x } := by
  simp [Layers.merge, Versions.overlay, identities, put]

theorem merge_session {x : Session} : Layers.merge Store δ (sessions.version x) =
    { δ with sessions := put Session.id δ.sessions x } := by
  simp [Layers.merge, Versions.overlay, sessions, put]

theorem merge_role {x : Role} : Layers.merge Store δ (roles.version x) =
    { δ with roles := put Role.id δ.roles x } := by
  simp [Layers.merge, Versions.overlay, roles, put]

theorem merge_rolePermission {x : RolePermission} :
    Layers.merge Store δ (rolePermissions.version x) =
      { δ with rolePermissions := put RolePermission.key δ.rolePermissions x } := by
  simp [Layers.merge, Versions.overlay, rolePermissions, put]

theorem merge_accountRole {x : AccountRole} : Layers.merge Store δ (accountRoles.version x) =
    { δ with accountRoles := put AccountRole.key δ.accountRoles x } := by
  simp [Layers.merge, Versions.overlay, accountRoles, put]

/-! ## Active owners -/

/-- Versions that are about other accounts keep an active owner. -/
theorem Store.ActiveOwner.overlay {a : UUID} (ha : db.ActiveOwner a) (hdb : db.WellFormed)
    (h : Respects δ L db) (hacc : ∀ x ∈ δ.accounts, x.id ≠ a)
    (hrole : ∀ x ∈ δ.accountRoles, x.accountId ≠ a) : (db.overlay δ).ActiveOwner a := by
  obtain ⟨⟨x, hx, rfl, hact⟩, r, hr, hcode, hsys, y, hy, hd, hya, hyr⟩ := ha
  refine ⟨⟨x, mem_overlay_left (fun x' hx' => hacc x' hx') hx, rfl, hact⟩, r,
    h.systemRole hdb hr hsys, hcode, hsys, y, mem_overlay_left (fun y' hy' e => ?_) hy, hd, hya, hyr⟩
  exact hrole y' hy' ((congrArg Prod.fst e).trans hya)

/-- There is another active owner than `a`, or `a` is none. -/
def Spares (a : UUID) (L : Held Lock) (db : Store) : Prop :=
  (∃ id, AnotherOwner a id L db) ∨ ¬db.ActiveOwner a

/-- Versions about the account `a` alone leave an active owner. -/
theorem owners_of_spares {a : UUID} (hdb : db.WellFormed) (h : Respects δ L db)
    (hacc : ∀ x ∈ δ.accounts, x.id = a) (hrole : ∀ x ∈ δ.accountRoles, x.accountId = a)
    (hs : Spares a L db ∨ (db.overlay δ).ActiveOwner a) :
    (∀ r ∈ db.roles, r.code = "owner" → ¬Owns L (.role r.id) →
      ∀ b, db.ActiveOwner b → (db.overlay δ).ActiveOwner b) ∧
    ((∃ b, db.ActiveOwner b) → ∃ b, (db.overlay δ).ActiveOwner b) := by
  have hother : ∀ b, b ≠ a → db.ActiveOwner b → (db.overlay δ).ActiveOwner b := fun b hb hact =>
    hact.overlay hdb h (fun x hx e => hb (e.symm.trans (hacc x hx)))
      fun x hx e => hb (e.symm.trans (hrole x hx))
  constructor
  · intro r hr hcode hn b hact
    by_cases hb : b = a
    · subst hb
      rcases hs with (⟨id, ⟨hl, r', hr', rfl, hcode', -⟩, -⟩ | hno) | hact'
      · rw [hdb.roleCodes.eq hr hr' (hcode.trans hcode'.symm)] at hn
        exact absurd hl hn
      · exact absurd hact hno
      · exact hact'
    · exact hother b hb hact
  · rintro ⟨b, hact⟩
    rcases hs with (⟨id, -, b', hb', hact'⟩ | hno) | hact'
    · exact ⟨b', hother b' hb' hact'⟩
    · exact ⟨b, hother b (fun e => hno (e ▸ hact)) hact⟩
    · exact ⟨a, hact'⟩

/-- Two assignments of the role to active accounts: one is another account's. -/
theorem exists_anotherOwner {a id : UUID} (hdb : db.WellFormed) (ho : OwnerLocked id L db)
    (h : 1 < (db.activeAssignments id).length) : AnotherOwner a id L db := by
  refine ⟨ho, ?_⟩
  obtain ⟨-, r, hr, rfl, hcode, hsys⟩ := ho
  have hmem : ∀ x ∈ db.activeAssignments r.id, x ∈ db.accountRoles ∧ x.deleted = false ∧
      x.roleId = r.id ∧ ∃ y ∈ db.accounts, y.id = x.accountId ∧ y.status = .active := fun x hx => by
    simpa [Store.activeAssignments, and_assoc] using hx
  by_contra hno
  have hall : ∀ x ∈ db.activeAssignments r.id, x.accountId = a := fun x hx => by
    obtain ⟨hx', hd, hrole, hy⟩ := hmem x hx
    by_contra hne
    exact hno ⟨x.accountId, hne, hy, r, hr, hcode, hsys, x, hx', hd, rfl, hrole⟩
  have hkeys : (db.activeAssignments r.id).map AccountRole.key =
      List.replicate (db.activeAssignments r.id).length (a, r.id) := by
    refine List.eq_replicate_iff.2 ⟨List.length_map _, fun k hk => ?_⟩
    obtain ⟨x, hx, rfl⟩ := List.mem_map.1 hk
    exact Prod.ext (hall x hx) (hmem x hx).2.2.1
  have hnd : ((db.activeAssignments r.id).map AccountRole.key).Nodup :=
    (List.filter_sublist.map _).nodup hdb.accountRoleKeys
  rw [hkeys, List.nodup_replicate] at hnd
  omega

/-! ## Locks and checks -/

/-- The program keeps to the discipline, and returns with `Q`. -/
abbrev Keeping (strict : Prop) {α : Type} (p : Call α) (Q : α → Ctx Store Lock Event → Prop)
    (c : Ctx Store Lock Event) : Prop :=
  wp (discipline strict) p Q (fun _ _ => True) c

variable {c : Ctx Store Lock Event} {K : Held Lock → Store → Prop}

@[simp] theorem lay_none : Layers.lay db (Layers.none Store) = db := Layers.lay_none db

theorem lockAccount_keeps {β : Type} (h : Knows (discipline strict) c (Layers.none Store) K)
    {id : UUID} {x : Error} {f : Account → Call β} {Q : β → Ctx Store Lock Event → Prop}
    (hQ : ∀ c' a, a.id = id →
      Knows (discipline strict) c' (Layers.none Store) (fun L db => K L db ∧ AccountLocked a L db) →
      Keeping strict (f a) Q c') :
    Keeping strict (accounts.lockRow .exclusive (fun a => a.id = id) >>= fun o => .orFail x o >>= f)
      Q c := by
  refine wp_bind.2 (h.lockRow (fun c' _ => trivial) fun c' a h' hl ha hid => ?_)
  rw [lay_none] at ha
  exact hQ c' a (of_decide_eq_true hid) (h'.learn keeps_accountLocked ⟨ha, hl⟩)

theorem lockOwnerRole_keeps (h : Knows (discipline strict) c (Layers.none Store) K)
    {Q : UUID → Ctx Store Lock Event → Prop}
    (hQ : ∀ c' id, Knows (discipline strict) c' (Layers.none Store)
      (fun L db => K L db ∧ OwnerLocked id L db) → Q id c') :
    Keeping strict lockOwnerRole Q c := by
  refine wp_bind.2 (h.lockRow (fun c' _ => trivial) fun c' r h' hl hr hcode => ?_)
  rw [lay_none] at hr
  obtain ⟨r', hr', hcode', hsys⟩ := h'.inv.owner
  rw [h'.inv.roleCodes.eq hr' hr (hcode'.trans (of_decide_eq_true hcode).symm)] at hsys
  exact hQ c' r.id (h'.learn keeps_ownerLocked ⟨hl, r, hr, rfl, of_decide_eq_true hcode, hsys⟩)

theorem requireAnotherOwner_keeps {a id : UUID}
    (h : Knows (discipline strict) c (Layers.none Store) fun L db => K L db ∧ OwnerLocked id L db)
    {Q : Unit → Ctx Store Lock Event → Prop}
    (hQ : ∀ c', Knows (discipline strict) c' (Layers.none Store)
      (fun L db => (K L db ∧ OwnerLocked id L db) ∧ AnotherOwner a id L db) → Q () c') :
    Keeping strict (requireAnotherOwner id) Q c := by
  refine wp_bind.2 (h.read fun c' h' => wp_check.2 ⟨fun hn => hQ c' ?_, fun _ => trivial⟩)
  rw [lay_none] at hn
  exact h'.learn keeps_anotherOwner (exists_anotherOwner h'.inv h'.known.2 hn)

/-- A locked account that is not active, or has not the role, is no active owner. -/
theorem AccountLocked.spares {a : Account} (h : AccountLocked a L db) (hdb : db.WellFormed)
    (hs : a.status ≠ .active ∨ ∃ id, OwnerLocked id L db ∧ NotAssigned a.id id L db) :
    Spares a.id L db := by
  refine Or.inr fun ⟨⟨x, hx, hid, hact⟩, r, hr, hcode, _, hassigned⟩ => ?_
  rcases hs with hs | ⟨id, ⟨-, r', hr', rfl, hcode', -⟩, -, hno⟩
  · rw [hdb.accountIds.eq hx h.1 hid] at hact
    exact hs hact
  · rw [hdb.roleCodes.eq hr hr' (hcode.trans hcode'.symm)] at hassigned
    exact hno hassigned

/-- What an account whose lifecycle changes to `t` leaves behind. -/
def Leaves (a : Account) (t : AccountStatus) (L : Held Lock) (db : Store) : Prop :=
  AccountLocked a L db ∧ (a.status = .active → t ≠ .active →
    ∃ id, AnotherOwner a.id id L db ∨ OwnerLocked id L db ∧ NotAssigned a.id id L db)

theorem keeps_leaves {a : Account} {t : AccountStatus} :
    (discipline strict).Keeps (Leaves a t) where
  mono hLM h := ⟨(@keeps_accountLocked strict _).mono hLM h.1, fun ha ht =>
    (h.2 ha ht).imp fun _ => Or.imp ((@keeps_anotherOwner strict _ _).mono hLM)
      (And.imp ((@keeps_ownerLocked strict _).mono hLM)
        ((@keeps_notAssigned strict _ _).mono hLM))⟩
  step hi hc hs h := ⟨keeps_accountLocked.step hi hc hs h.1, fun ha ht =>
    (h.2 ha ht).imp fun _ => Or.imp (keeps_anotherOwner.step hi hc hs)
      (And.imp (keeps_ownerLocked.step hi hc hs) (keeps_notAssigned.step hi hc hs))⟩

theorem leaveActive_keeps {a : Account} {t : AccountStatus}
    (h : Knows (discipline strict) c (Layers.none Store) (AccountLocked a))
    {Q : Unit → Ctx Store Lock Event → Prop}
    (hQ : ∀ c', Knows (discipline strict) c' (Layers.none Store) (Leaves a t) → Q () c') :
    Keeping strict (leaveActive a t) Q c := by
  unfold leaveActive
  split
  · refine wp_bind.2 (lockOwnerRole_keeps h fun c₁ id h₁ => wp_bind.2 (h₁.read fun c₂ h₂ => ?_))
    rw [lay_none]
    split
    · refine requireAnotherOwner_keeps (a := a.id) h₂ fun c₃ h₃ => hQ c₃ ?_
      exact h₃.mono keeps_leaves fun hk => ⟨hk.1.1, fun _ _ => ⟨id, Or.inl hk.2⟩⟩
    · next hn =>
      refine hQ c₂ ((h₂.learn (@keeps_notAssigned strict a.id id) ⟨h₂.known.1.2, ?_⟩).mono
        keeps_leaves fun hk => ⟨hk.1.1, fun _ _ => ⟨id, Or.inr ⟨hk.1.2, hk.2⟩⟩⟩)
      simpa using hn
  · next hn =>
    exact hQ c (h.mono keeps_leaves fun hk => ⟨hk, fun ha ht => absurd ⟨ha, ht⟩ hn⟩)

/-! ## Lifecycle -/

/-- The sessions `S` are versions of existing ones. -/
def Existing (S : List Session) (_ : Held Lock) (db : Store) : Prop :=
  ∀ s ∈ S, ∃ s₀ ∈ db.sessions, s₀.id = s.id

theorem keeps_existing {S : List Session} : (discipline strict).Keeps (Existing S) where
  mono _ h := h
  step := by
    rintro L M db e _ - - ⟨δ, rfl, -⟩ h s hs
    obtain ⟨s₀, h₀, e₀⟩ := h s hs
    obtain ⟨s₁, h₁, e₁⟩ : ∃ s₁ ∈ (db.overlay δ).sessions, s₁.id = s₀.id := exists_overlay _ h₀
    exact ⟨s₁, h₁, e₁.trans e₀⟩

/-- What is known of the account `a` and of the versions `S` of its sessions, while the sessions `ids`
are still to be revoked. -/
def Revoking (a a' : Account) (t : AccountStatus) (ids : List UUID) (S : List Session) (L : Held Lock)
    (db : Store) : Prop :=
  (Leaves a t L db ∧ Respects { accounts := [a'], sessions := S } L db) ∧
    Existing S L db ∧ Unrevoked a.id ids S L db

theorem keeps_revoking {a a' : Account} {t : AccountStatus} {ids : List UUID} {S : List Session} :
    (discipline strict).Keeps (Revoking a a' t ids S) :=
  (keeps_leaves.and keeps_respects).and (keeps_existing.and keeps_unrevoked)

/-- One more session of the account is revoked. -/
theorem Revoking.put {a a' : Account} {t : AccountStatus} {id : UUID} {ids : List UUID}
    {S : List Session} {now : Time} (h : Revoking a a' t (id :: ids) S L db) {s : Session}
    (hs : s ∈ (db.overlay { accounts := [a'], sessions := S }).sessions) (hid : s.id = id) :
    Revoking a a' t ids (Txn.put Session.id S { s with revokedAt := some now })
      (L ++ [(.session id, .exclusive)]) db := by
  obtain ⟨⟨hl, hr⟩, he, hu⟩ := h
  have hsub : L ⊆ L ++ [(Lock.session id, Mode.exclusive)] := List.subset_append_left _ _
  have hr' := hr.mono hsub
  have hown : Owns (L ++ [(Lock.session id, Mode.exclusive)]) (.session id) :=
    List.mem_append_right _ (List.mem_singleton_self _)
  -- the row in the table that this is a version of
  obtain ⟨s₀, h₀, e₀, hk⟩ : ∃ s₀ ∈ db.sessions, s₀.id = s.id ∧ keepsRevoked s₀ s := by
    rcases mem_overlay.1 hs with ⟨hs, -⟩ | hs
    · exact ⟨s, hs, rfl, rfl, fun h => h⟩
    · rcases hr.sessions.version s hs with ⟨s₀, h₀, e₀, hk, -⟩ | ⟨hf, -⟩
      · exact ⟨s₀, h₀, e₀, hk⟩
      · obtain ⟨s₀, h₀, e₀⟩ := he s hs
        exact absurd e₀ (hf s₀ h₀)
  refine ⟨⟨(@keeps_leaves True _ _).mono hsub hl, ?_⟩, ?_, hu.1.mono hsub, ?_⟩
  · refine { hr' with sessions := hr'.sessions.put (Or.inl ⟨s₀, h₀, e₀, ?_, hid ▸ hown⟩), newSessions := ?_ }
    · exact ⟨hk.1, fun _ => by simp⟩
    · intro x hx hf
      rcases mem_put.1 hx with ⟨hx, -⟩ | rfl
      · exact hr'.newSessions x hx hf
      · exact absurd e₀ (hf s₀ h₀)
  · intro x hx
    rcases mem_put.1 hx with ⟨hx, -⟩ | rfl
    · exact he x hx
    · exact ⟨s₀, h₀, e₀⟩
  · intro x hx ha hrev
    rcases hu.2 x hx ha hrev with hin | ⟨y, hy, e⟩
    · rcases List.mem_cons.1 hin with e | hin
      · exact Or.inr ⟨_, mem_put.2 (Or.inr rfl), hid.trans e.symm⟩
      · exact Or.inl hin
    · by_cases hy' : y.id = s.id
      · exact Or.inr ⟨_, mem_put.2 (Or.inr rfl), hy'.symm.trans e⟩
      · exact Or.inr ⟨y, mem_put.2 (Or.inl ⟨hy, hy'⟩), e⟩

/-- The versions with which a lifecycle change commits. -/
theorem Revoking.commit {a a' : Account} {t : AccountStatus} {ids : List UUID} {S : List Session}
    (h : Revoking a a' t ids S L db) (hdb : db.WellFormed) (hid : a'.id = a.id)
    (hst : a'.status = t) (ht : t ∈ transitions a.status) (hids : t ≠ .active → ids = [])
    (hS : ∀ s ∈ S, s.revokedAt ≠ none) :
    Commit strict L db (.lifecycle a.id a.status t) { accounts := [a'], sessions := S } := by
  obtain ⟨⟨⟨hlock, hleaves⟩, hr⟩, he, -, hu⟩ := h
  have hspares : Spares a.id L db := by
    by_cases ha : a.status = .active
    · have hne : t ≠ .active := by rintro rfl; rw [ha] at ht; simp [transitions] at ht
      obtain ⟨id, ho | ho⟩ := hleaves ha hne
      · exact Or.inl ⟨id, ho⟩
      · exact hlock.spares hdb (Or.inr ⟨id, ho⟩)
    · exact hlock.spares hdb (Or.inl ha)
  have howners := owners_of_spares hdb hr (fun x hx => by simp at hx; rw [hx, hid])
    (fun x hx => by cases hx) (Or.inl hspares)
  refine ⟨hr, howners.1, howners.2, fun x hx => ?_, fun b f u e => ?_, fun s hs hf => ?_,
    fun id b r e => by cases e⟩
  · exact ⟨a.status, t, by simp at hx; rw [hx, hid]⟩
  · cases e
    refine ⟨⟨a, hlock.1, rfl, rfl⟩, ⟨a', List.mem_singleton_self _, hid, hst⟩, fun hne s hs ha => ?_⟩
    rcases mem_overlay.1 hs with ⟨hs, hnot⟩ | hs
    · intro hrev
      rw [hids hne] at hu
      rcases hu s hs ha hrev with hin | ⟨y, hy, e⟩
      · cases hin
      · exact hnot y hy e
    · exact hS s hs
  · obtain ⟨s₀, h₀, e₀⟩ := he s hs
    exact absurd e₀ (hf s₀ h₀)

/-- A session that is revoked already is left out. -/
theorem Revoking.skip {a a' : Account} {t : AccountStatus} {id : UUID} {ids : List UUID}
    {S : List Session} (h : Revoking a a' t (id :: ids) S L db)
    (hno : ∀ s ∈ (db.overlay { accounts := [a'], sessions := S }).sessions, s.id = id →
      ¬(s.accountId = a.id ∧ s.revokedAt = none)) : Revoking a a' t ids S L db := by
  refine ⟨h.1, h.2.1, h.2.2.1, fun s hs ha hr => ?_⟩
  by_cases hv : ∃ y ∈ S, y.id = s.id
  · exact Or.inr hv
  · rcases h.2.2.2 s hs ha hr with hin | hv'
    · refine Or.inl ((List.mem_cons.1 hin).resolve_left fun e => hno s ?_ e ⟨ha, hr⟩)
      exact mem_overlay_left (fun y hy e => hv ⟨y, hy, e⟩) hs
    · exact absurd hv' hv

theorem Revoking.start {a a' : Account} {t : AccountStatus} {ids : List UUID}
    (h : Knows (discipline strict) c { accounts := [a'] } fun L db =>
      Leaves a t L db ∧ Respects { accounts := [a'] } L db)
    (hids : ∀ s ∈ c.db.sessions, s.accountId = a.id → s.revokedAt = none → s.id ∈ ids) :
    Knows (discipline strict) c { accounts := [a'], sessions := [] } (Revoking a a' t ids []) :=
  ⟨h.wrote, h.inv, ⟨h.known, by simp [Existing], h.known.1.1.2,
    fun s hs ha hr => Or.inl (hids s hs ha hr)⟩, keeps_revoking⟩

theorem revokeSessions_keeps {a a' : Account} {t : AccountStatus} {now : Time}
    (h : Knows (discipline strict) c { accounts := [a'] } fun L db =>
      Leaves a t L db ∧ Respects { accounts := [a'] } L db)
    {Q : Unit → Ctx Store Lock Event → Prop}
    (hQ : ∀ c' ids S, (t ≠ .active → ids = []) → (∀ s ∈ S, s.revokedAt ≠ none) →
      Knows (discipline strict) c' { accounts := [a'], sessions := S } (Revoking a a' t ids S) →
      Q () c') : Keeping strict (revokeSessions now a.id t) Q c := by
  unfold revokeSessions
  split
  · refine wp_bind.2 (wp_bind.2 (h.read fun c₁ h₁ => ?_))
    refine Knows.updateEach (I := fun ids c' => ∃ S : List Session, (∀ s ∈ S, s.revokedAt ≠ none) ∧
      Knows (discipline strict) c' { accounts := [a'], sessions := S } (Revoking a a' t ids S))
      (fun ⟨S, hS, h'⟩ => ⟨_, _, h', fun c'' h'' hno => ⟨S, hS, ?_⟩,
        fun c'' s h'' hs hid hp => ⟨put Session.id S { s with revokedAt := some now }, ?_, ?_⟩⟩) _
      (fun n c' ⟨S, hS, h'⟩ => hQ c' [] S (fun _ => rfl) hS h') ?_
    · refine ⟨h''.wrote, h''.inv, h''.known.skip fun s hs hid => ?_, keeps_revoking⟩
      simpa using hno s hs hid
    · intro x hx
      rcases mem_put.1 hx with ⟨hx, -⟩ | rfl
      · exact hS x hx
      · simp
    · exact h''.write merge_session keeps_revoking (h''.known.put hs hid)
    · refine ⟨[], by simp, Revoking.start h₁ fun s hs ha hr => ?_⟩
      refine List.mem_map.2 ⟨s, List.mem_filter.2 ⟨?_, by simp [ha, hr]⟩, rfl⟩
      simpa [sessions, Layers.lay, Store.overlay] using hs
  · next hn =>
    refine hQ c (c.db.sessions.map Session.id) [] (fun ht => absurd ht hn) (by simp) ?_
    exact Revoking.start h fun s hs _ _ => List.mem_map_of_mem hs

end Sakura.Identity
