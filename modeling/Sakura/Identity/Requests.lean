/-
  Every request of package identity keeps to the discipline.

  * `changeLifecycle_keeps`, `assignRoles_keeps`, `saveRole_keeps`, `authenticateLocal_keeps`,
    `authenticateSession_keeps`: one request each;
  * `Request.keeps`: any of them.
-/
import Sakura.Identity.Discipline

namespace Sakura.Identity

open Txn

variable {strict : Prop} {δ : Versions} {L : Held Lock} {db : Store} {c : Ctx Store Lock Event}
  {K : Held Lock → Store → Prop}

/-! ## Reads -/

theorem getAccount_keeps (h : Knows (discipline strict) c (Layers.none Store) K) {id : UUID} :
    Keeping strict (getAccount id) (fun _ _ => True) c :=
  wp_bind.2 (h.readOne (fun _ _ _ _ => trivial) fun _ _ _ => trivial)

/-! ## Lifecycle -/

theorem changeLifecycle_keeps (h : Knows (discipline strict) c (Layers.none Store) fun _ _ => True)
    {now : Time} {id : UUID} {toStatus : Option AccountStatus} {reason : String} :
    Keeping strict (changeLifecycle now id toStatus reason) (fun _ _ => True) c := by
  unfold changeLifecycle
  refine wp_bind.2 (wp_check.2 ⟨fun _ => ?_, fun _ => trivial⟩)
  refine lockAccount_keeps h fun c₁ a hid h₁ => ?_
  subst hid
  refine wp_bind.2 (wp_orFail.2 ⟨fun t _ => ?_, fun _ => trivial⟩)
  refine wp_bind.2 (wp_check.2 ⟨fun ht => ?_, fun _ => trivial⟩)
  refine wp_bind.2 (leaveActive_keeps (h₁.mono keeps_accountLocked And.right) fun c₂ h₂ => ?_)
  refine wp_bind.2 (h₂.updateKey (k := a.id) (fun x => by simp [accounts])
    (fun L db _ hk => ⟨a, by simpa [accounts] using hk.1.1, rfl⟩) fun c₃ x h₃ _ hx hid => ?_)
  have hxa : x = a := h₃.inv.accountIds.eq (by simpa [accounts] using hx) h₃.known.1.1 hid
  subst hxa
  have hsub : c₃.held ⊆ c₃.held ++ [(Lock.account x.id, Mode.exclusive)] :=
    List.subset_append_left _ _
  refine wp_bind.2 (revokeSessions_keeps (h₃.write merge_account (keeps_leaves.and keeps_respects)
    ⟨(@keeps_leaves strict _ _).mono hsub h₃.known, ?_⟩) fun c₄ ids S hids hS h₄ => ?_)
  · have hown : Owns c₃.held (.account x.id) := h₃.known.1.2
    exact { Respects.none with
      accounts := Versioned.nil.put (Or.inl ⟨x, h₃.known.1.1, rfl, by simp [later], hown.mono hsub⟩) }
  · refine wp_bind.2 (h₄.publish Discipline.keeps_true (fun L db hdb hk => ⟨⟨_, rfl, ?_⟩, trivial⟩)
      fun c₅ h₅ => getAccount_keeps h₅)
    exact hk.commit hdb rfl rfl ht.1 hids hS

/-! ## Roles of accounts -/

/-- A commit that writes neither accounts nor sessions. -/
theorem Commit.quiet {a : UUID} {e : Event} (hdb : db.WellFormed) (h : Respects δ L db)
    (hacc : δ.accounts = []) (hses : δ.sessions = []) (hrole : ∀ x ∈ δ.accountRoles, x.accountId = a)
    (hs : Spares a L db ∨ (db.overlay δ).ActiveOwner a) (hl : ∀ b f t, e ≠ .lifecycle b f t)
    (hn : ∀ id b r, e ≠ .session id b r) : Commit strict L db e δ :=
  have ho := owners_of_spares hdb h (by simp [hacc]) hrole hs
  ⟨h, ho.1, ho.2, by simp [hacc], fun b f t he => absurd he (hl b f t), by simp [hses],
    fun id b r he => absurd he (hn id b r)⟩

/-- Assignments of an account are written under the lock of its row. -/
theorem Respects.putAccountRole (h : Respects δ L db) {x : AccountRole}
    (hl : Owns L (.account x.accountId)) :
    Respects { δ with accountRoles := put AccountRole.key δ.accountRoles x } L db where
  accounts := h.accounts
  sessions := h.sessions
  newSessions := h.newSessions
  roles := h.roles
  roleCodes := h.roleCodes
  newRoles := h.newRoles
  accountRoles := h.accountRoles.put <| by
    by_cases hx : ∃ y ∈ db.accountRoles, y.key = x.key
    · obtain ⟨y, hy, e⟩ := hx
      exact Or.inl ⟨y, hy, e, trivial, hl⟩
    · exact Or.inr ⟨fun y hy e => hx ⟨y, hy, e⟩, hl⟩

/-- What is known of the account, when the versions `X` of its assignments include those of the roles
`ids`. -/
def Assigning (a : Account) (B : Held Lock → Store → Prop) (X : List AccountRole) (L : Held Lock)
    (db : Store) : Prop :=
  (B L db ∧ AccountLocked a L db) ∧ Respects { accountRoles := X } L db

theorem keeps_assigning {a : Account} {B : Held Lock → Store → Prop}
    (hB : (discipline strict).Keeps B) {X : List AccountRole} :
    (discipline strict).Keeps (Assigning a B X) :=
  (hB.and keeps_accountLocked).and keeps_respects

theorem Assigning.put {a : Account} {B : Held Lock → Store → Prop}
    (hB : (discipline strict).Keeps B) {X : List AccountRole} {x : AccountRole} {locks : Held Lock}
    (h : Assigning a B X L db) (hx : x.accountId = a.id) :
    Assigning a B (Txn.put AccountRole.key X x) (L ++ locks) db := by
  have hsub : L ⊆ L ++ locks := List.subset_append_left _ _
  exact ⟨(hB.and keeps_accountLocked).mono hsub h.1,
    (h.2.mono hsub).putAccountRole (hx ▸ h.1.2.2.mono hsub)⟩

/-- The versions `X` are of the account and assign the roles `ids`. -/
def Assigns (a : Account) (ids : List UUID) (X : List AccountRole) : Prop :=
  (∀ x ∈ X, x.accountId = a.id) ∧
    ∀ id ∈ ids, ∃ x ∈ X, x.deleted = false ∧ x.accountId = a.id ∧ x.roleId = id

theorem Assigns.put {a : Account} {ids : List UUID} {X : List AccountRole} {id : UUID} {by_ : String}
    (h : Assigns a ids X) : Assigns a (id :: ids)
      (put AccountRole.key X { accountId := a.id, roleId := id, assignedBy := by_ }) := by
  refine ⟨fun x hx => ?_, fun r hr => ?_⟩
  · rcases mem_put.1 hx with ⟨hx, -⟩ | rfl
    · exact h.1 x hx
    · rfl
  · by_cases hrid : r = id
    · exact ⟨_, mem_put.2 (Or.inr rfl), rfl, rfl, hrid.symm⟩
    · obtain ⟨x, hx, hd, ha, hxr⟩ := h.2 r ((List.mem_cons.1 hr).resolve_left hrid)
      refine ⟨x, mem_put.2 (Or.inl ⟨hx, fun e => hrid ?_⟩), hd, ha, hxr⟩
      exact hxr.symm.trans (congrArg Prod.snd e)

theorem insertRoles_keeps {a : Account} {B : Held Lock → Store → Prop}
    (hB : (discipline strict).Keeps B) {by_ : String} :
    ∀ (ids done : List UUID) {X : List AccountRole} {c : Ctx Store Lock Event}
      {Q : Unit → Ctx Store Lock Event → Prop},
      Knows (discipline strict) c { accountRoles := X } (Assigning a B X) → Assigns a done X →
      (∀ c' X', (∀ id ∈ ids ++ done, ∃ x ∈ X', x.deleted = false ∧ x.accountId = a.id ∧ x.roleId = id) →
        (∀ x ∈ X', x.accountId = a.id) →
        Knows (discipline strict) c' { accountRoles := X' } (Assigning a B X') → Q () c') →
      Keeping strict (insertRoles a.id by_ ids) Q c
  | [], done, X, c, Q, h, hX, hQ => hQ c X hX.2 hX.1 h
  | id :: ids, done, X, c, Q, h, hX, hQ => by
    refine wp_bind.2 (h.insertRow (fun _ _ => trivial) fun c₁ h₁ _ _ => ?_)
    refine insertRoles_keeps hB ids (id :: done)
      (h₁.write merge_accountRole (keeps_assigning hB) (h₁.known.put hB rfl)) (Assigns.put hX)
      fun c' X' hids hacc h' => hQ c' X' (fun r hr => hids r ?_) hacc h'
    simp only [List.cons_append, List.mem_cons, List.mem_append] at hr ⊢
    tauto

theorem replaceRoles_keeps {a : Account} {B : Held Lock → Store → Prop}
    (hB : (discipline strict).Keeps B) {by_ : String} {ids : List UUID}
    (h : Knows (discipline strict) c (Layers.none Store) fun L db => B L db ∧ AccountLocked a L db)
    {Q : Unit → Ctx Store Lock Event → Prop}
    (hQ : ∀ c' X, (∀ id ∈ ids, ∃ x ∈ X, x.deleted = false ∧ x.accountId = a.id ∧ x.roleId = id) →
      (∀ x ∈ X, x.accountId = a.id) →
      Knows (discipline strict) c' { accountRoles := X } (Assigning a B X) → Q () c') :
    Keeping strict (replaceRoles a.id by_ ids) Q c := by
  have hstart : Knows (discipline strict) c { accountRoles := [] } (Assigning a B []) :=
    ⟨h.wrote, h.inv, ⟨h.known, .none⟩, keeps_assigning hB⟩
  refine wp_bind.2 (wp_bind.2 (hstart.read fun c₁ h₁ => ?_))
  refine Knows.updateEach (I := fun keys c' => (∀ k ∈ keys, k.1 = a.id) ∧ ∃ X : List AccountRole,
    (∀ x ∈ X, x.accountId = a.id) ∧
      Knows (discipline strict) c' { accountRoles := X } (Assigning a B X)) ?_ _ ?_ ⟨?_, [], by simp, h₁⟩
  · rintro k keys c' ⟨hkeys, X, hX, h'⟩
    have hk : k.1 = a.id := hkeys k List.mem_cons_self
    have hkeys' : ∀ k ∈ keys, k.1 = a.id := fun k hk => hkeys k (List.mem_cons_of_mem _ hk)
    refine ⟨_, _, h', fun c'' h'' _ => ⟨hkeys', X, hX, h''⟩, fun c'' x h'' _ hxk _ => ?_⟩
    have hx : x.accountId = a.id := (congrArg Prod.fst hxk).trans hk
    refine ⟨hkeys', put AccountRole.key X { x with deleted := true }, fun y hy => ?_,
      h''.write merge_accountRole (keeps_assigning hB) (h''.known.put hB hx)⟩
    rcases mem_put.1 hy with ⟨hy, -⟩ | rfl
    · exact hX y hy
    · exact hx
  · rintro n c' ⟨-, X, hX, h'⟩
    exact insertRoles_keeps hB ids [] h' ⟨hX, by simp⟩ fun c'' X' hids hacc h'' =>
      hQ c'' X' (by simpa using hids) hacc h''
  · intro k hk
    obtain ⟨x, hx, rfl⟩ := List.mem_map.1 hk
    have := (List.mem_filter.1 hx).2
    simp only [Bool.and_eq_true, decide_eq_true_eq] at this
    exact this.1

/-- What an account that is assigned the roles `codes` leaves behind. -/
def Drops (a : Account) (codes : List String) (id : UUID) (L : Held Lock) (db : Store) : Prop :=
  OwnerLocked id L db ∧ (AnotherOwner a.id id L db ∨ NotAssigned a.id id L db ∨
    (a.status ≠ .active ∨ "owner" ∈ codes))

theorem keeps_drops {a : Account} {codes : List String} {id : UUID} :
    (discipline strict).Keeps (Drops a codes id) where
  mono hLM h := ⟨(@keeps_ownerLocked strict _).mono hLM h.1,
    h.2.imp ((@keeps_anotherOwner strict _ _).mono hLM)
      (Or.imp_left ((@keeps_notAssigned strict _ _).mono hLM))⟩
  step hi hc hs h := ⟨keeps_ownerLocked.step hi hc hs h.1,
    h.2.imp (keeps_anotherOwner.step hi hc hs) (Or.imp_left (keeps_notAssigned.step hi hc hs))⟩

theorem dropOwner_keeps {a : Account} {codes : List String} {id : UUID} {isOwner : Bool}
    (h : Knows (discipline strict) c (Layers.none Store)
      fun L db => AccountLocked a L db ∧ OwnerLocked id L db)
    (hn : isOwner = false → NotAssigned a.id id c.held c.db)
    {Q : Unit → Ctx Store Lock Event → Prop}
    (hQ : ∀ c', Knows (discipline strict) c' (Layers.none Store)
      (fun L db => Drops a codes id L db ∧ AccountLocked a L db) → Q () c') :
    Keeping strict (dropOwner isOwner a codes id) Q c := by
  have hkeeps := (@keeps_drops strict a codes id).and
    (keeps_accountLocked (a := a))
  unfold dropOwner
  split
  · exact requireAnotherOwner_keeps (a := a.id) h fun c' h' => hQ c' (h'.mono hkeeps
      fun hk => ⟨⟨hk.1.2, Or.inl hk.2⟩, hk.1.1⟩)
  · next hno =>
    cases isOwner with
    | false =>
      refine hQ c ((h.learn keeps_notAssigned (hn rfl)).mono hkeeps fun hk => ?_)
      exact ⟨⟨hk.1.2, Or.inr (Or.inl hk.2)⟩, hk.1.1⟩
    | true =>
      refine hQ c (h.mono hkeeps fun hk => ⟨⟨hk.2, Or.inr (Or.inr ?_)⟩, hk.1⟩)
      by_contra hcon
      exact hno ⟨rfl, by tauto, by tauto⟩

theorem assignRoles_keeps (h : Knows (discipline strict) c (Layers.none Store) fun _ _ => True)
    {accountID : UUID} {codes : List String} {actor : Actor} :
    Keeping strict (assignRoles accountID codes actor) (fun _ _ => True) c := by
  unfold assignRoles
  refine wp_bind.2 (wp_check.2 ⟨fun _ => ?_, fun _ => trivial⟩)
  refine lockAccount_keeps h fun c₁ a hid h₁ => ?_
  subst hid
  refine wp_bind.2 (lockOwnerRole_keeps (h₁.mono keeps_accountLocked And.right) fun c₂ id h₂ => ?_)
  refine wp_bind.2 (h₂.read fun c₃ h₃ => wp_bind.2 (wp_check.2 ⟨fun _ => ?_, fun _ => trivial⟩))
  -- the roles that were read include the locked one if its code is among them
  have hids : "owner" ∈ uniqueSorted codes →
      id ∈ ((Layers.lay c₃.db (Layers.none Store)).roles.filter
        (·.code ∈ uniqueSorted codes)).map (·.id) := by
    rw [lay_none]
    intro hcodes
    obtain ⟨r, hr, hrid, hcode, -⟩ := h₃.known.2.2
    exact List.mem_map.2 ⟨r, List.mem_filter.2 ⟨hr, by simpa [hcode] using hcodes⟩, hrid⟩
  refine wp_bind.2 (h₃.read fun c₄ h₄ => wp_bind.2 (dropOwner_keeps h₄ (fun hn => ?_)
    fun c₅ h₅ => ?_))
  · rw [lay_none] at hn
    exact ⟨h₄.known.1.2, of_decide_eq_false hn⟩
  · refine wp_bind.2 (replaceRoles_keeps keeps_drops h₅ fun c₆ X hX hacc h₆ => ?_)
    refine wp_bind.2 (h₆.publish Discipline.keeps_true (fun L db hdb hk => ⟨⟨_, rfl, ?_⟩, trivial⟩)
      fun c₇ h₇ => getAccount_keeps h₇)
    obtain ⟨⟨⟨ho, hd⟩, ha⟩, hr⟩ := hk
    refine Commit.quiet hdb hr rfl rfl hacc ?_ (fun b f t => by simp) fun id b r => by simp
    rcases hd with hd | hd | hd | hd
    · exact Or.inl (Or.inl ⟨id, hd⟩)
    · exact Or.inl (ha.spares hdb (Or.inr ⟨id, ho, hd⟩))
    · exact Or.inl (ha.spares hdb (Or.inl hd))
    · by_cases hact : db.ActiveOwner a.id
      · obtain ⟨x, hx, hxd, hxa, hxr⟩ := hX id (hids hd)
        obtain ⟨hacct, -⟩ := hact
        obtain ⟨-, r, hmem, rfl, hcode, hsys⟩ := ho
        exact Or.inr ⟨by simpa [Store.overlay] using hacct, r, hr.systemRole hdb hmem hsys, hcode,
          hsys, x, mem_overlay_right hx, hxd, hxa, hxr⟩
      · exact Or.inl (Or.inr hact)

/-! ## Roles -/

/-- The versions of permissions are not restricted. -/
theorem Respects.permissions (h : Respects δ L db) (P : List RolePermission) :
    Respects { δ with rolePermissions := P } L db :=
  ⟨h.accounts, h.sessions, h.newSessions, h.roles, h.roleCodes, h.newRoles, h.accountRoles⟩

theorem insertPermissions_keeps {R : List Role} {roleID : UUID} :
    ∀ (codes : List String) {P : List RolePermission} {c : Ctx Store Lock Event}
      {Q : Unit → Ctx Store Lock Event → Prop},
      Knows (discipline strict) c { roles := R, rolePermissions := P } (Respects { roles := R }) →
      (∀ c' P', Knows (discipline strict) c' { roles := R, rolePermissions := P' }
        (Respects { roles := R }) → Q () c') → Keeping strict (insertPermissions roleID codes) Q c
  | [], P, c, Q, h, hQ => hQ c P h
  | code :: codes, P, c, Q, h, hQ => by
    refine wp_bind.2 (h.insertRow (fun _ _ => trivial) fun c₁ h₁ _ _ => ?_)
    exact insertPermissions_keeps codes (h₁.write merge_rolePermission keeps_respects
      (h₁.known.mono (List.subset_append_left _ _))) hQ

theorem saveRoleRow_keeps (h : Knows (discipline strict) c (Layers.none Store) fun _ _ => True)
    {newID : UUID} {code name : String} {Q : UUID → Ctx Store Lock Event → Prop}
    (hQ : ∀ c' id R, Knows (discipline strict) c' { roles := R } (Respects { roles := R }) → Q id c') :
    Keeping strict (saveRoleRow newID code name) Q c := by
  refine wp_bind.2 (h.lockRow (fun c₁ h₁ => ?_) fun c₁ r h₁ hl hr hcode => ?_)
  · refine wp_bind.2 (h₁.insertRow (fun _ _ => trivial) fun c₂ h₂ _ hfree => ?_)
    rw [lay_none] at hfree
    have hfree' : ∀ r ∈ c₂.db.roles, r.id ≠ newID ∧ r.code ≠ code := by simpa using hfree
    refine hQ _ _ [⟨newID, code, name, false⟩] (h₂.write merge_role keeps_respects ?_)
    have hrole : Owns (c₂.held ++ [(Lock.role newID, .exclusive), (.roleCode code, .exclusive)])
        (.role newID) := by simp [Owns]
    have hrc : Owns (c₂.held ++ [(Lock.role newID, .exclusive), (.roleCode code, .exclusive)])
        (.roleCode code) := by simp [Owns]
    refine { Respects.none with
      roles := Versioned.nil.put (Or.inr ⟨fun r hr => (hfree' r hr).1, hrole⟩)
      roleCodes := Indexed.nil.put (Or.inr ⟨fun r hr => (hfree' r hr).2, hrc⟩) (by simp)
      newRoles := fun x hx _ => ?_ }
    cases List.mem_singleton.1 hx
    obtain ⟨r, hr, hcode, -⟩ := h₂.inv.owner
    exact fun e => (hfree' r hr).2 (hcode.trans e.symm)
  · refine wp_bind.2 (wp_check.2 ⟨fun hsys => ?_, fun _ => trivial⟩)
    rw [lay_none] at hr
    have hk : (discipline strict).Keeps fun L db => r ∈ db.roles ∧ Owns L (.role r.id) :=
      ⟨fun hLM hk => ⟨hk.1, hk.2.mono hLM⟩, by
        rintro L M db e _ - hc ⟨δ, rfl, hs⟩ ⟨hr, hl⟩
        exact ⟨hs.respects.roles.mem_overlay hr (hl.not_owns hc), hl⟩⟩
    refine wp_bind.2 ((h₁.learn hk ⟨hr, hl⟩).updateKey (k := r.id) (fun x => by simp [roles])
      (fun L db _ hk => ⟨r, by simpa [roles] using hk.2.1, rfl⟩) fun c₂ x h₂ _ hx hid => ?_)
    have hxr : x = r := h₂.inv.roleIds.eq (by simpa [roles] using hx) h₂.known.2.1 hid
    subst hxr
    refine hQ _ _ [{ x with name }] (h₂.write merge_role keeps_respects ?_)
    have hown : Owns (c₂.held ++ [(Lock.role x.id, .exclusive)]) (.role x.id) := by simp [Owns]
    exact { Respects.none with
      roles := Versioned.nil.put (Or.inl ⟨x, h₂.known.2.1, rfl, ⟨hsys, hsys, rfl⟩, hown⟩)
      roleCodes := Indexed.nil.put (Or.inl ⟨x, h₂.known.2.1, rfl, rfl⟩) (by simp)
      newRoles := fun y hy hf => by
        cases List.mem_singleton.1 hy
        exact absurd rfl (hf x h₂.known.2.1) }

theorem saveRole_keeps (h : Knows (discipline strict) c (Layers.none Store) fun _ _ => True)
    {newID : UUID} {code name : String} {permissions : List String} :
    Keeping strict (saveRole newID code name permissions) (fun _ _ => True) c := by
  unfold saveRole
  refine wp_bind.2 (wp_check.2 ⟨fun _ => ?_, fun _ => trivial⟩)
  refine wp_bind.2 (saveRoleRow_keeps h fun c₁ id R h₁ => ?_)
  refine wp_bind.2 (h₁.read fun c₂ h₂ => wp_bind.2 (wp_check.2 ⟨fun _ => ?_, fun _ => trivial⟩))
  refine wp_bind.2 (wp_bind.2 (h₂.read fun c₃ h₃ => ?_))
  refine Knows.updateEach (I := fun _ c' => ∃ P, Knows (discipline strict) c'
    { roles := R, rolePermissions := P } (Respects { roles := R })) ?_ _ ?_ ⟨[], h₃⟩
  · rintro k keys c' ⟨P, h'⟩
    refine ⟨_, _, h', fun c'' h'' _ => ⟨P, h''⟩,
      fun c'' x h'' _ _ _ => ⟨put RolePermission.key P { x with deleted := true }, ?_⟩⟩
    exact h''.write merge_rolePermission keeps_respects
      (h''.known.mono (List.subset_append_left _ _))
  · rintro n c' ⟨P, h'⟩
    refine wp_bind.2 (insertPermissions_keeps _ h' fun c₄ P' h₄ => ?_)
    refine wp_bind.2 (h₄.publish Discipline.keeps_true (fun L db hdb hk => ⟨⟨_, rfl, ?_⟩, trivial⟩)
      fun c₅ h₅ => wp_bind.2 (h₅.readOne (fun _ _ _ _ => trivial) fun _ _ _ => trivial))
    have hr := hk.permissions P'
    refine ⟨hr, fun _ _ _ _ a ha => ?_, fun ⟨a, ha⟩ => ⟨a, ?_⟩, by simp, fun b f t => by simp,
      by simp, fun id b r => by simp⟩
    all_goals exact ha.overlay hdb hr (by simp) (by simp)

/-! ## Logins -/

/-- The account row is still the one that was read, or a later version. -/
def SinceRead (a : Account) (_ : Held Lock) (db : Store) : Prop :=
  ∃ x ∈ db.accounts, x.id = a.id ∧ (x = a ∨ later a x)

theorem SinceRead.overlay {a : Account} (h : SinceRead a L db) (hdb : db.WellFormed)
    (hr : Respects δ L db) : SinceRead a [] (db.overlay δ) := by
  obtain ⟨x, hx, hid, hxa⟩ := h
  by_cases hv : ∃ x' ∈ δ.accounts, x'.id = x.id
  · obtain ⟨x', hx', e⟩ := hv
    rcases hr.accounts.version x' hx' with ⟨x₀, h₀, e₀, hk, -⟩ | ⟨hf, -⟩
    · rw [hdb.accountIds.eq h₀ hx (e₀.trans e)] at hk
      refine ⟨x', mem_overlay_right hx', e.trans hid, Or.inr ?_⟩
      rcases hxa with rfl | hxa
      · exact hk
      · exact Nat.lt_trans hxa hk
    · exact absurd e.symm (hf x hx)
  · exact ⟨x, mem_overlay_left (fun y hy e => hv ⟨y, hy, e⟩) hx, hid, hxa⟩

theorem keeps_sinceRead {a : Account} : (discipline strict).Keeps (SinceRead a) where
  mono _ h := h
  step := by
    rintro L M db e _ hdb - ⟨δ, rfl, hs⟩ h
    exact SinceRead.overlay (L := M) h hdb hs.respects

/-- A commit that writes neither accounts nor their roles keeps the active owners. -/
theorem owners_of_quiet (hdb : db.WellFormed) (h : Respects δ L db) (hacc : δ.accounts = [])
    (hrole : δ.accountRoles = []) :
    (∀ r ∈ db.roles, r.code = "owner" → ¬Owns L (.role r.id) →
      ∀ b, db.ActiveOwner b → (db.overlay δ).ActiveOwner b) ∧
    ((∃ b, db.ActiveOwner b) → ∃ b, (db.overlay δ).ActiveOwner b) := by
  have hkeep : ∀ b, db.ActiveOwner b → (db.overlay δ).ActiveOwner b := fun b hb =>
    hb.overlay hdb h (by simp [hacc]) (by simp [hrole])
  exact ⟨fun _ _ _ _ => hkeep, fun ⟨b, hb⟩ => ⟨b, hkeep b hb⟩⟩

/-- The identities are not restricted. -/
theorem useIdentities_keeps {a : Account} {id : UUID} {p : AccountIdentity → Bool}
    {set : AccountIdentity → AccountIdentity}
    (h : Knows (discipline strict) c (Layers.none Store) (SinceRead a))
    {Q : Unit → Ctx Store Lock Event → Prop}
    (hQ : ∀ c', Knows (discipline strict) c' (Layers.none Store) (SinceRead a) → Q () c') :
    Keeping strict (identities.updateRows p set >>= fun _ => .publish (.identityUsed id)) Q c := by
  refine wp_bind.2 (wp_bind.2 (h.read fun c₁ h₁ => ?_))
  refine Knows.updateEach (I := fun _ c' => ∃ X : List AccountIdentity,
    Knows (discipline strict) c' { identities := X } (SinceRead a)) ?_ _ ?_ ⟨[], h₁⟩
  · rintro k keys c' ⟨X, h'⟩
    refine ⟨_, _, h', fun c'' h'' _ => ⟨X, h''⟩, fun c'' x h'' _ _ _ =>
      ⟨put AccountIdentity.id X (set x), ?_⟩⟩
    exact h''.write merge_identity keeps_sinceRead h''.known
  · rintro n c' ⟨X, h'⟩
    refine h'.publish keeps_sinceRead (fun L db hdb hk => ?_) hQ
    have hr : Respects { identities := X } L db := { Respects.none with }
    have ho := owners_of_quiet hdb hr rfl rfl
    refine ⟨⟨_, rfl, hr, ho.1, ho.2, by simp, fun b f t => by simp, by simp, fun id b r => by simp⟩, ?_⟩
    exact SinceRead.overlay (L := L) hk hdb hr

theorem useIdentity_keeps {a : Account} {l : Login} {hash : String}
    (h : Knows (discipline strict) c (Layers.none Store) (SinceRead a))
    {Q : Unit → Ctx Store Lock Event → Prop}
    (hQ : ∀ c', Knows (discipline strict) c' (Layers.none Store) (SinceRead a) → Q () c') :
    Keeping strict (useIdentity l a.id hash) Q c := by
  unfold useIdentity
  split
  · split
    · exact hQ c h
    · exact useIdentities_keeps h hQ
  · exact useIdentities_keeps h hQ

/-- What a login knows of the session that it has inserted for the account. -/
def NewSession (strict : Prop) (a : Account) (s : Session) (L : Held Lock) (db : Store) : Prop :=
  (Respects { sessions := [s] } L db ∧ ∀ s₀ ∈ db.sessions, s₀.id ≠ s.id) ∧
    Owns L (.session s.id) ∧ Has L (.account a.id) ∧ (strict → a ∈ db.accounts)

theorem keeps_newSession {a : Account} {s : Session} :
    (discipline strict).Keeps (NewSession strict a s) where
  mono hLM h := ⟨⟨h.1.1.mono hLM, h.1.2⟩, h.2.1.mono hLM, h.2.2.1.mono hLM, h.2.2.2⟩
  step := by
    rintro L M db e _ - hc ⟨δ, rfl, hs⟩ ⟨⟨hr, hf⟩, ho, hh, ha⟩
    refine ⟨⟨hr.overlay hs.respects hc, ?_⟩, ho, hh, fun hst => ?_⟩
    · exact hs.respects.sessions.fresh_overlay hf (ho.not_owns hc)
    · exact hs.respects.accounts.mem_overlay (ha hst) (Has.not_owns hh hc)

/-- A session is inserted, by a statement that finds the account as it was read. -/
theorem insertSession_keeps {a : Account} {s : Session} {id : UUID} {hash : String} {β : Type}
    {f : Unit → Call β} {Q : β → Ctx Store Lock Event → Prop}
    (h : Knows (discipline strict) c (Layers.none Store) (SinceRead a))
    (hQ : ∀ c', Knows (discipline strict) c' { sessions := [s] } (NewSession strict a s) →
      Keeping strict (f ()) Q c') (hs : s.accountId = a.id) (hid : s.id = id) :
    Keeping strict (sessions.insertRow
      (fun v => v.sessions.any (fun s' => s'.id = id || s'.tokenHash = hash) ||
        !v.accounts.any (·.id = a.id))
      [(.session id, .exclusive), (.sessionToken hash, .exclusive), (.account a.id, .share)]
      s (.service .database) (.createSession a.id a.revision) >>= f) Q c := by
  subst hid
  refine wp_bind.2 (h.insertRow (fun _ _ => trivial) fun c' h' hread hfree => hQ _ ?_)
  rw [h'.view, lay_none] at hread
  rw [lay_none] at hfree
  have hfree' : ∀ s' ∈ c'.db.sessions, s'.id ≠ s.id := fun s' hs' e => by
    have : (c'.db.sessions.any fun s' => s'.id = s.id || s'.tokenHash = hash) = true :=
      List.any_eq_true.2 ⟨s', hs', by simp [e]⟩
    simp [this] at hfree
  have hown : Owns (c'.held ++ [(Lock.session s.id, .exclusive),
      (.sessionToken hash, .exclusive), (.account a.id, .share)]) (.session s.id) := by
    simp [Owns]
  have hhas : Has (c'.held ++ [(Lock.session s.id, .exclusive),
      (.sessionToken hash, .exclusive), (.account a.id, .share)]) (.account a.id) :=
    ⟨.share, by simp⟩
  refine h'.write merge_session keeps_newSession ⟨⟨?_, hfree'⟩, hown, hhas, fun hst => ?_⟩
  · exact { Respects.none with
      sessions := Versioned.nil.put (Or.inr ⟨hfree', hown⟩)
      newSessions := fun x hx _ => by
        cases List.mem_singleton.1 hx
        exact hs ▸ hhas }
  · obtain ⟨x, hx, hid, rfl | hlater⟩ := h'.known
    · exact hx
    · have hrev := hread hst x hx hid
      unfold later at hlater
      omega

theorem createSession_keeps {a : Account} {sec : Security} {l : Login}
    (h : Knows (discipline strict) c (Layers.none Store) (SinceRead a)) (hact : a.status = .active) :
    Keeping strict (createSession sec l a.id a.revision) (fun _ _ => True) c := by
  refine wp_bind.2 (h.read fun c₁ h₁ => insertSession_keeps h₁ (fun c₂ h₂ => ?_) rfl rfl)
  refine wp_bind.2 (h₂.publish Discipline.keeps_true (fun L db hdb hk => ⟨⟨_, rfl, ?_⟩, trivial⟩)
    fun c₃ h₃ => wp_bind.2 (wp_mono (fun _ _ _ => trivial) (fun _ _ _ => trivial)
      (getAccount_keeps h₃)))
  obtain ⟨⟨hr, hfree⟩, -, -, ha⟩ := hk
  have ho := owners_of_quiet hdb hr rfl rfl
  refine ⟨hr, ho.1, ho.2, by simp, fun b f t => by simp, fun s hs _ => ?_, fun id b r e => ?_⟩
  · cases List.mem_singleton.1 hs
    exact ⟨a.revision, rfl⟩
  · cases e
    exact ⟨hfree, ⟨_, List.mem_singleton_self _, rfl, rfl⟩, fun hst => ⟨a, ha hst, rfl, rfl, hact⟩⟩

theorem localIdentity_mem {normalized : String} {i : AccountIdentity} {a : Account}
    (h : db.localIdentity normalized = some (i, a)) : a ∈ db.accounts := by
  simp only [Store.localIdentity, Option.bind_eq_bind, Option.bind_eq_some_iff] at h
  obtain ⟨j, -, b, hb, e⟩ := h
  cases e
  exact List.mem_of_find?_eq_some hb

theorem authenticateLocal_keeps {sec : Security} {l : Login} {username password : String}
    (h : Knows (discipline strict) c (Layers.none Store) fun _ _ => True) :
    Keeping strict (authenticateLocal sec l username password) (fun _ _ => True) c := by
  unfold authenticateLocal
  refine wp_bind.2 (wp_orFail.2 ⟨fun normalized _ => ?_, fun _ => trivial⟩)
  refine wp_bind.2 (h.readOne (fun c₁ ⟨i, a⟩ h₁ hi => ?_) fun _ _ _ => trivial)
  rw [lay_none] at hi
  refine wp_bind.2 (wp_check.2 ⟨fun _ => ?_, fun _ => trivial⟩)
  refine wp_bind.2 (wp_check.2 ⟨fun hact => ?_, fun _ => trivial⟩)
  have h₂ := (h₁.learn (keeps_sinceRead (a := a)) ⟨a, localIdentity_mem hi, rfl, Or.inl rfl⟩).mono
    keeps_sinceRead And.right
  exact wp_bind.2 (useIdentity_keeps h₂ fun c₃ h₃ => createSession_keeps h₃ hact)

/-! ## Sessions -/

/-- A session keeps its account when it is seen. -/
theorem seen_knows {x x' : Session} (h : Knows (discipline strict) c (Layers.none Store) K)
    (hx : x ∈ c.db.sessions) (hid : x'.id = x.id) (hacc : x'.accountId = x.accountId)
    (hrev : x'.revokedAt = x.revokedAt) :
    Knows (discipline strict) (c.apply ⟨[(.session x.id, .exclusive)],
        fun s => Layers.lay s (sessions.version x')⟩) { sessions := [x'] }
      fun L db => Respects { sessions := [x'] } L db ∧ Existing [x'] L db := by
  have hown : Owns (c.held ++ [(Lock.session x.id, .exclusive)]) (.session x'.id) := by
    simp [Owns, hid]
  refine h.write merge_session (keeps_respects.and keeps_existing) ⟨{ Respects.none with
    sessions := Versioned.nil.put (Or.inl ⟨x, hx, hid.symm, ⟨hacc, fun h => hrev ▸ h⟩, hown⟩)
    newSessions := fun y hy hf => ?_ }, fun y hy => ?_⟩
  · cases List.mem_singleton.1 hy
    exact absurd hid.symm (hf x hx)
  · cases List.mem_singleton.1 hy
    exact ⟨x, hx, hid.symm⟩

theorem authenticateSession_keeps {sec : Security} {now : Time} {token : String}
    (h : Knows (discipline strict) c (Layers.none Store) fun _ _ => True) :
    Keeping strict (authenticateSession sec now token) (fun _ _ => True) c := by
  unfold authenticateSession
  refine wp_bind.2 (h.readOne (fun c₁ ⟨s, a⟩ h₁ _ => ?_) fun _ _ _ => trivial)
  refine wp_bind.2 (wp_check.2 ⟨fun _ => ?_, fun _ => trivial⟩)
  refine wp_bind.2 (h₁.read fun c₂ h₂ => wp_bind.2 (h₂.updateRow (fun c₃ h₃ _ => ?_)
    fun c₃ x h₃ _ hx _ => ?_))
  · refine wp_bind.2 (h₃.publish Discipline.keeps_true (fun L db hdb _ => ⟨⟨{}, rfl, ?_⟩, trivial⟩)
      fun _ _ => trivial)
    have ho := owners_of_quiet hdb (Respects.none (L := L)) rfl rfl
    exact ⟨.none, ho.1, ho.2, by simp, fun b f t => by simp, by simp, fun id b r => by simp⟩
  · rw [lay_none] at hx
    have hx : x ∈ c₃.db.sessions := hx
    have h₄ := @seen_knows _ _ _ _ { x with lastSeenAt := now } h₃ hx rfl rfl rfl
    refine wp_bind.2 (h₄.publish Discipline.keeps_true (fun L db hdb hk => ⟨⟨_, rfl, ?_⟩, trivial⟩)
      fun _ _ => trivial)
    have ho := owners_of_quiet hdb hk.1 rfl rfl
    refine ⟨hk.1, ho.1, ho.2, by simp, fun b f t => by simp, fun y hy hf => ?_,
      fun id b r => by simp⟩
    obtain ⟨s₀, h₀, e₀⟩ := hk.2 y hy
    exact absurd e₀ (hf s₀ h₀)

/-! ## Requests -/

/-- **Every request keeps to the discipline.** -/
theorem Request.keeps (strict : Prop) (sec : Security) (r : Request) (db : Store)
    (hdb : db.WellFormed) : wp (discipline strict) (r.call sec) (fun _ _ => True) (fun _ _ => True)
      { db := db } := by
  have h : Knows (discipline strict) { db := db } (Layers.none Store) fun _ _ => True := .start hdb
  cases r with
  | changeLifecycle now id toStatus reason => exact changeLifecycle_keeps h
  | assignRoles accountID codes actor => exact assignRoles_keeps h
  | saveRole newID code name permissions => exact saveRole_keeps h
  | authenticateLocal l username password => exact authenticateLocal_keeps h
  | authenticateSession now token => exact authenticateSession_keeps h

end Sakura.Identity
