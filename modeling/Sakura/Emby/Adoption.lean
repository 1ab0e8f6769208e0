/-
  The adoption of imported identities on an instance (platform/emby.go).

  One transaction binds the account of every identity to the remote user that its subject names.

  * `createBindingTx`, `adoptIdentity`, `adoptLegacyIdentities`: the call;
  * `Isolated`: every identity is adopted or passed over for itself;
  * `Store.Leads`: an identity that is not bound comes first for its account;
  * `run_after`: what the call does to the identities before the first one that it cannot adopt;
  * `isolated_iff`: the tables on which no identity stands in the way of the others.
-/
import Mathlib.Data.List.Induction
import Sakura.Queue.Schema
import Sakura.Text

namespace Sakura.Adoption

open Txn Queue

/-! ## The call -/

/-- The identities are those of kind `emby`, in the order of their creation. -/
structure Store where
  instances : List UUID
  accounts : List Account
  identities : List LegacyIdentity
  bindings : List Binding
  remoteUsers : List RemoteUser

/-- The ids of the rows that are inserted for an identity. -/
structure Draw where
  binding : LegacyIdentity → UUID
  remoteUser : LegacyIdentity → UUID

/-- `created` and `skipped` are what the call counts. -/
structure Progress where
  store : Store
  created : Nat := 0
  skipped : Nat := 0

structure Counts where
  created : Nat
  skipped : Nat

/-- `subject NOT LIKE '%:%' AND NOT disabled` -/
def Store.legacy (s : Store) : List LegacyIdentity :=
  s.identities.filter fun x => !x.subject.toList.contains ':' && !x.disabled

def Store.withBindings (s : Store) (rows : List Binding) : Store := { s with bindings := rows }

def Store.withIdentities (s : Store) (rows : List LegacyIdentity) : Store :=
  { s with identities := rows }

def Store.withRemoteUsers (s : Store) (rows : List RemoteUser) : Store :=
  { s with remoteUsers := rows }

/-- PRIMARY KEY(id), UNIQUE(instance_id,remote_user_id) and UNIQUE(account_id,instance_id) -/
def Store.clashes (s : Store) (row : Binding) : Bool :=
  s.bindings.any fun b => b.id = row.id || b.remote = row.remote || b.place = row.place

/-- The columns VARCHAR(128) and VARCHAR(255) of a binding. -/
def storedBinding (b : Binding) : Except Err Binding := do
  let remoteUserId ← varchar 128 b.remoteUserId
  let remoteUsername ← varchar 255 b.remoteUsername
  pure { b with remoteUserId, remoteUsername }

/-- `INSERT INTO emby_account_bindings`, whose errors all become one. -/
def insertBinding (b : Binding) (s : Store) : Except Err Store :=
  match storedBinding b with
  | .error _ => .error .conflict
  | .ok row => if s.clashes row then .error .conflict else .ok (s.withBindings (s.bindings ++ [row]))

/-- `INSERT INTO account_identities … ON CONFLICT(kind,subject) DO NOTHING` -/
def insertIdentity (x : LegacyIdentity) (s : Store) : Except Err Store := do
  let subject ← varchar 255 x.subject
  let username ← x.username.mapM (varchar 255)
  if s.identities.any (·.subject = subject) then pure s
  else pure (s.withIdentities (s.identities ++ [{ x with subject, username }]))

/-- The subject of the identity that comes with a binding. -/
def bindingSubject (instanceID : UUID) (remoteUserID : String) : String :=
  instanceID.text ++ ":" ++ remoteUserID

def createBindingTx (bindingID accountID instanceID : UUID) (remoteUserID username : String)
    (disabled : Bool) (origin : BindingOrigin) (s : Store) : Except Err (Binding × Store) := do
  let account ← (s.accounts.find? (·.id = accountID)).elim (.error .notFound) .ok
  if account.status ≠ .active then .error .forbidden
  else do
    let primary := !s.bindings.any fun b => b.accountId = accountID && b.status ≠ .deleted
    let binding : Binding :=
      { id := bindingID, accountId := accountID, instanceId := instanceID
        remoteUserId := remoteUserID, remoteUsername := username
        status := if disabled then .suspended else .active, origin, isPrimary := primary
        remoteDisabled := some disabled }
    let s ← insertBinding binding s
    let s ← insertIdentity
      { accountId := accountID, subject := bindingSubject instanceID remoteUserID
        username := some username, disabled := false } s
    pure (binding, s)

/-- `INSERT INTO remote_emby_users … ON CONFLICT(instance_id,remote_user_id) DO UPDATE SET
claim_status='claimed',binding_id=EXCLUDED.binding_id` -/
def claimRemoteUser (row : RemoteUser) (s : Store) : Except Err Store := do
  let remoteUserId ← varchar 128 row.remoteUserId
  let username ← varchar 255 row.username
  let usernameNormalized ← varchar 255 row.usernameNormalized
  let row := { row with remoteUserId, username, usernameNormalized }
  if s.remoteUsers.any (·.remote = row.remote) then
    pure (s.withRemoteUsers (s.remoteUsers.map fun u => if u.remote = row.remote then
      { u with claimStatus := .claimed, bindingId := row.bindingId } else u))
  else if s.remoteUsers.any (·.id = row.id) then .error .database
  else pure (s.withRemoteUsers (s.remoteUsers ++ [row]))

/-- A binding of the account or of the remote user on the instance, of any status. -/
def Store.bound (s : Store) (instanceID : UUID) (x : LegacyIdentity) : Bool :=
  s.bindings.any fun b => b.place = (x.accountId, instanceID) || b.remote = (instanceID, x.subject)

section

-- `unicode.ToLower`
variable (lower : Char → Char)

/-- `strings.ToLower(strings.TrimSpace(value))` -/
def normalizeName (value : String) : String :=
  String.ofList ((trimSpace value).toList.map lower)

variable (d : Draw) (instanceID : UUID)

/-- The turn of an identity. -/
def adoptIdentity (p : Progress) (x : LegacyIdentity) : Except Err Progress :=
  if p.store.bound instanceID x then .ok { p with skipped := p.skipped + 1 }
  else do
    let username := x.username.getD x.subject
    let (binding, s) ← createBindingTx (d.binding x) x.accountId instanceID x.subject username false
      .legacyImport p.store
    let s ← claimRemoteUser
      { id := d.remoteUser x, instanceId := instanceID, remoteUserId := x.subject, username
        usernameNormalized := normalizeName lower username, claimStatus := .claimed
        bindingId := some binding.id } s
    pure { p with store := s, created := p.created + 1 }

/-- The transaction: all identities in their order. -/
def adoptIdentities (s : Store) : Except Err Progress :=
  if instanceID ∈ s.instances then
    s.legacy.foldlM (adoptIdentity lower d instanceID) { store := s }
  else .error .notFound

/-- The answer of the call, and the tables that it leaves. -/
def adoptLegacyIdentities (s : Store) : Except Err Counts × Store :=
  match adoptIdentities lower d instanceID s with
  | .ok p => (.ok ⟨p.created, p.skipped⟩, p.store)
  | .error e => (.error e, s)

end

/-! ## Isolation -/

def Store.Active (s : Store) (accountID : UUID) : Prop :=
  ∃ a, s.accounts.find? (·.id = accountID) = some a ∧ a.status = .active

/-- The call has bound the account of the identity to its remote user. -/
def Adopted (instanceID : UUID) (s s' : Store) (x : LegacyIdentity) : Prop :=
  s.bound instanceID x = false ∧
    ∃ b ∈ s'.bindings, b.place = (x.accountId, instanceID) ∧ b.remote = (instanceID, x.subject)

/-- No identity stands in the way of the others. -/
structure Isolated (instanceID : UUID) (s : Store) (result : Except Err Counts) (s' : Store) :
    Prop where
  completes : ∃ c, result = .ok c ∧ c.created + c.skipped = s.legacy.length
  adopts : ∀ before x after, s.legacy = before ++ x :: after → s.Active x.accountId →
    s.bound instanceID x = false →
    (∀ y ∈ before, y.accountId = x.accountId → ¬Adopted instanceID s s' y) →
    Adopted instanceID s s' x
  keeps : s.bindings ⊆ s'.bindings
  bindings : ∀ b ∈ s'.bindings, b ∉ s.bindings → ∃ x ∈ s.legacy, Adopted instanceID s s' x ∧
    b.place = (x.accountId, instanceID) ∧ b.remote = (instanceID, x.subject)
  identities : ∀ y, (∀ x ∈ s.legacy, Adopted instanceID s s' x →
    y.subject ≠ bindingSubject instanceID x.subject) → (y ∈ s'.identities ↔ y ∈ s.identities)
  remoteUsers : ∀ u : RemoteUser, (∀ x ∈ s.legacy, Adopted instanceID s s' x →
    u.remote ≠ (instanceID, x.subject)) → (u ∈ s'.remoteUsers ↔ u ∈ s.remoteUsers)
  others : s'.accounts = s.accounts ∧ s'.instances = s.instances

/-- Unique keys, and texts that are no longer than their columns. -/
structure WellFormed (s : Store) : Prop where
  subjects : UniqueBy LegacyIdentity.subject s.identities
  places : UniqueBy Binding.place s.bindings
  subjectFits : ∀ x ∈ s.identities, Fits 255 x.subject
  usernameFits : ∀ x ∈ s.identities, ∀ u, x.username = some u → Fits 255 u
  /-- Ids are hexadecimal texts. -/
  ids : ∀ i ∈ s.instances, '\x00' ∉ i.text.toList

/-- The ids are new. -/
structure Draw.Fresh (d : Draw) (s : Store) : Prop where
  binding : ∀ x ∈ s.legacy, ∀ b ∈ s.bindings, b.id ≠ d.binding x
  binding_inj : ∀ x ∈ s.legacy, ∀ y ∈ s.legacy, d.binding x = d.binding y → x = y
  remoteUser : ∀ x ∈ s.legacy, ∀ u ∈ s.remoteUsers, u.id ≠ d.remoteUser x
  remoteUser_inj : ∀ x ∈ s.legacy, ∀ y ∈ s.legacy, d.remoteUser x = d.remoteUser y → x = y

/-- The identity is not bound, and neither was one before it that has the same account. -/
structure Store.Leads (s : Store) (instanceID : UUID) (before : List LegacyIdentity)
    (x : LegacyIdentity) : Prop where
  unbound : s.bound instanceID x = false
  first : ∀ y ∈ before, y.accountId = x.accountId → s.bound instanceID y = true

/-- What it takes to adopt an identity. -/
def Store.Ready (s : Store) (x : LegacyIdentity) : Prop :=
  s.Active x.accountId ∧ Fits 128 x.subject

/-- An identity that comes first for its account. -/
def Store.Led (s : Store) (instanceID : UUID) (considered : List LegacyIdentity)
    (x : LegacyIdentity) : Prop :=
  ∃ before after, considered = before ++ x :: after ∧ s.Leads instanceID before x

/-- Whatever comes first for its account can be adopted. -/
def Store.Adoptable (s : Store) (instanceID : UUID) (considered : List LegacyIdentity) : Prop :=
  ∀ x, s.Led instanceID considered x → s.Ready x

variable {lower : Char → Char} {d : Draw} {instanceID : UUID} {s s' : Store} {p p' : Progress}
  {x y : LegacyIdentity} {before considered : List LegacyIdentity}

/-! ## Identities that come first -/

theorem bound_iff : s.bound instanceID x = true ↔ ∃ b ∈ s.bindings,
    b.place = (x.accountId, instanceID) ∨ b.remote = (instanceID, x.subject) := by
  simp [Store.bound, List.any_eq_true]

theorem Store.Led.mem (h : s.Led instanceID considered x) : x ∈ considered := by
  obtain ⟨before, after, rfl, -⟩ := h
  exact List.mem_append_right _ List.mem_cons_self

theorem Store.Led.unbound (h : s.Led instanceID considered x) : s.bound instanceID x = false := by
  obtain ⟨_, _, _, hl⟩ := h
  exact hl.unbound

theorem Store.Led.append (h : s.Led instanceID considered x) (after : List LegacyIdentity) :
    s.Led instanceID (considered ++ after) x := by
  obtain ⟨before, rest, rfl, hl⟩ := h
  exact ⟨before, rest ++ after, by simp, hl⟩

theorem led_snoc : s.Led instanceID (considered ++ [y]) x ↔
    s.Led instanceID considered x ∨ x = y ∧ s.Leads instanceID considered y := by
  constructor
  · rintro ⟨before, after, he, hl⟩
    rcases List.eq_nil_or_concat after with rfl | ⟨rest, z, rfl⟩
    · obtain ⟨rfl, hxy⟩ := List.append_inj' he rfl
      obtain rfl := List.singleton_inj.1 hxy
      exact Or.inr ⟨rfl, hl⟩
    · have he' : considered ++ [y] = (before ++ x :: rest) ++ [z] := by simpa using he
      obtain ⟨hpre, -⟩ := List.append_inj' he' rfl
      exact Or.inl ⟨before, rest, hpre, hl⟩
  · rintro (h | ⟨rfl, hl⟩)
    · exact h.append _
    · exact ⟨considered, [], rfl, hl⟩

/-- If one of the identities of an account is not bound, one of them comes first. -/
theorem exists_led (hy : y ∈ considered) (hb : s.bound instanceID y = false) :
    ∃ z, s.Led instanceID considered z ∧ z.accountId = y.accountId := by
  have hsome : (considered.find? fun z => z.accountId = y.accountId &&
      !s.bound instanceID z).isSome := by
    rw [List.find?_isSome]
    exact ⟨y, hy, by simp [hb]⟩
  obtain ⟨z, hz⟩ := Option.isSome_iff_exists.1 hsome
  obtain ⟨hp, before, after, he, hbefore⟩ := List.find?_eq_some_iff_append.1 hz
  simp only [Bool.and_eq_true, decide_eq_true_eq, Bool.not_eq_true'] at hp
  refine ⟨z, ⟨before, after, he, hp.2, fun w hw hacc => ?_⟩, hp.1⟩
  simpa [hacc, hp.1] using hbefore w hw

/-! ## One identity -/

/-- What the adoption of an identity changes. -/
structure Adopts (d : Draw) (instanceID : UUID) (x : LegacyIdentity) (s s' : Store) : Prop where
  others : s'.accounts = s.accounts ∧ s'.instances = s.instances
  binding : ∃ b, s'.bindings = s.bindings ++ [b] ∧ b.id = d.binding x ∧
    b.place = (x.accountId, instanceID) ∧ b.remote = (instanceID, x.subject)
  identities : ∀ y : LegacyIdentity, y.subject ≠ bindingSubject instanceID x.subject →
    (y ∈ s'.identities ↔ y ∈ s.identities)
  remoteUsers : ∀ u : RemoteUser, u.remote ≠ (instanceID, x.subject) →
    (u ∈ s'.remoteUsers ↔ u ∈ s.remoteUsers)
  ids : ∀ u ∈ s'.remoteUsers, u.id = d.remoteUser x ∨ ∃ v ∈ s.remoteUsers, v.id = u.id

theorem storedBinding_ok {b row : Binding} (h : storedBinding b = .ok row) :
    varchar 128 b.remoteUserId = .ok row.remoteUserId ∧ row.place = b.place ∧
      row.instanceId = b.instanceId := by
  unfold storedBinding at h
  obtain ⟨remote, hr, h⟩ := except_bind_ok h
  obtain ⟨name, -, h⟩ := except_bind_ok h
  cases h
  exact ⟨hr, rfl, rfl⟩

theorem insertBinding_ok {b : Binding} (h : insertBinding b s = .ok s') :
    ∃ row, s' = s.withBindings (s.bindings ++ [row]) ∧ s.clashes row = false ∧
      varchar 128 b.remoteUserId = .ok row.remoteUserId ∧ row.place = b.place ∧
      row.instanceId = b.instanceId := by
  unfold insertBinding at h
  split at h
  · cases h
  · next row hrow =>
    split at h
    · cases h
    · next hc => exact ⟨row, (Except.ok.inj h).symm, by simpa using hc, storedBinding_ok hrow⟩

theorem insertIdentity_ok (h : insertIdentity x s = .ok s') :
    s'.bindings = s.bindings ∧ s'.accounts = s.accounts ∧ s'.instances = s.instances ∧
      s'.remoteUsers = s.remoteUsers := by
  unfold insertIdentity at h
  obtain ⟨subject, -, h⟩ := except_bind_ok h
  obtain ⟨username, -, h⟩ := except_bind_ok h
  split at h <;> cases h <;> exact ⟨rfl, rfl, rfl, rfl⟩

theorem claimRemoteUser_bindings {row : RemoteUser} (h : claimRemoteUser row s = .ok s') :
    s'.bindings = s.bindings := by
  unfold claimRemoteUser at h
  obtain ⟨remote, -, h⟩ := except_bind_ok h
  obtain ⟨name, -, h⟩ := except_bind_ok h
  obtain ⟨normalized, -, h⟩ := except_bind_ok h
  simp only at h
  split at h
  · cases h; rfl
  · split at h <;> cases h; rfl

/-- A binding that is created belongs to an active account, and its place was free. -/
theorem createBindingTx_ok {bindingID accountID : UUID} {remoteUserID username : String}
    {disabled : Bool} {origin : BindingOrigin} {b : Binding}
    (h : createBindingTx bindingID accountID instanceID remoteUserID username disabled origin s =
      .ok (b, s')) :
    s.Active accountID ∧ ∃ row, s'.bindings = s.bindings ++ [row] ∧ s.clashes row = false ∧
      varchar 128 remoteUserID = .ok row.remoteUserId ∧ row.place = (accountID, instanceID) ∧
      row.instanceId = instanceID := by
  unfold createBindingTx at h
  obtain ⟨a, ha, h⟩ := except_bind_ok h
  split at h
  · cases h
  · next hactive =>
    obtain ⟨s₁, h₁, h⟩ := except_bind_ok h
    obtain ⟨s₂, h₂, h⟩ := except_bind_ok h
    cases h
    obtain ⟨row, rfl, hc, hv, hp, hi⟩ := insertBinding_ok h₁
    refine ⟨⟨a, ?_, by simpa using hactive⟩, row, (insertIdentity_ok h₂).1, hc, hv, hp, hi⟩
    cases hf : s.accounts.find? (·.id = accountID) with
    | none => rw [hf] at ha; cases ha
    | some a' => rw [hf] at ha; cases ha; rfl

/-- **An identity whose turn succeeds** was bound, or its account is active and bound to what the
column keeps of its subject. -/
theorem adoptIdentity_ok (h : adoptIdentity lower d instanceID p x = .ok p')
    (hb : p.store.bound instanceID x = false) :
    p.store.Active x.accountId ∧ ∃ row, p'.store.bindings = p.store.bindings ++ [row] ∧
      p.store.clashes row = false ∧ varchar 128 x.subject = .ok row.remoteUserId ∧
      row.place = (x.accountId, instanceID) ∧ row.instanceId = instanceID := by
  unfold adoptIdentity at h
  rw [if_neg (by simp [hb])] at h
  obtain ⟨⟨b, s₁⟩, h₁, h⟩ := except_bind_ok h
  obtain ⟨s₂, h₂, h⟩ := except_bind_ok h
  cases h
  obtain ⟨hactive, row, hrow, hrest⟩ := createBindingTx_ok h₁
  exact ⟨hactive, row, (claimRemoteUser_bindings h₂).trans hrow, hrest⟩

theorem free_of_unbound (h : s.bound instanceID x = false) {b : Binding} (hb : b ∈ s.bindings) :
    b.place ≠ (x.accountId, instanceID) ∧ b.remote ≠ (instanceID, x.subject) := by
  rw [← not_or]
  intro hor
  rw [bound_iff.2 ⟨b, hb, hor⟩] at h
  cases h

theorem normalizeName_fits {n : Nat} {name : String} (hlower : ∀ c, lower c = '\x00' → c = '\x00')
    (h : Fits n name) : Fits n (normalizeName lower name) := by
  have hsub : (trimChars name.toList).Sublist name.toList := by
    unfold trimChars
    have hl := (List.dropWhile_sublist isSpace : (name.toList.dropWhile isSpace).Sublist _)
    have hr := (List.dropWhile_sublist isSpace :
      ((name.toList.dropWhile isSpace).reverse.dropWhile isSpace).Sublist _).reverse
    rw [List.reverse_reverse] at hr
    exact hr.trans hl
  unfold Fits normalizeName trimSpace
  rw [String.toList_ofList, String.toList_ofList, List.length_map]
  refine ⟨hsub.length_le.trans h.1, fun hmem => ?_⟩
  obtain ⟨c, hc, he⟩ := List.mem_map.1 hmem
  obtain rfl := hlower c he
  exact h.2 (hsub.subset hc)

theorem insertIdentity_fits (hsub : Fits 255 x.subject) (hname : ∀ u, x.username = some u → Fits 255 u) :
    ∃ s', insertIdentity x s = .ok s' ∧
      ∀ y : LegacyIdentity, y.subject ≠ x.subject → (y ∈ s'.identities ↔ y ∈ s.identities) := by
  have hm : x.username.mapM (varchar 255) = .ok x.username := by
    cases hu : x.username with
    | none => rfl
    | some u =>
      show (varchar 255 u).map some = _
      rw [varchar_of_fits (hname u hu)]
      rfl
  unfold insertIdentity
  rw [varchar_of_fits hsub, hm]
  simp only [bind, Except.bind, pure, Except.pure]
  split
  · exact ⟨s, rfl, fun _ _ => Iff.rfl⟩
  · refine ⟨_, rfl, fun y hy => ?_⟩
    show y ∈ s.identities ++ [_] ↔ _
    rw [List.mem_append, List.mem_singleton, or_iff_left]
    rintro rfl
    exact hy rfl

theorem claimRemoteUser_fits {r : RemoteUser} (hremote : Fits 128 r.remoteUserId)
    (hname : Fits 255 r.username) (hnormal : Fits 255 r.usernameNormalized)
    (hid : ∀ u ∈ s.remoteUsers, u.id ≠ r.id) :
    ∃ s', claimRemoteUser r s = .ok s' ∧ s'.accounts = s.accounts ∧ s'.instances = s.instances ∧
      s'.bindings = s.bindings ∧ s'.identities = s.identities ∧
      (∀ u : RemoteUser, u.remote ≠ r.remote → (u ∈ s'.remoteUsers ↔ u ∈ s.remoteUsers)) ∧
      ∀ u ∈ s'.remoteUsers, u.id = r.id ∨ ∃ v ∈ s.remoteUsers, v.id = u.id := by
  unfold claimRemoteUser
  rw [varchar_of_fits hremote, varchar_of_fits hname, varchar_of_fits hnormal]
  simp only [bind, Except.bind, pure, Except.pure]
  split
  · refine ⟨_, rfl, rfl, rfl, rfl, rfl, fun u hu => ?_, fun u hu => ?_⟩
    · show u ∈ s.remoteUsers.map _ ↔ _
      rw [List.mem_map]
      constructor
      · rintro ⟨v, hv, rfl⟩
        by_cases he : v.remote = r.remote
        · exact absurd (by rw [if_pos he]; exact he) hu
        · rw [if_neg he]
          exact hv
      · intro hmem
        exact ⟨u, hmem, if_neg hu⟩
    · obtain ⟨v, hv, rfl⟩ := List.mem_map.1 hu
      refine Or.inr ⟨v, hv, ?_⟩
      split <;> rfl
  · rw [if_neg (by simpa using hid)]
    refine ⟨_, rfl, rfl, rfl, rfl, rfl, fun u hu => ?_, fun u hu => ?_⟩
    · show u ∈ s.remoteUsers ++ [_] ↔ _
      rw [List.mem_append, List.mem_singleton, or_iff_left]
      rintro rfl
      exact hu rfl
    · rcases List.mem_append.1 hu with hu | hu
      · exact Or.inr ⟨u, hu, rfl⟩
      · obtain rfl := List.mem_singleton.1 hu
        exact Or.inl rfl

theorem bindingSubject_fits (hid : '\x00' ∉ instanceID.text.toList) {subject : String}
    (h : Fits 128 subject) : Fits 255 (bindingSubject instanceID subject) := by
  have hlen : instanceID.text.toList.length = 36 := by
    rw [String.length_toList]
    exact instanceID.valid
  unfold Fits bindingSubject
  simp only [String.toList_append, List.length_append, List.mem_append, hlen]
  refine ⟨by have := h.1; simp; omega, ?_⟩
  rintro ((hc | hc) | hc)
  · exact hid hc
  · exact absurd hc (by decide)
  · exact h.2 hc

/-- A binding can be created for an active account whose place and remote user are free. -/
theorem createBindingTx_adopts (hid : '\x00' ∉ instanceID.text.toList)
    (hunbound : s.bound instanceID x = false) (hactive : s.Active x.accountId)
    (hfits : Fits 128 x.subject) {username : String} (hname : Fits 255 username)
    (hnew : ∀ b ∈ s.bindings, b.id ≠ d.binding x) :
    ∃ b s', createBindingTx (d.binding x) x.accountId instanceID x.subject username false .legacyImport
        s = .ok (b, s') ∧ b.id = d.binding x ∧ b.place = (x.accountId, instanceID) ∧
      b.remote = (instanceID, x.subject) ∧ s'.bindings = s.bindings ++ [b] ∧
      s'.accounts = s.accounts ∧ s'.instances = s.instances ∧ s'.remoteUsers = s.remoteUsers ∧
      ∀ y : LegacyIdentity, y.subject ≠ bindingSubject instanceID x.subject →
        (y ∈ s'.identities ↔ y ∈ s.identities) := by
  obtain ⟨a, ha, hstatus⟩ := hactive
  let b : Binding :=
    { id := d.binding x, accountId := x.accountId, instanceId := instanceID
      remoteUserId := x.subject, remoteUsername := username, status := .active
      origin := .legacyImport
      isPrimary := !s.bindings.any fun b => b.accountId = x.accountId && b.status ≠ .deleted
      remoteDisabled := some false }
  have hclash : s.clashes b = false := by
    unfold Store.clashes
    rw [List.any_eq_false]
    intro c hc hor
    simp only [Bool.or_eq_true, decide_eq_true_eq] at hor
    rcases hor with (hor | hor) | hor
    · exact hnew c hc hor
    · exact (free_of_unbound hunbound hc).2 hor
    · exact (free_of_unbound hunbound hc).1 hor
  have hinsert : insertBinding b s = .ok (s.withBindings (s.bindings ++ [b])) := by
    have hstored : storedBinding b = .ok b := by
      unfold storedBinding
      rw [varchar_of_fits hfits, varchar_of_fits hname]
      rfl
    unfold insertBinding
    rw [hstored]
    simp only
    rw [if_neg (by simp [hclash])]
  obtain ⟨s', hs', hidentities⟩ := insertIdentity_fits (s := s.withBindings (s.bindings ++ [b]))
    (x := { accountId := x.accountId, subject := bindingSubject instanceID x.subject
            username := some username, disabled := false })
    (bindingSubject_fits hid hfits) (fun u hu => Option.some.inj hu ▸ hname)
  obtain ⟨hb, hacc, hinst, hrem⟩ := insertIdentity_ok hs'
  refine ⟨b, s', ?_, rfl, rfl, rfl, hb, hacc, hinst, hrem, hidentities⟩
  unfold createBindingTx
  rw [ha]
  simp only [Option.elim_some, bind, Except.bind]
  rw [if_neg (by simp [hstatus])]
  have hinsert' : insertBinding _ s = _ := hinsert
  simp only [Bool.false_eq_true, if_false]
  rw [hinsert']
  simp only
  rw [hs']
  rfl

/-- **An identity is adopted** if it is not bound, its account is active and its subject fits. -/
theorem adoptIdentity_adopts (hlower : ∀ c, lower c = '\x00' → c = '\x00')
    (hid : '\x00' ∉ instanceID.text.toList) (hunbound : p.store.bound instanceID x = false)
    (hactive : p.store.Active x.accountId) (hfits : Fits 128 x.subject)
    (hname : Fits 255 (x.username.getD x.subject))
    (hnew : ∀ b ∈ p.store.bindings, b.id ≠ d.binding x)
    (hrow : ∀ u ∈ p.store.remoteUsers, u.id ≠ d.remoteUser x) :
    ∃ p', adoptIdentity lower d instanceID p x = .ok p' ∧ Adopts d instanceID x p.store p'.store ∧
      p'.created = p.created + 1 ∧ p'.skipped = p.skipped := by
  obtain ⟨b, s₁, hcreate, hbid, hplace, hremote, hb₁, hacc₁, hinst₁, hrem₁, hident₁⟩ :=
    createBindingTx_adopts hid hunbound hactive hfits hname hnew
  obtain ⟨s₂, hclaim, hacc₂, hinst₂, hb₂, hident₂, hrem₂, hids⟩ :=
    claimRemoteUser_fits (s := s₁)
      (r := { id := d.remoteUser x, instanceId := instanceID, remoteUserId := x.subject
              username := x.username.getD x.subject
              usernameNormalized := normalizeName lower (x.username.getD x.subject)
              claimStatus := .claimed, bindingId := some b.id })
      hfits hname (normalizeName_fits hlower hname) (by rw [hrem₁]; exact hrow)
  refine ⟨{ store := s₂, created := p.created + 1, skipped := p.skipped }, ?_, ?_, rfl, rfl⟩
  · unfold adoptIdentity
    rw [if_neg (by simp [hunbound])]
    simp only
    rw [hcreate]
    simp only [bind, Except.bind]
    rw [hclaim]
    rfl
  · refine ⟨⟨hacc₂.trans hacc₁, hinst₂.trans hinst₁⟩, ⟨b, hb₂.trans hb₁, hbid, hplace, hremote⟩,
      fun y hy => ?_, fun u hu => ?_, ?_⟩
    · rw [hident₂]
      exact hident₁ y hy
    · rw [← hrem₁]
      exact hrem₂ u hu
    · rw [← hrem₁]
      exact hids

/-! ## The identities before one that cannot be adopted -/

/-- The identities `considered` have had their turns, and all that came first were adopted. -/
structure After (d : Draw) (instanceID : UUID) (s : Store) (considered : List LegacyIdentity)
    (p : Progress) : Prop where
  counts : p.created + p.skipped = considered.length
  others : p.store.accounts = s.accounts ∧ p.store.instances = s.instances
  keeps : s.bindings ⊆ p.store.bindings
  bindings : ∀ b ∈ p.store.bindings, b ∈ s.bindings ∨ ∃ x, s.Led instanceID considered x ∧
    b.id = d.binding x ∧ b.place = (x.accountId, instanceID) ∧ b.remote = (instanceID, x.subject)
  adopted : ∀ x, s.Led instanceID considered x → ∃ b ∈ p.store.bindings,
    b.place = (x.accountId, instanceID) ∧ b.remote = (instanceID, x.subject)
  identities : ∀ y : LegacyIdentity, (∀ x, s.Led instanceID considered x →
    y.subject ≠ bindingSubject instanceID x.subject) → (y ∈ p.store.identities ↔ y ∈ s.identities)
  remoteUsers : ∀ u : RemoteUser, (∀ x, s.Led instanceID considered x →
    u.remote ≠ (instanceID, x.subject)) → (u ∈ p.store.remoteUsers ↔ u ∈ s.remoteUsers)
  ids : ∀ u ∈ p.store.remoteUsers, (∃ v ∈ s.remoteUsers, v.id = u.id) ∨
    ∃ x ∈ considered, u.id = d.remoteUser x

theorem After.nil : After d instanceID s [] { store := s } where
  counts := rfl
  others := ⟨rfl, rfl⟩
  keeps := List.Subset.refl _
  bindings _ hb := Or.inl hb
  adopted _ hx := absurd hx.mem List.not_mem_nil
  identities _ _ := Iff.rfl
  remoteUsers _ _ := Iff.rfl
  ids u hu := Or.inl ⟨u, hu, rfl⟩

/-- Whoever comes first is not bound when its turn comes, and the others are. -/
theorem After.bound_iff (h : After d instanceID s considered p)
    (hx : ∀ y ∈ considered, y.subject ≠ x.subject) :
    p.store.bound instanceID x = false ↔ s.Leads instanceID considered x := by
  constructor
  · intro hfree
    refine ⟨?_, fun y hy hacc => ?_⟩
    · by_contra hb
      obtain ⟨b, hb, hor⟩ := Adoption.bound_iff.1 (eq_true_of_ne_false hb)
      have hno := free_of_unbound hfree (h.keeps hb)
      exact hor.elim hno.1 hno.2
    · by_contra hb
      obtain ⟨z, hz, hzy⟩ := exists_led hy (eq_false_of_ne_true hb)
      obtain ⟨b, hb, hplace, -⟩ := h.adopted z hz
      exact (free_of_unbound hfree hb).1 (by rw [hplace, hzy, hacc])
  · intro hl
    by_contra hb
    obtain ⟨b, hb, hor⟩ := Adoption.bound_iff.1 (eq_true_of_ne_false hb)
    rcases h.bindings b hb with hold | ⟨y, hy, -, hplace, hremote⟩
    · have hno := free_of_unbound hl.unbound hold
      exact hor.elim hno.1 hno.2
    · rcases hor with hor | hor
      · have hacc : y.accountId = x.accountId := (Prod.ext_iff.1 (hplace.symm.trans hor)).1
        have := hl.first y hy.mem hacc
        rw [hy.unbound] at this
        cases this
      · exact hx y hy.mem (Prod.ext_iff.1 (hremote.symm.trans hor)).2

/-- An identity that does not come first is passed over. -/
theorem After.skip (h : After d instanceID s considered p) (hl : ¬s.Leads instanceID considered x) :
    After d instanceID s (considered ++ [x]) { p with skipped := p.skipped + 1 } := by
  have hled : ∀ y, s.Led instanceID (considered ++ [x]) y ↔ s.Led instanceID considered y := fun y =>
    led_snoc.trans (or_iff_left fun hy => hl hy.2)
  refine ⟨?_, h.others, h.keeps, ?_, ?_, ?_, ?_, ?_⟩
  · have := h.counts
    rw [List.length_append, List.length_singleton]
    show p.created + (p.skipped + 1) = _
    omega
  · simpa only [hled] using h.bindings
  · simpa only [hled] using h.adopted
  · simpa only [hled] using h.identities
  · simpa only [hled] using h.remoteUsers
  · exact fun u hu => (h.ids u hu).imp_right fun ⟨y, hy, he⟩ => ⟨y, List.mem_append_left _ hy, he⟩

/-- An identity that comes first is adopted. -/
theorem After.adopt (h : After d instanceID s considered p) (hl : s.Leads instanceID considered x)
    (ha : Adopts d instanceID x p.store p'.store) (hcreated : p'.created = p.created + 1)
    (hskipped : p'.skipped = p.skipped) : After d instanceID s (considered ++ [x]) p' := by
  have hled : s.Led instanceID (considered ++ [x]) x := led_snoc.2 (Or.inr ⟨rfl, hl⟩)
  have hmono : ∀ y, s.Led instanceID considered y → s.Led instanceID (considered ++ [x]) y :=
    fun y hy => hy.append _
  obtain ⟨b, hb, hbid, hplace, hremote⟩ := ha.binding
  refine ⟨?_, ⟨ha.others.1.trans h.others.1, ha.others.2.trans h.others.2⟩, ?_, ?_, ?_, ?_, ?_, ?_⟩
  · have := h.counts
    rw [List.length_append, List.length_singleton, hcreated, hskipped]
    omega
  · rw [hb]
    exact fun c hc => List.mem_append_left _ (h.keeps hc)
  · intro c hc
    rw [hb, List.mem_append, List.mem_singleton] at hc
    rcases hc with hc | rfl
    · exact (h.bindings c hc).imp_right fun ⟨y, hy, hrest⟩ => ⟨y, hmono y hy, hrest⟩
    · exact Or.inr ⟨x, hled, hbid, hplace, hremote⟩
  · intro y hy
    rw [hb]
    rcases led_snoc.1 hy with hy | ⟨rfl, -⟩
    · obtain ⟨c, hc, hrest⟩ := h.adopted y hy
      exact ⟨c, List.mem_append_left _ hc, hrest⟩
    · exact ⟨b, List.mem_append_right _ (List.mem_singleton_self b), hplace, hremote⟩
  · exact fun y hy => (ha.identities y (hy x hled)).trans
      (h.identities y fun z hz => hy z (hmono z hz))
  · exact fun u hu => (ha.remoteUsers u (hu x hled)).trans
      (h.remoteUsers u fun z hz => hu z (hmono z hz))
  · intro u hu
    rcases ha.ids u hu with hx | ⟨v, hv, hvu⟩
    · exact Or.inr ⟨x, List.mem_append_right _ (List.mem_singleton_self x), hx⟩
    · rw [← hvu]
      exact (h.ids v hv).imp_right fun ⟨y, hy, he⟩ => ⟨y, List.mem_append_left _ hy, he⟩

theorem WellFormed.distinct (hs : WellFormed s) {after : List LegacyIdentity}
    (he : s.legacy = before ++ x :: after) : ∀ y ∈ before, y.subject ≠ x.subject := by
  have hnodup : ((before ++ x :: after).map LegacyIdentity.subject).Nodup :=
    he ▸ (List.filter_sublist.map _).nodup hs.subjects
  rw [List.map_append, List.nodup_append] at hnodup
  exact fun y hy => hnodup.2.2 _ (List.mem_map_of_mem hy) _ (by simp)

theorem legacy_mem {after : List LegacyIdentity} (he : s.legacy = before ++ x :: after) :
    x ∈ s.legacy := by
  rw [he]
  exact List.mem_append_right _ List.mem_cons_self

theorem WellFormed.name (hs : WellFormed s) (hx : x ∈ s.legacy) :
    Fits 255 (x.username.getD x.subject) := by
  have hmem := List.mem_of_mem_filter hx
  cases hu : x.username with
  | none => exact hs.subjectFits x hmem
  | some u => exact hs.usernameFits x hmem u hu

section

variable (hs : WellFormed s) (hd : d.Fresh s) (hlower : ∀ c, lower c = '\x00' → c = '\x00')
  (hi : instanceID ∈ s.instances)

include hs hd hlower hi

/-- A turn goes well if an identity that comes first can be adopted. -/
theorem After.turn {after : List LegacyIdentity} (he : s.legacy = considered ++ x :: after)
    (h : After d instanceID s considered p)
    (hready : s.Leads instanceID considered x → s.Ready x) :
    ∃ p', adoptIdentity lower d instanceID p x = .ok p' ∧
      After d instanceID s (considered ++ [x]) p' := by
  have hx := legacy_mem he
  have hdistinct := hs.distinct he
  have hmem : ∀ y ∈ considered, y ∈ s.legacy := fun y hy => by
    rw [he]
    exact List.mem_append_left _ hy
  by_cases hl : s.Leads instanceID considered x
  · obtain ⟨hactive, hfits⟩ := hready hl
    have hactive' : p.store.Active x.accountId := by
      unfold Store.Active
      rw [h.others.1]
      exact hactive
    have hnew : ∀ b ∈ p.store.bindings, b.id ≠ d.binding x := by
      intro b hb hid
      rcases h.bindings b hb with hold | ⟨y, hy, hyid, -⟩
      · exact hd.binding x hx b hold hid
      · have hyx := hd.binding_inj y (hmem y hy.mem) x hx (hyid.symm.trans hid)
        exact hdistinct y hy.mem (by rw [hyx])
    have hrow : ∀ u ∈ p.store.remoteUsers, u.id ≠ d.remoteUser x := by
      intro u hu hid
      rcases h.ids u hu with ⟨v, hv, hvu⟩ | ⟨y, hy, hyu⟩
      · exact hd.remoteUser x hx v hv (hvu.trans hid)
      · have hyx := hd.remoteUser_inj y (hmem y hy) x hx (hyu.symm.trans hid)
        exact hdistinct y hy (by rw [hyx])
    obtain ⟨p', hp', hadopts, hcreated, hskipped⟩ := adoptIdentity_adopts hlower (hs.ids _ hi)
      ((h.bound_iff hdistinct).2 hl) hactive' hfits (hs.name hx) hnew hrow
    exact ⟨p', hp', h.adopt hl hadopts hcreated hskipped⟩
  · have hbound : p.store.bound instanceID x = true :=
      eq_true_of_ne_false fun hfree => hl ((h.bound_iff hdistinct).1 hfree)
    exact ⟨_, if_pos hbound, h.skip hl⟩

/-- **The identities before one that cannot be adopted** have their turns. -/
theorem run_after {after : List LegacyIdentity} (he : s.legacy = considered ++ after)
    (hc : s.Adoptable instanceID considered) :
    ∃ p, considered.foldlM (adoptIdentity lower d instanceID) { store := s } = .ok p ∧
      After d instanceID s considered p := by
  induction considered using List.reverseRecOn generalizing after with
  | nil => exact ⟨_, rfl, After.nil⟩
  | append_singleton considered x ih =>
    have he' : s.legacy = considered ++ x :: after := by simpa using he
    obtain ⟨p, hp, hafter⟩ := ih he' fun y hy => hc y (hy.append _)
    obtain ⟨p', hp', hafter'⟩ := hafter.turn hs hd hlower hi he' fun hl =>
      hc x (led_snoc.2 (Or.inr ⟨rfl, hl⟩))
    refine ⟨p', ?_, hafter'⟩
    rw [List.foldlM_append, hp]
    show [x].foldlM (adoptIdentity lower d instanceID) p = _
    rw [List.foldlM_cons, hp']
    rfl

end

/-! ## When the call isolates the identities -/

/-- Whoever came first is adopted, and nobody else. -/
theorem After.adopted_iff (hs : WellFormed s) (h : After d instanceID s s.legacy p)
    (hx : x ∈ s.legacy) : Adopted instanceID s p.store x ↔ s.Led instanceID s.legacy x := by
  constructor
  · rintro ⟨hfree, b, hb, hplace, hremote⟩
    rcases h.bindings b hb with hold | ⟨y, hy, -, -, hremote'⟩
    · exact absurd hplace (free_of_unbound hfree hold).1
    · have hsub : y.subject = x.subject := (Prod.ext_iff.1 (hremote'.symm.trans hremote)).2
      obtain rfl := hs.subjects.eq (List.mem_of_mem_filter hy.mem) (List.mem_of_mem_filter hx) hsub
      exact hy
  · exact fun hl => ⟨hl.unbound, h.adopted x hl⟩

theorem After.isolated (hs : WellFormed s) (h : After d instanceID s s.legacy p) :
    Isolated instanceID s (.ok ⟨p.created, p.skipped⟩) p.store := by
  have hiff : ∀ {x}, x ∈ s.legacy → _ := fun {x} hx => h.adopted_iff hs (x := x) hx
  refine ⟨⟨_, rfl, h.counts⟩, ?_, h.keeps, ?_, ?_, ?_, h.others⟩
  · intro before x after he _ hfree hbefore
    refine (hiff (legacy_mem he)).2 ⟨before, after, he, hfree, fun y hy hacc => ?_⟩
    by_contra hb
    obtain ⟨z, hz, hzy⟩ := exists_led hy (eq_false_of_ne_true hb)
    have hz' : s.Led instanceID s.legacy z := by
      rw [he]
      exact hz.append _
    exact hbefore z hz.mem (hzy.trans hacc) ((hiff hz'.mem).2 hz')
  · intro b hb hnew
    obtain ⟨x, hx, -, hplace, hremote⟩ := (h.bindings b hb).resolve_left hnew
    exact ⟨x, hx.mem, (hiff hx.mem).2 hx, hplace, hremote⟩
  · exact fun y hy => h.identities y fun x hx => hy x hx.mem ((hiff hx.mem).2 hx)
  · exact fun u hu => h.remoteUsers u fun x hx => hu x hx.mem ((hiff hx.mem).2 hx)

/-- Bindings stay, and their places stay unique. -/
theorem adoptIdentities_keeps {xs : List LegacyIdentity}
    (h : xs.foldlM (adoptIdentity lower d instanceID) p = .ok p') :
    p.store.bindings ⊆ p'.store.bindings ∧
      (UniqueBy Binding.place p.store.bindings → UniqueBy Binding.place p'.store.bindings) := by
  refine foldlM_rel (R := fun q q' : Progress => q.store.bindings ⊆ q'.store.bindings ∧
      (UniqueBy Binding.place q.store.bindings → UniqueBy Binding.place q'.store.bindings))
    (fun _ => ⟨List.Subset.refl _, id⟩)
    (fun h₁ h₂ => ⟨List.Subset.trans h₁.1 h₂.1, h₂.2 ∘ h₁.2⟩) (fun q x q' hq => ?_) xs h
  cases hb : q.store.bound instanceID x with
  | true =>
    unfold adoptIdentity at hq
    rw [if_pos hb] at hq
    cases hq
    exact ⟨List.Subset.refl _, id⟩
  | false =>
    obtain ⟨-, row, hrow, hclash, -⟩ := adoptIdentity_ok hq hb
    rw [hrow]
    refine ⟨List.subset_append_left _ _, fun hu => hu.snoc fun b hmem he => ?_⟩
    unfold Store.clashes at hclash
    rw [List.any_eq_false] at hclash
    exact hclash b hmem (by simp [he])

/-- In a call that isolates, an identity that comes first can be adopted. -/
theorem ready_of_isolated (hs : WellFormed s) {after : List LegacyIdentity}
    (he : s.legacy = before ++ x :: after) (h : After d instanceID s before p)
    (hl : s.Leads instanceID before x) (hplaces : UniqueBy Binding.place p.store.bindings)
    (hrun : (x :: after).foldlM (adoptIdentity lower d instanceID) p = .ok p')
    (hisolated : Isolated instanceID s (.ok ⟨p'.created, p'.skipped⟩) p'.store) : s.Ready x := by
  have hfree := (h.bound_iff (hs.distinct he)).2 hl
  obtain ⟨p₁, h₁, hrest⟩ := except_bind_ok hrun
  obtain ⟨hactive, row, hrow, -, hvarchar, hplace, -⟩ := adoptIdentity_ok h₁ hfree
  have hactive' : s.Active x.accountId := by
    unfold Store.Active at hactive ⊢
    rwa [h.others.1] at hactive
  obtain ⟨-, b, hb, hplace', hremote⟩ := hisolated.adopts before x after he hactive' hl.unbound
    fun y hy hacc hadopted => by
      have hbound := hl.first y hy hacc
      rw [hadopted.1] at hbound
      cases hbound
  -- the only binding at the place is what the column has kept of the subject
  have hmem : row ∈ p'.store.bindings := (adoptIdentities_keeps hrest).1 (by rw [hrow]; simp)
  obtain rfl := ((adoptIdentities_keeps hrun).2 hplaces).eq hmem hb (hplace.trans hplace'.symm)
  have hsubject : row.remoteUserId = x.subject := (Prod.ext_iff.1 hremote).2
  rw [hsubject] at hvarchar
  exact ⟨hactive', Fits.of_varchar hvarchar⟩

/-- If the call isolates, the identities of every part of the list that come first can be adopted. -/
theorem adoptable_of_isolated (hs : WellFormed s) (hd : d.Fresh s)
    (hlower : ∀ c, lower c = '\x00' → c = '\x00') (hi : instanceID ∈ s.instances)
    (hrun : s.legacy.foldlM (adoptIdentity lower d instanceID) { store := s } = .ok p')
    (hisolated : Isolated instanceID s (.ok ⟨p'.created, p'.skipped⟩) p'.store)
    {after : List LegacyIdentity} (he : s.legacy = considered ++ after) :
    s.Adoptable instanceID considered := by
  induction considered using List.reverseRecOn generalizing after with
  | nil => exact fun x hx => absurd hx.mem List.not_mem_nil
  | append_singleton considered x ih =>
    have he' : s.legacy = considered ++ x :: after := by simpa using he
    have hc := ih he'
    intro y hy
    rcases led_snoc.1 hy with hy | ⟨rfl, hl⟩
    · exact hc y hy
    · obtain ⟨p, hp, h⟩ := run_after hs hd hlower hi he' hc
      rw [he', List.foldlM_append, hp] at hrun
      exact ready_of_isolated hs he' h hl ((adoptIdentities_keeps hp).2 hs.places) hrun hisolated

/-- **When no identity stands in the way of the others**: the first identity of each account that is
not bound on the instance belongs to an active account and names a remote user of at most 128
characters. -/
theorem isolated_iff (hs : WellFormed s) (hd : d.Fresh s)
    (hlower : ∀ c, lower c = '\x00' → c = '\x00') (hi : instanceID ∈ s.instances) :
    Isolated instanceID s (adoptLegacyIdentities lower d instanceID s).1
        (adoptLegacyIdentities lower d instanceID s).2 ↔
      s.Adoptable instanceID s.legacy := by
  have hcall : adoptIdentities lower d instanceID s =
      s.legacy.foldlM (adoptIdentity lower d instanceID) { store := s } := if_pos hi
  unfold adoptLegacyIdentities
  rw [hcall]
  constructor
  · intro h
    cases hrun : s.legacy.foldlM (adoptIdentity lower d instanceID) { store := s } with
    | error e =>
      rw [hrun] at h
      obtain ⟨c, hc, -⟩ := h.completes
      cases hc
    | ok p =>
      rw [hrun] at h
      exact adoptable_of_isolated hs hd hlower hi hrun h (List.append_nil _).symm
  · intro hc
    obtain ⟨p, hp, h⟩ := run_after hs hd hlower hi (List.append_nil _).symm hc
    rw [hp]
    exact h.isolated hs

/-! ## Two identities -/

/-- The identities of a suspended and of an active account. -/
def twoIdentities : Store where
  instances := [idOf '1']
  accounts := [⟨idOf 'a', .suspended⟩, ⟨idOf 'b', .active⟩]
  identities := [⟨idOf 'a', "7", none, false⟩, ⟨idOf 'b', "8", none, false⟩]
  bindings := []
  remoteUsers := []

/-- The same, after the first account has become active. -/
def bothActive : Store :=
  { twoIdentities with accounts := [⟨idOf 'a', .active⟩, ⟨idOf 'b', .active⟩] }

/-- The ids of the new rows. -/
def draw : Draw where
  binding x := if x.subject = "7" then idOf '2' else idOf '3'
  remoteUser x := if x.subject = "7" then idOf '4' else idOf '5'

theorem suspended_stops_all : ¬Isolated (idOf '1') twoIdentities
    (adoptLegacyIdentities id draw (idOf '1') twoIdentities).1
    (adoptLegacyIdentities id draw (idOf '1') twoIdentities).2 := by
  intro h
  obtain ⟨c, hc, -⟩ := h.completes
  have herror : (adoptLegacyIdentities id draw (idOf '1') twoIdentities).1 = .error .forbidden := rfl
  rw [herror] at hc
  cases hc

theorem isolated_iff_bothActive : WellFormed bothActive ∧ draw.Fresh bothActive ∧
    Isolated (idOf '1') bothActive (adoptLegacyIdentities id draw (idOf '1') bothActive).1
      (adoptLegacyIdentities id draw (idOf '1') bothActive).2 := by
  have hs : WellFormed bothActive := by
    refine ⟨by unfold UniqueBy; decide, List.nodup_nil, ?_, ?_, ?_⟩
    · intro x hx
      rcases List.mem_pair.1 hx with rfl | rfl <;> exact ⟨by decide, by decide⟩
    · intro x hx u hu
      rcases List.mem_pair.1 hx with rfl | rfl <;> cases hu
    · intro i hi
      obtain rfl := List.mem_singleton.1 hi
      decide
  have hlegacy : bothActive.legacy = [⟨idOf 'a', "7", none, false⟩, ⟨idOf 'b', "8", none, false⟩] := rfl
  have hd : draw.Fresh bothActive := by
    refine ⟨fun _ _ _ h => absurd h List.not_mem_nil, ?_, fun _ _ _ h => absurd h List.not_mem_nil, ?_⟩
    · rw [hlegacy]
      decide
    · rw [hlegacy]
      decide
  refine ⟨hs, hd, (isolated_iff hs hd (fun _ => id) List.mem_cons_self).2 fun x hx => ?_⟩
  have hmem := hx.mem
  rw [hlegacy] at hmem
  rcases List.mem_pair.1 hmem with rfl | rfl
  · exact ⟨⟨_, rfl, rfl⟩, by decide, by decide⟩
  · exact ⟨⟨_, rfl, rfl⟩, by decide, by decide⟩

end Sakura.Adoption
