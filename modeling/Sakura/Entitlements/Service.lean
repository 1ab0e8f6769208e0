/-
  Grants of entitlements (platform/access_lines.go).

  A call is one transaction; it returns the entitlement it is about, or an error that rolls it back.

  * `Grants`: the tables that a call reads and writes;
  * `bindingFor`, `upsertEntitlement`, `enqueueEntitlementSyncTx`: the parts of a transaction;
  * `redeemEntitlementCode`, `grantEntitlement`, `revokeEntitlement`: the transactions;
  * `enqueue_ok`, `upsert_ok`: what the parts leave.
-/
import Sakura.Entitlements.Import
import Sakura.Queue.Keys

namespace Sakura.Entitlements

open Txn Queue

/-! ## Transactions -/

structure Grants extends Tables where
  tasks : List Task := []

/-- What a call draws: the ids of a new row and of a task, `NOW()` and `time.Now()`. -/
structure Draw where
  id : UUID
  taskID : UUID
  now : Time
  clock : Time

/-- `ORDER BY is_primary DESC,created_at LIMIT 1`; the bindings are in the order of their creation. -/
def bindingFor (accountID : UUID) (instanceID : Option UUID) (bindings : List Binding) :
    Option Binding :=
  let candidates := bindings.filter fun b =>
    b.accountId = accountID && instanceID.all (b.instanceId = ·) && b.status ≠ .deleted
  (candidates.find? (·.isPrimary)).or candidates.head?

/-- `INSERT … ON CONFLICT(account_id,instance_id,resource_kind,resource_key) DO UPDATE … RETURNING id` -/
def upsertEntitlement (row : AccountEntitlement) (set : AccountEntitlement → AccountEntitlement)
    (entitlements : List AccountEntitlement) : Except Err (UUID × List AccountEntitlement) :=
  match row.slot.bind fun slot => entitlements.find? (·.slot = some slot) with
  | some e => .ok (e.id, put AccountEntitlement.id entitlements (set e))
  | none =>
    if entitlements.any (·.id = row.id) then .error .database
    else .ok (row.id, entitlements ++ [row])

/-- A task of the same key takes the place of the new one. -/
def enqueueEntitlementSyncTx (d : Draw) (bindingID : UUID) (key : String) (t : Grants) :
    Except Err Grants :=
  match t.bindings.find? (·.id = bindingID) with
  | none => .error .database
  | some b =>
    let key := "entitlement-sync:" ++ key
    if t.tasks.any (·.idempotencyKey = key) then .ok t
    else (insertTask d.taskID .entitlementSync key
      { instanceId := some b.instanceId, bindingId := some bindingID } d.now t.tasks).map
        fun tasks => { t with tasks }

/-- `GREATEST(account_entitlements.expires_at,NOW())+…` -/
def AccountEntitlement.renew (now : Time) (days : Int) (e : AccountEntitlement) :
    AccountEntitlement :=
  { e with status := .active, expiresAt := max e.expiresAt now + days * dayNanos }

section

variable (sha256 : Bytes → Bytes) (casing : Casing)

/-- The entitlement that a code stands for, for an account with this binding. -/
def redeemedRow (d : Draw) (accountID : UUID) (c : EntitlementCode) (b : Option Binding) :
    AccountEntitlement where
  id := d.id
  accountId := accountID
  instanceId := c.instanceId.or (b.map (·.instanceId))
  bindingId := b.map (·.id)
  resourceKind := c.resourceKind
  resourceKey := c.resourceKey
  sourceCodeId := some c.id
  startsAt := d.now
  expiresAt := d.now + c.durationDays.toInt * dayNanos

/-- The entitlement that it makes of the one there is. -/
def AccountEntitlement.redeem (d : Draw) (c : EntitlementCode) (b : Option Binding)
    (e : AccountEntitlement) : AccountEntitlement :=
  { e.renew d.now c.durationDays.toInt with
    bindingId := (b.map (·.id)).or e.bindingId, sourceCodeId := some c.id }

def redeemEntitlementCode (d : Draw) (accountID : UUID) (code : String) (t : Grants) :
    Except Err (UUID × Grants) := do
  let c ← (lookup sha256 casing code t.toTables).elim (.error .notFound) .ok
  if c.status ≠ .available then .error .conflict
  else do
    let b := bindingFor accountID c.instanceId t.bindings
    let r ← upsertEntitlement (redeemedRow d accountID c b) (·.redeem d c b) t.entitlements
    let t := { t with
      entitlements := r.2
      codes := put EntitlementCode.id t.codes
        { c with status := .redeemed, reservedBy := some accountID } }
    match b with
    | none => pure (r.1, t)
    | some b => do
      let t ← enqueueEntitlementSyncTx d b.id ("redeem:" ++ c.id.text) t
      pure (r.1, t)

end

/-- The keys of the tasks of a grant and of a revocation. -/
def grantKey (id : UUID) (clock : Time) : String := "grant:" ++ id.text ++ ":" ++ toString clock

def revokeKey (id : UUID) : String := "revoke:" ++ id.text

structure GrantRequest where
  accountID : UUID
  instanceID : Option UUID
  resourceKind : String
  resourceKey : String
  durationDays : Int

def GrantRequest.invalid (g : GrantRequest) : Bool :=
  normalize g.resourceKind ≠ "emby_library" || trimSpace g.resourceKey = "" ||
    g.durationDays < 1 || 3650 < g.durationDays

def grantedRow (d : Draw) (g : GrantRequest) (b : Binding) (resourceKey : String) :
    AccountEntitlement where
  id := d.id
  accountId := g.accountID
  instanceId := some b.instanceId
  bindingId := some b.id
  resourceKey := resourceKey
  sourceCodeId := none
  startsAt := d.now
  expiresAt := d.now + g.durationDays * dayNanos

def AccountEntitlement.grant (d : Draw) (g : GrantRequest) (b : Binding) (e : AccountEntitlement) :
    AccountEntitlement :=
  { e.renew d.now g.durationDays with bindingId := some b.id }

def grantEntitlement (d : Draw) (g : GrantRequest) (t : Grants) : Except Err (UUID × Grants) :=
  if g.invalid then .error .invalid
  else do
    let b ← (bindingFor g.accountID g.instanceID t.bindings).elim (.error .notFound) .ok
    let resourceKey ← varchar 160 (trimSpace g.resourceKey)
    let r ← upsertEntitlement (grantedRow d g b resourceKey) (·.grant d g b) t.entitlements
    let t ← enqueueEntitlementSyncTx d b.id (grantKey r.1 d.clock)
      { t with entitlements := r.2 }
    pure (r.1, t)

def AccountEntitlement.revoke (e : AccountEntitlement) : AccountEntitlement :=
  { e with status := .revoked }

/-- A reason with a NUL is no parameter of a statement. -/
def revokeEntitlement (d : Draw) (id : UUID) (reason : String) (t : Grants) :
    Except Err (UUID × Grants) :=
  if trimSpace reason = "" || 500 < (trimSpace reason).utf8ByteSize then .error .invalid
  else if '\x00' ∈ (trimSpace reason).toList then .error .database
  else match t.entitlements.find? fun e => e.id = id && e.status ≠ .revoked with
  | none => .error .notFound
  | some e => do
    let t := { t with
      entitlements := put AccountEntitlement.id t.entitlements e.revoke }
    match e.bindingId with
    | none => pure (id, t)
    | some bindingID => do
      let t ← enqueueEntitlementSyncTx d bindingID (revokeKey id) t
      pure (id, t)

/-! ## Parts -/

/-- The binding has a task to sync it that no worker has claimed. -/
def Unclaimed (tasks : List Task) (bindingID : UUID) : Prop :=
  ∃ t ∈ tasks, t.type = .entitlementSync ∧ t.payload.bindingId = some bindingID ∧
    t.status = .pending


section
variable {d : Draw} {bindingID : UUID} {key : String} {t t' : Grants}

/-- What an enqueued task leaves: the tables with the task, or as they were if its key is used. -/
theorem enqueue_ok (h : enqueueEntitlementSyncTx d bindingID key t = .ok t') :
    (Used t.tasks ("entitlement-sync:" ++ key) ∧ t' = t) ∨
      (¬Used t.tasks ("entitlement-sync:" ++ key) ∧ ∃ x : Task,
        t' = { t with tasks := t.tasks ++ [x] } ∧ (∀ y ∈ t.tasks, y.id ≠ x.id) ∧
        x.idempotencyKey = "entitlement-sync:" ++ key ∧ x.type = .entitlementSync ∧
        x.payload.bindingId = some bindingID ∧ x.status = .pending) := by
  unfold enqueueEntitlementSyncTx at h
  split at h
  · cases h
  next b hb =>
  dsimp only at h
  split at h
  · next hused =>
    obtain ⟨x, hx, hk⟩ := List.any_eq_true.1 hused
    cases h
    exact .inl ⟨⟨x, hx, of_decide_eq_true hk⟩, rfl⟩
  · next hunused =>
    refine .inr ⟨fun ⟨x, hx, hk⟩ => hunused (List.any_eq_true.2 ⟨x, hx, decide_eq_true hk⟩), ?_⟩
    cases hins : insertTask d.taskID .entitlementSync ("entitlement-sync:" ++ key)
        { instanceId := some b.instanceId, bindingId := some bindingID } d.now t.tasks with
    | error e => rw [hins] at h; cases h
    | ok tasks =>
      rw [hins] at h
      have h := Except.ok.inj h
      unfold insertTask at hins
      split at hins
      · cases hins
      · next hfree =>
        have hins := Except.ok.inj hins
        refine ⟨_, (h.symm.trans (by rw [← hins])), fun y hy hid => hfree ?_, rfl, rfl, rfl, rfl⟩
        exact List.any_eq_true.2 ⟨y, hy, by simp [hid]⟩

/-- **The sync of a binding** has a task after the call if the key is new, or if it had one before. -/
theorem enqueue_unclaimed (h : enqueueEntitlementSyncTx d bindingID key t = .ok t') :
    Unclaimed t'.tasks bindingID ↔
      ¬Used t.tasks ("entitlement-sync:" ++ key) ∨ Unclaimed t.tasks bindingID := by
  rcases enqueue_ok h with ⟨hused, rfl⟩ | ⟨hunused, x, rfl, -, -, htype, hbinding, hstatus⟩
  · exact (or_iff_right fun hn => hn hused).symm
  · refine iff_of_true ⟨x, List.mem_append_right _ (List.mem_singleton.2 rfl), htype, hbinding,
      hstatus⟩ (.inl hunused)

end

section
variable {row e : AccountEntitlement} {set : AccountEntitlement → AccountEntitlement}
  {es es' : List AccountEntitlement} {id : UUID}

/-- What an upsert leaves: a new row, or a row with new values. -/
theorem upsert_ok (h : upsertEntitlement row set es = .ok (id, es')) :
    (∃ e ∈ es, e.id = id ∧ es' = put AccountEntitlement.id es (set e)) ∨
      ((∀ e ∈ es, e.id ≠ id) ∧ id = row.id ∧ es' = es ++ [row]) := by
  unfold upsertEntitlement at h
  split at h
  · next e he =>
    obtain ⟨slot, -, he⟩ := Option.bind_eq_some_iff.1 he
    have h := Except.ok.inj h
    exact .inl ⟨e, List.mem_of_find?_eq_some he, congrArg Prod.fst h, (congrArg Prod.snd h).symm⟩
  · split at h
    · cases h
    · next hfree =>
      have h := Except.ok.inj h
      have hid : row.id = id := congrArg Prod.fst h
      refine .inr ⟨fun e he heq => hfree ?_, hid.symm, (congrArg Prod.snd h).symm⟩
      exact List.any_eq_true.2 ⟨e, he, by simp [heq, hid]⟩

theorem upsert_unique (hu : UniqueBy AccountEntitlement.id es)
    (h : upsertEntitlement row set es = .ok (id, es')) : UniqueBy AccountEntitlement.id es' := by
  rcases upsert_ok h with ⟨e, -, -, rfl⟩ | ⟨hfree, hid, rfl⟩
  · exact hu.put fun _ _ e => e
  · exact hu.snoc fun x hx => hid ▸ hfree x hx

/-- The row of an upsert, with what every value of it has; the other rows are as they were. -/
theorem upsert_row (h : upsertEntitlement row set es = .ok (id, es'))
    (hset : ∀ e ∈ es, (set e).id = e.id) {p : AccountEntitlement → Prop} (hrow : p row)
    (hp : ∀ e ∈ es, p (set e)) :
    (∃ x ∈ es', x.id = id ∧ p x) ∧
      es'.filter (·.id ≠ id) = es.filter (·.id ≠ id) := by
  rcases upsert_ok h with ⟨e, he, hid, rfl⟩ | ⟨hfree, hid, rfl⟩
  · have hx : (set e).id = id := (hset e he).trans hid
    refine ⟨⟨set e, mem_put.2 (.inr rfl), hx, hp e he⟩, ?_⟩
    exact filter_put_ne hx
  · refine ⟨⟨row, List.mem_append_right _ (List.mem_singleton.2 rfl), hid.symm, hrow⟩, ?_⟩
    rw [List.filter_append, List.filter_cons_of_neg (by simp [hid]), List.filter_nil,
      List.append_nil]

end

/-! ## Whole transactions -/

section
variable {sha256 : Bytes → Bytes} {casing : Casing} {d : Draw} {t t' : Grants} {id : UUID}

/-- An enqueued task changes the tasks alone. -/
theorem enqueue_tables {bindingID : UUID} {key : String}
    (h : enqueueEntitlementSyncTx d bindingID key t = .ok t') : t'.toTables = t.toTables := by
  rcases enqueue_ok h with ⟨-, rfl⟩ | ⟨-, x, rfl, -⟩
  · rfl
  · rfl

theorem redeem_ok {accountID : UUID} {code : String}
    (h : redeemEntitlementCode sha256 casing d accountID code t = .ok (id, t')) :
    ∃ c, lookup sha256 casing code t.toTables = some c ∧ c ∈ t.codes ∧ c.status = .available ∧
      ∃ b, b = bindingFor accountID c.instanceId t.bindings ∧
      upsertEntitlement (redeemedRow d accountID c b) (·.redeem d c b) t.entitlements =
        .ok (id, t'.entitlements) ∧
      t'.codes = put EntitlementCode.id t.codes
        { c with status := .redeemed, reservedBy := some accountID } := by
  unfold redeemEntitlementCode at h
  obtain ⟨c, hc, h⟩ := except_bind_ok h
  have hlookup : lookup sha256 casing code t.toTables = some c := by
    cases hl : lookup sha256 casing code t.toTables with
    | none => rw [hl] at hc; cases hc
    | some c' => rw [hl] at hc; exact congrArg some (Except.ok.inj hc)
  have hmem : c ∈ t.codes := List.mem_of_find?_eq_some hlookup
  split at h
  · cases h
  next hstatus =>
  dsimp only at h
  refine ⟨c, hlookup, hmem, not_not.1 hstatus, _, rfl, ?_⟩
  generalize bindingFor accountID c.instanceId t.bindings = b at h ⊢
  obtain ⟨r, hr, h⟩ := except_bind_ok h
  cases b with
  | none =>
    cases h
    exact ⟨hr, rfl⟩
  | some b =>
    obtain ⟨t₁, ht₁, h⟩ := except_bind_ok h
    have htables := enqueue_tables ht₁
    cases h
    exact ⟨by rw [htables]; exact hr, by rw [htables]⟩

/-- A valid request asks for at least one day. -/
theorem GrantRequest.days_of_valid {g : GrantRequest} (h : g.invalid = false) :
    1 ≤ g.durationDays := by
  have hnot : ¬g.invalid = true := by rw [h]; nofun
  simp only [GrantRequest.invalid, Bool.or_eq_true, decide_eq_true_eq, not_or] at hnot
  omega

theorem grant_ok {g : GrantRequest} (h : grantEntitlement d g t = .ok (id, t')) :
    g.invalid = false ∧ ∃ b, bindingFor g.accountID g.instanceID t.bindings = some b ∧
      ∃ resourceKey es, varchar 160 (trimSpace g.resourceKey) = .ok resourceKey ∧
        upsertEntitlement (grantedRow d g b resourceKey) (·.grant d g b) t.entitlements =
          .ok (id, es) ∧
        enqueueEntitlementSyncTx d b.id (grantKey id d.clock) { t with entitlements := es } =
          .ok t' := by
  unfold grantEntitlement at h
  split at h
  · cases h
  next hvalid =>
  obtain ⟨b, hb, h⟩ := except_bind_ok h
  obtain ⟨resourceKey, hkey, h⟩ := except_bind_ok h
  obtain ⟨r, hr, h⟩ := except_bind_ok h
  obtain ⟨t₁, ht₁, h⟩ := except_bind_ok h
  have hbinding : bindingFor g.accountID g.instanceID t.bindings = some b := by
    cases hf : bindingFor g.accountID g.instanceID t.bindings with
    | none => rw [hf] at hb; cases hb
    | some b' => rw [hf] at hb; cases hb; rfl
  cases h
  exact ⟨eq_false_of_ne_true hvalid, b, hbinding, resourceKey, r.2, hkey, hr, ht₁⟩

/-- The reason is one that a statement accepts. -/
def acceptedReason (reason : String) : Prop :=
  trimSpace reason ≠ "" ∧ (trimSpace reason).utf8ByteSize ≤ 500 ∧ '\x00' ∉ (trimSpace reason).toList

theorem revoke_ok {id' : UUID} {reason : String}
    (h : revokeEntitlement d id reason t = .ok (id', t')) :
    id' = id ∧ acceptedReason reason ∧
      ∃ e, (t.entitlements.find? fun e => e.id = id && e.status ≠ .revoked) = some e ∧
      ∃ t₁ : Grants,
      t₁ = { t with entitlements := put AccountEntitlement.id t.entitlements e.revoke } ∧
      ((e.bindingId = none ∧ t' = t₁) ∨ ∃ bindingID, e.bindingId = some bindingID ∧
        enqueueEntitlementSyncTx d bindingID (revokeKey id) t₁ = .ok t') := by
  unfold revokeEntitlement at h
  split at h
  · cases h
  next hvalid =>
  split at h
  · cases h
  next hnul =>
  have hreason : acceptedReason reason := by
    simp only [Bool.or_eq_true, decide_eq_true_eq, not_or, not_lt] at hvalid
    exact ⟨hvalid.1, hvalid.2, hnul⟩
  split at h
  · cases h
  next e he =>
  dsimp only at h
  cases hb : e.bindingId with
  | none =>
    rw [hb] at h
    cases h
    exact ⟨rfl, hreason, e, he, _, rfl, .inl ⟨hb, rfl⟩⟩
  | some bindingID =>
    rw [hb] at h
    obtain ⟨t₁, ht₁, h⟩ := except_bind_ok h
    cases h
    exact ⟨rfl, hreason, e, he, _, rfl, .inr ⟨bindingID, hb, ht₁⟩⟩

end

end Sakura.Entitlements
