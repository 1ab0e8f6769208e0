/-
  Calls that read back what they changed (platform/access_lines.go, platform/reviews_favorites.go).

  A call commits its transaction and then looks for the row on the first page of a listing.

  * `Database`, `Call`, `Call.commit`: the tables and the transactions;
  * `Pages`, `Call.reload`, `Returns`: the listings, and what a call returns;
  * `Honest`: an error means that nothing happened;
  * `Call.Listed`: few other rows come before the row of a call;
  * `honest_iff`: the calls that are honest.
-/
import Sakura.Entitlements.Service
import Sakura.Favorites.Runs
import Sakura.Txn.Page

namespace Sakura.Reload

open Txn Queue Entitlements
open Favorites (EmbyFavorite FavoriteRequest)

/-! ## Calls -/

/-- With `updated_at` of the favorites. -/
structure Database extends Favorites.State where
  codes : List EntitlementCode := []
  entitlements : List AccountEntitlement := []
  updatedAt : UUID → Time := fun _ => 0

def Database.grants (s : Database) : Grants where
  bindings := s.db.bindings
  codes := s.codes
  entitlements := s.entitlements
  tasks := s.db.tasks

def Database.withGrants (s : Database) (t : Grants) : Database :=
  { s with db := { s.db with tasks := t.tasks }, codes := t.codes, entitlements := t.entitlements }

/-- The favorite of the last request, `RETURNING id`. -/
def lastAsked (t : Favorites.State) : Option UUID := t.asked.getLast?.map Prod.fst

def Database.withFavorite (s : Database) (now : Time) (id : UUID) (t : Favorites.State) :
    Database :=
  { s with
    toState := t, updatedAt := fun i => if i = id then now else s.updatedAt i }

inductive Call where
  | redeem (accountID : UUID) (code : String)
  | grant (request : GrantRequest)
  | revoke (id : UUID) (reason : String)
  | favorite (request : FavoriteRequest)

inductive Object where
  | entitlement (e : AccountEntitlement)
  | favorite (f : EmbyFavorite)

section

variable (sha256 : Bytes → Bytes) (casing : Casing) (d : Draw)

/-- The transaction of a call, with the id of its row. -/
def Call.commit (s : Database) : Call → Except Err (UUID × Database)
  | .redeem accountID code =>
    (redeemEntitlementCode sha256 casing d accountID code s.grants).map
      fun r => (r.1, s.withGrants r.2)
  | .grant g => (grantEntitlement d g s.grants).map fun r => (r.1, s.withGrants r.2)
  | .revoke id reason =>
    (revokeEntitlement d id reason s.grants).map fun r => (r.1, s.withGrants r.2)
  | .favorite r =>
    (Favorites.setFavorite d.id d.taskID d.clock r s.toState).map fun t =>
      let id := (lastAsked t).getD d.id
      (id, s.withFavorite d.now id t)

end

/-! ## Listings -/

/-- `ORDER BY expires_at DESC` -/
def later (e f : AccountEntitlement) : Prop := f.expiresAt ≤ e.expiresAt

instance : DecidableRel later := fun e f => inferInstanceAs (Decidable (f.expiresAt ≤ e.expiresAt))

/-- `ORDER BY f.desired_favorite DESC,f.updated_at DESC` -/
def recent (updatedAt : UUID → Time) (f g : EmbyFavorite) : Prop :=
  (g.desiredFavorite → f.desiredFavorite) ∧
    (f.desiredFavorite = g.desiredFavorite → updatedAt g.id ≤ updatedAt f.id)

instance (updatedAt : UUID → Time) : DecidableRel (recent updatedAt) :=
  fun f g => inferInstanceAs (Decidable (_ ∧ _))

/-- What the statements of the listings return: rows that tie come in any order. -/
structure Pages (s : Database) where
  entitlements : List AccountEntitlement
  favorites : UUID → List EmbyFavorite
  byExpiry : Listing later s.entitlements entitlements
  byUpdate : ∀ accountID,
    Listing (recent s.updatedAt) (s.favorites.filter (·.accountId = accountID))
      (favorites accountID)

/-- The row of an id among the first 500. -/
def getRow {ρ : Type} (key : ρ → UUID) (id : UUID) (listing : List ρ) : Except Err ρ :=
  ((listing.take 500).find? (key · = id)).elim (.error .notFound) .ok

/-- `GetAccountEntitlement` and `GetFavorite` -/
def Call.reload {s : Database} (id : UUID) (pages : Pages s) : Call → Except Err Object
  | .favorite r => (getRow EmbyFavorite.id id (pages.favorites r.accountID)).map .favorite
  | _ => (getRow AccountEntitlement.id id pages.entitlements).map .entitlement

/-- What a call returns, and the database that it leaves. -/
inductive Returns (sha256 : Bytes → Bytes) (casing : Casing) (d : Draw) (c : Call) (s : Database) :
    Except Err Object → Database → Prop where
  | refused {e : Err} (h : c.commit sha256 casing d s = .error e) :
    Returns sha256 casing d c s (.error e) s
  | committed {id : UUID} {s' : Database} (h : c.commit sha256 casing d s = .ok (id, s'))
    (pages : Pages s') : Returns sha256 casing d c s (c.reload id pages) s'

/-- The object is the one that a call has changed. -/
def Call.Changed (s s' : Database) : Call → Object → Prop
  | .favorite r, .favorite f =>
    f ∈ s'.favorites ∧ f.key = (r.trimmed.bindingID, r.trimmed.remoteItemID)
  | .favorite _, .entitlement _ => False
  | _, .entitlement e => e ∈ s'.entitlements ∧ e ∉ s.entitlements
  | _, .favorite _ => False

/-- An error means that nothing happened, and a change that its object is returned. -/
structure Honest (c : Call) (s : Database) (result : Except Err Object) (s' : Database) : Prop where
  error : ∀ e, result = .error e → s' = s
  changed : s' ≠ s → ∃ x, result = .ok x ∧ c.Changed s s' x

/-! ## Few other rows -/

/-- The entitlement that an account has for the resource of a row. -/
def held (row : AccountEntitlement) (entitlements : List AccountEntitlement) :
    Option AccountEntitlement :=
  row.slot.bind fun slot => entitlements.find? (·.slot = some slot)

/-- When an entitlement expires that is granted for some days more. -/
def renewal (d : Draw) (days : Int) (e : Option AccountEntitlement) : Time :=
  (e.elim d.now fun e => max e.expiresAt d.now) + days * dayNanos

/-- The other entitlements that do not expire before a time. -/
def outlasting (e : Option AccountEntitlement) (time : Time)
    (entitlements : List AccountEntitlement) :
    List AccountEntitlement :=
  entitlements.filter fun y => e.map (·.id) ≠ some y.id ∧ time ≤ y.expiresAt

/-- The other favorites of an account that come before one that is asked for now, or tie with it. -/
def preferred (now : Time) (r : FavoriteRequest) (s : Database) : List EmbyFavorite :=
  s.favorites.filter fun f => f.accountId = r.accountID ∧ f.key ≠ (r.bindingID, r.remoteItemID) ∧
    (r.favorite → f.desiredFavorite) ∧ (f.desiredFavorite = r.favorite → now ≤ s.updatedAt f.id)

/-- A valid request whose texts the columns accept. -/
def acceptedFavorite (r : FavoriteRequest) : Prop :=
  r.invalid = false ∧ '\x00' ∉ r.remoteItemID.toList ∧ '\x00' ∉ r.title.toList ∧
    ∃ mediaType, Favorites.nullable 40 r.mediaType = .ok mediaType

/-- A call that is not refused finds its row: fewer than 500 other rows come before it or tie with
it,
and a favorite that is there belongs to the account. -/
def Call.Listed (sha256 : Bytes → Bytes) (casing : Casing) (d : Draw) (s : Database) : Call → Prop
  | .redeem accountID code =>
    ∀ c, lookup sha256 casing code s.grants.toTables = some c → c.status = .available →
      let e := held (redeemedRow d accountID c (bindingFor accountID c.instanceId s.db.bindings))
        s.entitlements
      (outlasting e (renewal d c.durationDays.toInt e) s.entitlements).length < 500
  | .grant g =>
    g.invalid = false → ∀ b, bindingFor g.accountID g.instanceID s.db.bindings = some b →
      ∀ resourceKey, varchar 160 (trimSpace g.resourceKey) = .ok resourceKey →
      let e := held (grantedRow d g b resourceKey) s.entitlements
      (outlasting e (renewal d g.durationDays e) s.entitlements).length < 500
  | .revoke id reason =>
    acceptedReason reason → ∀ e ∈ s.entitlements, e.id = id → e.status ≠ .revoked →
      (outlasting (some e) e.expiresAt s.entitlements).length < 500
  | .favorite r =>
    acceptedFavorite r.trimmed →
      (∃ b, Favorites.bindingOf s.db r.accountID r.bindingID = .ok b) →
      ¬Used s.db.tasks (Favorites.favoriteKey r.trimmed d.clock) →
      (∀ f ∈ s.favorites, f.key = (r.bindingID, r.trimmed.remoteItemID) → f.accountId =
        r.accountID) ∧
        (preferred d.now r.trimmed s).length < 500

/-- What the constraints of the tables say of the rows. -/
structure WellFormed (s : Database) : Prop where
  entitlementIds : UniqueBy AccountEntitlement.id s.entitlements
  favoriteIds : UniqueBy EmbyFavorite.id s.favorites
  favoriteKeys : UniqueBy EmbyFavorite.key s.favorites
  days : ∀ c ∈ s.codes, 1 ≤ c.durationDays.toInt
  bound : ∀ e ∈ s.entitlements, ∀ id, e.bindingId = some id → ∃ b ∈ s.db.bindings, b.id = id

/-- The ids that a call draws are new. -/
structure Fresh (d : Draw) (s : Database) : Prop where
  entitlements : ∀ e ∈ s.entitlements, e.id ≠ d.id
  favorites : ∀ f ∈ s.favorites, f.id ≠ d.id
  tasks : ∀ t ∈ s.db.tasks, t.id ≠ d.taskID

/-! ## Committed calls -/

section

variable {sha256 : Bytes → Bytes} {casing : Casing} {d : Draw} {c : Call} {s s' : Database}
  {id : UUID}

instance : Std.Total later := ⟨fun e f => (Int.le_total e.expiresAt f.expiresAt).symm⟩

instance : IsTrans AccountEntitlement later := ⟨fun _ _ _ h h' => Int.le_trans h' h⟩

instance (updatedAt : UUID → Time) : Std.Total (recent updatedAt) where
  total f g := by
    unfold recent
    rcases Int.le_total (updatedAt f.id) (updatedAt g.id) with h | h
    · cases f.desiredFavorite <;> cases g.desiredFavorite <;> simp [h]
    · cases f.desiredFavorite <;> cases g.desiredFavorite <;> simp [h]

instance (updatedAt : UUID → Time) : IsTrans EmbyFavorite (recent updatedAt) where
  trans f g h := by
    unfold recent
    rintro ⟨hg, hg'⟩ ⟨hh, hh'⟩
    refine ⟨fun e => hg (hh e), fun e => ?_⟩
    have hfg : f.desiredFavorite = g.desiredFavorite := by
      cases hf : f.desiredFavorite <;> cases hgd : g.desiredFavorite <;> simp_all
    exact Int.le_trans (hh' (hfg.symm.trans e)) (hg' hfg)

/-- A refused call is honest. -/
theorem honest_refused {e : Err} (h : c.commit sha256 casing d s = .error e) :
    ∀ result s', Returns sha256 casing d c s result s' → Honest c s result s' := by
  intro result s' hret
  cases hret with
  | refused h' => exact ⟨fun _ _ => rfl, fun hne => absurd rfl hne⟩
  | committed h' => rw [h] at h'; cases h'

/-- A committed call that changes something is honest if it finds its row on all pages. -/
theorem honest_committed (h : c.commit sha256 casing d s = .ok (id, s')) (hne : s' ≠ s) :
    (∀ result t, Returns sha256 casing d c s result t → Honest c s result t) ↔
      ∀ pages : Pages s', ∃ x, c.reload id pages = .ok x ∧ c.Changed s s' x := by
  constructor
  · exact fun hall pages => (hall _ _ (.committed h pages)).changed hne
  · intro hall result t hret
    cases hret with
    | refused h' => rw [h] at h'; cases h'
    | committed h' pages =>
      rw [h] at h'
      cases h'
      obtain ⟨x, hx, hchanged⟩ := hall pages
      refine ⟨fun e he => ?_, fun _ => ⟨x, hx, hchanged⟩⟩
      rw [hx] at he
      cases he

theorem getRow_of_some {ρ : Type} {key : ρ → UUID} {listing : List ρ} {x : ρ}
    (h : (listing.take 500).find? (key · = id) = some x) : getRow key id listing = .ok x := by
  unfold getRow
  rw [h]
  rfl

theorem getRow_ok {ρ : Type} {key : ρ → UUID} {listing : List ρ} {x : ρ}
    (h : getRow key id listing = .ok x) : (listing.take 500).find? (key · = id) = some x := by
  unfold getRow at h
  cases hf : (listing.take 500).find? (key · = id) with
  | none => rw [hf] at h; cases h
  | some y => rw [hf] at h; exact congrArg some (Except.ok.inj h)

/-- There are pages with any order of the entitlements, and with any of the favorites of an
account. -/
theorem exists_pages (s : Database) : Nonempty (Pages s) := by
  obtain ⟨l, hl⟩ : ∃ l, Listing later s.entitlements l := exists_listing s.entitlements
  have hf : ∀ a, ∃ l, Listing (recent s.updatedAt) (s.favorites.filter (·.accountId = a)) l :=
    fun a => exists_listing _
  choose f hf using hf
  exact ⟨⟨l, f, hl, hf⟩⟩

/-- A call of an entitlement is honest if few come before the new row. -/
theorem entitlement_honest_iff (h : c.commit sha256 casing d s = .ok (id, s'))
    {x : AccountEntitlement}
    (hreload : ∀ pages : Pages s',
      c.reload id pages = (getRow AccountEntitlement.id id pages.entitlements).map .entitlement)
    (hchanged : ∀ e, c.Changed s s' (.entitlement e) ↔ e ∈ s'.entitlements ∧ e ∉ s.entitlements)
    (hu : UniqueBy AccountEntitlement.id s'.entitlements) (hx : x ∈ s'.entitlements)
    (hid : x.id = id) (hnew : x ∉ s.entitlements) :
    (∀ result t, Returns sha256 casing d c s result t → Honest c s result t) ↔
      (ahead later s'.entitlements x).length < 500 := by
  subst hid
  have hfound : (∀ l, Listing later s'.entitlements l →
      (l.take 500).find? (·.id = x.id) = some x) ↔ (ahead later s'.entitlements x).length < 500 :=
    find?_page_iff hu hx
  have hne : s' ≠ s := fun e => hnew (e ▸ hx)
  rw [honest_committed h hne, ← hfound]
  constructor
  · intro hall l hl
    obtain ⟨p⟩ := exists_pages s'
    obtain ⟨o, ho, -⟩ := hall ⟨l, p.favorites, hl, p.byUpdate⟩
    rw [hreload] at ho
    cases hg : getRow AccountEntitlement.id x.id l with
    | error e => rw [hg] at ho; cases ho
    | ok y =>
      have hy := getRow_ok hg
      have hmem := hl.perm.mem_iff.1 (List.mem_of_mem_take (List.mem_of_find?_eq_some hy))
      rw [hy, hu.eq hmem hx (by simpa using List.find?_some hy)]
  · intro hall pages
    refine ⟨.entitlement x, ?_, (hchanged x).2 ⟨hx, hnew⟩⟩
    rw [hreload, getRow_of_some (hall _ pages.byExpiry)]
    rfl

/-- A call of a favorite is honest if the row is one of the account, and few come before it. -/
theorem favorite_honest_iff {r : FavoriteRequest}
    (h : (Call.favorite r).commit sha256 casing d s = .ok (id, s')) {x : EmbyFavorite}
      (hne : s' ≠ s)
    (hu : UniqueBy EmbyFavorite.id s'.favorites) (hx : x ∈ s'.favorites) (hid : x.id = id)
    (hkey : x.key = (r.trimmed.bindingID, r.trimmed.remoteItemID)) :
    (∀ result t, Returns sha256 casing d (.favorite r) s result t → Honest (.favorite r) s result
      t) ↔
      x.accountId = r.accountID ∧ (ahead (recent s'.updatedAt)
        (s'.favorites.filter (·.accountId = r.accountID)) x).length < 500 := by
  subst hid
  have hrows : UniqueBy EmbyFavorite.id (s'.favorites.filter (·.accountId = r.accountID)) :=
    hu.sublist (List.filter_sublist.map _)
  rw [honest_committed h hne]
  by_cases haccount : x.accountId = r.accountID
  · have hmem : x ∈ s'.favorites.filter (·.accountId = r.accountID) :=
      List.mem_filter.2 ⟨hx, by simpa using haccount⟩
    have hfound : (∀ l, Listing (recent s'.updatedAt)
        (s'.favorites.filter (·.accountId = r.accountID)) l →
        (l.take 500).find? (·.id = x.id) = some x) ↔ (ahead (recent s'.updatedAt)
        (s'.favorites.filter (·.accountId = r.accountID)) x).length < 500 :=
      find?_page_iff hrows hmem
    rw [and_iff_right haccount, ← hfound]
    constructor
    · intro hall l hl
      obtain ⟨p⟩ := exists_pages s'
      obtain ⟨o, ho, -⟩ := hall ⟨p.entitlements,
        fun a => if a = r.accountID then l else p.favorites a, p.byExpiry, fun a => by
          by_cases ha : a = r.accountID
          · rw [if_pos ha, ha]; exact hl
          · rw [if_neg ha]; exact p.byUpdate a⟩
      simp only [Call.reload, if_true] at ho
      cases hg : getRow EmbyFavorite.id x.id l with
      | error e => rw [hg] at ho; cases ho
      | ok y =>
        have hy := getRow_ok hg
        have hmem' := hl.perm.mem_iff.1 (List.mem_of_mem_take (List.mem_of_find?_eq_some hy))
        rw [hy, hrows.eq hmem' hmem (by simpa using List.find?_some hy)]
    · intro hall pages
      refine ⟨.favorite x, ?_, hx, hkey⟩
      simp only [Call.reload]
      rw [getRow_of_some (hall _ (pages.byUpdate r.accountID))]
      rfl
  · refine iff_of_false (fun hall => ?_) fun hand => haccount hand.1
    obtain ⟨p⟩ := exists_pages s'
    obtain ⟨o, ho, -⟩ := hall p
    have hnone : ((p.favorites r.accountID).take 500).find? (·.id = x.id) = none := by
      refine (p.byUpdate r.accountID).find?_none fun y hy he => ?_
      obtain ⟨hy, hya⟩ := List.mem_filter.1 hy
      rw [hu.eq hy hx he] at hya
      exact haccount (by simpa using hya)
    simp only [Call.reload, getRow, hnone] at ho
    cases ho

end

/-! ## Upserts -/

section

variable {row x : AccountEntitlement} {set : AccountEntitlement → AccountEntitlement}
  {es es' : List AccountEntitlement} {id : UUID} {d : Draw} {t t' : Grants}

theorem upsert_succeeds (row : AccountEntitlement) (set : AccountEntitlement → AccountEntitlement)
    (hfree : ∀ e ∈ es, e.id ≠ row.id) :
    ∃ r, upsertEntitlement row set es = .ok r := by
  unfold upsertEntitlement
  split
  · exact ⟨_, rfl⟩
  · rw [if_neg]
    · exact ⟨_, rfl⟩
    · intro hany
      obtain ⟨e, he, hid⟩ := List.any_eq_true.1 hany
      exact hfree e he (of_decide_eq_true hid)

theorem insertTask_succeeds {taskID : UUID} {key : String} {tasks : List Task} (type : TaskType)
    (payload : Payload) (now : Time) (hfree : ∀ x ∈ tasks, x.id ≠ taskID) (hkey : ¬Used tasks key) :
    ∃ tasks', insertTask taskID type key payload now tasks = .ok tasks' := by
  unfold insertTask
  rw [if_neg]
  · exact ⟨_, rfl⟩
  · intro hany
    obtain ⟨x, hx, hor⟩ := List.any_eq_true.1 hany
    rcases (Bool.or_eq_true _ _).mp hor with h | h
    · exact hfree x hx (of_decide_eq_true h)
    · exact hkey ⟨x, hx, of_decide_eq_true h⟩

theorem enqueue_succeeds {bindingID : UUID} (key : String) (hb : ∃ b ∈ t.bindings, b.id = bindingID)
    (hfree : ∀ x ∈ t.tasks, x.id ≠ d.taskID) :
    ∃ t', enqueueEntitlementSyncTx d bindingID key t = .ok t' := by
  obtain ⟨b, hb, hid⟩ := hb
  unfold enqueueEntitlementSyncTx
  cases hf : t.bindings.find? (·.id = bindingID) with
  | none => exact absurd (decide_eq_true hid) (List.find?_eq_none.1 hf b hb)
  | some b' =>
    dsimp only
    split
    · exact ⟨_, rfl⟩
    next hunused =>
      obtain ⟨tasks, htasks⟩ := insertTask_succeeds .entitlementSync
        { instanceId := some b'.instanceId, bindingId := some bindingID } d.now hfree
        fun ⟨x, hx, hk⟩ => hunused (List.any_eq_true.2 ⟨x, hx, decide_eq_true hk⟩)
      rw [htasks]
      exact ⟨_, rfl⟩

/-- The row of an upsert is the one that is held, with new values, or a new one. -/
theorem upsert_held (h : upsertEntitlement row set es = .ok (id, es')) :
    (∃ e ∈ es, held row es = some e ∧ e.id = id ∧ es' = put AccountEntitlement.id es (set e)) ∨
      (held row es = none ∧ (∀ e ∈ es, e.id ≠ id) ∧ id = row.id ∧ es' = es ++ [row]) := by
  unfold upsertEntitlement at h
  unfold held
  split at h
  · next e he =>
    obtain ⟨slot, -, hfind⟩ := Option.bind_eq_some_iff.1 he
    have h := Except.ok.inj h
    exact .inl ⟨e, List.mem_of_find?_eq_some hfind, he, congrArg Prod.fst h,
      (congrArg Prod.snd h).symm⟩
  · next hnone =>
    split at h
    · cases h
    · next hfree =>
      have h := Except.ok.inj h
      have hid : row.id = id := congrArg Prod.fst h
      refine .inr ⟨hnone, fun e he heq => hfree ?_, hid.symm, (congrArg Prod.snd h).symm⟩
      exact List.any_eq_true.2 ⟨e, he, by simp [heq, hid]⟩

/-- The rows ahead of a written row are the others that do not expire before it. -/
theorem ahead_written (hu : UniqueBy AccountEntitlement.id es') (hx : x ∈ es') (hid : x.id = id)
    (hothers : es'.filter (·.id ≠ id) = es.filter (·.id ≠ id)) {e : Option AccountEntitlement}
    (he : ∀ y ∈ es, e.map (·.id) = some y.id ↔ y.id = id) :
    ahead later es' x = outlasting e x.expiresAt es := by
  rw [ahead_eq hu hx, hid, hothers, List.filter_filter]
  unfold outlasting later
  refine List.filter_congr fun y hy => ?_
  by_cases hy' : y.id = id
  · simp [hy', (he y hy).2 hy']
  · have hne : ¬e.map (·.id) = some y.id := fun h => hy' ((he y hy).1 h)
    simp only [ne_eq, hy', hne, not_false_eq_true, decide_true, Bool.and_true, true_and]
    rfl

/-- **The row of a renewal**: the rows that do not expire before the renewed one are ahead of it. -/
theorem upsert_renewal (hu : UniqueBy AccountEntitlement.id es) {days : Int} (hdays : 1 ≤ days)
    (h : upsertEntitlement row set es = .ok (id, es')) (hset : ∀ e, (set e).id = e.id)
    (hrow : row.expiresAt = d.now + days * dayNanos)
    (hexpiry : ∀ e, (set e).expiresAt = max e.expiresAt d.now + days * dayNanos) :
    ∃ x ∈ es', x.id = id ∧ x ∉ es ∧
      ahead later es' x = outlasting (held row es) (renewal d days (held row es)) es := by
  have hunique := upsert_unique hu h
  have hpos : 0 < days * dayNanos := Int.mul_pos (by omega) (by decide)
  rcases upsert_held h with ⟨e, he, hheld, hid, rfl⟩ | ⟨hheld, hfree, hid, rfl⟩
  · have hx : set e ∈ put AccountEntitlement.id es (set e) := mem_put.2 (.inr rfl)
    have hxid : (set e).id = id := (hset e).trans hid
    refine ⟨set e, hx, hxid, fun hmem => ?_, ?_⟩
    · have hsame := hu.eq hmem he (hset e)
      have hexp := hexpiry e
      rw [hsame] at hexp
      have hle : e.expiresAt ≤ max e.expiresAt d.now := le_max_left _ _
      exact (hle.trans_lt (Int.lt_add_of_pos_right _ hpos)).ne hexp
    · rw [ahead_written hunique hx hxid (filter_put_ne hxid) (e := some e), hexpiry, hheld]
      · rfl
      · intro y _
        rw [← hid]
        exact ⟨fun heq => (Option.some.inj heq).symm, fun heq => congrArg some heq.symm⟩
  · have hx : row ∈ es ++ [row] := List.mem_append_right _ (List.mem_singleton.2 rfl)
    refine ⟨row, hx, hid.symm, fun hmem => hfree row hmem hid.symm, ?_⟩
    rw [ahead_written hunique hx hid.symm (e := none), hrow, hheld]
    · rfl
    · rw [List.filter_append, List.filter_cons_of_neg (by simp [hid]), List.filter_nil,
        List.append_nil]
    · exact fun y hy => iff_of_false nofun (hfree y hy)

end

/-! ## Calls of entitlements -/

section

variable {sha256 : Bytes → Bytes} {casing : Casing} {d : Draw} {s : Database}

theorem bindingFor_mem {accountID : UUID} {instanceID : Option UUID} {bindings : List Binding}
    {b : Binding} (h : bindingFor accountID instanceID bindings = some b) : b ∈ bindings := by
  unfold bindingFor at h
  rcases Option.or_eq_some_iff.1 h with h | ⟨-, h⟩
  · exact (List.mem_filter.1 (List.mem_of_find?_eq_some h)).1
  · exact (List.mem_filter.1 (List.mem_of_head? h)).1

/-- A code that is available is redeemed. -/
theorem redeem_succeeds (hd : Fresh d s) (accountID : UUID) {code : String} {c : EntitlementCode}
    (hc : lookup sha256 casing code s.grants.toTables = some c) (hstatus : c.status = .available) :
    ∃ r, redeemEntitlementCode sha256 casing d accountID code s.grants = .ok r := by
  unfold redeemEntitlementCode
  rw [hc]
  simp only [Option.elim_some, bind, Except.bind]
  rw [if_neg (not_not.2 hstatus)]
  have hb : ∀ b, bindingFor accountID c.instanceId s.grants.bindings = some b →
      b ∈ s.db.bindings := fun b => bindingFor_mem
  generalize bindingFor accountID c.instanceId s.grants.bindings = b at hb ⊢
  obtain ⟨r, hr⟩ := upsert_succeeds (redeemedRow d accountID c b) (·.redeem d c b) hd.entitlements
  rw [show upsertEntitlement (redeemedRow d accountID c b) (·.redeem d c b)
    s.grants.entitlements = .ok r from hr]
  cases b with
  | none => exact ⟨_, rfl⟩
  | some b =>
    dsimp only
    generalize hT : ({ s.grants with
      entitlements := r.2
      codes := put EntitlementCode.id s.grants.codes
        { c with status := .redeemed, reservedBy := some accountID } } : Grants) = t
    obtain ⟨t', ht'⟩ := enqueue_succeeds (t := t) (d := d) ("redeem:" ++ c.id.text)
      ⟨b, hT ▸ hb b rfl, rfl⟩ (hT ▸ hd.tasks)
    rw [ht']
    exact ⟨_, rfl⟩

theorem grant_succeeds (hd : Fresh d s) {g : GrantRequest} (hvalid : g.invalid = false)
    {b : Binding}
    (hb : bindingFor g.accountID g.instanceID s.db.bindings = some b) {resourceKey : String}
    (hkey : varchar 160 (trimSpace g.resourceKey) = .ok resourceKey) :
    ∃ r, grantEntitlement d g s.grants = .ok r := by
  unfold grantEntitlement
  rw [if_neg (by rw [hvalid]; nofun),
    show bindingFor g.accountID g.instanceID s.grants.bindings = some b from hb, hkey]
  simp only [Option.elim_some, bind, Except.bind]
  obtain ⟨r, hr⟩ := upsert_succeeds (grantedRow d g b resourceKey) (·.grant d g b) hd.entitlements
  rw [show upsertEntitlement (grantedRow d g b resourceKey) (·.grant d g b)
    s.grants.entitlements = .ok r from hr]
  dsimp only
  generalize hT : ({ s.grants with entitlements := r.2 } : Grants) = t
  obtain ⟨t', ht'⟩ := enqueue_succeeds (t := t) (d := d) (grantKey r.1 d.clock)
    ⟨b, hT ▸ bindingFor_mem hb, rfl⟩ (hT ▸ hd.tasks)
  rw [ht']
  exact ⟨_, rfl⟩

theorem revoke_succeeds (hs : WellFormed s) (hd : Fresh d s) {reason : String}
    (hreason : acceptedReason reason) {e : AccountEntitlement} (he : e ∈ s.entitlements)
    (hstatus : e.status ≠ .revoked) : ∃ r, revokeEntitlement d e.id reason s.grants = .ok r := by
  obtain ⟨hne, hsize, hnul⟩ := hreason
  unfold revokeEntitlement
  rw [if_neg (by simp [hne, hsize]), if_neg hnul]
  cases hf : s.grants.entitlements.find? fun x => x.id = e.id && x.status ≠ .revoked with
  | none => exact absurd (List.find?_eq_none.1 hf e he) (by simp [hstatus])
  | some x =>
    have hx : x ∈ s.entitlements := List.mem_of_find?_eq_some hf
    dsimp only
    cases hb : x.bindingId with
    | none => exact ⟨_, rfl⟩
    | some bindingID =>
      dsimp only
      generalize hT : ({ s.grants with
        entitlements := put AccountEntitlement.id s.grants.entitlements x.revoke } : Grants) = t
      have hbindings : t.bindings = s.db.bindings := by rw [← hT]; rfl
      obtain ⟨t', ht'⟩ := enqueue_succeeds (t := t) (d := d) (revokeKey e.id)
        (hbindings ▸ hs.bound x hx bindingID hb) (hT ▸ hd.tasks)
      rw [ht']
      exact ⟨_, rfl⟩

/-- What is not refused is honest exactly under a condition. -/
theorem honest_cases {c : Call} {p : Prop}
    (hrefused : ∀ e, c.commit sha256 casing d s = .error e → p)
    (hcommitted : ∀ id s', c.commit sha256 casing d s = .ok (id, s') →
      ((∀ result t, Returns sha256 casing d c s result t → Honest c s result t) ↔ p)) :
    (∀ result s', Returns sha256 casing d c s result s' → Honest c s result s') ↔ p := by
  cases h : c.commit sha256 casing d s with
  | error e => exact iff_of_true (honest_refused h) (hrefused e h)
  | ok r => exact hcommitted r.1 r.2 h

theorem redeem_honest_iff (hs : WellFormed s) (hd : Fresh d s) {accountID : UUID} {code : String} :
    (∀ result s', Returns sha256 casing d (.redeem accountID code) s result s' →
      Honest (.redeem accountID code) s result s') ↔
    (Call.redeem accountID code).Listed sha256 casing d s := by
  refine honest_cases (fun e h c hc hstatus => ?_) fun id s' h => ?_
  · obtain ⟨r, hr⟩ := redeem_succeeds hd accountID hc hstatus
    simp only [Call.commit, hr] at h
    cases h
  · have hmap := h
    simp only [Call.commit] at hmap
    obtain ⟨⟨id', t⟩, ht, heq⟩ := map_ok hmap
    obtain ⟨rfl, rfl⟩ := Prod.mk.inj heq
    obtain ⟨c, hc, hmem, hstatus, b, rfl, hup, -⟩ := redeem_ok ht
    obtain ⟨x, hx, hid, hnew, hahead⟩ := upsert_renewal (d := d) hs.entitlementIds (hs.days c hmem)
      hup
      (fun _ => rfl) rfl fun _ => rfl
    rw [entitlement_honest_iff h (fun _ => rfl) (fun _ => Iff.rfl) (upsert_unique hs.entitlementIds
      hup)
      hx hid hnew, show ahead later (s.withGrants t).entitlements x = _ from hahead]
    refine ⟨fun hfew c' hc' _ => ?_, fun hlisted => hlisted c hc hstatus⟩
    obtain rfl := Option.some.inj (hc.symm.trans hc')
    exact hfew

theorem grant_honest_iff (hs : WellFormed s) (hd : Fresh d s) {g : GrantRequest} :
    (∀ result s', Returns sha256 casing d (.grant g) s result s' → Honest (.grant g) s result s') ↔
    (Call.grant g).Listed sha256 casing d s := by
  refine honest_cases (fun e h hvalid b hb resourceKey hkey => ?_) fun id s' h => ?_
  · obtain ⟨r, hr⟩ := grant_succeeds hd hvalid hb hkey
    simp only [Call.commit, hr] at h
    cases h
  · have hmap := h
    simp only [Call.commit] at hmap
    obtain ⟨⟨id', t⟩, ht, heq⟩ := map_ok hmap
    obtain ⟨rfl, rfl⟩ := Prod.mk.inj heq
    obtain ⟨hvalid, b, hb, resourceKey, es, hkey, hup, henqueue⟩ := grant_ok ht
    have hes : t.entitlements = es := by rw [enqueue_tables henqueue]
    subst hes
    obtain ⟨x, hx, hid, hnew, hahead⟩ := upsert_renewal (d := d) hs.entitlementIds
      (GrantRequest.days_of_valid hvalid) hup (fun _ => rfl) rfl fun _ => rfl
    rw [entitlement_honest_iff h (fun _ => rfl) (fun _ => Iff.rfl) (upsert_unique hs.entitlementIds
      hup)
      hx hid hnew, show ahead later (s.withGrants t).entitlements x = _ from hahead]
    refine ⟨fun hfew _ b' hb' key' hkey' => ?_, fun hlisted => hlisted hvalid b hb resourceKey hkey⟩
    obtain rfl := Option.some.inj (hb.symm.trans hb')
    obtain rfl := Except.ok.inj (hkey.symm.trans hkey')
    exact hfew

theorem revoke_honest_iff (hs : WellFormed s) (hd : Fresh d s) {id : UUID} {reason : String} :
    (∀ result s', Returns sha256 casing d (.revoke id reason) s result s' →
      Honest (.revoke id reason) s result s') ↔
    (Call.revoke id reason).Listed sha256 casing d s := by
  refine honest_cases (fun e h hreason x hx hid hstatus => ?_) fun id' s' h => ?_
  · obtain ⟨r, hr⟩ := revoke_succeeds hs hd hreason hx hstatus
    rw [hid] at hr
    simp only [Call.commit, hr] at h
    cases h
  · have hmap := h
    simp only [Call.commit] at hmap
    obtain ⟨⟨id', t⟩, ht, heq⟩ := map_ok hmap
    obtain ⟨rfl, rfl⟩ := Prod.mk.inj heq
    obtain ⟨rfl, hreason, e, hfind, t₁, ht₁, hcase⟩ := revoke_ok ht
    have he : e ∈ s.entitlements := List.mem_of_find?_eq_some hfind
    obtain ⟨hid, hstatus⟩ : e.id = id' ∧ e.status ≠ .revoked := by
      simpa using List.find?_some hfind
    have hes : t.entitlements = put AccountEntitlement.id s.entitlements e.revoke := by
      rcases hcase with ⟨-, rfl⟩ | ⟨b, -, hb⟩
      · rw [ht₁]; rfl
      · rw [enqueue_tables hb, ht₁]; rfl
    have hu : UniqueBy AccountEntitlement.id (s.withGrants t).entitlements := by
      show UniqueBy _ t.entitlements
      rw [hes]
      exact hs.entitlementIds.put fun _ _ e => e
    have hx : e.revoke ∈ (s.withGrants t).entitlements := by
      show e.revoke ∈ t.entitlements
      rw [hes]
      exact mem_put.2 (.inr rfl)
    have hnew : e.revoke ∉ s.entitlements := fun hmem => by
      have heq : e = e.revoke := hs.entitlementIds.eq he hmem rfl
      exact hstatus (congrArg AccountEntitlement.status heq)
    have hahead : ahead later (s.withGrants t).entitlements e.revoke =
        outlasting (some e) e.expiresAt s.entitlements := by
      refine ahead_written hu hx hid ?_ fun y _ => ?_
      · show t.entitlements.filter _ = _
        rw [hes]
        exact filter_put_ne hid
      · rw [← hid]
        exact ⟨fun heq => (Option.some.inj heq).symm, fun heq => congrArg some heq.symm⟩
    rw [entitlement_honest_iff h (fun _ => rfl) (fun _ => Iff.rfl) hu hx hid hnew, hahead]
    refine ⟨fun hfew _ e' he' hid' _ => ?_, fun hlisted => hlisted hreason e he hid hstatus⟩
    obtain rfl := hs.entitlementIds.eq he he' (hid.trans hid'.symm)
    exact hfew

end

/-! ## Favorites -/

section

variable {sha256 : Bytes → Bytes} {casing : Casing} {d : Draw} {s : Database}

theorem size_of_valid {r : FavoriteRequest} (h : r.invalid = false) :
    r.remoteItemID.utf8ByteSize ≤ 128 ∧ r.title.utf8ByteSize ≤ 500 := by
  have hnot : ¬r.invalid = true := by rw [h]; nofun
  simp only [FavoriteRequest.invalid, Bool.or_eq_true, decide_eq_true_eq, not_or, not_lt] at hnot
  exact ⟨hnot.1.1.2, hnot.2⟩

/-- The row that a request inserts, and what it writes to one that is there. -/
structure Asks (d : Draw) (r : FavoriteRequest) (row : EmbyFavorite)
    (set : EmbyFavorite → EmbyFavorite) : Prop where
  id : row.id = d.id
  key : row.key = (r.bindingID, r.remoteItemID)
  account : row.accountId = r.accountID
  desired : row.desiredFavorite = r.favorite
  place : ∀ f, (set f).place = f.place
  keeps : ∀ f, (set f).accountId = f.accountId
  sets : ∀ f, (set f).desiredFavorite = r.favorite

theorem requestFavorite_asks {r : FavoriteRequest} {t : Favorites.State}
    (hvalid : r.invalid = false)
    (h : Favorites.requestFavorite d.id d.taskID d.clock r s.toState = .ok t) :
    acceptedFavorite r ∧ (∃ b, Favorites.bindingOf s.db r.accountID r.bindingID = .ok b) ∧
      ¬Used s.db.tasks (Favorites.favoriteKey r d.clock) ∧ ∃ row set id, Asks d r row set ∧
        Favorites.upsertFavorite row set s.favorites = .ok (t.favorites, id) ∧
        lastAsked t = some id ∧ t.db.tasks ≠ s.db.tasks := by
  unfold Favorites.requestFavorite at h
  obtain ⟨b, hb, h⟩ := except_bind_ok h
  obtain ⟨item, hitem, h⟩ := except_bind_ok h
  obtain ⟨title, htitle, h⟩ := except_bind_ok h
  obtain ⟨mediaType, hmedia, h⟩ := except_bind_ok h
  obtain ⟨⟨favorites, id⟩, hup, h⟩ := except_bind_ok h
  obtain ⟨tasks, htasks, h⟩ := except_bind_ok h
  obtain ⟨hi, ht⟩ := size_of_valid hvalid
  obtain ⟨hi, rfl⟩ := varchar_of_size hi hitem
  obtain ⟨ht, -⟩ := varchar_of_size ht htitle
  have hunused : ¬Used s.db.tasks (Favorites.favoriteKey r d.clock) := by
    rintro ⟨x, hx, hk⟩
    unfold insertTask at htasks
    rw [if_pos (List.any_eq_true.2 ⟨x, hx, by simp [hk]⟩)] at htasks
    cases htasks
  obtain ⟨-, x, rfl, -⟩ := insertTask_ok htasks
  cases h
  refine ⟨⟨hvalid, hi, ht, mediaType, hmedia⟩, ⟨b, hb⟩, hunused, _, _, id, ?_, hup, ?_, ?_⟩
  · exact ⟨rfl, rfl, rfl, rfl, fun _ => rfl, fun _ => rfl, fun _ => rfl⟩
  · simp [lastAsked]
  · exact fun heq => by simpa using congrArg List.length heq

theorem requestFavorite_succeeds (hd : Fresh d s) {r : FavoriteRequest} (hr : acceptedFavorite r)
    (hb : ∃ b, Favorites.bindingOf s.db r.accountID r.bindingID = .ok b)
    (hunused : ¬Used s.db.tasks (Favorites.favoriteKey r d.clock)) :
    ∃ t, Favorites.requestFavorite d.id d.taskID d.clock r s.toState = .ok t := by
  obtain ⟨hvalid, hi, ht, mediaType, hmedia⟩ := hr
  obtain ⟨b, hb⟩ := hb
  obtain ⟨hsi, hst⟩ := size_of_valid hvalid
  unfold Favorites.requestFavorite
  rw [hb, varchar_of_fits (fits_of_size hsi hi), varchar_of_fits (fits_of_size hst ht), hmedia]
  simp only [bind, Except.bind]
  have hup : ∀ row set, row.id = d.id →
      ∃ p, Favorites.upsertFavorite row set s.toState.favorites = .ok p := fun row set hid => by
    unfold Favorites.upsertFavorite
    split
    · exact ⟨_, rfl⟩
    · rw [if_neg]
      · exact ⟨_, rfl⟩
      · intro hany
        obtain ⟨f, hf, hfid⟩ := List.any_eq_true.1 hany
        exact hd.favorites f hf ((of_decide_eq_true hfid).trans hid)
  obtain ⟨p, hp⟩ := hup
    { id := d.id, accountId := r.accountID, instanceId := b.instanceId, bindingId := r.bindingID
      mediaId := r.mediaID, remoteItemId := r.remoteItemID, title := r.title, mediaType
      desiredFavorite := r.favorite, remoteFavorite := !r.favorite, syncStatus := .pending }
    (fun f => { f with
      mediaId := r.mediaID.or f.mediaId, title := r.title, mediaType, desiredFavorite := r.favorite
      syncStatus := .pending, lastError := none }) rfl
  rw [hp]
  obtain ⟨tasks, htasks⟩ := insertTask_succeeds .embyFavorite
    { instanceId := some b.instanceId, favoriteId := some p.2 } d.clock hd.tasks hunused
  dsimp only
  rw [htasks]
  exact ⟨_, rfl⟩

/-- The favorite of a request after its upsert; the others are as they were. -/
theorem upsert_asked (hs : WellFormed s) (hd : Fresh d s) {r : FavoriteRequest} {row : EmbyFavorite}
    {set : EmbyFavorite → EmbyFavorite} (hasks : Asks d r row set) {fs : List EmbyFavorite}
      {id : UUID}
    (h : Favorites.upsertFavorite row set s.favorites = .ok (fs, id)) :
    ∃ x ∈ fs, x.id = id ∧ x.key = (r.bindingID, r.remoteItemID) ∧ x.desiredFavorite = r.favorite ∧
      fs.filter (·.id ≠ id) = s.favorites.filter (·.id ≠ id) ∧
      (∀ f ∈ s.favorites, f.id = id ↔ f.key = (r.bindingID, r.remoteItemID)) ∧
      (x.accountId = r.accountID ↔
        ∀ f ∈ s.favorites, f.key = (r.bindingID, r.remoteItemID) → f.accountId = r.accountID) := by
  unfold Favorites.upsertFavorite at h
  split at h
  · next f hf =>
    obtain ⟨rfl, rfl⟩ := Prod.mk.inj (Except.ok.inj h)
    have hmem := List.mem_of_find?_eq_some hf
    have hkey : f.key = (r.bindingID, r.remoteItemID) :=
      Eq.trans (by simpa using List.find?_some hf) hasks.key
    have hid : (set f).id = f.id := EmbyFavorite.id_of_place (hasks.place f)
    refine ⟨set f, mem_put.2 (.inr rfl), hid, ?_, hasks.sets f, filter_put_ne hid,
      fun g hg => ⟨fun he => ?_, fun he => ?_⟩, ?_⟩
    · exact (EmbyFavorite.key_of_place (hasks.place f)).trans hkey
    · rw [hs.favoriteIds.eq hg hmem he]
      exact hkey
    · rw [hs.favoriteKeys.eq hg hmem (he.trans hkey.symm)]
    · rw [hasks.keeps]
      refine ⟨fun ha g hg he => ?_, fun hall => hall f hmem hkey⟩
      rw [hs.favoriteKeys.eq hg hmem (he.trans hkey.symm)]
      exact ha
  · next hnone =>
    split at h
    · cases h
    obtain ⟨rfl, rfl⟩ := Prod.mk.inj (Except.ok.inj h)
    have hkeys : ∀ f ∈ s.favorites, f.key ≠ (r.bindingID, r.remoteItemID) := fun f hf he =>
      List.find?_eq_none.1 hnone f hf (decide_eq_true (he.trans hasks.key.symm))
    have hids : ∀ f ∈ s.favorites, f.id ≠ row.id := fun f hf => hasks.id ▸ hd.favorites f hf
    refine ⟨row, List.mem_append_right _ (List.mem_singleton.2 rfl), rfl, hasks.key, hasks.desired,
      ?_, fun f hf => iff_of_false (hids f hf) (hkeys f hf),
      iff_of_true hasks.account fun f hf he => absurd he (hkeys f hf)⟩
    rw [List.filter_append, List.filter_cons_of_neg (by simp), List.filter_nil, List.append_nil]

/-- The favorites that come before the one of a request, or tie with it. -/
theorem ahead_asked {r : FavoriteRequest} {fs : List EmbyFavorite} {id : UUID} {x : EmbyFavorite}
    {t : Favorites.State} (hu : UniqueBy EmbyFavorite.id fs) (hx : x ∈ fs) (hid : x.id = id)
    (hdesired : x.desiredFavorite = r.favorite)
    (hothers : fs.filter (·.id ≠ id) = s.favorites.filter (·.id ≠ id))
    (hsame : ∀ f ∈ s.favorites, f.id = id ↔ f.key = (r.bindingID, r.remoteItemID))
    (haccount : x.accountId = r.accountID) :
    ahead (recent (s.withFavorite d.now id t).updatedAt) (fs.filter (·.accountId = r.accountID)) x =
      preferred d.now r s := by
  have hrows : UniqueBy EmbyFavorite.id (fs.filter (·.accountId = r.accountID)) :=
    hu.sublist (List.filter_sublist.map _)
  have hmem : x ∈ fs.filter (·.accountId = r.accountID) :=
    List.mem_filter.2 ⟨hx, by simpa using haccount⟩
  have hrest : (fs.filter (·.accountId = r.accountID)).filter (·.id ≠ id) =
      (s.favorites.filter (·.id ≠ id)).filter (·.accountId = r.accountID) := by
    rw [← hothers, List.filter_comm]
  rw [ahead_eq hrows hmem, hid, hrest, List.filter_filter, List.filter_filter]
  unfold preferred
  refine List.filter_congr fun f hf => ?_
  by_cases hkey : f.id = id
  · have hkey' := (hsame f hf).1 hkey
    simp [hkey, hkey']
  · have hkey' : ¬f.key = (r.bindingID, r.remoteItemID) := fun e => hkey ((hsame f hf).2 e)
    have htime : (s.withFavorite d.now id t).updatedAt f.id = s.updatedAt f.id := if_neg hkey
    have hnow : (s.withFavorite d.now id t).updatedAt x.id = d.now := if_pos hid
    simp only [recent, htime, hnow, hdesired, ne_eq, hkey, hkey', not_false_eq_true, true_and,
      decide_true, Bool.and_true]
    by_cases ha : f.accountId = r.accountID
    · simp [ha]
    · simp [ha]

theorem favorite_honest_iff_listed (hs : WellFormed s) (hd : Fresh d s) {r : FavoriteRequest} :
    (∀ result s', Returns sha256 casing d (.favorite r) s result s' →
      Honest (.favorite r) s result s') ↔
    (Call.favorite r).Listed sha256 casing d s := by
  refine honest_cases (fun e h hr hb hunused => ?_) fun id s' h => ?_
  · obtain ⟨t, ht⟩ := requestFavorite_succeeds hd hr hb hunused
    simp only [Call.commit, Favorites.setFavorite] at h
    rw [if_neg (by rw [hr.1]; nofun), ht] at h
    cases h
  · have hmap := h
    simp only [Call.commit] at hmap
    obtain ⟨t, ht, heq⟩ := map_ok hmap
    unfold Favorites.setFavorite at ht
    split at ht
    · cases ht
    next hvalid =>
    obtain ⟨hr, hb, hunused, row, set, id', hasks, hup, hlast, htasks⟩ :=
      requestFavorite_asks (eq_false_of_ne_true hvalid) ht
    simp only [hlast, Option.getD_some] at heq
    obtain ⟨rfl, rfl⟩ := Prod.mk.inj heq
    obtain ⟨x, hx, hid, hkey, hdesired, hothers, hsame, haccount⟩ := upsert_asked hs hd hasks hup
    have hu : UniqueBy EmbyFavorite.id t.favorites :=
      (Favorites.upsertFavorite_rewrite set hs.favoriteIds hs.favoriteKeys hasks.place hup).1.ids
    have haccount' : x.accountId = r.accountID ↔ ∀ f ∈ s.favorites,
        f.key = (r.bindingID, r.trimmed.remoteItemID) → f.accountId = r.accountID := haccount
    rw [favorite_honest_iff h (fun e => htasks (congrArg (fun s : Database => s.db.tasks) e)) hu hx
      hid
      hkey, haccount']
    have hahead : x.accountId = r.accountID → ahead (recent (s.withFavorite d.now id' t).updatedAt)
        (t.favorites.filter (·.accountId = r.accountID)) x = preferred d.now r.trimmed s :=
          fun ha =>
      ahead_asked hu hx hid hdesired hothers hsame ha
    have hlisted : (Call.favorite r).Listed sha256 casing d s ↔
        (∀ f ∈ s.favorites, f.key = (r.bindingID, r.trimmed.remoteItemID) →
          f.accountId = r.accountID) ∧ (preferred d.now r.trimmed s).length < 500 :=
      ⟨fun hl => hl hr hb hunused, fun hl _ _ _ => hl⟩
    rw [hlisted]
    refine and_congr_right fun hall => ?_
    rw [show (s.withFavorite d.now id' t).favorites = t.favorites from rfl, hahead
      (haccount.2 hall)]

/-- **The calls that are honest**: an error of a call means that nothing happened, and a change
that its object is returned, exactly if fewer than 500 other rows come before the row of the call
or tie with it. -/
theorem honest_iff (hs : WellFormed s) (hd : Fresh d s) (c : Call) :
    (∀ result s', Returns sha256 casing d c s result s' → Honest c s result s') ↔
      c.Listed sha256 casing d s := by
  cases c with
  | redeem accountID code => exact redeem_honest_iff hs hd
  | grant g => exact grant_honest_iff hs hd
  | revoke id reason => exact revoke_honest_iff hs hd
  | favorite r => exact favorite_honest_iff_listed hs hd

end

/-! ## A large installation -/

def numbered (n : Nat) : UUID where
  text := String.ofList ("00000000-0000-4000-8000-000000000".toList ++
    [Nat.digitChar (n / 256 % 16), Nat.digitChar (n / 16 % 16), Nat.digitChar (n % 16)])
  valid := by
    rw [String.length_ofList]
    rfl

theorem digitChar_inj {m n : Nat} (hm : m < 16) (hn : n < 16)
    (h : Nat.digitChar m = Nat.digitChar n) : m = n := by
  have hall : ∀ m < 16, ∀ n < 16, Nat.digitChar m = Nat.digitChar n → m = n := by decide
  exact hall m hm n hn h

theorem numbered_inj {m n : Nat} (hm : m < 4096) (hn : n < 4096) (h : numbered m = numbered n) :
    m = n := by
  have htext := congrArg UUID.text h
  have hlist := List.append_cancel_left (String.ofList_injective htext)
  simp only [List.cons.injEq, and_true] at hlist
  have h₁ := digitChar_inj (Nat.mod_lt _ (by decide)) (Nat.mod_lt _ (by decide)) hlist.1
  have h₂ := digitChar_inj (Nat.mod_lt _ (by decide)) (Nat.mod_lt _ (by decide)) hlist.2.1
  have h₃ := digitChar_inj (Nat.mod_lt _ (by decide)) (Nat.mod_lt _ (by decide)) hlist.2.2
  omega

/-- The entitlement of an account that expires at a time. -/
def lasting (n : Nat) (time : Time) : AccountEntitlement where
  id := numbered n
  accountId := numbered n
  instanceId := some (idOf '1')
  bindingId := none
  resourceKey := "films"
  sourceCodeId := none
  startsAt := 0
  expiresAt := time

/-- One entitlement, and `k` that expire later. -/
@[irreducible] def outlived (k : Nat) : List AccountEntitlement :=
  (List.range (k + 1)).map fun n => lasting n (if n = 0 then 10 else 1000)

theorem mem_outlived {k : Nat} {e : AccountEntitlement} (h : e ∈ outlived k) :
    ∃ n ≤ k, e = lasting n (if n = 0 then 10 else 1000) := by
  unfold outlived at h
  obtain ⟨n, hn, rfl⟩ := List.mem_map.1 h
  exact ⟨n, Nat.le_of_lt_succ (List.mem_range.1 hn), rfl⟩

theorem outlived_unique {k : Nat} (hk : k < 4095) : UniqueBy AccountEntitlement.id
    (outlived k) := by
  unfold UniqueBy outlived
  rw [List.map_map]
  refine List.Nodup.map_on (fun m hm n hn h => ?_) List.nodup_range
  rw [List.mem_range] at hm hn
  exact numbered_inj (by omega) (by omega) h

theorem outlasting_outlived {k : Nat} (hk : k < 4095) :
    (outlasting (some (lasting 0 10)) 10 (outlived k)).length = k := by
  unfold outlasting outlived
  rw [List.filter_map, List.length_map]
  have hcongr : (List.range (k + 1)).filter ((fun y : AccountEntitlement =>
      decide ((some (lasting 0 10)).map (·.id) ≠ some y.id ∧ (10 : Time) ≤ y.expiresAt)) ∘
        fun n => lasting n (if n = 0 then 10 else 1000)) = (List.range (k + 1)).filter (· ≠ 0) := by
    refine List.filter_congr fun n hn => ?_
    rw [List.mem_range] at hn
    rw [Function.comp_apply, decide_eq_decide]
    constructor
    · rintro ⟨hne, -⟩ rfl
      exact hne rfl
    · intro hne
      refine ⟨fun h => hne ?_, ?_⟩
      · exact (numbered_inj (by decide) (by omega) (Option.some.inj h)).symm
      · show (10 : Int) ≤ if n = 0 then 10 else 1000
        rw [if_neg hne]
        decide
  rw [hcongr, List.range_succ_eq_map, List.filter_cons_of_neg (by simp), List.filter_eq_self.2,
    List.length_map, List.length_range]
  intro n hn
  obtain ⟨m, -, rfl⟩ := List.mem_map.1 hn
  rfl

def crowd (k : Nat) : Database where
  db := {}
  entitlements := outlived k

theorem crowd_wellFormed {k : Nat} (hk : k < 4095) : WellFormed (crowd k) where
  entitlementIds := outlived_unique hk
  favoriteIds := uniqueBy_nil
  favoriteKeys := uniqueBy_nil
  days _ hc := absurd hc List.not_mem_nil
  bound e he id hid := by
    obtain ⟨n, -, rfl⟩ := mem_outlived he
    cases hid

/-- The draw of the call. -/
def revoking : Draw := ⟨numbered 4095, numbered 4095, 5, 5⟩

theorem crowd_fresh {k : Nat} (hk : k < 4095) : Fresh revoking (crowd k) where
  entitlements e he := by
    obtain ⟨n, hn, rfl⟩ := mem_outlived he
    intro h
    have := numbered_inj (by omega) (by decide) h
    omega
  favorites _ hf := absurd hf List.not_mem_nil
  tasks _ ht := absurd ht List.not_mem_nil

theorem crowd_first {k : Nat} : lasting 0 10 ∈ (crowd k).entitlements := by
  unfold crowd outlived
  exact List.mem_map.2 ⟨0, List.mem_range.2 (Nat.succ_pos _), rfl⟩

/-- The 500 entitlements fill the page that is read after the revocation of the first one, and the
call
reports that there is no such entitlement. -/
theorem crowded_out : ¬∀ (sha256 : Bytes → Bytes) (casing : Casing) (d : Draw) (s : Database)
    (c : Call), WellFormed s → Fresh d s → ∀ result s', Returns sha256 casing d c s result s' →
      Honest c s result s' := by
  intro h
  have hhonest := h id ⟨id, id, rfl, fun _ => Iff.rfl⟩ revoking (crowd 500)
    (.revoke (numbered 0) "r")
    (crowd_wellFormed (by decide)) (crowd_fresh (by decide))
  have hlisted := (revoke_honest_iff (crowd_wellFormed (by decide)) (crowd_fresh (by decide))).1
    hhonest
  have hreason : acceptedReason "r" := by unfold acceptedReason; decide
  have hfew : (outlasting (some (lasting 0 10)) 10 (outlived 500)).length < 500 :=
    hlisted hreason _ crowd_first rfl nofun
  rw [outlasting_outlived (by decide)] at hfew
  exact absurd hfew (by decide)

theorem honest_iff_few : WellFormed (crowd 3) ∧ Fresh revoking (crowd 3) ∧ ∀ result s',
    Returns id ⟨id, id, rfl, fun _ => Iff.rfl⟩ revoking (.revoke (numbered 0) "r") (crowd 3) result s' →
      Honest (.revoke (numbered 0) "r") (crowd 3) result s' := by
  have hk : 3 < 4095 := by decide
  refine ⟨crowd_wellFormed hk, crowd_fresh hk,
    (honest_iff (crowd_wellFormed hk) (crowd_fresh hk) _).2 fun _ e he hid _ => ?_⟩
  obtain rfl := (crowd_wellFormed hk).entitlementIds.eq crowd_first he hid.symm
  have hthree : (outlasting (some (lasting 0 10)) 10 (outlived 3)).length < 500 := by
    rw [outlasting_outlived hk]
    decide
  exact hthree

end Sakura.Reload
