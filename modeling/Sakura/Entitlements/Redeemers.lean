/-
  Redemptions of entitlement codes side by side (platform/access_lines.go).

  A transaction locks its code, upserts the entitlement under the lock of the unique index, and commits.
  Between any two of these steps others may come.

  * `Redeemer`, `Phase`, `redeemStep`: the transactions and their steps;
  * `Apart`: the invariant, what the locks keep apart;
  * `redemptions_serializable`: in every run the tables are those that the committed redemptions leave one
    after the other.
-/
import Sakura.Entitlements.Service
import Sakura.Txn.Machine

namespace Sakura.Entitlements

open Txn Queue

/-! ## Transactions -/

/-- A call of `RedeemEntitlementCode`, with what it draws; `NOW()` is the time at which it begins. -/
structure Redeemer where
  d : Draw
  accountID : UUID
  code : String

inductive Phase where
  /-- Nothing is locked. -/
  | begun (r : Redeemer)
  /-- The row of the code is locked. -/
  | locked (r : Redeemer) (c : EntitlementCode)
  /-- The row of the entitlement is locked too; `x` is its new version. -/
  | written (r : Redeemer) (c : EntitlementCode) (x : AccountEntitlement)
  | ended

/-- The code whose row is locked. -/
def Phase.code : Phase → Option EntitlementCode
  | .begun _ | .ended => none
  | .locked _ c | .written _ c _ => some c

/-- The entitlement whose row is locked. -/
def Phase.row : Phase → Option AccountEntitlement
  | .written _ _ x => some x
  | _ => none

/-- The tables and the transactions; `log` has those that have been committed. -/
structure RedeemState where
  tables : Grants
  phases : List Phase := []
  log : List Redeemer := []

def RedeemState.set (s : RedeemState) (n : Nat) (p : Phase) : RedeemState := { s with phases := s.phases.set n p }

/-- The version of a row that an upsert makes. -/
def upsertVersion (row : AccountEntitlement) (set : AccountEntitlement → AccountEntitlement)
    (entitlements : List AccountEntitlement) : Except Err AccountEntitlement :=
  match row.slot.bind fun slot => entitlements.find? (·.slot = some slot) with
  | some e => .ok (set e)
  | none => if entitlements.any (·.id = row.id) then .error .database else .ok row

inductive RedeemLabel where
  | begin (r : Redeemer)
  /-- `SELECT … FOR UPDATE` of the code. -/
  | lock (n : Nat)
  /-- `INSERT … ON CONFLICT … DO UPDATE` of the entitlement. -/
  | upsert (n : Nat)
  /-- The code is redeemed, its task is enqueued, and the transaction is committed. -/
  | commit (n : Nat)
  /-- The transaction is rolled back. -/
  | stop (n : Nat)

section

variable (sha256 : Bytes → Bytes) (casing : Casing)

/-- The binding of a redemption. -/
def Redeemer.binding (r : Redeemer) (c : EntitlementCode) (t : Grants) : Option Binding :=
  bindingFor r.accountID c.instanceId t.bindings

/-- The entitlement of a redemption that finds none. -/
def Redeemer.fresh (r : Redeemer) (c : EntitlementCode) (t : Grants) : AccountEntitlement :=
  redeemedRow r.d r.accountID c (r.binding c t)

/-- What a committed redemption writes. -/
def Redeemer.write (r : Redeemer) (c : EntitlementCode) (x : AccountEntitlement) (t : Grants) :
    Except Err Grants :=
  let t' := { t with
    entitlements := put AccountEntitlement.id t.entitlements x
    codes := put EntitlementCode.id t.codes
      { c with status := .redeemed, reservedBy := some r.accountID } }
  match r.binding c t with
  | none => .ok t'
  | some b => enqueueEntitlementSyncTx r.d b.id ("redeem:" ++ c.id.text) t'

def Redeemer.redeem (r : Redeemer) (t : Grants) : Except Err Grants :=
  (redeemEntitlementCode sha256 casing r.d r.accountID r.code t).map Prod.snd

/-- Redemptions one after the other. -/
def redeemAll (rs : List Redeemer) (t : Grants) : Except Err Grants :=
  rs.foldlM (fun t r => r.redeem sha256 casing t) t

/-- A step that would have to wait for a lock cannot be taken. -/
def redeemStep : RedeemLabel → RedeemState → Option RedeemState
  | .begin r, s => some { s with phases := s.phases ++ [.begun r] }
  | .lock n, s =>
    match s.phases[n]? with
    | some (.begun r) =>
      match lookup sha256 casing r.code s.tables.toTables with
      | none => some (s.set n .ended)
      | some c =>
        if s.phases.any (fun p => p.code.any fun c' => decide (c'.id = c.id)) then none
        else if c.status ≠ .available then some (s.set n .ended)
        else some (s.set n (.locked r c))
    | _ => none
  | .upsert n, s =>
    match s.phases[n]? with
    | some (.locked r c) =>
      let row := r.fresh c s.tables
      match upsertVersion row (·.redeem r.d c (r.binding c s.tables)) s.tables.entitlements with
      | .error _ => some (s.set n .ended)
      | .ok x =>
        if s.phases.any (fun p => p.row.any fun y =>
          decide (y.id = x.id) || x.slot.isSome && decide (y.slot = x.slot)) then none
        else some (s.set n (.written r c x))
    | _ => none
  | .commit n, s =>
    match s.phases[n]? with
    | some (.written r c x) =>
      match r.write c x s.tables with
      | .error _ => some (s.set n .ended)
      | .ok t => some { s.set n .ended with tables := t, log := s.log ++ [r] }
    | _ => none
  | .stop n, s => if n < s.phases.length then some (s.set n .ended) else none

end

/-! ## The versions of a row -/

section

variable {row x : AccountEntitlement} {set : AccountEntitlement → AccountEntitlement}
  {es : List AccountEntitlement}

/-- An upsert writes its version. -/
theorem upsertEntitlement_version (hset : ∀ e, (set e).id = e.id) :
    upsertEntitlement row set es =
      (upsertVersion row set es).map fun x => (x.id, put AccountEntitlement.id es x) := by
  unfold upsertEntitlement upsertVersion
  cases row.slot.bind fun slot => es.find? (·.slot = some slot) with
  | some e => simp only [Except.map, hset]
  | none =>
    dsimp only
    split
    · rfl
    · next hfree =>
      have hnew : ∀ y ∈ [row], ∀ x ∈ es, x.id ≠ y.id := by
        intro y hy x hx he
        rw [List.mem_singleton.1 hy] at he
        exact hfree (List.any_eq_true.2 ⟨x, hx, decide_eq_true he⟩)
      simp only [Except.map, Txn.put, overlay_of_fresh hnew]

theorem find_slot {slot : Slot} {e : AccountEntitlement}
    (h : es.find? (·.slot = some slot) = some e) : e ∈ es ∧ e.slot = some slot := by
  have hslot := List.find?_some h
  exact ⟨List.mem_of_find?_eq_some h, of_decide_eq_true hslot⟩

/-- The version of an entitlement that there is, or a new row that is none of those there are. -/
def VersionOf (row : AccountEntitlement) (set : AccountEntitlement → AccountEntitlement)
    (es : List AccountEntitlement) (x : AccountEntitlement) : Prop :=
  (∃ e ∈ es, e.slot = row.slot ∧ e.slot ≠ none ∧ x = set e) ∨
    x = row ∧ (∀ e ∈ es, e.id ≠ row.id) ∧ (row.slot ≠ none → ∀ e ∈ es, e.slot ≠ row.slot)

/-- No two entitlements have one entry in the unique index. -/
def UniqueSlots (es : List AccountEntitlement) : Prop :=
  ∀ e ∈ es, ∀ e' ∈ es, e.slot = e'.slot → e.slot ≠ none → e = e'

theorem versionOf_iff (hu : UniqueSlots es) :
    upsertVersion row set es = .ok x ↔ VersionOf row set es x := by
  unfold upsertVersion VersionOf
  constructor
  · intro h
    split at h
    · next e he =>
      obtain ⟨slot, hslot, he⟩ := Option.bind_eq_some_iff.1 he
      obtain ⟨hmem, hes⟩ := find_slot he
      refine Or.inl ⟨e, hmem, hes.trans hslot.symm, ?_, (Except.ok.inj h).symm⟩
      rw [hes]
      exact nofun
    · next hnone =>
      split at h
      · cases h
      · next hfree =>
        refine Or.inr ⟨(Except.ok.inj h).symm, fun e he hid => hfree ?_, fun hsome e he hslot => ?_⟩
        · exact List.any_eq_true.2 ⟨e, he, decide_eq_true hid⟩
        · obtain ⟨slot, hs⟩ := Option.ne_none_iff_exists'.1 hsome
          rw [hs, Option.bind_some] at hnone
          exact List.find?_eq_none.1 hnone e he (decide_eq_true (hslot.trans hs))
  · rintro (⟨e, he, hslot, hsome, rfl⟩ | ⟨rfl, hid, hslot⟩)
    · obtain ⟨slot, hs⟩ := Option.ne_none_iff_exists'.1 hsome
      rw [← hslot, hs, Option.bind_some]
      cases hf : es.find? (·.slot = some slot) with
      | none => exact absurd (decide_eq_true hs) (List.find?_eq_none.1 hf e he)
      | some e' =>
        obtain ⟨hmem, hs'⟩ := find_slot hf
        rw [hu e he e' hmem (hs.trans hs'.symm) hsome]
    · split
      · next e he =>
        obtain ⟨slot, hs, he⟩ := Option.bind_eq_some_iff.1 he
        obtain ⟨hmem, hes⟩ := find_slot he
        refine absurd (hes.trans hs.symm) (hslot ?_ e hmem)
        rw [hs]
        exact nofun
      · rw [if_neg]
        rw [List.any_eq_true]
        rintro ⟨e, he, h⟩
        exact hid e he (of_decide_eq_true h)

/-- The version of one row stays a version when another row is written. -/
theorem VersionOf.put {y : AccountEntitlement} (hset : ∀ e, (set e).id = e.id)
    (h : VersionOf row set es x) (hid : y.id ≠ x.id)
    (hne : y.slot = x.slot → y.slot = none) :
    VersionOf row set (put AccountEntitlement.id es y) x := by
  rcases h with ⟨e, he, heslot, hsome, rfl⟩ | ⟨rfl, hfree, hfreeslot⟩
  · refine Or.inl ⟨e, mem_put.2 (Or.inl ⟨he, fun h => hid ?_⟩), heslot, hsome, rfl⟩
    rw [hset, h]
  · refine Or.inr ⟨rfl, fun e he => ?_, fun hsome e he => ?_⟩
    · rcases mem_put.1 he with ⟨he, -⟩ | rfl
      · exact hfree e he
      · exact hid
    · rcases mem_put.1 he with ⟨he, -⟩ | rfl
      · exact hfreeslot hsome e he
      · exact fun h => hsome (h.symm.trans (hne h))

theorem UniqueSlots.put (hset : ∀ e, (set e).id = e.id) (hslot : ∀ e, (set e).slot = e.slot)
    (hu : UniqueSlots es) (h : VersionOf row set es x) :
    UniqueSlots (put AccountEntitlement.id es x) := by
  have hother : ∀ e ∈ es, e.id ≠ x.id → e.slot = x.slot → e.slot = none := by
    intro e he hid hs
    by_contra hsome
    rcases h with ⟨e', he', -, hsome', rfl⟩ | ⟨rfl, -, hfree⟩
    · rw [hslot] at hs
      rw [hset, hu e he e' he' hs hsome] at hid
      exact hid rfl
    · exact hfree (hs ▸ hsome) e he hs
  intro e he e' he' hs hsome
  rcases mem_put.1 he with ⟨hmem, hid⟩ | hx
  · rcases mem_put.1 he' with ⟨hmem', -⟩ | hx'
    · exact hu e hmem e' hmem' hs hsome
    · exact absurd (hother e hmem hid (hx' ▸ hs)) hsome
  · rcases mem_put.1 he' with ⟨hmem', hid⟩ | hx'
    · rw [hx] at hs hsome
      exact absurd (hs.trans (hother e' hmem' hid hs.symm)) hsome
    · rw [hx, hx']

end

/-! ## What the locks keep apart -/

section

variable {sha256 : Bytes → Bytes} {casing : Casing}

/-- The code is the committed one, and it is available. -/
def Holds (sha256 : Bytes → Bytes) (casing : Casing) (r : Redeemer) (c : EntitlementCode) (t : Grants) :
    Prop :=
  c ∈ t.codes ∧ c.status = .available ∧ c.codeHash = entitlementDigest sha256 casing r.code

/-- What a transaction has read is still so. -/
def Phase.Sound (sha256 : Bytes → Bytes) (casing : Casing) (t : Grants) : Phase → Prop
  | .begun _ | .ended => True
  | .locked r c => Holds sha256 casing r c t
  | .written r c x => Holds sha256 casing r c t ∧
      VersionOf (r.fresh c t) (·.redeem r.d c (r.binding c t)) t.entitlements x

/-- Two transactions have locked different rows. -/
def Phase.Disjoint (p q : Phase) : Prop :=
  (∀ c ∈ p.code, ∀ c' ∈ q.code, c.id ≠ c'.id) ∧
    ∀ x ∈ p.row, ∀ y ∈ q.row, x.id ≠ y.id ∧ (x.slot = y.slot → x.slot = none)

theorem Phase.Disjoint.symm {p q : Phase} (h : p.Disjoint q) : q.Disjoint p :=
  ⟨fun c hc c' hc' => Ne.symm (h.1 c' hc' c hc), fun x hx y hy =>
    ⟨Ne.symm (h.2 y hy x hx).1, fun hs => hs.trans ((h.2 y hy x hx).2 hs.symm)⟩⟩

/-- The unique indexes of the tables. -/
structure Indexed (t : Grants) : Prop where
  ids : UniqueBy EntitlementCode.id t.codes
  hashes : UniqueBy EntitlementCode.codeHash t.codes
  rows : UniqueBy AccountEntitlement.id t.entitlements
  slots : UniqueSlots t.entitlements

structure Apart (sha256 : Bytes → Bytes) (casing : Casing) (s : RedeemState) : Prop where
  indexed : Indexed s.tables
  sound : ∀ p ∈ s.phases, p.Sound sha256 casing s.tables
  disjoint : ∀ (n m : Nat) (p q : Phase), n ≠ m → s.phases[n]? = some p → s.phases[m]? = some q → p.Disjoint q

theorem get_set {s : RedeemState} {n m : Nat} {p q : Phase} (h : (s.set n q).phases[m]? = some p) :
    (m = n ∧ p = q) ∨ (m ≠ n ∧ s.phases[m]? = some p) := by
  by_cases hm : n = m
  · subst hm
    simp only [RedeemState.set, List.getElem?_set_self'] at h
    cases hn : s.phases[n]? with
    | none => rw [hn] at h; cases h
    | some p' =>
      rw [hn] at h
      exact Or.inl ⟨rfl, (Option.some_inj.1 h).symm⟩
  · rw [RedeemState.set, List.getElem?_set_ne hm] at h
    exact Or.inr ⟨Ne.symm hm, h⟩

/-- One transaction goes on. -/
theorem Apart.set {s : RedeemState} {n : Nat} {q : Phase} (h : Apart sha256 casing s)
    (hsound : q.Sound sha256 casing s.tables)
    (hdisjoint : ∀ (m : Nat) (p : Phase), m ≠ n → s.phases[m]? = some p → p.Disjoint q) :
    Apart sha256 casing (s.set n q) := by
  refine ⟨h.indexed, fun p hp => ?_, fun a b p p' hne ha hb => ?_⟩
  · rcases List.mem_or_eq_of_mem_set hp with hp | rfl
    · exact h.sound p hp
    · exact hsound
  · rcases get_set ha with ⟨rfl, rfl⟩ | ⟨han, hap⟩
    · rcases get_set hb with ⟨rfl, -⟩ | ⟨hbn, hbp⟩
      · exact absurd rfl hne
      · exact (hdisjoint b p' hbn hbp).symm
    · rcases get_set hb with ⟨rfl, rfl⟩ | ⟨-, hbp⟩
      · exact hdisjoint a p han hap
      · exact h.disjoint a b p p' hne hap hbp

theorem Apart.ended {s : RedeemState} {n : Nat} (h : Apart sha256 casing s) :
    Apart sha256 casing (s.set n .ended) :=
  h.set trivial fun _ _ _ _ => ⟨fun _ _ _ => nofun, fun _ _ _ => nofun⟩

theorem AccountEntitlement.redeem_id {d : Draw} {c : EntitlementCode} {b : Option Binding}
    (e : AccountEntitlement) : (e.redeem d c b).id = e.id := rfl

theorem AccountEntitlement.redeem_slot {d : Draw} {c : EntitlementCode} {b : Option Binding}
    (e : AccountEntitlement) : (e.redeem d c b).slot = e.slot := rfl

theorem lookup_iff {t : Grants} (hu : UniqueBy EntitlementCode.codeHash t.codes) {code : String}
    {c : EntitlementCode} : lookup sha256 casing code t.toTables = some c ↔
      c ∈ t.codes ∧ c.codeHash = entitlementDigest sha256 casing code := by
  unfold lookup
  constructor
  · intro h
    have hhash := List.find?_some h
    exact ⟨List.mem_of_find?_eq_some h, of_decide_eq_true hhash⟩
  · rintro ⟨hc, hhash⟩
    rw [← hhash]
    exact hu.find?_eq hc

/-- What a redemption leaves of the tables. -/
theorem write_tables {r : Redeemer} {c : EntitlementCode} {x : AccountEntitlement} {t t' : Grants}
    (h : r.write c x t = .ok t') : t'.bindings = t.bindings ∧
      t'.entitlements = put AccountEntitlement.id t.entitlements x ∧
      t'.codes = put EntitlementCode.id t.codes
        { c with status := .redeemed, reservedBy := some r.accountID } := by
  unfold Redeemer.write at h
  dsimp only at h
  split at h
  · cases h
    exact ⟨rfl, rfl, rfl⟩
  · have htables := enqueue_tables h
    exact ⟨by rw [htables], by rw [htables], by rw [htables]⟩

/-- **A commit is the call.**  What a transaction under its locks writes is what the call writes that runs
when it commits. -/
theorem write_eq_redeem {r : Redeemer} {c : EntitlementCode} {x : AccountEntitlement} {t : Grants}
    (hu : Indexed t) (h : (Phase.written r c x).Sound sha256 casing t) :
    r.redeem sha256 casing t = r.write c x t := by
  obtain ⟨⟨hc, hstatus, hhash⟩, hversion⟩ := h
  have hlookup := (lookup_iff hu.hashes).2 ⟨hc, hhash⟩
  have hrow := (versionOf_iff hu.slots).2 hversion
  have hupsert : upsertEntitlement (r.fresh c t) (·.redeem r.d c (r.binding c t)) t.entitlements =
      .ok (x.id, put AccountEntitlement.id t.entitlements x) := by
    rw [upsertEntitlement_version fun e => e.redeem_id, hrow]
    rfl
  have hcall : redeemEntitlementCode sha256 casing r.d r.accountID r.code t =
      (r.write c x t).map fun t' => (x.id, t') := by
    unfold redeemEntitlementCode Redeemer.write
    rw [hlookup]
    show (if c.status ≠ .available then _ else _) = _
    rw [if_neg (not_not.2 hstatus)]
    show (upsertEntitlement (r.fresh c t) (·.redeem r.d c (r.binding c t)) t.entitlements >>= _) = _
    rw [hupsert]
    have hmap : ∀ y : Except Err Grants, (y >>= fun t' => pure (x.id, t')) = y.map fun t' => (x.id, t') := by
      intro y
      cases y <;> rfl
    show (match r.binding c t with | none => pure (x.id, _) | some b => _ >>= _) = _
    cases r.binding c t with
    | none => rfl
    | some b => exact hmap _
  unfold Redeemer.redeem
  rw [hcall]
  cases r.write c x t <;> rfl

/-! ## Steps -/

variable {r : Redeemer} {c : EntitlementCode} {x : AccountEntitlement} {t t' : Grants} {s s' : RedeemState}

theorem Indexed.write (hu : Indexed t) (hp : (Phase.written r c x).Sound sha256 casing t)
    (h : r.write c x t = .ok t') : Indexed t' := by
  obtain ⟨⟨hc, -, -⟩, hversion⟩ := hp
  obtain ⟨-, hentitlements, hcodes⟩ := write_tables h
  refine ⟨?_, ?_, ?_, ?_⟩
  · rw [hcodes]
    exact hu.ids.put fun _ _ he => he
  · rw [hcodes]
    refine hu.hashes.put fun y hy he => ?_
    have hy : y = c := hu.hashes.eq hy hc he
    rw [hy]
  · rw [hentitlements]
    exact hu.rows.put fun _ _ he => he
  · rw [hentitlements]
    exact hu.slots.put (fun e => e.redeem_id) (fun e => e.redeem_slot) hversion

theorem Holds.write {r' : Redeemer} {c' : EntitlementCode} (h : Holds sha256 casing r' c' t)
    (hne : c'.id ≠ c.id) (hw : r.write c x t = .ok t') : Holds sha256 casing r' c' t' := by
  obtain ⟨hc, hrest⟩ := h
  refine ⟨?_, hrest⟩
  rw [(write_tables hw).2.2]
  exact mem_put.2 (Or.inl ⟨hc, hne⟩)

/-- The commit of a transaction leaves what the others have read. -/
theorem Phase.Sound.write {q : Phase} (hq : q.Sound sha256 casing t)
    (hne : q.Disjoint (.written r c x)) (hw : r.write c x t = .ok t') : q.Sound sha256 casing t' := by
  cases q with
  | begun => trivial
  | ended => trivial
  | locked r' c' => exact Holds.write hq (hne.1 c' rfl c rfl) hw
  | written r' c' x' =>
    obtain ⟨hholds, hversion⟩ := hq
    refine ⟨hholds.write (hne.1 c' rfl c rfl) hw, ?_⟩
    have hbinding : r'.binding c' t' = r'.binding c' t := by
      unfold Redeemer.binding
      rw [(write_tables hw).1]
    unfold Redeemer.fresh
    rw [hbinding, (write_tables hw).2.1]
    obtain ⟨hid, hslot⟩ := hne.2 x' rfl x rfl
    exact hversion.put (fun e => e.redeem_id) hid.symm fun hs => hs.trans (hslot hs.symm)

theorem mem_of_get {n : Nat} {p : Phase} (h : s.phases[n]? = some p) : p ∈ s.phases :=
  List.mem_of_getElem? h

/-- A transaction locks its code. -/
theorem Apart.lock {n : Nat} (h : Apart sha256 casing s)
    (hc : lookup sha256 casing r.code s.tables.toTables = some c)
    (hfree : ∀ p ∈ s.phases, ∀ c' ∈ p.code, c'.id ≠ c.id) (hstatus : c.status = .available) :
    Apart sha256 casing (s.set n (.locked r c)) := by
  obtain ⟨hmem, hhash⟩ := (lookup_iff h.indexed.hashes).1 hc
  refine h.set ⟨hmem, hstatus, hhash⟩ fun m p _ hp => ⟨fun c' hc' c'' hc'' => ?_, fun _ _ => nofun⟩
  cases hc''
  exact hfree p (mem_of_get hp) c' hc'

/-- A transaction writes its entitlement. -/
theorem Apart.upsert {n : Nat} (h : Apart sha256 casing s) (hn : s.phases[n]? = some (.locked r c))
    (hx : upsertVersion (r.fresh c s.tables) (·.redeem r.d c (r.binding c s.tables))
      s.tables.entitlements = .ok x)
    (hfree : ∀ p ∈ s.phases, ∀ y ∈ p.row, y.id ≠ x.id ∧ (y.slot = x.slot → y.slot = none)) :
    Apart sha256 casing (s.set n (.written r c x)) := by
  refine h.set ⟨h.sound _ (mem_of_get hn), (versionOf_iff h.indexed.slots).1 hx⟩
    fun m p hne hp => ⟨fun c' hc' c'' hc'' => ?_, fun y hy x' hx' => ?_⟩
  · exact (h.disjoint m n p _ hne hp hn).1 c' hc' c'' hc''
  · cases hx'
    exact hfree p (mem_of_get hp) y hy

/-- A transaction commits. -/
theorem Apart.commit {n : Nat} (h : Apart sha256 casing s) (hn : s.phases[n]? = some (.written r c x))
    (hw : r.write c x s.tables = .ok t) :
    Apart sha256 casing { s.set n .ended with tables := t, log := s.log ++ [r] } := by
  have hp := h.sound _ (mem_of_get hn)
  have hset := h.ended (n := n)
  refine ⟨h.indexed.write hp hw, fun q hq => ?_, hset.disjoint⟩
  obtain ⟨m, hm⟩ := List.mem_iff_getElem?.1 hq
  rcases get_set hm with ⟨-, rfl⟩ | ⟨hne, hm⟩
  · trivial
  · exact (h.sound q (mem_of_get hm)).write (h.disjoint m n q _ hne hm hn) hw

/-- The tables are those that the committed redemptions leave one after the other. -/
def Serial (sha256 : Bytes → Bytes) (casing : Casing) (t₀ : Grants) (s : RedeemState) : Prop :=
  Apart sha256 casing s ∧ redeemAll sha256 casing s.log t₀ = .ok s.tables

theorem redeemAll_snoc {rs : List Redeemer} (h : redeemAll sha256 casing rs t = .ok t') :
    redeemAll sha256 casing (rs ++ [r]) t = r.redeem sha256 casing t' := by
  unfold redeemAll at h ⊢
  rw [List.foldlM_append, h]
  show (r.redeem sha256 casing t' >>= pure) = _
  cases r.redeem sha256 casing t' <;> rfl

/-- **One step.** -/
theorem step_serial {t₀ : Grants} {l : RedeemLabel} (hl : redeemStep sha256 casing l s = some s')
    (h : Serial sha256 casing t₀ s) : Serial sha256 casing t₀ s' := by
  obtain ⟨hapart, hlog⟩ := h
  cases l with
  | begin r =>
    cases hl
    refine ⟨⟨hapart.indexed, fun p hp => ?_, fun n m p q hne hn hm => ?_⟩, hlog⟩
    · rcases List.mem_append.1 hp with hp | hp
      · exact hapart.sound p hp
      · rw [List.mem_singleton.1 hp]
        trivial
    · have hbegun : ∀ {k : Nat} {p : Phase}, (s.phases ++ [.begun r])[k]? = some p →
          p = .begun r ∨ s.phases[k]? = some p := by
        intro k p hk
        rcases Nat.lt_trichotomy k s.phases.length with hlt | heq | hgt
        · rw [List.getElem?_append_left hlt] at hk
          exact Or.inr hk
        · rw [heq, List.getElem?_concat_length] at hk
          exact Or.inl (Option.some_inj.1 hk).symm
        · rw [List.getElem?_eq_none (by rw [List.length_append]; exact hgt)] at hk
          cases hk
      rcases hbegun hn with rfl | hn
      · exact ⟨fun _ => nofun, fun _ => nofun⟩
      · rcases hbegun hm with rfl | hm
        · exact ⟨fun _ _ _ => nofun, fun _ _ _ => nofun⟩
        · exact hapart.disjoint n m p q hne hn hm
  | lock n =>
    simp only [redeemStep] at hl
    split at hl
    · next r hn =>
      split at hl
      · cases hl
        exact ⟨hapart.ended, hlog⟩
      · next c hc =>
        split at hl
        · cases hl
        · next hfree =>
          split at hl
          · cases hl
            exact ⟨hapart.ended, hlog⟩
          · next hstatus =>
            cases hl
            refine ⟨hapart.lock hc (fun p hp c' hc' he => hfree ?_) (not_not.1 hstatus), hlog⟩
            exact List.any_eq_true.2 ⟨p, hp, (Option.any_eq_true _ _).2 ⟨c', hc', decide_eq_true he⟩⟩
    · cases hl
  | upsert n =>
    simp only [redeemStep] at hl
    split at hl
    · next r c hn =>
      split at hl
      · cases hl
        exact ⟨hapart.ended, hlog⟩
      · next x hx =>
        split at hl
        · cases hl
        · next hfree =>
          cases hl
          refine ⟨hapart.upsert hn hx fun p hp y hy => ?_, hlog⟩
          have hy' : ¬(decide (y.id = x.id) || x.slot.isSome && decide (y.slot = x.slot)) = true := by
            intro hbusy
            exact hfree (List.any_eq_true.2 ⟨p, hp, (Option.any_eq_true _ _).2 ⟨y, hy, hbusy⟩⟩)
          rw [Bool.or_eq_true, Bool.and_eq_true, decide_eq_true_eq, decide_eq_true_eq, not_or,
            not_and] at hy'
          refine ⟨hy'.1, fun hs => ?_⟩
          by_contra hsome
          exact hy'.2 (Option.isSome_iff_ne_none.2 (hs ▸ hsome)) hs
    · cases hl
  | commit n =>
    simp only [redeemStep] at hl
    split at hl
    · next r c x hn =>
      split at hl
      · cases hl
        exact ⟨hapart.ended, hlog⟩
      · next t hw =>
        cases hl
        refine ⟨hapart.commit hn hw, ?_⟩
        rw [redeemAll_snoc hlog, write_eq_redeem hapart.indexed (hapart.sound _ (mem_of_get hn)), hw]
    · cases hl
  | stop n =>
    simp only [redeemStep] at hl
    split at hl
    · cases hl
      exact ⟨hapart.ended, hlog⟩
    · cases hl

end

/-- **Redemptions are serializable.**  However their steps interleave, and whichever of them stop, the
redemptions that have been committed leave what they leave one after the other, in the order of their
commits. -/
theorem redemptions_serializable {sha256 : Bytes → Bytes} {casing : Casing} {s₀ s : RedeemState}
    (hindexed : Indexed s₀.tables) (hphases : s₀.phases = []) (hlog : s₀.log = [])
    (h : Runs (redeemStep sha256 casing) anyStep s₀ s) :
    redeemAll sha256 casing s.log s₀.tables = .ok s.tables := by
  have hapart : Apart sha256 casing s₀ := by
    refine ⟨hindexed, fun p hp => ?_, fun n m p q _ hn => ?_⟩
    · rw [hphases] at hp
      cases hp
    · rw [hphases] at hn
      cases hn
  have hempty : redeemAll sha256 casing s₀.log s₀.tables = .ok s₀.tables := by
    rw [hlog]
    rfl
  have hstep : ∀ (l : RedeemLabel) (t t' : RedeemState), anyStep l t → redeemStep sha256 casing l t = some t' →
      Serial sha256 casing s₀.tables t → Serial sha256 casing s₀.tables t' :=
    fun l t t' _ hl ht => step_serial hl ht
  exact (h.keeps (And.intro hapart hempty) hstep).2

/-! ## Two codes -/

/-- A code for the films of an instance, as long as its text. -/
def filmCode (id : Char) (text : String) (days : Int64) : EntitlementCode where
  id := idOf id
  codeHash := bytesOf text
  codePrefix := text
  codeHint := text
  instanceId := some (idOf 'i')
  resourceKey := "films"
  durationDays := days
  issuedBy := "owner"
  createdAt := 0

def filmCodes : RedeemState where
  tables := { codes := [filmCode 'c' "ONE" 30, filmCode 'd' "TWO" 60] }

/-- The account redeems a code. -/
def redeemer (id : Char) (code : String) : Redeemer :=
  ⟨⟨idOf id, idOf id, 0, 0⟩, idOf 'a', code⟩

/-- Cases of letters that stay as they are. -/
def sameCase : Casing := ⟨id, id, rfl, fun _ => Iff.rfl⟩

theorem filmCodes_indexed : Indexed filmCodes.tables := by
  refine ⟨by unfold UniqueBy; decide, by unfold UniqueBy; decide, uniqueBy_nil, ?_⟩
  intro e he
  cases he

/-- The second transaction locks its code before the first has committed. -/
def filmSchedule : List RedeemLabel :=
  [.begin (redeemer 'x' "ONE"), .begin (redeemer 'y' "TWO"), .lock 0, .lock 1, .upsert 0, .commit 0,
    .upsert 1, .commit 1]

theorem redemptions_serializable_films : ∃ s : RedeemState, s.log.length = 2 ∧
    redeemAll id sameCase s.log filmCodes.tables = .ok s.tables := by
  obtain ⟨s, hrun, hs⟩ := play_any (redeemStep id sameCase) anyStep filmSchedule filmCodes
    (fun s => s.log.length == 2) (by decide +kernel)
  exact ⟨s, eq_of_beq hs, redemptions_serializable filmCodes_indexed rfl rfl hrun⟩

end Sakura.Entitlements
