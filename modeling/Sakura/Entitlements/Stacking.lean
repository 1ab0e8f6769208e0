/-
  What the codes of an account add up to (platform/access_lines.go).

  * `Resource`, `Redeemer.isFor`: an account and a resource, and the redemptions for it;
  * `Extends`: an entitlement whose days are those of all codes;
  * `Stacked`: the invariant, `redeem_stacked`: one redemption;
  * `codes_add_up_iff`: the codes of a run add up if there is an instance to attach the entitlement to, or
    there is one code only.
-/
import Sakura.Entitlements.Redeemers

namespace Sakura.Entitlements

open Txn Queue

/-! ## Codes for a resource -/

/-- A resource that an account may be entitled to. -/
structure Resource where
  accountId : UUID
  resourceKind : String
  resourceKey : String
  deriving DecidableEq

/-- The entitlement is to the resource. -/
def Resource.covers (a : Resource) (e : AccountEntitlement) : Bool :=
  ⟨e.accountId, e.resourceKind, e.resourceKey⟩ = a

/-- The code is for the resource, if the account redeems it. -/
def Resource.takes (a : Resource) (accountID : UUID) (c : EntitlementCode) : Bool :=
  ⟨accountID, c.resourceKind, c.resourceKey⟩ = a

section

variable (sha256 : Bytes → Bytes) (casing : Casing)

/-- The row of the code, before any redemption. -/
def Redeemer.codeIn (t : Grants) (r : Redeemer) : Option EntitlementCode :=
  lookup sha256 casing r.code t.toTables

/-- The redemption is for the resource. -/
def Redeemer.isFor (a : Resource) (t : Grants) (r : Redeemer) : Bool :=
  (r.codeIn sha256 casing t).any (a.takes r.accountID)

def Redeemer.days (t : Grants) (r : Redeemer) : Int :=
  (r.codeIn sha256 casing t).elim 0 (·.durationDays.toInt)

/-- The entitlement is active, and its days are those of all codes from the first redemption on; it is
attached to the binding, if there is one. -/
structure Extends (t : Grants) (b : Option Binding) (first : Redeemer) (rest : List Redeemer)
    (e : AccountEntitlement) : Prop where
  status : e.status = .active
  expiresAt : e.expiresAt =
    first.d.now + ((first :: rest).map (·.days sha256 casing t)).sum * dayNanos
  bindingId : e.bindingId = b.map (·.id)

/-- Each code is consumed once, and there is one entitlement to the resource, which all codes extend. -/
structure AddsUp (a : Resource) (field : Option UUID) (rs : List Redeemer) (t₀ t : Grants) : Prop where
  once : (rs.map fun r => (r.codeIn sha256 casing t₀).map (·.id)).Nodup
  consumed : ∀ r ∈ rs, ∃ c c', r.codeIn sha256 casing t₀ = some c ∧ c.status = .available ∧
    c' ∈ t.codes ∧ c'.id = c.id ∧ c'.status = .redeemed ∧ c'.reservedBy = some a.accountId
  single : ∃ first rest e, rs = first :: rest ∧ t.entitlements.filter a.covers = [e] ∧
    Extends sha256 casing t₀ (bindingFor a.accountId field t₀.bindings) first rest e

/-- No redemption for the resource comes when its entitlement has expired. -/
def Unexpired (a : Resource) (rs : List Redeemer) (t₀ : Grants) : Prop :=
  ∀ pre r post t, rs = pre ++ r :: post → redeemAll sha256 casing pre t₀ = .ok t →
    r.isFor sha256 casing a t₀ = true →
    ∀ e ∈ t.entitlements, a.covers e = true → r.d.now ≤ e.expiresAt

end

/-- There is an instance for the entitlement: that of the codes, or that of a binding. -/
def Located (a : Resource) (field : Option UUID) (t : Grants) : Prop :=
  field.or ((bindingFor a.accountId field t.bindings).map (·.instanceId)) ≠ none

/-! ## One redemption -/

section

variable {sha256 : Bytes → Bytes} {casing : Casing} {a : Resource} {field : Option UUID}
  {t₀ t t' : Grants} {r : Redeemer} {rs : List Redeemer} {es : List AccountEntitlement}
  {x : AccountEntitlement}

theorem filter_put (keep : AccountEntitlement → Bool) (es : List AccountEntitlement)
    (x : AccountEntitlement) : (put AccountEntitlement.id es x).filter keep =
      (es.filter keep).filter (·.id ≠ x.id) ++ [x].filter keep := by
  unfold put overlay
  rw [List.filter_append, List.filter_comm]
  congr 2
  funext e
  simp

/-- What a redemption reads and writes. -/
theorem redeem_version (hu : Indexed t) (h : r.redeem sha256 casing t = .ok t') :
    ∃ c x, (Phase.written r c x).Sound sha256 casing t ∧ r.write c x t = .ok t' := by
  obtain ⟨⟨id, t''⟩, hcall, rfl⟩ := map_ok h
  obtain ⟨c, hc, -, hstatus, b, rfl, hupsert, -⟩ := redeem_ok hcall
  obtain ⟨hmem, hhash⟩ := (lookup_iff hu.hashes).1 hc
  rw [upsertEntitlement_version fun e => e.redeem_id] at hupsert
  obtain ⟨x, hx, -⟩ := map_ok hupsert
  have hsound : (Phase.written r c x).Sound sha256 casing t :=
    ⟨⟨hmem, hstatus, hhash⟩, (versionOf_iff hu.slots).1 hx⟩
  exact ⟨c, x, hsound, by rw [← write_eq_redeem hu hsound, h]⟩

/-- The codes that redemptions have consumed, and those that are left. -/
structure Consumed (sha256 : Bytes → Bytes) (casing : Casing) (t₀ : Grants) (rs : List Redeemer)
    (t : Grants) : Prop where
  indexed : Indexed t
  bindings : t.bindings = t₀.bindings
  once : (rs.map fun r => (r.codeIn sha256 casing t₀).map (·.id)).Nodup
  consumed : ∀ r ∈ rs, ∃ c, r.codeIn sha256 casing t₀ = some c ∧ c.status = .available ∧
    { c with status := .redeemed, reservedBy := some r.accountID } ∈ t.codes
  left : ∀ c ∈ t.codes, c.status = .available → c ∈ t₀.codes

theorem consumed_nil (hu : Indexed t₀) : Consumed sha256 casing t₀ [] t₀ :=
  ⟨hu, rfl, List.nodup_nil, (fun _ hr => nomatch hr), fun _ hc _ => hc⟩

/-- One more code is consumed. -/
theorem Consumed.snoc {c : EntitlementCode} (hu : Indexed t₀) (h : Consumed sha256 casing t₀ rs t)
    (hp : (Phase.written r c x).Sound sha256 casing t) (hw : r.write c x t = .ok t') :
    r.codeIn sha256 casing t₀ = some c ∧ Consumed sha256 casing t₀ (rs ++ [r]) t' := by
  obtain ⟨hbindings, -, hcodes⟩ := write_tables hw
  obtain ⟨⟨hc, hstatus, hhash⟩, -⟩ := id hp
  have hcode : r.codeIn sha256 casing t₀ = some c :=
    (lookup_iff hu.hashes).2 ⟨h.left c hc hstatus, hhash⟩
  -- the rows that have been redeemed are other rows
  have hother : ∀ r' ∈ rs, ∀ c', r'.codeIn sha256 casing t₀ = some c' → c'.id ≠ c.id := by
    intro r' hr' c' hc' hid
    obtain ⟨c'', hc'', -, hmem⟩ := h.consumed r' hr'
    obtain rfl := Option.some_inj.1 (hc'.symm.trans hc'')
    have hrow := h.indexed.ids.eq hmem hc hid
    rw [← hrow] at hstatus
    cases hstatus
  refine ⟨hcode, h.indexed.write hp hw, hbindings.trans h.bindings, ?_, ?_, ?_⟩
  · rw [List.map_append, List.map_singleton, hcode]
    refine List.nodup_append.2 ⟨h.once, List.nodup_singleton _, fun id hid id' hid' he => ?_⟩
    obtain ⟨r', hr', rfl⟩ := List.mem_map.1 hid
    rw [List.mem_singleton.1 hid'] at he
    obtain ⟨c', hc', he⟩ := Option.map_eq_some_iff.1 he
    exact hother r' hr' c' hc' he
  · intro r' hr'
    rw [hcodes]
    rcases List.mem_append.1 hr' with hr' | hr'
    · obtain ⟨c', hc', havailable, hmem⟩ := h.consumed r' hr'
      exact ⟨c', hc', havailable, mem_put.2 (Or.inl ⟨hmem, hother r' hr' c' hc'⟩)⟩
    · rw [List.mem_singleton.1 hr']
      exact ⟨c, hcode, hstatus, mem_put.2 (Or.inr rfl)⟩
  · intro c' hc' havailable
    rw [hcodes] at hc'
    rcases mem_put.1 hc' with ⟨hc', -⟩ | rfl
    · exact h.left c' hc' havailable
    · cases havailable

/-! ## The entitlements to the resource -/

/-- The entitlements to the resource when redemptions for it have been committed. -/
structure Stacked (sha256 : Bytes → Bytes) (casing : Casing) (a : Resource) (field : Option UUID)
    (t₀ : Grants) (rs : List Redeemer) (es : List AccountEntitlement) : Prop where
  empty : rs = [] → es = []
  instance_ : ∀ e ∈ es, e.instanceId =
    field.or ((bindingFor a.accountId field t₀.bindings).map (·.instanceId))
  located : Located a field t₀ → ∀ first rest, rs = first :: rest → ∃ e, es = [e] ∧
    Extends sha256 casing t₀ (bindingFor a.accountId field t₀.bindings) first rest e
  length : ¬Located a field t₀ → es.length = rs.length
  single : ∀ first, rs = [first] → ∃ e, es = [e] ∧
    Extends sha256 casing t₀ (bindingFor a.accountId field t₀.bindings) first [] e

theorem covers_fresh {c : EntitlementCode} : a.covers (r.fresh c t) = a.takes r.accountID c := rfl

theorem covers_redeem {d : Draw} {c : EntitlementCode} {b : Option Binding} (e : AccountEntitlement) :
    a.covers (e.redeem d c b) = a.covers e := rfl

/-- Two entitlements of one entry in the index are to one resource. -/
theorem covers_of_slot {e e' : AccountEntitlement} (hs : e.slot = e'.slot) (hsome : e.slot ≠ none) :
    a.covers e = a.covers e' := by
  unfold AccountEntitlement.slot at hs hsome
  cases hi : e.instanceId with
  | none => rw [hi] at hsome; exact absurd rfl hsome
  | some i =>
    cases hi' : e'.instanceId with
    | none => rw [hi, hi'] at hs; cases hs
    | some i' =>
      rw [hi, hi'] at hs
      have hslot := Option.some_inj.1 hs
      simp only [Slot.mk.injEq] at hslot
      unfold Resource.covers
      rw [hslot.1, hslot.2.2.1, hslot.2.2.2]

/-- The rows of one entry in the index for entitlements to one resource on one instance. -/
theorem slot_of_covers {e e' : AccountEntitlement} (he : a.covers e = true) (he' : a.covers e' = true)
    (hi : e.instanceId = e'.instanceId) : e.slot = e'.slot := by
  have h := (of_decide_eq_true he).trans (of_decide_eq_true he').symm
  simp only [Resource.mk.injEq] at h
  unfold AccountEntitlement.slot
  rw [hi, h.1, h.2.1, h.2.2]

theorem slot_eq_none {e : AccountEntitlement} : e.slot = none ↔ e.instanceId = none := by
  unfold AccountEntitlement.slot
  exact Option.map_eq_none_iff

/-- A redemption for another resource. -/
theorem version_other {c : EntitlementCode} (hu : Indexed t)
    (hx : VersionOf (r.fresh c t) (·.redeem r.d c (r.binding c t)) t.entitlements x)
    (hother : a.takes r.accountID c = false) :
    (put AccountEntitlement.id t.entitlements x).filter a.covers = t.entitlements.filter a.covers := by
  have hcovers : a.covers x = false := by
    rcases hx with ⟨e, -, hs, hsome, rfl⟩ | ⟨rfl, -⟩
    · rw [covers_redeem, covers_of_slot hs hsome]
      exact hother
    · exact hother
  rw [filter_put, List.filter_cons_of_neg (by rw [hcovers]; decide), List.filter_nil, List.append_nil]
  refine List.filter_eq_self.2 fun e he => decide_eq_true fun hid => ?_
  obtain ⟨he, hec⟩ := List.mem_filter.1 he
  rcases hx with ⟨e', he', -, -, rfl⟩ | ⟨rfl, hfree, -⟩
  · rw [covers_redeem] at hcovers
    obtain rfl := hu.rows.eq he he' hid
    rw [hec] at hcovers
    cases hcovers
  · exact hfree e he hid

/-- A redemption for the resource, when there is an entitlement on its instance already. -/
theorem version_extend {c : EntitlementCode} {e : AccountEntitlement} (hu : Indexed t)
    (hx : VersionOf (r.fresh c t) (·.redeem r.d c (r.binding c t)) t.entitlements x)
    (hrow : t.entitlements.filter a.covers = [e]) (hs : e.slot = (r.fresh c t).slot)
    (hsome : e.slot ≠ none) :
    (put AccountEntitlement.id t.entitlements x).filter a.covers = [e.redeem r.d c (r.binding c t)] := by
  have he : e ∈ t.entitlements.filter a.covers := by
    rw [hrow]
    exact List.mem_singleton.2 rfl
  obtain ⟨he, hcovers⟩ := List.mem_filter.1 he
  rcases hx with ⟨e', he', hs', -, rfl⟩ | ⟨rfl, -, hfree⟩
  · obtain rfl := hu.slots e he e' he' (hs.trans hs'.symm) hsome
    rw [filter_put, hrow, List.filter_cons_of_neg (by simp [AccountEntitlement.redeem_id]),
      List.filter_nil, List.filter_cons_of_pos (by rw [covers_redeem]; exact hcovers), List.filter_nil,
      List.nil_append]
  · exact absurd hs (hfree (hs ▸ hsome) e he)

/-- A redemption for the resource that makes a new entitlement. -/
theorem version_fresh {c : EntitlementCode}
    (hx : VersionOf (r.fresh c t) (·.redeem r.d c (r.binding c t)) t.entitlements x)
    (htakes : a.takes r.accountID c = true)
    (hnone : ∀ e ∈ t.entitlements, e.slot = (r.fresh c t).slot → e.slot = none) :
    (put AccountEntitlement.id t.entitlements x).filter a.covers =
      t.entitlements.filter a.covers ++ [r.fresh c t] := by
  rcases hx with ⟨e, he, hs, hsome, -⟩ | ⟨rfl, hfree, -⟩
  · exact absurd (hnone e he hs) hsome
  · rw [filter_put, List.filter_cons_of_pos (by rw [covers_fresh]; exact htakes), List.filter_nil]
    congr 1
    exact List.filter_eq_self.2 fun e he => decide_eq_true (hfree e (List.mem_of_mem_filter he))

/-- The entitlement of a code when there was none. -/
theorem extends_fresh {c : EntitlementCode} {b : Option Binding}
    (hcode : r.codeIn sha256 casing t₀ = some c) (hb : r.binding c t = b) :
    Extends sha256 casing t₀ b r [] (r.fresh c t) := by
  refine ⟨rfl, ?_, ?_⟩
  · unfold Redeemer.days
    rw [List.map_singleton, List.sum_singleton, hcode]
    rfl
  · rw [← hb]
    rfl

/-- The entitlement of one more code. -/
theorem Extends.redeem {c : EntitlementCode} {b : Option Binding} {first : Redeemer}
    {rest : List Redeemer} {e : AccountEntitlement} (h : Extends sha256 casing t₀ b first rest e)
    (hcode : r.codeIn sha256 casing t₀ = some c) (hlive : r.d.now ≤ e.expiresAt) :
    Extends sha256 casing t₀ b first (rest ++ [r]) (e.redeem r.d c b) := by
  refine ⟨rfl, ?_, ?_⟩
  · have hdays : r.days sha256 casing t₀ = c.durationDays.toInt := by
      unfold Redeemer.days
      rw [hcode]
      rfl
    show max e.expiresAt r.d.now + c.durationDays.toInt * dayNanos = _
    rw [Int.max_eq_left hlive, h.expiresAt, ← List.cons_append, List.map_append, List.sum_append,
      List.map_singleton, List.sum_singleton, hdays, Int.add_mul, Int.add_assoc]
  · show (b.map (·.id)).or e.bindingId = _
    rw [h.bindingId]
    cases b <;> rfl

/-- **One more redemption for the resource.** -/
theorem Stacked.snoc {c : EntitlementCode} (hu : Indexed t) (hbindings : t.bindings = t₀.bindings)
    (h : Stacked sha256 casing a field t₀ rs (t.entitlements.filter a.covers))
    (hx : VersionOf (r.fresh c t) (·.redeem r.d c (r.binding c t)) t.entitlements x)
    (hcode : r.codeIn sha256 casing t₀ = some c) (htakes : a.takes r.accountID c = true)
    (hfield : c.instanceId = field)
    (hlive : ∀ e ∈ t.entitlements, a.covers e = true → r.d.now ≤ e.expiresAt) :
    Stacked sha256 casing a field t₀ (rs ++ [r])
      ((put AccountEntitlement.id t.entitlements x).filter a.covers) := by
  have haccount : r.accountID = a.accountId := congrArg Resource.accountId (of_decide_eq_true htakes)
  have hb : r.binding c t = bindingFor a.accountId field t₀.bindings := by
    unfold Redeemer.binding
    rw [haccount, hfield, hbindings]
  have hinst : (r.fresh c t).instanceId =
      field.or ((bindingFor a.accountId field t₀.bindings).map (·.instanceId)) := by
    show c.instanceId.or ((r.binding c t).map (·.instanceId)) = _
    rw [hfield, hb]
  have hfresh := extends_fresh hcode hb
  by_cases hlocated : Located a field t₀
  · have hsome : (r.fresh c t).slot ≠ none := by
      rw [Ne, slot_eq_none, hinst]
      exact hlocated
    cases rs with
    | nil =>
      have hempty := h.empty rfl
      have hnew := version_fresh hx htakes fun e he hs => by
        by_contra hslot
        have hcovers : a.covers e = true := (covers_of_slot hs hslot).trans htakes
        have := List.mem_filter.2 ⟨he, hcovers⟩
        rw [hempty] at this
        cases this
      rw [hempty, List.nil_append] at hnew
      rw [hnew]
      refine ⟨nofun, fun e he => ?_, fun _ first rest hrs => ?_, fun hn => absurd hlocated hn,
        fun first hrs => ?_⟩
      · rw [List.mem_singleton.1 he, hinst]
      · cases hrs
        exact ⟨_, rfl, hfresh⟩
      · cases hrs
        exact ⟨_, rfl, hfresh⟩
    | cons first rest =>
      obtain ⟨e, hrow, hext⟩ := h.located hlocated first rest rfl
      have he : e ∈ t.entitlements.filter a.covers := by
        rw [hrow]
        exact List.mem_singleton.2 rfl
      obtain ⟨hmem, hcovers⟩ := List.mem_filter.1 he
      have hslot : e.slot = (r.fresh c t).slot :=
        slot_of_covers hcovers htakes ((h.instance_ e he).trans hinst.symm)
      rw [version_extend hu hx hrow hslot (hslot ▸ hsome)]
      refine ⟨nofun, fun e' he' => ?_, fun _ first' rest' hrs => ?_, fun hn => absurd hlocated hn,
        fun first' hrs => ?_⟩
      · rw [List.mem_singleton.1 he']
        exact h.instance_ e he
      · cases hrs
        rw [hb]
        exact ⟨_, rfl, hext.redeem hcode (hlive e hmem hcovers)⟩
      · cases List.append_eq_nil_iff.1 (List.cons.inj hrs).2 |>.2
  · have hslot : (r.fresh c t).slot = none := by
      rw [slot_eq_none, hinst]
      exact not_not.1 hlocated
    rw [version_fresh hx htakes fun e _ hs => hs.trans hslot]
    refine ⟨fun hrs => ?_, fun e he => ?_, fun hl => absurd hl hlocated, fun _ => ?_, fun first hrs => ?_⟩
    · cases (List.append_eq_nil_iff.1 hrs).2
    · rcases List.mem_append.1 he with he | he
      · exact h.instance_ e he
      · rw [List.mem_singleton.1 he, hinst]
    · rw [List.length_append, List.length_append, h.length hlocated]
      rfl
    · cases rs with
      | nil =>
        cases hrs
        rw [h.empty rfl]
        exact ⟨_, rfl, hfresh⟩
      | cons x xs => cases List.append_eq_nil_iff.1 (List.cons.inj hrs).2 |>.2

/-! ## Runs -/

theorem redeemAll_append_ok (h : redeemAll sha256 casing (rs ++ [r]) t₀ = .ok t') :
    ∃ t, redeemAll sha256 casing rs t₀ = .ok t ∧ r.redeem sha256 casing t = .ok t' := by
  cases hrs : redeemAll sha256 casing rs t₀ with
  | error e =>
    unfold redeemAll at h hrs
    rw [List.foldlM_append, hrs] at h
    cases h
  | ok t => exact ⟨t, rfl, (redeemAll_snoc hrs).symm.trans h⟩

theorem isFor_of_code {c : EntitlementCode} (hcode : r.codeIn sha256 casing t₀ = some c) :
    r.isFor sha256 casing a t₀ = a.takes r.accountID c := by
  unfold Redeemer.isFor
  rw [hcode]
  rfl

/-- **Redemptions one after the other.** -/
theorem redeemAll_stacked (hu : Indexed t₀)
    (hnone : ∀ e ∈ t₀.entitlements, a.covers e = false)
    (hfield : ∀ r ∈ rs, r.isFor sha256 casing a t₀ = true →
      ∀ c, r.codeIn sha256 casing t₀ = some c → c.instanceId = field)
    (hlive : Unexpired sha256 casing a rs t₀) (h : redeemAll sha256 casing rs t₀ = .ok t) :
    Consumed sha256 casing t₀ rs t ∧
      Stacked sha256 casing a field t₀ (rs.filter (·.isFor sha256 casing a t₀))
        (t.entitlements.filter a.covers) := by
  induction rs using List.reverseRecOn generalizing t with
  | nil =>
    cases h
    have hempty : t₀.entitlements.filter a.covers = [] :=
      List.filter_eq_nil_iff.2 fun e he => by rw [hnone e he]; decide
    rw [hempty]
    exact ⟨consumed_nil hu, fun _ => rfl, (fun _ he => nomatch he), (fun _ _ _ h => nomatch h),
      fun _ => rfl, fun _ h => nomatch h⟩
  | append_singleton rs r ih =>
    obtain ⟨m, hm, hr⟩ := redeemAll_append_ok h
    obtain ⟨hconsumed, hstacked⟩ := ih
      (fun r' hr' => hfield r' (List.mem_append_left _ hr'))
      (fun pre r' post t' hsplit => hlive pre r' (post ++ [r]) t'
        (by rw [hsplit, List.append_assoc, List.cons_append])) hm
    obtain ⟨c, x, hp, hw⟩ := redeem_version hconsumed.indexed hr
    obtain ⟨hcode, hconsumed'⟩ := hconsumed.snoc hu hp hw
    refine ⟨hconsumed', ?_⟩
    rw [List.filter_append, (write_tables hw).2.1]
    cases htakes : a.takes r.accountID c with
    | false =>
      rw [List.filter_cons_of_neg (by rw [isFor_of_code hcode, htakes]; decide), List.filter_nil,
        List.append_nil, version_other hconsumed.indexed hp.2 htakes]
      exact hstacked
    | true =>
      have hfor : r.isFor sha256 casing a t₀ = true := (isFor_of_code hcode).trans htakes
      rw [List.filter_cons_of_pos hfor, List.filter_nil]
      exact hstacked.snoc hconsumed.indexed hconsumed.bindings hp.2 hcode htakes
        (hfield r (List.mem_append_right _ (List.mem_singleton.2 rfl)) hfor c hcode)
        (hlive rs r [] m rfl hm hfor)

end

/-- **Codes add up.**  The codes of an account for a resource, redeemed one after the other or side by side,
make one entitlement with the days of all of them exactly if there is an instance for it, or it is one code
only: without an instance no two entitlements are the same to the unique index. -/
theorem codes_add_up_iff {sha256 : Bytes → Bytes} {casing : Casing} {a : Resource}
    {field : Option UUID} {s₀ s : RedeemState} (hindexed : Indexed s₀.tables)
    (hphases : s₀.phases = []) (hlog : s₀.log = [])
    (hnone : ∀ e ∈ s₀.tables.entitlements, a.covers e = false)
    (h : Runs (redeemStep sha256 casing) anyStep s₀ s)
    (hfield : ∀ r ∈ s.log, r.isFor sha256 casing a s₀.tables = true →
      ∀ c, r.codeIn sha256 casing s₀.tables = some c → c.instanceId = field)
    (hlive : Unexpired sha256 casing a s.log s₀.tables)
    (hsome : s.log.filter (·.isFor sha256 casing a s₀.tables) ≠ []) :
    AddsUp sha256 casing a field (s.log.filter (·.isFor sha256 casing a s₀.tables)) s₀.tables s.tables ↔
      Located a field s₀.tables ∨ (s.log.filter (·.isFor sha256 casing a s₀.tables)).length = 1 := by
  have hserial := redemptions_serializable hindexed hphases hlog h
  obtain ⟨hconsumed, hstacked⟩ := redeemAll_stacked hindexed hnone hfield hlive hserial
  constructor
  · intro hadds
    by_cases hlocated : Located a field s₀.tables
    · exact Or.inl hlocated
    · obtain ⟨first, rest, e, -, hrow, -⟩ := hadds.single
      have hlength := hstacked.length hlocated
      rw [hrow] at hlength
      exact Or.inr hlength.symm
  · intro hcond
    refine ⟨(List.filter_sublist.map _).nodup hconsumed.once, fun r hr => ?_, ?_⟩
    · obtain ⟨hr, hfor⟩ := List.mem_filter.1 hr
      obtain ⟨c, hcode, hstatus, hmem⟩ := hconsumed.consumed r hr
      refine ⟨c, _, hcode, hstatus, hmem, rfl, rfl, ?_⟩
      rw [isFor_of_code hcode] at hfor
      exact congrArg (some ∘ Resource.accountId) (of_decide_eq_true hfor)
    · cases hrs : s.log.filter (·.isFor sha256 casing a s₀.tables) with
      | nil => exact absurd hrs hsome
      | cons first rest =>
        rw [hrs] at hcond hstacked
        rcases hcond with hlocated | hone
        · obtain ⟨e, hrow, hext⟩ := hstacked.located hlocated first rest rfl
          exact ⟨first, rest, e, rfl, hrow, hext⟩
        · obtain rfl := List.length_eq_zero_iff.1 (Nat.succ.inj hone)
          obtain ⟨e, hrow, hext⟩ := hstacked.single first rfl
          exact ⟨first, [], e, rfl, hrow, hext⟩

def films : Resource := ⟨idOf 'a', "emby_library", "films"⟩

theorem codes_add_up_films : ∃ s : RedeemState, s.log.length = 2 ∧
    AddsUp id sameCase films (some (idOf 'i'))
      (s.log.filter (·.isFor id sameCase films filmCodes.tables)) filmCodes.tables s.tables := by
  obtain ⟨s, hrun, hs⟩ := play_any (redeemStep id sameCase) anyStep
    filmSchedule filmCodes
    (fun s => s.log.length == 2 && s.log.all (fun r => r.isFor id sameCase films filmCodes.tables &&
        (r.codeIn id sameCase filmCodes.tables).all (·.instanceId = some (idOf 'i'))) &&
      (List.range 2).all fun k =>
        (redeemAll id sameCase (s.log.take k) filmCodes.tables).toOption.all fun t =>
          t.entitlements.all fun e => s.log.all (·.d.now ≤ e.expiresAt))
    (by decide +kernel)
  rw [Bool.and_eq_true, Bool.and_eq_true, List.all_eq_true] at hs
  obtain ⟨⟨hlength, hfor⟩, hlive⟩ := hs
  have hlength : s.log.length = 2 := eq_of_beq hlength
  have hfor := fun r hr => Bool.and_eq_true_iff.1 (hfor r hr)
  have hfilter : s.log.filter (·.isFor id sameCase films filmCodes.tables) = s.log :=
    List.filter_eq_self.2 fun r hr => (hfor r hr).1
  refine ⟨s, hlength, (codes_add_up_iff filmCodes_indexed rfl rfl (fun _ he => absurd he List.not_mem_nil)
    hrun ?_ ?_ ?_).2 (Or.inl (Option.some_ne_none _))⟩
  · intro r hr _ c hc
    have hi := (hfor r hr).2
    rw [hc] at hi
    exact of_decide_eq_true hi
  · intro pre r post t hsplit ht _ e he _
    have hk : pre.length < 2 := by
      rw [← hlength, hsplit, List.length_append, List.length_cons]
      omega
    have htake : s.log.take pre.length = pre := by rw [hsplit, List.take_left]
    have hall := List.all_eq_true.1 hlive _ (List.mem_range.2 hk)
    rw [htake, ht] at hall
    have hr : r ∈ s.log := hsplit ▸ List.mem_append_right _ List.mem_cons_self
    exact of_decide_eq_true (List.all_eq_true.1 (List.all_eq_true.1 hall e he) r hr)
  · rw [hfilter]
    intro hnil
    rw [hnil] at hlength
    cases hlength

end Sakura.Entitlements
