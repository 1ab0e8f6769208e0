/-
  The order in which the partition grants of v2 are read.

  * `importGrants`: the import of rows, one after the other;
  * `SameInAnyOrder`: whatever the order, the import succeeds and leaves the same grants;
  * `Agree`: the rows whose order does not matter;
  * `same_in_any_order_iff`: the two are the same; `older_row_wins`: rows that disagree.
-/
import Sakura.Txn.Upsert
import Sakura.Entitlements.Import

namespace Sakura.Entitlements

open Txn

section

variable (im : Importer) (tgMap : Int64 → Option UUID) (now : Time) (instanceID : Option UUID)

/-! ## Rows in an order -/

def importGrants : List PartitionGrant → Tables → Except Err Tables
  | [], db => pure db
  | row :: rows, db => do
    let db ← importPartitionGrantRow im tgMap now instanceID row db
    importGrants rows db

/-- The row that a source row comes to, if it is not deferred. -/
def grantOf (db : Tables) (row : PartitionGrant) : Option (Except Err AccountEntitlement) :=
  match tgMap row.tg, instanceID with
  | some accountID, some instanceID => some (grantRow im now instanceID accountID row db)
  | _, _ => none

/-- The rows that fit their columns. -/
def grants (db : Tables) (rows : List PartitionGrant) : List AccountEntitlement :=
  rows.filterMap fun row => (grantOf im tgMap now instanceID db row).bind Except.toOption

def grantID (row : PartitionGrant) : UUID :=
  im.deterministicUUID ("sakura-v2-partition-grant:" ++ row.key)

/-! ## What is compared -/

/-- Status, expiry and binding of a grant. -/
def AccountEntitlement.terms (e : AccountEntitlement) : GrantStatus × Time × Option UUID :=
  (e.status, e.expiresAt, e.bindingId)

/-- The grant of an account and a resource. -/
def Tables.grant (db : Tables) (slot : Option Slot) : Option (GrantStatus × Time × Option UUID) :=
  (db.entitlements.find? (·.slot = slot)).map (·.terms)

/-- The rows can be imported in any order, and leave the same grants. -/
def SameInAnyOrder (rows : List PartitionGrant) (db : Tables) : Prop :=
  ∃ left : Slot → Option (GrantStatus × Time × Option UUID), ∀ rows', rows'.Perm rows →
    ∃ db', importGrants im tgMap now instanceID rows' db = .ok db' ∧
      ∀ slot : Slot, db'.grant (some slot) = left slot

/-- The rows fit their columns, and their identifiers are not those of other grants; rows of one
account and resource have one status, and the bindings that are found for them are the same. -/
structure Agree (rows : List PartitionGrant) (db : Tables) : Prop where
  fits : ∀ row ∈ rows, ∀ x, grantOf im tgMap now instanceID db row ≠ some (.error x)
  fresh : ∀ g ∈ grants im tgMap now instanceID db rows, (∀ e ∈ db.entitlements, e.slot ≠ g.slot) →
    ∀ e ∈ db.entitlements, e.id ≠ g.id
  status : ∀ g ∈ grants im tgMap now instanceID db rows,
    ∀ g' ∈ grants im tgMap now instanceID db rows, g.slot = g'.slot → g.status = g'.status
  binding : ∀ g ∈ grants im tgMap now instanceID db rows,
    ∀ g' ∈ grants im tgMap now instanceID db rows, g.slot = g'.slot →
      ∀ b ∈ g.bindingId, ∀ b' ∈ g'.bindingId, b = b'

end

section

variable {im : Importer} {tgMap : Int64 → Option UUID} {now : Time} {instanceID : Option UUID}
  {db db' d d' : Tables} {row : PartitionGrant} {rows rows' : List PartitionGrant}
  {g : AccountEntitlement}

/-! ## One row -/

/-- The tables with other entitlements. -/
def Tables.with (db : Tables) (entitlements : List AccountEntitlement) : Tables :=
  { db with entitlements }

theorem grantOf_with {es : List AccountEntitlement} :
    grantOf im tgMap now instanceID (db.with es) row = grantOf im tgMap now instanceID db row := rfl

theorem importRow_eq : importPartitionGrantRow im tgMap now instanceID row db =
    match grantOf im tgMap now instanceID db row with
    | none => .ok db
    | some x => x >>= (upsertGrant · db) := by
  unfold importPartitionGrantRow grantOf
  cases tgMap row.tg <;> cases instanceID <;> rfl

theorem grantRow_ok {accountID i : UUID} (h : grantRow im now i accountID row db = .ok g) :
    g.id = grantID im row ∧ g.instanceId = some i := by
  obtain ⟨_, -, h⟩ := except_bind_ok h
  cases h
  exact ⟨rfl, rfl⟩

theorem grantOf_ok (h : grantOf im tgMap now instanceID db row = some (.ok g)) :
    g.id = grantID im row ∧ ∃ slot, g.slot = some slot := by
  unfold grantOf at h
  split at h
  · obtain ⟨hid, hinstance⟩ := grantRow_ok (Option.some_inj.1 h)
    exact ⟨hid, by simp [AccountEntitlement.slot, hinstance]⟩
  · cases h

theorem mem_grants : g ∈ grants im tgMap now instanceID db rows ↔
    ∃ row ∈ rows, grantOf im tgMap now instanceID db row = some (.ok g) := by
  unfold grants
  rw [List.mem_filterMap]
  refine exists_congr fun row => and_congr_right fun _ => ?_
  rcases grantOf im tgMap now instanceID db row with - | x | g' <;> simp [Except.toOption]

theorem grants_append : grants im tgMap now instanceID db (rows ++ rows') =
    grants im tgMap now instanceID db rows ++ grants im tgMap now instanceID db rows' :=
  List.filterMap_append

theorem grants_singleton (h : grantOf im tgMap now instanceID db row = some (.ok g)) :
    grants im tgMap now instanceID db [row] = [g] := by
  unfold grants
  rw [List.filterMap_cons, h]
  rfl

theorem upsertGrant_ok (h : upsertGrant g db = .ok db') :
    db' = db.with (upsert AccountEntitlement.slot mergeGrant db.entitlements g) := by
  unfold upsertGrant at h
  unfold upsert
  split at h
  · next hany =>
    cases h
    rw [if_pos hany]
    rfl
  · next hany =>
    split at h
    · cases h
    · cases h
      rw [if_neg hany]
      rfl

/-- An upsert is refused only for the identifier of a row that is new. -/
theorem upsertGrant_fits (h : (∃ e ∈ db.entitlements, e.slot = g.slot) ∨
    ∀ e ∈ db.entitlements, e.id ≠ g.id) : ∃ db', upsertGrant g db = .ok db' := by
  unfold upsertGrant
  split
  · exact ⟨_, rfl⟩
  · next hany =>
    have hid : db.entitlements.any (·.id = g.id) = false := by
      rcases h with ⟨e, he, hslot⟩ | hid
      · exact absurd (List.any_eq_true.2 ⟨e, he, decide_eq_true hslot⟩) hany
      · simpa using hid
    rw [if_neg (by simp [hid])]
    exact ⟨_, rfl⟩

theorem mem_upsert {e : AccountEntitlement}
    (h : e ∈ upsert AccountEntitlement.slot mergeGrant db.entitlements g) :
    e = g ∨ ∃ e₀ ∈ db.entitlements, e.id = e₀.id := by
  unfold upsert at h
  split at h
  · obtain ⟨e₀, he₀, rfl⟩ := List.mem_map.1 h
    refine Or.inr ⟨e₀, he₀, ?_⟩
    split <;> rfl
  · rcases List.mem_append.1 h with h | h
    · exact Or.inr ⟨e, h, rfl⟩
    · exact Or.inl (List.mem_singleton.1 h)

theorem slot_upsert {s : Option Slot} (h : ∃ e ∈ db.entitlements, e.slot = s) :
    ∃ e ∈ upsert AccountEntitlement.slot mergeGrant db.entitlements g, e.slot = s := by
  obtain ⟨e, he, rfl⟩ := h
  unfold upsert
  split
  · refine ⟨_, List.mem_map_of_mem he, ?_⟩
    split <;> rfl
  · exact ⟨e, List.mem_append_left _ he, rfl⟩

/-! ## Many rows -/

/-- **What an import leaves** is what upserts of the rows leave. -/
theorem importGrants_eq : ∀ {rows : List PartitionGrant} {db : Tables},
    importGrants im tgMap now instanceID rows db = .ok db' →
      db' = db.with ((grants im tgMap now instanceID db rows).foldl
        (upsert AccountEntitlement.slot mergeGrant) db.entitlements)
  | [], _, h => by
    cases h
    rfl
  | row :: rows, db, h => by
    obtain ⟨d, hd, hrest⟩ := except_bind_ok h
    rw [importRow_eq] at hd
    have hgrants : grants im tgMap now instanceID db (row :: rows) =
        ((grantOf im tgMap now instanceID db row).bind Except.toOption).toList ++
          grants im tgMap now instanceID db rows := by
      unfold grants
      rw [List.filterMap_cons]
      cases (grantOf im tgMap now instanceID db row).bind Except.toOption <;> rfl
    rw [hgrants]
    cases hg : grantOf im tgMap now instanceID db row with
    | none =>
      rw [hg] at hd
      cases hd
      exact importGrants_eq hrest
    | some x =>
      rw [hg] at hd
      obtain ⟨g, rfl, hd⟩ := except_bind_ok hd
      rw [upsertGrant_ok hd] at hrest
      exact importGrants_eq hrest

/-- Rows that fit, and whose identifiers are new where they are inserted, are imported. -/
theorem importGrants_ok : ∀ {rows : List PartitionGrant} {db : Tables},
    (∀ row ∈ rows, ∀ x, grantOf im tgMap now instanceID db row ≠ some (.error x)) →
    (rows.map (grantID im)).Nodup →
    (∀ g ∈ grants im tgMap now instanceID db rows, (∃ e ∈ db.entitlements, e.slot = g.slot) ∨
      ∀ e ∈ db.entitlements, e.id ≠ g.id) →
    ∃ db', importGrants im tgMap now instanceID rows db = .ok db'
  | [], db, _, _, _ => ⟨db, rfl⟩
  | row :: rows, db, hfits, hids, hfresh => by
    obtain ⟨hnew, hids⟩ := List.nodup_cons.1 hids
    have hrest : ∀ row' ∈ rows, ∀ x, grantOf im tgMap now instanceID db row' ≠ some (.error x) :=
      fun row' h => hfits row' (List.mem_cons_of_mem _ h)
    unfold importGrants
    rw [importRow_eq]
    cases hg : grantOf im tgMap now instanceID db row with
    | none =>
      refine importGrants_ok hrest hids fun g h => hfresh g ?_
      unfold grants
      rw [List.filterMap_cons, hg]
      exact h
    | some x =>
      cases x with
      | error x => exact absurd hg (hfits row (List.mem_cons_self ..) x)
      | ok g =>
        have hcons : grants im tgMap now instanceID db (row :: rows) =
            g :: grants im tgMap now instanceID db rows := by
          unfold grants
          rw [List.filterMap_cons, hg]
          rfl
        rw [hcons] at hfresh
        obtain ⟨d, hd⟩ := upsertGrant_fits (hfresh g (List.mem_cons_self ..))
        have hd' := upsertGrant_ok hd
        have hstep : ((.ok g : Except Err AccountEntitlement) >>= (upsertGrant · db)) = .ok d := hd
        simp only [hstep]
        subst hd'
        refine importGrants_ok hrest hids fun g' hg' => ?_
        rcases hfresh g' (List.mem_cons_of_mem _ hg') with hslot | hid
        · exact Or.inl (slot_upsert hslot)
        · refine Or.inr fun e he => ?_
          rcases mem_upsert he with rfl | ⟨e₀, he₀, heq⟩
          · -- the identifiers of two source rows differ
            obtain ⟨row', hrow', hok⟩ := mem_grants.1 hg'
            rw [(grantOf_ok hg).1, (grantOf_ok hok).1]
            exact fun heq => hnew (heq ▸ List.mem_map_of_mem hrow')
          · exact heq ▸ hid e₀ he₀

/-! ## Any order -/

/-- What is seen of a grant after a row. -/
def seen (o : Option (GrantStatus × Time × Option UUID)) (g : AccountEntitlement) :
    GrantStatus × Time × Option UUID :=
  (g.status, o.elim g.expiresAt fun v => max v.2.1 g.expiresAt,
    g.bindingId <|> o.bind fun v => v.2.2)

theorem terms_merge (o : Option AccountEntitlement) (g : AccountEntitlement) :
    (Option.elim o g (mergeGrant · g)).terms = seen (o.map (·.terms)) g := by
  cases o with
  | none =>
    show (g.status, g.expiresAt, g.bindingId) = (g.status, g.expiresAt, g.bindingId <|> none)
    cases g.bindingId <;> rfl
  | some e => rfl

/-- Two rows that agree can be exchanged. -/
theorem seen_comm {g' : AccountEntitlement} (hstatus : g.status = g'.status)
    (hbinding : ∀ b ∈ g.bindingId, ∀ b' ∈ g'.bindingId, b = b')
    (o : Option (GrantStatus × Time × Option UUID)) :
    seen (some (seen o g)) g' = seen (some (seen o g')) g := by
  have hexpiry : max (o.elim g.expiresAt fun v => max v.2.1 g.expiresAt) g'.expiresAt =
      max (o.elim g'.expiresAt fun v => max v.2.1 g'.expiresAt) g.expiresAt := by
    cases o with
    | none => exact Int.max_comm g.expiresAt g'.expiresAt
    | some v =>
      show max (max v.2.1 g.expiresAt) g'.expiresAt = max (max v.2.1 g'.expiresAt) g.expiresAt
      rw [Int.max_assoc, Int.max_comm g.expiresAt, ← Int.max_assoc]
  have hbind : (g'.bindingId <|> (g.bindingId <|> o.bind fun v => v.2.2)) =
      (g.bindingId <|> (g'.bindingId <|> o.bind fun v => v.2.2)) := by
    cases hb : g.bindingId with
    | none => cases g'.bindingId <;> rfl
    | some b =>
      cases hb' : g'.bindingId with
      | none => rfl
      | some b' => rw [hbinding b hb b' hb']
  unfold seen
  rw [hstatus]
  exact congrArg (g'.status, ·) (Prod.ext hexpiry hbind)

/-- What an import leaves of the slot of its last row. -/
theorem grant_last (h : importGrants im tgMap now instanceID (rows ++ [row]) db = .ok db')
    (hg : grantOf im tgMap now instanceID db row = some (.ok g)) :
    ∃ o, db'.grant g.slot = some (seen o g) := by
  rw [importGrants_eq h, grants_append, grants_singleton hg]
  have hkey : ∀ x y : AccountEntitlement, (mergeGrant x y).slot = x.slot := fun _ _ => rfl
  obtain ⟨o, ho⟩ :=
    find?_foldl_upsert_last hkey (grants im tgMap now instanceID db rows) db.entitlements g
  refine ⟨o.map (·.terms), ?_⟩
  rw [← terms_merge]
  exact congrArg (Option.map (·.terms)) ho

/-- The order matters if two rows of one slot leave different things. -/
theorem SameInAnyOrder.last {row' : PartitionGrant} {g' : AccountEntitlement}
    (h : SameInAnyOrder im tgMap now instanceID rows db) (hrow : row ∈ rows) (hrow' : row' ∈ rows)
    (hg : grantOf im tgMap now instanceID db row = some (.ok g))
    (hg' : grantOf im tgMap now instanceID db row' = some (.ok g')) (hslot : g.slot = g'.slot) :
    ∃ o o', seen o g = seen o' g' := by
  obtain ⟨left, hleft⟩ := h
  have hend : ∀ {row : PartitionGrant} {g : AccountEntitlement}, row ∈ rows →
      grantOf im tgMap now instanceID db row = some (.ok g) → ∀ slot : Slot, g.slot = some slot →
        ∃ o, left slot = some (seen o g) := by
    intro row g hrow hg slot hs
    obtain ⟨before, after, rfl⟩ := List.mem_iff_append.1 hrow
    obtain ⟨db', hdb', hsame⟩ := hleft (before ++ after ++ [row])
      (List.perm_append_singleton row _ |>.trans List.perm_middle.symm)
    obtain ⟨o, ho⟩ := grant_last hdb' hg
    exact ⟨o, (hsame slot).symm.trans (hs ▸ ho)⟩
  obtain ⟨-, slot, hs⟩ := grantOf_ok hg
  obtain ⟨o, ho⟩ := hend hrow hg slot hs
  obtain ⟨o', ho'⟩ := hend hrow' hg' slot (hslot ▸ hs)
  exact ⟨o, o', Option.some_inj.1 (ho.symm.trans ho')⟩

/-- Every row can come first. -/
theorem SameInAnyOrder.first (h : SameInAnyOrder im tgMap now instanceID rows db) (hrow : row ∈ rows) :
    ∃ db', importPartitionGrantRow im tgMap now instanceID row db = .ok db' := by
  obtain ⟨left, hleft⟩ := h
  obtain ⟨before, after, rfl⟩ := List.mem_iff_append.1 hrow
  obtain ⟨db', hdb', -⟩ := hleft (row :: (before ++ after)) List.perm_middle.symm
  obtain ⟨d, hd, -⟩ := except_bind_ok hdb'
  exact ⟨d, hd⟩

/-- **The order of the rows does not matter**, if and only if they agree. -/
theorem same_in_any_order_iff (hids : (rows.map (grantID im)).Nodup) :
    SameInAnyOrder im tgMap now instanceID rows db ↔ Agree im tgMap now instanceID rows db := by
  constructor
  · intro h
    refine ⟨fun row hrow x hx => ?_, fun g hg hslot e he hid => ?_, fun g hg g' hg' hslot => ?_,
      fun g hg g' hg' hslot b hb b' hb' => ?_⟩
    · obtain ⟨d, hd⟩ := h.first hrow
      rw [importRow_eq, hx] at hd
      cases hd
    · obtain ⟨row, hrow, hok⟩ := mem_grants.1 hg
      obtain ⟨d, hd⟩ := h.first hrow
      rw [importRow_eq, hok] at hd
      have hd : upsertGrant g db = .ok d := hd
      unfold upsertGrant at hd
      rw [if_neg, if_pos] at hd
      · cases hd
      · exact List.any_eq_true.2 ⟨e, he, decide_eq_true hid⟩
      · intro hany
        obtain ⟨e', he', hslot'⟩ := List.any_eq_true.1 hany
        exact hslot e' he' (of_decide_eq_true hslot')
    · obtain ⟨row, hrow, hok⟩ := mem_grants.1 hg
      obtain ⟨row', hrow', hok'⟩ := mem_grants.1 hg'
      obtain ⟨o, o', heq⟩ := h.last hrow hrow' hok hok' hslot
      exact congrArg Prod.fst heq
    · obtain ⟨row, hrow, hok⟩ := mem_grants.1 hg
      obtain ⟨row', hrow', hok'⟩ := mem_grants.1 hg'
      obtain ⟨o, o', heq⟩ := h.last hrow hrow' hok hok' hslot
      have hbinding := congrArg (·.2.2) heq
      rw [Option.mem_def] at hb hb'
      simp only [seen, hb, hb'] at hbinding
      exact Option.some_inj.1 hbinding
  · intro h
    refine ⟨fun slot => ((db.with ((grants im tgMap now instanceID db rows).foldl
      (upsert AccountEntitlement.slot mergeGrant) db.entitlements)).grant (some slot)), ?_⟩
    intro rows' hperm
    have hgrants : (grants im tgMap now instanceID db rows').Perm
        (grants im tgMap now instanceID db rows) := hperm.filterMap _
    have hfresh : ∀ g ∈ grants im tgMap now instanceID db rows',
        (∃ e ∈ db.entitlements, e.slot = g.slot) ∨ ∀ e ∈ db.entitlements, e.id ≠ g.id := by
      intro g hg
      by_cases hslot : ∃ e ∈ db.entitlements, e.slot = g.slot
      · exact Or.inl hslot
      · exact Or.inr (h.fresh g (hgrants.mem_iff.1 hg) fun e he hs => hslot ⟨e, he, hs⟩)
    obtain ⟨db', hdb'⟩ := importGrants_ok (fun row hrow => h.fits row (hperm.mem_iff.1 hrow))
      ((hperm.map _).nodup_iff.2 hids) hfresh
    refine ⟨db', hdb', fun slot => ?_⟩
    rw [importGrants_eq hdb']
    have hkey : ∀ x y : AccountEntitlement, (mergeGrant x y).slot = x.slot := fun _ _ => rfl
    refine foldl_upsert_perm hkey terms_merge hgrants fun g hg g' hg' hslot o => ?_
    have hg := hgrants.mem_iff.1 hg
    have hg' := hgrants.mem_iff.1 hg'
    exact seen_comm (h.status g hg g' hg' hslot) (h.binding g hg g' hg' hslot) o

end

/-! ## Two grants of one partition -/

/-- A grant of the default partition. -/
def partitionGrant (key status : String) (days : Int) : PartitionGrant where
  key
  tg := 1
  partition := ""
  status
  embyID := ""
  code := ""
  createdAt := none
  expiresAt := some (unixEpoch + days * dayNanos)

def currentGrant : PartitionGrant := partitionGrant "1" "active" 10
def olderGrant : PartitionGrant := partitionGrant "2" "revoked" 1

/-- What the two come to in an empty target. -/
def grantInto (row : PartitionGrant) : Option AccountEntitlement :=
  (grantOf asciiImporter (fun _ => some (idOf 'a')) unixEpoch (some (idOf 'c')) {} row).bind
    Except.toOption

theorem same_in_any_order_two : SameInAnyOrder asciiImporter (fun _ => some (idOf 'a')) unixEpoch
      (some (idOf 'c')) [currentGrant, olderGrant] {} ↔
    Agree asciiImporter (fun _ => some (idOf 'a')) unixEpoch (some (idOf 'c'))
      [currentGrant, olderGrant] {} :=
  same_in_any_order_iff (by decide +kernel)

/-- The status of the row that is read last is left: an active grant may be revoked by an older row. -/
theorem older_row_wins : ¬∀ (im : Importer) (tgMap : Int64 → Option UUID) (now : Time)
    (instanceID : Option UUID) (rows : List PartitionGrant) (db : Tables),
    (rows.map (grantID im)).Nodup → SameInAnyOrder im tgMap now instanceID rows db := by
  intro h
  have hsame := h asciiImporter (fun _ => some (idOf 'a')) unixEpoch (some (idOf 'c'))
    [currentGrant, olderGrant] {} (by decide +kernel)
  have hcurrent : (grantInto currentGrant).any (fun g => g.status = .active) = true := by
    decide +kernel
  have holder : (grantInto olderGrant).any (fun g => g.status = .revoked) = true := by decide +kernel
  have hslots : (grantInto currentGrant).map (·.slot) = (grantInto olderGrant).map (·.slot) := by
    decide +kernel
  have hmem : ∀ row g, row ∈ [currentGrant, olderGrant] → grantInto row = some g →
      grantOf asciiImporter (fun _ => some (idOf 'a')) unixEpoch (some (idOf 'c')) {} row =
        some (.ok g) := by
    intro row g hrow hg
    obtain ⟨x, hx, hok⟩ := Option.bind_eq_some_iff.1 hg
    rw [hx]
    cases x with
    | error x => cases hok
    | ok g' => rw [Option.some_inj.1 hok]
  obtain ⟨g, hg⟩ : ∃ g, grantInto currentGrant = some g :=
    Option.isSome_iff_exists.1 (Option.isSome_of_any hcurrent)
  obtain ⟨g', hg'⟩ : ∃ g, grantInto olderGrant = some g :=
    Option.isSome_iff_exists.1 (Option.isSome_of_any holder)
  rw [hg] at hcurrent hslots
  rw [hg'] at holder hslots
  obtain ⟨o, o', heq⟩ := hsame.last (List.mem_cons_self ..)
    (List.mem_cons_of_mem _ (List.mem_singleton_self _)) (hmem _ g (List.mem_cons_self ..) hg)
    (hmem _ g' (List.mem_cons_of_mem _ (List.mem_singleton_self _)) hg') (Option.some_inj.1 hslots)
  have hstatus : g.status = g'.status := congrArg Prod.fst heq
  rw [of_decide_eq_true hcurrent, of_decide_eq_true holder] at hstatus
  cases hstatus

end Sakura.Entitlements
