/-
  The history of the settings.

  * `Replayable`: each setting has the value of its last revision, and can take the next one;
  * `Kept`: with what the tables keep besides;
  * `Fits`: when a change or an import continues the history;
  * `Kept.storeValue`, `Kept.upsert`, `Kept.record`: what each statement keeps;
  * `history_replayable`: so it is along every run of them, and no step changes a revision;
  * `import_forks`: an import of an older value.
-/
import Sakura.Settings.Import
import Sakura.Txn.Compare

namespace Sakura.Settings

open Txn

/-! ## Runs -/

/-- A change of a setting, or an import. -/
inductive Move where
  | update (now : Time) (key : String) (value : Json) (valueType reason : String) (expected : Int64)
      (actor : Actor)
  | rollback (now : Time) (key : String) (target expected : Int64) (reason : String) (actor : Actor)
  | import_ (items : List LegacySetting) (rows : List LegacyConfigRevision)

/-- What a transaction leaves; one that fails leaves nothing. -/
def Move.act : Move → Tables → Tables
  | .update now key value valueType reason expected actor, db =>
    ((updateSetting now key value valueType reason expected actor db).toOption.map Prod.snd).getD db
  | .rollback now key target expected reason actor, db =>
    ((rollbackSetting now key target expected reason actor db).toOption.map Prod.snd).getD db
  | .import_ items rows, db => (importSettings items rows db).toOption.getD db

/-! ## The property -/

/-- Each setting has the value and type of the revision it is at, this is the last one recorded, and the
next is free for an update. -/
structure Replayable (db : Tables) : Prop where
  current : ∀ s ∈ db.settings, db.valueAt s.key s.revision = .ok (s.value, s.valueType)
  largest : ∀ s ∈ db.settings, ∀ r ∈ db.revisions, r.settingKey = s.key → r.revision ≤ s.revision
  next : ∀ s ∈ db.settings, ∀ (now : Time) (value : Json) (valueType reason : String) (actor : Actor),
    updateSetting now s.key value valueType reason s.revision actor db ≠ .error .taken

/-- Revisions count from 1, and only settings have them. -/
structure Kept (db : Tables) : Prop where
  current : ∀ s ∈ db.settings, db.valueAt s.key s.revision = .ok (s.value, s.valueType)
  largest : ∀ s ∈ db.settings, ∀ r ∈ db.revisions, r.settingKey = s.key → r.revision ≤ s.revision
  positive : ∀ r ∈ db.revisions, 1 ≤ r.revision
  owned : ∀ r ∈ db.revisions, ∃ s ∈ db.settings, s.key = r.settingKey

/-- The old setting is newer than the one of this key, or has its value and type. -/
def FitsSetting (item : LegacySetting) (db : Tables) : Prop :=
  ∀ raw decodes s, item.value = .valid raw decodes → item.secret = false →
    item.row raw decodes = .ok s → ∀ old ∈ db.settings, old.key = s.key →
      old.revision < s.revision ∨ (old.value = s.value ∧ old.valueType = s.valueType)

/-- The old revision is not beyond the one its setting is at. -/
def FitsRevision (row : LegacyConfigRevision) (db : Tables) : Prop :=
  ∀ s ∈ db.settings, s.key = row.settingKey → greatest row.revision 1 ≤ s.revision

/-- Each row fits where it is imported. -/
def RowsFit {ρ : Type} (f : ρ → Tables → Except Err Tables) (C : ρ → Tables → Prop) :
    List ρ → Tables → Prop
  | [], _ => True
  | r :: rs, db => C r db ∧ ∀ db', f r db = .ok db' → RowsFit f C rs db'

/-- The setting is not at the last number there is. -/
def Numbered (key : String) (expected : Int64) (db : Tables) : Prop :=
  ∀ s ∈ db.settings, s.key = trimSpace key → s.revision = expected → expected ≠ Int64.maxValue

/-- The move continues the history of the settings. -/
def Fits : Move → Tables → Prop
  | .update _ key _ _ _ expected _, db => Numbered key expected db
  | .rollback _ key _ expected _ _, db => Numbered key expected db
  | .import_ items rows, db => RowsFit importSetting FitsSetting items db ∧
    ∀ db', importRows importSetting items db = .ok db' →
      RowsFit importConfigRevision FitsRevision rows db'

/-! ## Revisions -/

variable {db db' : Tables} {key : String} {n : Int64}

theorem lt_succ (h : n ≠ Int64.maxValue) : n < n + 1 := by
  have hlast : Int64.maxValue.toInt = 2 ^ 63 - 1 := by decide
  have hone : (1 : Int64).toInt = 1 := by decide
  have hmax : n.toInt ≠ Int64.maxValue.toInt := fun he => h (Int64.toInt_inj.1 he)
  have hle := Int64.toInt_le n
  have hge := Int64.le_toInt n
  rw [Int64.lt_iff_toInt_lt, Int64.toInt_add, Int.bmod_eq_of_le] <;> omega

theorem greatest_of_lt {a b : Int64} (h : a < b) : greatest a b = b := if_pos h

theorem greatest_of_le {a b : Int64} (h : b ≤ a) : greatest a b = a := if_neg (Int64.not_lt.2 h)

theorem le_greatest_left {a b : Int64} : a ≤ greatest a b := by
  by_cases h : a < b
  · rw [greatest_of_lt h]
    exact Int64.le_of_lt h
  · rw [greatest_of_le (Int64.not_lt.1 h)]
    exact Int64.le_refl a

theorem le_greatest_right {a b : Int64} : b ≤ greatest a b := by
  by_cases h : a < b
  · rw [greatest_of_lt h]
    exact Int64.le_refl b
  · rw [greatest_of_le (Int64.not_lt.1 h)]
    exact Int64.not_lt.1 h

theorem has_iff : db.has key n = true ↔ ∃ r ∈ db.revisions, r.settingKey = key ∧ r.revision = n := by
  simp [Tables.has]

/-- The value of a revision is that of a row. -/
theorem valueAt_ok {x : Json × ValueType} (h : db.valueAt key n = .ok x) :
    ∃ r ∈ db.revisions, r.settingKey = key ∧ r.revision = n := by
  unfold Tables.valueAt at h
  split at h
  · next r hr => exact ⟨r, List.mem_of_find?_eq_some hr, by simpa using List.find?_some hr⟩
  · cases h

/-- A revision that is recorded keeps its value. -/
theorem valueAt_append {x : Json × ValueType} {rows : List RevisionRow} (h : db.valueAt key n = .ok x)
    (hr : db'.revisions = db.revisions ++ rows) : db'.valueAt key n = .ok x := by
  unfold Tables.valueAt at h ⊢
  split at h
  · next r hfind => rw [hr, List.find?_append, hfind]; exact h
  · cases h

/-- A new one has the value that is recorded. -/
theorem valueAt_new {r : RevisionRow} (hfree : ¬db.has r.settingKey r.revision)
    (hr : db'.revisions = db.revisions ++ [r]) :
    db'.valueAt r.settingKey r.revision = .ok (r.value, r.valueType) := by
  have hnone : (db.revisions.find? fun x => x.settingKey = r.settingKey && x.revision = r.revision) =
      none := by
    rw [List.find?_eq_none]
    intro x hx heq
    exact hfree (has_iff.2 ⟨x, hx, by simpa using heq⟩)
  unfold Tables.valueAt
  rw [hr, List.find?_append, hnone]
  simp

/-! ## Statements -/

theorem Kept.one_le {s : SettingRow} (h : Kept db) (hs : s ∈ db.settings) : 1 ≤ s.revision := by
  obtain ⟨r, hr, -, hn⟩ := valueAt_ok (h.current s hs)
  exact hn ▸ h.positive r hr

/-- The number after the current one is free. -/
theorem Kept.free {s : SettingRow} (h : Kept db) (hs : s ∈ db.settings) :
    ¬db.has s.key (s.revision + 1) := by
  intro htaken
  obtain ⟨r, hr, hk, hn⟩ := has_iff.1 htaken
  by_cases hmax : s.revision = Int64.maxValue
  · -- the number would wrap around
    have := h.positive r hr
    rw [hn, hmax] at this
    exact absurd this (by decide)
  · have hle := h.largest s hs r hr hk
    rw [hn] at hle
    exact Int64.not_le.2 (lt_succ hmax) hle

/-- The rows of a key are at the same revision. -/
theorem Kept.same {s t : SettingRow} (h : Kept db) (hs : s ∈ db.settings) (ht : t ∈ db.settings)
    (hk : s.key = t.key) : s.revision = t.revision := by
  obtain ⟨r, hr, hrk, hn⟩ := valueAt_ok (h.current s hs)
  obtain ⟨q, hq, hqk, hm⟩ := valueAt_ok (h.current t ht)
  refine Int64.le_antisymm ?_ ?_
  · exact hn ▸ h.largest t ht r hr (hrk.trans hk)
  · exact hm ▸ h.largest s hs q hq (hqk.trans hk.symm)

/-- A change with the number after the current one. -/
theorem Kept.storeValue {s : SettingRow} (h : Kept db) (hs : s ∈ db.settings)
    (hmax : s.revision ≠ Int64.maxValue) {now : Time} {value : Json} {kind : ValueType}
    {label reason : String}
    (hdo : storeValue now s.key value kind (s.revision + 1) label reason db = .ok db') :
    Kept db' ∧ db.revisions <+: db'.revisions := by
  unfold Settings.storeValue at hdo
  cases hv : accept (jsonb value) with
  | error x => rw [hv] at hdo; cases hdo
  | ok value' =>
  cases hl : accept (varchar 255 label) with
  | error x => rw [hv, hl] at hdo; cases hdo
  | ok label' =>
  cases hr : accept (varchar 500 reason) with
  | error x => rw [hv, hl, hr] at hdo; cases hdo
  | ok reason' =>
  have hfree := h.free hs
  rw [hv, hl, hr] at hdo
  simp only [bind, Except.bind, hfree, Bool.false_eq_true, if_false, Except.ok.injEq] at hdo
  subst hdo
  have hlt := lt_succ hmax
  refine ⟨⟨fun x hx => ?_, fun x hx r hr hk => ?_, fun r hr => ?_, fun r hr => ?_⟩,
    List.prefix_append _ _⟩
  · obtain ⟨old, hold, rfl⟩ := List.mem_map.1 hx
    by_cases hk : old.key = s.key
    · rw [if_pos hk]
      dsimp only
      rw [hk]
      exact valueAt_new (r := ⟨s.key, s.revision + 1, value', kind, label', reason', now⟩) hfree rfl
    · rw [if_neg hk]
      exact valueAt_append (h.current old hold) rfl
  · obtain ⟨old, hold, rfl⟩ := List.mem_map.1 hx
    by_cases hkey : old.key = s.key
    · rw [if_pos hkey] at hk ⊢
      rcases List.mem_append.1 hr with hr | hr
      · exact Int64.le_trans (h.largest s hs r hr (hk.trans hkey)) (Int64.le_of_lt hlt)
      · rw [List.mem_singleton.1 hr]
        exact Int64.le_refl _
    · rw [if_neg hkey] at hk ⊢
      rcases List.mem_append.1 hr with hr | hr
      · exact h.largest old hold r hr hk
      · rw [List.mem_singleton.1 hr] at hk
        exact absurd hk.symm hkey
  · rcases List.mem_append.1 hr with hr | hr
    · exact h.positive r hr
    · rw [List.mem_singleton.1 hr]
      exact Int64.le_of_lt (Int64.lt_of_le_of_lt (h.one_le hs) hlt)
  · have howner : ∃ x ∈ db.settings, x.key = r.settingKey := by
      rcases List.mem_append.1 hr with hr | hr
      · exact h.owned r hr
      · rw [List.mem_singleton.1 hr]
        exact ⟨s, hs, rfl⟩
    obtain ⟨x, hx, hxk⟩ := howner
    refine ⟨_, List.mem_map_of_mem hx, ?_⟩
    split <;> exact hxk

/-- A row of the history that is not beyond its setting. -/
theorem Kept.record {r : RevisionRow} (h : Kept db) (howned : ∃ s ∈ db.settings, s.key = r.settingKey)
    (hpos : 1 ≤ r.revision) (hle : ∀ s ∈ db.settings, s.key = r.settingKey → r.revision ≤ s.revision) :
    Kept (recordRevision r db) ∧ db.revisions <+: (recordRevision r db).revisions := by
  unfold recordRevision
  split
  · exact ⟨h, List.prefix_refl _⟩
  · refine ⟨⟨fun x hx => valueAt_append (h.current x hx) rfl, fun x hx q hq hk => ?_, fun q hq => ?_,
      fun q hq => ?_⟩, List.prefix_append _ _⟩
    all_goals rcases List.mem_append.1 hq with hq | hq
    · exact h.largest x hx q hq hk
    · obtain rfl := List.mem_singleton.1 hq
      exact hle x hx hk.symm
    · exact h.positive q hq
    · exact List.mem_singleton.1 hq ▸ hpos
    · exact h.owned q hq
    · exact List.mem_singleton.1 hq ▸ howned

/-- The setting that is there takes the value of a newer one, or keeps its own. -/
theorem Kept.overwrite {s : SettingRow} {rows : List RevisionRow} (h : Kept db)
    (hrows : db.revisions <+: rows)
    (hnew : ∀ r ∈ rows, r ∉ db.revisions → r.settingKey = s.key ∧ r.revision = s.revision)
    (hpos : 1 ≤ s.revision) (hex : ∃ old ∈ db.settings, old.key = s.key)
    (hvalue : ∀ old ∈ db.settings, old.key = s.key →
      (⟨[], rows⟩ : Tables).valueAt s.key (greatest old.revision s.revision) =
        .ok (s.value, s.valueType)) :
    Kept ⟨db.settings.map fun old =>
      if old.key = s.key then { s with revision := greatest old.revision s.revision } else old, rows⟩ := by
  obtain ⟨more, rfl⟩ := hrows
  refine ⟨fun x hx => ?_, fun x hx r hr hk => ?_, fun r hr => ?_, fun r hr => ?_⟩
  · obtain ⟨old, hold, rfl⟩ := List.mem_map.1 hx
    by_cases hk : old.key = s.key
    · rw [if_pos hk]
      exact hvalue old hold hk
    · rw [if_neg hk]
      exact valueAt_append (h.current old hold) rfl
  · obtain ⟨old, hold, rfl⟩ := List.mem_map.1 hx
    by_cases hmem : r ∈ db.revisions
    · split at hk
      · next hkey =>
        rw [if_pos hkey]
        exact Int64.le_trans (h.largest old hold r hmem (hk.trans hkey.symm)) le_greatest_left
      · next hkey =>
        rw [if_neg hkey]
        exact h.largest old hold r hmem hk
    · obtain ⟨hrk, hrn⟩ := hnew r hr hmem
      split at hk
      · next hkey =>
        rw [if_pos hkey, hrn]
        exact le_greatest_right
      · next hkey => exact absurd (hk.symm.trans hrk) hkey
  · by_cases hmem : r ∈ db.revisions
    · exact h.positive r hmem
    · exact (hnew r hr hmem).2 ▸ hpos
  · have howner : ∃ x ∈ db.settings, x.key = r.settingKey := by
      by_cases hmem : r ∈ db.revisions
      · exact h.owned r hmem
      · obtain ⟨old, hold, hk⟩ := hex
        exact ⟨old, hold, hk.trans (hnew r hr hmem).1.symm⟩
    obtain ⟨x, hx, hxk⟩ := howner
    refine ⟨_, List.mem_map_of_mem hx, ?_⟩
    split
    · next hkey => exact hkey.symm.trans hxk
    · exact hxk

/-- A setting that is new, newer, or the same as before, with its revision. -/
theorem Kept.upsert {s : SettingRow} {reason : String} (h : Kept db) (hpos : 1 ≤ s.revision)
    (hfit : ∀ old ∈ db.settings, old.key = s.key →
      old.revision < s.revision ∨ (old.value = s.value ∧ old.valueType = s.valueType)) :
    Kept (recordRevision (s.revisionRow reason) (upsertSetting s db)) ∧
      db.revisions <+: (recordRevision (s.revisionRow reason) (upsertSetting s db)).revisions := by
  unfold upsertSetting
  split
  · next hany =>
    have hex : ∃ old ∈ db.settings, old.key = s.key := by simpa using hany
    unfold recordRevision
    split
    · next htaken =>
      -- the revision is recorded, so the setting there is at it or beyond it
      obtain ⟨r, hr, hrk, hrn⟩ := has_iff.1 htaken
      refine ⟨h.overwrite (List.prefix_refl _) (fun r hr hn => absurd hr hn) hpos hex fun old hold hk => ?_,
        List.prefix_refl _⟩
      have hle : s.revision ≤ old.revision := by
        rw [show s.revision = r.revision from hrn.symm]
        exact h.largest old hold r hr (hrk.trans hk.symm)
      obtain ⟨hv, ht⟩ := (hfit old hold hk).resolve_left (Int64.not_lt.2 hle)
      rw [greatest_of_le hle, ← hk, ← hv, ← ht]
      exact h.current old hold
    · next hfree =>
      refine ⟨h.overwrite (List.prefix_append _ _) (fun r hr hn => ?_) hpos hex fun old hold hk => ?_,
        List.prefix_append _ _⟩
      · obtain rfl := List.mem_singleton.1 ((List.mem_append.1 hr).resolve_left hn)
        exact ⟨rfl, rfl⟩
      · rcases hfit old hold hk with hlt | ⟨hv, ht⟩
        · rw [greatest_of_lt hlt]
          exact valueAt_new hfree rfl
        · by_cases hlt : old.revision < s.revision
          · rw [greatest_of_lt hlt]
            exact valueAt_new hfree rfl
          · rw [greatest_of_le (Int64.not_lt.1 hlt), ← hk, ← hv, ← ht]
            exact valueAt_append (h.current old hold) rfl
  · next hnone =>
    have hno : ∀ old ∈ db.settings, old.key ≠ s.key := by simpa using hnone
    have hfree : ¬db.has s.key s.revision := by
      intro htaken
      obtain ⟨r, hr, hrk, -⟩ := has_iff.1 htaken
      obtain ⟨old, hold, hk⟩ := h.owned r hr
      exact hno old hold (hk.trans hrk)
    have hrec : recordRevision (s.revisionRow reason) { db with settings := db.settings ++ [s] } =
        ⟨db.settings ++ [s], db.revisions ++ [s.revisionRow reason]⟩ := if_neg hfree
    rw [hrec]
    refine ⟨⟨fun x hx => ?_, fun x hx r hr hk => ?_, fun r hr => ?_, fun r hr => ?_⟩,
      List.prefix_append _ _⟩
    · rcases List.mem_append.1 hx with hx | hx
      · exact valueAt_append (h.current x hx) rfl
      · rw [List.mem_singleton.1 hx]
        exact valueAt_new (r := s.revisionRow reason) hfree rfl
    · rcases List.mem_append.1 hx with hx | hx <;> rcases List.mem_append.1 hr with hr | hr
      · exact h.largest x hx r hr hk
      · rw [List.mem_singleton.1 hr] at hk
        exact absurd hk.symm (hno x hx)
      · obtain ⟨old, hold, hok⟩ := h.owned r hr
        exact absurd ((hok.trans hk).trans (congrArg _ (List.mem_singleton.1 hx))) (hno old hold)
      · rw [List.mem_singleton.1 hr, List.mem_singleton.1 hx]
        exact Int64.le_refl _
    · rcases List.mem_append.1 hr with hr | hr
      · exact h.positive r hr
      · exact List.mem_singleton.1 hr ▸ hpos
    · rcases List.mem_append.1 hr with hr | hr
      · obtain ⟨x, hx, hxk⟩ := h.owned r hr
        exact ⟨x, List.mem_append_left _ hx, hxk⟩
      · exact ⟨s, List.mem_append_right _ (List.mem_singleton.2 rfl), by rw [List.mem_singleton.1 hr]; rfl⟩

/-! ## Transactions -/

/-- A change of a setting that succeeded. -/
theorem Kept.write {now : Time} {value : Json} {valueType reason : String} {expected target : Int64}
    {actor : Actor} {x : SettingRow} (h : Kept db) (hnum : Numbered key expected db)
    (hdo : writeSetting now key value valueType reason expected target actor db = .ok (x, db')) :
    Kept db' ∧ db.revisions <+: db'.revisions := by
  unfold writeSetting at hdo
  split at hdo
  · cases hdo
  unfold changeSetting at hdo
  split at hdo
  · cases hdo
  split at hdo
  · cases hdo
  · next current hfind =>
    have hs := List.mem_of_find?_eq_some hfind
    have hk : current.key = trimSpace key := by simpa using List.find?_some hfind
    split at hdo
    · cases hdo
    · next hexp =>
      rw [not_not] at hexp
      cases hv : newValue (trimSpace key) value valueType target db with
      | error e => rw [hv] at hdo; cases hdo
      | ok v =>
        rw [hv] at hdo
        simp only [bind, Except.bind] at hdo
        split at hdo
        · cases hdo
        · next hstore =>
          cases hdo
          rw [← hk] at hstore
          exact h.storeValue hs (hexp ▸ hnum current hs hk hexp.symm) hstore

theorem accept_not_taken {α : Type} {x : Except Err α} : accept x ≠ .error .taken := by
  rcases x with e | a
  · cases e <;> simp [accept, Except.mapError, Refusal.of]
  · simp [accept, Except.mapError]

theorem newValue_not_taken {value : Json} {valueType : String} {target : Int64} :
    newValue key value valueType target db ≠ .error .taken := by
  unfold newValue Tables.valueAt
  repeat' split
  all_goals simp

theorem storeValue_not_taken {now : Time} {value : Json} {kind : ValueType} {label reason : String}
    (hfree : ¬db.has key n) : storeValue now key value kind n label reason db ≠ .error .taken := by
  intro hdo
  unfold storeValue at hdo
  cases hj : accept (jsonb value) with
  | error e => rw [hj] at hdo; cases hdo; exact accept_not_taken hj
  | ok _ =>
  cases hl : accept (varchar 255 label) with
  | error e => rw [hj, hl] at hdo; cases hdo; exact accept_not_taken hl
  | ok _ =>
  cases hr : accept (varchar 500 reason) with
  | error e => rw [hj, hl, hr] at hdo; cases hdo; exact accept_not_taken hr
  | ok _ =>
    rw [hj, hl, hr] at hdo
    simp [bind, Except.bind, hfree] at hdo

/-- No change is refused because its number is taken. -/
theorem Kept.not_taken {now : Time} {value : Json} {valueType reason : String} {expected target : Int64}
    {actor : Actor} (h : Kept db) :
    writeSetting now key value valueType reason expected target actor db ≠ .error .taken := by
  unfold writeSetting
  split
  · simp
  unfold changeSetting
  split
  · simp
  split
  · simp
  · next current hfind =>
    have hs := List.mem_of_find?_eq_some hfind
    have hk : current.key = trimSpace key := by simpa using List.find?_some hfind
    split
    · simp
    · cases hv : newValue (trimSpace key) value valueType target db with
      | error e =>
        intro hdo
        cases hdo
        exact newValue_not_taken hv
      | ok v =>
        intro hdo
        simp only [bind, Except.bind] at hdo
        split at hdo
        · next hstore =>
          cases hdo
          exact storeValue_not_taken (hk ▸ h.free hs) hstore
        · cases hdo

theorem Kept.replayable (h : Kept db) : Replayable db where
  current := h.current
  largest := h.largest
  next _ _ _ _ _ _ _ := h.not_taken

theorem LegacySetting.row_revision {item : LegacySetting} {raw : Json} {decodes : Bool} {s : SettingRow}
    (h : item.row raw decodes = .ok s) : s.revision = greatest item.revision 1 := by
  unfold LegacySetting.row at h
  obtain ⟨_, -, h⟩ := except_bind_ok h
  obtain ⟨_, -, h⟩ := except_bind_ok h
  obtain ⟨_, -, h⟩ := except_bind_ok h
  cases h
  rfl

theorem LegacyConfigRevision.row_key {row : LegacyConfigRevision} {r : RevisionRow}
    (h : row.row = .ok r) : r.settingKey = row.settingKey ∧ r.revision = greatest row.revision 1 := by
  unfold LegacyConfigRevision.row at h
  obtain ⟨_, -, h⟩ := except_bind_ok h
  obtain ⟨_, -, h⟩ := except_bind_ok h
  cases h
  exact ⟨rfl, rfl⟩

theorem Kept.importSetting {item : LegacySetting} (h : Kept db) (hfit : FitsSetting item db)
    (hdo : importSetting item db = .ok db') : Kept db' ∧ db.revisions <+: db'.revisions := by
  unfold Settings.importSetting at hdo
  split at hdo
  · cases hdo
    exact ⟨h, List.prefix_refl _⟩
  · next raw decodes hraw =>
    split at hdo
    · cases hdo
      exact ⟨h, List.prefix_refl _⟩
    · next hsecret =>
      cases hrow : item.row raw decodes with
      | error e => rw [hrow] at hdo; cases hdo
      | ok s =>
        rw [hrow] at hdo
        cases hdo
        refine h.upsert ?_ (hfit raw decodes s hraw (Bool.eq_false_iff.2 hsecret) hrow)
        rw [LegacySetting.row_revision hrow]
        exact le_greatest_right

theorem Kept.importConfigRevision {row : LegacyConfigRevision} (h : Kept db)
    (hfit : FitsRevision row db) (hdo : importConfigRevision row db = .ok db') :
    Kept db' ∧ db.revisions <+: db'.revisions := by
  unfold Settings.importConfigRevision at hdo
  split at hdo
  · cases hdo
    exact ⟨h, List.prefix_refl _⟩
  split at hdo
  · cases hdo
  split at hdo
  · next hany =>
    cases hrow : row.row with
    | error e => rw [hrow] at hdo; cases hdo
    | ok r =>
      rw [hrow] at hdo
      cases hdo
      obtain ⟨hk, hn⟩ := LegacyConfigRevision.row_key hrow
      refine h.record (by simpa [hk] using hany) ?_ fun s hs hsk => ?_
      · rw [hn]
        exact le_greatest_right
      · rw [hn]
        exact hfit s hs (hsk.trans hk)
  · cases hdo
    exact ⟨h, List.prefix_refl _⟩

/-- What each row keeps that fits, a loop over such rows keeps. -/
theorem rows_keep {ρ : Type} {f : ρ → Tables → Except Err Tables} {C : ρ → Tables → Prop}
    (hf : ∀ {r db db'}, Kept db → C r db → f r db = .ok db' →
      Kept db' ∧ db.revisions <+: db'.revisions) : ∀ {rs : List ρ} {db db' : Tables}, Kept db →
    RowsFit f C rs db → importRows f rs db = .ok db' → Kept db' ∧ db.revisions <+: db'.revisions
  | [], _, _, h, _, hdo => by
    cases hdo
    exact ⟨h, List.prefix_refl _⟩
  | r :: rs, db, db', h, hfit, hdo => by
    unfold importRows at hdo
    obtain ⟨mid, hone, hrest⟩ := except_bind_ok hdo
    obtain ⟨hmid, hpre⟩ := hf h hfit.1 hone
    obtain ⟨hkept, hpre'⟩ := rows_keep hf hmid (hfit.2 mid hone) hrest
    exact ⟨hkept, hpre.trans hpre'⟩

theorem Kept.act {m : Move} (h : Kept db) (hfit : Fits m db) :
    Kept (m.act db) ∧ db.revisions <+: (m.act db).revisions := by
  have hsame : Kept db ∧ db.revisions <+: db.revisions := ⟨h, List.prefix_refl _⟩
  cases m with
  | update now key value valueType reason expected actor =>
    show Kept (((updateSetting now key value valueType reason expected actor db).toOption.map
      Prod.snd).getD db) ∧ _ <+: (((updateSetting now key value valueType reason expected actor
        db).toOption.map Prod.snd).getD db).revisions
    cases hdo : updateSetting now key value valueType reason expected actor db with
    | error e => exact hsame
    | ok r => exact h.write hfit hdo
  | rollback now key target expected reason actor =>
    show Kept (((rollbackSetting now key target expected reason actor db).toOption.map
      Prod.snd).getD db) ∧ _ <+: (((rollbackSetting now key target expected reason actor
        db).toOption.map Prod.snd).getD db).revisions
    cases hdo : rollbackSetting now key target expected reason actor db with
    | error e => exact hsame
    | ok r => exact h.write hfit hdo
  | import_ items rows =>
    show Kept ((importSettings items rows db).toOption.getD db) ∧
      _ <+: ((importSettings items rows db).toOption.getD db).revisions
    cases hdo : importSettings items rows db with
    | error e => exact hsame
    | ok db' =>
      unfold importSettings at hdo
      obtain ⟨mid, hitems, hrows⟩ := except_bind_ok hdo
      obtain ⟨hmid, hpre⟩ := rows_keep (fun h => h.importSetting) h hfit.1 hitems
      obtain ⟨hkept, hpre'⟩ := rows_keep (fun h => h.importConfigRevision) hmid (hfit.2 mid hitems) hrows
      exact ⟨hkept, hpre.trans hpre'⟩

/-! ## Runs -/

theorem run_replayable : ∀ (ms : List Move) {db₀ db : Tables}, Kept db →
    db₀.revisions <+: db.revisions → BeforeEach Move.act Fits ms db →
    AfterEach Move.act (fun db' => Replayable db' ∧ db₀.revisions <+: db'.revisions) ms db
  | [], _, _, _, _, _ => trivial
  | m :: ms, _, db, h, hpre, hfit => by
    obtain ⟨hkept, hstep⟩ := h.act hfit.1
    have hpre' := hpre.trans hstep
    exact ⟨⟨hkept.replayable, hpre'⟩, run_replayable ms hkept hpre' hfit.2⟩

/-- **The history is complete and can be replayed** in every state of a run whose steps all continue it,
and no step changes a revision that is recorded. -/
theorem history_replayable {ms : List Move} {db : Tables} (h : Kept db)
    (hfit : BeforeEach Move.act Fits ms db) :
    AfterEach Move.act (fun db' => Replayable db' ∧ db.revisions <+: db'.revisions) ms db :=
  run_replayable ms h (List.prefix_refl _) hfit

/-! ## A setting that is imported again -/

/-- What a migration installs: a setting, and its first revision. -/
def installed (key : String) (value : Json) (valueType : ValueType) : Tables where
  settings := [⟨key, value, valueType, 1, "system:migration", 0⟩]
  revisions := [⟨key, 1, value, valueType, "system:migration", "initial value", 0⟩]

theorem kept_installed {value : Json} {valueType : ValueType} : Kept (installed key value valueType) where
  current s hs := by
    rw [List.mem_singleton.1 hs]
    simp [Tables.valueAt, installed]
  largest s hs r hr _ := by
    rw [List.mem_singleton.1 hs, List.mem_singleton.1 hr]
    exact Int64.le_refl _
  positive r hr := by
    rw [List.mem_singleton.1 hr]
    exact Int64.le_refl _
  owned r hr := ⟨_, List.mem_singleton.2 rfl, by rw [List.mem_singleton.1 hr]⟩

/-- The prefix of the codes, as it is installed. -/
def site : Tables := installed "site.code_prefix" (.string "SK") .string

/-- An administrator of v3 sets it, at revision 1. -/
def setPrefix : Move :=
  .update 1 "site.code_prefix" (.string "V3") "string" "new" 1 ⟨"account", "1"⟩

/-- The import of the old prefix, and of the revision before it. -/
def importPrefix (items : List LegacySetting) : Move :=
  .import_ items [⟨"site.code_prefix", .valid (.string "V1") true, 1, "", "", 0⟩]

def oldPrefix : LegacySetting :=
  ⟨"site.code_prefix", .valid (.string "V2") true, "string", false, 1, "", "", 0⟩

theorem setPrefix_site : (setPrefix.act site).settings.map (·.revision) = [2] := by decide +kernel

/-- The old revisions alone continue the history. -/
theorem history_replayable_site :
    AfterEach Move.act (fun db' => Replayable db' ∧ site.revisions <+: db'.revisions)
      [setPrefix, importPrefix []] site := by
  refine history_replayable kept_installed
    ⟨fun _ _ _ _ => by decide, ⟨trivial, fun db' hdb => ?_⟩, trivial⟩
  cases hdb
  refine ⟨fun s hs _ => ?_, fun _ _ => trivial⟩
  have hmem := List.mem_map_of_mem (f := SettingRow.revision) hs
  rw [setPrefix_site, List.mem_singleton] at hmem
  rw [hmem]
  decide

/-- The import after the change leaves the old value at the new revision. -/
theorem import_forks : ¬∀ (ms : List Move) (db : Tables), Kept db →
    AfterEach Move.act (fun db' => Replayable db' ∧ db.revisions <+: db'.revisions) ms db := by
  intro h
  have hcurrent := (h [setPrefix, importPrefix [oldPrefix]] site kept_installed).2.1.1.current
  have hfork : ((importPrefix [oldPrefix]).act (setPrefix.act site)).settings.any (fun s =>
      ((importPrefix [oldPrefix]).act (setPrefix.act site)).valueAt s.key s.revision ≠
        .ok (s.value, s.valueType)) = true := by
    decide +kernel
  obtain ⟨s, hs, hne⟩ := List.any_eq_true.1 hfork
  exact of_decide_eq_true hne (hcurrent s hs)

end Sakura.Settings
