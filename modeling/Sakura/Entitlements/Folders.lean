/-
  The folders of a user of an Emby server (platform/worker.go, `syncEntitlement`).

  * `mergeFolderSets`, `subtractFolderSet`, `policyFolders`, `decodeStringList`: lists of folders as sets;
  * `desiredFolders`, `recordFolders`: the folders that a sync sets, and the row that it writes;
  * `names`: what a list stands for;
  * `mem_desiredFolders`: the folders that are set;
  * `desiredFolders_again`: a second sync;
  * `folders_algebra`: the laws together.
-/
import Mathlib.Data.Finset.Sort
import Sakura.Text
import Sakura.Untyped

namespace Sakura.Folders

open Untyped

/-! ## The computation -/

/-- The member `EnabledFolders` of a policy. -/
inductive Remote where
  | strings (values : List String)
  | anys (values : List Value)
  | other

/-- The trimmed names that are not blank. -/
def names (values : List String) : Finset String :=
  ((values.map trimSpace).filter (· ≠ "")).toFinset

/-- The keys of the map `seen`, sorted. -/
def mergeFolderSets (groups : List (List String)) : List String := (names groups.flatten).sort

def subtractFolderSet (values removed : List String) : List String := values.filter (· ∉ removed)

def policyFolders : Remote → List String
  | .strings values => mergeFolderSets [values]
  | .anys values => mergeFolderSets [(values.map fun item => trimSpace item.sprint).filter (· ≠ "")]
  | .other => mergeFolderSets [[]]

/-- An element as a string; null leaves it empty. -/
def decodeString : Value → Option String
  | .string s => some s
  | .null => some ""
  | _ => none

/-- `json.Unmarshal` into a slice of strings -/
def decodeStrings : Value → Option (List String)
  | .null => some []
  | .array elements => elements.mapM decodeString
  | _ => none

def decodeStringList (raw : Value) : List String :=
  (decodeStrings raw).elim [] fun values => mergeFolderSets [values]

/-- A row of emby_policy_management. -/
structure Management where
  baseline : Value
  lastManaged : Value

/-- `json.Marshal`; a slice that is nil becomes null. -/
def encodeFolders (isNil : Bool) (values : List String) : Value :=
  if isNil then .null else .array (values.map .string)

def baselineFolders (remote : Remote) (row : Option Management) : List String :=
  row.elim (policyFolders remote) fun m => decodeStringList m.baseline

def lastManagedFolders (row : Option Management) : List String :=
  row.elim [] fun m => decodeStringList m.lastManaged

/-- The folders that the sync sets; `managed` are the keys of the active entitlements. -/
def desiredFolders (remote : Remote) (row : Option Management) (managed : List String) :
    List String :=
  mergeFolderSets [baselineFolders remote row,
    subtractFolderSet (policyFolders remote) (lastManagedFolders row), managed]

/-- `INSERT INTO emby_policy_management … ON CONFLICT(binding_id) DO UPDATE SET
last_managed_folders=EXCLUDED.last_managed_folders` -/
def recordFolders (remote : Remote) (row : Option Management) (managed : List String) :
    Management where
  baseline := row.elim (encodeFolders false (baselineFolders remote row)) Management.baseline
  lastManaged := encodeFolders managed.isEmpty managed

/-! ## Sets of names -/

/-- The texts of the policy. -/
def Remote.texts : Remote → List String
  | .strings values => values
  | .anys values => values.map Value.sprint
  | .other => []

/-- The texts that are stored, if they are a list of strings. -/
def storedTexts (raw : Value) : List String := (decodeStrings raw).getD []

/-- The same values, in any order and any number. -/
def Remote.Same : Remote → Remote → Prop
  | .strings values, .strings values' => ∀ x, x ∈ values ↔ x ∈ values'
  | .anys values, .anys values' => ∀ x, x ∈ values ↔ x ∈ values'
  | .other, .other => True
  | _, _ => False

/-- The same stored values, in any order and any number. -/
def SameStored (raw raw' : Value) : Prop :=
  raw = raw' ∨ ∃ elements elements', raw = .array elements ∧ raw' = .array elements' ∧
    ∀ x, x ∈ elements ↔ x ∈ elements'

def SameRow : Option Management → Option Management → Prop
  | some m, some m' => SameStored m.baseline m'.baseline ∧ SameStored m.lastManaged m'.lastManaged
  | none, none => True
  | _, _ => False

theorem mem_names {values : List String} {x : String} :
    x ∈ names values ↔ x ≠ "" ∧ ∃ y ∈ values, trimSpace y = x := by
  simp only [names, List.mem_toFinset, List.mem_filter, List.mem_map, decide_eq_true_eq]
  exact and_comm

theorem mem_mergeFolderSets {groups : List (List String)} {x : String} :
    x ∈ mergeFolderSets groups ↔ ∃ g ∈ groups, x ∈ names g := by
  unfold mergeFolderSets
  rw [Finset.mem_sort]
  simp only [mem_names, List.mem_flatten]
  constructor
  · rintro ⟨hne, y, ⟨g, hg, hy⟩, he⟩
    exact ⟨g, hg, hne, y, hy, he⟩
  · rintro ⟨g, hg, hne, y, hy, he⟩
    exact ⟨hne, y, ⟨g, hg, hy⟩, he⟩

/-- Merged lists with the same members are the same. -/
theorem mergeFolderSets_ext {groups groups' : List (List String)}
    (h : ∀ x, x ∈ mergeFolderSets groups ↔ x ∈ mergeFolderSets groups') :
    mergeFolderSets groups = mergeFolderSets groups' := by
  have hsame : names groups.flatten = names groups'.flatten := by
    ext x
    have hx := h x
    rwa [mergeFolderSets, mergeFolderSets, Finset.mem_sort, Finset.mem_sort] at hx
  rw [mergeFolderSets, hsame, ← mergeFolderSets]

/-- A name of a list of names is one of them. -/
theorem names_of_clean {values : List String} (h : ∀ x ∈ values, x ≠ "" ∧ trimSpace x = x)
    {x : String} : x ∈ names values ↔ x ∈ values := by
  rw [mem_names]
  constructor
  · rintro ⟨-, y, hy, rfl⟩
    rwa [(h y hy).2]
  · exact fun hx => ⟨(h x hx).1, x, hx, (h x hx).2⟩

/-- A merged list has no blanks and no surrounding spaces. -/
theorem mergeFolderSets_clean {groups : List (List String)} :
    ∀ x ∈ mergeFolderSets groups, x ≠ "" ∧ trimSpace x = x := by
  intro x hx
  obtain ⟨g, -, hx⟩ := mem_mergeFolderSets.1 hx
  obtain ⟨hne, y, -, rfl⟩ := mem_names.1 hx
  exact ⟨hne, trimSpace_trimSpace y⟩

theorem mem_policyFolders {remote : Remote} {x : String} :
    x ∈ policyFolders remote ↔ x ∈ names remote.texts := by
  cases remote with
  | strings values => simp [policyFolders, mem_mergeFolderSets, Remote.texts]
  | anys values =>
    simp only [policyFolders, mem_mergeFolderSets, List.mem_singleton, exists_eq_left, Remote.texts,
      mem_names, List.mem_filter, List.mem_map, decide_eq_true_eq]
    constructor
    · rintro ⟨hne, _, ⟨⟨v, hv, rfl⟩, -⟩, rfl⟩
      exact ⟨hne, v.sprint, ⟨v, hv, rfl⟩, (trimSpace_trimSpace v.sprint).symm⟩
    · rintro ⟨hne, _, ⟨v, hv, rfl⟩, rfl⟩
      exact ⟨hne, trimSpace v.sprint, ⟨⟨v, hv, rfl⟩, hne⟩, trimSpace_trimSpace v.sprint⟩
  | other => simp [policyFolders, mem_mergeFolderSets, Remote.texts]

theorem mem_decodeStringList {raw : Value} {x : String} :
    x ∈ decodeStringList raw ↔ x ∈ names (storedTexts raw) := by
  unfold decodeStringList storedTexts
  cases decodeStrings raw with
  | none => simp [mem_names]
  | some values => simp [mem_mergeFolderSets]

/-! ## The folders that are set -/

/-- The stored baseline, or the folders that the first sync has found. -/
def baselineTexts (remote : Remote) (row : Option Management) : List String :=
  row.elim remote.texts fun m => storedTexts m.baseline

def lastManagedTexts (row : Option Management) : List String :=
  row.elim [] fun m => storedTexts m.lastManaged

variable {remote remote' : Remote} {row row' : Option Management} {managed managed' : List String}
  {x : String}

theorem mem_baselineFolders : x ∈ baselineFolders remote row ↔ x ∈ names (baselineTexts remote row) := by
  cases row with
  | none => exact mem_policyFolders
  | some m => exact mem_decodeStringList

theorem mem_lastManagedFolders : x ∈ lastManagedFolders row ↔ x ∈ names (lastManagedTexts row) := by
  cases row with
  | none => simp [lastManagedFolders, lastManagedTexts, mem_names]
  | some m => exact mem_decodeStringList

theorem baselineFolders_clean : ∀ x ∈ baselineFolders remote row, x ≠ "" ∧ trimSpace x = x := by
  intro x hx
  obtain ⟨hne, y, -, rfl⟩ := mem_names.1 (mem_baselineFolders.1 hx)
  exact ⟨hne, trimSpace_trimSpace y⟩

theorem policyFolders_clean : ∀ x ∈ policyFolders remote, x ≠ "" ∧ trimSpace x = x := by
  intro x hx
  obtain ⟨hne, y, -, rfl⟩ := mem_names.1 (mem_policyFolders.1 hx)
  exact ⟨hne, trimSpace_trimSpace y⟩

/-- **The folders that are set**: those of the baseline, those that are there and were not managed, and
those of the entitlements. -/
theorem mem_desiredFolders : x ∈ desiredFolders remote row managed ↔
    x ∈ names (baselineTexts remote row) ∨
      (x ∈ names remote.texts ∧ x ∉ names (lastManagedTexts row)) ∨ x ∈ names managed := by
  have hsub : x ∈ names (subtractFolderSet (policyFolders remote) (lastManagedFolders row)) ↔
      x ∈ names remote.texts ∧ x ∉ names (lastManagedTexts row) := by
    unfold subtractFolderSet
    rw [names_of_clean fun y hy => policyFolders_clean y (List.mem_of_mem_filter hy)]
    simp only [List.mem_filter, decide_eq_true_eq, mem_policyFolders,
      mem_lastManagedFolders]
  have hbase : x ∈ names (baselineFolders remote row) ↔ x ∈ names (baselineTexts remote row) :=
    (names_of_clean baselineFolders_clean).trans mem_baselineFolders
  simp only [desiredFolders, mem_mergeFolderSets, List.mem_cons, List.not_mem_nil, or_false,
    exists_eq_or_imp, exists_eq_left, hsub, hbase]

/-! ## Orders and repetitions -/

theorem mapM_option {α β : Type} (f : α → Option β) : ∀ l : List α,
    l.mapM f = if ∀ a ∈ l, (f a).isSome then some (l.filterMap f) else none
  | [] => by simp
  | a :: l => by
    rw [List.mapM_cons, mapM_option f l]
    cases hf : f a with
    | none => simp [hf]
    | some b =>
      by_cases hl : ∀ a ∈ l, (f a).isSome
      · rw [if_pos hl, if_pos (by simpa [hf] using hl), List.filterMap_cons_some hf]
        rfl
      · rw [if_neg hl, if_neg (by simpa [hf] using hl)]
        rfl

theorem names_congr {values values' : List String} (h : ∀ x, x ∈ values ↔ x ∈ values') :
    names values = names values' := by
  ext x
  simp only [mem_names, h]

theorem names_texts (h : remote.Same remote') : names remote.texts = names remote'.texts := by
  refine names_congr fun x => ?_
  cases remote <;> cases remote' <;>
    simp_all [Remote.Same, Remote.texts]

theorem names_stored {raw raw' : Value} (h : SameStored raw raw') :
    names (storedTexts raw) = names (storedTexts raw') := by
  rcases h with rfl | ⟨es, es', rfl, rfl, h⟩
  · rfl
  · refine names_congr fun x => ?_
    simp only [storedTexts, decodeStrings, mapM_option, h]
    split
    · simp only [Option.getD_some, List.mem_filterMap, h]
    · rfl

theorem names_baseline (hremote : remote.Same remote') (hrow : SameRow row row') :
    names (baselineTexts remote row) = names (baselineTexts remote' row') := by
  cases row <;> cases row'
  · exact names_texts hremote
  · exact hrow.elim
  · exact hrow.elim
  · exact names_stored hrow.1

theorem names_lastManaged (hrow : SameRow row row') :
    names (lastManagedTexts row) = names (lastManagedTexts row') := by
  cases row <;> cases row'
  · rfl
  · exact hrow.elim
  · exact hrow.elim
  · exact names_stored hrow.2

/-- The folders do not depend on orders and repetitions. -/
theorem desiredFolders_congr (hremote : remote.Same remote') (hrow : SameRow row row')
    (hmanaged : ∀ x, x ∈ managed ↔ x ∈ managed') :
    desiredFolders remote row managed = desiredFolders remote' row' managed' := by
  refine mergeFolderSets_ext fun x => ?_
  show x ∈ desiredFolders remote row managed ↔ x ∈ desiredFolders remote' row' managed'
  rw [mem_desiredFolders, mem_desiredFolders, names_texts hremote, names_baseline hremote hrow,
    names_lastManaged hrow, names_congr hmanaged]

/-! ## A second sync -/

theorem storedTexts_encode (values : List String) :
    storedTexts (encodeFolders values.isEmpty values) = values ∧
      storedTexts (encodeFolders false values) = values := by
  have harray : storedTexts (.array (values.map .string)) = values := by
    simp only [storedTexts, decodeStrings, mapM_option]
    rw [if_pos (by simp [decodeString]), Option.getD_some, List.filterMap_map]
    exact List.filterMap_some
  refine ⟨?_, harray⟩
  cases values with
  | nil => rfl
  | cons x xs => exact harray

/-- **A second sync with the same entitlements** leaves the folders as they are. -/
theorem desiredFolders_again (h : remote'.texts = desiredFolders remote row managed) :
    desiredFolders remote' (some (recordFolders remote row managed)) managed =
      desiredFolders remote row managed := by
  refine mergeFolderSets_ext fun x => ?_
  show x ∈ desiredFolders _ _ _ ↔ x ∈ desiredFolders _ _ _
  have hbase : names (baselineTexts remote' (some (recordFolders remote row managed))) =
      names (baselineTexts remote row) := by
    cases row with
    | none =>
      show names (storedTexts (encodeFolders false (policyFolders remote))) = names remote.texts
      rw [(storedTexts_encode _).2]
      ext y
      rw [names_of_clean policyFolders_clean, mem_policyFolders]
    | some m => rfl
  have hlast : lastManagedTexts (some (recordFolders remote row managed)) = managed :=
    (storedTexts_encode managed).1
  have hnew : x ∈ names remote'.texts ↔ x ∈ desiredFolders remote row managed := by
    rw [h]
    exact names_of_clean mergeFolderSets_clean
  rw [mem_desiredFolders, hbase, hlast, hnew, mem_desiredFolders]
  -- what is there and no entitlement is in the baseline, or was there and was not managed
  tauto

/-! ## The laws -/

/-- **The laws of the folder lists.** The list is sorted, and its names are distinct, trimmed and not
blank; orders and repetitions do not matter; it is the baseline with what is there and was not managed
and what the account is entitled to; and a second sync changes nothing. -/
theorem folders_algebra (remote : Remote) (row : Option Management) (managed : List String) :
    (desiredFolders remote row managed).Pairwise (· < ·) ∧
      (∀ x ∈ desiredFolders remote row managed, x ≠ "" ∧ trimSpace x = x) ∧
      (∀ remote' row' managed', remote.Same remote' → SameRow row row' →
        (∀ x, x ∈ managed ↔ x ∈ managed') →
          desiredFolders remote row managed = desiredFolders remote' row' managed') ∧
      (∀ x, x ∈ desiredFolders remote row managed ↔ x ∈ names (baselineTexts remote row) ∨
        (x ∈ names remote.texts ∧ x ∉ names (lastManagedTexts row)) ∨ x ∈ names managed) ∧
      ∀ remote', remote' = .strings (desiredFolders remote row managed) ∨
          remote' = .anys ((desiredFolders remote row managed).map .string) →
        desiredFolders remote' (some (recordFolders remote row managed)) managed =
          desiredFolders remote row managed := by
  refine ⟨?_, mergeFolderSets_clean, fun _ _ _ => desiredFolders_congr,
    fun _ => mem_desiredFolders, fun remote' h => desiredFolders_again ?_⟩
  · unfold desiredFolders mergeFolderSets
    exact (Finset.sortedLT_sort (names _)).pairwise
  · rcases h with rfl | rfl
    · rfl
    · show ((desiredFolders remote row managed).map Value.string).map Value.sprint = _
      rw [List.map_map]
      exact (List.map_congr_left fun _ _ => by simp [Value.sprint]).trans (List.map_id _)

end Sakura.Folders
