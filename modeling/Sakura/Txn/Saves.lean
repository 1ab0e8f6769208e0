/-
  Saves of rows with a revision.

  A row has a key, a revision and entries of unique indexes.  One of the entries may be a mark, which one
  row at a time can have.  A save locks its row, compares the revision with the one that it expects, takes
  its mark from the row that has it, and writes the row.

  * `Saved`, `Shelf`: the rows, and a store with a table of them;
  * `Save`, `Save.apply`: a save, and what it makes of the table at once;
  * `Save.run`: its statements;
  * `Accepted`, `Accepted.increasing`: saves that are accepted one after the other;
  * `discipline`, `run_keeps`: what the saves keep to;
  * `serializable`: those of any interleaving are.
-/
import Sakura.Txn.Labels
import Sakura.Txn.Versions
import Mathlib.Data.Int.Order.Basic

namespace Txn.Saves

open Txn

/-! ## Rows -/

/-- Rows `ρ` with keys `κ` and entries `η` of unique indexes; `unmark` takes the mark away. -/
class Saved (ρ : Type) (κ η : outParam Type) where
  key : ρ → κ
  revision : ρ → Int
  codes : ρ → List η
  mark : ρ → Option η
  unmark : ρ → ρ
  key_unmark : ∀ r, key (unmark r) = key r
  revision_unmark : ∀ r, revision (unmark r) = revision r
  codes_unmark : ∀ r, codes (unmark r) = codes r
  mark_unmark : ∀ r, mark (unmark r) = none

/-- A table of rows, and what else the saves read. -/
structure Shelf (ρ ω : Type) where
  rows : List ρ
  rest : ω

inductive Lock (κ η : Type) where
  | row (key : κ)
  | entry (entry : η)
  deriving DecidableEq

variable {ρ κ η ω χ ν ι : Type} [DecidableEq κ] [DecidableEq η] [Saved ρ κ η]

open Saved

def entries (r : ρ) : List η := codes r ++ (mark r).toList

/-- The locks of a row and of its entries. -/
def locksOf (r : ρ) : Held (Lock κ η) :=
  (.row (key r), .exclusive) :: (entries r).map fun e => (.entry e, .exclusive)

omit [DecidableEq η] in
instance : Layers (Shelf ρ ω) (List ρ) where
  lay s δ := { s with rows := overlay key s.rows δ }
  none := []
  merge := overlay key
  lay_none s := by simp
  lay_lay s δ δ' := by simp [overlay_assoc]

def shelf : Rows (Shelf ρ ω) (List ρ) ρ κ (Lock κ η) := ⟨Shelf.rows, key, .row, fun r => [r]⟩

/-! ## Saves -/

/-- A save.  A new row is `fresh`, another one becomes `set` of what it was, if `permits` holds of it; the
columns take only a row that `stores` holds of. -/
structure Save (ρ χ : Type) {κ η : Type} [Saved ρ κ η] where
  /-- The key of the row and the revision that is expected; none for a new row. -/
  target : Option (κ × Int)
  fresh : ρ
  set : ρ → ρ
  permits : ρ → Bool
  stores : ρ → Bool
  missing : χ
  stale : χ
  forbidden : χ
  refused : χ
  key_set : ∀ {k n r}, target = some (k, n) → key r = k → key (set r) = k
  revision_set : ∀ {k n r}, target = some (k, n) → key r = k → revision (set r) = revision r + 1
  mark_set : ∀ {k n r}, target = some (k, n) → key r = k → mark (set r) = mark fresh

namespace Save

variable (c : Save ρ χ)

def rowKey : κ := c.target.elim (key c.fresh) Prod.fst

/-- The save takes the mark of the row. -/
def takes (r : ρ) : Bool :=
  (mark c.fresh).isSome && decide (mark r = mark c.fresh) && decide (key r ≠ c.rowKey)

/-- Another row has an entry of `row`. -/
def clashes (row r : ρ) : Bool :=
  decide (key r ≠ key row) && (entries r).any (· ∈ entries row)

/-- The table does not take `row`. -/
def rejects (row : ρ) (t : List ρ) : Bool :=
  t.any (clashes row) || (c.target.isNone && t.any fun r => decide (key r = key row)) ||
    !c.stores row

def write (row : ρ) (t : List ρ) : Except χ (List ρ) :=
  let t' := overlay key t ((t.filter c.takes).map unmark)
  if c.rejects row t' then .error c.refused else .ok (put key t' row)

/-- The save at once. -/
def apply (t : List ρ) : Except χ (List ρ) :=
  match c.target with
  | none => c.write c.fresh t
  | some (k, expected) => match t.find? fun r => decide (key r = k) with
    | none => .error c.missing
    | some r =>
      if revision r ≠ expected then .error c.stale
      else if c.permits r then c.write (c.set r) t
      else .error c.forbidden

/-! ## Statements -/

section

variable [Inhabited ν]

/-- `UPDATE … SET is_default=FALSE` on one row. -/
def unmarked (k : κ) (v : Shelf ρ ω) : Prog.Outcome (Shelf ρ ω) (Lock κ η) χ Unit :=
  match shelf.find k c.takes v with
  | none => { locks := [(.row k, .exclusive)], result := .ok () }
  | some r =>
    { locks := locksOf r, write := fun s => Layers.lay s [unmark r], result := .ok () }

def unmarkEach : List κ → Prog ν (Shelf ρ ω) (Lock κ η) (Save ρ χ) χ Unit
  | [] => pure ()
  | k :: ks => do
    .exec default (c.unmarked k)
    unmarkEach ks

/-- The mark is taken from the rows that have it. -/
def takeMark : Prog ν (Shelf ρ ω) (Lock κ η) (Save ρ χ) χ Unit := do
  if (mark c.fresh).isSome then
    c.unmarkEach (← read fun v => (v.rows.filter c.takes).map key)

/-- `INSERT` -/
def inserted (v : Shelf ρ ω) : Prog.Outcome (Shelf ρ ω) (Lock κ η) χ Unit :=
  if c.rejects c.fresh v.rows then Prog.refuse c.refused
  else { locks := locksOf c.fresh, write := fun s => Layers.lay s [c.fresh], result := .ok () }

/-- `UPDATE … WHERE id=…` -/
def updated (k : κ) (v : Shelf ρ ω) : Prog.Outcome (Shelf ρ ω) (Lock κ η) χ Unit :=
  match shelf.find k (fun _ => true) v with
  | none => { locks := [(.row k, .exclusive)], result := .ok () }
  | some r =>
    if c.rejects (c.set r) v.rows then Prog.refuse c.refused
    else
      { locks := locksOf r ++ locksOf (c.set r), write := fun s => Layers.lay s [c.set r]
        result := .ok () }

/-- The transaction of a save. -/
def run : Prog ν (Shelf ρ ω) (Lock κ η) (Save ρ χ) χ Unit := do
  match c.target with
  | none =>
    c.takeMark
    .exec default c.inserted
  | some (k, expected) =>
    let r ← .orFail c.missing (← shelf.lockRow .exclusive fun r => decide (key r = k))
    .check (revision r = expected) c.stale
    .check (c.permits r) c.forbidden
    c.takeMark
    .exec default (c.updated k)
  .publish c

end

end Save

/-! ## Tables -/

/-- The unique indexes. -/
structure WellFormed (t : List ρ) : Prop where
  keys : UniqueBy key t
  entries : ∀ r ∈ t, ∀ r' ∈ t, key r ≠ key r' → ∀ e ∈ entries r, e ∉ entries r'

section Apply

variable {c : Save ρ χ} {row r : ρ} {t t' : List ρ}

omit [DecidableEq κ] [DecidableEq η] in
theorem entries_unmark (r : ρ) : entries (unmark r) = codes r := by
  unfold entries
  rw [codes_unmark, mark_unmark, Option.toList_none, List.append_nil]

omit [DecidableEq κ] [DecidableEq η] in
theorem mem_entries_unmark {e : η} (h : e ∈ entries (unmark r)) : e ∈ entries r := by
  rw [entries_unmark] at h
  exact List.mem_append_left _ h

theorem takes_unmark (c : Save ρ χ) (r : ρ) :
    c.takes (unmark r) = false := by
  unfold Save.takes
  rw [mark_unmark]
  cases mark c.fresh <;> rfl

/-- The row that a save writes, of the table `t`. -/
def Save.Origin (c : Save ρ χ) (t : List ρ) (row : ρ) : Prop :=
  (c.target = none ∧ row = c.fresh ∧ ∀ r ∈ t, key r ≠ key row) ∨
    ∃ k n, c.target = some (k, n) ∧ ∃ r ∈ t, key r = k ∧ revision r = n ∧ c.permits r = true ∧
      row = c.set r

omit [DecidableEq κ] [DecidableEq η] in
theorem Save.Origin.key_eq (h : c.Origin t row) : key row = c.rowKey := by
  rcases h with ⟨hc, rfl, -⟩ | ⟨k, n, hc, r, -, hk, -, -, rfl⟩
  · simp [Save.rowKey, hc]
  · rw [c.key_set hc hk]
    simp [Save.rowKey, hc]

omit [DecidableEq κ] [DecidableEq η] in
theorem Save.Origin.mark_eq (h : c.Origin t row) : mark row = mark c.fresh := by
  rcases h with ⟨-, rfl, -⟩ | ⟨k, n, hc, r, -, hk, -, -, rfl⟩
  · rfl
  · exact c.mark_set hc hk

/-- The versions of the rows that lose the mark. -/
def Save.taken (c : Save ρ χ) (t : List ρ) : List ρ := (t.filter c.takes).map unmark

/-- The row is written to the table. -/
structure Save.Writes (c : Save ρ χ) (t : List ρ) (row : ρ) (t' : List ρ) : Prop where
  origin : c.Origin t row
  stores : c.stores row = true
  clear : ∀ r ∈ overlay key t (c.taken t), key r ≠ key row → ∀ e ∈ entries r, e ∉ entries row
  eq : t' = put key (overlay key t (c.taken t)) row

theorem rejects_iff : c.rejects row t = false ↔ c.stores row = true ∧
    (∀ r ∈ t, key r ≠ key row → ∀ e ∈ entries r, e ∉ entries row) ∧
      (c.target = none → ∀ r ∈ t, key r ≠ key row) := by
  simp only [Save.rejects, Save.clashes, Bool.or_eq_false_iff, Bool.and_eq_false_imp,
    Bool.not_eq_false', List.any_eq_false, Option.isNone_iff_eq_none, Bool.and_eq_true,
    decide_eq_true_eq, not_and, List.any_eq_true, not_exists]
  tauto

/-- The rows that lose the mark keep their keys. -/
theorem key_taken (h : r ∈ overlay key t (c.taken t)) : ∃ r₀ ∈ t, key r₀ = key r := by
  rcases mem_overlay.1 h with ⟨h, -⟩ | h
  · exact ⟨r, h, rfl⟩
  · obtain ⟨r₀, h₀, rfl⟩ := List.mem_map.1 h
    exact ⟨r₀, (List.mem_filter.1 h₀).1, (key_unmark r₀).symm⟩

theorem write_eq (row : ρ) (t : List ρ) : c.write row t =
    if c.rejects row (overlay key t (c.taken t)) then .error c.refused
    else .ok (put key (overlay key t (c.taken t)) row) := rfl

/-- A row is written where it is stored and clear. -/
theorem write_iff (ho : c.Origin t row) : c.write row t = .ok t' ↔ c.Writes t row t' := by
  rw [write_eq]
  cases hr : c.rejects row (overlay key t (c.taken t)) with
  | true =>
    refine ⟨fun h => by simp at h, fun h => ?_⟩
    rw [rejects_iff.2 ⟨h.stores, h.clear, fun hnone r hmem e => ?_⟩] at hr
    · cases hr
    · obtain ⟨r₀, h₀, hk⟩ := key_taken hmem
      rcases ho with ⟨-, -, hfree⟩ | ⟨k, n, hc, -⟩
      · exact hfree r₀ h₀ (hk.trans e)
      · rw [hnone] at hc
        cases hc
  | false =>
    obtain ⟨hstores, hclear, -⟩ := rejects_iff.1 hr
    exact ⟨fun h => ⟨ho, hstores, hclear, (Except.ok.inj h).symm⟩, fun h => by rw [h.eq]; rfl⟩

/-- A new row that is written has a new key. -/
theorem fresh_of_write (hc : c.target = none) (h : c.write c.fresh t = .ok t') :
    ∀ r ∈ t, key r ≠ key c.fresh := by
  intro r hr e
  obtain ⟨r', hr', hk⟩ : ∃ y ∈ overlay key t (c.taken t), key y = key r := exists_overlay _ hr
  have hfree : c.rejects c.fresh (overlay key t (c.taken t)) = false := by
    by_contra hrej
    rw [write_eq, if_pos (by simpa using hrej)] at h
    cases h
  exact (rejects_iff.1 hfree).2.2 hc r' hr' (hk.trans e)

/-- **What an accepted save does.** -/
theorem apply_iff (hkeys : UniqueBy key t) : c.apply t = .ok t' ↔ ∃ row, c.Writes t row t' := by
  unfold Save.apply
  cases hc : c.target with
  | none =>
    constructor
    · intro h
      exact ⟨c.fresh, (write_iff (Or.inl ⟨hc, rfl, fresh_of_write hc h⟩)).1 h⟩
    · rintro ⟨row, h⟩
      have ho := h.origin
      rcases ho with ⟨-, rfl, -⟩ | ⟨k, n, hc', -⟩
      · exact (write_iff h.origin).2 h
      · rw [hc] at hc'
        cases hc'
  | some target =>
    obtain ⟨k, n⟩ := target
    constructor
    · intro h
      dsimp only at h
      split at h
      · cases h
      · next r hf =>
        have hmem := List.mem_of_find?_eq_some hf
        have hk : key r = k := by simpa using List.find?_some hf
        split at h
        · cases h
        · next hn =>
          split at h
          · next hp =>
            exact ⟨_, (write_iff (Or.inr ⟨k, n, hc, r, hmem, hk, not_not.1 hn, hp, rfl⟩)).1 h⟩
          · cases h
    · rintro ⟨row, h⟩
      rcases h.origin with ⟨hnone, -⟩ | ⟨k', n', hc', r, hmem, rfl, rfl, hp, rfl⟩
      · rw [hc] at hnone
        cases hnone
      · obtain ⟨rfl, rfl⟩ := Prod.mk.inj (Option.some.inj (hc.symm.trans hc'))
        dsimp only
        rw [hkeys.find?_eq hmem]
        dsimp only
        rw [if_neg (not_not.2 rfl), if_pos hp]
        exact (write_iff h.origin).2 h

/-- The rows after a save. -/
theorem Save.Writes.mem (h : c.Writes t row t') {x : ρ} (hx : x ∈ t') :
    x = row ∨ key x ≠ key row ∧
      (x ∈ t ∧ c.takes x = false ∨ ∃ r ∈ t, c.takes r = true ∧ x = unmark r) := by
  rw [h.eq] at hx
  rcases mem_put.1 hx with ⟨hx, hne⟩ | rfl
  · refine Or.inr ⟨hne, ?_⟩
    rcases mem_overlay.1 hx with ⟨hx, hfree⟩ | hx
    · refine Or.inl ⟨hx, ?_⟩
      by_contra ht
      have ht : c.takes x = true := by simpa using ht
      exact hfree _ (List.mem_map.2 ⟨x, List.mem_filter.2 ⟨hx, ht⟩, rfl⟩) (key_unmark x)
    · obtain ⟨r, hr, rfl⟩ := List.mem_map.1 hx
      obtain ⟨hr, ht⟩ := List.mem_filter.1 hr
      exact Or.inr ⟨r, hr, ht, rfl⟩
  · exact Or.inl rfl

/-- A save keeps the indexes unique. -/
theorem Save.Writes.wellFormed (hw : WellFormed t) (h : c.Writes t row t') : WellFormed t' where
  keys := by
    rw [h.eq]
    refine UniqueBy.put (hw.keys.overlay ?_ fun _ _ _ _ e => e) fun _ _ e => e
    unfold UniqueBy Save.taken
    rw [List.map_map, show key ∘ unmark = (key : ρ → κ) from funext key_unmark]
    exact (List.filter_sublist.map _).nodup hw.keys
  entries := by
    -- a row that is not written has no entry that it had not before
    have hold : ∀ x ∈ t', x ≠ row → key x ≠ key row ∧ x ∈ overlay key t (c.taken t) ∧
        ∃ r ∈ t, key r = key x ∧ ∀ e ∈ entries x, e ∈ entries r := by
      intro x hx hne
      rw [h.eq] at hx
      rcases mem_put.1 hx with ⟨hx, hk⟩ | rfl
      · refine ⟨hk, hx, ?_⟩
        rcases mem_overlay.1 hx with ⟨hx, -⟩ | hx
        · exact ⟨x, hx, rfl, fun _ => id⟩
        · obtain ⟨r, hr, rfl⟩ := List.mem_map.1 hx
          exact ⟨r, (List.mem_filter.1 hr).1, (key_unmark r).symm, fun _ => mem_entries_unmark⟩
      · exact absurd rfl hne
    intro x hx y hy hne e hex hey
    by_cases hxr : x = row
    · subst hxr
      obtain ⟨hk, hy, -⟩ := hold y hy fun e => hne (by rw [e])
      exact h.clear y hy hk e hey hex
    · obtain ⟨hk, hx, r, hr, hkr, hsub⟩ := hold x hx hxr
      by_cases hyr : y = row
      · subst hyr
        exact h.clear x hx hk e hex hey
      · obtain ⟨-, -, r', hr', hkr', hsub'⟩ := hold y hy hyr
        exact hw.entries r hr r' hr' (by rwa [hkr, hkr']) e (hsub e hex) (hsub' e hey)

theorem takes_iff : c.takes r = true ↔
    ∃ m, mark c.fresh = some m ∧ mark r = some m ∧ key r ≠ c.rowKey := by
  simp only [Save.takes, Bool.and_eq_true, decide_eq_true_eq, Option.isSome_iff_exists]
  constructor
  · rintro ⟨⟨⟨m, hm⟩, hr⟩, hne⟩
    exact ⟨m, hm, hr.trans hm, hne⟩
  · rintro ⟨m, hm, hr, hne⟩
    exact ⟨⟨⟨m, hm⟩, hr.trans hm.symm⟩, hne⟩

omit [DecidableEq κ] [DecidableEq η] in
/-- One row has the mark. -/
theorem WellFormed.mark_eq (hw : WellFormed t) {r' : ρ} (hr : r ∈ t) (hr' : r' ∈ t) {m : η}
    (hm : mark r = some m) (hm' : mark r' = some m) : r = r' := by
  by_contra hne
  refine hw.entries r hr r' hr' (fun e => hne (hw.keys.eq hr hr' e)) m ?_ ?_
  · exact List.mem_append_right _ (by rw [hm]; simp)
  · exact List.mem_append_right _ (by rw [hm']; simp)

end Apply

/-! ## Saves one after the other -/

/-- The saves are accepted, each on the table that those before it leave. -/
def Accepted (t : List ρ) (cs : List (Save ρ χ)) (t' : List ρ) : Prop :=
  cs.foldlM (fun t c => c.apply t) t = .ok t'

section Accepted

variable {c c' : Save ρ χ} {cs : List (Save ρ χ)} {t t' : List ρ}

theorem accepted_cons : Accepted t (c :: cs) t' ↔ ∃ t₁, c.apply t = .ok t₁ ∧ Accepted t₁ cs t' := by
  unfold Accepted
  rw [List.foldlM_cons]
  show (c.apply t).bind _ = _ ↔ _
  cases c.apply t with
  | error x => exact ⟨nofun, fun ⟨_, h, _⟩ => nomatch h⟩
  | ok t₁ => exact ⟨fun h => ⟨t₁, rfl, h⟩, fun ⟨_, h, h'⟩ => Except.ok.inj h ▸ h'⟩

theorem accepted_snoc (h : Accepted t cs t') {t'' : List ρ} (hc : c.apply t' = .ok t'') :
    Accepted t (cs ++ [c]) t'' := by
  unfold Accepted at h ⊢
  rw [List.foldlM_append, h]
  exact accepted_cons.2 ⟨t'', hc, rfl⟩

/-- A row is not lost, and its revision does not decrease. -/
theorem Save.Writes.kept {row : ρ} (h : c.Writes t row t') (hw : WellFormed t) {r : ρ} (hr : r ∈ t) :
    ∃ r' ∈ t', key r' = key r ∧ revision r ≤ revision r' ∧
      (c.target.map Prod.fst = some (key r) → revision r < revision r') := by
  by_cases hk : key row = key r
  · refine ⟨row, by rw [h.eq]; exact mem_put.2 (Or.inr rfl), hk, ?_⟩
    rcases h.origin with ⟨-, rfl, hfree⟩ | ⟨k, n, hc, r₀, h₀, hk₀, -, -, rfl⟩
    · exact absurd hk.symm (hfree r hr)
    · rw [c.key_set hc hk₀] at hk
      rw [c.revision_set hc hk₀, hw.keys.eq h₀ hr (hk₀.trans hk)]
      exact ⟨by omega, fun _ => by omega⟩
  · have hne : c.target.map Prod.fst ≠ some (key r) := by
      rcases h.origin with ⟨hc, -⟩ | ⟨k, n, hc, r₀, -, hk₀, -, -, rfl⟩
      · simp [hc]
      · rw [hc]
        rw [c.key_set hc hk₀] at hk
        simpa using hk
    obtain ⟨r', hr', hk'⟩ : ∃ y ∈ overlay key t (c.taken t), key y = key r := exists_overlay _ hr
    refine ⟨r', by rw [h.eq]; exact mem_put.2 (Or.inl ⟨hr', by rwa [hk', ne_comm]⟩), hk', ?_,
      fun e => absurd e hne⟩
    rcases mem_overlay.1 hr' with ⟨hr', -⟩ | hr'
    · exact le_of_eq (congrArg revision (hw.keys.eq hr' hr hk')).symm
    · obtain ⟨r₀, h₀, rfl⟩ := List.mem_map.1 hr'
      rw [key_unmark] at hk'
      rw [revision_unmark]
      exact le_of_eq (congrArg revision (hw.keys.eq (List.mem_filter.1 h₀).1 hr hk')).symm

/-- No save expects a revision that the row has already left. -/
theorem Accepted.expects {k : κ} {n : Int} : ∀ {cs : List (Save ρ χ)} {t t' : List ρ} {r : ρ},
    Accepted t cs t' → WellFormed t → r ∈ t → key r = k → c ∈ cs → c.target = some (k, n) →
      revision r ≤ n
  | c₁ :: cs, t, t', r, h, hw, hr, hk, hc, htarget => by
    obtain ⟨t₁, h₁, hcs⟩ := accepted_cons.1 h
    obtain ⟨row, hwrites⟩ := (apply_iff hw.keys).1 h₁
    rcases List.mem_cons.1 hc with rfl | hc
    · rcases hwrites.origin with ⟨hnone, -⟩ | ⟨k', n', hc', r₀, h₀, hk₀, hn₀, -, -⟩
      · rw [htarget] at hnone
        cases hnone
      · obtain ⟨rfl, rfl⟩ := Prod.mk.inj (Option.some.inj (htarget.symm.trans hc'))
        exact le_of_eq ((congrArg revision (hw.keys.eq hr h₀ (hk.trans hk₀.symm))).trans hn₀)
    · obtain ⟨r₁, hr₁, hk₁, hle, -⟩ := hwrites.kept hw hr
      exact hle.trans (hcs.expects (hwrites.wellFormed hw) hr₁ (hk₁.trans hk) hc htarget)

/-- The later save of a row expects a later revision. -/
def Save.Before (c c' : Save ρ χ) : Prop :=
  ∀ k n n', c.target = some (k, n) → c'.target = some (k, n') → n < n'

/-- **No update is lost**: of two accepted saves of one row, the later has seen what the earlier wrote. -/
theorem Accepted.increasing : ∀ {cs : List (Save ρ χ)} {t t' : List ρ}, Accepted t cs t' →
    WellFormed t → cs.Pairwise Save.Before
  | [], _, _, _, _ => .nil
  | c :: cs, t, t', h, hw => by
    obtain ⟨t₁, h₁, hcs⟩ := accepted_cons.1 h
    obtain ⟨row, hwrites⟩ := (apply_iff hw.keys).1 h₁
    have hw₁ := hwrites.wellFormed hw
    refine List.pairwise_cons.2 ⟨fun c' hc' k n n' hk hk' => ?_, hcs.increasing hw₁⟩
    rcases hwrites.origin with ⟨hnone, -⟩ | ⟨k₀, n₀, hc₀, r, hr, hkr, hn, -, -⟩
    · rw [hk] at hnone
      cases hnone
    · obtain ⟨rfl, rfl⟩ := Prod.mk.inj (Option.some.inj (hk.symm.trans hc₀))
      obtain ⟨r₁, hr₁, hk₁, -, hlt⟩ := hwrites.kept hw hr
      have hlt : revision r < revision r₁ := hlt (by rw [hk, hkr]; rfl)
      have hle := hcs.expects hw₁ hr₁ (hk₁.trans hkr) hc' hk'
      omega

/-- What every save keeps, all of them keep. -/
theorem Accepted.keeps {P : List ρ → Prop}
    (hP : ∀ {c t row t'}, c ∈ cs → WellFormed t → Save.Writes c t row t' → P t → P t') :
    ∀ {t t' : List ρ}, Accepted t cs t' → WellFormed t → P t → WellFormed t' ∧ P t' := by
  induction cs with
  | nil =>
    intro t t' h hw ht
    cases h
    exact ⟨hw, ht⟩
  | cons c cs ih =>
    intro t t' h hw ht
    obtain ⟨t₁, h₁, hcs⟩ := accepted_cons.1 h
    obtain ⟨row, hwrites⟩ := (apply_iff hw.keys).1 h₁
    exact ih (fun hc => hP (List.mem_cons_of_mem _ hc)) hcs (hwrites.wellFormed hw)
      (hP List.mem_cons_self hw hwrites ht)

end Accepted

/-! ## What the saves keep to -/

/-- The versions of a transaction are made under its locks. -/
structure Respects (δ : List ρ) (L : Held (Lock κ η)) (t : List ρ) : Prop where
  rows : Versioned key (fun k => Owns L (.row k)) (fun k => Owns L (.row k)) (fun _ _ => True) t δ
  entries : ∀ r ∈ δ, ∀ e ∈ entries r, Owns L (.entry e)

/-- **A commit does what the save does at once.** -/
def discipline (ν ω : Type) : Discipline ν (Shelf ρ ω) (Lock κ η) (Save ρ χ) where
  inv s := WellFormed s.rows
  step L s c s' := ∃ δ, Respects δ L s.rows ∧ s' = Layers.lay s δ ∧ c.apply s.rows = .ok s'.rows
  allowed _ _ := True
  step_inv := by
    rintro L s c s' hw ⟨δ, -, -, h⟩
    obtain ⟨row, hwrites⟩ := (apply_iff hw.keys).1 h
    exact hwrites.wellFormed hw

section Keeps

variable {c : Save ρ χ} {row r : ρ} {δ δ' : List ρ} {L M : Held (Lock κ η)} {s : Shelf ρ ω} {t : List ρ}

omit [DecidableEq κ] [DecidableEq η] in
theorem Respects.mono (hLM : L ⊆ M) (h : Respects δ L t) : Respects δ M t :=
  ⟨h.rows.mono (fun _ => Owns.mono hLM) fun _ => Owns.mono hLM, fun r hr e he =>
    (h.entries r hr e he).mono hLM⟩

omit [DecidableEq η] in
theorem Respects.overlay (h : Respects δ L t) (h' : Respects δ' M t) (hc : Compatible L M) :
    Respects δ L (overlay key t δ') :=
  ⟨h.rows.overlay h'.rows (fun _ hl => hl.not_owns hc) fun _ hl => hl.not_owns hc, h.entries⟩

/-- The row is locked. -/
def Locked (r : ρ) (L : Held (Lock κ η)) (s : Shelf ρ ω) : Prop := r ∈ s.rows ∧ Owns L (.row (key r))

theorem keeps_locked : (discipline ν ω (χ := χ)).Keeps (Locked r) where
  mono hLM h := ⟨h.1, h.2.mono hLM⟩
  step := by
    rintro L M s c _ - hc ⟨δ, hδ, rfl, -⟩ ⟨hr, hl⟩
    exact ⟨hδ.rows.mem_overlay hr (hl.not_owns hc), hl⟩

/-- The versions are of rows that lose the mark. -/
structure Taking (c : Save ρ χ) (δ : List ρ) (L : Held (Lock κ η)) (s : Shelf ρ ω) : Prop where
  respects : Respects δ L s.rows
  taken : ∀ d ∈ δ, ∃ r, Locked r L s ∧ c.takes r = true ∧ d = unmark r

theorem keeps_taking : (discipline ν ω (χ := χ)).Keeps (Taking c δ) where
  mono hLM h := ⟨h.respects.mono hLM, fun d hd => by
    obtain ⟨r, hr, ht, e⟩ := h.taken d hd
    exact ⟨r, ⟨hr.1, hr.2.mono hLM⟩, ht, e⟩⟩
  step := by
    rintro L M s c' s' hi hc hs h
    obtain ⟨δ', hδ', rfl, ha⟩ := hs
    refine ⟨h.respects.overlay hδ' hc, fun d hd => ?_⟩
    obtain ⟨r, hr, ht, e⟩ := h.taken d hd
    exact ⟨r, (keeps_locked (ν := ν)).step hi hc ⟨δ', hδ', rfl, ha⟩ hr, ht, e⟩

/-- The versions `δ` and the row are written, and nothing stands against it. -/
structure Written (c : Save ρ χ) (row : ρ) (δ : List ρ) (L : Held (Lock κ η)) (s : Shelf ρ ω) : Prop where
  taking : Taking c δ L s
  origin : c.Origin s.rows row
  stores : c.stores row = true
  clear : ∀ r ∈ overlay key s.rows δ, key r ≠ key row → ∀ e ∈ entries r, e ∉ entries row
  locked : Owns L (.row (key row))
  owned : ∀ e ∈ entries row, Owns L (.entry e)

theorem keeps_written : (discipline ν ω (χ := χ)).Keeps (Written c row δ) where
  mono hLM h :=
    { h with
      taking := (keeps_taking (ν := ν)).mono hLM h.taking
      locked := h.locked.mono hLM
      owned := fun e he => (h.owned e he).mono hLM }
  step := by
    rintro L M s c' s' hi hc hs h
    obtain ⟨δ', hδ', rfl, ha⟩ := hs
    refine ⟨keeps_taking.step hi hc ⟨δ', hδ', rfl, ha⟩ h.taking, ?_, h.stores, ?_, h.locked, h.owned⟩
    · rcases h.origin with ⟨hnone, rfl, hfree⟩ | ⟨k, n, hk, r, hr, hkr, hn, hp, rfl⟩
      · exact Or.inl ⟨hnone, rfl, hδ'.rows.fresh_overlay hfree (h.locked.not_owns hc)⟩
      · refine Or.inr ⟨k, n, hk, r, hδ'.rows.mem_overlay hr ?_, hkr, hn, hp, rfl⟩
        have hlocked := h.locked
        rw [c.key_set hk hkr, ← hkr] at hlocked
        exact hlocked.not_owns hc
    · intro r hr hne e he hrow
      rcases mem_overlay.1 hr with ⟨hr, hfree⟩ | hr
      · rcases mem_overlay.1 hr with ⟨hr, -⟩ | hr
        · exact h.clear r (mem_overlay.2 (Or.inl ⟨hr, hfree⟩)) hne e he hrow
        · exact (h.owned e hrow).not_owns hc (hδ'.entries r hr e he)
      · exact h.clear r (mem_overlay_right hr) hne e he hrow

/-- A list with no element twice, whose elements are all `a`. -/
theorem eq_singleton {α : Type} {a : α} {l : List α} (hl : l.Nodup) (ha : a ∈ l) (h : ∀ x ∈ l, x = a) :
    l = [a] := by
  have hrep : l = List.replicate l.length a := List.eq_replicate_of_mem h
  have hle : l.length ≤ 1 := by rwa [hrep, List.nodup_replicate] at hl
  have hpos := List.length_pos_of_mem ha
  rw [hrep, show l.length = 1 by omega]
  rfl

/-- The versions are those of all rows with the mark. -/
theorem Written.taken_eq (h : Written c row δ L s) (hw : WellFormed s.rows) : c.taken s.rows = δ := by
  have hone : ∀ r ∈ s.rows, ∀ r' ∈ s.rows, c.takes r = true → c.takes r' = true → r = r' := by
    intro r hr r' hr' ht ht'
    obtain ⟨m, hm, hrm, -⟩ := takes_iff.1 ht
    obtain ⟨m', hm', hrm', -⟩ := takes_iff.1 ht'
    obtain rfl := Option.some.inj (hm.symm.trans hm')
    exact hw.mark_eq hr hr' hrm hrm'
  rcases hδ : δ with _ | ⟨d, δ'⟩
  · unfold Save.taken
    rw [List.map_eq_nil_iff, List.filter_eq_nil_iff]
    intro r hr ht
    obtain ⟨m, hm, hrm, hne⟩ := takes_iff.1 ht
    refine h.clear r (by rw [hδ, overlay_nil]; exact hr) (h.origin.key_eq ▸ hne) m ?_ ?_
    · exact List.mem_append_right _ (by rw [hrm]; simp)
    · exact List.mem_append_right _ (by rw [h.origin.mark_eq, hm]; simp)
  · obtain ⟨r, hr, ht, rfl⟩ := h.taking.taken d (by rw [hδ]; exact List.mem_cons_self)
    rw [← hδ]
    have hδ' : δ = [unmark r] := by
      refine eq_singleton h.taking.respects.rows.unique.of_map (by rw [hδ]; exact List.mem_cons_self) ?_
      intro x hx
      obtain ⟨r', hr', ht', rfl⟩ := h.taking.taken x hx
      rw [hone r' hr'.1 r hr.1 ht' ht]
    unfold Save.taken
    rw [hδ', eq_singleton (a := r) (hw.keys.of_map.filter _) (List.mem_filter.2 ⟨hr.1, ht⟩) ?_]
    · rfl
    · intro x hx
      obtain ⟨hx, htx⟩ := List.mem_filter.1 hx
      exact hone x hx r hr.1 htx ht

/-- **What is written is the save.** -/
theorem Written.apply (h : Written c row δ L s) (hw : WellFormed s.rows) :
    c.apply s.rows = .ok (overlay key s.rows (put key δ row)) := by
  have heq := h.taken_eq hw
  refine (apply_iff hw.keys).2 ⟨row, h.origin, h.stores, ?_, ?_⟩
  · rw [heq]
    exact h.clear
  · rw [heq, put_overlay]

theorem Written.respects (h : Written c row δ L s) : Respects (put key δ row) L s.rows where
  rows := by
    refine h.taking.respects.rows.put ?_
    rcases h.origin with ⟨-, rfl, hfree⟩ | ⟨k, n, hc, r, hr, hk, -, -, rfl⟩
    · exact Or.inr ⟨hfree, h.locked⟩
    · exact Or.inl ⟨r, hr, hk.trans (c.key_set hc hk).symm, trivial, h.locked⟩
  entries x hx := by
    rcases mem_put.1 hx with ⟨hx, -⟩ | rfl
    · exact h.taking.respects.entries x hx
    · exact h.owned

end Keeps

/-! ## Transactions -/

section Run

variable [Inhabited ν] {c : Save ρ χ} {x : Ctx (Shelf ρ ω) (Lock κ η) (Save ρ χ)} {δ : List ρ}
  {K K' : Held (Lock κ η) → Shelf ρ ω → Prop}

/-- The program keeps to the discipline, and returns with `Q`. -/
abbrev Keeping {α : Type} (p : Prog ν (Shelf ρ ω) (Lock κ η) (Save ρ χ) χ α)
    (Q : α → Ctx (Shelf ρ ω) (Lock κ η) (Save ρ χ) → Prop)
    (x : Ctx (Shelf ρ ω) (Lock κ η) (Save ρ χ)) : Prop :=
  wp (discipline ν ω) p Q (fun _ _ => True) x

/-- What the transaction knows beside the versions that lose the mark. -/
abbrev Knowing (ν : Type) (c : Save ρ χ) (K : Held (Lock κ η) → Shelf ρ ω → Prop) (δ : List ρ)
    (x : Ctx (Shelf ρ ω) (Lock κ η) (Save ρ χ)) : Prop :=
  Knows (discipline ν ω) x δ fun L s => K L s ∧ Taking c δ L s

theorem unmarkEach_keeps : ∀ (ks : List κ) {x : Ctx (Shelf ρ ω) (Lock κ η) (Save ρ χ)} {δ : List ρ}
    {Q : Unit → Ctx (Shelf ρ ω) (Lock κ η) (Save ρ χ) → Prop}, Knowing ν c K δ x →
    (discipline ν ω (χ := χ)).Keeps K → (∀ x' δ', Knowing ν c K δ' x' → Q () x') →
      Keeping (c.unmarkEach ks : Prog ν (Shelf ρ ω) (Lock κ η) (Save ρ χ) χ Unit) Q x
  | [], x, δ, Q, h, _, hQ => hQ x δ h
  | k :: ks, x, δ, Q, h, hK, hQ => by
    refine wp_bind.2 (wp_exec.2 fun x' hw _ => ?_)
    have h' := h.waits hw
    unfold Save.unmarked
    cases hf : shelf.find k c.takes x'.view with
    | none => exact unmarkEach_keeps ks h'.lock hK hQ
    | some r =>
      obtain ⟨hr, -, ht⟩ := Rows.find_some hf
      rw [h'.view] at hr
      -- a version of the transaction has no mark
      have hr' : r ∈ x'.db.rows ∧ ∀ d ∈ δ, key d ≠ key r := by
        rcases mem_overlay.1 hr with h | hd
        · exact h
        · obtain ⟨r₀, -, -, rfl⟩ := h'.known.2.taken r hd
          rw [takes_unmark] at ht
          cases ht
      refine unmarkEach_keeps ks (δ := put key δ (unmark r))
        (h'.write rfl (hK.and keeps_taking) ⟨hK.mono (List.subset_append_left _ _) h'.known.1, ?_⟩)
        hK hQ
      have hlocks : ∀ l ∈ locksOf r, l ∈ x'.held ++ locksOf r := fun l => List.mem_append_right _
      have hrow : Owns (x'.held ++ locksOf r) (.row (key r)) := hlocks _ List.mem_cons_self
      have hold := (keeps_taking (ν := ν)).mono (List.subset_append_left _ (locksOf r)) h'.known.2
      refine ⟨⟨hold.respects.rows.put ?_, fun d hd => ?_⟩, fun d hd => ?_⟩
      · rw [key_unmark]
        exact Or.inl ⟨r, hr'.1, rfl, trivial, hrow⟩
      · rcases mem_put.1 hd with ⟨hd, -⟩ | rfl
        · exact hold.respects.entries d hd
        · intro e he
          exact hlocks _ (List.mem_cons_of_mem _ (List.mem_map.2 ⟨e, mem_entries_unmark he, rfl⟩))
      · rcases mem_put.1 hd with ⟨hd, -⟩ | rfl
        · exact hold.taken d hd
        · exact ⟨r, ⟨hr'.1, hrow⟩, ht, rfl⟩

theorem takeMark_keeps (h : Knows (discipline ν ω) x [] K)
    {Q : Unit → Ctx (Shelf ρ ω) (Lock κ η) (Save ρ χ) → Prop}
    (hQ : ∀ x' δ, Knowing ν c K δ x' → Q () x') :
    Keeping (c.takeMark : Prog ν (Shelf ρ ω) (Lock κ η) (Save ρ χ) χ Unit) Q x := by
  have hnone : ∀ L (s : Shelf ρ ω), Taking c [] L s := fun L s =>
    ⟨⟨.nil, fun _ h => absurd h List.not_mem_nil⟩, fun _ h => absurd h List.not_mem_nil⟩
  have h₀ : Knowing ν c K [] x := h.learn keeps_taking (hnone _ _)
  unfold Save.takeMark
  split
  · exact wp_bind.2 (h₀.read fun x' h' => unmarkEach_keeps _ h' h.keeps hQ)
  · exact hQ x [] h₀

omit [Inhabited ν] in
/-- The write of a save, and its commit. -/
theorem publish_keeps {row : ρ} (h : Knows (discipline ν ω) x (put key δ row) (Written c row δ)) :
    Keeping (.publish c : Prog ν (Shelf ρ ω) (Lock κ η) (Save ρ χ) χ Unit) (fun _ _ => True) x :=
  h.publish Discipline.keeps_true (fun _ _ hs hw =>
    ⟨⟨_, hw.respects, rfl, hw.apply hs⟩, trivial⟩) fun _ _ => trivial

omit [Inhabited ν] in
/-- The statement that writes the row, where the columns and the indexes take it. -/
theorem written {row : ρ} {d : List ρ} {locks : Held (Lock κ η)}
    (h : Knowing ν c K δ x) (horigin : c.Origin x.db.rows row)
    (hrejects : c.rejects row (overlay key x.db.rows δ) = false) (hlocks : locksOf row ⊆ locks)
    (hd : d = [row]) : Knows (discipline ν ω) (x.apply ⟨locks, fun s => Layers.lay s d⟩)
      (put key δ row) (Written c row δ) := by
  obtain ⟨hstores, hclear, -⟩ := rejects_iff.1 hrejects
  refine h.write (by rw [hd]; rfl) keeps_written ⟨?_, horigin, hstores, hclear, ?_, fun e he => ?_⟩
  · exact (keeps_taking (ν := ν)).mono (List.subset_append_left _ _) h.known.2
  · exact List.mem_append_right _ (hlocks List.mem_cons_self)
  · exact List.mem_append_right _ (hlocks (List.mem_cons_of_mem _ (List.mem_map.2 ⟨e, he, rfl⟩)))

theorem insert_keeps (hc : c.target = none) (h : Knowing ν c K δ x) :
    Keeping (.exec default c.inserted : Prog ν (Shelf ρ ω) (Lock κ η) (Save ρ χ) χ Unit)
      (fun _ x' => Knows (discipline ν ω) x' (put key δ c.fresh) (Written c c.fresh δ)) x := by
  refine wp_exec.2 fun x' hw _ => ?_
  have h' := h.waits hw
  unfold Save.inserted
  cases hrej : c.rejects c.fresh x'.view.rows with
  | true => trivial
  | false =>
    rw [h'.view] at hrej
    have hfree := (fresh_of_view ((rejects_iff.1 hrej).2.2 hc)).1
    exact written h' (Or.inl ⟨hc, rfl, hfree⟩) hrej (List.Subset.refl _) rfl

/-- The row of the target is locked, and the save may write it. -/
structure Target (c : Save ρ χ) (k : κ) (n : Int) (r : ρ) (L : Held (Lock κ η)) (s : Shelf ρ ω) :
    Prop where
  locked : Locked r L s
  key : key r = k
  revision : revision r = n
  permits : c.permits r = true

omit [Inhabited ν] in
theorem keeps_target {k : κ} {n : Int} {r : ρ} : (discipline ν ω (χ := χ)).Keeps (Target c k n r) where
  mono hLM h := { h with locked := (keeps_locked (ν := ν) (χ := χ)).mono hLM h.locked }
  step hi hc hs h := { h with locked := keeps_locked.step hi hc hs h.locked }

theorem update_keeps {k : κ} {n : Int} {r : ρ} (hc : c.target = some (k, n))
    (h : Knowing ν c (Target c k n r) δ x) :
    Keeping (.exec default (c.updated k) : Prog ν (Shelf ρ ω) (Lock κ η) (Save ρ χ) χ Unit)
      (fun _ x' => Knows (discipline ν ω) x' (put key δ (c.set r)) (Written c (c.set r) δ)) x := by
  refine wp_exec.2 fun x' hw _ => ?_
  have h' := h.waits hw
  obtain ⟨htarget, htaking⟩ := h'.known
  -- the row that it sees is the one that it has locked
  have hview : r ∈ overlay key x'.db.rows δ := by
    refine mem_overlay_left (fun d hd e => ?_) htarget.locked.1
    obtain ⟨r₀, h₀, ht, rfl⟩ := htaking.taken d hd
    rw [key_unmark, htarget.key] at e
    simp only [Save.takes, Save.rowKey, hc, Option.elim_some, Bool.and_eq_true, decide_eq_true_eq] at ht
    exact ht.2 e
  have hunique : UniqueBy key (overlay key x'.db.rows δ) :=
    htaking.respects.rows.uniqueBy h'.inv.keys
  have hfind : shelf.find k (fun _ => true) x'.view = some r := by
    rw [h'.view, ← htarget.key]
    unfold Rows.find
    simp only [Bool.and_true]
    exact hunique.find?_eq hview
  unfold Save.updated
  rw [hfind]
  dsimp only
  cases hrej : c.rejects (c.set r) x'.view.rows with
  | true => trivial
  | false =>
    rw [h'.view] at hrej
    exact written h' (Or.inr ⟨k, n, hc, r, htarget.locked.1, htarget.key, htarget.revision,
      htarget.permits, rfl⟩) hrej (List.subset_append_right _ _) rfl

/-- **A save keeps to the discipline.** -/
theorem run_keeps (h₀ : Knows (discipline ν ω) x [] K) :
    Keeping (c.run : Prog ν (Shelf ρ ω) (Lock κ η) (Save ρ χ) χ Unit) (fun _ _ => True) x := by
  unfold Save.run
  cases hc : c.target with
  | none =>
    refine wp_bind.2 (takeMark_keeps h₀ fun x δ h => wp_bind.2 ?_)
    exact wp_mono (fun _ _ h' => publish_keeps h') (fun _ _ => id) (insert_keeps hc h)
  | some target =>
    obtain ⟨k, n⟩ := target
    refine wp_bind.2 (h₀.lockRow (fun _ _ => trivial) fun x r h hl hr hk => ?_)
    rw [show Layers.lay x.db [] = x.db from Layers.lay_none _] at hr
    show Keeping (.check (revision r = n) c.stale >>= _) _ x
    refine wp_bind.2 (wp_check.2 ⟨fun hn => ?_, fun _ => trivial⟩)
    refine wp_bind.2 (wp_check.2 ⟨fun hp => ?_, fun _ => trivial⟩)
    have h₁ : Knows (discipline ν ω) x [] (Target c k n r) :=
      (h.learn keeps_target ⟨⟨hr, hl⟩, of_decide_eq_true hk, hn, hp⟩).mono keeps_target And.right
    refine wp_bind.2 (takeMark_keeps h₁ fun x' δ h' => wp_bind.2 ?_)
    exact wp_mono (fun _ _ h'' => publish_keeps h'') (fun _ _ => id) (update_keeps hc h')

end Run

/-! ## Runs -/

/-- The commits of a run, one after the other. -/
theorem Commits.accepted {s : Shelf ρ ω} {cs : List (Save ρ χ)} {s' : Shelf ρ ω}
    (h : (discipline ν ω).Commits s cs s') : Accepted s.rows cs s'.rows := by
  induction h with
  | nil => rfl
  | snoc _ _ hs ih =>
    obtain ⟨δ, -, -, ha⟩ := hs
    exact accepted_snoc ih ha

section Sure

variable [Inhabited ν] {c : Save ρ χ}

theorem unmarkEach_sure : ∀ ks : List κ,
    (c.unmarkEach ks : Prog ν (Shelf ρ ω) (Lock κ η) (Save ρ χ) χ Unit).Sure (fun _ => True) (· = c)
  | [] => trivial
  | _ :: ks => Prog.Sure.bind Prog.sure_exec fun _ _ => unmarkEach_sure ks

theorem takeMark_sure :
    (c.takeMark : Prog ν (Shelf ρ ω) (Lock κ η) (Save ρ χ) χ Unit).Sure (fun _ => True) (· = c) := by
  unfold Save.takeMark
  split
  · exact Prog.Sure.bind (R := fun _ => True) (fun _ => trivial) fun ks _ => unmarkEach_sure ks
  · trivial

/-- A save commits nothing but itself. -/
theorem run_sure :
    (c.run : Prog ν (Shelf ρ ω) (Lock κ η) (Save ρ χ) χ Unit).Sure (fun _ => True) (· = c) := by
  unfold Save.run
  cases c.target with
  | none =>
    refine takeMark_sure.bind fun _ _ => ?_
    exact Prog.Sure.bind Prog.sure_exec fun _ _ => Prog.sure_publish rfl
  | some target =>
    refine Prog.Sure.bind (R := fun _ => True) (Prog.sure_lockRow) fun _ _ => ?_
    refine Prog.Sure.bind Prog.sure_orFail fun _ _ => ?_
    refine Prog.Sure.bind Prog.sure_check fun _ _ => ?_
    refine Prog.Sure.bind Prog.sure_check fun _ _ => ?_
    refine takeMark_sure.bind fun _ _ => ?_
    exact Prog.Sure.bind Prog.sure_exec fun _ _ => Prog.sure_publish rfl

end Sure

/-- **Saves are serializable.**  Programs that keep to the discipline leave the table that the saves they
have committed leave one after the other. -/
theorem serializable [DecidableEq ι] {α : Type}
    {progs : ι → Prog ν (Shelf ρ ω) (Lock κ η) (Save ρ χ) χ α}
    (hkeeps : ∀ i (s : Shelf ρ ω), WellFormed s.rows →
      wp (discipline ν ω) (progs i) (fun _ _ => True) (fun _ _ => True) { db := s })
    {s₀ : Shelf ρ ω} {s : State ι ν (Shelf ρ ω) (Lock κ η) (Save ρ χ) χ α} (hs₀ : WellFormed s₀.rows)
    (h : Reachable progs (.initial ι ν (Lock κ η) (Save ρ χ) χ α s₀) s) :
    Accepted s₀.rows (s.log.map (·.2)) s.db.rows := by
  have hsound : Sound (discipline ν ω) progs (fun _ _ _ => True) (fun _ _ _ => True) s₀ s :=
    Sound.of_reachable (D := discipline ν ω) hkeeps hs₀ h
  exact Commits.accepted hsound.commits

end Txn.Saves
