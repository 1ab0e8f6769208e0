/-
  Pages of a listing.

  A statement with ORDER BY and LIMIT returns the first rows of an order, and rows that tie come in any
  order.

  * `Listing`: the orders that the statement may return;
  * `ahead`: the rows that may come before a row;
  * `mem_page_iff`: the rows that are on every page;
  * `find?_page_iff`: the rows that are found by their key on every page.
-/
import Mathlib.Data.List.Sort
import Sakura.Txn.Table

namespace Txn

variable {ρ : Type} [DecidableEq ρ] (le : ρ → ρ → Prop) [DecidableRel le]

/-- The rows in an order of `le`. -/
structure Listing (rows l : List ρ) : Prop where
  perm : l.Perm rows
  sorted : l.Pairwise le

/-- The other rows that come before `x`, or tie with it. -/
def ahead (rows : List ρ) (x : ρ) : List ρ := rows.filter fun y => y ≠ x ∧ le y x

/-- The other rows that come after `x`. -/
def behind (rows : List ρ) (x : ρ) : List ρ := rows.filter fun y => y ≠ x ∧ ¬le y x

variable {le} {rows l : List ρ} {x : ρ} {n : Nat}

/-- A row between those that may come before it and those that come after it. -/
theorem perm_ahead_behind (hnd : rows.Nodup) (hx : x ∈ rows) :
    (ahead le rows x ++ x :: behind le rows x).Perm rows := by
  have hsplit := List.filter_append_perm (fun y => decide (le y x)) (rows.erase x)
  have herase := hnd.erase_eq_filter x
  have hahead : (rows.erase x).filter (fun y => decide (le y x)) = ahead le rows x := by
    rw [herase, List.filter_filter]
    exact List.filter_congr fun y _ => by by_cases hy : y = x <;> simp [hy]
  have hbehind : (rows.erase x).filter (fun y => !decide (le y x)) = behind le rows x := by
    rw [herase, List.filter_filter]
    exact List.filter_congr fun y _ => by by_cases hy : y = x <;> simp [hy]
  rw [hahead, hbehind] at hsplit
  exact (List.perm_middle.trans (hsplit.cons x)).trans (List.perm_cons_erase hx).symm

/-- With few rows ahead of it a row is on the page. -/
theorem Listing.mem_take (h : Listing le rows l) (hnd : rows.Nodup) (hx : x ∈ rows)
    (hfew : (ahead le rows x).length < n) : x ∈ l.take n := by
  obtain ⟨before, after, rfl⟩ := List.append_of_mem (h.perm.mem_iff.2 hx)
  have hsorted := List.pairwise_append.1 h.sorted
  have hdisjoint := List.nodup_append.1 (h.perm.nodup_iff.2 hnd)
  -- every row before it is one of those ahead
  have hbefore : before.filter (fun y => y ≠ x ∧ le y x) = before := by
    refine List.filter_eq_self.2 fun y hy => ?_
    have hne := hdisjoint.2.2 y hy x (List.mem_cons_self ..)
    have hle := hsorted.2.2 y hy x (List.mem_cons_self ..)
    simpa using ⟨hne, hle⟩
  have hlen : before.length ≤ (ahead le rows x).length := by
    have hperm := (h.perm.filter fun y => y ≠ x ∧ le y x).length_eq
    rw [List.filter_append, hbefore, List.length_append] at hperm
    exact (Nat.le_add_right _ _).trans_eq hperm
  rw [List.take_append]
  refine List.mem_append_right _ ?_
  obtain ⟨k, hk⟩ := Nat.exists_eq_add_of_lt (hlen.trans_lt hfew)
  rw [show n - before.length = k + 1 by omega, List.take_succ_cons]
  exact List.mem_cons_self ..

/-- With many rows ahead of it a row may be missing from the page. -/
theorem exists_listing_not_mem [Std.Total le] [IsTrans ρ le] (hnd : rows.Nodup) (hx : x ∈ rows)
    (hmany : n ≤ (ahead le rows x).length) : ∃ l, Listing le rows l ∧ x ∉ l.take n := by
  have hmem₁ : ∀ y ∈ (ahead le rows x).insertionSort le, y ≠ x ∧ le y x := fun y hy => by
    simpa using (List.mem_filter.1 ((List.mem_insertionSort le).1 hy)).2
  have hmem₂ : ∀ y ∈ (behind le rows x).insertionSort le, le x y := fun y hy => by
    have hy : y ≠ x ∧ ¬le y x := by
      simpa using (List.mem_filter.1 ((List.mem_insertionSort le).1 hy)).2
    exact (Std.Total.total x y).resolve_right hy.2
  have hperm : ((ahead le rows x).insertionSort le ++
      x :: (behind le rows x).insertionSort le).Perm rows := by
    have hparts : (ahead le rows x ++ x :: behind le rows x).Perm rows := perm_ahead_behind hnd hx
    refine List.Perm.trans ?_ hparts
    exact (List.perm_insertionSort le _).append ((List.perm_insertionSort le _).cons x)
  have hsorted : ((ahead le rows x).insertionSort le ++
      x :: (behind le rows x).insertionSort le).Pairwise le := by
    refine List.pairwise_append.2 ⟨List.pairwise_insertionSort le _, List.pairwise_cons.2
      ⟨hmem₂, List.pairwise_insertionSort le _⟩, fun y hy z hz => ?_⟩
    rcases List.mem_cons.1 hz with rfl | hz
    · exact (hmem₁ y hy).2
    · exact IsTrans.trans _ _ _ (hmem₁ y hy).2 (hmem₂ z hz)
  refine ⟨_, ⟨hperm, hsorted⟩, fun hin => ?_⟩
  rw [List.take_append_of_le_length (by rwa [List.length_insertionSort])] at hin
  exact (hmem₁ x (List.mem_of_mem_take hin)).1 rfl

/-- **The rows on every page** are those that few others may come before. -/
theorem mem_page_iff [Std.Total le] [IsTrans ρ le] (hnd : rows.Nodup) (hx : x ∈ rows) :
    (∀ l, Listing le rows l → x ∈ l.take n) ↔ (ahead le rows x).length < n := by
  constructor
  · intro h
    by_contra hmany
    have hmany : n ≤ (ahead le rows x).length := Nat.le_of_not_lt hmany
    obtain ⟨l, hl, hout⟩ := exists_listing_not_mem hnd hx hmany
    exact hout (h l hl)
  · exact fun hfew l hl => hl.mem_take hnd hx hfew

/-- There is an order. -/
theorem exists_listing [Std.Total le] [IsTrans ρ le] (rows : List ρ) : ∃ l, Listing le rows l :=
  ⟨_, List.perm_insertionSort le rows, List.pairwise_insertionSort le rows⟩

/-! ## Keys -/

section

variable {κ : Type} [DecidableEq κ] {key : ρ → κ}

omit [DecidableEq ρ] [DecidableRel le] in
/-- A key that no row has is on no page. -/
theorem Listing.find?_none (h : Listing le rows l) {k : κ} (hfree : ∀ y ∈ rows, key y ≠ k) :
    (l.take n).find? (key · = k) = none :=
  List.find?_eq_none.2 fun y hy => by
    simpa using hfree y (h.perm.mem_iff.1 (List.mem_of_mem_take hy))

omit [DecidableRel le] in
/-- On a page a row is found by its key, or nothing is. -/
theorem Listing.find?_take (h : Listing le rows l) (hu : UniqueBy key rows) (hx : x ∈ rows) :
    (l.take n).find? (key · = key x) = if x ∈ l.take n then some x else none := by
  have hrows : ∀ y ∈ l.take n, key y = key x → y = x := fun y hy he =>
    hu.eq (h.perm.mem_iff.1 (List.mem_of_mem_take hy)) hx he
  split
  · next hmem =>
    cases hf : (l.take n).find? (key · = key x) with
    | none => exact absurd (decide_eq_true rfl) (List.find?_eq_none.1 hf x hmem)
    | some y =>
      rw [hrows y (List.mem_of_find?_eq_some hf) (by simpa using List.find?_some hf)]
  · next hmem =>
    refine List.find?_eq_none.2 fun y hy he => hmem ?_
    rw [← hrows y hy (by simpa using he)]
    exact hy

theorem find?_page_iff [Std.Total le] [IsTrans ρ le] (hu : UniqueBy key rows) (hx : x ∈ rows) :
    (∀ l, Listing le rows l → (l.take n).find? (key · = key x) = some x) ↔
      (ahead le rows x).length < n := by
  have hnd : rows.Nodup := List.Nodup.of_map key hu
  rw [← mem_page_iff hnd hx]
  refine forall₂_congr fun l hl => ?_
  rw [hl.find?_take hu hx]
  by_cases hmem : x ∈ l.take n
  · simp [hmem]
  · simp [hmem]

/-- The rows ahead are rows of other keys. -/
theorem ahead_eq (hu : UniqueBy key rows) (hx : x ∈ rows) :
    ahead le rows x = (rows.filter fun y => key y ≠ key x).filter fun y => le y x := by
  unfold ahead
  rw [List.filter_filter]
  refine List.filter_congr fun y hy => ?_
  have hkey : key y = key x ↔ y = x := ⟨hu.eq hy hx, congrArg key⟩
  simp [hkey, and_comm]

end

end Txn
