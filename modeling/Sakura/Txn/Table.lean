/-
  Tables with row versions.

  A table is a list of rows, each with a key.  A transaction keeps its own versions of the rows it
  wrote in a second table; what it sees is the committed table overlaid with them.

  * `overlay`, `put`: the rows of one table hidden by those of another, one row written;
  * `mem_overlay`, `overlay_assoc`, `put_overlay`: how they compose;
  * `UniqueBy`: no two rows have one key, and what that says of lookups and sums.
-/
import Mathlib.Algebra.Ring.Int.Defs
import Mathlib.Algebra.BigOperators.Group.List.Basic
import Mathlib.Data.List.Nodup
import Mathlib.Tactic.Tauto

namespace Txn

variable {ρ κ : Type} [DecidableEq κ]

/-- The rows of `t` that `δ` has no version of, and the rows of `δ`. -/
def overlay (key : ρ → κ) (t δ : List ρ) : List ρ := t.filter (fun r => key r ∉ δ.map key) ++ δ

/-- The table `t` with the row `r` written. -/
def put (key : ρ → κ) (t : List ρ) (r : ρ) : List ρ := overlay key t [r]

variable {key : ρ → κ} {t δ δ' : List ρ} {r x : ρ}

@[simp] theorem overlay_nil : overlay key t [] = t := by simp [overlay]

@[simp] theorem nil_overlay : overlay key [] δ = δ := by simp [overlay]

theorem mem_overlay : x ∈ overlay key t δ ↔ x ∈ t ∧ (∀ y ∈ δ, key y ≠ key x) ∨ x ∈ δ := by
  simp [overlay]

theorem mem_put : x ∈ put key t r ↔ x ∈ t ∧ key x ≠ key r ∨ x = r := by
  simp [put, mem_overlay, ne_comm]

theorem overlay_assoc :
    overlay key (overlay key t δ) δ' = overlay key t (overlay key δ δ') := by
  have hkey : ∀ y, (key y ∉ (overlay key δ δ').map key) ↔
      key y ∉ δ'.map key ∧ key y ∉ δ.map key := fun y => by
    simp only [overlay, List.map_append, List.mem_append, List.mem_map, List.mem_filter]
    constructor
    · intro h
      refine ⟨fun ⟨z, hz, e⟩ => h (Or.inr ⟨z, hz, e⟩), fun ⟨z, hz, e⟩ => h ?_⟩
      by_cases hz' : ∃ w ∈ δ', key w = key z
      · obtain ⟨w, hw, e'⟩ := hz'
        exact Or.inr ⟨w, hw, e'.trans e⟩
      · exact Or.inl ⟨z, ⟨hz, by simpa using hz'⟩, e⟩
    · rintro ⟨h', h⟩ (⟨z, ⟨hz, -⟩, e⟩ | ⟨z, hz, e⟩)
      · exact h ⟨z, hz, e⟩
      · exact h' ⟨z, hz, e⟩
  unfold overlay at hkey ⊢
  simp only [List.filter_append, List.filter_filter, List.append_assoc]
  congr 1
  refine List.filter_congr fun y _ => ?_
  rw [← Bool.decide_and, decide_eq_decide]
  exact (hkey y).symm

theorem put_overlay : put key (overlay key t δ) r = overlay key t (put key δ r) := overlay_assoc

@[simp] theorem put_nil : put key [] r = [r] := by simp [put]

theorem put_cons_self (h : key x = key r) : put key [x] r = [r] := by simp [put, overlay, h]

/-- Writing a row under a new key keeps the other rows. -/
theorem overlay_of_fresh (h : ∀ y ∈ δ, ∀ x ∈ t, key x ≠ key y) : overlay key t δ = t ++ δ := by
  unfold overlay
  congr 1
  refine List.filter_eq_self.2 fun x hx => ?_
  simp only [List.mem_map, not_exists, not_and, decide_eq_true_eq]
  exact fun y hy e => h y hy x hx e.symm

theorem mem_overlay_left (h : ∀ y ∈ δ, key y ≠ key x) (hx : x ∈ t) : x ∈ overlay key t δ :=
  mem_overlay.2 (Or.inl ⟨hx, h⟩)

theorem mem_overlay_right (hx : x ∈ δ) : x ∈ overlay key t δ := mem_overlay.2 (Or.inr hx)

/-- What is selected by `q` is unchanged by versions of other rows. -/
theorem filter_overlay {q : ρ → Bool} (hδ : ∀ y ∈ δ, ¬q y)
    (ht : ∀ x ∈ t, q x → ∀ y ∈ δ, key y ≠ key x) : (overlay key t δ).filter q = t.filter q := by
  have hnone : δ.filter q = [] := List.filter_eq_nil_iff.2 hδ
  rw [overlay, List.filter_append, hnone, List.append_nil, List.filter_filter]
  refine List.filter_congr fun x hx => ?_
  cases hq : q x with
  | false => simp
  | true =>
    have hkey : key x ∉ δ.map key := fun hm => by
      obtain ⟨y, hy, e⟩ := List.mem_map.1 hm
      exact ht x hx hq y hy e
    simp [hkey]

/-- The rows of other keys are those of before. -/
theorem filter_put_ne {k : κ} (h : key r = k) :
    (put key t r).filter (key · ≠ k) = t.filter (key · ≠ k) := by
  unfold put overlay
  rw [List.filter_append, List.filter_filter, List.filter_cons_of_neg (by simp [h]),
    List.filter_nil, List.append_nil]
  exact List.filter_congr fun x _ => by simp [h]

/-- No key is lost. -/
theorem exists_overlay (δ : List ρ) (hx : x ∈ t) : ∃ y ∈ overlay key t δ, key y = key x := by
  by_cases h : ∃ y ∈ δ, key y = key x
  · obtain ⟨y, hy, e⟩ := h
    exact ⟨y, mem_overlay_right hy, e⟩
  · exact ⟨x, mem_overlay_left (fun y hy e => h ⟨y, hy, e⟩) hx, rfl⟩

/-- A key that is new under the versions of others was new before. -/
theorem fresh_overlay {k : κ} (h : ∀ y ∈ overlay key t δ, key y ≠ k) : ∀ x ∈ t, key x ≠ k := by
  intro x hx e
  obtain ⟨y, hy, e'⟩ : ∃ y ∈ overlay key t δ, key y = key x := exists_overlay δ hx
  exact h y hy (e'.trans e)

/-- The row of a key, once one is written. -/
theorem find?_put {k : κ} : (put key t r).find? (fun x => key x = k) =
    if key r = k then some r else t.find? fun x => key x = k := by
  unfold put overlay
  rw [List.find?_append, List.find?_filter]
  split
  · next h =>
    have hnone : (t.find? fun x =>
        decide ((decide (key x ∉ [r].map key)) = true ∧ decide (key x = k) = true)) = none := by
      rw [List.find?_eq_none]
      intro x _
      simp [h]
    rw [hnone]
    simp [h]
  · next h =>
    have hsame : (fun x => decide ((decide (key x ∉ [r].map key)) = true ∧ decide (key x = k) = true)) =
        fun x => decide (key x = k) := by
      funext x
      by_cases hx : key x = k
      · simp [hx, Ne.symm h]
      · simp [hx]
    rw [hsame]
    simp [h]
/-! ## Unique keys -/

/-- No two rows have the same key. -/
def UniqueBy {κ : Type} (key : ρ → κ) (t : List ρ) : Prop := (t.map key).Nodup

theorem uniqueBy_nil {κ : Type} {key : ρ → κ} : UniqueBy key [] := List.nodup_nil

theorem uniqueBy_singleton {κ : Type} {key : ρ → κ} : UniqueBy key [r] := List.nodup_singleton _

theorem UniqueBy.eq {κ : Type} {key : ρ → κ} (h : UniqueBy key t) {y : ρ} (hx : x ∈ t) (hy : y ∈ t)
    (e : key x = key y) : x = y :=
  List.inj_on_of_nodup_map h hx hy e

/-- New versions keep a key `k` unique if their values of it are held by no other row. -/
theorem UniqueBy.overlay {κ' : Type} {k : ρ → κ'} (h : UniqueBy k t) (hδ : UniqueBy k δ)
    (hf : ∀ y ∈ δ, ∀ x ∈ t, k x = k y → key x = key y) : UniqueBy k (overlay key t δ) := by
  unfold UniqueBy Txn.overlay at *
  rw [List.map_append]
  refine List.Nodup.append ((List.filter_sublist.map k).nodup h) hδ ?_
  rintro v hv hv'
  obtain ⟨x, hx, rfl⟩ := List.mem_map.1 hv
  obtain ⟨y, hy, e⟩ := List.mem_map.1 hv'
  obtain ⟨hx, hx'⟩ := List.mem_filter.1 hx
  refine absurd (List.mem_map.2 ⟨y, hy, (hf y hy x hx e.symm).symm⟩) ?_
  simpa using hx'

theorem UniqueBy.put {κ' : Type} {k : ρ → κ'} (h : UniqueBy k t)
    (hf : ∀ x ∈ t, k x = k r → key x = key r) : UniqueBy k (put key t r) :=
  h.overlay uniqueBy_singleton fun y hy x hx e => by
    cases List.mem_singleton.1 hy; exact hf x hx e

/-- A row with a new key keeps a key unique. -/
theorem UniqueBy.snoc {κ : Type} {key : ρ → κ} (h : UniqueBy key t) (hnew : ∀ x ∈ t, key x ≠ key r) :
    UniqueBy key (t ++ [r]) := by
  unfold UniqueBy
  rw [List.map_append]
  refine List.Nodup.append h (List.nodup_singleton _) fun k hk hk' => ?_
  obtain ⟨x, hx, rfl⟩ := List.mem_map.1 hk
  exact hnew x hx (List.mem_singleton.1 hk')

/-- With unique keys, a row is found by its key. -/
theorem UniqueBy.find?_eq {κ : Type} [DecidableEq κ] {key : ρ → κ} (h : UniqueBy key t) (hx : x ∈ t) :
    t.find? (fun y => key y = key x) = some x := by
  cases hf : t.find? (fun y => decide (key y = key x)) with
  | none => exact absurd (List.find?_eq_none.1 hf x hx) (by simp)
  | some y =>
    have hk : key y = key x := by simpa using List.find?_some hf
    rw [h.eq (List.mem_of_find?_eq_some hf) hx hk]

/-- With unique keys, the rows of one key are at most one. -/
theorem UniqueBy.filter_eq {κ : Type} [DecidableEq κ] {key : ρ → κ} :
    ∀ {t : List ρ}, UniqueBy key t → x ∈ t → t.filter (fun y => key y = key x) = [x]
  | [], _, hx => by cases hx
  | y :: t, h, hx => by
    obtain ⟨hy, ht⟩ := List.nodup_cons.1 h
    rcases List.mem_cons.1 hx with rfl | hx
    · rw [List.filter_cons_of_pos (by simp), List.filter_eq_nil_iff.2]
      intro z hz e
      exact hy (List.mem_map.2 ⟨z, hz, by simpa using e⟩)
    · rw [List.filter_cons_of_neg, UniqueBy.filter_eq ht hx]
      intro e
      exact hy (List.mem_map.2 ⟨x, hx, by simpa using (of_decide_eq_true e).symm⟩)

/-! ## Sums over rows -/

theorem sum_filter (p : ρ → Bool) (f : ρ → Int) (t : List ρ) :
    ((t.filter p).map f).sum = (t.map fun x => if p x then f x else 0).sum := by
  induction t with
  | nil => rfl
  | cons x t ih => by_cases h : p x <;> simp [h, ih]

theorem sum_comm {ρ' : Type} (f : ρ → ρ' → Int) (s : List ρ) (t : List ρ') :
    (s.map fun x => (t.map (f x)).sum).sum = (t.map fun y => (s.map fun x => f x y).sum).sum := by
  induction s with
  | nil => simp
  | cons x s ih => simp [ih, List.sum_map_add]

/-- With unique keys, at most one row of a key counts. -/
theorem UniqueBy.sum_ite {κ : Type} [DecidableEq κ] {key : ρ → κ} (p : ρ → Bool) (k : κ) (v : Int) :
    ∀ {t : List ρ}, UniqueBy key t → (t.map fun x => if key x = k ∧ p x then v else 0).sum =
      if ∃ x ∈ t, key x = k ∧ p x then v else 0
  | [], _ => by simp
  | x :: t, h => by
    obtain ⟨hx, ht⟩ := List.nodup_cons.1 h
    have ih := UniqueBy.sum_ite p k v ht
    rw [List.map_cons, List.sum_cons, ih]
    by_cases hxk : key x = k ∧ p x
    · have hno : ¬∃ y ∈ t, key y = k ∧ p y := fun ⟨y, hy, e, _⟩ =>
        hx (List.mem_map.2 ⟨y, hy, e.trans hxk.1.symm⟩)
      rw [if_pos hxk, if_neg hno, if_pos ⟨x, List.mem_cons_self, hxk⟩, Int.add_zero]
    · rw [if_neg hxk, Int.zero_add]
      refine if_congr ⟨?_, ?_⟩ rfl rfl
      · rintro ⟨y, hy, e⟩; exact ⟨y, List.mem_cons_of_mem _ hy, e⟩
      · rintro ⟨y, hy, e⟩
        rcases List.mem_cons.1 hy with rfl | hy
        · exact absurd e hxk
        · exact ⟨y, hy, e⟩

end Txn
