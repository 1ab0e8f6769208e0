/-
  Rows that are inserted, or merged into the row of their key.

  * `upsert`: INSERT … ON CONFLICT(key) DO UPDATE;
  * `merged`: what a sequence of values makes of a value;
  * `find?_foldl_upsert`: a sequence of upserts, key by key;
  * `foldl_upsert_perm`: sequences whose order does not matter.
-/
import Sakura.Txn.Table

namespace Txn

variable {ρ κ : Type} [DecidableEq κ]

/-- A row is inserted, or merged into the row that has its key. -/
def upsert (key : ρ → κ) (merge : ρ → ρ → ρ) (t : List ρ) (r : ρ) : List ρ :=
  if t.any (key · = key r) then t.map fun x => if key x = key r then merge x r else x else t ++ [r]

/-- What the rows `rs` make of a row, if there is one. -/
def merged (merge : ρ → ρ → ρ) (o : Option ρ) (rs : List ρ) : Option ρ :=
  rs.foldl (fun o r => some (o.elim r (merge · r))) o

variable {key : ρ → κ} {merge : ρ → ρ → ρ} {t : List ρ} {r : ρ} {k : κ}

theorem find?_map_merge (hkey : ∀ x y, key (merge x y) = key x) :
    ∀ t : List ρ, ((t.map fun x => if key x = key r then merge x r else x).find? (key · = k)) =
      (t.find? (key · = k)).map fun x => if key x = key r then merge x r else x
  | [] => rfl
  | x :: t => by
    have hx : key (if key x = key r then merge x r else x) = key x := by
      split
      · exact hkey x r
      · rfl
    by_cases hk : key x = k
    · rw [List.map_cons, List.find?_cons_of_pos (by simpa [hx] using hk),
        List.find?_cons_of_pos (by simpa using hk)]
      rfl
    · rw [List.map_cons, List.find?_cons_of_neg (by simpa [hx] using hk),
        List.find?_cons_of_neg (by simpa using hk), find?_map_merge hkey t]

/-- The row of a key after an upsert. -/
theorem find?_upsert (hkey : ∀ x y, key (merge x y) = key x) :
    (upsert key merge t r).find? (key · = k) =
      if key r = k then some ((t.find? (key · = k)).elim r (merge · r))
      else t.find? (key · = k) := by
  unfold upsert
  split
  · next hany =>
    rw [find?_map_merge hkey]
    cases hf : t.find? (key · = k) with
    | none =>
      obtain ⟨x, hx, hxr⟩ := List.any_eq_true.1 hany
      have hne : key r ≠ k := fun hrk => by
        have := List.find?_eq_none.1 hf x hx
        simp [of_decide_eq_true hxr, hrk] at this
      rw [if_neg hne]
      rfl
    | some x =>
      have hxk : key x = k := by simpa using List.find?_some hf
      show some (if key x = key r then merge x r else x) = _
      by_cases hrk : key r = k
      · rw [if_pos hrk, if_pos (hxk.trans hrk.symm)]
        rfl
      · rw [if_neg hrk, if_neg fun h => hrk (h.symm.trans hxk)]
  · next hany =>
    have hnew : ∀ x ∈ t, key x ≠ key r := fun x hx h =>
      hany (List.any_eq_true.2 ⟨x, hx, decide_eq_true h⟩)
    rw [List.find?_append]
    by_cases hrk : key r = k
    · have hnone : t.find? (key · = k) = none :=
        List.find?_eq_none.2 fun x hx => by simpa [hrk] using hnew x hx
      rw [hnone, if_pos hrk]
      simp [hrk]
    · rw [if_neg hrk]
      simp [hrk]

/-- **The row of a key after upserts** is what the rows of that key make of it. -/
theorem find?_foldl_upsert (hkey : ∀ x y, key (merge x y) = key x) : ∀ (rs t : List ρ),
    (rs.foldl (upsert key merge) t).find? (key · = k) =
      merged merge (t.find? (key · = k)) (rs.filter (key · = k))
  | [], _ => rfl
  | r :: rs, t => by
    rw [List.foldl_cons, find?_foldl_upsert hkey rs, find?_upsert hkey]
    by_cases hrk : key r = k
    · rw [List.filter_cons_of_pos (by simpa using hrk), if_pos hrk]
      rfl
    · rw [List.filter_cons_of_neg (by simpa using hrk), if_neg hrk]

/-- What is seen of a row through `view`, if merges can be seen. -/
theorem merged_view {β : Type} {view : ρ → β} {see : Option β → ρ → β}
    (hmerge : ∀ o r, view (Option.elim o r (merge · r)) = see (o.map view) r) :
    ∀ (rs : List ρ) (o : Option ρ),
      (merged merge o rs).map view = rs.foldl (fun v r => some (see v r)) (o.map view)
  | [], _ => rfl
  | r :: rs, o => by
    unfold merged
    rw [List.foldl_cons, List.foldl_cons, ← hmerge]
    exact merged_view hmerge rs (some (o.elim r (merge · r)))

/-- **The order does not matter** to what is seen of any key, if what is seen of two rows of one key
does not depend on their order. -/
theorem foldl_upsert_perm {β : Type} {view : ρ → β} {see : Option β → ρ → β}
    (hkey : ∀ x y, key (merge x y) = key x)
    (hmerge : ∀ o r, view (Option.elim o r (merge · r)) = see (o.map view) r) {rs rs' : List ρ}
    (hperm : rs.Perm rs')
    (hcomm : ∀ x ∈ rs, ∀ y ∈ rs, key x = key y → ∀ v, see (some (see v x)) y = see (some (see v y)) x) :
    ((rs.foldl (upsert key merge) t).find? (key · = k)).map view =
      ((rs'.foldl (upsert key merge) t).find? (key · = k)).map view := by
  rw [find?_foldl_upsert hkey, find?_foldl_upsert hkey, merged_view hmerge, merged_view hmerge]
  refine (hperm.filter _).foldl_eq' (fun x hx y hy v => congrArg some ?_) _
  obtain ⟨hx, hxk⟩ := List.mem_filter.1 hx
  obtain ⟨hy, hyk⟩ := List.mem_filter.1 hy
  exact hcomm x hx y hy ((of_decide_eq_true hxk).trans (of_decide_eq_true hyk).symm) v

/-- What a last row leaves. -/
theorem find?_foldl_upsert_last (hkey : ∀ x y, key (merge x y) = key x) (rs t : List ρ) (r : ρ) :
    ∃ o, ((rs ++ [r]).foldl (upsert key merge) t).find? (key · = key r) =
      some (Option.elim o r (merge · r)) := by
  rw [List.foldl_append]
  exact ⟨_, by rw [List.foldl_cons, List.foldl_nil, find?_upsert hkey, if_pos rfl]⟩

end Txn
