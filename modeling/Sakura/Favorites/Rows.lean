/-
  What a step writes to the favorites.

  * `Rewrite`: the rows before and after, where none changes its place;
  * `rewrite_update`, `rewrite_sweep`, `upsertFavorite_rewrite`: the statements;
  * `mem_setMark`: the marks.
-/
import Sakura.Favorites.Service

namespace Sakura.Favorites

open Txn Queue

/-! ## Places -/

/-- The columns that no statement changes. -/
def EmbyFavorite.place (f : EmbyFavorite) : UUID × UUID × UUID × String :=
  (f.id, f.instanceId, f.bindingId, f.remoteItemId)

section Place

variable {f f' : EmbyFavorite}

theorem EmbyFavorite.id_of_place (h : f'.place = f.place) : f'.id = f.id := by
  cases f; cases f'; simp_all [place]

theorem EmbyFavorite.key_of_place (h : f'.place = f.place) : f'.key = f.key := by
  cases f; cases f'; simp_all [place, key]

theorem EmbyFavorite.instanceId_of_place (h : f'.place = f.place) : f'.instanceId = f.instanceId := by
  cases f; cases f'; simp_all [place]

theorem EmbyFavorite.bindingId_of_place (h : f'.place = f.place) : f'.bindingId = f.bindingId := by
  cases f; cases f'; simp_all [place]

theorem EmbyFavorite.remoteItemId_of_place (h : f'.place = f.place) :
    f'.remoteItemId = f.remoteItemId := by
  cases f; cases f'; simp_all [place]

theorem EmbyFavorite.synced_place (listed : Bool) (f : EmbyFavorite) :
    (f.synced listed).place = f.place := by
  unfold EmbyFavorite.synced
  split <;> rfl

end Place

/-! ## Rows -/

/-- The rows `fs'` are those of `fs`, each changed by `change`, and perhaps one that `fresh` holds
of. -/
structure Rewrite (change : EmbyFavorite → EmbyFavorite → Prop) (fresh : EmbyFavorite → Prop)
    (fs fs' : List EmbyFavorite) : Prop where
  ids : UniqueBy EmbyFavorite.id fs'
  keys : UniqueBy EmbyFavorite.key fs'
  from_old : ∀ f' ∈ fs', (∃ f ∈ fs, f'.place = f.place ∧ change f f') ∨
    fresh f' ∧ ∀ f ∈ fs, f.id ≠ f'.id
  kept : ∀ f ∈ fs, ∃ f' ∈ fs', f'.place = f.place

variable {change change' : EmbyFavorite → EmbyFavorite → Prop} {fresh : EmbyFavorite → Prop}
  {fs fs' : List EmbyFavorite}

theorem Rewrite.mono (h : Rewrite change fresh fs fs')
    (hc : ∀ f ∈ fs, ∀ f', change f f' → change' f f') : Rewrite change' fresh fs fs' where
  ids := h.ids
  keys := h.keys
  from_old f' hf' := by
    rcases h.from_old f' hf' with ⟨f, hf, hp, hcf⟩ | hnew
    · exact Or.inl ⟨f, hf, hp, hc f hf f' hcf⟩
    · exact Or.inr hnew
  kept := h.kept

theorem Rewrite.map (hids : UniqueBy EmbyFavorite.id fs) (hkeys : UniqueBy EmbyFavorite.key fs)
    {g : EmbyFavorite → EmbyFavorite} (hg : ∀ f, (g f).place = f.place) :
    Rewrite (fun f f' => f' = g f) (fun _ => False) fs (fs.map g) where
  ids := by
    unfold UniqueBy at *
    rw [List.map_map, show EmbyFavorite.id ∘ g = EmbyFavorite.id from
      funext fun f => EmbyFavorite.id_of_place (hg f)]
    exact hids
  keys := by
    unfold UniqueBy at *
    rw [List.map_map, show EmbyFavorite.key ∘ g = EmbyFavorite.key from
      funext fun f => EmbyFavorite.key_of_place (hg f)]
    exact hkeys
  from_old f' hf' := by
    obtain ⟨f, hf, rfl⟩ := List.mem_map.1 hf'
    exact Or.inl ⟨f, hf, hg f, rfl⟩
  kept f hf := ⟨g f, List.mem_map.2 ⟨f, hf, rfl⟩, hg f⟩

theorem rewrite_update (hids : UniqueBy EmbyFavorite.id fs) (hkeys : UniqueBy EmbyFavorite.key fs)
    (id : UUID) {set : EmbyFavorite → EmbyFavorite} (hset : ∀ f, (set f).place = f.place) :
    Rewrite (fun f f' => f.id = id ∧ f' = set f ∨ f.id ≠ id ∧ f' = f) (fun _ => False) fs
      (updateFavorite id set fs) := by
  refine (Rewrite.map hids hkeys (g := fun f => if f.id = id then set f else f) fun f => ?_).mono ?_
  · split
    · exact hset f
    · rfl
  · rintro f - f' rfl
    by_cases h : f.id = id
    · exact Or.inl ⟨h, if_pos h⟩
    · exact Or.inr ⟨h, if_neg h⟩

theorem rewrite_sweep (hids : UniqueBy EmbyFavorite.id fs) (hkeys : UniqueBy EmbyFavorite.key fs)
    (bindingID : UUID) (seen : List String) :
    Rewrite (fun f f' => (f.bindingId = bindingID ∧ f.remoteItemId ∉ seen) ∧ f' = f.synced false ∨
      f' = f) (fun _ => False) fs (sweep bindingID seen fs) := by
  refine (Rewrite.map hids hkeys (g := fun f =>
    if f.bindingId = bindingID ∧ f.remoteItemId ∉ seen then f.synced false else f) fun f => ?_).mono ?_
  · split
    · exact f.synced_place false
    · rfl
  · rintro f - f' rfl
    by_cases h : f.bindingId = bindingID ∧ f.remoteItemId ∉ seen
    · exact Or.inl ⟨h, if_pos h⟩
    · exact Or.inr (if_neg h)

/-- An INSERT that finds the row of its key writes that row, and otherwise a new one. -/
theorem upsertFavorite_rewrite (set : EmbyFavorite → EmbyFavorite)
    (hids : UniqueBy EmbyFavorite.id fs) (hkeys : UniqueBy EmbyFavorite.key fs) {row : EmbyFavorite}
    (hset : ∀ f, (set f).place = f.place) {id : UUID}
    (h : upsertFavorite row set fs = .ok (fs', id)) :
    Rewrite (fun f f' => f.key = row.key ∧ f.id = id ∧ f' = set f ∨ f.id ≠ id ∧ f' = f)
        (fun f' => f' = row ∧ f'.id = id) fs fs' ∧ ∃ f' ∈ fs', f'.id = id := by
  unfold upsertFavorite at h
  split at h
  · next f hf =>
    obtain ⟨rfl, rfl⟩ := Prod.mk.inj (Except.ok.inj h)
    have hmem := List.mem_of_find?_eq_some hf
    have hkey : f.key = row.key := by simpa using List.find?_some hf
    have hid : (set f).id = f.id := EmbyFavorite.id_of_place (hset f)
    refine ⟨⟨hids.put fun _ _ e => e, hkeys.put fun x hx e => ?_, fun f' hf' => ?_, fun g hg => ?_⟩,
      set f, mem_put.2 (Or.inr rfl), hid⟩
    · rw [EmbyFavorite.key_of_place (hset f)] at e
      rw [hid, hkeys.eq hx hmem e]
    · rcases mem_put.1 hf' with ⟨hf', hne⟩ | rfl
      · exact Or.inl ⟨f', hf', rfl, Or.inr ⟨fun e => hne (e.trans hid.symm), rfl⟩⟩
      · exact Or.inl ⟨f, hmem, hset f, Or.inl ⟨hkey, rfl, rfl⟩⟩
    · by_cases he : g.id = f.id
      · have hgf := hids.eq hg hmem he
        exact ⟨set f, mem_put.2 (Or.inr rfl), by rw [hgf]; exact hset f⟩
      · exact ⟨g, mem_put.2 (Or.inl ⟨hg, fun e => he (e.trans hid)⟩), rfl⟩
  · next hnone =>
    split at h
    · cases h
    · next hfree =>
      obtain ⟨rfl, rfl⟩ := Prod.mk.inj (Except.ok.inj h)
      have hne : ∀ f ∈ fs, f.id ≠ row.id := by simpa using hfree
      have hkey : ∀ f ∈ fs, f.key ≠ row.key := by simpa using hnone
      refine ⟨⟨?_, ?_, fun f' hf' => ?_, fun g hg => ⟨g, List.mem_append_left _ hg, rfl⟩⟩,
        row, by simp, rfl⟩
      · unfold UniqueBy at *
        rw [List.map_append]
        refine hids.append (by simp) ?_
        simpa [List.disjoint_singleton] using hne
      · unfold UniqueBy at *
        rw [List.map_append]
        refine hkeys.append (by simp) ?_
        simpa [List.disjoint_singleton] using hkey
      · rcases List.mem_append.1 hf' with hf' | hf'
        · exact Or.inl ⟨f', hf', rfl, Or.inr ⟨hne f' hf', rfl⟩⟩
        · cases List.mem_singleton.1 hf'
          exact Or.inr ⟨⟨rfl, rfl⟩, hne⟩

/-! ## Marks -/

theorem mem_setMark {m m' : Mark} {favorite : Bool} {marks : List Mark} :
    m' ∈ setMark m favorite marks ↔ if m' = m then favorite = true else m' ∈ marks := by
  unfold setMark
  cases favorite <;> by_cases h : m' = m <;> simp [h]

end Sakura.Favorites
