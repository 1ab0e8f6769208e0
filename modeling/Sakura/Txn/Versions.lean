/-
  Versions of one table under locks.

  * `Versioned`: each version is a new row under a key that its transaction has locked, or a new
    version of a row that it has locked;
  * `Indexed`: the same for a further unique index of the table;
  * `Versioned.overlay`, `Indexed.overlay`: both survive the commits of transactions whose locks do
    not exclude these.
-/
import Sakura.Txn.Table

namespace Txn

variable {ρ κ κ' : Type}

/-- The versions `δ` of a transaction over the table `t`.  `new` are the keys it has locked in the
index, `row` those of the rows it has locked, and a version may only differ from its row as `keep`
says. -/
structure Versioned (key : ρ → κ) (new row : κ → Prop) (keep : ρ → ρ → Prop) (t δ : List ρ) :
    Prop where
  unique : UniqueBy key δ
  version : ∀ r ∈ δ, (∃ r₀ ∈ t, key r₀ = key r ∧ keep r₀ r ∧ row (key r)) ∨
    (∀ r₀ ∈ t, key r₀ ≠ key r) ∧ new (key r)

/-- The values of the index `k` in the versions `δ` are those of their rows, or locked new ones. -/
structure Indexed (key : ρ → κ) (k : ρ → κ') (lock : κ' → Prop) (t δ : List ρ) : Prop where
  unique : UniqueBy k δ
  entry : ∀ r ∈ δ, (∃ r₀ ∈ t, key r₀ = key r ∧ k r₀ = k r) ∨ (∀ r₀ ∈ t, k r₀ ≠ k r) ∧ lock (k r)

variable {key : ρ → κ} {k : ρ → κ'} {new row new' row' : κ → Prop} {keep : ρ → ρ → Prop}
  {lock lock' : κ' → Prop} {t δ δ' : List ρ}

theorem Versioned.nil : Versioned key new row keep t [] :=
  ⟨uniqueBy_nil, fun _ h => by cases h⟩

theorem Indexed.nil : Indexed key k lock t [] := ⟨uniqueBy_nil, fun _ h => by cases h⟩

theorem Versioned.mono (h : Versioned key new row keep t δ) (hn : ∀ x, new x → new' x)
    (hr : ∀ x, row x → row' x) : Versioned key new' row' keep t δ :=
  ⟨h.unique, fun r hr' => (h.version r hr').imp
    (fun ⟨r₀, h₀, e, hk, hl⟩ => ⟨r₀, h₀, e, hk, hr _ hl⟩) fun ⟨hf, hl⟩ => ⟨hf, hn _ hl⟩⟩

theorem Indexed.mono (h : Indexed key k lock t δ) (hl : ∀ x, lock x → lock' x) :
    Indexed key k lock' t δ :=
  ⟨h.unique, fun r hr => (h.entry r hr).imp_right fun ⟨hf, hl'⟩ => ⟨hf, hl _ hl'⟩⟩

theorem Versioned.weaken {keep' : ρ → ρ → Prop} (h : Versioned key new row keep t δ)
    (hk : ∀ r r', keep r r' → keep' r r') : Versioned key new row keep' t δ :=
  ⟨h.unique, fun r hr => (h.version r hr).imp_left fun ⟨r₀, h₀, e, hkr, hl⟩ =>
    ⟨r₀, h₀, e, hk _ _ hkr, hl⟩⟩

/-- Versions that are of rows of the table, and keep their value of the index. -/
theorem Versioned.indexed (h : Versioned key (fun _ => False) row keep t δ)
    (hk : ∀ r r', keep r r' → k r' = k r) (hu : UniqueBy k t) :
    Indexed key k lock t δ := by
  have hversion : ∀ r ∈ δ, ∃ r₀ ∈ t, key r₀ = key r ∧ k r₀ = k r := fun r hr => by
    rcases h.version r hr with ⟨r₀, h₀, e, hkr, -⟩ | ⟨-, hf⟩
    · exact ⟨r₀, h₀, e, (hk _ _ hkr).symm⟩
    · exact hf.elim
  refine ⟨List.Nodup.map_on (fun x hx y hy e => ?_) h.unique.of_map,
    fun r hr => Or.inl (hversion r hr)⟩
  obtain ⟨x₀, hx₀, ex, ex'⟩ := hversion x hx
  obtain ⟨y₀, hy₀, ey, ey'⟩ := hversion y hy
  have h₀ : x₀ = y₀ := hu.eq hx₀ hy₀ (ex'.trans (e.trans ey'.symm))
  exact h.unique.eq hx hy (ex.symm.trans ((congrArg key h₀).trans ey))

/-- A row that the others have not locked keeps its place. -/
theorem Versioned.not_written (h' : Versioned key new' row' keep t δ') {r₀ : ρ} (h₀ : r₀ ∈ t)
    (hr : ¬row' (key r₀)) : ∀ r ∈ δ', key r ≠ key r₀ := by
  intro r hr' e
  rcases h'.version r hr' with ⟨-, -, -, -, hl⟩ | ⟨hf, -⟩
  · exact hr (e ▸ hl)
  · exact hf r₀ h₀ e.symm

theorem Versioned.fresh (h : Versioned key new (fun _ => False) keep t δ) {r : ρ} (hr : r ∈ δ) :
    (∀ r₀ ∈ t, key r₀ ≠ key r) ∧ new (key r) := by
  rcases h.version r hr with ⟨-, -, -, -, hl⟩ | h'
  · exact hl.elim
  · exact h'

variable [DecidableEq κ]

theorem Versioned.mem_overlay (h' : Versioned key new' row' keep t δ') {r₀ : ρ} (h₀ : r₀ ∈ t)
    (hr : ¬row' (key r₀)) : r₀ ∈ overlay key t δ' :=
  mem_overlay_left (h'.not_written h₀ hr) h₀

/-- A key that the others have not locked stays new. -/
theorem Versioned.fresh_overlay (h' : Versioned key new' row' keep t δ') {x : κ}
    (hf : ∀ r ∈ t, key r ≠ x) (hn : ¬new' x) : ∀ r ∈ overlay key t δ', key r ≠ x := by
  intro r hr e
  rcases Txn.mem_overlay.1 hr with ⟨hr, -⟩ | hr
  · exact hf r hr e
  · rcases h'.version r hr with ⟨r₀, h₀, e₀, -, -⟩ | ⟨-, hl⟩
    · exact hf r₀ h₀ (e₀.trans e)
    · exact hn (e ▸ hl)

/-- Some version of each row remains. -/
theorem Versioned.version_overlay (hk : ∀ r, keep r r) (h' : Versioned key new' row' keep t δ')
    (hu : UniqueBy key t) {r₀ : ρ} (h₀ : r₀ ∈ t) :
    ∃ r ∈ overlay key t δ', key r = key r₀ ∧ keep r₀ r := by
  by_cases hv : ∃ r ∈ δ', key r = key r₀
  · obtain ⟨r, hr, e⟩ := hv
    rcases h'.version r hr with ⟨r₁, h₁, e₁, hk₁, -⟩ | ⟨hf, -⟩
    · rw [hu.eq h₁ h₀ (e₁.trans e)] at hk₁
      exact ⟨r, mem_overlay_right hr, e, hk₁⟩
    · exact absurd e.symm (hf r₀ h₀)
  · exact ⟨r₀, mem_overlay_left (fun r hr e => hv ⟨r, hr, e⟩) h₀, rfl, hk r₀⟩

/-- A row under the versions of a transaction is one of the table, or a version of one, or new. -/
theorem Versioned.origin (hk : ∀ r, keep r r) (h : Versioned key new row keep t δ) {r : ρ}
    (hr : r ∈ Txn.overlay key t δ) : (∃ r₀ ∈ t, key r₀ = key r ∧ keep r₀ r) ∨
      r ∈ δ ∧ (∀ r₀ ∈ t, key r₀ ≠ key r) ∧ new (key r) := by
  rcases Txn.mem_overlay.1 hr with ⟨hr, -⟩ | hr
  · exact Or.inl ⟨r, hr, rfl, hk r⟩
  · rcases h.version r hr with ⟨r₀, h₀, e, hkr, -⟩ | hf
    · exact Or.inl ⟨r₀, h₀, e, hkr⟩
    · exact Or.inr ⟨hr, hf⟩

/-- **Interference on a table.** -/
theorem Versioned.overlay {keep' : ρ → ρ → Prop} (h : Versioned key new row keep t δ)
    (h' : Versioned key new' row' keep' t δ') (hn : ∀ x, new x → ¬new' x) (hr : ∀ x, row x → ¬row' x) :
    Versioned key new row keep (overlay key t δ') δ := by
  refine ⟨h.unique, fun r hr' => ?_⟩
  rcases h.version r hr' with ⟨r₀, h₀, e, hk, hl⟩ | ⟨hf, hl⟩
  · exact Or.inl ⟨r₀, h'.mem_overlay h₀ (e ▸ hr _ hl), e, hk, hl⟩
  · exact Or.inr ⟨h'.fresh_overlay hf (hn _ hl), hl⟩

theorem Versioned.uniqueBy (h : Versioned key new row keep t δ) (hu : UniqueBy key t) :
    UniqueBy key (Txn.overlay key t δ) :=
  hu.overlay h.unique fun _ _ _ _ e => e

/-- A value of the index that the others have not locked stays unused. -/
theorem Indexed.fresh_overlay (h' : Indexed key k lock' t δ') {x : κ'} (hf : ∀ r ∈ t, k r ≠ x)
    (hn : ¬lock' x) : ∀ r ∈ Txn.overlay key t δ', k r ≠ x := by
  intro r hr e
  rcases Txn.mem_overlay.1 hr with ⟨hr, -⟩ | hr
  · exact hf r hr e
  · rcases h'.entry r hr with ⟨r₀, h₀, -, e₀⟩ | ⟨-, hl⟩
    · exact hf r₀ h₀ (e₀.trans e)
    · exact hn (e ▸ hl)

/-- **Interference on an index.** -/
theorem Indexed.overlay (h : Indexed key k lock t δ) (hv : Versioned key new row keep t δ)
    (h' : Indexed key k lock' t δ') (hv' : Versioned key new' row' keep t δ')
    (hl : ∀ x, lock x → ¬lock' x) (hr : ∀ x, row x → ¬row' x) :
    Indexed key k lock (Txn.overlay key t δ') δ := by
  refine ⟨h.unique, fun r hr' => ?_⟩
  rcases h.entry r hr' with ⟨r₀, h₀, e, ek⟩ | ⟨hf, hlk⟩
  · have hrow : row (key r) := by
      rcases hv.version r hr' with ⟨-, -, -, -, hrow⟩ | ⟨hf, -⟩
      · exact hrow
      · exact absurd e (hf r₀ h₀)
    exact Or.inl ⟨r₀, hv'.mem_overlay h₀ (e ▸ hr _ hrow), e, ek⟩
  · exact Or.inr ⟨h'.fresh_overlay hf (hl _ hlk), hlk⟩

theorem Indexed.uniqueBy (h : Indexed key k lock t δ) (hu : UniqueBy k t) :
    UniqueBy k (Txn.overlay key t δ) := by
  refine hu.overlay h.unique fun y hy x hx e => ?_
  rcases h.entry y hy with ⟨r₀, h₀, e₀, ek⟩ | ⟨hf, -⟩
  · rw [hu.eq hx h₀ (e.trans ek.symm)]; exact e₀
  · exact absurd e (hf x hx)

/-- Versions of versions of the same transaction. -/
theorem Versioned.then (htrans : ∀ r r' r'', keep r r' → keep r' r'' → keep r r'')
    (h : Versioned key new row keep t δ) (h' : Versioned key new row keep (Txn.overlay key t δ) δ') :
    Versioned key new row keep t (Txn.overlay key δ δ') := by
  refine ⟨h.unique.overlay h'.unique fun _ _ _ _ e => e, fun r hr => ?_⟩
  rcases Txn.mem_overlay.1 hr with ⟨hr, -⟩ | hr
  · exact h.version r hr
  rcases h'.version r hr with ⟨x, hx, e, hk, hl⟩ | ⟨hf, hl⟩
  · rcases Txn.mem_overlay.1 hx with ⟨hx, -⟩ | hx
    · exact Or.inl ⟨x, hx, e, hk, hl⟩
    · rcases h.version x hx with ⟨r₀, h₀, e₀, hk₀, -⟩ | ⟨hf, hl'⟩
      · exact Or.inl ⟨r₀, h₀, e₀.trans e, htrans _ _ _ hk₀ hk, hl⟩
      · exact Or.inr ⟨fun r₀ h₀ e' => hf r₀ h₀ (e'.trans e.symm), e ▸ hl'⟩
  · exact Or.inr ⟨Txn.fresh_overlay hf, hl⟩

/-- Versions that are all new rows are added to the table. -/
theorem Versioned.overlay_append (h : Versioned key new (fun _ => False) keep t δ) :
    Txn.overlay key t δ = t ++ δ := by
  refine overlay_of_fresh fun r hr r₀ h₀ e => ?_
  rcases h.version r hr with ⟨-, -, -, -, hl⟩ | ⟨hf, -⟩
  · exact hl
  · exact hf r₀ h₀ e

/-! ## Writing a row -/

theorem Versioned.put (h : Versioned key new row keep t δ) {r : ρ}
    (hr : (∃ r₀ ∈ t, key r₀ = key r ∧ keep r₀ r ∧ row (key r)) ∨
      (∀ r₀ ∈ t, key r₀ ≠ key r) ∧ new (key r)) : Versioned key new row keep t (put key δ r) :=
  ⟨h.unique.put fun _ _ e => e, fun x hx => by
    rcases mem_put.1 hx with ⟨hx, -⟩ | rfl
    · exact h.version x hx
    · exact hr⟩

omit [DecidableEq κ] in
/-- Versions that are a single row. -/
theorem Versioned.single {r : ρ} (hr : (∃ r₀ ∈ t, key r₀ = key r ∧ keep r₀ r ∧ row (key r)) ∨
    (∀ r₀ ∈ t, key r₀ ≠ key r) ∧ new (key r)) : Versioned key new row keep t [r] :=
  ⟨uniqueBy_singleton, fun x hx => by
    cases List.mem_singleton.1 hx
    exact hr⟩

theorem Indexed.put (h : Indexed key k lock t δ) {r : ρ}
    (hr : (∃ r₀ ∈ t, key r₀ = key r ∧ k r₀ = k r) ∨ (∀ r₀ ∈ t, k r₀ ≠ k r) ∧ lock (k r))
    (hδ : ∀ x ∈ δ, k x = k r → key x = key r) : Indexed key k lock t (put key δ r) :=
  ⟨h.unique.put hδ, fun x hx => by
    rcases mem_put.1 hx with ⟨hx, -⟩ | rfl
    · exact h.entry x hx
    · exact hr⟩

/-- A key that is new in what the transaction sees is new in the table and in its versions. -/
theorem fresh_of_view {x : κ} (h : ∀ r ∈ Txn.overlay key t δ, key r ≠ x) :
    (∀ r ∈ t, key r ≠ x) ∧ ∀ r ∈ δ, key r ≠ x := by
  refine ⟨fun r hr e => ?_, fun r hr => h r (mem_overlay_right hr)⟩
  by_cases hv : ∃ y ∈ δ, key y = key r
  · obtain ⟨y, hy, e'⟩ := hv; exact h y (mem_overlay_right hy) (e'.trans e)
  · exact h r (mem_overlay_left (fun y hy e' => hv ⟨y, hy, e'⟩) hr) e

end Txn
