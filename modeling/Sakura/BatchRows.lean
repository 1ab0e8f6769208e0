/-
  What a transaction on batches has written and knows.

  * `RowLocked`: a discipline whose commits change batches and items only under their locks;
  * `BatchTx`: the versions of a transaction, how they relate to the rows, and its knowledge;
  * `BatchTx.quiet`, `BatchTx.updateBatch`, `BatchTx.updateItem`, `BatchTx.lockBatch`, `BatchTx.publish`:
    a rule for each form of statement; `attempt_passes`.
-/
import Sakura.BatchItems
import Sakura.Txn.Gates

namespace Sakura

open Txn

variable {ε α β : Type}

/-! ## Rows under locks -/

def sameBatch (o o' : BatchOperation) : Prop := o'.totalCount = o.totalCount

def sameItem (i i' : BatchItem) : Prop := i'.operationId = i.operationId

/-- The versions `I` are of batches whose rows are locked, and related to them by `R`. -/
abbrev BatchVersions (R : BatchOperation → BatchOperation → Prop) (L : Held Lock) (db : DB)
    (I : List BatchOperation) : Prop :=
  Versioned BatchOperation.id (fun _ => False) (fun id => Holds L (.row .batchOperations id)) R
    db.batchOperations I

/-- The versions `J` are of items whose rows are locked, and of the same batch. -/
abbrev RowVersions (L : Held Lock) (db : DB) (J : List BatchItem) : Prop :=
  Versioned BatchItem.id (fun _ => False) (fun id => Holds L (.item id)) sameItem db.batchItems J

/-- The commits of the discipline change batches and items only under their locks. -/
structure RowLocked (D : Discipline Site DB Lock ε) : Prop where
  batchIds : ∀ {db}, D.inv db → UniqueBy BatchOperation.id db.batchOperations
  itemIds : ∀ {db}, D.inv db → UniqueBy BatchItem.id db.batchItems
  step : ∀ {L db e db'}, D.step L db e db' → ∃ I J,
    db'.batchOperations = overlay BatchOperation.id db.batchOperations I ∧
    db'.batchItems = overlay BatchItem.id db.batchItems J ∧
    BatchVersions sameBatch L db I ∧ RowVersions L db J

/-- The open transaction has written the versions `I` and `J`, and knows `K`; the versions of batches
are related to the rows by `R`. -/
structure BatchTx (D : Discipline Site DB Lock ε) (R : BatchOperation → BatchOperation → Prop)
    (I : List BatchOperation) (J : List BatchItem) (K : Held Lock → DB → Prop) (c : Ctx DB Lock ε) :
    Prop where
  batchWrites : ∀ db, (c.writes db).batchOperations =
    overlay BatchOperation.id db.batchOperations I
  itemWrites : ∀ db, (c.writes db).batchItems = overlay BatchItem.id db.batchItems J
  inv : D.inv c.db
  batches : BatchVersions R c.held c.db I
  items : RowVersions c.held c.db J
  known : K c.held c.db
  keeps : D.Keeps K

/-- Versions in other tables. -/
def offBatches (δ : Versions) : Prop := δ.batchOperations = [] ∧ δ.batchItems = []

theorem offBatches_none : offBatches {} := ⟨rfl, rfl⟩

theorem mem_pendingItems {v : DB} {id : UUID} {i : BatchItem} (h : i ∈ pendingItems v id) :
    i ∈ v.batchItems ∧ i.operationId = id := by
  have hm := List.mem_filter.1 ((List.mem_insertionSort _).1 (List.mem_of_mem_take h))
  exact ⟨hm.1, of_decide_eq_true (Bool.and_eq_true_iff.1 hm.2).1⟩

variable {D : Discipline Site DB Lock ε} {R : BatchOperation → BatchOperation → Prop}
  {I : List BatchOperation} {J : List BatchItem} {K K' : Held Lock → DB → Prop} {c c' : Ctx DB Lock ε} {g : Gate DB Lock Event} {f : Event → ε}

theorem RowLocked.keeps_batches (hD : RowLocked D) :
    D.Keeps fun L db => BatchVersions R L db I where
  mono hLM h := h.mono (fun _ => id) fun _ => Holds.mono hLM
  step hi hc hs h := by
    obtain ⟨I', J', e, -, hv, -⟩ := hD.step hs
    rw [BatchVersions, e]
    exact h.overlay hv (fun _ h => h.elim) fun _ hl => hl.not_holds hc

theorem RowLocked.keeps_items (hD : RowLocked D) :
    D.Keeps fun L db => RowVersions L db J where
  mono hLM h := h.mono (fun _ => id) fun _ => Holds.mono hLM
  step hi hc hs h := by
    obtain ⟨I', J', -, e, -, hv⟩ := hD.step hs
    rw [RowVersions, e]
    exact h.overlay hv (fun _ h => h.elim) fun _ hl => hl.not_holds hc

/-- The row of the batch, locked. -/
def BatchLocked (o : BatchOperation) (L : Held Lock) (db : DB) : Prop :=
  Holds L (.row .batchOperations o.id) ∧ o ∈ db.batchOperations

theorem RowLocked.keeps_locked (hD : RowLocked D) {o : BatchOperation} :
    D.Keeps (BatchLocked o) where
  mono hLM h := ⟨h.1.mono hLM, h.2⟩
  step hi hc hs h := by
    obtain ⟨I', J', e, -, hv, -⟩ := hD.step hs
    refine ⟨h.1, ?_⟩
    rw [e]
    exact hv.mem_overlay h.2 (h.1.not_holds hc)

/-- From `c` the program keeps to the discipline behind the gate, and returns with `Q`. -/
abbrev Passes (D : Discipline Site DB Lock ε) (g : Gate DB Lock Event) (f : Event → ε) (p : Call α)
    (Q : α → Ctx DB Lock ε → Prop) (c : Ctx DB Lock ε) : Prop :=
  wpAt D g f p Q (fun _ c => D.inv c.db) c

namespace BatchTx

/-! ## Transactions -/

theorem start {db : DB} {done : List ε} (hi : D.inv db) :
    BatchTx D R [] [] (fun _ _ => True) { db, done } where
  batchWrites _ := overlay_nil.symm
  itemWrites _ := overlay_nil.symm
  inv := hi
  batches := .nil
  items := .nil
  known := trivial
  keeps := Discipline.keeps_true

/-- A transaction that has written nothing. -/
theorem blank (h : BatchTx D R [] [] K c) (R' : BatchOperation → BatchOperation → Prop) :
    BatchTx D R' [] [] (fun _ _ => True) c where
  batchWrites := h.batchWrites
  itemWrites := h.itemWrites
  inv := h.inv
  batches := .nil
  items := .nil
  known := trivial
  keeps := Discipline.keeps_true

theorem waits (hD : RowLocked D) (h : BatchTx D R I J K c) (hw : c.Waits D c') :
    BatchTx D R I J K c' := by
  obtain ⟨db, hr, hi, rfl⟩ := hw
  exact ⟨h.batchWrites, h.itemWrites, hi, hD.keeps_batches.rely hr h.batches,
    hD.keeps_items.rely hr h.items, h.keeps.rely hr h.known, h.keeps⟩

theorem view (h : BatchTx D R I J K c) :
    c.view.batchOperations = overlay BatchOperation.id c.db.batchOperations I ∧
      c.view.batchItems = overlay BatchItem.id c.db.batchItems J :=
  ⟨h.batchWrites c.db, h.itemWrites c.db⟩

theorem learn (h : BatchTx D R I J K c) (hk : D.Keeps K') (hK : K' c.held c.db) :
    BatchTx D R I J (fun L db => K L db ∧ K' L db) c :=
  { h with known := ⟨h.known, hK⟩, keeps := h.keeps.and hk }

theorem forget (h : BatchTx D R I J K c) (hk : D.Keeps K') (hK : ∀ {L db}, K L db → K' L db) :
    BatchTx D R I J K' c :=
  { h with known := hK h.known, keeps := hk }

/-- More locks, and versions in other tables. -/
theorem apply (h : BatchTx D R I J K c) {e : Effect DB Lock} (he : Writes offBatches c.view e) :
    BatchTx D R I J K (c.apply e) where
  batchWrites db := by
    obtain ⟨δ, hδ, hw⟩ := he
    show (e.write (c.writes db)).batchOperations = _
    rw [hw, ← h.batchWrites db]
    show overlay BatchOperation.id _ δ.batchOperations = _
    rw [hδ.1, overlay_nil]
  itemWrites db := by
    obtain ⟨δ, hδ, hw⟩ := he
    show (e.write (c.writes db)).batchItems = _
    rw [hw, ← h.itemWrites db]
    show overlay BatchItem.id _ δ.batchItems = _
    rw [hδ.2, overlay_nil]
  inv := h.inv
  batches := h.batches.mono (fun _ => id) fun _ => Holds.mono (List.subset_append_left _ _)
  items := h.items.mono (fun _ => id) fun _ => Holds.mono (List.subset_append_left _ _)
  known := h.keeps.mono (List.subset_append_left _ _) h.known
  keeps := h.keeps

theorem lock (h : BatchTx D R I J K c) {locks : Held Lock} :
    BatchTx D R I J K (c.apply { locks }) :=
  h.apply (writes_locks offBatches_none)

/-- A program on other tables. -/
theorem quiet (hD : RowLocked D) (h : BatchTx D R I J K c) {p : Call α}
    (hp : OnlyWrites offBatches p) {Q : α → Ctx DB Lock ε → Prop}
    (hQ : ∀ a c', BatchTx D R I J K c' → Q a c') :
    Passes D g f p Q c :=
  wpAt_mono (fun a c' h' => hQ a c' h') (fun _ _ h' => h'.inv)
    (wpAt_statements (fun h hw => h.waits hD hw) (fun h he => h.apply he) hp h)

/-! ## Statements -/

theorem selects (hD : RowLocked D) (h : BatchTx D R I J K c) {k : DB → α}
    {Q : α → Ctx DB Lock ε → Prop}
    (hQ : ∀ c', BatchTx D R I J K c' → Q (k c'.view) c') : Passes D g f (select k) Q c :=
  wpAt_query.2 fun c' hw _ => hQ c' (h.waits hD hw)

/-- The locking read of a batch. -/
theorem lockBatch (hD : RowLocked D) (h : BatchTx D R [] J K c) {p : BatchOperation → Bool}
    {Q : Option BatchOperation → Ctx DB Lock ε → Prop}
    (hnone : ∀ c', BatchTx D R [] J K c' → Q none c')
    (hsome : ∀ c' o, BatchTx D R [] J (fun L db => K L db ∧ BatchLocked o L db) c' → p o →
      Q (some o) c') :
    Passes D g f (selectLock .batchOperations .exclusive DB.batchOperations BatchOperation.id p) Q
      c := by
  refine wpAt_bind.2 (h.selects hD fun c₁ h₁ => ?_)
  split
  · exact hnone c₁ h₁
  · next o _ =>
    refine wpAt_exec.2 fun c₂ hw _ => ?_
    have h₂ := h₁.waits hD hw
    dsimp only
    cases hf : c₂.view.batchOperations.find? fun o' => o'.id = o.id && p o' with
    | none => exact hnone _ h₂.lock
    | some o' =>
      obtain ⟨hid, hp⟩ : o'.id = o.id ∧ p o' := by simpa using List.find?_some hf
      have hmem : o' ∈ c₂.db.batchOperations := by
        have := List.mem_of_find?_eq_some hf
        rwa [h₂.view.1, overlay_nil] at this
      refine hsome _ o' (h₂.lock.learn hD.keeps_locked ⟨?_, hmem⟩) hp
      rw [hid]
      exact List.mem_append_right _ (List.mem_singleton_self _)

/-- An UPDATE of a batch that the transaction has not written yet. -/
theorem updateBatch (hD : RowLocked D) (h : BatchTx D R [] J K c) {id : UUID}
    {p : BatchOperation → Bool} {set : BatchOperation → BatchOperation}
    {Q : Nat → Ctx DB Lock ε → Prop}
    (hR : ∀ L db, D.inv db → K L db → ∀ o ∈ db.batchOperations, o.id = id → p o →
      R o { set o with id })
    (hnone : ∀ c', BatchTx D R [] J K c' → Q 0 c')
    (hsome : ∀ c' o, BatchTx D R [{ set o with id }] J K c' → o ∈ c'.db.batchOperations →
      o.id = id → p o → Q 1 c') :
    Passes D g f (Sakura.updateBatch id p set) Q c := by
  refine wpAt_bind.2 (h.selects hD fun c₁ h₁ => ?_)
  split
  · exact hnone c₁ h₁
  · next r hr =>
    refine wpAt_exec.2 fun c₂ hw _ => ?_
    have h₂ := h₁.waits hD hw
    dsimp only
    have hrid : r.id = id := by
      have := List.find?_some hr
      simp only [Bool.and_eq_true, decide_eq_true_eq] at this
      exact this.1
    cases hf : c₂.view.batchOperations.find? fun o' =>
        o'.id = r.id && (decide (o'.id = id) && p o') with
    | none => exact hnone _ h₂.lock
    | some o =>
      obtain ⟨-, hid, hp⟩ : o.id = r.id ∧ o.id = id ∧ p o := by simpa using List.find?_some hf
      have hmem : o ∈ c₂.db.batchOperations := by
        have := List.mem_of_find?_eq_some hf
        rwa [h₂.view.1, overlay_nil] at this
      refine hsome _ o ⟨fun db => ?_, fun db => ?_, h₂.inv, ?_, ?_, ?_, h₂.keeps⟩ hmem hid hp
      · show overlay BatchOperation.id (c₂.writes db).batchOperations _ = _
        rw [h₂.batchWrites, overlay_nil]
      · show overlay BatchItem.id (c₂.writes db).batchItems [] = _
        rw [h₂.itemWrites, overlay_nil]
      · refine .single (Or.inl ⟨o, hmem, hid, hR _ _ h₂.inv h₂.known o hmem hid hp, ?_⟩)
        rw [← hrid]
        exact List.mem_append_right _ (List.mem_singleton_self _)
      · exact h₂.items.mono (fun _ h => h) fun _ => Holds.mono (List.subset_append_left _ _)
      · exact h₂.keeps.mono (List.subset_append_left _ _) h₂.known

/-- An UPDATE of an item. -/
theorem updateItem (hD : RowLocked D) (h : BatchTx D R I J K c) {id : Nat} {p : BatchItem → Bool}
    {set : BatchItem → BatchItem} {site : Site} {Q : Nat → Ctx DB Lock ε → Prop}
    (hset : ∀ i, (set i).operationId = i.operationId)
    (hnone : ∀ c', BatchTx D R I J K c' → (∀ j ∈ J, j.id = id → ¬p j) → Q 0 c')
    (hsome : ∀ c' i, BatchTx D R I (put BatchItem.id J { set i with id }) K c' → i.id = id → p i →
      Q 1 c') :
    Passes D g f (Sakura.updateItem id p set site) Q c := by
  -- the transaction sees its own versions
  have hown : ∀ {c₁ : Ctx DB Lock ε}, BatchTx D R I J K c₁ →
      c₁.view.batchItems.find? (fun i => i.id = id && p i) = none → ∀ j ∈ J, j.id = id → ¬p j := by
    intro c₁ h₁ hf j hj hid hp
    have hmem : j ∈ c₁.view.batchItems := by
      rw [h₁.view.2]
      exact mem_overlay_right hj
    exact List.find?_eq_none.1 hf j hmem (by simp [hid, hp])
  refine wpAt_bind.2 (h.selects hD fun c₁ h₁ => ?_)
  split
  · next hf => exact hnone c₁ h₁ (hown h₁ hf)
  · refine wpAt_exec.2 fun c₂ hw _ => ?_
    have h₂ := h₁.waits hD hw
    dsimp only
    cases hf : c₂.view.batchItems.find? fun i => i.id = id && p i with
    | none => exact hnone _ h₂.lock (hown h₂ hf)
    | some i =>
      obtain ⟨hid, hp⟩ : i.id = id ∧ p i := by simpa using List.find?_some hf
      have hmem := List.mem_of_find?_eq_some hf
      rw [h₂.view.2] at hmem
      -- the row under the version that the transaction sees
      obtain ⟨i₀, h₀, hid₀, hsame⟩ : ∃ i₀ ∈ c₂.db.batchItems, i₀.id = id ∧ sameItem i₀ i := by
        rcases mem_overlay.1 hmem with ⟨hi, -⟩ | hi
        · exact ⟨i, hi, hid, rfl⟩
        · rcases h₂.items.version i hi with ⟨i₀, h₀, e, hk, -⟩ | ⟨-, hf⟩
          · exact ⟨i₀, h₀, e.trans hid, hk⟩
          · exact hf.elim
      refine hsome _ i ⟨fun db => ?_, fun db => ?_, h₂.inv, ?_, ?_, ?_, h₂.keeps⟩ hid hp
      · show overlay BatchOperation.id (c₂.writes db).batchOperations [] = _
        rw [h₂.batchWrites, overlay_nil]
      · show overlay BatchItem.id (c₂.writes db).batchItems _ = _
        rw [h₂.itemWrites, put, overlay_assoc]
      · exact h₂.batches.mono (fun _ h => h) fun _ => Holds.mono (List.subset_append_left _ _)
      · exact (h₂.items.mono (fun _ h => h) fun _ => Holds.mono
          (List.subset_append_left _ _)).put (Or.inl ⟨i₀, h₀, hid₀, (hset i).trans hsame,
            List.mem_append_right _ (List.mem_singleton_self _)⟩)
      · exact h₂.keeps.mono (List.subset_append_left _ _) h₂.known

/-- One UPDATE of an item after the other; `P` is what they make of each item. -/
theorem updateItems (hD : RowLocked D) {p : BatchItem → Bool} {set : BatchItem → BatchItem}
    {P : BatchItem → Prop} {Q : Unit → Ctx DB Lock ε → Prop}
    (hset : ∀ i, (set i).operationId = i.operationId) (hP : ∀ i, p i → P { set i with id := i.id })
    (hQ : ∀ c' J, BatchTx D R I J K c' → (∀ j ∈ J, P j) → Q () c') :
    ∀ (ids : List Nat) {c : Ctx DB Lock ε} {J : List BatchItem}, BatchTx D R I J K c →
      (∀ j ∈ J, P j) → Passes D g f (Sakura.updateItems p set ids) Q c
  | [], c, J, h, hJ => hQ c J h hJ
  | id :: ids, c, J, h, hJ => by
    refine wpAt_bind.2 (h.updateItem hD hset (fun c' h' _ => ?_) fun c' i h' hid hp => ?_)
    · exact updateItems hD hset hP hQ ids h' hJ
    · refine updateItems hD hset hP hQ ids h' fun j hj => ?_
      rcases mem_put.1 hj with ⟨hj, -⟩ | rfl
      · exact hJ j hj
      · exact hid ▸ hP i hp

theorem getBatch (hD : RowLocked D) (h : BatchTx D R I J K c) {id : UUID}
    {Q : BatchOperation → Ctx DB Lock ε → Prop}
    (hQ : ∀ c' o, BatchTx D R I J K c' → o.id = id → Q o c') :
    Passes D g f (Sakura.getBatch id) Q c := by
  refine wpAt_bind.2 (h.selects hD fun c₁ h₁ => wpAt_orFail.2 ⟨fun o ho => hQ c₁ o h₁ ?_, fun _ => h₁.inv⟩)
  simpa using List.find?_some ho

theorem check (h : BatchTx D R I J K c) {p : Prop} [Decidable p] {x : Err}
    {Q : Unit → Ctx DB Lock ε → Prop} (hQ : p → Q () c) : Passes D g f (.check p x) Q c :=
  wpAt_check.2 ⟨hQ, fun _ => h.inv⟩

/-- **A commit**: it is a step of the discipline, and a new transaction starts. -/
theorem publish (hD : RowLocked D) (h : BatchTx D R I J K c) {e : Event}
    {Q : Unit → Ctx DB Lock ε → Prop}
    (hs : ∀ c', BatchTx D R I J K c' → g.ok e c'.db →
      D.step (c'.held ++ g.locks e) c'.db (f e) c'.view)
    (hQ : ∀ (c' : Ctx DB Lock ε), (∀ R, BatchTx D R [] [] (fun _ _ => True) c') → Q () c') :
    Passes D g f (.publish e) Q c := by
  refine wpAt_publish.2 fun c' hw hok => ?_
  have h' := h.waits hD hw
  have hstep := hs c' h' hok
  exact ⟨hstep, hQ _ fun _ => .start (D.step_inv h'.inv hstep)⟩

end BatchTx

/-- An attempt that fails starts again with a new transaction. -/
theorem attempt_passes {p : Call α} {Q : Except Err α → Ctx DB Lock ε → Prop}
    (h : Passes D g f p (fun a c' => Q (.ok a) c') c)
    (hQ : ∀ x (c' : Ctx DB Lock ε), (∀ R, BatchTx D R [] [] (fun _ _ => True) c') →
      Q (.error x) c') : Passes D g f p.attempt Q c :=
  wpAt_attempt.2 (wpAt_mono (fun _ _ h => h) (fun x c' hi => hQ x _ fun _ => .start hi) h)

end Sakura
