/-
  Batch items take effect at most once.

  * `BatchCall`: workers and administrators;
  * `failsOnlyUnfinished`: the record of a failure never meets a succeeded item;
  * `batchDiscipline`: a commit makes no version of a succeeded item;
  * `batch_items_once`: the runs in which this holds; `staleWorker_repeats`: one in which it does not.
-/
import Sakura.Platform
import Sakura.Statements
import Sakura.Txn.Rely
import Sakura.Interference

namespace Sakura

open Txn

/-! ## Calls -/

inductive BatchCall where
  | processNextBatch (r : BatchRun)
  | pauseBatch (id : UUID)
  | resumeBatch (id : UUID)
  | cancelBatch (id : UUID)
  | retryBatch (id : UUID)

def BatchCall.call : BatchCall → Call Unit
  | .processNextBatch r => (fun _ => ()) <$> Sakura.processNextBatch r
  | .pauseBatch id => (fun _ => ()) <$> Sakura.pauseBatch id
  | .resumeBatch id => (fun _ => ()) <$> Sakura.resumeBatch id
  | .cancelBatch id => (fun _ => ()) <$> Sakura.cancelBatch id
  | .retryBatch id => (fun _ => ()) <$> Sakura.retryBatch id

/-- The statement that records a failed item finds no succeeded item. -/
def failsOnlyUnfinished : Site → DB → Prop
  | .failItem id, v => ∀ i ∈ v.batchItems, i.id = id → i.status ≠ .succeeded
  | _, _ => True

instance : ∀ site v, Decidable (failsOnlyUnfinished site v)
  | .failItem id, v =>
    inferInstanceAs (Decidable (∀ i ∈ v.batchItems, i.id = id → i.status ≠ .succeeded))
  | .sql, _ | .currentMembership _ _, _ | .usedRefunds _ _ _, _ => isTrue trivial

/-! ## The discipline -/

/-- The versions `I` of items are versions of locked items that had not succeeded. -/
abbrev ItemVersions (L : Held Lock) (db : DB) (I : List BatchItem) : Prop :=
  Versioned BatchItem.id (fun _ => False) (fun id => Holds L (.item id))
    (fun i _ => i.status ≠ .succeeded) db.batchItems I

/-- The effect of an item commits together with its success. -/
def batchDiscipline : Discipline Site DB Lock Event where
  inv db := UniqueBy BatchItem.id db.batchItems
  step L db e db' := ∃ I, db'.batchItems = overlay BatchItem.id db.batchItems I ∧
    ItemVersions L db I ∧ ∀ id g, e = .batchItem id g → ∃ i ∈ I, i.id = id ∧ i.status = .succeeded
  allowed := failsOnlyUnfinished
  step_inv := fun hu ⟨_, he, hv, _⟩ => he ▸ hv.uniqueBy hu

/-- The effects of the item `id` among some events. -/
def effectsOf (id : Nat) (es : List Event) : List Event :=
  es.filter fun e => match e with
    | .batchItem i _ => i = id
    | _ => false

theorem mem_effectsOf {id : Nat} {es : List Event} {e : Event} :
    e ∈ effectsOf id es ↔ e ∈ es ∧ ∃ g, e = .batchItem id g := by
  simp only [effectsOf, List.mem_filter]
  refine and_congr_right fun _ => ?_
  split
  · simp
  · next h => exact ⟨fun hf => by simp at hf, fun ⟨g, he⟩ => (h _ _ he).elim⟩

/-- Along a chain of commits each item takes effect at most once, and has then succeeded. -/
theorem Commits.effects {db db' : DB} {es : List Event}
    (h : batchDiscipline.Commits db es db') (id : Nat) : (effectsOf id es).length ≤ 1 ∧
      (effectsOf id es ≠ [] → ∃ i ∈ db'.batchItems, i.id = id ∧ i.status = .succeeded) := by
  induction h with
  | nil => exact ⟨Nat.zero_le _, fun h => (h rfl).elim⟩
  | @snoc es db' L e db'' _ hu hs ih =>
    obtain ⟨I, he, hv, heff⟩ := hs
    have hsplit : effectsOf id (es ++ [e]) = effectsOf id es ++ effectsOf id [e] :=
      List.filter_append _ _
    by_cases hid : ∃ g, e = .batchItem id g
    · obtain ⟨g, rfl⟩ := hid
      obtain ⟨i, hi, hid, hst⟩ := heff id g rfl
      -- the item had not succeeded, so it has had no effect yet
      have hnil : effectsOf id es = [] := by
        by_contra hne
        obtain ⟨i₁, hi₁, hid₁, hst₁⟩ := ih.2 hne
        rcases hv.version i hi with ⟨i₀, hi₀, e₀, hk, -⟩ | ⟨-, hf⟩
        · rw [hu.eq hi₁ hi₀ (hid₁.trans (hid.symm.trans e₀.symm))] at hst₁
          exact hk hst₁
        · exact hf
      rw [hsplit, hnil]
      exact ⟨by simp [effectsOf], fun _ => ⟨i, by rw [he]; exact mem_overlay_right hi, hid, hst⟩⟩
    · have hnil : effectsOf id [e] = [] :=
        List.eq_nil_iff_forall_not_mem.2 fun x hx => by
          obtain ⟨hx, g, rfl⟩ := mem_effectsOf.1 hx
          exact hid ⟨g, (List.mem_singleton.1 hx).symm⟩
      rw [hsplit, hnil, List.append_nil]
      refine ⟨ih.1, fun hne => ?_⟩
      obtain ⟨i, hi, hid, hst⟩ := ih.2 hne
      -- a succeeded item has no new version
      refine ⟨i, ?_, hid, hst⟩
      rw [he]
      refine mem_overlay_left (fun r hr e₁ => ?_) hi
      rcases hv.version r hr with ⟨r₀, hr₀, e₀, hk, -⟩ | ⟨-, hf⟩
      · rw [hu.eq hr₀ hi (e₀.trans e₁)] at hk
        exact hk hst
      · exact hf

/-! ## Open transactions -/

variable {α : Type} {c c' : Ctx DB Lock Event} {I : List BatchItem}

/-- From `c` the program keeps to the discipline and returns with `Q`. -/
abbrev BatchRuns (p : Call α) (Q : α → Ctx DB Lock Event → Prop) (c : Ctx DB Lock Event) : Prop :=
  wp batchDiscipline p Q (fun _ c => UniqueBy BatchItem.id c.db.batchItems) c

/-- The open transaction has written the versions `I` of items. -/
structure ItemsAt (c : Ctx DB Lock Event) (I : List BatchItem) : Prop where
  writes : ∀ db, (c.writes db).batchItems = overlay BatchItem.id db.batchItems I
  unique : UniqueBy BatchItem.id c.db.batchItems
  versions : ItemVersions c.held c.db I

def offItems (δ : Versions) : Prop := δ.batchItems = []

theorem offItems_none : offItems {} := rfl

namespace ItemsAt

theorem start {db : DB} {done : List Event} (h : UniqueBy BatchItem.id db.batchItems) :
    ItemsAt { db := db, done := done } [] where
  writes _ := overlay_nil.symm
  unique := h
  versions := .nil

theorem view (h : ItemsAt c I) : c.view.batchItems = overlay BatchItem.id c.db.batchItems I :=
  h.writes c.db

theorem waits (h : ItemsAt c I) (hw : c.Waits batchDiscipline c') : ItemsAt c' I := by
  obtain ⟨db, hr, hi, rfl⟩ := hw
  refine ⟨h.writes, hi, Discipline.rely_induction (P := fun db => ItemVersions c.held db I) ?_ hr
    h.versions⟩
  rintro M db e db' - hc ⟨I', he, hv', -⟩ hv
  rw [ItemVersions, he]
  exact hv.overlay hv' (fun _ => False.elim) fun _ hl => hl.not_holds hc

/-- A version is one of a row that had not succeeded. -/
theorem unfinished (h : ItemsAt c I) {r : BatchItem} (hr : r ∈ I) :
    ∃ r₀ ∈ c.db.batchItems, r₀.id = r.id ∧ r₀.status ≠ .succeeded := by
  rcases h.versions.version r hr with ⟨r₀, hr₀, e, hk, -⟩ | ⟨-, hf⟩
  · exact ⟨r₀, hr₀, e, hk⟩
  · exact hf.elim

/-- A statement on other tables. -/
theorem quiet (h : ItemsAt c I) {f : Effect DB Lock} (hf : Writes offItems c.view f) :
    ItemsAt (c.apply f) I where
  writes db := by
    obtain ⟨δ, hδ, hw⟩ := hf
    show (f.write (c.writes db)).batchItems = _
    rw [hw, ← h.writes db]
    show overlay BatchItem.id _ δ.batchItems = _
    rw [hδ, overlay_nil]
  unique := h.unique
  versions := h.versions.mono (fun _ => id) fun _ => Holds.mono (List.subset_append_left _ _)

/-- A program on other tables. -/
theorem program (h : ItemsAt c I) {p : Call α} (hp : OnlyWrites offItems p) :
    BatchRuns p (fun _ c' => ItemsAt c' I) c :=
  wp_mono (fun _ _ => id) (fun _ _ h => h.unique)
    (wp_statements (P := fun c => ItemsAt c I) (fun h hw => h.waits hw) (fun h hf => h.quiet hf) hp h)

theorem bind {β : Type} {p : Call α} {f : α → Call β} {Q : β → Ctx DB Lock Event → Prop}
    (h : ItemsAt c I) (hp : OnlyWrites offItems p)
    (hf : ∀ a c', ItemsAt c' I → BatchRuns (f a) Q c') : BatchRuns (p >>= f) Q c :=
  wp_bind.2 (wp_mono (fun a c' h' => hf a c' h') (fun _ _ => id) (h.program hp))

/-- A commit publishes the versions of the items. -/
theorem publish (h : ItemsAt c I) {e : Event} {Q : Unit → Ctx DB Lock Event → Prop}
    (he : ∀ id g, e = .batchItem id g → ∃ i ∈ I, i.id = id ∧ i.status = .succeeded)
    (hQ : ∀ c', ItemsAt c' [] → Q () c') : BatchRuns (.publish e) Q c := by
  refine wp_publish.2 fun c' hw => ?_
  have h' := h.waits hw
  refine ⟨⟨I, h'.view, h'.versions, he⟩, hQ _ (start ?_)⟩
  rw [h'.view]
  exact h'.versions.uniqueBy h'.unique

theorem publish_bind {β : Type} (h : ItemsAt c I) {e : Event} {f : Unit → Call β}
    {Q : β → Ctx DB Lock Event → Prop}
    (he : ∀ id g, e = .batchItem id g → ∃ i ∈ I, i.id = id ∧ i.status = .succeeded)
    (hQ : ∀ c', ItemsAt c' [] → BatchRuns (f ()) Q c') : BatchRuns (.publish e >>= f) Q c :=
  wp_bind.2 (h.publish he hQ)

/-- An UPDATE of an item: no row, or a new version of one that had not succeeded. -/
theorem updateItem (h : ItemsAt c I) {id : Nat} {p : BatchItem → Bool} {set : BatchItem → BatchItem}
    {site : Site} {Q : Nat → Ctx DB Lock Event → Prop}
    (hk : ∀ v, failsOnlyUnfinished site v → ∀ i ∈ v.batchItems, i.id = id → p i →
      i.status ≠ .succeeded ∨ ∃ r ∈ I, r.id = id)
    (hnone : ∀ c', ItemsAt c' I → (∀ i ∈ c'.view.batchItems, i.id = id → ¬p i) → Q 0 c')
    (hsome : ∀ c' i, ItemsAt c' (put BatchItem.id I { set i with id := id }) → i.id = id → p i →
      Q 1 c') : BatchRuns (updateItem id p set site) Q c := by
  refine wp_bind.2 (wp_query.2 fun c₁ hw₁ _ => ?_)
  have h₁ := h.waits hw₁
  cases hf : c₁.view.batchItems.find? fun i => i.id = id && p i with
  | none =>
    have hno := List.find?_eq_none.1 hf
    exact hnone c₁ h₁ fun i hi hid hp => hno i hi (by simp [hid, hp])
  | some _ =>
    refine wp_exec.2 fun c₂ hw₂ ha => ?_
    have h₂ := h₁.waits hw₂
    cases hf : c₂.view.batchItems.find? fun i => i.id = id && p i with
    | none =>
      have hno := List.find?_eq_none.1 hf
      exact hnone _ (h₂.quiet (writes_locks offItems_none)) fun i hi hid hp =>
        hno i hi (by simp [hid, hp])
    | some i =>
      obtain ⟨hid, hp⟩ : i.id = id ∧ p i := by simpa using List.find?_some hf
      have hi := List.mem_of_find?_eq_some hf
      refine hsome _ i ⟨fun db => ?_, h₂.unique, ?_⟩ hid hp
      · show overlay BatchItem.id (c₂.writes db).batchItems _ = _
        rw [h₂.writes, put, overlay_assoc]
      · have hv : ItemVersions (c₂.held ++ [exclusive (.item id)]) c₂.db I :=
          h₂.versions.mono (fun _ => False.elim) fun _ => Holds.mono (List.subset_append_left _ _)
        obtain ⟨r, hr, hrid, hst⟩ : ∃ r ∈ c₂.db.batchItems, r.id = id ∧ r.status ≠ .succeeded := by
          by_cases hI : ∃ r ∈ I, r.id = id
          · obtain ⟨r, hr, rfl⟩ := hI
            exact h₂.unfinished hr
          · rcases mem_overlay.1 (h₂.view ▸ hi) with ⟨hi', -⟩ | hi'
            · exact ⟨i, hi', hid, (hk _ ha i hi hid hp).resolve_right hI⟩
            · exact absurd ⟨i, hi', hid⟩ hI
        exact hv.put (Or.inl ⟨r, hr, hrid, hst,
          List.mem_append_right _ (List.mem_singleton.2 rfl)⟩)

end ItemsAt

/-! ## Items -/

theorem processBatchItem_keeps (h : ItemsAt c []) {fresh : Fresh} {operation : BatchOperation}
    {itemID : Nat} {accountID : UUID} {workerID : String} :
    BatchRuns (processBatchItem fresh operation itemID accountID workerID)
      (fun _ c' => ItemsAt c' []) c := by
  have hpending : ∀ i : BatchItem, decide (i.status = .pending) = true → i.status ≠ .succeeded :=
    fun i hp => by rw [of_decide_eq_true hp]; decide
  unfold processBatchItem
  refine wp_bind.2 (h.updateItem (fun _ _ i _ _ hp => Or.inl (hpending i hp)) (fun c₁ h₁ _ => ?_)
    fun c₁ i h₁ _ _ => ?_)
  · exact wp_bind.2 (wp_check.2 ⟨fun h => absurd h (by decide), fun _ => h₁.unique⟩)
  · refine wp_bind.2 (wp_check.2 ⟨fun _ => ?_, fun _ => h₁.unique⟩)
    rw [put_nil] at h₁
    refine h₁.bind (itemEffect_writes offItems_none (fun _ => rfl) (fun _ => rfl) fun _ => rfl)
      fun g c₂ h₂ => wp_bind.2 ?_
    refine h₂.updateItem (fun _ _ _ _ _ _ => Or.inr ⟨_, List.mem_singleton_self _, rfl⟩)
      (fun c₃ h₃ hno => ?_) fun c₃ i' h₃ _ _ => ?_
    · -- the transaction sees its own version of the item
      have hmem : { i with id := itemID, status := .running, attempts := i.attempts + 1 } ∈
          overlay BatchItem.id c₃.db.batchItems _ := mem_overlay_right (List.mem_singleton_self _)
      rw [← h₃.view] at hmem
      exact absurd rfl (hno _ hmem rfl)
    · refine h₃.publish (fun id g' he => ?_) fun _ => id
      cases he
      exact ⟨_, mem_overlay_right (List.mem_singleton_self _), rfl, rfl⟩

theorem updateItems_keeps {p : BatchItem → Bool} {set : BatchItem → BatchItem}
    (hp : ∀ i, p i → i.status ≠ .succeeded) : ∀ (ids : List Nat) {c : Ctx DB Lock Event}
      {I : List BatchItem}, ItemsAt c I →
      BatchRuns (updateItems p set ids) (fun _ c' => ∃ I', ItemsAt c' I') c
  | [], _, I, h => ⟨I, h⟩
  | id :: ids, c, I, h => by
    refine wp_bind.2 (h.updateItem (fun _ _ i _ _ h => Or.inl (hp i h)) (fun c₁ h₁ _ => ?_)
      fun c₁ i h₁ _ _ => ?_)
    · exact updateItems_keeps hp ids h₁
    · exact updateItems_keeps hp ids h₁

theorem updateBatch_offItems {id : UUID} {p : BatchOperation → Bool}
    {set : BatchOperation → BatchOperation} : OnlyWrites offItems (updateBatch id p set) :=
  updateRow_writes offItems_none fun _ => rfl

theorem getBatch_offItems {id : UUID} : OnlyWrites offItems (getBatch id) :=
  selectOne_writes offItems_none

theorem checkBatch_writes {T : Versions → Prop} (h₀ : T {}) {id : UUID} :
    OnlyWrites T (checkBatch id) := by
  refine Prog.statements_exec fun v => ?_
  split
  · exact writes_locks h₀
  · exact writes_locks h₀

theorem countItems_writes {T : Versions → Prop} (h₀ : T {}) {id : UUID} :
    OnlyWrites T (countItems id) :=
  Prog.statements_exec fun _ => writes_locks h₀

theorem failItem_keeps (h : ItemsAt c []) {itemID : Nat} :
    BatchRuns (failItem itemID) (fun _ c' => ItemsAt c' []) c := by
  refine wp_bind.2 (h.updateItem (fun v ha i hi hid _ => Or.inl (ha i hi hid)) (fun c₁ h₁ _ => ?_)
    fun c₁ i h₁ _ _ => ?_)
  · exact h₁.publish (fun _ _ he => by cases he) fun _ => id
  · exact h₁.publish (fun _ _ he => by cases he) fun _ => id

theorem renewBatch_keeps (h : ItemsAt c []) {r : BatchRun} {operationID : UUID} {n : Nat} :
    BatchRuns (renewBatch r operationID n) (fun _ c' => ItemsAt c' []) c :=
  h.bind updateBatch_offItems fun _ _ h₁ => h₁.publish (fun _ _ he => by cases he) fun _ => id

/-! ## Chunks -/

theorem claimBatch_keeps (h : ItemsAt c []) {r : BatchRun} {operationID : UUID} :
    BatchRuns (claimBatch r operationID) (fun _ c' => ItemsAt c' []) c := by
  unfold claimBatch
  refine h.bind (selectLock_writes offItems_none) fun o c₁ h₁ => ?_
  split
  · exact h₁
  · refine h₁.bind updateBatch_offItems fun _ c₂ h₂ => ?_
    refine h₂.bind (select_writes offItems_none) fun ids c₃ h₃ => wp_bind.2 ?_
    refine wp_mono ?_ (fun _ _ => id) (updateItems_keeps ?_ ids h₃)
    · rintro _ c₄ ⟨I', h₄⟩
      exact h₄.publish_bind (fun _ _ he => by cases he) fun _ => id
    · intro i hp
      simp only [Bool.and_eq_true, decide_eq_true_eq] at hp
      rw [hp.2]; decide

/-- The loop over the items of a chunk, one item after the other. -/
theorem processItems_keeps {r : BatchRun} {operation : BatchOperation} :
    ∀ (items : List BatchItem) (n : Nat) {c : Ctx DB Lock Event}, ItemsAt c [] →
      BatchRuns (processItems r operation n items) (fun _ c' => ItemsAt c' []) c
  | [], _, _, h => h
  | item :: items, n, c, h => by
    unfold processItems
    refine h.bind (checkBatch_writes offItems_none) fun status c₁ h₁ => ?_
    split
    · exact h₁
    · refine wp_bind.2 (wp_attempt.2 (wp_mono (fun _ c₂ h₂ => ?_) (fun x c₂ hu => ?_)
        (processBatchItem_keeps h₁)))
      · exact wp_bind.2 (wp_bind.2 (wp_mono
          (fun _ _ h₃ => processItems_keeps items (n + 1) h₃) (fun _ _ => id) (renewBatch_keeps h₂)))
      · have h₂ : ItemsAt c₂.rollback [] := .start hu
        refine wp_bind.2 ?_
        have hnext : ∀ c₃, ItemsAt c₃ [] → BatchRuns (do
            renewBatch r operation.id n
            processItems r operation (n + 1) items) (fun _ c' => ItemsAt c' []) c₃ := fun c₃ h₃ =>
          wp_bind.2 (wp_mono (fun _ _ h₄ => processItems_keeps items (n + 1) h₄) (fun _ _ => id)
            (renewBatch_keeps h₃))
        simp only [recordOutcome]
        split
        · exact wp_mono (fun _ => hnext) (fun _ _ => id) (failItem_keeps h₂)
        · exact hnext _ h₂

theorem finalizeBatchChunk_keeps (h : ItemsAt c []) {operationID : UUID} {workerID : String} :
    BatchRuns (finalizeBatchChunk operationID workerID) (fun _ c' => ItemsAt c' []) c := by
  unfold finalizeBatchChunk
  refine h.bind (countItems_writes offItems_none) fun items c₁ h₁ => ?_
  refine h₁.bind check_writes fun _ c₂ h₂ => ?_
  refine h₂.bind updateBatch_offItems fun _ c₃ h₃ => ?_
  exact h₃.publish (fun _ _ he => by cases he) fun _ => id

theorem processNextBatch_keeps (h : ItemsAt c []) {r : BatchRun} :
    BatchRuns (processNextBatch r) (fun _ _ => True) c := by
  unfold processNextBatch
  split
  · trivial
  · refine wp_bind.2 (wp_mono (fun claimed c₁ h₁ => ?_) (fun _ _ => id) (claimBatch_keeps h))
    split
    · trivial
    · refine h₁.bind getBatch_offItems fun operation c₂ h₂ => ?_
      refine h₂.bind (select_writes offItems_none) fun items c₃ h₃ => wp_bind.2 ?_
      refine wp_mono (fun done c₄ h₄ => ?_) (fun _ _ => id) (processItems_keeps items 0 h₃)
      split
      · trivial
      · exact wp_bind.2 (wp_mono (fun _ _ _ => trivial) (fun _ _ => id) (finalizeBatchChunk_keeps h₄))

/-! ## Transitions -/

theorem batchTransition_keeps (h : ItemsAt c []) {id : UUID} {next : BatchStatus}
    {allowed : List BatchStatus} :
    BatchRuns (batchTransition id next allowed) (fun _ _ => True) c := by
  unfold batchTransition
  refine h.bind updateBatch_offItems fun _ c₁ h₁ => h₁.bind check_writes fun _ c₂ h₂ => ?_
  refine h₂.publish_bind (fun _ _ he => by cases he) fun c₃ h₃ => ?_
  exact wp_mono (fun _ _ _ => trivial) (fun _ _ h => h) (h₃.program getBatch_offItems)

theorem retryBatch_keeps (h : ItemsAt c []) {id : UUID} :
    BatchRuns (retryBatch id) (fun _ _ => True) c := by
  unfold retryBatch
  refine h.bind updateBatch_offItems fun _ c₁ h₁ => h₁.bind check_writes fun _ c₂ h₂ => ?_
  refine h₂.bind (select_writes offItems_none) fun ids c₃ h₃ => wp_bind.2 ?_
  refine wp_mono ?_ (fun _ _ h => h) (updateItems_keeps ?_ ids h₃)
  · rintro _ c₄ ⟨I', h₄⟩
    refine h₄.publish_bind (fun _ _ he => by cases he) fun c₅ h₅ => ?_
    exact wp_mono (fun _ _ _ => trivial) (fun _ _ h => h) (h₅.program getBatch_offItems)
  · intro i hp
    simp only [Bool.and_eq_true, decide_eq_true_eq] at hp
    rw [hp.2]; decide

/-- **Every call keeps to the discipline of the items.** -/
theorem BatchCall.keeps (b : BatchCall) (h : ItemsAt c []) :
    BatchRuns b.call (fun _ _ => True) c := by
  cases b with
  | processNextBatch r => exact wp_map.2 (processNextBatch_keeps h)
  | pauseBatch id => exact wp_map.2 (batchTransition_keeps h)
  | resumeBatch id => exact wp_map.2 (batchTransition_keeps h)
  | cancelBatch id => exact wp_map.2 (batchTransition_keeps h)
  | retryBatch id => exact wp_map.2 (retryBatch_keeps h)

/-! ## Runs -/

/-- **Batch items take effect at most once**, in a run whose failures are recorded on items that have
not succeeded.  Among all commits there is at most one effect of each item, and an item whose effect
has committed has status `succeeded`. -/
theorem batch_items_once {ι : Type} [DecidableEq ι] {calls : ι → BatchCall} {db : DB}
    {s : Running ι} (hu : UniqueBy BatchItem.id db.batchItems)
    (h : ReachableIf (fun i => (calls i).call) failsOnlyUnfinished (Running.over ι db) s) (id : Nat) :
    (effectsOf id (s.log.map (·.2))).length ≤ 1 ∧
      ∀ i ∈ s.db.batchItems, i.id = id → effectsOf id (s.log.map (·.2)) ≠ [] →
        i.status = .succeeded := by
  have hs : Sound batchDiscipline (fun i => (calls i).call) (fun _ _ _ => True)
      (fun _ _ _ => True) db s := by
    refine Sound.of_reachable (fun i db' hi => ?_) hu h
    exact wp_mono (fun _ _ h => h) (fun _ _ _ => trivial) ((calls i).keeps (.start hi))
  obtain ⟨hle, hst⟩ := Commits.effects hs.commits id
  refine ⟨hle, fun i hi hid hne => ?_⟩
  obtain ⟨i', hi', hid', hst'⟩ := hst hne
  have hu' : UniqueBy BatchItem.id s.db.batchItems := hs.inv
  rw [hu'.eq hi hi' (hid.trans hid'.symm)]
  exact hst'

/-- The shop with a batch that adds a tag to its account. -/
def tagBatch : DB :=
  { shop [] with
    config := { (shop []).config with tags := [idOf '6'] }
    batchOperations := [{ id := idOf '7', operationType := .tagAdd, status := .pending
                          payload := { tagId := some (idOf '6'), planId := none, durationDays := 0
                                       title := "", body := "", channel := "", eventKey := "" }
                          totalCount := 1, processedCount := 0, succeededCount := 0, failedCount := 0
                          attempts := 0, leaseOwner := none, leaseExpiresAt := none, createdAt := 0 }]
    batchItems := [{ id := 1, operationId := idOf '7', accountId := idOf '1', status := .pending
                     attempts := 0 }] }

/-- A worker's run at the time `now`, with leases of 90 seconds. -/
def batchRun (workerID : String) (now : Time) : BatchRun where
  pick := some (idOf '7')
  workerID := workerID
  now := now
  leaseUntil := fun _ => now + 90000000000
  fresh := fun _ => freshOf '0' '0' '0' '0' '0' '0' now
  failRecorded := fun _ => true

def oneWorker : Fin 1 → BatchCall := fun _ => .processNextBatch (batchRun "worker-1" 0)

theorem batch_items_once_oneWorker :
    ∃ s, ReachableIf (fun i => (oneWorker i).call) failsOnlyUnfinished
        (Running.over (Fin 1) tagBatch) s ∧
      s.db.batchItems.map (·.status) = [.succeeded] ∧
      (effectsOf 1 (s.log.map (·.2))).length ≤ 1 := by
  obtain ⟨s, hs, hf⟩ := replay_any [0] (by decide) (fun i => (oneWorker i).call)
    failsOnlyUnfinished (List.replicate 25 0) (Running.over (Fin 1) tagBatch)
    (fun s => decide (s.db.batchItems.map (·.status) = [.succeeded])) (by decide +kernel)
  exact ⟨s, hs, of_decide_eq_true hf, (batch_items_once uniqueBy_singleton hs 1).1⟩

/-- A worker lists the pending item; its lease runs out, and a second worker claims the batch and
processes the item.  The batch is then retried. -/
def staleWorker : Fin 4 → BatchCall
  | 0 => .processNextBatch (batchRun "worker-1" 0)
  | 1 => .processNextBatch (batchRun "worker-2" 100000000000)
  | 2 => .retryBatch (idOf '7')
  | 3 => .processNextBatch (batchRun "worker-3" 200000000000)

def staleWorkerSchedule : List (Fin 4) :=
  List.replicate 9 0 ++ List.replicate 17 1 ++ List.replicate 12 0

/-- **The stale worker marks the item failed**, although its effect is committed; after a retry the
effect is committed again. -/
theorem staleWorker_repeats :
    (∃ s, Reachable (fun i => (staleWorker i).call) (Running.over (Fin 4) tagBatch) s ∧
      (effectsOf 1 (s.log.map (·.2))).length = 1 ∧
        s.db.batchItems.map (·.status) = [.failed]) ∧
    ∃ s, Reachable (fun i => (staleWorker i).call) (Running.over (Fin 4) tagBatch) s ∧
      (effectsOf 1 (s.log.map (·.2))).length = 2 := by
  constructor
  · obtain ⟨s, hs, hf⟩ := replay_any [0, 1, 2, 3] (by decide) (fun i => (staleWorker i).call)
      (fun _ _ => True) staleWorkerSchedule (Running.over (Fin 4) tagBatch)
      (fun s => decide ((effectsOf 1 (s.log.map (·.2))).length = 1 ∧
        s.db.batchItems.map (·.status) = [.failed])) (by decide +kernel)
    exact ⟨s, hs, of_decide_eq_true hf⟩
  · obtain ⟨s, hs, hf⟩ := replay_any [0, 1, 2, 3] (by decide) (fun i => (staleWorker i).call)
      (fun _ _ => True) (staleWorkerSchedule ++ List.replicate 8 1 ++ List.replicate 9 2 ++
        List.replicate 25 3) (Running.over (Fin 4) tagBatch)
      (fun s => decide ((effectsOf 1 (s.log.map (·.2))).length = 2)) (by decide +kernel)
    exact ⟨s, hs, of_decide_eq_true hf⟩

end Sakura
