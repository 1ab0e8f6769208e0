/-
  The counters of a batch at rest.

  * `Agrees`: the counters and the status of a batch are those of its items;
  * `counterGate`: the commits after which they stay so; `counting`: the discipline of the calls;
  * `finalizeBatchChunk_counts`: what a finished chunk writes agrees with the items;
  * `counters_hold`: in the runs behind the gate the counters of a batch without a lease are right;
    `stale_counters`: a run after which they are not.
-/
import Sakura.Barrier

namespace Sakura

open Txn

/-! ## Agreement -/

def itemsOf (b : UUID) (db : DB) : List BatchItem := db.batchItems.filter (·.operationId = b)

def tally (status : ItemStatus) (items : List BatchItem) : Nat :=
  (items.filter (·.status = status)).length

/-- The counters are those of the items. -/
structure Tallied (o : BatchOperation) (items : List BatchItem) : Prop where
  processed : o.processedCount = o.succeededCount + o.failedCount
  total : o.processedCount ≤ o.totalCount
  succeeded : o.succeededCount = tally .succeeded items
  failed : o.failedCount = tally .failed items

/-- The counters are those of the items, and so is a final status. -/
structure Agrees (o : BatchOperation) (items : List BatchItem) : Prop extends Tallied o items where
  allSucceeded : o.status = .succeeded → ∀ i ∈ items, i.status = .succeeded
  someFailed : o.status = .failed → (∀ i ∈ items, i.status ≠ .pending) ∧ ∃ i ∈ items, i.status = .failed

instance (o : BatchOperation) (items : List BatchItem) : Decidable (Tallied o items) :=
  decidable_of_iff (o.processedCount = o.succeededCount + o.failedCount ∧
    o.processedCount ≤ o.totalCount ∧ o.succeededCount = tally .succeeded items ∧
    o.failedCount = tally .failed items)
    ⟨fun ⟨h₁, h₂, h₃, h₄⟩ => ⟨h₁, h₂, h₃, h₄⟩, fun h => ⟨h.1, h.2, h.3, h.4⟩⟩

/-! ## The gate -/

def BatchCall.works (b : UUID) : BatchCall → Bool
  | .processNextBatch r => r.pick = some b
  | _ => false

def BatchCall.retries (b : UUID) : BatchCall → Bool
  | .retryBatch id => id = b
  | _ => false

/-- The outcome of an item: its effect, or the record of its failure. -/
def Event.outcome : Event → Bool
  | .batchItem _ _ | .itemFailed _ => true
  | _ => false

/-- A stop commits where the counters of the batch are right, and a retry not at all; the outcome of an
item commits while the batch has a lease owner, and while no other call has counted the items in its
open transaction. -/
def counterGate (b : UUID) (call : BatchCall) : Gate DB Lock Event where
  locks e := if call.works b && e.outcome then [exclusive (.counted b)] else []
  ok e db := call.retries b = false ∧
    ∀ o ∈ db.batchOperations, o.id = b → (call.stops b → Tallied o (itemsOf b db)) ∧
      (call.works b && e.outcome → o.leaseOwner ≠ none)

/-! ## The discipline -/

def Settled (s : ItemStatus) : Prop := s = .pending ∨ s = .succeeded ∨ s = .failed

/-- `owner` is the batch of each item, and `members` are the items of the batch. -/
structure CountersInv (owner : Nat → Option UUID) (members : List Nat) (b : UUID) (db : DB) : Prop
    extends BarrierInv owner b db where
  settled : ∀ i ∈ itemsOf b db, Settled i.status
  member : ∀ i ∈ itemsOf b db, i.id ∈ members
  total : ∀ o ∈ db.batchOperations, o.id = b → members.length ≤ o.totalCount
  rests : ∀ o ∈ db.batchOperations, o.id = b → o.leaseOwner = none → Agrees o (itemsOf b db)

/-- A lease is one of a running batch. -/
def leases (b : UUID) (o o' : BatchOperation) : Prop :=
  sameBatch o o' ∧ (o.id = b → o'.leaseOwner ≠ none → o'.status = .running)

/-- A commit that writes the versions `I` and `J`. -/
structure CountersStep (b : UUID) (L : Held Lock) (db : DB) (I : List BatchOperation)
    (J : List BatchItem) : Prop where
  batches : BatchVersions (leases b) L db I
  items : RowVersions L db J
  agrees : ∀ o ∈ I, o.id = b → o.leaseOwner = none → Agrees o (itemsOf b db)
  outcome : ∀ j ∈ J, j.operationId = b → Settled j.status ∧ Holds L (.counted b) ∧
    (∀ o ∈ I, o.id ≠ b) ∧ ∀ o ∈ db.batchOperations, o.id = b → o.leaseOwner ≠ none

variable {owner : Nat → Option UUID} {members : List Nat} {b : UUID} {call : BatchCall}

/-- Versions of other items leave those of the batch. -/
theorem itemsOf_overlay {L : Held Lock} {db db' : DB} {J : List BatchItem}
    (hJ : db'.batchItems = overlay BatchItem.id db.batchItems J) (hv : RowVersions L db J)
    (hu : UniqueBy BatchItem.id db.batchItems) (hother : ∀ j ∈ J, j.operationId ≠ b) :
    itemsOf b db' = itemsOf b db := by
  rw [itemsOf, hJ]
  refine filter_overlay (fun j hj => by simpa using hother j hj) fun i hi hib j hj e => ?_
  rcases hv.version j hj with ⟨i₀, h₀, e₀, hk, -⟩ | ⟨-, hf⟩
  · rw [hu.eq h₀ hi (e₀.trans e)] at hk
    exact hother j hj (hk.trans (by simpa using hib))
  · exact hf.elim

/-- An item of the batch is a version, or was one of its items. -/
theorem mem_itemsOf_overlay {db db' : DB} {J : List BatchItem} {i : BatchItem}
    (hJ : db'.batchItems = overlay BatchItem.id db.batchItems J) (hi : i ∈ itemsOf b db') :
    i.operationId = b ∧ (i ∈ itemsOf b db ∨ i ∈ J) := by
  obtain ⟨hi, hb⟩ := List.mem_filter.1 hi
  rw [hJ] at hi
  refine ⟨by simpa using hb, ?_⟩
  rcases mem_overlay.1 hi with ⟨hi, -⟩ | hi
  · exact Or.inl (List.mem_filter.2 ⟨hi, hb⟩)
  · exact Or.inr hi

theorem CountersStep.inv {L : Held Lock} {db db' : DB} {I : List BatchOperation} {J : List BatchItem}
    (hdb : CountersInv owner members b db)
    (hI : db'.batchOperations = overlay BatchOperation.id db.batchOperations I)
    (hJ : db'.batchItems = overlay BatchItem.id db.batchItems J) (h : CountersStep b L db I J) :
    CountersInv owner members b db' where
  batchIds := hI ▸ h.batches.uniqueBy hdb.batchIds
  itemIds := hJ ▸ h.items.uniqueBy hdb.itemIds
  owned i hi := by
    rw [hJ] at hi
    rcases mem_overlay.1 hi with ⟨hi, -⟩ | hi
    · exact hdb.owned i hi
    · rcases h.items.version i hi with ⟨i₀, h₀, e₀, hk, -⟩ | ⟨-, hf⟩
      · rw [← e₀, hk, hdb.owned i₀ h₀]
      · exact hf.elim
  leased o ho hid := by
    rw [hI] at ho
    rcases mem_overlay.1 ho with ⟨ho, -⟩ | ho
    · exact hdb.leased o ho hid
    · rcases h.batches.version o ho with ⟨o₀, -, e₀, hk, -⟩ | ⟨-, hf⟩
      · exact hk.2 (e₀.trans hid)
      · exact hf.elim
  settled i hi := by
    obtain ⟨hb, hi | hi⟩ := mem_itemsOf_overlay hJ hi
    · exact hdb.settled i hi
    · exact (h.outcome i hi hb).1
  member i hi := by
    obtain ⟨hb, hi | hi⟩ := mem_itemsOf_overlay hJ hi
    · exact hdb.member i hi
    · rcases h.items.version i hi with ⟨i₀, h₀, e₀, hk, -⟩ | ⟨-, hf⟩
      · exact e₀ ▸ hdb.member i₀ (List.mem_filter.2 ⟨h₀, decide_eq_true (hk.symm.trans hb)⟩)
      · exact hf.elim
  total o ho hid := by
    rw [hI] at ho
    rcases mem_overlay.1 ho with ⟨ho, -⟩ | ho
    · exact hdb.total o ho hid
    · rcases h.batches.version o ho with ⟨o₀, h₀, e₀, hk, -⟩ | ⟨-, hf⟩
      · exact hk.1 ▸ hdb.total o₀ h₀ (e₀.trans hid)
      · exact hf.elim
  rests o ho hid hlease := by
    rw [hI] at ho
    rcases mem_overlay.1 ho with ⟨ho, -⟩ | ho
    · have hother : ∀ j ∈ J, j.operationId ≠ b := fun j hj hjb =>
        (h.outcome j hj hjb).2.2.2 o ho hid hlease
      rw [itemsOf_overlay hJ h.items hdb.itemIds hother]
      exact hdb.rests o ho hid hlease
    · have hother : ∀ j ∈ J, j.operationId ≠ b := fun j hj hjb =>
        (h.outcome j hj hjb).2.2.1 o ho hid
      rw [itemsOf_overlay hJ h.items hdb.itemIds hother]
      exact h.agrees o ho hid hlease

/-- **What the calls keep to.** -/
def counting (owner : Nat → Option UUID) (members : List Nat) (b : UUID) :
    Discipline Site DB Lock Event where
  inv := CountersInv owner members b
  step L db _ db' := ∃ I J, db'.batchOperations = overlay BatchOperation.id db.batchOperations I ∧
    db'.batchItems = overlay BatchItem.id db.batchItems J ∧ CountersStep b L db I J
  allowed _ _ := True
  step_inv := by
    rintro L db e db' hdb ⟨I, J, hI, hJ, h⟩
    exact h.inv hdb hI hJ

theorem counting_rowLocked : RowLocked (counting owner members b) where
  batchIds h := h.batchIds
  itemIds h := h.itemIds
  step := by
    rintro L db e db' ⟨I, J, hI, hJ, h⟩
    exact ⟨I, J, hI, hJ, h.batches.weaken fun _ _ hk => hk.1, h.items⟩

/-! ## Commits -/

variable {α : Type} {I : List BatchOperation} {J : List BatchItem} {K : Held Lock → DB → Prop}
  {c : Ctx DB Lock Event}

/-- A call of the platform behind the gate. -/
abbrev Counting (owner : Nat → Option UUID) (members : List Nat) (b : UUID) (call : BatchCall)
    (p : Call α) (Q : α → Ctx DB Lock Event → Prop) (c : Ctx DB Lock Event) : Prop :=
  Passes (counting owner members b) (counterGate b call) (fun e => e) p Q c

/-- A transaction of a call. -/
abbrev CountersTx (owner : Nat → Option UUID) (members : List Nat) (b : UUID)
    (I : List BatchOperation) (J : List BatchItem) (K : Held Lock → DB → Prop)
    (c : Ctx DB Lock Event) : Prop :=
  BatchTx (counting owner members b) (leases b) I J K c

/-- A transaction that has written nothing. -/
abbrev Unwritten (owner : Nat → Option UUID) (members : List Nat) (b : UUID)
    (c : Ctx DB Lock Event) : Prop :=
  ∀ R, BatchTx (counting owner members b) R [] [] (fun _ _ => True) c

/-- A commit that writes no item of the batch. -/
theorem batch_commits (h : CountersTx owner members b I J K c) {e : Event}
    {Q : Unit → Ctx DB Lock Event → Prop}
    (hJ : call.retries b = false → ∀ j ∈ J, j.operationId ≠ b)
    (hagrees : ∀ L db, CountersInv owner members b db → K L db → BatchVersions (leases b) L db I →
      (counterGate b call).ok e db → ∀ o ∈ I, o.id = b → o.leaseOwner = none →
      Agrees o (itemsOf b db))
    (hQ : ∀ c', Unwritten owner members b c' → Q () c') :
    Counting owner members b call (.publish e) Q c := by
  refine h.publish counting_rowLocked (fun c' h' hok => ⟨I, J, h'.view.1, h'.view.2, ?_⟩) hQ
  have hsub : c'.held ⊆ c'.held ++ (counterGate b call).locks e := List.subset_append_left _ _
  exact ⟨h'.batches.mono (fun _ h => h) fun _ => Holds.mono hsub,
    h'.items.mono (fun _ h => h) fun _ => Holds.mono hsub,
    hagrees _ _ h'.inv h'.known h'.batches hok,
    fun j hj hb => (hJ hok.1 j hj hb).elim⟩

/-- The commit of an outcome. -/
theorem outcome_commits (h : CountersTx owner members b [] J K c) {e : Event}
    {Q : Unit → Ctx DB Lock Event → Prop} {item : Nat} {id : UUID} (he : e.outcome)
    (howner : owner item = some id) (hworks : id = b → call.works b)
    (hJ : ∀ j ∈ J, j.id = item ∧ Settled j.status)
    (hQ : ∀ c', Unwritten owner members b c' → Q () c') :
    Counting owner members b call (.publish e) Q c := by
  refine h.publish counting_rowLocked (fun c' h' hok => ⟨[], J, h'.view.1, h'.view.2, ?_⟩) hQ
  have hsub : c'.held ⊆ c'.held ++ (counterGate b call).locks e := List.subset_append_left _ _
  refine ⟨.nil, h'.items.mono (fun _ h => h) fun _ => Holds.mono hsub,
    fun o ho => absurd ho List.not_mem_nil, fun j hj hb => ?_⟩
  have hwork : call.works b := by
    rcases h'.items.version j hj with ⟨i₀, h₀, e₀, hk, -⟩ | ⟨-, hf⟩
    · have howned := h'.inv.owned i₀ h₀
      rw [e₀, (hJ j hj).1, howner, ← hk, hb] at howned
      exact hworks (Option.some.inj howned)
    · exact hf.elim
  refine ⟨(hJ j hj).2, ?_, fun o ho => absurd ho List.not_mem_nil, fun o ho hid => ?_⟩
  · refine List.mem_append_right _ ?_
    simp [counterGate, hwork, he, exclusive]
  · exact (hok.2 o ho hid).2 (by rw [hwork, he]; rfl)

/-! ## Workers -/

theorem running_itemIds {db : DB} (h : CountersInv owner members b db) :
    itemIds db b .running = [] := by
  refine List.map_eq_nil_iff.2 (List.filter_eq_nil_iff.2 fun i hi hr => ?_)
  simp only [Bool.and_eq_true, decide_eq_true_eq] at hr
  have hs := h.settled i (List.mem_filter.2 ⟨hi, decide_eq_true hr.1⟩)
  rw [hr.2] at hs
  rcases hs with e | e | e <;> cases e

theorem claimBatch_counts {r : BatchRun} {id : UUID} (h : Unwritten owner members b c) :
    Counting owner members b call (claimBatch r id) (fun _ => Unwritten owner members b) c := by
  unfold claimBatch
  have hreset : ∀ {I K} {c : Ctx DB Lock Event}, (∀ o ∈ I, o.leaseOwner ≠ none) →
      CountersTx owner members b I [] K c → Counting owner members b call (do
        updateItems (fun i => i.operationId = id && i.status = .running)
          (fun i => { i with status := .pending }) (← select fun v => itemIds v id .running)
        .publish (.batchState id)
        pure true) (fun _ => Unwritten owner members b) c := by
    intro I K c hI h
    have hcommit : ∀ c' J, CountersTx owner members b I J K c' → (∀ j ∈ J, j.operationId ≠ b) →
        Counting owner members b call (do .publish (.batchState id); pure true)
          (fun _ => Unwritten owner members b) c' := fun c' J h' hJ =>
      wpAt_bind.2 (batch_commits h' (fun _ => hJ) (fun _ _ _ _ _ _ o ho _ hn => (hI o ho hn).elim)
        fun _ h'' => h'')
    refine wpAt_bind.2 (h.selects counting_rowLocked fun c₁ h₁ => wpAt_bind.2 ?_)
    by_cases hb : id = b
    · -- no item of the batch is running in committed data
      have hids : itemIds c₁.view id .running = [] := by
        have hview : c₁.view.batchItems = c₁.db.batchItems := by rw [h₁.view.2, overlay_nil]
        rw [itemIds, hview, hb]
        exact running_itemIds h₁.inv
      rw [hids]
      exact hcommit _ _ h₁ fun j hj => absurd hj List.not_mem_nil
    · refine BatchTx.updateItems (P := fun i => i.operationId ≠ b) counting_rowLocked
        (by exact fun _ => rfl) (fun i hp => ?_) (fun c' J h' hJ => ?_) _ h₁
        fun j hj => absurd hj List.not_mem_nil
      · simp only [Bool.and_eq_true, decide_eq_true_eq] at hp
        exact fun hi => hb (hp.1.symm.trans hi)
      · exact hcommit c' J h' hJ
  refine wpAt_bind.2 ((h (leases b)).lockBatch counting_rowLocked
    (fun c₁ h₁ => h₁.blank) fun c₁ o h₁ _ => ?_)
  refine wpAt_bind.2 (h₁.updateBatch counting_rowLocked
    (fun L db hi hk o' ho' hid' _ => ⟨rfl, fun _ _ => rfl⟩)
    (fun c₂ h₂ => hreset (fun o ho => absurd ho List.not_mem_nil) h₂)
    fun c₂ o' h₂ _ _ _ => hreset (fun o ho => ?_) h₂)
  rw [List.mem_singleton.1 ho]
  exact Option.some_ne_none _

theorem processBatchItem_counts {fresh : Fresh} {operation : BatchOperation} {item : Nat}
    {account : UUID} {workerID : String} (howner : owner item = some operation.id)
    (hworks : operation.id = b → call.works b) (h : Unwritten owner members b c) :
    Counting owner members b call (processBatchItem fresh operation item account workerID)
      (fun _ => Unwritten owner members b) c := by
  unfold processBatchItem
  refine wpAt_bind.2 ((h (leases b)).updateItem counting_rowLocked (fun _ => rfl)
    (fun c₁ h₁ _ => wpAt_bind.2 (h₁.check fun hc => absurd hc (by decide))) fun c₁ i h₁ _ _ =>
      wpAt_bind.2 (h₁.check fun _ => wpAt_bind.2 ?_))
  refine h₁.quiet counting_rowLocked (itemEffect_writes offBatches_none (fun _ => ⟨rfl, rfl⟩)
    (fun _ => ⟨rfl, rfl⟩) fun _ => ⟨rfl, rfl⟩) fun granted c₂ h₂ => wpAt_bind.2 ?_
  rw [put_nil] at h₂
  refine h₂.updateItem counting_rowLocked (fun _ => rfl) (fun c₃ h₃ hno => ?_)
    fun c₃ i' h₃ _ _ => ?_
  · exact absurd rfl (hno _ (List.mem_singleton_self _) rfl)
  · refine outcome_commits h₃ rfl howner hworks (fun j hj => ?_) fun _ h₄ => h₄
    rcases mem_put.1 hj with ⟨hj, hne⟩ | rfl
    · rw [List.mem_singleton.1 hj] at hne
      exact absurd rfl hne
    · exact ⟨rfl, Or.inr (Or.inl rfl)⟩

theorem failItem_counts {item : Nat} {id : UUID} (howner : owner item = some id)
    (hworks : id = b → call.works b) (h : Unwritten owner members b c) :
    Counting owner members b call (failItem item) (fun _ => Unwritten owner members b) c := by
  refine wpAt_bind.2 ((h (leases b)).updateItem counting_rowLocked (fun _ => rfl)
    (fun c₁ h₁ _ => ?_) fun c₁ i h₁ _ _ => ?_)
  · exact outcome_commits h₁ rfl howner hworks (fun j hj => absurd hj List.not_mem_nil)
      fun _ h₂ => h₂
  · rw [put_nil] at h₁
    refine outcome_commits h₁ rfl howner hworks (fun j hj => ?_) fun _ h₂ => h₂
    rw [List.mem_singleton.1 hj]
    exact ⟨rfl, Or.inr (Or.inr rfl)⟩

theorem renewBatch_counts {r : BatchRun} {id : UUID} {n : Nat} (h : Unwritten owner members b c) :
    Counting owner members b call (renewBatch r id n) (fun _ => Unwritten owner members b) c := by
  refine wpAt_bind.2 ((h (leases b)).updateBatch counting_rowLocked (fun L db _ _ o _ _ hp => ?_)
    (fun c₁ h₁ => ?_) fun c₁ o h₁ _ _ hp => ?_)
  · simp only [Bool.and_eq_true, decide_eq_true_eq] at hp
    exact ⟨rfl, fun _ _ => hp.2⟩
  · exact batch_commits h₁ (fun _ j hj => absurd hj List.not_mem_nil)
      (fun _ _ _ _ _ _ o ho => absurd ho List.not_mem_nil) fun _ h₂ => h₂
  · refine batch_commits h₁ (fun _ j hj => absurd hj List.not_mem_nil)
      (fun _ _ _ _ _ _ o' ho _ hn => ?_) fun _ h₂ => h₂
    rw [List.mem_singleton.1 ho] at hn
    simp only [Bool.and_eq_true, decide_eq_true_eq] at hp
    exact absurd (hp.1.symm.trans hn) (Option.some_ne_none _)

/-- The loop over the items of a chunk, one item after the other. -/
theorem processItems_counts {r : BatchRun} {operation : BatchOperation}
    (hworks : operation.id = b → call.works b) :
    ∀ (items : List BatchItem) (n : Nat) {c : Ctx DB Lock Event},
      (∀ item ∈ items, owner item.id = some operation.id) → Unwritten owner members b c →
      Counting owner members b call (processItems r operation n items)
        (fun _ => Unwritten owner members b) c
  | [], _, _, _, h => h
  | item :: items, n, c, howner, h => by
    have hnext : ∀ {c}, Unwritten owner members b c → Counting owner members b call (do
        renewBatch r operation.id n
        processItems r operation (n + 1) items) (fun _ => Unwritten owner members b) c := fun h₁ =>
      wpAt_bind.2 (wpAt_mono (fun _ _ h₂ => processItems_counts hworks items (n + 1)
        (fun i hi => howner i (List.mem_cons_of_mem _ hi)) h₂) (fun _ _ h => h)
        (renewBatch_counts h₁))
    have hitem := howner item List.mem_cons_self
    unfold processItems
    refine wpAt_bind.2 ((h (leases b)).quiet counting_rowLocked (checkBatch_writes offBatches_none)
      fun status c₁ h₁ => ?_)
    split
    · exact h₁.blank
    · refine wpAt_bind.2 (attempt_passes ?_ fun x c₂ h₂ => ?_)
      · refine wpAt_mono (fun _ c₂ h₂ => ?_) (fun _ _ h => h)
          (processBatchItem_counts hitem hworks h₁.blank)
        exact wpAt_bind.2 (hnext h₂)
      · refine wpAt_bind.2 ?_
        simp only [recordOutcome]
        split
        · exact wpAt_mono (fun _ _ h₃ => hnext h₃) (fun _ _ h => h)
            (failItem_counts hitem hworks h₂)
        · exact hnext h₂

/-! ## The end of a chunk -/

/-- The transaction has counted the items, and they are still those of the batch. -/
def Counted (b id : UUID) (items : List BatchItem) (L : Held Lock) (db : DB) : Prop :=
  id = b → (Lock.counted b, Mode.share) ∈ L ∧ itemsOf b db = items

theorem keeps_counted {id : UUID} {items : List BatchItem} :
    (counting owner members b).Keeps (Counted b id items) where
  mono hLM h hid := ⟨hLM (h hid).1, (h hid).2⟩
  step := by
    rintro L M db e db' hi hc ⟨I, J, -, hJ, hs⟩ h hid
    refine ⟨(h hid).1, ?_⟩
    rw [← (h hid).2]
    exact itemsOf_overlay hJ hs.items hi.itemIds fun j hj hb =>
      hc.symm.not_mem (hs.outcome j hj hb).2.1 (h hid).1

theorem tally_add_le (items : List BatchItem) :
    tally .succeeded items + tally .failed items ≤ items.length := by
  simp only [tally]
  induction items with
  | nil => simp
  | cons i items ih =>
    cases hst : i.status <;> simp [hst] <;> omega

theorem tally_eq_zero {status : ItemStatus} {items : List BatchItem} :
    tally status items = 0 ↔ ∀ i ∈ items, i.status ≠ status := by
  simp [tally]

/-- What is written at the end of a chunk agrees with the items that were counted. -/
theorem agrees_counted {o : BatchOperation} {items : List BatchItem}
    (hset : ∀ i ∈ items, Settled i.status) (hlen : items.length ≤ o.totalCount)
    (hstatus : o.status = if tally .pending items ≠ 0 then .pending
      else if 0 < tally .failed items then .failed else .succeeded)
    (hp : o.processedCount = tally .succeeded items + tally .failed items)
    (hs : o.succeededCount = tally .succeeded items) (hf : o.failedCount = tally .failed items) :
    Agrees o items where
  processed := by rw [hp, hs, hf]
  total := by
    rw [hp]
    exact (tally_add_le items).trans hlen
  succeeded := hs
  failed := hf
  allSucceeded h i hi := by
    rw [hstatus] at h
    split_ifs at h with hpend hfail
    have hpend' := tally_eq_zero.1 (not_not.1 hpend) i hi
    have hfail' := tally_eq_zero.1 (Nat.eq_zero_of_not_pos hfail) i hi
    exact ((hset i hi).resolve_left hpend').resolve_right hfail'
  someFailed h := by
    rw [hstatus] at h
    split_ifs at h with hpend hfail
    refine ⟨tally_eq_zero.1 (not_not.1 hpend), ?_⟩
    by_contra hno
    exact hfail.ne' (tally_eq_zero.2 fun i hi e => hno ⟨i, hi, e⟩)

/-- There are no more items than the batch counts in all. -/
theorem CountersInv.length_le {db : DB} (h : CountersInv owner members b db) {o : BatchOperation}
    (ho : o ∈ db.batchOperations) (hid : o.id = b) : (itemsOf b db).length ≤ o.totalCount := by
  have hnodup : ((itemsOf b db).map BatchItem.id).Nodup := (List.filter_sublist.map _).nodup h.itemIds
  have hsub : (itemsOf b db).map BatchItem.id ⊆ members := fun k hk => by
    obtain ⟨i, hi, rfl⟩ := List.mem_map.1 hk
    exact h.member i hi
  have hle := (List.subperm_of_subset hnodup hsub).length_le
  rw [List.length_map] at hle
  exact hle.trans (h.total o ho hid)

theorem countItems_counts {id : UUID} (h : Unwritten owner members b c)
    {Q : List BatchItem → Ctx DB Lock Event → Prop}
    (hQ : ∀ c' items, CountersTx owner members b [] [] (Counted b id items) c' → Q items c') :
    Counting owner members b call (countItems id) Q c := by
  refine wpAt_exec.2 fun c₁ hw _ => ?_
  have h₁ := (h (leases b)).waits counting_rowLocked hw
  refine hQ _ _ ((h₁.lock.learn keeps_counted fun hid => ⟨?_, ?_⟩).forget keeps_counted
    fun hk => hk.2)
  · rw [hid]
    exact List.mem_append_right _ (List.mem_singleton_self _)
  · rw [h₁.view.2, overlay_nil, hid]
    rfl

theorem finalizeBatchChunk_counts {id : UUID} {workerID : String}
    (h : Unwritten owner members b c) :
    Counting owner members b call (finalizeBatchChunk id workerID)
      (fun _ => Unwritten owner members b) c := by
  unfold finalizeBatchChunk
  refine wpAt_bind.2 (countItems_counts h fun c₁ items h₁ => wpAt_bind.2 (h₁.check fun _ =>
    wpAt_bind.2 ?_))
  refine h₁.updateBatch counting_rowLocked (fun L db _ _ o _ _ _ => ⟨rfl, fun _ hn => absurd rfl hn⟩)
    (fun c₂ h₂ => ?_) fun c₂ o h₂ _ hid _ => ?_
  · exact batch_commits h₂ (fun _ j hj => absurd hj List.not_mem_nil)
      (fun _ _ _ _ _ _ o ho => absurd ho List.not_mem_nil) fun _ h₃ => h₃
  · refine batch_commits h₂ (fun _ j hj => absurd hj List.not_mem_nil)
      (fun L db hi hk hv _ o' ho' hb _ => ?_) fun _ h₃ => h₃
    rcases hv.version o' ho' with ⟨o₀, h₀, e₀, hkeep, -⟩ | ⟨-, hf⟩
    · have hlen := hi.length_le h₀ (e₀.trans hb)
      rw [← hkeep.1] at hlen
      cases List.mem_singleton.1 ho'
      have hcount := (hk hb).2
      rw [hcount] at hlen ⊢
      exact agrees_counted (fun i hmem => hi.settled i (hcount ▸ hmem)) hlen rfl rfl rfl rfl
    · exact hf.elim

theorem processNextBatch_counts {r : BatchRun} (hworks : ∀ id, r.pick = some id → id = b → call.works b)
    (h : Unwritten owner members b c) :
    Counting owner members b call (processNextBatch r) (fun _ _ => True) c := by
  unfold processNextBatch
  split
  · trivial
  · next id hpick =>
    refine wpAt_bind.2 (wpAt_mono (fun claimed c₁ h₁ => ?_) (fun _ _ h => h) (claimBatch_counts h))
    split
    · trivial
    · refine wpAt_bind.2 ((h₁ (leases b)).getBatch counting_rowLocked
        fun c₂ operation h₂ hid => wpAt_bind.2 ?_)
      refine h₂.selects counting_rowLocked fun c₃ h₃ => wpAt_bind.2 ?_
      refine wpAt_mono (fun done c₄ h₄ => ?_) (fun _ _ h => h)
        (processItems_counts (fun hb => hworks id hpick (hid.symm.trans hb)) _ 0 (fun i hi => ?_)
          h₃.blank)
      · split
        · trivial
        · exact wpAt_bind.2 (wpAt_mono (fun _ _ _ => trivial) (fun _ _ h => h)
            (finalizeBatchChunk_counts h₄))
      · obtain ⟨hmem, hop⟩ := mem_pendingItems hi
        rw [h₃.view.2, overlay_nil] at hmem
        rw [h₃.inv.owned i hmem, hop, hid]

/-! ## Transitions -/

/-- A batch that is stopped or resumed keeps its counters. -/
theorem Tallied.agrees {o : BatchOperation} {items : List BatchItem} (h : Tallied o items)
    {id : UUID} {next : BatchStatus} (hs : next ≠ .succeeded) (hf : next ≠ .failed) :
    Agrees { o with id, status := next, leaseOwner := none, leaseExpiresAt := none } items where
  processed := h.processed
  total := h.total
  succeeded := h.succeeded
  failed := h.failed
  allSucceeded e := (hs e).elim
  someFailed e := (hf e).elim

theorem batchTransition_counts {id : UUID} {next : BatchStatus} {allowed : List BatchStatus}
    (hs : next ≠ .succeeded) (hf : next ≠ .failed)
    (hcall : ∀ o : BatchOperation, allowed.contains o.status → id = b →
      call.stops b ∨ o.status = .paused)
    (h : Unwritten owner members b c) :
    Counting owner members b call (batchTransition id next allowed) (fun _ _ => True) c := by
  unfold batchTransition
  refine wpAt_bind.2 ((h (leases b)).updateBatch counting_rowLocked
    (fun L db hi _ o ho hid hp => ⟨rfl, fun _ hn => absurd rfl hn⟩)
    (fun c₁ h₁ => wpAt_bind.2 (h₁.check fun hc => absurd hc (by decide)))
    fun c₁ o h₁ hmem hid hp => wpAt_bind.2 (h₁.check fun _ => wpAt_bind.2 ?_))
  have hlock : Holds c₁.held (.row .batchOperations o.id) := by
    rcases h₁.batches.version _ (List.mem_singleton_self _) with ⟨-, -, -, -, hl⟩ | ⟨-, hf⟩
    · exact hid ▸ hl
    · exact hf.elim
  refine batch_commits (h₁.learn counting_rowLocked.keeps_locked ⟨hlock, hmem⟩)
    (fun _ j hj => absurd hj List.not_mem_nil) (fun L db hi hk _ hok o' ho' hb _ => ?_)
    fun c₂ h₂ => ?_
  · cases List.mem_singleton.1 ho'
    have hob : o.id = b := hid.trans hb
    have htallied : Tallied o (itemsOf b db) := by
      rcases hcall o hp hb with hstop | hpaused
      · exact (hok.2 o hk.2.2 hob).1 hstop
      · refine (hi.rests o hk.2.2 hob ?_).toTallied
        by_contra hn
        have hrun := hi.leased o hk.2.2 hob hn
        rw [hpaused] at hrun
        cases hrun
    exact htallied.agrees hs hf
  · exact (h₂ (leases b)).getBatch counting_rowLocked fun _ _ _ _ => trivial

theorem retryBatch_counts {id : UUID} (hcall : id = b → call.retries b)
    (h : Unwritten owner members b c) :
    Counting owner members b call (retryBatch id) (fun _ _ => True) c := by
  unfold retryBatch
  refine wpAt_bind.2 ((h (leases b)).updateBatch counting_rowLocked
    (fun L db hi _ o ho hid hp => ⟨rfl, fun _ hn => absurd rfl hn⟩)
    (fun c₁ h₁ => wpAt_bind.2 (h₁.check fun hc => absurd hc (by decide)))
    fun c₁ o h₁ hmem hid hp => wpAt_bind.2 (h₁.check fun _ => wpAt_bind.2 ?_))
  refine h₁.selects counting_rowLocked fun c₂ h₂ => wpAt_bind.2 ?_
  refine BatchTx.updateItems (P := fun i => i.operationId = id) counting_rowLocked
    (by exact fun _ => rfl) (fun i hp => ?_) (fun c₃ J h₃ hJ => wpAt_bind.2 ?_) _ h₂
    fun j hj => absurd hj List.not_mem_nil
  · simp only [Bool.and_eq_true, decide_eq_true_eq] at hp
    exact hp.1
  · have hother : call.retries b = false → id ≠ b := fun hr hb => by
      rw [hcall hb] at hr
      cases hr
    refine batch_commits h₃ (fun hr j hj hb => hother hr ((hJ j hj).symm.trans hb))
      (fun L db hi hk _ hok o' ho' hb _ => ?_) fun c₄ h₄ => ?_
    · cases List.mem_singleton.1 ho'
      exact absurd hb (hother hok.1)
    · exact (h₄ (leases b)).getBatch counting_rowLocked fun _ _ _ _ => trivial

/-- **Every call keeps the counters.** -/
theorem BatchCall.counts (call : BatchCall) {db : DB} (hdb : CountersInv owner members b db) :
    Counting owner members b call call.call (fun _ _ => True) { db } := by
  have h : Unwritten owner members b { db } := fun _ => .start hdb
  cases call with
  | processNextBatch r =>
    refine wpAt_map.2 (processNextBatch_counts (fun id hpick hb => ?_) h)
    simp [works, hpick, hb]
  | pauseBatch id =>
    refine wpAt_map.2 (batchTransition_counts (by decide) (by decide) (fun o _ hb => Or.inl ?_) h)
    simp [stops, hb]
  | resumeBatch id =>
    refine wpAt_map.2 (batchTransition_counts (by decide) (by decide) (fun o ho _ => Or.inr ?_) h)
    simpa using ho
  | cancelBatch id =>
    refine wpAt_map.2 (batchTransition_counts (by decide) (by decide) (fun o _ hb => Or.inl ?_) h)
    simp [stops, hb]
  | retryBatch id =>
    refine wpAt_map.2 (retryBatch_counts (fun hb => ?_) h)
    simp [retries, hb]

/-! ## Runs -/

/-- A batch as it is when it is created, or rests with right counters. -/
structure AtRest (b : UUID) (db : DB) : Prop where
  idle : ∀ o ∈ db.batchOperations, o.id = b → o.leaseOwner = none
  agrees : ∀ o ∈ db.batchOperations, o.id = b → Agrees o (itemsOf b db)
  total : ∀ o ∈ db.batchOperations, o.id = b → (itemsOf b db).length ≤ o.totalCount
  settled : ∀ i ∈ itemsOf b db, Settled i.status

variable {ι : Type} [DecidableEq ι] {calls : ι → BatchCall} {db : DB} {s : Running ι}

/-- The runs whose commits pass the gate of the counters. -/
abbrev CountingRun (calls : ι → BatchCall) (b : UUID) : Running ι → Running ι → Prop :=
  GatedRun (fun i => (calls i).call) fun i => counterGate b (calls i)

/-- **Batch counters are right whenever the batch rests**, in the runs in which a stop commits where
they are right, a retry does not commit, and the outcome of an item commits under a lease, and not
between the count of the items and the end of the chunk. -/
theorem counters_hold (hbatch : UniqueBy BatchOperation.id db.batchOperations)
    (hitem : UniqueBy BatchItem.id db.batchItems) (hrest : AtRest b db)
    (h : CountingRun calls b (Running.over ι db) s) :
    ∀ o ∈ s.db.batchOperations, o.id = b → o.leaseOwner = none → Agrees o (itemsOf b s.db) := by
  let owner (id : Nat) : Option UUID :=
    (db.batchItems.find? fun item => item.id = id).map (·.operationId)
  have hdb : CountersInv owner ((itemsOf b db).map BatchItem.id) b db :=
    { batchIds := hbatch
      itemIds := hitem
      owned := fun item hmem => by simp only [owner, hitem.find?_eq hmem, Option.map_some]
      leased := fun o ho hid hn => (hn (hrest.idle o ho hid)).elim
      settled := hrest.settled
      member := fun i hi => List.mem_map_of_mem hi
      total := fun o ho hid => by
        rw [List.length_map]
        exact hrest.total o ho hid
      rests := fun o ho hid _ => hrest.agrees o ho hid }
  have hs : SoundAt (counting owner ((itemsOf b db).map BatchItem.id) b)
      (fun i => counterGate b (calls i)) (fun _ e => e) s :=
    .of_run (fun i _ hi => wpAt_mono (fun _ _ h => h) (fun _ _ _ => trivial) ((calls i).counts hi))
      (fun _ _ => trivial) hdb h
  exact hs.inv.rests

instance (b : UUID) (call : BatchCall) (e : Event) (db : DB) :
    Decidable ((counterGate b call).ok e db) :=
  inferInstanceAs (Decidable (_ ∧ ∀ o ∈ db.batchOperations, _))

/-- The batch is paused and resumed, and a worker finishes it. -/
def resumedBatch : Fin 3 → BatchCall
  | 0 => .pauseBatch (idOf '7')
  | 1 => .resumeBatch (idOf '7')
  | 2 => .processNextBatch (batchRun "worker-1" 0)

theorem counters_hold_resumedBatch :
    ∃ s, CountingRun resumedBatch (idOf '7') (Running.over (Fin 3) tagBatch) s ∧
      s.db.batchOperations.map (fun o => (o.status, o.leaseOwner, o.succeededCount)) =
        [(.succeeded, none, 1)] ∧
      ∀ o ∈ s.db.batchOperations, o.id = idOf '7' → o.leaseOwner = none →
        Agrees o (itemsOf (idOf '7') s.db) := by
  obtain ⟨s, hs, hf⟩ := replayGated_any [0, 1, 2] (by decide) (fun i => (resumedBatch i).call)
    (fun i => counterGate (idOf '7') (resumedBatch i))
    (List.replicate 6 0 ++ List.replicate 6 1 ++ List.replicate 25 2)
    (Running.over (Fin 3) tagBatch)
    (fun s => decide (s.db.batchOperations.map (fun o => (o.status, o.leaseOwner, o.succeededCount)) =
      [(.succeeded, none, 1)])) (by decide +kernel)
  refine ⟨s, hs, of_decide_eq_true hf, counters_hold uniqueBy_singleton uniqueBy_singleton
    ⟨fun o ho _ => ?_, fun o ho _ => ?_, fun o ho _ => ?_, fun i hi => ?_⟩ hs⟩
  · cases List.mem_singleton.1 ho
    rfl
  · cases List.mem_singleton.1 ho
    exact ⟨by decide, (nomatch ·), (nomatch ·)⟩
  · cases List.mem_singleton.1 ho
    decide
  · cases List.mem_singleton.1 (List.mem_filter.1 hi).1
    exact Or.inl rfl

/-- The worker has ended without a failure. -/
def endedWell : Txn.Phase Site DB Lock Event Err Unit → Bool
  | .ended (.ok ()) => true
  | _ => false

/-- **A batch rests with stale counters**: it is paused after an item of the chunk has succeeded, and
the worker leaves without counting it. -/
theorem stale_counters :
    ∃ s, Reachable (fun i => (stoppedWorker i).call) (Running.over (Fin 3) tagBatch) s ∧
      s.phase 0 = .ended (.ok ()) ∧
      s.db.batchOperations.map (fun o => (o.id, o.status, o.leaseOwner, o.succeededCount)) =
        [(idOf '7', .paused, none, 0)] ∧
      s.db.batchItems.map (fun i => (i.operationId, i.status)) = [(idOf '7', .succeeded)] := by
  obtain ⟨s, hs, hf⟩ := replay_any [0, 1, 2] (by decide) (fun i => (stoppedWorker i).call)
    (fun _ _ => True) (List.replicate 17 0 ++ List.replicate 6 1 ++ List.replicate 6 0)
    (Running.over (Fin 3) tagBatch)
    (fun s => endedWell (s.phase 0) &&
      decide (s.db.batchOperations.map (fun o => (o.id, o.status, o.leaseOwner, o.succeededCount)) =
        [(idOf '7', .paused, none, 0)] ∧
      s.db.batchItems.map (fun i => (i.operationId, i.status)) = [(idOf '7', .succeeded)]))
    (by decide +kernel)
  obtain ⟨hphase, hdb⟩ := Bool.and_eq_true_iff.1 hf
  refine ⟨s, hs, ?_, of_decide_eq_true hdb⟩
  unfold endedWell at hphase
  split at hphase
  · next he => exact he
  · cases hphase

end Sakura
