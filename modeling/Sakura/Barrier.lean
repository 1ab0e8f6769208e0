/-
  Pause and cancel as barriers.

  * `Turn`: how a commit changes the status of the batch; `barrier`: the discipline of the calls;
  * `processItems_passes`: an item takes effect while its batch is not stopped;
  * `PatientRun`: no pause or cancel of the batch commits while another call is in an item of it;
  * `barrier_holds`: in such runs pause and cancel are barriers; `late_item_commits`: a run in which a
    pause is not one.
-/
import Sakura.BatchRows

namespace Sakura

open Txn

/-! ## Stops -/

def Stopped (s : BatchStatus) : Prop := s = .paused ∨ s = .canceled

def BatchCall.stops (b : UUID) : BatchCall → Bool
  | .pauseBatch id => id = b
  | .cancelBatch id => id = b
  | _ => false

def BatchCall.cancels (b : UUID) : BatchCall → Bool
  | .cancelBatch id => id = b
  | _ => false

def BatchCall.resumes (b : UUID) : BatchCall → Bool
  | .resumeBatch id => id = b
  | _ => false

/-- A stop commits while no other call has seen the batch running in its open transaction. -/
def barrierGate (b : UUID) (call : BatchCall) : Gate DB Lock Event where
  locks _ := if call.stops b then [exclusive (.checked b)] else []
  ok _ _ := True

/-! ## The discipline -/

/-- How a commit of the call changes the batch. -/
structure Turn (b : UUID) (call : BatchCall) (o o' : BatchOperation) : Prop where
  leased : o'.leaseOwner ≠ none → o'.status = .running
  canceled : o.status ≠ .canceled
  paused : o.status = .paused → call.resumes b ∨ call.cancels b
  stops : Stopped o'.status → call.stops b

def turns (b : UUID) (call : BatchCall) (o o' : BatchOperation) : Prop :=
  sameBatch o o' ∧ (o.id = b → Turn b call o o')

/-- `owner` is the batch of each item. -/
structure BarrierInv (owner : Nat → Option UUID) (b : UUID) (db : DB) : Prop where
  batchIds : UniqueBy BatchOperation.id db.batchOperations
  itemIds : UniqueBy BatchItem.id db.batchItems
  owned : ∀ i ∈ db.batchItems, owner i.id = some i.operationId
  leased : ∀ o ∈ db.batchOperations, o.id = b → o.leaseOwner ≠ none → o.status = .running

/-- A commit of the call that writes the versions `I` and `J`. -/
structure BarrierStep (owner : Nat → Option UUID) (b : UUID) (L : Held Lock) (db : DB)
    (call : BatchCall) (e : Event) (I : List BatchOperation) (J : List BatchItem) : Prop where
  batches : BatchVersions (turns b call) L db I
  items : RowVersions L db J
  gate : ∀ o ∈ I, o.id = b → Stopped o.status → Holds L (.checked b)
  made : call.stops b → ∃ o ∈ I, o.id = b ∧ Stopped o.status ∧
    (call.cancels b → o.status = .canceled)
  effect : ∀ id granted, e = .batchItem id granted → owner id = some b →
    ∀ o ∈ db.batchOperations, o.id = b → ¬Stopped o.status

variable {owner : Nat → Option UUID} {b : UUID} {call : BatchCall}

theorem BarrierStep.inv {L : Held Lock} {db db' : DB} {e : Event} {I : List BatchOperation}
    {J : List BatchItem} (hdb : BarrierInv owner b db)
    (hI : db'.batchOperations = overlay BatchOperation.id db.batchOperations I)
    (hJ : db'.batchItems = overlay BatchItem.id db.batchItems J)
    (h : BarrierStep owner b L db call e I J) : BarrierInv owner b db' where
  batchIds := hI ▸ h.batches.uniqueBy hdb.batchIds
  itemIds := hJ ▸ h.items.uniqueBy hdb.itemIds
  owned i hi := by
    rw [hJ] at hi
    rcases mem_overlay.1 hi with ⟨hi, -⟩ | hi
    · exact hdb.owned i hi
    · rcases h.items.version i hi with ⟨i₀, h₀, e₀, hk, -⟩ | ⟨-, hf⟩
      · rw [← e₀, hk, hdb.owned i₀ h₀]
      · exact hf.elim
  leased o ho hid := by
    rw [hI] at ho
    rcases mem_overlay.1 ho with ⟨ho, -⟩ | ho
    · exact hdb.leased o ho hid
    · rcases h.batches.version o ho with ⟨o₀, -, e₀, hk, -⟩ | ⟨-, hf⟩
      · exact (hk.2 (e₀.trans hid)).leased
      · exact hf.elim

/-- **What the calls keep to.** -/
def barrier (owner : Nat → Option UUID) (b : UUID) : Discipline Site DB Lock (BatchCall × Event) where
  inv := BarrierInv owner b
  step L db x db' := ∃ I J, db'.batchOperations = overlay BatchOperation.id db.batchOperations I ∧
    db'.batchItems = overlay BatchItem.id db.batchItems J ∧ BarrierStep owner b L db x.1 x.2 I J
  allowed _ _ := True
  step_inv := by
    rintro L db x db' hdb ⟨I, J, hI, hJ, h⟩
    exact h.inv hdb hI hJ

theorem barrier_rowLocked : RowLocked (barrier owner b) where
  batchIds h := h.batchIds
  itemIds h := h.itemIds
  step := by
    rintro L db x db' ⟨I, J, hI, hJ, h⟩
    exact ⟨I, J, hI, hJ, h.batches.weaken fun _ _ hk => hk.1, h.items⟩

/-! ## Commits -/

variable {α : Type} {I : List BatchOperation} {J : List BatchItem} {K : Held Lock → DB → Prop}
  {c : Ctx DB Lock (BatchCall × Event)}

/-- A call of the platform behind the barrier. -/
abbrev Barred (owner : Nat → Option UUID) (b : UUID) (call : BatchCall) (p : Call α)
    (Q : α → Ctx DB Lock (BatchCall × Event) → Prop) (c : Ctx DB Lock (BatchCall × Event)) : Prop :=
  Passes (barrier owner b) (barrierGate b call) (fun e => (call, e)) p Q c

/-- A transaction of the call. -/
abbrev BarrierTx (owner : Nat → Option UUID) (b : UUID) (call : BatchCall) (I : List BatchOperation)
    (J : List BatchItem) (K : Held Lock → DB → Prop) (c : Ctx DB Lock (BatchCall × Event)) : Prop :=
  BatchTx (barrier owner b) (turns b call) I J K c

/-- A transaction that has written nothing. -/
abbrev Blank (owner : Nat → Option UUID) (b : UUID) (c : Ctx DB Lock (BatchCall × Event)) : Prop :=
  ∀ R, BatchTx (barrier owner b) R [] [] (fun _ _ => True) c

theorem commit_passes (h : BarrierTx owner b call I J K c) {e : Event}
    {Q : Unit → Ctx DB Lock (BatchCall × Event) → Prop}
    (hmade : call.stops b → ∃ o ∈ I, o.id = b ∧ Stopped o.status ∧
      (call.cancels b → o.status = .canceled))
    (heffect : ∀ L db id granted, BarrierInv owner b db → K L db → e = .batchItem id granted →
      owner id = some b → ∀ o ∈ db.batchOperations, o.id = b → ¬Stopped o.status)
    (hQ : ∀ c', Blank owner b c' → Q () c') : Barred owner b call (.publish e) Q c := by
  refine h.publish barrier_rowLocked (fun c' h' _ => ⟨I, J, h'.view.1, h'.view.2, ?_⟩) hQ
  have hsub : c'.held ⊆ c'.held ++ (barrierGate b call).locks e := List.subset_append_left _ _
  refine ⟨h'.batches.mono (fun _ => id) fun _ => Holds.mono hsub,
    h'.items.mono (fun _ => id) fun _ => Holds.mono hsub, fun o ho hid hst => ?_, hmade,
    fun id granted he ho => heffect _ _ id granted h'.inv h'.known he ho⟩
  rcases h'.batches.version o ho with ⟨o₀, -, e₀, hk, -⟩ | ⟨-, hf⟩
  · have hstops := (hk.2 (e₀.trans hid)).stops hst
    refine List.mem_append_right _ ?_
    simp [barrierGate, hstops, exclusive]
  · exact hf.elim

/-! ## Items -/

/-- The transaction has seen the batch running, and the batch is not stopped. -/
def Marked (b : UUID) (L : Held Lock) (db : DB) : Prop :=
  (Lock.checked b, Mode.share) ∈ L ∧ ∀ o ∈ db.batchOperations, o.id = b → ¬Stopped o.status

theorem keeps_marked : (barrier owner b).Keeps (Marked b) where
  mono hLM h := ⟨hLM h.1, h.2⟩
  step := by
    rintro L M db x db' - hc ⟨I, J, hI, -, hs⟩ h
    refine ⟨h.1, fun o ho hid hst => ?_⟩
    rw [hI] at ho
    rcases mem_overlay.1 ho with ⟨ho, -⟩ | ho
    · exact h.2 o ho hid hst
    · exact hc.symm.not_mem (hs.gate o ho hid hst) h.1

/-- What a call knows in an item of the batch `id`. -/
def InItemOf (b id : UUID) (L : Held Lock) (db : DB) : Prop := id = b → Marked b L db

theorem keeps_inItemOf {id : UUID} : (barrier owner b).Keeps (InItemOf b id) where
  mono hLM h hid := ⟨hLM (h hid).1, (h hid).2⟩
  step hi hc hs h hid := keeps_marked.step hi hc hs (h hid)

/-! ## Calls -/

theorem Turn.active {o o' : BatchOperation} (h : ¬Stopped o.status) (h' : ¬Stopped o'.status)
    (hl : o'.leaseOwner ≠ none → o'.status = .running) : Turn b call o o' where
  leased := hl
  canceled e := h (Or.inr e)
  paused e := (h (Or.inl e)).elim
  stops e := (h' e).elim

theorem claimable_active {o : BatchOperation} {now : Time} (h : o.claimable now) :
    ¬Stopped o.status := by
  rintro (e | e) <;> simp [BatchOperation.claimable, e] at h

theorem not_stopped_running : ¬Stopped .running := by
  rintro (e | e) <;> cases e

theorem updateItem_passes (h : BarrierTx owner b call I J K c) {id : Nat} {p : BatchItem → Bool}
    {set : BatchItem → BatchItem} {site : Site} {Q : Nat → Ctx DB Lock (BatchCall × Event) → Prop}
    (hset : ∀ i, (set i).operationId = i.operationId)
    (hQ : ∀ n c' J, BarrierTx owner b call I J K c' → Q n c') :
    Barred owner b call (updateItem id p set site) Q c :=
  h.updateItem barrier_rowLocked hset
    (fun c' h' _ => hQ 0 c' J h') fun c' _ h' _ _ => hQ 1 c' _ h'

theorem updateItems_passes (h : BarrierTx owner b call I J K c) {ids : List Nat}
    {p : BatchItem → Bool} {set : BatchItem → BatchItem}
    {Q : Unit → Ctx DB Lock (BatchCall × Event) → Prop}
    (hset : ∀ i, (set i).operationId = i.operationId)
    (hQ : ∀ c' J, BarrierTx owner b call I J K c' → Q () c') :
    Barred owner b call (updateItems p set ids) Q c :=
  BatchTx.updateItems (P := fun _ => True) barrier_rowLocked hset (fun _ _ => trivial) (fun c' J h' _ => hQ c' J h') ids
    h fun _ _ => trivial

/-- A commit of a call that stops nothing, of no item. -/
theorem plain_passes (hcall : ¬call.stops b) (h : BarrierTx owner b call I J K c) {e : Event}
    (he : ∀ id g, e ≠ .batchItem id g) {Q : Unit → Ctx DB Lock (BatchCall × Event) → Prop}
    (hQ : ∀ c', Blank owner b c' → Q () c') : Barred owner b call (.publish e) Q c :=
  commit_passes h (fun hs => (hcall hs).elim) (fun _ _ id g _ _ e₁ => (he id g e₁).elim) hQ

/-! ## Workers -/

theorem claimBatch_passes {r : BatchRun} {id : UUID} (hcall : ¬call.stops b) (h : Blank owner b c) :
    Barred owner b call (claimBatch r id) (fun _ => Blank owner b) c := by
  unfold claimBatch
  have hreset : ∀ {I K} {c : Ctx DB Lock (BatchCall × Event)}, BarrierTx owner b call I [] K c →
      Barred owner b call (do
        updateItems (fun i => i.operationId = id && i.status = .running)
          (fun i => { i with status := .pending }) (← select fun v => itemIds v id .running)
        .publish (.batchState id)
        pure true) (fun _ => Blank owner b) c := by
    intro I K c h
    refine wpAt_bind.2 (h.selects barrier_rowLocked fun c₁ h₁ => wpAt_bind.2 ?_)
    refine updateItems_passes h₁ (fun _ => rfl) fun c₂ J h₂ => wpAt_bind.2 ?_
    exact plain_passes hcall h₂ (fun _ _ => by simp) fun _ h₃ => h₃
  refine wpAt_bind.2 ((h (turns b call)).lockBatch barrier_rowLocked (fun c₁ h₁ => h₁.blank)
    fun c₁ o h₁ hp => ?_)
  obtain ⟨hid, hclaim⟩ : o.id = id ∧ o.claimable r.now := by simpa using hp
  refine wpAt_bind.2 (h₁.updateBatch barrier_rowLocked (fun L db hi hk o' ho' hid' _ => ?_)
    (fun c₂ h₂ => hreset h₂) fun c₂ o' h₂ _ _ _ => hreset h₂)
  obtain rfl : o' = o := hi.batchIds.eq ho' hk.2.2 (hid'.trans hid.symm)
  exact ⟨rfl, fun _ => .active (claimable_active hclaim) not_stopped_running fun _ => rfl⟩

/-- The read of the status before an item. -/
theorem checkBatch_passes {id : UUID} (h : Blank owner b c)
    {Q : BatchStatus → Ctx DB Lock (BatchCall × Event) → Prop}
    (hrun : ∀ c', BarrierTx owner b call [] [] (InItemOf b id) c' → Q .running c')
    (hstop : ∀ status c', Blank owner b c' → status ≠ .running → Q status c') :
    Barred owner b call (checkBatch id) Q c := by
  refine wpAt_exec.2 fun c₁ hw _ => ?_
  have h₁ := (h (turns b call)).waits barrier_rowLocked hw
  cases hf : c₁.view.batchOperations.find? fun o => o.id = id with
  | none => exact h₁.inv
  | some o =>
    have hid : o.id = id := by simpa using List.find?_some hf
    have hmem : o ∈ c₁.db.batchOperations := by
      have := List.mem_of_find?_eq_some hf
      rwa [h₁.view.1, overlay_nil] at this
    by_cases hst : o.status = .running
    · simp only [hst, if_true]
      refine hrun _ ((h₁.lock.learn keeps_inItemOf fun hb => ⟨?_, fun o' ho' hid' => ?_⟩).forget
        keeps_inItemOf fun hk => hk.2)
      · rw [hb]
        exact List.mem_append_right _ (List.mem_singleton_self _)
      · rw [h₁.inv.batchIds.eq ho' hmem (hid'.trans (hb.symm.trans hid.symm)), hst]
        exact not_stopped_running
    · exact hstop _ _ h₁.lock.blank hst

theorem processBatchItem_passes {fresh : Fresh} {operation : BatchOperation} {item : Nat}
    {account : UUID} {workerID : String} (hcall : ¬call.stops b)
    (howner : owner item = some operation.id)
    (h : BarrierTx owner b call [] [] (InItemOf b operation.id) c) :
    Barred owner b call (processBatchItem fresh operation item account workerID)
      (fun _ => Blank owner b) c := by
  unfold processBatchItem
  refine wpAt_bind.2 (updateItem_passes h (fun _ => rfl) fun n c₁ J₁ h₁ => ?_)
  refine wpAt_bind.2 (h₁.check fun _ => wpAt_bind.2 ?_)
  refine h₁.quiet barrier_rowLocked (itemEffect_writes offBatches_none (fun _ => ⟨rfl, rfl⟩)
    (fun _ => ⟨rfl, rfl⟩) fun _ => ⟨rfl, rfl⟩) fun granted c₂ h₂ => wpAt_bind.2 ?_
  refine updateItem_passes h₂ (fun _ => rfl) fun n c₃ J₃ h₃ => ?_
  refine commit_passes h₃ (fun hs => (hcall hs).elim) (fun L db id g _ hk he ho o hmem hid => ?_)
    fun _ h₄ => h₄
  cases he
  exact (hk (Option.some.inj (howner.symm.trans ho))).2 o hmem hid

theorem failItem_passes {item : Nat} (hcall : ¬call.stops b) (h : Blank owner b c) :
    Barred owner b call (failItem item) (fun _ => Blank owner b) c :=
  wpAt_bind.2 (updateItem_passes (h _) (fun _ => rfl) fun _ _ _ h₁ =>
    plain_passes hcall h₁ (fun _ _ => by simp) fun _ h₂ => h₂)

theorem renewBatch_passes {r : BatchRun} {id : UUID} {n : Nat} (hcall : ¬call.stops b)
    (h : Blank owner b c) :
    Barred owner b call (renewBatch r id n) (fun _ => Blank owner b) c := by
  refine wpAt_bind.2 ((h (turns b call)).updateBatch barrier_rowLocked (fun L db _ _ o _ _ hp => ?_)
    (fun c₁ h₁ => ?_) fun c₁ o h₁ _ _ _ => ?_)
  · simp only [Bool.and_eq_true, decide_eq_true_eq] at hp
    have hact : ¬Stopped o.status := hp.2 ▸ not_stopped_running
    exact ⟨rfl, fun _ => .active hact hact fun _ => hp.2⟩
  · exact plain_passes hcall h₁ (fun _ _ => by simp) fun _ h₂ => h₂
  · exact plain_passes hcall h₁ (fun _ _ => by simp) fun _ h₂ => h₂

/-- The loop over the items of a chunk, one item after the other. -/
theorem processItems_passes {r : BatchRun} {operation : BatchOperation} (hcall : ¬call.stops b) :
    ∀ (items : List BatchItem) (n : Nat) {c : Ctx DB Lock (BatchCall × Event)},
      (∀ item ∈ items, owner item.id = some operation.id) → Blank owner b c →
      Barred owner b call (processItems r operation n items) (fun _ => Blank owner b) c
  | [], _, _, _, h => h
  | item :: items, n, c, howner, h => by
    have hnext : ∀ {c}, Blank owner b c → Barred owner b call (do
        renewBatch r operation.id n
        processItems r operation (n + 1) items) (fun _ => Blank owner b) c := fun h₁ =>
      wpAt_bind.2 (wpAt_mono (fun _ _ h₂ => processItems_passes hcall items (n + 1)
        (fun i hi => howner i (List.mem_cons_of_mem _ hi)) h₂) (fun _ _ h => h)
        (renewBatch_passes hcall h₁))
    unfold processItems
    refine wpAt_bind.2 (checkBatch_passes h (fun c₁ h₁ => ?_) fun status c₁ h₁ hst => ?_)
    · rw [if_neg (not_not_intro rfl)]
      refine wpAt_bind.2 (attempt_passes ?_ fun x c₂ h₂ => ?_)
      · refine wpAt_mono (fun _ c₂ h₂ => ?_) (fun _ _ h => h)
          (processBatchItem_passes hcall (howner item List.mem_cons_self) h₁)
        exact wpAt_bind.2 (hnext h₂)
      · refine wpAt_bind.2 ?_
        simp only [recordOutcome]
        split
        · exact wpAt_mono (fun _ _ h₃ => hnext h₃) (fun _ _ h => h) (failItem_passes hcall h₂)
        · exact hnext h₂
    · rw [if_pos hst]
      exact h₁

/-- The counters are written for the owner of the lease, while the batch is running. -/
theorem finalizeBatchChunk_passes {id : UUID} {workerID : String} (hcall : ¬call.stops b)
    (h : Blank owner b c) :
    Barred owner b call (finalizeBatchChunk id workerID) (fun _ => Blank owner b) c := by
  unfold finalizeBatchChunk
  refine wpAt_bind.2 ((h (turns b call)).quiet barrier_rowLocked
    (countItems_writes offBatches_none) fun items c₁ h₁ =>
      wpAt_bind.2 (h₁.check fun _ => wpAt_bind.2 ?_))
  refine h₁.updateBatch barrier_rowLocked (fun L db hi _ o ho hid hp => ?_) (fun c₂ h₂ => ?_)
    fun c₂ o h₂ _ _ _ => ?_
  · refine ⟨rfl, fun hb => ?_⟩
    have hrun := hi.leased o ho hb fun hn => by simp [hn] at hp
    have hact : ¬Stopped o.status := hrun ▸ not_stopped_running
    refine .active hact ?_ fun hn => (hn rfl).elim
    dsimp only
    split_ifs <;> rintro (e | e) <;> cases e
  · exact plain_passes hcall h₂ (fun _ _ => by simp) fun _ h₃ => h₃
  · exact plain_passes hcall h₂ (fun _ _ => by simp) fun _ h₃ => h₃

theorem processNextBatch_passes {r : BatchRun} (hcall : ¬call.stops b) (h : Blank owner b c) :
    Barred owner b call (processNextBatch r) (fun _ _ => True) c := by
  unfold processNextBatch
  split
  · trivial
  · next id _ =>
    refine wpAt_bind.2 (wpAt_mono (fun claimed c₁ h₁ => ?_) (fun _ _ h => h)
      (claimBatch_passes hcall h))
    split
    · trivial
    · refine wpAt_bind.2 ((h₁ (turns b call)).getBatch barrier_rowLocked
        fun c₂ operation h₂ hid => wpAt_bind.2 ?_)
      refine h₂.selects barrier_rowLocked fun c₃ h₃ => wpAt_bind.2 ?_
      refine wpAt_mono (fun done c₄ h₄ => ?_) (fun _ _ h => h)
        (processItems_passes hcall _ 0 (fun i hi => ?_) h₃.blank)
      · split
        · trivial
        · exact wpAt_bind.2 (wpAt_mono (fun _ _ _ => trivial) (fun _ _ h => h)
            (finalizeBatchChunk_passes hcall h₄))
      · obtain ⟨hmem, hop⟩ := mem_pendingItems hi
        rw [h₃.view.2, overlay_nil] at hmem
        rw [h₃.inv.owned i hmem, hop, hid]

/-! ## Transitions -/

theorem batchTransition_passes {id : UUID} {next : BatchStatus} {allowed : List BatchStatus}
    (hturn : ∀ o, allowed.contains o.status → o.id = b → id = b → Turn b call o
      { o with id, status := next, leaseOwner := none, leaseExpiresAt := none })
    (hstops : call.stops b → id = b ∧ Stopped next ∧ (call.cancels b → next = .canceled))
    (h : Blank owner b c) :
    Barred owner b call (batchTransition id next allowed) (fun _ _ => True) c := by
  unfold batchTransition
  refine wpAt_bind.2 ((h (turns b call)).updateBatch barrier_rowLocked
    (fun L db hi _ o ho hid hp => ⟨rfl, fun hb => hturn o hp hb (hid.symm.trans hb)⟩)
    (fun c₁ h₁ => wpAt_bind.2 (h₁.check fun hc => absurd hc (by decide))) fun c₁ o h₁ _ _ _ =>
      wpAt_bind.2 (h₁.check fun _ => wpAt_bind.2 ?_))
  refine commit_passes h₁ (fun hs => ⟨_, List.mem_singleton_self _, hstops hs⟩)
    (fun _ _ _ _ _ _ he => nomatch he) fun c₂ h₂ => ?_
  exact (h₂ (turns b call)).getBatch barrier_rowLocked fun _ _ _ _ => trivial

theorem retryBatch_passes {id : UUID} (hcall : ¬call.stops b) (h : Blank owner b c) :
    Barred owner b call (retryBatch id) (fun _ _ => True) c := by
  unfold retryBatch
  refine wpAt_bind.2 ((h (turns b call)).updateBatch barrier_rowLocked
    (fun L db hi _ o ho hid hp => ?_)
    (fun c₁ h₁ => wpAt_bind.2 (h₁.check fun hc => absurd hc (by decide))) fun c₁ o h₁ _ _ _ =>
      wpAt_bind.2 (h₁.check fun _ => wpAt_bind.2 ?_))
  · refine ⟨rfl, fun _ => .active ?_ ?_ fun hn => (hn rfl).elim⟩
    · rw [of_decide_eq_true hp]
      rintro (e | e) <;> cases e
    · rintro (e | e) <;> cases e
  · refine h₁.selects barrier_rowLocked fun c₂ h₂ => wpAt_bind.2 ?_
    refine updateItems_passes h₂ (fun _ => rfl) fun c₃ J h₃ => wpAt_bind.2 ?_
    refine plain_passes hcall h₃ (fun _ _ => by simp) fun c₄ h₄ => ?_
    exact (h₄ (turns b call)).getBatch barrier_rowLocked fun _ _ _ _ => trivial

/-- **Every call keeps to the barrier.** -/
theorem BatchCall.passes (call : BatchCall) {db : DB} (hdb : BarrierInv owner b db) :
    Barred owner b call call.call (fun _ _ => True) { db } := by
  have h : Blank owner b { db } := fun _ => .start hdb
  cases call with
  | processNextBatch r => exact wpAt_map.2 (processNextBatch_passes (by simp [stops]) h)
  | pauseBatch id =>
    refine wpAt_map.2 (batchTransition_passes (fun o ho hb hid => ⟨fun hn => (hn rfl).elim, fun e => ?_,
      fun e => ?_, fun _ => decide_eq_true hid⟩) (fun hs => ?_) h)
    · simp [e] at ho
    · simp [e] at ho
    · exact ⟨of_decide_eq_true hs, Or.inl rfl, fun hc => by simp [cancels] at hc⟩
  | resumeBatch id =>
    refine wpAt_map.2 (batchTransition_passes (fun o ho hb hid => ⟨fun hn => (hn rfl).elim, fun e => ?_,
      fun e => Or.inl (decide_eq_true hid), fun e => ?_⟩) (fun hs => by simp [stops] at hs) h)
    · simp [e] at ho
    · rcases e with e | e <;> cases e
  | cancelBatch id =>
    refine wpAt_map.2 (batchTransition_passes (fun o ho hb hid => ⟨fun hn => (hn rfl).elim, fun e => ?_,
      fun e => Or.inr (decide_eq_true hid), fun _ => decide_eq_true hid⟩) (fun hs => ?_) h)
    · simp [e] at ho
    · exact ⟨of_decide_eq_true hs, Or.inr rfl, fun _ => rfl⟩
  | retryBatch id => exact wpAt_map.2 (retryBatch_passes (by simp [stops]) h)

/-! ## Runs -/

theorem BatchCall.stops_of_cancels {call : BatchCall} (h : call.cancels b) : call.stops b := by
  cases call <;> simp_all [cancels, stops]

/-- A stopped batch stays stopped until it is resumed, and a canceled batch stays canceled. -/
theorem BarrierStep.keeps_stopped {L : Held Lock} {db db' : DB} {e : Event} {o : BatchOperation}
    (hdb : BarrierInv owner b db) (h : BarrierStep owner b L db call e I J)
    (hI : db'.batchOperations = overlay BatchOperation.id db.batchOperations I)
    (ho : o ∈ db.batchOperations) (hid : o.id = b) (hst : Stopped o.status)
    (hr : o.status = .canceled ∨ ¬call.resumes b) :
    ∃ o' ∈ db'.batchOperations, o'.id = b ∧ Stopped o'.status ∧
      (o.status = .canceled → o'.status = .canceled) := by
  by_cases hv : ∃ v ∈ I, v.id = b
  · obtain ⟨v, hv, hvid⟩ := hv
    rcases h.batches.version v hv with ⟨o₀, h₀, e₀, hk, -⟩ | ⟨-, hf⟩
    · obtain rfl : o₀ = o := hdb.batchIds.eq h₀ ho (e₀.trans (hvid.trans hid.symm))
      have ht := hk.2 hid
      -- a canceled batch has no version, and a paused one only a resumed or a canceled one
      have hnr := hr.resolve_left ht.canceled
      have hc := (ht.paused (hst.resolve_right ht.canceled)).resolve_left hnr
      obtain ⟨o', ho', hid', hst', hcan⟩ := h.made (BatchCall.stops_of_cancels hc)
      exact ⟨o', by rw [hI]; exact mem_overlay_right ho', hid', hst', fun _ => hcan hc⟩
    · exact hf.elim
  · refine ⟨o, ?_, hid, hst, fun h => h⟩
    rw [hI]
    exact mem_overlay_left (fun v hv' e₀ => hv ⟨v, hv', e₀.trans hid⟩) ho

variable {ι : Type} [DecidableEq ι] {calls : ι → BatchCall} {db : DB} {s : Running ι}

/-- The runs in which a pause or cancel of the batch commits only while no other call is between its
check of the batch and the end of the transaction of the item. -/
abbrev PatientRun (calls : ι → BatchCall) (b : UUID) : Running ι → Running ι → Prop :=
  GatedRun (fun i => (calls i).call) fun i => barrierGate b (calls i)

theorem PatientRun.sound (hdb : BarrierInv owner b db)
    (h : PatientRun calls b (Running.over ι db) s) :
    SoundAt (barrier owner b) (fun i => barrierGate b (calls i)) (fun i e => (calls i, e)) s :=
  .of_run (fun i _ hi => wpAt_mono (fun _ _ h => h) (fun _ _ _ => trivial) ((calls i).passes hi))
    (fun _ _ => trivial) hdb h

/-- After a stop, and until the batch is resumed, the batch is stopped and no item of it takes
effect. -/
theorem PatientRun.halted (hdb : BarrierInv owner b db)
    (h : PatientRun calls b (Running.over ι db) s) : ∀ {l₁ l₂ i e}, s.log = l₁ ++ (i, e) :: l₂ →
      (calls i).stops b → ((calls i).cancels b ∨ ∀ x ∈ l₂, ¬(calls x.1).resumes b) →
      (∃ o ∈ s.db.batchOperations, o.id = b ∧ Stopped o.status ∧
        ((calls i).cancels b → o.status = .canceled)) ∧
      ∀ x ∈ l₂, ∀ id g, x.2 = .batchItem id g → owner id ≠ some b := by
  induction h with
  | refl =>
    intro l₁ l₂ i e hlog
    exact absurd hlog.symm (List.append_ne_nil_of_right_ne_nil _ (List.cons_ne_nil _ _))
  | @tail s s' h hs ih =>
    intro l₁ l₂ i e hlog hstop hresume
    have hsound := PatientRun.sound hdb h
    rcases hsound.commit hs with ⟨hd, hl⟩ | ⟨j, f, hl, L, I, J, hI, hJ, hstep⟩
    · rw [hd]
      exact ih (hl ▸ hlog) hstop hresume
    · rcases List.eq_nil_or_concat l₂ with rfl | ⟨l, y, rfl⟩
      · -- the stop itself
        obtain ⟨-, hy⟩ := List.append_inj' (hl.symm.trans hlog) rfl
        cases hy
        obtain ⟨o, ho, hid, hst, hc⟩ := hstep.made hstop
        exact ⟨⟨o, by rw [hI]; exact mem_overlay_right ho, hid, hst, hc⟩,
          fun x hx => absurd hx List.not_mem_nil⟩
      · rw [List.concat_eq_append] at hlog hresume ⊢
        have hlog' : s.log ++ [(j, f)] = (l₁ ++ (i, e) :: l) ++ [y] := by
          rw [← hl, hlog, List.append_assoc, List.cons_append]
        obtain ⟨hl', hy⟩ := List.append_inj' hlog' rfl
        cases hy
        obtain ⟨⟨o, ho, hid, hst, hc⟩, hitems⟩ := ih hl' hstop
          (hresume.imp_right fun hr x hx => hr x (List.mem_append_left _ hx))
        refine ⟨?_, fun x hx id g hxe howner => ?_⟩
        · have hr : o.status = .canceled ∨ ¬(calls j).resumes b :=
            hresume.imp hc fun hr => hr _ (List.mem_append_right _ (List.mem_singleton_self _))
          obtain ⟨o', ho', hid', hst', hc'⟩ := hstep.keeps_stopped hsound.inv hI ho hid hst hr
          exact ⟨o', ho', hid', hst', fun hcan => hc' (hc hcan)⟩
        · rcases List.mem_append.1 hx with hx | hx
          · exact hitems x hx id g hxe howner
          · cases List.mem_singleton.1 hx
            exact hstep.effect id g hxe howner o ho hid hst

/-- **Pause and cancel are barriers**, in the runs in which they commit only while no other call is
between its check of the batch and the end of the transaction of the item.  After a pause no item of
the batch takes effect until it is resumed, and after a cancel none does at all. -/
theorem barrier_holds (hbatch : UniqueBy BatchOperation.id db.batchOperations)
    (hitem : UniqueBy BatchItem.id db.batchItems)
    (hlease : ∀ o ∈ db.batchOperations, o.id = b → o.leaseOwner ≠ none → o.status = .running)
    (h : PatientRun calls b (Running.over ι db) s) {l₁ l₂ : List (ι × Event)} {i : ι} {e : Event}
    (hlog : s.log = l₁ ++ (i, e) :: l₂) (hstop : (calls i).stops b)
    (hresume : (calls i).cancels b ∨ ∀ x ∈ l₂, ¬(calls x.1).resumes b) :
    ∀ x ∈ l₂, ∀ id granted, x.2 = .batchItem id granted →
      ∀ item ∈ s.db.batchItems, item.id = id → item.operationId ≠ b := by
  let owner (id : Nat) : Option UUID :=
    (db.batchItems.find? fun item => item.id = id).map (·.operationId)
  have hdb : BarrierInv owner b db :=
    ⟨hbatch, hitem, fun item hmem => by simp only [owner, hitem.find?_eq hmem, Option.map_some],
      hlease⟩
  rintro x hx id granted he item hmem rfl hb
  refine (PatientRun.halted hdb h hlog hstop hresume).2 x hx _ granted he ?_
  rw [(PatientRun.sound hdb h).inv.owned item hmem, hb]

/-- A worker, and administrators who pause the batch and cancel it. -/
def stoppedWorker : Fin 3 → BatchCall
  | 0 => .processNextBatch (batchRun "worker-1" 0)
  | 1 => .pauseBatch (idOf '7')
  | 2 => .cancelBatch (idOf '7')

instance (b : UUID) (call : BatchCall) (e : Event) (db : DB) :
    Decidable ((barrierGate b call).ok e db) :=
  isTrue trivial

/-- The worker has listed the item when the batch is paused and then canceled. -/
theorem barrier_holds_stoppedWorker :
    ∃ s, PatientRun stoppedWorker (idOf '7') (Running.over (Fin 3) tagBatch) s ∧
      s.log = [(0, .batchState (idOf '7'))] ++ (1, .batchState (idOf '7')) ::
        [(2, .batchState (idOf '7'))] ∧
      ∀ x ∈ [((2 : Fin 3), Event.batchState (idOf '7'))], ∀ id granted, x.2 = .batchItem id granted →
        ∀ item ∈ s.db.batchItems, item.id = id → item.operationId ≠ idOf '7' := by
  obtain ⟨s, hs, hf⟩ := replayGated_any [0, 1, 2] (by decide) (fun i => (stoppedWorker i).call)
    (fun i => barrierGate (idOf '7') (stoppedWorker i))
    (List.replicate 9 0 ++ List.replicate 5 1 ++ List.replicate 5 2 ++ List.replicate 2 0)
    (Running.over (Fin 3) tagBatch)
    (fun s => decide (s.log = [(0, .batchState (idOf '7'))] ++ (1, .batchState (idOf '7')) ::
        [(2, .batchState (idOf '7'))])) (by decide +kernel)
  have hlog := of_decide_eq_true hf
  refine ⟨s, hs, hlog, barrier_holds uniqueBy_singleton uniqueBy_singleton (fun o ho _ hl => ?_) hs
    hlog rfl (Or.inr fun x hx => ?_)⟩
  · cases List.mem_singleton.1 ho
    exact (hl rfl).elim
  · cases List.mem_singleton.1 hx
    decide

/-- **An item takes effect after a pause**: the worker has read that the batch is running, the pause
commits, and then the item. -/
theorem late_item_commits :
    ∃ s, Reachable (fun i => (stoppedWorker i).call) (Running.over (Fin 3) tagBatch) s ∧
      s.log = [(0, .batchState (idOf '7'))] ++ (1, .batchState (idOf '7')) ::
        [(0, .batchItem 1 none)] ∧
      s.db.batchItems.map (fun item => (item.id, item.operationId, item.status)) =
        [(1, idOf '7', .succeeded)] ∧
      s.db.batchOperations.map (·.status) = [.paused] := by
  obtain ⟨s, hs, hf⟩ := replay_any [0, 1, 2] (by decide) (fun i => (stoppedWorker i).call)
    (fun _ _ => True) (List.replicate 10 0 ++ List.replicate 4 1 ++ List.replicate 7 0)
    (Running.over (Fin 3) tagBatch)
    (fun s => decide (s.log = [(0, .batchState (idOf '7'))] ++ (1, .batchState (idOf '7')) ::
        [(0, .batchItem 1 none)] ∧
      s.db.batchItems.map (fun item => (item.id, item.operationId, item.status)) =
        [(1, idOf '7', .succeeded)] ∧
      s.db.batchOperations.map (·.status) = [.paused])) (by decide +kernel)
  exact ⟨s, hs, of_decide_eq_true hf⟩

end Sakura
