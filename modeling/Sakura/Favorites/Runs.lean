/-
  A favorite ends as the user last asked.

  * `State.lastAsked`: the value of the last request;
  * `Serves`, `State.Waits`, `State.Owes`: a task that has still to carry the value to the server;
  * `Heedful`: a restriction on the steps;
  * `Kept`, `Inv`: what holds of a favorite that was asked for;
  * `step_inv`, `favorites_as_asked`.
-/
import Sakura.Favorites.Rows

namespace Sakura.Favorites

open Txn Queue

/-! ## What is asked, and what is owed -/

/-- The value of the last request for the favorite. -/
def State.lastAsked (s : State) (id : UUID) : Option Bool :=
  ((s.asked.filter (·.1 = id)).getLast?).map (·.2)

/-- The server has accepted a value, and nothing makes the handler send another. -/
def Stage.sent : Stage → Bool
  | .accepted _ | .ended none => true
  | _ => false

/-- The row has the value that the server has accepted. -/
def Stage.recorded : Stage → Bool
  | .ended none => true
  | _ => false

theorem Stage.sent_of_recorded {st : Stage} (h : st.recorded = true) : st.sent = true := by
  unfold recorded at h
  split at h
  · rfl
  · cases h

/-- A task of the favorite that has not succeeded. -/
def Serves (id : UUID) (t : Task) : Prop :=
  t.type = .embyFavorite ∧ t.payload.favoriteId = some id ∧ t.status ≠ .succeeded

instance (id : UUID) (t : Task) : Decidable (Serves id t) := inferInstanceAs (Decidable (_ ∧ _ ∧ _))

/-- No handler of the task is past the stage. -/
def State.Waits (s : State) (past : Stage → Bool) (t : Task) : Prop :=
  ∀ r ∈ s.running, r.task.id = t.id → past r.stage = false

instance (s : State) (past : Stage → Bool) (t : Task) : Decidable (s.Waits past t) :=
  inferInstanceAs (Decidable (∀ r ∈ s.running, _))

/-- A task of the favorite is to go through the stage. -/
def State.Owes (s : State) (past : Stage → Bool) (id : UUID) : Prop :=
  ∃ t ∈ s.db.tasks, Serves id t ∧ s.Waits past t

theorem State.Owes.recorded {s : State} {id : UUID} (h : s.Owes Stage.sent id) :
    s.Owes Stage.recorded id := by
  obtain ⟨t, ht, hserves, hwaits⟩ := h
  refine ⟨t, ht, hserves, fun r hr e => ?_⟩
  cases hrec : r.stage.recorded with
  | false => rfl
  | true => rw [← hwaits r hr e, Stage.sent_of_recorded hrec]

/-! ## Steps that heed -/

/-- What the next statement of `syncFavorites` says of the row: that the server lists it or not. -/
def Stage.listed (f : EmbyFavorite) : Stage → Option Bool
  | .writing _ bindingID _ (item :: _) _ =>
    if (item.id ≠ "" ∧ item.title ≠ "") ∧ varchar 128 item.id = .ok f.remoteItemId ∧
      f.bindingId = bindingID then some true else none
  | .writing _ bindingID _ [] seen =>
    if f.bindingId = bindingID ∧ f.remoteItemId ∉ seen then some false else none
  | _ => none

/-- The call to the server sends the value that the row has, or another task is still to send; `ok` says
that the server accepts the value. -/
def HeedsCall (s : State) (r : Running Stage) (ok : Bool) : Prop :=
  match r.stage with
  | .sending _ id _ _ desired =>
    (∀ f ∈ s.favorites, f.id = id → f.desiredFavorite = desired) ∨
      ∃ t ∈ s.db.tasks, (Serves id t ∧ s.Waits Stage.sent t) ∧ (ok = true → t.id ≠ r.task.id)
  | _ => True

instance (s : State) (r : Running Stage) (ok : Bool) : Decidable (HeedsCall s r ok) := by
  unfold HeedsCall; split <;> infer_instance

/-- What is written to a row that a user has asked for is what it has, unless it is pending. -/
def HeedsWrite (s : State) (r : Running Stage) : Prop :=
  ∀ f ∈ s.favorites, s.lastAsked f.id ≠ none → ∀ v ∈ r.stage.listed f,
    f.syncStatus = .pending ∨ f.desiredFavorite = v

instance (s : State) (r : Running Stage) : Decidable (HeedsWrite s r) :=
  inferInstanceAs (Decidable (∀ f ∈ s.favorites, _))

/-- A step of a handler that is carried out. -/
def Heedful : Label → State → Prop
  | .advance n a, s => ∀ r ∈ s.running[n]?, a.reply.effect = true →
      HeedsCall s r a.ok ∧ HeedsWrite s r
  | _, _ => True

instance (l : Label) (s : State) : Decidable (Heedful l s) := by
  unfold Heedful; split <;> infer_instance

/-! ## Invariants -/

/-- The mark of the favorite is set. -/
def State.Marked (s : State) (f : EmbyFavorite) : Prop :=
  ∃ b ∈ s.db.bindings, b.id = f.bindingId ∧ (f.instanceId, b.remoteUserId, f.remoteItemId) ∈ s.marks

instance (s : State) (f : EmbyFavorite) : Decidable (s.Marked f) :=
  inferInstanceAs (Decidable (∃ b ∈ s.db.bindings, _))

/-- What holds of a favorite that was last asked to be `v`. -/
structure Kept (s : State) (f : EmbyFavorite) (v : Bool) : Prop where
  desired : f.desiredFavorite = v
  pending : f.syncStatus = .pending → s.Owes Stage.recorded f.id
  remote : f.remoteFavorite = v ∨ s.Owes Stage.recorded f.id
  mark : (s.Marked f ↔ v = true) ∨ s.Owes Stage.sent f.id

/-- What a handler knows, in the rows `bs` and `fs`. -/
def Knows (bs : List Binding) (fs : List EmbyFavorite) (task : ClaimedTask) : Stage → Prop
  | .sending instanceID id user item _ =>
    (task.type = .embyFavorite ∧ task.payload.favoriteId = some id) ∧
      ∃ f ∈ fs, f.id = id ∧ f.instanceId = instanceID ∧ f.remoteItemId = item ∧
        ∃ b ∈ bs, b.id = f.bindingId ∧ b.remoteUserId = user
  | .accepted id | .refused id _ =>
    task.type = .embyFavorite ∧ task.payload.favoriteId = some id
  | .listing instanceID bindingID _ _ | .writing instanceID bindingID _ _ _ =>
    task.type = .embyFavoriteSync ∧ ∃ b ∈ bs, b.id = bindingID ∧ b.instanceId = instanceID
  | .start | .ended _ => True

/-- The rows of the bindings and the favorites: the unique columns, and the instance of a favorite is
that of its binding. -/
structure Placed (bs : List Binding) (fs : List EmbyFavorite) : Prop where
  bindingIds : UniqueBy Binding.id bs
  remotes : UniqueBy Binding.remote bs
  ids : UniqueBy EmbyFavorite.id fs
  keys : UniqueBy EmbyFavorite.key fs
  bound : ∀ f ∈ fs, ∃ b ∈ bs, b.id = f.bindingId ∧ b.instanceId = f.instanceId

structure Inv (s : State) : Prop where
  taskIds : UniqueBy Task.id s.db.tasks
  placed : Placed s.db.bindings s.favorites
  running : ∀ r ∈ s.running, ∃ t ∈ s.db.tasks, r.Of t
  knows : ∀ r ∈ s.running, Knows s.db.bindings s.favorites r.task r.stage
  asked : ∀ id, s.lastAsked id ≠ none → ∃ f ∈ s.favorites, f.id = id
  kept : ∀ f ∈ s.favorites, ∀ v, s.lastAsked f.id = some v → Kept s f v

/-- No handler runs and nothing is asked yet. -/
structure Fresh (s : State) : Prop where
  taskIds : UniqueBy Task.id s.db.tasks
  placed : Placed s.db.bindings s.favorites
  idle : s.running = []
  silent : s.asked = []

theorem Fresh.inv {s : State} (h : Fresh s) : Inv s where
  taskIds := h.taskIds
  placed := h.placed
  running r hr := by rw [h.idle] at hr; cases hr
  knows r hr := by rw [h.idle] at hr; cases hr
  asked id hid := by simp [State.lastAsked, h.silent] at hid
  kept f _ v hv := by simp [State.lastAsked, h.silent] at hv

variable {s s' : State}

/-- The favorites of one mark are one. -/
theorem Placed.eq_of_mark {bs : List Binding} {fs : List EmbyFavorite} (h : Placed bs fs)
    {f g : EmbyFavorite} (hf : f ∈ fs) (hg : g ∈ fs) {b c : Binding} (hb : b ∈ bs) (hc : c ∈ bs)
    (hbf : b.id = f.bindingId) (hcg : c.id = g.bindingId) (hi : f.instanceId = g.instanceId)
    (hu : b.remoteUserId = c.remoteUserId) (hitem : f.remoteItemId = g.remoteItemId) : f = g := by
  obtain ⟨b', hb', hbf', hif⟩ := h.bound f hf
  obtain ⟨c', hc', hcg', hig⟩ := h.bound g hg
  cases h.bindingIds.eq hb hb' (hbf.trans hbf'.symm)
  cases h.bindingIds.eq hc hc' (hcg.trans hcg'.symm)
  have hbc : b = c := h.remotes.eq hb hc (Prod.ext (hif.trans (hi.trans hig.symm)) hu)
  refine h.keys.eq hf hg (Prod.ext ?_ hitem)
  exact hbf.symm.trans ((congrArg Binding.id hbc).trans hcg)

theorem Knows.of_places {bs : List Binding} {fs fs' : List EmbyFavorite} {task : ClaimedTask}
    {st : Stage} (hkept : ∀ f ∈ fs, ∃ f' ∈ fs', f'.place = f.place) (h : Knows bs fs task st) :
    Knows bs fs' task st := by
  cases st with
  | sending instanceID id user item desired =>
    obtain ⟨htask, f, hf, hid, hinst, hitem, b, hb, hbf, hu⟩ := h
    obtain ⟨f', hf', hp⟩ := hkept f hf
    exact ⟨htask, f', hf', (EmbyFavorite.id_of_place hp).trans hid,
      (EmbyFavorite.instanceId_of_place hp).trans hinst,
      (EmbyFavorite.remoteItemId_of_place hp).trans hitem,
      b, hb, hbf.trans (EmbyFavorite.bindingId_of_place hp).symm, hu⟩
  | _ => exact h

theorem Placed.rewrite {bs : List Binding} {fs fs' : List EmbyFavorite}
    {change : EmbyFavorite → EmbyFavorite → Prop} {fresh : EmbyFavorite → Prop} (h : Placed bs fs)
    (hr : Rewrite change fresh fs fs')
    (hfresh : ∀ f', fresh f' → ∃ b ∈ bs, b.id = f'.bindingId ∧ b.instanceId = f'.instanceId) :
    Placed bs fs' where
  bindingIds := h.bindingIds
  remotes := h.remotes
  ids := hr.ids
  keys := hr.keys
  bound f' hf' := by
    rcases hr.from_old f' hf' with ⟨f, hf, hp, -⟩ | ⟨hnew, -⟩
    · rw [EmbyFavorite.bindingId_of_place hp, EmbyFavorite.instanceId_of_place hp]
      exact h.bound f hf
    · exact hfresh f' hnew

/-! ## The queue -/

/-- A transaction of the queue pays nothing that is owed. -/
theorem owes_queue (hI : Inv s) {l : QueueStep} {ws : Workers Stage}
    (h : s.toWorkers.queueStep .start Stage.outcome l = some ws) {past : Stage → Bool}
    (hstart : past .start = false) (hend : past (.ended none) = true) {id : UUID}
    (ho : s.Owes past id) : State.Owes { s with toWorkers := ws } past id := by
  obtain ⟨hwork, hrun⟩ := queueStep_work h
  obtain ⟨t, ht, ⟨htype, hid, hopen⟩, hwaits⟩ := ho
  obtain ⟨t', ht', hidt⟩ := hwork.kept t ht
  obtain ⟨t₀, ht₀, ⟨hid', htype', hp'⟩, hdone⟩ := hwork.tasks t' ht'
  cases hI.taskIds.eq ht ht₀ (hidt.symm.trans hid')
  refine ⟨t', ht', ⟨htype'.trans htype, by rw [hp', hid], fun hs => ?_⟩, fun r hr e => ?_⟩
  · rcases hdone hs with hs | ⟨r, hr, hrt, hout⟩
    · exact hopen hs
    · have hst : r.stage = .ended none := by
        cases hstage : r.stage with
        | ended failure => rw [hstage] at hout; cases hout; rfl
        | _ => rw [hstage] at hout; cases hout
      have := hwaits r hr hrt
      rw [hst, hend] at this
      cases this
  · rcases hrun r hr with hr | ⟨hst, -⟩
    · exact hwaits r hr (e.trans hid')
    · rw [hst, hstart]

theorem Kept.queue (hI : Inv s) {l : QueueStep} {ws : Workers Stage}
    (h : s.toWorkers.queueStep .start Stage.outcome l = some ws) {f : EmbyFavorite} {v : Bool}
    (hk : Kept s f v) : Kept { s with toWorkers := ws } f v where
  desired := hk.desired
  pending hp := owes_queue hI h rfl rfl (hk.pending hp)
  remote := hk.remote.imp id (owes_queue hI h rfl rfl)
  mark := by
    have hb : ws.db.bindings = s.db.bindings := (queueStep_work h).1.bindings
    refine hk.mark.imp (fun hm => ?_) (owes_queue hI h rfl rfl)
    unfold State.Marked at *
    rw [hb]
    exact hm

theorem Inv.queue (hI : Inv s) {l : QueueStep} {ws : Workers Stage}
    (h : s.toWorkers.queueStep .start Stage.outcome l = some ws) : Inv { s with toWorkers := ws } := by
  obtain ⟨hwork, hrun⟩ := queueStep_work h
  have hof : ∀ {r : Running Stage} {t : Task}, t ∈ s.db.tasks → r.Of t → ∃ t' ∈ ws.db.tasks, r.Of t' := by
    intro r t ht hr
    obtain ⟨t', ht', hid⟩ := hwork.kept t ht
    obtain ⟨t₀, ht₀, ⟨hid', htype, hp⟩, -⟩ := hwork.tasks t' ht'
    cases hI.taskIds.eq ht ht₀ (hid.symm.trans hid')
    exact ⟨t', ht', hr.1.trans hid'.symm, hr.2.1.trans htype.symm, hr.2.2.trans hp.symm⟩
  refine { taskIds := hwork.ids hI.taskIds, placed := ?_, running := fun r hr => ?_,
           knows := fun r hr => ?_, asked := hI.asked,
           kept := fun f hf v hv => (hI.kept f hf v hv).queue hI h }
  · show Placed ws.db.bindings s.favorites
    rw [hwork.bindings]
    exact hI.placed
  · rcases hrun r hr with hr | ⟨-, t, ht, hr, -⟩
    · obtain ⟨t, ht, hrt⟩ := hI.running r hr
      exact hof ht hrt
    · exact hof ht hr
  · show Knows ws.db.bindings s.favorites r.task r.stage
    rw [hwork.bindings]
    rcases hrun r hr with hr | ⟨hst, -⟩
    · exact hI.knows r hr
    · rw [hst]
      trivial

/-! ## Requests -/

/-- A task is added. -/
theorem Inv.insertTask (hI : Inv s) {t : Task} (hfree : ∀ t' ∈ s.db.tasks, t'.id ≠ t.id) :
    Inv { s with db := { s.db with tasks := s.db.tasks ++ [t] } } := by
  have howes : ∀ {past : Stage → Bool} {id : UUID}, s.Owes past id →
      State.Owes { s with db := { s.db with tasks := s.db.tasks ++ [t] } } past id := by
    rintro past id ⟨t₀, ht₀, h⟩
    exact ⟨t₀, List.mem_append_left _ ht₀, h⟩
  refine { taskIds := ?_, placed := hI.placed, running := fun r hr => ?_, knows := hI.knows
           asked := hI.asked, kept := fun f hf v hv => ?_ }
  · show UniqueBy Task.id (s.db.tasks ++ [t])
    have hu := hI.taskIds
    unfold UniqueBy at *
    rw [List.map_append]
    refine hu.append (by simp) ?_
    simpa [List.disjoint_singleton] using hfree
  · obtain ⟨t₀, ht₀, h⟩ := hI.running r hr
    exact ⟨t₀, List.mem_append_left _ ht₀, h⟩
  · have hk := hI.kept f hf v hv
    exact ⟨hk.desired, fun hp => howes (hk.pending hp), hk.remote.imp id howes, hk.mark.imp id howes⟩

theorem bindingOf_ok {db : Store} {accountID bindingID : UUID} {b : Binding}
    (h : bindingOf db accountID bindingID = .ok b) : b ∈ db.bindings ∧ b.id = bindingID := by
  unfold bindingOf at h
  cases hf : db.bindings.find? fun b => b.id = bindingID && b.accountId = accountID &&
      b.status ≠ .deleted with
  | none => rw [hf] at h; cases h
  | some b' =>
    rw [hf] at h
    cases h
    have := List.find?_some hf
    simp only [Bool.and_eq_true, decide_eq_true_eq] at this
    exact ⟨List.mem_of_find?_eq_some hf, this.1.1⟩

/-- A request writes the value to the row as pending, and adds a task for it. -/
theorem requestFavorite_ok {id taskID : UUID} {now : Time} {r : FavoriteRequest}
    (h : requestFavorite id taskID now r s = .ok s') :
    ∃ favorites favoriteID, ∃ t : Task, s' = { s with
        db := { s.db with tasks := s.db.tasks ++ [t] }, favorites
        asked := s.asked ++ [(favoriteID, r.favorite)] } ∧
      (∀ t' ∈ s.db.tasks, t'.id ≠ t.id) ∧ Serves favoriteID t ∧
      ∃ b ∈ s.db.bindings, ∃ row set,
        upsertFavorite row set s.favorites = .ok (favorites, favoriteID) ∧
        (b.id = row.bindingId ∧ b.instanceId = row.instanceId) ∧
        (row.desiredFavorite = r.favorite ∧ row.syncStatus = .pending) ∧
        ∀ f, (set f).place = f.place ∧ (set f).desiredFavorite = r.favorite ∧
          (set f).syncStatus = .pending := by
  unfold requestFavorite at h
  obtain ⟨b, hb, h⟩ := except_bind_ok h
  obtain ⟨item, -, h⟩ := except_bind_ok h
  obtain ⟨title, -, h⟩ := except_bind_ok h
  obtain ⟨mediaType, -, h⟩ := except_bind_ok h
  obtain ⟨⟨favorites, favoriteID⟩, hup, h⟩ := except_bind_ok h
  obtain ⟨tasks, htasks, h⟩ := except_bind_ok h
  obtain ⟨hfree, t, rfl, hid, htype, hp, hst⟩ := insertTask_ok htasks
  obtain ⟨hmem, hbid⟩ := bindingOf_ok hb
  cases h
  refine ⟨favorites, favoriteID, t, rfl, fun t' ht' => ?_, ⟨htype, by rw [hp], by simp [hst]⟩,
    b, hmem, _, _, hup, ⟨hbid, rfl⟩, ⟨rfl, rfl⟩, fun f => ⟨rfl, rfl, rfl⟩⟩
  rw [hid]
  exact hfree t' ht'

theorem lastAsked_snoc {db : Store} {running : List (Running Stage)} {favorites : List EmbyFavorite}
    {marks : List Mark} {asked : List (UUID × Bool)} {i id : UUID} {v : Bool} :
    State.lastAsked ⟨⟨db, running⟩, favorites, marks, asked ++ [(i, v)]⟩ id =
      if i = id then some v else State.lastAsked ⟨⟨db, running⟩, favorites, marks, asked⟩ id := by
  unfold State.lastAsked
  by_cases h : i = id <;> simp [h, List.filter_append]

theorem Inv.setFavorite (hI : Inv s) {id taskID : UUID} {now : Time} {r : FavoriteRequest}
    (h : requestFavorite id taskID now r s = .ok s') : Inv s' := by
  obtain ⟨favorites, favoriteID, t, rfl, hfree, hserves, b, hb, row, set, hup, hbound, hrow, hset⟩ :=
    requestFavorite_ok h
  have hI' := hI.insertTask hfree
  obtain ⟨hrw, hexists⟩ := upsertFavorite_rewrite _ hI.placed.ids hI.placed.keys
    (fun f => (hset f).1) hup
  -- no handler has the new task yet
  have howes : ∀ past : Stage → Bool, State.Owes
      ⟨⟨{ s.db with tasks := s.db.tasks ++ [t] }, s.running⟩, favorites, s.marks,
        s.asked ++ [(favoriteID, r.favorite)]⟩ past favoriteID := by
    refine fun past => ⟨t, by simp, hserves, fun x hx e => ?_⟩
    obtain ⟨t₀, ht₀, hof⟩ := hI.running x hx
    exact absurd (hof.1.symm.trans e) (hfree t₀ ht₀)
  refine { taskIds := hI'.taskIds, placed := ?_, running := hI'.running
           knows := fun x hx => (hI.knows x hx).of_places hrw.kept, asked := fun i hi => ?_
           kept := fun f' hf' v hv => ?_ }
  · refine hI.placed.rewrite hrw ?_
    rintro f' ⟨rfl, -⟩
    exact ⟨b, hb, hbound⟩
  · rw [lastAsked_snoc] at hi
    by_cases he : favoriteID = i
    · exact he ▸ hexists
    · rw [if_neg he] at hi
      obtain ⟨f, hf, hfi⟩ := hI.asked i hi
      obtain ⟨f', hf', hp⟩ := hrw.kept f hf
      exact ⟨f', hf', (EmbyFavorite.id_of_place hp).trans hfi⟩
  · rw [lastAsked_snoc] at hv
    -- the row of the request, and the others
    have hthis : f'.id = favoriteID → f'.desiredFavorite = r.favorite → Kept
        ⟨⟨{ s.db with tasks := s.db.tasks ++ [t] }, s.running⟩, favorites, s.marks,
          s.asked ++ [(favoriteID, r.favorite)]⟩ f' v := by
      intro he hd
      rw [if_pos he.symm] at hv
      cases hv
      exact ⟨hd, fun _ => he ▸ howes _, Or.inr (he ▸ howes _), Or.inr (he ▸ howes _)⟩
    rcases hrw.from_old f' hf' with ⟨f, hf, hp, hc⟩ | ⟨⟨rfl, he⟩, -⟩
    · rcases hc with ⟨-, he, rfl⟩ | ⟨hne, rfl⟩
      · exact hthis ((EmbyFavorite.id_of_place hp).trans he) (hset f).2.1
      · rw [if_neg (Ne.symm hne)] at hv
        have hk := hI'.kept f' hf v hv
        exact ⟨hk.desired, hk.pending, hk.remote, hk.mark⟩
    · exact hthis he hrow.1

theorem Inv.enqueue (hI : Inv s) {taskID accountID bindingID : UUID} {now : Time}
    (h : enqueueFavoriteSync taskID now accountID bindingID s = .ok s') : Inv s' := by
  unfold enqueueFavoriteSync at h
  obtain ⟨b, -, h⟩ := except_bind_ok h
  simp only at h
  split at h
  · cases h
    exact hI
  · obtain ⟨tasks, htasks, h⟩ := except_bind_ok h
    obtain ⟨hfree, t, rfl, hid, -⟩ := insertTask_ok htasks
    cases h
    refine hI.insertTask fun t' ht' => ?_
    rw [hid]
    exact hfree t' ht'

/-! ## Handlers -/

/-- The handler `n` goes on to the stage `st`. -/
def State.move (s : State) (n : Nat) (r : Running Stage) (st : Stage)
    (favorites : List EmbyFavorite) (marks : List Mark) : State :=
  ⟨⟨s.db, s.running.set n { r with stage := st }⟩, favorites, marks, s.asked⟩

section Move

variable {n : Nat} {r : Running Stage} {st : Stage} {favorites : List EmbyFavorite}
  {marks : List Mark} {f f' : EmbyFavorite} {v : Bool}

/-- A task of the favorite is not the one of a handler for something else. -/
theorem Inv.other_task (hI : Inv s) (hr : r ∈ s.running) {id : UUID}
    (hne : r.task.type = .embyFavorite → r.task.payload.favoriteId ≠ some id) {t : Task}
    (ht : t ∈ s.db.tasks) (hs : Serves id t) : t.id ≠ r.task.id := by
  intro he
  obtain ⟨t', ht', hid, htype, hp⟩ := hI.running r hr
  cases hI.taskIds.eq ht ht' (he.trans hid)
  exact hne (htype.trans hs.1) (hp ▸ hs.2.1)

theorem owes_move {past : Stage → Bool} {id : UUID}
    (hpast : past st = true → ∀ t ∈ s.db.tasks, Serves id t → s.Waits past t → t.id ≠ r.task.id)
    (ho : s.Owes past id) : (s.move n r st favorites marks).Owes past id := by
  obtain ⟨t, ht, hserves, hwaits⟩ := ho
  refine ⟨t, ht, hserves, fun x hx e => ?_⟩
  rcases List.mem_or_eq_of_mem_set hx with hx | rfl
  · exact hwaits x hx e
  · cases hp : past st with
    | false => rfl
    | true => exact absurd e.symm (hpast hp t ht hserves hwaits)

theorem marked_of_place (hp : f'.place = f.place) : s.Marked f' ↔ s.Marked f := by
  unfold State.Marked
  rw [EmbyFavorite.bindingId_of_place hp, EmbyFavorite.instanceId_of_place hp,
    EmbyFavorite.remoteItemId_of_place hp]

theorem Kept.change (hk : Kept s f v) (hp : f'.place = f.place) (hd : f'.desiredFavorite = v)
    (hr : f'.remoteFavorite = v ∨ s.Owes Stage.recorded f.id)
    (hs : f'.syncStatus = .pending → f.syncStatus = .pending) : Kept s f' v := by
  have hid := EmbyFavorite.id_of_place hp
  refine ⟨hd, fun h => hid ▸ hk.pending (hs h), hid ▸ hr, ?_⟩
  rw [hid, marked_of_place hp]
  exact hk.mark

/-- What the handler does leaves the mark of the favorite, and it is not for a task of it. -/
theorem Kept.move (hk : Kept s f v)
    (hmark : (s.move n r st favorites marks).Marked f ↔ s.Marked f)
    (hst : st.sent = true → ∀ t ∈ s.db.tasks, Serves f.id t → t.id ≠ r.task.id) :
    Kept (s.move n r st favorites marks) f v := by
  have hrec : s.Owes Stage.recorded f.id → (s.move n r st favorites marks).Owes Stage.recorded f.id :=
    owes_move fun h t ht hs _ => hst (Stage.sent_of_recorded h) t ht hs
  have hsent : s.Owes Stage.sent f.id → (s.move n r st favorites marks).Owes Stage.sent f.id :=
    owes_move fun h t ht hs _ => hst h t ht hs
  refine ⟨hk.desired, fun h => hrec (hk.pending h), hk.remote.imp id hrec, hk.mark.imp ?_ hsent⟩
  exact fun h => hmark.trans h

/-- The rows of a handler's step, its knowledge and its marks. -/
theorem Inv.move (hI : Inv s) (hr : r ∈ s.running)
    {change : EmbyFavorite → EmbyFavorite → Prop} {fresh : EmbyFavorite → Prop}
    (hrw : Rewrite change fresh s.favorites favorites)
    (hfresh : ∀ f', fresh f' →
      ∃ b ∈ s.db.bindings, b.id = f'.bindingId ∧ b.instanceId = f'.instanceId)
    (hknows : Knows s.db.bindings s.favorites r.task st)
    (hkept : ∀ f ∈ s.favorites, ∀ f', f'.place = f.place → change f f' → ∀ v,
      s.lastAsked f.id = some v → Kept s f v → Kept (s.move n r st favorites marks) f' v) :
    Inv (s.move n r st favorites marks) := by
  refine { taskIds := hI.taskIds, placed := hI.placed.rewrite hrw hfresh, running := fun x hx => ?_
           knows := fun x hx => ?_, asked := fun i hi => ?_, kept := fun f' hf' v hv => ?_ }
  · rcases List.mem_or_eq_of_mem_set hx with hx | rfl
    · exact hI.running x hx
    · exact hI.running r hr
  · rcases List.mem_or_eq_of_mem_set hx with hx | rfl
    · exact (hI.knows x hx).of_places hrw.kept
    · exact hknows.of_places hrw.kept
  · obtain ⟨f, hf, hfi⟩ := hI.asked i hi
    obtain ⟨f', hf', hp⟩ := hrw.kept f hf
    exact ⟨f', hf', (EmbyFavorite.id_of_place hp).trans hfi⟩
  · have hv' : s.lastAsked f'.id = some v := hv
    rcases hrw.from_old f' hf' with ⟨f, hf, hp, hc⟩ | ⟨-, hnew⟩
    · rw [EmbyFavorite.id_of_place hp] at hv'
      exact hkept f hf f' hp hc v hv' (hI.kept f hf v hv')
    · obtain ⟨f, hf, hfi⟩ := hI.asked f'.id (by simp [hv'])
      exact absurd hfi (hnew f hf)

theorem Rewrite.refl {fs : List EmbyFavorite} (hids : UniqueBy EmbyFavorite.id fs)
    (hkeys : UniqueBy EmbyFavorite.key fs) : Rewrite (fun f f' => f' = f) (fun _ => False) fs fs :=
  ⟨hids, hkeys, fun f hf => Or.inl ⟨f, hf, rfl, rfl⟩, fun f hf => ⟨f, hf, rfl⟩⟩

/-- A step that writes nothing and does not have the server accept a value of a favorite. -/
theorem Inv.quiet (hI : Inv s) (hr : r ∈ s.running)
    (hknows : Knows s.db.bindings s.favorites r.task st)
    (hst : st.sent = true → r.task.type ≠ .embyFavorite) :
    Inv (s.move n r st s.favorites s.marks) := by
  refine hI.move hr (.refl hI.placed.ids hI.placed.keys) (fun _ h => h.elim) hknows ?_
  rintro f hf f' - rfl v - hk
  exact hk.move Iff.rfl fun hsent t ht hs => hI.other_task hr (fun he => absurd he (hst hsent)) ht hs

/-- The row is marked as failed. -/
theorem Inv.refused (hI : Inv s) (hr : r ∈ s.running) {id : UUID} {text : Bytes}
    {lastError : String} :
    Inv (s.move n r (.ended (some ⟨text, false⟩)) (updateFavorite id
      (fun f => { f with syncStatus := .failed, lastError := some lastError }) s.favorites) s.marks) := by
  refine hI.move hr (rewrite_update hI.placed.ids hI.placed.keys id fun f => rfl) (fun _ h => h.elim)
    trivial ?_
  intro f hf f' hp hc v _ hk
  have hk' : ∀ favorites, Kept (s.move n r (.ended (some ⟨text, false⟩)) favorites s.marks) f v :=
    fun _ => hk.move Iff.rfl (by simp [Stage.sent])
  rcases hc with ⟨-, rfl⟩ | ⟨-, rfl⟩
  · refine (hk' _).change hp hk.desired ?_ (by simp)
    exact (hk' _).remote
  · exact hk' _

/-- The row is marked as synced; the value is recorded that the row has now. -/
theorem Inv.record (hI : Inv s) (hr : r ∈ s.running) {id : UUID} (hstage : r.stage = .accepted id)
    {failure : Option Failure} :
    Inv (s.move n r (.ended failure) (updateFavorite id (fun f => { f with
      remoteFavorite := f.desiredFavorite, syncStatus := .synced, lastError := none }) s.favorites)
      s.marks) := by
  obtain ⟨htype, hp⟩ : r.task.type = .embyFavorite ∧ r.task.payload.favoriteId = some id := by
    have := hI.knows r hr
    rw [hstage] at this
    exact this
  refine hI.move hr (rewrite_update hI.placed.ids hI.placed.keys id fun f => rfl) (fun _ h => h.elim)
    trivial ?_
  rintro f hf f' hpl (⟨-, rfl⟩ | ⟨hne, rfl⟩) v - hk
  · refine ⟨hk.desired, fun h => (by cases h), Or.inl hk.desired, ?_⟩
    -- a task that waits for the server is another one
    refine hk.mark.imp (fun h => h) (owes_move fun _ t ht _ hwaits he => ?_)
    have := hwaits r hr he.symm
    rw [hstage] at this
    cases this
  · refine hk.move Iff.rfl fun _ t ht hs => hI.other_task hr (fun _ he => ?_) ht hs
    exact hne (Option.some.inj (he.symm.trans hp))

/-- The server carries the value out. -/
theorem Inv.call (hI : Inv s) (hr : r ∈ s.running) {instanceID id : UUID} {user item : String}
    {desired : Bool} (hstage : r.stage = .sending instanceID id user item desired) {ok : Bool}
    (hst : st = if ok then .accepted id else .refused id text) (hheed : HeedsCall s r ok) :
    Inv (s.move n r st s.favorites (setMark (instanceID, user, item) desired s.marks)) := by
  have hknows := hI.knows r hr
  unfold HeedsCall at hheed
  rw [hstage] at hknows hheed
  obtain ⟨⟨htype, hp⟩, g, hg, hgid, hginst, hgitem, b, hb, hbg, hbu⟩ := hknows
  have hsent : st.sent = ok := by
    rw [hst]
    cases ok <;> rfl
  have hrec : st.recorded = false := by
    rw [hst]
    cases ok <;> rfl
  refine hI.move hr (.refl hI.placed.ids hI.placed.keys) (fun _ h => h.elim) ?_ ?_
  · rw [hst]
    cases ok <;> exact ⟨htype, hp⟩
  rintro f hf f' - rfl v - hk
  have hmark : ∀ c ∈ s.db.bindings, c.id = f'.bindingId →
      ((f'.instanceId, c.remoteUserId, f'.remoteItemId) = (instanceID, user, item) ↔ f' = g) := by
    intro c hc hcf
    constructor
    · intro he
      simp only [Prod.mk.injEq] at he
      exact hI.placed.eq_of_mark hf hg hc hb hcf hbg (he.1.trans hginst.symm)
        (he.2.1.trans hbu.symm) (he.2.2.trans hgitem.symm)
    · rintro rfl
      cases hI.placed.bindingIds.eq hc hb (hcf.trans hbg.symm)
      rw [hginst, hbu, hgitem]
  by_cases hfg : f' = g
  · -- the favorite itself
    subst hfg
    refine ⟨hk.desired, fun h => owes_move (by simp [hrec]) (hk.pending h),
      hk.remote.imp (fun h => h) (owes_move (by simp [hrec])), ?_⟩
    rcases hheed with hd | ⟨t, ht, ⟨hserves, hwaits⟩, hother⟩
    · refine Or.inl ⟨fun ⟨c, hc, hcf, hm⟩ => ?_, fun hv => ⟨b, hb, hbg, ?_⟩⟩
      · rw [show (s.move n r st s.favorites (setMark (instanceID, user, item) desired s.marks)).marks =
          setMark (instanceID, user, item) desired s.marks from rfl, mem_setMark,
          if_pos ((hmark c hc hcf).2 rfl)] at hm
        rw [← hk.desired, hd f' hf hgid, hm]
      · rw [show (s.move n r st s.favorites (setMark (instanceID, user, item) desired s.marks)).marks =
          setMark (instanceID, user, item) desired s.marks from rfl, mem_setMark,
          if_pos ((hmark b hb hbg).2 rfl), ← hd f' hf hgid, hk.desired, hv]
    · refine Or.inr ⟨t, ht, hgid ▸ hserves, fun x hx e => ?_⟩
      rcases List.mem_or_eq_of_mem_set hx with hx | rfl
      · exact hwaits x hx e
      · cases hok : ok with
        | false => exact hsent.trans hok
        | true => exact absurd e.symm (hother hok)
  · -- a favorite with another mark
    refine hk.move ?_ fun _ t ht hs => hI.other_task hr (fun _ he => hfg ?_) ht hs
    · unfold State.Marked
      refine exists_congr fun c => and_congr_right fun hc => and_congr_right fun hcf => ?_
      rw [show (s.move n r st s.favorites (setMark (instanceID, user, item) desired s.marks)).marks =
        setMark (instanceID, user, item) desired s.marks from rfl, mem_setMark,
        if_neg fun he => hfg ((hmark c hc hcf).1 he)]
    · exact hI.placed.ids.eq hf hg ((Option.some.inj (he.symm.trans hp)).trans hgid.symm)

/-- A row is written that the server lists, or does not. -/
theorem Inv.write (hI : Inv s) (hr : r ∈ s.running)
    {fresh : EmbyFavorite → Prop} {change : EmbyFavorite → EmbyFavorite → Prop}
    (htype : r.task.type ≠ .embyFavorite) (hheed : HeedsWrite s r)
    (hrw : Rewrite change fresh s.favorites favorites)
    (hchange : ∀ f f', change f f' → f' = f ∨ ∃ listed ∈ r.stage.listed f,
      f'.desiredFavorite = (f.synced listed).desiredFavorite ∧
        f'.remoteFavorite = listed ∧ (f'.syncStatus = .pending → f.syncStatus = .pending))
    (hfresh : ∀ f', fresh f' →
      ∃ b ∈ s.db.bindings, b.id = f'.bindingId ∧ b.instanceId = f'.instanceId)
    (hknows : Knows s.db.bindings s.favorites r.task st) :
    Inv (s.move n r st favorites s.marks) := by
  refine hI.move hr hrw hfresh hknows fun f hf f' hp hc v hv hk => ?_
  have hk' : Kept (s.move n r st favorites s.marks) f v :=
    hk.move Iff.rfl fun _ t ht hs => hI.other_task hr (fun he => absurd he htype) ht hs
  rcases hchange f f' hc with rfl | ⟨listed, hlisted, hd, hrem, hs⟩
  · exact hk'
  unfold EmbyFavorite.synced at hd
  rcases hheed f hf (by simp [hv]) listed hlisted with hpend | heq
  · rw [if_pos hpend] at hd
    exact hk'.change hp (hd.trans hk.desired) (Or.inr (hk'.pending hpend)) hs
  · have hlv : listed = v := heq.symm.trans hk.desired
    refine hk'.change hp ?_ (Or.inl (hrem.trans hlv)) hs
    split at hd
    · exact hd.trans hk.desired
    · exact hd.trans hlv

end Move

/-! ## Runs -/

/-- A task that starts knows its favorite or its binding. -/
theorem startTask_knows (s : State) (a : Answer) (task : ClaimedTask) :
    Knows s.db.bindings s.favorites task (startTask a task s) ∧
      ((startTask a task s).sent = true → task.type ≠ .embyFavorite) := by
  unfold startTask
  cases instanceOf a.toAnswer task s.db with
  | error failure => exact ⟨trivial, by simp [Stage.sent]⟩
  | ok instanceID =>
    cases htype : task.type with
    | embyFavorite =>
      simp only
      unfold loadFavorite
      split
      · exact ⟨trivial, by simp [Stage.sent]⟩
      · next id hid =>
        split
        · exact ⟨trivial, by simp [Stage.sent]⟩
        · next f hf =>
          have hfound := List.find?_some hf
          simp only [Bool.and_eq_true, decide_eq_true_eq] at hfound
          split
          · exact ⟨trivial, by simp [Stage.sent]⟩
          · next b hb =>
            exact ⟨⟨⟨htype, hid⟩, f, List.mem_of_find?_eq_some hf, hfound.1, hfound.2, rfl, b,
              List.mem_of_find?_eq_some hb, by simpa using List.find?_some hb, rfl⟩,
              by simp [Stage.sent]⟩
    | embyFavoriteSync =>
      simp only
      unfold loadBinding
      split
      · exact ⟨trivial, by simp [Stage.sent]⟩
      · next id hid =>
        split
        · exact ⟨trivial, by simp [Stage.sent]⟩
        · next b hb =>
          have hfound := List.find?_some hb
          simp only [Bool.and_eq_true, decide_eq_true_eq] at hfound
          exact ⟨⟨htype, b, List.mem_of_find?_eq_some hb, hfound.1, hfound.2⟩,
            by simp [Stage.sent]⟩
    | _ => exact ⟨trivial, by simp⟩

theorem varchar_inj {n : Nat} {x y z : String} (h : varchar n x = .ok y) (h' : varchar n x = .ok z) :
    y = z := by
  rw [h] at h'
  exact Except.ok.inj h'

/-- The row of a listed item. -/
theorem writeItem_rewrite (hI : Inv s) {a : Answer} {instanceID bindingID accountID : UUID}
    {item : Item} (items : List Item) (seen : List String) (hid : item.id ≠ "")
    (htitle : item.title ≠ "") {favorites : List EmbyFavorite}
    (h : writeItem a instanceID bindingID accountID item s.favorites = .ok favorites) :
    ∃ change, ∃ fresh : EmbyFavorite → Prop, Rewrite change fresh s.favorites favorites ∧
      (∀ f f', change f f' → f' = f ∨ ∃ listed ∈
          (Stage.writing instanceID bindingID accountID (item :: items) seen).listed f,
        f'.desiredFavorite = (f.synced listed).desiredFavorite ∧
          f'.remoteFavorite = listed ∧ (f'.syncStatus = .pending → f.syncStatus = .pending)) ∧
      ∀ f', fresh f' → f'.bindingId = bindingID ∧ f'.instanceId = instanceID := by
  unfold writeItem at h
  obtain ⟨id, hitem, h⟩ := except_bind_ok h
  obtain ⟨title, -, h⟩ := except_bind_ok h
  obtain ⟨mediaType, -, h⟩ := except_bind_ok h
  obtain ⟨imageTag, -, h⟩ := except_bind_ok h
  obtain ⟨⟨favorites', favoriteID⟩, hup, h⟩ := except_bind_ok h
  cases h
  obtain ⟨hrw, -⟩ := upsertFavorite_rewrite (fun f => { f.synced true with
      title, mediaType, imageTag
      lastError := if f.syncStatus = .pending then f.lastError else none })
    hI.placed.ids hI.placed.keys (fun f => f.synced_place true) hup
  refine ⟨_, _, hrw, fun f f' hc => ?_, fun f' hf' => by rw [hf'.1]; exact ⟨rfl, rfl⟩⟩
  rcases hc with ⟨hkey, -, rfl⟩ | ⟨-, rfl⟩
  · refine Or.inr ⟨true, ?_, rfl, ?_, fun hp => ?_⟩
    · have hb : f.bindingId = bindingID := congrArg Prod.fst hkey
      have hi : f.remoteItemId = id := congrArg Prod.snd hkey
      simp [Stage.listed, hid, htitle, hb, hi, hitem]
    · simp only [EmbyFavorite.synced]
      split <;> rfl
    · simp only [EmbyFavorite.synced] at hp
      split at hp
      · assumption
      · cases hp
  · exact Or.inl rfl

/-- **A step of a handler** keeps the invariant. -/
theorem Inv.advance (hI : Inv s) {n : Nat} {r : Running Stage} (hn : s.running[n]? = some r)
    {a : Answer} {st : Stage} (h : Favorites.advance a r.task s r.stage = some (st, s'))
    (hheed : a.reply.effect = true → HeedsCall s r a.ok ∧ HeedsWrite s r) :
    Inv (s.move n r st s'.favorites s'.marks) := by
  have hr := List.mem_of_getElem? hn
  have hknows := hI.knows r hr
  have hok : a.reply.effect ≠ true → a.ok = false := fun he => Queue.Answer.not_ok he
  cases hstage : r.stage with
  | start =>
    rw [hstage] at h
    cases h
    obtain ⟨hk, hs⟩ := startTask_knows s a r.task
    exact hI.quiet hr hk hs
  | sending instanceID id user item desired =>
    rw [hstage] at h hknows
    simp only [Favorites.advance] at h
    split at h
    · cases h
      exact hI.quiet hr hknows.1 (by simp [Stage.sent])
    · obtain ⟨hst, hs'⟩ := Prod.mk.inj (Option.some.inj h)
      by_cases he : a.reply.effect = true
      · rw [if_pos he] at hs'
        subst hs'
        exact hI.call hr hstage hst.symm (hheed he).1
      · rw [if_neg he] at hs'
        subst hs'
        rw [hok he] at hst
        subst hst
        exact hI.quiet hr hknows.1 (by simp [Stage.sent])
  | refused id text =>
    rw [hstage] at h
    simp only [Favorites.advance] at h
    obtain ⟨hst, hs'⟩ := Prod.mk.inj (Option.some.inj h)
    subst hst
    split at hs'
    · subst hs'
      exact hI.refused hr
    · subst hs'
      exact hI.quiet hr trivial (by simp [Stage.sent])
  | accepted id =>
    rw [hstage] at h
    simp only [Favorites.advance] at h
    obtain ⟨hst, hs'⟩ := Prod.mk.inj (Option.some.inj h)
    subst hst
    by_cases he : a.reply.effect = true
    · rw [if_pos he] at hs'
      subst hs'
      exact hI.record hr hstage
    · rw [if_neg he] at hs'
      subst hs'
      exact hI.quiet hr trivial (by simp [Stage.sent, hok he])
  | listing instanceID bindingID accountID user =>
    rw [hstage] at h hknows
    simp only [Favorites.advance] at h
    split at h
    · cases h
      exact hI.quiet hr trivial (by simp [Stage.sent])
    · split at h
      · cases h
        exact hI.quiet hr hknows (by simp [Stage.sent])
      · cases h
  | writing instanceID bindingID accountID items seen =>
    rw [hstage] at h hknows
    have htype : r.task.type ≠ .embyFavorite := by rw [hknows.1]; simp
    cases items with
    | nil =>
      simp only [Favorites.advance] at h
      obtain ⟨hst, hs'⟩ := Prod.mk.inj (Option.some.inj h)
      subst hst
      by_cases he : a.reply.effect = true
      · rw [if_pos he] at hs'
        subst hs'
        refine hI.write hr htype (hheed he).2 (rewrite_sweep hI.placed.ids hI.placed.keys bindingID
          seen) ?_ (fun _ h => h.elim) trivial
        rintro f f' (⟨hf, rfl⟩ | rfl)
        · refine Or.inr ⟨false, by simp [hstage, Stage.listed, hf], rfl, ?_, fun hp => ?_⟩
          · unfold EmbyFavorite.synced
            split <;> rfl
          · unfold EmbyFavorite.synced at hp
            split at hp
            · assumption
            · cases hp
        · exact Or.inl rfl
      · rw [if_neg he] at hs'
        subst hs'
        exact hI.quiet hr trivial fun _ => htype
    | cons item items =>
      simp only [Favorites.advance] at h
      split at h
      · cases h
        exact hI.quiet hr hknows (by simp [Stage.sent])
      · next hblank =>
        split at h
        · cases h
          exact hI.quiet hr trivial (by simp [Stage.sent])
        · next favorites hw =>
          obtain ⟨hst, hs'⟩ := Prod.mk.inj (Option.some.inj h)
          have hk : Knows s.db.bindings s.favorites r.task st := by
            subst hst
            split
            · exact hknows
            · trivial
          by_cases he : a.reply.effect = true
          · rw [if_pos he] at hs'
            subst hs'
            obtain ⟨b, hb, hbid, hbi⟩ := hknows.2
            obtain ⟨change, fresh, hrw, hchange, hfresh⟩ := writeItem_rewrite hI items
              seen (fun h => hblank (Or.inl h)) (fun h => hblank (Or.inr h)) hw
            refine hI.write hr htype (hheed he).2 hrw (hstage ▸ hchange) (fun f' hf' => ?_) hk
            obtain ⟨hfb, hfi⟩ := hfresh f' hf'
            exact ⟨b, hb, hbid.trans hfb.symm, hbi.trans hfi.symm⟩
          · rw [if_neg he] at hs'
            subst hs'
            exact hI.quiet hr hk fun _ => htype
  | ended failure =>
    rw [hstage] at h
    cases h

/-- A handler writes neither the tasks nor the history. -/
theorem advance_frame {a : Answer} {task : ClaimedTask} {st st' : Stage}
    (h : Favorites.advance a task s st = some (st', s')) : s'.db = s.db ∧ s'.asked = s.asked := by
  unfold Favorites.advance at h
  split at h <;> (try split at h) <;> (try split at h) <;> cases h <;> (try split) <;> exact ⟨rfl, rfl⟩

/-- **One step** keeps the invariant. -/
theorem step_inv {l : Label} (hl : Heedful l s) (h : step l s = some s') (hI : Inv s) : Inv s' := by
  cases l with
  | queue l =>
    obtain ⟨ws, hws, rfl⟩ := Option.map_eq_some_iff.1 h
    exact hI.queue hws
  | setFavorite id taskID now r =>
    cases h
    cases hset : setFavorite id taskID now r s with
    | error x => exact hI
    | ok s' =>
      unfold setFavorite at hset
      split at hset
      · cases hset
      · exact hI.setFavorite hset
  | enqueueFavoriteSync taskID now accountID bindingID =>
    cases h
    cases henq : enqueueFavoriteSync taskID now accountID bindingID s with
    | error x => exact hI
    | ok s' => exact hI.enqueue henq
  | advance n a =>
    simp only [step] at h
    split at h
    · cases h
    · next r hr =>
      obtain ⟨⟨st, s₁⟩, hadv, rfl⟩ := Option.map_eq_some_iff.1 h
      obtain ⟨hdb, hasked⟩ := advance_frame hadv
      have hmove : ({ s₁ with running := s.running.set n { r with stage := st } } : State) =
          s.move n r st s₁.favorites s₁.marks := by
        unfold State.move
        rw [← hdb, ← hasked]
      rw [hmove]
      exact hI.advance hr hadv (hl r hr)

/-- **A favorite ends as the user last asked**: in a run whose steps heed the requests, once the tasks
of the favorites have succeeded, the row and the mark of a favorite have the value of the last request
for it. -/
theorem favorites_as_asked {s₀ : State} (h₀ : Fresh s₀) (h : Runs step Heedful s₀ s)
    (hdone : ∀ t ∈ s.db.tasks, t.type = .embyFavorite → t.status = .succeeded) {id : UUID} {v : Bool}
    (hv : s.lastAsked id = some v) :
    ∃ f ∈ s.favorites, f.id = id ∧ f.desiredFavorite = v ∧ f.remoteFavorite = v ∧
      (s.Marked f ↔ v = true) := by
  have hI : Inv s := h.keeps h₀.inv fun _ _ _ => step_inv
  obtain ⟨f, hf, rfl⟩ := hI.asked id (by simp [hv])
  have hk := hI.kept f hf v hv
  have hpaid : ∀ past, ¬s.Owes past f.id := by
    rintro past ⟨t, ht, ⟨htype, -, hopen⟩, -⟩
    exact hopen (hdone t ht htype)
  exact ⟨f, hf, rfl, hk.desired, hk.remote.resolve_right (hpaid _), hk.mark.resolve_right (hpaid _)⟩

/-! ## Two runs -/

def worker (name : String) : Worker := ⟨name, 60000000000⟩

/-- An account with a binding. -/
def oneBinding : State where
  db := { instances := [⟨idOf 'c', true⟩]
          bindings := [{ id := idOf 'b', accountId := idOf 'a', instanceId := idOf 'c'
                         remoteUserId := "u", remoteUsername := "name", status := .active
                         origin := .manualClaim, isPrimary := true, remoteDisabled := none }] }

def ask (favorite : Bool) : Label :=
  .setFavorite (idOf 'f') (if favorite then idOf '1' else idOf '2') (if favorite then 1 else 2)
    { accountID := idOf 'a', bindingID := idOf 'b', remoteItemID := "item", title := "title", favorite }

def goOn (n : Nat) : Label := .advance n { newID := idOf 'd' }

/-- The value is asked to be true and then false, while the first task is under way. -/
def twoRequests : List Label :=
  [ask true, .queue (.claim (worker "p") 1 (idOf '1')), goOn 0, ask false, goOn 0, goOn 0,
    .queue (.settle 0 2 0), .queue (.claim (worker "p") 2 (idOf '2')), goOn 0, goOn 0, goOn 0,
    .queue (.settle 0 3 0)]

theorem oneBinding_fresh : Fresh oneBinding where
  taskIds := List.nodup_nil
  placed := ⟨List.nodup_singleton _, List.nodup_singleton _, List.nodup_nil, List.nodup_nil,
    fun f hf => by cases hf⟩
  idle := rfl
  silent := rfl

theorem favorites_as_asked_twoRequests :
    ∃ s, Runs step Heedful oneBinding s ∧
      ∃ f ∈ s.favorites, f.id = idOf 'f' ∧ f.desiredFavorite = false ∧ f.remoteFavorite = false ∧
        (s.Marked f ↔ false = true) := by
  obtain ⟨s, hs, hp⟩ := play_any step Heedful twoRequests oneBinding
    (fun s => s.lastAsked (idOf 'f') = some false &&
      s.db.tasks.all (·.status = .succeeded)) (by decide +kernel)
  simp only [Bool.and_eq_true, decide_eq_true_eq, List.all_eq_true] at hp
  exact ⟨s, hs, favorites_as_asked oneBinding_fresh hs (fun t ht _ => hp.2 t ht) hp.1⟩

/-- The marks are listed before the value is sent, and written after it was recorded. -/
def lateSync : List Label :=
  [ask true, .enqueueFavoriteSync (idOf '2') 1 (idOf 'a') (idOf 'b'),
    .queue (.claim (worker "p") 1 (idOf '1')), .queue (.claim (worker "q") 1 (idOf '2')), goOn 1,
    goOn 1, goOn 0, goOn 0, goOn 0, .queue (.settle 0 2 0), goOn 0, .queue (.settle 0 2 0)]

/-- All tasks have succeeded and no handler runs; the favorite was asked to be true and is marked on the
server, and its row has it false. -/
theorem favorite_lost :
    ∃ s, Fresh oneBinding ∧ Runs step anyStep oneBinding s ∧ s.running.length = 0 ∧
      (∀ t ∈ s.db.tasks, t.status = .succeeded) ∧ s.lastAsked (idOf 'f') = some true ∧
      ∃ f ∈ s.favorites, f.id = idOf 'f' ∧ f.desiredFavorite = false ∧ f.remoteFavorite = false ∧
        s.Marked f := by
  obtain ⟨s, hs, hp⟩ := play_any step anyStep lateSync oneBinding
    (fun s => decide (s.running.length = 0 ∧
      (∀ t ∈ s.db.tasks, t.status = .succeeded) ∧ s.lastAsked (idOf 'f') = some true ∧
      ∃ f ∈ s.favorites, f.id = idOf 'f' ∧ f.desiredFavorite = false ∧ f.remoteFavorite = false ∧
        s.Marked f)) (by decide +kernel)
  exact ⟨s, oneBinding_fresh, hs, of_decide_eq_true hp⟩

end Sakura.Favorites
