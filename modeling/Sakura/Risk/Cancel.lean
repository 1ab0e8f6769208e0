/-
  A canceled action is not executed.

  * `Stage.past`: the action of a handler that is past its guarded UPDATE;
  * `Heedful`: a restriction on the steps;
  * `Actions`: what a step does to the actions, with a rule for each statement;
  * `Canceled`, `step_canceled`: a canceled action, and what one step leaves of it;
  * `canceled_stays`.
-/
import Sakura.Risk.Service

namespace Sakura.Risk

open Txn Queue

/-! ## Steps that heed -/

/-- The action of a handler past its guarded UPDATE. -/
def Stage.past : Stage → Option UUID
  | .guarded a | .listed a _ | .prepared a _ _ | .applied a _ | .stored a _ => some a.id
  | _ => none

/-- A task whose failure is a failure of the action. -/
def Concerns (task : ClaimedTask) (actionID : UUID) : Prop :=
  (task.type = .riskAction ∨ task.type = .riskRevert) ∧ task.payload.actionId = some actionID

instance (task : ClaimedTask) (actionID : UUID) : Decidable (Concerns task actionID) :=
  inferInstanceAs (Decidable (_ ∧ _))

/-- No handler fails whose action is canceled, and an action is canceled only while none of its handlers
is past the guarded UPDATE. -/
def Heedful : Label → State → Prop
  | .queue (.settle n _ _), s => ∀ r ∈ s.running[n]?, (∃ f ∈ r.stage.outcome, f.isSome) →
      ∀ a ∈ s.db.riskActions, Concerns r.task a.id → a.status ≠ .canceled
  | .markRiskFalsePositive _ _ eventID _ _, s => ∀ a ∈ latestAction s.db eventID,
      RiskAction.cancelable a → ∀ r ∈ s.running, r.stage.past ≠ some a.id
  | _, _ => True

instance (l : Label) (s : State) : Decidable (Heedful l s) := by
  unfold Heedful; split <;> infer_instance

/-! ## Actions -/

/-- The actions `as'` are those of `as`; only those that `touched` holds of have changed, and none of
these was canceled now. -/
structure Actions (touched : UUID → Prop) (as as' : List RiskAction) : Prop where
  from_old : ∀ a' ∈ as', ∃ a ∈ as, a'.id = a.id ∧
    (a' = a ∨ touched a.id ∧ (a'.status = .canceled → a.status = .canceled))
  kept : ∀ a ∈ as, ∃ a' ∈ as', a'.id = a.id

section Actions

variable {touched touched' : UUID → Prop} {as as' as'' : List RiskAction}

theorem Actions.refl (touched : UUID → Prop) (as : List RiskAction) : Actions touched as as :=
  ⟨fun a ha => ⟨a, ha, rfl, Or.inl rfl⟩, fun a ha => ⟨a, ha, rfl⟩⟩

theorem Actions.trans (h : Actions touched as as') (h' : Actions touched as' as'') :
    Actions touched as as'' where
  from_old a'' ha'' := by
    obtain ⟨a', ha', hid', hc'⟩ := h'.from_old a'' ha''
    obtain ⟨a, ha, hid, hc⟩ := h.from_old a' ha'
    refine ⟨a, ha, hid'.trans hid, ?_⟩
    rcases hc' with rfl | ⟨ht, hst⟩
    · exact hc
    · refine Or.inr ⟨hid ▸ ht, fun h => ?_⟩
      rcases hc with rfl | ⟨-, hst'⟩
      · exact hst h
      · exact hst' (hst h)
  kept a ha := by
    obtain ⟨a', ha', hid⟩ := h.kept a ha
    obtain ⟨a'', ha'', hid'⟩ := h'.kept a' ha'
    exact ⟨a'', ha'', hid'.trans hid⟩

theorem Actions.mono (ht : ∀ id, touched id → touched' id) (h : Actions touched as as') :
    Actions touched' as as' where
  from_old a' ha' := by
    obtain ⟨a, ha, hid, hc⟩ := h.from_old a' ha'
    exact ⟨a, ha, hid, hc.imp (fun h => h) fun hc => ⟨ht _ hc.1, hc.2⟩⟩
  kept := h.kept

/-- An UPDATE of one action. -/
theorem Actions.update {db : Store} {id : UUID} {p : RiskAction → Bool}
    {set : RiskAction → RiskAction} (hid : ∀ a, (set a).id = a.id)
    (hst : ∀ a ∈ db.riskActions, a.id = id → p a →
      touched id ∧ ((set a).status = .canceled → a.status = .canceled)) :
    Actions touched db.riskActions (updateAction id p set db).riskActions where
  from_old a' ha' := by
    obtain ⟨a, ha, rfl⟩ := List.mem_map.1 ha'
    refine ⟨a, ha, ?_⟩
    split
    · next h =>
      simp only [Bool.and_eq_true, decide_eq_true_eq] at h
      obtain ⟨ht, hs⟩ := hst a ha h.1 h.2
      exact ⟨hid a, Or.inr ⟨h.1.symm ▸ ht, hs⟩⟩
    · exact ⟨rfl, Or.inl rfl⟩
  kept a ha := by
    refine ⟨_, List.mem_map.2 ⟨a, ha, rfl⟩, ?_⟩
    split
    · exact hid a
    · rfl

/-- A version of one action. -/
theorem Actions.version {db : Store} {a a' : RiskAction} (ha : a ∈ db.riskActions)
    (hid : a'.id = a.id) (ht : touched a.id) (hst : a'.status = .canceled → a.status = .canceled) :
    Actions touched db.riskActions (db.overlay { riskActions := [a'] }).riskActions where
  from_old x hx := by
    rcases mem_put.1 hx with ⟨hx, -⟩ | rfl
    · exact ⟨x, hx, rfl, Or.inl rfl⟩
    · exact ⟨a, ha, hid, Or.inr ⟨ht, hst⟩⟩
  kept x hx := by
    by_cases he : x.id = a'.id
    · exact ⟨a', mem_put.2 (Or.inr rfl), he.symm⟩
    · exact ⟨x, mem_put.2 (Or.inl ⟨hx, he⟩), rfl⟩

theorem Actions.aside {db : Store} {δ : Queue.Versions} (h : δ.riskActions = []) :
    Actions touched db.riskActions (db.overlay δ).riskActions := by
  rw [show (db.overlay δ).riskActions = db.riskActions by simp [Store.overlay, h]]
  exact .refl _ _

end Actions

/-! ## The queue -/

section Queue

variable {touched : UUID → Prop} {w : Worker} {now : Time} {entry : Nat} {task : ClaimedTask}

/-- The statements of a transaction of the queue. -/
abbrev Acts (touched : UUID → Prop) : Store → Effect Store Queue.Lock → Prop :=
  fun v e => Actions touched v.riskActions (e.write v).riskActions

theorem claim_acts {pick : UUID} : (claim w now pick).Effects (Acts touched) := by
  unfold claim
  refine (Rows.statements_lockRow fun v _ => .refl _ _).effects.bind fun o => ?_
  cases o with
  | none => exact Prog.effects_pure
  | some t =>
    refine (Rows.statements_updateRow (fun v _ => .refl _ _)
      fun v t _ _ => .aside rfl).effects.bind fun _ => ?_
    exact (claimRequest_statements (fun v _ => .refl _ _) fun _ _ _ => .aside rfl).effects.bind
      fun _ => Prog.effects_publish.bind fun _ => Prog.effects_pure

theorem keepLease_acts {taskID : UUID} : (keepLease w now taskID).Effects (Acts touched) := by
  unfold keepLease
  exact (Rows.statements_updateRow (fun v _ => .refl _ _) fun _ _ _ _ => .aside rfl).effects.bind
    fun _ => Prog.effects_publish.bind fun _ => Prog.effects_pure

theorem finish_acts : (finish w now task).Effects (Acts touched) := by
  unfold finish
  exact (Rows.statements_updateRow (fun v _ => .refl _ _) fun _ _ _ _ => .aside rfl).effects.bind
    fun _ => Prog.effects_publish

theorem retryTask_acts {id : UUID} : (retryTask now id).Effects (Acts touched) := by
  unfold retryTask
  refine (Rows.statements_updateRow (fun v _ => .refl _ _) fun _ _ _ _ => .aside rfl).effects.bind
    fun _ => Prog.statements_check.effects.bind fun _ => ?_
  exact (Rows.statements_updateRow (fun v _ => .refl _ _) fun _ _ _ _ => .aside rfl).effects.bind
    fun _ => Prog.effects_publish

theorem failAction_acts {status : TaskStatus} {message : Bytes} {actionStatus : ActionStatus}
    {timelineType : String} (hst : actionStatus ≠ .canceled)
    (ht : ∀ id, task.payload.actionId = some id → touched id) :
    (failAction w entry task status message actionStatus timelineType).Statements (Acts touched) := by
  unfold failAction
  cases hid : task.payload.actionId with
  | none => trivial
  | some id =>
    refine (storeError_statements (fun v _ => .refl _ _) fun text v a ha hp => ?_).bind fun _ => ?_
    · have hid' : a.id = id := of_decide_eq_true hp
      exact .version ha rfl (hid' ▸ ht id hid) fun h => absurd h hst
    · unfold insertTimeline
      cases storedText 1000 message with
      | none => trivial
      | some text =>
        refine Prog.statements_exec fun v => ?_
        split
        · exact .refl _ _
        · unfold Rows.inserted
          split
          · exact .refl _ _
          · exact .aside rfl

/-- A failure is one of the action of its task. -/
theorem fail_acts {failure : Failure} :
    (fail w now entry task failure).Effects (Acts (Concerns task)) := by
  unfold fail
  refine (storeError_statements (fun v _ => .refl _ _) fun _ _ _ _ _ => .aside rfl).effects.bind
    fun _ => ?_
  refine Prog.Effects.bind ?_ fun _ => Prog.effects_publish
  refine Prog.Statements.effects ?_
  unfold failDomain
  cases htype : task.type with
  | embyProvision => exact storeError_statements (fun v _ => .refl _ _) fun _ _ _ _ _ => .aside rfl
  | riskAction => exact failAction_acts (by simp) fun id hid => ⟨Or.inl htype, hid⟩
  | riskRevert => exact failAction_acts (by simp) fun id hid => ⟨Or.inr htype, hid⟩
  | moviepilotSubmit =>
    show (failJob task _).Statements _
    unfold failJob
    cases task.payload.moviepilotJobId with
    | none => trivial
    | some id => exact storeError_statements (fun v _ => .refl _ _) fun _ _ _ _ _ => .aside rfl
  | mediaMatch =>
    show (failMatch now task _).Statements _
    unfold failMatch
    split
    · exact storeError_statements (fun v _ => .refl _ _) fun _ _ _ _ _ => .aside rfl
    · trivial
  | _ => trivial

theorem acts_alone {ε χ α : Type} {p : Prog Queue.Site Store Queue.Lock ε χ α} (h : p.Effects (Acts touched))
    (db : Store) : Actions touched db.riskActions (p.alone db).1.riskActions :=
  Prog.alone_rel (R := fun v v' => Actions touched v.riskActions v'.riskActions)
    (fun _ => .refl _ _) (fun _ _ _ => .trans) h db

/-- A step of the queue changes the action of a task that fails. -/
theorem queueStep_acts {l : QueueStep} {s s' : Workers Stage}
    (h : s.queueStep .start Stage.outcome l = some s') :
    Actions (fun id => ∃ n now entry, l = .settle n now entry ∧ ∃ r ∈ s.running[n]?,
      (∃ f ∈ r.stage.outcome, f.isSome) ∧ Concerns r.task id) s.db.riskActions s'.db.riskActions := by
  cases l with
  | claim w now pick =>
    simp only [Workers.queueStep] at h
    split at h
    · next db task hc =>
      cases h
      rw [show db = ((claim w now pick).alone s.db).1 by rw [hc]]
      exact acts_alone claim_acts _
    · cases h
  | keepLease w now id =>
    cases h
    exact acts_alone keepLease_acts _
  | retryTask now id =>
    cases h
    exact acts_alone retryTask_acts _
  | settle n now entry =>
    simp only [Workers.queueStep] at h
    split at h
    · cases h
    · next r hr =>
      split at h
      · cases h
      · cases h
        exact acts_alone finish_acts _
      · next failure ho =>
        cases h
        exact (acts_alone fail_acts _).mono fun id hid =>
          ⟨n, now, entry, rfl, r, hr, ⟨_, ho, rfl⟩, hid⟩
  | crash n =>
    cases h
    exact .refl _ _

end Queue

/-! ## Canceled actions -/

/-- The action is canceled, and no handler of it is past its guarded UPDATE. -/
structure Canceled (s : State) (k : UUID) : Prop where
  some_row : ∃ a ∈ s.db.riskActions, a.id = k
  all_rows : ∀ a ∈ s.db.riskActions, a.id = k → a.status = .canceled
  none_past : ∀ r ∈ s.running, r.stage.past ≠ some k

variable {s s' : State} {k : UUID}

/-- An action that is not touched stays canceled. -/
theorem Canceled.of_actions (h : Canceled s k) {touched : UUID → Prop}
    (ha : Actions touched s.db.riskActions s'.db.riskActions) (ht : ¬touched k)
    (hrun : ∀ r ∈ s'.running, r.stage.past = some k → ∃ r' ∈ s.running, r'.stage.past = some k) :
    Canceled s' k where
  some_row := by
    obtain ⟨a, ha', hid⟩ := h.some_row
    obtain ⟨a', ha'', hid'⟩ := ha.kept a ha'
    exact ⟨a', ha'', hid'.trans hid⟩
  all_rows a' ha' hid := by
    obtain ⟨a, ha, hid', hc⟩ := ha.from_old a' ha'
    rcases hc with rfl | ⟨hk, -⟩
    · exact h.all_rows a' ha hid
    · exact absurd (hid'.symm.trans hid ▸ hk) ht
  none_past r hr hp := by
    obtain ⟨r', hr', hp'⟩ := hrun r hr hp
    exact h.none_past r' hr' hp'

/-- What a step of a handler does: past the guarded UPDATE it touches its own action, before it only one
that is not canceled; only past it are there effects, of its own action. -/
structure Handled (s : State) (stage stage' : Stage) (s' : State) : Prop where
  actions : Actions (fun id => stage.past = some id ∨
      ∃ a ∈ s.db.riskActions, a.id = id ∧ a.status ≠ .canceled) s.db.riskActions s'.db.riskActions
  past : ∀ id, stage'.past = some id → stage.past = some id ∨
    ∃ a ∈ s.db.riskActions, a.id = id ∧ a.status ≠ .canceled
  effects : s'.effects = s.effects ∨ ∃ id, stage.past = some id ∧ s'.effects = s.effects ++ [id]

section Handler

variable {a : Answer} {action : RiskAction} {stage : Stage}

theorem Handled.quiet {stage' : Stage} (h : ∀ id, stage'.past = some id → stage.past = some id) :
    Handled s stage stage' s :=
  ⟨.refl _ _, fun id hid => Or.inl (h id hid), Or.inl rfl⟩

theorem past_goOn {next : Stage} {id : UUID} (h : (goOn a next).past = some id) :
    next.past = some id := by
  unfold goOn at h
  split at h
  · exact h
  · cases h

theorem startTask_past {revert : Bool} {task : ClaimedTask} :
    (startTask revert a task s.db).past = none := by
  unfold startTask
  split
  · rfl
  · split
    · unfold loadAction
      split
      · rfl
      · split
        · rfl
        · split <;> rfl
    · rfl

theorem guardAction_handled (revert : Bool) :
    Handled s (.loaded action) (guardAction revert a action s).1 (guardAction revert a action s).2 := by
  have hexpected : ∀ st, (expected revert).contains st → st ≠ .canceled := by
    intro st
    unfold expected
    cases revert <;> cases st <;> decide
  have hnext : nextStatus revert ≠ .canceled := by
    unfold nextStatus
    cases revert <;> decide
  refine ⟨?_, fun id hid => ?_, Or.inl ?_⟩
  · unfold guardAction
    simp only
    split
    · exact .update (fun _ => rfl) fun x hx hid hp =>
        ⟨Or.inr ⟨x, hx, hid, hexpected _ hp⟩, fun h => absurd h hnext⟩
    · exact .refl _ _
  · unfold guardAction at hid
    simp only at hid
    split at hid
    · next hfound =>
      cases hid
      simp only [Bool.and_eq_true, List.any_eq_true, decide_eq_true_eq] at hfound
      obtain ⟨-, x, hx, hxid, hp⟩ := hfound
      exact Or.inr ⟨x, hx, hxid, hexpected _ hp⟩
    · cases hid
  · unfold guardAction
    simp only
    split <;> rfl

theorem keepBefore_handled {remote : Option EmbyUser} {before : BeforeState}
    (hpast : stage.past = some action.id) :
    Handled s stage (keepBefore a action remote before s).1 (keepBefore a action remote before s).2 := by
  unfold keepBefore
  split
  · exact .quiet fun id hid => hpast.trans hid
  · refine ⟨?_, fun id hid => Or.inl (hpast.trans (past_goOn hid)), Or.inl ?_⟩
    · simp only
      split
      · exact .update (fun _ => rfl) fun _ _ _ _ => ⟨Or.inl hpast, fun h => h⟩
      · exact .refl _ _
    · simp only
      split <;> rfl

theorem prepare_handled (revert : Bool) {remote : Option EmbyUser} :
    Handled s (.listed action remote) (prepare revert a action remote s).1
      (prepare revert a action remote s).2 := by
  unfold prepare
  split
  · exact .quiet fun id hid => hid
  · split
    · exact keepBefore_handled rfl
    · exact .quiet fun id hid => by cases hid
    · exact .quiet fun id hid => by cases hid
    · exact keepBefore_handled rfl
    · exact .quiet fun id hid => hid

theorem applyEffect_handled (revert : Bool) {remote : Option EmbyUser}
    {before : Option BeforeState} :
    Handled s (.prepared action remote before) (applyEffect revert a action remote before s).1
      (applyEffect revert a action remote before s).2 := by
  have hpast : ∀ {id}, (goOn a (.applied action before)).past = some id →
      (Stage.applied action before).past = some id := past_goOn
  unfold applyEffect
  split
  · exact .quiet fun id hid => hid
  · split
    · split
      · exact .quiet fun id hid => by cases hid
      · refine ⟨?_, fun id hid => Or.inl (hpast hid), ?_⟩
        · simp only
          split <;> exact .refl _ _
        · simp only
          split
          · exact Or.inr ⟨action.id, rfl, rfl⟩
          · exact Or.inl rfl
    · split
      · exact .quiet fun id hid => hid
      · refine ⟨?_, fun id hid => Or.inl (hpast hid), ?_⟩
        · simp only
          split <;> exact .refl _ _
        · simp only
          split
          · cases revert
            · exact Or.inr ⟨action.id, rfl, rfl⟩
            · exact Or.inl rfl
          · exact Or.inl rfl

theorem storeEffect_handled (revert : Bool) {before : Option BeforeState} :
    Handled s (.applied action before) (storeEffect revert a action before s).1
      (storeEffect revert a action before s).2 := by
  have hpast : ∀ {id}, (goOn a (.stored action before)).past = some id →
      (Stage.stored action before).past = some id := past_goOn
  unfold storeEffect
  split
  · exact .quiet fun id hid => hid
  · refine ⟨?_, fun id hid => Or.inl (hpast hid), Or.inl ?_⟩
    · simp only
      split
      · refine .update (fun x => ?_) fun x _ _ _ => ⟨Or.inl rfl, fun h => ?_⟩
        · cases revert <;> rfl
        · cases revert <;> exact h
      · exact .refl _ _
    · simp only
      split <;> rfl

theorem completeAction_handled (revert : Bool) {before : Option BeforeState} :
    Handled s (.stored action before) (completeAction revert a action before s).1
      (completeAction revert a action before s).2 := by
  have hdone : doneStatus revert ≠ .canceled := by
    unfold doneStatus
    cases revert <;> decide
  unfold completeAction
  refine ⟨?_, fun id hid => ?_, Or.inl ?_⟩
  · simp only
    split
    · have h : Actions (fun id => (Stage.stored action before).past = some id ∨
          ∃ a ∈ s.db.riskActions, a.id = id ∧ a.status ≠ .canceled) s.db.riskActions
          (updateAction action.id (fun _ => true) (fun x => { x with
            status := doneStatus revert, beforeState := if revert then x.beforeState else before
            lastError := none }) s.db).riskActions :=
        .update (fun _ => rfl) fun _ _ _ _ => ⟨Or.inl rfl, fun h => absurd h hdone⟩
      split
      · exact h
      · exact h
    · exact .refl _ _
  · cases past_goOn hid
  · simp only
    split <;> rfl

/-- **A step of the handler** `executeRiskAction`. -/
theorem advance_handled {task : ClaimedTask} {stage' : Stage}
    (h : advance a task s stage = some (stage', s')) : Handled s stage stage' s' := by
  unfold advance at h
  simp only at h
  cases stage with
  | start =>
    cases h
    exact .quiet fun id hid => by rw [startTask_past] at hid; cases hid
  | loaded action =>
    obtain ⟨rfl, rfl⟩ := Prod.mk.inj (Option.some.inj h)
    exact guardAction_handled _
  | guarded action =>
    simp only at h
    split at h
    · cases h
      refine .quiet fun id hid => ?_
      have hlisted := past_goOn hid
      exact hlisted
    · cases h
      exact .quiet fun id hid => hid
  | listed action remote =>
    obtain ⟨rfl, rfl⟩ := Prod.mk.inj (Option.some.inj h)
    exact prepare_handled _
  | prepared action remote before =>
    obtain ⟨rfl, rfl⟩ := Prod.mk.inj (Option.some.inj h)
    exact applyEffect_handled _
  | applied action before =>
    obtain ⟨rfl, rfl⟩ := Prod.mk.inj (Option.some.inj h)
    exact storeEffect_handled _
  | stored action before =>
    obtain ⟨rfl, rfl⟩ := Prod.mk.inj (Option.some.inj h)
    exact completeAction_handled _
  | ended failure => cases h

end Handler

/-! ## Reviews -/

theorem latestAction_mem {db : Store} {eventID : UUID} {a : RiskAction}
    (h : latestAction db eventID = some a) : a ∈ db.riskActions :=
  List.mem_of_find?_eq_some h

/-- A review that cancels an action. -/
theorem cancelAction_actions {db : Store} {now : Time} {a : RiskAction} :
    (cancelAction now a db).riskActions = (updateAction a.id (fun _ => true)
      (fun x => { x with status := .canceled, lastError := some canceledText }) db).riskActions := by
  unfold cancelAction
  simp only
  split <;> rfl

/-- A review touches one action, and cancels it or touches none that is canceled. -/
theorem markRiskFalsePositive_ok {taskID eventID : UUID} {now : Time} {reason : String}
    {actor : Actor} (h : markRiskFalsePositive taskID now eventID reason actor s = .ok s') :
    (s'.running = s.running ∧ s'.effects = s.effects) ∧
      (Actions (fun id => ∃ a ∈ s.db.riskActions, a.id = id ∧ a.status ≠ .canceled)
          s.db.riskActions s'.db.riskActions ∨
        ∃ a ∈ latestAction s.db eventID, RiskAction.cancelable a ∧
          s'.db.riskActions = (cancelAction now a s.db).riskActions) := by
  unfold markRiskFalsePositive at h
  obtain ⟨reason, -, h⟩ := except_bind_ok h
  split at h
  · cases h
  · next e he =>
    split at h
    · cases h
    · obtain ⟨db, hdb, h⟩ := except_bind_ok h
      cases h
      refine ⟨⟨rfl, rfl⟩, ?_⟩
      unfold reviewAction at hdb
      split at hdb
      · cases hdb
        exact Or.inl (.refl _ _)
      · next a ha =>
        split at hdb
        · cases hdb
        · split at hdb
          · next hcancel =>
            cases hdb
            exact Or.inr ⟨a, ha, hcancel, rfl⟩
          · split at hdb
            · next hrevert =>
              unfold queueRevert at hdb
              obtain ⟨tasks, -, hdb⟩ := except_bind_ok hdb
              cases hdb
              refine Or.inl (.update (fun _ => rfl) fun x hx hid _ => ⟨⟨a, latestAction_mem ha, rfl, ?_⟩,
                fun h => by cases h⟩)
              intro hst
              simp [RiskAction.revertible, hst] at hrevert
            · cases hdb
              exact Or.inl (.refl _ _)

/-! ## Runs -/

/-- **One step** leaves a canceled action as it is, and has no effect of it. -/
theorem step_canceled {l : Label} (hl : Heedful l s) (h : step l s = some s') (hk : Canceled s k) :
    Canceled s' k ∧ s'.effects.count k = s.effects.count k := by
  have hopen : ¬∃ a ∈ s.db.riskActions, a.id = k ∧ a.status ≠ .canceled :=
    fun ⟨a, ha, hid, hst⟩ => hst (hk.all_rows a ha hid)
  cases l with
  | queue l =>
    obtain ⟨ws, hws, rfl⟩ := Option.map_eq_some_iff.1 h
    refine ⟨hk.of_actions (queueStep_acts hws) ?_ fun r hr hp => ?_, rfl⟩
    · rintro ⟨n, now, entry, rfl, r, hr, hfailed, hconcerns⟩
      obtain ⟨a, ha, rfl⟩ := hk.some_row
      exact hl r hr hfailed a ha hconcerns (hk.all_rows a ha rfl)
    · rcases (queueStep_work hws).2 r hr with hr | ⟨hst, -⟩
      · exact ⟨r, hr, hp⟩
      · rw [hst] at hp
        cases hp
  | dispositionRiskEvent eventID status reason actor =>
    cases h
    cases hd : dispositionRiskEvent eventID status reason actor s with
    | error x => exact ⟨hk, rfl⟩
    | ok s' =>
      unfold dispositionRiskEvent at hd
      obtain ⟨reason, -, hd⟩ := except_bind_ok hd
      split at hd
      · cases hd
      · split at hd
        · cases hd
          exact ⟨⟨hk.some_row, hk.all_rows, hk.none_past⟩, rfl⟩
        · cases hd
  | markRiskFalsePositive taskID now eventID reason actor =>
    cases h
    cases hm : markRiskFalsePositive taskID now eventID reason actor s with
    | error x => exact ⟨hk, rfl⟩
    | ok s' =>
      obtain ⟨⟨hrun, heff⟩, hact⟩ := markRiskFalsePositive_ok hm
      refine ⟨?_, by rw [accepted, heff]⟩
      rcases hact with hact | ⟨a, ha, hcancel, hact⟩
      · exact hk.of_actions hact hopen fun r hr hp => ⟨r, hrun ▸ hr, hp⟩
      · -- another action is canceled
        have hne : a.id ≠ k := by
          intro he
          have hst := hk.all_rows a (latestAction_mem ha) he
          simp [RiskAction.cancelable, hst] at hcancel
        rw [cancelAction_actions] at hact
        refine ⟨?_, fun x hx hid => ?_, fun r hr => hk.none_past r (hrun ▸ hr)⟩
        · obtain ⟨x, hx, hid⟩ := hk.some_row
          refine ⟨x, ?_, hid⟩
          rw [accepted, hact]
          exact List.mem_map.2 ⟨x, hx, by simp [hid, hne.symm]⟩
        · rw [accepted, hact] at hx
          obtain ⟨y, hy, rfl⟩ := List.mem_map.1 hx
          split at hid
          · next hya =>
            exact absurd ((of_decide_eq_true (Bool.and_eq_true_iff.1 hya).1).symm.trans hid) hne
          · next hya =>
            rw [if_neg hya]
            exact hk.all_rows y hy hid
  | advance n a =>
    simp only [step] at h
    split at h
    · cases h
    · next r hr =>
      obtain ⟨⟨stage, s₁⟩, hadv, rfl⟩ := Option.map_eq_some_iff.1 h
      have hh := advance_handled hadv
      have hr' := hk.none_past r (List.mem_of_getElem? hr)
      refine ⟨hk.of_actions hh.actions ?_ fun x hx hp => ?_, ?_⟩
      · rintro (hp | ho)
        · exact hr' hp
        · exact hopen ho
      · rcases List.mem_or_eq_of_mem_set hx with hx | rfl
        · exact ⟨x, hx, hp⟩
        · rcases hh.past k hp with hp | ho
          · exact absurd hp hr'
          · exact absurd ho hopen
      · rcases hh.effects with he | ⟨id, hp, he⟩
        · exact congrArg (List.count k) he
        · have hne : id ≠ k := fun h => hr' (h ▸ hp)
          show s₁.effects.count k = _
          rw [he, List.count_append, List.count_singleton]
          simp [hne]

/-- An action that is canceled after a step was canceled before, or the step has canceled it. -/
theorem step_cancels {l : Label} (hl : Heedful l s) (h : step l s = some s') {a' : RiskAction}
    (ha' : a' ∈ s'.db.riskActions) (hst : a'.status = .canceled) :
    (∃ a ∈ s.db.riskActions, a.id = a'.id ∧ a.status = .canceled) ∨ Canceled s' a'.id := by
  have hold : ∀ {touched}, Actions touched s.db.riskActions s'.db.riskActions →
      ∃ a ∈ s.db.riskActions, a.id = a'.id ∧ a.status = .canceled := by
    intro touched hact
    obtain ⟨a, ha, hid, hc⟩ := hact.from_old a' ha'
    rcases hc with rfl | ⟨-, hc⟩
    · exact ⟨a', ha, rfl, hst⟩
    · exact ⟨a, ha, hid.symm, hc hst⟩
  cases l with
  | queue l =>
    obtain ⟨ws, hws, rfl⟩ := Option.map_eq_some_iff.1 h
    exact Or.inl (hold (queueStep_acts hws))
  | dispositionRiskEvent eventID status reason actor =>
    cases h
    cases hd : dispositionRiskEvent eventID status reason actor s with
    | error x =>
      rw [hd] at ha'
      exact Or.inl ⟨a', ha', rfl, hst⟩
    | ok s' =>
      rw [hd] at ha'
      unfold dispositionRiskEvent at hd
      obtain ⟨reason, -, hd⟩ := except_bind_ok hd
      split at hd
      · cases hd
      · split at hd
        · cases hd
          exact Or.inl ⟨a', ha', rfl, hst⟩
        · cases hd
  | markRiskFalsePositive taskID now eventID reason actor =>
    cases h
    cases hm : markRiskFalsePositive taskID now eventID reason actor s with
    | error x =>
      rw [hm] at ha'
      exact Or.inl ⟨a', ha', rfl, hst⟩
    | ok s' =>
      obtain ⟨⟨hrun, -⟩, hact⟩ := markRiskFalsePositive_ok hm
      rw [hm] at ha' hold
      rcases hact with hact | ⟨a, ha, hcancel, hact⟩
      · exact Or.inl (hold hact)
      · rw [cancelAction_actions] at hact
        rw [accepted, hact] at ha'
        obtain ⟨x, hx, rfl⟩ := List.mem_map.1 ha'
        by_cases hxa : x.id = a.id
        · refine Or.inr ?_
          simp only [hxa, decide_true, Bool.and_self, if_true]
          refine ⟨⟨_, by rw [accepted, hact]; exact ha', ?_⟩, fun y hy hid => ?_, fun r hr => ?_⟩
          · simp [hxa]
          · rw [accepted, hact] at hy
            obtain ⟨z, hz, rfl⟩ := List.mem_map.1 hy
            split
            · rfl
            · next hza =>
              rw [if_neg hza] at hid
              simp [hid, hxa] at hza
          · rw [← hxa]
            exact hxa ▸ hl a ha hcancel r (hrun ▸ hr)
        · simp only [hxa, decide_false, Bool.false_and, Bool.false_eq_true, if_false] at hst ⊢
          exact Or.inl ⟨x, hx, rfl, hst⟩
  | advance n a =>
    simp only [step] at h
    split at h
    · cases h
    · next r hr =>
      obtain ⟨⟨stage, s₁⟩, hadv, rfl⟩ := Option.map_eq_some_iff.1 h
      exact Or.inl (hold (advance_handled hadv).actions)

/-- Where every action is canceled for good that is canceled. -/
def Settled (s : State) : Prop :=
  ∀ a ∈ s.db.riskActions, a.status = .canceled → Canceled s a.id

theorem step_settled {l : Label} (hl : Heedful l s) (h : step l s = some s') (hI : Settled s) :
    Settled s' := by
  intro a' ha' hst
  rcases step_cancels hl h ha' hst with ⟨a, ha, hid, hc⟩ | hk
  · exact hid ▸ (step_canceled hl h (hI a ha hc)).1
  · exact hk

/-- **A canceled action is not executed**: in a run whose steps heed cancellations, once an action is
canceled it stays so, and the servers carry out no effect of it. -/
theorem canceled_stays {s₀ : State} (hids : UniqueBy RiskAction.id s₀.db.riskActions)
    (hidle : s₀.running = []) (h : Runs step Heedful s₀ s) {a : RiskAction}
    (ha : a ∈ s.db.riskActions) (hst : a.status = .canceled) (h' : Runs step Heedful s s') :
    (∃ a' ∈ s'.db.riskActions, a'.id = a.id) ∧
      (∀ a' ∈ s'.db.riskActions, a'.id = a.id → a'.status = .canceled) ∧
      s'.effects.count a.id = s.effects.count a.id := by
  have h₀ : Settled s₀ := by
    intro a ha hst
    refine ⟨⟨a, ha, rfl⟩, fun b hb hid => ?_, fun r hr => ?_⟩
    · rw [hids.eq hb ha hid]
      exact hst
    · rw [hidle] at hr
      cases hr
  have hI : Settled s := h.keeps h₀ fun _ _ _ => step_settled
  have hrun : Canceled s' a.id ∧ s'.effects.count a.id = s.effects.count a.id := by
    refine h'.keeps (I := fun t => Canceled t a.id ∧ t.effects.count a.id = s.effects.count a.id)
      ⟨hI a ha hst, rfl⟩ ?_
    rintro l t t' hl hstep ⟨hk, hc⟩
    obtain ⟨hk', hc'⟩ := step_canceled hl hstep hk
    exact ⟨hk', hc'.trans hc⟩
  exact ⟨hrun.1.some_row, hrun.1.all_rows, hrun.2⟩

/-! ## Two runs -/

def worker : Worker := ⟨"p", 60000000000⟩

def reviewer : Actor := ⟨"account", "admin"⟩

/-- An action that waits to disable a user. -/
def oneAction : State where
  db := { instances := [⟨idOf 'c', true⟩]
          tasks := [{ id := idOf '1', type := .riskAction, status := .pending
                      payload := { instanceId := some (idOf 'c'), actionId := some (idOf 'd') }
                      attempts := 0, maxAttempts := 8, availableAt := 0 }]
          riskActions := [{ id := idOf 'd', eventId := idOf 'e', instanceId := idOf 'c'
                            taskId := some (idOf '1'), actionType := .disableUser, status := .pending
                            remoteUserId := some "u" }]
          upstream := [{ instanceId := idOf 'c', id := "u", name := "name" }] }
  events := [{ id := idOf 'e', instanceId := idOf 'c', status := .opened }]

def review : Label := .markRiskFalsePositive (idOf '2') 1 (idOf 'e') "mistake" reviewer

/-- The state has the action canceled. -/
def canceledNow (s : State) : Bool :=
  s.db.riskActions.any fun a => a.id = idOf 'd' && a.status = .canceled

theorem canceledNow_mem {s : State} (h : canceledNow s = true) :
    ∃ a ∈ s.db.riskActions, a.id = idOf 'd' ∧ a.status = .canceled := by
  obtain ⟨a, ha, hp⟩ := List.any_eq_true.1 h
  simp only [Bool.and_eq_true, decide_eq_true_eq] at hp
  exact ⟨a, ha, hp⟩

/-- The task is retried after the review, and its handler crashes where it finds the action canceled. -/
theorem canceled_stays_retried :
    ∃ s s', Runs step Heedful oneAction s ∧ Runs step Heedful s s' ∧
      ∃ a ∈ s.db.riskActions, a.status = .canceled ∧
        (∃ a' ∈ s'.db.riskActions, a'.id = a.id) ∧
        (∀ a' ∈ s'.db.riskActions, a'.id = a.id → a'.status = .canceled) ∧
        s'.effects.count a.id = s.effects.count a.id := by
  obtain ⟨s, hs, hp⟩ := play_any step Heedful [review] oneAction
    (fun s => canceledNow s && (play step Heedful
      [.queue (.retryTask 2 (idOf '1')), .queue (.claim worker 3 (idOf '1')), .advance 0 {},
        .advance 0 {}, .queue (.crash 0)] s).any fun _ => true) (by decide +kernel)
  obtain ⟨hc, hp'⟩ := Bool.and_eq_true_iff.1 hp
  obtain ⟨s', hs', -⟩ := play_any _ _ _ _ _ hp'
  obtain ⟨a, ha, -, hst⟩ := canceledNow_mem hc
  have hids : UniqueBy RiskAction.id oneAction.db.riskActions := List.nodup_singleton _
  exact ⟨s, s', hs, hs', a, ha, hst, canceled_stays hids rfl hs ha hst hs'⟩

/-- The review comes between the claim of the task and its handler: the task fails, the failure takes
the action out of its status, and a retry of the task disables the user. -/
theorem canceledAction_executed :
    ∃ s s', Runs step anyStep oneAction s ∧ Runs step anyStep s s' ∧
      (∃ a ∈ s.db.riskActions, a.id = idOf 'd' ∧ a.status = .canceled) ∧ s.effects = [] ∧
      s'.effects = [idOf 'd'] ∧ (∀ a ∈ s'.db.riskActions, a.status ≠ .canceled) ∧
      ∀ u ∈ s'.db.upstream, u.disabled = true := by
  obtain ⟨s, hs, hp⟩ := play_any step anyStep
    [.queue (.claim worker 0 (idOf '1')), review] oneAction
    (fun s => (canceledNow s && decide (s.effects = [])) && (play step anyStep
      [.advance 0 {}, .advance 0 {}, .queue (.settle 0 2 1), .queue (.retryTask 3 (idOf '1')),
        .queue (.claim worker 4 (idOf '1')), .advance 0 {}, .advance 0 {}, .advance 0 {},
        .advance 0 {}, .advance 0 {}] s).any fun s' : State => decide (s'.effects = [idOf 'd'] ∧
          (∀ a ∈ s'.db.riskActions, a.status ≠ .canceled) ∧ ∀ u ∈ s'.db.upstream, u.disabled = true))
    (by decide +kernel)
  obtain ⟨hp, hp'⟩ := Bool.and_eq_true_iff.1 hp
  obtain ⟨hc, he⟩ := Bool.and_eq_true_iff.1 hp
  obtain ⟨s', hs', hq⟩ := play_any _ _ _ _ _ hp'
  exact ⟨s, s', hs, hs', canceledNow_mem hc, of_decide_eq_true he, of_decide_eq_true hq⟩

end Sakura.Risk
