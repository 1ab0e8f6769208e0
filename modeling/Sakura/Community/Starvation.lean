/-
  The rules of an event (platform/community.go).

  A worker stops at the first rule that fails, and the event is tried again as a whole.

  * `triggered`, `blocks`: the rules of an event, and those whose actions are run and fail;
  * `steady`, `current`: the actions of a rule always succeed or always fail, and no worker is
  overtaken;
  * `Passed`, `Inv`: the rules that are done with, and where the workers are;
  * `rules_served_iff`: the events whose rules have all been served at the end.
-/
import Sakura.Txn.Machine
import Sakura.Community.Steps

namespace Sakura.Community

open Txn

/-! ## Rules and events -/

def AutomationEvent.fires (e : AutomationEvent) (rule : AutomationRule) : Bool :=
  rule.enabled && rule.triggerEvent = e.eventType

/-- The rules that the event triggers, in the order in which they are run. -/
def triggered (e : AutomationEvent) (b : Board) : List AutomationRule :=
  (listAutomationRules b).filter e.fires

/-- The actions of the rule are run and fail. -/
def blocks (ok : UUID → Bool) (e : AutomationEvent) (rule : AutomationRule) : Bool :=
  automationConditionsMatch rule.conditions e.payload && !ok rule.id

/-- `status='succeeded'`, or `status='failed'` with no attempt left. -/
def AutomationEvent.final (e : AutomationEvent) : Bool :=
  e.status = .succeeded || e.status = .failed && e.maxAttempts ≤ e.attempts

/-- The log has the rule, and its actions have been applied if it matches and does not fail. -/
structure Served (ok : UUID → Bool) (e : AutomationEvent) (s : Automation) (rule : AutomationRule) :
    Prop where
  logged : (findExecution e.id rule.id s.board).isSome
  applied : automationConditionsMatch rule.conditions e.payload → ok rule.id →
    (e.id, rule.id) ∈ s.effects

/-- The event waits for its first attempt. -/
structure Unstarted (e : AutomationEvent) (s : Automation) : Prop where
  event : e ∈ s.board.events
  pending : e.status = .pending
  eventIds : UniqueBy AutomationEvent.id s.board.events
  ruleIds : UniqueBy AutomationRule.id s.board.rules
  keys : UniqueBy Execution.key s.board.executions
  unlogged : ∀ x ∈ s.board.executions, x.eventId ≠ e.id
  idle : ∀ r ∈ s.running, r.eventID ≠ e.id

/-! ## Steps -/

/-- The actions of the rule succeed on the tables that its transaction sees. -/
def actionsSucceed (o : Occasion) (previous : Option ExecutionStatus) (b : Board) : Bool :=
  (o.rule.actions.foldlM (fun b action => executeAutomationAction o action b)
    (reopen o previous b)).isOk

section

variable (parse : String → Option UUID) (i : UUID) (ok : UUID → Bool)

/-- The actions of a rule that are run for the event `i` succeed or fail as `ok` says. -/
def steady : AutomationStep → Automation → Bool
  | .advance n d, s => s.running[n]?.all fun r => match r.stage with
    | .opened rule _ previous =>
      r.eventID ≠ i || previous = some .succeeded || previous = some .skipped ||
        !automationConditionsMatch rule.conditions r.payload ||
        actionsSucceed (r.occasion parse d rule) previous s.board = ok rule.id
    | _ => true
  | _, _ => true

/-- When a rule is run for the event `i`, the log has of it what the worker has read. -/
def current : AutomationStep → Automation → Bool
  | .advance n _, s => s.running[n]?.all fun r => match r.stage with
    | .opened rule _ previous => r.eventID ≠ i || findExecution i rule.id s.board = previous
    | _ => true
  | _, _ => true

def undisturbed (l : AutomationStep) (s : Automation) : Prop :=
  steady parse i ok l s ∧ current i l s

end

/-! ## What actions leave alone -/

/-- The rules, the events and the log are as they were. -/
structure Apart (b b' : Board) : Prop where
  rules : b'.rules = b.rules
  events : b'.events = b.events
  executions : b'.executions = b.executions

theorem Apart.refl (b : Board) : Apart b b := ⟨rfl, rfl, rfl⟩

theorem Apart.trans {b b₁ b' : Board} (h : Apart b b₁) (h' : Apart b₁ b') : Apart b b' :=
  ⟨h'.rules.trans h.rules, h'.events.trans h.events, h'.executions.trans h.executions⟩

section

variable {o : Occasion} {b b' : Board} {action : Fields} {now : Time} {eventKey title body : String}

theorem queueNotification_apart {accountID : UUID} {metadata : Fields} {channel : Channel}
    (h : queueNotification now accountID eventKey title body metadata b channel = .ok b') :
    Apart b b' := by
  unfold queueNotification at h
  split at h
  · cases h
    exact .refl _
  split at h
  · cases h
    exact .refl _
  · obtain ⟨_, -, h⟩ := except_bind_ok h
    obtain ⟨_, -, h⟩ := except_bind_ok h
    cases h
    exact ⟨rfl, rfl, rfl⟩

theorem queuePreferredNotification_apart {accountID : UUID} {metadata : Fields}
    (h : queuePreferredNotification now accountID eventKey title body metadata b = .ok b') :
    Apart b b' :=
  foldlM_rel (R := Apart) .refl .trans (fun _ _ _ => queueNotification_apart) _ h

theorem notifyRequestSubscribers_apart {requestID : UUID}
    (h : notifyRequestSubscribers now requestID eventKey title body b = .ok b') : Apart b b' :=
  foldlM_rel (R := Apart) .refl .trans (fun _ _ _ => queuePreferredNotification_apart) _ h

theorem updateRequest_apart {r : MediaRequest} (h : updateRequest r b = .ok b') : Apart b b' := by
  cases updateRequest_ok h
  exact ⟨rfl, rfl, rfl⟩

theorem notifyAccount_apart (h : notifyAccount o action b = .ok b') : Apart b b' := by
  obtain ⟨_, -, h⟩ := except_bind_ok h
  dsimp only at h
  split at h
  · cases h
  · exact queuePreferredNotification_apart (faultOf_ok h)

theorem submitAutomation_apart (h : submitAutomation o action b = .ok b') : Apart b b' := by
  obtain ⟨requestID, -, h⟩ := except_bind_ok h
  obtain ⟨r, -, h⟩ := except_bind_ok h
  split at h
  · cases h
    exact .refl _
  · obtain ⟨b₁, h₁, h⟩ := except_bind_ok h
    obtain ⟨b₂, h₂, h⟩ := except_bind_ok h
    cases h
    have hjob : Apart b b₁ := by
      have h₁ := faultOf_ok h₁
      unfold insertJob at h₁
      split at h₁
      · cases h₁
      · cases h₁
        exact ⟨rfl, rfl, rfl⟩
    exact (hjob.trans (updateRequest_apart (faultOf_ok h₂))).trans ⟨rfl, rfl, rfl⟩

theorem changeStatus_apart {r : MediaRequest} {status : RequestStatus} {reason : String}
    (h : changeStatus o r status reason b = .ok b') : Apart b b' := by
  obtain ⟨text, -, h⟩ := except_bind_ok h
  obtain ⟨b₁, h₁, h⟩ := except_bind_ok h
  have hevent : Apart b₁ (insertRequestEvent
      { requestId := r.id, eventType := "automation_status_changed", fromStatus := some r.status
        toStatus := some status, actor := o.actor, reason := some text } b₁) := ⟨rfl, rfl, rfl⟩
  exact ((updateRequest_apart (faultOf_ok h₁)).trans hevent).trans
    (notifyRequestSubscribers_apart (faultOf_ok h))

theorem setRequestStatus_apart (h : setRequestStatus o action b = .ok b') : Apart b b' := by
  obtain ⟨requestID, -, h⟩ := except_bind_ok h
  cases hs : statusOf (normalize (action.sprint "status")) with
  | none =>
    rw [hs] at h
    cases h
  | some status =>
    rw [hs] at h
    obtain ⟨r, -, h⟩ := except_bind_ok (h : setStatus o requestID status _ b = .ok b')
    split at h
    · cases h
      exact .refl _
    · split at h
      · cases h
      · exact changeStatus_apart h

theorem executeAutomationAction_apart (h : executeAutomationAction o action b = .ok b') :
    Apart b b' := by
  unfold executeAutomationAction at h
  split at h
  · exact notifyAccount_apart h
  · exact submitAutomation_apart h
  · exact setRequestStatus_apart h
  · cases h

theorem actions_apart {actions : List Fields}
    (h : actions.foldlM (fun b action => executeAutomationAction o action b) b = .ok b') :
    Apart b b' :=
  foldlM_rel (R := Apart) .refl .trans (fun _ _ _ => executeAutomationAction_apart) _ h

end

/-! ## The log -/

/-- A row of the log is written; the rules and the events are as they were. -/
structure Logs (eventID ruleID : UUID) (status : ExecutionStatus) (b b' : Board) : Prop where
  rules : b'.rules = b.rules
  events : b'.events = b.events
  found : findExecution eventID ruleID b' = some status
  others : ∀ e r, (e, r) ≠ (eventID, ruleID) → findExecution e r b' = findExecution e r b
  rows : ∀ x ∈ b'.executions, x ∈ b.executions ∨ x = ⟨eventID, ruleID, status⟩
  keys : UniqueBy Execution.key b.executions → UniqueBy Execution.key b'.executions

section

variable {o : Occasion} {b b₁ b' : Board} {eventID ruleID : UUID} {status : ExecutionStatus}
  {previous : Option ExecutionStatus} {fault : Fault}

theorem Apart.findExecution (h : Apart b b') (e r : UUID) :
    findExecution e r b' = findExecution e r b := by
  unfold Community.findExecution
  rw [h.executions]

theorem insertExecution_ok (h : insertExecution eventID ruleID status b = .ok b') :
    (∀ x ∈ b.executions, x.key ≠ (eventID, ruleID)) ∧
      b' = { b with executions := b.executions ++ [⟨eventID, ruleID, status⟩] } := by
  unfold insertExecution at h
  split at h
  · cases h
  · next hfree =>
    refine ⟨fun x hx hk => hfree ?_, (Except.ok.inj h).symm⟩
    exact List.any_eq_true.2 ⟨x, hx, decide_eq_true hk⟩

theorem insertExecution_logs (h : insertExecution eventID ruleID status b = .ok b') :
    Logs eventID ruleID status b b' := by
  obtain ⟨hfree, rfl⟩ := insertExecution_ok h
  refine ⟨rfl, rfl, ?_, fun e r hne => ?_, fun x hx => ?_, fun hu => hu.snoc fun x hx => hfree x hx⟩
  · have hnone : b.executions.find? (fun x => x.key = (eventID, ruleID)) = none :=
      List.find?_eq_none.2 fun x hx => by simpa using hfree x hx
    unfold findExecution
    rw [List.find?_append, hnone]
    simp [Execution.key]
  · have hlast : ([⟨eventID, ruleID, status⟩] : List Execution).find? (fun x => x.key = (e, r)) =
      none :=
      List.find?_eq_none.2 fun x hx => by
        rw [List.mem_singleton.1 hx, decide_eq_true_eq]
        exact fun he => hne he.symm
    unfold findExecution
    rw [List.find?_append, hlast, Option.or_none]
  · exact (List.mem_append.1 hx).imp_right List.mem_singleton.1

theorem recordFailure_logs : Logs eventID ruleID .failed b (recordFailure eventID ruleID b) := by
  refine ⟨rfl, rfl, ?_, fun e r hne => ?_, fun x hx => ?_, fun hu => hu.put fun _ _ e => e⟩
  · unfold findExecution recordFailure
    rw [find?_put, if_pos (show Execution.key ⟨eventID, ruleID, .failed⟩ = (eventID, ruleID)
      from rfl)]
    rfl
  · unfold findExecution recordFailure
    rw [find?_put, if_neg (show Execution.key ⟨eventID, ruleID, .failed⟩ ≠ (e, r) from
      fun he => hne he.symm)]
  · exact (mem_put.1 hx).imp_left And.left

theorem deleteFailed_find {e r : UUID} (hne : (e, r) ≠ (eventID, ruleID)) :
    findExecution e r (deleteFailed eventID ruleID b) = findExecution e r b := by
  unfold findExecution deleteFailed
  rw [List.find?_filter]
  congr 2
  funext x
  by_cases hx : x.key = (e, r)
  · simp [hx, hne]
  · simp [hx]

/-- The tables on which a rule begins, next to those before. -/
theorem reopen_find {e r : UUID} (hne : (e, r) ≠ (o.eventID, o.rule.id)) :
    findExecution e r (reopen o previous b) = findExecution e r b := by
  unfold reopen
  split
  · exact deleteFailed_find hne
  · rfl

theorem reopen_executions : (reopen o previous b).executions.Sublist b.executions := by
  unfold reopen deleteFailed
  split
  · exact List.filter_sublist
  · exact .refl _

theorem reopen_tables : (reopen o previous b).rules = b.rules ∧
    (reopen o previous b).events = b.events := by
  unfold reopen deleteFailed
  split
  · exact ⟨rfl, rfl⟩
  · exact ⟨rfl, rfl⟩

/-- What a committed transaction writes to the log. -/
theorem reopened_logs (hapart : Apart (reopen o previous b) b₁)
    (h : insertExecution o.eventID o.rule.id status b₁ = .ok b') :
    Logs o.eventID o.rule.id status b b' := by
  have hlogs := insertExecution_logs h
  have hsub : ∀ x ∈ b₁.executions, x ∈ b.executions := fun x hx =>
    reopen_executions.subset (hapart.executions ▸ hx)
  exact
    { rules := (hlogs.rules.trans hapart.rules).trans reopen_tables.1
      events := (hlogs.events.trans hapart.events).trans reopen_tables.2
      found := hlogs.found
      others := fun e r hne =>
        ((hlogs.others e r hne).trans (hapart.findExecution e r)).trans (reopen_find hne)
      rows := fun x hx => (hlogs.rows x hx).imp_left (hsub x)
      keys := fun hu => hlogs.keys (hapart.executions ▸ hu.sublist (reopen_executions.map _)) }

/-- The transaction of a rule: what is run, and what comes of it. -/
theorem runRule_eq : runRule o previous b =
    if automationConditionsMatch o.rule.conditions o.payload then
      match o.rule.actions.foldlM (fun b action => executeAutomationAction o action b)
          (reopen o previous b) with
      | .error fault => .refused fault
      | .ok b => match insertExecution o.eventID o.rule.id .succeeded b with
        | .error fault => .broken fault
        | .ok b => .committed b true
    else match insertExecution o.eventID o.rule.id .skipped (reopen o previous b) with
      | .error fault => .broken fault
      | .ok b => .committed b false := rfl

theorem runRule_committed {ran : Bool} (h : runRule o previous b = .committed b' ran) :
    (ran = true ∧ automationConditionsMatch o.rule.conditions o.payload = true ∧
        actionsSucceed o previous b = true ∧ Logs o.eventID o.rule.id .succeeded b b') ∨
      (ran = false ∧ automationConditionsMatch o.rule.conditions o.payload = false ∧
        Logs o.eventID o.rule.id .skipped b b') := by
  rw [runRule_eq] at h
  unfold actionsSucceed
  split at h
  · next hmatch =>
    split at h
    · cases h
    · next b₁ h₁ =>
      split at h
      · cases h
      · next b₂ h₂ =>
        cases h
        rw [h₁]
        exact .inl ⟨rfl, hmatch, rfl, reopened_logs (actions_apart h₁) h₂⟩
  · next hmatch =>
    split at h
    · cases h
    · next b₂ h₂ =>
      cases h
      exact .inr ⟨rfl, eq_false_of_ne_true hmatch, reopened_logs (.refl _) h₂⟩

theorem runRule_refused (h : runRule o previous b = .refused fault) :
    automationConditionsMatch o.rule.conditions o.payload = true ∧
      actionsSucceed o previous b = false := by
  rw [runRule_eq] at h
  unfold actionsSucceed
  split at h
  · next hmatch =>
    split at h
    · next fault' h₁ =>
      rw [h₁]
      exact ⟨hmatch, rfl⟩
    · split at h <;> cases h
  · split at h <;> cases h

/-- No row of the rule is left once a failure is deleted. -/
theorem reopen_free (hu : UniqueBy Execution.key b.executions)
    (hcurrent : findExecution o.eventID o.rule.id b = previous)
    (hopen : ¬(previous = some .succeeded ∨ previous = some .skipped)) :
    ∀ x ∈ (reopen o previous b).executions, x.key ≠ (o.eventID, o.rule.id) := by
  intro x hx hkey
  have hmem := reopen_executions.subset hx
  have hfind : b.executions.find? (fun y => y.key = (o.eventID, o.rule.id)) = some x :=
    hkey ▸ hu.find?_eq hmem
  have hprevious : previous = some x.status := by
    rw [← hcurrent, findExecution, hfind]
    rfl
  cases hst : x.status with
  | succeeded => exact hopen (.inl (hst ▸ hprevious))
  | skipped => exact hopen (.inr (hst ▸ hprevious))
  | failed =>
    rw [reopen, if_pos (hst ▸ hprevious), deleteFailed] at hx
    have hkept := (List.mem_filter.1 hx).2
    simp [hkey, hst] at hkept

/-- A transaction is not broken that finds the log as the worker has read it. -/
theorem runRule_not_broken (hu : UniqueBy Execution.key b.executions)
    (hcurrent : findExecution o.eventID o.rule.id b = previous)
    (hopen : ¬(previous = some .succeeded ∨ previous = some .skipped)) :
    runRule o previous b ≠ .broken fault := by
  have hfree := reopen_free hu hcurrent hopen
  have hinsert : ∀ {b₁ : Board} {status : ExecutionStatus}, Apart (reopen o previous b) b₁ →
      ∀ {fault : Fault}, insertExecution o.eventID o.rule.id status b₁ ≠ .error fault := by
    intro b₁ status hapart fault h
    unfold insertExecution at h
    split at h
    · next hany =>
      obtain ⟨x, hx, hk⟩ := List.any_eq_true.1 hany
      exact hfree x (hapart.executions ▸ hx) (of_decide_eq_true hk)
    · cases h
  intro h
  rw [runRule_eq] at h
  split at h
  · split at h
    · cases h
    · next b₁ h₁ =>
      split at h
      · next fault' h₂ => exact hinsert (actions_apart h₁) h₂
      · cases h
  · split at h
    · next fault' h₂ => exact hinsert (.refl _) h₂
    · cases h

end

/-! ## Where the workers are -/

section

variable (ok : UUID → Bool) (e : AutomationEvent) (rules : List AutomationRule) (s : Automation)

/-- The rule is done with: its actions have been applied, or it does not match. -/
def Passed (q : AutomationRule) : Prop :=
  (findExecution e.id q.id s.board = some .succeeded ∧
      automationConditionsMatch q.conditions e.payload = true ∧ ok q.id = true ∧
      (e.id, q.id) ∈ s.effects) ∨
    (findExecution e.id q.id s.board = some .skipped ∧
      automationConditionsMatch q.conditions e.payload = false)

def UpTo (before : List AutomationRule) : Prop := ∀ q ∈ before, e.fires q → Passed ok e s q

/-- A rule of the event, with the rules before it, which are done with. -/
structure Reached (before : List AutomationRule) (q : AutomationRule) (rest : List AutomationRule) :
    Prop where
  place : before ++ q :: rest = rules
  before : UpTo ok e s before
  fires : e.fires q

/-- The event has come to a rule that fails. -/
def Stuck : Prop :=
  ∃ before q rest, Reached ok e rules s before q rest ∧ blocks ok e q ∧
    (findExecution e.id q.id s.board).isSome

/-- What a stage of a worker says of the log. -/
def Stage.Sound : Stage → Prop
  | .claimed => True
  | .next rest => ∃ before, before ++ rest = rules ∧ UpTo ok e s before
  | .opened q rest previous => ∃ before, Reached ok e rules s before q rest ∧
      (previous = some .succeeded ∨ previous = some .skipped → Passed ok e s q)
  | .refused q _ => ∃ before rest, Reached ok e rules s before q rest ∧ blocks ok e q
  | .ended none => UpTo ok e s rules
  | .ended (some _) => Stuck ok e rules s

structure Inv : Prop where
  list : listAutomationRules s.board = rules
  keys : UniqueBy Execution.key s.board.executions
  events : ∀ x ∈ s.board.events, x.id = e.id → x.eventType = e.eventType ∧ x.payload = e.payload ∧
    (x.status = .succeeded → UpTo ok e s rules) ∧ (x.status = .failed → Stuck ok e rules s)
  running : ∀ r ∈ s.running, r.eventID = e.id → r.eventType = e.eventType ∧ r.payload = e.payload ∧
    r.stage.Sound ok e rules s
  log : ∀ x ∈ s.board.executions, x.eventId = e.id → ∃ before q rest,
    Reached ok e rules s before q rest ∧ q.id = x.ruleId ∧ (x.status ≠ .failed → Passed ok e s q)

/-- The rules that are done with, and the rows of the log, stay. -/
structure Keeps (s' : Automation) : Prop where
  passed : ∀ q ∈ rules, Passed ok e s q → Passed ok e s' q
  logged : ∀ q ∈ rules, (findExecution e.id q.id s.board).isSome →
    (findExecution e.id q.id s'.board).isSome

end

section

variable {ok : UUID → Bool} {e : AutomationEvent} {rules : List AutomationRule} {s s' : Automation}

theorem Passed.not_blocks {q : AutomationRule} (h : Passed ok e s q) : blocks ok e q = false := by
  unfold blocks
  rcases h with ⟨-, -, hok, -⟩ | ⟨-, hmatch⟩
  · rw [hok]
    simp
  · rw [hmatch]
    rfl

theorem Keeps.upTo (h : Keeps ok e rules s s') {before : List AutomationRule}
    (hsub : ∀ q ∈ before, q ∈ rules) (hb : UpTo ok e s before) : UpTo ok e s' before :=
  fun q hq hf => h.passed q (hsub q hq) (hb q hq hf)

theorem Keeps.reached (h : Keeps ok e rules s s') {before rest : List AutomationRule}
    {q : AutomationRule} (hr : Reached ok e rules s before q rest) :
    Reached ok e rules s' before q rest :=
  ⟨hr.place, h.upTo (fun _ hx => hr.place ▸ List.mem_append_left _ hx) hr.before, hr.fires⟩

theorem Reached.mem {before rest : List AutomationRule} {q : AutomationRule}
    (h : Reached ok e rules s before q rest) : q ∈ rules :=
  h.place ▸ List.mem_append_right _ (List.mem_cons_self ..)

theorem Keeps.stuck (h : Keeps ok e rules s s') (hs : Stuck ok e rules s) : Stuck ok e rules
    s' := by
  obtain ⟨before, q, rest, hr, hb, hl⟩ := hs
  exact ⟨before, q, rest, h.reached hr, hb, h.logged q hr.mem hl⟩

theorem Keeps.sound (h : Keeps ok e rules s s') : ∀ {st : Stage}, st.Sound ok e rules s →
    st.Sound ok e rules s'
  | .claimed, _ => trivial
  | .next _, ⟨before, hp, hb⟩ =>
    ⟨before, hp, h.upTo (fun _ hx => hp ▸ List.mem_append_left _ hx) hb⟩
  | .opened _ _ _, ⟨before, hr, hp⟩ =>
    ⟨before, h.reached hr, fun hprev => h.passed _ hr.mem (hp hprev)⟩
  | .refused _ _, ⟨before, rest, hr, hb⟩ => ⟨before, rest, h.reached hr, hb⟩
  | .ended none, hu => h.upTo (fun _ hx => hx) hu
  | .ended (some _), hst => h.stuck hst

/-- Nothing is lost while the log and the history of the effects only grow by other rules. -/
theorem Keeps.of_log (hfind : ∀ q ∈ rules, Passed ok e s q →
      findExecution e.id q.id s'.board = findExecution e.id q.id s.board)
    (hsome : ∀ q ∈ rules, (findExecution e.id q.id s.board).isSome →
      (findExecution e.id q.id s'.board).isSome)
    (heffects : ∀ p ∈ s.effects, p ∈ s'.effects) : Keeps ok e rules s s' where
  passed q hq hp := by
    have hsame := hfind q hq hp
    rcases hp with ⟨hf, hm, ho, he⟩ | ⟨hf, hm⟩
    · exact .inl ⟨hsame.trans hf, hm, ho, heffects _ he⟩
    · exact .inr ⟨hsame.trans hf, hm⟩
  logged := hsome

theorem Keeps.of_same (hlog : s'.board.executions = s.board.executions)
    (heffects : ∀ p ∈ s.effects, p ∈ s'.effects) : Keeps ok e rules s s' := by
  have hfind : ∀ q : AutomationRule, findExecution e.id q.id s'.board =
      findExecution e.id q.id s.board := fun q => by
    unfold findExecution
    rw [hlog]
  exact .of_log (fun q _ _ => hfind q) (fun q _ h => (hfind q).symm ▸ h) heffects

/-- A row of another rule is written, or a row of a rule that is not done with. -/
theorem Keeps.of_logs {eventID ruleID : UUID} {status : ExecutionStatus}
    (hlogs : Logs eventID ruleID status s.board s'.board)
    (hnew : eventID = e.id → ∀ q ∈ rules, q.id = ruleID → ¬Passed ok e s q)
    (heffects : ∀ p ∈ s.effects, p ∈ s'.effects) : Keeps ok e rules s s' := by
  refine .of_log (fun q hq hp => hlogs.others _ _ fun heq => ?_) (fun q hq hsome => ?_) heffects
  · obtain ⟨he, hr⟩ := Prod.mk.inj heq
    exact hnew he.symm q hq hr hp
  · by_cases hkey : (e.id, q.id) = (eventID, ruleID)
    · obtain ⟨he, hr⟩ := Prod.mk.inj hkey
      rw [he, hr, hlogs.found]
      rfl
    · rw [hlogs.others _ _ hkey]
      exact hsome

/-- The invariant after a step: what is new of it. -/
theorem Inv.of_keeps (hs : Inv ok e rules s) (hk : Keeps ok e rules s s')
    (hrules : s'.board.rules = s.board.rules) (hkeys : UniqueBy Execution.key s'.board.executions)
    (hevents : ∀ x ∈ s'.board.events, x.id = e.id → x ∈ s.board.events ∨
      (∃ y ∈ s.board.events, y.id = e.id ∧ x.eventType = y.eventType ∧ x.payload = y.payload) ∧
        (x.status = .succeeded → UpTo ok e s' rules) ∧ (x.status = .failed → Stuck ok e rules s'))
    (hrunning : ∀ r ∈ s'.running, r.eventID = e.id → r ∈ s.running ∨
      r.eventType = e.eventType ∧ r.payload = e.payload ∧ r.stage.Sound ok e rules s')
    (hlog : ∀ x ∈ s'.board.executions, x.eventId = e.id → x ∈ s.board.executions ∨
      ∃ before q rest, Reached ok e rules s' before q rest ∧ q.id = x.ruleId ∧
        (x.status ≠ .failed → Passed ok e s' q)) : Inv ok e rules s' where
  list := by
    rw [← hs.list]
    unfold listAutomationRules
    rw [hrules]
  keys := hkeys
  events x hx hid := by
    rcases hevents x hx hid with hold | ⟨⟨y, hy, hyid, ht, hp⟩, hsucc, hfail⟩
    · obtain ⟨ht, hp, hsucc, hfail⟩ := hs.events x hold hid
      exact ⟨ht, hp, fun h => hk.upTo (fun _ hx => hx) (hsucc h), fun h => hk.stuck (hfail h)⟩
    · obtain ⟨ht', hp', -, -⟩ := hs.events y hy hyid
      exact ⟨ht.trans ht', hp.trans hp', hsucc, hfail⟩
  running r hr hid := by
    rcases hrunning r hr hid with hold | hnew
    · obtain ⟨ht, hp, hst⟩ := hs.running r hold hid
      exact ⟨ht, hp, hk.sound hst⟩
    · exact hnew
  log x hx hid := by
    rcases hlog x hx hid with hold | hnew
    · obtain ⟨before, q, rest, hr, hqid, hp⟩ := hs.log x hold hid
      exact ⟨before, q, rest, hk.reached hr, hqid, fun h => hk.passed q hr.mem (hp h)⟩
    · exact hnew

/-- A worker comes to its next stage. -/
theorem Inv.proceed (hs : Inv ok e rules s) {n : Nat} {r : AutomationRun}
    (hn : s.running[n]? = some r)
    {st : Stage} {b : Board} {effects : List (UUID × UUID)}
    (hk : Keeps ok e rules s ⟨b, s.running.set n { r with stage := st }, effects⟩)
    (hrules : b.rules = s.board.rules) (hevents : b.events = s.board.events)
    (hkeys : UniqueBy Execution.key b.executions)
    (hst : r.eventID = e.id →
      st.Sound ok e rules ⟨b, s.running.set n { r with stage := st }, effects⟩)
    (hlog : ∀ x ∈ b.executions, x.eventId = e.id → x ∈ s.board.executions ∨ ∃ before q rest,
      Reached ok e rules ⟨b, s.running.set n { r with stage := st }, effects⟩ before q rest ∧
        q.id = x.ruleId ∧ (x.status ≠ .failed →
          Passed ok e ⟨b, s.running.set n { r with stage := st }, effects⟩ q)) :
    Inv ok e rules ⟨b, s.running.set n { r with stage := st }, effects⟩ := by
  refine hs.of_keeps hk hrules hkeys (fun x hx _ => .inl (hevents ▸ hx)) (fun r' hr' hid => ?_) hlog
  rcases List.mem_or_eq_of_mem_set hr' with hold | rfl
  · exact .inl hold
  · obtain ⟨ht, hp, -⟩ := hs.running r (List.mem_of_getElem? hn) hid
    exact .inr ⟨ht, hp, hst hid⟩

/-- A worker comes to its next stage and leaves the tables as they are. -/
theorem Inv.move (hs : Inv ok e rules s) {n : Nat} {r : AutomationRun} (hn : s.running[n]? = some r)
    {st : Stage} (hst : r.eventID = e.id → st.Sound ok e rules s) :
    Inv ok e rules ⟨s.board, s.running.set n { r with stage := st }, s.effects ++ []⟩ := by
  have hk : Keeps ok e rules s ⟨s.board, s.running.set n { r with stage := st }, s.effects ++ []⟩ :=
    .of_same rfl fun p hp => List.mem_append_left _ hp
  exact hs.proceed hn hk rfl rfl hs.keys (fun hid => hk.sound (hst hid)) fun x hx _ => .inl hx

/-- A worker comes to its next stage and writes a row of the log. -/
theorem Inv.write (hs : Inv ok e rules s) {n : Nat} {r : AutomationRun}
    (hn : s.running[n]? = some r)
    {st : Stage} {b : Board} {effects : List (UUID × UUID)} {ruleID : UUID}
      {status : ExecutionStatus}
    (hlogs : Logs r.eventID ruleID status s.board b)
    (hnew : r.eventID = e.id → ∀ q ∈ rules, q.id = ruleID → ¬Passed ok e s q)
    (heffects : ∀ p ∈ s.effects, p ∈ effects)
    (hst : r.eventID = e.id → ∀ s' : Automation, s'.board = b → s'.effects = effects →
      Keeps ok e rules s s' → st.Sound ok e rules s' ∧ ∃ before q rest,
        Reached ok e rules s' before q rest ∧ q.id = ruleID ∧ (status ≠ .failed → Passed ok e s'
          q)) :
    Inv ok e rules ⟨b, s.running.set n { r with stage := st }, effects⟩ := by
  have hk : Keeps ok e rules s ⟨b, s.running.set n { r with stage := st }, effects⟩ :=
    .of_logs hlogs hnew heffects
  refine hs.proceed hn hk hlogs.rules hlogs.events (hlogs.keys hs.keys)
    (fun hid => (hst hid _ rfl rfl hk).1) fun x hx hid => ?_
  rcases hlogs.rows x hx with hold | rfl
  · exact .inl hold
  · exact .inr (hst hid _ rfl rfl hk).2

/-- The rules up to a rule that is passed over or done with. -/
theorem sound_next {before rest : List AutomationRule} {q : AutomationRule}
    (hplace : before ++ q :: rest = rules) (hbefore : UpTo ok e s before)
    (hq : e.fires q → Passed ok e s q) : (Stage.next rest).Sound ok e rules s := by
  refine ⟨before ++ [q], by rw [List.append_assoc]; exact hplace, fun x hx hf => ?_⟩
  rcases List.mem_append.1 hx with hx | hx
  · exact hbefore x hx hf
  · cases List.mem_singleton.1 hx
    exact hq hf

/-- What the log has of a rule that is not a failure. -/
theorem Inv.passed (hs : Inv ok e rules s) (hu : UniqueBy AutomationRule.id rules)
    {q : AutomationRule}
    (hq : q ∈ rules) {status : ExecutionStatus} (hf : findExecution e.id q.id s.board = some status)
    (hne : status ≠ .failed) : Passed ok e s q := by
  unfold findExecution at hf
  obtain ⟨x, hx, rfl⟩ := Option.map_eq_some_iff.1 hf
  have hkey : x.key = (e.id, q.id) := by simpa using List.find?_some hx
  obtain ⟨he, hr⟩ := Prod.mk.inj hkey
  obtain ⟨before, q', rest, hreach, hid, hpassed⟩ := hs.log x (List.mem_of_find?_eq_some hx) he
  obtain rfl := hu.eq hreach.mem hq (hid.trans hr)
  exact hpassed hne

/-- The transaction of a rule. -/
theorem Inv.run (hs : Inv ok e rules s) (hu : UniqueBy AutomationRule.id rules) (d : Draw)
    (parse : String → Option UUID) {n : Nat} {r : AutomationRun} (hn : s.running[n]? = some r)
    {q : AutomationRule} {rest : List AutomationRule} {previous : Option ExecutionStatus}
    (hstage : r.stage = .opened q rest previous)
    (hopen : ¬(previous = some .succeeded ∨ previous = some .skipped))
    (hsteady : r.eventID = e.id → automationConditionsMatch q.conditions e.payload = true →
      actionsSucceed (r.occasion parse d q) previous s.board = ok q.id)
    (hcurrent : r.eventID = e.id → findExecution e.id q.id s.board = previous) :
    ∀ {o : Outcome}, runRule (r.occasion parse d q) previous s.board = o →
      match o with
      | .committed b ran => Inv ok e rules ⟨b, s.running.set n { r with stage := .next rest },
          s.effects ++ ((if ran then some q.id else none).map (r.eventID, ·)).toList⟩
      | .refused fault =>
        Inv ok e rules ⟨s.board, s.running.set n { r with stage := .refused q fault }, s.effects ++
          []⟩
      | .broken fault =>
        Inv ok e rules ⟨s.board, s.running.set n { r with stage := .ended (some fault) },
          s.effects ++ []⟩ := by
  have hr := hs.running r (List.mem_of_getElem? hn)
  have hreach : r.eventID = e.id → r.payload = e.payload ∧ ∃ before, Reached ok e rules s before q
    rest :=
    fun hid => by
      obtain ⟨-, hp, hst⟩ := hr hid
      rw [hstage] at hst
      obtain ⟨before, hreach, -⟩ := hst
      exact ⟨hp, before, hreach⟩
  -- the log has no success of the rule
  have hnew : r.eventID = e.id → ∀ x ∈ rules, x.id = q.id → ¬Passed ok e s x := by
    intro hid x _ hx hp
    have hprevious := hcurrent hid
    rcases hp with ⟨hf, -⟩ | ⟨hf, -⟩
    · exact hopen (.inl (hprevious.symm.trans (hx ▸ hf)))
    · exact hopen (.inr (hprevious.symm.trans (hx ▸ hf)))
  intro o h
  cases o with
  | committed b ran =>
    rcases runRule_committed h with ⟨rfl, hmatch, hok, hlogs⟩ | ⟨rfl, hmatch, hlogs⟩
    · refine hs.write hn hlogs hnew (fun p hp => List.mem_append_left _ hp)
        fun hid s' hb he hk => ?_
      obtain ⟨hp, before, hreach⟩ := hreach hid
      have hmatch' : automationConditionsMatch q.conditions e.payload = true := hp ▸ hmatch
      have hpassed : Passed ok e s' q := .inl ⟨hb ▸ hid ▸ hlogs.found, hmatch',
        (hsteady hid hmatch').symm.trans hok, by rw [he, hid]; simp⟩
      have hreach' := hk.reached hreach
      exact ⟨sound_next hreach'.place hreach'.before fun _ => hpassed, before, q, rest, hreach',
        rfl,
        fun _ => hpassed⟩
    · refine hs.write hn hlogs hnew (fun p hp => List.mem_append_left _ hp)
        fun hid s' hb he hk => ?_
      obtain ⟨hp, before, hreach⟩ := hreach hid
      have hpassed : Passed ok e s' q := .inr ⟨hb ▸ hid ▸ hlogs.found, hp ▸ hmatch⟩
      have hreach' := hk.reached hreach
      exact ⟨sound_next hreach'.place hreach'.before fun _ => hpassed, before, q, rest, hreach',
        rfl,
        fun _ => hpassed⟩
  | refused fault =>
    obtain ⟨hmatch, hfail⟩ := runRule_refused h
    refine hs.move hn fun hid => ?_
    obtain ⟨hp, before, hreach⟩ := hreach hid
    have hmatch' : automationConditionsMatch q.conditions e.payload = true := hp ▸ hmatch
    refine ⟨before, rest, hreach, ?_⟩
    rw [blocks, hmatch', ← hsteady hid hmatch', hfail]
    rfl
  | broken fault =>
    refine hs.move hn fun hid => ?_
    refine absurd h (runRule_not_broken hs.keys ?_ hopen)
    show findExecution r.eventID q.id s.board = previous
    rw [hid]
    exact hcurrent hid

/-- A worker leaves its event. -/
theorem Inv.settle (hs : Inv ok e rules s) {n : Nat} {r : AutomationRun}
    (hn : s.running[n]? = some r)
    {failure : Option Fault} (hstage : r.stage = .ended failure) (now : Time) :
    Inv ok e rules ⟨settleEvent now r failure s.board, s.running.eraseIdx n, s.effects ++ []⟩ := by
  have hboard : (settleEvent now r failure s.board).rules = s.board.rules ∧
      (settleEvent now r failure s.board).executions = s.board.executions := by
    unfold settleEvent updateEvent
    cases failure <;> exact ⟨rfl, rfl⟩
  have hk : Keeps ok e rules s
      ⟨settleEvent now r failure s.board, s.running.eraseIdx n, s.effects ++ []⟩ :=
    .of_same hboard.2 fun p hp => List.mem_append_left _ hp
  refine hs.of_keeps hk hboard.1 (hboard.2 ▸ hs.keys) (fun x hx hid => ?_)
    (fun r' hr' _ => .inl ((List.eraseIdx_sublist _ _).subset hr')) fun x hx _ =>
      .inl (hboard.2 ▸ hx)
  have hsound : r.eventID = e.id → (Stage.ended failure).Sound ok e rules s := fun hr =>
    hstage ▸ (hs.running r (List.mem_of_getElem? hn) hr).2.2
  cases failure with
  | none =>
    obtain ⟨y, hy, rfl⟩ := List.mem_map.1 hx
    split
    · next hp =>
      obtain ⟨hpid, -⟩ := Bool.and_eq_true_iff.1 hp
      rw [if_pos hp] at hid
      refine .inr ⟨⟨y, hy, hid, rfl, rfl⟩, fun _ => ?_, nofun⟩
      exact hk.upTo (fun _ hx => hx) (hsound ((of_decide_eq_true hpid).symm.trans hid))
    · exact .inl hy
  | some fault =>
    obtain ⟨y, hy, rfl⟩ := List.mem_map.1 hx
    split
    · next hp =>
      rw [if_pos hp] at hid
      refine .inr ⟨⟨y, hy, hid, rfl, rfl⟩, nofun, fun _ => ?_⟩
      exact hk.stuck (hsound ((of_decide_eq_true hp).symm.trans hid))
    · exact .inl hy

theorem Inv.claim (hs : Inv ok e rules s) {workerID : String} {lease now : Time} {pick : UUID}
    (h : claimEvent workerID lease now pick s = some s') : Inv ok e rules s' := by
  obtain ⟨y, hy, rfl⟩ := Option.map_eq_some_iff.1 h
  have hmem := List.mem_of_find?_eq_some hy
  refine hs.of_keeps (.of_same rfl fun p hp => hp) rfl hs.keys (fun x hx hid => ?_)
    (fun r hr hid => ?_) fun x hx _ => .inl hx
  · obtain ⟨z, hz, rfl⟩ := List.mem_map.1 hx
    split
    · next hp =>
      rw [if_pos hp] at hid
      exact .inr ⟨⟨z, hz, hid, rfl, rfl⟩, nofun, nofun⟩
    · exact .inl hz
  · rcases List.mem_append.1 hr with hr | hr
    · exact .inl hr
    · cases List.mem_singleton.1 hr
      obtain ⟨ht, hp, -⟩ := hs.events y hmem hid
      exact .inr ⟨ht, hp, trivial⟩

/-- Every step keeps the places of the workers. -/
theorem Inv.step (hs : Inv ok e rules s) (hu : UniqueBy AutomationRule.id rules)
    {parse : String → Option UUID} {l : AutomationStep} (hl : undisturbed parse e.id ok l s)
    (h : Automation.step parse l s = some s') : Inv ok e rules s' := by
  cases l with
  | claim workerID lease now pick => exact hs.claim h
  | crash n =>
    cases h
    exact hs.of_keeps (.of_same rfl fun p hp => hp) rfl hs.keys (fun x hx _ => .inl hx)
      (fun r hr _ => .inl ((List.eraseIdx_sublist _ _).subset hr)) fun x hx _ => .inl hx
  | advance n d =>
    obtain ⟨r, hn, rfl⟩ := Option.map_eq_some_iff.1 h
    obtain ⟨hsteady, hcurrent⟩ := hl
    simp only [steady, current, hn, Option.all_some] at hsteady hcurrent
    have hr := hs.running r (List.mem_of_getElem? hn)
    unfold AutomationRun.advance
    cases hstage : r.stage with
    | claimed =>
      simp only [Option.elim_some, Option.map_none, Option.toList_none]
      refine hs.move hn fun _ => ?_
      rw [hs.list]
      exact ⟨[], rfl, fun q hq => absurd hq List.not_mem_nil⟩
    | next rest =>
      cases rest with
      | nil =>
        simp only [Option.elim_some, Option.map_none, Option.toList_none]
        refine hs.move hn fun hid => ?_
        obtain ⟨-, -, hst⟩ := hr hid
        rw [hstage] at hst
        obtain ⟨before, hplace, hbefore⟩ := hst
        rw [List.append_nil] at hplace
        exact hplace ▸ hbefore
      | cons q rest =>
        have hplaced : r.eventID = e.id → r.eventType = e.eventType ∧
            ∃ before, before ++ q :: rest = rules ∧ UpTo ok e s before := fun hid => by
          obtain ⟨ht, -, hst⟩ := hr hid
          rw [hstage] at hst
          exact ⟨ht, hst⟩
        dsimp only
        split
        · next hskip =>
          simp only [Option.elim_some, Option.map_none, Option.toList_none]
          refine hs.move hn fun hid => ?_
          obtain ⟨ht, before, hplace, hbefore⟩ := hplaced hid
          refine sound_next hplace hbefore fun hfires => ?_
          obtain ⟨he, htrigger⟩ := Bool.and_eq_true_iff.1 hfires
          simp [he, ht, of_decide_eq_true htrigger] at hskip
        · next hfires =>
          simp only [Option.elim_some, Option.map_none, Option.toList_none]
          refine hs.move hn fun hid => ?_
          obtain ⟨ht, before, hplace, hbefore⟩ := hplaced hid
          have hfires : e.fires q := by simpa [AutomationEvent.fires, ht] using hfires
          have hreach : Reached ok e rules s before q rest := ⟨hplace, hbefore, hfires⟩
          refine ⟨before, hreach, fun hprev => ?_⟩
          rw [hid] at hprev
          rcases hprev with hprev | hprev
          · exact hs.passed hu hreach.mem hprev nofun
          · exact hs.passed hu hreach.mem hprev nofun
    | opened q rest previous =>
      rw [hstage] at hsteady hcurrent
      dsimp only at hsteady hcurrent ⊢
      split
      · next hprev =>
        simp only [Option.elim_some, Option.map_none, Option.toList_none]
        refine hs.move hn fun hid => ?_
        obtain ⟨-, -, hst⟩ := hr hid
        rw [hstage] at hst
        obtain ⟨before, hreach, hpassed⟩ := hst
        exact sound_next hreach.place hreach.before fun _ => hpassed hprev
      · next hopen =>
        have hrun := hs.run hu d parse hn hstage hopen (fun hid hmatch => ?_)
          (fun hid => by simpa [hid] using hcurrent) rfl
        · split <;> simp_all
        · have hp := (hr hid).2.1
          rw [not_or] at hopen
          simpa [hid, hp, hmatch, hopen.1, hopen.2] using hsteady
    | refused q fault =>
      simp only [Option.elim_some, Option.map_none, Option.toList_none]
      have hreach : r.eventID = e.id → ∃ before rest, Reached ok e rules s before q rest ∧
          blocks ok e q := fun hid => by
        obtain ⟨-, -, hst⟩ := hr hid
        rw [hstage] at hst
        exact hst
      refine hs.write hn recordFailure_logs (fun hid x hx hxid hp => ?_)
        (fun p hp => List.mem_append_left _ hp) fun hid s' hb _ hk => ?_
      · obtain ⟨before, rest, hreach, hb⟩ := hreach hid
        obtain rfl := hu.eq hx hreach.mem hxid
        rw [hp.not_blocks] at hb
        cases hb
      · obtain ⟨before, rest, hreach, hblocks⟩ := hreach hid
        have hreach' := hk.reached hreach
        refine ⟨⟨before, q, rest, hreach', hblocks, ?_⟩, before, q, rest, hreach', rfl,
          fun hne => absurd rfl hne⟩
        rw [hb, ← hid, recordFailure_logs.found]
        rfl
    | ended failure =>
      simp only [Option.elim_none, Option.map_none, Option.toList_none]
      exact hs.settle hn hstage d.now

/-! ## The end of an event -/

theorem Unstarted.inv (h : Unstarted e s) : Inv ok e (listAutomationRules s.board) s where
  list := rfl
  keys := h.keys
  events x hx hid := by
    obtain rfl := h.eventIds.eq hx h.event hid
    refine ⟨rfl, rfl, fun hst => ?_, fun hst => ?_⟩
    · rw [h.pending] at hst
      cases hst
    · rw [h.pending] at hst
      cases hst
  running r hr hid := absurd hid (h.idle r hr)
  log x hx hid := absurd hid (h.unlogged x hx)

theorem Passed.served {q : AutomationRule} (h : Passed ok e s q) : Served ok e s q := by
  rcases h with ⟨hf, -, -, he⟩ | ⟨hf, hmatch⟩
  · exact ⟨by rw [hf]; rfl, fun _ _ => he⟩
  · exact ⟨by rw [hf]; rfl, fun hm _ => by rw [hmatch] at hm; cases hm⟩

/-- The rules that the event triggers, on both sides of one of them. -/
theorem Reached.split {before rest : List AutomationRule} {q : AutomationRule}
    (h : Reached ok e rules s before q rest) :
    rules.filter e.fires = before.filter e.fires ++ q :: rest.filter e.fires := by
  rw [← h.place, List.filter_append, List.filter_cons_of_pos h.fires]

/-- A rule that is reached last: the others are done with. -/
theorem Reached.last (hu : UniqueBy AutomationRule.id rules)
    {before rest front : List AutomationRule}
    {q : AutomationRule} (h : Reached ok e rules s before q rest)
    (hlast : rules.filter e.fires = front ++ [q]) : ∀ x ∈ front, Passed ok e s x := by
  have hsplit := h.split
  have hnodup : (rules.filter e.fires).Nodup := (List.Nodup.of_map _ hu).filter _
  rcases List.eq_nil_or_concat (rest.filter e.fires) with hnil | ⟨back, z, hz⟩
  · rw [hnil] at hsplit
    obtain ⟨hfront, -⟩ := List.append_inj' (hlast.symm.trans hsplit) rfl
    intro x hx
    obtain ⟨hx, hf⟩ := List.mem_filter.1 (hfront ▸ hx)
    exact h.before x hx hf
  · rw [hz, List.concat_eq_append, ← List.cons_append, ← List.append_assoc] at hsplit
    obtain ⟨hfront, hq⟩ := List.append_inj' (hlast.symm.trans hsplit) rfl
    rw [hlast] at hnodup
    have hmem : q ∈ front := hfront ▸ List.mem_append_right _ (List.mem_cons_self ..)
    exact absurd rfl ((List.nodup_append.1 hnodup).2.2 q hmem q (List.mem_singleton.2 rfl))

/-- All rules are served at the end if only the last may fail. -/
theorem Inv.served (hs : Inv ok e rules s) {x : AutomationEvent} (hx : x ∈ s.board.events)
    (hid : x.id = e.id) (hfinal : x.final = true)
    (hblocks : ∀ q ∈ (rules.filter e.fires).dropLast, blocks ok e q = false) :
    ∀ q ∈ rules.filter e.fires, Served ok e s q := by
  obtain ⟨-, -, hsucc, hfail⟩ := hs.events x hx hid
  rcases Bool.or_eq_true_iff.1 hfinal with hst | hst
  · intro q hq
    obtain ⟨hq, hf⟩ := List.mem_filter.1 hq
    exact (hsucc (of_decide_eq_true hst) q hq hf).served
  · obtain ⟨hst, -⟩ := Bool.and_eq_true_iff.1 hst
    obtain ⟨before, q, rest, hreach, hb, hlogged⟩ := hfail (of_decide_eq_true hst)
    have hsplit := hreach.split
    intro y hy
    rw [hsplit] at hy hblocks
    rcases List.mem_append.1 hy with hy | hy
    · obtain ⟨hy, hf⟩ := List.mem_filter.1 hy
      exact (hreach.before y hy hf).served
    rcases List.mem_cons.1 hy with rfl | hy
    · refine ⟨hlogged, fun _ hok => ?_⟩
      rw [blocks, hok] at hb
      simp at hb
    · -- a rule after the one that fails
      have hne : rest.filter e.fires ≠ [] := List.ne_nil_of_mem hy
      rw [List.dropLast_append_of_ne_nil (List.cons_ne_nil _ _), List.dropLast_cons_of_ne_nil hne]
        at hblocks
      rw [hblocks q (List.mem_append_right _ (List.mem_cons_self ..))] at hb
      cases hb

end

/-! ## A rule after one that fails -/

/-- The first rule has an action of an unknown type, which fails; the second one has no actions. -/
def failingRules : List AutomationRule := [
  { id := idOf '1', code := "first", name := "First", triggerEvent := "media", conditions := []
    actions := [[("type", "unknown")]], enabled := true, priority := 1 },
  { id := idOf '2', code := "second", name := "Second", triggerEvent := "media", conditions := []
    actions := [], enabled := true, priority := 2 }]

def mediaEvent : AutomationEvent where
  id := idOf 'e'
  eventKey := "media:1"
  eventType := "media"
  subjectType := "media"
  subjectId := "1"
  payload := []
  availableAt := 0
  createdAt := 0

def queued (rules : List AutomationRule) : Automation where
  board := { rules, events := [mediaEvent] }

/-- A worker claims the event and works on it until it leaves it. -/
def workOff (stages : Nat) : List AutomationStep :=
  .claim "w" 0 1 (idOf 'e') :: List.replicate stages (.advance 0 ⟨1, idOf 'a', idOf 'b'⟩)

def onlySecond (id : UUID) : Bool := id = idOf '2'

instance (parse : String → Option UUID) (i : UUID) (ok : UUID → Bool) (l : AutomationStep)
    (s : Automation) : Decidable (undisturbed parse i ok l s) :=
  inferInstanceAs (Decidable (_ ∧ _))

/-- With the rule that fails at the end. -/
def lastFails : List AutomationRule := failingRules.map fun q => { q with priority := 3 - q.priority
    }

end Sakura.Community
