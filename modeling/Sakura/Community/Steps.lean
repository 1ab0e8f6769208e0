/-
  What the steps of the system do to media requests.

  * `executeAutomationAction_course`, `createMediaRequest_course`, …: the transactions of the rules, and
    the calls of the service;
  * `Step.Heeds`: a condition on the requests that a step hands to MoviePilot or sets to downloading;
  * `step_course`: what a step does, under such a condition.
-/
import Sakura.Community.Turns

namespace Sakura.Community

open Txn

/-! ## Automation -/

section

variable {o : Occasion} {b b' : Board} {action : Fields}

/-- The action enqueues a job for the request `r`, if it is not refused. -/
structure Occasion.Queues (o : Occasion) (action : Fields) (r : MediaRequest) (b : Board) : Prop where
  kind : normalize (action.sprint "type") = "submit_moviepilot"
  found : ∃ id, automationUUID o.parse (action.sprint "request_id") o.payload "media_request_id" = .ok id ∧
    findRequest id b = .ok r
  free : activeJob r.mediaId b = none

/-- The action `a` comes to be executed on the tables `b'`. -/
inductive Reaches (o : Occasion) : List Fields → Board → Fields → Board → Prop
  | here {a as b} : Reaches o (a :: as) b a b
  | later {a as b b₁ a' b'} : executeAutomationAction o a b = .ok b₁ → Reaches o as b₁ a' b' →
      Reaches o (a :: as) b a' b'

theorem faultOf_ok {α : Type} {x : Except Err α} {a : α} (h : faultOf x = .ok a) : x = .ok a := by
  cases x with
  | error e => cases h
  | ok a' =>
    cases h
    rfl

theorem permanent_ok {α : Type} {x : Except Err α} {a : α} (h : permanent x = .ok a) : x = .ok a := by
  cases x with
  | error e => cases h
  | ok a' =>
    cases h
    rfl

theorem notifyAccount_aside (h : notifyAccount o action b = .ok b') : Aside b b' := by
  obtain ⟨_, -, h⟩ := except_bind_ok h
  dsimp only at h
  split at h
  · cases h
  · exact queuePreferredNotification_aside (faultOf_ok h)

theorem submitAutomation_course (hkind : normalize (action.sprint "type") = "submit_moviepilot")
    (h : submitAutomation o action b = .ok b') : ∃ ts, Course b ts b' ∧ ∀ t ∈ ts,
      t.writer = .automation ∧ ∃ r, o.Queues action r b ∧ t.id = r.id ∧ t.before = some r.status := by
  obtain ⟨requestID, hid, h⟩ := except_bind_ok h
  obtain ⟨r, hr, h⟩ := except_bind_ok h
  obtain ⟨hrid, -, hst⟩ := findRequest_ok (faultOf_ok hr)
  split at h
  · cases h
    exact ⟨[], .refl _, fun t ht => by cases ht⟩
  · next hfree =>
    obtain ⟨b₁, h₁, h⟩ := except_bind_ok h
    obtain ⟨b₂, h₂, h⟩ := except_bind_ok h
    cases h
    obtain ⟨hreq₁, hev₁, hjobs⟩ := insertJob_ok (faultOf_ok h₁)
    cases updateRequest_ok (faultOf_ok h₂)
    subst hrid
    refine ⟨[⟨.automation, r.id, some r.status, r.status.queue, _, some o.jobID⟩],
      Course.turn hst.symm ?_ (moved_put (congrArg (put _ · _) hreq₁) rfl rfl)
        (congrArg (· ++ [_]) hev₁) hjobs, fun t ht => ?_⟩
    · exact ⟨rfl, rfl, r.status, rfl, rfl, rfl, rfl⟩
    · rw [List.mem_singleton.1 ht]
      exact ⟨rfl, r, ⟨hkind, ⟨_, permanent_ok hid, faultOf_ok hr⟩, by simpa using hfree⟩, rfl, rfl⟩

theorem changeStatus_course {r : MediaRequest} {status : RequestStatus} {reason : String}
    (hst : b.statusOf r.id = some r.status) (hvalid : validRequestTransition r.status status)
    (h : changeStatus o r status reason b = .ok b') :
    ∃ t, Course b [t] b' ∧ t.writer = .update := by
  obtain ⟨text, -, h⟩ := except_bind_ok h
  obtain ⟨b₁, h₁, h⟩ := except_bind_ok h
  cases updateRequest_ok (faultOf_ok h₁)
  refine ⟨⟨.update, r.id, some r.status, status,
      { requestId := r.id, eventType := "automation_status_changed", fromStatus := some r.status
        toStatus := some status, actor := o.actor, reason := some text }, none⟩,
    Course.aside ?_ (notifyRequestSubscribers_aside (faultOf_ok h)), rfl⟩
  refine Course.turn hst.symm ?_ (moved_put rfl rfl rfl) rfl fun j hj => Or.inl hj
  exact ⟨rfl, rfl, r.status, ⟨rfl, rfl, rfl, rfl⟩, hvalid⟩

theorem setRequestStatus_course (h : setRequestStatus o action b = .ok b') :
    ∃ ts, Course b ts b' ∧ ∀ t ∈ ts, t.writer = .update := by
  obtain ⟨requestID, -, h⟩ := except_bind_ok h
  cases hs : statusOf (normalize (action.sprint "status")) with
  | none =>
    rw [hs] at h
    cases h
  | some status =>
    rw [hs] at h
    obtain ⟨r, hr, h⟩ := except_bind_ok (h : setStatus o requestID status _ b = .ok b')
    obtain ⟨hid, -, hst⟩ := findRequest_ok (faultOf_ok hr)
    split at h
    · cases h
      exact ⟨[], .refl _, fun t ht => by cases ht⟩
    · split at h
      · cases h
      · next hvalid =>
        have hvalid' : validRequestTransition r.status status = true := by simpa using hvalid
        obtain ⟨t, hcourse, hw⟩ := changeStatus_course (hid ▸ hst) hvalid' h
        exact ⟨[t], hcourse, fun t' ht' => List.mem_singleton.1 ht' ▸ hw⟩

/-- A turn of an action: it sets a status, or enqueues a job. -/
def Turn.OfAction (t : Turn) (o : Occasion) (action : Fields) (b : Board) : Prop :=
  t.writer = .update ∨
    (t.writer = .automation ∧ ∃ r, o.Queues action r b ∧ t.id = r.id ∧ t.before = some r.status)

theorem executeAutomationAction_course (h : executeAutomationAction o action b = .ok b') :
    ∃ ts, Course b ts b' ∧ ∀ t ∈ ts, t.OfAction o action b := by
  unfold executeAutomationAction at h
  split at h
  · exact ⟨[], (notifyAccount_aside h).course, fun t ht => by cases ht⟩
  · next hkind =>
    obtain ⟨ts, hcourse, hts⟩ := submitAutomation_course hkind h
    exact ⟨ts, hcourse, fun t ht => Or.inr (hts t ht)⟩
  · obtain ⟨ts, hcourse, hts⟩ := setRequestStatus_course h
    exact ⟨ts, hcourse, fun t ht => Or.inl (hts t ht)⟩
  · cases h

theorem actions_course {actions : List Fields}
    (h : actions.foldlM (fun b action => executeAutomationAction o action b) b = .ok b') :
    ∃ ts, Course b ts b' ∧ ∀ t ∈ ts, ∃ action b₁, Reaches o actions b action b₁ ∧
      t.OfAction o action b₁ := by
  induction actions generalizing b with
  | nil =>
    cases h
    exact ⟨[], .refl _, fun t ht => by cases ht⟩
  | cons a as ih =>
    rw [List.foldlM_cons] at h
    obtain ⟨b₁, h₁, h⟩ := except_bind_ok h
    obtain ⟨ts, hts, hall⟩ := executeAutomationAction_course h₁
    obtain ⟨ts', hts', hall'⟩ := ih h
    refine ⟨ts ++ ts', hts.trans hts', fun t ht => ?_⟩
    rcases List.mem_append.1 ht with ht | ht
    · exact ⟨a, b, .here, hall t ht⟩
    · obtain ⟨action, b₂, hreach, htrue⟩ := hall' t ht
      exact ⟨action, b₂, .later h₁ hreach, htrue⟩

/-- The tables on which the actions of a rule begin. -/
def reopen (o : Occasion) (previous : Option ExecutionStatus) (b : Board) : Board :=
  if previous = some .failed then deleteFailed o.eventID o.rule.id b else b

theorem reopen_aside {previous : Option ExecutionStatus} : Aside b (reopen o previous b) := by
  unfold reopen
  split
  · exact ⟨rfl, rfl, rfl⟩
  · exact .refl _

theorem insertExecution_aside {eventID ruleID : UUID} {status : ExecutionStatus}
    (h : insertExecution eventID ruleID status b = .ok b') : Aside b b' := by
  unfold insertExecution at h
  split at h
  · cases h
  · cases h
    exact ⟨rfl, rfl, rfl⟩

/-- The transaction of a rule that is committed. -/
theorem runRule_course {previous : Option ExecutionStatus} {ran : Bool}
    (h : runRule o previous b = .committed b' ran) : ∃ ts, Course b ts b' ∧ ∀ t ∈ ts,
      ran = true ∧ ∃ action b₁, Reaches o o.rule.actions (reopen o previous b) action b₁ ∧
        t.OfAction o action b₁ := by
  have haside : Aside b (reopen o previous b) := reopen_aside
  unfold runRule at h
  extract_lets b₀ at h
  change Aside b b₀ at haside
  split at h
  · split at h
    · cases h
    · next b₁ h₁ =>
      split at h
      · cases h
      · next b₂ h₂ =>
        cases h
        obtain ⟨ts, hts, hall⟩ := actions_course h₁
        exact ⟨ts, (haside.course.trans hts).aside (insertExecution_aside h₂),
          fun t ht => ⟨rfl, hall t ht⟩⟩
  · split at h
    · cases h
    · next b₁ h₁ =>
      cases h
      exact ⟨[], (haside.trans (insertExecution_aside h₁)).course, fun t ht => by cases ht⟩

end

/-! ## Calls of the service -/

section

variable {b v v' : Board} {d : RequestDraw} {catalog : Catalog} {accountID mediaID : UUID}
  {note reason : String} {actor : Actor} {r : MediaRequest} {u : Unit}

/-- A statement that is recorded for a request and names no status. -/
theorem course_quiet {e : RequestEvent} (hr : v'.statusOf = v.statusOf)
    (hu : UniqueBy MediaRequest.id v.requests → UniqueBy MediaRequest.id v'.requests)
    (hev : v'.requestEvents = v.requestEvents ++ [e]) (he : e.toStatus = none) (hj : v'.jobs = v.jobs) :
    Course v [] v' where
  turns := by
    have hview : v'.view = v.view := by
      funext id
      simp [Board.view, hr, hev, he]
    rw [hview]
    exact .nil
  jobs id j hj' := Or.inl (by rwa [Board.HasJob, hj] at hj')
  unique := hu
  lawful t ht := by cases ht

theorem run_recordEvent {e : RequestEvent} (h : (recordEvent e).run v = some (u, v')) :
    ∃ e', v' = insertRequestEvent e' v ∧ e'.requestId = e.requestId ∧ e'.eventType = e.eventType ∧
      e'.fromStatus = e.fromStatus ∧ e'.toStatus = e.toStatus := by
  obtain ⟨hok, rfl⟩ := Prog.run_exec_some h
  cases hs : storedEvent e with
  | error x => simp [hs, Prog.refuse] at hok
  | ok e' => exact ⟨e', rfl, storedEvent_ok hs⟩

theorem run_emitEvent {key eventType : String} {id : UUID} {payload : Fields}
    (h : (emitEvent d key eventType id payload).run v = some (u, v')) : Aside v v' := by
  obtain ⟨-, rfl⟩ := Prog.run_exec_some h
  exact emitAutomationEvent_aside

theorem run_notifySubscribers {id : UUID} {title body : String}
    (h : (notifySubscribers d id title body).run v = some (u, v')) : Aside v v' := by
  obtain ⟨hok, rfl⟩ := Prog.run_exec_some h
  cases hn : notifyRequestSubscribers d.now id "media_request.status" title body v with
  | error x => simp [hn, Prog.refuse] at hok
  | ok b => exact ⟨rfl, rfl, rfl⟩

theorem run_subscribe {x : Subscription} {added : Bool}
    (h : (subscribe x).run v = some (added, v')) : Aside v v' := by
  obtain ⟨-, rfl⟩ := Prog.run_exec_some h
  show Aside v (if _ then v else { v with subscriptions := v.subscriptions ++ [x] })
  split
  · exact .refl _
  · exact ⟨rfl, rfl, rfl⟩

/-- A turn of the call that creates a request. -/
theorem newRequest_course {id : UUID}
    (h : (newRequest d catalog accountID mediaID note actor).run v = some (id, v')) :
    ∃ t, Course v [t] v' ∧ t.writer = .create := by
  obtain ⟨text, v₁, h₁, g₁⟩ := Prog.run_bind_some h
  obtain ⟨-, hv₁⟩ := Prog.run_orFail_some h₁
  obtain ⟨_, v₂, h₂, g₂⟩ := Prog.run_bind_some g₁
  obtain ⟨htaken, hv₂⟩ := Prog.run_insertRow h₂
  obtain ⟨_, v₃, h₃, g₃⟩ := Prog.run_bind_some g₂
  obtain ⟨e, hv₃, hid, htype, hfrom, hto⟩ := run_recordEvent h₃
  obtain ⟨_, v₄, h₄, g₄⟩ := Prog.run_bind_some g₃
  obtain ⟨_, v₅, h₅, g₅⟩ := Prog.run_bind_some g₄
  obtain ⟨-, hv₅⟩ := Prog.run_check_some h₅
  cases g₅
  subst hv₅ hv₁ hv₃
  have hnone : v₁.statusOf d.requestID = none := by
    rw [Board.statusOf, Option.map_eq_none_iff, List.find?_eq_none]
    intro x hx heq
    have := List.any_eq_false.1 htaken x hx
    simp [of_decide_eq_true heq] at this
  refine ⟨⟨.create, d.requestID, none, .requested, e, none⟩, Course.aside ?_ (run_emitEvent h₄), rfl⟩
  refine Course.turn hnone.symm ?_ (moved_put (congrArg Board.requests hv₂) rfl rfl) ?_ fun j hj => ?_
  · exact ⟨hid, by rw [hto]; rfl, rfl, rfl, htype, hfrom, hto, rfl⟩
  · exact congrArg (·.requestEvents ++ [e]) hv₂
  · exact Or.inl (congrArg Board.jobs hv₂ ▸ hj)

theorem requestFor_course {id : UUID} {found : Option MediaRequest}
    (h : (requestFor d catalog accountID mediaID note actor found).run v = some (id, v')) :
    ∃ ts, Course v ts v' ∧ ∀ t ∈ ts, t.writer = .create := by
  cases found with
  | some r =>
    cases h
    exact ⟨[], .refl _, fun t ht => by cases ht⟩
  | none =>
    obtain ⟨t, hcourse, hw⟩ := newRequest_course h
    exact ⟨[t], hcourse, fun t' ht' => List.mem_singleton.1 ht' ▸ hw⟩

theorem countSubscriber_course {id : UUID} {counted : Bool} (hu : UniqueBy MediaRequest.id v.requests)
    (h : (countSubscriber d id note actor counted).run v = some (u, v')) : Course v [] v' := by
  cases counted with
  | false =>
    cases h
    exact .refl _
  | true =>
    obtain ⟨o, v₁, h₁, h⟩ := Prog.run_bind_some h
    obtain ⟨e, rfl, -, -, -, hto⟩ := run_recordEvent h
    rcases Prog.run_updateRow h₁ with ⟨rfl, -⟩ | ⟨r, hr, hp, rfl⟩
    · exact course_quiet rfl (fun hu => hu) rfl hto rfl
    · refine course_quiet ?_ (fun hu => hu.put fun _ _ e => e) rfl hto rfl
      funext id'
      show ((put MediaRequest.id v.requests _).find? _).map _ = _
      rw [find?_put]
      split
      · next hid =>
        subst hid
        rw [Board.statusOf, hu.find?_eq hr]
        rfl
      · rfl

theorem createMediaRequestTx_course {x : UUID × Bool} (hu : UniqueBy MediaRequest.id v.requests)
    (h : (createMediaRequestTx d catalog accountID mediaID note actor).run v = some (x, v')) :
    ∃ ts, Course v ts v' ∧ ∀ t ∈ ts, t.writer = .create := by
  obtain ⟨_, v₁, h₁, g₁⟩ := Prog.run_bind_some h
  obtain ⟨-, hv₁⟩ := Prog.run_exec_some h₁
  obtain ⟨_, v₂, h₂, g₂⟩ := Prog.run_bind_some g₁
  obtain ⟨-, hv₂⟩ := Prog.run_check_some h₂
  obtain ⟨ks, v₃, h₃, g₃⟩ := Prog.run_bind_some g₂
  obtain ⟨found, v₄, h₄, g₄⟩ := Prog.run_bind_some g₃
  obtain ⟨hv₄, -⟩ := Prog.run_lockFirst h₄
  obtain ⟨id, v₅, h₅, g₅⟩ := Prog.run_bind_some g₄
  obtain ⟨ts, hcourse, hts⟩ := requestFor_course h₅
  obtain ⟨text, v₆, h₆, g₆⟩ := Prog.run_bind_some g₅
  obtain ⟨-, hv₆⟩ := Prog.run_orFail_some h₆
  obtain ⟨added, v₇, h₇, g₇⟩ := Prog.run_bind_some g₆
  obtain ⟨_, v₈, h₈, g₈⟩ := Prog.run_bind_some g₇
  cases g₈
  cases h₃
  subst hv₁ hv₂ hv₄ hv₆
  have hsub := hcourse.aside (run_subscribe h₇)
  have hcount := hsub.trans (countSubscriber_course (hsub.unique hu) h₈)
  rw [List.append_nil] at hcount
  exact ⟨ts, hcount, hts⟩

theorem moveRequest_course {status : RequestStatus} (hr : r ∈ v.requests)
    (hu : UniqueBy MediaRequest.id v.requests) (hvalid : validRequestTransition r.status status)
    (h : (moveRequest d r status reason actor).run v = some (u, v')) :
    ∃ t, Course v [t] v' ∧ t.writer = .update := by
  obtain ⟨text, v₁, h₁, g₁⟩ := Prog.run_bind_some h
  obtain ⟨-, hv₁⟩ := Prog.run_orFail_some h₁
  obtain ⟨label, v₂, h₂, g₂⟩ := Prog.run_bind_some g₁
  obtain ⟨-, hv₂⟩ := Prog.run_orFail_some h₂
  obtain ⟨o, v₃, h₃, g₃⟩ := Prog.run_bind_some g₂
  obtain ⟨_, v₄, h₄, g₄⟩ := Prog.run_bind_some g₃
  obtain ⟨e, hv₄, hid, -, hfrom, hto⟩ := run_recordEvent h₄
  obtain ⟨_, v₅, h₅, g₅⟩ := Prog.run_bind_some g₄
  have haside := (run_notifySubscribers h₅).trans (run_emitEvent g₅)
  subst hv₁ hv₂ hv₄
  have hst : v₂.statusOf r.id = some r.status := by
    rw [Board.statusOf, hu.find?_eq hr]
    rfl
  rcases Prog.run_updateRow h₃ with ⟨-, hno⟩ | ⟨x, hx, hxr, rfl⟩
  · exact absurd (by simp) (hno r hr)
  · obtain rfl : x = r := hu.eq hx hr (of_decide_eq_true hxr)
    refine ⟨⟨.update, x.id, some x.status, status, e, none⟩, Course.aside ?_ haside, rfl⟩
    refine Course.turn hst.symm ?_ (moved_put rfl rfl rfl) rfl fun j hj => Or.inl hj
    exact ⟨hid, by rw [hto]; rfl, x.status, ⟨rfl, hfrom, hto, rfl⟩, hvalid⟩

/-- The data that a transaction leaves, where the call goes on with `f` after it. -/
theorem alone_course {α β : Type} {p : Call α} {e : α → Change} {f : α → Call β} {w : Writer}
    (hp : p.Statements fun _ _ => True) (hf : ∀ a, (f a).Statements fun _ _ => True)
    (h : ∀ a v', p.run b = some (a, v') → ∃ ts, Course b ts v' ∧ ∀ t ∈ ts, t.writer = w) :
    ∃ ts, Course b ts ((p >>= fun a => .publish (e a) >>= fun _ => f a).alone b).1 ∧
      ∀ t ∈ ts, t.writer = w := by
  rw [Prog.alone_commit hp hf]
  cases hr : p.run b with
  | none => exact ⟨[], .refl b, fun t ht => by cases ht⟩
  | some r => exact h r.1 r.2 hr

/-- `CreateMediaRequest` leaves the requests as they are, or creates one. -/
theorem createMediaRequest_course (hu : UniqueBy MediaRequest.id b.requests) :
    ∃ ts, Course b ts ((createMediaRequest d catalog accountID mediaID note actor).alone b).1 ∧
      ∀ t ∈ ts, t.writer = .create := by
  unfold createMediaRequest
  rw [← Prog.bind_assoc]
  refine alone_course (Prog.statements_check.bind fun _ => createMediaRequestTx_statements)
    (fun a => getMediaRequest_statements.bind fun _ => Prog.statements_pure) fun a v' h => ?_
  obtain ⟨_, v₁, h₁, g₁⟩ := Prog.run_bind_some h
  obtain ⟨-, rfl⟩ := Prog.run_check_some h₁
  exact createMediaRequestTx_course hu g₁


theorem updateMediaRequestStatusTx_course {id : UUID} {target : RequestStatus} {expected : Int}
    (hu : UniqueBy MediaRequest.id v.requests)
    (h : (updateMediaRequestStatusTx d id target reason expected actor).run v = some (u, v')) :
    ∃ t, Course v [t] v' ∧ t.writer = .update := by
  obtain ⟨found, v₁, h₁, g₁⟩ := Prog.run_bind_some h
  obtain ⟨hv₁, hfound⟩ := Prog.run_lockRow h₁
  obtain ⟨r, v₂, h₂, g₂⟩ := Prog.run_bind_some g₁
  obtain ⟨hr, hv₂⟩ := Prog.run_orFail_some h₂
  obtain ⟨_, v₃, h₃, g₃⟩ := Prog.run_bind_some g₂
  obtain ⟨⟨-, hvalid⟩, hv₃⟩ := Prog.run_check_some h₃
  subst hv₁ hv₂ hv₃
  exact moveRequest_course (hfound r hr).1 hu hvalid g₃

/-- `UpdateMediaRequestStatus` leaves the requests as they are, or sets a status. -/
theorem updateMediaRequestStatus_course {id : UUID} {status : String} {expected : Int}
    (hu : UniqueBy MediaRequest.id b.requests) : ∃ ts,
    Course b ts ((updateMediaRequestStatus d catalog id status reason expected actor).alone b).1 ∧
      ∀ t ∈ ts, t.writer = .update := by
  unfold updateMediaRequestStatus
  cases statusOf (normalize status) with
  | none => exact ⟨[], .refl b, fun t ht => by cases ht⟩
  | some target =>
    show ∃ ts, Course b ts (Prog.alone (Prog.check _ _ >>= _) b).1 ∧ _
    rw [← Prog.bind_assoc]
    refine alone_course (Prog.statements_check.bind fun _ => updateMediaRequestStatusTx_statements)
      (fun _ => getMediaRequest_statements) fun a v' h => ?_
    obtain ⟨_, v₁, h₁, g₁⟩ := Prog.run_bind_some h
    obtain ⟨-, rfl⟩ := Prog.run_check_some h₁
    obtain ⟨t, hcourse, hw⟩ := updateMediaRequestStatusTx_course hu g₁
    exact ⟨[t], hcourse, fun t' ht' => List.mem_singleton.1 ht' ▸ hw⟩

end

/-! ## Steps -/

section

variable (parse : String → Option UUID) (P : Writer → UUID → RequestStatus → Prop)

/-- `P` holds of the requests that the step hands to MoviePilot, or sets to downloading when MoviePilot
has accepted them, and of their statuses then. -/
def Step.Heeds : Step → Shelf → Prop
  | .submit c, s => ∀ r, c.Queues r s.board → P .submit r.id r.status
  | .accept n now title externalID, s => ∀ run r, s.submitting[n]? = some run → run.marked →
      Accepts now run.workerID title externalID run.jobID r s.board → P .accept r.id r.status
  | .automation (.advance n d), s => ∀ run rule rules previous b, s.running[n]? = some run →
      run.stage = .opened rule rules previous →
      runRule (run.occasion parse d rule) previous s.board = .committed b true →
      ∀ action b₁ r, Reaches (run.occasion parse d rule) rule.actions
        (reopen (run.occasion parse d rule) previous s.board) action b₁ →
      (run.occasion parse d rule).Queues action r b₁ → P .automation r.id r.status
  | _, _ => True

/-- The turn is one of a request that `P` holds of. -/
def Turn.Heeds (t : Turn) : Prop :=
  t.writer = .submit ∨ t.writer = .automation ∨ t.writer = .accept →
    ∃ st, t.before = some st ∧ P t.writer t.id st

variable {parse P} {s : Shelf}

theorem Turn.heeds_of {t : Turn} {w : Writer} (h : t.writer = w) (hw : w = .create ∨ w = .update ∨ w = .found) :
    t.Heeds P := by
  subst h
  rintro (h | h | h) <;> rw [h] at hw <;> simp at hw

theorem Turn.heeds_at {t : Turn} {w : Writer} {r : MediaRequest} (h : t.writer = w) (hid : t.id = r.id)
    (hb : t.before = some r.status) (hP : P w r.id r.status) : t.Heeds P :=
  fun _ => ⟨r.status, hb, by rwa [h, hid]⟩

/-- What a step comes to. -/
def Comes (P : Writer → UUID → RequestStatus → Prop) (b b' : Board) : Prop :=
  ∃ ts, Course b ts b' ∧ ∀ t ∈ ts, t.Heeds P

theorem comes_refl {b : Board} : Comes P b b := ⟨[], .refl b, fun t ht => by cases ht⟩

theorem Aside.comes {b b' : Board} (h : Aside b b') : Comes P b b' :=
  ⟨[], h.course, fun t ht => by cases ht⟩

theorem withBoard_board {b : Board} : (s.withBoard b).board = b := rfl

/-- A transaction that may fail. -/
theorem run_comes {r : Except Err Board} (h : ∀ b', r = .ok b' → Comes P s.board b') :
    Comes P s.board (s.run r).board := by
  cases r with
  | error x => exact comes_refl
  | ok b' => exact h b' rfl

theorem advance_comes {n : Nat} {d : Draw} (h : (Step.automation (.advance n d)).Heeds parse P s)
    {run : AutomationRun} (hrun : s.running[n]? = some run) :
    Comes P s.board (run.advance parse d s.board).2.1 := by
  unfold AutomationRun.advance
  split
  · exact comes_refl
  · exact comes_refl
  · split <;> exact comes_refl
  · next rule rules previous hstage =>
    split
    · exact comes_refl
    · split
      · next b ran hcommitted =>
        obtain ⟨ts, hcourse, hts⟩ := runRule_course hcommitted
        refine ⟨ts, hcourse, fun t ht => ?_⟩
        obtain ⟨rfl, action, b₁, hreach, hwriter | ⟨hwriter, r, hq, hid, hb⟩⟩ := hts t ht
        · exact Turn.heeds_of hwriter (Or.inr (Or.inl rfl))
        · exact Turn.heeds_at hwriter hid hb
            (h run rule rules previous b hrun hstage hcommitted action b₁ r hreach hq)
      · exact comes_refl
      · exact comes_refl
  · exact Aside.comes ⟨rfl, rfl, rfl⟩
  · refine Aside.comes ?_
    unfold settleEvent
    split <;> exact ⟨rfl, rfl, rfl⟩

theorem automation_comes {l : AutomationStep} (h : (Step.automation l).Heeds parse P s) :
    Comes P s.board ((Automation.step parse l s.toAutomation).elim s.board (·.board)) := by
  cases l with
  | claim workerID lease now pick =>
    show Comes P s.board ((claimEvent workerID lease now pick s.toAutomation).elim _ _)
    unfold claimEvent
    cases s.board.events.find? fun e => e.id = pick && e.claimable now with
    | none => exact comes_refl
    | some e => exact Aside.comes ⟨rfl, rfl, rfl⟩
  | advance n d =>
    show Comes P s.board (Option.elim (s.running[n]?.map _) _ _)
    cases hrun : s.running[n]? with
    | none => exact comes_refl
    | some run => exact advance_comes h hrun
  | crash n => exact comes_refl

/-- **What a step does to the requests.** -/
theorem step_comes {l : Step} (hu : UniqueBy MediaRequest.id s.board.requests)
    (h : l.Heeds parse P s) : Comes P s.board (s.step parse l).board := by
  cases l with
  | create c =>
    have hcall : ∃ ts, Course s.board ts (c.call.alone s.board).1 ∧ ∀ t ∈ ts, t.writer = .create :=
      createMediaRequest_course hu
    obtain ⟨ts, hcourse, hts⟩ := hcall
    rw [Shelf.step, withBoard_board]
    exact ⟨ts, hcourse, fun t ht => Turn.heeds_of (hts t ht) (Or.inl rfl)⟩
  | update c =>
    have hcall : ∃ ts, Course s.board ts (c.call.alone s.board).1 ∧ ∀ t ∈ ts, t.writer = .update :=
      updateMediaRequestStatus_course hu
    obtain ⟨ts, hcourse, hts⟩ := hcall
    rw [Shelf.step, withBoard_board]
    exact ⟨ts, hcourse, fun t ht => Turn.heeds_of (hts t ht) (Or.inr (Or.inl rfl))⟩
  | submit c =>
    refine run_comes fun b' hb => ?_
    cases hs : submitMoviePilot c s.board with
    | error x =>
      rw [hs] at hb
      cases hb
    | ok r =>
      rw [hs] at hb
      cases hb
      obtain ⟨ts, hcourse, hts⟩ := submitMoviePilot_course hs
      refine ⟨ts, hcourse, fun t ht => ?_⟩
      obtain ⟨hw, r, hq, hid, hb⟩ := hts t ht
      exact Turn.heeds_at hw hid hb (h r hq)
  | automation l =>
    have hcomes := automation_comes h
    show Comes P s.board (Option.elim (Automation.step parse l s.toAutomation) s _).board
    cases hstep : Automation.step parse l s.toAutomation with
    | none => exact comes_refl
    | some a =>
      rw [hstep] at hcomes
      exact hcomes
  | begin workerID jobID =>
    show Comes P s.board (ite _ _ s : Shelf).board
    split <;> exact comes_refl
  | mark n =>
    rw [Shelf.step]
    split
    · split
      · next b' hb => exact ⟨[], markJob_course hb, fun t ht => by cases ht⟩
      · exact comes_refl
    · exact comes_refl
  | accept n now title externalID =>
    rw [Shelf.step]
    split
    · next run hrun =>
      split
      · next hmarked =>
        refine run_comes fun b' hb => ?_
        obtain ⟨ts, hcourse, hts⟩ := acceptJob_course hb
        refine ⟨ts, hcourse, fun t ht => ?_⟩
        obtain ⟨hw, r, ha, hid, hb⟩ := hts t ht
        exact Turn.heeds_at hw hid hb (h run r hrun hmarked ha)
      · exact comes_refl
    · exact comes_refl
  | drop n => exact comes_refl
  | failJob jobID message =>
    refine ⟨[], course_jobs rfl rfl fun j' hj' => ?_, fun t ht => by cases ht⟩
    obtain ⟨j, hj, rfl⟩ := List.mem_map.1 hj'
    exact ⟨j, hj, by split <;> rfl, by split <;> rfl⟩
  | matched m =>
    refine run_comes fun b' hb => ?_
    obtain ⟨ts, hcourse, hts⟩ := completeRequests_course hu hb
    exact ⟨ts, hcourse, fun t ht => Turn.heeds_of (hts t ht) (Or.inr (Or.inr rfl))⟩
  | other f => exact Aside.comes ⟨rfl, rfl, rfl⟩

end

end Sakura.Community
