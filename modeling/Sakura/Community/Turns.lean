/-
  What can happen to a media request.

  * `View`, `Board.view`: the status of a request, and the events of it that name a status;
  * `Turn`, `Turn.Lawful`: a change of one request, and what each writer may do;
  * `Course`: several changes, one after the other;
  * `createMediaRequest_course`, `submitMoviePilot_course`, …: what each transaction does.
-/
import Sakura.Community.Downloads
import Sakura.Txn.Single
import Mathlib.Data.Set.Basic

namespace Sakura.Community

open Txn

/-! ## Views -/

structure View where
  status : Option RequestStatus
  log : List RequestEvent

def Board.statusOf (b : Board) (id : UUID) : Option RequestStatus :=
  (b.requests.find? (·.id = id)).map (·.status)

def Board.view (b : Board) (id : UUID) : View where
  status := b.statusOf id
  log := b.requestEvents.filter fun e => e.requestId = id && e.toStatus.isSome

/-- The job is one of the request. -/
def Board.HasJob (b : Board) (id jobID : UUID) : Prop :=
  ∃ j ∈ b.jobs, j.id = jobID ∧ j.requestId = some id

/-- The tables of requests, their events and their jobs are the same. -/
structure Aside (b b' : Board) : Prop where
  requests : b'.requests = b.requests
  events : b'.requestEvents = b.requestEvents
  jobs : b'.jobs = b.jobs

theorem Aside.refl (b : Board) : Aside b b := ⟨rfl, rfl, rfl⟩

theorem Aside.trans {b b₁ b' : Board} (h : Aside b b₁) (h' : Aside b₁ b') : Aside b b' :=
  ⟨h'.requests.trans h.requests, h'.events.trans h.events, h'.jobs.trans h.jobs⟩

/-! ## Turns -/

/-- The code that writes the status of a request: `automation` is the action submit_moviepilot, and
`update` also the action set_request_status. -/
inductive Writer where
  | create | update | submit | automation | accept | found
  deriving DecidableEq

/-- The status of a request before and after, the event that is recorded, and the job if there is a new
one. -/
structure Turn where
  writer : Writer
  id : UUID
  before : Option RequestStatus
  after : RequestStatus
  event : RequestEvent
  job : Option UUID := none

def Turn.view (t : Turn) (v : View) : View := ⟨some t.after, v.log ++ [t.event]⟩

def Turn.apply (t : Turn) (v : UUID → View) : UUID → View := Function.update v t.id (t.view (v t.id))

/-- Turns, each on the view that those before it leave. -/
inductive Turns : (UUID → View) → List Turn → (UUID → View) → Prop
  | nil {v} : Turns v [] v
  | cons {v v' t ts} : t.before = (v t.id).status → Turns (t.apply v) ts v' → Turns v (t :: ts) v'

theorem Turns.append {v v₁ v' : UUID → View} {ts ts' : List Turn} (h : Turns v ts v₁)
    (h' : Turns v₁ ts' v') : Turns v (ts ++ ts') v' := by
  induction h with
  | nil => exact h'
  | cons hb _ ih => exact .cons hb (ih h')

/-- The event tells the change. -/
structure Turn.Told (t : Turn) (st : RequestStatus) : Prop where
  before : t.before = some st
  fromStatus : t.event.fromStatus = some st
  toStatus : t.event.toStatus = some t.after
  job : t.job = none

def Turn.Allowed (t : Turn) : Prop :=
  match t.writer with
  | .create =>
    t.before = none ∧ t.after = .requested ∧ t.event.eventType = "created" ∧
      t.event.fromStatus = none ∧ t.event.toStatus = some .requested ∧ t.job = none
  | .update => ∃ st, t.Told st ∧ validRequestTransition st t.after
  | .submit => ∃ st, t.before = some st ∧ st.active ∧ t.after = st.queue ∧
      t.event.fromStatus = some st ∧ t.event.toStatus = some .queued
  | .automation => ∃ st, t.before = some st ∧ t.after = st.queue ∧ t.event.fromStatus = none ∧
      t.event.toStatus = some .queued
  | .accept => ∃ st, t.Told st ∧ st ≠ .completed ∧ t.after = .downloading
  | .found => ∃ st, t.Told st ∧ st.active ∧ t.after = .completed

structure Turn.Lawful (t : Turn) : Prop where
  subject : t.event.requestId = t.id
  named : t.event.toStatus.isSome
  allowed : t.Allowed

/-- The tables go through the turns `ts`; a new job of a request comes with one of them. -/
structure Course (b : Board) (ts : List Turn) (b' : Board) : Prop where
  turns : Turns b.view ts b'.view
  jobs : ∀ id j, b'.HasJob id j → b.HasJob id j ∨ ∃ t ∈ ts, t.id = id ∧ t.job = some j
  unique : UniqueBy MediaRequest.id b.requests → UniqueBy MediaRequest.id b'.requests
  lawful : ∀ t ∈ ts, t.Lawful

section

variable {b b₁ b' : Board} {ts ts' : List Turn}

theorem Aside.course (h : Aside b b') : Course b [] b' where
  turns := by
    have hview : b'.view = b.view := by
      funext id
      rw [Board.view, Board.view, Board.statusOf, Board.statusOf, h.requests, h.events]
    rw [hview]
    exact .nil
  jobs id j hj := Or.inl (by rwa [Board.HasJob, h.jobs] at hj)
  unique hu := h.requests ▸ hu
  lawful t ht := by cases ht

theorem Course.refl (b : Board) : Course b [] b := (Aside.refl b).course

theorem Course.trans (h : Course b ts b₁) (h' : Course b₁ ts' b') : Course b (ts ++ ts') b' where
  turns := h.turns.append h'.turns
  jobs id j hj := by
    rcases h'.jobs id j hj with hj | ⟨t, ht, hid⟩
    · rcases h.jobs id j hj with hj | ⟨t, ht, hid⟩
      · exact Or.inl hj
      · exact Or.inr ⟨t, List.mem_append_left _ ht, hid⟩
    · exact Or.inr ⟨t, List.mem_append_right _ ht, hid⟩
  unique hu := h'.unique (h.unique hu)
  lawful t ht := (List.mem_append.1 ht).elim (h.lawful t) (h'.lawful t)

theorem Course.aside (h : Course b ts b₁) (h' : Aside b₁ b') : Course b ts b' := by
  have := h.trans h'.course
  rwa [List.append_nil] at this

theorem Turns.view_of_not_mem {v v' : UUID → View} {id : UUID} (h : Turns v ts v')
    (hid : ∀ t ∈ ts, t.id ≠ id) : v' id = v id := by
  induction h with
  | nil => rfl
  | cons _ _ ih =>
    rw [ih fun t ht => hid t (List.mem_cons_of_mem _ ht), Turn.apply,
      Function.update_of_ne (hid _ (List.mem_cons_self ..)).symm]

/-- The other requests. -/
theorem Course.view_of_ne {t : Turn} (h : Course b [t] b') {id : UUID} (hid : id ≠ t.id) :
    b'.view id = b.view id :=
  h.turns.view_of_not_mem fun t' ht' => List.mem_singleton.1 ht' ▸ hid.symm

/-- Jobs that are only moved on to other statuses. -/
theorem course_jobs (hr : b'.requests = b.requests) (he : b'.requestEvents = b.requestEvents)
    (hj : ∀ j' ∈ b'.jobs, ∃ j ∈ b.jobs, j.id = j'.id ∧ j.requestId = j'.requestId) :
    Course b [] b' where
  turns := by
    have hview : b'.view = b.view := by
      funext id
      rw [Board.view, Board.view, Board.statusOf, Board.statusOf, hr, he]
    rw [hview]
    exact .nil
  jobs id j := by
    rintro ⟨x', hx', hid, hreq⟩
    obtain ⟨x, hx, hxid, hxreq⟩ := hj x' hx'
    exact Or.inl ⟨x, hx, hxid.trans hid, hxreq.trans hreq⟩
  unique hu := hr ▸ hu
  lawful t ht := by cases ht

/-- The request `id` has the status `st`, and the others have the one they had. -/
structure Moved (b b' : Board) (id : UUID) (st : RequestStatus) : Prop where
  status : b'.statusOf = Function.update b.statusOf id (some st)
  unique : UniqueBy MediaRequest.id b.requests → UniqueBy MediaRequest.id b'.requests

theorem moved_put {r : MediaRequest} {id : UUID} {st : RequestStatus}
    (hr : b'.requests = put MediaRequest.id b.requests r) (hid : r.id = id) (hst : r.status = st) :
    Moved b b' id st where
  status := by
    subst hid hst
    funext id
    rw [Function.update_apply, Board.statusOf, hr, find?_put]
    by_cases h : id = r.id
    · simp [h]
    · rw [if_neg h, if_neg (Ne.symm h)]
      rfl
  unique hu := hr ▸ hu.put fun _ _ e => e

theorem moved_same {id : UUID} {st : RequestStatus} (hr : b'.requests = b.requests)
    (hst : b.statusOf id = some st) : Moved b b' id st where
  status := by
    funext id'
    rw [Function.update_apply, Board.statusOf, hr]
    split
    · next h => rw [h]; exact hst
    · rfl
  unique hu := hr ▸ hu

/-- The status of a request is written, and an event of it recorded. -/
theorem Course.turn {t : Turn} (hbefore : t.before = b.statusOf t.id) (ht : t.Lawful)
    (hmoved : Moved b b' t.id t.after) (he : b'.requestEvents = b.requestEvents ++ [t.event])
    (hj : ∀ j' ∈ b'.jobs, j' ∈ b.jobs ∨ (j'.requestId = some t.id ∧ t.job = some j'.id)) :
    Course b [t] b' where
  turns := by
    refine .cons hbefore ?_
    have hview : b'.view = t.apply b.view := by
      funext id
      rw [Turn.apply, Function.update_apply, Board.view, hmoved.status, Function.update_apply, he,
        List.filter_append]
      split
      · next h => simp [Turn.view, Board.view, h, ht.subject, ht.named]
      · next h => simp [Board.view, ht.subject, Ne.symm h]
    rw [hview]
    exact .nil
  jobs id j := by
    rintro ⟨x, hx, hxid, hreq⟩
    rcases hj x hx with h | ⟨h, hjob⟩
    · exact Or.inl ⟨x, h, hxid, hreq⟩
    · refine Or.inr ⟨t, List.mem_singleton_self t, ?_, hxid ▸ hjob⟩
      rw [h] at hreq
      exact Option.some_inj.1 hreq
  unique := hmoved.unique
  lawful t' ht' := by
    rw [List.mem_singleton.1 ht']
    exact ht

end

/-! ## Parts of transactions -/

section

variable {b b' : Board} {now : Time} {accountID : UUID} {eventKey title body : String}
  {metadata : Fields}

theorem queueNotification_aside {channel : Channel}
    (h : queueNotification now accountID eventKey title body metadata b channel = .ok b') :
    Aside b b' := by
  unfold queueNotification at h
  split at h
  · cases h
    exact .refl _
  · split at h
    · cases h
      exact .refl _
    · obtain ⟨_, -, h⟩ := except_bind_ok h
      obtain ⟨_, -, h⟩ := except_bind_ok h
      cases h
      exact ⟨rfl, rfl, rfl⟩

theorem queuePreferredNotification_aside
    (h : queuePreferredNotification now accountID eventKey title body metadata b = .ok b') :
    Aside b b' :=
  foldlM_rel (R := Aside) .refl .trans (fun _ _ _ => queueNotification_aside) _ h

theorem notifyRequestSubscribers_aside {requestID : UUID}
    (h : notifyRequestSubscribers now requestID eventKey title body b = .ok b') : Aside b b' :=
  foldlM_rel (R := Aside) .refl .trans (fun _ _ _ => queuePreferredNotification_aside) _ h

theorem emitAutomationEvent_aside {id : UUID} {key eventType subjectType subjectID : String}
    {payload : Fields} :
    Aside b (emitAutomationEvent id now key eventType subjectType subjectID payload b) := by
  unfold emitAutomationEvent
  split
  · exact .refl _
  · exact ⟨rfl, rfl, rfl⟩

/-- A column keeps the identifiers and statuses of an event. -/
theorem storedEvent_ok {e e' : RequestEvent} (h : storedEvent e = .ok e') :
    e'.requestId = e.requestId ∧ e'.eventType = e.eventType ∧ e'.fromStatus = e.fromStatus ∧
      e'.toStatus = e.toStatus := by
  obtain ⟨_, -, h⟩ := except_bind_ok h
  obtain ⟨_, -, h⟩ := except_bind_ok h
  cases h
  exact ⟨rfl, rfl, rfl, rfl⟩

theorem updateRequest_ok {r : MediaRequest} (h : updateRequest r b = .ok b') :
    b' = { b with requests := put MediaRequest.id b.requests r } := by
  unfold updateRequest at h
  split at h
  · cases h
  · cases h
    rfl

theorem findRequest_ok {id : UUID} {r : MediaRequest} (h : findRequest id b = .ok r) :
    r.id = id ∧ r ∈ b.requests ∧ b.statusOf id = some r.status := by
  unfold findRequest at h
  cases hf : b.requests.find? (·.id = id) with
  | none =>
    rw [hf] at h
    cases h
  | some x =>
    rw [hf] at h
    cases h
    exact ⟨by simpa using List.find?_some hf, List.mem_of_find?_eq_some hf, by rw [Board.statusOf, hf]; rfl⟩

theorem insertJob_ok {jobID taskID mediaID requestID : UUID} {key createdBy : String}
    (h : insertJob now jobID taskID mediaID requestID key createdBy b = .ok b') :
    b'.requests = b.requests ∧ b'.requestEvents = b.requestEvents ∧
      ∀ j ∈ b'.jobs, j ∈ b.jobs ∨ (j.requestId = some requestID ∧ some jobID = some j.id) := by
  unfold insertJob at h
  split at h
  · cases h
  · cases h
    refine ⟨rfl, rfl, fun j hj => ?_⟩
    rcases List.mem_append.1 hj with hj | hj
    · exact Or.inl hj
    · rw [List.mem_singleton.1 hj]
      exact Or.inr ⟨rfl, rfl⟩

end

/-! ## Submission -/

section

variable {b b' : Board}

/-- The call enqueues a job for the request `r`. -/
structure Submission.Queues (c : Submission) (r : MediaRequest) (b : Board) : Prop where
  valid : c.invalid = false
  found : findRequest c.requestID b = .ok r
  active : r.status.active
  free : activeJob r.mediaId b = none
  stored : (queueJob c r b).toOption.isSome

theorem queueRequest_ok {now : Time} {r : MediaRequest} (hst : b.statusOf r.id = some r.status)
    (h : queueRequest now r b = .ok b') :
    Moved b b' r.id r.status.queue ∧ b'.requestEvents = b.requestEvents ∧ b'.jobs = b.jobs := by
  unfold queueRequest at h
  split at h
  · next hq =>
    have hqueue : r.status.queue = .queued := by
      have hs : r.status = .requested ∨ r.status = .approved := by simpa using hq
      rcases hs with hs | hs <;> rw [hs] <;> rfl
    rw [updateRequest_ok h, hqueue]
    exact ⟨moved_put rfl rfl rfl, rfl, rfl⟩
  · next hq =>
    cases h
    have hqueue : r.status.queue = r.status := by
      cases hs : r.status <;> simp_all [RequestStatus.queue]
    rw [hqueue]
    exact ⟨moved_same rfl hst, rfl, rfl⟩

theorem queueJob_course {c : Submission} {r : MediaRequest} (hst : b.statusOf r.id = some r.status)
    (hactive : r.status.active) (h : queueJob c r b = .ok b') :
    ∃ t, Course b [t] b' ∧ t.writer = .submit ∧ t.id = r.id ∧ t.before = some r.status := by
  obtain ⟨_, -, h⟩ := except_bind_ok h
  obtain ⟨_, -, h⟩ := except_bind_ok h
  obtain ⟨_, -, h⟩ := except_bind_ok h
  obtain ⟨_, -, h⟩ := except_bind_ok h
  obtain ⟨b₁, h₁, h⟩ := except_bind_ok h
  obtain ⟨b₂, h₂, h⟩ := except_bind_ok h
  obtain ⟨e, h₃, h⟩ := except_bind_ok h
  cases h
  obtain ⟨hreq₁, hev₁, hjobs⟩ := insertJob_ok h₁
  obtain ⟨hid, -, hfrom, hto⟩ := storedEvent_ok h₃
  have hst₁ : b₁.statusOf r.id = some r.status := by
    rw [Board.statusOf, hreq₁]
    exact hst
  obtain ⟨hmoved, hev₂, hjobs₂⟩ := queueRequest_ok hst₁ h₂
  refine ⟨⟨.submit, r.id, some r.status, r.status.queue, e, some c.jobID⟩, Course.turn hst.symm ?_ ?_ ?_
    ?_, rfl, rfl, rfl⟩
  · exact ⟨hid, by rw [hto]; rfl, r.status, rfl, hactive, rfl, hfrom, hto⟩
  · refine ⟨?_, fun hu => hmoved.unique (hreq₁ ▸ hu)⟩
    show b₂.statusOf = _
    rw [hmoved.status]
    congr 1
    funext id
    rw [Board.statusOf, Board.statusOf, hreq₁]
  · show b₂.requestEvents ++ [e] = _
    rw [hev₂, hev₁]
  · show ∀ j ∈ b₂.jobs, _
    rw [hjobs₂]
    exact hjobs

/-- `SubmitMoviePilot` changes nothing, or enqueues a job. -/
theorem submitMoviePilot_course {c : Submission} {x : Submitted}
    (h : submitMoviePilot c b = .ok (x, b')) : ∃ ts, Course b ts b' ∧ ∀ t ∈ ts,
      t.writer = .submit ∧ ∃ r, c.Queues r b ∧ t.id = r.id ∧ t.before = some r.status := by
  unfold submitMoviePilot at h
  split at h
  · cases h
  · next hvalid =>
    obtain ⟨r, hr, h⟩ := except_bind_ok h
    obtain ⟨hid, -, hst⟩ := findRequest_ok hr
    unfold submitRequest at h
    split at h
    · cases h
    · next hactive =>
      cases hj : activeJob r.mediaId b with
      | some j =>
        rw [hj] at h
        cases h
        exact ⟨[], .refl _, fun t ht => by cases ht⟩
      | none =>
        rw [hj] at h
        cases hq : queueJob c r b with
        | error x =>
          rw [hq] at h
          cases h
        | ok b₁ =>
          rw [hq] at h
          cases h
          have hactive' : r.status.active = true := by simpa using hactive
          obtain ⟨t, hcourse, hw, htid, hb⟩ := queueJob_course (hid ▸ hst) hactive' hq
          refine ⟨[t], hcourse, fun t' ht' => ?_⟩
          rw [List.mem_singleton.1 ht']
          exact ⟨hw, r, ⟨by simpa using hvalid, hr, hactive', hj, by rw [hq]; rfl⟩, htid, hb⟩

end

/-! ## Tasks -/

section

variable {b b' : Board} {now : Time} {workerID title externalID : String} {jobID : UUID}

theorem updateJob_ok {j : MoviePilotJob} (h : updateJob j b = .ok b') :
    b' = { b with jobs := put MoviePilotJob.id b.jobs j } := by
  unfold updateJob at h
  split at h
  · cases h
  · cases h
    rfl

theorem findJob_ok {j : MoviePilotJob} (h : findJob jobID b = .ok j) : j ∈ b.jobs ∧ j.id = jobID := by
  unfold findJob at h
  cases hf : b.jobs.find? (·.id = jobID) with
  | none =>
    rw [hf] at h
    cases h
  | some x =>
    rw [hf] at h
    cases h
    exact ⟨List.mem_of_find?_eq_some hf, by simpa using List.find?_some hf⟩

/-- A job that is written again under its request. -/
theorem updateJob_course {j j' : MoviePilotJob} (h : updateJob j' b = .ok b') (hj : j ∈ b.jobs)
    (hid : j'.id = j.id) (hreq : j'.requestId = j.requestId) : Course b [] b' := by
  rw [updateJob_ok h]
  refine course_jobs rfl rfl fun x hx => ?_
  rcases mem_put.1 hx with ⟨hx, -⟩ | rfl
  · exact ⟨x, hx, rfl, rfl⟩
  · exact ⟨j, hj, hid.symm, hreq.symm⟩

theorem markJob_course (h : markJob jobID b = .ok b') : Course b [] b' := by
  obtain ⟨j, hj, h⟩ := except_bind_ok h
  exact updateJob_course h (findJob_ok hj).1 rfl rfl

/-- The job `jobID`, which MoviePilot has accepted, sets the request `r` to downloading. -/
structure Accepts (now : Time) (workerID title externalID : String) (jobID : UUID) (r : MediaRequest)
    (b : Board) : Prop where
  job : ∃ j, findJob jobID b = .ok j ∧ j.requestId = some r.id
  found : findRequest r.id b = .ok r
  status : r.status ≠ .completed
  stored : (acceptJob now workerID title externalID jobID b).toOption.isSome

theorem downloadRequest_course {r : MediaRequest} (hst : b.statusOf r.id = some r.status)
    (hne : r.status ≠ .completed) (h : downloadRequest now workerID title r b = .ok b') :
    ∃ t, Course b [t] b' ∧ t.writer = .accept ∧ t.id = r.id ∧ t.before = some r.status := by
  obtain ⟨b₁, h₁, h⟩ := except_bind_ok h
  obtain ⟨e, h₂, h⟩ := except_bind_ok h
  obtain ⟨hid, -, hfrom, hto⟩ := storedEvent_ok h₂
  cases updateRequest_ok h₁
  refine ⟨⟨.accept, r.id, some r.status, .downloading, e, none⟩, Course.aside ?_
    (notifyRequestSubscribers_aside h), rfl, rfl, rfl⟩
  refine Course.turn hst.symm ?_ (moved_put rfl rfl rfl) rfl fun j hj => Or.inl hj
  exact ⟨hid, by rw [hto]; rfl, r.status, ⟨rfl, hfrom, hto, rfl⟩, hne, rfl⟩

/-- The task moviepilot.submit changes no request in the end, or the one of its job. -/
theorem acceptJob_course (h : acceptJob now workerID title externalID jobID b = .ok b') :
    ∃ ts, Course b ts b' ∧ ∀ t ∈ ts, t.writer = .accept ∧
      ∃ r, Accepts now workerID title externalID jobID r b ∧ t.id = r.id ∧ t.before = some r.status := by
  have hstored : (acceptJob now workerID title externalID jobID b).toOption.isSome := by
    rw [h]
    rfl
  obtain ⟨j, hj, h⟩ := except_bind_ok h
  obtain ⟨external, -, h⟩ := except_bind_ok h
  obtain ⟨b₁, h₁, h⟩ := except_bind_ok h
  have hjobs := updateJob_course h₁ (findJob_ok hj).1 rfl rfl
  have hsame : ∀ id, findRequest id b₁ = findRequest id b := fun id => by
    rw [updateJob_ok h₁]
    rfl
  cases hreq : j.requestId with
  | none =>
    rw [hreq] at h
    cases h
    exact ⟨[], hjobs, fun t ht => by cases ht⟩
  | some id =>
    rw [hreq] at h
    obtain ⟨r, hr, h⟩ := except_bind_ok h
    obtain ⟨hid, -, hst⟩ := findRequest_ok hr
    split at h
    · next hne =>
      obtain ⟨t, hcourse, hw, htid, hb⟩ := downloadRequest_course (hid ▸ hst) hne h
      refine ⟨[t], hjobs.trans hcourse, fun t' ht' => ?_⟩
      rw [List.mem_singleton.1 ht']
      rw [hsame, ← hid] at hr
      exact ⟨hw, r, ⟨⟨j, hj, hid ▸ hreq⟩, hr, hne, hstored⟩, htid, hb⟩
    · cases h
      exact ⟨[], hjobs, fun t ht => by cases ht⟩

theorem completeRequest_course {m : Match} {r : MediaRequest} (hst : b.statusOf r.id = some r.status)
    (hactive : r.status.active) (h : completeRequest m b r = .ok b') :
    ∃ t, Course b [t] b' ∧ t.writer = .found ∧ t.id = r.id := by
  obtain ⟨_, -, h⟩ := except_bind_ok h
  obtain ⟨_, -, h⟩ := except_bind_ok h
  obtain ⟨b₁, h₁, h⟩ := except_bind_ok h
  obtain ⟨e, h₂, h⟩ := except_bind_ok h
  obtain ⟨hid, -, hfrom, hto⟩ := storedEvent_ok h₂
  cases updateRequest_ok h₁
  refine ⟨⟨.found, r.id, some r.status, .completed, e, none⟩, Course.aside ?_
    (notifyRequestSubscribers_aside h), rfl, rfl⟩
  refine Course.turn hst.symm ?_ (moved_put rfl rfl rfl) rfl fun j hj => Or.inl hj
  exact ⟨hid, by rw [hto]; rfl, r.status, ⟨rfl, hfrom, hto, rfl⟩, hactive, rfl⟩

/-- The requests of a loop, none of which is written by the turns for the others. -/
theorem completeEach_course {m : Match} : ∀ (rs : List MediaRequest) {b b' : Board},
    UniqueBy MediaRequest.id rs →
    (∀ r ∈ rs, b.statusOf r.id = some r.status ∧ r.status.active) →
    rs.foldlM (completeRequest m) b = .ok b' →
    ∃ ts, Course b ts b' ∧ ∀ t ∈ ts, t.writer = .found
  | [], b, b', _, _, h => by
    cases h
    exact ⟨[], .refl _, fun t ht => by cases ht⟩
  | r :: rs, b, b', hu, hst, h => by
    rw [List.foldlM_cons] at h
    obtain ⟨b₁, h₁, h⟩ := except_bind_ok h
    obtain ⟨hr, hrs⟩ := List.nodup_cons.1 hu
    obtain ⟨hsr, hactive⟩ := hst r (List.mem_cons_self ..)
    obtain ⟨t, hcourse, hw, htid⟩ := completeRequest_course hsr hactive h₁
    have hrest : ∀ x ∈ rs, b₁.statusOf x.id = some x.status ∧ x.status.active := by
      intro x hx
      obtain ⟨hsx, hax⟩ := hst x (List.mem_cons_of_mem _ hx)
      have hne : x.id ≠ t.id := by
        rw [htid]
        exact fun e => hr (List.mem_map.2 ⟨x, hx, e⟩)
      refine ⟨?_, hax⟩
      rw [← hsx]
      exact (congrArg View.status (hcourse.view_of_ne hne))
    obtain ⟨ts, hts, hall⟩ := completeEach_course rs hrs hrest h
    refine ⟨t :: ts, hcourse.trans hts, fun t' ht' => ?_⟩
    rcases List.mem_cons.1 ht' with rfl | ht'
    · exact hw
    · exact hall t' ht'

theorem completeRequests_course {m : Match} (hu : UniqueBy MediaRequest.id b.requests)
    (h : completeRequests m b = .ok b') : ∃ ts, Course b ts b' ∧ ∀ t ∈ ts, t.writer = .found := by
  refine completeEach_course _ ?_ (fun r hr => ?_) h
  · exact (List.filter_sublist.map _).nodup hu
  · obtain ⟨hr, hp⟩ := List.mem_filter.1 hr
    refine ⟨?_, by simp_all⟩
    rw [Board.statusOf, hu.find?_eq hr]
    rfl

end

end Sakura.Community
