/-
  The log of a media request.

  * `Replays`: the events of a request lead from its creation to its status;
  * `Recorded`: the condition on what is handed to MoviePilot;
  * `request_log_replays`: the log of every request replays, in every state of a run that meets it;
  * `queued_again`: a request that is downloading and is submitted.
-/
import Mathlib.Data.List.Chain
import Sakura.Txn.Machine
import Sakura.Community.Steps

namespace Sakura.Community

open Txn

/-- The log begins with the creation, each event goes on where the last one ended, and the last one
ends with the status. -/
structure Replays (log : List RequestEvent) (status : RequestStatus) : Prop where
  first : ∃ e, log.head? = some e ∧ e.eventType = "created"
  chain : log.IsChain fun e e' => e'.fromStatus = e.toStatus
  last : ∃ e, log.getLast? = some e ∧ e.toStatus = some status

/-- What the keys of the tables require: one row for each identifier, and an event is one of a
request. -/
structure Board.Keyed (b : Board) : Prop where
  unique : UniqueBy MediaRequest.id b.requests
  owned : ∀ e ∈ b.requestEvents, ∃ r ∈ b.requests, r.id = e.requestId

/-- The system as a machine. -/
def machine (parse : String → Option UUID) (l : Step) (s : Shelf) : Option Shelf := some (s.step parse l)

/-- A request that is handed to MoviePilot is not downloading, and no rule hands one over; requests that
were there before the run do not matter. -/
def Recorded (before : List MediaRequest) : Writer → UUID → RequestStatus → Prop
  | .submit, id, status => status ≠ .downloading ∨ ∃ r ∈ before, r.id = id
  | .automation, id, _ => ∃ r ∈ before, r.id = id
  | _, _, _ => True

/-! ## What a turn keeps -/

/-- A request that does not exist has no events. -/
def View.Replays (v : View) : Prop :=
  match v.status with
  | none => v.log = []
  | some status => Community.Replays v.log status

theorem replays_created {e : RequestEvent} (htype : e.eventType = "created")
    (hto : e.toStatus = some .requested) : Replays [e] .requested where
  first := ⟨e, rfl, htype⟩
  chain := .singleton e
  last := ⟨e, rfl, hto⟩

theorem Replays.append {log : List RequestEvent} {status status' : RequestStatus} {e : RequestEvent}
    (h : Replays log status) (hfrom : e.fromStatus = some status) (hto : e.toStatus = some status') :
    Replays (log ++ [e]) status' where
  first := by
    obtain ⟨e₀, he₀, htype⟩ := h.first
    exact ⟨e₀, by rw [List.head?_append, he₀]; rfl, htype⟩
  chain := by
    obtain ⟨e₁, he₁, hto₁⟩ := h.last
    refine List.isChain_append.2 ⟨h.chain, .singleton e, fun x hx y hy => ?_⟩
    rw [he₁] at hx
    cases hx
    cases hy
    exact hfrom.trans hto₁.symm
  last := ⟨e, by rw [List.getLast?_append]; rfl, hto⟩

theorem Turn.Told.replays {t : Turn} {v : View} {status : RequestStatus} (h : t.Told status)
    (hb : t.before = v.status) (hv : v.Replays) : (t.view v).Replays := by
  have hstatus : v.status = some status := hb.symm.trans h.before
  unfold View.Replays at hv
  rw [hstatus] at hv
  exact hv.append h.fromStatus h.toStatus

variable {before : List MediaRequest}

/-- **A turn goes on with the log.** -/
theorem Turn.replays {t : Turn} {v : View} (hl : t.Lawful) (hP : t.Heeds (Recorded before))
    (hid : ∀ r ∈ before, r.id ≠ t.id) (hb : t.before = v.status) (hv : v.Replays) :
    (t.view v).Replays := by
  have hallowed := hl.allowed
  unfold Turn.Allowed at hallowed
  cases hw : t.writer <;> rw [hw] at hallowed
  case create =>
    obtain ⟨hnone, hafter, htype, -, hto, -⟩ := hallowed
    have hlog : v.log = [] := by
      unfold View.Replays at hv
      rwa [← hb, hnone] at hv
    show Replays (v.log ++ [t.event]) t.after
    rw [hlog, hafter]
    exact replays_created htype hto
  case update =>
    obtain ⟨status, htold, -⟩ := hallowed
    exact htold.replays hb hv
  case submit =>
    obtain ⟨status, hbefore, hactive, hafter, hfrom, hto⟩ := hallowed
    obtain ⟨status', hbefore', hrecorded⟩ := hP (Or.inl hw)
    rw [hbefore] at hbefore'
    cases hbefore'
    rw [hw] at hrecorded
    have hne : status ≠ .downloading :=
      hrecorded.resolve_right fun ⟨r, hr, he⟩ => hid r hr he
    have hqueued : t.after = .queued := by
      rw [hafter]
      cases status <;> first | rfl | exact absurd rfl hne | cases hactive
    unfold View.Replays at hv
    rw [← hb, hbefore] at hv
    show Replays (v.log ++ [t.event]) t.after
    exact hv.append hfrom (hqueued ▸ hto)
  case automation =>
    obtain ⟨status, -, hrecorded⟩ := hP (Or.inr (Or.inl hw))
    rw [hw] at hrecorded
    obtain ⟨r, hr, he⟩ := hrecorded
    exact absurd he (hid r hr)
  case accept =>
    obtain ⟨status, htold, -⟩ := hallowed
    exact htold.replays hb hv
  case found =>
    obtain ⟨status, htold, -⟩ := hallowed
    exact htold.replays hb hv

theorem Turns.replays {v v' : UUID → View} {ts : List Turn} (h : Turns v ts v')
    (hl : ∀ t ∈ ts, t.Lawful) (hP : ∀ t ∈ ts, t.Heeds (Recorded before))
    (hv : ∀ id, (∀ r ∈ before, r.id ≠ id) → (v id).Replays) :
    ∀ id, (∀ r ∈ before, r.id ≠ id) → (v' id).Replays := by
  induction h with
  | nil => exact hv
  | @cons v v' t ts hb _ ih =>
    refine ih (fun t' ht' => hl t' (List.mem_cons_of_mem _ ht'))
      (fun t' ht' => hP t' (List.mem_cons_of_mem _ ht')) fun id hid => ?_
    rw [Turn.apply, Function.update_apply]
    split
    · next h =>
      subst h
      exact Turn.replays (hl t (List.mem_cons_self ..)) (hP t (List.mem_cons_self ..)) hid hb (hv _ hid)
    · exact hv id hid

/-! ## Runs -/

/-- What every step keeps. -/
structure Logged (before : List MediaRequest) (s : Shelf) : Prop where
  unique : UniqueBy MediaRequest.id s.board.requests
  replays : ∀ id, (∀ r ∈ before, r.id ≠ id) → (s.board.view id).Replays

variable {parse : String → Option UUID}

theorem Board.Keyed.logged {s : Shelf} (h : s.board.Keyed) : Logged s.board.requests s where
  unique := h.unique
  replays id hid := by
    have hstatus : (s.board.view id).status = none := by
      show Option.map _ _ = none
      rw [Option.map_eq_none_iff, List.find?_eq_none]
      exact fun r hr => by simpa using hid r hr
    have hlog : (s.board.view id).log = [] := by
      refine List.filter_eq_nil_iff.2 fun e he => ?_
      obtain ⟨r, hr, hreq⟩ := h.owned e he
      simp [← hreq, hid r hr]
    unfold View.Replays
    rw [hstatus]
    exact hlog

theorem Logged.step {s : Shelf} {l : Step} (h : Logged before s)
    (hl : l.Heeds parse (Recorded before) s) : Logged before (s.step parse l) := by
  obtain ⟨ts, hcourse, hts⟩ := step_comes h.unique hl
  exact ⟨hcourse.unique h.unique, hcourse.turns.replays hcourse.lawful hts h.replays⟩

/-- **The log of every request replays to its status**, in every state of a run in which no request
that is downloading, and none by a rule, is handed to MoviePilot. -/
theorem request_log_replays {s₀ s : Shelf} (h₀ : s₀.board.Keyed)
    (hruns : Runs (machine parse) (Step.Heeds parse (Recorded s₀.board.requests)) s₀ s) :
    ∀ r ∈ s.board.requests, (∀ r₀ ∈ s₀.board.requests, r₀.id ≠ r.id) →
      Replays (s.board.view r.id).log r.status := by
  have hlogged : Logged s₀.board.requests s :=
    hruns.keeps h₀.logged fun l t t' hl hst h => by
      cases hst
      exact h.step hl
  intro r hr hnew
  have hreplays := hlogged.replays r.id hnew
  unfold View.Replays at hreplays
  rwa [show (s.board.view r.id).status = some r.status by
    show Option.map _ _ = _
    rw [hlogged.unique.find?_eq hr]
    rfl] at hreplays

/-! ## A request that is downloading -/

def asked : Step := .create
  { draw := ⟨0, idOf '1', idOf '2'⟩, catalog := ⟨[idOf 'a'], none⟩, accountID := idOf 'b'
    mediaID := idOf 'a', note := "", actor := ⟨"account", "1"⟩ }

def moved (status : String) (revision : Int) : Step := .update
  { draw := ⟨0, idOf '1', idOf '3'⟩, catalog := ⟨[idOf 'a'], none⟩, id := idOf '1', status
    reason := "ok", expected := revision, actor := ⟨"account", "2"⟩ }

def handedOver : Step := .submit
  { now := 0, jobID := idOf '4', taskID := idOf '5', requestID := idOf '1', resource := ""
    idempotencyKey := "k", actor := ⟨"account", "2"⟩ }

/-- An administrator sets the request to downloading by hand, and then submits it. -/
def byHand : List Step :=
  [asked, moved "approved" 1, moved "queued" 2, moved "downloading" 3, handedOver]

theorem steps_runs {allowed : Step → Shelf → Prop} : ∀ {ls : List Step} {s : Shelf},
    (∀ l ∈ ls, ∀ t, allowed l t) → Runs (machine parse) allowed s (s.steps parse ls)
  | [], _, _ => .refl
  | l :: _, s, h => .head ⟨l, h l (List.mem_cons_self ..) s, rfl⟩
    (steps_runs fun l' hl' => h l' (List.mem_cons_of_mem _ hl'))

theorem keyed_empty : ({} : Shelf).board.Keyed := ⟨uniqueBy_nil, fun _ h => by cases h⟩

/-- A request that is approved by hand. -/
theorem request_log_replays_approved :
    (Shelf.steps (fun _ => none) [asked, moved "approved" 1] {}).board.requests.map (·.status) =
        [.approved] ∧
      ∀ r ∈ (Shelf.steps (fun _ => none) [asked, moved "approved" 1] {}).board.requests,
        Replays ((Shelf.steps (fun _ => none) [asked, moved "approved" 1] {}).board.view r.id).log
          r.status := by
  refine ⟨by decide +kernel, fun r hr => ?_⟩
  refine request_log_replays keyed_empty (steps_runs fun l hl t => ?_) r hr fun _ h => by cases h
  rcases List.mem_cons.1 hl with rfl | hl
  · exact trivial
  · rw [List.mem_singleton.1 hl]
    exact trivial

/-- The last event of the request says that it is queued, and its status that it is downloading. -/
theorem queued_again : ¬∀ (parse : String → Option UUID) (s₀ s : Shelf), s₀.board.Keyed →
    Runs (machine parse) anyStep s₀ s → ∀ r ∈ s.board.requests,
      (∀ r₀ ∈ s₀.board.requests, r₀.id ≠ r.id) → Replays (s.board.view r.id).log r.status := by
  intro h
  have hlast : ((Shelf.steps (fun _ => none) byHand {}).board.requests.any fun r =>
      ((Shelf.steps (fun _ => none) byHand {}).board.view r.id).log.getLast?.all fun e =>
        e.toStatus ≠ some r.status) = true := by
    decide +kernel
  obtain ⟨r, hr, hne⟩ := List.any_eq_true.1 hlast
  obtain ⟨e, he, hto⟩ := (h (fun _ => none) {} _ keyed_empty (steps_runs fun _ _ _ => trivial) r hr
    fun _ h => by cases h).last
  rw [he] at hne
  exact of_decide_eq_true hne hto

end Sakura.Community
