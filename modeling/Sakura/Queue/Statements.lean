/-
  The statements of the queue's calls, for properties that hold of each of them.

  * `storeError_statements`, `failDomain_statements`: what `fail` writes to the domain;
  * `claimRequest_statements`.
-/
import Sakura.Queue.Service

namespace Sakura.Queue

open Txn

variable {S : Store → Effect Store Lock → Prop} {w : Worker} {now : Time} {entry : Nat}
  {task : ClaimedTask} {status : TaskStatus} {message : Bytes}

theorem storeError_statements {ρ κ : Type} [DecidableEq κ] {n : Nat}
    {T : Rows Store Versions ρ κ Lock} {p : ρ → Bool} {set : String → ρ → ρ} {site : Site}
    (hl : ∀ v L, S v { locks := L })
    (hw : ∀ text v r, r ∈ T.rows v → p r →
      S v ⟨[(T.lock (T.key r), .exclusive)], fun s => Layers.lay s (T.version (set text r))⟩) :
    (storeError n message T p set site).Statements S := by
  unfold storeError
  cases storedText n message with
  | none => trivial
  | some text =>
    exact (Rows.statements_updateRow hl fun v r hr hp => hw text v r hr hp).bind
      fun _ => Prog.statements_pure

/-- Versions in tables of the domain other than the requests, the bindings and the users. -/
abbrev WritesAside (S : Store → Effect Store Lock → Prop) : Prop :=
  ∀ {v : Store} {d : Versions} {locks : Held Lock}, d.tasks = [] → d.provisionRequests = [] →
    d.bindings = [] → d.upstream = [] → S v ⟨locks, fun s => Layers.lay s d⟩

theorem insertTimeline_statements {action : UUID} {eventType actor : String}
    {details : TimelineDetails} (hl : ∀ v L, S v { locks := L }) (ho : WritesAside S) :
    (insertTimeline entry action eventType actor message details).Statements S := by
  unfold insertTimeline
  cases storedText 1000 message with
  | none => trivial
  | some text =>
    refine Prog.statements_exec fun v => ?_
    split
    · exact hl v []
    · unfold Rows.inserted
      split
      · exact hl v []
      · exact ho rfl rfl rfl rfl

theorem failAction_statements {actionStatus : ActionStatus} {timelineType : String}
    (hl : ∀ v L, S v { locks := L }) (ho : WritesAside S) :
    (failAction w entry task status message actionStatus timelineType).Statements S := by
  unfold failAction
  cases task.payload.actionId with
  | none => trivial
  | some id =>
    exact (storeError_statements hl fun _ _ _ _ _ => ho rfl rfl rfl rfl).bind
      fun _ => insertTimeline_statements hl ho

/-- A failed request is not succeeded; the other tables of the domain are written aside. -/
theorem failDomain_statements (hl : ∀ v L, S v { locks := L }) (ho : WritesAside S)
    (hr : ∀ v r status text, r ∈ v.provisionRequests → status ≠ ProvisionStatus.succeeded →
      S v ⟨[(.provisionRequest r.id, .exclusive)], fun s =>
        Layers.lay s (provisionRequests.version { r with status, lastError := some text })⟩) :
    (failDomain w now entry task status message).Statements S := by
  unfold failDomain
  cases task.type with
  | embyProvision =>
    refine storeError_statements hl fun text v r hr' _ => hr v r _ text hr' ?_
    split <;> simp
  | riskAction => exact failAction_statements hl ho
  | riskRevert => exact failAction_statements hl ho
  | moviepilotSubmit =>
    show (failJob task message).Statements S
    unfold failJob
    cases task.payload.moviepilotJobId with
    | none => trivial
    | some id => exact storeError_statements hl fun _ _ _ _ _ => ho rfl rfl rfl rfl
  | mediaMatch =>
    show (failMatch now task message).Statements S
    unfold failMatch
    split
    · exact storeError_statements hl fun _ _ _ _ _ => ho rfl rfl rfl rfl
    · trivial
  | _ => trivial

theorem claimRequest_statements {item : ClaimedTask} (hl : ∀ v L, S v { locks := L })
    (hr : ∀ v r, r ∈ v.provisionRequests →
      S v ⟨[(.provisionRequest r.id, .exclusive)], fun s =>
        Layers.lay s (provisionRequests.version { r with status := .provisioning })⟩) :
    (claimRequest item).Statements S := by
  unfold claimRequest
  split
  · exact Rows.statements_updateRow hl fun v r hr' _ => hr v r hr'
  · trivial

end Sakura.Queue
