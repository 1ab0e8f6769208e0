/-
  The log of the automation rules (platform/community.go).

  The actions of a rule and the row that says so are committed together, and the row is unique for the
  event and the rule; but a failure is recorded without a look at the row that is there.

  * `LogStep`, `logStep`: the workers, the statements that fail, and the rest of the program;
  * `heedful`: no failure is recorded over a success;
  * `Truthful`: the log has a success for all effects, and none comes twice;
  * `effects_once`: the runs in which the log stays truthful.
-/
import Sakura.Community.Starvation

namespace Sakura.Community

open Txn

/-! ## Steps -/

/-- A statement fails for a reason that is not in the tables.  The transaction of a rule is rolled
back, and the failure of an action is recorded next. -/
def Stage.fail (fault : Fault) (inAction : Bool) : Stage → Stage
  | .opened rule _ _ => if inAction then .refused rule fault else .ended (some fault)
  | .ended failure => .ended failure
  | _ => .ended (some fault)

/-- The steps of the workers, and what comes between them: statements that fail, and the rest of the
program, where rules are edited, events arrive and failed ones are due again.  Nobody but the workers
writes the log. -/
inductive LogStep where
  | worker (l : AutomationStep)
  | fail (n : Nat) (fault : Fault) (inAction : Bool)
  | others (b : Board)

def logStep (parse : String → Option UUID) : LogStep → Automation → Option Automation
  | .worker l, s => s.step parse l
  | .fail n fault inAction, s => s.running[n]?.map fun r =>
      { s with running := s.running.set n { r with stage := r.stage.fail fault inAction } }
  | .others b, s => if b.executions = s.board.executions then some { s with board := b } else none

/-- When a worker records the failure of a rule, the log has no success of it for the event. -/
def heedful : LogStep → Automation → Prop
  | .worker (.advance n _), s => s.running[n]?.all (fun r => match r.stage with
    | .refused rule _ => findExecution r.eventID rule.id s.board ≠ some .succeeded
    | _ => true) = true
  | _, _ => True

/-! ## The log -/

/-- No effect was committed twice, and the log has a success for each. -/
structure Truthful (s : Automation) : Prop where
  once : s.effects.Nodup
  logged : ∀ key ∈ s.effects, findExecution key.1 key.2 s.board = some .succeeded

/-- The log is truthful, with one row for an event and a rule. -/
structure Kept (s : Automation) : Prop extends Truthful s where
  keys : UniqueBy Execution.key s.board.executions

section

variable {s s' : Automation} {o : Occasion} {b b' : Board} {previous : Option ExecutionStatus}

/-- The log and the effects are as they were. -/
theorem Kept.of_same (hs : Kept s) (hlog : s'.board.executions = s.board.executions)
    (heffects : s'.effects = s.effects) : Kept s' where
  once := heffects ▸ hs.once
  logged key hkey := by
    unfold findExecution
    rw [hlog]
    exact hs.logged key (heffects ▸ hkey)
  keys := hlog ▸ hs.keys

/-- A row is written that no effect rests on. -/
theorem Kept.of_logs (hs : Kept s) {eventID ruleID : UUID} {status : ExecutionStatus}
    (hlogs : Logs eventID ruleID status s.board s'.board) (hfree : (eventID, ruleID) ∉ s.effects)
    (heffects : s'.effects = s.effects ∨
      status = .succeeded ∧ s'.effects = s.effects ++ [(eventID, ruleID)]) : Kept s' := by
  have hold : ∀ key ∈ s.effects, findExecution key.1 key.2 s'.board = some .succeeded := by
    intro key hkey
    have hne : key ≠ (eventID, ruleID) := fun he => hfree (he ▸ hkey)
    exact (hlogs.others key.1 key.2 hne).trans (hs.logged key hkey)
  rcases heffects with heffects | ⟨rfl, heffects⟩
  · exact ⟨⟨heffects ▸ hs.once, heffects ▸ hold⟩, hlogs.keys hs.keys⟩
  · refine ⟨⟨?_, fun key hkey => ?_⟩, hlogs.keys hs.keys⟩
    · rw [heffects]
      exact List.nodup_append.2 ⟨hs.once, List.nodup_singleton _, fun a ha c hc he =>
        hfree (List.mem_singleton.1 hc ▸ he ▸ ha)⟩
    · rw [heffects] at hkey
      rcases List.mem_append.1 hkey with hkey | hkey
      · exact hold key hkey
      · rw [List.mem_singleton.1 hkey]
        exact hlogs.found

/-- A success stays in the log on which a rule begins. -/
theorem mem_reopen {x : Execution} (hx : x ∈ b.executions) (hst : x.status = .succeeded) :
    x ∈ (reopen o previous b).executions := by
  unfold reopen
  split
  · unfold deleteFailed
    exact List.mem_filter.2 ⟨hx, by simp [hst]⟩
  · exact hx

theorem insertExecution_fresh {b₁ : Board} {status : ExecutionStatus}
    (hapart : Apart (reopen o previous b) b₁)
    (h : insertExecution o.eventID o.rule.id status b₁ = .ok b') :
    findExecution o.eventID o.rule.id b ≠ some .succeeded := by
  intro hfind
  obtain ⟨x, hx, hst⟩ := Option.map_eq_some_iff.1 hfind
  have hmem : x ∈ b₁.executions :=
    hapart.executions ▸ mem_reopen (List.mem_of_find?_eq_some hx) hst
  have hkey : x.key = (o.eventID, o.rule.id) := by simpa using List.find?_some hx
  exact (insertExecution_ok h).1 x hmem hkey

/-- **A rule that has succeeded is not committed again**: its row is in the way. -/
theorem runRule_fresh {ran : Bool} (h : runRule o previous b = .committed b' ran) :
    findExecution o.eventID o.rule.id b ≠ some .succeeded := by
  rw [runRule_eq] at h
  split at h
  · split at h
    · cases h
    · next b₁ h₁ =>
      split at h
      · cases h
      · next b₂ h₂ => exact insertExecution_fresh (actions_apart h₁) h₂
  · split at h
    · cases h
    · next b₂ h₂ => exact insertExecution_fresh (.refl _) h₂

theorem settleEvent_executions {now : Time} {r : AutomationRun} {failure : Option Fault} :
    (settleEvent now r failure b).executions = b.executions := by
  cases failure <;> rfl

end

/-! ## Runs -/

section

variable {parse : String → Option UUID} {s s' s₀ : Automation}

/-- The effect of a step of a worker goes into the history. -/
theorem Kept.effect (hs : Kept s) {b : Board} {running : List AutomationRun} {eventID : UUID}
    (hlog : b.executions = s.board.executions) :
    Kept { board := b, running, effects := s.effects ++ ((none : Option UUID).map
      (eventID, ·)).toList } :=
  hs.of_same hlog (List.append_nil _)

/-- One case for each stage of the worker. -/
theorem Kept.advance (hs : Kept s) {n : Nat} {d : Draw}
    (hheed : heedful (.worker (.advance n d)) s) (h : s.step parse (.advance n d) = some s') :
    Kept s' := by
  obtain ⟨r, hr, rfl⟩ := Option.map_eq_some_iff.1 h
  cases hstage : r.stage with
  | claimed =>
    simp only [AutomationRun.advance, hstage]
    exact hs.effect rfl
  | next rules =>
    cases rules with
    | nil =>
      simp only [AutomationRun.advance, hstage]
      exact hs.effect rfl
    | cons rule rules =>
      simp only [AutomationRun.advance, hstage]
      split <;> exact hs.effect rfl
  | opened rule rules previous =>
    simp only [AutomationRun.advance, hstage]
    split
    · exact hs.effect rfl
    · cases hout : runRule (r.occasion parse d rule) previous s.board with
      | refused fault => exact hs.effect rfl
      | broken fault => exact hs.effect rfl
      | committed b ran =>
        have hfree : (r.eventID, rule.id) ∉ s.effects := fun hmem =>
          runRule_fresh hout (hs.logged _ hmem)
        rcases runRule_committed hout with ⟨rfl, -, -, hlogs⟩ | ⟨rfl, -, hlogs⟩
        · exact hs.of_logs hlogs hfree (Or.inr ⟨rfl, rfl⟩)
        · exact hs.of_logs hlogs hfree (Or.inl (List.append_nil _))
  | refused rule fault =>
    have hfind : findExecution r.eventID rule.id s.board ≠ some .succeeded := by
      simpa [heedful, hr, hstage] using hheed
    simp only [AutomationRun.advance, hstage]
    exact hs.of_logs recordFailure_logs (fun hmem => hfind (hs.logged _ hmem))
      (Or.inl (List.append_nil _))
  | ended failure =>
    simp only [AutomationRun.advance, hstage]
    exact hs.effect settleEvent_executions

/-- **What one step keeps**, if it does not record a failure over a success. -/
theorem Kept.step (hs : Kept s) {l : LogStep} (hheed : heedful l s)
    (h : logStep parse l s = some s') : Kept s' := by
  cases l with
  | worker l =>
    cases l with
    | claim workerID lease now pick =>
      obtain ⟨e, -, rfl⟩ := Option.map_eq_some_iff.1 h
      exact hs.of_same rfl rfl
    | advance n d => exact hs.advance hheed h
    | crash n =>
      cases h
      exact hs.of_same rfl rfl
  | fail n fault inAction =>
    obtain ⟨r, -, rfl⟩ := Option.map_eq_some_iff.1 h
    exact hs.of_same rfl rfl
  | others b =>
    change (if b.executions = s.board.executions then some { s with board := b } else none) =
      some s' at h
    split at h
    · next hlog =>
      cases h
      exact hs.of_same hlog rfl
    · cases h

/-- **The effects of a rule are committed once for an event, and the log says so.** This holds in
every state of a run in which no failure is recorded over a success. -/
theorem effects_once (hkeys : UniqueBy Execution.key s₀.board.executions) (hnone : s₀.effects = [])
    (hrun : Runs (logStep parse) heedful s₀ s) : Truthful s := by
  have h₀ : Kept s₀ := ⟨⟨hnone ▸ List.nodup_nil, by simp [hnone]⟩, hkeys⟩
  exact (hrun.keeps h₀ fun _ _ _ hl hst ht => ht.step hl hst).toTruthful

end

/-! ## A success that is overwritten -/

/-- A rule that approves a request and completes it. -/
def approveRule : AutomationRule where
  id := idOf '1'
  code := "approve"
  name := "Approve"
  triggerEvent := "media"
  conditions := []
  actions := ["approved", "completed"].map fun status =>
    [("type", "set_request_status"), ("request_id", "r"), ("status", status)]
  enabled := true
  priority := 1

def requestOnBoard : Automation where
  board :=
    { rules := [approveRule], events := [mediaEvent]
      requests := [{ id := idOf 'a', requestNo := "R1", mediaId := idOf 'b', requestedBy := idOf 'c'
                     createdAt := 0, updatedAt := 0 }] }

instance (l : LogStep) (s : Automation) : Decidable (heedful l s) := by
  unfold heedful
  split <;> infer_instance

/-- The worker "v" reads the log, and is slow; "w" takes the event over when the lease has ended. -/
def takenOver (rest : List LogStep) : List LogStep :=
  [.worker (.claim "v" 0 1 (idOf 'e')), .worker (.advance 0 ⟨1, idOf 'a', idOf 'b'⟩),
    .worker (.advance 0 ⟨1, idOf 'a', idOf 'b'⟩),
    .worker (.claim "w" 0 100000000000 (idOf 'e'))] ++
  List.replicate 3 (.worker (.advance 1 ⟨100000000000, idOf 'a', idOf 'b'⟩)) ++ rest

/-- The slow worker leaves the rule when its action fails. -/
theorem effects_once_takenOver : ∃ s, Truthful s ∧ s.effects = [(idOf 'e', idOf '1')] := by
  obtain ⟨s, hrun, hs⟩ := play_any (logStep fun _ => some (idOf 'a')) heedful
    (takenOver [.worker (.advance 0 ⟨100000000000, idOf 'a', idOf 'b'⟩)]) requestOnBoard
    (fun s => s.effects = [(idOf 'e', idOf '1')]) (by decide +kernel)
  exact ⟨s, effects_once uniqueBy_nil rfl hrun, of_decide_eq_true hs⟩

/-- It records its failure over the success. -/
theorem success_overwritten : ¬∀ (parse : String → Option UUID) (s₀ s : Automation),
    UniqueBy Execution.key s₀.board.executions → s₀.effects = [] →
    Runs (logStep parse) anyStep s₀ s → Truthful s := by
  intro h
  obtain ⟨s, hrun, hs⟩ := play_any (logStep fun _ => some (idOf 'a')) anyStep
    (takenOver (List.replicate 2 (.worker (.advance 0 ⟨100000000000, idOf 'a', idOf 'b'⟩))))
    requestOnBoard (fun s => s.effects = [(idOf 'e', idOf '1')] &&
      findExecution (idOf 'e') (idOf '1') s.board = some .failed) (by decide +kernel)
  obtain ⟨heffects, hfailed⟩ := Bool.and_eq_true_iff.1 hs
  have hlogged := (h _ requestOnBoard s uniqueBy_nil rfl hrun).logged (idOf 'e', idOf '1')
    (of_decide_eq_true heffects ▸ List.mem_singleton_self _)
  rw [of_decide_eq_true hfailed] at hlogged
  cases hlogged

end Sakura.Community
