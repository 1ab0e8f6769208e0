/-
  The verdict on a device, and what follows from it (platform/risk.go).

  Allow rules come first in the list of the device rules, and the first rule that holds decides.

  * `evaluateDeviceRules_allowed`, `evaluateDeviceRules_denied`: the verdict on a list in that order;
  * `allow_rules_silence`: where a device is allowed, its sessions make events and no actions.
-/
import Sakura.Risk.Conditions
import Sakura.Risk.Events

namespace Sakura.Risk

open Queue Settings

/-! ## The order of the rules -/

instance : Std.Total deviceOrder where
  total a b := by
    rcases Nat.lt_trichotomy a.decision.rank b.decision.rank with h | h | h
    · exact .inl (.inl h)
    · rcases Int.lt_trichotomy a.priority b.priority with hp | hp | hp
      · exact .inl (.inr ⟨h, .inl hp⟩)
      · exact (String.le_total a.id.text b.id.text).imp (fun ht => .inr ⟨h, .inr ⟨hp, ht⟩⟩)
          fun ht => .inr ⟨h.symm, .inr ⟨hp.symm, ht⟩⟩
      · exact .inr (.inr ⟨h.symm, .inl hp⟩)
    · exact .inr (.inl h)

instance : IsTrans DeviceRule deviceOrder where
  trans a b c hab hbc := by
    unfold deviceOrder at *
    rcases hab with hab | ⟨hr, hab | ⟨hp, hab⟩⟩ <;> rcases hbc with hbc | ⟨hr', hbc | ⟨hp', hbc⟩⟩
    all_goals try omega
    exact .inr ⟨hr.trans hr', .inr ⟨hp.trans hp', String.le_trans hab hbc⟩⟩

/-- Allow rules come first. -/
theorem listDeviceRules_sorted (instanceID : Option UUID) (rules : List DeviceRule) :
    (listDeviceRules instanceID rules).Pairwise fun a b => a.decision.rank ≤ b.decision.rank :=
  (List.pairwise_insertionSort deviceOrder _).imp fun h => h.elim Nat.le_of_lt fun h => h.1.le

theorem mem_listDeviceRules {instanceID : Option UUID} {rules : List DeviceRule} {r : DeviceRule} :
    r ∈ listDeviceRules instanceID rules ↔ r ∈ rules ∧ ofInstance instanceID r.instanceId = true := by
  rw [listDeviceRules, List.mem_insertionSort, List.mem_filter]

theorem mem_listRiskRules {collate : String → String → Bool} {instanceID : Option UUID}
    {rules : List RiskRule} {r : RiskRule} :
    r ∈ listRiskRules collate instanceID rules ↔
      r ∈ rules ∧ ofInstance instanceID r.instanceId = true := by
  rw [listRiskRules, List.mem_insertionSort, List.mem_filter]

/-! ## The verdict -/

section

variable {collate : String → String → Bool} {lower : Char → Char} {regexp : Regexp}
  {o : PlaybackObservation}

/-- A rule of the decision is enabled and holds. -/
def Matched (lower : Char → Char) (regexp : Regexp) (o : PlaybackObservation) (decision : Decision)
    (rules : List DeviceRule) : Prop :=
  ∃ r ∈ rules, r.enabled = true ∧ r.decision = decision ∧ r.holds lower regexp o = true

theorem matched_cons {decision : Decision} {r : DeviceRule} {rules : List DeviceRule} :
    Matched lower regexp o decision (r :: rules) ↔
      (r.enabled = true ∧ r.decision = decision ∧ r.holds lower regexp o = true) ∨
        Matched lower regexp o decision rules := by
  unfold Matched
  rw [List.exists_mem_cons_iff]

theorem decision_cases (d : Decision) : d = .allow ∨ d = .deny := by
  cases d <;> simp

/-- After a deny rule comes no allow rule. -/
theorem not_matched_allow {r : DeviceRule} {rules : List DeviceRule} (hr : r.decision = .deny)
    (hs : ∀ s ∈ rules, r.decision.rank ≤ s.decision.rank) : ¬Matched lower regexp o .allow rules := by
  rintro ⟨s, hmem, -, hallow, -⟩
  have := hs s hmem
  rw [hr, hallow] at this
  exact absurd this (by decide)

/-- **The verdict on rules in their order**, by induction on them: the rule that decides is an allow
rule where any allow rule holds, since none of them comes after it. -/
theorem evaluateDeviceRules_verdict : ∀ {rules : List DeviceRule},
    rules.Pairwise (fun a b => a.decision.rank ≤ b.decision.rank) →
    ((evaluateDeviceRules lower regexp o rules).1 = .allowed ↔ Matched lower regexp o .allow rules) ∧
    ((evaluateDeviceRules lower regexp o rules).1 = .denied ↔
      ¬Matched lower regexp o .allow rules ∧ Matched lower regexp o .deny rules)
  | [], _ => by
    have hnone : ∀ d, ¬Matched lower regexp o d [] := fun d ⟨_, hmem, _⟩ => nomatch hmem
    exact ⟨⟨nofun, fun h => absurd h (hnone _)⟩, ⟨nofun, fun h => absurd h.2 (hnone _)⟩⟩
  | r :: rules, hs => by
    obtain ⟨hfirst, hs⟩ := List.pairwise_cons.1 hs
    rw [matched_cons, matched_cons, evaluateDeviceRules]
    by_cases hr : r.enabled = true ∧ r.holds lower regexp o = true
    · rw [if_pos (by rw [hr.1, hr.2]; rfl)]
      rcases decision_cases r.decision with hd | hd
      · simp [hd, hr]
      · have hno : ¬Matched lower regexp o .allow rules := not_matched_allow hd hfirst
        simp [hd, hr, hno]
    · rw [if_neg (by simpa using hr)]
      have hskip : ∀ d, ¬(r.enabled = true ∧ r.decision = d ∧ r.holds lower regexp o = true) :=
        fun d h => hr ⟨h.1, h.2.2⟩
      rw [or_iff_right (hskip _), or_iff_right (hskip _)]
      exact evaluateDeviceRules_verdict hs

/-- The rule that decides has the decision. -/
theorem evaluateDeviceRules_rule {rules : List DeviceRule}
    (h : (evaluateDeviceRules lower regexp o rules).1 = .allowed) :
    ∀ r ∈ (evaluateDeviceRules lower regexp o rules).2, r.decision = .allow := by
  induction rules with
  | nil => cases h
  | cons r rules ih =>
    rw [evaluateDeviceRules] at h ⊢
    split at h
    · rename_i happ
      rw [if_pos happ]
      rintro s ⟨⟩
      by_contra hd
      rw [if_neg hd] at h
      cases h
    · rename_i happ
      rw [if_neg happ]
      exact ih h

/-! ## Observations -/

/-- A rule of the table is for the instance, has the decision, is enabled and holds. -/
def Decides (lower : Char → Char) (regexp : Regexp) (o : PlaybackObservation)
    (instanceID : Option UUID) (decision : Decision) (rules : List DeviceRule) : Prop :=
  ∃ r ∈ rules, ofInstance instanceID r.instanceId = true ∧ r.enabled = true ∧
    r.decision = decision ∧ r.holds lower regexp o = true

theorem matched_list {instanceID : Option UUID} {decision : Decision} {rules : List DeviceRule} :
    Matched lower regexp o decision (listDeviceRules instanceID rules) ↔
      Decides lower regexp o instanceID decision rules := by
  unfold Matched Decides
  refine exists_congr fun r => ?_
  rw [mem_listDeviceRules, and_assoc]

theorem observationField_bound (env : Surroundings) (instanceID : UUID) (session : EmbyPlaybackSession)
    (field : String) : observationField (boundPlayback env instanceID session) field =
      observationField (parsePlayback session) field := by
  simp only [observationField, boundPlayback]

/-- The rules do not look at the binding. -/
theorem holds_bound (env : Surroundings) (instanceID : UUID) (session : EmbyPlaybackSession)
    (r : DeviceRule) : r.holds lower regexp (boundPlayback env instanceID session) =
      r.holds lower regexp (parsePlayback session) := by
  unfold DeviceRule.holds
  rw [observationField_bound]

theorem decides_bound (env : Surroundings) (instanceID : UUID) {session : EmbyPlaybackSession}
    {of : Option UUID} {decision : Decision} {rules : List DeviceRule} :
    Decides lower regexp (boundPlayback env instanceID session) of decision rules ↔
      Decides lower regexp (parsePlayback session) of decision rules := by
  unfold Decides
  simp only [holds_bound]

/-- **The verdict on the device of a session.** -/
theorem observe_verdict (env : Surroundings) (instanceID : UUID) (session : EmbyPlaybackSession) :
    ((observe lower regexp env instanceID session).deviceStatus = .allowed ↔
      Decides lower regexp (parsePlayback session) (some instanceID) .allow env.deviceRules) ∧
    ((observe lower regexp env instanceID session).deviceStatus = .denied ↔
      ¬Decides lower regexp (parsePlayback session) (some instanceID) .allow env.deviceRules ∧
      Decides lower regexp (parsePlayback session) (some instanceID) .deny env.deviceRules) := by
  rw [← decides_bound env instanceID, ← decides_bound env instanceID, ← matched_list, ← matched_list]
  exact evaluateDeviceRules_verdict (listDeviceRules_sorted (some instanceID) env.deviceRules)

/-- The rule with another identifier and another priority. -/
def DeviceRule.relabel (f : DeviceRule → UUID × Int) (r : DeviceRule) : DeviceRule :=
  { r with id := (f r).1, priority := (f r).2 }

theorem decides_relabel {f : DeviceRule → UUID × Int} {instanceID : Option UUID} {decision : Decision}
    {rules : List DeviceRule} :
    Decides lower regexp o instanceID decision (rules.map (·.relabel f)) ↔
      Decides lower regexp o instanceID decision rules := by
  unfold Decides
  constructor
  · rintro ⟨_, hmem, h⟩
    obtain ⟨r, hr, rfl⟩ := List.mem_map.1 hmem
    exact ⟨r, hr, h⟩
  · rintro ⟨r, hr, h⟩
    exact ⟨_, List.mem_map_of_mem hr, h⟩

theorem status_ext {s t : DeviceStatus} (ha : s = .allowed ↔ t = .allowed)
    (hd : s = .denied ↔ t = .denied) : s = t := by
  cases s <;> cases t <;> simp at ha hd ⊢

theorem observe_relabel (env : Surroundings) (instanceID : UUID) (session : EmbyPlaybackSession)
    (f : DeviceRule → UUID × Int) :
    (observe lower regexp { env with deviceRules := env.deviceRules.map (·.relabel f) } instanceID
      session).deviceStatus = (observe lower regexp env instanceID session).deviceStatus := by
  let env' : Surroundings := { env with deviceRules := env.deviceRules.map (·.relabel f) }
  have hold : ∀ d, Decides lower regexp (parsePlayback session) (some instanceID) d env'.deviceRules ↔
      Decides lower regexp (parsePlayback session) (some instanceID) d env.deviceRules := fun _ =>
    decides_relabel ..
  refine status_ext ?_ ?_
  · rw [(observe_verdict env' instanceID session).1, (observe_verdict env instanceID session).1, hold]
  · rw [(observe_verdict env' instanceID session).2, (observe_verdict env instanceID session).2,
      hold, hold]

/-! ## Snapshots -/

/-- Where the device is allowed, every alarm is only observed. -/
theorem sessionAlarms_silent {env : Surroundings} {instanceID : UUID}
    {sessions : List EmbyPlaybackSession} {session : EmbyPlaybackSession}
    (h : (observe lower regexp env instanceID session).deviceStatus = .allowed) :
    ∀ a ∈ sessionAlarms collate lower regexp env instanceID sessions session,
      a.observationOnly = true := by
  intro a ha
  rcases List.mem_append.1 ha with ha | ha
  · obtain ⟨r, hr, -⟩ := List.mem_map.1 ha
    obtain ⟨hr, hdeny⟩ := List.mem_filter.1 hr
    have hallow := evaluateDeviceRules_rule h r (Option.mem_toList.1 hr)
    exact absurd (of_decide_eq_true hdeny) (by rw [hallow]; decide)
  · obtain ⟨r, -, rfl⟩ := List.mem_map.1 ha
    show (r.observationMode || decide _) = true
    rw [h, decide_eq_true rfl, Bool.or_true]

/-- A rule that holds raises an alarm. -/
theorem mem_sessionAlarms {env : Surroundings} {instanceID : UUID}
    {sessions : List EmbyPlaybackSession} {session : EmbyPlaybackSession} {r : RiskRule}
    (hr : r ∈ env.riskRules) (hof : ofInstance (some instanceID) r.instanceId = true)
    (hholds : evaluateRiskRule lower regexp r (observe lower regexp env instanceID session)
      (concurrentOf sessions session.userID) = true) :
    riskAlarm r (observe lower regexp env instanceID session)
      (concurrentOf sessions session.userID) ∈
      sessionAlarms collate lower regexp env instanceID sessions session :=
  List.mem_append_right _ (List.mem_map_of_mem
    (List.mem_filter.2 ⟨mem_listRiskRules.2 ⟨hr, hof⟩, hholds⟩))

end

section

variable (collate : String → String → Bool) (lower : Char → Char) (regexp : Regexp)
  (newID : Nat → UUID)

/-- The turns of the loop over the first sessions of a snapshot. -/
def turns (env : Surroundings) (instanceID : UUID) (sessions : List EmbyPlaybackSession) (now : Time)
    (first : List EmbyPlaybackSession) (p : Playback) : Except Err Playback :=
  first.foldlM
    (fun p session => ingestSession collate lower regexp newID env instanceID sessions now session p) p

/-- What the session of an allowed device does: it makes no action and no task, the events that it makes
are only observed, and there is an event for every risk rule that holds. -/
structure Observed (env : Surroundings) (instanceID : UUID) (sessions : List EmbyPlaybackSession)
    (now : Time) (session : EmbyPlaybackSession) (p p' : Playback) : Prop where
  actions : p'.actions = p.actions
  tasks : p'.tasks = p.tasks
  events : ∃ new, p'.events = p.events ++ new ∧ ∀ e ∈ new, e.observationMode = true
  rules : ∀ r ∈ env.riskRules, ofInstance (some instanceID) r.instanceId = true →
    evaluateRiskRule lower regexp r (observe lower regexp env instanceID session)
      (concurrentOf sessions session.userID) = true →
    ∃ e ∈ p'.events, e.dedupeKey = (riskAlarm r (observe lower regexp env instanceID session)
        (concurrentOf sessions session.userID)).key instanceID
          (observe lower regexp env instanceID session) now ∧
      (e ∈ p.events ∨ (e.source = .riskRule ∧ e.ruleId = r.id ∧ e.observationMode = true))

variable {collate lower regexp newID} {env : Surroundings} {instanceID : UUID}
  {sessions : List EmbyPlaybackSession} {now : Time} {session : EmbyPlaybackSession} {p p' : Playback}

theorem ingestSession_observed
    (h : ingestSession collate lower regexp newID env instanceID sessions now session p = .ok p')
    (hallowed : (observe lower regexp env instanceID session).deviceStatus = .allowed) :
    Observed lower regexp env instanceID sessions now session p p' := by
  have hdetects := ingestSession_detects h
  have hsilent : ∀ a ∈ sessionAlarms collate lower regexp env instanceID sessions session,
      a.observationOnly = true := sessionAlarms_silent hallowed
  obtain ⟨hactions, htasks⟩ := hdetects.silent hsilent
  obtain ⟨new, hevents, hnew⟩ := hdetects.events
  have hobserved : ∀ e ∈ new, e.observationMode = true := by
    intro e he
    obtain ⟨a, ha, -, -, -, hmode⟩ := hnew e he
    exact hmode.trans (hsilent a ha)
  refine ⟨hactions, htasks, ⟨new, hevents, hobserved⟩, fun r hr hof hholds => ?_⟩
  obtain ⟨e, he, hkey, hbefore⟩ := hdetects.event (mem_sessionAlarms hr hof hholds)
  refine ⟨e, he, hkey, ?_⟩
  rcases hbefore with hbefore | ⟨hwatch, -⟩
  · exact .inl hbefore
  · rw [hevents] at he
    refine (List.mem_append.1 he).imp_right fun he => ⟨?_, ?_, hobserved e he⟩
    · exact congrArg Watch.source hwatch
    · exact congrArg Watch.ruleId hwatch

/-- Later turns and the end of the snapshot take no event away. -/
theorem turns_events {first : List EmbyPlaybackSession}
    (h : turns collate lower regexp newID env instanceID sessions now first p = .ok p') :
    ∃ new, p'.events = p.events ++ new := by
  refine foldlM_rel (R := fun _ p p' => ∃ new, p'.events = p.events ++ new)
    (fun p => ⟨[], (List.append_nil _).symm⟩) ?_ h
  rintro session first p q p' hq ⟨new, hnew⟩
  obtain ⟨made, hmade, -⟩ := (ingestSession_detects hq).events
  exact ⟨made ++ new, by rw [hnew, hmade, List.append_assoc]⟩

/-- The turn of one session of a snapshot. -/
theorem snapshot_turn {pre post : List EmbyPlaybackSession}
    (h : ingestPlaybackSnapshot collate lower regexp newID env instanceID (pre ++ session :: post) now p =
      .ok p') :
    ∃ q q', turns collate lower regexp newID env instanceID (pre ++ session :: post) now pre p = .ok q ∧
      ingestSession collate lower regexp newID env instanceID (pre ++ session :: post) now session q =
        .ok q' ∧ ∃ new, p'.events = q'.events ++ new := by
  obtain ⟨r, hr, hclose⟩ := except_bind_ok h
  obtain ⟨q, hq, hr⟩ := foldlM_append_ok hr
  obtain ⟨q', hq', hr⟩ := except_bind_ok hr
  obtain ⟨new, hnew⟩ := turns_events hr
  exact ⟨q, q', hq, hq', new, by rw [(closeSnapshot_undetected hclose).events, hnew]⟩

/-- **Device allow rules take precedence and silence the risk engine.**  The verdict on a device is that
it is allowed if and only if an enabled allow rule holds, and denied if and only if none does and an
enabled deny rule does, whatever the identifiers and the priorities.  The turn of a session of an allowed
device makes no action and no task; the risk rules that hold still have their events. -/
theorem allow_rules_silence (collate : String → String → Bool) (lower : Char → Char)
    (regexp : Regexp) (newID : Nat → UUID) (env : Surroundings) (instanceID : UUID) :
    (∀ session,
      ((observe lower regexp env instanceID session).deviceStatus = .allowed ↔
        Decides lower regexp (parsePlayback session) (some instanceID) .allow env.deviceRules) ∧
      ((observe lower regexp env instanceID session).deviceStatus = .denied ↔
        ¬Decides lower regexp (parsePlayback session) (some instanceID) .allow env.deviceRules ∧
        Decides lower regexp (parsePlayback session) (some instanceID) .deny env.deviceRules) ∧
      ∀ f, (observe lower regexp { env with deviceRules := env.deviceRules.map (·.relabel f) }
        instanceID session).deviceStatus = (observe lower regexp env instanceID session).deviceStatus) ∧
    ∀ pre session post now p p',
      ingestPlaybackSnapshot collate lower regexp newID env instanceID (pre ++ session :: post) now p =
        .ok p' →
      (observe lower regexp env instanceID session).deviceStatus = .allowed →
      ∃ q q', turns collate lower regexp newID env instanceID (pre ++ session :: post) now pre p = .ok q ∧
        ingestSession collate lower regexp newID env instanceID (pre ++ session :: post) now session q =
          .ok q' ∧
        Observed lower regexp env instanceID (pre ++ session :: post) now session q q' ∧
        ∃ new, p'.events = q'.events ++ new := by
  constructor
  · intro session
    obtain ⟨hallowed, hdenied⟩ := observe_verdict env instanceID session
    exact ⟨hallowed, hdenied, observe_relabel env instanceID session⟩
  · intro pre session post now p p' h hallowed
    obtain ⟨q, q', hq, hq', hevents⟩ := snapshot_turn h
    exact ⟨q, q', hq, hq', ingestSession_observed hq' hallowed, hevents⟩

end

/-- Identifiers, by their last digit. -/
def digitID (n : Nat) : UUID := idOf (Char.ofNat (48 + n))

def byText (a b : String) : Bool := a ≤ b

/-- A session of a client that is allowed, on a device that a deny rule looks for. -/
def livingRoom : EmbyPlaybackSession where
  id := "s"
  userID := "u"
  client := "Emby Web"
  deviceName := "Living Room"
  nowPlayingItem := [("Id", .string "i")]

def webAllowed : Surroundings where
  deviceRules := [
    { id := digitID 1, name := "living", decision := .deny, matchField := .deviceName
      matchOperator := .contains, matchValue := "Living", action := some .disableUser, priority := 0 },
    { id := digitID 2, name := "web", decision := .allow, matchField := .clientName
      matchOperator := .exact, matchValue := "Emby Web", priority := 9 }]
  riskRules := [{ clientRule "prefix" "emby" with id := digitID 3 }]

theorem allow_rules_silence_web : ∃ q q',
    turns byText lowerChar balanced digitID webAllowed (digitID 0) ([] ++ livingRoom :: []) 0 [] {} =
      .ok q ∧
    ingestSession byText lowerChar balanced digitID webAllowed (digitID 0) ([] ++ livingRoom :: []) 0
      livingRoom q = .ok q' ∧ q'.actions = q.actions := by
  have hok : (ingestPlaybackSnapshot byText lowerChar balanced digitID webAllowed (digitID 0)
      ([] ++ livingRoom :: []) 0 {}).isOk = true := by decide +kernel
  have hallowed : (observe lowerChar balanced webAllowed (digitID 0) livingRoom).deviceStatus =
      .allowed := by decide +kernel
  cases h : ingestPlaybackSnapshot byText lowerChar balanced digitID webAllowed (digitID 0)
      ([] ++ livingRoom :: []) 0 {} with
  | error e => rw [h] at hok; cases hok
  | ok p' =>
    obtain ⟨q, q', hq, hq', hobserved, -⟩ := (allow_rules_silence byText lowerChar balanced digitID
      webAllowed (digitID 0)).2 [] livingRoom [] 0 {} p' h hallowed
    exact ⟨q, q', hq, hq', hobserved.actions⟩

end Sakura.Risk
