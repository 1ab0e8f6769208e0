/-
  What an ingestion does to the events and to the actions that follow from them.

  * `Watch`: a rule, an instance and a playback, for which events are made;
  * `createRiskEvent_cases`: what the creation of an event does;
  * `Detects`, `ingestSession_detects`: what a session does, alarm by alarm.
-/
import Sakura.Risk.Ingest

namespace Sakura.Risk

open Queue Settings

/-! ## Keys -/

/-- What the events of one kind are about. -/
structure Watch where
  source : Source
  ruleId : UUID
  instanceId : UUID
  playbackKey : String
  deriving DecidableEq

def Watch.dedupeKey (w : Watch) (bucket : Int) : String :=
  Risk.dedupeKey w.source w.ruleId w.instanceId w.playbackKey bucket

def DetectedEvent.watch (e : DetectedEvent) : Watch := ⟨e.source, e.ruleId, e.instanceId, e.playbackKey⟩

def Alarm.watch (a : Alarm) (instanceID : UUID) (o : PlaybackObservation) : Watch :=
  ⟨a.source, a.ruleId, instanceID, o.playbackKey⟩

/-- The key of the event that an alarm would make. -/
def Alarm.key (a : Alarm) (instanceID : UUID) (o : PlaybackObservation) (now : Time) : String :=
  (a.watch instanceID o).dedupeKey (bucketOf a.cooldown now)

theorem Source.text_append_inj {s s' : Source} {t t' : List Char}
    (h : s.text.toList ++ t = s'.text.toList ++ t') : s = s' ∧ t = t' := by
  cases s <;> cases s'
  · exact ⟨rfl, List.append_cancel_left h⟩
  · exact absurd (List.cons.inj h).1 (by decide)
  · exact absurd (List.cons.inj h).1 (by decide)
  · exact ⟨rfl, List.append_cancel_left h⟩

theorem UUID.text_append_inj {a b : UUID} {t t' : List Char}
    (h : a.text.toList ++ t = b.text.toList ++ t') : a = b ∧ t = t' := by
  obtain ⟨ha, ht⟩ := List.append_inj h
    (by rw [String.length_toList, String.length_toList, a.valid, b.valid])
  exact ⟨UUID.text_inj.1 (String.toList_inj.1 ha), ht⟩

/-- **A key says what it is the key of.** -/
theorem Watch.dedupeKey_inj {w w' : Watch} {b b' : Int} (h : w.dedupeKey b = w'.dedupeKey b') :
    w = w' ∧ b = b' := by
  obtain ⟨source, rule, inst, playback⟩ := w
  obtain ⟨source', rule', inst', playback'⟩ := w'
  have hl := congrArg String.toList h
  simp only [Watch.dedupeKey, Risk.dedupeKey, String.toList_append, List.append_assoc] at hl
  obtain ⟨hsource, h₁⟩ := Source.text_append_inj hl
  obtain ⟨hrule, h₂⟩ := UUID.text_append_inj (List.append_cancel_left h₁)
  obtain ⟨hinst, h₃⟩ := UUID.text_append_inj (List.append_cancel_left h₂)
  obtain ⟨hkey, hb⟩ := append_cons_inj (colon_notMem_intText b) (colon_notMem_intText b')
    (List.append_cancel_left h₃)
  rw [hsource, hrule, hinst, String.toList_inj.1 hkey]
  exact ⟨rfl, intText_inj hb⟩

/-! ## Loops -/

theorem foldlM_append_ok {α β ε : Type} {f : β → α → Except ε β} {b b' : β} :
    ∀ {l l' : List α}, (l ++ l').foldlM f b = .ok b' →
      ∃ m, l.foldlM f b = .ok m ∧ l'.foldlM f m = .ok b' := by
  intro l l' h
  rw [List.foldlM_append] at h
  exact except_bind_ok h

/-- What holds of every turn of a loop and of turns that follow each other holds of the loop. -/
theorem foldlM_rel {α β ε : Type} {f : β → α → Except ε β} {R : List α → β → β → Prop}
    (nil : ∀ b, R [] b b)
    (cons : ∀ a l b m b', f b a = .ok m → R l m b' → R (a :: l) b b') :
    ∀ {l : List α} {b b' : β}, l.foldlM f b = .ok b' → R l b b'
  | [], b, b', h => by cases h; exact nil b
  | a :: l, b, b', h => by
    obtain ⟨m, ha, h⟩ := except_bind_ok h
    exact cons a l b m b' ha (foldlM_rel nil cons h)

/-! ## One event -/

section

variable {collate : String → String → Bool} {lower : Char → Char} {regexp : Regexp}
  {newID : Nat → UUID} {env : Surroundings} {instanceID sessionID : UUID} {o : PlaybackObservation}
  {alarm : Alarm} {now : Time} {p p' : Playback}

/-- Events, actions and tasks stay. -/
structure Undetected (p p' : Playback) : Prop where
  events : p'.events = p.events
  actions : p'.actions = p.actions
  tasks : p'.tasks = p.tasks

theorem Undetected.refl (p : Playback) : Undetected p p := ⟨rfl, rfl, rfl⟩

theorem Undetected.trans {q : Playback} (h : Undetected p p') (h' : Undetected p' q) :
    Undetected p q :=
  ⟨h'.events.trans h.events, h'.actions.trans h.actions, h'.tasks.trans h.tasks⟩

/-- An event is made, with a task and an action unless it is only observed or none is recommended. -/
structure Made (instanceID : UUID) (o : PlaybackObservation) (alarm : Alarm) (now : Time)
    (p p' : Playback) (e : DetectedEvent) : Prop where
  watch : e.watch = alarm.watch instanceID o
  key : e.dedupeKey = alarm.key instanceID o now
  created : e.createdAt = now
  observed : e.observationMode = alarm.observationOnly
  freshKey : ∀ x ∈ p.events, x.dedupeKey ≠ e.dedupeKey
  freshID : ∀ x ∈ p.events, x.id ≠ e.id
  events : p'.events = p.events ++ [e]
  actions : (p'.actions = p.actions ∧ p'.tasks = p.tasks) ∨
    (alarm.observationOnly = false ∧
      ∃ a, p'.actions = p.actions ++ [a] ∧ a.eventId = e.id ∧ a.createdAt = now)

theorem queueRiskNotifications_undetected {eventID : UUID} {affected : Option UUID}
    (h : queueRiskNotifications env eventID affected alarm p = .ok p') : Undetected p p' := by
  obtain ⟨ids, -, h⟩ := except_bind_ok h
  cases h
  exact ⟨rfl, rfl, rfl⟩

theorem queueAction_made {eventID : UUID} {action : ActionType}
    (h : queueAction newID instanceID eventID o alarm action now p = .ok p') :
    p'.events = p.events ∧
      ∃ a, p'.actions = p.actions ++ [a] ∧ a.eventId = eventID ∧ a.createdAt = now := by
  obtain ⟨tasks, -, h⟩ := except_bind_ok h
  split at h
  · cases h
  · cases h
    exact ⟨rfl, _, rfl, rfl, rfl⟩

theorem queueRecommended_made {eventID : UUID}
    (h : queueRecommended newID instanceID eventID o alarm now p = .ok p') :
    p'.events = p.events ∧ ((p'.actions = p.actions ∧ p'.tasks = p.tasks) ∨
      (alarm.observationOnly = false ∧
        ∃ a, p'.actions = p.actions ++ [a] ∧ a.eventId = eventID ∧ a.createdAt = now)) := by
  unfold queueRecommended at h
  split at h
  · rename_i action hobs hact
    obtain ⟨hevents, a, ha, hid, hat⟩ := queueAction_made h
    exact ⟨hevents, .inr ⟨hobs, a, ha, hid, hat⟩⟩
  · cases h; exact ⟨rfl, .inl ⟨rfl, rfl⟩⟩

/-- **What the creation of an event does**: nothing where there is one with its key. -/
theorem createRiskEvent_cases
    (h : createRiskEvent newID env instanceID sessionID o alarm now p = .ok p') :
    ((∃ x ∈ p.events, x.dedupeKey = alarm.key instanceID o now) ∧ p' = p) ∨
      ∃ e, Made instanceID o alarm now p p' e := by
  unfold createRiskEvent at h
  dsimp only at h
  split at h
  · rename_i hany
    cases h
    obtain ⟨x, hx, hkey⟩ := List.any_eq_true.1 hany
    exact .inl ⟨⟨x, hx, of_decide_eq_true hkey⟩, rfl⟩
  · rename_i hnone
    obtain ⟨reason, -, h⟩ := except_bind_ok h
    split at h
    · cases h
    · rename_i hbad
      obtain ⟨q, hq, h⟩ := except_bind_ok h
      have hsame := queueRiskNotifications_undetected h
      simp only [Bool.or_eq_true, not_or] at hbad
      refine .inr ⟨newEvent (newID p.next) instanceID sessionID o alarm reason now, {
        watch := rfl
        key := rfl
        created := rfl
        observed := rfl
        freshKey := fun x hx e => hnone (List.any_eq_true.2 ⟨x, hx, decide_eq_true e⟩)
        freshID := fun x hx e => hbad.2 (List.any_eq_true.2 ⟨x, hx, decide_eq_true e⟩)
        events := ?_
        actions := ?_ }⟩
      · rw [hsame.events, (queueRecommended_made hq).1]
      · rw [hsame.actions, hsame.tasks]
        exact (queueRecommended_made hq).2

/-! ## A session -/

theorem upsertSession_undetected (session : PlaybackSession) (p : Playback) :
    Undetected p (upsertSession session p).2 := by
  unfold upsertSession
  dsimp only
  split <;> exact ⟨rfl, rfl, rfl⟩

theorem upsertHistory_undetected (row : PlaybackHistory) (o : PlaybackObservation) (p : Playback) :
    Undetected p (upsertHistory row o p) := by
  unfold upsertHistory
  split <;> exact ⟨rfl, rfl, rfl⟩

theorem endPrevious_undetected (instanceID : UUID) (o : PlaybackObservation) (now : Time)
    (p : Playback) : Undetected p (endPrevious instanceID o now p) := by
  unfold endPrevious
  split <;> exact ⟨rfl, rfl, rfl⟩

theorem ingestPlayback_undetected {r : UUID × Playback}
    (h : ingestPlayback newID instanceID o now p = .ok r) : Undetected p r.2 := by
  obtain ⟨sid, -, h⟩ := except_bind_ok h
  obtain ⟨key, -, h⟩ := except_bind_ok h
  split at h
  · cases h
  · obtain rfl := Except.ok.inj h
    have hrows : ∀ session row, Undetected p
        (upsertHistory row o (upsertSession session (endPrevious instanceID o now p)).2) :=
      fun session row => ((endPrevious_undetected instanceID o now p).trans
        (upsertSession_undetected session _)).trans (upsertHistory_undetected row o _)
    exact ⟨(hrows _ _).events, (hrows _ _).actions, (hrows _ _).tasks⟩

theorem closeSnapshot_undetected {seen : List String}
    (h : closeSnapshot env instanceID seen now p = .ok p') : Undetected p p' := by
  unfold closeSnapshot at h
  dsimp only at h
  split at h
  · cases h
  · cases h; exact ⟨rfl, rfl, rfl⟩

/-- What a list of alarms does, one after the other. -/
inductive Detects (instanceID : UUID) (o : PlaybackObservation) (now : Time) :
    List Alarm → Playback → Playback → Prop where
  | nil {p p' : Playback} (same : Undetected p p') : Detects instanceID o now [] p p'
  | known {alarm : Alarm} {as : List Alarm} {p p' : Playback}
      (found : ∃ x ∈ p.events, x.dedupeKey = alarm.key instanceID o now)
      (rest : Detects instanceID o now as p p') : Detects instanceID o now (alarm :: as) p p'
  | made {alarm : Alarm} {as : List Alarm} {p q p' : Playback} {e : DetectedEvent}
      (made : Made instanceID o alarm now p q e)
      (rest : Detects instanceID o now as q p') : Detects instanceID o now (alarm :: as) p p'

/-- What comes before the alarms matters to none of them. -/
theorem Detects.after {as : List Alarm} {q : Playback} (hsame : Undetected p q)
    (h : Detects instanceID o now as q p') : Detects instanceID o now as p p' := by
  induction h generalizing p with
  | nil same => exact .nil (hsame.trans same)
  | known found _ ih => exact .known (hsame.events ▸ found) (ih hsame)
  | made hmade rest _ =>
    exact .made { hmade with
      freshKey := hsame.events ▸ hmade.freshKey
      freshID := hsame.events ▸ hmade.freshID
      events := hsame.events ▸ hmade.events
      actions := hsame.actions ▸ hsame.tasks ▸ hmade.actions } rest

/-- The events that alarms make. -/
theorem Detects.events {as : List Alarm} (h : Detects instanceID o now as p p') :
    ∃ new, p'.events = p.events ++ new ∧ ∀ e ∈ new, ∃ a ∈ as, e.watch = a.watch instanceID o ∧
      e.dedupeKey = a.key instanceID o now ∧ e.createdAt = now ∧
      e.observationMode = a.observationOnly := by
  induction h with
  | nil same => exact ⟨[], by rw [same.events, List.append_nil], nofun⟩
  | known _ _ ih =>
    obtain ⟨new, hevents, hnew⟩ := ih
    refine ⟨new, hevents, fun e he => ?_⟩
    obtain ⟨a, ha, hrest⟩ := hnew e he
    exact ⟨a, List.mem_cons_of_mem _ ha, hrest⟩
  | @made alarm as p q p' e hmade _ ih =>
    obtain ⟨new, hevents, hnew⟩ := ih
    refine ⟨e :: new, by rw [hevents, hmade.events, List.append_assoc]; rfl, fun x hx => ?_⟩
    rcases List.mem_cons.1 hx with rfl | hx
    · exact ⟨alarm, List.mem_cons_self, hmade.watch, hmade.key, hmade.created, hmade.observed⟩
    · obtain ⟨a, ha, hrest⟩ := hnew x hx
      exact ⟨a, List.mem_cons_of_mem _ ha, hrest⟩

/-- There is an event for every alarm. -/
theorem Detects.keys {as : List Alarm} (h : Detects instanceID o now as p p') :
    ∀ a ∈ as, ∃ e ∈ p'.events, e.dedupeKey = a.key instanceID o now := by
  induction h with
  | nil => exact nofun
  | known found rest ih =>
    obtain ⟨new, hevents, -⟩ := rest.events
    obtain ⟨x, hx, hkey⟩ := found
    rintro a (_ | ⟨_, ha⟩)
    · exact ⟨x, hevents ▸ List.mem_append_left _ hx, hkey⟩
    · exact ih a ha
  | @made alarm as p q p' e hmade rest ih =>
    obtain ⟨new, hevents, -⟩ := rest.events
    rintro a (_ | ⟨_, ha⟩)
    · refine ⟨e, ?_, hmade.key⟩
      rw [hevents, hmade.events]
      exact List.mem_append_left _ (List.mem_append_right _ (List.mem_singleton.2 rfl))
    · exact ih a ha

/-- The event of an alarm was there before, or it is about what the alarm is about. -/
theorem Detects.event {as : List Alarm} (h : Detects instanceID o now as p p') {a : Alarm}
    (ha : a ∈ as) : ∃ e ∈ p'.events, e.dedupeKey = a.key instanceID o now ∧
      (e ∈ p.events ∨ (e.watch = a.watch instanceID o ∧ e.createdAt = now)) := by
  obtain ⟨e, he, hkey⟩ := h.keys a ha
  refine ⟨e, he, hkey, ?_⟩
  obtain ⟨new, hevents, hnew⟩ := h.events
  rw [hevents] at he
  refine (List.mem_append.1 he).imp_right fun he => ?_
  obtain ⟨b, -, hwatch, hkey', hat, -⟩ := hnew e he
  exact ⟨hwatch.trans (Watch.dedupeKey_inj (hkey'.symm.trans hkey)).1, hat⟩

/-- Alarms that are only observed make no action. -/
theorem Detects.silent {as : List Alarm} (h : Detects instanceID o now as p p')
    (hsilent : ∀ a ∈ as, a.observationOnly = true) :
    p'.actions = p.actions ∧ p'.tasks = p.tasks := by
  induction h with
  | nil same => exact ⟨same.actions, same.tasks⟩
  | known _ _ ih => exact ih fun a ha => hsilent a (List.mem_cons_of_mem _ ha)
  | made hmade _ ih =>
    obtain ⟨hactions, htasks⟩ := ih fun a ha => hsilent a (List.mem_cons_of_mem _ ha)
    rcases hmade.actions with ⟨ha, ht⟩ | ⟨hloud, -⟩
    · exact ⟨hactions.trans ha, htasks.trans ht⟩
    · exact absurd (hsilent _ List.mem_cons_self) (by rw [hloud]; decide)

theorem createRiskEvents_detects {as : List Alarm}
    (h : as.foldlM (fun p alarm => createRiskEvent newID env instanceID sessionID o alarm now p) p =
      .ok p') : Detects instanceID o now as p p' := by
  refine foldlM_rel (R := Detects instanceID o now) (fun p => .nil (.refl p)) ?_ h
  intro alarm as p q p' hq hrest
  rcases createRiskEvent_cases hq with ⟨hfound, rfl⟩ | ⟨e, hmade⟩
  · exact .known hfound hrest
  · exact .made hmade hrest

section

variable (collate : String → String → Bool) (lower : Char → Char) (regexp : Regexp)

/-- The alarms of a session of a snapshot. -/
def sessionAlarms (env : Surroundings) (instanceID : UUID) (sessions : List EmbyPlaybackSession)
    (session : EmbyPlaybackSession) : List Alarm :=
  alarms lower regexp (listRiskRules collate (some instanceID) env.riskRules)
    (observe lower regexp env instanceID session) (concurrentOf sessions session.userID)

end

/-- **What a session of a snapshot does to the events and actions.** -/
theorem ingestSession_detects {sessions : List EmbyPlaybackSession} {session : EmbyPlaybackSession}
    (h : ingestSession collate lower regexp newID env instanceID sessions now session p = .ok p') :
    Detects instanceID (observe lower regexp env instanceID session) now
      (sessionAlarms collate lower regexp env instanceID sessions session) p p' := by
  obtain ⟨⟨sid, q⟩, hq, h⟩ := except_bind_ok h
  exact (createRiskEvents_detects h).after (ingestPlayback_undetected hq)

end

end Sakura.Risk
