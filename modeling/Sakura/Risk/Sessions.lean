/-
  Sessions and their history (platform/risk.go).

  A playback is open in the history as long as it is the playback of a session.

  * `Snapshot.ingestSessions`, `Snapshot.removes`: the loop of an ingestion, and the history that it
    keeps no longer;
  * `Consistent`: the invariant; `ingestPlayback_consistent`, `closeSnapshot_consistent`: what one
    observation and the end of a snapshot do to it;
  * `sessions_follow_snapshots`: sessions and open history in every run;
  * `maxima_grow`: what a history row records never gets less.
-/
import Sakura.Risk.Cooldown

namespace Sakura.Risk

open Queue Settings

/-! ## What a session is -/

/-- The row is of the playback of the session. -/
def PlaybackHistory.Of (h : PlaybackHistory) (s : PlaybackSession) : Prop :=
  h.instanceId = s.instanceId ∧ h.playbackKey = s.playbackKey

/-- The session has an open row. -/
def Opened (history : List PlaybackHistory) (s : PlaybackSession) : Prop :=
  ∃ h ∈ history, h.Of s ∧ h.endedAt = none

def EmbyPlaybackSession.playbackKey (session : EmbyPlaybackSession) : String :=
  (parsePlayback session).playbackKey

/-- A session whose identifier has no colon, and texts that are not too long for their columns. -/
structure EmbyPlaybackSession.Plain (session : EmbyPlaybackSession) : Prop where
  colon : ':' ∉ session.id.toList
  id : session.id.toList.length ≤ 160
  key : session.playbackKey.toList.length ≤ 360

/-- The history older than that is removed. -/
def Snapshot.horizon (l : Snapshot) : Time :=
  l.now - historyRetentionDays l.env.retentionDays * dayNanos

/-- The history when the sessions that are gone have been closed. -/
def Snapshot.ended (l : Snapshot) (p : Playback) : List PlaybackHistory :=
  let seen := l.sessions.map (·.id)
  let gone := fun s : PlaybackSession =>
    s.instanceId = l.instanceID && !seen.contains s.remoteSessionId
  let ended := fun h : PlaybackHistory => h.instanceId = l.instanceID &&
    (seen.isEmpty || p.sessions.any fun s => gone s && h.playbackKey = s.playbackKey)
  endHistory ended l.now p.history

section

variable (collate : String → String → Bool) (lower : Char → Char) (regexp : Regexp)
  (newID : Nat → UUID)

/-- The loop over the sessions. -/
def Snapshot.ingestSessions (l : Snapshot) (p : Playback) : Except Err Playback :=
  l.sessions.foldlM (fun p session =>
    ingestSession collate lower regexp newID l.env l.instanceID l.sessions l.now session p) p

/-- The rows that the ingestion removes. -/
def Snapshot.removes (l : Snapshot) (p : Playback) : List PlaybackHistory :=
  match l.ingestSessions collate lower regexp newID p with
  | .error _ => []
  | .ok q => (l.ended q).filter (·.startedAt < l.horizon)

/-- The rows that a run removes. -/
def removedBy : List Snapshot → Playback → List PlaybackHistory
  | [], _ => []
  | l :: ls, p => l.removes collate lower regexp newID p ++
    match l.ingest collate lower regexp newID p with
    | .error _ => []
    | .ok q => removedBy ls q

end

/-! ## The rows of one instance -/

/-- A change of rows that the filter does not take. -/
theorem filter_map_same {α : Type} {f : α → α} {keep : α → Bool} {l : List α}
    (hsame : ∀ x ∈ l, keep x = true → f x = x)
    (hother : ∀ x ∈ l, keep x = false → keep (f x) = false) :
    (l.map f).filter keep = l.filter keep := by
  induction l with
  | nil => rfl
  | cons x l ih =>
    have ih := ih (fun y hy => hsame y (List.mem_cons_of_mem _ hy))
      (fun y hy => hother y (List.mem_cons_of_mem _ hy))
    cases hk : keep x with
    | true =>
      rw [List.map_cons, hsame x List.mem_cons_self hk, List.filter_cons_of_pos hk,
        List.filter_cons_of_pos hk, ih]
    | false =>
      rw [List.map_cons, List.filter_cons_of_neg (by rw [hother x List.mem_cons_self hk]; decide),
        List.filter_cons_of_neg (by rw [hk]; decide), ih]

theorem mem_endHistory {p : PlaybackHistory → Bool} {now : Time} {history : List PlaybackHistory}
    {h : PlaybackHistory} : h ∈ endHistory p now history ↔
      ∃ g ∈ history, h = if p g && g.endedAt.isNone then { g with endedAt := some now } else g := by
  simp only [endHistory, List.mem_map, eq_comm]

/-- An open row has not been ended. -/
theorem open_of_endHistory {p : PlaybackHistory → Bool} {now : Time} {history : List PlaybackHistory}
    {h : PlaybackHistory} (hh : h ∈ endHistory p now history) (hopen : h.endedAt = none) :
    h ∈ history ∧ p h = false := by
  obtain ⟨g, hg, rfl⟩ := mem_endHistory.1 hh
  split at hopen
  · cases hopen
  · next hp =>
    rw [if_neg hp]
    rw [Bool.and_eq_true, not_and_or, hopen] at hp
    exact ⟨hg, by simpa using hp⟩

theorem endHistory_of_open {p : PlaybackHistory → Bool} {now : Time} {history : List PlaybackHistory}
    {h : PlaybackHistory} (hh : h ∈ history) (hp : p h = false) : h ∈ endHistory p now history :=
  mem_endHistory.2 ⟨h, hh, by rw [hp]; rfl⟩

theorem endHistory_filter {p keep : PlaybackHistory → Bool} {now : Time}
    {history : List PlaybackHistory} (hkeep : ∀ h t, keep { h with endedAt := t } = keep h)
    (hp : ∀ h, keep h = true → p h = false) :
    (endHistory p now history).filter keep = history.filter keep := by
  refine filter_map_same (fun h _ hk => by rw [hp h hk]; rfl) fun h _ hk => ?_
  split
  · rw [hkeep, hk]
  · exact hk

/-! ## The invariant -/

/-- A key of a session says which session it is of. -/
theorem playbackKey_inj {a b x y : String} (ha : ':' ∉ a.toList) (hb : ':' ∉ b.toList)
    (h : a ++ ":" ++ x = b ++ ":" ++ y) : a = b := by
  have hl := congrArg (List.reverse ∘ String.toList) h
  simp only [Function.comp_apply, String.toList_append, List.reverse_append, List.append_assoc] at hl
  have hcut := append_cons_inj (fun h => ha (List.mem_reverse.1 h))
    (fun h => hb (List.mem_reverse.1 h)) hl
  exact String.toList_inj.1 (List.reverse_inj.1 hcut.2)

/-- What holds of the sessions and of the history after every transaction. -/
structure Consistent (p : Playback) : Prop where
  keyed : ∀ s ∈ p.sessions, ':' ∉ s.remoteSessionId.toList ∧
    ∃ item, s.playbackKey = s.remoteSessionId ++ ":" ++ item
  unique : ∀ s ∈ p.sessions, ∀ s' ∈ p.sessions, s.instanceId = s'.instanceId →
    s.remoteSessionId = s'.remoteSessionId → s = s'
  watched : ∀ h ∈ p.history, h.endedAt = none → ∃ s ∈ p.sessions, h.Of s

/-- No two sessions of an instance have one key. -/
theorem Consistent.eq_of_key {p : Playback} (hp : Consistent p) {s s' : PlaybackSession}
    (hs : s ∈ p.sessions) (hs' : s' ∈ p.sessions) (hinst : s.instanceId = s'.instanceId)
    (hkey : s.playbackKey = s'.playbackKey) : s = s' := by
  obtain ⟨hcolon, item, hitem⟩ := hp.keyed s hs
  obtain ⟨hcolon', item', hitem'⟩ := hp.keyed s' hs'
  rw [hitem, hitem'] at hkey
  exact hp.unique s hs s' hs' hinst (playbackKey_inj hcolon hcolon' hkey)

section

variable {newID : Nat → UUID} {instanceID : UUID} {o : PlaybackObservation} {now : Time}
  {p p' : Playback}

/-! ## One observation -/

theorem endPrevious_sessions : (endPrevious instanceID o now p).sessions = p.sessions := by
  unfold endPrevious
  split <;> rfl

/-- What is still open is not of another playback of the session. -/
theorem open_of_endPrevious (hp : Consistent p) {h : PlaybackHistory}
    (hh : h ∈ (endPrevious instanceID o now p).history) (hopen : h.endedAt = none) :
    h ∈ p.history ∧ ∀ s ∈ p.sessions, s.instanceId = instanceID → s.remoteSessionId = o.session.id →
      h.Of s → h.playbackKey = o.playbackKey := by
  unfold endPrevious at hh
  split at hh
  · next hnone =>
    refine ⟨hh, fun s hs hinst hid _ => ?_⟩
    have := List.find?_eq_none.1 hnone s hs
    simp [hinst, hid] at this
  · next old hold =>
    obtain ⟨hmem, hended⟩ := open_of_endHistory hh hopen
    refine ⟨hmem, fun s hs hinst hid hof => ?_⟩
    have hold' := List.find?_some hold
    simp only [Bool.and_eq_true, decide_eq_true_eq] at hold'
    obtain rfl := hp.unique s hs old (List.mem_of_find?_eq_some hold) (hinst.trans hold'.1.symm)
      (hid.trans hold'.2.symm)
    by_contra hne
    simp [hof.1, hof.2, hinst] at hended
    exact hne (hof.2.trans hended)

/-- The playbacks of the other sessions stay open. -/
theorem endPrevious_opened (hp : Consistent p) {s : PlaybackSession} (hs : s ∈ p.sessions)
    (hother : ¬(s.instanceId = instanceID ∧ s.remoteSessionId = o.session.id))
    (hopen : Opened p.history s) : Opened (endPrevious instanceID o now p).history s := by
  obtain ⟨h, hh, hof, hnone⟩ := hopen
  refine ⟨h, ?_, hof, hnone⟩
  unfold endPrevious
  split
  · exact hh
  · next old hold =>
    have hold' := List.find?_some hold
    simp only [Bool.and_eq_true, decide_eq_true_eq] at hold'
    refine endHistory_of_open hh (Bool.eq_false_iff.2 fun hp' => hother ?_)
    simp only [Bool.and_eq_true, decide_eq_true_eq] at hp'
    obtain rfl := hp.eq_of_key hs (List.mem_of_find?_eq_some hold)
      (hof.1.symm.trans (hp'.1.1.trans hold'.1.symm)) (hof.2.symm.trans hp'.1.2)
    exact hold'

theorem upsertSession_history (session : PlaybackSession) (p : Playback) :
    (upsertSession session p).2.history = p.history := by
  unfold upsertSession
  dsimp only
  split <;> rfl

/-- The sessions when one is renewed. -/
theorem mem_upsertSession {session s : PlaybackSession} :
    s ∈ (upsertSession session p).2.sessions ↔
      (s ∈ p.sessions ∧ ¬(s.instanceId = session.instanceId ∧
        s.remoteSessionId = session.remoteSessionId)) ∨
      s = { session with id := s.id } ∧ ((∃ old ∈ p.sessions, old.instanceId = session.instanceId ∧
        old.remoteSessionId = session.remoteSessionId ∧ s.id = old.id) ∨
        s.id = session.id ∧ ∀ old ∈ p.sessions, old.instanceId = session.instanceId →
          old.remoteSessionId ≠ session.remoteSessionId) := by
  unfold upsertSession
  dsimp only
  split
  · next old hold =>
    have hold' := List.find?_some hold
    simp only [Bool.and_eq_true, decide_eq_true_eq] at hold'
    simp only [List.mem_map]
    constructor
    · rintro ⟨x, hx, rfl⟩
      split
      · next hsame =>
        simp only [Bool.and_eq_true, decide_eq_true_eq] at hsame
        exact Or.inr ⟨rfl, Or.inl ⟨x, hx, hsame.1, hsame.2, rfl⟩⟩
      · next hsame =>
        simp only [Bool.and_eq_true, decide_eq_true_eq] at hsame
        exact Or.inl ⟨hx, hsame⟩
    · rintro (⟨hs, hne⟩ | ⟨hs, ⟨x, hx, hinst, hid, hxid⟩ | ⟨_, hnone⟩⟩)
      · exact ⟨s, hs, if_neg (by simpa using hne)⟩
      · refine ⟨x, hx, ?_⟩
        rw [if_pos (by simp [hinst, hid]), ← hxid]
        exact hs.symm
      · exact absurd hold'.2 (hnone old (List.mem_of_find?_eq_some hold) hold'.1)
  · next hnone =>
    have hno : ∀ old ∈ p.sessions, old.instanceId = session.instanceId →
        old.remoteSessionId ≠ session.remoteSessionId := by
      intro old hold hinst hid
      have := List.find?_eq_none.1 hnone old hold
      simp [hinst, hid] at this
    rw [List.mem_append, List.mem_singleton]
    constructor
    · rintro (hs | rfl)
      · exact Or.inl ⟨hs, fun hsame => hno s hs hsame.1 hsame.2⟩
      · exact Or.inr ⟨rfl, Or.inr ⟨rfl, hno⟩⟩
    · rintro (⟨hs, -⟩ | ⟨hs, ⟨x, hx, hinst, hid, -⟩ | ⟨hid, -⟩⟩)
      · exact Or.inl hs
      · exact absurd hid (hno x hx hinst)
      · rw [hid] at hs
        exact Or.inr hs

theorem upsertHistory_sessions (row : PlaybackHistory) (o : PlaybackObservation) (p : Playback) :
    (upsertHistory row o p).sessions = p.sessions := by
  unfold upsertHistory
  split <;> rfl

variable {row : PlaybackHistory}

/-- The playback is open in the end. -/
theorem upsertHistory_opens (hkey : row.playbackKey = o.playbackKey) (hrow : row.endedAt = none) :
    ∃ h ∈ (upsertHistory row o p).history, h.instanceId = row.instanceId ∧
      h.playbackKey = o.playbackKey ∧ h.endedAt = none := by
  unfold upsertHistory
  split
  · next hany =>
    obtain ⟨h, hh, hsame⟩ := List.any_eq_true.1 hany
    simp only [Bool.and_eq_true, decide_eq_true_eq] at hsame
    refine ⟨_, List.mem_map_of_mem hh, ?_⟩
    rw [if_pos ⟨hsame.1, hsame.2.trans hkey⟩]
    exact ⟨hsame.1, hsame.2.trans hkey, rfl⟩
  · exact ⟨row, List.mem_append_right _ (List.mem_singleton.2 rfl), rfl, hkey, hrow⟩

/-- No other playback is opened. -/
theorem open_of_upsertHistory (hkey : row.playbackKey = o.playbackKey) {h : PlaybackHistory}
    (hh : h ∈ (upsertHistory row o p).history) :
    (h.instanceId = row.instanceId ∧ h.playbackKey = o.playbackKey) ∨ h ∈ p.history := by
  unfold upsertHistory at hh
  split at hh
  · obtain ⟨g, hg, rfl⟩ := List.mem_map.1 hh
    split
    · next hsame => exact Or.inl hsame
    · exact Or.inr hg
  · rcases List.mem_append.1 hh with hh | hh
    · exact Or.inr hh
    · obtain rfl := List.mem_singleton.1 hh
      exact Or.inl ⟨rfl, hkey⟩

theorem upsertHistory_keeps {h : PlaybackHistory} (hh : h ∈ p.history)
    (hother : ¬(h.instanceId = row.instanceId ∧ h.playbackKey = o.playbackKey)) :
    h ∈ (upsertHistory row o p).history := by
  unfold upsertHistory
  split
  · exact List.mem_map.2 ⟨h, hh, if_neg hother⟩
  · exact List.mem_append_left _ hh

theorem upsertHistory_opened (hkey : row.playbackKey = o.playbackKey) (hrow : row.endedAt = none)
    {s : PlaybackSession} (hopen : Opened p.history s) : Opened (upsertHistory row o p).history s := by
  obtain ⟨h, hh, hof, hnone⟩ := hopen
  by_cases hsame : h.instanceId = row.instanceId ∧ h.playbackKey = o.playbackKey
  · obtain ⟨g, hg, hinst, hgkey, hgnone⟩ := upsertHistory_opens (p := p) hkey hrow
    have hof' : g.Of s :=
      ⟨hinst.trans (hsame.1.symm.trans hof.1), hgkey.trans (hsame.2.symm.trans hof.2)⟩
    exact ⟨g, hg, hof', hgnone⟩
  · exact ⟨h, upsertHistory_keeps hh hsame, hof, hnone⟩

/-- What an observation does to the sessions and to what is open in the history. -/
structure Ingested (instanceID : UUID) (o : PlaybackObservation) (p p' : Playback) : Prop where
  consistent : Consistent p'
  session : ∃ s ∈ p'.sessions, s.instanceId = instanceID ∧ s.remoteSessionId = o.session.id ∧
    Opened p'.history s
  key : ∀ s ∈ p'.sessions, s.instanceId = instanceID → s.remoteSessionId = o.session.id →
    s.playbackKey = o.playbackKey
  others : ∀ s, ¬(s.instanceId = instanceID ∧ s.remoteSessionId = o.session.id) →
    (s ∈ p'.sessions ↔ s ∈ p.sessions)
  kept : ∀ s ∈ p.sessions, ¬(s.instanceId = instanceID ∧ s.remoteSessionId = o.session.id) →
    Opened p.history s → Opened p'.history s

/-- A column keeps a text that is not too long, if it accepts it. -/
theorem varchar_of_length {n : Nat} {x y : String} (hlength : x.toList.length ≤ n)
    (h : varchar n x = .ok y) : y = x := by
  by_cases hnul : '\x00' ∈ x.toList
  · rw [varchar_of_nul hnul] at h
    cases h
  · rw [varchar_of_fits ⟨hlength, hnul⟩] at h
    exact (Except.ok.inj h).symm

/-- The rows of a playback that an observation leads to. -/
theorem ingestPlayback_rows {r : UUID × Playback} (hid : o.session.id.toList.length ≤ 160)
    (hkey : o.playbackKey.toList.length ≤ 360) (h : ingestPlayback newID instanceID o now p = .ok r) :
    ∃ session row, session.instanceId = instanceID ∧ session.remoteSessionId = o.session.id ∧
      session.playbackKey = o.playbackKey ∧ row.instanceId = instanceID ∧
      row.playbackKey = o.playbackKey ∧ row.endedAt = none ∧
      r.2.sessions = (upsertSession session (endPrevious instanceID o now p)).2.sessions ∧
      r.2.history = (upsertHistory row o
        (upsertSession session (endPrevious instanceID o now p)).2).history := by
  obtain ⟨id, hid', h⟩ := except_bind_ok h
  obtain ⟨key, hkey', h⟩ := except_bind_ok h
  obtain rfl := varchar_of_length hid hid'
  obtain rfl := varchar_of_length hkey hkey'
  split at h
  · cases h
  · obtain rfl := Except.ok.inj h
    refine ⟨_, _, rfl, rfl, rfl, ?_, ?_, ?_, upsertHistory_sessions _ _ _, rfl⟩ <;> rfl

/-- **One observation** keeps the invariant, opens its playback and leaves the other sessions. -/
theorem ingestPlayback_ingested {r : UUID × Playback} (hp : Consistent p)
    (hcolon : ':' ∉ o.session.id.toList) (hid : o.session.id.toList.length ≤ 160)
    (hkey : o.playbackKey.toList.length ≤ 360)
    (hkeyed : o.playbackKey = o.session.id ++ ":" ++ o.itemID)
    (h : ingestPlayback newID instanceID o now p = .ok r) : Ingested instanceID o p r.2 := by
  obtain ⟨session, row, hinst, hsid, hskey, hrinst, hrkey, hrow, hsessions, hhistory⟩ :=
    ingestPlayback_rows hid hkey h
  have hmem : ∀ s, s ∈ r.2.sessions ↔
      (s ∈ p.sessions ∧ ¬(s.instanceId = instanceID ∧ s.remoteSessionId = o.session.id)) ∨
      s = { session with id := s.id } ∧ ((∃ old ∈ p.sessions, old.instanceId = instanceID ∧
        old.remoteSessionId = o.session.id ∧ s.id = old.id) ∨
        s.id = session.id ∧ ∀ old ∈ p.sessions, old.instanceId = instanceID →
          old.remoteSessionId ≠ o.session.id) := by
    intro s
    rw [← hinst, ← hsid, hsessions, mem_upsertSession, endPrevious_sessions]
  -- the session of the observation, whether it is new or not
  obtain ⟨new, hnew, hninst, hnid, hnkey⟩ : ∃ s ∈ r.2.sessions, s.instanceId = instanceID ∧
      s.remoteSessionId = o.session.id ∧ s.playbackKey = o.playbackKey := by
    by_cases hold : ∃ old ∈ p.sessions, old.instanceId = instanceID ∧
        old.remoteSessionId = o.session.id
    · obtain ⟨old, hold, holdi, holdid⟩ := hold
      exact ⟨{ session with id := old.id },
        (hmem _).2 (Or.inr ⟨rfl, Or.inl ⟨old, hold, holdi, holdid, rfl⟩⟩), hinst, hsid, hskey⟩
    · exact ⟨session, (hmem _).2 (Or.inr ⟨rfl, Or.inr ⟨rfl, fun old ho hi hd =>
        hold ⟨old, ho, hi, hd⟩⟩⟩), hinst, hsid, hskey⟩
  have hkeys : ∀ s ∈ r.2.sessions, s.instanceId = instanceID → s.remoteSessionId = o.session.id →
      s.playbackKey = o.playbackKey := by
    intro s hs hi hd
    rcases (hmem s).1 hs with ⟨-, hne⟩ | ⟨hs, -⟩
    · exact absurd ⟨hi, hd⟩ hne
    · rw [hs]
      exact hskey
  have hothers : ∀ s, ¬(s.instanceId = instanceID ∧ s.remoteSessionId = o.session.id) →
      (s ∈ r.2.sessions ↔ s ∈ p.sessions) := by
    intro s hne
    rw [hmem]
    refine ⟨?_, fun hs => Or.inl ⟨hs, hne⟩⟩
    rintro (⟨hs, -⟩ | ⟨hs, -⟩)
    · exact hs
    · exact absurd (by rw [hs]; exact ⟨hinst, hsid⟩) hne
  have hopened : ∀ s, Opened (endPrevious instanceID o now p).history s → Opened r.2.history s := by
    intro s hs
    rw [hhistory]
    refine upsertHistory_opened hrkey hrow ?_
    rwa [upsertSession_history]
  refine ⟨⟨?_, ?_, ?_⟩, ?_, hkeys, hothers, ?_⟩
  · intro s hs
    by_cases hsame : s.instanceId = instanceID ∧ s.remoteSessionId = o.session.id
    · rw [hkeys s hs hsame.1 hsame.2, hsame.2]
      exact ⟨hcolon, o.itemID, hkeyed⟩
    · exact hp.keyed s ((hothers s hsame).1 hs)
  · intro s hs s' hs' hi hd
    by_cases hsame : s.instanceId = instanceID ∧ s.remoteSessionId = o.session.id
    · have hsame' : s'.instanceId = instanceID ∧ s'.remoteSessionId = o.session.id := by
        rw [← hi, ← hd]
        exact hsame
      rcases (hmem s).1 hs with ⟨-, hne⟩ | ⟨hseq, hor⟩
      · exact absurd hsame hne
      rcases (hmem s').1 hs' with ⟨-, hne⟩ | ⟨hseq', hor'⟩
      · exact absurd hsame' hne
      rw [hseq, hseq']
      congr 1
      rcases hor with ⟨old, hold, holdi, holdid, he⟩ | ⟨he, hnone⟩ <;>
        rcases hor' with ⟨old', hold', holdi', holdid', he'⟩ | ⟨he', hnone'⟩
      · rw [he, he', hp.unique old hold old' hold' (holdi.trans holdi'.symm)
          (holdid.trans holdid'.symm)]
      · exact absurd holdid (hnone' old hold holdi)
      · exact absurd holdid' (hnone old' hold' holdi')
      · rw [he, he']
    · refine hp.unique s ((hothers s hsame).1 hs) s' ((hothers s' ?_).1 hs') hi hd
      rw [← hi, ← hd]
      exact hsame
  · intro h hh hopen
    rw [hhistory] at hh
    rcases open_of_upsertHistory hrkey hh with ⟨hi, hk⟩ | hh
    · exact ⟨new, hnew, hi.trans (hrinst.trans hninst.symm), hk.trans hnkey.symm⟩
    · rw [upsertSession_history] at hh
      obtain ⟨hh, hsame⟩ := open_of_endPrevious hp hh hopen
      obtain ⟨s, hs, hof⟩ := hp.watched h hh hopen
      by_cases hown : s.instanceId = instanceID ∧ s.remoteSessionId = o.session.id
      · exact ⟨new, hnew, hof.1.trans (hown.1.trans hninst.symm),
          (hsame s hs hown.1 hown.2 hof).trans hnkey.symm⟩
      · exact ⟨s, (hothers s hown).2 hs, hof⟩
  · refine ⟨new, hnew, hninst, hnid, ?_⟩
    rw [hhistory]
    obtain ⟨h, hh, hi, hk, hnone⟩ := upsertHistory_opens (o := o)
      (p := (upsertSession session (endPrevious instanceID o now p)).2) hrkey hrow
    exact ⟨h, hh, ⟨hi.trans (hrinst.trans hninst.symm), hk.trans hnkey.symm⟩, hnone⟩
  · exact fun s hs hne hopen => hopened s (endPrevious_opened hp hs hne hopen)

/-! ## One snapshot -/

variable {env : Surroundings}

/-- An event does not change the sessions and the history. -/
structure Unwatched (p p' : Playback) : Prop where
  sessions : p'.sessions = p.sessions
  history : p'.history = p.history
  next : p.next ≤ p'.next

theorem Unwatched.refl (p : Playback) : Unwatched p p := ⟨rfl, rfl, Nat.le_refl _⟩

theorem Unwatched.trans {q : Playback} (h : Unwatched p q) (h' : Unwatched q p') : Unwatched p p' :=
  ⟨h'.sessions.trans h.sessions, h'.history.trans h.history, Nat.le_trans h.next h'.next⟩

theorem Unwatched.consistent (h : Unwatched p p') (hp : Consistent p) : Consistent p' := by
  obtain ⟨hkeyed, hunique, hwatched⟩ := hp
  rw [← h.sessions] at hkeyed hunique hwatched
  rw [← h.history] at hwatched
  exact ⟨hkeyed, hunique, hwatched⟩

theorem queueRecommended_unwatched {eventID : UUID} {alarm : Alarm}
    (h : queueRecommended newID instanceID eventID o alarm now p = .ok p') : Unwatched p p' := by
  unfold queueRecommended at h
  split at h
  · obtain ⟨tasks, -, h⟩ := except_bind_ok h
    split at h
    · cases h
    · cases h
      exact ⟨rfl, rfl, Nat.le_add_right _ _⟩
  · cases h
    exact .refl p

theorem queueRiskNotifications_unwatched {eventID : UUID} {affected : Option UUID} {alarm : Alarm}
    (h : queueRiskNotifications env eventID affected alarm p = .ok p') : Unwatched p p' := by
  obtain ⟨ids, -, h⟩ := except_bind_ok h
  cases h
  exact ⟨rfl, rfl, Nat.le_refl _⟩

theorem createRiskEvent_unwatched {sessionID : UUID} {alarm : Alarm}
    (h : createRiskEvent newID env instanceID sessionID o alarm now p = .ok p') : Unwatched p p' := by
  unfold createRiskEvent at h
  dsimp only at h
  split at h
  · cases h
    exact .refl p
  · obtain ⟨reason, -, h⟩ := except_bind_ok h
    split at h
    · cases h
    · obtain ⟨q, hq, h⟩ := except_bind_ok h
      have hq := queueRecommended_unwatched hq
      have hmade : Unwatched p q := ⟨hq.sessions, hq.history, Nat.le_trans (Nat.le_succ _) hq.next⟩
      exact hmade.trans (queueRiskNotifications_unwatched h)

variable {collate : String → String → Bool} {lower : Char → Char} {regexp : Regexp}
  {sessions : List EmbyPlaybackSession} {session : EmbyPlaybackSession}

/-- The observation of a session is recorded, and events do not change that. -/
theorem ingestSession_recorded
    (h : ingestSession collate lower regexp newID env instanceID sessions now session p = .ok p') :
    ∃ r, ingestPlayback newID instanceID (observe lower regexp env instanceID session) now p = .ok r ∧
      Unwatched r.2 p' := by
  obtain ⟨r, hr, h⟩ := except_bind_ok h
  refine ⟨r, hr, ?_⟩
  exact foldlM_rel (R := fun _ => Unwatched) (fun p => .refl p)
    (fun alarm _ p q _ hq hrest => (createRiskEvent_unwatched hq).trans hrest) h

/-- What each turn of a loop adds to what is done. -/
theorem foldlM_done {α β ε : Type} {f : β → α → Except ε β} {P : α → Prop} {I : List α → β → Prop}
    (turn : ∀ done a b b', P a → I done b → f b a = .ok b' → I (done ++ [a]) b') :
    ∀ {rest done : List α} {b b' : β}, (∀ a ∈ rest, P a) → I done b → rest.foldlM f b = .ok b' →
      I (done ++ rest) b'
  | [], done, b, b', _, hI, h => by
    cases h
    rwa [List.append_nil]
  | a :: rest, done, b, b', hP, hI, h => by
    obtain ⟨m, ha, h⟩ := except_bind_ok h
    have hm := turn done a b m (hP a List.mem_cons_self) hI ha
    have := foldlM_done turn (fun x hx => hP x (List.mem_cons_of_mem _ hx)) hm h
    rwa [List.append_assoc, List.singleton_append] at this

/-- The last session of a list with the identifier has the key. -/
def LastKey (done : List EmbyPlaybackSession) (id key : String) : Prop :=
  ∃ pre x post, done = pre ++ x :: post ∧ x.id = id ∧ (∀ y ∈ post, y.id ≠ id) ∧ x.playbackKey = key

/-- The sessions of an instance when the first ones of a snapshot have been ingested. -/
structure Renewed (instanceID : UUID) (done : List EmbyPlaybackSession) (p : Playback) : Prop where
  consistent : Consistent p
  present : ∀ x ∈ done, ∃ s ∈ p.sessions, s.instanceId = instanceID ∧ s.remoteSessionId = x.id
  opened : ∀ s ∈ p.sessions, s.instanceId = instanceID → (∃ x ∈ done, x.id = s.remoteSessionId) →
    Opened p.history s ∧ LastKey done s.remoteSessionId s.playbackKey

theorem Renewed.unwatched {done : List EmbyPlaybackSession} (h : Renewed instanceID done p)
    (hsame : Unwatched p p') : Renewed instanceID done p' := by
  obtain ⟨hconsistent, hpresent, hopened⟩ := h
  rw [← hsame.sessions] at hpresent hopened
  rw [← hsame.history] at hopened
  exact ⟨hsame.consistent hconsistent, hpresent, hopened⟩

theorem observe_key : (observe lower regexp env instanceID session).playbackKey =
    session.id ++ ":" ++ (observe lower regexp env instanceID session).itemID := rfl

theorem observe_playbackKey :
    (observe lower regexp env instanceID session).playbackKey = session.playbackKey := rfl

/-- One turn of the loop. -/
theorem Renewed.turn {done : List EmbyPlaybackSession} (hplain : session.Plain)
    (hp : Renewed instanceID done p)
    (h : ingestSession collate lower regexp newID env instanceID sessions now session p = .ok p') :
    Renewed instanceID (done ++ [session]) p' := by
  obtain ⟨r, hr, hsame⟩ := ingestSession_recorded h
  have hi : Ingested instanceID (observe lower regexp env instanceID session) p r.2 :=
    ingestPlayback_ingested hp.consistent hplain.colon hplain.id
      (by rw [observe_playbackKey]; exact hplain.key) observe_key hr
  refine Renewed.unwatched ⟨hi.consistent, ?_, ?_⟩ hsame
  · intro x hx
    by_cases hown : x.id = session.id
    · obtain ⟨s, hs, hinst, hid, -⟩ := hi.session
      exact ⟨s, hs, hinst, hid.trans hown.symm⟩
    · rcases List.mem_append.1 hx with hx | hx
      · obtain ⟨s, hs, hinst, hid⟩ := hp.present x hx
        exact ⟨s, (hi.others s fun hsame => hown (hid.symm.trans hsame.2)).2 hs, hinst, hid⟩
      · exact absurd (congrArg EmbyPlaybackSession.id (List.mem_singleton.1 hx)) hown
  · intro s hs hinst ⟨x, hx, hxid⟩
    by_cases hown : s.remoteSessionId = session.id
    · obtain ⟨s', hs', hinst', hid', hopen⟩ := hi.session
      obtain rfl := hi.consistent.unique s hs s' hs' (hinst.trans hinst'.symm) (hown.trans hid'.symm)
      exact ⟨hopen, done, session, [], rfl, hown.symm, nofun, (hi.key s hs hinst hown).symm⟩
    · have hne : ¬(s.instanceId = instanceID ∧ s.remoteSessionId = session.id) := fun h => hown h.2
      have hs := (hi.others s hne).1 hs
      have hx : x ∈ done := by
        rcases List.mem_append.1 hx with hx | hx
        · exact hx
        · rw [List.mem_singleton.1 hx] at hxid
          exact absurd hxid.symm hown
      obtain ⟨hopen, pre, y, post, hsplit, hyid, hpost, hkey⟩ := hp.opened s hs hinst ⟨x, hx, hxid⟩
      refine ⟨hi.kept s hs hne hopen, pre, y, post ++ [session], ?_, hyid, ?_, hkey⟩
      · rw [hsplit, List.append_assoc, List.cons_append]
      · intro z hz
        rcases List.mem_append.1 hz with hz | hz
        · exact hpost z hz
        · rw [List.mem_singleton.1 hz]
          exact Ne.symm hown

variable {l : Snapshot}

theorem ingest_parts (h : l.ingest collate lower regexp newID p = .ok p') :
    ∃ q, l.ingestSessions collate lower regexp newID p = .ok q ∧
      p'.sessions = q.sessions.filter (fun s =>
        !(s.instanceId = l.instanceID && !(l.sessions.map (·.id)).contains s.remoteSessionId)) ∧
      p'.history = (l.ended q).filter (fun h => !decide (h.startedAt < l.horizon)) ∧
      p'.next = q.next := by
  obtain ⟨q, hq, h⟩ := except_bind_ok h
  refine ⟨q, hq, ?_⟩
  unfold closeSnapshot at h
  dsimp only at h
  split at h
  · cases h
  · cases h
    exact ⟨rfl, rfl, rfl⟩

theorem removes_of_ok {q : Playback} (h : l.ingestSessions collate lower regexp newID p = .ok q) :
    l.removes collate lower regexp newID p = (l.ended q).filter (·.startedAt < l.horizon) := by
  unfold Snapshot.removes
  rw [h]

/-- The sessions of the last snapshot of an instance, and the history. -/
structure Follows (l : Snapshot) (removed : List PlaybackHistory) (p : Playback) : Prop where
  ids : ∀ id, (∃ s ∈ p.sessions, s.instanceId = l.instanceID ∧ s.remoteSessionId = id) ↔
    ∃ x ∈ l.sessions, x.id = id
  opened : ∀ s ∈ p.sessions, s.instanceId = l.instanceID →
    LastKey l.sessions s.remoteSessionId s.playbackKey ∧
      ∃ h ∈ p.history ++ removed, h.Of s ∧ h.endedAt = none
  watched : ∀ h ∈ p.history, h.endedAt = none → ∃ s ∈ p.sessions, h.Of s

/-- **One snapshot.** -/
theorem ingest_follows (hp : Consistent p) (hplain : ∀ x ∈ l.sessions, x.Plain)
    (h : l.ingest collate lower regexp newID p = .ok p') :
    Consistent p' ∧ Follows l (l.removes collate lower regexp newID p) p' := by
  obtain ⟨q, hq, hsessions, hhistory, -⟩ := ingest_parts h
  have hr : Renewed l.instanceID ([] ++ l.sessions) q :=
    foldlM_done (P := EmbyPlaybackSession.Plain) (I := Renewed l.instanceID)
      (fun _ _ _ _ hx hI h => hI.turn hx h) hplain ⟨hp, nofun, nofun⟩ hq
  rw [List.nil_append] at hr
  have hmem : ∀ s, s ∈ p'.sessions ↔ s ∈ q.sessions ∧
      (s.instanceId = l.instanceID → ∃ x ∈ l.sessions, x.id = s.remoteSessionId) := by
    intro s
    rw [hsessions, List.mem_filter, imp_iff_not_or]
    simp
  have hwatched : ∀ h ∈ p'.history, h.endedAt = none → ∃ s ∈ p'.sessions, h.Of s := by
    intro h hh hopen
    rw [hhistory] at hh
    obtain ⟨hh, hended⟩ := open_of_endHistory (List.mem_of_mem_filter hh) hopen
    obtain ⟨s, hs, hof⟩ := hr.consistent.watched h hh hopen
    refine ⟨s, (hmem s).2 ⟨hs, fun hinst => ?_⟩, hof⟩
    by_contra hgone
    refine Bool.eq_false_iff.1 hended ?_
    rw [Bool.and_eq_true, Bool.or_eq_true, List.any_eq_true]
    refine ⟨decide_eq_true (hof.1.trans hinst), Or.inr ⟨s, hs, ?_⟩⟩
    simpa [hinst, hof.2] using hgone
  refine ⟨⟨fun s hs => hr.consistent.keyed s ((hmem s).1 hs).1,
    fun s hs s' hs' => hr.consistent.unique s ((hmem s).1 hs).1 s' ((hmem s').1 hs').1, hwatched⟩,
    ?_, ?_, hwatched⟩
  · intro id
    constructor
    · rintro ⟨s, hs, hinst, rfl⟩
      exact ((hmem s).1 hs).2 hinst
    · rintro ⟨x, hx, rfl⟩
      obtain ⟨s, hs, hinst, hid⟩ := hr.present x hx
      exact ⟨s, (hmem s).2 ⟨hs, fun _ => ⟨x, hx, hid.symm⟩⟩, hinst, hid⟩
  · intro s hs hinst
    obtain ⟨hs, hlisted⟩ := (hmem s).1 hs
    obtain ⟨x, hx, hxid⟩ := hlisted hinst
    obtain ⟨⟨h, hh, hof, hopen⟩, hlast⟩ := hr.opened s hs hinst ⟨x, hx, hxid⟩
    refine ⟨hlast, h, ?_, hof, hopen⟩
    have hended : h ∈ l.ended q := by
      refine endHistory_of_open hh (Bool.eq_false_iff.2 fun hp' => ?_)
      rw [Bool.and_eq_true, Bool.or_eq_true, List.any_eq_true] at hp'
      rcases hp'.2 with hempty | ⟨s', hs', hgone⟩
      · rw [List.isEmpty_iff, List.map_eq_nil_iff] at hempty
        rw [hempty] at hx
        cases hx
      · simp only [Bool.and_eq_true, decide_eq_true_eq, Bool.not_eq_true'] at hgone
        obtain rfl := hr.consistent.eq_of_key hs hs' (hinst.trans hgone.1.1.symm)
          (hof.2.symm.trans hgone.2)
        have hseen : (l.sessions.map (·.id)).contains s.remoteSessionId = true :=
          List.contains_iff_mem.2 (List.mem_map.2 ⟨x, hx, hxid⟩)
        rw [hseen] at hgone
        exact absurd hgone.1.2 (by decide)
    rw [hhistory, removes_of_ok hq, List.mem_append, List.mem_filter, List.mem_filter]
    by_cases hold : h.startedAt < l.horizon
    · exact Or.inr ⟨hended, decide_eq_true hold⟩
    · exact Or.inl ⟨hended, by rw [decide_eq_false hold]; rfl⟩

/-! ## The other instances -/

variable {inst : UUID}

/-- The sessions and the history of an instance are the same. -/
structure Alike (inst : UUID) (p p' : Playback) : Prop where
  sessions : p'.sessions.filter (·.instanceId = inst) = p.sessions.filter (·.instanceId = inst)
  history : p'.history.filter (·.instanceId = inst) = p.history.filter (·.instanceId = inst)

theorem Alike.refl (p : Playback) : Alike inst p p := ⟨rfl, rfl⟩

theorem Alike.trans {q : Playback} (h : Alike inst p q) (h' : Alike inst q p') : Alike inst p p' :=
  ⟨h'.sessions.trans h.sessions, h'.history.trans h.history⟩

theorem Unwatched.alike (h : Unwatched p p') : Alike inst p p' :=
  ⟨by rw [h.sessions], by rw [h.history]⟩

theorem endPrevious_alike (hne : instanceID ≠ inst) :
    Alike inst p (endPrevious instanceID o now p) := by
  refine ⟨by rw [endPrevious_sessions], ?_⟩
  unfold endPrevious
  split
  · rfl
  · refine endHistory_filter (fun _ _ => rfl) fun h hk => ?_
    rw [of_decide_eq_true hk, decide_eq_false hne.symm]
    rfl

theorem upsertSession_alike {session : PlaybackSession} (hne : session.instanceId ≠ inst) :
    Alike inst p (upsertSession session p).2 := by
  refine ⟨?_, by rw [upsertSession_history]⟩
  unfold upsertSession
  dsimp only
  split
  · refine filter_map_same (fun s _ hk => if_neg ?_) fun s _ hk => ?_
    · rw [of_decide_eq_true hk, decide_eq_false hne.symm]
      exact Bool.false_ne_true
    · split
      · exact decide_eq_false hne
      · exact hk
  · rw [List.filter_append, List.filter_cons_of_neg (by simpa using hne), List.filter_nil,
      List.append_nil]

theorem upsertHistory_alike (hne : row.instanceId ≠ inst) : Alike inst p (upsertHistory row o p) := by
  refine ⟨by rw [upsertHistory_sessions], ?_⟩
  unfold upsertHistory
  split
  · refine filter_map_same (fun h _ hk => if_neg fun hsame => hne ?_) fun h _ hk => ?_
    · rw [← hsame.1, of_decide_eq_true hk]
    · split <;> exact hk
  · rw [List.filter_append, List.filter_cons_of_neg (by simpa using hne), List.filter_nil,
      List.append_nil]

theorem ingestPlayback_alike {r : UUID × Playback} (hne : instanceID ≠ inst)
    (h : ingestPlayback newID instanceID o now p = .ok r) : Alike inst p r.2 := by
  obtain ⟨id, -, h⟩ := except_bind_ok h
  obtain ⟨key, -, h⟩ := except_bind_ok h
  split at h
  · cases h
  · obtain rfl := Except.ok.inj h
    refine Alike.trans (q := upsertHistory _ o (upsertSession _ (endPrevious instanceID o now p)).2)
      ?_ ⟨rfl, rfl⟩
    exact (endPrevious_alike hne).trans ((upsertSession_alike hne).trans (upsertHistory_alike hne))

theorem ingestSessions_alike {q : Playback} (hne : l.instanceID ≠ inst)
    (h : l.ingestSessions collate lower regexp newID p = .ok q) : Alike inst p q := by
  refine foldlM_rel (R := fun _ => Alike inst) (fun p => .refl p) (fun x _ p q _ hq hrest => ?_) h
  obtain ⟨r, hr, hsame⟩ := ingestSession_recorded hq
  exact ((ingestPlayback_alike hne hr).trans hsame.alike).trans hrest

/-- Another instance only loses the history that is not kept. -/
theorem ingest_others (hne : l.instanceID ≠ inst)
    (h : l.ingest collate lower regexp newID p = .ok p') :
    p'.sessions.filter (·.instanceId = inst) = p.sessions.filter (·.instanceId = inst) ∧
      p'.history.filter (·.instanceId = inst) = (p.history.filter (·.instanceId = inst)).filter
        (fun h => !decide (h.startedAt < l.horizon)) := by
  obtain ⟨q, hq, hsessions, hhistory, -⟩ := ingest_parts h
  have hsame := ingestSessions_alike hne hq
  constructor
  · rw [← hsame.sessions, hsessions, List.filter_filter]
    refine List.filter_congr fun s _ => ?_
    by_cases hs : s.instanceId = inst
    · rw [hs, decide_eq_false hne.symm, Bool.false_and, Bool.not_false, Bool.and_true]
    · rw [decide_eq_false hs, Bool.false_and]
  · rw [← hsame.history, hhistory, List.filter_comm]
    refine congrArg _ (endHistory_filter (fun _ _ => rfl) fun h hk => ?_)
    rw [of_decide_eq_true hk, decide_eq_false hne.symm]
    rfl

/-- The history of another instance stays or is removed for its age. -/
theorem ingest_keeps (hne : l.instanceID ≠ inst) (h : l.ingest collate lower regexp newID p = .ok p')
    {x : PlaybackHistory} (hx : x ∈ p.history) (hinst : x.instanceId = inst) :
    x ∈ p'.history ∨ x ∈ l.removes collate lower regexp newID p := by
  obtain ⟨q, hq, -, hhistory, -⟩ := ingest_parts h
  have hq' : x ∈ q.history.filter (·.instanceId = inst) := by
    rw [(ingestSessions_alike hne hq).history]
    exact List.mem_filter.2 ⟨hx, decide_eq_true hinst⟩
  have hended : x ∈ l.ended q := by
    refine endHistory_of_open (List.mem_of_mem_filter hq') ?_
    rw [hinst, decide_eq_false hne.symm]
    rfl
  rw [hhistory, removes_of_ok hq, List.mem_filter, List.mem_filter]
  by_cases hold : x.startedAt < l.horizon
  · exact Or.inr ⟨hended, decide_eq_true hold⟩
  · exact Or.inl ⟨hended, by rw [decide_eq_false hold]; rfl⟩

/-! ## What the history records -/

/-- A row, later. -/
structure PlaybackHistory.Extends (h h' : PlaybackHistory) : Prop where
  id : h'.id = h.id
  instanceId : h'.instanceId = h.instanceId
  playbackKey : h'.playbackKey = h.playbackKey
  startedAt : h'.startedAt = h.startedAt
  maxPosition : h.maxPositionTicks ≤ h'.maxPositionTicks
  peakBitrate : h.peakBitrate.getD 0 ≤ h'.peakBitrate.getD 0

theorem PlaybackHistory.Extends.refl (h : PlaybackHistory) : h.Extends h :=
  ⟨rfl, rfl, rfl, rfl, le_refl _, le_refl _⟩

theorem PlaybackHistory.Extends.trans {g h k : PlaybackHistory} (a : g.Extends h) (b : h.Extends k) :
    g.Extends k :=
  ⟨b.id.trans a.id, b.instanceId.trans a.instanceId, b.playbackKey.trans a.playbackKey,
    b.startedAt.trans a.startedAt, a.maxPosition.trans b.maxPosition,
    a.peakBitrate.trans b.peakBitrate⟩

/-- The history grows, and only loses rows that have started at a time that is `old`. -/
structure Grows (newID : Nat → UUID) (old : Time → Prop) (p p' : Playback) : Prop where
  next : p.next ≤ p'.next
  ids : ∃ new : List Nat, (p'.history.map (·.id)).Sublist (p.history.map (·.id) ++ new.map newID) ∧
    new.Nodup ∧ ∀ k ∈ new, p.next ≤ k ∧ k < p'.next
  rows : ∀ h' ∈ p'.history, (∃ h ∈ p.history, h.Extends h') ∨
    ∃ k, p.next ≤ k ∧ k < p'.next ∧ h'.id = newID k
  kept : ∀ h ∈ p.history, (∃ h' ∈ p'.history, h.Extends h') ∨ old h.startedAt

variable {old old' : Time → Prop}

theorem Grows.trans {q : Playback} (a : Grows newID old p q) (b : Grows newID old' q p') :
    Grows newID (fun t => old t ∨ old' t) p p' := by
  obtain ⟨new, hids, hnodup, hnew⟩ := a.ids
  obtain ⟨new', hids', hnodup', hnew'⟩ := b.ids
  refine ⟨Nat.le_trans a.next b.next, ⟨new ++ new', ?_, ?_, ?_⟩, ?_, ?_⟩
  · rw [List.map_append, ← List.append_assoc]
    exact hids'.trans (hids.append_right _)
  · refine List.nodup_append.2 ⟨hnodup, hnodup', fun k hk j hj => ?_⟩
    have := hnew k hk
    have := hnew' j hj
    omega
  · intro k hk
    have hab := And.intro a.next b.next
    rcases List.mem_append.1 hk with hk | hk
    · have := hnew k hk
      omega
    · have := hnew' k hk
      omega
  · intro h' hh'
    rcases b.rows h' hh' with ⟨g, hg, hext⟩ | ⟨k, hk, hlt, hid⟩
    · rcases a.rows g hg with ⟨h, hh, hext'⟩ | ⟨k, hk, hlt, hid⟩
      · exact Or.inl ⟨h, hh, hext'.trans hext⟩
      · exact Or.inr ⟨k, hk, Nat.lt_of_lt_of_le hlt b.next, hext.id.trans hid⟩
    · exact Or.inr ⟨k, Nat.le_trans a.next hk, hlt, hid⟩
  · intro h hh
    rcases a.kept h hh with ⟨g, hg, hext⟩ | hold
    · rcases b.kept g hg with ⟨h', hh', hext'⟩ | hold
      · exact Or.inl ⟨h', hh', hext.trans hext'⟩
      · exact Or.inr (Or.inr (hext.startedAt ▸ hold))
    · exact Or.inr (Or.inl hold)

theorem Grows.mono (h : Grows newID old p p') (hold : ∀ t, old t → old' t) : Grows newID old' p p' :=
  ⟨h.next, h.ids, h.rows, fun x hx => (h.kept x hx).imp_right (hold _)⟩

/-- The rows change one by one. -/
theorem Grows.of_map {f : PlaybackHistory → PlaybackHistory} (hnext : p.next ≤ p'.next)
    (hf : ∀ h : PlaybackHistory, h.Extends (f h)) (hmap : p'.history = p.history.map f) :
    Grows newID old p p' := by
  refine ⟨hnext, ⟨[], ?_, List.nodup_nil, nofun⟩, fun h' hh' => ?_, fun h hh => ?_⟩
  · rw [hmap, List.map_map, List.map_nil, List.append_nil]
    exact (List.map_congr_left fun h _ => (hf h).id) ▸ List.Sublist.refl _
  · rw [hmap] at hh'
    obtain ⟨h, hh, rfl⟩ := List.mem_map.1 hh'
    exact Or.inl ⟨h, hh, hf h⟩
  · exact Or.inl ⟨f h, hmap ▸ List.mem_map_of_mem hh, hf h⟩

theorem Unwatched.grows (h : Unwatched p p') : Grows newID old p p' :=
  Grows.of_map (f := id) h.next (fun h => .refl h) (by rw [List.map_id, h.history])

/-- Only rows that are old are lost. -/
theorem Grows.of_filter {keep : PlaybackHistory → Bool} (hnext : p'.next = p.next)
    (hold : ∀ h ∈ p.history, keep h = false → old h.startedAt)
    (hfilter : p'.history = p.history.filter keep) : Grows newID old p p' := by
  refine ⟨hnext.ge, ⟨[], ?_, List.nodup_nil, nofun⟩, fun h' hh' => ?_, fun h hh => ?_⟩
  · rw [hfilter, List.map_nil, List.append_nil]
    exact List.filter_sublist.map _
  · rw [hfilter] at hh'
    exact Or.inl ⟨h', List.mem_of_mem_filter hh', .refl h'⟩
  · cases hk : keep h with
    | true => exact Or.inl ⟨h, hfilter ▸ List.mem_filter.2 ⟨hh, hk⟩, .refl h⟩
    | false => exact Or.inr (hold h hh hk)

theorem extends_ended (b : Bool) (now : Time) (h : PlaybackHistory) :
    h.Extends (if b then { h with endedAt := some now } else h) := by
  split
  · exact ⟨rfl, rfl, rfl, rfl, le_refl _, le_refl _⟩
  · exact .refl h

theorem endPrevious_grows : Grows newID old p (endPrevious instanceID o now p) := by
  unfold endPrevious
  split
  · exact Grows.of_map (f := id) (Nat.le_refl _) (fun h => .refl h) (List.map_id _).symm
  · exact Grows.of_map (Nat.le_refl _) (fun h => extends_ended _ _ h) rfl

theorem upsertHistory_grows {q : Playback} {k : Nat} (hsame : q.history = p.history)
    (hid : row.id = newID k) (hle : p.next ≤ k) (hlt : k < p'.next)
    (hrows : p'.history = (upsertHistory row o q).history) : Grows newID old p p' := by
  have hnext : p.next ≤ p'.next := Nat.le_of_lt (Nat.lt_of_le_of_lt hle hlt)
  unfold upsertHistory at hrows
  split at hrows
  · refine Grows.of_map hnext (fun h => ?_) (hsame ▸ hrows)
    split
    · exact ⟨rfl, rfl, rfl, rfl, le_max_left _ _, le_max_left _ _⟩
    · exact .refl h
  · simp only [hsame] at hrows
    refine ⟨hnext, ⟨[k], ?_, List.nodup_singleton _, fun j hj => ?_⟩, fun h' hh' => ?_,
      fun h hh => Or.inl ⟨h, hrows ▸ List.mem_append_left _ hh, .refl h⟩⟩
    · rw [hrows, List.map_append, List.map_singleton, hid, List.map_singleton]
    · rw [List.mem_singleton.1 hj]
      exact ⟨hle, hlt⟩
    · rw [hrows] at hh'
      rcases List.mem_append.1 hh' with hh' | hh'
      · exact Or.inl ⟨h', hh', .refl h'⟩
      · rw [List.mem_singleton.1 hh']
        exact Or.inr ⟨k, hle, hlt, hid⟩

theorem endPrevious_next : (endPrevious instanceID o now p).next = p.next := by
  unfold endPrevious
  split <;> rfl

theorem ingestPlayback_grows {r : UUID × Playback}
    (h : ingestPlayback newID instanceID o now p = .ok r) : Grows newID (fun _ => False) p r.2 := by
  obtain ⟨id, -, h⟩ := except_bind_ok h
  obtain ⟨key, -, h⟩ := except_bind_ok h
  split at h
  · cases h
  · obtain rfl := Except.ok.inj h
    have hended : Grows newID (fun _ => False) p (endPrevious instanceID o now p) := endPrevious_grows
    have hlt : p.next + 1 < p.next + 2 := Nat.lt_succ_self _
    have hle : (endPrevious instanceID o now p).next ≤ p.next + 1 := by
      rw [endPrevious_next]
      exact Nat.le_succ _
    refine Grows.mono (hended.trans (?_ : Grows newID (fun _ => False) _ _)) fun t ht => by tauto
    exact upsertHistory_grows (upsertSession_history _ _) (by rfl) hle hlt rfl

theorem ingestSessions_grows {q : Playback}
    (h : l.ingestSessions collate lower regexp newID p = .ok q) :
    Grows newID (fun _ => False) p q := by
  refine foldlM_rel (R := fun _ => Grows newID fun _ => False)
    (fun p => (Unwatched.refl p).grows) (fun x _ p q _ hq hrest => ?_) h
  obtain ⟨r, hr, hsame⟩ := ingestSession_recorded hq
  have hevents : Grows newID (fun _ => False) r.2 q := hsame.grows
  exact (((ingestPlayback_grows hr).trans hevents).trans hrest).mono fun t ht => by tauto

/-- What a snapshot removes of the history is older than its horizon. -/
theorem ingest_grows (h : l.ingest collate lower regexp newID p = .ok p') :
    Grows newID (· < l.horizon) p p' := by
  obtain ⟨q, hq, -, hhistory, hnext⟩ := ingest_parts h
  let ended : Playback := { q with history := l.ended q }
  have hended : Grows newID (fun _ => False) q ended :=
    Grows.of_map (Nat.le_refl _) (fun h => extends_ended _ _ h) rfl
  have hclosed : Grows newID (· < l.horizon) ended p' := by
    refine Grows.of_filter hnext (fun h _ hk => ?_) hhistory
    simpa using hk
  exact (((ingestSessions_grows hq).trans hended).trans hclosed).mono fun t ht => by tauto

/-! ## Runs -/

variable {ls before after : List Snapshot} {p₀ q : Playback}

theorem run_cons (h : run collate lower regexp newID (l :: ls) p = .ok p') :
    ∃ q, l.ingest collate lower regexp newID p = .ok q ∧
      run collate lower regexp newID ls q = .ok p' :=
  except_bind_ok h

theorem run_consistent : ∀ {ls : List Snapshot} {p : Playback}, Consistent p →
    (∀ l ∈ ls, ∀ x ∈ l.sessions, x.Plain) → run collate lower regexp newID ls p = .ok p' →
    Consistent p'
  | [], p, hp, _, h => by
    cases h
    exact hp
  | l :: ls, p, hp, hplain, h => by
    obtain ⟨q, hq, h⟩ := run_cons h
    have hq := (ingest_follows hp (hplain l List.mem_cons_self) hq).1
    exact run_consistent hq (fun l hl => hplain l (List.mem_cons_of_mem _ hl)) h

/-- Snapshots of other instances leave the sessions, and what is open unless it is removed. -/
theorem run_others : ∀ {ls : List Snapshot} {p : Playback}, (∀ l ∈ ls, l.instanceID ≠ inst) →
    run collate lower regexp newID ls p = .ok p' →
    p'.sessions.filter (·.instanceId = inst) = p.sessions.filter (·.instanceId = inst) ∧
      ∀ x ∈ p.history, x.instanceId = inst →
        x ∈ p'.history ∨ x ∈ removedBy collate lower regexp newID ls p
  | [], p, _, h => by
    cases h
    exact ⟨rfl, fun x hx _ => Or.inl hx⟩
  | l :: ls, p, hne, h => by
    obtain ⟨q, hq, h⟩ := run_cons h
    have hl := hne l List.mem_cons_self
    obtain ⟨hsessions, hhistory⟩ := run_others (fun l hl => hne l (List.mem_cons_of_mem _ hl)) h
    refine ⟨hsessions.trans (ingest_others hl hq).1, fun x hx hinst => ?_⟩
    unfold removedBy
    rw [hq, List.mem_append]
    rcases ingest_keeps hl hq hx hinst with hx | hx
    · exact (hhistory x hx hinst).imp_right Or.inr
    · exact Or.inr (Or.inl hx)

theorem run_grows : ∀ {ls : List Snapshot} {p : Playback},
    run collate lower regexp newID ls p = .ok p' →
    Grows newID (fun t => ∃ l ∈ ls, t < l.horizon) p p'
  | [], p, h => by
    cases h
    exact (Unwatched.refl _).grows
  | l :: ls, p, h => by
    obtain ⟨q, hq, h⟩ := run_cons h
    refine ((ingest_grows hq).trans (run_grows h)).mono fun t ht => ?_
    rcases ht with ht | ⟨k, hk, ht⟩
    · exact ⟨l, List.mem_cons_self, ht⟩
    · exact ⟨k, List.mem_cons_of_mem _ hk, ht⟩

/-- The history has been made with identifiers that have been used. -/
structure Numbered (newID : Nat → UUID) (p : Playback) : Prop where
  used : ∀ h ∈ p.history, ∃ k < p.next, h.id = newID k
  nodup : (p.history.map (·.id)).Nodup

theorem Grows.numbered (hnew : Set.InjOn newID (Set.Iio p'.next)) (h : Grows newID old p p')
    (hp : Numbered newID p) : Numbered newID p' := by
  obtain ⟨new, hids, hnodup, hrange⟩ := h.ids
  have hfresh : ∀ id ∈ p.history.map (·.id), ∀ id' ∈ new.map newID, id ≠ id' := by
    intro id hid id' hid' he
    obtain ⟨x, hx, rfl⟩ := List.mem_map.1 hid
    obtain ⟨k, hk, rfl⟩ := List.mem_map.1 hid'
    obtain ⟨j, hj, hxj⟩ := hp.used x hx
    have hk := hrange k hk
    have := hnew (Nat.lt_of_lt_of_le hj h.next) hk.2 (hxj.symm.trans he)
    omega
  have hnew : (new.map newID).Nodup :=
    (List.nodup_map_iff_inj_on hnodup).2 fun j hj k hk he => hnew (hrange j hj).2 (hrange k hk).2 he
  refine ⟨fun x hx => ?_, hids.nodup (List.nodup_append.2 ⟨hp.nodup, hnew, hfresh⟩)⟩
  rcases List.mem_append.1 (hids.subset (List.mem_map_of_mem hx)) with hid | hid
  · obtain ⟨y, hy, hyid⟩ := List.mem_map.1 hid
    obtain ⟨k, hk, hyk⟩ := hp.used y hy
    exact ⟨k, Nat.lt_of_lt_of_le hk h.next, hyid.symm.trans hyk⟩
  · obtain ⟨k, hk, hkid⟩ := List.mem_map.1 hid
    exact ⟨k, (hrange k hk).2, hkid.symm⟩

end

section

variable (collate : String → String → Bool) (lower : Char → Char) (regexp : Regexp)
  (newID : Nat → UUID)

/-- **Sessions and history agree.**  From empty tables on, the sessions of an instance are those of its
last snapshot, each with an open row that is in the history unless it has been removed for its age since;
and what is open in the history is the playback of a session. -/
theorem sessions_follow_snapshots {before after : List Snapshot} {l : Snapshot} {p₀ q p : Playback}
    (hsessions : p₀.sessions = []) (hhistory : p₀.history = [])
    (hplain : ∀ k ∈ before ++ l :: after, ∀ x ∈ k.sessions, x.Plain)
    (hbefore : run collate lower regexp newID before p₀ = .ok q)
    (hrun : run collate lower regexp newID (l :: after) q = .ok p)
    (hlast : ∀ k ∈ after, k.instanceID ≠ l.instanceID) :
    Follows l (removedBy collate lower regexp newID (l :: after) q) p := by
  have hempty : Consistent p₀ := by
    refine ⟨?_, ?_, ?_⟩
    · rw [hsessions]
      exact nofun
    · rw [hsessions]
      exact nofun
    · rw [hhistory]
      exact nofun
  have hq := run_consistent hempty (fun k hk => hplain k (List.mem_append_left _ hk)) hbefore
  have hl := hplain l (List.mem_append_right _ List.mem_cons_self)
  have hafter : ∀ k ∈ after, ∀ x ∈ k.sessions, x.Plain := fun k hk =>
    hplain k (List.mem_append_right _ (List.mem_cons_of_mem _ hk))
  obtain ⟨m, hm, hrest⟩ := run_cons hrun
  obtain ⟨hconsistent, hfollows⟩ := ingest_follows hq hl hm
  obtain ⟨hsame, hkept⟩ := run_others hlast hrest
  have hmem : ∀ s, s.instanceId = l.instanceID → (s ∈ p.sessions ↔ s ∈ m.sessions) := by
    intro s hs
    have := congrArg (s ∈ ·) hsame
    simpa [hs] using this
  refine ⟨fun id => ?_, fun s hs hinst => ?_, (run_consistent hconsistent hafter hrest).watched⟩
  · rw [← hfollows.ids id]
    exact exists_congr fun s => ⟨fun ⟨hs, hinst, hid⟩ => ⟨(hmem s hinst).1 hs, hinst, hid⟩,
      fun ⟨hs, hinst, hid⟩ => ⟨(hmem s hinst).2 hs, hinst, hid⟩⟩
  · obtain ⟨hkey, h, hh, hof, hopen⟩ := hfollows.opened s ((hmem s hinst).1 hs) hinst
    refine ⟨hkey, h, ?_, hof, hopen⟩
    unfold removedBy
    rw [hm, List.mem_append, List.mem_append]
    rcases List.mem_append.1 hh with hh | hh
    · exact (hkept h hh (hof.1.trans hinst)).imp_right Or.inr
    · exact Or.inr (Or.inl hh)

/-- **The history only grows.**  As long as a row exists it is of the same playback, and neither its
greatest position nor its greatest bitrate gets less; it is removed for its age only. -/
theorem history_grows {before after : List Snapshot} {p₀ q p : Playback} (hempty : p₀.history = [])
    (hnew : Set.InjOn newID (Set.Iio p.next))
    (hbefore : run collate lower regexp newID before p₀ = .ok q)
    (hafter : run collate lower regexp newID after q = .ok p) :
    ∀ h ∈ q.history, (∀ h' ∈ p.history, h'.id = h.id → h.Extends h') ∧
      ((∃ h' ∈ p.history, h'.id = h.id) ∨ ∃ l ∈ after, h.startedAt < l.horizon) := by
  intro h hh
  have hp₀ : Numbered newID p₀ := by
    refine ⟨?_, ?_⟩ <;> rw [hempty]
    · exact nofun
    · exact List.nodup_nil
  have hgrows := run_grows hafter
  have hq := (run_grows hbefore).numbered (hnew.mono (Set.Iio_subset_Iio hgrows.next)) hp₀
  refine ⟨fun h' hh' hid => ?_, (hgrows.kept h hh).imp_left fun ⟨h', hh', hext⟩ => ⟨h', hh', hext.id⟩⟩
  rcases hgrows.rows h' hh' with ⟨g, hg, hext⟩ | ⟨k, hk, hlt, hk'⟩
  · obtain rfl : g = h := List.inj_on_of_nodup_map hq.nodup hg hh (hext.id.symm.trans hid)
    exact hext
  · obtain ⟨j, hj, hjid⟩ := hq.used h hh
    have := hnew (Nat.lt_of_lt_of_le hj hgrows.next) hlt (hjid.symm.trans (hid.symm.trans hk'))
    omega

end

/-- A session of another server. -/
def bedRoom : EmbyPlaybackSession where
  id := "t"
  nowPlayingItem := [("Id", .string "i")]

theorem livingRoom_plain : livingRoom.Plain := ⟨by decide, by decide, by decide +kernel⟩

theorem bedRoom_plain : bedRoom.Plain := ⟨by decide, by decide, by decide +kernel⟩

def bedRoomSnapshot : Snapshot := ⟨{}, digitID 1, [bedRoom], unixTime 301⟩

theorem sessions_follow_emby : ∃ q p : Playback,
    Follows (embySnapshot 300) (removedBy byText lowerChar balanced digitID
      (embySnapshot 300 :: [bedRoomSnapshot]) q) p := by
  have hok : (run byText lowerChar balanced digitID
      ([embySnapshot 299] ++ embySnapshot 300 :: [bedRoomSnapshot]) {}).isOk = true := by
    decide +kernel
  cases h : run byText lowerChar balanced digitID
      ([embySnapshot 299] ++ embySnapshot 300 :: [bedRoomSnapshot]) {} with
  | error e => rw [h] at hok; cases hok
  | ok p =>
    obtain ⟨q, hq, hp⟩ := foldlM_append_ok h
    refine ⟨q, p, sessions_follow_snapshots byText lowerChar balanced digitID (by rfl) (by rfl)
      ?_ hq hp ?_⟩
    · rintro k (_ | ⟨_, _ | ⟨_, _ | ⟨_, hk⟩⟩⟩) x hx
      · exact List.mem_singleton.1 hx ▸ livingRoom_plain
      · exact List.mem_singleton.1 hx ▸ livingRoom_plain
      · exact List.mem_singleton.1 hx ▸ bedRoom_plain
      · cases hk
    · intro k hk
      rw [List.mem_singleton.1 hk]
      decide

theorem history_grows_emby : ∃ q p : Playback, q.history ≠ [] ∧
    ∀ h ∈ q.history, (∀ h' ∈ p.history, h'.id = h.id → h.Extends h') ∧
      ((∃ h' ∈ p.history, h'.id = h.id) ∨ ∃ l ∈ [bedRoomSnapshot], h.startedAt < l.horizon) := by
  have hok : ((run byText lowerChar balanced digitID [embySnapshot 299] {}).toOption.any fun q =>
      !q.history.isEmpty && (run byText lowerChar balanced digitID [bedRoomSnapshot] q).toOption.any
        fun p => decide (p.next ≤ 9)) = true := by decide +kernel
  cases hq : run byText lowerChar balanced digitID [embySnapshot 299] {} with
  | error e => rw [hq] at hok; cases hok
  | ok q =>
    rw [hq] at hok
    obtain ⟨hne, hok⟩ := Bool.and_eq_true_iff.1 hok
    cases hp : run byText lowerChar balanced digitID [bedRoomSnapshot] q with
    | error e => rw [hp] at hok; cases hok
    | ok p =>
      rw [hp] at hok
      have hnext : p.next ≤ 9 := of_decide_eq_true hok
      have hdigits : ∀ j < 9, ∀ k < 9, digitID j = digitID k → j = k := by decide +kernel
      refine ⟨q, p, fun he => ?_, history_grows byText lowerChar balanced digitID (by rfl) ?_ hq hp⟩
      · rw [he] at hne
        cases hne
      · intro j hj k hk
        exact hdigits j (Nat.lt_of_lt_of_le hj hnext) k (Nat.lt_of_lt_of_le hk hnext)

end Sakura.Risk
