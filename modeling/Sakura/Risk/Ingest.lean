/-
  The ingestion of a playback snapshot (platform/risk.go).

  A snapshot lists the sessions of a server.  It renews the sessions and their history, and for each of
  them it asks the device rules and the risk rules; a rule that holds makes a risk event, with a task for
  the action that it recommends.

  * `Playback`, `Surroundings`: the tables that an ingestion changes, and what it only reads;
  * `createRiskEvent`: an event, unless there is one for the same rule, playback and time bucket;
  * `ingestPlaybackSnapshot`: the transaction.
-/
import Sakura.Queue.Workers
import Sakura.Risk.Rules
import Sakura.Settings.Casts

namespace Sakura.Risk

open Queue Settings

/-! ## Rows -/

/-- A row of `playback_sessions`. -/
structure PlaybackSession where
  id : UUID
  instanceId : UUID
  bindingId : Option UUID
  accountId : Option UUID
  remoteSessionId : String
  playbackKey : String
  deviceDecision : DeviceStatus
  matchedDeviceRuleId : Option UUID
  deriving DecidableEq

/-- A row of `playback_history`. -/
structure PlaybackHistory where
  id : UUID
  instanceId : UUID
  bindingId : Option UUID
  accountId : Option UUID
  remoteSessionId : String
  playbackKey : String
  peakBitrate : Option Int
  maxPositionTicks : Int
  startedAt : Time
  endedAt : Option Time
  deriving DecidableEq

inductive Source where
  | deviceRule | riskRule
  deriving DecidableEq, Repr

def Source.text : Source → String
  | .deviceRule => "device_rule"
  | .riskRule => "risk_rule"

/-- A row of `risk_events`; `ruleId` is its device rule or its risk rule, as `source` says, and
`playbackKey` is in its evidence. -/
structure DetectedEvent where
  id : UUID
  instanceId : UUID
  source : Source
  ruleId : UUID
  playbackKey : String
  playbackSessionId : UUID
  bindingId : Option UUID
  accountId : Option UUID
  dedupeKey : String
  severity : Severity
  title : String
  reason : String
  observationMode : Bool
  recommendedAction : Option ActionType
  createdAt : Time
  deriving DecidableEq

/-- A row of `account_notifications`. -/
structure Alert where
  accountId : UUID
  riskEventId : UUID
  title : String
  body : String
  deriving DecidableEq

/-- The tables that an ingestion writes; `next` counts the identifiers that it has made. -/
structure Playback where
  sessions : List PlaybackSession := []
  history : List PlaybackHistory := []
  events : List DetectedEvent := []
  tasks : List Task := []
  actions : List RiskAction := []
  alerts : List Alert := []
  next : Nat := 0
  deriving DecidableEq

/-- What an ingestion reads: the rules, the bindings, the settings `playback.history_retention_days`,
`risk.telegram_alert_account_ids` and `risk.notify_affected_account`, and the accounts with a Telegram
identity that is not disabled. -/
structure Surroundings where
  deviceRules : List DeviceRule := []
  riskRules : List RiskRule := []
  bindings : List Binding := []
  retentionDays : Option Json := none
  alertAccounts : List UUID := []
  notifyAffected : Option Json := none
  telegram : List UUID := []

section

variable (collate : String → String → Bool) (lower : Char → Char) (regexp : Regexp)
  (newID : Nat → UUID)

/-! ## Events -/

/-- The arguments of `createRiskEventTx` that the rule decides about. -/
structure Alarm where
  source : Source
  ruleId : UUID
  cooldownSeconds : Int
  observationOnly : Bool
  severity : Severity
  action : Option ActionType
  title : String
  reason : String

/-- Nanoseconds of a second. -/
def secondNanos : Int := 1000000000

/-- `Unix()` -/
def unixSeconds (t : Time) : Int := t / secondNanos - 62135596800

def Alarm.cooldown (a : Alarm) : Int := if a.cooldownSeconds < 1 then 1 else a.cooldownSeconds

/-- The time, in units of the cooldown. -/
def bucketOf (cooldown : Int) (now : Time) : Int := (unixSeconds now).tdiv cooldown

def dedupeKey (source : Source) (ruleID instanceID : UUID) (playbackKey : String) (bucket : Int) :
    String :=
  source.text ++ ":" ++ ruleID.text ++ ":" ++ instanceID.text ++ ":" ++ playbackKey ++ ":" ++
    toString bucket

/-- The accounts that are told of an event, in the order of their identifiers. -/
def recipients (env : Surroundings) (affected : Option UUID) : Except Err (List UUID) := do
  let notify ← match env.notifyAffected with
    | none => .ok false
    | some json => match json.asBoolean with
      | .error => .error .database
      | .null => .ok false
      | .value b => .ok b
  let ids := env.alertAccounts ++ if notify then affected.toList else []
  pure (ids.dedup.insertionSort fun a b => a.text ≤ b.text)

/-- `queueRiskNotificationsTx` -/
def queueRiskNotifications (env : Surroundings) (eventID : UUID) (affected : Option UUID)
    (alarm : Alarm) (p : Playback) : Except Err Playback := do
  let ids ← recipients env affected
  let alerts := (ids.filter env.telegram.contains).map fun accountId => {
    accountId
    riskEventId := eventID
    title := "[" ++ toUpper alarm.severity.text ++ "] " ++ alarm.title
    body := alarm.reason }
  pure { p with alerts := p.alerts ++ alerts }

/-- The task and the action of an event. -/
def queueAction (instanceID eventID : UUID) (o : PlaybackObservation) (alarm : Alarm)
    (action : ActionType) (now : Time) (p : Playback) : Except Err Playback := do
  let actionID := newID p.next
  let taskID := newID (p.next + 1)
  let tasks ← insertTask taskID .riskAction ("risk-action:" ++ actionID.text)
    { instanceId := some instanceID, actionId := some actionID } now p.tasks
  if p.actions.any (·.id = actionID) then .error .database
  else pure { p with
    tasks
    actions := p.actions ++ [{
      id := actionID
      eventId := eventID
      instanceId := instanceID
      taskId := some taskID
      actionType := action
      status := .pending
      remoteSessionId := nullIfEmpty o.session.id
      remoteUserId := nullIfEmpty o.session.userID
      createdAt := now }]
    next := p.next + 2 }

/-- The action of an event, if it is not only observed and one is recommended. -/
def queueRecommended (instanceID eventID : UUID) (o : PlaybackObservation) (alarm : Alarm) (now : Time)
    (p : Playback) : Except Err Playback :=
  match alarm.observationOnly, alarm.action with
  | false, some action => queueAction newID instanceID eventID o alarm action now p
  | _, _ => .ok p

/-- The row of a new event. -/
def newEvent (eventID instanceID sessionID : UUID) (o : PlaybackObservation) (alarm : Alarm)
    (reason : String) (now : Time) : DetectedEvent where
  id := eventID
  instanceId := instanceID
  source := alarm.source
  ruleId := alarm.ruleId
  playbackKey := o.playbackKey
  playbackSessionId := sessionID
  bindingId := o.bindingID
  accountId := o.accountID
  dedupeKey := dedupeKey alarm.source alarm.ruleId instanceID o.playbackKey
    (bucketOf alarm.cooldown now)
  severity := alarm.severity
  title := alarm.title
  reason := reason
  observationMode := alarm.observationOnly
  recommendedAction := alarm.action
  createdAt := now

/-- `createRiskEventTx` -/
def createRiskEvent (env : Surroundings) (instanceID sessionID : UUID) (o : PlaybackObservation)
    (alarm : Alarm) (now : Time) (p : Playback) : Except Err Playback :=
  let key := dedupeKey alarm.source alarm.ruleId instanceID o.playbackKey
    (bucketOf alarm.cooldown now)
  if p.events.any (·.dedupeKey = key) then .ok p
  else do
    let eventID := newID p.next
    let reason ← varchar 1000 alarm.reason
    if key.length > 500 || !storableText key || p.events.any (·.id = eventID) then .error .database
    else do
      let p ← queueRecommended newID instanceID eventID o alarm now { p with
        events := p.events ++ [newEvent eventID instanceID sessionID o alarm reason now]
        next := p.next + 1 }
      queueRiskNotifications env eventID o.accountID alarm p

/-! ## Rules that hold -/

def deviceAlarm (rule : DeviceRule) (o : PlaybackObservation) : Alarm where
  source := .deviceRule
  ruleId := rule.id
  cooldownSeconds := 300
  observationOnly := rule.observationMode
  severity := .high
  action := rule.action
  title := "设备命中黑名单规则"
  reason := "设备 " ++ o.session.deviceName ++ " 使用客户端 " ++ o.session.client ++ " 命中规则 " ++
    rule.name

def riskReason (rule : RiskRule) (o : PlaybackObservation) (concurrent : Nat) : String :=
  match rule.ruleType with
  | .concurrentStreams =>
    "用户 " ++ o.session.userName ++ " 同时存在 " ++ toString concurrent ++ " 个播放会话，达到规则阈值"
  | .transcoding => "会话 " ++ o.session.id ++ " 正在进行转码播放"
  | .bitrate => "会话码率 " ++ toString o.bitrate ++ " 达到规则阈值"
  | _ => "播放会话命中风险规则 " ++ rule.name

def riskAlarm (rule : RiskRule) (o : PlaybackObservation) (concurrent : Nat) : Alarm where
  source := .riskRule
  ruleId := rule.id
  cooldownSeconds := rule.cooldownSeconds
  observationOnly := rule.observationMode || o.deviceStatus = .allowed
  severity := rule.severity
  action := rule.action
  title := rule.name
  reason := riskReason rule o concurrent

/-- The events of an observation, in the order in which they are made. -/
def alarms (riskRules : List RiskRule) (o : PlaybackObservation) (concurrent : Nat) : List Alarm :=
  (o.deviceRule.toList.filter (·.decision = .deny)).map (deviceAlarm · o) ++
    (riskRules.filter (evaluateRiskRule lower regexp · o concurrent)).map (riskAlarm · o concurrent)

/-! ## Sessions and history -/

/-- The texts of an observation, with the lengths of their columns. -/
def PlaybackObservation.columns (o : PlaybackObservation) : List (Nat × String) :=
  [(128, o.session.userID), (255, o.session.userName), (128, o.itemID), (500, o.itemName),
    (80, o.itemType), (500, o.seriesName), (255, o.session.client), (255, o.session.deviceName),
    (255, o.session.deviceID), (120, o.platform), (128, o.remoteIP), (40, o.playMethod)]

/-- `ended_at=COALESCE(ended_at,NOW())` of the rows that are not ended. -/
def endHistory (p : PlaybackHistory → Bool) (now : Time) (history : List PlaybackHistory) :
    List PlaybackHistory :=
  history.map fun h => if p h && h.endedAt.isNone then { h with endedAt := some now } else h

/-- The playback of the session was another one until now. -/
def endPrevious (instanceID : UUID) (o : PlaybackObservation) (now : Time) (p : Playback) : Playback :=
  match p.sessions.find? fun s => s.instanceId = instanceID && s.remoteSessionId = o.session.id with
  | none => p
  | some s => { p with
      history := endHistory (fun h => h.instanceId = instanceID && h.playbackKey = s.playbackKey &&
        h.playbackKey ≠ o.playbackKey) now p.history }

/-- `INSERT INTO playback_sessions … ON CONFLICT(instance_id,remote_session_id) DO UPDATE`, with the
identifier of the row. -/
def upsertSession (session : PlaybackSession) (p : Playback) : UUID × Playback :=
  let same := fun s : PlaybackSession =>
    s.instanceId = session.instanceId && s.remoteSessionId = session.remoteSessionId
  match p.sessions.find? same with
  | some old => (old.id, { p with
      sessions := p.sessions.map fun s => if same s then { session with id := s.id } else s })
  | none => (session.id, { p with sessions := p.sessions ++ [session] })

/-- `INSERT INTO playback_history … ON CONFLICT(instance_id,playback_key) DO NOTHING`, and where there is
a row the UPDATE of the row with the key. -/
def upsertHistory (row : PlaybackHistory) (o : PlaybackObservation) (p : Playback) : Playback :=
  if p.history.any fun h => h.instanceId = row.instanceId && h.playbackKey = row.playbackKey then
    { p with
      history := p.history.map fun h =>
        if h.instanceId = row.instanceId ∧ h.playbackKey = o.playbackKey then { h with
          bindingId := o.bindingID
          accountId := o.accountID
          peakBitrate := some (max (h.peakBitrate.getD 0) o.bitrate)
          maxPositionTicks := max h.maxPositionTicks o.position
          endedAt := none }
        else h }
  else { p with history := p.history ++ [row] }

/-- `ingestPlaybackTx`: the identifier of the session too. -/
def ingestPlayback (instanceID : UUID) (o : PlaybackObservation) (now : Time) (p : Playback) :
    Except Err (UUID × Playback) := do
  let remoteSessionId ← varchar 160 o.session.id
  let playbackKey ← varchar 360 o.playbackKey
  if o.columns.any (fun (n, text) => !(varchar n text).isOk) || !o.session.raw.storable then
    .error .database
  else
    let opened := upsertSession {
      id := newID p.next
      instanceId := instanceID
      bindingId := o.bindingID
      accountId := o.accountID
      remoteSessionId, playbackKey
      deviceDecision := o.deviceStatus
      matchedDeviceRuleId := o.deviceRule.map (·.id) } (endPrevious instanceID o now p)
    let recorded := upsertHistory {
      id := newID (p.next + 1)
      instanceId := instanceID
      bindingId := o.bindingID
      accountId := o.accountID
      remoteSessionId, playbackKey
      peakBitrate := if o.bitrate = 0 then none else some o.bitrate
      maxPositionTicks := o.position
      startedAt := now
      endedAt := none } o opened.2
    pure (opened.1, { recorded with next := p.next + 2 })

/-- `(value #>> '{}')::integer`, or 180. -/
def historyRetentionDays (setting : Option Json) : Int :=
  match setting.map Json.asInteger with
  | some (.value n) => if n < 1 then 180 else n
  | _ => 180

/-- 4714-11-24 BC, the first TIMESTAMPTZ. -/
def earliest : Time := -148731206400 * secondNanos

/-- The sessions that the snapshot has not, and the history that is kept no longer. -/
def closeSnapshot (env : Surroundings) (instanceID : UUID) (seen : List String) (now : Time)
    (p : Playback) : Except Err Playback :=
  let gone := fun s : PlaybackSession => s.instanceId = instanceID && !seen.contains s.remoteSessionId
  let ended := fun h : PlaybackHistory => h.instanceId = instanceID &&
    (seen.isEmpty || p.sessions.any fun s => gone s && h.playbackKey = s.playbackKey)
  let kept := now - historyRetentionDays env.retentionDays * dayNanos
  if kept < earliest then .error .database
  else .ok { p with
    sessions := p.sessions.filter fun s => !gone s
    history := (endHistory ended now p.history).filter fun h => !decide (h.startedAt < kept) }

/-! ## The snapshot -/

/-- The observation of a session, with the binding of its user. -/
def boundPlayback (env : Surroundings) (instanceID : UUID) (session : EmbyPlaybackSession) :
    PlaybackObservation :=
  let binding := env.bindings.find? fun b =>
    b.instanceId = instanceID && b.remoteUserId = session.userID && b.status ≠ .deleted
  { parsePlayback session with
    bindingID := binding.map (·.id)
    accountID := binding.map (·.accountId) }

/-- The observation of a session, with what the device rules say. -/
def observe (env : Surroundings) (instanceID : UUID) (session : EmbyPlaybackSession) :
    PlaybackObservation :=
  let o := boundPlayback env instanceID session
  let verdict := evaluateDeviceRules lower regexp o (listDeviceRules (some instanceID) env.deviceRules)
  { o with deviceStatus := verdict.1, deviceRule := verdict.2 }

/-- How many of the sessions are of the user. -/
def concurrentOf (sessions : List EmbyPlaybackSession) (userID : String) : Nat :=
  sessions.countP (·.userID = userID)

/-- One turn of the loop over the sessions. -/
def ingestSession (env : Surroundings) (instanceID : UUID) (sessions : List EmbyPlaybackSession)
    (now : Time) (session : EmbyPlaybackSession) (p : Playback) : Except Err Playback := do
  let o := observe lower regexp env instanceID session
  let (sessionID, p) ← ingestPlayback newID instanceID o now p
  (alarms lower regexp (listRiskRules collate (some instanceID) env.riskRules) o
    (concurrentOf sessions session.userID)).foldlM
      (fun p alarm => createRiskEvent newID env instanceID sessionID o alarm now p) p

/-- `IngestPlaybackSnapshot` -/
def ingestPlaybackSnapshot (env : Surroundings) (instanceID : UUID)
    (sessions : List EmbyPlaybackSession) (now : Time) (p : Playback) : Except Err Playback := do
  let p ← sessions.foldlM
    (fun p session => ingestSession collate lower regexp newID env instanceID sessions now session p) p
  closeSnapshot env instanceID (sessions.map (·.id)) now p

end

end Sakura.Risk
