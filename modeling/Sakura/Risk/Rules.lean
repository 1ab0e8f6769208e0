/-
  Device rules and risk rules, and what they say of a playback session (platform/risk.go).

  * `EmbyPlaybackSession`, `parsePlayback`: a session of a server, and the observation of it;
  * `DeviceRule`, `listDeviceRules`, `evaluateDeviceRules`: what decides about a device;
  * `RiskRule`, `evaluateRiskRule`: what makes a risk event;
  * `saveDeviceRule`, `saveRiskRule`: the rules that a request may set up.
-/
import Mathlib.Data.List.Infix
import Mathlib.Data.List.Sort
import Sakura.Queue.Schema
import Sakura.Settings.Service

namespace Sakura.Risk

open Queue Settings

/-! ## JSON objects -/

/-- A decoded object, as a Go map. -/
abbrev Object := List (String × Json)

def Object.get (o : Object) (key : String) : Json := (o.lookup key).getD .null

def stringValue : Json → String
  | .string s => s
  | _ => ""

/-- A float64 as an int64: towards zero, and the least integer where none is in range. -/
def toInt64 (n : Rat) : Int :=
  let t := n.num.tdiv n.den
  if -2 ^ 63 ≤ t ∧ t < 2 ^ 63 then t else -2 ^ 63

def numberValue : Json → Int
  | .number n => toInt64 n
  | _ => 0

def boolValue : Json → Bool
  | .boolean b => b
  | _ => false

/-- A column JSONB takes it: no character in it is U+0000. -/
def Object.storable (o : Object) : Bool :=
  o.all fun (key, value) => !key.toList.contains '\x00' && (jsonb value).isOk

/-- A text column takes it. -/
def storableText (s : String) : Bool := !s.toList.contains '\x00'

/-! ## Values of the columns -/

inductive Decision where
  | allow | deny
  deriving DecidableEq, Repr

def Decision.text : Decision → String
  | .allow => "allow"
  | .deny => "deny"

def Decision.ofText (text : String) : Option Decision := [Decision.allow, .deny].find? (·.text = text)

/-- The fields of an observation that a rule can look at. -/
inductive Field where
  | clientName | deviceName | deviceID | platform | remoteIP | playMethod | itemType
  deriving DecidableEq, Repr

def Field.text : Field → String
  | .clientName => "client_name"
  | .deviceName => "device_name"
  | .deviceID => "device_id"
  | .platform => "platform"
  | .remoteIP => "remote_ip"
  | .playMethod => "play_method"
  | .itemType => "item_type"

def Field.ofText (text : String) : Option Field :=
  [Field.clientName, .deviceName, .deviceID, .platform, .remoteIP, .playMethod, .itemType].find?
    (·.text = text)

/-- The CHECK of the column `match_field`. -/
def Field.ofDevice : Field → Bool
  | .playMethod | .itemType => false
  | _ => true

inductive MatchOperator where
  | exact | contains | hasPrefix | regex
  deriving DecidableEq, Repr

def MatchOperator.text : MatchOperator → String
  | .exact => "exact"
  | .contains => "contains"
  | .hasPrefix => "prefix"
  | .regex => "regex"

def MatchOperator.ofText (text : String) : Option MatchOperator :=
  [MatchOperator.exact, .contains, .hasPrefix, .regex].find? (·.text = text)

@[simp] theorem MatchOperator.ofText_text (o : MatchOperator) : ofText o.text = some o := by
  cases o <;> decide

/-- What a rule recommends; `none` is the text `none`. -/
def actionText : Option ActionType → String
  | none => "none"
  | some .stopSession => "stop_session"
  | some .disableUser => "disable_user"

def actionOfText (text : String) : Option (Option ActionType) :=
  [none, some ActionType.stopSession, some .disableUser].find? (actionText · = text)

inductive Severity where
  | low | medium | high | critical
  deriving DecidableEq, Repr

def Severity.text : Severity → String
  | .low => "low"
  | .medium => "medium"
  | .high => "high"
  | .critical => "critical"

def Severity.ofText (text : String) : Option Severity :=
  [Severity.low, .medium, .high, .critical].find? (·.text = text)

inductive RuleType where
  | concurrentStreams | transcoding | bitrate | remoteIP | custom
  deriving DecidableEq, Repr

def RuleType.text : RuleType → String
  | .concurrentStreams => "concurrent_streams"
  | .transcoding => "transcoding"
  | .bitrate => "bitrate"
  | .remoteIP => "remote_ip"
  | .custom => "custom"

def RuleType.ofText (text : String) : Option RuleType :=
  [RuleType.concurrentStreams, .transcoding, .bitrate, .remoteIP, .custom].find? (·.text = text)

/-! ## Rules -/

/-- A row of `device_access_rules`. -/
structure DeviceRule where
  id : UUID
  instanceId : Option UUID := none
  name : String
  description : String := ""
  decision : Decision
  matchField : Field
  matchOperator : MatchOperator
  matchValue : String
  action : Option ActionType := none
  observationMode : Bool := false
  enabled : Bool := true
  builtIn : Bool := false
  priority : Int := 100
  revision : Int64 := 1
  ofDevice : matchField.ofDevice = true := by decide
  deriving DecidableEq

/-- A row of `risk_rules`. -/
structure RiskRule where
  id : UUID
  instanceId : Option UUID := none
  code : String
  name : String
  description : String := ""
  ruleType : RuleType
  condition : Object
  severity : Severity
  action : Option ActionType := none
  observationMode : Bool := true
  enabled : Bool := true
  cooldownSeconds : Int := 300
  revision : Int64 := 1
  deriving DecidableEq

/-- `CASE decision WHEN 'allow' THEN 0 ELSE 1 END` -/
def Decision.rank : Decision → Nat
  | .allow => 0
  | .deny => 1

/-- `ORDER BY CASE decision WHEN 'allow' THEN 0 ELSE 1 END, priority, id` -/
def deviceOrder (a b : DeviceRule) : Prop :=
  a.decision.rank < b.decision.rank ∨ (a.decision.rank = b.decision.rank ∧
    (a.priority < b.priority ∨ (a.priority = b.priority ∧ a.id.text ≤ b.id.text)))

instance (a b : DeviceRule) : Decidable (deviceOrder a b) :=
  inferInstanceAs (Decidable (_ ∨ _))

/-- The rules of an instance, with those of every instance; all rules where no instance is asked for. -/
def ofInstance (instanceID : Option UUID) (of : Option UUID) : Bool :=
  instanceID.isNone || of.isNone || of = instanceID

/-- `ListDeviceRules` -/
def listDeviceRules (instanceID : Option UUID) (rules : List DeviceRule) : List DeviceRule :=
  (rules.filter (ofInstance instanceID ·.instanceId)).insertionSort deviceOrder

section

variable (collate : String → String → Bool)

/-- `ORDER BY name, id`, where `collate` is the order of names. -/
def riskOrder (a b : RiskRule) : Prop :=
  (collate a.name b.name = true ∧ a.name ≠ b.name) ∨ (a.name = b.name ∧ a.id.text ≤ b.id.text)

instance (a b : RiskRule) : Decidable (riskOrder collate a b) :=
  inferInstanceAs (Decidable (_ ∨ _))

/-- `ListRiskRules` -/
def listRiskRules (instanceID : Option UUID) (rules : List RiskRule) : List RiskRule :=
  (rules.filter (ofInstance instanceID ·.instanceId)).insertionSort (riskOrder collate)

end

/-! ## Observations -/

/-- A session with an item, as the server lists it. -/
structure EmbyPlaybackSession where
  id : String
  userID : String := ""
  userName : String := ""
  client : String := ""
  deviceName : String := ""
  deviceID : String := ""
  remoteEndPoint : String := ""
  nowPlayingItem : Object := []
  playState : Object := []
  transcodingInfo : Object := []
  raw : Object := []
  deriving DecidableEq

inductive DeviceStatus where
  | unmatched | allowed | denied
  deriving DecidableEq, Repr

structure PlaybackObservation where
  session : EmbyPlaybackSession
  itemID : String
  itemName : String
  itemType : String
  seriesName : String
  platform : String
  playMethod : String
  remoteIP : String
  playbackKey : String
  transcoding : Bool
  bitrate : Int
  position : Int
  runtime : Int
  paused : Bool
  bindingID : Option UUID := none
  accountID : Option UUID := none
  deviceRule : Option DeviceRule := none
  deviceStatus : DeviceStatus := .unmatched
  deriving DecidableEq

/-- An address without its port, where it has one colon and that does not come first. -/
def withoutPort (address : String) : String :=
  if address.toList.count ':' = 1 ∧ address.toList.head? ≠ some ':' then
    String.ofList (address.toList.takeWhile (· ≠ ':'))
  else address

def parsePlayback (session : EmbyPlaybackSession) : PlaybackObservation :=
  let itemID := stringValue (session.nowPlayingItem.get "Id")
  let method := stringValue (session.playState.get "PlayMethod")
  let deviceType := stringValue (session.raw.get "DeviceType")
  { session, itemID
    itemName := stringValue (session.nowPlayingItem.get "Name")
    itemType := stringValue (session.nowPlayingItem.get "Type")
    seriesName := stringValue (session.nowPlayingItem.get "SeriesName")
    platform := if deviceType = "" then stringValue (session.raw.get "OperatingSystem") else deviceType
    playMethod := method
    remoteIP := withoutPort (trimSpace session.remoteEndPoint)
    playbackKey := session.id ++ ":" ++ itemID
    transcoding := method = "Transcode" || !session.transcodingInfo.isEmpty
    bitrate := numberValue (session.transcodingInfo.get "Bitrate")
    position := numberValue (session.playState.get "PositionTicks")
    runtime := numberValue (session.nowPlayingItem.get "RunTimeTicks")
    paused := boolValue (session.playState.get "IsPaused") }

def observationField (observation : PlaybackObservation) (field : String) : String :=
  match Field.ofText field with
  | some .clientName => observation.session.client
  | some .deviceName => observation.session.deviceName
  | some .deviceID => observation.session.deviceID
  | some .platform => observation.platform
  | some .remoteIP => observation.remoteIP
  | some .playMethod => observation.playMethod
  | some .itemType => observation.itemType
  | none => ""

/-! ## Matching -/

/-- Package regexp.  An expression compiles if it is well formed and within the limits that the package
sets to its size and nesting; both are read with letter case significant or, under the flag `i`, folded.
A group `(?i)` in front sets the flag for all that follows, and the flag is no matter of syntax. -/
structure Regexp where
  wellFormed : Bool → String → Bool
  withinLimits : Bool → String → Bool
  matchString : String → String → Bool
  wellFormed_group : ∀ expression, wellFormed false ("(?i)" ++ expression) = wellFormed true expression
  withinLimits_group : ∀ expression,
    withinLimits false ("(?i)" ++ expression) = withinLimits true expression
  wellFormed_fold : ∀ expression, wellFormed true expression = wellFormed false expression

/-- `regexp.Compile` gives no error. -/
def Regexp.compiles (regexp : Regexp) (expression : String) : Bool :=
  regexp.wellFormed false expression && regexp.withinLimits false expression

section

variable (lower : Char → Char) (regexp : Regexp)

/-- `strings.ToLower(strings.TrimSpace(value))`, where `lower` is `unicode.ToLower`. -/
def folded (value : String) : List Char := (trimSpace value).toList.map lower

def matchValue (observed operator expected : String) : Bool :=
  let left := folded lower observed
  let right := folded lower expected
  match MatchOperator.ofText operator with
  | some .exact => left = right
  | some .contains => right <:+: left
  | some .hasPrefix => right <+: left
  | some .regex =>
    regexp.compiles ("(?i)" ++ expected) && regexp.matchString ("(?i)" ++ expected) observed
  | none => false

def DeviceRule.holds (rule : DeviceRule) (observation : PlaybackObservation) : Bool :=
  Risk.matchValue lower regexp (observationField observation rule.matchField.text)
    rule.matchOperator.text rule.matchValue

/-- The first rule that is enabled and holds decides. -/
def evaluateDeviceRules (observation : PlaybackObservation) :
    List DeviceRule → DeviceStatus × Option DeviceRule
  | [] => (.unmatched, none)
  | rule :: rules =>
    if rule.enabled && rule.holds lower regexp observation then
      (if rule.decision = .allow then .allowed else .denied, some rule)
    else evaluateDeviceRules observation rules

/-- The rule holds; nothing asks whether it is enabled. -/
def evaluateRiskRule (rule : RiskRule) (observation : PlaybackObservation) (concurrent : Nat) : Bool :=
  match rule.ruleType with
  | .concurrentStreams => numberValue (rule.condition.get "threshold") ≤ concurrent
  | .transcoding => observation.transcoding
  | .bitrate => numberValue (rule.condition.get "minimum_bitrate") ≤ observation.bitrate
  | .remoteIP => matchValue lower regexp observation.remoteIP
      (stringValue (rule.condition.get "operator")) (stringValue (rule.condition.get "value"))
  | .custom => matchValue lower regexp
      (observationField observation (stringValue (rule.condition.get "field")))
      (stringValue (rule.condition.get "operator")) (stringValue (rule.condition.get "value"))

/-! ## Requests -/

def validMatchOperator (operator value : String) : Bool :=
  match MatchOperator.ofText operator with
  | some .regex => regexp.compiles value
  | some _ => true
  | none => false

/-- `condition` is nil where the request has none. -/
def validRiskCondition (kind : RuleType) (condition : Option Object) : Bool :=
  match condition with
  | none => false
  | some c =>
    match kind with
    | .concurrentStreams => 1 ≤ numberValue (c.get "threshold")
    | .transcoding => true
    | .bitrate => 0 < numberValue (c.get "minimum_bitrate")
    | .remoteIP => stringValue (c.get "value") ≠ "" &&
        validMatchOperator regexp (stringValue (c.get "operator")) (stringValue (c.get "value"))
    | .custom => (Field.ofText (stringValue (c.get "field"))).isSome &&
        stringValue (c.get "value") ≠ "" &&
        validMatchOperator regexp (stringValue (c.get "operator")) (stringValue (c.get "value"))

/-- The body of a request for a device rule. -/
structure DeviceRuleBody where
  instanceId : Option UUID := none
  name : String
  description : String := ""
  decision : String
  matchField : String
  matchOperator : String
  matchValue : String
  action : String := "none"
  observationMode : Bool := false
  enabled : Bool := true
  priority : Int64 := 100

/-- The rule of a body, if it is valid; an allow rule has no action. -/
def DeviceRuleBody.rule (item : DeviceRuleBody) (id : UUID) (revision : Int64) (builtIn : Bool) :
    Option DeviceRule :=
  let name := trimSpace item.name
  let value := trimSpace item.matchValue
  match Decision.ofText item.decision, Field.ofText item.matchField,
      MatchOperator.ofText item.matchOperator, actionOfText item.action with
  | some decision, some field, some operator, some action =>
    if h : name ≠ "" ∧ name.utf8ByteSize ≤ 120 ∧ value ≠ "" ∧ value.utf8ByteSize ≤ 255 ∧
        field.ofDevice = true ∧ 0 ≤ item.priority.toInt ∧ item.priority.toInt ≤ 100000 ∧
        (operator = .regex → regexp.compiles value = true) then
      some { item with
        id, revision, builtIn, name, decision
        matchField := field
        matchOperator := operator
        matchValue := value
        action := if decision = .allow then none else action
        priority := item.priority.toInt
        ofDevice := h.2.2.2.2.1 }
    else none
  | _, _, _, _ => none

/-- The columns take the texts of the rule. -/
def DeviceRule.stored (rule : DeviceRule) : Except Err DeviceRule := do
  let description ← varchar 500 rule.description
  if storableText rule.name && storableText rule.matchValue then pure { rule with description }
  else .error .database

/-- `SaveDeviceRule`: the table afterwards, and the rule; `ruleID` is the identifier of a new one. -/
def saveDeviceRule (ruleID : UUID) (id : Option UUID) (item : DeviceRuleBody) (expected : Int64)
    (rules : List DeviceRule) : Except Err (List DeviceRule × DeviceRule) :=
  match id with
  | none =>
    match item.rule regexp ruleID 1 false with
    | none => .error .invalid
    | some rule => do
      let rule ← rule.stored
      if rules.any (·.id = ruleID) then .error .database else pure (rules ++ [rule], rule)
  | some id =>
    match item.rule regexp id (expected + 1) false with
    | none => .error .invalid
    | some rule =>
      match rules.find? (·.id = id) with
      | none => .error .notFound
      | some old =>
        if old.revision ≠ expected then .error .conflict
        else if old.builtIn ∧ (rule.matchField ≠ .clientName ∨ rule.decision ≠ .allow) then
          .error .forbidden
        else do
          let rule ← { rule with builtIn := old.builtIn }.stored
          pure (rules.map fun r => if r.id = id then rule else r, rule)

/-- The body of a request for a risk rule. -/
structure RiskRuleBody where
  instanceId : Option UUID := none
  code : String
  name : String
  description : String := ""
  ruleType : String
  condition : Option Object
  severity : String
  action : String := "none"
  observationMode : Bool := true
  enabled : Bool := true
  cooldownSeconds : Int64 := 300

/-- The rule of a body, if it is valid. -/
def RiskRuleBody.rule (item : RiskRuleBody) (id : UUID) (revision : Int64) : Option RiskRule :=
  let code := String.ofList (folded lower item.code)
  let name := trimSpace item.name
  match RuleType.ofText item.ruleType, Severity.ofText item.severity, actionOfText item.action with
  | some ruleType, some severity, some action =>
    if code ≠ "" ∧ code.utf8ByteSize ≤ 80 ∧ name ≠ "" ∧ name.utf8ByteSize ≤ 120 ∧
        0 ≤ item.cooldownSeconds.toInt ∧ item.cooldownSeconds.toInt ≤ 604800 ∧
        validRiskCondition regexp ruleType item.condition = true then
      some { item with
        id, revision, code, name, ruleType, severity, action
        condition := item.condition.getD []
        cooldownSeconds := item.cooldownSeconds.toInt }
    else none
  | _, _, _ => none

/-- The columns take the texts of the rule; any error of the statement is a conflict. -/
def RiskRule.stored (rule : RiskRule) : Except Err RiskRule :=
  match varchar 500 rule.description with
  | .ok description =>
    if storableText rule.code && storableText rule.name && rule.condition.storable then
      .ok { rule with description }
    else .error .conflict
  | .error _ => .error .conflict

/-- Another rule has the code of this one. -/
def codeTaken (rule : RiskRule) (rules : List RiskRule) : Bool :=
  rules.any fun r => r.id ≠ rule.id && r.code = rule.code && r.instanceId = rule.instanceId

/-- `SaveRiskRule` -/
def saveRiskRule (ruleID : UUID) (id : Option UUID) (item : RiskRuleBody) (expected : Int64)
    (rules : List RiskRule) : Except Err (List RiskRule × RiskRule) :=
  match id with
  | none =>
    match item.rule lower regexp ruleID 1 with
    | none => .error .invalid
    | some rule => do
      let rule ← rule.stored
      if rules.any (·.id = ruleID) || codeTaken rule rules then .error .conflict
      else pure (rules ++ [rule], rule)
  | some id =>
    match item.rule lower regexp id (expected + 1) with
    | none => .error .invalid
    | some rule =>
      match rules.find? (·.id = id) with
      | none => .error .notFound
      | some old =>
        if old.revision ≠ expected then .error .conflict
        else do
          let rule ← rule.stored
          if codeTaken rule rules then .error .conflict
          else pure (rules.map fun r => if r.id = id then rule else r, rule)

end

end Sakura.Risk
