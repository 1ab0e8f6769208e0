/-
  Dynamic settings (identity/governance.go).

  A setting has one value and a history: each change takes the next revision and is written down.

  * `Json`, `ValueType`, `validSettingValue`: the values of a setting;
  * `SettingRow`, `RevisionRow`, `Tables`: the tables;
  * `writeSetting`: the transaction of `updateSetting` and `rollbackSetting`.
-/
import Sakura.Text
import Sakura.Txn.Table

namespace Sakura.Settings

open Txn

/-! ## Values -/

/-- A decoded JSON value; a number is a float64.  Nothing here looks into an object or an array, and
their content is kept as its text. -/
inductive Json where
  | null
  | boolean (b : Bool)
  | number (n : Rat)
  | string (s : String)
  | object (content : String)
  | array (content : String)
  deriving DecidableEq

/-- `value_type IN ('boolean','integer','string','object','array')` -/
inductive ValueType where
  | boolean | integer | string | object | array
  deriving DecidableEq, Repr

def ValueType.text : ValueType → String
  | .boolean => "boolean"
  | .integer => "integer"
  | .string => "string"
  | .object => "object"
  | .array => "array"

def ValueType.ofText (text : String) : Option ValueType :=
  [ValueType.boolean, .integer, .string, .object, .array].find? (·.text = text)

/-- What a JSONB column keeps of a value: no character may be U+0000. -/
def jsonb : Json → Except Err Json
  | .string s => if '\x00' ∈ s.toList then .error .database else .ok (.string s)
  | .object s => if '\x00' ∈ s.toList then .error .database else .ok (.object s)
  | .array s => if '\x00' ∈ s.toList then .error .database else .ok (.array s)
  | j => .ok j

/-- `n == float64(int64(n))` -/
def integral (n : Rat) : Bool := n.den = 1 && -2 ^ 63 ≤ n.num && n.num < 2 ^ 63

def validSettingType (value : Json) : ValueType → Bool
  | .boolean => match value with
    | .boolean _ => true
    | _ => false
  | .integer => match value with
    | .number n => integral n
    | _ => false
  | .string => match value with
    | .string _ => true
    | _ => false
  | .object => match value with
    | .object _ => true
    | _ => false
  | .array => match value with
    | .array _ => true
    | _ => false

/-- The rules of the settings that have one. -/
def validSettingValue (key : String) (value : Json) (kind : ValueType) : Bool :=
  validSettingType value kind &&
    if key = "auth.local_registration_enabled" then kind = .boolean
    else if key = "auth.session_ttl_hours" then kind = .integer && match value with
      | .number n => 1 ≤ n && n ≤ 24 * 365
      | _ => false
    else true

/-! ## Tables -/

structure SettingRow where
  key : String
  value : Json
  valueType : ValueType
  revision : Int64
  updatedBy : String
  updatedAt : Time
  deriving DecidableEq

structure RevisionRow where
  settingKey : String
  revision : Int64
  value : Json
  valueType : ValueType
  actor : String
  reason : String
  createdAt : Time
  deriving DecidableEq

structure Tables where
  settings : List SettingRow
  revisions : List RevisionRow
  deriving DecidableEq

/-- The errors of the transactions; `taken` is that of UNIQUE(setting_key,revision). -/
inductive Refusal where
  | invalid | notFound | conflict | taken | database
  deriving DecidableEq, Repr

def Refusal.of : Err → Refusal
  | .invalid => .invalid
  | .notFound => .notFound
  | .conflict => .conflict
  | _ => .database

/-- A statement refuses a parameter. -/
def accept {α : Type} (x : Except Err α) : Except Refusal α := x.mapError Refusal.of

/-- A row of the history has this key and revision. -/
def Tables.has (db : Tables) (key : String) (revision : Int64) : Bool :=
  db.revisions.any fun r => r.settingKey = key && r.revision = revision

/-! ## Changes -/

/-- The value and type of a revision. -/
def Tables.valueAt (db : Tables) (key : String) (revision : Int64) :
    Except Refusal (Json × ValueType) :=
  match db.revisions.find? fun r => r.settingKey = key && r.revision = revision with
  | some r => .ok (r.value, r.valueType)
  | none => .error .notFound

/-- The value that is written: that of the target, or the one given. -/
def newValue (key : String) (value : Json) (valueType : String) (target : Int64) (db : Tables) :
    Except Refusal (Json × ValueType) :=
  if 0 < target then db.valueAt key target
  else match ValueType.ofText valueType with
    | some kind => if validSettingValue key value kind then .ok (value, kind) else .error .invalid
    | none => .error .invalid

/-- The UPDATE of the setting and the INSERT of the new revision. -/
def storeValue (now : Time) (key : String) (value : Json) (kind : ValueType) (next : Int64)
    (label reason : String) (db : Tables) : Except Refusal Tables := do
  let value ← accept (jsonb value)
  let label ← accept (varchar 255 label)
  let reason ← accept (varchar 500 reason)
  if db.has key next then .error .taken
  else .ok {
    settings := db.settings.map fun s => if s.key = key then
      { s with value, valueType := kind, revision := next, updatedBy := label, updatedAt := now } else s
    revisions := db.revisions ++ [
      { settingKey := key, revision := next, value, valueType := kind, actor := label, reason
        createdAt := now }] }

/-- The setting is read FOR UPDATE. -/
def changeSetting (now : Time) (key : String) (value : Json) (valueType reason : String)
    (expected target : Int64) (actor : Actor) (db : Tables) :
    Except Refusal (SettingRow × Tables) :=
  if '\x00' ∈ key.toList then .error .database
  else match db.settings.find? (·.key = key) with
  | none => .error .notFound
  | some current =>
    if expected ≠ current.revision then .error .conflict
    else do
      let (value, kind) ← newValue key value valueType target db
      let next := current.revision + 1
      let db ← storeValue now key value kind next actor.label reason db
      .ok (⟨key, value, kind, next, actor.label, now⟩, db)

def writeSetting (now : Time) (key : String) (value : Json) (valueType reason : String)
    (expected target : Int64) (actor : Actor) (db : Tables) :
    Except Refusal (SettingRow × Tables) :=
  if trimSpace key = "" ∨ 160 < (trimSpace key).utf8ByteSize ∨ trimSpace reason = "" ∨
      500 < (trimSpace reason).utf8ByteSize ∨ expected < 1 ∨ target < 0 then .error .invalid
  else changeSetting now (trimSpace key) value valueType (trimSpace reason) expected target actor db

def updateSetting (now : Time) (key : String) (value : Json) (valueType reason : String)
    (expected : Int64) (actor : Actor) : Tables → Except Refusal (SettingRow × Tables) :=
  writeSetting now key value valueType reason expected 0 actor

def rollbackSetting (now : Time) (key : String) (target expected : Int64) (reason : String)
    (actor : Actor) : Tables → Except Refusal (SettingRow × Tables) :=
  writeSetting now key .null "" reason expected target actor

end Sakura.Settings
