/-
  The settings that an import brings (legacyimport/importer.go, legacyimport/domain_tables.go).

  * `JsonText`, `normalizeSettingType`: the texts of the old values;
  * `importSetting`: a row of dynamic_settings;
  * `importConfigRevision`: a row of config_revisions;
  * `importSettings`: the two loops of an import.
-/
import Sakura.Settings.Service

namespace Sakura.Settings

/-! ## Rows of the old database -/

/-- A text that is read as JSON.  `decodes` says that `json.Unmarshal` accepts it: a valid text may have
numbers beyond float64. -/
inductive JsonText where
  | valid (value : Json) (decodes : Bool)
  | invalid (text : String)
  deriving DecidableEq

structure LegacySetting where
  key : String
  value : JsonText
  valueType : String
  secret : Bool
  revision : Int64
  updatedByKind : String
  updatedByID : String
  updated : Time

/-- The columns as `valueString` and `valueInt` read them. -/
structure LegacyConfigRevision where
  settingKey : String
  newValueJson : JsonText
  revision : Int64
  actorKind : String
  actorID : String
  createdAt : Time

def fallback (value fallback : String) : String := if value = "" then fallback else value

def Json.type : Json → ValueType
  | .null => .object
  | .boolean _ => .boolean
  | .number _ => .integer
  | .string _ => .string
  | .object _ => .object
  | .array _ => .array

def normalizeSettingType (value : String) (raw : Json) (decodes : Bool) : ValueType :=
  (ValueType.ofText value).getD (if decodes then raw.type else .string)

/-! ## Import -/

/-- `GREATEST`, and `max` of two integers. -/
def greatest (a b : Int64) : Int64 := if a < b then b else a

/-- `ON CONFLICT(setting_key,revision) DO NOTHING` -/
def recordRevision (r : RevisionRow) (db : Tables) : Tables :=
  if db.has r.settingKey r.revision then db else { db with revisions := db.revisions ++ [r] }

/-- `ON CONFLICT(key) DO UPDATE`, with the greater of the two revisions. -/
def upsertSetting (s : SettingRow) (db : Tables) : Tables :=
  if db.settings.any (·.key = s.key) then
    { db with settings := db.settings.map fun old =>
        if old.key = s.key then { s with revision := greatest old.revision s.revision } else old }
  else { db with settings := db.settings ++ [s] }

/-- The row that a setting of the old database becomes. -/
def LegacySetting.row (item : LegacySetting) (raw : Json) (decodes : Bool) : Except Err SettingRow := do
  let key ← varchar 160 item.key
  let value ← jsonb raw
  let actor ← varchar 255
    (fallback item.updatedByKind "system" ++ ":" ++ fallback item.updatedByID "legacy-import")
  .ok { key, value, valueType := normalizeSettingType item.valueType raw decodes
        revision := greatest item.revision 1, updatedBy := actor, updatedAt := item.updated }

/-- The first revision that an import writes down. -/
def SettingRow.revisionRow (s : SettingRow) (reason : String) : RevisionRow where
  settingKey := s.key
  revision := s.revision
  value := s.value
  valueType := s.valueType
  actor := s.updatedBy
  reason := reason
  createdAt := s.updatedAt

/-- A secret or a text that is no JSON is reported, and left out. -/
def importSetting (item : LegacySetting) (db : Tables) : Except Err Tables :=
  match item.value with
  | .invalid _ => .ok db
  | .valid raw decodes =>
    if item.secret then .ok db
    else do
      let s ← item.row raw decodes
      .ok (recordRevision (s.revisionRow "v2 final import") (upsertSetting s db))

/-- `new_value_json`, and whether it decodes; a text that is no JSON is kept as a string. -/
def LegacyConfigRevision.raw (row : LegacyConfigRevision) : Json × Bool :=
  match row.newValueJson with
  | .valid raw decodes => (raw, decodes)
  | .invalid text => (if text = "" then .null else .string text, true)

/-- The key is one that dynamic_settings has. -/
def LegacyConfigRevision.row (row : LegacyConfigRevision) : Except Err RevisionRow := do
  let value ← jsonb row.raw.1
  let actor ← varchar 255
    (fallback row.actorKind "system" ++ ":" ++ fallback row.actorID "legacy-import")
  .ok { settingKey := row.settingKey, revision := greatest row.revision 1, value
        valueType := normalizeSettingType "" row.raw.1 row.raw.2, actor
        reason := "Imported v2 revision history", createdAt := row.createdAt }

/-- A row without a key, or of a setting that v3 does not have, is deferred. -/
def importConfigRevision (row : LegacyConfigRevision) (db : Tables) : Except Err Tables :=
  if row.settingKey = "" then .ok db
  else if '\x00' ∈ row.settingKey.toList then .error .database
  else if db.settings.any (·.key = row.settingKey) then do
    let r ← row.row
    .ok (recordRevision r db)
  else .ok db

def importRows {ρ : Type} (f : ρ → Tables → Except Err Tables) :
    List ρ → Tables → Except Err Tables
  | [], db => .ok db
  | r :: rs, db => do importRows f rs (← f r db)

/-- An import, in one transaction. -/
def importSettings (items : List LegacySetting) (rows : List LegacyConfigRevision) (db : Tables) :
    Except Err Tables := do
  let db ← importRows importSetting items db
  importRows importConfigRevision rows db

end Sakura.Settings
