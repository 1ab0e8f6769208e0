/-
  The partition codes and grants of v2 (legacyimport/domain_tables.go).

  * `importPartitionCodeRow`, `importPartitionGrantRow`: the import of a row;
  * `lookup`: how `RedeemEntitlementCode` finds a code;
  * `imported_code_found_iff`: the codes that are found again; `lower_case_lost`: one that is not.
-/
import Sakura.Entitlements.Schema
import Sakura.Settings.Import
import Sakura.Legacy.Convergence

namespace Sakura.Entitlements

open Settings (fallback)

/-! ## Rows of the old database -/

/-- The columns as `valueString` and `valueInt64` read them, and the times that can be read. -/
structure PartitionCode where
  code : String
  status : String
  partition : String
  durationDays : Int64
  reservedBy : Int64
  reservationToken : String
  reservedAt : Option Time
  createdBy : String
  createdAt : Option Time

structure PartitionGrant where
  key : String
  tg : Int64
  partition : String
  status : String
  embyID : String
  code : String
  createdAt : Option Time
  expiresAt : Option Time

/-- `time.Unix(0, 0)` -/
def unixEpoch : Time := 62135596800 * 1000000000

def clampInt (value minimum maximum fallbackValue : Int64) : Int64 :=
  let value := if value = 0 ∧ fallbackValue ≠ 0 then fallbackValue else value
  if value < minimum then minimum else if maximum < value then maximum else value

def legacyActor (value : String) : String :=
  if value = "" ∨ value = "0" then "system:legacy-import" else "legacy:" ++ value

/-- A parameter in a column VARCHAR(n). -/
def column (n : Nat) (bs : Bytes) : Except Err String := (storedText n bs).elim (.error .database) .ok

section

variable (sha256 : Bytes → Bytes) (im : Importer) (tgMap : Int64 → Option UUID)

def normalizeEntitlementCodeStatus (value : String) : CodeStatus :=
  let value := im.casing.toLower value
  if value = "reserved" then .reserved
  else if value = "used" ∨ value = "redeemed" then .redeemed
  else if value = "expired" then .expired
  else if value = "revoked" ∨ value = "disabled" then .revoked
  else .available

def partitionCodeID (code : String) : UUID :=
  im.deterministicUUID ("sakura-v2-partition-code:" ++ code)

/-- `code[len(code)-16:]` -/
def codeHint (code : String) : Bytes :=
  if 16 < (bytesOf code).length then (bytesOf code).drop ((bytesOf code).length - 16) else bytesOf code

/-- `code[:8]` -/
def codePrefix (code : String) : Bytes :=
  if 8 < (bytesOf code).length then (bytesOf code).take 8 else bytesOf code

/-- The row that the INSERT is about. -/
def codeRow (row : PartitionCode) : Except Err EntitlementCode := do
  let codePrefix ← column 16 (codePrefix row.code)
  let codeHint ← column 32 (codeHint row.code)
  let resourceKey ← varchar 160 (fallback row.partition "default")
  let reservationToken ← varchar 80 row.reservationToken
  let issuedBy ← varchar 255 (legacyActor row.createdBy)
  pure
    { id := partitionCodeID im row.code, codeHash := hashToken sha256 row.code, codePrefix, codeHint
      resourceKey, durationDays := clampInt row.durationDays 1 3650 1
      status := normalizeEntitlementCodeStatus im row.status
      reservedBy := tgMap row.reservedBy, reservationToken := nullIfEmpty reservationToken
      reservedAt := row.reservedAt.map stored, issuedBy
      createdAt := stored (row.createdAt.getD unixEpoch) }

/-- `ON CONFLICT(code_hash) DO NOTHING`; a row that is deferred has an empty code. -/
def insertCode (c : EntitlementCode) (db : Tables) : Except Err Tables :=
  if db.codes.any (·.codeHash = c.codeHash) then pure db
  else if db.codes.any (·.id = c.id) then .error .database
  else pure { db with codes := db.codes ++ [c] }

def importPartitionCodeRow (row : PartitionCode) (db : Tables) : Except Err Tables :=
  if row.code = "" then pure db
  else do
    let c ← codeRow sha256 im tgMap row
    insertCode c db

def normalizeEntitlementStatus (now : Time) (value : String) (expires : Time) : GrantStatus :=
  let value := im.casing.toLower value
  if expires < now ∨ value = "expired" then .expired
  else if value = "revoked" ∨ value = "disabled" then .revoked
  else .active

/-- The binding that a grant is attached to. -/
def remoteBinding (instanceID : UUID) (remoteID : String) (db : Tables) : Option UUID :=
  if remoteID = "" then none
  else (db.bindings.find? fun b =>
    b.remote = (instanceID, remoteID) && b.status ≠ .deleted).map (·.id)

/-- The row that the INSERT is about. -/
def grantRow (now : Time) (instanceID accountID : UUID) (row : PartitionGrant) (db : Tables) :
    Except Err AccountEntitlement := do
  let resourceKey ← varchar 160 (fallback row.partition "default")
  let expires := row.expiresAt.getD unixEpoch
  let codeID := partitionCodeID im row.code
  pure
    { id := im.deterministicUUID ("sakura-v2-partition-grant:" ++ row.key), accountId := accountID
      instanceId := some instanceID, bindingId := remoteBinding instanceID row.embyID db, resourceKey
      status := normalizeEntitlementStatus im now row.status expires
      sourceCodeId := if row.code ≠ "" ∧ db.codes.any (·.id = codeID) then some codeID else none
      startsAt := stored (row.createdAt.getD unixEpoch), expiresAt := stored expires }

/-- `DO UPDATE SET expires_at=GREATEST(…),status=EXCLUDED.status,binding_id=COALESCE(…)` -/
def mergeGrant (e excluded : AccountEntitlement) : AccountEntitlement :=
  { e with
    expiresAt := max e.expiresAt excluded.expiresAt, status := excluded.status
    bindingId := excluded.bindingId <|> e.bindingId }

/-- `INSERT … ON CONFLICT(account_id,instance_id,resource_kind,resource_key)` -/
def upsertGrant (g : AccountEntitlement) (db : Tables) : Except Err Tables :=
  if db.entitlements.any (·.slot = g.slot) then
    pure { db with
      entitlements := db.entitlements.map fun e => if e.slot = g.slot then mergeGrant e g else e }
  else if db.entitlements.any (·.id = g.id) then .error .database
  else pure { db with entitlements := db.entitlements ++ [g] }

/-- A row whose account is unknown, or for which no instance was chosen, is deferred. -/
def importPartitionGrantRow (now : Time) (instanceID : Option UUID) (row : PartitionGrant)
    (db : Tables) : Except Err Tables :=
  match tgMap row.tg, instanceID with
  | some accountID, some instanceID => do
    let g ← grantRow im now instanceID accountID row db
    upsertGrant g db
  | _, _ => pure db

end

/-! ## Codes -/

section

variable {sha256 : Bytes → Bytes} {im : Importer} {tgMap : Int64 → Option UUID}

/-- `WHERE code_hash=$1`, with the key that `RedeemEntitlementCode` computes. -/
def lookup (sha256 : Bytes → Bytes) (casing : Casing) (code : String) (db : Tables) :
    Option EntitlementCode :=
  db.codes.find? (·.codeHash = entitlementDigest sha256 casing code)

/-- The two keys agree on the texts that are upper case without white space at their ends. -/
theorem digest_eq_hashToken_iff (hsha : Function.Injective sha256) {code : String} :
    entitlementDigest sha256 im.casing code = hashToken sha256 code ↔
      im.casing.toUpper (trimSpace code) = code := by
  unfold entitlementDigest hashToken
  exact ⟨fun h => bytesOf_inj (hsha h), fun h => by rw [h]⟩

theorem codeRow_hash {row : PartitionCode} {c : EntitlementCode}
    (h : codeRow sha256 im tgMap row = .ok c) : c.codeHash = hashToken sha256 row.code := by
  unfold codeRow at h
  obtain ⟨_, -, h⟩ := except_bind_ok h
  obtain ⟨_, -, h⟩ := except_bind_ok h
  obtain ⟨_, -, h⟩ := except_bind_ok h
  obtain ⟨_, -, h⟩ := except_bind_ok h
  obtain ⟨_, -, h⟩ := except_bind_ok h
  cases h
  rfl

/-- After the import of a code there is a row under its hash. -/
theorem imported_code_stored {row : PartitionCode} {db db' : Tables} (hcode : row.code ≠ "")
    (h : importPartitionCodeRow sha256 im tgMap row db = .ok db') :
    ∃ c ∈ db'.codes, c.codeHash = hashToken sha256 row.code := by
  unfold importPartitionCodeRow at h
  rw [if_neg hcode] at h
  obtain ⟨c, hc, h⟩ := except_bind_ok h
  have hhash := codeRow_hash hc
  unfold insertCode at h
  split at h
  · next hany =>
    cases h
    obtain ⟨c', hc', heq⟩ := List.any_eq_true.1 hany
    exact ⟨c', hc', (of_decide_eq_true heq).trans hhash⟩
  · split at h
    · cases h
    · cases h
      exact ⟨c, List.mem_append_right _ (List.mem_singleton_self c), hhash⟩

theorem hash_of_find? {codes : List EntitlementCode} {digest : Bytes} {c : EntitlementCode}
    (h : codes.find? (·.codeHash = digest) = some c) : c.codeHash = digest := by
  simpa using List.find?_some h

/-- **An imported code is found again**, if and only if it is upper case and has no white space at its
ends. -/
theorem imported_code_found_iff (hsha : Function.Injective sha256) {row : PartitionCode}
    {db db' : Tables} (hcode : row.code ≠ "")
    (h : importPartitionCodeRow sha256 im tgMap row db = .ok db') :
    (∃ c, lookup sha256 im.casing row.code db' = some c ∧ c.codeHash = hashToken sha256 row.code) ↔
      im.casing.toUpper (trimSpace row.code) = row.code := by
  rw [← digest_eq_hashToken_iff hsha]
  unfold lookup
  constructor
  · rintro ⟨c, hc, hhash⟩
    exact (hash_of_find? hc).symm.trans hhash
  · intro hkey
    rw [hkey]
    obtain ⟨c, hc, hhash⟩ := imported_code_stored hcode h
    cases hf : db'.codes.find? (·.codeHash = hashToken sha256 row.code) with
    | none => exact absurd (decide_eq_true hhash) (List.find?_eq_none.1 hf c hc)
    | some c' => exact ⟨c', rfl, hash_of_find? hf⟩

end

/-- A code that is available. -/
def availableCode (code : String) : PartitionCode where
  code := code
  status := "available"
  partition := ""
  durationDays := 30
  reservedBy := 0
  reservationToken := ""
  reservedAt := none
  createdBy := ""
  createdAt := none

theorem imported_code_found_upper : ∃ db', importPartitionCodeRow id asciiImporter (fun _ => none)
      (availableCode "VIP1") {} = .ok db' ∧
    ((∃ c, lookup id asciiImporter.casing (availableCode "VIP1").code db' = some c ∧
        c.codeHash = hashToken id (availableCode "VIP1").code) ↔
      asciiImporter.casing.toUpper (trimSpace (availableCode "VIP1").code) =
        (availableCode "VIP1").code) := by
  have hok : (importPartitionCodeRow id asciiImporter (fun _ => none)
      (availableCode "VIP1") {}).toBool = true := by decide +kernel
  cases h : importPartitionCodeRow id asciiImporter (fun _ => none) (availableCode "VIP1") {} with
  | error x =>
    rw [h] at hok
    cases hok
  | ok db' =>
    have hcode : (availableCode "VIP1").code ≠ "" := by decide
    exact ⟨db', rfl, imported_code_found_iff Function.injective_id hcode h⟩

/-- A code in lower case is imported, and not found. -/
theorem lower_case_lost : ¬∀ (sha256 : Bytes → Bytes) (im : Importer) (tgMap : Int64 → Option UUID)
    (row : PartitionCode) (db db' : Tables), Function.Injective sha256 → row.code ≠ "" →
    normalizeEntitlementCodeStatus im row.status = .available →
    importPartitionCodeRow sha256 im tgMap row db = .ok db' →
    ∃ c, lookup sha256 im.casing row.code db' = some c ∧ c.codeHash = hashToken sha256 row.code := by
  intro h
  have hlost : (importPartitionCodeRow id asciiImporter (fun _ => none) (availableCode "vip1") {}).toOption.any
      (fun db => (lookup id asciiImporter.casing (availableCode "vip1").code db).isNone) = true := by
    decide +kernel
  cases hi : importPartitionCodeRow id asciiImporter (fun _ => none) (availableCode "vip1") {} with
  | error x =>
    rw [hi] at hlost
    cases hlost
  | ok db' =>
    have hcode : (availableCode "vip1").code ≠ "" := by decide
    have hstatus : normalizeEntitlementCodeStatus asciiImporter (availableCode "vip1").status =
        .available := by decide +kernel
    obtain ⟨c, hc, -⟩ := h id asciiImporter (fun _ => none) (availableCode "vip1") {} db'
      Function.injective_id hcode hstatus hi
    rw [hi] at hlost
    have hnone : (lookup id asciiImporter.casing (availableCode "vip1").code db').isNone = true := hlost
    rw [hc] at hnone
    cases hnone

end Sakura.Entitlements
