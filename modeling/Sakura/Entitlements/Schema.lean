/-
  Entitlement codes and grants (migrations 000008 and 000010).

  * `EntitlementCode`, `AccountEntitlement`: the rows;
  * `Slot`: UNIQUE(account_id,instance_id,resource_kind,resource_key);
  * `Tables`: what the importer and the redemption of codes read and write;
  * `entitlementDigest`, `hashToken`: the keys under which a code is stored and looked up.
-/
import Sakura.Text
import Sakura.Queue.Schema
import Sakura.Legacy.Rows

namespace Sakura.Entitlements

open Txn

/-! ## Rows -/

inductive CodeStatus where
  | available | reserved | redeemed | expired | revoked
  deriving DecidableEq, Repr

/-- An instance is there only for codes that are generated in v3. -/
structure EntitlementCode where
  id : UUID
  codeHash : Bytes
  codePrefix : String
  codeHint : String
  instanceId : Option UUID := none
  resourceKind : String := "emby_library"
  resourceKey : String
  durationDays : Int64
  status : CodeStatus := .available
  reservedBy : Option UUID := none
  reservationToken : Option String := none
  reservedAt : Option Time := none
  issuedBy : String
  createdAt : Time
  deriving DecidableEq

inductive GrantStatus where
  | active | expired | revoked
  deriving DecidableEq, Repr

structure AccountEntitlement where
  id : UUID
  accountId : UUID
  instanceId : Option UUID
  bindingId : Option UUID
  resourceKind : String := "emby_library"
  resourceKey : String
  status : GrantStatus := .active
  sourceCodeId : Option UUID
  startsAt : Time
  expiresAt : Time
  deriving DecidableEq

/-- An entry of the unique index, for the rows that have an instance: NULLs are distinct. -/
structure Slot where
  accountId : UUID
  instanceId : UUID
  resourceKind : String
  resourceKey : String
  deriving DecidableEq

def AccountEntitlement.slot (e : AccountEntitlement) : Option Slot :=
  e.instanceId.map fun i => ⟨e.accountId, i, e.resourceKind, e.resourceKey⟩

/-- The bindings are not written here. -/
structure Tables where
  bindings : List Queue.Binding := []
  codes : List EntitlementCode := []
  entitlements : List AccountEntitlement := []

/-! ## Keys of codes -/

section

variable (sha256 : Bytes → Bytes) (casing : Casing)

/-- `sha256.Sum256([]byte(strings.ToUpper(strings.TrimSpace(code))))` -/
def entitlementDigest (code : String) : Bytes := sha256 (bytesOf (casing.toUpper (trimSpace code)))

/-- `security.HashToken` -/
def hashToken (value : String) : Bytes := sha256 (bytesOf value)

end

end Sakura.Entitlements
