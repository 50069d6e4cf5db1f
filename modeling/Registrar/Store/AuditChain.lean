import Registrar.Library.HashChain
import Registrar.Library.Json
import Mathlib.Logic.Function.Basic

/-!
# Canonical rows and entry hashes

The canonical text of an audit row (`audit-chain.ts`) and the entry hash taken
over it.  The original form covers the timestamp, the current one does not.
-/

namespace Registrar

/-- The columns of an audit row that may enter its hash. -/
structure CanonicalAuditRow where
  id : String
  action : String
  memoryId : String
  tenantId : String
  actorJson : String
  reason : Option String
  detailsJson : String
  timestamp : String
  prevEntryHash : Option String
  deriving DecidableEq, Repr

/-- Raw chronological row used by the audit verifiers. -/
structure AuditChainRow where
  id : String
  action : String
  memoryId : String
  tenantId : String
  actorJson : String
  reason : Option String
  detailsJson : String
  timestamp : String
  entryHash : Option String
  prevEntryHash : Option String
  hashVersion : Option Int
  seq : Option Int
  deriving DecidableEq, Repr

inductive AuditHashVersion where
  | v1
  | v2
  deriving DecidableEq, Repr

def currentAuditHashVersion : AuditHashVersion := .v2

/-- The value stored in the `hash_version` column. -/
def AuditHashVersion.stored : AuditHashVersion → Int
  | .v1 => 1
  | .v2 => 2

def canonicalColumnsV1 (row : CanonicalAuditRow) :
    List (String × Option String) :=
  [ ("id", some row.id),
    ("action", some row.action),
    ("memory_id", some row.memoryId),
    ("tenant_id", some row.tenantId),
    ("actor_json", some row.actorJson),
    ("reason", row.reason),
    ("details_json", some row.detailsJson),
    ("timestamp", some row.timestamp),
    ("prev_entry_hash", row.prevEntryHash) ]

def canonicalColumnsV2 (row : CanonicalAuditRow) :
    List (String × Option String) :=
  [ ("id", some row.id),
    ("action", some row.action),
    ("memory_id", some row.memoryId),
    ("tenant_id", some row.tenantId),
    ("actor_json", some row.actorJson),
    ("reason", row.reason),
    ("details_json", some row.detailsJson),
    ("prev_entry_hash", row.prevEntryHash) ]

def canonicalColumns (row : CanonicalAuditRow) :
    AuditHashVersion → List (String × Option String)
  | .v1 => canonicalColumnsV1 row
  | .v2 => canonicalColumnsV2 row

def canonicalRowJson (row : CanonicalAuditRow)
    (hashVersion : AuditHashVersion) : String :=
  Json.stringify
    (.object
      ((canonicalColumns row hashVersion).map fun column =>
        (column.1, Json.ofOption column.2)))

def computeEntryHash (sha256 : String → String) (row : CanonicalAuditRow)
    (hashVersion : AuditHashVersion) : String :=
  sha256 (canonicalRowJson row hashVersion)

/-- A version column other than 2 selects the original form. -/
def rowHashVersion (row : AuditChainRow) : AuditHashVersion :=
  if row.hashVersion = some 2 then .v2 else .v1

def AuditChainRow.canonical (row : AuditChainRow) : CanonicalAuditRow where
  id := row.id
  action := row.action
  memoryId := row.memoryId
  tenantId := row.tenantId
  actorJson := row.actorJson
  reason := row.reason
  detailsJson := row.detailsJson
  timestamp := row.timestamp
  prevEntryHash := row.prevEntryHash

/-- Audit rows as records of a hash chain. -/
def auditScheme (sha256 : String → String) :
    HashChain.Scheme AuditChainRow String where
  entry := AuditChainRow.entryHash
  previous := AuditChainRow.prevEntryHash
  digest row := computeEntryHash sha256 row.canonical (rowHashVersion row)

theorem canonicalColumns_injective
    {left right : CanonicalAuditRow} {version version' : AuditHashVersion}
    (same : canonicalColumns left version = canonicalColumns right version') :
    version = version' ∧
      { left with timestamp := "" } = { right with timestamp := "" } ∧
      (version = .v1 → left.timestamp = right.timestamp) := by
  cases version <;> cases version' <;> cases left <;> cases right <;>
    simp_all [canonicalColumns, canonicalColumnsV1, canonicalColumnsV2]

/-- Rows with one entry hash agree in the hash form and in every column that
the form covers. -/
theorem computeEntryHash_injective
    {sha256 : String → String}
    (collisionFree : Function.Injective sha256)
    {left right : CanonicalAuditRow} {version version' : AuditHashVersion}
    (same : computeEntryHash sha256 left version =
      computeEntryHash sha256 right version') :
    version = version' ∧
      { left with timestamp := "" } = { right with timestamp := "" } ∧
      (version = .v1 → left.timestamp = right.timestamp) :=
  canonicalColumns_injective
    (Json.stringify_object_injective (collisionFree same))

end Registrar
