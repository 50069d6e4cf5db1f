import Registrar.Common.Environment
import Registrar.Curator.VaultFiles
import Registrar.Library.JsonSchema

/-!
# The schemas of a recovery plan

What the plan holds of the store, as the schemas of the domain parse it.
-/

namespace Registrar.Recovery

open Json

structure RecoveryEnvironment extends Environment where
  /-- `z.string().datetime()` -/
  isIsoDatetime : String → Bool
  /-- HMAC-SHA256 of a payload under a secret. -/
  hmacSha256 : String → String → String
  /-- The committed import rules, without their compiled expressions. -/
  importRules : Json
  /-- The verdict of `checkImportExclusion` is a rejection. -/
  importExcluded : Json → Bool
  /-- `planSupersession` of a proposal against memories is blocked or matches. -/
  supersedes : Json → List Json → Bool

variable (env : RecoveryEnvironment)

def anyText : Schema :=
  .text id fun _ => true

def uuid : Schema :=
  .text id env.isUuid

def sha256Hash : Schema :=
  .text id env.isSha256Hash

def isoDatetime : Schema :=
  .text id env.isIsoDatetime

def nonEmptyString : Schema :=
  .text trim fun text => decide (text ≠ "")

def tenantId : Schema :=
  nonEmptyString

def enumeration (members : List String) : Schema :=
  .text id fun text => decide (text ∈ members)

def isTagChar (char : Char) : Bool :=
  char.isDigit || char.isLower

/-- `^[a-z0-9][a-z0-9-]*$` -/
def isTag (text : String) : Bool :=
  match text.toList with
  | [] => false
  | first :: rest =>
      isTagChar first && rest.all fun char => isTagChar char || char = '-'

def tag : Schema :=
  .text id isTag

def subjectKey : Schema :=
  .text id fun text =>
    decide (text.length ≤ 96) && (splitText '.' text).all isTag

def originChannel : Schema :=
  .text id fun text => isTag text && decide (text.length ≤ 64)

/-- The literal prints a whole number that is exact. -/
def isSafeNatural (literal : String) : Bool :=
  let digits := literal.toList
  decide (digits ≠ []) && digits.all Char.isDigit &&
    decide (digits.foldl (fun value digit => 10 * value + (digit.toNat - 48)) 0
      ≤ 9007199254740991)

/-- `z.number().int().min(0)` -/
def naturalNumber : Schema :=
  .number isSafeNatural

/-- `z.number().int().positive()` -/
def positiveNumber : Schema :=
  .number fun literal => isSafeNatural literal && decide (literal ≠ "0")

def memorySource : Schema :=
  enumeration ["claude_session", "manual", "import", "mcp", "bulk_import"]

def trustLevel : Schema :=
  enumeration ["high", "medium", "low", "untrusted"]

def memoryCategory : Schema :=
  enumeration
    ["decision", "pattern", "convention", "architecture", "troubleshooting",
      "onboarding", "reference"]

def memoryLifecycleState : Schema :=
  enumeration ["active", "deprecated", "superseded", "archived"]

def candidateStatus : Schema :=
  enumeration
    ["inbox", "promoted", "rejected", "flagged", "duplicate", "quarantined"]

def sensitivity : Schema :=
  enumeration ["public", "internal", "confidential", "restricted"]

def author : Schema :=
  .object
    [("type", .required, enumeration ["human", "ai", "system"]),
      ("id", .required, nonEmptyString),
      ("name", .optional, nonEmptyString)]

def noLength (_ : Nat) : Bool :=
  true

def contentMetadata : Schema :=
  .object
    [("filePaths", .default (.array []), .array anyText noLength),
      ("language", .optional, anyText),
      ("projectContext", .optional, anyText),
      ("sessionId", .optional, anyText),
      ("repoUrl", .optional, anyText),
      ("branch", .optional, anyText),
      ("confidence", .optional, enumeration ["high", "medium", "low"]),
      ("sensitivity", .optional, sensitivity),
      ("tags", .default (.array []), .array tag noLength),
      ("subjects", .optional, .array subjectKey fun length => length ≤ 8),
      ("proposedByRole", .optional, enumeration ["admin", "member"]),
      ("audience", .optional, enumeration ["tenant", "admins", "owner"])]

def noMetadata : Json :=
  .object [("filePaths", .array []), ("tags", .array [])]

def prePolicyFlags : Schema :=
  .object
    [("potentialSecret", .default (.bool false), .boolean),
      ("lowConfidence", .default (.bool false), .boolean),
      ("duplicateSuspect", .default (.bool false), .boolean)]

def noFlags : Json :=
  .object
    [("potentialSecret", .bool false), ("lowConfidence", .bool false),
      ("duplicateSuspect", .bool false)]

/-- `unattested` is what a receipt says of a candidate without an origin. -/
def candidateOrigin : Schema :=
  .refine
    (.object
      [("tokenHmac", .required, sha256Hash env),
        ("channel", .required, originChannel),
        ("mintedAt", .required, isoDatetime env)])
    fun origin => decide (origin.string? "channel" ≠ some "unattested")

/-- A bulk digestion keeps its low trust. -/
def bulkTrustLow (candidate : Json) : Bool :=
  decide (candidate.string? "source" ≠ some "bulk_import") ||
    decide (candidate.string? "trustLevel" = some "low") ||
    decide (candidate.string? "trustLevel" = some "untrusted")

def candidateFields : List (String × Presence × Schema) :=
  [("schemaVersion", .default (.string "1"), enumeration ["1"]),
    ("id", .required, uuid env),
    ("status", .required, candidateStatus),
    ("source", .required, memorySource),
    ("content", .required, nonEmptyString),
    ("title", .required, nonEmptyString),
    ("category", .required, memoryCategory),
    ("trustLevel", .default (.string "medium"), trustLevel),
    ("author", .required, author),
    ("tenantId", .required, tenantId),
    ("metadata", .default noMetadata, contentMetadata),
    ("prePolicyFlags", .default noFlags, prePolicyFlags),
    ("capturedAt", .required, isoDatetime env),
    ("origin", .optional, candidateOrigin env)]

def memoryCandidate : Schema :=
  .refine (.object (candidateFields env)) bulkTrustLow

def policyEvaluation : Schema :=
  .object
    [("policyId", .required, uuid env),
      ("ruleId", .required, nonEmptyString),
      ("result", .required, enumeration ["pass", "fail", "flag"]),
      ("reason", .optional, anyText),
      ("evaluatedAt", .required, isoDatetime env)]

def supersessionLink : Schema :=
  .object
    [("supersededBy", .required, uuid env),
      ("reason", .required, nonEmptyString),
      ("linkedAt", .required, isoDatetime env)]

def supersededHasLink (memory : Json) : Bool :=
  decide (memory.string? "lifecycle" ≠ some "superseded") ||
    (memory.get? "supersession").isSome

def curatedMemory : Schema :=
  .refine
    (.object
      [("id", .required, uuid env),
        ("candidateId", .required, uuid env),
        ("source", .required, memorySource),
        ("content", .required, nonEmptyString),
        ("title", .required, nonEmptyString),
        ("category", .required, memoryCategory),
        ("trustLevel", .required, trustLevel),
        ("sensitivity", .default (.string "internal"), sensitivity),
        ("author", .required, author),
        ("tenantId", .required, tenantId),
        ("metadata", .default noMetadata, contentMetadata),
        ("lifecycle", .required, memoryLifecycleState),
        ("contentHash", .required, sha256Hash env),
        ("policyEvaluations", .default (.array []),
          .array (policyEvaluation env) noLength),
        ("supersession", .optional, supersessionLink env),
        ("promotedAt", .required, isoDatetime env),
        ("promotedBy", .required, author),
        ("updatedAt", .required, isoDatetime env),
        ("version", .default (.number "1"), positiveNumber)])
    supersededHasLink

def policyRule : Schema :=
  .object
    [("id", .required, nonEmptyString),
      ("type", .required,
        enumeration
          ["secret_detection", "dedup_check", "relevance_score",
            "content_length", "source_trust", "tenant_match",
            "sensitivity_gate", "content_sanitization", "contradiction_check",
            "audience_narrowing"]),
      ("action", .required,
        enumeration ["reject", "flag", "approve", "require_review"]),
      ("enabled", .default (.bool true), .boolean),
      ("priority", .default (.number "0"), naturalNumber),
      ("parameters", .default (.object []), .record),
      ("description", .optional, anyText)]

def governancePolicy : Schema :=
  .object
    [("id", .required, uuid env),
      ("name", .required, nonEmptyString),
      ("tenantId", .required, tenantId),
      ("rules", .required,
        .array (policyRule) fun length => decide (1 ≤ length)),
      ("enabled", .default (.bool true), .boolean),
      ("version", .default (.number "1"), positiveNumber),
      ("createdAt", .required, isoDatetime env),
      ("updatedAt", .required, isoDatetime env)]

@[simp]
theorem isValue_bool (flag : Bool) : (Json.bool flag).IsValue :=
  ⟨trivial, trivial⟩

@[simp]
theorem isValue_string (text : String) : (Json.string text).IsValue :=
  ⟨trivial, trivial⟩

@[simp]
theorem isValue_emptyArray : (Json.array []).IsValue :=
  ⟨trivial, trivial⟩

@[simp]
theorem enumeration_normal (members : List String) :
    (enumeration members).Normal :=
  fun _ _ => rfl

@[simp]
theorem nonEmptyString_normal : nonEmptyString.Normal :=
  fun content _ => Trim.trim_trim isTrimmedSpace content

@[simp]
theorem uuid_normal : (uuid env).Normal :=
  fun _ _ => rfl

@[simp]
theorem sha256Hash_normal : (sha256Hash env).Normal :=
  fun _ _ => rfl

@[simp]
theorem isoDatetime_normal : (isoDatetime env).Normal :=
  fun _ _ => rfl

@[simp]
theorem author_normal : author.Normal := by
  refine ⟨by decide, ?_⟩
  simp [Schema.FieldsNormal]

@[simp]
theorem contentMetadata_normal : contentMetadata.Normal := by
  refine ⟨by decide, ?_⟩
  simp [Schema.FieldsNormal, Schema.Normal, anyText, tag, sensitivity,
    subjectKey, Schema.parse, noLength]

@[simp]
theorem prePolicyFlags_normal : prePolicyFlags.Normal := by
  refine ⟨by decide, ?_⟩
  simp [Schema.FieldsNormal, Schema.Normal, Schema.parse]

theorem isValue_noMetadata : noMetadata.IsValue :=
  Schema.isValue_object (by decide) (by simp)

theorem isValue_noFlags : noFlags.IsValue :=
  Schema.isValue_object (by decide) (by simp)

theorem parse_noMetadata : contentMetadata.parse noMetadata = some noMetadata := by
  rfl

theorem parse_noFlags : prePolicyFlags.parse noFlags = some noFlags := by
  rfl

theorem isValue_zero : (Json.number "0").IsValue where
  wellFormed := ⟨by decide, by decide⟩
  distinct := trivial

theorem isValue_one : (Json.number "1").IsValue where
  wellFormed := ⟨by decide, by decide⟩
  distinct := trivial

theorem parse_one : positiveNumber.parse (.number "1") = some (.number "1") := by
  rfl

@[simp]
theorem supersessionLink_normal : (supersessionLink env).Normal := by
  refine ⟨by simp [Schema.names], ?_⟩
  simp [Schema.FieldsNormal]

@[simp]
theorem policyEvaluation_normal : (policyEvaluation env).Normal := by
  refine ⟨by simp [Schema.names], ?_⟩
  simp [Schema.FieldsNormal, Schema.Normal, anyText]

@[simp]
theorem candidateOrigin_normal : (candidateOrigin env).Normal := by
  refine ⟨by simp [Schema.names], ?_⟩
  simp [Schema.FieldsNormal, Schema.Normal, originChannel]

theorem policyRule_normal : policyRule.Normal := by
  refine ⟨by decide, ?_⟩
  simp [Schema.FieldsNormal, Schema.Normal, naturalNumber, anyText]
  simp [Schema.parse, Json.eraseField, isSafeNatural, isValue_zero]
  exact Schema.isValue_object (by simp) (by simp)

theorem memoryCandidate_normal : (memoryCandidate env).Normal := by
  refine ⟨by simp [Schema.names, candidateFields], ?_⟩
  simp [Schema.FieldsNormal, candidateFields, candidateStatus, memorySource, tenantId,
    memoryCategory, trustLevel, parse_noMetadata, isValue_noMetadata,
    parse_noFlags, isValue_noFlags]
  simp [enumeration, Schema.parse]

theorem curatedMemory_normal : (curatedMemory env).Normal := by
  refine ⟨by simp [Schema.names], ?_⟩
  simp [Schema.FieldsNormal, memorySource, tenantId, memoryCategory,
    trustLevel, sensitivity, memoryLifecycleState, parse_noMetadata,
    isValue_noMetadata, parse_one, isValue_one]
  simp [enumeration, Schema.parse, Schema.Normal, positiveNumber, noLength]

theorem governancePolicy_normal : (governancePolicy env).Normal := by
  refine ⟨by simp [Schema.names], ?_⟩
  simp [Schema.FieldsNormal, tenantId, parse_one, isValue_one]
  exact ⟨policyRule_normal, trivial, rfl, trivial⟩

theorem memoryCandidate_closed : (memoryCandidate env).Closed := by
  repeat' constructor

theorem curatedMemory_closed : (curatedMemory env).Closed := by
  repeat' constructor

theorem governancePolicy_regular : (governancePolicy env).Regular := by
  repeat' constructor

end Registrar.Recovery
