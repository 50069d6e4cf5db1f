import Registrar.Common.Environment

/-!
# Snapshots

The JSON values of the records and the digests over them that bind a review to
the state it looked at.  The digests do not depend on the order of the fields.
-/

namespace Registrar

def Confidence.text : Confidence → String
  | .high => "high"
  | .medium => "medium"
  | .low => "low"

def jsonTexts (texts : List String) : Json :=
  .array (texts.map .string)

def ContentMetadata.json (metadata : ContentMetadata) : Json :=
  .object
    ([("filePaths", jsonTexts metadata.filePaths)] ++
      Json.optionalField "language" (metadata.language.map .string) ++
      Json.optionalField "projectContext"
        (metadata.projectContext.map .string) ++
      Json.optionalField "sessionId" (metadata.sessionId.map .string) ++
      Json.optionalField "repoUrl" (metadata.repoUrl.map .string) ++
      Json.optionalField "branch" (metadata.branch.map .string) ++
      Json.optionalField "confidence"
        (metadata.confidence.map fun level => .string level.text) ++
      Json.optionalField "sensitivity"
        (metadata.sensitivity.map fun level => .string level.text) ++
      [("tags", jsonTexts metadata.tags)] ++
      Json.optionalField "subjects" (metadata.subjects.map jsonTexts) ++
      Json.optionalField "proposedByRole"
        (metadata.proposedByRole.map fun role => .string role.text) ++
      Json.optionalField "audience"
        (metadata.audience.map fun audience => .string audience.text))

def PolicyEvaluation.json (evaluation : PolicyEvaluation) : Json :=
  .object
    ([("policyId", .string evaluation.policyId),
        ("ruleId", .string evaluation.ruleId),
        ("result", .string evaluation.result.text)] ++
      Json.optionalField "reason" (evaluation.reason.map .string) ++
      [("evaluatedAt", .string evaluation.evaluatedAt)])

def SupersessionLink.json (link : SupersessionLink) : Json :=
  .object
    [("supersededBy", .string link.supersededBy),
      ("reason", .string link.reason.value),
      ("linkedAt", .string link.linkedAt)]

def CuratedMemory.json (memory : CuratedMemory) : Json :=
  .object
    ([("id", .string memory.id),
        ("candidateId", .string memory.candidateId),
        ("source", .string memory.source.text),
        ("content", .string memory.content.value),
        ("title", .string memory.title.value),
        ("category", .string memory.category.text),
        ("trustLevel", .string memory.trustLevel.text),
        ("sensitivity", .string memory.sensitivity.text),
        ("author", memory.author.json),
        ("tenantId", .string memory.tenantId.value),
        ("metadata", memory.metadata.json),
        ("lifecycle", .string memory.lifecycle.text),
        ("contentHash", .string memory.contentHash),
        ("policyEvaluations",
          .array (memory.policyEvaluations.map PolicyEvaluation.json))] ++
      Json.optionalField "supersession"
        (memory.supersession.map SupersessionLink.json) ++
      [("promotedAt", .string memory.promotedAt),
        ("promotedBy", memory.promotedBy.json),
        ("updatedAt", .string memory.updatedAt),
        ("version", .number (toString memory.version))])

/-- The columns of the row that stores the memory. -/
def CuratedMemory.storedRow (memory : CuratedMemory) : Json :=
  .object
    [("id", .string memory.id),
      ("candidate_id", .string memory.candidateId),
      ("source", .string memory.source.text),
      ("content", .string memory.content.value),
      ("title", .string memory.title.value),
      ("category", .string memory.category.text),
      ("trust_level", .string memory.trustLevel.text),
      ("sensitivity", .string memory.sensitivity.text),
      ("author_json", .string memory.author.json.stringify),
      ("tenant_id", .string memory.tenantId.value),
      ("metadata_json", .string memory.metadata.json.stringify),
      ("lifecycle", .string memory.lifecycle.text),
      ("content_hash", .string memory.contentHash),
      ("policy_evaluations_json",
        .string (Json.array
          (memory.policyEvaluations.map PolicyEvaluation.json)).stringify),
      ("supersession_json",
        Json.ofOption (memory.supersession.map fun link =>
          link.json.stringify)),
      ("promoted_at", .string memory.promotedAt),
      ("promoted_by_json", .string memory.promotedBy.json.stringify),
      ("updated_at", .string memory.updatedAt),
      ("version", .number (toString memory.version))]

def AuditEvent.json (event : AuditEvent) : Json :=
  .object
    ([("id", .string event.id),
        ("action", .string event.action.text),
        ("memoryId", .string event.memoryId),
        ("tenantId", .string event.tenantId.value),
        ("actor", event.actor.json)] ++
      Json.optionalField "reason"
        (event.reason.map fun reason => .string reason.value) ++
      [("details", .object event.details),
        ("timestamp", .string event.timestamp)])

variable (env : Environment)

def stalenessDigest (value : Json) : String :=
  env.sha256 value.canonical

def memorySnapshotDigest (memory : CuratedMemory) : String :=
  stalenessDigest env memory.json

def auditEventSnapshotDigest (event : AuditEvent) : String :=
  stalenessDigest env event.json

end Registrar
