import Registrar.Curator.Hold

/-!
# Gates before the policy

The checks that every govern path makes before a candidate reaches the tenant's
policy, and the receipt of a rejection.  The gates report in the shape of the
policy pipeline.
-/

namespace Registrar

open Program

variable (env : Environment)

inductive DedupMatchType where
  | exactHash
  deriving DecidableEq, Repr

structure DedupResult where
  isDuplicate : Bool
  matchedMemoryId : Option String
  matchType : Option DedupMatchType
  contentHash : String
  deriving DecidableEq, Repr

def checkDuplicate (candidate : MemoryCandidate) (table : MemoryTable)
    (tenantId : String) : DedupResult :=
  let contentHash := computeContentHash env candidate.content
  match MemoryRepository.findByContentHashAndTenant table contentHash tenantId
  with
  | some existing =>
      { isDuplicate := true
        matchedMemoryId := some existing.id
        matchType := some .exactHash
        contentHash := contentHash }
  | none =>
      { isDuplicate := false
        matchedMemoryId := none
        matchType := none
        contentHash := contentHash }

def PipelineOutcome.text : PipelineOutcome → String
  | .approved => "approved"
  | .rejected => "rejected"
  | .flagged => "flagged"

def RuleResult.json (result : RuleResult) : Json :=
  .object
    [("ruleId", .string result.ruleId),
      ("ruleType", .string result.ruleType.text),
      ("outcome", .string result.outcome.text),
      ("reason", .string result.reason)]

def rejectionReason (pipelineResult : PipelineResult) : String :=
  match pipelineResult.rejectedBy with
  | some rule => "Rejected by rule: " ++ rule
  | none =>
      "Flagged by rules: " ++
        (pipelineResult.flaggedBy.map joinComma).getD "unknown"

/-- A rejection is a `deleted` receipt: no memory was created. -/
def rejectionEvent (candidate : MemoryCandidate) (tenantId : String)
    (actor : Author) (reason : String) (pipelineResult : PipelineResult)
    (draw : Draw) : AuditEventInput where
  id := draw.freshId
  action := .deleted
  memoryId := candidate.id
  tenantId := tenantId
  actor := actor
  reason := some reason
  details :=
    [("candidateId", .string candidate.id),
      ("outcome", .string pipelineResult.outcome.text),
      ("evaluations", .array (pipelineResult.evaluations.map RuleResult.json))]
  timestamp := draw.now

/-- The reason of a rejection, recorded unless the receipt is suppressed. -/
def reject (candidate : MemoryCandidate) (pipelineResult : PipelineResult)
    (dryRun : Bool) (draw : Draw) : StoreM String := do
  let reason := rejectionReason pipelineResult
  when (dryRun = false)
    (AuditRepository.record env
      (rejectionEvent candidate candidate.tenantId curatorActor reason
        pipelineResult draw))
  pure reason

/-- The rejection that a structural gate reports. -/
def gateRejection (candidate : MemoryCandidate) (code : String)
    (ruleType : ResultRuleType) (reason : String) : PipelineResult where
  candidateId := candidate.id
  outcome := .rejected
  evaluations :=
    [{ ruleId := code
       ruleType := ruleType
       outcome := .fail
       reason := reason }]
  rejectedBy := some code
  flaggedBy := none

inductive OriginRejectCode where
  | originTokenInvalid
  | originTokenUnverifiable
  deriving DecidableEq, Repr

def OriginRejectCode.text : OriginRejectCode → String
  | .originTokenInvalid => "origin_token_invalid"
  | .originTokenUnverifiable => "origin_token_unverifiable"

def OriginRejectCode.reason : OriginRejectCode → String
  | .originTokenInvalid =>
      "Origin token HMAC does not verify against the installation secret " ++
      "for (id, tenantId, capturedAt) — the claimed provenance is forged, " ++
      "replayed across identities, or minted under a different secret."
  | .originTokenUnverifiable =>
      "Candidate claims an origin attestation but no installation origin " ++
      "secret is configured on this govern path — cannot verify, refusing " ++
      "to promote."

inductive OriginGateResult where
  | unattested
  | attested
  | rejected (code : OriginRejectCode) (pipelineResult : PipelineResult)
  deriving DecidableEq

def originRejected (candidate : MemoryCandidate) (code : OriginRejectCode) :
    OriginGateResult :=
  .rejected code
    (gateRejection candidate code.text .originAttestation code.reason)

def checkOriginAttestation (candidate : MemoryCandidate)
    (originSecret : Option String) : OriginGateResult :=
  match candidate.origin, originSecret.filter (· ≠ "") with
  | none, _ => .unattested
  | some _, none => originRejected candidate .originTokenUnverifiable
  | some origin, some secret =>
      if env.verifyOriginHmac secret
          (joinNames [candidate.id, candidate.tenantId, candidate.capturedAt])
          origin.tokenHmac then .attested
      else originRejected candidate .originTokenInvalid

inductive ImportExclusionResult where
  | notApplicable
  | clear
  | rejected (found : BrainignoreMatch) (pipelineResult : PipelineResult)
  deriving DecidableEq

def importSources : List MemorySource := [.import_, .bulkImport]

/-- Only imported candidates are checked. -/
def checkImportExclusion (candidate : MemoryCandidate) :
    ImportExclusionResult :=
  if candidate.source ∉ importSources then .notApplicable
  else
    match env.evaluateBrainignore candidate.metadata.filePaths
        candidate.content candidate.title with
    | none => .clear
    | some found =>
        .rejected found
          (gateRejection candidate found.code .importExclusion
            ("Import exclusion (brainignore): " ++ found.evidence))

/-- The rejection of the structural gates, the origin gate first. -/
def structuralRejection (candidate : MemoryCandidate)
    (originSecret : Option String) : Option PipelineResult :=
  match checkOriginAttestation env candidate originSecret with
  | .rejected _ pipelineResult => some pipelineResult
  | .unattested | .attested =>
      match checkImportExclusion env candidate with
      | .rejected _ pipelineResult => some pipelineResult
      | .notApplicable | .clear => none

/-- The envelope that the Registrar's MCP tool puts around a proposal. -/
def requiresRegistrarMcpReview (candidate : MemoryCandidate) : Bool :=
  candidate.source = .mcp && candidate.author.type = .ai &&
    candidate.author.id.value = "mcp-server"

end Registrar
