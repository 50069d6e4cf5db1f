import Registrar.Api.MemoryService
import Registrar.Curator.Curator

/-!
# Promotion service

The reviewer's path to promotion and rejection of a single candidate.  It runs
the gates of the curator; it looks neither at the candidate's status nor for a
hold on it.
-/

namespace Registrar

open Program

/-- The settings of the service. -/
structure PromotionService where
  withLinks : Bool
  originSecret : Option String
  holdLimits : HoldLimits

namespace PromotionService

variable (env : Environment) (service : PromotionService)

/-- Who approves, and why. -/
structure Approval where
  promotedBy : Option Author
  promotionReason : Option String
  deriving DecidableEq

def originRefusal : OriginRejectCode → RegistrarError
  | .originTokenInvalid =>
      unprocessable
        ("Candidate rejected: origin token does not verify against the " ++
          "installation secret — claimed provenance is invalid. Left in the " ++
          "inbox for review.") (some OriginRejectCode.originTokenInvalid.text)
  | .originTokenUnverifiable =>
      unprocessable
        ("Candidate rejected: it claims an origin attestation but no origin " ++
          "secret is configured on this server — cannot verify. Left in the " ++
          "inbox for review.")
        (some OriginRejectCode.originTokenUnverifiable.text)

/-- The disclosure floor and the origin gate: the error they raise. -/
def gateError (candidate : MemoryCandidate) : Option RegistrarError :=
  if (disclosureViolation env candidate).isSome then
    some (unprocessable
      ("Candidate rejected at the promotion disclosure gate — content " ++
        "contains disallowed material. Nothing was promoted.") none)
  else
    match checkOriginAttestation env candidate service.originSecret with
    | .rejected code _ => some (originRefusal code)
    | .unattested | .attested => none

/-- The import gate records its rejection before it throws. -/
def passImportGate (candidate : MemoryCandidate) (tenantId : String)
    (approval : Approval) (draw : Draw) : StoreM PUnit :=
  match checkImportExclusion env candidate with
  | .notApplicable | .clear => pure ⟨⟩
  | .rejected found pipelineResult => do
      AuditRepository.record env
        (rejectionEvent candidate tenantId
          (approval.promotedBy.getD curatorActor)
          ("Rejected by rule: " ++ found.code) pipelineResult draw)
      throw (unprocessable
        ("Candidate rejected by the import exclusion gate (" ++ found.code ++
          "): " ++ found.evidence ++ ". Left in the inbox for review.")
        (some found.code))

/-- The error for content that is stored already or was redacted. -/
def contentError (store : Store) (candidate : MemoryCandidate)
    (tenantId : String) : Option RegistrarError :=
  let contentHash := computeContentHash env candidate.content
  match MemoryRepository.findByContentHashAndTenant store.curatedMemories
      contentHash tenantId with
  | some duplicate =>
      some (unprocessable
        ("Candidate already promoted — content matches memory " ++
          duplicate.id) none)
  | none =>
      (AuditRepository.findRedactionByOldContentHash store.auditEvents
        contentHash tenantId).map fun _ =>
          unprocessable
            ("Candidate content was removed by a governed redaction — it " ++
              "cannot be promoted again.") (some "redacted_content")

def rejectionError (pipelineResult : PipelineResult) : RegistrarError :=
  let rule :=
    match pipelineResult.rejectedBy.filter (· ≠ "") with
    | some rule => " rule '" ++ rule ++ "'"
    | none => ""
  unprocessable
    ("Candidate rejected by policy" ++ rule ++ " — left in the inbox for " ++
      "review.") none

def flagError (pipelineResult : PipelineResult) : RegistrarError :=
  let flags :=
    if pipelineResult.flags = [] then ""
    else " (" ++ joinComma pipelineResult.flags ++ ")"
  unprocessable
    ("Candidate flagged for manual review" ++ flags ++ " — left in the inbox.")
    none

/-- The error for a candidate that went on hold, or could not. -/
def holdError (decision : HoldDecision) : PlaceHoldResult → RegistrarError
  | .held hold | .alreadyHeld hold =>
      unprocessable
        ("Candidate is on hold for human review until " ++ hold.expiresAt ++
          " (" ++ joinComma (decision.triggers.map HoldTrigger.text) ++
          "). A person with admin or owner standing resolves it; an " ++
          "approval cannot release it. Nothing was promoted.")
        (some "held_for_review")
  | .capReached active max =>
      unprocessable
        ("Candidate needs human review (" ++
          joinComma (decision.triggers.map HoldTrigger.text) ++
          ") but the hold queue is full (" ++ toString active ++ "/" ++
          toString max ++ "). Resolve open holds first. Nothing was promoted.")
        (some "hold_cap_reached")
  | .notHoldable reason =>
      unprocessable
        ("Candidate needs human review (" ++
          joinComma (decision.triggers.map HoldTrigger.text) ++
          ") and cannot be held: " ++ reason ++ ". Nothing was promoted.")
        (some "needs_human_review")
  | .wouldHold _ =>
      unprocessable
        ("Candidate needs human review (" ++
          joinComma (decision.triggers.map HoldTrigger.text) ++
          ") and cannot be held: no hold was placed. Nothing was promoted.")
        (some "needs_human_review")

def servicePromotion (candidate : MemoryCandidate)
    (pipelineResult : PipelineResult) (minimum : Option Sensitivity)
    (supersessions : List SupersessionMatch) (approval : Approval) :
    PromotionInput where
  candidate := candidate
  contentHash := computeContentHash env candidate.content
  minimumSensitivity := minimum
  pipelineResult := pipelineResult
  supersessions := supersessions
  promotedBy := approval.promotedBy
  promotionReason := approval.promotionReason
  humanResolvedFlags := []

/-- The promotion, and the status of the candidate after it. -/
def promoteApproved (candidate : MemoryCandidate) (tenantId : String)
    (pipelineResult : PipelineResult) (minimum : Option Sensitivity)
    (approval : Approval) (draw : Draw) : StoreM CuratedMemory := do
  let plan ← query fun store : Store => planFor env store candidate none none
  let memory ← promote env
    (servicePromotion env candidate pipelineResult minimum plan.matched
      approval) false service.withLinks draw.now
  let _ ← CandidateRepository.updateStatus candidate.id .promoted tenantId
  pure memory

/-- What follows the pipeline's verdict. -/
def decide (candidate : MemoryCandidate) (tenantId : String)
    (policy : Option GovernancePolicy) (pipelineResult : PipelineResult)
    (minimum : Option Sensitivity) (approval : Approval) (draw : Draw) :
    StoreM CuratedMemory :=
  if pipelineResult.outcome = .rejected then
    throw (rejectionError pipelineResult)
  else
    match evaluateHoldTriggers env candidate pipelineResult policy with
    | some decision => do
        let placed ← placeHold env candidate decision service.holdLimits
          approval.promotedBy false draw.now
        throw (holdError decision placed)
    | none =>
        if pipelineResult.outcome = .flagged then
          throw (flagError pipelineResult)
        else
          promoteApproved env service candidate tenantId pipelineResult minimum
            approval draw

/-- The candidate that the request names. -/
def requireCandidate (candidateId tenantId : String) :
    StoreM MemoryCandidate := do
  let found ← CandidateRepository.findById candidateId
  match found with
  | none => throw (notFound ("Candidate " ++ candidateId ++ " not found"))
  | some candidate => do
      ensure (candidate.tenantId = tenantId)
        (badRequest
          "Candidate does not belong to the requested tenant scope")
      pure candidate

/-- The checks and the policy, for a candidate that passed the gates. -/
def governApproval (candidate : MemoryCandidate) (tenantId : String)
    (approval : Approval) (draw : Draw) : StoreM CuratedMemory := do
  let refused ← query fun store : Store =>
    contentError env store candidate tenantId
  match refused with
  | some error => throw error
  | none =>
      let minimum ← resolveMinimum env candidate
      let policy ← query fun store : Store => enabledPolicy store tenantId
      let pipelineResult ← query fun store : Store =>
        evaluatePolicy env policy store tenantId candidate none minimum
      decide env service candidate tenantId policy pipelineResult minimum
        approval draw

def promoteCandidate (candidateId tenantId : String) (approval : Approval)
    (draw : Draw) : StoreM CuratedMemory := do
  let candidate ← requireCandidate candidateId tenantId
  match gateError env service candidate with
  | some error => throw error
  | none =>
      passImportGate env candidate tenantId approval draw
      governApproval env service candidate tenantId approval draw

def rejectedEvent (candidate : MemoryCandidate) (tenantId : String)
    (actor : Author) (reason : String) (draw : Draw) : AuditEventInput where
  id := draw.freshId
  action := .deleted
  memoryId := candidate.id
  tenantId := tenantId
  actor := actor
  reason := some reason
  details :=
    [("candidateId", .string candidate.id),
      ("disposition", .string "rejected")]
  timestamp := draw.now

/-- Why a candidate cannot be rejected now, if it cannot. -/
def pendingError (store : Store) (candidate : MemoryCandidate)
    (tenantId now : String) : Option RegistrarError :=
  if (findActiveHold env store candidate.id tenantId now).isSome then
    some (unprocessable
      ("Candidate is on hold for human review. A person with admin or owner " ++
        "standing resolves it; a reviewer may attach a recommendation. " ++
        "Nothing was changed.") (some "on_hold"))
  else if (candidate.status ≠ .inbox ∧ candidate.status ≠ .quarantined) ∨
      MemoryRepository.existsForCandidate store.curatedMemories candidate.id
        tenantId then
    some (unprocessable
      "Candidate is no longer pending review. Nothing was changed."
      (some "not_pending"))
  else none

/-- The writes of a rejection and the checks that they took effect. -/
def writeRejection (candidate : MemoryCandidate) (tenantId : String)
    (receipt : AuditEvent) : StoreM PUnit := do
  let changed ← CandidateRepository.updateStatus candidate.id .rejected tenantId
  ensure (changed = 1)
    (.error "Reviewer rejection status was not persisted")
  AuditRepository.insert env receipt
  let persisted ← query fun store : Store =>
    (AuditRepository.findByMemoryAndTenant store.auditEvents candidate.id
      tenantId).any (·.id = receipt.id)
  ensure (persisted = true)
    (.error "Reviewer rejection receipt was not persisted")

/-- Retire a reviewed candidate without promoting it. -/
def rejectCandidate (candidateId tenantId : String) (actor : Author)
    (reason : String) (draw : Draw) : StoreM PUnit :=
  transaction do
    let candidate ← requireCandidate candidateId tenantId
    let refused ← query fun store : Store =>
      pendingError env store candidate tenantId draw.now
    match refused with
    | some error => throw error
    | none =>
        let receipt ← orSchemaError
          (AuditEvent.parse
            (rejectedEvent candidate tenantId actor reason draw))
        writeRejection env candidate tenantId receipt

end PromotionService

end Registrar
