import Registrar.Api.PromotionService
import Registrar.Curator.ResolveHold

/-!
# Reviewed rejection

A person with standing retires one candidate of the inbox.  The candidate is
read, its status changed and the receipt written in one transaction.
-/

namespace Registrar

open Program

structure ReviewedRejectionInput where
  candidateId : String
  tenantId : String
  actor : Option RequestedActor
  role : String
  reason : String
  deriving DecidableEq

inductive ReviewedRejectionRefusalCode where
  | missingReason
  | missingActor
  | notHuman
  | forbiddenRole
  | notFound
  | onHold
  | notPending
  | audienceAboveStanding
  deriving DecidableEq, Repr

inductive ReviewedRejectionResult where
  | ok (candidateId auditEventId : String)
  | refused (candidateId : String) (code : ReviewedRejectionRefusalCode)
  deriving DecidableEq

/-- The refusals that depend on the request alone, or its checked parts. -/
def ReviewedRejectionInput.check (input : ReviewedRejectionInput) :
    Except ReviewedRejectionRefusalCode (Author × ReaderRole) :=
  if trim input.reason = "" then .error .missingReason
  else
    match input.actor with
    | none => .error .missingActor
    | some requested =>
        if requested.type ≠ .human then .error .notHuman
        else
          match requested.author?, resolverRoles.find? (·.text = input.role) with
          | none, _ => .error .missingActor
          | some _, none => .error .forbiddenRole
          | some actor, some role => .ok (actor, role)

variable (env : Environment)

/-- The candidate as it was read, if it can be rejected now. -/
def reviewableCandidate (store : Store) (input : ReviewedRejectionInput)
    (role : ReaderRole) (now : String) :
    Option MemoryCandidate → Except ReviewedRejectionRefusalCode MemoryCandidate
  | none => .error .notFound
  | some candidate =>
      if candidate.tenantId ≠ input.tenantId then .error .notFound
      else if !isAudienceVisibleToRole candidate.metadata.audience role then
        .error .audienceAboveStanding
      else if (findActiveHold env store input.candidateId input.tenantId
          now).isSome then .error .onHold
      else if candidate.status ≠ .inbox then .error .notPending
      else if MemoryRepository.existsForCandidate store.curatedMemories
          input.candidateId input.tenantId then .error .notPending
      else .ok candidate

def reviewedRejectionEvent (input : ReviewedRejectionInput) (actor : Author)
    (role : ReaderRole) (draw : Draw) : AuditEventInput where
  id := draw.freshId
  action := .deleted
  memoryId := input.candidateId
  tenantId := input.tenantId
  actor := actor
  reason := some input.reason
  details :=
    [("candidateId", .string input.candidateId),
      ("disposition", .string "rejected"),
      ("resolverRole", .string role.text)]
  timestamp := draw.now

/-- The writes of the rejection and the checks that they took effect. -/
def writeReviewedRejection (input : ReviewedRejectionInput)
    (receipt : AuditEvent) : StoreM ReviewedRejectionResult := do
  let changed ← CandidateRepository.updateStatus input.candidateId .rejected
    input.tenantId
  ensure (changed = 1) (.error "Reviewed rejection status was not persisted")
  AuditRepository.insert env receipt
  let persisted ← query fun store : Store =>
    (AuditRepository.findByMemoryAndTenant store.auditEvents input.candidateId
      input.tenantId).any (·.id = receipt.id)
  ensure (persisted = true)
    (.error "Reviewed rejection receipt was not persisted")
  pure (.ok input.candidateId receipt.id)

/-- The body of the transaction. -/
def settleReviewedRejection (input : ReviewedRejectionInput) (actor : Author)
    (role : ReaderRole) (draw : Draw) : StoreM ReviewedRejectionResult := do
  let found ← CandidateRepository.findById input.candidateId
  let reviewable ← query fun store : Store =>
    reviewableCandidate env store input role draw.now found
  match reviewable with
  | .error code => pure (.refused input.candidateId code)
  | .ok _ =>
      let receipt ← orSchemaError
        (AuditEvent.parse (reviewedRejectionEvent input actor role draw))
      writeReviewedRejection env input receipt

def rejectReviewedCandidate (input : ReviewedRejectionInput) (draw : Draw) :
    StoreM ReviewedRejectionResult :=
  match input.check with
  | .error code => pure (.refused input.candidateId code)
  | .ok (actor, role) =>
      transaction (settleReviewedRejection env input actor role draw)

end Registrar
