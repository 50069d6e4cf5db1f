import Registrar.Curator.Gates

/-!
# The curator

One candidate through the whole governance path, and a batch of them.  The
meters of a curator instance are passed along explicitly.
-/

namespace Registrar

open Program

def defaultMaxSupersedesPerRun : Nat := 200

inductive SupersessionMode where
  | apply
  | report
  deriving DecidableEq, Repr

structure CuratorConfig where
  tenantId : String
  dryRun : Bool
  supersessionThreshold : Option ℚ
  supersessionMode : SupersessionMode
  maxSupersedesPerPromotion : Option Nat
  maxSupersedesPerRun : Option Nat
  suppressRejectionReceipts : Bool
  originSecret : Option String
  holdLimits : HoldLimits
  withLinks : Bool

/-- What a curator instance keeps between candidates. -/
structure CuratorMeters where
  holdCapReached : Option (Nat × Nat)
  subjectSupersessionsApplied : Nat
  deriving DecidableEq, Repr

def CuratorMeters.fresh : CuratorMeters where
  holdCapReached := none
  subjectSupersessionsApplied := 0

/-- A human's release of a held candidate. -/
structure HoldRelease where
  promotedBy : Author
  promotionReason : String
  deriving DecidableEq

inductive SupersessionReport where
  | report (wouldSupersede : List SupersessionMatch)
  | blocked (reason : String) (count : Nat)
  deriving DecidableEq

inductive HoldStatus where
  | held
  | alreadyHeld
  | wouldHold
  | capReached
  | notHoldable
  deriving DecidableEq, Repr

structure HoldReport where
  status : HoldStatus
  triggers : List String
  recommendedAudience : String
  expiresAt : Option String
  deriving DecidableEq, Repr

inductive CurationOutcome where
  | promoted
  | rejected
  | flagged
  | duplicate
  | held
  deriving DecidableEq, Repr

structure CurationResult where
  candidateId : String
  outcome : CurationOutcome
  memoryId : Option String
  supersedes : Option String
  supersededIds : List String
  supersessionReport : Option SupersessionReport
  pipelineResult : Option PipelineResult
  hold : Option HoldReport
  reason : String
  deriving DecidableEq

/-- The result of a candidate that was not promoted. -/
def CurationResult.turnedAway (candidate : MemoryCandidate)
    (outcome : CurationOutcome) (pipelineResult : Option PipelineResult)
    (reason : String) : CurationResult where
  candidateId := candidate.id
  outcome := outcome
  memoryId := none
  supersedes := none
  supersededIds := []
  supersessionReport := none
  pipelineResult := pipelineResult
  hold := none
  reason := reason

variable (env : Environment)

/-- The verdict `duplicate`: the content is stored already, was removed by a
redaction, or was promoted earlier in the batch. -/
def duplicateReason (config : CuratorConfig) (store : Store)
    (candidate : MemoryCandidate) (existingHashes : Option (List String)) :
    Option String :=
  let contentHash := computeContentHash env candidate.content
  match (checkDuplicate env candidate store.curatedMemories
      config.tenantId).matchedMemoryId with
  | some matchedId => some ("Exact duplicate of memory " ++ matchedId)
  | none =>
      match AuditRepository.findRedactionByOldContentHash store.auditEvents
          contentHash config.tenantId with
      | some redaction =>
          some ("Content was removed by a governed redaction (receipt " ++
            redaction.eventId ++ ") — re-ingest refused")
      | none =>
          if existingHashes.any (·.contains contentHash) then
            some ("Intra-batch duplicate (same content already promoted in " ++
              "this batch)")
          else none

/-- The first enabled policy of the tenant. -/
def enabledPolicy (store : Store) (tenantId : String) :
    Option GovernancePolicy :=
  (PolicyRepository.findByTenant store.governancePolicies tenantId).find?
    (·.enabled)

/-- The pipeline's result under the policy; without one every candidate is
approved. -/
def evaluatePolicy (policy : Option GovernancePolicy) (store : Store)
    (tenantId : String) (candidate : MemoryCandidate)
    (existingHashes : Option (List String)) (minimum : Option Sensitivity) :
    PipelineResult :=
  match policy with
  | none =>
      { candidateId := candidate.id
        outcome := .approved
        evaluations := []
        rejectedBy := none
        flaggedBy := none }
  | some policy =>
      PolicyPipeline.evaluate env policy candidate
        { minimumSensitivity := minimum
          existingHashes := some (existingHashes.getD
            (MemoryRepository.getContentHashesByTenant store.curatedMemories
              tenantId))
          tenantId := some tenantId
          getActiveMemoriesInCategory := some fun category =>
            (MemoryRepository.findByTenantAndLifecycleAndCategory
              store.curatedMemories tenantId .active category).map
              fun memory =>
                { id := memory.id
                  content := memory.content.value } }

def PlaceHoldResult.status : PlaceHoldResult → HoldStatus
  | .held _ => .held
  | .alreadyHeld _ => .alreadyHeld
  | .wouldHold _ => .wouldHold
  | .capReached _ _ => .capReached
  | .notHoldable _ => .notHoldable

def PlaceHoldResult.expiresAt : PlaceHoldResult → Option String
  | .held hold | .alreadyHeld hold => some hold.expiresAt
  | .wouldHold expiresAt => some expiresAt
  | .capReached _ _ | .notHoldable _ => none

/-- Why nothing was held, if nothing was. -/
def PlaceHoldResult.obstacle : PlaceHoldResult → Option String
  | .capReached active max =>
      some ("the hold queue is full (" ++ toString active ++ "/" ++
        toString max ++ "); resolve open holds and re-run")
  | .notHoldable reason => some reason
  | .held _ | .alreadyHeld _ | .wouldHold _ => none

def CuratorMeters.afterHold (meters : CuratorMeters) :
    PlaceHoldResult → CuratorMeters
  | .capReached active max =>
      { meters with holdCapReached := some (active, max) }
  | .held _ | .alreadyHeld _ | .wouldHold _ | .notHoldable _ => meters

def holdResult (candidate : MemoryCandidate) (decision : HoldDecision)
    (pipelineResult : PipelineResult) (placed : PlaceHoldResult) :
    CurationResult :=
  let triggers := joinComma (decision.triggers.map HoldTrigger.text)
  { candidateId := candidate.id
    outcome := if placed.obstacle.isSome then .flagged else .held
    memoryId := none
    supersedes := none
    supersededIds := []
    supersessionReport := none
    pipelineResult := some pipelineResult
    hold := some
      { status := placed.status
        triggers := decision.triggers.map HoldTrigger.text
        recommendedAudience := decision.recommendedAudience.text
        expiresAt := placed.expiresAt }
    reason :=
      match placed.obstacle with
      | some why =>
          "Needs human review (" ++ triggers ++ ") but was not held: " ++
            why ++ ". Not promoted."
      | none =>
          "Held for human review until " ++ placed.expiresAt.getD "" ++ ": " ++
            triggers }

/-- Put the candidate on hold, or report why it could not be held; once the
queue was full, an instance does not count it again. -/
def holdCandidate (config : CuratorConfig) (meters : CuratorMeters)
    (candidate : MemoryCandidate) (decision : HoldDecision)
    (pipelineResult : PipelineResult) (suppressReject : Bool) (draw : Draw) :
    StoreM (CurationResult × CuratorMeters) := do
  let placed ←
    match meters.holdCapReached with
    | some (active, max) => pure (.capReached active max)
    | none =>
        placeHold env candidate decision config.holdLimits none config.dryRun
          draw.now
  when (placed.obstacle.isSome = true ∧ pipelineResult.outcome = .flagged) do
    let _ ← reject env candidate pipelineResult suppressReject draw
  pure (holdResult candidate decision pipelineResult placed,
    meters.afterHold placed)

/-- The supersessions that are carried out, and the report on those that are
not. -/
def chooseSupersessions (config : CuratorConfig) (meters : CuratorMeters)
    (plan : SupersessionPlan) :
    List SupersessionMatch × Option SupersessionReport :=
  let subjectCount := plan.matched.countP (·.basis = .subject)
  let runBudget :=
    config.maxSupersedesPerRun.getD defaultMaxSupersedesPerRun
  match plan.blocked with
  | some block =>
      ([], some (.blocked
        ("subject match exceeds per-promotion cap (" ++ toString block.cap ++
          ")") block.wouldSupersede))
  | none =>
      if config.supersessionMode = .report then
        ([], if plan.matched = [] then none else some (.report plan.matched))
      else if 0 < subjectCount ∧
          runBudget < meters.subjectSupersessionsApplied + subjectCount then
        ([], some (.blocked
          ("per-run subject-supersession budget exhausted (" ++
            toString runBudget ++ ")") subjectCount))
      else (plan.matched, none)

/-- The plan against the active memories of the candidate's own tenant. -/
def planFor (store : Store) (candidate : MemoryCandidate)
    (threshold : Option ℚ) (cap : Option Nat) : SupersessionPlan :=
  planSupersession env candidate
    (MemoryRepository.findByTenantAndLifecycle store.curatedMemories
      candidate.tenantId .active)
    (threshold.getD defaultSupersessionThreshold)
    (cap.getD defaultMaxSupersedesPerPromotion)

def curatorPromotion (candidate : MemoryCandidate)
    (pipelineResult : PipelineResult) (release : Option HoldRelease)
    (releasedFlags : Option (List String)) (minimum : Option Sensitivity)
    (supersessions : List SupersessionMatch) : PromotionInput where
  candidate := candidate
  contentHash := computeContentHash env candidate.content
  minimumSensitivity := minimum
  pipelineResult := pipelineResult
  supersessions := supersessions
  promotedBy := release.map HoldRelease.promotedBy
  promotionReason := release.map HoldRelease.promotionReason
  humanResolvedFlags := releasedFlags.getD []

def promotedReason (supersededIds : List String) :
    Option SupersessionReport → String
  | some (.blocked reason _) =>
      "Promoted (supersession blocked: " ++ reason ++ ")"
  | some (.report _) | none =>
      if supersededIds = [] then "Promoted"
      else "Promoted (supersedes " ++ joinComma supersededIds ++ ")"

def CuratorMeters.afterPromotion (meters : CuratorMeters)
    (config : CuratorConfig) (applied : List SupersessionMatch) :
    CuratorMeters :=
  if config.dryRun then meters
  else
    { meters with
      subjectSupersessionsApplied := meters.subjectSupersessionsApplied +
        applied.countP (·.basis = .subject) }

def Curator.promoteCandidate (config : CuratorConfig) (meters : CuratorMeters)
    (candidate : MemoryCandidate) (pipelineResult : PipelineResult)
    (release : Option HoldRelease) (releasedFlags : Option (List String))
    (minimum : Option Sensitivity) (draw : Draw) :
    StoreM (CurationResult × CuratorMeters) := do
  let plan ← query fun store : Store =>
    planFor env store candidate config.supersessionThreshold
      config.maxSupersedesPerPromotion
  let (toApply, report) := chooseSupersessions config meters plan
  let memory ← promote env
    (curatorPromotion env candidate pipelineResult release releasedFlags
      minimum toApply) config.dryRun config.withLinks draw.now
  let supersededIds := toApply.map SupersessionMatch.supersededMemoryId
  pure
    ({ candidateId := candidate.id
       outcome := .promoted
       memoryId := some memory.id
       supersedes := supersededIds.head?
       supersededIds := supersededIds
       supersessionReport := report
       pipelineResult := some pipelineResult
       hold := none
       reason := promotedReason supersededIds report },
      meters.afterPromotion config toApply)

/-- A release resolves the flags that the hold covered, and only those. -/
def flagsResolvedBy (release : Option HoldRelease)
    (pipelineResult : PipelineResult) : Option (List String) :=
  if release.isSome ∧ unresolvedFlagsAfterRelease pipelineResult = [] then
    some pipelineResult.flags
  else none

/-- Record the rejection of a candidate and report it. -/
def turnAway (candidate : MemoryCandidate) (outcome : CurationOutcome)
    (pipelineResult : PipelineResult) (suppressReject : Bool)
    (meters : CuratorMeters) (draw : Draw) :
    StoreM (CurationResult × CuratorMeters) := do
  let reason ← reject env candidate pipelineResult suppressReject draw
  pure (.turnedAway candidate outcome (some pipelineResult) reason, meters)

/-- What follows the pipeline's verdict. -/
def settle (config : CuratorConfig) (meters : CuratorMeters)
    (candidate : MemoryCandidate) (policy : Option GovernancePolicy)
    (pipelineResult : PipelineResult) (release : Option HoldRelease)
    (minimum : Option Sensitivity) (suppressReject : Bool) (draw : Draw) :
    StoreM (CurationResult × CuratorMeters) :=
  let decision :=
    if release.isSome then none
    else evaluateHoldTriggers env candidate pipelineResult policy
  let releasedFlags := flagsResolvedBy release pipelineResult
  if pipelineResult.outcome = .rejected then
    turnAway env candidate .rejected pipelineResult suppressReject meters draw
  else
    match decision with
    | some decision =>
        holdCandidate env config meters candidate decision pipelineResult
          suppressReject draw
    | none =>
        if pipelineResult.outcome = .flagged ∧ releasedFlags = none then
          turnAway env candidate .flagged pipelineResult suppressReject meters
            draw
        else
          Curator.promoteCandidate env config meters candidate pipelineResult
            release releasedFlags minimum draw

/-- The gates and the policy, for a candidate that is no duplicate. -/
def governNovel (config : CuratorConfig) (meters : CuratorMeters)
    (candidate : MemoryCandidate) (existingHashes : Option (List String))
    (release : Option HoldRelease) (minimum : Option Sensitivity)
    (draw : Draw) : StoreM (CurationResult × CuratorMeters) :=
  let suppressReject :=
    config.dryRun || config.suppressRejectionReceipts || release.isSome
  match structuralRejection env candidate config.originSecret with
  | some pipelineResult =>
      turnAway env candidate .rejected pipelineResult suppressReject meters draw
  | none =>
      if requiresRegistrarMcpReview candidate ∧
          release.all (·.promotedBy.type ≠ .human) then
        pure
          (.turnedAway candidate .flagged
            (some
              { candidateId := candidate.id
                outcome := .flagged
                evaluations := []
                rejectedBy := none
                flaggedBy := some ["registrar_mcp_review_required"] })
            ("Registrar MCP proposals require explicit review before " ++
              "admission."), meters)
      else do
        let policy ← query fun store : Store =>
          enabledPolicy store config.tenantId
        let pipelineResult ← query fun store : Store =>
          evaluatePolicy env policy store config.tenantId candidate
            existingHashes minimum
        settle env config meters candidate policy pipelineResult release
          minimum suppressReject draw

namespace Curator

/-- Govern one candidate. -/
def processSingle (config : CuratorConfig) (meters : CuratorMeters)
    (candidate : MemoryCandidate) (existingHashes : Option (List String))
    (release : Option HoldRelease) (draw : Draw) :
    StoreM (CurationResult × CuratorMeters) := do
  let minimum ← resolveMinimum env candidate
  let duplicate ← query fun store : Store =>
    duplicateReason env config store candidate existingHashes
  match duplicate with
  | some reason =>
      pure (.turnedAway candidate .duplicate none reason, meters)
  | none =>
      governNovel env config meters candidate existingHashes release minimum
        draw

/-- The hashes known after a candidate of the batch. -/
def hashesAfter (hashes : List String) (candidate : MemoryCandidate)
    (outcome : CurationOutcome) : List String :=
  if outcome = .promoted then
    computeContentHash env candidate.content :: hashes
  else hashes

/-- The loop of a batch; each candidate comes with what it draws. -/
def processCandidates (config : CuratorConfig) :
    List (MemoryCandidate × Draw) → CuratorMeters → List String →
      List CurationResult → StoreM (List CurationResult × CuratorMeters)
  | [], meters, _, results => pure (results, meters)
  | (candidate, draw) :: rest, meters, hashes, results => do
      let (result, meters) ← processSingle env config meters candidate
        (some hashes) none draw
      processCandidates config rest meters
        (hashesAfter env hashes candidate result.outcome)
        (results ++ [result])

structure BatchResult where
  processed : Nat
  promoted : Nat
  rejected : Nat
  flagged : Nat
  duplicates : Nat
  held : Nat
  holdCapBlocked : Nat
  results : List CurationResult
  deriving DecidableEq

/-- The counts of a batch. -/
def tally (processed : Nat) (results : List CurationResult) : BatchResult :=
  let count (outcome : CurationOutcome) : Nat :=
    results.countP (·.outcome = outcome)
  { processed := processed
    promoted := count .promoted
    rejected := count .rejected
    flagged := count .flagged
    duplicates := count .duplicate
    held := count .held
    holdCapBlocked := results.countP fun result =>
      result.outcome = .flagged &&
        result.hold.any (·.status = .capReached)
    results := results }

def processBatch (config : CuratorConfig) (meters : CuratorMeters)
    (candidates : List (MemoryCandidate × Draw)) :
    StoreM (BatchResult × CuratorMeters) := do
  let hashes ← query fun store : Store =>
    MemoryRepository.getContentHashesByTenant store.curatedMemories
      config.tenantId
  let (results, meters) ← processCandidates env config candidates meters
    hashes []
  pure (tally candidates.length results, meters)

end Curator

end Registrar
