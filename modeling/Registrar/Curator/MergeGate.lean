import Registrar.Curator.Promoter
import Registrar.Library.KeyedUnion
import Mathlib.Data.String.Basic

/-!
# Govern-at-merge gate

The union of two clones' promoted rows is governed again from scratch, as
untrusted, in the order of the content-derived ids.
-/

namespace Registrar

open Program

inductive QuarantineCategory where
  | disclosure
  | policy
  deriving DecidableEq, Repr

structure QuarantinedRow where
  memoryId : String
  category : QuarantineCategory
  reason : String
  deriving DecidableEq, Repr

structure MergeGovernResult where
  promoted : List CuratedMemory
  quarantined : List QuarantinedRow
  unionSize : Nat
  deriving DecidableEq

structure MergeGovernOptions where
  policy : Option GovernancePolicy
  tenantId : String
  dryRun : Bool

/-- The schema input that strips what promotion added to a memory. -/
def untrustedProjection (memory : CuratedMemory) : MemoryCandidate where
  id := memory.candidateId
  status := .inbox
  source := memory.source
  content := memory.content.value
  title := memory.title.value
  category := memory.category
  trustLevel := .untrusted
  author := memory.author
  tenantId := memory.tenantId.value
  metadata := memory.metadata
  prePolicyFlags :=
    { potentialSecret := false
      lowConfidence := false
      duplicateSuspect := false }
  capturedAt := memory.promotedAt
  origin := none

@[simp]
theorem untrustedProjection_content (memory : CuratedMemory) :
    (untrustedProjection memory).content = memory.content.value :=
  rfl

def projectToUntrustedCandidate (memory : CuratedMemory) :
    Except SchemaIssue MemoryCandidate :=
  (untrustedProjection memory).parse

/-- The rows of both clones, one for each id, in id order. -/
def mergeUnion (rows : List CuratedMemory) : List CuratedMemory :=
  (KeyedUnion.union CuratedMemory.id rows).insertionSort fun left right =>
    left.id ≤ right.id

def mergeEpochMs : Int := 1767225600000

variable (env : Environment)

/-- The timestamp of the row at an index of the traversal. -/
def mergeClock (index : Nat) : String :=
  env.toISOString (mergeEpochMs + index)

/-- The id that the lineage of a row should have produced. -/
def expectedId (memory : CuratedMemory) : String :=
  deriveMemoryId env memory.candidateId memory.contentHash

/-- The error of the pass over the whole union before any promotion. -/
def mergeIdViolation (union : List CuratedMemory) : Option RegistrarError :=
  (union.find? fun memory => memory.id ≠ expectedId env memory).map
    fun memory => .mergeIdInvariant memory.id (expectedId env memory)

/-- The policy's decision on a row, or the reason for its quarantine. -/
def mergeDecision (options : MergeGovernOptions)
    (existingHashes : List String) (candidate : MemoryCandidate)
    (minimum : Option Sensitivity) : Except String PipelineResult :=
  match options.policy with
  | some policy =>
      let pipelineResult := PolicyPipeline.evaluate env policy candidate
        { minimumSensitivity := minimum
          existingHashes := some existingHashes
          tenantId := some options.tenantId
          getActiveMemoriesInCategory := none }
      if pipelineResult.outcome = .approved then .ok pipelineResult
      else
        .error ((pipelineResult.rejectedBy.or
          (pipelineResult.flaggedBy.map joinComma)).getD "flagged")
  | none =>
      if existingHashes.contains (computeContentHash env candidate.content)
      then .error "duplicate-content"
      else
        .ok
          { candidateId := candidate.id
            outcome := .approved
            evaluations := []
            rejectedBy := none
            flaggedBy := none }

/-- The variables of the loop. -/
structure MergeProgress where
  existingHashes : List String
  promoted : List CuratedMemory
  quarantined : List QuarantinedRow

def MergeProgress.quarantine (progress : MergeProgress)
    (row : QuarantinedRow) : MergeProgress :=
  { progress with quarantined := progress.quarantined ++ [row] }

def MergeProgress.promote (progress : MergeProgress) (memory : CuratedMemory)
    (contentHash : String) : MergeProgress :=
  { progress with
    promoted := progress.promoted ++ [memory]
    existingHashes := contentHash :: progress.existingHashes }

/-- The promotion of a survivor, without supersessions. -/
def mergePromotion (candidate : MemoryCandidate)
    (minimum : Option Sensitivity) (pipelineResult : PipelineResult) :
    PromotionInput where
  candidate := candidate
  contentHash := computeContentHash env candidate.content
  minimumSensitivity := minimum
  pipelineResult := pipelineResult
  supersessions := []
  promotedBy := none
  promotionReason := none
  humanResolvedFlags := []

/-- What happens to a row that passed the disclosure gate. -/
def governCleared (options : MergeGovernOptions) (index : Nat)
    (memoryId : String) (candidate : MemoryCandidate)
    (progress : MergeProgress) : StoreM MergeProgress := do
  let minimum ← resolveMinimum env candidate
  match mergeDecision env options progress.existingHashes candidate minimum
  with
  | .error reason =>
      pure (progress.quarantine
        { memoryId := memoryId
          category := .policy
          reason := reason })
  | .ok pipelineResult =>
      let memory ← promote env
        (mergePromotion env candidate minimum pipelineResult)
        options.dryRun false (mergeClock env index)
      pure (progress.promote memory
        (computeContentHash env candidate.content))

/-- The body of the loop for one projected row. -/
def governCandidate (options : MergeGovernOptions) (index : Nat)
    (memoryId : String) (candidate : MemoryCandidate)
    (progress : MergeProgress) : StoreM MergeProgress :=
  match disclosureViolation env candidate with
  | some category =>
      pure (progress.quarantine
        { memoryId := memoryId
          category := .disclosure
          reason := category.text })
  | none => governCleared env options index memoryId candidate progress

/-- The loop over the rest of the union, from an index on. -/
def governUnion (options : MergeGovernOptions) :
    Nat → List CuratedMemory → MergeProgress → StoreM MergeProgress
  | _, [], progress => pure progress
  | index, memory :: rest, progress => do
      let candidate ← orSchemaError (projectToUntrustedCandidate memory)
      let progress ← governCandidate env options index memory.id candidate
        progress
      governUnion options (index + 1) rest progress

/-- The pass over a union whose ids have been checked. -/
def governRows (options : MergeGovernOptions) (union : List CuratedMemory) :
    StoreM MergeGovernResult := do
  let existingHashes ← query fun store : Store =>
    MemoryRepository.getAllContentHashes store.curatedMemories
  let progress ← governUnion env options 0 union
    { existingHashes := existingHashes
      promoted := []
      quarantined := [] }
  pure
    { promoted := progress.promoted
      quarantined := progress.quarantined
      unionSize := union.length }

def mergeGovern (cloneA cloneB : List CuratedMemory)
    (options : MergeGovernOptions) : StoreM MergeGovernResult :=
  let union := mergeUnion (cloneA ++ cloneB)
  match mergeIdViolation env union with
  | some error => throw error
  | none => governRows env options union

/-- An N-way merge: all clones but the last make one side of a single pass. -/
def mergeGovernFold (clones : List (List CuratedMemory))
    (options : MergeGovernOptions) : StoreM MergeGovernResult :=
  match clones.getLast? with
  | none => throw .emptyMergeFold
  | some sideB => mergeGovern env clones.dropLast.flatten sideB options

theorem projectToUntrustedCandidate_eq (memory : CuratedMemory) :
    projectToUntrustedCandidate memory = .ok (untrustedProjection memory) := by
  have content := memory.content.trimmed
  have title := memory.title.trimmed
  have tenantId := memory.tenantId.trimmed
  have trusted : (untrustedProjection memory).BulkTrustLow := .inr (.inr rfl)
  simp [projectToUntrustedCandidate, MemoryCandidate.parse,
    untrustedProjection, content, title, tenantId, memory.content.nonempty,
    memory.title.nonempty, memory.tenantId.nonempty,
    MemoryCandidate.BulkTrustLow]

/-- An active row with the given texts, as a promotion leaves it. -/
def sampleMemory (candidateId : String) (content title : NonEmptyString) :
    CuratedMemory where
  id := deriveMemoryId env candidateId (computeContentHash env content.value)
  candidateId := candidateId
  source := .manual
  content := content
  title := title
  category := .convention
  trustLevel := .high
  sensitivity := .public_
  author := curatorActor
  tenantId := ⟨"team", trim_team, team_nonempty⟩
  metadata :=
    { filePaths := []
      language := none
      projectContext := none
      sessionId := none
      repoUrl := none
      branch := none
      confidence := none
      sensitivity := none
      tags := []
      subjects := none
      proposedByRole := none
      audience := none }
  lifecycle := .active
  contentHash := computeContentHash env content.value
  policyEvaluations := []
  supersession := none
  promotedAt := "0"
  promotedBy := curatorActor
  updatedAt := "0"
  version := 1
  supersededHasLink := active_hasLink

def openMergeOptions : MergeGovernOptions where
  policy := none
  tenantId := "team"
  dryRun := false

end Registrar
