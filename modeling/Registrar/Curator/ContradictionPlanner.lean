import Registrar.Curator.VaultFiles
import Mathlib.Data.Sym.Sym2

/-!
# Planning of contradictions

The planner maps compiler advisories onto promoted memories.  Every advisory
becomes a proposal for review or is refused with the first reason that applies.
-/

namespace Registrar

structure CompilationLineage where
  workspaceId : String
  compilationId : String
  pagePath : String
  pageSha256 : String
  sourceIds : List String
  evidenceRef : String
  deriving DecidableEq, Repr

structure EndpointEmission where
  relativePath : String
  bodySha256 : String
  candidateId : String
  deriving DecidableEq, Repr

structure ContradictionEndpoint where
  workspaceId : String
  sourceId : String
  emission : EndpointEmission
  memory : CuratedMemory
  promotion : AuditEvent

structure ContradictionAdvisory where
  workspaceId : String
  compilationId : String
  pageSha256 : String
  sourcePair : String × String
  deriving DecidableEq, Repr

structure ExistingPair where
  sourceMemoryId : String
  targetMemoryId : String
  deriving DecidableEq, Repr

structure ContradictionPlannerInput where
  tenantId : String
  lineages : List CompilationLineage
  endpoints : List ContradictionEndpoint
  advisories : List ContradictionAdvisory
  existingPairs : List ExistingPair

inductive ContradictionRefusalCode where
  | malformedInput
  | missingLineage
  | ambiguousLineage
  | lineageMismatch
  | sourceNotAttributed
  | missingEndpoint
  | workspaceCollision
  | ambiguousEndpoint
  | endpointMismatch
  | crossTenant
  | inactiveEndpoint
  | selfLink
  | exactRestatement
  | duplicatePair
  deriving DecidableEq, Repr

structure EndpointEvidence where
  sourceId : String
  emission : EndpointEmission
  memoryId : String
  memoryVersion : Nat
  contentHash : String
  promotionEventId : String
  deriving DecidableEq, Repr

/-- A proposal to link two memories as contradicting, for review. -/
structure ContradictionProposal where
  tenantId : String
  sourceMemoryId : String
  targetMemoryId : String
  lineage : CompilationLineage
  sourcePair : String × String
  endpoints : List EndpointEvidence
  deriving DecidableEq, Repr

/-- No index stands for a malformed input. -/
structure ContradictionRefusal where
  advisoryIndex : Option Nat
  code : ContradictionRefusalCode
  deriving DecidableEq, Repr

structure ContradictionPlan where
  proposals : List ContradictionProposal
  refusals : List ContradictionRefusal
  deriving DecidableEq, Repr

namespace Contradictions

def text (value : String) : Bool :=
  decide (trim value ≠ "") && decide (Char.ofNat 0 ∉ value.toList)

/-- `^[a-f0-9]{64}$` -/
def hash (value : String) : Bool :=
  value.toList.length = 64 && value.toList.all fun char =>
    ('a' ≤ char && char ≤ 'f') || char.isDigit

def relativePath (value : String) : Bool :=
  text value && decide ('\\' ∉ value.toList) &&
    decide (value.toList.head? ≠ some '/') && decide (':' ∉ value.toList) &&
      (splitText '/' value).all fun part =>
        decide (part ≠ "") && decide (part ≠ ".") && decide (part ≠ "..")

def lineage (value : CompilationLineage) : Bool :=
  text value.workspaceId && text value.compilationId &&
    relativePath value.pagePath && hash value.pageSha256 &&
      text value.evidenceRef && value.sourceIds.all text &&
        decide value.sourceIds.Nodup

def advisory (value : ContradictionAdvisory) : Bool :=
  text value.workspaceId && text value.compilationId &&
    hash value.pageSha256 && text value.sourcePair.1 && text value.sourcePair.2

/-- The memory and the promotion are parsed by their schemas. -/
def endpoint (value : ContradictionEndpoint) : Bool :=
  text value.workspaceId && text value.sourceId &&
    relativePath value.emission.relativePath &&
      hash value.emission.bodySha256 && text value.emission.candidateId

def inputShape (value : ContradictionPlannerInput) : Bool :=
  text value.tenantId && value.lineages.all lineage &&
    value.endpoints.all endpoint && value.advisories.all advisory &&
      value.existingPairs.all fun pair =>
        text pair.sourceMemoryId && text pair.targetMemoryId

variable (env : Environment)

def pairKey (left right : String) : String :=
  Json.stringify
    (.array (([env.toLowerCase left, env.toLowerCase right].insertionSort
      (· ≤ ·)).map .string))

def endpointConsistent (value : ContradictionEndpoint) : Bool :=
  deriveCandidateId env value.workspaceId value.emission.relativePath
      value.emission.bodySha256 = value.emission.candidateId &&
    value.memory.candidateId = value.emission.candidateId &&
      computeContentHash env value.memory.content.value =
        value.memory.contentHash &&
      value.promotion.action = .promoted &&
      env.toLowerCase value.promotion.memoryId =
        env.toLowerCase value.memory.id &&
      value.promotion.tenantId = value.memory.tenantId &&
      value.promotion.detailText "candidateId" =
        some value.emission.candidateId

variable (input : ContradictionPlannerInput)

/-- The lineage of an advisory that names both of its sources. -/
def findLineage (item : ContradictionAdvisory) :
    Except ContradictionRefusalCode CompilationLineage :=
  match input.lineages.filter fun row =>
    row.workspaceId = item.workspaceId && row.compilationId = item.compilationId
  with
  | [] => .error .missingLineage
  | [row] =>
      if row.pageSha256 ≠ item.pageSha256 then .error .lineageMismatch
      else if item.sourcePair.1 ∉ row.sourceIds ∨
          item.sourcePair.2 ∉ row.sourceIds then
        .error .sourceNotAttributed
      else .ok row
  | _ :: _ :: _ => .error .ambiguousLineage

/-- The endpoint of a source, as the loop over the pair selects it. -/
def selectEndpoint (workspaceId sourceId : String) :
    Except ContradictionRefusalCode ContradictionEndpoint :=
  match input.endpoints.filter fun row =>
    row.workspaceId = workspaceId && row.sourceId = sourceId
  with
  | [] =>
      .error
        (if input.endpoints.any fun row => row.sourceId = sourceId then
          .workspaceCollision
        else .missingEndpoint)
  | [mapped] =>
      if !endpointConsistent env mapped then .error .endpointMismatch
      else if mapped.memory.tenantId.value ≠ input.tenantId then
        .error .crossTenant
      else if mapped.memory.lifecycle ≠ .active then .error .inactiveEndpoint
      else .ok mapped
  | _ :: _ :: _ => .error .ambiguousEndpoint

/-- The lineage and the two endpoints that an advisory would link. -/
structure Link where
  lineage : CompilationLineage
  left : ContradictionEndpoint
  right : ContradictionEndpoint

/-- Every check of an advisory but that against the pairs seen so far. -/
def link (item : ContradictionAdvisory) :
    Except ContradictionRefusalCode Link := do
  let lineage ← findLineage input item
  let left ← selectEndpoint env input item.workspaceId item.sourcePair.1
  let right ← selectEndpoint env input item.workspaceId item.sourcePair.2
  if env.toLowerCase left.memory.id = env.toLowerCase right.memory.id ∨
      left.sourceId = right.sourceId then
    throw .selfLink
  if trim left.memory.content.value = trim right.memory.content.value then
    throw .exactRestatement
  return { lineage := lineage
           left := left
           right := right }

def endpointEvidence (row : ContradictionEndpoint) : EndpointEvidence where
  sourceId := row.sourceId
  emission := row.emission
  memoryId := row.memory.id
  memoryVersion := row.memory.version
  contentHash := row.memory.contentHash
  promotionEventId := row.promotion.id

def proposal (item : ContradictionAdvisory) (link : Link) :
    ContradictionProposal where
  tenantId := input.tenantId
  sourceMemoryId := link.left.memory.id
  targetMemoryId := link.right.memory.id
  lineage := link.lineage
  sourcePair := item.sourcePair
  endpoints := [endpointEvidence link.left, endpointEvidence link.right]

/-- The outcome of one advisory, after the pairs seen so far. -/
def planAdvisory (seen : List String) (item : ContradictionAdvisory) :
    Except ContradictionRefusalCode ContradictionProposal := do
  let found ← link env input item
  if pairKey env found.left.memory.id found.right.memory.id ∈ seen then
    throw .duplicatePair
  return proposal input item found

def proposalKey (proposal : ContradictionProposal) : String :=
  pairKey env proposal.sourceMemoryId proposal.targetMemoryId

/-- The loop over the advisories, from the index of the first. -/
def planAdvisories : Nat → List String → List ContradictionAdvisory →
    ContradictionPlan
  | _, _, [] =>
      { proposals := []
        refusals := [] }
  | index, seen, item :: rest =>
      match planAdvisory env input seen item with
      | .error code =>
          let later := planAdvisories (index + 1) seen rest
          { later with
            refusals :=
              { advisoryIndex := some index
                code := code } :: later.refusals }
      | .ok proposed =>
          let later :=
            planAdvisories (index + 1) (proposalKey env proposed :: seen) rest
          { later with
            proposals := proposed :: later.proposals }

def existingKeys : List String :=
  input.existingPairs.map fun pair =>
    pairKey env pair.sourceMemoryId pair.targetMemoryId

def planContradictions : ContradictionPlan :=
  if inputShape input then
    planAdvisories env input 0 (existingKeys env input) input.advisories
  else
    { proposals := []
      refusals :=
        [{ advisoryIndex := none
           code := .malformedInput }] }

end Contradictions

end Registrar
