import Registrar.Common.Snapshots
import Registrar.Library.IsoTime
import Registrar.Store.AuditVerify
import Registrar.Store.Store

/-!
# Reviewed staleness

A reviewed manifest deprecates or reactivates the memories that it selects.
Everything is checked against the review and written in one transaction, and a
manifest that was settled before is only verified again.
-/

namespace Registrar

open Program

inductive SourceVisibility where
  | public_
  | private_
  deriving DecidableEq, Repr

def SourceVisibility.text : SourceVisibility → String
  | .public_ => "public"
  | .private_ => "private"

structure StalenessSource where
  repository : String
  path : String
  revision : String
  sha256 : String
  visibility : SourceVisibility
  locator : String
  deriving DecidableEq

def StalenessSource.json (source : StalenessSource) : Json :=
  .object
    [("repository", .string source.repository),
      ("path", .string source.path),
      ("revision", .string source.revision),
      ("sha256", .string source.sha256),
      ("visibility", .string source.visibility.text),
      ("locator", .string source.locator)]

inductive AuthorityBasis where
  | historicalDecision
  | documentedTopology
  deriving DecidableEq, Repr

def AuthorityBasis.text : AuthorityBasis → String
  | .historicalDecision => "historical-decision"
  | .documentedTopology => "documented-topology"

structure StalenessAuthority where
  basis : AuthorityBasis
  effectiveDate : String
  sources : List StalenessSource
  limitations : String
  deriving DecidableEq

def StalenessAuthority.json (authority : StalenessAuthority) : Json :=
  .object
    [("basis", .string authority.basis.text),
      ("scope", .string "intent-solutions-estate"),
      ("effectiveDate", .string authority.effectiveDate),
      ("authentication", .string "unsigned-record"),
      ("currentness", .string "not-revalidated"),
      ("sources", .array (authority.sources.map StalenessSource.json)),
      ("limitations", .string authority.limitations)]

inductive StalenessRemedy where
  | metadataReview
  | retirementReview
  deriving DecidableEq, Repr

def StalenessRemedy.text : StalenessRemedy → String
  | .metadataReview => "metadata-review"
  | .retirementReview => "retirement-review"

structure StalenessRule where
  id : String
  because : String
  tokens : List String
  exemptIfHistorical : Bool
  remedy : StalenessRemedy
  authority : Option StalenessAuthority
  deriving DecidableEq

def StalenessRule.json (rule : StalenessRule) : Json :=
  .object
    [("id", .string rule.id),
      ("because", .string rule.because),
      ("tokens", jsonTexts rule.tokens),
      ("exemptIfHistorical", .bool rule.exemptIfHistorical),
      ("remedy", .string rule.remedy.text),
      ("authority", (rule.authority.map StalenessAuthority.json).getD .null)]

inductive AssessmentScope where
  | intentSolutionsEstate
  | external
  | unresolved
  deriving DecidableEq, Repr

def AssessmentScope.text : AssessmentScope → String
  | .intentSolutionsEstate => "intent-solutions-estate"
  | .external => "external"
  | .unresolved => "unresolved"

inductive StalenessOperation where
  | deprecate
  | reactivate
  deriving DecidableEq, Repr

def StalenessOperation.text : StalenessOperation → String
  | .deprecate => "deprecate"
  | .reactivate => "reactivate"

def StalenessOperation.source : StalenessOperation → MemoryLifecycleState
  | .deprecate => .active
  | .reactivate => .deprecated

def StalenessOperation.target : StalenessOperation → MemoryLifecycleState
  | .deprecate => .deprecated
  | .reactivate => .active

def StalenessOperation.action : StalenessOperation → AuditAction
  | .deprecate => .demoted
  | .reactivate => .promoted

/-- A record and the digest under which it was reviewed. -/
structure SnapshotBinding where
  id : String
  snapshotDigest : String
  deriving DecidableEq

def SnapshotBinding.json (binding : SnapshotBinding) : Json :=
  .object
    [("id", .string binding.id),
      ("snapshotDigest", .string binding.snapshotDigest)]

structure ReviewedStalenessSelection where
  memoryId : String
  snapshotDigest : String
  storedRowDigest : String
  ruleId : String
  ruleDigest : String
  scope : AssessmentScope
  scopeEvidenceRef : String
  deprecationReceipt : Option SnapshotBinding
  deriving DecidableEq

def ReviewedStalenessSelection.json (selection : ReviewedStalenessSelection) :
    Json :=
  .object
    ([("memoryId", .string selection.memoryId),
        ("snapshotDigest", .string selection.snapshotDigest),
        ("storedRowDigest", .string selection.storedRowDigest),
        ("ruleId", .string selection.ruleId),
        ("ruleDigest", .string selection.ruleDigest),
        ("scope", .string selection.scope.text),
        ("scopeEvidenceRef", .string selection.scopeEvidenceRef)] ++
      Json.optionalField "deprecationReceipt"
        (selection.deprecationReceipt.map SnapshotBinding.json))

/-- The roles that may sign a review. -/
inductive ReviewerRole where
  | admin
  | owner
  deriving DecidableEq, Repr

def ReviewerRole.text : ReviewerRole → String
  | .admin => "admin"
  | .owner => "owner"

def ReviewerRole.reader : ReviewerRole → ReaderRole
  | .admin => .admin
  | .owner => .owner

/-- A manifest that its schema accepted. -/
structure ReviewedStalenessManifest where
  runId : String
  tenantId : NonEmptyString
  operation : StalenessOperation
  actor : Author
  role : ReviewerRole
  reason : String
  reviewedAt : String
  selections : List ReviewedStalenessSelection
  human : actor.type = .human
  selected : selections ≠ [] ∧ selections.length ≤ 100
  distinct : (selections.map ReviewedStalenessSelection.memoryId).Nodup
  reversals : ∀ selection ∈ selections,
    selection.deprecationReceipt.isSome ↔ operation = .reactivate

def ReviewedStalenessManifest.json (manifest : ReviewedStalenessManifest) :
    Json :=
  .object
    [("version", .number "1"),
      ("runId", .string manifest.runId),
      ("tenantId", .string manifest.tenantId.value),
      ("operation", .string manifest.operation.text),
      ("actor", manifest.actor.json),
      ("role", .string manifest.role.text),
      ("reason", .string manifest.reason),
      ("reviewedAt", .string manifest.reviewedAt),
      ("selections",
        .array (manifest.selections.map ReviewedStalenessSelection.json))]

structure ReviewedStalenessDependencies where
  sourceBytes : StalenessSource → Option String
  rules : List StalenessRule
  /-- The detector reports the memory under this rule, once and as a candidate
  for retirement, given the scope and the evidence of the selection. -/
  retirementCandidate :
    CuratedMemory → StalenessRule → AssessmentScope → String → Bool
  now : String

structure ReviewedStalenessResult where
  runReceiptId : String
  transitionReceiptIds : List String
  replay : Bool
  deriving DecidableEq

def runKind : String := "reviewed-staleness-run-v1"

def transitionKind : String := "reviewed-staleness-transition-v1"

/-- A lowercase hexadecimal text of this length. -/
def isLowerHex (length : Nat) (text : String) : Bool :=
  text.length = length &&
    text.toList.all fun char => char.isDigit || ('a' ≤ char && char ≤ 'f')

variable (env : Environment)

/-- The chain has neither a break nor a row without a hash. -/
def isStrictChain (log : AuditLog) : Bool :=
  let result := verifyAuditChain env.sha256
    (findAllChronological (log.rows.map AuditRecord.columns))
  result.breaks.isEmpty && result.unverifiedRows = 0

def strictChain : StoreM PUnit := do
  let strict ← query fun store : Store => isStrictChain env store.auditEvents
  ensure (strict = true)
    (.error "Reviewed staleness requires a strictly verified audit chain")

def checkSource (deps : ReviewedStalenessDependencies)
    (source : StalenessSource) : Except RegistrarError PUnit :=
  if !isLowerHex 40 source.revision || !isLowerHex 64 source.sha256 ||
      trim source.repository = "" || trim source.path = "" ||
      trim source.locator = "" then
    .error (.error "Malformed staleness source reference")
  else if (deps.sourceBytes source).map env.sha256 ≠ some source.sha256 then
    .error
      (.error "Required staleness source bytes are unavailable or changed")
  else .ok ⟨⟩

/-- The rule that a selection names, with all its sources at hand. -/
def requireRule (deps : ReviewedStalenessDependencies)
    (selection : ReviewedStalenessSelection) :
    Except RegistrarError StalenessRule :=
  match deps.rules.filter (·.id = selection.ruleId) with
  | [rule] =>
      match rule.authority with
      | none =>
          .error (.error "Missing, changed or ineligible staleness rule")
      | some authority =>
          if stalenessDigest env rule.json ≠ selection.ruleDigest ∨
              rule.remedy ≠ .retirementReview ∨
              rule.exemptIfHistorical = false ∨ authority.sources = [] then
            .error (.error "Missing, changed or ineligible staleness rule")
          else do
            authority.sources.forM (checkSource env deps)
            pure rule
  | _ => .error (.error "Missing, changed or ineligible staleness rule")

/-- Run a check inside a program. -/
def orError {Value : Type} : Except RegistrarError Value → StoreM Value
  | .ok value => pure value
  | .error error => throw error

section Manifest

variable (manifest : ReviewedStalenessManifest)
variable (deps : ReviewedStalenessDependencies)

def manifestDigest : String :=
  stalenessDigest env manifest.json

def receiptById (memoryId id : String) : StoreM AuditEvent := do
  let found ← query fun store : Store =>
    (AuditRepository.findByMemoryAndTenant store.auditEvents memoryId
      manifest.tenantId.value).find? (·.id = id)
  match found with
  | none => throw (.error "Required staleness receipt is missing")
  | some event => pure event

def currentMemory (id : String) : StoreM CuratedMemory := do
  let found ← query fun store : Store => store.curatedMemories.find? id
  match found with
  | none =>
      throw
        (.error "Selected memory is unavailable within reviewed authority")
  | some memory => do
      ensure (memory.tenantId = manifest.tenantId ∧
          isAudienceVisibleToRole memory.metadata.audience
            manifest.role.reader = true)
        (.error "Selected memory is unavailable within reviewed authority")
      pure memory

/-- An outcome of a run names this deprecation of the memory. -/
def namesOutcome (memoryId receiptId receiptDigest : String) : Json → Bool
  | .object fields =>
      let text (name : String) : Option String :=
        match Json.field? fields name with
        | some (.string value) => some value
        | _ => none
      text "memoryId" = some memoryId && text "receiptId" = some receiptId &&
        text "receiptDigest" = some receiptDigest
  | _ => false

/-- The run receipts under this id. -/
def runReceipts (runId : String) (store : Store) : List AuditEvent :=
  (AuditRepository.findByMemoryAndTenant store.auditEvents runId
    manifest.tenantId.value).filter (·.detailText "kind" = some runKind)

/-- The run that wrote a deprecation settled it. -/
def settledByRun (runs : List AuditEvent) (memoryId : String)
    (deprecation : AuditEvent) (receiptDigest : String) : Bool :=
  match runs with
  | [run] =>
      run.action = .governed &&
        run.detailText "manifestDigest" =
          deprecation.detailText "manifestDigest" &&
        match Json.field? run.details "outcomes" with
        | some (.array outcomes) =>
            outcomes.any (namesOutcome memoryId deprecation.id receiptDigest)
        | _ => false
  | _ => false

def priorDeprecation (selection : ReviewedStalenessSelection) :
    StoreM PUnit :=
  match selection.deprecationReceipt with
  | none =>
      throw
        (.error "Reactivation requires its reviewed deprecation receipt")
  | some binding => do
      let event ← receiptById manifest selection.memoryId binding.id
      ensure (auditEventSnapshotDigest env event = binding.snapshotDigest ∧
          event.action = .demoted ∧
          event.detailText "kind" = some transitionKind ∧
          event.detailText "operation" = some "deprecate" ∧
          event.detailText "ruleId" = some selection.ruleId ∧
          event.detailText "ruleDigest" = some selection.ruleDigest)
        (.error "Reactivation deprecation evidence differs from its review")
      match event.detailText "runId" with
      | none => throw (.error "Deprecation run identity is missing")
      | some runId => do
          let settled ← query fun store : Store =>
            settledByRun (runReceipts manifest runId store) selection.memoryId
              event binding.snapshotDigest
          ensure (settled = true)
            (.error "Deprecation run settlement is missing or changed")

/-- The memory as it was reviewed. -/
def reviewSelection (selection : ReviewedStalenessSelection)
    (rule : StalenessRule) : StoreM CuratedMemory := do
  let memory ← currentMemory manifest selection.memoryId
  ensure (memory.lifecycle = manifest.operation.source ∧
      memorySnapshotDigest env memory = selection.snapshotDigest ∧
      stalenessDigest env memory.storedRow = selection.storedRowDigest)
    (.error "Selected memory is no longer its complete reviewed snapshot")
  match manifest.operation with
  | .reactivate => do
      priorDeprecation env manifest selection
      pure memory
  | .deprecate => do
      ensure (deps.retirementCandidate memory rule selection.scope
          selection.scopeEvidenceRef = true)
        (.error "Reviewed selection is not a staleness retirement candidate")
      pure memory

def stalenessEventId (memoryId : String) (action : AuditAction) : String :=
  deriveAuditEventId env memoryId action.text
    (stalenessDigest env (.object
      [("kind", .string transitionKind),
        ("tenantId", .string manifest.tenantId.value),
        ("runId", .string manifest.runId),
        ("manifestDigest", .string (manifestDigest env manifest))]))

/-- The memory after its reviewed transition. -/
def CuratedMemory.reviewed (memory : CuratedMemory)
    (operation : StalenessOperation) (now : String) : CuratedMemory :=
  { memory with
    lifecycle := operation.target
    updatedAt := now
    supersededHasLink := by cases operation <;> simp [StalenessOperation.target] }

def transitionReceipt (selection : ReviewedStalenessSelection)
    (rule : StalenessRule) (now : String) (memory : CuratedMemory) :
    AuditEventInput where
  id := stalenessEventId env manifest memory.id manifest.operation.action
  action := manifest.operation.action
  memoryId := memory.id
  tenantId := manifest.tenantId.value
  actor := manifest.actor
  reason := some "Reviewed staleness lifecycle change"
  details :=
    let after := CuratedMemory.reviewed memory manifest.operation now
    let sources := (rule.authority.map StalenessAuthority.sources).getD []
    [("kind", .string transitionKind),
        ("operation", .string manifest.operation.text),
        ("runId", .string manifest.runId),
        ("manifestDigest", .string (manifestDigest env manifest)),
        ("ruleId", .string rule.id),
        ("ruleDigest", .string selection.ruleDigest),
        ("sourceDigests",
          jsonTexts (sources.map fun source =>
            stalenessDigest env source.json)),
        ("scopeDigest",
          .string (stalenessDigest env (.object
            [("scope", .string selection.scope.text),
              ("evidenceRef", .string selection.scopeEvidenceRef)]))),
        ("reviewReasonDigest",
          .string (stalenessDigest env (.string manifest.reason))),
        ("beforeUpdatedAt", .string memory.updatedAt),
        ("from", .string memory.lifecycle.text),
        ("to", .string manifest.operation.target.text),
        ("beforeDigest", .string selection.snapshotDigest),
        ("storedBeforeDigest", .string selection.storedRowDigest),
        ("afterDigest", .string (memorySnapshotDigest env after)),
        ("storedAfterDigest",
          .string (stalenessDigest env after.storedRow))] ++
      Json.optionalField "deprecationReceipt"
        (selection.deprecationReceipt.map SnapshotBinding.json)
  timestamp := now

/-- A memory and its receipt as a settlement leaves them. -/
structure StalenessWitness where
  memory : CuratedMemory
  receipt : AuditEvent

def buildTransition (selection : ReviewedStalenessSelection)
    (rule : StalenessRule) (now : String) (memory : CuratedMemory) :
    StoreM StalenessWitness := do
  let receipt ← orSchemaError (AuditEvent.parse
    (transitionReceipt env manifest selection rule now memory))
  pure
    { memory := CuratedMemory.reviewed memory manifest.operation now
      receipt := receipt }

def settleTransition (now : String)
    (item : ReviewedStalenessSelection × StalenessRule) :
    StoreM StalenessWitness := do
  let memory ← reviewSelection env manifest deps item.1 item.2
  let witness ← buildTransition env manifest item.1 item.2 now memory
  let written ← MemoryRepository.updateLifecycle witness.memory.id
    witness.memory.lifecycle now
  ensure (written = true) (.error "Lifecycle write was not persisted")
  AuditRepository.insert env witness.receipt
  pure witness

def verifyWitness (witness : StalenessWitness) : StoreM PUnit := do
  let memory ← currentMemory manifest witness.memory.id
  let receipt ← receiptById manifest witness.memory.id witness.receipt.id
  ensure (memory = witness.memory ∧
      receipt.json.canonical = witness.receipt.json.canonical)
    (.error "Staleness state or receipt changed during settlement")

def runReceipt (now : String) (witnesses : List StalenessWitness) :
    AuditEventInput where
  id := stalenessEventId env manifest manifest.runId .governed
  action := .governed
  memoryId := manifest.runId
  tenantId := manifest.tenantId.value
  actor := manifest.actor
  reason := some "Reviewed finite staleness settlement"
  details :=
    [("kind", .string runKind),
      ("manifestDigest", .string (manifestDigest env manifest)),
      ("operation", .string manifest.operation.text),
      ("reviewedAt", .string manifest.reviewedAt),
      ("role", .string manifest.role.text),
      ("reviewReasonDigest",
        .string (stalenessDigest env (.string manifest.reason))),
      ("outcomes",
        .array (witnesses.map fun witness =>
          .object
            [("memoryId", .string witness.memory.id),
              ("receiptId", .string witness.receipt.id),
              ("receiptDigest",
                .string (auditEventSnapshotDigest env witness.receipt))]))]
  timestamp := now

/-- The memory before the settlement that is replayed. -/
def CuratedMemory.beforeReview (memory : CuratedMemory)
    (operation : StalenessOperation) (updatedAt : String) : CuratedMemory :=
  { memory with
    lifecycle := operation.source
    updatedAt := updatedAt
    supersededHasLink := by cases operation <;> simp [StalenessOperation.source] }

def replayWitness (now : String)
    (item : ReviewedStalenessSelection × StalenessRule) :
    StoreM StalenessWitness := do
  let selection := item.1
  let memory ← currentMemory manifest selection.memoryId
  let receipt ← receiptById manifest memory.id
    (stalenessEventId env manifest memory.id manifest.operation.action)
  match receipt.detailText "beforeUpdatedAt" with
  | none => throw (.error "Staleness replay has changed lifecycle or receipt")
  | some beforeUpdatedAt => do
      ensure (memory.lifecycle = manifest.operation.target)
        (.error "Staleness replay has changed lifecycle or receipt")
      let before := CuratedMemory.beforeReview memory manifest.operation
        beforeUpdatedAt
      ensure (memorySnapshotDigest env before = selection.snapshotDigest ∧
          stalenessDigest env before.storedRow = selection.storedRowDigest)
        (.error "Staleness replay has changed reviewed content or metadata")
      when (manifest.operation = .reactivate)
        (priorDeprecation env manifest selection)
      let witness ← buildTransition env manifest selection item.2 now before
      verifyWitness manifest witness
      pure witness

/-- A run that was settled before is verified. -/
def replayRun (previous : AuditEvent)
    (items : List (ReviewedStalenessSelection × StalenessRule)) :
    StoreM ReviewedStalenessResult := do
  let witnesses ← items.mapM
    (replayWitness env manifest previous.timestamp)
  let receipt ← orSchemaError (AuditEvent.parse
    (runReceipt env manifest previous.timestamp witnesses))
  ensure (receipt.json.canonical = previous.json.canonical)
    (.error "Staleness replay run receipt differs")
  pure
    { runReceiptId := previous.id
      transitionReceiptIds := witnesses.map fun witness => witness.receipt.id
      replay := true }

/-- The execution is not earlier than the review. -/
def checkReviewTime : StoreM PUnit := do
  ensure (IsoTime.instant? deps.now ≠ none)
    (.schema { path := "", message := "Invalid ISO datetime" })
  ensure
    (∀ now ∈ env.dateParse deps.now,
      ∀ reviewed ∈ env.dateParse manifest.reviewedAt, reviewed ≤ now)
    (.error "Review timestamp is later than execution")

def settleRun
    (items : List (ReviewedStalenessSelection × StalenessRule)) :
    StoreM ReviewedStalenessResult := do
  items.forM fun item => do
    let _ ← reviewSelection env manifest deps item.1 item.2
    pure ⟨⟩
  checkReviewTime env manifest deps
  let witnesses ← items.mapM (settleTransition env manifest deps deps.now)
  let receipt ← orSchemaError (AuditEvent.parse
    (runReceipt env manifest deps.now witnesses))
  AuditRepository.insert env receipt
  witnesses.forM (verifyWitness manifest)
  let persisted ← receiptById manifest manifest.runId receipt.id
  ensure (persisted.json.canonical = receipt.json.canonical)
    (.error "Staleness run receipt was not persisted")
  strictChain env
  pure
    { runReceiptId := receipt.id
      transitionReceiptIds := witnesses.map fun witness => witness.receipt.id
      replay := false }

/-- The selections with their rules. -/
def requireRules :
    Except RegistrarError (List (ReviewedStalenessSelection × StalenessRule)) :=
  manifest.selections.mapM fun selection => do
    let rule ← requireRule env deps selection
    pure (selection, rule)

/-- The body of the transaction. -/
def settleStaleness : StoreM ReviewedStalenessResult := do
  strictChain env
  let items ← orError (requireRules env manifest deps)
  let runs ← query fun store : Store =>
    runReceipts manifest manifest.runId store
  match runs with
  | [] => settleRun env manifest deps items
  | [previous] => do
      ensure (previous.detailText "manifestDigest" =
          some (manifestDigest env manifest))
        (.error "Staleness run has a different reviewed manifest")
      replayRun env manifest previous items
  | _ => throw (.error "Staleness run has a different reviewed manifest")

end Manifest

/-- A manifest is its parsed value or the schema's complaint. -/
def settleReviewedStaleness (value : Except String ReviewedStalenessManifest)
    (expectedDigest : String) (deps : ReviewedStalenessDependencies) :
    StoreM ReviewedStalenessResult :=
  match value with
  | .error complaint => throw (.error complaint)
  | .ok manifest => do
      ensure (manifestDigest env manifest = expectedDigest)
        (.error "Staleness manifest differs from independent review digest")
      transaction (settleStaleness env manifest deps)

end Registrar
