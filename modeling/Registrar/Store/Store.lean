import Registrar.Common.Environment
import Registrar.Library.Program
import Registrar.Store.AuditRepository

/-!
# The store

The tables of one database and the repositories over them.  Repository methods
are programs over a store; `transaction` undoes the writes of one that throws.
-/

namespace Registrar

open Program

/-- A stored audit event with its chain columns. -/
structure AuditRecord where
  event : AuditEvent
  entryHash : Option String
  prevEntryHash : Option String
  hashVersion : Option Int
  seq : Option Int

/-- The columns of the record as the chain verifiers read them. -/
def AuditRecord.columns (record : AuditRecord) : AuditChainRow where
  id := record.event.id
  action := record.event.action.text
  memoryId := record.event.memoryId
  tenantId := record.event.tenantId.value
  actorJson := record.event.actor.json.stringify
  reason := record.event.reason.map NonEmptyString.value
  detailsJson := (Json.object record.event.details).stringify
  timestamp := record.event.timestamp
  entryHash := record.entryHash
  prevEntryHash := record.prevEntryHash
  hashVersion := record.hashVersion
  seq := record.seq

def AuditRecordsCoexist (left right : AuditRecord) : Prop :=
  AuditRowsCoexist left.columns right.columns

instance : DecidableRel AuditRecordsCoexist :=
  fun left right =>
    inferInstanceAs (Decidable (AuditRowsCoexist left.columns right.columns))

abbrev AuditLog := Table AuditRecordsCoexist

/-- A candidate as it is stored, with the hash recorded at its insertion or
last redaction. -/
structure CandidateRow where
  candidate : MemoryCandidate
  contentHash : String
  importBatchId : Option String
  deriving DecidableEq

def CandidateRow.id (row : CandidateRow) : String := row.candidate.id

structure MemoryLink where
  id : String
  sourceMemoryId : String
  targetMemoryId : String
  linkType : LinkType
  weight : ℚ
  createdBy : String
  source : LinkSource
  importBatchId : Option String
  createdAt : String
  deriving DecidableEq

def MemoryLinksCoexist (left right : MemoryLink) : Prop :=
  left.id ≠ right.id ∧
    ¬(left.sourceMemoryId = right.sourceMemoryId ∧
      left.targetMemoryId = right.targetMemoryId ∧
      left.linkType = right.linkType)

instance : DecidableRel MemoryLinksCoexist :=
  fun _ _ => inferInstanceAs (Decidable (_ ∧ ¬(_ ∧ _ ∧ _)))

inductive ImportBatchStatus where
  | active
  | completed
  | rolledBack
  deriving DecidableEq, Repr

/-- One import of candidates, which can be rolled back. -/
structure ImportBatch where
  id : String
  tenantId : String
  sourcePath : Option String
  fileCount : Nat
  createdCount : Nat
  rejectedCount : Nat
  skippedCount : Nat
  status : ImportBatchStatus
  createdAt : String
  rolledBackAt : Option String
  deriving DecidableEq

abbrev MemoryTable := Table (Table.DistinctKey CuratedMemory.id)

abbrev CandidateTable := Table (Table.DistinctKey CandidateRow.id)

abbrev PolicyTable := Table (Table.DistinctKey GovernancePolicy.id)

abbrev ImportBatchTable := Table (Table.DistinctKey ImportBatch.id)

structure Store where
  candidates : CandidateTable
  curatedMemories : MemoryTable
  governancePolicies : PolicyTable
  memoryLinks : Table MemoryLinksCoexist
  importBatches : ImportBatchTable
  auditEvents : AuditLog

def Store.empty : Store where
  candidates := .empty
  curatedMemories := .empty
  governancePolicies := .empty
  memoryLinks := .empty
  importBatches := .empty
  auditEvents := .empty

/-- Why the intake of a candidate is refused. -/
inductive IntakeRefusal where
  | invalid
  | disallowed
  deriving DecidableEq, Repr

inductive RegistrarError where
  | sqlite (error : SqliteError)
  | schema (issue : SchemaIssue)
  | disclosureRejected (category : DisclosureCategory)
  | redactedContentReingest
  | invalidLifecycleTransition (source target : MemoryLifecycleState)
  | invalidSupersession (message : String)
  | mergeIdInvariant (actualId expectedId : String)
  | emptyMergeFold
  | candidateIntake (kind : IntakeRefusal) (message : String)
      (code : Option String)
  | api (statusCode : Nat) (message : String) (code : Option String)
  | error (message : String)
  deriving DecidableEq

def InvalidLifecycleTransitionError.message
    (source target : MemoryLifecycleState) : String :=
  "Invalid lifecycle transition: \"" ++ source.text ++ "\" -> \"" ++
    target.text ++ "\" is not allowed"

def EmptyMergeFoldError.message : String :=
  "mergeGovernFold requires at least one clone; received an empty list."

abbrev StoreM := EStateM RegistrarError Store

/-- Run a schema check inside a program. -/
def orSchemaError {Value : Type} : Except SchemaIssue Value → StoreM Value
  | .ok value => pure value
  | .error issue => throw (.schema issue)

variable (env : Environment)

/-- What a caller passes to the audit event schema. -/
structure AuditEventInput where
  id : String
  action : AuditAction
  memoryId : String
  tenantId : String
  actor : Author
  reason : Option String
  details : List (String × Json)
  timestamp : String

/-- `AuditEvent.parse`: the tenant and the reason are trimmed. -/
def AuditEvent.parse (input : AuditEventInput) :
    Except SchemaIssue AuditEvent := do
  let tenantId ← parseNonEmpty "tenantId" input.tenantId
  let reason ← input.reason.mapM (parseNonEmpty "reason")
  return { id := input.id
           action := input.action
           memoryId := input.memoryId
           tenantId := tenantId
           actor := input.actor
           reason := reason
           details := input.details
           timestamp := input.timestamp }

/-- The record that the append transaction adds for an event. -/
def appendedRecord (log : AuditLog) (event : AuditEvent) : AuditRecord :=
  let row := appendedRow env.sha256 (log.rows.map AuditRecord.columns)
    (appendParams event.raw)
  { event := event
    entryHash := row.entryHash
    prevEntryHash := row.prevEntryHash
    hashVersion := row.hashVersion
    seq := row.seq }

theorem appendedRecord_columns (env : Environment) (log : AuditLog)
    (event : AuditEvent) :
    (appendedRecord env log event).columns =
      appendedRow env.sha256 (log.rows.map AuditRecord.columns)
        (appendParams event.raw) := by
  simp [AuditRecord.columns, appendedRecord, appendedRow, canonicalAppendRow,
    AuditRowStrings.stored, appendParams, AuditEvent.raw, Function.comp_def]

namespace AuditRepository

def insert (event : AuditEvent) : StoreM PUnit := fun store =>
  match store.auditEvents.insert? (appendedRecord env store.auditEvents event)
  with
  | some next => .ok ⟨⟩ { store with auditEvents := next }
  | none =>
      if store.auditEvents.rows.any (·.event.id = event.id) then
        .error (.sqlite (.uniqueConstraint "audit_events.id")) store
      else .error (.sqlite (.uniqueConstraint "audit_events.seq")) store

/-- Check an event against its schema and insert it. -/
def record (input : AuditEventInput) : StoreM PUnit := do
  let event ← orSchemaError (AuditEvent.parse input)
  insert env event

/-- The records in walking order, by write-order key. -/
def chronological (log : AuditLog) : List AuditRecord :=
  log.rows.insertionSort fun left right =>
    seqAtMost left.seq right.seq = true

def findByTimestamp (log : AuditLog) (selected : AuditRecord → Bool) :
    List AuditEvent :=
  ((log.rows.filter selected).insertionSort fun left right =>
    left.event.timestamp ≤ right.event.timestamp).map AuditRecord.event

def findByMemory (log : AuditLog) (memoryId : String) : List AuditEvent :=
  findByTimestamp log fun record => record.event.memoryId = memoryId

def findByMemoryAndTenant (log : AuditLog) (memoryId tenantId : String) :
    List AuditEvent :=
  findByTimestamp log fun record =>
    record.event.memoryId = memoryId && record.event.tenantId.value = tenantId

def findByTenantAndAction (log : AuditLog) (tenantId : String)
    (action : AuditAction) : List AuditEvent :=
  findByTimestamp log fun record =>
    record.event.tenantId.value = tenantId && record.event.action = action

/-- A `redacted` record of the tenant whose receipt names this hash as the one
before the redaction. -/
def IsRedactionOf (contentHash tenantId : String) (record : AuditRecord) :
    Prop :=
  record.event.action = .redacted ∧ record.event.tenantId.value = tenantId ∧
    record.event.detailText "oldContentHash" = some contentHash

instance (contentHash tenantId : String) (record : AuditRecord) :
    Decidable (IsRedactionOf contentHash tenantId record) :=
  inferInstanceAs (Decidable (_ ∧ _ ∧ _))

structure RedactionReceipt where
  eventId : String
  targetId : String
  oldContentHash : String
  newContentHash : String
  deriving DecidableEq, Repr

def rowToRedactionReceipt (event : AuditEvent) : Option RedactionReceipt :=
  match event.detailText "oldContentHash", event.detailText "newContentHash"
  with
  | some oldContentHash, some newContentHash =>
      some
        { eventId := event.id
          targetId := event.memoryId
          oldContentHash := oldContentHash
          newContentHash := newContentHash }
  | _, _ => none

/-- The first receipt in walking order; one without both hashes counts as
none. -/
def findRedactionByOldContentHash (log : AuditLog)
    (contentHash tenantId : String) : Option RedactionReceipt :=
  ((chronological log).find? fun record =>
    IsRedactionOf contentHash tenantId record).bind
      fun record => rowToRedactionReceipt record.event

end AuditRepository

namespace MemoryRepository

def insert (memory : CuratedMemory) : StoreM PUnit := fun store =>
  match store.curatedMemories.insert? memory with
  | some next => .ok ⟨⟩ { store with curatedMemories := next }
  | none =>
      .error (.sqlite (.uniqueConstraint "curated_memories.id")) store

def findById (table : MemoryTable) (id : String) : Option CuratedMemory :=
  table.find? id

def existsForCandidate (table : MemoryTable) (candidateId tenantId : String) :
    Bool :=
  table.rows.any fun memory =>
    memory.candidateId = candidateId && memory.tenantId.value = tenantId

def findByContentHashAndTenant (table : MemoryTable)
    (hash tenantId : String) : Option CuratedMemory :=
  table.rows.find? fun memory =>
    memory.contentHash = hash && memory.tenantId.value = tenantId

def getAllContentHashes (table : MemoryTable) : List String :=
  table.rows.map CuratedMemory.contentHash

def getContentHashesByTenant (table : MemoryTable) (tenantId : String) :
    List String :=
  (table.rows.filter fun memory => memory.tenantId.value = tenantId).map
    CuratedMemory.contentHash

def findByTenantAndLifecycle (table : MemoryTable) (tenantId : String)
    (lifecycle : MemoryLifecycleState) : List CuratedMemory :=
  table.rows.filter fun memory =>
    memory.tenantId.value = tenantId && memory.lifecycle = lifecycle

def findByTenantAndLifecycleAndCategory (table : MemoryTable)
    (tenantId : String) (lifecycle : MemoryLifecycleState)
    (category : MemoryCategory) : List CuratedMemory :=
  table.rows.filter fun memory =>
    memory.tenantId.value = tenantId && memory.lifecycle = lifecycle &&
      memory.category = category

/-- Full-text search among the active memories, at most a hundred rows. -/
def searchByText (table : MemoryTable) (query : String) :
    Except RegistrarError (List CuratedMemory) :=
  let ftsQuery := trim (String.ofList (query.toList.filter fun char =>
    ! ['*', '"', '^', '(', ')', '{', '}', ':'].contains char))
  if ftsQuery = "" then .ok []
  else
    match env.fts5Match ftsQuery table.rows with
    | none => .error (.sqlite (.fts5Syntax ftsQuery))
    | some ranked => .ok ((ranked.filter (·.lifecycle = .active)).take 100)

/-- The full-row update: every column of the row with this id. -/
def update (memory : CuratedMemory) : StoreM Bool := fun store =>
  .ok (store.curatedMemories.find? memory.id).isSome
    { store with curatedMemories := store.curatedMemories.replace memory }

/-- Rejects a change that the state graph forbids; a same-state call only
touches the timestamp. -/
def updateLifecycle (id : String) (lifecycle : MemoryLifecycleState)
    (updatedAt : String) : StoreM Bool := do
  match ← query fun store : Store => store.curatedMemories.find? id with
  | none => pure false
  | some memory =>
      if memory.lifecycle = lifecycle then
        update { memory with updatedAt := updatedAt }
      else if !isTransitionAllowed memory.lifecycle lifecycle then
        throw (.invalidLifecycleTransition memory.lifecycle lifecycle)
      else if retired : lifecycle = .superseded then
        throw (.invalidSupersession
          "Supersession requires a validated replacement; use supersede()")
      else
        update
          { memory with
            lifecycle := lifecycle
            updatedAt := updatedAt
            supersededHasLink := fun superseded =>
              absurd superseded retired }

/-- Retire a memory in favour of a distinct active memory of its tenant. -/
def supersede (id supersededBy reason now : String) : StoreM Bool :=
  match NonEmptyString.parse? reason with
  | none => throw (.invalidSupersession "Invalid supersession metadata")
  | some reason => transaction do
      match ← query fun store : Store => store.curatedMemories.find? id with
      | none => pure false
      | some memory =>
          if !isTransitionAllowed memory.lifecycle .superseded then
            throw (.invalidLifecycleTransition memory.lifecycle .superseded)
          else if env.toLowerCase id = env.toLowerCase supersededBy then
            throw (.invalidSupersession
              "Supersession replacement must be distinct from the source")
          else
            let replacement ← query fun store : Store =>
              store.curatedMemories.find? supersededBy
            if replacement.any fun other =>
                other.tenantId = memory.tenantId &&
                  other.lifecycle = .active then
              update (memory.retired
                { supersededBy := supersededBy
                  reason := reason
                  linkedAt := now } now)
            else
              throw (.invalidSupersession
                ("Supersession replacement must be an existing active " ++
                  "memory in the same tenant"))

end MemoryRepository

namespace CandidateRepository

def assertDisclosureClean (candidate : MemoryCandidate) : StoreM PUnit :=
  match disclosureViolation env candidate with
  | none => pure ⟨⟩
  | some category => throw (.disclosureRejected category)

/-- A redaction receipt of the tenant names the hash of this text. -/
def isRedactedContent (log : AuditLog) (content tenantId : String) : Bool :=
  log.rows.any fun record =>
    AuditRepository.IsRedactionOf (computeContentHash env content) tenantId
      record

def insert (candidate : MemoryCandidate) (contentHash : String)
    (importBatchId : Option String) : StoreM PUnit := do
  assertDisclosureClean env candidate
  let redacted ← query fun store : Store =>
    isRedactedContent env store.auditEvents candidate.content candidate.tenantId
  ensure (redacted = false) .redactedContentReingest
  let row : CandidateRow :=
    { candidate := candidate
      contentHash := contentHash
      importBatchId := importBatchId }
  fun store =>
    match store.candidates.insert? row with
    | some next => .ok ⟨⟩ { store with candidates := next }
    | none => .error (.sqlite (.uniqueConstraint "candidates.id")) store

/-- Reading a row applies the candidate schema to it. -/
def read (table : CandidateTable) (id : String) :
    Except SchemaIssue (Option MemoryCandidate) :=
  (table.find? id).mapM fun row => row.candidate.parse

def findById (id : String) : StoreM (Option MemoryCandidate) := do
  let found ← query fun store : Store => read store.candidates id
  orSchemaError found

/-- A row that the schema refuses reads as absent. -/
def findCandidateSafe (table : CandidateTable) (id : String) :
    Option MemoryCandidate :=
  match read table id with
  | .ok candidate => candidate
  | .error _ => none

def CandidateRow.setStatus (row : CandidateRow) (status : CandidateStatus) :
    CandidateRow :=
  { row with candidate := { row.candidate with status := status } }

def updateStatus (id : String) (status : CandidateStatus) (tenantId : String) :
    StoreM Nat := fun store =>
  let selected (row : CandidateRow) : Bool :=
    row.id = id && row.candidate.tenantId = tenantId
  .ok (store.candidates.rows.countP selected)
    { store with
      candidates := store.candidates.updateWhere selected
        (CandidateRow.setStatus · status) (fun _ _ => rfl) }

def findIdsByContentHashAndTenant (table : CandidateTable)
    (hash tenantId : String) : List String :=
  (table.rows.filter fun row =>
    row.contentHash = hash && row.candidate.tenantId = tenantId).map
    CandidateRow.id

/-- The stored content and title, unparsed. -/
def readStoredText (table : CandidateTable) (id tenantId : String) :
    Option (String × String) :=
  (table.rows.find? fun row =>
    row.id = id && row.candidate.tenantId = tenantId).map fun row =>
      (row.candidate.content, row.candidate.title)

def CandidateRow.setText (row : CandidateRow)
    (content title contentHash : String) : CandidateRow :=
  { row with
    candidate := { row.candidate with content := content, title := title }
    contentHash := contentHash }

/-- Rewrite the stored copy of a candidate; the hash of the new content, or
nothing when no row was changed. -/
def updateContent (id tenantId content title : String) :
    StoreM (Option String) := do
  match scanDisclosureFields env [content, title] with
  | some category => throw (.disclosureRejected category)
  | none =>
      let contentHash := computeContentHash env content
      fun store =>
        let selected (row : CandidateRow) : Bool :=
          row.id = id && row.candidate.tenantId = tenantId
        .ok (if store.candidates.rows.any selected then some contentHash
            else none)
          { store with
            candidates := store.candidates.updateWhere selected
              (CandidateRow.setText · content title contentHash)
              (fun _ _ => rfl) }

end CandidateRepository

namespace PolicyRepository

def findByTenant (table : PolicyTable) (tenantId : String) :
    List GovernancePolicy :=
  table.rows.filter fun policy => policy.tenantId.value = tenantId

end PolicyRepository

namespace MemoryLinksRepository

/-- Both ends of a link must be stored memories. -/
def insert (link : MemoryLink) : StoreM PUnit := fun store =>
  match store.memoryLinks.insert? link with
  | none =>
      .error (.sqlite (.uniqueConstraint "memory_links")) store
  | some next =>
      if (store.curatedMemories.find? link.sourceMemoryId).isSome &&
          (store.curatedMemories.find? link.targetMemoryId).isSome then
        .ok ⟨⟩ { store with memoryLinks := next }
      else .error (.sqlite .foreignKeyConstraint) store

end MemoryLinksRepository

/-! ## What a program that returned has done -/

theorem orSchemaError_eq_ok_iff {Value : Type}
    {checked : Except SchemaIssue Value} {store final : Store}
    {value : Value} :
    orSchemaError checked store = .ok value final ↔
      checked = .ok value ∧ final = store := by
  cases checked <;> simp [orSchemaError, eq_comm]

theorem parseNonEmpty_eq_ok {path text : String} {parsed : NonEmptyString}
    (accepted : parseNonEmpty path text = .ok parsed) :
    parsed.value = trim text := by
  unfold parseNonEmpty at accepted
  split at accepted
  · cases accepted
  · rename_i found
    cases accepted
    exact NonEmptyString.value_of_parse? found

/-- An accepted event is its input with the tenant and the reason trimmed. -/
theorem AuditEvent.parse_eq_ok {input : AuditEventInput} {event : AuditEvent}
    (accepted : AuditEvent.parse input = .ok event) :
    ∃ tenantId reason,
      tenantId.value = trim input.tenantId ∧
        event =
          { id := input.id
            action := input.action
            memoryId := input.memoryId
            tenantId := tenantId
            actor := input.actor
            reason := reason
            details := input.details
            timestamp := input.timestamp } := by
  unfold AuditEvent.parse at accepted
  cases tenant : parseNonEmpty "tenantId" input.tenantId with
  | error issue =>
      rw [tenant] at accepted
      cases accepted
  | ok tenantId =>
      rw [tenant] at accepted
      cases reason : input.reason.mapM (parseNonEmpty "reason") with
      | error issue =>
          simp only [reason] at accepted
          cases accepted
      | ok reason' =>
          simp only [reason] at accepted
          cases accepted
          exact ⟨tenantId, reason', parseNonEmpty_eq_ok tenant, rfl⟩

theorem AuditRepository.insert_eq_ok_iff {event : AuditEvent}
    {store final : Store} {value : PUnit} :
    AuditRepository.insert env event store = .ok value final ↔
      ∃ next,
        store.auditEvents.insert?
            (appendedRecord env store.auditEvents event) = some next ∧
          final = { store with auditEvents := next } := by
  unfold AuditRepository.insert
  split
  · rename_i next inserted
    simp [inserted, eq_comm]
  · rename_i refused
    split <;> simp [refused]

theorem AuditRepository.record_eq_ok_iff {input : AuditEventInput}
    {store final : Store} {value : PUnit} :
    AuditRepository.record env input store = .ok value final ↔
      ∃ event next, AuditEvent.parse input = .ok event ∧
        store.auditEvents.insert?
            (appendedRecord env store.auditEvents event) = some next ∧
          final = { store with auditEvents := next } := by
  unfold AuditRepository.record
  simp only [bind_eq_ok_iff, orSchemaError_eq_ok_iff,
    AuditRepository.insert_eq_ok_iff]
  constructor
  · rintro ⟨event, _, ⟨parsed, rfl⟩, next, inserted, same⟩
    exact ⟨event, next, parsed, inserted, same⟩
  · rintro ⟨event, next, parsed, inserted, same⟩
    exact ⟨event, store, ⟨parsed, rfl⟩, next, inserted, same⟩

theorem MemoryRepository.insert_eq_ok_iff {memory : CuratedMemory}
    {store final : Store} {value : PUnit} :
    MemoryRepository.insert memory store = .ok value final ↔
      ∃ next, store.curatedMemories.insert? memory = some next ∧
        final = { store with curatedMemories := next } := by
  unfold MemoryRepository.insert
  split
  · rename_i next inserted
    simp [inserted, eq_comm]
  · rename_i refused
    simp [refused]

section Keeps

variable {env} {invariant : Store → Prop}

/-- The assertion survives the append of every event of a kind. -/
def SurvivesAppend (env : Environment) (kind : AuditEvent → Prop)
    (invariant : Store → Prop) : Prop :=
  ∀ store event next, kind event → invariant store →
    store.auditEvents.insert? (appendedRecord env store.auditEvents event) =
      some next →
    invariant { store with auditEvents := next }

/-- The assertion survives every change of the links. -/
def SurvivesLinks (invariant : Store → Prop) : Prop :=
  ∀ store links, invariant store →
    invariant { store with memoryLinks := links }

theorem orSchemaError_triple {Value : Type}
    (checked : Except SchemaIssue Value) :
    Triple invariant (orSchemaError checked)
      (fun value store => checked = .ok value ∧ invariant store)
      (fun _ => invariant) := by
  constructor
  intro store holds
  cases checked with
  | error issue => exact holds
  | ok value => exact ⟨rfl, holds⟩

theorem orSchemaError_keeps {Value : Type}
    (checked : Except SchemaIssue Value) :
    Keeps invariant (orSchemaError checked) := by
  cases checked with
  | error issue => exact Keeps.throw _
  | ok value => exact Keeps.pure _

theorem AuditRepository.insert_keeps {kind : AuditEvent → Prop}
    (survives : SurvivesAppend env kind invariant) {event : AuditEvent}
    (ofKind : kind event) :
    Keeps invariant (AuditRepository.insert env event) := by
  constructor
  intro store holds
  unfold AuditRepository.insert
  cases inserted : store.auditEvents.insert?
      (appendedRecord env store.auditEvents event) with
  | some next => exact survives store event next ofKind holds inserted
  | none =>
      dsimp only
      split_ifs <;> exact holds

theorem AuditRepository.record_keeps {kind : AuditEvent → Prop}
    (survives : SurvivesAppend env kind invariant) {input : AuditEventInput}
    (ofKind : ∀ event, AuditEvent.parse input = .ok event → kind event) :
    Keeps invariant (AuditRepository.record env input) := by
  apply Triple.bind (orSchemaError_triple _)
  intro event
  constructor
  intro store start
  exact (AuditRepository.insert_keeps survives (ofKind event start.1)).run
    store start.2

theorem MemoryRepository.insert_keeps {memory : CuratedMemory}
    (inserted : ∀ store next, invariant store →
      store.curatedMemories.insert? memory = some next →
      invariant { store with curatedMemories := next }) :
    Keeps invariant (MemoryRepository.insert memory) := by
  constructor
  intro store holds
  unfold MemoryRepository.insert
  cases added : store.curatedMemories.insert? memory with
  | some next => exact inserted store next holds added
  | none => exact holds

theorem MemoryLinksRepository.insert_keeps
    (survives : SurvivesLinks invariant) (link : MemoryLink) :
    Keeps invariant (MemoryLinksRepository.insert link) := by
  constructor
  intro store holds
  unfold MemoryLinksRepository.insert
  cases store.memoryLinks.insert? link with
  | none => exact holds
  | some next =>
      dsimp only
      split_ifs
      · exact survives store next holds
      · exact holds

theorem CandidateRepository.findById_keeps (id : String) :
    Keeps invariant (CandidateRepository.findById id) :=
  Keeps.bind (Keeps.query _) fun found => orSchemaError_keeps found

theorem CandidateRepository.read_eq_some {table : CandidateTable} {id : String}
    {candidate : MemoryCandidate}
    (found : CandidateRepository.read table id = .ok (some candidate)) :
    ∃ row ∈ table.rows, row.id = id ∧ row.candidate.parse = .ok candidate := by
  unfold CandidateRepository.read at found
  cases stored : table.find? id with
  | none =>
      rw [stored] at found
      cases found
  | some row =>
      obtain ⟨member, sameId⟩ := Table.find?_eq_some_iff.mp stored
      refine ⟨row, member, sameId, ?_⟩
      rw [stored] at found
      cases parsed : row.candidate.parse with
      | error issue => simp [Option.mapM_some, parsed, Functor.map, Except.map] at found
      | ok parsedCandidate =>
          simp only [Option.mapM_some, parsed, Functor.map, Except.map,
            Except.ok.injEq, Option.some.injEq] at found
          rw [found]

theorem CandidateRepository.findById_triple (id : String) :
    Triple invariant (CandidateRepository.findById id)
      (fun found store =>
        CandidateRepository.read store.candidates id = .ok found ∧
          invariant store)
      (fun _ => invariant) := by
  apply Triple.bind (Triple.query_eq _)
  intro read
  apply Triple.weaken (orSchemaError_triple read) (fun _ start => start)
  · rintro found store ⟨rfl, isRead, holds⟩
    exact ⟨isRead, holds⟩
  · rintro _ store ⟨-, holds⟩
    exact holds

variable {before after : Store → Prop}

/-- The memory keeps its link, or an active one of its tenant is its new
successor. -/
def LinkedSoundly (store : Store) (old new : CuratedMemory) : Prop :=
  new.supersession = old.supersession ∨
    ∃ link other, new.supersession = some link ∧
      store.curatedMemories.find? link.supersededBy = some other ∧
      other.tenantId = old.tenantId ∧ other.lifecycle = .active ∧
      other.id ≠ old.id ∧ new.lifecycle = .superseded

/-- From `before`, a legal change of the lifecycle of the memory with this id
to the target leads to `after`. -/
def LifecycleLeads (id : String) (target : MemoryLifecycleState)
    (before after : Store → Prop) : Prop :=
  ∀ store old new, before store →
    store.curatedMemories.find? id = some old →
    SameClaim old new → new.lifecycle = target →
    LegalChange old.lifecycle target → LinkedSoundly store old new →
    after
      { store with curatedMemories := store.curatedMemories.replace new }

theorem MemoryRepository.update_triple {memory : CuratedMemory}
    {failed : RegistrarError → Store → Prop}
    (replaced : ∀ store, before store →
      after
        { store with
          curatedMemories := store.curatedMemories.replace memory }) :
    Triple before (MemoryRepository.update memory) (fun _ => after) failed :=
  ⟨replaced⟩

theorem MemoryRepository.updateLifecycle_triple {id updatedAt : String}
    {lifecycle : MemoryLifecycleState}
    (unchanged : ∀ store, before store → after store)
    (changed : LifecycleLeads id lifecycle before after) :
    Triple before (MemoryRepository.updateLifecycle id lifecycle updatedAt)
      (fun _ => after) (fun _ => before) := by
  unfold MemoryRepository.updateLifecycle
  apply Triple.bind (Triple.query_eq _)
  intro found
  cases found with
  | none =>
      apply Triple.pure
      intro store start
      exact unchanged store start.2
  | some memory =>
      apply Triple.ite
      · intro same
        apply MemoryRepository.update_triple
        intro store start
        apply changed store memory _ start.2 start.1
        · exact ⟨rfl, rfl, rfl, rfl, rfl, rfl⟩
        · exact same
        · exact .inl same.symm
        · exact .inl rfl
      intro different
      apply Triple.ite
      · intro forbidden
        apply Triple.throw
        intro store start
        exact start.2
      intro permitted
      have allowed : isTransitionAllowed memory.lifecycle lifecycle = true := by
        simpa using permitted
      split_ifs with retired
      · apply Triple.throw
        intro store start
        exact start.2
      · apply MemoryRepository.update_triple
        intro store start
        apply changed store memory _ start.2 start.1
        · exact ⟨rfl, rfl, rfl, rfl, rfl, rfl⟩
        · rfl
        · exact .inr allowed
        · exact .inl rfl

theorem MemoryRepository.supersede_triple
    {id supersededBy reason now : String}
    (unchanged : ∀ store, before store → after store)
    (changed : LifecycleLeads id .superseded before after) :
    Triple before (MemoryRepository.supersede env id supersededBy reason now)
      (fun _ => after) (fun _ => before) := by
  unfold MemoryRepository.supersede
  split
  · exact Triple.throw _ fun _ start => start
  apply Triple.transaction _ fun _ _ start => start
  apply Triple.bind (Triple.query_eq _)
  intro found
  cases found with
  | none =>
      apply Triple.pure
      intro store start
      exact unchanged store start.2
  | some memory =>
      apply Triple.ite
      · intro forbidden
        exact Triple.throw _ fun _ _ => trivial
      intro permitted
      have allowed :
          isTransitionAllowed memory.lifecycle .superseded = true := by
        simpa using permitted
      apply Triple.ite
      · intro same
        exact Triple.throw _ fun _ _ => trivial
      intro distinct
      apply Triple.bind (Triple.query_eq _)
      intro replacement
      apply Triple.ite
      · intro valid
        apply MemoryRepository.update_triple
        intro store start
        obtain ⟨isReplacement, isMemory, holds⟩ := start
        obtain ⟨other, rfl, suits⟩ := (Option.any_eq_true _ _).mp valid
        simp only [Bool.and_eq_true, decide_eq_true_eq] at suits
        apply changed store memory _ holds isMemory
        · exact memory.retired_sameClaim _ _
        · rfl
        · exact .inr allowed
        · refine .inr ⟨_, other, rfl, isReplacement, suits.1, suits.2, ?_, rfl⟩
          rw [(Table.find?_eq_some_iff.mp isReplacement).2,
            (Table.find?_eq_some_iff.mp isMemory).2]
          exact fun same => distinct (congrArg env.toLowerCase same.symm)
      · intro invalid
        exact Triple.throw _ fun _ _ => trivial

end Keeps

end Registrar
