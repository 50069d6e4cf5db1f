import Registrar.Curator.VaultFiles
import Registrar.Store.ImportBatches

/-!
# The import pipeline

An import turns the files of a vault into candidates of one batch; a rollback
deletes the candidates and links of the batch again.  Neither is a transaction:
every statement takes effect on its own.
-/

namespace Registrar

open Program

inductive CollisionTarget where
  | curatedMemory
  | candidate
  deriving DecidableEq, Repr

structure CollisionResult where
  contentHash : String
  hasCollision : Bool
  target : Option CollisionTarget
  matchedId : Option String
  matchedTitle : Option String
  deriving DecidableEq, Repr

def MemoryRepository.findByContentHash (table : MemoryTable) (hash : String) :
    Option CuratedMemory :=
  table.rows.find? fun memory => memory.contentHash = hash

def CandidateRepository.findByContentHash (hash : String) :
    StoreM (Option MemoryCandidate) := do
  let found ← query fun store : Store =>
    (store.candidates.rows.find? fun row => row.contentHash = hash).mapM
      fun row => row.candidate.parse
  orSchemaError found

variable (env : Environment)

/-- Whether content is known already: in this batch, as a memory or as a
candidate, of whatever tenant. -/
def detectCollision (content : String) (batchHashes : List String) :
    StoreM CollisionResult := do
  let contentHash := computeContentHash env content
  if batchHashes.contains contentHash then
    pure
      { contentHash := contentHash
        hasCollision := true
        target := some .candidate
        matchedId := none
        matchedTitle := some "(duplicate within this import batch)" }
  else
    let curated ← query fun store : Store =>
      MemoryRepository.findByContentHash store.curatedMemories contentHash
    match curated with
    | some memory =>
        pure
          { contentHash := contentHash
            hasCollision := true
            target := some .curatedMemory
            matchedId := some memory.id
            matchedTitle := some memory.title.value }
    | none =>
        let candidate ← CandidateRepository.findByContentHash contentHash
        pure
          { contentHash := contentHash
            hasCollision := candidate.isSome
            target := candidate.map fun _ => .candidate
            matchedId := candidate.map MemoryCandidate.id
            matchedTitle := candidate.map MemoryCandidate.title }

/-- An import of the files that the walk of the vault has collected. -/
structure ImportCall where
  sourcePath : String
  tenantId : String
  vaultFiles : List VaultFile
  batchId : String
  now : String

def vaultAuthor : Author where
  type := .system
  id := ⟨"vault-import", by decide +kernel, by simp⟩
  name := none

def ParsedMarkdown.title (parsed : ParsedMarkdown) (relativePath : String) :
    String :=
  match parsed.field "title" with
  | some (.text title) =>
      if title = "" then titleFromPath relativePath else title
  | _ => titleFromPath relativePath

def ParsedMarkdown.category (parsed : ParsedMarkdown) : MemoryCategory :=
  match parsed.field "category" with
  | some (.text word) =>
      (memoryCategories.find? fun category => category.text = word).getD
        .reference
  | _ => .reference

def ParsedMarkdown.tags (parsed : ParsedMarkdown) : List String :=
  match parsed.field "tags" with
  | some (.texts tags) => tags
  | _ => []

/-- The id is derived from the relative path of the file, and its absolute path
is stored. -/
def vaultCandidate (call : ImportCall) (file : VaultFile) : MemoryCandidate :=
  let parsed := parseMarkdown file.content
  { id := deriveCandidateId env (basename call.sourcePath) file.relativePath
      (computeContentHash env parsed.body)
    status := .inbox
    source := .import_
    content := parsed.body
    title := parsed.title file.relativePath
    category := parsed.category
    trustLevel := .medium
    author := vaultAuthor
    tenantId := call.tenantId
    metadata :=
      { filePaths := [file.absolutePath]
        language := none
        projectContext := none
        sessionId := none
        repoUrl := none
        branch := none
        confidence := none
        sensitivity := none
        tags := parsed.tags
        subjects := none
        proposedByRole := none
        audience := none }
    prePolicyFlags :=
      { potentialSecret := false
        lowConfidence := false
        duplicateSuspect := false }
    capturedAt := call.now
    origin := none }

/-- The row that a file becomes. -/
def vaultRow (call : ImportCall) (file : VaultFile) : CandidateRow where
  candidate := vaultCandidate env call file
  contentHash := computeContentHash env (parseMarkdown file.content).body
  importBatchId := some call.batchId

inductive ImportFileStatus where
  | created (candidateId : String)
  | skipped (reason : String) (collision : Option CollisionResult)
  | error (error : RegistrarError)
  deriving DecidableEq

structure ImportFileResult where
  relativePath : String
  status : ImportFileStatus
  deriving DecidableEq

/-- Why a file with known content is skipped. -/
def collisionReason (collision : CollisionResult) : String :=
  "Collision: " ++
    ((collision.matchedTitle.orElse fun _ => collision.matchedId).getD
      "duplicate")

/-- Insert the candidate of a file; a failure is the result of the file. -/
def insertVaultCandidate (call : ImportCall) (file : VaultFile) :
    StoreM ImportFileStatus :=
  tryCatch
    (do
      CandidateRepository.insert env (vaultCandidate env call file)
        (vaultRow env call file).contentHash (some call.batchId)
      pure (.created (vaultCandidate env call file).id))
    fun error => pure (.error error)

def importFile (call : ImportCall) (batchHashes : List String)
    (file : VaultFile) : StoreM ImportFileStatus := do
  let body := (parseMarkdown file.content).body
  if trim body = "" then pure (.skipped "Empty body" none)
  else
    let collision ← detectCollision env body batchHashes
    if collision.hasCollision then
      pure (.skipped (collisionReason collision) (some collision))
    else insertVaultCandidate env call file

/-- The hashes of a batch after one of its files. -/
def hashesAfterFile (batchHashes : List String) (file : VaultFile) :
    ImportFileStatus → List String
  | .created _ =>
      computeContentHash env (parseMarkdown file.content).body :: batchHashes
  | .skipped _ _ | .error _ => batchHashes

def importFiles (call : ImportCall) :
    List String → List VaultFile → StoreM (List ImportFileResult)
  | _, [] => pure []
  | batchHashes, file :: rest => do
      let status ← importFile env call batchHashes file
      let later ← importFiles call (hashesAfterFile env batchHashes file status)
        rest
      pure
        ({ relativePath := file.relativePath
           status := status } :: later)

structure ImportExecutionResult where
  batchId : String
  sourcePath : String
  counts : ImportBatchRepository.BatchCounts
  files : List ImportFileResult
  deriving DecidableEq

def importCounts (files : List ImportFileResult) :
    ImportBatchRepository.BatchCounts where
  fileCount := files.length
  createdCount := files.countP fun file =>
    match file.status with
    | .created _ => true
    | _ => false
  rejectedCount := files.countP fun file =>
    match file.status with
    | .error _ => true
    | _ => false
  skippedCount := files.countP fun file =>
    match file.status with
    | .skipped _ _ => true
    | _ => false

def ImportCall.batch (call : ImportCall) : ImportBatch where
  id := call.batchId
  tenantId := call.tenantId
  sourcePath := some call.sourcePath
  fileCount := 0
  createdCount := 0
  rejectedCount := 0
  skippedCount := 0
  status := .active
  createdAt := call.now
  rolledBackAt := none

def executeImport (call : ImportCall) : StoreM ImportExecutionResult := do
  ImportBatchRepository.insert call.batch
  let files ← importFiles env call [] call.vaultFiles
  let _ ← ImportBatchRepository.updateCounts call.batchId (importCounts files)
  let _ ← ImportBatchRepository.complete call.batchId
  pure
    { batchId := call.batchId
      sourcePath := call.sourcePath
      counts := importCounts files
      files := files }

structure RollbackResult where
  batchId : String
  candidatesDeleted : Nat
  linksDeleted : Nat
  deriving DecidableEq, Repr

/-- Undo a batch; without a link repository the links stay. -/
def rollbackImport (batchId : String) (withLinks : Bool) (now : String) :
    StoreM RollbackResult := do
  let found ← query fun store : Store =>
    ImportBatchRepository.findById store.importBatches batchId
  match found with
  | none => throw (.error ("Import batch not found: " ++ batchId))
  | some batch =>
      ensure (batch.status ≠ .rolledBack)
        (.error ("Import batch already rolled back: " ++ batchId))
      let candidatesDeleted ← CandidateRepository.deleteByBatch batchId
      let linksDeleted ←
        if withLinks then MemoryLinksRepository.deleteByBatch batchId
        else pure 0
      let _ ← ImportBatchRepository.rollback batchId now
      pure
        { batchId := batchId
          candidatesDeleted := candidatesDeleted
          linksDeleted := linksDeleted }

/-- The file has a body, and no row of the store has its content. -/
structure NewFile (store : Store) (file : VaultFile) : Prop where
  solid : trim (parseMarkdown file.content).body ≠ ""
  noMemory : ∀ memory ∈ store.curatedMemories.rows,
    memory.contentHash ≠
      computeContentHash env (parseMarkdown file.content).body
  noCandidate : ∀ row ∈ store.candidates.rows,
    row.contentHash ≠ computeContentHash env (parseMarkdown file.content).body

variable {env} {before after invariant : Store → Prop}

theorem CandidateRepository.assertDisclosureClean_keeps
    (candidate : MemoryCandidate) :
    Keeps invariant
      (CandidateRepository.assertDisclosureClean env candidate) := by
  unfold CandidateRepository.assertDisclosureClean
  cases disclosureViolation env candidate with
  | none => exact Keeps.pure _
  | some category => exact Keeps.throw _

/-- Inserting a candidate adds its row or changes nothing. -/
theorem CandidateRepository.insert_triple {candidate : MemoryCandidate}
    {contentHash : String} {batchId : Option String}
    (inserted : ∀ store next, before store →
      store.candidates.insert?
          { candidate := candidate
            contentHash := contentHash
            importBatchId := batchId } = some next →
      after { store with candidates := next }) :
    Triple before
      (CandidateRepository.insert env candidate contentHash batchId)
      (fun _ => after) (fun _ => before) := by
  unfold CandidateRepository.insert
  apply Triple.bind (CandidateRepository.assertDisclosureClean_keeps candidate)
  intro _
  apply Triple.bind (Keeps.query _)
  intro redacted
  apply Triple.bind (Keeps.ensure _ _)
  intro _
  constructor
  intro store start
  cases added : store.candidates.insert?
      { candidate := candidate
        contentHash := contentHash
        importBatchId := batchId } with
  | some next => exact inserted store next start added
  | none => exact start

/-- Content without a collision is in no row. -/
theorem detectCollision_triple (content : String) (batchHashes : List String) :
    Triple invariant (detectCollision env content batchHashes)
      (fun collision store =>
        (collision.hasCollision = false →
          (∀ memory ∈ store.curatedMemories.rows,
              memory.contentHash ≠ computeContentHash env content) ∧
            ∀ row ∈ store.candidates.rows,
              row.contentHash ≠ computeContentHash env content) ∧
          invariant store)
      (fun _ => invariant) := by
  unfold detectCollision
  apply Triple.ite
  · intro _
    exact Triple.pure _ fun _ start => ⟨by simp, start⟩
  intro _
  apply Triple.bind (Triple.query_eq _)
  intro curated
  cases curated with
  | some memory => exact Triple.pure _ fun _ start => ⟨by simp, start.2⟩
  | none =>
      unfold CandidateRepository.findByContentHash
      simp only [bind_assoc]
      apply Triple.bind (Triple.query_eq _)
      intro found
      apply Triple.bind
      · apply Triple.weaken (orSchemaError_triple found) (fun _ start => start)
          (fun _ _ ended => ended)
        exact fun _ _ ended => ended.2.2
      intro candidate
      apply Triple.pure
      rintro store ⟨rfl, isFound, absent, holds⟩
      refine ⟨?_, holds⟩
      intro free
      constructor
      · intro memory member same
        have := List.find?_eq_none.mp absent memory member
        simp [same] at this
      · intro row member same
        cases stored : store.candidates.rows.find? fun row =>
            row.contentHash = computeContentHash env content with
        | none =>
            have := List.find?_eq_none.mp stored row member
            simp [same] at this
        | some other =>
            rw [stored] at isFound
            cases parsed : other.candidate.parse with
            | error issue =>
                simp [Option.mapM_some, parsed, Functor.map, Except.map] at isFound
            | ok read =>
                simp only [Option.mapM_some, parsed, Functor.map, Except.map,
                  Except.ok.injEq] at isFound
                rw [← isFound] at free
                simp at free

section Import

variable {call : ImportCall}

theorem importFile_keeps {batchHashes : List String} {file : VaultFile}
    (inserted : ∀ store next, invariant store → NewFile env store file →
      store.candidates.insert? (vaultRow env call file) = some next →
      invariant { store with candidates := next }) :
    Keeps invariant (importFile env call batchHashes file) := by
  unfold importFile
  apply Triple.ite
  · intro _
    exact Keeps.pure _
  intro solid
  apply Triple.bind (detectCollision_triple _ _)
  intro collision
  apply Triple.ite
  · intro _
    exact Triple.pure _ fun _ start => start.2
  intro free
  unfold insertVaultCandidate
  apply Triple.tryCatch
  · apply Triple.bind
    · apply CandidateRepository.insert_triple
      rintro store next ⟨isFree, holds⟩ added
      obtain ⟨noMemory, noCandidate⟩ := isFree (eq_false_of_ne_true free)
      exact inserted store next holds
        { solid := solid
          noMemory := noMemory
          noCandidate := noCandidate } added
    · intro _
      exact Triple.pure _ fun _ ended => ended
  · intro error
    exact Triple.pure _ fun _ ended => ended.2

theorem importFiles_keeps {batchHashes : List String} {files : List VaultFile}
    (inserted : ∀ file ∈ files, ∀ store next, invariant store →
      NewFile env store file →
      store.candidates.insert? (vaultRow env call file) = some next →
      invariant { store with candidates := next }) :
    Keeps invariant (importFiles env call batchHashes files) := by
  induction files generalizing batchHashes with
  | nil => exact Keeps.pure _
  | cons file rest induction =>
      apply Keeps.bind (importFile_keeps (inserted file List.mem_cons_self))
      intro status
      apply Keeps.bind
      · apply induction
        intro later member
        exact inserted later (List.mem_cons_of_mem file member)
      · intro results
        exact Keeps.pure _

/-- An import changes the batches and adds rows of new files. -/
theorem executeImport_keeps
    (batched : ∀ store batches, invariant store →
      invariant { store with importBatches := batches })
    (inserted : ∀ file ∈ call.vaultFiles, ∀ store next, invariant store →
      NewFile env store file →
      store.candidates.insert? (vaultRow env call file) = some next →
      invariant { store with candidates := next }) :
    Keeps invariant (executeImport env call) := by
  unfold executeImport
  apply Keeps.bind
  · constructor
    intro store holds
    unfold ImportBatchRepository.insert
    cases store.importBatches.insert? call.batch with
    | none => exact holds
    | some next => exact batched store next holds
  intro _
  apply Keeps.bind (importFiles_keeps inserted)
  intro files
  apply Keeps.bind ⟨fun store holds => batched store _ holds⟩
  intro _
  apply Keeps.bind ⟨fun store holds => batched store _ holds⟩
  intro _
  exact Keeps.pure _

end Import

section Rollback

variable {batchId now : String} {withLinks : Bool} {store final : Store}
variable {result : RollbackResult}

/-- The store without the candidates of a batch, and without its links. -/
def Store.withoutBatch (store : Store) (batchId : String) (withLinks : Bool) :
    Store :=
  { store with
    candidates :=
      store.candidates.filter fun row =>
        !decide (row.importBatchId = some batchId)
    memoryLinks :=
      if withLinks then
        store.memoryLinks.filter fun link =>
          !decide (link.importBatchId = some batchId)
      else store.memoryLinks }

/-- A rollback takes out what the batch has brought in and marks the batch. -/
theorem rollbackImport_of_batch {batch : ImportBatch}
    (isBatch : store.importBatches.find? batchId = some batch)
    (isOpen : batch.status ≠ .rolledBack) :
    ∃ result batches,
      batches.find? batchId =
          some
            { batch with
              status := .rolledBack
              rolledBackAt := some now } ∧
        rollbackImport batchId withLinks now store =
          .ok result
            { store.withoutBatch batchId withLinks with
              importBatches := batches } := by
  obtain ⟨member, sameId⟩ := Table.find?_eq_some_iff.mp isBatch
  unfold rollbackImport
  rw [bind_apply_of_ok (query_apply _ _)]
  dsimp only [ImportBatchRepository.findById]
  rw [isBatch]
  dsimp only
  rw [bind_apply_of_ok (ensure_apply_of_holds isOpen _)]
  cases withLinks with
  | true =>
      refine ⟨_, _, ?_, rfl⟩
      rw [Table.find?_updateWhere, isBatch]
      simp [sameId]
  | false =>
      refine ⟨_, _, ?_, rfl⟩
      rw [Table.find?_updateWhere, isBatch]
      simp [sameId]

theorem rollbackImport_eq_ok
    (ended : rollbackImport batchId withLinks now store = .ok result final) :
    ∃ batch,
      store.importBatches.find? batchId = some batch ∧
        batch.status ≠ .rolledBack := by
  unfold rollbackImport at ended
  rw [bind_apply_of_ok (query_apply _ _)] at ended
  dsimp only [ImportBatchRepository.findById] at ended
  cases isBatch : store.importBatches.find? batchId with
  | none =>
      rw [isBatch] at ended
      cases ended
  | some batch =>
      rw [isBatch] at ended
      obtain ⟨_, _, allowed, -⟩ := bind_eq_ok_iff.mp ended
      exact ⟨batch, rfl, (ensure_eq_ok_iff.mp allowed).1⟩

theorem rollbackImport_again {later : String} {again : Bool}
    (ended : rollbackImport batchId withLinks now store = .ok result final) :
    rollbackImport batchId again later final =
      .error (.error ("Import batch already rolled back: " ++ batchId))
        final := by
  obtain ⟨batch, isBatch, isOpen⟩ := rollbackImport_eq_ok ended
  obtain ⟨_, batches, marked, returned⟩ :=
    rollbackImport_of_batch isBatch isOpen
  rw [returned] at ended
  injection ended with _ isFinal
  rw [← isFinal]
  unfold rollbackImport
  rw [bind_apply_of_ok (query_apply _ _)]
  dsimp only [ImportBatchRepository.findById]
  rw [marked]
  dsimp only
  rw [bind_apply_of_error]
  rw [ensure, if_neg (not_not_intro rfl), throw_apply]

theorem Store.withoutBatch_of_fresh {start : Store}
    (fresh : ∀ row ∈ start.candidates.rows, row.importBatchId ≠ some batchId)
    (freshLinks : withLinks = true → ∀ link ∈ start.memoryLinks.rows,
      link.importBatchId ≠ some batchId) :
    start.withoutBatch batchId withLinks = start := by
  have candidates : (start.candidates.filter fun row =>
      !decide (row.importBatchId = some batchId)) = start.candidates := by
    apply Table.filter_eq_self
    intro row member
    simpa using fresh row member
  unfold Store.withoutBatch
  cases withLinks with
  | false => rw [candidates, if_neg Bool.false_ne_true]
  | true =>
      have links : (start.memoryLinks.filter fun link =>
          !decide (link.importBatchId = some batchId)) =
            start.memoryLinks := by
        apply Table.filter_eq_self
        intro link member
        simpa using freshLinks rfl link member
      rw [candidates, if_pos rfl, links]

theorem filter_insert?_vaultRow {call : ImportCall} {file : VaultFile}
    {candidates next : CandidateTable}
    (inserted : candidates.insert? (vaultRow env call file) = some next) :
    (next.filter fun row =>
        !decide (row.importBatchId = some call.batchId)) =
      candidates.filter fun row =>
        !decide (row.importBatchId = some call.batchId) := by
  apply Table.rows_injective
  unfold Table.filter
  dsimp only
  rw [Table.rows_of_insert? inserted, List.filter_append]
  simp [vaultRow]

/-- Rolling back an import, whichever way it ended, leaves what was there
before it. -/
theorem rollbackImport_undoes {call : ImportCall} {start : Store}
    (fresh : ∀ row ∈ start.candidates.rows,
      row.importBatchId ≠ some call.batchId)
    (freshLinks : withLinks = true → ∀ link ∈ start.memoryLinks.rows,
      link.importBatchId ≠ some call.batchId)
    (ended : rollbackImport call.batchId withLinks now
      (finalState (executeImport env call) start) = .ok result final) :
    final = { start with importBatches := final.importBatches } := by
  have undone : Keeps
      (fun store : Store =>
        { store.withoutBatch call.batchId withLinks with
          importBatches := start.importBatches } = start)
      (executeImport env call) := by
    apply executeImport_keeps
    · intro store batches same
      exact same
    · intro file _ store next same _ inserted
      rw [← same]
      unfold Store.withoutBatch
      dsimp only
      rw [filter_insert?_vaultRow inserted]
  have before :
      { start.withoutBatch call.batchId withLinks with
        importBatches := start.importBatches } = start := by
    rw [Store.withoutBatch_of_fresh fresh freshLinks]
  have after := Keeps.finalState undone before
  obtain ⟨batch, isBatch, isOpen⟩ := rollbackImport_eq_ok ended
  obtain ⟨_, batches, -, returned⟩ := rollbackImport_of_batch isBatch isOpen
  rw [returned] at ended
  injection ended with _ isFinal
  rw [← isFinal]
  exact congrArg
    (fun store : Store => { store with importBatches := batches }) after

end Rollback

end Registrar
