import Registrar.Export.StaleFiles

/-!
# Export runs

A run compares the store with the export tree: it writes the files of active
memories, moves those of the others to the archive and, in reconcile mode,
removes stale ones.  A run keeps the list of its file operations, so that a
crash is a prefix of that list.
-/

namespace Registrar

structure ExportConfig where
  outputDir : String
  targetId : String
  tenantId : Option String
  reconcile : Bool
  maxOrphanRemovals : Option Nat
  deriving DecidableEq, Repr

def defaultMaxOrphanRemovals : Nat := 50

def ExportConfig.orphanLimit (config : ExportConfig) : Nat :=
  config.maxOrphanRemovals.getD defaultMaxOrphanRemovals

/-- The memories that a run with this tenant filter reads. -/
def exportedMemories (memories : MemoryTable) (tenantId : Option String) :
    List CuratedMemory :=
  match tenantId with
  | some tenantId =>
      memories.rows.filter fun memory => memory.tenantId.value = tenantId
  | none =>
      [MemoryLifecycleState.active, .deprecated, .superseded,
        .archived].flatMap fun lifecycle =>
          memories.rows.filter fun memory => memory.lifecycle = lifecycle

structure ExportChangeset where
  toWrite : List CuratedMemory
  toArchive : List CuratedMemory
  toRemove : List ExportPath
  removalBlocked : Option RemovalBlocked
  deriving DecidableEq

/-- The row is looked at again: there is no cursor, it is not older than the
cursor, or the run looks at everything. -/
def isChanged (config : ExportConfig) (lastExportedAt : Option String)
    (memory : CuratedMemory) : Bool :=
  match lastExportedAt with
  | none => true
  | some cursor => config.reconcile || cursor ≤ memory.updatedAt

def detectChanges (memories : MemoryTable) (config : ExportConfig)
    (lastExportedAt : Option String) (tree : ExportTree) : ExportChangeset :=
  let allMemories := exportedMemories memories config.tenantId
  let changed := allMemories.filter (isChanged config lastExportedAt)
  let stale : StaleScan :=
    if config.reconcile then
      findStaleFiles config.outputDir allMemories config.tenantId
        config.orphanLimit tree
    else
      { toRemove := []
        removalBlocked := none }
  { toWrite := changed.filter fun memory => getDirectory memory ≠ .archive
    toArchive := changed.filter fun memory => getDirectory memory = .archive
    toRemove := stale.toRemove
    removalBlocked := stale.removalBlocked }

inductive FileOperation where
  | write (path : ExportPath) (content : String)
  | unlink (path : ExportPath)
  deriving DecidableEq, Repr

def FileOperation.apply (tree : ExportTree) : FileOperation → ExportTree
  | .write path content => tree.write path content
  | .unlink path => tree.unlink path

structure WriteFailure where
  message : String
  /-- What the failed write leaves under the path, if it got that far. -/
  leftover : Option String
  deriving DecidableEq, Repr

/-- The errors of the file system. -/
structure FileFaults where
  write : ExportPath → Option WriteFailure
  unlink : ExportPath → Option String

def FileFaults.none : FileFaults where
  write _ := Option.none
  unlink _ := Option.none

structure QuarantinedMemory where
  id : String
  category : String
  reason : String
  deriving DecidableEq, Repr

structure ExportRun where
  start : ExportTree
  operations : List FileOperation
  written : List ExportPath
  archived : List ExportPath
  removed : List ExportPath
  skipped : List String
  quarantined : List QuarantinedMemory
  unchanged : Nat

namespace ExportRun

def begin (tree : ExportTree) : ExportRun where
  start := tree
  operations := []
  written := []
  archived := []
  removed := []
  skipped := []
  quarantined := []
  unchanged := 0

/-- The tree after the operations so far. -/
def tree (run : ExportRun) : ExportTree :=
  run.operations.foldl FileOperation.apply run.start

def perform (run : ExportRun) (operation : FileOperation) : ExportRun :=
  { run with operations := run.operations ++ [operation] }

def quarantine (run : ExportRun) (memory : CuratedMemory) (reason : String) :
    ExportRun :=
  { run with
    quarantined :=
      run.quarantined ++
        [{ id := memory.id
           category := memory.category.text
           reason := reason }] }

def remove (run : ExportRun) (path : ExportPath) : ExportRun :=
  { run.perform (.unlink path) with removed := run.removed ++ [path] }

@[simp]
theorem begin_tree (tree : ExportTree) : (begin tree).tree = tree := rfl

@[simp]
theorem perform_tree (run : ExportRun) (operation : FileOperation) :
    (run.perform operation).tree = operation.apply run.tree := by
  simp [tree, perform]

@[simp]
theorem quarantine_tree (run : ExportRun) (memory : CuratedMemory)
    (reason : String) : (run.quarantine memory reason).tree = run.tree := rfl

@[simp]
theorem remove_tree (run : ExportRun) (path : ExportPath) :
    (run.remove path).tree = run.tree.unlink path :=
  perform_tree run (.unlink path)

end ExportRun

def writeFile (faults : FileFaults) (path : ExportPath) (content : String)
    (run : ExportRun) : Option String × ExportRun :=
  match faults.write path with
  | none => (none, run.perform (.write path content))
  | some failure =>
      match failure.leftover with
      | none => (some failure.message, run)
      | some text => (some failure.message, run.perform (.write path text))

/-- Removes the file from its old place before writing it to the new one. -/
def archiveFile (faults : FileFaults) (fromPath toPath : ExportPath)
    (content : String) (run : ExportRun) : Option String × ExportRun :=
  if run.tree.exists? fromPath then
    match faults.unlink fromPath with
    | some message => (some message, run)
    | none => writeFile faults toPath content (run.perform (.unlink fromPath))
  else writeFile faults toPath content run

/-- Removes the files in turn, up to the first error. -/
def removeFiles (faults : FileFaults) :
    List ExportPath → ExportRun → Option String × ExportRun
  | [], run => (none, run)
  | path :: rest, run =>
      if run.tree.exists? path then
        match faults.unlink path with
        | some message => (some message, run)
        | none => removeFiles faults rest (run.remove path)
      else removeFiles faults rest run

/-- One turn of the write loop. -/
def writeMemory (faults : FileFaults) (outputDir : String) (run : ExportRun)
    (memory : CuratedMemory) : ExportRun :=
  if isExportRestricted memory then
    { run with skipped := run.skipped ++ [memory.id] }
  else
    let path := exportPath outputDir memory
    let content := formatMemoryAsMarkdown memory
    if run.tree.read path = some content then
      { run with unchanged := run.unchanged + 1 }
    else
      match writeFile faults path content run with
      | (some reason, next) => next.quarantine memory reason
      | (none, next) => { next with written := next.written ++ [path] }

/-- One turn of the archive loop. -/
def archiveMemory (faults : FileFaults) (outputDir : String) (run : ExportRun)
    (memory : CuratedMemory) : ExportRun :=
  if isExportRestricted memory then
    { run with skipped := run.skipped ++ [memory.id] }
  else
    let fromPath := activePath outputDir memory
    let toPath := exportPath outputDir memory
    let content := formatMemoryAsMarkdown memory
    if run.tree.exists? fromPath = false ∧
        run.tree.read toPath = some content then
      { run with unchanged := run.unchanged + 1 }
    else
      match archiveFile faults fromPath toPath content run with
      | (some reason, next) => next.quarantine memory reason
      | (none, next) => { next with archived := next.archived ++ [toPath] }

/-- The run after its two loops. -/
def exportChanges (faults : FileFaults) (outputDir : String)
    (changeset : ExportChangeset) (tree : ExportTree) : ExportRun :=
  changeset.toArchive.foldl (archiveMemory faults outputDir)
    (changeset.toWrite.foldl (writeMemory faults outputDir) (.begin tree))

structure ExportResult where
  written : List ExportPath
  archived : List ExportPath
  removed : List ExportPath
  skipped : List String
  quarantined : List QuarantinedMemory
  unchanged : Nat
  totalProcessed : Nat
  removalBlocked : Option RemovalBlocked
  deriving DecidableEq, Repr

/-- What the exporter reads and writes besides the memories: the cursor of
each target and the files. -/
structure ExportWorld where
  exportState : String → Option String
  tree : ExportTree

/-- The run with its removals; an error of a removal ends it. -/
def exportFiles (faults : FileFaults) (memories : MemoryTable)
    (config : ExportConfig) (world : ExportWorld) :
    Option String × ExportRun :=
  let changeset := detectChanges memories config
    (world.exportState config.targetId) world.tree
  removeFiles faults changeset.toRemove
    (exportChanges faults config.outputDir changeset world.tree)

def runExport (faults : FileFaults) (memories : MemoryTable)
    (config : ExportConfig) (startedAt : String) (world : ExportWorld) :
    Except String ExportResult × ExportWorld :=
  let changeset := detectChanges memories config
    (world.exportState config.targetId) world.tree
  match exportFiles faults memories config world with
  | (some message, run) => (.error message, { world with tree := run.tree })
  | (none, run) =>
      (.ok
          { written := run.written
            archived := run.archived
            removed := run.removed
            skipped := run.skipped
            quarantined := run.quarantined
            unchanged := run.unchanged
            totalProcessed :=
              changeset.toWrite.length + changeset.toArchive.length +
                changeset.toRemove.length
            removalBlocked := changeset.removalBlocked },
        { exportState :=
            Function.update world.exportState config.targetId (some startedAt)
          tree := run.tree })

end Registrar
