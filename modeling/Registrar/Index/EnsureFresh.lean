import Registrar.Index.NativeIndex
import Registrar.Library.Transition

/-!
# Sweeps of the native index

A sweep lists the export tree, compares the listing with the file records,
reads what changed and writes it in up to four transactions.  Any number of
managers sweep the same index file, and the tree changes between their steps.
-/

namespace Registrar

/-- The indexed files of the tree. -/
def exportedDocs (tree : SourceTree) : List (DocPlace × SourceFile) :=
  getExportableCollections.flatMap fun collection =>
    (tree.rows.filter fun file =>
      file.1.sourceSubdir = collection.sourceSubdir &&
        isMarkdownName file.1.name).map fun file =>
          ({ collection := collection
             name := file.1.name }, file.2)

theorem mem_exportedDocs_iff {tree : SourceTree} {place : DocPlace}
    {file : SourceFile} :
    (place, file) ∈ exportedDocs tree ↔
      place.IsExported ∧ tree.read place.sourcePath = some file := by
  unfold exportedDocs DocPlace.IsExported
  simp only [List.mem_flatMap, List.mem_map, List.mem_filter,
    Bool.and_eq_true, decide_eq_true_eq, FileTree.read_eq_some_iff]
  constructor
  · rintro ⟨collection, exportable, ⟨⟨subdir, name⟩, file⟩,
      ⟨member, rfl, markdown⟩, same⟩
    cases same
    exact ⟨⟨exportable, markdown⟩, member⟩
  · rintro ⟨⟨exportable, markdown⟩, member⟩
    exact ⟨_, exportable, _, ⟨member, rfl, markdown⟩, rfl⟩

theorem exportedDocs_unique {tree : SourceTree}
    {left right : DocPlace × SourceFile}
    (leftMember : left ∈ exportedDocs tree)
    (rightMember : right ∈ exportedDocs tree)
    (same : left.1.docId = right.1.docId) : left = right := by
  obtain ⟨leftExported, leftFound⟩ := mem_exportedDocs_iff.mp leftMember
  obtain ⟨rightExported, rightFound⟩ := mem_exportedDocs_iff.mp rightMember
  have place := DocPlace.eq_of_docId leftExported rightExported same
  rw [place, rightFound] at leftFound
  exact Prod.ext place (Option.some.inj leftFound).symm

/-- The index holds the text of each exported file once, and nothing else. -/
def Mirrors (tree : SourceTree) (index : NativeIndex) : Prop :=
  (∀ doc ∈ exportedDocs tree,
      index.textsOf doc.1.docId = [doc.2.content]) ∧
    ∀ row ∈ index.docs.rows,
      ∃ doc ∈ exportedDocs tree, doc.1.docId = row.id

instance (tree : SourceTree) (index : NativeIndex) :
    Decidable (Mirrors tree index) :=
  inferInstanceAs (Decidable (_ ∧ _))

/-- A file of the listing, with its modification time. -/
structure SeenFile where
  place : DocPlace
  mtimeMs : Int
  deriving DecidableEq

structure PlannedFile where
  seen : SeenFile
  isNew : Bool
  deriving DecidableEq

structure ReadFile where
  planned : PlannedFile
  content : String
  deriving DecidableEq

structure RemovedFile where
  path : String
  docId : String
  deriving DecidableEq, Repr

/-- What a sweep writes. -/
structure SweepDelta where
  reads : List ReadFile
  toRemove : List RemovedFile
  deriving DecidableEq

def ReadFile.docId (read : ReadFile) : String :=
  read.planned.seen.place.docId

def ReadFile.mtimeMs (read : ReadFile) : Int :=
  read.planned.seen.mtimeMs

def ReadFile.doc (read : ReadFile) : IndexedDoc where
  id := read.docId
  content := read.content
  collection := read.planned.seen.place.collection.name

namespace SweepDelta

def toInsert (delta : SweepDelta) : List IndexedDoc :=
  (delta.reads.filter fun read => read.planned.isNew).map ReadFile.doc

def toReplace (delta : SweepDelta) : List IndexedDoc :=
  (delta.reads.filter fun read => !read.planned.isNew).map ReadFile.doc

def removedIds (delta : SweepDelta) : List String :=
  delta.toRemove.map (·.docId)

end SweepDelta

/-- Compare a listed file with its record. -/
def planFile (exportDir : String) (index : NativeIndex) (seen : SeenFile) :
    Option PlannedFile :=
  match index.files.read (seen.place.path exportDir) with
  | none =>
      some
        { seen := seen
          isNew := true }
  | some prior =>
      if prior.mtimeMs = seen.mtimeMs then none
      else
        some
          { seen := seen
            isNew := false }

/-- The records of files that are not listed. -/
def missingFiles (exportDir : String) (index : NativeIndex)
    (onDisk : List SeenFile) : List RemovedFile :=
  (index.files.rows.filter fun file =>
    !onDisk.any fun seen => seen.place.path exportDir = file.1).map fun file =>
      { path := file.1
        docId := file.2.docId }

def recordFiles (exportDir : String) (index : NativeIndex)
    (delta : SweepDelta) : NativeIndex :=
  let written := delta.reads.foldl
    (fun index read =>
      index.upsertFile (read.planned.seen.place.path exportDir)
        { docId := read.docId
          mtimeMs := read.mtimeMs }) index
  delta.toRemove.foldl (fun index removed => index.deleteFile removed.path)
    written

/-- Where a sweep stands. -/
inductive SweepPhase where
  | idle
  /-- The directories to read, the names to look at, and what was seen. -/
  | listing (collections : List ExportableCollectionDef)
      (names : List DocPlace) (onDisk : List SeenFile)
  | reading (pending : List PlannedFile) (delta : SweepDelta)
  | inserting (delta : SweepDelta)
  | replacing (delta : SweepDelta)
  | removing (delta : SweepDelta)
  | recording (delta : SweepDelta)
  deriving DecidableEq

/-- The names of the markdown files in the directory of a collection. -/
def readCollection (tree : SourceTree)
    (collection : ExportableCollectionDef) : List DocPlace :=
  ((tree.rows.filter fun file =>
    file.1.sourceSubdir = collection.sourceSubdir).map fun file =>
      ({ collection := collection
         name := file.1.name } : DocPlace)).filter fun place =>
            isMarkdownName place.name

/-- One step of a sweep: a directory listing, a look at a file, the selection
of the file records, a read, or a transaction. -/
def SweepPhase.advance (exportDir : String) (tree : SourceTree)
    (index : NativeIndex) : SweepPhase → NativeIndex × SweepPhase
  | .idle => (index, .idle)
  | .listing collections (place :: names) onDisk =>
      match tree.read place.sourcePath with
      | none => (index, .listing collections names onDisk)
      | some file =>
          (index, .listing collections names
            (onDisk ++
              [{ place := place
                 mtimeMs := file.mtimeMs }]))
  | .listing (collection :: collections) [] onDisk =>
      (index, .listing collections (readCollection tree collection) onDisk)
  | .listing [] [] onDisk =>
      (index, .reading (onDisk.filterMap (planFile exportDir index))
        { reads := []
          toRemove := missingFiles exportDir index onDisk })
  | .reading (planned :: pending) delta =>
      match tree.read planned.seen.place.sourcePath with
      | none => (index, .reading pending delta)
      | some file =>
          (index, .reading pending
            { reads := delta.reads ++
                [{ planned := planned
                   content := file.content }]
              toRemove := delta.toRemove })
  | .reading [] delta => (index, .inserting delta)
  | .inserting delta => (index.insert delta.toInsert, .replacing delta)
  | .replacing delta => (index.index delta.toReplace, .removing delta)
  | .removing delta => (index.remove delta.removedIds, .recording delta)
  | .recording delta => (recordFiles exportDir index delta, .idle)

structure NativeIndexManager where
  exportDir : String
  refreshTtlMs : Int
  lastRefreshMs : Int
  phase : SweepPhase
  deriving DecidableEq

/-- The refresh interval has not passed. -/
def NativeIndexManager.isThrottled (manager : NativeIndexManager)
    (nowMs : Int) : Bool :=
  nowMs - manager.lastRefreshMs < manager.refreshTtlMs

/-- Start a sweep if the refresh interval has passed. -/
def NativeIndexManager.ensureFresh (manager : NativeIndexManager)
    (nowMs : Int) : NativeIndexManager :=
  if manager.isThrottled nowMs then manager
  else
    { manager with
      lastRefreshMs := nowMs
      phase := .listing getExportableCollections [] [] }

/-- The process that replaces a crashed one. -/
def NativeIndexManager.restarted (manager : NativeIndexManager) :
    NativeIndexManager :=
  { manager with
    lastRefreshMs := 0
    phase := .idle }

structure IndexSystem where
  tree : SourceTree
  index : NativeIndex
  managers : List NativeIndexManager

inductive IndexStep where
  | writeFile (path : SourcePath) (file : SourceFile)
  | removeFile (path : SourcePath)
  | ensureFresh (manager : Nat) (nowMs : Int)
  | advance (manager : Nat)
  | crash (manager : Nat)
  deriving DecidableEq

namespace IndexSystem

/-- An empty index file and managers that have not swept yet. -/
def start (tree : SourceTree) (configs : List (String × Int)) :
    IndexSystem where
  tree := tree
  index := .empty
  managers := configs.map fun config =>
    { exportDir := config.1
      refreshTtlMs := config.2
      lastRefreshMs := 0
      phase := .idle }

def step (system : IndexSystem) : IndexStep → IndexSystem
  | .writeFile path file =>
      { system with tree := system.tree.write path file }
  | .removeFile path =>
      { system with tree := system.tree.unlink path }
  | .ensureFresh position nowMs =>
      match system.managers[position]? with
      | none => system
      | some manager =>
          -- A sweep runs on one thread, so a second one waits for its end.
          if manager.phase = .idle then
            { system with
              managers :=
                system.managers.set position (manager.ensureFresh nowMs) }
          else system
  | .advance position =>
      match system.managers[position]? with
      | none => system
      | some manager =>
          let next := manager.phase.advance manager.exportDir system.tree
            system.index
          { system with
            index := next.1
            managers :=
              system.managers.set position { manager with phase := next.2 } }
  | .crash position =>
      match system.managers[position]? with
      | none => system
      | some manager =>
          { system with
            managers := system.managers.set position manager.restarted }

/-- No sweep is under way. -/
def IsIdle (system : IndexSystem) : Prop :=
  ∀ manager ∈ system.managers, manager.phase = .idle

instance (system : IndexSystem) : Decidable system.IsIdle :=
  inferInstanceAs (Decidable (∀ manager ∈ _, _))

end IndexSystem

end Registrar
