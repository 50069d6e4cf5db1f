import Registrar.Index.ExportTruth

/-!
# The index scrub

For each index file the scrub plans which rows go and then deletes them in one
transaction.  A row stays when its document is exported at that place with that
content and its memory is not to be dropped.
-/

namespace Registrar

/-- What the planners know about the world. -/
structure PlanContext where
  truth : ExportTruth
  isWord : Char → Bool
  dropMemoryIds : List String

inductive ScrubVerdict where
  | targeted
  | stale
  deriving DecidableEq, Repr

/-- Why a row goes, if it does.  Without an export nothing is stale. -/
def classify (ctx : PlanContext) (memoryPath : String)
    (matchesExport : Bool) : Option ScrubVerdict :=
  if memoryIdOfPath memoryPath ∈ ctx.dropMemoryIds then some .targeted
  else if !ctx.truth.present then none
  else if matchesExport then none
  else some .stale

structure QmdDocument where
  id : Int
  collection : String
  path : String
  hash : String
  active : Int
  deriving DecidableEq, Repr

structure QmdContent where
  hash : String
  doc : String
  deriving DecidableEq, Repr

structure QmdVector where
  hash : String
  seq : Int
  deriving DecidableEq, Repr

/-- The key of a vector in the vector table. -/
def QmdVector.hashSeq (vector : QmdVector) : String :=
  vector.hash ++ "_" ++ toString vector.seq

/-- The tables of the qmd index; those that its owner creates later may be
missing. -/
structure QmdIndex where
  documents : Table (Table.DistinctKey QmdDocument.id)
  documentsFts : List Int
  content : List QmdContent
  contentVectors : Option (List QmdVector)
  vectorsVec : Option (List String)
  llmCache : Option (List String)

/-- The qmd document stays. -/
def keepsQmdDocument (ctx : PlanContext) (doc : QmdDocument) : Bool :=
  doc.active = 1 &&
    classify ctx doc.path
      ((ctx.truth.qmdGet ctx.isWord
        (qmdKey doc.collection doc.path)).map (·.qmdHash) =
          some doc.hash) = none

structure QmdPlan where
  deleteIds : List Int
  ftsRowids : List Int
  orphanHashes : List String
  orphanVectors : List QmdVector
  deriving DecidableEq, Repr

def planQmd (ctx : PlanContext) (index : QmdIndex) : QmdPlan :=
  let kept := index.documents.rows.filter (keepsQmdDocument ctx)
  let keepIds := kept.map (·.id)
  let keepHashes := kept.map (·.hash)
  { deleteIds :=
      (index.documents.rows.filter fun doc =>
        !keepsQmdDocument ctx doc).map (·.id)
    ftsRowids := index.documentsFts.filter (· ∉ keepIds)
    orphanHashes :=
      (index.content.map (·.hash)).filter (· ∉ keepHashes)
    orphanVectors :=
      (index.contentVectors.getD []).filter (·.hash ∉ keepHashes) }

/-- The deletions of the plan.  The statement for the vectors is prepared
whether or not their table exists, and then fails. -/
def QmdPlan.apply (plan : QmdPlan) (index : QmdIndex) :
    Except String QmdIndex :=
  match index.contentVectors with
  | none => .error "no such table: content_vectors"
  | some vectors =>
      .ok
        { documents :=
            index.documents.filter fun doc => doc.id ∉ plan.deleteIds
          documentsFts :=
            index.documentsFts.filter (· ∉ plan.ftsRowids)
          content :=
            index.content.filter fun row => row.hash ∉ plan.orphanHashes
          contentVectors := some (vectors.filter (· ∉ plan.orphanVectors))
          vectorsVec :=
            index.vectorsVec.map (·.filter
              (· ∉ plan.orphanVectors.map QmdVector.hashSeq))
          llmCache := index.llmCache.map fun _ => [] }

structure NativePlan where
  deleteRowids : List Nat
  dropFileDocIds : List String
  seen : List String
  deriving DecidableEq, Repr

/-- Judge the rows in order; `seen` are the ids of the rows that stay. -/
def scanDocs (ctx : PlanContext) (seen : List String) :
    List DocRow → NativePlan
  | [] =>
      { deleteRowids := []
        dropFileDocIds := []
        seen := seen }
  | row :: rest =>
      match classify ctx row.id
        ((ctx.truth.get row.id).map (·.content) = some row.content &&
          row.id ∉ seen) with
      | none => scanDocs ctx (row.id :: seen) rest
      | some .targeted =>
          -- The file record stays, so that a sweep does not read the old
          -- text again.
          let plan := scanDocs ctx seen rest
          { plan with deleteRowids := row.rowid :: plan.deleteRowids }
      | some .stale =>
          let plan := scanDocs ctx seen rest
          { plan with
            deleteRowids := row.rowid :: plan.deleteRowids
            dropFileDocIds := row.id :: plan.dropFileDocIds }

/-- A document with a row that stays keeps its file record. -/
def planNative (ctx : PlanContext) (index : NativeIndex) : NativePlan :=
  let plan := scanDocs ctx [] index.docs.rows
  { plan with
    dropFileDocIds := plan.dropFileDocIds.filter (· ∉ plan.seen) }

def NativePlan.apply (plan : NativePlan) (index : NativeIndex) :
    NativeIndex where
  docs := index.docs.filter fun row => row.rowid ∉ plan.deleteRowids
  files := index.files.filter fun file =>
    file.2.docId ∉ plan.dropFileDocIds

structure DenseDoc where
  rowid : Int
  docId : String
  contentHash : String
  deriving DecidableEq, Repr

structure DenseIndex where
  denseDocs : Table (Table.DistinctKey DenseDoc.rowid)
  denseVec : Option (List Int)

def keepsDenseDoc (ctx : PlanContext) (row : DenseDoc) : Bool :=
  classify ctx row.docId
    ((ctx.truth.get row.docId).map (·.denseHash) = some row.contentHash) =
      none

structure DensePlan where
  deleteRowids : List Int
  orphanVecRowids : List Int
  deriving DecidableEq, Repr

def planDense (ctx : PlanContext) (index : DenseIndex) : DensePlan :=
  let keepRowids :=
    (index.denseDocs.rows.filter (keepsDenseDoc ctx)).map (·.rowid)
  { deleteRowids :=
      (index.denseDocs.rows.filter fun row =>
        !keepsDenseDoc ctx row).map (·.rowid)
    orphanVecRowids := (index.denseVec.getD []).filter (· ∉ keepRowids) }

def DensePlan.apply (plan : DensePlan) (index : DenseIndex) :
    DenseIndex where
  denseDocs := index.denseDocs.filter fun row => row.rowid ∉ plan.deleteRowids
  denseVec := index.denseVec.map (·.filter (· ∉ plan.orphanVecRowids))

structure IndexTriple where
  qmd : QmdIndex
  native : NativeIndex
  dense : DenseIndex

/-- The scrub of the three files, with mass removals allowed. -/
def scrubQmd (ctx : PlanContext) (index : QmdIndex) :
    Except String QmdIndex :=
  (planQmd ctx index).apply index

def scrubNative (ctx : PlanContext) (index : NativeIndex) : NativeIndex :=
  (planNative ctx index).apply index

def scrubDense (ctx : PlanContext) (index : DenseIndex) : DenseIndex :=
  (planDense ctx index).apply index

end Registrar
