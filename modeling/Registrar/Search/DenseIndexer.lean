import Registrar.Index.ExportTruth
import Registrar.Search.NativeSearch

/-!
# The dense index

The indexer embeds what is new or changed in the export tree and removes what
has gone; an outage of the embedder leaves the rest of the index as it is.  A
search takes the nearest rows of the collections in scope.
-/

namespace Registrar

abbrev Embedding := List ℚ

/-- A document and its vector, which are written together. -/
structure DenseRow where
  docId : String
  collection : String
  contentHash : String
  snippet : String
  embedding : Embedding
  deriving DecidableEq, Repr

structure DenseVecIndex where
  modelId : Option String
  modelVersion : Option String
  dims : Option Nat
  rows : List DenseRow
  deriving DecidableEq, Repr

def denseSnippetChars : Nat := 160

namespace DenseVecIndex

def empty : DenseVecIndex where
  modelId := none
  modelVersion := none
  dims := none
  rows := []

def wipe (index : DenseVecIndex) : DenseVecIndex :=
  { index with
    dims := none
    rows := [] }

/-- Vectors of another model are dropped when the index is opened. -/
def construct (index : DenseVecIndex) (modelId modelVersion : String) :
    DenseVecIndex :=
  let other := index.modelId.any (· ≠ modelId) ||
    index.modelVersion.any (· ≠ modelVersion)
  { (if other then index.wipe else index) with
    modelId := some modelId
    modelVersion := some modelVersion }

def ensureVecTable (index : DenseVecIndex) (dims : Nat) : DenseVecIndex :=
  if index.dims = some dims then index
  else { index.wipe with dims := some dims }

def upsert (index : DenseVecIndex) (doc : DenseRow) : DenseVecIndex :=
  let sized := index.ensureVecTable doc.embedding.length
  { sized with rows := sized.rows.filter (·.docId ≠ doc.docId) ++ [doc] }

def remove (index : DenseVecIndex) (docIds : List String) : DenseVecIndex :=
  { index with rows := index.rows.filter (·.docId ∉ docIds) }

/-- The stored hash of a document. -/
def storedHash (index : DenseVecIndex) (docId : String) : Option String :=
  (index.rows.find? (·.docId = docId)).map (·.contentHash)

end DenseVecIndex

/-- A document on disk, with the text that is embedded. -/
structure DenseInput where
  docId : String
  collection : String
  text : String
  contentHash : String
  snippet : String
  deriving DecidableEq, Repr

/-- What the embedding service answers during one sweep.  A batch is known by
the number of documents before it. -/
structure EmbedAnswers where
  healthy : Bool
  /-- The vectors of a batch, after its retries. -/
  embedBatch : Nat → List String → Option (List Embedding)
  /-- Whether the service is up after a batch has failed. -/
  healthyAfter : Nat → Bool

structure DenseIndexReport where
  embedded : Nat
  removed : Nat
  skipped : Nat
  totalDocs : Nat
  serviceDown : Bool
  deriving DecidableEq, Repr

structure DenseIndexer where
  maxDocChars : Nat
  batchSize : Nat
  positive : 0 < batchSize

/-- The vectors of a batch are stored with their documents. -/
def storeBatch (index : DenseVecIndex) (batch : List DenseInput)
    (vectors : List Embedding) : DenseVecIndex :=
  (batch.zip vectors).foldl
    (fun index (doc, embedding) =>
      index.upsert
        { docId := doc.docId
          collection := doc.collection
          contentHash := doc.contentHash
          snippet := doc.snippet
          embedding := embedding }) index

/-- The loop over the batches, with the documents before the next one. -/
def embedBatches (indexer : DenseIndexer) (answers : EmbedAnswers)
    (total start : Nat) (index : DenseVecIndex) (report : DenseIndexReport)
    (pending : List DenseInput) : DenseVecIndex × DenseIndexReport :=
  if pending = [] then (index, report)
  else
    let batch := pending.take indexer.batchSize
    match answers.embedBatch start (batch.map (·.text)) with
    | some vectors =>
        embedBatches indexer answers total (start + indexer.batchSize)
          (storeBatch index batch vectors)
          { report with
            embedded := report.embedded + (batch.zip vectors).length }
          (pending.drop indexer.batchSize)
    | none =>
        if answers.healthyAfter start then
          embedBatches indexer answers total (start + indexer.batchSize) index
            { report with skipped := report.skipped + batch.length }
            (pending.drop indexer.batchSize)
        else
          (index,
            { report with
              skipped := report.skipped + (total - start)
              serviceDown := true })
termination_by pending.length
decreasing_by
  all_goals
    have nonempty : 0 < pending.length := List.length_pos_iff.mpr ‹_›
    have positive := indexer.positive
    rw [List.length_drop]
    omega

namespace DenseIndexer

variable (env : Environment)

def onDisk (indexer : DenseIndexer) (tree : SourceTree) : List DenseInput :=
  (exportedDocs tree).map fun doc =>
    let text := leadingUnits doc.2.content indexer.maxDocChars
    { docId := doc.1.docId
      collection := doc.1.collection.name
      text := text
      contentHash := computeContentHash env text
      snippet := leadingUnits doc.2.content denseSnippetChars }

/-- Bring the index up to date with the export tree. -/
def sync (indexer : DenseIndexer) (answers : EmbedAnswers) (tree : SourceTree)
    (index : DenseVecIndex) : DenseVecIndex × DenseIndexReport :=
  let onDisk := indexer.onDisk env tree
  let toEmbed := onDisk.filter fun doc =>
    index.storedHash doc.docId ≠ some doc.contentHash
  let toRemove := (index.rows.map (·.docId)).filter fun docId =>
    docId ∉ onDisk.map (·.docId)
  let cleared := index.remove toRemove
  if toEmbed ≠ [] ∧ answers.healthy = false then
    (cleared,
      { embedded := 0
        removed := toRemove.length
        skipped := toEmbed.length
        totalDocs := onDisk.length
        serviceDown := true })
  else
    embedBatches indexer answers toEmbed.length 0 cleared
      { embedded := 0
        removed := toRemove.length
        skipped := 0
        totalDocs := onDisk.length
        serviceDown := false } toEmbed

end DenseIndexer

namespace DenseVecIndex

def Placed (index : DenseVecIndex) : Prop :=
  ∀ row ∈ index.rows, CitesPlace row.docId row.collection

variable {index : DenseVecIndex}

theorem placed_wipe (index : DenseVecIndex) : index.wipe.Placed :=
  fun _ member => nomatch member

theorem Placed.construct (placed : index.Placed)
    (modelId modelVersion : String) :
    (index.construct modelId modelVersion).Placed := by
  unfold DenseVecIndex.construct
  dsimp only
  split_ifs with other
  · exact placed_wipe index
  · exact placed

theorem Placed.upsert {doc : DenseRow} (placed : index.Placed)
    (cites : CitesPlace doc.docId doc.collection) :
    (index.upsert doc).Placed := by
  have sized : (index.ensureVecTable doc.embedding.length).Placed := by
    unfold ensureVecTable
    split_ifs with same
    · exact placed
    · exact placed_wipe index
  intro row member
  rcases List.mem_append.mp member with before | new
  · exact sized row (List.mem_of_mem_filter before)
  · rw [List.mem_singleton.mp new]
    exact cites

theorem Placed.remove (placed : index.Placed) (docIds : List String) :
    (index.remove docIds).Placed :=
  fun row member => placed row (List.mem_of_mem_filter member)

theorem Placed.storeBatch {batch : List DenseInput}
    (placed : index.Placed)
    (cites : ∀ doc ∈ batch, CitesPlace doc.docId doc.collection)
    (vectors : List Embedding) : (storeBatch index batch vectors).Placed := by
  unfold Registrar.storeBatch
  induction batch generalizing index vectors with
  | nil => exact placed
  | cons doc rest induction =>
      obtain ⟨first, later⟩ := List.forall_mem_cons.mp cites
      cases vectors with
      | nil => exact placed
      | cons vector vectors =>
          exact induction (placed.upsert first) later vectors

theorem Placed.embedBatches {indexer : DenseIndexer} {answers : EmbedAnswers}
    {total start : Nat} {report : DenseIndexReport}
    {pending : List DenseInput} (placed : index.Placed)
    (cites : ∀ doc ∈ pending, CitesPlace doc.docId doc.collection) :
    (embedBatches indexer answers total start index report
      pending).1.Placed := by
  fun_induction Registrar.embedBatches indexer answers total start index
    report pending with
  | case1 => exact placed
  | case2 start index report pending some batch vectors answered induction =>
      refine induction (placed.storeBatch ?_ vectors) ?_
      · exact fun doc member => cites doc (List.mem_of_mem_take member)
      · exact fun doc member => cites doc (List.mem_of_mem_drop member)
  | case3 start index report pending some batch failed up induction =>
      exact induction placed fun doc member =>
        cites doc (List.mem_of_mem_drop member)
  | case4 => exact placed

theorem Placed.sync {env : Environment} {indexer : DenseIndexer}
    {answers : EmbedAnswers} {tree : SourceTree} (placed : index.Placed) :
    (indexer.sync env answers tree index).1.Placed := by
  have cites : ∀ doc ∈ indexer.onDisk env tree,
      CitesPlace doc.docId doc.collection := by
    intro doc member
    obtain ⟨⟨place, file⟩, isDoc, rfl⟩ := List.mem_map.mp member
    exact (mem_exportedDocs_iff.mp isDoc).1.citesPlace
  unfold DenseIndexer.sync
  dsimp only
  split_ifs with down
  · exact placed.remove _
  · exact (placed.remove _).embedBatches fun doc member =>
      cites doc (List.mem_of_mem_filter member)

end DenseVecIndex

inductive DenseStep where
  | construct (modelId modelVersion : String)
  | sync (indexer : DenseIndexer) (answers : EmbedAnswers) (tree : SourceTree)

def DenseVecIndex.step (env : Environment) (index : DenseVecIndex) :
    DenseStep → DenseVecIndex
  | .construct modelId modelVersion => index.construct modelId modelVersion
  | .sync indexer answers tree => (indexer.sync env answers tree index).1

theorem placed_denseRun {env : Environment} (labels : List DenseStep) :
    (Transition.run (DenseVecIndex.step env) .empty labels).Placed := by
  have kept (index : DenseVecIndex) (label : DenseStep)
      (placed : index.Placed) : (index.step env label).Placed := by
    cases label with
    | construct modelId modelVersion => exact placed.construct _ _
    | sync indexer answers tree => exact placed.sync
  exact Transition.invariant_of_run kept labels fun _ member => nomatch member

/-- How far the rows lie from a query vector. -/
abbrev Distance := Embedding → DenseRow → ℚ

def DenseVecIndex.nearest (distance : Distance) (index : DenseVecIndex)
    (queryEmbedding : Embedding) (allowedCollections : List String) :
    List DenseRow :=
  (index.rows.filter fun row =>
    decide (InScope allowedCollections row.collection)).insertionSort
      fun left right =>
        distance queryEmbedding left ≤ distance queryEmbedding right

def DenseRow.toHit (distance : Distance) (queryEmbedding : Embedding)
    (row : DenseRow) : IndexHit where
  id := row.docId
  score := 1 - distance queryEmbedding row * distance queryEmbedding row / 2
  snippet := row.snippet
  collection := row.collection

def DenseVecIndex.search (distance : Distance) (index : DenseVecIndex)
    (queryEmbedding : Embedding) (k : Nat)
    (allowedCollections : List String) : List IndexHit :=
  if index.dims ≠ some queryEmbedding.length then []
  else ((index.nearest distance queryEmbedding allowedCollections).take k).map
    (DenseRow.toHit distance queryEmbedding)

theorem DenseVecIndex.exists_of_mem_search {distance : Distance}
    {index : DenseVecIndex} {queryEmbedding : Embedding} {k : Nat}
    {allowedCollections : List String} {hit : IndexHit}
    (member : hit ∈ index.search distance queryEmbedding k
      allowedCollections) :
    index.dims.isSome ∧ 0 < k ∧ ∃ row ∈ index.rows,
      InScope allowedCollections row.collection ∧ hit.id = row.docId ∧
        hit.collection = row.collection := by
  unfold DenseVecIndex.search at member
  split_ifs at member with foreign
  · cases member
  · obtain ⟨row, isRow, rfl⟩ := List.mem_map.mp member
    have nearest := List.mem_of_mem_take isRow
    have positive : 0 < k := by
      by_contra none
      rw [Nat.eq_zero_of_not_pos none, List.take_zero] at isRow
      cases isRow
    have filtered := (List.mem_insertionSort _).mp nearest
    obtain ⟨stored, inScope⟩ := List.mem_filter.mp filtered
    rw [not_not.mp foreign]
    exact ⟨rfl, positive, row, stored, by simpa using inScope, rfl, rfl⟩

/-- The document that alone lies at no distance is found first. -/
theorem DenseVecIndex.exists_mem_search {distance : Distance}
    {index : DenseVecIndex} {queryEmbedding : Embedding} {k : Nat}
    {allowedCollections : List String} {row : DenseRow}
    (sized : index.dims = some queryEmbedding.length)
    (stored : row ∈ index.rows)
    (inScope : InScope allowedCollections row.collection)
    (only : ∀ other, distance queryEmbedding other =
      if other.docId = row.docId then 0 else 1) :
    ∃ hit ∈ index.search distance queryEmbedding (k + 1) allowedCollections,
      hit.id = row.docId := by
  unfold DenseVecIndex.search
  rw [if_neg (not_not.mpr sized)]
  have isNearest : row ∈ index.nearest distance queryEmbedding
      allowedCollections := by
    unfold DenseVecIndex.nearest
    rw [List.mem_insertionSort, List.mem_filter]
    exact ⟨stored, by simpa using inScope⟩
  have sorted : (index.nearest distance queryEmbedding
      allowedCollections).Pairwise fun left right =>
        distance queryEmbedding left ≤ distance queryEmbedding right :=
    List.pairwise_insertionSort _ _
  cases nearest : index.nearest distance queryEmbedding
      allowedCollections with
  | nil =>
      rw [nearest] at isNearest
      cases isNearest
  | cons first rest =>
      refine ⟨first.toHit distance queryEmbedding, by simp, ?_⟩
      rw [nearest] at isNearest sorted
      by_contra other
      have far : distance queryEmbedding first = 1 :=
        (only first).trans (if_neg other)
      have near : distance queryEmbedding row = 0 := by
        rw [only, if_pos rfl]
      rcases List.mem_cons.mp isNearest with rfl | later
      · exact other rfl
      · have ordered := (List.pairwise_cons.mp sorted).1 row later
        rw [far, near] at ordered
        norm_num at ordered

end Registrar
