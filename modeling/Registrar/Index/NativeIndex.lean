import Mathlib.Data.List.Nodup
import Registrar.Library.FileTree

/-!
# The native index

The native index keeps the text of the exported files in one table and what it
knows about each file in another.  The tables are described by the texts they
hold under a document id and by the records they hold under a path.
-/

namespace Registrar

structure CollectionDef where
  name : String
  includeInDefaultSearch : Bool
  sourceSubdir : Option String
  deriving DecidableEq, Repr

def knownCollections : List CollectionDef :=
  [{ name := "kb-curated"
     includeInDefaultSearch := true
     sourceSubdir := some "curated" },
   { name := "kb-decisions"
     includeInDefaultSearch := true
     sourceSubdir := some "decisions" },
   { name := "kb-guides"
     includeInDefaultSearch := true
     sourceSubdir := some "guides" },
   { name := "kb-inbox"
     includeInDefaultSearch := false
     sourceSubdir := none },
   { name := "kb-archive"
     includeInDefaultSearch := false
     sourceSubdir := some "archive" },
   { name := "kb-bulk"
     includeInDefaultSearch := false
     sourceSubdir := some "bulk" }]

/-- A collection whose files the exporter writes. -/
structure ExportableCollectionDef where
  name : String
  sourceSubdir : String
  deriving DecidableEq, Repr

def getExportableCollections : List ExportableCollectionDef :=
  knownCollections.filterMap fun collection =>
    collection.sourceSubdir.map fun sourceSubdir =>
      { name := collection.name
        sourceSubdir := sourceSubdir }

theorem nodup_collectionNames :
    (getExportableCollections.map (·.name)).Nodup := by
  decide

theorem nodup_sourceSubdirs :
    (getExportableCollections.map (·.sourceSubdir)).Nodup := by
  decide

theorem slash_notMem_collection {collection : ExportableCollectionDef}
    (exportable : collection ∈ getExportableCollections) :
    '/' ∉ collection.name.toList ∧ '/' ∉ collection.sourceSubdir.toList := by
  have all : ∀ collection ∈ getExportableCollections,
      '/' ∉ collection.name.toList ∧
        '/' ∉ collection.sourceSubdir.toList := by
    decide
  exact all collection exportable

private theorem eq_of_append_cons {mark : Char} :
    ∀ {left right leftRest rightRest : List Char},
      mark ∉ left → mark ∉ right →
        left ++ mark :: leftRest = right ++ mark :: rightRest →
        left = right ∧ leftRest = rightRest
  | [], [], _, _, _, _, same => ⟨rfl, (List.cons.inj same).2⟩
  | [], char :: _, _, _, _, absent, same =>
      absurd (List.cons.inj same).1 (by simp_all)
  | char :: _, [], _, _, absent, _, same =>
      absurd (List.cons.inj same).1 (by simp_all [eq_comm])
  | char :: left, char' :: right, _, _, leftAbsent, rightAbsent, same => by
      simp only [List.mem_cons, not_or] at leftAbsent rightAbsent
      obtain ⟨first, later⟩ := List.cons.inj same
      obtain ⟨fronts, rests⟩ :=
        eq_of_append_cons leftAbsent.2 rightAbsent.2 later
      exact ⟨by rw [first, fronts], rests⟩

/-- The name of a file in its directory has neither a slash nor a null
character. -/
abbrev FileName :=
  { name : String // '/' ∉ name.toList ∧ Char.ofNat 0 ∉ name.toList }

structure SourcePath where
  sourceSubdir : String
  name : FileName
  deriving DecidableEq

structure SourceFile where
  content : String
  mtimeMs : Int
  deriving DecidableEq, Repr

/-- The files below the export directory. -/
abbrev SourceTree := FileTree SourcePath SourceFile

def isMarkdownName (name : FileName) : Bool :=
  ".md".toList.isSuffixOf name.1.toList

/-- Where the files of one collection lie. -/
structure DocPlace where
  collection : ExportableCollectionDef
  name : FileName
  deriving DecidableEq

namespace DocPlace

def docId (place : DocPlace) : String :=
  "qmd://" ++ place.collection.name ++ "/" ++ place.name.1

def path (exportDir : String) (place : DocPlace) : String :=
  exportDir ++ "/" ++ place.collection.sourceSubdir ++ "/" ++ place.name.1

def sourcePath (place : DocPlace) : SourcePath where
  sourceSubdir := place.collection.sourceSubdir
  name := place.name

/-- A place that a sweep looks at. -/
def IsExported (place : DocPlace) : Prop :=
  place.collection ∈ getExportableCollections ∧ isMarkdownName place.name

instance (place : DocPlace) : Decidable place.IsExported :=
  inferInstanceAs (Decidable (_ ∧ _))

private theorem eq_of_collection_name {left right : ExportableCollectionDef}
    (leftExportable : left ∈ getExportableCollections)
    (rightExportable : right ∈ getExportableCollections)
    (same : left.name = right.name) : left = right :=
  List.inj_on_of_nodup_map nodup_collectionNames leftExportable
    rightExportable same

private theorem eq_of_sourceSubdir {left right : ExportableCollectionDef}
    (leftExportable : left ∈ getExportableCollections)
    (rightExportable : right ∈ getExportableCollections)
    (same : left.sourceSubdir = right.sourceSubdir) : left = right :=
  List.inj_on_of_nodup_map nodup_sourceSubdirs leftExportable
    rightExportable same

theorem eq_of_docId {left right : DocPlace}
    (leftExported : left.IsExported) (rightExported : right.IsExported)
    (same : left.docId = right.docId) : left = right := by
  have texts := congrArg String.toList same
  simp only [docId, String.toList_append, List.append_assoc] at texts
  have parts := List.append_cancel_left texts
  have slash : "/".toList = ['/'] := rfl
  rw [slash, List.singleton_append, List.singleton_append] at parts
  obtain ⟨collections, names⟩ := eq_of_append_cons
    (slash_notMem_collection leftExported.1).1
    (slash_notMem_collection rightExported.1).1 parts
  cases left
  cases right
  simp only [mk.injEq]
  exact ⟨eq_of_collection_name leftExported.1 rightExported.1
    (String.toList_inj.mp collections),
    Subtype.ext (String.toList_inj.mp names)⟩

theorem eq_of_sourcePath {left right : DocPlace}
    (leftExported : left.IsExported) (rightExported : right.IsExported)
    (same : left.sourcePath = right.sourcePath) : left = right := by
  cases left
  cases right
  simp only [sourcePath, SourcePath.mk.injEq, mk.injEq] at same ⊢
  exact ⟨eq_of_sourceSubdir leftExported.1 rightExported.1 same.1, same.2⟩

/-- Paths of two export directories agree only where they name the same file
of the same collection. -/
theorem eq_of_path {leftDir rightDir : String} {left right : DocPlace}
    (leftExported : left.IsExported) (rightExported : right.IsExported)
    (same : left.path leftDir = right.path rightDir) : left = right := by
  have slash : "/".toList = ['/'] := rfl
  have texts := congrArg (List.reverse ∘ String.toList) same
  simp only [path, Function.comp_apply, String.toList_append, slash,
    List.reverse_append, List.reverse_singleton, List.singleton_append]
    at texts
  obtain ⟨names, rest⟩ := eq_of_append_cons
    (by simpa using left.name.2.1) (by simpa using right.name.2.1) texts
  obtain ⟨subdirs, -⟩ := eq_of_append_cons
    (by simpa using (slash_notMem_collection leftExported.1).2)
    (by simpa using (slash_notMem_collection rightExported.1).2) rest
  apply eq_of_sourcePath leftExported rightExported
  simp only [sourcePath, SourcePath.mk.injEq]
  exact ⟨String.toList_inj.mp (List.reverse_inj.mp subdirs),
    Subtype.ext (String.toList_inj.mp (List.reverse_inj.mp names))⟩

end DocPlace

structure DocRow where
  rowid : Nat
  id : String
  collection : String
  content : String
  deriving DecidableEq, Repr

/-- What the index records of a file, under its path. -/
structure FileRecord where
  docId : String
  mtimeMs : Int
  deriving DecidableEq, Repr

structure NativeIndex where
  docs : Table (Table.DistinctKey DocRow.rowid)
  files : FileTree String FileRecord

structure IndexedDoc where
  id : String
  content : String
  collection : String
  deriving DecidableEq, Repr

namespace NativeIndex

def empty : NativeIndex where
  docs := .empty
  files := .empty

/-- The texts stored under a document id. -/
def textsOf (index : NativeIndex) (docId : String) : List String :=
  (index.docs.rows.filter fun row => row.id = docId).map (·.content)

/-- The table records a file under this document id. -/
def Records (index : NativeIndex) (docId : String) (mtimeMs : Int) : Prop :=
  ∃ file ∈ index.files.rows,
    file.2.docId = docId ∧ file.2.mtimeMs = mtimeMs

def nextRowid (index : NativeIndex) : Nat :=
  (index.docs.rows.map fun row => row.rowid + 1).foldr max 1

theorem lt_nextRowid {index : NativeIndex} {row : DocRow}
    (member : row ∈ index.docs.rows) : row.rowid < index.nextRowid := by
  unfold nextRowid
  generalize index.docs.rows = rows at member
  induction rows with
  | nil => cases member
  | cons first rest induction =>
      simp only [List.map_cons, List.foldr_cons]
      rcases List.mem_cons.mp member with rfl | later
      · omega
      · have below := induction later
        omega

/-- The insert statement of the documents. -/
def insertDoc (index : NativeIndex) (doc : IndexedDoc) : NativeIndex where
  docs :=
    { rows := index.docs.rows ++
        [{ rowid := index.nextRowid
           id := doc.id
           collection := doc.collection
           content := doc.content }]
      coexist := by
        rw [List.pairwise_append]
        refine ⟨index.docs.coexist, List.pairwise_singleton _ _, ?_⟩
        intro row member new isNew
        rw [List.mem_singleton.mp isNew]
        exact Nat.ne_of_lt (lt_nextRowid member) }
  files := index.files

/-- The delete statement of the documents. -/
def deleteDoc (index : NativeIndex) (docId : String) : NativeIndex where
  docs := index.docs.filter fun row => row.id ≠ docId
  files := index.files

def insert (index : NativeIndex) (docs : List IndexedDoc) : NativeIndex :=
  docs.foldl insertDoc index

/-- Replace documents by their ids. -/
def index (index : NativeIndex) (docs : List IndexedDoc) : NativeIndex :=
  docs.foldl (fun index doc => (index.deleteDoc doc.id).insertDoc doc) index

def remove (index : NativeIndex) (ids : List String) : NativeIndex :=
  ids.foldl deleteDoc index

def upsertFile (index : NativeIndex) (path : String) (record : FileRecord) :
    NativeIndex where
  docs := index.docs
  files := index.files.write path record

def deleteFile (index : NativeIndex) (path : String) : NativeIndex where
  docs := index.docs
  files := index.files.unlink path

theorem textsOf_insertDoc (index : NativeIndex) (doc : IndexedDoc)
    (docId : String) :
    (index.insertDoc doc).textsOf docId =
      index.textsOf docId ++ if doc.id = docId then [doc.content] else [] := by
  by_cases same : doc.id = docId <;>
    simp [textsOf, insertDoc, List.filter_append, same]

theorem textsOf_deleteDoc (index : NativeIndex) (removed docId : String) :
    (index.deleteDoc removed).textsOf docId =
      if docId = removed then [] else index.textsOf docId := by
  unfold textsOf deleteDoc Table.filter
  rw [List.filter_filter]
  by_cases same : docId = removed
  · simp [same]
  · rw [if_neg same]
    congr 1
    apply List.filter_congr
    intro row _
    by_cases here : row.id = docId <;> simp [here, same]

@[simp]
theorem files_insertDoc (index : NativeIndex) (doc : IndexedDoc) :
    (index.insertDoc doc).files = index.files := rfl

@[simp]
theorem files_deleteDoc (index : NativeIndex) (docId : String) :
    (index.deleteDoc docId).files = index.files := rfl

@[simp]
theorem files_insert (index : NativeIndex) (docs : List IndexedDoc) :
    (index.insert docs).files = index.files := by
  unfold insert
  induction docs generalizing index with
  | nil => rfl
  | cons doc rest induction => simpa using induction (index.insertDoc doc)

@[simp]
theorem files_index (index : NativeIndex) (docs : List IndexedDoc) :
    (index.index docs).files = index.files := by
  unfold NativeIndex.index
  induction docs generalizing index with
  | nil => rfl
  | cons doc rest induction =>
      simpa using induction ((index.deleteDoc doc.id).insertDoc doc)

@[simp]
theorem files_remove (index : NativeIndex) (ids : List String) :
    (index.remove ids).files = index.files := by
  unfold remove
  induction ids generalizing index with
  | nil => rfl
  | cons id rest induction => simpa using induction (index.deleteDoc id)

theorem textsOf_insert (index : NativeIndex) (docs : List IndexedDoc)
    (docId : String) :
    (index.insert docs).textsOf docId =
      index.textsOf docId ++
        (docs.filter fun doc => doc.id = docId).map (·.content) := by
  unfold insert
  induction docs generalizing index with
  | nil => simp
  | cons doc rest induction =>
      rw [List.foldl_cons, induction, textsOf_insertDoc, List.append_assoc]
      by_cases same : doc.id = docId <;> simp [same]

theorem textsOf_remove (index : NativeIndex) (ids : List String)
    (docId : String) :
    (index.remove ids).textsOf docId =
      if docId ∈ ids then [] else index.textsOf docId := by
  unfold remove
  induction ids generalizing index with
  | nil => simp
  | cons id rest induction =>
      rw [List.foldl_cons, induction, textsOf_deleteDoc]
      by_cases first : docId = id <;> by_cases later : docId ∈ rest <;>
        simp [first, later]

theorem textsOf_index_of_notMem (index : NativeIndex)
    {docs : List IndexedDoc} {docId : String}
    (absent : docId ∉ docs.map (·.id)) :
    (index.index docs).textsOf docId = index.textsOf docId := by
  unfold NativeIndex.index
  induction docs generalizing index with
  | nil => rfl
  | cons doc rest induction =>
      simp only [List.map_cons, List.mem_cons, not_or] at absent
      rw [List.foldl_cons, induction _ absent.2, textsOf_insertDoc,
        textsOf_deleteDoc, if_neg absent.1, if_neg (Ne.symm absent.1),
        List.append_nil]

theorem textsOf_index_of_mem (index : NativeIndex) {docs : List IndexedDoc}
    (distinct : (docs.map (·.id)).Nodup) {doc : IndexedDoc}
    (member : doc ∈ docs) :
    (index.index docs).textsOf doc.id = [doc.content] := by
  induction docs generalizing index with
  | nil => cases member
  | cons first rest induction =>
      rw [List.map_cons, List.nodup_cons] at distinct
      have unfolded : index.index (first :: rest) =
          ((index.deleteDoc first.id).insertDoc first).index rest := rfl
      rw [unfolded]
      rcases List.mem_cons.mp member with rfl | later
      · rw [textsOf_index_of_notMem _ distinct.1, textsOf_insertDoc,
          textsOf_deleteDoc, if_pos rfl, if_pos rfl, List.nil_append]
      · exact induction _ distinct.2 later

end NativeIndex

end Registrar
