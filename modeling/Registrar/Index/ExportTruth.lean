import Registrar.Common.Environment
import Registrar.Curator.RedactMemory
import Registrar.Index.EnsureFresh

/-!
# What should be indexed

The scrub compares every index with the export tree.  The exported files are
known by their document ids, by their paths in the qmd index and by the ids of
the memories they hold.
-/

namespace Registrar

structure ExportedDoc where
  docId : String
  collection : String
  name : String
  content : String
  qmdHash : String
  denseHash : String
  deriving DecidableEq, Repr

structure ExportTruth where
  present : Bool
  byDocId : List ExportedDoc
  deriving DecidableEq, Repr

def defaultDenseMaxDocChars : Nat := 2000

/-- The leading UTF-16 units of a text. -/
def leadingUnits (content : String) (units : Nat) : String :=
  String.ofList (utf16Chars ((utf16Units content).take units))

variable (env : Environment)

def exportedDoc (denseMaxDocChars : Nat) (doc : DocPlace × SourceFile) :
    ExportedDoc where
  docId := doc.1.docId
  collection := doc.1.collection.name
  name := doc.1.name.1
  content := doc.2.content
  qmdHash := computeContentHash env doc.2.content
  denseHash :=
    computeContentHash env (leadingUnits doc.2.content denseMaxDocChars)

def loadExportTruth (tree : SourceTree) (denseMaxDocChars : Nat) :
    ExportTruth where
  present := !(exportedDocs tree).isEmpty
  byDocId := (exportedDocs tree).map (exportedDoc env denseMaxDocChars)

def ExportTruth.get (truth : ExportTruth) (docId : String) :
    Option ExportedDoc :=
  truth.byDocId.find? fun doc => doc.docId = docId

def qmdKey (collection path : String) : String :=
  collection ++ String.ofList [Char.ofNat 0] ++ path

/-- Every run of other characters becomes one dash. -/
def dashRuns (isWord : Char → Bool) (inRun : Bool) : List Char → List Char
  | [] => []
  | char :: rest =>
      if isWord char then char :: dashRuns isWord false rest
      else if inRun then dashRuns isWord true rest
      else '-' :: dashRuns isWord true rest

def trimDashes (chars : List Char) : List Char :=
  ((chars.dropWhile (· = '-')).reverse.dropWhile (· = '-')).reverse

def isExtensionChar (char : Char) : Bool :=
  char.isAlphanum

/-- The name before an extension of letters and digits. -/
def nameStem (chars : List Char) : List Char :=
  let reversed := chars.reverse
  let extension := reversed.takeWhile isExtensionChar
  match extension, reversed.drop extension.length with
  | _ :: _, '.' :: stem => stem.reverse
  | _, _ => chars

/-- Three underscores in a row. -/
def hasTripleUnderscore : List Char → Bool
  | [] => false
  | char :: rest =>
      "___".toList.isPrefixOf (char :: rest) || hasTripleUnderscore rest

/-- The qmd index stores the name as it is; `isWord` are the letters, the
numbers and the dollar sign. -/
def isHandelizeIdentity (isWord : Char → Bool) (name : String) : Bool :=
  let stem := nameStem name.toList
  !(name.toList.contains '/' || hasTripleUnderscore name.toList) &&
    trimDashes (dashRuns isWord false stem) = stem && !stem.isEmpty

/-- The exported file that the qmd index stores under this key. -/
def ExportTruth.qmdGet (truth : ExportTruth) (isWord : Char → Bool)
    (key : String) : Option ExportedDoc :=
  (truth.byDocId.filter fun doc => isHandelizeIdentity isWord doc.name).find?
    fun doc => qmdKey doc.collection doc.name = key

/-- The memory that a file name or a document id refers to. -/
def memoryIdOfPath (path : String) : String :=
  let base := (path.toList.reverse.takeWhile (· ≠ '/')).reverse
  if ".md".toList.isSuffixOf base then
    String.ofList (base.take (base.length - 3))
  else String.ofList base

variable {env} {tree : SourceTree} {denseMaxDocChars : Nat}

theorem get_eq_some_iff {docId : String} {exported : ExportedDoc} :
    (loadExportTruth env tree denseMaxDocChars).get docId = some exported ↔
      ∃ doc ∈ exportedDocs tree, doc.1.docId = docId ∧
        exportedDoc env denseMaxDocChars doc = exported := by
  unfold ExportTruth.get loadExportTruth
  constructor
  · intro found
    obtain ⟨doc, member, rfl⟩ :=
      List.mem_map.mp (List.mem_of_find?_eq_some found)
    have same := List.find?_some found
    exact ⟨doc, member, of_decide_eq_true same, rfl⟩
  · rintro ⟨doc, member, rfl, rfl⟩
    have isFound : ((exportedDocs tree).map
        (exportedDoc env denseMaxDocChars)).find?
          (fun other => other.docId = doc.1.docId) ≠ none := by
      rw [Ne, List.find?_eq_none]
      intro none
      exact none _ (List.mem_map_of_mem member) (decide_eq_true rfl)
    obtain ⟨other, found⟩ := Option.ne_none_iff_exists'.mp isFound
    obtain ⟨source, sourceMember, rfl⟩ :=
      List.mem_map.mp (List.mem_of_find?_eq_some found)
    have same := List.find?_some found
    rw [exportedDocs_unique sourceMember member (of_decide_eq_true same)]
      at found
    exact found

private theorem eq_of_null_cut {left right leftRest rightRest : List Char}
    (leftClean : Char.ofNat 0 ∉ left) (restClean : Char.ofNat 0 ∉ leftRest)
    (same : left ++ Char.ofNat 0 :: leftRest =
      right ++ Char.ofNat 0 :: rightRest) :
    left = right ∧ leftRest = rightRest := by
  induction left generalizing right with
  | nil =>
      cases right with
      | nil => exact ⟨rfl, (List.cons.inj same).2⟩
      | cons char right =>
          obtain ⟨-, later⟩ := List.cons.inj same
          exact absurd (later ▸ by simp) restClean
  | cons char left induction =>
      rw [List.mem_cons, not_or] at leftClean
      cases right with
      | nil => exact absurd (List.cons.inj same).1.symm leftClean.1
      | cons char' right =>
          obtain ⟨first, later⟩ := List.cons.inj same
          obtain ⟨fronts, rests⟩ := induction leftClean.2 later
          exact ⟨by rw [first, fronts], rests⟩

theorem null_notMem_collection {collection : ExportableCollectionDef}
    (exportable : collection ∈ getExportableCollections) :
    Char.ofNat 0 ∉ collection.name.toList := by
  have all : ∀ collection ∈ getExportableCollections,
      Char.ofNat 0 ∉ collection.name.toList := by
    decide
  exact all collection exportable

/-- A key of the qmd index names the exported file of that collection and
path. -/
theorem qmdGet_eq_some {isWord : Char → Bool} {collection path : String}
    {exported : ExportedDoc}
    (found : (loadExportTruth env tree denseMaxDocChars).qmdGet isWord
      (qmdKey collection path) = some exported) :
    ∃ doc ∈ exportedDocs tree, doc.1.collection.name = collection ∧
      doc.1.name.1 = path ∧ exportedDoc env denseMaxDocChars doc = exported := by
  have listed := (List.mem_filter.mp (List.mem_of_find?_eq_some found)).1
  have matched := List.find?_some found
  have key : qmdKey exported.collection exported.name =
      qmdKey collection path := of_decide_eq_true matched
  obtain ⟨doc, member, rfl⟩ := List.mem_map.mp listed
  have texts := congrArg String.toList key
  simp only [qmdKey, String.toList_append, String.toList_ofList,
    List.append_assoc, List.singleton_append] at texts
  have exportable := (mem_exportedDocs_iff.mp member).1.1
  obtain ⟨collections, names⟩ := eq_of_null_cut
    (null_notMem_collection exportable) doc.1.name.2.2 texts
  exact ⟨doc, member, String.toList_inj.mp collections,
    String.toList_inj.mp names, rfl⟩

end Registrar
