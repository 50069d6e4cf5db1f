import Mathlib.Data.List.Infix
import Registrar.Index.NativeIndex
import Registrar.Library.JsonRead
import Registrar.Schema.Common

/-!
# The output of the qmd binary

The binary searches every collection and prints one JSON array of hits.  The
collection of a hit is derived from the text of its path, and the hits outside
the scope are dropped.
-/

namespace Registrar

inductive SearchScope where
  | curated
  | all
  | inbox
  | archived
  | bulk
  deriving DecidableEq, Repr

def getDefaultSearchCollections : List String :=
  (knownCollections.filter (·.includeInDefaultSearch)).map (·.name)

/-- The collections of a scope; none of them means no filter. -/
def resolveScopeCollections : SearchScope → List String
  | .curated => getDefaultSearchCollections
  | .inbox => ["kb-inbox"]
  | .archived => ["kb-archive"]
  | .bulk => ["kb-bulk"]
  | .all => []

theorem resolveScopeCollections_ne_nil {scope : SearchScope}
    (limited : scope ≠ .all) : resolveScopeCollections scope ≠ [] := by
  cases scope with
  | all => exact absurd rfl limited
  | curated => decide
  | inbox => decide
  | archived => decide
  | bulk => decide

structure QmdSearchResult where
  file : String
  score : ℚ
  snippet : String
  collection : String
  deriving DecidableEq, Repr

/-- What the search takes from the language: reading numbers, letters and
digits of any script, and the normal forms of a text. -/
structure TextServices where
  /-- The value of a number literal. -/
  numberOf : String → ℚ
  isLetter : Char → Bool
  isNumber : Char → Bool
  normalizeNfkc : String → String
  toLowerCase : String → String

/-- `text.includes(part)` -/
def includesText (text part : String) : Bool :=
  decide (part.toList <:+: text.toList)

def derivedCollections : List String :=
  ["kb-curated", "kb-decisions", "kb-guides", "kb-inbox", "kb-archive",
    "kb-bulk"]

/-- The first known name that occurs anywhere in the path. -/
def deriveCollectionFromPath (filePath : String) : String :=
  (derivedCollections.find? (includesText filePath ·)).getD "unknown"

variable (services : TextServices)

def parseHit : Json → Option QmdSearchResult
  | .object fields =>
      match Json.field? fields "file" with
      | some (.string file) =>
          if file = "" then none
          else
            some
              { file := file
                score :=
                  match Json.field? fields "score" with
                  | some (.number literal) => services.numberOf literal
                  | _ => 0
                snippet :=
                  match Json.field? fields "snippet" with
                  | some (.string snippet) => snippet
                  | _ => ""
                collection := deriveCollectionFromPath file }
      | _ => none
  | _ => none

/-- Anything but an array of objects with a file yields no hits. -/
def parseQueryOutput (stdout : String) : List QmdSearchResult :=
  let trimmed := trim stdout
  if trimmed = "" then []
  else
    match Json.parse trimmed with
    | some (.array items) => items.filterMap (parseHit services)
    | _ => []

theorem collection_parseQueryOutput {stdout : String} {hit : QmdSearchResult}
    (member : hit ∈ parseQueryOutput services stdout) :
    hit.collection = deriveCollectionFromPath hit.file := by
  unfold parseQueryOutput at member
  dsimp only at member
  split_ifs at member with blank
  · cases member
  split at member
  · obtain ⟨item, -, parsed⟩ := List.mem_filterMap.mp member
    unfold parseHit at parsed
    split at parsed
    · split at parsed
      · split_ifs at parsed with unnamed
        cases parsed
        rfl
      · cases parsed
    · cases parsed
  · cases member

/-- Why a run of the binary did not finish normally. -/
inductive CommandFailure where
  | timeout
  | signal
  | spawn
  | outputOverflow
  deriving DecidableEq, Repr

structure CommandResult where
  stdout : String
  stderr : String
  exitCode : Int
  failure : Option CommandFailure
  deriving DecidableEq, Repr

inductive QmdErrorCode where
  | timeout
  | commandFailed
  deriving DecidableEq, Repr

structure QmdError where
  code : QmdErrorCode
  command : String
  stderr : String
  deriving DecidableEq, Repr

/-- The answer of the binary to a search, less the hits outside the scope. -/
def SearchClient.search (query : String) (scope : SearchScope)
    (result : CommandResult) : Except QmdError (List QmdSearchResult) :=
  let collections := resolveScopeCollections scope
  if result.exitCode ≠ 0 then
    .error
      { code :=
          if result.failure = some .timeout then .timeout else .commandFailed
        command := "qmd search " ++ query
        stderr := result.stderr }
  else
    let parsed := parseQueryOutput services result.stdout
    .ok
      (if scope = .all then parsed
      else parsed.filter fun hit => hit.collection ∈ collections)

/-- The hits that the binary prints. -/
def printedHits (result : CommandResult) : List QmdSearchResult :=
  if result.exitCode ≠ 0 then [] else parseQueryOutput services result.stdout

/-- The hits of the binary that a search admits. -/
def qmdHits (query : String) (scope : SearchScope) (result : CommandResult) :
    List QmdSearchResult :=
  ((SearchClient.search services query scope result).toOption).getD []

variable {services}

theorem collection_printedHits {result : CommandResult} {hit : QmdSearchResult}
    (printed : hit ∈ printedHits services result) :
    hit.collection = deriveCollectionFromPath hit.file := by
  unfold printedHits at printed
  split_ifs at printed with failed
  · cases printed
  · exact collection_parseQueryOutput services printed

theorem mem_qmdHits_iff {query : String} {scope : SearchScope}
    {result : CommandResult} {hit : QmdSearchResult} (limited : scope ≠ .all) :
    hit ∈ qmdHits services query scope result ↔
      hit ∈ printedHits services result ∧
        deriveCollectionFromPath hit.file ∈ resolveScopeCollections scope := by
  have isFiltered : qmdHits services query scope result =
      (printedHits services result).filter fun hit =>
        hit.collection ∈ resolveScopeCollections scope := by
    unfold qmdHits SearchClient.search printedHits
    by_cases failed : result.exitCode ≠ 0
    · simp [failed, Except.toOption]
    · simp [failed, limited, Except.toOption]
  rw [isFiltered, List.mem_filter, decide_eq_true_eq]
  refine and_congr_right fun printed => ?_
  rw [collection_printedHits printed]

/-- The first component of a citation's path. -/
def citationCollection (citation : String) : Option String :=
  if "qmd://".toList <+: citation.toList then
    some (String.ofList
      ((citation.toList.drop "qmd://".length).takeWhile (· ≠ '/')))
  else none

theorem citationCollection_docId {place : DocPlace}
    (exported : place.IsExported) :
    citationCollection place.docId = some place.collection.name := by
  have noSlash := (slash_notMem_collection exported.1).1
  unfold citationCollection DocPlace.docId
  have texts : ("qmd://" ++ place.collection.name ++ "/" ++
      place.name.1).toList = "qmd://".toList ++
        (place.collection.name.toList ++ '/' :: place.name.1.toList) := by
    simp
  rw [texts, if_pos (List.prefix_append _ _)]
  have dropped (rest : List Char) :
      ("qmd://".toList ++ rest).drop "qmd://".length = rest := rfl
  have before : ∀ char ∈ place.collection.name.toList,
      decide (char ≠ '/') = true := fun char member => by
    simpa using ne_of_mem_of_not_mem member noSlash
  rw [dropped, List.takeWhile_append_of_pos before, List.takeWhile_cons_of_neg
    (by simp), List.append_nil, String.ofList_toList]

end Registrar
