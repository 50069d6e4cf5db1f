import Mathlib.Data.List.Sort
import Registrar.Curator.RedactMemory
import Registrar.Search.PlacedDocs
import Registrar.Search.RankFusion

/-!
# Search in the native index

A query becomes literal words.  SQLite decides which rows hold a word and how
well a row fits; the scope is applied before the best rows are taken.  A
question whose strict search finds nothing is broadened, within bounds, to the
rows that hold most of its words.
-/

namespace Registrar

/-- What SQLite answers about literal words. -/
structure Fts5Engine where
  matchesWord : String → DocRow → Bool
  rank : List String → DocRow → ℚ
  snippet : List String → DocRow → String

variable (services : TextServices)

/-- The runs of letters and digits. -/
def matchWords (text : String) : List String :=
  ((text.toList.splitOnP fun char =>
    !(services.isLetter char || services.isNumber char)).filter
      (· ≠ [])).map String.ofList

def questionStarters : List String :=
  ["what", "where", "when", "which", "who", "why", "how", "can", "could", "do",
    "does", "is", "are", "should", "would", "tell", "explain"]

def questionMaxDocs : Nat := 25000

def questionMaxTermPostings : Nat := 2000

def questionMaxTotalPostings : Nat := 10000

def questionFunctionWords : List String :=
  ["a", "an", "the", "and", "or", "of", "to", "for", "from", "in", "on", "at",
    "by", "with", "without", "about", "as", "into", "through", "what", "where",
    "when", "which", "who", "why", "how", "can", "could", "do", "does", "did",
    "is", "are", "was", "were", "be", "been", "being", "should", "would",
    "will", "shall", "may", "might", "must", "have", "has", "had", "i", "me",
    "my", "we", "us", "our", "you", "your", "he", "she", "it", "its", "they",
    "them", "their", "this", "that", "these", "those", "there", "here",
    "please", "tell", "explain"]

/-- The words of a natural question that carry meaning. -/
def questionTerms (query : String) : List String :=
  if 4096 < (utf16Units query).length ∨ '"' ∈ query.toList ∨
      ¬((trim query).toList.head?.any services.isLetter) then []
  else
    let tokens := matchWords services
      (services.toLowerCase (services.normalizeNfkc query))
    if tokens.head?.getD "" ∉ questionStarters then []
    else
      let terms := (tokens.filter fun term =>
        1 < (utf16Units term).length && term ∉ questionFunctionWords).eraseDups
      if terms.length ≤ 12 then terms else []

/-- An empty list of collections is no filter. -/
def InScope (allowedCollections : List String) (collection : String) : Prop :=
  allowedCollections = [] ∨ collection ∈ allowedCollections

instance (allowedCollections : List String) (collection : String) :
    Decidable (InScope allowedCollections collection) :=
  inferInstanceAs (Decidable (_ ∨ _))

variable (engine : Fts5Engine)

namespace NativeIndex

/-- The rows in scope that hold every term, the best first. -/
def matchingRows (index : NativeIndex) (terms : List String)
    (allowedCollections : List String) : List DocRow :=
  (index.docs.rows.filter fun row =>
    terms.all (engine.matchesWord · row) &&
      decide (InScope allowedCollections row.collection)).insertionSort
        fun left right => engine.rank terms left ≤ engine.rank terms right

def searchRows (index : NativeIndex) (terms : List String) (k : Nat)
    (allowedCollections : List String) : List DocRow :=
  (index.matchingRows engine terms allowedCollections).take k

def toHit (terms : List String) (row : DocRow) : IndexHit where
  id := row.id
  score := -engine.rank terms row
  snippet := engine.snippet terms row
  collection := row.collection

def search (index : NativeIndex) (query : String) (k : Nat)
    (allowedCollections : List String) : List IndexHit :=
  let terms := matchWords services query
  if terms = [] then []
  else (index.searchRows engine terms k allowedCollections).map
    (toHit engine terms)

/-- How many rows in scope hold the term, as far as they are counted. -/
def termCount (index : NativeIndex) (allowedCollections : List String)
    (term : String) : Nat :=
  min (questionMaxTermPostings + 1)
    (index.docs.rows.countP fun row =>
      engine.matchesWord term row &&
        decide (InScope allowedCollections row.collection))

/-- The loop over the terms, from the postings counted so far. -/
def termsWithinBounds (index : NativeIndex) (allowedCollections : List String) :
    Nat → List String → Bool
  | _, [] => true
  | total, term :: terms =>
      let count := index.termCount engine allowedCollections term
      if questionMaxTermPostings < count ∨
          questionMaxTotalPostings < total + count then false
      else index.termsWithinBounds allowedCollections (total + count) terms

def questionWithinBounds (index : NativeIndex) (terms : List String)
    (allowedCollections : List String) : Bool :=
  decide (index.docs.rows.length ≤ questionMaxDocs) &&
    index.termsWithinBounds engine allowedCollections 0 terms

/-- The distinct terms that the row holds. -/
def covered (terms : List String) (row : DocRow) : Nat :=
  terms.countP (engine.matchesWord · row)

def questionRows (index : NativeIndex) (terms : List String) (minimum k : Nat)
    (allowedCollections : List String) : List DocRow :=
  ((index.docs.rows.filter fun row =>
    decide (InScope allowedCollections row.collection) &&
      decide (minimum ≤ covered engine terms row)).insertionSort
        fun left right =>
          covered engine terms right < covered engine terms left ∨
            covered engine terms left = covered engine terms right ∧
              (engine.rank terms left < engine.rank terms right ∨
                engine.rank terms left = engine.rank terms right ∧
                  left.rowid ≤ right.rowid)).take k

/-- The last resort for a question. -/
def searchQuestionFallback (index : NativeIndex) (query : String) (k : Nat)
    (allowedCollections : List String) : List IndexHit :=
  let terms := questionTerms services query
  -- `Math.ceil(terms.length * 0.6)`
  let minimum := (3 * terms.length + 4) / 5
  if terms.length < 2 ∨ k = 0 then []
  else if index.questionWithinBounds engine terms allowedCollections then
    (index.questionRows engine terms minimum (min k 200)
      allowedCollections).map (toHit engine terms)
  else []

variable {services engine}

/-- The hit is a row of the index whose collection is in scope. -/
def IsHit (index : NativeIndex) (allowedCollections : List String)
    (hit : IndexHit) : Prop :=
  ∃ row ∈ index.docs.rows, InScope allowedCollections row.collection ∧
    hit.id = row.id ∧ hit.collection = row.collection

theorem mem_matchingRows_iff {index : NativeIndex} {terms : List String}
    {allowedCollections : List String} {row : DocRow} :
    row ∈ index.matchingRows engine terms allowedCollections ↔
      row ∈ index.docs.rows ∧
        (∀ term ∈ terms, engine.matchesWord term row = true) ∧
          InScope allowedCollections row.collection := by
  unfold matchingRows
  rw [List.mem_insertionSort, List.mem_filter]
  simp

theorem isHit_of_mem_search {index : NativeIndex} {query : String} {k : Nat}
    {allowedCollections : List String} {hit : IndexHit}
    (member : hit ∈ index.search services engine query k allowedCollections) :
    matchWords services query ≠ [] ∧ index.IsHit allowedCollections hit := by
  unfold search at member
  dsimp only at member
  split_ifs at member with wordless
  · cases member
  · obtain ⟨row, isRow, rfl⟩ := List.mem_map.mp member
    obtain ⟨stored, -, inScope⟩ :=
      mem_matchingRows_iff.mp (List.mem_of_mem_take isRow)
    exact ⟨wordless, row, stored, inScope, rfl, rfl⟩

theorem isHit_of_mem_searchQuestionFallback {index : NativeIndex}
    {query : String} {k : Nat} {allowedCollections : List String}
    {hit : IndexHit}
    (member : hit ∈ index.searchQuestionFallback services engine query k
      allowedCollections) : index.IsHit allowedCollections hit := by
  unfold searchQuestionFallback at member
  dsimp only at member
  split_ifs at member with few bounded
  · cases member
  · obtain ⟨row, isRow, rfl⟩ := List.mem_map.mp member
    have sorted := List.mem_of_mem_take isRow
    have filtered := (List.mem_insertionSort _).mp sorted
    obtain ⟨stored, accepted⟩ := List.mem_filter.mp filtered
    simp only [Bool.and_eq_true, decide_eq_true_eq] at accepted
    exact ⟨row, stored, accepted.1, rfl, rfl⟩
  · cases member

/-- Where only the rows of one document hold the words, the document is found. -/
theorem exists_mem_search {index : NativeIndex} {query : String} {k : Nat}
    {allowedCollections : List String} {row : DocRow}
    (words : matchWords services query ≠ [])
    (stored : row ∈ index.docs.rows)
    (inScope : InScope allowedCollections row.collection)
    (only : ∀ term other, engine.matchesWord term other =
      decide (other.id = row.id)) :
    ∃ hit ∈ index.search services engine query (k + 1) allowedCollections,
      hit.id = row.id := by
  unfold search
  dsimp only
  rw [if_neg words]
  have found (other : DocRow) :
      other ∈ index.matchingRows engine (matchWords services query)
        allowedCollections ↔ other ∈ index.docs.rows ∧ other.id = row.id ∧
          InScope allowedCollections other.collection := by
    rw [mem_matchingRows_iff]
    simp only [only, decide_eq_true_eq]
    obtain ⟨word, isWord⟩ := List.exists_mem_of_ne_nil _ words
    constructor
    · rintro ⟨member, all, allowed⟩
      exact ⟨member, all word isWord, allowed⟩
    · rintro ⟨member, same, allowed⟩
      exact ⟨member, fun _ _ => same, allowed⟩
  unfold searchRows
  cases ranked : index.matchingRows engine (matchWords services query)
      allowedCollections with
  | nil =>
      have present := (found row).mpr ⟨stored, rfl, inScope⟩
      rw [ranked] at present
      cases present
  | cons first rest =>
      have isFirst : first ∈ index.matchingRows engine
          (matchWords services query) allowedCollections := by
        rw [ranked]
        exact List.mem_cons_self
      exact ⟨toHit engine (matchWords services query) first, by simp,
        ((found first).mp isFirst).2.1⟩

end NativeIndex

end Registrar
