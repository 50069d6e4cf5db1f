import Registrar.Search.QueryScope

/-!
# The rerank stage and its score cache

The stage orders the first fused hits by the scores of a model.  It asks the
model only for the documents whose score the cache does not hold, and serves
the fused list where anything fails.
-/

namespace Registrar

/-- A string of the language by its UTF-16 units. -/
abbrev UnitText := List Nat

/-- The text that UTF-8 has for a string. -/
def utf8Text (units : UnitText) : String :=
  String.ofList (utf16Chars units)

namespace Rerank

/-- One scored document of the rerank endpoint. -/
structure ScoredDoc where
  index : ℚ
  score : ℚ
  deriving DecidableEq, Repr

/-- One entry of a response; nothing stands for what is no number. -/
structure ResponseEntry where
  index : Option ℚ
  relevanceScore : Option ℚ
  deriving DecidableEq, Repr

/-- The results that the service sends for some documents.  Nothing stands for
a refused connection, a timeout, a status other than 200 and a body without
results. -/
abbrev Service := List UnitText → Option (List ResponseEntry)

def readEntry (count : Nat) (entry : ResponseEntry) : Option ScoredDoc :=
  match entry.index, entry.relevanceScore with
  | some index, some score =>
      if index < 0 ∨ (count : ℚ) ≤ index then none
      else
        some
          { index := index
            score := score }
  | _, _ => none

def rerank (service : Service) (documents : List UnitText) :
    Option (List ScoredDoc) :=
  if documents = [] then some []
  else (service documents).bind fun results =>
    results.mapM (readEntry documents.length)

structure CacheRow where
  key : String
  modelId : String
  modelVersion : String
  score : ℚ
  deriving DecidableEq, Repr

structure RerankCache where
  modelId : String
  modelVersion : String
  rows : List CacheRow
  broken : Bool
  deriving DecidableEq, Repr

variable (env : Environment)

def cacheKey (query : UnitText) (docContentHash : String) : String :=
  computeContentHash env
    (utf8Text (query ++ 0 :: utf16Units docContentHash))

namespace RerankCache

/-- The row is that of this key and the model of the cache. -/
def Holds (cache : RerankCache) (key : String) (row : CacheRow) : Prop :=
  row.key = key ∧ row.modelId = cache.modelId ∧
    row.modelVersion = cache.modelVersion

instance (cache : RerankCache) (key : String) :
    DecidablePred (cache.Holds key) :=
  fun _ => inferInstanceAs (Decidable (_ ∧ _))

/-- A look at the cache; `fault` says whether the database throws. -/
def get (cache : RerankCache) (fault : Bool) (query : UnitText)
    (docContentHash : String) : Option ℚ × RerankCache :=
  if cache.broken then (none, cache)
  else if fault then (none, { cache with broken := true })
  else
    let key := cacheKey env query docContentHash
    ((cache.rows.find? fun row => cache.Holds key row).map (·.score), cache)

def set (cache : RerankCache) (fault : Bool) (query : UnitText)
    (docContentHash : String) (score : ℚ) : RerankCache :=
  if cache.broken then cache
  else if fault then { cache with broken := true }
  else
    let key := cacheKey env query docContentHash
    let row : CacheRow :=
      { key := key
        modelId := cache.modelId
        modelVersion := cache.modelVersion
        score := score }
    { cache with
      rows := (cache.rows.filter fun other => ! cache.Holds key other) ++
        [row] }

end RerankCache

/-- The path of a citation in the export tree. -/
def resolveCitationPath (exportDir citation : String) : Option String :=
  if !"qmd://".toList.isPrefixOf citation.toList then none
  else
    let rest := citation.toList.drop "qmd://".length
    let collectionName := rest.takeWhile (· ≠ '/')
    let fileName := (rest.dropWhile (· ≠ '/')).drop 1
    if '/' ∉ rest ∨ collectionName = [] then none
    else if fileName = [] ∨ '/' ∈ fileName then none
    else
      (getExportableCollections.find? fun collection =>
        collection.name = String.ofList collectionName).map fun collection =>
          exportDir ++ "/" ++ collection.sourceSubdir ++ "/" ++
            String.ofList fileName

structure Stage where
  exportDir : String
  candidateWindow : Nat
  topN : Nat
  maxDocChars : Nat
  deriving DecidableEq, Repr

/-- What one call of `apply` meets: its arguments, the files of the export
tree, the answers of the service, and the operations of the cache that
throw. -/
structure Call where
  query : UnitText
  fused : List QmdSearchResult
  readFile : String → Option String
  service : Service
  getFaults : Nat → Bool
  setFaults : Nat → Bool

structure Candidate where
  hit : QmdSearchResult
  fusedRank : Nat
  text : UnitText
  contentHash : String
  score : Option ℚ
  deriving DecidableEq

namespace Candidate

/-- A higher score first, then the better fused rank. -/
def Precedes (left right : Candidate) : Prop :=
  right.score.getD 0 < left.score.getD 0 ∨
    left.score.getD 0 = right.score.getD 0 ∧ left.fusedRank ≤ right.fusedRank

instance : DecidableRel Precedes :=
  fun _ _ => inferInstanceAs (Decidable (_ ∨ _))

def result (candidate : Candidate) : QmdSearchResult :=
  { candidate.hit with score := candidate.score.getD 0 }

end Candidate

namespace Stage

variable (stage : Stage)

def resolveDocText (readFile : String → Option String)
    (hit : QmdSearchResult) : UnitText :=
  match (resolveCitationPath stage.exportDir hit.file).bind readFile with
  | some content => (utf16Units content).take stage.maxDocChars
  | none => (utf16Units hit.snippet).take stage.maxDocChars

def candidates (call : Call) : List Candidate :=
  (call.fused.take stage.candidateWindow).mapIdx fun index hit =>
    let text := stage.resolveDocText call.readFile hit
    { hit := hit
      fusedRank := index
      text := text
      contentHash := computeContentHash env (utf8Text text)
      score := none }

/-- The look at the cache for every candidate, from the number of looks so
far. -/
def cachePass (call : Call) : Nat → Option RerankCache → List Candidate →
    List Candidate × Option RerankCache
  | _, cache, [] => ([], cache)
  | _, none, candidates => (candidates, none)
  | looks, some cache, candidate :: rest =>
      let (cached, cache) :=
        cache.get env (call.getFaults looks) call.query candidate.contentHash
      let (looked, cache) := cachePass call (looks + 1) (some cache) rest
      ({ candidate with score := cached } :: looked, cache)

/-- The candidates that the cache has no score for. -/
def missesOf (candidates : List Candidate) : List Candidate :=
  candidates.filter fun candidate => candidate.score.isNone

/-- `misses[index]`. -/
def missAt (misses : List Candidate) (index : ℚ) : Option Candidate :=
  if index.den = 1 ∧ 0 ≤ index then misses[index.num.toNat]? else none

/-- The scores of the model, from the number of scores stored so far.  Nothing
stands for an index that names no document. -/
def recordScores (call : Call) (misses : List Candidate) :
    Nat → Option RerankCache → List Candidate → List ScoredDoc →
      Option (List Candidate) × Option RerankCache
  | _, cache, candidates, [] => (some candidates, cache)
  | stored, cache, candidates, scored :: rest =>
      match missAt misses scored.index with
      | none => (none, cache)
      | some miss =>
          recordScores call misses (stored + 1)
            (cache.map fun cache =>
              cache.set env (call.setFaults stored) call.query
                miss.contentHash scored.score)
            (candidates.map fun candidate =>
              if candidate.fusedRank = miss.fusedRank then
                { candidate with score := some scored.score }
              else candidate)
            rest

/-- The candidates in their order, or the fused list if one has no score. -/
def reorder (fused : List QmdSearchResult) (candidates : List Candidate) :
    List QmdSearchResult :=
  if candidates.any fun candidate => candidate.score.isNone then fused
  else ((candidates.insertionSort Candidate.Precedes).take stage.topN).map
    Candidate.result

def apply (cache : Option RerankCache) (call : Call) :
    List QmdSearchResult × Option RerankCache :=
  if call.fused.length ≤ 1 then (call.fused, cache)
  else
    let (candidates, cache) :=
      cachePass env call 0 cache (stage.candidates env call)
    let misses := missesOf candidates
    if misses = [] then (stage.reorder call.fused candidates, cache)
    else
      match rerank call.service (misses.map (·.text)) with
      | none => (call.fused, cache)
      | some scored =>
          if scored.length ≠ misses.length then (call.fused, cache)
          else
            match recordScores env call misses 0 cache candidates scored with
            | (none, cache) => (call.fused, cache)
            | (some candidates, cache) =>
                (stage.reorder call.fused candidates, cache)

/-- The results of the calls, one after another. -/
def applyAll : Option RerankCache → List Call → List (List QmdSearchResult)
  | _, [] => []
  | cache, call :: calls =>
      (stage.apply env cache call).1 ::
        applyAll (stage.apply env cache call).2 calls

end Stage

end Rerank

end Registrar
