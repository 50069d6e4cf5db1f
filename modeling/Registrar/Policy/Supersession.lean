import Registrar.Policy.Pipeline

/-!
# Supersession planning

Which active memories an incoming candidate retires.  The plan is computed
from the store before the promotion opens its transaction.
-/

namespace Registrar

def defaultSupersessionThreshold : ℚ := 3 / 5

def defaultMaxSupersedesPerPromotion : Nat := 25

inductive SupersessionBasis where
  | subject
  | title
  deriving DecidableEq, Repr

def SupersessionBasis.text : SupersessionBasis → String
  | .subject => "subject"
  | .title => "title"

structure SupersessionMatch where
  supersededMemoryId : String
  supersededTitle : String
  similarity : ℚ
  basis : SupersessionBasis
  subject : Option String
  deriving DecidableEq

structure SupersessionBlock where
  wouldSupersede : Nat
  cap : Nat
  subjects : List String
  deriving DecidableEq, Repr

structure SupersessionPlan where
  matched : List SupersessionMatch
  blocked : Option SupersessionBlock
  deriving DecidableEq

/-- The categories whose memories may retire memories of another category. -/
def isAuthoritative (category : MemoryCategory) : Bool :=
  [MemoryCategory.decision, .architecture, .convention].contains category

variable (env : Environment)

def tokenize (text : String) : List String :=
  (((env.toLowerCase text).toList.splitOnP isTrimmedSpace).filter
    (· ≠ [])).map String.ofList

/-- Jaccard similarity of the lower-case words of two titles. -/
def computeTitleSimilarity (left right : String) : ℚ :=
  let tokensLeft := (tokenize env left).eraseDups
  let tokensRight := (tokenize env right).eraseDups
  if tokensLeft = [] ∧ tokensRight = [] then 1
  else if tokensLeft = [] ∨ tokensRight = [] then 0
  else jaccard tokensLeft tokensRight

/-- The match of a memory by a subject key that the candidate declares too.  A
memory promoted after the candidate was captured is never retired. -/
def subjectMatch (candidate : MemoryCandidate) (memory : CuratedMemory) :
    Option SupersessionMatch :=
  let subjects := candidate.metadata.subjects.getD []
  let shared := ((memory.metadata.subjects.getD []).filter
    subjects.contains).insertionSort (· ≤ ·)
  match shared with
  | [] => none
  | subject :: _ =>
      if !isAuthoritative candidate.category ∧
          memory.category ≠ candidate.category then none
      else if candidate.capturedAt < memory.promotedAt then none
      else
        some
          { supersededMemoryId := memory.id
            supersededTitle := memory.title.value
            similarity := 1
            basis := .subject
            subject := some subject }

/-- Keep the better of two title matches, the earlier one at a tie. -/
def betterTitleMatch (candidate : MemoryCandidate) (threshold : ℚ)
    (best : Option SupersessionMatch) (memory : CuratedMemory) :
    Option SupersessionMatch :=
  let similarity :=
    computeTitleSimilarity env candidate.title memory.title.value
  if memory.category = candidate.category ∧ threshold ≤ similarity ∧
      best.all (·.similarity < similarity) then
    some
      { supersededMemoryId := memory.id
        supersededTitle := memory.title.value
        similarity := similarity
        basis := .title
        subject := none }
  else best

/-- The plan for a candidate against the active memories of its tenant. -/
def planSupersession (candidate : MemoryCandidate)
    (active : List CuratedMemory) (threshold : ℚ) (cap : Nat) :
    SupersessionPlan :=
  let subjects := (candidate.metadata.subjects.getD []).eraseDups
  let matched := active.filterMap (subjectMatch candidate)
  let byTitle :=
    active.foldl (betterTitleMatch env candidate threshold) none
  if matched = [] then
    { matched := byTitle.toList
      blocked := none }
  else if cap < matched.length then
    { matched := []
      blocked := some
        { wouldSupersede := matched.length
          cap := cap
          subjects := subjects.insertionSort (· ≤ ·) } }
  else
    { matched := matched.insertionSort fun left right =>
        env.localeAtMost left.supersededMemoryId right.supersededMemoryId
      blocked := none }

end Registrar
