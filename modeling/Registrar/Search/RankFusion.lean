import Mathlib.Data.List.Lex
import Mathlib.Data.List.Sort
import Registrar.Curator.RedactMemory
import Registrar.Search.QmdOutput

/-!
# Reciprocal-rank fusion

The ranked lists of the three arms are joined by citation: a document scores
the sum of the reciprocals of its ranks, and its text comes from the first arm
that found it.
-/

namespace Registrar

structure IndexHit where
  id : String
  score : ℚ
  snippet : String
  collection : String
  deriving DecidableEq, Repr

def rrfK : Nat := 60

structure FusedEntry where
  id : String
  score : ℚ
  /-- Nothing stands for infinity. -/
  bestRank : Option Nat
  qmdHit : Option QmdSearchResult
  nativeHit : Option IndexHit
  denseHit : Option IndexHit
  deriving DecidableEq, Repr

namespace FusedEntry

def fresh (id : String) : FusedEntry where
  id := id
  score := 0
  bestRank := none
  qmdHit := none
  nativeHit := none
  denseHit := none

def rank (k : ℚ) (rank : Nat) (entry : FusedEntry) : FusedEntry :=
  { entry with
    score := entry.score + 1 / (k + rank)
    bestRank := some ((entry.bestRank.map (min · rank)).getD rank) }

def noteQmd (hit : QmdSearchResult) (entry : FusedEntry) : FusedEntry :=
  { entry with qmdHit := entry.qmdHit.or (some hit) }

def noteNative (hit : IndexHit) (entry : FusedEntry) : FusedEntry :=
  { entry with nativeHit := entry.nativeHit.or (some hit) }

def noteDense (hit : IndexHit) (entry : FusedEntry) : FusedEntry :=
  { entry with denseHit := entry.denseHit.or (some hit) }

/-- The order of the fused list.  Ids are compared unit by unit. -/
def Precedes (left right : FusedEntry) : Prop :=
  right.score < left.score ∨
    left.score = right.score ∧
      (left.bestRank.getD 0 < right.bestRank.getD 0 ∨
        left.bestRank.getD 0 = right.bestRank.getD 0 ∧
          utf16Units left.id ≤ utf16Units right.id)

instance : DecidableRel Precedes := fun _ _ =>
  inferInstanceAs (Decidable (_ ∨ _))

/-- The text of the first arm that has some. -/
def snippet (entry : FusedEntry) : String :=
  let texts := [entry.qmdHit.map (·.snippet), entry.nativeHit.map (·.snippet)]
  (texts.findSome? fun text => text.filter (· ≠ "")).getD
    ((entry.denseHit.map (·.snippet)).getD "")

def result (entry : FusedEntry) : QmdSearchResult where
  file := entry.id
  score := entry.score
  snippet := entry.snippet
  collection :=
    (((entry.qmdHit.map (·.collection)).or
      (entry.nativeHit.map (·.collection))).or
        (entry.denseHit.map (·.collection))).getD "unknown"

end FusedEntry

/-- Change the entry of a document, which is new at its first arm. -/
def updateEntry (entries : List FusedEntry) (id : String)
    (change : FusedEntry → FusedEntry) : List FusedEntry :=
  if id ∈ entries.map (·.id) then
    entries.map fun entry => if entry.id = id then change entry else entry
  else entries ++ [change (.fresh id)]

/-- The loop of one arm, from the rank before its first hit. -/
def fuseArm {Hit : Type} (k : ℚ) (idOf : Hit → String)
    (note : Hit → FusedEntry → FusedEntry) :
    Nat → List FusedEntry → List Hit → List FusedEntry
  | _, entries, [] => entries
  | rank, entries, hit :: hits =>
      fuseArm k idOf note (rank + 1)
        (updateEntry entries (idOf hit) fun entry =>
          note hit (entry.rank k (rank + 1)))
        hits

def fuseReciprocalRank (qmdHits : List QmdSearchResult)
    (nativeHits denseHits : List IndexHit) (k : ℚ) :
    List QmdSearchResult :=
  let entries := fuseArm k (·.file) FusedEntry.noteQmd 0 [] qmdHits
  let entries := fuseArm k (·.id) FusedEntry.noteNative 0 entries nativeHits
  let entries := fuseArm k (·.id) FusedEntry.noteDense 0 entries denseHits
  (entries.insertionSort FusedEntry.Precedes).map FusedEntry.result

theorem mem_ids_updateEntry {entries : List FusedEntry} {id other : String}
    {change : FusedEntry → FusedEntry}
    (keeps : ∀ entry, (change entry).id = entry.id) :
    other ∈ (updateEntry entries id change).map (·.id) ↔
      other ∈ entries.map (·.id) ∨ other = id := by
  unfold updateEntry
  split_ifs with present
  · have same : (entries.map fun entry =>
        if entry.id = id then change entry else entry).map (·.id) =
          entries.map (·.id) := by
      rw [List.map_map]
      refine List.map_congr_left fun entry _ => ?_
      by_cases here : entry.id = id
      · simp [here, keeps]
      · simp [here]
    rw [same]
    constructor
    · exact .inl
    · rintro (member | rfl)
      · exact member
      · exact present
  · simp [keeps, FusedEntry.fresh]

theorem mem_ids_fuseArm {Hit : Type} {k : ℚ} {rank : Nat}
    {idOf : Hit → String} {note : Hit → FusedEntry → FusedEntry}
    {entries : List FusedEntry} {hits : List Hit} {id : String}
    (keeps : ∀ hit entry, (note hit entry).id = entry.id) :
    id ∈ (fuseArm k idOf note rank entries hits).map (·.id) ↔
      id ∈ entries.map (·.id) ∨ id ∈ hits.map idOf := by
  induction hits generalizing rank entries with
  | nil => simp [fuseArm]
  | cons hit hits induction =>
      have keepsId (entry : FusedEntry) :
          (note hit (entry.rank k (rank + 1))).id = entry.id :=
        keeps hit _
      rw [fuseArm, induction, mem_ids_updateEntry keepsId, List.map_cons,
        List.mem_cons, or_assoc]

theorem mem_files_fuseReciprocalRank {qmdHits : List QmdSearchResult}
    {nativeHits denseHits : List IndexHit} {k : ℚ} {file : String} :
    file ∈ (fuseReciprocalRank qmdHits nativeHits denseHits k).map (·.file) ↔
      file ∈ qmdHits.map (·.file) ∨ file ∈ nativeHits.map (·.id) ∨
        file ∈ denseHits.map (·.id) := by
  unfold fuseReciprocalRank
  dsimp only
  have files : (·.file) ∘ FusedEntry.result = (·.id) := rfl
  have keepsQmd (hit : QmdSearchResult) (entry : FusedEntry) :
      (entry.noteQmd hit).id = entry.id := rfl
  have keepsNative (hit : IndexHit) (entry : FusedEntry) :
      (entry.noteNative hit).id = entry.id := rfl
  have keepsDense (hit : IndexHit) (entry : FusedEntry) :
      (entry.noteDense hit).id = entry.id := rfl
  rw [List.map_map, files, ((List.perm_insertionSort _ _).map _).mem_iff,
    mem_ids_fuseArm keepsDense, mem_ids_fuseArm keepsNative,
    mem_ids_fuseArm keepsQmd, or_assoc]
  simp

end Registrar
