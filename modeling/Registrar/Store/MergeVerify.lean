import Registrar.Store.AuditVerify
import Mathlib.Data.String.Basic
import Mathlib.Data.List.Sort

/-!
# Merge-aware verification

`verifyMergeAuditChain` (`audit-verify-merge.ts`): both clone chains on their
own, the merged chain walked again in the order of its event ids, and the
signed anchor of the merge.
-/

namespace Registrar

/-- The part of a signed merge anchor that the cross-check compares. -/
structure SignedMergeAnchor where
  parents : List String
  chainHead : String
  signature : String
  deriving DecidableEq, Repr

inductive DagAnchorBreakReason where
  | signatureInvalid
  | parentMismatch
  | headMismatch
  | anchorMissing
  deriving DecidableEq, Repr

structure DagAnchorBreak where
  index : Int
  reason : DagAnchorBreakReason
  detail : String
  deriving DecidableEq, Repr

structure DagAnchorVerifyResult where
  ok : Bool
  breaks : List DagAnchorBreak
  deriving DecidableEq, Repr

structure MergeAuditVerifyResult where
  cloneA : AuditVerifyResult
  cloneB : AuditVerifyResult
  mergedChain : AuditVerifyResult
  dagAnchor : DagAnchorVerifyResult
  ok : Bool

structure VerifyMergeAuditChainInput where
  cloneARows : List AuditChainRow
  cloneBRows : List AuditChainRow
  mergedRows : List AuditChainRow
  anchors : List SignedMergeAnchor

/-- The rows by event id. -/
def canonicalMergeOrder (rows : List AuditChainRow) : List AuditChainRow :=
  rows.insertionSort fun left right => left.id ≤ right.id

def sortedTexts (texts : List String) : List String :=
  texts.insertionSort (· ≤ ·)

def sameSet (left right : List String) : Bool :=
  sortedTexts left = sortedTexts right

/-- The last stored hash of the rows, empty when none is stored. -/
def chainHeadOf (rows : List AuditChainRow) : String :=
  ((rows.filterMap AuditChainRow.entryHash).getLast?).getD ""

def joinSorted (texts : List String) : String :=
  String.intercalate ", " (sortedTexts texts)

/-- The cross-check of the latest anchor, if there is one. -/
def verifyDagAnchor (verifyMergeAnchorSignature : SignedMergeAnchor → Bool)
    (anchor : Option SignedMergeAnchor)
    (cloneAHead cloneBHead mergedHead : String) : DagAnchorVerifyResult :=
  match anchor with
  | none =>
      { ok := false
        breaks :=
          [{ index := -1
             reason := .anchorMissing
             detail :=
              "no signed merge anchor found to cross-check the merge" }] }
  | some anchor =>
      let heads := [cloneAHead, cloneBHead]
      let signature : List DagAnchorBreak :=
        if verifyMergeAnchorSignature anchor then []
        else
          [{ index := 0
             reason := .signatureInvalid
             detail := "Ed25519 signature does not verify against the " ++
              "embedded signerPublicKey" }]
      let parents : List DagAnchorBreak :=
        if sameSet anchor.parents heads then []
        else
          [{ index := 0
             reason := .parentMismatch
             detail := "anchor parents [" ++ joinSorted anchor.parents ++
              "] != clone heads [" ++ joinSorted heads ++ "]" }]
      let head : List DagAnchorBreak :=
        if anchor.chainHead = mergedHead then []
        else
          [{ index := 0
             reason := .headMismatch
             detail := "anchor chainHead " ++ anchor.chainHead ++
              " != merged chain head " ++ mergedHead }]
      let breaks := signature ++ parents ++ head
      { ok := breaks = []
        breaks := breaks }

def verifyMergeAuditChain (sha256 : String → String)
    (verifyMergeAnchorSignature : SignedMergeAnchor → Bool)
    (input : VerifyMergeAuditChainInput) : MergeAuditVerifyResult :=
  let cloneA := verifyAuditChain sha256 input.cloneARows
  let cloneB := verifyAuditChain sha256 input.cloneBRows
  let ordered := canonicalMergeOrder input.mergedRows
  let mergedChain := walkChain sha256 ordered
  let dagAnchor := verifyDagAnchor verifyMergeAnchorSignature
    input.anchors.getLast? (chainHeadOf input.cloneARows)
    (chainHeadOf input.cloneBRows) (chainHeadOf ordered)
  { cloneA := cloneA
    cloneB := cloneB
    mergedChain := mergedChain
    dagAnchor := dagAnchor
    ok := cloneA.breaks = [] && cloneB.breaks = [] &&
      mergedChain.breaks = [] && dagAnchor.ok }

theorem canonicalMergeOrder_perm (rows : List AuditChainRow) :
    (canonicalMergeOrder rows).Perm rows :=
  List.perm_insertionSort _ rows

theorem canonicalMergeOrder_sorted (rows : List AuditChainRow) :
    (canonicalMergeOrder rows).Pairwise fun left right =>
      left.id ≤ right.id := by
  have : Std.Total fun left right : AuditChainRow => left.id ≤ right.id :=
    ⟨fun left right => le_total left.id right.id⟩
  have : IsTrans AuditChainRow fun left right => left.id ≤ right.id :=
    ⟨fun _ _ _ => le_trans⟩
  exact List.pairwise_insertionSort _ rows

theorem canonicalMergeOrder_eq_self_iff {rows : List AuditChainRow}
    (distinct : rows.Pairwise fun left right => left.id ≠ right.id) :
    canonicalMergeOrder rows = rows ↔
      rows.Pairwise fun left right => left.id < right.id := by
  constructor
  · intro same
    have sorted := canonicalMergeOrder_sorted rows
    rw [same] at sorted
    apply (sorted.and distinct).imp
    intro left right both
    exact lt_of_le_of_ne both.1 both.2
  · intro increasing
    exact List.Pairwise.insertionSort_eq (increasing.imp le_of_lt)

/-- A linked list with distinct ids walks without breaks in id order exactly
when its ids increase: the hashes admit one order only. -/
theorem walkChain_canonicalMergeOrder_iff
    {sha256 : String → String} (collisionFree : Function.Injective sha256)
    {rows : List AuditChainRow}
    (linked : (auditScheme sha256).Linked none rows)
    (chained : ∀ row ∈ rows, (auditScheme sha256).Chained row)
    (distinct : rows.Pairwise fun left right => left.id ≠ right.id) :
    (walkChain sha256 (canonicalMergeOrder rows)).breaks = [] ↔
      rows.Pairwise fun left right => left.id < right.id := by
  rw [walkChain_breaks_eq_nil_iff, ← canonicalMergeOrder_eq_self_iff distinct]
  constructor
  · intro reordered
    have intact (row : AuditChainRow) (member : row ∈ rows) :
        (auditScheme sha256).Intact row :=
      linked.intact member (chained row member)
    have hashesDiffer : rows.Pairwise fun left right =>
        (auditScheme sha256).entry left ≠ (auditScheme sha256).entry right := by
      apply distinct.imp_of_mem
      intro left right leftMember rightMember different sameHash
      rw [intact left leftMember, intact right rightMember] at sameHash
      have sameColumns := (computeEntryHash_injective collisionFree
        (Option.some.inj sameHash)).2.1
      exact different (congrArg CanonicalAuditRow.id sameColumns)
    have stored (row : AuditChainRow) (member : row ∈ rows) :
        (auditScheme sha256).entry row ≠ none := by
      rw [intact row member]
      exact Option.some_ne_none _
    exact (linked.unique reordered chained hashesDiffer stored
      (canonicalMergeOrder_perm rows).symm).symm
  · intro same
    rw [same]
    exact linked

end Registrar
