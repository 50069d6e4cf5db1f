import Mathlib.Algebra.BigOperators.Group.List.Basic
import Mathlib.Algebra.Order.Field.Rat
import Mathlib.Tactic.Positivity
import Mathlib.Tactic.Linarith

/-!
# Reciprocal ranks

Several rankings of items are joined by the sum of the reciprocals of the
ranks.  An item that a ranking repeats counts once, at its first place.
-/

namespace ReciprocalRanks

variable {Item : Type*} [DecidableEq Item]

/-- The first place of an item, counted from one. -/
def firstRank (item : Item) (ranking : List Item) : Option Nat :=
  (ranking.idxOf? item).map (· + 1)

/-- What one ranking adds to the score of an item. -/
def share (k : ℚ) (item : Item) (ranking : List Item) : ℚ :=
  ((firstRank item ranking).map fun rank : Nat => 1 / (k + rank)).getD 0

def score (k : ℚ) (rankings : List (List Item)) (item : Item) : ℚ :=
  (rankings.map (share k item)).sum

def bestRank (rankings : List (List Item)) (item : Item) : Option Nat :=
  (rankings.filterMap (firstRank item)).min?

/-- Every place counts: the sum over all places of an item, after those of
`before` other items. -/
def placeSum (k : ℚ) (item : Item) : Nat → List Item → ℚ
  | _, [] => 0
  | before, other :: ranking =>
      (if other = item then 1 / (k + (before + 1 : Nat)) else 0) +
        placeSum k item (before + 1) ranking

/-- What a ranking that starts after `before` places adds. -/
def shareAfter (k : ℚ) (item : Item) (before : Nat) (ranking : List Item) : ℚ :=
  ((firstRank item ranking).map fun rank =>
    1 / (k + (before + rank : Nat))).getD 0

@[simp]
theorem firstRank_nil (item : Item) : firstRank item [] = none := rfl

theorem firstRank_cons (item other : Item) (ranking : List Item) :
    firstRank item (other :: ranking) =
      if other = item then some 1
      else (firstRank item ranking).map (· + 1) := by
  unfold firstRank
  rw [List.idxOf?_cons]
  by_cases same : other = item
  · simp [same]
  · simp [same, Option.map_map]

theorem shareAfter_zero (k : ℚ) (item : Item) (ranking : List Item) :
    shareAfter k item 0 ranking = share k item ranking := by
  simp only [shareAfter, share, Nat.zero_add]

theorem shareAfter_cons (k : ℚ) (item other : Item) (before : Nat)
    (ranking : List Item) :
    shareAfter k item before (other :: ranking) =
      if other = item then 1 / (k + (before + 1 : Nat))
      else shareAfter k item (before + 1) ranking := by
  unfold shareAfter
  rw [firstRank_cons]
  by_cases same : other = item
  · simp [same]
  · rw [if_neg same, if_neg same, Option.map_map]
    have places : (fun rank : Nat => 1 / (k + (before + rank : Nat))) ∘
        (· + 1) = fun rank : Nat => 1 / (k + (before + 1 + rank : Nat)) := by
      funext rank
      have moved : before + (rank + 1) = before + 1 + rank := by omega
      simp only [Function.comp_apply, moved]
    rw [places]

theorem reciprocal_pos {k : ℚ} (nonneg : 0 ≤ k) (before : Nat) :
    0 < 1 / (k + (before + 1 : Nat)) := by
  have later : (0 : ℚ) < (before + 1 : Nat) := by
    exact_mod_cast Nat.succ_pos before
  positivity

theorem placeSum_nonneg {k : ℚ} (nonneg : 0 ≤ k) (item : Item) (before : Nat)
    (ranking : List Item) : 0 ≤ placeSum k item before ranking := by
  induction ranking generalizing before with
  | nil => exact le_refl 0
  | cons other ranking induction =>
      rw [placeSum]
      have rest := induction (before + 1)
      split_ifs with same
      · exact add_nonneg (reciprocal_pos nonneg before).le rest
      · rwa [zero_add]

theorem placeSum_of_not_mem {k : ℚ} {item : Item} {before : Nat}
    {ranking : List Item} (absent : item ∉ ranking) :
    placeSum k item before ranking = 0 := by
  induction ranking generalizing before with
  | nil => rfl
  | cons other ranking induction =>
      have different : other ≠ item := fun same =>
        absent (same ▸ List.mem_cons_self)
      have rest : item ∉ ranking := fun member =>
        absent (List.mem_cons_of_mem other member)
      rw [placeSum, if_neg different, induction rest, zero_add]

theorem placeSum_pos_iff {k : ℚ} (nonneg : 0 ≤ k) {item : Item} {before : Nat}
    {ranking : List Item} :
    0 < placeSum k item before ranking ↔ item ∈ ranking := by
  constructor
  · intro positive
    by_contra absent
    rw [placeSum_of_not_mem absent] at positive
    exact lt_irrefl 0 positive
  · intro member
    induction ranking generalizing before with
    | nil => simp at member
    | cons other ranking induction =>
        rw [placeSum]
        by_cases same : other = item
        · rw [if_pos same]
          have first := reciprocal_pos nonneg before
          have rest := placeSum_nonneg nonneg item (before + 1) ranking
          linarith
        · have later : item ∈ ranking :=
            (List.mem_cons.mp member).resolve_left (Ne.symm same)
          rw [if_neg same, zero_add]
          exact induction later

theorem placeSum_append (k : ℚ) (item : Item) (before : Nat)
    (front back : List Item) :
    placeSum k item before (front ++ back) =
      placeSum k item before front +
        placeSum k item (before + front.length) back := by
  induction front generalizing before with
  | nil => simp [placeSum]
  | cons other front induction =>
      have moved : before + 1 + front.length =
          before + (front.length + 1) := by omega
      rw [List.cons_append, placeSum, placeSum, induction, List.length_cons,
        moved, add_assoc]

theorem shareAfter_le_placeSum {k : ℚ} (nonneg : 0 ≤ k) (item : Item)
    (before : Nat) (ranking : List Item) :
    shareAfter k item before ranking ≤ placeSum k item before ranking := by
  induction ranking generalizing before with
  | nil => exact le_refl 0
  | cons other ranking induction =>
      rw [shareAfter_cons, placeSum]
      split_ifs with same
      · have rest := placeSum_nonneg nonneg item (before + 1) ranking
        linarith
      · rw [zero_add]
        exact induction (before + 1)

/-- The two agree when the item has no second place. -/
theorem placeSum_eq_shareAfter_iff {k : ℚ} (nonneg : 0 ≤ k) {item : Item}
    {before : Nat} {ranking : List Item} :
    placeSum k item before ranking = shareAfter k item before ranking ↔
      ranking.count item ≤ 1 := by
  induction ranking generalizing before with
  | nil => simp [placeSum, shareAfter]
  | cons other ranking induction =>
      rw [shareAfter_cons, placeSum, List.count_cons]
      by_cases same : other = item
      · rw [if_pos same, if_pos same, add_eq_left,
          if_pos (beq_iff_eq.mpr same)]
        constructor
        · intro nothing
          have absent : item ∉ ranking := fun member =>
            (placeSum_pos_iff nonneg).mpr member |>.ne' nothing
          rw [List.count_eq_zero.mpr absent]
        · intro once
          have absent : item ∉ ranking :=
            List.count_eq_zero.mp (by omega)
          exact placeSum_of_not_mem absent
      · rw [if_neg same, if_neg same, zero_add, induction,
          if_neg (fun found => same (beq_iff_eq.mp found)), add_zero]

theorem placeSum_eq_share_iff {k : ℚ} (nonneg : 0 ≤ k) {item : Item}
    {ranking : List Item} :
    placeSum k item 0 ranking = share k item ranking ↔
      ranking.count item ≤ 1 := by
  rw [← shareAfter_zero, placeSum_eq_shareAfter_iff nonneg]

def placeScore (k : ℚ) (rankings : List (List Item)) (item : Item) : ℚ :=
  (rankings.map (placeSum k item 0)).sum

theorem score_le_placeScore {k : ℚ} (nonneg : 0 ≤ k)
    (rankings : List (List Item)) (item : Item) :
    score k rankings item ≤ placeScore k rankings item := by
  induction rankings with
  | nil => exact le_refl 0
  | cons ranking rankings induction =>
      have first := shareAfter_le_placeSum nonneg item 0 ranking
      rw [shareAfter_zero] at first
      simp only [score, placeScore, List.map_cons, List.sum_cons] at induction ⊢
      exact add_le_add first induction

theorem placeScore_eq_score_iff {k : ℚ} (nonneg : 0 ≤ k)
    {rankings : List (List Item)} {item : Item} :
    placeScore k rankings item = score k rankings item ↔
      ∀ ranking ∈ rankings, ranking.count item ≤ 1 := by
  induction rankings with
  | nil => simp [placeScore, score]
  | cons ranking rankings induction =>
      have first := shareAfter_le_placeSum nonneg item 0 ranking
      have rest := score_le_placeScore nonneg rankings item
      rw [shareAfter_zero] at first
      rw [List.forall_mem_cons, ← placeSum_eq_share_iff nonneg, ← induction]
      simp only [score, placeScore, List.map_cons, List.sum_cons] at rest ⊢
      constructor
      · intro total
        constructor <;> linarith
      · rintro ⟨head, tail⟩
        rw [head, tail]

theorem placeScore_eq_of_perm {k : ℚ} {left right : List (List Item)}
    (same : left.Perm right) (item : Item) :
    placeScore k left item = placeScore k right item :=
  (same.map _).sum_eq

@[simp]
theorem bestRank_nil (item : Item) : bestRank [] item = none := rfl

theorem bestRank_cons (ranking : List Item) (rankings : List (List Item))
    (item : Item) :
    bestRank (ranking :: rankings) item =
      (firstRank item ranking).merge min (bestRank rankings item) := by
  unfold bestRank
  rw [List.filterMap_cons]
  cases firstRank item ranking with
  | none => rw [Option.merge_none_left]
  | some rank =>
      rw [List.min?_cons]
      cases (rankings.filterMap (firstRank item)).min? <;>
        simp [Option.merge]

theorem bestRank_eq_of_perm {left right : List (List Item)}
    (same : left.Perm right) (item : Item) :
    bestRank left item = bestRank right item := by
  have ranks : (left.filterMap (firstRank item)).Perm
      (right.filterMap (firstRank item)) := same.filterMap _
  refine Option.ext fun best => ?_
  simp only [bestRank, List.min?_eq_some_iff, ranks.mem_iff]

section Order

variable {Item Key : Type*} [LinearOrder Key]

/-- The higher score first, then the better rank, then the lesser key. -/
def Before (key : Item → Key) (score : Item → ℚ) (best : Item → Nat)
    (left right : Item) : Prop :=
  score right < score left ∨
    score left = score right ∧
      (best left < best right ∨ best left = best right ∧ key left ≤ key right)

variable {key : Item → Key}

theorem Before.antisymm (injective : Function.Injective key)
    {score : Item → ℚ} {best : Item → Nat} {left right : Item}
    (forward : Before key score best left right)
    (backward : Before key score best right left) : left = right := by
  rcases forward with lower | ⟨same, better | ⟨alike, less⟩⟩
  · rcases backward with higher | ⟨level, -⟩
    · exact absurd lower higher.not_gt
    · exact absurd level lower.ne'.symm
  · rcases backward with higher | ⟨-, worse | ⟨level, -⟩⟩
    · exact absurd same higher.ne
    · omega
    · omega
  · rcases backward with higher | ⟨-, worse | ⟨-, more⟩⟩
    · exact absurd same higher.ne
    · omega
    · exact injective (le_antisymm less more)

theorem eq_of_pairwise_before (injective : Function.Injective key)
    {score : Item → ℚ} {best : Item → Nat}
    {left right : List Item} (leftOnce : left.Nodup) (rightOnce : right.Nodup)
    (members : ∀ item, item ∈ left ↔ item ∈ right)
    (leftOrdered : left.Pairwise (Before key score best))
    (rightOrdered : right.Pairwise (Before key score best)) : left = right :=
  List.Perm.eq_of_pairwise
    (fun _ _ _ _ forward backward => forward.antisymm injective backward)
    leftOrdered rightOrdered
    ((List.perm_ext_iff_of_nodup leftOnce rightOnce).mpr members)

end Order

end ReciprocalRanks
