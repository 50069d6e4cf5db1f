import Mathlib.Data.List.Sort
import Mathlib.Data.List.Forall2
import Mathlib.Tactic.Common

/-!
# Unions by key

The union of rows under a key keeps the first row of each key.  Sorted by key,
two unions over the same keys line up row by row.
-/

namespace KeyedUnion

variable {Row Key : Type*} [DecidableEq Key] (key : Row → Key)

/-- Keep a row unless one with its key is kept already. -/
def keep (kept : List Row) (row : Row) : List Row :=
  if kept.any (key · = key row) then kept else kept ++ [row]

/-- The first row of each key, in order of appearance. -/
def union (rows : List Row) : List Row :=
  rows.foldl (keep key) []

/-- The first row with a key. -/
def first? (rows : List Row) (wanted : Key) : Option Row :=
  rows.find? fun row => key row = wanted

variable {key}

theorem first?_keep (kept : List Row) (row : Row) (wanted : Key) :
    first? key (keep key kept row) wanted =
      first? key (kept ++ [row]) wanted := by
  unfold keep first?
  split_ifs with present
  · rw [List.find?_append]
    cases found : kept.find? fun other => key other = wanted with
    | some other => rfl
    | none =>
        have different : key row ≠ wanted := by
          rintro rfl
          obtain ⟨other, member, same⟩ := List.any_eq_true.mp present
          have absent := List.find?_eq_none.mp found other member
          exact absent same
        simp [different]
  · rfl

theorem keys_nodup_keep {kept : List Row} (row : Row)
    (nodup : (kept.map key).Nodup) :
    ((keep key kept row).map key).Nodup := by
  unfold keep
  split_ifs with present
  · exact nodup
  · rw [List.map_append, List.nodup_append]
    refine ⟨nodup, List.nodup_singleton _, ?_⟩
    intro used usedMember new newMember same
    obtain ⟨other, member, rfl⟩ := List.mem_map.mp usedMember
    rw [List.map_singleton, List.mem_singleton] at newMember
    apply present
    exact List.any_eq_true.mpr
      ⟨other, member, by simpa using same.trans newMember⟩

theorem first?_foldl_keep (kept rows : List Row) (wanted : Key) :
    first? key (rows.foldl (keep key) kept) wanted =
      first? key (kept ++ rows) wanted := by
  induction rows generalizing kept with
  | nil => simp
  | cons row rest induction =>
      have headKept : first? key (keep key kept row) wanted =
          first? key (kept ++ [row]) wanted := first?_keep kept row wanted
      rw [List.foldl_cons, induction]
      unfold first? at headKept ⊢
      rw [List.find?_append, headKept, ← List.find?_append, List.append_assoc]
      rfl

@[simp]
theorem first?_union (rows : List Row) (wanted : Key) :
    first? key (union key rows) wanted = first? key rows wanted :=
  first?_foldl_keep [] rows wanted

theorem keys_nodup_foldl_keep {kept : List Row} (rows : List Row)
    (nodup : (kept.map key).Nodup) :
    ((rows.foldl (keep key) kept).map key).Nodup := by
  induction rows generalizing kept with
  | nil => exact nodup
  | cons row rest induction => exact induction (keys_nodup_keep row nodup)

theorem keys_nodup_union (rows : List Row) :
    ((union key rows).map key).Nodup :=
  keys_nodup_foldl_keep rows List.nodup_nil

theorem first?_eq_some_of_mem {rows : List Row}
    (nodup : (rows.map key).Nodup) {row : Row} (member : row ∈ rows) :
    first? key rows (key row) = some row := by
  induction rows with
  | nil => simp at member
  | cons head rest induction =>
      rw [List.map_cons, List.nodup_cons] at nodup
      unfold first? at induction ⊢
      rcases List.mem_cons.mp member with rfl | later
      · simp
      · have different : key head ≠ key row := by
          intro same
          exact nodup.1 (same ▸ List.mem_map_of_mem later)
        rw [List.find?_cons_of_neg (by simpa using different)]
        exact induction nodup.2 later

theorem mem_union_iff {rows : List Row} {row : Row} :
    row ∈ union key rows ↔ first? key rows (key row) = some row := by
  rw [← first?_union]
  constructor
  · exact first?_eq_some_of_mem (keys_nodup_union rows)
  · exact List.mem_of_find?_eq_some

theorem mem_of_mem_union {rows : List Row} {row : Row}
    (member : row ∈ union key rows) : row ∈ rows :=
  List.mem_of_find?_eq_some (mem_union_iff.mp member)

theorem exists_first? {rows : List Row} {row : Row} (member : row ∈ rows) :
    ∃ first, first? key rows (key row) = some first := by
  apply Option.isSome_iff_exists.mp
  rw [first?, List.find?_isSome]
  exact ⟨row, member, by simp⟩

theorem mem_keys_union_iff {rows : List Row} {wanted : Key} :
    wanted ∈ (union key rows).map key ↔ ∃ row ∈ rows, key row = wanted := by
  rw [List.mem_map]
  constructor
  · rintro ⟨row, member, same⟩
    exact ⟨row, mem_of_mem_union member, same⟩
  · rintro ⟨row, member, rfl⟩
    obtain ⟨first, found⟩ : ∃ first, first? key rows (key row) = some first :=
      exists_first? member
    have same : key first = key row := by simpa using List.find?_some found
    exact ⟨first, mem_union_iff.mpr (same ▸ found), same⟩

theorem key_of_first? {rows : List Row} {wanted : Key} {row : Row}
    (found : first? key rows wanted = some row) : key row = wanted := by
  simpa using List.find?_some found

theorem first?_append {front back : List Row} {wanted : Key} :
    first? key (front ++ back) wanted =
      (first? key front wanted).or (first? key back wanted) :=
  List.find?_append

theorem exists_first?_of_flatten {lists : List (List Row)} {wanted : Key}
    {row : Row} (found : first? key lists.flatten wanted = some row) :
    ∃ rows ∈ lists, first? key rows wanted = some row := by
  induction lists with
  | nil => simp [first?] at found
  | cons rows rest induction =>
      rw [List.flatten_cons, first?_append] at found
      cases front : first? key rows wanted with
      | some first =>
          rw [front, Option.some_or] at found
          exact ⟨rows, List.mem_cons_self, front.trans found⟩
      | none =>
          rw [front, Option.none_or] at found
          obtain ⟨later, member, same⟩ := induction found
          exact ⟨later, List.mem_cons_of_mem rows member, same⟩

section Filter

variable {selected : Row → Bool}

theorem filter_keep {kept : List Row} {row : Row}
    (constant : ∀ other ∈ kept, key other = key row →
      selected other = selected row) :
    (keep key kept row).filter selected =
      if selected row then keep key (kept.filter selected) row
      else kept.filter selected := by
  have present : selected row = true →
      ((kept.filter selected).any (key · = key row) =
        kept.any (key · = key row)) := by
    intro chosen
    rw [Bool.eq_iff_iff, List.any_eq_true, List.any_eq_true]
    constructor
    · rintro ⟨other, member, same⟩
      exact ⟨other, (List.mem_filter.mp member).1, same⟩
    · rintro ⟨other, member, same⟩
      have alike := constant other member (by simpa using same)
      exact ⟨other, List.mem_filter.mpr ⟨member, alike.trans chosen⟩, same⟩
  unfold keep
  by_cases chosen : selected row = true
  · rw [if_pos chosen, present chosen]
    split_ifs
    · rfl
    · simp [chosen]
  · rw [if_neg chosen]
    split_ifs
    · rfl
    · simp [chosen]

theorem filter_foldl_keep {kept rows : List Row}
    (constant : ∀ row ∈ kept ++ rows, ∀ other ∈ kept ++ rows,
      key row = key other → selected row = selected other) :
    (rows.foldl (keep key) kept).filter selected =
      (rows.filter selected).foldl (keep key) (kept.filter selected) := by
  induction rows generalizing kept with
  | nil => rfl
  | cons row rest induction =>
      have inKept : ∀ other ∈ keep key kept row, other ∈ kept ++ [row] := by
        intro other member
        unfold keep at member
        split_ifs at member
        · exact List.mem_append_left _ member
        · exact member
      have stillConstant : ∀ first ∈ keep key kept row ++ rest,
          ∀ second ∈ keep key kept row ++ rest,
            key first = key second → selected first = selected second := by
        have included : ∀ other ∈ keep key kept row ++ rest,
            other ∈ kept ++ row :: rest := by
          intro other member
          rcases List.mem_append.mp member with early | late
          · have inside := inKept other early
            simp only [List.mem_append, List.mem_cons, List.not_mem_nil,
              or_false] at inside ⊢
            tauto
          · exact List.mem_append_right _ (List.mem_cons_of_mem _ late)
        intro first firstMember second secondMember
        exact constant first (included first firstMember) second
          (included second secondMember)
      have ofRow := @filter_keep Row Key _ key selected kept row
        fun other member => constant other (List.mem_append_left _ member) row
          (List.mem_append_right _ List.mem_cons_self)
      rw [List.foldl_cons, induction stillConstant, ofRow]
      by_cases chosen : selected row = true <;> simp [chosen]

/-- Selecting rows by something that the key determines commutes with the
union. -/
theorem filter_union {rows : List Row}
    (constant : ∀ row ∈ rows, ∀ other ∈ rows,
      key row = key other → selected row = selected other) :
    (union key rows).filter selected = union key (rows.filter selected) := by
  apply filter_foldl_keep
  simpa using constant

end Filter

omit [DecidableEq Key] in
/-- Where lists line up by key and keys are not repeated, rows with one key
are related. -/
theorem related_of_aligned {related : Row → Row → Prop}
    {rows others : List Row}
    (aligned : List.Forall₂
      (fun row other => key row = key other ∧ related row other) rows others)
    (nodup : (others.map key).Nodup) {row other : Row}
    (member : row ∈ rows) (otherMember : other ∈ others)
    (same : key row = key other) : related row other := by
  induction aligned with
  | nil => cases member
  | @cons first second rest othersRest twins aligned induction =>
      rw [List.map_cons, List.nodup_cons] at nodup
      have sameKeys : rest.map key = othersRest.map key := by
        rw [← List.forall₂_eq_eq_eq, List.forall₂_map_left_iff,
          List.forall₂_map_right_iff]
        exact aligned.imp fun _ _ both => both.1
      rcases List.mem_cons.mp member with rfl | later
      · rcases List.mem_cons.mp otherMember with rfl | otherLater
        · exact twins.2
        · have repeated : key second ∈ othersRest.map key := by
            rw [← twins.1, same]
            exact List.mem_map_of_mem otherLater
          exact absurd repeated nodup.1
      · rcases List.mem_cons.mp otherMember with rfl | otherLater
        · have repeated : key other ∈ othersRest.map key := by
            rw [← same, ← sameKeys]
            exact List.mem_map_of_mem later
          exact absurd repeated nodup.1
        · exact induction nodup.2 later otherLater

section Sorted

variable [LinearOrder Key]

omit [DecidableEq Key] in
theorem sorted_keys (rows : List Row) :
    ((rows.insertionSort fun left right => key left ≤ key right).map
      key).Pairwise (· ≤ ·) := by
  apply List.pairwise_map.mpr
  have : Std.Total fun left right : Row => key left ≤ key right :=
    ⟨fun left right => le_total (key left) (key right)⟩
  have : IsTrans Row fun left right => key left ≤ key right :=
    ⟨fun _ _ _ => le_trans⟩
  exact List.pairwise_insertionSort _ rows

omit [DecidableEq Key] in
/-- Two row lists with the same keys, sorted by them, line up. -/
theorem sorted_aligned
    {related : Row → Row → Prop} {rows others : List Row}
    (nodup : (rows.map key).Nodup) (othersNodup : (others.map key).Nodup)
    (sameKeys : ∀ wanted, wanted ∈ rows.map key ↔ wanted ∈ others.map key)
    (relate : ∀ row ∈ rows, ∀ other ∈ others,
      key row = key other → related row other) :
    List.Forall₂ (fun row other => key row = key other ∧ related row other)
      (rows.insertionSort fun left right => key left ≤ key right)
      (others.insertionSort fun left right => key left ≤ key right) := by
  have keysPerm : ((rows.insertionSort fun left right =>
      key left ≤ key right).map key).Perm
        ((others.insertionSort fun left right =>
          key left ≤ key right).map key) := by
    refine ((List.perm_insertionSort _ rows).map key).trans (.trans ?_
      ((List.perm_insertionSort _ others).map key).symm)
    exact (List.perm_ext_iff_of_nodup nodup othersNodup).mpr sameKeys
  have keysEq := keysPerm.eq_of_pairwise
    (fun left right _ _ atMost atLeast => le_antisymm atMost atLeast)
    (sorted_keys rows) (sorted_keys others)
  have members : ∀ row,
      row ∈ (rows.insertionSort fun left right => key left ≤ key right) →
        row ∈ rows :=
    fun row => (List.perm_insertionSort _ rows).mem_iff.mp
  have othersMembers : ∀ other,
      other ∈ (others.insertionSort fun left right =>
        key left ≤ key right) → other ∈ others :=
    fun other => (List.perm_insertionSort _ others).mem_iff.mp
  apply List.forall₂_iff_get.mpr
  refine ⟨by simpa using congrArg List.length keysEq, ?_⟩
  intro index bound otherBound
  have sameKey : key ((rows.insertionSort fun left right =>
      key left ≤ key right).get ⟨index, bound⟩) =
        key ((others.insertionSort fun left right =>
          key left ≤ key right).get ⟨index, otherBound⟩) := by
    have atIndex := congrArg (·[index]?) keysEq
    simpa [List.getElem?_eq_getElem bound,
      List.getElem?_eq_getElem otherBound] using atIndex
  exact ⟨sameKey, relate _ (members _ (List.get_mem _ _)) _
    (othersMembers _ (List.get_mem _ _)) sameKey⟩

end Sorted

end KeyedUnion
