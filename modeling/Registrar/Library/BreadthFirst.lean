import Mathlib.Data.List.Sort
import Mathlib.Data.List.Nodup
import Mathlib.Logic.Basic

/-!
# Breadth-first search

Walks of a given length, the distance from a start, the rounds of a search that
never looks back, and the first element under every key of a sorted list.
-/

namespace BreadthFirst

variable {Node : Type*}

inductive Walk (edge : Node → Node → Prop) (start : Node) : Nat → Node → Prop
  | refl : Walk edge start 0 start
  | step {length : Nat} {middle last : Node} :
      Walk edge start length middle → edge middle last →
      Walk edge start (length + 1) last

/-- The shortest walk from the start has this length. -/
def Distance (edge : Node → Node → Prop) (start : Node) (length : Nat)
    (node : Node) : Prop :=
  Walk edge start length node ∧
    ∀ shorter, Walk edge start shorter node → length ≤ shorter

variable {edge other : Node → Node → Prop} {start node : Node} {length : Nat}

theorem Walk.mono (included : ∀ left right, edge left right → other left right)
    (walk : Walk edge start length node) : Walk other start length node := by
  induction walk with
  | refl => exact .refl
  | step _ last induction => exact .step induction (included _ _ last)

theorem walk_congr (same : ∀ left right, edge left right ↔ other left right) :
    Walk edge start length node ↔ Walk other start length node :=
  ⟨Walk.mono fun left right => (same left right).mp,
    Walk.mono fun left right => (same left right).mpr⟩

theorem walk_succ_iff :
    Walk edge start (length + 1) node ↔
      ∃ middle, Walk edge start length middle ∧ edge middle node := by
  constructor
  · intro walk
    cases walk with
    | step walk last => exact ⟨_, walk, last⟩
  · rintro ⟨middle, walk, last⟩
    exact .step walk last

theorem exists_distance (walk : Walk edge start length node) :
    ∃ shortest ≤ length, Distance edge start shortest node := by
  induction length using Nat.strong_induction_on with
  | _ length induction =>
      by_cases shortest : ∀ shorter, Walk edge start shorter node →
          length ≤ shorter
      · exact ⟨length, le_rfl, walk, shortest⟩
      · push Not at shortest
        obtain ⟨shorter, shorterWalk, less⟩ := shortest
        obtain ⟨least, atMost, isLeast⟩ := induction shorter less shorterWalk
        exact ⟨least, by omega, isLeast⟩

theorem Distance.unique {first second : Nat}
    (left : Distance edge start first node)
    (right : Distance edge start second node) : first = second :=
  le_antisymm (left.2 second right.1) (right.2 first left.1)

theorem Distance.pos_iff (distance : Distance edge start length node) :
    0 < length ↔ node ≠ start := by
  constructor
  · rintro positive rfl
    have := distance.2 0 .refl
    omega
  · intro different
    by_contra isZero
    obtain rfl : length = 0 := by omega
    cases distance.1
    exact different rfl

variable {Row : Type*}

/-- A level and the levels that so many further expansions produce. -/
def rounds (expand : Row → List Row) : Nat → List Row → List Row
  | 0, level => level
  | further + 1, level =>
      level ++ rounds expand further (level.flatMap expand)

/-- The level that so many expansions lead to. -/
def level (expand : Row → List Row) : Nat → List Row → List Row
  | 0, first => first
  | further + 1, first => level expand further (first.flatMap expand)

theorem mem_rounds {expand : Row → List Row} {further : Nat}
    {first : List Row} {row : Row} :
    row ∈ rounds expand further first ↔
      ∃ round ≤ further, row ∈ level expand round first := by
  induction further generalizing first with
  | zero =>
      constructor
      · intro member
        exact ⟨0, le_rfl, member⟩
      · rintro ⟨round, atMost, member⟩
        obtain rfl : round = 0 := by omega
        exact member
  | succ further induction =>
      rw [rounds, List.mem_append, induction]
      constructor
      · rintro (now | ⟨round, atMost, later⟩)
        · exact ⟨0, by omega, now⟩
        · exact ⟨round + 1, by omega, later⟩
      · rintro ⟨round, atMost, member⟩
        cases round with
        | zero => exact .inl member
        | succ round => exact .inr ⟨round, by omega, member⟩

theorem level_succ (expand : Row → List Row) (further : Nat)
    (first : List Row) :
    level expand (further + 1) first =
      (level expand further first).flatMap expand := by
  induction further generalizing first with
  | zero => rfl
  | succ further induction => rw [level, induction, ← level]

variable {Key : Type*} [DecidableEq Key] (key : Row → Key)

/-- The first row under every key that was not seen before. -/
def firstOfEach : List Key → List Row → List Row
  | _, [] => []
  | seen, row :: rest =>
      if key row ∈ seen then firstOfEach seen rest
      else row :: firstOfEach (key row :: seen) rest

variable {key}

theorem firstOfEach_subset {seen : List Key} {rows : List Row} {row : Row}
    (member : row ∈ firstOfEach key seen rows) :
    row ∈ rows ∧ key row ∉ seen := by
  induction rows generalizing seen with
  | nil => cases member
  | cons head rest induction =>
      by_cases old : key head ∈ seen
      · rw [firstOfEach, if_pos old] at member
        obtain ⟨inRest, unseen⟩ := induction member
        exact ⟨List.mem_cons_of_mem head inRest, unseen⟩
      · rw [firstOfEach, if_neg old] at member
        rcases List.mem_cons.mp member with rfl | later
        · exact ⟨List.mem_cons_self, old⟩
        · obtain ⟨inRest, unseen⟩ := induction later
          exact ⟨List.mem_cons_of_mem head inRest, fun earlier =>
            unseen (List.mem_cons_of_mem _ earlier)⟩

theorem nodup_firstOfEach (seen : List Key) (rows : List Row) :
    ((firstOfEach key seen rows).map key).Nodup := by
  induction rows generalizing seen with
  | nil => exact List.nodup_nil
  | cons head rest induction =>
      by_cases old : key head ∈ seen
      · rw [firstOfEach, if_pos old]
        exact induction seen
      · rw [firstOfEach, if_neg old, List.map_cons]
        refine List.nodup_cons.mpr ⟨?_, induction _⟩
        intro again
        obtain ⟨row, member, same⟩ := List.mem_map.mp again
        apply (firstOfEach_subset member).2
        rw [same]
        exact List.mem_cons_self

/-- Every new key has its first row, which nothing of the key precedes. -/
theorem exists_firstOfEach {relation : Row → Row → Prop}
    {seen : List Key} {rows : List Row} {row : Row}
    (reflexive : ∀ row, relation row row)
    (sorted : rows.Pairwise relation) (member : row ∈ rows)
    (unseen : key row ∉ seen) :
    ∃ first ∈ firstOfEach key seen rows,
      key first = key row ∧ relation first row := by
  induction rows generalizing seen with
  | nil => cases member
  | cons head rest induction =>
      obtain ⟨headFirst, restSorted⟩ := List.pairwise_cons.mp sorted
      by_cases old : key head ∈ seen
      · rw [firstOfEach, if_pos old]
        rcases List.mem_cons.mp member with rfl | later
        · exact absurd old unseen
        · exact induction restSorted later unseen
      · rw [firstOfEach, if_neg old]
        by_cases same : key head = key row
        · refine ⟨head, List.mem_cons_self, same, ?_⟩
          rcases List.mem_cons.mp member with rfl | later
          · exact reflexive row
          · exact headFirst row later
        · rcases List.mem_cons.mp member with rfl | later
          · exact absurd rfl same
          · have stillUnseen : key row ∉ key head :: seen := by
              intro again
              rcases List.mem_cons.mp again with isHead | earlier
              · exact same isHead.symm
              · exact unseen earlier
            obtain ⟨first, isFirst, sameKey, before⟩ :=
              induction restSorted later stillUnseen
            exact ⟨first, List.mem_cons_of_mem head isFirst, sameKey, before⟩

end BreadthFirst
