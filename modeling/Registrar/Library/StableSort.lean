import Mathlib.Data.List.Sort

/-!
# Stable sorting

Facts about `List.insertionSort`, which keeps the relative order of elements
that the relation does not separate.
-/

namespace StableSort

variable {Element : Type*}
variable (relation : Element → Element → Prop) [DecidableRel relation]

theorem orderedInsert_append_singleton
    {last value : Element} (before : relation value last)
    (front : List Element) :
    List.orderedInsert relation value (front ++ [last]) =
      List.orderedInsert relation value front ++ [last] := by
  induction front with
  | nil => simp [before]
  | cons head tail induction =>
      by_cases first : relation value head
      · simp [first]
      · simp [first, induction]

/-- An element that nothing follows stays at the end. -/
theorem insertionSort_append_singleton
    {last : Element} {front : List Element}
    (before : ∀ value ∈ front, relation value last) :
    (front ++ [last]).insertionSort relation =
      front.insertionSort relation ++ [last] := by
  induction front with
  | nil => rfl
  | cons head tail induction =>
      have tailBefore := fun value (member : value ∈ tail) =>
        before value (List.mem_cons_of_mem head member)
      rw [List.cons_append, List.insertionSort_cons, induction tailBefore,
        List.insertionSort_cons,
        orderedInsert_append_singleton relation
          (before head List.mem_cons_self)]

theorem orderedInsert_of_le {value : Element} {others : List Element}
    (before : ∀ other ∈ others, relation value other) :
    others.orderedInsert relation value = value :: others := by
  cases others with
  | nil => rfl
  | cons head tail => simp [before head List.mem_cons_self]

section Filter

variable [IsTrans Element relation] (selected : Element → Bool)

theorem filter_orderedInsert (value : Element) {sorted : List Element}
    (isSorted : sorted.Pairwise relation) :
    (sorted.orderedInsert relation value).filter selected =
      if selected value then
        (sorted.filter selected).orderedInsert relation value
      else sorted.filter selected := by
  induction sorted with
  | nil => by_cases chosen : selected value <;> simp [chosen]
  | cons head tail induction =>
      obtain ⟨headFirst, tailSorted⟩ := List.pairwise_cons.mp isSorted
      by_cases first : relation value head
      · have before : ∀ other ∈ (head :: tail).filter selected,
            relation value other := by
          intro other member
          rcases List.mem_cons.mp (List.mem_filter.mp member).1 with rfl | later
          · exact first
          · exact IsTrans.trans value head other first (headFirst other later)
        rw [orderedInsert_of_le relation before]
        by_cases chosen : selected value <;> simp [first, chosen]
      · have inTail := induction tailSorted
        by_cases kept : selected head <;> by_cases chosen : selected value <;>
          simp [first, kept, chosen, inTail]

theorem filter_insertionSort [Std.Total relation]
    (elements : List Element) :
    (elements.insertionSort relation).filter selected =
      (elements.filter selected).insertionSort relation := by
  induction elements with
  | nil => rfl
  | cons head tail induction =>
      rw [List.insertionSort_cons, filter_orderedInsert relation selected head
        (List.pairwise_insertionSort relation tail), induction]
      by_cases chosen : selected head <;> simp [chosen]

end Filter

section Search

variable [IsTrans Element relation] (selected : Element → Bool)

theorem find?_orderedInsert (value : Element) {sorted : List Element}
    (isSorted : sorted.Pairwise relation) :
    (sorted.orderedInsert relation value).find? selected =
      if selected value then
        match sorted.find? selected with
        | some found => if relation value found then some value else some found
        | none => some value
      else sorted.find? selected := by
  induction sorted with
  | nil => by_cases chosen : selected value <;> simp [chosen]
  | cons head tail induction =>
      obtain ⟨headFirst, tailSorted⟩ := List.pairwise_cons.mp isSorted
      have inTail := induction tailSorted
      by_cases first : relation value head
      · rw [List.orderedInsert_cons, if_pos first]
        by_cases chosen : selected value
        · rw [List.find?_cons_of_pos chosen, if_pos chosen]
          cases search : (head :: tail).find? selected with
          | none => rfl
          | some found =>
              have before : relation value found := by
                rcases List.mem_cons.mp (List.mem_of_find?_eq_some search) with
                  rfl | later
                · exact first
                · exact IsTrans.trans value head found first
                    (headFirst found later)
              exact (if_pos before).symm
        · rw [List.find?_cons_of_neg chosen, if_neg chosen]
      · rw [List.orderedInsert_cons, if_neg first]
        by_cases kept : selected head
        · simp [kept, first]
        · simp only [List.find?_cons_of_neg kept, inTail]

/-- An element that comes first among the selected ones, by the order and then
by its position. -/
def IsFirst (elements : List Element) (found : Element) : Prop :=
  ∃ position : Nat, elements[position]? = some found ∧
    ∀ (other : Nat) (element : Element),
      elements[other]? = some element → selected element = true →
        relation found element ∧ (relation element found → position ≤ other)

variable {selected} in
theorem isFirst_of_find?_insertionSort [Std.Total relation]
    {elements : List Element} {found : Element}
    (search : (elements.insertionSort relation).find? selected = some found) :
    IsFirst relation selected elements found := by
  induction elements generalizing found with
  | nil => cases search
  | cons head tail induction =>
      rw [List.insertionSort_cons, find?_orderedInsert relation selected head
        (List.pairwise_insertionSort relation tail)] at search
      by_cases chosen : selected head
      · rw [if_pos chosen] at search
        cases inTail : (tail.insertionSort relation).find? selected with
        | none =>
            rw [inTail] at search
            obtain rfl := Option.some.inj search
            refine ⟨0, rfl, fun other element isElement picked => ?_⟩
            cases other with
            | zero =>
                obtain rfl := Option.some.inj isElement
                exact ⟨(Std.Total.total head head).elim id id,
                  fun _ => le_rfl⟩
            | succ other =>
                have member := (List.perm_insertionSort relation tail).mem_iff
                  |>.mpr (List.mem_of_getElem? isElement)
                exact absurd picked
                  (List.find?_eq_none.mp inTail element member)
        | some least =>
            rw [inTail] at search
            obtain ⟨position, isLeast, before⟩ := induction inTail
            by_cases first : relation head least
            · obtain rfl := Option.some.inj ((if_pos first).symm.trans search)
              refine ⟨0, rfl, fun other element isElement picked => ?_⟩
              cases other with
              | zero =>
                  obtain rfl := Option.some.inj isElement
                  exact ⟨(Std.Total.total head head).elim id id,
                    fun _ => le_rfl⟩
              | succ other =>
                  exact ⟨IsTrans.trans head least element first
                    (before other element isElement picked).1,
                    fun _ => Nat.zero_le _⟩
            · obtain rfl := Option.some.inj ((if_neg first).symm.trans search)
              refine ⟨position + 1, isLeast, fun other element isElement picked => ?_⟩
              cases other with
              | zero =>
                  obtain rfl := Option.some.inj isElement
                  exact ⟨(Std.Total.total least head).resolve_right first,
                    fun before => absurd before first⟩
              | succ other =>
                  obtain ⟨after, tied⟩ := before other element isElement picked
                  exact ⟨after, fun back => Nat.succ_le_succ (tied back)⟩
      · rw [if_neg chosen] at search
        obtain ⟨position, isLeast, before⟩ := induction search
        refine ⟨position + 1, isLeast, fun other element isElement picked => ?_⟩
        cases other with
        | zero =>
            obtain rfl := Option.some.inj isElement
            exact absurd picked chosen
        | succ other =>
            obtain ⟨after, tied⟩ := before other element isElement picked
            exact ⟨after, fun back => Nat.succ_le_succ (tied back)⟩

omit [DecidableRel relation] [IsTrans Element relation] in
variable {relation} {selected} in
theorem IsFirst.unique {elements : List Element} {left right : Element}
    (leftFirst : IsFirst relation selected elements left)
    (rightFirst : IsFirst relation selected elements right)
    (leftSelected : selected left = true)
    (rightSelected : selected right = true) : left = right := by
  obtain ⟨here, isLeft, beforeLeft⟩ := leftFirst
  obtain ⟨there, isRight, beforeRight⟩ := rightFirst
  obtain ⟨leftBefore, leftTie⟩ := beforeLeft there right isRight rightSelected
  obtain ⟨rightBefore, rightTie⟩ := beforeRight here left isLeft leftSelected
  have same : here = there :=
    le_antisymm (leftTie rightBefore) (rightTie leftBefore)
  rw [same, isRight] at isLeft
  exact (Option.some.inj isLeft).symm

/-- Sorting and searching finds the first of the least selected elements. -/
theorem find?_insertionSort_eq_some_iff [Std.Total relation]
    {elements : List Element} {found : Element} :
    (elements.insertionSort relation).find? selected = some found ↔
      selected found = true ∧ IsFirst relation selected elements found := by
  constructor
  · intro search
    exact ⟨List.find?_some search,
      isFirst_of_find?_insertionSort relation search⟩
  · rintro ⟨chosen, first⟩
    obtain ⟨position, isFound, -⟩ := id first
    cases search : (elements.insertionSort relation).find? selected with
    | none =>
        have member := (List.perm_insertionSort relation elements).mem_iff
          |>.mpr (List.mem_of_getElem? isFound)
        exact absurd chosen (List.find?_eq_none.mp search found member)
    | some least =>
        rw [IsFirst.unique (isFirst_of_find?_insertionSort relation search)
          first (List.find?_some search) chosen]

end Search

end StableSort
