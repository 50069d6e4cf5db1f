import Registrar.Library.LeftmostMatches

/-!
# Expressions with groups

A sequence of expressions, some of which are groups or lazy runs.  A match is
told with the texts of its groups.
-/

namespace Regex

inductive Part (Class : Type*) where
  | plain (expression : Regex Class)
  /-- A run that ends as early as it can. -/
  | lazily (symbols : Class) (least : Nat) (most : Option Nat)
  | group (expression : Regex Class)

structure GroupMatch (Symbol : Type*) where
  index : Nat
  text : List Symbol
  groups : List (List Symbol)
  deriving DecidableEq, Repr

variable {Class Symbol : Type*}

/-- The symbols between two positions. -/
def Position.upTo (start final : Position Symbol) : List Symbol :=
  start.after.take (start.after.length - final.after.length)

section Matching

variable (accepts : Class → Symbol → Bool) (isWord : Symbol → Bool)

def Part.ends : Part Class → Position Symbol → List (Position Symbol)
  | plain expression, position => expression.ends accepts isWord position
  | lazily symbols least most, position =>
      (runEnds accepts symbols position.before least most
        position.after).reverse
  | group expression, position => expression.ends accepts isWord position

def Part.IsGroup : Part Class → Prop
  | plain _ | lazily _ _ _ => False
  | group _ => True

def Part.texts (start final : Position Symbol) :
    Part Class → List (List Symbol)
  | plain _ | lazily _ _ _ => []
  | group _ => [start.upTo final]

/-- The ends of a sequence of parts with the texts of its groups, the preferred
end first. -/
def captures : List (Part Class) → Position Symbol →
    List (List (List Symbol) × Position Symbol)
  | [], position => [([], position)]
  | part :: rest, position =>
      (part.ends accepts isWord position).flatMap fun middle =>
        (captures rest middle).map fun ending =>
          (part.texts position middle ++ ending.1, ending.2)

/-- The match that starts at the position. -/
def matchAt (parts : List (Part Class)) (position : Position Symbol) :
    Option (GroupMatch Symbol) :=
  (captures accepts isWord parts position).head?.map fun ending =>
    { index := position.before.length
      text := position.upTo ending.2
      groups := ending.1 }

end Matching

variable {accepts : Class → Symbol → Bool} {isWord : Symbol → Bool}

theorem Position.upTo_eq {start final : Position Symbol} {span : List Symbol}
    (isAfter : start.after = span ++ final.after) : start.upTo final = span := by
  simp [upTo, isAfter]

/-- A part moves forward. -/
theorem Part.exists_span {part : Part Class} {start final : Position Symbol}
    (reached : final ∈ part.ends accepts isWord start) :
    ∃ span, start.after = span ++ final.after ∧
      final.before = span.reverse ++ start.before := by
  have moves {expression : Regex Class}
      (ending : final ∈ expression.ends accepts isWord start) :
      ∃ span, start.after = span ++ final.after ∧
        final.before = span.reverse ++ start.before := by
    obtain ⟨span, isAfter, isBefore, -⟩ := exists_span_of_mem_ends
      (expression.all_true.imp fun _ _ _ _ => trivial) ending
    exact ⟨span, isAfter, isBefore⟩
  cases part with
  | plain expression => exact moves reached
  | lazily symbols least most =>
      obtain ⟨span, isAfter, isBefore, -⟩ :=
        mem_runEnds_iff.mp (List.mem_reverse.mp reached)
      exact ⟨span, isAfter, isBefore⟩
  | group expression => exact moves reached

theorem mem_captures_nil {start final : Position Symbol}
    {groups : List (List Symbol)} :
    (groups, final) ∈ captures accepts isWord [] start ↔
      groups = [] ∧ final = start := by
  simp [captures]

theorem mem_captures_cons {part : Part Class} {rest : List (Part Class)}
    {start final : Position Symbol} {groups : List (List Symbol)} :
    (groups, final) ∈ captures accepts isWord (part :: rest) start ↔
      ∃ middle ∈ part.ends accepts isWord start,
        ∃ others, (others, final) ∈ captures accepts isWord rest middle ∧
          groups = part.texts start middle ++ others := by
  rw [captures, List.mem_flatMap]
  constructor
  · rintro ⟨middle, isMiddle, mapped⟩
    obtain ⟨⟨others, last⟩, member, same⟩ := List.mem_map.mp mapped
    cases same
    exact ⟨middle, isMiddle, others, member, rfl⟩
  · rintro ⟨middle, isMiddle, others, member, rfl⟩
    exact ⟨middle, isMiddle, List.mem_map.mpr ⟨_, member, rfl⟩⟩

theorem mem_captures_append {front back : List (Part Class)}
    {start final : Position Symbol} {groups : List (List Symbol)} :
    (groups, final) ∈ captures accepts isWord (front ++ back) start ↔
      ∃ first middle second,
        (first, middle) ∈ captures accepts isWord front start ∧
          (second, final) ∈ captures accepts isWord back middle ∧
            groups = first ++ second := by
  induction front generalizing start groups with
  | nil =>
      simp only [List.nil_append, mem_captures_nil]
      constructor
      · intro member
        exact ⟨[], start, groups, ⟨rfl, rfl⟩, member, rfl⟩
      · rintro ⟨first, middle, second, ⟨rfl, rfl⟩, member, rfl⟩
        exact member
  | cons part rest induction =>
      rw [List.cons_append, mem_captures_cons]
      constructor
      · rintro ⟨next, isNext, others, member, rfl⟩
        obtain ⟨first, middle, second, inRest, inBack, rfl⟩ :=
          induction.mp member
        refine ⟨part.texts start next ++ first, middle, second, ?_, inBack, ?_⟩
        · exact mem_captures_cons.mpr ⟨next, isNext, first, inRest, rfl⟩
        · rw [List.append_assoc]
      · rintro ⟨first, middle, second, inFront, inBack, rfl⟩
        obtain ⟨next, isNext, others, inRest, rfl⟩ :=
          mem_captures_cons.mp inFront
        refine ⟨next, isNext, others ++ second, ?_, ?_⟩
        · exact induction.mpr ⟨others, middle, second, inRest, inBack, rfl⟩
        · rw [List.append_assoc]

/-- A sequence of parts moves forward. -/
theorem exists_span_of_mem_captures {parts : List (Part Class)}
    {start final : Position Symbol} {groups : List (List Symbol)}
    (member : (groups, final) ∈ captures accepts isWord parts start) :
    ∃ span, start.after = span ++ final.after ∧
      final.before = span.reverse ++ start.before := by
  induction parts generalizing start groups with
  | nil =>
      obtain ⟨-, rfl⟩ := mem_captures_nil.mp member
      exact ⟨[], by simp⟩
  | cons part rest induction =>
      obtain ⟨middle, isMiddle, others, inRest, -⟩ :=
        mem_captures_cons.mp member
      obtain ⟨front, isFront, frontBefore⟩ := part.exists_span isMiddle
      obtain ⟨back, isBack, backBefore⟩ := induction inRest
      exact ⟨front ++ back, by simp [isFront, isBack],
        by simp [frontBefore, backBefore]⟩

/-- Parts without groups tell no texts. -/
theorem groups_eq_nil {parts : List (Part Class)}
    {start final : Position Symbol} {groups : List (List Symbol)}
    (noGroup : ∀ part ∈ parts, ¬part.IsGroup)
    (member : (groups, final) ∈ captures accepts isWord parts start) :
    groups = [] := by
  induction parts generalizing start groups with
  | nil => exact (mem_captures_nil.mp member).1
  | cons part rest induction =>
      obtain ⟨middle, -, others, inRest, rfl⟩ := mem_captures_cons.mp member
      have noText : part.texts start middle = [] := by
        cases part with
        | plain expression => rfl
        | lazily symbols least most => rfl
        | group expression => exact absurd trivial (noGroup _ List.mem_cons_self)
      rw [noText, List.nil_append]
      exact induction (fun other later =>
        noGroup other (List.mem_cons_of_mem part later)) inRest

theorem matchAt_eq_some_iff {parts : List (Part Class)}
    {position : Position Symbol} {found : GroupMatch Symbol} :
    matchAt accepts isWord parts position = some found ↔
      ∃ groups final,
        (captures accepts isWord parts position).head? = some (groups, final) ∧
          found = { index := position.before.length,
                    text := position.upTo final,
                    groups := groups } := by
  unfold matchAt
  rw [Option.map_eq_some_iff]
  constructor
  · rintro ⟨⟨groups, final⟩, isHead, rfl⟩
    exact ⟨groups, final, isHead, rfl⟩
  · rintro ⟨groups, final, isHead, rfl⟩
    exact ⟨_, isHead, rfl⟩

end Regex
