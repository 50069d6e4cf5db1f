import Mathlib.Data.List.Basic

/-!
# Regular expressions

Expressions over classes of symbols, with bounded runs and word boundaries.  A
position in a text is what lies before it, the nearest symbol first, and what
lies after it; an expression leads from a position to the ends of its matches,
the preferred end first.
-/

inductive Regex (Class : Type*) where
  | empty
  | run (symbols : Class) (least : Nat) (most : Option Nat)
  | boundary
  | seq (first second : Regex Class)
  | alt (left right : Regex Class)
  deriving DecidableEq, Repr

namespace Regex

variable {Class Symbol : Type*}

def symbol (symbols : Class) : Regex Class :=
  .run symbols 1 (some 1)

def optional (expression : Regex Class) : Regex Class :=
  .alt expression .empty

def sequence : List (Regex Class) → Regex Class
  | [] => .empty
  | expression :: rest => rest.foldl .seq expression

/-- The first of the alternatives that matches is preferred. -/
def choice (first : Regex Class) (others : List (Regex Class)) :
    Regex Class :=
  others.foldl .alt first

/-- Every class of the expression has the property. -/
def All (property : Class → Prop) : Regex Class → Prop
  | empty => True
  | run symbols _ _ => property symbols
  | boundary => True
  | seq first second => first.All property ∧ second.All property
  | alt left right => left.All property ∧ right.All property

instance decidableAll {property : Class → Prop} [DecidablePred property] :
    ∀ expression : Regex Class, Decidable (expression.All property)
  | empty => isTrue trivial
  | run symbols _ _ => inferInstanceAs (Decidable (property symbols))
  | boundary => isTrue trivial
  | seq first second =>
      @instDecidableAnd _ _ (decidableAll first) (decidableAll second)
  | alt left right =>
      @instDecidableAnd _ _ (decidableAll left) (decidableAll right)

theorem All.imp {weaker property : Class → Prop} {expression : Regex Class}
    (all : expression.All property)
    (implies : ∀ symbols, property symbols → weaker symbols) :
    expression.All weaker := by
  induction expression with
  | empty => trivial
  | run symbols least most => exact implies symbols all
  | boundary => trivial
  | seq first second inFirst inSecond =>
      exact ⟨inFirst all.1, inSecond all.2⟩
  | alt left right inLeft inRight => exact ⟨inLeft all.1, inRight all.2⟩

theorem all_true (expression : Regex Class) : expression.All fun _ => True := by
  induction expression with
  | empty => trivial
  | run symbols least most => trivial
  | boundary => trivial
  | seq first second inFirst inSecond => exact ⟨inFirst, inSecond⟩
  | alt left right inLeft inRight => exact ⟨inLeft, inRight⟩

@[ext]
structure Position (Symbol : Type*) where
  before : List Symbol
  after : List Symbol
  deriving DecidableEq, Repr

section Matching

variable (accepts : Class → Symbol → Bool) (isWord : Symbol → Bool)

/-- The ends of a run, the longest first. -/
def runEnds (symbols : Class) :
    List Symbol → Nat → Option Nat → List Symbol → List (Position Symbol)
  | before, least, _, [] => if least = 0 then [⟨before, []⟩] else []
  | before, least, most, symbol :: rest =>
      (if accepts symbols symbol = true ∧ most ≠ some 0 then
        runEnds symbols (symbol :: before) (least - 1) (most.map (· - 1)) rest
      else []) ++
        if least = 0 then [⟨before, symbol :: rest⟩] else []

/-- A word begins or ends at the position. -/
def Position.atBoundary (position : Position Symbol) : Bool :=
  position.before.head?.any isWord != position.after.head?.any isWord

def ends : Regex Class → Position Symbol → List (Position Symbol)
  | empty, position => [position]
  | run symbols least most, position =>
      runEnds accepts symbols position.before least most position.after
  | boundary, position =>
      if position.atBoundary isWord then [position] else []
  | seq first second, position =>
      (ends first position).flatMap (ends second)
  | alt left right, position => ends left position ++ ends right position

/-- The expression matches this part of a text. -/
def Spans (expression : Regex Class) (before span after : List Symbol) :
    Prop :=
  ⟨span.reverse ++ before.reverse, after⟩ ∈
    expression.ends accepts isWord ⟨before.reverse, span ++ after⟩

instance [DecidableEq Symbol] (expression : Regex Class)
    (before span after : List Symbol) :
    Decidable (expression.Spans accepts isWord before span after) :=
  inferInstanceAs (Decidable (_ ∈ _))

/-- Every position of a text, from the left. -/
def positions : List Symbol → List Symbol → List (Position Symbol)
  | before, [] => [⟨before, []⟩]
  | before, symbol :: rest =>
      ⟨before, symbol :: rest⟩ :: positions (symbol :: before) rest

/-- The expression matches somewhere in the text. -/
def test (expression : Regex Class) (text : List Symbol) : Bool :=
  (positions [] text).any fun position =>
    !(expression.ends accepts isWord position).isEmpty

end Matching

variable {accepts : Class → Symbol → Bool} {isWord : Symbol → Bool}

theorem mem_runEnds_iff {symbols : Class} {before after : List Symbol}
    {least : Nat} {most : Option Nat} {position : Position Symbol} :
    position ∈ runEnds accepts symbols before least most after ↔
      ∃ span, after = span ++ position.after ∧
        position.before = span.reverse ++ before ∧
        (∀ symbol ∈ span, accepts symbols symbol = true) ∧
        least ≤ span.length ∧ ∀ bound ∈ most, span.length ≤ bound := by
  induction after generalizing before least most with
  | nil =>
      unfold runEnds
      constructor
      · intro member
        split_ifs at member with done
        · rw [List.mem_singleton.mp member]
          exact ⟨[], by simp [done]⟩
        · cases member
      · rintro ⟨span, isAfter, isBefore, -, enough, -⟩
        obtain ⟨rfl, ended⟩ := List.append_eq_nil_iff.mp isAfter.symm
        have done : least = 0 := by simpa using enough
        rw [if_pos done, List.mem_singleton]
        exact Position.ext (by simpa using isBefore) ended
  | cons symbol rest induction =>
      unfold runEnds
      rw [List.mem_append]
      constructor
      · rintro (longer | here)
        · split_ifs at longer with accepted
          · obtain ⟨span, isRest, isBefore, all, enough, within⟩ :=
              induction.mp longer
            refine ⟨symbol :: span, by simp [← isRest], by simp [isBefore], ?_,
              ?_, ?_⟩
            · exact List.forall_mem_cons.mpr ⟨accepted.1, all⟩
            · simp only [List.length_cons]
              omega
            · intro bound isBound
              have shorter := within (bound - 1)
                (Option.mem_map_of_mem (· - 1) isBound)
              have positive : bound ≠ 0 := by
                rintro rfl
                exact accepted.2 isBound
              simp only [List.length_cons]
              omega
          · cases longer
        · split_ifs at here with done
          · rw [List.mem_singleton.mp here]
            exact ⟨[], by simp [done]⟩
          · cases here
      · rintro ⟨span, isAfter, isBefore, all, enough, within⟩
        cases span with
        | nil =>
            right
            have done : least = 0 := by simpa using enough
            rw [if_pos done, List.mem_singleton]
            exact Position.ext (by simpa using isBefore)
              (by simpa using isAfter.symm)
        | cons first span =>
            left
            obtain ⟨rfl, isRest⟩ := List.cons_eq_cons.mp isAfter
            have accepted : accepts symbols symbol = true ∧ most ≠ some 0 := by
              refine ⟨all symbol List.mem_cons_self, ?_⟩
              intro none
              have := within 0 none
              simp at this
            rw [if_pos accepted]
            refine induction.mpr ⟨span, isRest, by simp [isBefore], ?_, ?_, ?_⟩
            · exact fun other member =>
                all other (List.mem_cons_of_mem _ member)
            · simp only [List.length_cons] at enough
              omega
            · intro bound isBound
              obtain ⟨outer, isOuter, rfl⟩ := Option.map_eq_some_iff.mp isBound
              have shorter := within outer isOuter
              simp only [List.length_cons] at shorter
              omega

/-- An expression moves forward, over symbols of its classes. -/
theorem exists_span_of_mem_ends {property : Symbol → Prop}
    {expression : Regex Class}
    (covered : expression.All fun symbols =>
      ∀ symbol, accepts symbols symbol = true → property symbol)
    {position final : Position Symbol}
    (reached : final ∈ expression.ends accepts isWord position) :
    ∃ span, position.after = span ++ final.after ∧
      final.before = span.reverse ++ position.before ∧
      ∀ symbol ∈ span, property symbol := by
  induction expression generalizing position final with
  | empty =>
      rw [List.mem_singleton.mp reached]
      exact ⟨[], by simp⟩
  | run symbols least most =>
      obtain ⟨span, isAfter, isBefore, all, -⟩ := mem_runEnds_iff.mp reached
      exact ⟨span, isAfter, isBefore, fun symbol member =>
        covered symbol (all symbol member)⟩
  | boundary =>
      unfold ends at reached
      split_ifs at reached
      · rw [List.mem_singleton.mp reached]
        exact ⟨[], by simp⟩
      · cases reached
  | seq first second inFirst inSecond =>
      obtain ⟨middle, isMiddle, isFinal⟩ := List.mem_flatMap.mp reached
      obtain ⟨front, isFront, frontBefore, frontOver⟩ :=
        inFirst covered.1 isMiddle
      obtain ⟨back, isBack, backBefore, backOver⟩ := inSecond covered.2 isFinal
      refine ⟨front ++ back, by simp [isFront, isBack],
        by simp [frontBefore, backBefore], ?_⟩
      intro symbol member
      rcases List.mem_append.mp member with inFront | inBack
      · exact frontOver symbol inFront
      · exact backOver symbol inBack
  | alt left right inLeft inRight =>
      rcases List.mem_append.mp reached with first | second
      · exact inLeft covered.1 first
      · exact inRight covered.2 second

theorem Spans.over {property : Symbol → Prop} {expression : Regex Class}
    {before span after : List Symbol}
    (spans : expression.Spans accepts isWord before span after)
    (covered : expression.All fun symbols =>
      ∀ symbol, accepts symbols symbol = true → property symbol) :
    ∀ symbol ∈ span, property symbol := by
  obtain ⟨other, isAfter, -, all⟩ := exists_span_of_mem_ends covered spans
  rw [List.append_cancel_right isAfter]
  exact all

theorem mem_positions_iff {passed text : List Symbol}
    {position : Position Symbol} :
    position ∈ positions passed text ↔
      ∃ before, text = before ++ position.after ∧
        position.before = before.reverse ++ passed := by
  induction text generalizing passed with
  | nil =>
      constructor
      · intro member
        rw [List.mem_singleton.mp member]
        exact ⟨[], by simp⟩
      · rintro ⟨before, isText, isBefore⟩
        obtain ⟨rfl, ended⟩ := List.append_eq_nil_iff.mp isText.symm
        exact List.mem_singleton.mpr
          (Position.ext (by simpa using isBefore) ended)
  | cons symbol rest induction =>
      unfold positions
      rw [List.mem_cons, induction]
      constructor
      · rintro (rfl | ⟨before, isRest, isBefore⟩)
        · exact ⟨[], by simp⟩
        · exact ⟨symbol :: before, by simp [← isRest], by simp [isBefore]⟩
      · rintro ⟨before, isText, isBefore⟩
        cases before with
        | nil =>
            left
            exact Position.ext (by simpa using isBefore)
              (by simpa using isText.symm)
        | cons first before =>
            obtain ⟨rfl, isRest⟩ := List.cons_eq_cons.mp isText
            exact .inr ⟨before, isRest, by simp [isBefore]⟩

/-- A test succeeds where some part of the text is matched. -/
theorem test_iff {expression : Regex Class} {text : List Symbol} :
    expression.test accepts isWord text = true ↔
      ∃ before span after, text = before ++ span ++ after ∧
        expression.Spans accepts isWord before span after := by
  unfold test
  rw [List.any_eq_true]
  constructor
  · rintro ⟨⟨passed, ahead⟩, member, nonempty⟩
    obtain ⟨before, isText, isPassed⟩ := mem_positions_iff.mp member
    simp only [List.append_nil] at isText isPassed
    have found : expression.ends accepts isWord ⟨passed, ahead⟩ ≠ [] := by
      simpa using nonempty
    obtain ⟨final, reached⟩ := List.exists_mem_of_ne_nil _ found
    have anything : expression.All fun symbols =>
        ∀ symbol, accepts symbols symbol = true → True :=
      expression.all_true.imp fun _ _ _ _ => trivial
    obtain ⟨span, isAhead, isBefore, -⟩ :=
      exists_span_of_mem_ends anything reached
    refine ⟨before, span, final.after, ?_, ?_⟩
    · rw [isText, List.append_assoc]
      exact congrArg (before ++ ·) isAhead
    · unfold Spans
      rw [← isAhead, ← isPassed]
      have same : final = ⟨span.reverse ++ passed, final.after⟩ := by
        rw [← isBefore]
      rw [← same]
      exact reached
  · rintro ⟨before, span, after, isText, spans⟩
    refine ⟨⟨before.reverse, span ++ after⟩, ?_, ?_⟩
    · exact mem_positions_iff.mpr
        ⟨before, by rw [isText, List.append_assoc], by simp⟩
    · have found := List.ne_nil_of_mem spans
      simpa using found

theorem spans_empty_iff {before span after : List Symbol} :
    (empty : Regex Class).Spans accepts isWord before span after ↔
      span = [] := by
  constructor
  · intro spans
    have same := congrArg Position.after (List.mem_singleton.mp spans)
    exact List.self_eq_append_left.mp same
  · rintro rfl
    exact List.mem_singleton.mpr rfl

theorem spans_run_iff {symbols : Class} {least : Nat} {most : Option Nat}
    {before span after : List Symbol} :
    (run symbols least most).Spans accepts isWord before span after ↔
      (∀ symbol ∈ span, accepts symbols symbol = true) ∧
        least ≤ span.length ∧ ∀ bound ∈ most, span.length ≤ bound := by
  unfold Spans ends
  rw [mem_runEnds_iff]
  constructor
  · rintro ⟨other, isAfter, -, all⟩
    rw [List.append_cancel_right isAfter]
    exact all
  · intro all
    exact ⟨span, rfl, rfl, all⟩

theorem spans_symbol_iff {symbols : Class} {before span after : List Symbol} :
    (symbol symbols).Spans accepts isWord before span after ↔
      ∃ only, span = [only] ∧ accepts symbols only = true := by
  unfold symbol
  rw [spans_run_iff]
  constructor
  · rintro ⟨all, least, most⟩
    have one : span.length = 1 := Nat.le_antisymm (most 1 rfl) least
    obtain ⟨only, rfl⟩ := List.length_eq_one_iff.mp one
    exact ⟨only, rfl, all only List.mem_cons_self⟩
  · rintro ⟨only, rfl, accepted⟩
    simp [accepted]

theorem spans_seq_iff {first second : Regex Class}
    {before span after : List Symbol} :
    (seq first second).Spans accepts isWord before span after ↔
      ∃ front back, span = front ++ back ∧
        first.Spans accepts isWord before front (back ++ after) ∧
          second.Spans accepts isWord (before ++ front) back after := by
  unfold Spans
  rw [ends, List.mem_flatMap]
  constructor
  · rintro ⟨⟨passed, ahead⟩, isMiddle, isFinal⟩
    have anything (expression : Regex Class) : expression.All fun symbols =>
        ∀ symbol, accepts symbols symbol = true → True :=
      expression.all_true.imp fun _ _ _ _ => trivial
    obtain ⟨front, isSpan, isPassed, -⟩ :=
      exists_span_of_mem_ends (anything first) isMiddle
    obtain ⟨back, isAhead, -, -⟩ :=
      exists_span_of_mem_ends (anything second) isFinal
    dsimp only at isSpan isPassed isAhead
    subst isAhead isPassed
    rw [← List.append_assoc] at isSpan
    obtain rfl := List.append_cancel_right isSpan
    refine ⟨front, back, rfl, ?_, ?_⟩
    · simpa using isMiddle
    · simpa using isFinal
  · rintro ⟨front, back, rfl, isMiddle, isFinal⟩
    refine ⟨⟨front.reverse ++ before.reverse, back ++ after⟩, ?_, ?_⟩
    · simpa using isMiddle
    · simpa using isFinal

theorem spans_alt_iff {left right : Regex Class}
    {before span after : List Symbol} :
    (alt left right).Spans accepts isWord before span after ↔
      left.Spans accepts isWord before span after ∨
        right.Spans accepts isWord before span after := by
  unfold Spans
  rw [ends, List.mem_append]

theorem spans_boundary_iff {before span after : List Symbol} :
    (boundary : Regex Class).Spans accepts isWord before span after ↔
      span = [] ∧ before.getLast?.any isWord ≠ after.head?.any isWord := by
  unfold Spans ends Position.atBoundary
  rw [List.head?_reverse]
  constructor
  · intro member
    split_ifs at member with differ
    · have same := congrArg Position.after (List.mem_singleton.mp member)
      obtain rfl : span = [] := List.self_eq_append_left.mp same
      exact ⟨rfl, bne_iff_ne.mp differ⟩
    · cases member
  · intro isBoundary
    obtain ⟨rfl, differ⟩ := isBoundary
    rw [List.nil_append, if_pos (bne_iff_ne.mpr differ)]
    exact List.mem_singleton.mpr rfl

/-- Of the text on its sides a match sees only whether the nearest symbols are
those of a word. -/
theorem Spans.beside {expression : Regex Class}
    {before before' span after after' : List Symbol}
    (spans : expression.Spans accepts isWord before span after)
    (sameBefore : before.getLast?.any isWord = before'.getLast?.any isWord)
    (sameAfter : after.head?.any isWord = after'.head?.any isWord) :
    expression.Spans accepts isWord before' span after' := by
  induction expression generalizing before before' span after after' with
  | empty => exact spans_empty_iff.mpr (spans_empty_iff.mp spans)
  | run symbols least most => exact spans_run_iff.mpr (spans_run_iff.mp spans)
  | boundary =>
      obtain ⟨isEmpty, differ⟩ := spans_boundary_iff.mp spans
      rw [sameBefore, sameAfter] at differ
      exact spans_boundary_iff.mpr ⟨isEmpty, differ⟩
  | seq first second inFirst inSecond =>
      obtain ⟨front, back, isSpan, isFront, isBack⟩ := spans_seq_iff.mp spans
      refine spans_seq_iff.mpr ⟨front, back, isSpan, ?_, ?_⟩
      · apply inFirst isFront sameBefore
        cases back with
        | nil => exact sameAfter
        | cons symbol rest => rfl
      · apply inSecond isBack _ sameAfter
        rcases List.eq_nil_or_concat front with rfl | ⟨rest, symbol, rfl⟩
        · simpa using sameBefore
        · simp
  | alt left right inLeft inRight =>
      rcases spans_alt_iff.mp spans with first | second
      · exact spans_alt_iff.mpr (.inl (inLeft first sameBefore sameAfter))
      · exact spans_alt_iff.mpr (.inr (inRight second sameBefore sameAfter))

/-- The expression may match the empty text. -/
def nullable : Regex Class → Bool
  | empty => true
  | run _ least _ => least = 0
  | boundary => true
  | seq first second => first.nullable && second.nullable
  | alt left right => left.nullable || right.nullable

theorem Spans.nonempty {expression : Regex Class}
    (filled : expression.nullable = false) {before span after : List Symbol}
    (spans : expression.Spans accepts isWord before span after) :
    span ≠ [] := by
  rintro rfl
  induction expression generalizing before after with
  | empty => cases filled
  | run symbols least most =>
      obtain ⟨-, enough, -⟩ := spans_run_iff.mp spans
      exact absurd (Nat.le_zero.mp enough) (of_decide_eq_false filled)
  | boundary => cases filled
  | seq first second inFirst inSecond =>
      obtain ⟨front, back, isSpan, isFront, isBack⟩ := spans_seq_iff.mp spans
      obtain ⟨rfl, rfl⟩ := List.append_eq_nil_iff.mp isSpan.symm
      rcases Bool.and_eq_false_iff.mp filled with inFront | inBack
      · exact inFirst inFront isFront
      · exact inSecond inBack isBack
  | alt left right inLeft inRight =>
      obtain ⟨leftFilled, rightFilled⟩ := Bool.or_eq_false_iff.mp filled
      rcases spans_alt_iff.mp spans with first | second
      · exact inLeft leftFilled first
      · exact inRight rightFilled second

end Regex
