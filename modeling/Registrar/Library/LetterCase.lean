import Mathlib.Data.List.Basic
import Mathlib.Data.List.Induction

/-!
# Lower case

What lowering does to a text, one character at a time.  ASCII is spelled out.
Outside it the table is left open, up to what its rows can hold: the Kelvin
sign becomes `k`, the dotted capital `i` with a mark behind it, everything else
stays outside ASCII.  A row may depend on the context, as that of the capital
sigma does.
-/

namespace LetterCase

variable (isSpace : Char → Bool)

/-- Characters that have no upper case of their own. -/
def isPlain (char : Char) : Bool :=
  !char.isUpper && (decide (char.toNat < 128) || isSpace char)

def isForeign (char : Char) : Bool :=
  decide (128 ≤ char.toNat) && !isSpace char

/-- Characters that are no letters and that no letter becomes. -/
def isMark (char : Char) : Bool :=
  !char.isAlpha && (decide (char.toNat < 128) || isSpace char)

inductive LowersTo : Char → List Char → Prop where
  | plain {char : Char} : isPlain isSpace char = true → LowersTo char [char]
  | upper {char : Char} : char.isUpper = true → LowersTo char [char.toLower]
  | kelvin {char : Char} : isForeign isSpace char = true → LowersTo char ['k']
  | foreign {char last : Char} {front : List Char} :
      isForeign isSpace char = true →
      (∀ other ∈ front, other = 'i' ∨ isForeign isSpace other = true) →
      isForeign isSpace last = true → LowersTo char (front ++ [last])

inductive Lowers : List Char → List Char → Prop where
  | nil : Lowers [] []
  | cons {char : Char} {piece chars lowered : List Char} :
      LowersTo isSpace char piece → Lowers chars lowered →
      Lowers (char :: chars) (piece ++ lowered)

/-- A function that lowers texts. -/
structure LowerCase (toLowerCase : String → String) : Prop where
  lowers : ∀ text, Lowers isSpace text.toList (toLowerCase text).toList
  lowered : ∀ text, toLowerCase (toLowerCase text) = toLowerCase text

variable {isSpace}

theorem isUpper_iff {char : Char} :
    char.isUpper = true ↔ 65 ≤ char.toNat ∧ char.toNat ≤ 90 := by
  change decide (char.val ≥ 'A'.val ∧ char.val ≤ 'Z'.val) = true ↔ _
  rw [decide_eq_true_iff]
  exact Iff.rfl

theorem isLower_iff {char : Char} :
    char.isLower = true ↔ 97 ≤ char.toNat ∧ char.toNat ≤ 122 := by
  change (decide (char.val ≥ 'a'.val) && decide (char.val ≤ 'z'.val)) = true ↔
    _
  rw [Bool.and_eq_true, decide_eq_true_iff, decide_eq_true_iff]
  exact Iff.rfl

theorem isDigit_iff {char : Char} :
    char.isDigit = true ↔ 48 ≤ char.toNat ∧ char.toNat ≤ 57 := by
  simp only [Char.isDigit, Bool.and_eq_true, decide_eq_true_eq]
  exact Iff.rfl

theorem isAlpha_eq (char : Char) :
    char.isAlpha = (char.isUpper || char.isLower) :=
  rfl

theorem toNat_toLower {char : Char} (upper : char.isUpper = true) :
    char.toLower.toNat = char.toNat + 32 := by
  obtain ⟨low, high⟩ := isUpper_iff.mp upper
  have inRange : char.val ≥ 'A'.val ∧ char.val ≤ 'Z'.val := ⟨low, high⟩
  have shifted : char.toLower.val = char.val + ('a'.val - 'A'.val) :=
    congrArg Char.val (dif_pos inRange)
  have code : char.toLower.toNat = char.toLower.val.toNat := rfl
  rw [code, shifted]
  rw [UInt32.toNat_add]
  have same : char.val.toNat = char.toNat := rfl
  have shift : ('a'.val - 'A'.val).toNat = 32 := rfl
  omega

theorem toLower_of_not_isUpper {char : Char} (other : char.isUpper = false) :
    char.toLower = char := by
  have outside : ¬ (char.val ≥ 'A'.val ∧ char.val ≤ 'Z'.val) := by
    intro inRange
    rw [isUpper_iff.mpr inRange] at other
    cases other
  exact dif_neg outside

theorem isUpper_toLower (char : Char) : char.toLower.isUpper = false := by
  cases upper : char.isUpper with
  | false => rwa [toLower_of_not_isUpper upper]
  | true =>
      have code := toNat_toLower upper
      have range := isUpper_iff.mp upper
      by_contra still
      have range' := isUpper_iff.mp (Bool.of_not_eq_false still)
      omega

theorem isAlpha_toLower {char : Char} (upper : char.isUpper = true) :
    char.toLower.isAlpha = true := by
  have code := toNat_toLower upper
  have range := isUpper_iff.mp upper
  have lower : char.toLower.isLower = true := by
    rw [isLower_iff]
    omega
  rw [isAlpha_eq, lower, Bool.or_true]

theorem toLower_toLower (char : Char) : char.toLower.toLower = char.toLower :=
  toLower_of_not_isUpper (isUpper_toLower char)

theorem isPlain_of_isMark {char : Char} (mark : isMark isSpace char = true) :
    isPlain isSpace char = true := by
  simp only [isMark, isPlain, isAlpha_eq, Bool.and_eq_true,
    Bool.not_eq_true', Bool.or_eq_false_iff] at mark ⊢
  exact ⟨mark.1.1, mark.2⟩

theorem isPlain_of_isDigit {char : Char} (digit : char.isDigit = true) :
    isPlain isSpace char = true := by
  have range := isDigit_iff.mp digit
  have noUpper : char.isUpper = false := by
    by_contra upper
    have range' := isUpper_iff.mp (Bool.of_not_eq_false upper)
    omega
  simp only [isPlain, noUpper, Bool.not_false, Bool.true_and, Bool.or_eq_true,
    decide_eq_true_eq]
  exact .inl (by omega)

theorem not_isForeign_of_isPlain {char : Char}
    (plain : isPlain isSpace char = true) : isForeign isSpace char = false := by
  simp only [isPlain, isForeign, Bool.and_eq_true, Bool.or_eq_true,
    decide_eq_true_eq, Bool.and_eq_false_iff, decide_eq_false_iff_not,
    Bool.not_eq_false', Nat.not_le] at plain ⊢
  exact plain.2

namespace LowersTo

variable {char : Char} {piece : List Char}

theorem ne_nil (lowers : LowersTo isSpace char piece) : piece ≠ [] := by
  cases lowers <;> simp

theorem eq_of_plain (lowers : LowersTo isSpace char piece)
    (plain : isPlain isSpace char = true) : piece = [char] := by
  have home := not_isForeign_of_isPlain plain
  cases lowers with
  | plain => rfl
  | upper upper => simp [isPlain, upper] at plain
  | kelvin foreign => simp [foreign] at home
  | foreign foreign => simp [foreign] at home

/-- A mark comes from itself. -/
theorem eq_of_mem (lowers : LowersTo isSpace char piece) {mark : Char}
    (marked : isMark isSpace mark = true) (member : mark ∈ piece) :
    mark = char := by
  have home := not_isForeign_of_isPlain (isPlain_of_isMark marked)
  have noLetter : mark.isAlpha = false := by
    simp only [isMark, Bool.and_eq_true, Bool.not_eq_true'] at marked
    exact marked.1
  cases lowers with
  | plain => exact List.mem_singleton.mp member
  | upper upper =>
      rw [List.mem_singleton.mp member, isAlpha_toLower upper] at noLetter
      cases noLetter
  | kelvin =>
      rw [List.mem_singleton.mp member] at noLetter
      cases noLetter
  | foreign _ inside last =>
      rcases List.mem_append.mp member with early | late
      · rcases inside mark early with rfl | foreign
        · cases noLetter
        · rw [foreign] at home
          cases home
      · rw [List.mem_singleton.mp late, last] at home
        cases home

/-- What a class of marks sees of a piece. -/
theorem filter_eq (lowers : LowersTo isSpace char piece)
    {accepted : Char → Bool}
    (marks : ∀ mark, accepted mark = true → isMark isSpace mark = true) :
    piece.filter accepted = [char].filter accepted := by
  cases inClass : accepted char with
  | true =>
      rw [lowers.eq_of_plain (isPlain_of_isMark (marks char inClass))]
  | false =>
      rw [List.filter_cons_of_neg (by simp [inClass]), List.filter_nil,
        List.filter_eq_nil_iff]
      intro mark member seen
      rw [lowers.eq_of_mem (marks mark seen) member, inClass] at seen
      cases seen

/-- An ASCII character becomes its ASCII lower case. -/
theorem ascii (lowers : LowersTo isSpace char piece)
    (small : char.toNat < 128) :
    ∃ other, piece = [other] ∧ other.toLower = char.toLower ∧
      other.toNat < 128 := by
  have home : isForeign isSpace char = false := by
    simp [isForeign, Nat.not_le_of_lt small]
  cases lowers with
  | plain => exact ⟨char, rfl, rfl, small⟩
  | upper upper =>
      have code := toNat_toLower upper
      have range := isUpper_iff.mp upper
      exact ⟨_, rfl, toLower_toLower char, by omega⟩
  | kelvin foreign => simp [foreign] at home
  | foreign foreign => simp [foreign] at home

/-- An ASCII character at the end of a piece, other than a `k`, is the piece,
and it comes from a character that differs from it in case only. -/
theorem of_append_singleton {front : List Char} {last : Char}
    (lowers : LowersTo isSpace char (front ++ [last]))
    (small : last.toNat < 128) (other : last ≠ 'k') :
    front = [] ∧ char.toLower = last.toLower := by
  generalize split : front ++ [last] = piece at lowers
  have alone : ∀ {char : Char}, piece = [char] → front = [] ∧ last = char := by
    intro char single
    obtain ⟨rfl, same⟩ := List.append_inj'
      (split.trans (single.trans (List.nil_append [char]).symm)) rfl
    exact ⟨rfl, List.singleton_inj.mp same⟩
  cases lowers with
  | plain =>
      obtain ⟨rfl, rfl⟩ := alone rfl
      exact ⟨rfl, rfl⟩
  | upper upper =>
      obtain ⟨rfl, rfl⟩ := alone rfl
      exact ⟨rfl, (toLower_toLower char).symm⟩
  | kelvin => exact absurd (alone rfl).2 other
  | foreign _ _ outside =>
      obtain ⟨-, same⟩ := List.append_inj' split rfl
      rw [← List.singleton_inj.mp same] at outside
      simp only [isForeign, Bool.and_eq_true, decide_eq_true_eq] at outside
      omega

end LowersTo

namespace Lowers

variable {chars lowered : List Char}

theorem filter_eq (lowers : Lowers isSpace chars lowered) {accepted : Char → Bool}
    (marks : ∀ mark, accepted mark = true → isMark isSpace mark = true) :
    lowered.filter accepted = chars.filter accepted := by
  induction lowers with
  | nil => rfl
  | @cons char piece chars lowered head tail induction =>
      rw [List.filter_append, head.filter_eq marks, induction,
        ← List.filter_append]
      rfl

theorem count_eq (lowers : Lowers isSpace chars lowered) {mark : Char}
    (marked : isMark isSpace mark = true) :
    lowered.count mark = chars.count mark := by
  have same : lowered.filter (· == mark) = chars.filter (· == mark) :=
    lowers.filter_eq fun other equal => by rwa [beq_iff_eq.mp equal]
  rw [List.count_eq_length_filter, same, ← List.count_eq_length_filter]

theorem append {left right lowered : List Char}
    (lowers : Lowers isSpace (left ++ right) lowered) :
    ∃ first second, lowered = first ++ second ∧
      Lowers isSpace left first ∧ Lowers isSpace right second := by
  induction left generalizing lowered with
  | nil => exact ⟨[], lowered, rfl, .nil, lowers⟩
  | cons char left induction =>
      cases lowers with
      | @cons _ piece _ rest head tail =>
          obtain ⟨first, second, rfl, early, late⟩ := induction tail
          exact ⟨piece ++ first, second, (List.append_assoc ..).symm,
            .cons head early, late⟩

theorem eq_of_plain (lowers : Lowers isSpace chars lowered)
    (plain : ∀ char ∈ chars, isPlain isSpace char = true) :
    lowered = chars := by
  induction lowers with
  | nil => rfl
  | cons head tail induction =>
      obtain ⟨first, rest⟩ := List.forall_mem_cons.mp plain
      rw [head.eq_of_plain first, induction rest]
      rfl

theorem singleton {char : Char} (lowers : Lowers isSpace [char] lowered) :
    LowersTo isSpace char lowered := by
  cases lowers with
  | cons head tail =>
      cases tail
      rwa [List.append_nil]

theorem append_mark {before after lowered : List Char} {mark : Char}
    (lowers : Lowers isSpace (before ++ mark :: after) lowered)
    (marked : isMark isSpace mark = true) :
    ∃ first second, lowered = first ++ mark :: second ∧
      Lowers isSpace before first ∧ Lowers isSpace after second := by
  obtain ⟨first, second, rfl, early, late⟩ := lowers.append
  cases late with
  | @cons _ piece _ rest head tail =>
      rw [head.eq_of_plain (isPlain_of_isMark marked)]
      exact ⟨first, rest, rfl, early, tail⟩

theorem notMem_of_isMark {chars lowered : List Char} {mark : Char}
    (lowers : Lowers isSpace chars lowered)
    (marked : isMark isSpace mark = true) :
    mark ∉ lowered ↔ mark ∉ chars := by
  rw [← List.count_eq_zero, lowers.count_eq marked, List.count_eq_zero]

/-- Lowering neither makes nor removes a mark in front. -/
theorem head?_mark (lowers : Lowers isSpace chars lowered) {mark : Char}
    (marked : isMark isSpace mark = true) :
    lowered.head? = some mark ↔ chars.head? = some mark := by
  cases lowers with
  | nil => rfl
  | @cons char piece chars lowered head tail =>
      obtain ⟨first, rest, rfl⟩ := List.exists_cons_of_ne_nil head.ne_nil
      rw [List.cons_append, List.head?_cons, List.head?_cons, Option.some_inj,
        Option.some_inj]
      constructor
      · rintro rfl
        exact (head.eq_of_mem marked List.mem_cons_self).symm
      · rintro rfl
        have alone := head.eq_of_plain (isPlain_of_isMark marked)
        exact (List.cons.inj alone).1

theorem getLast?_mark (lowers : Lowers isSpace chars lowered) {mark : Char}
    (marked : isMark isSpace mark = true) :
    lowered.getLast? = some mark ↔ chars.getLast? = some mark := by
  rcases List.eq_nil_or_concat' chars with rfl | ⟨front, char, rfl⟩
  · cases lowers
    rfl
  · obtain ⟨first, piece, rfl, -, last⟩ := lowers.append
    obtain ⟨init, final, rfl⟩ :=
      (List.eq_nil_or_concat' piece).resolve_left last.singleton.ne_nil
    rw [← List.append_assoc, List.getLast?_concat, List.getLast?_concat,
      Option.some_inj, Option.some_inj]
    constructor
    · rintro rfl
      exact (last.singleton.eq_of_mem marked (by simp)).symm
    · rintro rfl
      have alone := last.singleton.eq_of_plain (isPlain_of_isMark marked)
      have same := congrArg List.getLast? alone
      rw [List.getLast?_concat] at same
      exact Option.some_inj.mp same

theorem map_toLower (lowers : Lowers isSpace chars lowered)
    (small : ∀ char ∈ chars, char.toNat < 128) :
    lowered.map Char.toLower = chars.map Char.toLower := by
  induction lowers with
  | nil => rfl
  | cons head tail induction =>
      obtain ⟨first, rest⟩ := List.forall_mem_cons.mp small
      obtain ⟨other, rfl, cased, -⟩ := head.ascii first
      rw [List.map_append, induction rest, List.map_singleton, cased]
      rfl

/-- An ASCII character at the end comes from one that differs in case only. -/
theorem of_append_singleton {front : List Char} {last : Char}
    (lowers : Lowers isSpace chars (front ++ [last]))
    (small : last.toNat < 128) (other : last ≠ 'k') :
    ∃ before char, chars = before ++ [char] ∧
      char.toLower = last.toLower ∧ Lowers isSpace before front := by
  rcases List.eq_nil_or_concat' chars with rfl | ⟨before, char, rfl⟩
  · generalize split : front ++ [last] = lowered at lowers
    cases lowers
    simp at split
  · obtain ⟨first, piece, split, early, late⟩ := lowers.append
    obtain ⟨init, final, rfl⟩ :=
      (List.eq_nil_or_concat' piece).resolve_left late.singleton.ne_nil
    rw [← List.append_assoc] at split
    obtain ⟨rfl, same⟩ := List.append_inj' split rfl
    obtain rfl := List.singleton_inj.mp same
    obtain ⟨rfl, cased⟩ := late.singleton.of_append_singleton small other
    rw [List.append_nil]
    exact ⟨before, char, rfl, cased, early⟩

/-- An ASCII text without a `k` at the end comes from one that differs in case
only. -/
theorem of_append {front tail : List Char}
    (lowers : Lowers isSpace chars (front ++ tail))
    (small : ∀ char ∈ tail, char.toNat < 128) (other : 'k' ∉ tail) :
    ∃ before after, chars = before ++ after ∧
      after.map Char.toLower = tail.map Char.toLower ∧
      Lowers isSpace before front := by
  induction tail using List.reverseRecOn generalizing chars with
  | nil => exact ⟨chars, [], by simp, rfl, by rwa [List.append_nil] at lowers⟩
  | append_singleton tail last induction =>
      rw [← List.append_assoc] at lowers
      obtain ⟨before, char, rfl, cased, early⟩ :=
        lowers.of_append_singleton (small last (by simp))
          (fun same => other (by simp [same]))
      obtain ⟨first, after, rfl, same, early⟩ := induction early
        (fun char member => small char (by simp [member]))
        (fun member => other (by simp [member]))
      refine ⟨first, after ++ [char], by simp, ?_, early⟩
      rw [List.map_append, List.map_append, same, List.map_singleton,
        List.map_singleton, cased]

end Lowers

def asciiLower (text : String) : String :=
  String.ofList (text.toList.map Char.toLower)

theorem lowersTo_toLower (char : Char) :
    LowersTo isSpace char [char.toLower] := by
  cases upper : char.isUpper with
  | true => exact .upper upper
  | false =>
      rw [toLower_of_not_isUpper upper]
      cases foreign : isForeign isSpace char with
      | true => exact @LowersTo.foreign _ char char [] foreign (by simp) foreign
      | false =>
          refine .plain ?_
          simp only [isForeign, Bool.and_eq_false_iff, decide_eq_false_iff_not,
            Nat.not_le, Bool.not_eq_false'] at foreign
          simp only [isPlain, upper, Bool.not_false, Bool.true_and,
            Bool.or_eq_true, decide_eq_true_eq]
          exact foreign

theorem lowers_map_toLower (chars : List Char) :
    Lowers isSpace chars (chars.map Char.toLower) := by
  induction chars with
  | nil => exact .nil
  | cons char chars induction => exact .cons (lowersTo_toLower char) induction

variable (isSpace) in
theorem asciiLower_lowerCase : LowerCase isSpace asciiLower where
  lowers text := by
    rw [asciiLower, String.toList_ofList]
    exact lowers_map_toLower text.toList
  lowered text := by
    unfold asciiLower
    rw [String.toList_ofList, List.map_map]
    congr 1
    apply List.map_congr_left
    intro char _
    exact toLower_toLower char

end LetterCase
