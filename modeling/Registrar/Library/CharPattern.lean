import Registrar.Library.Regex

/-!
# Patterns over characters

The classes and building blocks of regular expressions over texts, as
JavaScript reads them without the flag `u`.
-/

/-- A character class, as its ranges. -/
abbrev CharClass := List (Char × Char)

namespace CharClass

def accepts (ranges : CharClass) (char : Char) : Bool :=
  ranges.any fun range =>
    range.1.toNat ≤ char.toNat && char.toNat ≤ range.2.toNat

def ofText (text : String) : CharClass :=
  text.toList.map fun char => (char, char)

/-- The class `\s`. -/
def space : CharClass :=
  [('\t', '\r'), (' ', ' '), (Char.ofNat 0xa0, Char.ofNat 0xa0),
    (Char.ofNat 0x1680, Char.ofNat 0x1680),
    (Char.ofNat 0x2000, Char.ofNat 0x200a),
    (Char.ofNat 0x2028, Char.ofNat 0x2029),
    (Char.ofNat 0x202f, Char.ofNat 0x202f),
    (Char.ofNat 0x205f, Char.ofNat 0x205f),
    (Char.ofNat 0x3000, Char.ofNat 0x3000),
    (Char.ofNat 0xfeff, Char.ofNat 0xfeff)]

def digit : CharClass := [('0', '9')]

def alphanumeric : CharClass := [('0', '9'), ('A', 'Z'), ('a', 'z')]

/-- The class `[0-9A-Za-z_-]`. -/
def token : CharClass := alphanumeric ++ [('_', '_'), ('-', '-')]

/-- Every range of a class lies in a range of the other. -/
def Within (outer inner : CharClass) : Prop :=
  ∀ range ∈ inner, ∃ other ∈ outer,
    other.1.toNat ≤ range.1.toNat ∧ range.2.toNat ≤ other.2.toNat

instance (outer inner : CharClass) : Decidable (Within outer inner) :=
  inferInstanceAs (Decidable (∀ range ∈ inner, ∃ other ∈ outer, _))

theorem accepts_iff {ranges : CharClass} {char : Char} :
    ranges.accepts char = true ↔
      ∃ range ∈ ranges,
        range.1.toNat ≤ char.toNat ∧ char.toNat ≤ range.2.toNat := by
  simp [accepts]

theorem Within.accepts {outer inner : CharClass} (within : Within outer inner)
    {char : Char} (accepted : inner.accepts char = true) :
    outer.accepts char = true := by
  obtain ⟨range, member, above, below⟩ := accepts_iff.mp accepted
  obtain ⟨other, isOuter, lower, upper⟩ := within range member
  exact accepts_iff.mpr
    ⟨other, isOuter, Nat.le_trans lower above, Nat.le_trans below upper⟩

end CharClass

/-- The characters between which `\b` sees no boundary. -/
def isWordChar (char : Char) : Bool :=
  char.isAlphanum || char = '_'

abbrev Pattern := Regex CharClass

namespace Regex

def tests (pattern : Pattern) (text : List Char) : Bool :=
  pattern.test CharClass.accepts isWordChar text

/-- The pattern matches this part of a text. -/
def Finds (pattern : Pattern) (before span after : List Char) : Prop :=
  pattern.Spans CharClass.accepts isWordChar before span after

instance (pattern : Pattern) (before span after : List Char) :
    Decidable (pattern.Finds before span after) :=
  inferInstanceAs (Decidable (_ ∈ _))

theorem tests_iff {pattern : Pattern} {text : List Char} :
    pattern.tests text = true ↔
      ∃ before span after, text = before ++ span ++ after ∧
        pattern.Finds before span after :=
  test_iff

theorem Finds.accepts {pattern : Pattern} {before span after : List Char}
    {ranges : CharClass} (finds : pattern.Finds before span after)
    (within : pattern.All ranges.Within) :
    ∀ char ∈ span, ranges.accepts char = true := by
  have covered : pattern.All fun symbols =>
      ∀ char, CharClass.accepts symbols char = true →
        ranges.accepts char = true :=
    within.imp fun _ inside _ accepted => inside.accepts accepted
  exact Spans.over finds covered

/-- The text itself. -/
def literal (text : String) : Pattern :=
  sequence (text.toList.map fun char => symbol [(char, char)])

/-- The text in any case, as under the flag `i`. -/
def word (text : String) : Pattern :=
  sequence
    (text.toList.map fun char =>
      symbol [(char.toLower, char.toLower), (char.toUpper, char.toUpper)])

def oneOf (text : String) : Pattern :=
  symbol (CharClass.ofText text)

def spaces : Pattern := run .space 0 none

def someSpaces : Pattern := run .space 1 none

def digits (least most : Nat) : Pattern := run .digit least (some most)

def dashOrSpace : Pattern := oneOf "- "

/-- The pattern between word boundaries. -/
def whole (pattern : Pattern) : Pattern :=
  sequence [boundary, pattern, boundary]

end Regex
