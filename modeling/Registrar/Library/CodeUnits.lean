import Mathlib.Algebra.GroupWithZero.Nat
import Mathlib.Order.Fin.Basic
import Registrar.Library.Captures
import Registrar.Library.CharPattern

/-!
# Texts of UTF-16 units

A JavaScript string as its UTF-16 units, which regular expressions without the
flag `u` match one by one.
-/

abbrev CodeUnit := Fin 65536

namespace CodeUnit

-- What a literal rests on, under one name for every module.
instance neZero : NeZero 65536 := ⟨by decide⟩

def ofNat (code : Nat) : CodeUnit := Fin.ofNat 65536 code

def ofChar (char : Char) : CodeUnit := ofNat char.toNat

/-- The units of the character with this code. -/
def encode (code : Nat) : List CodeUnit :=
  if code < 0x10000 then [ofNat code]
  else
    [ofNat (0xd800 + (code - 0x10000) / 0x400),
      ofNat (0xdc00 + (code - 0x10000) % 0x400)]

def units (text : String) : List CodeUnit :=
  text.toList.flatMap fun char => encode char.toNat

def replacement : CodeUnit := ofNat 0xfffd

end CodeUnit

/-- A class as the ranges that it has, or those that it leaves out. -/
inductive UnitClass where
  | within (ranges : CharClass)
  | outside (ranges : CharClass)
  deriving DecidableEq, Repr

namespace UnitClass

def hasUnit (ranges : CharClass) (unit : CodeUnit) : Bool :=
  ranges.any fun range =>
    range.1.toNat ≤ unit.val && unit.val ≤ range.2.toNat

def accepts : UnitClass → CodeUnit → Bool
  | within ranges, unit => hasUnit ranges unit
  | outside ranges, unit => !hasUnit ranges unit

def lowerLetter : CharClass := [('a', 'z')]

def upperLetter : CharClass := [('A', 'Z')]

def letter : CharClass := upperLetter ++ lowerLetter

end UnitClass

def isSpaceUnit (unit : CodeUnit) : Bool :=
  UnitClass.hasUnit .space unit

/-- The units between which `\b` sees no boundary. -/
def isWordUnit (unit : CodeUnit) : Bool :=
  UnitClass.hasUnit (.alphanumeric ++ [('_', '_')]) unit

abbrev UnitPattern := Regex UnitClass

namespace UnitPattern

/-- The text itself. -/
def literal (text : String) : UnitPattern :=
  .sequence (text.toList.map fun char => .symbol (.within [(char, char)]))

/-- The text in any case, as under the flag `i`. -/
def word (text : String) : UnitPattern :=
  .sequence
    (text.toList.map fun char =>
      .symbol
        (.within [(char.toLower, char.toLower), (char.toUpper, char.toUpper)]))

def oneOf (text : String) : UnitPattern :=
  .symbol (.within (.ofText text))

def digits (least most : Nat) : UnitPattern :=
  .run (.within .digit) least (some most)

def spaces : UnitPattern := .run (.within .space) 0 none

def someSpaces : UnitPattern := .run (.within .space) 1 none

def someOf (ranges : CharClass) (least : Nat) : UnitPattern :=
  .run (.within ranges) least none

def noneOf (ranges : CharClass) (least : Nat) : UnitPattern :=
  .run (.outside ranges) least none

/-- The pattern matches somewhere in the text. -/
def tests (pattern : UnitPattern) (text : List CodeUnit) : Bool :=
  Regex.test UnitClass.accepts isWordUnit pattern text

/-- The pattern matches at the beginning of the text. -/
def testsStart (pattern : UnitPattern) (text : List CodeUnit) : Bool :=
  !(pattern.ends UnitClass.accepts isWordUnit ⟨[], text⟩).isEmpty

/-- The pattern matches at the end of the text. -/
def testsEnd (pattern : UnitPattern) (text : List CodeUnit) : Bool :=
  (Regex.positions [] text).any fun position =>
    (pattern.ends UnitClass.accepts isWordUnit position).any fun final =>
      final.after.isEmpty

/-- The pattern matches a part of the text with no symbol of the class beside
it. -/
def testsApart (pattern : UnitPattern) (ranges : CharClass)
    (text : List CodeUnit) : Bool :=
  (Regex.positions [] text).any fun position =>
    !position.before.head?.any (UnitClass.hasUnit ranges) &&
      (pattern.ends UnitClass.accepts isWordUnit position).any fun final =>
        !final.after.head?.any (UnitClass.hasUnit ranges)

end UnitPattern

abbrev UnitMatch := Regex.GroupMatch CodeUnit

/-- An expression with groups, over units. -/
abbrev UnitExpression := List (Regex.Part UnitClass)

namespace UnitExpression

def ofPattern (pattern : UnitPattern) : UnitExpression :=
  [.plain pattern]

def matchAt (expression : UnitExpression)
    (position : Regex.Position CodeUnit) : Option UnitMatch :=
  Regex.matchAt UnitClass.accepts isWordUnit expression position

/-- Every match of the text, as `matchAll` gives them. -/
def matchAll (expression : UnitExpression) (text : List CodeUnit) :
    List UnitMatch :=
  Leftmost.all
    (fun position =>
      (expression.matchAt position).map fun found =>
        (found, found.text.length))
    text

end UnitExpression
