import Registrar.Common.Environment
import Registrar.Library.CharPattern
import Registrar.Library.PercentCoding

/-!
# The disclosure filter

Texts are lists of characters here.  No pattern accepts a character outside the
basic plane, so characters and UTF-16 units are matched alike.  NFKC
normalization is a parameter that may throw.
-/

namespace Registrar

def compensationTermsPattern : Pattern :=
  .choice (.whole (.word "salary"))
    [.sequence [.word "base pay", .boundary],
      .sequence
        [.word "take", .dashOrSpace, .word "home pay", .boundary],
      .sequence
        [.choice (.word "launch")
          [.word "signing", .sequence [.word "sign", .dashOrSpace, .word "on"]],
          .word " bonus"],
      .sequence
        [.word "equity", .someSpaces,
          .choice (.sequence [.word "stake", .optional (.word "s")])
            [.sequence [.word "grant", .optional (.word "s")],
              .word "granted",
              .sequence [.word "option", .optional (.word "s")]],
          .boundary],
      .sequence [.word "equity", .someSpaces, .symbol .digit],
      .whole (.word "vesting"),
      .whole (.sequence [.word "RSU", .optional (.word "s")]),
      .sequence
        [.word "stock option", .optional (.word "s"), .boundary],
      .sequence
        [.word "revenue", .dashOrSpace, .word "share", .spaces,
          .symbol .digit],
      .sequence [.literal "7", .dashOrSpace, .word "bucket"]]

def ratioSplitPattern : Pattern :=
  .choice
    (.sequence
      [.digits 1 3, .spaces, .literal "/", .spaces, .digits 1 3, .spaces,
        .choice (.word "split") [.word "share"]])
    [.sequence
      [.digits 1 2, .spaces, .literal "/", .spaces, .digits 1 2, .spaces,
        .choice (.word "max") [.literal "→", .literal "->"], .spaces,
        .digits 1 2, .spaces, .literal "/", .spaces, .digits 1 2]]

def compContextPattern : Pattern :=
  .choice
    (.whole
      (.choice (.word "compensation")
        (["comp", "revenue", "profit", "equity", "payout", "royalty", "salary",
          "wage", "bonus", "earnings"].map .word)))
    [.sequence [.word "take", .dashOrSpace, .word "home"]]

def piiPattern : Pattern :=
  .choice
    (.sequence
      [.digits 3 3, .literal "-", .digits 2 2, .literal "-", .digits 4 4])
    [.whole (.word "SSN"),
      .sequence
        [.word "social security ", .choice (.word "number") [.word "no"]],
      .sequence
        [.word "background", .dashOrSpace, .word "check ",
          .choice (.word "result")
            [.word "report", .word "passed", .word "failed"]],
      .word "date of birth",
      .sequence [.whole (.word "DOB"), .spaces, .oneOf ":="]]

def secretPatterns : List Pattern :=
  [.whole
      (.sequence
        [.choice (.literal "AKIA") [.literal "ASIA"],
          .run [('0', '9'), ('A', 'Z')] 16 (some 16)]),
    .whole
      (.sequence
        [.literal "gh", .oneOf "pousr", .literal "_",
          .run .alphanumeric 36 (some 255)]),
    .whole (.sequence [.literal "glpat-", .run .token 20 (some 22)]),
    .whole
      (.sequence
        [.literal "xox", .oneOf "baprs", .literal "-",
          .run (.alphanumeric ++ [('-', '-')]) 10 (some 72)]),
    .whole
      (.sequence
        [.choice (.literal "sk") [.literal "rk"], .literal "_",
          .choice (.literal "live") [.literal "test"], .literal "_",
          .run .alphanumeric 16 (some 99)]),
    .whole (.sequence [.literal "AIza", .run .token 35 (some 35)]),
    .whole
      (.sequence
        [.literal "sk-", .optional (.literal "ant-"),
          .run .token 20 (some 200)]),
    .whole (.sequence [.literal "npm_", .run .alphanumeric 36 (some 36)]),
    .whole
      (.sequence
        [.literal "SG.", .run .token 16 (some 32), .literal ".",
          .run .token 16 (some 64)]),
    .whole
      (.sequence
        [.literal "eyJ", .run .token 10 none, .literal ".eyJ",
          .run .token 10 none, .literal ".", .run .token 10 none]),
    .sequence
      [.literal "-----BEGIN ",
        .optional
          (.choice (.literal "RSA ")
            [.literal "EC ", .literal "OPENSSH ", .literal "DSA ",
              .literal "PGP "]),
        .literal "PRIVATE KEY-----"]]

def invisibleChars : List Char :=
  [0x00ad, 0x061c, 0x180e, 0x200b, 0x200c, 0x200d, 0x200e, 0x200f, 0x202a,
    0x202b, 0x202c, 0x202d, 0x202e, 0x2060, 0x2061, 0x2062, 0x2063, 0x2064,
    0x2066, 0x2067, 0x2068, 0x2069, 0xfeff].map Char.ofNat

def stripInvisibles (text : List Char) : List Char :=
  text.filter fun char => !invisibleChars.contains char

def homoglyphMap : List (Char × Char) :=
  [('а', 'a'), ('е', 'e'), ('о', 'o'), ('р', 'p'), ('с', 'c'), ('у', 'y'),
    ('х', 'x'), ('ѕ', 's'), ('і', 'i'), ('ј', 'j'), ('ԁ', 'd'), ('М', 'M'),
    ('Ѕ', 'S'), ('І', 'I'), ('Ј', 'J'), ('Ԁ', 'D'), ('Т', 'T'), ('В', 'B'),
    ('Н', 'H'), ('А', 'A'), ('Е', 'E'), ('О', 'O'), ('Р', 'P'), ('С', 'C'),
    ('У', 'Y'), ('Х', 'X'), ('ο', 'o'), ('ν', 'v'), ('α', 'a'), ('ρ', 'p'),
    ('Ι', 'I'), ('Β', 'B'), ('Α', 'A'), ('Ε', 'E'), ('Ο', 'O'), ('Ρ', 'P'),
    ('Υ', 'Y'), ('Χ', 'X')]

def foldHomoglyphs (text : List Char) : List Char :=
  text.map fun char => (homoglyphMap.lookup char).getD char

/-- Decode the whole text, or keep it as it is. -/
def decodeOnce (text : List Char) : List Char :=
  if '%' ∉ text then text
  else (PercentCoding.decodeURIComponent text).getD text

/-- NFKC normalization; none when it throws. -/
abbrev Normalization := List Char → Option (List Char)

def normalizeForScan (nfkc : Normalization) (text : List Char) :
    Option (List Char) := do
  let composed ← nfkc (decodeOnce text)
  return foldHomoglyphs (stripInvisibles composed)

def scanNormalized (text : List Char) : Option DisclosureCategory :=
  if secretPatterns.any (·.tests text) then some .secret
  else if piiPattern.tests text then some .pii
  else if compensationTermsPattern.tests text then some .compensation
  else if ratioSplitPattern.tests text && compContextPattern.tests text then
    some .compensation
  else none

/-- A text that cannot be normalized is a violation. -/
def scanForDisclosure (nfkc : Normalization) (text : String) :
    Option DisclosureCategory :=
  match normalizeForScan nfkc text.toList with
  | some normalized => scanNormalized normalized
  | none => some .secret

end Registrar
