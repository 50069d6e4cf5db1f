import Registrar.Common.Environment

/-!
# Wiki links

The links of a Markdown text: `[[slug]]` and `[[slug|display]]` outside fenced
code blocks and inline code.  Positions count characters from the start.
-/

namespace Registrar

/-- All matches of a pattern from left to right, none of which overlap.  The
pattern sees the character before and the text from its position on; a match
is its length and what was captured.  `skip` characters belong to the last
match. -/
def allMatches {Capture : Type}
    (matchAt : Option Char → List Char → Option (Nat × Capture)) :
    Nat → Nat → Option Char → List Char → List ((Nat × Nat) × Capture)
  | _, _, _, [] => []
  | skip + 1, position, _, char :: rest =>
      allMatches matchAt skip (position + 1) (some char) rest
  | 0, position, before, char :: rest =>
      match matchAt before (char :: rest) with
      | some (length, capture) =>
          ((position, position + length), capture) ::
            allMatches matchAt (length - 1) (position + 1) (some char) rest
      | none => allMatches matchAt 0 (position + 1) (some char) rest

def isLineBreak (char : Char) : Bool :=
  char = '\n' || char = '\r' || char = '\u2028' || char = '\u2029'

def atLineStart (before : Option Char) : Bool :=
  before.all isLineBreak

/-- The most white space after which the line ends. -/
def spacesToLineEnd : List Char → Option Nat
  | [] => some 0
  | char :: rest =>
      if isTrimmedSpace char then
        match spacesToLineEnd rest with
        | some length => some (length + 1)
        | none => if isLineBreak char then some 0 else none
      else none

/-- How far the first line reaches that closes a block with this fence. -/
def closingFence (fence : List Char) : Option Char → List Char → Option Nat
  | _, [] => none
  | before, char :: rest =>
      let closes :=
        if atLineStart before && fence.isPrefixOf (char :: rest) then
          (spacesToLineEnd ((char :: rest).drop fence.length)).map
            (fence.length + ·)
        else none
      closes.or ((closingFence fence (some char) rest).map (· + 1))

/-- The block that the first characters of the text open, if they are a fence
of this many marks. -/
def fencedBlock (mark : Char) (chars : List Char) (marks : Nat) : Option Nat :=
  let opening := (chars.takeWhile (· ≠ '\n')).length + 1
  if chars.contains '\n' then
    (closingFence (List.replicate marks mark) (some '\n')
      (chars.drop opening)).map (opening + ·)
  else none

/-- A fenced block starts at a line with three or more marks; it is closed by
as many as possible of them. -/
def fencedAt (before : Option Char) (chars : List Char) :
    Option (Nat × PUnit) :=
  match chars with
  | [] => none
  | mark :: _ =>
      if atLineStart before && (mark = '\x60' || mark = '~') then
        let marks := (chars.takeWhile (· = mark)).length
        let counts := (List.range' 3 (marks - 2)).reverse
        (counts.findSome? (fencedBlock mark chars)).map fun length =>
          (length, ⟨⟩)
      else none

/-- Inline code is one line between two back ticks. -/
def inlineCodeAt (_ : Option Char) : List Char → Option (Nat × PUnit)
  | '\x60' :: rest =>
      let code := rest.takeWhile fun char => char ≠ '\x60' && char ≠ '\n'
      if code ≠ [] && (rest.drop code.length).head? = some '\x60' then
        some (code.length + 2, ⟨⟩)
      else none
  | _ => none

def isInsideCodeRange (range : Nat × Nat) (ranges : List (Nat × Nat)) : Bool :=
  ranges.any fun code => code.1 ≤ range.1 && range.2 ≤ code.2

def findCodeRanges (content : List Char) : List (Nat × Nat) :=
  let fenced := (allMatches fencedAt 0 0 none content).map Prod.fst
  let inlineCode := (allMatches inlineCodeAt 0 0 none content).map Prod.fst
  inlineCode.foldl
    (fun ranges range =>
      if isInsideCodeRange range ranges then ranges else ranges ++ [range])
    fenced

def isSlugChar (char : Char) : Bool :=
  char ≠ '[' && char ≠ ']' && char ≠ '|'

def isDisplayChar (char : Char) : Bool :=
  char ≠ '[' && char ≠ ']'

/-- A link: its length and its slug. -/
def wikiLinkAt (_ : Option Char) : List Char → Option (Nat × List Char)
  | '[' :: '[' :: rest =>
      let slug := rest.takeWhile isSlugChar
      if slug = [] then none
      else
        match rest.drop slug.length with
        | ']' :: ']' :: _ => some (slug.length + 4, slug)
        | '|' :: more =>
            let display := more.takeWhile isDisplayChar
            match more.drop display.length with
            | ']' :: ']' :: _ =>
                some (slug.length + display.length + 5, slug)
            | _ => none
        | _ => none
  | _ => none

def extractWikiLinks (content : String) : List WikiLink :=
  let codeRanges := findCodeRanges content.toList
  ((allMatches wikiLinkAt 0 0 none content.toList).filter fun link =>
    !isInsideCodeRange link.1 codeRanges).map fun link =>
      { slug := trim (String.ofList link.2) }

end Registrar
