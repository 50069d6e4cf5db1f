import Registrar.Library.ByteTexts
import Registrar.Runtime.SourceContext

/-!
# The secret scanner

`scanForSecrets` goes through the lines of a text, through the views without its
line breaks, and through what its base64 and hexadecimal parts spell.
-/

namespace Registrar

namespace SecretScanner

structure SecretMatch where
  patternId : String
  patternName : String
  line : Nat
  column : Nat
  matchLength : Nat
  deriving DecidableEq, Repr

def collapsedScanMaxChars : Nat := 512 * 1024

def minEncodedCandidateLen : Nat := 24

def maxEncodedCandidateLen : Nat := 8 * 1024

def maxEncodedCandidates : Nat := 64

def maxTotalDecodedBytes : Nat := 256 * 1024

/-- Try the pattern at a position; a match that does not count is passed over,
or only its first unit where the source is the reason. -/
def attempt (pattern : SecretPattern) (acceptSource : UnitMatch → Bool)
    (position : Regex.Position CodeUnit) : UnitMatch ⊕ Nat :=
  match pattern.regex.matchAt position with
  | none => .inr 0
  | some found =>
      if !acceptSource found then .inr 0
      else if pattern.accept.all fun accept => accept found.groups then
        .inl found
      else .inr (found.text.length - 1)

/-- The first match that counts on its value. -/
def firstCountedMatch (pattern : SecretPattern) (text : List CodeUnit)
    (acceptSource : UnitMatch → Bool) : Option UnitMatch :=
  Leftmost.search (attempt pattern acceptSource) text

def anySource (_ : UnitMatch) : Bool := true

def execWithContext (pattern : SecretPattern) (text : List CodeUnit)
    (contextText : List CodeUnit)
    (acceptSource : Option (UnitMatch → Bool)) : Option UnitMatch :=
  match firstCountedMatch pattern text (acceptSource.getD anySource) with
  | none => none
  | some found =>
      match pattern.requiresContext with
      | none => some found
      | some gate =>
          if pattern.requiresSourceContext && acceptSource.isSome then
            some found
          else if gate contextText then some found else none

/-- The matches that the patterns have in one text. -/
def scanFlat (text : List CodeUnit) (patterns : List SecretPattern)
    (locate : UnitMatch → SecretPattern → SourceContext.Location)
    (nameOf : String → String) (contextText : List CodeUnit)
    (acceptSource : Option (SecretPattern → UnitMatch → Bool)) :
    List SecretMatch :=
  patterns.filterMap fun pattern =>
    (execWithContext pattern text contextText
      (acceptSource.map fun accept => accept pattern)).map fun found =>
        { patternId := nameOf pattern.id
          patternName := pattern.name
          line := (locate found pattern).line
          column := (locate found pattern).column
          matchLength := found.text.length }

def firstLocation : SourceContext.Location :=
  { line := 1
    column := 1 }

/-- The first and the last source offset of a match in a view. -/
def sourceSpan (offsets : List Nat) (found : UnitMatch) : Option (Nat × Nat) := do
  let start ← offsets[found.index]?
  let final ← offsets[found.index + found.text.length - 1]?
  return (start, final)

def acceptedContext (context : SourceContext) (offsets : List Nat)
    (pattern : SecretPattern) (found : UnitMatch) : Bool :=
  !pattern.requiresSourceContext ||
    (sourceSpan offsets found).any fun span =>
      context.allows pattern span.1 (span.2 + 1)

def sourceLocation (context : SourceContext) (offsets : List Nat)
    (found : UnitMatch) (pattern : SecretPattern) : SourceContext.Location :=
  match pattern.requiresSourceContext, offsets[found.index]? with
  | true, some offset => context.locate offset
  | _, _ => firstLocation

/-- A match without spaces is a token of the source, or begins one. -/
def sourceToken (content : List CodeUnit) (offsets : List Nat)
    (pattern : SecretPattern) (found : UnitMatch) : Bool :=
  !pattern.requiresSourceToken ||
    match sourceSpan offsets found with
    | none => false
    | some (start, final) =>
        let source :=
          joinLineWraps (SourceContext.slice content start (final + 1))
        (firstCountedMatch pattern source anySource).any (·.index = 0) ||
          start = 0 ||
            !(content[start - 1]?).any (UnitClass.hasUnit UnitClass.letter)

def scanNewlineCollapsed (content : List CodeUnit)
    (patterns : List SecretPattern) (alreadyFired : List String)
    (context : SourceContext) : List SecretMatch :=
  if collapsedScanMaxChars < content.length then []
  else
    let remaining := patterns.filter fun pattern =>
      !alreadyFired.contains pattern.id
    let singleSpace := mappedWhitespace content true
    let onSpaces := scanFlat singleSpace.text remaining
      (sourceLocation context singleSpace.offsets) id singleSpace.text
      (some (acceptedContext context singleSpace.offsets))
    let wrapOnly := remaining.filter fun pattern =>
      pattern.lineWrapOnly && !pattern.skipWhitespaceStrippedView &&
        !(onSpaces.map SecretMatch.patternId).contains pattern.id
    let wrapped := joinLineWraps content
    let onWraps := scanFlat wrapped wrapOnly (fun _ _ => firstLocation) id
      wrapped none
    let stillUnmatched := remaining.filter fun pattern =>
      !pattern.skipWhitespaceStrippedView && !pattern.lineWrapOnly &&
        !((onSpaces ++ onWraps).map SecretMatch.patternId).contains pattern.id
    let stripped := mappedWhitespace content false
    let onStripped := scanFlat stripped.text stillUnmatched
      (sourceLocation context stripped.offsets) id stripped.text
      (some fun pattern found =>
        acceptedContext context stripped.offsets pattern found &&
          sourceToken content stripped.offsets pattern found)
    onSpaces ++ onWraps ++ onStripped

inductive Encoding where
  | base64
  | hex
  deriving DecidableEq, Repr

def Encoding.text : Encoding → String
  | base64 => "base64-wrapped"
  | hex => "hex-wrapped"

/-- The regular expressions of the encoded parts. -/
def Encoding.candidate : Encoding → UnitExpression
  | base64 =>
      .ofPattern
        (.sequence
          [UnitPattern.someOf (base64Chars ++ .ofText "_-") 24,
            .run (.within (.ofText "=")) 0 (some 2)])
  | hex =>
      .ofPattern
        (UnitPattern.someOf (.digit ++ [('A', 'F'), ('a', 'f')]) 24)

def isPrintable (unit : CodeUnit) : Bool :=
  (0x20 ≤ unit.val && unit.val ≤ 0x7e) || unit.val = 0x09 || unit.val = 0x0a ||
    unit.val = 0x0d

/-- At least nine of ten units are printable. -/
def isMostlyPrintable (text : List CodeUnit) : Bool :=
  !text.isEmpty && 9 * text.length ≤ 10 * text.countP isPrintable

/-- The standard alphabet for that of URLs. -/
def standardUnit (unit : CodeUnit) : CodeUnit :=
  if unit = CodeUnit.ofChar '-' then CodeUnit.ofChar '+'
  else if unit = CodeUnit.ofChar '_' then CodeUnit.ofChar '/'
  else unit

def printableText (bytes : List Nat) : Option (List CodeUnit) :=
  let text := ByteTexts.utf8Text bytes
  if bytes.isEmpty || !isMostlyPrintable text then none else some text

-- The padding that the source puts back adds no byte.
def decodeBase64 (candidate : List CodeUnit) : Option (List CodeUnit) :=
  let normalized :=
    (candidate.map standardUnit).rdropWhile (· = CodeUnit.ofChar '=')
  if normalized.length % 4 = 1 then none
  else printableText (ByteTexts.base64Bytes normalized)

def decodeHex (candidate : List CodeUnit) : Option (List CodeUnit) :=
  let bytes := ByteTexts.hexBytes candidate
  if bytes.length * 2 ≠ candidate.length then none else printableText bytes

def Encoding.decode : Encoding → List CodeUnit → Option (List CodeUnit)
  | base64 => decodeBase64
  | hex => decodeHex

structure Decoded where
  raw : List CodeUnit
  text : List CodeUnit
  encoding : Encoding
  deriving DecidableEq, Repr

/-- What the scan of the encoded parts has done so far. -/
structure EncodedScan where
  decodedBytes : Nat
  cache : List Decoded
  seenWrapped : List (List CodeUnit)
  found : List SecretMatch
  deriving DecidableEq, Repr

def EncodedScan.initial : EncodedScan :=
  { decodedBytes := 0
    cache := []
    seenWrapped := []
    found := [] }

/-- Every decoded candidate is kept, so the cache counts them. -/
def EncodedScan.isFull (scan : EncodedScan) : Bool :=
  maxEncodedCandidates ≤ scan.cache.length ||
    maxTotalDecodedBytes ≤ scan.decodedBytes

def EncodedScan.decode? (scan : EncodedScan) (encoding : Encoding)
    (raw : List CodeUnit) : Option (Decoded × Bool) :=
  match scan.cache.find? fun decoded => decoded.raw = raw with
  | some cached => if cached.encoding = encoding then some (cached, true) else none
  | none => do
      let text ← encoding.decode raw
      if text.isEmpty then none
      else some ({ raw := raw, text := text, encoding := encoding }, false)

/-- The line and the column at which a part of the text starts. -/
def legacyLocation (content : List CodeUnit) (index : Nat) :
    SourceContext.Location :=
  let before := content.take index
  { line := before.count lineFeed + 1
    column := max 1 (before.rtakeWhile (· ≠ lineFeed)).length.succ }

section Candidates

variable (content : List CodeUnit) (patterns : List SecretPattern)
  (context : SourceContext)

def occurrencePatterns : List SecretPattern :=
  patterns.filter SecretPattern.requiresSourceContext

/-- Where a match of an encoded part is told to be. -/
def wrappedLocation (index : Nat) (pattern : SecretPattern) :
    SourceContext.Location :=
  if pattern.requiresSourceContext then context.locate index
  else legacyLocation content index

def wrappedMatches (candidate : UnitMatch) (decoded : Decoded)
    (again : Bool) : List SecretMatch :=
  scanFlat decoded.text (if again then occurrencePatterns patterns else patterns)
    (fun _ pattern => wrappedLocation content context candidate.index pattern)
    (fun patternId => decoded.encoding.text ++ ":" ++ patternId) content
    (some fun pattern found =>
      !pattern.requiresSourceContext ||
        context.allows pattern candidate.index
          (candidate.index + candidate.text.length) ||
        (SourceContext.ofContent decoded.text).allows pattern found.index
          (found.index + found.text.length))

def tryDecode (encoding : Encoding) (scan : EncodedScan)
    (candidate : UnitMatch) : EncodedScan :=
  let raw := candidate.text
  if scan.isFull || raw.length < minEncodedCandidateLen ||
      maxEncodedCandidateLen < raw.length then scan
  else
    match scan.decode? encoding raw with
    | none => scan
    | some (decoded, cached) =>
        { decodedBytes :=
            if cached then scan.decodedBytes
            else scan.decodedBytes + decoded.text.length
          cache := if cached then scan.cache else scan.cache ++ [decoded]
          seenWrapped := scan.seenWrapped ++ [raw]
          found := scan.found ++
            wrappedMatches content patterns context candidate decoded
              (scan.seenWrapped.contains raw) }

/-- A candidate of the encoding's expression, unless it has nothing new. -/
def visitCandidate (encoding : Encoding) (scan : EncodedScan)
    (candidate : UnitMatch) : EncodedScan :=
  if (scan.seenWrapped.contains candidate.text &&
        (occurrencePatterns patterns).isEmpty) ||
      (encoding = .hex && candidate.text.length % 2 ≠ 0) then scan
  else tryDecode content patterns context encoding scan candidate

def visitCandidates (encoding : Encoding) (scan : EncodedScan) : EncodedScan :=
  (encoding.candidate.matchAll content).foldl
    (visitCandidate content patterns context encoding) scan

def scanEncodedWrapped : List SecretMatch :=
  (visitCandidates content patterns context .hex
    (visitCandidates content patterns context .base64 .initial)).found

end Candidates

def lineLocation (context : SourceContext) (lineIdx lineStart : Nat)
    (found : UnitMatch) (pattern : SecretPattern) : SourceContext.Location :=
  if pattern.requiresSourceContext then
    context.locate (lineStart + found.index)
  else
    { line := lineIdx + 1
      column := found.index + 1 }

/-- The matches of one line. -/
def scanLine (patterns : List SecretPattern) (context : SourceContext)
    (lineIdx lineStart : Nat) (line : List CodeUnit) : List SecretMatch :=
  patterns.flatMap fun pattern =>
    scanFlat line [pattern] (lineLocation context lineIdx lineStart) id line
      (if pattern.requiresSourceContext then
        some fun _ found =>
          context.allows pattern (lineStart + found.index)
            (lineStart + found.index + found.text.length)
      else none)

def scanLines (patterns : List SecretPattern) (context : SourceContext) :
    Nat → Nat → List (List CodeUnit) → List SecretMatch
  | _, _, [] => []
  | lineIdx, lineStart, line :: rest =>
      scanLine patterns context lineIdx lineStart line ++
        scanLines patterns context (lineIdx + 1) (lineStart + line.length + 1)
          rest

def scanForSecrets (content : List CodeUnit)
    (patterns : List SecretPattern) : List SecretMatch :=
  let context := SourceContext.ofContent content
  let onLines := scanLines patterns context 0 0 (content.splitOn lineFeed)
  let onViews :=
    if content.any isLineSeparator then
      scanNewlineCollapsed content patterns
        (onLines.map SecretMatch.patternId) context
    else []
  onLines ++ onViews ++ scanEncodedWrapped content patterns context

end SecretScanner

end Registrar
