import Registrar.Runtime.SecretPatterns

/-!
# Source contexts

The lines of a text with the context that they give to a match, and the views of
a text without its line breaks.
-/

namespace Registrar

namespace SecretScanner

open UnitPattern (literal word oneOf someOf)

def lineFeed : CodeUnit := CodeUnit.ofChar '\n'

def carriageReturn : CodeUnit := CodeUnit.ofChar '\r'

/-- The class `[\r\n\u2028\u2029]`. -/
def isLineSeparator (unit : CodeUnit) : Bool :=
  unit = carriageReturn || unit = lineFeed || unit.val = 0x2028 ||
    unit.val = 0x2029

structure SourceLine where
  start : Nat
  finish : Nat
  deriving DecidableEq, Repr

/-- The lines of a text of which the first one began at an offset. -/
def linesFrom (start offset : Nat) : List CodeUnit → List SourceLine
  | [] => [{ start := start, finish := offset }]
  | [unit] =>
      if isLineSeparator unit then
        [{ start := start, finish := offset },
          { start := offset + 1, finish := offset + 1 }]
      else [{ start := start, finish := offset + 1 }]
  | first :: second :: rest =>
      if first = carriageReturn ∧ second = lineFeed then
        { start := start, finish := offset } ::
          linesFrom (offset + 2) (offset + 2) rest
      else if isLineSeparator first then
        { start := start, finish := offset } ::
          linesFrom (offset + 1) (offset + 1) (second :: rest)
      else linesFrom start (offset + 1) (second :: rest)

structure SourceContext where
  content : List CodeUnit
  lines : List SourceLine

namespace SourceContext

def ofContent (content : List CodeUnit) : SourceContext :=
  { content := content
    lines := linesFrom 0 0 content }

/-- The last line that starts at or before the offset. -/
def lineAt (context : SourceContext) (offset : Nat) : Nat :=
  (context.lines.takeWhile fun line => line.start ≤ offset).length - 1

def startOf (context : SourceContext) (line : Nat) : Nat :=
  (context.lines[line]?.map SourceLine.start).getD 0

def finishOf (context : SourceContext) (line : Nat) : Nat :=
  (context.lines[line]?.map SourceLine.finish).getD 0

def slice (text : List CodeUnit) (start finish : Nat) : List CodeUnit :=
  (text.drop start).take (finish - start)

structure Location where
  line : Nat
  column : Nat
  deriving DecidableEq, Repr

def locate (context : SourceContext) (offset : Nat) : Location :=
  { line := context.lineAt offset + 1
    column := offset - context.startOf (context.lineAt offset) + 1 }

def hasContext (context : SourceContext) (gate : List CodeUnit → Bool)
    (line : Nat) : Bool :=
  gate (slice context.content (context.startOf line) (context.finishOf line))

def labelEnd : UnitPattern :=
  .sequence
    [.choice (oneOf ":=")
      [.sequence [.boundary, word "set", .run (.within .space) 1 none,
        word "to"],
        .sequence [.boundary, word "is"], .sequence [.boundary, word "was"],
        .sequence
          [.boundary,
            .choice (word "key")
              [word "token", word "secret", word "credential",
                word "bearer"]],
        word "HEROKU_API_KEY"],
      someOf (.space ++ .ofText "`\"'") 0]

def credentialLabel : UnitPattern :=
  .choice
    (.sequence [word "api", .optional (oneOf "-_ "), word "key"])
    [word "key", word "token", word "secret", word "credential",
      word "bearer", word "password"]

def labelContextMaxCodeUnits : Nat := 256

/-- The line before ends as the label of what follows. -/
def isLabel (context : SourceContext) (gate : List CodeUnit → Bool)
    (line : Nat) : Bool :=
  let start := max (context.startOf line)
    (context.finishOf line - labelContextMaxCodeUnits)
  let clipped := context.startOf line < start
  let contextText := slice context.content
    (if clipped then start - 1 else start) (context.finishOf line)
  let labelText :=
    if clipped then CodeUnit.ofChar '0' :: contextText else contextText
  credentialLabel.testsApart .alphanumeric labelText &&
    labelEnd.testsEnd contextText && gate contextText

/-- The part of the source has the context that a rule asks for. -/
def allows (context : SourceContext) (pattern : SecretPattern)
    (start finish : Nat) : Bool :=
  match pattern.requiresContext with
  | none => true
  | some gate =>
      let first := context.lineAt start
      let last := context.lineAt (max start (finish - 1))
      (List.range (last + 1 - first)).any
          (fun ahead => context.hasContext gate (first + ahead)) ||
        (first ≠ 0 && context.isLabel gate (first - 1))

end SourceContext

/-- The text with every run of spaces put as one space, or left out, with the
offsets of what remains. -/
def mappedFrom (keepSpace : Bool) (offset : Nat) (inSpace : Bool) :
    List CodeUnit → List (CodeUnit × Nat)
  | [] => []
  | unit :: rest =>
      if isSpaceUnit unit then
        (if keepSpace && !inSpace then [(CodeUnit.ofChar ' ', offset)]
          else []) ++ mappedFrom keepSpace (offset + 1) true rest
      else (unit, offset) :: mappedFrom keepSpace (offset + 1) false rest

structure MappedText where
  text : List CodeUnit
  offsets : List Nat
  deriving DecidableEq, Repr

def mappedWhitespace (content : List CodeUnit) (keepSpace : Bool) :
    MappedText :=
  let mapped := mappedFrom keepSpace 0 false content
  { text := mapped.map Prod.fst
    offsets := mapped.map Prod.snd }

/-- The run of spaces, unless it breaks a line. -/
def keptSpaces (spaces : List CodeUnit) : List CodeUnit :=
  if spaces.any isLineSeparator then [] else spaces

def joinFrom (spaces : List CodeUnit) : List CodeUnit → List CodeUnit
  | [] => keptSpaces spaces
  | unit :: rest =>
      if isSpaceUnit unit then joinFrom (spaces ++ [unit]) rest
      else keptSpaces spaces ++ unit :: joinFrom [] rest

def joinLineWraps (text : List CodeUnit) : List CodeUnit :=
  joinFrom [] text

end SecretScanner

end Registrar
