import Registrar.Store.CandidateRows

/-!
# Vault files

The Markdown files of a vault and what their frontmatter says.  The parser knows
one entry a line: texts, numbers, booleans and lists of texts.
-/

namespace Registrar

structure VaultFile where
  absolutePath : String
  relativePath : String
  content : String
  deriving DecidableEq, Repr

/-- `text.split(separator)`. -/
def splitText (separator : Char) (text : String) : List String :=
  (text.toList.splitOn separator).map String.ofList

def pathSegments (path : String) : List String :=
  (splitText '/' path).filter (· ≠ "")

/-- The last component of a path. -/
def basename (path : String) : String :=
  (pathSegments path).getLast?.getD ""

/-- One component of a path that is being resolved. -/
def enterSegment (walked : List String) (segment : String) : List String :=
  if segment = "." then walked
  else if segment = ".." then walked.dropLast
  else walked ++ [segment]

/-- `resolve(path)` in the working directory `cwd`. -/
def resolvePath (cwd path : String) : String :=
  let segments :=
    if path.toList.head? = some '/' then pathSegments path
    else pathSegments cwd ++ pathSegments path
  "/" ++ String.intercalate "/" (segments.foldl enterSegment [])

/-- What follows a line end. -/
def afterLineEnd : List Char → Option (List Char)
  | '\r' :: '\n' :: rest => some rest
  | '\n' :: rest => some rest
  | _ => none

def skipChar (char : Char) : List Char → List Char
  | first :: rest => if first = char then rest else first :: rest
  | [] => []

/-- What follows a closing fence and its line end, if a fence starts here. -/
def afterFence (chars : List Char) : Option (List Char) :=
  match afterLineEnd chars with
  | some ('-' :: '-' :: '-' :: rest) =>
      some (skipChar '\n' (skipChar '\r' rest))
  | _ => none

/-- The text before the first closing fence and the text after it. -/
def splitAtFence : List Char → Option (List Char × List Char)
  | [] => none
  | first :: rest =>
      match afterFence (first :: rest) with
      | some body => some ([], body)
      | none =>
          (splitAtFence rest).map fun (yaml, body) => (first :: yaml, body)

/-- The frontmatter and the body of a file that starts with a fence. -/
def splitFrontmatter (content : String) : Option (String × String) :=
  match content.toList with
  | '-' :: '-' :: '-' :: rest =>
      ((afterLineEnd rest).bind splitAtFence).map fun (yaml, body) =>
        (String.ofList yaml, String.ofList body)
  | _ => none

inductive FrontmatterValue where
  | text (value : String)
  | texts (values : List String)
  | number (literal : String)
  | boolean (value : Bool)
  deriving DecidableEq, Repr

def isDigits (chars : List Char) : Bool :=
  chars ≠ [] && chars.all Char.isDigit

def skipSign : List Char → List Char
  | '+' :: rest => rest
  | '-' :: rest => rest
  | chars => chars

/-- A decimal literal without its sign. -/
def isUnsignedDecimal (chars : List Char) : Bool :=
  let isExponent (char : Char) : Bool := char = 'e' || char = 'E'
  let whole := chars.takeWhile Char.isDigit
  let rest := chars.dropWhile Char.isDigit
  let fraction :=
    match rest with
    | '.' :: decimals => decimals.takeWhile Char.isDigit
    | _ => []
  let exponent :=
    match rest with
    | '.' :: decimals => decimals.dropWhile Char.isDigit
    | _ => rest
  (whole ≠ [] || fraction ≠ []) &&
    match exponent with
    | [] => true
    | char :: power => isExponent char && isDigits (skipSign power)

def isRadixLiteral : List Char → Bool
  | '0' :: mark :: digits =>
      let hexadecimal (char : Char) : Bool :=
        char.isDigit || ('a' ≤ char && char ≤ 'f') || ('A' ≤ char && char ≤ 'F')
      digits ≠ [] &&
        if mark = 'x' ∨ mark = 'X' then digits.all hexadecimal
        else if mark = 'o' ∨ mark = 'O' then
          digits.all fun char => '0' ≤ char && char ≤ '7'
        else if mark = 'b' ∨ mark = 'B' then
          digits.all fun char => char = '0' || char = '1'
        else false
  | _ => false

/-- `Number(raw)` is a number; the text is trimmed and not empty. -/
def isNumeric (raw : String) : Bool :=
  let unsigned := skipSign raw.toList
  isUnsignedDecimal unsigned || unsigned = "Infinity".toList ||
    isRadixLiteral raw.toList

/-- Whether the text starts and ends with these characters. -/
def isEnclosed (first last : Char) (text : String) : Bool :=
  text.toList.head? = some first && text.toList.getLast? = some last

def dropEnds (text : String) : String :=
  String.ofList text.toList.tail.dropLast

def unquote (text : String) : String :=
  if isEnclosed '\x22' '\x22' text ∨ isEnclosed '\'' '\'' text then
    dropEnds text
  else text

def coerceValue (raw : String) : FrontmatterValue :=
  if raw = "" ∨ raw = "~" ∨ raw = "null" then .text ""
  else if raw = "true" then .boolean true
  else if raw = "false" then .boolean false
  else if isEnclosed '[' ']' raw then
    .texts
      (((splitText ',' (dropEnds raw)).map fun item => unquote (trim item)).filter
        (· ≠ ""))
  else if isNumeric raw then .number raw
  else .text (unquote raw)

/-- The entry on a line, if there is one. -/
def readEntry (line : String) : Option (String × FrontmatterValue) :=
  let chars := (trim line).toList
  let key := trim (String.ofList (chars.takeWhile (· ≠ ':')))
  if chars.head? = some '#' ∨ ':' ∉ chars ∨ key = "" then none
  else
    some (key, coerceValue
      (trim (String.ofList (chars.dropWhile (· ≠ ':')).tail)))

def parseSimpleYaml (yaml : String) : List (String × FrontmatterValue) :=
  (splitText '\n' yaml).filterMap readEntry

structure ParsedMarkdown where
  frontmatter : List (String × FrontmatterValue)
  body : String
  deriving DecidableEq, Repr

/-- The last entry with this key. -/
def ParsedMarkdown.field (parsed : ParsedMarkdown) (key : String) :
    Option FrontmatterValue :=
  (parsed.frontmatter.reverse.find? fun entry => entry.1 = key).map Prod.snd

def parseMarkdown (content : String) : ParsedMarkdown :=
  match splitFrontmatter content with
  | some (yaml, body) =>
      { frontmatter := parseSimpleYaml yaml
        body := trim body }
  | none =>
      { frontmatter := []
        body := trim content }

/-- The name without its extension. -/
def dropExtension (name : String) : String :=
  let chars := name.toList.reverse
  let extension := chars.takeWhile (· ≠ '.')
  match chars.dropWhile (· ≠ '.') with
  | _ :: stem =>
      if extension = [] then name else String.ofList stem.reverse
  | [] => name

def isWordChar (char : Char) : Bool :=
  char.isAlphanum || char = '_'

/-- Every word character that follows none becomes upper case. -/
def capitalizeWords : Bool → List Char → List Char
  | _, [] => []
  | afterWord, char :: rest =>
      (if isWordChar char && !afterWord then char.toUpper else char) ::
        capitalizeWords (isWordChar char) rest

def titleFromPath (filePath : String) : String :=
  let name := dropExtension ((splitText '/' filePath).getLast?.getD filePath)
  let spaced := name.toList.map fun char =>
    if char = '-' ∨ char = '_' then ' ' else char
  String.ofList (capitalizeWords false spaced)

theorem parseMarkdown_trimmed (content : String) :
    trim (parseMarkdown content).body = (parseMarkdown content).body := by
  unfold parseMarkdown
  cases splitFrontmatter content with
  | none => exact Trim.trim_trim _ _
  | some parts => exact Trim.trim_trim _ _

end Registrar
