import Registrar.Library.JsString
import Registrar.Library.Json
import Registrar.Library.PrefixCode

/-!
# Quoted strings with unpaired surrogates

`JSON.stringify` writes an unpaired surrogate as an escape sequence of its own,
so that no two strings have one text.
-/

namespace CodePoint

def unicodeEscape (code : Nat) : List Char :=
  ['\\', 'u', Json.hexDigit (code / 4096), Json.hexDigit (code / 256 % 16),
    Json.hexDigit (code / 16 % 16), Json.hexDigit (code % 16)]

def jsonEscape : CodePoint → List Char
  | scalar char => Json.escape char
  | highSurrogate offset => unicodeEscape (0xd800 + offset)
  | lowSurrogate offset => unicodeEscape (0xdc00 + offset)

/-- Read one code point of a quoted string back. -/
def jsonUnescape : List Char → Option (CodePoint × List Char)
  | '\\' :: 'u' :: 'd' :: third :: second :: first :: rest =>
      let offset := 256 * (Json.unescape.hexValue third - 8) +
        (16 * Json.unescape.hexValue second + Json.unescape.hexValue first)
      let point := Fin.ofNat 1024 offset
      some (if offset < 1024 then highSurrogate point else lowSurrogate point,
        rest)
  | text => (Json.unescape text).map fun read => (scalar read.1, read.2)

theorem hexValue_hexDigit {value : Nat} (small : value < 16) :
    Json.unescape.hexValue (Json.hexDigit value) = value := by
  have every : ∀ value < 16,
      Json.unescape.hexValue (Json.hexDigit value) = value := by decide
  exact every value small

theorem jsonUnescape_surrogate {offset : Nat} (small : offset < 2048)
    (rest : List Char) :
    jsonUnescape (unicodeEscape (0xd800 + offset) ++ rest) =
      some (if offset < 1024 then highSurrogate (Fin.ofNat 1024 offset)
        else lowSurrogate (Fin.ofNat 1024 offset), rest) := by
  have lead : Json.hexDigit ((0xd800 + offset) / 4096) = 'd' := by
    have plane : (0xd800 + offset) / 4096 = 13 := by omega
    rw [plane]
    rfl
  have digits : 256 * ((0xd800 + offset) / 256 % 16 - 8) +
      (16 * ((0xd800 + offset) / 16 % 16) + (0xd800 + offset) % 16) =
        offset := by omega
  simp only [unicodeEscape, lead, List.cons_append, List.nil_append,
    jsonUnescape, hexValue_hexDigit (Nat.mod_lt _ (by decide : 0 < 16)), digits]

theorem jsonUnescape_scalar (char : Char) (rest : List Char) :
    jsonUnescape (Json.escape char ++ rest) = some (scalar char, rest) := by
  have plain : jsonUnescape (Json.escape char ++ rest) =
      (Json.unescape (Json.escape char ++ rest)).map fun read =>
        (scalar read.1, read.2) := by
    unfold Json.escape
    split_ifs with quotation backslash
    case neg =>
      unfold jsonUnescape
      split
      · simp_all
      · rfl
    all_goals rfl
  rw [plain, Json.unescape_escape]
  rfl

theorem jsonUnescape_jsonEscape (point : CodePoint) (rest : List Char) :
    jsonUnescape (point.jsonEscape ++ rest) = some (point, rest) := by
  cases point with
  | scalar char => exact jsonUnescape_scalar char rest
  | highSurrogate offset =>
      rw [jsonEscape, jsonUnescape_surrogate (by omega), if_pos offset.isLt]
      simp
  | lowSurrogate offset =>
      have moved : 0xdc00 + offset.val = 0xd800 + (1024 + offset.val) := by omega
      rw [jsonEscape, moved, jsonUnescape_surrogate (by omega),
        if_neg (by omega)]
      simp [Fin.ext_iff]

theorem isPrefixCode_jsonEscape : IsPrefixCode jsonEscape := by
  intro left right rest rest' same
  have heads := congrArg jsonUnescape same
  rw [jsonUnescape_jsonEscape, jsonUnescape_jsonEscape] at heads
  exact Prod.mk.inj (Option.some.inj heads)

theorem neverStarts_jsonEscape : NeverStarts jsonEscape '"' := by
  intro point rest tail
  cases point with
  | scalar char => exact Json.escape_ne_quotation char rest tail
  | highSurrogate offset => simp [jsonEscape, unicodeEscape]
  | lowSurrogate offset => simp [jsonEscape, unicodeEscape]

end CodePoint

namespace JsString

/-- The quoted text of a string. -/
def quote (string : JsString) : List Char :=
  '"' :: (string.points.flatMap CodePoint.jsonEscape ++ ['"'])

theorem points_injective : Function.Injective points :=
  fun _ _ same => ext same

theorem isPrefixCode_quote : IsPrefixCode quote :=
  ((CodePoint.isPrefixCode_jsonEscape.terminated
    CodePoint.neverStarts_jsonEscape).cons '"').comp points_injective

theorem quote_ofString (text : String) :
    (ofString text).quote = Json.quote text := by
  unfold quote Json.quote ofString
  rw [List.flatMap_map]
  rfl

end JsString
