import Registrar.Library.Json
import Mathlib.Data.Rat.Defs
import Mathlib.Algebra.Order.Ring.Unbundled.Rat

/-!
# Conversions of JavaScript values

What the operators of the language make of a value that was read from JSON.
No such value is a function, so an object whose key is `toString` has no text.
-/

inductive JsError where
  | syntaxError
  | typeError
  deriving DecidableEq, Repr

inductive JsNumber where
  | notANumber
  | negativeInfinity
  | finite (value : ℚ)
  | infinity
  deriving DecidableEq

/-- `left < right` -/
def JsNumber.lessThan : JsNumber → JsNumber → Bool
  | .finite left, .finite right => decide (left < right)
  | .negativeInfinity, .finite _ => true
  | .negativeInfinity, .infinity => true
  | .finite _, .infinity => true
  | _, _ => false

/-- What the language reads from the texts of numbers and how it writes them. -/
structure JsNumbers where
  /-- The value of a literal of a JSON text. -/
  ofLiteral : String → JsNumber
  /-- `Number(text)` -/
  ofText : String → JsNumber
  /-- `String(n)`, for a literal. -/
  text : String → String

/-- A value read from JSON, or `undefined`. -/
abbrev JsValue :=
  Option Json

/-- `value ?? null` is `null`. -/
def JsValue.isNullish : JsValue → Bool
  | none => true
  | some .null => true
  | some _ => false

namespace JsNumbers

variable (numbers : JsNumbers)

mutual

/-- `String(value)` -/
def toText : Json → Except JsError String
  | .null => .ok "null"
  | .bool value => .ok (if value then "true" else "false")
  | .number literal => .ok (numbers.text literal)
  | .string value => .ok value
  | .array items => (joinTexts items).map fun texts =>
      String.intercalate "," texts
  | .object fields =>
      if fields.any (·.1 = "toString") then .error .typeError
      else .ok "[object Object]"

/-- The texts of the items of an array, as `join` takes them. -/
def joinTexts : List Json → Except JsError (List String)
  | [] => .ok []
  | .null :: rest => (joinTexts rest).map ("" :: ·)
  | item :: rest =>
      (toText item).bind fun text => (joinTexts rest).map (text :: ·)

end

/-- A text in a template. -/
def printed : JsValue → Except JsError String
  | none => .ok "undefined"
  | some value => numbers.toText value

/-- `value ?? 'null'` in a template. -/
def printedOrNull (value : JsValue) : Except JsError String :=
  if value.isNullish then .ok "null" else numbers.printed value

/-- `Number(value)` -/
def toNumber : JsValue → Except JsError JsNumber
  | none => .ok .notANumber
  | some .null => .ok (.finite 0)
  | some (.bool value) => .ok (.finite (if value then 1 else 0))
  | some (.number literal) => .ok (numbers.ofLiteral literal)
  | some (.string value) => .ok (numbers.ofText value)
  | some value => (numbers.toText value).map numbers.ofText

/-- `left === right`.  Arrays and objects of two lines are never the same. -/
def strictEquals : JsValue → JsValue → Bool
  | none, none => true
  | some .null, some .null => true
  | some (.bool left), some (.bool right) => left = right
  | some (.number left), some (.number right) =>
      numbers.ofLiteral left = numbers.ofLiteral right &&
        numbers.ofLiteral left ≠ .notANumber
  | some (.string left), some (.string right) => left = right
  | _, _ => false

/-- `left < right`: the order of texts, or of numbers. -/
def lessThan (left right : Json) : Except JsError Bool :=
  match left, right with
  | .string left, .string right => .ok (left < right)
  | left, right =>
      match isText left, isText right with
      | true, true =>
          (numbers.toText left).bind fun left =>
            (numbers.toText right).map fun right => left < right
      | _, _ =>
          (numbers.toNumber left).bind fun left =>
            (numbers.toNumber right).map fun right => left.lessThan right
where
  /-- The primitive of the value is a text. -/
  isText : Json → Bool
    | .string _ => true
    | .array _ => true
    | .object _ => true
    | _ => false

end JsNumbers

mutual

/-- No object that the text of the value is made of has a key `toString`. -/
def Json.Printable : Json → Prop
  | .array items => ItemsPrintable items
  | .object fields => ∀ field ∈ fields, field.1 ≠ "toString"
  | _ => True

def Json.ItemsPrintable : List Json → Prop
  | [] => True
  | item :: rest => item.Printable ∧ ItemsPrintable rest

end

theorem Json.itemsPrintable_iff {items : List Json} :
    ItemsPrintable items ↔ ∀ item ∈ items, item.Printable := by
  induction items with
  | nil => simp [ItemsPrintable]
  | cons item rest induction => simp [ItemsPrintable, induction]

def JsValue.Printable (value : JsValue) : Prop :=
  ∀ json, value = some json → json.Printable

namespace JsNumbers

variable (numbers : JsNumbers)

theorem map_isOk {Result Other : Type*} {outcome : Except JsError Result}
    {change : Result → Other} :
    (∃ result, outcome.map change = .ok result) ↔
      ∃ result, outcome = .ok result := by
  cases outcome <;> simp [Except.map]

theorem both_isOk {First Second Result : Type*}
    {first : Except JsError First} {second : Except JsError Second}
    {together : First → Second → Result} :
    (∃ result, (first.bind fun left => second.map (together left)) =
        .ok result) ↔
      (∃ left, first = .ok left) ∧ ∃ right, second = .ok right := by
  cases first <;> cases second <;> simp [Except.bind, Except.map]

theorem joinTexts_cons {item : Json} (present : item ≠ .null)
    (rest : List Json) :
    numbers.joinTexts (item :: rest) =
      (numbers.toText item).bind fun text =>
        (numbers.joinTexts rest).map (text :: ·) := by
  cases item <;> first | rfl | exact absurd rfl present

mutual

theorem toText_isOk_iff (value : Json) :
    (∃ text, numbers.toText value = .ok text) ↔ value.Printable := by
  cases value with
  | null => simp [toText, Json.Printable]
  | bool value => simp [toText, Json.Printable]
  | number literal => simp [toText, Json.Printable]
  | string value => simp [toText, Json.Printable]
  | array items =>
      rw [toText, map_isOk, Json.Printable]
      exact joinTexts_isOk_iff items
  | object fields =>
      rw [toText, Json.Printable]
      by_cases named : fields.any (·.1 = "toString")
      · rw [if_pos named]
        obtain ⟨field, member, isNamed⟩ := List.any_eq_true.mp named
        constructor
        · rintro ⟨_, failed⟩
          cases failed
        · intro plain
          exact absurd (of_decide_eq_true isNamed) (plain field member)
      · rw [if_neg named]
        refine ⟨fun _ field member isNamed => named ?_, fun _ => ⟨_, rfl⟩⟩
        exact List.any_eq_true.mpr ⟨field, member, decide_eq_true isNamed⟩

theorem joinTexts_isOk_iff (items : List Json) :
    (∃ texts, numbers.joinTexts items = .ok texts) ↔
      Json.ItemsPrintable items := by
  cases items with
  | nil => simp [joinTexts, Json.ItemsPrintable]
  | cons item rest =>
      have inRest := joinTexts_isOk_iff rest
      have first := toText_isOk_iff item
      by_cases absent : item = .null
      · rw [absent, joinTexts, map_isOk, inRest]
        simp [Json.ItemsPrintable, Json.Printable]
      · rw [joinTexts_cons numbers absent, both_isOk, first, inRest,
          Json.ItemsPrintable]

end

theorem printed_isOk_iff (value : JsValue) :
    (∃ text, numbers.printed value = .ok text) ↔ value.Printable := by
  cases value with
  | none => simp [printed, JsValue.Printable]
  | some json =>
      rw [printed, toText_isOk_iff]
      simp [JsValue.Printable]

theorem printedOrNull_isOk_iff (value : JsValue) :
    (∃ text, numbers.printedOrNull value = .ok text) ↔ value.Printable := by
  unfold printedOrNull
  split_ifs with nullish
  · refine ⟨fun _ json isJson => ?_, fun _ => ⟨_, rfl⟩⟩
    rw [isJson] at nullish
    cases json <;> trivial
  · exact printed_isOk_iff numbers value

theorem toNumber_isOk_iff (value : JsValue) :
    (∃ number, numbers.toNumber value = .ok number) ↔ value.Printable := by
  cases value with
  | none => simp [toNumber, JsValue.Printable]
  | some json =>
      have text := toText_isOk_iff numbers json
      have printable : JsValue.Printable (some json) ↔ json.Printable := by
        simp [JsValue.Printable]
      rw [printable]
      cases json with
      | array items => exact map_isOk.trans text
      | object fields => exact map_isOk.trans text
      | _ => simp [toNumber, Json.Printable]

end JsNumbers
