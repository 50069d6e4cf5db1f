import Mathlib.Data.List.Sort
import Mathlib.Tactic.IntervalCases

/-!
# JSON text

The compact text that `JSON.stringify` produces.  Quoted strings form a prefix
code, so an object whose values are strings or `null` can be read back from
its text.
-/

/-- A JSON value.  A number is kept as the literal that prints it. -/
inductive Json where
  | null
  | bool (value : Bool)
  | number (literal : String)
  | string (value : String)
  | array (items : List Json)
  | object (fields : List (String × Json))
  deriving Inhabited

namespace Json

def hexDigit (value : Nat) : Char :=
  if value < 10 then Char.ofNat (48 + value) else Char.ofNat (87 + value)

/-- The escape sequence of one character inside a quoted string. -/
def escape (char : Char) : List Char :=
  if char = '"' then ['\\', '"']
  else if char = '\\' then ['\\', '\\']
  else if char = Char.ofNat 8 then ['\\', 'b']
  else if char = Char.ofNat 9 then ['\\', 't']
  else if char = Char.ofNat 10 then ['\\', 'n']
  else if char = Char.ofNat 12 then ['\\', 'f']
  else if char = Char.ofNat 13 then ['\\', 'r']
  else if char.toNat < 32 then
    ['\\', 'u', '0', '0', hexDigit (char.toNat / 16),
      hexDigit (char.toNat % 16)]
  else [char]

def quote (text : String) : List Char :=
  '"' :: (text.toList.flatMap escape ++ ['"'])

mutual

def text : Json → List Char
  | null => "null".toList
  | bool value => (if value then "true" else "false").toList
  | number literal => literal.toList
  | string value => quote value
  | array items => '[' :: (itemsText items ++ [']'])
  | object fields => '{' :: (fieldsText fields ++ ['}'])

def itemsText : List Json → List Char
  | [] => []
  | [item] => text item
  | item :: next :: rest => text item ++ ',' :: itemsText (next :: rest)

def fieldsText : List (String × Json) → List Char
  | [] => []
  | [(key, value)] => quote key ++ ':' :: text value
  | (key, value) :: next :: rest =>
      quote key ++ ':' :: (text value ++ ',' :: fieldsText (next :: rest))

end

def stringify (value : Json) : String :=
  String.ofList value.text

mutual

/-- The same value with the fields of every object in the order of their
names. -/
def sortKeys : Json → Json
  | array items => array (sortItems items)
  | object fields =>
      object ((sortFields fields).insertionSort fun left right =>
        left.1 ≤ right.1)
  | null => null
  | bool value => bool value
  | number literal => number literal
  | string value => string value

def sortItems : List Json → List Json
  | [] => []
  | item :: rest => sortKeys item :: sortItems rest

def sortFields : List (String × Json) → List (String × Json)
  | [] => []
  | (key, value) :: rest => (key, sortKeys value) :: sortFields rest

end

/-- The text of the value with sorted fields; values with one such text are
deeply equal. -/
def canonical (value : Json) : String :=
  value.sortKeys.stringify

/-- A field that is left out when its value is absent. -/
def optionalField (name : String) (value : Option Json) :
    List (String × Json) :=
  value.toList.map fun present => (name, present)

/-- The value of an optional string. -/
def ofOption : Option String → Json
  | none => null
  | some value => string value

/-- The value of a field, the last one written under its name. -/
def field? (fields : List (String × Json)) (name : String) : Option Json :=
  (fields.reverse.find? fun entry => entry.1 = name).map Prod.snd

theorem field?_append (left right : List (String × Json)) (name : String) :
    field? (left ++ right) name = (field? right name).or (field? left name) := by
  unfold field?
  rw [List.reverse_append, List.find?_append]
  cases right.reverse.find? fun entry => entry.1 = name <;> rfl

theorem field?_optionalField (written name : String) (value : Option Json) :
    field? (optionalField written value) name =
      if written = name then value else none := by
  cases value <;> by_cases same : written = name <;>
    simp [field?, optionalField, same]

/-- Read one character of a quoted string back. -/
def unescape : List Char → Option (Char × List Char)
  | '\\' :: 'u' :: _ :: _ :: high :: low :: rest =>
      some (Char.ofNat (16 * hexValue high + hexValue low), rest)
  | '\\' :: code :: rest =>
      some (codeValue code, rest)
  | char :: rest => some (char, rest)
  | [] => none
where
  hexValue (digit : Char) : Nat :=
    if digit.toNat < 58 then digit.toNat - 48 else digit.toNat - 87
  codeValue (code : Char) : Char :=
    if code = 'b' then Char.ofNat 8
    else if code = 't' then Char.ofNat 9
    else if code = 'n' then Char.ofNat 10
    else if code = 'f' then Char.ofNat 12
    else if code = 'r' then Char.ofNat 13
    else code

private theorem unescape_control :
    ∀ value < 32,
      Char.ofNat (16 * unescape.hexValue (hexDigit (value / 16)) +
        unescape.hexValue (hexDigit (value % 16))) = Char.ofNat value := by
  decide

theorem unescape_escape (char : Char) (rest : List Char) :
    unescape (escape char ++ rest) = some (char, rest) := by
  unfold escape
  split_ifs with quotation backslash backspace tab newline feed carriage control
  · subst quotation; rfl
  · subst backslash; rfl
  · subst backspace; rfl
  · subst tab; rfl
  · subst newline; rfl
  · subst feed; rfl
  · subst carriage; rfl
  · have value := unescape_control char.toNat control
    simp only [List.cons_append, List.nil_append, unescape, value,
      Char.ofNat_toNat]
  · unfold unescape
    split <;> simp_all

theorem escape_ne_quotation (char : Char) (rest tail : List Char) :
    escape char ++ rest ≠ '"' :: tail := by
  unfold escape
  split_ifs <;> simp_all

private theorem flatMap_escape_injective :
    ∀ {left right : List Char} {leftRest rightRest : List Char},
      left.flatMap escape ++ '"' :: leftRest =
        right.flatMap escape ++ '"' :: rightRest →
      left = right ∧ leftRest = rightRest
  | [], [], _, _, same => ⟨rfl, by simpa using same⟩
  | [], char :: right, _, _, same => by
      simp only [List.flatMap_nil, List.nil_append, List.flatMap_cons,
        List.append_assoc] at same
      exact absurd same.symm (escape_ne_quotation char _ _)
  | char :: left, [], _, _, same => by
      simp only [List.flatMap_nil, List.nil_append, List.flatMap_cons,
        List.append_assoc] at same
      exact absurd same (escape_ne_quotation char _ _)
  | first :: left, second :: right, _, _, same => by
      simp only [List.flatMap_cons, List.append_assoc] at same
      have heads := congrArg unescape same
      rw [unescape_escape, unescape_escape] at heads
      obtain ⟨rfl, tails⟩ := Prod.mk.inj (Option.some.inj heads)
      obtain ⟨rfl, rests⟩ := flatMap_escape_injective tails
      exact ⟨rfl, rests⟩

theorem quote_append_injective {left right : String}
    {leftRest rightRest : List Char}
    (same : quote left ++ leftRest = quote right ++ rightRest) :
    left = right ∧ leftRest = rightRest := by
  simp only [quote, List.cons_append, List.append_assoc, List.nil_append,
    List.cons.injEq, true_and] at same
  obtain ⟨chars, rests⟩ := flatMap_escape_injective same
  exact ⟨String.toList_inj.mp chars, rests⟩

/-- The text of an optional string can be read back too. -/
theorem ofOption_append_injective {left right : Option String}
    {leftRest rightRest : List Char}
    (same : (ofOption left).text ++ leftRest =
      (ofOption right).text ++ rightRest) :
    left = right ∧ leftRest = rightRest := by
  cases left with
  | none =>
      cases right with
      | none => exact ⟨rfl, by simpa [ofOption, text] using same⟩
      | some value => simp [ofOption, text, quote] at same
  | some value =>
      cases right with
      | none => simp [ofOption, text, quote] at same
      | some other =>
          simp only [ofOption, text] at same
          obtain ⟨rfl, rests⟩ := quote_append_injective same
          exact ⟨rfl, rests⟩

/-- Two objects of optional strings have the same text only if they have the
same fields. -/
theorem fieldsText_injective :
    ∀ {left right : List (String × Option String)}
      {leftRest rightRest : List Char},
      fieldsText (left.map fun entry => (entry.1, ofOption entry.2)) ++
          '}' :: leftRest =
        fieldsText (right.map fun entry => (entry.1, ofOption entry.2)) ++
          '}' :: rightRest →
      left = right
  | [], [], _, _, _ => rfl
  | [], [(_, _)], _, _, same => by simp [fieldsText, quote] at same
  | [], (_, _) :: _ :: _, _, _, same => by simp [fieldsText, quote] at same
  | [(_, _)], [], _, _, same => by simp [fieldsText, quote] at same
  | (_, _) :: _ :: _, [], _, _, same => by simp [fieldsText, quote] at same
  | [(key, value)], [(key', value')], _, _, same => by
      simp only [List.map_cons, List.map_nil, fieldsText, List.append_assoc,
        List.cons_append] at same
      obtain ⟨rfl, values⟩ := quote_append_injective same
      obtain ⟨rfl, _⟩ := ofOption_append_injective (List.cons.inj values).2
      rfl
  | [(key, value)], (key', value') :: next :: rest, _, _, same => by
      simp only [List.map_cons, List.map_nil, fieldsText, List.append_assoc,
        List.cons_append] at same
      obtain ⟨rfl, values⟩ := quote_append_injective same
      obtain ⟨rfl, ends⟩ := ofOption_append_injective (List.cons.inj values).2
      simp at ends
  | (key, value) :: next :: rest, [(key', value')], _, _, same => by
      simp only [List.map_cons, List.map_nil, fieldsText, List.append_assoc,
        List.cons_append] at same
      obtain ⟨rfl, values⟩ := quote_append_injective same
      obtain ⟨rfl, ends⟩ := ofOption_append_injective (List.cons.inj values).2
      simp at ends
  | (key, value) :: next :: rest, (key', value') :: next' :: rest', _, _,
      same => by
      simp only [List.map_cons, fieldsText, List.append_assoc,
        List.cons_append] at same
      obtain ⟨rfl, values⟩ := quote_append_injective same
      obtain ⟨rfl, ends⟩ := ofOption_append_injective (List.cons.inj values).2
      have tails : next :: rest = next' :: rest' :=
        fieldsText_injective (List.cons.inj ends).2
      rw [tails]

theorem stringify_object_injective
    {left right : List (String × Option String)}
    (same :
      stringify (.object (left.map fun entry => (entry.1, ofOption entry.2))) =
        stringify
          (.object (right.map fun entry => (entry.1, ofOption entry.2)))) :
    left = right := by
  have texts := congrArg String.toList same
  simp only [stringify, String.toList_ofList, text, List.cons.injEq,
    true_and] at texts
  exact fieldsText_injective texts

end Json
