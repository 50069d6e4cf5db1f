import Registrar.Library.Json

/-!
# Reading JSON text

`JSON.parse`, and the indented text that `JSON.stringify` writes for a file.
Values whose numbers are literals are read back from their indented text.
-/

namespace Json

def isSpace (char : Char) : Bool :=
  char = ' ' || char = '\t' || char = '\n' || char = '\r'

def skipSpace (chars : List Char) : List Char :=
  chars.dropWhile isSpace

def hexDigitValue? (char : Char) : Option Nat :=
  if '0' ≤ char ∧ char ≤ '9' then some (char.toNat - 48)
  else if 'a' ≤ char ∧ char ≤ 'f' then some (char.toNat - 87)
  else if 'A' ≤ char ∧ char ≤ 'F' then some (char.toNat - 55)
  else none

def codeUnit? (first second third fourth : Char) : Option Nat := do
  let first ← hexDigitValue? first
  let second ← hexDigitValue? second
  let third ← hexDigitValue? third
  let fourth ← hexDigitValue? fourth
  return 4096 * first + 256 * second + 16 * third + fourth

/-- The character that a two-character escape stands for. -/
def escapedUnit? (code : Char) : Option Nat :=
  if code = '"' ∨ code = '\\' ∨ code = '/' then some code.toNat
  else if code = 'b' then some 8
  else if code = 't' then some 9
  else if code = 'n' then some 10
  else if code = 'f' then some 12
  else if code = 'r' then some 13
  else none

/-- The code units of a string up to its closing quotation mark. -/
def readUnits : List Char → Option (List Nat × List Char)
  | [] => none
  | '"' :: rest => some ([], rest)
  | '\\' :: 'u' :: first :: second :: third :: fourth :: rest => do
      let unit ← codeUnit? first second third fourth
      let (units, rest) ← readUnits rest
      return (unit :: units, rest)
  | '\\' :: code :: rest => do
      let unit ← escapedUnit? code
      let (units, rest) ← readUnits rest
      return (unit :: units, rest)
  | char :: rest =>
      if char.toNat < 32 then none
      else do
        let (units, rest) ← readUnits rest
        return (char.toNat :: units, rest)

def IsHighSurrogate (unit : Nat) : Prop :=
  0xd800 ≤ unit ∧ unit ≤ 0xdbff

def IsLowSurrogate (unit : Nat) : Prop :=
  0xdc00 ≤ unit ∧ unit ≤ 0xdfff

instance (unit : Nat) : Decidable (IsHighSurrogate unit) :=
  inferInstanceAs (Decidable (_ ∧ _))

instance (unit : Nat) : Decidable (IsLowSurrogate unit) :=
  inferInstanceAs (Decidable (_ ∧ _))

/-- The characters of a sequence of code units; half of a surrogate pair alone
becomes the replacement character. -/
def joinUnits : List Nat → List Char
  | [] => []
  | [unit] =>
      [if IsHighSurrogate unit ∨ IsLowSurrogate unit then Char.ofNat 0xfffd
        else Char.ofNat unit]
  | high :: low :: rest =>
      if IsHighSurrogate high ∧ IsLowSurrogate low then
        Char.ofNat (0x10000 + (high - 0xd800) * 0x400 + (low - 0xdc00)) ::
          joinUnits rest
      else if IsHighSurrogate high ∨ IsLowSurrogate high then
        Char.ofNat 0xfffd :: joinUnits (low :: rest)
      else Char.ofNat high :: joinUnits (low :: rest)

def readString (chars : List Char) : Option (String × List Char) := do
  let (units, rest) ← readUnits chars
  return (String.ofList (joinUnits units), rest)

def isNumberChar (char : Char) : Bool :=
  char.isDigit || char = '-' || char = '+' || char = '.' || char = 'e' ||
    char = 'E'

def isExponent : List Char → Bool
  | [] => true
  | mark :: rest =>
      let digits :=
        match rest with
        | '+' :: digits => digits
        | '-' :: digits => digits
        | digits => digits
      (mark = 'e' || mark = 'E') && digits ≠ [] && digits.all Char.isDigit

def isFraction : List Char → Bool
  | '.' :: rest =>
      rest.takeWhile Char.isDigit ≠ [] &&
        isExponent (rest.dropWhile Char.isDigit)
  | rest => isExponent rest

/-- The text of a number, without a sign other than `-` or a leading zero. -/
def isNumberLiteral (chars : List Char) : Bool :=
  let unsigned :=
    match chars with
    | '-' :: rest => rest
    | rest => rest
  let whole := unsigned.takeWhile Char.isDigit
  (whole = ['0'] || (whole ≠ [] && whole.head? ≠ some '0')) &&
    isFraction (unsigned.dropWhile Char.isDigit)

def readNumber (chars : List Char) : Option (Json × List Char) :=
  let literal := chars.takeWhile isNumberChar
  if isNumberLiteral literal then
    some (number (String.ofList literal), chars.dropWhile isNumberChar)
  else none

mutual

/-- A value and the characters after it; the number bounds the nesting. -/
def readValue : Nat → List Char → Option (Json × List Char)
  | 0, _ => none
  | fuel + 1, chars =>
      match skipSpace chars with
      | 'n' :: 'u' :: 'l' :: 'l' :: rest => some (null, rest)
      | 't' :: 'r' :: 'u' :: 'e' :: rest => some (bool true, rest)
      | 'f' :: 'a' :: 'l' :: 's' :: 'e' :: rest => some (bool false, rest)
      | '"' :: rest => do
          let (value, rest) ← readString rest
          return (string value, rest)
      | '[' :: rest =>
          match skipSpace rest with
          | ']' :: rest => some (array [], rest)
          | _ => do
              let (items, rest) ← readItems fuel rest
              return (array items, rest)
      | '{' :: rest =>
          match skipSpace rest with
          | '}' :: rest => some (object [], rest)
          | _ => do
              let (fields, rest) ← readFields fuel rest
              return (object fields, rest)
      | chars => readNumber chars

def readItems : Nat → List Char → Option (List Json × List Char)
  | 0, _ => none
  | fuel + 1, chars => do
      let (item, rest) ← readValue fuel chars
      match skipSpace rest with
      | ']' :: rest => some ([item], rest)
      | ',' :: rest =>
          let (items, rest) ← readItems fuel rest
          return (item :: items, rest)
      | _ => none

def readFields : Nat → List Char → Option (List (String × Json) × List Char)
  | 0, _ => none
  | fuel + 1, chars =>
      match skipSpace chars with
      | '"' :: rest => do
          let (key, rest) ← readString rest
          match skipSpace rest with
          | ':' :: rest =>
              let (value, rest) ← readValue fuel rest
              match skipSpace rest with
              | '}' :: rest => some ([(key, value)], rest)
              | ',' :: rest =>
                  let (fields, rest) ← readFields fuel rest
                  return ((key, value) :: fields, rest)
              | _ => none
          | _ => none
      | _ => none

end

/-- `JSON.parse`, which throws on a text that is not one value. -/
def parse (text : String) : Option Json :=
  match readValue (2 * text.length + 1) text.toList with
  | some (value, rest) => if skipSpace rest = [] then some value else none
  | none => none

def newline (depth : Nat) : List Char :=
  '\n' :: List.replicate (2 * depth) ' '

mutual

def indented (depth : Nat) : Json → List Char
  | array [] => ['[', ']']
  | array (item :: items) =>
      '[' :: (indentedItems (depth + 1) (item :: items) ++
        (newline depth ++ [']']))
  | object [] => ['{', '}']
  | object (field :: fields) =>
      '{' :: (indentedFields (depth + 1) (field :: fields) ++
        (newline depth ++ ['}']))
  | null => "null".toList
  | bool value => (if value then "true" else "false").toList
  | number literal => literal.toList
  | string value => quote value

def indentedItems (depth : Nat) : List Json → List Char
  | [] => []
  | [item] => newline depth ++ indented depth item
  | item :: next :: rest =>
      newline depth ++ (indented depth item ++
        ',' :: indentedItems depth (next :: rest))

def indentedFields (depth : Nat) : List (String × Json) → List Char
  | [] => []
  | [(key, value)] =>
      newline depth ++ (quote key ++ ':' :: ' ' :: indented depth value)
  | (key, value) :: next :: rest =>
      newline depth ++ (quote key ++ ':' :: ' ' :: (indented depth value ++
        ',' :: indentedFields depth (next :: rest)))

end

/-- `JSON.stringify(value, null, 2)` -/
def stringifyIndented (value : Json) : String :=
  String.ofList (indented 0 value)

private theorem codeUnit?_control :
    ∀ value < 32,
      codeUnit? '0' '0' (hexDigit (value / 16)) (hexDigit (value % 16)) =
        some value := by
  decide

theorem readUnits_escape (char : Char) (rest : List Char) :
    readUnits (escape char ++ rest) = do
      let (units, rest) ← readUnits rest
      return (char.toNat :: units, rest) := by
  unfold escape
  split_ifs with quotation backslash backspace tab newline feed carriage control
  · subst quotation; rfl
  · subst backslash; rfl
  · subst backspace; rfl
  · subst tab; rfl
  · subst newline; rfl
  · subst feed; rfl
  · subst carriage; rfl
  · have value := codeUnit?_control char.toNat control
    simp only [List.cons_append, List.nil_append, readUnits, value,
      Option.bind_eq_bind, Option.bind_some]
  · rw [List.singleton_append, readUnits.eq_def]
    split <;> simp_all

theorem readUnits_text (text rest : List Char) :
    readUnits (text.flatMap escape ++ '"' :: rest) =
      some (text.map Char.toNat, rest) := by
  induction text with
  | nil => rfl
  | cons char text induction =>
      rw [List.flatMap_cons, List.append_assoc, readUnits_escape, induction]
      rfl

theorem not_surrogate (char : Char) :
    ¬IsHighSurrogate char.toNat ∧ ¬IsLowSurrogate char.toNat := by
  have valid : char.toNat < 0xd800 ∨
      0xdfff < char.toNat ∧ char.toNat < 0x110000 := char.valid
  unfold IsHighSurrogate IsLowSurrogate
  omega

theorem joinUnits_toNat (chars : List Char) :
    joinUnits (chars.map Char.toNat) = chars := by
  induction chars with
  | nil => rfl
  | cons char rest induction =>
      obtain ⟨high, low⟩ := not_surrogate char
      cases rest with
      | nil => simp [joinUnits, high, low]
      | cons next rest =>
          simp only [List.map_cons] at induction ⊢
          simp [joinUnits, high, low, induction]

theorem readString_quoted (text : String) (rest : List Char) :
    readString (text.toList.flatMap escape ++ '"' :: rest) =
      some (text, rest) := by
  rw [readString, readUnits_text]
  simp [joinUnits_toNat]

mutual

/-- Every number in the value is a literal. -/
def WellFormed : Json → Prop
  | null => True
  | bool _ => True
  | number literal =>
      literal.toList.all isNumberChar = true ∧
        isNumberLiteral literal.toList = true
  | string _ => True
  | array items => ItemsWellFormed items
  | object fields => FieldsWellFormed fields

def ItemsWellFormed : List Json → Prop
  | [] => True
  | item :: rest => WellFormed item ∧ ItemsWellFormed rest

def FieldsWellFormed : List (String × Json) → Prop
  | [] => True
  | (_, value) :: rest => WellFormed value ∧ FieldsWellFormed rest

end

theorem itemsWellFormed_iff {items : List Json} :
    ItemsWellFormed items ↔ ∀ item ∈ items, WellFormed item := by
  induction items with
  | nil => simp [ItemsWellFormed]
  | cons item rest induction => simp [ItemsWellFormed, induction]

theorem fieldsWellFormed_iff {fields : List (String × Json)} :
    FieldsWellFormed fields ↔ ∀ field ∈ fields, WellFormed field.2 := by
  induction fields with
  | nil => simp [FieldsWellFormed]
  | cons field rest induction => simp [FieldsWellFormed, induction]

/-- What follows a value does not go on with a number. -/
def Ends (rest : List Char) : Prop :=
  ∀ char ∈ rest.head?, isNumberChar char = false

theorem ends_cons {char : Char} {rest : List Char}
    (other : isNumberChar char = false) : Ends (char :: rest) := by
  intro head isHead
  cases isHead
  exact other

theorem skipSpace_newline (depth : Nat) (chars : List Char) :
    skipSpace (newline depth ++ chars) = skipSpace chars := by
  unfold skipSpace newline
  rw [List.cons_append, List.dropWhile_cons_of_pos rfl]
  apply List.dropWhile_append_of_pos
  intro char member
  rw [List.eq_of_mem_replicate member]
  rfl

theorem skipSpace_cons {char : Char} (solid : isSpace char = false)
    (rest : List Char) : skipSpace (char :: rest) = char :: rest :=
  List.dropWhile_cons_of_neg (by simp [solid])

theorem isSpace_of_isNumberChar {char : Char}
    (isNumber : isNumberChar char = true) : isSpace char = false := by
  by_contra space
  simp only [isSpace, Bool.not_eq_false, Bool.or_eq_true,
    decide_eq_true_eq] at space
  rcases space with ((rfl | rfl) | rfl) | rfl <;>
    exact absurd isNumber (by decide)

theorem readNumber_literal {literal : String} {rest : List Char}
    (chars : literal.toList.all isNumberChar = true)
    (isLiteral : isNumberLiteral literal.toList = true) (ends : Ends rest) :
    readNumber (literal.toList ++ rest) = some (number literal, rest) := by
  have tail : rest.takeWhile isNumberChar = [] ∧
      rest.dropWhile isNumberChar = rest := by
    cases rest with
    | nil => simp
    | cons char rest => simp [ends char rfl]
  have all : ∀ char ∈ literal.toList, isNumberChar char = true :=
    List.all_eq_true.mp chars
  unfold readNumber
  rw [List.takeWhile_append_of_pos all, List.dropWhile_append_of_pos all,
    tail.1, tail.2, List.append_nil]
  simp [isLiteral]

theorem isNumberLiteral_ne_nil {chars : List Char}
    (isLiteral : isNumberLiteral chars = true) : chars ≠ [] := by
  rintro rfl
  exact absurd isLiteral (by decide)

theorem readValue_number {literal : String} {rest : List Char} {fuel : Nat}
    (chars : literal.toList.all isNumberChar = true)
    (isLiteral : isNumberLiteral literal.toList = true) (ends : Ends rest) :
    readValue (fuel + 1) (literal.toList ++ rest) =
      some (number literal, rest) := by
  have read := readNumber_literal chars isLiteral ends
  cases text : literal.toList with
  | nil => exact absurd text (isNumberLiteral_ne_nil isLiteral)
  | cons first others =>
      rw [text] at read chars
      have isNumber : isNumberChar first = true := by
        simp only [List.all_cons, Bool.and_eq_true] at chars
        exact chars.1
      rw [readValue, List.cons_append,
        skipSpace_cons (isSpace_of_isNumberChar isNumber)]
      split
      all_goals
        first
        | exact read
        | (rename_i same
           obtain ⟨rfl, -⟩ := List.cons.inj same
           exact absurd isNumber (by decide))

theorem readValue_of_skipSpace {left right : List Char}
    (same : skipSpace left = skipSpace right) (fuel : Nat) :
    readValue fuel left = readValue fuel right := by
  cases fuel with
  | zero => rfl
  | succ fuel => rw [readValue, readValue, same]

theorem readValue_newline (fuel depth : Nat) (chars : List Char) :
    readValue fuel (newline depth ++ chars) = readValue fuel chars :=
  readValue_of_skipSpace (skipSpace_newline depth chars) fuel

theorem readValue_blank (fuel : Nat) (chars : List Char) :
    readValue fuel (' ' :: chars) = readValue fuel chars :=
  readValue_of_skipSpace (List.dropWhile_cons_of_pos rfl) fuel

@[simp]
theorem skipSpace_mark {mark : Char} (rest : List Char)
    (isMark : mark ∈ [']', '}', ',', ':', '"', '[', '{']) :
    skipSpace (mark :: rest) = mark :: rest := by
  apply skipSpace_cons
  simp only [List.mem_cons, List.not_mem_nil, or_false] at isMark
  rcases isMark with rfl | rfl | rfl | rfl | rfl | rfl | rfl <;> rfl

/-- The first character of a value's text is neither white space nor the end
of an array. -/
theorem indented_head (depth : Nat) {value : Json}
    (wellFormed : value.WellFormed) :
    ∃ first rest, indented depth value = first :: rest ∧
      isSpace first = false ∧ first ≠ ']' := by
  cases value with
  | null => exact ⟨_, _, rfl, rfl, by decide⟩
  | bool value => cases value <;> exact ⟨_, _, rfl, rfl, by decide⟩
  | string value => exact ⟨_, _, rfl, rfl, by decide⟩
  | array items => cases items <;> exact ⟨_, _, rfl, rfl, by decide⟩
  | object fields => cases fields <;> exact ⟨_, _, rfl, rfl, by decide⟩
  | number literal =>
      obtain ⟨chars, isLiteral⟩ := wellFormed
      cases text : literal.toList with
      | nil =>
          rw [text] at isLiteral
          exact absurd isLiteral (by decide)
      | cons first rest =>
          refine ⟨first, rest, text, ?_⟩
          rw [text, List.all_cons, Bool.and_eq_true] at chars
          refine ⟨isSpace_of_isNumberChar chars.1, ?_⟩
          rintro rfl
          exact absurd chars.1 (by decide)

theorem quote_append (text : String) (rest : List Char) :
    quote text ++ rest =
      '"' :: (text.toList.flatMap escape ++ '"' :: rest) := by
  simp [quote]

theorem skipSpace_indentedItems (depth : Nat) {item : Json}
    (wellFormed : item.WellFormed) (items : List Json) (rest : List Char) :
    ∃ first others, first ≠ ']' ∧
      skipSpace (indentedItems depth (item :: items) ++ rest) =
        first :: others := by
  obtain ⟨first, others, text, solid, opening⟩ := indented_head depth wellFormed
  cases items with
  | nil =>
      rw [indentedItems, List.append_assoc, skipSpace_newline, text,
        List.cons_append, skipSpace_cons solid]
      exact ⟨first, _, opening, rfl⟩
  | cons next items =>
      rw [indentedItems, List.append_assoc, skipSpace_newline, text,
        List.cons_append, List.cons_append, skipSpace_cons solid]
      exact ⟨first, _, opening, rfl⟩

mutual

theorem readValue_indented :
    ∀ (fuel depth : Nat) (value : Json) (rest : List Char),
      value.WellFormed → Ends rest →
      2 * (indented depth value).length ≤ fuel →
      readValue fuel (indented depth value ++ rest) = some (value, rest)
  | 0, depth, value, rest, wellFormed, _, enough => by
      obtain ⟨first, others, text, -, -⟩ := indented_head depth wellFormed
      rw [text, List.length_cons] at enough
      omega
  | fuel + 1, depth, value, rest, wellFormed, ends, enough => by
      cases value with
      | null => rfl
      | bool value => cases value <;> rfl
      | number literal =>
          exact readValue_number wellFormed.1 wellFormed.2 ends
      | string value =>
          rw [indented, quote_append, readValue, skipSpace_cons rfl]
          simp [readString_quoted]
      | array items =>
          cases items with
          | nil => rfl
          | cons item items =>
              have read := readItems_indented fuel (depth + 1) depth item
                items rest wellFormed (by simp [indented] at enough; omega)
              obtain ⟨first, others, opening, skipped⟩ :=
                skipSpace_indentedItems (depth + 1) wellFormed.1 items
                  (newline depth ++ ']' :: rest)
              rw [indented, List.cons_append, List.append_assoc,
                List.append_assoc, List.singleton_append, readValue,
                skipSpace_cons rfl]
              simp [skipped, opening, read]
      | object fields =>
          cases fields with
          | nil => rfl
          | cons field fields =>
              have read := readFields_indented fuel (depth + 1) depth field
                fields rest wellFormed (by simp [indented] at enough; omega)
              have skipped : ∃ others,
                  skipSpace (indentedFields (depth + 1) (field :: fields) ++
                    (newline depth ++ '}' :: rest)) = '"' :: others := by
                cases fields <;>
                  simp [indentedFields, skipSpace_newline, quote]
              obtain ⟨others, skipped⟩ := skipped
              rw [indented, List.cons_append, List.append_assoc,
                List.append_assoc, List.singleton_append, readValue,
                skipSpace_cons rfl]
              simp [skipped, read]

theorem readItems_indented :
    ∀ (fuel depth outer : Nat) (item : Json) (items : List Json)
      (rest : List Char), ItemsWellFormed (item :: items) →
      2 * (indentedItems depth (item :: items)).length + 1 ≤ fuel →
      readItems fuel (indentedItems depth (item :: items) ++
        (newline outer ++ ']' :: rest)) = some (item :: items, rest)
  | 0, _, _, _, _, _, _, enough => by omega
  | fuel + 1, depth, outer, item, items, rest, wellFormed, enough => by
      cases items with
      | nil =>
          have read := readValue_indented fuel depth item
            (newline outer ++ ']' :: rest) wellFormed.1 (ends_cons rfl)
            (by simp [indentedItems] at enough; omega)
          rw [indentedItems, List.append_assoc, readItems, readValue_newline,
            read]
          simp [skipSpace_newline]
      | cons next items =>
          have read := readValue_indented fuel depth item
            (',' :: (indentedItems depth (next :: items) ++
              (newline outer ++ ']' :: rest))) wellFormed.1
            (ends_cons rfl) (by simp [indentedItems] at enough; omega)
          have others := readItems_indented fuel depth outer next items rest
            wellFormed.2 (by simp [indentedItems] at enough ⊢; omega)
          rw [indentedItems, List.append_assoc, List.append_assoc,
            List.cons_append, readItems, readValue_newline, read]
          simp [others]

theorem readFields_indented :
    ∀ (fuel depth outer : Nat) (field : String × Json)
      (fields : List (String × Json)) (rest : List Char),
      FieldsWellFormed (field :: fields) →
      2 * (indentedFields depth (field :: fields)).length + 1 ≤ fuel →
      readFields fuel (indentedFields depth (field :: fields) ++
        (newline outer ++ '}' :: rest)) = some (field :: fields, rest)
  | 0, _, _, _, _, _, _, enough => by omega
  | fuel + 1, depth, outer, (key, value), fields, rest, wellFormed,
      enough => by
      cases fields with
      | nil =>
          have read := readValue_indented fuel depth value
            (newline outer ++ '}' :: rest) wellFormed.1 (ends_cons rfl)
            (by simp [indentedFields] at enough; omega)
          rw [indentedFields, List.append_assoc, List.append_assoc,
            List.cons_append, List.cons_append, quote_append, readFields,
            skipSpace_newline]
          simp [readString_quoted, readValue_blank, read, skipSpace_newline]
      | cons next fields =>
          have read := readValue_indented fuel depth value
            (',' :: (indentedFields depth (next :: fields) ++
              (newline outer ++ '}' :: rest))) wellFormed.1
            (ends_cons rfl) (by simp [indentedFields] at enough; omega)
          have others := readFields_indented fuel depth outer next fields rest
            wellFormed.2 (by simp [indentedFields] at enough ⊢; omega)
          rw [indentedFields, List.append_assoc, List.append_assoc,
            List.cons_append, List.cons_append, List.append_assoc,
            List.cons_append, quote_append, readFields, skipSpace_newline]
          simp [readString_quoted, readValue_blank, read, others]

end

/-- A value is read back from its indented text and a final line break. -/
theorem parse_stringifyIndented {value : Json}
    (wellFormed : value.WellFormed) :
    parse (value.stringifyIndented ++ "\n") = some value := by
  have chars : (value.stringifyIndented ++ "\n").toList =
      indented 0 value ++ ['\n'] := by
    simp [stringifyIndented]
  have length : (value.stringifyIndented ++ "\n").length =
      (indented 0 value).length + 1 := by
    rw [← String.length_toList, chars, List.length_append,
      List.length_singleton]
  have read := readValue_indented
    (2 * (value.stringifyIndented ++ "\n").length + 1) 0 value ['\n']
    wellFormed (ends_cons rfl) (by omega)
  rw [parse, chars, read]
  rfl

theorem readNumber_wellFormed {chars rest : List Char} {value : Json}
    (read : readNumber chars = some (value, rest)) : value.WellFormed := by
  unfold readNumber at read
  simp only [Option.ite_none_right_eq_some, Option.some.injEq,
    Prod.mk.injEq] at read
  obtain ⟨isLiteral, rfl, -⟩ := read
  refine ⟨?_, ?_⟩
  · rw [String.toList_ofList]
    exact List.all_takeWhile
  · rw [String.toList_ofList]
    exact isLiteral

mutual

theorem readValue_wellFormed :
    ∀ {fuel : Nat} {chars rest : List Char} {value : Json},
      readValue fuel chars = some (value, rest) → value.WellFormed
  | 0, _, _, _, read => by simp [readValue] at read
  | fuel + 1, chars, rest, value, read => by
      rw [readValue] at read
      split at read
      · cases read; trivial
      · cases read; trivial
      · cases read; trivial
      · obtain ⟨_, -, result⟩ := Option.bind_eq_some_iff.mp read
        cases result
        trivial
      · split at read
        · cases read; trivial
        · obtain ⟨_, items, result⟩ := Option.bind_eq_some_iff.mp read
          cases result
          exact readItems_wellFormed items
      · split at read
        · cases read; trivial
        · obtain ⟨_, fields, result⟩ := Option.bind_eq_some_iff.mp read
          cases result
          exact readFields_wellFormed fields
      · exact readNumber_wellFormed read

theorem readItems_wellFormed :
    ∀ {fuel : Nat} {chars rest : List Char} {items : List Json},
      readItems fuel chars = some (items, rest) → ItemsWellFormed items
  | 0, _, _, _, read => by simp [readItems] at read
  | fuel + 1, chars, rest, items, read => by
      rw [readItems] at read
      obtain ⟨⟨item, tail⟩, first, others⟩ := Option.bind_eq_some_iff.mp read
      dsimp only at others
      split at others
      · cases others
        exact ⟨readValue_wellFormed first, trivial⟩
      · obtain ⟨_, later, result⟩ := Option.bind_eq_some_iff.mp others
        cases result
        exact ⟨readValue_wellFormed first, readItems_wellFormed later⟩
      · cases others

theorem readFields_wellFormed :
    ∀ {fuel : Nat} {chars rest : List Char} {fields : List (String × Json)},
      readFields fuel chars = some (fields, rest) → FieldsWellFormed fields
  | 0, _, _, _, read => by simp [readFields] at read
  | fuel + 1, chars, rest, fields, read => by
      rw [readFields] at read
      split at read
      · obtain ⟨⟨key, tail⟩, -, after⟩ := Option.bind_eq_some_iff.mp read
        dsimp only at after
        split at after
        · obtain ⟨⟨first, tail⟩, value, others⟩ :=
            Option.bind_eq_some_iff.mp after
          dsimp only at others
          split at others
          · cases others
            exact ⟨readValue_wellFormed value, trivial⟩
          · obtain ⟨_, later, result⟩ := Option.bind_eq_some_iff.mp others
            cases result
            exact ⟨readValue_wellFormed value, readFields_wellFormed later⟩
          · cases others
        · cases after
      · cases read

end

theorem parse_wellFormed {text : String} {value : Json}
    (parsed : parse text = some value) : value.WellFormed := by
  unfold parse at parsed
  split at parsed
  · rename_i read
    split_ifs at parsed
    cases parsed
    exact readValue_wellFormed read
  · cases parsed

end Json
