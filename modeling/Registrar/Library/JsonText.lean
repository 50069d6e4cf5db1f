import Registrar.Library.JsonRead

/-!
# Compact text is read back

A value is read back from the text that `JSON.stringify` writes for it, so no
two values share their text.
-/

namespace Json

/-- The first character of a value's text is neither white space nor the end
of an array. -/
theorem text_head {value : Json} (wellFormed : value.WellFormed) :
    ∃ first rest, text value = first :: rest ∧ isSpace first = false ∧
      first ≠ ']' := by
  cases value with
  | null => exact ⟨_, _, rfl, rfl, by decide⟩
  | bool value => cases value <;> exact ⟨_, _, rfl, rfl, by decide⟩
  | string value => exact ⟨_, _, rfl, rfl, by decide⟩
  | array items => exact ⟨_, _, rfl, rfl, by decide⟩
  | object fields => exact ⟨_, _, rfl, rfl, by decide⟩
  | number literal =>
      obtain ⟨first, rest, isText, solid, other⟩ :=
        @indented_head 0 (.number literal) wellFormed
      exact ⟨first, rest, isText, solid, other⟩

theorem skipSpace_itemsText {item : Json} (wellFormed : item.WellFormed)
    (items : List Json) (rest : List Char) :
    ∃ first others, first ≠ ']' ∧
      skipSpace (itemsText (item :: items) ++ rest) = first :: others := by
  obtain ⟨first, others, isText, solid, other⟩ := text_head wellFormed
  cases items with
  | nil =>
      rw [itemsText, isText, List.cons_append, skipSpace_cons solid]
      exact ⟨first, _, other, rfl⟩
  | cons next items =>
      rw [itemsText, isText, List.cons_append, List.cons_append,
        skipSpace_cons solid]
      exact ⟨first, _, other, rfl⟩

theorem skipSpace_fieldsText (field : String × Json)
    (fields : List (String × Json)) (rest : List Char) :
    ∃ others, skipSpace (fieldsText (field :: fields) ++ rest) =
      '"' :: others := by
  obtain ⟨key, value⟩ := field
  cases fields <;> simp [fieldsText, quote]

mutual

theorem readValue_text :
    ∀ (fuel : Nat) (value : Json) (rest : List Char),
      value.WellFormed → Ends rest → 2 * (text value).length ≤ fuel →
      readValue fuel (text value ++ rest) = some (value, rest)
  | 0, value, rest, wellFormed, _, enough => by
      obtain ⟨first, others, isText, -, -⟩ := text_head wellFormed
      rw [isText, List.length_cons] at enough
      omega
  | fuel + 1, value, rest, wellFormed, ends, enough => by
      cases value with
      | null => rfl
      | bool value => cases value <;> rfl
      | number literal =>
          exact readValue_number wellFormed.1 wellFormed.2 ends
      | string value =>
          rw [text, quote_append, readValue, skipSpace_cons rfl]
          simp [readString_quoted]
      | array items =>
          cases items with
          | nil => rfl
          | cons item items =>
              have read := readItems_text fuel item items rest wellFormed
                (by simp [text] at enough; omega)
              obtain ⟨first, others, other, skipped⟩ :=
                skipSpace_itemsText wellFormed.1 items (']' :: rest)
              rw [text, List.cons_append, List.append_assoc,
                List.singleton_append, readValue, skipSpace_cons rfl]
              simp [skipped, other, read]
      | object fields =>
          cases fields with
          | nil => rfl
          | cons field fields =>
              have read := readFields_text fuel field fields rest wellFormed
                (by simp [text] at enough; omega)
              obtain ⟨others, skipped⟩ :=
                skipSpace_fieldsText field fields ('}' :: rest)
              rw [text, List.cons_append, List.append_assoc,
                List.singleton_append, readValue, skipSpace_cons rfl]
              simp [skipped, read]

theorem readItems_text :
    ∀ (fuel : Nat) (item : Json) (items : List Json) (rest : List Char),
      ItemsWellFormed (item :: items) →
      2 * (itemsText (item :: items)).length + 1 ≤ fuel →
      readItems fuel (itemsText (item :: items) ++ ']' :: rest) =
        some (item :: items, rest)
  | 0, _, _, _, _, enough => by omega
  | fuel + 1, item, items, rest, wellFormed, enough => by
      cases items with
      | nil =>
          have read := readValue_text fuel item (']' :: rest) wellFormed.1
            (ends_cons rfl) (by simp [itemsText] at enough; omega)
          rw [itemsText, readItems, read]
          simp
      | cons next items =>
          have read := readValue_text fuel item
            (',' :: (itemsText (next :: items) ++ ']' :: rest)) wellFormed.1
            (ends_cons rfl) (by simp [itemsText] at enough; omega)
          have others := readItems_text fuel next items rest wellFormed.2
            (by simp [itemsText] at enough ⊢; omega)
          rw [itemsText, List.append_assoc, List.cons_append, readItems, read]
          simp [others]

theorem readFields_text :
    ∀ (fuel : Nat) (field : String × Json) (fields : List (String × Json))
      (rest : List Char), FieldsWellFormed (field :: fields) →
      2 * (fieldsText (field :: fields)).length + 1 ≤ fuel →
      readFields fuel (fieldsText (field :: fields) ++ '}' :: rest) =
        some (field :: fields, rest)
  | 0, _, _, _, _, enough => by omega
  | fuel + 1, (key, value), fields, rest, wellFormed, enough => by
      cases fields with
      | nil =>
          have read := readValue_text fuel value ('}' :: rest) wellFormed.1
            (ends_cons rfl) (by simp [fieldsText] at enough; omega)
          rw [fieldsText, List.append_assoc, List.cons_append, quote_append,
            readFields, skipSpace_cons rfl]
          simp [readString_quoted, read]
      | cons next fields =>
          have read := readValue_text fuel value
            (',' :: (fieldsText (next :: fields) ++ '}' :: rest))
            wellFormed.1 (ends_cons rfl)
            (by simp [fieldsText] at enough; omega)
          have others := readFields_text fuel next fields rest wellFormed.2
            (by simp [fieldsText] at enough ⊢; omega)
          rw [fieldsText, List.append_assoc, List.cons_append,
            List.append_assoc, List.cons_append, quote_append, readFields,
            skipSpace_cons rfl]
          simp [readString_quoted, read, others]

end

theorem parse_stringify {value : Json} (wellFormed : value.WellFormed) :
    parse value.stringify = some value := by
  have length : value.stringify.length = (text value).length := by
    simp [stringify]
  have read := readValue_text (2 * value.stringify.length + 1) value []
    wellFormed (by simp [Ends]) (by omega)
  rw [List.append_nil] at read
  rw [parse, stringify, String.toList_ofList, ← stringify, read]
  rfl

theorem stringify_injective {left right : Json}
    (isLeft : left.WellFormed) (isRight : right.WellFormed)
    (same : left.stringify = right.stringify) : left = right := by
  have read := parse_stringify isLeft
  rw [same, parse_stringify isRight] at read
  exact (Option.some.inj read).symm

end Json
