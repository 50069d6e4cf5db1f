import Registrar.Library.Json

/-!
# The strings of a JSON value

A walk that stops below a limit and passes over the fields of some names meets
a part of the strings of a value.  Together with the strings that it misses
they are all of them, names of fields included.
-/

namespace Json

mutual

/-- Every string of a value, the names of its fields included. -/
def strings : Json → List String
  | null => []
  | bool _ => []
  | number _ => []
  | string value => [value]
  | array items => itemsStrings items
  | object fields => fieldsStrings fields

def itemsStrings : List Json → List String
  | [] => []
  | item :: rest => strings item ++ itemsStrings rest

def fieldsStrings : List (String × Json) → List String
  | [] => []
  | (key, value) :: rest => key :: (strings value ++ fieldsStrings rest)

end

variable (limit : Nat) (skips : String → Bool)

mutual

/-- The strings that a walk meets from this depth on. -/
def walk : Nat → Json → List String
  | _, null => []
  | _, bool _ => []
  | _, number _ => []
  | depth, string value => if limit < depth then [] else [value]
  | depth, array items =>
      if limit < depth then [] else walkItems (depth + 1) items
  | depth, object fields =>
      if limit < depth then [] else walkFields (depth + 1) fields

def walkItems : Nat → List Json → List String
  | _, [] => []
  | depth, item :: rest => walk depth item ++ walkItems depth rest

def walkFields : Nat → List (String × Json) → List String
  | _, [] => []
  | depth, (key, value) :: rest =>
      (if skips key then [] else walk depth value) ++ walkFields depth rest

end

mutual

/-- The strings that a walk from this depth misses: the names of fields, what
lies too deep, and what has a name that is passed over. -/
def missed : Nat → Json → List String
  | _, null => []
  | _, bool _ => []
  | _, number _ => []
  | depth, string value => if limit < depth then [value] else []
  | depth, array items =>
      if limit < depth then itemsStrings items
      else missedItems (depth + 1) items
  | depth, object fields =>
      if limit < depth then fieldsStrings fields
      else missedFields (depth + 1) fields

def missedItems : Nat → List Json → List String
  | _, [] => []
  | depth, item :: rest => missed depth item ++ missedItems depth rest

def missedFields : Nat → List (String × Json) → List String
  | _, [] => []
  | depth, (key, value) :: rest =>
      key :: ((if skips key then strings value else missed depth value) ++
        missedFields depth rest)

end

variable {limit : Nat} {skips : String → Bool}

mutual

/-- Every string is met or missed. -/
theorem mem_strings_iff (depth : Nat) (value : Json) (text : String) :
    text ∈ strings value ↔
      text ∈ walk limit skips depth value ∨
        text ∈ missed limit skips depth value := by
  cases value with
  | null => simp [strings, walk, missed]
  | bool value => simp [strings, walk, missed]
  | number literal => simp [strings, walk, missed]
  | string value =>
      simp only [strings, walk, missed]
      split_ifs <;> simp
  | array items =>
      simp only [strings, walk, missed]
      split_ifs with deep
      · simp
      · exact mem_itemsStrings_iff (depth + 1) items text
  | object fields =>
      simp only [strings, walk, missed]
      split_ifs with deep
      · simp
      · exact mem_fieldsStrings_iff (depth + 1) fields text

theorem mem_itemsStrings_iff (depth : Nat) (items : List Json)
    (text : String) :
    text ∈ itemsStrings items ↔
      text ∈ walkItems limit skips depth items ∨
        text ∈ missedItems limit skips depth items := by
  cases items with
  | nil => simp [itemsStrings, walkItems, missedItems]
  | cons item rest =>
      simp only [itemsStrings, walkItems, missedItems, List.mem_append]
      rw [mem_strings_iff depth item text,
        mem_itemsStrings_iff depth rest text]
      exact or_or_or_comm

theorem mem_fieldsStrings_iff (depth : Nat) (fields : List (String × Json))
    (text : String) :
    text ∈ fieldsStrings fields ↔
      text ∈ walkFields limit skips depth fields ∨
        text ∈ missedFields limit skips depth fields := by
  cases fields with
  | nil => simp [fieldsStrings, walkFields, missedFields]
  | cons field rest =>
      obtain ⟨key, value⟩ := field
      simp only [fieldsStrings, walkFields, missedFields, List.mem_append,
        List.mem_cons]
      rw [mem_fieldsStrings_iff depth rest text]
      have ofValue : text ∈ strings value ↔
          text ∈ (if skips key then [] else walk limit skips depth value) ∨
            text ∈ (if skips key then strings value
              else missed limit skips depth value) := by
        split_ifs with skipped
        · simp
        · exact mem_strings_iff depth value text
      rw [ofValue]
      tauto

end

/-- The value with the fields of these names emptied. -/
def blank (names : List String) : Json → Json
  | object fields =>
      object (fields.map fun field =>
        if field.1 ∈ names then (field.1, null) else field)
  | value => value

/-- A walk that passes over the names does not see that they are blank. -/
theorem walkFields_blank {names : List String}
    (skipped : ∀ name ∈ names, skips name = true) (depth : Nat)
    (fields : List (String × Json)) :
    walkFields limit skips depth
        (fields.map fun field =>
          if field.1 ∈ names then (field.1, null) else field) =
      walkFields limit skips depth fields := by
  induction fields with
  | nil => rfl
  | cons field rest induction =>
      obtain ⟨key, value⟩ := field
      rw [List.map_cons]
      by_cases member : key ∈ names
      · rw [if_pos member, walkFields, walkFields, induction,
          skipped key member]
        rfl
      · rw [if_neg member, walkFields, walkFields, induction]

theorem walk_blank {names : List String}
    (skipped : ∀ name ∈ names, skips name = true) (depth : Nat)
    (value : Json) :
    walk limit skips depth (blank names value) =
      walk limit skips depth value := by
  cases value with
  | object fields =>
      rw [blank, walk, walk, walkFields_blank skipped]
  | _ => rfl

end Json
