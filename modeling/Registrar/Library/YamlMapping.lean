import Registrar.Library.YamlScalars

/-!
# Block mappings of YAML

A block of keys at the margin, whose values are quoted scalars, plain words,
empty lists or block lists of quoted scalars.  A key is a word of letters and
underscores.
-/

namespace Yaml

inductive Value where
  | quoted (text : List Char)
  | plain (text : List Char)
  | list (items : List (List Char))
  deriving DecidableEq, Repr

abbrev Entry := List Char × Value

/-- The text behind the rest of a line that is blank or a comment. -/
def restOfLine (chars : List Char) : Option (List Char) :=
  match chars.dropWhile isWhite with
  | [] => some []
  | '#' :: comment =>
      if chars.head?.any isWhite then
        some ((comment.dropWhile fun char => !isBreak char).drop 1)
      else none
  | '\r' :: '\n' :: rest => some rest
  | char :: rest => if isBreak char then some rest else none

def isKeyChar (char : Char) : Bool :=
  char.isAlpha || char = '_'

def isWordChar (char : Char) : Bool :=
  char.isAlphanum

/-- The key that a line begins with, and the text behind its colon. -/
def readKey (chars : List Char) : Option (List Char × List Char) :=
  match chars.takeWhile isKeyChar, chars.dropWhile isKeyChar with
  | [], _ => none
  | key, ':' :: rest => some (key, rest)
  | _, _ => none

/-- The value on the line of its key. -/
def readInline (chars : List Char) : Option (Value × List Char) :=
  if chars.head?.any isWhite then
    match chars.dropWhile isWhite with
    | '"' :: rest => do
        let (text, rest) ← readQuoted rest
        let rest ← restOfLine rest
        return (.quoted text, rest)
    | '[' :: ']' :: rest => do
        let rest ← restOfLine rest
        return (.list [], rest)
    | word =>
        if word.takeWhile isWordChar = [] then none
        else do
          let rest ← restOfLine (word.dropWhile isWordChar)
          return (.plain (word.takeWhile isWordChar), rest)
  else none

/-- The text of a list item behind its dash. -/
def itemText? (chars : List Char) : Option (List Char) :=
  match chars.dropWhile (· = ' ') with
  | '-' :: ' ' :: rest => some rest
  | _ => none

def readItem (chars : List Char) : Option (List Char × List Char) :=
  match chars with
  | '"' :: rest => do
      let (text, rest) ← readQuoted rest
      let rest ← restOfLine rest
      return (text, rest)
  | _ => none

/-- The items at the start of a text, and the text behind them. -/
inductive ReadsItems : List Char → List (List Char) → List Char → Prop where
  | done {chars : List Char} (none : itemText? chars = none) :
      ReadsItems chars [] chars
  | item {chars text item rest final : List Char} {items : List (List Char)}
      (dash : itemText? chars = some text)
      (read : readItem text = some (item, rest))
      (later : ReadsItems rest items final) :
      ReadsItems chars (item :: items) final

/-- The text is a block of these entries. -/
inductive ReadsMapping : List Char → List Entry → Prop where
  | done : ReadsMapping [] []
  | inline {chars key text rest : List Char} {value : Value}
      {entries : List Entry} (isKey : readKey chars = some (key, text))
      (read : readInline text = some (value, rest))
      (later : ReadsMapping rest entries) :
      ReadsMapping chars ((key, value) :: entries)
  | list {chars key text rest final : List Char} {item : List Char}
      {items : List (List Char)} {entries : List Entry}
      (isKey : readKey chars = some (key, text))
      (ends : restOfLine text = some rest)
      (read : ReadsItems rest (item :: items) final)
      (later : ReadsMapping final entries) :
      ReadsMapping chars ((key, .list (item :: items)) :: entries)

/-- A word that can be a key. -/
def IsKey (key : List Char) : Prop :=
  key ≠ [] ∧ ∀ char ∈ key, isKeyChar char = true

theorem readKey_append {key rest : List Char} (isKey : IsKey key) :
    readKey (key ++ ':' :: rest) = some (key, rest) := by
  have colon : isKeyChar ':' = false := by decide
  unfold readKey
  rw [List.takeWhile_append_of_pos isKey.2,
    List.dropWhile_append_of_pos isKey.2,
    List.takeWhile_cons_of_neg (by simp [colon]), List.append_nil,
    List.dropWhile_cons_of_neg (by simp [colon])]
  cases key with
  | nil => exact absurd rfl isKey.1
  | cons first more => rfl

theorem restOfLine_feed (rest : List Char) :
    restOfLine ('\n' :: rest) = some rest := by
  have notWhite : isWhite '\n' = false := by decide
  have broken : isBreak '\n' = true := by decide
  simp [restOfLine, notWhite, broken]

theorem readsMapping_cons_iff {chars key : List Char} {value : Value}
    {entries : List Entry} :
    ReadsMapping chars ((key, value) :: entries) ↔
      ∃ text, readKey chars = some (key, text) ∧
        ((∃ rest, readInline text = some (value, rest) ∧
            ReadsMapping rest entries) ∨
          ∃ item items rest final, value = .list (item :: items) ∧
            restOfLine text = some rest ∧
              ReadsItems rest (item :: items) final ∧
                ReadsMapping final entries) := by
  constructor
  · intro reads
    cases reads with
    | inline found read later => exact ⟨_, found, .inl ⟨_, read, later⟩⟩
    | list found ends read later =>
        exact ⟨_, found, .inr ⟨_, _, _, _, rfl, ends, read, later⟩⟩
  · rintro ⟨text, found, ⟨rest, read, later⟩ |
      ⟨item, items, rest, final, rfl, ends, read, later⟩⟩
    · exact .inline found read later
    · exact .list found ends read later

/-- Where a line goes on behind its key, its value stands there. -/
theorem readsMapping_inline_iff {key text : List Char} {value : Value}
    {entries : List Entry} (isKey : IsKey key)
    (goesOn : restOfLine text = none) :
    ReadsMapping (key ++ ':' :: text) ((key, value) :: entries) ↔
      ∃ rest, readInline text = some (value, rest) ∧
        ReadsMapping rest entries := by
  rw [readsMapping_cons_iff]
  constructor
  · rintro ⟨text, found, reads⟩
    rw [readKey_append isKey] at found
    cases found
    rcases reads with inline | ⟨_, _, _, _, -, ends, -⟩
    · exact inline
    · rw [goesOn] at ends
      cases ends
  · exact fun inline => ⟨text, readKey_append isKey, .inl inline⟩

/-- A quoted scalar is read by the reader of quoted scalars. -/
theorem readsMapping_quoted {key written text rest : List Char}
    {entries : List Entry} {readable : Prop} (isKey : IsKey key)
    (reads : ∀ after, readQuoted (written ++ '"' :: '\n' :: rest) =
      some (text, after) ↔ readable ∧ after = '\n' :: rest) :
    ReadsMapping (key ++ ':' :: ' ' :: '"' :: (written ++ '"' :: '\n' :: rest))
        ((key, .quoted text) :: entries) ↔
      readable ∧ ReadsMapping rest entries := by
  have space : isWhite ' ' = true := by decide
  have quote : isWhite '"' = false := by decide
  have unbroken : isBreak '"' = false := by decide
  rw [readsMapping_inline_iff isKey
    (by simp [restOfLine, space, quote, unbroken])]
  have inline : readInline
      (' ' :: '"' :: (written ++ '"' :: '\n' :: rest)) =
        (readQuoted (written ++ '"' :: '\n' :: rest)).bind fun (text, after) =>
          (restOfLine after).bind fun rest => some (.quoted text, rest) := by
    simp [readInline, space, quote]
  rw [inline]
  constructor
  · rintro ⟨after, found, later⟩
    obtain ⟨⟨value, behind⟩, read, isRest⟩ := Option.bind_eq_some_iff.mp found
    obtain ⟨final, ends, same⟩ := Option.bind_eq_some_iff.mp isRest
    cases same
    obtain ⟨readable, rfl⟩ := (reads behind).mp read
    rw [restOfLine_feed] at ends
    cases ends
    exact ⟨readable, later⟩
  · rintro ⟨readable, later⟩
    refine ⟨rest, ?_, later⟩
    rw [(reads _).mpr ⟨readable, rfl⟩, Option.bind_some]
    dsimp only
    rw [restOfLine_feed]
    rfl

theorem readsMapping_raw_iff {key text rest : List Char}
    {entries : List Entry} (isKey : IsKey key) :
    ReadsMapping (key ++ ':' :: ' ' :: '"' :: (text ++ '"' :: '\n' :: rest))
        ((key, .quoted text) :: entries) ↔
      (∀ char ∈ text, isQuotable char = true) ∧ ReadsMapping rest entries :=
  readsMapping_quoted isKey fun _ => readQuoted_raw_iff

theorem readsMapping_escaped_iff {key text rest : List Char}
    {entries : List Entry} (isKey : IsKey key) :
    ReadsMapping (key ++ ':' :: ' ' :: '"' ::
        (text.flatMap escape ++ '"' :: '\n' :: rest))
        ((key, .quoted text) :: entries) ↔
      (∀ char ∈ text, isInLine char = true) ∧ ReadsMapping rest entries :=
  readsMapping_quoted isKey fun _ => readQuoted_escaped_iff

theorem readsMapping_plain_iff {key word rest : List Char}
    {entries : List Entry} (isKey : IsKey key) (nonempty : word ≠ [])
    (plain : ∀ char ∈ word, isWordChar char = true) :
    ReadsMapping (key ++ ':' :: ' ' :: (word ++ '\n' :: rest))
        ((key, .plain word) :: entries) ↔ ReadsMapping rest entries := by
  have space : isWhite ' ' = true := by decide
  have feed : isWordChar '\n' = false := by decide
  have whole : (word ++ '\n' :: rest).takeWhile isWordChar = word ∧
      (word ++ '\n' :: rest).dropWhile isWordChar = '\n' :: rest := by
    rw [List.takeWhile_append_of_pos plain, List.dropWhile_append_of_pos plain]
    simp [feed]
  obtain ⟨first, more, rfl⟩ := List.exists_cons_of_ne_nil nonempty
  have other {char : Char} (notWord : isWordChar char = false) :
      first ≠ char := by
    rintro rfl
    exact absurd (plain first List.mem_cons_self) (by simp [notWord])
  have notWhite : isWhite first = false := by
    simp [isWhite, other (by decide : isWordChar ' ' = false),
      other (by decide : isWordChar '\t' = false)]
  have unbroken : isBreak first = false := by
    simp [isBreak, other (by decide : isWordChar '\n' = false),
      other (by decide : isWordChar '\r' = false)]
  have goesOn : restOfLine (' ' :: (first :: more ++ '\n' :: rest)) = none := by
    simp [restOfLine, space, notWhite, unbroken,
      other (by decide : isWordChar '#' = false),
      other (by decide : isWordChar '\r' = false)]
  have inline : readInline (' ' :: (first :: more ++ '\n' :: rest)) =
      some (.plain (first :: more), rest) := by
    rw [List.cons_append] at whole ⊢
    simp [readInline, space, notWhite, whole, restOfLine_feed,
      other (by decide : isWordChar '"' = false),
      other (by decide : isWordChar '[' = false)]
  rw [readsMapping_inline_iff isKey goesOn, inline]
  constructor
  · rintro ⟨after, same, later⟩
    cases same
    exact later
  · exact fun later => ⟨rest, rfl, later⟩

theorem readsMapping_empty_iff {key rest : List Char} {entries : List Entry}
    (isKey : IsKey key) :
    ReadsMapping (key ++ ':' :: ' ' :: '[' :: ']' :: '\n' :: rest)
        ((key, .list []) :: entries) ↔ ReadsMapping rest entries := by
  have space : isWhite ' ' = true := by decide
  have bracket : isWhite '[' = false := by decide
  have unbroken : isBreak '[' = false := by decide
  rw [readsMapping_inline_iff isKey
    (by simp [restOfLine, space, bracket, unbroken])]
  have inline : readInline (' ' :: '[' :: ']' :: '\n' :: rest) =
      some (.list [], rest) := by
    simp [readInline, space, bracket, restOfLine_feed]
  rw [inline]
  constructor
  · rintro ⟨after, same, later⟩
    cases same
    exact later
  · exact fun later => ⟨rest, rfl, later⟩

/-- A list item as it is written, with its escapes. -/
def itemLine (item : List Char) : List Char :=
  ' ' :: ' ' :: '-' :: ' ' :: '"' :: (item.flatMap escape ++ ['"', '\n'])

theorem itemText?_itemLine (item rest : List Char) :
    itemText? (itemLine item ++ rest) =
      some ('"' :: (item.flatMap escape ++ '"' :: '\n' :: rest)) := by
  simp [itemText?, itemLine]

theorem readsItems_iff {items : List (List Char)} {rest final : List Char}
    (noItem : itemText? rest = none) :
    ReadsItems (items.flatMap itemLine ++ rest) items final ↔
      (∀ item ∈ items, ∀ char ∈ item, isInLine char = true) ∧
        final = rest := by
  induction items with
  | nil =>
      constructor
      · intro reads
        cases reads with
        | done none => exact ⟨by simp, rfl⟩
      · rintro ⟨-, rfl⟩
        exact .done noItem
  | cons item items induction =>
      rw [List.flatMap_cons, List.append_assoc]
      have isItem (after : List Char) :
          readItem ('"' :: (item.flatMap escape ++ '"' :: '\n' ::
            (items.flatMap itemLine ++ rest))) = some (item, after) ↔
          (∀ char ∈ item, isInLine char = true) ∧
            after = items.flatMap itemLine ++ rest := by
        have unfolded : readItem ('"' :: (item.flatMap escape ++ '"' :: '\n' ::
            (items.flatMap itemLine ++ rest))) =
              (readQuoted (item.flatMap escape ++ '"' :: '\n' ::
                (items.flatMap itemLine ++ rest))).bind fun (text, after) =>
                  (restOfLine after).bind fun rest => some (text, rest) := rfl
        rw [unfolded, Option.bind_eq_some_iff]
        constructor
        · rintro ⟨⟨value, behind⟩, read, isRest⟩
          obtain ⟨final, ends, same⟩ := Option.bind_eq_some_iff.mp isRest
          cases same
          obtain ⟨inLine, rfl⟩ := readQuoted_escaped_iff.mp read
          rw [restOfLine_feed] at ends
          cases ends
          exact ⟨inLine, rfl⟩
        · rintro ⟨inLine, rfl⟩
          refine ⟨(item, _), readQuoted_escaped_iff.mpr ⟨inLine, rfl⟩, ?_⟩
          dsimp only
          rw [restOfLine_feed]
          rfl
      constructor
      · intro reads
        cases reads with
        | item dash read later =>
            rw [itemText?_itemLine] at dash
            cases dash
            obtain ⟨inLine, rfl⟩ := (isItem _).mp read
            obtain ⟨others, isFinal⟩ := induction.mp later
            exact ⟨List.forall_mem_cons.mpr ⟨inLine, others⟩, isFinal⟩
      · rintro ⟨inLine, isFinal⟩
        obtain ⟨here, others⟩ := List.forall_mem_cons.mp inLine
        exact .item (itemText?_itemLine _ _) ((isItem _).mpr ⟨here, rfl⟩)
          (induction.mpr ⟨others, isFinal⟩)

theorem readsMapping_list_iff {key first rest : List Char}
    {items : List (List Char)} {entries : List Entry} (isKey : IsKey key)
    (noItem : itemText? rest = none) :
    ReadsMapping (key ++ ':' :: '\n' ::
        ((first :: items).flatMap itemLine ++ rest))
        ((key, .list (first :: items)) :: entries) ↔
      (∀ item ∈ first :: items, ∀ char ∈ item, isInLine char = true) ∧
        ReadsMapping rest entries := by
  rw [readsMapping_cons_iff]
  constructor
  · rintro ⟨text, found, reads⟩
    rw [readKey_append isKey] at found
    cases found
    rcases reads with ⟨_, read, -⟩ | ⟨_, _, _, _, same, ends, read, later⟩
    · exact absurd read (by simp [readInline, isWhite])
    · cases same
      rw [restOfLine_feed] at ends
      cases ends
      obtain ⟨inLine, rfl⟩ := (readsItems_iff noItem).mp read
      exact ⟨inLine, later⟩
  · rintro ⟨inLine, later⟩
    exact ⟨_, readKey_append isKey, .inr ⟨first, items, _, rest, rfl,
      restOfLine_feed _, (readsItems_iff noItem).mpr ⟨inLine, rfl⟩, later⟩⟩

end Yaml
