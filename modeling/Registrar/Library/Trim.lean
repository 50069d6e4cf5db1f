import Mathlib.Data.List.DropRight

/-!
# Trimming

Removing the characters of a class from both ends of a string.
-/

namespace Trim

def trimChars {Symbol : Type*} (isSpace : Symbol → Bool)
    (chars : List Symbol) : List Symbol :=
  (chars.dropWhile isSpace).rdropWhile isSpace

variable (isSpace : Char → Bool)

def trim (text : String) : String :=
  String.ofList (trimChars isSpace text.toList)

private theorem dropWhile_trimChars (chars : List Char) :
    (trimChars isSpace chars).dropWhile isSpace = trimChars isSpace chars := by
  rw [List.dropWhile_eq_self_iff]
  intro nonempty
  have front := List.rdropWhile_prefix isSpace (chars.dropWhile isSpace)
  have present : 0 < (chars.dropWhile isSpace).length :=
    Nat.lt_of_lt_of_le nonempty front.length_le
  have first := List.dropWhile_get_zero_not isSpace chars present
  have same := front.getElem nonempty
  simp only [List.get_eq_getElem] at first ⊢
  rw [show (trimChars isSpace chars)[0] =
    (chars.dropWhile isSpace)[0] from same]
  exact first

/-- A text whose ends are outside the class keeps all its characters. -/
theorem trimChars_eq_self {chars : List Char}
    (front : ∀ char ∈ chars.head?, isSpace char = false)
    (back : ∀ char ∈ chars.getLast?, isSpace char = false) :
    trimChars isSpace chars = chars := by
  have dropped : chars.dropWhile isSpace = chars := by
    rw [List.dropWhile_eq_self_iff]
    intro nonempty
    have first := front chars[0] (by
      rw [List.head?_eq_getElem?, List.getElem?_eq_getElem nonempty]
      rfl)
    simp [first]
  have kept : chars.rdropWhile isSpace = chars := by
    rw [List.rdropWhile_eq_self_iff]
    intro nonempty
    have last := back (chars.getLast nonempty)
      (List.getLast?_eq_some_getLast nonempty)
    simp [last]
  rw [trimChars, dropped, kept]

/-- Trimming takes what a text of the class surrounds. -/
theorem trimChars_surrounded {before chars after : List Char}
    (front : ∀ char ∈ before, isSpace char = true)
    (back : ∀ char ∈ after, isSpace char = true)
    (same : trimChars isSpace chars = chars) :
    trimChars isSpace (before ++ chars ++ after) = chars := by
  have late (text : List Char) :
      (text ++ after).rdropWhile isSpace = text.rdropWhile isSpace := by
    rw [List.rdropWhile, List.reverse_append,
      List.dropWhile_append_of_pos (by simpa using back)]
    rfl
  rw [trimChars, List.append_assoc, List.dropWhile_append_of_pos front,
    List.dropWhile_append]
  split
  · rename_i isNone
    rw [List.dropWhile_eq_nil_iff.mpr back, ← same, trimChars,
      List.isEmpty_iff.mp isNone]
  · rw [late]
    exact same

theorem trimChars_sublist (chars : List Char) :
    (trimChars isSpace chars).Sublist chars :=
  (List.rdropWhile_prefix _ _).sublist.trans (List.dropWhile_suffix _).sublist

/-- Trimming takes a character of the class away from in front. -/
theorem count_trimChars_lt_of_head? {chars : List Char} {char : Char}
    (front : chars.head? = some char) (space : isSpace char = true) :
    (trimChars isSpace chars).count char < chars.count char := by
  cases chars with
  | nil => cases front
  | cons first rest =>
      obtain rfl := Option.some_inj.mp front
      have same :
          trimChars isSpace (first :: rest) = trimChars isSpace rest := by
        rw [trimChars, List.dropWhile_cons_of_pos space]
        rfl
      have fewer := (trimChars_sublist isSpace rest).count_le first
      rw [same, List.count_cons_self]
      omega

/-- Trimming takes a character of the class away from the end. -/
theorem count_trimChars_lt_of_getLast? {chars : List Char} {char : Char}
    (back : chars.getLast? = some char) (space : isSpace char = true) :
    (trimChars isSpace chars).count char < chars.count char := by
  obtain ⟨front, rfl⟩ := List.getLast?_eq_some_iff.mp back
  have kept : (trimChars isSpace (front ++ [char])).Sublist front := by
    rw [trimChars, List.dropWhile_append]
    split
    · rw [List.dropWhile_cons_of_pos space]
      exact List.nil_sublist front
    · rw [List.rdropWhile_concat_pos _ _ _ space]
      exact trimChars_sublist isSpace front
  have fewer := kept.count_le char
  rw [List.count_append, List.count_singleton_self]
  omega

/-- A string with a character outside the class does not vanish. -/
theorem trim_ne_empty {text : String} {char : Char}
    (member : char ∈ text.toList) (kept : isSpace char = false) :
    trim isSpace text ≠ "" := by
  intro vanished
  have noneLeft : trimChars isSpace text.toList = [] := by
    rw [trim, ← String.ofList_nil] at vanished
    exact String.ofList_injective vanished
  have allSpace : ∀ other ∈ text.toList.dropWhile isSpace,
      isSpace other = true :=
    List.rdropWhile_eq_nil_iff.mp noneLeft
  have noFront : text.toList.dropWhile isSpace = [] := by
    by_contra front
    have first := List.head_dropWhile_not isSpace front
    rw [allSpace _ (List.head_mem front)] at first
    cases first
  have spaces := List.dropWhile_eq_nil_iff.mp noFront char member
  rw [kept] at spaces
  cases spaces

theorem mem_of_mem_trim {text : String} {char : Char}
    (member : char ∈ (trim isSpace text).toList) : char ∈ text.toList := by
  unfold trim trimChars at member
  rw [String.toList_ofList] at member
  have kept := (List.rdropWhile_prefix isSpace _).subset member
  exact (List.dropWhile_suffix isSpace).subset kept

theorem trim_trim (text : String) :
    trim isSpace (trim isSpace text) = trim isSpace text := by
  unfold trim
  rw [String.toList_ofList]
  conv_lhs => rw [trimChars, dropWhile_trimChars]
  rw [trimChars, List.rdropWhile_idempotent]

theorem trim_eq_self_of_ends {text : String}
    (front : ∀ char ∈ text.toList.head?, isSpace char = false)
    (back : ∀ char ∈ text.toList.getLast?, isSpace char = false) :
    trim isSpace text = text := by
  rw [trim, trimChars_eq_self isSpace front back, String.ofList_toList]

theorem trim_eq_self {text : String}
    (solid : ∀ char ∈ text.toList, isSpace char = false) :
    trim isSpace text = text :=
  trim_eq_self_of_ends isSpace
    (fun char first => solid char (List.mem_of_mem_head? first))
    (fun char last => solid char (List.mem_of_getLast? last))

end Trim
