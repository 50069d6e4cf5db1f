import Mathlib.Data.List.Basic

/-!
# Percent decoding

`decodeURIComponent` replaces every escaped UTF-8 sequence by its character and
throws where an escape is malformed.
-/

namespace PercentCoding

def hexValue? (digit : Char) : Option Nat :=
  let code := digit.toNat
  if 48 ≤ code ∧ code ≤ 57 then some (code - 48)
  else if 65 ≤ code ∧ code ≤ 70 then some (code - 55)
  else if 97 ≤ code ∧ code ≤ 102 then some (code - 87)
  else none

/-- The octet that the text begins with, if it begins with an escape. -/
def octet? : List Char → Option Nat
  | '%' :: high :: low :: _ => do
      let high ← hexValue? high
      let low ← hexValue? low
      return 16 * high + low
  | _ => none

/-- How many continuation octets follow a first octet, the mark on it and the
least code that needs so many. -/
def leader? (first : Nat) : Option (Nat × Nat × Nat) :=
  if first < 0x80 then some (0, 0, 0)
  else if first < 0xc0 then none
  else if first < 0xe0 then some (1, 0xc0, 0x80)
  else if first < 0xf0 then some (2, 0xe0, 0x800)
  else if first < 0xf8 then some (3, 0xf0, 0x10000)
  else none

/-- Append the bits of the continuation octets to a code. -/
def continue? : Nat → Nat → List Char → Option Nat
  | 0, code, _ => some code
  | count + 1, code, text => do
      let octet ← octet? text
      if 0x80 ≤ octet ∧ octet ≤ 0xbf then
        continue? count (0x40 * code + (octet - 0x80)) (text.drop 3)
      else none

/-- The character with this code, unless a shorter sequence encodes it. -/
def scalar? (code least : Nat) : Option Char :=
  if least ≤ code ∧ code.isValidChar then some (Char.ofNat code) else none

/-- The character that the text begins with as an escaped sequence, and the
length of the sequence. -/
def escape? (text : List Char) : Option (Char × Nat) := do
  let first ← octet? text
  let (count, mark, least) ← leader? first
  let code ← continue? count (first - mark) (text.drop 3)
  let char ← scalar? code least
  return (char, 3 * (count + 1))

/-- The characters of the text, after the given number of them; none where an
escape is malformed. -/
def decodeAfter : Nat → List Char → Option (List Char)
  | _, [] => some []
  | skipped + 1, _ :: rest => decodeAfter skipped rest
  | 0, char :: rest =>
      if char = '%' then do
        let (spelled, length) ← escape? (char :: rest)
        let others ← decodeAfter (length - 1) rest
        return spelled :: others
      else do
        let others ← decodeAfter 0 rest
        return char :: others

def decodeURIComponent (text : List Char) : Option (List Char) :=
  decodeAfter 0 text

/-- The text after a number of characters with every well-formed escape
replaced; a malformed one stays as it is. -/
def decodeEachAfter : Nat → List Char → List Char
  | _, [] => []
  | skipped + 1, _ :: rest => decodeEachAfter skipped rest
  | 0, char :: rest =>
      match escape? (char :: rest) with
      | some (spelled, length) => spelled :: decodeEachAfter (length - 1) rest
      | none => char :: decodeEachAfter 0 rest

def decodeEach (text : List Char) : List Char :=
  decodeEachAfter 0 text

theorem escape?_eq_none {char : Char} (plain : char ≠ '%')
    (rest : List Char) : escape? (char :: rest) = none := by
  have absent : octet? (char :: rest) = none := by
    unfold octet?
    split
    · rename_i isText
      exact absurd (List.cons_eq_cons.mp isText).1 plain
    · rfl
  rw [escape?, absent]
  rfl

/-- Where the whole text decodes every escape in it is well formed. -/
theorem decodeEachAfter_eq {skipped : Nat} {text decoded : List Char}
    (isDecoded : decodeAfter skipped text = some decoded) :
    decodeEachAfter skipped text = decoded := by
  induction text generalizing skipped decoded with
  | nil =>
      unfold decodeAfter at isDecoded
      exact Option.some.inj isDecoded
  | cons char rest induction =>
      cases skipped with
      | succ skipped => exact induction isDecoded
      | zero =>
          unfold decodeAfter at isDecoded
          unfold decodeEachAfter
          split_ifs at isDecoded with escaped
          · obtain ⟨⟨spelled, length⟩, isEscape, afterEscape⟩ :=
              Option.bind_eq_some_iff.mp isDecoded
            obtain ⟨others, isOthers, returned⟩ :=
              Option.bind_eq_some_iff.mp afterEscape
            cases returned
            rw [isEscape]
            dsimp only
            rw [induction isOthers]
          · obtain ⟨others, isOthers, returned⟩ :=
              Option.bind_eq_some_iff.mp isDecoded
            cases returned
            rw [escape?_eq_none escaped]
            dsimp only
            rw [induction isOthers]

theorem octet?_append {front : List Char} {octet : Nat}
    (read : octet? front = some octet) (back : List Char) :
    octet? (front ++ back) = some octet ∧ 3 ≤ front.length := by
  unfold octet? at read
  split at read
  · exact ⟨read, by simp⟩
  · cases read

theorem continue?_append {count code value : Nat} {front : List Char}
    (read : continue? count code front = some value) (back : List Char) :
    continue? count code (front ++ back) = some value ∧
      3 * count ≤ front.length := by
  induction count generalizing code front with
  | zero => exact ⟨read, by omega⟩
  | succ count induction =>
      unfold continue? at read ⊢
      obtain ⟨octet, isOctet, afterOctet⟩ := Option.bind_eq_some_iff.mp read
      obtain ⟨longer, enough⟩ := octet?_append isOctet back
      rw [longer]
      dsimp only [Option.bind_eq_bind, Option.bind_some]
      split_ifs at afterOctet ⊢ with inRange
      · obtain ⟨same, rest⟩ := induction afterOctet
        rw [List.drop_append_of_le_length enough]
        rw [List.length_drop] at rest
        exact ⟨same, by omega⟩

/-- An escaped sequence is read whatever follows it. -/
theorem escape?_append {front : List Char} {char : Char} {length : Nat}
    (read : escape? front = some (char, length)) (back : List Char) :
    escape? (front ++ back) = some (char, length) ∧
      0 < length ∧ length ≤ front.length := by
  unfold escape? at read ⊢
  obtain ⟨first, isFirst, afterFirst⟩ := Option.bind_eq_some_iff.mp read
  obtain ⟨longer, enough⟩ := octet?_append isFirst back
  obtain ⟨⟨count, mark, least⟩, leads, afterLeader⟩ :=
    Option.bind_eq_some_iff.mp afterFirst
  obtain ⟨code, isCode, afterCode⟩ := Option.bind_eq_some_iff.mp afterLeader
  obtain ⟨same, rest⟩ := continue?_append isCode back
  rw [List.length_drop] at rest
  obtain ⟨spelled, isChar, returned⟩ := Option.bind_eq_some_iff.mp afterCode
  cases returned
  rw [longer, List.drop_append_of_le_length enough]
  simp only [Option.bind_eq_bind, Option.bind_some, leads, same, isChar]
  exact ⟨rfl, by omega, by omega⟩

/-- Text that decodes on its own decodes so before any other text. -/
theorem decodeAfter_append {skipped : Nat} {front decoded : List Char}
    (isDecoded : decodeAfter skipped front = some decoded)
    (within : skipped ≤ front.length) (back : List Char) :
    decodeAfter skipped (front ++ back) =
      (decodeURIComponent back).map (decoded ++ ·) := by
  induction front generalizing skipped decoded with
  | nil =>
      have none : skipped = 0 := by simpa using within
      subst none
      cases isDecoded
      simp [decodeURIComponent]
  | cons char rest induction =>
      cases skipped with
      | succ skipped =>
          exact induction isDecoded (by simpa using within)
      | zero =>
          unfold decodeAfter at isDecoded
          rw [List.cons_append]
          unfold decodeAfter
          split_ifs at isDecoded ⊢ with escaped
          · obtain ⟨⟨spelled, length⟩, isEscape, afterEscape⟩ :=
              Option.bind_eq_some_iff.mp isDecoded
            obtain ⟨others, isOthers, returned⟩ :=
              Option.bind_eq_some_iff.mp afterEscape
            cases returned
            obtain ⟨longer, positive, enough⟩ := escape?_append isEscape back
            rw [List.cons_append] at longer
            rw [List.length_cons] at enough
            rw [longer]
            dsimp only [Option.bind_eq_bind, Option.bind_some]
            rw [induction isOthers (by omega)]
            cases decodeURIComponent back <;> rfl
          · obtain ⟨others, isOthers, returned⟩ :=
              Option.bind_eq_some_iff.mp isDecoded
            cases returned
            rw [induction isOthers (Nat.zero_le _)]
            cases decodeURIComponent back <;> rfl

theorem decodeURIComponent_append {front back : List Char}
    {decodedFront decodedBack : List Char}
    (isFront : decodeURIComponent front = some decodedFront)
    (isBack : decodeURIComponent back = some decodedBack) :
    decodeURIComponent (front ++ back) =
      some (decodedFront ++ decodedBack) := by
  have appended := decodeAfter_append isFront (Nat.zero_le _) back
  rw [isBack] at appended
  exact appended

theorem decodeURIComponent_of_unescaped {text : List Char}
    (unescaped : '%' ∉ text) : decodeURIComponent text = some text := by
  unfold decodeURIComponent
  induction text with
  | nil => rfl
  | cons char rest induction =>
      rw [List.mem_cons, not_or] at unescaped
      unfold decodeAfter
      rw [if_neg (Ne.symm unescaped.1), induction unescaped.2]
      rfl

end PercentCoding
