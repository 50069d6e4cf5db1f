import Registrar.Library.CodeUnits

/-!
# Texts of bytes

Reading bytes from base64 and hexadecimal texts, and a text from its UTF-8
bytes, where malformed sequences become the replacement character.
-/

namespace ByteTexts

def sextet (unit : CodeUnit) : Nat :=
  let code := unit.val
  if 65 ≤ code ∧ code ≤ 90 then code - 65
  else if 97 ≤ code ∧ code ≤ 122 then code - 71
  else if 48 ≤ code ∧ code ≤ 57 then code + 4
  else if code = 43 then 62
  else 63

/-- The bytes of a text of the standard alphabet, without padding. -/
def base64Bytes : List CodeUnit → List Nat
  | first :: second :: third :: fourth :: rest =>
      (sextet first * 4 + sextet second / 16) ::
        (sextet second % 16 * 16 + sextet third / 4) ::
          (sextet third % 4 * 64 + sextet fourth) :: base64Bytes rest
  | [first, second, third] =>
      [sextet first * 4 + sextet second / 16,
        sextet second % 16 * 16 + sextet third / 4]
  | [first, second] => [sextet first * 4 + sextet second / 16]
  | [_] | [] => []

def hexDigit (unit : CodeUnit) : Nat :=
  let code := unit.val
  if 48 ≤ code ∧ code ≤ 57 then code - 48
  else if 65 ≤ code ∧ code ≤ 70 then code - 55
  else code - 87

/-- The bytes of a text of pairs of hexadecimal digits. -/
def hexBytes : List CodeUnit → List Nat
  | high :: low :: rest => (16 * hexDigit high + hexDigit low) :: hexBytes rest
  | [_] | [] => []

theorem length_base64Bytes (text : List CodeUnit) :
    4 * (base64Bytes text).length ≤ 3 * text.length := by
  fun_induction base64Bytes text with
  | case1 first second third fourth rest induction =>
      simp only [List.length_cons]
      omega
  | case2 first second third => simp
  | case3 first second => simp
  | case4 only => simp
  | case5 => simp

theorem length_hexBytes (text : List CodeUnit) :
    2 * (hexBytes text).length ≤ text.length := by
  fun_induction hexBytes text with
  | case1 high low rest induction =>
      simp only [List.length_cons]
      omega
  | case2 only => simp
  | case3 => simp

/-- What is known of a sequence while it is read. -/
structure Partial where
  /-- The continuation bytes that are missing. -/
  needed : Nat
  least : Nat
  most : Nat
  code : Nat
  deriving DecidableEq, Repr

def Partial.idle : Partial :=
  { needed := 0
    least := 0x80
    most := 0xbf
    code := 0 }

/-- Begin a sequence with this byte. -/
def beginSequence (byte : Nat) : List CodeUnit × Partial :=
  if byte < 0x80 then (CodeUnit.encode byte, .idle)
  else if 0xc2 ≤ byte ∧ byte ≤ 0xdf then
    ([], { Partial.idle with
      needed := 1
      code := byte - 0xc0 })
  else if 0xe0 ≤ byte ∧ byte ≤ 0xef then
    ([], { needed := 2
           least := if byte = 0xe0 then 0xa0 else 0x80
           most := if byte = 0xed then 0x9f else 0xbf
           code := byte - 0xe0 })
  else if 0xf0 ≤ byte ∧ byte ≤ 0xf4 then
    ([], { needed := 3
           least := if byte = 0xf0 then 0x90 else 0x80
           most := if byte = 0xf4 then 0x8f else 0xbf
           code := byte - 0xf0 })
  else ([CodeUnit.replacement], .idle)

/-- Read one byte of a text. -/
def readByte (state : Partial) (byte : Nat) : List CodeUnit × Partial :=
  match state.needed with
  | 0 => beginSequence byte
  | missing + 1 =>
      if state.least ≤ byte ∧ byte ≤ state.most then
        let code := state.code * 64 + (byte - 0x80)
        if missing = 0 then (CodeUnit.encode code, .idle)
        else
          ([], { Partial.idle with
            needed := missing
            code := code })
      else
        -- The byte that breaks a sequence off begins the next one.
        (CodeUnit.replacement :: (beginSequence byte).1, (beginSequence byte).2)

def textAfter (state : Partial) : List Nat → List CodeUnit
  | [] => if state.needed = 0 then [] else [CodeUnit.replacement]
  | byte :: rest =>
      (readByte state byte).1 ++ textAfter (readByte state byte).2 rest

/-- The text of UTF-8 bytes. -/
def utf8Text (bytes : List Nat) : List CodeUnit :=
  textAfter .idle bytes

/-- A sequence that has begun stands for at least one byte. -/
def Partial.owes (state : Partial) : Nat :=
  if state.needed = 0 then 0 else 1

theorem length_encode_le (code : Nat) : (CodeUnit.encode code).length ≤ 2 := by
  unfold CodeUnit.encode
  split_ifs <;> simp

theorem length_beginSequence (byte : Nat) :
    (beginSequence byte).1.length + (beginSequence byte).2.owes ≤ 1 := by
  unfold beginSequence
  by_cases ascii : byte < 0x80
  · have single : CodeUnit.encode byte = [CodeUnit.ofNat byte] :=
      if_pos (by omega)
    simp [ascii, single, Partial.owes, Partial.idle]
  · rw [if_neg ascii]
    by_cases two : 0xc2 ≤ byte ∧ byte ≤ 0xdf
    · simp [two, Partial.owes]
    · rw [if_neg two]
      by_cases three : 0xe0 ≤ byte ∧ byte ≤ 0xef
      · simp [three, Partial.owes]
      · rw [if_neg three]
        by_cases four : 0xf0 ≤ byte ∧ byte ≤ 0xf4
        · simp [four, Partial.owes]
        · simp [four, Partial.owes, Partial.idle]

theorem length_readByte (state : Partial) (byte : Nat) :
    (readByte state byte).1.length + (readByte state byte).2.owes ≤
      1 + state.owes := by
  have begins := length_beginSequence byte
  unfold readByte
  split
  · omega
  · rename_i missing isNeeded
    have owed : state.owes = 1 := if_neg (by omega)
    rw [owed]
    split_ifs with inRange last
    · have two := length_encode_le (state.code * 64 + (byte - 0x80))
      simpa [Partial.owes, Partial.idle] using two
    · simp [Partial.owes, last]
    · simp only [List.length_cons]
      omega

theorem length_textAfter (state : Partial) (bytes : List Nat) :
    (textAfter state bytes).length ≤ bytes.length + state.owes := by
  induction bytes generalizing state with
  | nil =>
      unfold textAfter Partial.owes
      split_ifs <;> simp
  | cons byte rest induction =>
      have here := length_readByte state byte
      have later := induction (readByte state byte).2
      unfold textAfter
      rw [List.length_append, List.length_cons]
      omega

theorem length_utf8Text_le (bytes : List Nat) :
    (utf8Text bytes).length ≤ bytes.length :=
  length_textAfter .idle bytes

end ByteTexts
