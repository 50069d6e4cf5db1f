import Mathlib.Data.List.Basic

/-!
# Prefix codes

A code is a prefix code when the text of a value ends at one place, whatever
follows it.  Sequences between delimiters keep this property.
-/

variable {Symbol Value Other : Type*}

def IsPrefixCode (code : Value → List Symbol) : Prop :=
  ∀ ⦃left right : Value⦄ ⦃rest rest' : List Symbol⦄,
    code left ++ rest = code right ++ rest' → left = right ∧ rest = rest'

/-- No text of the code begins with the symbol, and none is empty. -/
def NeverStarts (code : Value → List Symbol) (symbol : Symbol) : Prop :=
  ∀ value rest tail, code value ++ rest ≠ symbol :: tail

/-- The texts of the values with a symbol between them. -/
def separatedBy (separator : Symbol) (code : Value → List Symbol) :
    List Value → List Symbol
  | [] => []
  | first :: later => code first ++ later.flatMap fun value =>
      separator :: code value

namespace IsPrefixCode

variable {code : Value → List Symbol} {code' : Other → List Symbol}

theorem injective (isPrefix : IsPrefixCode code) : Function.Injective code :=
  fun left right same =>
    (@isPrefix left right [] [] (by rw [same])).1

theorem comp {decode : Other → Value} (isPrefix : IsPrefixCode code)
    (injective : Function.Injective decode) :
    IsPrefixCode (code ∘ decode) :=
  fun _ _ _ _ same =>
    ⟨injective (isPrefix same).1, (isPrefix same).2⟩

theorem cons (opening : Symbol) (isPrefix : IsPrefixCode code) :
    IsPrefixCode fun value => opening :: code value :=
  fun _ _ _ _ same => isPrefix (List.cons.inj same).2

theorem pair (separator : Symbol) (first : IsPrefixCode code)
    (second : IsPrefixCode code') :
    IsPrefixCode fun pair : Value × Other =>
      code pair.1 ++ separator :: code' pair.2 := by
  rintro ⟨left, left'⟩ ⟨right, right'⟩ rest rest' same
  simp only [List.append_assoc, List.cons_append] at same
  obtain ⟨rfl, rests⟩ := first same
  obtain ⟨rfl, ends⟩ := second (List.cons.inj rests).2
  exact ⟨rfl, ends⟩

/-- A value or a fixed text that is told from it by its first symbol. -/
theorem option {symbol : Symbol} {fixed : List Symbol}
    (isPrefix : IsPrefixCode code) (fresh : NeverStarts code symbol) :
    IsPrefixCode fun value : Option Value =>
      value.elim (symbol :: fixed) code := by
  intro left right rest rest' same
  cases left with
  | none =>
      cases right with
      | none => exact ⟨rfl, List.append_cancel_left same⟩
      | some value => exact absurd same.symm (fresh value _ _)
  | some value =>
      cases right with
      | none => exact absurd same (fresh value _ _)
      | some other =>
          obtain ⟨rfl, rests⟩ := isPrefix same
          exact ⟨rfl, rests⟩

theorem terminated {closing : Symbol} (isPrefix : IsPrefixCode code)
    (fresh : NeverStarts code closing) :
    IsPrefixCode fun values : List Value =>
      values.flatMap code ++ [closing] := by
  intro left right rest rest' same
  induction left generalizing right with
  | nil =>
      cases right with
      | nil => exact ⟨rfl, List.append_cancel_left same⟩
      | cons value values =>
          simp only [List.flatMap_cons, List.append_assoc] at same
          exact absurd same.symm (fresh value _ _)
  | cons value values induction =>
      cases right with
      | nil =>
          simp only [List.flatMap_cons, List.append_assoc] at same
          exact absurd same (fresh value _ _)
      | cons other others =>
          simp only [List.flatMap_cons, List.append_assoc] at same
          obtain ⟨rfl, tails⟩ := isPrefix same
          have again := @induction others (by simpa using tails)
          exact ⟨again.1 ▸ rfl, again.2⟩

theorem separated {separator closing : Symbol} (isPrefix : IsPrefixCode code)
    (fresh : NeverStarts code closing) (different : separator ≠ closing) :
    IsPrefixCode fun values : List Value =>
      separatedBy separator code values ++ [closing] := by
  have later : IsPrefixCode fun values : List Value =>
      values.flatMap (fun value => separator :: code value) ++ [closing] :=
    (isPrefix.cons separator).terminated
      fun value rest tail same => different (List.cons.inj same).1
  intro left right rest rest' same
  cases left with
  | nil =>
      cases right with
      | nil => exact ⟨rfl, List.append_cancel_left same⟩
      | cons value values =>
          simp only [separatedBy, List.append_assoc] at same
          exact absurd same.symm (fresh value _ _)
  | cons value values =>
      cases right with
      | nil =>
          simp only [separatedBy, List.append_assoc] at same
          exact absurd same (fresh value _ _)
      | cons other others =>
          simp only [separatedBy, List.append_assoc] at same
          obtain ⟨rfl, tails⟩ := isPrefix same
          have ends := @later values others rest rest' (by simpa using tails)
          exact ⟨ends.1 ▸ rfl, ends.2⟩

end IsPrefixCode
