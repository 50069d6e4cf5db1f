import Mathlib.Algebra.GroupWithZero.Nat
import Mathlib.Data.Rat.Defs
import Mathlib.Algebra.Order.Ring.Unbundled.Rat

/-!
# ISO timestamps

The instant that a UTC timestamp denotes, with any number of fractional digits.
The order of the texts is not the order of the instants.
-/

namespace IsoTime

def number? (digits : List Char) : Option Nat :=
  if digits ≠ [] ∧ digits.all Char.isDigit then
    some (digits.foldl (fun value digit => 10 * value + (digit.toNat - 48)) 0)
  else none

def isLeapYear (year : Nat) : Bool :=
  year % 4 = 0 && (year % 100 ≠ 0 || year % 400 = 0)

def daysInMonth (year month : Nat) : Nat :=
  if month = 2 then (if isLeapYear year then 29 else 28)
  else if [4, 6, 9, 11].contains month then 30
  else 31

/-- The days from the start of year zero to the start of this year. -/
def daysBeforeYear (year : Nat) : Nat :=
  365 * year + (year + 3) / 4 + (year + 399) / 400 - (year + 99) / 100

/-- The days from the start of year zero to this day, if there is such a day. -/
def days? (year month day : Nat) : Option Nat :=
  if 1 ≤ month ∧ month ≤ 12 ∧ 1 ≤ day ∧ day ≤ daysInMonth year month then
    some (daysBeforeYear year +
      ((List.range (month - 1)).map fun earlier =>
        daysInMonth year (earlier + 1)).sum + (day - 1))
  else none

/-- What follows the minutes. -/
def seconds? : List Char → Option ℚ
  | ['Z'] => some 0
  | ':' :: tens :: ones :: rest => do
      let whole ← number? [tens, ones]
      if 59 < whole then none
      else
        match rest with
        | ['Z'] => some whole
        | '.' :: fraction => do
            let digits := fraction.dropLast
            let value ← number? digits
            if fraction.getLast? = some 'Z' then
              some (whole + value / 10 ^ digits.length)
            else none
        | _ => none
  | _ => none

/-- The seconds from the start of year zero to the instant of the timestamp. -/
def instant? (text : String) : Option ℚ := do
  let chars := text.toList
  let field (start length : Nat) : Option Nat :=
    number? ((chars.drop start).take length)
  let year ← field 0 4
  let month ← field 5 2
  let day ← field 8 2
  let days ← days? year month day
  let hours ← field 11 2
  let minutes ← field 14 2
  let seconds ← seconds? (chars.drop 16)
  if chars[4]? = some '-' ∧ chars[7]? = some '-' ∧ chars[10]? = some 'T' ∧
      chars[13]? = some ':' ∧ hours ≤ 23 ∧ minutes ≤ 59 then
    some (86400 * days + 3600 * hours + 60 * minutes + seconds)
  else none

/-- Both texts denote instants, and the first one is later. -/
def IsLater (left right : String) : Prop :=
  ∃ later ∈ instant? left, ∃ earlier ∈ instant? right, earlier < later

instance (left right : String) : Decidable (IsLater left right) :=
  match isLeft : instant? left, isRight : instant? right with
  | some later, some earlier =>
      if order : earlier < later then
        isTrue ⟨later, isLeft, earlier, isRight, order⟩
      else
        isFalse fun ⟨_, left, _, right, less⟩ => by
          rw [isLeft] at left
          rw [isRight] at right
          cases left
          cases right
          exact order less
  | none, _ => isFalse fun ⟨_, left, _⟩ => by
      rw [isLeft] at left
      cases left
  | some _, none => isFalse fun ⟨_, _, _, right, _⟩ => by
      rw [isRight] at right
      cases right

/-- A finer timestamp of a later instant comes first as a text. -/
example :
    IsLater "2026-03-01T09:00:00.5Z" "2026-03-01T09:00:00Z" ∧
      "2026-03-01T09:00:00.5Z" < "2026-03-01T09:00:00Z" := by
  decide +kernel

end IsoTime
