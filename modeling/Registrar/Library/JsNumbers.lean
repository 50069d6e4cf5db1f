import Registrar.Library.JsValue
import Mathlib.Data.Int.Log
import Mathlib.Data.Rat.Floor
import Mathlib.Tactic.NormNum

/-!
# Sums of JavaScript numbers and slices of arrays

A number of the language is a double: a sum is the exact sum, rounded to the
nearest double, ties to the even one.  A loop that adds the same number to its
index again and again either passes a bound or never does.
-/

/-- The distance of the doubles around a value. -/
def JsNumber.ulp (value : ℚ) : ℚ :=
  2 ^ max (Int.log 2 |value| - 52) (-1074)

/-- The nearest integer, ties to the even one. -/
def JsNumber.roundHalfEven (value : ℚ) : ℤ :=
  let below := ⌊value⌋
  let part := value - below
  if part < 1 / 2 then below
  else if 1 / 2 < part then below + 1
  else if below % 2 = 0 then below
  else below + 1

namespace JsNumber

/-- The double that an exact value is rounded to. -/
def ofExact (value : ℚ) : JsNumber :=
  let rounded := roundHalfEven (value / ulp value) * ulp value
  if 2 ^ 1024 ≤ rounded then .infinity
  else if rounded ≤ -2 ^ 1024 then .negativeInfinity
  else .finite rounded

/-- `left + right` -/
def add : JsNumber → JsNumber → JsNumber
  | .finite left, .finite right => ofExact (left + right)
  | .notANumber, _ => .notANumber
  | _, .notANumber => .notANumber
  | .infinity, .negativeInfinity => .notANumber
  | .negativeInfinity, .infinity => .notANumber
  | .infinity, _ => .infinity
  | _, .infinity => .infinity
  | .negativeInfinity, _ => .negativeInfinity
  | _, .negativeInfinity => .negativeInfinity

/-- `-number` -/
def neg : JsNumber → JsNumber
  | .finite value => .finite (-value)
  | .notANumber => .notANumber
  | .infinity => .negativeInfinity
  | .negativeInfinity => .infinity

/-- The number without its fraction. -/
def truncate (value : ℚ) : ℤ :=
  if 0 ≤ value then ⌊value⌋ else ⌈value⌉

/-- The place in an array that an argument of `slice` stands for. -/
def placeIn (length : Nat) : JsNumber → Nat
  | .notANumber => 0
  | .negativeInfinity => 0
  | .infinity => length
  | .finite value =>
      if truncate value < 0 then (length + truncate value).toNat
      else min (truncate value).toNat length

/-- `items.slice(start, stop)` -/
def slice {Item : Type*} (items : List Item) (start stop : JsNumber) :
    List Item :=
  (items.take (stop.placeIn items.length)).drop (start.placeIn items.length)

/-- The index of a loop after so many rounds that each add the stride. -/
def position (stride : JsNumber) : Nat → JsNumber
  | 0 => .finite 0
  | rounds + 1 => (position stride rounds).add stride

/-- No number below the bound, and a number. -/
def AtLeast (bound : Nat) : JsNumber → Prop
  | .finite value => (bound : ℚ) ≤ value
  | .infinity => True
  | _ => False

/-- The stride, added again and again, passes the bound. -/
def Passes (stride : JsNumber) (bound : Nat) : Prop :=
  ∃ rounds, AtLeast bound (position stride rounds)

theorem ofExact_ne_notANumber (value : ℚ) : ofExact value ≠ .notANumber := by
  unfold ofExact
  dsimp only
  split_ifs <;> simp

theorem add_ne_notANumber {left right : JsNumber}
    (isLeft : left ≠ .notANumber) (isRight : right ≠ .notANumber)
    (below : left ≠ .infinity) (below' : right ≠ .infinity) :
    left.add right ≠ .notANumber := by
  cases left <;> cases right <;>
    first
      | contradiction
      | exact ofExact_ne_notANumber _
      | simp [add]

theorem lessThan_eq_false_iff {number : JsNumber} {bound : Nat} :
    number.lessThan (.finite bound) = false ↔
      number = .notANumber ∨ AtLeast bound number := by
  cases number with
  | finite value => simp [lessThan, AtLeast]
  | _ => simp [lessThan, AtLeast]

theorem passes_infinity (bound : Nat) : Passes .infinity bound :=
  ⟨1, trivial⟩

/-- A stride that passes no bound keeps the index below it. -/
theorem lessThan_of_not_passes {stride : JsNumber} {bound : Nat}
    (isNumber : stride ≠ .notANumber) (stuck : ¬ Passes stride bound)
    (rounds : Nat) :
    (position stride rounds).lessThan (.finite bound) = true := by
  have below : stride ≠ .infinity := by
    rintro rfl
    exact stuck (passes_infinity bound)
  have isIndex (rounds : Nat) : position stride rounds ≠ .notANumber := by
    induction rounds with
    | zero => exact nofun
    | succ rounds induction =>
        refine add_ne_notANumber induction isNumber ?_ below
        intro isInfinite
        exact stuck ⟨rounds, by rw [isInfinite]; trivial⟩
  rw [← Bool.not_eq_false, lessThan_eq_false_iff]
  rintro (notIndex | passed)
  · exact isIndex rounds notIndex
  · exact stuck ⟨rounds, passed⟩

theorem roundHalfEven_intCast (value : ℤ) :
    roundHalfEven (value : ℚ) = value := by
  simp [roundHalfEven]

/-- A whole number below two to the fifty-third is a double. -/
theorem ofExact_natCast {value : Nat} (small : value < 2 ^ 53) :
    ofExact (value : ℚ) = .finite value := by
  have log : Int.log 2 |(value : ℚ)| ≤ 52 := by
    rw [abs_of_nonneg (Nat.cast_nonneg value), Int.log_natCast]
    have less : Nat.log 2 value < 53 := Nat.log_lt_of_lt_pow' (by omega) small
    omega
  obtain ⟨places, isUlp⟩ :
      ∃ places : Nat, ulp (value : ℚ) = (2 ^ places)⁻¹ := by
    refine ⟨(-max (Int.log 2 |(value : ℚ)| - 52) (-1074)).toNat, ?_⟩
    rw [ulp, ← zpow_natCast, ← zpow_neg, Int.toNat_of_nonneg (by omega),
      neg_neg]
  have whole : (value : ℚ) / ulp value = ((value * 2 ^ places : ℤ) : ℚ) := by
    rw [isUlp, div_inv_eq_mul]
    push_cast
    rfl
  have rounded : (roundHalfEven ((value : ℚ) / ulp value) : ℚ) * ulp value =
      value := by
    rw [whole, roundHalfEven_intCast, isUlp]
    push_cast
    rw [mul_assoc, mul_inv_cancel₀ (by positivity), mul_one]
  have below : (value : ℚ) < 2 ^ 1024 := by
    calc (value : ℚ) < 2 ^ 53 := by exact_mod_cast small
      _ ≤ 2 ^ 1024 := pow_le_pow_right₀ (by norm_num) (by omega)
  have above : -2 ^ 1024 < (value : ℚ) :=
    (neg_lt_zero.mpr (by positivity)).trans_le (Nat.cast_nonneg value)
  unfold ofExact
  dsimp only
  rw [rounded, if_neg (not_le.mpr below), if_neg (not_le.mpr above)]

/-- Every whole stride passes the length of an array. -/
theorem passes_natCast {stride bound : Nat} (positive : 0 < stride)
    (small : bound + stride < 2 ^ 53) : Passes (.finite stride) bound := by
  have placed (rounds : Nat) (before : rounds * stride < bound + stride) :
      position (.finite stride) rounds = .finite (rounds * stride : Nat) := by
    induction rounds with
    | zero => simp [position]
    | succ rounds induction =>
        rw [Nat.succ_mul] at before ⊢
        rw [position, induction (by omega), add,
          ← Nat.cast_add, ofExact_natCast (by omega)]
  have whole := Nat.div_add_mod (bound + stride - 1) stride
  have part := Nat.mod_lt (bound + stride - 1) positive
  rw [Nat.mul_comm] at whole
  refine ⟨(bound + stride - 1) / stride, ?_⟩
  rw [placed _ (by omega)]
  exact Nat.cast_le.mpr (by omega)

theorem position_zero (rounds : Nat) :
    position (.finite 0) rounds = .finite 0 := by
  induction rounds with
  | zero => rfl
  | succ rounds induction =>
      rw [position, induction, add, add_zero]
      exact_mod_cast ofExact_natCast (Nat.two_pow_pos 53)

theorem placeIn_of_atLeast {number : JsNumber} {length : Nat}
    (passed : AtLeast length number) : number.placeIn length = length := by
  cases number with
  | finite value =>
      have least : (length : ℚ) ≤ value := passed
      have positive : 0 ≤ value := (Nat.cast_nonneg length).trans least
      have floor : (length : ℤ) ≤ ⌊value⌋ := Int.le_floor.mpr (by simpa)
      rw [placeIn, truncate, if_pos positive, if_neg (by omega)]
      omega
  | infinity => rfl
  | notANumber => cases passed
  | negativeInfinity => cases passed

theorem slice_subset {Item : Type*} {items : List Item}
    {start stop : JsNumber} {item : Item}
    (member : item ∈ slice items start stop) : item ∈ items :=
  List.mem_of_mem_take (List.mem_of_mem_drop member)

theorem slice_notANumber {Item : Type*} (items : List Item)
    (start : JsNumber) : slice items start .notANumber = [] := by
  simp [slice, placeIn]

/-- The slices between neighbouring positions leave nothing out. -/
theorem exists_mem_slice {Item : Type*} {items : List Item}
    {stride : JsNumber} {rounds : Nat} {item : Item}
    (passed : AtLeast items.length (position stride rounds))
    (member : item ∈ items) :
    ∃ round < rounds, item ∈ slice items (position stride round)
      (position stride (round + 1)) := by
  obtain ⟨place, inside, isItem⟩ := List.mem_iff_getElem.mp member
  let cut (round : Nat) := (position stride round).placeIn items.length
  have first : cut 0 = 0 := by
    simp [cut, position, placeIn, truncate]
  have last : cut rounds = items.length := placeIn_of_atLeast passed
  have crossed (rounds : Nat) (beyond : place < cut rounds) :
      ∃ round < rounds, cut round ≤ place ∧ place < cut (round + 1) := by
    induction rounds with
    | zero => omega
    | succ rounds induction =>
        by_cases before : place < cut rounds
        · obtain ⟨round, less, between⟩ := induction before
          exact ⟨round, by omega, between⟩
        · exact ⟨rounds, by omega, by omega, beyond⟩
  obtain ⟨round, less, isFrom, isUntil⟩ := crossed rounds (by omega)
  refine ⟨round, less, List.mem_iff_getElem?.mpr ⟨place - cut round, ?_⟩⟩
  unfold slice
  rw [List.getElem?_drop, Nat.add_sub_of_le isFrom,
    List.getElem?_take_of_lt isUntil, List.getElem?_eq_getElem inside, isItem]

end JsNumber
