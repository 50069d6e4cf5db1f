import Registrar.Library.Trim
import Mathlib.Data.List.Chain

/-!
# Strings with unpaired surrogates

A JavaScript string is a sequence of code points in which a surrogate may stand
without its partner.  UTF-8 has no such text: every unpaired surrogate is
written as the replacement character.
-/

inductive CodePoint where
  | scalar (char : Char)
  | highSurrogate (offset : Fin 1024)
  | lowSurrogate (offset : Fin 1024)
  deriving DecidableEq, Repr

namespace CodePoint

def IsScalar : CodePoint → Prop
  | scalar _ => True
  | highSurrogate _ | lowSurrogate _ => False

instance : DecidablePred IsScalar := fun point => by
  cases point <;> unfold IsScalar <;> infer_instance

/-- The surrogates would be one code point. -/
def Pairs : CodePoint → CodePoint → Prop
  | highSurrogate _, lowSurrogate _ => True
  | _, _ => False

instance : DecidableRel Pairs := fun left right => by
  cases left <;> cases right <;> unfold Pairs <;> infer_instance

def replacement : Char := Char.ofNat 0xfffd

/-- The character that UTF-8 has for a code point. -/
def char : CodePoint → Char
  | scalar char => char
  | highSurrogate _ | lowSurrogate _ => replacement

def satisfies (isSpace : Char → Bool) : CodePoint → Bool
  | scalar char => isSpace char
  | highSurrogate _ | lowSurrogate _ => false

theorem satisfies_eq {isSpace : Char → Bool}
    (solid : isSpace replacement = false) (point : CodePoint) :
    point.satisfies isSpace = isSpace point.char := by
  cases point with
  | scalar char => rfl
  | highSurrogate offset => exact solid.symm
  | lowSurrogate offset => exact solid.symm

end CodePoint

structure JsString where
  points : List CodePoint
  unpaired : points.IsChain fun left right => ¬left.Pairs right
  deriving DecidableEq

namespace JsString

theorem ext {left right : JsString} (same : left.points = right.points) :
    left = right := by
  cases left
  cases right
  cases same
  rfl

def ofString (text : String) : JsString where
  points := text.toList.map .scalar
  unpaired := by
    apply List.Pairwise.isChain
    rw [List.pairwise_map]
    exact List.pairwise_of_forall fun _ _ pairs => pairs

/-- The text that is stored for a string. -/
def toWellFormed (string : JsString) : String :=
  String.ofList (string.points.map CodePoint.char)

def WellFormed (string : JsString) : Prop :=
  ∀ point ∈ string.points, point.IsScalar

instance (string : JsString) : Decidable string.WellFormed :=
  inferInstanceAs (Decidable (∀ point ∈ _, _))

@[simp]
theorem toWellFormed_ofString (text : String) :
    (ofString text).toWellFormed = text := by
  unfold toWellFormed ofString
  dsimp only
  rw [List.map_map]
  have same : (CodePoint.char ∘ CodePoint.scalar) = id := rfl
  rw [same, List.map_id, String.ofList_toList]

theorem wellFormed_ofString (text : String) : (ofString text).WellFormed := by
  intro point member
  obtain ⟨char, -, rfl⟩ := List.mem_map.mp member
  trivial

/-- Exactly the well-formed strings survive being stored. -/
theorem ofString_toWellFormed_iff {string : JsString} :
    ofString string.toWellFormed = string ↔ string.WellFormed := by
  constructor
  · intro same
    rw [← same]
    exact wellFormed_ofString _
  · intro wellFormed
    apply ext
    unfold ofString toWellFormed
    dsimp only
    rw [String.toList_ofList, List.map_map]
    calc
      string.points.map (CodePoint.scalar ∘ CodePoint.char) =
          string.points.map id := by
        apply List.map_congr_left
        intro point member
        cases point with
        | scalar char => rfl
        | highSurrogate offset => exact absurd (wellFormed _ member) id
        | lowSurrogate offset => exact absurd (wellFormed _ member) id
      _ = string.points := List.map_id _

variable (isSpace : Char → Bool)

def trim (string : JsString) : JsString where
  points :=
    (string.points.dropWhile (CodePoint.satisfies isSpace)).rdropWhile
      (CodePoint.satisfies isSpace)
  unpaired := by
    apply List.IsChain.infix string.unpaired
    exact ((List.rdropWhile_prefix _ _).isInfix).trans
      (List.dropWhile_suffix _).isInfix

variable {isSpace}

theorem trim_toWellFormed (solid : isSpace CodePoint.replacement = false)
    (string : JsString) :
    (string.trim isSpace).toWellFormed =
      Trim.trim isSpace string.toWellFormed := by
  have same : CodePoint.satisfies isSpace = isSpace ∘ CodePoint.char :=
    funext (CodePoint.satisfies_eq solid)
  unfold trim toWellFormed Trim.trim Trim.trimChars
  dsimp only
  rw [String.toList_ofList, List.dropWhile_map, same]
  unfold List.rdropWhile
  rw [← List.map_reverse, List.dropWhile_map, List.map_reverse]

theorem WellFormed.trim {string : JsString} (wellFormed : string.WellFormed) :
    (string.trim isSpace).WellFormed := by
  intro point member
  apply wellFormed
  exact (List.dropWhile_suffix _).subset
    ((List.rdropWhile_prefix _ _).subset member)

end JsString
