import Registrar.Library.Program

/-!
# Programs in step

Two programs that start in related states are coupled when both return, with
agreeing values and in related states, or both throw the same error of a kind.
-/

namespace Program

variable {Error Left Right Value Value' Other Other' : Type}

structure Coupled (related : Left → Right → Prop) (kind : Error → Prop)
    (agrees : Value → Value' → Prop) (left : EStateM Error Left Value)
    (right : EStateM Error Right Value') : Prop where
  run : ∀ first second, related first second →
    match left first, right second with
    | .ok value next, .ok value' next' =>
        agrees value value' ∧ related next next'
    | .error error next, .error error' next' =>
        error = error' ∧ kind error ∧ related next next'
    | _, _ => False

variable {related : Left → Right → Prop} {kind : Error → Prop}
variable {agrees : Value → Value' → Prop}

namespace Coupled

/-- How two coupled programs end. -/
theorem ends {left : EStateM Error Left Value}
    {right : EStateM Error Right Value'}
    (coupled : Coupled related kind agrees left right) {first : Left}
    {second : Right} (start : related first second) :
    (∃ value value' next next', left first = .ok value next ∧
        right second = .ok value' next' ∧ agrees value value' ∧
        related next next') ∨
      ∃ error next next', left first = .error error next ∧
        right second = .error error next' ∧ kind error ∧
        related next next' := by
  have result := coupled.run first second start
  cases leftEnd : left first <;> cases rightEnd : right second <;>
    rw [leftEnd, rightEnd] at result
  · exact .inl ⟨_, _, _, _, rfl, rfl, result⟩
  · exact result.elim
  · exact result.elim
  · obtain ⟨rfl, ofKind, stays⟩ := result
    exact .inr ⟨_, _, _, rfl, rfl, ofKind, stays⟩

theorem pure {value : Value} {value' : Value'} (same : agrees value value') :
    Coupled related kind agrees (pure value : EStateM Error Left Value)
      (pure value' : EStateM Error Right Value') :=
  ⟨fun _ _ start => ⟨same, start⟩⟩

theorem throw {error : Error} (ofKind : kind error) :
    Coupled related kind agrees (throw error : EStateM Error Left Value)
      (throw error : EStateM Error Right Value') :=
  ⟨fun _ _ start => ⟨rfl, ofKind, start⟩⟩

theorem query {read : Left → Value} {read' : Right → Value'}
    (same : ∀ first second, related first second →
      agrees (read first) (read' second)) :
    Coupled related kind agrees
      (Program.query read : EStateM Error Left Value)
      (Program.query read' : EStateM Error Right Value') :=
  ⟨fun first second start => ⟨same first second start, start⟩⟩

theorem bind {between : Other → Other' → Prop}
    {left : EStateM Error Left Other} {right : EStateM Error Right Other'}
    {leftRest : Other → EStateM Error Left Value}
    {rightRest : Other' → EStateM Error Right Value'}
    (first : Coupled related kind between left right)
    (rest : ∀ value value', between value value' →
      Coupled related kind agrees (leftRest value) (rightRest value')) :
    Coupled related kind agrees (left >>= leftRest) (right >>= rightRest) := by
  constructor
  intro state state' start
  rcases first.ends start with
    ⟨value, value', next, next', leftEnd, rightEnd, same, stays⟩ |
      ⟨error, next, next', leftEnd, rightEnd, ofKind, stays⟩
  · rw [bind_apply_of_ok leftEnd, bind_apply_of_ok rightEnd]
    exact (rest value value' same).run next next' stays
  · rw [bind_apply_of_error leftEnd, bind_apply_of_error rightEnd]
    exact ⟨rfl, ofKind, stays⟩

theorem ite {condition condition' : Prop} [Decidable condition]
    [Decidable condition'] {left leftElse : EStateM Error Left Value}
    {right rightElse : EStateM Error Right Value'}
    (same : condition ↔ condition')
    (onTrue : condition → Coupled related kind agrees left right)
    (onFalse : ¬condition → Coupled related kind agrees leftElse rightElse) :
    Coupled related kind agrees (if condition then left else leftElse)
      (if condition' then right else rightElse) := by
  by_cases holds : condition
  · rw [if_pos holds, if_pos (same.mp holds)]
    exact onTrue holds
  · rw [if_neg holds, if_neg (mt same.mpr holds)]
    exact onFalse holds

theorem ensure {condition condition' : Prop} [Decidable condition]
    [Decidable condition'] {error : Error} (same : condition ↔ condition')
    (ofKind : kind error) :
    Coupled related kind (fun _ _ => True)
      (Program.ensure condition error : EStateM Error Left PUnit)
      (Program.ensure condition' error : EStateM Error Right PUnit) :=
  ite same (fun _ => pure trivial) (fun _ => throw ofKind)

theorem when {condition : Prop} [Decidable condition]
    {left : EStateM Error Left PUnit} {right : EStateM Error Right PUnit}
    (coupled : condition →
      Coupled related kind (fun _ _ => True) left right) :
    Coupled related kind (fun _ _ => True) (Program.when condition left)
      (Program.when condition right) :=
  ite Iff.rfl coupled (fun _ => pure trivial)

/-- One loop over the same items, on either side. -/
theorem forM {Item : Type} {items : List Item}
    {left : Item → EStateM Error Left PUnit}
    {right : Item → EStateM Error Right PUnit}
    (bodies : ∀ item ∈ items,
      Coupled related kind (fun _ _ => True) (left item) (right item)) :
    Coupled related kind (fun _ _ => True) (items.forM left)
      (items.forM right) := by
  induction items with
  | nil => exact pure trivial
  | cons item rest induction =>
      apply bind (bodies item List.mem_cons_self)
      intro _ _ _
      apply induction
      intro later member
      exact bodies later (List.mem_cons_of_mem item member)

theorem tryCatch {left : EStateM Error Left Value}
    {right : EStateM Error Right Value'}
    {leftHandler : Error → EStateM Error Left Value}
    {rightHandler : Error → EStateM Error Right Value'}
    (coupled : Coupled related kind agrees left right)
    (handlers : ∀ error, kind error →
      Coupled related kind agrees (leftHandler error) (rightHandler error)) :
    Coupled related kind agrees (tryCatch left leftHandler)
      (tryCatch right rightHandler) := by
  constructor
  intro state state' start
  change match EStateM.tryCatch left leftHandler state,
      EStateM.tryCatch right rightHandler state' with
    | .ok value next, .ok value' next' =>
        agrees value value' ∧ related next next'
    | .error error next, .error error' next' =>
        error = error' ∧ kind error ∧ related next next'
    | _, _ => False
  unfold EStateM.tryCatch
  rcases coupled.ends start with
    ⟨value, value', next, next', leftEnd, rightEnd, same, stays⟩ |
      ⟨error, next, next', leftEnd, rightEnd, ofKind, stays⟩
  · rw [leftEnd, rightEnd]
    exact ⟨same, stays⟩
  · rw [leftEnd, rightEnd]
    exact (handlers error ofKind).run next next' stays

theorem transaction {left : EStateM Error Left Value}
    {right : EStateM Error Right Value'}
    (coupled : Coupled related kind agrees left right) :
    Coupled related kind agrees (Program.transaction left)
      (Program.transaction right) := by
  constructor
  intro state state' start
  unfold Program.transaction
  rcases coupled.ends start with
    ⟨value, value', next, next', leftEnd, rightEnd, same, stays⟩ |
      ⟨error, next, next', leftEnd, rightEnd, ofKind, stays⟩
  · rw [leftEnd, rightEnd]
    exact ⟨same, stays⟩
  · rw [leftEnd, rightEnd]
    exact ⟨rfl, ofKind, start⟩

end Coupled

end Program
