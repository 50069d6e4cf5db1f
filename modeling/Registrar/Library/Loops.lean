import Mathlib.Data.Nat.Basic

/-!
# Loops

A loop is a step that goes on with a state or ends with a result.  It need not
end: along a sequence of states it has come so far, or has ended at the first
state that does not go on.
-/

namespace Loop

variable {State Result : Type*}

abbrev Step (State Result : Type*) := State → State ⊕ Result

/-- At most so many steps of the loop. -/
def runFor (step : Step State Result) : Nat → State → State ⊕ Result
  | 0, state => .inl state
  | steps + 1, state =>
      match step state with
      | .inl next => runFor step steps next
      | .inr result => .inr result

variable {step : Step State Result} {state : State}

theorem runFor_next {next : State} (goes : step state = .inl next)
    (steps : Nat) : runFor step (steps + 1) state = runFor step steps next := by
  rw [runFor, goes]

theorem runFor_stop {result : Result} (stops : step state = .inr result)
    (steps : Nat) : runFor step (steps + 1) state = .inr result := by
  rw [runFor, stops]

/-- A loop along a sequence of states: it is where the sequence is, or it has
ended at the first state that does not go on. -/
theorem runFor_along {states : Nat → State} {results : Nat → Result}
    {goes : Nat → Prop}
    (next : ∀ round, goes round →
      step (states round) = .inl (states (round + 1)))
    (stop : ∀ round, ¬ goes round → step (states round) = .inr (results round))
    (steps : Nat) :
    ((∀ round < steps, goes round) ∧
        runFor step steps (states 0) = .inl (states steps)) ∨
      ∃ last < steps, (∀ round < last, goes round) ∧ ¬ goes last ∧
        runFor step steps (states 0) = .inr (results last) := by
  have fromFirst (first : Nat) (before : ∀ round < first, goes round) :
      ((∀ round < first + steps, goes round) ∧
          runFor step steps (states first) = .inl (states (first + steps))) ∨
        ∃ last < first + steps, (∀ round < last, goes round) ∧ ¬ goes last ∧
          runFor step steps (states first) = .inr (results last) := by
    induction steps generalizing first with
    | zero => exact .inl ⟨before, rfl⟩
    | succ steps induction =>
        by_cases on : goes first
        · have before' : ∀ round < first + 1, goes round := by
            intro round less
            rcases Nat.lt_succ_iff_lt_or_eq.mp less with earlier | rfl
            · exact before round earlier
            · exact on
          rw [runFor_next (next first on), ← Nat.add_assoc,
            Nat.add_right_comm]
          exact induction (first + 1) before'
        · exact .inr ⟨first, by omega, before, on,
            runFor_stop (stop first on) steps⟩
  simpa using fromFirst 0 (by omega)

end Loop
