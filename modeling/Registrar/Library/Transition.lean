import Mathlib.Data.List.Basic

/-!
# Runs of a transition system

A system is a step function; a label says who moves and with which input.  A
run is the list of its labels.  `Always` relates every state of a run to the
next one, and the rules below reduce a statement about runs to one about steps.
-/

namespace Transition

variable {State Label : Type*}

def run (step : State → Label → State) (start : State)
    (labels : List Label) : State :=
  labels.foldl step start

/-- Every step of the run, from the state before it, satisfies `property`. -/
def Always (step : State → Label → State)
    (property : State → Label → Prop) : State → List Label → Prop
  | _, [] => True
  | start, label :: rest =>
      property start label ∧ Always step property (step start label) rest

variable {step : State → Label → State}

instance decidableAlways {property : State → Label → Prop}
    [∀ state label, Decidable (property state label)] :
    ∀ (start : State) (labels : List Label),
      Decidable (Always step property start labels)
  | _, [] => isTrue trivial
  | start, label :: rest =>
      @instDecidableAnd _ _ _ (decidableAlways (step start label) rest)

@[simp]
theorem run_nil (start : State) : run step start [] = start := rfl

@[simp]
theorem run_cons (start : State) (label : Label) (rest : List Label) :
    run step start (label :: rest) = run step (step start label) rest := rfl

theorem run_append (start : State) (front back : List Label) :
    run step start (front ++ back) = run step (run step start front) back := by
  simp [run]

theorem always_append {property : State → Label → Prop} {start : State}
    {front back : List Label} :
    Always step property start (front ++ back) ↔
      Always step property start front ∧
        Always step property (run step start front) back := by
  induction front generalizing start with
  | nil => simp [Always]
  | cons label rest induction => simp [Always, induction, and_assoc]

/-- An invariant that every guarded step keeps holds after a guarded run. -/
theorem invariant_of_always
    {invariant : State → Prop} {guard : State → Label → Prop}
    (kept : ∀ state label,
      invariant state → guard state label → invariant (step state label))
    {start : State} {labels : List Label}
    (initially : invariant start)
    (guarded : Always step guard start labels) :
    invariant (run step start labels) := by
  induction labels generalizing start with
  | nil => exact initially
  | cons label rest induction =>
      obtain ⟨now, later⟩ := guarded
      exact induction (kept start label initially now) later

theorem invariant_of_run
    {invariant : State → Prop}
    (kept : ∀ state label, invariant state → invariant (step state label))
    {start : State} (labels : List Label)
    (initially : invariant start) :
    invariant (run step start labels) := by
  induction labels generalizing start with
  | nil => exact initially
  | cons label rest induction =>
      exact induction (kept start label initially)

/-- A guarded run in which guarded steps have a property has it throughout. -/
theorem always_of_always
    {invariant : State → Prop} {guard property : State → Label → Prop}
    (kept : ∀ state label,
      invariant state → guard state label → invariant (step state label))
    (implied : ∀ state label,
      invariant state → guard state label → property state label)
    {start : State} {labels : List Label}
    (initially : invariant start)
    (guarded : Always step guard start labels) :
    Always step property start labels := by
  induction labels generalizing start with
  | nil => trivial
  | cons label rest induction =>
      obtain ⟨now, later⟩ := guarded
      exact ⟨implied start label initially now,
        induction (kept start label initially now) later⟩

end Transition
