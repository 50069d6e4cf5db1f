import Registrar.Library.Transition
import Mathlib.Data.List.Basic
import Mathlib.Tactic.Common

/-!
# Operations in stages

An operation moves in stages.  Each stage is one atomic step on a shared state
and leaves what the next one works with; between two stages any number of other
operations may move.
-/

namespace Stages

open Transition

variable {Shared Request Stage : Type*}

structure System (Shared Request Stage : Type*) where
  start : Request → Shared → Option Stage
  advance : Stage → Shared → Shared × Option Stage

/-- The shared state, and the next stages of the operations under way. -/
structure Config (Shared Stage : Type*) where
  shared : Shared
  pending : List Stage

def Config.idle (shared : Shared) : Config Shared Stage where
  shared := shared
  pending := []

inductive Label (Request : Type*) where
  | start (request : Request)
  | advance (index : Nat)
  deriving DecidableEq

namespace System

variable (system : System Shared Request Stage)

def step (config : Config Shared Stage) :
    Label Request → Config Shared Stage
  | .start request =>
      { config with
        pending := config.pending ++
          (system.start request config.shared).toList }
  | .advance index =>
      match config.pending[index]? with
      | none => config
      | some stage =>
          { shared := (system.advance stage config.shared).1
            pending :=
              match (system.advance stage config.shared).2 with
              | none => config.pending.eraseIdx index
              | some next => config.pending.set index next }

/-- The stage and those after it, undisturbed, end in the final state. -/
inductive Completes : Stage → Shared → Shared → Prop where
  | done {stage : Stage} {shared final : Shared}
      (ended : system.advance stage shared = (final, none)) :
      Completes stage shared final
  | next {stage following : Stage} {shared middle final : Shared}
      (moved : system.advance stage shared = (middle, some following))
      (rest : Completes following middle final) :
      Completes stage shared final

/-- The stage that the step advances, if it does one, is allowed to. -/
def Guarded (allowed : Stage → Shared → Prop) (config : Config Shared Stage) :
    Label Request → Prop
  | .start _ => True
  | .advance index =>
      ∀ stage ∈ config.pending[index]?, allowed stage config.shared

instance decidableGuarded {allowed : Stage → Shared → Prop}
    [∀ stage shared, Decidable (allowed stage shared)]
    (config : Config Shared Stage) :
    ∀ label : Label Request, Decidable (Guarded allowed config label)
  | .start _ => isTrue trivial
  | .advance index =>
      inferInstanceAs (Decidable
        (∀ stage ∈ config.pending[index]?, allowed stage config.shared))

variable {system}

section Rule

variable {invariant : Shared → Prop} {sound : Stage → Shared → Prop}
variable {allowed : Request → Prop}

/-- Where every operation starts soundly, a sound stage keeps the invariant and
leaves a sound stage, and other sound stages stay so, the invariant holds in
every state that the allowed requests can reach. -/
theorem invariant_of_stages
    (starts : ∀ request shared stage, allowed request → invariant shared →
      system.start request shared = some stage → sound stage shared)
    (advances : ∀ stage shared, invariant shared → sound stage shared →
      invariant (system.advance stage shared).1 ∧
        ∀ next ∈ (system.advance stage shared).2,
          sound next (system.advance stage shared).1)
    (stable : ∀ moved other shared, invariant shared → sound moved shared →
      sound other shared → sound other (system.advance moved shared).1)
    {config : Config Shared Stage} {labels : List (Label Request)}
    (requests : ∀ request, .start request ∈ labels → allowed request)
    (fresh : ∀ stage ∈ config.pending, sound stage config.shared)
    (initially : invariant config.shared) :
    invariant (run system.step config labels).shared ∧
      ∀ stage ∈ (run system.step config labels).pending,
        sound stage (run system.step config labels).shared := by
  induction labels generalizing config with
  | nil => exact ⟨initially, fresh⟩
  | cons label rest induction =>
      have later : ∀ request, .start request ∈ rest → allowed request :=
        fun request member => requests request (List.mem_cons_of_mem _ member)
      rw [run_cons]
      cases label with
      | start request =>
          apply induction later
          · intro stage member
            rcases List.mem_append.mp member with old | new
            · exact fresh stage old
            · apply starts request config.shared stage
                (requests request List.mem_cons_self) initially
              simpa using new
          · exact initially
      | advance index =>
          cases found : config.pending[index]? with
          | none =>
              have stays : system.step config (.advance index) = config := by
                simp only [step, found]
              rw [stays]
              exact induction later fresh initially
          | some moved =>
              have movedSound := fresh moved (List.mem_of_getElem? found)
              obtain ⟨kept, nextSound⟩ :=
                advances moved config.shared initially movedSound
              have otherSound (stage : Stage)
                  (member : stage ∈ config.pending) :
                  sound stage (system.advance moved config.shared).1 :=
                stable moved stage config.shared initially movedSound
                  (fresh stage member)
              apply induction later
              · intro stage member
                simp only [step, found] at member ⊢
                cases following : (system.advance moved config.shared).2 with
                | none =>
                    rw [following] at member
                    exact otherSound stage (List.mem_of_mem_eraseIdx member)
                | some next =>
                    rw [following] at member
                    rcases List.mem_or_eq_of_mem_set member with old | rfl
                    · exact otherSound stage old
                    · exact nextSound stage following
              · simp only [step, found]
                exact kept

end Rule

section Guarded

variable {invariant : Shared → Prop} {allowed : Stage → Shared → Prop}
variable {config : Config Shared Stage} {labels : List (Label Request)}

/-- Where operations start soundly, and an allowed sound stage keeps the
invariant and leaves a sound stage, the invariant holds after a run in which all
stages were allowed. -/
theorem invariant_of_guarded_stages {sound : Stage → Prop}
    (starts : ∀ request shared stage, invariant shared →
      system.start request shared = some stage → sound stage)
    (advances : ∀ stage shared, invariant shared → sound stage →
      allowed stage shared →
      invariant (system.advance stage shared).1 ∧
        ∀ next ∈ (system.advance stage shared).2, sound next)
    (fresh : ∀ stage ∈ config.pending, sound stage)
    (initially : invariant config.shared)
    (guarded : Always system.step (Guarded allowed) config labels) :
    invariant (run system.step config labels).shared := by
  have kept : ∀ config (label : Label Request),
      (invariant config.shared ∧ ∀ stage ∈ config.pending, sound stage) →
      Guarded allowed config label →
      invariant (system.step config label).shared ∧
        ∀ stage ∈ (system.step config label).pending, sound stage := by
    rintro config label ⟨holds, pendingSound⟩ permitted
    cases label with
    | start request =>
        refine ⟨holds, ?_⟩
        intro stage member
        rcases List.mem_append.mp member with old | new
        · exact pendingSound stage old
        · apply starts request config.shared stage holds
          simpa using new
    | advance index =>
        cases found : config.pending[index]? with
        | none =>
            simp only [step, found]
            exact ⟨holds, pendingSound⟩
        | some moved =>
            have movedSound := pendingSound moved (List.mem_of_getElem? found)
            obtain ⟨stillHolds, nextSound⟩ :=
              advances moved config.shared holds movedSound
                (permitted moved found)
            simp only [step, found]
            refine ⟨stillHolds, ?_⟩
            intro stage member
            cases following : (system.advance moved config.shared).2 with
            | none =>
                rw [following] at member
                exact pendingSound stage (List.mem_of_mem_eraseIdx member)
            | some next =>
                rw [following] at member
                rcases List.mem_or_eq_of_mem_set member with old | rfl
                · exact pendingSound stage old
                · exact nextSound stage following
  exact (invariant_of_always kept ⟨initially, fresh⟩ guarded).1

end Guarded

end System

end Stages
