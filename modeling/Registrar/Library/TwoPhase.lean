import Registrar.Library.Transition
import Mathlib.Data.List.Basic

/-!
# Operations in two phases

An operation reads a shared state and leaves a plan; the plan is written at a
later moment, after any number of steps of other operations.  The rules below
reduce a statement about every interleaving to one about the writes.
-/

namespace TwoPhase

open Transition

variable {Shared Request Plan : Type*}

/-- How requests are read and plans are written. -/
structure System (Shared Request Plan : Type*) where
  read : Request → Shared → Option Plan
  write : Plan → Shared → Shared

/-- The shared state, and the plans whose writes are still to come. -/
structure Config (Shared Plan : Type*) where
  shared : Shared
  pending : List Plan

def Config.idle (shared : Shared) : Config Shared Plan where
  shared := shared
  pending := []

inductive Label (Request : Type*) where
  | start (request : Request)
  | commit (index : Nat)

namespace System

variable (system : System Shared Request Plan)

def step (config : Config Shared Plan) :
    Label Request → Config Shared Plan
  | .start request =>
      { config with
        pending := config.pending ++
          (system.read request config.shared).toList }
  | .commit index =>
      match config.pending[index]? with
      | none => config
      | some plan =>
          { shared := system.write plan config.shared
            pending := config.pending.eraseIdx index }

/-- The write of the step, if it makes one, is allowed. -/
def Guarded (allowed : Plan → Shared → Prop) (config : Config Shared Plan) :
    Label Request → Prop
  | .start _ => True
  | .commit index =>
      ∀ plan ∈ config.pending[index]?, allowed plan config.shared

instance decidableGuarded {allowed : Plan → Shared → Prop}
    [∀ plan shared, Decidable (allowed plan shared)]
    (config : Config Shared Plan) :
    ∀ label : Label Request, Decidable (Guarded allowed config label)
  | .start _ => isTrue trivial
  | .commit index =>
      inferInstanceAs (Decidable
        (∀ plan ∈ config.pending[index]?, allowed plan config.shared))

/-- The shared states before and after the step are related. -/
def Related (relation : Shared → Shared → Prop) (config : Config Shared Plan)
    (label : Label Request) : Prop :=
  relation config.shared (system.step config label).shared

instance decidableRelated {relation : Shared → Shared → Prop}
    [DecidableRel relation] (config : Config Shared Plan)
    (label : Label Request) :
    Decidable (system.Related relation config label) :=
  inferInstanceAs (Decidable (relation config.shared _))

variable {system}

theorem shared_of_start_commit (shared : Shared) (request : Request) :
    (run system.step (Config.idle shared)
        [.start request, .commit 0]).shared =
      match system.read request shared with
      | none => shared
      | some plan => system.write plan shared := by
  cases found : system.read request shared <;>
    simp [step, Config.idle, found]

variable {planned : Plan → Prop} {allowed : Plan → Shared → Prop}

/-- What every read establishes of its plan holds of all pending plans. -/
theorem planned_step
    (reads : ∀ request shared plan,
      system.read request shared = some plan → planned plan)
    (config : Config Shared Plan) (label : Label Request)
    (before : ∀ plan ∈ config.pending, planned plan) :
    ∀ plan ∈ (system.step config label).pending, planned plan := by
  intro plan member
  cases label with
  | start request =>
      rcases List.mem_append.mp member with old | new
      · exact before plan old
      · apply reads request config.shared plan
        simpa using new
  | commit index =>
      cases found : config.pending[index]? with
      | none =>
          simp only [step, found] at member
          exact before plan member
      | some written =>
          simp only [step, found] at member
          exact before plan (List.mem_of_mem_eraseIdx member)

/-- A step changes the shared state by an allowed write, or not at all. -/
theorem shared_step
    (config : Config Shared Plan) (label : Label Request)
    (before : ∀ plan ∈ config.pending, planned plan)
    (guarded : Guarded allowed config label) :
    (system.step config label).shared = config.shared ∨
      ∃ plan, planned plan ∧ allowed plan config.shared ∧
        (system.step config label).shared =
          system.write plan config.shared := by
  cases label with
  | start request =>
      left
      rfl
  | commit index =>
      cases found : config.pending[index]? with
      | none =>
          left
          simp [step, found]
      | some plan =>
          right
          refine ⟨plan, ?_, ?_, ?_⟩
          · exact before plan (List.mem_of_getElem? found)
          · exact guarded plan found
          · simp [step, found]

section Rules

variable {invariant : Shared → Prop} {relation : Shared → Shared → Prop}

/-- In a run whose writes are all allowed, an invariant that every allowed
write keeps holds to the end. -/
theorem invariant_of_writes
    (reads : ∀ request shared plan,
      system.read request shared = some plan → planned plan)
    (kept : ∀ plan shared, planned plan → invariant shared →
      allowed plan shared → invariant (system.write plan shared))
    {config : Config Shared Plan} {labels : List (Label Request)}
    (fresh : ∀ plan ∈ config.pending, planned plan)
    (initially : invariant config.shared)
    (guarded : Always system.step (Guarded allowed) config labels) :
    invariant (run system.step config labels).shared := by
  let sound (config : Config Shared Plan) : Prop :=
    invariant config.shared ∧ ∀ plan ∈ config.pending, planned plan
  have stepKeeps : ∀ config label, sound config →
      Guarded allowed config label → sound (system.step config label) := by
    intro config label holds permitted
    constructor
    · rcases shared_step config label holds.2 permitted with
        same | ⟨plan, read, allow, written⟩
      · rw [same]
        exact holds.1
      · rw [written]
        exact kept plan config.shared read holds.1 allow
    · exact planned_step reads config label holds.2
  exact (invariant_of_always stepKeeps ⟨initially, fresh⟩ guarded).1

/-- In a run whose writes are all allowed, every step relates the shared
states before and after it as its write does. -/
theorem related_of_writes
    (reads : ∀ request shared plan,
      system.read request shared = some plan → planned plan)
    (unchanged : ∀ shared, relation shared shared)
    (related : ∀ plan shared, planned plan → allowed plan shared →
      relation shared (system.write plan shared))
    {config : Config Shared Plan} {labels : List (Label Request)}
    (fresh : ∀ plan ∈ config.pending, planned plan)
    (guarded : Always system.step (Guarded allowed) config labels) :
    Always system.step (Related system relation) config labels := by
  let sound (config : Config Shared Plan) : Prop :=
    ∀ plan ∈ config.pending, planned plan
  have stepKeeps : ∀ config label, sound config →
      Guarded allowed config label → sound (system.step config label) := by
    intro config label pending _
    exact planned_step reads config label pending
  have stepRelates : ∀ config label, sound config →
      Guarded allowed config label →
        Related system relation config label := by
    intro config label pending permitted
    unfold Related
    rcases shared_step config label pending permitted with
      same | ⟨plan, read, allow, written⟩
    · rw [same]
      exact unchanged config.shared
    · rw [written]
      exact related plan config.shared read allow
  exact always_of_always stepKeeps stepRelates fresh guarded

theorem guarded_of_allowed (allow : ∀ plan shared, allowed plan shared)
    (config : Config Shared Plan) (labels : List (Label Request)) :
    Always system.step (Guarded allowed) config labels := by
  induction labels generalizing config with
  | nil => trivial
  | cons label rest induction =>
      refine ⟨?_, induction _⟩
      cases label with
      | start request => trivial
      | commit index => exact fun plan _ => allow plan config.shared

/-- Where a plan is sound for the state it was read from and stays so through
every other write, an invariant that every sound and allowed write keeps holds
to the end, and the plans still pending are sound. -/
theorem invariant_of_sound_writes {sound : Plan → Shared → Prop}
    (reads : ∀ request shared plan, invariant shared →
      system.read request shared = some plan → sound plan shared)
    (kept : ∀ plan shared, invariant shared → sound plan shared →
      allowed plan shared → invariant (system.write plan shared))
    (stable : ∀ written shared plan, invariant shared →
      sound written shared → sound plan shared →
        sound plan (system.write written shared))
    {config : Config Shared Plan} {labels : List (Label Request)}
    (fresh : ∀ plan ∈ config.pending, sound plan config.shared)
    (initially : invariant config.shared)
    (guarded : Always system.step (Guarded allowed) config labels) :
    invariant (run system.step config labels).shared ∧
      ∀ plan ∈ (run system.step config labels).pending,
        sound plan (run system.step config labels).shared := by
  let holds (config : Config Shared Plan) : Prop :=
    invariant config.shared ∧ ∀ plan ∈ config.pending, sound plan config.shared
  have stepKeeps : ∀ config label, holds config →
      Guarded allowed config label → holds (system.step config label) := by
    intro config label before permitted
    obtain ⟨kept', sounds⟩ := before
    cases label with
    | start request =>
        refine ⟨kept', ?_⟩
        intro plan member
        rcases List.mem_append.mp member with old | new
        · exact sounds plan old
        · apply reads request config.shared plan kept'
          simpa using new
    | commit index =>
        cases found : config.pending[index]? with
        | none =>
            simp only [step, found]
            exact ⟨kept', sounds⟩
        | some written =>
            have writtenSound := sounds written (List.mem_of_getElem? found)
            simp only [step, found]
            refine ⟨kept written config.shared kept' writtenSound
              (permitted written found), ?_⟩
            intro plan member
            exact stable written config.shared plan kept' writtenSound
              (sounds plan (List.mem_of_mem_eraseIdx member))
  exact invariant_of_always stepKeeps ⟨initially, fresh⟩ guarded

end Rules

end System

end TwoPhase
