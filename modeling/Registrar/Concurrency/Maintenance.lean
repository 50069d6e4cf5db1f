import Registrar.Api.MemoryService
import Registrar.Curator.NarrowAudience
import Registrar.Curator.RedactMemory
import Registrar.Library.TwoPhase

/-!
# Maintenance of stored memories from several connections

Narrowings and redactions read their row before their transaction opens;
recategorizations and transitions read it inside.  Every operation is its
reads, followed later by its transaction.
-/

namespace Registrar

open Program TwoPhase

/-- The plan that a read phase leaves, unless the operation ended there. -/
def planOf {Result Plan : Type} (reads : StoreM (Except Result Plan))
    (store : Store) : Option Plan :=
  match reads store with
  | .ok (.ok plan) _ => some plan
  | .ok (.error _) _ | .error _ _ => none

theorem planOf_eq_some {Result Plan : Type}
    {reads : StoreM (Except Result Plan)} {store : Store} {plan : Plan}
    (planned : planOf reads store = some plan) :
    ∃ final, reads store = .ok (.ok plan) final := by
  unfold planOf at planned
  split at planned
  · rename_i ended
    cases planned
    exact ⟨_, ended⟩
  · cases planned
  · cases planned

inductive MaintenanceRequest where
  | narrowAudience (input : NarrowAudienceInput) (draw : Draw)
  | redactMemory (input : RedactMemoryInput) (freshId : Nat → String)
      (now : String)
  | recategorize (id : String) (request : Except String RecategorizeRequest)
      (draw : Draw)
  | transition (id : String) (target : MemoryLifecycleState)
      (request : Except String TransitionRequest) (draw : Draw)

inductive MaintenancePlan where
  | narrowing (plan : NarrowingPlan)
  | redaction (plan : RedactionPlan) (updated : CuratedMemory)
      (freshId : Nat → String) (now : String)
  | recategorize (id : String) (request : Except String RecategorizeRequest)
      (draw : Draw)
  | transition (id : String) (target : MemoryLifecycleState)
      (request : Except String TransitionRequest) (draw : Draw)

variable (env : Environment)

def readMaintenance :
    MaintenanceRequest → Store → Option MaintenancePlan
  | .narrowAudience input draw, store =>
      (planOf (planNarrowing input draw) store).map .narrowing
  | .redactMemory input freshId now, store =>
      (planOf (planRedaction env input now) store).map fun planned =>
        .redaction planned.1 planned.2 freshId now
  | .recategorize id request draw, _ => some (.recategorize id request draw)
  | .transition id target request draw, _ =>
      some (.transition id target request draw)

def writeMaintenance : MaintenancePlan → Store → Store
  | .narrowing plan => finalState (commitNarrowing env plan)
  | .redaction plan updated freshId now =>
      finalState (commitRedaction env plan updated freshId now)
  | .recategorize id request draw =>
      finalState (MemoryService.recategorize env id request draw)
  | .transition id target request draw =>
      finalState (MemoryService.transition env id target request draw)

def maintenance : System Store MaintenanceRequest MaintenancePlan where
  read := readMaintenance env
  write := writeMaintenance env

/-- What the reads establish of a plan. -/
def MaintenancePlan.Planned : MaintenancePlan → Prop
  | .narrowing plan =>
      plan.receipt.action = .audienceNarrowed ∧
        resolveAudience plan.updated.metadata.audience = plan.target
  | .redaction plan updated _ _ =>
      plan.For env plan.input plan.memory ∧
        RewrittenFrom plan plan.memory updated ∧
        plan.memory.id = plan.input.memoryId
  | .recategorize _ _ _ | .transition _ _ _ _ => True

variable {env}

theorem maintenance_reads (request : MaintenanceRequest) (store : Store)
    (plan : MaintenancePlan)
    (read : (maintenance env).read request store = some plan) :
    plan.Planned env := by
  cases request with
  | narrowAudience input draw =>
      obtain ⟨narrowing, planned, rfl⟩ := Option.map_eq_some_iff.mp read
      obtain ⟨final, ended⟩ := planOf_eq_some planned
      obtain ⟨-, action, memory, -, updated, -⟩ := planNarrowing_eq_ok ended
      refine ⟨action, ?_⟩
      rw [updated]
      rfl
  | redactMemory input freshId now =>
      obtain ⟨⟨redaction, updated⟩, planned, rfl⟩ :=
        Option.map_eq_some_iff.mp read
      obtain ⟨final, ended⟩ := planOf_eq_some planned
      obtain ⟨-, row, found, planFor, rewritten⟩ := planRedaction_eq_ok ended
      have sameId := (Table.find?_eq_some_iff.mp found).2
      obtain ⟨rfl, rfl, old, new⟩ := planFor
      exact ⟨⟨rfl, rfl, old, new⟩, rewritten, sameId⟩
  | recategorize id request draw =>
      cases read
      trivial
  | transition id target request draw =>
      cases read
      trivial

/-- The operation as the code runs it when nothing comes in between. -/
def MaintenanceRequest.alone (env : Environment) :
    MaintenanceRequest → Store → Store
  | .narrowAudience input draw =>
      finalState (Registrar.narrowAudience env input draw)
  | .redactMemory input freshId now =>
      finalState (Registrar.redactMemory env input freshId now)
  | .recategorize id request draw =>
      finalState (MemoryService.recategorize env id request draw)
  | .transition id target request draw =>
      finalState (MemoryService.transition env id target request draw)

theorem planNarrowing_keeps {invariant : Store → Prop}
    (input : NarrowAudienceInput) (draw : Draw) :
    Keeps invariant (planNarrowing input draw) := by
  unfold planNarrowing
  apply Keeps.bind (Keeps.query _)
  intro checked
  cases checked with
  | error result => exact Keeps.pure _
  | ok parts =>
      apply Keeps.ite
      · intro _
        exact Keeps.pure _
      · intro _
        apply Keeps.bind (orSchemaError_keeps _)
        intro receipt
        exact Keeps.pure _

theorem planRedaction_keeps {invariant : Store → Prop}
    (input : RedactMemoryInput) (now : String) :
    Keeps invariant (planRedaction env input now) := by
  unfold planRedaction
  apply Keeps.bind (Keeps.query _)
  intro prepared
  cases prepared with
  | error result => exact Keeps.pure _
  | ok plan =>
      apply Keeps.bind (orSchemaError_keeps _)
      intro updated
      exact Keeps.pure _

/-- Reading a plan and writing it at once is the program that does both. -/
theorem finalState_planOf {Result Plan : Type}
    {reads : StoreM (Except Result Plan)}
    {rest : Except Result Plan → StoreM Result}
    (readOnly : ∀ invariant : Store → Prop, Keeps invariant reads)
    (ends : ∀ result, rest (.error result) = pure result) (store : Store) :
    finalState (reads >>= rest) store =
      match planOf reads store with
      | none => store
      | some plan => finalState (rest (.ok plan)) store := by
  have same := (readOnly (· = store)).run store rfl
  unfold planOf finalState
  cases ended : reads store with
  | error error next =>
      rw [ended] at same
      rw [bind_apply_of_error ended]
      exact same
  | ok planned next =>
      rw [ended] at same
      obtain rfl : next = store := same
      rw [bind_apply_of_ok ended]
      cases planned with
      | error result => rw [ends result, pure_apply]
      | ok plan => rfl

/-- A request that is committed right after its reads has the effect of the
operation. -/
theorem maintenance_alone (request : MaintenanceRequest) (store : Store) :
    (Transition.run (maintenance env).step (Config.idle store)
        [.start request, .commit 0]).shared =
      request.alone env store := by
  rw [System.shared_of_start_commit]
  cases request with
  | narrowAudience input draw =>
      simp only [MaintenanceRequest.alone, Registrar.narrowAudience]
      rw [finalState_planOf (fun _ => planNarrowing_keeps input draw)
        (fun _ => rfl)]
      simp only [maintenance, readMaintenance]
      cases planOf (planNarrowing input draw) store <;> rfl
  | redactMemory input freshId now =>
      simp only [MaintenanceRequest.alone, Registrar.redactMemory]
      rw [finalState_planOf (fun _ => planRedaction_keeps input now)
        (fun _ => rfl)]
      simp only [maintenance, readMaintenance]
      cases planOf (planRedaction env input now) store <;> rfl
  | recategorize id request draw => rfl
  | transition id target request draw => rfl

/-- A store that holds one memory and nothing else. -/
def storeOf (memory : CuratedMemory) : Store :=
  { Store.empty with
    curatedMemories :=
      { rows := [memory]
        coexist := List.pairwise_singleton _ _ } }

end Registrar
