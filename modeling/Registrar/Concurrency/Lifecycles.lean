import Registrar.Concurrency.Maintenance
import Registrar.Curator.Curator
import Registrar.Curator.MergeGate

/-!
# Lifecycles under concurrent writers

Transitions and supersessions check the state graph inside their transaction.
A promotion retires what it planned to retire before its transaction, a
redaction writes the lifecycle that it read before, and `updateLifecycle` checks
in one statement and writes in another.
-/

namespace Registrar

open Program TwoPhase Transition

/-- The check: a result when nothing is to be written. -/
def checkLifecycle (id : String) (lifecycle : MemoryLifecycleState) :
    StoreM (Except Bool PUnit) := do
  match ← query fun store : Store => store.curatedMemories.find? id with
  | none => pure (.error false)
  | some memory =>
      if memory.lifecycle = lifecycle then pure (.ok ⟨⟩)
      else if !isTransitionAllowed memory.lifecycle lifecycle then
        throw (.invalidLifecycleTransition memory.lifecycle lifecycle)
      else if lifecycle = .superseded then
        throw (.invalidSupersession
          "Supersession requires a validated replacement; use supersede()")
      else pure (.ok ⟨⟩)

/-- The write.  A row that lost its link since the check cannot be stored as
superseded; only its timestamp changes here. -/
def writeLifecycle (id : String) (lifecycle : MemoryLifecycleState)
    (updatedAt : String) : StoreM Bool := do
  match ← query fun store : Store => store.curatedMemories.find? id with
  | none => pure false
  | some memory =>
      if linked : lifecycle = .superseded → memory.supersession ≠ none then
        MemoryRepository.update
          { memory with
            lifecycle := lifecycle
            updatedAt := updatedAt
            supersededHasLink := linked }
      else MemoryRepository.update { memory with updatedAt := updatedAt }

/-- Who plans the supersessions of a promotion. -/
inductive SupersessionPlanner where
  | curator (config : CuratorConfig) (meters : CuratorMeters)
  | promotionService

variable (env : Environment)

def plannedSupersessions (planner : SupersessionPlanner)
    (candidate : MemoryCandidate) (store : Store) : List SupersessionMatch :=
  match planner with
  | .curator config meters =>
      (chooseSupersessions config meters
        (planFor env store candidate config.supersessionThreshold
          config.maxSupersedesPerPromotion)).1
  | .promotionService => (planFor env store candidate none none).matched

/-- What `promote` has computed when its transaction opens. -/
structure PromotionPlan where
  input : PromotionInput
  memory : CuratedMemory
  minimum : Option Sensitivity

/-- The part of `promote` before its transaction. -/
def preparePromotion (input : PromotionInput) (now : String) :
    StoreM (Except PUnit PromotionPlan) := do
  let minimum ← resolveMinimum env input.candidate
  ensure (minimum = input.minimumSensitivity)
    (.error ("Sensitivity constraint changed since policy evaluation; " ++
      "retry governance"))
  let memory ← orSchemaError (input.memory env now minimum)
  pure (.ok
    { input := input
      memory := memory
      minimum := minimum })

inductive LifecycleRequest where
  | transition (id : String) (target : MemoryLifecycleState)
      (request : Except String TransitionRequest) (draw : Draw)
  | updateLifecycle (id : String) (lifecycle : MemoryLifecycleState)
      (updatedAt : String)
  | supersede (id supersededBy reason now : String)
  | promote (planner : SupersessionPlanner) (input : PromotionInput)
      (withLinks : Bool) (now : String)
  | redactMemory (input : RedactMemoryInput) (freshId : Nat → String)
      (now : String)

inductive LifecyclePlan where
  | transition (id : String) (target : MemoryLifecycleState)
      (request : Except String TransitionRequest) (draw : Draw)
  | lifecycle (id : String) (lifecycle : MemoryLifecycleState)
      (updatedAt : String)
  | supersede (id supersededBy reason now : String)
  | promotion (plan : PromotionPlan) (withLinks : Bool) (now : String)
  | redaction (plan : RedactionPlan) (updated : CuratedMemory)
      (freshId : Nat → String) (now : String)

/-- The input with the supersessions that the planner finds in the store. -/
def PromotionInput.withPlan (input : PromotionInput)
    (planner : SupersessionPlanner) (store : Store) : PromotionInput :=
  { input with
    supersessions := plannedSupersessions env planner input.candidate store }

def readLifecycleRequest : LifecycleRequest → Store → Option LifecyclePlan
  | .transition id target request draw, _ =>
      some (.transition id target request draw)
  | .updateLifecycle id lifecycle updatedAt, store =>
      (planOf (checkLifecycle id lifecycle) store).map fun _ =>
        .lifecycle id lifecycle updatedAt
  | .supersede id supersededBy reason now, _ =>
      some (.supersede id supersededBy reason now)
  | .promote planner input withLinks now, store =>
      (planOf (preparePromotion env (input.withPlan env planner store) now)
        store).map fun plan => .promotion plan withLinks now
  | .redactMemory input freshId now, store =>
      (planOf (planRedaction env input now) store).map fun planned =>
        .redaction planned.1 planned.2 freshId now

def writeLifecyclePlan : LifecyclePlan → Store → Store
  | .transition id target request draw =>
      finalState (MemoryService.transition env id target request draw)
  | .lifecycle id lifecycle updatedAt =>
      finalState (writeLifecycle id lifecycle updatedAt)
  | .supersede id supersededBy reason now =>
      finalState (MemoryRepository.supersede env id supersededBy reason now)
  | .promotion plan withLinks now =>
      finalState (transaction
        (plan.input.commit env now withLinks plan.memory plan.minimum))
  | .redaction plan updated freshId now =>
      finalState (commitRedaction env plan updated freshId now)

def lifecycles : System Store LifecycleRequest LifecyclePlan where
  read := readLifecycleRequest env
  write := writeLifecyclePlan env

/-- Every memory is still stored, and its lifecycle changed legally if at
all. -/
def LegalLifecycles (before after : Store) : Prop :=
  ∀ old ∈ before.curatedMemories.rows, ∃ new ∈ after.curatedMemories.rows,
    new.id = old.id ∧ LegalChange old.lifecycle new.lifecycle

instance (before after : Store) : Decidable (LegalLifecycles before after) :=
  inferInstanceAs (Decidable (∀ old ∈ _, ∃ new ∈ _, _ ∧ _))

theorem LegalLifecycles.refl (store : Store) : LegalLifecycles store store :=
  fun old member => ⟨old, member, rfl, .inl rfl⟩

/-- Nothing leads out of `archived`. -/
theorem legalChange_archived {target : MemoryLifecycleState}
    (legal : LegalChange .archived target) : target = .archived := by
  rcases legal with same | allowed
  · exact same
  · cases target <;> simp [isTransitionAllowed, allowedTransitions] at allowed

/-- What a write does to the lifecycles it does not check is legal: the row is
in a state from which the planned one may follow. -/
def LifecyclePlan.InStep : LifecyclePlan → Store → Prop
  | .promotion plan _ _, store =>
      ∀ sup ∈ distinctSupersessions plan.input.supersessions,
        ∀ stored ∈ store.curatedMemories.rows,
          stored.id = sup.supersededMemoryId →
            stored.lifecycle = .active ∨ stored.lifecycle = .superseded
  | .redaction plan _ _ _, store =>
      ∀ stored ∈ store.curatedMemories.rows, stored.id = plan.memory.id →
        LegalChange stored.lifecycle plan.memory.lifecycle
  | .lifecycle id target _, store =>
      ∀ stored ∈ store.curatedMemories.rows, stored.id = id →
        LegalChange stored.lifecycle target
  | .transition _ _ _ _, _ | .supersede _ _ _ _, _ => True

instance (plan : LifecyclePlan) (store : Store) :
    Decidable (plan.InStep store) := by
  cases plan <;> unfold LifecyclePlan.InStep <;> infer_instance

/-- What the reads establish of a plan. -/
def LifecyclePlan.Planned : LifecyclePlan → Prop
  | .promotion plan _ _ => plan.memory.lifecycle = .active
  | .redaction plan updated _ _ => RewrittenFrom plan plan.memory updated
  | .transition _ _ _ _ | .lifecycle _ _ _ | .supersede _ _ _ _ => True

variable {env}

theorem preparePromotion_eq_ok {input : PromotionInput} {now : String}
    {store final : Store} {plan : PromotionPlan}
    (prepared : preparePromotion env input now store = .ok (.ok plan) final) :
    plan.input = input ∧
      input.memory env now plan.minimum = .ok plan.memory := by
  obtain ⟨minimum, _, resolved, afterFloor⟩ := bind_eq_ok_iff.mp prepared
  obtain ⟨_, _, agreed, afterCheck⟩ := bind_eq_ok_iff.mp afterFloor
  obtain ⟨memory, _, parsed, returned⟩ := bind_eq_ok_iff.mp afterCheck
  cases returned
  exact ⟨rfl, (orSchemaError_eq_ok_iff.mp parsed).1⟩

theorem lifecycles_reads (request : LifecycleRequest) (store : Store)
    (plan : LifecyclePlan)
    (read : (lifecycles env).read request store = some plan) :
    plan.Planned := by
  cases request with
  | transition id target request draw =>
      cases read
      trivial
  | updateLifecycle id lifecycle updatedAt =>
      obtain ⟨_, -, rfl⟩ := Option.map_eq_some_iff.mp read
      trivial
  | supersede id supersededBy reason now =>
      cases read
      trivial
  | promote planner input withLinks now =>
      obtain ⟨plan, planned, rfl⟩ := Option.map_eq_some_iff.mp read
      obtain ⟨final, ended⟩ := planOf_eq_some planned
      obtain ⟨-, built⟩ := preparePromotion_eq_ok ended
      exact (PromotionInput.memory_eq_ok built).2.2.2.2.2.1
  | redactMemory input freshId now =>
      obtain ⟨⟨redaction, updated⟩, planned, rfl⟩ :=
        Option.map_eq_some_iff.mp read
      obtain ⟨final, ended⟩ := planOf_eq_some planned
      obtain ⟨-, row, -, planFor, rewritten⟩ := planRedaction_eq_ok ended
      obtain ⟨-, rfl, -, -⟩ := planFor
      exact rewritten

theorem legalLifecycles_replace {store : Store} {row : CuratedMemory}
    (legal : ∀ stored ∈ store.curatedMemories.rows, stored.id = row.id →
      LegalChange stored.lifecycle row.lifecycle) :
    LegalLifecycles store
      { store with
        curatedMemories := store.curatedMemories.replace row } := by
  have evolved : store.curatedMemories.Evolves
      (fun old new => LegalChange old.lifecycle new.lifecycle)
      (fun _ => False) (store.curatedMemories.replace row) :=
    Table.evolves_replace (fun _ => .inl rfl) legal
  exact evolved.survives

theorem survivesAppend_legalLifecycles (store : Store)
    (kind : AuditEvent → Prop) :
    SurvivesAppend env kind (LegalLifecycles store) :=
  fun _ _ _ _ holds _ => holds

theorem lifecycleLeads_legal (store : Store) (id : String)
    (target : MemoryLifecycleState) :
    LifecycleLeads id target (· = store) (LegalLifecycles store) := by
  rintro _ old new rfl found same isTarget legal _
  apply legalLifecycles_replace
  intro stored member sameId
  have isOld := Table.eq_of_key_eq member
    (Table.find?_eq_some_iff.mp found).1 (sameId.trans same.id)
  rw [isOld, isTarget]
  exact legal

theorem writeLifecycle_triple {store : Store} {id updatedAt : String}
    {lifecycle : MemoryLifecycleState}
    (legal : ∀ stored ∈ store.curatedMemories.rows, stored.id = id →
      LegalChange stored.lifecycle lifecycle) :
    Triple (· = store) (writeLifecycle id lifecycle updatedAt)
      (fun _ => LegalLifecycles store) (fun _ => (· = store)) := by
  have unchanged : ∀ current, current = store →
      LegalLifecycles store current := by
    rintro _ rfl
    exact LegalLifecycles.refl _
  unfold writeLifecycle
  apply Triple.bind (Triple.query_eq _)
  intro found
  cases found with
  | none =>
      apply Triple.pure
      intro current start
      exact unchanged current start.2
  | some memory =>
      dsimp only
      split_ifs with linked
      · apply MemoryRepository.update_triple
        rintro _ ⟨stored, rfl⟩
        apply lifecycleLeads_legal _ id lifecycle _ memory _ rfl stored
        · exact ⟨rfl, rfl, rfl, rfl, rfl, rfl⟩
        · rfl
        · obtain ⟨member, sameId⟩ := Table.find?_eq_some_iff.mp stored
          exact legal memory member sameId
        · exact .inl rfl
      · apply MemoryRepository.update_triple
        rintro _ ⟨stored, rfl⟩
        apply lifecycleLeads_legal _ id memory.lifecycle _ memory _ rfl stored
        · exact ⟨rfl, rfl, rfl, rfl, rfl, rfl⟩
        · rfl
        · exact .inl rfl
        · exact .inl rfl

/-- A row that a promotion leaves alone or retires while it is active. -/
def RetiredOrKept (old new : CuratedMemory) : Prop :=
  new.lifecycle = old.lifecycle ∨
    old.lifecycle = .active ∧ new.lifecycle = .superseded

theorem RetiredOrKept.legal {old new : CuratedMemory}
    (retired : RetiredOrKept old new) :
    LegalChange old.lifecycle new.lifecycle := by
  rcases retired with same | ⟨active, superseded⟩
  · exact .inl same
  · right
    rw [active, superseded]
    rfl

/-- The rows so far have been retired or kept, and those that the promotion
retires can be. -/
structure RetiresLegally (plan : PromotionPlan) (start current : Store) :
    Prop where
  evolved : start.curatedMemories.Evolves RetiredOrKept (fun _ => True)
    current.curatedMemories
  retirable : ∀ sup ∈ distinctSupersessions plan.input.supersessions,
    ∀ stored ∈ current.curatedMemories.rows,
      stored.id = sup.supersededMemoryId →
        stored.lifecycle = .active ∨ stored.lifecycle = .superseded

theorem RetiresLegally.retire {plan : PromotionPlan} {start current : Store}
    (holds : RetiresLegally plan start current) {old : CuratedMemory}
    {sup : SupersessionMatch}
    (planned : sup ∈ distinctSupersessions plan.input.supersessions)
    (found : current.curatedMemories.find? sup.supersededMemoryId = some old)
    (link : SupersessionLink) (now : String) :
    RetiresLegally plan start
      { current with
        curatedMemories :=
          current.curatedMemories.replace (old.retired link now) } := by
  obtain ⟨member, oldId⟩ := Table.find?_eq_some_iff.mp found
  have isOld : ∀ stored ∈ current.curatedMemories.rows,
      stored.id = (old.retired link now).id → stored = old :=
    fun stored inside same => Table.eq_of_key_eq inside member same
  constructor
  · apply holds.evolved.replace
    · intro stored inside same first kept
      rw [isOld stored inside same] at kept
      rcases holds.retirable sup planned old member oldId with
        active | superseded
      · rcases kept with unchanged | ⟨-, isSuperseded⟩
        · exact .inr ⟨unchanged.symm.trans active, rfl⟩
        · rw [active] at isSuperseded
          cases isSuperseded
      · rcases kept with unchanged | ⟨wasActive, -⟩
        · left
          rw [← unchanged, superseded]
          rfl
        · exact .inr ⟨wasActive, rfl⟩
    · intro _ _ _ _
      trivial
  · intro other otherPlanned stored inside same
    rcases Table.mem_replace_iff.mp inside with ⟨rfl, -⟩ | ⟨kept, -⟩
    · exact .inr rfl
    · exact holds.retirable other otherPlanned stored kept same

theorem survivesPromotion_retiresLegally {plan : PromotionPlan}
    (active : plan.memory.lifecycle = .active) (start : Store) :
    SurvivesPromotion env plan.input plan.memory
      (RetiresLegally plan start) where
  appended := fun _ _ _ _ holds _ => ⟨holds.evolved, holds.retirable⟩
  linked := fun _ _ holds => ⟨holds.evolved, holds.retirable⟩
  retired := by
    intro sup planned store old link now holds found
    exact holds.retire planned found link now
  inserted := by
    intro store next holds inserted
    have rows := Table.rows_of_insert? inserted
    constructor
    · exact holds.evolved.insert trivial rows
    · intro sup planned stored inside same
      rw [rows] at inside
      rcases List.mem_append.mp inside with kept | new
      · exact holds.retirable sup planned stored kept same
      · rw [List.mem_singleton.mp new]
        exact .inl active

theorem lifecycles_legal (plan : LifecyclePlan) (store : Store)
    (planned : plan.Planned) (inStep : plan.InStep store) :
    LegalLifecycles store ((lifecycles env).write plan store) := by
  have unchanged : ∀ current, current = store →
      LegalLifecycles store current := by
    rintro _ rfl
    exact LegalLifecycles.refl _
  cases plan with
  | transition id target request draw =>
      refine Triple.finalState ?_ unchanged rfl
      exact MemoryService.transition_triple unchanged
        (lifecycleLeads_legal store id _)
        (survivesAppend_legalLifecycles store _)
  | lifecycle id target updatedAt =>
      exact Triple.finalState (writeLifecycle_triple inStep) unchanged rfl
  | supersede id supersededBy reason now =>
      refine Triple.finalState ?_ unchanged rfl
      exact MemoryRepository.supersede_triple unchanged
        (lifecycleLeads_legal store id _)
  | promotion plan withLinks now =>
      have kept : Keeps (RetiresLegally plan store)
          (transaction
            (plan.input.commit env now withLinks plan.memory plan.minimum)) :=
        Triple.transaction
          (PromotionInput.commit_survives
            (survivesPromotion_retiresLegally planned store) withLinks
            plan.minimum)
          fun _ _ holds => holds
      have start : RetiresLegally plan store store :=
        ⟨Table.Evolves.refl (fun _ => .inl rfl) _, inStep⟩
      intro old member
      obtain ⟨new, inside, same, retired⟩ :=
        (Keeps.finalState kept start).evolved.survives old
          member
      exact ⟨new, inside, same, retired.legal⟩
  | redaction plan updated freshId now =>
      have replaced :
          LegalLifecycles store
            { store with
              curatedMemories := store.curatedMemories.replace updated } := by
        apply legalLifecycles_replace
        intro stored member same
        rw [planned.lifecycle]
        exact inStep stored member (same.trans planned.id)
      rcases commitRedaction_finalState replaced
          (survivesAppend_legalLifecycles store _) (fun _ _ holds => holds) with
        same | legal
      · exact unchanged _ same
      · exact legal

/-- In an interleaving whose unchecked writes are in step with the stored
lifecycles, every step changes lifecycles legally. -/
theorem lifecycle_changes_legal {store : Store}
    {labels : List (Label LifecycleRequest)}
    (inStep : Always (lifecycles env).step
      (System.Guarded LifecyclePlan.InStep) (Config.idle store) labels) :
    Always (lifecycles env).step
      (System.Related (lifecycles env) LegalLifecycles) (Config.idle store)
      labels := by
  apply System.related_of_writes lifecycles_reads LegalLifecycles.refl
    lifecycles_legal _ inStep
  intro plan member
  cases member

def minutesMemory : CuratedMemory :=
  sampleMemory plainEnvironment "candidate"
    ⟨"The vote was 4 to 3.", by decide +kernel, by simp⟩
    ⟨"Minutes", by decide +kernel, by simp⟩

def redactMinutes : LifecycleRequest :=
  .redactMemory
    { memoryId := minutesMemory.id
      tenantId := "team"
      actor := "ann"
      reason := "Not public"
      mode := .replacement "The vote was taken."
      replacementTitle := none
      dryRun := false } (fun index => toString index) "1"

def archiveMinutes : LifecycleRequest :=
  .transition minutesMemory.id .archived
    (.ok
      { reason := ⟨"Meeting closed", by decide +kernel, by simp⟩
        actor := curatorActor
        supersededBy := none })
    { freshId := "archived"
      now := "2" }

/-- The redaction reads the active row and writes it after the transition: the
archived memory is active again. -/
theorem redaction_unarchives :
    ¬ Always (lifecycles plainEnvironment).step
      (System.Related (lifecycles plainEnvironment) LegalLifecycles)
      (Config.idle (storeOf minutesMemory))
      [.start redactMinutes, .start archiveMinutes, .commit 1, .commit 0] := by
  decide +kernel

theorem lifecycle_changes_legal_inOrder :
    Always (lifecycles plainEnvironment).step
      (System.Related (lifecycles plainEnvironment) LegalLifecycles)
      (Config.idle (storeOf minutesMemory))
      [.start redactMinutes, .commit 0, .start archiveMinutes, .commit 0] :=
  lifecycle_changes_legal (by decide +kernel)

end Registrar
