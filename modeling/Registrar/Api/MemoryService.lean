import Registrar.Store.Store

/-!
# Memory service

Lifecycle transitions and recategorizations of stored memories.  Each reads the
row, checks the request, and writes the row and its receipt in one transaction.
-/

namespace Registrar

open Program

def badRequest (message : String) : RegistrarError :=
  .api 400 message none

def notFound (message : String) : RegistrarError :=
  .api 404 message none

def unprocessable (message : String) (code : Option String) : RegistrarError :=
  .api 422 message code

def lifecycleToAction : MemoryLifecycleState → AuditAction
  | .archived => .archived
  | .superseded => .superseded
  | .deprecated => .demoted
  | .active => .promoted

namespace MemoryService

variable (env : Environment)

def getById (id : String) : StoreM CuratedMemory := do
  let found ← query fun store : Store => store.curatedMemories.find? id
  match found with
  | none => throw (notFound ("Memory " ++ id ++ " not found"))
  | some memory => pure memory

/-- Supersession errors become bad requests. -/
def supersessionError : RegistrarError → StoreM Bool
  | .invalidSupersession message => throw (badRequest message)
  | error => throw error

/-- The write of a transition, by its target. -/
def changeLifecycle (id : String) (target : MemoryLifecycleState)
    (request : TransitionRequest) (now : String) : StoreM Bool :=
  if target = .superseded then
    match request.supersededBy with
    | none => throw (badRequest "supersededBy is required")
    | some supersededBy =>
        tryCatch
          (MemoryRepository.supersede env id supersededBy request.reason.value
            now)
          supersessionError
  else MemoryRepository.updateLifecycle id target now

def transitionEvent (memory : CuratedMemory) (target : MemoryLifecycleState)
    (request : TransitionRequest) (draw : Draw) : AuditEventInput where
  id := draw.freshId
  action := lifecycleToAction target
  memoryId := memory.id
  tenantId := memory.tenantId.value
  actor := request.actor
  reason := some request.reason.value
  details :=
    [("from", .string memory.lifecycle.text), ("to", .string target.text)] ++
      (if target = .superseded then
        request.supersededBy.toList.map fun supersededBy =>
          ("supersededBy", .string supersededBy)
      else [])
  timestamp := draw.now

/-- The body of a transition, inside the transaction. -/
def attemptTransition (id : String) (target : MemoryLifecycleState)
    (request : TransitionRequest) (draw : Draw) : StoreM CuratedMemory := do
  let memory ← getById id
  match validateTransition memory.lifecycle target request with
  | some error => throw (badRequest error)
  | none =>
      let _ ← changeLifecycle env id target request draw.now
      AuditRepository.record env (transitionEvent memory target request draw)
      getById id

/-- Move a memory to another lifecycle state.  A request is its parsed body or
the schema's complaint. -/
def transition (id : String) (target : MemoryLifecycleState)
    (request : Except String TransitionRequest) (draw : Draw) :
    StoreM CuratedMemory :=
  match request with
  | .error complaint =>
      throw (badRequest ("Invalid transition request: " ++ complaint))
  | .ok request => transaction (attemptTransition env id target request draw)

def recategorizedEvent (memory : CuratedMemory) (request : RecategorizeRequest)
    (draw : Draw) : AuditEventInput where
  id := draw.freshId
  action := .recategorized
  memoryId := memory.id
  tenantId := memory.tenantId.value
  actor := request.actor
  reason := some request.reason.value
  details :=
    [("fromCategory", .string memory.category.text),
      ("toCategory", .string request.category.text)]
  timestamp := draw.now

def recategorized (memory : CuratedMemory) (category : MemoryCategory)
    (now : String) : CuratedMemory :=
  { memory with
    category := category
    updatedAt := now }

/-- The body of a recategorization, inside the transaction. -/
def attemptRecategorize (id : String) (request : RecategorizeRequest)
    (draw : Draw) : StoreM CuratedMemory := do
  let memory ← getById id
  ensure (memory.category ≠ request.category)
    (badRequest ("Memory " ++ id ++ " is already category \"" ++
      memory.category.text ++ "\""))
  let updated := recategorized memory request.category draw.now
  let _ ← MemoryRepository.update updated
  AuditRepository.record env (recategorizedEvent memory request draw)
  pure updated

def recategorize (id : String) (request : Except String RecategorizeRequest)
    (draw : Draw) : StoreM CuratedMemory :=
  match request with
  | .error complaint =>
      throw (badRequest ("Invalid recategorize request: " ++ complaint))
  | .ok request => transaction (attemptRecategorize env id request draw)

variable {env} {before after : Store → Prop}

/-- The receipt of a transition. -/
def IsTransitionReceipt (event : AuditEvent) : Prop :=
  ∃ target, event.action = lifecycleToAction target

theorem getById_triple (id : String) :
    Triple before (getById id)
      (fun memory store =>
        store.curatedMemories.find? id = some memory ∧ before store)
      (fun _ => before) := by
  unfold getById
  apply Triple.bind (Triple.query_eq _)
  intro found
  cases found with
  | none => exact Triple.throw _ fun _ start => start.2
  | some memory => exact Triple.pure _ fun _ start => start

theorem changeLifecycle_triple {id now : String}
    {target : MemoryLifecycleState} {request : TransitionRequest}
    (unchanged : ∀ store, before store → after store)
    (changed : LifecycleLeads id target before after) :
    Triple before (changeLifecycle env id target request now) (fun _ => after)
      (fun _ _ => True) := by
  unfold changeLifecycle
  apply Triple.ite
  · intro retiring
    rw [retiring] at changed
    cases request.supersededBy with
    | none => exact Triple.throw _ fun _ _ => trivial
    | some supersededBy =>
        apply Triple.tryCatch
          (MemoryRepository.supersede_triple unchanged changed)
        intro error
        cases error <;> exact Triple.throw _ fun _ _ => trivial
  · intro moving
    apply Triple.weaken
      (MemoryRepository.updateLifecycle_triple unchanged changed)
    · exact fun _ start => start
    · exact fun _ _ ended => ended
    · exact fun _ _ _ => trivial

/-- A transition makes one legal change and records it, or does nothing. -/
theorem transition_triple {id : String} {target : MemoryLifecycleState}
    {request : Except String TransitionRequest} {draw : Draw}
    (unchanged : ∀ store, before store → after store)
    (changed : LifecycleLeads id target before after)
    (recorded : SurvivesAppend env IsTransitionReceipt after) :
    Triple before (transition env id target request draw) (fun _ => after)
      (fun _ => before) := by
  unfold transition
  cases request with
  | error complaint => exact Triple.throw _ fun _ start => start
  | ok request =>
  apply Triple.transaction _ fun _ _ start => start
  unfold attemptTransition
  apply Triple.bind (Triple.weaken (getById_triple id) (fun _ start => start)
    (fun _ _ read => read.2) (fun _ _ _ => trivial))
  intro memory
  cases validateTransition memory.lifecycle target request with
  | some error => exact Triple.throw _ fun _ _ => trivial
  | none =>
      apply Triple.bind (changeLifecycle_triple unchanged changed)
      intro _
      have receipted : Keeps after
          (AuditRepository.record env
            (transitionEvent memory target request draw)) := by
        apply AuditRepository.record_keeps recorded
        intro event parsed
        obtain ⟨tenantId, reason, -, rfl⟩ := AuditEvent.parse_eq_ok parsed
        exact ⟨target, rfl⟩
      apply Triple.bind (Triple.anyFailure receipted)
      intro _
      apply Triple.weaken (getById_triple id) (fun _ start => start)
      · exact fun _ _ read => read.2
      · exact fun _ _ _ => trivial

/-- A recategorization changes the category of one row and records it, or does
nothing. -/
theorem recategorize_triple {id : String}
    {request : Except String RecategorizeRequest} {draw : Draw}
    (changed : ∀ store memory category now, before store →
      store.curatedMemories.find? id = some memory →
      after
        { store with
          curatedMemories := store.curatedMemories.replace
            (recategorized memory category now) })
    (recorded : SurvivesAppend env (·.action = .recategorized) after) :
    Triple before (recategorize env id request draw) (fun _ => after)
      (fun _ => before) := by
  unfold recategorize
  cases request with
  | error complaint => exact Triple.throw _ fun _ start => start
  | ok request =>
  apply Triple.transaction _ fun _ _ start => start
  unfold attemptRecategorize
  apply Triple.bind (Triple.anyFailure (getById_triple id))
  intro memory
  apply Triple.bind (Triple.ensured fun _ _ => trivial)
  intro _
  apply Triple.bind
  · apply MemoryRepository.update_triple
    intro store start
    exact changed store memory request.category draw.now start.2.2 start.2.1
  intro _
  have receipted : Keeps after
      (AuditRepository.record env (recategorizedEvent memory request draw)) := by
    apply AuditRepository.record_keeps recorded
    intro event parsed
    obtain ⟨tenantId, reason, -, rfl⟩ := AuditEvent.parse_eq_ok parsed
    rfl
  apply Triple.bind (Triple.anyFailure receipted)
  intro _
  exact Triple.pure _ fun _ start => start

end MemoryService

end Registrar
