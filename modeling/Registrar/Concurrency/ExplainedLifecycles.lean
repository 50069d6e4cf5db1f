import Registrar.Concurrency.Lifecycles
import Registrar.Curator.ReviewedStaleness
import Registrar.Store.LifecycleReplay

/-!
# Explained lifecycles

Promotions, transitions and reviewed settlements change lifecycles together with
their receipts.  A staleness sweep writes the lifecycle in one statement and its
receipt in another.
-/

namespace Registrar

open Program

variable {env : Environment}

/-- What `updateLifecycle` has done. -/
theorem MemoryRepository.updateLifecycle_eq_ok {id updatedAt : String}
    {lifecycle : MemoryLifecycleState} {store final : Store} {changed : Bool}
    {memory : CuratedMemory}
    (found : store.curatedMemories.find? id = some memory)
    (completed : MemoryRepository.updateLifecycle id lifecycle updatedAt store =
      .ok changed final) :
    ∃ new : CuratedMemory, new.id = memory.id ∧ new.lifecycle = lifecycle ∧
      final =
        { store with curatedMemories := store.curatedMemories.replace new } := by
  unfold MemoryRepository.updateLifecycle at completed
  rw [bind_apply_of_ok (query_apply _ _), found] at completed
  dsimp only at completed
  split_ifs at completed with same forbidden retired
  · cases completed
    exact ⟨{ memory with updatedAt := updatedAt }, rfl, same, rfl⟩
  · cases completed
  · cases completed
  · cases completed
    exact ⟨{ memory with
      lifecycle := lifecycle
      updatedAt := updatedAt
      supersededHasLink := fun superseded => absurd superseded retired },
      rfl, rfl, rfl⟩

/-- What `supersede` has done. -/
theorem MemoryRepository.supersede_eq_ok {id supersededBy reason now : String}
    {store final : Store} {changed : Bool} {memory : CuratedMemory}
    (found : store.curatedMemories.find? id = some memory)
    (completed : MemoryRepository.supersede env id supersededBy reason now store =
      .ok changed final) :
    ∃ link : SupersessionLink, link.supersededBy = supersededBy ∧
      final =
        { store with
          curatedMemories :=
            store.curatedMemories.replace (memory.retired link now) } := by
  unfold MemoryRepository.supersede at completed
  cases parsed : NonEmptyString.parse? reason with
  | none =>
      rw [parsed] at completed
      cases completed
  | some text =>
      rw [parsed] at completed
      dsimp only at completed
      rw [transaction_eq_ok_iff, bind_apply_of_ok (query_apply _ _), found]
        at completed
      dsimp only at completed
      split_ifs at completed with forbidden same
      · cases completed
      · cases completed
      · rw [bind_apply_of_ok (query_apply _ _)] at completed
        split_ifs at completed with suits
        · cases completed
          exact ⟨
            { supersededBy := supersededBy
              reason := text
              linkedAt := now }, rfl, rfl⟩
        · cases completed

/-- The state that a transition leads to. -/
def MemoryService.transitionRecord (target : MemoryLifecycleState)
    (request : TransitionRequest) : LifecycleRecord where
  lifecycle := target
  replacement := if target = .superseded then request.supersededBy else none

/-- What the write of a transition has done. -/
theorem MemoryService.changeLifecycle_eq_ok {id now : String}
    {target : MemoryLifecycleState} {request : TransitionRequest}
    {store final : Store} {changed : Bool} {memory : CuratedMemory}
    (found : store.curatedMemories.find? id = some memory)
    (completed : MemoryService.changeLifecycle env id target request now store =
      .ok changed final) :
    ∃ new : CuratedMemory, new.id = memory.id ∧
      new.lifecycleRecord = transitionRecord target request ∧
      final =
        { store with curatedMemories := store.curatedMemories.replace new } := by
  unfold MemoryService.changeLifecycle at completed
  by_cases retires : target = .superseded
  · rw [if_pos retires] at completed
    cases named : request.supersededBy with
    | none =>
        rw [named] at completed
        cases completed
    | some supersededBy =>
        rw [named] at completed
        dsimp only at completed
        cases superseded : MemoryRepository.supersede env id supersededBy
            request.reason.value now store with
        | ok value next =>
            rw [tryCatch_apply_of_ok superseded] at completed
            cases completed
            obtain ⟨link, sameLink, isFinal⟩ :=
              MemoryRepository.supersede_eq_ok found superseded
            refine ⟨memory.retired link now, rfl, ?_, isFinal⟩
            simp [CuratedMemory.lifecycleRecord, CuratedMemory.retired,
              transitionRecord, retires, named, sameLink]
        | error error next =>
            rw [tryCatch_apply_of_error superseded] at completed
            cases error <;> cases completed
  · rw [if_neg retires] at completed
    obtain ⟨new, sameId, isTarget, isFinal⟩ :=
      MemoryRepository.updateLifecycle_eq_ok found completed
    refine ⟨new, sameId, ?_, isFinal⟩
    simp [CuratedMemory.lifecycleRecord, transitionRecord, isTarget, retires]

theorem transitionEvent_tells {memory : CuratedMemory}
    {target : MemoryLifecycleState} {request : TransitionRequest} {draw : Draw}
    {event : AuditEvent}
    (accepted : AuditEvent.parse
      (MemoryService.transitionEvent memory target request draw) = .ok event) :
    event.memoryId = memory.id ∧ ¬IsPromotion event ∧
      receiptRecord event =
        some (MemoryService.transitionRecord target request) := by
  obtain ⟨tenantId, reason, -, rfl⟩ := AuditEvent.parse_eq_ok accepted
  refine ⟨rfl, ?_, ?_⟩
  · rintro ⟨isPromoted, noTarget⟩
    cases target <;>
      simp_all [MemoryService.transitionEvent, lifecycleToAction,
        AuditEvent.detailText, Json.field?]
  · cases target <;>
      simp [MemoryService.transitionEvent, lifecycleToAction, receiptRecord,
        MemoryService.transitionRecord]
    cases named : request.supersededBy <;>
      simp [AuditEvent.detailText, Json.field?]

/-- A transition brings its receipt along, or does nothing. -/
theorem transition_accounted (id : String) (target : MemoryLifecycleState)
    (request : Except String TransitionRequest) (draw : Draw) :
    Keeps Accounted (MemoryService.transition env id target request draw) := by
  unfold MemoryService.transition
  cases request with
  | error complaint => exact Keeps.throw _
  | ok request =>
  apply Triple.transaction _ fun _ _ start => start
  unfold MemoryService.attemptTransition
  apply Triple.bind (Triple.anyFailure (MemoryService.getById_triple id))
  intro memory
  cases validateTransition memory.lifecycle target request with
  | some error => exact Triple.throw _ fun _ _ => trivial
  | none =>
      dsimp only
      let record := MemoryService.transitionRecord target request
      have changes : Triple
          (fun store =>
            store.curatedMemories.find? id = some memory ∧ Accounted store)
          (MemoryService.changeLifecycle env id target request draw.now)
          (fun _ => OutOfStep memory.id record 1) (fun _ _ => True) := by
        apply Triple.of_ok
        rintro store changed next ⟨found, holds⟩ completed
        obtain ⟨new, sameId, isRecord, rfl⟩ :=
          MemoryService.changeLifecycle_eq_ok found completed
        rw [← (Table.find?_eq_some_iff.mp found).2] at found
        have outOfStep := holds.replace found sameId
        rw [isRecord] at outOfStep
        exact outOfStep
      apply Triple.bind changes
      intro _
      have records : Triple (OutOfStep memory.id record 1)
          (AuditRepository.record env
            (MemoryService.transitionEvent memory target request draw))
          (fun _ => Accounted) (fun _ _ => True) := by
        apply Triple.of_ok
        intro store value next outOfStep completed
        obtain ⟨event, log, accepted, inserted, rfl⟩ :=
          (AuditRepository.record_eq_ok_iff env).mp completed
        obtain ⟨own, notPromotion, tells⟩ := transitionEvent_tells accepted
        exact outOfStep.append inserted own tells (by simp [notPromotion])
      apply Triple.bind records
      intro _
      apply Triple.weaken (MemoryService.getById_triple id)
        (fun _ start => start)
      · exact fun _ _ read => read.2
      · exact fun _ _ _ => trivial

section Promotion

variable {input : PromotionInput} {now : String}

theorem supersededEvent_tells {sup : SupersessionMatch} {event : AuditEvent}
    (accepted : AuditEvent.parse (input.supersededEvent env now sup) =
      .ok event) :
    event.memoryId = sup.supersededMemoryId ∧ ¬IsPromotion event ∧
      receiptRecord event =
        some
          { lifecycle := .superseded
            replacement := some (input.memoryId env) } := by
  obtain ⟨tenantId, reason, -, rfl⟩ := AuditEvent.parse_eq_ok accepted
  refine ⟨rfl, ?_, ?_⟩
  · rintro ⟨promoted, -⟩
    cases promoted
  · by_cases bySubject : sup.basis = .subject <;>
      simp [PromotionInput.supersededEvent, receiptRecord,
        AuditEvent.detailText, Json.field?, bySubject]

theorem promotedEvent_tells {minimum : Option Sensitivity} {event : AuditEvent}
    (accepted : AuditEvent.parse (input.promotedEvent env now minimum) =
      .ok event) :
    event.memoryId = input.memoryId env ∧ IsPromotion event ∧
      receiptRecord event =
        some
          { lifecycle := .active
            replacement := none } := by
  obtain ⟨tenantId, reason, -, rfl⟩ := AuditEvent.parse_eq_ok accepted
  refine ⟨rfl, ⟨rfl, ?_⟩, rfl⟩
  cases minimum <;> cases origin : input.candidate.origin <;>
    by_cases flags : input.humanResolvedFlags = [] <;>
    simp [AuditEvent.detailText, Json.field?, PromotionInput.promotedEvent,
      PromotionInput.promotedDetails, origin, flags]

theorem supersede_outOfStep {sup : SupersessionMatch} {old : CuratedMemory} :
    Triple
      (fun store =>
        store.curatedMemories.find? sup.supersededMemoryId = some old ∧
          Accounted store)
      (input.supersede env now sup old)
      (fun _ => OutOfStep sup.supersededMemoryId
        { lifecycle := .superseded
          replacement := some (input.memoryId env) } 1)
      (fun _ _ => True) := by
  unfold PromotionInput.supersede
  apply Triple.bind (Triple.anyFailure (orSchemaError_triple _))
  intro reason
  apply Triple.bind
  · apply MemoryRepository.update_triple
    rintro store ⟨-, found, holds⟩
    exact holds.replace found rfl
  · intro _
    exact Triple.pure _ fun _ ended => ended

theorem retire_accounted (sup : SupersessionMatch) :
    Triple Accounted (input.retire env now sup) (fun _ => Accounted)
      (fun _ _ => True) := by
  unfold PromotionInput.retire
  apply Triple.bind (Triple.query_eq _)
  intro found
  cases found with
  | none =>
      apply Triple.of_ok
      rintro store value next ⟨absent, holds⟩ completed
      obtain ⟨event, log, accepted, inserted, rfl⟩ :=
        (AuditRepository.record_eq_ok_iff env).mp completed
      obtain ⟨own, notPromotion, -⟩ := supersededEvent_tells accepted
      apply holds.append inserted notPromotion
      intro memory member same
      exact absurd (same.symm.trans own)
        (Table.find?_eq_none_iff.mp absent memory member)
  | some old =>
      apply Triple.bind
      · apply Triple.optional
        · intro item isOld
          cases isOld
          exact supersede_outOfStep
        · intro isAbsent
          cases isAbsent
      · intro _
        apply Triple.of_ok
        intro store value next outOfStep completed
        obtain ⟨event, log, accepted, inserted, rfl⟩ :=
          (AuditRepository.record_eq_ok_iff env).mp completed
        obtain ⟨own, notPromotion, tells⟩ := supersededEvent_tells accepted
        exact outOfStep.append inserted own tells (by simp [notPromotion])

theorem survivesLinks_outOfStep {id : String} {record : LifecycleRecord}
    {count : Nat} : SurvivesLinks (OutOfStep id record count) :=
  fun _ _ outOfStep =>
    { others := outOfStep.others
      own := outOfStep.own
      present := outOfStep.present
      promotions := outOfStep.promotions
      stored := outOfStep.stored }

/-- The transaction of a promotion retires, inserts and records. -/
theorem commit_accounted {memory : CuratedMemory} {minimum : Option Sensitivity}
    (isId : memory.id = input.memoryId env)
    (active : memory.lifecycle = .active) (withLinks : Bool) :
    Triple Accounted (input.commit env now withLinks memory minimum)
      (fun _ => Accounted) (fun _ _ => True) := by
  unfold PromotionInput.commit
  apply Triple.bind (Triple.anyFailure (resolveMinimum_keeps _))
  intro resolved
  apply Triple.bind (Triple.anyFailure (Keeps.ensure _ _))
  intro _
  apply Triple.bind (Triple.forM fun sup _ => retire_accounted sup)
  intro _
  have isRecord : memory.lifecycleRecord =
      { lifecycle := .active
        replacement := none } := by
    simp [CuratedMemory.lifecycleRecord, active]
  have inserts : Triple Accounted (MemoryRepository.insert memory)
      (fun _ => OutOfStep memory.id memory.lifecycleRecord 0)
      (fun _ _ => True) := by
    apply Triple.of_ok
    intro store value next holds completed
    obtain ⟨table, inserted, rfl⟩ :=
      MemoryRepository.insert_eq_ok_iff.mp completed
    exact holds.insert inserted
  apply Triple.bind inserts
  intro _
  apply Triple.bind (Triple.anyFailure (Keeps.when fun _ =>
    PromotionInput.drawLinks_keeps survivesLinks_outOfStep))
  intro _
  have records : Triple (OutOfStep memory.id memory.lifecycleRecord 0)
      (AuditRepository.record env (input.promotedEvent env now minimum))
      (fun _ => Accounted) (fun _ _ => True) := by
    apply Triple.of_ok
    intro store value next outOfStep completed
    obtain ⟨event, log, accepted, inserted, rfl⟩ :=
      (AuditRepository.record_eq_ok_iff env).mp completed
    obtain ⟨own, promotes, tells⟩ := promotedEvent_tells accepted
    exact outOfStep.append inserted (own.trans isId.symm)
      (tells.trans (congrArg some isRecord.symm)) (by simp [promotes])
  apply Triple.bind records
  intro _
  exact Triple.anyFailure (Keeps.forM fun floor _ =>
    PromotionInput.checkFloorRetained_keeps floor)

end Promotion

/-! ## Reviewed settlements -/

section Settlement

variable {manifest : ReviewedStalenessManifest}
variable {deps : ReviewedStalenessDependencies}

theorem transitionReceipt_tells {selection : ReviewedStalenessSelection}
    {rule : StalenessRule} {now : String} {memory : CuratedMemory}
    {event : AuditEvent}
    (accepted : AuditEvent.parse (transitionReceipt env manifest selection rule
      now memory) = .ok event) :
    event.memoryId = memory.id ∧ ¬IsPromotion event ∧
      receiptRecord event =
        some
          { lifecycle := manifest.operation.target
            replacement := none } := by
  obtain ⟨tenantId, reason, -, rfl⟩ := AuditEvent.parse_eq_ok accepted
  refine ⟨rfl, ?_, ?_⟩
  · rintro ⟨-, noTarget⟩
    cases binding : selection.deprecationReceipt <;>
      simp [transitionReceipt, AuditEvent.detailText, Json.field?,
        Json.optionalField, binding] at noTarget
  · cases operation : manifest.operation <;>
      simp [transitionReceipt, receiptRecord, operation,
        StalenessOperation.action, StalenessOperation.target]

theorem receiptById_keeps {invariant : Store → Prop} (memoryId id : String) :
    Keeps invariant (receiptById manifest memoryId id) := by
  unfold receiptById
  apply Keeps.bind (Keeps.query _)
  intro found
  cases found with
  | none => exact Keeps.throw _
  | some event => exact Keeps.pure _

theorem currentMemory_triple {invariant : Store → Prop} (id : String) :
    Triple invariant (currentMemory manifest id)
      (fun memory store =>
        store.curatedMemories.find? id = some memory ∧ invariant store)
      (fun _ => invariant) := by
  unfold currentMemory
  apply Triple.bind (Triple.query_eq _)
  intro found
  cases found with
  | none => exact Triple.throw _ fun _ start => start.2
  | some memory =>
      apply Triple.bind (Triple.ensured fun _ start => start.2)
      intro _
      exact Triple.pure _ fun _ start => start.2

theorem priorDeprecation_keeps {invariant : Store → Prop}
    (selection : ReviewedStalenessSelection) :
    Keeps invariant (priorDeprecation env manifest selection) := by
  unfold priorDeprecation
  cases selection.deprecationReceipt with
  | none => exact Keeps.throw _
  | some binding =>
      apply Keeps.bind (receiptById_keeps _ _)
      intro event
      apply Keeps.bind (Keeps.ensure _ _)
      intro _
      cases event.detailText "runId" with
      | none => exact Keeps.throw _
      | some runId =>
          apply Keeps.bind (Keeps.query _)
          intro settled
          exact Keeps.ensure _ _

/-- The reviewed memory is stored under the selected id. -/
theorem reviewSelection_triple {invariant : Store → Prop}
    (selection : ReviewedStalenessSelection) (rule : StalenessRule) :
    Triple invariant (reviewSelection env manifest deps selection rule)
      (fun memory store =>
        store.curatedMemories.find? selection.memoryId = some memory ∧
          invariant store)
      (fun _ => invariant) := by
  unfold reviewSelection
  apply Triple.bind (currentMemory_triple selection.memoryId)
  intro memory
  let found (store : Store) : Prop :=
    store.curatedMemories.find? selection.memoryId = some memory ∧
      invariant store
  refine @Triple.weaken _ _ _ found _ (fun _ => found) _ _ _ _ ?_
    (fun _ start => start) (fun _ _ ended => ended) fun _ _ ended => ended.2
  apply Triple.bind (Keeps.ensure _ _)
  intro _
  split
  · apply Triple.bind (priorDeprecation_keeps selection)
    intro _
    exact Triple.pure _ fun _ start => start
  · apply Triple.bind (Keeps.ensure _ _)
    intro _
    exact Triple.pure _ fun _ start => start

/-- One selection brings its receipt along. -/
theorem settleTransition_accounted (now : String)
    (item : ReviewedStalenessSelection × StalenessRule) :
    Triple Accounted (settleTransition env manifest deps now item)
      (fun _ => Accounted) (fun _ _ => True) := by
  unfold settleTransition
  apply Triple.bind (Triple.anyFailure (reviewSelection_triple item.1 item.2))
  intro memory
  unfold buildTransition
  rw [bind_assoc]
  apply Triple.bind (Triple.anyFailure (orSchemaError_triple _))
  intro receipt
  apply Triple.assume
  intro accepted
  obtain ⟨own, notPromotion, tells⟩ := transitionReceipt_tells accepted
  let record : LifecycleRecord :=
    { lifecycle := manifest.operation.target
      replacement := none }
  rw [pure_bind]
  have writes : Triple
      (fun store =>
        store.curatedMemories.find? item.1.memoryId = some memory ∧
          Accounted store)
      (MemoryRepository.updateLifecycle memory.id manifest.operation.target now)
      (fun _ => OutOfStep memory.id record 1) (fun _ _ => True) := by
    apply Triple.of_ok
    rintro store changed next ⟨found, holds⟩ completed
    rw [← (Table.find?_eq_some_iff.mp found).2] at found
    obtain ⟨new, sameId, isTarget, rfl⟩ :=
      MemoryRepository.updateLifecycle_eq_ok found completed
    have isRecord : new.lifecycleRecord = record := by
      cases operation : manifest.operation <;>
        simp [CuratedMemory.lifecycleRecord, record, isTarget, operation,
          StalenessOperation.target]
    have outOfStep := holds.replace found sameId
    rw [isRecord] at outOfStep
    exact outOfStep
  apply Triple.bind writes
  intro written
  apply Triple.bind (Triple.anyFailure (Keeps.ensure _ _))
  intro _
  have records : Triple (OutOfStep memory.id record 1)
      (AuditRepository.insert env receipt) (fun _ => Accounted)
      (fun _ _ => True) := by
    apply Triple.of_ok
    intro store value next outOfStep completed
    obtain ⟨log, inserted, rfl⟩ :=
      (AuditRepository.insert_eq_ok_iff env).mp completed
    exact outOfStep.append inserted own tells (by simp [notPromotion])
  apply Triple.bind records
  intro _
  exact Triple.pure _ fun _ ended => ended

theorem verifyWitness_keeps {invariant : Store → Prop}
    (witness : StalenessWitness) :
    Keeps invariant (verifyWitness manifest witness) := by
  unfold verifyWitness
  apply Triple.bind (currentMemory_triple _)
  intro memory
  apply Triple.weaken _ (fun _ start => start.2) (fun _ _ ended => ended)
    fun _ _ ended => ended
  apply Keeps.bind (receiptById_keeps _ _)
  intro receipt
  exact Keeps.ensure _ _

theorem replayWitness_keeps {invariant : Store → Prop} (now : String)
    (item : ReviewedStalenessSelection × StalenessRule) :
    Keeps invariant (replayWitness env manifest now item) := by
  unfold replayWitness
  apply Triple.bind (currentMemory_triple _)
  intro memory
  apply Triple.weaken _ (fun _ start => start.2) (fun _ _ ended => ended)
    fun _ _ ended => ended
  apply Keeps.bind (receiptById_keeps _ _)
  intro receipt
  cases receipt.detailText "beforeUpdatedAt" with
  | none => exact Keeps.throw _
  | some beforeUpdatedAt =>
      apply Keeps.bind (Keeps.ensure _ _)
      intro _
      apply Keeps.bind (Keeps.ensure _ _)
      intro _
      apply Keeps.bind (Keeps.when fun _ => priorDeprecation_keeps _)
      intro _
      unfold buildTransition
      rw [bind_assoc]
      apply Keeps.bind (orSchemaError_keeps _)
      intro event
      rw [pure_bind]
      apply Keeps.bind (verifyWitness_keeps _)
      intro _
      exact Keeps.pure _

theorem runReceipt_tells {now : String} {witnesses : List StalenessWitness}
    {event : AuditEvent}
    (accepted : AuditEvent.parse (runReceipt env manifest now witnesses) =
      .ok event) :
    receiptRecord event = none := by
  obtain ⟨tenantId, reason, -, rfl⟩ := AuditEvent.parse_eq_ok accepted
  rfl

theorem strictChain_keeps {invariant : Store → Prop} :
    Keeps invariant (strictChain env) := by
  unfold strictChain
  apply Keeps.bind (Keeps.query _)
  intro strict
  exact Keeps.ensure _ _

theorem settleRun_accounted
    (items : List (ReviewedStalenessSelection × StalenessRule)) :
    Triple Accounted (settleRun env manifest deps items) (fun _ => Accounted)
      (fun _ _ => True) := by
  unfold settleRun
  have reviews : Keeps Accounted
      (items.forM fun item => do
        let _ ← reviewSelection env manifest deps item.1 item.2
        pure ⟨⟩) := by
    apply Keeps.forM
    intro item _
    apply Triple.bind (reviewSelection_triple item.1 item.2)
    intro memory
    exact Triple.pure _ fun _ ended => ended.2
  apply Triple.bind (Triple.anyFailure reviews)
  intro _
  have timed : Keeps Accounted (checkReviewTime env manifest deps) :=
    Keeps.bind (Keeps.ensure _ _) fun _ => Keeps.ensure _ _
  apply Triple.bind (Triple.anyFailure timed)
  intro _
  apply Triple.bind (Triple.mapM fun item _ =>
    settleTransition_accounted deps.now item)
  intro witnesses
  apply Triple.bind (Triple.anyFailure (orSchemaError_triple _))
  intro receipt
  apply Triple.assume
  intro accepted
  have silent := runReceipt_tells accepted
  have records : Triple Accounted (AuditRepository.insert env receipt)
      (fun _ => Accounted) (fun _ _ => True) := by
    apply Triple.of_ok
    intro store value next holds completed
    obtain ⟨log, inserted, rfl⟩ :=
      (AuditRepository.insert_eq_ok_iff env).mp completed
    apply holds.append inserted
    · rintro ⟨promoted, -⟩
      simp [receiptRecord, promoted] at silent
    · intro memory member own record told
      rw [silent] at told
      cases told
  apply Triple.bind records
  intro _
  refine Triple.anyFailure (Keeps.bind
    (Keeps.forM fun witness _ => verifyWitness_keeps witness) fun _ => ?_)
  apply Keeps.bind (receiptById_keeps _ _)
  intro persisted
  apply Keeps.bind (Keeps.ensure _ _)
  intro _
  apply Keeps.bind strictChain_keeps
  intro _
  exact Keeps.pure _

theorem replayRun_keeps {invariant : Store → Prop} (previous : AuditEvent)
    (items : List (ReviewedStalenessSelection × StalenessRule)) :
    Keeps invariant (replayRun env manifest previous items) := by
  unfold replayRun
  apply Keeps.bind (Keeps.mapM fun item _ => replayWitness_keeps _ item)
  intro witnesses
  apply Keeps.bind (orSchemaError_keeps _)
  intro receipt
  apply Keeps.bind (Keeps.ensure _ _)
  intro _
  exact Keeps.pure _

theorem settleReviewedStaleness_accounted
    (value : Except String ReviewedStalenessManifest) (expectedDigest : String)
    (deps : ReviewedStalenessDependencies) :
    Keeps Accounted
      (settleReviewedStaleness env value expectedDigest deps) := by
  unfold settleReviewedStaleness
  cases value with
  | error complaint => exact Keeps.throw _
  | ok manifest =>
      apply Keeps.bind (Keeps.ensure _ _)
      intro _
      apply Triple.transaction _ fun _ _ start => start
      unfold settleStaleness
      apply Triple.bind (Triple.anyFailure strictChain_keeps)
      intro _
      cases requireRules env manifest deps with
      | error error => exact Triple.throw _ fun _ _ => trivial
      | ok items =>
          unfold orError
          rw [pure_bind]
          apply Triple.bind (Triple.anyFailure (Keeps.query _))
          intro runs
          split
          · exact settleRun_accounted items
          · apply Triple.bind (Triple.anyFailure (Keeps.ensure _ _))
            intro _
            exact Triple.anyFailure (replayRun_keeps _ items)
          · exact Triple.throw _ fun _ _ => trivial

end Settlement

end Registrar
