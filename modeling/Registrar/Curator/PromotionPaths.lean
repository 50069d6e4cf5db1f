import Registrar.Curator.Attribution
import Registrar.Curator.Decisions
import Registrar.Curator.MergeGate

/-!
# The two paths to promotion

The curator takes a candidate through its gates in one order, the promotion
service in another: the curator resolves the sensitivity floor, looks for the
content and then runs the structural gates; the service runs the structural
gates, looks for the content and then resolves the floor.
-/

namespace Registrar

open Program

variable (env : Environment)

inductive PromotionVerdict where
  | promoted (memoryId : String) (evaluations : List PolicyEvaluation)
      (superseded : List String)
  | rejected
  | duplicate
  | held
  | flagged
  | failed (error : RegistrarError)
  deriving DecidableEq

/-- The memories that this one has superseded. -/
def Store.supersededBy (store : Store) (memoryId : String) : List String :=
  (store.curatedMemories.rows.filter fun memory =>
    memory.supersession.any (·.supersededBy = memoryId)).map CuratedMemory.id

def promotedVerdict (memoryId : String) (final : Store) : PromotionVerdict :=
  .promoted memoryId
    (((final.curatedMemories.find? memoryId).map
      CuratedMemory.policyEvaluations).getD [])
    (final.supersededBy memoryId)

/-- What the curator reports; a candidate that needed a hold counts as held,
also when the queue was full. -/
def sweepVerdict :
    EStateM.Result RegistrarError Store (CurationResult × CuratorMeters) →
      PromotionVerdict
  | .error error _ => .failed error
  | .ok (result, _) final =>
      match result.outcome with
      | .promoted => promotedVerdict (result.memoryId.getD "") final
      | .rejected => .rejected
      | .duplicate => .duplicate
      | .held => .held
      | .flagged => if result.hold.isSome then .held else .flagged

/-- What a refusal of the service says. -/
def refusalVerdict (error : RegistrarError) (message : String) :
    PromotionVerdict :=
  let begins (text : String) : Prop := text.toList <+: message.toList
  if begins "Candidate rejected" then .rejected
  else if begins "Candidate already promoted" ∨
      begins "Candidate content was removed" then .duplicate
  else if begins "Candidate is on hold" ∨
      begins "Candidate needs human review" then .held
  else if begins "Candidate flagged" then .flagged
  else .failed error

def errorVerdict (error : RegistrarError) : PromotionVerdict :=
  match error with
  | .api _ message _ => refusalVerdict error message
  | _ => .failed error

def approvalVerdict :
    EStateM.Result RegistrarError Store CuratedMemory → PromotionVerdict
  | .ok memory final => promotedVerdict memory.id final
  | .error error _ => errorVerdict error

theorem errorVerdict_of_failure {error : RegistrarError}
    (failure : ¬error.IsRefusal) : errorVerdict error = .failed error := by
  cases error <;> first | rfl | exact absurd trivial failure

section Refusals

open PromotionService

@[simp]
theorem errorVerdict_originRefusal (code : OriginRejectCode) :
    errorVerdict (originRefusal code) = .rejected := by
  cases code <;> decide +kernel

@[simp]
theorem errorVerdict_rejectionError (pipelineResult : PipelineResult) :
    errorVerdict (rejectionError pipelineResult) = .rejected := by
  simp [rejectionError, unprocessable, errorVerdict, refusalVerdict]

@[simp]
theorem errorVerdict_flagError (pipelineResult : PipelineResult) :
    errorVerdict (flagError pipelineResult) = .flagged := by
  unfold flagError
  dsimp only
  simp [unprocessable, errorVerdict, refusalVerdict]

@[simp]
theorem errorVerdict_holdError (decision : HoldDecision)
    (placed : PlaceHoldResult) :
    errorVerdict (holdError decision placed) = .held := by
  cases placed <;>
    simp [holdError, unprocessable, errorVerdict, refusalVerdict]

theorem errorVerdict_contentError {store : Store} {candidate : MemoryCandidate}
    {tenantId : String} {error : RegistrarError}
    (known : contentError env store candidate tenantId = some error) :
    errorVerdict error = .duplicate := by
  unfold contentError at known
  dsimp only at known
  split at known
  · cases known
    simp [unprocessable, errorVerdict, refusalVerdict]
  · obtain ⟨receipt, -, rfl⟩ := Option.map_eq_some_iff.mp known
    decide

theorem errorVerdict_importRefusal (found : BrainignoreMatch) :
    errorVerdict
      (unprocessable
        ("Candidate rejected by the import exclusion gate (" ++ found.code ++
          "): " ++ found.evidence ++ ". Left in the inbox for review.")
        (some found.code)) = .rejected := by
  simp [unprocessable, errorVerdict, refusalVerdict]

end Refusals

/-- The curator that runs under the service's settings; what the service has no
setting for stands at its default. -/
def sweepConfig (service : PromotionService) (tenantId : String)
    (suppressRejectionReceipts : Bool) : CuratorConfig where
  tenantId := tenantId
  dryRun := false
  supersessionThreshold := none
  supersessionMode := .apply
  maxSupersedesPerPromotion := none
  maxSupersedesPerRun := none
  suppressRejectionReceipts := suppressRejectionReceipts
  originSecret := service.originSecret
  holdLimits := service.holdLimits
  withLinks := service.withLinks

variable {env}

theorem planSupersession_matched_le {candidate : MemoryCandidate}
    {active : List CuratedMemory} {threshold : ℚ} {cap : Nat}
    (positive : 0 < cap) :
    (planSupersession env candidate active threshold cap).matched.length ≤
      cap := by
  unfold planSupersession
  dsimp only
  split_ifs with noSubject tooMany
  · cases active.foldl (betterTitleMatch env candidate threshold) none with
    | none => exact Nat.zero_le cap
    | some best => exact positive
  · exact Nat.zero_le cap
  · rw [List.length_insertionSort]
    exact Nat.le_of_not_lt tooMany

theorem planSupersession_blocked {candidate : MemoryCandidate}
    {active : List CuratedMemory} {threshold : ℚ} {cap : Nat}
    {block : SupersessionBlock}
    (blocked : (planSupersession env candidate active threshold cap).blocked =
      some block) :
    (planSupersession env candidate active threshold cap).matched = [] := by
  unfold planSupersession at blocked ⊢
  dsimp only at blocked ⊢
  split_ifs at blocked ⊢
  rfl

/-- At the defaults a fresh curator carries out the whole plan. -/
theorem chooseSupersessions_default {service : PromotionService}
    {tenantId : String} {suppress : Bool} {store : Store}
    {candidate : MemoryCandidate} :
    (chooseSupersessions (sweepConfig service tenantId suppress) .fresh
      (planFor env store candidate none none)).1 =
      (planFor env store candidate none none).matched := by
  unfold chooseSupersessions
  cases blocked : (planFor env store candidate none none).blocked with
  | some block => exact (planSupersession_blocked blocked).symm
  | none =>
      have atMost : (planFor env store candidate none none).matched.length ≤
          defaultMaxSupersedesPerPromotion := by
        apply planSupersession_matched_le
        decide
      have counted := @List.countP_le_length _ (·.basis = .subject)
        (planFor env store candidate none none).matched
      have applies : (sweepConfig service tenantId suppress).supersessionMode ≠
          .report := by
        simp [sweepConfig]
      dsimp only
      rw [if_neg applies, if_neg]
      simp only [sweepConfig, CuratorMeters.fresh, Option.getD_none,
        defaultMaxSupersedesPerRun]
      unfold defaultMaxSupersedesPerPromotion at atMost
      omega

/-- Why a log does not take a receipt with this id. -/
def appendRefusal (log : AuditLog) (id : String) : RegistrarError :=
  if log.rows.any (·.event.id = id) then
    .sqlite (.uniqueConstraint "audit_events.id")
  else .sqlite (.uniqueConstraint "audit_events.seq")

theorem errorVerdict_appendRefusal (log : AuditLog) (id : String) :
    errorVerdict (appendRefusal log id) = .failed (appendRefusal log id) := by
  unfold appendRefusal
  split_ifs <;> rfl

theorem insert_outcome (event : AuditEvent) (store : Store) :
    (store.auditEvents.Accepts event.id ∧
        ∃ log, AuditRepository.insert env event store =
          .ok ⟨⟩ { store with auditEvents := log }) ∨
      ¬store.auditEvents.Accepts event.id ∧
        AuditRepository.insert env event store =
          .error (appendRefusal store.auditEvents event.id) store := by
  rw [← isSome_insert?_iff_accepts env]
  unfold AuditRepository.insert appendRefusal
  cases store.auditEvents.insert?
      (appendedRecord env store.auditEvents event) with
  | some log => exact .inl ⟨rfl, log, rfl⟩
  | none =>
      refine .inr ⟨by simp, ?_⟩
      dsimp only
      split_ifs <;> rfl

theorem record_outcome {input : AuditEventInput} {event : AuditEvent}
    (parsed : AuditEvent.parse input = .ok event) (store : Store) :
    (store.auditEvents.Accepts input.id ∧
        ∃ log, AuditRepository.record env input store =
          .ok ⟨⟩ { store with auditEvents := log }) ∨
      ¬store.auditEvents.Accepts input.id ∧
        AuditRepository.record env input store =
          .error (appendRefusal store.auditEvents input.id) store := by
  have sameId : event.id = input.id := by
    obtain ⟨tenantId, reason, -, rfl⟩ := AuditEvent.parse_eq_ok parsed
    rfl
  have recorded : AuditRepository.record env input store =
      AuditRepository.insert env event store := by
    unfold AuditRepository.record
    rw [parsed]
    rfl
  rw [recorded, ← sameId]
  exact insert_outcome event store

theorem rejectionEvent_parses {candidate : MemoryCandidate} {tenantId : String}
    (named : trim tenantId ≠ "") {actor : Author} {reason : String}
    (given : trim reason ≠ "") {pipelineResult : PipelineResult}
    {draw : Draw} :
    ∃ event, AuditEvent.parse
      (rejectionEvent candidate tenantId actor reason pipelineResult draw) =
        .ok event := by
  obtain ⟨tenant, parsedTenant⟩ := parseNonEmpty_of_solid "tenantId" named
  obtain ⟨why, parsedReason⟩ := parseNonEmpty_of_solid "reason" given
  unfold AuditEvent.parse rejectionEvent
  simp only [parsedTenant, Option.mapM_some, parsedReason]
  exact ⟨_, rfl⟩

theorem rejectionReason_solid (pipelineResult : PipelineResult) :
    trim (rejectionReason pipelineResult) ≠ "" := by
  unfold rejectionReason
  split
  · apply @Trim.trim_ne_empty _ _ 'R'
    · simp
    · decide
  · apply @Trim.trim_ne_empty _ _ 'F'
    · simp
    · decide

theorem reject_outcome {candidate : MemoryCandidate}
    (named : trim candidate.tenantId ≠ "") (pipelineResult : PipelineResult)
    (draw : Draw) (store : Store) :
    (store.auditEvents.Accepts draw.freshId ∧
        ∃ reason final,
          reject env candidate pipelineResult false draw store =
            .ok reason final) ∨
      ¬store.auditEvents.Accepts draw.freshId ∧
        reject env candidate pipelineResult false draw store =
          .error (appendRefusal store.auditEvents draw.freshId) store := by
  obtain ⟨event, parsed⟩ := @rejectionEvent_parses candidate _ named
    curatorActor _ (rejectionReason_solid pipelineResult) pipelineResult draw
  unfold reject
  simp only [when, if_true]
  rcases @record_outcome env _ _ parsed store with
    ⟨accepts, log, recorded⟩ | ⟨refuses, recorded⟩
  · exact .inl ⟨accepts, rejectionReason pipelineResult,
      { store with auditEvents := log }, bind_apply_of_ok recorded⟩
  · exact .inr ⟨refuses, bind_apply_of_error recorded⟩

/-- The outcome as a verdict, for a candidate that was turned away. -/
def CurationOutcome.verdict : CurationOutcome → PromotionVerdict
  | .rejected => .rejected
  | _ => .flagged

/-- A candidate is turned away if its receipt is suppressed or recorded. -/
theorem sweepVerdict_turnAway {candidate : MemoryCandidate}
    (named : trim candidate.tenantId ≠ "") {outcome : CurationOutcome}
    (turned : outcome = .rejected ∨ outcome = .flagged)
    {pipelineResult : PipelineResult} {suppress : Bool}
    {meters : CuratorMeters} {draw : Draw} {store : Store} :
    sweepVerdict (turnAway env candidate outcome pipelineResult suppress meters
        draw store) =
      if suppress = true ∨ store.auditEvents.Accepts draw.freshId then
        outcome.verdict
      else .failed (appendRefusal store.auditEvents draw.freshId) := by
  have returned (final : Store) (reason : String) :
      sweepVerdict (.ok (.turnedAway candidate outcome (some pipelineResult)
        reason, meters) final) = outcome.verdict := by
    rcases turned with rfl | rfl <;> rfl
  unfold turnAway
  cases suppress with
  | true =>
      rw [if_pos (.inl rfl)]
      exact returned store _
  | false =>
      rcases @reject_outcome env _ named pipelineResult draw store with
        ⟨accepts, reason, final, rejected⟩ | ⟨refuses, rejected⟩
      · rw [if_pos (.inr accepts), bind_apply_of_ok rejected]
        exact returned final reason
      · have refused : ¬(false = true ∨
            store.auditEvents.Accepts draw.freshId) := by
          rintro (wrong | accepts)
          · cases wrong
          · exact refuses accepts
        rw [if_neg refused, bind_apply_of_error rejected]
        rfl

/-- Whether a hold can be placed does not depend on whose approval ran into
it. -/
theorem heldEvent_parses {candidate : MemoryCandidate}
    (named : trim candidate.tenantId ≠ "") {decision : HoldDecision}
    {limits : HoldLimits} {triggeredBy : Option Author}
    {expiresAt now : String} :
    ∃ event, AuditEvent.parse
      (heldEvent env candidate decision limits triggeredBy expiresAt now) =
        .ok event := by
  have given : trim ("Held for human review: " ++
      joinComma (decision.triggers.map HoldTrigger.text)) ≠ "" := by
    apply @Trim.trim_ne_empty _ _ 'H'
    · simp
    · decide
  obtain ⟨tenant, parsedTenant⟩ := parseNonEmpty_of_solid "tenantId" named
  obtain ⟨why, parsedReason⟩ := parseNonEmpty_of_solid "reason" given
  unfold AuditEvent.parse heldEvent
  simp only [parsedTenant, Option.mapM_some, parsedReason]
  exact ⟨_, rfl⟩

theorem writeHold_outcome {candidate : MemoryCandidate}
    {input : AuditEventInput} {event : AuditEvent}
    (parsed : AuditEvent.parse input = .ok event) (now : String)
    (store : Store) :
    (store.auditEvents.Accepts input.id ∧
        ∃ placed final, writeHold env candidate input now store =
          .ok placed final ∧ placed.obstacle = none) ∨
      ¬store.auditEvents.Accepts input.id ∧
        ∃ final, writeHold env candidate input now store =
          .error (appendRefusal store.auditEvents input.id) final := by
  have sameId : event.id = input.id := by
    obtain ⟨tenantId, reason, -, rfl⟩ := AuditEvent.parse_eq_ok parsed
    rfl
  unfold writeHold
  rw [bind_apply_of_ok (query_apply _ _), parsed,
    bind_apply_of_ok (orSchemaError_eq_ok_iff.mpr ⟨rfl, rfl⟩)]
  have updated : CandidateRepository.updateStatus candidate.id holdStatus
      candidate.tenantId store = .ok _ _ :=
    rfl
  rw [bind_apply_of_ok updated, ← sameId]
  rcases @insert_outcome env event
      { store with
        candidates := store.candidates.updateWhere
          (fun row => row.id = candidate.id &&
            row.candidate.tenantId = candidate.tenantId)
          (CandidateRepository.CandidateRow.setStatus · holdStatus)
          (fun _ _ => rfl) } with
    ⟨accepts, log, inserted⟩ | ⟨refuses, inserted⟩
  · refine .inl ⟨accepts, _, _, bind_apply_of_ok inserted, ?_⟩
    rfl
  · exact .inr ⟨refuses, _, bind_apply_of_error inserted⟩

/-- The obstacle that keeps a candidate from being held. -/
def obstructed (env : Environment) (store : Store)
    (candidate : MemoryCandidate) (limits : HoldLimits) (now : String) :
    Bool :=
  (holdExpiry env limits now).isOk &&
    (holdObstacle env store candidate limits now).any (·.obstacle.isSome)

/-- Either path fails to place the hold with the same error, or returns the
store to the same obstacle, or has the candidate on hold. -/
theorem placeHold_outcome {candidate : MemoryCandidate}
    (named : trim candidate.tenantId ≠ "") (decision : HoldDecision)
    (limits : HoldLimits) (now : String) (store : Store) :
    (∃ error, ¬error.IsRefusal ∧ obstructed env store candidate limits now =
        false ∧
      ∀ triggeredBy, placeHold env candidate decision limits triggeredBy false
        now store = .error error store) ∨
    (obstructed env store candidate limits now = true ∧
      ∃ placed, placed.obstacle.isSome = true ∧
        ∀ triggeredBy, placeHold env candidate decision limits triggeredBy
          false now store = .ok placed store) ∨
    (obstructed env store candidate limits now = false ∧
      ∀ triggeredBy, ∃ placed final, placed.obstacle = none ∧
        placeHold env candidate decision limits triggeredBy false now store =
          .ok placed final) := by
  unfold placeHold obstructed
  cases expiry : holdExpiry env limits now with
  | error error =>
      refine .inl ⟨error, ?_, rfl, fun triggeredBy => rfl⟩
      unfold holdExpiry at expiry
      split at expiry <;> cases expiry
      exact id
  | ok expiresAt =>
      simp only [Bool.false_eq_true, if_false, transaction, attemptHold,
        bind_apply_of_ok (query_apply _ _)]
      cases obstacle : holdObstacle env store candidate limits now with
      | some placed =>
          by_cases blocks : placed.obstacle.isSome = true
          · refine .inr (.inl ⟨?_, placed, blocks, fun triggeredBy => rfl⟩)
            simp [blocks, Except.isOk, Except.toBool]
          · refine .inr (.inr ⟨?_, fun triggeredBy => ⟨placed, store, ?_, rfl⟩⟩)
            · simp [blocks]
            · simpa using blocks
      | none =>
          have parses (triggeredBy : Option Author) :=
            @heldEvent_parses env _ named decision limits triggeredBy expiresAt
              now
          by_cases accepts : store.auditEvents.Accepts
              (deriveAuditEventId env candidate.id AuditAction.held.text "")
          · refine .inr (.inr ⟨by simp, fun triggeredBy => ?_⟩)
            obtain ⟨event, parsed⟩ := parses triggeredBy
            rcases @writeHold_outcome env candidate _ _ parsed now store with
              ⟨-, placed, final, wrote, clear⟩ | ⟨refuses, -⟩
            · refine ⟨placed, final, clear, ?_⟩
              dsimp only
              rw [wrote]
            · exact absurd accepts refuses
          · refine .inl ⟨appendRefusal store.auditEvents
              (deriveAuditEventId env candidate.id AuditAction.held.text ""),
              ?_, by simp, fun triggeredBy => ?_⟩
            · unfold appendRefusal
              split_ifs <;> exact id
            · obtain ⟨event, parsed⟩ := parses triggeredBy
              rcases @writeHold_outcome env candidate _ _ parsed now store with
                ⟨taken, -⟩ | ⟨-, final, wrote⟩
              · exact absurd taken accepts
              · dsimp only
                rw [wrote]
                rfl

section Settled

variable {service : PromotionService} {candidate : MemoryCandidate}
variable {policy : Option GovernancePolicy} {pipelineResult : PipelineResult}
variable {minimum : Option Sensitivity} {suppress : Bool} {draw : Draw}
variable {store : Store}

/-- Alike stores show the same memory under an id and the same memories that it
superseded. -/
theorem AlikeStores.promotedVerdict {left right : Store}
    (alike : AlikeStores left right) (memoryId : String) :
    promotedVerdict memoryId left = promotedVerdict memoryId right := by
  have found := congrArg (Option.map CuratedMemory.policyEvaluations)
    (alike.memories.find? unattributed_shown memoryId)
  rw [Option.map_map, Option.map_map] at found
  have shows (rows : List CuratedMemory) :
      (rows.filter fun memory =>
          memory.supersession.any (·.supersededBy = memoryId)).map
            CuratedMemory.id =
        ((rows.map CuratedMemory.unattributed).filter fun memory =>
          memory.supersession.any (·.supersededBy = memoryId)).map
            CuratedMemory.id := by
    rw [List.filter_map, List.map_map]
    rfl
  have sameRows : left.curatedMemories.rows.map CuratedMemory.unattributed =
      right.curatedMemories.rows.map CuratedMemory.unattributed :=
    alike.memories
  have evaluations : (left.curatedMemories.find? memoryId).map
      CuratedMemory.policyEvaluations =
        (right.curatedMemories.find? memoryId).map
          CuratedMemory.policyEvaluations :=
    found
  unfold Registrar.promotedVerdict Store.supersededBy
  rw [evaluations, shows left.curatedMemories.rows,
    shows right.curatedMemories.rows, sameRows]

/-- Either path carries out the same promotion. -/
theorem promotion_sameVerdict (indexes : env.IndexesText) {tenantId : String}
    (approval : PromotionService.Approval) :
    sweepVerdict
        (Curator.promoteCandidate env
          (sweepConfig service candidate.tenantId suppress) .fresh candidate
          pipelineResult none none minimum draw store) =
      approvalVerdict
        (PromotionService.promoteApproved env service candidate tenantId
          pipelineResult minimum approval draw store) := by
  unfold Curator.promoteCandidate PromotionService.promoteApproved
  rw [bind_apply_of_ok (query_apply _ _), bind_apply_of_ok (query_apply _ _)]
  have plan : (planFor env store candidate
      (sweepConfig service candidate.tenantId suppress).supersessionThreshold
      (sweepConfig service candidate.tenantId
        suppress).maxSupersedesPerPromotion) =
        planFor env store candidate none none :=
    rfl
  rw [plan]
  dsimp only
  rw [chooseSupersessions_default]
  have coupled := @promote_endAlike env
    (curatorPromotion env candidate pipelineResult none none minimum
      (planFor env store candidate none none).matched) draw.now
    approval.promotedBy approval.promotionReason indexes rfl false
    service.withLinks
  rcases coupled.ends (AlikeStores.refl store) with
    ⟨memory, memory', final, final', swept, approved, same, alike⟩ |
      ⟨error, final, final', swept, approved, failure, alike⟩
  · have sameId : memory.id = memory'.id := by
      rw [← unattributed_shown memory, same, unattributed_shown]
    have left : promote env
        (curatorPromotion env candidate pipelineResult none none minimum
          (planFor env store candidate none none).matched)
        (sweepConfig service candidate.tenantId suppress).dryRun
        (sweepConfig service candidate.tenantId suppress).withLinks draw.now
        store = .ok memory final :=
      swept
    have right : promote env
        (PromotionService.servicePromotion env candidate pipelineResult minimum
          (planFor env store candidate none none).matched approval) false
        service.withLinks draw.now store = .ok memory' final' :=
      approved
    rw [bind_apply_of_ok left, bind_apply_of_ok right]
    have verdicts := alike.promotedVerdict memory.id
    rw [sameId] at verdicts
    change promotedVerdict memory.id final = promotedVerdict memory'.id final'
    rw [sameId]
    exact verdicts
  · have left : promote env
        (curatorPromotion env candidate pipelineResult none none minimum
          (planFor env store candidate none none).matched)
        (sweepConfig service candidate.tenantId suppress).dryRun
        (sweepConfig service candidate.tenantId suppress).withLinks draw.now
        store = .error error final :=
      swept
    have right : promote env
        (PromotionService.servicePromotion env candidate pipelineResult minimum
          (planFor env store candidate none none).matched approval) false
        service.withLinks draw.now store = .error error final' :=
      approved
    rw [bind_apply_of_error left, bind_apply_of_error right]
    exact (errorVerdict_of_failure failure).symm

/-- The curator records the decision, unless its receipts are suppressed. -/
def CurationDecision.records (env : Environment) (store : Store)
    (candidate : MemoryCandidate) (limits : HoldLimits) (now : String) :
    CurationDecision → Bool
  | .reject _ | .flag _ => true
  | .hold _ pipelineResult =>
      pipelineResult.outcome = .flagged &&
        obstructed env store candidate limits now
  | .duplicate _ | .review | .promote _ _ => false

/-- Either path places the same hold; a flag that the full queue leaves is
recorded by the curator alone. -/
theorem hold_sameVerdict_iff (named : trim candidate.tenantId ≠ "")
    (decision : HoldDecision) (triggeredBy : Option Author) :
    sweepVerdict
        (holdCandidate env (sweepConfig service candidate.tenantId suppress)
          .fresh candidate decision pipelineResult suppress draw store) =
      approvalVerdict
        ((do
          let placed ← placeHold env candidate decision service.holdLimits
            triggeredBy false draw.now
          throw (PromotionService.holdError decision placed) :
            StoreM CuratedMemory) store) ↔
    ((!suppress && (pipelineResult.outcome = .flagged &&
        obstructed env store candidate service.holdLimits draw.now)) = true →
      store.auditEvents.Accepts draw.freshId) := by
  unfold holdCandidate
  have fresh : CuratorMeters.fresh.holdCapReached = none := rfl
  have limits : (sweepConfig service candidate.tenantId suppress).holdLimits =
      service.holdLimits :=
    rfl
  have wet : (sweepConfig service candidate.tenantId suppress).dryRun =
      false :=
    rfl
  simp only [fresh, limits, wet]
  rcases @placeHold_outcome env _ named decision service.holdLimits draw.now
      store with
    ⟨error, failure, clear, fails⟩ | ⟨blocked, placed, obstacle, places⟩ |
      ⟨clear, places⟩
  · rw [bind_apply_of_error (fails none),
      bind_apply_of_error (fails triggeredBy)]
    simp [clear, sweepVerdict, approvalVerdict,
      errorVerdict_of_failure failure]
  · rw [bind_apply_of_ok (places none), bind_apply_of_ok (places triggeredBy)]
    have held (final : Store) (meters : CuratorMeters) :
        sweepVerdict (.ok (holdResult candidate decision pipelineResult placed,
          meters) final) = .held := by
      simp [sweepVerdict, holdResult, obstacle]
    have isApproval : approvalVerdict
        ((throw (PromotionService.holdError decision placed) :
          StoreM CuratedMemory) store) = .held :=
      errorVerdict_holdError decision placed
    rw [isApproval]
    by_cases records : pipelineResult.outcome = .flagged ∧ suppress = false
    · obtain ⟨flagged, records⟩ := records
      subst records
      simp only [obstacle, flagged, and_self, when, if_true]
      rcases @reject_outcome env _ named pipelineResult draw store with
        ⟨accepts, reason, final, rejected⟩ | ⟨refuses, rejected⟩
      · rw [bind_assoc, bind_apply_of_ok rejected]
        simp [accepts, held]
      · rw [bind_assoc, bind_apply_of_error rejected]
        simp [refuses, blocked, sweepVerdict]
    · have vacuous : (!suppress && (pipelineResult.outcome = .flagged &&
          obstructed env store candidate service.holdLimits draw.now)) =
            false := by
        cases suppress <;> simp_all
      have skipped : when
          (placed.obstacle.isSome = true ∧ pipelineResult.outcome = .flagged)
          (do let _ ← reject env candidate pipelineResult suppress draw)
          store = .ok ⟨⟩ store := by
        by_cases flagged : pipelineResult.outcome = .flagged
        · have suppressed : suppress = true := by
            cases suppress <;> simp_all
          simp [when, obstacle, flagged, suppressed, reject]
        · simp [when, flagged]
      rw [bind_apply_of_ok skipped, vacuous]
      simp [held]
  · obtain ⟨placed, final, unblocked, swept⟩ := places none
    obtain ⟨placed', final', unblocked', approved⟩ := places triggeredBy
    rw [bind_apply_of_ok swept, bind_apply_of_ok approved]
    have isApproval : approvalVerdict
        ((throw (PromotionService.holdError decision placed') :
          StoreM CuratedMemory) final') = .held :=
      errorVerdict_holdError decision placed'
    rw [isApproval]
    simp [clear, when, unblocked, sweepVerdict, holdResult]

/-- Past the early refusals the paths agree, if what only the curator records
can be recorded. -/
theorem settled_sameVerdict_iff (indexes : env.IndexesText)
    (named : trim candidate.tenantId ≠ "") {tenantId : String}
    (approval : PromotionService.Approval) :
    sweepVerdict
        (carryOut env (sweepConfig service candidate.tenantId suppress) .fresh
          candidate none minimum draw
          (settledDecision env candidate policy pipelineResult none) store) =
      approvalVerdict
        (PromotionService.decide env service candidate tenantId policy
          pipelineResult minimum approval draw store) ↔
    ((!suppress && (settledDecision env candidate policy pipelineResult
        none).records env store candidate service.holdLimits draw.now) = true →
      store.auditEvents.Accepts draw.freshId) := by
  have turned (outcome : CurationOutcome)
      (away : outcome = .rejected ∨ outcome = .flagged) :
      sweepVerdict (turnAway env candidate outcome pipelineResult
          ((sweepConfig service candidate.tenantId suppress).dryRun ||
            (sweepConfig service candidate.tenantId
              suppress).suppressRejectionReceipts ||
            (none : Option HoldRelease).isSome) .fresh draw store) =
        if suppress = true ∨ store.auditEvents.Accepts draw.freshId then
          outcome.verdict
        else .failed (appendRefusal store.auditEvents draw.freshId) := by
    rw [sweepVerdict_turnAway named away]
    simp [sweepConfig]
  unfold settledDecision PromotionService.decide
  by_cases rejected : pipelineResult.outcome = .rejected
  · simp only [if_pos rejected, carryOut, turned _ (.inl rfl),
      CurationDecision.records]
    cases suppress <;> by_cases accepts : store.auditEvents.Accepts draw.freshId
      <;> simp [accepts, approvalVerdict, CurationOutcome.verdict]
  · simp only [if_neg rejected, Option.isSome_none, Bool.false_eq_true,
      if_false]
    cases evaluateHoldTriggers env candidate pipelineResult policy with
    | some decision =>
        have limits : (sweepConfig service candidate.tenantId
            suppress).suppressRejectionReceipts = suppress :=
          rfl
        simp only [carryOut, limits, Option.isSome_none, Bool.or_false]
        exact hold_sameVerdict_iff named decision approval.promotedBy
    | none =>
        have unreleased : flagsResolvedBy none pipelineResult = none := by
          simp [flagsResolvedBy]
        simp only [unreleased, and_true]
        by_cases flagged : pipelineResult.outcome = .flagged
        · simp only [if_pos flagged, carryOut, turned _ (.inr rfl),
            CurationDecision.records]
          cases suppress <;>
            by_cases accepts : store.auditEvents.Accepts draw.freshId <;>
            simp [accepts, approvalVerdict, CurationOutcome.verdict]
        · simp only [if_neg flagged, carryOut, CurationDecision.records]
          apply iff_of_true (promotion_sameVerdict indexes approval)
          simp

end Settled

/-! ## The early refusals -/

variable (env)

/-- The import gate turns the candidate away, after the origin gate. -/
def importExcluded (service : PromotionService) (candidate : MemoryCandidate) :
    Bool :=
  match checkOriginAttestation env candidate service.originSecret,
      checkImportExclusion env candidate with
  | .rejected _ _, _ => false
  | _, .rejected _ _ => true
  | _, _ => false

/-- How many of these turn the candidate away: a floor that cannot be resolved,
known content, a structural gate. -/
def earlyRefusals (service : PromotionService) (store : Store)
    (candidate : MemoryCandidate) : Nat :=
  (resolveCandidateMinimumSensitivity env candidate
      store.auditEvents).isOk.not.toNat +
    (PromotionService.contentError env store candidate
      candidate.tenantId).isSome.toNat +
    (structuralRejection env candidate service.originSecret).isSome.toNat

/-- The curator records that it turned the candidate away. -/
def sweepRecords (service : PromotionService) (store : Store)
    (candidate : MemoryCandidate) (suppress : Bool) (now : String) : Bool :=
  match resolveCandidateMinimumSensitivity env candidate store.auditEvents with
  | .error _ => false
  | .ok minimum =>
      !suppress &&
        (curationDecision env
          (sweepConfig service candidate.tenantId suppress) store candidate
          none none minimum).records env store candidate service.holdLimits now

/-- Where the two paths meet: one early refusal at most, and what only one of
them records can be recorded. -/
structure PathsMeet (service : PromotionService) (store : Store)
    (candidate : MemoryCandidate) (suppress : Bool) (draw : Draw) : Prop where
  oneRefusal : earlyRefusals env service store candidate ≤ 1
  recorded :
    sweepRecords env service store candidate suppress draw.now ≠
        importExcluded env service candidate →
      store.auditEvents.Accepts draw.freshId

variable {env}

section Early

variable {service : PromotionService} {candidate : MemoryCandidate}
variable {suppress : Bool} {draw : Draw} {store : Store}

/-- What the structural gates report, and how the service passes them. -/
theorem structural_cases
    (clean : disclosureViolation env candidate = none) (tenantId : String)
    (approval : PromotionService.Approval) :
    (∃ code pipelineResult,
      structuralRejection env candidate service.originSecret =
          some pipelineResult ∧
        PromotionService.gateError env service candidate =
          some (PromotionService.originRefusal code) ∧
        importExcluded env service candidate = false) ∨
    (∃ found pipelineResult,
      structuralRejection env candidate service.originSecret =
          some pipelineResult ∧
        PromotionService.gateError env service candidate = none ∧
        checkImportExclusion env candidate = .rejected found pipelineResult ∧
        importExcluded env service candidate = true) ∨
    structuralRejection env candidate service.originSecret = none ∧
      PromotionService.gateError env service candidate = none ∧
      PromotionService.passImportGate env candidate tenantId approval draw =
        pure ⟨⟩ ∧
      importExcluded env service candidate = false := by
  unfold structuralRejection PromotionService.gateError importExcluded
    PromotionService.passImportGate
  rw [clean]
  simp only [Option.isSome_none, Bool.false_eq_true, if_false]
  cases checkOriginAttestation env candidate service.originSecret with
  | rejected code pipelineResult =>
      exact .inl ⟨code, pipelineResult, rfl, rfl, rfl⟩
  | unattested =>
      cases checkImportExclusion env candidate with
      | rejected found pipelineResult =>
          exact .inr (.inl ⟨found, pipelineResult, rfl, rfl, rfl, rfl⟩)
      | notApplicable => exact .inr (.inr ⟨rfl, rfl, rfl, rfl⟩)
      | clear => exact .inr (.inr ⟨rfl, rfl, rfl, rfl⟩)
  | attested =>
      cases checkImportExclusion env candidate with
      | rejected found pipelineResult =>
          exact .inr (.inl ⟨found, pipelineResult, rfl, rfl, rfl, rfl⟩)
      | notApplicable => exact .inr (.inr ⟨rfl, rfl, rfl, rfl⟩)
      | clear => exact .inr (.inr ⟨rfl, rfl, rfl, rfl⟩)

theorem duplicateReason_eq_none_iff {config : CuratorConfig} :
    duplicateReason env config store candidate none = none ↔
      PromotionService.contentError env store candidate config.tenantId =
        none := by
  unfold duplicateReason PromotionService.contentError checkDuplicate
  dsimp only
  cases MemoryRepository.findByContentHashAndTenant store.curatedMemories
      (computeContentHash env candidate.content) config.tenantId with
  | some memory => simp
  | none =>
      cases AuditRepository.findRedactionByOldContentHash store.auditEvents
          (computeContentHash env candidate.content) config.tenantId <;>
        simp

/-- The import gate of the service records, or fails to. -/
theorem passImportGate_outcome (named : trim candidate.tenantId ≠ "")
    {found : BrainignoreMatch} {pipelineResult : PipelineResult}
    (excluded : checkImportExclusion env candidate =
      .rejected found pipelineResult)
    (approval : PromotionService.Approval)
    (rest : StoreM CuratedMemory) :
    approvalVerdict
        ((do
          PromotionService.passImportGate env candidate candidate.tenantId
            approval draw
          rest) store) =
      if store.auditEvents.Accepts draw.freshId then .rejected
      else .failed (appendRefusal store.auditEvents draw.freshId) := by
  have given : trim ("Rejected by rule: " ++ found.code) ≠ "" := by
    apply @Trim.trim_ne_empty _ _ 'R'
    · simp
    · decide
  obtain ⟨event, parsed⟩ := @rejectionEvent_parses candidate _ named
    (approval.promotedBy.getD curatorActor) _ given pipelineResult draw
  unfold PromotionService.passImportGate
  simp only [excluded, bind_assoc]
  rcases @record_outcome env _ _ parsed store with
    ⟨accepts, log, recorded⟩ | ⟨refuses, recorded⟩
  · have taken : store.auditEvents.Accepts draw.freshId := accepts
    rw [bind_apply_of_ok recorded, if_pos taken]
    exact errorVerdict_importRefusal found
  · have refused : ¬store.auditEvents.Accepts draw.freshId := refuses
    rw [bind_apply_of_error recorded, if_neg refused]
    exact errorVerdict_appendRefusal _ _

/-- The service finds the stored candidate and starts with its gates. -/
theorem promoteCandidate_apply {candidateId : String}
    (stored : CandidateRepository.read store.candidates candidateId =
      .ok (some candidate)) (approval : PromotionService.Approval) :
    PromotionService.promoteCandidate env service candidateId candidate.tenantId
        approval draw store =
      match PromotionService.gateError env service candidate with
      | some error => .error error store
      | none =>
          (do
            PromotionService.passImportGate env candidate candidate.tenantId
              approval draw
            PromotionService.governApproval env service candidate
              candidate.tenantId approval draw) store := by
  have found : PromotionService.requireCandidate candidateId candidate.tenantId
      store = .ok candidate store := by
    unfold PromotionService.requireCandidate CandidateRepository.findById
    rw [bind_assoc, bind_apply_of_ok (query_apply _ _), stored,
      bind_apply_of_ok (orSchemaError_eq_ok_iff.mpr ⟨rfl, rfl⟩)]
    have owned (error : RegistrarError) :
        ensure (candidate.tenantId = candidate.tenantId) error store =
          .ok ⟨⟩ store :=
      ensure_eq_ok_iff.mpr ⟨rfl, rfl⟩
    dsimp only
    rw [bind_apply_of_ok (owned _)]
    rfl
  unfold PromotionService.promoteCandidate
  rw [bind_apply_of_ok found]
  cases PromotionService.gateError env service candidate <;> rfl

theorem governApproval_apply (approval : PromotionService.Approval) :
    PromotionService.governApproval env service candidate candidate.tenantId
        approval draw store =
      match PromotionService.contentError env store candidate
        candidate.tenantId with
      | some error => .error error store
      | none =>
          match resolveCandidateMinimumSensitivity env candidate
            store.auditEvents with
          | .error error => .error error store
          | .ok minimum =>
              PromotionService.decide env service candidate candidate.tenantId
                (enabledPolicy store candidate.tenantId)
                (evaluatePolicy env (enabledPolicy store candidate.tenantId)
                  store candidate.tenantId candidate none minimum)
                minimum approval draw store := by
  unfold PromotionService.governApproval
  rw [bind_apply_of_ok (query_apply _ _)]
  cases PromotionService.contentError env store candidate
      candidate.tenantId with
  | some error => rfl
  | none =>
      cases resolved : resolveCandidateMinimumSensitivity env candidate
          store.auditEvents with
      | error error =>
          exact bind_apply_of_error (resolveMinimum_eq_error resolved)
      | ok minimum =>
          dsimp only
          rw [bind_apply_of_ok (resolveMinimum_eq_ok_iff.mpr ⟨resolved, rfl⟩),
            bind_apply_of_ok (query_apply _ _),
            bind_apply_of_ok (query_apply _ _)]

/-- A stored candidate has a tenant. -/
theorem tenant_solid_of_stored {candidateId : String}
    (stored : CandidateRepository.read store.candidates candidateId =
      .ok (some candidate)) :
    trim candidate.tenantId ≠ "" := by
  unfold CandidateRepository.read at stored
  cases row : store.candidates.find? candidateId with
  | none =>
      rw [row] at stored
      cases stored
  | some row' =>
      rw [row, Option.mapM_some] at stored
      cases parsed : row'.candidate.parse with
      | error issue =>
          rw [parsed] at stored
          cases stored
      | ok read =>
          rw [parsed] at stored
          cases stored
          have trimmed := MemoryCandidate.parse_eq_ok parsed
          unfold MemoryCandidate.parse at parsed
          split_ifs at parsed with content title tenant bulk
          have same : candidate.tenantId = trim row'.candidate.tenantId := by
            rw [trimmed]
          have again : trim candidate.tenantId = candidate.tenantId := by
            rw [same]
            exact Trim.trim_trim _ _
          rw [again, same]
          exact tenant

theorem curationDecision_known {minimum : Option Sensitivity}
    {error : RegistrarError}
    (known : PromotionService.contentError env store candidate
      candidate.tenantId = some error) :
    ∃ reason,
      curationDecision env (sweepConfig service candidate.tenantId suppress)
        store candidate none none minimum = .duplicate reason := by
  unfold curationDecision
  cases reported : duplicateReason env
      (sweepConfig service candidate.tenantId suppress) store candidate none with
  | some reason => exact ⟨reason, rfl⟩
  | none =>
      have unknown := duplicateReason_eq_none_iff.mp reported
      have known' : PromotionService.contentError env store candidate
          (sweepConfig service candidate.tenantId suppress).tenantId =
            some error :=
        known
      rw [unknown] at known'
      cases known'

theorem curationDecision_structural {minimum : Option Sensitivity}
    {pipelineResult : PipelineResult}
    (novel : PromotionService.contentError env store candidate
      candidate.tenantId = none)
    (structural : structuralRejection env candidate service.originSecret =
      some pipelineResult) :
    curationDecision env (sweepConfig service candidate.tenantId suppress)
      store candidate none none minimum = .reject pipelineResult := by
  have unknown : duplicateReason env
      (sweepConfig service candidate.tenantId suppress) store candidate none =
        none :=
    duplicateReason_eq_none_iff.mpr novel
  have gate : structuralRejection env candidate
      (sweepConfig service candidate.tenantId suppress).originSecret =
        some pipelineResult :=
    structural
  unfold curationDecision
  rw [unknown, gate]

/-- Novel content that passes the gates is decided by the policy. -/
theorem curationDecision_settled {minimum : Option Sensitivity}
    (novel : PromotionService.contentError env store candidate
      candidate.tenantId = none)
    (structural : structuralRejection env candidate service.originSecret = none)
    (notMcp : requiresRegistrarMcpReview candidate = false) :
    curationDecision env (sweepConfig service candidate.tenantId suppress)
        store candidate none none minimum =
      settledDecision env candidate (enabledPolicy store candidate.tenantId)
        (evaluatePolicy env (enabledPolicy store candidate.tenantId) store
          candidate.tenantId candidate none minimum) none := by
  have unknown : duplicateReason env
      (sweepConfig service candidate.tenantId suppress) store candidate none =
        none :=
    duplicateReason_eq_none_iff.mpr novel
  have gate : structuralRejection env candidate
      (sweepConfig service candidate.tenantId suppress).originSecret = none :=
    structural
  unfold curationDecision
  rw [unknown, gate]
  simp only [notMcp, Bool.false_eq_true, false_and, if_false]
  rfl

/-- A floor that cannot be resolved fails either path, unless the service has
turned the candidate away before. -/
theorem unresolved_sameVerdict_iff {candidateId : String}
    (stored : CandidateRepository.read store.candidates candidateId =
      .ok (some candidate))
    (clean : disclosureViolation env candidate = none)
    (approval : PromotionService.Approval) {error : RegistrarError}
    (unresolved : resolveCandidateMinimumSensitivity env candidate
      store.auditEvents = .error error) :
    sweepVerdict
        (Curator.processSingle env
          (sweepConfig service candidate.tenantId suppress) .fresh candidate
          none none draw store) =
      approvalVerdict
        (PromotionService.promoteCandidate env service candidateId
          candidate.tenantId approval draw store) ↔
    PathsMeet env service store candidate suppress draw := by
  have ofReceipt := resolve_eq_error_ofReceipt unresolved
  have failed : errorVerdict error = .failed error := by
    cases ofReceipt <;> rfl
  have silent : sweepRecords env service store candidate suppress draw.now =
      false := by
    simp [sweepRecords, unresolved]
  rw [processSingle_apply, promoteCandidate_apply stored, unresolved]
  rcases @structural_cases env service candidate draw clean candidate.tenantId
      approval with
    ⟨code, pipelineResult, structural, gate, -⟩ |
      ⟨found, pipelineResult, structural, gate, excluded, -⟩ |
      ⟨structural, gate, passes, admitted⟩
  · rw [gate]
    apply iff_of_false
    · simp [sweepVerdict, approvalVerdict]
    · intro meet
      have one := meet.oneRefusal
      simp [earlyRefusals, unresolved, structural, Except.isOk,
        Except.toBool] at one
  · rw [gate]
    apply iff_of_false
    · rw [passImportGate_outcome (tenant_solid_of_stored stored) excluded]
      split_ifs
      · simp [sweepVerdict]
      · intro same
        cases same
        unfold appendRefusal at ofReceipt
        split_ifs at ofReceipt <;> cases ofReceipt
    · intro meet
      have one := meet.oneRefusal
      simp [earlyRefusals, unresolved, structural, Except.isOk,
        Except.toBool] at one
  · rw [gate, passes]
    simp only [pure_bind, governApproval_apply]
    cases known : PromotionService.contentError env store candidate
        candidate.tenantId with
    | some refusal =>
        apply iff_of_false
        · simp [sweepVerdict, approvalVerdict, errorVerdict_contentError env known]
        · intro meet
          have one := meet.oneRefusal
          simp [earlyRefusals, unresolved, known, Except.isOk,
            Except.toBool] at one
          omega
    | none =>
        apply iff_of_true
        · simp [unresolved, sweepVerdict, approvalVerdict, failed]
        · constructor
          · simp [earlyRefusals, unresolved, known, structural, Except.isOk,
              Except.toBool]
          · intro differ
            rw [silent, admitted] at differ
            exact absurd rfl differ

/-- The curator reports known content before it looks at the gates. -/
theorem known_sameVerdict_iff {candidateId : String}
    (stored : CandidateRepository.read store.candidates candidateId =
      .ok (some candidate))
    (clean : disclosureViolation env candidate = none)
    (approval : PromotionService.Approval) {minimum : Option Sensitivity}
    (resolved : resolveCandidateMinimumSensitivity env candidate
      store.auditEvents = .ok minimum)
    {error : RegistrarError}
    (known : PromotionService.contentError env store candidate
      candidate.tenantId = some error) :
    sweepVerdict
        (Curator.processSingle env
          (sweepConfig service candidate.tenantId suppress) .fresh candidate
          none none draw store) =
      approvalVerdict
        (PromotionService.promoteCandidate env service candidateId
          candidate.tenantId approval draw store) ↔
    PathsMeet env service store candidate suppress draw := by
  obtain ⟨reason, decided⟩ :=
    @curationDecision_known env service candidate suppress store minimum error
      known
  have silent : sweepRecords env service store candidate suppress draw.now =
      false := by
    simp [sweepRecords, resolved, decided, CurationDecision.records]
  have swept : sweepVerdict
      (Curator.processSingle env
        (sweepConfig service candidate.tenantId suppress) .fresh candidate none
        none draw store) = .duplicate := by
    rw [processSingle_apply, resolved]
    dsimp only
    rw [decided]
    rfl
  rw [swept, promoteCandidate_apply stored]
  rcases @structural_cases env service candidate draw clean candidate.tenantId
      approval with
    ⟨code, pipelineResult, structural, gate, -⟩ |
      ⟨found, pipelineResult, structural, gate, excluded, -⟩ |
      ⟨structural, gate, passes, admitted⟩
  · rw [gate]
    apply iff_of_false
    · simp [approvalVerdict]
    · intro meet
      have one := meet.oneRefusal
      simp [earlyRefusals, known, structural] at one
  · rw [gate]
    apply iff_of_false
    · rw [passImportGate_outcome (tenant_solid_of_stored stored) excluded]
      split_ifs <;> simp
    · intro meet
      have one := meet.oneRefusal
      simp [earlyRefusals, known, structural] at one
  · rw [gate, passes]
    simp only [pure_bind, governApproval_apply, known]
    apply iff_of_true
    · exact (errorVerdict_contentError env known).symm
    · constructor
      · simp [earlyRefusals, resolved, known, structural, Except.isOk,
          Except.toBool]
      · intro differ
        rw [silent, admitted] at differ
        exact absurd rfl differ

/-- Novel content with a floor meets the same gates and the same policy. -/
theorem novel_sameVerdict_iff (indexes : env.IndexesText) {candidateId : String}
    (stored : CandidateRepository.read store.candidates candidateId =
      .ok (some candidate))
    (clean : disclosureViolation env candidate = none)
    (notMcp : requiresRegistrarMcpReview candidate = false)
    (approval : PromotionService.Approval) {minimum : Option Sensitivity}
    (resolved : resolveCandidateMinimumSensitivity env candidate
      store.auditEvents = .ok minimum)
    (novel : PromotionService.contentError env store candidate
      candidate.tenantId = none) :
    sweepVerdict
        (Curator.processSingle env
          (sweepConfig service candidate.tenantId suppress) .fresh candidate
          none none draw store) =
      approvalVerdict
        (PromotionService.promoteCandidate env service candidateId
          candidate.tenantId approval draw store) ↔
    PathsMeet env service store candidate suppress draw := by
  have named := tenant_solid_of_stored stored
  have single : earlyRefusals env service store candidate ≤ 1 := by
    have atMost := Bool.toNat_le
      (structuralRejection env candidate service.originSecret).isSome
    simpa [earlyRefusals, resolved, novel, Except.isOk, Except.toBool]
      using atMost
  have meets : PathsMeet env service store candidate suppress draw ↔
      (sweepRecords env service store candidate suppress draw.now ≠
          importExcluded env service candidate →
        store.auditEvents.Accepts draw.freshId) :=
    ⟨PathsMeet.recorded, fun recorded => ⟨single, recorded⟩⟩
  have recorded : sweepRecords env service store candidate suppress draw.now =
      (!suppress &&
        (curationDecision env (sweepConfig service candidate.tenantId suppress)
          store candidate none none minimum).records env store candidate
            service.holdLimits draw.now) := by
    simp [sweepRecords, resolved]
  have swept (outcome : CurationDecision) (pipelineResult : PipelineResult)
      (isReject : outcome = .reject pipelineResult) :
      sweepVerdict
          (carryOut env (sweepConfig service candidate.tenantId suppress) .fresh
            candidate none minimum draw outcome store) =
        if suppress = true ∨ store.auditEvents.Accepts draw.freshId then
          .rejected
        else .failed (appendRefusal store.auditEvents draw.freshId) := by
    subst isReject
    simp only [carryOut]
    rw [sweepVerdict_turnAway named (.inl rfl)]
    simp [sweepConfig, CurationOutcome.verdict]
  rw [meets, recorded, processSingle_apply, promoteCandidate_apply stored,
    resolved]
  dsimp only
  rcases @structural_cases env service candidate draw clean candidate.tenantId
      approval with
    ⟨code, pipelineResult, structural, gate, admitted⟩ |
      ⟨found, pipelineResult, structural, gate, excluded, counted⟩ |
      ⟨structural, gate, passes, admitted⟩
  · rw [gate, admitted, curationDecision_structural novel structural,
      swept _ _ rfl]
    cases suppress <;> by_cases accepts : store.auditEvents.Accepts draw.freshId
      <;> simp [accepts, approvalVerdict, CurationDecision.records]
  · rw [gate, counted, curationDecision_structural novel structural,
      swept _ _ rfl]
    simp only [passImportGate_outcome named excluded]
    cases suppress <;> by_cases accepts : store.auditEvents.Accepts draw.freshId
      <;> simp [accepts, CurationDecision.records]
  · rw [gate, passes, admitted,
      curationDecision_settled novel structural notMcp]
    simp only [pure_bind, governApproval_apply, novel, resolved]
    rw [settled_sameVerdict_iff indexes named]
    simp

end Early

/-- The curator under the service's settings and the service come to one
verdict exactly where the two paths meet. -/
theorem paths_sameVerdict_iff (indexes : env.IndexesText)
    (service : PromotionService) (suppress : Bool)
    {candidate : MemoryCandidate} {candidateId : String} {store : Store}
    (stored : CandidateRepository.read store.candidates candidateId =
      .ok (some candidate))
    (clean : disclosureViolation env candidate = none)
    (notMcp : requiresRegistrarMcpReview candidate = false)
    (approval : PromotionService.Approval) (draw : Draw) :
    sweepVerdict
        (Curator.processSingle env
          (sweepConfig service candidate.tenantId suppress) .fresh candidate
          none none draw store) =
      approvalVerdict
        (PromotionService.promoteCandidate env service candidateId
          candidate.tenantId approval draw store) ↔
    PathsMeet env service store candidate suppress draw := by
  cases resolved : resolveCandidateMinimumSensitivity env candidate
      store.auditEvents with
  | error error => exact unresolved_sameVerdict_iff stored clean approval resolved
  | ok minimum =>
      cases known : PromotionService.contentError env store candidate
          candidate.tenantId with
      | some error =>
          exact known_sameVerdict_iff stored clean approval resolved known
      | none =>
          exact novel_sameVerdict_iff indexes stored clean notMcp approval
            resolved known

def knownMemory : CuratedMemory :=
  sampleMemory plainEnvironment "other"
    ⟨"Call Bo first.", by decide +kernel, by simp⟩
    ⟨"Calls", by decide +kernel, by simp⟩

/-- A candidate with the text of the memory. -/
def repeatedCandidate : MemoryCandidate :=
  { untrustedProjection knownMemory with
    id := "repeated" }

def attestedCandidate : MemoryCandidate :=
  { repeatedCandidate with
    origin :=
      some
        { tokenHmac := "token"
          channel := "cli"
          mintedAt := "0" } }

/-- The memory and a waiting candidate. -/
def knownTextStore (candidate : MemoryCandidate) : Store :=
  { Store.empty with
    candidates :=
      { rows :=
          [{ candidate := candidate
             contentHash := "hash"
             importBatchId := none }]
        coexist := List.pairwise_singleton _ _ }
    curatedMemories :=
      { rows := [knownMemory]
        coexist := List.pairwise_singleton _ _ } }

/-- A service without an origin secret. -/
def secretlessService : PromotionService where
  withLinks := true
  originSecret := none
  holdLimits :=
    { ttlDays := none
      maxActiveHolds := none }

def anonymousApproval : PromotionService.Approval where
  promotedBy := none
  promotionReason := none

def plainDraw : Draw where
  freshId := "draw"
  now := "1"

/-- The curator reports a duplicate, the service an unverifiable origin. -/
theorem knownText_verdictsDiffer :
    CandidateRepository.read (knownTextStore attestedCandidate).candidates
          "repeated" = .ok (some attestedCandidate) ∧
      disclosureViolation plainEnvironment attestedCandidate = none ∧
      requiresRegistrarMcpReview attestedCandidate = false ∧
      sweepVerdict
          (Curator.processSingle plainEnvironment
            (sweepConfig secretlessService "team" false) .fresh
            attestedCandidate none none plainDraw
            (knownTextStore attestedCandidate)) = .duplicate ∧
      approvalVerdict
          (PromotionService.promoteCandidate plainEnvironment secretlessService
            "repeated" "team" anonymousApproval plainDraw
            (knownTextStore attestedCandidate)) = .rejected := by
  decide +kernel

theorem paths_sameVerdict_knownText :
    sweepVerdict
        (Curator.processSingle plainEnvironment
          (sweepConfig secretlessService "team" false) .fresh repeatedCandidate
          none none plainDraw (knownTextStore repeatedCandidate)) =
      approvalVerdict
        (PromotionService.promoteCandidate plainEnvironment secretlessService
          "repeated" "team" anonymousApproval plainDraw
          (knownTextStore repeatedCandidate)) := by
  have indexes : plainEnvironment.IndexesText := fun _ _ _ _ => rfl
  have stored : CandidateRepository.read
      (knownTextStore repeatedCandidate).candidates "repeated" =
        .ok (some repeatedCandidate) := by
    decide +kernel
  have clean : disclosureViolation plainEnvironment repeatedCandidate = none := by
    decide +kernel
  have notMcp : requiresRegistrarMcpReview repeatedCandidate = false := by
    decide +kernel
  apply (paths_sameVerdict_iff indexes secretlessService false stored clean
    notMcp anonymousApproval plainDraw).mpr
  constructor
  · decide +kernel
  · intro differ
    have same : sweepRecords plainEnvironment secretlessService
        (knownTextStore repeatedCandidate) repeatedCandidate false
          plainDraw.now =
        importExcluded plainEnvironment secretlessService
          repeatedCandidate := by
      decide +kernel
    exact absurd same differ

end Registrar
