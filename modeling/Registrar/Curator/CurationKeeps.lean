import Registrar.Curator.Decisions

/-!
# What a curation leaves alone

A curation appends receipts, puts candidates on hold and promotes; an assertion
that survives these survives a batch.
-/

namespace Registrar

open Program

variable {env : Environment} {invariant : Store → Prop}

/-- The receipt of a hold, or of a rejection by the rules. -/
def IsCurationReceipt (event : AuditEvent) : Prop :=
  event.action = .held ∨
    event.action = .deleted ∧ event.detailText "disposition" = none

theorem IsCurationReceipt.not_redacted {event : AuditEvent}
    (receipt : IsCurationReceipt event) : event.action ≠ .redacted := by
  rcases receipt with held | ⟨deleted, -⟩
  · simp [held]
  · simp [deleted]

/-- The assertion survives what a curation writes that does not promote. -/
structure SurvivesHolding (env : Environment) (invariant : Store → Prop) :
    Prop where
  appended : SurvivesAppend env IsCurationReceipt invariant
  held : ∀ id tenantId,
    Keeps invariant
      (CandidateRepository.updateStatus id holdStatus tenantId)

/-- The assertion survives everything that a curation writes. -/
structure SurvivesCuration (env : Environment) (invariant : Store → Prop) :
    Prop extends SurvivesHolding env invariant where
  promoted : ∀ input now memory minimum,
    PromotionInput.memory env input now minimum = .ok memory →
      SurvivesPromotion env input memory invariant

theorem rejectionEvent_isCurationReceipt {candidate : MemoryCandidate}
    {tenantId reason : String} {actor : Author}
    {pipelineResult : PipelineResult} {draw : Draw} {event : AuditEvent}
    (accepted : AuditEvent.parse (rejectionEvent candidate tenantId actor reason
      pipelineResult draw) = .ok event) :
    IsCurationReceipt event := by
  obtain ⟨tenantId, reason, -, rfl⟩ := AuditEvent.parse_eq_ok accepted
  exact .inr ⟨rfl, rfl⟩

theorem heldEvent_isCurationReceipt {candidate : MemoryCandidate}
    {decision : HoldDecision} {limits : HoldLimits}
    {triggeredBy : Option Author} {expiresAt now : String} {event : AuditEvent}
    (accepted : AuditEvent.parse (heldEvent env candidate decision limits
      triggeredBy expiresAt now) = .ok event) :
    IsCurationReceipt event := by
  obtain ⟨tenantId, reason, -, rfl⟩ := AuditEvent.parse_eq_ok accepted
  exact .inl rfl

section Holding

variable (survives : SurvivesHolding env invariant)

include survives

theorem reject_keeps (candidate : MemoryCandidate)
    (pipelineResult : PipelineResult) (dryRun : Bool) (draw : Draw) :
    Keeps invariant (reject env candidate pipelineResult dryRun draw) := by
  unfold reject
  apply Keeps.bind
  · apply Keeps.when
    intro _
    exact AuditRepository.record_keeps survives.appended
      fun _ => rejectionEvent_isCurationReceipt
  · intro _
    exact Keeps.pure _

theorem placeHold_keeps (candidate : MemoryCandidate) (decision : HoldDecision)
    (limits : HoldLimits) (triggeredBy : Option Author) (dryRun : Bool)
    (now : String) :
    Keeps invariant
      (placeHold env candidate decision limits triggeredBy dryRun now) := by
  unfold placeHold
  cases holdExpiry env limits now with
  | error error => exact Keeps.throw _
  | ok expiresAt =>
      apply Keeps.ite
      · intro _
        exact Keeps.query _
      · intro _
        apply Keeps.transaction
        unfold attemptHold
        apply Keeps.bind (Keeps.query _)
        intro obstacle
        cases obstacle with
        | some placed => exact Keeps.pure _
        | none =>
            dsimp only
            unfold writeHold
            apply Keeps.bind (Keeps.query _)
            intro stored
            apply Triple.bind (orSchemaError_triple _)
            intro held
            apply Triple.assume
            intro accepted
            apply Keeps.bind (survives.held _ _)
            intro count
            apply Keeps.bind
            · exact AuditRepository.insert_keeps survives.appended
                (heldEvent_isCurationReceipt accepted)
            · intro _
              exact Keeps.pure _

theorem holdCandidate_keeps (config : CuratorConfig) (meters : CuratorMeters)
    (candidate : MemoryCandidate) (decision : HoldDecision)
    (pipelineResult : PipelineResult) (suppressReject : Bool) (draw : Draw) :
    Keeps invariant
      (holdCandidate env config meters candidate decision pipelineResult
        suppressReject draw) := by
  have settles (placed : PlaceHoldResult) :
      Keeps invariant
        (do
          when (placed.obstacle.isSome = true ∧
              pipelineResult.outcome = .flagged) do
            let _ ← reject env candidate pipelineResult suppressReject draw
          pure (holdResult candidate decision pipelineResult placed,
            meters.afterHold placed)) := by
    apply Keeps.bind
    · apply Keeps.when
      intro _
      apply Keeps.bind (reject_keeps survives _ _ _ _)
      intro _
      exact Keeps.pure _
    · intro _
      exact Keeps.pure _
  unfold holdCandidate
  dsimp only
  split
  · apply Keeps.bind (Keeps.pure _)
    exact settles
  · apply Keeps.bind (placeHold_keeps survives _ _ _ _ _ _)
    exact settles

theorem turnAway_keeps (candidate : MemoryCandidate) (outcome : CurationOutcome)
    (pipelineResult : PipelineResult) (suppressReject : Bool)
    (meters : CuratorMeters) (draw : Draw) :
    Keeps invariant
      (turnAway env candidate outcome pipelineResult suppressReject meters
        draw) := by
  unfold turnAway
  apply Keeps.bind (reject_keeps survives _ _ _ _)
  intro _
  exact Keeps.pure _

theorem carryOut_keeps_of_notPromoted {config : CuratorConfig}
    {meters : CuratorMeters} {candidate : MemoryCandidate}
    {release : Option HoldRelease} {minimum : Option Sensitivity} {draw : Draw}
    {decision : CurationDecision}
    (notPromoted : ∀ pipelineResult flags,
      decision ≠ .promote pipelineResult flags) :
    Keeps invariant
      (carryOut env config meters candidate release minimum draw decision) := by
  cases decision with
  | duplicate reason => exact Keeps.pure _
  | reject pipelineResult => exact turnAway_keeps survives _ _ _ _ _ _
  | flag pipelineResult => exact turnAway_keeps survives _ _ _ _ _ _
  | review => exact Keeps.pure _
  | hold decision pipelineResult =>
      exact holdCandidate_keeps survives _ _ _ _ _ _ _
  | promote pipelineResult flags => exact absurd rfl (notPromoted _ _)

end Holding

section Keeps

variable (survives : SurvivesCuration env invariant)

include survives

theorem Curator.promoteCandidate_keeps (config : CuratorConfig)
    (meters : CuratorMeters) (candidate : MemoryCandidate)
    (pipelineResult : PipelineResult) (release : Option HoldRelease)
    (releasedFlags : Option (List String)) (minimum : Option Sensitivity)
    (draw : Draw) :
    Keeps invariant
      (Curator.promoteCandidate env config meters candidate pipelineResult
        release releasedFlags minimum draw) := by
  unfold Curator.promoteCandidate
  apply Keeps.bind (Keeps.query _)
  intro plan
  dsimp only
  apply Keeps.bind
  · apply promote_keeps
    intro memory floor built
    exact survives.promoted _ _ memory floor built
  · intro memory
    exact Keeps.pure _

theorem carryOut_keeps (config : CuratorConfig) (meters : CuratorMeters)
    (candidate : MemoryCandidate) (release : Option HoldRelease)
    (minimum : Option Sensitivity) (draw : Draw)
    (decision : CurationDecision) :
    Keeps invariant
      (carryOut env config meters candidate release minimum draw decision) := by
  by_cases promotes : ∃ pipelineResult flags,
      decision = .promote pipelineResult flags
  · obtain ⟨pipelineResult, flags, rfl⟩ := promotes
    exact Curator.promoteCandidate_keeps survives _ _ _ _ _ _ _ _
  · push Not at promotes
    exact carryOut_keeps_of_notPromoted survives.toSurvivesHolding promotes

theorem processSingle_keeps (config : CuratorConfig) (meters : CuratorMeters)
    (candidate : MemoryCandidate) (existingHashes : Option (List String))
    (release : Option HoldRelease) (draw : Draw) :
    Keeps invariant
      (Curator.processSingle env config meters candidate existingHashes release
        draw) := by
  rw [processSingle_eq]
  apply Keeps.bind (resolveMinimum_keeps _)
  intro minimum
  apply Keeps.bind (Keeps.query _)
  intro decision
  exact carryOut_keeps survives _ _ _ _ _ _ _

theorem processCandidates_keeps (config : CuratorConfig)
    (candidates : List (MemoryCandidate × Draw)) (meters : CuratorMeters)
    (hashes : List String) (results : List CurationResult) :
    Keeps invariant
      (Curator.processCandidates env config candidates meters hashes
        results) := by
  induction candidates generalizing meters hashes results with
  | nil => exact Keeps.pure _
  | cons entry rest induction =>
      obtain ⟨candidate, draw⟩ := entry
      unfold Curator.processCandidates
      apply Keeps.bind (processSingle_keeps survives _ _ _ _ _ _)
      intro curated
      exact induction _ _ _

theorem processBatch_keeps (config : CuratorConfig) (meters : CuratorMeters)
    (candidates : List (MemoryCandidate × Draw)) :
    Keeps invariant (Curator.processBatch env config meters candidates) := by
  unfold Curator.processBatch
  apply Keeps.bind (Keeps.query _)
  intro hashes
  apply Keeps.bind (processCandidates_keeps survives _ _ _ _ _)
  intro curated
  exact Keeps.pure _

end Keeps

theorem sameMemories_survive (table : MemoryTable) :
    SurvivesHolding env fun store => store.curatedMemories = table where
  appended := fun _ _ _ _ same _ => same
  held := fun _ _ => ⟨fun _ same => same⟩

end Registrar
