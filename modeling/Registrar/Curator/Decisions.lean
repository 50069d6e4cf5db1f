import Registrar.Curator.ResolveHold
import Registrar.Api.PromotionService

/-!
# Decisions before writes

Both paths to promotion first read the store, come to a decision, and only then
write.  The decisions are functions of the store.
-/

namespace Registrar

open Program

variable (env : Environment)

inductive CurationDecision where
  | duplicate (reason : String)
  | reject (pipelineResult : PipelineResult)
  | flag (pipelineResult : PipelineResult)
  | review
  | hold (decision : HoldDecision) (pipelineResult : PipelineResult)
  | promote (pipelineResult : PipelineResult)
      (releasedFlags : Option (List String))

/-- What follows the pipeline's verdict. -/
def settledDecision (candidate : MemoryCandidate)
    (policy : Option GovernancePolicy) (pipelineResult : PipelineResult)
    (release : Option HoldRelease) : CurationDecision :=
  if pipelineResult.outcome = .rejected then .reject pipelineResult
  else
    match (if release.isSome then none
      else evaluateHoldTriggers env candidate pipelineResult policy) with
    | some decision => .hold decision pipelineResult
    | none =>
        if pipelineResult.outcome = .flagged ∧
            flagsResolvedBy release pipelineResult = none then
          .flag pipelineResult
        else .promote pipelineResult (flagsResolvedBy release pipelineResult)

/-- The decision on a candidate with this sensitivity floor. -/
def curationDecision (config : CuratorConfig) (store : Store)
    (candidate : MemoryCandidate) (existingHashes : Option (List String))
    (release : Option HoldRelease) (minimum : Option Sensitivity) :
    CurationDecision :=
  match duplicateReason env config store candidate existingHashes with
  | some reason => .duplicate reason
  | none =>
      match structuralRejection env candidate config.originSecret with
      | some pipelineResult => .reject pipelineResult
      | none =>
          if requiresRegistrarMcpReview candidate ∧
              release.all (·.promotedBy.type ≠ .human) then .review
          else
            let policy := enabledPolicy store config.tenantId
            settledDecision env candidate policy
              (evaluatePolicy env policy store config.tenantId candidate
                existingHashes minimum) release

/-- The result for a proposal that needs an explicit review. -/
def reviewResult (candidate : MemoryCandidate) : CurationResult :=
  .turnedAway candidate .flagged
    (some
      { candidateId := candidate.id
        outcome := .flagged
        evaluations := []
        rejectedBy := none
        flaggedBy := some ["registrar_mcp_review_required"] })
    ("Registrar MCP proposals require explicit review before " ++
      "admission.")

def carryOut (config : CuratorConfig) (meters : CuratorMeters)
    (candidate : MemoryCandidate) (release : Option HoldRelease)
    (minimum : Option Sensitivity) (draw : Draw) :
    CurationDecision → StoreM (CurationResult × CuratorMeters) :=
  let suppressReject :=
    config.dryRun || config.suppressRejectionReceipts || release.isSome
  fun
  | .duplicate reason =>
      pure (.turnedAway candidate .duplicate none reason, meters)
  | .reject pipelineResult =>
      turnAway env candidate .rejected pipelineResult suppressReject meters draw
  | .flag pipelineResult =>
      turnAway env candidate .flagged pipelineResult suppressReject meters draw
  | .review => pure (reviewResult candidate, meters)
  | .hold decision pipelineResult =>
      holdCandidate env config meters candidate decision pipelineResult
        suppressReject draw
  | .promote pipelineResult releasedFlags =>
      Curator.promoteCandidate env config meters candidate pipelineResult
        release releasedFlags minimum draw

theorem settle_eq (config : CuratorConfig) (meters : CuratorMeters)
    (candidate : MemoryCandidate) (policy : Option GovernancePolicy)
    (pipelineResult : PipelineResult) (release : Option HoldRelease)
    (minimum : Option Sensitivity) (draw : Draw) :
    settle env config meters candidate policy pipelineResult release minimum
        (config.dryRun || config.suppressRejectionReceipts || release.isSome)
        draw =
      carryOut env config meters candidate release minimum draw
        (settledDecision env candidate policy pipelineResult release) := by
  unfold settle settledDecision
  dsimp only
  by_cases rejected : pipelineResult.outcome = .rejected
  · rw [if_pos rejected, if_pos rejected]
    rfl
  · rw [if_neg rejected, if_neg rejected]
    cases (if release.isSome then none
        else evaluateHoldTriggers env candidate pipelineResult policy) with
    | some decision => rfl
    | none =>
        dsimp only
        split_ifs <;> rfl

/-- The curator decides and then carries out the decision. -/
theorem processSingle_eq (config : CuratorConfig) (meters : CuratorMeters)
    (candidate : MemoryCandidate) (existingHashes : Option (List String))
    (release : Option HoldRelease) (draw : Draw) :
    Curator.processSingle env config meters candidate existingHashes release
        draw =
      (do
        let minimum ← resolveMinimum env candidate
        let decision ← query fun store : Store =>
          curationDecision env config store candidate existingHashes release
            minimum
        carryOut env config meters candidate release minimum draw
          decision) := by
  unfold Curator.processSingle
  congr 1
  funext minimum store
  rw [bind_apply_of_ok (query_apply _ _), bind_apply_of_ok (query_apply _ _)]
  unfold curationDecision
  cases duplicateReason env config store candidate existingHashes with
  | some reason => rfl
  | none =>
      dsimp only
      unfold governNovel
      cases structuralRejection env candidate config.originSecret with
      | some pipelineResult =>
          simp only
          rfl
      | none =>
          simp only
          by_cases review : requiresRegistrarMcpReview candidate ∧
              release.all (·.promotedBy.type ≠ .human)
          · rw [if_pos review, if_pos review]
            rfl
          · rw [if_neg review, if_neg review,
              bind_apply_of_ok (query_apply _ _),
              bind_apply_of_ok (query_apply _ _), settle_eq]

variable {env}

theorem processSingle_apply (config : CuratorConfig) (meters : CuratorMeters)
    {candidate : MemoryCandidate} {existingHashes : Option (List String)}
    {release : Option HoldRelease} {draw : Draw} {store : Store} :
    Curator.processSingle env config meters candidate existingHashes release
        draw store =
      match resolveCandidateMinimumSensitivity env candidate
        store.auditEvents with
      | .error error => .error error store
      | .ok minimum =>
          carryOut env config meters candidate release minimum draw
            (curationDecision env config store candidate existingHashes release
              minimum) store := by
  rw [processSingle_eq]
  cases resolved : resolveCandidateMinimumSensitivity env candidate
      store.auditEvents with
  | error error =>
      exact bind_apply_of_error (resolveMinimum_eq_error resolved)
  | ok minimum =>
      rw [bind_apply_of_ok (resolveMinimum_eq_ok_iff.mpr ⟨resolved, rfl⟩),
        bind_apply_of_ok (query_apply _ _)]

theorem settledDecision_release {candidate : MemoryCandidate}
    {policy : Option GovernancePolicy} {pipelineResult : PipelineResult}
    {release : HoldRelease} {decision : HoldDecision}
    {other : PipelineResult} :
    settledDecision env candidate policy pipelineResult (some release) ≠
      .hold decision other := by
  unfold settledDecision
  split_ifs <;> simp_all

/-- A release is decided without a hold, and carried out by a promotion or
without any write. -/
theorem processSingle_release_triple {config : CuratorConfig}
    {meters : CuratorMeters} {candidate : MemoryCandidate}
    {existingHashes : Option (List String)} {release : HoldRelease}
    {draw : Draw} {before after : Store → Prop}
    (promotes : ∀ pipelineResult flags minimum,
      Triple before
        (Curator.promoteCandidate env config meters candidate pipelineResult
          (some release) flags minimum draw)
        (fun curated store => curated.1.outcome = .promoted ∧ after store)
        (fun _ => before)) :
    Triple before
      (Curator.processSingle env config meters candidate existingHashes
        (some release) draw)
      (fun curated store =>
        if curated.1.outcome = .promoted then after store else before store)
      (fun _ => before) := by
  have suppresses : (config.dryRun || config.suppressRejectionReceipts ||
      (some release).isSome) = true := by
    simp
  rw [processSingle_eq]
  apply Triple.bind (resolveMinimum_keeps _)
  intro minimum
  apply Triple.bind (Triple.query_eq _)
  intro decision
  constructor
  rintro store ⟨isDecision, start⟩
  cases decision with
  | duplicate reason => exact start
  | reject pipelineResult =>
      simp only [carryOut, suppresses]
      exact start
  | flag pipelineResult =>
      simp only [carryOut, suppresses]
      exact start
  | review => exact start
  | hold decision pipelineResult =>
      exfalso
      unfold curationDecision at isDecision
      split at isDecision
      · cases isDecision
      · split at isDecision
        · cases isDecision
        · split_ifs at isDecision
          exact settledDecision_release isDecision
  | promote pipelineResult flags =>
      have result := (promotes pipelineResult flags minimum).run store start
      simp only [carryOut]
      cases ended : Curator.promoteCandidate env config meters candidate
          pipelineResult (some release) flags minimum draw store with
      | ok value next =>
          rw [ended] at result
          dsimp only at result ⊢
          rw [if_pos result.1]
          exact result.2
      | error error next =>
          rw [ended] at result
          exact result

end Registrar
