import Registrar.Api.PromotionService

/-!
# An approval in steps

An approval reads the store and judges the candidate, then commits the promotion
in a transaction of its own, and then marks the candidate.
-/

namespace Registrar

open Program

namespace PromotionService

variable (env : Environment) (service : PromotionService)

/-- The promotion that an approved candidate leads to. -/
def preparePromotion (candidate : MemoryCandidate)
    (pipelineResult : PipelineResult) (minimum : Option Sensitivity)
    (approval : Approval) : StoreM PromotionInput := do
  let plan ← query fun store : Store => planFor env store candidate none none
  pure (servicePromotion env candidate pipelineResult minimum plan.matched
    approval)

def prepareDecided (candidate : MemoryCandidate)
    (policy : Option GovernancePolicy) (pipelineResult : PipelineResult)
    (minimum : Option Sensitivity) (approval : Approval) (draw : Draw) :
    StoreM PromotionInput :=
  if pipelineResult.outcome = .rejected then
    throw (rejectionError pipelineResult)
  else
    match evaluateHoldTriggers env candidate pipelineResult policy with
    | some decision => do
        let placed ← placeHold env candidate decision service.holdLimits
          approval.promotedBy false draw.now
        throw (holdError decision placed)
    | none =>
        if pipelineResult.outcome = .flagged then
          throw (flagError pipelineResult)
        else preparePromotion env candidate pipelineResult minimum approval

def prepareGoverned (candidate : MemoryCandidate) (tenantId : String)
    (approval : Approval) (draw : Draw) : StoreM PromotionInput := do
  let refused ← query fun store : Store =>
    contentError env store candidate tenantId
  match refused with
  | some error => throw error
  | none =>
      let minimum ← resolveMinimum env candidate
      let policy ← query fun store : Store => enabledPolicy store tenantId
      let pipelineResult ← query fun store : Store =>
        evaluatePolicy env policy store tenantId candidate none minimum
      prepareDecided env service candidate policy pipelineResult minimum
        approval draw

/-- The reads of an approval: the promotion to commit, or the error that ends
it. -/
def prepareApproval (candidateId tenantId : String) (approval : Approval)
    (draw : Draw) : StoreM PromotionInput := do
  let candidate ← requireCandidate candidateId tenantId
  match gateError env service candidate with
  | some error => throw error
  | none =>
      passImportGate env candidate tenantId approval draw
      prepareGoverned env service candidate tenantId approval draw

/-- The writes of an approval: the promotion and the mark on the candidate. -/
def finishApproval (tenantId : String) (draw : Draw) (input : PromotionInput) :
    StoreM CuratedMemory := do
  let memory ← promote env input false service.withLinks draw.now
  let _ ← CandidateRepository.updateStatus input.candidate.id .promoted tenantId
  pure memory

variable {env} {service}

theorem bind_of_throw {Value Other : Type} (error : RegistrarError)
    (rest : Value → StoreM Other) :
    ((throw error : StoreM Value) >>= rest) = throw error :=
  rfl

theorem decide_eq (candidate : MemoryCandidate) (tenantId : String)
    (policy : Option GovernancePolicy) (pipelineResult : PipelineResult)
    (minimum : Option Sensitivity) (approval : Approval) (draw : Draw) :
    decide env service candidate tenantId policy pipelineResult minimum approval
        draw =
      (prepareDecided env service candidate policy pipelineResult minimum
        approval draw >>= finishApproval env service tenantId draw) := by
  unfold decide prepareDecided
  by_cases rejected : pipelineResult.outcome = .rejected
  · rw [if_pos rejected, if_pos rejected, bind_of_throw]
  · rw [if_neg rejected, if_neg rejected]
    cases evaluateHoldTriggers env candidate pipelineResult policy with
    | some decision =>
        dsimp only
        rw [bind_assoc]
        rfl
    | none =>
        dsimp only
        split_ifs
        · rw [bind_of_throw]
        · rfl

theorem governApproval_eq (candidate : MemoryCandidate) (tenantId : String)
    (approval : Approval) (draw : Draw) :
    governApproval env service candidate tenantId approval draw =
      (prepareGoverned env service candidate tenantId approval draw >>=
        finishApproval env service tenantId draw) := by
  unfold governApproval prepareGoverned
  rw [bind_assoc]
  apply bind_congr
  intro refused
  cases refused with
  | some error => rfl
  | none => simp only [bind_assoc, decide_eq]

theorem promoteCandidate_eq (candidateId tenantId : String)
    (approval : Approval) (draw : Draw) :
    promoteCandidate env service candidateId tenantId approval draw =
      (prepareApproval env service candidateId tenantId approval draw >>=
        finishApproval env service tenantId draw) := by
  unfold promoteCandidate prepareApproval
  rw [bind_assoc]
  apply bind_congr
  intro candidate
  cases gateError env service candidate with
  | some error => rfl
  | none => simp only [bind_assoc, governApproval_eq]

end PromotionService

end Registrar
