import Registrar.Api.ApprovalSteps
import Registrar.Curator.Decisions
import Registrar.Curator.ReviewedRejection
import Registrar.Library.Stages

/-!
# Decisions on candidates in stages

Approvals, rejections and sweeps of the inbox decide on the same candidates from
several connections.  A rejection is one transaction; a promotion is judged,
committed and marked in three steps.
-/

namespace Registrar

open Program Stages Transition

/-- The candidates with this status; rows that the schema refuses are
skipped. -/
def CandidateRepository.findByStatus (table : CandidateTable)
    (status : CandidateStatus) (tenantId : String) : List MemoryCandidate :=
  (table.rows.filter fun row =>
    row.candidate.status = status && row.candidate.tenantId = tenantId).filterMap
      fun row => row.candidate.parse.toOption

inductive DecisionRequest where
  | approve (service : PromotionService) (candidateId tenantId : String)
      (approval : PromotionService.Approval) (draw : Draw)
  | reject (candidateId tenantId : String) (actor : Author) (reason : String)
      (draw : Draw)
  | rejectReviewed (input : ReviewedRejectionInput) (draw : Draw)
  | sweep (config : CuratorConfig) (draw : Nat → Draw)

/-- A sweep of the inbox before its next candidate. -/
structure Sweep where
  config : CuratorConfig
  remaining : List (MemoryCandidate × Draw)
  meters : CuratorMeters
  hashes : List String

inductive DecisionStage where
  /-- Nothing was read yet. -/
  | start (request : DecisionRequest)
  /-- An approval has judged its candidate. -/
  | commit (service : PromotionService) (tenantId : String)
      (input : PromotionInput) (draw : Draw)
  /-- An approval has committed the promotion. -/
  | mark (tenantId candidateId : String)
  /-- A sweep is between two candidates. -/
  | judge (sweep : Sweep)
  /-- A sweep has decided to promote; the rest follows. -/
  | promote (input : PromotionInput) (draw : Draw) (rest : Sweep)

variable (env : Environment)

def sweepOfInbox (config : CuratorConfig) (draw : Nat → Draw) (store : Store) :
    Sweep where
  config := config
  remaining :=
    (CandidateRepository.findByStatus store.candidates .inbox
      config.tenantId).zipIdx.map fun entry => (entry.1, draw entry.2)
  meters := .fresh
  hashes :=
    MemoryRepository.getContentHashesByTenant store.curatedMemories
      config.tenantId

/-- The whole operation, with nothing in between. -/
def DecisionRequest.alone (store : Store) : DecisionRequest → Store
  | .approve service candidateId tenantId approval draw =>
      finalState
        (service.promoteCandidate env candidateId tenantId approval draw) store
  | .reject candidateId tenantId actor reason draw =>
      finalState
        (PromotionService.rejectCandidate env candidateId tenantId actor reason
          draw) store
  | .rejectReviewed input draw =>
      finalState (rejectReviewedCandidate env input draw) store
  | .sweep config draw =>
      finalState
        (Curator.processBatch env config .fresh
          (sweepOfInbox config draw store).remaining) store

/-- The promotion that a sweep decided on. -/
def sweptPromotion (sweep : Sweep) (store : Store) (candidate : MemoryCandidate)
    (pipelineResult : PipelineResult) (flags : Option (List String))
    (minimum : Option Sensitivity) : PromotionInput :=
  curatorPromotion env candidate pipelineResult none flags minimum
    (chooseSupersessions sweep.config sweep.meters
      (planFor env store candidate sweep.config.supersessionThreshold
        sweep.config.maxSupersedesPerPromotion)).1

/-- The sweep after a candidate that was curated without a promotion. -/
def Sweep.after (sweep : Sweep) (candidate : MemoryCandidate)
    (rest : List (MemoryCandidate × Draw))
    (curated : CurationResult × CuratorMeters) : Sweep :=
  { sweep with
    remaining := rest
    meters := curated.2
    hashes := Curator.hashesAfter env sweep.hashes candidate curated.1.outcome }

/-- The sweep after a promotion. -/
def Sweep.afterPromotion (sweep : Sweep) (input : PromotionInput)
    (rest : List (MemoryCandidate × Draw)) : Sweep :=
  { sweep with
    remaining := rest
    meters := sweep.meters.afterPromotion sweep.config input.supersessions
    hashes :=
      Curator.hashesAfter env sweep.hashes input.candidate .promoted }

/-- One candidate of a sweep: the decision, and its writes unless it is to
promote. -/
def judgeNext (sweep : Sweep) (store : Store) : Store × Option DecisionStage :=
  match sweep.remaining with
  | [] => (store, none)
  | (candidate, draw) :: rest =>
      match resolveCandidateMinimumSensitivity env candidate store.auditEvents
      with
      | .error _ => (store, none)
      | .ok minimum =>
          match curationDecision env sweep.config store candidate
              (some sweep.hashes) none minimum with
          | .promote pipelineResult flags =>
              let input := sweptPromotion env sweep store candidate
                pipelineResult flags minimum
              (store, some (.promote input draw
                (sweep.afterPromotion env input rest)))
          | decision =>
              match carryOut env sweep.config sweep.meters candidate none minimum
                  draw decision store with
              | .ok curated next =>
                  (next, some (.judge (sweep.after env candidate rest curated)))
              | .error _ next => (next, none)

def advanceDecision (store : Store) : DecisionStage → Store × Option DecisionStage
  | .start (.approve service candidateId tenantId approval draw) =>
      match service.prepareApproval env candidateId tenantId approval draw store
      with
      | .ok input next => (next, some (.commit service tenantId input draw))
      | .error _ next => (next, none)
  | .start (.reject candidateId tenantId actor reason draw) =>
      (finalState
        (PromotionService.rejectCandidate env candidateId tenantId actor reason
          draw) store, none)
  | .start (.rejectReviewed input draw) =>
      (finalState (rejectReviewedCandidate env input draw) store, none)
  | .start (.sweep config draw) =>
      (store, some (.judge (sweepOfInbox config draw store)))
  | .commit service tenantId input draw =>
      match promote env input false service.withLinks draw.now store with
      | .ok _ next => (next, some (.mark tenantId input.candidate.id))
      | .error _ next => (next, none)
  | .mark tenantId candidateId =>
      (finalState
        (CandidateRepository.updateStatus candidateId .promoted tenantId) store,
        none)
  | .judge sweep => judgeNext env sweep store
  | .promote input draw rest =>
      match promote env input rest.config.dryRun rest.config.withLinks draw.now
          store with
      | .ok _ next => (next, some (.judge rest))
      | .error _ next => (next, none)

def decisionSystem : System Store DecisionRequest DecisionStage where
  start request _ := some (.start request)
  advance stage store := advanceDecision env store stage

variable {env}

theorem approve_completes (service : PromotionService)
    (candidateId tenantId : String) (approval : PromotionService.Approval)
    (draw : Draw) (store : Store) :
    (decisionSystem env).Completes
      (.start (.approve service candidateId tenantId approval draw)) store
      (finalState
        (service.promoteCandidate env candidateId tenantId approval draw)
        store) := by
  rw [PromotionService.promoteCandidate_eq]
  cases prepared : service.prepareApproval env candidateId tenantId approval draw
      store with
  | error error next =>
      rw [finalState_bind_of_error prepared]
      apply System.Completes.done
      simp only [decisionSystem, advanceDecision, prepared]
  | ok input next =>
      rw [finalState_bind_of_ok prepared]
      apply System.Completes.next
      · simp only [decisionSystem, advanceDecision, prepared]
        rfl
      · unfold PromotionService.finishApproval
        cases promoted : promote env input false service.withLinks draw.now next
          with
        | error error final =>
            rw [finalState_bind_of_error promoted]
            apply System.Completes.done
            simp only [decisionSystem, advanceDecision, promoted]
        | ok memory final =>
            rw [finalState_bind_of_ok promoted]
            apply System.Completes.next
            · simp only [decisionSystem, advanceDecision, promoted]
              rfl
            · exact .done rfl

/-- The result of a candidate that a sweep promoted. -/
def sweptResult (env : Environment) (sweep : Sweep) (store : Store)
    (candidate : MemoryCandidate) (pipelineResult : PipelineResult)
    (memory : CuratedMemory) : CurationResult :=
  let chosen := chooseSupersessions sweep.config sweep.meters
    (planFor env store candidate sweep.config.supersessionThreshold
      sweep.config.maxSupersedesPerPromotion)
  let supersededIds := chosen.1.map SupersessionMatch.supersededMemoryId
  { candidateId := candidate.id
    outcome := .promoted
    memoryId := some memory.id
    supersedes := supersededIds.head?
    supersededIds := supersededIds
    supersessionReport := chosen.2
    pipelineResult := some pipelineResult
    hold := none
    reason := promotedReason supersededIds chosen.2 }

section Sweep

variable {sweep : Sweep} {candidate : MemoryCandidate} {draw : Draw}
variable {rest : List (MemoryCandidate × Draw)} {store : Store}
variable {minimum : Option Sensitivity}

theorem carryOut_promote (sweep : Sweep) (candidate : MemoryCandidate)
    (pipelineResult : PipelineResult) (flags : Option (List String))
    (minimum : Option Sensitivity) (draw : Draw) (store : Store) :
    carryOut env sweep.config sweep.meters candidate none minimum draw
        (.promote pipelineResult flags) store =
      match promote env
          (sweptPromotion env sweep store candidate pipelineResult flags
            minimum)
          sweep.config.dryRun sweep.config.withLinks draw.now store with
      | .ok memory next =>
          .ok
            (sweptResult env sweep store candidate pipelineResult memory,
              sweep.meters.afterPromotion sweep.config
                (sweptPromotion env sweep store candidate pipelineResult flags
                  minimum).supersessions) next
      | .error error next => .error error next := by
  unfold carryOut Curator.promoteCandidate
  dsimp only
  rw [bind_apply_of_ok (query_apply _ _)]
  split
  · rename_i memory next promoted
    exact bind_apply_of_ok promoted
  · rename_i error next refused
    exact bind_apply_of_error refused

/-- A decision other than a promotion is carried out at once. -/
theorem judgeNext_of_notPromoted
    (isNext : sweep.remaining = (candidate, draw) :: rest)
    (resolved : resolveCandidateMinimumSensitivity env candidate
      store.auditEvents = .ok minimum)
    (notPromoted : ∀ pipelineResult flags,
      curationDecision env sweep.config store candidate (some sweep.hashes) none
        minimum ≠ .promote pipelineResult flags) :
    judgeNext env sweep store =
      match carryOut env sweep.config sweep.meters candidate none minimum draw
          (curationDecision env sweep.config store candidate
            (some sweep.hashes) none minimum) store with
      | .ok curated next =>
          (next, some (.judge (sweep.after env candidate rest curated)))
      | .error _ next => (next, none) := by
  unfold judgeNext
  rw [isNext]
  dsimp only
  rw [resolved]
  dsimp only
  split
  · rename_i pipelineResult flags decided
    exact absurd decided (notPromoted pipelineResult flags)
  · rfl

theorem judgeNext_of_promoted {pipelineResult : PipelineResult}
    {flags : Option (List String)}
    (isNext : sweep.remaining = (candidate, draw) :: rest)
    (resolved : resolveCandidateMinimumSensitivity env candidate
      store.auditEvents = .ok minimum)
    (decided : curationDecision env sweep.config store candidate
      (some sweep.hashes) none minimum = .promote pipelineResult flags) :
    judgeNext env sweep store =
      (store, some (.promote
        (sweptPromotion env sweep store candidate pipelineResult flags minimum)
        draw
        (sweep.afterPromotion env
          (sweptPromotion env sweep store candidate pipelineResult flags
            minimum) rest))) := by
  unfold judgeNext
  rw [isNext]
  dsimp only
  rw [resolved]
  dsimp only
  rw [decided]

/-- The stages of one candidate of a sweep. -/
theorem judge_completes {final : Store}
    (isNext : sweep.remaining = (candidate, draw) :: rest)
    (others : ∀ curated next,
      Curator.processSingle env sweep.config sweep.meters candidate
          (some sweep.hashes) none draw store = .ok curated next →
        (decisionSystem env).Completes
          (.judge (sweep.after env candidate rest curated)) next final)
    (ends : ∀ error next,
      Curator.processSingle env sweep.config sweep.meters candidate
          (some sweep.hashes) none draw store = .error error next →
        next = final) :
    (decisionSystem env).Completes (.judge sweep) store final := by
  rw [processSingle_apply] at others ends
  cases resolved : resolveCandidateMinimumSensitivity env candidate
      store.auditEvents with
  | error error =>
      rw [resolved] at ends
      obtain rfl := ends error store rfl
      apply System.Completes.done
      simp only [decisionSystem, advanceDecision, judgeNext, isNext, resolved]
  | ok minimum =>
      rw [resolved] at others ends
      dsimp only at others ends
      by_cases promotes : ∃ pipelineResult flags,
          curationDecision env sweep.config store candidate
            (some sweep.hashes) none minimum = .promote pipelineResult flags
      · obtain ⟨pipelineResult, flags, decided⟩ := promotes
        rw [decided, carryOut_promote] at others ends
        apply System.Completes.next (judgeNext_of_promoted isNext resolved decided)
        cases promoted : promote env
            (sweptPromotion env sweep store candidate pipelineResult flags
              minimum)
            sweep.config.dryRun sweep.config.withLinks draw.now store with
        | error error next =>
            rw [promoted] at ends
            obtain rfl := ends error next rfl
            apply System.Completes.done
            simp only [decisionSystem, advanceDecision, Sweep.afterPromotion,
              promoted]
        | ok memory next =>
            rw [promoted] at others
            refine System.Completes.next ?_ (others _ next rfl)
            simp only [decisionSystem, advanceDecision, Sweep.afterPromotion,
              promoted]
            rfl
      · push Not at promotes
        have judged := judgeNext_of_notPromoted isNext resolved promotes
        cases carried : carryOut env sweep.config sweep.meters candidate none
            minimum draw
            (curationDecision env sweep.config store candidate
              (some sweep.hashes) none minimum) store with
        | error error next =>
            obtain rfl := ends error next carried
            rw [carried] at judged
            exact .done judged
        | ok curated next =>
            rw [carried] at judged
            exact .next judged (others curated next carried)

end Sweep

/-- The loop of a batch, candidate by candidate. -/
theorem sweep_completes {remaining : List (MemoryCandidate × Draw)}
    {sweep : Sweep} (isRemaining : sweep.remaining = remaining)
    (results : List CurationResult) (store : Store) :
    (decisionSystem env).Completes (.judge sweep) store
      (finalState
        (Curator.processCandidates env sweep.config remaining sweep.meters
          sweep.hashes results) store) := by
  induction remaining generalizing sweep results store with
  | nil =>
      apply System.Completes.done
      simp only [decisionSystem, advanceDecision, judgeNext, isRemaining]
      rfl
  | cons entry rest induction =>
      obtain ⟨candidate, draw⟩ := entry
      unfold Curator.processCandidates
      apply judge_completes isRemaining
      · intro curated next ended
        rw [finalState_bind_of_ok ended]
        exact induction rfl (results ++ [curated.1]) next
      · intro error next ended
        rw [finalState_bind_of_error ended]

theorem decision_completes (request : DecisionRequest) (store : Store) :
    (decisionSystem env).Completes (.start request) store
      (request.alone env store) := by
  cases request with
  | approve service candidateId tenantId approval draw =>
      exact approve_completes service candidateId tenantId approval draw store
  | reject candidateId tenantId actor reason draw => exact .done rfl
  | rejectReviewed input draw => exact .done rfl
  | sweep config draw =>
      apply System.Completes.next rfl
      simp only [DecisionRequest.alone, Curator.processBatch]
      rw [finalState_bind_of_ok (query_apply _ _), finalState_bind_pure]
      exact sweep_completes rfl [] store

end Registrar
