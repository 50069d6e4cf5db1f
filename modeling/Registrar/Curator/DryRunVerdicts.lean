import Registrar.Curator.DryRuns
import Registrar.Library.Transition

/-!
# Verdicts of a dry run

Which verdicts of a live batch its dry run foresees: those that depend neither
on the memories the batch has added or retired nor on the holds it has placed.
-/

namespace Registrar

open Program Transition

variable (env : Environment)

/-- What the rules look up in the store. -/
def policyContext (store : Store) (tenantId : String) (hashes : List String)
    (minimum : Option Sensitivity) : EvaluationContext where
  minimumSensitivity := minimum
  existingHashes := some hashes
  tenantId := some tenantId
  getActiveMemoriesInCategory := some fun category =>
    (MemoryRepository.findByTenantAndLifecycleAndCategory store.curatedMemories
      tenantId .active category).map fun memory =>
        { id := memory.id
          content := memory.content.value }

/-- The verdict of the rules other than the contradiction rules; without a
policy every candidate is approved. -/
def standardVerdict (policy : Option GovernancePolicy) (store : Store)
    (tenantId : String) (candidate : MemoryCandidate) (hashes : List String)
    (minimum : Option Sensitivity) : PipelineResult :=
  match policy with
  | none =>
      { candidateId := candidate.id
        outcome := .approved
        evaluations := []
        rejectedBy := none
        flaggedBy := none }
  | some policy =>
      PolicyPipeline.standardPhase env policy candidate
        (policyContext store tenantId hashes minimum)

/-- A contradiction rule suspects the candidate of contradicting an active
memory of the store. -/
def Contradicts (policy : Option GovernancePolicy) (store : Store)
    (tenantId : String) (candidate : MemoryCandidate) (hashes : List String)
    (minimum : Option Sensitivity) : Prop :=
  policy.any (fun policy =>
    policy.Suspects env candidate
      (policyContext store tenantId hashes minimum)) = true

instance (policy : Option GovernancePolicy) (store : Store)
    (tenantId : String) (candidate : MemoryCandidate) (hashes : List String)
    (minimum : Option Sensitivity) :
    Decidable
      (Contradicts env policy store tenantId candidate hashes minimum) :=
  inferInstanceAs (Decidable (_ = true))

variable {env}
variable {policy : Option GovernancePolicy} {store start : Store}
variable {tenantId : String} {candidate : MemoryCandidate}
variable {hashes : List String} {minimum : Option Sensitivity}

theorem evaluatePolicy_outcome :
    (evaluatePolicy env policy store tenantId candidate (some hashes)
        minimum).outcome =
      if (standardVerdict env policy store tenantId candidate hashes
            minimum).outcome = .approved ∧
          Contradicts env policy store tenantId candidate hashes minimum then
        .flagged
      else
        (standardVerdict env policy store tenantId candidate hashes
          minimum).outcome := by
  cases policy with
  | none => simp [evaluatePolicy, standardVerdict, Contradicts]
  | some policy =>
      refine (@PolicyPipeline.outcome_eq env policy candidate
        (policyContext store tenantId hashes minimum)).trans ?_
      exact if_congr (and_congr_right fun _ => by simp [Contradicts]) rfl rfl

theorem evaluatePolicy_triggers :
    firedHoldTriggers candidate
        (evaluatePolicy env policy store tenantId candidate (some hashes)
          minimum) =
      firedHoldTriggers candidate
        (standardVerdict env policy store tenantId candidate hashes
          minimum) := by
  cases policy with
  | none => rfl
  | some policy =>
      have covered := @PolicyPipeline.coveredEvaluations_eq env policy candidate
        (policyContext store tenantId hashes minimum)
      unfold firedHoldTriggers
      exact congrArg
        (fun evaluations : List RuleResult =>
          (evaluations.filterMap fun evaluation =>
            triggerByRuleType evaluation.ruleType).eraseDups ++ _) covered

theorem standardVerdict_store :
    standardVerdict env policy store tenantId candidate hashes minimum =
      standardVerdict env policy start tenantId candidate hashes minimum := by
  cases policy with
  | none => rfl
  | some policy =>
      exact @PolicyPipeline.standardPhase_activeMemories env policy candidate
        (policyContext start tenantId hashes minimum) _

theorem settledDecision_outcome {result : PipelineResult}
    {room : Except RegistrarError Bool} :
    (settledDecision env candidate policy result none).outcome room =
      if result.outcome = .rejected then .ok .rejected
      else if firedHoldTriggers candidate result ≠ [] then
        holdOutcome <$> room
      else if result.outcome = .flagged then .ok .flagged
      else .ok .promoted := by
  have unresolved : flagsResolvedBy none result = none := by
    simp [flagsResolvedBy]
  unfold settledDecision evaluateHoldTriggers
  by_cases rejected : result.outcome = .rejected
  · simp [rejected, CurationDecision.outcome]
  · by_cases untriggered : firedHoldTriggers candidate result = []
    · by_cases flagged : result.outcome = .flagged
      · simp [untriggered, flagged, unresolved, CurationDecision.outcome]
      · simp [rejected, untriggered, flagged, CurationDecision.outcome]
    · simp [rejected, untriggered, CurationDecision.outcome]

theorem holdOutcome_injective : Function.Injective holdOutcome := by
  intro left right same
  cases left <;> cases right <;> simp_all [holdOutcome]

variable (env)

/-- Neither a duplicate nor stopped before the policy. -/
def ReachesPolicy (config : CuratorConfig) (store : Store)
    (candidate : MemoryCandidate) (hashes : List String) : Prop :=
  duplicateReason env config store candidate (some hashes) = none ∧
    structuralRejection env candidate config.originSecret = none ∧
      requiresRegistrarMcpReview candidate = false

/-- Where the other rules leave the decision to the store, the store of the
live run decides as the store at the start: the hold queues have the same room
for a candidate that needs a review, and an approved one contradicts active
memories in both or in neither. -/
def AgreesWithStart (config : CuratorConfig) (start store : Store)
    (preview meters : CuratorMeters) (candidate : MemoryCandidate)
    (hashes : List String) (minimum : Option Sensitivity) (now : String) :
    Prop :=
  let policy := enabledPolicy start config.tenantId
  let verdict :=
    standardVerdict env policy start config.tenantId candidate hashes minimum
  if firedHoldTriggers candidate verdict ≠ [] then
    verdict.outcome ≠ .rejected →
      holdRoom env config preview start candidate now =
        holdRoom env config meters store candidate now
  else
    verdict.outcome = .approved →
      (Contradicts env policy start config.tenantId candidate hashes minimum ↔
        Contradicts env policy store config.tenantId candidate hashes minimum)

variable {env} {config : CuratorConfig}

theorem enabledPolicy_eq (same : SameGround env start store) :
    enabledPolicy store config.tenantId =
      enabledPolicy start config.tenantId := by
  unfold enabledPolicy
  rw [same.policies]

/-- The settled decision at the start leads to the live outcome exactly where
the live store agrees with the start. -/
theorem settledDecision_agrees {preview meters : CuratorMeters}
    {now : String} {outcome : CurationOutcome}
    (isPolicy : policy = enabledPolicy start config.tenantId)
    (live : (settledDecision env candidate policy
        (evaluatePolicy env policy store config.tenantId candidate
          (some hashes) minimum) none).outcome
      (holdRoom env config meters store candidate now) = .ok outcome) :
    (settledDecision env candidate policy
        (evaluatePolicy env policy start config.tenantId candidate
          (some hashes) minimum) none).outcome
      (holdRoom env config preview start candidate now) = .ok outcome ↔
      AgreesWithStart env config start store preview meters candidate hashes
        minimum now := by
  rw [settledDecision_outcome, evaluatePolicy_outcome,
    evaluatePolicy_triggers] at live ⊢
  rw [@standardVerdict_store env policy store start] at live
  unfold AgreesWithStart
  rw [← isPolicy]
  dsimp only
  generalize standardVerdict env policy start config.tenantId candidate hashes
    minimum = verdict at live ⊢
  by_cases triggered : firedHoldTriggers candidate verdict ≠ []
  · by_cases rejected : verdict.outcome = .rejected
    · simp_all
    · have unrejected (suspects : Prop) [Decidable suspects] :
          (if verdict.outcome = .approved ∧ suspects then
            PipelineOutcome.flagged else verdict.outcome) ≠ .rejected := by
        split_ifs
        · simp
        · exact rejected
      simp only [unrejected, if_false, if_pos triggered] at live ⊢
      cases room : holdRoom env config meters store candidate now with
      | error error =>
          rw [room] at live
          cases live
      | ok isFree =>
          rw [room] at live
          cases live
          cases holdRoom env config preview start candidate now with
          | error error => simp [rejected]
          | ok isFreeAtStart =>
              simp [rejected, holdOutcome_injective.eq_iff]
  · simp only [if_neg triggered] at live ⊢
    by_cases approved : verdict.outcome = .approved
    · by_cases atStart : Contradicts env policy start config.tenantId candidate
          hashes minimum <;>
        by_cases now : Contradicts env policy store config.tenantId candidate
          hashes minimum <;>
        simp_all
      all_goals
        subst live
        simp
    · simp_all

theorem duplicateReason_agrees (same : SameGround env start store)
    (atStart : KnowsHashes config.tenantId hashes start)
    (knows : KnowsHashes config.tenantId hashes store) :
    (duplicateReason env config store candidate (some hashes)).isSome =
      (duplicateReason env config start candidate (some hashes)).isSome := by
  rw [Bool.eq_iff_iff, duplicateReason_isSome_iff knows,
    duplicateReason_isSome_iff atStart, same.redactions]

theorem curationDecision_agrees {preview meters : CuratorMeters}
    {now : String} {outcome : CurationOutcome}
    (same : SameGround env start store)
    (atStart : KnowsHashes config.tenantId hashes start)
    (knows : KnowsHashes config.tenantId hashes store)
    (live : (curationDecision env config store candidate (some hashes) none
        minimum).outcome
      (holdRoom env config meters store candidate now) = .ok outcome) :
    (curationDecision env config start candidate (some hashes) none
        minimum).outcome
      (holdRoom env config preview start candidate now) = .ok outcome ↔
      (ReachesPolicy env config start candidate hashes →
        AgreesWithStart env config start store preview meters candidate hashes
          minimum now) := by
  have duplicates := @duplicateReason_agrees env store start candidate hashes
    config same atStart knows
  unfold curationDecision at live ⊢
  unfold ReachesPolicy
  cases there : duplicateReason env config start candidate (some hashes) with
  | some reason =>
      rw [there] at duplicates
      obtain ⟨other, here⟩ := Option.isSome_iff_exists.mp duplicates
      rw [here] at live
      cases live
      exact iff_of_true rfl fun reaches => by cases reaches.1
  | none =>
      rw [there] at duplicates
      have here := Option.isNone_iff_eq_none.mp
        (by simpa using duplicates :
          (duplicateReason env config store candidate
            (some hashes)).isNone = true)
      rw [here] at live
      dsimp only at live ⊢
      cases structural : structuralRejection env candidate
          config.originSecret with
      | some result =>
          rw [structural] at live
          cases live
          exact iff_of_true rfl fun reaches => by cases reaches.2.1
      | none =>
          rw [structural] at live
          dsimp only at live ⊢
          have unreleased : (none : Option HoldRelease).all
              (·.promotedBy.type ≠ .human) = true := rfl
          by_cases review : requiresRegistrarMcpReview candidate = true
          · rw [if_pos ⟨review, unreleased⟩] at live ⊢
            cases live
            exact iff_of_true rfl fun reaches => by simp [review] at reaches
          · rw [if_neg fun both => review both.1] at live ⊢
            rw [enabledPolicy_eq same] at live
            rw [settledDecision_agrees rfl live]
            simp [review]

/-! ## The two runs side by side -/

def CuratorConfig.withDryRun (config : CuratorConfig) (dryRun : Bool) :
    CuratorConfig :=
  { config with dryRun := dryRun }

/-- Where a live run is, with the meters of the dry run beside it. -/
structure BatchStage where
  store : Store
  meters : CuratorMeters
  hashes : List String
  preview : CuratorMeters

variable (env)

/-- The meters of the dry run after one more candidate. -/
def BatchStage.previewed (config : CuratorConfig) (start : Store)
    (stage : BatchStage) (candidate : MemoryCandidate) (draw : Draw) :
    CuratorMeters :=
  match Curator.processSingle env (config.withDryRun true) stage.preview
      candidate (some stage.hashes) none draw start with
  | .ok (_, preview) _ => preview
  | .error _ _ => stage.preview

/-- Both runs take one more candidate. -/
def batchStep (config : CuratorConfig) (start : Store) (stage : BatchStage)
    (entry : MemoryCandidate × Draw) : BatchStage :=
  match Curator.processSingle env (config.withDryRun false) stage.meters entry.1
      (some stage.hashes) none entry.2 stage.store with
  | .ok (result, meters) store =>
      { store := store
        meters := meters
        hashes := Curator.hashesAfter env stage.hashes entry.1 result.outcome
        preview := stage.previewed env config start entry.1 entry.2 }
  | .error _ store => { stage with store := store }

/-- The verdict on the next candidate can be seen from the start: a candidate
that reaches the policy finds the store of the live run in agreement with the
start. -/
def Foreseeable (config : CuratorConfig) (start : Store) (stage : BatchStage)
    (entry : MemoryCandidate × Draw) : Prop :=
  ∀ minimum,
    resolveCandidateMinimumSensitivity env entry.1 start.auditEvents =
      .ok minimum →
    ReachesPolicy env config start entry.1 stage.hashes →
      AgreesWithStart env config start stage.store stage.preview stage.meters
        entry.1 stage.hashes minimum entry.2.now

/-- Where both runs begin. -/
def BatchStage.first (config : CuratorConfig) (meters : CuratorMeters)
    (start : Store) : BatchStage where
  store := start
  meters := meters
  hashes := MemoryRepository.getContentHashesByTenant start.curatedMemories
    config.tenantId
  preview := meters

variable {env}

/-- What the live run keeps with respect to the start. -/
structure BatchStage.Tracks (env : Environment) (config : CuratorConfig)
    (start : Store) (stage : BatchStage) : Prop where
  same : SameGround env start stage.store
  atStart : KnowsHashes config.tenantId stage.hashes start
  knows : KnowsHashes config.tenantId stage.hashes stage.store

theorem knowsHashes_of_subset {more : List String}
    (knows : KnowsHashes tenantId hashes store) (subset : hashes ⊆ more) :
    KnowsHashes tenantId more store :=
  fun memory member own => subset (knows memory member own)

theorem BatchStage.tracks_first (meters : CuratorMeters) :
    (BatchStage.first config meters start).Tracks env config start := by
  have knows : KnowsHashes config.tenantId
      (MemoryRepository.getContentHashesByTenant start.curatedMemories
        config.tenantId) start := by
    intro memory member own
    apply List.mem_map_of_mem
    exact List.mem_filter.mpr ⟨member, by simpa using own⟩
  exact ⟨⟨rfl, fun _ => rfl, fun _ _ => rfl⟩, knows, knows⟩

/-- Whatever promotes a candidate, its memory needs the same fields. -/
theorem exists_memory {input other : PromotionInput} {now : String}
    {memory : CuratedMemory} (sameCandidate : other.candidate = input.candidate)
    (built : input.memory env now minimum = .ok memory) :
    ∃ memory, other.memory env now minimum = .ok memory := by
  unfold PromotionInput.memory at built ⊢
  rw [sameCandidate]
  cases content : parseNonEmpty "content" input.candidate.content with
  | error issue =>
      rw [content] at built
      cases built
  | ok _ =>
      cases title : parseNonEmpty "title" input.candidate.title with
      | error issue =>
          rw [content, title] at built
          cases built
      | ok _ =>
          cases tenant :
              parseNonEmpty "tenantId" input.candidate.tenantId with
          | error issue =>
              rw [content, title, tenant] at built
              cases built
          | ok _ => exact ⟨_, rfl⟩

section Step

variable {stage : BatchStage} {draw : Draw} {result : CurationResult}
variable {next : CuratorMeters} {final : Store}
variable
  (returned : Curator.processSingle env (config.withDryRun false) stage.meters
    candidate (some stage.hashes) none draw stage.store =
      .ok (result, next) final)

include returned

theorem batchStep_eq :
    batchStep env config start stage (candidate, draw) =
      { store := final
        meters := next
        hashes := Curator.hashesAfter env stage.hashes candidate result.outcome
        preview := stage.previewed env config start candidate draw } := by
  unfold batchStep
  rw [returned]

theorem exists_carryOut :
    ∃ minimum,
      resolveCandidateMinimumSensitivity env candidate
          stage.store.auditEvents = .ok minimum ∧
        carryOut env (config.withDryRun false) stage.meters candidate none
            minimum draw
            (curationDecision env config stage.store candidate
              (some stage.hashes) none minimum) stage.store =
          .ok (result, next) final := by
  rw [processSingle_apply] at returned
  cases resolved : resolveCandidateMinimumSensitivity env candidate
      stage.store.auditEvents with
  | error error =>
      rw [resolved] at returned
      cases returned
  | ok minimum =>
      rw [resolved] at returned
      exact ⟨minimum, rfl, returned⟩

theorem tracks_batchStep (tracks : stage.Tracks env config start) :
    (batchStep env config start stage (candidate, draw)).Tracks env config
      start := by
  rw [batchStep_eq returned]
  obtain ⟨minimum, -, completed⟩ := exists_carryOut returned
  have grows : stage.hashes ⊆
      Curator.hashesAfter env stage.hashes candidate result.outcome := by
    unfold Curator.hashesAfter
    split_ifs
    · exact List.subset_cons_self _ _
    · exact List.Subset.refl _
  constructor
  case same =>
    have ended := Keeps.finalState
      (processSingle_keeps (sameGround_survives start) (config.withDryRun false)
        stage.meters candidate (some stage.hashes) none draw) tracks.same
    unfold finalState at ended
    rwa [returned] at ended
  case atStart => exact knowsHashes_of_subset tracks.atStart grows
  case knows => exact carryOut_knowsHashes tracks.knows completed

/-- A live promotion shows that the memory of its candidate can be built. -/
theorem exists_memory_of_promoted (promoted : result.outcome = .promoted)
    {minimum : Option Sensitivity}
    (resolved : resolveCandidateMinimumSensitivity env candidate
      stage.store.auditEvents = .ok minimum)
    (other : PromotionInput) (sameCandidate : other.candidate = candidate) :
    ∃ memory, other.memory env draw.now minimum = .ok memory := by
  obtain ⟨floor, isFloor, completed⟩ := exists_carryOut returned
  rw [resolved] at isFloor
  cases isFloor
  have outcome := carryOut_outcome completed
  rw [promoted] at outcome
  cases decision : curationDecision env config stage.store candidate
      (some stage.hashes) none minimum with
  | duplicate reason => simp [decision, CurationDecision.outcome] at outcome
  | reject pipelineResult =>
      simp [decision, CurationDecision.outcome] at outcome
  | flag pipelineResult =>
      simp [decision, CurationDecision.outcome] at outcome
  | review => simp [decision, CurationDecision.outcome] at outcome
  | hold held pipelineResult =>
      rw [decision] at outcome
      cases room : holdRoom env (config.withDryRun false) stage.meters
          stage.store candidate draw.now with
      | error error => simp [room, CurationDecision.outcome] at outcome
      | ok isFree =>
          cases isFree <;>
            simp [room, CurationDecision.outcome, holdOutcome] at outcome
  | promote pipelineResult flags =>
      rw [decision] at completed
      obtain ⟨_, _, -, afterPlan⟩ := bind_eq_ok_iff.mp completed
      obtain ⟨memory, _, promotion, -⟩ := bind_eq_ok_iff.mp afterPlan
      obtain ⟨-, built, -⟩ := promote_eq_ok promotion
      exact exists_memory sameCandidate built

/-- The dry run gives a candidate the live outcome exactly where it is
foreseeable. -/
theorem processSingle_previews_iff (tracks : stage.Tracks env config start) :
    (∃ previewed meters,
      Curator.processSingle env (config.withDryRun true) stage.preview candidate
          (some stage.hashes) none draw start =
            .ok (previewed, meters) start ∧
        previewed.outcome = result.outcome) ↔
      Foreseeable env config start stage (candidate, draw) := by
  obtain ⟨minimum, resolved, completed⟩ := exists_carryOut returned
  have atStart := (tracks.same.floors candidate).symm.trans resolved
  have live := carryOut_outcome completed
  have agrees := @curationDecision_agrees env stage.store start candidate
    stage.hashes minimum config stage.preview stage.meters draw.now
    result.outcome tracks.same tracks.atStart tracks.knows live
  have foreseeable :
      Foreseeable env config start stage (candidate, draw) ↔
        (ReachesPolicy env config start candidate stage.hashes →
          AgreesWithStart env config start stage.store stage.preview
            stage.meters candidate stage.hashes minimum draw.now) := by
    constructor
    · intro all reaches
      exact all minimum atStart reaches
    · intro agreement other isOther reaches
      rw [atStart] at isOther
      cases isOther
      exact agreement reaches
  rw [foreseeable, ← agrees, processSingle_apply, atStart]
  constructor
  · rintro ⟨previewed, meters, ended, same⟩
    have reached := carryOut_outcome ended
    rw [← same]
    exact reached
  · intro leads
    obtain ⟨previewed, meters, ended, reached⟩ :=
      @carryOut_dry_returns env (config.withDryRun true) stage.preview candidate
        draw start rfl minimum _ result.outcome leads (by
          intro promoted
          refine ⟨atStart, fun pipelineResult flags supersessions => ?_⟩
          exact exists_memory_of_promoted returned promoted resolved _ rfl)
    exact ⟨previewed, meters, ended, reached⟩

end Step

/-! ## Batches -/

theorem processCandidates_eq_ok {meters next : CuratorMeters}
    {entries : List (MemoryCandidate × Draw)}
    {earlier results : List CurationResult} {final : Store}
    (returned : Curator.processCandidates env config entries meters hashes
      earlier store = .ok (results, next) final) :
    ∃ added, results = earlier ++ added := by
  induction entries generalizing meters hashes earlier store with
  | nil =>
      cases returned
      exact ⟨[], by simp⟩
  | cons entry rest induction =>
      obtain ⟨curated, _, -, afterFirst⟩ := bind_eq_ok_iff.mp returned
      obtain ⟨added, isAll⟩ := induction afterFirst
      exact ⟨curated.1 :: added, by simp [isAll]⟩

theorem processCandidates_previews_iff {stage : BatchStage}
    {entries : List (MemoryCandidate × Draw)}
    {earlier others results : List CurationResult} {next : CuratorMeters}
    {final : Store} (tracks : stage.Tracks env config start)
    (sameEarlier : others.map (·.outcome) = earlier.map (·.outcome))
    (returned : Curator.processCandidates env (config.withDryRun false) entries
      stage.meters stage.hashes earlier stage.store =
        .ok (results, next) final) :
    (∃ previewed meters,
      Curator.processCandidates env (config.withDryRun true) entries
          stage.preview stage.hashes others start =
            .ok (previewed, meters) start ∧
        previewed.map (·.outcome) = results.map (·.outcome)) ↔
      Always (batchStep env config start) (Foreseeable env config start) stage
        entries := by
  induction entries generalizing stage earlier others with
  | nil =>
      cases returned
      exact iff_of_true ⟨_, _, rfl, sameEarlier⟩ trivial
  | cons entry rest induction =>
      obtain ⟨candidate, draw⟩ := entry
      obtain ⟨⟨result, meters⟩, store, first, afterFirst⟩ :=
        bind_eq_ok_iff.mp returned
      have steps := @batchStep_eq env start candidate config stage draw result
        meters store first
      have ahead := tracks_batchStep first tracks
      have single := processSingle_previews_iff first tracks
      rw [steps] at ahead
      have continues {previewed : CurationResult}
          (sameOutcome : previewed.outcome = result.outcome) :=
        @induction _ (earlier ++ [result]) (others ++ [previewed]) ahead
          (by simp [sameEarlier, sameOutcome]) afterFirst
      simp only [Always, steps]
      rw [← single]
      constructor
      · rintro ⟨all, last, ended, sameAll⟩
        obtain ⟨⟨previewed, preview⟩, between, firstDry, restDry⟩ :=
          bind_eq_ok_iff.mp ended
        obtain ⟨added, isAll⟩ := processCandidates_eq_ok restDry
        obtain ⟨addedLive, isResults⟩ := processCandidates_eq_ok afterFirst
        have unchanged : between = start := by
          have ends := Keeps.finalState
            (@processSingle_dry env (config.withDryRun true) stage.preview
              candidate draw rfl (· = start) (some stage.hashes) none) rfl
          unfold finalState at ends
          rwa [firstDry] at ends
        subst unchanged
        have sameOutcome : previewed.outcome = result.outcome := by
          rw [isAll, isResults] at sameAll
          simp only [List.map_append, List.map_cons, sameEarlier,
            List.append_assoc, List.append_cancel_left_eq, List.cons_append,
            List.nil_append, List.cons.injEq] at sameAll
          exact sameAll.1
        have isPreview :
            stage.previewed env config between candidate draw = preview := by
          unfold BatchStage.previewed
          rw [firstDry]
        refine ⟨⟨previewed, preview, firstDry, sameOutcome⟩, ?_⟩
        apply (continues sameOutcome).mp
        refine ⟨all, last, ?_, sameAll⟩
        rw [← sameOutcome, isPreview]
        exact restDry
      · rintro ⟨⟨previewed, preview, firstDry, sameOutcome⟩, later⟩
        have isPreview :
            stage.previewed env config start candidate draw = preview := by
          unfold BatchStage.previewed
          rw [firstDry]
        obtain ⟨all, last, restDry, sameAll⟩ :=
          (continues sameOutcome).mpr later
        refine ⟨all, last, ?_, sameAll⟩
        rw [← sameOutcome, isPreview] at restDry
        exact bind_eq_ok_iff.mpr ⟨_, _, firstDry, restDry⟩

/-- A dry run of a batch writes nothing.  Where the live run returns, the dry
run returns with the same outcomes exactly if each verdict of the live run can
be seen from the start. -/
theorem processBatch_previews_iff (env : Environment) (config : CuratorConfig)
    (meters : CuratorMeters) (candidates : List (MemoryCandidate × Draw))
    (start : Store) :
    finalState (Curator.processBatch env (config.withDryRun true) meters
        candidates) start = start ∧
      ∀ live liveMeters final,
        Curator.processBatch env (config.withDryRun false) meters candidates
            start = .ok (live, liveMeters) final →
          ((∃ preview previewMeters,
            Curator.processBatch env (config.withDryRun true) meters candidates
                start = .ok (preview, previewMeters) start ∧
              preview.results.map (·.outcome) =
                live.results.map (·.outcome)) ↔
            Always (batchStep env config start) (Foreseeable env config start)
              (.first config meters start) candidates) := by
  refine ⟨processBatch_dry rfl candidates, ?_⟩
  intro live liveMeters final returned
  unfold Curator.processBatch at returned ⊢
  rw [bind_apply_of_ok (query_apply _ _)] at returned ⊢
  obtain ⟨⟨results, next⟩, store, looped, tallied⟩ :=
    bind_eq_ok_iff.mp returned
  cases tallied
  rw [← @processCandidates_previews_iff env start config
    (.first config meters start) candidates [] [] results liveMeters final
    (BatchStage.tracks_first meters) rfl looped]
  constructor
  · rintro ⟨preview, previewMeters, ended, same⟩
    obtain ⟨⟨previewed, last⟩, between, loopedDry, talliedDry⟩ :=
      bind_eq_ok_iff.mp ended
    cases talliedDry
    exact ⟨previewed, previewMeters, loopedDry, same⟩
  · rintro ⟨previewed, last, loopedDry, same⟩
    exact ⟨_, _, bind_eq_ok_iff.mpr ⟨_, _, loopedDry, rfl⟩, same⟩

/-- The outcomes of a batch that returns. -/
def batchOutcomes (env : Environment) (config : CuratorConfig)
    (candidates : List (MemoryCandidate × Draw)) (start : Store) :
    Option (List CurationOutcome) :=
  match Curator.processBatch env config .fresh candidates start with
  | .ok (batch, _) _ => some (batch.results.map (·.outcome))
  | .error _ _ => none

theorem batchOutcomes_eq_some_iff {entries : List (MemoryCandidate × Draw)}
    {outcomes : List CurationOutcome} :
    batchOutcomes env config entries start = some outcomes ↔
      ∃ batch meters final,
        Curator.processBatch env config .fresh entries start =
            .ok (batch, meters) final ∧
          batch.results.map (·.outcome) = outcomes := by
  unfold batchOutcomes
  cases Curator.processBatch env config .fresh entries start with
  | ok value final =>
      obtain ⟨batch, meters⟩ := value
      constructor
      · intro same
        exact ⟨batch, meters, final, rfl, Option.some.inj same⟩
      · rintro ⟨_, _, _, ended, same⟩
        cases ended
        exact congrArg some same
  | error error final => simp

/-- A note for the administrators that a member proposes. -/
def memberNote (id content : String) : MemoryCandidate where
  id := id
  status := .inbox
  source := .manual
  content := content
  title := id
  category := .convention
  trustLevel := .medium
  author :=
    { type := .human
      id := ⟨"ana", by decide +kernel, by simp⟩
      name := none }
  tenantId := "team"
  metadata :=
    { filePaths := []
      language := none
      projectContext := none
      sessionId := none
      repoUrl := none
      branch := none
      confidence := none
      sensitivity := none
      tags := []
      subjects := none
      proposedByRole := some .member
      audience := some .admins }
  prePolicyFlags :=
    { potentialSecret := false
      lowConfidence := false
      duplicateSuspect := false }
  capturedAt := "0"
  origin := none

def twoNotes : List MemoryCandidate :=
  [memberNote "Deploys" "Deploy on Friday.",
    memberNote "Reviews" "Review before lunch."]

def notesBatch : List (MemoryCandidate × Draw) :=
  twoNotes.map fun note =>
    (note,
      { freshId := note.id
        now := "1" })

/-- Every instant is the first one. -/
def stillEnvironment : Environment :=
  { plainEnvironment with dateParse := fun _ => some 0 }

def notesInbox : Store :=
  finalState
    (twoNotes.forM fun note =>
      CandidateRepository.insert stillEnvironment note note.content none)
    .empty

def queueCurator (maxActiveHolds : ℚ) : CuratorConfig where
  tenantId := "team"
  dryRun := false
  supersessionThreshold := none
  supersessionMode := .apply
  maxSupersedesPerPromotion := none
  maxSupersedesPerRun := none
  suppressRejectionReceipts := false
  originSecret := none
  holdLimits :=
    { ttlDays := none
      maxActiveHolds := some maxActiveHolds }
  withLinks := false

/-- The hold of the first note fills the queue, so the second is flagged; the
dry run says that it is held. -/
theorem secondNote_misjudged :
    batchOutcomes stillEnvironment ((queueCurator 1).withDryRun false)
        notesBatch notesInbox = some [.held, .flagged] ∧
      batchOutcomes stillEnvironment ((queueCurator 1).withDryRun true)
        notesBatch notesInbox = some [.held, .held] := by
  decide +kernel

theorem processBatch_previews_twoPlaces :
    Always (batchStep stillEnvironment (queueCurator 2) notesInbox)
      (Foreseeable stillEnvironment (queueCurator 2) notesInbox)
      (.first (queueCurator 2) .fresh notesInbox) notesBatch := by
  obtain ⟨live, liveMeters, final, returned, isHeld⟩ :=
    batchOutcomes_eq_some_iff.mp
      (by decide +kernel :
        batchOutcomes stillEnvironment ((queueCurator 2).withDryRun false)
          notesBatch notesInbox = some [.held, .held])
  obtain ⟨preview, previewMeters, other, previewed, wouldHold⟩ :=
    batchOutcomes_eq_some_iff.mp
      (by decide +kernel :
        batchOutcomes stillEnvironment ((queueCurator 2).withDryRun true)
          notesBatch notesInbox = some [.held, .held])
  obtain ⟨unchanged, verdicts⟩ := processBatch_previews_iff stillEnvironment
    (queueCurator 2) .fresh notesBatch notesInbox
  unfold finalState at unchanged
  rw [previewed] at unchanged
  dsimp only at unchanged
  rw [unchanged] at previewed
  exact (verdicts live liveMeters final returned).mp
    ⟨preview, previewMeters, previewed, wouldHold.trans isHeld.symm⟩

end Registrar
