import Registrar.Curator.CurationKeeps
import Registrar.Policy.ContradictionPhase
import Registrar.Store.LifecycleReplay

/-!
# Dry runs

A dry run judges every candidate of a batch against the store it starts from,
while a live run judges it against what it has written so far.  The hashes of
the batch stand for the memories it promotes, but nothing stands for the holds
it places or for the memories that its promotions add and retire.
-/

namespace Registrar

open Program

variable (env : Environment)

/-- Whether the hold queue takes the candidate. -/
def holdRoom (config : CuratorConfig) (meters : CuratorMeters) (store : Store)
    (candidate : MemoryCandidate) (now : String) :
    Except RegistrarError Bool :=
  match meters.holdCapReached with
  | some _ => .ok false
  | none => do
      let _ ← holdExpiry env config.holdLimits now
      return (holdObstacle env store candidate config.holdLimits now).all
        (·.obstacle.isNone)

def holdOutcome (room : Bool) : CurationOutcome :=
  if room then .held else .flagged

/-- The outcome that a decision leads to, with this room in the queue. -/
def CurationDecision.outcome (room : Except RegistrarError Bool) :
    CurationDecision → Except RegistrarError CurationOutcome
  | .duplicate _ => .ok .duplicate
  | .reject _ => .ok .rejected
  | .flag _ | .review => .ok .flagged
  | .hold _ _ => holdOutcome <$> room
  | .promote _ _ => .ok .promoted

variable {env}
variable {config : CuratorConfig} {meters next : CuratorMeters}
variable {candidate : MemoryCandidate} {draw : Draw} {store final : Store}

/-- A hold is placed as the queue has room for it. -/
theorem placeHold_room {decision : HoldDecision} {placed : PlaceHoldResult}
    (isOpen : meters.holdCapReached = none)
    (isPlaced : placeHold env candidate decision config.holdLimits none
      config.dryRun draw.now store = .ok placed final) :
    holdRoom env config meters store candidate draw.now =
      .ok placed.obstacle.isNone := by
  unfold holdRoom
  rw [isOpen]
  unfold placeHold at isPlaced
  cases expiry : holdExpiry env config.holdLimits draw.now with
  | error error =>
      rw [expiry] at isPlaced
      cases isPlaced
  | ok expiresAt =>
      rw [expiry] at isPlaced
      dsimp only at isPlaced
      refine congrArg Except.ok ?_
      split_ifs at isPlaced with dry
      · cases isPlaced
        cases obstacle : holdObstacle env store candidate config.holdLimits
            draw.now <;>
          simp [obstacle, PlaceHoldResult.obstacle]
      · have attempted := transaction_eq_ok_iff.mp isPlaced
        unfold attemptHold at attempted
        rw [bind_apply_of_ok (query_apply _ _)] at attempted
        cases obstacle : holdObstacle env store candidate config.holdLimits
            draw.now with
        | some result =>
            rw [obstacle] at attempted
            cases attempted
            rfl
        | none =>
            rw [obstacle] at attempted
            obtain ⟨_, _, -, parsed⟩ := bind_eq_ok_iff.mp attempted
            obtain ⟨_, _, -, updated⟩ := bind_eq_ok_iff.mp parsed
            obtain ⟨_, _, -, inserted⟩ := bind_eq_ok_iff.mp updated
            obtain ⟨_, _, -, returned⟩ := bind_eq_ok_iff.mp inserted
            cases returned
            rfl

theorem holdCandidate_outcome {decision : HoldDecision}
    {pipelineResult : PipelineResult} {suppressReject : Bool}
    {result : CurationResult}
    (completed : holdCandidate env config meters candidate decision
      pipelineResult suppressReject draw store = .ok (result, next) final) :
    holdOutcome <$> holdRoom env config meters store candidate draw.now =
      .ok result.outcome := by
  have reported (placed : PlaceHoldResult) :
      (holdResult candidate decision pipelineResult placed).outcome =
        holdOutcome placed.obstacle.isNone := by
    unfold holdResult holdOutcome
    cases placed.obstacle <;> rfl
  unfold holdCandidate at completed
  dsimp only at completed
  cases full : meters.holdCapReached with
  | some cap =>
      rw [full] at completed
      obtain ⟨placed, _, isPlaced, afterPlacing⟩ :=
        bind_eq_ok_iff.mp completed
      obtain ⟨_, _, -, returned⟩ := bind_eq_ok_iff.mp afterPlacing
      cases isPlaced
      cases returned
      simp only [holdRoom, full]
      rfl
  | none =>
      rw [full] at completed
      obtain ⟨placed, _, isPlaced, afterPlacing⟩ :=
        bind_eq_ok_iff.mp completed
      obtain ⟨_, _, -, returned⟩ := bind_eq_ok_iff.mp afterPlacing
      cases returned
      rw [placeHold_room full isPlaced, reported]
      rfl

/-- A decision that is carried out has the outcome it leads to. -/
theorem carryOut_outcome {minimum : Option Sensitivity}
    {decision : CurationDecision} {result : CurationResult}
    (completed : carryOut env config meters candidate none minimum draw decision
      store = .ok (result, next) final) :
    decision.outcome (holdRoom env config meters store candidate draw.now) =
      .ok result.outcome := by
  cases decision with
  | duplicate reason =>
      cases completed
      rfl
  | reject pipelineResult =>
      obtain ⟨_, _, -, returned⟩ := bind_eq_ok_iff.mp completed
      cases returned
      rfl
  | flag pipelineResult =>
      obtain ⟨_, _, -, returned⟩ := bind_eq_ok_iff.mp completed
      cases returned
      rfl
  | review =>
      cases completed
      rfl
  | hold decision pipelineResult =>
      exact holdCandidate_outcome completed
  | promote pipelineResult flags =>
      obtain ⟨_, _, -, afterPlan⟩ := bind_eq_ok_iff.mp completed
      obtain ⟨_, _, -, returned⟩ := bind_eq_ok_iff.mp afterPlan
      cases returned
      rfl

section Dry

variable (dry : config.dryRun = true)

include dry

theorem holdCandidate_dry {invariant : Store → Prop} (decision : HoldDecision)
    (pipelineResult : PipelineResult) :
    Keeps invariant
      (holdCandidate env config meters candidate decision pipelineResult true
        draw) := by
  have settles (placed : PlaceHoldResult) :
      Keeps invariant
        (do
          when (placed.obstacle.isSome = true ∧
              pipelineResult.outcome = .flagged) do
            let _ ← reject env candidate pipelineResult true draw
          pure (holdResult candidate decision pipelineResult placed,
            meters.afterHold placed)) := by
    apply Keeps.bind
    · apply Keeps.when
      intro _
      exact Keeps.pure _
    · intro _
      exact Keeps.pure _
  unfold holdCandidate
  dsimp only
  split
  · apply Keeps.bind (Keeps.pure _)
    exact settles
  · refine Keeps.bind ?_ settles
    unfold placeHold
    cases holdExpiry env config.holdLimits draw.now with
    | error error => exact Keeps.throw _
    | ok expiresAt =>
        dsimp only
        rw [if_pos dry]
        exact Keeps.query _

theorem carryOut_dry {invariant : Store → Prop} (release : Option HoldRelease)
    (minimum : Option Sensitivity) (decision : CurationDecision) :
    Keeps invariant
      (carryOut env config meters candidate release minimum draw
        decision) := by
  have suppresses : (config.dryRun || config.suppressRejectionReceipts ||
      release.isSome) = true := by
    simp [dry]
  cases decision with
  | duplicate reason => exact Keeps.pure _
  | reject pipelineResult =>
      simp only [carryOut, suppresses]
      exact Keeps.pure _
  | flag pipelineResult =>
      simp only [carryOut, suppresses]
      exact Keeps.pure _
  | review => exact Keeps.pure _
  | hold decision pipelineResult =>
      simp only [carryOut, suppresses]
      exact holdCandidate_dry dry _ _
  | promote pipelineResult flags =>
      simp only [carryOut]
      unfold Curator.promoteCandidate
      apply Keeps.bind (Keeps.query _)
      intro plan
      dsimp only
      rw [dry]
      apply Keeps.bind
      · apply promote_triple fun _ _ start => start
        intro isWet
        cases isWet
      · intro memory
        exact Keeps.pure _

theorem processSingle_dry {invariant : Store → Prop}
    (existingHashes : Option (List String)) (release : Option HoldRelease) :
    Keeps invariant
      (Curator.processSingle env config meters candidate existingHashes release
        draw) := by
  rw [processSingle_eq]
  apply Keeps.bind (resolveMinimum_keeps _)
  intro minimum
  apply Keeps.bind (Keeps.query _)
  intro decision
  exact carryOut_dry dry _ _ _

theorem processCandidates_dry {invariant : Store → Prop}
    (candidates : List (MemoryCandidate × Draw)) (meters : CuratorMeters)
    (hashes : List String) (results : List CurationResult) :
    Keeps invariant
      (Curator.processCandidates env config candidates meters hashes
        results) := by
  induction candidates generalizing meters hashes results with
  | nil => exact Keeps.pure _
  | cons entry rest induction =>
      obtain ⟨candidate, draw⟩ := entry
      unfold Curator.processCandidates
      apply Keeps.bind (processSingle_dry dry _ _)
      intro curated
      exact induction _ _ _

theorem processBatch_dry (candidates : List (MemoryCandidate × Draw)) :
    finalState (Curator.processBatch env config meters candidates) store =
      store := by
  have keeps : Keeps (· = store)
      (Curator.processBatch env config meters candidates) := by
    unfold Curator.processBatch
    apply Keeps.bind (Keeps.query _)
    intro hashes
    apply Keeps.bind (processCandidates_dry dry _ _ _ _)
    intro curated
    exact Keeps.pure _
  exact Keeps.finalState keeps rfl

theorem holdCandidate_dry_returns (decision : HoldDecision)
    (pipelineResult : PipelineResult) {outcome : CurationOutcome}
    (leads : holdOutcome <$> holdRoom env config meters store candidate
      draw.now = .ok outcome) :
    ∃ result next final,
      holdCandidate env config meters candidate decision pipelineResult true
        draw store = .ok (result, next) final := by
  have settles (placed : PlaceHoldResult) :
      ∃ result next final,
        (do
          when (placed.obstacle.isSome = true ∧
              pipelineResult.outcome = .flagged) do
            let _ ← reject env candidate pipelineResult true draw
          pure (holdResult candidate decision pipelineResult placed,
            meters.afterHold placed) :
          StoreM (CurationResult × CuratorMeters)) store =
          .ok (result, next) final := by
    by_cases flagged : placed.obstacle.isSome = true ∧
        pipelineResult.outcome = .flagged
    · simp only [when, if_pos flagged]
      exact ⟨_, _, _, rfl⟩
    · simp only [when, if_neg flagged]
      exact ⟨_, _, _, rfl⟩
  unfold holdCandidate
  dsimp only
  cases full : meters.holdCapReached with
  | some cap => exact settles _
  | none =>
      unfold holdRoom at leads
      rw [full] at leads
      cases expiry : holdExpiry env config.holdLimits draw.now with
      | error error =>
          rw [expiry] at leads
          cases leads
      | ok expiresAt =>
          unfold placeHold
          rw [expiry]
          dsimp only
          rw [if_pos dry]
          exact settles _

/-- A decision to promote needs the memory of the candidate. -/
theorem carryOut_dry_returns {minimum : Option Sensitivity}
    {decision : CurationDecision} {outcome : CurationOutcome}
    (leads : decision.outcome
      (holdRoom env config meters store candidate draw.now) = .ok outcome)
    (builds : outcome = .promoted →
      resolveCandidateMinimumSensitivity env candidate store.auditEvents =
          .ok minimum ∧
        ∀ pipelineResult flags supersessions, ∃ memory,
          (curatorPromotion env candidate pipelineResult none flags minimum
            supersessions).memory env draw.now minimum = .ok memory) :
    ∃ result next,
      carryOut env config meters candidate none minimum draw decision store =
          .ok (result, next) store ∧ result.outcome = outcome := by
  suffices returns : ∃ result next final,
      carryOut env config meters candidate none minimum draw decision store =
        .ok (result, next) final by
    obtain ⟨result, next, final, completed⟩ := returns
    have ends := Keeps.finalState
      (@carryOut_dry env config meters candidate draw dry (· = store) none
        minimum decision) rfl
    unfold finalState at ends
    rw [completed] at ends
    dsimp only at ends
    rw [ends] at completed
    have reached := carryOut_outcome completed
    rw [leads] at reached
    exact ⟨result, next, completed, (Except.ok.inj reached).symm⟩
  have suppresses : (config.dryRun || config.suppressRejectionReceipts ||
      (none : Option HoldRelease).isSome) = true := by
    simp [dry]
  cases decision with
  | duplicate reason => exact ⟨_, _, _, rfl⟩
  | reject pipelineResult =>
      simp only [carryOut, suppresses]
      exact ⟨_, _, _, rfl⟩
  | flag pipelineResult =>
      simp only [carryOut, suppresses]
      exact ⟨_, _, _, rfl⟩
  | review => exact ⟨_, _, _, rfl⟩
  | hold decision pipelineResult =>
      simp only [carryOut, suppresses]
      exact holdCandidate_dry_returns dry decision pipelineResult leads
  | promote pipelineResult flags =>
      obtain ⟨resolved, memories⟩ := builds (Except.ok.inj leads).symm
      obtain ⟨memory, built⟩ := memories pipelineResult flags
        (chooseSupersessions config meters
          (planFor env store candidate config.supersessionThreshold
            config.maxSupersedesPerPromotion)).1
      have promoted := promote_apply config.dryRun config.withLinks resolved
        built
      rw [dry] at promoted
      simp only [carryOut, Curator.promoteCandidate]
      rw [bind_apply_of_ok (query_apply _ _), dry,
        bind_apply_of_ok promoted]
      exact ⟨_, _, _, rfl⟩

end Dry

/-- A batch touches no policy, sets no floor and redacts nothing. -/
structure SameGround (env : Environment) (start store : Store) : Prop where
  policies : store.governancePolicies = start.governancePolicies
  floors : ∀ candidate,
    resolveCandidateMinimumSensitivity env candidate store.auditEvents =
      resolveCandidateMinimumSensitivity env candidate start.auditEvents
  redactions : ∀ contentHash tenantId,
    AuditRepository.findRedactionByOldContentHash store.auditEvents contentHash
        tenantId =
      AuditRepository.findRedactionByOldContentHash start.auditEvents
        contentHash tenantId

theorem findRedaction_append {log appended : AuditLog} {event : AuditEvent}
    (notRedacted : event.action ≠ .redacted)
    (inserted : log.insert? (appendedRecord env log event) = some appended)
    (contentHash tenantId : String) :
    AuditRepository.findRedactionByOldContentHash appended contentHash
        tenantId =
      AuditRepository.findRedactionByOldContentHash log contentHash
        tenantId := by
  unfold AuditRepository.findRedactionByOldContentHash
  rw [chronological_insert inserted, List.find?_append]
  simp [appendedRecord, AuditRepository.IsRedactionOf, notRedacted]

theorem sameGround_survives (start : Store) :
    SurvivesCuration env (SameGround env start) := by
  have appended {kind : AuditEvent → Prop}
      (notFloor : ∀ event, kind event → event.action ≠ .governed)
      (notRedacted : ∀ event, kind event → event.action ≠ .redacted) :
      SurvivesAppend env kind (SameGround env start) := by
    intro store event next ofKind same inserted
    constructor
    case policies => exact same.policies
    case floors =>
      intro candidate
      exact (resolveMinimum_append (notFloor event ofKind) inserted).trans
        (same.floors candidate)
    case redactions =>
      intro contentHash tenantId
      exact (findRedaction_append (notRedacted event ofKind) inserted _ _).trans
        (same.redactions contentHash tenantId)
  constructor
  case toSurvivesHolding =>
    constructor
    case appended =>
      apply appended
      · rintro event (held | ⟨deleted, -⟩)
        · simp [held]
        · simp [deleted]
      · exact fun _ => IsCurationReceipt.not_redacted
    case held =>
      intro id tenantId
      exact ⟨fun _ same => ⟨same.policies, same.floors, same.redactions⟩⟩
  case promoted =>
    intro input now memory minimum built
    constructor
    case appended =>
      apply appended
      · rintro event (promoted | superseded)
        · simp [promoted]
        · simp [superseded]
      · rintro event (promoted | superseded)
        · simp [promoted]
        · simp [superseded]
    case linked =>
      exact fun _ _ same => ⟨same.policies, same.floors, same.redactions⟩
    case retired =>
      exact fun _ _ _ _ _ _ same _ =>
        ⟨same.policies, same.floors, same.redactions⟩
    case inserted =>
      exact fun _ _ same _ => ⟨same.policies, same.floors, same.redactions⟩

/-- The batch knows the hashes of the tenant's memories. -/
def KnowsHashes (tenantId : String) (hashes : List String) (store : Store) :
    Prop :=
  ∀ memory ∈ store.curatedMemories.rows, memory.tenantId.value = tenantId →
    memory.contentHash ∈ hashes

theorem promote_knowsHashes {input : PromotionInput} {now tenantId : String}
    {hashes : List String} (known : input.contentHash ∈ hashes)
    (dryRun withLinks : Bool) :
    Keeps (KnowsHashes tenantId hashes)
      (promote env input dryRun withLinks now) := by
  apply promote_keeps
  intro memory minimum built
  constructor
  case appended => exact fun _ _ _ _ knows _ => knows
  case linked => exact fun _ _ knows => knows
  case retired =>
    intro sup _ store old link now' knows found row member
    rcases Table.mem_replace_iff.mp member with ⟨isRow, -⟩ | ⟨stored, -⟩
    · rw [isRow]
      exact knows old (Table.find?_eq_some_iff.mp found).1
    · exact knows row stored
  case inserted =>
    intro store next knows inserted row member
    rw [Table.rows_of_insert? inserted] at member
    rcases List.mem_append.mp member with earlier | new
    · exact knows row earlier
    · obtain ⟨-, -, -, -, hash, -⟩ := PromotionInput.memory_eq_ok built
      rw [List.mem_singleton.mp new, hash]
      exact fun _ => known

/-- A batch learns the hash of what it promotes. -/
theorem carryOut_knowsHashes {minimum : Option Sensitivity}
    {decision : CurationDecision} {result : CurationResult}
    {tenantId : String} {hashes : List String}
    (knows : KnowsHashes tenantId hashes store)
    (completed : carryOut env config meters candidate none minimum draw decision
      store = .ok (result, next) final) :
    KnowsHashes tenantId
      (Curator.hashesAfter env hashes candidate result.outcome) final := by
  have outcome := carryOut_outcome completed
  have ends {invariant : Store → Prop}
      (keeps : Keeps invariant
        (carryOut env config meters candidate none minimum draw decision))
      (start : invariant store) : invariant final := by
    have ended := Keeps.finalState keeps start
    unfold finalState at ended
    rwa [completed] at ended
  by_cases promotes : ∃ pipelineResult flags,
      decision = .promote pipelineResult flags
  · obtain ⟨pipelineResult, flags, rfl⟩ := promotes
    rw [← Except.ok.inj outcome]
    unfold Curator.hashesAfter
    rw [if_pos rfl]
    apply @ends (KnowsHashes tenantId
      (computeContentHash env candidate.content :: hashes))
    · unfold carryOut Curator.promoteCandidate
      apply Keeps.bind (Keeps.query _)
      intro plan
      dsimp only
      apply Keeps.bind
      · have known : (curatorPromotion env candidate pipelineResult none flags
            minimum (chooseSupersessions config meters plan).1).contentHash ∈
              computeContentHash env candidate.content :: hashes :=
          List.mem_cons_self
        exact promote_knowsHashes known _ _
      · intro memory
        exact Keeps.pure _
    · intro memory member own
      exact List.mem_cons_of_mem _ (knows memory member own)
  · push Not at promotes
    have same := ends
      (carryOut_keeps_of_notPromoted (sameMemories_survive _) promotes) rfl
    intro memory member own
    rw [same] at member
    have known := knows memory member own
    unfold Curator.hashesAfter
    split_ifs
    · exact List.mem_cons_of_mem _ known
    · exact known

/-- With the tenant's hashes known, the stored memories add nothing to the
duplicates of a batch. -/
theorem duplicateReason_isSome_iff {hashes : List String}
    (knows : KnowsHashes config.tenantId hashes store) :
    (duplicateReason env config store candidate (some hashes)).isSome = true ↔
      (AuditRepository.findRedactionByOldContentHash store.auditEvents
          (computeContentHash env candidate.content)
          config.tenantId).isSome = true ∨
        computeContentHash env candidate.content ∈ hashes := by
  unfold duplicateReason checkDuplicate
  cases found : MemoryRepository.findByContentHashAndTenant
      store.curatedMemories (computeContentHash env candidate.content)
      config.tenantId with
  | some existing =>
      have isCopy := List.find?_some found
      simp only [Bool.and_eq_true, decide_eq_true_eq] at isCopy
      have member := knows existing (List.mem_of_find?_eq_some found) isCopy.2
      rw [isCopy.1] at member
      simp [found, member]
  | none =>
      simp only [found]
      cases redacted : AuditRepository.findRedactionByOldContentHash
          store.auditEvents (computeContentHash env candidate.content)
          config.tenantId with
      | some redaction => exact iff_of_true rfl (.inl rfl)
      | none =>
          by_cases known :
              computeContentHash env candidate.content ∈ hashes
          · simp [known]
          · simp [known]

end Registrar
