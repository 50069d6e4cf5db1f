import Registrar.Curator.CurationKeeps
import Registrar.Curator.SpoolArrivals
import Registrar.Daemon.Stranding

/-!
# Judgement by the own tenant

The curator of a daemon looks up policy, duplicates and redactions under the
daemon's tenant, and a promotion stores the memory under the candidate's.  The
two agree unless a spool brings a candidate of another tenant that no rule of
the daemon's policy stops.
-/

namespace Registrar

open Program

/-- A memory that a batch stored, with its candidate and the store at that
moment. -/
structure BatchPromotion where
  store : Store
  candidate : MemoryCandidate
  memory : CuratedMemory

/-- The memories that one table has and the earlier one lacks. -/
def promotedSince (before after : MemoryTable) : List CuratedMemory :=
  after.rows.filter fun memory => (before.find? memory.id).isNone

/-- What curating one candidate adds to the memories. -/
def singlePromotions (store final : Store) (candidate : MemoryCandidate) :
    List BatchPromotion :=
  (promotedSince store.curatedMemories final.curatedMemories).map
    fun memory =>
      { store := store
        candidate := candidate
        memory := memory }

variable (env : Environment)

/-- The promotions of the loop of a batch; an error ends it. -/
def batchPromotions (config : CuratorConfig) :
    List (MemoryCandidate × Draw) → CuratorMeters → List String → Store →
      List BatchPromotion
  | [], _, _, _ => []
  | (candidate, draw) :: rest, meters, hashes, store =>
      match Curator.processSingle env config meters candidate (some hashes) none
          draw store with
      | .ok (result, meters) next =>
          singlePromotions store next candidate ++
            batchPromotions config rest meters
              (Curator.hashesAfter env hashes candidate result.outcome) next
      | .error _ next => singlePromotions store next candidate

/-- The promotions of a cycle's curation. -/
def cyclePromotions (config : DaemonConfig) (input : CycleInput)
    (store : Store) : List BatchPromotion :=
  match ingestStep env config input (resolveScopedRemoteUrl config input) store
  with
  | .ok (_, candidates) stored =>
      batchPromotions env (config.curator input) (withDraws input candidates)
        .fresh
        (MemoryRepository.getContentHashesByTenant stored.curatedMemories
          config.tenantId) stored
  | .error _ _ => []

/-- What the memory's own tenant makes of the candidate: its enabled policy, or
an approval if it has none. -/
def BatchPromotion.ownVerdict (promotion : BatchPromotion) :
    Except RegistrarError PipelineOutcome := do
  let minimum ← resolveCandidateMinimumSensitivity env promotion.candidate
    promotion.store.auditEvents
  let tenantId := promotion.memory.tenantId.value
  return (evaluatePolicy env (enabledPolicy promotion.store tenantId)
    promotion.store tenantId promotion.candidate none minimum).outcome

/-- The tenant of the memory approved of it, and the content was new to the
tenant and not removed from it by a redaction. -/
structure JudgedByOwnTenant (promotion : BatchPromotion) : Prop where
  approved : promotion.ownVerdict env = .ok .approved
  novel : ∀ other ∈ promotion.store.curatedMemories.rows,
    other.tenantId = promotion.memory.tenantId →
      other.contentHash ≠
        computeContentHash env promotion.memory.content.value
  unredacted : ∀ record ∈ promotion.store.auditEvents.rows,
    ¬ AuditRepository.IsRedactionOf
      (computeContentHash env promotion.memory.content.value)
      promotion.memory.tenantId.value record

/-- The policy has an enabled rule that stops candidates of other tenants. -/
def MatchesTenants (policy : Option GovernancePolicy) : Prop :=
  policy.any (fun policy =>
    policy.rules.any fun rule => rule.enabled && rule.type = .tenantMatch) =
      true

instance (policy : Option GovernancePolicy) :
    Decidable (MatchesTenants policy) :=
  inferInstanceAs (Decidable (_ = true))

/-- A candidate of the curator's tenant, or one that the rules compare with
it. -/
def StaysWithTenant (config : DaemonConfig) (store : Store)
    (candidate : MemoryCandidate) : Prop :=
  candidate.tenantId = config.tenantId ∨
    MatchesTenants (enabledPolicy store config.tenantId)

instance (config : DaemonConfig) (store : Store)
    (candidate : MemoryCandidate) :
    Decidable (StaysWithTenant config store candidate) :=
  inferInstanceAs (Decidable (_ ∨ _))

variable {env} {config : CuratorConfig} {store : Store}
variable {candidate : MemoryCandidate} {hashes : List String}

theorem duplicateReason_eq_none
    (unreported : duplicateReason env config store candidate (some hashes) =
      none) :
    (∀ other ∈ store.curatedMemories.rows,
      other.tenantId.value = config.tenantId →
        other.contentHash ≠ computeContentHash env candidate.content) ∧
      computeContentHash env candidate.content ∉ hashes := by
  unfold duplicateReason checkDuplicate at unreported
  cases found : MemoryRepository.findByContentHashAndTenant
      store.curatedMemories (computeContentHash env candidate.content)
      config.tenantId with
  | some existing =>
      simp only [found] at unreported
      cases unreported
  | none =>
      simp only [found] at unreported
      constructor
      · intro other member tenant same
        unfold MemoryRepository.findByContentHashAndTenant at found
        have differs := List.find?_eq_none.mp found other member
        simp [tenant, same] at differs
      · intro known
        cases redaction : AuditRepository.findRedactionByOldContentHash
            store.auditEvents (computeContentHash env candidate.content)
            config.tenantId with
        | some receipt =>
            rw [redaction] at unreported
            cases unreported
        | none =>
            rw [redaction] at unreported
            simp [known] at unreported

theorem settledDecision_promote {policy : Option GovernancePolicy}
    {pipelineResult result : PipelineResult} {flags : Option (List String)}
    (promoted : settledDecision env candidate policy pipelineResult none =
      .promote result flags) :
    pipelineResult.outcome = .approved := by
  have unresolved : flagsResolvedBy none pipelineResult = none := by
    simp [flagsResolvedBy]
  unfold settledDecision at promoted
  cases outcome : pipelineResult.outcome with
  | approved => rfl
  | rejected => simp [outcome] at promoted
  | flagged =>
      simp only [outcome, unresolved, Option.isSome_none, Bool.false_eq_true,
        if_false, and_self, if_true, reduceCtorEq] at promoted
      split at promoted <;> cases promoted

theorem curationDecision_promote {minimum : Option Sensitivity}
    {pipelineResult : PipelineResult} {flags : Option (List String)}
    (promoted : curationDecision env config store candidate (some hashes) none
      minimum = .promote pipelineResult flags) :
    duplicateReason env config store candidate (some hashes) = none ∧
      (evaluatePolicy env (enabledPolicy store config.tenantId) store
        config.tenantId candidate (some hashes) minimum).outcome =
          .approved := by
  unfold curationDecision at promoted
  cases reported : duplicateReason env config store candidate (some hashes) with
  | some reason =>
      rw [reported] at promoted
      cases promoted
  | none =>
      rw [reported] at promoted
      dsimp only at promoted
      split at promoted
      · cases promoted
      · split_ifs at promoted
        exact ⟨rfl, settledDecision_promote promoted⟩

/-- Of hashes that lack the content, the policy's approval depends on
nothing. -/
theorem evaluatePolicy_unknown {policy : Option GovernancePolicy}
    {tenantId : String} {minimum : Option Sensitivity}
    (unknown : computeContentHash env candidate.content ∉ hashes)
    (unstored : computeContentHash env candidate.content ∉
      MemoryRepository.getContentHashesByTenant store.curatedMemories tenantId)
    (approved : (evaluatePolicy env policy store tenantId candidate
      (some hashes) minimum).outcome = .approved) :
    (evaluatePolicy env policy store tenantId candidate none
      minimum).outcome = .approved := by
  cases policy with
  | none => rfl
  | some policy =>
      rw [← approved]
      refine congrArg Prod.fst (PolicyPipeline.decision_congr env ?_)
      intro rule
      exact createRule_outcome_congr env (iff_of_false unstored unknown)
        rule.type rule ⟨minimum, none, some tenantId, _⟩

theorem ownTenant_of_approved {minimum : Option Sensitivity}
    (stays : candidate.tenantId = config.tenantId ∨
      MatchesTenants (enabledPolicy store config.tenantId))
    (approved : (evaluatePolicy env (enabledPolicy store config.tenantId)
      store config.tenantId candidate (some hashes) minimum).outcome =
        .approved) :
    candidate.tenantId = config.tenantId := by
  rcases stays with own | compares
  · exact own
  · obtain ⟨policy, enabled, hasRule⟩ := (Option.any_eq_true _ _).mp compares
    obtain ⟨rule, member, isMatch⟩ := List.any_eq_true.mp hasRule
    obtain ⟨ruleEnabled, type⟩ := (Bool.and_eq_true _ _).mp isMatch
    rw [enabled] at approved
    have passes := (PolicyPipeline.approved_iff env).mp approved rule member
      ruleEnabled
    rw [of_decide_eq_true type] at passes
    simp only [createRule, evaluateTenantMatch] at passes
    by_contra foreign
    simp [foreign, PolicyRule.result] at passes

theorem promotedSince_self (table : MemoryTable) :
    promotedSince table table = [] := by
  apply List.filter_eq_nil_iff.mpr
  intro memory member absent
  have unfound : table.find? memory.id = none := by simpa using absent
  exact Table.find?_eq_none_iff.mp unfound memory member rfl

/-- Every memory was there earlier or has the tenant and the text of the
candidate. -/
def AddsOnly (candidate : MemoryCandidate) (before : MemoryTable)
    (store : Store) : Prop :=
  ∀ memory ∈ store.curatedMemories.rows,
    (before.find? memory.id).isSome = true ∨
      memory.tenantId.value = candidate.tenantId ∧
        memory.content.value = candidate.content

theorem promote_addsOnly {input : PromotionInput} {now : String}
    {before : MemoryTable} (parsed : input.candidate.parse = .ok input.candidate)
    (dryRun withLinks : Bool) :
    Keeps (AddsOnly input.candidate before)
      (promote env input dryRun withLinks now) := by
  apply promote_keeps
  intro memory minimum built
  constructor
  case appended => exact fun _ _ _ _ holds _ => holds
  case linked => exact fun _ _ holds => holds
  case retired =>
    intro sup _ store old link now' holds found row member
    rcases Table.mem_replace_iff.mp member with ⟨isRow, -⟩ | ⟨stored, -⟩
    · have member := (Table.find?_eq_some_iff.mp found).1
      rw [isRow]
      exact holds old member
    · exact holds row stored
  case inserted =>
    intro store next holds inserted row member
    rw [Table.rows_of_insert? inserted] at member
    rcases List.mem_append.mp member with earlier | new
    · exact holds row earlier
    · have trimmed := MemoryCandidate.parse_eq_ok parsed
      obtain ⟨-, -, content, tenant, -⟩ := PromotionInput.memory_eq_ok built
      rw [List.mem_singleton.mp new, content, tenant]
      exact .inr ⟨(congrArg MemoryCandidate.tenantId trimmed).symm,
        (congrArg MemoryCandidate.content trimmed).symm⟩

theorem promoteCandidate_addsOnly {meters : CuratorMeters} {draw : Draw}
    {before : MemoryTable} (parsed : candidate.parse = .ok candidate)
    (pipelineResult : PipelineResult) (flags : Option (List String))
    (minimum : Option Sensitivity) :
    Keeps (AddsOnly candidate before)
      (Curator.promoteCandidate env config meters candidate pipelineResult none
        flags minimum draw) := by
  unfold Curator.promoteCandidate
  apply Keeps.bind (Keeps.query _)
  intro plan
  dsimp only
  apply Keeps.bind
  · have keeps := @promote_addsOnly env
      (curatorPromotion env candidate pipelineResult none flags minimum
        (chooseSupersessions config meters plan).1) draw.now before parsed
      config.dryRun config.withLinks
    exact keeps
  · intro memory
    exact Keeps.pure _

/-- A batch stores memories only by promoting, under the candidate's tenant. -/
theorem singlePromotions_promoted {meters : CuratorMeters} {draw : Draw}
    (parsed : candidate.parse = .ok candidate) {promotion : BatchPromotion}
    (member : promotion ∈ singlePromotions store
      (finalState (Curator.processSingle env config meters candidate
        (some hashes) none draw) store) candidate) :
    promotion.store = store ∧ promotion.candidate = candidate ∧
      promotion.memory.tenantId.value = candidate.tenantId ∧
      promotion.memory.content.value = candidate.content ∧
      ∃ minimum pipelineResult flags,
        resolveCandidateMinimumSensitivity env candidate store.auditEvents =
            .ok minimum ∧
          curationDecision env config store candidate (some hashes) none
              minimum = .promote pipelineResult flags := by
  obtain ⟨memory, isNew, rfl⟩ := List.mem_map.mp member
  dsimp only
  have unchanged {final : Store}
      (ended : finalState (Curator.processSingle env config meters candidate
        (some hashes) none draw) store = final)
      (same : final.curatedMemories = store.curatedMemories) : False := by
    rw [ended, same, promotedSince_self] at isNew
    cases isNew
  cases resolved : resolveCandidateMinimumSensitivity env candidate
      store.auditEvents with
  | error error =>
      exfalso
      apply @unchanged store _ rfl
      rw [processSingle_eq]
      unfold finalState
      rw [bind_apply_of_error (resolveMinimum_eq_error resolved)]
  | ok minimum =>
      have resolution := resolveMinimum_eq_ok_iff.mpr ⟨resolved, rfl⟩
      have ends : finalState (Curator.processSingle env config meters candidate
          (some hashes) none draw) store =
            finalState (carryOut env config meters candidate none minimum draw
              (curationDecision env config store candidate (some hashes) none
                minimum)) store := by
        rw [processSingle_eq]
        unfold finalState
        rw [bind_apply_of_ok resolution, bind_apply_of_ok (query_apply _ _)]
      by_cases promotes : ∃ pipelineResult flags,
          curationDecision env config store candidate (some hashes) none
            minimum = .promote pipelineResult flags
      · obtain ⟨pipelineResult, flags, decided⟩ := promotes
        rw [ends, decided] at isNew
        obtain ⟨inside, absent⟩ := List.mem_filter.mp isNew
        have adds : AddsOnly candidate store.curatedMemories
            (finalState (carryOut env config meters candidate none minimum draw
              (.promote pipelineResult flags)) store) := by
          apply Keeps.finalState (promoteCandidate_addsOnly parsed _ _ _)
          intro earlier member
          refine .inl (Option.isSome_iff_exists.mpr ⟨earlier, ?_⟩)
          exact Table.find?_eq_some_iff.mpr ⟨member, rfl⟩
        rcases adds memory inside with earlier | ⟨tenant, content⟩
        · rw [Option.isSome_iff_ne_none] at earlier
          exact absurd (by simpa using absent) earlier
        · exact ⟨rfl, rfl, tenant, content, minimum, pipelineResult, flags,
            rfl, decided⟩
      · exfalso
        apply unchanged ends
        apply Keeps.finalState
          (carryOut_keeps_of_notPromoted (sameMemories_survive _) ?_) rfl
        intro pipelineResult flags decided
        exact promotes ⟨pipelineResult, flags, decided⟩

/-- No redaction has removed the text of the candidate from its tenant. -/
def Unredacted (env : Environment) (candidate : MemoryCandidate)
    (store : Store) : Prop :=
  ∀ record ∈ store.auditEvents.rows,
    ¬ AuditRepository.IsRedactionOf (computeContentHash env candidate.content)
      candidate.tenantId record

theorem singlePromotions_judged {meters : CuratorMeters} {draw : Draw}
    (parsed : candidate.parse = .ok candidate)
    (stays : candidate.tenantId = config.tenantId ∨
      MatchesTenants (enabledPolicy store config.tenantId))
    (unredacted : Unredacted env candidate store)
    {promotion : BatchPromotion}
    (member : promotion ∈ singlePromotions store
      (finalState (Curator.processSingle env config meters candidate
        (some hashes) none draw) store) candidate) :
    JudgedByOwnTenant env promotion := by
  obtain ⟨isStore, isCandidate, tenant, content, minimum, pipelineResult, flags,
    resolved, decided⟩ := singlePromotions_promoted parsed member
  obtain ⟨unreported, approved⟩ := curationDecision_promote decided
  obtain ⟨novel, unknown⟩ := duplicateReason_eq_none unreported
  have own : candidate.tenantId = config.tenantId :=
    ownTenant_of_approved stays approved
  have unstored : computeContentHash env candidate.content ∉
      MemoryRepository.getContentHashesByTenant store.curatedMemories
        config.tenantId := by
    intro known
    obtain ⟨other, selected, same⟩ := List.mem_map.mp known
    obtain ⟨inside, ofTenant⟩ := List.mem_filter.mp selected
    exact novel other inside (of_decide_eq_true ofTenant) same
  constructor
  case approved =>
    unfold BatchPromotion.ownVerdict
    rw [isStore, isCandidate, tenant, own, resolved]
    exact congrArg Except.ok (evaluatePolicy_unknown unknown unstored approved)
  case novel =>
    rw [isStore, content]
    intro other inside sameTenant
    apply novel other inside
    rw [sameTenant, tenant, own]
  case unredacted =>
    rw [isStore, content, tenant]
    exact unredacted

/-- A curation touches no policy and redacts nothing. -/
theorem unredacted_survives (policies : PolicyTable)
    (candidates : List MemoryCandidate) :
    SurvivesCuration env fun store =>
      store.governancePolicies = policies ∧
        ∀ candidate ∈ candidates, Unredacted env candidate store := by
  have appended {kind : AuditEvent → Prop}
      (kinds : ∀ event, kind event → event.action ≠ .redacted) :
      SurvivesAppend env kind fun store =>
        store.governancePolicies = policies ∧
          ∀ candidate ∈ candidates, Unredacted env candidate store := by
    intro store event next ofKind holds inserted
    refine ⟨holds.1, ?_⟩
    intro candidate member record inside
    rw [Table.rows_of_insert? inserted] at inside
    rcases List.mem_append.mp inside with earlier | new
    · exact holds.2 candidate member record earlier
    · rw [List.mem_singleton.mp new]
      intro isRedaction
      exact kinds event ofKind isRedaction.1
  constructor
  case toSurvivesHolding =>
    exact
      { appended := appended fun _ => IsCurationReceipt.not_redacted
        held := fun _ _ => ⟨fun _ holds => holds⟩ }
  case promoted =>
    intro input now memory minimum built
    constructor
    case appended =>
      apply appended
      rintro event (promoted | superseded)
      · simp [promoted]
      · simp [superseded]
    case linked => exact fun _ _ holds => holds
    case retired => exact fun _ _ _ _ _ _ holds _ => holds
    case inserted => exact fun _ _ holds _ => holds

/-- Where every candidate stays with its tenant, every promotion of the batch
is one of the memory's own tenant. -/
theorem batchPromotions_judged {policies : PolicyTable}
    {batch : List (MemoryCandidate × Draw)} {meters : CuratorMeters}
    (parsed : ∀ entry ∈ batch, entry.1.parse = .ok entry.1)
    (stays : ∀ entry ∈ batch, entry.1.tenantId = config.tenantId ∨
      MatchesTenants
        ((PolicyRepository.findByTenant policies config.tenantId).find?
          (·.enabled)))
    (samePolicies : store.governancePolicies = policies)
    (unredacted : ∀ candidate ∈ batch.map Prod.fst,
      Unredacted env candidate store) :
    ∀ promotion ∈ batchPromotions env config batch meters hashes store,
      JudgedByOwnTenant env promotion := by
  induction batch generalizing meters hashes store with
  | nil =>
      intro promotion member
      cases member
  | cons entry rest induction =>
      obtain ⟨candidate, draw⟩ := entry
      intro promotion member
      have judged : promotion ∈ singlePromotions store
          (finalState (Curator.processSingle env config meters candidate
            (some hashes) none draw) store) candidate →
            JudgedByOwnTenant env promotion := by
        apply singlePromotions_judged (parsed _ List.mem_cons_self)
        · rw [enabledPolicy, samePolicies]
          exact stays _ List.mem_cons_self
        · exact unredacted _ List.mem_cons_self
      have kept := (processSingle_keeps
        (unredacted_survives policies (rest.map Prod.fst)) config meters
        candidate (some hashes) none draw).run store
        ⟨samePolicies, fun later member =>
          unredacted later (List.mem_cons_of_mem _ member)⟩
      unfold batchPromotions at member
      unfold finalState at judged
      cases ended : Curator.processSingle env config meters candidate
          (some hashes) none draw store with
      | ok curated next =>
          simp only [ended] at member judged kept
          rcases List.mem_append.mp member with now | later
          · exact judged now
          · exact induction
              (fun entry inside => parsed entry (List.mem_cons_of_mem _ inside))
              (fun entry inside => stays entry (List.mem_cons_of_mem _ inside))
              kept.1 kept.2 promotion later
      | error error next =>
          simp only [ended] at member judged
          exact judged member

theorem cycleArrivals_admitted {config : DaemonConfig} {input : CycleInput} :
    ∀ arrival ∈ (cycleArrivals env config input store).arrived,
      admitsCandidate env store arrival = true := by
  unfold cycleArrivals
  cases input.spool with
  | error error =>
      intro arrival member
      cases member
  | ok files => exact spoolArrivals_admitted _ files

theorem mem_arrived_of_handedOn {config : DaemonConfig} {input : CycleInput}
    {arrivals : Arrivals}
    (handed : candidate ∈ handedOn env config input arrivals) :
    candidate ∈ arrivals.arrived := by
  unfold handedOn at handed
  split_ifs at handed
  · cases handed
  · rw [scopeCandidates_eq_filter] at handed
    exact List.mem_of_mem_take (List.mem_filter.mp handed).1

theorem unredacted_of_admits (admits : admitsCandidate env store candidate) :
    Unredacted env candidate store := by
  intro record inside isRedaction
  have kept := ((Bool.and_eq_true _ _).mp admits).2
  have removed : CandidateRepository.isRedactedContent env store.auditEvents
      candidate.content candidate.tenantId = true :=
    List.any_eq_true.mpr ⟨record, inside, decide_eq_true isRedaction⟩
  rw [removed] at kept
  cases kept

theorem withDraws_fst {input : CycleInput}
    {candidates : List MemoryCandidate} {entry : MemoryCandidate × Draw}
    (member : entry ∈ withDraws input candidates) : entry.1 ∈ candidates := by
  obtain ⟨indexed, inside, rfl⟩ := List.mem_map.mp member
  exact List.fst_mem_of_mem_zipIdx inside

/-- If every candidate that a cycle curates is of the daemon's tenant, or the
daemon's policy compares tenants, every memory was judged by its own tenant. -/
theorem cyclePromotions_judged {config : DaemonConfig} {input : CycleInput}
    (stays : ∀ candidate ∈
      handedOn env config input (cycleArrivals env config input store),
        StaysWithTenant config store candidate) :
    ∀ promotion ∈ cyclePromotions env config input store,
      JudgedByOwnTenant env promotion := by
  obtain ⟨ingested, stored, ingestion, foreseen, handed⟩ :=
    @ingestStep_foreseen env config input store
  unfold cyclePromotions
  simp only [ingestion]
  rw [handed]
  apply batchPromotions_judged
  · intro entry member
    apply foreseen.parsed
    exact mem_arrived_of_handedOn (withDraws_fst member)
  · intro entry member
    exact stays entry.1 (withDraws_fst member)
  · exact foreseen.governancePolicies
  · intro candidate member record inside
    obtain ⟨entry, listed, rfl⟩ := List.mem_map.mp member
    rw [foreseen.auditEvents] at inside
    apply unredacted_of_admits _ record inside
    apply cycleArrivals_admitted
    exact mem_arrived_of_handedOn (withDraws_fst listed)

def rivalsRule : PolicyRule where
  id := "trusted-only"
  type := .sourceTrust
  action := .reject
  enabled := true
  priority := 0
  parameters := [("minimumTrust", .string "high")]

def policyOf (tenantId : NonEmptyString) (rule : PolicyRule) :
    GovernancePolicy where
  id := tenantId.value
  name := tenantId
  tenantId := tenantId
  rules := [rule]
  enabled := true
  version := 1
  hasRule := List.cons_ne_nil _ _

/-- The rivals take nothing below high trust. -/
def rivalsStore : Store :=
  { Store.empty with
    governancePolicies :=
      { rows := [policyOf ⟨"rivals", by decide +kernel, by simp⟩ rivalsRule]
        coexist := List.pairwise_singleton _ _ } }

def rivalCandidate : MemoryCandidate :=
  { agentProposal "Deploys" "Deploy on Friday." with
    source := .manual
    tenantId := "rivals" }

def rivalInput : CycleInput :=
  quietInput (plainFile [rivalCandidate] (by decide +kernel))

/-- The team's daemon stores a memory of the rivals that their policy
rejects. -/
theorem rivalCandidate_notJudged :
    ¬ ∀ promotion ∈
        cyclePromotions plainEnvironment (teamDaemon 1) rivalInput rivalsStore,
      JudgedByOwnTenant plainEnvironment promotion := by
  intro judged
  have rejected : ((cyclePromotions plainEnvironment (teamDaemon 1) rivalInput
      rivalsStore).any fun promotion =>
        promotion.ownVerdict plainEnvironment = .ok .rejected) = true := by
    decide +kernel
  obtain ⟨promotion, member, verdict⟩ := List.any_eq_true.mp rejected
  have approved := (judged promotion member).approved
  rw [of_decide_eq_true verdict] at approved
  cases approved

/-- A policy of the team that compares tenants. -/
def teamStore : Store :=
  { Store.empty with
    governancePolicies :=
      { rows := [policyOf ⟨"team", trim_team, team_nonempty⟩
          { rivalsRule with type := .tenantMatch }]
        coexist := List.pairwise_singleton _ _ } }

/-- A spool with a candidate of each tenant. -/
def sharedInput : CycleInput :=
  quietInput
    (plainFile
      [rivalCandidate,
        { rivalCandidate with
          id := "Reviews"
          tenantId := "team" }]
      (by decide +kernel))

theorem cyclePromotions_judged_tenantMatch :
    (cyclePromotions plainEnvironment (teamDaemon 2) sharedInput
        teamStore).length = 1 ∧
      ∀ promotion ∈
          cyclePromotions plainEnvironment (teamDaemon 2) sharedInput teamStore,
        JudgedByOwnTenant plainEnvironment promotion := by
  constructor
  · decide +kernel
  · apply cyclePromotions_judged
    decide +kernel

end Registrar
