import Registrar.Concurrency.FinalDecisions
import Registrar.Curator.ImportPipeline
import Registrar.Curator.WalkInvariant
import Registrar.Runs.AuditedIntake

/-!
# Governed history and its provenance walk

An import derives the id of a candidate from the relative path of its file and
stores the absolute one, so that the walk of its memory fails.  Where the two
paths agree, and the other steps meet their conditions, no governed history
fails its own walk.
-/

namespace Registrar

open Program Transition

variable {env : Environment} {workspaceId : String}

/-- The walk goes well from every memory of the store. -/
structure Governed (env : Environment) (workspaceId : String) (store : Store) :
    Prop extends Walkable env workspaceId store where
  promoted : ∀ memory ∈ store.curatedMemories.rows,
    Promoted store.auditEvents memory.id

theorem Governed.empty : Governed env workspaceId Store.empty where
  toWalkable := Walkable.empty
  promoted := fun _ member => (by cases member)

theorem Governed.sameRows {store other : Store}
    (governed : Governed env workspaceId store)
    (candidates : other.candidates = store.candidates)
    (memories : other.curatedMemories = store.curatedMemories)
    (log : other.auditEvents = store.auditEvents) :
    Governed env workspaceId other where
  toWalkable := governed.toWalkable.sameRows candidates memories log
  promoted := by
    rw [memories, log]
    exact governed.promoted

theorem Promoted.of_append {store : Store} {event : AuditEvent}
    {next : AuditLog}
    {memories : MemoryTable}
    (promoted : ∀ memory ∈ memories.rows,
      Promoted store.auditEvents memory.id)
    (inserted : store.auditEvents.insert?
      (appendedRecord env store.auditEvents event) = some next) :
    ∀ memory ∈ memories.rows, Promoted next memory.id :=
  fun memory member => (promoted memory member).insert inserted

theorem governed_survivesAppend :
    SurvivesAppend env (·.action ≠ .redacted) (Governed env workspaceId) :=
  fun store event next ofKind governed inserted =>
    { toWalkable := walkable_survivesAppend store event next ofKind
        governed.toWalkable inserted
      promoted := Promoted.of_append governed.promoted inserted }

theorem Governed.replace {store : Store} {old new : CuratedMemory}
    (governed : Governed env workspaceId store)
    (found : store.curatedMemories.find? old.id = some old)
    (same : SameClaim old new) :
    Governed env workspaceId
      { store with
        curatedMemories := store.curatedMemories.replace new } where
  toWalkable := governed.toWalkable.replace found same
  promoted := by
    intro memory member
    rcases Table.mem_replace_iff.mp member with ⟨rfl, -⟩ | ⟨kept, -⟩
    · rw [same.id]
      exact governed.promoted old (Table.find?_eq_some_iff.mp found).1
    · exact governed.promoted memory kept

theorem governed_survivesRedaction :
    SurvivesRedaction env (Governed env workspaceId) where
  memory := by
    intro store row updated event log governed rewrite
    constructor
    case toWalkable => exact governed.toWalkable.memory rewrite
    case promoted =>
      apply Promoted.of_append _ rewrite.inserted
      intro memory member
      rcases Table.mem_replace_iff.mp member with ⟨rfl, -⟩ | ⟨kept, -⟩
      · rw [rewrite.id]
        exact governed.promoted row rewrite.stored
      · exact governed.promoted memory kept
  copy := by
    intro store row newContent newTitle event log governed rewrite
    exact
      { toWalkable := governed.toWalkable.copy rewrite
        promoted := Promoted.of_append governed.promoted rewrite.inserted }

/-- The ids of the candidates are these. -/
def HasCandidates (ids : List String) (store : Store) : Prop :=
  store.candidates.rows.map CandidateRow.id = ids

theorem HasCandidates.setStatus {ids : List String} {store : Store}
    {selected : CandidateRow → Bool} {status : CandidateStatus}
    (has : HasCandidates ids store) :
    HasCandidates ids
      { store with
        candidates := store.candidates.updateWhere selected
          (CandidateRepository.CandidateRow.setStatus · status)
          (fun _ _ => rfl) } := by
  unfold HasCandidates at has ⊢
  rw [← has]
  unfold Table.updateWhere
  rw [List.map_map]
  apply List.map_congr_left
  intro row _
  by_cases isSelected : selected row <;>
    simp [isSelected, CandidateRow.id,
      CandidateRepository.CandidateRow.setStatus]

theorem updateStatus_governed {ids : List String} (id tenantId : String)
    (status : CandidateStatus) :
    Keeps (fun store =>
        Governed env workspaceId store ∧ HasCandidates ids store)
      (CandidateRepository.updateStatus id status tenantId) := by
  constructor
  rintro store ⟨governed, has⟩
  exact ⟨
    { toWalkable := governed.toWalkable.setStatus
      promoted := governed.promoted }, has.setStatus⟩

theorem governed_survivesHolding (ids : List String) :
    SurvivesHolding env fun store =>
      Governed env workspaceId store ∧ HasCandidates ids store where
  appended := by
    rintro store event next ofKind ⟨governed, has⟩ inserted
    exact ⟨governed_survivesAppend store event next ofKind.not_redacted governed
      inserted, has⟩
  held := fun id tenantId => updateStatus_governed id tenantId _

/-- The promotion is of a stored candidate, whose memory would have an id that
no candidate has. -/
structure PromotesStored (env : Environment) (ids : List String)
    (input : PromotionInput) : Prop where
  stored : input.candidate.id ∈ ids
  trimmed : trim input.candidate.content = input.candidate.content
  hashed : input.contentHash = computeContentHash env input.candidate.content
  apart : input.memoryId env ∉ ids

section Promotion

variable {ids : List String} {input : PromotionInput} {now : String}

/-- A commit that returns has left the receipt. -/
theorem commit_promoted {withLinks : Bool} {memory : CuratedMemory}
    {minimum : Option Sensitivity} :
    Triple (fun _ => True) (input.commit env now withLinks memory minimum)
      (fun _ store => Promoted store.auditEvents (input.memoryId env))
      (fun _ _ => True) := by
  apply Triple.of_ok
  intro store value final _ completed
  obtain ⟨_, _, -, afterFloor⟩ := bind_eq_ok_iff.mp completed
  obtain ⟨_, _, -, afterCheck⟩ := bind_eq_ok_iff.mp afterFloor
  obtain ⟨_, _, -, afterRetirements⟩ := bind_eq_ok_iff.mp afterCheck
  obtain ⟨_, _, -, afterInsert⟩ := bind_eq_ok_iff.mp afterRetirements
  obtain ⟨_, _, -, afterLinks⟩ := bind_eq_ok_iff.mp afterInsert
  obtain ⟨_, recorded, records, checks⟩ := bind_eq_ok_iff.mp afterLinks
  obtain ⟨event, log, parsed, inserted, rfl⟩ :=
    (AuditRepository.record_eq_ok_iff env).mp records
  obtain ⟨tenantId, reason, -, rfl⟩ := AuditEvent.parse_eq_ok parsed
  have same := eq_of_keeps (Keeps.forM fun floor _ =>
    PromotionInput.checkFloorRetained_keeps floor) checks
  rw [same]
  have isLast := Table.rows_of_insert? inserted
  exact ⟨_, isLast ▸ List.mem_append_right _ List.mem_cons_self, rfl, rfl⟩

/-- Everything is walkable but for the receipt of this memory. -/
def AwaitsReceipt (env : Environment) (workspaceId : String)
    (ids : List String) (memoryId : String) (store : Store) : Prop :=
  Walkable env workspaceId store ∧ HasCandidates ids store ∧
    ∀ memory ∈ store.curatedMemories.rows,
      memory.id ≠ memoryId → Promoted store.auditEvents memory.id

theorem awaitsReceipt_survives {memory : CuratedMemory}
    {minimum : Option Sensitivity}
    (ofStored : PromotesStored env ids input)
    (built : input.memory env now minimum = .ok memory) :
    SurvivesPromotion env input memory
      (AwaitsReceipt env workspaceId ids memory.id) := by
  obtain ⟨isId, isCandidate, isContent, -, isHash, -⟩ :=
    PromotionInput.memory_eq_ok built
  constructor
  case appended =>
    rintro store event next ofKind ⟨walkable, has, promoted⟩ inserted
    refine ⟨walkable_survivesAppend store event next ?_ walkable inserted, has,
      ?_⟩
    · rcases ofKind with isPromoted | isSuperseded
      · simp [isPromoted]
      · simp [isSuperseded]
    · intro other member different
      exact (promoted other member different).insert inserted
  case linked =>
    rintro store links ⟨walkable, has, promoted⟩
    exact ⟨walkable.sameRows rfl rfl rfl, has, promoted⟩
  case retired =>
    rintro sup - store old link isLink ⟨walkable, has, promoted⟩ found
    rw [← (Table.find?_eq_some_iff.mp found).2] at found
    have same := old.retired_sameClaim link isLink
    refine ⟨walkable.replace found same, has, ?_⟩
    intro other member different
    rcases Table.mem_replace_iff.mp member with ⟨rfl, -⟩ | ⟨kept, -⟩
    · exact promoted old (Table.find?_eq_some_iff.mp found).1 different
    · exact promoted other kept different
  case inserted =>
    rintro store next ⟨walkable, has, promoted⟩ inserted
    have noCandidate : ∀ row ∈ store.candidates.rows, memory.id ≠ row.id := by
      intro row member same
      apply ofStored.apart
      rw [← isId, same, ← has]
      exact List.mem_map_of_mem member
    refine ⟨?_, has, ?_⟩
    · apply walkable.insertMemory inserted
      · rw [isHash, isContent, ofStored.trimmed, ofStored.hashed]
      · rw [isCandidate, isHash, isId]
        rfl
      · have member := ofStored.stored
        rw [← has, List.mem_map] at member
        rw [isCandidate]
        exact member
      · exact noCandidate
    · intro other member different
      rw [Table.rows_of_insert? inserted] at member
      rcases List.mem_append.mp member with kept | new
      · exact promoted other kept different
      · exact absurd (congrArg CuratedMemory.id (List.mem_singleton.mp new))
          different

/-- The promotion of a stored candidate keeps a store governed. -/
theorem promote_governed (ofStored : PromotesStored env ids input)
    (dryRun withLinks : Bool) :
    Keeps (fun store =>
        Governed env workspaceId store ∧ HasCandidates ids store)
      (promote env input dryRun withLinks now) := by
  apply promote_triple fun _ _ start => start
  intro _ memory built
  have isId := (PromotionInput.memory_eq_ok built).1
  have survives := @awaitsReceipt_survives env workspaceId ids input now memory
    _ ofStored built
  apply Triple.weaken
    (Triple.and (PromotionInput.commit_survives survives withLinks _)
      commit_promoted)
  · rintro store ⟨governed, has⟩
    exact ⟨⟨governed.toWalkable, has,
      fun other member _ => governed.promoted other member⟩, trivial⟩
  · rintro value store ⟨⟨walkable, has, promoted⟩, receipt⟩
    refine ⟨?_, has⟩
    constructor
    case toWalkable => exact walkable
    case promoted =>
      intro other member
      by_cases same : other.id = memory.id
      · rw [same, isId]
        exact receipt
      · exact promoted other member same
  · intro _ _ _
    trivial

end Promotion

/-! ## Operations -/

/-- What a promotion of this stored candidate rests on. -/
structure Promotable (env : Environment) (ids : List String)
    (candidate : MemoryCandidate) : Prop where
  stored : candidate.id ∈ ids
  trimmed : trim candidate.content = candidate.content
  apart : deriveMemoryId env candidate.id
    (computeContentHash env candidate.content) ∉ ids

theorem Promotable.promotesStored {ids : List String}
    {candidate : MemoryCandidate} {input : PromotionInput}
    (promotable : Promotable env ids candidate)
    (isCandidate : input.candidate = candidate)
    (hashed : input.contentHash =
      computeContentHash env input.candidate.content) :
    PromotesStored env ids input := by
  subst isCandidate
  constructor
  case stored => exact promotable.stored
  case trimmed => exact promotable.trimmed
  case hashed => exact hashed
  case apart =>
    unfold PromotionInput.memoryId
    rw [hashed]
    exact promotable.apart

/-- A candidate that is read is stored, with its content trimmed. -/
theorem promotable_of_read {store : Store} {id : String}
    {candidate : MemoryCandidate}
    (isRead : CandidateRepository.read store.candidates id =
      .ok (some candidate))
    (apart : ∀ row ∈ store.candidates.rows,
      row.id ≠ deriveMemoryId env candidate.id
        (computeContentHash env candidate.content)) :
    Promotable env (store.candidates.rows.map CandidateRow.id) candidate := by
  obtain ⟨row, member, -, parsed⟩ := CandidateRepository.read_eq_some isRead
  have isParsed := MemoryCandidate.parse_eq_ok parsed
  constructor
  case stored =>
    refine List.mem_map.mpr ⟨row, member, ?_⟩
    rw [isParsed]
    rfl
  case trimmed =>
    rw [isParsed]
    exact Trim.trim_trim _ _
  case apart =>
    intro isId
    obtain ⟨other, isOther, same⟩ := List.mem_map.mp isId
    exact apart other isOther same

section Approval

variable {service : PromotionService} {candidate : MemoryCandidate}
variable {approval : PromotionService.Approval} {draw : Draw}
variable {store final : Store} {input : PromotionInput}

theorem prepareDecided_hashed {policy : Option GovernancePolicy}
    {pipelineResult : PipelineResult} {minimum : Option Sensitivity}
    (prepared : service.prepareDecided env candidate policy pipelineResult
      minimum approval draw store = .ok input final) :
    input.contentHash = computeContentHash env input.candidate.content := by
  unfold PromotionService.prepareDecided at prepared
  by_cases rejected : pipelineResult.outcome = .rejected
  · rw [if_pos rejected] at prepared
    cases prepared
  rw [if_neg rejected] at prepared
  cases triggered : evaluateHoldTriggers env candidate pipelineResult policy
    with
  | some decision =>
      rw [triggered] at prepared
      obtain ⟨placed, _, -, thrown⟩ := bind_eq_ok_iff.mp prepared
      cases thrown
  | none =>
      rw [triggered] at prepared
      dsimp only at prepared
      split_ifs at prepared with flagged
      · cases prepared
      · obtain ⟨plan, _, -, returned⟩ := bind_eq_ok_iff.mp prepared
        cases returned
        rfl

theorem prepareGoverned_hashed {tenantId : String}
    (prepared : service.prepareGoverned env candidate tenantId approval draw
      store = .ok input final) :
    input.contentHash = computeContentHash env input.candidate.content := by
  obtain ⟨refused, _, -, afterContent⟩ := bind_eq_ok_iff.mp prepared
  cases refused with
  | some error => cases afterContent
  | none =>
      obtain ⟨minimum, _, -, afterFloor⟩ := bind_eq_ok_iff.mp afterContent
      obtain ⟨policy, _, -, afterPolicy⟩ := bind_eq_ok_iff.mp afterFloor
      obtain ⟨pipelineResult, _, -, decided⟩ := bind_eq_ok_iff.mp afterPolicy
      exact prepareDecided_hashed decided

/-- The approval of a stored candidate keeps a store governed. -/
theorem approval_governed {candidateId tenantId : String}
    (governed : Governed env workspaceId store)
    (apart : ∀ candidate,
      CandidateRepository.read store.candidates candidateId =
          .ok (some candidate) →
        ∀ row ∈ store.candidates.rows,
          row.id ≠ deriveMemoryId env candidate.id
            (computeContentHash env candidate.content)) :
    Governed env workspaceId
      (finalState (service.promoteCandidate env candidateId tenantId approval
        draw) store) := by
  let ids := store.candidates.rows.map CandidateRow.id
  let holds (current : Store) : Prop :=
    Governed env workspaceId current ∧ HasCandidates ids current
  have judges : Triple (· = store)
      (service.prepareApproval env candidateId tenantId approval draw)
      (fun input current => PromotesStored env ids input ∧ holds current)
      (fun _ => holds) := by
    have starts : ∀ current, current = store → holds current := by
      rintro _ rfl
      exact ⟨governed, rfl⟩
    unfold PromotionService.prepareApproval
    apply Triple.bind (Triple.weaken (requireCandidate_triple _ _)
      (fun _ start => start) (fun _ _ ended => ended)
      fun _ current same => starts current same)
    intro candidate
    have known : ∀ current,
        (CandidateRepository.read current.candidates candidateId =
            .ok (some candidate) ∧
          candidate.tenantId = tenantId ∧ current = store) →
        Promotable env ids candidate ∧ holds current := by
      rintro _ ⟨isRead, -, rfl⟩
      exact ⟨promotable_of_read isRead (apart candidate isRead), governed, rfl⟩
    apply Triple.weaken _ known (fun _ _ ended => ended) fun _ _ ended => ended
    apply Triple.assume
    intro isPromotable
    cases PromotionService.gateError env service candidate with
    | some error => exact Triple.throw _ fun _ start => start
    | none =>
        apply Triple.bind
          (passImportGate_keeps (governed_survivesHolding ids) _ _ _ _)
        intro _
        have hashed : Triple (fun _ => True)
            (service.prepareGoverned env candidate tenantId approval draw)
            (fun input _ => input.contentHash =
              computeContentHash env input.candidate.content)
            (fun _ _ => True) :=
          Triple.of_ok fun _ _ _ _ prepared => prepareGoverned_hashed prepared
        have prepares : Prepares holds candidate
            (service.prepareGoverned env candidate tenantId approval draw) :=
          prepareGoverned_prepares (governed_survivesHolding ids) _ _ _
        apply Triple.weaken (Triple.and prepares hashed)
        · exact fun _ start => ⟨start, trivial⟩
        · rintro input current ⟨⟨isCandidate, kept⟩, isHash⟩
          exact ⟨isPromotable.promotesStored isCandidate isHash, kept⟩
        · exact fun _ _ ended => ended.1
  have finishes (input : PromotionInput) :
      Triple (fun current => PromotesStored env ids input ∧ holds current)
        (service.finishApproval env tenantId draw input)
        (fun _ => holds) (fun _ => holds) := by
    apply Triple.assume
    intro ofStored
    unfold PromotionService.finishApproval
    apply Keeps.bind (promote_governed ofStored _ _)
    intro memory
    apply Keeps.bind (updateStatus_governed _ _ _)
    intro _
    exact Keeps.pure _
  have all := Triple.bind judges finishes
  rw [PromotionService.promoteCandidate_eq]
  have result := all.run store rfl
  unfold finalState
  cases ended : (service.prepareApproval env candidateId tenantId approval draw
      >>= service.finishApproval env tenantId draw) store with
  | ok value next =>
      rw [ended] at result
      exact result.1
  | error error next =>
      rw [ended] at result
      exact result.1

end Approval

/-- The curator takes up a stored candidate. -/
def curateStored (env : Environment) (config : CuratorConfig)
    (meters : CuratorMeters) (candidateId : String)
    (existingHashes : Option (List String)) (release : Option HoldRelease)
    (draw : Draw) : StoreM PUnit := do
  let found ← CandidateRepository.findById candidateId
  match found with
  | none => pure ⟨⟩
  | some candidate =>
      let _ ← Curator.processSingle env config meters candidate existingHashes
        release draw
      pure ⟨⟩

/-- The curation of a stored candidate keeps a store governed. -/
theorem curation_governed {store : Store} {config : CuratorConfig}
    {meters : CuratorMeters} {candidateId : String}
    {existingHashes : Option (List String)} {release : Option HoldRelease}
    {draw : Draw} (governed : Governed env workspaceId store)
    (apart : ∀ candidate,
      CandidateRepository.read store.candidates candidateId =
          .ok (some candidate) →
        ∀ row ∈ store.candidates.rows,
          row.id ≠ deriveMemoryId env candidate.id
            (computeContentHash env candidate.content)) :
    Governed env workspaceId
      (finalState (curateStored env config meters candidateId existingHashes
        release draw) store) := by
  let ids := store.candidates.rows.map CandidateRow.id
  let holds (current : Store) : Prop :=
    Governed env workspaceId current ∧ HasCandidates ids current
  have curates : Triple (· = store)
      (curateStored env config meters candidateId existingHashes release draw)
      (fun _ => holds) (fun _ => holds) := by
    have starts : ∀ current, current = store → holds current := by
      rintro _ rfl
      exact ⟨governed, rfl⟩
    unfold curateStored
    apply Triple.bind (Triple.weaken (CandidateRepository.findById_triple _)
      (fun _ start => start) (fun _ _ ended => ended)
      fun _ current same => starts current same)
    intro found
    cases found with
    | none => exact Triple.pure _ fun current start => starts current start.2
    | some candidate =>
        have known : ∀ current,
            (CandidateRepository.read current.candidates candidateId =
                .ok (some candidate) ∧ current = store) →
            Promotable env ids candidate ∧ holds current := by
          rintro _ ⟨isRead, rfl⟩
          exact ⟨promotable_of_read isRead (apart candidate isRead), governed,
            rfl⟩
        apply Triple.weaken _ known (fun _ _ ended => ended)
          fun _ _ ended => ended
        apply Triple.assume
        intro isPromotable
        dsimp only
        rw [processSingle_eq]
        have decides (minimum : Option Sensitivity)
            (decision : CurationDecision) :
            Keeps holds (carryOut env config meters candidate release minimum
              draw decision) := by
          by_cases promotes : ∃ pipelineResult flags,
              decision = .promote pipelineResult flags
          · obtain ⟨pipelineResult, flags, rfl⟩ := promotes
            unfold carryOut Curator.promoteCandidate
            apply Keeps.bind (Keeps.query _)
            intro plan
            apply Keeps.bind
            · exact promote_governed (isPromotable.promotesStored rfl rfl) _ _
            · intro memory
              exact Keeps.pure _
          · push Not at promotes
            exact carryOut_keeps_of_notPromoted (governed_survivesHolding ids)
              promotes
        apply Keeps.bind
        · apply Keeps.bind (resolveMinimum_keeps _)
          intro minimum
          apply Keeps.bind (Keeps.query _)
          intro decision
          exact decides _ _
        · intro _
          exact Keeps.pure _
  have result := curates.run store rfl
  unfold finalState
  cases ended : curateStored env config meters candidateId existingHashes
      release draw store with
  | ok value next =>
      rw [ended] at result
      exact result.1
  | error error next =>
      rw [ended] at result
      exact result.1

section Maintenance

variable {store : Store} (governed : Governed env workspaceId store)

include governed

theorem transition_governed (id : String) (target : MemoryLifecycleState)
    (request : Except String TransitionRequest) (draw : Draw) :
    Governed env workspaceId
      (finalState (MemoryService.transition env id target request draw)
        store) := by
  refine Triple.finalState ?_ (fun _ start => start) governed
  apply MemoryService.transition_triple fun _ start => start
  · rintro current old new holds found same - - -
    rw [← (Table.find?_eq_some_iff.mp found).2] at found
    exact holds.replace found same
  · rintro current event next ⟨reached, action⟩
    apply governed_survivesAppend current event next
    rw [action]
    cases reached <;> simp [lifecycleToAction]

theorem recategorization_governed (id : String)
    (request : Except String RecategorizeRequest) (draw : Draw) :
    Governed env workspaceId
      (finalState (MemoryService.recategorize env id request draw) store) := by
  refine Triple.finalState ?_ (fun _ start => start) governed
  apply MemoryService.recategorize_triple
  · rintro current memory category now holds found
    rw [← (Table.find?_eq_some_iff.mp found).2] at found
    exact holds.replace found ⟨rfl, rfl, rfl, rfl, rfl, rfl⟩
  · intro current event next action
    apply governed_survivesAppend current event next
    rw [action]
    simp

end Maintenance

/-- The candidate has an id that its path and its content derive, if it came
from a file. -/
def MemoryCandidate.Addressed (env : Environment) (workspaceId : String)
    (candidate : MemoryCandidate) : Prop :=
  candidate.source = .import_ →
    ∀ path ∈ candidate.metadata.filePaths.head?,
      deriveCandidateId env workspaceId path
        (computeContentHash env candidate.content) = candidate.id

theorem MemoryCandidate.Addressed.addressedBy {row : CandidateRow}
    (addressed : row.candidate.Addressed env workspaceId) :
    AddressedBy env workspaceId row
      (computeContentHash env row.candidate.content) := by
  intro relPath stamped
  unfold CandidateRow.relPath? at stamped
  by_cases imported : row.candidate.source = .import_
  · rw [if_pos imported] at stamped
    exact addressed imported relPath stamped
  · rw [if_neg imported] at stamped
    cases stamped

theorem Governed.insertCandidate {store : Store} {row : CandidateRow}
    {table : CandidateTable} (governed : Governed env workspaceId store)
    (inserted : store.candidates.insert? row = some table)
    (addressed : row.candidate.Addressed env workspaceId)
    (apart : ∀ memory ∈ store.curatedMemories.rows, memory.id ≠ row.id) :
    Governed env workspaceId { store with candidates := table } where
  toWalkable :=
    governed.toWalkable.insertCandidate inserted addressed.addressedBy apart
  promoted := governed.promoted

/-- An intake does not touch the memories. -/
theorem intakePrepared_sameMemories (candidate : IntakeCandidate)
    (ctx : IntakeActorContext) (now : String) (table : MemoryTable) :
    Keeps (fun store : Store => store.curatedMemories = table)
      (intakePrepared env candidate ctx now) := by
  have appends : SurvivesAppend env (fun _ => True) fun store : Store =>
      store.curatedMemories = table := fun _ _ _ _ same _ => same
  unfold intakePrepared
  apply Keeps.bind (CandidateRepository.findById_keeps _)
  intro byId
  cases byId with
  | some existing =>
      apply Keeps.ite
      · intro _
        exact Keeps.pure _
      · intro _
        exact Keeps.throw _
  | none =>
      apply Keeps.bind
      · unfold CandidateRepository.findByContentHashAndTenant
        apply Keeps.bind (Keeps.query _)
        intro found
        exact orSchemaError_keeps found
      intro existing
      cases existing with
      | some existing => exact Keeps.pure _
      | none =>
          apply Keeps.bind (Keeps.query _)
          intro redacted
          apply Keeps.bind (Keeps.ensure _ _)
          intro _
          unfold landCandidate
          apply Keeps.bind
            (CandidateRepository.insert_triple fun _ _ same _ => same)
          intro _
          apply Keeps.bind
          · unfold writeIntakeReceipt
            apply Keeps.bind (orSchemaError_keeps _)
            intro author
            apply Keeps.bind (orSchemaError_keeps _)
            intro event
            apply Keeps.bind (AuditRepository.insert_keeps appends trivial)
            intro _
            exact Keeps.pure _
          intro receipt
          apply Keeps.bind (checkRetained_keeps _ _)
          intro _
          exact Keeps.pure _

/-- An intake of a candidate that is addressed, or comes from no file, keeps a
store governed. -/
theorem intake_governed {store : Store} {call : IntakeCall}
    (governed : Governed env workspaceId store)
    (admitted : ∀ candidate,
      prepareIntakeCandidate env call.data call.ctx call.allowedChannels =
          .ok candidate →
        store.candidates.find? candidate.id = none →
        candidate.stored.Addressed env workspaceId ∧
          ∀ memory ∈ store.curatedMemories.rows, memory.id ≠ candidate.id) :
    Governed env workspaceId (intakeStep env store call) := by
  unfold intakeStep finalState
  cases ended : intake env call store with
  | error error next =>
      rw [intake_error ended]
      exact governed
  | ok result next =>
      obtain ⟨candidate, prepared, completed⟩ := intake_eq_ok ended
      rcases intakePrepared_eq_ok completed with
        ⟨rfl, -⟩ | ⟨-, -, event, landed⟩
      · exact governed
      · have sameMemories :=
          (@intakePrepared_sameMemories env candidate call.ctx call.now
            store.curatedMemories).run store rfl
        rw [completed] at sameMemories
        dsimp only at sameMemories
        obtain ⟨free, -⟩ := Table.insert?_eq_some_iff.mp landed.candidates
        have isNew : store.candidates.find? candidate.id = none :=
          Table.find?_eq_none_iff.mpr free
        obtain ⟨addressed, apart⟩ := admitted candidate prepared isNew
        have inserted := governed.insertCandidate landed.candidates addressed
          apart
        have recorded := governed_survivesAppend
          { store with candidates := next.candidates } event next.auditEvents
          (by simp [landed.receipt.action]) inserted landed.auditEvents
        exact recorded.sameRows rfl sameMemories rfl

/-- The path that is stored for the file is the one that its id is derived
from, in the same workspace, and no memory has that id. -/
structure FileAgrees (env : Environment) (workspaceId : String) (store : Store)
    (call : ImportCall) (file : VaultFile) : Prop where
  path : file.absolutePath = file.relativePath
  workspace : basename call.sourcePath = workspaceId
  apart : ∀ memory ∈ store.curatedMemories.rows,
    memory.id ≠ (vaultCandidate env call file).id

theorem FileAgrees.addressed {store : Store} {call : ImportCall}
    {file : VaultFile} (agrees : FileAgrees env workspaceId store call file) :
    (vaultCandidate env call file).Addressed env workspaceId := by
  intro _ path stamped
  have isPath : path = file.relativePath := by
    rw [← agrees.path]
    exact (Option.some.inj stamped).symm
  rw [isPath, ← agrees.workspace]
  rfl

/-- A file that is new to the store after some of the import was new to it
before. -/
theorem NewFile.earlier {store current : Store} {file : VaultFile}
    (new : NewFile env current file)
    (memories : current.curatedMemories = store.curatedMemories)
    (candidates : ∀ row ∈ store.candidates.rows,
      row ∈ current.candidates.rows) :
    NewFile env store file where
  solid := new.solid
  noMemory := by
    rw [← memories]
    exact new.noMemory
  noCandidate := fun row member => new.noCandidate row (candidates row member)

/-- An import whose new files agree keeps a store governed. -/
theorem import_governed {store : Store} {call : ImportCall}
    (governed : Governed env workspaceId store)
    (agree : ∀ file ∈ call.vaultFiles, NewFile env store file →
      FileAgrees env workspaceId store call file) :
    Governed env workspaceId (finalState (executeImport env call) store) := by
  let holds (current : Store) : Prop :=
    Governed env workspaceId current ∧
      current.curatedMemories = store.curatedMemories ∧
      ∀ row ∈ store.candidates.rows, row ∈ current.candidates.rows
  have kept : Keeps holds (executeImport env call) := by
    apply executeImport_keeps
    · rintro current batches ⟨here, memories, candidates⟩
      exact ⟨here.sameRows rfl rfl rfl, memories, candidates⟩
    · rintro file member current next ⟨here, memories, candidates⟩ new inserted
      have agrees := agree file member (new.earlier memories candidates)
      refine ⟨here.insertCandidate inserted agrees.addressed ?_, memories, ?_⟩
      · rw [memories]
        exact agrees.apart
      · intro row isRow
        rw [Table.rows_of_insert? inserted]
        exact List.mem_append_left _ (candidates row isRow)
  exact (Keeps.finalState kept ⟨governed, rfl, fun _ member => member⟩).1

inductive GovernanceStep where
  | executeImport (call : ImportCall)
  | intake (call : IntakeCall)
  | approve (service : PromotionService) (candidateId tenantId : String)
      (approval : PromotionService.Approval) (draw : Draw)
  | curate (config : CuratorConfig) (meters : CuratorMeters)
      (candidateId : String) (existingHashes : Option (List String))
      (release : Option HoldRelease) (draw : Draw)
  | transition (id : String) (target : MemoryLifecycleState)
      (request : Except String TransitionRequest) (draw : Draw)
  | recategorize (id : String) (request : Except String RecategorizeRequest)
      (draw : Draw)
  | redactMemory (call : RedactionCall)

def governanceStep (env : Environment) (store : Store) :
    GovernanceStep → Store
  | .executeImport call => finalState (executeImport env call) store
  | .intake call => intakeStep env store call
  | .approve service candidateId tenantId approval draw =>
      finalState (service.promoteCandidate env candidateId tenantId approval
        draw) store
  | .curate config meters candidateId existingHashes release draw =>
      finalState (curateStored env config meters candidateId existingHashes
        release draw) store
  | .transition id target request draw =>
      finalState (MemoryService.transition env id target request draw) store
  | .recategorize id request draw =>
      finalState (MemoryService.recategorize env id request draw) store
  | .redactMemory call => redactionStep env store call

/-- No candidate has the id that the memory of this candidate gets. -/
def MemoryIdFree (env : Environment) (store : Store) (candidateId : String) :
    Prop :=
  ∀ candidate,
    CandidateRepository.read store.candidates candidateId =
        .ok (some candidate) →
      ∀ row ∈ store.candidates.rows,
        row.id ≠ deriveMemoryId env candidate.id
          (computeContentHash env candidate.content)

/-- What a step must meet for the walks to go well after it. -/
def StepAgrees (env : Environment) (workspaceId : String) (store : Store) :
    GovernanceStep → Prop
  | .executeImport call =>
      ∀ file ∈ call.vaultFiles, NewFile env store file →
        FileAgrees env workspaceId store call file
  | .intake call =>
      ∀ candidate,
        prepareIntakeCandidate env call.data call.ctx call.allowedChannels =
            .ok candidate →
          store.candidates.find? candidate.id = none →
          candidate.stored.Addressed env workspaceId ∧
            ∀ memory ∈ store.curatedMemories.rows, memory.id ≠ candidate.id
  | .approve _ candidateId _ _ _ => MemoryIdFree env store candidateId
  | .curate _ _ candidateId _ _ _ => MemoryIdFree env store candidateId
  | .redactMemory call => KeepsHash env store call.input
  | .transition _ _ _ _ | .recategorize _ _ _ => True

theorem governanceStep_governed {store : Store} {step : GovernanceStep}
    (governed : Governed env workspaceId store)
    (agrees : StepAgrees env workspaceId store step) :
    Governed env workspaceId (governanceStep env store step) := by
  cases step with
  | executeImport call => exact import_governed governed agrees
  | intake call => exact intake_governed governed agrees
  | approve service candidateId tenantId approval draw =>
      exact approval_governed governed agrees
  | curate config meters candidateId existingHashes release draw =>
      exact curation_governed governed agrees
  | transition id target request draw =>
      exact transition_governed governed id target request draw
  | recategorize id request draw =>
      exact recategorization_governed governed id request draw
  | redactMemory call =>
      exact redactionStep_survives governed_survivesRedaction governed agrees

/-- Where every step of a governed history agrees with the walk, no link of the
store fails in the walk of any of its memories. -/
theorem governedHistory_walksWell (env : Environment) (opts : WalkOptions)
    (steps : List GovernanceStep)
    (agree : Always (governanceStep env)
      (StepAgrees env opts.workspaceId) Store.empty steps) :
    ∀ memory ∈ (run (governanceStep env) Store.empty
        steps).curatedMemories.rows,
      WalksWell env opts (run (governanceStep env) Store.empty steps)
        memory.id := by
  have governed : Governed env opts.workspaceId
      (run (governanceStep env) Store.empty steps) :=
    invariant_of_always (fun _ _ => governanceStep_governed) Governed.empty
      agree
  intro memory member
  exact governed.toWalkable.walksWell member (governed.promoted memory member)

/-! ## An imported note -/

def vaultNoteFile (absolutePath : String) : VaultFile where
  absolutePath := absolutePath
  relativePath := "desk.md"
  content := "Call Ann."

def importVaultNote (absolutePath : String) : ImportCall where
  sourcePath := "/vault"
  tenantId := "team"
  vaultFiles := [vaultNoteFile absolutePath]
  batchId := "batch"
  now := "1"

def linklessService : PromotionService where
  withLinks := false
  originSecret := none
  holdLimits :=
    { ttlDays := none
      maxActiveHolds := none }

def vaultNoteCandidate : MemoryCandidate :=
  vaultCandidate plainEnvironment (importVaultNote "desk.md")
    (vaultNoteFile "desk.md")

def approveVaultNote : GovernanceStep :=
  .approve linklessService vaultNoteCandidate.id "team"
    { promotedBy := none
      promotionReason := none }
    { freshId := "draw"
      now := "2" }

def vaultWalk : WalkOptions where
  cwd := "/"
  brainDir := "/vault"
  spoolDirs := []
  sidecars := []
  traces := none

/-- The id of the candidate is derived from `desk.md`, and the path that the
walk reads is `/vault/desk.md`. -/
theorem importedNote_failsWalk :
    ¬ ∀ steps, ∀ memory ∈ (run (governanceStep plainEnvironment) Store.empty
          steps).curatedMemories.rows,
      WalksWell plainEnvironment vaultWalk
        (run (governanceStep plainEnvironment) Store.empty steps)
        memory.id := by
  intro claimed
  have fails : ¬ ∀ memory ∈ (run (governanceStep plainEnvironment) Store.empty
          [.executeImport (importVaultNote "/vault/desk.md"),
            approveVaultNote]).curatedMemories.rows,
      WalksWell plainEnvironment vaultWalk
        (run (governanceStep plainEnvironment) Store.empty
          [.executeImport (importVaultNote "/vault/desk.md"), approveVaultNote])
        memory.id := by
    decide +kernel
  exact fails (claimed _)

def approveProposal : GovernanceStep :=
  .approve linklessService "standup" "team"
    { promotedBy := none
      promotionReason := none }
    { freshId := "draw"
      now := "2" }

def redactProposal : RedactionCall where
  input :=
    { memoryId := deriveMemoryId plainEnvironment "standup" "Call Ann."
      tenantId := "team"
      actor := "ann"
      reason := "A name"
      mode := .replacement "Call the desk."
      replacementTitle := none
      dryRun := false }
  freshId index := toString index
  now := "3"

/-- A proposal, an import of the same text, which is skipped, the approval of
the proposal and a redaction. -/
def proposalHistory : List GovernanceStep :=
  [.intake (proposalOf (.ofString "Call Ann.")),
    .executeImport (importVaultNote "/vault/desk.md"), approveProposal,
    .redactMemory redactProposal]

/-- What the proposal is stored as. -/
def standupCandidate : MemoryCandidate where
  id := "standup"
  status := .inbox
  source := .mcp
  content := "Call Ann."
  title := "Standup"
  category := .convention
  trustLevel := .medium
  author := intakeActor
  tenantId := "team"
  metadata :=
    { filePaths := []
      language := none
      projectContext := none
      sessionId := none
      repoUrl := none
      branch := none
      confidence := none
      sensitivity := none
      tags := []
      subjects := none
      proposedByRole := none
      audience := none }
  prePolicyFlags := noFlags
  capturedAt := "0"
  origin := none

/-- The proposal is stored under the hash of the note's text, and the import
after it changes nothing that the approval reads. -/
theorem proposalHistory_states :
    (∃ row ∈ (governanceStep plainEnvironment Store.empty
          (.intake (proposalOf (.ofString "Call Ann.")))).candidates.rows,
        row.contentHash = computeContentHash plainEnvironment
          (parseMarkdown (vaultNoteFile "/vault/desk.md").content).body) ∧
      CandidateRepository.read
          (governanceStep plainEnvironment
            (governanceStep plainEnvironment Store.empty
              (.intake (proposalOf (.ofString "Call Ann."))))
            (.executeImport (importVaultNote "/vault/desk.md"))).candidates
          "standup" = .ok (some standupCandidate) ∧
      ∀ row ∈ (governanceStep plainEnvironment
          (governanceStep plainEnvironment Store.empty
            (.intake (proposalOf (.ofString "Call Ann."))))
          (.executeImport (importVaultNote "/vault/desk.md"))).candidates.rows,
        row.id ≠ deriveMemoryId plainEnvironment "standup" "Call Ann." := by
  decide +kernel

theorem governedHistory_walksWell_note :
    (run (governanceStep plainEnvironment) Store.empty
        proposalHistory).curatedMemories.rows.map (·.content.value) =
        ["Call the desk."] ∧
      ∀ memory ∈ (run (governanceStep plainEnvironment) Store.empty
          proposalHistory).curatedMemories.rows,
        WalksWell plainEnvironment vaultWalk
          (run (governanceStep plainEnvironment) Store.empty proposalHistory)
          memory.id := by
  constructor
  · decide +kernel
  apply governedHistory_walksWell
  obtain ⟨⟨row, inside, same⟩, stored, free⟩ := proposalHistory_states
  refine ⟨?_, ?_, ?_, ?_, trivial⟩
  · intro candidate prepared _
    have source : (prepareIntakeCandidate plainEnvironment
        (proposalOf (.ofString "Call Ann.")).data
        (proposalOf (.ofString "Call Ann.")).ctx
        (proposalOf (.ofString "Call Ann.")).allowedChannels).toOption.map
          IntakeCandidate.source = some .mcp := by
      decide +kernel
    rw [prepared] at source
    constructor
    · intro imported
      have isImport : candidate.source = .import_ := imported
      rw [Option.some.inj source] at isImport
      cases isImport
    · intro memory member
      cases member
  · intro file member isNew
    rw [List.mem_singleton.mp member] at isNew
    exact absurd same (isNew.noCandidate row inside)
  · intro candidate isRead
    rw [stored] at isRead
    cases isRead
    exact free
  · exact keepsHash_of_trimmed rfl (by decide +kernel)

end Registrar
