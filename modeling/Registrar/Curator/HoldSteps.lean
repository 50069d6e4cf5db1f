import Registrar.Curator.Decisions
import Registrar.Curator.HoldBooks

/-!
# What the hold operations do to the books

Each transaction of a hold makes one of the moves on the books, or none.  A
recommendation makes none, and a hold never gets more of them than its cap.
-/

namespace Registrar

open Program

variable {env : Environment}

section Books

variable {store final : Store} {candidate : MemoryCandidate}

theorem holdView_append {event : AuditEvent} {log : AuditLog}
    (appended : store.auditEvents.insert?
      (appendedRecord env store.auditEvents event) = some log) :
    ({ store with auditEvents := log } : Store).holdView =
      if event.OfHold then store.holdView.record event else store.holdView := by
  unfold Store.holdView
  rw [Table.rows_of_insert? appended, List.map_append, List.filter_append]
  by_cases ofHold : event.OfHold <;>
    simp [ofHold, HoldView.record, appendedRecord]

theorem holdView_fresh {event : AuditEvent} {log : AuditLog}
    (appended : store.auditEvents.insert?
      (appendedRecord env store.auditEvents event) = some log) :
    event.id ∉ store.holdView.receipts.map AuditEvent.id := by
  intro used
  obtain ⟨receipt, member, same⟩ := List.mem_map.mp used
  obtain ⟨record, inside, rfl⟩ := List.mem_map.mp (List.mem_filter.mp member).1
  exact ((Table.insert?_eq_some_iff.mp appended).1 record inside).1 same

theorem mem_holdView {event : AuditEvent} :
    event ∈ store.holdView.receipts ↔
      event.OfHold ∧
        ∃ record ∈ store.auditEvents.rows, record.event = event := by
  simp only [Store.holdView, List.mem_filter, List.mem_map, decide_eq_true_eq]
  exact and_comm

theorem mem_findByMemoryAndTenant {log : AuditLog} {event : AuditEvent}
    {memoryId tenantId : String} :
    event ∈ AuditRepository.findByMemoryAndTenant log memoryId tenantId ↔
      event.memoryId = memoryId ∧ event.tenantId.value = tenantId ∧
        ∃ record ∈ log.rows, record.event = event := by
  unfold AuditRepository.findByMemoryAndTenant AuditRepository.findByTimestamp
  simp only [List.mem_map, (List.perm_insertionSort _ _).mem_iff,
    List.mem_filter, Bool.and_eq_true, decide_eq_true_eq]
  constructor
  · rintro ⟨record, ⟨member, ofMemory, ofTenant⟩, rfl⟩
    exact ⟨ofMemory, ofTenant, record, member, rfl⟩
  · rintro ⟨ofMemory, ofTenant, record, member, rfl⟩
    exact ⟨record, ⟨member, ofMemory, ofTenant⟩, rfl⟩

/-- The active holds of a tenant are those on the books. -/
theorem length_listActiveHolds (store : Store) (tenantId now : String) :
    (listActiveHolds env store tenantId now).length =
      store.holdView.activeHolds tenantId := by
  have resolved (memoryId : String) :
      ((AuditRepository.findByTenantAndAction store.auditEvents tenantId
          .holdResolved).any (·.memoryId = memoryId) = true) ↔
        store.holdView.receipts.any (fun event =>
          event.action = .holdResolved && event.tenantId.value = tenantId &&
            event.memoryId = memoryId) = true := by
    simp only [AuditRepository.findByTenantAndAction,
      AuditRepository.findByTimestamp, List.any_eq_true, List.mem_map,
      (List.perm_insertionSort _ _).mem_iff, List.mem_filter, mem_holdView,
      Bool.and_eq_true, decide_eq_true_eq]
    constructor
    · rintro ⟨event, ⟨record, ⟨member, ofTenant, isResolved⟩, rfl⟩, ofMemory⟩
      exact ⟨record.event, ⟨.inr isResolved, record, member, rfl⟩,
        ⟨isResolved, ofTenant⟩, ofMemory⟩
    · rintro ⟨event, ⟨-, record, member, rfl⟩, ⟨isResolved, ofTenant⟩,
        ofMemory⟩
      exact ⟨record.event, ⟨record, ⟨member, ofTenant, isResolved⟩, rfl⟩,
        ofMemory⟩
  have counted (selected : AuditEvent → Bool) :
      (AuditRepository.findByTenantAndAction store.auditEvents tenantId
          .held).countP selected =
        store.holdView.receipts.countP fun event =>
          selected event &&
            (event.tenantId.value = tenantId && event.action = .held) := by
    unfold AuditRepository.findByTenantAndAction AuditRepository.findByTimestamp
      Store.holdView
    rw [List.countP_map, (List.perm_insertionSort _ _).countP_eq,
      List.countP_filter, List.countP_filter, List.countP_map]
    apply List.countP_congr
    intro record _
    simp only [Function.comp_apply, Bool.and_eq_true, decide_eq_true_eq,
      and_assoc]
    constructor
    · rintro ⟨isSelected, ofTenant, isHeld⟩
      exact ⟨isSelected, ofTenant, isHeld, .inl isHeld⟩
    · rintro ⟨isSelected, ofTenant, isHeld, -⟩
      exact ⟨isSelected, ofTenant, isHeld⟩
  unfold listActiveHolds
  dsimp only
  rw [List.length_insertionSort, List.length_filterMap_eq_countP, counted]
  apply List.countP_congr
  intro held _
  simp only [HoldView.isActive, Bool.and_eq_true, decide_eq_true_eq]
  by_cases isResolved :
      ((AuditRepository.findByTenantAndAction store.auditEvents tenantId
        .holdResolved).any (·.memoryId = held.memoryId)) = true
  · rw [if_pos isResolved, (resolved _).mp isResolved]
    simp
  · rw [if_neg isResolved,
      Bool.eq_false_of_not_eq_true (mt (resolved _).mpr isResolved)]
    have sameTable : store.holdView.candidates = store.candidates := rfl
    rw [sameTable]
    cases CandidateRepository.findCandidateSafe store.candidates
        held.memoryId with
    | none => simp
    | some candidate =>
        by_cases isOpen : candidate.tenantId = tenantId ∧
            candidate.status = holdStatus
        · simp [isOpen.1, isOpen.2, and_comm]
        · have refused : candidate.tenantId ≠ tenantId ∨
              candidate.status ≠ holdStatus := by
            tauto
          simp only [if_pos refused, Option.any_some]
          simp [isOpen]

/-- A hold that is read off a quarantined candidate and its receipt is on the
books. -/
theorem holdOf_toActiveHold (books : HoldBooks env store.holdView)
    {memoryId now : String} {held : AuditEvent}
    {recommendations : List AuditEvent}
    (read : CandidateRepository.findCandidateSafe store.candidates memoryId =
      some candidate)
    (onHold : candidate.status = holdStatus)
    (recorded : held ∈ store.holdView.receipts) (isHeld : held.action = .held)
    (ofMemory : held.memoryId = memoryId)
    (inTenant : held.tenantId.value = candidate.tenantId) :
    HoldOf store.holdView
      (toActiveHold env candidate held recommendations now) := by
  obtain ⟨row, member, rowId, parsed⟩ := findCandidateSafe_eq_some read
  have isCandidate := MemoryCandidate.parse_eq_ok parsed
  have sameId : candidate.id = memoryId := by
    rw [isCandidate]
    exact rowId
  refine ⟨held, recorded, isHeld, ofMemory.trans sameId.symm, inTenant, rfl, ?_⟩
  intro other otherMember otherId
  have isRow : other = row := by
    apply Table.eq_of_key_eq otherMember member
    rw [rowId, ← sameId]
    exact otherId
  have status : row.candidate.status = .quarantined := by
    rw [isCandidate] at onHold
    exact onHold
  have matched := books.quarantined row member status
  rw [isRow, ← matched]
  exact (congrArg MemoryCandidate.tenantId isCandidate).symm

/-- The open hold of a candidate is on the books. -/
theorem holdOf_findActiveHold (books : HoldBooks env store.holdView)
    {candidateId tenantId now : String} {hold : ActiveHold}
    (found : findActiveHold env store candidateId tenantId now = some hold) :
    HoldOf store.holdView hold ∧ hold.candidateId = candidateId ∧
      hold.tenantId = tenantId ∧
      hold.expired = hasElapsed env hold.expiresAt now := by
  unfold findActiveHold at found
  cases read : CandidateRepository.findCandidateSafe store.candidates
      candidateId with
  | none =>
      rw [read] at found
      cases found
  | some candidate =>
      simp only [read] at found
      by_cases refused :
          candidate.tenantId ≠ tenantId ∨ candidate.status ≠ holdStatus
      · rw [if_pos refused] at found
        cases found
      rw [if_neg refused] at found
      push Not at refused
      obtain ⟨ofTenant, onHold⟩ := refused
      cases receipt : (AuditRepository.findByMemoryAndTenant store.auditEvents
          candidateId tenantId).find? (·.action = .held) with
      | none =>
          rw [receipt] at found
          cases found
      | some held =>
          rw [receipt] at found
          dsimp only at found
          split_ifs at found
          cases found
          have isHeld : held.action = .held := by
            simpa using List.find?_some receipt
          obtain ⟨ofMemory, inTenant, stored⟩ := mem_findByMemoryAndTenant.mp
            (List.mem_of_find?_eq_some receipt)
          have recorded : held ∈ store.holdView.receipts :=
            mem_holdView.mpr ⟨.inl isHeld, stored⟩
          obtain ⟨row, -, rowId, parsed⟩ := findCandidateSafe_eq_some read
          have sameId : candidate.id = candidateId := by
            rw [MemoryCandidate.parse_eq_ok parsed]
            exact rowId
          refine ⟨?_, sameId, ofTenant, rfl⟩
          exact holdOf_toActiveHold books read onHold recorded isHeld ofMemory
            (inTenant.trans ofTenant.symm)

/-- An open hold of a tenant is on the books. -/
theorem holdOf_listActiveHolds (books : HoldBooks env store.holdView)
    {tenantId now : String} {hold : ActiveHold}
    (member : hold ∈ listActiveHolds env store tenantId now) :
    HoldOf store.holdView hold := by
  unfold listActiveHolds at member
  dsimp only at member
  rw [(List.perm_insertionSort _ _).mem_iff, List.mem_filterMap] at member
  obtain ⟨held, inLog, opened⟩ := member
  split_ifs at opened with resolved
  cases read : CandidateRepository.findCandidateSafe store.candidates
      held.memoryId with
  | none =>
      rw [read] at opened
      cases opened
  | some candidate =>
      rw [read] at opened
      dsimp only at opened
      by_cases refused :
          candidate.tenantId ≠ tenantId ∨ candidate.status ≠ holdStatus
      · rw [if_pos refused] at opened
        cases opened
      rw [if_neg refused] at opened
      push Not at refused
      cases opened
      unfold AuditRepository.findByTenantAndAction
        AuditRepository.findByTimestamp at inLog
      simp only [List.mem_map, (List.perm_insertionSort _ _).mem_iff,
        List.mem_filter, Bool.and_eq_true, decide_eq_true_eq] at inLog
      obtain ⟨record, ⟨stored, inTenant, isHeld⟩, rfl⟩ := inLog
      have recorded : record.event ∈ store.holdView.receipts :=
        mem_holdView.mpr ⟨.inl isHeld, record, stored, rfl⟩
      exact holdOf_toActiveHold books read refused.2 recorded isHeld rfl
        (inTenant.trans refused.1.symm)

end Books

section Writes

variable {view : HoldView} {candidate : MemoryCandidate}
variable {hold : ActiveHold} {resolution : HoldResolution}

theorem updateStatus_triple {id tenantId : String} {status : CandidateStatus}
    {failed : RegistrarError → Store → Prop} :
    Triple (fun store => store.holdView = view)
      (CandidateRepository.updateStatus id status tenantId)
      (fun _ store => store.holdView = view.setStatus id status tenantId)
      failed := by
  constructor
  rintro store rfl
  rfl

theorem insert_triple {event : AuditEvent} (ofHold : event.OfHold) :
    Triple (fun store => store.holdView = view)
      (AuditRepository.insert env event)
      (fun _ store => event.id ∉ view.receipts.map AuditEvent.id ∧
        store.holdView = view.record event)
      (fun _ _ => True) := by
  constructor
  rintro store rfl
  cases inserted : AuditRepository.insert env event store with
  | error error next => trivial
  | ok value next =>
      obtain ⟨log, appended, rfl⟩ :=
        (AuditRepository.insert_eq_ok_iff env).mp inserted
      have recorded := holdView_append appended
      rw [if_pos ofHold] at recorded
      exact ⟨holdView_fresh appended, recorded⟩

/-- Where nothing stands against a hold, the candidate can be held. -/
theorem holdable_of_unobstructed {store : Store} {limits : HoldLimits}
    {now expiresAt : String} {decision : HoldDecision}
    {triggeredBy : Option Author} {held : AuditEvent}
    (unobstructed : holdObstacle env store candidate limits now = none)
    (parsed : AuditEvent.parse
      (heldEvent env candidate decision limits triggeredBy expiresAt now) =
        .ok held)
    (fresh : held.id ∉ store.holdView.receipts.map AuditEvent.id) :
    Holdable env store.holdView candidate held
      (resolveMaxActiveHolds limits) := by
  unfold holdObstacle at unobstructed
  cases active : findActiveHold env store candidate.id candidate.tenantId now
      with
  | some hold =>
      rw [active] at unobstructed
      cases unobstructed
  | none =>
      rw [active] at unobstructed
      dsimp only at unobstructed
      cases read : (CandidateRepository.findCandidateSafe store.candidates
          candidate.id).filter (·.tenantId = candidate.tenantId) with
      | none =>
          rw [read] at unobstructed
          cases unobstructed
      | some stored =>
          rw [read] at unobstructed
          dsimp only at unobstructed
          obtain ⟨found, sameTenant⟩ := Option.filter_eq_some_iff.mp read
          rw [decide_eq_true_eq] at sameTenant
          split_ifs at unobstructed with closed earlier full
          obtain ⟨row, member, rowId, accepted⟩ :=
            findCandidateSafe_eq_some found
          have isStored := MemoryCandidate.parse_eq_ok accepted
          have trimmed : trim row.candidate.tenantId = candidate.tenantId := by
            rw [← sameTenant, isStored]
          obtain ⟨tenantId, reason, tenant, rfl⟩ :=
            AuditEvent.parse_eq_ok parsed
          refine
            { stored := ⟨row, member, rowId, trimmed, ?_⟩
              action := rfl
              memoryId := rfl
              tenantId := ?_
              id := rfl
              fresh := fresh
              unheld := ?_
              room := ?_ }
          · have status : stored.status = row.candidate.status := by
              rw [isStored]
            rw [status] at closed
            by_contra neither
            push Not at neither
            exact closed neither
          · rw [tenant]
            change trim candidate.tenantId = candidate.tenantId
            rw [← trimmed]
            exact Trim.trim_trim _ _
          · intro event recorded isHeld sameMemory sameTenant
            apply earlier
            rw [List.any_eq_true]
            refine ⟨event, mem_findByMemoryAndTenant.mpr
              ⟨sameMemory, sameTenant, (mem_holdView.mp recorded).2⟩, ?_⟩
            exact decide_eq_true isHeld
          · rw [← length_listActiveHolds _ _ now]
            exact Nat.lt_of_not_le full

/-- The body of a placement places the hold, if it returns, or does nothing. -/
theorem attemptHold_triple {cap : String → Nat} {decision : HoldDecision}
    {limits : HoldLimits} {triggeredBy : Option Author}
    {expiresAt now : String}
    (atMost : resolveMaxActiveHolds limits ≤ cap candidate.tenantId) :
    Triple (fun store => store.holdView = view)
      (attemptHold env candidate decision limits triggeredBy expiresAt now)
      (fun _ store => HoldMove env cap view store.holdView)
      (fun _ _ => True) := by
  unfold attemptHold
  apply Triple.bind (Triple.query_eq _)
  intro obstacle
  cases obstacle with
  | some result =>
      apply Triple.pure
      rintro store ⟨-, rfl⟩
      exact .stay
  | none =>
      constructor
      rintro store ⟨unobstructed, rfl⟩
      have written : Triple (fun current => current.holdView = store.holdView)
          (writeHold env candidate
            (heldEvent env candidate decision limits triggeredBy expiresAt now)
            now)
          (fun _ current => HoldMove env cap store.holdView current.holdView)
          (fun _ _ => True) := by
        unfold writeHold
        apply Triple.bind (Triple.anyFailure (Keeps.query _))
        intro stored
        apply Triple.bind (Triple.anyFailure (orSchemaError_triple _))
        intro held
        apply Triple.assume
        intro parsed
        have isHeld : held.action = .held := by
          obtain ⟨tenantId, reason, -, rfl⟩ := AuditEvent.parse_eq_ok parsed
          rfl
        apply Triple.bind updateStatus_triple
        intro count
        apply Triple.bind (insert_triple (.inl isHeld))
        intro _
        apply Triple.pure
        rintro current ⟨fresh, placed⟩
        rw [placed]
        exact .place (holdable_of_unobstructed unobstructed parsed fresh) atMost
      exact written.run store rfl

theorem placeHold_triple {cap : String → Nat} {decision : HoldDecision}
    {limits : HoldLimits} {triggeredBy : Option Author} {dryRun : Bool}
    {now : String}
    (atMost : resolveMaxActiveHolds limits ≤ cap candidate.tenantId) :
    Triple (fun store => store.holdView = view)
      (placeHold env candidate decision limits triggeredBy dryRun now)
      (fun _ store => HoldMove env cap view store.holdView)
      (fun _ store => HoldMove env cap view store.holdView) := by
  have stays (store : Store) (same : store.holdView = view) :
      HoldMove env cap view store.holdView := by
    rw [same]
    exact .stay
  unfold placeHold
  split
  · exact Triple.throw _ stays
  · apply Triple.ite
    · intro _
      exact Triple.query stays
    · intro _
      exact Triple.transaction (attemptHold_triple atMost) fun _ => stays

theorem field?_resolution {details : List (String × Json)}
    (further : ∀ entry ∈ details, entry.1 ≠ "resolution") {actor : Author}
    {reason now : String} :
    Json.field? (resolvedEvent env hold resolution actor reason details
      now).details "resolution" = some (.string resolution.text) := by
  have absent :
      details.reverse.find? (fun entry => entry.1 = "resolution") = none := by
    rw [List.find?_eq_none]
    intro entry member
    simpa using further entry (List.mem_reverse.mp member)
  simp [Json.field?, resolvedEvent, absent]

/-- The receipt that ends a hold of the books resolves it. -/
theorem writeHoldResolved_triple (base : HoldView) (isHold : HoldOf view hold)
    (sameReceipts : base.receipts = view.receipts) {actor : Author}
    {reason now : String} {details : List (String × Json)}
    (further : ∀ entry ∈ details, entry.1 ≠ "resolution")
    (inTime : resolution = .released →
      hasElapsed env hold.expiresAt now = false) :
    Triple (fun store => store.holdView = base)
      (writeHoldResolved env hold resolution actor reason details now)
      (fun _ store => ∃ held event, Resolves env view held event resolution ∧
        held.memoryId = hold.candidateId ∧
        held.tenantId.value = hold.tenantId ∧
        store.holdView = base.record event)
      (fun _ _ => True) := by
  obtain ⟨held, recorded, isHeld, ofCandidate, inTenant, expiry, stored⟩ :=
    isHold
  unfold writeHoldResolved AuditRepository.record
  rw [bind_assoc]
  apply Triple.bind (Triple.anyFailure (orSchemaError_triple _))
  intro event
  apply Triple.assume
  intro parsed
  obtain ⟨tenantId, reason, tenant, rfl⟩ := AuditEvent.parse_eq_ok parsed
  apply Triple.bind (insert_triple (.inr rfl))
  intro _
  apply Triple.pure
  rintro store ⟨fresh, written⟩
  refine ⟨held, _, ?_, ofCandidate, inTenant, written⟩
  have sameTenant : tenantId.value = held.tenantId.value := by
    rw [tenant]
    change trim hold.tenantId = held.tenantId.value
    rw [← inTenant]
    exact held.tenantId.trimmed
  exact
    { recorded := recorded
      ofHold := isHeld
      stored := by
        intro row member rowId
        rw [inTenant]
        exact stored row member (rowId.trans ofCandidate)
      action := rfl
      memoryId := ofCandidate.symm
      tenantId := NonEmptyString.value_injective sameTenant
      id := rfl
      fresh := by
        rw [← sameReceipts]
        exact fresh
      names := by
        unfold AuditEvent.detailText
        rw [field?_resolution further]
      inTime := by
        intro released
        rw [expiry]
        exact inTime released }

theorem expireHold_triple {cap : String → Nat} (isHold : HoldOf view hold)
    (now : String) :
    Triple (fun store => store.holdView = view) (expireHold env hold now)
      (fun _ store => HoldMove env cap view store.holdView)
      (fun _ store => HoldMove env cap view store.holdView) := by
  unfold expireHold
  apply Triple.transaction
  · apply Triple.bind updateStatus_triple
    intro count
    refine Triple.weaken
      (writeHoldResolved_triple (view.setStatus _ _ _) isHold rfl (by simp)
        (by simp))
      (fun _ start => start) ?_ fun _ _ _ => trivial
    rintro auditEventId store ⟨held, event, resolves, ofCandidate, inTenant,
      written⟩
    rw [written, ← ofCandidate, ← inTenant]
    exact .resolve resolves
  · rintro error store rfl
    exact .stay

/-- A rejection is one move. -/
theorem rejectHeld_triple {cap : String → Nat} {input : ResolveHoldInput}
    {actor : Author} {role : ReaderRole} (isHold : HoldOf view hold)
    (sameCandidate : hold.candidateId = input.candidateId)
    (sameTenant : hold.tenantId = input.tenantId) (now : String) :
    Triple (fun store => store.holdView = view)
      (rejectHeld env input hold actor role now)
      (fun _ store => HoldMove env cap view store.holdView)
      (fun _ store => HoldMove env cap view store.holdView) := by
  have stays (store : Store) (same : store.holdView = view) :
      HoldMove env cap view store.holdView := by
    rw [same]
    exact .stay
  unfold rejectHeld
  apply Triple.ite
  · intro _
    exact Triple.pure _ stays
  intro _
  apply Triple.transaction _ fun _ => stays
  rw [← sameCandidate, ← sameTenant]
  apply Triple.bind updateStatus_triple
  intro count
  apply Triple.bind
    (writeHoldResolved_triple (view.setStatus _ _ _) isHold rfl (by simp)
      (by simp))
  intro auditEventId
  apply Triple.pure
  rintro store ⟨held, event, resolves, ofCandidate, inTenant, written⟩
  rw [written, ← ofCandidate, ← inTenant]
  exact .resolve resolves

theorem holdView_survivesAppend {kind : AuditEvent → Prop}
    (other : ∀ event, kind event → ¬event.OfHold) :
    SurvivesAppend env kind fun store => store.holdView = view := by
  intro store event next ofKind same appended
  have kept := holdView_append appended
  rw [if_neg (other event ofKind)] at kept
  exact kept.trans same

theorem holdView_of_promoted {store : Store} {table : MemoryTable}
    (same : table.rows.map CuratedMemory.candidateId =
      store.curatedMemories.rows.map CuratedMemory.candidateId) :
    ({ store with curatedMemories := table } : Store).holdView =
      store.holdView := by
  unfold Store.holdView
  rw [same]

/-- A promotion adds its candidate to the promoted ones, unless it is a dry
run. -/
theorem promoteCandidate_triple {config : CuratorConfig}
    {meters : CuratorMeters} {pipelineResult : PipelineResult}
    {release : Option HoldRelease} {flags : Option (List String)}
    {minimum : Option Sensitivity} {draw : Draw} :
    Triple (fun store => store.holdView = view)
      (Curator.promoteCandidate env config meters candidate pipelineResult
        release flags minimum draw)
      (fun curated store => curated.1.outcome = .promoted ∧
        store.holdView =
          if config.dryRun then view else view.promote candidate.id)
      (fun _ store => store.holdView = view) := by
  have recorded (event : AuditEvent)
      (ofPromotion : event.action = .promoted ∨ event.action = .superseded) :
      ¬event.OfHold := by
    rintro (isHeld | isResolved) <;> rcases ofPromotion with is | is <;>
      simp_all
  unfold Curator.promoteCandidate
  apply Triple.bind (Keeps.query _)
  intro plan
  dsimp only
  have promotes : Triple (fun store => store.holdView = view)
      (promote env
        (curatorPromotion env candidate pipelineResult release flags minimum
          (chooseSupersessions config meters plan).1) config.dryRun
        config.withLinks draw.now)
      (fun _ store => store.holdView =
        if config.dryRun then view else view.promote candidate.id)
      (fun _ store => store.holdView = view) := by
    apply promote_triple
    · intro isDry store same
      rw [if_pos isDry]
      exact same
    · intro isWet memory built
      simp only [isWet]
      apply PromotionInput.commit_triple
      · apply PromotionInput.retires_of_keeps
        intro sup _
        apply PromotionInput.retire_keeps
        · exact holdView_survivesAppend fun event is =>
            recorded event (.inr is)
        · intro store old reason same found
          rw [← same]
          apply holdView_of_promoted
          apply Table.map_replace
          intro other member sameId
          obtain ⟨oldMember, oldId⟩ := Table.find?_eq_some_iff.mp found
          rw [Table.eq_of_key_eq oldMember member sameId.symm]
          rfl
      · rintro store next rfl inserted
        obtain ⟨-, ofCandidate, -⟩ := PromotionInput.memory_eq_ok built
        unfold HoldView.promote Store.holdView
        simp only [Table.rows_of_insert? inserted, List.map_append,
          List.map_singleton, ofCandidate]
        rfl
      · intro _
        exact PromotionInput.drawLinks_keeps fun store links same => same
      · exact holdView_survivesAppend fun event is => recorded event (.inl is)
  apply Triple.bind promotes
  intro memory
  exact Triple.pure _ fun store written => ⟨rfl, written⟩

theorem releaseDetails_further {audience : Audience} {overrides : Bool}
    {role : ReaderRole} {result : CurationResult} :
    ∀ entry ∈ releaseDetails audience overrides role result,
      entry.1 ≠ "resolution" := by
  intro entry member
  unfold releaseDetails at member
  cases memoryId : result.memoryId with
  | none =>
      rw [memoryId] at member
      simp at member
      rcases member with rfl | rfl | rfl | rfl <;> simp
  | some id =>
      rw [memoryId] at member
      simp at member
      rcases member with rfl | rfl | rfl | rfl | rfl <;> simp

/-- The body of a release resolves the hold, if it promotes; a dry run writes
nothing. -/
theorem runRelease_triple {cap : String → Nat} {input : ResolveHoldInput}
    {options : ResolveHoldOptions} {released : MemoryCandidate}
    {audience : Audience} {actor : Author} {role : ReaderRole} {draw : Draw}
    (isHold : HoldOf view hold)
    (sameCandidate : hold.candidateId = input.candidateId)
    (sameTenant : hold.tenantId = input.tenantId)
    (isReleased : released.id = hold.candidateId)
    (inTime : hasElapsed env hold.expiresAt draw.now = false) :
    Triple (fun store => store.holdView = view)
      (runRelease env input options hold released audience actor role draw)
      (fun _ store => HoldMove env cap view store.holdView)
      (fun _ store => input.dryRun = true → store.holdView = view) := by
  have stays (store : Store) (same : store.holdView = view) :
      HoldMove env cap view store.holdView := by
    rw [same]
    exact .stay
  unfold runRelease
  apply Triple.bind
  · apply Triple.weaken
      (processSingle_release_triple fun pipelineResult flags minimum =>
        promoteCandidate_triple)
      (fun _ start => start) (fun _ _ ended => ended)
    intro _ store same _
    exact same
  rintro ⟨result, meters⟩
  dsimp only
  by_cases promoted : result.outcome = .promoted
  · simp only [promoted, ne_eq, not_true, if_true, if_false]
    by_cases isDry : input.dryRun = true
    · have dry : (releaseConfig input options).dryRun = true := isDry
      simp only [dry, isDry, if_true]
      exact Triple.pure _ stays
    · have wet : (releaseConfig input options).dryRun ≠ true := isDry
      simp only [wet, isDry]
      rw [isReleased, ← sameCandidate, ← sameTenant]
      have writes : Triple
          (fun store => store.holdView = view.promote hold.candidateId)
          (do
            let _ ← CandidateRepository.updateStatus hold.candidateId .promoted
              hold.tenantId
            let auditEventId ← writeHoldResolved env hold .released actor
              input.reason
              (releaseDetails audience
                (decide (audienceRank audience <
                  rankOf hold.recommendedAudience)) role result) draw.now
            pure (ResolveHoldResult.released hold.candidateId audience
              result.memoryId
              (decide (audienceRank audience < rankOf hold.recommendedAudience))
              (some auditEventId) false))
          (fun _ store => HoldMove env cap view store.holdView)
          (fun _ _ => True) := by
        apply Triple.bind updateStatus_triple
        intro count
        apply Triple.bind
          (writeHoldResolved_triple
            ((view.promote hold.candidateId).setStatus _ _ _) isHold rfl
            releaseDetails_further fun _ => inTime)
        intro auditEventId
        apply Triple.pure
        rintro store ⟨held, event, resolves, ofCandidate, inTenant, written⟩
        rw [written, ← ofCandidate, ← inTenant]
        exact .resolve resolves
      apply Triple.weaken writes (fun _ start => start) (fun _ _ ended => ended)
      intro _ store _ dry
      cases dry
  · simp only [promoted, ne_eq, not_false_eq_true, if_true, if_false]
    exact Triple.pure _ stays

end Writes

section Recommendations

variable {input : RecommendOnHoldInput} {freshId now : String}
variable {store final : Store} {result : RecommendOnHoldResult}

/-- A recommendation that returns has written its receipt or nothing. -/
theorem recommendOnHold_eq_ok
    (ended : recommendOnHold env input freshId now store = .ok result final) :
    final = store ∨
      ∃ verdict hold event log,
        recommendationTarget env store input verdict now = .ok hold ∧
          event.action = .holdRecommended ∧
          event.memoryId = input.candidateId ∧
          event.tenantId.value = trim input.tenantId ∧
          store.auditEvents.insert?
            (appendedRecord env store.auditEvents event) = some log ∧
          final = { store with auditEvents := log } := by
  unfold recommendOnHold at ended
  cases checked : checkRecommendation input with
  | error refused =>
      rw [checked] at ended
      cases ended
      exact .inl rfl
  | ok parts =>
      obtain ⟨actor, verdict⟩ := parts
      rw [checked] at ended
      have inside := transaction_eq_ok_iff.mp ended
      unfold attemptRecommendation at inside
      obtain ⟨target, _, read, written⟩ := bind_eq_ok_iff.mp inside
      cases read
      dsimp only at written
      cases found : recommendationTarget env store input verdict now with
      | error refused =>
          rw [found] at written
          cases written
          exact .inl rfl
      | ok hold =>
          rw [found] at written
          dsimp only at written
          obtain ⟨value, next, recorded, returned⟩ :=
            bind_eq_ok_iff.mp written
          rw [pure_apply] at returned
          injection returned with _ isFinal
          rw [isFinal] at recorded
          obtain ⟨event, log, parsed, inserted, same⟩ :=
            (AuditRepository.record_eq_ok_iff env).mp recorded
          obtain ⟨tenantId, reason, trimmed, rfl⟩ :=
            AuditEvent.parse_eq_ok parsed
          exact .inr ⟨verdict, hold, _, log, found, rfl, rfl, trimmed, inserted,
            same⟩

theorem recommendOnHold_eq_error {error : RegistrarError}
    (thrown : recommendOnHold env input freshId now store =
      .error error final) :
    final = store := by
  unfold recommendOnHold at thrown
  cases checked : checkRecommendation input with
  | error refused =>
      rw [checked] at thrown
      cases thrown
  | ok parts =>
      rw [checked] at thrown
      exact eq_of_transaction_eq_error thrown

/-- A recommendation neither opens nor ends a hold. -/
theorem recommendOnHold_keepsHolds {view : HoldView} :
    Keeps (fun store : Store => store.holdView = view)
      (recommendOnHold env input freshId now) := by
  constructor
  intro store same
  cases ended : recommendOnHold env input freshId now store with
  | error error final =>
      rw [recommendOnHold_eq_error ended]
      exact same
  | ok result final =>
      rcases recommendOnHold_eq_ok ended with unchanged | written
      · rw [unchanged]
        exact same
      · obtain ⟨_, _, event, log, _, isRecommendation, _, _, inserted, rfl⟩ :=
          written
        have notOfHold : ¬event.OfHold := by
          unfold AuditEvent.OfHold
          rw [isRecommendation]
          decide
        dsimp only
        rw [holdView_append inserted, if_neg notOfHold]
        exact same

/-- The recommendations in the log for a candidate of a tenant. -/
def recommendationCount (log : AuditLog) (memoryId tenantId : String) : Nat :=
  log.rows.countP fun record =>
    decide (record.event.memoryId = memoryId ∧
      record.event.tenantId.value = tenantId ∧
        record.event.action = .holdRecommended)

theorem recommendationCount_insert {event : AuditEvent} {log : AuditLog}
    {memoryId tenantId : String}
    (inserted : store.auditEvents.insert?
      (appendedRecord env store.auditEvents event) = some log) :
    recommendationCount log memoryId tenantId =
      if event.memoryId = memoryId ∧ event.tenantId.value = tenantId ∧
          event.action = .holdRecommended then
        recommendationCount store.auditEvents memoryId tenantId + 1
      else recommendationCount store.auditEvents memoryId tenantId := by
  have same : (appendedRecord env store.auditEvents event).event = event := rfl
  unfold recommendationCount
  rw [Table.rows_of_insert? inserted, List.countP_append,
    List.countP_singleton, same]
  simp only [decide_eq_true_eq]
  split_ifs <;> rfl

theorem recommendations_of_findActiveHold {candidateId tenantId : String}
    {hold : ActiveHold}
    (found : findActiveHold env store candidateId tenantId now = some hold) :
    hold.recommendations.length =
        recommendationCount store.auditEvents candidateId tenantId ∧
      trim tenantId = tenantId := by
  unfold findActiveHold at found
  cases read : CandidateRepository.findCandidateSafe store.candidates
      candidateId with
  | none =>
      rw [read] at found
      cases found
  | some candidate =>
      rw [read] at found
      dsimp only at found
      by_cases refused : candidate.tenantId ≠ tenantId ∨
          candidate.status ≠ holdStatus
      · rw [if_pos refused] at found
        cases found
      rw [if_neg refused] at found
      cases isHeld : (AuditRepository.findByMemoryAndTenant store.auditEvents
          candidateId tenantId).find? (·.action = .held) with
      | none =>
          rw [isHeld] at found
          cases found
      | some held =>
      rw [isHeld] at found
      dsimp only at found
      split_ifs at found
      cases found
      obtain ⟨-, inTenant, -⟩ :=
        mem_findByMemoryAndTenant.mp (List.mem_of_find?_eq_some isHeld)
      constructor
      · unfold toActiveHold recommendationCount
          AuditRepository.findByMemoryAndTenant AuditRepository.findByTimestamp
        dsimp only
        rw [List.length_map, ← List.countP_eq_length_filter, List.countP_map,
          (List.perm_insertionSort _ _).countP_eq, List.countP_filter]
        apply List.countP_congr
        intro record _
        simp only [Function.comp_apply, Bool.and_eq_true, decide_eq_true_eq]
        exact and_rotate
      · rw [← inTenant]
        exact held.tenantId.trimmed

/-- A recommendation goes to the open hold of the candidate, while it has
room. -/
theorem recommendationTarget_eq_ok {verdict : HoldVerdict} {hold : ActiveHold}
    (target : recommendationTarget env store input verdict now = .ok hold) :
    findActiveHold env store input.candidateId input.tenantId now =
        some hold ∧
      hold.recommendations.length < maxRecommendationsPerHold := by
  unfold recommendationTarget at target
  cases found : findActiveHold env store input.candidateId input.tenantId
      now with
  | none =>
      rw [found] at target
      cases target
  | some other =>
      rw [found] at target
      dsimp only at target
      by_cases expired : other.expired = true
      · rw [if_pos expired] at target
        cases target
      rw [if_neg expired] at target
      split at target
      · cases target
      · split_ifs at target with full
        cases target
        exact ⟨rfl, Nat.lt_of_not_le full⟩

/-- No candidate has more recommendations than a hold may carry. -/
def WithinRecommendationCap (store : Store) : Prop :=
  ∀ candidateId tenantId,
    recommendationCount store.auditEvents candidateId tenantId ≤
      maxRecommendationsPerHold

theorem recommendOnHold_withinCap :
    Keeps WithinRecommendationCap
      (recommendOnHold env input freshId now) := by
  constructor
  intro store within
  cases ended : recommendOnHold env input freshId now store with
  | error error final =>
      rw [recommendOnHold_eq_error ended]
      exact within
  | ok result final =>
      rcases recommendOnHold_eq_ok ended with unchanged | written
      · rw [unchanged]
        exact within
      · obtain ⟨verdict, hold, event, log, target, _, ofCandidate, inTenant,
          inserted, rfl⟩ := written
        intro candidateId tenantId
        obtain ⟨found, room⟩ := recommendationTarget_eq_ok target
        obtain ⟨counted, trimmed⟩ := recommendations_of_findActiveHold found
        rw [recommendationCount_insert inserted]
        split_ifs with here
        · obtain ⟨ofMemory, ofTenant, -⟩ := here
          rw [← ofMemory, ← ofTenant, ofCandidate, inTenant, trimmed, ← counted]
          exact room
        · exact within candidateId tenantId

end Recommendations

end Registrar
