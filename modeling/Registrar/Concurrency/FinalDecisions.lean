import Registrar.Concurrency.DecisionStages
import Registrar.Curator.CurationKeeps

/-!
# Final decisions

A rejection looks for a memory inside its transaction; a promotion looks for no
rejection inside its own.
-/

namespace Registrar

open Program Stages Transition

/-- A receipt of a person's rejection of the candidate. -/
def IsRejectionOf (candidateId : String) (event : AuditEvent) : Prop :=
  event.action = .deleted ∧ event.memoryId = candidateId ∧
    event.detailText "disposition" = some "rejected"

instance (candidateId : String) (event : AuditEvent) :
    Decidable (IsRejectionOf candidateId event) :=
  inferInstanceAs (Decidable (_ ∧ _ ∧ _))

/-- The candidate has neither a rejection receipt nor the status of one. -/
def Undecided (store : Store) (candidateId : String) : Prop :=
  (∀ record ∈ store.auditEvents.rows,
    ¬IsRejectionOf candidateId record.event) ∧
    ∀ row ∈ store.candidates.rows, row.id = candidateId →
      row.candidate.status ≠ .rejected

instance (store : Store) (candidateId : String) :
    Decidable (Undecided store candidateId) :=
  inferInstanceAs (Decidable ((∀ record ∈ _, _) ∧ ∀ row ∈ _, _))

/-- No candidate of a memory was rejected. -/
def DecisionsFinal (store : Store) : Prop :=
  ∀ memory ∈ store.curatedMemories.rows, Undecided store memory.candidateId

instance (store : Store) : Decidable (DecisionsFinal store) :=
  inferInstanceAs (Decidable (∀ memory ∈ _, _))

/-- A memory belongs to the tenant of its candidate. -/
def OwnCandidates (store : Store) : Prop :=
  ∀ memory ∈ store.curatedMemories.rows, ∀ row ∈ store.candidates.rows,
    row.id = memory.candidateId →
      trim row.candidate.tenantId = memory.tenantId.value

instance (store : Store) : Decidable (OwnCandidates store) :=
  inferInstanceAs (Decidable (∀ memory ∈ _, ∀ row ∈ _, _))

/-- A promotion is about to commit a candidate that nobody rejected. -/
def DecisionStage.CommitsUndecided (stage : DecisionStage) (store : Store) :
    Prop :=
  match stage with
  | .commit _ _ input _ => Undecided store input.candidate.id
  | .promote input _ rest =>
      rest.config.dryRun = false → Undecided store input.candidate.id
  | .start _ | .mark _ _ | .judge _ => True

instance (stage : DecisionStage) (store : Store) :
    Decidable (stage.CommitsUndecided store) := by
  cases stage <;> unfold DecisionStage.CommitsUndecided <;> infer_instance

variable {env : Environment}

/-- The ids of the candidates with their tenants. -/
def candidateTenants (store : Store) : List (String × String) :=
  store.candidates.rows.map fun row => (row.id, row.candidate.tenantId)

/-- The candidate is of the tenant that its stored row has. -/
def Stored (tenants : List (String × String)) (candidate : MemoryCandidate) :
    Prop :=
  ∀ entry ∈ tenants, entry.1 = candidate.id →
    trim entry.2 = trim candidate.tenantId

structure Settled (tenants : List (String × String)) (store : Store) :
    Prop where
  decisions : DecisionsFinal store
  own : OwnCandidates store
  stored : candidateTenants store = tenants

variable {tenants : List (String × String)}

theorem Settled.stored_of_parse {store : Store} (holds : Settled tenants store)
    {row : CandidateRow} {candidate : MemoryCandidate}
    (member : row ∈ store.candidates.rows)
    (parsed : row.candidate.parse = .ok candidate) : Stored tenants candidate := by
  rw [MemoryCandidate.parse_eq_ok parsed]
  rintro entry isEntry sameId
  rw [← holds.stored] at isEntry
  obtain ⟨other, isRow, rfl⟩ := List.mem_map.mp isEntry
  rw [Table.eq_of_key_eq isRow member sameId]
  exact (Trim.trim_trim _ _).symm

theorem Settled.append {store : Store} (holds : Settled tenants store)
    {event : AuditEvent} {next : AuditLog}
    (inserted : store.auditEvents.insert?
      (appendedRecord env store.auditEvents event) = some next)
    (harmless : ∀ memory ∈ store.curatedMemories.rows,
      ¬IsRejectionOf memory.candidateId event) :
    Settled tenants { store with auditEvents := next } := by
  refine ⟨?_, holds.own, holds.stored⟩
  intro memory member
  refine ⟨?_, (holds.decisions memory member).2⟩
  intro record recorded
  rw [Table.rows_of_insert? inserted] at recorded
  rcases List.mem_append.mp recorded with old | new
  · exact (holds.decisions memory member).1 record old
  · rw [List.mem_singleton.mp new]
    exact harmless memory member

/-- Other statuses change no decision while no memory's candidate is
rejected. -/
theorem Settled.withCandidates {store : Store} (holds : Settled tenants store)
    {table : CandidateTable}
    (same : table.rows.map (fun row => (row.id, row.candidate.tenantId)) =
      candidateTenants store)
    (statuses : ∀ memory ∈ store.curatedMemories.rows, ∀ row ∈ table.rows,
      row.id = memory.candidateId → row.candidate.status ≠ .rejected) :
    Settled tenants { store with candidates := table } := by
  refine ⟨?_, ?_, same.trans holds.stored⟩
  · intro memory member
    exact ⟨(holds.decisions memory member).1, statuses memory member⟩
  · intro memory member row isRow isCandidate
    have isEntry : (row.id, row.candidate.tenantId) ∈ candidateTenants store :=
      same ▸ List.mem_map_of_mem isRow
    obtain ⟨old, isOld, sameEntry⟩ := List.mem_map.mp isEntry
    obtain ⟨sameId, sameTenant⟩ := Prod.mk.inj sameEntry
    rw [← sameTenant]
    exact holds.own memory member old isOld (sameId.trans isCandidate)

theorem mem_setStatus {table : CandidateTable} {selected : CandidateRow → Bool}
    {status : CandidateStatus} {row : CandidateRow}
    (member : row ∈ (table.updateWhere selected
      (CandidateRepository.CandidateRow.setStatus · status)
      (fun _ _ => rfl)).rows) :
    ∃ old ∈ table.rows, row.id = old.id ∧
      row.candidate.tenantId = old.candidate.tenantId ∧
      row.candidate.status =
        if selected old then status else old.candidate.status := by
  obtain ⟨old, isOld, rfl⟩ := List.mem_map.mp member
  refine ⟨old, isOld, ?_⟩
  split_ifs <;> exact ⟨rfl, rfl, rfl⟩

theorem setStatus_tenants (table : CandidateTable)
    (selected : CandidateRow → Bool) (status : CandidateStatus) :
    ((table.updateWhere selected
        (CandidateRepository.CandidateRow.setStatus · status)
        (fun _ _ => rfl)).rows.map fun row => (row.id, row.candidate.tenantId)) =
      table.rows.map fun row => (row.id, row.candidate.tenantId) := by
  unfold Table.updateWhere
  rw [List.map_map]
  apply List.map_congr_left
  intro row _
  simp only [Function.comp_apply]
  split_ifs <;> rfl

theorem updateStatus_settled (id tenantId : String) {status : CandidateStatus}
    (notRejected : status ≠ .rejected) :
    Keeps (Settled tenants)
      (CandidateRepository.updateStatus id status tenantId) := by
  constructor
  intro store holds
  apply holds.withCandidates (setStatus_tenants _ _ _)
  intro memory member row isRow isCandidate
  obtain ⟨old, isOld, sameId, -, isStatus⟩ := mem_setStatus isRow
  rw [isStatus]
  split_ifs
  · exact notRejected
  · exact (holds.decisions memory member).2 old isOld
      (sameId.symm.trans isCandidate)

theorem settled_survivesHolding :
    SurvivesHolding env (Settled tenants) where
  appended := by
    intro store event next receipt holds inserted
    apply holds.append inserted
    rintro memory - ⟨deleted, -, disposition⟩
    rcases receipt with held | ⟨-, noDisposition⟩
    · rw [deleted] at held
      cases held
    · rw [noDisposition] at disposition
      cases disposition
  held := fun id tenantId => updateStatus_settled id tenantId (by decide)

/-- A promotion commits a candidate that nobody rejected. -/
theorem promote_settled {input : PromotionInput} {dryRun withLinks : Bool}
    {now : String} {store : Store} (holds : Settled tenants store)
    (ofTenant : Stored tenants input.candidate)
    (undecided : dryRun = false → Undecided store input.candidate.id) :
    Settled tenants (finalState (promote env input dryRun withLinks now)
      store) := by
  let before (store : Store) : Prop :=
    Settled tenants store ∧
      (dryRun = false → Undecided store input.candidate.id)
  have keeps : Keeps before (promote env input dryRun withLinks now) := by
    apply promote_triple fun _ _ start => start
    intro isWet memory built
    obtain ⟨-, isCandidate, -, isTenant, -⟩ :=
      PromotionInput.memory_eq_ok built
    apply PromotionInput.commit_survives
    constructor
    · rintro current event next action ⟨settled, free⟩ inserted
      have harmless (candidateId : String) :
          ¬IsRejectionOf candidateId event := by
        rintro ⟨deleted, -⟩
        rw [deleted] at action
        simp at action
      refine ⟨settled.append inserted fun memory _ => harmless _, ?_⟩
      intro wet
      refine ⟨?_, (free wet).2⟩
      intro record recorded
      rw [Table.rows_of_insert? inserted] at recorded
      rcases List.mem_append.mp recorded with old | new
      · exact (free wet).1 record old
      · rw [List.mem_singleton.mp new]
        exact harmless _
    · rintro current links ⟨settled, free⟩
      exact ⟨⟨settled.decisions, settled.own, settled.stored⟩, free⟩
    · rintro sup - current old link time ⟨settled, free⟩ found
      have isOld := (Table.find?_eq_some_iff.mp found).1
      refine ⟨⟨?_, ?_, settled.stored⟩, free⟩
      · intro memory member
        rcases Table.mem_replace_iff.mp member with ⟨rfl, -⟩ | ⟨kept, -⟩
        · exact settled.decisions old isOld
        · exact settled.decisions memory kept
      · intro memory member
        rcases Table.mem_replace_iff.mp member with ⟨rfl, -⟩ | ⟨kept, -⟩
        · exact settled.own old isOld
        · exact settled.own memory kept
    · rintro current next ⟨settled, free⟩ inserted
      have rows := Table.rows_of_insert? inserted
      refine ⟨⟨?_, ?_, settled.stored⟩, free⟩
      · intro other member
        rw [rows] at member
        rcases List.mem_append.mp member with old | new
        · exact settled.decisions other old
        · rw [List.mem_singleton.mp new, isCandidate]
          exact free isWet
      · intro other member row isRow same
        rw [rows] at member
        rcases List.mem_append.mp member with old | new
        · exact settled.own other old row isRow same
        · rw [List.mem_singleton.mp new, isTenant]
          rw [List.mem_singleton.mp new, isCandidate] at same
          apply ofTenant (row.id, row.candidate.tenantId) _ same
          rw [← settled.stored]
          exact List.mem_map_of_mem isRow
  exact (Keeps.finalState keeps ⟨holds, undecided⟩).1

/-- No memory of the candidate is stored. -/
def Unpromoted (store : Store) (candidateId : String) : Prop :=
  ∀ memory ∈ store.curatedMemories.rows, memory.candidateId ≠ candidateId

/-- What a rejection checked of its candidate. -/
structure Rejectable (tenants : List (String × String)) (candidateId : String)
    (store : Store) : Prop where
  settled : Settled tenants store
  unpromoted : Unpromoted store candidateId

/-- A rejection looks for a memory under its tenant; the memories of its
candidate have no other. -/
theorem Settled.rejectable {store : Store} (holds : Settled tenants store)
    {candidateId tenantId : String} {candidate : MemoryCandidate}
    (isRead : CandidateRepository.read store.candidates candidateId =
      .ok (some candidate))
    (ofTenant : candidate.tenantId = tenantId)
    (absent : MemoryRepository.existsForCandidate store.curatedMemories
      candidateId tenantId = false) :
    Rejectable tenants candidateId store := by
  refine ⟨holds, ?_⟩
  intro memory member isCandidate
  obtain ⟨row, isRow, rowId, parsed⟩ := CandidateRepository.read_eq_some isRead
  have rowTenant : trim row.candidate.tenantId = tenantId := by
    rw [← ofTenant, MemoryCandidate.parse_eq_ok parsed]
  have memoryTenant : memory.tenantId.value = tenantId := by
    rw [← rowTenant]
    exact (holds.own memory member row isRow (rowId.trans isCandidate.symm)).symm
  have present : MemoryRepository.existsForCandidate store.curatedMemories
      candidateId tenantId = true := by
    unfold MemoryRepository.existsForCandidate
    rw [List.any_eq_true]
    exact ⟨memory, member, by simp [isCandidate, memoryTenant]⟩
  rw [present] at absent
  cases absent

theorem updateStatus_rejectable (candidateId tenantId : String) :
    Keeps (Rejectable tenants candidateId)
      (CandidateRepository.updateStatus candidateId .rejected tenantId) := by
  constructor
  intro store holds
  refine ⟨holds.settled.withCandidates (setStatus_tenants _ _ _) ?_,
    holds.unpromoted⟩
  intro memory member row isRow isCandidate
  obtain ⟨old, isOld, sameId, -, isStatus⟩ := mem_setStatus isRow
  rw [isStatus]
  split_ifs with selected
  · exfalso
    simp only [Bool.and_eq_true, decide_eq_true_eq] at selected
    apply holds.unpromoted memory member
    rw [← isCandidate, sameId, selected.1]
  · exact (holds.settled.decisions memory member).2 old isOld
      (sameId.symm.trans isCandidate)

theorem insert_rejectable {candidateId : String} {receipt : AuditEvent}
    (ofCandidate : receipt.memoryId = candidateId) :
    Keeps (Rejectable tenants candidateId)
      (AuditRepository.insert env receipt) := by
  refine @AuditRepository.insert_keeps env _ (·.memoryId = candidateId) ?_ _
    ofCandidate
  intro store event next isReceipt holds inserted
  refine ⟨holds.settled.append inserted ?_, holds.unpromoted⟩
  rintro memory member ⟨-, ofMemory, -⟩
  exact holds.unpromoted memory member (ofMemory.symm.trans isReceipt)

theorem requireCandidate_triple {invariant : Store → Prop}
    (candidateId tenantId : String) :
    Triple invariant
      (PromotionService.requireCandidate candidateId tenantId)
      (fun candidate store =>
        CandidateRepository.read store.candidates candidateId =
            .ok (some candidate) ∧
          candidate.tenantId = tenantId ∧ invariant store)
      (fun _ => invariant) := by
  apply Triple.bind (CandidateRepository.findById_triple candidateId)
  intro found
  cases found with
  | none => exact Triple.throw _ fun store start => start.2
  | some candidate =>
      apply Triple.bind (Triple.ensured fun store start => start.2)
      intro _
      apply Triple.pure
      rintro store ⟨ofTenant, isRead, holds⟩
      exact ⟨isRead, ofTenant, holds⟩

theorem pendingError_eq_none {store : Store} {candidate : MemoryCandidate}
    {tenantId now : String}
    (pending : PromotionService.pendingError env store candidate tenantId now =
      none) :
    MemoryRepository.existsForCandidate store.curatedMemories candidate.id
      tenantId = false := by
  unfold PromotionService.pendingError at pending
  split_ifs at pending with held decided
  push Not at decided
  simpa using decided.2

theorem id_of_read {table : CandidateTable} {id : String}
    {candidate : MemoryCandidate}
    (isRead : CandidateRepository.read table id = .ok (some candidate)) :
    candidate.id = id := by
  obtain ⟨row, -, rowId, parsed⟩ := CandidateRepository.read_eq_some isRead
  rw [MemoryCandidate.parse_eq_ok parsed]
  exact rowId

theorem writeRejection_rejectable {candidate : MemoryCandidate}
    (tenantId : String) {receipt : AuditEvent}
    (ofCandidate : receipt.memoryId = candidate.id) :
    Keeps (Rejectable tenants candidate.id)
      (PromotionService.writeRejection env candidate tenantId receipt) := by
  unfold PromotionService.writeRejection
  apply Keeps.bind (updateStatus_rejectable _ _)
  intro changed
  apply Keeps.bind (Keeps.ensure _ _)
  intro _
  apply Keeps.bind (insert_rejectable ofCandidate)
  intro _
  apply Keeps.bind (Keeps.query _)
  intro persisted
  exact Keeps.ensure _ _

theorem rejectCandidate_settled (candidateId tenantId : String) (actor : Author)
    (reason : String) (draw : Draw) :
    Keeps (Settled tenants)
      (PromotionService.rejectCandidate env candidateId tenantId actor reason
        draw) := by
  unfold PromotionService.rejectCandidate
  apply Triple.transaction _ fun _ _ start => start
  apply Triple.bind (Triple.anyFailure (requireCandidate_triple _ _))
  intro candidate
  apply Triple.bind (Triple.query_eq _)
  intro refused
  cases refused with
  | some error => exact Triple.throw _ fun _ _ => trivial
  | none =>
      dsimp only
      apply Triple.bind (Triple.anyFailure (orSchemaError_triple _))
      intro receipt
      apply Triple.assume
      intro accepted
      have ofCandidate : receipt.memoryId = candidate.id := by
        obtain ⟨_, _, -, rfl⟩ := AuditEvent.parse_eq_ok accepted
        rfl
      apply Triple.weaken
        (Triple.anyFailure (writeRejection_rejectable tenantId ofCandidate))
      · rintro store ⟨pending, isRead, ofTenant, holds⟩
        have sameId := id_of_read isRead
        subst sameId
        exact holds.rejectable isRead ofTenant (pendingError_eq_none pending)
      · intro _ store ended
        exact ended.settled
      · intro _ _ _
        trivial

theorem writeReviewedRejection_rejectable (input : ReviewedRejectionInput)
    {receipt : AuditEvent} (ofCandidate : receipt.memoryId = input.candidateId) :
    Keeps (Rejectable tenants input.candidateId)
      (writeReviewedRejection env input receipt) := by
  unfold writeReviewedRejection
  apply Keeps.bind (updateStatus_rejectable _ _)
  intro changed
  apply Keeps.bind (Keeps.ensure _ _)
  intro _
  apply Keeps.bind (insert_rejectable ofCandidate)
  intro _
  apply Keeps.bind (Keeps.query _)
  intro persisted
  apply Keeps.bind (Keeps.ensure _ _)
  intro _
  exact Keeps.pure _

theorem reviewableCandidate_eq_ok {store : Store}
    {input : ReviewedRejectionInput} {role : ReaderRole} {now : String}
    {found : Option MemoryCandidate} {candidate : MemoryCandidate}
    (reviewable : reviewableCandidate env store input role now found =
      .ok candidate) :
    found = some candidate ∧ candidate.tenantId = input.tenantId ∧
      MemoryRepository.existsForCandidate store.curatedMemories
        input.candidateId input.tenantId = false := by
  cases found with
  | none => cases reviewable
  | some read =>
      simp only [reviewableCandidate] at reviewable
      split at reviewable
      · cases reviewable
      rename_i ofTenant
      split at reviewable
      · cases reviewable
      split at reviewable
      · cases reviewable
      split at reviewable
      · cases reviewable
      split at reviewable
      · cases reviewable
      rename_i absent
      cases reviewable
      exact ⟨rfl, not_not.mp ofTenant, eq_false_of_ne_true absent⟩

theorem rejectReviewedCandidate_settled (input : ReviewedRejectionInput)
    (draw : Draw) :
    Keeps (Settled tenants) (rejectReviewedCandidate env input draw) := by
  unfold rejectReviewedCandidate
  cases input.check with
  | error code => exact Keeps.pure _
  | ok checked =>
      obtain ⟨actor, role⟩ := checked
      apply Triple.transaction _ fun _ _ start => start
      apply Triple.bind
        (Triple.anyFailure (CandidateRepository.findById_triple _))
      intro found
      apply Triple.bind (Triple.query_eq _)
      intro reviewable
      cases reviewable with
      | error code =>
          apply Triple.pure
          intro store start
          exact start.2.2
      | ok candidate =>
          apply Triple.bind (Triple.anyFailure (orSchemaError_triple _))
          intro receipt
          apply Triple.assume
          intro accepted
          have ofCandidate : receipt.memoryId = input.candidateId := by
            obtain ⟨_, _, -, rfl⟩ := AuditEvent.parse_eq_ok accepted
            rfl
          apply Triple.weaken (Triple.anyFailure
            (writeReviewedRejection_rejectable input ofCandidate))
          · rintro store ⟨isReviewable, isRead, holds⟩
            obtain ⟨rfl, ofTenant, absent⟩ :=
              reviewableCandidate_eq_ok isReviewable
            exact holds.rejectable isRead ofTenant absent
          · intro _ store ended
            exact ended.settled
          · intro _ _ _
            trivial

section Prepare

variable {service : PromotionService} {candidate : MemoryCandidate}

/-- A program whose results promote the candidate. -/
def Prepares (invariant : Store → Prop) (candidate : MemoryCandidate)
    (program : StoreM PromotionInput) : Prop :=
  Triple invariant program
    (fun input store => input.candidate = candidate ∧ invariant store)
    (fun _ => invariant)

variable {invariant : Store → Prop} (survives : SurvivesHolding env invariant)

include survives

theorem passImportGate_keeps (candidate : MemoryCandidate) (tenantId : String)
    (approval : PromotionService.Approval) (draw : Draw) :
    Keeps invariant
      (PromotionService.passImportGate env candidate tenantId approval draw) := by
  unfold PromotionService.passImportGate
  split
  · exact Keeps.pure _
  · exact Keeps.pure _
  · apply Keeps.bind
    · exact AuditRepository.record_keeps survives.appended
        fun _ => rejectionEvent_isCurationReceipt
    · intro _
      exact Keeps.throw _

theorem prepareDecided_prepares (policy : Option GovernancePolicy)
    (pipelineResult : PipelineResult) (minimum : Option Sensitivity)
    (approval : PromotionService.Approval) (draw : Draw) :
    Prepares invariant candidate
      (service.prepareDecided env candidate policy pipelineResult minimum
        approval draw) := by
  unfold Prepares PromotionService.prepareDecided
  apply Triple.ite
  · intro _
    exact Triple.throw _ fun _ start => start
  intro _
  cases evaluateHoldTriggers env candidate pipelineResult policy with
  | some decision =>
      apply Triple.bind (placeHold_keeps survives _ _ _ _ _ _)
      intro placed
      exact Triple.throw _ fun _ start => start
  | none =>
      apply Triple.ite
      · intro _
        exact Triple.throw _ fun _ start => start
      · intro _
        unfold PromotionService.preparePromotion
        apply Triple.bind (Keeps.query _)
        intro plan
        exact Triple.pure _ fun _ start => ⟨rfl, start⟩

theorem prepareGoverned_prepares (tenantId : String)
    (approval : PromotionService.Approval) (draw : Draw) :
    Prepares invariant candidate
      (service.prepareGoverned env candidate tenantId approval draw) := by
  unfold Prepares PromotionService.prepareGoverned
  apply Triple.bind (Keeps.query _)
  intro refused
  cases refused with
  | some error => exact Triple.throw _ fun _ start => start
  | none =>
      apply Triple.bind (resolveMinimum_keeps _)
      intro minimum
      apply Triple.bind (Keeps.query _)
      intro policy
      apply Triple.bind (Keeps.query _)
      intro pipelineResult
      exact prepareDecided_prepares survives _ _ _ _ _

end Prepare

/-- What an approval is about to commit is a stored candidate. -/
theorem prepareApproval_settled (service : PromotionService)
    (candidateId tenantId : String) (approval : PromotionService.Approval)
    (draw : Draw) :
    Triple (Settled tenants)
      (service.prepareApproval env candidateId tenantId approval draw)
      (fun input store =>
        Stored tenants input.candidate ∧ Settled tenants store)
      (fun _ => Settled tenants) := by
  unfold PromotionService.prepareApproval
  apply Triple.bind (requireCandidate_triple candidateId tenantId)
  intro candidate
  have stored : ∀ store,
      (CandidateRepository.read store.candidates candidateId =
          .ok (some candidate) ∧
        candidate.tenantId = tenantId ∧ Settled tenants store) →
      Stored tenants candidate ∧ Settled tenants store := by
    rintro store ⟨isRead, -, holds⟩
    obtain ⟨row, isRow, -, parsed⟩ := CandidateRepository.read_eq_some isRead
    exact ⟨holds.stored_of_parse isRow parsed, holds⟩
  apply Triple.weaken _ stored (fun _ _ ended => ended) fun _ _ ended => ended
  apply Triple.assume
  intro ofTenant
  cases PromotionService.gateError env service candidate with
  | some error => exact Triple.throw _ fun _ start => start
  | none =>
      apply Triple.bind (passImportGate_keeps settled_survivesHolding _ _ _ _)
      intro _
      apply Triple.weaken
        (prepareGoverned_prepares settled_survivesHolding tenantId approval draw)
        (fun _ start => start) _ fun _ _ ended => ended
      rintro input store ⟨rfl, holds⟩
      exact ⟨ofTenant, holds⟩

/-- What an operation under way is about to promote is stored. -/
def DecisionStage.OfStored (tenants : List (String × String)) :
    DecisionStage → Prop
  | .commit _ _ input _ => Stored tenants input.candidate
  | .judge sweep => ∀ entry ∈ sweep.remaining, Stored tenants entry.1
  | .promote input _ rest =>
      Stored tenants input.candidate ∧
        ∀ entry ∈ rest.remaining, Stored tenants entry.1
  | .start _ | .mark _ _ => True

/-- What a stage leaves. -/
structure LeavesSettled (tenants : List (String × String))
    (outcome : Store × Option DecisionStage) : Prop where
  store : Settled tenants outcome.1
  next : ∀ stage ∈ outcome.2, stage.OfStored tenants

theorem Settled.ends {store : Store} (holds : Settled tenants store) :
    LeavesSettled tenants (store, none) :=
  ⟨holds, by simp⟩

theorem Settled.continues {store : Store} (holds : Settled tenants store)
    {stage : DecisionStage} (ofStored : stage.OfStored tenants) :
    LeavesSettled tenants (store, some stage) := by
  refine ⟨holds, ?_⟩
  intro next isNext
  cases isNext
  exact ofStored

theorem sweepOfInbox_stored {store : Store} (holds : Settled tenants store)
    (config : CuratorConfig) (draw : Nat → Draw) :
    ∀ entry ∈ (sweepOfInbox config draw store).remaining,
      Stored tenants entry.1 := by
  intro entry member
  obtain ⟨⟨candidate, index⟩, indexed, rfl⟩ := List.mem_map.mp member
  have found : candidate ∈ CandidateRepository.findByStatus store.candidates
      .inbox config.tenantId := List.fst_mem_of_mem_zipIdx indexed
  obtain ⟨row, selected, parsed⟩ := List.mem_filterMap.mp found
  apply holds.stored_of_parse (List.mem_filter.mp selected).1
  cases checked : row.candidate.parse with
  | error issue =>
      rw [checked] at parsed
      cases parsed
  | ok other =>
      rw [checked] at parsed
      cases parsed
      rfl

/-- One candidate of a sweep. -/
theorem judgeNext_settled {sweep : Sweep} {store : Store}
    (holds : Settled tenants store)
    (stored : ∀ entry ∈ sweep.remaining, Stored tenants entry.1) :
    LeavesSettled tenants (judgeNext env sweep store) := by
  cases isNext : sweep.remaining with
  | nil =>
      simp only [judgeNext, isNext]
      exact holds.ends
  | cons entry rest =>
      obtain ⟨candidate, draw⟩ := entry
      rw [isNext] at stored
      have ofCandidate := stored (candidate, draw) List.mem_cons_self
      have ofRest : ∀ entry ∈ rest, Stored tenants entry.1 :=
        fun entry member => stored entry (List.mem_cons_of_mem _ member)
      cases resolved : resolveCandidateMinimumSensitivity env candidate
          store.auditEvents with
      | error error =>
          simp only [judgeNext, isNext, resolved]
          exact holds.ends
      | ok minimum =>
          by_cases promotes : ∃ pipelineResult flags,
              curationDecision env sweep.config store candidate
                (some sweep.hashes) none minimum =
                  .promote pipelineResult flags
          · obtain ⟨pipelineResult, flags, decided⟩ := promotes
            rw [judgeNext_of_promoted isNext resolved decided]
            exact holds.continues ⟨ofCandidate, ofRest⟩
          · push Not at promotes
            rw [judgeNext_of_notPromoted isNext resolved promotes]
            have keeps : Keeps (Settled tenants)
                (carryOut env sweep.config sweep.meters candidate none minimum
                  draw (curationDecision env sweep.config store candidate
                    (some sweep.hashes) none minimum)) :=
              carryOut_keeps_of_notPromoted settled_survivesHolding promotes
            have kept := keeps.run store holds
            split
            · rename_i curated next carried
              rw [carried] at kept
              exact Settled.continues kept ofRest
            · rename_i error next carried
              rw [carried] at kept
              exact Settled.ends kept

/-- A stage that commits no rejected candidate settles nothing twice. -/
theorem advanceDecision_settled (stage : DecisionStage) (store : Store)
    (holds : Settled tenants store) (stored : stage.OfStored tenants)
    (undecided : stage.CommitsUndecided store) :
    LeavesSettled tenants (advanceDecision env store stage) := by
  cases stage with
  | start request =>
      cases request with
      | approve service candidateId tenantId approval draw =>
          have prepared := (@prepareApproval_settled env tenants service
            candidateId tenantId approval draw).run store holds
          dsimp only [advanceDecision]
          split
          · rename_i input next ended
            rw [ended] at prepared
            exact prepared.2.continues prepared.1
          · rename_i error next ended
            rw [ended] at prepared
            exact Settled.ends prepared
      | reject candidateId tenantId actor reason draw =>
          exact Settled.ends
            ((rejectCandidate_settled candidateId tenantId actor reason
              draw).finalState holds)
      | rejectReviewed input draw =>
          exact Settled.ends
            ((rejectReviewedCandidate_settled input draw).finalState holds)
      | sweep config draw =>
          exact holds.continues (sweepOfInbox_stored holds config draw)
  | commit service tenantId input draw =>
      have committed := @promote_settled env tenants input false
        service.withLinks draw.now store holds stored fun _ => undecided
      unfold finalState at committed
      dsimp only [advanceDecision]
      split
      · rename_i memory next ended
        rw [ended] at committed
        exact Settled.continues committed trivial
      · rename_i error next ended
        rw [ended] at committed
        exact Settled.ends committed
  | mark tenantId candidateId =>
      exact Settled.ends
        ((updateStatus_settled candidateId tenantId (by decide)).finalState
          holds)
  | judge sweep => exact judgeNext_settled holds stored
  | promote input draw rest =>
      have committed := @promote_settled env tenants input rest.config.dryRun
        rest.config.withLinks draw.now store holds stored.1 undecided
      unfold finalState at committed
      dsimp only [advanceDecision]
      split
      · rename_i memory next ended
        rw [ended] at committed
        exact Settled.continues committed stored.2
      · rename_i error next ended
        rw [ended] at committed
        exact Settled.ends committed

/-- Where every promotion commits a candidate that nobody has rejected, no
candidate of a memory is rejected, before it or after. -/
theorem decisions_final {store : Store}
    {labels : List (Label DecisionRequest)} (own : OwnCandidates store)
    (initially : DecisionsFinal store)
    (undecided : Always (decisionSystem env).step
      (System.Guarded DecisionStage.CommitsUndecided) (Config.idle store)
      labels) :
    DecisionsFinal
      (run (decisionSystem env).step (Config.idle store) labels).shared := by
  have settled : Settled (candidateTenants store)
      (run (decisionSystem env).step (Config.idle store) labels).shared := by
    apply System.invariant_of_guarded_stages _ _ _ _ undecided
    · exact DecisionStage.OfStored (candidateTenants store)
    · intro request shared stage _ started
      cases started
      trivial
    · intro stage shared holds stored permitted
      have leaves := @advanceDecision_settled env _ stage shared holds stored
        permitted
      exact ⟨leaves.store, leaves.next⟩
    · intro stage member
      cases member
    · exact ⟨initially, own, rfl⟩
  exact settled.decisions

def lunchCandidate : MemoryCandidate where
  id := "lunch"
  status := .inbox
  source := .mcp
  content := "Lunch is at noon."
  title := "Lunch"
  category := .convention
  trustLevel := .medium
  author := curatorActor
  tenantId := "team"
  metadata :=
    { filePaths := []
      language := none
      projectContext := none
      sessionId := none
      repoUrl := none
      branch := none
      confidence := none
      sensitivity := none
      tags := []
      subjects := none
      proposedByRole := none
      audience := none }
  prePolicyFlags :=
    { potentialSecret := false
      lowConfidence := false
      duplicateSuspect := false }
  capturedAt := "0"
  origin := none

def lunchStore : Store :=
  { Store.empty with
    candidates :=
      { rows :=
          [{ candidate := lunchCandidate
             contentHash := "Lunch is at noon."
             importBatchId := none }]
        coexist := List.pairwise_singleton _ _ } }

def approveLunch : DecisionRequest :=
  .approve
    { withLinks := false
      originSecret := none
      holdLimits :=
        { ttlDays := none
          maxActiveHolds := none } } "lunch" "team"
    { promotedBy := none
      promotionReason := none }
    { freshId := "approved"
      now := "2" }

def rejectLunch : DecisionRequest :=
  .reject "lunch" "team" curatorActor "Not a convention"
    { freshId := "rejected"
      now := "1" }

/-- The approval reads neither the status of its candidate nor the log: the
rejected candidate gets a memory. -/
theorem rejectedCandidate_promoted :
    OwnCandidates lunchStore ∧ DecisionsFinal lunchStore ∧
      ¬DecisionsFinal
        (run (decisionSystem plainEnvironment).step (Config.idle lunchStore)
          [.start rejectLunch, .advance 0, .start approveLunch, .advance 0,
            .advance 0, .advance 0]).shared := by
  decide +kernel

theorem decisions_final_approvalFirst :
    DecisionsFinal
      (run (decisionSystem plainEnvironment).step (Config.idle lunchStore)
        [.start approveLunch, .advance 0, .advance 0, .advance 0,
          .start rejectLunch, .advance 0]).shared := by
  apply decisions_final
  · decide +kernel
  · decide +kernel
  · decide +kernel

end Registrar
