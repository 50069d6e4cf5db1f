import Registrar.Curator.Hold

/-!
# The books of the holds

What holds leave behind, apart from everything else in the store: the statuses
of the candidates, the receipts of holds, and which candidates became memories.
Holds only ever make two kinds of step on these books, and the steps keep them
in order.
-/

namespace Registrar

def AuditEvent.OfHold (event : AuditEvent) : Prop :=
  event.action = .held ∨ event.action = .holdResolved

instance (event : AuditEvent) : Decidable event.OfHold :=
  inferInstanceAs (Decidable (_ ∨ _))

structure HoldView where
  candidates : CandidateTable
  receipts : List AuditEvent
  /-- The candidates of the stored memories. -/
  promoted : List String

def Store.holdView (store : Store) : HoldView where
  candidates := store.candidates
  receipts := (store.auditEvents.rows.map AuditRecord.event).filter (·.OfHold)
  promoted := store.curatedMemories.rows.map CuratedMemory.candidateId

namespace HoldView

def setStatus (view : HoldView) (id : String) (status : CandidateStatus)
    (tenantId : String) : HoldView :=
  { view with
    candidates := view.candidates.updateWhere
      (fun row => row.id = id && row.candidate.tenantId = tenantId)
      (CandidateRepository.CandidateRow.setStatus · status)
      (fun row _ => Eq.refl row.id) }

def record (view : HoldView) (event : AuditEvent) : HoldView :=
  { view with receipts := view.receipts ++ [event] }

def promote (view : HoldView) (candidateId : String) : HoldView :=
  { view with promoted := view.promoted ++ [candidateId] }

/-- A `held` receipt of the tenant whose candidate is on hold. -/
def isActive (view : HoldView) (tenantId : String) (held : AuditEvent) : Bool :=
  held.action = .held && held.tenantId.value = tenantId &&
    !(view.receipts.any fun event =>
      event.action = .holdResolved && event.tenantId.value = tenantId &&
        event.memoryId = held.memoryId) &&
    (CandidateRepository.findCandidateSafe view.candidates held.memoryId).any
      fun candidate =>
        candidate.tenantId = tenantId && candidate.status = holdStatus

def activeHolds (view : HoldView) (tenantId : String) : Nat :=
  view.receipts.countP (view.isActive tenantId)

end HoldView

/-- The status that a resolution leaves. -/
def HoldResolution.status : HoldResolution → CandidateStatus
  | .released => .promoted
  | .rejected => .rejected
  | .expired => .rejected

variable (env : Environment)

/-- What a hold is placed on. -/
structure Holdable (view : HoldView) (candidate : MemoryCandidate)
    (held : AuditEvent) (max : Nat) : Prop where
  stored : ∃ row ∈ view.candidates.rows, row.id = candidate.id ∧
    trim row.candidate.tenantId = candidate.tenantId ∧
      (row.candidate.status = .inbox ∨ row.candidate.status = .quarantined)
  action : held.action = .held
  memoryId : held.memoryId = candidate.id
  tenantId : held.tenantId.value = candidate.tenantId
  id : held.id = deriveAuditEventId env held.memoryId held.action.text ""
  fresh : held.id ∉ view.receipts.map AuditEvent.id
  unheld : ∀ event ∈ view.receipts, event.action = .held →
    event.memoryId = candidate.id → event.tenantId.value ≠ candidate.tenantId
  room : view.activeHolds candidate.tenantId < max

/-- How a receipt ends a hold. -/
structure Resolves (view : HoldView) (held event : AuditEvent)
    (resolution : HoldResolution) : Prop where
  recorded : held ∈ view.receipts
  ofHold : held.action = .held
  stored : ∀ row ∈ view.candidates.rows, row.id = held.memoryId →
    row.candidate.tenantId = held.tenantId.value
  action : event.action = .holdResolved
  memoryId : event.memoryId = held.memoryId
  tenantId : event.tenantId = held.tenantId
  id : event.id = deriveAuditEventId env event.memoryId event.action.text ""
  fresh : event.id ∉ view.receipts.map AuditEvent.id
  names : event.detailText "resolution" = some resolution.text
  inTime : resolution = .released →
    hasElapsed env ((held.detailText "expiresAt").getD "") event.timestamp =
      false

/-- A hold is placed, with its receipt. -/
def HoldView.place (view : HoldView) (candidate : MemoryCandidate)
    (held : AuditEvent) : HoldView :=
  (view.setStatus candidate.id holdStatus candidate.tenantId).record held

/-- A hold is resolved, with its receipt, and a release promotes. -/
def HoldView.resolve (view : HoldView) (held event : AuditEvent)
    (resolution : HoldResolution) : HoldView :=
  ((if resolution = .released then view.promote held.memoryId else view).setStatus
    held.memoryId resolution.status held.tenantId.value).record event

/-- How the books stand to a resolution. -/
structure Resolved (view : HoldView) (event : AuditEvent)
    (resolution : HoldResolution) : Prop where
  names : event.detailText "resolution" = some resolution.text
  status : ∀ row ∈ view.candidates.rows, row.id = event.memoryId →
    row.candidate.status = resolution.status
  promoted : event.memoryId ∈ view.promoted ↔ resolution = .released
  inTime : ∃ held ∈ view.receipts, held.action = .held ∧
    held.memoryId = event.memoryId ∧
      (resolution = .released →
        hasElapsed env ((held.detailText "expiresAt").getD "")
          event.timestamp = false)

structure HoldBooks (view : HoldView) : Prop where
  ids : ∀ event ∈ view.receipts,
    event.id = deriveAuditEventId env event.memoryId event.action.text ""
  distinct : (view.receipts.map AuditEvent.id).Nodup
  ofHold : ∀ event ∈ view.receipts, event.OfHold
  stored : ∀ event ∈ view.receipts, ∃ row ∈ view.candidates.rows,
    row.id = event.memoryId ∧
      trim row.candidate.tenantId = event.tenantId.value
  /-- Only a row whose tenant can be matched is quarantined. -/
  quarantined : ∀ row ∈ view.candidates.rows,
    row.candidate.status = .quarantined →
      trim row.candidate.tenantId = row.candidate.tenantId
  pending : ∀ row ∈ view.candidates.rows,
    row.candidate.status = .inbox ∨ row.candidate.status = .quarantined →
      row.id ∉ view.promoted
  unresolved : ∀ held ∈ view.receipts, held.action = .held →
    (∀ event ∈ view.receipts, event.action = .holdResolved →
      event.memoryId ≠ held.memoryId) → held.memoryId ∉ view.promoted
  resolved : ∀ event ∈ view.receipts, event.action = .holdResolved →
    ∃ resolution, Resolved env view event resolution

variable {env}

section Rows

variable {view : HoldView} {id tenantId : String} {status : CandidateStatus}
variable {row : CandidateRow}

theorem HoldView.mem_setStatus_iff :
    row ∈ (view.setStatus id status tenantId).candidates.rows ↔
      (∃ old ∈ view.candidates.rows,
        old.id = id ∧ old.candidate.tenantId = tenantId ∧
          row = CandidateRepository.CandidateRow.setStatus old status) ∨
        row ∈ view.candidates.rows ∧
          ¬(row.id = id ∧ row.candidate.tenantId = tenantId) := by
  simp only [HoldView.setStatus, Table.updateWhere, List.mem_map,
    Bool.and_eq_true, decide_eq_true_eq]
  constructor
  · rintro ⟨old, member, rfl⟩
    by_cases selected : old.id = id ∧ old.candidate.tenantId = tenantId
    · rw [if_pos selected]
      exact .inl ⟨old, member, selected.1, selected.2, rfl⟩
    · rw [if_neg selected]
      exact .inr ⟨member, selected⟩
  · rintro (⟨old, member, isId, ofTenant, rfl⟩ | ⟨member, other⟩)
    · exact ⟨old, member, if_pos ⟨isId, ofTenant⟩⟩
    · exact ⟨row, member, if_neg other⟩

theorem HoldView.exists_setStatus
    (member : row ∈ view.candidates.rows) :
    ∃ new ∈ (view.setStatus id status tenantId).candidates.rows,
      new.id = row.id ∧ new.candidate.tenantId = row.candidate.tenantId := by
  by_cases selected : row.id = id ∧ row.candidate.tenantId = tenantId
  · exact ⟨_, mem_setStatus_iff.mpr
      (.inl ⟨row, member, selected.1, selected.2, rfl⟩), rfl, rfl⟩
  · exact ⟨row, mem_setStatus_iff.mpr (.inr ⟨member, selected⟩), rfl, rfl⟩

end Rows

section Steps

variable {view : HoldView} {candidate : MemoryCandidate}
variable {held event : AuditEvent} {max : Nat} {resolution : HoldResolution}

theorem HoldBooks.eq_of_memoryId (books : HoldBooks env view)
    {left right : AuditEvent} (leftMember : left ∈ view.receipts)
    (rightMember : right ∈ view.receipts)
    (sameAction : left.action = right.action)
    (sameMemory : left.memoryId = right.memoryId) : left = right := by
  apply List.inj_on_of_nodup_map books.distinct leftMember rightMember
  rw [books.ids left leftMember, books.ids right rightMember, sameAction,
    sameMemory]

theorem Holdable.memoryId_ne (books : HoldBooks env view)
    (holdable : Holdable env view candidate held max)
    (member : event ∈ view.receipts) (ofHold : event.action = .held) :
    event.memoryId ≠ candidate.id := by
  intro same
  obtain ⟨row, rowMember, rowId, rowTenant, -⟩ := holdable.stored
  obtain ⟨other, otherMember, otherId, otherTenant⟩ := books.stored event member
  have isRow : other = row := by
    apply Table.eq_of_key_eq otherMember rowMember
    rw [otherId, same, rowId]
  rw [isRow, rowTenant] at otherTenant
  exact holdable.unheld event member ofHold same otherTenant.symm

theorem Holdable.resolved_ne (books : HoldBooks env view)
    (holdable : Holdable env view candidate held max)
    (member : event ∈ view.receipts) (isResolved : event.action = .holdResolved) :
    event.memoryId ≠ candidate.id := by
  obtain ⟨resolution, ends⟩ := books.resolved event member isResolved
  obtain ⟨first, firstMember, ofHold, same, -⟩ := ends.inTime
  rw [← same]
  exact Holdable.memoryId_ne books holdable firstMember ofHold

theorem HoldBooks.distinct_record (books : HoldBooks env view)
    (fresh : event.id ∉ view.receipts.map AuditEvent.id) :
    ((view.receipts ++ [event]).map AuditEvent.id).Nodup := by
  rw [List.map_append, List.nodup_append]
  refine ⟨books.distinct, List.nodup_singleton _, ?_⟩
  intro used usedMember new newMember same
  rw [List.map_singleton, List.mem_singleton] at newMember
  rw [same, newMember] at usedMember
  exact fresh usedMember

/-- Placing a hold keeps the books in order. -/
theorem HoldBooks.place (books : HoldBooks env view)
    (holdable : Holdable env view candidate held max) :
    HoldBooks env (view.place candidate held) := by
  obtain ⟨row, rowMember, rowId, rowTenant, rowOpen⟩ := holdable.stored
  constructor
  · intro event member
    rcases List.mem_append.mp member with old | new
    · exact books.ids event old
    · rw [List.mem_singleton.mp new]
      exact holdable.id
  · exact books.distinct_record holdable.fresh
  · intro event member
    rcases List.mem_append.mp member with old | new
    · exact books.ofHold event old
    · rw [List.mem_singleton.mp new]
      exact .inl holdable.action
  · intro event member
    have inView : ∃ row ∈ view.candidates.rows, row.id = event.memoryId ∧
        trim row.candidate.tenantId = event.tenantId.value := by
      rcases List.mem_append.mp member with old | new
      · exact books.stored event old
      · rw [List.mem_singleton.mp new, holdable.memoryId, holdable.tenantId]
        exact ⟨row, rowMember, rowId, rowTenant⟩
    obtain ⟨other, otherMember, isId, isTenant⟩ := inView
    obtain ⟨new, newMember, newId, newTenant⟩ :=
      HoldView.exists_setStatus otherMember
    exact ⟨new, newMember, newId.trans isId, by rw [newTenant, isTenant]⟩
  · intro new member status
    rcases HoldView.mem_setStatus_iff.mp member with
      ⟨old, oldMember, oldId, oldTenant, rfl⟩ | ⟨oldMember, -⟩
    · have isRow : old = row :=
        Table.eq_of_key_eq oldMember rowMember (oldId.trans rowId.symm)
      have matched : row.candidate.tenantId = candidate.tenantId := by
        rw [← isRow, oldTenant]
      subst isRow
      exact rowTenant.trans matched.symm
    · exact books.quarantined new oldMember status
  · intro new member status
    rcases HoldView.mem_setStatus_iff.mp member with
      ⟨old, oldMember, oldId, -, rfl⟩ | ⟨oldMember, -⟩
    · have isRow : old = row :=
        Table.eq_of_key_eq oldMember rowMember (oldId.trans rowId.symm)
      subst isRow
      exact books.pending old oldMember rowOpen
    · exact books.pending new oldMember status
  · intro event member ofHold unresolved
    rcases List.mem_append.mp member with old | new
    · apply books.unresolved event old ofHold
      intro other otherMember
      exact unresolved other (List.mem_append_left _ otherMember)
    · rw [List.mem_singleton.mp new, holdable.memoryId, ← rowId]
      exact books.pending row rowMember rowOpen
  · intro event member isResolved
    have old : event ∈ view.receipts := by
      rcases List.mem_append.mp member with old | new
      · exact old
      · rw [List.mem_singleton.mp new, holdable.action] at isResolved
        cases isResolved
    obtain ⟨resolution, ends⟩ := books.resolved event old isResolved
    have other := Holdable.resolved_ne books holdable old isResolved
    refine ⟨resolution, ends.names, ?_, ends.promoted, ?_⟩
    · intro new newMember newId
      rcases HoldView.mem_setStatus_iff.mp newMember with
        ⟨stored, -, storedId, -, rfl⟩ | ⟨oldMember, -⟩
      · exact absurd (newId.symm.trans storedId) other
      · exact ends.status new oldMember newId
    · obtain ⟨first, firstMember, rest⟩ := ends.inTime
      exact ⟨first, List.mem_append_left _ firstMember, rest⟩

theorem Resolves.unresolved (books : HoldBooks env view)
    (resolves : Resolves env view held event resolution)
    {other : AuditEvent} (member : other ∈ view.receipts)
    (isResolved : other.action = .holdResolved) :
    other.memoryId ≠ held.memoryId := by
  intro same
  apply resolves.fresh
  rw [resolves.id, resolves.action, resolves.memoryId, ← same, ← isResolved,
    ← books.ids other member]
  exact List.mem_map_of_mem member

theorem HoldView.resolve_candidates :
    (view.resolve held event resolution).candidates =
      (view.setStatus held.memoryId resolution.status
        held.tenantId.value).candidates := by
  unfold HoldView.resolve
  split_ifs <;> rfl

theorem HoldView.resolve_receipts :
    (view.resolve held event resolution).receipts =
      view.receipts ++ [event] := by
  unfold HoldView.resolve
  split_ifs <;> rfl

theorem HoldView.mem_resolve_promoted {candidateId : String} :
    candidateId ∈ (view.resolve held event resolution).promoted ↔
      candidateId ∈ view.promoted ∨
        resolution = .released ∧ candidateId = held.memoryId := by
  unfold HoldView.resolve
  split_ifs with released
  · simp [HoldView.record, HoldView.setStatus, HoldView.promote, released]
  · simp [HoldView.record, HoldView.setStatus, released]

theorem HoldResolution.status_closed (resolution : HoldResolution) :
    resolution.status ≠ .inbox ∧ resolution.status ≠ .quarantined := by
  cases resolution <;> simp [HoldResolution.status]

/-- Resolving a hold keeps the books in order. -/
theorem HoldBooks.resolve (books : HoldBooks env view)
    (resolves : Resolves env view held event resolution) :
    HoldBooks env (view.resolve held event resolution) := by
  obtain ⟨row, rowMember, rowId, rowTenant⟩ :=
    books.stored held resolves.recorded
  have unresolved {other : AuditEvent} (member : other ∈ view.receipts)
      (isResolved : other.action = .holdResolved) :=
    Resolves.unresolved books resolves member isResolved
  have unpromoted : held.memoryId ∉ view.promoted :=
    books.unresolved held resolves.recorded resolves.ofHold
      fun other member isResolved => unresolved member isResolved
  have rows {new : CandidateRow}
      (member : new ∈
        (view.resolve held event resolution).candidates.rows) :
      new.id = held.memoryId ∧ new.candidate.status = resolution.status ∨
        new ∈ view.candidates.rows ∧ new.id ≠ held.memoryId := by
    rw [HoldView.resolve_candidates] at member
    rcases HoldView.mem_setStatus_iff.mp member with
      ⟨old, -, oldId, -, rfl⟩ | ⟨oldMember, other⟩
    · exact .inl ⟨oldId, rfl⟩
    · refine .inr ⟨oldMember, fun same => other ⟨same, ?_⟩⟩
      exact resolves.stored new oldMember same
  have receipts {other : AuditEvent}
      (member : other ∈ (view.resolve held event resolution).receipts) :
      other ∈ view.receipts ∨ other = event := by
    rw [HoldView.resolve_receipts] at member
    simpa using member
  have recorded : event ∈ (view.resolve held event resolution).receipts := by
    rw [HoldView.resolve_receipts]
    exact List.mem_append_right _ List.mem_cons_self
  have keeps {other : AuditEvent} (member : other ∈ view.receipts) :
      other ∈ (view.resolve held event resolution).receipts := by
    rw [HoldView.resolve_receipts]
    exact List.mem_append_left _ member
  constructor
  · intro other member
    rcases receipts member with old | rfl
    · exact books.ids other old
    · exact resolves.id
  · rw [HoldView.resolve_receipts]
    exact books.distinct_record resolves.fresh
  · intro other member
    rcases receipts member with old | rfl
    · exact books.ofHold other old
    · exact .inr resolves.action
  · intro other member
    have inView : ∃ row ∈ view.candidates.rows, row.id = other.memoryId ∧
        trim row.candidate.tenantId = other.tenantId.value := by
      rcases receipts member with old | rfl
      · exact books.stored other old
      · rw [resolves.memoryId, resolves.tenantId]
        exact ⟨row, rowMember, rowId, rowTenant⟩
    obtain ⟨stored, storedMember, isId, isTenant⟩ := inView
    rw [HoldView.resolve_candidates]
    obtain ⟨new, newMember, newId, newTenant⟩ :=
      HoldView.exists_setStatus storedMember
    exact ⟨new, newMember, newId.trans isId, by rw [newTenant, isTenant]⟩
  · intro new member status
    rcases rows member with ⟨-, closed⟩ | ⟨oldMember, -⟩
    · exact absurd (closed.symm.trans status) resolution.status_closed.2
    · exact books.quarantined new oldMember status
  · intro new member status inPromoted
    rcases rows member with ⟨-, closed⟩ | ⟨oldMember, other⟩
    · rw [closed] at status
      exact status.elim resolution.status_closed.1 resolution.status_closed.2
    · rcases HoldView.mem_resolve_promoted.mp inPromoted with
        old | ⟨-, same⟩
      · exact books.pending new oldMember status old
      · exact other same
  · intro other member ofHold noResolution inPromoted
    have old : other ∈ view.receipts := by
      rcases receipts member with old | rfl
      · exact old
      · rw [resolves.action] at ofHold
        cases ofHold
    have notThis : other.memoryId ≠ held.memoryId := by
      intro same
      apply noResolution event recorded resolves.action
      rw [resolves.memoryId, same]
    rcases HoldView.mem_resolve_promoted.mp inPromoted with before | ⟨-, same⟩
    · exact books.unresolved other old ofHold
        (fun event inside => noResolution event (keeps inside)) before
    · exact notThis same
  · intro other member isResolved
    rcases receipts member with old | rfl
    · obtain ⟨earlier, ends⟩ := books.resolved other old isResolved
      have notThis := unresolved old isResolved
      refine ⟨earlier, ends.names, ?_, ?_, ?_⟩
      · intro new newMember newId
        rcases rows newMember with ⟨same, -⟩ | ⟨oldMember, -⟩
        · exact absurd (newId.symm.trans same) notThis
        · exact ends.status new oldMember newId
      · rw [HoldView.mem_resolve_promoted, ← ends.promoted]
        simp [notThis]
      · obtain ⟨first, firstMember, rest⟩ := ends.inTime
        exact ⟨first, keeps firstMember, rest⟩
    · refine ⟨resolution, resolves.names, ?_, ?_, ?_⟩
      · intro new newMember newId
        rw [resolves.memoryId] at newId
        rcases rows newMember with ⟨-, closed⟩ | ⟨-, notThis⟩
        · exact closed
        · exact absurd newId notThis
      · rw [HoldView.mem_resolve_promoted, resolves.memoryId]
        simp [unpromoted]
      · exact ⟨held, keeps resolves.recorded, resolves.ofHold,
          resolves.memoryId.symm, resolves.inTime⟩

/-- Before the first hold the books are in order, if the candidates that wait
have no memory and those in quarantine have a trimmed tenant. -/
theorem holdBooks_of_unheld (unheld : view.receipts = [])
    (quarantined : ∀ row ∈ view.candidates.rows,
      row.candidate.status = .quarantined →
        trim row.candidate.tenantId = row.candidate.tenantId)
    (pending : ∀ row ∈ view.candidates.rows,
      row.candidate.status = .inbox ∨ row.candidate.status = .quarantined →
        row.id ∉ view.promoted) :
    HoldBooks env view := by
  constructor <;> try simp [unheld]
  · exact quarantined
  · exact pending

theorem HoldView.find?_setStatus {id tenantId wanted : String}
    {status : CandidateStatus} :
    (view.setStatus id status tenantId).candidates.find? wanted =
      (view.candidates.find? wanted).map fun row =>
        if (row.id = id && row.candidate.tenantId = tenantId) = true then
          CandidateRepository.CandidateRow.setStatus row status
        else row :=
  @Table.find?_updateWhere _ _ CandidateRow.id _ view.candidates
    (fun row => row.id = id && row.candidate.tenantId = tenantId)
    (CandidateRepository.CandidateRow.setStatus · status) (fun _ _ => rfl)
    wanted

theorem HoldView.findCandidateSafe_setStatus_of_ne
    {id tenantId wanted : String} {status : CandidateStatus}
    (other : wanted ≠ id) :
    CandidateRepository.findCandidateSafe
        (view.setStatus id status tenantId).candidates wanted =
      CandidateRepository.findCandidateSafe view.candidates wanted := by
  have same : (view.setStatus id status tenantId).candidates.find? wanted =
      view.candidates.find? wanted := by
    rw [HoldView.find?_setStatus]
    cases found : view.candidates.find? wanted with
    | none => rfl
    | some row =>
        have isWanted := (Table.find?_eq_some_iff.mp found).2
        have unselected : ¬row.id = id := by
          rw [isWanted]
          exact other
        simp [unselected]
  unfold CandidateRepository.findCandidateSafe CandidateRepository.read
  rw [same]

theorem findCandidateSafe_eq_some {table : CandidateTable} {id : String}
    (found : CandidateRepository.findCandidateSafe table id =
      some candidate) :
    ∃ row ∈ table.rows, row.id = id ∧ row.candidate.parse = .ok candidate := by
  unfold CandidateRepository.findCandidateSafe CandidateRepository.read at found
  cases stored : table.find? id with
  | none =>
      rw [stored] at found
      cases found
  | some row =>
      obtain ⟨member, isId⟩ := Table.find?_eq_some_iff.mp stored
      rw [stored, Option.mapM_some] at found
      cases parsed : row.candidate.parse with
      | error issue =>
          rw [parsed] at found
          cases found
      | ok read =>
          rw [parsed] at found
          cases found
          exact ⟨row, member, isId, parsed⟩

/-- Placing a hold adds at most one active hold, to the candidate's tenant. -/
theorem activeHolds_place_le (books : HoldBooks env view)
    (holdable : Holdable env view candidate held max) (tenantId : String) :
    (view.place candidate held).activeHolds tenantId ≤
      view.activeHolds tenantId +
        if tenantId = candidate.tenantId then 1 else 0 := by
  have stays : ∀ event ∈ view.receipts,
      (view.place candidate held).isActive tenantId event = true →
        view.isActive tenantId event = true := by
    intro event member active
    simp only [HoldView.isActive, Bool.and_eq_true, decide_eq_true_eq]
      at active ⊢
    obtain ⟨⟨⟨ofHold, ofTenant⟩, unresolved⟩, onHold⟩ := active
    have other := Holdable.memoryId_ne books holdable member ofHold
    refine ⟨⟨⟨ofHold, ofTenant⟩, ?_⟩, ?_⟩
    · rw [Bool.not_eq_true', List.any_eq_false] at unresolved ⊢
      intro event inside
      exact unresolved event (List.mem_append_left _ inside)
    · rw [← onHold]
      congr 1
      exact (HoldView.findCandidateSafe_setStatus_of_ne other).symm
  have ofNew : (view.place candidate held).isActive tenantId held = true →
      tenantId = candidate.tenantId := by
    intro active
    simp only [HoldView.isActive, Bool.and_eq_true, decide_eq_true_eq] at active
    rw [← active.1.1.2, holdable.tenantId]
  have old := List.countP_mono_left stays
  unfold HoldView.activeHolds
  have split : (view.place candidate held).receipts =
      view.receipts ++ [held] := rfl
  rw [split, List.countP_append, List.countP_singleton]
  split_ifs with active elsewhere
  · omega
  · exact absurd (ofNew active) elsewhere
  · omega
  · omega

/-- Resolving a hold adds no active hold. -/
theorem activeHolds_resolve_le
    (resolves : Resolves env view held event resolution) (tenantId : String) :
    (view.resolve held event resolution).activeHolds tenantId ≤
      view.activeHolds tenantId := by
  have stays : ∀ other ∈ view.receipts,
      (view.resolve held event resolution).isActive tenantId other = true →
        view.isActive tenantId other = true := by
    intro other member active
    simp only [HoldView.isActive, Bool.and_eq_true, decide_eq_true_eq]
      at active ⊢
    obtain ⟨⟨⟨ofHold, ofTenant⟩, unresolved⟩, onHold⟩ := active
    rw [HoldView.resolve_candidates] at onHold
    refine ⟨⟨⟨ofHold, ofTenant⟩, ?_⟩, ?_⟩
    · rw [Bool.not_eq_true', List.any_eq_false] at unresolved ⊢
      intro event inside
      apply unresolved event
      rw [HoldView.resolve_receipts]
      exact List.mem_append_left _ inside
    · by_cases same : other.memoryId = held.memoryId
      · exfalso
        rw [Option.any_eq_true] at onHold
        obtain ⟨candidate, found, matched⟩ := onHold
        obtain ⟨row, rowMember, rowId, parsed⟩ := findCandidateSafe_eq_some found
        rw [Bool.and_eq_true, decide_eq_true_eq, decide_eq_true_eq] at matched
        have status : row.candidate.status = holdStatus := by
          rw [← matched.2, MemoryCandidate.parse_eq_ok parsed]
        rcases HoldView.mem_setStatus_iff.mp rowMember with
          ⟨old, -, -, -, rfl⟩ | ⟨oldMember, unselected⟩
        · exact resolution.status_closed.2 status
        · apply unselected
          have isId := rowId.trans same
          exact ⟨isId, resolves.stored row oldMember isId⟩
      · rw [HoldView.findCandidateSafe_setStatus_of_ne same] at onHold
        exact onHold
  have ofEvent : (view.resolve held event resolution).isActive tenantId event =
      false := by
    simp [HoldView.isActive, resolves.action]
  have old := List.countP_mono_left stays
  unfold HoldView.activeHolds
  rw [HoldView.resolve_receipts, List.countP_append, List.countP_singleton,
    ofEvent]
  simpa using old

end Steps

variable (env)

/-- All that holds do to the books. -/
inductive HoldMove (cap : String → Nat) (view : HoldView) : HoldView → Prop
    where
  | stay : HoldMove cap view view
  | place {candidate : MemoryCandidate} {held : AuditEvent} {max : Nat}
      (holdable : Holdable env view candidate held max)
      (atMost : max ≤ cap candidate.tenantId) :
      HoldMove cap view (view.place candidate held)
  | resolve {held event : AuditEvent} {resolution : HoldResolution}
      (resolves : Resolves env view held event resolution) :
      HoldMove cap view (view.resolve held event resolution)

variable {env}

/-- The hold was read off the books. -/
def HoldOf (view : HoldView) (hold : ActiveHold) : Prop :=
  ∃ held ∈ view.receipts, held.action = .held ∧
    held.memoryId = hold.candidateId ∧ held.tenantId.value = hold.tenantId ∧
    (held.detailText "expiresAt").getD "" = hold.expiresAt ∧
    ∀ row ∈ view.candidates.rows, row.id = hold.candidateId →
      row.candidate.tenantId = hold.tenantId

section Moves

variable {cap : String → Nat} {view next : HoldView}

theorem HoldMove.books (move : HoldMove env cap view next)
    (books : HoldBooks env view) : HoldBooks env next := by
  cases move with
  | stay => exact books
  | place holdable => exact books.place holdable
  | resolve resolves => exact books.resolve resolves

theorem HoldMove.capped (move : HoldMove env cap view next)
    (books : HoldBooks env view)
    (capped : ∀ tenantId, view.activeHolds tenantId ≤ cap tenantId)
    (tenantId : String) : next.activeHolds tenantId ≤ cap tenantId := by
  have before := capped tenantId
  cases move with
  | stay => exact before
  | @place candidate _ _ holdable atMost =>
      have added := activeHolds_place_le books holdable tenantId
      split_ifs at added with ofTenant
      · have room := holdable.room
        rw [← ofTenant] at room atMost
        omega
      · omega
  | resolve resolves =>
      exact (activeHolds_resolve_le resolves tenantId).trans before

/-- Receipts stay, and rows keep their ids and tenants. -/
theorem HoldMove.continues (move : HoldMove env cap view next) :
    (∀ event ∈ view.receipts, event ∈ next.receipts) ∧
      ∀ new ∈ next.candidates.rows, ∃ old ∈ view.candidates.rows,
        old.id = new.id ∧
          old.candidate.tenantId = new.candidate.tenantId := by
  have rows {id tenantId : String} {status : CandidateStatus}
      {new : CandidateRow}
      (member : new ∈ (view.setStatus id status tenantId).candidates.rows) :
      ∃ old ∈ view.candidates.rows, old.id = new.id ∧
        old.candidate.tenantId = new.candidate.tenantId := by
    rcases HoldView.mem_setStatus_iff.mp member with
      ⟨old, oldMember, -, -, rfl⟩ | ⟨oldMember, -⟩
    · exact ⟨old, oldMember, rfl, rfl⟩
    · exact ⟨new, oldMember, rfl, rfl⟩
  cases move with
  | stay =>
      exact ⟨fun _ member => member, fun new member =>
        ⟨new, member, rfl, rfl⟩⟩
  | place holdable =>
      exact ⟨fun _ member => List.mem_append_left _ member,
        fun _ member => rows member⟩
  | resolve resolves =>
      rw [HoldView.resolve_candidates, HoldView.resolve_receipts]
      exact ⟨fun _ member => List.mem_append_left _ member,
        fun _ member => rows member⟩

theorem HoldMove.holdOf (move : HoldMove env cap view next)
    {hold : ActiveHold} (isHold : HoldOf view hold) : HoldOf next hold := by
  obtain ⟨receiptsStay, rowsStay⟩ := move.continues
  obtain ⟨held, member, ofHold, sameId, sameTenant, expiry, stored⟩ := isHold
  refine ⟨held, receiptsStay held member, ofHold, sameId, sameTenant, expiry,
    ?_⟩
  intro row rowMember rowId
  obtain ⟨old, oldMember, oldId, oldTenant⟩ := rowsStay row rowMember
  rw [← oldTenant]
  exact stored old oldMember (oldId.trans rowId)

end Moves

end Registrar
