import Registrar.Library.StableSort
import Registrar.Store.Store

/-!
# Replaying the log

The lifecycle receipts of a memory, read in the order of the log, say which
state it is in and by what it was replaced.
-/

namespace Registrar

open Program

/-- A lifecycle and, for a superseded memory, the id of its replacement. -/
structure LifecycleRecord where
  lifecycle : MemoryLifecycleState
  replacement : Option String
  deriving DecidableEq, Repr

def CuratedMemory.lifecycleRecord (memory : CuratedMemory) :
    LifecycleRecord where
  lifecycle := memory.lifecycle
  replacement :=
    if memory.lifecycle = .superseded then
      memory.supersession.map SupersessionLink.supersededBy
    else none

/-- The state that a receipt leaves its memory in. -/
def receiptRecord (event : AuditEvent) : Option LifecycleRecord :=
  match event.action with
  | .promoted =>
      some
        { lifecycle := .active
          replacement := none }
  | .demoted =>
      some
        { lifecycle := .deprecated
          replacement := none }
  | .archived =>
      some
        { lifecycle := .archived
          replacement := none }
  | .superseded =>
      some
        { lifecycle := .superseded
          replacement := (event.detailText "newMemoryId").or
            (event.detailText "supersededBy") }
  | _ => none

def replayReceipt (state : Option LifecycleRecord) (event : AuditEvent) :
    Option LifecycleRecord :=
  (receiptRecord event).or state

/-- The receipts of a memory in the order of the log. -/
def receiptsOf (log : AuditLog) (memoryId : String) : List AuditEvent :=
  ((AuditRepository.chronological log).map AuditRecord.event).filter
    (·.memoryId = memoryId)

def replayLifecycle (log : AuditLog) (memoryId : String) :
    Option LifecycleRecord :=
  (receiptsOf log memoryId).foldl replayReceipt none

/-- The receipt of a promotion.  A reactivation has one of the same action, which
names the state it leads to. -/
def IsPromotion (event : AuditEvent) : Prop :=
  event.action = .promoted ∧ event.detailText "to" = none

instance (event : AuditEvent) : Decidable (IsPromotion event) :=
  inferInstanceAs (Decidable (_ ∧ _))

def promotionCount (log : AuditLog) (memoryId : String) : Nat :=
  (receiptsOf log memoryId).countP fun event => IsPromotion event

/-- The log has one promotion of the memory, and replaying it gives the state
that is stored. -/
def Explained (log : AuditLog) (memory : CuratedMemory) : Prop :=
  promotionCount log memory.id = 1 ∧
    replayLifecycle log memory.id = some memory.lifecycleRecord

instance (log : AuditLog) (memory : CuratedMemory) :
    Decidable (Explained log memory) :=
  inferInstanceAs (Decidable (_ ∧ _))

/-- The log explains every memory. -/
def LogExplains (store : Store) : Prop :=
  ∀ memory ∈ store.curatedMemories.rows, Explained store.auditEvents memory

instance (store : Store) : Decidable (LogExplains store) :=
  inferInstanceAs (Decidable (∀ memory ∈ _, _))

/-- What was promoted is stored. -/
def PromotionsStored (store : Store) : Prop :=
  ∀ memoryId, (∀ memory ∈ store.curatedMemories.rows, memory.id ≠ memoryId) →
    promotionCount store.auditEvents memoryId = 0

section Append

variable {env : Environment} {log next : AuditLog} {event : AuditEvent}

theorem chronological_insert
    (inserted : log.insert? (appendedRecord env log event) = some next) :
    AuditRepository.chronological next =
      AuditRepository.chronological log ++ [appendedRecord env log event] := by
  obtain ⟨accepted, rows⟩ := Table.insert?_eq_some_iff.mp inserted
  unfold AuditRepository.chronological
  rw [rows]
  apply StableSort.insertionSort_append_singleton
  intro record member
  have coexist : ∀ other ∈ log.rows.map AuditRecord.columns,
      AuditRowsCoexist other
        (appendedRow env.sha256 (log.rows.map AuditRecord.columns)
          (appendParams event.raw)) := by
    intro other isOther
    obtain ⟨old, isOld, isColumns⟩ := List.mem_map.mp isOther
    rw [← isColumns, ← appendedRecord_columns]
    exact accepted old isOld
  cases stored : record.seq with
  | none => simp [seqAtMost]
  | some value =>
      have before := seq_lt_nextSeq coexist (List.mem_map_of_mem member) stored
      simp only [seqAtMost, appendedRecord, appendedRow, decide_eq_true_eq]
      exact before.le

theorem receiptsOf_insert
    (inserted : log.insert? (appendedRecord env log event) = some next)
    (memoryId : String) :
    receiptsOf next memoryId =
      if event.memoryId = memoryId then receiptsOf log memoryId ++ [event]
      else receiptsOf log memoryId := by
  unfold receiptsOf
  rw [chronological_insert inserted, List.map_append, List.filter_append]
  by_cases own : event.memoryId = memoryId
  · rw [if_pos own]
    simp [appendedRecord, own]
  · rw [if_neg own]
    simp [appendedRecord, own]

theorem replayLifecycle_insert
    (inserted : log.insert? (appendedRecord env log event) = some next)
    (memoryId : String) :
    replayLifecycle next memoryId =
      if event.memoryId = memoryId then
        replayReceipt (replayLifecycle log memoryId) event
      else replayLifecycle log memoryId := by
  unfold replayLifecycle
  rw [receiptsOf_insert inserted]
  split_ifs
  · rw [List.foldl_append]
    rfl
  · rfl

theorem promotionCount_insert
    (inserted : log.insert? (appendedRecord env log event) = some next)
    (memoryId : String) :
    promotionCount next memoryId =
      promotionCount log memoryId +
        if event.memoryId = memoryId ∧ IsPromotion event then 1 else 0 := by
  unfold promotionCount
  rw [receiptsOf_insert inserted]
  by_cases own : event.memoryId = memoryId
  · rw [if_pos own, List.countP_append]
    by_cases promotes : IsPromotion event <;> simp [own, promotes]
  · rw [if_neg own, if_neg (fun both => own both.1), Nat.add_zero]

end Append

/-- The log explains every memory but one, which is in this state and has this
many promotions. -/
structure OutOfStep (id : String) (record : LifecycleRecord) (count : Nat)
    (store : Store) : Prop where
  others : ∀ memory ∈ store.curatedMemories.rows, memory.id ≠ id →
    Explained store.auditEvents memory
  own : ∀ memory ∈ store.curatedMemories.rows, memory.id = id →
    memory.lifecycleRecord = record
  present : ∃ memory ∈ store.curatedMemories.rows, memory.id = id
  promotions : promotionCount store.auditEvents id = count
  stored : PromotionsStored store

/-- The log explains every memory and has no promotion of any other. -/
structure Accounted (store : Store) : Prop where
  explains : LogExplains store
  stored : PromotionsStored store

section Steps

variable {env : Environment} {store : Store} {event : AuditEvent}
variable {log : AuditLog}

theorem PromotionsStored.append (stored : PromotionsStored store)
    (inserted : store.auditEvents.insert?
      (appendedRecord env store.auditEvents event) = some log)
    (promoted : IsPromotion event →
      ∃ memory ∈ store.curatedMemories.rows, memory.id = event.memoryId) :
    PromotionsStored { store with auditEvents := log } := by
  intro memoryId absent
  rw [promotionCount_insert inserted, stored memoryId absent, Nat.zero_add]
  apply if_neg
  rintro ⟨own, promotes⟩
  obtain ⟨memory, member, same⟩ := promoted promotes
  exact absent memory member (same.trans own)

theorem Explained.append {memory : CuratedMemory}
    (explained : Explained store.auditEvents memory)
    (inserted : store.auditEvents.insert?
      (appendedRecord env store.auditEvents event) = some log)
    (agrees : event.memoryId = memory.id → ¬IsPromotion event ∧
      ∀ record ∈ receiptRecord event, record = memory.lifecycleRecord) :
    Explained log memory := by
  unfold Explained
  rw [promotionCount_insert inserted, replayLifecycle_insert inserted]
  by_cases own : event.memoryId = memory.id
  · obtain ⟨notPromotion, same⟩ := agrees own
    rw [if_pos own, if_neg (fun both => notPromotion both.2)]
    refine ⟨explained.1, ?_⟩
    cases tells : receiptRecord event with
    | none =>
        rw [replayReceipt, tells]
        exact explained.2
    | some record =>
        rw [replayReceipt, tells, same record tells]
        rfl
  · rw [if_neg own, if_neg (fun both => own both.1)]
    exact explained

/-- A receipt that tells nothing new leaves the log in step with the
memories. -/
theorem Accounted.append (holds : Accounted store)
    (inserted : store.auditEvents.insert?
      (appendedRecord env store.auditEvents event) = some log)
    (notPromotion : ¬IsPromotion event)
    (agrees : ∀ memory ∈ store.curatedMemories.rows,
      event.memoryId = memory.id →
        ∀ record ∈ receiptRecord event, record = memory.lifecycleRecord) :
    Accounted { store with auditEvents := log } where
  explains := fun memory member =>
    (holds.explains memory member).append inserted fun own =>
      ⟨notPromotion, agrees memory member own⟩
  stored := holds.stored.append inserted fun promotes =>
    absurd promotes notPromotion

/-- The receipt of the change brings the log back into step. -/
theorem OutOfStep.append {id : String} {record : LifecycleRecord} {count : Nat}
    (outOfStep : OutOfStep id record count store)
    (inserted : store.auditEvents.insert?
      (appendedRecord env store.auditEvents event) = some log)
    (own : event.memoryId = id) (tells : receiptRecord event = some record)
    (once : count + (if IsPromotion event then 1 else 0) = 1) :
    Accounted { store with auditEvents := log } := by
  constructor
  · intro memory member
    by_cases same : memory.id = id
    · unfold Explained
      dsimp only
      rw [promotionCount_insert inserted, replayLifecycle_insert inserted, same,
        if_pos own, replayReceipt, tells, outOfStep.own memory member same,
        outOfStep.promotions]
      refine ⟨?_, rfl⟩
      simpa [own] using once
    · apply (outOfStep.others memory member same).append inserted
      intro sameMemory
      exact absurd (sameMemory.symm.trans own) same
  · apply outOfStep.stored.append inserted
    intro _
    rw [own]
    exact outOfStep.present

/-- A change of one row. -/
theorem Accounted.replace (holds : Accounted store) {id : String}
    {old new : CuratedMemory} (found : store.curatedMemories.find? id = some old)
    (sameId : new.id = old.id) :
    OutOfStep id new.lifecycleRecord 1
      { store with curatedMemories := store.curatedMemories.replace new } := by
  obtain ⟨isOld, oldId⟩ := Table.find?_eq_some_iff.mp found
  have newId : new.id = id := sameId.trans oldId
  constructor
  · intro memory member different
    rcases Table.mem_replace_iff.mp member with ⟨rfl, -⟩ | ⟨kept, -⟩
    · exact absurd newId different
    · exact holds.explains memory kept
  · intro memory member same
    rcases Table.mem_replace_iff.mp member with ⟨rfl, -⟩ | ⟨-, different⟩
    · rfl
    · exact absurd (same.trans newId.symm) different
  · exact ⟨new, Table.mem_replace_iff.mpr
      (.inl ⟨rfl, old, isOld, sameId.symm⟩), newId⟩
  · rw [← oldId]
    exact (holds.explains old isOld).1
  · intro memoryId absent
    apply holds.stored
    intro memory member same
    by_cases replaced : memory.id = new.id
    · exact absent new (Table.mem_replace_iff.mpr
        (.inl ⟨rfl, memory, member, replaced⟩)) (replaced.symm.trans same)
    · exact absent memory (Table.mem_replace_iff.mpr (.inr ⟨member, replaced⟩))
        same

theorem OutOfStep.accounted {id : String} {record : LifecycleRecord}
    (outOfStep : OutOfStep id record 1 store)
    (told : replayLifecycle store.auditEvents id = some record) :
    Accounted store := by
  refine ⟨?_, outOfStep.stored⟩
  intro memory member
  by_cases same : memory.id = id
  · unfold Explained
    rw [same, outOfStep.own memory member same]
    exact ⟨outOfStep.promotions, told⟩
  · exact outOfStep.others memory member same

/-- A new row. -/
theorem Accounted.insert (holds : Accounted store) {memory : CuratedMemory}
    {table : MemoryTable}
    (inserted : store.curatedMemories.insert? memory = some table) :
    OutOfStep memory.id memory.lifecycleRecord 0
      { store with curatedMemories := table } := by
  obtain ⟨free, rows⟩ := Table.insert?_eq_some_iff.mp inserted
  constructor
  · intro other member different
    rw [rows] at member
    rcases List.mem_append.mp member with old | new
    · exact holds.explains other old
    · exact absurd (congrArg CuratedMemory.id (List.mem_singleton.mp new))
        different
  · intro other member same
    rw [rows] at member
    rcases List.mem_append.mp member with old | new
    · exact absurd same (free other old)
    · rw [List.mem_singleton.mp new]
  · refine ⟨memory, ?_, rfl⟩
    rw [rows]
    exact List.mem_append_right _ List.mem_cons_self
  · exact holds.stored memory.id free
  · intro memoryId absent
    apply holds.stored
    intro other member
    apply absent
    rw [rows]
    exact List.mem_append_left _ member

end Steps

end Registrar
