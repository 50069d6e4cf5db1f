import Registrar.Curator.MergeVerifies

/-!
# What a merge does with every row

The gate promotes row by row.  Whether a row is quarantined, admitted or refused
depends on the policy, on the content seen so far and on what is stored.
-/

namespace Registrar

open Program

variable (env : Environment)

inductive RowFate where
  | quarantined (row : QuarantinedRow)
  | admitted
  | refused
  deriving DecidableEq, Repr

/-- The id under which the gate stores a row. -/
def mergedMemoryId (memory : CuratedMemory) : String :=
  deriveMemoryId env memory.candidateId
    (computeContentHash env memory.content.value)

/-- What the gate knows and what is taken when it comes to a row. -/
structure MergeLedger where
  existingHashes : List String
  memoryIds : List String
  receiptIds : List String
  lastSeq : Int

def MergeLedger.of (store : Store) : MergeLedger where
  existingHashes := MemoryRepository.getAllContentHashes store.curatedMemories
  memoryIds := store.curatedMemories.rows.map CuratedMemory.id
  receiptIds := store.auditEvents.rows.map (·.event.id)
  lastSeq := (maxSeq store.auditEvents.chainRows).getD 0

namespace MergeLedger

/-- Nothing is stored under the ids of the row, and a write-order key is
left. -/
def HasRoomFor (ledger : MergeLedger) (memory : CuratedMemory) : Prop :=
  mergedMemoryId env memory ∉ ledger.memoryIds ∧
    promotedReceiptId env memory ∉ ledger.receiptIds ∧ ledger.lastSeq < 2 ^ 63

instance (ledger : MergeLedger) (memory : CuratedMemory) :
    Decidable (ledger.HasRoomFor env memory) :=
  inferInstanceAs (Decidable (_ ∧ _ ∧ _))

def seen (ledger : MergeLedger) (memory : CuratedMemory) : MergeLedger :=
  { ledger with
    existingHashes := computeContentHash env memory.content.value ::
      ledger.existingHashes }

def stored (ledger : MergeLedger) (memory : CuratedMemory) : MergeLedger :=
  { ledger with
    memoryIds := mergedMemoryId env memory :: ledger.memoryIds
    receiptIds := promotedReceiptId env memory :: ledger.receiptIds
    lastSeq := ledger.lastSeq + 1 }

/-- A dry run remembers the content and stores nothing. -/
def afterAdmission (options : MergeGovernOptions) (ledger : MergeLedger)
    (memory : CuratedMemory) : MergeLedger :=
  if options.dryRun = false then (ledger.seen env memory).stored env memory
  else ledger.seen env memory

end MergeLedger

/-- What the gate does with a row that passed the disclosure filter. -/
def clearedFate (options : MergeGovernOptions) (log : AuditLog)
    (ledger : MergeLedger) (memory : CuratedMemory) : RowFate :=
  let candidate := untrustedProjection memory
  match resolveCandidateMinimumSensitivity env candidate log with
  | .error _ => .refused
  | .ok minimum =>
      match mergeDecision env options ledger.existingHashes candidate minimum
      with
      | .error reason =>
          .quarantined
            { memoryId := memory.id
              category := .policy
              reason := reason }
      | .ok _ =>
          if options.dryRun = false ∧ ¬ledger.HasRoomFor env memory then
            .refused
          else .admitted

def rowFate (options : MergeGovernOptions) (log : AuditLog)
    (ledger : MergeLedger) (memory : CuratedMemory) : RowFate :=
  match disclosureViolation env (untrustedProjection memory) with
  | some category =>
      .quarantined
        { memoryId := memory.id
          category := .disclosure
          reason := category.text }
  | none => clearedFate env options log ledger memory

/-- The rows that the gate comes to, with their fates; it stops at a row that
it refuses. -/
def mergeFates (options : MergeGovernOptions) (log : AuditLog) :
    MergeLedger → List CuratedMemory → List (CuratedMemory × RowFate)
  | _, [] => []
  | ledger, memory :: rest =>
      match rowFate env options log ledger memory with
      | .quarantined row =>
          (memory, .quarantined row) :: mergeFates options log ledger rest
      | .admitted =>
          (memory, .admitted) ::
            mergeFates options log (ledger.afterAdmission env options memory)
              rest
      | .refused => [(memory, .refused)]

/-- The gate stops at a row. -/
def Refuses (fates : List (CuratedMemory × RowFate)) : Prop :=
  RowFate.refused ∈ fates.map Prod.snd

instance (fates : List (CuratedMemory × RowFate)) :
    Decidable (Refuses fates) :=
  inferInstanceAs (Decidable (_ ∈ _))

def admittedRows (fates : List (CuratedMemory × RowFate)) :
    List CuratedMemory :=
  (fates.filter (·.2 = .admitted)).map Prod.fst

def RowFate.quarantine? : RowFate → Option QuarantinedRow
  | .quarantined row => some row
  | .admitted => none
  | .refused => none

def quarantinedRows (fates : List (CuratedMemory × RowFate)) :
    List QuarantinedRow :=
  fates.filterMap fun entry => entry.2.quarantine?

section Fates

variable (memory : CuratedMemory) (row : QuarantinedRow)
variable (fates : List (CuratedMemory × RowFate))

@[simp]
theorem refuses_quarantined :
    Refuses ((memory, .quarantined row) :: fates) ↔ Refuses fates := by
  simp [Refuses]

@[simp]
theorem refuses_admitted :
    Refuses ((memory, .admitted) :: fates) ↔ Refuses fates := by
  simp [Refuses]

@[simp]
theorem refuses_refused : Refuses ((memory, .refused) :: fates) := by
  simp [Refuses]

@[simp]
theorem admittedRows_quarantined :
    admittedRows ((memory, .quarantined row) :: fates) = admittedRows fates :=
  rfl

@[simp]
theorem admittedRows_admitted :
    admittedRows ((memory, .admitted) :: fates) =
      memory :: admittedRows fates :=
  rfl

@[simp]
theorem admittedRows_refused :
    admittedRows ((memory, .refused) :: fates) = admittedRows fates :=
  rfl

@[simp]
theorem quarantinedRows_quarantined :
    quarantinedRows ((memory, .quarantined row) :: fates) =
      row :: quarantinedRows fates :=
  rfl

@[simp]
theorem quarantinedRows_admitted :
    quarantinedRows ((memory, .admitted) :: fates) = quarantinedRows fates :=
  rfl

end Fates

variable {env}

section Cons

variable {options : MergeGovernOptions} {log : AuditLog} {ledger : MergeLedger}
variable {memory : CuratedMemory} {row : QuarantinedRow}

theorem mergeFates_quarantined
    (fate : rowFate env options log ledger memory = .quarantined row)
    (rest : List CuratedMemory) :
    mergeFates env options log ledger (memory :: rest) =
      (memory, .quarantined row) :: mergeFates env options log ledger rest := by
  simp [mergeFates, fate]

theorem mergeFates_admitted
    (fate : rowFate env options log ledger memory = .admitted)
    (rest : List CuratedMemory) :
    mergeFates env options log ledger (memory :: rest) =
      (memory, .admitted) ::
        mergeFates env options log (ledger.afterAdmission env options memory)
          rest := by
  simp [mergeFates, fate]

theorem mergeFates_refused
    (fate : rowFate env options log ledger memory = .refused)
    (rest : List CuratedMemory) :
    mergeFates env options log ledger (memory :: rest) =
      [(memory, .refused)] := by
  simp [mergeFates, fate]

theorem rowFate_eq_admitted_iff :
    rowFate env options log ledger memory = .admitted ↔
      disclosureViolation env (untrustedProjection memory) = none ∧
        ∃ minimum,
          resolveCandidateMinimumSensitivity env (untrustedProjection memory)
              log = .ok minimum ∧
            (mergeDecision env options ledger.existingHashes
              (untrustedProjection memory) minimum).isOk = true ∧
            ¬(options.dryRun = false ∧ ¬ledger.HasRoomFor env memory) := by
  unfold rowFate clearedFate
  cases disclosureViolation env (untrustedProjection memory) with
  | some category => simp
  | none =>
      cases floors : resolveCandidateMinimumSensitivity env
          (untrustedProjection memory) log with
      | error error => simp [floors]
      | ok minimum =>
          cases decision : mergeDecision env options ledger.existingHashes
              (untrustedProjection memory) minimum with
          | error reason =>
              simp [floors, decision, Except.isOk, Except.toBool]
          | ok result =>
              by_cases refused :
                  options.dryRun = false ∧ ¬ledger.HasRoomFor env memory <;>
                simp [floors, decision, Except.isOk, Except.toBool, refused]

theorem rowFate_eq_refused_iff :
    rowFate env options log ledger memory = .refused ↔
      disclosureViolation env (untrustedProjection memory) = none ∧
        ((∃ error, resolveCandidateMinimumSensitivity env
            (untrustedProjection memory) log = .error error) ∨
          ∃ minimum,
            resolveCandidateMinimumSensitivity env
                (untrustedProjection memory) log = .ok minimum ∧
              (mergeDecision env options ledger.existingHashes
                (untrustedProjection memory) minimum).isOk = true ∧
              options.dryRun = false ∧ ¬ledger.HasRoomFor env memory) := by
  unfold rowFate clearedFate
  cases disclosureViolation env (untrustedProjection memory) with
  | some category => simp
  | none =>
      cases floors : resolveCandidateMinimumSensitivity env
          (untrustedProjection memory) log with
      | error error => simp [floors]
      | ok minimum =>
          cases decision : mergeDecision env options ledger.existingHashes
              (untrustedProjection memory) minimum with
          | error reason =>
              simp [floors, decision, Except.isOk, Except.toBool]
          | ok result =>
              by_cases refused :
                  options.dryRun = false ∧ ¬ledger.HasRoomFor env memory <;>
                simp [floors, decision, Except.isOk, Except.toBool, refused]

end Cons

/-! ## The promotion of a survivor -/

/-- A lookup by memory, tenant and id finds the record that has them. -/
theorem find?_findByMemoryAndTenant {log : AuditLog} {record : AuditRecord}
    (member : record ∈ log.rows) :
    (AuditRepository.findByMemoryAndTenant log record.event.memoryId
        record.event.tenantId.value).find?
          (fun event => event.id = record.event.id) =
      some record.event := by
  have distinct : log.rows.Pairwise
      (Table.DistinctKey fun record : AuditRecord => record.event.id) :=
    log.coexist.imp fun coexist => coexist.1
  have unique (other : AuditEvent)
      (inside : other ∈ AuditRepository.findByMemoryAndTenant log
        record.event.memoryId record.event.tenantId.value)
      (same : other.id = record.event.id) : other = record.event := by
    obtain ⟨found, sorted, rfl⟩ := List.mem_map.mp inside
    have inLog := (List.mem_filter.mp
      ((List.perm_insertionSort _ _).mem_iff.mp sorted)).1
    by_contra different
    have apart : found ≠ record := by
      rintro rfl
      exact different rfl
    exact distinct.forall inLog member apart same
  have listed : record.event ∈ AuditRepository.findByMemoryAndTenant log
      record.event.memoryId record.event.tenantId.value := by
    apply List.mem_map_of_mem
    apply (List.perm_insertionSort _ _).mem_iff.mpr
    simp [member]
  cases found : (AuditRepository.findByMemoryAndTenant log
      record.event.memoryId record.event.tenantId.value).find?
        fun event => event.id = record.event.id with
  | none =>
      have absent := List.find?_eq_none.mp found record.event listed
      simp at absent
  | some other =>
      have same : other.id = record.event.id := by
        simpa using List.find?_some found
      rw [unique other (List.mem_of_find?_eq_some found) same]

theorem field?_sensitivityConstraint {input : PromotionInput}
    {minimum : Sensitivity} :
    Json.field? (input.promotedDetails env (some minimum))
        "sensitivityConstraint" =
      some (input.sensitivityConstraint env minimum) := by
  simp only [PromotionInput.promotedDetails]
  cases input.candidate.origin <;> split_ifs <;> simp [Json.field?]

theorem checkFloorRetained_eq_ok {input : PromotionInput}
    {memory : CuratedMemory} {minimum : Sensitivity} {now : String}
    {store : Store} {record : AuditRecord}
    (stored : store.curatedMemories.find? memory.id = some memory)
    (resolved : resolveCandidateMinimumSensitivity env input.candidate
      store.auditEvents = .ok (some minimum))
    (isId : memory.id = input.memoryId env)
    (ofTenant : memory.tenantId.value = trim input.candidate.tenantId)
    (appended : record ∈ store.auditEvents.rows)
    (parsed : AuditEvent.parse (input.promotedEvent env now (some minimum)) =
      .ok record.event) :
    input.checkFloorRetained env now memory minimum store = .ok ⟨⟩ store := by
  obtain ⟨tenantId, reason, isTenant, isRecord⟩ := AuditEvent.parse_eq_ok parsed
  have isMemory : record.event.memoryId = memory.id := by
    rw [isRecord, isId]
    rfl
  have isOwner : record.event.tenantId.value = memory.tenantId.value := by
    rw [isRecord, ofTenant]
    exact isTenant
  have isReceipt : (input.promotedEvent env now (some minimum)).id =
      record.event.id := by
    rw [isRecord]
  have found := find?_findByMemoryAndTenant appended
  have constraint : Json.field? record.event.details "sensitivityConstraint" =
      some (input.sensitivityConstraint env minimum) := by
    rw [isRecord]
    exact field?_sensitivityConstraint
  unfold PromotionInput.checkFloorRetained
  rw [bind_apply_of_ok (query_apply _ _), bind_apply_of_ok (query_apply _ _),
    bind_apply_of_ok (resolveMinimum_eq_ok_iff.mpr ⟨resolved, rfl⟩)]
  refine (ensure_eq_ok_iff).mpr ⟨⟨rfl, ?_, ?_⟩, rfl⟩
  · rw [stored]
    rfl
  · rw [isReceipt, ← isMemory, ← isOwner, found]
    simp [constraint]

/-- A promotion without supersessions and links writes the memory and its
receipt. -/
theorem commit_alone_eq_ok_iff {input : PromotionInput}
    {promoted : CuratedMemory} {minimum : Option Sensitivity} {now : String}
    {store final : Store} {event : AuditEvent}
    (alone : input.supersessions = [])
    (resolved : resolveCandidateMinimumSensitivity env input.candidate
      store.auditEvents = .ok minimum)
    (built : input.memory env now minimum = .ok promoted)
    (parsed : AuditEvent.parse (input.promotedEvent env now minimum) =
      .ok event) :
    input.commit env now false promoted minimum store = .ok ⟨⟩ final ↔
      ∃ memories log,
        store.curatedMemories.insert? promoted = some memories ∧
          store.auditEvents.insert?
              (appendedRecord env store.auditEvents event) = some log ∧
          final =
            { store with
              curatedMemories := memories
              auditEvents := log } := by
  obtain ⟨isId, -, -, ofTenant, -⟩ := PromotionInput.memory_eq_ok built
  have noRetirement :
      (distinctSupersessions input.supersessions).forM (input.retire env now)
        store = .ok ⟨⟩ store := by
    rw [alone]
    rfl
  have retains (memories : MemoryTable) (log : AuditLog)
      (inserted : store.curatedMemories.insert? promoted = some memories)
      (appended : store.auditEvents.insert?
        (appendedRecord env store.auditEvents event) = some log) :
      (minimum.toList.forM (input.checkFloorRetained env now promoted))
          { store with
            curatedMemories := memories
            auditEvents := log } =
        .ok ⟨⟩
          { store with
            curatedMemories := memories
            auditEvents := log } := by
    cases minimum with
    | none => rfl
    | some minimum =>
        obtain ⟨_, _, -, isRecord⟩ := AuditEvent.parse_eq_ok parsed
        have isPromotion : event.action ≠ .governed := by
          rw [isRecord]
          simp [PromotionInput.promotedEvent]
        have checks : input.checkFloorRetained env now promoted minimum
            { store with
              curatedMemories := memories
              auditEvents := log } =
            .ok ⟨⟩
              { store with
                curatedMemories := memories
                auditEvents := log } := by
          apply checkFloorRetained_eq_ok
          · rw [Table.find?_of_insert? inserted, if_pos rfl]
          · rw [resolveMinimum_append isPromotion appended]
            exact resolved
          · exact isId
          · exact ofTenant
          · rw [Table.rows_of_insert? appended]
            exact List.mem_append_right _ List.mem_cons_self
          · exact parsed
        exact bind_eq_ok_iff.mpr ⟨⟨⟩, _, checks, rfl⟩
  constructor
  · intro committed
    obtain ⟨_, _, found, afterFloor⟩ := bind_eq_ok_iff.mp committed
    obtain ⟨-, rfl⟩ := resolveMinimum_eq_ok_iff.mp found
    obtain ⟨_, _, agreed, afterCheck⟩ := bind_eq_ok_iff.mp afterFloor
    obtain ⟨-, rfl⟩ := ensure_eq_ok_iff.mp agreed
    obtain ⟨_, _, superseded, afterSupersessions⟩ :=
      bind_eq_ok_iff.mp afterCheck
    rw [noRetirement] at superseded
    cases superseded
    obtain ⟨_, _, insertedMemory, afterInsert⟩ :=
      bind_eq_ok_iff.mp afterSupersessions
    obtain ⟨memories, inserted, rfl⟩ :=
      MemoryRepository.insert_eq_ok_iff.mp insertedMemory
    obtain ⟨_, _, linked, afterLinks⟩ := bind_eq_ok_iff.mp afterInsert
    cases linked
    obtain ⟨_, _, recorded, retained⟩ := bind_eq_ok_iff.mp afterLinks
    obtain ⟨receipt, log, accepted, appended, rfl⟩ :=
      (AuditRepository.record_eq_ok_iff env).mp recorded
    rw [parsed] at accepted
    cases accepted
    refine ⟨memories, log, inserted, appended, ?_⟩
    rw [retains memories log inserted appended] at retained
    cases retained
    rfl
  · rintro ⟨memories, log, inserted, appended, rfl⟩
    refine bind_eq_ok_iff.mpr ⟨minimum, store,
      resolveMinimum_eq_ok_iff.mpr ⟨resolved, rfl⟩, ?_⟩
    refine bind_eq_ok_iff.mpr ⟨⟨⟩, store, ensure_eq_ok_iff.mpr ⟨rfl, rfl⟩, ?_⟩
    refine bind_eq_ok_iff.mpr ⟨⟨⟩, store, noRetirement, ?_⟩
    refine bind_eq_ok_iff.mpr ⟨⟨⟩, _,
      MemoryRepository.insert_eq_ok_iff.mpr ⟨memories, inserted, rfl⟩, ?_⟩
    refine bind_eq_ok_iff.mpr ⟨⟨⟩, _, rfl, ?_⟩
    refine bind_eq_ok_iff.mpr ⟨⟨⟩, _,
      (AuditRepository.record_eq_ok_iff env).mpr
        ⟨event, log, parsed, appended, rfl⟩, ?_⟩
    exact retains memories log inserted appended

theorem insert?_appendedRecord_isSome_iff {log : AuditLog}
    {event : AuditEvent} :
    (log.insert? (appendedRecord env log event)).isSome ↔
      (∀ record ∈ log.rows, record.event.id ≠ event.id) ∧
        (maxSeq log.chainRows).getD 0 < 2 ^ 63 := by
  rw [← nextSeq_free_iff, Option.isSome_iff_ne_none, ne_eq,
    Table.insert?_eq_none_iff]
  push Not
  constructor
  · intro accepts
    refine ⟨fun record member => (accepts record member).1, ?_⟩
    intro row member
    obtain ⟨record, inside, rfl⟩ := List.mem_map.mp member
    exact (accepts record inside).2
  · rintro ⟨fresh, free⟩ record member
    exact ⟨fresh record member, free _ (List.mem_map_of_mem member)⟩

/-- The row that the gate stores for a row of a clone. -/
def StoredFor (env : Environment) (memory promoted : CuratedMemory) : Prop :=
  promoted.id = mergedMemoryId env memory ∧
    promoted.contentHash = computeContentHash env memory.content.value ∧
    promoted.tenantId = memory.tenantId ∧ promoted.lifecycle = .active

theorem exists_storedFor {rows stored : List CuratedMemory}
    (matched : List.Forall₂ (StoredFor env) rows stored)
    {memory : CuratedMemory} (member : memory ∈ rows) :
    ∃ promoted ∈ stored, StoredFor env memory promoted := by
  induction matched with
  | nil => cases member
  | cons first _ induction =>
      rcases List.mem_cons.mp member with rfl | later
      · exact ⟨_, List.mem_cons_self, first⟩
      · obtain ⟨promoted, inside, storedFor⟩ := induction later
        exact ⟨promoted, List.mem_cons_of_mem _ inside, storedFor⟩

/-- What the gate stores for a row, and its receipt. -/
theorem mergePromotion_builds (memory : CuratedMemory)
    (minimum : Option Sensitivity) (pipelineResult : PipelineResult)
    (now : String) :
    ∃ promoted event,
      (mergePromotion env (untrustedProjection memory) minimum
          pipelineResult).memory env now minimum = .ok promoted ∧
        AuditEvent.parse
            ((mergePromotion env (untrustedProjection memory) minimum
              pipelineResult).promotedEvent env now minimum) = .ok event ∧
        StoredFor env memory promoted ∧
        event.id = promotedReceiptId env memory ∧
        event.action = .promoted := by
  have content : parseNonEmpty "content" memory.content.value =
      .ok memory.content := by
    simp [parseNonEmpty]
  have title : parseNonEmpty "title" memory.title.value =
      .ok memory.title := by
    simp [parseNonEmpty]
  have tenant : parseNonEmpty "tenantId" memory.tenantId.value =
      .ok memory.tenantId := by
    simp [parseNonEmpty]
  have verdict : ∃ reason, parseNonEmpty "reason"
      ("passed all governance rules".capitalize) = .ok reason := by
    have accepted : (parseNonEmpty "reason"
        ("passed all governance rules".capitalize)).isOk = true := by
      decide
    cases parsed : parseNonEmpty "reason"
        ("passed all governance rules".capitalize) with
    | error issue =>
        rw [parsed] at accepted
        cases accepted
    | ok reason => exact ⟨reason, rfl⟩
  obtain ⟨reason, isReason⟩ := verdict
  have isBuilt : ∃ promoted,
      (mergePromotion env (untrustedProjection memory) minimum
        pipelineResult).memory env now minimum = .ok promoted := by
    simp only [PromotionInput.memory, mergePromotion, untrustedProjection,
      content, title, tenant]
    exact ⟨_, rfl⟩
  have isParsed : ∃ event, AuditEvent.parse
      ((mergePromotion env (untrustedProjection memory) minimum
        pipelineResult).promotedEvent env now minimum) = .ok event := by
    have isVerdict : promotionReceiptReason
        (mergePromotion env (untrustedProjection memory) minimum
          pipelineResult) = "passed all governance rules".capitalize :=
      rfl
    have reasonParsed : (some (promotionReceiptReason
        (mergePromotion env (untrustedProjection memory) minimum
          pipelineResult))).mapM (parseNonEmpty "reason") =
            .ok (some reason) := by
      rw [isVerdict]
      simp only [Option.mapM_some, isReason]
      rfl
    simp only [AuditEvent.parse, PromotionInput.promotedEvent, reasonParsed]
    simp only [mergePromotion, untrustedProjection, tenant]
    exact ⟨_, rfl⟩
  obtain ⟨promoted, built⟩ := isBuilt
  obtain ⟨event, parsed⟩ := isParsed
  obtain ⟨isId, -, -, ofTenant, hash, active, -⟩ :=
    PromotionInput.memory_eq_ok built
  obtain ⟨_, _, -, isEvent⟩ := AuditEvent.parse_eq_ok parsed
  refine ⟨promoted, event, built, parsed, ⟨isId, hash, ?_, active⟩, ?_, ?_⟩
  · apply NonEmptyString.value_injective
    rw [ofTenant]
    exact memory.tenantId.trimmed
  · rw [isEvent]
    rfl
  · rw [isEvent]
    rfl

/-! ## One row -/

/-- The ledger says what the store holds, and the floors are those of the
starting log. -/
structure MergeLedger.Describes (env : Environment) (start : AuditLog)
    (ledger : MergeLedger) (store : Store) : Prop where
  memoryIds : ∀ id, id ∈ ledger.memoryIds ↔
    ∃ memory ∈ store.curatedMemories.rows, memory.id = id
  receiptIds : ∀ id, id ∈ ledger.receiptIds ↔
    ∃ record ∈ store.auditEvents.rows, record.event.id = id
  lastSeq : ledger.lastSeq = (maxSeq store.auditEvents.chainRows).getD 0
  floors : ∀ candidate,
    resolveCandidateMinimumSensitivity env candidate store.auditEvents =
      resolveCandidateMinimumSensitivity env candidate start

theorem MergeLedger.of_describes (store : Store) :
    (MergeLedger.of store).Describes env store.auditEvents store where
  memoryIds := by simp [MergeLedger.of]
  receiptIds := by simp [MergeLedger.of]
  lastSeq := rfl
  floors := fun _ => rfl

section Row

variable {start : AuditLog} {ledger : MergeLedger} {store : Store}

theorem MergeLedger.Describes.hasRoomFor_iff
    (describes : ledger.Describes env start store)
    {memory promoted : CuratedMemory} {event : AuditEvent}
    (isId : promoted.id = mergedMemoryId env memory)
    (isReceipt : event.id = promotedReceiptId env memory) :
    ledger.HasRoomFor env memory ↔
      (store.curatedMemories.insert? promoted).isSome ∧
        (store.auditEvents.insert?
          (appendedRecord env store.auditEvents event)).isSome := by
  rw [Table.insert?_isSome_iff, Table.find?_eq_none_iff,
    insert?_appendedRecord_isSome_iff, isId, isReceipt,
    MergeLedger.HasRoomFor, describes.memoryIds, describes.receiptIds,
    describes.lastSeq]
  simp

/-- The writes of a promotion continue the ledger. -/
theorem MergeLedger.Describes.stored
    (describes : ledger.Describes env start store)
    {memory promoted : CuratedMemory} {event : AuditEvent}
    {memories : MemoryTable} {log : AuditLog}
    (isId : promoted.id = mergedMemoryId env memory)
    (isReceipt : event.id = promotedReceiptId env memory)
    (isPromotion : event.action = .promoted)
    (inserted : store.curatedMemories.insert? promoted = some memories)
    (appended : store.auditEvents.insert?
      (appendedRecord env store.auditEvents event) = some log) :
    ((ledger.seen env memory).stored env memory).Describes env start
      { store with
        curatedMemories := memories
        auditEvents := log } := by
  have room := (insert?_appendedRecord_isSome_iff.mp
    (Option.isSome_of_eq_some appended)).2
  have notFloor : event.action ≠ .governed := by
    rw [isPromotion]
    simp
  constructor
  · intro id
    simp only [MergeLedger.stored, MergeLedger.seen, List.mem_cons,
      describes.memoryIds, Table.rows_of_insert? inserted, List.mem_append,
      List.not_mem_nil, or_false, ← isId]
    constructor
    · rintro (rfl | ⟨other, member, isOther⟩)
      · exact ⟨promoted, .inr rfl, rfl⟩
      · exact ⟨other, .inl member, isOther⟩
    · rintro ⟨other, member | rfl, isOther⟩
      · exact .inr ⟨other, member, isOther⟩
      · exact .inl isOther.symm
  · intro id
    simp only [MergeLedger.stored, MergeLedger.seen, List.mem_cons,
      describes.receiptIds, Table.rows_of_insert? appended, List.mem_append,
      List.not_mem_nil, or_false, ← isReceipt]
    constructor
    · rintro (rfl | ⟨other, member, isOther⟩)
      · exact ⟨_, .inr rfl, rfl⟩
      · exact ⟨other, .inl member, isOther⟩
    · rintro ⟨other, member | rfl, isOther⟩
      · exact .inr ⟨other, member, isOther⟩
      · exact .inl isOther.symm
  · simp only [MergeLedger.stored, MergeLedger.seen, describes.lastSeq]
    rw [chainRows_of_insert appended, maxSeq_append _ room]
  · intro candidate
    rw [resolveMinimum_append notFloor appended, describes.floors]

/-- A promotion without supersessions stores the row if there is room for it
and throws otherwise. -/
theorem promote_alone (options : MergeGovernOptions)
    (describes : ledger.Describes env start store)
    {memory promoted : CuratedMemory} {event : AuditEvent}
    {input : PromotionInput} {now : String}
    (alone : input.supersessions = [])
    (resolved : resolveCandidateMinimumSensitivity env input.candidate start =
      .ok input.minimumSensitivity)
    (built : input.memory env now input.minimumSensitivity = .ok promoted)
    (parsed : AuditEvent.parse
      (input.promotedEvent env now input.minimumSensitivity) = .ok event)
    (storedFor : StoredFor env memory promoted)
    (isReceipt : event.id = promotedReceiptId env memory)
    (isPromotion : event.action = .promoted) :
    if options.dryRun = false ∧ ¬ledger.HasRoomFor env memory then
      ∃ error,
        promote env input options.dryRun false now store = .error error store
    else
      ∃ promoted final,
        promote env input options.dryRun false now store =
          .ok promoted final ∧
        (ledger.afterAdmission env options memory).Describes env start final ∧
        StoredFor env memory promoted ∧
        if options.dryRun = false then
          final.curatedMemories.rows =
            store.curatedMemories.rows ++ [promoted]
        else final = store := by
  have resolvedHere := (describes.floors _).trans resolved
  have commits (final : Store) :=
    @commit_alone_eq_ok_iff env input promoted input.minimumSensitivity now
      store final event alone resolvedHere built parsed
  rw [promote_apply options.dryRun false resolvedHere built]
  by_cases wet : options.dryRun = false
  · have room := describes.hasRoomFor_iff storedFor.1 isReceipt
    rw [if_pos wet]
    by_cases hasRoom : ledger.HasRoomFor env memory
    · obtain ⟨insertable, appendable⟩ := room.mp hasRoom
      obtain ⟨memories, inserted⟩ := Option.isSome_iff_exists.mp insertable
      obtain ⟨log, appended⟩ := Option.isSome_iff_exists.mp appendable
      let next : Store :=
        { store with
          curatedMemories := memories
          auditEvents := log }
      have committed :=
        (commits next).mpr ⟨memories, log, inserted, appended, rfl⟩
      rw [if_neg fun refused => refused.2 hasRoom, committed]
      refine ⟨promoted, next, rfl, ?_, storedFor, ?_⟩
      · rw [MergeLedger.afterAdmission, if_pos wet]
        exact describes.stored storedFor.1 isReceipt isPromotion inserted
          appended
      · rw [if_pos wet]
        exact Table.rows_of_insert? inserted
    · rw [if_pos ⟨wet, hasRoom⟩]
      cases committed : input.commit env now false promoted
          input.minimumSensitivity store with
      | ok value final =>
          obtain ⟨memories, log, inserted, appended, -⟩ :=
            (commits final).mp committed
          exact absurd (room.mpr ⟨Option.isSome_of_eq_some inserted,
            Option.isSome_of_eq_some appended⟩) hasRoom
      | error error final => exact ⟨error, rfl⟩
  · rw [if_neg wet, if_neg fun refused => wet refused.1]
    refine ⟨promoted, store, rfl, ?_, storedFor, by rw [if_neg wet]⟩
    rw [MergeLedger.afterAdmission, if_neg wet]
    exact ⟨describes.memoryIds, describes.receiptIds, describes.lastSeq,
      describes.floors⟩

/-- How the body of the loop ends on a row with this fate. -/
def EndsWith (env : Environment) (options : MergeGovernOptions)
    (start : AuditLog) (ledger : MergeLedger) (progress : MergeProgress)
    (store : Store) (index : Nat) (memory : CuratedMemory) : RowFate → Prop
  | .quarantined row =>
      governCandidate env options index memory.id (untrustedProjection memory)
          progress store =
        .ok (progress.quarantine row) store
  | .refused =>
      ∃ error,
        governCandidate env options index memory.id
            (untrustedProjection memory) progress store =
          .error error store
  | .admitted =>
      ∃ promoted final,
        governCandidate env options index memory.id
            (untrustedProjection memory) progress store =
          .ok (progress.promote promoted
            (computeContentHash env memory.content.value)) final ∧
        (ledger.afterAdmission env options memory).Describes env start final ∧
        StoredFor env memory promoted ∧
        if options.dryRun = false then
          final.curatedMemories.rows =
            store.curatedMemories.rows ++ [promoted]
        else final = store

/-- The body of the loop does with a row what its fate says. -/
theorem governCandidate_fate (options : MergeGovernOptions)
    (describes : ledger.Describes env start store) {progress : MergeProgress}
    (sameHashes : ledger.existingHashes = progress.existingHashes)
    (index : Nat) (memory : CuratedMemory) :
    EndsWith env options start ledger progress store index memory
      (rowFate env options start ledger memory) := by
  unfold rowFate
  cases disclosure : disclosureViolation env (untrustedProjection memory) with
  | some category =>
      simp only [EndsWith, governCandidate, disclosure]
      rfl
  | none =>
      have cleared : governCandidate env options index memory.id
          (untrustedProjection memory) progress =
            governCleared env options index memory.id
              (untrustedProjection memory) progress := by
        simp only [governCandidate, disclosure]
      dsimp only
      unfold clearedFate
      dsimp only
      cases resolved : resolveCandidateMinimumSensitivity env
          (untrustedProjection memory) start with
      | error error =>
          simp only [EndsWith, cleared, governCleared]
          exact ⟨error, bind_apply_of_error (resolveMinimum_eq_error
            ((describes.floors _).trans resolved))⟩
      | ok minimum =>
          have found := resolveMinimum_eq_ok_iff.mpr
            ⟨(describes.floors _).trans resolved, rfl⟩
          dsimp only
          rw [sameHashes]
          cases decision : mergeDecision env options progress.existingHashes
              (untrustedProjection memory) minimum with
          | error reason =>
              simp only [EndsWith, cleared, governCleared,
                bind_apply_of_ok found, decision]
              rfl
          | ok pipelineResult =>
              obtain ⟨promoted, event, built, parsed, storedFor, isReceipt,
                isPromotion⟩ := @mergePromotion_builds env memory minimum
                  pipelineResult (mergeClock env index)
              have alone : (mergePromotion env (untrustedProjection memory)
                  minimum pipelineResult).supersessions = [] := rfl
              have ends := promote_alone options describes alone resolved built
                parsed storedFor isReceipt isPromotion
              dsimp only
              by_cases refused :
                  options.dryRun = false ∧ ¬ledger.HasRoomFor env memory
              · rw [if_pos refused] at ends ⊢
                obtain ⟨error, failed⟩ := ends
                simp only [EndsWith, cleared, governCleared,
                  bind_apply_of_ok found, decision]
                exact ⟨error, bind_apply_of_error failed⟩
              · rw [if_neg refused] at ends ⊢
                obtain ⟨promoted, final, completed, rest⟩ := ends
                simp only [EndsWith, cleared, governCleared,
                  bind_apply_of_ok found, decision]
                exact ⟨promoted, final, bind_apply_of_ok completed, rest⟩

end Row

/-- What the admitted rows leave in the store. -/
structure Leaves (env : Environment) (options : MergeGovernOptions)
    (rows : List CuratedMemory) (store final : Store) : Prop where
  dry : options.dryRun = true → final = store
  nothing : rows = [] → final = store
  stored : options.dryRun = false → ∃ promoted,
    List.Forall₂ (StoredFor env) rows promoted ∧
      final.curatedMemories.rows = store.curatedMemories.rows ++ promoted
  floors : ∀ candidate,
    resolveCandidateMinimumSensitivity env candidate final.auditEvents =
      resolveCandidateMinimumSensitivity env candidate store.auditEvents

theorem Leaves.refl (options : MergeGovernOptions) (store : Store) :
    Leaves env options [] store store where
  dry := fun _ => rfl
  nothing := fun _ => rfl
  stored := fun _ => ⟨[], .nil, (List.append_nil _).symm⟩
  floors := fun _ => rfl

/-- One more row has been admitted before the others. -/
theorem Leaves.cons {options : MergeGovernOptions} {rows : List CuratedMemory}
    {memory promoted : CuratedMemory} {store next final : Store}
    (leaves : Leaves env options rows next final)
    (storedFor : StoredFor env memory promoted)
    (written : if options.dryRun = false then
        next.curatedMemories.rows = store.curatedMemories.rows ++ [promoted]
      else next = store)
    (sameFloors : ∀ candidate,
      resolveCandidateMinimumSensitivity env candidate next.auditEvents =
        resolveCandidateMinimumSensitivity env candidate store.auditEvents) :
    Leaves env options (memory :: rows) store final := by
  constructor
  · intro dry
    rw [if_neg (by simp [dry])] at written
    rw [leaves.dry dry, written]
  · intro empty
    cases empty
  · intro wet
    rw [if_pos wet] at written
    obtain ⟨stored, matched, appended⟩ := leaves.stored wet
    refine ⟨promoted :: stored, .cons storedFor matched, ?_⟩
    rw [appended, written, List.append_assoc]
    rfl
  · intro candidate
    rw [leaves.floors, sameFloors]

/-- How the loop ends on a list of rows, given their fates. -/
theorem governUnion_fates {start : AuditLog} (options : MergeGovernOptions)
    (rows : List CuratedMemory) {ledger : MergeLedger} {store : Store}
    (describes : ledger.Describes env start store) {progress : MergeProgress}
    (sameHashes : ledger.existingHashes = progress.existingHashes)
    (index : Nat) :
    ∃ final,
      Leaves env options
          (admittedRows (mergeFates env options start ledger rows)) store
          final ∧
        if Refuses (mergeFates env options start ledger rows) then
          ∃ error,
            governUnion env options index rows progress store =
              .error error final
        else
          ∃ result promoted,
            governUnion env options index rows progress store =
                .ok result final ∧
              List.Forall₂ (StoredFor env)
                (admittedRows (mergeFates env options start ledger rows))
                promoted ∧
              result.promoted = progress.promoted ++ promoted ∧
              result.quarantined = progress.quarantined ++
                quarantinedRows (mergeFates env options start ledger rows) := by
  induction rows generalizing ledger store progress index with
  | nil =>
      refine ⟨store, Leaves.refl options store, ?_⟩
      rw [if_neg (by simp [mergeFates, Refuses])]
      exact ⟨progress, [], rfl, .nil, by simp, by simp [mergeFates,
        quarantinedRows]⟩
  | cons memory rest induction =>
      have body := governCandidate_fate options describes sameHashes index
        memory
      have unfolded : governUnion env options index (memory :: rest) progress =
          (do
            let next ← governCandidate env options index memory.id
              (untrustedProjection memory) progress
            governUnion env options (index + 1) rest next) := by
        simp only [governUnion, projectToUntrustedCandidate_eq, orSchemaError,
          pure_bind]
      rw [unfolded]
      cases fate : rowFate env options start ledger memory with
      | quarantined row =>
          rw [fate] at body
          have governed : governCandidate env options index memory.id
              (untrustedProjection memory) progress store =
                .ok (progress.quarantine row) store := body
          have after : ledger.existingHashes =
              (progress.quarantine row).existingHashes := sameHashes
          obtain ⟨final, leaves, ends⟩ :=
            induction describes after (index + 1)
          rw [mergeFates_quarantined fate, bind_apply_of_ok governed]
          simp only [refuses_quarantined, admittedRows_quarantined,
            quarantinedRows_quarantined]
          refine ⟨final, leaves, ?_⟩
          split_ifs at ends ⊢ with refuses
          · exact ends
          · obtain ⟨result, stored, completed, matched, promotes,
              quarantines⟩ := ends
            refine ⟨result, stored, completed, matched, promotes, ?_⟩
            rw [quarantines, MergeProgress.quarantine, List.append_assoc]
            rfl
      | refused =>
          rw [fate] at body
          obtain ⟨error, failed⟩ := body
          rw [mergeFates_refused fate]
          refine ⟨store, Leaves.refl options store, ?_⟩
          rw [if_pos (refuses_refused memory [])]
          exact ⟨error, bind_apply_of_error failed⟩
      | admitted =>
          rw [fate] at body
          obtain ⟨promoted, next, governed, describesNext, storedFor,
            written⟩ := body
          have after : (ledger.afterAdmission env options memory).existingHashes =
              (progress.promote promoted
                (computeContentHash env memory.content.value)).existingHashes :=
            by
              unfold MergeLedger.afterAdmission
              split_ifs <;> exact congrArg _ sameHashes
          obtain ⟨final, leaves, ends⟩ :=
            induction describesNext after (index + 1)
          rw [mergeFates_admitted fate, bind_apply_of_ok governed]
          simp only [refuses_admitted, admittedRows_admitted,
            quarantinedRows_admitted]
          refine ⟨final, ?_, ?_⟩
          · apply leaves.cons storedFor written
            intro candidate
            rw [describesNext.floors, describes.floors]
          · split_ifs at ends ⊢ with refuses
            · exact ends
            · obtain ⟨result, stored, completed, matched, promotes,
                quarantines⟩ := ends
              refine ⟨result, promoted :: stored, completed,
                .cons storedFor matched, ?_, quarantines⟩
              rw [promotes, MergeProgress.promote, List.append_assoc]
              rfl

end Registrar
