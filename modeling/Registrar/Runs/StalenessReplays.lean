import Registrar.Concurrency.ExplainedLifecycles
import Registrar.Concurrency.Maintenance
import Registrar.Curator.HoldSteps
import Registrar.Curator.MergeFates
import Registrar.Curator.MergeVerifies

/-!
# Replays of reviewed settlements

A settlement that has returned is recognized by its receipts.  Settling the same
manifest again, at whatever time, checks what the first settlement has left and
returns its receipts without writing anything.
-/

namespace Registrar

open Program

variable {env : Environment} {manifest : ReviewedStalenessManifest}
variable {deps : ReviewedStalenessDependencies}

/-- The log holds this event of the tenant. -/
def ReviewedStalenessManifest.Logged (manifest : ReviewedStalenessManifest)
    (store : Store) (event : AuditEvent) : Prop :=
  event.tenantId.value = manifest.tenantId.value ∧
    ∃ record ∈ store.auditEvents.rows, record.event = event

theorem receiptById_eq_ok_iff {memoryId id : String} {event : AuditEvent}
    {store final : Store} :
    receiptById manifest memoryId id store = .ok event final ↔
      final = store ∧ event.id = id ∧ event.memoryId = memoryId ∧
        manifest.Logged store event := by
  unfold receiptById
  rw [bind_apply_of_ok (query_apply _ _)]
  cases found : (AuditRepository.findByMemoryAndTenant store.auditEvents
      memoryId manifest.tenantId.value).find? (·.id = id) with
  | none =>
      refine iff_of_false nofun ?_
      rintro ⟨rfl, rfl, rfl, ofTenant, record, member, rfl⟩
      rw [← ofTenant, find?_findByMemoryAndTenant member] at found
      cases found
  | some other =>
      have isId : other.id = id := by simpa using List.find?_some found
      obtain ⟨ofMemory, ofTenant, logged⟩ :=
        mem_findByMemoryAndTenant.mp (List.mem_of_find?_eq_some found)
      constructor
      · intro returned
        cases returned
        exact ⟨rfl, isId, ofMemory, ofTenant, logged⟩
      · rintro ⟨rfl, rfl, rfl, ofTenant', record, member, rfl⟩
        rw [← ofTenant', find?_findByMemoryAndTenant member] at found
        cases found
        rfl

/-- The receipts of a run, in a log that has grown by one event. -/
theorem runReceipts_append {runId : String} {store : Store} {log : AuditLog}
    {event : AuditEvent}
    (inserted : store.auditEvents.insert?
      (appendedRecord env store.auditEvents event) = some log) :
    (runReceipts manifest runId { store with auditEvents := log }).Perm
      (runReceipts manifest runId store ++
        if event.memoryId = runId ∧
            event.tenantId.value = manifest.tenantId.value ∧
              event.detailText "kind" = some runKind then [event] else []) := by
  unfold runReceipts AuditRepository.findByMemoryAndTenant
    AuditRepository.findByTimestamp
  rw [Table.rows_of_insert? inserted]
  refine (((List.perm_insertionSort _ _).map AuditRecord.event).filter _).trans
    ?_
  refine List.Perm.trans ?_ (List.Perm.append_right _
    (((List.perm_insertionSort _ _).map AuditRecord.event).filter _).symm)
  rw [List.filter_append, List.map_append, List.filter_append]
  refine List.Perm.append_left _ ?_
  by_cases ofMemory : event.memoryId = runId <;>
    by_cases ofTenant : event.tenantId.value = manifest.tenantId.value <;>
    by_cases ofKind : event.detailText "kind" = some runKind <;>
    simp [appendedRecord, ofMemory, ofTenant, ofKind]

/-- The reviewed deprecation of the selection is in the log, and a run has
settled it. -/
def Backs (env : Environment) (manifest : ReviewedStalenessManifest)
    (selection : ReviewedStalenessSelection) (store : Store) : Prop :=
  ∃ binding event runId,
    selection.deprecationReceipt = some binding ∧
      event.id = binding.id ∧ event.memoryId = selection.memoryId ∧
      manifest.Logged store event ∧
      (auditEventSnapshotDigest env event = binding.snapshotDigest ∧
        event.action = .demoted ∧
        event.detailText "kind" = some transitionKind ∧
        event.detailText "operation" = some "deprecate" ∧
        event.detailText "ruleId" = some selection.ruleId ∧
        event.detailText "ruleDigest" = some selection.ruleDigest) ∧
      event.detailText "runId" = some runId ∧
      settledByRun (runReceipts manifest runId store) selection.memoryId event
        binding.snapshotDigest = true

theorem priorDeprecation_eq_ok_iff {selection : ReviewedStalenessSelection}
    {store final : Store} {value : PUnit} :
    priorDeprecation env manifest selection store = .ok value final ↔
      final = store ∧ Backs env manifest selection store := by
  unfold priorDeprecation Backs
  cases bound : selection.deprecationReceipt with
  | none => exact iff_of_false nofun (by simp)
  | some binding =>
      dsimp only
      simp only [bind_eq_ok_iff, receiptById_eq_ok_iff, ensure_eq_ok_iff]
      constructor
      · rintro ⟨event, _, ⟨rfl, isId, ofMemory, logged⟩, _, _, ⟨evidence, rfl⟩,
          rest⟩
        cases named : event.detailText "runId" with
        | none =>
            rw [named] at rest
            cases rest
        | some runId =>
            rw [named] at rest
            simp only [bind_eq_ok_iff, ensure_eq_ok_iff] at rest
            obtain ⟨settled, _, read, isSettled, rfl⟩ := rest
            cases read
            exact ⟨rfl, binding, event, runId, rfl, isId, ofMemory, logged,
              evidence, named, isSettled⟩
      · rintro ⟨rfl, other, event, runId, same, isId, ofMemory, logged,
          evidence, named, settled⟩
        cases same
        refine ⟨event, final, ⟨rfl, isId, ofMemory, logged⟩, ⟨⟩, final,
          ⟨evidence, rfl⟩, ?_⟩
        rw [named]
        simp only [bind_eq_ok_iff, ensure_eq_ok_iff]
        exact ⟨_, final, query_apply _ _, settled, rfl⟩

theorem Logged.append {store : Store} {log : AuditLog}
    {event other : AuditEvent} (logged : manifest.Logged store event)
    (inserted : store.auditEvents.insert?
      (appendedRecord env store.auditEvents other) = some log) :
    manifest.Logged { store with auditEvents := log } event := by
  obtain ⟨ofTenant, record, member, same⟩ := logged
  refine ⟨ofTenant, record, ?_, same⟩
  rw [Table.rows_of_insert? inserted]
  exact List.mem_append_left _ member

theorem logged_insert {store : Store} {log : AuditLog} {event : AuditEvent}
    (ofTenant : event.tenantId.value = manifest.tenantId.value)
    (inserted : store.auditEvents.insert?
      (appendedRecord env store.auditEvents event) = some log) :
    manifest.Logged { store with auditEvents := log } event := by
  refine ⟨ofTenant, appendedRecord env store.auditEvents event, ?_, rfl⟩
  rw [Table.rows_of_insert? inserted]
  exact List.mem_append_right _ List.mem_cons_self

/-- An event that is no receipt of another run leaves the evidence as it is. -/
theorem Backs.append {selection : ReviewedStalenessSelection} {store : Store}
    {log : AuditLog} {event : AuditEvent}
    (backs : Backs env manifest selection store)
    (noRun : runReceipts manifest manifest.runId store = [])
    (ofRun : event.detailText "kind" = some runKind →
      event.memoryId = manifest.runId)
    (inserted : store.auditEvents.insert?
      (appendedRecord env store.auditEvents event) = some log) :
    Backs env manifest selection { store with auditEvents := log } := by
  obtain ⟨binding, deprecation, runId, bound, isId, ofMemory, logged, evidence,
    named, settled⟩ := backs
  refine ⟨binding, deprecation, runId, bound, isId, ofMemory,
    Logged.append logged inserted, evidence, named, ?_⟩
  have grown := @runReceipts_append _ manifest runId _ _ _ inserted
  have other : ¬ (event.memoryId = runId ∧
      event.tenantId.value = manifest.tenantId.value ∧
        event.detailText "kind" = some runKind) := by
    rintro ⟨ofRunId, -, ofKind⟩
    -- The run of the deprecation has a receipt, and this run has none.
    rw [← ofRunId, ofRun ofKind, noRun] at settled
    cases settled
  rw [if_neg other, List.append_nil] at grown
  cases runs : runReceipts manifest runId store with
  | nil =>
      rw [runs] at settled
      cases settled
  | cons run rest =>
      cases rest with
      | nil =>
          rw [runs] at grown settled
          rwa [List.perm_singleton.mp grown]
      | cons _ _ =>
          rw [runs] at settled
          cases settled

theorem Backs.of_sameLog {selection : ReviewedStalenessSelection}
    {store next : Store} (backs : Backs env manifest selection store)
    (sameLog : next.auditEvents = store.auditEvents) :
    Backs env manifest selection next := by
  unfold Backs ReviewedStalenessManifest.Logged runReceipts at backs ⊢
  rwa [sameLog]

/-- What the settlement of one selection leaves: the reviewed memory and its
receipt, both as they were checked. -/
structure SettledSelection (env : Environment)
    (manifest : ReviewedStalenessManifest) (now : String)
    (item : ReviewedStalenessSelection × StalenessRule)
    (witness : StalenessWitness) (store : Store) : Prop where
  reviewed : ∃ memory : CuratedMemory,
    memory.id = item.1.memoryId ∧
      memory.lifecycle = manifest.operation.source ∧
      memorySnapshotDigest env memory = item.1.snapshotDigest ∧
      stalenessDigest env memory.storedRow = item.1.storedRowDigest ∧
      witness.memory = CuratedMemory.reviewed memory manifest.operation now ∧
      AuditEvent.parse (transitionReceipt env manifest item.1 item.2 now
        memory) = .ok witness.receipt
  logged : manifest.Logged store witness.receipt
  backed : manifest.operation = .reactivate →
    Backs env manifest item.1 store

/-- The run has no receipt yet. -/
def Unsettled (manifest : ReviewedStalenessManifest) (store : Store) : Prop :=
  runReceipts manifest manifest.runId store = []

theorem parse_tenant {input : AuditEventInput} {event : AuditEvent}
    (ofTenant : input.tenantId = manifest.tenantId.value)
    (accepted : AuditEvent.parse input = .ok event) :
    event.tenantId.value = manifest.tenantId.value := by
  obtain ⟨tenantId, reason, isTenant, rfl⟩ := AuditEvent.parse_eq_ok accepted
  exact isTenant.trans (by rw [ofTenant, manifest.tenantId.trimmed])

theorem parse_detailText {input : AuditEventInput} {event : AuditEvent}
    (accepted : AuditEvent.parse input = .ok event) (name : String) :
    event.detailText name =
      match Json.field? input.details name with
      | some (.string text) => some text
      | _ => none := by
  obtain ⟨tenantId, reason, -, rfl⟩ := AuditEvent.parse_eq_ok accepted
  rfl

theorem transitionReceipt_kind {selection : ReviewedStalenessSelection}
    {rule : StalenessRule} {now : String} {memory : CuratedMemory}
    {event : AuditEvent}
    (accepted : AuditEvent.parse (transitionReceipt env manifest selection rule
      now memory) = .ok event) :
    event.detailText "kind" = some transitionKind ∧
      event.detailText "beforeUpdatedAt" = some memory.updatedAt := by
  constructor <;> rw [parse_detailText accepted] <;>
    cases binding : selection.deprecationReceipt <;>
    simp [transitionReceipt, Json.field?, Json.optionalField, binding]

theorem SettledSelection.append {now : String}
    {item : ReviewedStalenessSelection × StalenessRule}
    {witness : StalenessWitness} {store : Store} {log : AuditLog}
    {event : AuditEvent}
    (settled : SettledSelection env manifest now item witness store)
    (unsettled : Unsettled manifest store)
    (ofRun : event.detailText "kind" = some runKind →
      event.memoryId = manifest.runId)
    (inserted : store.auditEvents.insert?
      (appendedRecord env store.auditEvents event) = some log) :
    SettledSelection env manifest now item witness
      { store with auditEvents := log } where
  reviewed := settled.reviewed
  logged := Logged.append settled.logged inserted
  backed reactivates :=
    (settled.backed reactivates).append unsettled ofRun inserted

theorem SettledSelection.of_sameLog {now : String}
    {item : ReviewedStalenessSelection × StalenessRule}
    {witness : StalenessWitness} {store next : Store}
    (settled : SettledSelection env manifest now item witness store)
    (sameLog : next.auditEvents = store.auditEvents) :
    SettledSelection env manifest now item witness next where
  reviewed := settled.reviewed
  logged := by
    unfold ReviewedStalenessManifest.Logged
    rw [sameLog]
    exact settled.logged
  backed reactivates := (settled.backed reactivates).of_sameLog sameLog

theorem currentMemory_eq_ok_iff {id : String} {memory : CuratedMemory}
    {store final : Store} :
    currentMemory manifest id store = .ok memory final ↔
      final = store ∧ store.curatedMemories.find? id = some memory ∧
        memory.tenantId = manifest.tenantId ∧
          isAudienceVisibleToRole memory.metadata.audience
            manifest.role.reader = true := by
  unfold currentMemory
  rw [bind_apply_of_ok (query_apply _ _)]
  cases found : store.curatedMemories.find? id with
  | none => exact iff_of_false nofun (by simp)
  | some other =>
      simp only [bind_eq_ok_iff, ensure_eq_ok_iff, Option.some.injEq]
      constructor
      · rintro ⟨_, _, ⟨visible, rfl⟩, read⟩
        cases read
        exact ⟨rfl, rfl, visible⟩
      · rintro ⟨rfl, rfl, visible⟩
        exact ⟨⟨⟩, final, ⟨visible, rfl⟩, rfl⟩

/-- The review of a selection, as it has passed. -/
theorem reviewSelection_eq_ok {selection : ReviewedStalenessSelection}
    {rule : StalenessRule} {store final : Store} {memory : CuratedMemory}
    (passed : reviewSelection env manifest deps selection rule store =
      .ok memory final) :
    final = store ∧
      store.curatedMemories.find? selection.memoryId = some memory ∧
      memory.lifecycle = manifest.operation.source ∧
      memorySnapshotDigest env memory = selection.snapshotDigest ∧
      stalenessDigest env memory.storedRow = selection.storedRowDigest ∧
      (manifest.operation = .reactivate →
        Backs env manifest selection store) := by
  unfold reviewSelection at passed
  simp only [bind_eq_ok_iff, currentMemory_eq_ok_iff, ensure_eq_ok_iff]
    at passed
  obtain ⟨found, _, ⟨rfl, current, -⟩, _, _,
    ⟨⟨source, snapshot, row⟩, rfl⟩, passed⟩ := passed
  cases operation : manifest.operation with
  | reactivate =>
      rw [operation] at passed
      simp only [bind_eq_ok_iff, priorDeprecation_eq_ok_iff] at passed
      obtain ⟨_, _, ⟨rfl, backs⟩, read⟩ := passed
      cases read
      exact ⟨rfl, current, operation ▸ source, snapshot, row, fun _ => backs⟩
  | _ =>
      rw [operation] at passed
      simp only [bind_eq_ok_iff, ensure_eq_ok_iff] at passed
      obtain ⟨_, _, ⟨-, rfl⟩, read⟩ := passed
      cases read
      refine ⟨rfl, current, operation ▸ source, snapshot, row,
        fun reactivates => ?_⟩
      cases reactivates

theorem updateLifecycle_sameLog {id updatedAt : String}
    {lifecycle : MemoryLifecycleState} {store final : Store} {changed : Bool}
    (ended : MemoryRepository.updateLifecycle id lifecycle updatedAt store =
      .ok changed final) : final.auditEvents = store.auditEvents := by
  unfold MemoryRepository.updateLifecycle at ended
  rw [bind_apply_of_ok (query_apply _ _)] at ended
  cases found : store.curatedMemories.find? id with
  | none =>
      rw [found] at ended
      cases ended
      rfl
  | some memory =>
      rw [found] at ended
      dsimp only at ended
      split_ifs at ended <;> cases ended <;> rfl

/-- The settlement of one selection appends its receipt. -/
theorem settleTransition_eq_ok {now : String}
    {item : ReviewedStalenessSelection × StalenessRule} {store final : Store}
    {witness : StalenessWitness}
    (ended : settleTransition env manifest deps now item store =
      .ok witness final) (unsettled : Unsettled manifest store) :
    Unsettled manifest final ∧
      SettledSelection env manifest now item witness final ∧
      ∀ other settled, SettledSelection env manifest now other settled store →
        SettledSelection env manifest now other settled final := by
  unfold settleTransition buildTransition at ended
  simp only [bind_eq_ok_iff, orSchemaError_eq_ok_iff, ensure_eq_ok_iff,
    AuditRepository.insert_eq_ok_iff] at ended
  obtain ⟨memory, _, reviewed, _, _, ⟨receipt, _, ⟨accepted, rfl⟩, built⟩,
    written, _, writes, _, mid, ⟨-, rfl⟩, _, _, ⟨log, inserted, rfl⟩, read⟩ :=
    ended
  cases built
  cases read
  obtain ⟨rfl, current, source, snapshot, row, backs⟩ :=
    reviewSelection_eq_ok reviewed
  have sameLog := updateLifecycle_sameLog writes
  obtain ⟨isTransition, -⟩ := transitionReceipt_kind accepted
  have ofTenant := @parse_tenant manifest _ _ rfl accepted
  have noRun : receipt.detailText "kind" = some runKind →
      receipt.memoryId = manifest.runId := by
    rw [isTransition]
    intro same
    exact absurd same (by decide)
  have midUnsettled : Unsettled manifest mid := by
    unfold Unsettled runReceipts at unsettled ⊢
    rwa [sameLog]
  have grown := @runReceipts_append _ manifest manifest.runId _ _ _ inserted
  rw [show runReceipts manifest manifest.runId mid = [] from midUnsettled,
    if_neg (by rw [isTransition]; simp [transitionKind, runKind])] at grown
  refine ⟨List.perm_nil.mp grown, ⟨⟨memory, ?_, source, snapshot, row, rfl,
    accepted⟩, logged_insert ofTenant inserted, fun reactivates => ?_⟩, ?_⟩
  · exact (Table.find?_eq_some_iff.mp current).2
  · exact ((backs reactivates).of_sameLog sameLog).append midUnsettled noRun
      inserted
  · intro other settled before
    exact (before.of_sameLog sameLog).append midUnsettled noRun inserted

theorem settleTransitions_eq_ok {now : String}
    {items : List (ReviewedStalenessSelection × StalenessRule)}
    {store final : Store} {witnesses : List StalenessWitness}
    (ended : items.mapM (settleTransition env manifest deps now) store =
      .ok witnesses final) (unsettled : Unsettled manifest store) :
    Unsettled manifest final ∧
      List.Forall₂ (fun item witness =>
        SettledSelection env manifest now item witness final) items witnesses ∧
      ∀ other settled, SettledSelection env manifest now other settled store →
        SettledSelection env manifest now other settled final := by
  induction items generalizing store witnesses with
  | nil =>
      cases ended
      exact ⟨unsettled, .nil, fun _ _ settled => settled⟩
  | cons item items induction =>
      rw [List.mapM_cons] at ended
      simp only [bind_eq_ok_iff] at ended
      obtain ⟨witness, mid, first, others, last, rest, read⟩ := ended
      cases read
      obtain ⟨midUnsettled, own, kept⟩ := settleTransition_eq_ok first unsettled
      obtain ⟨finalUnsettled, settled, keeps⟩ := induction rest midUnsettled
      exact ⟨finalUnsettled, .cons (keeps _ _ own) settled,
        fun other settled before => keeps _ _ (kept _ _ before)⟩

/-! ## The replay -/

theorem verifyWitness_eq_ok_iff {witness : StalenessWitness}
    {store final : Store} {value : PUnit} :
    verifyWitness manifest witness store = .ok value final ↔
      final = store ∧
        currentMemory manifest witness.memory.id store =
          .ok witness.memory store ∧
        ∃ receipt, receiptById manifest witness.memory.id witness.receipt.id
            store = .ok receipt store ∧
          receipt.json.canonical = witness.receipt.json.canonical := by
  unfold verifyWitness
  simp only [bind_eq_ok_iff, currentMemory_eq_ok_iff, receiptById_eq_ok_iff,
    ensure_eq_ok_iff]
  constructor
  · rintro ⟨memory, _, ⟨rfl, current⟩, receipt, _, ⟨rfl, logged⟩,
      ⟨rfl, canonical⟩, rfl⟩
    exact ⟨rfl, ⟨trivial, current⟩, receipt, ⟨trivial, logged⟩, canonical⟩
  · rintro ⟨rfl, ⟨-, current⟩, receipt, ⟨-, logged⟩, canonical⟩
    exact ⟨witness.memory, final, ⟨rfl, current⟩, receipt, final,
      ⟨rfl, logged⟩, ⟨rfl, canonical⟩, rfl⟩

theorem beforeReview_reviewed {memory : CuratedMemory}
    {operation : StalenessOperation} (now : String)
    (source : memory.lifecycle = operation.source) :
    CuratedMemory.beforeReview (CuratedMemory.reviewed memory operation now)
      operation memory.updatedAt = memory := by
  obtain ⟨⟩ := memory
  cases source
  rfl

theorem SettledSelection.receiptById {now : String}
    {item : ReviewedStalenessSelection × StalenessRule}
    {witness : StalenessWitness} {store : Store}
    (settled : SettledSelection env manifest now item witness store) :
    Registrar.receiptById manifest witness.memory.id witness.receipt.id store =
      .ok witness.receipt store := by
  obtain ⟨memory, -, -, -, -, isReviewed, accepted⟩ := settled.reviewed
  obtain ⟨tenantId, reason, -, isReceipt⟩ := AuditEvent.parse_eq_ok accepted
  refine receiptById_eq_ok_iff.mpr ⟨rfl, rfl, ?_, settled.logged⟩
  rw [isReceipt, isReviewed]
  rfl

/-- A verified settlement of a selection is found again. -/
theorem replayWitness_of_settled {now : String}
    {item : ReviewedStalenessSelection × StalenessRule}
    {witness : StalenessWitness} {store : Store}
    (settled : SettledSelection env manifest now item witness store)
    (verified : verifyWitness manifest witness store = .ok ⟨⟩ store) :
    replayWitness env manifest now item store = .ok witness store := by
  have receipt := settled.receiptById
  obtain ⟨⟨memory, isId, source, snapshot, row, isReviewed, accepted⟩, -,
    backed⟩ := settled
  obtain ⟨-, current, -⟩ := verifyWitness_eq_ok_iff.mp verified
  have sameId : witness.memory.id = item.1.memoryId := by
    rw [isReviewed]
    exact isId
  obtain ⟨-, told⟩ := transitionReceipt_kind accepted
  have receiptId : witness.receipt.id = stalenessEventId env manifest
      witness.memory.id manifest.operation.action := by
    obtain ⟨tenantId, reason, -, isReceipt⟩ := AuditEvent.parse_eq_ok accepted
    rw [isReceipt, isReviewed]
    rfl
  rw [receiptId] at receipt
  rw [sameId] at current
  unfold replayWitness
  dsimp only
  rw [bind_apply_of_ok current, bind_apply_of_ok receipt, told]
  dsimp only
  have before : CuratedMemory.beforeReview witness.memory manifest.operation
      memory.updatedAt = memory := by
    rw [isReviewed]
    exact beforeReview_reviewed now source
  have target : witness.memory.lifecycle = manifest.operation.target := by
    rw [isReviewed]
    rfl
  have replays : when (manifest.operation = .reactivate)
      (priorDeprecation env manifest item.1) store = .ok ⟨⟩ store := by
    rw [when_eq_ok_iff]
    split_ifs with reactivates
    · exact priorDeprecation_eq_ok_iff.mpr ⟨rfl, backed reactivates⟩
    · rfl
  rw [bind_apply_of_ok (ensure_apply_of_holds target store), before,
    bind_apply_of_ok (ensure_apply_of_holds ⟨snapshot, row⟩ store),
    bind_apply_of_ok replays]
  have built : buildTransition env manifest item.1 item.2 now memory store =
      .ok witness store := by
    unfold buildTransition
    rw [bind_apply_of_ok (orSchemaError_eq_ok_iff.mpr ⟨accepted, rfl⟩),
      ← isReviewed]
    rfl
  rw [bind_apply_of_ok built, bind_apply_of_ok verified]
  rfl

theorem forM_unchanged {Item : Type} {body : Item → StoreM PUnit}
    (reads : ∀ item store final, body item store = .ok ⟨⟩ final →
      final = store)
    {items : List Item} {store final : Store} {value : PUnit}
    (ended : items.forM body store = .ok value final) :
    final = store ∧ ∀ item ∈ items, body item store = .ok ⟨⟩ store := by
  induction items with
  | nil =>
      change (pure ⟨⟩ : StoreM PUnit) store = _ at ended
      cases ended
      exact ⟨rfl, nofun⟩
  | cons item items induction =>
      change (body item >>= fun _ => items.forM body) store = _ at ended
      obtain ⟨_, mid, first, rest⟩ := bind_eq_ok_iff.mp ended
      obtain rfl := reads item store mid first
      obtain ⟨rfl, others⟩ := induction rest
      exact ⟨rfl, List.forall_mem_cons.mpr ⟨first, others⟩⟩

theorem mapM_apply_of_forall₂ {Item Result : Type}
    {body : Item → StoreM Result} {items : List Item} {results : List Result}
    {store : Store}
    (rounds : List.Forall₂ (fun item result => body item store =
      .ok result store) items results) :
    items.mapM body store = .ok results store := by
  induction rounds with
  | nil => rw [List.mapM_nil, pure_apply]
  | cons first rest induction =>
      rw [List.mapM_cons, bind_apply_of_ok first, bind_apply_of_ok induction,
        pure_apply]

theorem strictChain_eq_ok_iff {store final : Store} {value : PUnit} :
    strictChain env store = .ok value final ↔
      isStrictChain env store.auditEvents = true ∧ final = store := by
  unfold strictChain
  rw [bind_apply_of_ok (query_apply _ _), ensure_eq_ok_iff]

/-- What a settled run has left. -/
structure SettledRun (env : Environment) (manifest : ReviewedStalenessManifest)
    (items : List (ReviewedStalenessSelection × StalenessRule))
    (result : ReviewedStalenessResult) (store : Store) : Prop where
  strict : isStrictChain env store.auditEvents = true
  receipts : ∃ receipt built witnesses,
    runReceipts manifest manifest.runId store = [receipt] ∧
    receipt.detailText "manifestDigest" =
      some (manifestDigest env manifest) ∧
    AuditEvent.parse (runReceipt env manifest receipt.timestamp witnesses) =
      .ok built ∧
    built.json.canonical = receipt.json.canonical ∧
    items.mapM (replayWitness env manifest receipt.timestamp) store =
      .ok witnesses store ∧
    result.runReceiptId = receipt.id ∧
    result.transitionReceiptIds =
      witnesses.map fun witness => witness.receipt.id

theorem reviews_unchanged
    {items : List (ReviewedStalenessSelection × StalenessRule)}
    {store final : Store} {value : PUnit}
    (ended : (items.forM fun item => do
      let _ ← reviewSelection env manifest deps item.1 item.2
      pure ⟨⟩ : StoreM PUnit) store = .ok value final) : final = store := by
  refine (forM_unchanged (fun item store final passed => ?_) ended).1
  simp only [bind_eq_ok_iff] at passed
  obtain ⟨memory, _, reviewed, read⟩ := passed
  cases read
  exact (reviewSelection_eq_ok reviewed).1

theorem checkReviewTime_unchanged {store final : Store} {value : PUnit}
    (ended : checkReviewTime env manifest deps store = .ok value final) :
    final = store := by
  obtain ⟨_, _, isTime, inOrder⟩ := bind_eq_ok_iff.mp ended
  obtain ⟨-, rfl⟩ := ensure_eq_ok_iff.mp isTime
  exact (ensure_eq_ok_iff.mp inOrder).2

theorem settleRun_settled
    {items : List (ReviewedStalenessSelection × StalenessRule)}
    {store final : Store} {result : ReviewedStalenessResult}
    (unsettled : Unsettled manifest store)
    (ended : settleRun env manifest deps items store = .ok result final) :
    SettledRun env manifest items result final := by
  unfold settleRun at ended
  simp only [bind_eq_ok_iff, orSchemaError_eq_ok_iff,
    AuditRepository.insert_eq_ok_iff, receiptById_eq_ok_iff, ensure_eq_ok_iff,
    strictChain_eq_ok_iff] at ended
  obtain ⟨_, _, reviews, _, _, timed, witnesses, mid, transitions, receipt, _,
    ⟨accepted, rfl⟩, _, _, ⟨log, inserted, rfl⟩, _, _, verified, _, _,
    ⟨rfl, -⟩, _, _, ⟨-, rfl⟩, _, _, ⟨strict, rfl⟩, read⟩ := ended
  cases read
  obtain rfl := reviews_unchanged reviews
  obtain rfl := checkReviewTime_unchanged timed
  obtain ⟨rfl, allVerified⟩ := forM_unchanged
    (fun _ _ _ passed => (verifyWitness_eq_ok_iff.mp passed).1) verified
  obtain ⟨midUnsettled, settled, -⟩ :=
    settleTransitions_eq_ok transitions unsettled
  have ofTenant := @parse_tenant manifest _ _ rfl accepted
  have isRun : receipt.detailText "kind" = some runKind := by
    rw [parse_detailText accepted]
    rfl
  have ofRun : receipt.memoryId = manifest.runId ∧
      receipt.timestamp = deps.now := by
    obtain ⟨tenantId, reason, -, rfl⟩ := AuditEvent.parse_eq_ok accepted
    exact ⟨rfl, rfl⟩
  have grown := @runReceipts_append _ manifest manifest.runId _ _ _ inserted
  rw [show runReceipts manifest manifest.runId _ = [] from midUnsettled,
    if_pos ⟨ofRun.1, ofTenant, isRun⟩] at grown
  refine ⟨strict, receipt, receipt, witnesses, List.perm_singleton.mp grown,
    ?_, ?_, rfl, ?_, rfl, rfl⟩
  · rw [parse_detailText accepted]
    rfl
  · rw [ofRun.2]
    exact accepted
  · rw [ofRun.2]
    apply mapM_apply_of_forall₂
    have both := (List.forall₂_and_left _ _).mpr ⟨allVerified, settled.flip⟩
    refine both.flip.imp fun item witness found => ?_
    exact replayWitness_of_settled (found.2.append midUnsettled
      (fun _ => ofRun.1) inserted) found.1

theorem forM_apply_of_forall {Item : Type} {body : Item → StoreM PUnit}
    {items : List Item} {store : Store}
    (rounds : ∀ item ∈ items, body item store = .ok ⟨⟩ store) :
    items.forM body store = .ok ⟨⟩ store := by
  induction items with
  | nil => rfl
  | cons item rest induction =>
      obtain ⟨first, others⟩ := List.forall_mem_cons.mp rounds
      change (body item >>= fun _ => rest.forM body) store = _
      rw [bind_apply_of_ok first]
      exact induction others

/-- A run returns if its writes do and leave the reviewed memories and a strict
chain: the receipts that it looks for are those it has written. -/
theorem settleRun_returns
    {items : List (ReviewedStalenessSelection × StalenessRule)}
    {store mid final : Store} {witnesses : List StalenessWitness}
    {receipt : AuditEvent} (unsettled : Unsettled manifest store)
    (reviews : (items.forM fun item => do
      let _ ← reviewSelection env manifest deps item.1 item.2
      pure ⟨⟩ : StoreM PUnit) store = .ok ⟨⟩ store)
    (timed : checkReviewTime env manifest deps store = .ok ⟨⟩ store)
    (transitions : items.mapM (settleTransition env manifest deps deps.now)
      store = .ok witnesses mid)
    (accepted : AuditEvent.parse (runReceipt env manifest deps.now witnesses) =
      .ok receipt)
    (inserted : AuditRepository.insert env receipt mid = .ok ⟨⟩ final)
    (current : ∀ witness ∈ witnesses,
      currentMemory manifest witness.memory.id final =
        .ok witness.memory final)
    (strict : isStrictChain env final.auditEvents = true) :
    settleRun env manifest deps items store = .ok
      { runReceiptId := receipt.id
        transitionReceiptIds := witnesses.map fun witness => witness.receipt.id
        replay := false } final := by
  obtain ⟨midUnsettled, settled, -⟩ :=
    settleTransitions_eq_ok transitions unsettled
  obtain ⟨log, isLog, rfl⟩ := (AuditRepository.insert_eq_ok_iff env).mp inserted
  have ofTenant := @parse_tenant manifest _ _ rfl accepted
  obtain ⟨tenantId, reason, -, isReceipt⟩ := AuditEvent.parse_eq_ok accepted
  have ofRun : receipt.memoryId = manifest.runId := by
    rw [isReceipt]
    rfl
  have verified : ∀ witness ∈ witnesses, verifyWitness manifest witness
      { mid with auditEvents := log } =
        .ok ⟨⟩ { mid with auditEvents := log } := by
    intro witness member
    obtain ⟨item, -, isSettled⟩ := exists_of_forall₂_right settled member
    have found := (isSettled.append midUnsettled (fun _ => ofRun)
      isLog).receiptById
    exact verifyWitness_eq_ok_iff.mpr
      ⟨rfl, current witness member, witness.receipt, found, rfl⟩
  have persisted : receiptById manifest manifest.runId receipt.id
      { mid with auditEvents := log } =
        .ok receipt { mid with auditEvents := log } := by
    refine receiptById_eq_ok_iff.mpr ⟨rfl, rfl, ofRun, ofTenant, ?_⟩
    refine ⟨appendedRecord env mid.auditEvents receipt, ?_, rfl⟩
    rw [Table.rows_of_insert? isLog]
    exact List.mem_concat_self
  have chain : strictChain env { mid with auditEvents := log } =
      .ok ⟨⟩ { mid with auditEvents := log } :=
    strictChain_eq_ok_iff.mpr ⟨strict, rfl⟩
  unfold settleRun
  rw [bind_apply_of_ok reviews, bind_apply_of_ok timed,
    bind_apply_of_ok transitions,
    bind_apply_of_ok (orSchemaError_eq_ok_iff.mpr ⟨accepted, rfl⟩),
    bind_apply_of_ok inserted,
    bind_apply_of_ok (forM_apply_of_forall verified),
    bind_apply_of_ok persisted, bind_apply_of_ok (ensure_apply_of_holds rfl _),
    bind_apply_of_ok chain]
  rfl

/-- A run that was settled is replayed. -/
theorem SettledRun.replays {items : List
      (ReviewedStalenessSelection × StalenessRule)}
    {result : ReviewedStalenessResult} {store : Store}
    (settled : SettledRun env manifest items result store)
    (rules : requireRules env manifest deps = .ok items) :
    settleStaleness env manifest deps store =
      .ok { result with replay := true } store := by
  obtain ⟨strict, receipt, built, witnesses, runs, isManifest, accepted,
    canonical, replayed, isId, areIds⟩ := settled
  have chain : strictChain env store = .ok ⟨⟩ store :=
    strictChain_eq_ok_iff.mpr ⟨strict, rfl⟩
  unfold settleStaleness
  rw [bind_apply_of_ok chain, rules]
  unfold orError
  rw [pure_bind, bind_apply_of_ok (query_apply _ _), runs]
  dsimp only
  rw [bind_apply_of_ok (ensure_apply_of_holds isManifest store)]
  unfold replayRun
  rw [bind_apply_of_ok replayed,
    bind_apply_of_ok (orSchemaError_eq_ok_iff.mpr ⟨accepted, rfl⟩),
    bind_apply_of_ok (ensure_apply_of_holds canonical store), pure_apply, isId,
    areIds]

theorem settledRun_of_replayRun {previous : AuditEvent}
    {items : List (ReviewedStalenessSelection × StalenessRule)}
    {store final : Store} {result : ReviewedStalenessResult}
    (strict : isStrictChain env store.auditEvents = true)
    (runs : runReceipts manifest manifest.runId store = [previous])
    (isManifest : previous.detailText "manifestDigest" =
      some (manifestDigest env manifest))
    (ended : replayRun env manifest previous items store = .ok result final) :
    SettledRun env manifest items result final := by
  obtain rfl := eq_of_keeps (replayRun_keeps previous items) ended
  unfold replayRun at ended
  simp only [bind_eq_ok_iff, orSchemaError_eq_ok_iff, ensure_eq_ok_iff] at ended
  obtain ⟨witnesses, _, mapped, built, _, ⟨accepted, rfl⟩, _, _,
    ⟨canonical, rfl⟩, read⟩ := ended
  cases read
  exact ⟨strict, previous, built, witnesses, runs, isManifest, accepted,
    canonical, mapped, rfl, rfl⟩

theorem orError_eq_ok_iff {Value : Type}
    {checked : Except RegistrarError Value} {store final : Store}
    {value : Value} :
    orError checked store = .ok value final ↔
      checked = .ok value ∧ final = store := by
  cases checked <;> simp [orError, eq_comm]

theorem requireRules_congr {later : ReviewedStalenessDependencies}
    (sameBytes : later.sourceBytes = deps.sourceBytes)
    (sameRules : later.rules = deps.rules) :
    requireRules env manifest later = requireRules env manifest deps := by
  unfold requireRules requireRule
  have checks : checkSource env later = checkSource env deps := by
    unfold checkSource
    rw [sameBytes]
  rw [sameRules, checks]

theorem settleStaleness_replays {later : ReviewedStalenessDependencies}
    (sameBytes : later.sourceBytes = deps.sourceBytes)
    (sameRules : later.rules = deps.rules) {store final : Store}
    {result : ReviewedStalenessResult}
    (ended : settleStaleness env manifest deps store = .ok result final) :
    settleStaleness env manifest later final =
      .ok { result with replay := true } final := by
  unfold settleStaleness at ended
  simp only [bind_eq_ok_iff, strictChain_eq_ok_iff] at ended
  obtain ⟨_, _, ⟨strict, rfl⟩, items, start, required, runs, _, read, ended⟩ :=
    ended
  obtain ⟨areRules, rfl⟩ := orError_eq_ok_iff.mp required
  cases read
  dsimp only at ended
  refine SettledRun.replays ?_
    ((requireRules_congr sameBytes sameRules).trans areRules)
  cases found : runReceipts manifest manifest.runId start with
  | nil =>
      rw [found] at ended
      exact settleRun_settled found ended
  | cons previous rest =>
      cases rest with
      | nil =>
          rw [found] at ended
          obtain ⟨_, _, same, replayed⟩ := bind_eq_ok_iff.mp ended
          obtain ⟨isManifest, rfl⟩ := ensure_eq_ok_iff.mp same
          exact settledRun_of_replayRun strict found isManifest replayed
      | cons _ _ =>
          rw [found] at ended
          cases ended

/-- A program that throws changes nothing, and behind one that returns `again`
returns the same receipts and changes nothing. -/
structure ReplayedBy (again program : StoreM ReviewedStalenessResult)
    (store : Store) : Prop where
  thrown : ∀ error final, program store = .error error final → final = store
  returned : ∀ result final, program store = .ok result final →
    again final = .ok { result with replay := true } final

/-- A settlement that throws changes nothing.  Settling the same manifest
behind one that returned, under the same rules and sources and at whatever
time, returns the same receipts and writes nothing. -/
theorem settled_manifest_replays
    (value : Except String ReviewedStalenessManifest) (expectedDigest : String)
    (deps later : ReviewedStalenessDependencies)
    (sameBytes : later.sourceBytes = deps.sourceBytes)
    (sameRules : later.rules = deps.rules) (store : Store) :
    ReplayedBy (settleReviewedStaleness env value expectedDigest later)
      (settleReviewedStaleness env value expectedDigest deps) store := by
  cases value with
  | error complaint =>
      refine ⟨fun error final thrown => ?_, fun result final returned => ?_⟩
      · cases thrown
        rfl
      · cases returned
  | ok manifest =>
      unfold settleReviewedStaleness
      by_cases isDigest : manifestDigest env manifest = expectedDigest
      · constructor
        · intro error final thrown
          simp only [bind_apply_of_ok (ensure_apply_of_holds isDigest _)]
            at thrown
          exact eq_of_transaction_eq_error thrown
        · intro result final returned
          simp only [bind_apply_of_ok (ensure_apply_of_holds isDigest _),
            transaction_eq_ok_iff] at returned ⊢
          exact settleStaleness_replays sameBytes sameRules returned
      · simp only [ensure, if_neg isDigest]
        refine ⟨fun error final thrown => ?_, fun result final returned => ?_⟩
        · cases thrown
          rfl
        · cases returned

theorem settleStaleness_of_unsettled
    {items : List (ReviewedStalenessSelection × StalenessRule)} {store : Store}
    (strict : isStrictChain env store.auditEvents = true)
    (rules : requireRules env manifest deps = .ok items)
    (unsettled : Unsettled manifest store) :
    settleStaleness env manifest deps store =
      settleRun env manifest deps items store := by
  have chain : strictChain env store = .ok ⟨⟩ store :=
    strictChain_eq_ok_iff.mpr ⟨strict, rfl⟩
  unfold Unsettled at unsettled
  unfold settleStaleness
  rw [bind_apply_of_ok chain, rules]
  unfold orError
  rw [pure_bind, bind_apply_of_ok (query_apply _ _), unsettled]

theorem settleReviewedStaleness_of_digest {expectedDigest : String}
    {store final : Store} {result : ReviewedStalenessResult}
    (isDigest : manifestDigest env manifest = expectedDigest)
    (ended : settleStaleness env manifest deps store = .ok result final) :
    settleReviewedStaleness env (.ok manifest) expectedDigest deps store =
      .ok result final := by
  unfold settleReviewedStaleness
  dsimp only
  rw [bind_apply_of_ok (ensure_apply_of_holds isDigest _)]
  exact transaction_eq_ok_iff.mpr ended

/-! ## A retired note -/

def movedDigest : String :=
  "0123456789abcdef0123456789abcdef0123456789abcdef0123456789abcdef"

/-- Every text has one hash, and a time is its milliseconds. -/
def reviewEnvironment : Environment :=
  { plainEnvironment with
    sha256 := fun _ => movedDigest
    dateParse := fun text =>
      (IsoTime.instant? text).map fun seconds => (1000 * seconds).floor }

def retirementRule : StalenessRule where
  id := "retired"
  because := "The notes have moved."
  tokens := ["notes"]
  exemptIfHistorical := true
  remedy := .retirementReview
  authority :=
    some
      { basis := .documentedTopology
        effectiveDate := "2026-01-01"
        sources :=
          [{ repository := "brain"
             path := "notes.md"
             revision := "0123456789012345678901234567890123456789"
             sha256 := movedDigest
             visibility := .public_
             locator := "line 1" }]
        limitations := "none" }

def reviewDependencies : ReviewedStalenessDependencies where
  sourceBytes _ := some "The notes are in the handbook."
  rules := [retirementRule]
  retirementCandidate _ _ _ _ := true
  now := "2026-01-02T00:00:00Z"

def laterDependencies : ReviewedStalenessDependencies :=
  { reviewDependencies with now := "2026-01-03T00:00:00Z" }

def retiredNote : CuratedMemory :=
  firstRow reviewEnvironment

def retiredSelection : ReviewedStalenessSelection where
  memoryId := retiredNote.id
  snapshotDigest := movedDigest
  storedRowDigest := movedDigest
  ruleId := retirementRule.id
  ruleDigest := movedDigest
  scope := .intentSolutionsEstate
  scopeEvidenceRef := "note"
  deprecationReceipt := none

def retirement : ReviewedStalenessManifest where
  runId := "run"
  tenantId := retiredNote.tenantId
  operation := .deprecate
  actor := { curatorActor with type := .human }
  role := .admin
  reason := "retired"
  reviewedAt := "2026-01-01T00:00:00Z"
  selections := [retiredSelection]
  human := rfl
  selected := ⟨nofun, by simp⟩
  distinct := by simp
  reversals := by simp [retiredSelection]

def retiredItems : List (ReviewedStalenessSelection × StalenessRule) :=
  [(retiredSelection, retirementRule)]

def retirementReviews : StoreM PUnit :=
  retiredItems.forM fun item => do
    let _ ← reviewSelection reviewEnvironment retirement reviewDependencies
      item.1 item.2
    pure ⟨⟩

/-- The writes of the settlement and the checks behind them, but for those of
the receipts. -/
def retirementWrites : StoreM PUnit := do
  let witnesses ← retiredItems.mapM
    (settleTransition reviewEnvironment retirement reviewDependencies
      reviewDependencies.now)
  let receipt ← orSchemaError (AuditEvent.parse
    (runReceipt reviewEnvironment retirement reviewDependencies.now witnesses))
  AuditRepository.insert reviewEnvironment receipt
  witnesses.forM fun witness => do
    let memory ← currentMemory retirement witness.memory.id
    ensure (memory = witness.memory) (.error "changed")
  strictChain reviewEnvironment

def succeeds (program : StoreM PUnit) (store : Store) : Bool :=
  match program store with
  | .ok _ _ => true
  | .error _ _ => false

theorem exists_of_succeeds {program : StoreM PUnit} {store : Store}
    (completed : succeeds program store = true) :
    ∃ final, program store = .ok ⟨⟩ final := by
  unfold succeeds at completed
  cases ended : program store with
  | ok value final => exact ⟨final, rfl⟩
  | error error final =>
      rw [ended] at completed
      cases completed

theorem settleStaleness_retirement :
    ∃ result final, settleStaleness reviewEnvironment retirement
        reviewDependencies (storeOf retiredNote) = .ok result final ∧
      result.transitionReceiptIds.length = 1 := by
  obtain ⟨_, reviews⟩ : ∃ final,
      retirementReviews (storeOf retiredNote) = .ok ⟨⟩ final :=
    exists_of_succeeds (by decide +kernel)
  obtain ⟨_, timed⟩ : ∃ final, checkReviewTime reviewEnvironment retirement
      reviewDependencies (storeOf retiredNote) = .ok ⟨⟩ final :=
    exists_of_succeeds (by decide +kernel)
  obtain ⟨final, ended⟩ : ∃ final,
      retirementWrites (storeOf retiredNote) = .ok ⟨⟩ final :=
    exists_of_succeeds (by decide +kernel)
  obtain rfl := reviews_unchanged reviews
  obtain rfl := checkReviewTime_unchanged timed
  unfold retirementWrites at ended
  simp only [bind_eq_ok_iff, orSchemaError_eq_ok_iff, strictChain_eq_ok_iff]
    at ended
  obtain ⟨witnesses, mid, transitions, receipt, _, ⟨accepted, rfl⟩, _, _,
    inserted, _, _, checks, strict, rfl⟩ := ended
  obtain ⟨rfl, current⟩ := forM_unchanged (fun _ _ _ passed => by
    obtain ⟨memory, _, found, same⟩ := bind_eq_ok_iff.mp passed
    obtain ⟨-, rfl⟩ := ensure_eq_ok_iff.mp same
    exact (currentMemory_eq_ok_iff.mp found).1) checks
  have unsettled : Unsettled retirement (storeOf retiredNote) := rfl
  have returned := settleRun_returns unsettled reviews timed transitions
    accepted inserted (fun witness member => by
      obtain ⟨memory, _, found, same⟩ :=
        bind_eq_ok_iff.mp (current witness member)
      obtain ⟨rfl, rfl⟩ := ensure_eq_ok_iff.mp same
      exact found) strict
  have rules : requireRules reviewEnvironment retirement reviewDependencies =
      .ok retiredItems := by
    rfl
  have isRun := settleStaleness_of_unsettled rfl rules unsettled
  obtain ⟨-, settled, -⟩ := settleTransitions_eq_ok transitions unsettled
  refine ⟨_, final, isRun.trans returned, ?_⟩
  rw [List.length_map]
  exact settled.length_eq.symm

theorem settled_manifest_replays_retirement :
    ∃ result final,
      settleReviewedStaleness reviewEnvironment (.ok retirement) movedDigest
          reviewDependencies (storeOf retiredNote) = .ok result final ∧
        result.transitionReceiptIds.length = 1 ∧
        settleReviewedStaleness reviewEnvironment (.ok retirement) movedDigest
            laterDependencies final =
          .ok { result with replay := true } final := by
  obtain ⟨result, final, ended, one⟩ := settleStaleness_retirement
  have returned := settleReviewedStaleness_of_digest rfl ended
  have replays := @settled_manifest_replays reviewEnvironment (.ok retirement)
    movedDigest reviewDependencies laterDependencies rfl rfl
    (storeOf retiredNote)
  exact ⟨result, final, returned, one, replays.returned result final returned⟩

end Registrar
