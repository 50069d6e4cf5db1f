import Registrar.Curator.MergeGate
import Registrar.Store.MergeVerify

/-!
# When a merge verifies

The merge appends its receipts in the order of the memory ids; the merge-aware
verifier walks them in the order of their own ids, which are digests of the
memory ids.
-/

namespace Registrar

open Program

variable {env : Environment}

def AuditLog.chainRows (log : AuditLog) : List AuditChainRow :=
  log.rows.map AuditRecord.columns

/-- Every record was appended by the append transaction, none of them a
floor receipt. -/
structure AppendedLog (env : Environment) (log : AuditLog) : Prop where
  inOrder : findAllChronological log.chainRows = log.chainRows
  linked : (auditScheme env.sha256).Linked none log.chainRows
  chained : ∀ row ∈ log.chainRows, (auditScheme env.sha256).Chained row
  ungoverned : ∀ record ∈ log.rows, record.event.action ≠ .governed

theorem AppendedLog.of_empty {log : AuditLog} (emptyLog : log.rows = []) :
    AppendedLog env log where
  inOrder := by simp [AuditLog.chainRows, emptyLog, findAllChronological]
  linked := by
    rw [AuditLog.chainRows, emptyLog]
    exact .nil
  chained := by simp [AuditLog.chainRows, emptyLog]
  ungoverned := by simp [emptyLog]

theorem chainRows_of_insert {log next : AuditLog} {event : AuditEvent}
    (inserted : log.insert? (appendedRecord env log event) = some next) :
    next.chainRows = log.chainRows ++
      [appendedRow env.sha256 log.chainRows (appendParams event.raw)] := by
  rw [AuditLog.chainRows, Table.rows_of_insert? inserted, List.map_append,
    List.map_singleton, appendedRecord_columns]
  rfl

theorem AppendedLog.append {log next : AuditLog} {event : AuditEvent}
    (appended : AppendedLog env log)
    (notFloor : event.action ≠ .governed)
    (inserted : log.insert? (appendedRecord env log event) = some next) :
    AppendedLog env next := by
  have rows := chainRows_of_insert inserted
  have accepted : ∀ other ∈ log.chainRows,
      AuditRowsCoexist other
        (appendedRow env.sha256 log.chainRows (appendParams event.raw)) := by
    intro other member
    obtain ⟨record, inside, isColumns⟩ := List.mem_map.mp member
    rw [← isColumns, AuditLog.chainRows, ← appendedRecord_columns]
    exact (Table.insert?_eq_some_iff.mp inserted).1 record inside
  have inOrder : findAllChronological next.chainRows = next.chainRows := by
    rw [rows, findAllChronological_append accepted, appended.inOrder]
  refine
    { inOrder := inOrder
      linked := ?_
      chained := ?_
      ungoverned := ?_ }
  · have linked : (auditScheme env.sha256).Linked none
        (findAllChronological log.chainRows) :=
      appended.inOrder.symm ▸ appended.linked
    rw [rows]
    apply appended.linked.append_singleton (appendedRow_chained _ _ _)
    have fits := appendedRow_fits event.raw_isStorable linked
    rwa [appended.inOrder] at fits
  · intro row member
    rw [rows] at member
    rcases List.mem_append.mp member with earlier | last
    · exact appended.chained row earlier
    · rw [List.mem_singleton.mp last]
      exact appendedRow_chained _ _ _
  · intro record member
    rw [Table.rows_of_insert? inserted] at member
    rcases List.mem_append.mp member with earlier | last
    · exact appended.ungoverned record earlier
    · rw [List.mem_singleton.mp last]
      exact notFloor

/-- The id of the receipt that promotes a row. -/
def promotedReceiptId (env : Environment) (memory : CuratedMemory) : String :=
  deriveAuditEventId env
    (deriveMemoryId env memory.candidateId
      (computeContentHash env memory.content.value)) "promoted" ""

/-- A promotion without supersessions and floors appends its receipt. -/
theorem commit_merge_eq_ok {memory promoted : CuratedMemory}
    {pipelineResult : PipelineResult} {now : String} {store final : Store}
    (committed :
      (mergePromotion env (untrustedProjection memory) none
          pipelineResult).commit env now false promoted none store =
        .ok ⟨⟩ final) :
    ∃ event : AuditEvent,
      event.id = promotedReceiptId env memory ∧ event.action = .promoted ∧
        store.auditEvents.insert?
            (appendedRecord env store.auditEvents event) =
          some final.auditEvents := by
  obtain ⟨_, _, resolved, afterFloor⟩ := bind_eq_ok_iff.mp committed
  obtain ⟨-, rfl⟩ := resolveMinimum_eq_ok_iff.mp resolved
  obtain ⟨_, _, agreed, afterCheck⟩ := bind_eq_ok_iff.mp afterFloor
  obtain ⟨-, rfl⟩ := ensure_eq_ok_iff.mp agreed
  obtain ⟨_, _, superseded, afterSupersessions⟩ :=
    bind_eq_ok_iff.mp afterCheck
  cases superseded
  obtain ⟨_, _, insertedMemory, afterInsert⟩ :=
    bind_eq_ok_iff.mp afterSupersessions
  obtain ⟨memories, -, rfl⟩ :=
    MemoryRepository.insert_eq_ok_iff.mp insertedMemory
  obtain ⟨_, _, linked, afterLinks⟩ := bind_eq_ok_iff.mp afterInsert
  cases linked
  obtain ⟨_, _, recorded, retained⟩ := bind_eq_ok_iff.mp afterLinks
  cases retained
  obtain ⟨event, log, parsed, inserted, rfl⟩ :=
    (AuditRepository.record_eq_ok_iff env).mp recorded
  obtain ⟨tenantId, reason, -, rfl⟩ := AuditEvent.parse_eq_ok parsed
  exact ⟨_, rfl, rfl, inserted⟩

/-- The gate lets a row pass, given the content hashes seen so far. -/
def Admits (env : Environment) (options : MergeGovernOptions)
    (existingHashes : List String) (memory : CuratedMemory) : Prop :=
  disclosureViolation env (untrustedProjection memory) = none ∧
    (mergeDecision env options existingHashes (untrustedProjection memory)
      none).isOk = true

instance (options : MergeGovernOptions) (existingHashes : List String)
    (memory : CuratedMemory) :
    Decidable (Admits env options existingHashes memory) :=
  inferInstanceAs (Decidable (_ ∧ _))

/-- The admitted rows of a union, in its order. -/
def admitted (env : Environment) (options : MergeGovernOptions) :
    List String → List CuratedMemory → List CuratedMemory
  | _, [] => []
  | existingHashes, memory :: rest =>
      if Admits env options existingHashes memory then
        memory :: admitted env options
          (computeContentHash env memory.content.value :: existingHashes) rest
      else admitted env options existingHashes rest

/-- The ids of the receipts that admitted rows leave in the log. -/
def writtenReceipts (env : Environment) (options : MergeGovernOptions)
    (rows : List CuratedMemory) : List String :=
  if options.dryRun = false then rows.map (promotedReceiptId env) else []

theorem writtenReceipts_cons (options : MergeGovernOptions)
    (memory : CuratedMemory) (rest : List CuratedMemory) :
    writtenReceipts env options (memory :: rest) =
      writtenReceipts env options [memory] ++
        writtenReceipts env options rest := by
  unfold writtenReceipts
  split_ifs <;> rfl

/-- The loop body either quarantines a row and leaves the store alone, or
admits it and appends its receipt. -/
theorem governCandidate_eq_ok {options : MergeGovernOptions} {index : Nat}
    {memory : CuratedMemory}
    {progress next : MergeProgress} {store final : Store}
    (appended : AppendedLog env store.auditEvents)
    (governed :
      governCandidate env options index memory.id (untrustedProjection memory)
          progress store = .ok next final) :
    (¬Admits env options progress.existingHashes memory ∧ final = store ∧
        next.existingHashes = progress.existingHashes ∧
        next.promoted = progress.promoted) ∨
      Admits env options progress.existingHashes memory ∧
        AppendedLog env final.auditEvents ∧
        final.auditEvents.chainRows.map AuditChainRow.id =
          store.auditEvents.chainRows.map AuditChainRow.id ++
            writtenReceipts env options [memory] ∧
        next.existingHashes = computeContentHash env memory.content.value ::
          progress.existingHashes ∧
        next.promoted.length = progress.promoted.length + 1 := by
  unfold governCandidate at governed
  cases disclosure : disclosureViolation env (untrustedProjection memory) with
  | some category =>
      rw [disclosure] at governed
      cases governed
      exact .inl ⟨by simp [Admits, disclosure], rfl, rfl, rfl⟩
  | none =>
      rw [disclosure] at governed
      obtain ⟨minimum, _, resolved, decided⟩ := bind_eq_ok_iff.mp governed
      obtain ⟨found, rfl⟩ := resolveMinimum_eq_ok_iff.mp resolved
      rw [resolveMinimum_of_ungoverned appended.ungoverned] at found
      cases found
      cases decision : mergeDecision env options progress.existingHashes
          (untrustedProjection memory) none with
      | error reason =>
          rw [decision] at decided
          cases decided
          exact .inl ⟨by simp [Admits, decision, Except.isOk, Except.toBool],
            rfl, rfl, rfl⟩
      | ok pipelineResult =>
          simp only [decision] at decided
          obtain ⟨promoted, _, completed, returned⟩ :=
            bind_eq_ok_iff.mp decided
          cases returned
          have passes :
              Admits env options progress.existingHashes memory :=
            ⟨disclosure, by simp [decision, Except.isOk, Except.toBool]⟩
          have committed := (promote_eq_ok completed).2.2
          rw [writtenReceipts]
          split_ifs at committed ⊢ with wet
          · obtain ⟨event, sameId, sameAction, inserted⟩ :=
              commit_merge_eq_ok committed
            have notFloor : event.action ≠ .governed := by
              rw [sameAction]
              simp
            have rows := chainRows_of_insert inserted
            refine .inr ⟨passes, appended.append notFloor inserted, ?_, rfl,
              by simp [MergeProgress.promote]⟩
            rw [rows, List.map_append, List.map_singleton, List.map_singleton,
              ← sameId, appendedRow_raw_id]
          · rw [committed, List.append_nil]
            exact .inr ⟨passes, appended, rfl, rfl,
              by simp [MergeProgress.promote]⟩

/-- What the rest of the loop does to an appended log. -/
theorem governUnion_eq_ok {options : MergeGovernOptions} {index : Nat}
    {rows : List CuratedMemory}
    {progress result : MergeProgress} {store final : Store}
    (appended : AppendedLog env store.auditEvents)
    (completed :
      governUnion env options index rows progress store = .ok result final) :
    AppendedLog env final.auditEvents ∧
      final.auditEvents.chainRows.map AuditChainRow.id =
        store.auditEvents.chainRows.map AuditChainRow.id ++
          writtenReceipts env options
            (admitted env options progress.existingHashes rows) ∧
      result.promoted.length = progress.promoted.length +
        (admitted env options progress.existingHashes rows).length := by
  induction rows generalizing index progress store with
  | nil =>
      cases completed
      simpa [admitted, writtenReceipts] using appended
  | cons memory rest induction =>
      simp only [governUnion, projectToUntrustedCandidate_eq, orSchemaError,
        pure_bind] at completed
      obtain ⟨next, middle, governed, governedRest⟩ :=
        bind_eq_ok_iff.mp completed
      rcases governCandidate_eq_ok appended governed with
        ⟨refused, rfl, sameHashes, samePromoted⟩ |
          ⟨passes, appendedNext, ids, hashes, oneMore⟩
      · have rest := induction appended governedRest
        rw [sameHashes, samePromoted] at rest
        rwa [admitted, if_neg refused]
      · obtain ⟨appendedFinal, restIds, restCount⟩ :=
          induction appendedNext governedRest
        rw [hashes] at restIds restCount
        rw [admitted, if_pos passes]
        refine ⟨appendedFinal, ?_, ?_⟩
        · rw [restIds, ids, List.append_assoc, ← writtenReceipts_cons]
        · rw [restCount, oneMore, List.length_cons]
          omega

theorem AuditLog.chainRows_distinct (log : AuditLog) :
    log.chainRows.Pairwise fun left right => left.id ≠ right.id :=
  List.pairwise_map.mpr (log.coexist.imp fun coexist => coexist.1)

/-- In id order a log appended from empty has no break exactly when its ids
increase, and then every row is clean. -/
theorem AppendedLog.walkChain_iff (collisionFree : env.CollisionFree)
    {log : AuditLog} (appended : AppendedLog env log) (count : Nat) :
    ((walkChain env.sha256 (canonicalMergeOrder log.chainRows)).breaks = [] ∧
        (walkChain env.sha256 (canonicalMergeOrder log.chainRows)).cleanRows =
          count) ↔
      log.chainRows.Pairwise (fun left right => left.id < right.id) ∧
        log.chainRows.length = count := by
  have breaks := walkChain_canonicalMergeOrder_iff collisionFree.sha256
    appended.linked appended.chained log.chainRows_distinct
  rw [breaks]
  refine and_congr_right fun increasing => ?_
  have sameOrder := (canonicalMergeOrder_eq_self_iff
    log.chainRows_distinct).mpr increasing
  have allChained : log.chainRows.countP
      (fun row => (auditScheme env.sha256).Chained row) =
        log.chainRows.length :=
    List.countP_eq_length.mpr fun row member =>
      decide_eq_true (appended.chained row member)
  have clean := foldl_visit_cleanRows_of_linked env.sha256
    (fun _ _ => linkAndHashReason) .start appended.linked
  have cleanRows :
      (walkChain env.sha256 (canonicalMergeOrder log.chainRows)).cleanRows =
        log.chainRows.length := by
    rw [sameOrder, ← allChained]
    exact clean.trans (Nat.zero_add _)
  rw [cleanRows]

/-- The rows that a merge of two clones into a store admits, by memory id. -/
def mergeAdmitted (env : Environment) (options : MergeGovernOptions)
    (store : Store) (cloneA cloneB : List CuratedMemory) :
    List CuratedMemory :=
  admitted env options
    (MemoryRepository.getAllContentHashes store.curatedMemories)
    (mergeUnion (cloneA ++ cloneB))

theorem mergeGovern_eq_ok {cloneA cloneB : List CuratedMemory}
    {options : MergeGovernOptions} {store final : Store}
    {result : MergeGovernResult}
    (emptyLog : store.auditEvents.rows = [])
    (completed :
      mergeGovern env cloneA cloneB options store = .ok result final) :
    AppendedLog env final.auditEvents ∧
      final.auditEvents.chainRows.map AuditChainRow.id =
        writtenReceipts env options
          (mergeAdmitted env options store cloneA cloneB) ∧
      result.promoted.length =
        (mergeAdmitted env options store cloneA cloneB).length := by
  unfold mergeGovern at completed
  cases violation : mergeIdViolation env (mergeUnion (cloneA ++ cloneB)) with
  | some error =>
      simp only [violation] at completed
      cases completed
  | none =>
      simp only [violation] at completed
      obtain ⟨hashes, _, seeded, governed⟩ := bind_eq_ok_iff.mp completed
      cases seeded
      obtain ⟨progress, _, governedUnion, returned⟩ :=
        bind_eq_ok_iff.mp governed
      cases returned
      obtain ⟨appended, ids, count⟩ :=
        governUnion_eq_ok (.of_empty emptyLog) governedUnion
      refine ⟨appended, ?_, by simpa [mergeAdmitted] using count⟩
      simpa [AuditLog.chainRows, emptyLog, mergeAdmitted] using ids

/-- A completed merge into an empty log verifies exactly when the receipt ids
of the admitted rows increase with their memory ids; a dry run, which appends
nothing, when it admits nothing. -/
theorem mergeGovern_reverifies_iff
    (collisionFree : env.CollisionFree)
    (verifyMergeAnchorSignature : SignedMergeAnchor → Bool)
    (cloneARows cloneBRows : List AuditChainRow)
    (anchors : List SignedMergeAnchor)
    {cloneA cloneB : List CuratedMemory} {options : MergeGovernOptions}
    {store final : Store} {result : MergeGovernResult}
    (emptyLog : store.auditEvents.rows = [])
    (completed :
      mergeGovern env cloneA cloneB options store = .ok result final) :
    let verified := verifyMergeAuditChain env.sha256
      verifyMergeAnchorSignature
      { cloneARows := cloneARows
        cloneBRows := cloneBRows
        mergedRows := findAllChronological final.auditEvents.chainRows
        anchors := anchors }
    (verified.mergedChain.breaks = [] ∧
        verified.mergedChain.cleanRows = result.promoted.length) ↔
      if options.dryRun = false then
        ((mergeAdmitted env options store cloneA cloneB).map
          (promotedReceiptId env)).Pairwise (· < ·)
      else mergeAdmitted env options store cloneA cloneB = [] := by
  obtain ⟨appended, ids, count⟩ := mergeGovern_eq_ok emptyLog completed
  have walked := appended.walkChain_iff collisionFree result.promoted.length
  have idsIncrease :
      (final.auditEvents.chainRows.Pairwise fun left right =>
          left.id < right.id) ↔
        (final.auditEvents.chainRows.map AuditChainRow.id).Pairwise
          (· < ·) := List.pairwise_map.symm
  have length := congrArg List.length ids
  rw [List.length_map] at length
  simp only [verifyMergeAuditChain, appended.inOrder]
  rw [walked, idsIncrease, ids, count, length, writtenReceipts]
  split_ifs with wet
  · simp
  · simp only [List.Pairwise.nil, true_and, List.length_nil]
    exact eq_comm.trans List.length_eq_zero_iff

def firstRow (env : Environment) : CuratedMemory :=
  sampleMemory env "1" ⟨"Rotate the keys weekly", by decide +kernel, by simp⟩
    ⟨"Keys", by decide +kernel, by simp⟩

def secondRow (env : Environment) : CuratedMemory :=
  sampleMemory env "2" ⟨"Archive the notes on demand", by decide +kernel, by simp⟩
    ⟨"Notes", by decide +kernel, by simp⟩

def twoRowMerge (env : Environment) : StoreM MergeGovernResult :=
  mergeGovern env [firstRow env] [secondRow env] openMergeOptions

/-- Ids that are names spelled backwards. -/
def reversedEnvironment : Environment :=
  { plainEnvironment with
    uuidV5 := fun name => String.ofList name.toList.reverse }

theorem reversedEnvironment_collisionFree :
    reversedEnvironment.CollisionFree where
  sha256 := Function.injective_id
  uuidV5 := by
    intro left right same
    have sameList : left.toList.reverse = right.toList.reverse :=
      String.ofList_injective same
    exact String.toList_injective (List.reverse_injective sameList)

/-- The walk over the log of a completed merge, in id order. -/
def walkOfMerge (env : Environment) (final : Store) : AuditVerifyResult :=
  (verifyMergeAuditChain env.sha256 (fun _ => true)
    { cloneARows := []
      cloneBRows := []
      mergedRows := findAllChronological final.auditEvents.chainRows
      anchors := [] }).mergedChain

def completes {Value : Type} :
    EStateM.Result RegistrarError Store Value → Bool
  | .ok _ _ => true
  | .error _ _ => false

/-- Two rows are promoted and chained, and the verifier finds a break. -/
theorem walkOfMerge_reversed :
    reversedEnvironment.CollisionFree ∧
      ∃ result final,
        twoRowMerge reversedEnvironment Store.empty = .ok result final ∧
          (walkOfMerge reversedEnvironment final).breaks ≠ [] := by
  refine ⟨reversedEnvironment_collisionFree, ?_⟩
  cases completed : twoRowMerge reversedEnvironment Store.empty with
  | ok result final =>
      refine ⟨result, final, rfl, ?_⟩
      obtain ⟨appended, ids, -⟩ := mergeGovern_eq_ok rfl completed
      have sameWalk : walkOfMerge reversedEnvironment final =
          walkChain reversedEnvironment.sha256
            (canonicalMergeOrder final.auditEvents.chainRows) := by
        simp only [walkOfMerge, verifyMergeAuditChain, appended.inOrder]
      rw [sameWalk, ne_eq,
        walkChain_canonicalMergeOrder_iff
          reversedEnvironment_collisionFree.sha256 appended.linked
          appended.chained final.auditEvents.chainRows_distinct]
      intro increasing
      have idsIncrease := List.pairwise_map.mpr increasing
      rw [ids] at idsIncrease
      revert idsIncrease
      decide +kernel
  | error error final =>
      have returned : completes (twoRowMerge reversedEnvironment Store.empty) =
          true := by decide +kernel
      rw [completed] at returned
      cases returned

theorem mergeGovern_reverifies_iff_plain :
    ∃ result final,
      twoRowMerge plainEnvironment Store.empty = .ok result final ∧
        (walkOfMerge plainEnvironment final).breaks = [] ∧
          (walkOfMerge plainEnvironment final).cleanRows =
            result.promoted.length := by
  cases completed : twoRowMerge plainEnvironment Store.empty with
  | ok result final =>
      refine ⟨result, final, rfl, ?_⟩
      apply (mergeGovern_reverifies_iff plainEnvironment_collisionFree
        (fun _ => true) [] [] [] rfl completed).mpr
      have wet : openMergeOptions.dryRun = false := rfl
      rw [if_pos wet]
      decide +kernel
  | error error final =>
      have returned : completes (twoRowMerge plainEnvironment Store.empty) =
          true := by decide +kernel
      rw [completed] at returned
      cases returned

end Registrar
