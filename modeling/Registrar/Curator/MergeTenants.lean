import Registrar.Curator.MergeJudgements

/-!
# Tenants in a merge

A merge looks for known content in the whole destination and among all the rows
that it has promoted, whatever their tenant.
-/

namespace Registrar

open Program

variable (env : Environment)

def rowsOfTenant (tenantId : NonEmptyString) (rows : List CuratedMemory) :
    List CuratedMemory :=
  rows.filter (·.tenantId = tenantId)

/-- The store without the memories of other tenants. -/
def Store.ofTenant (store : Store) (tenantId : NonEmptyString) : Store :=
  { store with
    curatedMemories := store.curatedMemories.filter (·.tenantId = tenantId) }

def activeCopies (table : MemoryTable) (tenantId : NonEmptyString)
    (contentHash : String) : Nat :=
  table.rows.countP fun memory =>
    memory.tenantId = tenantId ∧ memory.contentHash = contentHash ∧
      memory.lifecycle = .active

/-- After a merge that completes no tenant has gained a second active copy of a
content.  Every row fares as it does in a merge of its tenant's rows into its
tenant's memories; where the merge throws, that one throws too. -/
structure MergesByTenant (options : MergeGovernOptions) (store : Store)
    (cloneA cloneB : List CuratedMemory) : Prop where
  oneCopy : ∀ result final,
    mergeGovern env cloneA cloneB options store = .ok result final →
      ∀ tenantId contentHash,
        2 ≤ activeCopies final.curatedMemories tenantId contentHash →
          2 ≤ activeCopies store.curatedMemories tenantId contentHash
  alone : ∀ memory ∈ cloneA ++ cloneB,
    mergeVerdict env options store cloneA cloneB memory =
      mergeVerdict env options (store.ofTenant memory.tenantId)
        (rowsOfTenant memory.tenantId cloneA)
        (rowsOfTenant memory.tenantId cloneB) memory

/-- The merge stops: an id is not the one of its row's lineage, or the gate
comes to a row that it refuses. -/
def MergeStops (options : MergeGovernOptions) (store : Store)
    (cloneA cloneB : List CuratedMemory) : Prop :=
  (mergeIdViolation env (mergeUnion (cloneA ++ cloneB))).isSome ∨
    Refuses (fatesOf env options store cloneA cloneB)

instance (options : MergeGovernOptions) (store : Store)
    (cloneA cloneB : List CuratedMemory) :
    Decidable (MergeStops env options store cloneA cloneB) :=
  inferInstanceAs (Decidable (_ ∨ _))

/-- Every row of the clones has a stop among its own tenant's rows. -/
def StopsInEachTenant (options : MergeGovernOptions) (store : Store)
    (cloneA cloneB : List CuratedMemory) : Prop :=
  ∀ memory ∈ cloneA ++ cloneB,
    MergeStops env options (store.ofTenant memory.tenantId)
      (rowsOfTenant memory.tenantId cloneA)
      (rowsOfTenant memory.tenantId cloneB)

instance (options : MergeGovernOptions) (store : Store)
    (cloneA cloneB : List CuratedMemory) :
    Decidable (StopsInEachTenant env options store cloneA cloneB) :=
  inferInstanceAs (Decidable (∀ memory ∈ _, _))

/-- Of the rows that pass, none is a second active copy in its tenant. -/
def NoSecondCopy (options : MergeGovernOptions) (store : Store)
    (union : List CuratedMemory) : Prop :=
  ∀ memory ∈ union, Passes env options store.auditEvents memory →
    let contentHash := computeContentHash env memory.content.value
    let copies :=
      activeCopies store.curatedMemories memory.tenantId contentHash
    2 ≤ copies ∨
      copies +
        ((rowsOfTenant memory.tenantId union).filter
          (Passes env options store.auditEvents)).countP
            (computeContentHash env ·.content.value = contentHash) ≤ 1

instance (options : MergeGovernOptions) (store : Store)
    (union : List CuratedMemory) :
    Decidable (NoSecondCopy env options store union) :=
  inferInstanceAs (Decidable (∀ memory ∈ _, _ → _ ∨ _))

def SameTenantById (rows : List CuratedMemory) : Prop :=
  ∀ memory ∈ rows, ∀ other ∈ rows,
    memory.id = other.id → memory.tenantId = other.tenantId

instance (rows : List CuratedMemory) : Decidable (SameTenantById rows) :=
  inferInstanceAs (Decidable (∀ memory ∈ _, ∀ other ∈ _, _ → _))

/-- Where it matters to the gate whether the content of a row is known, and it
is known, it is known within the tenant of the row. -/
def KnownWithinTenant (options : MergeGovernOptions) (store : Store)
    (union : List CuratedMemory) : Prop :=
  ∀ memory ∈ union,
    let contentHash := computeContentHash env memory.content.value
    let known (store : Store) (rows : List CuratedMemory) :=
      knownAfter env options store.auditEvents
        (MemoryRepository.getAllContentHashes store.curatedMemories) rows
    contentFate env options store.auditEvents [contentHash] memory ≠
        contentFate env options store.auditEvents [] memory →
      contentHash ∈ known store (rowsBefore union memory) →
        contentHash ∈ known (store.ofTenant memory.tenantId)
          (rowsOfTenant memory.tenantId (rowsBefore union memory))

instance (options : MergeGovernOptions) (store : Store)
    (union : List CuratedMemory) :
    Decidable (KnownWithinTenant env options store union) :=
  inferInstanceAs (Decidable (∀ memory ∈ _, _ → _ → _))

/-- The condition under which a merge keeps tenants apart and contents
single. -/
def KeepsTenantsApart (options : MergeGovernOptions) (store : Store)
    (cloneA cloneB : List CuratedMemory) : Prop :=
  if MergeStops env options store cloneA cloneB then
    StopsInEachTenant env options store cloneA cloneB
  else
    (options.dryRun = true ∨ options.Guarded ∨
        NoSecondCopy env options store (mergeUnion (cloneA ++ cloneB))) ∧
      SameTenantById (cloneA ++ cloneB) ∧
        KnownWithinTenant env options store (mergeUnion (cloneA ++ cloneB))

instance (options : MergeGovernOptions) (store : Store)
    (cloneA cloneB : List CuratedMemory) :
    Decidable (KeepsTenantsApart env options store cloneA cloneB) :=
  inferInstanceAs (Decidable
    (if MergeStops env options store cloneA cloneB then
      StopsInEachTenant env options store cloneA cloneB
    else (_ ∨ _ ∨ _) ∧ _ ∧ _))

variable {env}

section Tenant

variable {options : MergeGovernOptions} {log : AuditLog}
variable {ledger small : MergeLedger} {known own : List String}
variable {memory : CuratedMemory} {rows : List CuratedMemory}
variable {store final : Store} {cloneA cloneB : List CuratedMemory}
variable {result : MergeGovernResult}

theorem rowsOfTenant_append (tenantId : NonEmptyString)
    (front back : List CuratedMemory) :
    rowsOfTenant tenantId (front ++ back) =
      rowsOfTenant tenantId front ++ rowsOfTenant tenantId back :=
  List.filter_append ..

/-- If the rows of a tenant are judged alike, the gate that stops at no row of
the whole run stops at no row of the tenant's. -/
theorem proceeds_ofTenant (tenantId : NonEmptyString)
    (within : small.Within ledger) (knows : ledger.Knows known)
    (knowsOwn : small.Knows own)
    (proceeds : ¬Refuses (mergeFates env options log ledger rows))
    (alike : ∀ before memory after, rows = before ++ memory :: after →
      memory.tenantId = tenantId →
        contentFate env options log (knownAfter env options log known before)
            memory =
          contentFate env options log
            (knownAfter env options log own (rowsOfTenant tenantId before))
            memory) :
    ¬Refuses (mergeFates env options log small
      (rowsOfTenant tenantId rows)) := by
  induction rows generalizing ledger small known own with
  | nil => simp [rowsOfTenant, mergeFates, Refuses]
  | cons memory rest induction =>
      obtain ⟨isFate, runs, -, goesOn⟩ :=
        mergeFates_proceeds_cons proceeds knows
      have later (before : List CuratedMemory) (other : CuratedMemory)
          (after : List CuratedMemory) (isSplit : rest = before ++ other :: after)
          (isTenant : other.tenantId = tenantId) :=
        alike (memory :: before) other after
          (by rw [isSplit, List.cons_append]) isTenant
      by_cases isTenant : memory.tenantId = tenantId
      · have same : contentFate env options log known memory =
            contentFate env options log own memory := by
          simpa [knownAfter, rowsOfTenant] using
            alike [] memory rest rfl isTenant
        have ownFate : rowFate env options log small memory =
            contentFate env options log known memory := by
          rw [rowFate_eq, contentFate_congr (knowsOwn _), ← same, if_neg]
          rintro ⟨admitted, wet, noRoom⟩
          rw [rowFate_eq, contentFate_congr (knows _), if_pos] at isFate
          · exact runs isFate.symm
          · exact ⟨admitted, wet, fun room => noRoom (within.hasRoomFor room)⟩
        have ownRun : mergeFates env options log small
            (rowsOfTenant tenantId (memory :: rest)) =
              (memory, contentFate env options log known memory) ::
                mergeFates env options log
                  (small.after env options memory
                    (contentFate env options log known memory))
                  (rowsOfTenant tenantId rest) := by
          have kept : rowsOfTenant tenantId (memory :: rest) =
              memory :: rowsOfTenant tenantId rest := by
            simp [rowsOfTenant, isTenant]
          rw [kept]
          cases fate : contentFate env options log known memory with
          | refused => exact absurd fate runs
          | quarantined row =>
              exact mergeFates_quarantined (ownFate.trans fate) _
          | admitted => exact mergeFates_admitted (ownFate.trans fate) _
        have ownLedger : (small.after env options memory
            (contentFate env options log known memory)).Knows
              (knownAfter env options log own [memory]) := by
          rw [same] at runs ⊢
          exact knowsOwn.after runs
        have ends := induction (within.after _) (knows.after runs) ownLedger
          goesOn fun before other after isSplit ofTenant => by
            have atOther := later before other after isSplit ofTenant
            have kept : rowsOfTenant tenantId (memory :: before) =
                [memory] ++ rowsOfTenant tenantId before := by
              simp [rowsOfTenant, isTenant]
            rw [kept, knownAfter_append, ← List.singleton_append,
              knownAfter_append] at atOther
            exact atOther
        rw [ownRun]
        simpa [Refuses, runs.symm] using ends
      · have skipped (others : List CuratedMemory) :
            rowsOfTenant tenantId (memory :: others) =
              rowsOfTenant tenantId others := by
          simp [rowsOfTenant, isTenant]
        rw [skipped]
        apply induction (within.trans (MergeLedger.within_after _))
          (knows.after runs) knowsOwn goesOn
        intro before other after isSplit ofTenant
        have atOther := later before other after isSplit ofTenant
        rw [skipped, ← List.singleton_append, knownAfter_append] at atOther
        exact atOther

theorem mergeUnion_ofTenant {rows : List CuratedMemory}
    (sameTenant : SameTenantById rows) (tenantId : NonEmptyString) :
    mergeUnion (rowsOfTenant tenantId rows) =
      rowsOfTenant tenantId (mergeUnion rows) := by
  have : Std.Total fun left right : CuratedMemory => left.id ≤ right.id :=
    ⟨fun left right => le_total left.id right.id⟩
  have : IsTrans CuratedMemory fun left right => left.id ≤ right.id :=
    ⟨fun _ _ _ => le_trans⟩
  unfold mergeUnion rowsOfTenant
  rw [StableSort.filter_insertionSort, KeyedUnion.filter_union]
  intro row member other otherMember sameId
  rw [sameTenant row member other otherMember sameId]

theorem MergeLedger.of_ofTenant_within (store : Store)
    (tenantId : NonEmptyString) :
    (MergeLedger.of (store.ofTenant tenantId)).Within
      (MergeLedger.of store) where
  memoryIds := by
    intro id taken
    obtain ⟨memory, member, rfl⟩ := List.mem_map.mp taken
    exact List.mem_map_of_mem (List.mem_filter.mp member).1
  receiptIds := fun _ taken => taken
  lastSeq := le_refl _

theorem mem_rowsOfTenant {tenantId : NonEmptyString}
    {rows : List CuratedMemory} :
    memory ∈ rowsOfTenant tenantId rows ↔
      memory ∈ rows ∧ memory.tenantId = tenantId := by
  simp [rowsOfTenant]

theorem knownBefore_ofTenant_subset {tenantId : NonEmptyString}
    {before : List CuratedMemory} {hash : String}
    (isKnown : hash ∈ knownAfter env options store.auditEvents
      (MemoryRepository.getAllContentHashes
        (store.ofTenant tenantId).curatedMemories)
      (rowsOfTenant tenantId before)) :
    hash ∈ knownAfter env options store.auditEvents
      (MemoryRepository.getAllContentHashes store.curatedMemories) before := by
  unfold knownAfter at isKnown ⊢
  rcases List.mem_append.mp isKnown with inStore | inRows
  · obtain ⟨stored, member, rfl⟩ := List.mem_map.mp inStore
    apply List.mem_append_left
    exact List.mem_map_of_mem (List.mem_filter.mp member).1
  · obtain ⟨row, member, rfl⟩ := List.mem_map.mp inRows
    apply List.mem_append_right
    obtain ⟨ofTenant, passes⟩ := List.mem_filter.mp member
    exact List.mem_map_of_mem (List.mem_filter.mpr
      ⟨(mem_rowsOfTenant.mp ofTenant).1, passes⟩)

/-- The tenant's own merge completes if it judges its rows alike. -/
theorem completes_ofTenant (tenantId : NonEmptyString)
    (completed :
      mergeGovern env cloneA cloneB options store = .ok result final)
    (sameTenant : SameTenantById (cloneA ++ cloneB))
    (within : KnownWithinTenant env options store
      (mergeUnion (cloneA ++ cloneB))) :
    ∃ ownResult ownFinal,
      mergeGovern env (rowsOfTenant tenantId cloneA)
        (rowsOfTenant tenantId cloneB) options (store.ofTenant tenantId) =
          .ok ownResult ownFinal := by
  obtain ⟨proceeds, -, -⟩ := fates_of_completed completed
  have union : mergeUnion
      (rowsOfTenant tenantId cloneA ++ rowsOfTenant tenantId cloneB) =
        rowsOfTenant tenantId (mergeUnion (cloneA ++ cloneB)) := by
    rw [← rowsOfTenant_append, mergeUnion_ofTenant sameTenant]
  have valid : mergeIdViolation env (mergeUnion
      (rowsOfTenant tenantId cloneA ++ rowsOfTenant tenantId cloneB)) =
        none := by
    have whole := valid_of_completed completed
    unfold mergeIdViolation at whole ⊢
    rw [Option.map_eq_none_iff, List.find?_eq_none] at whole ⊢
    intro memory member
    rw [union] at member
    exact whole memory (mem_rowsOfTenant.mp member).1
  have goesOn : ¬Refuses (fatesOf env options (store.ofTenant tenantId)
      (rowsOfTenant tenantId cloneA) (rowsOfTenant tenantId cloneB)) := by
    unfold fatesOf
    rw [union]
    apply proceeds_ofTenant tenantId
      (MergeLedger.of_ofTenant_within store tenantId) (fun hash => Iff.rfl)
      (fun hash => Iff.rfl) proceeds
    intro before memory after isSplit isTenant
    have member : memory ∈ mergeUnion (cloneA ++ cloneB) := by
      rw [isSplit]
      simp
    have own := within memory member
    rw [rowsBefore_eq (mergeUnion_ids_nodup _) isSplit, isTenant] at own
    exact (contentFate_eq_iff fun hash => knownBefore_ofTenant_subset).mpr own
  obtain ⟨ownFinal, -, ends⟩ :=
    @mergeGovern_fates env options (store.ofTenant tenantId)
      (rowsOfTenant tenantId cloneA) (rowsOfTenant tenantId cloneB) valid
  rw [if_neg goesOn] at ends
  obtain ⟨ownResult, ownCompleted, -⟩ := ends
  exact ⟨ownResult, ownFinal, ownCompleted⟩

theorem mem_mergeUnion_ofTenant {tenantId : NonEmptyString}
    (sameTenant : SameTenantById (cloneA ++ cloneB)) :
    memory ∈ mergeUnion
        (rowsOfTenant tenantId cloneA ++ rowsOfTenant tenantId cloneB) ↔
      memory ∈ mergeUnion (cloneA ++ cloneB) ∧ memory.tenantId = tenantId := by
  rw [← rowsOfTenant_append, mergeUnion_ofTenant sameTenant, mem_rowsOfTenant]

theorem knownBefore_ofTenant
    (sameTenant : SameTenantById (cloneA ++ cloneB))
    (member : memory ∈ mergeUnion (cloneA ++ cloneB)) :
    knownBefore env options (store.ofTenant memory.tenantId)
        (mergeUnion (rowsOfTenant memory.tenantId cloneA ++
          rowsOfTenant memory.tenantId cloneB)) memory =
      knownAfter env options store.auditEvents
        (MemoryRepository.getAllContentHashes
          (store.ofTenant memory.tenantId).curatedMemories)
        (rowsOfTenant memory.tenantId
          (rowsBefore (mergeUnion (cloneA ++ cloneB)) memory)) := by
  have nodup := mergeUnion_ids_nodup (cloneA ++ cloneB)
  obtain ⟨before, after, isSplit⟩ := List.append_of_mem member
  have ownUnion : mergeUnion (rowsOfTenant memory.tenantId cloneA ++
      rowsOfTenant memory.tenantId cloneB) =
        rowsOfTenant memory.tenantId before ++
          memory :: rowsOfTenant memory.tenantId after := by
    rw [← rowsOfTenant_append, mergeUnion_ofTenant sameTenant, isSplit,
      rowsOfTenant_append]
    simp [rowsOfTenant]
  unfold knownBefore
  rw [rowsBefore_eq nodup isSplit,
    rowsBefore_eq (mergeUnion_ids_nodup _) ownUnion]
  rfl

/-- Every row fares as in its tenant's own merge exactly when no id is shared
by tenants, and known content that matters is known within the tenant. -/
theorem alone_iff
    (completed :
      mergeGovern env cloneA cloneB options store = .ok result final) :
    (∀ memory ∈ cloneA ++ cloneB,
      mergeVerdict env options store cloneA cloneB memory =
        mergeVerdict env options (store.ofTenant memory.tenantId)
          (rowsOfTenant memory.tenantId cloneA)
          (rowsOfTenant memory.tenantId cloneB) memory) ↔
      SameTenantById (cloneA ++ cloneB) ∧
        KnownWithinTenant env options store
          (mergeUnion (cloneA ++ cloneB)) := by
  have nodup := mergeUnion_ids_nodup (cloneA ++ cloneB)
  constructor
  · intro alone
    have keepsTenant : ∀ memory ∈ cloneA ++ cloneB,
        ∀ kept ∈ mergeUnion (cloneA ++ cloneB), kept.id = memory.id →
          kept.tenantId = memory.tenantId := by
      intro memory inputs kept keptMember sameId
      by_contra different
      obtain ⟨own, ownMember, ownId⟩ := exists_mem_mergeUnion
        (mem_rowsOfTenant.mpr ⟨inputs, rfl⟩ :
          memory ∈ rowsOfTenant memory.tenantId (cloneA ++ cloneB))
      obtain ⟨ownInputs, ownTenant⟩ :=
        mem_rowsOfTenant.mp (mem_of_mem_mergeUnion ownMember)
      have absent : own ∉ mergeUnion (cloneA ++ cloneB) := by
        intro inUnion
        have isKept : own = kept := List.inj_on_of_nodup_map nodup inUnion
          keptMember (ownId.trans sameId.symm)
        exact different (isKept ▸ ownTenant)
      have same := alone own ownInputs
      rw [mergeVerdict_of_absent completed absent, ownTenant] at same
      rw [rowsOfTenant_append] at ownMember
      exact mergeVerdict_ne_none ownMember same.symm
    have sameTenant : SameTenantById (cloneA ++ cloneB) := by
      intro memory inputs other otherInputs sameId
      obtain ⟨kept, keptMember, keptId⟩ := exists_mem_mergeUnion inputs
      exact (keepsTenant memory inputs kept keptMember keptId).symm.trans
        (keepsTenant other otherInputs kept keptMember (keptId.trans sameId))
    refine ⟨sameTenant, ?_⟩
    intro memory member
    have same := alone memory (mem_of_mem_mergeUnion member)
    obtain ⟨ownResult, ownFinal, ownCompleted⟩ :
        ∃ ownResult ownFinal,
          mergeGovern env (rowsOfTenant memory.tenantId cloneA)
            (rowsOfTenant memory.tenantId cloneB) options
            (store.ofTenant memory.tenantId) = .ok ownResult ownFinal := by
      apply completed_of_mergeVerdict
      rw [← same]
      exact mergeVerdict_ne_refused completed
    rw [mergeVerdict_of_member completed member,
      mergeVerdict_of_member ownCompleted
        ((mem_mergeUnion_ofTenant sameTenant).mpr ⟨member, rfl⟩),
      Option.some.injEq, knownBefore_ofTenant sameTenant member] at same
    exact (contentFate_eq_iff fun hash => knownBefore_ofTenant_subset).mp same
  · rintro ⟨sameTenant, within⟩ memory inputs
    obtain ⟨ownResult, ownFinal, ownCompleted⟩ :=
      completes_ofTenant memory.tenantId completed sameTenant within
    by_cases member : memory ∈ mergeUnion (cloneA ++ cloneB)
    · rw [mergeVerdict_of_member completed member,
        mergeVerdict_of_member ownCompleted
          ((mem_mergeUnion_ofTenant sameTenant).mpr ⟨member, rfl⟩),
        Option.some.injEq, knownBefore_ofTenant sameTenant member]
      exact (contentFate_eq_iff fun hash => knownBefore_ofTenant_subset).mpr
        (within memory member)
    · rw [mergeVerdict_of_absent completed member,
        mergeVerdict_of_absent ownCompleted]
      intro ownMember
      exact member ((mem_mergeUnion_ofTenant sameTenant).mp ownMember).1

end Tenant

/-! ## Copies -/

section Copies

variable {options : MergeGovernOptions} {log : AuditLog}
variable {ledger : MergeLedger} {memory : CuratedMemory}
variable {rows : List CuratedMemory}
variable {store final : Store} {cloneA cloneB : List CuratedMemory}
variable {result : MergeGovernResult}

/-- The rows of a tenant with this content. -/
def copiesAmong (env : Environment) (rows : List CuratedMemory)
    (tenantId : NonEmptyString) (contentHash : String) : Nat :=
  (rowsOfTenant tenantId rows).countP
    (computeContentHash env ·.content.value = contentHash)

theorem countP_storedFor {stored : List CuratedMemory}
    (matched : List.Forall₂ (StoredFor env) rows stored)
    (tenantId : NonEmptyString) (contentHash : String) :
    (stored.countP fun memory =>
        memory.tenantId = tenantId ∧ memory.contentHash = contentHash ∧
          memory.lifecycle = .active) =
      copiesAmong env rows tenantId contentHash := by
  induction matched with
  | nil => rfl
  | @cons memory promoted rest others first _ induction =>
      obtain ⟨-, hash, ofTenant, active⟩ := first
      unfold copiesAmong rowsOfTenant at induction ⊢
      rw [List.countP_cons, induction, List.filter_cons, ofTenant, hash, active]
      by_cases isTenant : memory.tenantId = tenantId
      · simp [isTenant, List.countP_cons]
      · simp [isTenant]

theorem activeCopies_of_leaves
    (leaves : Leaves env options rows store final)
    (wet : options.dryRun = false) (tenantId : NonEmptyString)
    (contentHash : String) :
    activeCopies final.curatedMemories tenantId contentHash =
      activeCopies store.curatedMemories tenantId contentHash +
        copiesAmong env rows tenantId contentHash := by
  obtain ⟨promoted, matched, appended⟩ := leaves.stored wet
  unfold activeCopies
  rw [appended, List.countP_append, countP_storedFor matched]

/-- Where known content is turned away, a content is admitted once, and not at
all if it was known. -/
theorem copiesAmong_admitted_le (guarded : options.Guarded)
    (tenantId : NonEmptyString) (contentHash : String) :
    copiesAmong env (admittedRows (mergeFates env options log ledger rows))
        tenantId contentHash ≤
      if contentHash ∈ ledger.existingHashes then 0 else 1 := by
  induction rows generalizing ledger with
  | nil => simp [mergeFates, admittedRows, copiesAmong, rowsOfTenant]
  | cons memory rest induction =>
      cases fate : rowFate env options log ledger memory with
      | refused =>
          rw [mergeFates_refused fate]
          simp [admittedRows, copiesAmong, rowsOfTenant]
      | quarantined row =>
          rw [mergeFates_quarantined fate, admittedRows_quarantined]
          exact induction
      | admitted =>
          obtain ⟨-, minimum, -, passes, -⟩ := rowFate_eq_admitted_iff.mp fate
          have unknown : computeContentHash env memory.content.value ∉
              ledger.existingHashes := by
            intro isKnown
            rw [mergeDecision_of_known guarded isKnown] at passes
            cases passes
          have later := @induction (ledger.afterAdmission env options memory)
          have seen : contentHash ∈
              (ledger.afterAdmission env options memory).existingHashes ↔
                contentHash = computeContentHash env memory.content.value ∨
                  contentHash ∈ ledger.existingHashes := by
            unfold MergeLedger.afterAdmission
            split_ifs <;> exact List.mem_cons
          rw [mergeFates_admitted fate, admittedRows_admitted]
          unfold copiesAmong rowsOfTenant at later ⊢
          rw [List.filter_cons]
          by_cases isTenant : memory.tenantId = tenantId
          · by_cases isHash :
                computeContentHash env memory.content.value = contentHash
            · rw [if_pos (seen.mpr (.inl isHash.symm))] at later
              rw [isHash] at unknown
              simp only [isTenant, decide_true, if_true, List.countP_cons,
                isHash, if_neg unknown]
              omega
            · have stays : contentHash ∈
                  (ledger.afterAdmission env options memory).existingHashes ↔
                    contentHash ∈ ledger.existingHashes := by
                rw [seen]
                simp [Ne.symm isHash]
              simp only [stays] at later
              simpa [isTenant, isHash, List.countP_cons] using later
          · have fewer : (if contentHash ∈
                (ledger.afterAdmission env options memory).existingHashes then 0
                else 1) ≤
                  if contentHash ∈ ledger.existingHashes then 0 else 1 := by
              by_cases isKnown : contentHash ∈ ledger.existingHashes
              · simp [seen, isKnown]
              · split_ifs <;> omega
            simpa [isTenant] using later.trans fewer

/-- Where nothing looks for known content, all rows that pass are admitted. -/
theorem admittedRows_of_unguarded (unguarded : ¬options.Guarded)
    (proceeds : ¬Refuses (mergeFates env options log ledger rows)) :
    admittedRows (mergeFates env options log ledger rows) =
      rows.filter (Passes env options log) := by
  have indifferent (memory : CuratedMemory) (known : List String) :
      contentFate env options log known memory = .admitted ↔
        Passes env options log memory := by
    constructor
    · exact passes_of_admitted
    · intro passes
      obtain ⟨clean, minimum, resolved, isOk⟩ :=
        contentFate_eq_admitted_iff.mp passes
      exact contentFate_eq_admitted_iff.mpr
        ⟨clean, minimum, resolved, mergeDecision_of_unguarded unguarded isOk⟩
  induction rows generalizing ledger with
  | nil => rfl
  | cons memory rest induction =>
      obtain ⟨-, -, isRun, goesOn⟩ :=
        mergeFates_proceeds_cons proceeds fun hash => Iff.rfl
      have later := induction goesOn
      have admits := indifferent memory ledger.existingHashes
      rw [isRun]
      unfold admittedRows at later ⊢
      by_cases passes : Passes env options log memory
      · simp [admits.mpr passes, passes, ← later]
      · have isOther := mt admits.mp passes
        simp [isOther, passes, ← later]

theorem oneCopy_iff
    (completed :
      mergeGovern env cloneA cloneB options store = .ok result final) :
    (∀ tenantId contentHash,
      2 ≤ activeCopies final.curatedMemories tenantId contentHash →
        2 ≤ activeCopies store.curatedMemories tenantId contentHash) ↔
      options.dryRun = true ∨ options.Guarded ∨
        NoSecondCopy env options store (mergeUnion (cloneA ++ cloneB)) := by
  obtain ⟨proceeds, leaves, -⟩ := fates_of_completed completed
  by_cases dry : options.dryRun = true
  · rw [leaves.dry dry]
    exact iff_of_true (fun _ _ copies => copies) (.inl dry)
  have wet := Bool.eq_false_of_not_eq_true dry
  simp only [activeCopies_of_leaves leaves wet]
  by_cases guarded : options.Guarded
  · refine iff_of_true ?_ (.inr (.inl guarded))
    intro tenantId contentHash copies
    have once : copiesAmong env
        (admittedRows (fatesOf env options store cloneA cloneB)) tenantId
          contentHash ≤
        if contentHash ∈ (MergeLedger.of store).existingHashes then 0 else 1 :=
      copiesAmong_admitted_le guarded tenantId contentHash
    split_ifs at once with isKnown
    · omega
    · have none : activeCopies store.curatedMemories tenantId contentHash =
          0 := by
        apply List.countP_eq_zero.mpr
        intro stored member isCopy
        rw [decide_eq_true_eq] at isCopy
        apply isKnown
        rw [← isCopy.2.1]
        exact List.mem_map_of_mem member
      omega
  · rw [fatesOf, admittedRows_of_unguarded guarded proceeds]
    simp only [wet, guarded, Bool.false_eq_true, false_or]
    have sameCopies (tenantId : NonEmptyString) (contentHash : String) :
        copiesAmong env ((mergeUnion (cloneA ++ cloneB)).filter
            (Passes env options store.auditEvents)) tenantId contentHash =
          ((rowsOfTenant tenantId (mergeUnion (cloneA ++ cloneB))).filter
            (Passes env options store.auditEvents)).countP
              (computeContentHash env ·.content.value = contentHash) := by
      unfold copiesAmong rowsOfTenant
      rw [List.filter_comm]
    simp only [sameCopies]
    constructor
    · intro oneCopy memory member passes
      have atMemory := oneCopy memory.tenantId
        (computeContentHash env memory.content.value)
      dsimp only
      omega
    · intro noSecond tenantId contentHash copies
      by_contra few
      have counted : 0 <
          ((rowsOfTenant tenantId (mergeUnion (cloneA ++ cloneB))).filter
            (Passes env options store.auditEvents)).countP
              (computeContentHash env ·.content.value = contentHash) := by
        omega
      obtain ⟨memory, selected, isHash⟩ := List.countP_pos_iff.mp counted
      obtain ⟨ofTenant, passes⟩ := List.mem_filter.mp selected
      obtain ⟨member, isTenant⟩ := mem_rowsOfTenant.mp ofTenant
      rw [decide_eq_true_eq] at isHash passes
      have atMemory := noSecond memory member passes
      dsimp only at atMemory
      rw [isTenant, isHash] at atMemory
      omega

/-- A merge throws exactly when it stops. -/
theorem mergeStops_iff :
    MergeStops env options store cloneA cloneB ↔
      ∃ error final,
        mergeGovern env cloneA cloneB options store = .error error final := by
  unfold MergeStops
  cases violation : mergeIdViolation env (mergeUnion (cloneA ++ cloneB)) with
  | some error =>
      refine iff_of_true (.inl rfl) ⟨error, store, ?_⟩
      exact mergeGovern_of_violation violation
  | none =>
      obtain ⟨final, -, ends⟩ :=
        @mergeGovern_fates env options store cloneA cloneB violation
      split_ifs at ends with refuses
      · obtain ⟨error, failed⟩ := ends
        exact iff_of_true (.inr refuses) ⟨error, final, failed⟩
      · obtain ⟨result, completed, -⟩ := ends
        refine iff_of_false (by simp [refuses]) ?_
        intro failed
        obtain ⟨error, other, failed⟩ := failed
        rw [completed] at failed
        cases failed

theorem mergeVerdict_eq_refused_iff :
    mergeVerdict env options store cloneA cloneB memory = some .refused ↔
      MergeStops env options store cloneA cloneB := by
  rw [mergeStops_iff]
  constructor
  · intro refused
    by_contra runs
    cases ends : mergeGovern env cloneA cloneB options store with
    | ok result final => exact mergeVerdict_ne_refused ends refused
    | error error final => exact runs ⟨error, final, ends⟩
  · intro failed
    obtain ⟨error, final, failed⟩ := failed
    unfold mergeVerdict
    rw [failed]

/-- Inputs that differ only in the rows and memories of other tenants decide a
row alike. -/
theorem MergesByTenant.verdict_eq {other : Store}
    {otherA otherB : List CuratedMemory}
    (holds : MergesByTenant env options store cloneA cloneB)
    (otherHolds : MergesByTenant env options other otherA otherB)
    (sameStore :
      store.ofTenant memory.tenantId = other.ofTenant memory.tenantId)
    (sameA : rowsOfTenant memory.tenantId cloneA =
      rowsOfTenant memory.tenantId otherA)
    (sameB : rowsOfTenant memory.tenantId cloneB =
      rowsOfTenant memory.tenantId otherB)
    (member : memory ∈ cloneA ++ cloneB) :
    mergeVerdict env options store cloneA cloneB memory =
      mergeVerdict env options other otherA otherB memory := by
  have ofTenant : memory ∈
      rowsOfTenant memory.tenantId (cloneA ++ cloneB) :=
    mem_rowsOfTenant.mpr ⟨member, rfl⟩
  rw [rowsOfTenant_append, sameA, sameB, ← rowsOfTenant_append] at ofTenant
  have inOther := (mem_rowsOfTenant.mp ofTenant).1
  rw [holds.alone memory member, otherHolds.alone memory inOther, sameStore,
    sameA, sameB]

end Copies

/-- The second row, with the content of the first one. -/
def copiedRow : CuratedMemory :=
  sampleMemory plainEnvironment "2" (firstRow plainEnvironment).content
    ⟨"Keys", trim_keys, keys_nonempty⟩

/-- The same for another tenant. -/
def foreignCopy : CuratedMemory :=
  { copiedRow with tenantId := ⟨"other", by decide +kernel, by simp⟩ }

def copiesMerge (copy : CuratedMemory) : StoreM MergeGovernResult :=
  mergeGovern plainEnvironment [firstRow plainEnvironment] [copy]
    openMergeOptions

end Registrar
