import Registrar.Curator.MergeAtomicity
import Registrar.Curator.MergeCommutes

/-!
# How a merge judges content

The gate decides on a row by the content that is known when it comes to it:
what the destination holds, and the rows before it that pass.
-/

namespace Registrar

open Program

variable (env : Environment)

/-- What the gate makes of a row when some content is known, if it can write
whatever it admits. -/
def contentFate (options : MergeGovernOptions) (log : AuditLog)
    (known : List String) (memory : CuratedMemory) : RowFate :=
  match disclosureViolation env (untrustedProjection memory) with
  | some category =>
      .quarantined
        { memoryId := memory.id
          category := .disclosure
          reason := category.text }
  | none =>
      match resolveCandidateMinimumSensitivity env (untrustedProjection memory)
        log with
      | .error _ => .refused
      | .ok minimum =>
          match mergeDecision env options known (untrustedProjection memory)
            minimum with
          | .error reason =>
              .quarantined
                { memoryId := memory.id
                  category := .policy
                  reason := reason }
          | .ok _ => .admitted

/-- The gate admits the row when no content is known. -/
def Passes (options : MergeGovernOptions) (log : AuditLog)
    (memory : CuratedMemory) : Prop :=
  contentFate env options log [] memory = .admitted

instance (options : MergeGovernOptions) (log : AuditLog)
    (memory : CuratedMemory) : Decidable (Passes env options log memory) :=
  inferInstanceAs (Decidable (_ = _))

/-- The content that is known after some rows. -/
def knownAfter (options : MergeGovernOptions) (log : AuditLog)
    (known : List String) (rows : List CuratedMemory) : List String :=
  known ++ (rows.filter (Passes env options log)).map fun memory =>
    computeContentHash env memory.content.value

/-- What a merge did with a row of the clones: `refused` when it threw, and
nothing when another row has its place in the union. -/
def mergeVerdict (options : MergeGovernOptions) (store : Store)
    (cloneA cloneB : List CuratedMemory) (memory : CuratedMemory) :
    Option RowFate :=
  match mergeGovern env cloneA cloneB options store with
  | .error _ _ => some .refused
  | .ok result _ =>
      if memory ∈ mergeUnion (cloneA ++ cloneB) then
        match result.quarantined.find? (·.memoryId = memory.id) with
        | some row => some (.quarantined row)
        | none => some .admitted
      else none

/-- The rows that a merge comes to before the given one. -/
def rowsBefore (union : List CuratedMemory) (memory : CuratedMemory) :
    List CuratedMemory :=
  union.takeWhile (·.id ≠ memory.id)

variable {env}

section Known

variable {options : MergeGovernOptions} {log : AuditLog}
variable {known more : List String} {memory : CuratedMemory}

theorem mergeDecision_error_congr {candidate : MemoryCandidate}
    (minimum : Option Sensitivity)
    (same : computeContentHash env candidate.content ∈ known ↔
      computeContentHash env candidate.content ∈ more) (reason : String) :
    mergeDecision env options known candidate minimum = .error reason ↔
      mergeDecision env options more candidate minimum = .error reason := by
  unfold mergeDecision
  cases options.policy with
  | none => simp [same]
  | some policy =>
      have sameDecision :=
        @PolicyPipeline.decision_congr env policy candidate _ _ fun rule =>
          createRule_outcome_congr env same rule.type rule
            { minimumSensitivity := minimum
              existingHashes := none
              tenantId := some options.tenantId
              getActiveMemoriesInCategory := none }
      simp only [PipelineResult.decision, Prod.mk.injEq] at sameDecision
      obtain ⟨sameOutcome, sameRejection, sameFlags⟩ := sameDecision
      dsimp only
      rw [sameOutcome, sameRejection, sameFlags]
      split_ifs <;> simp

theorem contentFate_congr
    (same : computeContentHash env memory.content.value ∈ known ↔
      computeContentHash env memory.content.value ∈ more) :
    contentFate env options log known memory =
      contentFate env options log more memory := by
  unfold contentFate
  cases disclosureViolation env (untrustedProjection memory) with
  | some category => rfl
  | none =>
      dsimp only
      cases resolveCandidateMinimumSensitivity env (untrustedProjection memory)
          log with
      | error error => rfl
      | ok minimum =>
          have agrees := @mergeDecision_error_congr env options known more
            (untrustedProjection memory) minimum same
          dsimp only
          cases decision : mergeDecision env options known
              (untrustedProjection memory) minimum with
          | error reason => rw [(agrees reason).mp decision]
          | ok result =>
              cases other : mergeDecision env options more
                  (untrustedProjection memory) minimum with
              | error reason =>
                  rw [(agrees reason).mpr other] at decision
                  cases decision
              | ok _ => rfl

theorem contentFate_eq_admitted_iff :
    contentFate env options log known memory = .admitted ↔
      disclosureViolation env (untrustedProjection memory) = none ∧
        ∃ minimum,
          resolveCandidateMinimumSensitivity env (untrustedProjection memory)
              log = .ok minimum ∧
            (mergeDecision env options known (untrustedProjection memory)
              minimum).isOk = true := by
  unfold contentFate
  cases disclosureViolation env (untrustedProjection memory) with
  | some category => simp
  | none =>
      cases floors : resolveCandidateMinimumSensitivity env
          (untrustedProjection memory) log with
      | error error => simp
      | ok minimum =>
          cases decision : mergeDecision env options known
              (untrustedProjection memory) minimum <;>
            simp [decision, Except.isOk, Except.toBool]

theorem passes_of_admitted
    (admitted : contentFate env options log known memory = .admitted) :
    Passes env options log memory := by
  obtain ⟨clean, minimum, resolved, passes⟩ :=
    contentFate_eq_admitted_iff.mp admitted
  exact contentFate_eq_admitted_iff.mpr
    ⟨clean, minimum, resolved, mergeDecision_mono (by simp) passes⟩

theorem contentFate_of_unknown
    (unknown : computeContentHash env memory.content.value ∉ known) :
    contentFate env options log known memory =
      contentFate env options log [] memory :=
  contentFate_congr (by simp [unknown])

theorem contentFate_of_known
    (isKnown : computeContentHash env memory.content.value ∈ known) :
    contentFate env options log known memory =
      contentFate env options log
        [computeContentHash env memory.content.value] memory :=
  contentFate_congr (by simp [isKnown])

theorem knownAfter_append (known : List String)
    (front back : List CuratedMemory) :
    knownAfter env options log known (front ++ back) =
      knownAfter env options log (knownAfter env options log known front)
        back := by
  simp [knownAfter]

theorem mem_knownAfter_singleton {hash : String} :
    hash ∈ knownAfter env options log known [memory] ↔
      hash ∈ known ∨ Passes env options log memory ∧
        hash = computeContentHash env memory.content.value := by
  by_cases passes : Passes env options log memory <;>
    simp [knownAfter, passes]

end Known

def MergeLedger.after (env : Environment) (options : MergeGovernOptions)
    (ledger : MergeLedger) (memory : CuratedMemory) : RowFate → MergeLedger
  | .admitted => ledger.afterAdmission env options memory
  | .quarantined _ => ledger
  | .refused => ledger

/-- The ledger knows exactly this content. -/
def MergeLedger.Knows (ledger : MergeLedger) (known : List String) : Prop :=
  ∀ hash, hash ∈ ledger.existingHashes ↔ hash ∈ known

/-- All that is taken in one ledger is taken in the other. -/
structure MergeLedger.Within (small large : MergeLedger) : Prop where
  memoryIds : ∀ id ∈ small.memoryIds, id ∈ large.memoryIds
  receiptIds : ∀ id ∈ small.receiptIds, id ∈ large.receiptIds
  lastSeq : small.lastSeq ≤ large.lastSeq

section Run

variable {options : MergeGovernOptions} {log : AuditLog}
variable {ledger small : MergeLedger} {known own : List String}
variable {memory : CuratedMemory} {rest rows : List CuratedMemory}

theorem MergeLedger.Within.hasRoomFor (within : small.Within ledger)
    (room : ledger.HasRoomFor env memory) : small.HasRoomFor env memory := by
  obtain ⟨freshId, freshReceipt, free⟩ := room
  have atMost := within.lastSeq
  refine ⟨?_, ?_, by omega⟩
  · exact fun taken => freshId (within.memoryIds _ taken)
  · exact fun taken => freshReceipt (within.receiptIds _ taken)

theorem MergeLedger.within_admit :
    ledger.Within (ledger.afterAdmission env options memory) := by
  unfold MergeLedger.afterAdmission
  split_ifs
  · constructor
    · exact fun id taken => List.mem_cons_of_mem _ taken
    · exact fun id taken => List.mem_cons_of_mem _ taken
    · simp [MergeLedger.stored, MergeLedger.seen]
  · exact ⟨fun _ taken => taken, fun _ taken => taken, le_refl _⟩

theorem MergeLedger.Within.trans {large : MergeLedger}
    (inner : small.Within ledger) (outer : ledger.Within large) :
    small.Within large where
  memoryIds := fun id taken => outer.memoryIds id (inner.memoryIds id taken)
  receiptIds := fun id taken => outer.receiptIds id (inner.receiptIds id taken)
  lastSeq := inner.lastSeq.trans outer.lastSeq

theorem MergeLedger.within_after (fate : RowFate) :
    ledger.Within (ledger.after env options memory fate) := by
  cases fate with
  | admitted => exact within_admit
  | quarantined row =>
      exact ⟨fun _ taken => taken, fun _ taken => taken, le_refl _⟩
  | refused => exact ⟨fun _ taken => taken, fun _ taken => taken, le_refl _⟩

theorem MergeLedger.Within.after (within : small.Within ledger)
    (fate : RowFate) :
    (small.after env options memory fate).Within
      (ledger.after env options memory fate) := by
  cases fate with
  | quarantined row => exact within
  | refused => exact within
  | admitted =>
      unfold MergeLedger.after MergeLedger.afterAdmission
      split_ifs
      · constructor
        · intro id taken
          simp only [MergeLedger.stored, MergeLedger.seen, List.mem_cons]
            at taken ⊢
          exact taken.imp_right (within.memoryIds id)
        · intro id taken
          simp only [MergeLedger.stored, MergeLedger.seen, List.mem_cons]
            at taken ⊢
          exact taken.imp_right (within.receiptIds id)
        · have atMost := within.lastSeq
          simpa [MergeLedger.stored, MergeLedger.seen] using atMost
      · exact ⟨within.memoryIds, within.receiptIds, within.lastSeq⟩

/-- The gate does with a row what its content says, unless it has to write it
and cannot. -/
theorem rowFate_eq :
    rowFate env options log ledger memory =
      if contentFate env options log ledger.existingHashes memory = .admitted ∧
          options.dryRun = false ∧ ¬ledger.HasRoomFor env memory then .refused
      else contentFate env options log ledger.existingHashes memory := by
  by_cases stopped :
      contentFate env options log ledger.existingHashes memory = .admitted ∧
        options.dryRun = false ∧ ¬ledger.HasRoomFor env memory
  · obtain ⟨admitted, noRoom⟩ := stopped
    obtain ⟨clean, minimum, resolved, passes⟩ :=
      contentFate_eq_admitted_iff.mp admitted
    rw [if_pos ⟨admitted, noRoom⟩]
    exact rowFate_eq_refused_iff.mpr
      ⟨clean, .inr ⟨minimum, resolved, passes, noRoom⟩⟩
  · rw [if_neg stopped]
    unfold rowFate clearedFate contentFate
    cases disclosure : disclosureViolation env (untrustedProjection memory) with
    | some category => rfl
    | none =>
        dsimp only
        cases resolved : resolveCandidateMinimumSensitivity env
            (untrustedProjection memory) log with
        | error error => rfl
        | ok minimum =>
            dsimp only
            cases decision : mergeDecision env options ledger.existingHashes
                (untrustedProjection memory) minimum with
            | error reason => rfl
            | ok result =>
                have admitted : contentFate env options log
                    ledger.existingHashes memory = .admitted :=
                  contentFate_eq_admitted_iff.mpr
                    ⟨disclosure, minimum, resolved, by rw [decision]; rfl⟩
                exact if_neg fun noRoom => stopped ⟨admitted, noRoom⟩

/-- After a row that the gate did not stop at, the known content has grown by
the row's content if that passes. -/
theorem MergeLedger.Knows.after (knows : ledger.Knows known)
    (proceeds : contentFate env options log known memory ≠ .refused) :
    (ledger.after env options memory
        (contentFate env options log known memory)).Knows
      (knownAfter env options log known [memory]) := by
  intro hash
  rw [mem_knownAfter_singleton]
  cases fate : contentFate env options log known memory with
  | refused => exact absurd fate proceeds
  | admitted =>
      have passes := passes_of_admitted fate
      have seen : hash ∈ (ledger.afterAdmission env options memory).existingHashes ↔
          hash = computeContentHash env memory.content.value ∨
            hash ∈ ledger.existingHashes := by
        unfold MergeLedger.afterAdmission
        split_ifs <;> exact List.mem_cons
      rw [MergeLedger.after, seen, knows hash, or_comm]
      simp [passes]
  | quarantined row =>
      rw [MergeLedger.after, knows hash]
      constructor
      · exact fun isKnown => .inl isKnown
      · rintro (isKnown | ⟨passes, rfl⟩)
        · exact isKnown
        · by_contra unknown
          rw [contentFate_of_unknown unknown, passes] at fate
          cases fate

theorem mergeFates_proceeds_cons
    (proceeds : ¬Refuses (mergeFates env options log ledger (memory :: rest)))
    (knows : ledger.Knows known) :
    let fate := contentFate env options log known memory
    rowFate env options log ledger memory = fate ∧ fate ≠ .refused ∧
      mergeFates env options log ledger (memory :: rest) =
        (memory, fate) ::
          mergeFates env options log (ledger.after env options memory fate)
            rest ∧
      ¬Refuses (mergeFates env options log
        (ledger.after env options memory fate) rest) := by
  have isFate : rowFate env options log ledger memory ≠ .refused →
      rowFate env options log ledger memory =
        contentFate env options log known memory := by
    intro goesOn
    rw [rowFate_eq] at goesOn ⊢
    split_ifs at goesOn ⊢ with stopped
    · exact absurd rfl goesOn
    · exact contentFate_congr (knows _)
  cases fate : rowFate env options log ledger memory with
  | refused =>
      rw [mergeFates_refused fate] at proceeds
      exact absurd (refuses_refused memory []) proceeds
  | quarantined row =>
      rw [mergeFates_quarantined fate] at proceeds ⊢
      rw [refuses_quarantined] at proceeds
      rw [← isFate (by simp [fate]), fate]
      exact ⟨rfl, by simp, rfl, proceeds⟩
  | admitted =>
      rw [mergeFates_admitted fate] at proceeds ⊢
      rw [refuses_admitted] at proceeds
      rw [← isFate (by simp [fate]), fate]
      exact ⟨rfl, by simp, rfl, proceeds⟩

theorem map_fst_mergeFates
    (proceeds : ¬Refuses (mergeFates env options log ledger rows)) :
    (mergeFates env options log ledger rows).map Prod.fst = rows := by
  induction rows generalizing ledger with
  | nil => rfl
  | cons memory rest induction =>
      obtain ⟨-, -, isRun, goesOn⟩ :=
        mergeFates_proceeds_cons proceeds fun hash => Iff.rfl
      rw [isRun, List.map_cons, induction goesOn]

/-- A row is judged with the content known before it. -/
theorem mem_mergeFates {before after : List CuratedMemory}
    (isSplit : rows = before ++ memory :: after)
    (proceeds : ¬Refuses (mergeFates env options log ledger rows))
    (knows : ledger.Knows known) :
    (memory, contentFate env options log
        (knownAfter env options log known before) memory) ∈
      mergeFates env options log ledger rows := by
  subst isSplit
  induction before generalizing ledger known with
  | nil =>
      obtain ⟨-, -, isRun, -⟩ := mergeFates_proceeds_cons proceeds knows
      rw [List.nil_append, isRun]
      simp [knownAfter]
  | cons first before induction =>
      rw [List.cons_append] at proceeds ⊢
      obtain ⟨-, runs, isRun, goesOn⟩ :=
        mergeFates_proceeds_cons proceeds knows
      have later := induction (knows.after runs) goesOn
      rw [isRun]
      rw [← knownAfter_append] at later
      exact List.mem_cons_of_mem _ later

/-- A row that is quarantined is quarantined under its own id. -/
theorem quarantined_memoryId {row : QuarantinedRow}
    (member : (memory, RowFate.quarantined row) ∈
      mergeFates env options log ledger rows) :
    row.memoryId = memory.id := by
  have ownId (ledger : MergeLedger) (memory : CuratedMemory)
      (row : QuarantinedRow)
      (fate : rowFate env options log ledger memory = .quarantined row) :
      row.memoryId = memory.id := by
    unfold rowFate clearedFate at fate
    dsimp only at fate
    split at fate
    · cases fate
      rfl
    · split at fate
      · cases fate
      · split at fate
        · cases fate
          rfl
        · split_ifs at fate
  induction rows generalizing ledger with
  | nil => cases member
  | cons first rest induction =>
      cases fate : rowFate env options log ledger first with
      | quarantined other =>
          rw [mergeFates_quarantined fate] at member
          rcases List.mem_cons.mp member with same | later
          · cases same
            exact ownId ledger memory row fate
          · exact induction later
      | admitted =>
          rw [mergeFates_admitted fate] at member
          rcases List.mem_cons.mp member with same | later
          · cases same
          · exact induction later
      | refused =>
          rw [mergeFates_refused fate] at member
          rcases List.mem_cons.mp member with same | later
          · cases same
          · cases later

/-- Among rows with different ids, the quarantine of a row is found under its
id. -/
theorem find?_quarantinedRows {fates : List (CuratedMemory × RowFate)}
    (nodup : (fates.map fun entry => entry.1.id).Nodup)
    (ownIds : ∀ memory row, (memory, RowFate.quarantined row) ∈ fates →
      row.memoryId = memory.id)
    {fate : RowFate} (member : (memory, fate) ∈ fates) :
    (quarantinedRows fates).find? (·.memoryId = memory.id) =
      fate.quarantine? := by
  have inside (row : QuarantinedRow)
      (listed : row ∈ quarantinedRows fates) (same : row.memoryId = memory.id) :
      fate = .quarantined row := by
    obtain ⟨⟨other, otherFate⟩, otherMember, isRow⟩ :=
      List.mem_filterMap.mp listed
    cases otherFate with
    | admitted => cases isRow
    | refused => cases isRow
    | quarantined found =>
        cases isRow
        have sameId : other.id = memory.id :=
          (ownIds other row otherMember).symm.trans same
        have sameEntry := List.inj_on_of_nodup_map nodup otherMember member
          sameId
        cases sameEntry
        rfl
  cases found : (quarantinedRows fates).find? (·.memoryId = memory.id) with
  | some row =>
      have same : row.memoryId = memory.id := by
        simpa using List.find?_some found
      rw [inside row (List.mem_of_find?_eq_some found) same]
      rfl
  | none =>
      cases fate with
      | admitted => rfl
      | refused => rfl
      | quarantined row =>
          have listed : row ∈ quarantinedRows fates :=
            List.mem_filterMap.mpr ⟨_, member, rfl⟩
          have absent := List.find?_eq_none.mp found row listed
          simp [ownIds memory row member] at absent

end Run

/-! ## The verdicts of a merge -/

theorem rowsBefore_eq {union before after : List CuratedMemory}
    {memory : CuratedMemory}
    (nodup : (union.map CuratedMemory.id).Nodup)
    (isSplit : union = before ++ memory :: after) :
    rowsBefore union memory = before := by
  subst isSplit
  rw [List.map_append, List.map_cons, List.nodup_append] at nodup
  obtain ⟨-, -, apart⟩ := nodup
  have different : ∀ other ∈ before, decide (other.id ≠ memory.id) = true := by
    intro other member
    exact decide_eq_true
      (apart _ (List.mem_map_of_mem member) _ List.mem_cons_self)
  unfold rowsBefore
  rw [List.takeWhile_append_of_pos different]
  simp

section Verdict

variable {options : MergeGovernOptions} {store final : Store}
variable {cloneA cloneB : List CuratedMemory} {result : MergeGovernResult}
variable {memory : CuratedMemory}

/-- What is known when the merge comes to a row. -/
def knownBefore (env : Environment) (options : MergeGovernOptions)
    (store : Store) (union : List CuratedMemory) (memory : CuratedMemory) :
    List String :=
  knownAfter env options store.auditEvents
    (MemoryRepository.getAllContentHashes store.curatedMemories)
    (rowsBefore union memory)

theorem valid_of_completed
    (completed :
      mergeGovern env cloneA cloneB options store = .ok result final) :
    mergeIdViolation env (mergeUnion (cloneA ++ cloneB)) = none := by
  cases violation : mergeIdViolation env (mergeUnion (cloneA ++ cloneB)) with
  | none => rfl
  | some error =>
      rw [@mergeGovern_of_violation env options store cloneA cloneB error
        violation] at completed
      cases completed

theorem fates_of_completed
    (completed :
      mergeGovern env cloneA cloneB options store = .ok result final) :
    ¬Refuses (fatesOf env options store cloneA cloneB) ∧
      Leaves env options
        (admittedRows (fatesOf env options store cloneA cloneB)) store final ∧
      result.quarantined =
        quarantinedRows (fatesOf env options store cloneA cloneB) := by
  obtain ⟨other, leaves, ends⟩ :=
    @mergeGovern_fates env options store cloneA cloneB
      (valid_of_completed completed)
  rw [completed] at ends
  split_ifs at ends with refuses
  · obtain ⟨error, failed⟩ := ends
    cases failed
  · obtain ⟨same, sameResult, -, quarantines⟩ := ends
    cases sameResult
    exact ⟨refuses, leaves, quarantines⟩

theorem mergeVerdict_of_absent
    (completed :
      mergeGovern env cloneA cloneB options store = .ok result final)
    (absent : memory ∉ mergeUnion (cloneA ++ cloneB)) :
    mergeVerdict env options store cloneA cloneB memory = none := by
  unfold mergeVerdict
  rw [completed]
  exact if_neg absent

theorem mergeVerdict_ne_none
    (member : memory ∈ mergeUnion (cloneA ++ cloneB)) :
    mergeVerdict env options store cloneA cloneB memory ≠ none := by
  unfold mergeVerdict
  split
  · simp
  · rw [if_pos member]
    split <;> simp

theorem mergeVerdict_ne_refused
    (completed :
      mergeGovern env cloneA cloneB options store = .ok result final) :
    mergeVerdict env options store cloneA cloneB memory ≠ some .refused := by
  unfold mergeVerdict
  rw [completed]
  dsimp only
  split_ifs
  · split <;> simp
  · simp

theorem completed_of_mergeVerdict
    (verdict : mergeVerdict env options store cloneA cloneB memory ≠
      some .refused) :
    ∃ result final,
      mergeGovern env cloneA cloneB options store = .ok result final := by
  unfold mergeVerdict at verdict
  cases run : mergeGovern env cloneA cloneB options store with
  | ok result final => exact ⟨result, final, rfl⟩
  | error error final =>
      rw [run] at verdict
      exact absurd rfl verdict

/-- A merge that completes judges each row by the content known before it. -/
theorem mergeVerdict_of_member
    (completed :
      mergeGovern env cloneA cloneB options store = .ok result final)
    (member : memory ∈ mergeUnion (cloneA ++ cloneB)) :
    mergeVerdict env options store cloneA cloneB memory =
      some (contentFate env options store.auditEvents
        (knownBefore env options store (mergeUnion (cloneA ++ cloneB)) memory)
        memory) := by
  obtain ⟨proceeds, -, quarantines⟩ := fates_of_completed completed
  obtain ⟨before, after, isSplit⟩ := List.append_of_mem member
  have nodup := mergeUnion_ids_nodup (cloneA ++ cloneB)
  have knows : (MergeLedger.of store).Knows
      (MemoryRepository.getAllContentHashes store.curatedMemories) :=
    fun hash => Iff.rfl
  have entry := mem_mergeFates isSplit proceeds knows
  have entriesNodup : ((fatesOf env options store cloneA cloneB).map
      fun entry => entry.1.id).Nodup := by
    have firsts := map_fst_mergeFates proceeds
    rw [← firsts, List.map_map] at nodup
    exact nodup
  have found := find?_quarantinedRows entriesNodup
    (fun other row listed => quarantined_memoryId listed) entry
  unfold mergeVerdict
  rw [completed]
  dsimp only
  rw [if_pos member, quarantines, found, knownBefore,
    rowsBefore_eq nodup isSplit]
  cases fate : contentFate env options store.auditEvents
      (knownAfter env options store.auditEvents
        (MemoryRepository.getAllContentHashes store.curatedMemories) before)
      memory with
  | quarantined row => rfl
  | admitted => rfl
  | refused =>
      rw [fate] at entry
      exact absurd (List.mem_map_of_mem entry) proceeds

/-- More known content makes a difference exactly when it has the content of
the row and the gate cares. -/
theorem contentFate_eq_iff {log : AuditLog} {known more : List String}
    (included : ∀ hash ∈ known, hash ∈ more) :
    contentFate env options log more memory =
        contentFate env options log known memory ↔
      (contentFate env options log
            [computeContentHash env memory.content.value] memory ≠
          contentFate env options log [] memory →
        computeContentHash env memory.content.value ∈ more →
          computeContentHash env memory.content.value ∈ known) := by
  by_cases isKnown : computeContentHash env memory.content.value ∈ known
  · refine iff_of_true ?_ fun _ _ => isKnown
    exact contentFate_congr ⟨fun _ => isKnown, fun _ => included _ isKnown⟩
  · by_cases inMore : computeContentHash env memory.content.value ∈ more
    · rw [contentFate_of_unknown isKnown, contentFate_of_known inMore]
      simp [isKnown, inMore]
    · refine iff_of_true ?_ fun _ isKnown => absurd isKnown inMore
      exact contentFate_congr ⟨fun seen => absurd seen inMore, included _⟩

end Verdict

end Registrar
