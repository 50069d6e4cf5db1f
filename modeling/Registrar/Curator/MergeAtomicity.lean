import Registrar.Curator.MergeFates

/-!
# When a merge is all or nothing

The gate checks the ids of the whole union before it writes, and then promotes
row by row, each row in a transaction of its own.  A repeated merge finds the
contents of the first one known, if anything looks for them.
-/

namespace Registrar

open Program

variable (env : Environment)

/-- Something turns known content away: the check of the gate itself, or a rule
of the policy. -/
def MergeGovernOptions.Guarded (options : MergeGovernOptions) : Prop :=
  ∀ policy ∈ options.policy, ∃ rule ∈ policy.rules,
    rule.enabled = true ∧ rule.type = .dedupCheck

instance (options : MergeGovernOptions) : Decidable options.Guarded :=
  inferInstanceAs (Decidable (∀ policy ∈ _, ∃ rule ∈ _, _ ∧ _))

/-- The fates of the rows of both clones in a store. -/
def fatesOf (options : MergeGovernOptions) (store : Store)
    (cloneA cloneB : List CuratedMemory) : List (CuratedMemory × RowFate) :=
  mergeFates env options store.auditEvents (MergeLedger.of store)
    (mergeUnion (cloneA ++ cloneB))

/-- A merge that throws has done nothing, and one that completes leaves nothing
to do for the same merge. -/
structure AllOrNothing (options : MergeGovernOptions) (store : Store)
    (cloneA cloneB : List CuratedMemory) : Prop where
  atomic : ∀ error final,
    mergeGovern env cloneA cloneB options store = .error error final →
      final = store
  repeatable : ∀ result final,
    mergeGovern env cloneA cloneB options store = .ok result final →
      ∃ again,
        mergeGovern env cloneA cloneB options final = .ok again final ∧
          again.promoted = []

/-- The merge is stopped by its first pass or admits nothing; or a row is
refused in a dry run; or the merge writes all it admits, and known content is
turned away. -/
def MergesAtOnce (options : MergeGovernOptions) (store : Store)
    (cloneA cloneB : List CuratedMemory) : Prop :=
  (mergeIdViolation env (mergeUnion (cloneA ++ cloneB))).isSome ∨
    admittedRows (fatesOf env options store cloneA cloneB) = [] ∨
    (if options.dryRun = true then
      Refuses (fatesOf env options store cloneA cloneB)
    else
      options.Guarded ∧ ¬Refuses (fatesOf env options store cloneA cloneB))

instance (options : MergeGovernOptions) (store : Store)
    (cloneA cloneB : List CuratedMemory) :
    Decidable (MergesAtOnce env options store cloneA cloneB) :=
  inferInstanceAs (Decidable (_ ∨ _ ∨ _))

variable {env}

section Decision

variable {options : MergeGovernOptions} {candidate : MemoryCandidate}
variable {minimum : Option Sensitivity} {known more : List String}

theorem mergeDecision_isOk_iff :
    (mergeDecision env options known candidate minimum).isOk = true ↔
      match options.policy with
      | some policy =>
          ∀ rule ∈ policy.rules, rule.enabled = true →
            (createRule env rule.type candidate rule
              { minimumSensitivity := minimum
                existingHashes := some known
                tenantId := some options.tenantId
                getActiveMemoriesInCategory := none }).outcome = .pass
      | none => computeContentHash env candidate.content ∉ known := by
  unfold mergeDecision
  cases options.policy with
  | none =>
      dsimp only
      split_ifs with found
      · simpa [Except.isOk, Except.toBool] using found
      · simpa [Except.isOk, Except.toBool] using found
  | some policy =>
      dsimp only
      rw [← PolicyPipeline.approved_iff]
      split_ifs with approved
      · simpa [Except.isOk, Except.toBool] using approved
      · simpa [Except.isOk, Except.toBool] using approved

theorem mergeDecision_of_known (guarded : options.Guarded)
    (isKnown : computeContentHash env candidate.content ∈ known) :
    (mergeDecision env options known candidate minimum).isOk = false := by
  by_contra passes
  rw [Bool.not_eq_false, mergeDecision_isOk_iff] at passes
  unfold MergeGovernOptions.Guarded at guarded
  cases policy : options.policy with
  | none =>
      rw [policy] at passes
      exact passes isKnown
  | some policy' =>
      rw [policy] at passes
      obtain ⟨rule, member, enabled, isDedup⟩ := guarded policy' policy
      have passed := passes rule member enabled
      rw [isDedup] at passed
      exact (evaluateDedupCheck_pass_iff env candidate rule _).mp passed isKnown

/-- What passes with more known content passes with less. -/
theorem mergeDecision_mono (included : ∀ hash ∈ known, hash ∈ more)
    (passes : (mergeDecision env options more candidate minimum).isOk = true) :
    (mergeDecision env options known candidate minimum).isOk = true := by
  rw [mergeDecision_isOk_iff] at passes ⊢
  cases policy : options.policy with
  | none =>
      rw [policy] at passes
      exact fun isKnown => passes (included _ isKnown)
  | some policy' =>
      rw [policy] at passes
      intro rule member enabled
      have passed := passes rule member enabled
      by_cases isDedup : rule.type = .dedupCheck
      · rw [isDedup] at passed ⊢
        apply (evaluateDedupCheck_pass_iff env candidate rule _).mpr
        intro isKnown
        exact (evaluateDedupCheck_pass_iff env candidate rule _).mp passed
          (included _ isKnown)
      · rw [← createRule_existingHashes env isDedup candidate rule _
          (some more)]
        exact passed

theorem mergeDecision_of_unguarded (unguarded : ¬options.Guarded)
    (passes : (mergeDecision env options known candidate minimum).isOk = true) :
    (mergeDecision env options more candidate minimum).isOk = true := by
  unfold MergeGovernOptions.Guarded at unguarded
  push Not at unguarded
  obtain ⟨policy, isPolicy, noCheck⟩ := unguarded
  rw [mergeDecision_isOk_iff] at passes ⊢
  rw [Option.mem_def.mp isPolicy] at passes ⊢
  intro rule member enabled
  have isOther := noCheck rule member enabled
  rw [← createRule_existingHashes env isOther candidate rule _ (some known)]
  exact passes rule member enabled

end Decision

section Again

variable {options : MergeGovernOptions} {log logAgain : AuditLog}
variable {ledger again : MergeLedger}

/-- Where known content is turned away, a row that the gate did not stop at is
quarantined the next time. -/
theorem rowFate_again (guarded : options.Guarded) {memory : CuratedMemory}
    (sameFloors : ∀ candidate,
      resolveCandidateMinimumSensitivity env candidate logAgain =
        resolveCandidateMinimumSensitivity env candidate log)
    (included : ∀ hash ∈ ledger.existingHashes, hash ∈ again.existingHashes)
    (proceeds : rowFate env options log ledger memory ≠ .refused)
    (known : rowFate env options log ledger memory = .admitted →
      computeContentHash env memory.content.value ∈ again.existingHashes) :
    ∃ row, rowFate env options logAgain again memory = .quarantined row := by
  have turnedAway (minimum : Option Sensitivity)
      (clean : disclosureViolation env (untrustedProjection memory) = none)
      (resolved : resolveCandidateMinimumSensitivity env
        (untrustedProjection memory) log = .ok minimum) :
      (mergeDecision env options again.existingHashes
        (untrustedProjection memory) minimum).isOk = false := by
    by_contra passes
    rw [Bool.not_eq_false] at passes
    have passed := mergeDecision_mono included passes
    by_cases stopped :
        options.dryRun = false ∧ ¬ledger.HasRoomFor env memory
    · apply proceeds
      exact rowFate_eq_refused_iff.mpr
        ⟨clean, .inr ⟨minimum, resolved, passed, stopped⟩⟩
    · have isKnown := known (rowFate_eq_admitted_iff.mpr
        ⟨clean, minimum, resolved, passed, stopped⟩)
      rw [mergeDecision_of_known guarded isKnown] at passes
      cases passes
  cases fate : rowFate env options logAgain again memory with
  | quarantined row => exact ⟨row, rfl⟩
  | admitted =>
      obtain ⟨clean, minimum, resolved, passes, -⟩ :=
        rowFate_eq_admitted_iff.mp fate
      rw [sameFloors] at resolved
      rw [turnedAway minimum clean resolved] at passes
      cases passes
  | refused =>
      obtain ⟨clean, ⟨error, failed⟩ | ⟨minimum, resolved, passes, -⟩⟩ :=
        rowFate_eq_refused_iff.mp fate
      · rw [sameFloors] at failed
        exact absurd (rowFate_eq_refused_iff.mpr ⟨clean, .inl ⟨error, failed⟩⟩)
          proceeds
      · rw [sameFloors] at resolved
        rw [turnedAway minimum clean resolved] at passes
        cases passes

theorem mergeFates_again (guarded : options.Guarded)
    (sameFloors : ∀ candidate,
      resolveCandidateMinimumSensitivity env candidate logAgain =
        resolveCandidateMinimumSensitivity env candidate log)
    {rows : List CuratedMemory}
    (included : ∀ hash ∈ ledger.existingHashes, hash ∈ again.existingHashes)
    (proceeds : ¬Refuses (mergeFates env options log ledger rows))
    (known : ∀ memory ∈ admittedRows (mergeFates env options log ledger rows),
      computeContentHash env memory.content.value ∈ again.existingHashes) :
    admittedRows (mergeFates env options logAgain again rows) = [] ∧
      ¬Refuses (mergeFates env options logAgain again rows) := by
  induction rows generalizing ledger with
  | nil => simp [mergeFates, admittedRows, Refuses]
  | cons memory rest induction =>
      have quarantinedAgain
          (goesOn : rowFate env options log ledger memory ≠ .refused)
          (isKnown : rowFate env options log ledger memory = .admitted →
            computeContentHash env memory.content.value ∈
              again.existingHashes)
          (restAgain :
            admittedRows (mergeFates env options logAgain again rest) = [] ∧
              ¬Refuses (mergeFates env options logAgain again rest)) :
          admittedRows
                (mergeFates env options logAgain again (memory :: rest)) = [] ∧
            ¬Refuses
              (mergeFates env options logAgain again (memory :: rest)) := by
        obtain ⟨row, fateAgain⟩ :=
          rowFate_again guarded sameFloors included goesOn isKnown
        rw [mergeFates_quarantined fateAgain]
        simpa using restAgain
      cases fate : rowFate env options log ledger memory with
      | quarantined row =>
          rw [mergeFates_quarantined fate] at proceeds known
          simp only [refuses_quarantined, admittedRows_quarantined]
            at proceeds known
          apply quarantinedAgain (by simp [fate]) (by simp [fate])
          exact induction included proceeds known
      | admitted =>
          rw [mergeFates_admitted fate] at proceeds known
          simp only [refuses_admitted, admittedRows_admitted,
            List.forall_mem_cons] at proceeds known
          apply quarantinedAgain (by simp [fate]) fun _ => known.1
          apply induction _ proceeds known.2
          intro hash member
          have seen : hash = computeContentHash env memory.content.value ∨
              hash ∈ ledger.existingHashes := by
            unfold MergeLedger.afterAdmission at member
            split_ifs at member <;> exact List.mem_cons.mp member
          rcases seen with rfl | earlier
          · exact known.1
          · exact included hash earlier
      | refused =>
          rw [mergeFates_refused fate] at proceeds
          exact absurd (refuses_refused memory []) proceeds

/-- Where nothing looks for known content, the first row that was admitted is
refused the next time: its id is taken. -/
theorem refuses_again (unguarded : ¬options.Guarded)
    (wet : options.dryRun = false)
    (sameFloors : ∀ candidate,
      resolveCandidateMinimumSensitivity env candidate logAgain =
        resolveCandidateMinimumSensitivity env candidate log)
    {rows : List CuratedMemory}
    (proceeds : ¬Refuses (mergeFates env options log ledger rows))
    (admits : admittedRows (mergeFates env options log ledger rows) ≠ [])
    (taken : ∀ memory ∈ admittedRows (mergeFates env options log ledger rows),
      mergedMemoryId env memory ∈ again.memoryIds) :
    Refuses (mergeFates env options logAgain again rows) := by
  induction rows with
  | nil => exact absurd rfl admits
  | cons memory rest induction =>
      cases fate : rowFate env options log ledger memory with
      | quarantined row =>
          rw [mergeFates_quarantined fate] at proceeds admits taken
          simp only [refuses_quarantined, admittedRows_quarantined]
            at proceeds admits taken
          cases fateAgain : rowFate env options logAgain again memory with
          | quarantined rowAgain =>
              rw [mergeFates_quarantined fateAgain]
              simpa using induction proceeds admits taken
          | refused =>
              rw [mergeFates_refused fateAgain]
              exact refuses_refused memory []
          | admitted =>
              obtain ⟨clean, minimum, resolved, passes, room⟩ :=
                rowFate_eq_admitted_iff.mp fateAgain
              rw [sameFloors] at resolved
              have passed : (mergeDecision env options ledger.existingHashes
                  (untrustedProjection memory) minimum).isOk = true :=
                mergeDecision_of_unguarded unguarded passes
              by_cases stopped :
                  options.dryRun = false ∧ ¬ledger.HasRoomFor env memory
              · have refused := rowFate_eq_refused_iff.mpr
                  ⟨clean, .inr ⟨minimum, resolved, passed, stopped⟩⟩
                rw [fate] at refused
                cases refused
              · have admitted := rowFate_eq_admitted_iff.mpr
                  ⟨clean, minimum, resolved, passed, stopped⟩
                rw [fate] at admitted
                cases admitted
      | admitted =>
          rw [mergeFates_admitted fate] at taken
          simp only [admittedRows_admitted, List.forall_mem_cons] at taken
          obtain ⟨clean, minimum, resolved, passes, -⟩ :=
            rowFate_eq_admitted_iff.mp fate
          have refused : rowFate env options logAgain again memory =
              .refused := by
            rw [← sameFloors] at resolved
            refine rowFate_eq_refused_iff.mpr ⟨clean, .inr ⟨minimum, resolved,
              mergeDecision_of_unguarded unguarded passes, wet, ?_⟩⟩
            intro room
            exact room.1 taken.1
          rw [mergeFates_refused refused]
          exact refuses_refused memory []
      | refused =>
          rw [mergeFates_refused fate] at proceeds
          exact absurd (refuses_refused memory []) proceeds

end Again

/-! ## The merge -/

section Merge

variable {options : MergeGovernOptions} {store : Store}
variable {cloneA cloneB : List CuratedMemory}

/-- How a merge ends whose ids pass. -/
theorem mergeGovern_fates
    (valid : mergeIdViolation env (mergeUnion (cloneA ++ cloneB)) = none) :
    ∃ final,
      Leaves env options
          (admittedRows (fatesOf env options store cloneA cloneB)) store
          final ∧
        if Refuses (fatesOf env options store cloneA cloneB) then
          ∃ error,
            mergeGovern env cloneA cloneB options store = .error error final
        else
          ∃ result,
            mergeGovern env cloneA cloneB options store = .ok result final ∧
              List.Forall₂ (StoredFor env)
                (admittedRows (fatesOf env options store cloneA cloneB))
                result.promoted ∧
              result.quarantined =
                quarantinedRows (fatesOf env options store cloneA cloneB) := by
  let progress : MergeProgress :=
    { existingHashes := MemoryRepository.getAllContentHashes
        store.curatedMemories
      promoted := []
      quarantined := [] }
  have seeded : (MergeLedger.of store).existingHashes =
      progress.existingHashes := rfl
  obtain ⟨final, leaves, ends⟩ := governUnion_fates options
    (mergeUnion (cloneA ++ cloneB)) (MergeLedger.of_describes store) seeded 0
  refine ⟨final, leaves, ?_⟩
  have governs : mergeGovern env cloneA cloneB options store =
      governRows env options (mergeUnion (cloneA ++ cloneB)) store := by
    simp only [mergeGovern, valid]
  rw [governs]
  unfold fatesOf governRows
  rw [bind_apply_of_ok (query_apply _ _)]
  split_ifs at ends ⊢ with refuses
  · obtain ⟨error, failed⟩ := ends
    exact ⟨error, bind_apply_of_error failed⟩
  · obtain ⟨result, promoted, completed, matched, promotes, quarantines⟩ := ends
    refine ⟨_, bind_apply_of_ok completed, ?_, ?_⟩
    · rw [promotes]
      exact matched
    · rw [quarantines]
      rfl

theorem Leaves.eq_iff {rows : List CuratedMemory} {final : Store}
    (leaves : Leaves env options rows store final) :
    final = store ↔ rows = [] ∨ options.dryRun = true := by
  constructor
  · intro same
    by_contra written
    push Not at written
    obtain ⟨filled, wet⟩ := written
    obtain ⟨promoted, matched, appended⟩ :=
      leaves.stored (Bool.eq_false_of_not_eq_true wet)
    rw [same, List.self_eq_append_right] at appended
    rw [appended, List.forall₂_nil_right_iff] at matched
    exact filled matched
  · rintro (none | dry)
    · exact leaves.nothing none
    · exact leaves.dry dry

theorem Leaves.again {rows : List CuratedMemory} {final : Store}
    (leaves : Leaves env options rows store final)
    (wet : options.dryRun = false) :
    (∀ hash ∈ (MergeLedger.of store).existingHashes,
        hash ∈ (MergeLedger.of final).existingHashes) ∧
      ∀ memory ∈ rows,
        computeContentHash env memory.content.value ∈
            (MergeLedger.of final).existingHashes ∧
          mergedMemoryId env memory ∈ (MergeLedger.of final).memoryIds := by
  obtain ⟨promoted, matched, appended⟩ := leaves.stored wet
  simp only [MergeLedger.of, MemoryRepository.getAllContentHashes, appended,
    List.map_append, List.mem_append]
  refine ⟨fun hash member => .inl member, ?_⟩
  intro memory member
  obtain ⟨stored, inside, isId, hash, -⟩ := exists_storedFor matched member
  rw [← hash, ← isId]
  exact ⟨.inr (List.mem_map_of_mem inside), .inr (List.mem_map_of_mem inside)⟩

theorem mergeGovern_of_violation {error : RegistrarError}
    (violates : mergeIdViolation env (mergeUnion (cloneA ++ cloneB)) =
      some error) :
    mergeGovern env cloneA cloneB options store = .error error store := by
  unfold mergeGovern
  simp only [violates]
  rfl

/-- A merge whose ids pass and that stops at no row is repeatable exactly when
it admits nothing, or writes what it admits and turns known content away. -/
theorem repeatable_iff
    (valid : mergeIdViolation env (mergeUnion (cloneA ++ cloneB)) = none)
    {final : Store} {result : MergeGovernResult}
    (proceeds : ¬Refuses (fatesOf env options store cloneA cloneB))
    (leaves : Leaves env options
      (admittedRows (fatesOf env options store cloneA cloneB)) store final)
    (completed :
      mergeGovern env cloneA cloneB options store = .ok result final)
    (matched : List.Forall₂ (StoredFor env)
      (admittedRows (fatesOf env options store cloneA cloneB))
      result.promoted) :
    (∃ again,
        mergeGovern env cloneA cloneB options final = .ok again final ∧
          again.promoted = []) ↔
      admittedRows (fatesOf env options store cloneA cloneB) = [] ∨
        options.dryRun = false ∧ options.Guarded := by
  by_cases unchanged :
      admittedRows (fatesOf env options store cloneA cloneB) = [] ∨
        options.dryRun = true
  · have isResult : result.promoted = [] ↔
        admittedRows (fatesOf env options store cloneA cloneB) = [] := by
      constructor
      · intro none
        rw [none] at matched
        exact List.forall₂_nil_right_iff.mp matched
      · intro none
        rw [none] at matched
        exact List.forall₂_nil_left_iff.mp matched
    rw [leaves.eq_iff.mpr unchanged] at completed ⊢
    rw [completed]
    constructor
    · rintro ⟨again, same, none⟩
      cases same
      exact .inl (isResult.mp none)
    · intro condition
      refine ⟨result, rfl, isResult.mpr ?_⟩
      rcases condition with none | ⟨wet, -⟩
      · exact none
      · rcases unchanged with none | dry
        · exact none
        · rw [wet] at dry
          cases dry
  · push Not at unchanged
    obtain ⟨admits, isWet⟩ := unchanged
    have wet := Bool.eq_false_of_not_eq_true isWet
    obtain ⟨included, known⟩ := leaves.again wet
    obtain ⟨finalAgain, leavesAgain, endsAgain⟩ :=
      @mergeGovern_fates env options final cloneA cloneB valid
    constructor
    · rintro ⟨again, completedAgain, -⟩
      refine .inr ⟨wet, ?_⟩
      by_contra unguarded
      have refuses : Refuses (fatesOf env options final cloneA cloneB) :=
        refuses_again unguarded wet leaves.floors proceeds admits
          fun memory member => (known memory member).2
      rw [if_pos refuses] at endsAgain
      obtain ⟨error, failed⟩ := endsAgain
      rw [completedAgain] at failed
      cases failed
    · rintro (none | ⟨-, guarded⟩)
      · exact absurd none admits
      · have nothing :
            admittedRows (fatesOf env options final cloneA cloneB) = [] ∧
              ¬Refuses (fatesOf env options final cloneA cloneB) :=
          mergeFates_again guarded leaves.floors included proceeds
            fun memory member => (known memory member).1
        rw [if_neg nothing.2, nothing.1] at endsAgain
        obtain ⟨again, completedAgain, matchedAgain, -⟩ := endsAgain
        rw [leavesAgain.nothing nothing.1] at completedAgain
        exact ⟨again, completedAgain,
          List.forall₂_nil_left_iff.mp matchedAgain⟩

/-- A merge is all or nothing exactly when it is stopped by its first pass or
admits nothing; or a row is refused in a dry run; or the merge writes all it
admits, and known content is turned away. -/
theorem allOrNothing_iff :
    AllOrNothing env options store cloneA cloneB ↔
      MergesAtOnce env options store cloneA cloneB := by
  unfold MergesAtOnce
  cases violation : mergeIdViolation env (mergeUnion (cloneA ++ cloneB)) with
  | some error =>
      have stopped :=
        @mergeGovern_of_violation env options store cloneA cloneB error
          violation
      refine iff_of_true ⟨?_, ?_⟩ (.inl rfl)
      · intro other final failed
        rw [stopped] at failed
        cases failed
        rfl
      · intro result final completed
        rw [stopped] at completed
        cases completed
  | none =>
      obtain ⟨final, leaves, ends⟩ :=
        @mergeGovern_fates env options store cloneA cloneB violation
      simp only [Option.isSome_none, Bool.false_eq_true, false_or]
      by_cases refuses : Refuses (fatesOf env options store cloneA cloneB)
      · rw [if_pos refuses] at ends
        obtain ⟨error, failed⟩ := ends
        have whenAtomic :
            AllOrNothing env options store cloneA cloneB ↔ final = store := by
          constructor
          · intro holds
            exact holds.atomic error final failed
          · intro same
            constructor
            · intro other finalAgain failedAgain
              rw [failed] at failedAgain
              cases failedAgain
              exact same
            · intro result finalAgain completed
              rw [failed] at completed
              cases completed
        rw [whenAtomic, leaves.eq_iff]
        by_cases dry : options.dryRun = true <;> simp [dry, refuses]
      · rw [if_neg refuses] at ends
        obtain ⟨result, completed, matched, -⟩ := ends
        have whenRepeatable :
            AllOrNothing env options store cloneA cloneB ↔
              ∃ again,
                mergeGovern env cloneA cloneB options final = .ok again final ∧
                  again.promoted = [] := by
          constructor
          · intro holds
            exact holds.repeatable result final completed
          · intro repeats
            constructor
            · intro error finalAgain failed
              rw [completed] at failed
              cases failed
            · intro other finalAgain completedAgain
              rw [completed] at completedAgain
              cases completedAgain
              exact repeats
        rw [whenRepeatable,
          repeatable_iff violation refuses leaves completed matched]
        by_cases dry : options.dryRun = true <;> simp [dry, refuses]

end Merge

/-- The store in which the second row of the clones has been redacted since. -/
def redactedStore : Store :=
  { Store.empty with
    curatedMemories :=
      { rows :=
          [{ secondRow plainEnvironment with
              content := ⟨"Archive the notes", by decide +kernel, by simp⟩
              contentHash :=
                computeContentHash plainEnvironment "Archive the notes" }]
        coexist := List.pairwise_singleton _ _ } }

/-- The first row is promoted before the gate stops at the second one. -/
theorem merge_stopsHalfway :
    ¬ AllOrNothing plainEnvironment openMergeOptions redactedStore
      [firstRow plainEnvironment] [secondRow plainEnvironment] := by
  intro holds
  cases ended : twoRowMerge plainEnvironment redactedStore with
  | ok result final =>
      have returned : completes (twoRowMerge plainEnvironment redactedStore) =
          false := by decide +kernel
      rw [ended] at returned
      cases returned
  | error error final =>
      have rows : (finalState (twoRowMerge plainEnvironment)
          redactedStore).curatedMemories.rows.length = 2 := by
        decide +kernel
      unfold finalState at rows
      rw [ended] at rows
      dsimp only at rows
      rw [holds.atomic error final ended] at rows
      cases rows

end Registrar
