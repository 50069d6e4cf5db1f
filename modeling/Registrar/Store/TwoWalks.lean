import Registrar.Store.AuditVerify

/-!
# The two walks of the audit chain

`walkChain` (`audit-verify-merge.ts`) with the variables of its own loop, which
keeps no hashes of the rows that it has passed.  The two loops stay in step
over every list of rows and report the same breaks, up to the reason of a fork.
-/

namespace Registrar

/-- The variables of the loop of `walkChain`. -/
structure MergeWalk where
  index : Nat
  breaks : List AuditChainBreak
  unverifiedRows : Nat
  cleanRows : Nat
  expectedPrev : Option String

def MergeWalk.start : MergeWalk where
  index := 0
  breaks := []
  unverifiedRows := 0
  cleanRows := 0
  expectedPrev := none

variable (sha256 : String → String)

/-- The body of the loop of `walkChain` for one row. -/
def MergeWalk.visit (walk : MergeWalk) (row : AuditChainRow) : MergeWalk :=
  if row.entryHash = none ∧ row.prevEntryHash = none then
    { walk with
      index := walk.index + 1
      unverifiedRows := walk.unverifiedRows + 1 }
  else
    let expectedHash :=
      computeEntryHash sha256 row.canonical (rowHashVersion row)
    let prevMatches := decide (row.prevEntryHash = walk.expectedPrev)
    let entryMatches := decide (row.entryHash = some expectedHash)
    if prevMatches && entryMatches then
      { walk with
        index := walk.index + 1
        cleanRows := walk.cleanRows + 1
        expectedPrev := row.entryHash }
    else
      let reason : AuditChainBreakReason :=
        if !prevMatches && !entryMatches then .prevLinkAndEntryHashMismatch
        else if !prevMatches then .prevLinkMismatch
        else .entryHashMismatch
      { walk with
        index := walk.index + 1
        breaks := walk.breaks ++
          [{ index := walk.index
             id := row.id
             action := row.action
             timestamp := row.timestamp
             tenantId := row.tenantId
             expectedEntryHash := expectedHash
             actualEntryHash := row.entryHash
             expectedPrevEntryHash := walk.expectedPrev
             actualPrevEntryHash := row.prevEntryHash
             reason := reason }]
        expectedPrev := row.entryHash }

/-- `walkChain`, by the loop that the source writes for it. -/
def mergeWalkChain (orderedRows : List AuditChainRow) : AuditVerifyResult :=
  let walk := orderedRows.foldl (MergeWalk.visit sha256) .start
  { totalRows := orderedRows.length
    unverifiedRows := walk.unverifiedRows
    cleanRows := walk.cleanRows
    breaks := walk.breaks }

/-- Two reports of one break, with reasons that go together. -/
structure SameBreak
    (together : AuditChainBreakReason → AuditChainBreakReason → Prop)
    (walked verified : AuditChainBreak) : Prop where
  apartFromReason : { walked with reason := verified.reason } = verified
  reasons : together walked.reason verified.reason

/-- The same reason, except that the walk sees a link to another row where the
verifier sees a fork. -/
def SameUpToForks (walked verified : AuditChainBreakReason) : Prop :=
  walked = verified ∨ walked = .prevLinkMismatch ∧ verified = .chainFork

/-- The two loops have counted and expect the same. -/
structure LoopsInStep
    (together : AuditChainBreakReason → AuditChainBreakReason → Prop)
    (walk : MergeWalk) (verifier : AuditWalk) : Prop where
  index : walk.index = verifier.index
  unverifiedRows : walk.unverifiedRows = verifier.unverifiedRows
  cleanRows : walk.cleanRows = verifier.cleanRows
  expectedPrev : walk.expectedPrev = verifier.expectedPrev
  breaks : List.Forall₂ (SameBreak together) walk.breaks verifier.breaks

section Simulation

variable {together : AuditChainBreakReason → AuditChainBreakReason → Prop}
variable {reason : List String → AuditChainRow → Bool → Bool →
  AuditChainBreakReason}
variable {sha256}

theorem loopsInStep_start : LoopsInStep together .start .start where
  index := rfl
  unverifiedRows := rfl
  cleanRows := rfl
  expectedPrev := rfl
  breaks := .nil

theorem LoopsInStep.visit
    (reasons : ∀ seenEntryHashes row prevMatches entryMatches,
      (prevMatches && entryMatches) = false →
        together (linkAndHashReason prevMatches entryMatches)
          (reason seenEntryHashes row prevMatches entryMatches))
    {walk : MergeWalk} {verifier : AuditWalk}
    (inStep : LoopsInStep together walk verifier) (row : AuditChainRow) :
    LoopsInStep together (walk.visit sha256 row)
      (verifier.visit sha256 reason row) := by
  obtain ⟨index, unverifiedRows, cleanRows, expectedPrev, breaks⟩ := inStep
  by_cases unchained : row.entryHash = none ∧ row.prevEntryHash = none
  · simp only [MergeWalk.visit, AuditWalk.visit, if_pos unchained]
    exact ⟨by rw [index], by rw [unverifiedRows], cleanRows, expectedPrev,
      breaks⟩
  · simp only [MergeWalk.visit, AuditWalk.visit, if_neg unchained, expectedPrev]
    by_cases fits : (decide (row.prevEntryHash = verifier.expectedPrev) &&
        decide (row.entryHash = some (computeEntryHash sha256 row.canonical
          (rowHashVersion row)))) = true
    · simp only [if_pos fits]
      exact ⟨by rw [index], unverifiedRows, by rw [cleanRows], rfl, breaks⟩
    · simp only [if_neg fits]
      refine ⟨by rw [index], unverifiedRows, cleanRows, rfl,
        List.rel_append breaks (.cons ?_ .nil)⟩
      exact
        { apartFromReason := by rw [index]
          reasons := reasons _ _ _ _ (Bool.eq_false_iff.mpr fits) }

theorem LoopsInStep.foldl
    (reasons : ∀ seenEntryHashes row prevMatches entryMatches,
      (prevMatches && entryMatches) = false →
        together (linkAndHashReason prevMatches entryMatches)
          (reason seenEntryHashes row prevMatches entryMatches))
    {walk : MergeWalk} {verifier : AuditWalk}
    (inStep : LoopsInStep together walk verifier) (rows : List AuditChainRow) :
    LoopsInStep together (rows.foldl (MergeWalk.visit sha256) walk)
      (rows.foldl (AuditWalk.visit sha256 reason) verifier) := by
  induction rows generalizing walk verifier with
  | nil => exact inStep
  | cons row rest induction => exact induction (inStep.visit reasons row)

end Simulation

/-- The loop without seen hashes is the verifier's loop with the plain
reasons. -/
theorem mergeWalkChain_eq (rows : List AuditChainRow) :
    mergeWalkChain sha256 rows = walkChain sha256 rows := by
  have inStep : LoopsInStep Eq (rows.foldl (MergeWalk.visit sha256) .start)
      (rows.foldl (AuditWalk.visit sha256 fun _ _ => linkAndHashReason)
        .start) :=
    .foldl (fun _ _ _ _ _ => rfl) loopsInStep_start rows
  have same : ∀ walked verified, SameBreak Eq walked verified →
      walked = verified := by
    rintro walked verified ⟨apartFromReason, reasons⟩
    rw [← reasons] at apartFromReason
    exact apartFromReason
  have breaks := List.forall₂_eq_eq_eq ▸ inStep.breaks.imp same
  simp only [mergeWalkChain, walkChain, AuditWalk.result,
    inStep.unverifiedRows, inStep.cleanRows, breaks]

/-- A row that breaks the chain as a fork has an intact hash and so another
link than the expected one. -/
theorem sameUpToForks_breakReason (seenEntryHashes : List String)
    (row : AuditChainRow) (prevMatches entryMatches : Bool)
    (misfit : (prevMatches && entryMatches) = false) :
    SameUpToForks (linkAndHashReason prevMatches entryMatches)
      (breakReason seenEntryHashes row prevMatches entryMatches) := by
  unfold breakReason
  split_ifs with fork
  · obtain ⟨rfl, -⟩ := Bool.and_eq_true_iff.mp fork
    rw [Bool.and_true] at misfit
    rw [misfit]
    exact .inr ⟨rfl, rfl⟩
  · exact .inl rfl

/-- The walk of the merge verifier and the audit verifier count the same rows
and report the same breaks, up to the reason of a fork. -/
theorem walks_agree (rows : List AuditChainRow) :
    (mergeWalkChain sha256 rows).totalRows =
        (verifyAuditChain sha256 rows).totalRows ∧
      (mergeWalkChain sha256 rows).unverifiedRows =
        (verifyAuditChain sha256 rows).unverifiedRows ∧
      (mergeWalkChain sha256 rows).cleanRows =
        (verifyAuditChain sha256 rows).cleanRows ∧
      List.Forall₂ (SameBreak SameUpToForks)
        (mergeWalkChain sha256 rows).breaks
        (verifyAuditChain sha256 rows).breaks := by
  have inStep : LoopsInStep SameUpToForks
      (rows.foldl (MergeWalk.visit sha256) .start)
      (rows.foldl (AuditWalk.visit sha256 breakReason) .start) :=
    .foldl sameUpToForks_breakReason loopsInStep_start rows
  exact ⟨rfl, inStep.unverifiedRows, inStep.cleanRows, inStep.breaks⟩

end Registrar
