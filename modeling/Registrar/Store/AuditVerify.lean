import Registrar.Store.AuditChain

/-!
# Walking the audit chain

The two walks over audit rows: `verifyAuditChain` (`audit-verify.ts`), which
tells ordering forks apart from tampering, and `walkChain`
(`audit-verify-merge.ts`), which does not.  Both loops keep the same
bookkeeping and differ only in the reason they give for a break.
-/

namespace Registrar

open HashChain

inductive AuditChainBreakReason where
  | entryHashMismatch
  | prevLinkMismatch
  | prevLinkAndEntryHashMismatch
  | chainFork
  deriving DecidableEq, Repr

structure AuditChainBreak where
  index : Nat
  id : String
  action : String
  timestamp : String
  tenantId : String
  expectedEntryHash : String
  actualEntryHash : Option String
  expectedPrevEntryHash : Option String
  actualPrevEntryHash : Option String
  reason : AuditChainBreakReason
  deriving DecidableEq, Repr

structure AuditVerifyResult where
  totalRows : Nat
  unverifiedRows : Nat
  cleanRows : Nat
  breaks : List AuditChainBreak
  deriving DecidableEq, Repr

/-- The variables of the loop. -/
structure AuditWalk where
  index : Nat
  breaks : List AuditChainBreak
  unverifiedRows : Nat
  cleanRows : Nat
  expectedPrev : Option String
  seenEntryHashes : List String

def AuditWalk.start : AuditWalk where
  index := 0
  breaks := []
  unverifiedRows := 0
  cleanRows := 0
  expectedPrev := none
  seenEntryHashes := []

/-- The reason given by `walkChain`. -/
def linkAndHashReason (prevMatches entryMatches : Bool) :
    AuditChainBreakReason :=
  if !prevMatches && !entryMatches then .prevLinkAndEntryHashMismatch
  else if !prevMatches then .prevLinkMismatch
  else .entryHashMismatch

/-- The reason given by `verifyAuditChain`: a row whose own hash is intact and
which points back at an intact earlier row is an ordering fork. -/
def breakReason (seenEntryHashes : List String) (row : AuditChainRow)
    (prevMatches entryMatches : Bool) : AuditChainBreakReason :=
  if entryMatches && (row.prevEntryHash.any (seenEntryHashes.contains ·)) then
    .chainFork
  else linkAndHashReason prevMatches entryMatches

/-- The body of the loop for one row. -/
def AuditWalk.visit (sha256 : String → String)
    (reason : List String → AuditChainRow → Bool → Bool →
      AuditChainBreakReason)
    (walk : AuditWalk) (row : AuditChainRow) : AuditWalk :=
  if row.entryHash = none ∧ row.prevEntryHash = none then
    { walk with
      index := walk.index + 1
      unverifiedRows := walk.unverifiedRows + 1 }
  else
    let expectedHash :=
      computeEntryHash sha256 row.canonical (rowHashVersion row)
    let prevMatches := decide (row.prevEntryHash = walk.expectedPrev)
    let entryMatches := decide (row.entryHash = some expectedHash)
    let seenEntryHashes :=
      if entryMatches then expectedHash :: walk.seenEntryHashes
      else walk.seenEntryHashes
    if prevMatches && entryMatches then
      { walk with
        index := walk.index + 1
        cleanRows := walk.cleanRows + 1
        expectedPrev := row.entryHash
        seenEntryHashes := seenEntryHashes }
    else
      { walk with
        index := walk.index + 1
        breaks := walk.breaks ++
          [{ index := walk.index
             id := row.id
             action := row.action
             timestamp := row.timestamp
             tenantId := row.tenantId
             expectedEntryHash := expectedHash
             actualEntryHash := row.entryHash
             expectedPrevEntryHash := walk.expectedPrev
             actualPrevEntryHash := row.prevEntryHash
             reason :=
               reason walk.seenEntryHashes row prevMatches entryMatches }]
        expectedPrev := row.entryHash
        seenEntryHashes := seenEntryHashes }

def AuditWalk.result (walk : AuditWalk) (rows : List AuditChainRow) :
    AuditVerifyResult where
  totalRows := rows.length
  unverifiedRows := walk.unverifiedRows
  cleanRows := walk.cleanRows
  breaks := walk.breaks

/-- Validate every chained row of a chronological list. -/
def verifyAuditChain (sha256 : String → String) (rows : List AuditChainRow) :
    AuditVerifyResult :=
  (rows.foldl (AuditWalk.visit sha256 breakReason) .start).result rows

/-- The re-walk of a merged list, with no tolerance for forks. -/
def walkChain (sha256 : String → String) (orderedRows : List AuditChainRow) :
    AuditVerifyResult :=
  (orderedRows.foldl
    (AuditWalk.visit sha256 fun _ _ => linkAndHashReason) .start).result
    orderedRows

def AuditWalk.progress (walk : AuditWalk) : Progress String where
  expected := walk.expectedPrev
  seen := walk.seenEntryHashes

/-- The reason reported for a verdict. -/
def reasonOf : Verdict → Option AuditChainBreakReason
  | .unverified => none
  | .clean => none
  | .fork => some .chainFork
  | .linkMismatch => some .prevLinkMismatch
  | .entryMismatch => some .entryHashMismatch
  | .linkAndEntryMismatch => some .prevLinkAndEntryHashMismatch

/-- The break, by row and reason, that a finding stands for. -/
def report (finding : AuditChainRow × Verdict) :
    Option (String × AuditChainBreakReason) :=
  (reasonOf finding.2).map fun reason => (finding.1.id, reason)

def AuditChainBreak.summary (found : AuditChainBreak) :
    String × AuditChainBreakReason :=
  (found.id, found.reason)

variable (sha256 : String → String)

section Visit

variable (reason : List String → AuditChainRow → Bool → Bool →
  AuditChainBreakReason)

theorem visit_progress (walk : AuditWalk) (row : AuditChainRow) :
    (walk.visit sha256 reason row).progress =
      (auditScheme sha256).advance walk.progress row := by
  by_cases chained : (auditScheme sha256).Chained row
  · have present : ¬(row.entryHash = none ∧ row.prevEntryHash = none) := chained
    simp only [AuditWalk.visit, if_neg present, Scheme.advance, if_pos chained,
      Scheme.Intact]
    split_ifs <;> simp_all [AuditWalk.progress, auditScheme]
  · have absent : row.entryHash = none ∧ row.prevEntryHash = none :=
      not_not.mp chained
    simp [AuditWalk.visit, absent, Scheme.advance, chained, AuditWalk.progress]

theorem visit_cleanRows (walk : AuditWalk) (row : AuditChainRow) :
    (walk.visit sha256 reason row).cleanRows =
      walk.cleanRows +
        (if (auditScheme sha256).verdict walk.progress row = .clean
          then 1 else 0) := by
  by_cases chained : (auditScheme sha256).Chained row
  · have present : ¬(row.entryHash = none ∧ row.prevEntryHash = none) := chained
    by_cases fits : (auditScheme sha256).Fits walk.expectedPrev row
    · have clean : (auditScheme sha256).verdict walk.progress row = .clean :=
        (Scheme.verdict_eq_clean_iff _ _ _).mpr ⟨chained, fits⟩
      have linkMatches : row.prevEntryHash = walk.expectedPrev := fits.1
      have entryMatches : row.entryHash = some (computeEntryHash sha256
          row.canonical (rowHashVersion row)) := fits.2
      rw [if_pos clean]
      simp [AuditWalk.visit, linkMatches, entryMatches]
    · have unclean : (auditScheme sha256).verdict walk.progress row ≠ .clean :=
        fun clean =>
          fits ((Scheme.verdict_eq_clean_iff _ _ _).mp clean).2
      have mismatch : ¬(row.prevEntryHash = walk.expectedPrev ∧
          row.entryHash = some (computeEntryHash sha256 row.canonical
            (rowHashVersion row))) := fits
      simp only [AuditWalk.visit, if_neg present, if_neg unclean,
        Bool.and_eq_true, decide_eq_true_eq, if_neg mismatch, Nat.add_zero]
  · have absent : row.entryHash = none ∧ row.prevEntryHash = none :=
      not_not.mp chained
    simp [AuditWalk.visit, absent, Scheme.verdict_eq_clean_iff, chained]

/-- A visit adds a break exactly when the verdict is one. -/
theorem visit_breaks (walk : AuditWalk) (row : AuditChainRow) :
    (walk.visit sha256 reason row).breaks = walk.breaks ∧
        ¬((auditScheme sha256).verdict walk.progress row).IsBreak ∨
      ∃ found : AuditChainBreak,
        (walk.visit sha256 reason row).breaks = walk.breaks ++ [found] ∧
        found.id = row.id ∧
        found.reason = reason walk.seenEntryHashes row
          (decide (row.prevEntryHash = walk.expectedPrev))
          (decide ((auditScheme sha256).Intact row)) ∧
        ((auditScheme sha256).verdict walk.progress row).IsBreak := by
  rw [Scheme.verdict_isBreak_iff]
  by_cases chained : (auditScheme sha256).Chained row
  · have present : ¬(row.entryHash = none ∧ row.prevEntryHash = none) := chained
    by_cases fits : (auditScheme sha256).Fits walk.expectedPrev row
    · left
      have linkMatches : row.prevEntryHash = walk.expectedPrev := fits.1
      have entryMatches : row.entryHash = some (computeEntryHash sha256
          row.canonical (rowHashVersion row)) := fits.2
      refine ⟨?_, fun broken => broken.2 fits⟩
      simp [AuditWalk.visit, linkMatches, entryMatches]
    · right
      have mismatch : ¬(row.prevEntryHash = walk.expectedPrev ∧
          row.entryHash = some (computeEntryHash sha256 row.canonical
            (rowHashVersion row))) := fits
      simp only [AuditWalk.visit, if_neg present, Bool.and_eq_true,
        decide_eq_true_eq, if_neg mismatch]
      exact ⟨_, rfl, rfl, rfl, chained, fits⟩
  · left
    have absent : row.entryHash = none ∧ row.prevEntryHash = none :=
      not_not.mp chained
    exact ⟨by simp [AuditWalk.visit, absent], fun broken => chained broken.1⟩

theorem foldl_visit_cleanRows (walk : AuditWalk) (rows : List AuditChainRow) :
    (rows.foldl (AuditWalk.visit sha256 reason) walk).cleanRows =
      walk.cleanRows +
        ((auditScheme sha256).verdicts walk.progress rows).countP
          (fun finding => finding.2 = .clean) := by
  induction rows generalizing walk with
  | nil => rfl
  | cons row rest induction =>
      rw [List.foldl_cons, induction, visit_cleanRows, visit_progress,
        Scheme.verdicts, List.countP_cons]
      simp only [decide_eq_true_eq]
      omega

private theorem foldl_visit_breaks_eq_nil_iff_verdicts
    (walk : AuditWalk) (rows : List AuditChainRow) :
    (rows.foldl (AuditWalk.visit sha256 reason) walk).breaks = [] ↔
      walk.breaks = [] ∧
        ∀ finding ∈ (auditScheme sha256).verdicts walk.progress rows,
          ¬finding.2.IsBreak := by
  induction rows generalizing walk with
  | nil => simp [Scheme.verdicts]
  | cons row rest induction =>
      have later := induction (walk.visit sha256 reason row)
      rw [visit_progress] at later
      rw [List.foldl_cons, later, Scheme.verdicts, List.forall_mem_cons]
      rcases visit_breaks sha256 reason walk row with
        ⟨same, sound⟩ | ⟨found, more, _, _, broken⟩
      · simp [same, sound]
      · simp [more, broken]

theorem foldl_visit_breaks_eq_nil_iff
    (walk : AuditWalk) (rows : List AuditChainRow) :
    (rows.foldl (AuditWalk.visit sha256 reason) walk).breaks = [] ↔
      walk.breaks = [] ∧
        (auditScheme sha256).Linked walk.expectedPrev rows := by
  have linked := (auditScheme sha256).linked_iff_no_break walk.progress rows
  rw [foldl_visit_breaks_eq_nil_iff_verdicts, ← linked]
  rfl

end Visit

/-- The reason given for a row is the one that stands for its verdict. -/
theorem breakReason_eq
    {progress : Progress String} {row : AuditChainRow}
    (broken : ((auditScheme sha256).verdict progress row).IsBreak) :
    reasonOf ((auditScheme sha256).verdict progress row) =
      some (breakReason progress.seen row
        (decide (row.prevEntryHash = progress.expected))
        (decide ((auditScheme sha256).Intact row))) := by
  obtain ⟨chained, misfit⟩ :=
    ((auditScheme sha256).verdict_isBreak_iff progress row).mp broken
  have anchored : row.prevEntryHash.any (progress.seen.contains ·) = true ↔
      ∃ hash ∈ progress.seen, row.prevEntryHash = some hash := by
    cases row.prevEntryHash <;> simp
  by_cases intact : (auditScheme sha256).Intact row
  · have unlinked : ¬row.prevEntryHash = progress.expected :=
      fun linked => misfit ⟨linked, intact⟩
    by_cases fork : ∃ hash ∈ progress.seen, row.prevEntryHash = some hash
    · have isFork : (auditScheme sha256).verdict progress row = .fork := by
        rw [Scheme.verdict, if_neg (not_not.mpr chained), if_neg misfit,
          if_pos ⟨intact, fork⟩]
      simp only [isFork, reasonOf, breakReason, decide_eq_true intact,
        anchored.mpr fork, Bool.and_self, if_true]
    · have isLink : (auditScheme sha256).verdict progress row =
          .linkMismatch := by
        rw [Scheme.verdict, if_neg (not_not.mpr chained), if_neg misfit,
          if_neg (fun both => fork both.2), if_pos intact]
      have unanchored : row.prevEntryHash.any (progress.seen.contains ·) =
          false := Bool.eq_false_iff.mpr fun found => fork (anchored.mp found)
      simp only [isLink, reasonOf, breakReason, linkAndHashReason,
        decide_eq_true intact, decide_eq_false unlinked, unanchored]
      rfl
  · have notFork : ¬((auditScheme sha256).Intact row ∧
        ∃ hash ∈ progress.seen,
          (auditScheme sha256).previous row = some hash) :=
      fun both => intact both.1
    rw [Scheme.verdict, if_neg (not_not.mpr chained), if_neg misfit,
      if_neg notFork, if_neg intact]
    by_cases linked : (auditScheme sha256).previous row = progress.expected
    · have same : row.prevEntryHash = progress.expected := linked
      rw [if_pos linked]
      simp [reasonOf, breakReason, linkAndHashReason, intact, same]
    · have different : ¬row.prevEntryHash = progress.expected := linked
      rw [if_neg linked]
      simp [reasonOf, breakReason, linkAndHashReason, intact, different]

private theorem foldl_visit_summaries
    (walk : AuditWalk) (rows : List AuditChainRow) :
    (rows.foldl (AuditWalk.visit sha256 breakReason) walk).breaks.map
        AuditChainBreak.summary =
      walk.breaks.map AuditChainBreak.summary ++
        ((auditScheme sha256).verdicts walk.progress rows).filterMap
          report := by
  induction rows generalizing walk with
  | nil => simp [Scheme.verdicts]
  | cons row rest induction =>
      rw [List.foldl_cons, induction, visit_progress, Scheme.verdicts]
      rcases visit_breaks sha256 breakReason walk row with
        ⟨same, sound⟩ | ⟨found, more, sameId, sameReason, broken⟩
      · have silent : report
            (row, (auditScheme sha256).verdict walk.progress row) = none := by
          rw [report, Option.map_eq_none_iff]
          cases verdict : (auditScheme sha256).verdict walk.progress row <;>
            simp_all [Verdict.IsBreak, reasonOf]
        rw [same, List.filterMap_cons_none silent]
      · have reported : report
            (row, (auditScheme sha256).verdict walk.progress row) =
              some found.summary := by
          rw [report, breakReason_eq sha256 broken, AuditChainBreak.summary,
            sameId, sameReason]
          rfl
        rw [more, List.filterMap_cons_some reported, List.map_append,
          List.append_assoc]
        rfl

theorem verifyAuditChain_summaries (rows : List AuditChainRow) :
    (verifyAuditChain sha256 rows).breaks.map AuditChainBreak.summary =
      ((auditScheme sha256).verdicts .start rows).filterMap report :=
  foldl_visit_summaries sha256 .start rows

/-- A break is reported for each row whose finding is one. -/
theorem mem_verifyAuditChain_breaks_iff {rows : List AuditChainRow}
    {id : String} {reason : AuditChainBreakReason} :
    (∃ brk ∈ (verifyAuditChain sha256 rows).breaks,
        brk.id = id ∧ brk.reason = reason) ↔
      ∃ before row after, rows = before ++ row :: after ∧ row.id = id ∧
        reasonOf ((auditScheme sha256).verdictAfter before row) =
          some reason := by
  have summaries : (∃ brk ∈ (verifyAuditChain sha256 rows).breaks,
      brk.id = id ∧ brk.reason = reason) ↔
      (id, reason) ∈
        (verifyAuditChain sha256 rows).breaks.map AuditChainBreak.summary := by
    simp [AuditChainBreak.summary]
  rw [summaries, verifyAuditChain_summaries, List.mem_filterMap]
  constructor
  · rintro ⟨⟨row, verdict⟩, finding, reported⟩
    obtain ⟨before, after, split, found⟩ :=
      ((auditScheme sha256).mem_verdicts_iff).mp finding
    obtain ⟨given, isReason, same⟩ := Option.map_eq_some_iff.mp reported
    obtain ⟨sameId, rfl⟩ := Prod.mk.inj same
    exact ⟨before, row, after, split, sameId, found ▸ isReason⟩
  · rintro ⟨before, row, after, split, rfl, isReason⟩
    refine ⟨(row, (auditScheme sha256).verdictAfter before row), ?_, ?_⟩
    · exact ((auditScheme sha256).mem_verdicts_iff).mpr
        ⟨before, after, split, rfl⟩
    · simp [report, isReason]

theorem walkChain_breaks_eq_nil_iff (rows : List AuditChainRow) :
    (walkChain sha256 rows).breaks = [] ↔
      (auditScheme sha256).Linked none rows := by
  refine (foldl_visit_breaks_eq_nil_iff sha256 _ .start rows).trans ?_
  simp [AuditWalk.start]

theorem verifyAuditChain_breaks_eq_nil_iff (rows : List AuditChainRow) :
    (verifyAuditChain sha256 rows).breaks = [] ↔
      (auditScheme sha256).Linked none rows := by
  refine (foldl_visit_breaks_eq_nil_iff sha256 _ .start rows).trans ?_
  simp [AuditWalk.start]

theorem foldl_visit_cleanRows_of_linked
    (reason : List String → AuditChainRow → Bool → Bool →
      AuditChainBreakReason)
    (walk : AuditWalk) {rows : List AuditChainRow}
    (linked : (auditScheme sha256).Linked walk.expectedPrev rows) :
    (rows.foldl (AuditWalk.visit sha256 reason) walk).cleanRows =
      walk.cleanRows + rows.countP ((auditScheme sha256).Chained ·) := by
  have sound := ((auditScheme sha256).linked_iff_no_break walk.progress
    rows).mp linked
  rw [foldl_visit_cleanRows, Scheme.countP_clean_eq sound]

end Registrar
