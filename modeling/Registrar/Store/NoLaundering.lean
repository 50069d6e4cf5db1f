import Registrar.Store.ExceptionManifest

/-!
# Editing a pinned row

A manifest pins every tamper break of a table.  Then one pinned row is edited.
The classifier notices the edit exactly under the conditions of `EditCaught`:
an edit that leaves the stored tuple alone is compared with nothing but the
row's own hash.
-/

namespace Registrar

open HashChain

variable (sha256 : String → String)

/-- The table `edited` is `table` with the row `original` rewritten. -/
structure RowEdit (table edited : AuditTable)
    (original rewritten : AuditChainRow) : Prop where
  member : original ∈ table.rows
  sameId : rewritten.id = original.id
  rows : edited.rows =
    table.rows.map fun row => if row.id = original.id then rewritten else row

/-- Every tamper break of the table is pinned with its reason. -/
def PinsTamperBreaks (manifest : Option ExceptionManifest)
    (table : AuditTable) : Prop :=
  ∀ brk ∈ (verifyAuditChain sha256 (findAllChronological table.rows)).breaks,
    brk.reason ≠ .chainFork →
      ∀ row ∈ table.rows, row.id = brk.id →
        PinnedAs manifest row brk.reason

/-- Some intact row points past the row right before it at an earlier intact
row. -/
def HasFork (rows : List AuditChainRow) : Prop :=
  ∃ before row after, rows = before ++ row :: after ∧
    (auditScheme sha256).Intact row ∧
      ¬(auditScheme sha256).Points before row ∧
        (auditScheme sha256).Anchored before row

/-- What reveals an edit that leaves the stored tuple of the row alone. -/
def ContentEditCaught (rows : List AuditChainRow)
    (original rewritten : AuditChainRow) : Prop :=
  let scheme := auditScheme sha256
  HasFork sha256 rows ∨
    (scheme.Intact original ∧ ¬scheme.Intact rewritten) ∨
    (¬scheme.Intact original ∧ scheme.Intact rewritten ∧
      ∃ before after, rows = before ++ original :: after ∧
        (¬scheme.Points before original ∨
          ∃ between later rest, after = between ++ later :: rest ∧
            scheme.Intact later ∧
              ¬scheme.Points (before ++ original :: between) later ∧
                later.prevEntryHash = original.entryHash))

/-- The rewritten row does not fit where it now stands, under another tuple or
in another way than the original one did not. -/
def RewrittenRowBroken (rows edited : List AuditChainRow)
    (original rewritten : AuditChainRow) : Prop :=
  let scheme := auditScheme sha256
  ∃ before after front back,
    rows = before ++ original :: after ∧
      edited = front ++ rewritten :: back ∧
      scheme.Chained rewritten ∧
      ¬(scheme.Points front rewritten ∧ scheme.Intact rewritten) ∧
      (rewritten.storedTuple ≠ original.storedTuple ∨
        ¬(scheme.Intact original ↔ scheme.Intact rewritten) ∨
        ¬(scheme.Points before original ↔ scheme.Points front rewritten) ∨
        scheme.Intact rewritten ∧ scheme.Anchored front rewritten)

/-- The edit changes how another row stands to the row before it.  An intact
row is left misplaced, behind an earlier intact row that it points at, or
without a pin for its misplacement, which it has where it was so misplaced
before; a row that is not intact starts or stops pointing at the one before. -/
def KnockOnBreak (manifest : Option ExceptionManifest)
    (rows edited : List AuditChainRow) (original : AuditChainRow) : Prop :=
  let scheme := auditScheme sha256
  ∃ other before after front back,
    other.id ≠ original.id ∧
      rows = before ++ other :: after ∧
      edited = front ++ other :: back ∧
      (scheme.Intact other ∧ ¬scheme.Points front other ∧
          (scheme.Anchored front other ∨
            (scheme.Points before other ∨ scheme.Anchored before other) ∧
              ¬PinnedAs manifest other .prevLinkMismatch) ∨
        scheme.Chained other ∧ ¬scheme.Intact other ∧
          ¬(scheme.Points before other ↔ scheme.Points front other))

/-- The condition under which an edit of a pinned row is noticed. -/
def EditCaught (manifest : Option ExceptionManifest)
    (rows edited : List AuditChainRow) (original rewritten : AuditChainRow) :
    Prop :=
  (rewritten.storedTuple = original.storedTuple →
    rewritten.seq = original.seq →
      ContentEditCaught sha256 rows original rewritten) ∧
  (¬(rewritten.storedTuple = original.storedTuple ∧
      rewritten.seq = original.seq) →
    RewrittenRowBroken sha256 rows edited original rewritten ∨
      KnockOnBreak sha256 manifest rows edited original)

variable {sha256}

section Edit

variable {manifest : Option ExceptionManifest} {table edited : AuditTable}
variable {original rewritten : AuditChainRow}
variable {pinnedReason : AuditChainBreakReason}

theorem PinsTamperBreaks.pinned
    (pins : PinsTamperBreaks sha256 manifest table)
    {before after : List AuditChainRow} {row : AuditChainRow}
    {reason : AuditChainBreakReason}
    (split : findAllChronological table.rows = before ++ row :: after)
    (isReason : reasonOf ((auditScheme sha256).verdictAfter before row) =
      some reason)
    (tamper : reason ≠ .chainFork) :
    PinnedAs manifest row reason := by
  obtain ⟨brk, member, sameId, rfl⟩ :=
    (mem_verifyAuditChain_breaks_iff sha256).mpr
      ⟨before, row, after, split, rfl, isReason⟩
  refine pins brk member tamper row ?_ sameId.symm
  refine (findAllChronological_perm table.rows).mem_iff.mp ?_
  rw [split]
  exact List.mem_append_right _ List.mem_cons_self

theorem PinnedAs.unique
    {row other : AuditChainRow} {reason reason' : AuditChainBreakReason}
    (pinned : PinnedAs manifest row reason)
    (otherPinned : PinnedAs manifest other reason')
    (sameId : other.id = row.id) :
    other.storedTuple = row.storedTuple ∧ reason' = reason := by
  have entries := pinned.2.symm.trans (sameId ▸ otherPinned.2)
  simp only [Option.some.injEq, ExceptionManifestEntry.mk.injEq] at entries
  obtain ⟨-, entryHash, prevEntryHash, hashVersion, seq, reason⟩ := entries
  refine ⟨?_, reason.symm⟩
  simp only [AuditChainRow.storedTuple, StoredRowTuple.mk.injEq] at *
  exact ⟨entryHash.symm, prevEntryHash.symm, hashVersion.symm, seq.symm⟩

theorem PinnedAs.of_tuple
    {row other : AuditChainRow} {reason : AuditChainBreakReason}
    (pinned : PinnedAs manifest row reason)
    (sameId : other.id = row.id)
    (sameTuple : other.storedTuple = row.storedTuple) :
    PinnedAs manifest other reason := by
  refine ⟨pinned.1, ?_⟩
  rw [sameId, sameTuple]
  exact pinned.2

theorem excused_of_tamper_pinned
    {row : AuditChainRow} {verdict : Verdict}
    (notFork : verdict ≠ .fork)
    (pinned : ∀ reason, reason ≠ .chainFork → reasonOf verdict = some reason →
      PinnedAs manifest row reason) :
    Excused manifest row verdict := by
  intro reason isReason
  refine pinned reason ?_ isReason
  rintro rfl
  cases verdict <;> simp_all [reasonOf]

theorem not_excused_fork {row : AuditChainRow} :
    ¬Excused manifest row .fork := by
  intro excused
  exact absurd (excused .chainFork rfl).1 (by decide)

theorem RowEdit.findAllChronological_eq
    (edit : RowEdit table edited original rewritten)
    (sameSeq : rewritten.seq = original.seq) :
    findAllChronological edited.rows =
      (findAllChronological table.rows).map fun row =>
        if row.id = original.id then rewritten else row := by
  have seqs : ∀ row ∈ table.rows,
      (if row.id = original.id then rewritten else row).seq = row.seq := by
    intro row member
    split_ifs with sameId
    · have distinct : (table.rows.map AuditChainRow.id).Nodup :=
        List.pairwise_map.mpr (table.coexist.imp fun coexist => coexist.1)
      rw [List.inj_on_of_nodup_map distinct member edit.member sameId]
      exact sameSeq
    · rfl
  rw [edit.rows, findAllChronological, findAllChronological]
  refine (List.map_insertionSort SeqAtMost SeqAtMost _ table.rows ?_).symm
  intro left leftMember right rightMember
  rw [SeqAtMost, SeqAtMost, seqs left leftMember, seqs right rightMember]

private theorem map_rewrite_eq_self
    {rows : List AuditChainRow}
    (others : ∀ row ∈ rows, row.id ≠ original.id) :
    (rows.map fun row => if row.id = original.id then rewritten else row) =
      rows := by
  have same : (rows.map fun row =>
      if row.id = original.id then rewritten else row) = rows.map id :=
    List.map_congr_left fun row member => if_neg (others row member)
  rw [same, List.map_id]

theorem other_ids_of_split
    {before after : List AuditChainRow}
    (split : findAllChronological table.rows = before ++ original :: after) :
    (∀ row ∈ before, row.id ≠ original.id) ∧
      ∀ row ∈ after, row.id ≠ original.id := by
  have distinct := ids_nodup table
  rw [split, List.map_append, List.map_cons, List.nodup_append,
    List.nodup_cons] at distinct
  obtain ⟨-, ⟨notAfter, -⟩, apart⟩ := distinct
  constructor
  · intro row member
    exact apart row.id (List.mem_map_of_mem member) original.id
      List.mem_cons_self
  · intro row member same
    exact notAfter (same ▸ List.mem_map_of_mem member)

theorem split_unique {before after before' after' : List AuditChainRow}
    (split : findAllChronological table.rows = before ++ original :: after)
    (split' : findAllChronological table.rows = before' ++ original :: after') :
    before = before' ∧ after = after' := by
  have notBefore : original ∉ before' := fun member =>
    (other_ids_of_split split').1 original member rfl
  have notAfter : original ∉ after' := fun member =>
    (other_ids_of_split split').2 original member rfl
  have same := (List.append_cons_inj_of_notMem notBefore notAfter).mp
    (split'.symm.trans split)
  exact ⟨same.1.symm, same.2.2.symm⟩

/-- An edit that keeps `seq` changes one row and leaves the others in place. -/
theorem RowEdit.split
    (edit : RowEdit table edited original rewritten)
    (sameSeq : rewritten.seq = original.seq)
    {before after : List AuditChainRow}
    (split : findAllChronological table.rows = before ++ original :: after) :
    findAllChronological edited.rows = before ++ rewritten :: after := by
  obtain ⟨beforeOthers, afterOthers⟩ := other_ids_of_split split
  rw [edit.findAllChronological_eq sameSeq, split, List.map_append,
    List.map_cons, if_pos rfl, map_rewrite_eq_self beforeOthers,
    map_rewrite_eq_self afterOthers]

theorem PinsTamperBreaks.excused
    (pins : PinsTamperBreaks sha256 manifest table)
    {before after : List AuditChainRow} {row : AuditChainRow}
    (split : findAllChronological table.rows = before ++ row :: after)
    (notFork : (auditScheme sha256).verdictAfter before row ≠ .fork) :
    Excused manifest row ((auditScheme sha256).verdictAfter before row) :=
  excused_of_tamper_pinned notFork fun _ tamper isReason =>
    pins.pinned split isReason tamper

theorem not_hasFork_iff {rows : List AuditChainRow} :
    ¬HasFork sha256 rows ↔
      ∀ before row after, rows = before ++ row :: after →
        (auditScheme sha256).verdictAfter before row ≠ .fork := by
  simp only [HasFork, ne_eq, Scheme.verdictAfter_eq_fork_iff]
  push Not
  rfl

section ContentEdit

variable (edit : RowEdit table edited original rewritten)
variable (pins : PinsTamperBreaks sha256 manifest table)
variable (sameTuple : rewritten.storedTuple = original.storedTuple)
variable {before after : List AuditChainRow}
variable (split :
  findAllChronological table.rows = before ++ original :: after)
variable (tamper :
  ((auditScheme sha256).verdictAfter before original).IsTamper)

variable (sha256) in
include sameTuple in
theorem sameHashes :
    (auditScheme sha256).entry original =
        (auditScheme sha256).entry rewritten ∧
      (auditScheme sha256).previous original =
        (auditScheme sha256).previous rewritten := by
  simp only [AuditChainRow.storedTuple, StoredRowTuple.mk.injEq] at sameTuple
  exact ⟨sameTuple.1.symm, sameTuple.2.1.symm⟩

include edit pins sameTuple split tamper in
/-- An edited row that stays broken is excused only for the same reason. -/
theorem intact_of_excused_rewritten
    (excused : Excused manifest rewritten
      ((auditScheme sha256).verdictAfter before rewritten)) :
    ((auditScheme sha256).Intact original →
      (auditScheme sha256).Intact rewritten) ∧
    (¬(auditScheme sha256).Intact original →
      (auditScheme sha256).Intact rewritten →
        (auditScheme sha256).Points before original) := by
  obtain ⟨entry, previous⟩ := sameHashes sha256 sameTuple
  have pinnedOriginal := pins.excused split tamper.2
  have points : (auditScheme sha256).Points before rewritten ↔
      (auditScheme sha256).Points before original := by
    rw [Scheme.Points, Scheme.Points, previous]
  have chained : (auditScheme sha256).Chained rewritten ↔
      (auditScheme sha256).Chained original := by
    rw [Scheme.Chained, Scheme.Chained, previous, entry]
  have sameReason : ∀ reason reason',
      reasonOf ((auditScheme sha256).verdictAfter before original) =
        some reason →
      reasonOf ((auditScheme sha256).verdictAfter before rewritten) =
        some reason' → reason' = reason := by
    intro reason reason' found found'
    exact (PinnedAs.unique (pinnedOriginal reason found)
      (excused reason' found') edit.sameId).2
  obtain ⟨isChained, misfit⟩ := (Scheme.verdictAfter_isBreak_iff _).mp tamper.1
  have notFork := fun fork =>
    tamper.2 ((Scheme.verdictAfter_eq_fork_iff _).mpr fork)
  constructor
  · intro intact
    by_contra broken
    have misplaced : ¬(auditScheme sha256).Points before original :=
      fun found => misfit ⟨found, intact⟩
    have first : (auditScheme sha256).verdictAfter before original =
        .linkMismatch := by
      refine (Scheme.verdictAfter_eq_linkMismatch_iff _).mpr
        ⟨intact, misplaced, ?_⟩
      exact fun anchored => notFork ⟨intact, misplaced, anchored⟩
    have second : (auditScheme sha256).verdictAfter before rewritten =
        .linkAndEntryMismatch :=
      (Scheme.verdictAfter_eq_linkAndEntryMismatch_iff _).mpr
        ⟨chained.mpr isChained, broken, points.not.mpr misplaced⟩
    rw [first, second] at sameReason
    cases sameReason _ _ rfl rfl
  · intro broken intact
    by_contra misplaced
    have first : (auditScheme sha256).verdictAfter before original =
        .linkAndEntryMismatch :=
      (Scheme.verdictAfter_eq_linkAndEntryMismatch_iff _).mpr
        ⟨isChained, broken, misplaced⟩
    have second : (auditScheme sha256).verdictAfter before rewritten =
        .linkMismatch := by
      refine (Scheme.verdictAfter_eq_linkMismatch_iff _).mpr
        ⟨intact, points.not.mpr misplaced, ?_⟩
      intro anchored
      have fork : (auditScheme sha256).verdictAfter before rewritten = .fork :=
        (Scheme.verdictAfter_eq_fork_iff _).mpr
          ⟨intact, points.not.mpr misplaced, anchored⟩
      rw [fork] at excused
      exact not_excused_fork excused
    rw [first, second] at sameReason
    cases sameReason _ _ rfl rfl

/-- A later row stays anchored when the edited row does not stop being
intact. -/
theorem anchored_rewritten
    (entry : (auditScheme sha256).entry original =
      (auditScheme sha256).entry rewritten)
    (keeps : (auditScheme sha256).Intact original →
      (auditScheme sha256).Intact rewritten)
    {between : List AuditChainRow} {later : AuditChainRow}
    (anchored : (auditScheme sha256).Anchored
      (before ++ original :: between) later) :
    (auditScheme sha256).Anchored (before ++ rewritten :: between) later := by
  rw [Scheme.anchored_append_cons_iff] at anchored ⊢
  rcases anchored with inBefore | ⟨intact, points⟩ | inBetween
  · exact .inl inBefore
  · exact .inr (.inl ⟨keeps intact, points.trans entry⟩)
  · exact .inr (.inr inBetween)

include edit pins sameTuple split tamper in
theorem not_caught_of_verified
    (sameSeq : rewritten.seq = original.seq)
    (verified :
      (classifyTable sha256 manifest edited.rows).verified = true) :
    ¬ContentEditCaught sha256 (findAllChronological table.rows) original
      rewritten := by
  rw [classifyTable_verified_iff, edit.split sameSeq split,
    forall_split_iff] at verified
  obtain ⟨beforeExcused, rewrittenExcused, afterExcused⟩ := verified
  obtain ⟨entry, previous⟩ := sameHashes sha256 sameTuple
  obtain ⟨keeps, onlyLinked⟩ := intact_of_excused_rewritten edit pins sameTuple
    split tamper rewrittenExcused
  have points : ∀ between later,
      (auditScheme sha256).Points (before ++ rewritten :: between) later ↔
        (auditScheme sha256).Points (before ++ original :: between) later := by
    intro between later
    rw [Scheme.Points, Scheme.Points, Scheme.tip_congr _ entry previous]
  rintro (fork | ⟨intact, broken⟩ | ⟨broken, intact, front, back, split', found⟩)
  · refine absurd fork (not_hasFork_iff.mpr ?_)
    rw [split, forall_split_iff]
    refine ⟨?_, tamper.2, ?_⟩
    · intro front row back inBefore isFork
      have excused := beforeExcused front row back inBefore
      rw [isFork] at excused
      exact not_excused_fork excused
    · intro between row rest inAfter isFork
      obtain ⟨intact, misplaced, anchored⟩ :=
        (Scheme.verdictAfter_eq_fork_iff _).mp isFork
      have excused := afterExcused between row rest inAfter
      rw [(Scheme.verdictAfter_eq_fork_iff _).mpr
        ⟨intact, (points between row).not.mpr misplaced,
          anchored_rewritten entry keeps anchored⟩] at excused
      exact not_excused_fork excused
  · exact broken (keeps intact)
  · obtain ⟨rfl, rfl⟩ := split_unique split' split
    rcases found with misplaced |
      ⟨between, later, rest, inAfter, laterIntact, misplaced, toOriginal⟩
    · exact misplaced (onlyLinked broken intact)
    · have excused := afterExcused between later rest inAfter
      have anchored : (auditScheme sha256).Anchored
          (front ++ rewritten :: between) later := by
        rw [Scheme.anchored_append_cons_iff]
        exact .inr (.inl ⟨intact, toOriginal.trans entry⟩)
      rw [(Scheme.verdictAfter_eq_fork_iff _).mpr
        ⟨laterIntact, (points between later).not.mpr misplaced,
          anchored⟩] at excused
      exact not_excused_fork excused

include edit pins sameTuple split in
theorem verified_of_not_caught
    (sameSeq : rewritten.seq = original.seq)
    (unnoticed : ¬ContentEditCaught sha256
      (findAllChronological table.rows) original rewritten) :
    (classifyTable sha256 manifest edited.rows).verified = true := by
  obtain ⟨entry, previous⟩ := sameHashes sha256 sameTuple
  simp only [ContentEditCaught, not_or] at unnoticed
  obtain ⟨noFork, keeps, repaired⟩ := unnoticed
  rw [not_and, not_not] at keeps
  rw [not_hasFork_iff] at noFork
  rw [classifyTable_verified_iff, edit.split sameSeq split, forall_split_iff]
  have notCaught : ¬(auditScheme sha256).Intact original →
      (auditScheme sha256).Intact rewritten →
        (auditScheme sha256).Points before original ∧
          ∀ between later rest, after = between ++ later :: rest →
            (auditScheme sha256).Intact later →
              ¬(auditScheme sha256).Points
                (before ++ original :: between) later →
                later.prevEntryHash ≠ original.entryHash := by
    intro broken intact
    by_contra caught
    refine repaired ⟨broken, intact, before, after, split, ?_⟩
    by_contra neither
    rw [not_or, not_not] at neither
    refine caught ⟨neither.1, ?_⟩
    intro between later rest inAfter laterIntact misplaced toOriginal
    exact neither.2 ⟨between, later, rest, inAfter, laterIntact, misplaced,
      toOriginal⟩
  have excused : ∀ front row back,
      findAllChronological table.rows = front ++ row :: back →
        Excused manifest row ((auditScheme sha256).verdictAfter front row) :=
    fun front row back rowSplit =>
      pins.excused rowSplit (noFork front row back rowSplit)
  rw [split, forall_split_iff] at excused
  obtain ⟨beforeExcused, originalExcused, afterExcused⟩ := excused
  refine ⟨beforeExcused, ?_, ?_⟩
  · by_cases same : (auditScheme sha256).Intact original ↔
        (auditScheme sha256).Intact rewritten
    · have sameVerdict : (auditScheme sha256).verdictAfter before original =
          (auditScheme sha256).verdictAfter before rewritten := by
        refine Scheme.verdictAfter_congr _ ?_ same ?_ ?_
        · rw [Scheme.Chained, Scheme.Chained, previous, entry]
        · rw [Scheme.Points, Scheme.Points, previous]
        · intro _ _
          rw [Scheme.Anchored, Scheme.Anchored, previous]
      rw [← sameVerdict]
      intro reason isReason
      exact (originalExcused reason isReason).of_tuple edit.sameId sameTuple
    · have broken : ¬(auditScheme sha256).Intact original :=
        fun intact => same ⟨keeps, fun _ => intact⟩
      have intact : (auditScheme sha256).Intact rewritten := by
        by_contra stillBroken
        exact same ⟨keeps, fun isIntact => absurd isIntact stillBroken⟩
      have points : (auditScheme sha256).Points before rewritten := by
        rw [Scheme.Points, ← previous]
        exact (notCaught broken intact).1
      rw [(Scheme.verdictAfter_eq_clean_iff _).mpr ⟨intact, points⟩]
      intro reason isReason
      cases isReason
  · intro between later rest inAfter
    rw [← Scheme.verdictAfter_replace _ entry previous]
    · exact afterExcused between later rest inAfter
    · intro intact misplaced toOriginal
      refine ⟨keeps, fun rewrittenIntact => ?_⟩
      by_contra broken
      exact (notCaught broken rewrittenIntact).2 between later rest inAfter
        intact misplaced toOriginal

end ContentEdit

/-- What classification lets pass on a row, by where the row stands. -/
theorem excused_verdictAfter_iff {before : List AuditChainRow}
    {row : AuditChainRow} :
    Excused manifest row ((auditScheme sha256).verdictAfter before row) ↔
      ((auditScheme sha256).Intact row →
        ¬(auditScheme sha256).Points before row →
          ¬(auditScheme sha256).Anchored before row ∧
            PinnedAs manifest row .prevLinkMismatch) ∧
        ((auditScheme sha256).Chained row →
          ¬(auditScheme sha256).Intact row →
            ((auditScheme sha256).Points before row →
                PinnedAs manifest row .entryHashMismatch) ∧
              (¬(auditScheme sha256).Points before row →
                PinnedAs manifest row .prevLinkAndEntryHashMismatch)) := by
  have unpinned : ¬PinnedAs manifest row .chainFork :=
    fun pinned => absurd pinned.1 (by decide)
  rw [Scheme.verdictAfter_eq]
  by_cases isChained : (auditScheme sha256).Chained row
  · by_cases intact : (auditScheme sha256).Intact row
    · by_cases points : (auditScheme sha256).Points before row
      · simp [Excused, reasonOf, isChained, intact, points]
      · by_cases anchored : (auditScheme sha256).Anchored before row
        · simp [Excused, reasonOf, isChained, intact, points, anchored,
            unpinned]
        · simp [Excused, reasonOf, isChained, intact, points, anchored]
    · by_cases points : (auditScheme sha256).Points before row
      · simp [Excused, reasonOf, isChained, intact, points]
      · simp [Excused, reasonOf, isChained, intact, points]
  · have broken : ¬(auditScheme sha256).Intact row :=
      fun intact => isChained (Scheme.chained_of_intact _ intact)
    simp [Excused, reasonOf, isChained, broken]

/-- The reason pinned for a row that is not intact tells whether it points at
the row before it. -/
theorem PinsTamperBreaks.pinned_of_broken
    (pins : PinsTamperBreaks sha256 manifest table)
    {before after : List AuditChainRow} {row : AuditChainRow}
    (split : findAllChronological table.rows = before ++ row :: after)
    (chained : (auditScheme sha256).Chained row)
    (broken : ¬(auditScheme sha256).Intact row) :
    ((auditScheme sha256).Points before row ∧
        PinnedAs manifest row .entryHashMismatch) ∨
      (¬(auditScheme sha256).Points before row ∧
        PinnedAs manifest row .prevLinkAndEntryHashMismatch) := by
  by_cases points : (auditScheme sha256).Points before row
  · left
    refine ⟨points, pins.pinned split ?_ (by decide)⟩
    rw [(Scheme.verdictAfter_eq_entryMismatch_iff _).mpr
      ⟨chained, broken, points⟩]
    rfl
  · right
    refine ⟨points, pins.pinned split ?_ (by decide)⟩
    rw [(Scheme.verdictAfter_eq_linkAndEntryMismatch_iff _).mpr
      ⟨chained, broken, points⟩]
    rfl

theorem PinsTamperBreaks.pinned_of_misplaced
    (pins : PinsTamperBreaks sha256 manifest table)
    {before after : List AuditChainRow} {row : AuditChainRow}
    (split : findAllChronological table.rows = before ++ row :: after)
    (intact : (auditScheme sha256).Intact row)
    (misplaced : ¬(auditScheme sha256).Points before row)
    (unanchored : ¬(auditScheme sha256).Anchored before row) :
    PinnedAs manifest row .prevLinkMismatch := by
  apply pins.pinned split _ (by decide)
  rw [(Scheme.verdictAfter_eq_linkMismatch_iff _).mpr
    ⟨intact, misplaced, unanchored⟩]
  rfl

theorem PinnedAs.reason_eq {row : AuditChainRow}
    {reason reason' : AuditChainBreakReason}
    (pinned : PinnedAs manifest row reason)
    (otherPinned : PinnedAs manifest row reason') : reason' = reason :=
  (pinned.unique otherPinned rfl).2

/-- The finding on another row passes just when the row is no
`KnockOnBreak`. -/
theorem PinsTamperBreaks.excused_other_iff
    (pins : PinsTamperBreaks sha256 manifest table)
    {before after front : List AuditChainRow} {other : AuditChainRow}
    (split : findAllChronological table.rows = before ++ other :: after) :
    Excused manifest other ((auditScheme sha256).verdictAfter front other) ↔
      ¬((auditScheme sha256).Intact other ∧
            ¬(auditScheme sha256).Points front other ∧
            ((auditScheme sha256).Anchored front other ∨
              ((auditScheme sha256).Points before other ∨
                  (auditScheme sha256).Anchored before other) ∧
                ¬PinnedAs manifest other .prevLinkMismatch) ∨
          (auditScheme sha256).Chained other ∧
            ¬(auditScheme sha256).Intact other ∧
            ¬((auditScheme sha256).Points before other ↔
              (auditScheme sha256).Points front other)) := by
  rw [excused_verdictAfter_iff]
  by_cases intact : (auditScheme sha256).Intact other
  · have pinned := pins.pinned_of_misplaced split intact
    simp only [intact, not_true, false_and, and_false, or_false, false_implies,
      implies_true, and_true, true_and, forall_const]
    tauto
  · by_cases chained : (auditScheme sha256).Chained other
    · simp only [intact, chained, not_false_iff, false_and, false_or, true_and,
        false_implies, forall_const, not_not]
      rcases pins.pinned_of_broken split chained intact with
        ⟨pointed, pinned⟩ | ⟨misplaced, pinned⟩
      · have onlyEntry :
            ¬PinnedAs manifest other .prevLinkAndEntryHashMismatch :=
          fun both => absurd (pinned.reason_eq both) (by decide)
        simp only [pointed, pinned, onlyEntry]
        tauto
      · have onlyBoth : ¬PinnedAs manifest other .entryHashMismatch :=
          fun entry => absurd (pinned.reason_eq entry) (by decide)
        simp only [misplaced, pinned, onlyBoth]
        tauto
    · simp [intact, chained]

theorem PinnedAs.rewritten_iff {reason other : AuditChainBreakReason}
    (pinned : PinnedAs manifest original reason)
    (sameId : rewritten.id = original.id) :
    PinnedAs manifest rewritten other ↔
      rewritten.storedTuple = original.storedTuple ∧ other = reason := by
  constructor
  · intro otherPinned
    exact pinned.unique otherPinned sameId
  · intro same
    rw [same.2]
    exact pinned.of_tuple sameId same.1

/-- The finding on the rewritten row passes just when it fits, or does not fit
in the way that is pinned for the original. -/
theorem excused_rewritten_iff
    (sameId : rewritten.id = original.id)
    (pins : PinsTamperBreaks sha256 manifest table)
    {before after front : List AuditChainRow}
    (split : findAllChronological table.rows = before ++ original :: after)
    (tamper : ((auditScheme sha256).verdictAfter before original).IsTamper) :
    Excused manifest rewritten
        ((auditScheme sha256).verdictAfter front rewritten) ↔
      ¬((auditScheme sha256).Chained rewritten ∧
        ¬((auditScheme sha256).Points front rewritten ∧
          (auditScheme sha256).Intact rewritten) ∧
        (rewritten.storedTuple ≠ original.storedTuple ∨
          ¬((auditScheme sha256).Intact original ↔
            (auditScheme sha256).Intact rewritten) ∨
          ¬((auditScheme sha256).Points before original ↔
            (auditScheme sha256).Points front rewritten) ∨
          (auditScheme sha256).Intact rewritten ∧
            (auditScheme sha256).Anchored front rewritten)) := by
  have chained : (auditScheme sha256).Intact rewritten →
      (auditScheme sha256).Chained rewritten := Scheme.chained_of_intact _
  obtain ⟨isChained, apart⟩ := Scheme.isTamper_iff.mp tamper
  rw [excused_verdictAfter_iff]
  by_cases intact : (auditScheme sha256).Intact original
  · obtain ⟨misplaced, unanchored⟩ := apart intact
    have pinned := pins.pinned_of_misplaced split intact misplaced unanchored
    simp only [pinned.rewritten_iff sameId, intact, misplaced, reduceCtorEq]
    grind
  · rcases pins.pinned_of_broken split isChained intact with
      ⟨pointed, pinned⟩ | ⟨misplaced, pinned⟩
    · simp only [pinned.rewritten_iff sameId, intact, pointed, reduceCtorEq]
      grind
    · simp only [pinned.rewritten_iff sameId, intact, misplaced, reduceCtorEq]
      grind

theorem RowEdit.mem_cases
    (edit : RowEdit table edited original rewritten)
    {row : AuditChainRow} (member : row ∈ edited.rows) :
    row = rewritten ∨ row.id ≠ original.id ∧ row ∈ table.rows := by
  rw [edit.rows] at member
  obtain ⟨old, inside, same⟩ := List.mem_map.mp member
  split_ifs at same with sameId
  · exact .inl same.symm
  · rw [← same]
    exact .inr ⟨sameId, inside⟩

/-- Exactly when an edit that touches the stored tuple goes unnoticed. -/
theorem tupleEdit_verified_iff
    (edit : RowEdit table edited original rewritten)
    (pins : PinsTamperBreaks sha256 manifest table)
    {before after : List AuditChainRow}
    (split : findAllChronological table.rows = before ++ original :: after)
    (tamper : ((auditScheme sha256).verdictAfter before original).IsTamper) :
    (classifyTable sha256 manifest edited.rows).verified = true ↔
      ¬(RewrittenRowBroken sha256 (findAllChronological table.rows)
          (findAllChronological edited.rows) original rewritten ∨
        KnockOnBreak sha256 manifest (findAllChronological table.rows)
          (findAllChronological edited.rows) original) := by
  rw [classifyTable_verified_iff, not_or]
  constructor
  · intro excused
    constructor
    · intro broken
      obtain ⟨before', after', front, back, split', editedSplit, caught⟩ :=
        broken
      have tamper' := (split_unique split split').1 ▸ tamper
      exact (excused_rewritten_iff edit.sameId pins split' tamper').mp
        (excused front rewritten back editedSplit) caught
    · intro knockOn
      obtain ⟨other, before', after', front, back, -, otherSplit, editedSplit,
        caught⟩ := knockOn
      exact (pins.excused_other_iff otherSplit).mp
        (excused front other back editedSplit) caught
  · intro unnoticed front row back editedSplit
    obtain ⟨fits, noKnockOn⟩ := unnoticed
    have inside : row ∈ edited.rows := by
      apply (findAllChronological_perm edited.rows).mem_iff.mp
      rw [editedSplit]
      exact List.mem_append_right _ List.mem_cons_self
    rcases edit.mem_cases inside with isRewritten | ⟨isOther, member⟩
    · subst isRewritten
      apply (excused_rewritten_iff edit.sameId pins split tamper).mpr
      intro caught
      exact fits ⟨before, after, front, back, split, editedSplit, caught⟩
    · obtain ⟨before', after', otherSplit⟩ := List.append_of_mem
        ((findAllChronological_perm table.rows).mem_iff.mpr member)
      apply (pins.excused_other_iff otherSplit).mpr
      intro caught
      exact noKnockOn ⟨row, before', after', front, back, isOther, otherSplit,
        editedSplit, caught⟩

/-- An edit of a pinned row is noticed exactly under `EditCaught`. -/
theorem editPinnedRow_notVerified_iff
    (edit : RowEdit table edited original rewritten)
    (pins : PinsTamperBreaks sha256 manifest table)
    {brk : AuditChainBreak}
    (broken : brk ∈
      (verifyAuditChain sha256 (findAllChronological table.rows)).breaks)
    (ofRow : brk.id = original.id)
    (tamper : brk.reason ≠ .chainFork) :
    (classifyTable sha256 manifest edited.rows).verified = false ↔
      EditCaught sha256 manifest (findAllChronological table.rows)
        (findAllChronological edited.rows) original rewritten := by
  have pinned := pins brk broken tamper original edit.member ofRow.symm
  obtain ⟨before, row, after, split, sameId, isReason⟩ :=
    (mem_verifyAuditChain_breaks_iff sha256).mp ⟨brk, broken, rfl, rfl⟩
  obtain rfl : row = original := by
    have inside : row ∈ findAllChronological table.rows := by
      rw [split]
      exact List.mem_append_right _ List.mem_cons_self
    have outside : original ∈ findAllChronological table.rows :=
      (findAllChronological_perm table.rows).mem_iff.mpr edit.member
    exact List.inj_on_of_nodup_map (ids_nodup table) inside outside
      (sameId.trans ofRow)
  have isTamper :
      ((auditScheme sha256).verdictAfter before row).IsTamper := by
    cases verdict : (auditScheme sha256).verdictAfter before row <;>
      simp_all [reasonOf, Verdict.IsTamper, Verdict.IsBreak]
  rw [← Bool.not_eq_true]
  by_cases untouched : rewritten.storedTuple = row.storedTuple ∧
      rewritten.seq = row.seq
  · have verified : (classifyTable sha256 manifest edited.rows).verified =
        true ↔ ¬ContentEditCaught sha256 (findAllChronological table.rows)
          row rewritten :=
      ⟨not_caught_of_verified edit pins untouched.1 split isTamper untouched.2,
        verified_of_not_caught edit pins untouched.1 split untouched.2⟩
    rw [verified, not_not, EditCaught]
    simp only [untouched, forall_const, not_true, and_self, false_implies,
      and_true]
  · rw [tupleEdit_verified_iff edit pins split isTamper, not_not, EditCaught]
    simp only [untouched, not_false_iff, forall_const]
    refine ⟨fun caught => ⟨fun sameTuple sameSeq => ?_, caught⟩, And.right⟩
    exact absurd ⟨sameTuple, sameSeq⟩ untouched

end Edit

/-- A row whose stored hash is not the hash of its contents. -/
def migratedRow : AuditChainRow where
  id := "a"
  action := "promoted"
  memoryId := "m"
  tenantId := "t"
  actorJson := "{}"
  reason := some "passed"
  detailsJson := "{}"
  timestamp := "2026-01-01T00:00:00.000Z"
  entryHash := some "migrated"
  prevEntryHash := none
  hashVersion := some 1
  seq := some 1

def rewrittenRow : AuditChainRow :=
  { migratedRow with
    tenantId := "other"
    detailsJson := "[]" }

def migratedTable : AuditTable where
  rows := [migratedRow]
  coexist := List.pairwise_singleton _ _

def rewrittenTable : AuditTable where
  rows := [rewrittenRow]
  coexist := List.pairwise_singleton _ _

def migrationManifest : ExceptionManifest where
  entries :=
    [ { id := "a"
        entryHash := some "migrated"
        prevEntryHash := none
        hashVersion := 1
        seq := 1
        reason := .entryHashMismatch } ]

theorem migratedRow_rowEdit :
    RowEdit migratedTable rewrittenTable migratedRow rewrittenRow where
  member := List.mem_cons_self
  sameId := rfl
  rows := rfl

theorem migrationManifest_pins :
    PinsTamperBreaks id (some migrationManifest) migratedTable := by
  unfold PinsTamperBreaks
  decide +kernel

def migrationBreak : AuditChainBreak where
  index := 0
  id := "a"
  action := "promoted"
  timestamp := "2026-01-01T00:00:00.000Z"
  tenantId := "t"
  expectedEntryHash := computeEntryHash id migratedRow.canonical .v1
  actualEntryHash := some "migrated"
  expectedPrevEntryHash := none
  actualPrevEntryHash := none
  reason := .entryHashMismatch

theorem migrationBreak_mem :
    migrationBreak ∈
      (verifyAuditChain id (findAllChronological migratedTable.rows)).breaks := by
  decide +kernel

/-- The contents of a pinned row change, and the table still verifies. -/
theorem editPinnedRow_unnoticed :
    RowEdit migratedTable rewrittenTable migratedRow rewrittenRow ∧
      PinsTamperBreaks id (some migrationManifest) migratedTable ∧
      migrationBreak ∈
        (verifyAuditChain id
          (findAllChronological migratedTable.rows)).breaks ∧
      rewrittenRow.tenantId ≠ migratedRow.tenantId ∧
      rewrittenRow.detailsJson ≠ migratedRow.detailsJson ∧
      (classifyTable id (some migrationManifest)
        rewrittenTable.rows).verified = true :=
  ⟨migratedRow_rowEdit, migrationManifest_pins, migrationBreak_mem,
    by decide, by decide, by decide +kernel⟩

theorem editPinnedRow_notVerified_iff_migrated :
    (classifyTable id (some migrationManifest) rewrittenTable.rows).verified =
        false ↔
      EditCaught id (some migrationManifest)
        (findAllChronological migratedTable.rows)
        (findAllChronological rewrittenTable.rows) migratedRow rewrittenRow :=
  editPinnedRow_notVerified_iff migratedRow_rowEdit migrationManifest_pins
    migrationBreak_mem rfl (by decide)

end Registrar
