import Registrar.Store.AuditRepository

/-!
# The exception manifest

`exception-manifest.ts` pins known breaks by the stored tuple of their rows and
divides the breaks of a walk into documented exceptions, tamper signatures and
chain forks.
-/

namespace Registrar

open HashChain

/-- The reasons that a manifest may pin. -/
def tamperReasons : List AuditChainBreakReason :=
  [.entryHashMismatch, .prevLinkMismatch, .prevLinkAndEntryHashMismatch]

/-- The columns that a manifest pins, as the database stores them now. -/
structure StoredRowTuple where
  entryHash : Option String
  prevEntryHash : Option String
  hashVersion : Int
  seq : Int
  deriving DecidableEq, Repr

structure ExceptionManifestEntry where
  id : String
  entryHash : Option String
  prevEntryHash : Option String
  hashVersion : Int
  seq : Int
  reason : AuditChainBreakReason
  deriving DecidableEq, Repr

structure ExceptionManifest where
  entries : List ExceptionManifestEntry
  deriving DecidableEq, Repr

/-- The index of the manifest by id, in which the last entry wins. -/
def manifestById (manifest : Option ExceptionManifest) (id : String) :
    Option ExceptionManifestEntry :=
  match manifest with
  | none => none
  | some manifest => manifest.entries.reverse.find? fun entry => entry.id = id

def AuditChainRow.storedTuple (row : AuditChainRow) : StoredRowTuple where
  entryHash := row.entryHash
  prevEntryHash := row.prevEntryHash
  hashVersion := row.hashVersion.getD 1
  seq := row.seq.getD 0

/-- The classifier's map from ids to current stored tuples. -/
def rowsByIdOf (rows : List AuditChainRow) (id : String) :
    Option StoredRowTuple :=
  (rows.reverse.find? fun row => row.id = id).map AuditChainRow.storedTuple

def isDocumented (manifest : Option ExceptionManifest)
    (rowsById : String → Option StoredRowTuple) (brk : AuditChainBreak) :
    Bool :=
  match manifestById manifest brk.id, rowsById brk.id with
  | some entry, some stored =>
      stored.entryHash = entry.entryHash &&
        stored.prevEntryHash = entry.prevEntryHash &&
        stored.hashVersion = entry.hashVersion &&
        stored.seq = entry.seq &&
        entry.reason = brk.reason &&
        tamperReasons.contains entry.reason
  | _, _ => false

structure ClassifiedChainBreaks where
  verified : Bool
  documentedExceptions : List AuditChainBreak
  tamperSignatures : List AuditChainBreak
  chainForks : List AuditChainBreak
  deriving DecidableEq, Repr

def classifyChainBreaks (breaks : List AuditChainBreak)
    (manifest : Option ExceptionManifest)
    (rowsById : String → Option StoredRowTuple) : ClassifiedChainBreaks :=
  let chainForks := breaks.filter fun brk => brk.reason = .chainFork
  let others := breaks.filter fun brk => brk.reason ≠ .chainFork
  let documentedExceptions := others.filter (isDocumented manifest rowsById)
  let tamperSignatures :=
    others.filter fun brk => !isDocumented manifest rowsById brk
  { verified := tamperSignatures.isEmpty && chainForks.isEmpty
    documentedExceptions := documentedExceptions
    tamperSignatures := tamperSignatures
    chainForks := chainForks }

/-- Verify the rows of a table and classify the breaks against its tuples. -/
def classifyTable (sha256 : String → String)
    (manifest : Option ExceptionManifest) (rows : List AuditChainRow) :
    ClassifiedChainBreaks :=
  classifyChainBreaks
    (verifyAuditChain sha256 (findAllChronological rows)).breaks manifest
    (rowsByIdOf (findAllChronological rows))

/-- The manifest's entry for the row is its current tuple with this reason. -/
def PinnedAs (manifest : Option ExceptionManifest) (row : AuditChainRow)
    (reason : AuditChainBreakReason) : Prop :=
  reason ∈ tamperReasons ∧
    manifestById manifest row.id =
      some
        { id := row.id
          entryHash := row.storedTuple.entryHash
          prevEntryHash := row.storedTuple.prevEntryHash
          hashVersion := row.storedTuple.hashVersion
          seq := row.storedTuple.seq
          reason := reason }

instance (manifest : Option ExceptionManifest) (row : AuditChainRow)
    (reason : AuditChainBreakReason) :
    Decidable (PinnedAs manifest row reason) :=
  inferInstanceAs (Decidable (_ ∧ _))

theorem id_of_manifestById {manifest : Option ExceptionManifest}
    {id : String} {entry : ExceptionManifestEntry}
    (found : manifestById manifest id = some entry) : entry.id = id := by
  cases manifest with
  | none => cases found
  | some manifest => simpa using List.find?_some found

theorem rowsByIdOf_eq {rows : List AuditChainRow} {row : AuditChainRow}
    (distinct : (rows.map AuditChainRow.id).Nodup)
    (member : row ∈ rows) :
    rowsByIdOf rows row.id = some row.storedTuple := by
  rw [rowsByIdOf]
  cases found : rows.reverse.find? fun other => other.id = row.id with
  | none =>
      have absent := List.find?_eq_none.mp found row (List.mem_reverse.mpr member)
      simp at absent
  | some other =>
      have sameId : other.id = row.id := by simpa using List.find?_some found
      have otherMember := List.mem_reverse.mp (List.mem_of_find?_eq_some found)
      rw [List.inj_on_of_nodup_map distinct otherMember member sameId]
      rfl

/-- A break is documented exactly when its row is pinned with its reason. -/
theorem isDocumented_iff
    {manifest : Option ExceptionManifest} {rows : List AuditChainRow}
    {row : AuditChainRow} {brk : AuditChainBreak}
    (distinct : (rows.map AuditChainRow.id).Nodup)
    (member : row ∈ rows)
    (sameId : brk.id = row.id) :
    isDocumented manifest (rowsByIdOf rows) brk = true ↔
      PinnedAs manifest row brk.reason := by
  simp only [isDocumented, sameId, rowsByIdOf_eq distinct member, PinnedAs]
  cases found : manifestById manifest row.id with
  | none => simp
  | some entry =>
      have entryId := id_of_manifestById found
      cases entry
      simp only at entryId
      simp only [Bool.and_eq_true, decide_eq_true_eq, List.contains_iff_mem,
        Option.some.injEq, ExceptionManifestEntry.mk.injEq, entryId, true_and]
      constructor
      · rintro ⟨⟨⟨⟨⟨entryHash, prevEntryHash⟩, hashVersion⟩, seq⟩, reason⟩,
          tamper⟩
        exact ⟨reason ▸ tamper, entryHash.symm, prevEntryHash.symm,
          hashVersion.symm, seq.symm, reason⟩
      · rintro ⟨tamper, entryHash, prevEntryHash, hashVersion, seq, reason⟩
        exact ⟨⟨⟨⟨⟨entryHash.symm, prevEntryHash.symm⟩, hashVersion.symm⟩,
          seq.symm⟩, reason⟩, reason ▸ tamper⟩

theorem ids_nodup (table : AuditTable) :
    ((findAllChronological table.rows).map AuditChainRow.id).Nodup := by
  have unordered : (table.rows.map AuditChainRow.id).Nodup :=
    List.pairwise_map.mpr (table.coexist.imp fun coexist => coexist.1)
  exact ((findAllChronological_perm table.rows).map _).nodup_iff.mpr unordered

/-- A verdict that classification lets pass on a row. -/
def Excused (manifest : Option ExceptionManifest) (row : AuditChainRow)
    (verdict : Verdict) : Prop :=
  ∀ reason, reasonOf verdict = some reason → PinnedAs manifest row reason

/-- A table verifies exactly when every finding on its rows is excused. -/
theorem classifyTable_verified_iff
    (sha256 : String → String) (manifest : Option ExceptionManifest)
    (table : AuditTable) :
    (classifyTable sha256 manifest table.rows).verified = true ↔
      ∀ before row after,
        findAllChronological table.rows = before ++ row :: after →
          Excused manifest row
            ((auditScheme sha256).verdictAfter before row) := by
  have distinct := ids_nodup table
  simp only [classifyTable, classifyChainBreaks]
  generalize findAllChronological table.rows = rows at distinct ⊢
  simp only [Bool.and_eq_true, List.isEmpty_iff, List.filter_eq_nil_iff,
    List.mem_filter, decide_eq_true_eq, Bool.not_eq_true', ne_eq]
  constructor
  · rintro ⟨documented, noFork⟩ before row after split reason isReason
    have inside : row ∈ rows := by
      rw [split]
      exact List.mem_append_right _ List.mem_cons_self
    obtain ⟨brk, member, sameId, rfl⟩ :=
      (mem_verifyAuditChain_breaks_iff sha256).mpr
        ⟨before, row, after, split, rfl, isReason⟩
    have excused := documented brk ⟨member, noFork brk member⟩
    rw [Bool.not_eq_false] at excused
    exact (isDocumented_iff distinct inside sameId).mp excused
  · intro excused
    have pinned : ∀ brk ∈ (verifyAuditChain sha256 rows).breaks,
        ∃ row ∈ rows, brk.id = row.id ∧ PinnedAs manifest row brk.reason := by
      intro brk member
      obtain ⟨before, row, after, split, sameId, isReason⟩ :=
        (mem_verifyAuditChain_breaks_iff sha256).mp
          ⟨brk, member, rfl, rfl⟩
      refine ⟨row, ?_, sameId.symm, excused before row after split _ isReason⟩
      rw [split]
      exact List.mem_append_right _ List.mem_cons_self
    constructor
    · rintro brk ⟨member, -⟩
      obtain ⟨row, inside, sameId, isPinned⟩ := pinned brk member
      rw [Bool.not_eq_false]
      exact (isDocumented_iff distinct inside sameId).mpr isPinned
    · intro brk member isFork
      obtain ⟨row, -, -, isPinned⟩ := pinned brk member
      rw [isFork] at isPinned
      exact absurd isPinned.1 (by decide)

end Registrar
