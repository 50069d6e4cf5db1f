import Registrar.Library.Transition
import Registrar.Store.AppendedRows

/-!
# Concurrent audit inserts

Any number of connections insert events into one audit table.  Each insert is
one atomic transaction, so a schedule is the order in which the connections
commit their next event.  A schedule extends a chain without breaks by one row
for each insert that succeeds; that row is a break of its own when a text of
its event has an unpaired surrogate.
-/

namespace Registrar

open HashChain Transition

/-- The shared table and the events each connection still has to insert. -/
structure InsertSystem (Connection : Type*) extends InsertedTable where
  pending : Connection → List RawAuditEvent

variable {Connection : Type*}

def InsertSystem.start (table : AuditTable)
    (pending : Connection → List RawAuditEvent) :
    InsertSystem Connection where
  toInsertedTable := .start table
  pending := pending

/-- One connection runs its next insert. -/
def InsertSystem.step [DecidableEq Connection] (sha256 : String → String)
    (system : InsertSystem Connection) (connection : Connection) :
    InsertSystem Connection :=
  match system.pending connection with
  | [] => system
  | event :: rest =>
      { toInsertedTable := system.toInsertedTable.insert sha256 event
        pending := Function.update system.pending connection rest }

/-- The table has grown from `start` by one clean row for each insert that
returned, in commit order and under fresh increasing keys. -/
structure OneCleanChain (sha256 : String → String) (start : AuditTable)
    (final : InsertedTable) : Prop where
  unbroken :
    (verifyAuditChain sha256 (findAllChronological final.table.rows)).breaks =
      []
  inOrder : ∃ added keys,
    final.table.rows = start.rows ++ added ∧
      AddedInOrder start.rows final.committed added keys
  grown :
    (verifyAuditChain sha256
        (findAllChronological final.table.rows)).cleanRows =
      (verifyAuditChain sha256 (findAllChronological start.rows)).cleanRows +
        final.committed.length

/-- What holds of a schedule so far. -/
def InsertInvariant (sha256 : String → String) (start : AuditTable)
    (system : InsertSystem Connection) : Prop :=
  Extends sha256 start system.toInsertedTable

theorem InsertInvariant.step [DecidableEq Connection] {sha256 : String → String}
    {start : AuditTable} {system : InsertSystem Connection}
    (holds : InsertInvariant sha256 start system)
    (connection : Connection) :
    InsertInvariant sha256 start (system.step sha256 connection) := by
  unfold InsertSystem.step
  split
  · exact holds
  · exact Extends.insert holds _

theorem verifyAuditChain_cleanRows
    {sha256 : String → String} {rows : List AuditChainRow}
    (linked : (auditScheme sha256).Linked none (findAllChronological rows)) :
    (verifyAuditChain sha256 (findAllChronological rows)).cleanRows =
      rows.countP ((auditScheme sha256).Chained ·) := by
  have counted := foldl_visit_cleanRows_of_linked sha256 breakReason
    AuditWalk.start linked
  rw [(findAllChronological_perm rows).countP_eq] at counted
  exact counted.trans (Nat.zero_add _)

theorem linked_of_legacy
    {sha256 : String → String} {rows : List AuditChainRow}
    (legacy : ∀ row ∈ rows, row.entryHash = none ∧ row.prevEntryHash = none) :
    (auditScheme sha256).Linked none rows := by
  induction rows with
  | nil => exact .nil
  | cons row rest induction =>
      refine .skip (not_not.mpr (legacy row List.mem_cons_self)) ?_
      exact induction fun later member =>
        legacy later (List.mem_cons_of_mem row member)

/-- The rows of the table that are chained: those of `start` and one for each
event. -/
theorem Extends.countP_chained {sha256 : String → String}
    {start : AuditTable} {state : InsertedTable}
    (holds : Extends sha256 start state) :
    state.table.rows.countP ((auditScheme sha256).Chained ·) =
      start.rows.countP ((auditScheme sha256).Chained ·) +
        state.committed.length := by
  obtain ⟨added, keys, extension, -, written⟩ := holds.extended
  have allChained : added.countP ((auditScheme sha256).Chained ·) =
      added.length := by
    apply List.countP_eq_length.mpr
    intro row member
    obtain ⟨event, -, isWritten⟩ := exists_right_of_forall₂ written member
    exact decide_eq_true isWritten.chained
  rw [extension, List.countP_append, allChained, written.length_eq]

/-- From legacy rows or a chain without breaks, every schedule of inserts ends
in one clean chain, if no text of an inserted event has an unpaired surrogate;
and, where no two texts have one hash, only then. -/
theorem concurrentInserts_oneCleanChain_iff [DecidableEq Connection]
    (sha256 : String → String) (table : AuditTable)
    (pending : Connection → List RawAuditEvent) (schedule : List Connection)
    (start :
      (∀ row ∈ table.rows, row.entryHash = none ∧ row.prevEntryHash = none) ∨
        (verifyAuditChain sha256 (findAllChronological table.rows)).breaks =
          []) :
    let final := (run (InsertSystem.step sha256)
      (.start table pending) schedule).toInsertedTable
    ((∀ event ∈ final.committed, event.IsStorable) →
        OneCleanChain sha256 table final) ∧
      (Function.Injective sha256 → OneCleanChain sha256 table final →
        ∀ event ∈ final.committed, event.IsStorable) := by
  intro final
  have startLinked : (auditScheme sha256).Linked none
      (findAllChronological table.rows) := by
    rcases start with legacy | unbroken
    · refine linked_of_legacy fun row member => legacy row ?_
      exact (findAllChronological_perm table.rows).mem_iff.mp member
    · exact (verifyAuditChain_breaks_eq_nil_iff sha256 _).mp unbroken
  obtain ⟨startJoined, startIntact⟩ := Scheme.linked_iff_unchecked.mp startLinked
  have invariant : InsertInvariant sha256 table
      (run (InsertSystem.step sha256) (.start table pending) schedule) := by
    apply invariant_of_run (fun _ connection kept => kept.step connection)
    exact Extends.initially startJoined
  have holds : Extends sha256 table final := invariant
  constructor
  · intro storable
    have linked := holds.linked
      (fun row member => startIntact row
        ((findAllChronological_perm table.rows).mem_iff.mpr member)) storable
    obtain ⟨added, keys, extension, inOrder, -⟩ := holds.extended
    refine
      { unbroken := (verifyAuditChain_breaks_eq_nil_iff sha256 _).mpr linked
        inOrder := ⟨added, keys, extension, inOrder⟩
        grown := ?_ }
    rw [verifyAuditChain_cleanRows linked,
      verifyAuditChain_cleanRows startLinked]
    exact holds.countP_chained
  · intro collisionFree clean
    apply holds.storable collisionFree
    exact (verifyAuditChain_breaks_eq_nil_iff sha256 _).mp clean.unbroken

/-- A row that predates the chain. -/
def legacyAuditRow : AuditChainRow where
  id := "legacy"
  action := "promoted"
  memoryId := "m"
  tenantId := "t"
  actorJson := "{}"
  reason := none
  detailsJson := "{}"
  timestamp := "2026-01-01T00:00:00.000Z"
  entryHash := none
  prevEntryHash := none
  hashVersion := some 1
  seq := none

def legacyAuditTable : AuditTable where
  rows := [legacyAuditRow]
  coexist := List.pairwise_singleton _ _

/-- Both connections hold an event `b`; the one that comes second fails. -/
def samplePending (first : Bool) : List RawAuditEvent :=
  if first then [sampleEvent "b" none]
  else [sampleEvent "a" none, sampleEvent "b" none, sampleEvent "c" none]

def sampleSystem : InsertSystem Bool :=
  run (InsertSystem.step id) (.start legacyAuditTable samplePending)
    [true, false, false, true, false]

theorem sampleSystem_runs :
    sampleSystem.committed =
        [sampleEvent "b" none, sampleEvent "a" none, sampleEvent "c" none] ∧
      sampleSystem.table.rows.map (fun row => (row.id, row.seq)) =
        [("legacy", none), ("b", some 1), ("a", some 2), ("c", some 3)] := by
  simp [sampleSystem, run, InsertSystem.step, InsertSystem.start,
    InsertedTable.start, InsertedTable.insert, insertAuditEvent, appendTxn,
    Table.insert?, legacyAuditTable, legacyAuditRow, samplePending,
    sampleEvent, AuditRowsCoexist, appendedRow, canonicalAppendRow,
    AuditRowStrings.stored, appendParams, nextSeq, maxSeq, increment,
    List.max?]

theorem concurrentInserts_oneCleanChain_iff_legacy :
    sampleSystem.table.rows.map (fun row => (row.id, row.seq)) =
        [("legacy", none), ("b", some 1), ("a", some 2), ("c", some 3)] ∧
      (verifyAuditChain id
        (findAllChronological sampleSystem.table.rows)).breaks = [] ∧
      (verifyAuditChain id
        (findAllChronological sampleSystem.table.rows)).cleanRows = 3 := by
  obtain ⟨committed, rows⟩ := sampleSystem_runs
  have legacy : ∀ row ∈ legacyAuditTable.rows,
      row.entryHash = none ∧ row.prevEntryHash = none := by
    simp [legacyAuditTable, legacyAuditRow]
  have storable : ∀ event ∈ sampleSystem.committed, event.IsStorable := by
    rw [committed]
    simp [sampleEvent_isStorable]
  have clean : OneCleanChain id legacyAuditTable
      sampleSystem.toInsertedTable :=
    (concurrentInserts_oneCleanChain_iff id legacyAuditTable samplePending
      [true, false, false, true, false] (.inl legacy)).1 storable
  refine ⟨rows, clean.unbroken, ?_⟩
  have startRows : (verifyAuditChain id
      (findAllChronological legacyAuditTable.rows)).cleanRows = 0 := rfl
  rw [clean.grown, startRows, committed]
  rfl

def lonePending : Unit → List RawAuditEvent :=
  fun _ => [sampleEvent "e" (some loneSurrogate)]

/-- One connection inserts one event into an empty table. -/
def loneSystem : InsertSystem Unit :=
  run (InsertSystem.step id) (.start Table.empty lonePending) [()]

theorem loneSurrogate_breaksChain :
    loneSystem.committed = [sampleEvent "e" (some loneSurrogate)] ∧
      ¬OneCleanChain id Table.empty loneSystem.toInsertedTable := by
  have committed : loneSystem.committed =
      [sampleEvent "e" (some loneSurrogate)] := rfl
  refine ⟨committed, fun clean => ?_⟩
  have initially : InsertInvariant id Table.empty
      (.start Table.empty lonePending) := Extends.initially .nil
  have holds : InsertInvariant id Table.empty loneSystem := initially.step ()
  have linked :=
    (verifyAuditChain_breaks_eq_nil_iff id _).mp clean.unbroken
  have storable := Extends.storable Function.injective_id holds linked
    (sampleEvent "e" (some loneSurrogate)) (by simp [committed])
  exact loneSurrogate_not_wellFormed (storable.reason loneSurrogate rfl)

end Registrar
