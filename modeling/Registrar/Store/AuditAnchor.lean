import Registrar.Library.Transition
import Registrar.Store.AppendedRows

/-!
# Anchors

An anchor freezes the length and the head of the audit chain
(`audit-anchor.ts`).  The anchor log is the list of its records, each of which
names the hash of the one before it.
-/

namespace Registrar

open HashChain Transition

variable (sha256 : String → String)

structure AnchorBody where
  schemaVersion : Nat
  anchoredAt : String
  tenantId : String
  chainedRows : Nat
  chainHead : String
  prevAnchorHash : Option String
  deriving DecidableEq, Repr

/-- One snapshot of the head of the chain. -/
structure AnchorRecord extends AnchorBody where
  anchorHash : String
  deriving DecidableEq, Repr

def anchorBodyJson (body : AnchorBody) : String :=
  Json.stringify
    (.object
      [("schemaVersion", .number (toString body.schemaVersion)),
        ("anchoredAt", .string body.anchoredAt),
        ("tenantId", .string body.tenantId),
        ("chainedRows", .number (toString body.chainedRows)),
        ("chainHead", .string body.chainHead),
        ("prevAnchorHash", Json.ofOption body.prevAnchorHash)])

def computeAnchorHash (body : AnchorBody) : String :=
  sha256 (anchorBodyJson body)

def chainedRowsOf (rows : List AuditChainRow) : List AuditChainRow :=
  (findAllChronological rows).filter fun row => row.entryHash ≠ none

/-- The entry hash of the last chained row, or the empty text. -/
def anchoredHeadOf (rows : List AuditChainRow) : String :=
  ((chainedRowsOf rows).getLast?.bind AuditChainRow.entryHash).getD ""

structure AppendAnchorOptions where
  tenantId : String
  now : String
  deriving DecidableEq, Repr

/-- The record of the present head, behind the anchors so far. -/
def nextAnchor (rows : List AuditChainRow) (anchors : List AnchorRecord)
    (options : AppendAnchorOptions) : AnchorRecord :=
  let body : AnchorBody :=
    { schemaVersion := 1
      anchoredAt := options.now
      tenantId := options.tenantId
      chainedRows := (chainedRowsOf rows).length
      chainHead := anchoredHeadOf rows
      prevAnchorHash := anchors.getLast?.map AnchorRecord.anchorHash }
  { toAnchorBody := body
    anchorHash := computeAnchorHash sha256 body }

/-- A head that the last anchor has already witnessed is not recorded again. -/
def appendAnchor (rows : List AuditChainRow) (anchors : List AnchorRecord)
    (options : AppendAnchorOptions) : List AnchorRecord :=
  if anchors.getLast?.any fun last =>
      last.chainHead = anchoredHeadOf rows &&
        last.chainedRows = (chainedRowsOf rows).length then
    anchors
  else anchors ++ [nextAnchor sha256 rows anchors options]

inductive AnchorBreakReason where
  | anchorHashMismatch
  | anchorLinkMismatch
  | historyTruncated
  | historyRewritten
  deriving DecidableEq, Repr

structure AnchorBreak where
  index : Nat
  anchoredAt : String
  reason : AnchorBreakReason
  detail : String
  deriving DecidableEq, Repr

def orNull (hash : Option String) : String :=
  hash.getD "null"

/-- What an anchor says about the chained rows, if it is contradicted. -/
def historyBreak (rows : List AuditChainRow) (index : Nat)
    (anchor : AnchorRecord) : Option AnchorBreak :=
  if rows.length < anchor.chainedRows then
    some
      { index := index
        anchoredAt := anchor.anchoredAt
        reason := .historyTruncated
        detail :=
          "anchored " ++ toString anchor.chainedRows ++
            " chained rows; chain now has " ++ toString rows.length }
  else if 0 < anchor.chainedRows then
    let actualHead := rows[anchor.chainedRows - 1]?.bind AuditChainRow.entryHash
    if actualHead ≠ some anchor.chainHead then
      some
        { index := index
          anchoredAt := anchor.anchoredAt
          reason := .historyRewritten
          detail :=
            "row " ++ toString anchor.chainedRows ++ " head " ++
              orNull actualHead ++ " != anchored " ++ anchor.chainHead }
    else none
  else none

/-- The breaks of the anchor at an index, by the hash the one before it has. -/
def breaksOfAnchor (rows : List AuditChainRow) (index : Nat)
    (expectedPrev : Option String) (anchor : AnchorRecord) :
    List AnchorBreak :=
  (if computeAnchorHash sha256 anchor.toAnchorBody ≠ anchor.anchorHash then
    [{ index := index
       anchoredAt := anchor.anchoredAt
       reason := .anchorHashMismatch
       detail := "anchor record content does not match its anchorHash" }]
  else []) ++
  (if anchor.prevAnchorHash ≠ expectedPrev then
    [{ index := index
       anchoredAt := anchor.anchoredAt
       reason := .anchorLinkMismatch
       detail :=
        "prevAnchorHash " ++ orNull anchor.prevAnchorHash ++ " != expected " ++
          orNull expectedPrev }]
  else []) ++
  (historyBreak rows index anchor).toList

/-- The loop over the anchors, from an index on. -/
def anchorBreaksFrom (rows : List AuditChainRow) :
    Nat → Option String → List AnchorRecord → List AnchorBreak
  | _, _, [] => []
  | index, expectedPrev, anchor :: rest =>
      breaksOfAnchor sha256 rows index expectedPrev anchor ++
        anchorBreaksFrom rows (index + 1) (some anchor.anchorHash) rest

structure AnchorVerifyResult where
  chain : AuditVerifyResult
  anchorCount : Nat
  anchorBreaks : List AnchorBreak
  ok : Bool
  deriving DecidableEq, Repr

def verifyAnchors (rows : List AuditChainRow) (anchors : List AnchorRecord) :
    AnchorVerifyResult :=
  let chain := verifyAuditChain sha256 (findAllChronological rows)
  let anchorBreaks := anchorBreaksFrom sha256 (chainedRowsOf rows) 0 none anchors
  { chain := chain
    anchorCount := anchors.length
    anchorBreaks := anchorBreaks
    ok := chain.breaks = [] && anchorBreaks = [] }

inductive AnchorAction where
  | insert (event : RawAuditEvent)
  | appendAnchor (options : AppendAnchorOptions)

structure AnchoredTable extends InsertedTable where
  anchors : List AnchorRecord

def AnchoredTable.start (table : AuditTable) : AnchoredTable where
  toInsertedTable := .start table
  anchors := []

def AnchoredTable.step (state : AnchoredTable) :
    AnchorAction → AnchoredTable
  | .insert event =>
      { state with
        toInsertedTable := state.toInsertedTable.insert sha256 event }
  | .appendAnchor options =>
      { state with
        anchors :=
          Registrar.appendAnchor sha256 state.table.rows state.anchors options }

/-- The columns that the hash of a row covers, with their names. -/
def coveredColumns (row : AuditChainRow) : List (String × Option String) :=
  canonicalColumns row.canonical (rowHashVersion row)

/-- The chained rows differ below an anchor: there are too few of them, or one
of them differs in a covered column. -/
def DiffersBelow (anchor : AnchorRecord) (rows others : List AuditChainRow) :
    Prop :=
  (chainedRowsOf others).length < anchor.chainedRows ∨
    ∃ position < anchor.chainedRows,
      ∃ row ∈ (chainedRowsOf rows)[position]?,
        ∃ other ∈ (chainedRowsOf others)[position]?,
          coveredColumns row ≠ coveredColumns other

/-- Against the log of the state, every other table without breaks that
differs below some anchor is found out. -/
def DetectsRewrites (state : AnchoredTable) : Prop :=
  ∀ other : AuditTable,
    (verifyAuditChain sha256 (findAllChronological other.rows)).breaks = [] →
    ∀ anchor ∈ state.anchors,
      DiffersBelow anchor state.table.rows other.rows →
        ∃ found ∈ (verifyAnchors sha256 other.rows state.anchors).anchorBreaks,
          found.reason = .historyRewritten ∨ found.reason = .historyTruncated

variable {sha256}

/-- The anchors carry their own hashes and name the one before them, the first
one `expectedPrev`. -/
def AnchorsLinked (sha256 : String → String) :
    Option String → List AnchorRecord → Prop
  | _, [] => True
  | expectedPrev, anchor :: rest =>
      computeAnchorHash sha256 anchor.toAnchorBody = anchor.anchorHash ∧
        anchor.prevAnchorHash = expectedPrev ∧
          AnchorsLinked sha256 (some anchor.anchorHash) rest

/-- The rows still have the length and the head that the anchor froze. -/
def Witnesses (rows : List AuditChainRow) (anchor : AnchorRecord) : Prop :=
  anchor.chainedRows ≤ rows.length ∧
    (0 < anchor.chainedRows →
      rows[anchor.chainedRows - 1]?.bind AuditChainRow.entryHash =
        some anchor.chainHead)

theorem historyBreak_eq_none_iff {rows : List AuditChainRow} {index : Nat}
    {anchor : AnchorRecord} :
    historyBreak rows index anchor = none ↔ Witnesses rows anchor := by
  unfold historyBreak Witnesses
  dsimp only
  split_ifs with truncated present rewritten
  · simp [truncated]
  · simp [not_lt.mp truncated, present, rewritten]
  · simp [not_lt.mp truncated, not_not.mp rewritten]
  · simp [not_lt.mp truncated, present]

theorem anchorBreaksFrom_eq_nil_iff {rows : List AuditChainRow} {index : Nat}
    {expectedPrev : Option String} {anchors : List AnchorRecord} :
    anchorBreaksFrom sha256 rows index expectedPrev anchors = [] ↔
      AnchorsLinked sha256 expectedPrev anchors ∧
        ∀ anchor ∈ anchors, Witnesses rows anchor := by
  induction anchors generalizing index expectedPrev with
  | nil => simp [anchorBreaksFrom, AnchorsLinked]
  | cons anchor rest induction =>
      unfold anchorBreaksFrom breaksOfAnchor AnchorsLinked
      simp only [List.append_eq_nil_iff, induction, Option.toList_eq_nil_iff,
        historyBreak_eq_none_iff, List.forall_mem_cons, ite_eq_right_iff]
      simp
      tauto

theorem lastAnchorHash_cons {expectedPrev : Option String}
    {anchor : AnchorRecord} {rest : List AnchorRecord} :
    (((anchor :: rest).getLast?.map AnchorRecord.anchorHash).or expectedPrev) =
      (rest.getLast?.map AnchorRecord.anchorHash).or
        (some anchor.anchorHash) := by
  cases rest with
  | nil => rfl
  | cons later others =>
      rw [List.getLast?_cons_cons]
      cases last : (later :: others).getLast? with
      | none => simp at last
      | some found => rfl

theorem anchorsLinked_append_singleton {expectedPrev : Option String}
    {anchors : List AnchorRecord} {next : AnchorRecord} :
    AnchorsLinked sha256 expectedPrev (anchors ++ [next]) ↔
      AnchorsLinked sha256 expectedPrev anchors ∧
        computeAnchorHash sha256 next.toAnchorBody = next.anchorHash ∧
        next.prevAnchorHash =
          (anchors.getLast?.map AnchorRecord.anchorHash).or expectedPrev := by
  induction anchors generalizing expectedPrev with
  | nil => simp [AnchorsLinked]
  | cons anchor rest induction =>
      rw [List.cons_append, lastAnchorHash_cons]
      simp only [AnchorsLinked, induction, and_assoc]

/-! ## What holds in a run -/

theorem chainedRowsOf_eq {rows : List AuditChainRow}
    (joined : (auditScheme sha256).unchecked.Linked none
      (findAllChronological rows)) :
    chainedRowsOf rows =
      (findAllChronological rows).filter fun row =>
        (auditScheme sha256).Chained row := by
  apply List.filter_congr
  intro row member
  rw [decide_eq_decide]
  constructor
  · intro hashed absent
    exact hashed absent.1
  · intro chained absent
    exact joined.hashed member chained absent

theorem chainedRowsOf_chained {rows : List AuditChainRow}
    (joined : (auditScheme sha256).unchecked.Linked none
      (findAllChronological rows)) :
    ∀ row ∈ chainedRowsOf rows, (auditScheme sha256).Chained row := by
  intro row member
  rw [chainedRowsOf_eq joined] at member
  simpa using (List.mem_filter.mp member).2

theorem chainedRowsOf_joined {rows : List AuditChainRow}
    (joined : (auditScheme sha256).unchecked.Linked none
      (findAllChronological rows)) :
    (auditScheme sha256).unchecked.Linked none (chainedRowsOf rows) := by
  rw [chainedRowsOf_eq joined]
  exact joined.filter_chained

/-- What holds of the table and the log after any number of actions. -/
structure Anchored (sha256 : String → String) (start : AuditTable)
    (state : AnchoredTable) : Prop where
  extends_start : Extends sha256 start state.toInsertedTable
  anchorsLinked : AnchorsLinked sha256 none state.anchors
  witnessed : ∀ anchor ∈ state.anchors,
    Witnesses (chainedRowsOf state.table.rows) anchor

theorem Witnesses.append {rows later : List AuditChainRow}
    {anchor : AnchorRecord} (witnesses : Witnesses rows anchor) :
    Witnesses (rows ++ later) anchor := by
  obtain ⟨bound, head⟩ := witnesses
  constructor
  · rw [List.length_append]
    omega
  · intro present
    rw [List.getElem?_append_left (by omega)]
    exact head present

theorem nextAnchor_witnesses {rows : List AuditChainRow}
    (anchors : List AnchorRecord) (options : AppendAnchorOptions) :
    Witnesses (chainedRowsOf rows)
      (nextAnchor sha256 rows anchors options) := by
  refine ⟨le_refl _, ?_⟩
  intro present
  simp only [nextAnchor] at present ⊢
  rw [← List.getLast?_eq_getElem?, anchoredHeadOf]
  cases last : (chainedRowsOf rows).getLast? with
  | none =>
      rw [List.getLast?_eq_none_iff.mp last] at present
      cases present
  | some row =>
      have member := List.mem_of_getLast? last
      have hashed := (List.mem_filter.mp member).2
      simp only [ne_eq, decide_not, Bool.not_eq_eq_eq_not, Bool.not_true,
        decide_eq_false_iff_not] at hashed
      obtain ⟨hash, isHash⟩ := Option.ne_none_iff_exists'.mp hashed
      simp [isHash]

theorem appendAnchor_last (rows : List AuditChainRow)
    (anchors : List AnchorRecord) (options : AppendAnchorOptions) :
    ∃ last, (appendAnchor sha256 rows anchors options).getLast? = some last ∧
      last.chainedRows = (chainedRowsOf rows).length ∧
      last.chainHead = anchoredHeadOf rows := by
  unfold appendAnchor
  split_ifs with witnessed
  · obtain ⟨last, isLast, same⟩ := (Option.any_eq_true _ _).mp witnessed
    rw [Bool.and_eq_true, decide_eq_true_eq, decide_eq_true_eq] at same
    exact ⟨last, isLast, same.2, same.1⟩
  · exact ⟨_, List.getLast?_concat, rfl, rfl⟩

theorem chainedRowsOf_insert {state : InsertedTable} {event : RawAuditEvent} :
    ∃ later, chainedRowsOf (state.insert sha256 event).table.rows =
      chainedRowsOf state.table.rows ++ later := by
  unfold InsertedTable.insert
  cases inserted : insertAuditEvent sha256 state.table event with
  | error _ => exact ⟨[], (List.append_nil _).symm⟩
  | ok next =>
      obtain ⟨accepted, rows⟩ := appendTxn_eq_ok inserted
      refine ⟨[appendedRow sha256 state.table.rows (appendParams event)], ?_⟩
      dsimp only
      rw [chainedRowsOf, rows, findAllChronological_append accepted,
        List.filter_append, chainedRowsOf]
      rfl

theorem Anchored.step {start : AuditTable} {state : AnchoredTable}
    (holds : Anchored sha256 start state) (action : AnchorAction) :
    Anchored sha256 start (state.step sha256 action) := by
  cases action with
  | insert event =>
      refine
        { extends_start := holds.extends_start.insert event
          anchorsLinked := holds.anchorsLinked
          witnessed := ?_ }
      intro anchor member
      obtain ⟨later, grown⟩ :=
        @chainedRowsOf_insert sha256 state.toInsertedTable event
      have kept := holds.witnessed anchor member
      exact grown.symm ▸ kept.append
  | appendAnchor options =>
      unfold AnchoredTable.step Registrar.appendAnchor
      dsimp only
      split_ifs with witnessed
      · exact holds
      · refine
          { extends_start := holds.extends_start
            anchorsLinked := ?_
            witnessed := ?_ }
        · rw [anchorsLinked_append_singleton]
          refine ⟨holds.anchorsLinked, rfl, ?_⟩
          rw [Option.or_none]
          rfl
        · intro anchor member
          rcases List.mem_append.mp member with earlier | new
          · exact holds.witnessed anchor earlier
          · rw [List.mem_singleton.mp new]
            exact nextAnchor_witnesses _ _

theorem verifyAnchors_ok_iff {rows : List AuditChainRow}
    {anchors : List AnchorRecord} :
    (verifyAnchors sha256 rows anchors).ok = true ↔
      (verifyAuditChain sha256 (findAllChronological rows)).breaks = [] ∧
        (verifyAnchors sha256 rows anchors).anchorBreaks = [] := by
  simp [verifyAnchors]

theorem anchored_run {table : AuditTable}
    (joined : (auditScheme sha256).unchecked.Linked none
      (findAllChronological table.rows)) (actions : List AnchorAction) :
    Anchored sha256 table
      (run (AnchoredTable.step sha256) (.start table) actions) := by
  apply invariant_of_run (fun _ action kept => kept.step action) actions
  exact
    { extends_start := .initially joined
      anchorsLinked := trivial
      witnessed := fun _ member => absurd member List.not_mem_nil }

theorem Anchored.verified_iff {start : AuditTable} {state : AnchoredTable}
    (holds : Anchored sha256 start state) :
    (verifyAnchors sha256 state.table.rows state.anchors).ok = true ↔
      (auditScheme sha256).Linked none
        (findAllChronological state.table.rows) := by
  have consistent : (verifyAnchors sha256 state.table.rows
      state.anchors).anchorBreaks = [] :=
    anchorBreaksFrom_eq_nil_iff.mpr ⟨holds.anchorsLinked, holds.witnessed⟩
  rw [← verifyAuditChain_breaks_eq_nil_iff, verifyAnchors_ok_iff,
    and_iff_left consistent]

/-- A row and an intact row that store one hash agree in every covered column,
also where the first one does not store the texts that it was hashed from. -/
theorem coveredColumns_of_sameHash
    (collisionFree : Function.Injective sha256) {row other : AuditChainRow}
    {texts : AuditRowStrings} (hashed : row.HashedFrom sha256 texts)
    (intact : (auditScheme sha256).Intact other)
    (same : row.entryHash = other.entryHash) :
    coveredColumns row = coveredColumns other ∧
      row.prevEntryHash = other.prevEntryHash := by
  have otherHashed := AuditChainRow.HashedFrom.of_intact intact
  rw [hashed.hash, otherHashed.hash, Option.some.injEq] at same
  have texts_eq := AuditRowStrings.columns_eq_of_entryHash_eq collisionFree same
  have columns : coveredColumns row = coveredColumns other := by
    unfold coveredColumns
    rw [hashed.columns, otherHashed.columns,
      AuditRowStrings.canonicalColumns_stored,
      AuditRowStrings.canonicalColumns_stored, texts_eq]
  obtain ⟨-, fields, -⟩ := canonicalColumns_injective columns
  exact ⟨columns, congrArg CanonicalAuditRow.prevEntryHash fields⟩

theorem Extends.hashedFrom {start : AuditTable} {state : InsertedTable}
    (holds : Extends sha256 start state)
    (startIntact : ∀ row ∈ start.rows, (auditScheme sha256).Chained row →
      (auditScheme sha256).Intact row) :
    ∀ row ∈ chainedRowsOf state.table.rows,
      ∃ texts, row.HashedFrom sha256 texts := by
  intro row member
  have chained := chainedRowsOf_chained holds.joined row member
  obtain ⟨added, keys, extension, -, written⟩ := holds.extended
  have inside := (findAllChronological_perm _).mem_iff.mp
    (List.mem_filter.mp member).1
  rw [extension] at inside
  rcases List.mem_append.mp inside with old | new
  · exact ⟨_, .of_intact (startIntact row old chained)⟩
  · obtain ⟨event, -, isWritten⟩ := exists_right_of_forall₂ written new
    exact isWritten.hashedFrom

/-- A chain that still has the head of an anchor has all rows below it. -/
theorem not_differsBelow {rows others : List AuditChainRow}
    {anchor : AnchorRecord}
    (collisionFree : Function.Injective sha256)
    (joined : (auditScheme sha256).unchecked.Linked none
      (findAllChronological rows))
    (hashed : ∀ row ∈ chainedRowsOf rows, ∃ texts, row.HashedFrom sha256 texts)
    (otherLinked :
      (auditScheme sha256).Linked none (findAllChronological others))
    (witnesses : Witnesses (chainedRowsOf rows) anchor)
    (otherWitnesses : Witnesses (chainedRowsOf others) anchor) :
    ¬DiffersBelow anchor rows others := by
  intro differs
  rcases differs with
    truncated | ⟨position, below, row, isRow, other, isOther, different⟩
  · exact absurd truncated (not_lt.mpr otherWitnesses.1)
  have present : 0 < anchor.chainedRows := Nat.zero_lt_of_lt below
  obtain ⟨head, isHead, headHash⟩ :=
    Option.bind_eq_some_iff.mp (witnesses.2 present)
  obtain ⟨otherHead, isOtherHead, otherHash⟩ :=
    Option.bind_eq_some_iff.mp (otherWitnesses.2 present)
  obtain ⟨otherJoined, otherIntact⟩ :=
    Scheme.linked_iff_unchecked.mp otherLinked
  have otherChained := chainedRowsOf_chained otherJoined
  have commits : ∀ row ∈ chainedRowsOf rows, ∀ other ∈ chainedRowsOf others,
      row.entryHash = other.entryHash →
        coveredColumns row = coveredColumns other ∧
          row.prevEntryHash = other.prevEntryHash := by
    intro row member other otherMember same
    obtain ⟨texts, isHashed⟩ := hashed row member
    have intact := otherIntact other (List.mem_filter.mp otherMember).1
      (otherChained other otherMember)
    exact coveredColumns_of_sameHash collisionFree isHashed intact same
  have agree := Scheme.forall₂_take_of_sameEntry commits
    (chainedRowsOf_joined joined) (chainedRowsOf_joined otherJoined)
    (chainedRowsOf_chained joined) otherChained
    isHead isOtherHead (headHash.trans otherHash.symm)
  rw [Nat.sub_add_cancel present] at agree
  obtain ⟨bound, isRow'⟩ := List.getElem?_eq_some_iff.mp isRow
  obtain ⟨otherBound, isOther'⟩ := List.getElem?_eq_some_iff.mp isOther
  have inside :
      position < ((chainedRowsOf rows).take anchor.chainedRows).length := by
    rw [List.length_take]
    omega
  have otherInside :
      position < ((chainedRowsOf others).take anchor.chainedRows).length := by
    rw [List.length_take]
    omega
  apply different
  simpa [isRow', isOther'] using agree.get inside otherInside

theorem exists_historyBreak {rows : List AuditChainRow} {index : Nat}
    {expectedPrev : Option String} {anchors : List AnchorRecord}
    {anchor : AnchorRecord} (member : anchor ∈ anchors)
    (contradicted : ¬Witnesses rows anchor) :
    ∃ found ∈ anchorBreaksFrom sha256 rows index expectedPrev anchors,
      found.reason = .historyRewritten ∨ found.reason = .historyTruncated := by
  induction anchors generalizing index expectedPrev with
  | nil => cases member
  | cons first rest induction =>
      unfold anchorBreaksFrom
      rcases List.mem_cons.mp member with isFirst | later
      · subst isFirst
        have present : historyBreak rows index anchor ≠ none :=
          fun absent => contradicted (historyBreak_eq_none_iff.mp absent)
        obtain ⟨found, isFound⟩ := Option.ne_none_iff_exists'.mp present
        refine ⟨found, ?_, ?_⟩
        · apply List.mem_append_left
          unfold breaksOfAnchor
          apply List.mem_append_right
          simp [isFound]
        · unfold historyBreak at isFound
          dsimp only at isFound
          split_ifs at isFound <;> cases isFound
          · exact .inr rfl
          · exact .inl rfl
      · obtain ⟨found, inside, reason⟩ := induction later
        exact ⟨found, List.mem_append_right _ inside, reason⟩

/-- After any run that started from a chain without breaks the log finds out
rewritten history.  The table itself verifies just when no text of an inserted
event has an unpaired surrogate. -/
theorem anchors_detectRewrites_iff (collisionFree : Function.Injective sha256)
    (table : AuditTable) (actions : List AnchorAction)
    (start : (verifyAuditChain sha256
      (findAllChronological table.rows)).breaks = []) :
    let final := run (AnchoredTable.step sha256) (.start table) actions
    DetectsRewrites sha256 final ∧
      ((verifyAnchors sha256 final.table.rows final.anchors).ok = true ↔
        ∀ event ∈ final.committed, event.IsStorable) := by
  intro final
  have startLinked := (verifyAuditChain_breaks_eq_nil_iff sha256 _).mp start
  obtain ⟨startJoined, chainedIntact⟩ :=
    Scheme.linked_iff_unchecked.mp startLinked
  have startIntact : ∀ row ∈ table.rows, (auditScheme sha256).Chained row →
      (auditScheme sha256).Intact row := fun row member =>
    chainedIntact row ((findAllChronological_perm table.rows).mem_iff.mpr member)
  have holds : Anchored sha256 table final := anchored_run startJoined actions
  have detects : DetectsRewrites sha256 final := by
    intro other unbroken anchor member differs
    apply exists_historyBreak member
    intro otherWitnesses
    have otherLinked :=
      (verifyAuditChain_breaks_eq_nil_iff sha256 _).mp unbroken
    exact not_differsBelow collisionFree holds.extends_start.joined
      (holds.extends_start.hashedFrom startIntact) otherLinked
      (holds.witnessed anchor member) otherWitnesses differs
  refine ⟨detects, ?_⟩
  rw [holds.verified_iff]
  constructor
  · exact holds.extends_start.storable collisionFree
  · exact holds.extends_start.linked startIntact

/-- One event is inserted into an empty table, and the table is anchored. -/
def insertedAndAnchored (reason : Option JsString) : AnchoredTable :=
  run (AnchoredTable.step id) (.start Table.empty)
    [.insert (sampleEvent "e" reason),
      .appendAnchor { tenantId := "t", now := "2026-01-02T00:00:00.000Z" }]

theorem insertedAndAnchored_committed (reason : Option JsString) :
    (insertedAndAnchored reason).committed = [sampleEvent "e" reason] :=
  rfl

theorem chainedRowsOf_insertedAndAnchored (reason : Option JsString) :
    chainedRowsOf (insertedAndAnchored reason).table.rows =
      [appendedRow id [] (appendParams (sampleEvent "e" reason))] :=
  rfl

theorem anchors_detectRewrites_iff_reworded :
    (verifyAnchors id (insertedAndAnchored none).table.rows
        (insertedAndAnchored none).anchors).ok = true ∧
      ∃ found ∈ (verifyAnchors id
          (insertedAndAnchored (some (.ofString "reworded"))).table.rows
          (insertedAndAnchored none).anchors).anchorBreaks,
        found.reason = .historyRewritten ∨
          found.reason = .historyTruncated := by
  have verified (reason : Option JsString)
      (storable : (sampleEvent "e" reason).IsStorable) :
      (verifyAnchors id (insertedAndAnchored reason).table.rows
        (insertedAndAnchored reason).anchors).ok = true := by
    apply (anchors_detectRewrites_iff Function.injective_id Table.empty _
      rfl).2.mpr
    intro event member
    obtain rfl := List.mem_singleton.mp member
    exact storable
  have detects : DetectsRewrites id (insertedAndAnchored none) :=
    (anchors_detectRewrites_iff Function.injective_id Table.empty _ rfl).1
  have storable : (sampleEvent "e" (some (.ofString "reworded"))).IsStorable :=
    { sampleEvent_isStorable "e" with
      reason := fun reason isReason => by
        cases isReason
        exact JsString.wellFormed_ofString _ }
  have unbroken := verified _ storable
  refine ⟨verified none (sampleEvent_isStorable "e"), ?_⟩
  obtain ⟨last, isLast, length, -⟩ := appendAnchor_last
    (insertedAndAnchored none).table.rows []
    { tenantId := "t", now := "2026-01-02T00:00:00.000Z" }
  have member : last ∈ (insertedAndAnchored none).anchors :=
    List.mem_of_getLast? isLast
  apply detects _ _ last member
  · refine .inr ⟨0, ?_, _, rfl, _, rfl, fun same => ?_⟩
    · rw [length, chainedRowsOf_insertedAndAnchored]
      exact Nat.one_pos
    · obtain ⟨-, fields, -⟩ := canonicalColumns_injective same
      cases congrArg CanonicalAuditRow.reason fields
  · exact (verifyAnchors_ok_iff.mp unbroken).1

/-- One insert of a legal reason, and the table does not verify. -/
theorem loneSurrogate_failsVerification :
    (insertedAndAnchored (some loneSurrogate)).committed =
        [sampleEvent "e" (some loneSurrogate)] ∧
      (verifyAnchors id
        (insertedAndAnchored (some loneSurrogate)).table.rows
        (insertedAndAnchored (some loneSurrogate)).anchors).ok = false := by
  refine ⟨rfl, Bool.eq_false_iff.mpr fun verified => ?_⟩
  have holds : Anchored id Table.empty
      (insertedAndAnchored (some loneSurrogate)) := anchored_run .nil _
  have storable := holds.extends_start.storable Function.injective_id
    (holds.verified_iff.mp verified) (sampleEvent "e" (some loneSurrogate))
    (by simp [insertedAndAnchored_committed])
  exact loneSurrogate_not_wellFormed (storable.reason loneSurrogate rfl)

end Registrar
