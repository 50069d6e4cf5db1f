import Registrar.Library.ChainCommitment
import Registrar.Library.StableSort
import Registrar.Library.Table
import Registrar.Schema.Records
import Registrar.Store.AuditVerify
import Registrar.Store.RowTexts
import Mathlib.Data.List.MinMax

/-!
# The audit repository

Rows of `audit_events` in rowid order, the queries that order them by the
write-order key `seq`, and the transaction that appends one event.  The entry
hash is taken over the event as the program holds it, the columns store it as
UTF-8, and the two differ where a text has an unpaired surrogate.
-/

namespace Registrar

open HashChain

inductive SqliteError where
  | uniqueConstraint (columns : String)
  | foreignKeyConstraint
  | fts5Syntax (query : String)
  deriving DecidableEq, Repr

/-- The primary key on `id` and the unique index on `seq`, which `NULL` does
not enter. -/
def AuditRowsCoexist (left right : AuditChainRow) : Prop :=
  left.id ≠ right.id ∧ (left.seq = none ∨ left.seq ≠ right.seq)

instance : DecidableRel AuditRowsCoexist :=
  fun _ _ => inferInstanceAs (Decidable (_ ∧ (_ ∨ _)))

abbrev AuditTable := Table AuditRowsCoexist

/-- An event that no schema has parsed.  `JSON.stringify` escapes unpaired
surrogates, so the texts of its actor and of its details have none. -/
structure RawAuditEvent where
  id : JsString
  action : AuditAction
  memoryId : JsString
  tenantId : JsString
  actorJson : String
  reason : Option JsString
  detailsJson : String
  timestamp : JsString
  deriving DecidableEq

/-- Pre-serialised inputs to the append transaction. -/
structure AppendParams where
  event : RawAuditEvent
  actorJson : String
  detailsJson : String
  reason : Option JsString
  hashVersion : AuditHashVersion

/-- The columns that the hash covers store the very texts of the event. -/
structure RawAuditEvent.IsStorable (event : RawAuditEvent) : Prop where
  id : event.id.WellFormed
  memoryId : event.memoryId.WellFormed
  tenantId : event.tenantId.WellFormed
  reason : ∀ text ∈ event.reason, text.WellFormed

def AuditEvent.raw (event : AuditEvent) : RawAuditEvent where
  id := .ofString event.id
  action := event.action
  memoryId := .ofString event.memoryId
  tenantId := .ofString event.tenantId.value
  actorJson := event.actor.json.stringify
  reason := event.reason.map fun reason => .ofString reason.value
  detailsJson := (Json.object event.details).stringify
  timestamp := .ofString event.timestamp

theorem AuditEvent.raw_isStorable (event : AuditEvent) :
    event.raw.IsStorable where
  id := JsString.wellFormed_ofString _
  memoryId := JsString.wellFormed_ofString _
  tenantId := JsString.wellFormed_ofString _
  reason := by
    intro text present
    obtain ⟨reason, -, isText⟩ := Option.map_eq_some_iff.mp present
    rw [← isText]
    exact JsString.wellFormed_ofString _

/-- `ORDER BY seq ASC`: rows without a key come first. -/
def seqAtMost : Option Int → Option Int → Bool
  | none, _ => true
  | some _, none => false
  | some first, some second => first ≤ second

def SeqAtMost (left right : AuditChainRow) : Prop :=
  seqAtMost left.seq right.seq = true

instance : DecidableRel SeqAtMost :=
  fun _ _ => inferInstanceAs (Decidable (_ = true))

def findAllChronological (rows : List AuditChainRow) : List AuditChainRow :=
  rows.insertionSort SeqAtMost

theorem findAllChronological_perm (rows : List AuditChainRow) :
    (findAllChronological rows).Perm rows :=
  List.perm_insertionSort SeqAtMost rows

/-- The hash that `ORDER BY seq DESC LIMIT 1` finds among the hashed rows: the
index is read from its end. -/
def stmtLastHash (rows : List AuditChainRow) : Option String :=
  ((findAllChronological rows).filterMap AuditChainRow.entryHash).getLast?

def maxSeq (rows : List AuditChainRow) : Option Int :=
  (rows.filterMap AuditChainRow.seq).max?

/-- Addition of one to a column value.  Past the 64-bit range SQLite adds
floating-point numbers, and there the increment is lost. -/
def increment (value : Int) : Int :=
  if value < 2 ^ 63 - 1 then value + 1 else max value (2 ^ 63)

/-- `COALESCE(MAX(seq), 0) + 1`. -/
def nextSeq (rows : List AuditChainRow) : Int :=
  increment ((maxSeq rows).getD 0)

section Append

variable (sha256 : String → String)

def canonicalAppendRow (rows : List AuditChainRow) (params : AppendParams) :
    AuditRowStrings where
  id := params.event.id
  action := .ofString params.event.action.text
  memoryId := params.event.memoryId
  tenantId := params.event.tenantId
  actorJson := .ofString params.actorJson
  reason := params.reason
  detailsJson := .ofString params.detailsJson
  timestamp := params.event.timestamp
  prevEntryHash := (stmtLastHash rows).map .ofString

/-- The row that the transaction inserts. -/
def appendedRow (rows : List AuditChainRow) (params : AppendParams) :
    AuditChainRow :=
  let canonical := canonicalAppendRow rows params
  let stored := canonical.stored
  { id := stored.id
    action := stored.action
    memoryId := stored.memoryId
    tenantId := stored.tenantId
    actorJson := stored.actorJson
    reason := stored.reason
    detailsJson := stored.detailsJson
    timestamp := stored.timestamp
    entryHash := some (canonical.entryHash sha256 params.hashVersion)
    prevEntryHash := stored.prevEntryHash
    hashVersion := some params.hashVersion.stored
    seq := some (nextSeq rows) }

/-- Read the tip and insert behind it, as one `BEGIN IMMEDIATE` transaction. -/
def appendTxn (table : AuditTable) (params : AppendParams) :
    Except SqliteError AuditTable :=
  let row := appendedRow sha256 table.rows params
  match table.insert? row with
  | some next => .ok next
  | none =>
      if table.rows.any (·.id = row.id) then
        .error (.uniqueConstraint "audit_events.id")
      else .error (.uniqueConstraint "audit_events.seq")

def appendParams (event : RawAuditEvent) : AppendParams where
  event := event
  actorJson := event.actorJson
  detailsJson := event.detailsJson
  reason := event.reason
  hashVersion := currentAuditHashVersion

/-- `AuditRepository.insert`. -/
def insertAuditEvent (table : AuditTable) (event : RawAuditEvent) :
    Except SqliteError AuditTable :=
  appendTxn sha256 table (appendParams event)

end Append

theorem appendTxn_eq_ok
    {sha256 : String → String} {table next : AuditTable}
    {params : AppendParams}
    (appended : appendTxn sha256 table params = .ok next) :
    (∀ other ∈ table.rows,
        AuditRowsCoexist other (appendedRow sha256 table.rows params)) ∧
      next.rows = table.rows ++ [appendedRow sha256 table.rows params] := by
  unfold appendTxn at appended
  dsimp only at appended
  split at appended
  · rename_i inserted
    cases appended
    exact Table.insert?_eq_some_iff.mp inserted
  · split at appended <;> cases appended

theorem seq_le_maxSeq {rows : List AuditChainRow} {row : AuditChainRow}
    {value : Int}
    (member : row ∈ rows)
    (stored : row.seq = some value) :
    ∃ largest, maxSeq rows = some largest ∧ value ≤ largest := by
  have keyMember : value ∈ rows.filterMap AuditChainRow.seq :=
    List.mem_filterMap.mpr ⟨row, member, stored⟩
  cases found : maxSeq rows with
  | none =>
      rw [maxSeq, List.max?_eq_none_iff] at found
      rw [found] at keyMember
      cases keyMember
  | some largest =>
      exact ⟨largest, rfl, (List.max?_eq_some_iff.mp found).2 value keyMember⟩

theorem le_increment (value : Int) : value ≤ increment value := by
  unfold increment
  split_ifs <;> omega

theorem le_maxSeq {rows : List AuditChainRow} {row : AuditChainRow}
    {value : Int} (member : row ∈ rows) (stored : row.seq = some value) :
    value ≤ (maxSeq rows).getD 0 := by
  obtain ⟨largest, found, atMost⟩ := seq_le_maxSeq member stored
  rwa [found]

/-- The next key is free as long as the keys stay within 64 bits. -/
theorem nextSeq_free_iff {rows : List AuditChainRow} :
    (∀ other ∈ rows, other.seq = none ∨ other.seq ≠ some (nextSeq rows)) ↔
      (maxSeq rows).getD 0 < 2 ^ 63 := by
  constructor
  · intro free
    by_contra full
    cases found : maxSeq rows with
    | none => simp [found] at full
    | some largest =>
        simp only [found, Option.getD_some, not_lt] at full
        have same : nextSeq rows = largest := by
          simp only [nextSeq, found, Option.getD_some, increment]
          omega
        obtain ⟨row, member, stored⟩ := List.mem_filterMap.mp
          (List.max?_eq_some_iff.mp found).1
        rcases free row member with absent | different
        · rw [stored] at absent
          cases absent
        · exact different (by rw [stored, same])
  · intro room other member
    cases stored : other.seq with
    | none => exact .inl rfl
    | some value =>
        right
        have atMost := le_maxSeq member stored
        have above : (maxSeq rows).getD 0 < nextSeq rows := by
          unfold nextSeq increment
          split_ifs <;> omega
        intro same
        have := Option.some.inj same
        omega

theorem maxSeq_append {sha256 : String → String} {rows : List AuditChainRow}
    (params : AppendParams) (room : (maxSeq rows).getD 0 < 2 ^ 63) :
    (maxSeq (rows ++ [appendedRow sha256 rows params])).getD 0 =
      (maxSeq rows).getD 0 + 1 := by
  have next : nextSeq rows = (maxSeq rows).getD 0 + 1 := by
    unfold nextSeq increment
    split_ifs <;> omega
  have largest : maxSeq (rows ++ [appendedRow sha256 rows params]) =
      some (nextSeq rows) := by
    refine List.max?_eq_some_iff.mpr ⟨?_, ?_⟩
    · simp [appendedRow]
    · intro value member
      obtain ⟨row, inside, stored⟩ := List.mem_filterMap.mp member
      rcases List.mem_append.mp inside with earlier | last
      · have atMost := le_maxSeq earlier stored
        omega
      · rw [List.mem_singleton.mp last] at stored
        exact (Option.some.inj stored).ge
  rw [largest, Option.getD_some, next]

theorem seq_lt_nextSeq
    {sha256 : String → String} {rows : List AuditChainRow}
    {params : AppendParams}
    (accepted : ∀ other ∈ rows,
      AuditRowsCoexist other (appendedRow sha256 rows params))
    {row : AuditChainRow} {value : Int}
    (member : row ∈ rows)
    (stored : row.seq = some value) :
    value < nextSeq rows := by
  obtain ⟨largest, found, atMost⟩ := seq_le_maxSeq member stored
  have bound : value ≤ nextSeq rows := by
    rw [nextSeq, found]
    exact atMost.trans (le_increment largest)
  have different : value ≠ nextSeq rows := by
    rintro same
    rcases (accepted row member).2 with absent | different
    · rw [stored] at absent
      cases absent
    · exact different (stored.trans (congrArg some same))
  exact lt_of_le_of_ne bound different

theorem findAllChronological_append
    {sha256 : String → String} {rows : List AuditChainRow}
    {params : AppendParams}
    (accepted : ∀ other ∈ rows,
      AuditRowsCoexist other (appendedRow sha256 rows params)) :
    findAllChronological (rows ++ [appendedRow sha256 rows params]) =
      findAllChronological rows ++ [appendedRow sha256 rows params] := by
  apply StableSort.insertionSort_append_singleton
  intro row member
  cases stored : row.seq with
  | none => simp [SeqAtMost, seqAtMost, stored]
  | some value =>
      have before := seq_lt_nextSeq accepted member stored
      simp only [SeqAtMost, seqAtMost, stored, appendedRow, decide_eq_true_eq]
      exact before.le

theorem appendedRow_chained
    (sha256 : String → String) (rows : List AuditChainRow)
    (params : AppendParams) :
    (auditScheme sha256).Chained (appendedRow sha256 rows params) := by
  rintro ⟨absent, -⟩
  cases absent

theorem appendedRow_raw_id
    (sha256 : String → String) (rows : List AuditChainRow)
    (event : AuditEvent) :
    (appendedRow sha256 rows (appendParams event.raw)).id = event.id :=
  JsString.toWellFormed_ofString event.id

theorem rowHashVersion_appendedRow
    (sha256 : String → String) (rows : List AuditChainRow)
    (params : AppendParams) :
    rowHashVersion (appendedRow sha256 rows params) = params.hashVersion := by
  cases form : params.hashVersion <;>
    simp [rowHashVersion, appendedRow, form, AuditHashVersion.stored]

theorem appendedRow_hashedFrom
    (sha256 : String → String) (rows : List AuditChainRow)
    (params : AppendParams) :
    (appendedRow sha256 rows params).HashedFrom sha256
      (canonicalAppendRow rows params) where
  columns := rfl
  hash := by
    rw [rowHashVersion_appendedRow]
    rfl

/-- The columns of an inserted event are well formed just when it is
storable. -/
theorem canonicalAppendRow_wellFormed_iff {rows : List AuditChainRow}
    {event : RawAuditEvent} :
    (canonicalAppendRow rows (appendParams event)).WellFormed
        currentAuditHashVersion ↔
      event.IsStorable := by
  unfold AuditRowStrings.WellFormed AuditRowStrings.columns
    currentAuditHashVersion AuditRowStrings.columnsV2
  simp only [canonicalAppendRow, appendParams, List.forall_mem_cons,
    Option.mem_def, Option.some.injEq, forall_eq',
    JsString.wellFormed_ofString, true_and]
  constructor
  · intro wellFormed
    obtain ⟨id, memoryId, tenantId, reason, -⟩ := wellFormed
    exact ⟨id, memoryId, tenantId, reason⟩
  · intro storable
    refine ⟨storable.id, storable.memoryId, storable.tenantId,
      storable.reason, ?_, fun _ member => absurd member List.not_mem_nil⟩
    intro text present
    obtain ⟨hash, -, isText⟩ := Option.map_eq_some_iff.mp present
    rw [← isText]
    exact JsString.wellFormed_ofString hash

theorem appendedRow_intact
    (sha256 : String → String) (rows : List AuditChainRow)
    {event : RawAuditEvent} (storable : event.IsStorable) :
    (auditScheme sha256).Intact
      (appendedRow sha256 rows (appendParams event)) := by
  apply (appendedRow_hashedFrom sha256 rows (appendParams event)).intact
  rw [rowHashVersion_appendedRow]
  exact canonicalAppendRow_wellFormed_iff.mpr storable

theorem appendedRow_intact_iff {sha256 : String → String}
    (collisionFree : Function.Injective sha256) {rows : List AuditChainRow}
    {event : RawAuditEvent} :
    (auditScheme sha256).Intact
        (appendedRow sha256 rows (appendParams event)) ↔
      event.IsStorable := by
  rw [(appendedRow_hashedFrom sha256 rows _).intact_iff collisionFree,
    rowHashVersion_appendedRow]
  exact canonicalAppendRow_wellFormed_iff

theorem appendedRow_previous
    (sha256 : String → String) (rows : List AuditChainRow)
    (params : AppendParams) :
    (appendedRow sha256 rows params).prevEntryHash = stmtLastHash rows := by
  simp [appendedRow, canonicalAppendRow, AuditRowStrings.stored,
    Function.comp_def]

theorem appendedRow_fits
    {sha256 : String → String} {rows : List AuditChainRow}
    {event : RawAuditEvent} (storable : event.IsStorable)
    (linked : (auditScheme sha256).Linked none (findAllChronological rows)) :
    (auditScheme sha256).Fits
      ((auditScheme sha256).tip none (findAllChronological rows))
      (appendedRow sha256 rows (appendParams event)) := by
  refine ⟨?_, appendedRow_intact sha256 rows storable⟩
  rw [linked.tip_eq, Option.or_none]
  exact appendedRow_previous sha256 rows (appendParams event)

theorem appendTxn_joined
    {sha256 : String → String} {table next : AuditTable}
    {params : AppendParams}
    (joined : (auditScheme sha256).unchecked.Linked none
      (findAllChronological table.rows))
    (appended : appendTxn sha256 table params = .ok next) :
    (auditScheme sha256).unchecked.Linked none
      (findAllChronological next.rows) := by
  obtain ⟨accepted, rows⟩ := appendTxn_eq_ok appended
  rw [rows, findAllChronological_append accepted]
  apply joined.append_singleton
  · exact appendedRow_chained sha256 table.rows params
  · constructor
    · rw [joined.tip_eq, Option.or_none]
      exact appendedRow_previous sha256 table.rows params
    · exact Scheme.unchecked_intact_iff.mpr (Option.some_ne_none _)

end Registrar
