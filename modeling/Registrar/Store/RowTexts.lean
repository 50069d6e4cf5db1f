import Registrar.Library.JsonQuotes
import Registrar.Store.AuditChain

/-!
# Canonical texts of arbitrary rows

The columns of a row that has yet to be stored are arbitrary strings, also with
unpaired surrogates.  No two rows that differ in a covered column have one
canonical text.
-/

namespace Registrar

/-- The columns of a canonical row, as strings of the language. -/
structure AuditRowStrings where
  id : JsString
  action : JsString
  memoryId : JsString
  tenantId : JsString
  actorJson : JsString
  reason : Option JsString
  detailsJson : JsString
  timestamp : JsString
  prevEntryHash : Option JsString
  deriving DecidableEq

namespace AuditRowStrings

def columnsV1 (row : AuditRowStrings) : List (String × Option JsString) :=
  [ ("id", some row.id),
    ("action", some row.action),
    ("memory_id", some row.memoryId),
    ("tenant_id", some row.tenantId),
    ("actor_json", some row.actorJson),
    ("reason", row.reason),
    ("details_json", some row.detailsJson),
    ("timestamp", some row.timestamp),
    ("prev_entry_hash", row.prevEntryHash) ]

def columnsV2 (row : AuditRowStrings) : List (String × Option JsString) :=
  [ ("id", some row.id),
    ("action", some row.action),
    ("memory_id", some row.memoryId),
    ("tenant_id", some row.tenantId),
    ("actor_json", some row.actorJson),
    ("reason", row.reason),
    ("details_json", some row.detailsJson),
    ("prev_entry_hash", row.prevEntryHash) ]

def columns (row : AuditRowStrings) :
    AuditHashVersion → List (String × Option JsString)
  | .v1 => row.columnsV1
  | .v2 => row.columnsV2

def columnText (column : String × Option JsString) : List Char :=
  Json.quote column.1 ++ ':' :: column.2.elim "null".toList JsString.quote

/-- `canonicalRowJson` for columns of arbitrary strings. -/
def canonicalRowJson (row : AuditRowStrings) (hashVersion : AuditHashVersion) :
    String :=
  String.ofList
    ('{' :: (separatedBy ',' columnText (row.columns hashVersion) ++ ['}']))

/-- `computeEntryHash` for columns of arbitrary strings. -/
def entryHash (sha256 : String → String) (row : AuditRowStrings)
    (hashVersion : AuditHashVersion) : String :=
  sha256 (row.canonicalRowJson hashVersion)

/-- The columns as UTF-8 stores them. -/
def stored (row : AuditRowStrings) : CanonicalAuditRow where
  id := row.id.toWellFormed
  action := row.action.toWellFormed
  memoryId := row.memoryId.toWellFormed
  tenantId := row.tenantId.toWellFormed
  actorJson := row.actorJson.toWellFormed
  reason := row.reason.map JsString.toWellFormed
  detailsJson := row.detailsJson.toWellFormed
  timestamp := row.timestamp.toWellFormed
  prevEntryHash := row.prevEntryHash.map JsString.toWellFormed

/-- No covered column has an unpaired surrogate. -/
def WellFormed (row : AuditRowStrings) (hashVersion : AuditHashVersion) :
    Prop :=
  ∀ column ∈ row.columns hashVersion, ∀ text ∈ column.2, text.WellFormed

/-- The rows agree in every column that this form covers. -/
structure SameCovered (hashVersion : AuditHashVersion)
    (left right : AuditRowStrings) : Prop where
  id : left.id = right.id
  action : left.action = right.action
  memoryId : left.memoryId = right.memoryId
  tenantId : left.tenantId = right.tenantId
  actorJson : left.actorJson = right.actorJson
  reason : left.reason = right.reason
  detailsJson : left.detailsJson = right.detailsJson
  timestamp : hashVersion = .v1 → left.timestamp = right.timestamp
  prevEntryHash : left.prevEntryHash = right.prevEntryHash

theorem isPrefixCode_columnText : IsPrefixCode columnText := by
  have key : IsPrefixCode Json.quote :=
    fun _ _ _ _ same => Json.quote_append_injective same
  have fresh : NeverStarts JsString.quote 'n' := by
    intro value rest tail
    simp [JsString.quote]
  have value : IsPrefixCode fun value : Option JsString =>
      value.elim "null".toList JsString.quote :=
    JsString.isPrefixCode_quote.option fresh
  exact key.pair ':' value

theorem columns_eq_of_canonicalRowJson_eq {left right : AuditRowStrings}
    {version version' : AuditHashVersion}
    (same : left.canonicalRowJson version = right.canonicalRowJson version') :
    left.columns version = right.columns version' := by
  have fresh : NeverStarts columnText '}' := by
    intro column rest tail
    simp [columnText, Json.quote]
  have object := isPrefixCode_columnText.separated fresh
    (by decide : ',' ≠ '}')
  have texts := String.ofList_injective same
  exact object.injective (List.cons.inj texts).2

theorem columns_eq_iff {left right : AuditRowStrings}
    {version version' : AuditHashVersion} :
    left.columns version = right.columns version' ↔
      version = version' ∧ SameCovered version left right := by
  constructor
  · intro same
    cases version with
    | v1 =>
        cases version' with
        | v1 =>
            simp only [columns, columnsV1, List.cons.injEq, Prod.mk.injEq,
              true_and, and_true, Option.some.injEq] at same
            obtain ⟨id, action, memoryId, tenantId, actorJson, reason,
              detailsJson, timestamp, prevEntryHash⟩ := same
            exact ⟨rfl, id, action, memoryId, tenantId, actorJson, reason,
              detailsJson, fun _ => timestamp, prevEntryHash⟩
        | v2 => simp [columns, columnsV1, columnsV2] at same
    | v2 =>
        cases version' with
        | v1 => simp [columns, columnsV1, columnsV2] at same
        | v2 =>
            simp only [columns, columnsV2, List.cons.injEq, Prod.mk.injEq,
              true_and, and_true, Option.some.injEq] at same
            obtain ⟨id, action, memoryId, tenantId, actorJson, reason,
              detailsJson, prevEntryHash⟩ := same
            exact ⟨rfl, id, action, memoryId, tenantId, actorJson, reason,
              detailsJson, nofun, prevEntryHash⟩
  · rintro ⟨rfl, covered⟩
    cases version with
    | v1 =>
        simp [columns, columnsV1, covered.id, covered.action, covered.memoryId,
          covered.tenantId, covered.actorJson, covered.reason,
          covered.detailsJson, covered.timestamp rfl, covered.prevEntryHash]
    | v2 =>
        simp [columns, columnsV2, covered.id, covered.action, covered.memoryId,
          covered.tenantId, covered.actorJson, covered.reason,
          covered.detailsJson, covered.prevEntryHash]

/-- Two rows have one canonical text just when the forms are the same and so
are all columns that the form covers. -/
theorem canonicalRowJson_eq_iff {left right : AuditRowStrings}
    {version version' : AuditHashVersion} :
    left.canonicalRowJson version = right.canonicalRowJson version' ↔
      version = version' ∧ SameCovered version left right := by
  rw [← columns_eq_iff]
  constructor
  · exact columns_eq_of_canonicalRowJson_eq
  · intro same
    unfold canonicalRowJson
    rw [same]

theorem columns_eq_of_entryHash_eq {sha256 : String → String}
    (collisionFree : Function.Injective sha256)
    {left right : AuditRowStrings} {version version' : AuditHashVersion}
    (same : left.entryHash sha256 version =
      right.entryHash sha256 version') :
    left.columns version = right.columns version' :=
  columns_eq_of_canonicalRowJson_eq (collisionFree same)

theorem entryHash_congr (sha256 : String → String)
    {left right : AuditRowStrings} {version : AuditHashVersion}
    (same : left.columns version = right.columns version) :
    left.entryHash sha256 version = right.entryHash sha256 version := by
  unfold entryHash canonicalRowJson
  rw [same]

theorem canonicalColumns_stored (row : AuditRowStrings)
    (version : AuditHashVersion) :
    canonicalColumns row.stored version =
      (row.columns version).map fun column =>
        (column.1, column.2.map JsString.toWellFormed) := by
  cases version <;> rfl

end AuditRowStrings

def CanonicalAuditRow.strings (row : CanonicalAuditRow) : AuditRowStrings where
  id := .ofString row.id
  action := .ofString row.action
  memoryId := .ofString row.memoryId
  tenantId := .ofString row.tenantId
  actorJson := .ofString row.actorJson
  reason := row.reason.map .ofString
  detailsJson := .ofString row.detailsJson
  timestamp := .ofString row.timestamp
  prevEntryHash := row.prevEntryHash.map .ofString

theorem CanonicalAuditRow.columns_strings (row : CanonicalAuditRow)
    (version : AuditHashVersion) :
    row.strings.columns version =
      (canonicalColumns row version).map fun column =>
        (column.1, column.2.map .ofString) := by
  cases version <;> rfl

@[simp]
theorem CanonicalAuditRow.stored_strings (row : CanonicalAuditRow) :
    row.strings.stored = row := by
  cases row
  simp [CanonicalAuditRow.strings, AuditRowStrings.stored,
    Function.comp_def]

theorem AuditRowStrings.columns_strings_stored_iff {row : AuditRowStrings}
    {version : AuditHashVersion} :
    row.stored.strings.columns version = row.columns version ↔
      row.WellFormed version := by
  rw [CanonicalAuditRow.columns_strings, canonicalColumns_stored,
    List.map_map, WellFormed]
  induction row.columns version with
  | nil => simp
  | cons column rest induction =>
      rw [List.map_cons, List.cons.injEq, induction, List.forall_mem_cons]
      obtain ⟨name, value⟩ := column
      cases value with
      | none => simp
      | some text => simp [JsString.ofString_toWellFormed_iff]

theorem columnText_ofString (name : String) (value : Option String) :
    AuditRowStrings.columnText (name, value.map .ofString) =
      Json.quote name ++ ':' :: (Json.ofOption value).text := by
  cases value with
  | none => simp [AuditRowStrings.columnText, Json.ofOption, Json.text]
  | some text =>
      simp [AuditRowStrings.columnText, Json.ofOption, Json.text,
        JsString.quote_ofString]

theorem fieldsText_eq_separatedBy (columns : List (String × Option String)) :
    Json.fieldsText (columns.map fun column =>
        (column.1, Json.ofOption column.2)) =
      separatedBy ',' AuditRowStrings.columnText
        (columns.map fun column => (column.1, column.2.map .ofString)) := by
  induction columns with
  | nil => rfl
  | cons first later induction =>
      cases later with
      | nil =>
          simp [Json.fieldsText, separatedBy, columnText_ofString]
      | cons next rest =>
          simp only [List.map_cons, separatedBy, List.flatMap_cons,
            columnText_ofString] at induction ⊢
          rw [Json.fieldsText, induction]
          simp

theorem canonicalRowJson_strings (row : CanonicalAuditRow)
    (version : AuditHashVersion) :
    row.strings.canonicalRowJson version = canonicalRowJson row version := by
  unfold AuditRowStrings.canonicalRowJson canonicalRowJson Json.stringify
  rw [row.columns_strings, ← fieldsText_eq_separatedBy, Json.text]

theorem entryHash_strings (sha256 : String → String) (row : CanonicalAuditRow)
    (version : AuditHashVersion) :
    row.strings.entryHash sha256 version =
      computeEntryHash sha256 row version := by
  unfold AuditRowStrings.entryHash computeEntryHash
  rw [canonicalRowJson_strings]

/-- The row stores these texts, and its hash was taken over them. -/
structure AuditChainRow.HashedFrom (sha256 : String → String)
    (row : AuditChainRow) (texts : AuditRowStrings) : Prop where
  columns : row.canonical = texts.stored
  hash : row.entryHash = some (texts.entryHash sha256 (rowHashVersion row))

theorem AuditChainRow.HashedFrom.of_intact {sha256 : String → String}
    {row : AuditChainRow} (intact : (auditScheme sha256).Intact row) :
    row.HashedFrom sha256 row.canonical.strings where
  columns := row.canonical.stored_strings.symm
  hash := by
    rw [entryHash_strings]
    exact intact

theorem AuditChainRow.HashedFrom.intact {sha256 : String → String}
    {row : AuditChainRow} {texts : AuditRowStrings}
    (hashed : row.HashedFrom sha256 texts)
    (wellFormed : texts.WellFormed (rowHashVersion row)) :
    (auditScheme sha256).Intact row := by
  have same := AuditRowStrings.columns_strings_stored_iff.mpr wellFormed
  calc
    row.entryHash = some (texts.entryHash sha256 (rowHashVersion row)) :=
      hashed.hash
    _ = some (texts.stored.strings.entryHash sha256 (rowHashVersion row)) := by
      rw [AuditRowStrings.entryHash_congr sha256 same]
    _ = some ((auditScheme sha256).digest row) := by
      rw [entryHash_strings, ← hashed.columns]
      rfl

/-- A row carries the hash of its own contents just when the texts that it was
hashed from are well formed. -/
theorem AuditChainRow.HashedFrom.intact_iff {sha256 : String → String}
    (collisionFree : Function.Injective sha256)
    {row : AuditChainRow} {texts : AuditRowStrings}
    (hashed : row.HashedFrom sha256 texts) :
    (auditScheme sha256).Intact row ↔
      texts.WellFormed (rowHashVersion row) := by
  constructor
  · intro intact
    have own : row.entryHash = some (row.canonical.strings.entryHash sha256
        (rowHashVersion row)) := (HashedFrom.of_intact intact).hash
    rw [hashed.hash, Option.some.injEq] at own
    apply AuditRowStrings.columns_strings_stored_iff.mp
    rw [← hashed.columns]
    exact (AuditRowStrings.columns_eq_of_entryHash_eq collisionFree own).symm
  · exact hashed.intact

end Registrar
