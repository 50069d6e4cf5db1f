import Registrar.Library.JsonStrings
import Registrar.Store.CandidateRows
import Registrar.Store.Store

/-!
# Inserting candidates that no schema has parsed

The columns of a candidate hold arbitrary texts and JSON values here.  The
insert scans the strings that it walks to, checks the closed vocabularies, and
stores the whole object.
-/

namespace Registrar

variable (env : Environment)

/-- The fields that the disclosure scan passes over, wherever they stand. -/
def enumConstrainedFields : List String :=
  ["status", "source", "category", "trustLevel", "confidence", "sensitivity",
    "type"]

def isEnumConstrained (name : String) : Bool :=
  name ∈ enumConstrainedFields

def maxDepth : Nat := 16

/-- A candidate with its text columns, its structured ones, and whatever else
the object has. -/
structure RawCandidate where
  others : List (String × Json)
  id : String
  status : String
  source : String
  content : String
  title : String
  category : String
  trustLevel : String
  author : Json
  tenantId : String
  metadata : Json
  prePolicyFlags : Json
  capturedAt : String
  origin : Option Json

/-- The candidate as the object that is walked. -/
def RawCandidate.object (candidate : RawCandidate) : Json :=
  .object
    (candidate.others ++
      [("id", .string candidate.id),
        ("status", .string candidate.status),
        ("source", .string candidate.source),
        ("content", .string candidate.content),
        ("title", .string candidate.title),
        ("category", .string candidate.category),
        ("trustLevel", .string candidate.trustLevel),
        ("author", candidate.author),
        ("tenantId", .string candidate.tenantId),
        ("metadata", candidate.metadata),
        ("prePolicyFlags", candidate.prePolicyFlags),
        ("capturedAt", .string candidate.capturedAt)] ++
      Json.optionalField "origin" candidate.origin)

/-- The strings of the object that the disclosure scan examines. -/
def RawCandidate.collectFreeTextFields (candidate : RawCandidate) :
    List String :=
  candidate.object.walk maxDepth isEnumConstrained 0

inductive RawInsertError where
  | disclosureRejected (category : DisclosureCategory)
  | enumConstraintViolation (field : String)
  | redactedContentReingest
  | uniqueConstraint (column : String)
  deriving DecidableEq, Repr

structure EnumCheck where
  field : String
  words : List String
  value : Option Json

/-- A property of a value, which only objects have. -/
def property? (value : Json) (name : String) : Option Json :=
  match value with
  | .object fields => Json.field? fields name
  | _ => none

def RawCandidate.enumChecks (candidate : RawCandidate) : List EnumCheck :=
  [{ field := "status"
     words := candidateStatuses.map CandidateStatus.text
     value := some (.string candidate.status) },
    { field := "source"
      words := memorySources.map MemorySource.text
      value := some (.string candidate.source) },
    { field := "category"
      words := memoryCategories.map MemoryCategory.text
      value := some (.string candidate.category) },
    { field := "trustLevel"
      words := trustLevels.map TrustLevel.text
      value := some (.string candidate.trustLevel) },
    { field := "author.type"
      words := authorTypes.map AuthorType.text
      value := property? candidate.author "type" },
    { field := "metadata.confidence"
      words := confidences.map Confidence.text
      value := property? candidate.metadata "confidence" },
    { field := "metadata.sensitivity"
      words := sensitivities.map Sensitivity.text
      value := property? candidate.metadata "sensitivity" },
    { field := "metadata.audience"
      words := audiences.map Audience.text
      value := property? candidate.metadata "audience" }]

/-- A string outside the vocabulary is scanned before it is refused. -/
def EnumCheck.run (check : EnumCheck) : Except RawInsertError Unit :=
  match check.value with
  | none => .ok ⟨⟩
  | some (.string word) =>
      if word ∈ check.words then .ok ⟨⟩
      else
        match env.scanForDisclosure word with
        | some category => .error (.disclosureRejected category)
        | none => .error (.enumConstraintViolation check.field)
  | some _ => .error (.enumConstraintViolation check.field)

def runEnumChecks : List EnumCheck → Except RawInsertError Unit
  | [] => .ok ⟨⟩
  | check :: rest => do
      check.run env
      runEnumChecks rest

/-- A stored candidate; a JSON column is the value of its text. -/
structure RawRow where
  columns : CandidateColumns
  contentHash : String
  importBatchId : Option String

def RawRow.id (row : RawRow) : String := row.columns.id

abbrev RawTable := Table (Table.DistinctKey RawRow.id)

def RawCandidate.columns (candidate : RawCandidate) : CandidateColumns where
  id := candidate.id
  status := candidate.status
  source := candidate.source
  content := candidate.content
  title := candidate.title
  category := candidate.category
  trustLevel := candidate.trustLevel
  authorJson := candidate.author
  tenantId := candidate.tenantId
  metadataJson := candidate.metadata
  prePolicyFlagsJson := candidate.prePolicyFlags
  capturedAt := candidate.capturedAt
  originJson := candidate.origin

def RawCandidate.assertDisclosureClean (candidate : RawCandidate) :
    Except RawInsertError Unit :=
  match scanDisclosureFields env candidate.collectFreeTextFields with
  | some category => .error (.disclosureRejected category)
  | none => .ok ⟨⟩

/-- Insert a candidate beside the audit log; the table after the insert. -/
def insertRaw (log : AuditLog) (candidate : RawCandidate)
    (contentHash : String) (importBatchId : Option String) (table : RawTable) :
    Except RawInsertError RawTable := do
  candidate.assertDisclosureClean env
  runEnumChecks env candidate.enumChecks
  if CandidateRepository.isRedactedContent env log candidate.content
      candidate.tenantId then
    throw .redactedContentReingest
  else
    match table.insert?
        { columns := candidate.columns
          contentHash := contentHash
          importBatchId := importBatchId } with
    | some next => return next
    | none => throw (.uniqueConstraint "candidates.id")

variable {env}

theorem EnumCheck.run_eq_ok {check : EnumCheck}
    (passed : check.run env = .ok ⟨⟩) :
    ∀ value ∈ check.value, ∃ word ∈ check.words, value = .string word := by
  intro value isValue
  unfold EnumCheck.run at passed
  rw [Option.mem_def] at isValue
  rw [isValue] at passed
  cases value with
  | string word =>
      dsimp only at passed
      split_ifs at passed with member
      · exact ⟨word, member, rfl⟩
      · split at passed <;> cases passed
  | _ => cases passed

theorem runEnumChecks_eq_ok {checks : List EnumCheck}
    (passed : runEnumChecks env checks = .ok ⟨⟩) :
    ∀ check ∈ checks, ∀ value ∈ check.value,
      ∃ word ∈ check.words, value = .string word := by
  induction checks with
  | nil => simp
  | cons check rest induction =>
      obtain ⟨_, first, later⟩ := Program.except_bind_eq_ok_iff.mp passed
      intro other member
      rcases List.mem_cons.mp member with rfl | member
      · exact EnumCheck.run_eq_ok first
      · exact induction later other member

/-- What an insert that returned has established. -/
theorem insertRaw_eq_ok {log : AuditLog} {candidate : RawCandidate}
    {contentHash : String} {importBatchId : Option String}
    {table next : RawTable}
    (accepted : insertRaw env log candidate contentHash importBatchId table =
      .ok next) :
    (∀ text ∈ candidate.collectFreeTextFields,
        env.scanForDisclosure text = none) ∧
      (∀ check ∈ candidate.enumChecks, ∀ value ∈ check.value,
        ∃ word ∈ check.words, value = .string word) ∧
      table.insert?
        { columns := candidate.columns
          contentHash := contentHash
          importBatchId := importBatchId } = some next := by
  obtain ⟨_, clean, afterScan⟩ := Program.except_bind_eq_ok_iff.mp accepted
  obtain ⟨_, passed, afterChecks⟩ :=
    Program.except_bind_eq_ok_iff.mp afterScan
  refine ⟨?_, runEnumChecks_eq_ok passed, ?_⟩
  · unfold RawCandidate.assertDisclosureClean at clean
    split at clean
    · cases clean
    · rename_i unflagged
      exact List.findSome?_eq_none_iff.mp unflagged
  · split_ifs at afterChecks
    split at afterChecks
    · rename_i inserted
      cases afterChecks
      exact inserted
    · cases afterChecks

/-- The author without the value of its enum field, and so for the metadata. -/
def blankAuthor (author : Json) : Json :=
  author.blank ["type"]

def blankMetadata (metadata : Json) : Json :=
  metadata.blank ["confidence", "sensitivity"]

/-- Every string of the stored row but the values of its enum fields. -/
def RawRow.texts (row : RawRow) : List String :=
  [row.columns.id, row.columns.content, row.columns.title,
    row.columns.tenantId, row.columns.capturedAt, row.contentHash] ++
    row.importBatchId.toList ++
    (blankAuthor row.columns.authorJson).strings ++
    (blankMetadata row.columns.metadataJson).strings ++
    row.columns.prePolicyFlagsJson.strings ++
    row.columns.originJson.toList.flatMap Json.strings

/-- The strings of one column that the walk misses. -/
def missedIn (column : Json) : List String :=
  column.missed maxDepth isEnumConstrained 1

/-- The strings that are stored and not examined: the names of fields, values
more than sixteen levels deep, and values under the name of an enum field in
another place. -/
def RawCandidate.unexamined (candidate : RawCandidate) (contentHash : String)
    (importBatchId : Option String) : List String :=
  [contentHash] ++ importBatchId.toList ++
    missedIn (blankAuthor candidate.author) ++
    missedIn (blankMetadata candidate.metadata) ++
    missedIn candidate.prePolicyFlags ++
    candidate.origin.toList.flatMap missedIn

/-- The strings of one column that the walk meets. -/
def walkedIn (column : Json) : List String :=
  column.walk maxDepth isEnumConstrained 1

theorem mem_strings_column {column : Json} {text : String} :
    text ∈ column.strings ↔ text ∈ walkedIn column ∨ text ∈ missedIn column :=
  Json.mem_strings_iff 1 column text

theorem walkedIn_blankAuthor (author : Json) :
    walkedIn (blankAuthor author) = walkedIn author := by
  refine Json.walk_blank ?_ 1 author
  decide

theorem walkedIn_blankMetadata (metadata : Json) :
    walkedIn (blankMetadata metadata) = walkedIn metadata := by
  refine Json.walk_blank ?_ 1 metadata
  decide

theorem walkFields_append {depth : Nat} (left right : List (String × Json)) :
    Json.walkFields maxDepth isEnumConstrained depth (left ++ right) =
      Json.walkFields maxDepth isEnumConstrained depth left ++
        Json.walkFields maxDepth isEnumConstrained depth right := by
  induction left with
  | nil => rfl
  | cons field rest induction =>
      rw [List.cons_append, Json.walkFields, Json.walkFields, induction,
        List.append_assoc]

/-- What is examined of a candidate: its text columns outside the closed
vocabularies, and what the walk meets in the others. -/
theorem collectFreeTextFields_eq (candidate : RawCandidate) :
    candidate.collectFreeTextFields =
      Json.walkFields maxDepth isEnumConstrained 1 candidate.others ++
        ([candidate.id, candidate.content, candidate.title] ++
          walkedIn candidate.author ++ [candidate.tenantId] ++
          walkedIn candidate.metadata ++ walkedIn candidate.prePolicyFlags ++
          [candidate.capturedAt] ++
          candidate.origin.toList.flatMap walkedIn) := by
  unfold RawCandidate.collectFreeTextFields RawCandidate.object
  rw [Json.walk, if_neg (by decide), List.append_assoc, walkFields_append,
    walkFields_append]
  cases candidate.origin <;>
    simp [Json.walkFields, Json.walk, Json.optionalField, isEnumConstrained,
      enumConstrainedFields, maxDepth, walkedIn]

theorem mem_texts_iff {candidate : RawCandidate} {contentHash text : String}
    {importBatchId : Option String} :
    text ∈ RawRow.texts
        { columns := candidate.columns
          contentHash := contentHash
          importBatchId := importBatchId } ↔
      (text ∈ [candidate.id, candidate.content, candidate.title] ++
          walkedIn candidate.author ++ [candidate.tenantId] ++
          walkedIn candidate.metadata ++ walkedIn candidate.prePolicyFlags ++
          [candidate.capturedAt] ++
          candidate.origin.toList.flatMap walkedIn) ∨
        text ∈ candidate.unexamined contentHash importBatchId := by
  unfold RawRow.texts RawCandidate.unexamined RawCandidate.columns
  simp only [List.mem_append, List.mem_flatMap, mem_strings_column,
    walkedIn_blankAuthor, walkedIn_blankMetadata, List.mem_cons,
    List.not_mem_nil, or_false, and_or_left, exists_or]
  exact iff_of_eq (by ac_rfl)

/-- An accepted candidate holds words in its enum fields, and every other
string that is stored passes the scan just when those in the blind spots do. -/
theorem insertRaw_scansStored_iff {log : AuditLog} {candidate : RawCandidate}
    {contentHash : String} {importBatchId : Option String}
    {table next : RawTable}
    (accepted : insertRaw env log candidate contentHash importBatchId table =
      .ok next) :
    (∀ check ∈ candidate.enumChecks, ∀ value ∈ check.value,
      ∃ word ∈ check.words, value = .string word) ∧
    ∃ row, next.rows = table.rows ++ [row] ∧
      row.columns = candidate.columns ∧
      ((∀ text ∈ row.texts, env.scanForDisclosure text = none) ↔
        ∀ text ∈ candidate.unexamined contentHash importBatchId,
          env.scanForDisclosure text = none) := by
  obtain ⟨clean, words, inserted⟩ := insertRaw_eq_ok accepted
  refine ⟨words, _, Table.rows_of_insert? inserted, rfl, ?_⟩
  constructor
  · intro all text blind
    exact all text (mem_texts_iff.mpr (.inr blind))
  · intro blindClean text stored
    rcases mem_texts_iff.mp stored with examined | blind
    · apply clean
      rw [collectFreeTextFields_eq]
      exact List.mem_append_right _ examined
    · exact blindClean text blind

/-- A parsed candidate, as the object that it is. -/
def MemoryCandidate.raw (candidate : MemoryCandidate) : RawCandidate where
  others := [("schemaVersion", .string "1")]
  id := candidate.id
  status := candidate.status.text
  source := candidate.source.text
  content := candidate.content
  title := candidate.title
  category := candidate.category.text
  trustLevel := candidate.trustLevel.text
  author := candidate.author.json
  tenantId := candidate.tenantId
  metadata := candidate.metadata.json
  prePolicyFlags := candidate.prePolicyFlags.json
  capturedAt := candidate.capturedAt
  origin := candidate.origin.map CandidateOrigin.json

theorem walkFields_optionalField (name : String) (value : Option Json)
    (depth : Nat) :
    Json.walkFields maxDepth isEnumConstrained depth
        (Json.optionalField name value) =
      if isEnumConstrained name then []
      else value.toList.flatMap
        (Json.walk maxDepth isEnumConstrained depth) := by
  cases value with
  | none => simp [Json.optionalField, Json.walkFields]
  | some value => simp [Json.optionalField, Json.walkFields]

theorem walk_jsonTexts (texts : List String) :
    (jsonTexts texts).walk maxDepth isEnumConstrained 2 = texts := by
  have items : Json.walkItems maxDepth isEnumConstrained 3
      (texts.map .string) = texts := by
    induction texts with
    | nil => rfl
    | cons text rest induction =>
        rw [List.map_cons, Json.walkItems, induction]
        rfl
  unfold jsonTexts
  rw [Json.walk, if_neg (by decide), items]

theorem walkedIn_author (author : Author) :
    walkedIn author.json =
      author.id.value :: author.name.toList.map NonEmptyString.value := by
  obtain ⟨type, id, name⟩ := author
  cases name <;> rfl

theorem walkedIn_origin (origin : CandidateOrigin) :
    walkedIn origin.json =
      [origin.tokenHmac, origin.channel, origin.mintedAt] :=
  rfl

theorem walkedIn_metadata (metadata : ContentMetadata) :
    walkedIn metadata.json =
      metadata.filePaths ++ metadata.language.toList ++
        metadata.projectContext.toList ++ metadata.sessionId.toList ++
        metadata.repoUrl.toList ++ metadata.branch.toList ++ metadata.tags ++
        metadata.subjects.getD [] ++
        metadata.proposedByRole.toList.map ProposerRole.text ++
        metadata.audience.toList.map Audience.text := by
  have ofSubjects :
      (metadata.subjects.map jsonTexts).toList.flatMap
        (Json.walk maxDepth isEnumConstrained 2) =
      metadata.subjects.getD [] := by
    cases metadata.subjects with
    | none => rfl
    | some subjects => simp [walk_jsonTexts]
  have ofText (value : Option String) :
      (value.map Json.string).toList.flatMap
        (Json.walk maxDepth isEnumConstrained 2) = value.toList := by
    cases value <;> rfl
  have ofRole :
      (metadata.proposedByRole.map fun role => Json.string role.text).toList.flatMap
        (Json.walk maxDepth isEnumConstrained 2) =
      metadata.proposedByRole.toList.map ProposerRole.text := by
    cases metadata.proposedByRole <;> rfl
  have ofAudience :
      (metadata.audience.map fun audience => Json.string audience.text).toList.flatMap
        (Json.walk maxDepth isEnumConstrained 2) =
      metadata.audience.toList.map Audience.text := by
    cases metadata.audience <;> rfl
  have ofTexts (name : String) (free : isEnumConstrained name = false)
      (texts : List String) :
      Json.walkFields maxDepth isEnumConstrained 2 [(name, jsonTexts texts)] =
        texts := by
    rw [Json.walkFields, walk_jsonTexts, free]
    simp [Json.walkFields]
  unfold walkedIn ContentMetadata.json
  rw [Json.walk, if_neg (by decide)]
  simp only [walkFields_append, walkFields_optionalField, ofSubjects, ofText,
    ofRole, ofAudience, ofTexts "filePaths" (by decide),
    ofTexts "tags" (by decide)]
  simp [isEnumConstrained, enumConstrainedFields]

theorem collectFreeTextFields_raw (candidate : MemoryCandidate) :
    candidate.raw.collectFreeTextFields =
      Registrar.collectFreeTextFields candidate := by
  rw [collectFreeTextFields_eq]
  unfold MemoryCandidate.raw Registrar.collectFreeTextFields
  dsimp only
  rw [walkedIn_author, walkedIn_metadata]
  have version : Json.walkFields maxDepth isEnumConstrained 1
      [("schemaVersion", .string "1")] = ["1"] := by decide
  have flags : walkedIn candidate.prePolicyFlags.json = [] := rfl
  rw [version, flags]
  cases candidate.origin <;> simp [walkedIn_origin]

theorem enumCheck_passes {Value : Type} {field : String} {values : List Value}
    {text : Value → String} {value : Option Json}
    (word : ∀ stored ∈ value, ∃ member ∈ values,
      stored = .string (text member)) :
    EnumCheck.run env
        { field := field
          words := values.map text
          value := value } = .ok ⟨⟩ := by
  unfold EnumCheck.run
  cases value with
  | none => rfl
  | some stored =>
      obtain ⟨member, isValue, rfl⟩ := word stored rfl
      exact if_pos (List.mem_map_of_mem isValue)

theorem runEnumChecks_of_passes {checks : List EnumCheck}
    (passes : ∀ check ∈ checks, check.run env = .ok ⟨⟩) :
    runEnumChecks env checks = .ok ⟨⟩ := by
  induction checks with
  | nil => rfl
  | cons check rest induction =>
      obtain ⟨first, later⟩ := List.forall_mem_cons.mp passes
      rw [runEnumChecks, first]
      exact induction later

/-- The words of a parsed candidate are in their vocabularies. -/
theorem runEnumChecks_raw (candidate : MemoryCandidate) :
    runEnumChecks env candidate.raw.enumChecks = .ok ⟨⟩ := by
  have confidence : property? candidate.metadata.json "confidence" =
      candidate.metadata.confidence.map fun level =>
        .string level.text := by
    simp only [property?, ContentMetadata.json, Json.field?_append,
      Json.field?_optionalField]
    simp [Json.field?]
  have sensitivity : property? candidate.metadata.json "sensitivity" =
      candidate.metadata.sensitivity.map fun level =>
        .string level.text := by
    simp only [property?, ContentMetadata.json, Json.field?_append,
      Json.field?_optionalField]
    simp [Json.field?]
  have audience : property? candidate.metadata.json "audience" =
      candidate.metadata.audience.map fun audience =>
        .string audience.text := by
    simp only [property?, ContentMetadata.json, Json.field?_append,
      Json.field?_optionalField]
    simp [Json.field?]
  have authorType : property? candidate.author.json "type" =
      some (.string candidate.author.type.text) := by
    unfold property? Author.json
    cases candidate.author.name <;> simp [Json.field?]
  apply runEnumChecks_of_passes
  unfold RawCandidate.enumChecks MemoryCandidate.raw
  dsimp only
  rw [confidence, sensitivity, audience, authorType]
  simp only [List.forall_mem_cons, List.not_mem_nil, false_implies,
    implies_true, and_true]
  refine ⟨?_, ?_, ?_, ?_, ?_, ?_, ?_, ?_⟩
  · apply enumCheck_passes
    rintro stored ⟨⟩
    exact ⟨candidate.status, by cases candidate.status <;> decide, rfl⟩
  · apply enumCheck_passes
    rintro stored ⟨⟩
    exact ⟨candidate.source, by cases candidate.source <;> decide, rfl⟩
  · apply enumCheck_passes
    rintro stored ⟨⟩
    exact ⟨candidate.category, by cases candidate.category <;> decide, rfl⟩
  · apply enumCheck_passes
    rintro stored ⟨⟩
    exact ⟨candidate.trustLevel, by cases candidate.trustLevel <;> decide,
      rfl⟩
  · apply enumCheck_passes
    rintro stored ⟨⟩
    exact ⟨candidate.author.type, by cases candidate.author.type <;> decide,
      rfl⟩
  · apply enumCheck_passes
    intro stored isStored
    obtain ⟨level, -, rfl⟩ := Option.map_eq_some_iff.mp isStored
    exact ⟨level, by cases level <;> decide, rfl⟩
  · apply enumCheck_passes
    intro stored isStored
    obtain ⟨level, -, rfl⟩ := Option.map_eq_some_iff.mp isStored
    exact ⟨level, by cases level <;> decide, rfl⟩
  · apply enumCheck_passes
    intro stored isStored
    obtain ⟨level, -, rfl⟩ := Option.map_eq_some_iff.mp isStored
    exact ⟨level, by cases level <;> decide, rfl⟩

/-- Of a parsed candidate, the insert asks what the insert of the parsed
candidate asks, and stores its columns. -/
theorem insertRaw_raw (log : AuditLog) (candidate : MemoryCandidate)
    (contentHash : String) (importBatchId : Option String) (table : RawTable) :
    insertRaw env log candidate.raw contentHash importBatchId table =
      match disclosureViolation env candidate with
      | some category => .error (.disclosureRejected category)
      | none =>
          if CandidateRepository.isRedactedContent env log candidate.content
              candidate.tenantId then
            .error .redactedContentReingest
          else
            match table.insert?
                { columns := candidate.columns
                  contentHash := contentHash
                  importBatchId := importBatchId } with
            | some next => .ok next
            | none => .error (.uniqueConstraint "candidates.id") := by
  have walked : scanDisclosureFields env candidate.raw.collectFreeTextFields =
      disclosureViolation env candidate := by
    rw [collectFreeTextFields_raw]
    rfl
  unfold insertRaw RawCandidate.assertDisclosureClean
  rw [walked]
  cases disclosureViolation env candidate with
  | some category => rfl
  | none =>
      rw [runEnumChecks_raw]
      rfl

/-- The filter flags this one text and nothing else. -/
def flaggingEnvironment : Environment :=
  { plainEnvironment with
    scanForDisclosure := fun text =>
      if text = "123-45-6789" then some .pii else none }

def noteCandidate (metadata : Json) : RawCandidate where
  others := []
  id := "note"
  status := "inbox"
  source := "manual"
  content := "Ask Ann."
  title := "Ann"
  category := "convention"
  trustLevel := "medium"
  author := .object [("type", .string "human"), ("id", .string "ann")]
  tenantId := "team"
  metadata := metadata
  prePolicyFlags := .object []
  capturedAt := "1"
  origin := none

def noteInsert (metadata : Json) : Except RawInsertError RawTable :=
  insertRaw flaggingEnvironment .empty (noteCandidate metadata) "hash" none
    .empty

theorem exists_of_noteInsert {metadata : Json}
    (accepts : (noteInsert metadata).isOk = true) :
    ∃ next, noteInsert metadata = .ok next := by
  cases inserted : noteInsert metadata with
  | error error =>
      rw [inserted] at accepts
      cases accepts
  | ok next => exact ⟨next, rfl⟩

/-- A number under the name of an enum field, outside of its place. -/
theorem misplacedField_stored :
    ∃ next row,
      noteInsert (.object [("status", .string "123-45-6789")]) = .ok next ∧
        next.rows = [row] ∧
        ∃ text ∈ row.texts,
          flaggingEnvironment.scanForDisclosure text = some .pii := by
  obtain ⟨next, inserted⟩ := exists_of_noteInsert
    (show (noteInsert (.object [("status", .string "123-45-6789")])).isOk =
      true by decide +kernel)
  obtain ⟨-, -, stored⟩ := insertRaw_eq_ok inserted
  exact ⟨next, _, inserted, Table.rows_of_insert? stored, "123-45-6789",
    by decide, by decide⟩

theorem insertRaw_scansStored_note :
    ∃ next row, noteInsert (.object [("note", .string "Ask Bob.")]) =
        .ok next ∧
      next.rows = [row] ∧
      ∀ text ∈ row.texts,
        flaggingEnvironment.scanForDisclosure text = none := by
  obtain ⟨next, inserted⟩ := exists_of_noteInsert
    (show (noteInsert (.object [("note", .string "Ask Bob.")])).isOk = true by
      decide +kernel)
  obtain ⟨-, row, rows, -, scanned⟩ := insertRaw_scansStored_iff inserted
  refine ⟨next, row, inserted, rows, scanned.mpr ?_⟩
  decide

end Registrar
