import Registrar.Common.Snapshots

/-!
# Candidate rows

The columns in which a candidate is stored, and the candidate that is read from
them.
-/

namespace Registrar

def PrePolicyFlags.json (flags : PrePolicyFlags) : Json :=
  .object
    [("potentialSecret", .bool flags.potentialSecret),
      ("lowConfidence", .bool flags.lowConfidence),
      ("duplicateSuspect", .bool flags.duplicateSuspect)]

def CandidateOrigin.json (origin : CandidateOrigin) : Json :=
  .object
    [("tokenHmac", .string origin.tokenHmac),
      ("channel", .string origin.channel),
      ("mintedAt", .string origin.mintedAt)]

/-- The columns that are read; a JSON column is the value of its text. -/
structure CandidateColumns where
  id : String
  status : String
  source : String
  content : String
  title : String
  category : String
  trustLevel : String
  authorJson : Json
  tenantId : String
  metadataJson : Json
  prePolicyFlagsJson : Json
  capturedAt : String
  originJson : Option Json

def MemoryCandidate.columns (candidate : MemoryCandidate) :
    CandidateColumns where
  id := candidate.id
  status := candidate.status.text
  source := candidate.source.text
  content := candidate.content
  title := candidate.title
  category := candidate.category.text
  trustLevel := candidate.trustLevel.text
  authorJson := candidate.author.json
  tenantId := candidate.tenantId
  metadataJson := candidate.metadata.json
  prePolicyFlagsJson := candidate.prePolicyFlags.json
  capturedAt := candidate.capturedAt
  originJson := candidate.origin.map CandidateOrigin.json

def typeName : Json → String
  | .null => "null"
  | .bool _ => "boolean"
  | .number _ => "number"
  | .string _ => "string"
  | .array _ => "array"
  | .object _ => "object"

def invalidType (path expected : String) (received : Option Json) :
    SchemaIssue where
  path := path
  message :=
    "Invalid input: expected " ++ expected ++ ", received " ++
      received.elim "undefined" typeName

def invalidOption (path : String) (words : List String) : SchemaIssue where
  path := path
  message :=
    "Invalid option: expected one of " ++
      String.intercalate "|" (words.map fun word => "\"" ++ word ++ "\"")

def checkText (path : String) : Option Json → Except SchemaIssue String
  | some (.string text) => .ok text
  | received => .error (invalidType path "string" received)

def checkObject (path : String) :
    Json → Except SchemaIssue (List (String × Json))
  | .object fields => .ok fields
  | received => .error (invalidType path "object" received)

/-- A word of a closed vocabulary. -/
def checkWord {Value : Type} (path : String) (values : List Value)
    (text : Value → String) (received : Option Json) :
    Except SchemaIssue Value :=
  let issue := invalidOption path (values.map text)
  match received with
  | some (.string word) =>
      match values.find? fun value => text value = word with
      | some value => .ok value
      | none => .error issue
  | _ => .error issue

def checkBool (path : String) : Option Json → Except SchemaIssue Bool
  | none => .ok false
  | some (.bool value) => .ok value
  | received => .error (invalidType path "boolean" received)

def checkTexts (path : String) : Json → Except SchemaIssue (List String)
  | .array items =>
      items.zipIdx.mapM fun item =>
        checkText (path ++ "." ++ toString item.2) (some item.1)
  | received => .error (invalidType path "array" received)

def checkOptional {Value : Type} (check : Json → Except SchemaIssue Value) :
    Option Json → Except SchemaIssue (Option Value)
  | none => .ok none
  | some value => (check value).map some

/-- A list that defaults to the empty one. -/
def checkTextsOrEmpty (path : String) :
    Option Json → Except SchemaIssue (List String)
  | none => .ok []
  | some value => checkTexts path value

def memorySources : List MemorySource :=
  [.claudeSession, .manual, .import_, .mcp, .bulkImport]

def trustLevels : List TrustLevel := [.high, .medium, .low, .untrusted]

def memoryCategories : List MemoryCategory :=
  [.decision, .pattern, .convention, .architecture, .troubleshooting,
    .onboarding, .reference]

def candidateStatuses : List CandidateStatus :=
  [.inbox, .promoted, .rejected, .flagged, .duplicate, .quarantined]

def proposerRoles : List ProposerRole := [.admin, .member]

def audiences : List Audience := [.tenant, .admins, .owner]

def confidences : List Confidence := [.high, .medium, .low]

def sensitivities : List Sensitivity :=
  [.public_, .internal, .confidential, .restricted]

def authorTypes : List AuthorType := [.human, .ai, .system]

def checkAuthor (value : Json) : Except SchemaIssue Author := do
  let fields ← checkObject "author" value
  let type ← checkWord "author.type" authorTypes AuthorType.text
    (Json.field? fields "type")
  let id ← checkText "author.id" (Json.field? fields "id")
  let id ← parseNonEmpty "author.id" id
  let name ← checkOptional
    (fun value => do
      parseNonEmpty "author.name" (← checkText "author.name" (some value)))
    (Json.field? fields "name")
  return { type := type
           id := id
           name := name }

def checkMetadata (value : Json) : Except SchemaIssue ContentMetadata := do
  let fields ← checkObject "metadata" value
  let field := Json.field? fields
  let optionalText (name : String) :=
    checkOptional (fun value => checkText ("metadata." ++ name) (some value))
      (field name)
  let filePaths ← checkTextsOrEmpty "metadata.filePaths" (field "filePaths")
  let language ← optionalText "language"
  let projectContext ← optionalText "projectContext"
  let sessionId ← optionalText "sessionId"
  let repoUrl ← optionalText "repoUrl"
  let branch ← optionalText "branch"
  let confidence ← checkOptional
    (fun value => checkWord "metadata.confidence" confidences Confidence.text
      (some value)) (field "confidence")
  let sensitivity ← checkOptional
    (fun value => checkWord "metadata.sensitivity" sensitivities
      Sensitivity.text (some value)) (field "sensitivity")
  let tags ← checkTextsOrEmpty "metadata.tags" (field "tags")
  let subjects ← checkOptional (checkTexts "metadata.subjects")
    (field "subjects")
  let proposedByRole ← checkOptional
    (fun value => checkWord "metadata.proposedByRole" proposerRoles
      ProposerRole.text (some value)) (field "proposedByRole")
  let audience ← checkOptional
    (fun value => checkWord "metadata.audience" audiences Audience.text
      (some value)) (field "audience")
  return { filePaths := filePaths
           language := language
           projectContext := projectContext
           sessionId := sessionId
           repoUrl := repoUrl
           branch := branch
           confidence := confidence
           sensitivity := sensitivity
           tags := tags
           subjects := subjects
           proposedByRole := proposedByRole
           audience := audience }

def checkPrePolicyFlags (value : Json) : Except SchemaIssue PrePolicyFlags := do
  let fields ← checkObject "prePolicyFlags" value
  let flag (name : String) :=
    checkBool ("prePolicyFlags." ++ name) (Json.field? fields name)
  let potentialSecret ← flag "potentialSecret"
  let lowConfidence ← flag "lowConfidence"
  let duplicateSuspect ← flag "duplicateSuspect"
  return { potentialSecret := potentialSecret
           lowConfidence := lowConfidence
           duplicateSuspect := duplicateSuspect }

def checkOrigin (value : Json) : Except SchemaIssue CandidateOrigin := do
  let fields ← checkObject "origin" value
  let tokenHmac ← checkText "origin.tokenHmac" (Json.field? fields "tokenHmac")
  let channel ← checkText "origin.channel" (Json.field? fields "channel")
  let mintedAt ← checkText "origin.mintedAt" (Json.field? fields "mintedAt")
  return { tokenHmac := tokenHmac
           channel := channel
           mintedAt := mintedAt }

def rowToCandidate (row : CandidateColumns) :
    Except SchemaIssue MemoryCandidate := do
  let status ← checkWord "status" candidateStatuses CandidateStatus.text
    (some (.string row.status))
  let source ← checkWord "source" memorySources MemorySource.text
    (some (.string row.source))
  let category ← checkWord "category" memoryCategories MemoryCategory.text
    (some (.string row.category))
  let trustLevel ← checkWord "trustLevel" trustLevels TrustLevel.text
    (some (.string row.trustLevel))
  let author ← checkAuthor row.authorJson
  let metadata ← checkMetadata row.metadataJson
  let prePolicyFlags ← checkPrePolicyFlags row.prePolicyFlagsJson
  let origin ← checkOptional checkOrigin row.originJson
  MemoryCandidate.parse
    { id := row.id
      status := status
      source := source
      content := row.content
      title := row.title
      category := category
      trustLevel := trustLevel
      author := author
      tenantId := row.tenantId
      metadata := metadata
      prePolicyFlags := prePolicyFlags
      capturedAt := row.capturedAt
      origin := origin }

theorem checkWord_text {Value : Type} (path : String) {values : List Value}
    {text : Value → String} {value : Value}
    (found : values.find? (fun other => text other = text value) =
      some value) :
    checkWord path values text (some (.string (text value))) = .ok value := by
  unfold checkWord
  dsimp only
  rw [found]

theorem checkOptional_map {Value : Type}
    {check : Json → Except SchemaIssue Value} {json : Value → Json}
    (accepts : ∀ value, check (json value) = .ok value)
    (value : Option Value) :
    checkOptional check (value.map json) = .ok value := by
  cases value with
  | none => rfl
  | some value =>
      unfold checkOptional
      dsimp only [Option.map_some]
      rw [accepts]
      rfl

theorem checkTexts_zipIdx (path : String) (texts : List String)
    (start : Nat) :
    ((texts.map Json.string).zipIdx start).mapM
        (fun item => checkText (path ++ "." ++ toString item.2)
          (some item.1)) = .ok texts := by
  induction texts generalizing start with
  | nil => rfl
  | cons text rest induction =>
      rw [List.map_cons, List.zipIdx_cons, List.mapM_cons, induction]
      rfl

theorem checkTexts_jsonTexts (path : String) (texts : List String) :
    checkTexts path (jsonTexts texts) = .ok texts :=
  checkTexts_zipIdx path texts 0

theorem parseNonEmpty_value (path : String) (text : NonEmptyString) :
    parseNonEmpty path text.value = .ok text := by
  unfold parseNonEmpty NonEmptyString.parse?
  have same : trim text.value = text.value := text.trimmed
  rw [dif_pos (by rw [same]; exact text.nonempty)]
  dsimp only
  exact congrArg Except.ok (NonEmptyString.value_injective same)

theorem ok_bind {Value Result : Type} (value : Value)
    (rest : Value → Except SchemaIssue Result) :
    (Except.ok value >>= rest) = rest value :=
  rfl

theorem checkAuthor_json (author : Author) :
    checkAuthor author.json = .ok author := by
  obtain ⟨type, id, name⟩ := author
  have isType : checkWord "author.type" authorTypes AuthorType.text
      (some (.string type.text)) = .ok type :=
    checkWord_text _ (by cases type <;> decide)
  cases name <;>
    simp [checkAuthor, Author.json, checkObject, ok_bind, Json.field?, isType,
      checkText, parseNonEmpty_value, checkOptional]
  rfl

theorem checkMetadata_json (metadata : ContentMetadata) :
    checkMetadata metadata.json = .ok metadata := by
  have isFilePaths : checkTextsOrEmpty "metadata.filePaths"
      (some (jsonTexts metadata.filePaths)) = .ok metadata.filePaths :=
    checkTexts_jsonTexts _ _
  have isTags : checkTextsOrEmpty "metadata.tags"
      (some (jsonTexts metadata.tags)) = .ok metadata.tags :=
    checkTexts_jsonTexts _ _
  have isText (path : String) (value : Option String) :
      checkOptional (fun value => checkText path (some value))
        (value.map .string) = .ok value :=
    @checkOptional_map _ _ Json.string (fun _ => rfl) value
  have isConfidence (value : Option Confidence) :
      checkOptional
        (fun value => checkWord "metadata.confidence" confidences
          Confidence.text (some value))
        (value.map fun level => .string level.text) = .ok value :=
    checkOptional_map (fun level => checkWord_text _ (by
      cases level <;> decide)) value
  have isSensitivity (value : Option Sensitivity) :
      checkOptional
        (fun value => checkWord "metadata.sensitivity" sensitivities
          Sensitivity.text (some value))
        (value.map fun level => .string level.text) = .ok value :=
    checkOptional_map (fun level => checkWord_text _ (by
      cases level <;> decide)) value
  have isSubjects (value : Option (List String)) :
      checkOptional (checkTexts "metadata.subjects") (value.map jsonTexts) =
        .ok value :=
    checkOptional_map (checkTexts_jsonTexts _) value
  have isRole (value : Option ProposerRole) :
      checkOptional
        (fun value => checkWord "metadata.proposedByRole" proposerRoles
          ProposerRole.text (some value))
        (value.map fun role => .string role.text) = .ok value :=
    checkOptional_map (fun role => checkWord_text _ (by
      cases role <;> decide)) value
  have isAudience (value : Option Audience) :
      checkOptional
        (fun value => checkWord "metadata.audience" audiences Audience.text
          (some value))
        (value.map fun audience => .string audience.text) = .ok value :=
    checkOptional_map (fun audience => checkWord_text _ (by
      cases audience <;> decide)) value
  unfold checkMetadata ContentMetadata.json checkObject
  simp only [ok_bind, Json.field?_append, Json.field?_optionalField]
  simp [Json.field?]
  simp only [isFilePaths, isTags, isText, isConfidence, isSensitivity,
    isSubjects, isRole, isAudience, ok_bind]
  rfl

theorem checkPrePolicyFlags_json (flags : PrePolicyFlags) :
    checkPrePolicyFlags flags.json = .ok flags :=
  rfl

theorem checkOrigin_json (origin : CandidateOrigin) :
    checkOrigin origin.json = .ok origin :=
  rfl

theorem rowToCandidate_columns (candidate : MemoryCandidate) :
    rowToCandidate candidate.columns = candidate.parse := by
  have isStatus : checkWord "status" candidateStatuses CandidateStatus.text
      (some (.string candidate.status.text)) = .ok candidate.status :=
    checkWord_text _ (by cases candidate.status <;> decide)
  have isSource : checkWord "source" memorySources MemorySource.text
      (some (.string candidate.source.text)) = .ok candidate.source :=
    checkWord_text _ (by cases candidate.source <;> decide)
  have isCategory : checkWord "category" memoryCategories MemoryCategory.text
      (some (.string candidate.category.text)) = .ok candidate.category :=
    checkWord_text _ (by cases candidate.category <;> decide)
  have isTrustLevel : checkWord "trustLevel" trustLevels TrustLevel.text
      (some (.string candidate.trustLevel.text)) = .ok candidate.trustLevel :=
    checkWord_text _ (by cases candidate.trustLevel <;> decide)
  unfold rowToCandidate MemoryCandidate.columns
  dsimp only
  rw [isStatus, ok_bind, isSource, ok_bind, isCategory, ok_bind, isTrustLevel,
    ok_bind, checkAuthor_json, ok_bind, checkMetadata_json, ok_bind,
    checkPrePolicyFlags_json, ok_bind,
    checkOptional_map checkOrigin_json, ok_bind]

end Registrar
