import Registrar.Curator.Hold

/-!
# Redacting a memory

The row is read and the replacement computed before the transaction.  The
transaction writes every column of the row back, rewrites the candidate copies,
and records one receipt for each rewritten row.
-/

namespace Registrar

open Program

def redactionMarker : String := "[REDACTED]"

/-- A half-open range of UTF-16 offsets. -/
structure RedactionSpan where
  start : ℚ
  stop : ℚ
  deriving DecidableEq

inductive RedactionMode where
  | replacement (content : String)
  | spans (spans : List RedactionSpan)
  | scan
  deriving DecidableEq

def RedactionMode.kind : RedactionMode → String
  | .replacement _ => "replacement"
  | .spans _ => "spans"
  | .scan => "scan"

structure RedactMemoryInput where
  memoryId : String
  tenantId : String
  actor : String
  reason : String
  mode : RedactionMode
  replacementTitle : Option String
  dryRun : Bool
  deriving DecidableEq

inductive RedactionRefusalCode where
  | notFound
  | missingReason
  | missingActor
  | secretInReason
  | emptyReplacement
  | invalidSpans
  | nothingToRedact
  | residualSecret
  | disclosureInReplacement
  deriving DecidableEq, Repr

inductive RedactionStatus where
  | redacted
  | wouldRedact
  | unchanged
  deriving DecidableEq, Repr

structure RedactionReport where
  status : RedactionStatus
  memoryId : String
  mode : String
  oldContentHash : String
  newContentHash : String
  patternNames : List String
  patternLines : List (String × List Nat)
  titleChanged : Bool
  candidateIds : List String
  auditEventIds : List String
  deriving DecidableEq, Repr

inductive RedactMemoryResult where
  | ok (report : RedactionReport)
  | refused (memoryId : String) (code : RedactionRefusalCode) (error : String)
  deriving DecidableEq

def RedactMemoryInput.refuse (input : RedactMemoryInput)
    (code : RedactionRefusalCode) (error : String) : RedactMemoryResult :=
  .refused input.memoryId code error

def disclosureRefusal : String :=
  "The replacement fails the disclosure gate (PII, compensation or " ++
    "credential material). Nothing was written."

/-- The UTF-16 units of a text. -/
def utf16Units (text : String) : List Nat :=
  text.toList.flatMap fun char =>
    let code := char.toNat
    if code < 0x10000 then [code]
    else
      [0xd800 + (code - 0x10000) / 0x400, 0xdc00 + (code - 0x10000) % 0x400]

/-- The characters that the units encode; an unpaired surrogate becomes the
replacement character. -/
def utf16Chars : List Nat → List Char
  | [] => []
  | [unit] => [if 0xd800 ≤ unit ∧ unit < 0xe000 then '\ufffd' else
      Char.ofNat unit]
  | high :: low :: rest =>
      if (0xd800 ≤ high ∧ high < 0xdc00) ∧ 0xdc00 ≤ low ∧ low < 0xe000 then
        Char.ofNat (0x10000 + (high - 0xd800) * 0x400 + (low - 0xdc00)) ::
          utf16Chars rest
      else
        (if 0xd800 ≤ high ∧ high < 0xe000 then '\ufffd' else
          Char.ofNat high) :: utf16Chars (low :: rest)

variable (env : Environment)

/-- The first fault of the spans, after a span that ended at `previousEnd`. -/
def spanFault (length : Nat) : ℚ → List RedactionSpan → Option String
  | _, [] => none
  | previousEnd, span :: rest =>
      if span.start.den ≠ 1 ∨ span.stop.den ≠ 1 then
        some "span offsets must be integers"
      else if span.start < 0 ∨ (length : ℚ) < span.stop ∨
          span.stop ≤ span.start then
        some ("span [" ++ env.numberText span.start ++ ", " ++
          env.numberText span.stop ++
          ") is empty or outside the content (length " ++ toString length ++
          ")")
      else if span.start < previousEnd then
        some "spans must be ascending and must not overlap"
      else spanFault length span.stop rest

def validateSpans (spans : List RedactionSpan) (length : Nat) :
    Option String :=
  if spans = [] then some "no spans were supplied"
  else spanFault env length 0 spans

/-- The units with each span replaced, from an offset on. -/
def replaceSpans (units : List Nat) : Nat → List RedactionSpan → List Nat
  | cursor, [] => units.drop cursor
  | cursor, span :: rest =>
      (units.drop cursor).take (span.start.num.toNat - cursor) ++
        utf16Units redactionMarker ++
        replaceSpans units span.stop.num.toNat rest

def applySpans (content : String) (spans : List RedactionSpan) : String :=
  String.ofList (utf16Chars (replaceSpans (utf16Units content) 0 spans))

/-- The patterns that fire on the texts: their ids and their names. -/
def scanPatterns (texts : List String) : List String × List String :=
  let findings := texts.flatMap env.scanTextForSecrets
  ((findings.map SecretFinding.patternId).eraseDups.insertionSort (· ≤ ·),
    (findings.map SecretFinding.patternName).eraseDups.insertionSort (· ≤ ·))

/-- The content that the mode asks for. -/
def replacementContent (memory : CuratedMemory) (input : RedactMemoryInput) :
    Except RedactMemoryResult String :=
  match input.mode with
  | .replacement content =>
      if trim content = "" then
        .error (input.refuse .emptyReplacement "Replacement content is empty")
      else .ok content
  | .spans spans =>
      match validateSpans env spans (utf16Length memory.content.value) with
      | some fault => .error (input.refuse .invalidSpans fault)
      | none => .ok (applySpans memory.content.value spans)
  | .scan => .ok (env.redactSecrets memory.content.value)

def replacementTitle (memory : CuratedMemory) (input : RedactMemoryInput) :
    String :=
  input.replacementTitle.getD
    (match input.mode with
    | .scan => env.redactSecrets memory.title.value
    | .replacement _ | .spans _ => memory.title.value)

/-- The new content and title. -/
def planReplacement (memory : CuratedMemory) (input : RedactMemoryInput) :
    Except RedactMemoryResult (String × String) := do
  let newContent ← replacementContent env memory input
  let newTitle := replacementTitle env memory input
  if trim newTitle = "" then
    throw (input.refuse .emptyReplacement "Replacement title is empty")
  else return (newContent, newTitle)

/-- The refusals that depend on the request alone, or the actor. -/
def refuseRequest (input : RedactMemoryInput) :
    Except RedactMemoryResult Author :=
  if trim input.reason = "" then
    .error (input.refuse .missingReason "A reason is required to redact")
  else
    match RequestedActor.author?
        { type := .human
          id := input.actor
          name := none } with
    | none =>
        .error (input.refuse .missingActor "An actor is required to redact")
    | some actor =>
        if env.scanTextForSecrets input.reason ≠ [] then
          .error (input.refuse .secretInReason
            ("The reason itself matches a secret pattern. The reason is " ++
              "written to the receipt verbatim — describe the redaction " ++
              "without quoting the secret."))
        else .ok actor

/-- The candidates that hold a copy of the memory's text. -/
def candidateCopies (table : CandidateTable) (memory : CuratedMemory)
    (oldContentHash : String) : List String :=
  ((if (CandidateRepository.readStoredText table memory.candidateId
      memory.tenantId.value).isSome then [memory.candidateId] else []) ++
    CandidateRepository.findIdsByContentHashAndTenant table oldContentHash
      memory.tenantId.value).eraseDups

/-- The receipts of the redactions of a row, a memory or a candidate. -/
def AuditRepository.findRedactionsFor (log : AuditLog) (targetId : String) :
    List RedactionReceipt :=
  ((chronological log).filter fun record =>
    record.event.action = .redacted && record.event.memoryId = targetId).filterMap
      fun record => rowToRedactionReceipt record.event

/-- What the reads outside the transaction leave to be written. -/
structure RedactionPlan where
  input : RedactMemoryInput
  actor : Author
  memory : CuratedMemory
  newContent : String
  newTitle : String
  patternIds : List String
  report : RedactionReport

def RedactionPlan.titleChanged (plan : RedactionPlan) : Bool :=
  plan.report.titleChanged

/-- The report of a redaction that has written nothing yet. -/
def redactionReport (input : RedactMemoryInput) (memory : CuratedMemory)
    (newContent newTitle : String) (candidateIds : List String) :
    RedactionReport where
  status := .wouldRedact
  memoryId := input.memoryId
  mode := input.mode.kind
  oldContentHash := computeContentHash env memory.content.value
  newContentHash := computeContentHash env newContent
  patternNames :=
    (scanPatterns env [memory.content.value, memory.title.value]).2
  patternLines := (env.scanTextForSecrets memory.content.value).map
    fun finding => (finding.patternName, finding.lines)
  titleChanged := newTitle ≠ memory.title.value
  candidateIds := candidateIds
  auditEventIds := []

/-- Why a replacement is not acceptable, if it is not. -/
def replacementFault (input : RedactMemoryInput)
    (newContent newTitle : String) : Option RedactMemoryResult :=
  let residual := (scanPatterns env [newContent, newTitle]).2
  if residual ≠ [] then
    some (input.refuse .residualSecret
      ("The replacement still matches secret pattern(s): " ++
        joinComma residual ++ ". Nothing was written. Remove them with " ++
        "caller-supplied lines or replacement text."))
  else if (scanDisclosureFields env [newContent, newTitle]).isSome then
    some (input.refuse .disclosureInReplacement disclosureRefusal)
  else none

/-- The result of a request that would change nothing. -/
def unchangedResult (store : Store) (input : RedactMemoryInput)
    (report : RedactionReport) : RedactMemoryResult :=
  if input.mode = .scan ∧
      AuditRepository.findRedactionsFor store.auditEvents input.memoryId = []
  then
    input.refuse .nothingToRedact
      ("The deterministic secret scan found nothing it could remove in this " ++
        "memory. A scan miss is not proof the memory is clean — supply the " ++
        "lines or the replacement text.")
  else .ok { report with status := .unchanged }

/-- A checked replacement of a row: what is left to be written, unless the
operation ends here. -/
def preparedPlan (store : Store) (input : RedactMemoryInput) (actor : Author)
    (memory : CuratedMemory) (newContent newTitle : String) :
    Except RedactMemoryResult RedactionPlan :=
  let candidateIds := candidateCopies store.candidates memory
    (computeContentHash env memory.content.value)
  let report := redactionReport env input memory newContent newTitle
  if newContent = memory.content.value ∧ newTitle = memory.title.value then
    .error (unchangedResult store input (report []))
  else if input.dryRun then .error (.ok (report candidateIds))
  else
    .ok
      { input := input
        actor := actor
        memory := memory
        newContent := newContent
        newTitle := newTitle
        patternIds :=
          (scanPatterns env [memory.content.value, memory.title.value]).1
        report := report candidateIds }

/-- The reads: a result when the operation ends there, or the plan. -/
def prepareRedaction (store : Store) (input : RedactMemoryInput) :
    Except RedactMemoryResult RedactionPlan := do
  let actor ← refuseRequest env input
  match (store.curatedMemories.find? input.memoryId).filter
      (·.tenantId.value = input.tenantId) with
  | none =>
      .error (input.refuse .notFound ("Memory " ++ input.memoryId ++
        " not found in tenant " ++ input.tenantId))
  | some memory =>
      let (newContent, newTitle) ← planReplacement env memory input
      match replacementFault env input newContent newTitle with
      | some refusal => .error refusal
      | none =>
          preparedPlan env store input actor memory newContent newTitle

/-- The rewritten row, once its schema accepts it. -/
def RedactionPlan.updated (plan : RedactionPlan) (now : String) :
    Except SchemaIssue CuratedMemory := do
  let content ← parseNonEmpty "content" plan.newContent
  let title ← parseNonEmpty "title" plan.newTitle
  return { plan.memory with
           content := content
           title := title
           contentHash := plan.report.newContentHash
           updatedAt := now
           version := plan.memory.version + 1 }

def planRedaction (input : RedactMemoryInput) (now : String) :
    StoreM (Except RedactMemoryResult (RedactionPlan × CuratedMemory)) := do
  let prepared ← query fun store : Store => prepareRedaction env store input
  match prepared with
  | .error result => pure (.error result)
  | .ok plan =>
      let updated ← orSchemaError (plan.updated now)
      pure (.ok (plan, updated))

def RedactionPlan.event (plan : RedactionPlan) (id targetId : String)
    (details : List (String × Json)) (now : String) : AuditEventInput where
  id := id
  action := .redacted
  memoryId := targetId
  tenantId := plan.memory.tenantId.value
  actor := plan.actor
  reason := some plan.input.reason
  details := details
  timestamp := now

def RedactionPlan.memoryDetails (plan : RedactionPlan) :
    List (String × Json) :=
  let report := plan.report
  [("target", .string "memory"), ("mode", .string report.mode),
    ("oldContentHash", .string report.oldContentHash),
    ("newContentHash", .string report.newContentHash),
    ("patternNames", .array (report.patternNames.map .string)),
    ("patternIds", .array (plan.patternIds.map .string)),
    ("titleChanged", .bool report.titleChanged),
    ("candidateIds", .array (report.candidateIds.map .string))] ++
    (if plan.memory.contentHash = report.oldContentHash then []
    else [("storedContentHash", .string plan.memory.contentHash)])

def RedactionPlan.candidateDetails (plan : RedactionPlan)
    (oldContentHash newContentHash : String) : List (String × Json) :=
  [("target", .string "candidate"), ("mode", .string plan.report.mode),
    ("memoryId", .string plan.input.memoryId),
    ("oldContentHash", .string oldContentHash),
    ("newContentHash", .string newContentHash)]

/-- Rewrite one candidate copy; the id of its receipt, if there is a row. -/
def redactCandidate (plan : RedactionPlan) (freshId now candidateId : String) :
    StoreM (Option String) := do
  let tenantId := plan.memory.tenantId.value
  let stored ← query fun store : Store =>
    CandidateRepository.readStoredText store.candidates candidateId tenantId
  match stored with
  | none => pure none
  | some (content, title) =>
      let rewritten ← CandidateRepository.updateContent env candidateId
        tenantId plan.newContent
        (if plan.titleChanged then plan.newTitle else title)
      match rewritten with
      | none => pure none
      | some newContentHash =>
          AuditRepository.record env
            (plan.event freshId candidateId
              (plan.candidateDetails (computeContentHash env content)
                newContentHash) now)
          pure (some freshId)

/-- The candidate copies in order, each with its own fresh id. -/
def redactCandidates (plan : RedactionPlan) (freshId : Nat → String)
    (now : String) : Nat → List String → StoreM (List String)
  | _, [] => pure []
  | index, candidateId :: rest => do
      let written ← redactCandidate env plan (freshId index) now candidateId
      let later ← redactCandidates plan freshId now (index + 1) rest
      pure (written.toList ++ later)

/-- The writes: the row, its receipt, and the candidate copies. -/
def writeRedaction (plan : RedactionPlan) (updated : CuratedMemory)
    (freshId : Nat → String) (now : String) : StoreM (List String) := do
  let _ ← MemoryRepository.update updated
  AuditRepository.record env
    (plan.event (freshId 0) plan.input.memoryId plan.memoryDetails now)
  let later ← redactCandidates env plan freshId now 1 plan.report.candidateIds
  pure (freshId 0 :: later)

/-- Only a disclosure refusal of a candidate copy is caught. -/
def redactionRefusal (plan : RedactionPlan) :
    RegistrarError → StoreM RedactMemoryResult
  | .disclosureRejected _ =>
      pure (plan.input.refuse .disclosureInReplacement disclosureRefusal)
  | error => throw error

def commitRedaction (plan : RedactionPlan) (updated : CuratedMemory)
    (freshId : Nat → String) (now : String) : StoreM RedactMemoryResult :=
  let written : StoreM RedactMemoryResult := do
    let auditEventIds ← transaction (writeRedaction env plan updated freshId now)
    pure (.ok
      { plan.report with
        status := .redacted
        auditEventIds := auditEventIds })
  tryCatch written (redactionRefusal plan)

def redactMemory (input : RedactMemoryInput) (freshId : Nat → String)
    (now : String) : StoreM RedactMemoryResult := do
  let planned ← planRedaction env input now
  match planned with
  | .error result => pure result
  | .ok (plan, updated) => commitRedaction env plan updated freshId now

variable {env} {before after : Store → Prop}

/-- What a plan took over from the row that it was made for. -/
structure RedactionPlan.For (env : Environment) (plan : RedactionPlan)
    (input : RedactMemoryInput) (row : CuratedMemory) : Prop where
  input : plan.input = input
  memory : plan.memory = row
  oldContentHash :
    plan.report.oldContentHash = computeContentHash env row.content.value
  newContentHash :
    plan.report.newContentHash = computeContentHash env plan.newContent

theorem preparedPlan_eq_ok {store : Store} {input : RedactMemoryInput}
    {actor : Author} {row : CuratedMemory} {newContent newTitle : String}
    {plan : RedactionPlan}
    (prepared : preparedPlan env store input actor row newContent newTitle =
      .ok plan) :
    plan.For env input row := by
  unfold preparedPlan at prepared
  dsimp only at prepared
  split_ifs at prepared
  cases prepared
  constructor <;> rfl

theorem prepareRedaction_eq_ok {store : Store} {input : RedactMemoryInput}
    {plan : RedactionPlan}
    (prepared : prepareRedaction env store input = .ok plan) :
    ∃ row, store.curatedMemories.find? input.memoryId = some row ∧
      plan.For env input row := by
  obtain ⟨actor, -, afterRequest⟩ := except_bind_eq_ok_iff.mp prepared
  split at afterRequest
  · cases afterRequest
  rename_i row found
  obtain ⟨⟨newContent, newTitle⟩, -, afterReplacement⟩ :=
    except_bind_eq_ok_iff.mp afterRequest
  dsimp only at afterReplacement
  split at afterReplacement
  · cases afterReplacement
  · exact ⟨row, (Option.filter_eq_some_iff.mp found).1,
      preparedPlan_eq_ok afterReplacement⟩

/-- The rewritten row is the one that was read, with another text. -/
structure RewrittenFrom (plan : RedactionPlan) (row updated : CuratedMemory) :
    Prop where
  id : updated.id = row.id
  candidateId : updated.candidateId = row.candidateId
  metadata : updated.metadata = row.metadata
  lifecycle : updated.lifecycle = row.lifecycle
  content : updated.content.value = trim plan.newContent
  contentHash : updated.contentHash = plan.report.newContentHash

theorem RedactionPlan.updated_eq_ok {plan : RedactionPlan} {now : String}
    {updated : CuratedMemory} (accepted : plan.updated now = .ok updated) :
    RewrittenFrom plan plan.memory updated := by
  obtain ⟨content, parsedContent, afterContent⟩ :=
    except_bind_eq_ok_iff.mp accepted
  obtain ⟨title, parsedTitle, afterTitle⟩ :=
    except_bind_eq_ok_iff.mp afterContent
  cases afterTitle
  constructor
  case content => exact parseNonEmpty_eq_ok parsedContent
  all_goals rfl

/-- A plan rewrites the row that the reads found. -/
theorem planRedaction_eq_ok {input : RedactMemoryInput} {now : String}
    {store final : Store} {plan : RedactionPlan} {updated : CuratedMemory}
    (planned :
      planRedaction env input now store = .ok (.ok (plan, updated)) final) :
    final = store ∧
      ∃ row, store.curatedMemories.find? input.memoryId = some row ∧
        plan.For env input row ∧ RewrittenFrom plan row updated := by
  unfold planRedaction at planned
  rw [bind_apply_of_ok (query_apply _ _)] at planned
  cases prepared : prepareRedaction env store input with
  | error result =>
      rw [prepared] at planned
      cases planned
  | ok plan' =>
      rw [prepared] at planned
      obtain ⟨updated', _, parsed, returned⟩ := bind_eq_ok_iff.mp planned
      obtain ⟨accepted, rfl⟩ := orSchemaError_eq_ok_iff.mp parsed
      cases returned
      obtain ⟨row, found, planFor⟩ := prepareRedaction_eq_ok prepared
      have rewritten := RedactionPlan.updated_eq_ok accepted
      rw [planFor.memory] at rewritten
      exact ⟨rfl, row, found, planFor, rewritten⟩

/-- A receipt of the redaction: the one of the memory, or one of a copy. -/
def RedactionPlan.IsReceipt (plan : RedactionPlan) (event : AuditEvent) :
    Prop :=
  event.action = .redacted ∧
    ((event.memoryId = plan.input.memoryId ∧
        event.details = plan.memoryDetails) ∨
      event.detailText "target" = some "candidate")

theorem RedactionPlan.hashes_of_memoryDetails {plan : RedactionPlan}
    {event : AuditEvent} (details : event.details = plan.memoryDetails) :
    event.detailText "oldContentHash" = some plan.report.oldContentHash ∧
      event.detailText "newContentHash" = some plan.report.newContentHash := by
  unfold AuditEvent.detailText
  rw [details]
  unfold RedactionPlan.memoryDetails
  dsimp only
  split_ifs <;> simp [Json.field?]

/-- The assertion survives every change of the candidates. -/
def SurvivesCandidates (invariant : Store → Prop) : Prop :=
  ∀ store candidates, invariant store →
    invariant { store with candidates := candidates }

theorem updateContent_keeps {invariant : Store → Prop}
    (survives : SurvivesCandidates invariant)
    (id tenantId content title : String) :
    Keeps invariant
      (CandidateRepository.updateContent env id tenantId content title) := by
  unfold CandidateRepository.updateContent
  split
  · exact Keeps.throw _
  · exact ⟨fun store holds => survives store _ holds⟩

section Copies

variable {invariant : Store → Prop} {plan : RedactionPlan}

theorem redactCandidate_keeps
    (recorded : SurvivesAppend env plan.IsReceipt invariant)
    (copied : SurvivesCandidates invariant) (freshId now candidateId : String) :
    Keeps invariant (redactCandidate env plan freshId now candidateId) := by
  unfold redactCandidate
  apply Keeps.bind (Keeps.query _)
  intro stored
  cases stored with
  | none => exact Keeps.pure _
  | some texts =>
      apply Keeps.bind (updateContent_keeps copied _ _ _ _)
      intro rewritten
      cases rewritten with
      | none => exact Keeps.pure _
      | some newContentHash =>
          apply Keeps.bind
          · apply AuditRepository.record_keeps recorded
            intro event parsed
            obtain ⟨tenantId, reason, -, rfl⟩ := AuditEvent.parse_eq_ok parsed
            exact ⟨rfl, .inr rfl⟩
          · intro _
            exact Keeps.pure _

theorem redactCandidates_keeps
    (recorded : SurvivesAppend env plan.IsReceipt invariant)
    (copied : SurvivesCandidates invariant) (freshId : Nat → String)
    (now : String) (index : Nat) (candidateIds : List String) :
    Keeps invariant
      (redactCandidates env plan freshId now index candidateIds) := by
  induction candidateIds generalizing index with
  | nil => exact Keeps.pure _
  | cons candidateId rest induction =>
      unfold redactCandidates
      apply Keeps.bind (redactCandidate_keeps recorded copied _ _ _)
      intro written
      apply Keeps.bind (induction (index + 1))
      intro later
      exact Keeps.pure _

end Copies

/-- The transaction puts the rewritten row in place and records it with its
copies, or does nothing. -/
theorem commitRedaction_triple {plan : RedactionPlan}
    {updated : CuratedMemory} {freshId : Nat → String} {now : String}
    (replaced : ∀ store, before store →
      after
        { store with
          curatedMemories := store.curatedMemories.replace updated })
    (recorded : SurvivesAppend env plan.IsReceipt after)
    (copied : SurvivesCandidates after) :
    Triple before (commitRedaction env plan updated freshId now)
      (fun _ store => before store ∨ after store) (fun _ => before) := by
  have receipted : Keeps after
      (AuditRepository.record env
        (plan.event (freshId 0) plan.input.memoryId plan.memoryDetails
          now)) := by
    apply AuditRepository.record_keeps recorded
    intro event parsed
    obtain ⟨tenantId, reason, -, rfl⟩ := AuditEvent.parse_eq_ok parsed
    exact ⟨rfl, .inl ⟨rfl, rfl⟩⟩
  have written : Triple before (writeRedaction env plan updated freshId now)
      (fun _ => after) (fun _ _ => True) := by
    unfold writeRedaction
    apply Triple.bind (MemoryRepository.update_triple replaced)
    intro _
    have later : Keeps after
        (do
          AuditRepository.record env
            (plan.event (freshId 0) plan.input.memoryId plan.memoryDetails now)
          let later ← redactCandidates env plan freshId now 1
            plan.report.candidateIds
          pure (freshId 0 :: later)) := by
      apply Keeps.bind receipted
      intro _
      apply Keeps.bind (redactCandidates_keeps recorded copied _ _ _ _)
      intro _
      exact Keeps.pure _
    exact Triple.anyFailure later
  unfold commitRedaction
  apply Triple.tryCatch
  · apply Triple.bind
    · exact Triple.transaction written fun _ _ start => start
    · intro auditEventIds
      exact Triple.pure _ fun _ => .inr
  · intro error
    cases error
    case disclosureRejected category => exact Triple.pure _ fun _ => .inl
    all_goals exact Triple.throw _ fun _ start => start

/-- From one store, the transaction ends in that store or in `after`. -/
theorem commitRedaction_finalState {plan : RedactionPlan}
    {updated : CuratedMemory} {freshId : Nat → String} {now : String}
    {store : Store}
    (replaced :
      after
        { store with
          curatedMemories := store.curatedMemories.replace updated })
    (recorded : SurvivesAppend env plan.IsReceipt after)
    (copied : SurvivesCandidates after) :
    finalState (commitRedaction env plan updated freshId now) store = store ∨
      after
        (finalState (commitRedaction env plan updated freshId now) store) := by
  have committed : Triple (· = store)
      (commitRedaction env plan updated freshId now)
      (fun _ current => current = store ∨ after current)
      (fun _ => (· = store)) := by
    apply commitRedaction_triple
    · intro current same
      rw [same]
      exact replaced
    · exact recorded
    · exact copied
  exact Triple.finalState committed (fun _ => .inl) rfl

end Registrar
