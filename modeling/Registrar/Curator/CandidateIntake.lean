import Registrar.Library.JsString
import Registrar.Store.CandidateRows
import Registrar.Store.Store

/-!
# Candidate intake

The boundary at which the service takes proposals in.  The texts of a proposal
are whatever the request held; the store keeps well-formed text only.
-/

namespace Registrar

open Program

/-- A candidate with the texts that the caller holds. -/
structure IntakeCandidate where
  id : String
  status : CandidateStatus
  source : MemorySource
  content : JsString
  title : JsString
  category : MemoryCategory
  trustLevel : TrustLevel
  author : Author
  tenantId : JsString
  metadata : ContentMetadata
  prePolicyFlags : PrePolicyFlags
  capturedAt : String
  origin : Option CandidateOrigin
  deriving DecidableEq

/-- The candidate as the text columns hold it. -/
def IntakeCandidate.stored (candidate : IntakeCandidate) :
    MemoryCandidate where
  id := candidate.id
  status := candidate.status
  source := candidate.source
  content := candidate.content.toWellFormed
  title := candidate.title.toWellFormed
  category := candidate.category
  trustLevel := candidate.trustLevel
  author := candidate.author
  tenantId := candidate.tenantId.toWellFormed
  metadata := candidate.metadata
  prePolicyFlags := candidate.prePolicyFlags
  capturedAt := candidate.capturedAt
  origin := candidate.origin

@[simp]
theorem IntakeCandidate.stored_content (candidate : IntakeCandidate) :
    candidate.stored.content = candidate.content.toWellFormed :=
  rfl

@[simp]
theorem IntakeCandidate.stored_tenantId (candidate : IntakeCandidate) :
    candidate.stored.tenantId = candidate.tenantId.toWellFormed :=
  rfl

def IntakeCandidate.ofStored (candidate : MemoryCandidate) :
    IntakeCandidate where
  id := candidate.id
  status := candidate.status
  source := candidate.source
  content := .ofString candidate.content
  title := .ofString candidate.title
  category := candidate.category
  trustLevel := candidate.trustLevel
  author := candidate.author
  tenantId := .ofString candidate.tenantId
  metadata := candidate.metadata
  prePolicyFlags := candidate.prePolicyFlags
  capturedAt := candidate.capturedAt
  origin := candidate.origin

/-- No text of the candidate changes when it is stored. -/
structure IntakeCandidate.WellFormed (candidate : IntakeCandidate) :
    Prop where
  content : candidate.content.WellFormed
  title : candidate.title.WellFormed
  tenantId : candidate.tenantId.WellFormed

def trimText (text : JsString) : JsString :=
  text.trim isTrimmedSpace

def IntakeCandidate.parse (candidate : IntakeCandidate) :
    Except SchemaIssue IntakeCandidate :=
  if (trimText candidate.content).points = [] then
    .error (nonEmptyIssue "content")
  else if (trimText candidate.title).points = [] then
    .error (nonEmptyIssue "title")
  else if (trimText candidate.tenantId).points = [] then
    .error (nonEmptyIssue "tenantId")
  else if ¬candidate.stored.BulkTrustLow then
    .error
      { path := "trustLevel"
        message :=
          "source 'bulk_import' requires trustLevel 'low' or 'untrusted' — " ++
          "a bulk digestion cannot claim curated-grade trust" }
  else
    .ok
      { candidate with
        content := trimText candidate.content
        title := trimText candidate.title
        tenantId := trimText candidate.tenantId }

/-- The bearer-token identity of the caller. -/
structure IntakeActorContext where
  actor : Option String
  role : Option ProposerRole
  tenants : Option (List JsString)

def invalidIntake (message : String) : RegistrarError :=
  .candidateIntake .invalid message none

def disallowedIntake (message : String) (code : Option String) :
    RegistrarError :=
  .candidateIntake .disallowed message code

/-- The identity that a token stands for, when it names an actor. -/
def IntakeActorContext.author? (ctx : IntakeActorContext) (path : String) :
    Except SchemaIssue (Option Author) :=
  match ctx.actor with
  | none => .ok none
  | some actor =>
      if actor = "" then .ok none
      else
        (parseNonEmpty path actor).map fun id =>
          some
            { type := .human
              id := id
              name := none }

def noFlags : PrePolicyFlags where
  potentialSecret := false
  lowConfidence := false
  duplicateSuspect := false

/-- The fields that a client is not trusted with come from its token. -/
def applyIntakeOverrides (candidate : IntakeCandidate)
    (ctx : IntakeActorContext) : Except SchemaIssue IntakeCandidate := do
  let author ← ctx.author? "author.id"
  IntakeCandidate.parse
    { candidate with
      author := author.getD candidate.author
      trustLevel :=
        if ctx.role = some .member then .untrusted else candidate.trustLevel
      tenantId :=
        match ctx.tenants with
        | some [tenant] => tenant
        | _ => candidate.tenantId
      prePolicyFlags := noFlags
      metadata :=
        match ctx.role with
        | some role =>
            { candidate.metadata with
              proposedByRole := some role }
        | none => candidate.metadata }

def defaultAllowedOriginChannels : List String := ["team-mcp", "local-mcp"]

def disclosureKind : DisclosureCategory → String
  | .pii => "PII"
  | .secret => "a credential / secret"
  | .compensation => "compensation / comp-split"

variable (env : Environment)

/-- The patterns of the disclosure filter treat an unpaired surrogate as they
treat the character that replaces it. -/
def prepareIntakeCandidate (data : Except String IntakeCandidate)
    (ctx : IntakeActorContext) (allowedChannels : List String) :
    Except RegistrarError IntakeCandidate :=
  match data with
  | .error complaint =>
      .error (invalidIntake ("Invalid candidate: " ++ complaint))
  | .ok payload =>
      match payload.parse with
      | .error issue =>
          .error (invalidIntake ("Invalid candidate: " ++ issue.message))
      | .ok parsed =>
          match parsed.origin.filter
              fun origin => origin.channel ∉ allowedChannels with
          | some origin =>
              .error (disallowedIntake
                ("Candidate rejected: origin channel '" ++ origin.channel ++
                  "' is not an authorized capture channel on this deployment.")
                (some "unrecognized_channel"))
          | none =>
              match applyIntakeOverrides parsed ctx with
              | .error issue => .error (.schema issue)
              | .ok candidate =>
                  match disclosureViolation env candidate.stored with
                  | some category =>
                      .error (disallowedIntake
                        ("Candidate rejected: content contains disallowed " ++
                          disclosureKind category ++ " material and cannot " ++
                          "enter the governed brain.") none)
                  | none => .ok candidate

inductive IntakeOutcome where
  | created
  | alreadyExists
  deriving DecidableEq, Repr

structure IntakeResult where
  candidate : IntakeCandidate
  intake : IntakeOutcome
  deriving DecidableEq

structure IntakeCall where
  data : Except String IntakeCandidate
  ctx : IntakeActorContext
  allowedChannels : List String
  now : String

def intakeActor : Author where
  type := .system
  id := ⟨"intake", by decide +kernel, by simp⟩
  name := none

def proposalReceipt (candidate : IntakeCandidate) (contentHash : String)
    (ctx : IntakeActorContext) (actor : Author) (instant : String) :
    AuditEventInput where
  id := deriveAuditEventId env candidate.id AuditAction.proposed.text ""
  action := .proposed
  memoryId := candidate.id
  tenantId := candidate.tenantId.toWellFormed
  actor := actor
  reason := some "Candidate proposed to the governed inbox"
  details :=
    [("candidateId", .string candidate.id),
      ("contentHash", .string contentHash),
      ("tenantId", .string candidate.tenantId.toWellFormed),
      ("proposedByRole",
        .string ((ctx.role.map ProposerRole.text).getD "unknown")),
      ("at", .string instant)]
  timestamp := instant

def writeIntakeReceipt (candidate : IntakeCandidate) (contentHash : String)
    (ctx : IntakeActorContext) (now : String) : StoreM AuditEvent := do
  let author ← orSchemaError (ctx.author? "actor.id")
  let event ← orSchemaError (AuditEvent.parse
    (proposalReceipt env candidate contentHash ctx (author.getD intakeActor)
      now))
  AuditRepository.insert env event
  return event

/-- What was written is read back and compared. -/
def checkRetained (candidate : IntakeCandidate) (contentHash : String)
    (receipt : AuditEvent) : StoreM PUnit := do
  let stored ← CandidateRepository.findById candidate.id
  let hash ← query fun store : Store =>
    (store.candidates.find? candidate.id).map CandidateRow.contentHash
  ensure (stored.map IntakeCandidate.ofStored = some candidate ∧
      hash = some contentHash)
    (.error "Candidate intake did not retain the canonical candidate")
  let actual ← query fun store : Store =>
    (AuditRepository.findByMemoryAndTenant store.auditEvents candidate.id
      candidate.tenantId.toWellFormed).find? (·.id = receipt.id)
  ensure (actual.map (·.json.canonical) = some receipt.json.canonical)
    (.error
      "Candidate intake did not retain its canonical proposal receipt")

/-- The writes of an accepted proposal. -/
def landCandidate (candidate : IntakeCandidate) (ctx : IntakeActorContext)
    (now : String) : StoreM IntakeResult := do
  let contentHash := computeContentHash env candidate.content.toWellFormed
  CandidateRepository.insert env candidate.stored contentHash none
  let receipt ← writeIntakeReceipt env candidate contentHash ctx now
  checkRetained candidate contentHash receipt
  return { candidate := candidate
           intake := .created }

def CandidateRepository.findByContentHashAndTenant (hash tenantId : String) :
    StoreM (Option MemoryCandidate) := do
  let found ← query fun store : Store =>
    (store.candidates.rows.find? fun row =>
      row.contentHash = hash && row.candidate.tenantId = tenantId).mapM
        fun row => row.candidate.parse
  orSchemaError found

/-- The checks against the store, by id, by content and by redaction. -/
def intakePrepared (candidate : IntakeCandidate) (ctx : IntakeActorContext)
    (now : String) : StoreM IntakeResult := do
  match ← CandidateRepository.findById candidate.id with
  | some byId =>
      if JsString.ofString byId.tenantId = candidate.tenantId then
        pure
          { candidate := .ofStored byId
            intake := .alreadyExists }
      else
        throw (invalidIntake ("Candidate id " ++ candidate.id ++
          " already exists for another tenant; refuse to intake."))
  | none =>
      match ← CandidateRepository.findByContentHashAndTenant
          (computeContentHash env candidate.content.toWellFormed)
          candidate.tenantId.toWellFormed with
      | some existing =>
          pure
            { candidate := .ofStored existing
              intake := .alreadyExists }
      | none =>
          let redacted ← query fun store : Store =>
            CandidateRepository.isRedactedContent env store.auditEvents
              candidate.content.toWellFormed candidate.tenantId.toWellFormed
          ensure (redacted = false)
            (disallowedIntake
              ("Candidate rejected: this exact content was removed by a " ++
                "governed redaction and cannot re-enter the governed brain.")
              (some "redacted_content"))
          landCandidate env candidate ctx now

def intakeValidated (call : IntakeCall) : StoreM IntakeResult :=
  match prepareIntakeCandidate env call.data call.ctx call.allowedChannels with
  | .error error => throw error
  | .ok candidate => intakePrepared env candidate call.ctx call.now

/-- The audited intake: one immediate transaction. -/
def intake (call : IntakeCall) : StoreM IntakeResult :=
  transaction (intakeValidated env call)

end Registrar
