import Registrar.Curator.Promoter

/-!
# Human-escalation holds

A candidate is on hold while it is quarantined and its log carries a `held`
receipt but no `hold_resolved` one.
-/

namespace Registrar

open Program

def holdStatus : CandidateStatus := .quarantined

def defaultHoldTtlDays : ℚ := 14

def defaultMaxActiveHolds : Nat := 100

def maxRecommendationsPerHold : Nat := 10

def holdGateActor : Author where
  type := .system
  id := ⟨"hold-gate", by decide +kernel, by simp⟩
  name := none

def holdExpiryActor : Author where
  type := .system
  id := ⟨"hold-expiry", by decide +kernel, by simp⟩
  name := none

def msPerDay : ℚ := 86400000

structure HoldLimits where
  ttlDays : Option ℚ
  maxActiveHolds : Option ℚ
  deriving DecidableEq

def resolveTtlDays (limits : HoldLimits) : ℚ :=
  match limits.ttlDays with
  | some ttl => if 0 < ttl then ttl else defaultHoldTtlDays
  | none => defaultHoldTtlDays

def resolveMaxActiveHolds (limits : HoldLimits) : Nat :=
  match limits.maxActiveHolds with
  | some max =>
      if max.den = 1 ∧ 0 ≤ max then max.num.toNat else defaultMaxActiveHolds
  | none => defaultMaxActiveHolds

inductive HoldVerdict where
  | release
  | reject
  deriving DecidableEq, Repr

def HoldVerdict.text : HoldVerdict → String
  | .release => "release"
  | .reject => "reject"

def HoldVerdict.ofText? (text : String) : Option HoldVerdict :=
  [HoldVerdict.release, .reject].find? (·.text = text)

structure HoldRecommendation where
  auditEventId : String
  actor : Author
  verdict : HoldVerdict
  audience : Option String
  reasoning : String
  recommendedAt : String
  deriving DecidableEq

structure ActiveHold where
  candidateId : String
  tenantId : String
  title : String
  category : MemoryCategory
  authorId : String
  proposedByRole : Option ProposerRole
  declaredAudience : Audience
  recommendedAudience : String
  triggers : List String
  matchedPatterns : List String
  holdEventId : String
  heldAt : String
  expiresAt : String
  expired : Bool
  recommendations : List HoldRecommendation
  deriving DecidableEq

variable (env : Environment)

/-- An instant or a bound that cannot be read counts as elapsed. -/
def hasElapsed (expiresAt now : String) : Bool :=
  match env.dateParse expiresAt, env.dateParse now with
  | some expiry, some instant => expiry ≤ instant
  | _, _ => true

/-- The strings of a details field that holds an array. -/
def AuditEvent.detailTexts (event : AuditEvent) (name : String) :
    List String :=
  match Json.field? event.details name with
  | some (.array items) =>
      items.filterMap fun item =>
        match item with
        | .string text => some text
        | _ => none
  | _ => []

def toRecommendation (event : AuditEvent) : HoldRecommendation where
  auditEventId := event.id
  actor := event.actor
  verdict :=
    if event.detailText "verdict" = some "release" then .release else .reject
  audience := event.detailText "audience"
  reasoning := (event.reason.map NonEmptyString.value).getD ""
  recommendedAt := event.timestamp

def toActiveHold (candidate : MemoryCandidate) (held : AuditEvent)
    (recommendations : List AuditEvent) (now : String) : ActiveHold :=
  let expiresAt := (held.detailText "expiresAt").getD ""
  let declaredAudience := resolveAudience candidate.metadata.audience
  { candidateId := candidate.id
    tenantId := candidate.tenantId
    title := candidate.title
    category := candidate.category
    authorId := candidate.author.id.value
    proposedByRole := candidate.metadata.proposedByRole
    declaredAudience := declaredAudience
    recommendedAudience :=
      (held.detailText "recommendedAudience").getD declaredAudience.text
    triggers := held.detailTexts "triggers"
    matchedPatterns := held.detailTexts "matchedPatterns"
    holdEventId := held.id
    heldAt := held.timestamp
    expiresAt := expiresAt
    expired := hasElapsed env expiresAt now
    recommendations := recommendations.map toRecommendation }

/-- The open hold on a candidate, if it is on hold. -/
def findActiveHold (store : Store) (candidateId tenantId now : String) :
    Option ActiveHold :=
  match CandidateRepository.findCandidateSafe store.candidates candidateId with
  | none => none
  | some candidate =>
      if candidate.tenantId ≠ tenantId ∨ candidate.status ≠ holdStatus then
        none
      else
        let events := AuditRepository.findByMemoryAndTenant store.auditEvents
          candidateId tenantId
        match events.find? (·.action = .held) with
        | none => none
        | some held =>
            if events.any (·.action = .holdResolved) then none
            else
              some (toActiveHold env candidate held
                (events.filter (·.action = .holdRecommended)) now)

/-- Soonest expiry first, then by candidate. -/
def holdBefore (left right : ActiveHold) : Bool :=
  env.localeAtMost left.expiresAt right.expiresAt &&
    (!env.localeAtMost right.expiresAt left.expiresAt ||
      env.localeAtMost left.candidateId right.candidateId)

/-- Every open hold of a tenant. -/
def listActiveHolds (store : Store) (tenantId now : String) :
    List ActiveHold :=
  let eventsOf (action : AuditAction) : List AuditEvent :=
    AuditRepository.findByTenantAndAction store.auditEvents tenantId action
  let activeHold (held : AuditEvent) : Option ActiveHold :=
    if (eventsOf .holdResolved).any (·.memoryId = held.memoryId) then none
    else
      match CandidateRepository.findCandidateSafe store.candidates
          held.memoryId with
      | none => none
      | some candidate =>
          if candidate.tenantId ≠ tenantId ∨ candidate.status ≠ holdStatus
          then none
          else
            some (toActiveHold env candidate held
              ((eventsOf .holdRecommended).filter
                (·.memoryId = held.memoryId)) now)
  ((eventsOf .held).filterMap activeHold).insertionSort
    fun left right => holdBefore env left right

inductive PlaceHoldResult where
  | held (hold : ActiveHold)
  | alreadyHeld (hold : ActiveHold)
  | wouldHold (expiresAt : String)
  | capReached (active max : Nat)
  | notHoldable (reason : String)
  deriving DecidableEq

/-- Milliseconds as `Date` keeps them, without a fraction. -/
def truncateMs (value : ℚ) : Int :=
  if 0 ≤ value then value.floor else value.ceil

def holdExpiry (limits : HoldLimits) (now : String) :
    Except RegistrarError String :=
  match env.dateParse now with
  | none => .error (.error "Invalid time value")
  | some instant =>
      .ok (env.toISOString
        (truncateMs (instant + resolveTtlDays limits * msPerDay)))

def heldEvent (candidate : MemoryCandidate) (decision : HoldDecision)
    (limits : HoldLimits) (triggeredBy : Option Author)
    (expiresAt now : String) : AuditEventInput where
  id := deriveAuditEventId env candidate.id AuditAction.held.text ""
  action := .held
  memoryId := candidate.id
  tenantId := candidate.tenantId
  actor := holdGateActor
  reason := some ("Held for human review: " ++
    joinComma (decision.triggers.map HoldTrigger.text))
  details :=
    [("candidateId", .string candidate.id),
      ("triggers", .array (decision.triggers.map fun trigger =>
        .string trigger.text)),
      ("declaredAudience", .string decision.declaredAudience.text),
      ("recommendedAudience", .string decision.recommendedAudience.text),
      ("basis", .string decision.basis),
      ("matchedPatterns", .array (decision.matchedPatterns.map .string)),
      ("triggerRuleIds", .array (decision.triggerRuleIds.map .string)),
      ("otherFlags", .array (decision.otherFlags.map .string)),
      ("ttlDays", .number (env.numberText (resolveTtlDays limits))),
      ("expiresAt", .string expiresAt)] ++
      (triggeredBy.toList.map fun author => ("triggeredBy", author.json))
  timestamp := now

/-- Why the candidate cannot be held, if it cannot. -/
def holdObstacle (store : Store) (candidate : MemoryCandidate)
    (limits : HoldLimits) (now : String) : Option PlaceHoldResult :=
  match findActiveHold env store candidate.id candidate.tenantId now with
  | some hold => some (.alreadyHeld hold)
  | none =>
      let stored :=
        (CandidateRepository.findCandidateSafe store.candidates
          candidate.id).filter (·.tenantId = candidate.tenantId)
      match stored with
      | none =>
          some (.notHoldable "the candidate has no stored row to hold")
      | some stored =>
          let events := AuditRepository.findByMemoryAndTenant
            store.auditEvents candidate.id candidate.tenantId
          let active :=
            (listActiveHolds env store candidate.tenantId now).length
          let max := resolveMaxActiveHolds limits
          if stored.status ≠ .inbox ∧ stored.status ≠ holdStatus then
            some (.notHoldable ("the candidate is already '" ++
              stored.status.text ++ "' and cannot be held"))
          else if events.any (·.action = .held) then
            some (.notHoldable
              "an earlier hold on the candidate was resolved")
          else if max ≤ active then some (.capReached active max)
          else none

/-- The writes of a hold: the status and the receipt. -/
def writeHold (candidate : MemoryCandidate) (input : AuditEventInput)
    (now : String) : StoreM PlaceHoldResult := do
  let stored ← query fun store : Store =>
    CandidateRepository.findCandidateSafe store.candidates candidate.id
  let held ← orSchemaError (AuditEvent.parse input)
  let _ ← CandidateRepository.updateStatus candidate.id holdStatus
    candidate.tenantId
  AuditRepository.insert env held
  pure (.held (toActiveHold env (stored.getD candidate) held [] now))

/-- The body of the hold, inside the transaction. -/
def attemptHold (candidate : MemoryCandidate) (decision : HoldDecision)
    (limits : HoldLimits) (triggeredBy : Option Author)
    (expiresAt now : String) : StoreM PlaceHoldResult := do
  let obstacle ← query fun store : Store =>
    holdObstacle env store candidate limits now
  match obstacle with
  | some result => pure result
  | none =>
      writeHold env candidate
        (heldEvent env candidate decision limits triggeredBy expiresAt now) now

/-- A dry run looks for an obstacle and writes nothing. -/
def previewHold (candidate : MemoryCandidate) (limits : HoldLimits)
    (expiresAt now : String) : StoreM PlaceHoldResult :=
  query fun store : Store =>
    (holdObstacle env store candidate limits now).getD (.wouldHold expiresAt)

def placeHold (candidate : MemoryCandidate) (decision : HoldDecision)
    (limits : HoldLimits) (triggeredBy : Option Author) (dryRun : Bool)
    (now : String) : StoreM PlaceHoldResult :=
  match holdExpiry env limits now with
  | .error error => throw error
  | .ok expiresAt =>
      if dryRun then previewHold env candidate limits expiresAt now
      else
        transaction
          (attemptHold env candidate decision limits triggeredBy expiresAt now)

inductive HoldRecommendRefusalCode where
  | notOnHold
  | holdExpired
  | missingReasoning
  | missingActor
  | unknownVerdict
  | unknownAudience
  | recommendationCap
  deriving DecidableEq, Repr

/-- Someone as a request names them, the id unchecked. -/
structure RequestedActor where
  type : AuthorType
  id : String
  name : Option NonEmptyString
  deriving DecidableEq

def RequestedActor.author? (actor : RequestedActor) : Option Author :=
  (NonEmptyString.parse? actor.id).map fun id =>
    { type := actor.type
      id := id
      name := actor.name }

structure RecommendOnHoldInput where
  candidateId : String
  tenantId : String
  actor : RequestedActor
  verdict : String
  audience : Option String
  reasoning : String
  deriving DecidableEq

inductive RecommendOnHoldResult where
  | ok (candidateId auditEventId : String) (duplicate : Bool)
  | refused (candidateId : String) (code : HoldRecommendRefusalCode)
      (error : String)
  deriving DecidableEq

def recommendationEvent (input : RecommendOnHoldInput) (actor : Author)
    (verdict : HoldVerdict) (hold : ActiveHold) (freshId now : String) :
    AuditEventInput where
  id := freshId
  action := .holdRecommended
  memoryId := input.candidateId
  tenantId := input.tenantId
  actor := actor
  reason := some input.reasoning
  details :=
    [("candidateId", .string input.candidateId),
      ("holdEventId", .string hold.holdEventId),
      ("verdict", .string verdict.text)] ++
      (input.audience.toList.map fun audience =>
        ("audience", .string audience))
  timestamp := now

/-- What stands against a new recommendation, or the hold it goes to. -/
def recommendationTarget (store : Store) (input : RecommendOnHoldInput)
    (verdict : HoldVerdict) (now : String) :
    Except RecommendOnHoldResult ActiveHold :=
  match findActiveHold env store input.candidateId input.tenantId now with
  | none =>
      .error (.refused input.candidateId .notOnHold
        ("Candidate " ++ input.candidateId ++ " is not on hold"))
  | some hold =>
      if hold.expired then
        .error (.refused input.candidateId .holdExpired
          ("The hold on candidate " ++ input.candidateId ++ " has expired"))
      else
        match hold.recommendations.find? fun earlier =>
            earlier.actor.id.value = input.actor.id &&
              earlier.verdict = verdict &&
              earlier.audience = input.audience with
        | some same =>
            .error (.ok input.candidateId same.auditEventId true)
        | none =>
            if maxRecommendationsPerHold ≤ hold.recommendations.length then
              .error (.refused input.candidateId .recommendationCap
                ("The hold already carries " ++
                  toString maxRecommendationsPerHold ++ " recommendations"))
            else .ok hold

/-- The body of a recommendation, inside the transaction. -/
def attemptRecommendation (input : RecommendOnHoldInput) (actor : Author)
    (verdict : HoldVerdict) (freshId now : String) :
    StoreM RecommendOnHoldResult := do
  let target ← query fun store : Store =>
    recommendationTarget env store input verdict now
  match target with
  | .error result => pure result
  | .ok hold =>
      AuditRepository.record env
        (recommendationEvent input actor verdict hold freshId now)
      pure (.ok input.candidateId freshId false)

def audienceChoices : String :=
  joinComma ([Audience.tenant, .admins, .owner].map Audience.text)

/-- The refusals that depend on the request alone, or its checked parts. -/
def checkRecommendation (input : RecommendOnHoldInput) :
    Except RecommendOnHoldResult (Author × HoldVerdict) :=
  let refuse := RecommendOnHoldResult.refused input.candidateId
  if trim input.reasoning = "" then
    .error (refuse .missingReasoning "A recommendation needs its reasoning")
  else
    match input.actor.author?, HoldVerdict.ofText? input.verdict with
    | none, _ =>
        .error (refuse .missingActor "A recommendation needs an actor")
    | _, none =>
        .error (refuse .unknownVerdict ("Unknown verdict \"" ++
          input.verdict ++ "\" (expected release or reject)"))
    | some actor, some verdict =>
        match input.audience.filter fun audience =>
            (Audience.ofText? audience).isNone with
        | some audience =>
            .error (refuse .unknownAudience ("Unknown audience \"" ++
              audience ++ "\" (expected one of: " ++ audienceChoices ++ ")"))
        | none => .ok (actor, verdict)

/-- Attach a recommendation to an open hold; nothing but a receipt is
written. -/
def recommendOnHold (input : RecommendOnHoldInput) (freshId now : String) :
    StoreM RecommendOnHoldResult :=
  match checkRecommendation input with
  | .error result => pure result
  | .ok (actor, verdict) =>
      transaction (attemptRecommendation env input actor verdict freshId now)

inductive HoldResolution where
  | released
  | rejected
  | expired
  deriving DecidableEq, Repr

def HoldResolution.text : HoldResolution → String
  | .released => "released"
  | .rejected => "rejected"
  | .expired => "expired"

def resolvedEvent (hold : ActiveHold) (resolution : HoldResolution)
    (actor : Author) (reason : String) (details : List (String × Json))
    (now : String) : AuditEventInput where
  id := deriveAuditEventId env hold.candidateId AuditAction.holdResolved.text ""
  action := .holdResolved
  memoryId := hold.candidateId
  tenantId := hold.tenantId
  actor := actor
  reason := some reason
  details :=
    [("candidateId", .string hold.candidateId),
      ("holdEventId", .string hold.holdEventId),
      ("resolution", .string resolution.text),
      ("declaredAudience", .string hold.declaredAudience.text),
      ("recommendedAudience", .string hold.recommendedAudience)] ++ details
  timestamp := now

/-- The receipt that ends a hold, inside the transaction that changes the
status. -/
def writeHoldResolved (hold : ActiveHold) (resolution : HoldResolution)
    (actor : Author) (reason : String) (details : List (String × Json))
    (now : String) : StoreM String := do
  let input := resolvedEvent env hold resolution actor reason details now
  AuditRepository.record env input
  pure input.id

/-- Close one expired hold: the candidate is rejected, never promoted. -/
def expireHold (hold : ActiveHold) (now : String) : StoreM String :=
  transaction do
    let _ ← CandidateRepository.updateStatus hold.candidateId .rejected
      hold.tenantId
    writeHoldResolved env hold .expired holdExpiryActor
      ("Hold expired unresolved at " ++ hold.expiresAt ++ ": not promoted")
      [("expiresAt", .string hold.expiresAt)] now

structure ExpiredHold where
  candidateId : String
  expiresAt : String
  auditEventId : Option String
  deriving DecidableEq, Repr

def closeExpired (dryRun : Bool) (now : String) (hold : ActiveHold) :
    StoreM ExpiredHold := do
  let auditEventId ←
    if dryRun then pure none else some <$> expireHold env hold now
  pure
    { candidateId := hold.candidateId
      expiresAt := hold.expiresAt
      auditEventId := auditEventId }

/-- Close every hold of a tenant whose bound has elapsed, each on its own. -/
def expireHolds (tenantId : String) (dryRun : Bool) (now : String) :
    StoreM (List ExpiredHold) := do
  let holds ← query fun store : Store =>
    (listActiveHolds env store tenantId now).filter (·.expired)
  holds.mapM (closeExpired env dryRun now)

end Registrar
