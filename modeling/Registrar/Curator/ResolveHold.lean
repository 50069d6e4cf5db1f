import Registrar.Curator.Curator

/-!
# Resolving a hold

A person with standing releases or rejects a held candidate.  A release runs
the whole gate again; the memory, the status and the receipts of the resolution
are one transaction.
-/

namespace Registrar

open Program

inductive ResolveHoldRefusalCode where
  | missingReason
  | missingActor
  | notHuman
  | forbiddenRole
  | unknownResolution
  | notOnHold
  | audienceAboveStanding
  | holdExpired
  | missingAudience
  | unknownAudience
  | widerThanRecommended
  | gateRefused
  | stillFlagged
  deriving DecidableEq, Repr

structure ResolveHoldInput where
  candidateId : String
  tenantId : String
  resolution : String
  audience : Option String
  acknowledgeWider : Bool
  actor : RequestedActor
  role : String
  reason : String
  dryRun : Bool
  deriving DecidableEq

inductive ResolveHoldResult where
  | rejected (candidateId : String) (auditEventId : Option String)
      (dryRun : Bool)
  | released (candidateId : String) (audience : Audience)
      (memoryId : Option String) (overridesRecommendation : Bool)
      (auditEventId : Option String) (dryRun : Bool)
  | refused (candidateId : String) (code : ResolveHoldRefusalCode)
      (error : String) (expiredNow : Bool)
  deriving DecidableEq

/-- The gate configuration of a release. -/
structure ResolveHoldOptions where
  originSecret : Option String
  withLinks : Bool

def ResolveHoldInput.refuse (input : ResolveHoldInput)
    (code : ResolveHoldRefusalCode) (error : String) : ResolveHoldResult :=
  .refused input.candidateId code error false

def ReaderRole.text : ReaderRole → String
  | .member => "member"
  | .admin => "admin"
  | .owner => "owner"

/-- The roles with standing to resolve a hold. -/
def resolverRoles : List ReaderRole := [.admin, .owner]

/-- The refusals that depend on the request alone, or its checked parts. -/
def checkResolver (input : ResolveHoldInput) :
    Except ResolveHoldResult (Author × ReaderRole × HoldVerdict) :=
  if trim input.reason = "" then
    .error (input.refuse .missingReason
      "A reason is required to resolve a hold")
  else
    match input.actor.author? with
    | none =>
        .error (input.refuse .missingActor
          "An actor is required to resolve a hold")
    | some actor =>
        if actor.type ≠ .human then
          .error (input.refuse .notHuman
            ("Only a human resolves a hold. A model or agent may attach a " ++
              "recommendation; it cannot release or reject."))
        else
          match resolverRoles.find? (·.text = input.role),
              HoldVerdict.ofText? input.resolution with
          | none, _ =>
              .error (input.refuse .forbiddenRole
                "Resolving a hold requires admin or owner standing")
          | _, none =>
              .error (input.refuse .unknownResolution
                ("Unknown resolution \"" ++ input.resolution ++
                  "\" (expected release or reject)"))
          | some role, some verdict => .ok (actor, role, verdict)

/-- An unknown tier ranks as the narrowest. -/
def rankOf (audience : String) : Nat :=
  match Audience.ofText? audience with
  | some audience => audienceRank audience
  | none => 9007199254740991

variable (env : Environment)

def rejectHeld (input : ResolveHoldInput) (hold : ActiveHold) (actor : Author)
    (role : ReaderRole) (now : String) : StoreM ResolveHoldResult :=
  if input.dryRun then pure (.rejected input.candidateId none true)
  else transaction do
    let _ ← CandidateRepository.updateStatus input.candidateId .rejected
      input.tenantId
    let auditEventId ← writeHoldResolved env hold .rejected actor input.reason
      [("resolverRole", .string role.text)] now
    pure (.rejected input.candidateId (some auditEventId) false)

/-- The audience that the human chose, unless the choice is refused. -/
def chosenAudience (input : ResolveHoldInput) (hold : ActiveHold) :
    Except ResolveHoldResult Audience :=
  match input.audience.filter (trim · ≠ "") with
  | none =>
      .error (input.refuse .missingAudience
        "A release needs the audience the memory is for")
  | some requested =>
      match Audience.ofText? requested with
      | none =>
          .error (input.refuse .unknownAudience
            ("Unknown audience \"" ++ requested ++ "\" (expected one of: " ++
              audienceChoices ++ ")"))
      | some audience =>
          if audienceRank audience < rankOf hold.recommendedAudience ∧
              input.acknowledgeWider = false then
            .error (input.refuse .widerThanRecommended
              ("Audience \"" ++ audience.text ++
                "\" is wider than the recommended \"" ++
                hold.recommendedAudience ++ "\". Release at the " ++
                "recommended tier, or acknowledge the wider audience " ++
                "explicitly."))
          else .ok audience

/-- The curator that a release runs. -/
def releaseConfig (input : ResolveHoldInput) (options : ResolveHoldOptions) :
    CuratorConfig where
  tenantId := input.tenantId
  dryRun := input.dryRun
  supersessionThreshold := none
  supersessionMode := .apply
  maxSupersedesPerPromotion := none
  maxSupersedesPerRun := none
  suppressRejectionReceipts := true
  originSecret := options.originSecret
  holdLimits :=
    { ttlDays := none
      maxActiveHolds := none }
  withLinks := options.withLinks

/-- The refusal for a candidate that the gate did not promote. -/
def gateRefusal (input : ResolveHoldInput) (result : CurationResult) :
    ResolveHoldResult :=
  match result.pipelineResult.filter fun _ => result.outcome = .flagged with
  | some pipelineResult =>
      input.refuse .stillFlagged
        ("Rules a hold does not cover still flag the candidate: " ++
          joinComma (unresolvedFlagsAfterRelease pipelineResult) ++
          ". Nothing was promoted.")
  | none =>
      input.refuse .gateRefused
        ("The deterministic gate refused the candidate: " ++ result.reason ++
          ". Nothing was promoted.")

def releaseDetails (audience : Audience) (overridesRecommendation : Bool)
    (role : ReaderRole) (result : CurationResult) : List (String × Json) :=
  [("audience", .string audience.text),
    ("overridesRecommendation", .bool overridesRecommendation),
    ("resolverRole", .string role.text)] ++
    (result.memoryId.toList.map fun memoryId =>
      ("memoryId", .string memoryId)) ++
    [("resolvedFlags", .array (((result.pipelineResult.map
      PipelineResult.flags).getD []).map .string))]

/-- The body of a release, inside the transaction. -/
def runRelease (input : ResolveHoldInput) (options : ResolveHoldOptions)
    (hold : ActiveHold) (released : MemoryCandidate) (audience : Audience)
    (actor : Author) (role : ReaderRole) (draw : Draw) :
    StoreM ResolveHoldResult := do
  let (result, _) ← Curator.processSingle env (releaseConfig input options)
    .fresh released none
    (some
      { promotedBy := actor
        promotionReason := "Released from hold: " ++ input.reason }) draw
  let overrides :=
    decide (audienceRank audience < rankOf hold.recommendedAudience)
  if result.outcome ≠ .promoted then pure (gateRefusal input result)
  else if input.dryRun then
    pure (.released input.candidateId audience result.memoryId overrides none
      true)
  else do
    let _ ← CandidateRepository.updateStatus input.candidateId .promoted
      input.tenantId
    let auditEventId ← writeHoldResolved env hold .released actor input.reason
      (releaseDetails audience overrides role result) draw.now
    pure (.released input.candidateId audience result.memoryId overrides
      (some auditEventId) false)

def MemoryCandidate.withAudience (candidate : MemoryCandidate)
    (audience : Audience) :
    MemoryCandidate :=
  { candidate with
    metadata := { candidate.metadata with audience := some audience } }

/-- The release of a hold: the candidate is read again, with the chosen
audience, and passes the disclosure floor before the gate runs. -/
def releaseHeld (input : ResolveHoldInput) (options : ResolveHoldOptions)
    (hold : ActiveHold) (actor : Author) (role : ReaderRole) (draw : Draw) :
    StoreM ResolveHoldResult :=
  match chosenAudience input hold with
  | .error result => pure result
  | .ok audience => do
      let stored ← CandidateRepository.findById input.candidateId
      match stored with
      | none =>
          pure (input.refuse .notOnHold
            ("Candidate " ++ input.candidateId ++ " is not on hold"))
      | some stored =>
          let released ← orSchemaError
            (stored.withAudience audience).parse
          if (disclosureViolation env released).isSome then
            pure (input.refuse .gateRefused
              ("The disclosure gate refused the candidate: its content " ++
                "holds disallowed material. Nothing was promoted."))
          else
            let run := runRelease env input options hold released audience
              actor role draw
            if input.dryRun then run else transaction run

/-- Past its bound a hold can only close without promotion. -/
def closeExpiredHold (input : ResolveHoldInput) (hold : ActiveHold)
    (now : String) : StoreM ResolveHoldResult := do
  when (input.dryRun = false) do
    let _ ← expireHold env hold now
  pure (.refused input.candidateId .holdExpired
    ("The hold expired at " ++ hold.expiresAt ++ "; the candidate " ++
      (if input.dryRun then "would be" else "was") ++ " closed unpromoted")
    !input.dryRun)

def resolveOpenHold (input : ResolveHoldInput) (options : ResolveHoldOptions)
    (hold : ActiveHold) (actor : Author) (role : ReaderRole)
    (verdict : HoldVerdict) (draw : Draw) : StoreM ResolveHoldResult :=
  if !isAudienceVisibleToRole (some hold.declaredAudience) role then
    pure (input.refuse .audienceAboveStanding
      ("The held candidate declares audience \"" ++
        hold.declaredAudience.text ++ "\", above " ++ role.text ++
        " standing"))
  else if hold.expired then closeExpiredHold env input hold draw.now
  else
    match verdict with
    | .reject => rejectHeld env input hold actor role draw.now
    | .release => releaseHeld env input options hold actor role draw

def resolveHold (input : ResolveHoldInput) (options : ResolveHoldOptions)
    (draw : Draw) : StoreM ResolveHoldResult :=
  match checkResolver input with
  | .error result => pure result
  | .ok (actor, role, verdict) => do
      let found ← query fun store : Store =>
        findActiveHold env store input.candidateId input.tenantId draw.now
      match found with
      | none =>
          pure (input.refuse .notOnHold
            ("Candidate " ++ input.candidateId ++
              " is not on hold in tenant " ++ input.tenantId))
      | some hold =>
          resolveOpenHold env input options hold actor role verdict draw

end Registrar
