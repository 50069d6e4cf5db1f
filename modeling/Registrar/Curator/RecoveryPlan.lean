import Registrar.Curator.CandidateIntake
import Registrar.Curator.RecoverySchemas

/-!
# Recovery plans

A plan binds memories of one tenant to the proposals that recover them for
another.  The planner writes it from the store, and the validator reads it back
against a digest that was reviewed apart from it.
-/

namespace Registrar.Recovery

open Json

variable (env : RecoveryEnvironment)

def require (condition : Prop) [Decidable condition] (error : RegistrarError) :
    Except RegistrarError Unit :=
  if condition then .ok () else .error error

/-- `schema.parse(value)` -/
def parse (schema : Schema) (path : String) (value : Option Json) :
    Except RegistrarError Json :=
  match value.bind schema.parse with
  | some parsed => .ok parsed
  | none =>
      .error (.schema
        { path := path
          message := "Invalid input" })

/-- A property that the schema of a string accepts. -/
def requireText (schema : Schema) (input : Json) (name : String) :
    Except RegistrarError Unit := do
  let _ ← parse schema name (input.get? name)
  return ()

/-- The text of a property that has been checked. -/
def textOf (value : Json) (name : String) : String :=
  (value.string? name).getD ""

/-- `JSON.parse(JSON.stringify(value))` -/
def jsonValue (value : Json) : Except RegistrarError Json :=
  match Json.parse value.stringify with
  | some parsed => .ok parsed
  | none => .error (.error "Unexpected token in JSON")

def digest (value : Json) : String :=
  computeContentHash env.toEnvironment value.canonical

def importRulesDigest : String :=
  digest env env.importRules

def memorySnapshotDigest (memory : Json) : Except RegistrarError String := do
  let parsed ← parse (curatedMemory env) "" (some memory)
  return digest env parsed

def candidateSnapshotDigest (candidate : Json) :
    Except RegistrarError String := do
  let parsed ← parse (memoryCandidate env) "" (some candidate)
  return digest env parsed

def audienceRank? : String → Option Nat
  | "tenant" => some 0
  | "admins" => some 1
  | "owner" => some 2
  | _ => none

def readerRoleClearance? : String → Option Nat
  | "member" => some 0
  | "admin" => some 1
  | "owner" => some 2
  | _ => none

def isAudienceVisibleToRole (audience role : Option String) : Bool :=
  match role.bind readerRoleClearance?, audienceRank? (audience.getD "tenant")
  with
  | some clearance, some rank => rank ≤ clearance
  | _, _ => false

/-- `isAbsolute(path) && normalize(path) === path` -/
def isNormalizedAbsolute (path : String) : Bool :=
  match splitText '/' path with
  | "" :: segments =>
      decide (segments ≠ []) &&
        segments.dropLast.all (fun segment => decide (segment ≠ "")) &&
        segments.all fun segment => decide (segment ≠ "." ∧ segment ≠ "..")
  | _ => false

def authorityError : RegistrarError :=
  .error ("Recovery plan requires distinct tenants and declared human " ++
    "admin/owner authority and reason")

def locatorError : RegistrarError :=
  .error
    "Recovery plan requires an explicit normalized absolute store locator"

/-- The text does not vanish when it is trimmed. -/
def isSolid (text : String) : Bool :=
  decide (trim text ≠ "")

def requireAuthority (input : Json) : Except RegistrarError Unit := do
  requireText (uuid env) input "runId"
  requireText (isoDatetime env) input "createdAt"
  requireText tenantId input "sourceTenantId"
  requireText tenantId input "targetTenantId"
  let _ ← parse author "actor" (input.get? "actor")
  require
    ((input.get? "actor").bind (·.string? "type") = some "human" ∧
      ((input.get? "actor").bind (·.string? "id")).any isSolid ∧
      (input.string? "role" = some "admin" ∨
        input.string? "role" = some "owner") ∧
      (input.string? "reason").any isSolid ∧
      input.string? "sourceTenantId" ≠ input.string? "targetTenantId")
    authorityError
  require
    ((input.string? "storeLocator").any fun locator =>
      locator = ":memory:" || isNormalizedAbsolute locator)
    locatorError

structure RecoverySnapshotBinding where
  id : String
  snapshotDigest : String
  deriving DecidableEq

def RecoverySnapshotBinding.json (binding : RecoverySnapshotBinding) : Json :=
  .object
    [("id", .string binding.id),
      ("snapshotDigest", .string binding.snapshotDigest)]

def bindingOf (value : Json) : RecoverySnapshotBinding where
  id := textOf value "id"
  snapshotDigest := textOf value "snapshotDigest"

/-- Every binding is well formed, and none is of an id met before. -/
def requireFresh : List Json → List String → Except RegistrarError Unit
  | [], _ => .ok ()
  | binding :: rest, ids => do
      requireText (uuid env) binding "id"
      requireText (sha256Hash env) binding "snapshotDigest"
      require (textOf binding "id" ∉ ids)
        (.error "Duplicate or overlapping recovery binding")
      requireFresh rest (textOf binding "id" :: ids)

def requireBindings (selections exclusions : Option Json) :
    Except RegistrarError Unit :=
  match selections, exclusions with
  | some (.array selections), some (.array exclusions) => do
      require
        (1 ≤ selections.length ∧ selections.length ≤ 100 ∧
          exclusions.length ≤ 100)
        bindingsError
      requireFresh env (selections ++ exclusions) []
  | _, _ => .error bindingsError
where
  bindingsError : RegistrarError :=
    .error ("Recovery plan requires one to one hundred selections and at " ++
      "most one hundred exclusions")

def sourceError : RegistrarError :=
  .error ("Recovery source or exclusion is foreign, nonactive, " ++
    "inaccessible or changed")

def requireSource (source : Json) (binding : RecoverySnapshotBinding)
    (input : Json) : Except RegistrarError Unit := do
  require
    (source.string? "id" = some binding.id ∧
      source.string? "tenantId" = input.string? "sourceTenantId" ∧
      source.string? "lifecycle" = some "active" ∧
      source.string? "contentHash" =
        (source.string? "content").map (computeContentHash env.toEnvironment))
    sourceError
  let snapshot ← memorySnapshotDigest env source
  require
    (snapshot = binding.snapshotDigest ∧
      isAudienceVisibleToRole
        ((source.get? "metadata").bind (·.string? "audience"))
        (input.string? "role") = true)
    sourceError

structure IntakeActor where
  actor : Option String
  role : Option ProposerRole
  tenants : Option (List String)

def fieldsOf : Json → List (String × Json)
  | .object fields => fields
  | _ => []

/-- The fields that a client is not trusted with, apart from its author. -/
def serverFields (candidate : List (String × Json)) (ctx : IntakeActor) :
    List (String × Json) :=
  let flagged := setField "prePolicyFlags" noFlags candidate
  let staged :=
    match ctx.role, field? candidate "metadata" with
    | some role, some (.object metadata) =>
        setField "metadata"
          (.object (setField "proposedByRole" (.string role.text) metadata))
          flagged
    | _, _ => flagged
  let bound :=
    match ctx.tenants with
    | some [tenant] => setField "tenantId" (.string tenant) staged
    | _ => staged
  if ctx.role = some .member then
    setField "trustLevel" (.string "untrusted") bound
  else bound

def humanAuthor (id : String) : Json :=
  .object [("type", .string "human"), ("id", .string id)]

def intakeOverrides (candidate : List (String × Json)) (ctx : IntakeActor) :
    List (String × Json) :=
  match ctx.actor with
  | some actor =>
      if actor = "" then serverFields candidate ctx
      else setField "author" (humanAuthor actor) (serverFields candidate ctx)
  | none => serverFields candidate ctx

def applyIntakeOverrides (candidate : Json) (ctx : IntakeActor) :
    Except RegistrarError Json :=
  parse (memoryCandidate env) ""
    (some (.object (intakeOverrides (fieldsOf candidate) ctx)))

def enumConstrainedFields : List String :=
  ["status", "source", "category", "trustLevel", "confidence", "sensitivity",
    "type"]

/-- The strings outside the closed vocabularies, down to a number of levels. -/
def freeTexts : Nat → Json → List String
  | 0, _ => []
  | _ + 1, .string text => [text]
  | levels + 1, .array items => items.flatMap (freeTexts levels)
  | levels + 1, .object fields =>
      (fields.filter fun field => field.1 ∉ enumConstrainedFields).flatMap
        fun field => freeTexts levels field.2
  | _ + 1, _ => []

def collectFreeTextFields (value : Json) : List String :=
  freeTexts 17 value

/-- The channel that a candidate claims, when it is not an allowed one. -/
def unrecognizedChannel (candidate : Json) (allowedChannels : List String) :
    Option String :=
  ((candidate.get? "origin").bind (·.string? "channel")).filter
    fun channel => channel ∉ allowedChannels

def prepareIntakeCandidate (data : Json) (ctx : IntakeActor)
    (allowedChannels : List String) : Except RegistrarError Json :=
  match (memoryCandidate env).parse data with
  | none => .error (invalidIntake "Invalid candidate: Invalid input")
  | some parsed =>
      match unrecognizedChannel parsed allowedChannels with
      | some channel =>
          .error (disallowedIntake
            ("Candidate rejected: origin channel '" ++ channel ++
              "' is not an authorized capture channel on this deployment.")
            (some "unrecognized_channel"))
      | none => do
          let candidate ← applyIntakeOverrides env parsed ctx
          match scanDisclosureFields env.toEnvironment
              (collectFreeTextFields candidate) with
          | some category =>
              .error (disallowedIntake
                ("Candidate rejected: content contains disallowed " ++
                  disclosureKind category ++ " material and cannot " ++
                  "enter the governed brain.") none)
          | none => return candidate

def trustLevels : List String :=
  ["untrusted", "low", "medium", "high"]

/-- The source's trust up to the ceiling of its channel; a level that is not
listed is none. -/
def cappedTrust (source : Json) : Option Json :=
  let ceiling := if source.string? "source" = some "bulk_import" then 1 else 2
  match source.string? "trustLevel" with
  | some level =>
      if level ∈ trustLevels then
        (trustLevels[min (trustLevels.idxOf level) ceiling]?).map .string
      else none
  | none => none

def proposalId (source input : Json) : String :=
  deriveCandidateId env.toEnvironment ("recovery-" ++ textOf input "runId")
    (Json.object
      (optionalField "sourceId" (source.get? "id") ++
        optionalField "sourceTenantId" (input.get? "sourceTenantId") ++
        optionalField "targetTenantId" (input.get? "targetTenantId"))).stringify
    (textOf source "contentHash")

def proposalData (source input : Json) (origin : Option Json) :
    List (String × Json) :=
  [("schemaVersion", .string "1"), ("id", .string (proposalId env source input)),
    ("status", .string "inbox")] ++
  optionalField "source" (source.get? "source") ++
  optionalField "content" (source.get? "content") ++
  optionalField "title" (source.get? "title") ++
  optionalField "category" (source.get? "category") ++
  optionalField "trustLevel" (cappedTrust source) ++
  optionalField "author" (input.get? "actor") ++
  optionalField "tenantId" (input.get? "targetTenantId") ++
  optionalField "metadata" (source.get? "metadata") ++
  [("prePolicyFlags", noFlags)] ++
  optionalField "capturedAt" (input.get? "createdAt") ++
  optionalField "origin" origin

def proposalActor (input : Json) : IntakeActor where
  actor := (input.get? "actor").bind (·.string? "id")
  role := some .admin
  tenants := some [textOf input "targetTenantId"]

def proposalFor (source input : Json) (allowedChannels : List String)
    (origin : Option Json) : Except RegistrarError Json :=
  prepareIntakeCandidate env (.object (proposalData env source input origin))
    (proposalActor input) allowedChannels

abbrev JsonValue := { value : Json // value.IsValue }

structure CandidateKey where
  id : String
  contentHash : String
  tenantId : String
  deriving DecidableEq

/-- What the planner reads of the store, on one snapshot. -/
structure RecoveryStore where
  locator : String
  memories : List JsonValue
  candidates : List CandidateKey
  policies : List JsonValue
  isRedactedContent : String → String → Bool

def RecoveryStore.findById (store : RecoveryStore) (id : String) :
    Except RegistrarError (Option Json) :=
  match store.memories.find? fun row => row.1.string? "id" = some id with
  | none => .ok none
  | some row => (parse (curatedMemory env) "" (some row.1)).map some

def RecoveryStore.findByTenantAndLifecycle (store : RecoveryStore)
    (tenant lifecycle : String) : Except RegistrarError (List Json) :=
  (store.memories.filter fun row =>
    row.1.string? "tenantId" = some tenant &&
      row.1.string? "lifecycle" = some lifecycle).mapM
    fun row => parse (curatedMemory env) "" (some row.1)

def RecoveryStore.policiesOf (store : RecoveryStore) (tenant : String) :
    Except RegistrarError (List Json) :=
  (store.policies.filter fun row => row.1.string? "tenantId" = some tenant).mapM
    fun row => parse (governancePolicy env) "" (some row.1)

structure OriginOption where
  secret : String
  channel : String

structure RecoveryPlanOptions where
  allowedOriginChannels : Option (List String)
  origin : Option OriginOption

structure RecoveryPlanEntry where
  source : Json
  sourceSnapshotDigest : String
  proposal : Json
  candidateSnapshotDigest : String

def RecoveryPlanEntry.json (entry : RecoveryPlanEntry) : Json :=
  .object
    ([("source", entry.source),
        ("sourceSnapshotDigest", .string entry.sourceSnapshotDigest),
        ("proposal", entry.proposal),
        ("candidateSnapshotDigest", .string entry.candidateSnapshotDigest)] ++
      optionalField "minimumSensitivity" (entry.source.get? "sensitivity"))

def findSource (store : RecoveryStore) (binding : RecoverySnapshotBinding)
    (input : Json) (missing : String) : Except RegistrarError Json := do
  match ← store.findById env binding.id with
  | none => .error (.error missing)
  | some source => do
      requireSource env source binding input
      return source

def mintOrigin (origin : OriginOption) (proposal input : Json) : Json :=
  .object
    ([("tokenHmac", .string (env.hmacSha256 origin.secret
          (joinNames [textOf proposal "id", textOf proposal "tenantId",
            textOf proposal "capturedAt"]))),
        ("channel", .string origin.channel)] ++
      optionalField "mintedAt" (input.get? "createdAt"))

/-- The proposal, with a fresh origin where the options hold a key. -/
def attestedProposal (source input : Json) (allowedChannels : List String)
    (origin : Option OriginOption) : Except RegistrarError Json := do
  let proposal ← proposalFor env source input allowedChannels none
  match origin with
  | none => return proposal
  | some origin =>
      proposalFor env source input allowedChannels
        (some (mintOrigin env origin proposal input))

/-- A proposal as the supersession check meets it once it is promoted. -/
def asPromoted (proposal : Json) : Json :=
  .object (setField "promotedAt" (.string (textOf proposal "capturedAt"))
    (fieldsOf proposal))

def conflictError : RegistrarError :=
  .error ("Recovery candidate identity or target content conflicts; reuse " ++
    "an existing frozen plan for retry")

def planEntry (store : RecoveryStore) (input : Json)
    (allowedChannels : List String) (origin : Option OriginOption)
    (active : List Json) (earlier : List RecoveryPlanEntry)
    (binding : RecoverySnapshotBinding) :
    Except RegistrarError RecoveryPlanEntry := do
  let source ← findSource env store binding input "Recovery source is missing"
  let proposal ← attestedProposal env source input allowedChannels origin
  let hash := textOf source "contentHash"
  let target := textOf input "targetTenantId"
  require
    (hash ∉ earlier.map (fun entry => textOf entry.source "contentHash") ∧
      textOf proposal "id" ∉ store.candidates.map CandidateKey.id ∧
      (hash, target) ∉ store.candidates.map
        (fun row => (row.contentHash, row.tenantId)) ∧
      (some hash, some target) ∉ store.memories.map
        (fun row => (row.1.string? "contentHash", row.1.string? "tenantId")))
    conflictError
  require
    (store.isRedactedContent (textOf proposal "content")
      (textOf proposal "tenantId") = false)
    (.error "Recovery refuses redacted target content")
  require (env.importExcluded proposal = false)
    (.error "Recovery refuses default import exclusion")
  require
    (env.supersedes proposal
      (active ++ earlier.map fun entry => asPromoted entry.proposal) = false)
    (.error "Recovery plan refuses canonical supersession conflicts")
  let snapshot ← candidateSnapshotDigest env proposal
  return { source := source
           sourceSnapshotDigest := binding.snapshotDigest
           proposal := proposal
           candidateSnapshotDigest := snapshot }

def planEntries (store : RecoveryStore) (input : Json)
    (allowedChannels : List String) (origin : Option OriginOption)
    (active : List Json) :
    List RecoveryPlanEntry → List RecoverySnapshotBinding →
      Except RegistrarError (List RecoveryPlanEntry)
  | _, [] => .ok []
  | earlier, binding :: rest => do
      let entry ← planEntry env store input allowedChannels origin active
        earlier binding
      let others ← planEntries store input allowedChannels origin active
        (earlier ++ [entry]) rest
      return entry :: others

def isEnabled (policy : Json) : Bool :=
  match policy.get? "enabled" with
  | some (.bool enabled) => enabled
  | _ => false

def itemsOf : Option Json → List Json
  | some (.array items) => items
  | _ => []

/-- The plan without its digest. -/
def planPayload (input actor : Json) (exclusions : List RecoverySnapshotBinding)
    (entries : List RecoveryPlanEntry) (policies : List Json)
    (allowedChannels : List String) (originMode : String) :
    List (String × Json) :=
  [("schemaVersion", .number "1")] ++
  optionalField "runId" (input.get? "runId") ++
  optionalField "createdAt" (input.get? "createdAt") ++
  optionalField "storeLocator" (input.get? "storeLocator") ++
  optionalField "sourceTenantId" (input.get? "sourceTenantId") ++
  optionalField "targetTenantId" (input.get? "targetTenantId") ++
  [("actor", actor)] ++
  optionalField "role" (input.get? "role") ++
  optionalField "reason" (input.get? "reason") ++
  [("exclusions", .array (exclusions.map RecoverySnapshotBinding.json)),
    ("entries", .array (entries.map RecoveryPlanEntry.json)),
    ("policies", .array policies),
    ("policySnapshotDigest", .string (digest env (.array policies))),
    ("allowedOriginChannels", .array (allowedChannels.map .string)),
    ("originMode", .string originMode),
    ("defaultImportRulesDigest", .string (importRulesDigest env))]

/-- Read-only planning on one snapshot of the store. -/
def planMemoryRecovery (input : JsonValue) (store : RecoveryStore)
    (options : RecoveryPlanOptions) : Except RegistrarError Json := do
  requireAuthority env input.1
  requireBindings env (input.1.get? "selections") (input.1.get? "exclusions")
  let allowedChannels :=
    options.allowedOriginChannels.getD defaultAllowedOriginChannels
  require (allowedChannels.all isSolid)
    (.error "Invalid recovery origin allowlist")
  require (options.origin.all fun origin => isSolid origin.secret)
    (.error "Recovery origin requires an explicitly supplied nonempty secret")
  require (some store.locator = input.1.string? "storeLocator")
    (.error "Recovery store locator does not match connection")
  let policies ← store.policiesOf env (textOf input.1 "targetTenantId")
  require (policies.any isEnabled)
    (.error "Recovery requires existing enabled target policy")
  let exclusions := (itemsOf (input.1.get? "exclusions")).map bindingOf
  let _ ← exclusions.mapM fun binding =>
    findSource env store binding input.1 "Recovery exclusion is missing"
  let active ← store.findByTenantAndLifecycle env
    (textOf input.1 "targetTenantId") "active"
  let entries ← planEntries env store input.1 allowedChannels options.origin
    active [] ((itemsOf (input.1.get? "selections")).map bindingOf)
  let actor ← parse author "actor" (input.1.get? "actor")
  let payload := planPayload env input.1 actor exclusions entries policies
    allowedChannels
    (if options.origin.isSome then "fresh" else "unattested")
  jsonValue
    (.object (payload ++ [("digest", .string (digest env (.object payload)))]))

/-- An object of exactly these keys. -/
def record (value : Json) (keys : List String) :
    Except RegistrarError (List (String × Json)) :=
  match value with
  | .object fields =>
      if (fields.map Prod.fst).insertionSort (· ≤ ·) =
          keys.insertionSort (· ≤ ·) then .ok fields
      else .error recordError
  | _ => .error recordError
where
  recordError : RegistrarError :=
    .error "Invalid recovery plan object fields"

def planKeys : List String :=
  ["schemaVersion", "runId", "createdAt", "storeLocator", "sourceTenantId",
    "targetTenantId", "actor", "role", "reason", "exclusions", "entries",
    "policies", "policySnapshotDigest", "allowedOriginChannels", "originMode",
    "defaultImportRulesDigest", "digest"]

def entryKeys : List String :=
  ["source", "sourceSnapshotDigest", "proposal", "candidateSnapshotDigest",
    "minimumSensitivity"]

def validateExclusion (value : Json) :
    Except RegistrarError RecoverySnapshotBinding := do
  let _ ← record value ["id", "snapshotDigest"]
  requireText (uuid env) value "id"
  requireText (sha256Hash env) value "snapshotDigest"
  return bindingOf value

def proposalError : RegistrarError :=
  .error ("Recovery proposal does not match reviewed source, authority, " ++
    "origin or sensitivity")

/-- An entry that has passed, and the binding and hash it accounts for. -/
structure ValidEntry where
  json : Json
  binding : RecoverySnapshotBinding
  contentHash : String

def validateEntry (plan : Json) (allowedChannels : List String)
    (hashes : List String) (entry : Json) :
    Except RegistrarError ValidEntry := do
  let fields ← record entry entryKeys
  let source ← parse (curatedMemory env) "source" (field? fields "source")
  let proposal ← parse (memoryCandidate env) "proposal"
    (field? fields "proposal")
  requireText (sha256Hash env) entry "sourceSnapshotDigest"
  let binding : RecoverySnapshotBinding :=
    { id := textOf source "id"
      snapshotDigest := textOf entry "sourceSnapshotDigest" }
  requireSource env source binding plan
  let origin := proposal.get? "origin"
  require
    ((plan.string? "originMode" = some "fresh" ↔ origin.isSome = true) ∧
      origin.all (fun origin =>
        origin.string? "mintedAt" = plan.string? "createdAt") = true ∧
      entry.string? "minimumSensitivity" = source.string? "sensitivity" ∧
      textOf source "contentHash" ∉ hashes)
    proposalError
  let snapshot ← candidateSnapshotDigest env proposal
  requireText (sha256Hash env) entry "candidateSnapshotDigest"
  require (some snapshot = entry.string? "candidateSnapshotDigest")
    proposalError
  let derived ← proposalFor env source plan allowedChannels origin
  require (deepEquals proposal derived = true) proposalError
  return { json := .object
             (setField "proposal" proposal (setField "source" source fields))
           binding := binding
           contentHash := textOf source "contentHash" }

def validateEntries (plan : Json) (allowedChannels : List String) :
    List String → List Json → Except RegistrarError (List ValidEntry)
  | _, [] => .ok []
  | hashes, entry :: rest => do
      let valid ← validateEntry env plan allowedChannels hashes entry
      let others ← validateEntries plan allowedChannels
        (valid.contentHash :: hashes) rest
      return valid :: others

def arraysError : RegistrarError :=
  .error "Invalid recovery plan arrays or origin mode"

def exclusionsError : RegistrarError :=
  .error "plan.exclusions.map is not a function"

def channelOf : Json → Option String
  | .string channel => some channel
  | _ => none

/-- The channels of a plan, each a text that does not vanish. -/
def channelsOf (plan : Json) : Option (List String) :=
  ((plan.get? "allowedOriginChannels").bind fun value =>
    match value with
    | .array items => items.mapM channelOf
    | _ => none).filter fun channels => channels.all isSolid

def arrayOf (plan : Json) (name : String) (error : RegistrarError) :
    Except RegistrarError (List Json) :=
  match plan.get? name with
  | some (.array items) => .ok items
  | _ => .error error

def snapshotError : RegistrarError :=
  .error "Recovery policy or default import rules snapshot differs"

/-- The plan, with what its schemas give of exclusions, entries and policies. -/
def normalizedPlan (fields : List (String × Json))
    (exclusions : List RecoverySnapshotBinding) (entries : List ValidEntry)
    (policies : List Json) : Json :=
  .object
    (setField "policies" (.array policies)
      (setField "entries" (.array (entries.map ValidEntry.json))
        (setField "exclusions"
          (.array (exclusions.map RecoverySnapshotBinding.json)) fields)))

/-- The plan is the one whose digest was reviewed, and what it says is
consistent. -/
def validateRecoveryPlan (data : Json) (expectedDigest : String) :
    Except RegistrarError Json := do
  let _ ← parse (sha256Hash env) "" (some (.string expectedDigest))
  let raw ← record data planKeys
  require
    (data.string? "digest" = some expectedDigest ∧
      digest env (.object (eraseField "digest" raw)) = expectedDigest ∧
      numberOf (data.get? "schemaVersion") = some "1")
    (.error
      "Recovery plan differs from externally reviewed digest or version")
  let plan ← jsonValue data
  requireAuthority env plan
  let entries ← arrayOf plan "entries" arraysError
  let policies ← arrayOf plan "policies" arraysError
  match channelsOf plan with
  | none => .error arraysError
  | some allowedChannels => do
      require
        (plan.string? "originMode" = some "fresh" ∨
          plan.string? "originMode" = some "unattested")
        arraysError
      let exclusions ← arrayOf plan "exclusions" exclusionsError
      let exclusions ← exclusions.mapM (validateExclusion env)
      let entries ← validateEntries env plan allowedChannels [] entries
      requireBindings env
        (some (.array (entries.map fun entry => entry.binding.json)))
        (some (.array (exclusions.map RecoverySnapshotBinding.json)))
      let policies ← policies.mapM fun policy =>
        parse (governancePolicy env) "policies" (some policy)
      require
        (policies.any isEnabled ∧
          (∀ policy ∈ policies,
            policy.string? "tenantId" = plan.string? "targetTenantId") ∧
          plan.string? "policySnapshotDigest" =
            some (digest env (.array policies)) ∧
          plan.string? "defaultImportRulesDigest" =
            some (importRulesDigest env))
        snapshotError
      let normalized := normalizedPlan (fieldsOf plan) exclusions entries
        policies
      require (deepEquals normalized data = true)
        (.error "Recovery plan is not schema-normalized")
      return normalized
where
  numberOf : Option Json → Option String
    | some (.number literal) => some literal
    | _ => none

end Registrar.Recovery
