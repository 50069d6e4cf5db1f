import Registrar.Schema.Records
import Mathlib.Logic.Function.Basic

/-!
# The environment of the code

The hash functions, the text scanners and the number and date formatting that
the governance code calls.  Everything below takes them as a parameter.
-/

namespace Registrar

inductive DisclosureCategory where
  | pii
  | secret
  | compensation
  deriving DecidableEq, Repr

def DisclosureCategory.text : DisclosureCategory → String
  | .pii => "pii"
  | .secret => "secret"
  | .compensation => "compensation"

/-- One secret pattern that fired, with the lines it fired on. -/
structure SecretFinding where
  patternId : String
  patternName : String
  lines : List Nat
  deriving DecidableEq, Repr

structure ContentClassification where
  sensitivityLevel : Sensitivity
  matchedPatterns : List String
  hasPii : Bool
  hasCredentials : Bool
  deriving DecidableEq, Repr

structure BrainignoreMatch where
  code : String
  evidence : String
  deriving DecidableEq, Repr

/-- A link that a memory's text makes to another memory. -/
structure WikiLink where
  slug : String
  deriving DecidableEq, Repr

structure Environment where
  /-- Hex digest of a UTF-8 text. -/
  sha256 : String → String
  /-- UUID v5 of a name in the spool namespace. -/
  uuidV5 : String → String
  /-- `String(n)`. -/
  numberText : ℚ → String
  /-- `n.toFixed(2)`. -/
  toFixed2 : ℚ → String
  /-- `new Date(ms).toISOString()`. -/
  toISOString : Int → String
  /-- `Date.parse`. -/
  dateParse : String → Option Int
  toLowerCase : String → String
  /-- `a.localeCompare(b) <= 0`. -/
  localeAtMost : String → String → Bool
  scanForDisclosure : String → Option DisclosureCategory
  scanTextForSecrets : String → List SecretFinding
  /-- The text with every recognized secret replaced by a marker. -/
  redactSecrets : String → String
  classifyContent : String → ContentClassification
  /-- The sanitization pattern with this id matches the text. -/
  sanitizationMatches : String → String → Bool
  /-- The distinct tokens of the contradiction heuristic. -/
  contradictionTokens : String → List String
  evaluateBrainignore : List String → String → String → Option BrainignoreMatch
  extractWikiLinks : String → List WikiLink
  isUuid : String → Bool
  isSha256Hash : String → Bool
  /-- Rows matching a full-text query, best first, or nothing when the query is
  malformed. -/
  fts5Match : String → List CuratedMemory → Option (List CuratedMemory)
  /-- HMAC verification of an origin token: secret, payload, token. -/
  verifyOriginHmac : String → String → String → Bool

/-- No two texts share a digest, and no two names share an id. -/
structure Environment.CollisionFree (env : Environment) : Prop where
  sha256 : Function.Injective env.sha256
  uuidV5 : Function.Injective env.uuidV5

/-- What one operation takes from the random generator and the clock. -/
structure Draw where
  freshId : String
  now : String
  deriving DecidableEq, Repr

/-- The environment in which every digest and id is its own preimage, dates are
decimal numbers and the scanners find nothing. -/
def plainEnvironment : Environment where
  sha256 := id
  uuidV5 := id
  numberText value := toString value.num
  toFixed2 value := toString value.num
  toISOString := toString
  dateParse := String.toInt?
  toLowerCase := String.toLower
  localeAtMost left right := decide (left ≤ right)
  scanForDisclosure _ := none
  scanTextForSecrets _ := []
  redactSecrets := id
  classifyContent _ :=
    { sensitivityLevel := .public_
      matchedPatterns := []
      hasPii := false
      hasCredentials := false }
  sanitizationMatches _ _ := false
  contradictionTokens text := (text.splitOn " ").eraseDups
  evaluateBrainignore _ _ _ := none
  extractWikiLinks _ := []
  isUuid _ := true
  isSha256Hash _ := true
  fts5Match _ _ := some []
  verifyOriginHmac _ _ _ := true

theorem trim_team : trim "team" = "team" := by decide +kernel

theorem team_nonempty : "team" ≠ "" := by simp

theorem trim_curator : trim "curator" = "curator" := by decide +kernel

theorem curator_nonempty : "curator" ≠ "" := by simp

theorem trim_keys : trim "Keys" = "Keys" := by decide +kernel

theorem keys_nonempty : "Keys" ≠ "" := by simp

theorem trim_north : trim "north" = "north" := by decide +kernel

theorem north_nonempty : "north" ≠ "" := by simp

theorem trim_mcpServer : trim "mcp-server" = "mcp-server" := by
  decide +kernel

theorem mcpServer_nonempty : "mcp-server" ≠ "" := by simp

theorem plainEnvironment_collisionFree : plainEnvironment.CollisionFree where
  sha256 := Function.injective_id
  uuidV5 := Function.injective_id

variable (env : Environment)

def computeContentHash (content : String) : String :=
  env.sha256 content

/-- The separator between the fields of a name. -/
def nameFieldSeparator : String :=
  String.ofList [Char.ofNat 0]

def joinNames (fields : List String) : String :=
  String.intercalate nameFieldSeparator fields

/-- The id of a candidate, by the source that its content comes from. -/
def deriveCandidateId (workspaceId relPath bodySha256 : String) : String :=
  env.uuidV5 (joinNames [workspaceId, relPath, bodySha256])

def deriveMemoryId (candidateId contentHash : String) : String :=
  env.uuidV5 (joinNames ["memory", candidateId, contentHash])

def deriveAuditEventId (memoryId action discriminator : String) : String :=
  env.uuidV5 (joinNames ["audit", memoryId, action, discriminator])

def derivePolicyEvaluationId (memoryId ruleId discriminator : String) :
    String :=
  env.uuidV5 (joinNames ["policy", memoryId, ruleId, discriminator])

def deriveLinkId (sourceMemoryId targetMemoryId linkType : String) : String :=
  env.uuidV5 (joinNames ["link", sourceMemoryId, targetMemoryId, linkType])

def defaultAudience : Audience := .tenant

def audienceRank : Audience → Nat
  | .tenant => 0
  | .admins => 1
  | .owner => 2

inductive ReaderRole where
  | member
  | admin
  | owner
  deriving DecidableEq, Repr

def readerRoleClearance : ReaderRole → Nat
  | .member => 0
  | .admin => 1
  | .owner => 2

/-- The audience a memory effectively has. -/
def resolveAudience (audience : Option Audience) : Audience :=
  audience.getD defaultAudience

def isAudienceVisibleToRole (audience : Option Audience) (role : ReaderRole) :
    Bool :=
  audienceRank (resolveAudience audience) ≤ readerRoleClearance role

inductive AudienceNarrowingRefusal where
  | widening
  | same
  | unknownTo
  deriving DecidableEq, Repr

/-- Whether `target`, absent when the request names no known tier, narrows the
current audience, and the refusal if not. -/
def validateAudienceNarrowing (current target : Option Audience) :
    Except AudienceNarrowingRefusal Audience :=
  match target with
  | none => .error .unknownTo
  | some target =>
      if audienceRank target = audienceRank (resolveAudience current) then
        .error .same
      else if audienceRank target < audienceRank (resolveAudience current) then
        .error .widening
      else .ok target

theorem audienceRank_lt_of_validateAudienceNarrowing
    {current requested : Option Audience} {target : Audience}
    (valid : validateAudienceNarrowing current requested = .ok target) :
    audienceRank (resolveAudience current) < audienceRank target := by
  unfold validateAudienceNarrowing at valid
  split at valid
  · cases valid
  · split_ifs at valid with same widening
    cases valid
    exact lt_of_le_of_ne (not_lt.mp widening) (Ne.symm same)

def scanDisclosureFields (fields : List String) : Option DisclosureCategory :=
  fields.findSome? env.scanForDisclosure

/-- The strings of a candidate outside its closed vocabularies, in the order
in which the filter walks them. -/
def collectFreeTextFields (candidate : MemoryCandidate) : List String :=
  ["1", candidate.id, candidate.content, candidate.title,
    candidate.author.id.value] ++
    (candidate.author.name.toList.map NonEmptyString.value) ++
    [candidate.tenantId] ++
    candidate.metadata.filePaths ++
    candidate.metadata.language.toList ++
    candidate.metadata.projectContext.toList ++
    candidate.metadata.sessionId.toList ++
    candidate.metadata.repoUrl.toList ++
    candidate.metadata.branch.toList ++
    candidate.metadata.tags ++
    candidate.metadata.subjects.getD [] ++
    (candidate.metadata.proposedByRole.toList.map ProposerRole.text) ++
    (candidate.metadata.audience.toList.map Audience.text) ++
    [candidate.capturedAt] ++
    (candidate.origin.toList.flatMap fun origin =>
      [origin.tokenHmac, origin.channel, origin.mintedAt])

/-- The category for which the candidate is turned away, if any. -/
def disclosureViolation (candidate : MemoryCandidate) :
    Option DisclosureCategory :=
  scanDisclosureFields env (collectFreeTextFields candidate)

end Registrar
