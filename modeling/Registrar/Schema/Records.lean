import Registrar.Schema.Common
import Mathlib.Data.Rat.Defs

/-!
# Schema records

The records of the schema package.  A value of `CuratedMemory` has passed its
schema: its texts are trimmed and a superseded memory names its successor.  A
`MemoryCandidate` is what a caller hands in, and `MemoryCandidate.parse`
applies the schema to it.
-/

namespace Registrar

def allowedTransitions : MemoryLifecycleState → List MemoryLifecycleState
  | .active => [.deprecated, .superseded, .archived]
  | .deprecated => [.active, .archived]
  | .superseded => [.archived]
  | .archived => []

def isTransitionAllowed (source target : MemoryLifecycleState) : Bool :=
  (allowedTransitions source).contains target

/-- The change of a lifecycle, if it is one, is allowed. -/
def LegalChange (source target : MemoryLifecycleState) : Prop :=
  target = source ∨ isTransitionAllowed source target = true

instance (source target : MemoryLifecycleState) :
    Decidable (LegalChange source target) :=
  inferInstanceAs (Decidable (_ ∨ _))

structure TransitionRequest where
  reason : NonEmptyString
  actor : Author
  supersededBy : Option String
  deriving DecidableEq

/-- The error of an invalid transition, if any. -/
def validateTransition (source target : MemoryLifecycleState)
    (request : TransitionRequest) : Option String :=
  if !isTransitionAllowed source target then
    some ("Transition from \"" ++ source.text ++ "\" to \"" ++ target.text ++
      "\" is not allowed")
  else if target = .superseded ∧ request.supersededBy.all (· = "") then
    some "Transition to \"superseded\" requires supersededBy UUID"
  else none

structure RecategorizeRequest where
  category : MemoryCategory
  reason : NonEmptyString
  actor : Author
  deriving DecidableEq

structure AuditEvent where
  id : String
  action : AuditAction
  memoryId : String
  tenantId : NonEmptyString
  actor : Author
  reason : Option NonEmptyString
  details : List (String × Json)
  timestamp : String

/-- A field of the details, when it holds a string. -/
def AuditEvent.detailText (event : AuditEvent) (name : String) :
    Option String :=
  match Json.field? event.details name with
  | some (.string text) => some text
  | _ => none

inductive RuleOutcome where
  | pass
  | fail
  | flag
  deriving DecidableEq, Repr

def RuleOutcome.text : RuleOutcome → String
  | .pass => "pass"
  | .fail => "fail"
  | .flag => "flag"

structure PolicyEvaluation where
  policyId : String
  ruleId : String
  result : RuleOutcome
  reason : Option String
  evaluatedAt : String
  deriving DecidableEq, Repr

structure SupersessionLink where
  supersededBy : String
  reason : NonEmptyString
  linkedAt : String
  deriving DecidableEq

/-- A memory that has passed governance. -/
structure CuratedMemory where
  id : String
  candidateId : String
  source : MemorySource
  content : NonEmptyString
  title : NonEmptyString
  category : MemoryCategory
  trustLevel : TrustLevel
  sensitivity : Sensitivity
  author : Author
  tenantId : NonEmptyString
  metadata : ContentMetadata
  lifecycle : MemoryLifecycleState
  contentHash : String
  policyEvaluations : List PolicyEvaluation
  supersession : Option SupersessionLink
  promotedAt : String
  promotedBy : Author
  updatedAt : String
  version : Nat
  supersededHasLink : lifecycle = .superseded → supersession ≠ none
  deriving DecidableEq

theorem active_hasLink :
    MemoryLifecycleState.active = .superseded →
      (none : Option SupersessionLink) ≠ none := by simp

/-- The row of a memory that gives way to the one its link names. -/
def CuratedMemory.retired (memory : CuratedMemory) (link : SupersessionLink)
    (now : String) : CuratedMemory :=
  { memory with
    lifecycle := .superseded
    supersession := some link
    updatedAt := now
    supersededHasLink := fun _ => Option.some_ne_none link }

/-- Two states of one memory with the same text, lineage and audience. -/
structure SameClaim (old new : CuratedMemory) : Prop where
  id : new.id = old.id
  candidateId : new.candidateId = old.candidateId
  content : new.content = old.content
  contentHash : new.contentHash = old.contentHash
  tenantId : new.tenantId = old.tenantId
  metadata : new.metadata = old.metadata

theorem SameClaim.refl (memory : CuratedMemory) : SameClaim memory memory where
  id := rfl
  candidateId := rfl
  content := rfl
  contentHash := rfl
  tenantId := rfl
  metadata := rfl

theorem CuratedMemory.retired_sameClaim (memory : CuratedMemory)
    (link : SupersessionLink) (now : String) :
    SameClaim memory (memory.retired link now) where
  id := rfl
  candidateId := rfl
  content := rfl
  contentHash := rfl
  tenantId := rfl
  metadata := rfl

structure PrePolicyFlags where
  potentialSecret : Bool
  lowConfidence : Bool
  duplicateSuspect : Bool
  deriving DecidableEq, Repr

/-- A write-time provenance attestation. -/
structure CandidateOrigin where
  tokenHmac : String
  channel : String
  mintedAt : String
  deriving DecidableEq, Repr

structure MemoryCandidate where
  id : String
  status : CandidateStatus
  source : MemorySource
  content : String
  title : String
  category : MemoryCategory
  trustLevel : TrustLevel
  author : Author
  tenantId : String
  metadata : ContentMetadata
  prePolicyFlags : PrePolicyFlags
  capturedAt : String
  origin : Option CandidateOrigin
  deriving DecidableEq

/-- A failed field of a schema, by its path. -/
structure SchemaIssue where
  path : String
  message : String
  deriving DecidableEq, Repr

def nonEmptyIssue (path : String) : SchemaIssue :=
  { path := path
    message := "Too small: expected string to have >=1 characters" }

def parseNonEmpty (path text : String) : Except SchemaIssue NonEmptyString :=
  match NonEmptyString.parse? text with
  | none => .error (nonEmptyIssue path)
  | some text => .ok text

theorem parseNonEmpty_of_solid (path : String) {text : String}
    (solid : trim text ≠ "") :
    ∃ parsed, parseNonEmpty path text = .ok parsed := by
  unfold parseNonEmpty NonEmptyString.parse?
  rw [dif_pos solid]
  exact ⟨_, rfl⟩

/-- The refinement that keeps a bulk digestion at low trust. -/
def MemoryCandidate.BulkTrustLow (candidate : MemoryCandidate) : Prop :=
  candidate.source ≠ .bulkImport ∨ candidate.trustLevel = .low ∨
    candidate.trustLevel = .untrusted

instance (candidate : MemoryCandidate) : Decidable candidate.BulkTrustLow :=
  inferInstanceAs (Decidable (_ ∨ _ ∨ _))

def MemoryCandidate.parse (candidate : MemoryCandidate) :
    Except SchemaIssue MemoryCandidate :=
  if trim candidate.content = "" then .error (nonEmptyIssue "content")
  else if trim candidate.title = "" then .error (nonEmptyIssue "title")
  else if trim candidate.tenantId = "" then .error (nonEmptyIssue "tenantId")
  else if ¬candidate.BulkTrustLow then
    .error
      { path := "trustLevel"
        message :=
          "source 'bulk_import' requires trustLevel 'low' or 'untrusted' — " ++
          "a bulk digestion cannot claim curated-grade trust" }
  else
    .ok
      { candidate with
        content := trim candidate.content
        title := trim candidate.title
        tenantId := trim candidate.tenantId }

theorem MemoryCandidate.parse_eq_ok {candidate parsed : MemoryCandidate}
    (accepted : candidate.parse = .ok parsed) :
    parsed =
      { candidate with
        content := trim candidate.content
        title := trim candidate.title
        tenantId := trim candidate.tenantId } := by
  unfold MemoryCandidate.parse at accepted
  split_ifs at accepted
  cases accepted
  rfl

inductive PolicyRuleType where
  | secretDetection
  | dedupCheck
  | relevanceScore
  | contentLength
  | sourceTrust
  | tenantMatch
  | sensitivityGate
  | contentSanitization
  | contradictionCheck
  | audienceNarrowing
  deriving DecidableEq, Repr

inductive PolicyRuleAction where
  | reject
  | flag
  | approve
  | requireReview
  deriving DecidableEq, Repr

/-- A rule parameter, as far as the rules tell values apart. -/
inductive RuleParameter where
  | number (value : ℚ)
  | string (value : String)
  | strings (values : List String)
  | other
  deriving DecidableEq

structure PolicyRule where
  id : String
  type : PolicyRuleType
  action : PolicyRuleAction
  enabled : Bool
  priority : Nat
  parameters : List (String × RuleParameter)
  deriving DecidableEq

def PolicyRule.parameter (rule : PolicyRule) (name : String) :
    Option RuleParameter :=
  (rule.parameters.find? fun entry => entry.1 = name).map Prod.snd

structure GovernancePolicy where
  id : String
  name : NonEmptyString
  tenantId : NonEmptyString
  rules : List PolicyRule
  enabled : Bool
  version : Nat
  hasRule : rules ≠ []
  deriving DecidableEq

end Registrar
