import Registrar.Library.Trim
import Registrar.Library.Json

/-!
# Shared schema types

The enumerations of the schema package with the words that name them in the
database and in receipts, and the field types that all records share.
-/

namespace Registrar

inductive MemorySource where
  | claudeSession
  | manual
  | import_
  | mcp
  | bulkImport
  deriving DecidableEq, Repr

inductive TrustLevel where
  | high
  | medium
  | low
  | untrusted
  deriving DecidableEq, Repr

inductive MemoryCategory where
  | decision
  | pattern
  | convention
  | architecture
  | troubleshooting
  | onboarding
  | reference
  deriving DecidableEq, Repr

inductive MemoryLifecycleState where
  | active
  | deprecated
  | superseded
  | archived
  deriving DecidableEq, Repr

inductive CandidateStatus where
  | inbox
  | promoted
  | rejected
  | flagged
  | duplicate
  | quarantined
  deriving DecidableEq, Repr

inductive AuditAction where
  | promoted
  | demoted
  | superseded
  | archived
  | deleted
  | searched
  | exported
  | recategorized
  | evalResult
  | proposed
  | governed
  | policyUpgraded
  | audienceNarrowed
  | redacted
  | held
  | holdRecommended
  | holdResolved
  deriving DecidableEq, Repr

inductive ProposerRole where
  | admin
  | member
  deriving DecidableEq, Repr

inductive Audience where
  | tenant
  | admins
  | owner
  deriving DecidableEq, Repr

inductive Confidence where
  | high
  | medium
  | low
  deriving DecidableEq, Repr

inductive Sensitivity where
  | public_
  | internal
  | confidential
  | restricted
  deriving DecidableEq, Repr

inductive AuthorType where
  | human
  | ai
  | system
  deriving DecidableEq, Repr

inductive LinkType where
  | relatesTo
  | supersedes
  | contradicts
  | dependsOn
  | partOf
  deriving DecidableEq, Repr

inductive LinkSource where
  | curator
  | import_
  | manual
  | mcp
  deriving DecidableEq, Repr

def MemorySource.text : MemorySource → String
  | .claudeSession => "claude_session"
  | .manual => "manual"
  | .import_ => "import"
  | .mcp => "mcp"
  | .bulkImport => "bulk_import"

def TrustLevel.text : TrustLevel → String
  | .high => "high"
  | .medium => "medium"
  | .low => "low"
  | .untrusted => "untrusted"

def MemoryCategory.text : MemoryCategory → String
  | .decision => "decision"
  | .pattern => "pattern"
  | .convention => "convention"
  | .architecture => "architecture"
  | .troubleshooting => "troubleshooting"
  | .onboarding => "onboarding"
  | .reference => "reference"

def MemoryLifecycleState.text : MemoryLifecycleState → String
  | .active => "active"
  | .deprecated => "deprecated"
  | .superseded => "superseded"
  | .archived => "archived"

def AuditAction.text : AuditAction → String
  | .promoted => "promoted"
  | .demoted => "demoted"
  | .superseded => "superseded"
  | .archived => "archived"
  | .deleted => "deleted"
  | .searched => "searched"
  | .exported => "exported"
  | .recategorized => "recategorized"
  | .evalResult => "eval-result"
  | .proposed => "proposed"
  | .governed => "governed"
  | .policyUpgraded => "policy_upgraded"
  | .audienceNarrowed => "audience_narrowed"
  | .redacted => "redacted"
  | .held => "held"
  | .holdRecommended => "hold_recommended"
  | .holdResolved => "hold_resolved"

def CandidateStatus.text : CandidateStatus → String
  | .inbox => "inbox"
  | .promoted => "promoted"
  | .rejected => "rejected"
  | .flagged => "flagged"
  | .duplicate => "duplicate"
  | .quarantined => "quarantined"

def ProposerRole.text : ProposerRole → String
  | .admin => "admin"
  | .member => "member"

def Audience.text : Audience → String
  | .tenant => "tenant"
  | .admins => "admins"
  | .owner => "owner"

def Sensitivity.text : Sensitivity → String
  | .public_ => "public"
  | .internal => "internal"
  | .confidential => "confidential"
  | .restricted => "restricted"

def AuthorType.text : AuthorType → String
  | .human => "human"
  | .ai => "ai"
  | .system => "system"

def LinkType.text : LinkType → String
  | .relatesTo => "relates_to"
  | .supersedes => "supersedes"
  | .contradicts => "contradicts"
  | .dependsOn => "depends_on"
  | .partOf => "part_of"

/-- The characters that `String.prototype.trim` removes. -/
def isTrimmedSpace (char : Char) : Bool :=
  let code := char.toNat
  (9 ≤ code && code ≤ 13) || code == 0x20 || code == 0xa0 ||
    code == 0x1680 || (0x2000 ≤ code && code ≤ 0x200a) || code == 0x2028 ||
    code == 0x2029 || code == 0x202f || code == 0x205f || code == 0x3000 ||
    code == 0xfeff

def trim (text : String) : String :=
  Trim.trim isTrimmedSpace text

/-- `z.string().trim().min(1)`: a string that parsing has trimmed. -/
structure NonEmptyString where
  value : String
  trimmed : trim value = value
  nonempty : value ≠ ""
  deriving DecidableEq

def NonEmptyString.parse? (text : String) : Option NonEmptyString :=
  if nonempty : trim text ≠ "" then
    some
      { value := trim text
        trimmed := Trim.trim_trim isTrimmedSpace text
        nonempty := nonempty }
  else none

theorem NonEmptyString.value_injective {left right : NonEmptyString}
    (same : left.value = right.value) : left = right := by
  cases left
  cases right
  simpa using same

@[simp]
theorem NonEmptyString.parse?_value (text : NonEmptyString) :
    NonEmptyString.parse? text.value = some text := by
  have nonempty : trim text.value ≠ "" := by
    rw [text.trimmed]
    exact text.nonempty
  rw [NonEmptyString.parse?, dif_pos nonempty]
  exact congrArg some (NonEmptyString.value_injective text.trimmed)

theorem NonEmptyString.value_of_parse? {text : String}
    {parsed : NonEmptyString}
    (accepted : NonEmptyString.parse? text = some parsed) :
    parsed.value = trim text := by
  unfold NonEmptyString.parse? at accepted
  split_ifs at accepted
  cases accepted
  rfl

/-- Author metadata. -/
structure Author where
  type : AuthorType
  id : NonEmptyString
  name : Option NonEmptyString
  deriving DecidableEq

def Author.json (author : Author) : Json :=
  .object
    ([("type", .string author.type.text), ("id", .string author.id.value)] ++
      (author.name.toList.map fun name => ("name", .string name.value)))

/-- Origin and context of a memory's content. -/
structure ContentMetadata where
  filePaths : List String
  language : Option String
  projectContext : Option String
  sessionId : Option String
  repoUrl : Option String
  branch : Option String
  confidence : Option Confidence
  sensitivity : Option Sensitivity
  tags : List String
  subjects : Option (List String)
  proposedByRole : Option ProposerRole
  audience : Option Audience
  deriving DecidableEq, Repr

end Registrar
