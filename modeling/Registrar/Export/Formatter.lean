import Registrar.Library.FileTree
import Registrar.Store.Store

/-!
# Exported files

Where the file of a memory lies in the export tree and what it says.  The tree
feeds one search index per tenant, so a memory that is not for the whole tenant
has no file.
-/

namespace Registrar

/-- The directories in which the exporter places files. -/
inductive ExportDirectory where
  | decisions
  | curated
  | guides
  | archive
  | bulk
  deriving DecidableEq, Repr

structure ExportPath where
  outputDir : String
  directory : ExportDirectory
  name : String
  deriving DecidableEq, Repr

abbrev ExportTree := FileTree ExportPath String

def getCategoryDirectory : MemoryCategory → ExportDirectory
  | .decision => .decisions
  | .pattern | .convention | .architecture => .curated
  | .troubleshooting | .reference | .onboarding => .guides

/-- The directory that the memory occupies while it is active. -/
def getActiveDirectory (memory : CuratedMemory) : ExportDirectory :=
  if memory.source = .bulkImport then .bulk
  else getCategoryDirectory memory.category

def getDirectory (memory : CuratedMemory) : ExportDirectory :=
  if memory.lifecycle ≠ .active then .archive
  else getActiveDirectory memory

def getFilename (id : String) : String :=
  id ++ ".md"

/-- The path that the memory belongs at. -/
def exportPath (outputDir : String) (memory : CuratedMemory) : ExportPath where
  outputDir := outputDir
  directory := getDirectory memory
  name := getFilename memory.id

/-- The path of the memory while it is active. -/
def activePath (outputDir : String) (memory : CuratedMemory) : ExportPath where
  outputDir := outputDir
  directory := getActiveDirectory memory
  name := getFilename memory.id

theorem getFilename_injective : Function.Injective getFilename := by
  intro left right same
  unfold getFilename at same
  exact String.append_left_inj ".md" |>.mp same

theorem getActiveDirectory_ne_archive (memory : CuratedMemory) :
    getActiveDirectory memory ≠ .archive := by
  unfold getActiveDirectory
  split_ifs
  · simp
  · cases memory.category <;> simp [getCategoryDirectory]

def isSensitivityRestricted : Sensitivity → Bool
  | .public_ | .internal => false
  | .confidential | .restricted => true

def isExportableAudience (audience : Option Audience) : Bool :=
  resolveAudience audience = defaultAudience

/-- The memory must not sit in the export tree at all. -/
def isExportRestricted (memory : CuratedMemory) : Bool :=
  isSensitivityRestricted memory.sensitivity ||
    !isExportableAudience memory.metadata.audience

def escapeYamlChar (char : Char) : List Char :=
  if char = '\\' then ['\\', '\\']
  else if char = '"' then ['\\', '"']
  else [char]

def escapeYamlString (text : String) : String :=
  String.ofList (text.toList.flatMap escapeYamlChar)

/-- A line of the frontmatter whose value stands in quotation marks. -/
def quotedLine (key value : String) : String :=
  key ++ ": \"" ++ value ++ "\""

def tagLines (tags : List String) : List String :=
  if tags = [] then ["tags: []"]
  else "tags:" :: tags.map fun tag => "  - \"" ++ escapeYamlString tag ++ "\""

/-- The frontmatter of the memory, line by line. -/
def frontmatterLines (memory : CuratedMemory) : List String :=
  ["---",
    quotedLine "id" memory.id,
    quotedLine "title" (escapeYamlString memory.title.value),
    quotedLine "category" memory.category.text,
    quotedLine "lifecycle" memory.lifecycle.text,
    quotedLine "trust_level" memory.trustLevel.text,
    quotedLine "sensitivity" memory.sensitivity.text,
    quotedLine "tenant_id" memory.tenantId.value,
    quotedLine "content_hash" memory.contentHash,
    quotedLine "author"
      (memory.author.type.text ++ ":" ++ memory.author.id.value),
    quotedLine "promoted_at" memory.promotedAt,
    quotedLine "updated_at" memory.updatedAt,
    "version: " ++ toString memory.version] ++
    tagLines memory.metadata.tags ++
    (memory.supersession.toList.map fun link =>
      quotedLine "superseded_by" link.supersededBy) ++
    ["---"]

def renderFrontmatter (memory : CuratedMemory) : String :=
  String.intercalate "\n" (frontmatterLines memory)

/-- The exported file of the memory. -/
def formatMemoryAsMarkdown (memory : CuratedMemory) : String :=
  renderFrontmatter memory ++ "\n\n# " ++ memory.title.value ++ "\n\n" ++
    memory.content.value ++ "\n"

/-- A small memory that the whole tenant may read. -/
def exportedNote (id : String) (tenantId : NonEmptyString)
    (lifecycle : MemoryLifecycleState) (updatedAt : String) : CuratedMemory where
  id := id
  candidateId := id
  source := .manual
  content := ⟨"Rotate keys weekly", by decide +kernel, by simp⟩
  title := ⟨"Keys", trim_keys, keys_nonempty⟩
  category := .convention
  trustLevel := .high
  sensitivity := .internal
  author :=
    { type := .human
      id := ⟨"ada", by decide +kernel, by simp⟩
      name := none }
  tenantId := tenantId
  metadata :=
    { filePaths := []
      language := none
      projectContext := none
      sessionId := none
      repoUrl := none
      branch := none
      confidence := none
      sensitivity := none
      tags := []
      subjects := none
      proposedByRole := none
      audience := none }
  lifecycle := lifecycle
  contentHash := "hash"
  policyEvaluations := []
  supersession :=
    some
      { supersededBy := id
        reason := ⟨"merged", by decide +kernel, by simp⟩
        linkedAt := updatedAt }
  promotedAt := updatedAt
  promotedBy :=
    { type := .human
      id := ⟨"ada", by decide +kernel, by simp⟩
      name := none }
  updatedAt := updatedAt
  version := 1
  supersededHasLink := fun _ => by simp

end Registrar
