import Registrar.Library.JsonRead
import Registrar.Export.Formatter

/-!
# Stale export files

A reconcile run removes files that the store no longer justifies: copies in the
wrong place, files of restricted memories, and orphans that say they belong to
the tenant.  A file says so in the tenant line of its frontmatter.
-/

namespace Registrar

/-- The characters at which a line ends. -/
def isLineTerminator (char : Char) : Bool :=
  char = '\n' || char = '\r' || char.toNat = 0x2028 || char.toNat = 0x2029

/-- The rest of a line is blank. -/
def endsLine (chars : List Char) : Bool :=
  match chars.dropWhile fun char =>
      isTrimmedSpace char && !isLineTerminator char with
  | [] => true
  | char :: _ => isLineTerminator char

def tenantKey : List Char := "tenant_id:".toList

def isTenantNameChar (char : Char) : Bool :=
  char ≠ '"' && char ≠ '\n'

/-- The name in the tenant line that the text begins with, if it begins with
one. -/
def matchTenantLine (chars : List Char) : Option (List Char) :=
  if tenantKey.isPrefixOf chars then
    match (chars.drop tenantKey.length).dropWhile isTrimmedSpace with
    | '"' :: value =>
        match value.dropWhile isTenantNameChar with
        | '"' :: rest =>
            if endsLine rest then some (value.takeWhile isTenantNameChar)
            else none
        | _ => none
    | _ => none
  else none

/-- The name in the first tenant line, where a line may begin here if
`atStart`. -/
def findTenantLine (atStart : Bool) : List Char → Option (List Char)
  | [] => none
  | char :: rest =>
      (if atStart then matchTenantLine (char :: rest) else none).or
        (findTenantLine (isLineTerminator char) rest)

def frontmatterMark : List Char := "\n---".toList

/-- The characters before the first mark that closes the frontmatter. -/
def beforeMark : List Char → Option (List Char)
  | [] => none
  | char :: rest =>
      if frontmatterMark.isPrefixOf (char :: rest) then some []
      else (beforeMark rest).map (char :: ·)

/-- The tenant that the file's own frontmatter names. -/
def readFileTenant (text : String) : Option String :=
  if "---".toList.isPrefixOf text.toList then
    match beforeMark (text.toList.drop 3) with
    | none => none
    | some front =>
        (findTenantLine true ("---".toList ++ front)).map String.ofList
  else none

def isHexDigit (char : Char) : Bool :=
  (Json.hexDigitValue? char).isSome

/-- Groups of 8, 4, 4, 4 and 12 hexadecimal digits. -/
def isUuidText (chars : List Char) : Bool :=
  (chars.splitOn '-').map List.length = [8, 4, 4, 4, 12] &&
    (chars.splitOn '-').all fun group => group.all isHexDigit

/-- The id that an exported file's name carries, in lower case. -/
def memoryFileId? (name : String) : Option String :=
  let chars := name.toList
  if isUuidText (chars.take 36) &&
      (chars.drop 36).map Char.toLower = ".md".toList then
    some (String.ofList ((chars.take 36).map Char.toLower))
  else none

/-- An id with its letters in lower case. -/
def foldedId (id : String) : String :=
  String.ofList (id.toList.map Char.toLower)

theorem length_of_isUuidText {chars : List Char} (isUuid : isUuidText chars) :
    chars.length = 36 := by
  have lengths : (chars.splitOn '-').map List.length = [8, 4, 4, 4, 12] :=
    of_decide_eq_true (Bool.and_eq_true_iff.mp isUuid).1
  have joined : ['-'].intercalate (chars.splitOn '-') = chars :=
    List.intercalate_splitOn '-'
  rcases shape : chars.splitOn '-' with _ | ⟨a, _ | ⟨b, _ | ⟨c, _ | ⟨d,
    _ | ⟨e, _ | _⟩⟩⟩⟩⟩ <;> rw [shape] at lengths <;> simp at lengths
  rw [shape] at joined
  rw [← joined]
  simp [lengths]

/-- The file of a memory carries its id if that is a UUID. -/
theorem memoryFileId?_getFilename (id : String) :
    memoryFileId? (getFilename id) =
      if isUuidText id.toList then some (foldedId id) else none := by
  have name : (getFilename id).toList = id.toList ++ ".md".toList := by
    simp [getFilename]
  unfold memoryFileId?
  dsimp only
  rw [name]
  by_cases isUuid : isUuidText id.toList = true
  · have length := length_of_isUuidText isUuid
    have front : (id.toList ++ ".md".toList).take 36 = id.toList := by
      rw [← length]
      exact List.take_left
    have back : (id.toList ++ ".md".toList).drop 36 = ".md".toList := by
      rw [← length]
      exact List.drop_left
    rw [front, back, if_pos isUuid, if_pos]
    · rfl
    · simp [isUuid]
  · rw [if_neg isUuid, if_neg]
    intro found
    obtain ⟨prefixed, suffixed⟩ := Bool.and_eq_true_iff.mp found
    have taken := length_of_isUuidText prefixed
    have dropped := congrArg List.length (of_decide_eq_true suffixed)
    have extension : ".md".toList.length = 3 := rfl
    rw [List.length_map, List.length_drop, List.length_append, extension]
      at dropped
    have length : id.toList.length = 36 := by
      rw [List.length_take, List.length_append, extension] at taken
      omega
    refine isUuid ?_
    rw [← length] at prefixed
    rwa [List.take_left] at prefixed

inductive StaleVerdict where
  | keep
  | relocated
  | orphan
  deriving DecidableEq, Repr

/-- What the scan makes of one file. -/
def staleVerdict (outputDir : String) (memories : List CuratedMemory)
    (tenantId : Option String) (path : ExportPath) (text : String) :
    StaleVerdict :=
  match memoryFileId? path.name with
  | none => .keep
  | some id =>
      match memories.find? fun memory => memory.id = id with
      | some memory =>
          if isExportRestricted memory = false ∧
              exportPath outputDir memory = path then .keep
          else if tenantId ≠ none ∧ readFileTenant text ≠ none ∧
              readFileTenant text ≠ tenantId then .keep
          else .relocated
      | none =>
          if tenantId ≠ none ∧ readFileTenant text ≠ tenantId then .keep
          else .orphan

def exportDirectories : List ExportDirectory :=
  [.decisions, .curated, .guides, .archive, .bulk]

/-- The files under the output directory, by directory and name. -/
def exportedFiles (outputDir : String) (tree : ExportTree) :
    List (ExportPath × String) :=
  exportDirectories.flatMap fun directory =>
    (tree.rows.filter fun file =>
      file.1.outputDir = outputDir && file.1.directory = directory).insertionSort
        fun left right => left.1.name ≤ right.1.name

structure RemovalBlocked where
  orphans : Nat
  limit : Nat
  deriving DecidableEq, Repr

structure StaleScan where
  toRemove : List ExportPath
  removalBlocked : Option RemovalBlocked
  deriving DecidableEq, Repr

def filesWithVerdict (outputDir : String) (memories : List CuratedMemory)
    (tenantId : Option String) (tree : ExportTree) (verdict : StaleVerdict) :
    List ExportPath :=
  ((exportedFiles outputDir tree).filter fun file =>
    staleVerdict outputDir memories tenantId file.1 file.2 = verdict).map
      Prod.fst

def findStaleFiles (outputDir : String) (memories : List CuratedMemory)
    (tenantId : Option String) (maxOrphanRemovals : Nat) (tree : ExportTree) :
    StaleScan :=
  let relocated :=
    filesWithVerdict outputDir memories tenantId tree .relocated
  let orphans := filesWithVerdict outputDir memories tenantId tree .orphan
  if maxOrphanRemovals < orphans.length then
    { toRemove := relocated
      removalBlocked :=
        some
          { orphans := orphans.length
            limit := maxOrphanRemovals } }
  else
    { toRemove := relocated ++ orphans
      removalBlocked := none }

theorem mem_exportedFiles_iff {outputDir : String} {tree : ExportTree}
    {file : ExportPath × String} :
    file ∈ exportedFiles outputDir tree ↔
      file ∈ tree.rows ∧ file.1.outputDir = outputDir := by
  unfold exportedFiles
  simp only [List.mem_flatMap, List.mem_insertionSort, List.mem_filter,
    Bool.and_eq_true, decide_eq_true_eq]
  constructor
  · rintro ⟨_, -, member, here, -⟩
    exact ⟨member, here⟩
  · rintro ⟨member, here⟩
    refine ⟨file.1.directory, ?_, member, here, rfl⟩
    cases file.1.directory <;> simp [exportDirectories]

theorem mem_filesWithVerdict_iff {outputDir : String}
    {memories : List CuratedMemory} {tenantId : Option String}
    {tree : ExportTree} {verdict : StaleVerdict} {path : ExportPath} :
    path ∈ filesWithVerdict outputDir memories tenantId tree verdict ↔
      path.outputDir = outputDir ∧ ∃ text, tree.read path = some text ∧
        staleVerdict outputDir memories tenantId path text = verdict := by
  unfold filesWithVerdict
  simp only [List.mem_map, List.mem_filter, mem_exportedFiles_iff,
    decide_eq_true_eq]
  constructor
  · rintro ⟨⟨path, text⟩, ⟨⟨member, here⟩, judged⟩, rfl⟩
    exact ⟨here, text, FileTree.read_eq_some_iff.mpr member, judged⟩
  · rintro ⟨here, text, found, judged⟩
    exact ⟨(path, text),
      ⟨⟨FileTree.read_eq_some_iff.mp found, here⟩, judged⟩, rfl⟩

/-- The orphans that the scan counts. -/
def orphanCount (outputDir : String) (memories : List CuratedMemory)
    (tenantId : Option String) (tree : ExportTree) : Nat :=
  (filesWithVerdict outputDir memories tenantId tree .orphan).length

/-- A file is removed when it lies in the wrong place, or is an orphan and
there are not too many. -/
theorem mem_toRemove_iff {outputDir : String} {memories : List CuratedMemory}
    {tenantId : Option String} {maxOrphanRemovals : Nat} {tree : ExportTree}
    {path : ExportPath} :
    path ∈ (findStaleFiles outputDir memories tenantId maxOrphanRemovals
        tree).toRemove ↔
      path.outputDir = outputDir ∧ ∃ text, tree.read path = some text ∧
        (staleVerdict outputDir memories tenantId path text = .relocated ∨
          staleVerdict outputDir memories tenantId path text = .orphan ∧
            orphanCount outputDir memories tenantId tree ≤
              maxOrphanRemovals) := by
  have few : ¬maxOrphanRemovals <
        (filesWithVerdict outputDir memories tenantId tree .orphan).length ↔
      orphanCount outputDir memories tenantId tree ≤ maxOrphanRemovals :=
    not_lt
  unfold findStaleFiles
  dsimp only
  split_ifs with tooMany
  · have blocked : ¬orphanCount outputDir memories tenantId tree ≤
        maxOrphanRemovals := not_le.mpr tooMany
    simp [mem_filesWithVerdict_iff, blocked]
  · have allowed := few.mp tooMany
    simp only [List.mem_append, mem_filesWithVerdict_iff, allowed, and_true]
    constructor
    · rintro (⟨here, text, found, judged⟩ | ⟨here, text, found, judged⟩)
      · exact ⟨here, text, found, .inl judged⟩
      · exact ⟨here, text, found, .inr judged⟩
    · rintro ⟨here, text, found, judged | judged⟩
      · exact .inl ⟨here, text, found, judged⟩
      · exact .inr ⟨here, text, found, judged⟩

end Registrar
