import Registrar.Export.TenantFiles
import Registrar.Library.YamlMapping

/-!
# Reading frontmatter back

The formatter escapes the title and the tags and writes every other field as it
is.  Read as YAML, its block gives the fields back exactly where they hold
nothing that a quoted scalar would read otherwise.
-/

namespace Registrar

open Yaml

structure FrontmatterData where
  id : String
  title : String
  category : String
  lifecycle : String
  trustLevel : String
  sensitivity : String
  tenantId : String
  contentHash : String
  author : String
  promotedAt : String
  updatedAt : String
  version : Nat
  tags : List String
  supersededBy : Option String
  deriving DecidableEq, Repr

def authorText (memory : CuratedMemory) : String :=
  memory.author.type.text ++ ":" ++ memory.author.id.value

def extractFrontmatter (memory : CuratedMemory) : FrontmatterData where
  id := memory.id
  title := memory.title.value
  category := memory.category.text
  lifecycle := memory.lifecycle.text
  trustLevel := memory.trustLevel.text
  sensitivity := memory.sensitivity.text
  tenantId := memory.tenantId.value
  contentHash := memory.contentHash
  author := authorText memory
  promotedAt := memory.promotedAt
  updatedAt := memory.updatedAt
  version := memory.version
  tags := memory.metadata.tags
  supersededBy := memory.supersession.map (·.supersededBy)

def quotedEntry (key value : String) : Entry :=
  (key.toList, .quoted value.toList)

/-- The entries that a reader of the block should find. -/
def FrontmatterData.entries (data : FrontmatterData) : List Entry :=
  [quotedEntry "id" data.id, quotedEntry "title" data.title,
    quotedEntry "category" data.category,
    quotedEntry "lifecycle" data.lifecycle,
    quotedEntry "trust_level" data.trustLevel,
    quotedEntry "sensitivity" data.sensitivity,
    quotedEntry "tenant_id" data.tenantId,
    quotedEntry "content_hash" data.contentHash,
    quotedEntry "author" data.author,
    quotedEntry "promoted_at" data.promotedAt,
    quotedEntry "updated_at" data.updatedAt,
    ("version".toList, .plain (toString data.version).toList),
    ("tags".toList, .list (data.tags.map String.toList))] ++
    data.supersededBy.toList.map (quotedEntry "superseded_by")

def fence : List Char := "---".toList

/-- The text is one block: a fence, lines that are no fences, and a fence. -/
structure IsBlock (text inner : List Char) : Prop where
  fenced : text = fence ++ '\n' :: (inner ++ fence)
  within : fence ∉ inner.splitOn '\n'

/-- The frontmatter of the memory's file gives its fields back, and the file
names the memory's tenant. -/
structure ReadsBack (memory : CuratedMemory) : Prop where
  fields : ∃ inner, IsBlock (renderFrontmatter memory).toList inner ∧
    ReadsMapping inner (extractFrontmatter memory).entries
  tenant : readFileTenant (formatMemoryAsMarkdown memory) =
    some memory.tenantId.value

/-- Every character stands for itself in a quoted scalar. -/
def IsVerbatim (text : String) : Prop :=
  ∀ char ∈ text.toList, isQuotable char = true

/-- The text is one line without control characters. -/
def IsOneLine (text : String) : Prop :=
  ∀ char ∈ text.toList, isInLine char = true

structure FieldsReadable (memory : CuratedMemory) : Prop where
  title : IsOneLine memory.title.value
  tags : ∀ tag ∈ memory.metadata.tags, IsOneLine tag
  tenantId : IsVerbatim memory.tenantId.value
  author : IsVerbatim memory.author.id.value
  contentHash : IsVerbatim memory.contentHash
  promotedAt : IsVerbatim memory.promotedAt
  updatedAt : IsVerbatim memory.updatedAt
  supersededBy : ∀ link ∈ memory.supersession, IsVerbatim link.supersededBy

def textOfLines (lines : List String) : List Char :=
  lines.flatMap fun line => line.toList ++ ['\n']

/-- The lines between the fences. -/
def innerLines (memory : CuratedMemory) : List String :=
  [quotedLine "id" memory.id,
    quotedLine "title" (escapeYamlString memory.title.value),
    quotedLine "category" memory.category.text,
    quotedLine "lifecycle" memory.lifecycle.text,
    quotedLine "trust_level" memory.trustLevel.text,
    quotedLine "sensitivity" memory.sensitivity.text,
    quotedLine "tenant_id" memory.tenantId.value,
    quotedLine "content_hash" memory.contentHash,
    quotedLine "author" (authorText memory),
    quotedLine "promoted_at" memory.promotedAt,
    quotedLine "updated_at" memory.updatedAt,
    "version: " ++ toString memory.version] ++
    tagLines memory.metadata.tags ++
    (memory.supersession.toList.map fun link =>
      quotedLine "superseded_by" link.supersededBy)

theorem toList_intercalate_lines (first last : String) (lines : List String) :
    (String.intercalate "\n" (first :: (lines ++ [last]))).toList =
      first.toList ++ '\n' :: (textOfLines lines ++ last.toList) := by
  induction lines generalizing first with
  | nil =>
      rw [List.nil_append, toList_intercalate_cons,
        String.intercalate_singleton]
      rfl
  | cons line rest induction =>
      rw [List.cons_append, toList_intercalate_cons, induction]
      simp [textOfLines]

theorem toList_renderFrontmatter (memory : CuratedMemory) :
    (renderFrontmatter memory).toList =
      fence ++ '\n' :: (textOfLines (innerLines memory) ++ fence) := by
  have lines : frontmatterLines memory =
      "---" :: (innerLines memory ++ ["---"]) := rfl
  rw [renderFrontmatter, lines, toList_intercalate_lines]
  rfl

theorem inner_of_isBlock {memory : CuratedMemory} {inner : List Char}
    (block : IsBlock (renderFrontmatter memory).toList inner) :
    inner = textOfLines (innerLines memory) := by
  have same := block.fenced
  rw [toList_renderFrontmatter] at same
  have behind := (List.cons.inj (List.append_cancel_left same)).2
  exact (List.append_cancel_right behind).symm

theorem escapeYamlChar_eq : escapeYamlChar = Yaml.escape := rfl

variable {key : String} {rest : List Char} {entries : List Entry}

theorem reads_rawLine (isKey : IsKey key.toList) (value : String) :
    ReadsMapping ((quotedLine key value).toList ++ ['\n'] ++ rest)
        (quotedEntry key value :: entries) ↔
      IsVerbatim value ∧ ReadsMapping rest entries := by
  have shape : (quotedLine key value).toList ++ ['\n'] ++ rest =
      key.toList ++ ':' :: ' ' :: '"' ::
        (value.toList ++ '"' :: '\n' :: rest) := by
    rw [List.append_assoc, List.singleton_append, toList_quotedLine]
    simp [lineChars]
  rw [shape]
  exact readsMapping_raw_iff isKey

theorem reads_escapedLine (isKey : IsKey key.toList) (value : String) :
    ReadsMapping
        ((quotedLine key (escapeYamlString value)).toList ++ ['\n'] ++ rest)
        (quotedEntry key value :: entries) ↔
      IsOneLine value ∧ ReadsMapping rest entries := by
  have shape :
      (quotedLine key (escapeYamlString value)).toList ++ ['\n'] ++ rest =
        key.toList ++ ':' :: ' ' :: '"' ::
          (value.toList.flatMap Yaml.escape ++ '"' :: '\n' :: rest) := by
    rw [List.append_assoc, List.singleton_append, toList_quotedLine,
      escapeYamlString, String.toList_ofList, escapeYamlChar_eq]
    simp [lineChars]
  rw [shape]
  exact readsMapping_escaped_iff isKey

theorem reads_version (version : Nat) :
    ReadsMapping (("version: " ++ toString version).toList ++ ['\n'] ++ rest)
        (("version".toList, .plain (toString version).toList) :: entries) ↔
      ReadsMapping rest entries := by
  have digits : (toString version).toList = Nat.toDigits 10 version := by
    rw [Nat.toString_eq_repr, Nat.repr, String.toList_ofList]
  have shape : ("version: " ++ toString version).toList ++ ['\n'] ++ rest =
      "version".toList ++ ':' :: ' ' ::
        ((toString version).toList ++ '\n' :: rest) := by
    simp
  rw [shape]
  refine readsMapping_plain_iff
    ⟨by decide, List.all_eq_true.mp (by decide)⟩ ?_ ?_
  · rw [digits]
    exact Nat.toDigits_ne_nil
  · intro char member
    rw [digits] at member
    have isDigit := Nat.isDigit_of_mem_toDigits (by decide) (by decide) member
    simp [Yaml.isWordChar, Char.isAlphanum, isDigit]

theorem reads_tags (tags : List String) (noItem : itemText? rest = none) :
    ReadsMapping (textOfLines (tagLines tags) ++ rest)
        (("tags".toList, .list (tags.map String.toList)) :: entries) ↔
      (∀ tag ∈ tags, IsOneLine tag) ∧ ReadsMapping rest entries := by
  have isKey : IsKey "tags".toList :=
    ⟨by decide, List.all_eq_true.mp (by decide)⟩
  cases tags with
  | nil =>
      have shape : textOfLines (tagLines []) ++ rest =
          "tags".toList ++ ':' :: ' ' :: '[' :: ']' :: '\n' :: rest := by
        simp [textOfLines, tagLines]
      rw [shape, List.map_nil, readsMapping_empty_iff isKey]
      simp
  | cons first others =>
      have isItem (tag : String) :
          ("  - \"" ++ escapeYamlString tag ++ "\"").toList ++ ['\n'] =
            itemLine tag.toList := by
        simp [itemLine, escapeYamlString, escapeYamlChar_eq]
      have shape : textOfLines (tagLines (first :: others)) ++ rest =
          "tags".toList ++ ':' :: '\n' ::
            (((first :: others).map String.toList).flatMap itemLine ++
              rest) := by
        rw [List.flatMap_map, textOfLines, tagLines, if_neg (by simp),
          List.flatMap_cons, List.flatMap_map]
        simp only [isItem]
        simp
      rw [shape, List.map_cons, readsMapping_list_iff isKey noItem]
      simp [IsOneLine]

theorem isVerbatim_iff (text : String) :
    IsVerbatim text ↔ text.toList.all isQuotable = true :=
  List.all_eq_true.symm

theorem isVerbatim_words (memory : CuratedMemory) :
    IsVerbatim memory.category.text ∧ IsVerbatim memory.lifecycle.text ∧
      IsVerbatim memory.trustLevel.text ∧
        IsVerbatim memory.sensitivity.text := by
  simp only [isVerbatim_iff]
  refine ⟨?_, ?_, ?_, ?_⟩
  · cases memory.category <;> decide
  · cases memory.lifecycle <;> decide
  · cases memory.trustLevel <;> decide
  · cases memory.sensitivity <;> decide

theorem isVerbatim_authorText (memory : CuratedMemory) :
    IsVerbatim (authorText memory) ↔ IsVerbatim memory.author.id.value := by
  have kind :
      (memory.author.type.text ++ ":").toList.all isQuotable = true := by
    cases memory.author.type <;> decide
  rw [isVerbatim_iff, isVerbatim_iff, authorText, String.toList_append,
    List.all_append, kind, Bool.true_and]

theorem isQuotable_of_isHexDigit {char : Char}
    (isHex : isHexDigit char = true) : isQuotable char = true := by
  have other {special : Char} (notHex : isHexDigit special = false) :
      char ≠ special := by
    rintro rfl
    rw [isHex] at notHex
    cases notHex
  have least : 48 ≤ char.toNat := by
    unfold isHexDigit Json.hexDigitValue? at isHex
    simp only [Char.le_def, UInt32.le_iff_toNat_le] at isHex
    split_ifs at isHex with decimal lower upper
    · exact decimal.1
    · exact le_trans (by decide) lower.1
    · exact le_trans (by decide) upper.1
    · simp at isHex
  have inJson : isJson char = true := by
    simp only [isJson, Bool.or_eq_true, decide_eq_true_eq]
    omega
  simp [isQuotable, isInLine, isBreak, inJson,
    other (by decide : isHexDigit '\n' = false),
    other (by decide : isHexDigit '\r' = false),
    other (by decide : isHexDigit '"' = false),
    other (by decide : isHexDigit '\\' = false)]

theorem mem_of_mem_intercalate {separator : Char} {pieces : List (List Char)}
    {char : Char} (member : char ∈ [separator].intercalate pieces) :
    char = separator ∨ ∃ piece ∈ pieces, char ∈ piece := by
  induction pieces with
  | nil => simp at member
  | cons first rest induction =>
      by_cases alone : rest = []
      · rw [alone, List.intercalate_singleton] at member
        exact .inr ⟨first, List.mem_cons_self, member⟩
      · rw [List.intercalate_cons_of_ne_nil alone, List.append_assoc,
          List.mem_append, List.mem_append, List.mem_singleton] at member
        rcases member with here | isSeparator | later
        · exact .inr ⟨first, List.mem_cons_self, here⟩
        · exact .inl isSeparator
        · refine (induction later).imp_right ?_
          rintro ⟨piece, isPiece, inside⟩
          exact ⟨piece, List.mem_cons_of_mem _ isPiece, inside⟩

theorem isVerbatim_of_isUuidText {id : String}
    (isUuid : isUuidText id.toList = true) : IsVerbatim id := by
  obtain ⟨-, digits⟩ := Bool.and_eq_true_iff.mp isUuid
  intro char member
  rw [← @List.intercalate_splitOn _ id.toList _ _ '-'] at member
  rcases mem_of_mem_intercalate member with rfl | ⟨group, isGroup, inside⟩
  · decide
  · exact isQuotable_of_isHexDigit (List.all_eq_true.mp
      (List.all_eq_true.mp digits group isGroup) char inside)

/-- What a reader of the block finds in the lines. -/
theorem readsMapping_innerLines (memory : CuratedMemory)
    (isUuid : isUuidText memory.id.toList = true) :
    ReadsMapping (textOfLines (innerLines memory))
        (extractFrontmatter memory).entries ↔ FieldsReadable memory := by
  obtain ⟨category, lifecycle, trustLevel, sensitivity⟩ :=
    isVerbatim_words memory
  have isKey {key : String} (nonempty : key.toList ≠ [])
      (isWord : key.toList.all isKeyChar = true) : IsKey key.toList :=
    ⟨nonempty, List.all_eq_true.mp isWord⟩
  -- The last line is there only for a superseded memory.
  have last : ReadsMapping
      (textOfLines (memory.supersession.toList.map fun link =>
        quotedLine "superseded_by" link.supersededBy))
      ((extractFrontmatter memory).supersededBy.toList.map
        (quotedEntry "superseded_by")) ↔
      ∀ link ∈ memory.supersession, IsVerbatim link.supersededBy := by
    unfold extractFrontmatter
    dsimp only
    cases memory.supersession with
    | none =>
        refine ⟨fun _ link member => ?_, fun _ => .done⟩
        cases member
    | some link =>
        have shape :
            textOfLines [quotedLine "superseded_by" link.supersededBy] =
              (quotedLine "superseded_by" link.supersededBy).toList ++
                ['\n'] ++ [] := by
          simp [textOfLines]
        change ReadsMapping
          (textOfLines [quotedLine "superseded_by" link.supersededBy])
          [quotedEntry "superseded_by" link.supersededBy] ↔ _
        rw [shape, reads_rawLine (isKey (by decide) (by decide))]
        constructor
        · rintro ⟨verbatim, -⟩ other ⟨⟩
          exact verbatim
        · exact fun verbatim => ⟨verbatim link rfl, .done⟩
  have noItem : itemText? (textOfLines (memory.supersession.toList.map
      fun link => quotedLine "superseded_by" link.supersededBy)) = none := by
    cases memory.supersession with
    | none => decide
    | some link => simp [textOfLines, quotedLine, itemText?]
  have entries : (extractFrontmatter memory).entries =
      [quotedEntry "id" memory.id, quotedEntry "title" memory.title.value,
        quotedEntry "category" memory.category.text,
        quotedEntry "lifecycle" memory.lifecycle.text,
        quotedEntry "trust_level" memory.trustLevel.text,
        quotedEntry "sensitivity" memory.sensitivity.text,
        quotedEntry "tenant_id" memory.tenantId.value,
        quotedEntry "content_hash" memory.contentHash,
        quotedEntry "author" (authorText memory),
        quotedEntry "promoted_at" memory.promotedAt,
        quotedEntry "updated_at" memory.updatedAt,
        ("version".toList, .plain (toString memory.version).toList),
        ("tags".toList, .list (memory.metadata.tags.map String.toList))] ++
        (extractFrontmatter memory).supersededBy.toList.map
          (quotedEntry "superseded_by") := rfl
  have lines : textOfLines (innerLines memory) =
      (quotedLine "id" memory.id).toList ++ ['\n'] ++
      ((quotedLine "title" (escapeYamlString memory.title.value)).toList ++
        ['\n'] ++
      ((quotedLine "category" memory.category.text).toList ++ ['\n'] ++
      ((quotedLine "lifecycle" memory.lifecycle.text).toList ++ ['\n'] ++
      ((quotedLine "trust_level" memory.trustLevel.text).toList ++ ['\n'] ++
      ((quotedLine "sensitivity" memory.sensitivity.text).toList ++ ['\n'] ++
      ((quotedLine "tenant_id" memory.tenantId.value).toList ++ ['\n'] ++
      ((quotedLine "content_hash" memory.contentHash).toList ++ ['\n'] ++
      ((quotedLine "author" (authorText memory)).toList ++ ['\n'] ++
      ((quotedLine "promoted_at" memory.promotedAt).toList ++ ['\n'] ++
      ((quotedLine "updated_at" memory.updatedAt).toList ++ ['\n'] ++
      (("version: " ++ toString memory.version).toList ++ ['\n'] ++
      (textOfLines (tagLines memory.metadata.tags) ++
        textOfLines (memory.supersession.toList.map fun link =>
          quotedLine "superseded_by" link.supersededBy))))))))))))) := by
    simp [textOfLines, innerLines]
  rw [entries, lines]
  simp only [List.cons_append, List.nil_append]
  rw [reads_rawLine (isKey (by decide) (by decide)),
    reads_escapedLine (isKey (by decide) (by decide)),
    reads_rawLine (isKey (by decide) (by decide)),
    reads_rawLine (isKey (by decide) (by decide)),
    reads_rawLine (isKey (by decide) (by decide)),
    reads_rawLine (isKey (by decide) (by decide)),
    reads_rawLine (isKey (by decide) (by decide)),
    reads_rawLine (isKey (by decide) (by decide)),
    reads_rawLine (isKey (by decide) (by decide)),
    reads_rawLine (isKey (by decide) (by decide)),
    reads_rawLine (isKey (by decide) (by decide)), reads_version,
    reads_tags _ noItem, last, isVerbatim_authorText]
  constructor
  · rintro ⟨-, title, -, -, -, -, tenantId, contentHash, author, promotedAt,
      updatedAt, tags, supersededBy⟩
    exact ⟨title, tags, tenantId, author, contentHash, promotedAt, updatedAt,
      supersededBy⟩
  · intro readable
    exact ⟨isVerbatim_of_isUuidText isUuid, readable.title, category,
      lifecycle, trustLevel, sensitivity, readable.tenantId,
      readable.contentHash, readable.author, readable.promotedAt,
      readable.updatedAt, readable.tags, readable.supersededBy⟩

/-! ## The block -/

/-- The line ends where it should and is no fence. -/
structure IsInnerLine (line : String) : Prop where
  single : '\n' ∉ line.toList
  noFence : line.toList.head? ≠ some '-'

theorem isInnerLine_quotedLine {key value : String}
    (isKey : IsKey key.toList) (single : '\n' ∉ value.toList) :
    IsInnerLine (quotedLine key value) := by
  have other {char : Char} (notKey : isKeyChar char = false) :
      char ∉ key.toList := fun member => by
    rw [isKey.2 char member] at notKey
    cases notKey
  constructor
  · simp [quotedLine, single, other (by decide : isKeyChar '\n' = false)]
  · obtain ⟨first, more, isCons⟩ := List.exists_cons_of_ne_nil isKey.1
    have isFirst : '-' ≠ first := fun same =>
      other (by decide : isKeyChar '-' = false)
        (by rw [isCons, same]; exact List.mem_cons_self)
    simp [quotedLine, isCons, isFirst.symm]

theorem splitOn_textOfLines {lines : List String}
    (single : ∀ line ∈ lines, '\n' ∉ line.toList) :
    (textOfLines lines).splitOn '\n' = lines.map String.toList ++ [[]] := by
  have joined : textOfLines lines =
      ['\n'].intercalate (lines.map String.toList ++ [[]]) := by
    clear single
    induction lines with
    | nil => simp [textOfLines]
    | cons line rest induction =>
        rw [List.map_cons, List.cons_append,
          List.intercalate_cons_of_ne_nil (by simp), ← induction]
        simp [textOfLines]
  rw [joined, List.splitOn_intercalate]
  · intro piece member
    rcases List.mem_append.mp member with isLine | isLast
    · obtain ⟨line, inLines, rfl⟩ := List.mem_map.mp isLine
      exact single line inLines
    · rw [List.mem_singleton.mp isLast]
      exact List.not_mem_nil
  · simp

theorem feed_notMem_of_isOneLine {text : String} (oneLine : IsOneLine text) :
    '\n' ∉ text.toList := fun member =>
  absurd (oneLine '\n' member) (by decide)

theorem feed_notMem_of_isVerbatim {text : String} (verbatim : IsVerbatim text) :
    '\n' ∉ text.toList := fun member =>
  absurd (verbatim '\n' member) (by decide)

theorem feed_notMem_escaped {text : String} (oneLine : IsOneLine text) :
    '\n' ∉ (escapeYamlString text).toList := by
  rw [escapeYamlString, String.toList_ofList, List.mem_flatMap]
  rintro ⟨char, member, feed⟩
  unfold escapeYamlChar at feed
  split_ifs at feed with slash quote
  · simp at feed
  · simp at feed
  · rw [List.mem_singleton] at feed
    exact feed_notMem_of_isOneLine oneLine (feed ▸ member)

theorem isInnerLine_version (version : Nat) :
    IsInnerLine ("version: " ++ toString version) := by
  have digits : (toString version).toList = Nat.toDigits 10 version := by
    rw [Nat.toString_eq_repr, Nat.repr, String.toList_ofList]
  have noFeed : '\n' ∉ Nat.toDigits 10 version := fun member =>
    absurd (Nat.isDigit_of_mem_toDigits (by decide) (by decide) member)
      (by decide)
  constructor
  · rw [String.toList_append, digits, List.mem_append, not_or]
    exact ⟨by decide, noFeed⟩
  · simp

theorem isInnerLine_of_mem_tagLines {tags : List String} {line : String}
    (readable : ∀ tag ∈ tags, IsOneLine tag) (member : line ∈ tagLines tags) :
    IsInnerLine line := by
  unfold tagLines at member
  split_ifs at member with none
  · rw [List.mem_singleton.mp member]
    exact ⟨by decide, by decide⟩
  · rcases List.mem_cons.mp member with rfl | isTag
    · exact ⟨by decide, by decide⟩
    · obtain ⟨tag, inTags, rfl⟩ := List.mem_map.mp isTag
      constructor
      · simp [feed_notMem_escaped (readable tag inTags)]
      · simp

theorem isInnerLine_of_mem {memory : CuratedMemory}
    (isUuid : isUuidText memory.id.toList = true)
    (readable : FieldsReadable memory) {line : String}
    (member : line ∈ innerLines memory) : IsInnerLine line := by
  obtain ⟨category, lifecycle, trustLevel, sensitivity⟩ :=
    isVerbatim_words memory
  have isKey {key : String} (nonempty : key.toList ≠ [])
      (isWord : key.toList.all isKeyChar = true) : IsKey key.toList :=
    ⟨nonempty, List.all_eq_true.mp isWord⟩
  have raw {key value : String} (nonempty : key.toList ≠ [])
      (isWord : key.toList.all isKeyChar = true) (verbatim : IsVerbatim value) :
      IsInnerLine (quotedLine key value) :=
    isInnerLine_quotedLine (isKey nonempty isWord)
      (feed_notMem_of_isVerbatim verbatim)
  rcases List.mem_append.mp member with front | last
  · rcases List.mem_append.mp front with fields | tags
    · simp only [List.mem_cons, List.not_mem_nil, or_false] at fields
      rcases fields with rfl | rfl | rfl | rfl | rfl | rfl | rfl | rfl | rfl |
        rfl | rfl | rfl
      · exact raw (by decide) (by decide) (isVerbatim_of_isUuidText isUuid)
      · exact isInnerLine_quotedLine (isKey (by decide) (by decide))
          (feed_notMem_escaped readable.title)
      · exact raw (by decide) (by decide) category
      · exact raw (by decide) (by decide) lifecycle
      · exact raw (by decide) (by decide) trustLevel
      · exact raw (by decide) (by decide) sensitivity
      · exact raw (by decide) (by decide) readable.tenantId
      · exact raw (by decide) (by decide) readable.contentHash
      · exact raw (by decide) (by decide)
          ((isVerbatim_authorText memory).mpr readable.author)
      · exact raw (by decide) (by decide) readable.promotedAt
      · exact raw (by decide) (by decide) readable.updatedAt
      · exact isInnerLine_version memory.version
    · exact isInnerLine_of_mem_tagLines readable.tags tags
  · obtain ⟨link, isLink, rfl⟩ := List.mem_map.mp last
    exact raw (by decide) (by decide)
      (readable.supersededBy link (Option.mem_toList.mp isLink))

/-- A file whose fields can be read names its own tenant. -/
theorem readFileTenant_of_readable {memory : CuratedMemory}
    (isUuid : isUuidText memory.id.toList = true)
    (readable : FieldsReadable memory) :
    readFileTenant (formatMemoryAsMarkdown memory) =
      some memory.tenantId.value := by
  have clean : ∀ char ∈ memory.tenantId.value.toList,
      isTenantNameChar char = true := by
    intro char member
    have own := readable.tenantId char member
    have feed : char ≠ '\n' := fun same =>
      feed_notMem_of_isVerbatim readable.tenantId (same ▸ member)
    simp only [isQuotable, Bool.and_eq_true, decide_eq_true_eq] at own
    simp [isTenantNameChar, own.1.2, feed]
  obtain ⟨unmarked, named⟩ := namedTenant_of_isTenantName clean
  have alone : beforeMark ['\n'] = none := by decide
  have title : beforeMark (titleLine memory) = none := by
    have shape : titleLine memory =
        (quotedLine "title" (escapeYamlString memory.title.value)).toList ++
          ['\n'] := by
      rw [toList_quotedLine, escapeYamlString, String.toList_ofList,
        List.append_nil]
      rfl
    have single := (@isInnerLine_quotedLine "title" _
      ⟨by decide, List.all_eq_true.mp (by decide)⟩
      (feed_notMem_escaped readable.title)).single
    rw [shape, beforeMark_within fun char member =>
      ne_of_mem_of_not_mem member single, alone]
    rfl
  obtain ⟨tail, -, owner, closes⟩ := readFileTenant_format memory
  have silent := isSilent_linesBeforeTenant isUuid title
  have ownHead (rest : List Char) :
      (ownLine memory.tenantId.value.toList ++ rest).head? ≠ some '-' := by
    rw [ownLine_eq, tenantLine, tenantKey_eq]
    simp
  have goesOn := head?_lineChars (by decide : isOtherKey "content_hash" = true)
    memory.contentHash.toList (lineChars "author" (memory.author.type.text ++
      ":" ++ memory.author.id.value).toList ++ tail)
  have ends : (ownLine memory.tenantId.value.toList).getLast? = some '\n' := by
    obtain ⟨chars, closed⟩ := ownLine_closed memory.tenantId.value.toList
    rw [closed]
    exact getLast?_closed chars
  rw [owner, frontTenant_silent silent (ownHead _),
    frontTenant_ownLine _ goesOn, if_pos unmarked, named]
  rw [beforeMark_silent silent (ownHead _),
    beforeMark_append_of_none unmarked ends goesOn, Option.isSome_map] at closes
  obtain ⟨front, isFront⟩ := Option.isSome_iff_exists.mp closes
  rw [isFront]
  simp

/-- The frontmatter of a memory reads back exactly where its fields can be
read. -/
theorem readsBack_iff (memory : CuratedMemory)
    (isUuid : isUuidText memory.id.toList = true) :
    ReadsBack memory ↔ FieldsReadable memory := by
  rw [← readsMapping_innerLines memory isUuid]
  constructor
  · rintro ⟨⟨inner, block, reads⟩, -⟩
    rwa [inner_of_isBlock block] at reads
  · intro reads
    have readable := (readsMapping_innerLines memory isUuid).mp reads
    have lines := fun line => @isInnerLine_of_mem memory isUuid readable line
    refine ⟨⟨_, ⟨toList_renderFrontmatter memory, ?_⟩, reads⟩,
      readFileTenant_of_readable isUuid readable⟩
    rw [splitOn_textOfLines fun line member => (lines line member).single]
    intro member
    rcases List.mem_append.mp member with isLine | isLast
    · obtain ⟨line, inLines, same⟩ := List.mem_map.mp isLine
      refine (lines line inLines).noFence ?_
      rw [same]
      decide
    · exact absurd (List.mem_singleton.mp isLast) (by decide)

/-- A note with an ordinary id. -/
def titledNote (title : NonEmptyString) (tenantId : NonEmptyString) :
    CuratedMemory :=
  { exportedNote "0f8fad5b-d9cb-469f-a165-70867728950e" tenantId .active
      "2026-07-16T00:00:00.000Z" with
    title := title
    supersededHasLink := by simp [exportedNote] }

def northTenant : NonEmptyString :=
  ⟨"north", trim_north, north_nonempty⟩

/-- A title of two lines is read back with a space in it. -/
theorem brokenTitle_unread :
    ¬ReadsBack (titledNote ⟨"Keys\nrotate", by decide +kernel, by simp⟩
      northTenant) := by
  rintro ⟨⟨inner, block, reads⟩, -⟩
  rw [inner_of_isBlock block,
    readsMapping_innerLines _ (by decide +kernel)] at reads
  exact absurd (reads.title '\n' (by decide +kernel)) (by decide)

theorem readsBack_iff_note :
    ReadsBack (titledNote ⟨"Say \"keys\" \\", by decide +kernel, by simp⟩
      northTenant) := by
  refine (readsBack_iff _ (by decide +kernel)).mpr
    ⟨List.all_eq_true.mp (by decide +kernel),
      by simp [titledNote, exportedNote],
      List.all_eq_true.mp (by decide +kernel),
      List.all_eq_true.mp (by decide +kernel),
      List.all_eq_true.mp (by decide +kernel),
      List.all_eq_true.mp (by decide +kernel),
      List.all_eq_true.mp (by decide +kernel), ?_⟩
  rintro link ⟨⟩
  exact List.all_eq_true.mp (by decide +kernel)

end Registrar
