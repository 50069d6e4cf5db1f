import Registrar.Export.Convergence

/-!
# Files of other tenants

A reconcile run takes a file for its own tenant's by the first tenant line of
the file.  Titles are escaped and cannot forge that line, but the tenant name
and the author stand in the frontmatter as they are.
-/

namespace Registrar

/-- A quoted line with its line feed. -/
def lineChars (key : String) (value : List Char) : List Char :=
  key.toList ++ ':' :: ' ' :: '"' :: (value ++ ['"', '\n'])

/-- A key that a tenant line cannot begin with. -/
def isOtherKey (key : String) : Bool :=
  match key.toList with
  | first :: second :: _ =>
      first ≠ '-' && (first ≠ 't' || second ≠ 'e') &&
        key.toList.all fun char => !isLineTerminator char
  | _ => false

theorem matchTenantLine_of_otherKey {first second : Char}
    (other : first ≠ 't' ∨ second ≠ 'e') (rest : List Char) :
    matchTenantLine (first :: second :: rest) = none := by
  rcases other with other | other
  · exact matchTenantLine_of_ne other _
  · have absent : tenantKey.isPrefixOf (first :: second :: rest) = false := by
      rw [tenantKey_eq, List.isPrefixOf, List.isPrefixOf,
        beq_false_of_ne (Ne.symm other)]
      simp
    rw [matchTenantLine_eq, absent]
    rfl

/-- A line with another key is quiet if its value is. -/
theorem isQuiet_lineChars {key : String} (other : isOtherKey key = true)
    {value : List Char}
    (unnamed : findTenantLine false (value ++ ['"', '\n']) = none) :
    IsQuiet (lineChars key value) := by
  constructor
  · exact ⟨key.toList ++ ':' :: ' ' :: '"' :: value, by simp [lineChars]⟩
  · unfold isOtherKey at other
    split at other
    · rename_i first second more shape
      rw [Bool.and_eq_true, shape] at other
      obtain ⟨starts, oneLine⟩ := other
      have mismatch : first ≠ 't' ∨ second ≠ 'e' := by
        simpa using (Bool.and_eq_true_iff.mp starts).2
      have starts : lineChars key value = first :: second ::
          (more ++ ':' :: ' ' :: '"' :: (value ++ ['"', '\n'])) := by
        simp [lineChars, shape]
      have within : ∀ char ∈ second :: (more ++ [':', ' ', '"']),
          isLineTerminator char = false := by
        have inKey : ∀ char ∈ first :: second :: more,
            isLineTerminator char = false := by
          simpa using oneLine
        intro char member
        simp only [List.mem_cons, List.mem_append, List.not_mem_nil,
          or_false] at member
        rcases member with rfl | member | rfl | rfl | rfl
        · exact inKey _ (by simp)
        · exact inKey _ (by simp [member])
        · decide
        · decide
        · decide
      have firstInLine : isLineTerminator first = false := by
        simp only [List.all_cons, Bool.and_eq_true,
          Bool.not_eq_true'] at oneLine
        exact oneLine.1
      rw [starts, findTenantLine_cons, if_pos rfl,
        matchTenantLine_of_otherKey mismatch, firstInLine, Option.none_or]
      have skipped := findTenantLine_within within (value ++ ['"', '\n'])
      rw [unnamed] at skipped
      simpa using skipped
    · exact absurd other Bool.false_ne_true

theorem findTenantLine_oneLine {value : List Char}
    (oneLine : ∀ char ∈ value, isLineTerminator char = false) :
    findTenantLine false (value ++ ['"', '\n']) = none := by
  rw [findTenantLine_within oneLine]
  decide

theorem isSilent_lineChars {key : String} (other : isOtherKey key = true)
    {value : List Char}
    (oneLine : ∀ char ∈ value, isLineTerminator char = false) :
    IsSilent (lineChars key value) where
  toIsQuiet := isQuiet_lineChars other (findTenantLine_oneLine oneLine)
  unmarked := by
    have lineFeed : isLineTerminator '\n' = true := by decide
    have keyLine : ∀ char ∈ key.toList, isLineTerminator char = false := by
      unfold isOtherKey at other
      split at other
      · simpa using (Bool.and_eq_true_iff.mp other).2
      · exact absurd other Bool.false_ne_true
    have noFeed : ∀ char ∈ key.toList ++ ':' :: ' ' :: '"' :: (value ++ ['"']),
        char ≠ '\n' := by
      intro char member same
      subst same
      simp only [List.mem_cons, List.mem_append, List.not_mem_nil,
        or_false] at member
      rcases member with member | feed | feed | feed | member | feed
      · simp [keyLine _ member] at lineFeed
      · exact absurd feed (by decide)
      · exact absurd feed (by decide)
      · exact absurd feed (by decide)
      · simp [oneLine _ member] at lineFeed
      · exact absurd feed (by decide)
    have isSplit : lineChars key value =
        (key.toList ++ ':' :: ' ' :: '"' :: (value ++ ['"'])) ++ ['\n'] := by
      simp [lineChars]
    have closing : beforeMark ['\n'] = none := by decide
    rw [isSplit, beforeMark_within noFeed, closing]
    rfl

theorem escapeYamlChar_of_plain {char : Char} (notSlash : char ≠ '\\')
    (notQuote : char ≠ '"') : escapeYamlChar char = [char] := by
  simp [escapeYamlChar, notSlash, notQuote]

/-- A key at the start of escaped text is there unescaped. -/
theorem prefix_of_escaped {key : List Char}
    (plain : ∀ char ∈ key, char ≠ '\\' ∧ char ≠ '"') (text rest : List Char)
    (found : key <+: text.flatMap escapeYamlChar ++ '"' :: rest) :
    ∃ more, text = key ++ more := by
  induction key generalizing text with
  | nil => exact ⟨text, rfl⟩
  | cons first key induction =>
      obtain ⟨⟨notSlash, notQuote⟩, later⟩ := List.forall_mem_cons.mp plain
      cases text with
      | nil =>
          exact absurd (List.cons_prefix_cons.mp found).1 notQuote
      | cons char text =>
          by_cases slash : char = '\\'
          · subst slash
            exact absurd (List.cons_prefix_cons.mp found).1 notSlash
          · by_cases quote : char = '"'
            · subst quote
              exact absurd (List.cons_prefix_cons.mp found).1 notSlash
            · rw [List.flatMap_cons, escapeYamlChar_of_plain slash quote] at found
              obtain ⟨rfl, isPrefix⟩ := List.cons_prefix_cons.mp found
              obtain ⟨more, rfl⟩ := induction later text isPrefix
              exact ⟨more, rfl⟩

/-- After a key in escaped text comes no quotation mark that could begin a
name. -/
theorem keyedName_escaped (text : List Char) :
    keyedName (text.flatMap escapeYamlChar ++ ['"', '\n']) = none := by
  induction text with
  | nil => decide
  | cons char text induction =>
      by_cases slash : char = '\\'
      · subst slash
        have solid : isTrimmedSpace '\\' = false := by decide
        simp [keyedName, escapeYamlChar, solid]
      · by_cases quote : char = '"'
        · subst quote
          have solid : isTrimmedSpace '\\' = false := by decide
          simp [keyedName, escapeYamlChar, solid]
        · rw [List.flatMap_cons, escapeYamlChar_of_plain slash quote]
          by_cases space : isTrimmedSpace char = true
          · unfold keyedName at induction ⊢
            simpa [space] using induction
          · simp [keyedName, space, quote]

theorem matchTenantLine_escaped (text : List Char) :
    matchTenantLine (text.flatMap escapeYamlChar ++ ['"', '\n']) = none := by
  rw [matchTenantLine_eq]
  split_ifs with keyed
  · have plain : ∀ char ∈ tenantKey, char ≠ '\\' ∧ char ≠ '"' :=
      List.all_iff_forall_prop.mp (by decide)
    obtain ⟨more, rfl⟩ := prefix_of_escaped plain text ['\n']
      (List.isPrefixOf_iff_prefix.mp keyed)
    have unescaped : tenantKey.flatMap escapeYamlChar = tenantKey := by decide
    rw [List.flatMap_append, unescaped, List.append_assoc, List.drop_left]
    exact keyedName_escaped more
  · rfl

theorem findTenantLine_escaped (atStart : Bool) (text : List Char) :
    findTenantLine atStart (text.flatMap escapeYamlChar ++ ['"', '\n']) =
      none := by
  induction text generalizing atStart with
  | nil => cases atStart <;> decide
  | cons char text induction =>
      have here := matchTenantLine_escaped (char :: text)
      by_cases slash : char = '\\'
      · subst slash
        have second := matchTenantLine_of_ne (by decide : '\\' ≠ 't')
        simp [escapeYamlChar, findTenantLine_cons, second, induction]
      · by_cases quote : char = '"'
        · subst quote
          have first := matchTenantLine_of_ne (by decide : '\\' ≠ 't')
          have second := matchTenantLine_of_ne (by decide : '"' ≠ 't')
          simp [escapeYamlChar, findTenantLine_cons, first, second, induction]
        · rw [List.flatMap_cons, escapeYamlChar_of_plain slash quote] at here ⊢
          rw [List.singleton_append, List.cons_append] at here ⊢
          rw [findTenantLine_cons, here, induction]
          cases atStart <;> rfl

/-- The tenant of a file is the one that its lines name. -/
theorem readFileTenant_of_lines {text : String} {lines : List Char}
    (shape : text.toList = '-' :: '-' :: '-' :: '\n' :: lines)
    (goesOn : lines.head? ≠ some '-') :
    readFileTenant text = (frontTenant lines).map String.ofList := by
  have dashes : "---".toList = ['-', '-', '-'] := by decide
  have dash := matchTenantLine_of_ne (by decide : '-' ≠ 't')
  have inLine : isLineTerminator '-' = false := by decide
  have newLine : isLineTerminator '\n' = true := by decide
  have front : beforeMark ('\n' :: lines) =
      (beforeMark lines).map ('\n' :: ·) := by
    have alone : beforeMark ['\n'] = none := by decide
    exact beforeMark_append_of_none alone rfl goesOn
  have found : ∀ front : List Char,
      findTenantLine true ('-' :: '-' :: '-' :: '\n' :: front) =
        findTenantLine true front := by
    intro front
    simp [findTenantLine_cons, dash, inLine, newLine]
  unfold readFileTenant frontTenant
  rw [dashes, shape]
  rw [if_pos (by rfl)]
  have behind : ('-' :: '-' :: '-' :: '\n' :: lines).drop 3 = '\n' :: lines :=
    rfl
  rw [behind]
  rw [front]
  cases beforeMark lines with
  | none => rfl
  | some front => exact congrArg (Option.map String.ofList) (found front)

theorem toList_quotedLine (key value : String) (rest : List Char) :
    (quotedLine key value).toList ++ '\n' :: rest =
      lineChars key value.toList ++ rest := by
  have colon : ": \"".toList = [':', ' ', '"'] := by decide
  have quote : "\"".toList = ['"'] := by decide
  simp [quotedLine, lineChars, colon, quote]

theorem toList_intercalate_cons (line next : String) (rest : List String) :
    (String.intercalate "\n" (line :: next :: rest)).toList =
      line.toList ++ '\n' :: (String.intercalate "\n" (next :: rest)).toList := by
  have feed : "\n".toList = ['\n'] := by decide
  rw [String.intercalate_cons_of_ne_nil (List.cons_ne_nil next rest),
    String.toList_append, String.toList_append, feed, List.append_assoc]
  rfl

/-- What stands before the tenant line. -/
def linesBeforeTenant (memory : CuratedMemory) : List Char :=
  lineChars "id" memory.id.toList ++
    (lineChars "title" (memory.title.value.toList.flatMap escapeYamlChar) ++
      (lineChars "category" memory.category.text.toList ++
        (lineChars "lifecycle" memory.lifecycle.text.toList ++
          (lineChars "trust_level" memory.trustLevel.text.toList ++
            lineChars "sensitivity" memory.sensitivity.text.toList))))

/-- The lines of the frontmatter from the update on. -/
def linesFromUpdate (memory : CuratedMemory) : List String :=
  quotedLine "updated_at" memory.updatedAt ::
    ["version: " ++ toString memory.version] ++ tagLines memory.metadata.tags ++
      (memory.supersession.toList.map fun link =>
        quotedLine "superseded_by" link.supersededBy) ++ ["---"]

/-- The lines of a formatted file, as far as they are needed. -/
theorem exists_lines (memory : CuratedMemory) :
    ∃ tail, (formatMemoryAsMarkdown memory).toList =
        '-' :: '-' :: '-' :: '\n' ::
          (linesBeforeTenant memory ++
            (lineChars "tenant_id" memory.tenantId.value.toList ++
              (lineChars "content_hash" memory.contentHash.toList ++
                (lineChars "author" (memory.author.type.text ++ ":" ++
                  memory.author.id.value).toList ++ tail)))) ∧
      tail.head? = some 'p' := by
  have dashes : "---".toList = ['-', '-', '-'] := by decide
  have promoted : "promoted_at".toList = 'p' :: "romoted_at".toList := by decide
  let body := "\n\n# " ++ memory.title.value ++ "\n\n" ++
    memory.content.value ++ "\n"
  refine ⟨lineChars "promoted_at" memory.promotedAt.toList ++
    ((String.intercalate "\n" (linesFromUpdate memory)).toList ++
      body.toList), ?_, ?_⟩
  · have lines : renderFrontmatter memory = String.intercalate "\n"
        ("---" :: quotedLine "id" memory.id ::
          quotedLine "title" (escapeYamlString memory.title.value) ::
          quotedLine "category" memory.category.text ::
          quotedLine "lifecycle" memory.lifecycle.text ::
          quotedLine "trust_level" memory.trustLevel.text ::
          quotedLine "sensitivity" memory.sensitivity.text ::
          quotedLine "tenant_id" memory.tenantId.value ::
          quotedLine "content_hash" memory.contentHash ::
          quotedLine "author"
            (memory.author.type.text ++ ":" ++ memory.author.id.value) ::
          quotedLine "promoted_at" memory.promotedAt ::
          linesFromUpdate memory) := rfl
    have whole : formatMemoryAsMarkdown memory =
        renderFrontmatter memory ++ body := by
      simp only [formatMemoryAsMarkdown, body, String.append_assoc]
    have last : ∃ next rest, linesFromUpdate memory = next :: rest :=
      ⟨_, _, rfl⟩
    obtain ⟨next, rest, shape⟩ := last
    rw [whole, String.toList_append, lines, shape]
    simp only [toList_intercalate_cons, toList_quotedLine, dashes,
      linesBeforeTenant, escapeYamlString, String.toList_ofList,
      List.cons_append, List.nil_append, List.append_assoc]
  · rw [lineChars, promoted]
    rfl

/-- A formatted file closes its frontmatter. -/
theorem beforeMark_format {memory : CuratedMemory} {lines : List Char}
    (shape : (formatMemoryAsMarkdown memory).toList =
      '-' :: '-' :: '-' :: '\n' :: lines) :
    (beforeMark ('\n' :: lines)).isSome = true := by
  have dashes : "---".toList = ['-', '-', '-'] := by decide
  have feed : "\n".toList = ['\n'] := by decide
  let body := "\n\n# " ++ memory.title.value ++ "\n\n" ++
    memory.content.value ++ "\n"
  have isSplit : ∃ rest, frontmatterLines memory =
      ("---" :: quotedLine "id" memory.id :: rest) ++ ["---"] := ⟨_, rfl⟩
  obtain ⟨rest, isSplit⟩ := isSplit
  let inner := quotedLine "id" memory.id :: rest
  have whole : formatMemoryAsMarkdown memory =
      String.intercalate "\n" ("---" :: inner) ++ "\n" ++ "---" ++ body := by
    have joined : renderFrontmatter memory =
        String.intercalate "\n" ("---" :: inner) ++ "\n" ++ "---" := by
      rw [renderFrontmatter, isSplit, String.intercalate_append_of_ne_nil
        (List.cons_ne_nil _ _) (List.cons_ne_nil _ _)]
      rfl
    simp only [formatMemoryAsMarkdown, joined, body, String.append_assoc]
  have starts : (String.intercalate "\n" ("---" :: inner)).toList =
      '-' :: '-' :: '-' :: '\n' :: (String.intercalate "\n" inner).toList := by
    simp only [inner, toList_intercalate_cons, dashes]
    rfl
  have same : '\n' :: lines =
      ('\n' :: (String.intercalate "\n" inner).toList) ++ frontmatterMark ++
        body.toList := by
    rw [whole, String.toList_append, String.toList_append,
      String.toList_append, starts, feed, dashes] at shape
    rw [frontmatterMark_eq]
    simpa using shape.symm
  rw [same]
  exact beforeMark_isSome _ _

theorem head?_lineChars {key : String} (other : isOtherKey key = true)
    (value rest : List Char) :
    (lineChars key value ++ rest).head? ≠ some '-' := by
  unfold isOtherKey at other
  split at other
  · rename_i first second more shape
    have starts : first ≠ '-' := by
      simp only [Bool.and_eq_true, decide_eq_true_eq] at other
      exact other.1.1
    simp [lineChars, shape, starts]
  · exact absurd other Bool.false_ne_true

theorem oneLine_of_isHexDigit {char : Char} (isHex : isHexDigit char = true) :
    isLineTerminator char = false := by
  have small : char.toNat ≤ 102 ∧ 48 ≤ char.toNat := by
    unfold isHexDigit Json.hexDigitValue? at isHex
    simp only [Char.le_def, UInt32.le_iff_toNat_le] at isHex
    split_ifs at isHex with decimal lower upper
    · exact ⟨decimal.2.trans (by decide), decimal.1⟩
    · exact ⟨lower.2, le_trans (by decide) lower.1⟩
    · exact ⟨upper.2.trans (by decide), le_trans (by decide) upper.1⟩
    · simp at isHex
  have feed : ('\n').toNat = 10 := rfl
  have back : ('\r').toNat = 13 := rfl
  unfold isLineTerminator
  simp only [Bool.or_eq_false_iff, decide_eq_false_iff_not]
  refine ⟨⟨⟨?_, ?_⟩, ?_⟩, ?_⟩
  · rintro rfl
    omega
  · rintro rfl
    omega
  · omega
  · omega

theorem oneLine_of_isUuidText {chars : List Char}
    (isUuid : isUuidText chars = true) :
    ∀ char ∈ chars, isLineTerminator char = false := by
  obtain ⟨lengths, digits⟩ := Bool.and_eq_true_iff.mp isUuid
  have lengths := of_decide_eq_true lengths
  have joined : ['-'].intercalate (chars.splitOn '-') = chars :=
    List.intercalate_splitOn '-'
  have dash : isLineTerminator '-' = false := by decide
  rcases shape : chars.splitOn '-' with _ | ⟨a, _ | ⟨b, _ | ⟨c, _ | ⟨d,
    _ | ⟨e, _ | _⟩⟩⟩⟩⟩ <;> rw [shape] at lengths <;> simp at lengths
  rw [shape] at joined digits
  have hex : ∀ group ∈ [a, b, c, d, e], ∀ char ∈ group,
      isLineTerminator char = false :=
    fun group member char inside => oneLine_of_isHexDigit (List.all_eq_true.mp
      (List.all_eq_true.mp digits group member) char inside)
  simp only [List.forall_mem_cons, List.not_mem_nil, false_implies,
    forall_true_iff, and_true] at hex
  obtain ⟨inA, inB, inC, inD, inE⟩ := hex
  rw [← joined]
  simp only [List.intercalate_cons_cons, List.intercalate_singleton,
    List.forall_mem_append, List.forall_mem_singleton]
  exact ⟨⟨inA, dash⟩, ⟨inB, dash⟩, ⟨inC, dash⟩, ⟨inD, dash⟩, inE⟩

theorem isSilent_words (memory : CuratedMemory) :
    IsSilent (lineChars "category" memory.category.text.toList) ∧
      IsSilent (lineChars "lifecycle" memory.lifecycle.text.toList) ∧
      IsSilent (lineChars "trust_level" memory.trustLevel.text.toList) ∧
      IsSilent (lineChars "sensitivity" memory.sensitivity.text.toList) := by
  refine ⟨isSilent_lineChars (by decide) ?_, isSilent_lineChars (by decide) ?_,
    isSilent_lineChars (by decide) ?_, isSilent_lineChars (by decide) ?_⟩
  · cases memory.category <;> exact List.all_iff_forall_prop.mp (by decide)
  · cases memory.lifecycle <;> exact List.all_iff_forall_prop.mp (by decide)
  · cases memory.trustLevel <;>
      exact List.all_iff_forall_prop.mp (by decide)
  · cases memory.sensitivity <;> exact List.all_iff_forall_prop.mp (by decide)

theorem beforeMark_silent {chunk rest : List Char} (silent : IsSilent chunk)
    (goesOn : rest.head? ≠ some '-') :
    (beforeMark (chunk ++ rest)).isSome = (beforeMark rest).isSome := by
  obtain ⟨⟨⟨chars, rfl⟩, -⟩, unmarked⟩ := silent
  rw [beforeMark_append_of_none unmarked (getLast?_closed chars) goesOn,
    Option.isSome_map]

theorem IsSilent.append {first second : List Char} (silent : IsSilent first)
    (next : IsSilent second) (goesOn : second.head? ≠ some '-') :
    IsSilent (first ++ second) := by
  obtain ⟨⟨⟨chars, rfl⟩, unnamed⟩, unmarked⟩ := silent
  obtain ⟨⟨⟨more, rfl⟩, nothing⟩, isUnmarked⟩ := next
  refine ⟨⟨⟨chars ++ ['"', '\n'] ++ more, by simp⟩, ?_⟩, ?_⟩
  · have found := findTenantLine_closed true chars (more ++ ['"', '\n'])
    rw [unnamed, nothing] at found
    simpa using found
  · rw [beforeMark_append_of_none unmarked (getLast?_closed chars) goesOn,
      isUnmarked]
    rfl

def titleLine (memory : CuratedMemory) : List Char :=
  lineChars "title" (memory.title.value.toList.flatMap escapeYamlChar)

theorem isQuiet_titleLine (memory : CuratedMemory) :
    IsQuiet (titleLine memory) :=
  isQuiet_lineChars (by decide) (findTenantLine_escaped false _)

/-- Unless the title closes the frontmatter, nothing is named or closed before
the tenant line. -/
theorem isSilent_linesBeforeTenant {memory : CuratedMemory}
    (isUuid : isUuidText memory.id.toList = true)
    (unmarked : beforeMark (titleLine memory) = none) :
    IsSilent (linesBeforeTenant memory) := by
  obtain ⟨category, lifecycle, trust, sensitivity⟩ := isSilent_words memory
  have id : IsSilent (lineChars "id" memory.id.toList) :=
    isSilent_lineChars (by decide) (oneLine_of_isUuidText isUuid)
  have title : IsSilent (titleLine memory) :=
    { toIsQuiet := isQuiet_titleLine memory
      unmarked := unmarked }
  refine id.append (title.append (category.append (lifecycle.append
    (trust.append sensitivity ?_) ?_) ?_) ?_) ?_
  · simpa using head?_lineChars (by decide) _ []
  · exact head?_lineChars (by decide) _ _
  · exact head?_lineChars (by decide) _ _
  · exact head?_lineChars (by decide) _ _
  · exact head?_lineChars (by decide) _ _

theorem frontTenant_markedTitle {memory : CuratedMemory}
    (isUuid : isUuidText memory.id.toList = true) {front : List Char}
    (marked : beforeMark (titleLine memory) = some front) (rest : List Char) :
    frontTenant (linesBeforeTenant memory ++ rest) = none := by
  have id : IsSilent (lineChars "id" memory.id.toList) :=
    isSilent_lineChars (by decide) (oneLine_of_isUuidText isUuid)
  unfold linesBeforeTenant
  rw [List.append_assoc, List.append_assoc, frontTenant_silent id
    (head?_lineChars (by decide) _ _)]
  exact frontTenant_marked (isQuiet_titleLine memory) marked _

/-- The line that names the tenant, as the formatter writes it. -/
def ownLine (tenantId : List Char) : List Char :=
  lineChars "tenant_id" tenantId

/-- The tenant that a tenant line names, up to a mark in it. -/
def namedTenant (tenantId : List Char) : Option (List Char) :=
  findTenantLine true ((beforeMark (ownLine tenantId)).getD (ownLine tenantId))

theorem ownLine_eq (tenantId : List Char) :
    ownLine tenantId = tenantLine tenantId ++ ['\n'] := by
  have key : "tenant_id".toList ++ [':'] = tenantKey := by decide
  unfold ownLine lineChars tenantLine
  rw [← key]
  simp

theorem ownLine_closed (tenantId : List Char) :
    ∃ chars, ownLine tenantId = chars ++ ['"', '\n'] :=
  ⟨"tenant_id".toList ++ ':' :: ' ' :: '"' :: tenantId, by
    simp [ownLine, lineChars]⟩

theorem namedTenant_of_isTenantName {tenantId : List Char}
    (clean : ∀ char ∈ tenantId, isTenantNameChar char = true) :
    beforeMark (ownLine tenantId) = none ∧
      namedTenant tenantId = some tenantId := by
  have oneLine := oneLine_tenantLine clean
  have alone : beforeMark ['\n'] = none := by decide
  have unmarked : beforeMark (ownLine tenantId) = none := by
    rw [ownLine_eq, beforeMark_within oneLine, alone]
    rfl
  have starts : ownLine tenantId = 't' :: (ownLine tenantId).tail := by
    simp [ownLine_eq, tenantLine, tenantKey_eq]
  have matched : matchTenantLine (ownLine tenantId) = some tenantId := by
    rw [ownLine_eq]
    exact matchTenantLine_tenantLine clean (by decide)
  refine ⟨unmarked, ?_⟩
  unfold namedTenant
  rw [unmarked, Option.getD_none, starts, findTenantLine_cons, ← starts,
    if_pos rfl, matched, Option.some_or]

/-- What the tenant line contributes. -/
theorem frontTenant_ownLine (tenantId : List Char) {rest : List Char}
    (goesOn : rest.head? ≠ some '-') :
    frontTenant (ownLine tenantId ++ rest) =
      if beforeMark (ownLine tenantId) = none then
        match namedTenant tenantId with
        | some name => (beforeMark rest).map fun _ => name
        | none => frontTenant rest
      else namedTenant tenantId := by
  obtain ⟨chars, closed⟩ := ownLine_closed tenantId
  unfold namedTenant
  cases marked : beforeMark (ownLine tenantId) with
  | some front =>
      unfold frontTenant
      rw [beforeMark_append_of_some marked]
      simp
  | none =>
      rw [if_pos rfl, Option.getD_none]
      cases named : findTenantLine true (ownLine tenantId) with
      | some name =>
          rw [closed] at marked named ⊢
          exact frontTenant_named named marked goesOn
      | none =>
          have silent : IsSilent (ownLine tenantId) :=
            ⟨⟨⟨chars, closed⟩, named⟩, marked⟩
          exact frontTenant_silent silent goesOn

/-- Some memory of the owner can have a file that names the reader. -/
def isForgeable (reader owner : NonEmptyString) : Bool :=
  match namedTenant owner.value.toList with
  | some name => name = reader.value.toList
  | none =>
      beforeMark (ownLine owner.value.toList) = none &&
        isTenantName reader.value

theorem isForgeable_of_isTenantName {reader owner : NonEmptyString}
    (different : reader ≠ owner) (clean : isTenantName owner.value = true) :
    isForgeable reader owner = false := by
  obtain ⟨-, named⟩ :=
    namedTenant_of_isTenantName (List.all_eq_true.mp clean)
  unfold isForgeable
  rw [named]
  refine decide_eq_false fun same => different ?_
  exact NonEmptyString.value_injective (String.toList_inj.mp same.symm)

section Owner

variable {reader : NonEmptyString} {memory : CuratedMemory}

/-- The tenant that the file of a memory names. -/
theorem readFileTenant_format (memory : CuratedMemory) :
    ∃ tail, tail.head? = some 'p' ∧
      readFileTenant (formatMemoryAsMarkdown memory) =
        (frontTenant (linesBeforeTenant memory ++
          (ownLine memory.tenantId.value.toList ++
            (lineChars "content_hash" memory.contentHash.toList ++
              (lineChars "author" (memory.author.type.text ++ ":" ++
                memory.author.id.value).toList ++ tail))))).map
          String.ofList ∧
      (beforeMark (linesBeforeTenant memory ++
        (ownLine memory.tenantId.value.toList ++
          (lineChars "content_hash" memory.contentHash.toList ++
            (lineChars "author" (memory.author.type.text ++ ":" ++
              memory.author.id.value).toList ++ tail))))).isSome = true := by
  obtain ⟨tail, shape, starts⟩ := exists_lines memory
  have goesOn : ∀ rest : List Char,
      (linesBeforeTenant memory ++ rest).head? ≠ some '-' := by
    intro rest
    unfold linesBeforeTenant
    rw [List.append_assoc]
    exact head?_lineChars (by decide) _ _
  refine ⟨tail, starts, readFileTenant_of_lines shape (goesOn _), ?_⟩
  have closes := beforeMark_format shape
  have alone : beforeMark ['\n'] = none := by decide
  have front := beforeMark_append_of_none alone rfl (goesOn
    (ownLine memory.tenantId.value.toList ++
      (lineChars "content_hash" memory.contentHash.toList ++
        (lineChars "author" (memory.author.type.text ++ ":" ++
          memory.author.id.value).toList ++ tail))))
  have mapped := congrArg Option.isSome front
  rw [Option.isSome_map] at mapped
  exact mapped.symm.trans closes

/-- The file of a memory whose tenant cannot be forged does not name the
reader. -/
theorem readFileTenant_ne_of_not_forgeable
    (isUuid : isUuidText memory.id.toList = true)
    (unforgeable : isForgeable reader memory.tenantId = false) :
    readFileTenant (formatMemoryAsMarkdown memory) ≠ some reader.value := by
  intro claims
  have readable := isTenantName_of_readFileTenant claims
  obtain ⟨tail, -, owner, -⟩ := readFileTenant_format memory
  rw [owner, Option.map_eq_some_iff] at claims
  obtain ⟨name, named, same⟩ := claims
  have same : name = reader.value.toList := by
    rw [← same, String.toList_ofList]
  subst same
  have goesOn := head?_lineChars (by decide : isOtherKey "content_hash" = true)
    memory.contentHash.toList (lineChars "author" (memory.author.type.text ++
      ":" ++ memory.author.id.value).toList ++ tail)
  unfold isForgeable at unforgeable
  cases marked : beforeMark (titleLine memory) with
  | some front =>
      rw [frontTenant_markedTitle isUuid marked] at named
      exact absurd named (by simp)
  | none =>
      have ownHead : ∀ rest : List Char,
          (ownLine memory.tenantId.value.toList ++ rest).head? ≠ some '-' := by
        intro rest
        rw [ownLine_eq, tenantLine, tenantKey_eq]
        simp
      rw [frontTenant_silent (isSilent_linesBeforeTenant isUuid marked)
        (ownHead _), frontTenant_ownLine _ goesOn] at named
      split_ifs at named with isUnmarked
      · cases own : namedTenant memory.tenantId.value.toList with
        | some name =>
            rw [own] at named unforgeable
            obtain ⟨_, -, rfl⟩ := Option.map_eq_some_iff.mp named
            simp at unforgeable
        | none =>
            rw [own] at unforgeable
            simp [isUnmarked, readable] at unforgeable
      · rw [named] at unforgeable
        simp at unforgeable

end Owner

end Registrar
