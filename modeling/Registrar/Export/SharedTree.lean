import Registrar.Export.TenantFiles

/-!
# One tree for several tenants

A reconcile run for one tenant leaves another tenant's file alone for exactly
the ids in lower case and the tenant names that cannot be forged.
-/

namespace Registrar

/-- An author whose line is followed by a tenant line of the reader. -/
def forgedAuthor (reader : NonEmptyString) : NonEmptyString where
  value := "x\"\ntenant_id: \"" ++ reader.value ++ "\"\ny"
  trimmed := by
    have front : "x\"\ntenant_id: \"".toList =
        'x' :: "\"\ntenant_id: \"".toList := by decide
    have back : "\"\ny".toList = ['"', '\n', 'y'] := by decide
    have notFront : isTrimmedSpace 'x' = false := by decide
    have notBack : isTrimmedSpace 'y' = false := by decide
    apply Trim.trim_eq_self_of_ends
    · intro char first
      rw [String.toList_append, String.toList_append, front] at first
      obtain rfl : 'x' = char := by simpa using first
      exact notFront
    · intro char last
      rw [String.toList_append, back, List.getLast?_append] at last
      obtain rfl : 'y' = char := by simpa using last
      exact notBack
  nonempty := by
    intro empty
    have size := congrArg String.length empty
    simp at size

/-- A note with the given title and author. -/
def plantedNote (id : String) (owner title author : NonEmptyString) :
    CuratedMemory :=
  { exportedNote id owner .active "2026-01-01T08:00:00.000Z" with
    title := title
    author :=
      { type := .human
        id := author
        name := none } }

def plainTitle : NonEmptyString := ⟨"Keys", trim_keys, keys_nonempty⟩

/-- A title that closes the frontmatter. -/
def closingTitle : NonEmptyString :=
  ⟨"Keys\n---", by decide +kernel, by simp⟩

theorem plainTitle_unmarked (id : String) (owner author : NonEmptyString) :
    beforeMark (titleLine (plantedNote id owner plainTitle author)) = none := by
  have plain : titleLine (plantedNote id owner plainTitle author) =
      lineChars "title" ("Keys".toList.flatMap escapeYamlChar) := rfl
  rw [plain]
  decide

theorem closingTitle_marked (id : String) (owner author : NonEmptyString) :
    ∃ front, beforeMark (titleLine (plantedNote id owner closingTitle author)) =
      some front := by
  have closing : titleLine (plantedNote id owner closingTitle author) =
      lineChars "title" ("Keys\n---".toList.flatMap escapeYamlChar) := rfl
  rw [closing]
  exact Option.isSome_iff_exists.mp (by decide)

theorem ownLine_head (tenantId rest : List Char) :
    (ownLine tenantId ++ rest).head? ≠ some '-' := by
  rw [ownLine_eq, tenantLine, tenantKey_eq]
  simp

theorem readFileTenant_closingTitle {id : String}
    (isUuid : isUuidText id.toList = true) (owner author : NonEmptyString) :
    readFileTenant (formatMemoryAsMarkdown
      (plantedNote id owner closingTitle author)) = none := by
  obtain ⟨tail, -, named, -⟩ := readFileTenant_format
    (plantedNote id owner closingTitle author)
  obtain ⟨front, marked⟩ := closingTitle_marked id owner author
  rw [named, frontTenant_markedTitle (by exact isUuid) marked]
  rfl

theorem beforeMark_ownLine {tenantId rest : List Char}
    (unmarked : beforeMark (ownLine tenantId) = none)
    (goesOn : rest.head? ≠ some '-') :
    (beforeMark (ownLine tenantId ++ rest)).isSome =
      (beforeMark rest).isSome := by
  obtain ⟨chars, closed⟩ := ownLine_closed tenantId
  rw [beforeMark_append_of_none unmarked (closed ▸ getLast?_closed chars) goesOn,
    Option.isSome_map]

/-- The lines of the content hash and of the forged author. -/
def forgedLines (reader : NonEmptyString) : List Char :=
  lineChars "content_hash" "hash".toList ++
    lineChars "author" ("human" ++ ":" ++ (forgedAuthor reader).value).toList

theorem forgedLines_eq (reader : NonEmptyString) :
    ∃ silent, IsSilent silent ∧ forgedLines reader =
      silent ++ (ownLine reader.value.toList ++ ['y', '"', '\n']) := by
  have hash : IsSilent (lineChars "content_hash" "hash".toList) :=
    isSilent_lineChars (by decide) (List.all_iff_forall_prop.mp (by decide))
  have author : IsSilent (lineChars "author" "human:x".toList) :=
    isSilent_lineChars (by decide) (List.all_iff_forall_prop.mp (by decide))
  have goesOn : (lineChars "author" "human:x".toList).head? ≠ some '-' := by
    decide
  refine ⟨_, hash.append author goesOn, ?_⟩
  have human : "human".toList ++ ":".toList ++ ['x'] = "human:x".toList := by
    decide
  have smuggled : "x\"\ntenant_id: \"".toList =
      'x' :: '"' :: '\n' :: "tenant_id".toList ++ [':', ' ', '"'] := by
    decide
  have back : "\"\ny".toList = ['"', '\n', 'y'] := by decide
  simp only [forgedLines, lineChars, ownLine, forgedAuthor,
    String.toList_append, back, smuggled, ← human, List.append_assoc,
    List.cons_append, List.nil_append]

theorem frontTenant_forged {reader : NonEmptyString}
    (readable : isTenantName reader.value = true) {tail : List Char}
    (closes : (beforeMark (forgedLines reader ++ tail)).isSome = true) :
    frontTenant (forgedLines reader ++ tail) = some reader.value.toList := by
  obtain ⟨unmarked, named⟩ :=
    namedTenant_of_isTenantName (List.all_eq_true.mp readable)
  obtain ⟨silent, isSilent, lines⟩ := forgedLines_eq reader
  have goesOn : (['y', '"', '\n'] ++ tail).head? ≠ some '-' := by simp
  rw [lines, List.append_assoc, List.append_assoc] at closes ⊢
  rw [beforeMark_silent isSilent (ownLine_head _ _),
    beforeMark_ownLine unmarked goesOn] at closes
  obtain ⟨front, marked⟩ := Option.isSome_iff_exists.mp closes
  rw [frontTenant_silent isSilent (ownLine_head _ _),
    frontTenant_ownLine _ goesOn, if_pos unmarked, named, marked]
  rfl

/-- A forgeable tenant has a note whose file names the reader. -/
theorem exists_forgery {reader owner : NonEmptyString} {id : String}
    (isUuid : isUuidText id.toList = true)
    (forgeable : isForgeable reader owner = true) :
    ∃ author, readFileTenant (formatMemoryAsMarkdown
      (plantedNote id owner plainTitle author)) = some reader.value := by
  have silent := fun author =>
    isSilent_linesBeforeTenant (by exact isUuid)
      (plainTitle_unmarked id owner author)
  refine ⟨forgedAuthor reader, ?_⟩
  obtain ⟨tail, startsP, named, closes⟩ := readFileTenant_format
    (plantedNote id owner plainTitle (forgedAuthor reader))
  rw [beforeMark_silent (silent _) (ownLine_head _ _)] at closes
  have hashHead : (forgedLines reader ++ tail).head? ≠ some '-' := by
    unfold forgedLines
    rw [List.append_assoc]
    exact head?_lineChars (by decide) _ _
  have rest : lineChars "content_hash" "hash".toList ++
      (lineChars "author" ("human" ++ ":" ++
        (forgedAuthor reader).value).toList ++ tail) =
      forgedLines reader ++ tail := by
    unfold forgedLines
    rw [List.append_assoc]
  have closes' : (beforeMark (ownLine owner.value.toList ++
      (forgedLines reader ++ tail))).isSome = true := rest ▸ closes
  have owned : frontTenant (ownLine owner.value.toList ++
      (forgedLines reader ++ tail)) = some reader.value.toList := by
    rw [frontTenant_ownLine _ hashHead]
    unfold isForgeable at forgeable
    cases own : namedTenant owner.value.toList with
    | some name =>
        rw [own] at forgeable
        obtain rfl : name = reader.value.toList := of_decide_eq_true forgeable
        split_ifs with unmarked
        · rw [beforeMark_ownLine unmarked hashHead] at closes'
          obtain ⟨front, marked⟩ := Option.isSome_iff_exists.mp closes'
          simp [marked]
        · rfl
    | none =>
        rw [own] at forgeable
        obtain ⟨unmarked, readable⟩ := Bool.and_eq_true_iff.mp forgeable
        have unmarked := of_decide_eq_true unmarked
        rw [beforeMark_ownLine unmarked hashHead] at closes'
        rw [if_pos unmarked]
        exact frontTenant_forged readable closes'
  rw [named, frontTenant_silent (silent _) (ownLine_head _ _)]
  have shown := congrArg (Option.map String.ofList) owned
  rw [Option.map_some, String.ofList_toList, ← rest] at shown
  exact shown

/-- Whatever the owner's memory with this id says, a reconcile run for the
reader leaves its file on disk. -/
def FileSurvives (reader owner : NonEmptyString) (id : String) : Prop :=
  ∀ (memories : MemoryTable) (config : ExportConfig) (faults : FileFaults)
    (now : String) (world : ExportWorld), ∀ memory ∈ memories.rows,
    memory.tenantId = owner → memory.id = id →
    isExportRestricted memory = false →
    config.tenantId = some reader.value → config.reconcile = true →
    IsOnDisk config.outputDir world.tree memory →
    IsOnDisk config.outputDir
      (runExport faults memories config now world).2.tree memory

theorem runExport_tree (faults : FileFaults) (memories : MemoryTable)
    (config : ExportConfig) (now : String) (world : ExportWorld) :
    (runExport faults memories config now world).2.tree =
      (exportFiles faults memories config world).2.tree := by
  unfold runExport
  dsimp only
  split <;> rename_i ran <;> rw [ran]

variable {reader owner : NonEmptyString} {memories : MemoryTable}
variable {config : ExportConfig} {memory : CuratedMemory}

theorem id_ne_of_covered (stored : memory ∈ memories.rows)
    (different : reader ≠ memory.tenantId)
    (filtered : config.tenantId = some reader.value) {other : CuratedMemory}
    (otherStored : other ∈ memories.rows)
    (covered : covers config.tenantId other) : other.id ≠ memory.id := by
  intro same
  obtain rfl := Table.eq_of_key_eq otherStored stored same
  simp only [covers, filtered, reduceCtorEq, decide_false, Bool.false_or,
    Option.some.injEq, decide_eq_true_eq] at covered
  exact different (NonEmptyString.value_injective covered)

/-- A run for another tenant keeps the file of a memory that its scan does not
condemn. -/
theorem isOnDisk_of_not_removed {faults : FileFaults} {now : String}
    {world : ExportWorld} (stored : memory ∈ memories.rows)
    (different : reader ≠ memory.tenantId)
    (filtered : config.tenantId = some reader.value)
    (kept : exportPath config.outputDir memory ∉
      (detectChanges memories config (world.exportState config.targetId)
        world.tree).toRemove)
    (onDisk : IsOnDisk config.outputDir world.tree memory) :
    IsOnDisk config.outputDir
      (runExport faults memories config now world).2.tree memory := by
  unfold IsOnDisk
  rw [runExport_tree, exportFiles, removeFiles_frame kept, exportChanges_frame]
  · exact onDisk
  · intro other otherStored covered same
    exact id_ne_of_covered stored different filtered otherStored covered
      (getFilename_injective same).symm

/-- The scan for another tenant knows no memory of a lower-case id. -/
theorem staleVerdict_foreign (text : String) (stored : memory ∈ memories.rows)
    (different : reader ≠ memory.tenantId)
    (filtered : config.tenantId = some reader.value)
    (isUuid : isUuidText memory.id.toList = true)
    (lower : foldedId memory.id = memory.id) :
    staleVerdict config.outputDir (exportedMemories memories config.tenantId)
        config.tenantId (exportPath config.outputDir memory) text =
      if readFileTenant text = some reader.value then .orphan else .keep := by
  have absent : (exportedMemories memories config.tenantId).find?
      (fun other => other.id = memory.id) = none := by
    rw [List.find?_eq_none]
    intro other member
    obtain ⟨otherStored, covered⟩ := mem_exportedMemories_iff.mp member
    simpa using
      id_ne_of_covered stored different filtered otherStored covered
  unfold staleVerdict
  rw [exportPath_name, memoryFileId?_getFilename, if_pos isUuid, lower]
  dsimp only
  rw [absent]
  by_cases owns : readFileTenant text = some reader.value
  · simp [filtered, owns]
  · simp [filtered, owns]

theorem fileSurvives_of_unforgeable {id : String} (different : reader ≠ owner)
    (safe : isUuidText id.toList = false ∨
      foldedId id = id ∧ isForgeable reader owner = false) :
    FileSurvives reader owner id := by
  intro memories config faults now world memory stored owned named allowed
    filtered reconcile onDisk
  subst owned named
  refine isOnDisk_of_not_removed stored different filtered ?_ onDisk
  rw [mem_removed_iff]
  rintro ⟨-, -, text, found, condemned⟩
  cases isUuid : isUuidText memory.id.toList with
  | false =>
      have kept : staleVerdict config.outputDir
          (exportedMemories memories config.tenantId) config.tenantId
          (exportPath config.outputDir memory) text = .keep := by
        unfold staleVerdict
        rw [exportPath_name, memoryFileId?_getFilename, isUuid]
        rfl
      simp [kept] at condemned
  | true =>
      obtain ⟨lower, unforgeable⟩ := safe.resolve_left (by simp [isUuid])
      have named := readFileTenant_ne_of_not_forgeable isUuid unforgeable
      obtain rfl : text = formatMemoryAsMarkdown memory :=
        Option.some.inj (found.symm.trans onDisk)
      have kept := staleVerdict_foreign (formatMemoryAsMarkdown memory) stored
        different filtered isUuid lower
      rw [if_neg named] at kept
      simp [kept] at condemned

/-- A reconcile run with the default limit that condemns the file of a memory
removes it. -/
theorem not_survives_of_condemned {id : String}
    (stored : memory ∈ memories.rows) (owned : memory.tenantId = owner)
    (named : memory.id = id) (allowed : isExportRestricted memory = false)
    (condemned : IsCondemned memories (reconcileExport reader)
      (exportPath "kb-export" memory) (formatMemoryAsMarkdown memory)) :
    ¬FileSurvives reader owner id := by
  intro survives
  have onDisk : IsOnDisk "kb-export" (oneFile (exportPath "kb-export" memory)
      (formatMemoryAsMarkdown memory)).tree memory := by
    simp [IsOnDisk, oneFile_read]
  have kept := survives memories (reconcileExport reader) .none "" _ memory
    stored owned named allowed rfl rfl onDisk
  have gone := condemned.removed rfl rfl ""
  exact absurd (gone.symm.trans kept) (by simp)

/-- The twin of an upper-case id, in lower case and of the reader, makes the
run take the file for a leftover of its own. -/
theorem not_survives_of_upper {id : String}
    (isUuid : isUuidText id.toList = true) (upper : foldedId id ≠ id) :
    ¬FileSurvives reader owner id := by
  let note := plantedNote id owner closingTitle plainTitle
  let twin := exportedNote (foldedId id) reader .active
    "2026-01-01T08:00:00.000Z"
  let both : MemoryTable :=
    { rows := [note, twin]
      coexist := by
        refine List.pairwise_pair.mpr fun same => ?_
        exact upper same.symm }
  have stored : note ∈ both.rows := List.mem_cons_self
  refine not_survives_of_condemned stored rfl rfl rfl (.inl ?_)
  have twinStored : twin ∈ both.rows :=
    List.mem_cons_of_mem note List.mem_cons_self
  have twinCovered : covers (reconcileExport reader).tenantId twin := by
    simp [covers, reconcileExport, defaultExport, twin, exportedNote]
  exact staleVerdict_twin twinStored twinCovered isUuid upper rfl
    (readFileTenant_closingTitle isUuid owner plainTitle)

theorem not_survives_of_forgeable {id : String} (different : reader ≠ owner)
    (isUuid : isUuidText id.toList = true) (lower : foldedId id = id)
    (forgeable : isForgeable reader owner = true) :
    ¬FileSurvives reader owner id := by
  obtain ⟨author, named⟩ := exists_forgery isUuid forgeable
  let note := plantedNote id owner plainTitle author
  have stored : note ∈ (onlyMemory note).rows := List.mem_cons_self
  have filtered : (reconcileExport reader).tenantId = some reader.value := rfl
  have positive : (reconcileExport reader).orphanLimit ≠ 0 := by
    simp [ExportConfig.orphanLimit, reconcileExport, defaultExport,
      defaultMaxOrphanRemovals]
  have verdict := staleVerdict_foreign (formatMemoryAsMarkdown note) stored
    different filtered isUuid lower
  rw [if_pos named] at verdict
  exact not_survives_of_condemned stored rfl rfl rfl (.inr ⟨verdict, positive⟩)

/-- Which files of other tenants reconcile runs leave alone. -/
theorem fileSurvives_iff {id : String} (different : reader ≠ owner) :
    FileSurvives reader owner id ↔
      isUuidText id.toList = false ∨
        foldedId id = id ∧ isForgeable reader owner = false := by
  refine ⟨fun survives => ?_, fileSurvives_of_unforgeable different⟩
  cases isUuid : isUuidText id.toList with
  | false => exact .inl rfl
  | true =>
      have lower : foldedId id = id := by
        by_contra upper
        exact not_survives_of_upper isUuid upper survives
      refine .inr ⟨lower, ?_⟩
      by_contra forgeable
      exact not_survives_of_forgeable different isUuid lower
        (Bool.not_eq_false _ ▸ forgeable) survives

def noteId : String := "11111111-1111-4111-8111-111111111111"

theorem southNote_survives : FileSurvives northTeam southTeam noteId :=
  (fileSurvives_iff (by decide +kernel)).mpr
    (.inr ⟨by decide +kernel,
      isForgeable_of_isTenantName (by decide +kernel) (by decide +kernel)⟩)

/-- A team whose name breaks its tenant line. -/
def quotedTeam : NonEmptyString :=
  ⟨"south \"lab\"", by decide +kernel, by simp⟩

theorem quotedNote_removed : ¬FileSurvives northTeam quotedTeam noteId :=
  not_survives_of_forgeable (by decide +kernel) (by decide +kernel)
    (by decide +kernel) (by decide +kernel)

end Registrar
