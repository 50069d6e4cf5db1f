import Registrar.Export.Exporter

/-!
# Turns of an export run

The turn of a memory changes only files of that memory's name.  A run over
memories with different ids therefore does to each name what the one turn of
that memory does.
-/

namespace Registrar

variable {faults : FileFaults} {outputDir : String}

theorem writeFile_read_of_ne {path wanted : ExportPath} {content : String}
    {run : ExportRun} (different : wanted ≠ path) :
    (writeFile faults path content run).2.tree.read wanted =
      run.tree.read wanted := by
  unfold writeFile
  split
  · simp [FileOperation.apply, FileTree.read_write_of_ne, different]
  · split
    · rfl
    · simp [FileOperation.apply, FileTree.read_write_of_ne, different]

theorem writeFile_read_self {path : ExportPath} {content : String}
    {run : ExportRun}
    (succeeds : (writeFile faults path content run).1 = none) :
    (writeFile faults path content run).2.tree.read path = some content := by
  unfold writeFile at succeeds ⊢
  split at succeeds
  · simp [FileOperation.apply]
  · split at succeeds <;> simp at succeeds

theorem writeFile_quarantined {path : ExportPath} {content : String}
    {run : ExportRun} :
    (writeFile faults path content run).2.quarantined = run.quarantined := by
  unfold writeFile
  split
  · rfl
  · split <;> rfl

theorem archiveFile_read_of_ne {fromPath toPath wanted : ExportPath}
    {content : String} {run : ExportRun} (notFrom : wanted ≠ fromPath)
    (notTo : wanted ≠ toPath) :
    (archiveFile faults fromPath toPath content run).2.tree.read wanted =
      run.tree.read wanted := by
  unfold archiveFile
  split_ifs
  · split
    · rfl
    · rw [writeFile_read_of_ne notTo]
      simp [FileOperation.apply, FileTree.read_unlink_of_ne, notFrom]
  · exact writeFile_read_of_ne notTo

theorem archiveFile_reads {fromPath toPath : ExportPath} {content : String}
    {run : ExportRun} (different : fromPath ≠ toPath)
    (succeeds : (archiveFile faults fromPath toPath content run).1 = none) :
    (archiveFile faults fromPath toPath content run).2.tree.read toPath =
        some content ∧
      (archiveFile faults fromPath toPath content run).2.tree.read fromPath =
        none := by
  unfold archiveFile at succeeds ⊢
  split_ifs at succeeds ⊢ with present
  · split at succeeds
    · simp at succeeds
    · refine ⟨writeFile_read_self succeeds, ?_⟩
      rw [writeFile_read_of_ne different]
      simp [FileOperation.apply]
  · refine ⟨writeFile_read_self succeeds, ?_⟩
    rw [writeFile_read_of_ne different]
    simpa [FileTree.exists?] using present

theorem archiveFile_succeeds {fromPath toPath : ExportPath}
    {content : String} {run : ExportRun} :
    (archiveFile .none fromPath toPath content run).1 = none := by
  unfold archiveFile writeFile
  split_ifs <;> rfl

theorem archiveFile_quarantined {fromPath toPath : ExportPath}
    {content : String} {run : ExportRun} :
    (archiveFile faults fromPath toPath content run).2.quarantined =
      run.quarantined := by
  unfold archiveFile
  split_ifs
  · split
    · rfl
    · exact writeFile_quarantined
  · exact writeFile_quarantined

theorem exportPath_name (outputDir : String) (memory : CuratedMemory) :
    (exportPath outputDir memory).name = getFilename memory.id := rfl

theorem ne_of_name_ne {left right : ExportPath}
    (different : left.name ≠ right.name) : left ≠ right :=
  fun same => different (congrArg ExportPath.name same)

theorem writeMemory_read_of_ne {run : ExportRun} {memory : CuratedMemory}
    {wanted : ExportPath} (different : wanted ≠ exportPath outputDir memory) :
    (writeMemory faults outputDir run memory).tree.read wanted =
      run.tree.read wanted := by
  unfold writeMemory
  split_ifs
  · rfl
  · dsimp only
    split_ifs
    · rfl
    · have kept : (writeFile faults (exportPath outputDir memory)
          (formatMemoryAsMarkdown memory) run).2.tree.read wanted =
            run.tree.read wanted := writeFile_read_of_ne different
      split <;> rename_i written <;> rw [written] at kept <;> exact kept

theorem writeMemory_restricted {run : ExportRun} {memory : CuratedMemory}
    (restricted : isExportRestricted memory = true) :
    (writeMemory faults outputDir run memory).tree = run.tree := by
  unfold writeMemory
  rw [if_pos restricted]
  rfl

theorem writeMemory_quarantined_prefix (run : ExportRun)
    (memory : CuratedMemory) :
    run.quarantined <+: (writeMemory faults outputDir run memory).quarantined := by
  unfold writeMemory
  split_ifs
  · exact List.prefix_rfl
  · dsimp only
    split_ifs
    · exact List.prefix_rfl
    · have same : (writeFile faults (exportPath outputDir memory)
          (formatMemoryAsMarkdown memory) run).2.quarantined =
            run.quarantined := writeFile_quarantined
      split <;> rename_i written <;> rw [written] at same
      · rw [← same]
        exact List.prefix_append _ _
      · exact same ▸ List.prefix_rfl

/-- The turn of an unrestricted memory leaves its file on disk, or sets the
memory aside. -/
theorem writeMemory_outcome {run : ExportRun} {memory : CuratedMemory}
    (allowed : isExportRestricted memory = false) :
    (writeMemory faults outputDir run memory).tree.read
        (exportPath outputDir memory) = some (formatMemoryAsMarkdown memory) ∨
      faults.write (exportPath outputDir memory) ≠ none ∧
        (writeMemory faults outputDir run memory).quarantined ≠ [] := by
  unfold writeMemory
  rw [if_neg (by simp [allowed])]
  dsimp only
  split_ifs with same
  · exact .inl same
  · split <;> rename_i written
    · refine .inr ⟨?_, by simp [ExportRun.quarantine]⟩
      intro noFault
      simp [writeFile, noFault] at written
    · have succeeds : (writeFile faults (exportPath outputDir memory)
          (formatMemoryAsMarkdown memory) run).1 = none := by rw [written]
      have read := writeFile_read_self succeeds
      rw [written] at read
      exact .inl read

theorem archiveMemory_read_of_ne {run : ExportRun} {memory : CuratedMemory}
    {wanted : ExportPath} (notTo : wanted ≠ exportPath outputDir memory)
    (notFrom : wanted ≠ activePath outputDir memory) :
    (archiveMemory faults outputDir run memory).tree.read wanted =
      run.tree.read wanted := by
  unfold archiveMemory
  split_ifs
  · rfl
  · dsimp only
    split_ifs
    · rfl
    · have kept : (archiveFile faults (activePath outputDir memory)
          (exportPath outputDir memory) (formatMemoryAsMarkdown memory)
          run).2.tree.read wanted = run.tree.read wanted :=
        archiveFile_read_of_ne notFrom notTo
      split <;> rename_i written <;> rw [written] at kept <;> exact kept

theorem archiveMemory_restricted {run : ExportRun} {memory : CuratedMemory}
    (restricted : isExportRestricted memory = true) :
    (archiveMemory faults outputDir run memory).tree = run.tree := by
  unfold archiveMemory
  rw [if_pos restricted]
  rfl

theorem archiveMemory_quarantined_prefix (run : ExportRun)
    (memory : CuratedMemory) :
    run.quarantined <+:
      (archiveMemory faults outputDir run memory).quarantined := by
  unfold archiveMemory
  split_ifs
  · exact List.prefix_rfl
  · dsimp only
    split_ifs
    · exact List.prefix_rfl
    · have same : (archiveFile faults (activePath outputDir memory)
          (exportPath outputDir memory) (formatMemoryAsMarkdown memory)
          run).2.quarantined = run.quarantined := archiveFile_quarantined
      split <;> rename_i written <;> rw [written] at same
      · rw [← same]
        exact List.prefix_append _ _
      · exact same ▸ List.prefix_rfl

/-- Without faults, the turn of an unrestricted memory leaves its file in the
archive and no file where it was while active. -/
theorem archiveMemory_archives {run : ExportRun} {memory : CuratedMemory}
    (allowed : isExportRestricted memory = false)
    (retired : getDirectory memory = .archive) :
    (archiveMemory .none outputDir run memory).tree.read
        (exportPath outputDir memory) = some (formatMemoryAsMarkdown memory) ∧
      (archiveMemory .none outputDir run memory).tree.read
        (activePath outputDir memory) = none := by
  have different : activePath outputDir memory ≠ exportPath outputDir memory := by
    intro same
    have directories : getActiveDirectory memory = getDirectory memory :=
      congrArg ExportPath.directory same
    exact getActiveDirectory_ne_archive memory (directories.trans retired)
  unfold archiveMemory
  rw [if_neg (by simp [allowed])]
  dsimp only
  split_ifs with same
  · have gone : run.tree.read (activePath outputDir memory) = none := by
      simpa [FileTree.exists?] using same.1
    exact ⟨same.2, gone⟩
  · have succeeds : (archiveFile .none (activePath outputDir memory)
        (exportPath outputDir memory) (formatMemoryAsMarkdown memory) run).1 =
          none := archiveFile_succeeds
    have reads := archiveFile_reads different succeeds
    split <;> rename_i written <;> rw [written] at succeeds reads
    · simp at succeeds
    · exact reads

/-! ## All turns -/

/-- A turn that changes files of its memory's name only, and forgets no memory
that was set aside. -/
structure IsTurn (turn : ExportRun → CuratedMemory → ExportRun) : Prop where
  frame : ∀ run memory (path : ExportPath),
    path.name ≠ getFilename memory.id →
      (turn run memory).tree.read path = run.tree.read path
  grows : ∀ run memory, run.quarantined <+: (turn run memory).quarantined

theorem isTurn_writeMemory (faults : FileFaults) (outputDir : String) :
    IsTurn (writeMemory faults outputDir) where
  frame _ _ _ different :=
    writeMemory_read_of_ne (ne_of_name_ne different)
  grows := writeMemory_quarantined_prefix

theorem isTurn_archiveMemory (faults : FileFaults) (outputDir : String) :
    IsTurn (archiveMemory faults outputDir) where
  frame _ _ _ different :=
    archiveMemory_read_of_ne (ne_of_name_ne different) (ne_of_name_ne different)
  grows := archiveMemory_quarantined_prefix

namespace IsTurn

variable {turn : ExportRun → CuratedMemory → ExportRun}

theorem foldl_frame (isTurn : IsTurn turn) {memories : List CuratedMemory}
    {path : ExportPath} (run : ExportRun)
    (other : ∀ memory ∈ memories, path.name ≠ getFilename memory.id) :
    (memories.foldl turn run).tree.read path = run.tree.read path := by
  induction memories generalizing run with
  | nil => rfl
  | cons memory rest induction =>
      rw [List.foldl_cons, induction _ fun later member =>
        other later (List.mem_cons_of_mem memory member)]
      exact isTurn.frame run memory path (other memory List.mem_cons_self)

theorem foldl_grows (isTurn : IsTurn turn) (memories : List CuratedMemory)
    (run : ExportRun) :
    run.quarantined <+: (memories.foldl turn run).quarantined := by
  induction memories generalizing run with
  | nil => exact List.prefix_rfl
  | cons memory rest induction =>
      exact (isTurn.grows run memory).trans (induction (turn run memory))

/-- Among memories with different ids, each has one turn, from a run that
still has the old files of its name, and that turn has the last word on
them. -/
theorem exists_turn (isTurn : IsTurn turn) {memories : List CuratedMemory}
    (distinct : memories.Pairwise (Table.DistinctKey CuratedMemory.id))
    {memory : CuratedMemory} (member : memory ∈ memories) (run : ExportRun) :
    ∃ before : ExportRun,
      (∀ path : ExportPath, path.name = getFilename memory.id →
        before.tree.read path = run.tree.read path ∧
        (memories.foldl turn run).tree.read path =
          (turn before memory).tree.read path) ∧
      (turn before memory).quarantined <+:
        (memories.foldl turn run).quarantined := by
  induction memories generalizing run with
  | nil => simp at member
  | cons first rest induction =>
      obtain ⟨apart, distinct⟩ := List.pairwise_cons.mp distinct
      rcases List.mem_cons.mp member with rfl | later
      · refine ⟨run, ?_, foldl_grows isTurn rest _⟩
        intro path named
        refine ⟨rfl, foldl_frame isTurn (turn run memory) ?_⟩
        intro other otherMember same
        exact apart other otherMember
          (getFilename_injective (named.symm.trans same))
      · obtain ⟨before, files, kept⟩ := induction distinct later (turn run first)
        refine ⟨before, ?_, kept⟩
        intro path named
        obtain ⟨old, new⟩ := files path named
        refine ⟨old.trans (isTurn.frame run first path ?_), new⟩
        intro same
        exact apart memory later
          (getFilename_injective (same.symm.trans named))

end IsTurn

/-- A run with this tenant filter reads the memory. -/
def covers (tenantId : Option String) (memory : CuratedMemory) : Bool :=
  tenantId = none || tenantId = some memory.tenantId.value

theorem mem_exportedMemories_iff {memories : MemoryTable}
    {tenantId : Option String} {memory : CuratedMemory} :
    memory ∈ exportedMemories memories tenantId ↔
      memory ∈ memories.rows ∧ covers tenantId memory := by
  cases tenantId with
  | some tenantId =>
      simp [exportedMemories, covers, eq_comm]
  | none =>
      have someLifecycle : memory.lifecycle = .active ∨
          memory.lifecycle = .deprecated ∨ memory.lifecycle = .superseded ∨
          memory.lifecycle = .archived := by
        cases memory.lifecycle <;> simp
      simp only [exportedMemories, covers, List.mem_flatMap, List.mem_filter,
        decide_eq_true_eq, List.mem_cons, List.not_mem_nil, or_false]
      constructor
      · rintro ⟨_, -, member, -⟩
        exact ⟨member, rfl⟩
      · rintro ⟨member, -⟩
        exact ⟨memory.lifecycle, someLifecycle, member, rfl⟩

theorem exportedMemories_distinct (memories : MemoryTable)
    (tenantId : Option String) :
    (exportedMemories memories tenantId).Pairwise
      (Table.DistinctKey CuratedMemory.id) := by
  cases tenantId with
  | some tenantId => exact memories.coexist.filter _
  | none =>
      unfold exportedMemories
      rw [List.pairwise_flatMap]
      refine ⟨fun _ _ => memories.coexist.filter _, ?_⟩
      have apart : ∀ left right : MemoryLifecycleState, left ≠ right →
          ∀ first ∈ memories.rows.filter (fun memory => memory.lifecycle = left),
          ∀ second ∈ memories.rows.filter
            (fun memory => memory.lifecycle = right),
            Table.DistinctKey CuratedMemory.id first second := by
        intro left right different first firstMember second secondMember same
        obtain ⟨firstRow, firstState⟩ := List.mem_filter.mp firstMember
        obtain ⟨secondRow, secondState⟩ := List.mem_filter.mp secondMember
        have equal := Table.eq_of_key_eq firstRow secondRow same
        rw [equal] at firstState
        exact different ((of_decide_eq_true firstState).symm.trans
          (of_decide_eq_true secondState))
      have states : [MemoryLifecycleState.active, .deprecated, .superseded,
          .archived].Pairwise (· ≠ ·) := by decide
      exact states.imp fun {left right} different =>
        apart left right different

/-- The run looks at the row. -/
def isSelected (config : ExportConfig) (lastExportedAt : Option String)
    (memory : CuratedMemory) : Bool :=
  covers config.tenantId memory && isChanged config lastExportedAt memory

/-- The turn of a memory in a run. -/
def exportMemory (faults : FileFaults) (config : ExportConfig)
    (lastExportedAt : Option String) (run : ExportRun)
    (memory : CuratedMemory) : ExportRun :=
  if isSelected config lastExportedAt memory then
    if getDirectory memory = .archive then
      archiveMemory faults config.outputDir run memory
    else writeMemory faults config.outputDir run memory
  else run

theorem mem_toWrite_iff {memories : MemoryTable} {config : ExportConfig}
    {lastExportedAt : Option String} {tree : ExportTree}
    {memory : CuratedMemory} :
    memory ∈ (detectChanges memories config lastExportedAt tree).toWrite ↔
      memory ∈ memories.rows ∧ isSelected config lastExportedAt memory ∧
        getDirectory memory ≠ .archive := by
  simp only [detectChanges, isSelected, List.mem_filter,
    mem_exportedMemories_iff, decide_eq_true_eq, Bool.and_eq_true, and_assoc,
    ne_eq]

theorem mem_toArchive_iff {memories : MemoryTable} {config : ExportConfig}
    {lastExportedAt : Option String} {tree : ExportTree}
    {memory : CuratedMemory} :
    memory ∈ (detectChanges memories config lastExportedAt tree).toArchive ↔
      memory ∈ memories.rows ∧ isSelected config lastExportedAt memory ∧
        getDirectory memory = .archive := by
  simp only [detectChanges, isSelected, List.mem_filter,
    mem_exportedMemories_iff, decide_eq_true_eq, Bool.and_eq_true, and_assoc,
    ne_eq]

theorem toWrite_distinct (memories : MemoryTable) (config : ExportConfig)
    (lastExportedAt : Option String) (tree : ExportTree) :
    (detectChanges memories config lastExportedAt tree).toWrite.Pairwise
      (Table.DistinctKey CuratedMemory.id) :=
  ((exportedMemories_distinct memories config.tenantId).filter _).filter _

theorem toArchive_distinct (memories : MemoryTable) (config : ExportConfig)
    (lastExportedAt : Option String) (tree : ExportTree) :
    (detectChanges memories config lastExportedAt tree).toArchive.Pairwise
      (Table.DistinctKey CuratedMemory.id) :=
  ((exportedMemories_distinct memories config.tenantId).filter _).filter _

/-- The run after its loops. -/
def changesOf (faults : FileFaults) (memories : MemoryTable)
    (config : ExportConfig) (world : ExportWorld) : ExportRun :=
  exportChanges faults config.outputDir
    (detectChanges memories config (world.exportState config.targetId)
      world.tree) world.tree

/-- To the files of a stored memory's name, a run does what the turn of that
memory does. -/
theorem exists_exportTurn (faults : FileFaults) {memories : MemoryTable}
    (config : ExportConfig) (lastExportedAt : Option String)
    (tree : ExportTree) {memory : CuratedMemory}
    (stored : memory ∈ memories.rows) :
    ∃ before : ExportRun,
      (∀ path : ExportPath, path.name = getFilename memory.id →
        before.tree.read path = tree.read path ∧
        (exportChanges faults config.outputDir
            (detectChanges memories config lastExportedAt tree)
            tree).tree.read path =
          (exportMemory faults config lastExportedAt before
            memory).tree.read path) ∧
      ((exportChanges faults config.outputDir
          (detectChanges memories config lastExportedAt tree)
          tree).quarantined = [] →
        (exportMemory faults config lastExportedAt before
          memory).quarantined = []) := by
  have otherName : ∀ other ∈ memories.rows, other ≠ memory →
      ∀ path : ExportPath, path.name = getFilename memory.id →
        path.name ≠ getFilename other.id := by
    intro other otherStored different path named same
    exact different (Table.eq_of_key_eq otherStored stored
      (getFilename_injective (same.symm.trans named)))
  unfold exportChanges exportMemory
  generalize madeChangeset :
    detectChanges memories config lastExportedAt tree = changeset
  have writes := fun other => madeChangeset ▸ @mem_toWrite_iff memories config
    lastExportedAt tree other
  have archives := fun other => madeChangeset ▸ @mem_toArchive_iff memories
    config lastExportedAt tree other
  have writesDistinct := madeChangeset ▸
    toWrite_distinct memories config lastExportedAt tree
  have archivesDistinct := madeChangeset ▸
    toArchive_distinct memories config lastExportedAt tree
  have notWritten : memory ∉ changeset.toWrite →
      ∀ (path : ExportPath), path.name = getFilename memory.id →
        ∀ run, (changeset.toWrite.foldl (writeMemory faults config.outputDir)
          run).tree.read path = run.tree.read path := by
    intro absent path named run
    refine (isTurn_writeMemory faults config.outputDir).foldl_frame run
      fun other member => ?_
    exact otherName other ((writes other).mp member).1
      (fun same => absent (same ▸ member)) path named
  have notArchived : memory ∉ changeset.toArchive →
      ∀ (path : ExportPath), path.name = getFilename memory.id →
        ∀ run, (changeset.toArchive.foldl
          (archiveMemory faults config.outputDir) run).tree.read path =
            run.tree.read path := by
    intro absent path named run
    refine (isTurn_archiveMemory faults config.outputDir).foldl_frame run
      fun other member => ?_
    exact otherName other ((archives other).mp member).1
      (fun same => absent (same ▸ member)) path named
  split_ifs with selected retired
  · -- the archive loop has the memory's turn
    have written : memory ∉ changeset.toWrite :=
      fun member => ((writes memory).mp member).2.2 retired
    have archived := (archives memory).mpr ⟨stored, selected, retired⟩
    obtain ⟨before, files, kept⟩ :=
      (isTurn_archiveMemory faults config.outputDir).exists_turn
        archivesDistinct archived
      (changeset.toWrite.foldl (writeMemory faults config.outputDir)
        (.begin tree))
    refine ⟨before, fun path named => ?_, fun none =>
      List.prefix_nil.mp (none ▸ kept)⟩
    obtain ⟨old, new⟩ := files path named
    exact ⟨old.trans (notWritten written path named _), new⟩
  · have archived : memory ∉ changeset.toArchive :=
      fun member => retired ((archives memory).mp member).2.2
    have written := (writes memory).mpr ⟨stored, selected, retired⟩
    obtain ⟨before, files, kept⟩ :=
      (isTurn_writeMemory faults config.outputDir).exists_turn
        writesDistinct written (.begin tree)
    refine ⟨before, fun path named => ?_, fun none => ?_⟩
    · obtain ⟨old, new⟩ := files path named
      exact ⟨old, (notArchived archived path named _).trans new⟩
    · have later :=
        (isTurn_archiveMemory faults config.outputDir).foldl_grows
          changeset.toArchive
          (changeset.toWrite.foldl (writeMemory faults config.outputDir)
            (.begin tree))
      exact List.prefix_nil.mp (none ▸ kept.trans later)
  · have written : memory ∉ changeset.toWrite :=
      fun member => selected ((writes memory).mp member).2.1
    have archived : memory ∉ changeset.toArchive :=
      fun member => selected ((archives memory).mp member).2.1
    refine ⟨.begin tree, fun path named => ⟨rfl, ?_⟩, fun _ => rfl⟩
    exact (notArchived archived path named _).trans
      (notWritten written path named _)

/-- A file whose name no stored memory gives is left alone by the two
loops. -/
theorem exportChanges_frame {memories : MemoryTable} {config : ExportConfig}
    {lastExportedAt : Option String} {tree : ExportTree} {path : ExportPath}
    (unnamed : ∀ memory ∈ memories.rows, covers config.tenantId memory →
      path.name ≠ getFilename memory.id) :
    (exportChanges faults config.outputDir
        (detectChanges memories config lastExportedAt tree) tree).tree.read
        path = tree.read path := by
  unfold exportChanges
  rw [(isTurn_archiveMemory faults config.outputDir).foldl_frame,
    (isTurn_writeMemory faults config.outputDir).foldl_frame]
  · rfl
  · intro memory member
    obtain ⟨stored, selected, -⟩ := mem_toWrite_iff.mp member
    exact unnamed memory stored (Bool.and_eq_true_iff.mp selected).1
  · intro memory member
    obtain ⟨stored, selected, -⟩ := mem_toArchive_iff.mp member
    exact unnamed memory stored (Bool.and_eq_true_iff.mp selected).1

/-- Removals that succeed leave none of the files and touch no other. -/
theorem removeFiles_read {paths : List ExportPath} {run : ExportRun}
    (succeeds : (removeFiles faults paths run).1 = none)
    (wanted : ExportPath) :
    (removeFiles faults paths run).2.tree.read wanted =
      if wanted ∈ paths then none else run.tree.read wanted := by
  induction paths generalizing run with
  | nil => simp [removeFiles]
  | cons path rest induction =>
      unfold removeFiles at succeeds ⊢
      by_cases present : run.tree.exists? path = true
      · rw [if_pos present] at succeeds ⊢
        split at succeeds
        · simp at succeeds
        · rw [induction succeeds]
          by_cases first : wanted = path <;> by_cases later : wanted ∈ rest <;>
            simp [FileTree.read_unlink, first, later]
      · rw [if_neg present] at succeeds ⊢
        rw [induction succeeds]
        have gone : run.tree.read path = none := by
          simpa [FileTree.exists?] using present
        by_cases first : wanted = path <;> by_cases later : wanted ∈ rest <;>
          simp [gone, first, later]

theorem removeFiles_frame {paths : List ExportPath} {run : ExportRun}
    {wanted : ExportPath} (unlisted : wanted ∉ paths) :
    (removeFiles faults paths run).2.tree.read wanted =
      run.tree.read wanted := by
  induction paths generalizing run with
  | nil => rfl
  | cons path rest induction =>
      obtain ⟨first, later⟩ := not_or.mp (unlisted ∘ List.mem_cons.mpr)
      unfold removeFiles
      split_ifs
      · split
        · rfl
        · rw [induction later]
          simp [FileTree.read_unlink_of_ne, first]
      · exact induction later

end Registrar
