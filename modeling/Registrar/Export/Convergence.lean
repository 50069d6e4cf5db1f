import Registrar.Export.RestrictedFiles
import Registrar.Export.TenantLine

/-!
# Convergence of reconcile runs

After a crash anywhere in a reconcile run, a complete one leaves the desired
tree and the next one changes nothing.  This rests on the scan recognizing the
files that the loops write: a memory's id has to be the id that the scan reads
off its file.
-/

namespace Registrar

variable {memories : MemoryTable} {config : ExportConfig} {now : String}
variable {world : ExportWorld} {memory : CuratedMemory} {path : ExportPath}
variable {text : String}

/-- The tenant filter takes the file for the tenant's own. -/
def isAttributed (tenantId : Option String) (text : String) : Prop :=
  tenantId = none ∨ readFileTenant text = tenantId

/-- Each unrestricted memory lies at its place, and no other file named by a
UUID is attributed to the tenant. -/
structure IsDesired (config : ExportConfig) (memories : MemoryTable)
    (tree : ExportTree) : Prop where
  present : ∀ memory ∈ exportedMemories memories config.tenantId,
    isExportRestricted memory = false → IsOnDisk config.outputDir tree memory
  nothingElse : ∀ path text, tree.read path = some text →
    path.outputDir = config.outputDir → memoryFileId? path.name ≠ none →
    isAttributed config.tenantId text →
    ∃ memory ∈ exportedMemories memories config.tenantId,
      isExportRestricted memory = false ∧
        path = exportPath config.outputDir memory

/-- What a crash leaves of a run: the effect of its first operations and, if
`torn` says so, something other than the content of the file being written. -/
def crashedTree (tree : ExportTree) (operations : List FileOperation)
    (done : Nat) (torn : Option String) : ExportTree :=
  let reached := (operations.take done).foldl FileOperation.apply tree
  match torn, operations[done]? with
  | some text, some (.write path _) => reached.write path text
  | _, _ => reached

/-- From a crash at any point of a reconcile run, one complete run leads to the
desired tree and one more does nothing. -/
def ReconcileConverges (memories : MemoryTable) (config : ExportConfig) :
    Prop :=
  ∀ (world : ExportWorld) (done : Nat) (torn : Option String)
    (now later : String),
    let crashed : ExportWorld :=
      { world with
        tree := crashedTree world.tree
          (exportFiles .none memories config world).2.operations done torn }
    orphanCount config.outputDir (exportedMemories memories config.tenantId)
      config.tenantId crashed.tree ≤ config.orphanLimit →
    let repaired := (runExport .none memories config now crashed).2
    IsDesired config memories repaired.tree ∧
      ∃ result,
        (runExport .none memories config later repaired).1 = .ok result ∧
          result.written = [] ∧ result.archived = [] ∧ result.removed = []

/-- The scan recognizes the file of the memory by its id, or takes it for
nobody's that it may remove. -/
def IsRecognized (config : ExportConfig) (memories : MemoryTable)
    (memory : CuratedMemory) : Prop :=
  isUuidText memory.id.toList = true → foldedId memory.id ≠ memory.id →
    (∀ other ∈ exportedMemories memories config.tenantId,
      other.id ≠ foldedId memory.id) ∧
    (config.orphanLimit = 0 ∨ ∃ tenantId, config.tenantId = some tenantId ∧
      isTenantName tenantId = false)

/-- The scan condemns a file that is not desired. -/
theorem staleVerdict_of_undesired
    (named : memoryFileId? path.name ≠ none)
    (attributed : isAttributed config.tenantId text)
    (undesired : ∀ memory ∈ exportedMemories memories config.tenantId,
      isExportRestricted memory = false →
        path ≠ exportPath config.outputDir memory) :
    staleVerdict config.outputDir (exportedMemories memories config.tenantId)
        config.tenantId path text = .relocated ∨
      staleVerdict config.outputDir (exportedMemories memories config.tenantId)
        config.tenantId path text = .orphan := by
  unfold staleVerdict
  split
  · exact absurd ‹_› named
  · split
    · rename_i memory found
      have member := List.mem_of_find?_eq_some found
      rw [if_neg, if_neg]
      · exact .inl rfl
      · rintro ⟨filtered, names, other⟩
        exact attributed.elim filtered other
      · rintro ⟨allowed, placed⟩
        exact undesired memory member allowed placed.symm
    · rw [if_neg]
      · exact .inr rfl
      · rintro ⟨filtered, other⟩
        exact attributed.elim filtered other

/-- The scan keeps the file of a recognized memory in its place, unless it
counts as an orphan that may not be removed. -/
theorem staleVerdict_of_desired (text : String)
    (stored : memory ∈ memories.rows)
    (covered : covers config.tenantId memory)
    (allowed : isExportRestricted memory = false)
    (recognized : IsRecognized config memories memory) :
    staleVerdict config.outputDir (exportedMemories memories config.tenantId)
        config.tenantId (exportPath config.outputDir memory) text = .keep ∨
      staleVerdict config.outputDir (exportedMemories memories config.tenantId)
          config.tenantId (exportPath config.outputDir memory) text = .orphan ∧
        config.orphanLimit = 0 := by
  unfold staleVerdict
  rw [exportPath_name, memoryFileId?_getFilename]
  by_cases isUuid : isUuidText memory.id.toList = true
  · rw [if_pos isUuid]
    dsimp only
    by_cases lower : foldedId memory.id = memory.id
    · rw [lower, find?_exportedMemories.mpr ⟨stored, covered, rfl⟩]
      simp [allowed]
    · obtain ⟨unknown, spared⟩ := recognized isUuid lower
      have absent : (exportedMemories memories config.tenantId).find?
          (fun other => other.id = foldedId memory.id) = none := by
        simpa using unknown
      rw [absent]
      dsimp only
      split_ifs with foreign
      · exact .inl rfl
      · rcases spared with zero | ⟨tenantId, filtered, unclean⟩
        · exact .inr ⟨rfl, zero⟩
        · have own : readFileTenant text = some tenantId := by
            by_contra other
            exact foreign ⟨by simp [filtered], filtered ▸ other⟩
          have isName := isTenantName_of_readFileTenant own
          rw [unclean] at isName
          exact absurd isName Bool.false_ne_true
  · rw [if_neg isUuid]
    exact .inl rfl

/-- The scan never removes the file of a recognized memory from its place. -/
theorem not_removed_of_desired {lastExportedAt : Option String}
    {tree : ExportTree} (stored : memory ∈ memories.rows)
    (covered : covers config.tenantId memory)
    (allowed : isExportRestricted memory = false)
    (recognized : IsRecognized config memories memory) :
    exportPath config.outputDir memory ∉
      (detectChanges memories config lastExportedAt tree).toRemove := by
  rw [mem_removed_iff]
  rintro ⟨-, here, text, found, condemned⟩
  rcases staleVerdict_of_desired text stored covered allowed
    recognized with kept | ⟨orphaned, zero⟩
  · simp [kept] at condemned
  · simp only [orphaned, reduceCtorEq, true_and, false_or] at condemned
    have counted : exportPath config.outputDir memory ∈
        filesWithVerdict config.outputDir
          (exportedMemories memories config.tenantId) config.tenantId tree
          .orphan :=
      mem_filesWithVerdict_iff.mpr ⟨here, text, found, orphaned⟩
    have filled := List.length_pos_of_mem counted
    unfold orphanCount at condemned
    omega

/-- A memory whose id is the lower case of another's makes the scan condemn a
file of the other that names no tenant. -/
theorem staleVerdict_twin {twin : CuratedMemory}
    (twinStored : twin ∈ memories.rows)
    (twinCovered : covers config.tenantId twin)
    (isUuid : isUuidText memory.id.toList = true)
    (upper : foldedId memory.id ≠ memory.id)
    (named : twin.id = foldedId memory.id)
    (unattributed : readFileTenant text = none) :
    staleVerdict config.outputDir (exportedMemories memories config.tenantId)
        config.tenantId (exportPath config.outputDir memory) text =
      .relocated := by
  have elsewhere : exportPath config.outputDir twin ≠
      exportPath config.outputDir memory := by
    intro same
    have ids := getFilename_injective (congrArg ExportPath.name same)
    exact upper (named.symm.trans ids)
  unfold staleVerdict
  rw [exportPath_name, memoryFileId?_getFilename, if_pos isUuid]
  dsimp only
  rw [find?_exportedMemories.mpr ⟨twinStored, twinCovered, named⟩]
  simp [elsewhere, unattributed]

theorem isSelected_of_reconcile {lastExportedAt : Option String}
    (reconcile : config.reconcile = true)
    (covered : covers config.tenantId memory) :
    isSelected config lastExportedAt memory = true := by
  unfold isSelected isChanged
  cases lastExportedAt <;> simp [covered, reconcile]

/-- Without faults, the loops of a reconcile run put every unrestricted memory
at its place. -/
theorem changesOf_present (reconcile : config.reconcile = true)
    (stored : memory ∈ memories.rows) (covered : covers config.tenantId memory)
    (allowed : isExportRestricted memory = false) :
    IsOnDisk config.outputDir (changesOf .none memories config world).tree
      memory := by
  obtain ⟨before, files, -⟩ := exists_exportTurn .none config
    (world.exportState config.targetId) world.tree stored
  refine (files (exportPath config.outputDir memory) rfl).2.trans ?_
  unfold exportMemory
  rw [if_pos (isSelected_of_reconcile reconcile covered)]
  split_ifs with retired
  · exact (archiveMemory_archives allowed retired).1
  · exact (writeMemory_outcome allowed).resolve_right
      fun fails => fails.1 rfl

theorem changesOf_absent (reconcile : config.reconcile = true)
    (stored : memory ∈ memories.rows) (covered : covers config.tenantId memory)
    (allowed : isExportRestricted memory = false)
    (retired : getDirectory memory = .archive) :
    (changesOf .none memories config world).tree.read
      (activePath config.outputDir memory) = none := by
  obtain ⟨before, files, -⟩ := exists_exportTurn .none config
    (world.exportState config.targetId) world.tree stored
  refine (files (activePath config.outputDir memory) rfl).2.trans ?_
  unfold exportMemory
  rw [if_pos (isSelected_of_reconcile reconcile covered), if_pos retired]
  exact (archiveMemory_archives allowed retired).2

/-- The loops write desired files and remove others, and leave the rest. -/
theorem changesOf_undesired (world : ExportWorld)
    (reconcile : config.reconcile = true)
    (undesired : ∀ memory ∈ exportedMemories memories config.tenantId,
      isExportRestricted memory = false →
        path ≠ exportPath config.outputDir memory) :
    (changesOf .none memories config world).tree.read path =
        world.tree.read path ∨
      (changesOf .none memories config world).tree.read path = none := by
  by_cases named : ∃ memory ∈ memories.rows, covers config.tenantId memory ∧
      path.name = getFilename memory.id
  · obtain ⟨memory, stored, covered, named⟩ := named
    obtain ⟨before, files, -⟩ := exists_exportTurn .none config
      (world.exportState config.targetId) world.tree stored
    obtain ⟨old, new⟩ := files path named
    unfold changesOf
    rw [new, ← old]
    cases allowed : isExportRestricted memory with
    | true =>
        rw [exportMemory_restricted allowed]
        exact .inl rfl
    | false =>
        have elsewhere := undesired memory
          (mem_exportedMemories_iff.mpr ⟨stored, covered⟩) allowed
        unfold exportMemory
        rw [if_pos (isSelected_of_reconcile reconcile covered)]
        split_ifs with retired
        · by_cases active : path = activePath config.outputDir memory
          · rw [active]
            exact .inr (archiveMemory_archives allowed retired).2
          · exact .inl (archiveMemory_read_of_ne elsewhere active)
        · exact .inl (writeMemory_read_of_ne elsewhere)
  · refine .inl (exportChanges_frame fun memory stored covered same => ?_)
    exact named ⟨memory, stored, covered, same⟩

theorem removeFiles_none {paths : List ExportPath} {run : ExportRun} :
    (removeFiles .none paths run).1 = none := by
  induction paths generalizing run with
  | nil => rfl
  | cons path rest induction =>
      unfold removeFiles
      split_ifs
      · exact induction
      · exact induction

theorem runExport_none (memories : MemoryTable) (config : ExportConfig)
    (now : String) (world : ExportWorld) :
    ∃ result, (runExport .none memories config now world).1 = .ok result ∧
      result.written = (exportFiles .none memories config world).2.written ∧
      result.archived = (exportFiles .none memories config world).2.archived ∧
      result.removed = (exportFiles .none memories config world).2.removed := by
  have succeeds : (exportFiles .none memories config world).1 = none :=
    removeFiles_none
  unfold runExport
  dsimp only
  cases ran : exportFiles .none memories config world with
  | mk error run =>
      rw [ran] at succeeds
      obtain rfl : error = none := succeeds
      exact ⟨_, rfl, rfl, rfl, rfl⟩

/-- A complete reconcile run under the orphan limit leads to the desired
tree. -/
theorem isDesired_runExport (reconcile : config.reconcile = true)
    (recognized : ∀ memory ∈ exportedMemories memories config.tenantId,
      isExportRestricted memory = false → IsRecognized config memories memory)
    (few : orphanCount config.outputDir
      (exportedMemories memories config.tenantId) config.tenantId world.tree ≤
        config.orphanLimit) :
    IsDesired config memories
      (runExport .none memories config now world).2.tree := by
  obtain ⟨result, returned, -⟩ := runExport_none memories config now world
  have read := runExport_read returned
  constructor
  · intro memory member allowed
    obtain ⟨stored, covered⟩ := mem_exportedMemories_iff.mp member
    unfold IsOnDisk
    rw [read, if_neg (not_removed_of_desired stored covered allowed
      (recognized memory member allowed))]
    exact changesOf_present reconcile stored covered allowed
  · intro path text found here named attributed
    by_contra undesired
    have undesired : ∀ memory ∈ exportedMemories memories config.tenantId,
        isExportRestricted memory = false →
          path ≠ exportPath config.outputDir memory :=
      fun memory member allowed placed =>
        undesired ⟨memory, member, allowed, placed⟩
    rw [read] at found
    split_ifs at found with removed
    rcases changesOf_undesired world reconcile undesired with
      same | gone
    · rw [same] at found
      refine removed (mem_removed_iff.mpr ⟨reconcile, here, text, found, ?_⟩)
      rcases staleVerdict_of_undesired named attributed undesired with
        relocated | orphaned
      · exact .inl relocated
      · exact .inr ⟨orphaned, few⟩
    · rw [gone] at found
      exact absurd found (by simp)

/-- The files that a complete run leaves are not stale for the next run. -/
theorem nothing_removed_after_run (now : String)
    (reconcile : config.reconcile = true)
    (recognized : ∀ memory ∈ exportedMemories memories config.tenantId,
      isExportRestricted memory = false → IsRecognized config memories memory)
    (few : orphanCount config.outputDir
      (exportedMemories memories config.tenantId) config.tenantId world.tree ≤
        config.orphanLimit) (lastExportedAt : Option String) :
    (detectChanges memories config lastExportedAt
      (runExport .none memories config now world).2.tree).toRemove = [] := by
  obtain ⟨result, returned, -⟩ := runExport_none memories config now world
  rw [List.eq_nil_iff_forall_not_mem]
  intro path stale
  obtain ⟨-, here, text, found, condemned⟩ := mem_removed_iff.mp stale
  by_cases desired : ∃ memory ∈ exportedMemories memories config.tenantId,
      isExportRestricted memory = false ∧
        path = exportPath config.outputDir memory
  · obtain ⟨memory, member, allowed, rfl⟩ := desired
    obtain ⟨stored, covered⟩ := mem_exportedMemories_iff.mp member
    exact not_removed_of_desired stored covered allowed
      (recognized memory member allowed) stale
  · have undesired : ∀ memory ∈ exportedMemories memories config.tenantId,
        isExportRestricted memory = false →
          path ≠ exportPath config.outputDir memory :=
      fun memory member allowed placed =>
        desired ⟨memory, member, allowed, placed⟩
    rw [runExport_read returned] at found
    split_ifs at found with removed
    rcases changesOf_undesired world reconcile undesired with
      same | gone
    · rw [same] at found
      refine removed (mem_removed_iff.mpr ⟨reconcile, here, text, found, ?_⟩)
      exact condemned.imp_right fun orphaned => ⟨orphaned.1, few⟩
    · rw [gone] at found
      exact absurd found (by simp)

/-- The run has changed nothing on this tree. -/
structure IsIdle (tree : ExportTree) (run : ExportRun) : Prop where
  tree : run.tree = tree
  written : run.written = []
  archived : run.archived = []
  removed : run.removed = []

theorem IsIdle.writeMemory {tree : ExportTree} {run : ExportRun}
    (idle : IsIdle tree run)
    (onDisk : isExportRestricted memory = false →
      IsOnDisk config.outputDir tree memory) :
    IsIdle tree (writeMemory .none config.outputDir run memory) := by
  obtain ⟨same, written, archived, removed⟩ := idle
  unfold Registrar.writeMemory
  split_ifs with restricted
  · exact ⟨same, written, archived, removed⟩
  · dsimp only
    have present := onDisk (Bool.not_eq_true _ ▸ restricted)
    rw [if_pos (same ▸ present)]
    exact ⟨same, written, archived, removed⟩

theorem IsIdle.archiveMemory {tree : ExportTree} {run : ExportRun}
    (idle : IsIdle tree run)
    (onDisk : isExportRestricted memory = false →
      IsOnDisk config.outputDir tree memory ∧
        tree.read (activePath config.outputDir memory) = none) :
    IsIdle tree (archiveMemory .none config.outputDir run memory) := by
  obtain ⟨same, written, archived, removed⟩ := idle
  unfold Registrar.archiveMemory
  split_ifs with restricted
  · exact ⟨same, written, archived, removed⟩
  · dsimp only
    obtain ⟨present, absent⟩ := onDisk (Bool.not_eq_true _ ▸ restricted)
    rw [if_pos ⟨by rw [FileTree.exists?, same, absent]; rfl, same ▸ present⟩]
    exact ⟨same, written, archived, removed⟩

theorem IsIdle.foldl {tree : ExportTree}
    {turn : ExportRun → CuratedMemory → ExportRun}
    {memories : List CuratedMemory}
    (idleTurn : ∀ memory ∈ memories, ∀ run, IsIdle tree run →
      IsIdle tree (turn run memory)) {run : ExportRun}
    (idle : IsIdle tree run) : IsIdle tree (memories.foldl turn run) := by
  induction memories generalizing run with
  | nil => exact idle
  | cons memory rest induction =>
      exact induction
        (fun later member => idleTurn later (List.mem_cons_of_mem memory member))
        (idleTurn memory List.mem_cons_self run idle)

/-- On a tree on which every memory is in place and nothing is stale, a
reconcile run does nothing. -/
theorem exportFiles_idle
    (present : ∀ memory ∈ exportedMemories memories config.tenantId,
      isExportRestricted memory = false →
        IsOnDisk config.outputDir world.tree memory)
    (absent : ∀ memory ∈ exportedMemories memories config.tenantId,
      isExportRestricted memory = false → getDirectory memory = .archive →
        world.tree.read (activePath config.outputDir memory) = none)
    (nothing : (detectChanges memories config
      (world.exportState config.targetId) world.tree).toRemove = []) :
    IsIdle world.tree (exportFiles .none memories config world).2 := by
  have begins : IsIdle world.tree (.begin world.tree) := ⟨rfl, rfl, rfl, rfl⟩
  unfold exportFiles
  dsimp only
  rw [nothing]
  refine IsIdle.foldl (fun memory member run idle => ?_)
    (IsIdle.foldl (fun memory member run idle => ?_) begins)
  · obtain ⟨stored, selected, retired⟩ := mem_toArchive_iff.mp member
    have exported := mem_exportedMemories_iff.mpr
      ⟨stored, (Bool.and_eq_true_iff.mp selected).1⟩
    exact idle.archiveMemory fun allowed =>
      ⟨present memory exported allowed, absent memory exported allowed retired⟩
  · obtain ⟨stored, selected, -⟩ := mem_toWrite_iff.mp member
    have exported := mem_exportedMemories_iff.mpr
      ⟨stored, (Bool.and_eq_true_iff.mp selected).1⟩
    exact idle.writeMemory (present memory exported)

theorem reconcileConverges_of_recognized (reconcile : config.reconcile = true)
    (recognized : ∀ memory ∈ exportedMemories memories config.tenantId,
      isExportRestricted memory = false →
        IsRecognized config memories memory) :
    ReconcileConverges memories config := by
  intro world done torn now later crashed few repaired
  have desired : IsDesired config memories repaired.tree :=
    isDesired_runExport reconcile recognized few
  have absent : ∀ memory ∈ exportedMemories memories config.tenantId,
      isExportRestricted memory = false → getDirectory memory = .archive →
        repaired.tree.read (activePath config.outputDir memory) = none := by
    intro memory member allowed retired
    obtain ⟨stored, covered⟩ := mem_exportedMemories_iff.mp member
    obtain ⟨result, returned, -⟩ := runExport_none memories config now crashed
    rw [runExport_read returned]
    split_ifs
    · rfl
    · exact changesOf_absent reconcile stored covered allowed retired
  have nothing := nothing_removed_after_run now reconcile recognized
    few (repaired.exportState config.targetId)
  have idle := exportFiles_idle desired.present absent nothing
  obtain ⟨result, returned, written, archived, removed⟩ :=
    runExport_none memories config later repaired
  exact ⟨desired, result, returned, written.trans idle.written,
    archived.trans idle.archived, removed.trans idle.removed⟩

/-- A world with one file. -/
def oneFile (path : ExportPath) (text : String) : ExportWorld where
  exportState _ := none
  tree := FileTree.write .empty path text

theorem oneFile_read (path wanted : ExportPath) (text : String) :
    (oneFile path text).tree.read wanted =
      if wanted = path then some text else none := by
  have empty : FileTree.read (.empty : ExportTree) wanted = none := rfl
  unfold oneFile
  dsimp only
  rw [FileTree.read_write, empty]

theorem orphanCount_oneFile (outputDir : String)
    (memories : List CuratedMemory) (tenantId : Option String)
    (path : ExportPath) (text : String) :
    orphanCount outputDir memories tenantId (oneFile path text).tree ≤ 1 := by
  have files : (exportedFiles outputDir (oneFile path text).tree).length ≤ 1 := by
    have rows : (oneFile path text).tree.rows = [(path, text)] := rfl
    unfold exportedFiles
    rw [rows]
    by_cases here : path.outputDir = outputDir
    · cases lies : path.directory <;> simp [exportDirectories, here, lies]
    · simp [here]
  unfold orphanCount filesWithVerdict
  rw [List.length_map]
  exact (List.length_filter_le _ _).trans files

/-- The scan condemns the only file, and the limit allows its removal. -/
def IsCondemned (memories : MemoryTable) (config : ExportConfig)
    (path : ExportPath) (text : String) : Prop :=
  staleVerdict config.outputDir (exportedMemories memories config.tenantId)
      config.tenantId path text = .relocated ∨
    staleVerdict config.outputDir (exportedMemories memories config.tenantId)
        config.tenantId path text = .orphan ∧
      config.orphanLimit ≠ 0

theorem IsCondemned.few (condemned : IsCondemned memories config path text) :
    orphanCount config.outputDir (exportedMemories memories config.tenantId)
      config.tenantId (oneFile path text).tree ≤ config.orphanLimit := by
  rcases condemned with relocated | ⟨-, positive⟩
  · have noOrphans : filesWithVerdict config.outputDir
        (exportedMemories memories config.tenantId) config.tenantId
        (oneFile path text).tree .orphan = [] := by
      rw [List.eq_nil_iff_forall_not_mem]
      intro other member
      obtain ⟨-, otherText, read, orphaned⟩ :=
        mem_filesWithVerdict_iff.mp member
      rw [oneFile_read] at read
      split_ifs at read with same
      obtain rfl := Option.some.inj read
      rw [same, relocated] at orphaned
      exact absurd orphaned (by simp)
    unfold orphanCount
    rw [noOrphans]
    exact Nat.zero_le _
  · have atMostOne := orphanCount_oneFile config.outputDir
      (exportedMemories memories config.tenantId) config.tenantId path text
    exact atMostOne.trans (Nat.one_le_iff_ne_zero.mpr positive)

theorem IsCondemned.removed (condemned : IsCondemned memories config path text)
    (reconcile : config.reconcile = true)
    (here : path.outputDir = config.outputDir) (now : String) :
    (runExport .none memories config now (oneFile path text)).2.tree.read
      path = none := by
  obtain ⟨result, returned, -⟩ :=
    runExport_none memories config now (oneFile path text)
  have found : (oneFile path text).tree.read path = some text := by
    simp [oneFile_read]
  rw [runExport_read returned, if_pos]
  exact mem_removed_iff.mpr ⟨reconcile, here, text, found,
    condemned.imp_right fun orphaned => ⟨orphaned.1, condemned.few⟩⟩

theorem not_converges_of_stale (text : String)
    (reconcile : config.reconcile = true)
    (stored : memory ∈ memories.rows) (covered : covers config.tenantId memory)
    (allowed : isExportRestricted memory = false)
    (condemned : IsCondemned memories config
      (exportPath config.outputDir memory) text) :
    ¬ReconcileConverges memories config := by
  intro converges
  obtain ⟨desired, -⟩ := converges
    (oneFile (exportPath config.outputDir memory) text) 0 none "" ""
    condemned.few
  have present := desired.present memory
    (mem_exportedMemories_iff.mpr ⟨stored, covered⟩) allowed
  have gone := condemned.removed reconcile rfl ""
  exact absurd (gone.symm.trans present) (by simp)

/-- Reconcile runs converge on exactly the stores whose unrestricted memories
the scan recognizes. -/
theorem reconcileConverges_iff (reconcile : config.reconcile = true) :
    ReconcileConverges memories config ↔
      ∀ memory ∈ exportedMemories memories config.tenantId,
        isExportRestricted memory = false →
          IsRecognized config memories memory := by
  refine ⟨fun converges memory member allowed isUuid upper => ?_,
    reconcileConverges_of_recognized reconcile⟩
  obtain ⟨stored, covered⟩ := mem_exportedMemories_iff.mp member
  have stale := fun text condemned => not_converges_of_stale text
    reconcile stored covered allowed condemned converges
  have unknown : ∀ other ∈ exportedMemories memories config.tenantId,
      other.id ≠ foldedId memory.id := by
    intro other otherMember named
    obtain ⟨otherStored, otherCovered⟩ :=
      mem_exportedMemories_iff.mp otherMember
    exact stale "" (.inl (staleVerdict_twin otherStored otherCovered isUuid
      upper named (by decide)))
  refine ⟨unknown, ?_⟩
  by_contra spared
  obtain ⟨positive, named⟩ := not_or.mp spared
  have absent : (exportedMemories memories config.tenantId).find?
      (fun other => other.id = foldedId memory.id) = none := by
    simpa using unknown
  have verdict : ∀ text, isAttributed config.tenantId text →
      staleVerdict config.outputDir (exportedMemories memories config.tenantId)
        config.tenantId (exportPath config.outputDir memory) text =
          .orphan := by
    intro text attributed
    unfold staleVerdict
    rw [exportPath_name, memoryFileId?_getFilename, if_pos isUuid]
    dsimp only
    rw [absent]
    exact if_neg fun ⟨filtered, other⟩ => attributed.elim filtered other
  cases filter : config.tenantId with
  | none => exact stale "" (.inr ⟨verdict "" (.inl filter), positive⟩)
  | some tenantId =>
      have isName : isTenantName tenantId = true := by
        by_contra unclean
        exact named ⟨tenantId, filter, Bool.not_eq_true _ ▸ unclean⟩
      have owned : isAttributed config.tenantId (bareFile tenantId) :=
        .inr ((readFileTenant_bareFile isName).trans filter.symm)
      exact stale (bareFile tenantId) (.inr ⟨verdict _ owned, positive⟩)

/-- A note whose id is a UUID with a letter in upper case. -/
def upperNote : CuratedMemory :=
  exportedNote "AAAAAAAA-1111-4111-8111-111111111111" northTeam .active
    "2026-01-01T08:00:00.000Z"

theorem reconcileConverges_of_northNote :
    ReconcileConverges (onlyMemory northNote) (reconcileExport northTeam) := by
  refine (reconcileConverges_iff rfl).mpr ?_
  intro memory member _ _ upper
  obtain ⟨stored, -⟩ := mem_exportedMemories_iff.mp member
  obtain rfl := List.mem_singleton.mp stored
  exact absurd (by decide +kernel) upper

/-- A reconcile run that finds the note's file removes it as an orphan. -/
theorem upperNote_not_converges :
    ¬ReconcileConverges (onlyMemory upperNote) (reconcileExport northTeam) := by
  intro converges
  obtain ⟨desired, -⟩ := converges
    (oneFile (exportPath "kb-export" upperNote) (bareFile "north")) 0 none "" ""
    (by decide +kernel)
  have present := desired.present upperNote (by decide +kernel)
    (by decide +kernel)
  have missing : ¬IsOnDisk "kb-export" (runExport .none (onlyMemory upperNote)
      (reconcileExport northTeam) "" (oneFile (exportPath "kb-export" upperNote)
        (bareFile "north"))).2.tree upperNote := by
    decide +kernel
  exact missing present

end Registrar
