import Registrar.Export.IncrementalExport

/-!
# Files of restricted memories

A reconcile run removes the files of a restricted memory from every export
directory, except those that name another tenant.  An incremental run removes
nothing.
-/

namespace Registrar

variable {faults : FileFaults} {memories : MemoryTable} {config : ExportConfig}
variable {now : String} {world : ExportWorld} {memory : CuratedMemory}
variable {path : ExportPath} {text : String}

/-- The file says that it belongs to a tenant other than the configured one. -/
def namesOtherTenant (tenantId : Option String) (text : String) : Bool :=
  tenantId ≠ none && readFileTenant text ≠ none &&
    readFileTenant text ≠ tenantId

theorem mem_removed_iff {lastExportedAt : Option String} {tree : ExportTree} :
    path ∈ (detectChanges memories config lastExportedAt tree).toRemove ↔
      config.reconcile = true ∧ path.outputDir = config.outputDir ∧
        ∃ text, tree.read path = some text ∧
          (staleVerdict config.outputDir
              (exportedMemories memories config.tenantId) config.tenantId path
              text = .relocated ∨
            staleVerdict config.outputDir
                (exportedMemories memories config.tenantId) config.tenantId path
                text = .orphan ∧
              orphanCount config.outputDir
                  (exportedMemories memories config.tenantId) config.tenantId
                  tree ≤ config.orphanLimit) := by
  unfold detectChanges
  dsimp only
  by_cases reconcile : config.reconcile = true
  · rw [if_pos reconcile, mem_toRemove_iff]
    simp [reconcile]
  · rw [if_neg reconcile]
    simp [reconcile]

/-- A run that returns leaves what its loops left, less the files that it
found to be stale. -/
theorem runExport_read {result : ExportResult}
    (returned : (runExport faults memories config now world).1 = .ok result)
    (path : ExportPath) :
    (runExport faults memories config now world).2.tree.read path =
      if path ∈ (detectChanges memories config
          (world.exportState config.targetId) world.tree).toRemove then none
      else (changesOf faults memories config world).tree.read path := by
  unfold runExport at returned ⊢
  dsimp only at returned ⊢
  cases ran : exportFiles faults memories config world with
  | mk error run =>
      rw [ran] at returned
      cases error with
      | some message => simp at returned
      | none =>
          have succeeds : (exportFiles faults memories config world).1 = none :=
            by rw [ran]
          have read := removeFiles_read succeeds path
          have same : (removeFiles faults
              (detectChanges memories config
                (world.exportState config.targetId) world.tree).toRemove
              (exportChanges faults config.outputDir
                (detectChanges memories config
                  (world.exportState config.targetId) world.tree)
                world.tree)).2 = run := congrArg Prod.snd ran
          rw [same] at read
          exact read

theorem find?_exportedMemories {id : String} :
    (exportedMemories memories config.tenantId).find?
        (fun memory => memory.id = id) = some memory ↔
      memory ∈ memories.rows ∧ covers config.tenantId memory ∧
        memory.id = id := by
  constructor
  · intro found
    have named : memory.id = id := by
      simpa using List.find?_some found
    obtain ⟨stored, covered⟩ :=
      mem_exportedMemories_iff.mp (List.mem_of_find?_eq_some found)
    exact ⟨stored, covered, named⟩
  · rintro ⟨stored, covered, rfl⟩
    cases found : (exportedMemories memories config.tenantId).find?
        (fun other => other.id = memory.id) with
    | none =>
        have absent := List.find?_eq_none.mp found memory
          (mem_exportedMemories_iff.mpr ⟨stored, covered⟩)
        simp at absent
    | some other =>
        have named : other.id = memory.id := by
          simpa using List.find?_some found
        obtain ⟨otherStored, -⟩ :=
          mem_exportedMemories_iff.mp (List.mem_of_find?_eq_some found)
        rw [Table.eq_of_key_eq otherStored stored named]

theorem exportMemory_restricted {lastExportedAt : Option String}
    {run : ExportRun} (restricted : isExportRestricted memory = true) :
    (exportMemory faults config lastExportedAt run memory).tree = run.tree := by
  unfold exportMemory
  split_ifs
  · exact archiveMemory_restricted restricted
  · exact writeMemory_restricted restricted
  · rfl

theorem changesOf_restricted (stored : memory ∈ memories.rows)
    (restricted : isExportRestricted memory = true)
    (named : path.name = getFilename memory.id) :
    (changesOf faults memories config world).tree.read path =
      world.tree.read path := by
  obtain ⟨before, files, -⟩ := exists_exportTurn faults config
    (world.exportState config.targetId) world.tree stored
  obtain ⟨old, new⟩ := files path named
  rw [exportMemory_restricted restricted] at new
  exact new.trans old

/-- The scan condemns the file of a restricted memory whose id is in lower
case, unless the file names another tenant. -/
theorem staleVerdict_restricted (stored : memory ∈ memories.rows)
    (covered : covers config.tenantId memory)
    (restricted : isExportRestricted memory = true)
    (isUuid : isUuidText memory.id.toList = true)
    (lower : foldedId memory.id = memory.id)
    (named : path.name = getFilename memory.id) :
    staleVerdict config.outputDir
        (exportedMemories memories config.tenantId) config.tenantId path text =
      if namesOtherTenant config.tenantId text then .keep else .relocated := by
  have found := find?_exportedMemories.mpr ⟨stored, covered, rfl⟩
  unfold staleVerdict
  rw [named, memoryFileId?_getFilename, if_pos isUuid, lower]
  dsimp only
  rw [found]
  simp [restricted, namesOtherTenant, and_assoc]

/-- After a run, the files of a restricted memory are the files before it; a
reconcile run keeps only those that name another tenant. -/
theorem restricted_files_after_run {result : ExportResult}
    (returned : (runExport faults memories config now world).1 = .ok result)
    (stored : memory ∈ memories.rows)
    (covered : covers config.tenantId memory)
    (restricted : isExportRestricted memory = true)
    (isUuid : isUuidText memory.id.toList = true)
    (lower : foldedId memory.id = memory.id) (directory : ExportDirectory) :
    let path : ExportPath :=
      { outputDir := config.outputDir
        directory := directory
        name := getFilename memory.id }
    (runExport faults memories config now world).2.tree.read path =
      (world.tree.read path).filter fun text =>
        !config.reconcile || namesOtherTenant config.tenantId text := by
  intro path
  rw [runExport_read returned,
    changesOf_restricted stored restricted (rfl : path.name = _)]
  have listed : path ∈ (detectChanges memories config
      (world.exportState config.targetId) world.tree).toRemove ↔
      config.reconcile = true ∧ ∃ text, world.tree.read path = some text ∧
        namesOtherTenant config.tenantId text = false := by
    rw [mem_removed_iff]
    refine and_congr_right fun _ => ?_
    refine (and_iff_right rfl).trans (exists_congr fun text => ?_)
    refine and_congr_right fun _ => ?_
    rw [staleVerdict_restricted stored covered restricted isUuid lower
      (rfl : path.name = _)]
    cases namesOtherTenant config.tenantId text <;> simp
  cases found : world.tree.read path with
  | none => simp
  | some text =>
      simp only [found, Option.some.injEq, exists_eq_left'] at listed
      split_ifs with removed
      · obtain ⟨reconcile, own⟩ := listed.mp removed
        simp [Option.filter, reconcile, own]
      · have kept := not_and.mp (removed ∘ listed.mpr)
        cases reconcile : config.reconcile with
        | false => simp [Option.filter]
        | true =>
            have other : namesOtherTenant config.tenantId text = true :=
              Bool.not_eq_false _ ▸ kept reconcile
            simp [Option.filter, other]

def reconcileExport (tenantId : NonEmptyString) : ExportConfig :=
  { defaultExport tenantId with reconcile := true }

/-- The note after a reclassification. -/
def narrowedNote : CuratedMemory :=
  { northNote with
    sensitivity := .restricted
    updatedAt := "2026-01-01T09:30:00.000Z"
    version := 2 }

theorem singleton_coexists (memory : CuratedMemory) :
    [memory].Pairwise (Table.DistinctKey CuratedMemory.id) :=
  List.pairwise_singleton _ _

def onlyMemory (memory : CuratedMemory) : MemoryTable where
  rows := [memory]
  coexist := singleton_coexists memory

/-- The note was exported while the whole team could read it. -/
def exportedWorld : ExportWorld :=
  (runExport .none oneNote.memories (defaultExport northTeam)
    "2026-01-01T09:00:00.000Z" oneNote.world).2

def staleCopy : ExportWorld where
  exportState := fun _ => none
  tree := FileTree.write .empty (exportPath "kb-export" narrowedNote) "# Keys"

theorem narrowedNote_removed :
    ∃ result, (runExport .none (onlyMemory narrowedNote)
        (reconcileExport northTeam) "2026-01-01T10:00:00.000Z"
        staleCopy).1 = .ok result ∧
      (runExport .none (onlyMemory narrowedNote) (reconcileExport northTeam)
        "2026-01-01T10:00:00.000Z" staleCopy).2.tree.read
          (exportPath "kb-export" narrowedNote) = none := by
  have returned : ((runExport .none (onlyMemory narrowedNote)
      (reconcileExport northTeam) "2026-01-01T10:00:00.000Z"
      staleCopy).1.toOption).isSome = true := by
    decide +kernel
  cases ran : (runExport .none (onlyMemory narrowedNote)
      (reconcileExport northTeam) "2026-01-01T10:00:00.000Z" staleCopy).1 with
  | error message =>
      rw [ran] at returned
      exact absurd returned (by simp [Except.toOption])
  | ok result =>
      refine ⟨result, rfl, ?_⟩
      have files := restricted_files_after_run ran List.mem_cons_self
        (by decide +kernel) (by decide +kernel) (by decide +kernel)
        (by decide +kernel) .curated
      refine files.trans ?_
      decide +kernel

/-- An incremental run leaves the file of the narrowed note in place. -/
theorem narrowedNote_stays :
    isExportRestricted narrowedNote = true ∧
      isChanged (defaultExport northTeam)
        (exportedWorld.exportState "kb-export-default") narrowedNote = true ∧
      ∃ result, (runExport .none (onlyMemory narrowedNote)
          (defaultExport northTeam) "2026-01-01T10:00:00.000Z"
          exportedWorld).1 = .ok result ∧
        result.quarantined = [] ∧
        (runExport .none (onlyMemory narrowedNote) (defaultExport northTeam)
          "2026-01-01T10:00:00.000Z" exportedWorld).2.tree.read
            (exportPath "kb-export" narrowedNote) ≠ none := by
  have incremental : (defaultExport northTeam).reconcile = false := rfl
  obtain ⟨result, ran, quarantined⟩ := runExport_of_incremental .none
    (onlyMemory narrowedNote) "2026-01-01T10:00:00.000Z" exportedWorld
    incremental
  refine ⟨by decide +kernel, by decide +kernel, result, congrArg Prod.fst ran,
    quarantined.trans (by decide +kernel), by decide +kernel⟩

end Registrar
