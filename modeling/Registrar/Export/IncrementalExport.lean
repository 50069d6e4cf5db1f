import Registrar.Export.Turns
import Registrar.Library.Transition
import Mathlib.Data.String.Basic

/-!
# Incremental exports

An incremental run looks only at rows stamped since the cursor of its target.
The cursor is one instant, whatever was set aside and whichever tenant the run
was for.  Nothing is lost as long as no run moves the cursor past a row that a
later run of the target should have found on disk.
-/

namespace Registrar

/-- The file of the memory is on disk, as it is formatted now. -/
def IsOnDisk (outputDir : String) (tree : ExportTree) (memory : CuratedMemory) :
    Prop :=
  tree.read (exportPath outputDir memory) = some (formatMemoryAsMarkdown memory)

instance (outputDir : String) (tree : ExportTree) (memory : CuratedMemory) :
    Decidable (IsOnDisk outputDir tree memory) :=
  inferInstanceAs (Decidable (_ = _))

/-- A run with this configuration owes the memory an active file. -/
def NeedsFile (config : ExportConfig) (memory : CuratedMemory) : Prop :=
  covers config.tenantId memory = true ∧ memory.lifecycle = .active ∧
    isExportRestricted memory = false

instance (config : ExportConfig) (memory : CuratedMemory) :
    Decidable (NeedsFile config memory) :=
  inferInstanceAs (Decidable (_ ∧ _))

theorem getDirectory_of_active {memory : CuratedMemory}
    (active : memory.lifecycle = .active) : getDirectory memory ≠ .archive := by
  simp [getDirectory, active, getActiveDirectory_ne_archive]

section Run

variable {faults : FileFaults} {memories : MemoryTable} {config : ExportConfig}
variable {now : String} {world : ExportWorld} {memory : CuratedMemory}

theorem exportFiles_of_incremental (incremental : config.reconcile = false) :
    exportFiles faults memories config world =
      (none, changesOf faults memories config world) := by
  have nothing : (detectChanges memories config
      (world.exportState config.targetId) world.tree).toRemove = [] := by
    simp [detectChanges, incremental]
  unfold exportFiles
  dsimp only
  rw [nothing]
  rfl

theorem runExport_of_incremental (faults : FileFaults)
    (memories : MemoryTable) (now : String) (world : ExportWorld)
    (incremental : config.reconcile = false) :
    ∃ result, runExport faults memories config now world =
        (.ok result,
          { exportState :=
              Function.update world.exportState config.targetId (some now)
            tree := (changesOf faults memories config world).tree }) ∧
      result.quarantined =
        (changesOf faults memories config world).quarantined := by
  unfold runExport
  dsimp only
  rw [exportFiles_of_incremental incremental]
  exact ⟨_, rfl, rfl⟩

/-- A turn leaves the file of an active memory on disk, in any output
directory. -/
theorem writeMemory_keeps {outputDir : String} {run : ExportRun}
    (onDisk : IsOnDisk outputDir run.tree memory) :
    IsOnDisk outputDir
      (writeMemory faults config.outputDir run memory).tree memory := by
  by_cases here : exportPath outputDir memory =
      exportPath config.outputDir memory
  · unfold IsOnDisk at onDisk ⊢
    unfold writeMemory
    split_ifs
    · exact onDisk
    · dsimp only
      rw [here] at onDisk ⊢
      rw [if_pos onDisk]
      exact onDisk
  · exact (writeMemory_read_of_ne here).trans onDisk

theorem changesOf_keeps {outputDir : String} (stored : memory ∈ memories.rows)
    (active : memory.lifecycle = .active)
    (onDisk : IsOnDisk outputDir world.tree memory) :
    IsOnDisk outputDir (changesOf faults memories config world).tree memory := by
  obtain ⟨before, files, -⟩ := exists_exportTurn faults config
    (world.exportState config.targetId) world.tree stored
  obtain ⟨old, new⟩ := files (exportPath outputDir memory) rfl
  have earlier : IsOnDisk outputDir before.tree memory := old.trans onDisk
  unfold IsOnDisk changesOf
  rw [new]
  unfold exportMemory
  split_ifs with _ retired
  · exact absurd retired (getDirectory_of_active active)
  · exact writeMemory_keeps earlier
  · exact earlier

/-- A run that looks at an active row leaves its file on disk, unless writing
the file fails and the memory is set aside. -/
theorem changesOf_outcome (stored : memory ∈ memories.rows)
    (needed : NeedsFile config memory)
    (changed : isChanged config (world.exportState config.targetId)
      memory = true) :
    IsOnDisk config.outputDir (changesOf faults memories config world).tree
        memory ∨
      faults.write (exportPath config.outputDir memory) ≠ none ∧
        (changesOf faults memories config world).quarantined ≠ [] := by
  obtain ⟨covered, active, allowed⟩ := needed
  obtain ⟨before, files, setAside⟩ := exists_exportTurn faults config
    (world.exportState config.targetId) world.tree stored
  have selected : isSelected config (world.exportState config.targetId)
      memory = true := by
    simp [isSelected, covered, changed]
  have turn : exportMemory faults config
      (world.exportState config.targetId) before memory =
      writeMemory faults config.outputDir before memory := by
    unfold exportMemory
    rw [if_pos selected, if_neg (getDirectory_of_active active)]
  rw [turn] at files setAside
  rcases writeMemory_outcome allowed with written | ⟨fails, quarantined⟩
  · exact .inl ((files _ rfl).2.trans written)
  · exact .inr ⟨fails, fun none => quarantined (setAside none)⟩

end Run

/-- The store, the files with their cursors and the clock that both share. -/
structure ExportSystem where
  memories : MemoryTable
  world : ExportWorld
  clock : String

inductive ExportEvent where
  | write (memories : MemoryTable) (now : String)
  | runExport (faults : FileFaults) (config : ExportConfig) (now : String)

/-- What each event may be: the clock does not go back, a write stamps the rows
that it changes and a run does not reconcile. -/
def IsOrderly (system : ExportSystem) : ExportEvent → Prop
  | .write memories now =>
      system.clock ≤ now ∧ ∀ memory ∈ memories.rows,
        memory ∈ system.memories.rows ∨ memory.updatedAt = now
  | .runExport _ config now => system.clock ≤ now ∧ config.reconcile = false

def exportEvent (system : ExportSystem) : ExportEvent → ExportSystem
  | .write memories now =>
      { system with
        memories := memories
        clock := now }
  | .runExport faults config now =>
      { system with
        world := (runExport faults system.memories config now system.world).2
        clock := now }

/-- A run that returns with nothing set aside leaves every unrestricted active
memory that it covers on disk. -/
def ExportsAll (system : ExportSystem) : ExportEvent → Prop
  | .write .. => True
  | .runExport faults config now =>
      ∀ result,
        (runExport faults system.memories config now system.world).1 =
          .ok result →
        result.quarantined = [] →
        ∀ memory ∈ system.memories.rows, NeedsFile config memory →
          IsOnDisk config.outputDir
            (exportEvent system (.runExport faults config now)).world.tree
            memory

def ExportEvent.config? : ExportEvent → Option ExportConfig
  | .write .. => none
  | .runExport _ config _ => some config

/-- The run may move the cursor of its target to `now`: what a later run of the
target should find on disk is there, or this run writes it. -/
def MayAdvance (system : ExportSystem) (faults : FileFaults)
    (config : ExportConfig) (now : String) (later : List ExportEvent) : Prop :=
  ∀ next ∈ later.filterMap ExportEvent.config?, next.targetId = config.targetId →
    ∀ memory ∈ system.memories.rows, NeedsFile next memory →
      memory.updatedAt < now →
      IsOnDisk next.outputDir system.world.tree memory ∨
        next.outputDir = config.outputDir ∧
          covers config.tenantId memory = true ∧
          faults.write (exportPath config.outputDir memory) = none

/-- No run moves a cursor too far. -/
def CursorsHoldBack : ExportSystem → List ExportEvent → Prop
  | _, [] => True
  | system, .write memories now :: later =>
      CursorsHoldBack (exportEvent system (.write memories now)) later
  | system, .runExport faults config now :: later =>
      MayAdvance system faults config now later ∧
        CursorsHoldBack (exportEvent system (.runExport faults config now)) later

/-- Rows older than a cursor are on disk for the runs of its target still to
come. -/
structure CursorsSound (system : ExportSystem) (later : List ExportEvent) :
    Prop where
  past : ∀ targetId cursor,
    system.world.exportState targetId = some cursor → cursor ≤ system.clock
  onDisk : ∀ next ∈ later.filterMap ExportEvent.config?, ∀ cursor,
    system.world.exportState next.targetId = some cursor →
    ∀ memory ∈ system.memories.rows, NeedsFile next memory →
      memory.updatedAt < cursor →
      IsOnDisk next.outputDir system.world.tree memory

theorem CursorsSound.write {system : ExportSystem} {memories : MemoryTable}
    {now : String} {later : List ExportEvent}
    (sound : CursorsSound system (.write memories now :: later))
    (orderly : IsOrderly system (.write memories now)) :
    CursorsSound (exportEvent system (.write memories now)) later where
  past targetId cursor found :=
    (sound.past targetId cursor found).trans orderly.1
  onDisk := by
    intro next coming cursor found memory stored needed older
    rcases orderly.2 memory stored with kept | stamped
    · exact sound.onDisk next coming cursor found memory kept needed older
    · have ahead : now < cursor := stamped ▸ older
      have behind : cursor ≤ now :=
        (sound.past next.targetId cursor found).trans orderly.1
      exact absurd ahead (not_lt.mpr behind)

/-- An active memory that the run covers is on disk when its row is older than
the cursor, or else after a write that does not fail. -/
theorem CursorsSound.exported {system : ExportSystem} {faults : FileFaults}
    {config : ExportConfig} {now : String} {later : List ExportEvent}
    (sound : CursorsSound system (.runExport faults config now :: later))
    {memory : CuratedMemory} (stored : memory ∈ system.memories.rows)
    (needed : NeedsFile config memory)
    (succeeds : faults.write (exportPath config.outputDir memory) = none ∨
      (changesOf faults system.memories config system.world).quarantined =
        []) :
    IsOnDisk config.outputDir
      (changesOf faults system.memories config system.world).tree memory := by
  by_cases changed : isChanged config
      (system.world.exportState config.targetId) memory = true
  · rcases changesOf_outcome stored needed changed with
      onDisk | ⟨fails, quarantined⟩
    · exact onDisk
    · exact absurd succeeds (not_or.mpr ⟨fails, quarantined⟩)
  · have coming : config ∈
        (ExportEvent.runExport faults config now :: later).filterMap
          ExportEvent.config? := List.mem_cons_self
    unfold isChanged at changed
    split at changed
    · exact absurd rfl changed
    · rename_i cursor found
      have older : memory.updatedAt < cursor := by
        simp only [Bool.or_eq_true, decide_eq_true_eq, not_or, not_le] at changed
        exact changed.2
      exact changesOf_keeps stored needed.2.1
        (sound.onDisk config coming cursor found memory stored needed older)

theorem exportEvent_world {system : ExportSystem} {faults : FileFaults}
    {config : ExportConfig} {now : String}
    (orderly : IsOrderly system (.runExport faults config now)) :
    (exportEvent system (.runExport faults config now)).world =
      { exportState :=
          Function.update system.world.exportState config.targetId (some now)
        tree := (changesOf faults system.memories config system.world).tree } := by
  obtain ⟨_, ran, -⟩ := runExport_of_incremental faults system.memories now
    system.world orderly.2
  exact congrArg Prod.snd ran

theorem CursorsSound.runExport {system : ExportSystem} {faults : FileFaults}
    {config : ExportConfig} {now : String} {later : List ExportEvent}
    (sound : CursorsSound system (.runExport faults config now :: later))
    (orderly : IsOrderly system (.runExport faults config now))
    (mayAdvance : MayAdvance system faults config now later) :
    CursorsSound (exportEvent system (.runExport faults config now)) later := by
  have world := exportEvent_world orderly
  constructor
  · intro targetId cursor found
    rw [world] at found
    by_cases same : targetId = config.targetId
    · subst same
      simp only [Function.update_self, Option.some.injEq] at found
      exact found ▸ le_rfl
    · simp only [Function.update_of_ne same] at found
      exact (sound.past targetId cursor found).trans orderly.1
  · intro next coming cursor found memory stored needed older
    have comingToo : next ∈
        (ExportEvent.runExport faults config now :: later).filterMap
          ExportEvent.config? := List.mem_cons_of_mem config coming
    rw [world] at found ⊢
    by_cases same : next.targetId = config.targetId
    · simp only [same, Function.update_self, Option.some.injEq] at found
      subst found
      rcases mayAdvance next coming same memory stored needed older with
        onDisk | ⟨here, covered, succeeds⟩
      · exact changesOf_keeps stored needed.2.1 onDisk
      · rw [here]
        exact sound.exported stored ⟨covered, needed.2⟩ (.inl succeeds)
    · simp only [Function.update_of_ne same] at found
      exact changesOf_keeps stored needed.2.1
        (sound.onDisk next comingToo cursor found memory stored needed older)

/-- In an orderly run in which no cursor moves past a row that a later run of
the target should find on disk, every export is complete. -/
theorem exports_all {system : ExportSystem} {events : List ExportEvent}
    (unexported : ∀ targetId, system.world.exportState targetId = none)
    (orderly : Transition.Always exportEvent IsOrderly system events)
    (holdBack : CursorsHoldBack system events) :
    Transition.Always exportEvent ExportsAll system events := by
  have initially : CursorsSound system events :=
    { past := fun targetId cursor found => by
        rw [unexported] at found
        exact absurd found (by simp)
      onDisk := fun next _ cursor found => by
        rw [unexported] at found
        exact absurd found (by simp) }
  clear unexported
  induction events generalizing system with
  | nil => trivial
  | cons event later induction =>
      obtain ⟨now, next⟩ := orderly
      cases event with
      | write memories instant =>
          exact ⟨trivial, induction next holdBack (initially.write now)⟩
      | runExport faults config instant =>
          obtain ⟨mayAdvance, holdBack⟩ := holdBack
          refine ⟨?_, induction next holdBack
            (initially.runExport now mayAdvance)⟩
          intro result returned nothing memory stored needed
          obtain ⟨other, ran, quarantined⟩ := runExport_of_incremental faults
            system.memories instant system.world now.2
          have same : other = result := by
            rw [ran] at returned
            exact Except.ok.inj returned
          have clean : (changesOf faults system.memories config
              system.world).quarantined = [] := by
            rw [← quarantined, same, nothing]
          rw [exportEvent_world now]
          exact initially.exported stored needed (.inr clean)

instance : ∀ (system : ExportSystem) (event : ExportEvent),
    Decidable (IsOrderly system event)
  | _, .write .. => inferInstanceAs (Decidable (_ ∧ _))
  | _, .runExport .. => inferInstanceAs (Decidable (_ ∧ _))

instance (system : ExportSystem) (faults : FileFaults) (config : ExportConfig)
    (now : String) (later : List ExportEvent) :
    Decidable (MayAdvance system faults config now later) :=
  inferInstanceAs (Decidable (∀ _ ∈ _, _))

instance decidableHoldBack : ∀ (events : List ExportEvent)
    (system : ExportSystem), Decidable (CursorsHoldBack system events)
  | [], _ => isTrue trivial
  | .write memories now :: later, system =>
      decidableHoldBack later (exportEvent system (.write memories now))
  | .runExport faults config now :: later, system =>
      @instDecidableAnd _ _ _ (decidableHoldBack later
        (exportEvent system (.runExport faults config now)))

def northTeam : NonEmptyString := ⟨"north", by decide +kernel, by simp⟩

def southTeam : NonEmptyString := ⟨"south", by decide +kernel, by simp⟩

def northNote : CuratedMemory :=
  exportedNote "11111111-1111-4111-8111-111111111111" northTeam .active
    "2026-01-01T08:00:00.000Z"

/-- Both teams export to the default target. -/
def defaultExport (tenantId : NonEmptyString) : ExportConfig where
  outputDir := "kb-export"
  targetId := "kb-export-default"
  tenantId := some tenantId.value
  reconcile := false
  maxOrphanRemovals := none

def oneNote : ExportSystem where
  memories :=
    { rows := [northNote]
      coexist := List.pairwise_singleton _ _ }
  world :=
    { exportState := fun _ => none
      tree := .empty }
  clock := "2026-01-01T08:00:00.000Z"

theorem exports_all_of_one_note :
    Transition.Always exportEvent ExportsAll oneNote
      [.runExport .none (defaultExport northTeam) "2026-01-01T09:00:00.000Z",
        .runExport .none (defaultExport northTeam)
          "2026-01-01T10:00:00.000Z"] :=
  exports_all (fun _ => rfl) (by decide +kernel) (by decide +kernel)

/-- The export of one team moves the cursor past the note of the other. -/
def southThenNorth : List ExportEvent :=
  [.runExport .none (defaultExport southTeam) "2026-01-01T09:00:00.000Z",
    .runExport .none (defaultExport northTeam) "2026-01-01T10:00:00.000Z"]

theorem northNote_never_exported :
    (∀ targetId, oneNote.world.exportState targetId = none) ∧
      Transition.Always exportEvent IsOrderly oneNote southThenNorth ∧
      ¬Transition.Always exportEvent ExportsAll oneNote southThenNorth := by
  refine ⟨fun _ => rfl, by decide +kernel, ?_⟩
  rintro ⟨-, complete, -⟩
  let between := exportEvent oneNote
    (.runExport .none (defaultExport southTeam) "2026-01-01T09:00:00.000Z")
  have incremental : (defaultExport northTeam).reconcile = false := rfl
  obtain ⟨result, ran, quarantined⟩ := runExport_of_incremental .none
    between.memories "2026-01-01T10:00:00.000Z" between.world incremental
  have clean : result.quarantined = [] :=
    quarantined.trans (by decide +kernel)
  have missing : ¬IsOnDisk "kb-export"
      (exportEvent between (.runExport .none (defaultExport northTeam)
        "2026-01-01T10:00:00.000Z")).world.tree northNote := by
    decide +kernel
  exact missing (complete result (congrArg Prod.fst ran) clean northNote
    List.mem_cons_self (by decide +kernel))

end Registrar
