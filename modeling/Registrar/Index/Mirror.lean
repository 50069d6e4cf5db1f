import Mathlib.Algebra.GroupWithZero.Nat
import Registrar.Index.SweepRuns

/-!
# The index mirrors the export tree

A sweep that runs alone lists every exported file, so that its record leaves
exactly the listed files recorded.  Where the documents are consistent, the
index then holds what the tree exports.
-/

namespace Registrar

open Transition SweepPhase

variable {tree : SourceTree} {index : NativeIndex}

/-- The records are those of the exported files, with their present
modification times. -/
structure RecordsExactly (tree : SourceTree) (index : NativeIndex) : Prop where
  present : ∀ doc ∈ exportedDocs tree,
    index.Records doc.1.docId doc.2.mtimeMs
  exported : ∀ file ∈ index.files.rows,
    ∃ doc ∈ exportedDocs tree, doc.1.docId = file.2.docId

theorem mirrors_of_consistent (recorded : RecordsExactly tree index)
    (consistent : ∀ docId, Consistent tree index docId) :
    Mirrors tree index := by
  constructor
  · intro doc member
    exact (consistent doc.1.docId).upToDate doc member rfl
      (recorded.present doc member)
  · intro row member
    by_contra unexported
    push Not at unexported
    have empty : index.textsOf row.id = [] := by
      apply (consistent row.id).unrecorded
      rintro mtimeMs ⟨file, fileMember, same, -⟩
      obtain ⟨doc, docMember, docSame⟩ := recorded.exported file fileMember
      exact unexported doc docMember (docSame.trans same)
    have text : row.content ∈ index.textsOf row.id :=
      List.mem_map_of_mem (List.mem_filter.mpr ⟨member, by simp⟩)
    rw [empty] at text
    cases text

def seenOf (doc : DocPlace × SourceFile) : SeenFile where
  place := doc.1
  mtimeMs := doc.2.mtimeMs

/-- From its selection on, the sweep records exactly the exported files. -/
structure CoversExports (tree : SourceTree) (index : NativeIndex)
    (phase : SweepPhase) : Prop where
  covered : ∀ doc ∈ exportedDocs tree,
    index.Records doc.1.docId doc.2.mtimeMs ∨
      ∃ planned ∈ phase.puts, planned.seen = seenOf doc
  listed : ∀ planned ∈ phase.puts,
    ∃ doc ∈ exportedDocs tree, planned.seen = seenOf doc
  removed : ∀ file ∈ index.files.rows,
    file.1 ∈ phase.delta.toRemove.map (·.path) ∨
      ∃ doc ∈ exportedDocs tree, doc.1.docId = file.2.docId
  apart : ∀ removed ∈ phase.delta.toRemove, ∀ doc ∈ exportedDocs tree,
    doc.1.docId ≠ removed.docId

def Covers (tree : SourceTree) (index : NativeIndex) : SweepPhase → Prop
  | .idle => RecordsExactly tree index
  | .listing collections names onDisk =>
      (∀ doc ∈ exportedDocs tree, seenOf doc ∈ onDisk ∨ doc.1 ∈ names ∨
        doc.1.collection ∈ collections) ∧
      ∀ seen ∈ onDisk, ∃ doc ∈ exportedDocs tree, seen = seenOf doc
  | phase => CoversExports tree index phase

theorem covers_start : Covers tree index
    (.listing getExportableCollections [] []) := by
  refine ⟨fun doc member => ?_, by simp⟩
  obtain ⟨exported, -⟩ := mem_exportedDocs_iff.mp member
  exact .inr (.inr exported.1)

theorem covers_look {collections : List ExportableCollectionDef}
    {place : DocPlace} {names : List DocPlace} {onDisk : List SeenFile}
    {exportDir : String} (exported : place.IsExported)
    (covers : Covers tree index (.listing collections (place :: names) onDisk)) :
    Covers tree
      ((listing collections (place :: names) onDisk).advance exportDir tree
        index).1
      ((listing collections (place :: names) onDisk).advance exportDir tree
        index).2 := by
  obtain ⟨covered, listed⟩ := covers
  unfold SweepPhase.advance
  dsimp only
  cases found : tree.read place.sourcePath with
  | none =>
      refine ⟨fun doc member => ?_, listed⟩
      rcases covered doc member with seen | named | later
      · exact .inl seen
      · rcases List.mem_cons.mp named with here | named
        · obtain ⟨-, docFound⟩ := mem_exportedDocs_iff.mp member
          rw [here, found] at docFound
          cases docFound
        · exact .inr (.inl named)
      · exact .inr (.inr later)
  | some file =>
      have present : (place, file) ∈ exportedDocs tree :=
        mem_exportedDocs_iff.mpr ⟨exported, found⟩
      constructor
      · intro doc member
        rcases covered doc member with seen | named | later
        · exact .inl (List.mem_append_left _ seen)
        · rcases List.mem_cons.mp named with here | named
          · obtain ⟨-, docFound⟩ := mem_exportedDocs_iff.mp member
            rw [here, found] at docFound
            left
            apply List.mem_append_right
            rw [List.mem_singleton, seenOf, here,
              ← Option.some.inj docFound]
          · exact .inr (.inl named)
        · exact .inr (.inr later)
      · intro seen member
        rcases List.mem_append.mp member with before | now
        · exact listed seen before
        · exact ⟨_, present, List.mem_singleton.mp now⟩

theorem covers_readCollection {collection : ExportableCollectionDef}
    {collections : List ExportableCollectionDef} {onDisk : List SeenFile}
    (covers : Covers tree index (.listing (collection :: collections) []
      onDisk)) :
    Covers tree index
      (.listing collections (readCollection tree collection) onDisk) := by
  obtain ⟨covered, listed⟩ := covers
  refine ⟨fun doc member => ?_, listed⟩
  rcases covered doc member with seen | named | later
  · exact .inl seen
  · exact absurd named List.not_mem_nil
  · rcases List.mem_cons.mp later with here | later
    · obtain ⟨exported, found⟩ := mem_exportedDocs_iff.mp member
      exact .inr (.inl (mem_readCollection_iff.mpr
        ⟨here, exported.2, doc.2, found⟩))
    · exact .inr (.inr later)

theorem covers_select {exportDir : String} {onDisk : List SeenFile}
    (keyed : index.WellKeyed) (formed : ListingFormed [] [] onDisk)
    (onePath : OnePath exportDir index onDisk)
    (covers : Covers tree index (.listing [] [] onDisk)) :
    CoversExports tree index (selected exportDir index onDisk) := by
  obtain ⟨covered, listed⟩ := covers
  have seen : ∀ doc ∈ exportedDocs tree, seenOf doc ∈ onDisk := by
    intro doc member
    rcases covered doc member with seen | named | later
    · exact seen
    · exact absurd named List.not_mem_nil
    · exact absurd later List.not_mem_nil
  refine
    { covered := ?_
      listed := ?_
      removed := ?_
      apart := fun removed member doc docMember =>
        onePath removed member (seenOf doc) (seen doc docMember) }
  · intro doc member
    have exported := (mem_exportedDocs_iff.mp member).1
    cases planned : planFile exportDir index (seenOf doc) with
    | some plan =>
        right
        refine ⟨plan, mem_puts_selected.mpr ?_, planFile_seen planned⟩
        rw [planFile_seen planned]
        exact ⟨seen doc member, planned⟩
    | none =>
        left
        unfold planFile at planned
        split at planned
        · cases planned
        · rename_i prior found
          split_ifs at planned with same
          have row := FileTree.read_eq_some_iff.mp found
          exact ⟨_, row, (keyed _ row).docId_eq
            (names_path exported exportDir), same⟩
  · intro planned put
    exact listed _ (mem_puts_selected.mp put).1
  · intro file member
    rcases (missing_or_listed keyed formed member :
        _ ∈ missingFiles exportDir index onDisk ∨ _) with
      missing | ⟨other, otherListed, -, same⟩
    · exact .inl (List.mem_map_of_mem missing)
    · obtain ⟨doc, docMember, rfl⟩ := listed other otherListed
      exact .inr ⟨doc, docMember, same⟩

theorem CoversExports.congr {index' : NativeIndex} {phase phase' : SweepPhase}
    (covers : CoversExports tree index phase)
    (files : index'.files = index.files) (puts : phase'.puts = phase.puts)
    (removes : phase'.delta.toRemove = phase.delta.toRemove) :
    CoversExports tree index' phase' where
  covered := by
    rw [puts]
    simp only [records_congr files]
    exact covers.covered
  listed := by
    rw [puts]
    exact covers.listed
  removed := by
    rw [removes, files]
    exact covers.removed
  apart := by
    rw [removes]
    exact covers.apart

theorem covers_read {exportDir : String} {planned : PlannedFile}
    {pending : List PlannedFile} {delta : SweepDelta}
    (covers : CoversExports tree index
      (.reading (planned :: pending) delta)) :
    Covers tree
      ((reading (planned :: pending) delta).advance exportDir tree index).1
      ((reading (planned :: pending) delta).advance exportDir tree
        index).2 := by
  have put : planned ∈ (reading (planned :: pending) delta).puts := by
    simp [puts, SweepPhase.pending]
  obtain ⟨doc, member, isSeen⟩ := covers.listed planned put
  obtain ⟨-, found⟩ := mem_exportedDocs_iff.mp member
  have found : tree.read planned.seen.place.sourcePath = some doc.2 := by
    rw [isSeen]
    exact found
  unfold SweepPhase.advance
  dsimp only
  rw [found]
  exact covers.congr rfl
    (by simp [puts, SweepPhase.pending, SweepPhase.delta]) rfl

/-- The record of a lone sweep. -/
theorem recordsExactly_record {exportDir : String} {delta : SweepDelta}
    (keyed : index.WellKeyed) (formed : (recording delta).WellFormed)
    (covers : CoversExports tree index (.recording delta)) :
    RecordsExactly tree (recordFiles exportDir index delta) := by
  have putOf : ∀ read ∈ delta.reads,
      read.planned ∈ (recording delta).puts := fun read member =>
    List.mem_append_left _ (List.mem_map_of_mem member)
  have readOf : ∀ planned ∈ (recording delta).puts,
      ∃ read ∈ delta.reads, read.planned = planned := by
    intro planned put
    rcases List.mem_append.mp put with read | pending
    · exact List.mem_map.mp read
    · cases pending
  have readRecorded : ∀ doc ∈ exportedDocs tree, ∀ read ∈ delta.reads,
      read.docId = doc.1.docId →
        (recordFiles exportDir index delta).Records doc.1.docId
          doc.2.mtimeMs := by
    intro doc member read readMember same
    obtain ⟨other, otherMember, isSeen⟩ :=
      covers.listed _ (putOf read readMember)
    obtain ⟨docExported, docFound⟩ := mem_exportedDocs_iff.mp member
    obtain ⟨otherExported, otherFound⟩ := mem_exportedDocs_iff.mp otherMember
    rw [ReadFile.docId, isSeen] at same
    have place := DocPlace.eq_of_docId otherExported docExported same
    rw [place, docFound] at otherFound
    refine ⟨_, recorded_of_read formed readMember, ?_, ?_⟩
    · change read.planned.seen.place.docId = _
      rw [isSeen]
      exact same
    · change read.planned.seen.mtimeMs = _
      rw [isSeen, Option.some.inj otherFound]
      rfl
  constructor
  · intro doc member
    rcases covers.covered doc member with ⟨file, row, same, time⟩ |
      ⟨planned, put, isSeen⟩
    · by_cases written : ∃ read ∈ delta.reads, read.docId = doc.1.docId
      · obtain ⟨read, readMember, readSame⟩ := written
        exact readRecorded doc member read readMember readSame
      refine ⟨file, ?_, same, time⟩
      refine (mem_recordFiles_of_other keyed formed fun intent touched => ?_).mpr
        row
      rw [same] at touched
      rcases mem_intents_iff.mp touched with ⟨planned, put, intends⟩ |
        ⟨removed, removedMember, sameId, -⟩
      · obtain ⟨read, readMember, rfl⟩ := readOf planned put
        exact written ⟨read, readMember, congrArg Prod.fst intends⟩
      · exact covers.apart removed removedMember doc member sameId.symm
    · obtain ⟨read, readMember, rfl⟩ := readOf planned put
      refine readRecorded doc member read readMember ?_
      rw [ReadFile.docId, isSeen]
      rfl
  · intro file member
    rcases mem_recordFiles formed member with ⟨read, readMember, rfl⟩ |
      ⟨before, kept⟩
    · obtain ⟨doc, docMember, isSeen⟩ :=
        covers.listed _ (putOf read readMember)
      refine ⟨doc, docMember, ?_⟩
      change _ = read.planned.seen.place.docId
      rw [isSeen]
      rfl
    · rcases covers.removed file before with gone | present
      · exact absurd gone kept
      · exact present

/-- One step of a lone sweep. -/
theorem covers_advance {manager : NativeIndexManager}
    {others : List NativeIndexManager}
    (sound : SweepsSound tree index (manager :: others))
    (may : MayProceed index manager others)
    (covers : Covers tree index manager.phase) :
    Covers tree
      (manager.phase.advance manager.exportDir tree index).1
      (manager.phase.advance manager.exportDir tree index).2 := by
  have formed := sound.formed manager List.mem_cons_self
  cases isPhase : manager.phase with
  | idle =>
      rw [isPhase] at covers
      exact covers
  | listing collections names onDisk =>
      have listed := formed.listing collections names onDisk isPhase
      rw [isPhase] at covers
      cases names with
      | cons place names =>
          exact covers_look (listed.exported place (by simp)) covers
      | nil =>
          cases collections with
          | nil =>
              exact covers_select sound.keyed listed (may onDisk isPhase).1
                covers
          | cons collection collections =>
              exact covers_readCollection covers
  | reading pending delta =>
      rw [isPhase] at covers
      cases pending with
      | nil =>
          have covers : CoversExports tree index (reading [] delta) := covers
          exact covers.congr rfl rfl rfl
      | cons planned pending => exact covers_read covers
  | inserting delta =>
      rw [isPhase] at covers
      have covers : CoversExports tree index (inserting delta) := covers
      exact covers.congr (NativeIndex.files_insert _ _) rfl rfl
  | replacing delta =>
      rw [isPhase] at covers
      have covers : CoversExports tree index (replacing delta) := covers
      exact covers.congr (NativeIndex.files_index _ _) rfl rfl
  | removing delta =>
      rw [isPhase] at covers
      have covers : CoversExports tree index (removing delta) := covers
      exact covers.congr (NativeIndex.files_remove _ _) rfl rfl
  | recording delta =>
      rw [isPhase] at covers formed
      exact recordsExactly_record sound.keyed formed covers

/-- One manager's sweep, with nothing between its steps. -/
def loneSweep (position : Nat) (nowMs : Int) (steps : Nat) :
    List IndexStep :=
  .ensureFresh position nowMs :: List.replicate steps (.advance position)

namespace IndexSystem

/-- The manager may sweep now. -/
def IsDue (system : IndexSystem) (position : Nat) (nowMs : Int) : Prop :=
  ∃ manager ∈ system.managers[position]?.toList,
    manager.isThrottled nowMs = false

instance (system : IndexSystem) (position : Nat) (nowMs : Int) :
    Decidable (system.IsDue position nowMs) :=
  inferInstanceAs (Decidable (∃ manager ∈ Option.toList _, _))

/-- The sweep of the manager at this position covers the tree. -/
def Covered (system : IndexSystem) (position : Nat) : Prop :=
  ∃ manager, system.managers[position]? = some manager ∧
    Covers system.tree system.index manager.phase

theorem Covered.start {system : IndexSystem} {position : Nat} {nowMs : Int}
    (isIdle : system.IsIdle) (due : system.IsDue position nowMs) :
    (system.step (.ensureFresh position nowMs)).Covered position := by
  obtain ⟨manager, found, free⟩ := due
  have found : system.managers[position]? = some manager :=
    Option.mem_toList.mp found
  have within := (List.getElem?_eq_some_iff.mp found).1
  have started : manager.ensureFresh nowMs =
      { manager with
        lastRefreshMs := nowMs
        phase := .listing getExportableCollections [] [] } := by
    simp [NativeIndexManager.ensureFresh, free]
  refine ⟨manager.ensureFresh nowMs, ?_, ?_⟩
  · dsimp only [IndexSystem.step]
    rw [found]
    dsimp only
    rw [if_pos (isIdle manager (List.mem_of_getElem? found))]
    exact List.getElem?_set_self within
  · rw [started]
    exact covers_start

theorem Covered.advance {system : IndexSystem} {position : Nat}
    (covered : system.Covered position) (sound : system.Sound)
    (safe : system.Safe (.advance position)) :
    (system.step (.advance position)).Covered position := by
  obtain ⟨manager, found, covers⟩ := covered
  have within := (List.getElem?_eq_some_iff.mp found).1
  have next := covers_advance (sound.focus found)
    (mayProceed_of_maySelect (safe manager found)) covers
  dsimp only [IndexSystem.step]
  rw [found]
  exact ⟨_, List.getElem?_set_self within, next⟩

theorem Covered.replicate {system : IndexSystem} {position steps : Nat}
    (covered : system.Covered position) (sound : system.Sound)
    (safe : Always step Safe system
      (List.replicate steps (.advance position))) :
    (run step system (List.replicate steps (.advance position))).Covered
      position := by
  induction steps generalizing system with
  | zero => exact covered
  | succ steps induction =>
      obtain ⟨now, later⟩ := safe
      exact induction (covered.advance sound now) (sound.step _ now) later

end IndexSystem

/-- The steps that a sweep has left while the tree stays as it is, at most. -/
def SweepPhase.remaining (tree : SourceTree) : SweepPhase → Nat
  | .idle => 0
  | .listing collections names onDisk =>
      6 + onDisk.length + 2 * names.length +
        (collections.map fun collection =>
          1 + 2 * (readCollection tree collection).length).sum
  | .reading pending _ => 5 + pending.length
  | .inserting _ => 4
  | .replacing _ => 3
  | .removing _ => 2
  | .recording _ => 1

theorem remaining_advance {phase : SweepPhase} (exportDir : String)
    (index : NativeIndex) :
    (phase.advance exportDir tree index).2.remaining tree ≤
      phase.remaining tree - 1 := by
  cases phase with
  | listing collections names onDisk =>
      cases names with
      | cons place names =>
          unfold SweepPhase.advance
          dsimp only
          cases tree.read place.sourcePath <;>
            simp only [SweepPhase.remaining, List.length_cons,
              List.length_append, List.length_nil] <;> omega
      | nil =>
          cases collections with
          | nil =>
              have fewer := List.length_filterMap_le
                (planFile exportDir index) onDisk
              simp only [SweepPhase.advance, SweepPhase.remaining]
              omega
          | cons collection collections =>
              simp only [SweepPhase.advance, SweepPhase.remaining,
                List.map_cons, List.sum_cons, List.length_nil]
              omega
  | reading pending delta =>
      cases pending with
      | nil => simp [SweepPhase.advance, SweepPhase.remaining]
      | cons planned pending =>
          unfold SweepPhase.advance
          dsimp only
          cases tree.read planned.seen.place.sourcePath <;>
            simp only [SweepPhase.remaining, List.length_cons] <;> omega
  | _ => simp [SweepPhase.advance, SweepPhase.remaining]

theorem idle_of_remaining {phase : SweepPhase}
    (done : phase.remaining tree = 0) : phase = .idle := by
  cases phase <;> simp [SweepPhase.remaining] at done ⊢

namespace IndexSystem

theorem idle_after_advances {system : IndexSystem} {position steps : Nat}
    (others : ∀ manager ∈ system.managers.eraseIdx position,
      manager.phase = .idle)
    {manager : NativeIndexManager}
    (found : system.managers[position]? = some manager)
    (enough : manager.phase.remaining system.tree ≤ steps) :
    (run step system (List.replicate steps (.advance position))).IsIdle := by
  induction steps generalizing system manager with
  | zero =>
      intro other member
      obtain ⟨within, rfl⟩ := List.getElem?_eq_some_iff.mp found
      have isSplit := (List.getElem_cons_eraseIdx_perm within).mem_iff.mpr
        member
      rcases List.mem_cons.mp isSplit with rfl | member
      · exact idle_of_remaining (Nat.le_zero.mp enough)
      · exact others other member
  | succ steps induction =>
      have within := (List.getElem?_eq_some_iff.mp found).1
      have fewer : (manager.phase.advance manager.exportDir system.tree
          system.index).2.remaining system.tree ≤
            manager.phase.remaining system.tree - 1 :=
        remaining_advance manager.exportDir system.index
      let moved : NativeIndexManager :=
        { manager with
          phase := (manager.phase.advance manager.exportDir system.tree
            system.index).2 }
      have next : (system.step (.advance position)).managers =
          system.managers.set position moved := by
        dsimp only [IndexSystem.step]
        rw [found]
      have sameTree : (system.step (.advance position)).tree =
          system.tree := by
        dsimp only [IndexSystem.step]
        rw [found]
      have othersIdle : ∀ other ∈
          (system.step (.advance position)).managers.eraseIdx position,
            other.phase = .idle := by
        rw [next, List.eraseIdx_set_eq]
        exact others
      have foundMoved : (system.step (.advance position)).managers[position]? =
          some moved := by
        rw [next]
        exact List.getElem?_set_self within
      apply induction othersIdle foundMoved
      rw [sameTree]
      dsimp only [moved]
      omega

/-- A sweep that runs alone comes to its end. -/
theorem exists_complete {system : IndexSystem} {position : Nat}
    (nowMs : Int) (alone : system.IsIdle) (known : position <
      system.managers.length) :
    ∃ steps, (run step system (loneSweep position nowMs steps)).IsIdle := by
  have found := List.getElem?_eq_getElem known
  have next : (system.step (.ensureFresh position nowMs)).managers =
      system.managers.set position
        (system.managers[position].ensureFresh nowMs) := by
    dsimp only [IndexSystem.step]
    rw [found]
    dsimp only
    rw [if_pos (alone _ (List.getElem_mem known))]
  have othersIdle : ∀ other ∈
      (system.step (.ensureFresh position nowMs)).managers.eraseIdx position,
        other.phase = .idle := by
    rw [next, List.eraseIdx_set_eq]
    exact fun manager member =>
      alone manager (List.mem_of_mem_eraseIdx member)
  have started : (system.step (.ensureFresh position nowMs)).managers[
      position]? = some (system.managers[position].ensureFresh nowMs) := by
    rw [next]
    exact List.getElem?_set_self known
  exact ⟨_, idle_after_advances othersIdle started (Nat.le_refl _)⟩

end IndexSystem

/-- After a sweep that runs alone to its end, at the end of a safe run, the
index mirrors the tree. -/
theorem nativeIndex_mirrors (tree : SourceTree)
    (configs : List (String × Int)) (before : List IndexStep)
    (position : Nat) (nowMs : Int) (steps : Nat)
    (safe : Always IndexSystem.step IndexSystem.Safe
      (IndexSystem.start tree configs)
      (before ++ loneSweep position nowMs steps))
    (alone : (run IndexSystem.step (IndexSystem.start tree configs)
      before).IsIdle)
    (due : (run IndexSystem.step (IndexSystem.start tree configs)
      before).IsDue position nowMs)
    (complete : (run IndexSystem.step (IndexSystem.start tree configs)
      (before ++ loneSweep position nowMs steps)).IsIdle) :
    Mirrors
      (run IndexSystem.step (IndexSystem.start tree configs)
        (before ++ loneSweep position nowMs steps)).tree
      (run IndexSystem.step (IndexSystem.start tree configs)
        (before ++ loneSweep position nowMs steps)).index := by
  obtain ⟨earlier, started, later⟩ := always_append.mp safe
  have soundBefore := IndexSystem.sound_of_safe earlier
  have covered := (IndexSystem.Covered.start alone due).replicate
    (soundBefore.step _ started) later
  have sound := IndexSystem.sound_of_safe safe
  rw [run_append] at complete sound ⊢
  obtain ⟨manager, found, covers⟩ := covered
  have isIdle : manager.phase = .idle :=
    complete manager (List.mem_of_getElem? found)
  rw [isIdle] at covers
  exact mirrors_of_consistent covers fun docId =>
    sound.consistent complete docId

def noteName : FileName :=
  ⟨"note.md", by decide +kernel⟩

def notePath : SourcePath where
  sourceSubdir := "curated"
  name := noteName

def noteTree : SourceTree :=
  .write .empty notePath
    { content := "one"
      mtimeMs := 1 }

/-- Two managers of one tree, and one that names it by another path. -/
def noteManagers : List (String × Int) :=
  [("/kb-export", 15000), ("/kb-export", 15000), ("/mnt/kb-export", 15000)]

def advances (position steps : Nat) : List IndexStep :=
  List.replicate steps (.advance position)

/-- The manager's sweep after these steps is alone and complete, and leaves an
index that does not mirror the tree. -/
def EndsUnmirrored (before : List IndexStep) (position : Nat) : Prop :=
  (run IndexSystem.step (IndexSystem.start noteTree noteManagers)
      before).IsIdle ∧
    (run IndexSystem.step (IndexSystem.start noteTree noteManagers)
      before).IsDue position 40000 ∧
    (run IndexSystem.step (IndexSystem.start noteTree noteManagers)
      (before ++ loneSweep position 40000 15)).IsIdle ∧
    ¬Mirrors
      (run IndexSystem.step (IndexSystem.start noteTree noteManagers)
        (before ++ loneSweep position 40000 15)).tree
      (run IndexSystem.step (IndexSystem.start noteTree noteManagers)
        (before ++ loneSweep position 40000 15)).index

instance (before : List IndexStep) (position : Nat) :
    Decidable (EndsUnmirrored before position) :=
  inferInstanceAs (Decidable (_ ∧ _))

/-- The last sweep leaves the document twice or not at all: after a crash
between an insert and its record, after two sweeps that both find the document
without a record, and when the second sweep knows the tree by another path. -/
theorem broken_mirrors :
    EndsUnmirrored (loneSweep 0 20000 10 ++ [.crash 0]) 0 ∧
      EndsUnmirrored
        (loneSweep 0 20000 9 ++ loneSweep 1 20000 15 ++ advances 0 6) 1 ∧
      EndsUnmirrored (loneSweep 0 20000 15) 2 := by
  decide +kernel

/-- Two managers in turn, with a change of the file between them. -/
theorem nativeIndex_mirrors_note :
    Mirrors
      (run IndexSystem.step (IndexSystem.start noteTree noteManagers)
        ((loneSweep 0 20000 15 ++
          [.writeFile notePath
            { content := "two"
              mtimeMs := 2 }]) ++ loneSweep 1 40000 15)).tree
      (run IndexSystem.step (IndexSystem.start noteTree noteManagers)
        ((loneSweep 0 20000 15 ++
          [.writeFile notePath
            { content := "two"
              mtimeMs := 2 }]) ++ loneSweep 1 40000 15)).index :=
  nativeIndex_mirrors noteTree noteManagers _ 1 40000 15
    (by decide +kernel) (by decide +kernel) (by decide +kernel)
    (by decide +kernel)

end Registrar
