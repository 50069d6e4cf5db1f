import Registrar.Index.SafeSweeps

/-!
# The invariant of safe sweeps

A document is consistent when its texts agree with its record.  In a safe run
every document is consistent, but for those that a sweep under way has inserted
or removed and not recorded yet.
-/

namespace Registrar

open Transition

/-- The path names the document's file below some export directory. -/
def Names (path docId : String) : Prop :=
  ∃ place : DocPlace, ∃ exportDir,
    place.IsExported ∧ path = place.path exportDir ∧ docId = place.docId

theorem Names.docId_eq {path left right : String} (leftNames : Names path left)
    (rightNames : Names path right) : left = right := by
  obtain ⟨leftPlace, _, leftExported, rfl, rfl⟩ := leftNames
  obtain ⟨rightPlace, _, rightExported, same, rfl⟩ := rightNames
  rw [DocPlace.eq_of_path leftExported rightExported same]

theorem names_path {place : DocPlace} (exported : place.IsExported)
    (exportDir : String) : Names (place.path exportDir) place.docId :=
  ⟨place, exportDir, exported, rfl, rfl⟩

def NativeIndex.WellKeyed (index : NativeIndex) : Prop :=
  ∀ file ∈ index.files.rows, Names file.1 file.2.docId

/-- The text is the present one if the file has this modification time or a
recorded one. -/
def Fresh (tree : SourceTree) (index : NativeIndex) (docId : String)
    (mtimeMs : Int) (content : String) : Prop :=
  ∀ doc ∈ exportedDocs tree, doc.1.docId = docId →
    doc.2.mtimeMs = mtimeMs ∨ index.Records docId doc.2.mtimeMs →
      content = doc.2.content

structure Consistent (tree : SourceTree) (index : NativeIndex)
    (docId : String) : Prop where
  unrecorded :
    (∀ mtimeMs, ¬index.Records docId mtimeMs) → index.textsOf docId = []
  upToDate : ∀ doc ∈ exportedDocs tree, doc.1.docId = docId →
    index.Records docId doc.2.mtimeMs →
      index.textsOf docId = [doc.2.content]

/-- What a sweep knows about its listing. -/
structure ListingFormed (collections : List ExportableCollectionDef)
    (names : List DocPlace) (onDisk : List SeenFile) : Prop where
  exportable : ∀ collection ∈ collections,
    collection ∈ getExportableCollections
  exported : ∀ place ∈ onDisk.map SeenFile.place ++ names, place.IsExported
  distinct : (onDisk.map SeenFile.place ++ names).Nodup
  distinctCollections : collections.Nodup
  later : ∀ place ∈ onDisk.map SeenFile.place ++ names,
    place.collection ∉ collections

namespace SweepPhase

def Listing (phase : SweepPhase) : Prop :=
  ∀ collections names onDisk, phase = .listing collections names onDisk →
    ListingFormed collections names onDisk

structure WellFormed (phase : SweepPhase) : Prop where
  listing : phase.Listing
  exported : ∀ planned ∈ phase.puts, planned.seen.place.IsExported
  distinct : (phase.puts.map fun planned => planned.seen.place.docId).Nodup
  named : ∀ removed ∈ phase.delta.toRemove, Names removed.path removed.docId
  apart : ∀ planned ∈ phase.puts, ∀ removed ∈ phase.delta.toRemove,
    planned.seen.place.docId ≠ removed.docId

/-- The sweep has written the document and not recorded it. -/
def Disturbs (phase : SweepPhase) (docId : String) : Prop :=
  phase.hasInserted ∧ (docId, .insert) ∈ phase.intents ∨
    phase.hasRemoved ∧ (docId, .remove) ∈ phase.intents

/-- What the tables say about the documents of a sweep under way. -/
structure Tended (tree : SourceTree) (index : NativeIndex)
    (phase : SweepPhase) : Prop where
  fresh : ∀ read ∈ phase.delta.reads,
    Fresh tree index read.docId read.mtimeMs read.content
  unrecorded : ∀ docId, (docId, .insert) ∈ phase.intents →
    ∀ mtimeMs, ¬index.Records docId mtimeMs
  absent : phase.hasInserted = false → ∀ docId,
    (docId, .insert) ∈ phase.intents → index.textsOf docId = []
  inserted : phase.hasInserted → ∀ read ∈ phase.delta.reads,
    read.planned.isNew → index.textsOf read.docId = [read.content]
  recorded : ∀ docId mtimeMs, (docId, .replace mtimeMs) ∈ phase.intents →
    ∃ mtimeMs, index.Records docId mtimeMs
  replaced : phase.hasReplaced → ∀ docId mtimeMs,
    (docId, .replace mtimeMs) ∈ phase.intents →
      ∃ content, index.textsOf docId = [content] ∧
        Fresh tree index docId mtimeMs content
  covered : ∀ docId, (docId, .remove) ∈ phase.intents →
    ∀ file ∈ index.files.rows, file.2.docId = docId →
      ∃ removed ∈ phase.delta.toRemove, removed.path = file.1
  emptied : phase.hasRemoved → ∀ docId, (docId, .remove) ∈ phase.intents →
    index.textsOf docId = []

end SweepPhase

/-- The invariant, for the sweeps in any order. -/
structure SweepsSound (tree : SourceTree) (index : NativeIndex)
    (managers : List NativeIndexManager) : Prop where
  keyed : index.WellKeyed
  formed : ∀ manager ∈ managers, manager.phase.WellFormed
  compatible : managers.Pairwise fun left right =>
    CompatibleIntents left.phase.intents right.phase.intents
  tended : ∀ manager ∈ managers, manager.phase.Tended tree index
  consistent : ∀ docId, Consistent tree index docId ∨
    ∃ manager ∈ managers, manager.phase.Disturbs docId

theorem Intent.Compatible.symm {left right : Intent}
    (compatible : left.Compatible right) : right.Compatible left :=
  ⟨compatible.1.symm, compatible.1 ▸ compatible.2⟩

theorem CompatibleIntents.symm {left right : List (String × Intent)}
    (compatible : CompatibleIntents left right) :
    CompatibleIntents right left :=
  fun mine mineMember other otherMember same =>
    (compatible other otherMember mine mineMember same.symm).symm

theorem CompatibleIntents.mono {left left' right : List (String × Intent)}
    (compatible : CompatibleIntents left right) (fewer : left' ⊆ left) :
    CompatibleIntents left' right :=
  fun mine mineMember => compatible mine (fewer mineMember)

theorem CompatibleIntents.eq {left right : List (String × Intent)}
    (compatible : CompatibleIntents left right) {docId : String}
    {mine other : Intent} (mineMember : (docId, mine) ∈ left)
    (otherMember : (docId, other) ∈ right) : mine = other ∧ mine ≠ .insert :=
  compatible _ mineMember _ otherMember rfl

namespace SweepPhase

theorem mem_intents_iff {phase : SweepPhase} {docId : String}
    {intent : Intent} :
    (docId, intent) ∈ phase.intents ↔
      (∃ planned ∈ phase.puts, planned.intent = (docId, intent)) ∨
        ∃ removed ∈ phase.delta.toRemove,
          removed.docId = docId ∧ intent = .remove := by
  simp only [intents, List.mem_append, List.mem_map, RemovedFile.intent,
    Prod.mk.injEq]
  refine or_congr Iff.rfl ?_
  exact exists_congr fun removed => by rw [eq_comm (a := intent)]

theorem intent_eq_insert_iff {planned : PlannedFile} {docId : String} :
    planned.intent = (docId, .insert) ↔
      planned.seen.place.docId = docId ∧ planned.isNew = true := by
  unfold PlannedFile.intent
  cases planned.isNew <;> simp

theorem intent_eq_replace_iff {planned : PlannedFile} {docId : String}
    {mtimeMs : Int} :
    planned.intent = (docId, .replace mtimeMs) ↔
      planned.seen.place.docId = docId ∧ planned.isNew = false ∧
        planned.seen.mtimeMs = mtimeMs := by
  unfold PlannedFile.intent
  cases planned.isNew <;> simp

theorem intent_ne_remove {planned : PlannedFile} {docId : String} :
    planned.intent ≠ (docId, .remove) := by
  unfold PlannedFile.intent
  cases planned.isNew <;> simp

theorem mem_insert_iff {phase : SweepPhase} {docId : String} :
    (docId, Intent.insert) ∈ phase.intents ↔
      ∃ planned ∈ phase.puts,
        planned.seen.place.docId = docId ∧ planned.isNew = true := by
  simp [mem_intents_iff, intent_eq_insert_iff]

theorem mem_replace_iff {phase : SweepPhase} {docId : String}
    {mtimeMs : Int} :
    (docId, Intent.replace mtimeMs) ∈ phase.intents ↔
      ∃ planned ∈ phase.puts, planned.seen.place.docId = docId ∧
        planned.isNew = false ∧ planned.seen.mtimeMs = mtimeMs := by
  simp [mem_intents_iff, intent_eq_replace_iff]

theorem mem_remove_iff {phase : SweepPhase} {docId : String} :
    (docId, Intent.remove) ∈ phase.intents ↔
      docId ∈ phase.delta.removedIds := by
  simp [mem_intents_iff, intent_ne_remove, SweepDelta.removedIds]

end SweepPhase

variable {tree : SourceTree} {index index' : NativeIndex}

theorem Fresh.mono {docId : String} {mtimeMs : Int} {content : String}
    (fresh : Fresh tree index docId mtimeMs content)
    (records : ∀ other, index'.Records docId other →
      index.Records docId other ∨ other = mtimeMs) :
    Fresh tree index' docId mtimeMs content := by
  intro doc member same known
  apply fresh doc member same
  rcases known with now | recorded
  · exact .inl now
  · exact (records _ recorded).symm

/-- A transaction of another sweep leaves this of a document that a sweep is to
write. -/
structure Framed (tree : SourceTree) (index index' : NativeIndex)
    (docId : String) (intent : Intent) : Prop where
  records : ∀ mtimeMs, index'.Records docId mtimeMs →
    index.Records docId mtimeMs ∨ intent = .replace mtimeMs
  kept : (∃ mtimeMs, intent = .replace mtimeMs) →
    (∃ mtimeMs, index.Records docId mtimeMs) →
      ∃ mtimeMs, index'.Records docId mtimeMs
  rows : intent = .remove → ∀ file ∈ index'.files.rows,
    file.2.docId = docId → file ∈ index.files.rows
  texts : index'.textsOf docId = index.textsOf docId ∨
    (∃ mtimeMs content, intent = .replace mtimeMs ∧
      index'.textsOf docId = [content] ∧
        Fresh tree index' docId mtimeMs content) ∨
    intent = .remove ∧ index'.textsOf docId = []

theorem framed_of_same {docId : String} {intent : Intent}
    (rows : ∀ file, file.2.docId = docId →
      (file ∈ index'.files.rows ↔ file ∈ index.files.rows))
    (texts : index'.textsOf docId = index.textsOf docId) :
    Framed tree index index' docId intent where
  records := fun _ ⟨file, member, same, time⟩ =>
    .inl ⟨file, (rows file same).mp member, same, time⟩
  kept := fun _ ⟨mtimeMs, file, member, same, time⟩ =>
    ⟨mtimeMs, file, (rows file same).mpr member, same, time⟩
  rows := fun _ file member same => (rows file same).mp member
  texts := .inl texts

namespace SweepPhase

theorem Tended.framed {phase : SweepPhase}
    (tended : phase.Tended tree index)
    (framed : ∀ docId intent, (docId, intent) ∈ phase.intents →
      Framed tree index index' docId intent) :
    phase.Tended tree index' where
  fresh := by
    intro read member
    have planned : read.planned ∈ phase.puts :=
      List.mem_append_left _ (List.mem_map_of_mem member)
    have frame := framed _ _
      (mem_intents_iff.mpr (.inl ⟨_, planned, rfl⟩))
    refine (tended.fresh read member).mono fun other recorded => ?_
    refine (frame.records other recorded).imp_right fun isReplace => ?_
    have intent : read.planned.intent =
        (read.docId, .replace other) := Prod.ext rfl isReplace
    exact (intent_eq_replace_iff.mp intent).2.2.symm
  unrecorded := by
    intro docId member mtimeMs recorded
    rcases (framed docId _ member).records mtimeMs recorded with before | no
    · exact tended.unrecorded docId member mtimeMs before
    · cases no
  absent := by
    intro early docId member
    rcases (framed docId _ member).texts with same | ⟨_, _, no, _⟩ | ⟨no, _⟩
    · rw [same]
      exact tended.absent early docId member
    · cases no
    · cases no
  inserted := by
    intro late read member isNew
    have intent : (read.docId, Intent.insert) ∈ phase.intents :=
      mem_insert_iff.mpr ⟨read.planned,
        List.mem_append_left _ (List.mem_map_of_mem member), rfl, isNew⟩
    rcases (framed _ _ intent).texts with same | ⟨_, _, no, _⟩ | ⟨no, _⟩
    · rw [same]
      exact tended.inserted late read member isNew
    · cases no
    · cases no
  recorded := by
    intro docId mtimeMs member
    exact (framed docId _ member).kept ⟨mtimeMs, rfl⟩
      (tended.recorded docId mtimeMs member)
  replaced := by
    intro late docId mtimeMs member
    have frame := framed docId _ member
    rcases frame.texts with same | ⟨_, content, isReplace, text, fresh⟩ |
      ⟨no, _⟩
    · obtain ⟨content, text, fresh⟩ :=
        tended.replaced late docId mtimeMs member
      refine ⟨content, same.trans text, fresh.mono fun other recorded => ?_⟩
      refine (frame.records other recorded).imp_right fun isReplace => ?_
      exact (Intent.replace.inj isReplace).symm
    · cases isReplace
      exact ⟨content, text, fresh⟩
    · cases no
  covered := by
    intro docId member file fileMember same
    exact tended.covered docId member file
      ((framed docId _ member).rows rfl file fileMember same) same
  emptied := by
    intro late docId member
    rcases (framed docId _ member).texts with same | ⟨_, _, no, _⟩ |
      ⟨_, text⟩
    · rw [same]
      exact tended.emptied late docId member
    · cases no
    · exact text

end SweepPhase

end Registrar
