import Registrar.Index.SweepRuns

/-!
# Where indexed documents lie

However the sweeps of an index are interleaved with changes of the export tree
and with crashes, every row of the index carries the citation of an exported
place and the name of that place's collection.
-/

namespace Registrar

open Transition

/-- The citation and the collection of a row are those of one exported
place. -/
def CitesPlace (id collection : String) : Prop :=
  ∃ place : DocPlace, place.IsExported ∧ id = place.docId ∧
    collection = place.collection.name

theorem DocPlace.IsExported.citesPlace {place : DocPlace}
    (exported : place.IsExported) :
    CitesPlace place.docId place.collection.name :=
  ⟨place, exported, rfl, rfl⟩

namespace NativeIndex

def Placed (index : NativeIndex) : Prop :=
  ∀ row ∈ index.docs.rows, CitesPlace row.id row.collection

variable {index : NativeIndex}

theorem Placed.insertDoc {doc : IndexedDoc} (placed : index.Placed)
    (cites : CitesPlace doc.id doc.collection) :
    (index.insertDoc doc).Placed := by
  intro row member
  rcases List.mem_append.mp member with before | new
  · exact placed row before
  · rw [List.mem_singleton.mp new]
    exact cites

theorem Placed.deleteDoc (placed : index.Placed) (docId : String) :
    (index.deleteDoc docId).Placed :=
  fun row member => placed row (List.mem_of_mem_filter member)

theorem Placed.insert {docs : List IndexedDoc} (placed : index.Placed)
    (cites : ∀ doc ∈ docs, CitesPlace doc.id doc.collection) :
    (index.insert docs).Placed := by
  unfold NativeIndex.insert
  induction docs generalizing index with
  | nil => exact placed
  | cons doc rest induction =>
      obtain ⟨first, later⟩ := List.forall_mem_cons.mp cites
      exact induction (placed.insertDoc first) later

theorem Placed.replace {docs : List IndexedDoc} (placed : index.Placed)
    (cites : ∀ doc ∈ docs, CitesPlace doc.id doc.collection) :
    (index.index docs).Placed := by
  unfold NativeIndex.index
  induction docs generalizing index with
  | nil => exact placed
  | cons doc rest induction =>
      obtain ⟨first, later⟩ := List.forall_mem_cons.mp cites
      exact induction ((placed.deleteDoc doc.id).insertDoc first) later

theorem Placed.remove (placed : index.Placed) (ids : List String) :
    (index.remove ids).Placed := by
  unfold NativeIndex.remove
  induction ids generalizing index with
  | nil => exact placed
  | cons id rest induction => exact induction (placed.deleteDoc id)

end NativeIndex

/-- The files that the sweep has in hand lie at exported places. -/
def SweepPhase.Placed : SweepPhase → Prop
  | .idle => True
  | .listing collections names onDisk =>
      (∀ collection ∈ collections, collection ∈ getExportableCollections) ∧
        (∀ place ∈ names, place.IsExported) ∧
          ∀ seen ∈ onDisk, seen.place.IsExported
  | .reading pending delta =>
      (∀ planned ∈ pending, planned.seen.place.IsExported) ∧
        ∀ read ∈ delta.reads, read.planned.seen.place.IsExported
  | .inserting delta | .replacing delta | .removing delta
  | .recording delta =>
      ∀ read ∈ delta.reads, read.planned.seen.place.IsExported

theorem citesPlace_of_reads {reads : List ReadFile} {doc : IndexedDoc}
    (placed : ∀ read ∈ reads, read.planned.seen.place.IsExported)
    {kept : ReadFile → Bool}
    (member : doc ∈ (reads.filter kept).map ReadFile.doc) :
    CitesPlace doc.id doc.collection := by
  obtain ⟨read, isRead, rfl⟩ := List.mem_map.mp member
  exact (placed read (List.mem_of_mem_filter isRead)).citesPlace

theorem seen_of_planFile {exportDir : String} {index : NativeIndex}
    {seen : SeenFile} {planned : PlannedFile}
    (isPlan : planFile exportDir index seen = some planned) :
    planned.seen = seen := by
  unfold planFile at isPlan
  split at isPlan
  · cases isPlan
    rfl
  · split_ifs at isPlan with fresh
    cases isPlan
    rfl

theorem docs_upsertFiles (exportDir : String) (reads : List ReadFile)
    (index : NativeIndex) :
    (reads.foldl
      (fun index read =>
        index.upsertFile (read.planned.seen.place.path exportDir)
          { docId := read.docId
            mtimeMs := read.mtimeMs }) index).docs = index.docs := by
  induction reads generalizing index with
  | nil => rfl
  | cons read rest induction => rw [List.foldl_cons, induction]; rfl

theorem docs_deleteFiles (removed : List RemovedFile) (index : NativeIndex) :
    (removed.foldl (fun index removed => index.deleteFile removed.path)
      index).docs = index.docs := by
  induction removed generalizing index with
  | nil => rfl
  | cons file rest induction => rw [List.foldl_cons, induction]; rfl

theorem docs_recordFiles (exportDir : String) (index : NativeIndex)
    (delta : SweepDelta) :
    (recordFiles exportDir index delta).docs = index.docs := by
  unfold recordFiles
  rw [docs_deleteFiles, docs_upsertFiles]

variable {tree : SourceTree} {index : NativeIndex} {exportDir : String}

theorem placed_advance {phase : SweepPhase} (rows : index.Placed)
    (placed : phase.Placed) :
    (phase.advance exportDir tree index).1.Placed ∧
      (phase.advance exportDir tree index).2.Placed := by
  fun_cases SweepPhase.advance exportDir tree index phase with
  | case1 => exact ⟨rows, placed⟩
  | case2 collections place names onDisk absent =>
      obtain ⟨exportable, named, seen⟩ := placed
      exact ⟨rows, exportable, (List.forall_mem_cons.mp named).2, seen⟩
  | case3 collections place names onDisk file present =>
      obtain ⟨exportable, named, seen⟩ := placed
      obtain ⟨here, later⟩ := List.forall_mem_cons.mp named
      refine ⟨rows, exportable, later, List.forall_mem_append.mpr ⟨seen, ?_⟩⟩
      exact List.forall_mem_singleton.mpr here
  | case4 collection collections onDisk =>
      obtain ⟨exportable, -, seen⟩ := placed
      obtain ⟨here, later⟩ := List.forall_mem_cons.mp exportable
      refine ⟨rows, later, fun place member => ?_, seen⟩
      obtain ⟨rfl, markdown, -⟩ := mem_readCollection_iff.mp member
      exact ⟨here, markdown⟩
  | case5 onDisk =>
      refine ⟨rows, fun planned member => ?_, by simp⟩
      obtain ⟨seen, isSeen, isPlan⟩ := List.mem_filterMap.mp member
      rw [seen_of_planFile isPlan]
      exact placed.2.2 seen isSeen
  | case6 delta planned pending absent =>
      exact ⟨rows, (List.forall_mem_cons.mp placed.1).2, placed.2⟩
  | case7 delta planned pending file present =>
      obtain ⟨here, later⟩ := List.forall_mem_cons.mp placed.1
      refine ⟨rows, later, List.forall_mem_append.mpr ⟨placed.2, ?_⟩⟩
      exact List.forall_mem_singleton.mpr here
  | case8 delta => exact ⟨rows, placed.2⟩
  | case9 delta =>
      exact ⟨rows.insert fun doc => citesPlace_of_reads placed, placed⟩
  | case10 delta =>
      exact ⟨rows.replace fun doc => citesPlace_of_reads placed, placed⟩
  | case11 delta => exact ⟨rows.remove _, placed⟩
  | case12 delta =>
      refine ⟨?_, trivial⟩
      unfold NativeIndex.Placed
      rw [docs_recordFiles]
      exact rows

structure IndexSystem.Placed (system : IndexSystem) : Prop where
  rows : system.index.Placed
  phases : ∀ manager ∈ system.managers, manager.phase.Placed

theorem placed_ensureFresh {manager : NativeIndexManager} {nowMs : Int}
    (placed : manager.phase.Placed) :
    (manager.ensureFresh nowMs).phase.Placed := by
  unfold NativeIndexManager.ensureFresh
  split_ifs with throttled
  · exact placed
  · exact ⟨fun _ member => member, by simp, by simp⟩

theorem phases_set {managers : List NativeIndexManager} {position : Nat}
    {manager : NativeIndexManager}
    (placed : ∀ manager ∈ managers, manager.phase.Placed)
    (changed : manager.phase.Placed) :
    ∀ other ∈ managers.set position manager, other.phase.Placed := by
  intro other member
  rcases List.mem_or_eq_of_mem_set member with before | rfl
  · exact placed other before
  · exact changed

theorem IndexSystem.Placed.step {system : IndexSystem} (label : IndexStep)
    (placed : system.Placed) : (system.step label).Placed := by
  obtain ⟨rows, phases⟩ := placed
  fun_cases IndexSystem.step system label with
  | case1 path file => exact ⟨rows, phases⟩
  | case2 path => exact ⟨rows, phases⟩
  | case3 position nowMs absent => exact ⟨rows, phases⟩
  | case4 position nowMs manager found idle =>
      have member := List.mem_of_getElem? found
      exact ⟨rows,
        phases_set phases (placed_ensureFresh (phases manager member))⟩
  | case5 position nowMs manager found busy => exact ⟨rows, phases⟩
  | case6 position absent => exact ⟨rows, phases⟩
  | case7 position manager found next =>
      have member := List.mem_of_getElem? found
      obtain ⟨rows', phase'⟩ := placed_advance rows (phases manager member)
      exact ⟨rows', phases_set phases phase'⟩
  | case8 position absent => exact ⟨rows, phases⟩
  | case9 position manager found =>
      exact ⟨rows, phases_set phases trivial⟩

theorem placed_run (tree : SourceTree) (configs : List (String × Int))
    (labels : List IndexStep) :
    (run IndexSystem.step (IndexSystem.start tree configs)
      labels).index.Placed := by
  have initially : (IndexSystem.start tree configs).Placed := by
    refine ⟨fun row member => ?_, fun manager member => ?_⟩
    · cases member
    · obtain ⟨config, -, rfl⟩ := List.mem_map.mp member
      trivial
  have kept (system : IndexSystem) (label : IndexStep)
      (placed : system.Placed) := placed.step label
  exact (invariant_of_run kept labels initially).rows

end Registrar
