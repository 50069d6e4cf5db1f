import Mathlib.Logic.Relation
import Registrar.Index.Mirror

/-!
# A sweep over an unchanging tree

The steps of a manager that sweeps alone amount to one function of the tree and
the index.  What it leaves under a document id depends on the record under the
path of the document.
-/

namespace Registrar

open Relation SweepPhase

def lookAt (tree : SourceTree) (place : DocPlace) : Option SeenFile :=
  (tree.read place.sourcePath).map fun file =>
    { place := place
      mtimeMs := file.mtimeMs }

def readPlanned (tree : SourceTree) (planned : PlannedFile) :
    Option ReadFile :=
  (tree.read planned.seen.place.sourcePath).map fun file =>
    { planned := planned
      content := file.content }

def sweepDelta (exportDir : String) (tree : SourceTree)
    (index : NativeIndex) : SweepDelta :=
  let onDisk := (exportedDocs tree).map seenOf
  { reads :=
      (onDisk.filterMap (planFile exportDir index)).filterMap
        (readPlanned tree)
    toRemove := missingFiles exportDir index onDisk }

/-- One whole sweep. -/
def NativeIndex.sweep (exportDir : String) (tree : SourceTree)
    (index : NativeIndex) : NativeIndex :=
  let delta := sweepDelta exportDir tree index
  recordFiles exportDir
    (((index.insert delta.toInsert).index delta.toReplace).remove
      delta.removedIds) delta

/-- One step of a manager. -/
def Advances (exportDir : String) (tree : SourceTree)
    (before after : NativeIndex × SweepPhase) : Prop :=
  before.2.advance exportDir tree before.1 = after

section Steps

variable {exportDir : String} {tree : SourceTree} {index : NativeIndex}

theorem advances_names (collections : List ExportableCollectionDef)
    (names : List DocPlace) (onDisk : List SeenFile) :
    ReflTransGen (Advances exportDir tree)
      (index, .listing collections names onDisk)
      (index, .listing collections []
        (onDisk ++ names.filterMap (lookAt tree))) := by
  induction names generalizing onDisk with
  | nil =>
      rw [List.filterMap_nil, List.append_nil]
  | cons place names induction =>
      cases found : tree.read place.sourcePath with
      | none =>
          have look : lookAt tree place = none := by simp [lookAt, found]
          rw [List.filterMap_cons_none look]
          refine .head ?_ (induction onDisk)
          simp [Advances, SweepPhase.advance, found]
      | some file =>
          have look : lookAt tree place = some
              { place := place
                mtimeMs := file.mtimeMs } := by
            simp [lookAt, found]
          rw [List.filterMap_cons_some look, List.append_cons]
          refine .head ?_ (induction _)
          simp [Advances, SweepPhase.advance, found]

theorem advances_collections (collections : List ExportableCollectionDef)
    (onDisk : List SeenFile) :
    ReflTransGen (Advances exportDir tree)
      (index, .listing collections [] onDisk)
      (index, .listing [] [] (onDisk ++ collections.flatMap fun collection =>
        (readCollection tree collection).filterMap (lookAt tree))) := by
  induction collections generalizing onDisk with
  | nil =>
      rw [List.flatMap_nil, List.append_nil]
  | cons collection collections induction =>
      rw [List.flatMap_cons, ← List.append_assoc]
      have first : Advances exportDir tree
          (index, .listing (collection :: collections) [] onDisk)
          (index, .listing collections (readCollection tree collection)
            onDisk) := rfl
      exact .head first ((advances_names _ _ _).trans (induction _))

theorem advances_pending (pending : List PlannedFile) (delta : SweepDelta) :
    ReflTransGen (Advances exportDir tree)
      (index, .reading pending delta)
      (index, .reading []
        { reads := delta.reads ++ pending.filterMap (readPlanned tree)
          toRemove := delta.toRemove }) := by
  induction pending generalizing delta with
  | nil =>
      rw [List.filterMap_nil, List.append_nil]
  | cons planned pending induction =>
      cases found : tree.read planned.seen.place.sourcePath with
      | none =>
          have read : readPlanned tree planned = none := by
            simp [readPlanned, found]
          rw [List.filterMap_cons_none read]
          refine .head ?_ (induction delta)
          simp [Advances, SweepPhase.advance, found]
      | some file =>
          have read : readPlanned tree planned = some
              { planned := planned
                content := file.content } := by
            simp [readPlanned, found]
          rw [List.filterMap_cons_some read, List.append_cons]
          refine .head ?_ (induction
            { reads := delta.reads ++
                [{ planned := planned
                   content := file.content }]
              toRemove := delta.toRemove })
          simp [Advances, SweepPhase.advance, found]

theorem lookAt_readCollection (collection : ExportableCollectionDef) :
    (readCollection tree collection).filterMap (lookAt tree) =
      ((tree.rows.filter fun file =>
        file.1.sourceSubdir = collection.sourceSubdir &&
          isMarkdownName file.1.name).map fun file =>
            (({ collection := collection
                name := file.1.name }, file.2) :
              DocPlace × SourceFile)).map seenOf := by
  have known : ∀ file ∈ tree.rows, tree.read file.1 = some file.2 :=
    fun file member => FileTree.read_eq_some_iff.mpr member
  unfold readCollection
  generalize tree.rows = rows at known
  induction rows with
  | nil => rfl
  | cons file rest induction =>
      have later := induction fun other member =>
        known other (List.mem_cons_of_mem _ member)
      by_cases here : file.1.sourceSubdir = collection.sourceSubdir
      · by_cases markdown : isMarkdownName file.1.name = true
        · have look : lookAt tree
              { collection := collection
                name := file.1.name } = some (seenOf
              ({ collection := collection
                 name := file.1.name }, file.2)) := by
            have path : (DocPlace.sourcePath
                { collection := collection
                  name := file.1.name }) = file.1 := by
              simp only [DocPlace.sourcePath, ← here]
            simp [lookAt, path, known file List.mem_cons_self, seenOf]
          rw [List.filter_cons_of_pos (by simpa using here), List.map_cons,
            List.filter_cons_of_pos (by exact markdown),
            List.filterMap_cons_some look, later,
            List.filter_cons_of_pos (by simp [here, markdown])]
          rfl
        · rw [List.filter_cons_of_pos (by simpa using here), List.map_cons,
            List.filter_cons_of_neg (by exact markdown), later,
            List.filter_cons_of_neg (by simp [markdown])]
      · rw [List.filter_cons_of_neg (by simpa using here), later,
          List.filter_cons_of_neg (by simp [here])]

theorem lookAt_collections :
    (getExportableCollections.flatMap fun collection =>
      (readCollection tree collection).filterMap (lookAt tree)) =
        (exportedDocs tree).map seenOf := by
  unfold exportedDocs
  rw [List.map_flatMap]
  simp only [lookAt_readCollection]

/-- A manager that runs alone arrives at the whole sweep. -/
theorem sweep_reached :
    ReflTransGen (Advances exportDir tree)
      (index, .listing getExportableCollections [] [])
      (index.sweep exportDir tree, .idle) := by
  have step : ∀ index phase, Advances exportDir tree (index, phase)
      (phase.advance exportDir tree index) := fun _ _ => rfl
  have listed : ReflTransGen (Advances exportDir tree)
      (index, .listing getExportableCollections [] [])
      (index, .listing [] [] ((exportedDocs tree).map seenOf)) := by
    rw [← lookAt_collections]
    exact advances_collections _ []
  have read : ReflTransGen (Advances exportDir tree)
      (index, .listing [] [] ((exportedDocs tree).map seenOf))
      (index, .reading [] (sweepDelta exportDir tree index)) :=
    .head (step _ _) (advances_pending _ _)
  have written : ReflTransGen (Advances exportDir tree)
      (index, .reading [] (sweepDelta exportDir tree index))
      (index.sweep exportDir tree, .idle) :=
    .head (step _ _) (.head (step _ _) (.head (step _ _)
      (.head (step _ _) (.single (step _ _)))))
  exact (listed.trans read).trans written

end Steps

section Texts

variable {exportDir : String} {tree : SourceTree} {index : NativeIndex}

theorem nodup_exportedDocs (tree : SourceTree) :
    ((exportedDocs tree).map fun doc => doc.1.docId).Nodup := by
  have docs : (exportedDocs tree).Nodup := by
    unfold exportedDocs
    rw [List.nodup_flatMap]
    constructor
    · intro collection _
      apply List.pairwise_map.mpr
      apply (tree.coexist.filter _).imp_of_mem
      intro left right leftMember rightMember different same
      apply different
      have leftHere := (Bool.and_eq_true_iff.mp
        (List.mem_filter.mp leftMember).2).1
      have rightHere := (Bool.and_eq_true_iff.mp
        (List.mem_filter.mp rightMember).2).1
      simp only [Prod.mk.injEq, DocPlace.mk.injEq, true_and] at same
      rw [SourcePath.mk.injEq]
      exact ⟨(of_decide_eq_true leftHere).trans
        (of_decide_eq_true rightHere).symm, same.1⟩
    · apply (List.Nodup.of_map _ nodup_collectionNames).imp
      intro left right different doc leftMember rightMember
      obtain ⟨_, -, rfl⟩ := List.mem_map.mp leftMember
      obtain ⟨_, -, same⟩ := List.mem_map.mp rightMember
      simp only [Prod.mk.injEq, DocPlace.mk.injEq] at same
      exact different same.1.1.symm
  exact docs.map_on fun left leftMember right rightMember same =>
    exportedDocs_unique leftMember rightMember same

theorem mem_sweep_reads {read : ReadFile} :
    read ∈ (sweepDelta exportDir tree index).reads ↔
      ∃ doc ∈ exportedDocs tree,
        planFile exportDir index (seenOf doc) = some read.planned ∧
          read.content = doc.2.content := by
  unfold sweepDelta
  dsimp only
  simp only [List.mem_filterMap, List.mem_map]
  constructor
  · rintro ⟨planned, ⟨_, ⟨doc, member, rfl⟩, isPlanned⟩, isRead⟩
    have seen := planFile_seen isPlanned
    have found := (mem_exportedDocs_iff.mp member).2
    have path : planned.seen.place.sourcePath = doc.1.sourcePath := by
      rw [seen]
      rfl
    rw [readPlanned, path, found] at isRead
    rw [← Option.some.inj isRead]
    exact ⟨doc, member, isPlanned, rfl⟩
  · rintro ⟨doc, member, isPlanned, content⟩
    have seen := planFile_seen isPlanned
    have found := (mem_exportedDocs_iff.mp member).2
    have path : read.planned.seen.place.sourcePath = doc.1.sourcePath := by
      rw [seen]
      rfl
    refine ⟨read.planned, ⟨_, ⟨doc, member, rfl⟩, isPlanned⟩, ?_⟩
    rw [readPlanned, path, found, Option.map_some, ← content]

theorem nodup_sweep_reads (exportDir : String) (tree : SourceTree)
    (index : NativeIndex) :
    ((sweepDelta exportDir tree index).reads.map ReadFile.docId).Nodup := by
  have listed := nodup_exportedDocs tree
  have read : ∀ docs : List (DocPlace × SourceFile),
      ((((docs.map seenOf).filterMap (planFile exportDir index)).filterMap
        (readPlanned tree)).map ReadFile.docId).Sublist
          (docs.map fun doc => doc.1.docId) := by
    intro docs
    induction docs with
    | nil => exact .slnil
    | cons doc rest induction =>
        rw [List.map_cons, List.map_cons]
        cases planned : planFile exportDir index (seenOf doc) with
        | none =>
            rw [List.filterMap_cons_none planned]
            exact induction.cons _
        | some plan =>
            rw [List.filterMap_cons_some planned]
            cases isRead : readPlanned tree plan with
            | none =>
                rw [List.filterMap_cons_none isRead]
                exact induction.cons _
            | some read =>
                rw [List.filterMap_cons_some isRead, List.map_cons]
                have same : read.docId = doc.1.docId := by
                  obtain ⟨file, -, rfl⟩ := Option.map_eq_some_iff.mp isRead
                  rw [ReadFile.docId, planFile_seen planned]
                  rfl
                rw [same]
                exact induction.cons_cons _
  exact (read (exportedDocs tree)).nodup listed

/-- The texts after the sweep, before its removals. -/
def storedTexts (exportDir : String) (index : NativeIndex)
    (doc : DocPlace × SourceFile) : List String :=
  match index.files.read (doc.1.path exportDir) with
  | none => index.textsOf doc.1.docId ++ [doc.2.content]
  | some prior =>
      if prior.mtimeMs = doc.2.mtimeMs then index.textsOf doc.1.docId
      else [doc.2.content]

theorem textsOf_sweep (docId : String) :
    (index.sweep exportDir tree).textsOf docId =
      if docId ∈ (sweepDelta exportDir tree index).removedIds then []
      else ((index.insert (sweepDelta exportDir tree index).toInsert).index
        (sweepDelta exportDir tree index).toReplace).textsOf docId := by
  unfold NativeIndex.sweep
  dsimp only
  rw [textsOf_recordFiles, NativeIndex.textsOf_remove]

theorem textsOf_sweep_of_unexported {docId : String}
    (unexported : ∀ doc ∈ exportedDocs tree, doc.1.docId ≠ docId) :
    (index.sweep exportDir tree).textsOf docId =
      if docId ∈ (sweepDelta exportDir tree index).removedIds then []
      else index.textsOf docId := by
  have unread : ∀ read ∈ (sweepDelta exportDir tree index).reads,
      read.docId ≠ docId := by
    intro read member
    obtain ⟨doc, docMember, isPlanned, -⟩ := mem_sweep_reads.mp member
    rw [ReadFile.docId, planFile_seen isPlanned]
    exact unexported doc docMember
  rw [textsOf_sweep,
    textsOf_toReplace_of_unread fun read member _ => unread read member,
    textsOf_toInsert_of_unread fun read member _ => unread read member]

theorem textsOf_sweep_of_exported {doc : DocPlace × SourceFile}
    (member : doc ∈ exportedDocs tree) :
    (index.sweep exportDir tree).textsOf doc.1.docId =
      if doc.1.docId ∈ (sweepDelta exportDir tree index).removedIds then []
      else storedTexts exportDir index doc := by
  have distinct := nodup_sweep_reads exportDir tree index
  -- What the sweep read under this id is what it planned for this file.
  have planOf : ∀ read ∈ (sweepDelta exportDir tree index).reads,
      read.docId = doc.1.docId →
        planFile exportDir index (seenOf doc) = some read.planned := by
    intro read readMember same
    obtain ⟨other, otherMember, isPlanned, -⟩ :=
      mem_sweep_reads.mp readMember
    rw [ReadFile.docId, planFile_seen isPlanned] at same
    rwa [exportedDocs_unique otherMember member same] at isPlanned
  have readOf : ∀ planned,
      planFile exportDir index (seenOf doc) = some planned →
        ∃ read ∈ (sweepDelta exportDir tree index).reads,
          read.planned = planned ∧ read.content = doc.2.content ∧
            read.docId = doc.1.docId := by
    intro planned isPlanned
    refine ⟨⟨planned, doc.2.content⟩,
      mem_sweep_reads.mpr ⟨doc, member, isPlanned, rfl⟩, rfl, rfl, ?_⟩
    rw [ReadFile.docId, planFile_seen isPlanned, seenOf]
  rw [textsOf_sweep]
  congr 1
  unfold storedTexts
  cases found : index.files.read (doc.1.path exportDir) with
  | none =>
      have isPlanned : planFile exportDir index (seenOf doc) = some
          { seen := seenOf doc
            isNew := true } := by
        simp [planFile, seenOf, found]
      obtain ⟨read, readMember, isRead, content, same⟩ := readOf _ isPlanned
      rw [textsOf_toReplace_of_unread]
      · rw [← same, ← content]
        exact textsOf_toInsert_of_mem distinct readMember (by rw [isRead])
      · intro read readMember isOld same
        rw [← Option.some.inj (isPlanned.symm.trans
          (planOf read readMember same))] at isOld
        cases isOld
  | some prior =>
      dsimp only
      split_ifs with unchanged
      · have unplanned : planFile exportDir index (seenOf doc) = none := by
          simp [planFile, seenOf, found, unchanged]
        have unread : ∀ read ∈ (sweepDelta exportDir tree index).reads,
            read.docId ≠ doc.1.docId := by
          intro read readMember same
          rw [planOf read readMember same] at unplanned
          cases unplanned
        rw [textsOf_toReplace_of_unread fun read member _ =>
            unread read member,
          textsOf_toInsert_of_unread fun read member _ => unread read member]
      · have isPlanned : planFile exportDir index (seenOf doc) = some
            { seen := seenOf doc
              isNew := false } := by
          simp [planFile, seenOf, found, unchanged]
        obtain ⟨read, readMember, isRead, content, same⟩ :=
          readOf _ isPlanned
        rw [← same, ← content]
        exact textsOf_toReplace_of_mem distinct readMember (by rw [isRead])

end Texts

end Registrar
