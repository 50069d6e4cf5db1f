import Registrar.Index.SweepInvariant

/-!
# The transactions of a sweep

Each transaction keeps what the sweep knows about its documents, and leaves the
documents of compatible sweeps as those expect them.
-/

namespace Registrar

open SweepPhase

variable {tree : SourceTree} {index index' : NativeIndex}

/-- A step of a sweep, for the sweep itself and for those beside it. -/
structure Transacts (tree : SourceTree) (index index' : NativeIndex)
    (phase phase' : SweepPhase) : Prop where
  keyed : index'.WellKeyed
  formed : phase'.WellFormed
  framed : ∀ docId intent,
    (∀ mine, (docId, mine) ∈ phase.intents →
      mine = intent ∧ mine ≠ .insert) →
        Framed tree index index' docId intent
  tended : phase'.Tended tree index'
  consistent : ∀ docId,
    Consistent tree index docId ∨ phase.Disturbs docId →
      Consistent tree index' docId ∨ phase'.Disturbs docId

theorem SweepsSound.transact {manager manager' : NativeIndexManager}
    {others : List NativeIndexManager}
    (sound : SweepsSound tree index (manager :: others))
    (transacts : Transacts tree index index' manager.phase manager'.phase)
    (compatible : ∀ other ∈ others,
      CompatibleIntents manager'.phase.intents other.phase.intents) :
    SweepsSound tree index' (manager' :: others) where
  keyed := transacts.keyed
  formed := by
    intro other member
    rcases List.mem_cons.mp member with rfl | member
    · exact transacts.formed
    · exact sound.formed other (List.mem_cons_of_mem _ member)
  compatible := by
    obtain ⟨-, rest⟩ := List.pairwise_cons.mp sound.compatible
    exact List.pairwise_cons.mpr ⟨compatible, rest⟩
  tended := by
    intro other member
    rcases List.mem_cons.mp member with rfl | member
    · exact transacts.tended
    · have apart := (List.pairwise_cons.mp sound.compatible).1 other member
      refine (sound.tended other (List.mem_cons_of_mem _ member)).framed ?_
      intro docId intent otherMember
      apply transacts.framed
      intro mine mineMember
      exact apart.eq mineMember otherMember
  consistent := by
    intro docId
    have mine : Consistent tree index docId ∨
        manager.phase.Disturbs docId →
        Consistent tree index' docId ∨
          ∃ other ∈ manager' :: others, other.phase.Disturbs docId := by
      intro before
      refine (transacts.consistent docId before).imp_right fun disturbs => ?_
      exact ⟨_, List.mem_cons_self, disturbs⟩
    rcases sound.consistent docId with before | ⟨other, member, disturbs⟩
    · exact mine (.inl before)
    · rcases List.mem_cons.mp member with rfl | member
      · exact mine (.inr disturbs)
      · exact .inr ⟨other, List.mem_cons_of_mem _ member, disturbs⟩

theorem Consistent.congr {docId : String}
    (consistent : Consistent tree index docId)
    (records : ∀ mtimeMs,
      index'.Records docId mtimeMs ↔ index.Records docId mtimeMs)
    (texts : index'.textsOf docId = index.textsOf docId) :
    Consistent tree index' docId where
  unrecorded := by
    intro none
    rw [texts]
    exact consistent.unrecorded fun mtimeMs recorded =>
      none mtimeMs ((records mtimeMs).mpr recorded)
  upToDate := by
    intro doc member same recorded
    rw [texts]
    exact consistent.upToDate doc member same ((records _).mp recorded)

theorem records_congr (files : index'.files = index.files) {docId : String}
    {mtimeMs : Int} :
    index'.Records docId mtimeMs ↔ index.Records docId mtimeMs := by
  unfold NativeIndex.Records
  rw [files]

theorem fresh_congr (files : index'.files = index.files) {docId : String}
    {mtimeMs : Int} {content : String} :
    Fresh tree index' docId mtimeMs content ↔
      Fresh tree index docId mtimeMs content := by
  unfold Fresh
  simp only [records_congr files]

theorem filter_key_eq {Row Key : Type*} [DecidableEq Key] {key : Row → Key}
    {rows : List Row} (distinct : (rows.map key).Nodup) {row : Row}
    (member : row ∈ rows) :
    rows.filter (fun other => key other = key row) = [row] := by
  induction rows with
  | nil => cases member
  | cons first rest induction =>
      rw [List.map_cons, List.nodup_cons] at distinct
      rcases List.mem_cons.mp member with rfl | later
      · rw [List.filter_cons_of_pos (by simp), List.filter_eq_nil_iff.mpr]
        intro other otherMember
        simp only [decide_eq_true_eq]
        intro same
        exact distinct.1 (same ▸ List.mem_map_of_mem otherMember)
      · have different : key first ≠ key row := by
          intro same
          exact distinct.1 (same ▸ List.mem_map_of_mem later)
        rw [List.filter_cons_of_neg (by simpa using different),
          induction distinct.2 later]

namespace SweepDelta

variable {delta : SweepDelta}

theorem mem_toInsert_iff {doc : IndexedDoc} :
    doc ∈ delta.toInsert ↔
      ∃ read ∈ delta.reads, read.planned.isNew = true ∧ read.doc = doc := by
  simp [toInsert, and_assoc]

theorem mem_toReplace_iff {doc : IndexedDoc} :
    doc ∈ delta.toReplace ↔
      ∃ read ∈ delta.reads, read.planned.isNew = false ∧ read.doc = doc := by
  simp [toReplace, and_assoc]

theorem nodup_toInsert
    (distinct : (delta.reads.map ReadFile.docId).Nodup) :
    (delta.toInsert.map (·.id)).Nodup := by
  unfold toInsert
  rw [List.map_map]
  exact (List.filter_sublist.map ReadFile.docId).nodup distinct

theorem nodup_toReplace
    (distinct : (delta.reads.map ReadFile.docId).Nodup) :
    (delta.toReplace.map (·.id)).Nodup := by
  unfold toReplace
  rw [List.map_map]
  exact (List.filter_sublist.map ReadFile.docId).nodup distinct

theorem eq_of_docId (distinct : (delta.reads.map ReadFile.docId).Nodup)
    {left right : ReadFile} (leftMember : left ∈ delta.reads)
    (rightMember : right ∈ delta.reads) (same : left.docId = right.docId) :
    left = right :=
  List.inj_on_of_nodup_map distinct leftMember rightMember same

end SweepDelta

namespace SweepPhase

theorem WellFormed.distinctReads {phase : SweepPhase}
    (formed : phase.WellFormed) :
    (phase.delta.reads.map ReadFile.docId).Nodup := by
  have distinct := formed.distinct
  unfold puts at distinct
  rw [List.map_append, List.map_map] at distinct
  exact (List.nodup_append.mp distinct).1

theorem WellFormed.of_fewer {phase phase' : SweepPhase}
    (formed : phase.WellFormed) (listing : phase'.Listing)
    (puts : phase'.puts.Sublist phase.puts)
    (removes : phase'.delta.toRemove = phase.delta.toRemove) :
    phase'.WellFormed where
  listing := listing
  exported := fun planned member =>
    formed.exported planned (puts.subset member)
  distinct := (puts.map _).nodup formed.distinct
  named := by
    rw [removes]
    exact formed.named
  apart := by
    rw [removes]
    exact fun planned member =>
      formed.apart planned (puts.subset member)

theorem mem_insert_of_read {phase : SweepPhase} {read : ReadFile}
    (member : read ∈ phase.delta.reads)
    (isNew : read.planned.isNew = true) :
    (read.docId, Intent.insert) ∈ phase.intents :=
  mem_insert_iff.mpr ⟨read.planned,
    List.mem_append_left _ (List.mem_map_of_mem member), rfl, isNew⟩

theorem mem_replace_of_read {phase : SweepPhase} {read : ReadFile}
    (member : read ∈ phase.delta.reads)
    (isOld : read.planned.isNew = false) :
    (read.docId, Intent.replace read.mtimeMs) ∈ phase.intents :=
  mem_replace_iff.mpr ⟨read.planned,
    List.mem_append_left _ (List.mem_map_of_mem member), rfl, isOld, rfl⟩

theorem exists_read_of_insert {phase : SweepPhase} {docId : String}
    (done : phase.pending = [])
    (member : (docId, Intent.insert) ∈ phase.intents) :
    ∃ read ∈ phase.delta.reads,
      read.planned.isNew = true ∧ read.docId = docId := by
  obtain ⟨planned, put, same, isNew⟩ := mem_insert_iff.mp member
  rw [puts, done, List.append_nil] at put
  obtain ⟨read, readMember, rfl⟩ := List.mem_map.mp put
  exact ⟨read, readMember, isNew, same⟩

theorem exists_read_of_replace {phase : SweepPhase} {docId : String}
    {mtimeMs : Int} (done : phase.pending = [])
    (member : (docId, Intent.replace mtimeMs) ∈ phase.intents) :
    ∃ read ∈ phase.delta.reads, read.planned.isNew = false ∧
      read.docId = docId ∧ read.mtimeMs = mtimeMs := by
  obtain ⟨planned, put, same, isOld, time⟩ := mem_replace_iff.mp member
  rw [puts, done, List.append_nil] at put
  obtain ⟨read, readMember, rfl⟩ := List.mem_map.mp put
  exact ⟨read, readMember, isOld, same, time⟩

/-- A sweep does one thing with a document. -/
theorem WellFormed.intent_eq {phase : SweepPhase}
    (formed : phase.WellFormed) {docId : String} {left right : Intent}
    (leftMember : (docId, left) ∈ phase.intents)
    (rightMember : (docId, right) ∈ phase.intents) : left = right := by
  rcases mem_intents_iff.mp leftMember with ⟨put, putMember, isLeft⟩ |
    ⟨removed, removedMember, sameLeft, rfl⟩ <;>
  rcases mem_intents_iff.mp rightMember with ⟨put', putMember', isRight⟩ |
    ⟨removed', removedMember', sameRight, rfl⟩
  · have same : put.seen.place.docId = put'.seen.place.docId := by
      rw [PlannedFile.intent, Prod.mk.injEq] at isLeft isRight
      rw [isLeft.1, isRight.1]
    have equal : put = put' :=
      List.inj_on_of_nodup_map formed.distinct putMember putMember' same
    rw [equal, isRight, Prod.mk.injEq] at isLeft
    exact isLeft.2.symm
  · rw [PlannedFile.intent, Prod.mk.injEq] at isLeft
    exact absurd (isLeft.1.trans sameRight.symm)
      (formed.apart put putMember removed' removedMember')
  · rw [PlannedFile.intent, Prod.mk.injEq] at isRight
    exact absurd (isRight.1.trans sameLeft.symm)
      (formed.apart put' putMember' removed removedMember)
  · rfl

end SweepPhase

theorem textsOf_toInsert_of_mem {delta : SweepDelta}
    (distinct : (delta.reads.map ReadFile.docId).Nodup) {read : ReadFile}
    (member : read ∈ delta.reads) (isNew : read.planned.isNew = true) :
    (index.insert delta.toInsert).textsOf read.docId =
      index.textsOf read.docId ++ [read.content] := by
  have doc : read.doc ∈ delta.toInsert :=
    SweepDelta.mem_toInsert_iff.mpr ⟨read, member, isNew, rfl⟩
  have only : delta.toInsert.filter (fun doc => doc.id = read.docId) =
      [read.doc] :=
    filter_key_eq (SweepDelta.nodup_toInsert distinct) doc
  rw [NativeIndex.textsOf_insert, only]
  rfl

theorem textsOf_toInsert_of_unread {delta : SweepDelta} {docId : String}
    (unread : ∀ read ∈ delta.reads, read.planned.isNew = true →
      read.docId ≠ docId) :
    (index.insert delta.toInsert).textsOf docId = index.textsOf docId := by
  rw [NativeIndex.textsOf_insert]
  have none : delta.toInsert.filter (fun doc => doc.id = docId) = [] := by
    rw [List.filter_eq_nil_iff]
    intro doc member
    obtain ⟨read, readMember, isNew, rfl⟩ :=
      SweepDelta.mem_toInsert_iff.mp member
    rw [decide_eq_true_eq]
    exact unread read readMember isNew
  rw [none, List.map_nil, List.append_nil]

theorem textsOf_toInsert_of_notMem {phase : SweepPhase} {docId : String}
    (absent : (docId, Intent.insert) ∉ phase.intents) :
    (index.insert phase.delta.toInsert).textsOf docId =
      index.textsOf docId := by
  apply textsOf_toInsert_of_unread
  rintro read member isNew rfl
  exact absent (mem_insert_of_read member isNew)

theorem transacts_insert {delta : SweepDelta}
    (keyed : index.WellKeyed) (formed : (inserting delta).WellFormed)
    (tended : (inserting delta).Tended tree index) :
    Transacts tree index (index.insert delta.toInsert) (.inserting delta)
      (.replacing delta) := by
  have files := NativeIndex.files_insert index delta.toInsert
  have untouched : ∀ docId, (docId, .insert) ∉ (inserting delta).intents →
      (index.insert delta.toInsert).textsOf docId = index.textsOf docId :=
    fun docId absent => textsOf_toInsert_of_notMem absent
  refine
    { keyed := ?_
      formed := formed.of_fewer (by rintro _ _ _ ⟨⟩) (.refl _) rfl
      framed := ?_
      tended := ?_
      consistent := ?_ }
  · unfold NativeIndex.WellKeyed
    rw [files]
    exact keyed
  · intro docId intent agreed
    apply framed_of_same
    · rw [files]
      exact fun _ _ => Iff.rfl
    · exact untouched docId fun member => (agreed _ member).2 rfl
  · exact
      { fresh := fun read member =>
          (fresh_congr files).mpr (tended.fresh read member)
        unrecorded := fun docId member mtimeMs recorded =>
          tended.unrecorded docId member mtimeMs
            ((records_congr files).mp recorded)
        absent := fun early => absurd early (by simp [hasInserted])
        inserted := by
          intro _ read member isNew
          rw [show (index.insert delta.toInsert).textsOf read.docId = _ from
              textsOf_toInsert_of_mem formed.distinctReads member isNew,
            tended.absent rfl _ (mem_insert_of_read member isNew),
            List.nil_append]
        recorded := by
          intro docId mtimeMs member
          simp only [records_congr files]
          exact tended.recorded docId mtimeMs member
        replaced := fun late => absurd late (by simp [hasReplaced])
        covered := by
          rw [files]
          exact tended.covered
        emptied := fun late => absurd late (by simp [hasRemoved]) }
  · intro docId before
    rcases before with consistent | ⟨late, -⟩ | ⟨late, -⟩
    · by_cases member : (docId, Intent.insert) ∈ (inserting delta).intents
      · exact .inr (.inl ⟨rfl, member⟩)
      · exact .inl (consistent.congr (fun _ => records_congr files)
          (untouched docId member))
    · cases late
    · cases late

theorem textsOf_toReplace_of_unread {delta : SweepDelta} {docId : String}
    (unread : ∀ read ∈ delta.reads, read.planned.isNew = false →
      read.docId ≠ docId) :
    (index.index delta.toReplace).textsOf docId = index.textsOf docId := by
  apply NativeIndex.textsOf_index_of_notMem
  intro member
  obtain ⟨doc, docMember, same⟩ := List.mem_map.mp member
  obtain ⟨read, readMember, isOld, rfl⟩ :=
    SweepDelta.mem_toReplace_iff.mp docMember
  exact unread read readMember isOld same

theorem textsOf_toReplace_of_notMem {phase : SweepPhase} {docId : String}
    (absent : ∀ mtimeMs, (docId, Intent.replace mtimeMs) ∉ phase.intents) :
    (index.index phase.delta.toReplace).textsOf docId =
      index.textsOf docId := by
  apply textsOf_toReplace_of_unread
  rintro read member isOld rfl
  exact absent read.mtimeMs (mem_replace_of_read member isOld)

theorem textsOf_toReplace_of_mem {delta : SweepDelta}
    (distinct : (delta.reads.map ReadFile.docId).Nodup) {read : ReadFile}
    (member : read ∈ delta.reads) (isOld : read.planned.isNew = false) :
    (index.index delta.toReplace).textsOf read.docId = [read.content] :=
  NativeIndex.textsOf_index_of_mem index
    (SweepDelta.nodup_toReplace distinct)
    (SweepDelta.mem_toReplace_iff.mpr ⟨read, member, isOld, rfl⟩)

theorem transacts_replace {delta : SweepDelta}
    (keyed : index.WellKeyed) (formed : (replacing delta).WellFormed)
    (tended : (replacing delta).Tended tree index) :
    Transacts tree index (index.index delta.toReplace) (.replacing delta)
      (.removing delta) := by
  have files := NativeIndex.files_index index delta.toReplace
  have untouched : ∀ docId,
      (∀ mtimeMs, (docId, .replace mtimeMs) ∉ (replacing delta).intents) →
      (index.index delta.toReplace).textsOf docId = index.textsOf docId :=
    fun docId absent => textsOf_toReplace_of_notMem absent
  have written : ∀ docId mtimeMs,
      (docId, .replace mtimeMs) ∈ (replacing delta).intents →
      ∃ content, (index.index delta.toReplace).textsOf docId = [content] ∧
        Fresh tree index docId mtimeMs content := by
    intro docId mtimeMs member
    obtain ⟨read, readMember, isOld, rfl, rfl⟩ :=
      exists_read_of_replace rfl member
    exact ⟨read.content,
      textsOf_toReplace_of_mem formed.distinctReads readMember isOld,
      tended.fresh read readMember⟩
  refine
    { keyed := ?_
      formed := formed.of_fewer (by rintro _ _ _ ⟨⟩) (.refl _) rfl
      framed := ?_
      tended := ?_
      consistent := ?_ }
  · unfold NativeIndex.WellKeyed
    rw [files]
    exact keyed
  · intro docId intent agreed
    by_cases member : ∃ mtimeMs,
        (docId, .replace mtimeMs) ∈ (replacing delta).intents
    · obtain ⟨mtimeMs, member⟩ := member
      obtain ⟨rfl, -⟩ := agreed _ member
      obtain ⟨content, text, fresh⟩ := written docId mtimeMs member
      refine
        { records := fun other recorded =>
            .inl ((records_congr files).mp recorded)
          kept := by simp only [records_congr files, imp_self, implies_true]
          rows := by rintro ⟨⟩
          texts := .inr (.inl ⟨mtimeMs, content, rfl, text, ?_⟩) }
      exact (fresh_congr files).mpr fresh
    · apply framed_of_same
      · rw [files]
        exact fun _ _ => Iff.rfl
      · exact untouched docId fun mtimeMs put => member ⟨mtimeMs, put⟩
  · exact
      { fresh := fun read member =>
          (fresh_congr files).mpr (tended.fresh read member)
        unrecorded := fun docId member mtimeMs recorded =>
          tended.unrecorded docId member mtimeMs
            ((records_congr files).mp recorded)
        absent := fun early => absurd early (by simp [hasInserted])
        inserted := by
          intro _ read member isNew
          have intent : (read.docId, Intent.insert) ∈
              (replacing delta).intents := mem_insert_of_read member isNew
          rw [untouched]
          · exact tended.inserted rfl read member isNew
          · intro mtimeMs put
            cases formed.intent_eq intent put
        recorded := by
          intro docId mtimeMs member
          simp only [records_congr files]
          exact tended.recorded docId mtimeMs member
        replaced := by
          intro _ docId mtimeMs member
          obtain ⟨content, text, fresh⟩ := written docId mtimeMs member
          exact ⟨content, text, (fresh_congr files).mpr fresh⟩
        covered := by
          rw [files]
          exact tended.covered
        emptied := fun late => absurd late (by simp [hasRemoved]) }
  · intro docId before
    rcases before with consistent | ⟨_, member⟩ | ⟨late, -⟩
    · left
      by_cases put : ∃ mtimeMs,
          (docId, .replace mtimeMs) ∈ (replacing delta).intents
      · obtain ⟨mtimeMs, put⟩ := put
        obtain ⟨content, text, fresh⟩ := written docId mtimeMs put
        refine
          { unrecorded := ?_
            upToDate := ?_ }
        · intro none
          obtain ⟨recorded, known⟩ := tended.recorded docId mtimeMs put
          exact absurd ((records_congr files).mpr known) (none recorded)
        · intro doc docMember same recorded
          rw [text, fresh doc docMember same
            (.inr ((records_congr files).mp recorded))]
      · exact consistent.congr (fun _ => records_congr files)
          (untouched docId fun mtimeMs member => put ⟨mtimeMs, member⟩)
    · exact .inr (.inl ⟨rfl, member⟩)
    · cases late

theorem transacts_remove {delta : SweepDelta}
    (keyed : index.WellKeyed) (formed : (removing delta).WellFormed)
    (tended : (removing delta).Tended tree index) :
    Transacts tree index (index.remove delta.removedIds) (.removing delta)
      (.recording delta) := by
  have files := NativeIndex.files_remove index delta.removedIds
  have emptied : ∀ docId, (docId, .remove) ∈ (removing delta).intents →
      (index.remove delta.removedIds).textsOf docId = [] := by
    intro docId member
    have removed : docId ∈ delta.removedIds := mem_remove_iff.mp member
    rw [NativeIndex.textsOf_remove, if_pos removed]
  have untouched : ∀ docId, (docId, .remove) ∉ (removing delta).intents →
      (index.remove delta.removedIds).textsOf docId =
        index.textsOf docId := by
    intro docId absent
    have kept : docId ∉ delta.removedIds :=
      fun member => absent (mem_remove_iff.mpr member)
    rw [NativeIndex.textsOf_remove, if_neg kept]
  have apart : ∀ docId intent, (docId, intent) ∈ (removing delta).intents →
      intent ≠ .remove → (docId, .remove) ∉ (removing delta).intents :=
    fun docId intent member different removed =>
      different (formed.intent_eq member removed)
  refine
    { keyed := ?_
      formed := formed.of_fewer (by rintro _ _ _ ⟨⟩) (.refl _) rfl
      framed := ?_
      tended := ?_
      consistent := ?_ }
  · unfold NativeIndex.WellKeyed
    rw [files]
    exact keyed
  · intro docId intent agreed
    by_cases member : (docId, .remove) ∈ (removing delta).intents
    · obtain ⟨rfl, -⟩ := agreed _ member
      exact
        { records := fun other recorded =>
            .inl ((records_congr files).mp recorded)
          kept := by simp only [records_congr files, imp_self, implies_true]
          rows := by
            rw [files]
            exact fun _ _ fileMember _ => fileMember
          texts := .inr (.inr ⟨rfl, emptied docId member⟩) }
    · apply framed_of_same
      · rw [files]
        exact fun _ _ => Iff.rfl
      · exact untouched docId member
  · exact
      { fresh := fun read member =>
          (fresh_congr files).mpr (tended.fresh read member)
        unrecorded := fun docId member mtimeMs recorded =>
          tended.unrecorded docId member mtimeMs
            ((records_congr files).mp recorded)
        absent := fun early => absurd early (by simp [hasInserted])
        inserted := by
          intro _ read member isNew
          rw [untouched read.docId (apart read.docId .insert
            (mem_insert_of_read member isNew) (by decide))]
          exact tended.inserted rfl read member isNew
        recorded := by
          intro docId mtimeMs member
          simp only [records_congr files]
          exact tended.recorded docId mtimeMs member
        replaced := by
          intro _ docId mtimeMs member
          rw [untouched docId (apart docId _ member (by rintro ⟨⟩))]
          obtain ⟨content, text, fresh⟩ :=
            tended.replaced rfl docId mtimeMs member
          exact ⟨content, text, (fresh_congr files).mpr fresh⟩
        covered := by
          rw [files]
          exact tended.covered
        emptied := fun _ => emptied }
  · intro docId before
    by_cases removed : (docId, .remove) ∈ (removing delta).intents
    · exact .inr (.inr ⟨rfl, removed⟩)
    · rcases before with consistent | ⟨_, member⟩ | ⟨late, -⟩
      · exact .inl (consistent.congr (fun _ => records_congr files)
          (untouched docId removed))
      · exact .inr (.inl ⟨rfl, member⟩)
      · cases late

def ReadFile.path (exportDir : String) (read : ReadFile) : String :=
  read.planned.seen.place.path exportDir

def ReadFile.record (read : ReadFile) : FileRecord where
  docId := read.docId
  mtimeMs := read.mtimeMs

theorem textsOf_recordFiles {exportDir docId : String} {delta : SweepDelta} :
    (recordFiles exportDir index delta).textsOf docId =
      index.textsOf docId := by
  have removes : ∀ (removes : List RemovedFile) (index : NativeIndex),
      (removes.foldl (fun index removed => index.deleteFile removed.path)
        index).textsOf docId = index.textsOf docId := by
    intro removes
    induction removes with
    | nil => exact fun _ => rfl
    | cons removed rest induction =>
        exact fun index => induction (index.deleteFile removed.path)
  have writes : ∀ (reads : List ReadFile) (index : NativeIndex),
      (reads.foldl (fun index read =>
        index.upsertFile (read.planned.seen.place.path exportDir)
          { docId := read.docId
            mtimeMs := read.mtimeMs }) index).textsOf docId =
        index.textsOf docId := by
    intro reads
    induction reads with
    | nil => exact fun _ => rfl
    | cons read rest induction => exact fun index => induction _
  unfold recordFiles
  rw [removes, writes]

/-- The upserts of a sweep leave its record under a path. -/
theorem read_upserts {exportDir path : String} {reads : List ReadFile}
    {found : Option FileRecord}
    (agreed : ∀ read ∈ reads, read.path exportDir = path →
      found = some read.record)
    (known : index.files.read path = found ∨
      ∃ read ∈ reads, read.path exportDir = path) :
    (reads.foldl (fun index read =>
      index.upsertFile (read.planned.seen.place.path exportDir)
        { docId := read.docId
          mtimeMs := read.mtimeMs }) index).files.read path = found := by
  induction reads generalizing index with
  | nil =>
      rcases known with before | ⟨read, member, -⟩
      · exact before
      · cases member
  | cons first rest induction =>
      apply induction
      · exact fun read member => agreed read (List.mem_cons_of_mem _ member)
      · rcases eq_or_ne (first.path exportDir) path with same | different
        · left
          rw [agreed first List.mem_cons_self same, ← same]
          exact FileTree.read_write_self _ _ _
        · rcases known with before | ⟨read, member, here⟩
          · left
            rw [← before]
            exact FileTree.read_write_of_ne _ _ different.symm
          · rcases List.mem_cons.mp member with rfl | later
            · exact absurd here different
            · exact .inr ⟨read, later, here⟩

theorem read_deleteFiles (removes : List RemovedFile) (path : String) :
    (removes.foldl (fun index removed => index.deleteFile removed.path)
      index).files.read path =
      if path ∈ removes.map (·.path) then none
      else index.files.read path := by
  induction removes generalizing index with
  | nil => simp
  | cons first rest induction =>
      rw [List.foldl_cons, induction]
      have unlinked : (index.deleteFile first.path).files.read path = _ :=
        FileTree.read_unlink index.files first.path path
      rw [unlinked]
      by_cases here : path = first.path <;>
        by_cases later : path ∈ rest.map (·.path) <;>
          simp [here, later]

theorem read_recordFiles {exportDir path : String} {delta : SweepDelta}
    {found : Option FileRecord}
    (kept : path ∉ delta.toRemove.map (·.path))
    (agreed : ∀ read ∈ delta.reads, read.path exportDir = path →
      found = some read.record)
    (known : index.files.read path = found ∨
      ∃ read ∈ delta.reads, read.path exportDir = path) :
    (recordFiles exportDir index delta).files.read path = found := by
  unfold recordFiles
  rw [read_deleteFiles, if_neg kept]
  exact read_upserts agreed known

theorem read_recordFiles_of_removed {exportDir path : String}
    {delta : SweepDelta} (removed : path ∈ delta.toRemove.map (·.path)) :
    (recordFiles exportDir index delta).files.read path = none := by
  unfold recordFiles
  rw [read_deleteFiles, if_pos removed]

section Record

variable {exportDir : String} {delta : SweepDelta}

theorem SweepPhase.WellFormed.names_read {phase : SweepPhase}
    (formed : phase.WellFormed) {read : ReadFile}
    (member : read ∈ phase.delta.reads) :
    Names (read.path exportDir) read.docId :=
  names_path (formed.exported read.planned
    (List.mem_append_left _ (List.mem_map_of_mem member))) exportDir

theorem eq_of_read_path (formed : (recording delta).WellFormed)
    {left right : ReadFile} (leftMember : left ∈ delta.reads)
    (rightMember : right ∈ delta.reads)
    (same : left.path exportDir = right.path exportDir) : left = right := by
  have leftNames : Names (left.path exportDir) left.docId :=
    formed.names_read leftMember
  have rightNames : Names (right.path exportDir) right.docId :=
    formed.names_read rightMember
  rw [same] at leftNames
  exact SweepDelta.eq_of_docId formed.distinctReads leftMember rightMember
    (leftNames.docId_eq rightNames)

theorem read_path_notMem (formed : (recording delta).WellFormed)
    {read : ReadFile} (member : read ∈ delta.reads) :
    read.path exportDir ∉ delta.toRemove.map (·.path) := by
  intro removedPath
  obtain ⟨removed, removedMember, same⟩ := List.mem_map.mp removedPath
  have names : Names (read.path exportDir) removed.docId :=
    same ▸ formed.named removed removedMember
  have put : read.planned ∈ (recording delta).puts :=
    List.mem_append_left _ (List.mem_map_of_mem member)
  have readNames : Names (read.path exportDir) read.docId :=
    formed.names_read member
  exact formed.apart _ put removed removedMember (readNames.docId_eq names)

/-- A row after the sweep's record is one it wrote or an earlier one. -/
theorem mem_recordFiles (formed : (recording delta).WellFormed)
    {file : String × FileRecord}
    (member : file ∈ (recordFiles exportDir index delta).files.rows) :
    (∃ read ∈ delta.reads, file = (read.path exportDir, read.record)) ∨
      file ∈ index.files.rows ∧
        file.1 ∉ delta.toRemove.map (·.path) := by
  have found : (recordFiles exportDir index delta).files.read file.1 =
      some file.2 := FileTree.read_eq_some_iff.mpr member
  by_cases removed : file.1 ∈ delta.toRemove.map (·.path)
  · rw [read_recordFiles_of_removed removed] at found
    cases found
  by_cases written : ∃ read ∈ delta.reads, read.path exportDir = file.1
  · obtain ⟨read, readMember, here⟩ := written
    have recorded : (recordFiles exportDir index delta).files.read file.1 =
        some read.record := by
      refine read_recordFiles removed ?_ (.inr ⟨read, readMember, here⟩)
      intro other otherMember otherHere
      rw [eq_of_read_path formed otherMember readMember
        (otherHere.trans here.symm)]
    rw [recorded] at found
    exact .inl ⟨read, readMember,
      Prod.ext here.symm (Option.some.inj found).symm⟩
  · have unchanged : (recordFiles exportDir index delta).files.read file.1 =
        index.files.read file.1 := by
      refine read_recordFiles removed ?_ (.inl rfl)
      exact fun read readMember here =>
        absurd ⟨read, readMember, here⟩ written
    rw [unchanged] at found
    exact .inr ⟨FileTree.read_eq_some_iff.mp found, removed⟩

theorem recorded_of_read (formed : (recording delta).WellFormed)
    {read : ReadFile} (member : read ∈ delta.reads) :
    (read.path exportDir, read.record) ∈
      (recordFiles exportDir index delta).files.rows := by
  apply FileTree.read_eq_some_iff.mp
  refine read_recordFiles (read_path_notMem formed member) ?_
    (.inr ⟨read, member, rfl⟩)
  intro other otherMember here
  rw [eq_of_read_path formed otherMember member here]

/-- The rows of a document that the sweep does not write stay. -/
theorem mem_recordFiles_of_other (keyed : index.WellKeyed)
    (formed : (recording delta).WellFormed) {file : String × FileRecord}
    (other : ∀ intent,
      (file.2.docId, intent) ∉ (recording delta).intents) :
    file ∈ (recordFiles exportDir index delta).files.rows ↔
      file ∈ index.files.rows := by
  constructor
  · intro member
    rcases mem_recordFiles formed member with ⟨read, readMember, rfl⟩ |
      ⟨before, -⟩
    · have put : read.planned ∈ (recording delta).puts :=
        List.mem_append_left _ (List.mem_map_of_mem readMember)
      exact absurd (mem_intents_iff.mpr (.inl ⟨_, put, rfl⟩)) (other _)
    · exact before
  · intro member
    have names := keyed file member
    apply FileTree.read_eq_some_iff.mp
    refine read_recordFiles ?_ ?_
      (.inl (FileTree.read_eq_some_iff.mpr member))
    · intro removedPath
      obtain ⟨removed, removedMember, same⟩ := List.mem_map.mp removedPath
      have removedNames : Names file.1 removed.docId :=
        same ▸ formed.named removed removedMember
      refine other .remove (mem_intents_iff.mpr (.inr
        ⟨removed, removedMember, ?_, rfl⟩))
      exact removedNames.docId_eq names
    · intro read readMember here
      have readNames : Names file.1 read.docId :=
        here ▸ formed.names_read readMember
      have put : read.planned ∈ (recording delta).puts :=
        List.mem_append_left _ (List.mem_map_of_mem readMember)
      refine absurd (mem_intents_iff.mpr (.inl ⟨_, put, ?_⟩))
        (other read.planned.intent.2)
      exact Prod.ext (readNames.docId_eq names) rfl

theorem records_of_read (formed : (recording delta).WellFormed)
    {read : ReadFile} (member : read ∈ delta.reads) {mtimeMs : Int}
    (recorded : (recordFiles exportDir index delta).Records read.docId
      mtimeMs) :
    mtimeMs = read.mtimeMs ∨ index.Records read.docId mtimeMs := by
  obtain ⟨file, fileMember, same, time⟩ := recorded
  rcases mem_recordFiles formed fileMember with ⟨other, otherMember, rfl⟩ |
    ⟨before, -⟩
  · left
    have equal := SweepDelta.eq_of_docId formed.distinctReads otherMember
      member same
    rw [← time, equal]
    rfl
  · exact .inr ⟨file, before, same, time⟩

theorem not_records_of_removed
    (formed : (recording delta).WellFormed)
    (tended : (recording delta).Tended tree index) {docId : String}
    (removed : (docId, Intent.remove) ∈ (recording delta).intents)
    {file : String × FileRecord}
    (member : file ∈ (recordFiles exportDir index delta).files.rows) :
    file.2.docId ≠ docId := by
  rintro rfl
  rcases mem_recordFiles formed member with ⟨read, readMember, rfl⟩ |
    ⟨before, kept⟩
  · have put : read.planned ∈ (recording delta).puts :=
      List.mem_append_left _ (List.mem_map_of_mem readMember)
    have intent : (read.docId, read.planned.intent.2) ∈
        (recording delta).intents := mem_intents_iff.mpr (.inl ⟨_, put, rfl⟩)
    exact intent_ne_remove
      (Prod.ext rfl (formed.intent_eq intent removed) :
        read.planned.intent = (read.docId, Intent.remove))
  · obtain ⟨other, otherMember, same⟩ :=
      tended.covered _ removed file before rfl
    exact kept (List.mem_map.mpr ⟨other, otherMember, same⟩)

/-- What the sweep stored is consistent with its record. -/
theorem consistent_of_read (formed : (recording delta).WellFormed)
    (tended : (recording delta).Tended tree index) {read : ReadFile}
    (member : read ∈ delta.reads) :
    Consistent tree (recordFiles exportDir index delta) read.docId := by
  have stored : ∃ content, index.textsOf read.docId = [content] ∧
      Fresh tree index read.docId read.mtimeMs content := by
    cases isNew : read.planned.isNew with
    | true =>
        exact ⟨read.content, tended.inserted rfl read member isNew,
          tended.fresh read member⟩
    | false =>
        have intent : (read.docId, Intent.replace read.mtimeMs) ∈
            (recording delta).intents := mem_replace_of_read member isNew
        exact tended.replaced rfl read.docId read.mtimeMs intent
  obtain ⟨content, text, fresh⟩ := stored
  refine
    { unrecorded := ?_
      upToDate := ?_ }
  · intro none
    exact absurd ⟨_, recorded_of_read formed member, rfl, rfl⟩
      (none read.mtimeMs)
  · intro doc docMember same recorded
    rw [textsOf_recordFiles, text]
    rw [fresh doc docMember same (records_of_read formed member recorded)]

theorem transacts_record
    (keyed : index.WellKeyed) (formed : (recording delta).WellFormed)
    (tended : (recording delta).Tended tree index) :
    Transacts tree index (recordFiles exportDir index delta)
      (.recording delta) .idle := by
  have written : ∀ docId intent,
      (docId, intent) ∈ (recording delta).intents → intent ≠ .remove →
        ∃ read ∈ delta.reads, read.docId = docId := by
    intro docId intent member different
    cases intent with
    | insert =>
        obtain ⟨read, readMember, -, same⟩ :=
          exists_read_of_insert rfl member
        exact ⟨read, readMember, same⟩
    | replace mtimeMs =>
        obtain ⟨read, readMember, -, same, -⟩ :=
          exists_read_of_replace rfl member
        exact ⟨read, readMember, same⟩
    | remove => exact absurd rfl different
  refine
    { keyed := ?_
      formed := ?_
      framed := ?_
      tended := ?_
      consistent := ?_ }
  · intro file member
    rcases mem_recordFiles formed member with ⟨read, readMember, rfl⟩ |
      ⟨before, -⟩
    · exact (formed.names_read readMember :
        Names (read.path exportDir) read.docId)
    · exact keyed file before
  · exact
      { listing := by rintro _ _ _ ⟨⟩
        exported := fun _ member => absurd member List.not_mem_nil
        distinct := List.nodup_nil
        named := fun _ member => absurd member List.not_mem_nil
        apart := fun _ member => absurd member List.not_mem_nil }
  · intro docId intent agreed
    by_cases touched : ∃ mine, (docId, mine) ∈ (recording delta).intents
    · obtain ⟨mine, member⟩ := touched
      obtain ⟨rfl, notInsert⟩ := agreed mine member
      cases mine with
      | insert => exact absurd rfl notInsert
      | replace mtimeMs =>
          obtain ⟨read, readMember, -, rfl, rfl⟩ :=
            exists_read_of_replace rfl member
          exact
            { records := fun other recorded =>
                (records_of_read formed readMember recorded).symm.imp_right
                  fun same => by rw [same]
              kept := fun _ _ => ⟨read.mtimeMs, _,
                recorded_of_read formed readMember, rfl, rfl⟩
              rows := by rintro ⟨⟩
              texts := .inl textsOf_recordFiles }
      | remove =>
          exact
            { records := fun other ⟨file, fileMember, same, _⟩ =>
                absurd same
                  (not_records_of_removed formed tended member fileMember)
              kept := fun ⟨_, no⟩ => nomatch no
              rows := fun _ file fileMember same => absurd same
                (not_records_of_removed formed tended member fileMember)
              texts := .inl textsOf_recordFiles }
    · refine framed_of_same (fun file same => ?_) textsOf_recordFiles
      exact mem_recordFiles_of_other keyed formed fun mine member =>
        touched ⟨mine, same ▸ member⟩
  · exact
      { fresh := fun _ member => absurd member List.not_mem_nil
        unrecorded := fun _ member => absurd member List.not_mem_nil
        absent := fun _ _ member => absurd member List.not_mem_nil
        inserted := fun _ _ member => absurd member List.not_mem_nil
        recorded := fun _ _ member => absurd member List.not_mem_nil
        replaced := fun _ _ _ member => absurd member List.not_mem_nil
        covered := fun _ member => absurd member List.not_mem_nil
        emptied := fun _ _ member => absurd member List.not_mem_nil }
  · intro docId before
    left
    by_cases removed : (docId, .remove) ∈ (recording delta).intents
    · have none : ∀ mtimeMs,
          ¬(recordFiles exportDir index delta).Records docId mtimeMs := by
        rintro mtimeMs ⟨file, member, same, -⟩
        exact not_records_of_removed formed tended removed member same
      exact
        { unrecorded := fun _ =>
            textsOf_recordFiles.trans (tended.emptied rfl docId removed)
          upToDate := fun _ _ _ recorded => absurd recorded (none _) }
    by_cases touched : ∃ mine, (docId, mine) ∈ (recording delta).intents
    · obtain ⟨mine, member⟩ := touched
      have different : mine ≠ .remove := by
        rintro rfl
        exact removed member
      obtain ⟨read, readMember, rfl⟩ := written docId mine member different
      exact consistent_of_read formed tended readMember
    · rcases before with consistent | ⟨_, member⟩ | ⟨_, member⟩
      · refine consistent.congr (fun mtimeMs => ?_) textsOf_recordFiles
        refine exists_congr fun file => and_congr_left fun ⟨same, _⟩ => ?_
        exact mem_recordFiles_of_other keyed formed fun mine member =>
          touched ⟨mine, same ▸ member⟩
      · exact absurd ⟨_, member⟩ touched
      · exact absurd member removed

end Record

end Registrar
