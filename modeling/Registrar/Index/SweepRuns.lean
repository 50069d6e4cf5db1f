import Mathlib.Data.List.Perm.Basic
import Registrar.Index.SweepTransactions

/-!
# Safe runs of sweeps

The invariant of the sweeps holds in every state of a safe run.  Where no sweep
is under way, every document is then consistent.
-/

namespace Registrar

open Transition SweepPhase

variable {tree : SourceTree} {index : NativeIndex}

theorem SweepPhase.WellFormed.of_listing {phase : SweepPhase}
    (listing : phase.Listing) (noReads : phase.delta.reads = [])
    (noPending : phase.pending = []) (noRemoves : phase.delta.toRemove = []) :
    phase.WellFormed where
  listing := listing
  exported := by simp [puts, noReads, noPending]
  distinct := by simp [puts, noReads, noPending]
  named := by simp [noRemoves]
  apart := by simp [noRemoves]

theorem SweepPhase.Tended.of_no_intents {phase : SweepPhase}
    (noReads : phase.delta.reads = []) (none : phase.intents = []) :
    phase.Tended tree index where
  fresh := by simp [noReads]
  unrecorded := by simp [none]
  absent := by simp [none]
  inserted := by simp [noReads]
  recorded := by simp [none]
  replaced := by simp [none]
  covered := by simp [none]
  emptied := by simp [none]

theorem framed_refl {docId : String} {intent : Intent} :
    Framed tree index index docId intent :=
  framed_of_same (fun _ _ => Iff.rfl) rfl

theorem Transacts.of_same_index {phase phase' : SweepPhase}
    (keyed : index.WellKeyed) (formed : phase'.WellFormed)
    (tended : phase'.Tended tree index)
    (disturbs : ∀ docId, phase.Disturbs docId → phase'.Disturbs docId) :
    Transacts tree index index phase phase' where
  keyed := keyed
  formed := formed
  framed := fun _ _ _ => framed_refl
  tended := tended
  consistent := fun docId before => before.imp_right (disturbs docId)

theorem not_disturbs_listing {collections : List ExportableCollectionDef}
    {names : List DocPlace} {onDisk : List SeenFile} {docId : String} :
    ¬(listing collections names onDisk).Disturbs docId := by
  simp [Disturbs, hasInserted, hasRemoved]

theorem transacts_listing {collections collections' :
      List ExportableCollectionDef} {names names' : List DocPlace}
    {onDisk onDisk' : List SeenFile} (keyed : index.WellKeyed)
    (formed : ListingFormed collections' names' onDisk') :
    Transacts tree index index (.listing collections names onDisk)
      (.listing collections' names' onDisk') :=
  .of_same_index keyed
    (.of_listing (by rintro _ _ _ ⟨⟩; exact formed) rfl rfl rfl)
    (.of_no_intents rfl rfl) fun _ disturbs =>
      absurd disturbs not_disturbs_listing

theorem listingFormed_start : ListingFormed getExportableCollections [] [] where
  exportable := fun _ member => member
  exported := by simp
  distinct := by simp
  distinctCollections := .of_map _ nodup_collectionNames
  later := by simp

theorem ListingFormed.of_sublist
    {collections : List ExportableCollectionDef} {names names' : List DocPlace}
    {onDisk onDisk' : List SeenFile}
    (formed : ListingFormed collections names onDisk)
    (fewer : (onDisk'.map SeenFile.place ++ names').Sublist
      (onDisk.map SeenFile.place ++ names)) :
    ListingFormed collections names' onDisk' where
  exportable := formed.exportable
  exported := fun place member => formed.exported place (fewer.subset member)
  distinct := fewer.nodup formed.distinct
  distinctCollections := formed.distinctCollections
  later := fun place member => formed.later place (fewer.subset member)

theorem mem_readCollection_iff {collection : ExportableCollectionDef}
    {place : DocPlace} :
    place ∈ readCollection tree collection ↔
      place.collection = collection ∧ isMarkdownName place.name ∧
        ∃ file, tree.read place.sourcePath = some file := by
  unfold readCollection
  simp only [List.mem_filter, List.mem_map, decide_eq_true_eq,
    FileTree.read_eq_some_iff]
  constructor
  · rintro ⟨⟨⟨⟨subdir, name⟩, file⟩, ⟨member, rfl⟩, rfl⟩, markdown⟩
    exact ⟨rfl, markdown, file, member⟩
  · rintro ⟨rfl, markdown, file, member⟩
    exact ⟨⟨_, ⟨member, rfl⟩, rfl⟩, markdown⟩

theorem nodup_readCollection (collection : ExportableCollectionDef) :
    (readCollection tree collection).Nodup := by
  unfold readCollection
  apply List.Nodup.filter
  apply List.pairwise_map.mpr
  apply (tree.coexist.filter _).imp_of_mem
  intro left right leftMember rightMember different same
  apply different
  have leftHere := of_decide_eq_true (List.mem_filter.mp leftMember).2
  have rightHere := of_decide_eq_true (List.mem_filter.mp rightMember).2
  simp only [DocPlace.mk.injEq, true_and] at same
  rw [SourcePath.mk.injEq]
  exact ⟨leftHere.trans rightHere.symm, same⟩

theorem ListingFormed.readCollection
    {collection : ExportableCollectionDef}
    {collections : List ExportableCollectionDef} {onDisk : List SeenFile}
    (formed : ListingFormed (collection :: collections) [] onDisk) :
    ListingFormed collections (readCollection tree collection) onDisk := by
  obtain ⟨absent, distinct⟩ := List.nodup_cons.mp formed.distinctCollections
  have seen : ∀ place ∈ onDisk.map SeenFile.place,
      place.IsExported ∧ place.collection ∉ collection :: collections :=
    fun place member =>
      ⟨formed.exported place (List.mem_append_left _ member),
        formed.later place (List.mem_append_left _ member)⟩
  have exportable : collection ∈ getExportableCollections :=
    formed.exportable collection List.mem_cons_self
  refine
    { exportable := fun other member =>
        formed.exportable other (List.mem_cons_of_mem _ member)
      exported := ?_
      distinct := ?_
      distinctCollections := distinct
      later := ?_ }
  · intro place member
    rcases List.mem_append.mp member with before | now
    · exact (seen place before).1
    · obtain ⟨rfl, markdown, -⟩ := mem_readCollection_iff.mp now
      exact ⟨exportable, markdown⟩
  · rw [List.nodup_append]
    have before := formed.distinct
    rw [List.append_nil] at before
    refine ⟨before, nodup_readCollection collection, ?_⟩
    rintro place member other otherMember rfl
    obtain ⟨rfl, -⟩ := mem_readCollection_iff.mp otherMember
    exact (seen place member).2 List.mem_cons_self
  · intro place member
    rcases List.mem_append.mp member with before | now
    · exact fun later =>
        (seen place before).2 (List.mem_cons_of_mem _ later)
    · obtain ⟨rfl, -⟩ := mem_readCollection_iff.mp now
      exact absent

section Select

variable {exportDir : String} {onDisk : List SeenFile}

theorem mem_missingFiles_iff {removed : RemovedFile} :
    removed ∈ missingFiles exportDir index onDisk ↔
      (∀ seen ∈ onDisk, seen.place.path exportDir ≠ removed.path) ∧
        ∃ file ∈ index.files.rows,
          file.1 = removed.path ∧ file.2.docId = removed.docId := by
  unfold missingFiles
  simp only [List.mem_map, List.mem_filter, Bool.not_eq_true',
    List.any_eq_false, decide_eq_true_eq]
  constructor
  · rintro ⟨file, ⟨member, unseen⟩, rfl⟩
    exact ⟨unseen, file, member, rfl, rfl⟩
  · rintro ⟨unseen, file, member, path, docId⟩
    refine ⟨file, ⟨member, fun seen seenMember => ?_⟩, ?_⟩
    · rw [path]
      exact unseen seen seenMember
    · rw [path, docId]

theorem planFile_seen {seen : SeenFile} {planned : PlannedFile}
    (isPlanned : planFile exportDir index seen = some planned) :
    planned.seen = seen := by
  unfold planFile at isPlanned
  split at isPlanned
  · cases isPlanned
    rfl
  · split_ifs at isPlanned
    cases isPlanned
    rfl

theorem mem_plan_iff {planned : PlannedFile} :
    planned ∈ onDisk.filterMap (planFile exportDir index) ↔
      planned.seen ∈ onDisk ∧
        planFile exportDir index planned.seen = some planned := by
  rw [List.mem_filterMap]
  constructor
  · rintro ⟨seen, member, isPlanned⟩
    rw [planFile_seen isPlanned]
    exact ⟨member, isPlanned⟩
  · rintro ⟨member, isPlanned⟩
    exact ⟨_, member, isPlanned⟩

theorem read_of_isNew {planned : PlannedFile}
    (isPlanned : planFile exportDir index planned.seen = some planned)
    (isNew : planned.isNew = true) :
    index.files.read (planned.seen.place.path exportDir) = none := by
  unfold planFile at isPlanned
  split at isPlanned
  · assumption
  · split_ifs at isPlanned
    rw [← Option.some.inj isPlanned] at isNew
    cases isNew

theorem read_of_isOld {planned : PlannedFile}
    (isPlanned : planFile exportDir index planned.seen = some planned)
    (isOld : planned.isNew = false) :
    ∃ prior,
      index.files.read (planned.seen.place.path exportDir) = some prior := by
  unfold planFile at isPlanned
  split at isPlanned
  · rw [← Option.some.inj isPlanned] at isOld
    cases isOld
  · exact ⟨_, ‹_›⟩

theorem missing_or_listed (keyed : index.WellKeyed)
    (formed : ListingFormed [] [] onDisk) {file : String × FileRecord}
    (member : file ∈ index.files.rows) :
    (⟨file.1, file.2.docId⟩ : RemovedFile) ∈
        missingFiles exportDir index onDisk ∨
      ∃ seen ∈ onDisk, seen.place.path exportDir = file.1 ∧
        seen.place.docId = file.2.docId := by
  by_cases listed : ∃ seen ∈ onDisk, seen.place.path exportDir = file.1
  · obtain ⟨seen, seenMember, same⟩ := listed
    have exported : seen.place.IsExported :=
      formed.exported _ (List.mem_append_left _
        (List.mem_map_of_mem seenMember))
    have names : Names file.1 seen.place.docId :=
      same ▸ names_path exported exportDir
    exact .inr ⟨seen, seenMember, same, names.docId_eq (keyed file member)⟩
  · left
    refine mem_missingFiles_iff.mpr ⟨fun seen seenMember same => ?_,
      file, member, rfl, rfl⟩
    exact listed ⟨seen, seenMember, same⟩

/-- The listing and the records agree on the paths of listed documents. -/
def OnePath (exportDir : String) (index : NativeIndex)
    (onDisk : List SeenFile) : Prop :=
  ∀ removed ∈ missingFiles exportDir index onDisk,
    ∀ seen ∈ onDisk, seen.place.docId ≠ removed.docId

theorem path_of_record (keyed : index.WellKeyed)
    (formed : ListingFormed [] [] onDisk)
    (onePath : OnePath exportDir index onDisk) {seen : SeenFile}
    (listed : seen ∈ onDisk) {file : String × FileRecord}
    (member : file ∈ index.files.rows)
    (same : file.2.docId = seen.place.docId) :
    file.1 = seen.place.path exportDir := by
  rcases (missing_or_listed keyed formed member :
      _ ∈ missingFiles exportDir index onDisk ∨ _) with
    missing | ⟨other, otherListed, path, docId⟩
  · exact absurd same.symm (onePath _ missing seen listed)
  · have exported : ∀ seen ∈ onDisk, seen.place.IsExported :=
      fun seen listed => formed.exported _ (List.mem_append_left _
        (List.mem_map_of_mem listed))
    rw [← path, DocPlace.eq_of_docId (exported other otherListed)
      (exported seen listed) (docId.trans same)]

/-- What the manager does after its listing. -/
def selected (exportDir : String) (index : NativeIndex)
    (onDisk : List SeenFile) : SweepPhase :=
  .reading (onDisk.filterMap (planFile exportDir index))
    { reads := []
      toRemove := missingFiles exportDir index onDisk }

theorem mem_puts_selected {planned : PlannedFile} :
    planned ∈ (selected exportDir index onDisk).puts ↔
      planned.seen ∈ onDisk ∧
        planFile exportDir index planned.seen = some planned :=
  mem_plan_iff

theorem wellFormed_selected (keyed : index.WellKeyed)
    (formed : ListingFormed [] [] onDisk)
    (onePath : OnePath exportDir index onDisk) :
    (selected exportDir index onDisk).WellFormed where
  listing := by rintro _ _ _ ⟨⟩
  exported := by
    intro planned put
    obtain ⟨listed, -⟩ := mem_puts_selected.mp put
    exact formed.exported _ (List.mem_append_left _
      (List.mem_map_of_mem listed))
  distinct := by
    have distinct := formed.distinct
    rw [List.append_nil] at distinct
    have plans : (selected exportDir index onDisk).puts.Nodup :=
      (distinct.of_map _).filterMap fun left right planned isLeft isRight =>
        (planFile_seen isLeft).symm.trans (planFile_seen isRight)
    apply plans.map_on
    intro left leftPut right rightPut same
    obtain ⟨leftListed, isLeft⟩ := mem_puts_selected.mp leftPut
    obtain ⟨rightListed, isRight⟩ := mem_puts_selected.mp rightPut
    have exported : ∀ seen ∈ onDisk, seen.place.IsExported :=
      fun seen listed => formed.exported _ (List.mem_append_left _
        (List.mem_map_of_mem listed))
    have place := DocPlace.eq_of_docId (exported _ leftListed)
      (exported _ rightListed) same
    rw [List.inj_on_of_nodup_map distinct leftListed rightListed place,
      isRight] at isLeft
    exact (Option.some.inj isLeft).symm
  named := by
    intro removed member
    obtain ⟨-, file, fileMember, path, docId⟩ := mem_missingFiles_iff.mp member
    rw [← path, ← docId]
    exact keyed file fileMember
  apart := by
    intro planned put removed member
    obtain ⟨listed, -⟩ := mem_puts_selected.mp put
    exact onePath removed member planned.seen listed

theorem tended_selected (keyed : index.WellKeyed)
    (formed : ListingFormed [] [] onDisk)
    (onePath : OnePath exportDir index onDisk)
    (settled : ∀ docId,
      (docId, .insert) ∈ (selected exportDir index onDisk).intents →
        Consistent tree index docId) :
    (selected exportDir index onDisk).Tended tree index := by
  have unrecorded : ∀ docId,
      (docId, .insert) ∈ (selected exportDir index onDisk).intents →
        ∀ mtimeMs, ¬index.Records docId mtimeMs := by
    rintro docId member mtimeMs ⟨file, fileMember, same, -⟩
    obtain ⟨planned, put, rfl, isNew⟩ := mem_insert_iff.mp member
    obtain ⟨listed, isPlanned⟩ := mem_puts_selected.mp put
    have path := path_of_record keyed formed onePath listed fileMember same
    have absent := read_of_isNew isPlanned isNew
    rw [← path] at absent
    exact FileTree.read_eq_none_iff.mp absent file.2 fileMember
  exact
    { fresh := fun _ member => absurd member List.not_mem_nil
      unrecorded := unrecorded
      absent := fun _ docId member =>
        (settled docId member).unrecorded (unrecorded docId member)
      inserted := fun late => absurd late (by simp [selected, hasInserted])
      recorded := by
        intro docId mtimeMs member
        obtain ⟨planned, put, rfl, isOld, -⟩ := mem_replace_iff.mp member
        obtain ⟨listed, isPlanned⟩ := mem_puts_selected.mp put
        obtain ⟨prior, found⟩ := read_of_isOld isPlanned isOld
        have row := FileTree.read_eq_some_iff.mp found
        have exported : planned.seen.place.IsExported :=
          formed.exported _ (List.mem_append_left _
            (List.mem_map_of_mem listed))
        exact ⟨prior.mtimeMs, _, row,
          (keyed _ row).docId_eq (names_path exported exportDir), rfl⟩
      replaced := fun late => absurd late (by simp [selected, hasReplaced])
      covered := by
        intro docId member file fileMember same
        obtain ⟨removed, removedMember, sameId⟩ :=
          List.mem_map.mp (mem_remove_iff.mp member)
        rcases (missing_or_listed keyed formed fileMember :
            _ ∈ missingFiles exportDir index onDisk ∨ _) with
          missing | ⟨seen, listed, -, docId⟩
        · exact ⟨_, missing, rfl⟩
        · refine absurd ?_ (onePath removed removedMember seen listed)
          rw [docId, same, sameId]
      emptied := fun late => absurd late (by simp [selected, hasRemoved]) }

theorem transacts_select (keyed : index.WellKeyed)
    (formed : ListingFormed [] [] onDisk)
    (onePath : OnePath exportDir index onDisk)
    (settled : ∀ docId,
      (docId, .insert) ∈ (selected exportDir index onDisk).intents →
        Consistent tree index docId) :
    Transacts tree index index (.listing [] [] onDisk)
      (selected exportDir index onDisk) :=
  .of_same_index keyed (wellFormed_selected keyed formed onePath)
    (tended_selected keyed formed onePath settled) fun _ disturbs =>
      absurd disturbs not_disturbs_listing

end Select

theorem tended_reading {pending pending' : List PlannedFile}
    {delta delta' : SweepDelta}
    (tended : (reading pending delta).Tended tree index)
    (fresh : ∀ read ∈ delta'.reads,
      Fresh tree index read.docId read.mtimeMs read.content)
    (fewer : (reading pending' delta').intents ⊆
      (reading pending delta).intents)
    (removes : delta'.toRemove = delta.toRemove) :
    (reading pending' delta').Tended tree index where
  fresh := fresh
  unrecorded := fun docId member => tended.unrecorded docId (fewer member)
  absent := fun early docId member =>
    tended.absent early docId (fewer member)
  inserted := fun late => absurd late (by simp [hasInserted])
  recorded := fun docId mtimeMs member =>
    tended.recorded docId mtimeMs (fewer member)
  replaced := fun late => absurd late (by simp [hasReplaced])
  covered := by
    have same : (reading pending' delta').delta.toRemove =
        (reading pending delta).delta.toRemove := removes
    rw [same]
    exact fun docId member => tended.covered docId (fewer member)
  emptied := fun late => absurd late (by simp [hasRemoved])

theorem fresh_of_read {planned : PlannedFile} {file : SourceFile}
    (exported : planned.seen.place.IsExported)
    (found : tree.read planned.seen.place.sourcePath = some file)
    {mtimeMs : Int} :
    Fresh tree index planned.seen.place.docId mtimeMs file.content := by
  intro doc member same _
  obtain ⟨docExported, docFound⟩ := mem_exportedDocs_iff.mp member
  rw [DocPlace.eq_of_docId docExported exported same, found] at docFound
  rw [Option.some.inj docFound]

theorem puts_reading_sublist {pending pending' : List PlannedFile}
    {delta delta' : SweepDelta}
    (fewer : (delta'.reads.map ReadFile.planned ++ pending').Sublist
      (delta.reads.map ReadFile.planned ++ pending)) :
    (reading pending' delta').puts.Sublist (reading pending delta).puts :=
  fewer

theorem intents_subset {phase phase' : SweepPhase}
    (puts : phase'.puts.Sublist phase.puts)
    (removes : phase'.delta.toRemove = phase.delta.toRemove) :
    phase'.intents ⊆ phase.intents := by
  unfold intents
  rw [removes]
  exact List.append_subset.mpr
    ⟨fun _ member => List.mem_append_left _ ((puts.map _).subset member),
      fun _ member => List.mem_append_right _ member⟩

/-- What a manager needs in order to take its step. -/
def MayProceed (index : NativeIndex) (manager : NativeIndexManager)
    (others : List NativeIndexManager) : Prop :=
  ∀ onDisk, manager.phase = .listing [] [] onDisk →
    OnePath manager.exportDir index onDisk ∧
      ∀ other ∈ others, CompatibleIntents
        (selected manager.exportDir index onDisk).intents other.phase.intents

theorem SweepsSound.compatibleHead {manager : NativeIndexManager}
    {others : List NativeIndexManager}
    (sound : SweepsSound tree index (manager :: others))
    {phase' : SweepPhase} (fewer : phase'.intents ⊆ manager.phase.intents) :
    ∀ other ∈ others,
      CompatibleIntents phase'.intents other.phase.intents :=
  fun other member =>
    ((List.pairwise_cons.mp sound.compatible).1 other member).mono fewer

theorem SweepsSound.select {manager : NativeIndexManager}
    {others : List NativeIndexManager} {onDisk : List SeenFile}
    (sound : SweepsSound tree index (manager :: others))
    (phase : manager.phase = .listing [] [] onDisk)
    (may : MayProceed index manager others) :
    SweepsSound tree index
      ({ manager with
          phase := selected manager.exportDir index onDisk } :: others) := by
  obtain ⟨onePath, compatible⟩ := may onDisk phase
  have formed : ListingFormed [] [] onDisk :=
    (sound.formed manager List.mem_cons_self).listing _ _ _ phase
  refine sound.transact ?_ compatible
  rw [phase]
  refine transacts_select sound.keyed formed onePath fun docId member => ?_
  -- A sweep that has written the document is not compatible with this one.
  rcases sound.consistent docId with consistent | ⟨other, otherMember, apart⟩
  · exact consistent
  rcases List.mem_cons.mp otherMember with rfl | otherMember
  · rw [phase] at apart
    exact absurd apart not_disturbs_listing
  · have conflict := compatible other otherMember
    rcases apart with ⟨-, theirs⟩ | ⟨-, theirs⟩
    · exact absurd rfl (conflict.eq member theirs).2
    · exact absurd rfl (conflict.eq member theirs).2

theorem SweepsSound.advance {manager : NativeIndexManager}
    {others : List NativeIndexManager}
    (sound : SweepsSound tree index (manager :: others))
    (may : MayProceed index manager others) :
    SweepsSound tree
      (manager.phase.advance manager.exportDir tree index).1
      ({ manager with
          phase :=
            (manager.phase.advance manager.exportDir tree index).2 } ::
        others) := by
  have keyed := sound.keyed
  have formed := sound.formed manager List.mem_cons_self
  have tended := sound.tended manager List.mem_cons_self
  cases isPhase : manager.phase with
  | idle =>
      rw [isPhase] at formed tended
      refine sound.transact ?_ (sound.compatibleHead (List.nil_subset _))
      rw [isPhase]
      exact .of_same_index keyed formed tended fun _ disturbs => disturbs
  | listing collections names onDisk =>
      have listed := formed.listing collections names onDisk isPhase
      cases names with
      | cons place names =>
          have step : ∀ onDisk',
              (onDisk'.map SeenFile.place ++ names).Sublist
                (onDisk.map SeenFile.place ++ place :: names) →
              SweepsSound tree index
                ({ manager with
                    phase := .listing collections names onDisk' } ::
                  others) := by
            intro onDisk' fewer
            refine sound.transact ?_
              (sound.compatibleHead (List.nil_subset _))
            rw [isPhase]
            exact transacts_listing keyed (listed.of_sublist fewer)
          unfold SweepPhase.advance
          dsimp only
          cases tree.read place.sourcePath with
          | none =>
              refine step onDisk ?_
              exact (List.sublist_cons_self place names).append_left _
          | some file =>
              refine step _ ?_
              simp
      | nil =>
          cases collections with
          | nil => exact sound.select isPhase may
          | cons collection collections =>
              refine sound.transact ?_
                (sound.compatibleHead (List.nil_subset _))
              rw [isPhase]
              exact transacts_listing keyed listed.readCollection
  | reading pending delta =>
      rw [isPhase] at formed tended
      cases pending with
      | nil =>
          refine sound.transact ?_ (sound.compatibleHead
            (by rw [isPhase]; exact fun _ member => member))
          rw [isPhase]
          refine .of_same_index keyed
            (formed.of_fewer (by rintro _ _ _ ⟨⟩) (.refl _) rfl) ?_ ?_
          · exact
              { fresh := tended.fresh
                unrecorded := tended.unrecorded
                absent := tended.absent
                inserted := tended.inserted
                recorded := tended.recorded
                replaced := tended.replaced
                covered := tended.covered
                emptied := tended.emptied }
          · simp [Disturbs, hasInserted, hasRemoved]
      | cons planned pending =>
          have step : ∀ delta' : SweepDelta,
              (delta'.reads.map ReadFile.planned ++ pending).Sublist
                (delta.reads.map ReadFile.planned ++ planned :: pending) →
              delta'.toRemove = delta.toRemove →
              (∀ read ∈ delta'.reads,
                Fresh tree index read.docId read.mtimeMs read.content) →
              SweepsSound tree index
                ({ manager with phase := .reading pending delta' } ::
                  others) := by
            intro delta' puts removes fresh
            have fewer : (reading pending delta').intents ⊆
                (reading (planned :: pending) delta).intents :=
              intents_subset (puts_reading_sublist puts) removes
            refine sound.transact ?_
              (sound.compatibleHead (by rw [isPhase]; exact fewer))
            rw [isPhase]
            refine .of_same_index keyed
              (formed.of_fewer (by rintro _ _ _ ⟨⟩)
                (puts_reading_sublist puts) removes)
              (tended_reading tended fresh fewer removes) ?_
            simp [Disturbs, hasInserted, hasRemoved]
          unfold SweepPhase.advance
          dsimp only
          cases found : tree.read planned.seen.place.sourcePath with
          | none =>
              refine step delta ?_ rfl tended.fresh
              exact (List.sublist_cons_self planned pending).append_left _
          | some file =>
              refine step _ (by simp) rfl ?_
              intro read member
              rcases List.mem_append.mp member with before | now
              · exact tended.fresh read before
              · rw [List.mem_singleton.mp now]
                exact fresh_of_read (formed.exported planned (by
                  simp [puts, SweepPhase.pending])) found
  | inserting delta =>
      rw [isPhase] at formed tended
      refine sound.transact ?_
        (sound.compatibleHead (by rw [isPhase]; exact List.Subset.refl _))
      rw [isPhase]
      exact transacts_insert keyed formed tended
  | replacing delta =>
      rw [isPhase] at formed tended
      refine sound.transact ?_
        (sound.compatibleHead (by rw [isPhase]; exact List.Subset.refl _))
      rw [isPhase]
      exact transacts_replace keyed formed tended
  | removing delta =>
      rw [isPhase] at formed tended
      refine sound.transact ?_
        (sound.compatibleHead (by rw [isPhase]; exact List.Subset.refl _))
      rw [isPhase]
      exact transacts_remove keyed formed tended
  | recording delta =>
      rw [isPhase] at formed tended
      refine sound.transact ?_ (sound.compatibleHead (List.nil_subset _))
      rw [isPhase]
      exact transacts_record keyed formed tended

theorem pending_of_hasReplaced {phase : SweepPhase}
    (late : phase.hasReplaced = true) : phase.pending = [] := by
  cases phase <;> simp_all [hasReplaced, SweepPhase.pending]

/-- The files of the new tree are those of the old one, or have modification
times that nothing remembers. -/
theorem SweepsSound.retree {tree' : SourceTree}
    {managers : List NativeIndexManager}
    (sound : SweepsSound tree index managers)
    (fewer : ∀ doc ∈ exportedDocs tree', doc ∈ exportedDocs tree ∨
      ¬index.Records doc.1.docId doc.2.mtimeMs ∧
        ∀ manager ∈ managers, ∀ read ∈ manager.phase.delta.reads,
          read.docId = doc.1.docId → read.mtimeMs ≠ doc.2.mtimeMs) :
    SweepsSound tree' index managers := by
  have fresh : ∀ manager ∈ managers, ∀ read ∈ manager.phase.delta.reads,
      ∀ content, Fresh tree index read.docId read.mtimeMs content →
        Fresh tree' index read.docId read.mtimeMs content := by
    intro manager managerMember read member content before doc docMember
      same known
    rcases fewer doc docMember with old | ⟨unrecorded, unread⟩
    · exact before doc old same known
    · rcases known with now | recorded
      · exact absurd now.symm
          (unread manager managerMember read member same.symm)
      · exact absurd (same ▸ recorded) unrecorded
  exact
    { keyed := sound.keyed
      formed := sound.formed
      compatible := sound.compatible
      tended := by
        intro manager member
        have tended := sound.tended manager member
        exact
          { fresh := fun read readMember =>
              fresh manager member read readMember _
                (tended.fresh read readMember)
            unrecorded := tended.unrecorded
            absent := tended.absent
            inserted := tended.inserted
            recorded := tended.recorded
            replaced := by
              intro late docId mtimeMs intent
              obtain ⟨content, text, before⟩ :=
                tended.replaced late docId mtimeMs intent
              obtain ⟨read, readMember, -, rfl, rfl⟩ :=
                exists_read_of_replace (pending_of_hasReplaced late) intent
              exact ⟨content, text,
                fresh manager member read readMember content before⟩
            covered := tended.covered
            emptied := tended.emptied }
      consistent := by
        intro docId
        refine (sound.consistent docId).imp_left fun consistent => ?_
        refine
          { unrecorded := consistent.unrecorded
            upToDate := ?_ }
        intro doc docMember same recorded
        rcases fewer doc docMember with old | ⟨unrecorded, -⟩
        · exact consistent.upToDate doc old same recorded
        · exact absurd (same ▸ recorded) unrecorded }

theorem mem_exportedDocs_write {path : SourcePath} {file : SourceFile}
    {doc : DocPlace × SourceFile}
    (member : doc ∈ exportedDocs (tree.write path file)) :
    doc ∈ exportedDocs tree ∨
      doc.1.IsExported ∧ doc.1.sourcePath = path ∧ doc.2 = file := by
  obtain ⟨exported, found⟩ := mem_exportedDocs_iff.mp member
  rw [FileTree.read_write] at found
  split_ifs at found with here
  · exact .inr ⟨exported, here, (Option.some.inj found).symm⟩
  · exact .inl (mem_exportedDocs_iff.mpr ⟨exported, found⟩)

theorem mem_exportedDocs_unlink {path : SourcePath}
    {doc : DocPlace × SourceFile}
    (member : doc ∈ exportedDocs (tree.unlink path)) :
    doc ∈ exportedDocs tree := by
  obtain ⟨exported, found⟩ := mem_exportedDocs_iff.mp member
  rw [FileTree.read_unlink] at found
  split_ifs at found
  exact mem_exportedDocs_iff.mpr ⟨exported, found⟩

theorem SweepsSound.of_idle {manager manager' : NativeIndexManager}
    {others : List NativeIndexManager}
    (sound : SweepsSound tree index (manager :: others))
    (formed : manager'.phase.WellFormed)
    (noReads : manager'.phase.delta.reads = [])
    (none : manager'.phase.intents = [])
    (settled : ∀ docId, manager.phase.Disturbs docId →
      Consistent tree index docId) :
    SweepsSound tree index (manager' :: others) := by
  refine sound.transact ?_ (sound.compatibleHead (by simp [none]))
  exact
    { keyed := sound.keyed
      formed := formed
      framed := fun _ _ _ => framed_refl
      tended := .of_no_intents noReads none
      consistent := fun docId before =>
        .inl (before.elim id (settled docId)) }

theorem wellFormed_idle : SweepPhase.idle.WellFormed :=
  .of_listing (by rintro _ _ _ ⟨⟩) rfl rfl rfl

theorem SweepsSound.ensureFresh {manager : NativeIndexManager}
    {others : List NativeIndexManager}
    (sound : SweepsSound tree index (manager :: others))
    (isIdle : manager.phase = .idle) (nowMs : Int) :
    SweepsSound tree index (manager.ensureFresh nowMs :: others) := by
  have settled : ∀ docId, manager.phase.Disturbs docId →
      Consistent tree index docId := by
    rw [isIdle]
    rintro docId (⟨late, -⟩ | ⟨late, -⟩) <;> cases late
  unfold NativeIndexManager.ensureFresh
  split_ifs
  · exact sound
  · refine sound.of_idle ?_ rfl rfl settled
    refine .of_listing ?_ rfl rfl rfl
    rintro _ _ _ ⟨⟩
    exact listingFormed_start

theorem SweepsSound.crash {manager : NativeIndexManager}
    {others : List NativeIndexManager}
    (sound : SweepsSound tree index (manager :: others))
    (noInsert : manager.phase.hasInserted = true →
      manager.phase.delta.toInsert = [])
    (noRecord : manager.phase.hasRemoved = true →
      ∀ removed ∈ manager.phase.delta.toRemove,
        ∀ doc ∈ exportedDocs tree, doc.1.docId = removed.docId →
          ¬index.Records removed.docId doc.2.mtimeMs) :
    SweepsSound tree index (manager.restarted :: others) := by
  have tended := sound.tended manager List.mem_cons_self
  refine sound.of_idle wellFormed_idle rfl rfl ?_
  rintro docId (⟨late, member⟩ | ⟨late, member⟩)
  · have done : manager.phase.pending = [] := by
      cases phase : manager.phase <;>
        simp_all [hasInserted, SweepPhase.pending]
    obtain ⟨read, readMember, isNew, -⟩ := exists_read_of_insert done member
    have doc := SweepDelta.mem_toInsert_iff.mpr ⟨read, readMember, isNew, rfl⟩
    rw [noInsert late] at doc
    cases doc
  · have empty := tended.emptied late docId member
    refine
      { unrecorded := fun _ => empty
        upToDate := ?_ }
    intro doc docMember same recorded
    obtain ⟨removed, removedMember, rfl⟩ :=
      List.mem_map.mp (mem_remove_iff.mp member)
    exact absurd recorded (noRecord late removed removedMember doc docMember
      same)

theorem SweepsSound.perm {managers managers' : List NativeIndexManager}
    (sound : SweepsSound tree index managers)
    (same : managers.Perm managers') : SweepsSound tree index managers' where
  keyed := sound.keyed
  formed := fun manager member =>
    sound.formed manager (same.mem_iff.mpr member)
  compatible :=
    (same.pairwise_iff fun compatible => compatible.symm).mp sound.compatible
  tended := fun manager member =>
    sound.tended manager (same.mem_iff.mpr member)
  consistent := fun docId =>
    (sound.consistent docId).imp_right fun ⟨manager, member, disturbs⟩ =>
      ⟨manager, same.mem_iff.mp member, disturbs⟩

namespace IndexSystem

def Sound (system : IndexSystem) : Prop :=
  SweepsSound system.tree system.index system.managers

theorem sound_start (tree : SourceTree) (configs : List (String × Int)) :
    (start tree configs).Sound := by
  have idle : ∀ manager ∈ (start tree configs).managers,
      manager.phase = .idle := by
    intro manager member
    obtain ⟨config, -, rfl⟩ := List.mem_map.mp member
    rfl
  exact
    { keyed := fun _ member => absurd member List.not_mem_nil
      formed := fun manager member => idle manager member ▸ wellFormed_idle
      compatible := by
        apply List.Pairwise.imp_of_mem _ (List.pairwise_of_forall fun _ _ =>
          trivial : (start tree configs).managers.Pairwise fun _ _ => True)
        intro left right leftMember _ _
        rw [idle left leftMember]
        exact fun _ member => absurd member List.not_mem_nil
      tended := fun manager member =>
        idle manager member ▸ .of_no_intents rfl rfl
      consistent := fun docId => .inl
        { unrecorded := fun _ => rfl
          upToDate := fun _ _ _ ⟨_, member, _⟩ =>
            absurd member List.not_mem_nil } }

theorem Sound.focus {system : IndexSystem} (sound : system.Sound)
    {position : Nat} {manager : NativeIndexManager}
    (found : system.managers[position]? = some manager) :
    SweepsSound system.tree system.index
      (manager :: system.managers.eraseIdx position) := by
  obtain ⟨within, rfl⟩ := List.getElem?_eq_some_iff.mp found
  exact SweepsSound.perm sound (List.getElem_cons_eraseIdx_perm within).symm

theorem sound_of_focus {tree : SourceTree} {index : NativeIndex}
    {managers : List NativeIndexManager} {position : Nat}
    {before manager : NativeIndexManager}
    (found : managers[position]? = some before)
    (sound : SweepsSound tree index
      (manager :: managers.eraseIdx position)) :
    SweepsSound tree index (managers.set position manager) := by
  obtain ⟨within, -⟩ := List.getElem?_eq_some_iff.mp found
  exact sound.perm (List.set_perm_cons_eraseIdx within manager).symm

theorem mayProceed_of_maySelect {system : IndexSystem} {position : Nat}
    {manager : NativeIndexManager}
    (may : system.MaySelect position manager) :
    MayProceed system.index manager (system.managers.eraseIdx position) := by
  intro onDisk phase
  unfold MaySelect at may
  rw [phase] at may
  exact may

theorem Sound.step {system : IndexSystem} (sound : system.Sound)
    (label : IndexStep) (safe : system.Safe label) :
    (system.step label).Sound := by
  cases label with
  | writeFile path file =>
      refine SweepsSound.retree sound fun doc member => ?_
      rcases mem_exportedDocs_write member with old | ⟨exported, here, same⟩
      · exact .inl old
      right
      obtain ⟨place, written⟩ := doc
      subst same here
      have forgotten := safe place.collection exported.1 rfl
      rw [remembered, List.mem_append, not_or] at forgotten
      refine ⟨?_, ?_⟩
      · rintro ⟨file, fileMember, sameId, sameTime⟩
        exact forgotten.1 (List.mem_map.mpr
          ⟨file, fileMember, Prod.ext sameId sameTime⟩)
      · intro manager managerMember read readMember sameId sameTime
        exact forgotten.2 (List.mem_flatMap.mpr ⟨manager, managerMember,
          List.mem_map.mpr ⟨read, readMember, Prod.ext sameId sameTime⟩⟩)
  | removeFile path =>
      exact SweepsSound.retree sound fun doc member =>
        .inl (mem_exportedDocs_unlink member)
  | ensureFresh position nowMs =>
      dsimp only [IndexSystem.step]
      split
      · exact sound
      · rename_i manager found
        split_ifs with isIdle
        · exact sound_of_focus found
            ((sound.focus found).ensureFresh isIdle nowMs)
        · exact sound
  | advance position =>
      dsimp only [IndexSystem.step]
      split
      · exact sound
      · rename_i manager found
        exact sound_of_focus found ((sound.focus found).advance
          (mayProceed_of_maySelect (safe manager found)))
  | crash position =>
      dsimp only [IndexSystem.step]
      split
      · exact sound
      · rename_i manager found
        obtain ⟨noInsert, noRecord⟩ := safe manager found
        exact sound_of_focus found
          ((sound.focus found).crash noInsert noRecord)

theorem sound_of_safe {tree : SourceTree} {configs : List (String × Int)}
    {labels : List IndexStep}
    (safe : Always step Safe (start tree configs) labels) :
    (run step (start tree configs) labels).Sound :=
  invariant_of_always (fun _ label sound safe => sound.step label safe)
    (sound_start tree configs) safe

theorem Sound.consistent {system : IndexSystem} (sound : system.Sound)
    (isIdle : system.IsIdle) (docId : String) :
    Consistent system.tree system.index docId := by
  rcases SweepsSound.consistent sound docId with
    consistent | ⟨manager, member, disturbs⟩
  · exact consistent
  · rw [isIdle manager member] at disturbs
    rcases disturbs with ⟨late, -⟩ | ⟨late, -⟩ <;> cases late

end IndexSystem

end Registrar
