import Registrar.Index.NextSweep
import Registrar.Index.ScrubClean

/-!
# A scrub and the sweep after it

A scrub leaves only exported text.  The next sweep puts back the files whose
records fit their rows, and reads nothing of a dropped memory whose record
still stands.
-/

namespace Registrar

section Scrub

variable {env : Environment} {tree : SourceTree} {denseMaxDocChars : Nat}
  {ctx : PlanContext}

/-- The path or id belongs to no memory that is to be dropped. -/
def IsLive (dropMemoryIds : List String) (path : String) : Prop :=
  memoryIdOfPath path ∉ dropMemoryIds

instance (dropMemoryIds : List String) (path : String) :
    Decidable (IsLive dropMemoryIds path) :=
  inferInstanceAs (Decidable (_ ∉ _))

/-- The plan is made from the files of this tree, of which there are some. -/
structure PlansFrom (env : Environment) (tree : SourceTree)
    (denseMaxDocChars : Nat) (ctx : PlanContext) : Prop where
  truth : ctx.truth = loadExportTruth env tree denseMaxDocChars
  exports : exportedDocs tree ≠ []

theorem PlansFrom.present (plans : PlansFrom env tree denseMaxDocChars ctx) :
    ctx.truth.present = true := by
  rw [plans.truth]
  cases docs : exportedDocs tree with
  | nil => exact absurd docs plans.exports
  | cons => simp [loadExportTruth, docs]

theorem matchesNative_iff (plans : PlansFrom env tree denseMaxDocChars ctx)
    {row : DocRow} :
    matchesNative ctx row = true ↔
      ∃ doc ∈ exportedDocs tree, doc.1.docId = row.id ∧
        doc.2.content = row.content := by
  unfold matchesNative
  rw [plans.truth, decide_eq_true_eq, Option.map_eq_some_iff]
  constructor
  · rintro ⟨exported, found, content⟩
    obtain ⟨doc, member, same, rfl⟩ := get_eq_some_iff.mp found
    exact ⟨doc, member, same, content⟩
  · rintro ⟨doc, member, same, content⟩
    exact ⟨_, get_eq_some_iff.mpr ⟨doc, member, same, rfl⟩, content⟩

theorem keepsQmdDocument_spec (plans : PlansFrom env tree denseMaxDocChars ctx)
    {row : QmdDocument}
    (keeps : keepsQmdDocument ctx row = true) :
    row.active = 1 ∧ IsLive ctx.dropMemoryIds row.path ∧
      ∃ doc ∈ exportedDocs tree, doc.1.collection.name = row.collection ∧
        doc.1.name.1 = row.path ∧
          computeContentHash env doc.2.content = row.hash := by
  obtain ⟨active, stays⟩ := Bool.and_eq_true_iff.mp keeps
  obtain ⟨live, matched⟩ :=
    (classify_eq_none_iff plans.present).mp
      (of_decide_eq_true stays)
  rw [plans.truth] at matched
  obtain ⟨exported, found, hash⟩ :=
    Option.map_eq_some_iff.mp (of_decide_eq_true matched)
  obtain ⟨doc, member, collection, path, rfl⟩ := qmdGet_eq_some found
  exact ⟨of_decide_eq_true active, live, doc, member, collection, path,
    hash⟩

theorem keepsDenseDoc_spec (plans : PlansFrom env tree denseMaxDocChars ctx)
    {row : DenseDoc}
    (keeps : keepsDenseDoc ctx row = true) :
    IsLive ctx.dropMemoryIds row.docId ∧
      ∃ doc ∈ exportedDocs tree, doc.1.docId = row.docId ∧
        computeContentHash env
          (leadingUnits doc.2.content denseMaxDocChars) =
            row.contentHash := by
  obtain ⟨live, matched⟩ :=
    (classify_eq_none_iff plans.present).mp
      (of_decide_eq_true keeps)
  rw [plans.truth] at matched
  obtain ⟨exported, found, hash⟩ :=
    Option.map_eq_some_iff.mp (of_decide_eq_true matched)
  obtain ⟨doc, member, same, rfl⟩ := get_eq_some_iff.mp found
  exact ⟨live, doc, member, same, hash⟩

section Native

variable {index : NativeIndex}

theorem content_mem_textsOf_iff {docId content : String} :
    content ∈ index.textsOf docId ↔
      ∃ row ∈ index.docs.rows, row.id = docId ∧ row.content = content := by
  simp [NativeIndex.textsOf, and_assoc]

theorem textsOf_scrub_of_stored (plans : PlansFrom env tree denseMaxDocChars ctx)
    {doc : DocPlace × SourceFile} (member : doc ∈ exportedDocs tree)
    (live : IsLive ctx.dropMemoryIds doc.1.docId)
    (stored : doc.2.content ∈ index.textsOf doc.1.docId) :
    (scrubNative ctx index).textsOf doc.1.docId = [doc.2.content] := by
  have present := plans.present
  obtain ⟨row, rowMember, same, content⟩ := content_mem_textsOf_iff.mp stored
  have matched := (matchesNative_iff plans).mpr ⟨doc, member, same.symm,
    content.symm⟩
  obtain ⟨kept, keptMember, keptSame⟩ := exists_keptDoc present rowMember
    (same.symm ▸ live) matched List.not_mem_nil
  obtain ⟨-, -, keptMatched, -⟩ := mem_keptDocs present keptMember
  obtain ⟨other, otherMember, otherSame, otherContent⟩ :=
    (matchesNative_iff plans).mp keptMatched
  have isDoc : other = doc := exportedDocs_unique otherMember member
    (otherSame.trans (keptSame.trans same))
  unfold NativeIndex.textsOf
  rw [rows_scrubNative, ← same, ← keptSame,
    filter_key_eq (nodup_keptDocs present [] _) keptMember]
  rw [List.map_singleton, ← otherContent, isDoc]

theorem textsOf_scrub_of_unstored (plans : PlansFrom env tree denseMaxDocChars ctx)
    {docId : String}
    (unstored : ∀ doc ∈ exportedDocs tree, doc.1.docId = docId →
      IsLive ctx.dropMemoryIds docId →
        doc.2.content ∉ index.textsOf docId) :
    (scrubNative ctx index).textsOf docId = [] := by
  have present := plans.present
  rw [List.eq_nil_iff_forall_not_mem]
  intro content stored
  obtain ⟨row, rowMember, rfl, rfl⟩ := content_mem_textsOf_iff.mp stored
  rw [rows_scrubNative] at rowMember
  obtain ⟨known, live, matched, -⟩ := mem_keptDocs present rowMember
  obtain ⟨doc, member, same, content⟩ := (matchesNative_iff plans).mp matched
  exact unstored doc member same live
    (content_mem_textsOf_iff.mpr ⟨row, known, rfl, content.symm⟩)

/-- The scrub leaves the file record of a document: its memory is dropped, or
it has no row, or a row of it has the exported text. -/
def KeepsRecord (tree : SourceTree) (dropMemoryIds : List String)
    (index : NativeIndex) (docId : String) : Prop :=
  ¬IsLive dropMemoryIds docId ∨ index.textsOf docId = [] ∨
    ∃ doc ∈ exportedDocs tree, doc.1.docId = docId ∧
      doc.2.content ∈ index.textsOf docId

instance (tree : SourceTree) (dropMemoryIds : List String)
    (index : NativeIndex) (docId : String) :
    Decidable (KeepsRecord tree dropMemoryIds index docId) :=
  inferInstanceAs (Decidable (_ ∨ _ ∨ ∃ doc ∈ _, _))

theorem mem_files_scrub_iff (plans : PlansFrom env tree denseMaxDocChars ctx)
    {file : String × FileRecord} :
    file ∈ (scrubNative ctx index).files.rows ↔
      file ∈ index.files.rows ∧
        KeepsRecord tree ctx.dropMemoryIds index file.2.docId := by
  have present := plans.present
  have rows : ∀ docId, index.textsOf docId = [] ↔
      ¬∃ row ∈ index.docs.rows, row.id = docId := by
    intro docId
    rw [List.eq_nil_iff_forall_not_mem]
    constructor
    · rintro none ⟨row, member, same⟩
      exact none row.content
        (content_mem_textsOf_iff.mpr ⟨row, member, same, rfl⟩)
    · intro none content stored
      obtain ⟨row, member, same, -⟩ := content_mem_textsOf_iff.mp stored
      exact none ⟨row, member, same⟩
  have stored : ∀ docId, (∃ doc ∈ exportedDocs tree, doc.1.docId = docId ∧
        doc.2.content ∈ index.textsOf docId) ↔
      ∃ row ∈ index.docs.rows, row.id = docId ∧
        matchesNative ctx row = true := by
    intro docId
    constructor
    · rintro ⟨doc, member, same, text⟩
      obtain ⟨row, rowMember, rowSame, content⟩ :=
        content_mem_textsOf_iff.mp text
      exact ⟨row, rowMember, rowSame, (matchesNative_iff plans).mpr
        ⟨doc, member, same.trans rowSame.symm, content.symm⟩⟩
    · rintro ⟨row, rowMember, rfl, matched⟩
      obtain ⟨doc, member, same, content⟩ := (matchesNative_iff plans).mp matched
      exact ⟨doc, member, same,
        content_mem_textsOf_iff.mpr ⟨row, rowMember, rfl, content.symm⟩⟩
  unfold scrubNative NativePlan.apply Table.filter
  rw [List.mem_filter, decide_eq_true_eq, mem_dropFileDocIds_iff present]
  refine and_congr_right fun _ => ?_
  unfold KeepsRecord
  rw [rows, stored]
  have live : memoryIdOfPath file.2.docId ∉ ctx.dropMemoryIds ↔
      IsLive ctx.dropMemoryIds file.2.docId := Iff.rfl
  rw [live]
  simp only [not_and_or, not_forall, Bool.not_eq_false, exists_prop]

variable {exportDir : String} {doc : DocPlace × SourceFile}

theorem mem_removedIds_sweep {docId : String} :
    docId ∈ (sweepDelta exportDir tree index).removedIds ↔
      ∃ file ∈ index.files.rows, file.2.docId = docId ∧
        ∀ doc ∈ exportedDocs tree, doc.1.path exportDir ≠ file.1 := by
  unfold sweepDelta SweepDelta.removedIds
  simp only [List.mem_map, mem_missingFiles_iff]
  constructor
  · rintro ⟨removed, ⟨unseen, file, member, path, docId⟩, rfl⟩
    refine ⟨file, member, docId, fun doc docMember same => ?_⟩
    exact unseen (seenOf doc) ⟨doc, docMember, rfl⟩ (same.trans path)
  · rintro ⟨file, member, rfl, unlisted⟩
    refine ⟨⟨file.1, file.2.docId⟩, ⟨?_, file, member, rfl, rfl⟩, rfl⟩
    rintro _ ⟨doc, docMember, rfl⟩
    exact unlisted doc docMember

/-- The scrub leaves a row with the present text of the file. -/
def StaysStored (dropMemoryIds : List String) (index : NativeIndex)
    (doc : DocPlace × SourceFile) : Prop :=
  IsLive dropMemoryIds doc.1.docId ∧
    doc.2.content ∈ index.textsOf doc.1.docId

instance (dropMemoryIds : List String) (index : NativeIndex)
    (doc : DocPlace × SourceFile) :
    Decidable (StaysStored dropMemoryIds index doc) :=
  inferInstanceAs (Decidable (_ ∧ _))

/-- The file has been written since it was recorded under its path. -/
def Rewritten (exportDir : String) (index : NativeIndex)
    (doc : DocPlace × SourceFile) : Prop :=
  ∃ record ∈ index.files.read (doc.1.path exportDir),
    record.mtimeMs ≠ doc.2.mtimeMs

/-- The records fit the rows of an exported file: no record that the scrub
leaves names it elsewhere, a text that stays stored has such a record under the
path of the file, and such a record with the present modification time has its
text. -/
def Fits (exportDir : String) (tree : SourceTree)
    (dropMemoryIds : List String) (index : NativeIndex)
    (doc : DocPlace × SourceFile) : Prop :=
  (∀ file ∈ index.files.rows, file.2.docId = doc.1.docId →
    KeepsRecord tree dropMemoryIds index doc.1.docId →
      ∃ other ∈ exportedDocs tree, other.1.path exportDir = file.1) ∧
  (StaysStored dropMemoryIds index doc →
    ∃ record ∈ (index.files.read (doc.1.path exportDir)).toList,
      KeepsRecord tree dropMemoryIds index record.docId) ∧
  ∀ record ∈ (index.files.read (doc.1.path exportDir)).toList,
    KeepsRecord tree dropMemoryIds index record.docId →
      record.mtimeMs = doc.2.mtimeMs → StaysStored dropMemoryIds index doc

instance (exportDir : String) (tree : SourceTree)
    (dropMemoryIds : List String) (index : NativeIndex)
    (doc : DocPlace × SourceFile) :
    Decidable (Fits exportDir tree dropMemoryIds index doc) :=
  inferInstanceAs (Decidable (_ ∧ (_ → ∃ _ ∈ _, _) ∧ _))

theorem read_scrub_eq_some_iff
    (plans : PlansFrom env tree denseMaxDocChars ctx) {path : String}
    {record : FileRecord} :
    (scrubNative ctx index).files.read path = some record ↔
      index.files.read path = some record ∧
        KeepsRecord tree ctx.dropMemoryIds index record.docId := by
  rw [FileTree.read_eq_some_iff, FileTree.read_eq_some_iff,
    mem_files_scrub_iff plans]

theorem removed_after_scrub_iff
    (plans : PlansFrom env tree denseMaxDocChars ctx) {docId : String} :
    docId ∈ (sweepDelta exportDir tree
        (scrubNative ctx index)).removedIds ↔
      ¬∀ file ∈ index.files.rows, file.2.docId = docId →
        KeepsRecord tree ctx.dropMemoryIds index docId →
          ∃ other ∈ exportedDocs tree, other.1.path exportDir = file.1 := by
  rw [mem_removedIds_sweep]
  push Not
  constructor
  · rintro ⟨file, member, rfl, unlisted⟩
    obtain ⟨known, keeps⟩ := (mem_files_scrub_iff plans).mp member
    exact ⟨file, known, rfl, keeps, unlisted⟩
  · rintro ⟨file, known, rfl, keeps, unlisted⟩
    exact ⟨file, (mem_files_scrub_iff plans).mpr ⟨known, keeps⟩, rfl,
      unlisted⟩

/-- The scrub and the next sweep leave an exported file once exactly where the
records fit. -/
theorem textsOf_scrub_sweep_iff
    (plans : PlansFrom env tree denseMaxDocChars ctx)
    (member : doc ∈ exportedDocs tree) :
    ((scrubNative ctx index).sweep exportDir tree).textsOf doc.1.docId =
        [doc.2.content] ↔
      Fits exportDir tree ctx.dropMemoryIds index doc := by
  have texts : (scrubNative ctx index).textsOf doc.1.docId =
      if StaysStored ctx.dropMemoryIds index doc then [doc.2.content]
      else [] := by
    split_ifs with stored
    · exact textsOf_scrub_of_stored plans member stored.1 stored.2
    · apply textsOf_scrub_of_unstored plans
      intro other otherMember same live
      rw [exportedDocs_unique otherMember member same]
      exact fun text => stored ⟨live, text⟩
  have readIff : ∀ record,
      (scrubNative ctx index).files.read (doc.1.path exportDir) =
          some record ↔
        index.files.read (doc.1.path exportDir) = some record ∧
          KeepsRecord tree ctx.dropMemoryIds index record.docId :=
    fun record => read_scrub_eq_some_iff plans
  rw [textsOf_sweep_of_exported member]
  unfold Fits storedTexts
  simp only [Option.mem_toList]
  by_cases elsewhere : doc.1.docId ∈ (sweepDelta exportDir tree
      (scrubNative ctx index)).removedIds
  · rw [if_pos elsewhere]
    have misplaced := (removed_after_scrub_iff plans).mp elsewhere
    exact iff_of_false (by simp) fun fits => misplaced fits.1
  rw [if_neg elsewhere]
  have placed := not_not.mp
    ((removed_after_scrub_iff plans).not.mp elsewhere)
  cases found : (scrubNative ctx index).files.read
      (doc.1.path exportDir) with
  | none =>
      have unrecorded : ∀ record,
          index.files.read (doc.1.path exportDir) = some record →
            ¬KeepsRecord tree ctx.dropMemoryIds index record.docId := by
        intro record known keeps
        rw [(readIff record).mpr ⟨known, keeps⟩] at found
        cases found
      dsimp only
      rw [texts]
      split_ifs with stored
      · refine iff_of_false (by simp) fun fits => ?_
        obtain ⟨record, known, keeps⟩ := fits.2.1 stored
        exact unrecorded record known keeps
      · refine iff_of_true (by simp) ⟨placed, fun text => absurd text stored,
          fun record known keeps => absurd keeps (unrecorded record known)⟩
  | some prior =>
      obtain ⟨known, keeps⟩ := (readIff prior).mp found
      dsimp only
      split_ifs with unchanged
      · rw [texts]
        split_ifs with stored
        · exact iff_of_true rfl ⟨placed, fun _ => ⟨prior, known, keeps⟩,
            fun _ _ _ _ => stored⟩
        · exact iff_of_false (by simp) fun fits =>
            stored (fits.2.2 prior known keeps unchanged)
      · refine iff_of_true rfl ⟨placed, fun _ => ⟨prior, known, keeps⟩, ?_⟩
        intro record otherKnown _ sameTime
        rw [known] at otherKnown
        rw [← Option.some.inj otherKnown] at sameTime
        exact absurd sameTime unchanged

/-- The old text of a dropped memory is not read again while its record
stands. -/
theorem textsOf_scrub_sweep_of_dropped
    (plans : PlansFrom env tree denseMaxDocChars ctx)
    (member : doc ∈ exportedDocs tree)
    (dropped : ¬IsLive ctx.dropMemoryIds doc.1.docId)
    {record : FileRecord}
    (recorded : index.files.read (doc.1.path exportDir) = some record)
    (keeps : KeepsRecord tree ctx.dropMemoryIds index record.docId)
    (unchanged : record.mtimeMs = doc.2.mtimeMs) :
    ((scrubNative ctx index).sweep exportDir tree).textsOf doc.1.docId =
      [] := by
  have found := (read_scrub_eq_some_iff plans).mpr ⟨recorded, keeps⟩
  have texts : (scrubNative ctx index).textsOf doc.1.docId = [] :=
    textsOf_scrub_of_unstored plans fun _ _ _ live => absurd live dropped
  rw [textsOf_sweep_of_exported member, storedTexts, found]
  simp [texts, unchanged]

theorem exported_of_scrub_sweep
    (plans : PlansFrom env tree denseMaxDocChars ctx) {row : DocRow}
    (member : row ∈
      ((scrubNative ctx index).sweep exportDir tree).docs.rows) :
    ∃ doc ∈ exportedDocs tree, doc.1.docId = row.id := by
  by_contra unexported
  push Not at unexported
  have text : row.content ∈
      ((scrubNative ctx index).sweep exportDir tree).textsOf row.id :=
    content_mem_textsOf_iff.mpr ⟨row, member, rfl, rfl⟩
  have scrubbed : (scrubNative ctx index).textsOf row.id = [] :=
    textsOf_scrub_of_unstored plans fun doc docMember same _ =>
      absurd same (unexported doc docMember)
  rw [textsOf_sweep_of_unexported unexported, scrubbed] at text
  split_ifs at text <;> cases text

end Native

end Scrub

section Indexes

variable (env : Environment) (tree : SourceTree) (denseMaxDocChars : Nat)
  (dropMemoryIds : List String)

structure ScrubbedQmd (before after : QmdIndex) : Prop where
  exported : ∀ row ∈ after.documents.rows,
    row.active = 1 ∧ IsLive dropMemoryIds row.path ∧
      ∃ doc ∈ exportedDocs tree, doc.1.collection.name = row.collection ∧
        doc.1.name.1 = row.path ∧
          computeContentHash env doc.2.content = row.hash
  referenced : QmdReferenced after
  vectorsKnown : before.VectorsKnown → after.VectorsKnown

structure ScrubbedNative (after : NativeIndex) : Prop where
  exported : ∀ row ∈ after.docs.rows, IsLive dropMemoryIds row.id ∧
    ∃ doc ∈ exportedDocs tree, doc.1.docId = row.id ∧
      doc.2.content = row.content
  once : (after.docs.rows.map (·.id)).Nodup

structure ScrubbedDense (after : DenseIndex) : Prop where
  exported : ∀ row ∈ after.denseDocs.rows, IsLive dropMemoryIds row.docId ∧
    ∃ doc ∈ exportedDocs tree, doc.1.docId = row.docId ∧
      computeContentHash env
        (leadingUnits doc.2.content denseMaxDocChars) = row.contentHash
  referenced : ∀ rowid ∈ after.denseVec.getD [],
    ∃ row ∈ after.denseDocs.rows, row.rowid = rowid

/-- The sweep after a scrub, from the index before the scrub. -/
structure SweptAfterScrub (exportDir : String)
    (before after : NativeIndex) : Prop where
  restored : ∀ doc ∈ exportedDocs tree,
    (IsLive dropMemoryIds doc.1.docId ∨ Rewritten exportDir before doc) →
      Fits exportDir tree dropMemoryIds before doc →
        after.textsOf doc.1.docId = [doc.2.content]
  notReadded : ∀ doc ∈ exportedDocs tree,
    ¬IsLive dropMemoryIds doc.1.docId →
      ∀ record ∈ before.files.read (doc.1.path exportDir),
        KeepsRecord tree dropMemoryIds before record.docId →
          record.mtimeMs = doc.2.mtimeMs →
            after.textsOf doc.1.docId = []
  exported : ∀ row ∈ after.docs.rows,
    ∃ doc ∈ exportedDocs tree, doc.1.docId = row.id

/-- What a scrub of this tree plans with. -/
def scrubContext (isWord : Char → Bool) : PlanContext where
  truth := loadExportTruth env tree denseMaxDocChars
  isWord := isWord
  dropMemoryIds := dropMemoryIds

end Indexes

def noteContext (tree : SourceTree) (dropMemoryIds : List String) :
    PlanContext :=
  scrubContext plainEnvironment tree defaultDenseMaxDocChars dropMemoryIds
    Char.isAlphanum

def noteRow (rowid : Nat) (content : String) : DocRow where
  rowid := rowid
  id := "qmd://kb-curated/note.md"
  collection := "kb-curated"
  content := content

def noteRecord (mtimeMs : Int) : String × FileRecord :=
  ("/kb-export/curated/note.md",
    { docId := "qmd://kb-curated/note.md"
      mtimeMs := mtimeMs })

def noteIndex (docs : List DocRow)
    (distinct : docs.Pairwise (Table.DistinctKey DocRow.rowid))
    (files : List (String × FileRecord))
    (distinctFiles : files.Pairwise (Table.DistinctKey Prod.fst)) :
    NativeIndex where
  docs :=
    { rows := docs
      coexist := distinct }
  files :=
    { rows := files
      coexist := distinctFiles }

def noteQmd (contentVectors : Option (List QmdVector))
    (vectorsVec : Option (List String)) : QmdIndex where
  documents :=
    { rows :=
        [{ id := 1
           collection := "kb-curated"
           path := "note.md"
           hash := "old"
           active := 0 }]
      coexist := by simp }
  documentsFts := [1]
  content := []
  contentVectors := contentVectors
  vectorsVec := vectorsVec
  llmCache := none

def noteDense : DenseIndex where
  denseDocs :=
    { rows :=
        [{ rowid := 1
           docId := "qmd://kb-curated/note.md"
           contentHash := "old" }]
      coexist := by simp }
  denseVec := none

/-- The note after its memory was moved to the archive. -/
def archivedNoteTree : SourceTree :=
  .write .empty
    { sourceSubdir := "archive"
      name := noteName }
    { content := "one"
      mtimeMs := 1 }

/-- The note as it was recorded under another export directory. -/
def strayRecord : String × FileRecord :=
  ("/old-export/curated/note.md",
    { docId := "qmd://kb-curated/note.md"
      mtimeMs := 1 })

theorem strayRecord_distinct :
    [noteRecord 1, strayRecord].Pairwise (Table.DistinctKey Prod.fst) := by
  decide

theorem threeRows_distinct :
    [noteRow 1 "old", noteRow 2 "one", noteRow 3 "one"].Pairwise
      (Table.DistinctKey DocRow.rowid) := by
  decide

/-- The note once with a stale row and a duplicate, and once with its memory to
be dropped and its file written since. -/
def noteIndexes (docs : List DocRow)
    (distinct : docs.Pairwise (Table.DistinctKey DocRow.rowid))
    (mtimeMs : Int) : IndexTriple where
  qmd := noteQmd (some []) none
  native :=
    noteIndex docs distinct [noteRecord mtimeMs] (List.pairwise_singleton _ _)
  dense := noteDense

def noteDoc : DocPlace × SourceFile :=
  ({ collection :=
       { name := "kb-curated"
         sourceSubdir := "curated" }
     name := noteName },
    { content := "one"
      mtimeMs := 1 })

end Registrar
