import Registrar.Index.IndexScrub

/-!
# What a scrub leaves

Where the tree exports something, the rows that a scrub leaves are those of
exported files with their exported content, and nothing of a dropped memory.
-/

namespace Registrar

/-- Deleting the rows that are not kept, by their keys, keeps the others. -/
theorem filter_keys_eq {Row Key : Type*} [DecidableEq Key] {key : Row → Key}
    {rows : List Row} (distinct : rows.Pairwise (Table.DistinctKey key))
    (keeps : Row → Bool) :
    rows.filter (fun row =>
        key row ∉ (rows.filter fun row => !keeps row).map key) =
      rows.filter keeps := by
  apply List.filter_congr
  intro row member
  have same : key row ∈ (rows.filter fun row => !keeps row).map key ↔
      keeps row = false := by
    rw [List.mem_map]
    constructor
    · rintro ⟨other, otherMember, sameKey⟩
      obtain ⟨otherMember, deleted⟩ := List.mem_filter.mp otherMember
      have equal : other = row := by
        by_contra different
        exact distinct.forall otherMember member different sameKey
      simpa [equal] using deleted
    · intro deleted
      exact ⟨row, List.mem_filter.mpr ⟨member, by simpa using deleted⟩, rfl⟩
  cases kept : keeps row <;> simp [same, kept]

variable {ctx : PlanContext}

theorem classify_eq_none_iff {memoryPath : String} {matchesExport : Bool}
    (present : ctx.truth.present = true) :
    classify ctx memoryPath matchesExport = none ↔
      memoryIdOfPath memoryPath ∉ ctx.dropMemoryIds ∧
        matchesExport = true := by
  unfold classify
  rw [present]
  split_ifs <;> simp_all

theorem classify_eq_stale_iff {memoryPath : String} {matchesExport : Bool}
    (present : ctx.truth.present = true) :
    classify ctx memoryPath matchesExport = some .stale ↔
      memoryIdOfPath memoryPath ∉ ctx.dropMemoryIds ∧
        matchesExport = false := by
  unfold classify
  rw [present]
  split_ifs <;> simp_all

theorem rows_scrubQmd {index index' : QmdIndex}
    (scrubbed : scrubQmd ctx index = .ok index') :
    index'.documents.rows =
      index.documents.rows.filter (keepsQmdDocument ctx) := by
  unfold scrubQmd QmdPlan.apply at scrubbed
  split at scrubbed
  · cases scrubbed
  · rw [← Except.ok.inj scrubbed]
    exact filter_keys_eq index.documents.coexist (keepsQmdDocument ctx)

/-- Everything that the scrubbed index holds belongs to a document of it. -/
structure QmdReferenced (index : QmdIndex) : Prop where
  fts : ∀ rowid ∈ index.documentsFts,
    ∃ doc ∈ index.documents.rows, doc.id = rowid
  content : ∀ row ∈ index.content,
    ∃ doc ∈ index.documents.rows, doc.hash = row.hash
  vectors : ∀ vector ∈ index.contentVectors.getD [],
    ∃ doc ∈ index.documents.rows, doc.hash = vector.hash

/-- Every stored vector belongs to a vector row. -/
def QmdIndex.VectorsKnown (index : QmdIndex) : Prop :=
  ∀ key ∈ index.vectorsVec.getD [],
    ∃ vector ∈ index.contentVectors.getD [], vector.hashSeq = key

theorem exists_kept_of_notMem_orphans {Key : Type*} [DecidableEq Key]
    {keys kept : List Key} {key : Key}
    (member : key ∈ keys) (notOrphan : key ∉ keys.filter (· ∉ kept)) :
    key ∈ kept := by
  by_contra absent
  exact notOrphan (List.mem_filter.mpr ⟨member, by simpa using absent⟩)

theorem referenced_scrubQmd {index index' : QmdIndex}
    (scrubbed : scrubQmd ctx index = .ok index') :
    QmdReferenced index' := by
  have rows := rows_scrubQmd scrubbed
  have kept : ∀ {Key : Type} [DecidableEq Key] (key : QmdDocument → Key)
      {wanted : Key},
      wanted ∈ (index.documents.rows.filter
        (keepsQmdDocument ctx)).map key →
        ∃ doc ∈ index'.documents.rows, key doc = wanted := by
    intro Key _ key wanted member
    rw [rows]
    exact List.mem_map.mp member
  unfold scrubQmd QmdPlan.apply at scrubbed
  split at scrubbed
  · cases scrubbed
  rename_i vectors isVectors
  have fields := Except.ok.inj scrubbed
  refine
    { fts := ?_
      content := ?_
      vectors := ?_ }
  · intro rowid member
    rw [← fields] at member
    obtain ⟨member, notOrphan⟩ := List.mem_filter.mp member
    exact kept (·.id) (exists_kept_of_notMem_orphans member
      (of_decide_eq_true notOrphan))
  · intro row member
    rw [← fields] at member
    obtain ⟨member, notOrphan⟩ := List.mem_filter.mp member
    exact kept (·.hash) (exists_kept_of_notMem_orphans
      (List.mem_map_of_mem member) (of_decide_eq_true notOrphan))
  · intro vector member
    rw [← fields] at member
    obtain ⟨member, notOrphan⟩ := List.mem_filter.mp member
    have notOrphan := of_decide_eq_true notOrphan
    refine kept (·.hash) ?_
    by_contra unreferenced
    apply notOrphan
    unfold planQmd
    rw [isVectors]
    exact List.mem_filter.mpr ⟨member, by simpa using unreferenced⟩

theorem vectorsKnown_scrubQmd {index index' : QmdIndex}
    (scrubbed : scrubQmd ctx index = .ok index')
    (known : index.VectorsKnown) : index'.VectorsKnown := by
  unfold scrubQmd QmdPlan.apply at scrubbed
  split at scrubbed
  · cases scrubbed
  rename_i vectors isVectors
  have fields := Except.ok.inj scrubbed
  intro key member
  rw [← fields] at member ⊢
  cases isTable : index.vectorsVec with
  | none =>
      rw [isTable] at member
      cases member
  | some keys =>
      rw [isTable] at member
      obtain ⟨member, notOrphan⟩ := List.mem_filter.mp member
      have stored : key ∈ index.vectorsVec.getD [] := by
        rw [isTable]
        exact member
      obtain ⟨vector, vectorMember, rfl⟩ := known key stored
      rw [isVectors] at vectorMember
      refine ⟨vector, List.mem_filter.mpr ⟨vectorMember, ?_⟩, rfl⟩
      refine decide_eq_true fun orphan => ?_
      exact of_decide_eq_true notOrphan (List.mem_map_of_mem orphan)

theorem rows_scrubDense (index : DenseIndex) :
    (scrubDense ctx index).denseDocs.rows =
      index.denseDocs.rows.filter (keepsDenseDoc ctx) :=
  filter_keys_eq index.denseDocs.coexist (keepsDenseDoc ctx)

theorem referenced_scrubDense (index : DenseIndex) :
    ∀ rowid ∈ (scrubDense ctx index).denseVec.getD [],
      ∃ row ∈ (scrubDense ctx index).denseDocs.rows, row.rowid = rowid := by
  intro rowid member
  rw [rows_scrubDense]
  unfold scrubDense DensePlan.apply at member
  cases isTable : index.denseVec with
  | none =>
      rw [isTable] at member
      cases member
  | some rowids =>
      rw [isTable] at member
      obtain ⟨member, notOrphan⟩ := List.mem_filter.mp member
      have notOrphan := of_decide_eq_true notOrphan
      unfold planDense at notOrphan
      rw [isTable] at notOrphan
      exact List.mem_map.mp (exists_kept_of_notMem_orphans member notOrphan)

def matchesNative (ctx : PlanContext) (row : DocRow) : Bool :=
  (ctx.truth.get row.id).map (·.content) = some row.content

/-- The rows that stay, in order. -/
def keptDocs (ctx : PlanContext) (seen : List String) :
    List DocRow → List DocRow
  | [] => []
  | row :: rest =>
      match classify ctx row.id (matchesNative ctx row && row.id ∉ seen) with
      | none => row :: keptDocs ctx (row.id :: seen) rest
      | some _ => keptDocs ctx seen rest

theorem mem_of_mem_deleteRowids {seen : List String} {rows : List DocRow}
    {rowid : Nat} (member : rowid ∈ (scanDocs ctx seen rows).deleteRowids) :
    rowid ∈ rows.map (·.rowid) := by
  induction rows generalizing seen with
  | nil => cases member
  | cons row rest induction =>
      rw [List.map_cons, List.mem_cons]
      unfold scanDocs at member
      split at member
      · exact .inr (induction member)
      all_goals
        rcases List.mem_cons.mp member with rfl | later
        · exact .inl rfl
        · exact .inr (induction later)

theorem filter_deleteRowids {seen : List String} {rows : List DocRow}
    (distinct : rows.Pairwise (Table.DistinctKey DocRow.rowid)) :
    rows.filter (fun row =>
        row.rowid ∉ (scanDocs ctx seen rows).deleteRowids) =
      keptDocs ctx seen rows := by
  induction rows generalizing seen with
  | nil => rfl
  | cons row rest induction =>
      obtain ⟨apart, distinct⟩ := List.pairwise_cons.mp distinct
      have fresh : row.rowid ∉ rest.map (·.rowid) := by
        intro member
        obtain ⟨other, otherMember, same⟩ := List.mem_map.mp member
        exact apart other otherMember same.symm
      -- Deleting this row as well changes nothing for the later ones.
      have later : ∀ seen, rest.filter (fun other =>
            other.rowid ∉ row.rowid ::
              (scanDocs ctx seen rest).deleteRowids) =
          keptDocs ctx seen rest := by
        intro seen
        rw [← induction distinct]
        apply List.filter_congr
        intro other otherMember
        have different : other.rowid ≠ row.rowid := by
          intro same
          exact fresh (same ▸ List.mem_map_of_mem otherMember)
        simp [different]
      unfold scanDocs keptDocs matchesNative
      split
      · rename_i verdict
        rw [verdict]
        dsimp only
        rw [List.filter_cons_of_pos, induction distinct]
        exact decide_eq_true fun member =>
          fresh (mem_of_mem_deleteRowids member)
      all_goals
        rename_i verdict
        rw [verdict]
        dsimp only
        rw [List.filter_cons_of_neg (by simp), later]

theorem rows_scrubNative (index : NativeIndex) :
    (scrubNative ctx index).docs.rows = keptDocs ctx [] index.docs.rows :=
  filter_deleteRowids index.docs.coexist

theorem mem_keptDocs (present : ctx.truth.present = true)
    {seen : List String} {rows : List DocRow} {row : DocRow}
    (member : row ∈ keptDocs ctx seen rows) :
    row ∈ rows ∧ memoryIdOfPath row.id ∉ ctx.dropMemoryIds ∧
      matchesNative ctx row = true ∧ row.id ∉ seen := by
  induction rows generalizing seen with
  | nil => cases member
  | cons first rest induction =>
      unfold keptDocs at member
      split at member
      · rename_i verdict
        obtain ⟨live, matched⟩ := (classify_eq_none_iff present).mp verdict
        rw [Bool.and_eq_true, decide_eq_true_eq] at matched
        rcases List.mem_cons.mp member with rfl | later
        · exact ⟨List.mem_cons_self, live, matched.1, matched.2⟩
        · obtain ⟨known, live, matched, unseen⟩ := induction later
          rw [List.mem_cons, not_or] at unseen
          exact ⟨List.mem_cons_of_mem _ known, live, matched, unseen.2⟩
      · obtain ⟨known, rest⟩ := induction member
        exact ⟨List.mem_cons_of_mem _ known, rest⟩

theorem nodup_keptDocs (present : ctx.truth.present = true)
    (seen : List String) (rows : List DocRow) :
    ((keptDocs ctx seen rows).map (·.id)).Nodup := by
  induction rows generalizing seen with
  | nil => exact List.nodup_nil
  | cons first rest induction =>
      unfold keptDocs
      split
      · rw [List.map_cons, List.nodup_cons]
        refine ⟨fun member => ?_, induction _⟩
        obtain ⟨row, rowMember, same⟩ := List.mem_map.mp member
        obtain ⟨-, -, -, unseen⟩ := mem_keptDocs present rowMember
        exact unseen (same ▸ List.mem_cons_self)
      · exact induction seen

theorem exists_keptDoc (present : ctx.truth.present = true)
    {seen : List String} {rows : List DocRow} {row : DocRow}
    (member : row ∈ rows)
    (live : memoryIdOfPath row.id ∉ ctx.dropMemoryIds)
    (matched : matchesNative ctx row = true) (unseen : row.id ∉ seen) :
    ∃ kept ∈ keptDocs ctx seen rows, kept.id = row.id := by
  induction rows generalizing seen with
  | nil => cases member
  | cons first rest induction =>
      unfold keptDocs
      split
      · rename_i verdict
        by_cases here : row.id = first.id
        · exact ⟨first, List.mem_cons_self, here.symm⟩
        · rcases List.mem_cons.mp member with rfl | later
          · exact absurd rfl here
          · have fresh : row.id ∉ first.id :: seen := by simp [here, unseen]
            obtain ⟨kept, keptMember, same⟩ := induction later fresh
            exact ⟨kept, List.mem_cons_of_mem _ keptMember, same⟩
      · rename_i verdict
        rcases List.mem_cons.mp member with rfl | later
        · have stays := (classify_eq_none_iff present).mpr
            ⟨live, (by simp [matched, unseen] :
              (matchesNative ctx row && row.id ∉ seen) = true)⟩
          rw [stays] at verdict
          cases verdict
        · exact induction later unseen

theorem mem_scan_seen {seen : List String} {rows : List DocRow}
    {docId : String} :
    docId ∈ (scanDocs ctx seen rows).seen ↔
      docId ∈ seen ∨ docId ∈ (keptDocs ctx seen rows).map (·.id) := by
  induction rows generalizing seen with
  | nil => simp [scanDocs, keptDocs]
  | cons first rest induction =>
      unfold scanDocs keptDocs matchesNative
      split
      · rename_i verdict
        rw [verdict]
        simp only [induction, List.mem_cons, List.map_cons]
        tauto
      all_goals
        rename_i verdict
        rw [verdict]
        exact induction

theorem mem_scan_dropped (present : ctx.truth.present = true)
    {seen : List String} {rows : List DocRow} {docId : String}
    (member : docId ∈ (scanDocs ctx seen rows).dropFileDocIds) :
    docId ∈ rows.map (·.id) ∧
      memoryIdOfPath docId ∉ ctx.dropMemoryIds := by
  induction rows generalizing seen with
  | nil => cases member
  | cons first rest induction =>
      rw [List.map_cons, List.mem_cons]
      unfold scanDocs at member
      split at member
      · exact (induction member).imp_left .inr
      · exact (induction member).imp_left .inr
      · rename_i verdict
        obtain ⟨live, -⟩ := (classify_eq_stale_iff present).mp verdict
        rcases List.mem_cons.mp member with rfl | later
        · exact ⟨.inl rfl, live⟩
        · exact (induction later).imp_left .inr

theorem mem_scan_dropped_of_stale (present : ctx.truth.present = true)
    {seen : List String} {rows : List DocRow} {row : DocRow}
    (member : row ∈ rows)
    (live : memoryIdOfPath row.id ∉ ctx.dropMemoryIds)
    (unmatched : matchesNative ctx row = false) :
    row.id ∈ (scanDocs ctx seen rows).dropFileDocIds := by
  have verdict : ∀ seen : List String, classify ctx row.id
      (matchesNative ctx row && row.id ∉ seen) = some .stale :=
    fun seen => (classify_eq_stale_iff present).mpr
      ⟨live, by rw [unmatched, Bool.false_and]⟩
  induction rows generalizing seen with
  | nil => cases member
  | cons first rest induction =>
      rcases List.mem_cons.mp member with rfl | later
      · have stale := verdict seen
        unfold matchesNative at stale
        unfold scanDocs
        rw [stale]
        exact List.mem_cons_self
      · unfold scanDocs
        split
        · exact induction later
        · exact induction later
        · exact List.mem_cons_of_mem _ (induction later)

/-- The record of a document goes if the document has rows and none of them
stays. -/
theorem mem_dropFileDocIds_iff (present : ctx.truth.present = true)
    {index : NativeIndex} {docId : String} :
    docId ∈ (planNative ctx index).dropFileDocIds ↔
      memoryIdOfPath docId ∉ ctx.dropMemoryIds ∧
        (∃ row ∈ index.docs.rows, row.id = docId) ∧
        ∀ row ∈ index.docs.rows, row.id = docId →
          matchesNative ctx row = false := by
  have unseen : docId ∉ (scanDocs ctx [] index.docs.rows).seen ↔
      docId ∉ (keptDocs ctx [] index.docs.rows).map (·.id) := by
    rw [mem_scan_seen]
    simp
  unfold planNative
  rw [List.mem_filter, decide_eq_true_eq, unseen]
  constructor
  · rintro ⟨dropped, notKept⟩
    obtain ⟨known, live⟩ := mem_scan_dropped present dropped
    refine ⟨live, List.mem_map.mp known, fun row member same => ?_⟩
    rw [← Bool.not_eq_true]
    intro matched
    obtain ⟨kept, keptMember, keptSame⟩ := exists_keptDoc present member
      (same ▸ live) matched List.not_mem_nil
    exact notKept (List.mem_map.mpr
      ⟨kept, keptMember, keptSame.trans same⟩)
  · rintro ⟨live, ⟨row, member, rfl⟩, unmatched⟩
    refine ⟨mem_scan_dropped_of_stale present member live
      (unmatched row member rfl), fun kept => ?_⟩
    obtain ⟨other, otherMember, same⟩ := List.mem_map.mp kept
    obtain ⟨known, -, matched, -⟩ := mem_keptDocs present otherMember
    rw [unmatched other known same] at matched
    cases matched

end Registrar
