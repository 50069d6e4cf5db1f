import Registrar.Search.DenseTables

/-!
# Writes to the dense index

An upsert or a removal leaves the tables sound.  On the way the rows keep
belonging together as well, unless a vector of another length makes the index
drop what it holds.
-/

namespace Registrar

namespace DenseTables

variable {tables : DenseTables}

theorem Linked.deleteDocs (linked : tables.Linked) (docIds : List String) :
    DenseTables.Linked (docIds.foldl DenseDb.deleteDoc tables) := by
  induction docIds generalizing tables with
  | nil => exact linked
  | cons docId docIds induction => exact induction (linked.deleteDoc docId)

theorem vecs_deleteDoc_subset (tables : DenseTables) (docId : String) :
    (DenseDb.deleteDoc tables docId).vecs ⊆ tables.vecs := by
  unfold DenseDb.deleteDoc
  split
  · exact List.Subset.refl _
  · exact fun vec => List.mem_of_mem_filter

theorem vecs_deleteDocs_subset (docIds : List String) :
    (docIds.foldl DenseDb.deleteDoc tables).vecs ⊆ tables.vecs := by
  induction docIds generalizing tables with
  | nil => exact List.Subset.refl _
  | cons docId docIds induction =>
      exact fun vec member =>
        vecs_deleteDoc_subset tables docId (induction member)

theorem holds_deleteDocs (linked : tables.Linked) {docIds : List String}
    {docId contentHash : String} {embedding : Embedding} :
    DenseTables.Holds (docIds.foldl DenseDb.deleteDoc tables) docId
        contentHash embedding ↔
      docId ∉ docIds ∧ tables.Holds docId contentHash embedding := by
  induction docIds generalizing tables with
  | nil => simp
  | cons first docIds induction =>
      rw [List.foldl_cons, induction (linked.deleteDoc first),
        holds_deleteDoc linked, List.mem_cons, not_or]
      tauto

theorem mem_docIds_deleteDocs (linked : tables.Linked) {docIds : List String}
    {docId : String} :
    docId ∈ (docIds.foldl DenseDb.deleteDoc tables).docs.map
        DenseDocRow.docId ↔
      docId ∉ docIds ∧ docId ∈ tables.docs.map DenseDocRow.docId := by
  induction docIds generalizing tables with
  | nil => simp
  | cons first docIds induction =>
      rw [List.foldl_cons, induction (linked.deleteDoc first),
        mem_docIds_deleteDoc linked, List.mem_cons, not_or]
      tauto

end DenseTables

namespace DenseDb

variable {db : DenseDb}

theorem storedHash_eq_some (sound : db.Sound) {docId contentHash : String} :
    db.storedHash docId = some contentHash ↔
      ∃ row ∈ db.docs, row.docId = docId ∧ row.contentHash = contentHash := by
  unfold storedHash docRow?
  constructor
  · intro stored
    obtain ⟨row, found, hash⟩ := Option.map_eq_some_iff.mp stored
    have named : row.docId = docId := by simpa using List.find?_some found
    exact ⟨row, List.mem_of_find?_eq_some found, named, hash⟩
  · rintro ⟨row, member, rfl, rfl⟩
    cases found : db.docs.find? (·.docId = row.docId) with
    | none =>
        have missing := List.find?_eq_none.mp found row member
        simp at missing
    | some first =>
        have named : first.docId = row.docId := by
          simpa using List.find?_some found
        rw [List.inj_on_of_nodup_map sound.linked.docIds
          (List.mem_of_find?_eq_some found) member named]
        rfl

theorem Sound.exists_holds (sound : db.Sound) {docId contentHash : String}
    (stored : db.storedHash docId = some contentHash) :
    ∃ embedding, db.Holds docId contentHash embedding := by
  obtain ⟨row, member, named, hash⟩ := (storedHash_eq_some sound).mp stored
  have tied := (sound.linked.sameRowIds row.rowid).mp
    (List.mem_map_of_mem member)
  obtain ⟨vec, isVec, same⟩ := List.mem_map.mp tied
  exact ⟨vec.embedding, row, member, named, hash, vec, isVec, same, rfl⟩

theorem storedHash_of_holds (sound : db.Sound) {docId contentHash : String}
    {embedding : Embedding} (holds : db.Holds docId contentHash embedding) :
    db.storedHash docId = some contentHash := by
  obtain ⟨row, member, named, hash, -⟩ := holds
  exact (storedHash_eq_some sound).mpr ⟨row, member, named, hash⟩

theorem Sound.remove (sound : db.Sound) (docIds : List String) :
    (db.remove docIds).db.Sound where
  linked := sound.linked.deleteDocs docIds
  sized vec member :=
    sound.sized vec (DenseTables.vecs_deleteDocs_subset docIds member)

theorem sameRowIds_remove (sound : db.Sound) (docIds : List String) :
    ∀ moment ∈ (db.remove docIds).moments, moment.SameRowIds := by
  intro moment member
  rw [List.mem_singleton.mp member]
  exact (sound.linked.deleteDocs docIds).sameRowIds

/-- Rows are stored, with vectors of this length. -/
def Settled (db : DenseDb) (length : Nat) : Prop :=
  db.vecs ≠ [] ∧ db.dims = some length

theorem Settled.fits_iff {length other : Nat} (settled : db.Settled length) :
    db.Fits other ↔ other = length := by
  obtain ⟨stored, dims⟩ := settled
  simp [Fits, stored, dims, eq_comm]

theorem Settled.unique {length other : Nat} (settled : db.Settled length)
    (settled' : db.Settled other) : length = other :=
  Option.some_inj.mp (settled.2.symm.trans settled'.2)

theorem dims_ensureVecTable (db : DenseDb) (length : Nat) :
    (db.ensureVecTable length).db.dims = some length := by
  unfold ensureVecTable
  split_ifs with same
  · exact same
  · rfl

theorem Sound.ensureVecTable (sound : db.Sound) (length : Nat) :
    (db.ensureVecTable length).db.Sound := by
  by_cases fits : db.Fits length
  · rw [(ensureVecTable_of_fits sound fits).1]
    refine ⟨sound.linked, fun vec member => ?_⟩
    rcases fits with noVecs | same
    · rw [show db.vecs = [] from noVecs] at member
      cases member
    · exact same ▸ sound.sized vec member
  · obtain ⟨stored, other⟩ := not_or.mp fits
    obtain ⟨vec, member⟩ := List.exists_mem_of_ne_nil _ stored
    have dims := sound.sized vec member
    have wiped : (db.ensureVecTable length).db =
        { docs := []
          vecs := []
          dims := some length } := by
      rw [DenseDb.ensureVecTable, if_neg other, dims]
      rfl
    rw [wiped]
    exact ⟨.nil, fun _ member => absurd member List.not_mem_nil⟩

theorem Sound.upsert (sound : db.Sound) (doc : DenseRow) :
    (db.upsert doc).db.Sound := by
  have sized := sound.ensureVecTable doc.embedding.length
  have left := sized.linked.deleteDoc doc.docId
  constructor
  · refine left.append rfl ?_ ?_
    · intro row member
      exact (lt_nextRowid member).ne
    · intro row member
      have present := List.mem_map_of_mem (f := DenseDocRow.docId) member
      exact ((DenseTables.mem_docIds_deleteDoc sized.linked).mp present).1
  · intro vec member
    rcases List.mem_append.mp member with old | new
    · exact sized.sized vec (DenseTables.vecs_deleteDoc_subset _ _ old)
    · rw [List.mem_singleton.mp new]
      exact dims_ensureVecTable db _

theorem settled_upsert (db : DenseDb) (doc : DenseRow) :
    (db.upsert doc).db.Settled doc.embedding.length :=
  ⟨List.append_ne_nil_of_right_ne_nil _ (List.cons_ne_nil _ _),
    dims_ensureVecTable db _⟩

theorem holds_upsert_self (db : DenseDb) (doc : DenseRow) :
    (db.upsert doc).db.Holds doc.docId doc.contentHash doc.embedding :=
  ⟨_, List.mem_append_right _ (List.mem_singleton_self _), rfl, rfl, _,
    List.mem_append_right _ (List.mem_singleton_self _), rfl, rfl⟩

theorem mem_docIds_upsert (sound : db.Sound) {doc : DenseRow} {docId : String}
    (fits : db.Fits doc.embedding.length)
    (member : docId ∈ (db.upsert doc).db.docs.map DenseDocRow.docId) :
    docId = doc.docId ∨ docId ∈ db.docs.map DenseDocRow.docId := by
  obtain ⟨row, isRow, rfl⟩ := List.mem_map.mp member
  rcases List.mem_append.mp isRow with old | new
  · have sized := sound.ensureVecTable doc.embedding.length
    have present := List.mem_map_of_mem (f := DenseDocRow.docId) old
    have before :=
      ((DenseTables.mem_docIds_deleteDoc sized.linked).mp present).2
    rw [(ensureVecTable_of_fits sound fits).1] at before
    exact .inr before
  · rw [List.mem_singleton.mp new]
    exact .inl rfl

theorem holds_upsert_of_ne (sound : db.Sound) {doc : DenseRow}
    (fits : db.Fits doc.embedding.length) {docId contentHash : String}
    {embedding : Embedding} (other : docId ≠ doc.docId)
    (holds : db.Holds docId contentHash embedding) :
    (db.upsert doc).db.Holds docId contentHash embedding := by
  have sized := sound.ensureVecTable doc.embedding.length
  have same := (ensureVecTable_of_fits sound fits).1
  have before :
      (db.ensureVecTable doc.embedding.length).db.Holds docId contentHash
        embedding := by
    rwa [same]
  obtain ⟨row, isRow, named, hash, vec, isVec, rest⟩ :=
    (DenseTables.holds_deleteDoc sized.linked).mpr ⟨other, before⟩
  exact ⟨row, List.mem_append_left _ isRow, named, hash, vec,
    List.mem_append_left _ isVec, rest⟩

theorem sameRowIds_upsert_iff (sound : db.Sound) (doc : DenseRow) :
    (∀ moment ∈ (db.upsert doc).moments, moment.SameRowIds) ↔
      db.Fits doc.embedding.length := by
  constructor
  · intro aligned
    by_contra unfit
    obtain ⟨moment, member, broken⟩ := exists_moment_of_not_fits unfit sound
    exact broken (aligned moment (List.mem_append_left _ member))
  · intro fits moment member
    rcases List.mem_append.mp member with early | last
    · exact (ensureVecTable_of_fits sound fits).2 moment early
    · rw [List.mem_singleton.mp last]
      exact (sound.upsert doc).linked.sameRowIds

end DenseDb

end Registrar
