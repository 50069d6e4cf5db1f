import Registrar.Search.DenseIndexer

/-!
# The tables of the dense index

A document's row and its vector's row, in two tables, tied by their row id.
Writes that are not one transaction leave states between them, which another
connection or a restart can see; each operation lists the states it leaves.
-/

namespace Registrar

structure DenseDocRow where
  rowid : Nat
  docId : String
  collection : String
  contentHash : String
  snippet : String
  deriving DecidableEq, Repr

structure DenseVecRow where
  rowid : Nat
  collection : String
  embedding : Embedding
  deriving DecidableEq, Repr

structure DenseTables where
  docs : List DenseDocRow
  vecs : List DenseVecRow
  deriving DecidableEq, Repr

/-- The tables, with the dimension that the table of vectors was made for. -/
structure DenseDb extends DenseTables where
  dims : Option Nat
  deriving DecidableEq, Repr

/-- What an operation leaves, and the states of the tables on the way. -/
structure DenseWrite where
  db : DenseDb
  moments : List DenseTables

namespace DenseDb

/-- The row id that SQLite gives to the next row. -/
def nextRowid (docs : List DenseDocRow) : Nat :=
  (docs.map DenseDocRow.rowid).foldr max 0 + 1

def docRow? (db : DenseDb) (docId : String) : Option DenseDocRow :=
  db.docs.find? (·.docId = docId)

/-- Both rows of a document, as part of a transaction. -/
def deleteDoc (tables : DenseTables) (docId : String) : DenseTables :=
  match tables.docs.find? (·.docId = docId) with
  | none => tables
  | some prior =>
      { docs := tables.docs.filter (·.rowid ≠ prior.rowid)
        vecs := tables.vecs.filter (·.rowid ≠ prior.rowid) }

/-- Two statements, each committed by itself. -/
def wipe (db : DenseDb) : DenseWrite where
  db :=
    { docs := []
      vecs := []
      dims := none }
  moments :=
    [{ docs := []
       vecs := db.vecs },
      { docs := []
        vecs := [] }]

def ensureVecTable (db : DenseDb) (dims : Nat) : DenseWrite :=
  if db.dims = some dims then
    { db := db
      moments := [] }
  else
    let wiped : DenseWrite :=
      match db.dims with
      | none =>
          { db := db
            moments := [] }
      | some _ => db.wipe
    { db := { wiped.db with dims := some dims }
      moments := wiped.moments }

/-- One transaction, behind the making of the table. -/
def upsert (db : DenseDb) (doc : DenseRow) : DenseWrite :=
  let sized := db.ensureVecTable doc.embedding.length
  let left := deleteDoc sized.db.toDenseTables doc.docId
  let rowid := nextRowid left.docs
  let tables : DenseTables :=
    { docs := left.docs ++
        [{ rowid := rowid
           docId := doc.docId
           collection := doc.collection
           contentHash := doc.contentHash
           snippet := doc.snippet }]
      vecs := left.vecs ++
        [{ rowid := rowid
           collection := doc.collection
           embedding := doc.embedding }] }
  { db :=
      { tables with
        dims := sized.db.dims }
    moments := sized.moments ++ [tables] }

/-- One transaction. -/
def remove (db : DenseDb) (docIds : List String) : DenseWrite :=
  let tables := docIds.foldl deleteDoc db.toDenseTables
  { db :=
      { tables with
        dims := db.dims }
    moments := [tables] }

def storedHash (db : DenseDb) (docId : String) : Option String :=
  (db.docRow? docId).map DenseDocRow.contentHash

end DenseDb

def DenseTables.SameRowIds (tables : DenseTables) : Prop :=
  ∀ rowid, rowid ∈ tables.docs.map DenseDocRow.rowid ↔
    rowid ∈ tables.vecs.map DenseVecRow.rowid

/-- What holds of the tables between two operations. -/
structure DenseTables.Linked (tables : DenseTables) : Prop where
  aligned : tables.docs.map DenseDocRow.rowid =
    tables.vecs.map DenseVecRow.rowid
  rowids : (tables.docs.map DenseDocRow.rowid).Nodup
  docIds : (tables.docs.map DenseDocRow.docId).Nodup

/-- Every vector has the dimension of its table. -/
structure DenseDb.Sound (db : DenseDb) : Prop where
  linked : db.toDenseTables.Linked
  sized : ∀ vec ∈ db.vecs, db.dims = some vec.embedding.length

namespace DenseTables.Linked

variable {tables : DenseTables}

theorem nil : DenseTables.Linked ⟨[], []⟩ where
  aligned := rfl
  rowids := List.nodup_nil
  docIds := List.nodup_nil

theorem filter (linked : tables.Linked) (kept : Nat → Bool) :
    DenseTables.Linked
      ⟨tables.docs.filter (kept ·.rowid), tables.vecs.filter (kept ·.rowid)⟩ := by
  have docs : (tables.docs.filter (kept ·.rowid)).map DenseDocRow.rowid =
      (tables.docs.map DenseDocRow.rowid).filter kept := by
    rw [List.filter_map]
    rfl
  have vecs : (tables.vecs.filter (kept ·.rowid)).map DenseVecRow.rowid =
      (tables.vecs.map DenseVecRow.rowid).filter kept := by
    rw [List.filter_map]
    rfl
  constructor
  · rw [docs, vecs, linked.aligned]
  · rw [docs]
    exact linked.rowids.filter _
  · exact linked.docIds.sublist (List.filter_sublist.map _)

/-- A document's rows are deleted by its id. -/
theorem deleteDoc_eq (linked : tables.Linked) (docId : String) :
    ∃ kept : Nat → Bool,
      DenseDb.deleteDoc tables docId =
          ⟨tables.docs.filter (kept ·.rowid), tables.vecs.filter (kept ·.rowid)⟩ ∧
        ∀ row ∈ tables.docs, kept row.rowid = true ↔ row.docId ≠ docId := by
  unfold DenseDb.deleteDoc
  cases found : tables.docs.find? (·.docId = docId) with
  | none =>
      refine ⟨fun _ => true, by simp, fun row member => ?_⟩
      have other := List.find?_eq_none.mp found row member
      simpa using other
  | some prior =>
      refine ⟨fun rowid => decide (rowid ≠ prior.rowid), rfl, ?_⟩
      intro row member
      have named : prior.docId = docId := by simpa using List.find?_some found
      have isRow := List.mem_of_find?_eq_some found
      rw [decide_eq_true_eq, not_iff_not]
      constructor
      · intro same
        rw [← named, List.inj_on_of_nodup_map linked.rowids member isRow same]
      · intro same
        rw [List.inj_on_of_nodup_map linked.docIds member isRow
          (same.trans named.symm)]

theorem deleteDoc (linked : tables.Linked) (docId : String) :
    (DenseDb.deleteDoc tables docId).Linked := by
  obtain ⟨kept, deleted, -⟩ := linked.deleteDoc_eq docId
  rw [deleted]
  exact linked.filter kept

theorem sameRowIds (linked : tables.Linked) : tables.SameRowIds := by
  intro rowid
  rw [linked.aligned]

theorem docs_eq_nil (linked : tables.Linked) (noVecs : tables.vecs = []) :
    tables.docs = [] := by
  have aligned := linked.aligned
  rw [noVecs] at aligned
  exact List.map_eq_nil_iff.mp aligned

/-- A transaction's rows under a fresh row id. -/
theorem append (linked : tables.Linked) {doc : DenseDocRow} {vec : DenseVecRow}
    (same : vec.rowid = doc.rowid)
    (fresh : ∀ row ∈ tables.docs, row.rowid ≠ doc.rowid)
    (named : ∀ row ∈ tables.docs, row.docId ≠ doc.docId) :
    DenseTables.Linked ⟨tables.docs ++ [doc], tables.vecs ++ [vec]⟩ where
  aligned := by
    simp [linked.aligned, same]
  rowids := by
    rw [List.map_append, List.nodup_append]
    refine ⟨linked.rowids, List.nodup_singleton _, ?_⟩
    intro rowid member other isNew
    obtain ⟨row, isRow, rfl⟩ := List.mem_map.mp member
    rw [List.mem_singleton.mp isNew]
    exact fresh row isRow
  docIds := by
    rw [List.map_append, List.nodup_append]
    refine ⟨linked.docIds, List.nodup_singleton _, ?_⟩
    intro docId member other isNew
    obtain ⟨row, isRow, rfl⟩ := List.mem_map.mp member
    rw [List.mem_singleton.mp isNew]
    exact named row isRow

end DenseTables.Linked

/-- The document has a row with this hash and, tied to it, this vector. -/
def DenseTables.Holds (tables : DenseTables) (docId contentHash : String)
    (embedding : Embedding) : Prop :=
  ∃ row ∈ tables.docs, row.docId = docId ∧ row.contentHash = contentHash ∧
    ∃ vec ∈ tables.vecs, vec.rowid = row.rowid ∧ vec.embedding = embedding

namespace DenseTables

variable {tables : DenseTables}

theorem holds_deleteDoc (linked : tables.Linked)
    {docId other contentHash : String} {embedding : Embedding} :
    (DenseDb.deleteDoc tables docId).Holds other contentHash embedding ↔
      other ≠ docId ∧ tables.Holds other contentHash embedding := by
  obtain ⟨kept, deleted, spec⟩ := linked.deleteDoc_eq docId
  rw [deleted]
  constructor
  · rintro ⟨row, member, rfl, hash, vec, isVec, rowid, same⟩
    obtain ⟨isRow, keeps⟩ := List.mem_filter.mp member
    exact ⟨(spec row isRow).mp keeps, row, isRow, rfl, hash, vec,
      List.mem_of_mem_filter isVec, rowid, same⟩
  · rintro ⟨different, row, isRow, rfl, hash, vec, isVec, rowid, same⟩
    have keeps := (spec row isRow).mpr different
    exact ⟨row, List.mem_filter.mpr ⟨isRow, keeps⟩, rfl, hash, vec,
      List.mem_filter.mpr ⟨isVec, by rwa [rowid]⟩, rowid, same⟩

theorem mem_docIds_deleteDoc (linked : tables.Linked) {docId other : String} :
    other ∈ (DenseDb.deleteDoc tables docId).docs.map DenseDocRow.docId ↔
      other ≠ docId ∧ other ∈ tables.docs.map DenseDocRow.docId := by
  obtain ⟨kept, deleted, spec⟩ := linked.deleteDoc_eq docId
  rw [deleted]
  constructor
  · intro member
    obtain ⟨row, isRow, rfl⟩ := List.mem_map.mp member
    obtain ⟨isRow, keeps⟩ := List.mem_filter.mp isRow
    exact ⟨(spec row isRow).mp keeps, List.mem_map_of_mem isRow⟩
  · rintro ⟨different, member⟩
    obtain ⟨row, isRow, rfl⟩ := List.mem_map.mp member
    exact List.mem_map_of_mem (List.mem_filter.mpr
      ⟨isRow, (spec row isRow).mpr different⟩)

end DenseTables

namespace DenseDb

theorem lt_nextRowid {docs : List DenseDocRow} {row : DenseDocRow}
    (member : row ∈ docs) : row.rowid < nextRowid docs := by
  have bound : row.rowid ≤ (docs.map DenseDocRow.rowid).foldr max 0 := by
    induction docs with
    | nil => cases member
    | cons first docs induction =>
        rw [List.map_cons, List.foldr_cons]
        rcases List.mem_cons.mp member with rfl | later
        · exact Nat.le_max_left _ _
        · exact (induction later).trans (Nat.le_max_right _ _)
  exact Nat.lt_succ_of_le bound

/-- Vectors of this length can join the stored ones. -/
def Fits (db : DenseDb) (length : Nat) : Prop :=
  db.vecs = [] ∨ db.dims = some length

variable {db : DenseDb}

theorem ensureVecTable_of_fits (sound : db.Sound) {length : Nat}
    (fits : db.Fits length) :
    (db.ensureVecTable length).db = { db with dims := some length } ∧
      ∀ moment ∈ (db.ensureVecTable length).moments, moment.SameRowIds := by
  unfold ensureVecTable
  split
  · rename_i same
    refine ⟨?_, nofun⟩
    obtain ⟨tables, dims⟩ := db
    rw [show dims = some length from same]
  · rename_i other
    have noVecs := fits.resolve_right other
    have noDocs := sound.linked.docs_eq_nil noVecs
    cases db.dims with
    | none => exact ⟨rfl, nofun⟩
    | some dims =>
        refine ⟨?_, ?_⟩
        · obtain ⟨⟨docs, vecs⟩, dims⟩ := db
          obtain rfl : docs = [] := noDocs
          obtain rfl : vecs = [] := noVecs
          rfl
        · intro moment member
          have empty : moment = ⟨[], []⟩ := by
            simpa [wipe, noVecs] using member
          rw [empty]
          exact fun _ => Iff.rfl

theorem exists_moment_of_not_fits {length : Nat} (unfit : ¬ db.Fits length)
    (sound : db.Sound) :
    ∃ moment ∈ (db.ensureVecTable length).moments, ¬ moment.SameRowIds := by
  obtain ⟨stored, other⟩ := not_or.mp unfit
  obtain ⟨vec, member⟩ := List.exists_mem_of_ne_nil _ stored
  have dims := sound.sized vec member
  refine ⟨⟨[], db.vecs⟩, ?_, fun same => ?_⟩
  · rw [ensureVecTable, if_neg other, dims]
    exact List.mem_cons_self
  · have tied := (same vec.rowid).mpr (List.mem_map_of_mem member)
    cases tied

end DenseDb

end Registrar
