import Registrar.Store.Store

/-!
# Import batches

The ledger of imports, and what a rollback deletes by batch.
-/

namespace Registrar

open Program

namespace ImportBatchRepository

def insert (batch : ImportBatch) : StoreM PUnit := fun store =>
  match store.importBatches.insert? batch with
  | some next => .ok ⟨⟩ { store with importBatches := next }
  | none =>
      .error (.sqlite (.uniqueConstraint "import_batches.id")) store

def findById (table : ImportBatchTable) (id : String) : Option ImportBatch :=
  table.find? id

structure BatchCounts where
  fileCount : Nat
  createdCount : Nat
  rejectedCount : Nat
  skippedCount : Nat
  deriving DecidableEq

/-- Rewrite the batch with this id; whether there is one. -/
def rewrite (id : String) (change : ImportBatch → ImportBatch)
    (keepsId : ∀ batch, (change batch).id = batch.id) : StoreM Bool :=
  fun store =>
    .ok (store.importBatches.find? id).isSome
      { store with
        importBatches :=
          store.importBatches.updateWhere (·.id = id) change
            fun batch _ => keepsId batch }

def updateCounts (id : String) (counts : BatchCounts) : StoreM Bool :=
  rewrite id
    (fun batch =>
      { batch with
        fileCount := counts.fileCount
        createdCount := counts.createdCount
        rejectedCount := counts.rejectedCount
        skippedCount := counts.skippedCount })
    fun _ => rfl

def complete (id : String) : StoreM Bool :=
  rewrite id
    (fun batch =>
      { batch with
        status := .completed
        rolledBackAt := none })
    fun _ => rfl

def rollback (id rolledBackAt : String) : StoreM Bool :=
  rewrite id
    (fun batch =>
      { batch with
        status := .rolledBack
        rolledBackAt := some rolledBackAt })
    fun _ => rfl

end ImportBatchRepository

/-- Delete the candidates of a batch; how many there were. -/
def CandidateRepository.deleteByBatch (batchId : String) : StoreM Nat :=
  fun store =>
    let ofBatch (row : CandidateRow) : Bool := row.importBatchId = some batchId
    .ok (store.candidates.rows.countP ofBatch)
      { store with
        candidates := store.candidates.filter (!ofBatch ·) }

/-- Delete the links of a batch; how many there were. -/
def MemoryLinksRepository.deleteByBatch (batchId : String) : StoreM Nat :=
  fun store =>
    let ofBatch (link : MemoryLink) : Bool := link.importBatchId = some batchId
    .ok (store.memoryLinks.rows.countP ofBatch)
      { store with
        memoryLinks := store.memoryLinks.filter (!ofBatch ·) }

end Registrar
