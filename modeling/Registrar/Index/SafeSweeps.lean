import Registrar.Index.EnsureFresh

/-!
# Sweeps that keep the two tables together

A sweep records what it wrote only in its last transaction.  The tables stay
consistent when no two sweeps work against each other on one document, no sweep
dies between a new document and its record, all sweeps name a file by the same
path, and modification times do not come back.
-/

namespace Registrar

open Transition

/-- What a sweep is about to do with a document. -/
inductive Intent where
  | insert
  | replace (mtimeMs : Int)
  | remove
  deriving DecidableEq, Repr

/-- Two sweeps may do this with the same document. -/
def Intent.Compatible (left right : Intent) : Prop :=
  left = right ∧ left ≠ .insert

instance (left right : Intent) : Decidable (left.Compatible right) :=
  inferInstanceAs (Decidable (_ ∧ _))

def PlannedFile.intent (planned : PlannedFile) : String × Intent :=
  (planned.seen.place.docId,
    if planned.isNew then .insert else .replace planned.seen.mtimeMs)

def RemovedFile.intent (removed : RemovedFile) : String × Intent :=
  (removed.docId, .remove)

namespace SweepPhase

/-- The files that the sweep is still to read. -/
def pending : SweepPhase → List PlannedFile
  | .reading pending _ => pending
  | _ => []

def delta : SweepPhase → SweepDelta
  | .idle | .listing _ _ _ =>
      { reads := []
        toRemove := [] }
  | .reading _ delta | .inserting delta | .replacing delta |
    .removing delta | .recording delta => delta

/-- The files that the sweep stores, from the selection of the records to its
end. -/
def puts (phase : SweepPhase) : List PlannedFile :=
  phase.delta.reads.map ReadFile.planned ++ phase.pending

def intents (phase : SweepPhase) : List (String × Intent) :=
  phase.puts.map PlannedFile.intent ++
    phase.delta.toRemove.map RemovedFile.intent

/-- The transaction that inserts has run. -/
def hasInserted : SweepPhase → Bool
  | .replacing _ | .removing _ | .recording _ => true
  | _ => false

/-- The transaction that replaces has run. -/
def hasReplaced : SweepPhase → Bool
  | .removing _ | .recording _ => true
  | _ => false

/-- The transaction that removes has run. -/
def hasRemoved : SweepPhase → Bool
  | .recording _ => true
  | _ => false

end SweepPhase

/-- No document of one sweep is in the way of the other sweep. -/
def CompatibleIntents (left right : List (String × Intent)) : Prop :=
  ∀ mine ∈ left, ∀ other ∈ right,
    mine.1 = other.1 → mine.2.Compatible other.2

instance (left right : List (String × Intent)) :
    Decidable (CompatibleIntents left right) :=
  inferInstanceAs (Decidable (∀ mine ∈ _, ∀ other ∈ _, _ → _))

namespace IndexSystem

/-- The modification times that the records and the sweeps under way know of a
document. -/
def remembered (system : IndexSystem) : List (String × Int) :=
  (system.index.files.rows.map fun file => (file.2.docId, file.2.mtimeMs)) ++
    system.managers.flatMap fun manager =>
      manager.phase.delta.reads.map fun read => (read.docId, read.mtimeMs)

/-- The manager at this position is about to compare its listing with the
records, and may go on. -/
def MaySelect (system : IndexSystem) (position : Nat)
    (manager : NativeIndexManager) : Prop :=
  match manager.phase with
  | .listing [] [] onDisk =>
      -- Removal goes by document id, so a record under another path must not
      -- name a listed document.
      (∀ removed ∈ missingFiles manager.exportDir system.index onDisk,
        ∀ seen ∈ onDisk, seen.place.docId ≠ removed.docId) ∧
      ∀ other ∈ system.managers.eraseIdx position,
        CompatibleIntents
          (manager.phase.advance manager.exportDir system.tree
            system.index).2.intents
          other.phase.intents
  | _ => True

instance (system : IndexSystem) (position : Nat)
    (manager : NativeIndexManager) :
    Decidable (system.MaySelect position manager) := by
  unfold MaySelect
  split <;> infer_instance

/-- The sweep may end here without its record. -/
def MayCrash (system : IndexSystem) (phase : SweepPhase) : Prop :=
  (phase.hasInserted → phase.delta.toInsert = []) ∧
    (phase.hasRemoved → ∀ removed ∈ phase.delta.toRemove,
      ∀ doc ∈ exportedDocs system.tree, doc.1.docId = removed.docId →
        ¬system.index.Records removed.docId doc.2.mtimeMs)

instance (index : NativeIndex) (docId : String) (mtimeMs : Int) :
    Decidable (index.Records docId mtimeMs) :=
  inferInstanceAs (Decidable (∃ file ∈ _, _))

instance (system : IndexSystem) (phase : SweepPhase) :
    Decidable (system.MayCrash phase) :=
  inferInstanceAs (Decidable ((_ → _) ∧ (_ → ∀ _ ∈ _, ∀ _ ∈ _, _ → ¬_)))

/-- The condition on a step, in the state before it. -/
def Safe (system : IndexSystem) : IndexStep → Prop
  | .writeFile path file =>
      ∀ collection ∈ getExportableCollections,
        collection.sourceSubdir = path.sourceSubdir →
          (({ collection := collection
              name := path.name } : DocPlace).docId, file.mtimeMs) ∉
            system.remembered
  | .removeFile _ => True
  | .ensureFresh _ _ => True
  | .advance position =>
      ∀ manager ∈ system.managers[position]?,
        system.MaySelect position manager
  | .crash position =>
      ∀ manager ∈ system.managers[position]?, system.MayCrash manager.phase

instance (system : IndexSystem) (label : IndexStep) :
    Decidable (system.Safe label) := by
  cases label <;> unfold Safe <;> infer_instance

end IndexSystem

end Registrar
