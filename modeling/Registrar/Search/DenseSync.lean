import Registrar.Library.JsNumbers
import Registrar.Library.Loops
import Registrar.Search.DenseWrites
import Registrar.Search.EmbedClient

/-!
# The loop of the dense sync

The list of work is made before the loop.  The loop embeds it slice by slice;
the bounds of the slices are sums of the batch size, which may be any number.
-/

namespace Registrar

/-- What the embedding service does during one sync.  Batches are counted from
zero, and so are the attempts at one batch. -/
structure EmbedService where
  healthy : Bool
  respond : Nat → Nat → List String → Option (List EmbeddingEntry)
  healthyAfter : Nat → Bool

/-- The first answer, among the first attempt and the retries. -/
def embedBatchWithRetry
    (respond : Nat → List String → Option (List EmbeddingEntry))
    (maxBatchRetries : Nat) (texts : List String) : Option (List Embedding) :=
  (List.range (maxBatchRetries + 1)).findSome? fun attempt =>
    EmbedClient.embed (respond attempt) texts

structure DenseSyncOptions where
  maxDocChars : Nat
  batchSize : JsNumber
  maxBatchRetries : Nat
  deriving DecidableEq

/-- Every exported document, with the text that would be embedded. -/
def DenseSyncOptions.onDisk (env : Environment) (options : DenseSyncOptions)
    (tree : SourceTree) : List DenseInput :=
  (exportedDocs tree).map fun doc =>
    let text := leadingUnits doc.2.content options.maxDocChars
    { docId := doc.1.docId
      collection := doc.1.collection.name
      text := text
      contentHash := computeContentHash env text
      snippet := leadingUnits doc.2.content denseSnippetChars }

/-- What one sync starts from. -/
structure DenseSweep where
  batchSize : JsNumber
  maxBatchRetries : Nat
  service : EmbedService
  onDisk : List DenseInput
  stored : DenseDb
  distinct : (onDisk.map DenseInput.docId).Nodup
  sound : stored.Sound

structure DenseSyncReport where
  embedded : Nat
  removed : Nat
  skipped : JsNumber
  totalDocs : Nat
  serviceDown : Bool
  deriving DecidableEq

structure SyncState where
  batch : Nat
  start : JsNumber
  db : DenseDb
  moments : List DenseTables
  embedded : Nat
  skipped : Nat

structure SyncOutcome where
  db : DenseDb
  moments : List DenseTables
  report : DenseSyncReport

/-- What is written of a document, with its vector. -/
def DenseInput.row (doc : DenseInput) (embedding : Embedding) : DenseRow where
  docId := doc.docId
  collection := doc.collection
  contentHash := doc.contentHash
  snippet := doc.snippet
  embedding := embedding

/-- The vectors of a batch are stored one after another. -/
def storeVectors (db : DenseDb) : List (DenseInput × Embedding) → DenseWrite
  | [] =>
      { db := db
        moments := [] }
  | (doc, embedding) :: rest =>
      let first := db.upsert (doc.row embedding)
      let later := storeVectors first.db rest
      { db := later.db
        moments := first.moments ++ later.moments }

namespace DenseSweep

variable (sweep : DenseSweep)

def toEmbed : List DenseInput :=
  sweep.onDisk.filter fun doc =>
    sweep.stored.storedHash doc.docId ≠ some doc.contentHash

def toRemove : List String :=
  (sweep.stored.docs.map DenseDocRow.docId).filter fun docId =>
    docId ∉ sweep.onDisk.map DenseInput.docId

/-- What has gone from the disk is removed first. -/
def cleared : DenseWrite :=
  if sweep.toRemove = [] then
    { db := sweep.stored
      moments := [] }
  else sweep.stored.remove sweep.toRemove

def report (embedded : Nat) (skipped : JsNumber) (serviceDown : Bool) :
    DenseSyncReport where
  embedded := embedded
  removed := sweep.toRemove.length
  skipped := skipped
  totalDocs := sweep.onDisk.length
  serviceDown := serviceDown

def initial : SyncState where
  batch := 0
  start := .finite 0
  db := sweep.cleared.db
  moments := sweep.stored.toDenseTables :: sweep.cleared.moments
  embedded := 0
  skipped := 0

/-- One round of the loop. -/
def syncBatch : Loop.Step SyncState SyncOutcome := fun state =>
  if state.start.lessThan (.finite sweep.toEmbed.length) = false then
    .inr
      { db := state.db
        moments := state.moments
        report := sweep.report state.embedded (.finite state.skipped) false }
  else
    let stop := state.start.add sweep.batchSize
    let batch := JsNumber.slice sweep.toEmbed state.start stop
    match embedBatchWithRetry (sweep.service.respond state.batch)
        sweep.maxBatchRetries (batch.map DenseInput.text) with
    | some vectors =>
        let stored := storeVectors state.db (batch.zip vectors)
        .inl
          { batch := state.batch + 1
            start := stop
            db := stored.db
            moments := state.moments ++ stored.moments
            embedded := state.embedded + (batch.zip vectors).length
            skipped := state.skipped }
    | none =>
        if sweep.service.healthyAfter state.batch then
          .inl
            { state with
              batch := state.batch + 1
              start := stop
              skipped := state.skipped + batch.length }
        else
          .inr
            { db := state.db
              moments := state.moments
              report := sweep.report state.embedded
                ((JsNumber.finite state.skipped).add
                  ((JsNumber.finite sweep.toEmbed.length).add
                    state.start.neg)) true }

/-- The sync, for at most so many rounds of its loop. -/
def syncFor (rounds : Nat) : SyncState ⊕ SyncOutcome :=
  if sweep.toEmbed ≠ [] ∧ sweep.service.healthy = false then
    .inr
      { db := sweep.initial.db
        moments := sweep.initial.moments
        report := sweep.report 0 (.finite sweep.toEmbed.length) true }
  else Loop.runFor sweep.syncBatch rounds sweep.initial

def batch (round : Nat) : List DenseInput :=
  JsNumber.slice sweep.toEmbed (JsNumber.position sweep.batchSize round)
    (JsNumber.position sweep.batchSize (round + 1))

/-- What the service returns for a batch, at the last attempt. -/
def answer (round : Nat) : Option (List Embedding) :=
  embedBatchWithRetry (sweep.service.respond round) sweep.maxBatchRetries
    ((sweep.batch round).map DenseInput.text)

/-- The batch fails and the service is down then. -/
def Outage (round : Nat) : Prop :=
  sweep.answer round = none ∧ sweep.service.healthyAfter round = false

def Before (round : Nat) : Prop :=
  (JsNumber.position sweep.batchSize round).lessThan
    (.finite sweep.toEmbed.length) = true

instance (round : Nat) : Decidable (sweep.Before round) :=
  inferInstanceAs (Decidable (_ = true))

/-- The loop goes on behind this round. -/
def Goes (round : Nat) : Prop :=
  sweep.Before round ∧ ¬ sweep.Outage round

/-- The loop comes to this batch. -/
def Reached (round : Nat) : Prop :=
  (∀ earlier < round, sweep.Goes earlier) ∧ sweep.Before round

/-- The state behind a round that goes on. -/
def advance (round : Nat) (state : SyncState) : SyncState :=
  match sweep.answer round with
  | some vectors =>
      let stored := storeVectors state.db ((sweep.batch round).zip vectors)
      { batch := round + 1
        start := JsNumber.position sweep.batchSize (round + 1)
        db := stored.db
        moments := state.moments ++ stored.moments
        embedded := state.embedded + ((sweep.batch round).zip vectors).length
        skipped := state.skipped }
  | none =>
      { state with
        batch := round + 1
        start := JsNumber.position sweep.batchSize (round + 1)
        skipped := state.skipped + (sweep.batch round).length }

def stateAt : Nat → SyncState
  | 0 => sweep.initial
  | round + 1 => sweep.advance round (stateAt round)

theorem stateAt_place (round : Nat) :
    (sweep.stateAt round).batch = round ∧
      (sweep.stateAt round).start =
        JsNumber.position sweep.batchSize round := by
  cases round with
  | zero => exact ⟨rfl, rfl⟩
  | succ round =>
      unfold stateAt advance
      split <;> exact ⟨rfl, rfl⟩

/-- What the sync returns when it ends in this round. -/
def outcomeAt (round : Nat) : SyncOutcome where
  db := (sweep.stateAt round).db
  moments := (sweep.stateAt round).moments
  report :=
    if sweep.Before round then
      sweep.report (sweep.stateAt round).embedded
        ((JsNumber.finite (sweep.stateAt round).skipped).add
          ((JsNumber.finite sweep.toEmbed.length).add
            (JsNumber.position sweep.batchSize round).neg)) true
    else
      sweep.report (sweep.stateAt round).embedded
        (.finite (sweep.stateAt round).skipped) false

theorem syncBatch_goes {round : Nat} (goes : sweep.Goes round) :
    sweep.syncBatch (sweep.stateAt round) =
      .inl (sweep.stateAt (round + 1)) := by
  obtain ⟨isRound, isStart⟩ := sweep.stateAt_place round
  obtain ⟨before, noOutage⟩ := goes
  unfold syncBatch
  rw [isStart, if_neg (by rw [show _ = true from before]; exact nofun)]
  dsimp only
  rw [isRound]
  change (match sweep.answer round with
    | some vectors => _
    | none => _) = _
  rw [stateAt, advance]
  cases answered : sweep.answer round with
  | some vectors => rfl
  | none =>
      have up : sweep.service.healthyAfter round = true := by
        by_contra down
        exact noOutage ⟨answered, Bool.not_eq_true _ ▸ down⟩
      dsimp only
      rw [if_pos up]
      rfl

theorem syncBatch_stops {round : Nat} (stops : ¬ sweep.Goes round) :
    sweep.syncBatch (sweep.stateAt round) = .inr (sweep.outcomeAt round) := by
  obtain ⟨isRound, isStart⟩ := sweep.stateAt_place round
  unfold syncBatch outcomeAt
  rw [isStart]
  by_cases before : sweep.Before round
  · rw [if_neg (by rw [show _ = true from before]; exact nofun),
      if_pos before]
    dsimp only
    rw [isRound]
    have outage : sweep.Outage round := by
      by_contra up
      exact stops ⟨before, up⟩
    change (match sweep.answer round with
      | some vectors => _
      | none => _) = _
    rw [outage.1]
    dsimp only
    rw [if_neg (by rw [outage.2]; exact nofun)]
  · rw [if_pos (by simpa [Before] using before), if_neg before]

end DenseSweep

end Registrar
