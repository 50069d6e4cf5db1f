import Registrar.Search.DenseSync

/-!
# When a clean sync mirrors the exports

The loop ends when its index passes the list of work, and the index is moved by
a number that the caller chooses.  The tables keep together while the vectors
of all answers have one length; a clean report then says that every exported
document has its row.
-/

namespace Registrar

def DenseSyncReport.Clean (report : DenseSyncReport) : Prop :=
  report.serviceDown = false ∧ report.skipped = .finite 0

namespace DenseSweep

/-- Where the vector of a document may come from: from this sync, or from an
earlier one that embedded the same text. -/
def VectorOf (sweep : DenseSweep) (doc : DenseInput) (embedding : Embedding) :
    Prop :=
  sweep.stored.Holds doc.docId doc.contentHash embedding ∨
    ∃ round, sweep.Reached round ∧ ∃ vectors,
      sweep.answer round = some vectors ∧
        (doc, embedding) ∈ (sweep.batch round).zip vectors

/-- The document has a row with its current hash and one of its vectors. -/
def Indexed (sweep : DenseSweep) (db : DenseDb) (doc : DenseInput) : Prop :=
  ∃ embedding, db.Holds doc.docId doc.contentHash embedding ∧
    sweep.VectorOf doc embedding

/-- One row for each exported document, and no other. -/
structure Mirrors (sweep : DenseSweep) (db : DenseDb) : Prop where
  docIds : (db.docs.map DenseDocRow.docId).Perm
    (sweep.onDisk.map DenseInput.docId)
  indexed : ∀ doc ∈ sweep.onDisk, sweep.Indexed db doc

def moments : SyncState ⊕ SyncOutcome → List DenseTables :=
  Sum.elim SyncState.moments SyncOutcome.moments

structure CleanSync (sweep : DenseSweep) : Prop where
  ends : ∃ rounds outcome, sweep.syncFor rounds = .inr outcome
  sameRowIds : ∀ rounds, ∀ moment ∈ moments (sweep.syncFor rounds),
    moment.SameRowIds
  mirrors : ∀ rounds outcome, sweep.syncFor rounds = .inr outcome →
    outcome.report.Clean → sweep.Mirrors outcome.db

/-- All vectors that the service returns for a batch of this sync have one
length, and vectors that are stored already have it too. -/
def OneLength (sweep : DenseSweep) : Prop :=
  ∃ length, sweep.cleared.db.Fits length ∧
    ∀ round, sweep.Reached round → ∀ vectors,
      sweep.answer round = some vectors →
        ∀ vector ∈ vectors, vector.length = length

variable (sweep : DenseSweep)

theorem embedBatchWithRetry_nil
    (respond : Nat → List String → Option (List EmbeddingEntry))
    (maxBatchRetries : Nat) :
    embedBatchWithRetry respond maxBatchRetries [] = some [] := by
  unfold embedBatchWithRetry
  rw [List.range_succ_eq_map]
  rfl

theorem answer_answers {round : Nat} {vectors : List Embedding}
    (answered : sweep.answer round = some vectors) :
    EmbedClient.Answers ((sweep.batch round).map DenseInput.text)
      vectors := by
  obtain ⟨attempt, -, answered⟩ := List.exists_of_findSome?_eq_some answered
  exact EmbedClient.embed_answers answered

theorem length_answer {round : Nat} {vectors : List Embedding}
    (answered : sweep.answer round = some vectors) :
    vectors.length = (sweep.batch round).length :=
  (sweep.answer_answers answered).length.trans (List.length_map _)

theorem runFor_cases (rounds : Nat) :
    ((∀ round < rounds, sweep.Goes round) ∧
        Loop.runFor sweep.syncBatch rounds sweep.initial =
          .inl (sweep.stateAt rounds)) ∨
      ∃ last < rounds, (∀ round < last, sweep.Goes round) ∧
        ¬ sweep.Goes last ∧
          Loop.runFor sweep.syncBatch rounds sweep.initial =
            .inr (sweep.outcomeAt last) :=
  @Loop.runFor_along _ _ _ sweep.stateAt sweep.outcomeAt sweep.Goes
    (fun _ => sweep.syncBatch_goes) (fun _ => sweep.syncBatch_stops) rounds

theorem runFor_goes {rounds : Nat}
    (goes : ∀ round < rounds, sweep.Goes round) :
    Loop.runFor sweep.syncBatch rounds sweep.initial =
      .inl (sweep.stateAt rounds) := by
  rcases sweep.runFor_cases rounds with ⟨-, run⟩ | ⟨last, less, -, stops, -⟩
  · exact run
  · exact absurd (goes last less) stops

theorem runFor_stops {last : Nat} (goes : ∀ round < last, sweep.Goes round)
    (stops : ¬ sweep.Goes last) :
    Loop.runFor sweep.syncBatch (last + 1) sweep.initial =
      .inr (sweep.outcomeAt last) := by
  rcases sweep.runFor_cases (last + 1) with
    ⟨on, -⟩ | ⟨other, less, goes', stops', run⟩
  · exact absurd (on last (Nat.lt_succ_self last)) stops
  · obtain rfl : other = last := by
      rcases Nat.lt_trichotomy other last with before | same | behind
      · exact absurd (goes other before) stops'
      · exact same
      · exact absurd (goes' last behind) stops
    exact run

section Batch

variable {sweep} {db : DenseDb}

theorem sound_storeVectors (sound : db.Sound)
    (pairs : List (DenseInput × Embedding)) :
    (storeVectors db pairs).db.Sound := by
  induction pairs generalizing db with
  | nil => exact sound
  | cons pair pairs induction => exact induction (sound.upsert _)

/-- Vectors of a length that fits keep the tables together and the documents
indexed, and index their own. -/
structure StoredBatch (sweep : DenseSweep) (db : DenseDb) (length : Nat)
    (pairs : List (DenseInput × Embedding)) : Prop where
  fits : (storeVectors db pairs).db.Fits length
  sameRowIds : ∀ moment ∈ (storeVectors db pairs).moments, moment.SameRowIds
  onDisk : ∀ docId ∈ (storeVectors db pairs).db.docs.map DenseDocRow.docId,
    docId ∈ db.docs.map DenseDocRow.docId ∨
      docId ∈ sweep.onDisk.map DenseInput.docId
  kept : ∀ doc ∈ sweep.onDisk, sweep.Indexed db doc →
    sweep.Indexed (storeVectors db pairs).db doc
  own : ∀ pair ∈ pairs, sweep.Indexed (storeVectors db pairs).db pair.1

theorem storedBatch (sound : db.Sound) {length : Nat} (fits : db.Fits length)
    {pairs : List (DenseInput × Embedding)}
    (sized : ∀ pair ∈ pairs, pair.2.length = length)
    (vectors : ∀ pair ∈ pairs,
      pair.1 ∈ sweep.onDisk ∧ sweep.VectorOf pair.1 pair.2) :
    StoredBatch sweep db length pairs := by
  induction pairs generalizing db with
  | nil =>
      exact ⟨fits, nofun, fun _ => .inl, fun _ _ => id, nofun⟩
  | cons pair pairs induction =>
      obtain ⟨doc, embedding⟩ := pair
      obtain ⟨isLength, sized⟩ := List.forall_mem_cons.mp sized
      obtain ⟨⟨isDoc, isVector⟩, vectors⟩ := List.forall_mem_cons.mp vectors
      have fitsFirst : db.Fits embedding.length := by
        rwa [show embedding.length = length from isLength]
      have settled := db.settled_upsert (doc.row embedding)
      have later := induction (sound.upsert _)
        (settled.fits_iff.mpr isLength.symm) sized vectors
      have keptFirst : ∀ other ∈ sweep.onDisk, sweep.Indexed db other →
          sweep.Indexed (db.upsert (doc.row embedding)).db other := by
        intro other isOther indexed
        by_cases same : other.docId = doc.docId
        · obtain rfl :=
            List.inj_on_of_nodup_map sweep.distinct isOther isDoc same
          exact ⟨embedding, db.holds_upsert_self _, isVector⟩
        · obtain ⟨vector, holds, source⟩ := indexed
          exact ⟨vector, DenseDb.holds_upsert_of_ne sound fitsFirst same holds,
            source⟩
      constructor
      · exact later.fits
      · intro moment member
        rcases List.mem_append.mp member with early | late
        · exact (DenseDb.sameRowIds_upsert_iff sound _).mpr fitsFirst moment early
        · exact later.sameRowIds moment late
      · intro docId member
        rcases later.onDisk docId member with before | isOnDisk
        · rcases DenseDb.mem_docIds_upsert sound fitsFirst before with rfl | old
          · exact .inr (List.mem_map_of_mem isDoc)
          · exact .inl old
        · exact .inr isOnDisk
      · intro other isOther indexed
        exact later.kept other isOther (keptFirst other isOther indexed)
      · intro pair member
        rcases List.mem_cons.mp member with rfl | later'
        · exact later.kept doc isDoc
            ⟨embedding, db.holds_upsert_self _, isVector⟩
        · exact later.own pair later'

/-- Tables that keep together have taken vectors of one length. -/
theorem settled_storeVectors (sound : db.Sound) {length : Nat}
    {pairs : List (DenseInput × Embedding)} (nonempty : pairs ≠ [])
    (sized : ∀ pair ∈ pairs, pair.2.length = length) :
    (storeVectors db pairs).db.Settled length ∧
      ((∀ moment ∈ (storeVectors db pairs).moments, moment.SameRowIds) →
        db.Fits length) := by
  induction pairs generalizing db with
  | nil => exact absurd rfl nonempty
  | cons pair pairs induction =>
      obtain ⟨doc, embedding⟩ := pair
      obtain ⟨isLength, sized⟩ := List.forall_mem_cons.mp sized
      obtain rfl : embedding.length = length := isLength
      constructor
      · by_cases last : pairs = []
        · rw [last]
          exact db.settled_upsert _
        · exact (induction (sound.upsert _) last sized).1
      · intro aligned
        refine (DenseDb.sameRowIds_upsert_iff sound
          (doc.row embedding)).mp ?_
        intro moment member
        exact aligned moment (List.mem_append_left _ member)

end Batch

end DenseSweep

end Registrar
