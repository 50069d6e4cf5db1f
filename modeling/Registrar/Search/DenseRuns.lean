import Registrar.Search.CleanSyncs

/-!
# Runs of dense syncs

Syncs of one index, each with its own exports, options and service, and each
possibly stopped on the way.  A vector in the index was returned for the text
whose hash stands beside it, and a sync takes up the work where the one before
has left it.
-/

namespace Registrar

namespace DenseDb

variable {db : DenseDb}

theorem holds_of_ensureVecTable (sound : db.Sound) {length : Nat}
    {docId contentHash : String} {embedding : Embedding}
    (holds : (db.ensureVecTable length).db.Holds docId contentHash
      embedding) :
    db.Holds docId contentHash embedding := by
  by_cases fits : db.Fits length
  · rwa [(ensureVecTable_of_fits sound fits).1] at holds
  · obtain ⟨stored, other⟩ := not_or.mp fits
    obtain ⟨vec, member⟩ := List.exists_mem_of_ne_nil _ stored
    rw [ensureVecTable, if_neg other, sound.sized vec member] at holds
    obtain ⟨row, isRow, -⟩ := holds
    cases isRow

/-- What an upsert leaves of a document is its own row or an old one. -/
theorem holds_upsert_cases (sound : db.Sound) {doc : DenseRow}
    {docId contentHash : String} {embedding : Embedding}
    (holds : (db.upsert doc).db.Holds docId contentHash embedding) :
    (docId = doc.docId ∧ contentHash = doc.contentHash ∧
        embedding = doc.embedding) ∨
      docId ≠ doc.docId ∧ db.Holds docId contentHash embedding := by
  have sized := sound.ensureVecTable doc.embedding.length
  have left := sized.linked.deleteDoc doc.docId
  obtain ⟨row, isRow, rfl, rfl, vec, isVec, tied, rfl⟩ := holds
  rcases List.mem_append.mp isRow with oldRow | newRow
  · have less := lt_nextRowid oldRow
    rcases List.mem_append.mp isVec with oldVec | newVec
    · obtain ⟨other, before⟩ :=
        (DenseTables.holds_deleteDoc sized.linked).mp
          ⟨row, oldRow, rfl, rfl, vec, oldVec, tied, rfl⟩
      exact .inr ⟨other, holds_of_ensureVecTable sound before⟩
    · rw [← tied, List.mem_singleton.mp newVec] at less
      exact absurd less (Nat.lt_irrefl _)
  · have isNew := List.mem_singleton.mp newRow
    rcases List.mem_append.mp isVec with oldVec | newVec
    · -- An old vector belongs to an old row, which has a smaller id.
      have aligned := left.sameRowIds vec.rowid
      obtain ⟨old, isOld, same⟩ :=
        List.mem_map.mp (aligned.mpr (List.mem_map_of_mem oldVec))
      have less := lt_nextRowid isOld
      rw [same, tied, isNew] at less
      exact absurd less (Nat.lt_irrefl _)
    · rw [isNew, List.mem_singleton.mp newVec]
      exact .inl ⟨rfl, rfl, rfl⟩

theorem holds_storeVectors_cases (sound : db.Sound)
    {pairs : List (DenseInput × Embedding)} {docId contentHash : String}
    {embedding : Embedding}
    (holds : (storeVectors db pairs).db.Holds docId contentHash embedding) :
    (∃ doc, (doc, embedding) ∈ pairs ∧ doc.docId = docId ∧
        doc.contentHash = contentHash) ∨
      db.Holds docId contentHash embedding := by
  induction pairs generalizing db with
  | nil => exact .inr holds
  | cons pair pairs induction =>
      obtain ⟨doc, vector⟩ := pair
      rcases induction (sound.upsert _) holds with
        ⟨other, member, rest⟩ | before
      · exact .inl ⟨other, List.mem_cons_of_mem _ member, rest⟩
      · rcases holds_upsert_cases sound before with
          ⟨rfl, rfl, rfl⟩ | ⟨-, old⟩
        · exact .inl ⟨doc, List.mem_cons_self, rfl, rfl⟩
        · exact .inr old

end DenseDb

namespace DenseSweep

variable {sweep : DenseSweep}

/-- The service has returned this vector for the document, in a round of the
loop before this one. -/
def ReturnedBefore (sweep : DenseSweep) (rounds : Nat) (doc : DenseInput)
    (embedding : Embedding) : Prop :=
  ∃ round < rounds, ∃ vectors, sweep.answer round = some vectors ∧
    (doc, embedding) ∈ (sweep.batch round).zip vectors

theorem ReturnedBefore.onDisk {rounds : Nat} {doc : DenseInput}
    {embedding : Embedding}
    (returned : sweep.ReturnedBefore rounds doc embedding) :
    doc ∈ sweep.onDisk := by
  obtain ⟨round, -, vectors, -, member⟩ := returned
  exact sweep.mem_onDisk_of_mem_batch (List.of_mem_zip member).1

theorem ReturnedBefore.mono {rounds later : Nat} {doc : DenseInput}
    {embedding : Embedding} (le : rounds ≤ later)
    (returned : sweep.ReturnedBefore rounds doc embedding) :
    sweep.ReturnedBefore later doc embedding := by
  obtain ⟨round, less, rest⟩ := returned
  exact ⟨round, less.trans_le le, rest⟩

theorem holds_stateAt_cases {rounds : Nat} {docId contentHash : String}
    {embedding : Embedding}
    (holds : (sweep.stateAt rounds).db.Holds docId contentHash embedding) :
    (∃ doc, sweep.ReturnedBefore rounds doc embedding ∧
        doc.docId = docId ∧ doc.contentHash = contentHash) ∨
      sweep.stored.Holds docId contentHash embedding := by
  induction rounds with
  | zero => exact .inr (sweep.holds_cleared.mp holds).2
  | succ rounds induction =>
      have before : (sweep.stateAt rounds).db.Holds docId contentHash
            embedding →
          (∃ doc, sweep.ReturnedBefore (rounds + 1) doc embedding ∧
              doc.docId = docId ∧ doc.contentHash = contentHash) ∨
            sweep.stored.Holds docId contentHash embedding := by
        intro holds
        rcases induction holds with ⟨doc, returned, same⟩ | old
        · exact .inl ⟨doc, returned.mono (Nat.le_succ rounds), same⟩
        · exact .inr old
      cases answered : sweep.answer rounds with
      | none =>
          rw [(stateAt_failed answered).1] at holds
          exact before holds
      | some vectors =>
          rw [(stateAt_answered answered).1] at holds
          rcases DenseDb.holds_storeVectors_cases (sound_stateAt rounds)
            holds with ⟨doc, member, same⟩ | old
          · exact .inl ⟨doc,
              ⟨rounds, Nat.lt_succ_self rounds, vectors, answered, member⟩,
              same⟩
          · exact before old

/-- The index of a sync that is stopped after so many rounds and, in the next
one, behind so many vectors, unless it has ended before. -/
def stoppedAt (sweep : DenseSweep) (rounds vectors : Nat) : DenseDb :=
  match sweep.syncFor rounds with
  | .inr outcome => outcome.db
  | .inl state =>
      match sweep.answer rounds with
      | none => state.db
      | some answered =>
          if sweep.Before rounds then
            (storeVectors state.db
              (((sweep.batch rounds).zip answered).take vectors)).db
          else state.db

/-- The round stores vectors. -/
def Stores (sweep : DenseSweep) (round : Nat) : Prop :=
  sweep.Reached round ∧ sweep.answer round ≠ none

/-- However a sync is stopped, the index is that of some round behind which
none stores vectors, or that of a round and the first vectors of the next. -/
theorem stoppedAt_cases (sweep : DenseSweep) (rounds vectors : Nat) :
    (sweep.Down ∧ sweep.stoppedAt rounds vectors = (sweep.stateAt 0).db) ∨
      ¬ sweep.Down ∧
        ((∃ round ≤ rounds, (∀ earlier < round, sweep.Goes earlier) ∧
            (∀ later, round ≤ later → later ≤ rounds → ¬ sweep.Stores later) ∧
            sweep.stoppedAt rounds vectors = (sweep.stateAt round).db) ∨
          sweep.Reached rounds ∧ ∃ answered,
            sweep.answer rounds = some answered ∧
              sweep.stoppedAt rounds vectors =
                (storeVectors (sweep.stateAt rounds).db
                  (((sweep.batch rounds).zip answered).take vectors)).db) := by
  unfold stoppedAt
  by_cases down : sweep.Down
  · rw [syncFor_of_down down]
    exact .inl ⟨down, rfl⟩
  · rw [syncFor_of_not_down down]
    refine .inr ⟨down, ?_⟩
    rcases sweep.runFor_cases rounds with
      ⟨goes, run⟩ | ⟨last, less, goes, stops, run⟩
    · rw [run]
      cases answered : sweep.answer rounds with
      | none =>
          refine .inl ⟨rounds, le_rfl, goes,
            fun later least within stores => ?_, rfl⟩
          rw [Nat.le_antisymm within least] at stores
          exact stores.2 answered
      | some returned =>
          by_cases before : sweep.Before rounds
          · refine .inr ⟨⟨goes, before⟩, returned, rfl, ?_⟩
            exact if_pos before
          · refine .inl ⟨rounds, le_rfl, goes,
              fun later least within stores => ?_, if_neg before⟩
            rw [Nat.le_antisymm within least] at stores
            exact before stores.1.2
    · rw [run]
      refine .inl ⟨last, less.le, goes, fun later least _ stores => ?_, rfl⟩
      rcases Nat.eq_or_lt_of_le least with rfl | behind
      · -- The last round ends the loop, so its batch has failed.
        refine stops ⟨stores.1.2, fun outage => stores.2 outage.1⟩
      · exact stops (stores.1.1 last behind)

theorem sound_stoppedAt (sweep : DenseSweep) (rounds vectors : Nat) :
    (sweep.stoppedAt rounds vectors).Sound := by
  rcases sweep.stoppedAt_cases rounds vectors with
    ⟨-, same⟩ | ⟨-, ⟨round, -, -, -, same⟩ | ⟨-, answered, -, same⟩⟩
  · rw [same]
    exact sound_stateAt 0
  · rw [same]
    exact sound_stateAt round
  · rw [same]
    exact sound_storeVectors (sound_stateAt rounds) _

/-- The vector of the document is stored before the stop: in a round before
it, or among the first vectors of the round that it falls in. -/
def EmbeddedBy (sweep : DenseSweep) (rounds vectors : Nat) (doc : DenseInput) :
    Prop :=
  ¬ sweep.Down ∧
    ((∃ round < rounds, sweep.Stores round ∧ doc ∈ sweep.batch round) ∨
      sweep.Stores rounds ∧ doc ∈ (sweep.batch rounds).take vectors)

theorem embeddedBy_of_returned {round rounds vectors : Nat} {doc : DenseInput}
    {embedding : Embedding} (up : ¬ sweep.Down) (within : round ≤ rounds)
    (goes : ∀ earlier < round, sweep.Goes earlier)
    (returned : sweep.ReturnedBefore round doc embedding) :
    sweep.EmbeddedBy rounds vectors doc := by
  obtain ⟨earlier, less, answered, isAnswer, member⟩ := returned
  refine ⟨up, .inl ⟨earlier, less.trans_le within, ⟨⟨?_, ?_⟩, ?_⟩, ?_⟩⟩
  · exact fun other before => goes other (before.trans less)
  · exact (goes earlier less).1
  · rw [isAnswer]
    exact Option.some_ne_none answered
  · exact (List.of_mem_zip member).1

theorem map_take_pairs {round : Nat} {answered : List Embedding}
    (isAnswer : sweep.answer round = some answered) (vectors : Nat) :
    (((sweep.batch round).zip answered).take vectors).map Prod.fst =
      (sweep.batch round).take vectors := by
  rw [List.map_take, List.map_fst_zip (sweep.length_answer isAnswer).ge]

theorem holds_stoppedAt_cases {rounds vectors : Nat}
    {docId contentHash : String} {embedding : Embedding}
    (holds : (sweep.stoppedAt rounds vectors).Holds docId contentHash
      embedding) :
    (∃ doc, (∃ rounds, sweep.ReturnedBefore rounds doc embedding) ∧
        sweep.EmbeddedBy rounds vectors doc ∧
        doc.docId = docId ∧ doc.contentHash = contentHash) ∨
      sweep.stored.Holds docId contentHash embedding := by
  have earlier {round : Nat} (up : ¬ sweep.Down) (within : round ≤ rounds)
      (goes : ∀ earlier < round, sweep.Goes earlier)
      (holds : (sweep.stateAt round).db.Holds docId contentHash embedding) :
      (∃ doc, (∃ rounds, sweep.ReturnedBefore rounds doc embedding) ∧
          sweep.EmbeddedBy rounds vectors doc ∧
          doc.docId = docId ∧ doc.contentHash = contentHash) ∨
        sweep.stored.Holds docId contentHash embedding := by
    rcases holds_stateAt_cases holds with ⟨doc, returned, same⟩ | old
    · exact .inl ⟨doc, ⟨round, returned⟩,
        embeddedBy_of_returned up within goes returned, same⟩
    · exact .inr old
  rcases sweep.stoppedAt_cases rounds vectors with
    ⟨-, same⟩ | ⟨up, ⟨round, within, goes, -, same⟩ |
      ⟨reached, answered, isAnswer, same⟩⟩
  · rw [same] at holds
    exact .inr (sweep.holds_cleared.mp holds).2
  · rw [same] at holds
    exact earlier up within goes holds
  · rw [same] at holds
    rcases DenseDb.holds_storeVectors_cases (sound_stateAt rounds) holds with
      ⟨doc, member, isDoc⟩ | old
    · refine .inl ⟨doc, ⟨rounds + 1, rounds, Nat.lt_succ_self rounds, answered,
        isAnswer, List.mem_of_mem_take member⟩, ⟨up, .inr ⟨⟨reached, ?_⟩, ?_⟩⟩,
        isDoc⟩
      · rw [isAnswer]
        exact Option.some_ne_none answered
      · rw [← map_take_pairs isAnswer]
        exact List.mem_map_of_mem member
    · exact earlier up le_rfl reached.1 old

section OneLength

variable {length : Nat} (fits : sweep.cleared.db.Fits length)
  (sized : ∀ round, sweep.Reached round → ∀ vectors,
    sweep.answer round = some vectors →
      ∀ vector ∈ vectors, vector.length = length)

include fits sized

theorem storedBatch_take {round vectors : Nat} {answered : List Embedding}
    (reached : sweep.Reached round)
    (isAnswer : sweep.answer round = some answered) :
    StoredBatch sweep (sweep.stateAt round).db length
      (((sweep.batch round).zip answered).take vectors) := by
  refine storedBatch (sound_stateAt round)
    (kept_stateAt fits sized reached.1).fits ?_ ?_
  · intro pair member
    have isPair := List.of_mem_zip (List.mem_of_mem_take member)
    exact sized round reached answered isAnswer pair.2 isPair.2
  · intro pair member
    have isPair := List.mem_of_mem_take member
    exact ⟨sweep.mem_onDisk_of_mem_batch (List.of_mem_zip isPair).1,
      .inr ⟨round, reached, answered, isAnswer, isPair⟩⟩

theorem onDisk_stoppedAt {rounds vectors : Nat} {docId : String}
    (member : docId ∈
      (sweep.stoppedAt rounds vectors).docs.map DenseDocRow.docId) :
    docId ∈ sweep.onDisk.map DenseInput.docId := by
  rcases sweep.stoppedAt_cases rounds vectors with
    ⟨-, same⟩ | ⟨-, ⟨round, -, goes, -, same⟩ |
      ⟨reached, answered, isAnswer, same⟩⟩
  · rw [same] at member
    exact sweep.onDisk_of_mem_cleared member
  · rw [same] at member
    exact (kept_stateAt fits sized goes).onDisk docId member
  · rw [same] at member
    rcases (storedBatch_take fits sized reached isAnswer).onDisk docId member
      with before | now
    · exact (kept_stateAt fits sized reached.1).onDisk docId before
    · exact now

/-- With vectors of one length, an unchanged document keeps its row and an
embedded one has it. -/
theorem indexed_stoppedAt {rounds vectors : Nat} {doc : DenseInput}
    (isDoc : doc ∈ sweep.onDisk)
    (done : doc ∉ sweep.toEmbed ∨ sweep.EmbeddedBy rounds vectors doc) :
    sweep.Indexed (sweep.stoppedAt rounds vectors) doc := by
  rcases sweep.stoppedAt_cases rounds vectors with
    ⟨down, same⟩ | ⟨-, ⟨round, within, goes, idle, same⟩ |
      ⟨reached, answered, isAnswer, same⟩⟩
  · rw [same]
    exact sweep.indexed_unchanged isDoc
      (done.resolve_right fun embedded => embedded.1 down)
  · rw [same]
    have kept := kept_stateAt fits sized goes
    rcases done with unchanged |
      ⟨-, ⟨earlier, less, stores, member⟩ | ⟨stores, -⟩⟩
    · exact kept.unchanged doc isDoc unchanged
    · have before : earlier < round := by
        by_contra behind
        exact idle earlier (Nat.le_of_not_lt behind) less.le stores
      exact kept.embedded earlier before stores.2 doc member
    · exact absurd stores (idle rounds within le_rfl)
  · rw [same]
    have kept := kept_stateAt fits sized reached.1
    have batch := @storedBatch_take _ _ fits sized _ vectors _ reached isAnswer
    rcases done with unchanged |
      ⟨-, ⟨earlier, less, stores, member⟩ | ⟨-, member⟩⟩
    · exact batch.kept doc isDoc (kept.unchanged doc isDoc unchanged)
    · exact batch.kept doc isDoc
        (kept.embedded earlier less stores.2 doc member)
    · rw [← map_take_pairs isAnswer] at member
      obtain ⟨pair, isPair, rfl⟩ := List.mem_map.mp member
      exact batch.own pair isPair

theorem storedHash_stoppedAt {rounds vectors : Nat} {doc : DenseInput}
    (isDoc : doc ∈ sweep.onDisk) :
    (sweep.stoppedAt rounds vectors).storedHash doc.docId =
        some doc.contentHash ↔
      doc ∉ sweep.toEmbed ∨ sweep.EmbeddedBy rounds vectors doc := by
  have sound := sweep.sound_stoppedAt rounds vectors
  constructor
  · intro stored
    obtain ⟨embedding, holds⟩ := sound.exists_holds stored
    rcases holds_stoppedAt_cases holds with
      ⟨other, ⟨_, returned⟩, embedded, named, -⟩ | old
    · rw [← List.inj_on_of_nodup_map sweep.distinct returned.onDisk isDoc
        named]
      exact .inr embedded
    · refine .inl fun pending => (sweep.mem_toEmbed.mp pending).2 ?_
      exact DenseDb.storedHash_of_holds sweep.sound old
  · intro done
    obtain ⟨embedding, holds, -⟩ := indexed_stoppedAt fits sized isDoc done
    exact DenseDb.storedHash_of_holds sound holds

end OneLength

/-- It ends at once, whatever its batch size and its service. -/
theorem syncFor_idle (embedded : sweep.toEmbed = [])
    (removed : sweep.toRemove = []) (rounds : Nat) :
    sweep.syncFor (rounds + 1) = .inr
      { db := sweep.stored
        moments := [sweep.stored.toDenseTables]
        report :=
          { embedded := 0
            removed := 0
            skipped := .finite 0
            totalDocs := sweep.onDisk.length
            serviceDown := false } } := by
  have up : ¬ sweep.Down := fun down => down.1 embedded
  have behind : ¬ sweep.Before 0 := by
    unfold Before
    rw [embedded]
    exact nofun
  have cleared : sweep.cleared =
      { db := sweep.stored
        moments := [] } := if_pos removed
  rw [syncFor_of_not_down up]
  rcases sweep.runFor_cases (rounds + 1) with
    ⟨goes, -⟩ | ⟨last, -, goes, -, run⟩
  · exact absurd (goes 0 (Nat.succ_pos rounds)).1 behind
  · obtain rfl : last = 0 := by
      by_contra later
      exact behind (goes 0 (Nat.pos_of_ne_zero later)).1
    rw [run]
    simp [outcomeAt, behind, stateAt, initial, cleared, report, removed]

end DenseSweep

/-- One sync of a run, stopped after so many rounds and vectors. -/
structure DenseSyncStep where
  options : DenseSyncOptions
  tree : SourceTree
  service : EmbedService
  rounds : Nat
  vectors : Nat

section Runs

variable (env : Environment)

def DenseSyncStep.sweep (step : DenseSyncStep) (stored : StoredDenseIndex) :
    DenseSweep :=
  step.options.sweep env step.tree step.service stored

def StoredDenseIndex.sync (stored : StoredDenseIndex) (step : DenseSyncStep) :
    StoredDenseIndex where
  val := (step.sweep env stored).stoppedAt step.rounds step.vectors
  property := DenseSweep.sound_stoppedAt _ _ _

/-- The index behind the syncs, from an empty one. -/
def denseIndexAfter (steps : List DenseSyncStep) : StoredDenseIndex :=
  Transition.run (StoredDenseIndex.sync env) emptyDense steps

theorem denseIndexAfter_concat (steps : List DenseSyncStep)
    (step : DenseSyncStep) :
    denseIndexAfter env (steps ++ [step]) =
      (denseIndexAfter env steps).sync env step := by
  unfold denseIndexAfter
  rw [Transition.run_append]
  rfl

end Runs

/-- A note and a plan in one batch, stopped behind the note. -/
def planStep : DenseSyncStep where
  options := batchesOf (.finite 2)
  tree := planTree
  service := onesService 1
  rounds := 0
  vectors := 1

def planSweep : DenseSweep :=
  planStep.sweep plainEnvironment emptyDense

theorem planSweep_goes : planSweep.Goes 0 ∧ ¬ planSweep.Before 1 := by
  refine ⟨⟨by decide +kernel, fun outage => ?_⟩, by decide +kernel⟩
  cases outage.2

theorem planSweep_reached {round : Nat} (reached : planSweep.Reached round) :
    round = 0 := by
  by_contra later
  rcases Nat.lt_or_eq_of_le (Nat.one_le_iff_ne_zero.mpr later) with
    behind | rfl
  · exact planSweep_goes.2 (reached.1 1 behind).1
  · exact planSweep_goes.2 reached.2

theorem planSweep_oneLength : planSweep.OneLength := by
  refine ⟨1, .inl (by decide +kernel), fun round reached vectors answered => ?_⟩
  have ones : planSweep.answer 0 = some [[1], [1]] := by decide +kernel
  rw [planSweep_reached reached, ones] at answered
  simp [← Option.some.inj answered]

theorem planSweep_passes :
    JsNumber.Passes planStep.options.batchSize planSweep.toEmbed.length :=
  @JsNumber.passes_natCast 2 _ Nat.two_pos (by decide +kernel)

section Runs

variable (env : Environment)

/-- What the next sync of the same exports has to embed is what the stopped one
has not embedded, while all vectors have one length. -/
theorem resumed_sync (stored : StoredDenseIndex) (step next : DenseSyncStep)
    (sameTree : next.tree = step.tree)
    (sameCap : next.options.maxDocChars = step.options.maxDocChars)
    (oneLength : (step.sweep env stored).OneLength) :
    (next.sweep env (stored.sync env step)).toRemove = [] ∧
      ∀ doc, doc ∈ (next.sweep env (stored.sync env step)).toEmbed ↔
        doc ∈ (step.sweep env stored).toEmbed ∧
          ¬ (step.sweep env stored).EmbeddedBy step.rounds step.vectors
            doc := by
  obtain ⟨length, fits, sized⟩ := oneLength
  have sameDisk : (next.sweep env (stored.sync env step)).onDisk =
      (step.sweep env stored).onDisk := by
    change next.options.onDisk env next.tree = step.options.onDisk env step.tree
    unfold DenseSyncOptions.onDisk
    rw [sameTree, sameCap]
  constructor
  · refine List.filter_eq_nil_iff.mpr fun docId member gone => ?_
    rw [sameDisk] at gone
    exact of_decide_eq_true gone
      (DenseSweep.onDisk_stoppedAt fits sized member)
  · intro doc
    rw [DenseSweep.mem_toEmbed, sameDisk]
    constructor
    · rintro ⟨isDoc, changed⟩
      have pending := not_or.mp fun done =>
        changed ((DenseSweep.storedHash_stoppedAt fits sized isDoc).mpr done)
      exact ⟨not_not.mp pending.1, pending.2⟩
    · rintro ⟨pending, left⟩
      have isDoc := ((step.sweep env stored).mem_toEmbed.mp pending).1
      refine ⟨isDoc, fun same => ?_⟩
      rcases (DenseSweep.storedHash_stoppedAt fits sized isDoc).mp same with
        unchanged | embedded
      · exact unchanged pending
      · exact left embedded

theorem resumed_sync_plan :
    (planStep.sweep plainEnvironment
        (emptyDense.sync plainEnvironment planStep)).toRemove = [] ∧
      ∀ doc, doc ∈ (planStep.sweep plainEnvironment
          (emptyDense.sync plainEnvironment planStep)).toEmbed ↔
        doc ∈ planSweep.toEmbed ∧ ¬ planSweep.EmbeddedBy 0 1 doc :=
  resumed_sync plainEnvironment emptyDense planStep planStep rfl rfl
    planSweep_oneLength

/-- A sync that ends clean, with a batch size that adds up to the number of
documents to embed and with vectors of one length, leaves nothing to do: the
next one, at any batch size and with the service up or down, writes nothing. -/
theorem idle_sync (stored mirror : StoredDenseIndex) (step next : DenseSyncStep)
    (sameTree : next.tree = step.tree)
    (sameCap : next.options.maxDocChars = step.options.maxDocChars)
    (passes : JsNumber.Passes step.options.batchSize
      (step.sweep env stored).toEmbed.length)
    (oneLength : (step.sweep env stored).OneLength) {rounds : Nat}
    {outcome : SyncOutcome}
    (ended : (step.sweep env stored).syncFor rounds = .inr outcome)
    (reported : outcome.report.Clean) (isMirror : mirror.1 = outcome.db)
    (later : Nat) :
    (next.sweep env mirror).syncFor (later + 1) = .inr
      { db := outcome.db
        moments := [outcome.db.toDenseTables]
        report :=
          { embedded := 0
            removed := 0
            skipped := .finite 0
            totalDocs := outcome.db.docs.length
            serviceDown := false } } := by
  have clean : (step.sweep env stored).CleanSync := by
    by_cases down : (step.sweep env stored).Down
    · exact DenseSweep.cleanSync_of_down down
    · have stop := DenseSweep.exists_stop_of_passes (.inl passes)
      exact DenseSweep.cleanSync_of_oneLength down stop (.inl passes) oneLength
  have mirrors := clean.mirrors rounds outcome ended reported
  have sameDisk : (next.sweep env mirror).onDisk =
      (step.sweep env stored).onDisk := by
    change next.options.onDisk env next.tree = step.options.onDisk env step.tree
    unfold DenseSyncOptions.onDisk
    rw [sameTree, sameCap]
  have embedded : (next.sweep env mirror).toEmbed = [] := by
    refine List.filter_eq_nil_iff.mpr fun doc isDoc changed => ?_
    rw [sameDisk] at isDoc
    obtain ⟨embedding, holds, -⟩ := mirrors.indexed doc isDoc
    rw [← isMirror] at holds
    exact of_decide_eq_true changed
      (DenseDb.storedHash_of_holds mirror.2 holds)
  have removed : (next.sweep env mirror).toRemove = [] := by
    refine List.filter_eq_nil_iff.mpr fun docId member gone => ?_
    change docId ∈ mirror.1.docs.map DenseDocRow.docId at member
    rw [isMirror] at member
    rw [sameDisk] at gone
    exact of_decide_eq_true gone (mirrors.docIds.mem_iff.mp member)
  have count : (step.sweep env stored).onDisk.length =
      outcome.db.docs.length := by
    simpa using mirrors.docIds.length_eq.symm
  rw [DenseSweep.syncFor_idle embedded removed, sameDisk, count]
  change _ = Sum.inr (SyncOutcome.mk outcome.db _ _)
  rw [← isMirror]
  rfl

theorem idle_sync_plan :
    ∃ mirror : StoredDenseIndex, mirror.1.docs.length = 2 ∧
      (planStep.sweep plainEnvironment mirror).syncFor 1 = .inr
        { db := mirror.1
          moments := [mirror.1.toDenseTables]
          report :=
            { embedded := 0
              removed := 0
              skipped := .finite 0
              totalDocs := mirror.1.docs.length
              serviceDown := false } } := by
  have up : ¬ planSweep.Down := fun down => nomatch down.2
  have ended := DenseSweep.syncFor_stops up
    (fun earlier less => by
      rw [Nat.lt_one_iff.mp less]
      exact planSweep_goes.1)
    fun goes => planSweep_goes.2 goes.1
  have count : (planSweep.stateAt 1).db.docs.length = 2 := by decide +kernel
  have reported : (planSweep.outcomeAt 1).report.Clean :=
    ⟨by decide +kernel, by decide +kernel⟩
  exact ⟨⟨(planSweep.outcomeAt 1).db, DenseSweep.sound_stateAt 1⟩, count,
    idle_sync plainEnvironment emptyDense _ planStep planStep rfl rfl
      planSweep_passes planSweep_oneLength ended reported rfl 0⟩

/-- At whatever points the syncs of a run are stopped, each stored vector is
one that the service has returned in one of them, before the point where it was
stopped and for the text that the stored hash is the hash of. -/
theorem vector_of_hashed_text (steps : List DenseSyncStep)
    {docId contentHash : String} {embedding : Embedding}
    (holds : (denseIndexAfter env steps).1.Holds docId contentHash
      embedding) :
    ∃ before step after, steps = before ++ step :: after ∧ ∃ doc rounds,
      (step.sweep env (denseIndexAfter env before)).ReturnedBefore rounds doc
          embedding ∧
        (step.sweep env (denseIndexAfter env before)).EmbeddedBy step.rounds
          step.vectors doc ∧
        doc ∈ step.options.onDisk env step.tree ∧ doc.docId = docId ∧
          computeContentHash env doc.text = contentHash := by
  induction steps using List.reverseRecOn with
  | nil =>
      obtain ⟨row, isRow, -⟩ := holds
      cases isRow
  | append_singleton steps step induction =>
      rw [denseIndexAfter_concat] at holds
      rcases DenseSweep.holds_stoppedAt_cases holds with
        ⟨doc, ⟨rounds, returned⟩, embedded, rfl, rfl⟩ | old
      · have onDisk : doc ∈ step.options.onDisk env step.tree :=
          returned.onDisk
        refine ⟨steps, step, [], rfl, doc, rounds, returned, embedded, onDisk,
          rfl, ?_⟩
        obtain ⟨source, -, rfl⟩ := List.mem_map.mp onDisk
        rfl
      · obtain ⟨before, earlier, after, rfl, rest⟩ := induction old
        exact ⟨before, earlier, after ++ [step], by simp, rest⟩

end Runs

theorem vector_of_hashed_text_plan :
    ∃ doc rounds, (planStep.sweep plainEnvironment emptyDense).ReturnedBefore
        rounds doc [1] ∧ doc.docId = "qmd://kb-curated/note.md" := by
  have holds : (denseIndexAfter plainEnvironment [planStep]).1.Holds
      "qmd://kb-curated/note.md" "one" [1] :=
    ⟨⟨1, "qmd://kb-curated/note.md", "kb-curated", "one", "one"⟩,
      by decide +kernel, rfl, rfl, ⟨1, "kb-curated", [1]⟩, by decide +kernel,
      rfl, rfl⟩
  obtain ⟨before, step, after, split, doc, rounds, returned, -, -, named, -⟩ :=
    vector_of_hashed_text plainEnvironment [planStep] holds
  obtain ⟨rfl, rest⟩ : before = [] ∧ [planStep] = step :: after := by
    cases before with
    | nil => exact ⟨rfl, split⟩
    | cons first before => simp at split
  obtain ⟨rfl, -⟩ := List.cons_eq_cons.mp rest
  exact ⟨doc, rounds, returned, named⟩

end Registrar
