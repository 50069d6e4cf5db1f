import Registrar.Index.Mirror
import Registrar.Index.NextSweep
import Registrar.Search.DenseMirror

/-!
# Syncs that end with a mirror of the exports

The states of the loop one round after another, and from them the condition
under which a sync ends, keeps its tables together and mirrors the exports.
-/

namespace Registrar

namespace DenseSweep

variable (sweep : DenseSweep)

theorem sound_cleared : sweep.cleared.db.Sound := by
  unfold cleared
  split
  · exact sweep.sound
  · exact sweep.sound.remove _

theorem sameRowIds_initial :
    ∀ moment ∈ sweep.initial.moments, moment.SameRowIds := by
  intro moment member
  rcases List.mem_cons.mp member with rfl | removed
  · exact sweep.sound.linked.sameRowIds
  · unfold cleared at removed
    split at removed
    · cases removed
    · exact DenseDb.sameRowIds_remove sweep.sound _ moment removed

theorem holds_cleared {docId contentHash : String} {embedding : Embedding} :
    sweep.cleared.db.Holds docId contentHash embedding ↔
      docId ∉ sweep.toRemove ∧
        sweep.stored.Holds docId contentHash embedding := by
  unfold cleared
  split
  · rename_i isEmpty
    simp [isEmpty]
  · exact DenseTables.holds_deleteDocs sweep.sound.linked

theorem mem_docIds_cleared {docId : String} :
    docId ∈ sweep.cleared.db.docs.map DenseDocRow.docId ↔
      docId ∉ sweep.toRemove ∧
        docId ∈ sweep.stored.docs.map DenseDocRow.docId := by
  unfold cleared
  split
  · rename_i isEmpty
    simp [isEmpty]
  · exact DenseTables.mem_docIds_deleteDocs sweep.sound.linked

theorem onDisk_of_mem_cleared {docId : String}
    (member : docId ∈ sweep.cleared.db.docs.map DenseDocRow.docId) :
    docId ∈ sweep.onDisk.map DenseInput.docId := by
  obtain ⟨kept, stored⟩ := sweep.mem_docIds_cleared.mp member
  by_contra gone
  exact kept (List.mem_filter.mpr ⟨stored, decide_eq_true gone⟩)

theorem not_mem_toRemove {doc : DenseInput} (isDoc : doc ∈ sweep.onDisk) :
    doc.docId ∉ sweep.toRemove := by
  intro removed
  have gone := of_decide_eq_true (List.mem_filter.mp removed).2
  exact gone (List.mem_map_of_mem isDoc)

theorem mem_toEmbed {doc : DenseInput} :
    doc ∈ sweep.toEmbed ↔ doc ∈ sweep.onDisk ∧
      sweep.stored.storedHash doc.docId ≠ some doc.contentHash := by
  simp [toEmbed]

theorem indexed_unchanged {doc : DenseInput} (isDoc : doc ∈ sweep.onDisk)
    (unchanged : doc ∉ sweep.toEmbed) :
    sweep.Indexed sweep.cleared.db doc := by
  have same : sweep.stored.storedHash doc.docId = some doc.contentHash := by
    by_contra changed
    exact unchanged (sweep.mem_toEmbed.mpr ⟨isDoc, changed⟩)
  obtain ⟨embedding, holds⟩ := sweep.sound.exists_holds same
  exact ⟨embedding,
    sweep.holds_cleared.mpr ⟨sweep.not_mem_toRemove isDoc, holds⟩, .inl holds⟩

theorem not_indexed_toEmbed {doc : DenseInput}
    (isPending : doc ∈ sweep.toEmbed) :
    ¬ sweep.Indexed sweep.cleared.db doc := by
  rintro ⟨embedding, holds, -⟩
  have stored := (sweep.holds_cleared.mp holds).2
  exact (sweep.mem_toEmbed.mp isPending).2
    (DenseDb.storedHash_of_holds sweep.sound stored)

theorem mem_onDisk_of_mem_batch {round : Nat} {doc : DenseInput}
    (member : doc ∈ sweep.batch round) : doc ∈ sweep.onDisk :=
  (sweep.mem_toEmbed.mp (JsNumber.slice_subset member)).1

variable {sweep}

theorem stateAt_answered {round : Nat} {vectors : List Embedding}
    (answered : sweep.answer round = some vectors) :
    (sweep.stateAt (round + 1)).db = (storeVectors (sweep.stateAt round).db
        ((sweep.batch round).zip vectors)).db ∧
      (sweep.stateAt (round + 1)).moments = (sweep.stateAt round).moments ++
        (storeVectors (sweep.stateAt round).db
          ((sweep.batch round).zip vectors)).moments ∧
      (sweep.stateAt (round + 1)).skipped = (sweep.stateAt round).skipped := by
  rw [stateAt, advance, answered]
  exact ⟨rfl, rfl, rfl⟩

theorem stateAt_failed {round : Nat} (failed : sweep.answer round = none) :
    (sweep.stateAt (round + 1)).db = (sweep.stateAt round).db ∧
      (sweep.stateAt (round + 1)).moments = (sweep.stateAt round).moments ∧
      (sweep.stateAt (round + 1)).skipped =
        (sweep.stateAt round).skipped + (sweep.batch round).length := by
  rw [stateAt, advance, failed]
  exact ⟨rfl, rfl, rfl⟩

theorem sound_stateAt (round : Nat) : (sweep.stateAt round).db.Sound := by
  induction round with
  | zero => exact sweep.sound_cleared
  | succ round induction =>
      cases answered : sweep.answer round with
      | none => rwa [(stateAt_failed answered).1]
      | some vectors =>
          rw [(stateAt_answered answered).1]
          exact sound_storeVectors induction _

theorem answer_of_batch_eq_nil {round : Nat}
    (isEmpty : sweep.batch round = []) : sweep.answer round = some [] := by
  unfold answer
  rw [isEmpty]
  exact embedBatchWithRetry_nil _ _

/-- Nothing is skipped only if every batch is answered. -/
theorem answered_of_skipped {round : Nat}
    (clean : (sweep.stateAt round).skipped = 0) :
    ∀ earlier < round, sweep.answer earlier ≠ none := by
  induction round with
  | zero => exact nofun
  | succ round induction =>
      have both : (sweep.stateAt round).skipped = 0 ∧
          sweep.answer round ≠ none := by
        cases answered : sweep.answer round with
        | some vectors =>
            rw [(stateAt_answered answered).2.2] at clean
            exact ⟨clean, nofun⟩
        | none =>
            rw [(stateAt_failed answered).2.2] at clean
            have empty := List.length_eq_zero_iff.mp
              (Nat.add_eq_zero_iff.mp clean).2
            rw [answer_of_batch_eq_nil empty] at answered
            cases answered
      intro earlier less
      rcases Nat.lt_succ_iff_lt_or_eq.mp less with before | rfl
      · exact induction both.1 earlier before
      · exact both.2

theorem reached_of_goes {round : Nat}
    (goes : ∀ earlier < round + 1, sweep.Goes earlier) :
    sweep.Reached round :=
  ⟨fun earlier less => goes earlier (Nat.lt_succ_of_lt less),
    (goes round (Nat.lt_succ_self round)).1⟩

/-- What the loop keeps while all vectors have one length. -/
structure Kept (sweep : DenseSweep) (length round : Nat) : Prop where
  fits : (sweep.stateAt round).db.Fits length
  sameRowIds : ∀ moment ∈ (sweep.stateAt round).moments, moment.SameRowIds
  onDisk : ∀ docId ∈ (sweep.stateAt round).db.docs.map DenseDocRow.docId,
    docId ∈ sweep.onDisk.map DenseInput.docId
  unchanged : ∀ doc ∈ sweep.onDisk, doc ∉ sweep.toEmbed →
    sweep.Indexed (sweep.stateAt round).db doc
  embedded : ∀ earlier < round, sweep.answer earlier ≠ none →
    ∀ doc ∈ sweep.batch earlier, sweep.Indexed (sweep.stateAt round).db doc

theorem mem_pairs {round : Nat} {vectors : List Embedding}
    (answered : sweep.answer round = some vectors) {doc : DenseInput}
    (member : doc ∈ sweep.batch round) :
    ∃ vector, (doc, vector) ∈ (sweep.batch round).zip vectors := by
  have paired := List.map_fst_zip (sweep.length_answer answered).ge
  rw [← paired] at member
  obtain ⟨⟨doc, vector⟩, isPair, rfl⟩ := List.mem_map.mp member
  exact ⟨vector, isPair⟩

theorem storedBatch_of_oneLength {length round : Nat}
    {vectors : List Embedding} (fits : (sweep.stateAt round).db.Fits length)
    (reached : sweep.Reached round)
    (answered : sweep.answer round = some vectors)
    (sized : ∀ vector ∈ vectors, vector.length = length) :
    StoredBatch sweep (sweep.stateAt round).db length
      ((sweep.batch round).zip vectors) := by
  refine storedBatch (sound_stateAt round) fits ?_ ?_
  · intro pair member
    exact sized pair.2 (List.of_mem_zip member).2
  · intro pair member
    exact ⟨sweep.mem_onDisk_of_mem_batch (List.of_mem_zip member).1,
      .inr ⟨round, reached, vectors, answered, member⟩⟩

theorem kept_stateAt {length : Nat} (fits : sweep.cleared.db.Fits length)
    (sized : ∀ round, sweep.Reached round → ∀ vectors,
      sweep.answer round = some vectors →
        ∀ vector ∈ vectors, vector.length = length)
    {round : Nat} (goes : ∀ earlier < round, sweep.Goes earlier) :
    Kept sweep length round := by
  induction round with
  | zero =>
      exact ⟨fits, sweep.sameRowIds_initial,
        fun _ => sweep.onDisk_of_mem_cleared,
        fun _ => sweep.indexed_unchanged, nofun⟩
  | succ round induction =>
      have kept := induction fun earlier less =>
        goes earlier (Nat.lt_succ_of_lt less)
      have reached := reached_of_goes goes
      cases answered : sweep.answer round with
      | none =>
          obtain ⟨db, moments, -⟩ := stateAt_failed answered
          refine ⟨db ▸ kept.fits, moments ▸ kept.sameRowIds,
            db ▸ kept.onDisk, db ▸ kept.unchanged, ?_⟩
          intro earlier less present
          rcases Nat.lt_succ_iff_lt_or_eq.mp less with before | rfl
          · rw [db]
            exact kept.embedded earlier before present
          · exact absurd answered present
      | some vectors =>
          obtain ⟨db, moments, -⟩ := stateAt_answered answered
          have stored := storedBatch_of_oneLength kept.fits reached answered
            (sized round reached vectors answered)
          constructor
          · rw [db]
            exact stored.fits
          · intro moment member
            rw [moments] at member
            rcases List.mem_append.mp member with before | now
            · exact kept.sameRowIds moment before
            · exact stored.sameRowIds moment now
          · intro docId member
            rw [db] at member
            rcases stored.onDisk docId member with before | now
            · exact kept.onDisk docId before
            · exact now
          · intro doc isDoc unchanged
            rw [db]
            exact stored.kept doc isDoc (kept.unchanged doc isDoc unchanged)
          · intro earlier less present doc member
            rw [db]
            rcases Nat.lt_succ_iff_lt_or_eq.mp less with before | rfl
            · exact stored.kept doc (sweep.mem_onDisk_of_mem_batch member)
                (kept.embedded earlier before present doc member)
            · obtain ⟨vector, isPair⟩ := mem_pairs answered member
              exact stored.own (doc, vector) isPair

theorem settled_stateAt
    (sameRowIds : ∀ round, (∀ earlier < round, sweep.Goes earlier) →
      ∀ moment ∈ (sweep.stateAt round).moments, moment.SameRowIds)
    {round : Nat} (goes : ∀ earlier < round, sweep.Goes earlier) :
    (∀ length, sweep.cleared.db.Settled length →
        (sweep.stateAt round).db.Settled length) ∧
      ∀ earlier < round, ∀ vectors, sweep.answer earlier = some vectors →
        ∀ vector ∈ vectors,
          (sweep.stateAt round).db.Settled vector.length := by
  induction round with
  | zero => exact ⟨fun _ => id, nofun⟩
  | succ round induction =>
      obtain ⟨start, before⟩ := induction fun earlier less =>
        goes earlier (Nat.lt_succ_of_lt less)
      have step : (∀ length, (sweep.stateAt round).db.Settled length →
            (sweep.stateAt (round + 1)).db.Settled length) ∧
          ∀ vectors, sweep.answer round = some vectors → ∀ vector ∈ vectors,
            (sweep.stateAt (round + 1)).db.Settled vector.length := by
        cases answered : sweep.answer round with
        | none =>
            rw [(stateAt_failed answered).1]
            exact ⟨fun _ => id, nofun⟩
        | some vectors =>
            obtain ⟨db, moments, -⟩ := stateAt_answered answered
            obtain ⟨dims, uniform⟩ := (sweep.answer_answers answered).uniform
            have sameLength := sweep.length_answer answered
            rw [db]
            by_cases isEmpty : vectors = []
            · rw [isEmpty, List.zip_nil_right]
              exact ⟨fun _ => id, by rintro _ ⟨⟩; exact nofun⟩
            · have nonempty : (sweep.batch round).zip vectors ≠ [] := by
                intro empty
                rcases List.zip_eq_nil_iff.mp empty with noBatch | noVectors
                · rw [noBatch] at sameLength
                  exact isEmpty (List.length_eq_zero_iff.mp sameLength)
                · exact isEmpty noVectors
              obtain ⟨settled, fits⟩ := settled_storeVectors
                (sound_stateAt round) nonempty fun pair member =>
                  uniform pair.2 (List.of_mem_zip member).2
              have fitted := fits fun moment member =>
                sameRowIds (round + 1) goes moment
                  (moments ▸ List.mem_append_right _ member)
              constructor
              · intro length old
                rwa [old.fits_iff.mp fitted] at settled
              · rintro _ ⟨⟩ vector member
                rwa [uniform vector member]
      refine ⟨fun length old => step.1 length (start length old), ?_⟩
      intro earlier less vectors answered vector member
      rcases Nat.lt_succ_iff_lt_or_eq.mp less with sooner | rfl
      · exact step.1 _ (before earlier sooner vectors answered vector member)
      · exact step.2 vectors answered vector member

theorem goes_of_reached {round : Nat} (reached : sweep.Reached round)
    {vectors : List Embedding}
    (answered : sweep.answer round = some vectors) :
    ∀ earlier < round + 1, sweep.Goes earlier := by
  intro earlier less
  rcases Nat.lt_succ_iff_lt_or_eq.mp less with before | rfl
  · exact reached.1 earlier before
  · refine ⟨reached.2, fun outage => ?_⟩
    rw [outage.1] at answered
    cases answered

theorem oneLength_of_sameRowIds
    (sameRowIds : ∀ round, (∀ earlier < round, sweep.Goes earlier) →
      ∀ moment ∈ (sweep.stateAt round).moments, moment.SameRowIds) :
    sweep.OneLength := by
  by_cases stored : sweep.cleared.db.vecs = []
  · by_cases someVector : ∃ round, sweep.Reached round ∧ ∃ vectors,
        sweep.answer round = some vectors ∧ ∃ vector, vector ∈ vectors
    · obtain ⟨first, reached, vectors, answered, vector, member⟩ := someVector
      refine ⟨vector.length, .inl stored, ?_⟩
      intro round reached' vectors' answered' vector' member'
      have goes := goes_of_reached reached answered
      have goes' := goes_of_reached reached' answered'
      have both : ∀ earlier < max (first + 1) (round + 1),
          sweep.Goes earlier := by
        intro earlier less
        rcases lt_max_iff.mp less with one | other
        · exact goes earlier one
        · exact goes' earlier other
      have settled := (settled_stateAt sameRowIds both).2
      exact (settled round (by omega) vectors' answered' vector'
        member').unique (settled first (by omega) vectors answered vector
          member)
    · refine ⟨0, .inl stored, ?_⟩
      intro round reached vectors answered vector member
      exact absurd ⟨round, reached, vectors, answered, vector, member⟩ someVector
  · obtain ⟨vec, member⟩ := List.exists_mem_of_ne_nil _ stored
    have dims := sweep.sound_cleared.sized vec member
    refine ⟨vec.embedding.length, .inr dims, ?_⟩
    intro round reached vectors answered vector member
    obtain ⟨start, batches⟩ := settled_stateAt sameRowIds
      (goes_of_reached reached answered)
    exact (batches round (Nat.lt_succ_self round) vectors answered vector
      member).unique (start _ ⟨stored, dims⟩)

variable (sweep)

/-- The service is down before the loop, and there is work. -/
def Down : Prop :=
  sweep.toEmbed ≠ [] ∧ sweep.service.healthy = false

variable {sweep}

theorem syncFor_of_down (down : sweep.Down) (rounds : Nat) :
    sweep.syncFor rounds =
      .inr
        { db := sweep.initial.db
          moments := sweep.initial.moments
          report :=
            sweep.report 0 (.finite sweep.toEmbed.length) true } :=
  if_pos down

theorem syncFor_of_not_down (up : ¬ sweep.Down) (rounds : Nat) :
    sweep.syncFor rounds =
      Loop.runFor sweep.syncBatch rounds sweep.initial :=
  if_neg up

theorem syncFor_stops (up : ¬ sweep.Down) {last : Nat}
    (goes : ∀ earlier < last, sweep.Goes earlier)
    (stops : ¬ sweep.Goes last) :
    sweep.syncFor (last + 1) = .inr (sweep.outcomeAt last) := by
  rw [syncFor_of_not_down up]
  exact sweep.runFor_stops goes stops

theorem exists_last (up : ¬ sweep.Down) {rounds : Nat} {outcome : SyncOutcome}
    (ended : sweep.syncFor rounds = .inr outcome) :
    ∃ last, (∀ earlier < last, sweep.Goes earlier) ∧ ¬ sweep.Goes last ∧
      outcome = sweep.outcomeAt last := by
  rw [syncFor_of_not_down up] at ended
  rcases sweep.runFor_cases rounds with
    ⟨-, run⟩ | ⟨last, -, goes, stops, run⟩
  · rw [run] at ended
    cases ended
  · rw [run] at ended
    exact ⟨last, goes, stops, (Sum.inr.inj ended).symm⟩

theorem exists_first_stop (stop : ∃ round, ¬ sweep.Goes round) :
    ∃ last, (∀ earlier < last, sweep.Goes earlier) ∧
      ¬ sweep.Goes last := by
  classical
  refine ⟨Nat.find stop, fun earlier less => ?_, Nat.find_spec stop⟩
  exact not_not.mp (Nat.find_min stop less)

theorem of_clean {last : Nat}
    (clean : (sweep.outcomeAt last).report.Clean) :
    ¬ sweep.Before last ∧ (sweep.stateAt last).skipped = 0 := by
  obtain ⟨up, skipped⟩ := clean
  unfold outcomeAt at up skipped
  by_cases before : sweep.Before last
  · rw [if_pos before] at up
    cases up
  · rw [if_neg before] at skipped
    exact ⟨before, Nat.cast_eq_zero.mp (JsNumber.finite.inj skipped)⟩

/-- While the stride is a number that passes no bound and the service stays
up, the loop goes on. -/
theorem goes_of_stuck (isNumber : sweep.batchSize ≠ .notANumber)
    (stuck : ¬ JsNumber.Passes sweep.batchSize sweep.toEmbed.length)
    (up : ∀ round, sweep.Reached round → ¬ sweep.Outage round)
    (round : Nat) : sweep.Goes round := by
  induction round using Nat.strong_induction_on with
  | _ round induction =>
      have before : sweep.Before round :=
        JsNumber.lessThan_of_not_passes isNumber stuck round
      exact ⟨before, up round ⟨induction, before⟩⟩

/-- The rows of a sync that has come to the end of the list. -/
theorem mirrors_of_kept {length last : Nat} (kept : Kept sweep length last)
    (answered : ∀ earlier < last, sweep.answer earlier ≠ none)
    (passed : JsNumber.AtLeast sweep.toEmbed.length
      (JsNumber.position sweep.batchSize last)) :
    sweep.Mirrors (sweep.stateAt last).db := by
  have indexed : ∀ doc ∈ sweep.onDisk,
      sweep.Indexed (sweep.stateAt last).db doc := by
    intro doc isDoc
    by_cases isPending : doc ∈ sweep.toEmbed
    · obtain ⟨round, less, member⟩ :=
        JsNumber.exists_mem_slice passed isPending
      exact kept.embedded round less (answered round less) doc member
    · exact kept.unchanged doc isDoc isPending
  refine ⟨?_, indexed⟩
  rw [List.perm_ext_iff_of_nodup (sound_stateAt last).linked.docIds
    sweep.distinct]
  intro docId
  constructor
  · exact kept.onDisk docId
  · intro member
    obtain ⟨doc, isDoc, rfl⟩ := List.mem_map.mp member
    obtain ⟨-, ⟨row, isRow, named, -⟩, -⟩ := indexed doc isDoc
    exact named ▸ List.mem_map_of_mem isRow

/-- The index of the loop is a number while it is to pass a bound. -/
theorem atLeast_of_passes {bound last : Nat} {stride : JsNumber}
    (passes : JsNumber.Passes stride bound)
    (before : ∀ earlier < last,
      (JsNumber.position stride earlier).lessThan (.finite bound) = true)
    (behind : (JsNumber.position stride last).lessThan (.finite bound) =
      false) :
    JsNumber.AtLeast bound (JsNumber.position stride last) := by
  rcases JsNumber.lessThan_eq_false_iff.mp behind with notANumber | passed
  · obtain ⟨rounds, passed⟩ := passes
    have later : last ≤ rounds := by
      by_contra sooner
      have below := before rounds (by omega)
      rw [JsNumber.lessThan_eq_false_iff.mpr (.inr passed)] at below
      cases below
    have stays (more : Nat) :
        JsNumber.position stride (last + more) = .notANumber := by
      induction more with
      | zero => exact notANumber
      | succ more induction =>
          rw [← Nat.add_assoc, JsNumber.position, induction]
          rfl
    obtain ⟨more, rfl⟩ := Nat.exists_eq_add_of_le later
    rw [stays] at passed
    cases passed
  · exact passed

theorem not_mirrors_notANumber (notANumber : sweep.batchSize = .notANumber)
    (pending : sweep.toEmbed ≠ []) :
    ¬ sweep.Mirrors (sweep.stateAt 1).db := by
  have empty : sweep.batch 0 = [] := by
    unfold batch
    rw [notANumber]
    exact JsNumber.slice_notANumber _ _
  have answered := answer_of_batch_eq_nil empty
  intro mirrors
  obtain ⟨doc, isPending⟩ := List.exists_mem_of_ne_nil _ pending
  have indexed := mirrors.indexed doc (sweep.mem_toEmbed.mp isPending).1
  rw [(stateAt_answered answered).1, List.zip_nil_right] at indexed
  exact sweep.not_indexed_toEmbed isPending indexed

/-! ## When a sync is clean -/

theorem cleanSync_of_down (down : sweep.Down) : sweep.CleanSync := by
  have run := syncFor_of_down down
  refine ⟨⟨0, _, run 0⟩, fun rounds => ?_, ?_⟩
  · rw [run]
    exact sweep.sameRowIds_initial
  · intro rounds outcome ended clean
    rw [run] at ended
    rw [← Sum.inr.inj ended] at clean
    cases clean.1

theorem cleanSync_of_oneLength (up : ¬ sweep.Down)
    (stop : ∃ round, ¬ sweep.Goes round)
    (passes : JsNumber.Passes sweep.batchSize sweep.toEmbed.length ∨
      ∃ round, sweep.Reached round ∧ sweep.Outage round)
    (oneLength : sweep.OneLength) : sweep.CleanSync := by
  obtain ⟨length, fits, sized⟩ := oneLength
  constructor
  · obtain ⟨last, goes, stops⟩ := exists_first_stop stop
    exact ⟨last + 1, _, syncFor_stops up goes stops⟩
  · intro rounds
    rw [syncFor_of_not_down up]
    rcases sweep.runFor_cases rounds with
      ⟨goes, run⟩ | ⟨last, -, goes, -, run⟩
    · rw [run]
      exact (kept_stateAt fits sized goes).sameRowIds
    · rw [run]
      exact (kept_stateAt fits sized goes).sameRowIds
  · intro rounds outcome ended clean
    obtain ⟨last, goes, stops, rfl⟩ := exists_last up ended
    obtain ⟨behind, skipped⟩ := of_clean clean
    refine mirrors_of_kept (kept_stateAt fits sized goes)
      (answered_of_skipped skipped) ?_
    rcases passes with passes | ⟨round, reached, outage⟩
    · exact atLeast_of_passes passes (fun earlier less =>
        (goes earlier less).1) (Bool.not_eq_true _ ▸ behind)
    · -- An outage would be where the loop has ended.
      rcases Nat.lt_trichotomy round last with sooner | rfl | later
      · exact absurd outage (goes round sooner).2
      · exact absurd reached.2 behind
      · exact absurd (reached.1 last later) stops

theorem exists_stop_of_passes
    (passes : JsNumber.Passes sweep.batchSize sweep.toEmbed.length ∨
      ∃ round, sweep.Reached round ∧ sweep.Outage round) :
    ∃ round, ¬ sweep.Goes round := by
  rcases passes with ⟨rounds, passed⟩ | ⟨round, -, outage⟩
  · refine ⟨rounds, fun goes => ?_⟩
    have below : _ = true := goes.1
    rw [JsNumber.lessThan_eq_false_iff.mpr (.inr passed)] at below
    cases below
  · exact ⟨round, fun goes => goes.2 outage⟩

theorem passes_of_cleanSync (up : ¬ sweep.Down) (clean : sweep.CleanSync) :
    JsNumber.Passes sweep.batchSize sweep.toEmbed.length ∨
      ∃ round, sweep.Reached round ∧ sweep.Outage round := by
  by_contra neither
  obtain ⟨stuck, noOutage⟩ := not_or.mp neither
  have steady (round : Nat) (reached : sweep.Reached round) :
      ¬ sweep.Outage round :=
    fun outage => noOutage ⟨round, reached, outage⟩
  by_cases notANumber : sweep.batchSize = .notANumber
  · have pending : sweep.toEmbed ≠ [] := by
      intro isEmpty
      refine stuck ⟨0, ?_⟩
      rw [isEmpty]
      exact le_refl (0 : ℚ)
    have before : sweep.Before 0 := by
      have positive := List.length_pos_iff.mpr pending
      simpa [Before, JsNumber.position, JsNumber.lessThan] using positive
    have reached : sweep.Reached 0 :=
      ⟨fun earlier less => absurd less (Nat.not_lt_zero earlier), before⟩
    have first : sweep.Goes 0 := ⟨before, steady 0 reached⟩
    have behind : ¬ sweep.Before 1 := by
      unfold Before
      rw [notANumber]
      exact Bool.false_ne_true
    have goes : ∀ earlier < 1, sweep.Goes earlier := by
      intro earlier less
      rwa [Nat.lt_one_iff.mp less]
    have ended := syncFor_stops up goes fun goes => behind goes.1
    have empty : sweep.batch 0 = [] := by
      unfold batch
      rw [notANumber]
      exact JsNumber.slice_notANumber _ _
    have skipped :=
      (stateAt_answered (answer_of_batch_eq_nil empty)).2.2
    refine not_mirrors_notANumber notANumber pending
      (clean.mirrors _ _ ended ?_)
    unfold outcomeAt
    rw [if_neg behind, skipped]
    exact ⟨rfl, rfl⟩
  · obtain ⟨rounds, outcome, ended⟩ := clean.ends
    obtain ⟨last, -, stops, -⟩ := exists_last up ended
    exact stops (goes_of_stuck notANumber stuck steady last)

theorem oneLength_of_cleanSync (up : ¬ sweep.Down) (clean : sweep.CleanSync) :
    sweep.OneLength := by
  refine oneLength_of_sameRowIds fun round goes moment member => ?_
  refine clean.sameRowIds round moment ?_
  rw [syncFor_of_not_down up, sweep.runFor_goes goes]
  exact member

end DenseSweep

theorem sound_syncFor (sweep : DenseSweep) (rounds : Nat) :
    Sum.elim (fun state => state.db.Sound) (fun outcome => outcome.db.Sound)
      (sweep.syncFor rounds) := by
  unfold DenseSweep.syncFor
  split
  · exact sweep.sound_cleared
  · rcases sweep.runFor_cases rounds with ⟨-, run⟩ | ⟨last, -, -, -, run⟩
    · rw [run]
      exact DenseSweep.sound_stateAt rounds
    · rw [run]
      exact DenseSweep.sound_stateAt last

/-- An index between two operations. -/
abbrev StoredDenseIndex :=
  { db : DenseDb // db.Sound }

/-- The sync of an index with an export tree. -/
def DenseSyncOptions.sweep (env : Environment) (options : DenseSyncOptions)
    (tree : SourceTree) (service : EmbedService) (stored : StoredDenseIndex) :
    DenseSweep where
  batchSize := options.batchSize
  maxBatchRetries := options.maxBatchRetries
  service := service
  onDisk := options.onDisk env tree
  stored := stored.1
  distinct := by
    unfold DenseSyncOptions.onDisk
    rw [List.map_map]
    exact nodup_exportedDocs tree
  sound := stored.2

/-- Every sync ends, keeps the row ids of both tables the same at every moment
and mirrors the exports when its report is clean, exactly where the service is
down from the start, or the batch size adds up to the number of documents to
embed unless an outage ends the loop, and all vectors have one length. -/
theorem cleanSync_iff (env : Environment) (options : DenseSyncOptions)
    (tree : SourceTree) (service : EmbedService) (stored : StoredDenseIndex) :
    (options.sweep env tree service stored).CleanSync ↔
      service.healthy = false ∨
        (JsNumber.Passes options.batchSize
            (options.sweep env tree service stored).toEmbed.length ∨
          ∃ round, (options.sweep env tree service stored).Reached round ∧
            (options.sweep env tree service stored).Outage round) ∧
          (options.sweep env tree service stored).OneLength := by
  by_cases down : (options.sweep env tree service stored).Down
  · exact iff_of_true (DenseSweep.cleanSync_of_down down) (.inl down.2)
  constructor
  · intro clean
    exact .inr ⟨DenseSweep.passes_of_cleanSync down clean,
      DenseSweep.oneLength_of_cleanSync down clean⟩
  · rintro (unhealthy | ⟨passes, oneLength⟩)
    · -- With the service down and the sync not, there is nothing to embed.
      have isEmpty : (options.sweep env tree service stored).toEmbed = [] := by
        by_contra pending
        exact down ⟨pending, unhealthy⟩
      have behind : ¬ (options.sweep env tree service stored).Before 0 := by
        unfold DenseSweep.Before
        rw [isEmpty]
        exact nofun
      have passes : JsNumber.Passes
          (options.sweep env tree service stored).batchSize
          (options.sweep env tree service stored).toEmbed.length := by
        rw [isEmpty]
        exact ⟨0, le_refl (0 : ℚ)⟩
      refine DenseSweep.cleanSync_of_oneLength down
        ⟨0, fun goes => behind goes.1⟩ (.inl passes) ?_
      refine DenseSweep.oneLength_of_sameRowIds fun round goes => ?_
      cases round with
      | zero => exact (options.sweep env tree service stored).sameRowIds_initial
      | succ round =>
          exact absurd (goes 0 (Nat.succ_pos round)).1 behind
    · exact DenseSweep.cleanSync_of_oneLength down
        (DenseSweep.exists_stop_of_passes passes) passes oneLength

/-- Vectors of so many ones. -/
def onesService (dims : Nat) : EmbedService where
  healthy := true
  respond _ _ texts := some (texts.mapIdx fun index _ =>
    { index := some (.finite index)
      embedding := some (List.replicate dims (some (.finite 1))) })
  healthyAfter _ := true

def batchesOf (batchSize : JsNumber) : DenseSyncOptions where
  maxDocChars := 2000
  batchSize := batchSize
  maxBatchRetries := 5

def emptyDense : StoredDenseIndex where
  val :=
    { docs := []
      vecs := []
      dims := none }
  property := ⟨.nil, nofun⟩

/-- The tree of the note, with a plan beside it. -/
def planTree : SourceTree :=
  .write noteTree
    { sourceSubdir := "curated"
      name := ⟨"plan.md", by decide +kernel⟩ }
    { content := "two"
      mtimeMs := 1 }

/-- The index of the plan, with a vector of one number. -/
def planRows : StoredDenseIndex where
  val :=
    { docs :=
        [{ rowid := 1
           docId := "qmd://kb-curated/plan.md"
           collection := "kb-curated"
           contentHash := computeContentHash plainEnvironment "two"
           snippet := "two" }]
      vecs :=
        [{ rowid := 1
           collection := "kb-curated"
           embedding := [1] }]
      dims := some 1 }
  property := by
    refine ⟨⟨rfl, by simp, by simp⟩, fun vec member => ?_⟩
    rw [List.mem_singleton.mp member]
    rfl

/-- Batches of no document go on for ever; a longer vector drops the plan, and
the report is clean. -/
theorem syncs_not_clean :
    ¬ ((batchesOf (.finite 0)).sweep plainEnvironment noteTree
        (onesService 1) emptyDense).CleanSync ∧
      ¬ ((batchesOf (.finite 1)).sweep plainEnvironment planTree
        (onesService 2) planRows).CleanSync := by
  constructor
  · let sweep := (batchesOf (.finite 0)).sweep plainEnvironment noteTree
      (onesService 1) emptyDense
    intro clean
    have isUp : ¬ sweep.Down := fun down => nomatch down.2
    have pending : 0 < sweep.toEmbed.length := by decide +kernel
    rcases DenseSweep.passes_of_cleanSync isUp clean with
      ⟨rounds, passed⟩ | ⟨round, -, outage⟩
    · rw [show sweep.batchSize = .finite 0 from rfl,
        JsNumber.position_zero] at passed
      have noWork : (sweep.toEmbed.length : ℚ) ≤ 0 := passed
      exact absurd (Nat.cast_le.mp noWork) (Nat.not_le_of_gt pending)
    · cases outage.2
  · let sweep := (batchesOf (.finite 1)).sweep plainEnvironment planTree
      (onesService 2) planRows
    intro clean
    have ended : Sum.elim (fun _ => none) (fun outcome =>
        some (outcome.report.serviceDown, outcome.report.skipped,
          outcome.db.docs.length)) (sweep.syncFor 2) =
        some (false, JsNumber.finite 0, 1) := by
      decide +kernel
    cases run : sweep.syncFor 2 with
    | inl state =>
        rw [run] at ended
        cases ended
    | inr outcome =>
        rw [run] at ended
        simp only [Sum.elim_inr, Option.some_inj, Prod.mk.injEq] at ended
        obtain ⟨up, skipped, one⟩ := ended
        have mirrors := clean.mirrors 2 outcome run ⟨up, skipped⟩
        have two := mirrors.docIds.length_eq
        have exported : sweep.onDisk.length = 2 := by decide +kernel
        rw [List.length_map, one, List.length_map, exported] at two
        cases two

end Registrar
