import Registrar.Search.RerankPasses

/-!
# Runs of the rerank stage

Whatever calls have failed before, the cache holds scores of the model for the
texts that they are kept under.  So it changes no result, and a failure leaves
the fused list as it is.
-/

namespace Registrar

namespace Rerank

variable {env : Environment}

/-- What the client gives for a document is the score of the model.  A call
may fail in any way: give nothing, too little, or an index of no document. -/
def Call.Truthful (model : Model) (call : Call) : Prop :=
  ∀ documents scored, rerank call.service documents = some scored →
    ∀ entry ∈ scored, ∀ (position : Nat) document,
      entry.index = position → documents[position]? = some document →
        entry.score = model call.query document

/-- The model answers: it scores every document once, in any order. -/
def Call.Answers (model : Model) (call : Call) : Prop :=
  ∀ documents ≠ [], ∃ scored, rerank call.service documents = some scored ∧
    scored.Perm (documents.mapIdx fun position document =>
      { index := position
        score := model call.query document })

namespace Stage

variable {stage : Stage} {call : Call} {model : Model} {pairs : Pairs}
variable {cache : Option RerankCache}

theorem trueScores_of_truthful {misses : List Candidate}
    {scored : List ScoredDoc} (truthful : call.Truthful model)
    (answer : rerank call.service (misses.map (·.text)) = some scored) :
    TrueScores model call.query misses scored := by
  intro entry member miss found
  obtain ⟨position, isIndex, isMiss⟩ := natCast_of_missAt found
  refine truthful _ _ answer entry member position miss.text isIndex ?_
  rw [List.getElem?_map, isMiss]
  rfl

/-- The candidates with the scores of the model. -/
def ranked (env : Environment) (stage : Stage) (model : Model) (call : Call) :
    List Candidate :=
  (stage.candidates env call).map (Candidate.scored model call.query)

theorem eq_ranked {candidates : List Candidate}
    (follows : Follows model call.query (stage.candidates env call) candidates)
    (present : ∀ candidate ∈ candidates, candidate.score.isSome) :
    candidates = stage.ranked env model call := by
  unfold ranked
  rw [← follows.same, List.map_map]
  refine ((List.map_congr_left fun candidate member => ?_).trans
    (List.map_id candidates)).symm
  exact (@Candidate.eq_scored model call.query candidate candidate.unscored rfl
    (follows.right candidate member) (present candidate member)).symm

/-- The candidates with scores of the model are served as the model ranks them,
or not at all. -/
theorem reorder_cases {candidates : List Candidate}
    (follows : Follows model call.query (stage.candidates env call)
      candidates) :
    stage.reorder call.fused candidates = call.fused ∨
      stage.reorder call.fused candidates =
        stage.reorder call.fused (stage.ranked env model call) := by
  by_cases present : ∀ candidate ∈ candidates, candidate.score.isSome
  · rw [eq_ranked follows present]
    exact .inr rfl
  · left
    push Not at present
    obtain ⟨candidate, member, absent⟩ := present
    unfold reorder
    rw [if_pos]
    exact List.any_eq_true.mpr ⟨candidate, member, by simpa using absent⟩

theorem unscored_mem_of_misses {query : UnitText}
    {base candidates : List Candidate}
    (follows : Follows model query base candidates) :
    ∀ miss ∈ missesOf candidates, miss.unscored ∈ base := by
  intro miss member
  rw [← follows.same]
  exact List.mem_map_of_mem (mem_missesOf.mp member).1

/-- One call serves the fused list or the ranking of the model, and leaves a
sound cache. -/
theorem apply_cases (digests : Digests env) (alike : ReadAlike model pairs)
    (fresh : Fresh env pairs call.query (stage.candidates env call))
    (truthful : call.Truthful model) (sound : SoundCache env model pairs cache) :
    ((stage.apply env cache call).1 = call.fused ∨
      1 < call.fused.length ∧ (stage.apply env cache call).1 =
        stage.reorder call.fused (stage.ranked env model call)) ∧
      SoundCache env model pairs (stage.apply env cache call).2 := by
  have unchanged {after : Option RerankCache}
      (sound : SoundCache env model pairs after) :
      (call.fused = call.fused ∨ 1 < call.fused.length ∧ call.fused =
        stage.reorder call.fused (stage.ranked env model call)) ∧
          SoundCache env model pairs after :=
    ⟨.inl rfl, sound⟩
  unfold apply
  split_ifs with single
  · exact unchanged sound
  · have serves {candidates : List Candidate}
        (follows : Follows model call.query (stage.candidates env call)
          candidates) :
        stage.reorder call.fused candidates = call.fused ∨
          1 < call.fused.length ∧ stage.reorder call.fused candidates =
            stage.reorder call.fused (stage.ranked env model call) :=
      (reorder_cases follows).imp id fun same => ⟨by omega, same⟩
    obtain ⟨follows, soundAfter⟩ := cachePass_follows digests alike fresh.hash
      fresh.paired fresh.unscored sound 0
    rcases looking : cachePass env call 0 cache (stage.candidates env call) with
      ⟨looked, after⟩
    rw [looking] at follows soundAfter
    dsimp only at follows soundAfter ⊢
    split_ifs with nothing
    · exact ⟨serves follows, soundAfter⟩
    · split
      · exact unchanged soundAfter
      · next scored answer =>
        split_ifs with short
        · exact unchanged soundAfter
        · obtain ⟨marks, soundAtEnd⟩ := recordScores_follows fresh
            (unscored_mem_of_misses follows)
            (trueScores_of_truthful truthful answer) follows soundAfter 0
          split
          · next outcome =>
            rw [outcome] at soundAtEnd
            exact unchanged soundAtEnd
          · next outcome =>
            rw [outcome] at marks soundAtEnd
            exact ⟨serves (marks _ rfl), soundAtEnd⟩

/-- Where the model answers, the call serves the ranking of the model. -/
theorem apply_of_answers (digests : Digests env)
    (alike : ReadAlike model pairs)
    (fresh : Fresh env pairs call.query (stage.candidates env call))
    (truthful : call.Truthful model) (answers : call.Answers model)
    (sound : SoundCache env model pairs cache)
    (several : 1 < call.fused.length) :
    (stage.apply env cache call).1 =
      stage.reorder call.fused (stage.ranked env model call) := by
  obtain ⟨follows, soundAfter⟩ := cachePass_follows digests alike fresh.hash
    fresh.paired fresh.unscored sound 0
  unfold apply
  rw [if_neg (by omega)]
  rcases looking : cachePass env call 0 cache (stage.candidates env call) with
    ⟨looked, after⟩
  rw [looking] at follows soundAfter
  dsimp only at follows soundAfter ⊢
  split_ifs with nothing
  · rw [eq_ranked follows fun candidate member => ?_]
    by_contra absent
    have isMiss : candidate ∈ missesOf looked :=
      mem_missesOf.mpr ⟨member, Option.not_isSome_iff_eq_none.mp absent⟩
    rw [nothing] at isMiss
    cases isMiss
  · obtain ⟨scored, answer, complete⟩ := answers _
      (fun empty => nothing (List.map_eq_nil_iff.mp empty))
    have marks := (recordScores_follows fresh (unscored_mem_of_misses follows)
      (trueScores_of_truthful truthful answer) follows soundAfter 0).1
    have long : scored.length = (missesOf looked).length := by
      rw [complete.length_eq, List.length_mapIdx, List.length_map]
    have valid : ∀ entry ∈ scored,
        (missAt (missesOf looked) entry.index).isSome := by
      intro entry member
      obtain ⟨position, inRange, rfl⟩ :=
        List.mem_mapIdx.mp (complete.mem_iff.mp member)
      rw [List.length_map] at inRange
      rw [missAt_natCast, List.getElem?_eq_getElem inRange]
      rfl
    obtain ⟨marked, isMarked, gets⟩ :=
      @recordScores_marks env call after _ looked scored valid 0
    simp only [answer]
    rw [if_neg (not_not.mpr long)]
    rcases recording : recordScores env call (missesOf looked) 0 after looked
      scored with ⟨outcome, atEnd⟩
    rw [recording] at isMarked marks
    cases isMarked
    rw [eq_ranked (marks marked rfl) fun last member => ?_]
    obtain ⟨before, isBefore, gained⟩ := gets last member
    refine gained ?_
    by_cases known : before.score.isSome
    · exact .inl known
    · right
      have isMiss : before ∈ missesOf looked :=
        mem_missesOf.mpr ⟨isBefore, Option.not_isSome_iff_eq_none.mp known⟩
      obtain ⟨position, inRange, isHere⟩ := List.mem_iff_getElem.mp isMiss
      refine ⟨_, complete.mem_iff.mpr (List.mem_mapIdx.mpr
        ⟨position, by rwa [List.length_map], rfl⟩), before, ?_, rfl⟩
      rw [missAt_natCast, List.getElem?_eq_getElem inRange, isHere]
      rfl

/-- A query of the run with the text of a candidate of that call. -/
def IsPair (stage : Stage) (calls : List Call) : Pairs := fun query text =>
  ∃ call ∈ calls, call.query = query ∧
    ∃ hit ∈ call.fused.take stage.candidateWindow,
      stage.resolveDocText call.readFile hit = text

theorem mem_candidates {candidate : Candidate} :
    candidate ∈ stage.candidates env call ↔
      ∃ position, ∃ hit,
        (call.fused.take stage.candidateWindow)[position]? = some hit ∧
          candidate =
            { hit := hit
              fusedRank := position
              text := stage.resolveDocText call.readFile hit
              contentHash := computeContentHash env
                (utf8Text (stage.resolveDocText call.readFile hit))
              score := none } := by
  unfold candidates
  rw [List.mem_mapIdx]
  constructor
  · rintro ⟨position, inRange, rfl⟩
    exact ⟨position, _, List.getElem?_eq_getElem inRange, rfl⟩
  · rintro ⟨position, hit, found, rfl⟩
    obtain ⟨inRange, isHit⟩ := List.getElem?_eq_some_iff.mp found
    exact ⟨position, inRange, by rw [isHit]⟩

theorem positions_candidates :
    (stage.candidates env call).map (fun candidate =>
        (candidate.hit, candidate.fusedRank)) =
      (call.fused.take stage.candidateWindow).zipIdx := by
  unfold candidates
  rw [List.mapIdx_eq_zipIdx_map, List.map_map]
  exact (List.map_congr_left fun place _ => rfl).trans (List.map_id _)

theorem ranks_candidates :
    ((stage.candidates env call).map (·.fusedRank)).Nodup := by
  have ranks : (stage.candidates env call).map (·.fusedRank) =
      ((call.fused.take stage.candidateWindow).zipIdx).map Prod.snd := by
    rw [← @positions_candidates env stage call, List.map_map]
    rfl
  rw [ranks, List.zipIdx_map_snd]
  exact List.nodup_range'

theorem candidates_fresh {calls : List Call} (member : call ∈ calls) :
    Fresh env (stage.IsPair calls) call.query
      (stage.candidates env call) := by
  refine ⟨fun candidate isCandidate => ?_, fun candidate isCandidate => ?_,
    fun candidate isCandidate => ?_, ranks_candidates⟩
  · obtain ⟨position, hit, found, rfl⟩ := mem_candidates.mp isCandidate
    rfl
  · obtain ⟨position, hit, found, rfl⟩ := mem_candidates.mp isCandidate
    exact ⟨call, member, rfl, hit, List.mem_of_getElem? found, rfl⟩
  · obtain ⟨position, hit, found, rfl⟩ := mem_candidates.mp isCandidate
    rfl

/-! ## Runs -/

/-- At most `topN` of the first hits, each place of the fused list at most
once, with these scores, by score and then by place. -/
def IsReranking (stage : Stage) (scoreOf : QmdSearchResult → ℚ)
    (fused result : List QmdSearchResult) : Prop :=
  result.length ≤ stage.topN ∧
    ∃ picked : List (QmdSearchResult × Nat),
      picked.Subperm (fused.take stage.candidateWindow).zipIdx ∧
        result = picked.map (fun place =>
          { place.1 with score := scoreOf place.1 }) ∧
        picked.Pairwise fun left right =>
          scoreOf right.1 < scoreOf left.1 ∨
            scoreOf left.1 = scoreOf right.1 ∧ left.2 < right.2

instance : IsTrans Candidate Candidate.Precedes where
  trans first second third := by
    rintro (higher | ⟨same, before⟩) (above | ⟨alike, earlier⟩)
    · exact .inl (above.trans higher)
    · exact .inl (alike ▸ higher)
    · exact .inl (same ▸ above)
    · exact .inr ⟨same.trans alike, before.trans earlier⟩

instance : Std.Total Candidate.Precedes where
  total first second := by
    unfold Candidate.Precedes
    rcases lt_trichotomy (first.score.getD 0) (second.score.getD 0)
      with lower | same | higher
    · exact .inr (.inl lower)
    · rcases le_total first.fusedRank second.fusedRank with before | after
      · exact .inl (.inr ⟨same, before⟩)
      · exact .inr (.inr ⟨same.symm, after⟩)
    · exact .inl (.inl higher)

/-- The score of the model for the text of a hit. -/
def scoreOf (stage : Stage) (model : Model) (call : Call)
    (hit : QmdSearchResult) : ℚ :=
  model call.query (stage.resolveDocText call.readFile hit)

theorem score_of_mem_ranked {candidate : Candidate}
    (member : candidate ∈ stage.ranked env model call) :
    candidate.score = some (stage.scoreOf model call candidate.hit) := by
  obtain ⟨before, isCandidate, rfl⟩ := List.mem_map.mp member
  obtain ⟨position, hit, -, rfl⟩ := mem_candidates.mp isCandidate
  rfl

theorem positions_ranked :
    (stage.ranked env model call).map (fun candidate =>
        (candidate.hit, candidate.fusedRank)) =
      (call.fused.take stage.candidateWindow).zipIdx := by
  rw [← @positions_candidates env stage call, ranked, List.map_map]
  rfl

theorem ranked_scored :
    ¬(stage.ranked env model call).any
      (fun candidate => candidate.score.isNone) = true := by
  intro some
  obtain ⟨candidate, member, absent⟩ := List.any_eq_true.mp some
  rw [score_of_mem_ranked member] at absent
  cases absent

/-- The ranking of the model is a reranking of the fused list. -/
theorem isReranking_reorder :
    stage.IsReranking (stage.scoreOf model call) call.fused
      (stage.reorder call.fused (stage.ranked env model call)) := by
  unfold reorder
  rw [if_neg ranked_scored]
  have sorted := (stage.ranked env model call).perm_insertionSort
    Candidate.Precedes
  have kept : (((stage.ranked env model call).insertionSort
      Candidate.Precedes).take stage.topN).Sublist
        ((stage.ranked env model call).insertionSort Candidate.Precedes) :=
    List.take_sublist _ _
  have scores : ∀ candidate ∈ ((stage.ranked env model call).insertionSort
      Candidate.Precedes).take stage.topN,
      candidate.score = some (stage.scoreOf model call candidate.hit) :=
    fun candidate member =>
      score_of_mem_ranked (sorted.mem_iff.mp (kept.subset member))
  refine ⟨?_, (((stage.ranked env model call).insertionSort
    Candidate.Precedes).take stage.topN).map fun candidate =>
      (candidate.hit, candidate.fusedRank), ?_, ?_, ?_⟩
  · rw [List.length_map]
    exact List.length_take_le _ _
  · rw [← @positions_ranked env stage call model]
    exact ((kept.map _).subperm).trans (sorted.map _).subperm
  · rw [List.map_map]
    refine List.map_congr_left fun candidate member => ?_
    simp only [Candidate.result, scores candidate member, Function.comp_apply,
      Option.getD_some]
  · rw [List.pairwise_map]
    have ordered := (List.pairwise_insertionSort Candidate.Precedes
      (stage.ranked env model call)).sublist kept
    have distinct : (((stage.ranked env model call).insertionSort
        Candidate.Precedes).take stage.topN).Pairwise
          fun left right => left.fusedRank ≠ right.fusedRank := by
      have ranks : ((stage.ranked env model call).map (·.fusedRank)).Nodup := by
        rw [ranked, List.map_map]
        exact ranks_candidates
      exact List.pairwise_map.mp
        (((sorted.map _).nodup_iff.mpr ranks).sublist (kept.map _))
    refine (ordered.and distinct).imp_of_mem ?_
    rintro left right leftMember rightMember ⟨precedes, different⟩
    rw [Candidate.Precedes, scores left leftMember, scores right rightMember]
      at precedes
    exact precedes.imp id fun same =>
      ⟨same.1, lt_of_le_of_ne same.2 different⟩

/-- With all scores at hand the stage of a query orders like this one. -/
theorem queryStage_apply {engines : SearchEngines} {query : String}
    (several : 1 < call.fused.length)
    (scores : engines.rerankScores query
        (call.fused.take stage.candidateWindow) =
      some ((call.fused.take stage.candidateWindow).map
        (stage.scoreOf model call))) :
    ({ candidateWindow := stage.candidateWindow
       topN := stage.topN } : RerankStage).apply engines query call.fused =
      stage.reorder call.fused (stage.ranked env model call) := by
  let place (candidate : Candidate) : (QmdSearchResult × ℚ) × Nat :=
    ((candidate.hit, candidate.score.getD 0), candidate.fusedRank)
  have placed : (stage.ranked env model call).map place =
      ((call.fused.take stage.candidateWindow).zip
        ((call.fused.take stage.candidateWindow).map
          (stage.scoreOf model call))).zipIdx := by
    rw [← List.map_prod_left_eq_zip, List.zipIdx_map,
      ← @positions_ranked env stage call model, List.map_map]
    apply List.map_congr_left
    intro candidate member
    simp only [place, Function.comp_apply, Prod.map_apply, id_eq,
      score_of_mem_ranked member, Option.getD_some]
  have sorted : ((stage.ranked env model call).insertionSort
        Candidate.Precedes).map place =
      ((stage.ranked env model call).map place).insertionSort
        fun left right => right.1.2 < left.1.2 ∨
          left.1.2 = right.1.2 ∧ left.2 ≤ right.2 :=
    List.map_insertionSort _ _ _ _ fun _ _ _ _ => Iff.rfl
  unfold RerankStage.apply reorder
  rw [if_neg (Nat.not_le.mpr several), if_neg ranked_scored]
  dsimp only
  rw [scores]
  dsimp only
  rw [if_neg (by simp), RerankStage.reorder, ← placed, ← sorted, List.map_map,
    ← List.map_take]
  rfl

/-- Where the model answers, a query gets from this stage, whatever the cache
holds, what it gets from its own. -/
theorem apply_eq_queryStage (digests : Digests env)
    (alike : ReadAlike model pairs)
    (fresh : Fresh env pairs call.query (stage.candidates env call))
    (truthful : call.Truthful model) (answers : call.Answers model)
    (sound : SoundCache env model pairs cache)
    (several : 1 < call.fused.length) {engines : SearchEngines}
    {query : String}
    (scores : engines.rerankScores query
        (call.fused.take stage.candidateWindow) =
      some ((call.fused.take stage.candidateWindow).map
        (stage.scoreOf model call))) :
    (stage.apply env cache call).1 =
      ({ candidateWindow := stage.candidateWindow
         topN := stage.topN } : RerankStage).apply engines query call.fused :=
  (apply_of_answers digests alike fresh truthful answers sound several).trans
    (queryStage_apply several scores).symm

end Stage

def RerankCache.empty (modelId modelVersion : String) : RerankCache where
  modelId := modelId
  modelVersion := modelVersion
  rows := []
  broken := false

/-- Every call serves the fused list or a reranking of it, and the cache cannot
be seen where the model answers every call. -/
structure CacheInvisible (env : Environment) (stage : Stage) (model : Model)
    (modelId modelVersion : String) (calls : List Call) : Prop where
  outcomes : List.Forall₂
    (fun call result => result = call.fused ∨
      stage.IsReranking (stage.scoreOf model call) call.fused result)
    calls (stage.applyAll env (some (.empty modelId modelVersion)) calls)
  unseen : (∀ call ∈ calls, call.Answers model) →
    stage.applyAll env (some (.empty modelId modelVersion)) calls =
      stage.applyAll env none calls

namespace Stage

variable {stage : Stage} {model : Model} {calls : List Call}

theorem outcomes_of_sound (digests : Digests env)
    (alike : ReadAlike model (stage.IsPair calls)) {rest : List Call}
    (part : rest ⊆ calls) (truthful : ∀ call ∈ rest, call.Truthful model)
    {cache : Option RerankCache}
    (sound : SoundCache env model (stage.IsPair calls) cache) :
    List.Forall₂
      (fun call result => result = call.fused ∨
        stage.IsReranking (stage.scoreOf model call) call.fused result)
      rest (stage.applyAll env cache rest) := by
  induction rest generalizing cache with
  | nil => exact .nil
  | cons call rest induction =>
      obtain ⟨here, later⟩ := List.forall_mem_cons.mp truthful
      obtain ⟨isCall, partRest⟩ := List.cons_subset.mp part
      obtain ⟨served, soundAfter⟩ :=
        apply_cases digests alike (candidates_fresh isCall) here sound
      rw [applyAll]
      refine .cons ?_ (induction partRest later soundAfter)
      rcases served with same | ⟨-, ranking⟩
      · exact .inl same
      · rw [ranking]
        exact .inr isReranking_reorder

theorem applyAll_eq_of_sound (digests : Digests env)
    (alike : ReadAlike model (stage.IsPair calls)) {rest : List Call}
    (part : rest ⊆ calls) (truthful : ∀ call ∈ rest, call.Truthful model)
    (answers : ∀ call ∈ rest, call.Answers model)
    {cache cache' : Option RerankCache}
    (sound : SoundCache env model (stage.IsPair calls) cache)
    (sound' : SoundCache env model (stage.IsPair calls) cache') :
    stage.applyAll env cache rest = stage.applyAll env cache' rest := by
  induction rest generalizing cache cache' with
  | nil => rfl
  | cons call rest induction =>
      obtain ⟨here, later⟩ := List.forall_mem_cons.mp truthful
      obtain ⟨answered, answersLater⟩ := List.forall_mem_cons.mp answers
      obtain ⟨isCall, partRest⟩ := List.cons_subset.mp part
      have fresh := @candidates_fresh env stage call calls isCall
      have after := (apply_cases digests alike fresh here sound).2
      have after' := (apply_cases digests alike fresh here sound').2
      have same : (stage.apply env cache call).1 =
          (stage.apply env cache' call).1 := by
        by_cases several : 1 < call.fused.length
        · rw [apply_of_answers digests alike fresh here answered sound several,
            apply_of_answers digests alike fresh here answered sound' several]
        · unfold apply
          rw [if_pos (by omega), if_pos (by omega)]
      rw [applyAll, applyAll, same,
        induction partRest later answersLater after after']

end Stage

/-- In every run the cache is invisible and failures serve the fused list, as
long as strings that read the same in UTF-8 have the same score. -/
theorem cacheInvisible_of_readAlike (digests : Digests env) {stage : Stage}
    {model : Model} {calls : List Call}
    (truthful : ∀ call ∈ calls, call.Truthful model)
    (alike : ReadAlike model (stage.IsPair calls))
    (modelId modelVersion : String) :
    CacheInvisible env stage model modelId modelVersion calls := by
  have sound : SoundCache env model (stage.IsPair calls)
      (some (RerankCache.empty modelId modelVersion)) := by
    intro cache isCache
    cases isCache
    exact fun row member => nomatch member
  have uncached : SoundCache env model (stage.IsPair calls) none := nofun
  exact
    { outcomes :=
        Stage.outcomes_of_sound digests alike (List.Subset.refl calls) truthful
          sound
      unseen := fun answers =>
        Stage.applyAll_eq_of_sound digests alike (List.Subset.refl calls)
          truthful answers sound uncached }

/-- The service that scores every document, in the order in which they are
sent. -/
def scoring (model : Model) (query : UnitText) : Service := fun documents =>
  some (documents.mapIdx fun position document =>
    { index := some position
      relevanceScore := some (model query document) })

theorem rerank_scoring (model : Model) (query : UnitText)
    (documents : List UnitText) :
    rerank (scoring model query) documents =
      some (documents.mapIdx fun position document =>
        { index := position
          score := model query document }) := by
  unfold rerank
  split_ifs with none
  · rw [none]
    rfl
  · rw [scoring, Option.bind_some, Program.mapM_eq_some_iff,
      List.mapIdx_eq_zipIdx_map, List.mapIdx_eq_zipIdx_map,
      List.forall₂_map_left_iff, List.forall₂_map_right_iff, List.forall₂_same]
    rintro ⟨document, position⟩ member
    have inRange : (position : ℚ) < documents.length := by
      exact_mod_cast (List.snd_lt_of_mem_zipIdx member)
    have readable : ¬((position : ℚ) < 0 ∨
        (documents.length : ℚ) ≤ position) := by
      rw [not_or, not_lt, not_le]
      exact ⟨Nat.cast_nonneg position, inRange⟩
    simp only [readEntry, if_neg readable]

theorem Call.answers_of_scoring {model : Model} {call : Call}
    (serves : call.service = scoring model call.query) :
    call.Answers model := by
  intro documents _
  exact ⟨_, serves ▸ rerank_scoring model call.query documents, .refl _⟩

theorem Call.truthful_of_scoring {model : Model} {call : Call}
    (serves : call.service = scoring model call.query) :
    call.Truthful model := by
  intro documents scored answer entry member position document isIndex found
  rw [serves, rerank_scoring] at answer
  cases answer
  obtain ⟨place, inRange, rfl⟩ := List.mem_mapIdx.mp member
  have same : place = position := Nat.cast_injective isIndex
  subst same
  rw [List.getElem?_eq_getElem inRange] at found
  cases found
  rfl

/-- The environment whose digest is the quoted text. -/
def quotingEnvironment : Environment :=
  { plainEnvironment with
    sha256 := fun text => Json.stringify (.string text) }

theorem digests_quotingEnvironment : Digests quotingEnvironment where
  collisionFree := by
    intro left right same
    have texts := String.ofList_injective same
    exact (@Json.quote_append_injective left right [] []
      (congrArg (· ++ []) texts)).1
  noSeparator := by
    intro text
    have escaped (char : Char) : Char.ofNat 0 ∉ Json.escape char := by
      unfold Json.escape
      have digits : ∀ value < 16, Char.ofNat 0 ≠ Json.hexDigit value := by
        decide
      split_ifs with quotation backslash backspace tab newline feed carriage
        control
      any_goals decide
      · have high := digits (char.toNat / 16) (by omega)
        have low := digits (char.toNat % 16) (by omega)
        simp [high, low]
      · intro same
        rw [← List.mem_singleton.mp same] at control
        exact control (by decide)
    show Char.ofNat 0 ∉ (String.ofList (Json.quote text)).toList
    rw [String.toList_ofList]
    simp only [Json.quote, List.mem_cons, List.mem_append, List.mem_flatMap,
      List.not_mem_nil, or_false, not_or, not_exists, not_and]
    exact ⟨by decide, fun char _ => escaped char, by decide⟩

def leadingUnit : Model := fun _ text => (text.headD 0 : ℚ)

def noteHit (file snippet : String) : QmdSearchResult where
  file := file
  score := 1
  snippet := snippet
  collection := "notes"

def noteStage : Stage where
  exportDir := "/kb-export"
  candidateWindow := 50
  topN := 8
  maxDocChars := 1

/-- A query for two notes of which one begins with this text. -/
def noteCall (snippet : String) : Call where
  query := utf16Units "notes"
  fused := [noteHit "emoji.md" snippet, noteHit "plain.md" "plain"]
  readFile := fun _ => none
  service := scoring leadingUnit (utf16Units "notes")
  getFaults := fun _ => false
  setFaults := fun _ => false

theorem noteCalls_cacheInvisible :
    CacheInvisible quotingEnvironment noteStage leadingUnit "reranker" "1"
      [noteCall "note", noteCall "node"] := by
  refine cacheInvisible_of_readAlike digests_quotingEnvironment ?_
    (readAlike_of_wellFormed _ ?_) _ _
  · intro call member
    apply Call.truthful_of_scoring
    rcases List.mem_pair.mp member with rfl | rfl <;> rfl
  · rintro query text ⟨call, isCall, rfl, hit, isHit, rfl⟩
    rcases List.mem_pair.mp isCall with rfl | rfl
    · refine ⟨congrArg utf16Units (utf8Text_utf16Units "notes"), ?_⟩
      rcases List.mem_pair.mp isHit with rfl | rfl <;> rfl
    · refine ⟨congrArg utf16Units (utf8Text_utf16Units "notes"), ?_⟩
      rcases List.mem_pair.mp isHit with rfl | rfl <;> rfl

/-- Two emoji that are cut after their first unit read the same in UTF-8, and
the second is served with the score of the first. -/
theorem cut_emoji_scored_alike :
    (∀ call ∈ [noteCall "😀", noteCall "🦀"],
      call.Truthful leadingUnit ∧ call.Answers leadingUnit) ∧
      ¬ CacheInvisible quotingEnvironment noteStage leadingUnit "reranker" "1"
        [noteCall "😀", noteCall "🦀"] := by
  have scores : ∀ call ∈ [noteCall "😀", noteCall "🦀"],
      call.service = scoring leadingUnit call.query := by
    intro call member
    rcases List.mem_pair.mp member with rfl | rfl <;> rfl
  have different : noteStage.applyAll quotingEnvironment
      (some (.empty "reranker" "1")) [noteCall "😀", noteCall "🦀"] ≠
        noteStage.applyAll quotingEnvironment none
          [noteCall "😀", noteCall "🦀"] := by
    decide +kernel
  refine ⟨fun call member => ?_, fun invisible => ?_⟩
  · exact ⟨Call.truthful_of_scoring (scores call member),
      Call.answers_of_scoring (scores call member)⟩
  · exact different (invisible.unseen fun call member =>
      Call.answers_of_scoring (scores call member))

end Rerank

end Registrar
