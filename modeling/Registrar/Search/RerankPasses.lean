import Registrar.Search.RerankStage

/-!
# The passes of the rerank stage

A cache that holds scores of the model under the keys of their texts gives the
candidates scores of the model, and so does the client.
-/

namespace Registrar

theorem utf16Chars_cons {unit : Nat} (plain : unit < 0xd800 ∨ 0xe000 ≤ unit)
    (rest : List Nat) :
    utf16Chars (unit :: rest) = Char.ofNat unit :: utf16Chars rest := by
  have single : ¬(0xd800 ≤ unit ∧ unit < 0xe000) := by omega
  cases rest with
  | nil => simp only [utf16Chars, if_neg single]
  | cons next rest =>
      have unpaired : ¬((0xd800 ≤ unit ∧ unit < 0xdc00) ∧
          0xdc00 ≤ next ∧ next < 0xe000) := by omega
      rw [utf16Chars, if_neg unpaired, if_neg single]

/-- A character that is no surrogate ends what is before it. -/
theorem utf16Chars_append_nul (units rest : List Nat) :
    utf16Chars (units ++ 0 :: rest) =
      utf16Chars units ++ Char.ofNat 0 :: utf16Chars rest := by
  induction units using utf16Chars.induct with
  | case1 => exact utf16Chars_cons (by decide) rest
  | case2 unit =>
      have unpaired : ¬((0xd800 ≤ unit ∧ unit < 0xdc00) ∧
          0xdc00 ≤ 0 ∧ 0 < 0xe000) := by omega
      have first : utf16Chars (unit :: 0 :: rest) =
          utf16Chars [unit] ++ utf16Chars (0 :: rest) := by
        simp only [utf16Chars, if_neg unpaired, List.singleton_append]
      have nul : utf16Chars (0 :: rest) = Char.ofNat 0 :: utf16Chars rest :=
        utf16Chars_cons (by decide) rest
      rw [List.singleton_append, first, nul]
  | case3 high low tail pair induction =>
      rw [List.cons_append, List.cons_append, utf16Chars, utf16Chars,
        if_pos pair, if_pos pair, induction, List.cons_append]
  | case4 high low tail unpaired induction =>
      rw [List.cons_append] at induction
      rw [List.cons_append, List.cons_append, utf16Chars, utf16Chars,
        if_neg unpaired, if_neg unpaired, induction, List.cons_append]

theorem utf16Chars_flatMap (chars : List Char) :
    utf16Chars (utf16Units (String.ofList chars)) = chars := by
  unfold utf16Units
  rw [String.toList_ofList]
  induction chars with
  | nil => rfl
  | cons char chars induction =>
      have valid := char.valid
      rw [List.flatMap_cons]
      dsimp only at induction ⊢
      by_cases small : char.toNat < 0x10000
      · rw [if_pos small, List.singleton_append, utf16Chars_cons, induction,
          Char.ofNat_toNat]
        rcases valid with low | high
        · exact .inl low
        · exact .inr high.1
      · have bound : char.toNat < 0x110000 := by
          rcases valid with low | high
          · exact Nat.lt_trans low (by decide)
          · exact high.2
        have pair : (0xd800 ≤ 0xd800 + (char.toNat - 0x10000) / 0x400 ∧
            0xd800 + (char.toNat - 0x10000) / 0x400 < 0xdc00) ∧
              0xdc00 ≤ 0xdc00 + (char.toNat - 0x10000) % 0x400 ∧
                0xdc00 + (char.toNat - 0x10000) % 0x400 < 0xe000 := by omega
        have code : 0x10000 +
            (0xd800 + (char.toNat - 0x10000) / 0x400 - 0xd800) * 0x400 +
              (0xdc00 + (char.toNat - 0x10000) % 0x400 - 0xdc00) =
                char.toNat := by omega
        rw [if_neg small, List.cons_append, List.singleton_append, utf16Chars,
          if_pos pair, induction, code, Char.ofNat_toNat]

theorem utf8Text_utf16Units (text : String) :
    utf8Text (utf16Units text) = text := by
  have chars := utf16Chars_flatMap text.toList
  rw [String.ofList_toList] at chars
  rw [utf8Text, chars, String.ofList_toList]

theorem utf16Units_injective : Function.Injective utf16Units :=
  Function.LeftInverse.injective utf8Text_utf16Units

namespace Rerank

/-- No two texts share a digest, and no digest holds the separator. -/
structure Digests (env : Environment) : Prop where
  collisionFree : Function.Injective env.sha256
  noSeparator : ∀ text, Char.ofNat 0 ∉ (env.sha256 text).toList

theorem append_separator_injective {separator : Char}
    {left right digest digest' : List Char} (absent : separator ∉ digest)
    (absent' : separator ∉ digest')
    (same : left ++ separator :: digest = right ++ separator :: digest') :
    left = right ∧ digest = digest' := by
  rcases List.append_eq_append_iff.mp same with
    ⟨between, isRight, isTail⟩ | ⟨between, isLeft, isTail⟩
  · cases between with
    | nil =>
        simp only [List.append_nil, List.nil_append, List.cons.injEq,
          true_and] at isRight isTail
        exact ⟨isRight.symm, isTail⟩
    | cons first between =>
        have inDigest : separator ∈ digest := by
          rw [(List.cons.inj isTail).2]
          simp
        exact absurd inDigest absent
  · cases between with
    | nil =>
        simp only [List.append_nil, List.nil_append, List.cons.injEq,
          true_and] at isLeft isTail
        exact ⟨isLeft, isTail.symm⟩
    | cons first between =>
        have inDigest : separator ∈ digest' := by
          rw [(List.cons.inj isTail).2]
          simp
        exact absurd inDigest absent'

variable {env : Environment}

/-- The key under which the score of a text is kept. -/
def keyOf (env : Environment) (query text : UnitText) : String :=
  cacheKey env query (computeContentHash env (utf8Text text))

theorem utf8Text_of_keyOf (digests : Digests env)
    {query query' text text' : UnitText}
    (same : keyOf env query text = keyOf env query' text') :
    utf8Text query = utf8Text query' ∧ utf8Text text = utf8Text text' := by
  have names := String.ofList_injective (digests.collisionFree same)
  have roundTrip (text : String) : utf16Chars (utf16Units text) = text.toList :=
    String.ofList_injective ((utf8Text_utf16Units text).trans
      (String.ofList_toList).symm)
  rw [utf16Chars_append_nul, utf16Chars_append_nul, roundTrip, roundTrip]
    at names
  obtain ⟨queries, hashes⟩ := append_separator_injective
    (digests.noSeparator _) (digests.noSeparator _) names
  exact ⟨congrArg String.ofList queries,
    digests.collisionFree (String.toList_inj.mp hashes)⟩

/-- Queries with the texts that are scored for them. -/
abbrev Pairs := UnitText → UnitText → Prop

abbrev Model := UnitText → UnitText → ℚ

/-- Pairs that read the same in UTF-8 have the same score. -/
def ReadAlike (model : Model) (pairs : Pairs) : Prop :=
  ∀ query text query' text', pairs query text → pairs query' text' →
    utf8Text query = utf8Text query' → utf8Text text = utf8Text text' →
      model query text = model query' text'

/-- The string has no unpaired surrogate. -/
def WellFormedText (units : UnitText) : Prop :=
  utf16Units (utf8Text units) = units

theorem readAlike_of_wellFormed (model : Model) {pairs : Pairs}
    (wellFormed : ∀ query text, pairs query text →
      WellFormedText query ∧ WellFormedText text) : ReadAlike model pairs := by
  intro query text query' text' pair pair' queries texts
  obtain ⟨isQuery, isText⟩ := wellFormed query text pair
  obtain ⟨isQuery', isText'⟩ := wellFormed query' text' pair'
  rw [← isQuery, queries, isQuery', ← isText, texts, isText']

def RerankCache.Sound (env : Environment) (model : Model) (pairs : Pairs)
    (cache : RerankCache) : Prop :=
  ∀ row ∈ cache.rows, ∃ query text, pairs query text ∧
    row.key = keyOf env query text ∧ row.score = model query text

namespace RerankCache

variable {model : Model} {pairs : Pairs} {cache : RerankCache}

theorem Sound.get (sound : cache.Sound env model pairs) (fault : Bool)
    (query : UnitText) (hash : String) :
    (cache.get env fault query hash).2.Sound env model pairs := by
  unfold RerankCache.get
  split_ifs <;> exact sound

theorem Sound.score_of_get (digests : Digests env)
    (alike : ReadAlike model pairs) (sound : cache.Sound env model pairs)
    {fault : Bool} {query text : UnitText} (pair : pairs query text) {score : ℚ}
    (found : (cache.get env fault query
      (computeContentHash env (utf8Text text))).1 = some score) :
    score = model query text := by
  unfold RerankCache.get at found
  split_ifs at found with broken thrown
  obtain ⟨row, isRow, rfl⟩ := Option.map_eq_some_iff.mp found
  have holds : cache.Holds (keyOf env query text) row := by
    simpa [keyOf] using List.find?_some isRow
  obtain ⟨query', text', pair', isKey, isScore⟩ :=
    sound row (List.mem_of_find?_eq_some isRow)
  obtain ⟨queries, texts⟩ :=
    utf8Text_of_keyOf digests (isKey.symm.trans holds.1)
  rw [isScore]
  exact alike _ _ _ _ pair' pair queries texts

theorem Sound.set (sound : cache.Sound env model pairs) (fault : Bool)
    {query text : UnitText} (pair : pairs query text) :
    (cache.set env fault query (computeContentHash env (utf8Text text))
      (model query text)).Sound env model pairs := by
  unfold RerankCache.set
  split_ifs with broken thrown
  · exact sound
  · exact sound
  · intro row member
    rcases List.mem_append.mp member with before | new
    · exact sound row (List.mem_of_mem_filter before)
    · rw [List.mem_singleton.mp new]
      exact ⟨query, text, pair, rfl, rfl⟩

end RerankCache

/-- The cache of a stage, which may have none, is sound. -/
def SoundCache (env : Environment) (model : Model) (pairs : Pairs)
    (cache : Option RerankCache) : Prop :=
  ∀ present ∈ cache, present.Sound env model pairs

namespace Candidate

def unscored (candidate : Candidate) : Candidate :=
  { candidate with score := none }

/-- The candidate with the score of the model. -/
def scored (model : Model) (query : UnitText) (candidate : Candidate) :
    Candidate :=
  { candidate with score := some (model query candidate.text) }

/-- Where there is a score, it is that of the model. -/
def Right (model : Model) (query : UnitText) (candidate : Candidate) : Prop :=
  ∀ score ∈ candidate.score, score = model query candidate.text

theorem eq_scored {model : Model} {query : UnitText}
    {candidate base : Candidate} (same : candidate.unscored = base.unscored)
    (right : candidate.Right model query) (present : candidate.score.isSome) :
    candidate = base.scored model query := by
  obtain ⟨score, isScore⟩ := Option.isSome_iff_exists.mp present
  have value := right score isScore
  cases candidate
  cases base
  simp only [unscored, Candidate.mk.injEq, and_true] at same
  simp_all [scored]

end Candidate

/-- The candidates of a call before any pass. -/
structure Fresh (env : Environment) (pairs : Pairs) (query : UnitText)
    (base : List Candidate) : Prop where
  hash : ∀ candidate ∈ base,
    candidate.contentHash = computeContentHash env (utf8Text candidate.text)
  paired : ∀ candidate ∈ base, pairs query candidate.text
  unscored : ∀ candidate ∈ base, candidate.score = none
  ranks : (base.map (·.fusedRank)).Nodup

/-- The same candidates, with scores of the model at most. -/
structure Follows (model : Model) (query : UnitText)
    (base candidates : List Candidate) : Prop where
  same : candidates.map Candidate.unscored = base
  right : ∀ candidate ∈ candidates, candidate.Right model query

namespace Stage

variable {call : Call} {model : Model} {pairs : Pairs}
variable {cache : Option RerankCache}

theorem cachePass_none (looks : Nat) (candidates : List Candidate) :
    cachePass env call looks none candidates = (candidates, none) := by
  cases candidates <;> rfl

theorem cachePass_follows (digests : Digests env)
    (alike : ReadAlike model pairs) {base : List Candidate}
    (hash : ∀ candidate ∈ base, candidate.contentHash =
      computeContentHash env (utf8Text candidate.text))
    (paired : ∀ candidate ∈ base, pairs call.query candidate.text)
    (unscored : ∀ candidate ∈ base, candidate.score = none)
    (sound : SoundCache env model pairs cache) (looks : Nat) :
    Follows model call.query base (cachePass env call looks cache base).1 ∧
      SoundCache env model pairs (cachePass env call looks cache base).2 := by
  induction base generalizing looks cache with
  | nil =>
      unfold cachePass
      exact ⟨⟨rfl, fun _ member => nomatch member⟩, sound⟩
  | cons candidate rest induction =>
      obtain ⟨hashHere, hashRest⟩ := List.forall_mem_cons.mp hash
      obtain ⟨pairHere, pairRest⟩ := List.forall_mem_cons.mp paired
      obtain ⟨noScore, noScores⟩ := List.forall_mem_cons.mp unscored
      cases cache with
      | none =>
          have keeps : ∀ candidate : Candidate, candidate.score = none →
              candidate.unscored = candidate := by
            intro candidate absent
            cases candidate
            cases absent
            rfl
          refine ⟨⟨?_, fun other member score isScore => ?_⟩, sound⟩
          · rw [cachePass_none]
            refine (List.map_congr_left fun other member => ?_).trans
              (List.map_id (candidate :: rest))
            exact keeps other (unscored other member)
          · rw [cachePass_none] at member
            rw [unscored other member] at isScore
            cases isScore
      | some present =>
          have here := sound present rfl
          have later : SoundCache env model pairs
              (some (present.get env (call.getFaults looks) call.query
                candidate.contentHash).2) := by
            intro other isOther
            cases isOther
            exact here.get _ _ _
          obtain ⟨follows, soundAfter⟩ :=
            induction hashRest pairRest noScores later (looks + 1)
          rw [cachePass]
          refine ⟨⟨?_, ?_⟩, soundAfter⟩
          · rw [List.map_cons, follows.same]
            cases candidate
            cases noScore
            rfl
          · refine List.forall_mem_cons.mpr ⟨fun score isScore => ?_,
              follows.right⟩
            rw [hashHere] at isScore
            exact here.score_of_get digests alike pairHere isScore

/-- The scores of the client are those of the model for the texts that were
sent. -/
def TrueScores (model : Model) (query : UnitText) (misses : List Candidate)
    (scored : List ScoredDoc) : Prop :=
  ∀ entry ∈ scored, ∀ miss ∈ missAt misses entry.index,
    entry.score = model query miss.text

theorem mem_of_missAt {misses : List Candidate} {index : ℚ}
    {miss : Candidate} (found : missAt misses index = some miss) :
    miss ∈ misses := by
  unfold missAt at found
  split_ifs at found
  exact List.mem_of_getElem? found

/-- The candidate of a rank gets a score. -/
def mark (miss : Candidate) (score : ℚ) (candidate : Candidate) : Candidate :=
  if candidate.fusedRank = miss.fusedRank then
    { candidate with score := some score }
  else candidate

theorem unscored_mark (miss : Candidate) (score : ℚ) (candidate : Candidate) :
    (mark miss score candidate).unscored = candidate.unscored := by
  unfold mark
  split_ifs <;> rfl

theorem Follows.mark {base candidates : List Candidate} {miss : Candidate}
    (fresh : Fresh env pairs call.query base)
    (follows : Follows model call.query base candidates)
    (isMiss : miss.unscored ∈ base) :
    Follows model call.query base
      (candidates.map (mark miss (model call.query miss.text))) := by
  refine ⟨?_, fun candidate member => ?_⟩
  · rw [List.map_map, ← follows.same]
    exact List.map_congr_left fun candidate _ => unscored_mark miss _ candidate
  · obtain ⟨before, known, rfl⟩ := List.mem_map.mp member
    unfold Stage.mark
    split_ifs with here
    · intro score isScore
      have inBase : before.unscored ∈ base := by
        rw [← follows.same]
        exact List.mem_map_of_mem known
      have one : before.unscored = miss.unscored :=
        List.inj_on_of_nodup_map fresh.ranks inBase isMiss here
      have texts : before.unscored.text = miss.unscored.text :=
        congrArg Candidate.text one
      cases isScore
      exact congrArg (model call.query) texts.symm
    · exact follows.right before known

theorem recordScores_follows {base misses candidates : List Candidate}
    {scored : List ScoredDoc} (fresh : Fresh env pairs call.query base)
    (ofBase : ∀ miss ∈ misses, miss.unscored ∈ base)
    (truth : TrueScores model call.query misses scored)
    (follows : Follows model call.query base candidates)
    (sound : SoundCache env model pairs cache) (stored : Nat) :
    (∀ marked ∈ (recordScores env call misses stored cache candidates
        scored).1, Follows model call.query base marked) ∧
      SoundCache env model pairs (recordScores env call misses stored cache
        candidates scored).2 := by
  induction scored generalizing stored cache candidates with
  | nil =>
      refine ⟨fun marked isMarked => ?_, sound⟩
      cases isMarked
      exact follows
  | cons entry rest induction =>
      obtain ⟨first, later⟩ := List.forall_mem_cons.mp truth
      rw [recordScores]
      cases found : missAt misses entry.index with
      | none => exact ⟨nofun, sound⟩
      | some miss =>
          have isMiss := ofBase miss (mem_of_missAt found)
          have value := first miss found
          have hashed : miss.contentHash =
              computeContentHash env (utf8Text miss.text) :=
            fresh.hash miss.unscored isMiss
          have paired : pairs call.query miss.text :=
            fresh.paired miss.unscored isMiss
          have soundAfter : SoundCache env model pairs
              (cache.map fun cache => cache.set env (call.setFaults stored)
                call.query miss.contentHash entry.score) := by
            intro other isOther
            obtain ⟨present, isPresent, rfl⟩ := Option.map_eq_some_iff.mp isOther
            rw [hashed, value]
            exact (sound present isPresent).set _ paired
          have followsAfter := Follows.mark fresh follows isMiss
          rw [← value] at followsAfter
          exact induction later followsAfter soundAfter (stored + 1)

theorem mem_missesOf {candidates : List Candidate} {candidate : Candidate} :
    candidate ∈ missesOf candidates ↔
      candidate ∈ candidates ∧ candidate.score = none := by
  simp [missesOf]

theorem missAt_natCast (misses : List Candidate) (position : Nat) :
    missAt misses (position : ℚ) = misses[position]? := by
  unfold missAt
  rw [if_pos ⟨Rat.den_natCast position, Nat.cast_nonneg position⟩,
    Rat.num_natCast, Int.toNat_natCast]

theorem natCast_of_missAt {misses : List Candidate} {index : ℚ}
    {miss : Candidate} (found : missAt misses index = some miss) :
    ∃ position : Nat, index = position ∧ misses[position]? = some miss := by
  unfold missAt at found
  split_ifs at found with whole
  refine ⟨index.num.toNat, ?_, found⟩
  have nonneg : 0 ≤ index.num := Rat.num_nonneg.mpr whole.2
  have value := Rat.coe_int_num_of_den_eq_one whole.1
  rw [← value]
  exact_mod_cast (Int.toNat_of_nonneg nonneg).symm

/-- Where every index names a document, what is marked keeps its score. -/
theorem recordScores_marks {misses candidates : List Candidate}
    {scored : List ScoredDoc}
    (valid : ∀ entry ∈ scored, (missAt misses entry.index).isSome)
    (stored : Nat) :
    ∃ marked, (recordScores env call misses stored cache candidates
        scored).1 = some marked ∧
      ∀ after ∈ marked, ∃ before ∈ candidates,
        (before.score.isSome ∨ ∃ entry ∈ scored,
          ∃ miss ∈ missAt misses entry.index,
            miss.fusedRank = before.fusedRank) → after.score.isSome := by
  induction scored generalizing stored cache candidates with
  | nil =>
      refine ⟨candidates, rfl, fun after member => ⟨after, member, ?_⟩⟩
      rintro (present | ⟨entry, nothing, -⟩)
      · exact present
      · cases nothing
  | cons entry rest induction =>
      obtain ⟨first, later⟩ := List.forall_mem_cons.mp valid
      obtain ⟨miss, found⟩ := Option.isSome_iff_exists.mp first
      obtain ⟨marked, isMarked, keeps⟩ := @induction
        (cache.map fun cache => cache.set env (call.setFaults stored)
          call.query miss.contentHash entry.score)
        (candidates.map (mark miss entry.score)) later (stored + 1)
      refine ⟨marked, ?_, fun after member => ?_⟩
      · rw [recordScores, found]
        exact isMarked
      · obtain ⟨between, known, gets⟩ := keeps after member
        obtain ⟨before, isBefore, rfl⟩ := List.mem_map.mp known
        refine ⟨before, isBefore, fun either => gets ?_⟩
        have rank : (mark miss entry.score before).fusedRank =
            before.fusedRank := by
          unfold mark
          split_ifs <;> rfl
        by_cases here : before.fusedRank = miss.fusedRank
        · left
          unfold mark
          rw [if_pos here]
          rfl
        · rcases either with present | ⟨other, isOther, miss', found', same⟩
          · left
            unfold mark
            rwa [if_neg here]
          · rcases List.mem_cons.mp isOther with rfl | inRest
            · have one : miss = miss' := Option.some.inj (found.symm.trans found')
              exact absurd (one ▸ same).symm here
            · exact .inr ⟨other, inRest, miss', found', same.trans rank.symm⟩

end Stage

end Rerank

end Registrar
