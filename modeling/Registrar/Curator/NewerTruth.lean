import Registrar.Curator.MergeGate
import Registrar.Library.IsoTime

/-!
# Newer truth

A candidate that was captured before a memory was promoted should not retire it.
Only the subject route compares the two times, and it compares texts.
-/

namespace Registrar

open IsoTime

variable (env : Environment)

/-- The memory was promoted at a later instant than the candidate was
captured. -/
def IsNewer (candidate : MemoryCandidate) (memory : CuratedMemory) : Prop :=
  IsLater memory.promotedAt candidate.capturedAt

instance (candidate : MemoryCandidate) (memory : CuratedMemory) :
    Decidable (IsNewer candidate memory) :=
  inferInstanceAs (Decidable (IsLater _ _))

/-- The title of the memory is similar enough for the fallback. -/
def TitleFits (candidate : MemoryCandidate) (threshold : ℚ)
    (memory : CuratedMemory) : Prop :=
  memory.category = candidate.category ∧
    threshold ≤
      computeTitleSimilarity env candidate.title memory.title.value

instance (candidate : MemoryCandidate) (threshold : ℚ)
    (memory : CuratedMemory) :
    Decidable (TitleFits env candidate threshold memory) :=
  inferInstanceAs (Decidable (_ ∧ _))

/-- Among these memories this is the first one with the most similar title. -/
def FirstByTitle (candidate : MemoryCandidate) (threshold : ℚ)
    (active : List CuratedMemory) (memory : CuratedMemory) : Prop :=
  let similarity (other : CuratedMemory) : ℚ :=
    computeTitleSimilarity env candidate.title other.title.value
  TitleFits env candidate threshold memory ∧
    ∃ front back, active = front ++ memory :: back ∧
      (∀ other ∈ front, other.category = candidate.category →
        similarity other < similarity memory) ∧
      ∀ other ∈ back, other.category = candidate.category →
        similarity other ≤ similarity memory

/-- No memory that a route selects is newer: none that shares a subject and was
promoted at a text that is not greater, and, if there is no such memory at all,
not the first one with the most similar title. -/
def RoutesSpareNewer (candidate : MemoryCandidate)
    (active : List CuratedMemory) (threshold : ℚ) (cap : Nat) : Prop :=
  let sharing := active.filter fun memory =>
    (subjectMatch candidate memory).isSome
  (sharing.length ≤ cap →
    ∀ memory ∈ sharing, ¬IsNewer candidate memory) ∧
    (sharing = [] → ∀ memory ∈ active, IsNewer candidate memory →
      ¬FirstByTitle env candidate threshold active memory)

variable {env} {candidate : MemoryCandidate} {active : List CuratedMemory}
variable {threshold : ℚ} {cap : Nat} {memory : CuratedMemory}

theorem subjectMatch_supersededMemoryId {sup : SupersessionMatch}
    (matched : subjectMatch candidate memory = some sup) :
    sup.supersededMemoryId = memory.id := by
  unfold subjectMatch at matched
  dsimp only at matched
  split at matched
  · cases matched
  · split_ifs at matched
    cases matched
    rfl

theorem filterMap_subjectMatch_eq_nil_iff :
    active.filterMap (subjectMatch candidate) = [] ↔
      (active.filter fun memory =>
        (subjectMatch candidate memory).isSome) = [] := by
  rw [List.filterMap_eq_nil_iff, List.filter_eq_nil_iff]
  simp

theorem length_filterMap_subjectMatch :
    (active.filterMap (subjectMatch candidate)).length =
      (active.filter fun memory =>
        (subjectMatch candidate memory).isSome).length := by
  rw [List.length_filterMap_eq_countP, List.countP_eq_length_filter]

/-- The match of a memory by its title. -/
def titleMatch (env : Environment) (candidate : MemoryCandidate)
    (memory : CuratedMemory) : SupersessionMatch where
  supersededMemoryId := memory.id
  supersededTitle := memory.title.value
  similarity := computeTitleSimilarity env candidate.title memory.title.value
  basis := .title
  subject := none

theorem betterTitleMatch_eq (best : Option SupersessionMatch)
    (memory : CuratedMemory) :
    betterTitleMatch env candidate threshold best memory =
      if TitleFits env candidate threshold memory ∧
          ∀ earlier ∈ best, earlier.similarity <
            (titleMatch env candidate memory).similarity then
        some (titleMatch env candidate memory)
      else best := by
  unfold betterTitleMatch
  have sameTest :
      (memory.category = candidate.category ∧
        threshold ≤
          computeTitleSimilarity env candidate.title memory.title.value ∧
        best.all (·.similarity <
          computeTitleSimilarity env candidate.title
            memory.title.value) = true) ↔
        TitleFits env candidate threshold memory ∧
          ∀ earlier ∈ best, earlier.similarity <
            (titleMatch env candidate memory).similarity := by
    unfold TitleFits titleMatch
    cases best <;> simp [and_assoc]
  by_cases fits : TitleFits env candidate threshold memory ∧
      ∀ earlier ∈ best, earlier.similarity <
        (titleMatch env candidate memory).similarity
  · rw [if_pos fits, if_pos (sameTest.mpr fits)]
    rfl
  · rw [if_neg fits, if_neg (fun test => fits (sameTest.mp test))]

/-- The fold over the memories keeps the first best title, if one fits. -/
theorem foldl_betterTitleMatch :
    (∀ sup, active.foldl (betterTitleMatch env candidate threshold) none =
        some sup →
      ∃ memory ∈ active, FirstByTitle env candidate threshold active memory ∧
        titleMatch env candidate memory = sup) ∧
    (active.foldl (betterTitleMatch env candidate threshold) none = none →
      ∀ memory ∈ active, ¬TitleFits env candidate threshold memory) := by
  induction active using List.reverseRecOn with
  | nil => simp
  | append_singleton front last induction =>
      obtain ⟨found, absent⟩ := induction
      rw [List.foldl_append, List.foldl_cons, List.foldl_nil,
        betterTitleMatch_eq]
      cases folded :
          front.foldl (betterTitleMatch env candidate threshold) none with
      | none =>
          have noneFits := absent folded
          by_cases fits : TitleFits env candidate threshold last
          · rw [if_pos ⟨fits, by simp⟩]
            refine ⟨?_, by simp⟩
            rintro sup isMatch
            cases isMatch
            refine ⟨last, by simp, ⟨fits, front, [], rfl, ?_, by simp⟩, rfl⟩
            intro other member sameCategory
            have unfit := noneFits other member
            unfold TitleFits at unfit fits
            exact (not_le.mp fun atLeast =>
              unfit ⟨sameCategory, atLeast⟩).trans_le fits.2
          · rw [if_neg (fun both => fits both.1)]
            refine ⟨by simp, ?_⟩
            intro _ memory member
            rcases List.mem_append.mp member with earlier | isLast
            · exact noneFits memory earlier
            · rw [List.mem_singleton.mp isLast]
              exact fits
      | some best =>
          obtain ⟨memory, member, ⟨fits, before, after, split, less, atMost⟩,
            rfl⟩ := found best folded
          by_cases better : TitleFits env candidate threshold last ∧
              ∀ earlier ∈ some (titleMatch env candidate memory),
                earlier.similarity <
                  (titleMatch env candidate last).similarity
          · rw [if_pos better]
            refine ⟨?_, by simp⟩
            rintro sup isMatch
            cases isMatch
            have above := better.2 _ rfl
            refine ⟨last, by simp,
              ⟨better.1, front, [], rfl, ?_, by simp⟩, rfl⟩
            intro other inFront sameCategory
            rw [split] at inFront
            rcases List.mem_append.mp inFront with earlier | rest
            · exact (less other earlier sameCategory).trans above
            · rcases List.mem_cons.mp rest with rfl | later
              · exact above
              · exact (atMost other later sameCategory).trans_lt above
          · rw [if_neg better]
            refine ⟨?_, by simp⟩
            rintro sup isMatch
            cases isMatch
            refine ⟨memory, by simp [member],
              ⟨fits, before, after ++ [last], by simp [split], less, ?_⟩, rfl⟩
            intro other inAfter sameCategory
            rcases List.mem_append.mp inAfter with later | isLast
            · exact atMost other later sameCategory
            · rw [List.mem_singleton.mp isLast] at sameCategory ⊢
              by_contra above
              apply better
              refine ⟨⟨sameCategory, ?_⟩, ?_⟩
              · exact fits.2.trans (not_le.mp above).le
              · rintro earlier isBest
                cases isBest
                exact not_le.mp above

/-- Two first best titles are the same memory. -/
theorem FirstByTitle.unique {first second : CuratedMemory}
    (left : FirstByTitle env candidate threshold active first)
    (right : FirstByTitle env candidate threshold active second) :
    first = second := by
  obtain ⟨⟨firstCategory, -⟩, front, back, split, less, atMost⟩ := left
  obtain ⟨⟨secondCategory, -⟩, before, after, cut, lower, notAbove⟩ := right
  have sameList : front ++ first :: back = before ++ second :: after :=
    split.symm.trans cut
  rcases List.append_eq_append_iff.mp sameList with
    ⟨between, isBefore, isBack⟩ | ⟨between, isFront, isAfter⟩
  · cases between with
    | nil =>
        simp only [List.nil_append, List.cons.injEq] at isBack
        exact isBack.1
    | cons head tail =>
        simp only [List.cons_append, List.cons.injEq] at isBack
        have inBack : second ∈ back := by simp [isBack.2]
        have inBefore : first ∈ before := by simp [isBefore, isBack.1]
        exact absurd (lower first inBefore firstCategory)
          (not_lt.mpr (atMost second inBack secondCategory))
  · cases between with
    | nil =>
        simp only [List.nil_append, List.cons.injEq] at isAfter
        exact isAfter.1.symm
    | cons head tail =>
        simp only [List.cons_append, List.cons.injEq] at isAfter
        have inAfter : first ∈ after := by simp [isAfter.2]
        have inFront : second ∈ front := by simp [isFront, isAfter.1]
        exact absurd (less second inFront secondCategory)
          (not_lt.mpr (notAbove first inAfter firstCategory))

theorem foldl_betterTitleMatch_of_first
    (first : FirstByTitle env candidate threshold active memory) :
    active.foldl (betterTitleMatch env candidate threshold) none =
      some (titleMatch env candidate memory) := by
  obtain ⟨found, absent⟩ := @foldl_betterTitleMatch env candidate active
    threshold
  have member : memory ∈ active := by
    obtain ⟨-, front, back, rfl, -⟩ := first
    simp
  cases folded :
      active.foldl (betterTitleMatch env candidate threshold) none with
  | none => exact absurd first.1 (absent folded memory member)
  | some sup =>
      obtain ⟨best, -, isFirst, rfl⟩ := found sup folded
      rw [isFirst.unique first]

theorem mem_matched_iff {sup : SupersessionMatch} :
    sup ∈ (planSupersession env candidate active threshold cap).matched ↔
      (active.filter (fun memory =>
          (subjectMatch candidate memory).isSome) = [] ∧
        ∃ memory ∈ active,
          FirstByTitle env candidate threshold active memory ∧
            titleMatch env candidate memory = sup) ∨
      ((active.filter fun memory =>
          (subjectMatch candidate memory).isSome).length ≤ cap ∧
        ∃ memory ∈ active, subjectMatch candidate memory = some sup) := by
  unfold planSupersession
  dsimp only
  by_cases unmatched : active.filterMap (subjectMatch candidate) = []
  · have noneShares := filterMap_subjectMatch_eq_nil_iff.mp unmatched
    rw [if_pos unmatched]
    have noSubject : ¬∃ memory ∈ active,
        subjectMatch candidate memory = some sup := by
      rintro ⟨memory, member, matched⟩
      have := List.mem_filterMap.mpr ⟨memory, member, matched⟩
      rw [unmatched] at this
      cases this
    simp only [noneShares, noSubject, and_false, or_false, true_and,
      Option.mem_toList]
    constructor
    · exact foldl_betterTitleMatch.1 sup
    · rintro ⟨memory, -, first, rfl⟩
      exact foldl_betterTitleMatch_of_first first
  · have someShares : (active.filter fun memory =>
        (subjectMatch candidate memory).isSome) ≠ [] :=
      fun none => unmatched (filterMap_subjectMatch_eq_nil_iff.mpr none)
    rw [if_neg unmatched, length_filterMap_subjectMatch]
    simp only [someShares, false_and, false_or]
    by_cases tooMany : cap < (active.filter fun memory =>
        (subjectMatch candidate memory).isSome).length
    · rw [if_pos tooMany]
      simp [not_le.mpr tooMany]
    · rw [if_neg tooMany]
      simp only [List.mem_insertionSort, List.mem_filterMap, not_lt.mp tooMany,
        true_and]

/-- A plan spares the newer memories if and only if its routes do. -/
theorem planSupersession_sparesNewer_iff (candidate : MemoryCandidate)
    (table : MemoryTable) (threshold : ℚ) (cap : Nat) :
    (∀ sup ∈ (planSupersession env candidate
          (MemoryRepository.findByTenantAndLifecycle table candidate.tenantId
            .active) threshold cap).matched,
        ∀ memory ∈ table.rows, memory.id = sup.supersededMemoryId →
          ¬IsNewer candidate memory) ↔
      RoutesSpareNewer env candidate
        (MemoryRepository.findByTenantAndLifecycle table candidate.tenantId
          .active) threshold cap := by
  let active :=
    MemoryRepository.findByTenantAndLifecycle table candidate.tenantId .active
  have stored {memory : CuratedMemory} (member : memory ∈ active) :
      memory ∈ table.rows := (List.mem_filter.mp member).1
  constructor
  · intro spares
    constructor
    · intro within memory shares
      obtain ⟨member, isMatch⟩ := List.mem_filter.mp shares
      obtain ⟨sup, matched⟩ := Option.isSome_iff_exists.mp isMatch
      exact spares sup
        (mem_matched_iff.mpr (.inr ⟨within, memory, member, matched⟩)) memory
        (stored member) (subjectMatch_supersededMemoryId matched).symm
    · intro noneShares memory member newer first
      exact spares (titleMatch env candidate memory)
        (mem_matched_iff.mpr
          (.inl ⟨noneShares, memory, member, first, rfl⟩)) memory
        (stored member) rfl newer
  · rintro ⟨subjects, titles⟩ sup planned memory inTable sameId newer
    rcases mem_matched_iff.mp planned with
      ⟨noneShares, chosen, member, first, rfl⟩ |
      ⟨within, chosen, member, matched⟩
    · rw [Table.eq_of_key_eq inTable (stored member) sameId] at newer
      exact titles noneShares chosen member newer first
    · rw [Table.eq_of_key_eq inTable (stored member)
        (sameId.trans (subjectMatch_supersededMemoryId matched))] at newer
      exact subjects within chosen
        (List.mem_filter.mpr ⟨member, by simp [matched]⟩) newer

/-- A memory under a subject that was promoted at this time. -/
def onCallMemory (promotedAt : String) : CuratedMemory :=
  let memory := sampleMemory plainEnvironment "candidate"
    ⟨"Carol is on call.", by decide +kernel, by simp⟩
    ⟨"Rota", by decide +kernel, by simp⟩
  { memory with
    promotedAt := promotedAt
    metadata :=
      { memory.metadata with
        subjects := some ["rota"] } }

def onCallTable (promotedAt : String) : MemoryTable where
  rows := [onCallMemory promotedAt]
  coexist := List.pairwise_singleton _ _

/-- A candidate of the same title with these subjects. -/
def onCallCandidate (subjects : Option (List String)) : MemoryCandidate :=
  let candidate := untrustedProjection (onCallMemory "2026-03-01T08:00:00Z")
  { candidate with
    capturedAt := "2026-03-01T09:00:00Z"
    metadata :=
      { candidate.metadata with
        subjects := subjects } }

def retiresNewer (subjects : Option (List String)) (promotedAt : String) :
    Bool :=
  let candidate := onCallCandidate subjects
  let active := MemoryRepository.findByTenantAndLifecycle
    (onCallTable promotedAt) candidate.tenantId .active
  (planSupersession plainEnvironment candidate active
    defaultSupersessionThreshold defaultMaxSupersedesPerPromotion).matched.any
      fun sup => active.any fun memory =>
        memory.id = sup.supersededMemoryId && IsNewer candidate memory

/-- The fallback retires what was promoted a day later, and the subject route
what was promoted half a second later. -/
theorem stale_candidates_retire :
    retiresNewer none "2026-03-02T09:00:00Z" = true ∧
      retiresNewer (some ["rota"]) "2026-03-01T09:00:00.5Z" = true := by
  decide +kernel

end Registrar
