import Registrar.Library.ReciprocalRanks
import Registrar.Search.RerankPasses

/-!
# The score of the fused list

The three loops add a reciprocal for every place of a document.  That is the
documented sum over the lists just when no list names a document twice.
-/

namespace Registrar

open ReciprocalRanks

/-- Every document has one entry, with this score and this best rank. -/
structure Tallied (score : String → ℚ) (best : String → Option Nat)
    (entries : List FusedEntry) : Prop where
  nodup : (entries.map (·.id)).Nodup
  held : ∀ entry ∈ entries,
    entry.score = score entry.id ∧ entry.bestRank = best entry.id
  absent : ∀ id ∉ entries.map (·.id), score id = 0 ∧ best id = none

/-- A note that an arm leaves at an entry. -/
def KeepsRank (note : FusedEntry → FusedEntry) : Prop :=
  ∀ entry, (note entry).id = entry.id ∧ (note entry).score = entry.score ∧
    (note entry).bestRank = entry.bestRank

/-- The better of a rank and the best one so far. -/
def improve (rank : Nat) (best : Option Nat) : Option Nat :=
  some ((best.map (min · rank)).getD rank)

theorem Tallied.empty : Tallied (fun _ => 0) (fun _ => none) [] where
  nodup := List.nodup_nil
  held := by simp
  absent := by simp

theorem map_id_updateEntry {entries : List FusedEntry} {id : String}
    {change : FusedEntry → FusedEntry}
    (keeps : ∀ entry, (change entry).id = entry.id)
    (present : id ∈ entries.map (·.id)) :
    (updateEntry entries id change).map (·.id) = entries.map (·.id) := by
  rw [updateEntry, if_pos present, List.map_map]
  refine List.map_congr_left fun entry _ => ?_
  by_cases here : entry.id = id
  · simp [here, keeps]
  · simp [here]

variable {score : String → ℚ} {best : String → Option Nat}
variable {entries : List FusedEntry}

theorem Tallied.updateEntry {note : FusedEntry → FusedEntry}
    (keeps : KeepsRank note) (k : ℚ) (rank : Nat) (id : String)
    (tallied : Tallied score best entries) :
    Tallied
      (fun other => score other + if id = other then 1 / (k + rank) else 0)
      (fun other => if id = other then improve rank (best other)
        else best other)
      (updateEntry entries id fun entry => note (entry.rank k rank)) := by
  have keepsId (entry : FusedEntry) : (note (entry.rank k rank)).id = entry.id :=
    (keeps _).1
  have changed (entry : FusedEntry) :
      (note (entry.rank k rank)).score = entry.score + 1 / (k + rank) ∧
        (note (entry.rank k rank)).bestRank = improve rank entry.bestRank :=
    (keeps _).2
  by_cases present : id ∈ entries.map (·.id)
  · have ids := map_id_updateEntry keepsId present
    refine ⟨ids ▸ tallied.nodup, fun entry member => ?_, fun other missing => ?_⟩
    · rw [Registrar.updateEntry, if_pos present] at member
      obtain ⟨old, known, rfl⟩ := List.mem_map.mp member
      obtain ⟨sum, least⟩ := tallied.held old known
      by_cases here : old.id = id
      · rw [if_pos here]
        simp only [keepsId, changed, sum, least, here, if_true, and_self]
      · rw [if_neg here]
        simp only [sum, least, Ne.symm here, if_false, add_zero, and_self]
    · rw [ids] at missing
      obtain ⟨nothing, unranked⟩ := tallied.absent other missing
      have different : id ≠ other := fun same => missing (same ▸ present)
      simp only [nothing, unranked, different, if_false, add_zero, and_self]
  · have added : Registrar.updateEntry entries id
        (fun entry => note (entry.rank k rank)) =
          entries ++ [note ((FusedEntry.fresh id).rank k rank)] := by
      rw [Registrar.updateEntry, if_neg present]
    obtain ⟨nothing, unranked⟩ := tallied.absent id present
    rw [added]
    refine ⟨?_, fun entry member => ?_, fun other missing => ?_⟩
    · rw [List.map_append, List.map_singleton, keepsId]
      refine List.nodup_append.mpr
        ⟨tallied.nodup, List.nodup_singleton _, ?_⟩
      intro other known new isNew same
      have isId : other = id := same.trans (List.mem_singleton.mp isNew)
      exact present (isId ▸ known)
    · rcases List.mem_append.mp member with known | new
      · obtain ⟨sum, least⟩ := tallied.held entry known
        have different : id ≠ entry.id := fun same =>
          present (same ▸ List.mem_map_of_mem known)
        simp only [sum, least, different, if_false, add_zero, and_self]
      · rw [List.mem_singleton.mp new]
        simp only [keepsId, changed, FusedEntry.fresh, nothing, unranked,
          if_true, and_self]
    · rw [List.map_append, List.mem_append, not_or, List.map_singleton,
        keepsId] at missing
      obtain ⟨old, new⟩ := missing
      obtain ⟨zero, none⟩ := tallied.absent other old
      have different : id ≠ other := fun same =>
        new (List.mem_singleton.mpr same.symm)
      simp only [zero, none, different, if_false, add_zero, and_self]

/-- The best rank after a list whose first rank is counted from `before`. -/
def bestAfter (best : Option Nat) (before : Nat) (first : Option Nat) :
    Option Nat :=
  best.merge min (first.map (before + ·))

theorem bestAfter_zero (best first : Option Nat) :
    bestAfter best 0 first = best.merge min first := by
  simp [bestAfter]

theorem bestAfter_improve (best : Option Nat) (before : Nat)
    (first : Option Nat) :
    bestAfter (improve (before + 1) best) (before + 1) first =
      bestAfter best before (some 1) := by
  cases best <;> cases first <;> simp [bestAfter, improve]

theorem bestAfter_later (best : Option Nat) (before : Nat)
    (first : Option Nat) :
    bestAfter best (before + 1) first =
      bestAfter best before (first.map (· + 1)) := by
  have moved (rank : Nat) : before + 1 + rank = before + (rank + 1) := by omega
  cases first <;> simp [bestAfter, moved]

/-- One arm adds all places of a document. -/
theorem Tallied.fuseArm {Hit : Type} {idOf : Hit → String}
    {note : Hit → FusedEntry → FusedEntry}
    (keeps : ∀ hit, KeepsRank (note hit)) (k : ℚ) (before : Nat)
    (hits : List Hit) (tallied : Tallied score best entries) :
    Tallied
      (fun id => score id + placeSum k id before (hits.map idOf))
      (fun id => bestAfter (best id) before (firstRank id (hits.map idOf)))
      (fuseArm k idOf note before entries hits) := by
  induction hits generalizing before score best entries with
  | nil =>
      have scores : (fun id => score id + placeSum k id before []) = score := by
        funext id
        simp [placeSum]
      have bests : (fun id => bestAfter (best id) before (firstRank id [])) =
          best := by
        funext id
        simp [bestAfter]
      simpa only [List.map_nil, scores, bests, Registrar.fuseArm] using tallied
  | cons hit hits induction =>
      have step := tallied.updateEntry (keeps hit) k (before + 1) (idOf hit)
      have run := induction (before + 1) step
      rw [Registrar.fuseArm]
      refine cast (congrArg₂ (fun score best => Tallied score best _) ?_ ?_) run
      · funext id
        rw [List.map_cons, placeSum, add_assoc]
      · funext id
        rw [List.map_cons, firstRank_cons]
        by_cases here : idOf hit = id
        · rw [if_pos here, if_pos here, bestAfter_improve]
        · rw [if_neg here, if_neg here, bestAfter_later]

/-- The ids of the three lists. -/
def rankings (qmdHits : List QmdSearchResult)
    (nativeHits denseHits : List IndexHit) : List (List String) :=
  [qmdHits.map (·.file), nativeHits.map (·.id), denseHits.map (·.id)]

/-- The fused list names each document of the rankings once, with this score,
in the order of score, best rank and id. -/
structure Fuses (score : String → ℚ) (rankings : List (List String))
    (fused : List QmdSearchResult) : Prop where
  once : (fused.map (·.file)).Nodup
  files : ∀ file,
    file ∈ fused.map (·.file) ↔ ∃ ranking ∈ rankings, file ∈ ranking
  scores : ∀ result ∈ fused, result.score = score result.file
  ordered : (fused.map (·.file)).Pairwise
    (Before utf16Units score fun file => (bestRank rankings file).getD 0)

/-- No document loses score or leaves the list. -/
def NoneLower (before after : List QmdSearchResult) : Prop :=
  ∀ result ∈ before, ∃ later ∈ after,
    later.file = result.file ∧ result.score ≤ later.score

def scoredFiles (fused : List QmdSearchResult) : List (String × ℚ) :=
  fused.map fun result => (result.file, result.score)

/-- What reciprocal-rank fusion of the three lists is to give. -/
structure IsReciprocalRankFusion (k : ℚ) (qmdHits : List QmdSearchResult)
    (nativeHits denseHits : List IndexHit) : Prop where
  fuses :
    Fuses (ReciprocalRanks.score k (rankings qmdHits nativeHits denseHits))
      (rankings qmdHits nativeHits denseHits)
      (fuseReciprocalRank qmdHits nativeHits denseHits k)
  swaps :
    scoredFiles (fuseReciprocalRank qmdHits denseHits nativeHits k) =
      scoredFiles (fuseReciprocalRank qmdHits nativeHits denseHits k)
  growsQmd : ∀ more,
    NoneLower (fuseReciprocalRank qmdHits nativeHits denseHits k)
      (fuseReciprocalRank (qmdHits ++ more) nativeHits denseHits k)
  growsNative : ∀ more,
    NoneLower (fuseReciprocalRank qmdHits nativeHits denseHits k)
      (fuseReciprocalRank qmdHits (nativeHits ++ more) denseHits k)
  growsDense : ∀ more,
    NoneLower (fuseReciprocalRank qmdHits nativeHits denseHits k)
      (fuseReciprocalRank qmdHits nativeHits (denseHits ++ more) k)

instance : IsTrans FusedEntry FusedEntry.Precedes where
  trans first second third := by
    rintro (higher | ⟨same, better | ⟨level, less⟩⟩)
      (above | ⟨alike, nearer | ⟨even, lesser⟩⟩)
    · exact .inl (above.trans higher)
    · exact .inl (alike ▸ higher)
    · exact .inl (alike ▸ higher)
    · exact .inl (same ▸ above)
    · exact .inr ⟨same.trans alike, .inl (better.trans nearer)⟩
    · exact .inr ⟨same.trans alike, .inl (even ▸ better)⟩
    · exact .inl (same ▸ above)
    · exact .inr ⟨same.trans alike, .inl (level ▸ nearer)⟩
    · exact .inr ⟨same.trans alike, .inr ⟨level.trans even, less.trans lesser⟩⟩

instance : Std.Total FusedEntry.Precedes where
  total first second := by
    unfold FusedEntry.Precedes
    rcases lt_trichotomy first.score second.score with lower | same | higher
    · exact .inr (.inl lower)
    · rcases lt_trichotomy (first.bestRank.getD 0) (second.bestRank.getD 0)
        with better | level | worse
      · exact .inl (.inr ⟨same, .inl better⟩)
      · rcases le_total (utf16Units first.id) (utf16Units second.id)
          with less | more
        · exact .inl (.inr ⟨same, .inr ⟨level, less⟩⟩)
        · exact .inr (.inr ⟨same.symm, .inr ⟨level.symm, more⟩⟩)
      · exact .inr (.inr ⟨same.symm, .inl worse⟩)
    · exact .inl (.inl higher)

/-- The entries of the three loops. -/
def fusedEntries (qmdHits : List QmdSearchResult)
    (nativeHits denseHits : List IndexHit) (k : ℚ) : List FusedEntry :=
  fuseArm k (·.id) FusedEntry.noteDense 0
    (fuseArm k (·.id) FusedEntry.noteNative 0
      (fuseArm k (·.file) FusedEntry.noteQmd 0 [] qmdHits) nativeHits)
    denseHits

section Entries

variable (k : ℚ) (qmdHits : List QmdSearchResult)
variable (nativeHits denseHits : List IndexHit)

theorem fuseReciprocalRank_eq :
    fuseReciprocalRank qmdHits nativeHits denseHits k =
      ((fusedEntries qmdHits nativeHits denseHits k).insertionSort
        FusedEntry.Precedes).map FusedEntry.result := rfl

theorem fusedEntries_tallied :
    Tallied (placeScore k (rankings qmdHits nativeHits denseHits))
      (bestRank (rankings qmdHits nativeHits denseHits))
      (fusedEntries qmdHits nativeHits denseHits k) := by
  have keepsQmd (hit : QmdSearchResult) :
      KeepsRank (FusedEntry.noteQmd hit) := fun _ => ⟨rfl, rfl, rfl⟩
  have keepsNative (hit : IndexHit) : KeepsRank (FusedEntry.noteNative hit) :=
    fun _ => ⟨rfl, rfl, rfl⟩
  have keepsDense (hit : IndexHit) : KeepsRank (FusedEntry.noteDense hit) :=
    fun _ => ⟨rfl, rfl, rfl⟩
  have qmd := @Tallied.fuseArm _ _ _ _ (·.file) _ keepsQmd k 0 qmdHits
    Tallied.empty
  have native := @Tallied.fuseArm _ _ _ _ (·.id) _ keepsNative k 0 nativeHits
    qmd
  have dense := @Tallied.fuseArm _ _ _ _ (·.id) _ keepsDense k 0 denseHits
    native
  refine cast (congrArg₂ (fun score best => Tallied score best _) ?_ ?_) dense
  · funext id
    simp [placeScore, rankings, add_assoc]
  · funext id
    simp only [rankings, bestRank_cons, bestRank_nil, bestAfter_zero]
    generalize firstRank id (qmdHits.map (·.file)) = qmdRank
    generalize firstRank id (nativeHits.map (·.id)) = nativeRank
    generalize firstRank id (denseHits.map (·.id)) = denseRank
    cases qmdRank <;> cases nativeRank <;> cases denseRank <;>
      simp [Nat.min_assoc]

/-- The list that the code gives, with every place counted. -/
theorem fuseReciprocalRank_fuses :
    Fuses (placeScore k (rankings qmdHits nativeHits denseHits))
      (rankings qmdHits nativeHits denseHits)
      (fuseReciprocalRank qmdHits nativeHits denseHits k) := by
  have tallied := fusedEntries_tallied k qmdHits nativeHits denseHits
  have sorted := (fusedEntries qmdHits nativeHits denseHits k).perm_insertionSort
    FusedEntry.Precedes
  have files : (fuseReciprocalRank qmdHits nativeHits denseHits k).map (·.file) =
      ((fusedEntries qmdHits nativeHits denseHits k).insertionSort
        FusedEntry.Precedes).map (·.id) := by
    rw [fuseReciprocalRank_eq, List.map_map]
    rfl
  refine ⟨?_, fun file => ?_, fun result member => ?_, ?_⟩
  · rw [files]
    exact (sorted.map _).nodup_iff.mpr tallied.nodup
  · rw [mem_files_fuseReciprocalRank]
    simp [rankings]
  · rw [fuseReciprocalRank_eq] at member
    obtain ⟨entry, found, rfl⟩ := List.mem_map.mp member
    exact (tallied.held entry (sorted.mem_iff.mp found)).1
  · rw [files, List.pairwise_map]
    refine (List.pairwise_insertionSort FusedEntry.Precedes _).imp_of_mem ?_
    intro left right leftFound rightFound precedes
    obtain ⟨leftScore, leftBest⟩ := tallied.held left (sorted.mem_iff.mp leftFound)
    obtain ⟨rightScore, rightBest⟩ :=
      tallied.held right (sorted.mem_iff.mp rightFound)
    rwa [FusedEntry.Precedes, leftScore, rightScore, leftBest, rightBest]
      at precedes

end Entries

section Stability

variable {k : ℚ} {qmdHits : List QmdSearchResult}
variable {nativeHits denseHits : List IndexHit}

theorem scoredFiles_of_fuses {score : String → ℚ}
    {rankings : List (List String)} {fused : List QmdSearchResult}
    (fuses : Fuses score rankings fused) :
    scoredFiles fused =
      (fused.map (·.file)).map fun file => (file, score file) := by
  unfold scoredFiles
  rw [List.map_map]
  refine List.map_congr_left fun result member => ?_
  simp only [Function.comp_apply, fuses.scores result member]

theorem scoredFiles_eq_of_perm {score : String → ℚ}
    {left right : List (List String)} {first second : List QmdSearchResult}
    (same : left.Perm right) (fusesFirst : Fuses score left first)
    (fusesSecond : Fuses score right second) :
    scoredFiles first = scoredFiles second := by
  have best : (fun file => (bestRank left file).getD 0) =
      fun file => (bestRank right file).getD 0 := by
    funext file
    rw [bestRank_eq_of_perm same]
  have files : first.map (·.file) = second.map (·.file) := by
    refine eq_of_pairwise_before utf16Units_injective fusesFirst.once
      fusesSecond.once (fun file => ?_) fusesFirst.ordered
      (best ▸ fusesSecond.ordered)
    rw [fusesFirst.files, fusesSecond.files]
    simp only [same.mem_iff]
  rw [scoredFiles_of_fuses fusesFirst, scoredFiles_of_fuses fusesSecond, files]

theorem scoredFiles_swap :
    scoredFiles (fuseReciprocalRank qmdHits denseHits nativeHits k) =
      scoredFiles (fuseReciprocalRank qmdHits nativeHits denseHits k) := by
  have swapped : (rankings qmdHits denseHits nativeHits).Perm
      (rankings qmdHits nativeHits denseHits) :=
    (List.Perm.swap _ _ []).cons _
  have scores : placeScore k (rankings qmdHits denseHits nativeHits) =
      placeScore k (rankings qmdHits nativeHits denseHits) :=
    funext (placeScore_eq_of_perm swapped)
  have first := fuseReciprocalRank_fuses k qmdHits denseHits nativeHits
  rw [scores] at first
  exact scoredFiles_eq_of_perm swapped first
    (fuseReciprocalRank_fuses k qmdHits nativeHits denseHits)

/-- Rankings of which each goes on as another. -/
theorem noneLower_of_prefixes (nonneg : 0 ≤ k)
    (moreQmd : List QmdSearchResult) (moreNative moreDense : List IndexHit) :
    NoneLower (fuseReciprocalRank qmdHits nativeHits denseHits k)
      (fuseReciprocalRank (qmdHits ++ moreQmd) (nativeHits ++ moreNative)
        (denseHits ++ moreDense) k) := by
  intro result member
  have before := fuseReciprocalRank_fuses k qmdHits nativeHits denseHits
  have after := fuseReciprocalRank_fuses k (qmdHits ++ moreQmd)
    (nativeHits ++ moreNative) (denseHits ++ moreDense)
  have named := mem_files_fuseReciprocalRank.mp (List.mem_map_of_mem member)
  have stays : result.file ∈ (fuseReciprocalRank (qmdHits ++ moreQmd)
      (nativeHits ++ moreNative) (denseHits ++ moreDense) k).map (·.file) := by
    rw [mem_files_fuseReciprocalRank]
    simp only [List.map_append, List.mem_append]
    rcases named with inQmd | inNative | inDense
    · exact .inl (.inl inQmd)
    · exact .inr (.inl (.inl inNative))
    · exact .inr (.inr (.inl inDense))
  obtain ⟨later, found, sameFile⟩ := List.mem_map.mp stays
  refine ⟨later, found, sameFile, ?_⟩
  rw [before.scores result member, after.scores later found, sameFile]
  have grows (front back : List String) :
      placeSum k result.file 0 front ≤
        placeSum k result.file 0 (front ++ back) := by
    rw [placeSum_append]
    exact le_add_of_nonneg_right (placeSum_nonneg nonneg _ _ _)
  simp only [placeScore, rankings, List.map_append, List.map_cons,
    List.map_nil, List.sum_cons, List.sum_nil]
  have qmd := grows (qmdHits.map (·.file)) (moreQmd.map (·.file))
  have native := grows (nativeHits.map (·.id)) (moreNative.map (·.id))
  have dense := grows (denseHits.map (·.id)) (moreDense.map (·.id))
  linarith

/-- The documented sum is the score of the code just when no list repeats a
document. -/
theorem placeScore_eq_score_of_nodup (nonneg : 0 ≤ k)
    (once : ∀ ranking ∈ rankings qmdHits nativeHits denseHits, ranking.Nodup) :
    placeScore k (rankings qmdHits nativeHits denseHits) =
      ReciprocalRanks.score k (rankings qmdHits nativeHits denseHits) := by
  funext file
  refine (placeScore_eq_score_iff nonneg).mpr fun ranking member => ?_
  exact List.nodup_iff_count_le_one.mp (once ranking member) file

theorem nodup_of_fusion (nonneg : 0 ≤ k)
    (fusion : IsReciprocalRankFusion k qmdHits nativeHits denseHits) :
    ∀ ranking ∈ rankings qmdHits nativeHits denseHits, ranking.Nodup := by
  have fuses := fuseReciprocalRank_fuses k qmdHits nativeHits denseHits
  intro ranking member
  refine List.nodup_iff_count_le_one.mpr fun file => ?_
  by_cases named : file ∈ ranking
  · have listed := (fuses.files file).mpr ⟨ranking, member, named⟩
    obtain ⟨result, found, rfl⟩ := List.mem_map.mp listed
    have scores := (fuses.scores result found).symm.trans
      (fusion.fuses.scores result found)
    exact (placeScore_eq_score_iff nonneg).mp scores ranking member
  · rw [List.count_eq_zero.mpr named]
    exact Nat.zero_le 1

/-- Rank fusion gives the documented scores just when no list names a document
twice. -/
theorem fuseReciprocalRank_iff_nodup (nonneg : 0 ≤ k) :
    IsReciprocalRankFusion k qmdHits nativeHits denseHits ↔
      ∀ ranking ∈ rankings qmdHits nativeHits denseHits, ranking.Nodup := by
  constructor
  · exact nodup_of_fusion nonneg
  · intro once
    refine ⟨?_, scoredFiles_swap, fun more => ?_, fun more => ?_, fun more => ?_⟩
    · rw [← placeScore_eq_score_of_nodup nonneg once]
      exact fuseReciprocalRank_fuses k qmdHits nativeHits denseHits
    · simpa using noneLower_of_prefixes nonneg more [] []
    · simpa using noneLower_of_prefixes nonneg [] more []
    · simpa using noneLower_of_prefixes nonneg [] [] more

end Stability

section Handbook

def handbookHit : QmdSearchResult where
  file := "qmd://decisions/handbook.md"
  score := 1
  snippet := "handbook"
  collection := "decisions"

def handbookIndexHit : IndexHit where
  id := "qmd://decisions/handbook.md"
  score := 1
  snippet := "handbook"
  collection := "decisions"

def rosterHit : QmdSearchResult where
  file := "qmd://decisions/roster.md"
  score := 1 / 2
  snippet := "roster"
  collection := "decisions"

def rosterIndexHit : IndexHit where
  id := "qmd://decisions/roster.md"
  score := 2
  snippet := "roster"
  collection := "decisions"

theorem handbook_fuseReciprocalRank :
    IsReciprocalRankFusion rrfK [handbookHit, rosterHit]
      [rosterIndexHit, handbookIndexHit] [handbookIndexHit] :=
  (fuseReciprocalRank_iff_nodup (by norm_num [rrfK])).mpr (by decide +kernel)

/-- A page that one list names twice has the score of two lists. -/
theorem repeated_handbook_scores_twice :
    (fuseReciprocalRank [handbookHit, handbookHit] [] [] rrfK).map (·.score) =
        [1 / 61 + 1 / 62] ∧
      ReciprocalRanks.score rrfK
        (rankings [handbookHit, handbookHit] [] []) handbookHit.file = 1 / 61 ∧
      ¬ IsReciprocalRankFusion rrfK [handbookHit, handbookHit] [] [] := by
  refine ⟨by decide +kernel, by decide +kernel, fun fusion => ?_⟩
  have once := nodup_of_fusion (by norm_num [rrfK]) fusion
  have repeated := once [handbookHit.file, handbookHit.file] (by simp [rankings])
  simp at repeated

end Handbook

end Registrar
