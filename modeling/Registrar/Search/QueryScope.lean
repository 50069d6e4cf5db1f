import Registrar.Search.DenseIndexer

/-!
# The scope of a query

The adapter admits hits from three arms and fuses them by citation.  The native
and the dense index keep the collection beside the citation; the hits of the
binary are judged by the text of their path.
-/

namespace Registrar

structure DenseArm where
  index : DenseVecIndex
  searchK : Nat
  deriving DecidableEq, Repr

structure RerankStage where
  candidateWindow : Nat
  topN : Nat
  deriving DecidableEq, Repr

/-- The adapter of one tenant, with the indexes that it could open. -/
structure QmdAdapter where
  tenantId : String
  native : Option NativeIndex
  dense : Option DenseArm
  rerankStage : Option RerankStage

/-- The search engines and the models that the arms call. -/
structure SearchEngines where
  fts5 : Fts5Engine
  embedQuery : String → Option Embedding
  distance : Distance
  /-- The scores of the candidates, or nothing where the model fails. -/
  rerankScores : String → List QmdSearchResult → Option (List ℚ)

def nativeSearchK : Nat := 50

namespace RerankStage

/-- Order the candidates by their scores, then by their fused rank. -/
def reorder (candidates : List QmdSearchResult) (scores : List ℚ) :
    List QmdSearchResult :=
  (((candidates.zip scores).zipIdx.insertionSort fun left right =>
    right.1.2 < left.1.2 ∨
      left.1.2 = right.1.2 ∧ left.2 ≤ right.2).map fun candidate =>
        { candidate.1.1 with score := candidate.1.2 })

def apply (stage : RerankStage) (engines : SearchEngines) (query : String)
    (fused : List QmdSearchResult) : List QmdSearchResult :=
  if fused.length ≤ 1 then fused
  else
    let candidates := fused.take stage.candidateWindow
    match engines.rerankScores query candidates with
    | none => fused
    | some scores =>
        if scores.length ≠ candidates.length then fused
        else (reorder candidates scores).take stage.topN

end RerankStage

namespace QmdAdapter

variable (services : TextServices) (engines : SearchEngines)
  (adapter : QmdAdapter)

def nativeSearch (query : String) (scope : SearchScope) : List IndexHit :=
  match adapter.native with
  | none => []
  | some index =>
      index.search services engines.fts5 query nativeSearchK
        (resolveScopeCollections scope)

def nativeFallback (query : String) (scope : SearchScope) : List IndexHit :=
  match adapter.native with
  | none => []
  | some index =>
      index.searchQuestionFallback services engines.fts5 query nativeSearchK
        (resolveScopeCollections scope)

def denseSearch (query : String) (scope : SearchScope) : List IndexHit :=
  match adapter.dense, engines.embedQuery query with
  | some arm, some queryEmbedding =>
      arm.index.search engines.distance queryEmbedding arm.searchK
        (resolveScopeCollections scope)
  | _, _ => []

def maybeRerank (query : String) (fused : List QmdSearchResult) :
    List QmdSearchResult :=
  match adapter.rerankStage with
  | none => fused
  | some stage => stage.apply engines query fused

/-- The hits of the native arm; the fallback serves where every arm is
empty. -/
def nativeHits (query : String) (scope : SearchScope)
    (result : CommandResult) : List IndexHit :=
  let strict := adapter.nativeSearch services engines query scope
  if strict = [] ∧ adapter.denseSearch engines query scope = [] ∧
      qmdHits services query scope result = [] then
    adapter.nativeFallback services engines query scope
  else strict

/-- A query for a tenant, with what the binary answers to it. -/
def query (queryText : String) (scope : SearchScope)
    (tenantId : Option String) (result : CommandResult) :
    Except QmdError (List QmdSearchResult) :=
  if tenantId ≠ some adapter.tenantId then .ok []
  else
    let native := adapter.nativeHits services engines queryText scope result
    let dense := adapter.denseSearch engines queryText scope
    match SearchClient.search services queryText scope result with
    | .error failure =>
        if native ≠ [] ∨ dense ≠ [] then
          .ok (adapter.maybeRerank engines queryText
            (fuseReciprocalRank [] native dense rrfK))
        else .error failure
    | .ok hits =>
        if native = [] ∧ dense = [] then
          .ok (adapter.maybeRerank engines queryText hits)
        else
          .ok (adapter.maybeRerank engines queryText
            (fuseReciprocalRank hits native dense rrfK))

/-- What the three arms admit: the citations, each with the collection that it
is admitted under. -/
def admitted (queryText : String) (scope : SearchScope)
    (tenantId : Option String) (result : CommandResult) :
    List (String × String) :=
  if tenantId ≠ some adapter.tenantId then []
  else
    (qmdHits services queryText scope result).map
        (fun hit => (hit.file, hit.collection)) ++
      (adapter.nativeHits services engines queryText scope result ++
        adapter.denseSearch engines queryText scope).map
          fun hit => (hit.id, hit.collection)

/-- The results are documents of the scope's collections, and no document is
admitted under two collections. -/
structure HonoursScope (queryText : String) (scope : SearchScope)
    (tenantId : Option String) (result : CommandResult) : Prop where
  inScope : ∀ results,
    adapter.query services engines queryText scope tenantId result =
      .ok results → ∀ found ∈ results,
        ∃ collection ∈ resolveScopeCollections scope,
          citationCollection found.file = some collection
  once : ∀ left ∈ adapter.admitted services engines queryText scope tenantId
      result,
    ∀ right ∈ adapter.admitted services engines queryText scope tenantId
        result,
      left.1 = right.1 → left.2 = right.2

/-- The native or the dense index holds the citation, and the query can reach
it there. -/
def IsIndexed (queryText citation : String) : Prop :=
  (matchWords services queryText ≠ [] ∧
    ∃ index ∈ adapter.native, ∃ row ∈ index.docs.rows, row.id = citation) ∨
  ∃ arm ∈ adapter.dense, 0 < arm.searchK ∧ arm.index.dims.isSome ∧
    ∃ row ∈ arm.index.rows, row.docId = citation

/-- The indexes have been built from export trees, in any number of sweeps. -/
structure Built : Prop where
  native : ∀ index ∈ adapter.native, ∃ tree configs labels,
    index = (Transition.run IndexSystem.step (.start tree configs)
      labels).index
  dense : ∀ arm ∈ adapter.dense, ∃ env labels,
    arm.index = Transition.run (DenseVecIndex.step env) .empty labels

/-- Every printed hit whose path contains a name of the scope, and no known
name before it, lies in the scope, and under that very name if an index
holds it. -/
def DerivesTruly (queryText : String) (scope : SearchScope)
    (result : CommandResult) : Prop :=
  ∀ hit ∈ printedHits services result,
    deriveCollectionFromPath hit.file ∈ resolveScopeCollections scope →
      ∃ collection ∈ resolveScopeCollections scope,
        citationCollection hit.file = some collection ∧
          (adapter.IsIndexed services queryText hit.file →
            deriveCollectionFromPath hit.file = collection)

variable {services engines adapter} {queryText : String} {scope : SearchScope}
  {tenantId : Option String} {result : CommandResult}

theorem Built.placed_native (built : adapter.Built) {index : NativeIndex}
    (opened : index ∈ adapter.native) : index.Placed := by
  obtain ⟨tree, configs, labels, rfl⟩ := built.native index opened
  exact placed_run tree configs labels

theorem Built.placed_dense (built : adapter.Built) {arm : DenseArm}
    (opened : arm ∈ adapter.dense) : arm.index.Placed := by
  obtain ⟨env, labels, isRun⟩ := built.dense arm opened
  rw [isRun]
  exact placed_denseRun labels

theorem inScope_iff (limited : scope ≠ .all) {collection : String} :
    InScope (resolveScopeCollections scope) collection ↔
      collection ∈ resolveScopeCollections scope :=
  or_iff_right (resolveScopeCollections_ne_nil limited)

theorem citationCollection_of_citesPlace {id collection : String}
    (cites : CitesPlace id collection) :
    citationCollection id = some collection := by
  obtain ⟨place, exported, rfl, rfl⟩ := cites
  exact citationCollection_docId exported

/-- What an index admits is in scope by its citation. -/
def AdmitsTruly (scope : SearchScope) (hit : IndexHit) : Prop :=
  hit.collection ∈ resolveScopeCollections scope ∧
    citationCollection hit.id = some hit.collection

theorem nativeSearch_truly (built : adapter.Built) (limited : scope ≠ .all)
    {hit : IndexHit}
    (member : hit ∈ adapter.nativeSearch services engines queryText scope) :
    AdmitsTruly scope hit ∧ adapter.IsIndexed services queryText hit.id := by
  unfold nativeSearch at member
  cases opened : adapter.native with
  | none =>
      rw [opened] at member
      cases member
  | some index =>
      rw [opened] at member
      obtain ⟨words, row, stored, inScope, sameId, same⟩ :=
        NativeIndex.isHit_of_mem_search member
      rw [inScope_iff limited] at inScope
      have cites := built.placed_native opened row stored
      refine ⟨⟨same ▸ inScope, ?_⟩, .inl ⟨words, index, opened, row, stored,
        sameId.symm⟩⟩
      rw [sameId, same]
      exact citationCollection_of_citesPlace cites

theorem nativeHits_truly (built : adapter.Built) (limited : scope ≠ .all)
    {hit : IndexHit}
    (member : hit ∈ adapter.nativeHits services engines queryText scope
      result) :
    AdmitsTruly scope hit ∧
      (qmdHits services queryText scope result = [] ∨
        adapter.IsIndexed services queryText hit.id) := by
  unfold nativeHits at member
  dsimp only at member
  split_ifs at member with none
  · refine ⟨?_, .inl none.2.2⟩
    unfold nativeFallback at member
    cases opened : adapter.native with
    | none =>
        rw [opened] at member
        cases member
    | some index =>
        rw [opened] at member
        obtain ⟨row, stored, inScope, sameId, same⟩ :=
          NativeIndex.isHit_of_mem_searchQuestionFallback member
        rw [inScope_iff limited] at inScope
        have cites := built.placed_native opened row stored
        refine ⟨same ▸ inScope, ?_⟩
        rw [sameId, same]
        exact citationCollection_of_citesPlace cites
  · obtain ⟨truly, indexed⟩ := nativeSearch_truly built limited member
    exact ⟨truly, .inr indexed⟩

theorem denseSearch_truly (built : adapter.Built) (limited : scope ≠ .all)
    {hit : IndexHit}
    (member : hit ∈ adapter.denseSearch engines queryText scope) :
    AdmitsTruly scope hit ∧ adapter.IsIndexed services queryText hit.id := by
  unfold denseSearch at member
  split at member
  · next arm queryEmbedding opened embedded =>
      obtain ⟨sized, positive, row, stored, inScope, sameId, same⟩ :=
        DenseVecIndex.exists_of_mem_search member
      rw [inScope_iff limited] at inScope
      have cites := built.placed_dense opened row stored
      refine ⟨⟨same ▸ inScope, ?_⟩, .inr ⟨arm, opened, positive, sized, row,
        stored, sameId.symm⟩⟩
      rw [sameId, same]
      exact citationCollection_of_citesPlace cites
  · cases member

theorem indexHits_truly (built : adapter.Built) (limited : scope ≠ .all)
    {hit : IndexHit}
    (member : hit ∈
      adapter.nativeHits services engines queryText scope result ++
        adapter.denseSearch engines queryText scope) :
    AdmitsTruly scope hit ∧
      (qmdHits services queryText scope result = [] ∨
        adapter.IsIndexed services queryText hit.id) := by
  rcases List.mem_append.mp member with native | dense
  · exact nativeHits_truly built limited native
  · obtain ⟨truly, indexed⟩ := denseSearch_truly built limited dense
    exact ⟨truly, .inr indexed⟩

theorem file_of_mem_maybeRerank {query : String}
    {fused : List QmdSearchResult} {found : QmdSearchResult}
    (member : found ∈ adapter.maybeRerank engines query fused) :
    found.file ∈ fused.map (·.file) := by
  have unchanged (member : found ∈ fused) : found.file ∈ fused.map (·.file) :=
    List.mem_map_of_mem member
  unfold maybeRerank at member
  split at member
  · exact unchanged member
  · unfold RerankStage.apply at member
    dsimp only at member
    split_ifs at member with single
    · exact unchanged member
    · split at member
      · exact unchanged member
      · split_ifs at member with partly
        · exact unchanged member
        · unfold RerankStage.reorder at member
          obtain ⟨candidate, isCandidate, rfl⟩ :=
            List.mem_map.mp (List.mem_of_mem_take member)
          have scored := List.fst_mem_of_mem_zipIdx
            ((List.mem_insertionSort _).mp isCandidate)
          exact List.mem_map.mpr ⟨candidate.1.1,
            List.mem_of_mem_take (List.of_mem_zip scored).1, rfl⟩

/-- Every result has been admitted by an arm. -/
theorem admitted_of_result {results : List QmdSearchResult}
    (answer : adapter.query services engines queryText scope tenantId result =
      .ok results) {found : QmdSearchResult} (member : found ∈ results) :
    found.file ∈ (adapter.admitted services engines queryText scope tenantId
      result).map (·.1) := by
  unfold query at answer
  unfold admitted
  split_ifs at answer ⊢ with foreign
  · cases answer
    cases member
  rw [List.map_append, List.map_map, List.map_map, List.map_append,
    List.mem_append, List.mem_append]
  dsimp only at answer
  have files : (fun hit : QmdSearchResult => hit.file) =
      (·.1) ∘ fun hit : QmdSearchResult => (hit.file, hit.collection) := rfl
  have ids : (fun hit : IndexHit => hit.id) =
      (·.1) ∘ fun hit : IndexHit => (hit.id, hit.collection) := rfl
  rw [← files, ← ids]
  cases searched : SearchClient.search services queryText scope result with
  | error failure =>
      rw [searched] at answer
      dsimp only at answer
      split_ifs at answer with some
      cases answer
      have fused := mem_files_fuseReciprocalRank.mp
        (file_of_mem_maybeRerank member)
      exact .inr (by simpa using fused)
  | ok hits =>
      have isHits : qmdHits services queryText scope result = hits := by
        unfold qmdHits
        rw [searched]
        rfl
      rw [isHits]
      rw [searched] at answer
      dsimp only at answer
      split_ifs at answer with none
      · cases answer
        exact .inl (file_of_mem_maybeRerank member)
      · cases answer
        exact mem_files_fuseReciprocalRank.mp (file_of_mem_maybeRerank member)

/-- A printed hit that is admitted under the name found in its path. -/
def AdmittedByPath (services : TextServices) (scope : SearchScope)
    (result : CommandResult) (pair : String × String) : Prop :=
  (∃ hit ∈ printedHits services result, hit.file = pair.1) ∧
    pair.2 = deriveCollectionFromPath pair.1 ∧
      pair.2 ∈ resolveScopeCollections scope

theorem admitted_cases (built : adapter.Built) (limited : scope ≠ .all)
    {pair : String × String}
    (member : pair ∈ adapter.admitted services engines queryText scope tenantId
      result) :
    tenantId = some adapter.tenantId ∧
      (AdmittedByPath services scope result pair ∨
        (pair.2 ∈ resolveScopeCollections scope ∧
          citationCollection pair.1 = some pair.2) ∧
            ((∀ other, ¬AdmittedByPath services scope result other) ∨
              adapter.IsIndexed services queryText pair.1)) := by
  unfold admitted at member
  split_ifs at member with foreign
  · cases member
  refine ⟨not_not.mp foreign, ?_⟩
  rcases List.mem_append.mp member with printed | indexed
  · obtain ⟨hit, isHit, rfl⟩ := List.mem_map.mp printed
    obtain ⟨isPrinted, derived⟩ := (mem_qmdHits_iff limited).mp isHit
    have same := collection_printedHits isPrinted
    exact .inl ⟨⟨hit, isPrinted, rfl⟩, same, same ▸ derived⟩
  · obtain ⟨hit, isHit, rfl⟩ := List.mem_map.mp indexed
    obtain ⟨truly, reached⟩ := indexHits_truly built limited isHit
    refine .inr ⟨truly, reached.imp_left fun none other => ?_⟩
    rintro ⟨⟨printed, isPrinted, isFile⟩, same, derived⟩
    rw [same, ← isFile] at derived
    have present : printed ∈ qmdHits services queryText scope result :=
      (mem_qmdHits_iff limited).mpr ⟨isPrinted, derived⟩
    rw [none] at present
    cases present

theorem honoursScope_of_derivesTruly (built : adapter.Built)
    (limited : scope ≠ .all)
    (truly : tenantId = some adapter.tenantId →
      adapter.DerivesTruly services queryText scope result) :
    adapter.HonoursScope services engines queryText scope tenantId result := by
  -- A document admitted by its path lies in the scope, under that very name
  -- if an index admits it too.
  have byPath {pair : String × String}
      (own : tenantId = some adapter.tenantId)
      (admitted : AdmittedByPath services scope result pair) :
      ∃ collection ∈ resolveScopeCollections scope,
        citationCollection pair.1 = some collection ∧
          (adapter.IsIndexed services queryText pair.1 →
            pair.2 = collection) := by
    obtain ⟨⟨hit, isPrinted, isFile⟩, same, derived⟩ := admitted
    rw [same, ← isFile] at derived ⊢
    exact truly own hit isPrinted derived
  constructor
  · intro results answer found member
    obtain ⟨pair, isPair, same⟩ :=
      List.mem_map.mp (admitted_of_result answer member)
    rw [← same]
    obtain ⟨own, path | ⟨⟨inScope, cited⟩, -⟩⟩ :=
      admitted_cases built limited isPair
    · obtain ⟨collection, inScope, cited, -⟩ := byPath own path
      exact ⟨collection, inScope, cited⟩
    · exact ⟨pair.2, inScope, cited⟩
  · intro left isLeft right isRight same
    obtain ⟨own, leftPath | ⟨⟨-, leftCited⟩, leftReached⟩⟩ :=
      admitted_cases built limited isLeft
    · obtain ⟨-, rightPath | ⟨⟨-, rightCited⟩, rightReached⟩⟩ :=
        admitted_cases built limited isRight
      · rw [leftPath.2.1, rightPath.2.1, same]
      · obtain ⟨collection, -, cited, indexed⟩ := byPath own leftPath
        rw [same, rightCited, Option.some_inj] at cited
        rw [cited]
        refine indexed (same ▸ rightReached.resolve_left fun none => ?_)
        exact none left leftPath
    · obtain ⟨-, rightPath | ⟨⟨-, rightCited⟩, -⟩⟩ :=
        admitted_cases built limited isRight
      · obtain ⟨collection, -, cited, indexed⟩ := byPath own rightPath
        rw [← same, leftCited, Option.some_inj] at cited
        rw [cited]
        refine (indexed (same ▸ leftReached.resolve_left fun none => ?_)).symm
        exact none right rightPath
      · rw [same, rightCited, Option.some_inj] at leftCited
        exact leftCited.symm

/-- An engine that finds the rows of one document and nothing else. -/
def enginesFinding (citation : String) (queryEmbedding : Option Embedding) :
    SearchEngines where
  fts5 :=
    { matchesWord := fun _ row => decide (row.id = citation)
      rank := fun _ _ => 0
      snippet := fun _ _ => "" }
  embedQuery := fun _ => queryEmbedding
  distance := fun _ row => if row.docId = citation then 0 else 1
  rerankScores := fun _ _ => none

theorem maybeRerank_enginesFinding {citation query : String}
    {queryEmbedding : Option Embedding} {fused : List QmdSearchResult} :
    adapter.maybeRerank (enginesFinding citation queryEmbedding) query fused =
      fused := by
  unfold maybeRerank
  split
  · rfl
  · unfold RerankStage.apply
    split_ifs
    · rfl
    · rfl

/-- A document admitted by the binary is a result. -/
theorem exists_result {citation : String} {queryEmbedding : Option Embedding}
    {hit : QmdSearchResult}
    (isHit : hit ∈ qmdHits services queryText scope result) :
    ∃ results, adapter.query services (enginesFinding citation queryEmbedding)
        queryText scope (some adapter.tenantId) result = .ok results ∧
      hit.file ∈ results.map (·.file) := by
  unfold query
  rw [if_neg (not_not.mpr rfl)]
  dsimp only
  cases searched : SearchClient.search services queryText scope result with
  | error failure =>
      unfold qmdHits at isHit
      rw [searched] at isHit
      cases isHit
  | ok hits =>
      unfold qmdHits at isHit
      rw [searched] at isHit
      have member : hit.file ∈ hits.map (·.file) := List.mem_map_of_mem isHit
      dsimp only
      split_ifs with none
      · exact ⟨_, rfl, by rwa [maybeRerank_enginesFinding]⟩
      · refine ⟨_, rfl, ?_⟩
        rw [maybeRerank_enginesFinding]
        exact mem_files_fuseReciprocalRank.mpr (.inl member)

theorem nativeHits_of_ne_nil {hit : QmdSearchResult}
    (isHit : hit ∈ qmdHits services queryText scope result) :
    adapter.nativeHits services engines queryText scope result =
      adapter.nativeSearch services engines queryText scope := by
  unfold nativeHits
  dsimp only
  rw [if_neg]
  rintro ⟨-, -, none⟩
  rw [none] at isHit
  cases isHit

/-- Some engine admits an indexed document from the index. -/
theorem exists_indexHit (built : adapter.Built) (limited : scope ≠ .all)
    {hit : QmdSearchResult} {collection : String}
    (isHit : hit ∈ qmdHits services queryText scope result)
    (inScope : collection ∈ resolveScopeCollections scope)
    (cited : citationCollection hit.file = some collection)
    (indexed : adapter.IsIndexed services queryText hit.file) :
    ∃ engines, ∃ other ∈
        adapter.nativeHits services engines queryText scope result ++
          adapter.denseSearch engines queryText scope,
      other.id = hit.file := by
  have own {id stored : String} (cites : CitesPlace id stored)
      (same : id = hit.file) :
      InScope (resolveScopeCollections scope) stored := by
    have isCollection := citationCollection_of_citesPlace cites
    rw [same, cited, Option.some_inj] at isCollection
    exact (inScope_iff limited).mpr (isCollection ▸ inScope)
  rcases indexed with ⟨words, index, opened, row, stored, isRow⟩ |
    ⟨arm, opened, positive, sized, row, stored, isRow⟩
  · refine ⟨enginesFinding row.id none, ?_⟩
    obtain ⟨found, isFound, same⟩ :=
      @NativeIndex.exists_mem_search services
        (enginesFinding row.id none).fts5 index queryText 49 _ row words stored
        (own (built.placed_native opened row stored) isRow) fun _ _ => rfl
    refine ⟨found, List.mem_append_left _ ?_, same.trans isRow⟩
    rw [nativeHits_of_ne_nil isHit, nativeSearch, opened]
    exact isFound
  · obtain ⟨dims, isDims⟩ := Option.isSome_iff_exists.mp sized
    let queryEmbedding : Embedding := List.replicate dims 0
    refine ⟨enginesFinding row.docId (some queryEmbedding), ?_⟩
    have isSized : arm.index.dims = some queryEmbedding.length := by
      rw [isDims, List.length_replicate]
    obtain ⟨k, isK⟩ := Nat.exists_eq_add_of_lt positive
    obtain ⟨found, isFound, same⟩ :=
      @DenseVecIndex.exists_mem_search
        (enginesFinding row.docId (some queryEmbedding)).distance arm.index
        queryEmbedding k _ row isSized stored
        (own (built.placed_dense opened row stored) isRow) fun _ => rfl
    refine ⟨found, List.mem_append_right _ ?_, same.trans isRow⟩
    rw [denseSearch, opened]
    have isSearchK : arm.searchK = k + 1 := by omega
    dsimp only [enginesFinding]
    rw [isSearchK]
    exact isFound

/-- Whatever the engines answer, a query honours its scope, exactly where the
printed hits that it admits are derived truly. -/
theorem honoursScope_iff_derivesTruly (built : adapter.Built)
    (limited : scope ≠ .all) :
    (∀ engines, adapter.HonoursScope services engines queryText scope tenantId
      result) ↔
      (tenantId = some adapter.tenantId →
        adapter.DerivesTruly services queryText scope result) := by
  refine ⟨?_, fun truly engines =>
    honoursScope_of_derivesTruly built limited truly⟩
  rintro honours rfl hit isPrinted derived
  have isHit : hit ∈ qmdHits services queryText scope result :=
    (mem_qmdHits_iff limited).mpr ⟨isPrinted, derived⟩
  obtain ⟨results, answer, member⟩ := @exists_result services adapter queryText
    scope result hit.file none hit isHit
  obtain ⟨found, isFound, same⟩ := List.mem_map.mp member
  obtain ⟨collection, inScope, cited⟩ :=
    (honours _).inScope results answer found isFound
  rw [same] at cited
  refine ⟨collection, inScope, cited, fun indexed => ?_⟩
  obtain ⟨engines, other, isOther, sameFile⟩ :=
    exists_indexHit built limited isHit inScope cited indexed
  have notForeign : ¬some adapter.tenantId ≠ some adapter.tenantId :=
    not_not.mpr rfl
  have left : (hit.file, hit.collection) ∈ adapter.admitted services engines
      queryText scope (some adapter.tenantId) result := by
    rw [admitted, if_neg notForeign]
    exact List.mem_append_left _ (List.mem_map_of_mem isHit)
  have right : (other.id, other.collection) ∈ adapter.admitted services engines
      queryText scope (some adapter.tenantId) result := by
    rw [admitted, if_neg notForeign]
    exact List.mem_append_right _ (List.mem_map_of_mem isOther)
  have isCollection : hit.collection = other.collection :=
    (honours engines).once _ left _ right sameFile.symm
  obtain ⟨⟨-, otherCited⟩, -⟩ := indexHits_truly built limited isOther
  rw [sameFile, cited, Option.some_inj] at otherCited
  rw [otherCited, ← isCollection]
  exact (collection_printedHits isPrinted).symm

def archivedOutput : String :=
  "[\x7b\"file\":\"qmd://kb-archive/kb-curated-plan.md\"\x7d]"

/-- The binary prints one archived note, whose name begins like a curated
collection. -/
def archivedResult : CommandResult where
  stdout := archivedOutput
  stderr := ""
  exitCode := 0
  failure := none

def archivedServices : TextServices where
  numberOf _ := 0
  isLetter := Char.isAlpha
  isNumber := Char.isDigit
  normalizeNfkc := id
  toLowerCase := String.toLower

/-- An adapter that could open no index. -/
def bareAdapter : QmdAdapter where
  tenantId := "team"
  native := none
  dense := none
  rerankStage := none

theorem archivedNote_served :
    ¬bareAdapter.HonoursScope archivedServices (enginesFinding "" none) "plan"
      .curated (some "team") archivedResult := by
  intro honours
  let note : QmdSearchResult :=
    { file := "qmd://kb-archive/kb-curated-plan.md"
      score := 0
      snippet := ""
      collection := "kb-curated" }
  have served : bareAdapter.query archivedServices (enginesFinding "" none)
      "plan" .curated (some "team") archivedResult = .ok [note] := by
    decide +kernel
  obtain ⟨collection, inScope, cited⟩ :=
    honours.inScope [note] served note (List.mem_singleton_self note)
  have archived : citationCollection note.file = some "kb-archive" := by
    decide +kernel
  rw [archived, Option.some_inj] at cited
  rw [← cited] at inScope
  revert inScope
  decide +kernel

def exportedPlan : SourceTree :=
  .write .empty
    { sourceSubdir := "curated"
      name := ⟨"team-plan.md", by decide +kernel⟩ }
    { content := "The plan."
      mtimeMs := 1 }

def planIndexer : DenseIndexer where
  maxDocChars := 100
  batchSize := 1
  positive := Nat.one_pos

/-- A service that gives every text the same vector. -/
def sameVectors : EmbedAnswers where
  healthy := true
  embedBatch _ texts := some (texts.map fun _ => [1])
  healthyAfter _ := true

/-- An adapter whose indexes have been built from one exported file. -/
def sweptAdapter : QmdAdapter where
  tenantId := "team"
  native := some (Transition.run IndexSystem.step
    (.start exportedPlan [("export", 15000)])
    (.ensureFresh 0 20000 :: List.replicate 15 (.advance 0))).index
  dense := some
    { index := Transition.run (DenseVecIndex.step plainEnvironment) .empty
        [.construct "embeddinggemma" "1",
          .sync planIndexer sameVectors exportedPlan]
      searchK := 50 }
  rerankStage := none

theorem honoursScope_iff_derivesTruly_swept :
    (sweptAdapter.native.toList.flatMap fun index =>
        index.docs.rows.map (·.id)) = ["qmd://kb-curated/team-plan.md"] ∧
      ((∀ engines, sweptAdapter.HonoursScope archivedServices engines "plan"
        .curated (some "team") archivedResult) ↔
        (some "team" = some sweptAdapter.tenantId →
          sweptAdapter.DerivesTruly archivedServices "plan" .curated
            archivedResult)) := by
  refine ⟨by decide +kernel,
    honoursScope_iff_derivesTruly ⟨?_, ?_⟩ (by decide)⟩
  · intro index opened
    obtain rfl := Option.some_inj.mp opened
    exact ⟨_, _, _, rfl⟩
  · intro arm opened
    obtain rfl := Option.some_inj.mp opened
    exact ⟨plainEnvironment, _, rfl⟩

end QmdAdapter

end Registrar
