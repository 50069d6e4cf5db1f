import Mathlib.Data.List.Permutation
import Mathlib.Data.String.Basic
import Registrar.Curator.ContradictionPlanner
import Registrar.Curator.MergeGate
import Registrar.Library.JsonText
import Registrar.Library.Program

/-!
# The pairs of a contradiction plan

Which pairs are proposed depends on the rows of the snapshot and not on their
order: whether an advisory links two memories is settled by rows that match it
alone, and of the advisories for one pair the first is proposed.
-/

namespace Registrar

namespace Contradictions

variable {env : Environment}

/-- Two ids without order and letter case. -/
def unorderedPair (env : Environment) (left right : String) : Sym2 String :=
  s(env.toLowerCase left, env.toLowerCase right)

theorem unorderedPair_comm (left right : String) :
    unorderedPair env left right = unorderedPair env right left :=
  Sym2.eq_swap

theorem pairKey_comm (left right : String) :
    pairKey env left right = pairKey env right left := by
  have sorted : [env.toLowerCase left, env.toLowerCase right].insertionSort
      (· ≤ ·) = [env.toLowerCase right, env.toLowerCase left].insertionSort
        (· ≤ ·) := by
    refine List.Perm.eq_of_pairwise (fun _ _ _ _ => le_antisymm)
      (List.pairwise_insertionSort _ _) (List.pairwise_insertionSort _ _) ?_
    exact (List.perm_insertionSort _ _).trans
      ((List.Perm.swap _ _ []).trans (List.perm_insertionSort _ _).symm)
  unfold pairKey
  rw [sorted]

/-- The key of a pair is that of the unordered pair. -/
theorem pairKey_eq_iff {left right left' right' : String} :
    pairKey env left right = pairKey env left' right' ↔
      unorderedPair env left right = unorderedPair env left' right' := by
  constructor
  · intro same
    have printable (texts : List String) :
        (Json.array (texts.map .string)).WellFormed := by
      refine Json.itemsWellFormed_iff.mpr fun item member => ?_
      obtain ⟨text, -, rfl⟩ := List.mem_map.mp member
      trivial
    have arrays := Json.stringify_injective (printable _) (printable _) same
    have sorted := List.map_injective_iff.mpr
      (fun _ _ same => Json.string.inj same) (Json.array.inj arrays)
    have perm := (List.perm_insertionSort (· ≤ ·)
      [env.toLowerCase left, env.toLowerCase right]).symm.trans
        (sorted ▸ List.perm_insertionSort (· ≤ ·)
          [env.toLowerCase left', env.toLowerCase right'])
    rcases List.perm_pair.mp perm with same | swapped
    · obtain ⟨first, second⟩ := List.cons.inj same
      exact Sym2.eq_iff.mpr (.inl ⟨first, (List.cons.inj second).1⟩)
    · obtain ⟨first, second⟩ := List.cons.inj swapped
      exact Sym2.eq_iff.mpr (.inr ⟨first, (List.cons.inj second).1⟩)
  · intro same
    rcases Sym2.eq_iff.mp same with ⟨first, second⟩ | ⟨first, second⟩
    · unfold pairKey
      rw [first, second]
    · rw [pairKey_comm left' right']
      unfold pairKey
      rw [first, second]

variable {input input' : ContradictionPlannerInput}
variable {item item' : ContradictionAdvisory}

theorem findLineage_eq_ok_iff {row : CompilationLineage} :
    findLineage input item = .ok row ↔
      (input.lineages.filter fun row =>
        row.workspaceId = item.workspaceId &&
          row.compilationId = item.compilationId) = [row] ∧
        row.pageSha256 = item.pageSha256 ∧
        item.sourcePair.1 ∈ row.sourceIds ∧
        item.sourcePair.2 ∈ row.sourceIds := by
  unfold findLineage
  split
  · next none => simp [none]
  · next only found =>
    rw [found]
    constructor
    · intro accepted
      split_ifs at accepted with other absent
      obtain ⟨first, second⟩ := not_or.mp absent
      cases accepted
      exact ⟨rfl, not_not.mp other, not_not.mp first, not_not.mp second⟩
    · rintro ⟨same, page, first, second⟩
      cases same
      rw [if_neg (not_not.mpr page), if_neg]
      simp [first, second]
  · next some => simp [some]

theorem selectEndpoint_eq_ok_iff {workspaceId sourceId : String}
    {mapped : ContradictionEndpoint} :
    selectEndpoint env input workspaceId sourceId = .ok mapped ↔
      (input.endpoints.filter fun row =>
        row.workspaceId = workspaceId && row.sourceId = sourceId) = [mapped] ∧
        endpointConsistent env mapped ∧
        mapped.memory.tenantId.value = input.tenantId ∧
        mapped.memory.lifecycle = .active := by
  unfold selectEndpoint
  split
  · next none => simp [none]
  · next only found =>
    rw [found]
    constructor
    · intro accepted
      split_ifs at accepted with inconsistent foreign inactive
      cases accepted
      exact ⟨rfl, by simpa using inconsistent, not_not.mp foreign,
        not_not.mp inactive⟩
    · rintro ⟨same, consistent, tenant, active⟩
      cases same
      rw [if_neg (by simp [consistent]), if_neg (not_not.mpr tenant),
        if_neg (not_not.mpr active)]
  · next some => simp [some]

/-- The linked memories differ. -/
structure Differ (env : Environment) (left right : ContradictionEndpoint) :
    Prop where
  ids : env.toLowerCase left.memory.id ≠ env.toLowerCase right.memory.id
  sources : left.sourceId ≠ right.sourceId
  contents :
    trim left.memory.content.value ≠ trim right.memory.content.value

theorem Differ.symm {left right : ContradictionEndpoint}
    (differ : Differ env left right) : Differ env right left where
  ids := differ.ids.symm
  sources := differ.sources.symm
  contents := differ.contents.symm

theorem link_eq_ok_iff {found : Link} :
    link env input item = .ok found ↔
      findLineage input item = .ok found.lineage ∧
        selectEndpoint env input item.workspaceId item.sourcePair.1 =
          .ok found.left ∧
        selectEndpoint env input item.workspaceId item.sourcePair.2 =
          .ok found.right ∧
        Differ env found.left found.right := by
  unfold link
  simp only [Program.except_bind_eq_ok_iff]
  constructor
  · rintro ⟨lineage, isLineage, left, isLeft, right, isRight, accepted⟩
    by_cases self : env.toLowerCase left.memory.id =
        env.toLowerCase right.memory.id ∨ left.sourceId = right.sourceId
    · rw [if_pos self] at accepted
      cases accepted
    · rw [if_neg self] at accepted
      by_cases restated : trim left.memory.content.value =
          trim right.memory.content.value
      · rw [if_pos restated] at accepted
        cases accepted
      · rw [if_neg restated] at accepted
        obtain ⟨ids, sources⟩ := not_or.mp self
        cases accepted
        exact ⟨isLineage, isLeft, isRight, ids, sources, restated⟩
  · rintro ⟨isLineage, isLeft, isRight, differ⟩
    refine ⟨_, isLineage, _, isLeft, _, isRight, ?_⟩
    rw [if_neg (not_or.mpr ⟨differ.ids, differ.sources⟩),
      if_neg differ.contents]
    rfl

/-- The advisory with the ids of its pair in either order. -/
def SameAdvisory (item item' : ContradictionAdvisory) : Prop :=
  item' = item ∨
    item' =
      { item with sourcePair := (item.sourcePair.2, item.sourcePair.1) }

theorem SameAdvisory.symm (same : SameAdvisory item item') :
    SameAdvisory item' item := by
  rcases same with rfl | rfl
  · exact .inl rfl
  · exact .inr rfl

/-- The lineages and endpoints of one tenant in any order. -/
structure SameRows (input input' : ContradictionPlannerInput) : Prop where
  tenantId : input.tenantId = input'.tenantId
  lineages : input.lineages.Perm input'.lineages
  endpoints : input.endpoints.Perm input'.endpoints

theorem SameRows.symm (same : SameRows input input') :
    SameRows input' input where
  tenantId := same.tenantId.symm
  lineages := same.lineages.symm
  endpoints := same.endpoints.symm

/-- One input with its lists and the source pairs of its advisories in any
order. -/
structure Reordered (input input' : ContradictionPlannerInput) : Prop where
  rows : SameRows input input'
  existingPairs : input.existingPairs.Perm input'.existingPairs
  advisories : ∃ moved, input.advisories.Perm moved ∧
    List.Forall₂ SameAdvisory moved input'.advisories

theorem filter_eq_singleton_of_perm {Row : Type} {rows rows' : List Row}
    {matching : Row → Bool} {only : Row} (perm : rows.Perm rows')
    (found : rows.filter matching = [only]) :
    rows'.filter matching = [only] := by
  have matches' := perm.filter matching
  rw [found] at matches'
  exact List.singleton_perm.mp matches' |>.symm

theorem SameRows.selectEndpoint (same : SameRows input input')
    {workspaceId sourceId : String} {mapped : ContradictionEndpoint}
    (selected : selectEndpoint env input workspaceId sourceId = .ok mapped) :
    selectEndpoint env input' workspaceId sourceId = .ok mapped := by
  obtain ⟨only, consistent, tenant, active⟩ :=
    selectEndpoint_eq_ok_iff.mp selected
  exact selectEndpoint_eq_ok_iff.mpr
    ⟨filter_eq_singleton_of_perm same.endpoints only, consistent,
      tenant.trans same.tenantId, active⟩

theorem SameRows.findLineage (same : SameRows input input')
    {row : CompilationLineage}
    (found : findLineage input item = .ok row) :
    findLineage input' item = .ok row := by
  obtain ⟨only, page, first, second⟩ := findLineage_eq_ok_iff.mp found
  exact findLineage_eq_ok_iff.mpr
    ⟨filter_eq_singleton_of_perm same.lineages only, page, first, second⟩

/-- The pair of memories that an advisory links. -/
def Links (env : Environment) (input : ContradictionPlannerInput)
    (item : ContradictionAdvisory) (pair : Sym2 String) : Prop :=
  ∃ found, link env input item = .ok found ∧
    unorderedPair env found.left.memory.id found.right.memory.id = pair

theorem SameRows.links (same : SameRows input input')
    (alike : SameAdvisory item item') {pair : Sym2 String}
    (links : Links env input item pair) : Links env input' item' pair := by
  obtain ⟨found, linked, rfl⟩ := links
  obtain ⟨isLineage, isLeft, isRight, differ⟩ := link_eq_ok_iff.mp linked
  rcases alike with rfl | rfl
  · exact ⟨found, link_eq_ok_iff.mpr ⟨same.findLineage isLineage,
      same.selectEndpoint isLeft, same.selectEndpoint isRight, differ⟩, rfl⟩
  · obtain ⟨only, page, first, second⟩ :=
      findLineage_eq_ok_iff.mp (same.findLineage isLineage)
    refine ⟨{ lineage := found.lineage
              left := found.right
              right := found.left }, link_eq_ok_iff.mpr ⟨?_, ?_, ?_, ?_⟩, ?_⟩
    · exact findLineage_eq_ok_iff.mpr ⟨only, page, second, first⟩
    · exact same.selectEndpoint isRight
    · exact same.selectEndpoint isLeft
    · exact differ.symm
    · exact unorderedPair_comm _ _

theorem Reordered.inputShape (same : Reordered input input')
    (shaped : inputShape input) : inputShape input' := by
  obtain ⟨moved, perm, alike⟩ := same.advisories
  unfold Contradictions.inputShape at shaped ⊢
  simp only [Bool.and_eq_true, List.all_eq_true] at shaped ⊢
  obtain ⟨⟨⟨⟨tenant, lineages⟩, endpoints⟩, advisories⟩, pairs⟩ := shaped
  refine ⟨⟨⟨⟨same.rows.tenantId ▸ tenant, fun row member => ?_⟩,
    fun row member => ?_⟩, fun item' member => ?_⟩, fun pair member => ?_⟩
  · exact lineages row (same.rows.lineages.mem_iff.mpr member)
  · exact endpoints row (same.rows.endpoints.mem_iff.mpr member)
  · obtain ⟨item, isMoved, alike⟩ := Program.exists_of_forall₂_right alike member
    have shapedItem := advisories item (perm.mem_iff.mpr isMoved)
    rcases alike with rfl | rfl
    · exact shapedItem
    · unfold advisory at shapedItem ⊢
      simp only [Bool.and_eq_true] at shapedItem ⊢
      obtain ⟨⟨⟨⟨workspace, compilation⟩, page⟩, first⟩, second⟩ := shapedItem
      exact ⟨⟨⟨⟨workspace, compilation⟩, page⟩, second⟩, first⟩
  · exact pairs pair (same.existingPairs.mem_iff.mpr member)

theorem planAdvisory_eq_ok_iff {seen : List String}
    {proposed : ContradictionProposal} :
    planAdvisory env input seen item = .ok proposed ↔
      ∃ found, link env input item = .ok found ∧
        pairKey env found.left.memory.id found.right.memory.id ∉ seen ∧
        proposed = proposal input item found := by
  unfold planAdvisory
  rw [Program.except_bind_eq_ok_iff]
  refine exists_congr fun found => and_congr_right fun _ => ?_
  by_cases known : pairKey env found.left.memory.id found.right.memory.id ∈ seen
  · rw [if_pos known]
    exact ⟨nofun, fun fresh => absurd known fresh.1⟩
  · rw [if_neg known]
    constructor
    · intro accepted
      cases accepted
      exact ⟨known, rfl⟩
    · rintro ⟨-, rfl⟩
      rfl

/-- The advisory links memories under this key. -/
def LinksUnder (env : Environment) (input : ContradictionPlannerInput)
    (item : ContradictionAdvisory) (key : String) : Prop :=
  ∃ found, link env input item = .ok found ∧
    pairKey env found.left.memory.id found.right.memory.id = key

/-- The keys of the proposals are those that some advisory links and that have
not been seen. -/
theorem mem_keys_planAdvisories_iff {items : List ContradictionAdvisory}
    {index : Nat} {seen : List String} {key : String} :
    key ∈ (planAdvisories env input index seen items).proposals.map
        (proposalKey env) ↔
      key ∉ seen ∧ ∃ item ∈ items, LinksUnder env input item key := by
  induction items generalizing index seen with
  | nil => simp [planAdvisories]
  | cons item rest induction =>
      rw [planAdvisories]
      cases outcome : planAdvisory env input seen item with
      | error code =>
          simp only [induction, List.mem_cons, exists_eq_or_imp]
          refine and_congr_right fun unseen => ⟨.inr, ?_⟩
          rintro (⟨found, linked, rfl⟩ | later)
          · have accepted := planAdvisory_eq_ok_iff.mpr
              ⟨found, linked, unseen, rfl⟩
            rw [outcome] at accepted
            cases accepted
          · exact later
      | ok proposed =>
          obtain ⟨found, linked, fresh, rfl⟩ := planAdvisory_eq_ok_iff.mp outcome
          simp only [List.map_cons, List.mem_cons, induction, exists_eq_or_imp,
            not_or]
          constructor
          · rintro (rfl | ⟨⟨-, unseen⟩, later⟩)
            · exact ⟨fresh, .inl ⟨found, linked, rfl⟩⟩
            · exact ⟨unseen, .inr later⟩
          · rintro ⟨unseen, ⟨other, linked', rfl⟩ | later⟩
            · rw [linked] at linked'
              cases linked'
              exact .inl rfl
            · by_cases same : key = proposalKey env (proposal input item found)
              · exact .inl same
              · exact .inr ⟨⟨same, unseen⟩, later⟩

theorem nodup_keys_planAdvisories {items : List ContradictionAdvisory}
    {index : Nat} {seen : List String} :
    ((planAdvisories env input index seen items).proposals.map
      (proposalKey env)).Nodup := by
  induction items generalizing index seen with
  | nil => simp [planAdvisories]
  | cons item rest induction =>
      rw [planAdvisories]
      cases planAdvisory env input seen item with
      | error code => exact induction
      | ok proposed =>
          refine List.nodup_cons.mpr ⟨fun again => ?_, induction⟩
          exact (mem_keys_planAdvisories_iff.mp again).1 List.mem_cons_self

/-- The refusals among the outcomes, with the indexes of their advisories. -/
def refusalsOf : Nat →
    List (Except ContradictionRefusalCode ContradictionProposal) →
      List ContradictionRefusal
  | _, [] => []
  | index, .ok _ :: rest => refusalsOf (index + 1) rest
  | index, .error code :: rest =>
      { advisoryIndex := some index
        code := code } :: refusalsOf (index + 1) rest

/-- The outcome is a refusal, or the proposal of what the advisory links. -/
def Decides (env : Environment) (input : ContradictionPlannerInput)
    (item : ContradictionAdvisory)
    (outcome : Except ContradictionRefusalCode ContradictionProposal) : Prop :=
  ∀ proposed, outcome = .ok proposed →
    ∃ found, link env input item = .ok found ∧
      proposed = proposal input item found

/-- The plan has one outcome for each advisory, in their order. -/
def HasOutcomes (env : Environment) (input : ContradictionPlannerInput)
    (index : Nat) (items : List ContradictionAdvisory)
    (plan : ContradictionPlan) : Prop :=
  ∃ outcomes, List.Forall₂ (Decides env input) items outcomes ∧
    plan.proposals = outcomes.filterMap Except.toOption ∧
      plan.refusals = refusalsOf index outcomes

theorem planAdvisories_outcomes {items : List ContradictionAdvisory}
    {index : Nat} {seen : List String} :
    HasOutcomes env input index items
      (planAdvisories env input index seen items) := by
  induction items generalizing index seen with
  | nil => exact ⟨[], .nil, rfl, rfl⟩
  | cons item rest induction =>
      have decides : Decides env input item
          (planAdvisory env input seen item) := by
        intro proposed accepted
        obtain ⟨found, linked, -, same⟩ := planAdvisory_eq_ok_iff.mp accepted
        exact ⟨found, linked, same⟩
      rw [planAdvisories]
      cases outcome : planAdvisory env input seen item with
      | error code =>
          obtain ⟨outcomes, aligned, proposals, refusals⟩ :=
            @induction (index + 1) seen
          refine ⟨.error code :: outcomes, .cons (outcome ▸ decides) aligned, ?_,
            ?_⟩
          · exact proposals
          · rw [refusalsOf, ← refusals]
      | ok proposed =>
          obtain ⟨outcomes, aligned, proposals, refusals⟩ :=
            @induction (index + 1) (proposalKey env proposed :: seen)
          refine ⟨.ok proposed :: outcomes, .cons (outcome ▸ decides) aligned, ?_,
            ?_⟩
          · rw [List.filterMap_cons, ← proposals]
            rfl
          · exact refusals

def proposalPair (env : Environment) (proposed : ContradictionProposal) :
    Sym2 String :=
  unorderedPair env proposed.sourceMemoryId proposed.targetMemoryId

/-- What a plan for a well-shaped input is to keep. -/
structure OrderlyPlan (env : Environment) (input : ContradictionPlannerInput)
    (plan : ContradictionPlan) : Prop where
  outcomes : HasOutcomes env input 0 input.advisories plan
  distinct : (plan.proposals.map (proposalPair env)).Nodup
  fresh : ∀ proposed ∈ plan.proposals, ∀ pair ∈ input.existingPairs,
    proposalPair env proposed ≠
      unorderedPair env pair.sourceMemoryId pair.targetMemoryId
  noSelf : ∀ proposed ∈ plan.proposals, ¬ (proposalPair env proposed).IsDiag
  ownTenant : ∀ proposed ∈ plan.proposals,
    ∃ left ∈ input.endpoints, ∃ right ∈ input.endpoints,
      proposed.sourceMemoryId = left.memory.id ∧
        proposed.targetMemoryId = right.memory.id ∧
        left.memory.tenantId.value = input.tenantId ∧
        right.memory.tenantId.value = input.tenantId
  orderFree : ∀ input', Reordered input input' → ∀ pair,
    pair ∈ plan.proposals.map (proposalPair env) ↔
      pair ∈ (planContradictions env input').proposals.map (proposalPair env)

theorem planContradictions_of_shape (shaped : inputShape input) :
    planContradictions env input =
      planAdvisories env input 0 (existingKeys env input) input.advisories :=
  if_pos shaped

/-- The pairs of a plan are those that some advisory links and that do not
exist yet. -/
theorem mem_pairs_iff (shaped : inputShape input) {pair : Sym2 String} :
    pair ∈ (planContradictions env input).proposals.map (proposalPair env) ↔
      (∀ existing ∈ input.existingPairs,
        pair ≠ unorderedPair env existing.sourceMemoryId
          existing.targetMemoryId) ∧
        ∃ item ∈ input.advisories, Links env input item pair := by
  rw [planContradictions_of_shape shaped]
  have known (left right : String) :
      pairKey env left right ∈ existingKeys env input ↔
        ∃ existing ∈ input.existingPairs,
          unorderedPair env left right = unorderedPair env
            existing.sourceMemoryId existing.targetMemoryId := by
    unfold existingKeys
    simp only [List.mem_map, pairKey_eq_iff, eq_comm]
  constructor
  · intro member
    obtain ⟨proposed, isProposed, rfl⟩ := List.mem_map.mp member
    obtain ⟨unseen, item, isItem, found, linked, sameKey⟩ :=
      mem_keys_planAdvisories_iff.mp (List.mem_map_of_mem isProposed)
    refine ⟨fun existing isExisting same => ?_,
      item, isItem, found, linked, pairKey_eq_iff.mp sameKey⟩
    exact unseen ((known _ _).mpr ⟨existing, isExisting, same⟩)
  · rintro ⟨fresh, item, isItem, found, linked, rfl⟩
    have unseen : pairKey env found.left.memory.id found.right.memory.id ∉
        existingKeys env input := fun seen => by
      obtain ⟨existing, isExisting, same⟩ := (known _ _).mp seen
      exact fresh existing isExisting same
    have isKey := (@mem_keys_planAdvisories_iff env input input.advisories 0
      (existingKeys env input) _).mpr
        ⟨unseen, item, isItem, found, linked, rfl⟩
    obtain ⟨proposed, isProposed, sameKey⟩ := List.mem_map.mp isKey
    exact List.mem_map.mpr ⟨proposed, isProposed, pairKey_eq_iff.mp sameKey⟩

theorem exists_link_of_proposal (shaped : inputShape input)
    {proposed : ContradictionProposal}
    (member : proposed ∈ (planContradictions env input).proposals) :
    ∃ item ∈ input.advisories, ∃ found, link env input item = .ok found ∧
      proposed = proposal input item found := by
  obtain ⟨outcomes, aligned, proposals, -⟩ :=
    @planContradictions_of_shape env input shaped ▸
      @planAdvisories_outcomes env input input.advisories 0
        (existingKeys env input)
  rw [proposals] at member
  obtain ⟨outcome, isOutcome, accepted⟩ := List.mem_filterMap.mp member
  obtain ⟨item, isItem, decides⟩ :=
    Program.exists_of_forall₂_right aligned isOutcome
  cases outcome with
  | error code => cases accepted
  | ok other =>
      cases accepted
      exact ⟨item, isItem, decides _ rfl⟩

theorem Reordered.pairs (same : Reordered input input')
    (shaped : Contradictions.inputShape input) (pair : Sym2 String) :
    pair ∈ (planContradictions env input).proposals.map (proposalPair env) ↔
      pair ∈ (planContradictions env input').proposals.map
        (proposalPair env) := by
  obtain ⟨moved, perm, alike⟩ := same.advisories
  rw [mem_pairs_iff shaped, mem_pairs_iff (same.inputShape shaped)]
  refine and_congr ?_ ⟨?_, ?_⟩
  · simp only [same.existingPairs.mem_iff]
  · rintro ⟨item, isItem, links⟩
    obtain ⟨item', isItem', sameItem⟩ :=
      Program.exists_of_forall₂_right alike.flip (perm.mem_iff.mp isItem)
    exact ⟨item', isItem', same.rows.links sameItem links⟩
  · rintro ⟨item', isItem', links⟩
    obtain ⟨item, isItem, sameItem⟩ := Program.exists_of_forall₂_right alike isItem'
    exact ⟨item, perm.mem_iff.mpr isItem,
      same.rows.symm.links sameItem.symm links⟩

/-- For every well-shaped input the plan is complete, links distinct memories of
the tenant that are not linked yet, and does not depend on any order. -/
theorem planContradictions_orderly (shaped : inputShape input) :
    OrderlyPlan env input (planContradictions env input) where
  outcomes := by
    rw [planContradictions_of_shape shaped]
    exact planAdvisories_outcomes
  distinct := by
    have keys := @nodup_keys_planAdvisories env input input.advisories 0
      (existingKeys env input)
    rw [planContradictions_of_shape shaped]
    refine List.pairwise_map.mpr ((List.pairwise_map.mp keys).imp ?_)
    exact fun different same => different (pairKey_eq_iff.mpr same)
  fresh := fun proposed member =>
    ((mem_pairs_iff shaped).mp (List.mem_map_of_mem member)).1
  noSelf := by
    intro proposed member diagonal
    obtain ⟨item, -, found, linked, rfl⟩ := exists_link_of_proposal shaped member
    obtain ⟨-, -, -, differ⟩ := link_eq_ok_iff.mp linked
    exact differ.ids (Sym2.mk_isDiag_iff.mp diagonal)
  ownTenant := by
    intro proposed member
    obtain ⟨item, -, found, linked, rfl⟩ := exists_link_of_proposal shaped member
    obtain ⟨-, left, right, -⟩ := link_eq_ok_iff.mp linked
    obtain ⟨isLeft, -, leftTenant, -⟩ := selectEndpoint_eq_ok_iff.mp left
    obtain ⟨isRight, -, rightTenant, -⟩ := selectEndpoint_eq_ok_iff.mp right
    have stored {matching : ContradictionEndpoint → Bool}
        {mapped : ContradictionEndpoint}
        (only : input.endpoints.filter matching = [mapped]) :
        mapped ∈ input.endpoints :=
      List.mem_of_mem_filter (only ▸ List.mem_singleton_self mapped)
    exact ⟨found.left, stored isLeft, found.right, stored isRight, rfl, rfl,
      leftTenant, rightTenant⟩
  orderFree := fun _ same pair => same.pairs shaped pair

/-- The environment whose ids are names with dashes between their fields, in
lower case. -/
def officeEnvironment : Environment :=
  { plainEnvironment with
    toLowerCase := id
    uuidV5 := fun name =>
      String.ofList (name.toList.map fun char =>
        if char = Char.ofNat 0 then '-' else char) }

def officeHash : String :=
  String.ofList (List.replicate 64 'a')

def officeLineage : CompilationLineage where
  workspaceId := "office"
  compilationId := "spring"
  pagePath := "pages/desks.md"
  pageSha256 := officeHash
  sourceIds := ["first", "second", "third"]
  evidenceRef := "evidence"

def officeEmission (sourceId : String) : EndpointEmission where
  relativePath := sourceId
  bodySha256 := officeHash
  candidateId :=
    deriveCandidateId officeEnvironment "office" sourceId officeHash

def officeMemory (sourceId : String) (content : NonEmptyString) :
    CuratedMemory :=
  sampleMemory officeEnvironment (officeEmission sourceId).candidateId content
    ⟨"Desks", by decide +kernel, by simp⟩

def officeEndpoint (sourceId : String) (content : NonEmptyString) :
    ContradictionEndpoint where
  workspaceId := "office"
  sourceId := sourceId
  emission := officeEmission sourceId
  memory := officeMemory sourceId content
  promotion :=
    { id := "promotion"
      action := .promoted
      memoryId := (officeMemory sourceId content).id
      tenantId := (officeMemory sourceId content).tenantId
      actor := curatorActor
      reason := none
      details := [("candidateId", .string (officeEmission sourceId).candidateId)]
      timestamp := "0" }

def officeAdvisory (sourcePair : String × String) : ContradictionAdvisory where
  workspaceId := "office"
  compilationId := "spring"
  pageSha256 := officeHash
  sourcePair := sourcePair

/-- Three pages of one compilation, and the advisories that two of them
contradict the first. -/
def officeInput : ContradictionPlannerInput where
  tenantId := "team"
  lineages := [officeLineage]
  endpoints :=
    [officeEndpoint "first"
        ⟨"The desks are shared.", by decide +kernel, by simp⟩,
      officeEndpoint "second" ⟨"Desks are owned.", by decide +kernel, by simp⟩,
      officeEndpoint "third" ⟨"Desks are rented.", by decide +kernel, by simp⟩]
  advisories :=
    [officeAdvisory ("third", "first"), officeAdvisory ("first", "second")]
  existingPairs := []

theorem officeInput_orderly :
    (planContradictions officeEnvironment officeInput).refusals = [] ∧
      (planContradictions officeEnvironment officeInput).proposals.length = 2 ∧
      OrderlyPlan officeEnvironment officeInput
        (planContradictions officeEnvironment officeInput) := by
  have planned :
      (planContradictions officeEnvironment officeInput).refusals = [] ∧
        (planContradictions officeEnvironment officeInput).proposals.length =
          2 := by
    decide +kernel
  exact ⟨planned.1, planned.2, planContradictions_orderly (by decide +kernel)⟩

end Contradictions

end Registrar
