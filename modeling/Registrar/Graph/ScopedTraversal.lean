import Registrar.Graph.GraphReads

/-!
# Scoped traversal is breadth-first search

The rows of the recursive query are the walks over readable links, so that the
best path to a memory is a shortest one.  What is not readable has no influence
on a traversal.
-/

namespace Registrar

open BreadthFirst

/-- The scope may see a memory, by the predicate that all readers share. -/
def VisibleIn (scope : GraphReadScope) (memory : GraphMemory) : Prop :=
  (∀ tenantId ∈ scope.tenantId, memory.tenantId = tenantId) ∧
    (∀ allowed ∈ scope.allowedTenantIds, memory.tenantId ∈ allowed) ∧
    match memory.audience with
    | none | some .null =>
        isAudienceTextVisibleToRole none scope.readerRole = true
    | some (.string audience) =>
        isAudienceTextVisibleToRole (some audience) scope.readerRole = true
    | some (.bool _) | some (.number _) | some (.array _)
    | some (.object _) => False

/-- A visible memory has this id. -/
def VisibleId (store : GraphStore) (scope : GraphReadScope) (id : String) :
    Prop :=
  ∃ memory ∈ store.memories.rows, memory.id = id ∧ VisibleIn scope memory

/-- A link leads from one visible memory to another. -/
def ReadableEdge (store : GraphStore) (scope : GraphReadScope)
    (source target : String) : Prop :=
  ∃ link ∈ store.links, link.sourceMemoryId = source ∧
    link.targetMemoryId = target ∧ VisibleId store scope source ∧
    VisibleId store scope target

variable {store other : GraphStore} {scope : GraphReadScope}

theorem mem_audiences_iff {audience : String} :
    audience ∈ (scopeParameters scope).audiences ↔
      isAudienceTextVisibleToRole (some audience) scope.readerRole = true := by
  constructor
  · intro member
    exact (List.mem_filter.mp member).2
  · intro visible
    refine List.mem_filter.mpr ⟨?_, visible⟩
    unfold isAudienceTextVisibleToRole at visible
    cases found : AUDIENCE_RANK.lookup audience with
    | none =>
        rw [Option.getD_some, found] at visible
        cases visible
    | some rank =>
        obtain ⟨before, after, split, -⟩ := List.lookup_eq_some_iff.mp found
        have known : (audience, rank) ∈ AUDIENCE_RANK := by simp [split]
        exact List.mem_map_of_mem known

/-- The condition of the query is the predicate of the readers. -/
theorem readableRow_iff {memory : GraphMemory} :
    readableRow (scopeParameters scope) memory = true ↔
      VisibleIn scope memory := by
  have tenants : (scope.tenantId.all (· = memory.tenantId)) = true ↔
      ∀ tenantId ∈ scope.tenantId, memory.tenantId = tenantId := by
    cases scope.tenantId <;> simp [eq_comm]
  have allowed : (scope.allowedTenantIds.all
      (·.contains memory.tenantId)) = true ↔
      ∀ allowed ∈ scope.allowedTenantIds, memory.tenantId ∈ allowed := by
    cases scope.allowedTenantIds <;> simp
  simp only [readableRow, VisibleIn, Bool.and_eq_true, and_assoc]
  refine and_congr tenants (and_congr allowed ?_)
  cases memory.audience with
  | none => exact Iff.rfl
  | some audience =>
      cases audience with
      | null => exact Iff.rfl
      | string text =>
          exact List.contains_iff_mem.trans mem_audiences_iff
      | bool _ => simp [audienceMatches]
      | number _ => simp [audienceMatches]
      | array _ => simp [audienceMatches]
      | object _ => simp [audienceMatches]

/-- Of the stored memories a scope reads those of its tenants with an audience
that its role may see. -/
theorem readableRow_graphMemory_iff {memory : CuratedMemory} :
    readableRow (scopeParameters scope) memory.graphMemory = true ↔
      (∀ tenantId ∈ scope.tenantId, memory.tenantId.value = tenantId) ∧
        (∀ allowed ∈ scope.allowedTenantIds,
          memory.tenantId.value ∈ allowed) ∧
        isAudienceVisibleToRole memory.metadata.audience scope.readerRole =
          true := by
  rw [readableRow_iff, ← isAudienceTextVisibleToRole_text]
  unfold VisibleIn CuratedMemory.graphMemory
  cases memory.metadata.audience with
  | none => exact Iff.rfl
  | some audience => exact Iff.rfl

theorem readableEndpoint_iff {id : String} :
    readableEndpoint store.memories (scopeParameters scope) id = true ↔
      VisibleId store scope id := by
  simp only [readableEndpoint, List.any_eq_true, Bool.and_eq_true,
    decide_eq_true_eq, readableRow_iff]
  exact Iff.rfl

theorem mem_followedLinks_iff {link : MemoryLink} :
    link ∈ followedLinks store (some scope) ↔
      link ∈ store.links ∧ VisibleId store scope link.sourceMemoryId ∧
        VisibleId store scope link.targetMemoryId := by
  simp only [followedLinks, List.mem_filter, readableLink, Bool.and_eq_true,
    readableEndpoint_iff]

/-- Some link leads from one memory to the other. -/
def LinkedBy (links : List MemoryLink) (source target : String) : Prop :=
  ∃ link ∈ links, link.sourceMemoryId = source ∧ link.targetMemoryId = target

theorem linkedBy_followedLinks {source target : String} :
    LinkedBy (followedLinks store (some scope)) source target ↔
      ReadableEdge store scope source target := by
  constructor
  · rintro ⟨link, member, rfl, rfl⟩
    obtain ⟨stored, visible⟩ := mem_followedLinks_iff.mp member
    exact ⟨link, stored, rfl, rfl, visible⟩
  · rintro ⟨link, stored, rfl, rfl, visible⟩
    exact ⟨link, mem_followedLinks_iff.mpr ⟨stored, visible⟩, rfl, rfl⟩

variable {links : List MemoryLink} {start : String} {maxDepth : Int}

theorem mem_linkNodes_iff {source : String} {depth : Nat} {node : GraphNode} :
    node ∈ linkNodes links source depth ↔
      ∃ link ∈ links, link.sourceMemoryId = source ∧
        linkNode depth link = node := by
  simp only [linkNodes, List.mem_map, List.mem_filter, decide_eq_true_eq,
    and_assoc]

theorem depth_of_mem_level {round : Nat} {node : GraphNode}
    (member : node ∈ level (expandNode links maxDepth) round
      (linkNodes links start 1)) :
    node.depth = round + 1 := by
  induction round generalizing node with
  | zero =>
      obtain ⟨link, -, -, rfl⟩ := mem_linkNodes_iff.mp member
      rfl
  | succ round induction =>
      rw [level_succ] at member
      obtain ⟨before, inRound, expanded⟩ := List.mem_flatMap.mp member
      unfold expandNode at expanded
      split_ifs at expanded with within
      · obtain ⟨link, -, -, rfl⟩ := mem_linkNodes_iff.mp expanded
        rw [linkNode, induction inRound]
      · cases expanded

/-- A round within the depth reaches what the walks of its length reach. -/
theorem mem_level_iff {round : Nat} (within : round = 0 ∨ round < maxDepth)
    {id : String} :
    (∃ node ∈ level (expandNode links maxDepth) round
        (linkNodes links start 1), node.memoryId = id) ↔
      Walk (LinkedBy links) start (round + 1) id := by
  induction round generalizing id with
  | zero =>
      rw [walk_succ_iff]
      constructor
      · rintro ⟨node, member, rfl⟩
        obtain ⟨link, stored, source, rfl⟩ := mem_linkNodes_iff.mp member
        exact ⟨start, .refl, link, stored, source, rfl⟩
      · rintro ⟨middle, walk, link, stored, source, rfl⟩
        cases walk
        exact ⟨linkNode 1 link,
          mem_linkNodes_iff.mpr ⟨link, stored, source, rfl⟩, rfl⟩
  | succ round induction =>
      have earlier : round = 0 ∨ (round : Int) < maxDepth := by omega
      rw [walk_succ_iff, level_succ]
      constructor
      · rintro ⟨node, member, rfl⟩
        obtain ⟨before, inRound, expanded⟩ := List.mem_flatMap.mp member
        unfold expandNode at expanded
        split_ifs at expanded with deeper
        · obtain ⟨link, stored, source, rfl⟩ := mem_linkNodes_iff.mp expanded
          exact ⟨before.memoryId,
            (induction earlier).mp ⟨before, inRound, rfl⟩,
            link, stored, source, rfl⟩
        · cases expanded
      · rintro ⟨middle, walk, link, stored, source, rfl⟩
        obtain ⟨before, inRound, rfl⟩ := (induction earlier).mpr walk
        refine ⟨linkNode (before.depth + 1) link, ?_, rfl⟩
        have deeper : (before.depth : Int) < maxDepth := by
          have := depth_of_mem_level inRound
          omega
        refine List.mem_flatMap.mpr ⟨before, inRound, ?_⟩
        rw [expandNode, if_pos deeper]
        exact mem_linkNodes_iff.mpr ⟨link, stored, source, rfl⟩

theorem level_eq_nil {round : Nat} (beyond : 0 < round)
    (deep : maxDepth ≤ round) :
    level (expandNode links maxDepth) round (linkNodes links start 1) = [] := by
  cases round with
  | zero => omega
  | succ round =>
      rw [level_succ]
      apply List.flatMap_eq_nil_iff.mpr
      intro node member
      have := depth_of_mem_level member
      rw [expandNode, if_neg (by omega)]

theorem exists_mem_graphRows_iff {id : String} {depth : Nat} :
    (∃ node ∈ graphRows links start maxDepth,
        node.memoryId = id ∧ node.depth = depth) ↔
      0 < depth ∧ depth ≤ max maxDepth 1 ∧
        Walk (LinkedBy links) start depth id := by
  constructor
  · rintro ⟨node, member, rfl, rfl⟩
    obtain ⟨round, -, inRound⟩ := mem_rounds.mp member
    have isDepth := depth_of_mem_level inRound
    have within : round = 0 ∨ (round : Int) < maxDepth := by
      by_contra beyond
      push Not at beyond
      rw [level_eq_nil (by omega) beyond.2] at inRound
      cases inRound
    rw [isDepth]
    have atMost : ((round + 1 : Nat) : Int) ≤ max maxDepth 1 := by omega
    exact ⟨by omega, atMost, (mem_level_iff within).mp ⟨node, inRound, rfl⟩⟩
  · rintro ⟨positive, atMost, walk⟩
    obtain ⟨round, rfl⟩ : ∃ round, depth = round + 1 :=
      ⟨depth - 1, by omega⟩
    have within : round = 0 ∨ (round : Int) < maxDepth := by omega
    obtain ⟨node, inRound, isId⟩ := (mem_level_iff within).mpr walk
    refine ⟨node, mem_rounds.mpr ⟨round, by omega, inRound⟩, isId, ?_⟩
    exact depth_of_mem_level inRound

instance : IsTrans GraphNode NodePrecedes where
  trans first second third := by
    rintro (shallower | ⟨same, heavier⟩) (deeper | ⟨alike, lighter⟩)
    · exact .inl (shallower.trans deeper)
    · exact .inl (alike ▸ shallower)
    · exact .inl (same ▸ deeper)
    · exact .inr ⟨same.trans alike, lighter.trans heavier⟩

instance : Std.Total NodePrecedes where
  total first second := by
    unfold NodePrecedes
    rcases lt_trichotomy first.depth second.depth with less | same | more
    · exact .inl (.inl less)
    · rcases le_total first.weight second.weight with light | heavy
      · exact .inr (.inr ⟨same.symm, light⟩)
      · exact .inl (.inr ⟨same, heavy⟩)
    · exact .inr (.inl more)

theorem NodePrecedes.refl (node : GraphNode) : NodePrecedes node node :=
  .inr ⟨rfl, le_rfl⟩

theorem NodePrecedes.depth_le {left right : GraphNode}
    (precedes : NodePrecedes left right) : left.depth ≤ right.depth := by
  rcases precedes with shallower | ⟨same, -⟩
  · exact shallower.le
  · exact same.le

theorem mem_of_mem_rankedPaths {rows : List GraphNode} {node : GraphNode}
    (member : node ∈ rankedPaths start rows) :
    node ∈ rows ∧ node.memoryId ≠ start := by
  have sorted := (firstOfEach_subset member).1
  have kept := (List.mem_insertionSort NodePrecedes).mp sorted
  simpa using List.mem_filter.mp kept

theorem exists_mem_rankedPaths {rows : List GraphNode} {node : GraphNode}
    (member : node ∈ rows) (different : node.memoryId ≠ start) :
    ∃ best ∈ rankedPaths start rows,
      best.memoryId = node.memoryId ∧ NodePrecedes best node :=
  exists_firstOfEach NodePrecedes.refl
    (List.pairwise_insertionSort NodePrecedes _)
    ((List.mem_insertionSort NodePrecedes).mpr
      (List.mem_filter.mpr ⟨member, decide_eq_true different⟩))
    List.not_mem_nil

/-- Ranking keeps exactly the rows of the shortest walks. -/
theorem exists_mem_rankedPaths_iff {id : String} {depth : Nat} :
    (∃ node ∈ rankedPaths start (graphRows links start maxDepth),
        node.memoryId = id ∧ node.depth = depth) ↔
      0 < depth ∧ depth ≤ max maxDepth 1 ∧
        Distance (LinkedBy links) start depth id := by
  constructor
  · rintro ⟨node, ranked, rfl, rfl⟩
    obtain ⟨member, different⟩ := mem_of_mem_rankedPaths ranked
    obtain ⟨positive, atMost, walk⟩ :=
      exists_mem_graphRows_iff.mp ⟨node, member, rfl, rfl⟩
    refine ⟨positive, atMost, walk, ?_⟩
    intro shorter shorterWalk
    by_contra longer
    obtain ⟨least, atMostShorter, distance⟩ := exists_distance shorterWalk
    have leastPositive := distance.pos_iff.mpr different
    have within : (least : Int) ≤ max maxDepth 1 := by omega
    obtain ⟨best, inRows, sameId, isLeast⟩ := exists_mem_graphRows_iff.mpr
      ⟨leastPositive, within, distance.1⟩
    obtain ⟨first, isFirst, firstId, precedes⟩ :=
      exists_mem_rankedPaths inRows (sameId ▸ different)
    have isNode : first = node :=
      List.inj_on_of_nodup_map (nodup_firstOfEach _ _) isFirst ranked
        (firstId.trans sameId)
    have := precedes.depth_le
    rw [isNode] at this
    omega
  · rintro ⟨positive, atMost, distance⟩
    have different := distance.pos_iff.mp positive
    obtain ⟨node, inRows, rfl, rfl⟩ :=
      exists_mem_graphRows_iff.mpr ⟨positive, atMost, distance.1⟩
    obtain ⟨best, isBest, sameId, precedes⟩ :=
      exists_mem_rankedPaths inRows different
    refine ⟨best, isBest, sameId, le_antisymm precedes.depth_le ?_⟩
    obtain ⟨member, -⟩ := mem_of_mem_rankedPaths isBest
    obtain ⟨-, -, walk⟩ :=
      exists_mem_graphRows_iff.mp ⟨best, member, sameId, rfl⟩
    exact distance.2 best.depth walk

/-- The link has an endpoint that the scope may not see. -/
def TouchesHidden (store : GraphStore) (scope : GraphReadScope)
    (link : MemoryLink) : Prop :=
  ∃ memory ∈ store.memories.rows, ¬VisibleIn scope memory ∧
    (memory.id = link.sourceMemoryId ∨ memory.id = link.targetMemoryId)

open Classical in
/-- The stores differ only in memories that the scope may not see and in links
that touch them. -/
structure AlikeIn (scope : GraphReadScope) (left right : GraphStore) : Prop where
  memories : left.memories.rows.filter (VisibleIn scope ·) =
    right.memories.rows.filter (VisibleIn scope ·)
  links : left.links.filter (¬TouchesHidden left scope ·) =
    right.links.filter (¬TouchesHidden right scope ·)

theorem AlikeIn.visibleId (alike : AlikeIn scope store other) {id : String} :
    VisibleId store scope id ↔ VisibleId other scope id := by
  classical
  have mem (table : GraphStore) : VisibleId table scope id ↔
      ∃ memory ∈ table.memories.rows.filter (VisibleIn scope ·),
        memory.id = id := by
    constructor
    · rintro ⟨memory, stored, isId, visible⟩
      exact ⟨memory, List.mem_filter.mpr ⟨stored, decide_eq_true visible⟩,
        isId⟩
    · rintro ⟨memory, member, isId⟩
      obtain ⟨stored, visible⟩ := List.mem_filter.mp member
      exact ⟨memory, stored, isId, of_decide_eq_true visible⟩
  rw [mem store, mem other, alike.memories]

theorem not_touchesHidden_of_visible {link : MemoryLink}
    (source : VisibleId store scope link.sourceMemoryId)
    (target : VisibleId store scope link.targetMemoryId) :
    ¬TouchesHidden store scope link := by
  rintro ⟨memory, stored, hidden, isSource | isTarget⟩
  · obtain ⟨seen, inTable, sameId, visible⟩ := source
    rw [Table.eq_of_key_eq inTable stored (sameId.trans isSource.symm)]
      at visible
    exact hidden visible
  · obtain ⟨seen, inTable, sameId, visible⟩ := target
    rw [Table.eq_of_key_eq inTable stored (sameId.trans isTarget.symm)]
      at visible
    exact hidden visible

theorem AlikeIn.followedLinks (alike : AlikeIn scope store other) :
    followedLinks store (some scope) = followedLinks other (some scope) := by
  classical
  have narrowed (table : GraphStore) :
      Registrar.followedLinks table (some scope) =
        (table.links.filter (¬TouchesHidden table scope ·)).filter
          (readableLink table.memories (scopeParameters scope)) := by
    rw [List.filter_filter]
    apply List.filter_congr
    intro link _
    by_cases readable :
        readableLink table.memories (scopeParameters scope) link = true
    · have visible := Bool.and_eq_true_iff.mp readable
      simp [readable, not_touchesHidden_of_visible
        (readableEndpoint_iff.mp visible.1) (readableEndpoint_iff.mp visible.2)]
    · simp [readable]
  have sameTest : readableLink store.memories (scopeParameters scope) =
      readableLink other.memories (scopeParameters scope) := by
    funext link
    have sameEnd (id : String) :
        readableEndpoint store.memories (scopeParameters scope) id =
          readableEndpoint other.memories (scopeParameters scope) id := by
      apply Bool.eq_iff_iff.mpr
      rw [readableEndpoint_iff, readableEndpoint_iff, alike.visibleId]
    rw [readableLink, readableLink, sameEnd, sameEnd]
  rw [narrowed store, narrowed other, alike.links, sameTest]

/-- A scoped traversal finds every other memory within the depth, or next to the
start if the depth is smaller, by breadth-first search over the readable links:
once and at its distance.  Nothing else in the store matters to it. -/
theorem traverse_breadthFirst (store : GraphStore) (start : String)
    (maxDepth : Int) (scope : GraphReadScope) :
    ((traverse store start maxDepth (some scope)).map
        GraphNode.memoryId).Nodup ∧
      (∀ id depth,
        (∃ node ∈ traverse store start maxDepth (some scope),
            node.memoryId = id ∧ node.depth = depth) ↔
          0 < depth ∧ depth ≤ max maxDepth 1 ∧
            Distance (ReadableEdge store scope) start depth id) ∧
      ∀ other, AlikeIn scope store other →
        traverse other start maxDepth (some scope) =
          traverse store start maxDepth (some scope) := by
  refine ⟨nodup_firstOfEach _ _, ?_, ?_⟩
  · intro id depth
    have sameWalks (length : Nat) :
        Walk (LinkedBy (followedLinks store (some scope))) start length id ↔
          Walk (ReadableEdge store scope) start length id :=
      walk_congr fun _ _ => linkedBy_followedLinks
    unfold traverse
    rw [exists_mem_rankedPaths_iff]
    simp only [Distance, sameWalks]
  · intro other alike
    unfold traverse
    rw [alike.followedLinks]

def runbookGraph : GraphStore where
  memories :=
    { rows :=
        [{ id := "runbook"
           tenantId := "team"
           audience := none },
          { id := "pager"
            tenantId := "team"
            audience := some (.string "tenant") }]
      coexist := by decide }
  links :=
    [{ id := "link"
       sourceMemoryId := "runbook"
       targetMemoryId := "pager"
       linkType := .relatesTo
       weight := 1
       createdBy := "curator"
       source := .curator
       importBatchId := none
       createdAt := "0" }]

def memberScope : GraphReadScope where
  tenantId := none
  allowedTenantIds := none
  readerRole := .member

/-- The first member of the query does not look at the depth. -/
theorem traverse_depthZero :
    ¬∀ (store : GraphStore) (start : String) (maxDepth : Int)
      (scope : GraphReadScope) (id : String) (depth : Nat),
      (∃ node ∈ traverse store start maxDepth (some scope),
          node.memoryId = id ∧ node.depth = depth) ↔
        0 < depth ∧ depth ≤ maxDepth ∧
          Distance (ReadableEdge store scope) start depth id := by
  intro exactly
  have found : ∃ node ∈ traverse runbookGraph "runbook" 0 (some memberScope),
      node.memoryId = "pager" ∧ node.depth = 1 := by
    decide +kernel
  have beyond :=
    ((exactly runbookGraph "runbook" 0 memberScope "pager" 1).mp found).2.1
  omega

end Registrar
