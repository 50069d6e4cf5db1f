import Registrar.Runs.SupersessionGraph
import Registrar.Runs.Mergeable

/-!
# Links between tenants

A promotion links the new memory to the ones that it retires and to the ones
that its text names.  The text search reads the memories of every tenant.
-/

namespace Registrar

open Program TwoPhase Transition

variable (env : Environment)

namespace PromotionInput

variable (input : PromotionInput) (now : String)

/-- The row of a memory after its retirement. -/
def retirement (sup : SupersessionMatch) (old : CuratedMemory) :
    CuratedMemory :=
  match linkReason env sup with
  | .ok reason => old.retired (input.successorLink env reason now) now
  | .error _ => old

def retireIn (table : MemoryTable) (sup : SupersessionMatch) : MemoryTable :=
  match table.find? sup.supersededMemoryId with
  | none => table
  | some old => table.replace (input.retirement env now sup old)

/-- The table that the text searches of the promotion read. -/
def searchedTable (memory : CuratedMemory) (table : MemoryTable) :
    Option MemoryTable :=
  ((distinctSupersessions input.supersessions).foldl
    (input.retireIn env now) table).insert? memory

/-- The memory that a wiki link finds. -/
def wikiTarget (table : MemoryTable) (wikiLink : WikiLink) :
    Option CuratedMemory :=
  match MemoryRepository.searchByText env table wikiLink.slug with
  | .error _ => none
  | .ok targets =>
      targets.find? fun memory =>
        env.toLowerCase memory.title.value = env.toLowerCase wikiLink.slug &&
          memory.id ≠ input.memoryId env

/-- Every memory that a wiki link of the candidate finds belongs to the tenant
of the candidate. -/
def FindsOwnMemories (store : Store) : Prop :=
  ∀ memory ∈ (input.memory env now input.minimumSensitivity).toOption,
    ∀ table ∈ input.searchedTable env now memory store.curatedMemories,
      ∀ wikiLink ∈ env.extractWikiLinks input.candidate.content,
        ∀ target ∈ input.wikiTarget env table wikiLink,
          ∀ stored ∈ table.find? target.id, stored.tenantId = memory.tenantId

instance (store : Store) : Decidable (input.FindsOwnMemories env now store) :=
  inferInstanceAs (Decidable (∀ memory ∈ _, ∀ table ∈ _, ∀ wikiLink ∈ _,
    ∀ target ∈ _, ∀ stored ∈ _, _))

end PromotionInput

/-- A promotion that draws links finds memories of its own tenant. -/
def PlannedSupersession.FindsOwnMemories :
    PlannedSupersession → Store → Prop
  | .promote input dryRun withLinks now, store =>
      dryRun = false → withLinks = true → input.FindsOwnMemories env now store
  | .supersede _ _ _ _, _ => True
  | .updateLifecycle _ _ _, _ => True
  | .transition _ _ _ _, _ => True

instance (plan : PlannedSupersession) (store : Store) :
    Decidable (plan.FindsOwnMemories env store) := by
  cases plan <;> unfold PlannedSupersession.FindsOwnMemories <;> infer_instance

/-- The ends of the link are stored memories of one tenant. -/
def JoinsOneTenant (table : MemoryTable) (link : MemoryLink) : Prop :=
  ∃ source ∈ table.rows, ∃ target ∈ table.rows,
    source.id = link.sourceMemoryId ∧ target.id = link.targetMemoryId ∧
      source.tenantId = target.tenantId

instance (table : MemoryTable) (link : MemoryLink) :
    Decidable (JoinsOneTenant table link) :=
  inferInstanceAs (Decidable (∃ source ∈ _, ∃ target ∈ _, _ ∧ _ ∧ _))

def LinksJoinOneTenant (store : Store) : Prop :=
  ∀ link ∈ store.memoryLinks.rows, JoinsOneTenant store.curatedMemories link

instance (store : Store) : Decidable (LinksJoinOneTenant store) :=
  inferInstanceAs (Decidable (∀ link ∈ _, _))

variable {env}

/-- A table in which no memory changed its tenant. -/
def TenantsStay (fresh : CuratedMemory → Prop) (before after : MemoryTable) :
    Prop :=
  before.Evolves (fun old new => new.tenantId = old.tenantId) fresh after

theorem JoinsOneTenant.stays {fresh : CuratedMemory → Prop}
    {before after : MemoryTable} {link : MemoryLink}
    (joined : JoinsOneTenant before link)
    (stays : TenantsStay fresh before after) :
    JoinsOneTenant after link := by
  obtain ⟨source, isSource, target, isTarget, atSource, atTarget, same⟩ :=
    joined
  obtain ⟨source', sourceIn, sourceId, sourceTenant⟩ :=
    stays.survives source isSource
  obtain ⟨target', targetIn, targetId, targetTenant⟩ :=
    stays.survives target isTarget
  refine ⟨source', sourceIn, target', targetIn, sourceId.trans atSource,
    targetId.trans atTarget, ?_⟩
  rw [sourceTenant, same, targetTenant]

/-- The memories and the links of the store. -/
def HasTables (table : MemoryTable) (links : Table MemoryLinksCoexist)
    (store : Store) : Prop :=
  store.curatedMemories = table ∧ store.memoryLinks = links

theorem LinksStay.tenants {before after : MemoryTable}
    (stays : LinksStay before after) :
    TenantsStay (fun _ => True) before after :=
  stays.mono (fun _ _ keeps => keeps.1) fun _ _ => trivial

namespace PromotionInput

variable {input : PromotionInput} {now : String} {memory : CuratedMemory}

theorem retireIn_tenants {start table : MemoryTable}
    (stays : TenantsStay (fun _ => False) start table)
    (sup : SupersessionMatch) :
    TenantsStay (fun _ => False) start (input.retireIn env now table sup) := by
  unfold retireIn
  split
  · exact stays
  · rename_i old found
    obtain ⟨member, -⟩ := Table.find?_eq_some_iff.mp found
    have kept : (input.retirement env now sup old).id = old.id ∧
        (input.retirement env now sup old).tenantId = old.tenantId := by
      unfold retirement
      split <;> exact ⟨rfl, rfl⟩
    apply Table.Evolves.replace stays
    · intro current inside same first earlier
      rw [Table.eq_of_key_eq inside member (same.trans kept.1)] at earlier
      exact kept.2.trans earlier
    · exact fun _ _ _ absurd => absurd

theorem retirements_tenants (start : MemoryTable)
    (sups : List SupersessionMatch) :
    TenantsStay (fun _ => False) start
      (sups.foldl (input.retireIn env now) start) := by
  have fromTable (table : MemoryTable)
      (stays : TenantsStay (fun _ => False) start table) :
      TenantsStay (fun _ => False) start
        (sups.foldl (input.retireIn env now) table) := by
    induction sups generalizing table with
    | nil => exact stays
    | cons sup rest induction =>
        exact induction _ (retireIn_tenants stays sup)
  apply fromTable
  apply Table.Evolves.refl
  intro row
  rfl

theorem searchedTable_tenants {start table : MemoryTable}
    (searched : input.searchedTable env now memory start = some table) :
    TenantsStay (· = memory) start table := by
  have retired : TenantsStay (fun _ => False) start
      ((distinctSupersessions input.supersessions).foldl
        (input.retireIn env now) start) :=
    retirements_tenants start _
  have isNew : memory = memory := rfl
  have widened := retired.mono (fun _ _ same => same)
    fun (row : CuratedMemory) (absurd : False) =>
      (absurd.elim : row = memory)
  exact widened.insert isNew (Table.rows_of_insert? searched)

/-- The links join memories of one tenant in a table that stays as it is. -/
def LinkedIn (table : MemoryTable) (store : Store) : Prop :=
  store.curatedMemories = table ∧
    ∀ link ∈ store.memoryLinks.rows, JoinsOneTenant table link

theorem insertLink_keeps {table : MemoryTable} {link : MemoryLink}
    (joins : ∀ source target, table.find? link.sourceMemoryId = some source →
      table.find? link.targetMemoryId = some target →
      source.tenantId = target.tenantId) :
    Keeps (LinkedIn table) (MemoryLinksRepository.insert link) := by
  constructor
  rintro store ⟨isTable, joined⟩
  unfold MemoryLinksRepository.insert
  cases inserted : store.memoryLinks.insert? link with
  | none => exact ⟨isTable, joined⟩
  | some next =>
      dsimp only
      split_ifs with stored
      · refine ⟨isTable, ?_⟩
        rw [isTable] at stored
        simp only [Bool.and_eq_true, Option.isSome_iff_exists] at stored
        obtain ⟨⟨source, atSource⟩, target, atTarget⟩ := stored
        obtain ⟨sourceIn, sourceId⟩ := Table.find?_eq_some_iff.mp atSource
        obtain ⟨targetIn, targetId⟩ := Table.find?_eq_some_iff.mp atTarget
        intro other member
        change other ∈ next.rows at member
        rw [Table.rows_of_insert? inserted] at member
        rcases List.mem_append.mp member with old | new
        · exact joined other old
        · rw [List.mem_singleton.mp new]
          exact ⟨source, sourceIn, target, targetIn, sourceId, targetId,
            joins source target atSource atTarget⟩
      · exact ⟨isTable, joined⟩

variable {table : MemoryTable}

/-- A wiki link is drawn to its target, if it has one. -/
theorem drawWikiLink_linkedIn
    (isNew : table.find? (input.memoryId env) = some memory)
    (wikiLink : WikiLink)
    (own : ∀ target ∈ input.wikiTarget env table wikiLink,
      ∀ stored ∈ table.find? target.id, stored.tenantId = memory.tenantId) :
    Keeps (LinkedIn table) (input.drawWikiLink env now wikiLink) := by
  unfold drawWikiLink
  apply Triple.bind (Triple.query_eq _)
  intro found
  cases found with
  | error error => exact Triple.throw _ fun _ start => start.2
  | ok targets =>
      dsimp only
      split
      · exact Triple.pure _ fun _ start => start.2
      · rename_i target isTarget
        constructor
        rintro store ⟨searched, isTable, joined⟩
        have picked : target ∈ input.wikiTarget env table wikiLink := by
          unfold wikiTarget
          rw [← isTable, searched]
          exact isTarget
        have drawn : Keeps (LinkedIn table)
            (tryCatch
              (MemoryLinksRepository.insert
                (input.link env now target.id .relatesTo 1))
              fun _ => pure ⟨⟩) := by
          refine Keeps.tryCatch ?_ fun _ => Keeps.pure _
          apply insertLink_keeps
          intro source other atSource atTarget
          change table.find? (input.memoryId env) = some source at atSource
          rw [isNew] at atSource
          cases atSource
          exact (own target picked other atTarget).symm
        exact drawn.run store ⟨isTable, joined⟩

theorem drawLinks_linkedIn
    (isNew : table.find? (input.memoryId env) = some memory)
    (ownRetired : ∀ sup ∈ input.supersessions, ∀ stored ∈ table.rows,
      stored.id = sup.supersededMemoryId → stored.tenantId = memory.tenantId)
    (ownTargets : ∀ wikiLink ∈ env.extractWikiLinks input.candidate.content,
      ∀ target ∈ input.wikiTarget env table wikiLink,
        ∀ stored ∈ table.find? target.id,
          stored.tenantId = memory.tenantId) :
    Keeps (LinkedIn table) (input.drawLinks env now) := by
  unfold drawLinks
  apply Keeps.bind
  · apply Keeps.forM
    intro sup planned
    apply insertLink_keeps
    intro source target atSource atTarget
    change table.find? (input.memoryId env) = some source at atSource
    rw [isNew] at atSource
    cases atSource
    obtain ⟨inside, isTarget⟩ := Table.find?_eq_some_iff.mp atTarget
    exact (ownRetired sup (mem_of_mem_distinctSupersessions planned) target
      inside isTarget).symm
  · intro _
    apply Keeps.forM
    intro wikiLink member
    exact drawWikiLink_linkedIn isNew wikiLink (ownTargets wikiLink member)

theorem retire_hasTables {links : Table MemoryLinksCoexist}
    (sup : SupersessionMatch) (table : MemoryTable) :
    Triple (HasTables table links) (input.retire env now sup)
      (fun _ => HasTables (input.retireIn env now table sup) links)
      (fun _ _ => True) := by
  apply Triple.anyFailure
  apply retire_triple
  · exact fun _ _ _ _ kept _ => kept
  · rintro store ⟨isTable, sameLinks⟩ absent
    rw [isTable] at absent
    unfold retireIn
    rw [absent]
    exact ⟨isTable, sameLinks⟩
  · rintro store old reason ⟨isTable, sameLinks⟩ found parsed
    rw [isTable] at found ⊢
    unfold retireIn retirement
    rw [found, parsed]
    exact ⟨rfl, sameLinks⟩

/-- The promotion searches the table that its own retirements and its insertion
leave. -/
theorem commit_linkedIn {store : Store} {withLinks : Bool}
    (isId : memory.id = input.memoryId env)
    (joined : LinksJoinOneTenant store)
    (owned : ∀ sup ∈ input.supersessions,
      ∀ stored ∈ store.curatedMemories.rows,
        stored.id = sup.supersededMemoryId →
          stored.tenantId = memory.tenantId)
    (finds : withLinks = true →
      ∀ table ∈ input.searchedTable env now memory store.curatedMemories,
        ∀ wikiLink ∈ env.extractWikiLinks input.candidate.content,
          ∀ target ∈ input.wikiTarget env table wikiLink,
            ∀ stored ∈ table.find? target.id,
              stored.tenantId = memory.tenantId)
    (minimum : Option Sensitivity) :
    Triple (HasTables store.curatedMemories store.memoryLinks)
      (input.commit env now withLinks memory minimum)
      (fun _ current => ∃ table,
        input.searchedTable env now memory store.curatedMemories =
            some table ∧
          LinkedIn table current)
      (fun _ _ => True) := by
  apply commit_triple
  · exact Triple.forM_foldl (fun sup _ table => retire_hasTables sup table)
      store.curatedMemories
  · rintro current next ⟨isTable, sameLinks⟩ inserted
    rw [isTable] at inserted
    refine ⟨next, inserted, rfl, ?_⟩
    intro link member
    change link ∈ current.memoryLinks.rows at member
    rw [sameLinks] at member
    exact (joined link member).stays (searchedTable_tenants inserted)
  · intro drawn
    apply Keeps.exists
    intro table
    apply Keeps.assume
    intro searched
    have stays := searchedTable_tenants searched
    have isNew : table.find? (input.memoryId env) = some memory := by
      apply Table.find?_eq_some_iff.mpr
      refine ⟨?_, isId⟩
      rw [Table.rows_of_insert? searched]
      exact List.mem_append_right _ List.mem_cons_self
    apply drawLinks_linkedIn isNew
    · intro sup planned stored inside isStored
      rcases stays.arises stored inside with
        rfl | ⟨old, member, same, ofTenant⟩
      · rfl
      · rw [ofTenant]
        exact owned sup planned old member (same.trans isStored)
    · exact finds drawn table searched
  · rintro current event next - ⟨table, searched, isTable, linked⟩ -
    exact ⟨table, searched, isTable, linked⟩

end PromotionInput

theorem promote_linksJoinOneTenant {input : PromotionInput} {store : Store}
    {now : String} {dryRun withLinks : Bool}
    (joined : LinksJoinOneTenant store)
    (owned : ∀ sup ∈ input.supersessions,
      ∃ memory ∈ store.curatedMemories.rows,
        memory.id = sup.supersededMemoryId ∧
          memory.tenantId.value = input.candidate.tenantId)
    (finds : dryRun = false → withLinks = true →
      input.FindsOwnMemories env now store) :
    LinksJoinOneTenant
      (finalState (promote env input dryRun withLinks now) store) := by
  have unchanged (current : Store)
      (same : HasTables store.curatedMemories store.memoryLinks current) :
      LinksJoinOneTenant current := by
    unfold LinksJoinOneTenant
    rw [same.1, same.2]
    exact joined
  refine Triple.finalState ?_ unchanged ⟨rfl, rfl⟩
  apply promote_triple fun _ => unchanged
  intro wet memory built
  obtain ⟨isId, -, -, ofTenant, -⟩ := PromotionInput.memory_eq_ok built
  have isBuilt :
      memory ∈ (input.memory env now input.minimumSensitivity).toOption := by
    rw [built]
    rfl
  apply Triple.weaken
    (PromotionInput.commit_linkedIn isId joined
      (retired_ofTenant ofTenant owned)
      (fun drawn => finds wet drawn memory isBuilt) _)
    (fun _ start => start)
  · rintro _ current ⟨table, -, isTable, linked⟩
    unfold LinksJoinOneTenant
    rw [isTable]
    exact linked
  · exact fun _ _ _ => trivial

theorem write_linksJoinOneTenant (plan : PlannedSupersession) (store : Store)
    (graph : SupersessionGraph (fun _ _ => False) store.curatedMemories)
    (sound : plan.Sound store) (joined : LinksJoinOneTenant store)
    (finds : plan.FindsOwnMemories env store) :
    LinksJoinOneTenant ((supersessions env).write plan store) := by
  have stays : LinksStay store.curatedMemories
      ((supersessions env).write plan store).curatedMemories :=
    (supersessions_write plan store ⟨graph, LinksStay.refl _⟩ sound).2
  have ofSameLinks (same : ((supersessions env).write plan store).memoryLinks =
      store.memoryLinks) :
      LinksJoinOneTenant ((supersessions env).write plan store) := by
    intro link member
    rw [same] at member
    exact (joined link member).stays stays.tenants
  let links (current : Store) : Prop :=
    current.memoryLinks = store.memoryLinks
  have leads (id : String) (target : MemoryLifecycleState) :
      LifecycleLeads id target links links :=
    fun _ _ _ same _ _ _ _ _ => same
  cases plan with
  | promote input dryRun withLinks now =>
      exact promote_linksJoinOneTenant joined sound finds
  | supersede id supersededBy reason now =>
      apply ofSameLinks
      exact Triple.finalState
        (MemoryRepository.supersede_triple (fun _ kept => kept) (leads id _))
        (fun _ kept => kept) rfl
  | updateLifecycle id lifecycle updatedAt =>
      apply ofSameLinks
      exact Triple.finalState
        (MemoryRepository.updateLifecycle_triple (fun _ kept => kept)
          (leads id _))
        (fun _ kept => kept) rfl
  | transition id target request draw =>
      apply ofSameLinks
      exact Triple.finalState
        (MemoryService.transition_triple (fun _ kept => kept) (leads id _)
          fun _ _ _ _ same _ => same)
        (fun _ kept => kept) rfl

/-- In an interleaving whose promotions find memories of their own tenant, all
links stay within tenants. -/
theorem links_joinOneTenant {labels : List (Label SupersessionRequest)}
    (finds : Always (supersessions env).step
      (System.Guarded (PlannedSupersession.FindsOwnMemories env))
      (Config.idle Store.empty) labels) :
    LinksJoinOneTenant
      (run (supersessions env).step (Config.idle Store.empty)
        labels).shared := by
  let invariant (store : Store) : Prop :=
    SupersessionGraph (fun _ _ => False) store.curatedMemories ∧
      LinksJoinOneTenant store
  have begins : invariant (Config.idle Store.empty :
      Config Store PlannedSupersession).shared := by
    refine ⟨SupersessionGraph.empty, ?_⟩
    intro link member
    cases member
  have noPlans : ∀ plan : PlannedSupersession,
      plan ∈ (Config.idle Store.empty).pending → plan.Sound Store.empty := by
    intro plan member
    cases member
  refine (System.invariant_of_sound_writes ?_ ?_ ?_ noPlans begins finds).1.2
  · intro request store plan _ planned
    cases planned
    exact planSupersessionRequest_sound request store
  · intro plan store kept sound own
    refine ⟨?_, write_linksJoinOneTenant plan store kept.1 sound kept.2 own⟩
    exact (supersessions_write plan store ⟨kept.1, LinksStay.refl _⟩ sound).1
  · intro written store plan kept writes sound
    apply sound.stays
    exact (supersessions_write written store ⟨kept.1, LinksStay.refl _⟩
      writes).2

/-- The environment in which the one text with a wiki link names the pager
memory, and the text search finds every row. -/
def linkingEnvironment : Environment :=
  { plainEnvironment with
    extractWikiLinks := fun content =>
      if content = "See [[Pager]]." then [{ slug := "Pager" }] else []
    fts5Match := fun _ rows => some rows }

def promotePagerOf (tenantId content title : String) : SupersessionRequest :=
  let candidate : MemoryCandidate :=
    { pagerCandidate with
      id := title
      content := content
      title := title
      tenantId := tenantId }
  .promote .promotionService
    { candidate := candidate
      contentHash := computeContentHash linkingEnvironment content
      minimumSensitivity := none
      pipelineResult := approvedResult candidate
      supersessions := []
      promotedBy := none
      promotionReason := none
      humanResolvedFlags := [] }
    false true "1"

/-- The second tenant writes the title of a memory of the first one. -/
theorem wikiLink_crossesTenants :
    ¬ LinksJoinOneTenant
      (run (supersessions linkingEnvironment).step (Config.idle Store.empty)
        [.start (promotePagerOf "team" "Page Ann." "Pager"), .commit 0,
          .start (promotePagerOf "rivals" "See [[Pager]]." "Runbook"),
          .commit 0]).shared := by
  decide +kernel

theorem links_joinOneTenant_sameTeam :
    LinksJoinOneTenant
      (run (supersessions linkingEnvironment).step (Config.idle Store.empty)
        [.start (promotePagerOf "team" "Page Ann." "Pager"), .commit 0,
          .start (promotePagerOf "team" "See [[Pager]]." "Runbook"),
          .commit 0]).shared := by
  apply links_joinOneTenant
  decide +kernel

end Registrar
