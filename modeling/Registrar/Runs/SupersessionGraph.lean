import Registrar.Concurrency.Lifecycles
import Registrar.Library.Acyclicity

/-!
# The supersession graph

A promotion retires what it planned to retire at an earlier state of the run.
Transitions, supersessions and lifecycle updates are each one step.
-/

namespace Registrar

open Program TwoPhase Transition

variable (env : Environment)

inductive SupersessionRequest where
  | promote (planner : SupersessionPlanner) (input : PromotionInput)
      (dryRun withLinks : Bool) (now : String)
  | supersede (id supersededBy reason now : String)
  | updateLifecycle (id : String) (lifecycle : MemoryLifecycleState)
      (updatedAt : String)
  | transition (id : String) (target : MemoryLifecycleState)
      (request : Except String TransitionRequest) (draw : Draw)

/-- A request whose supersessions have been planned. -/
inductive PlannedSupersession where
  | promote (input : PromotionInput) (dryRun withLinks : Bool) (now : String)
  | supersede (id supersededBy reason now : String)
  | updateLifecycle (id : String) (lifecycle : MemoryLifecycleState)
      (updatedAt : String)
  | transition (id : String) (target : MemoryLifecycleState)
      (request : Except String TransitionRequest) (draw : Draw)

def planSupersessionRequest :
    SupersessionRequest → Store → PlannedSupersession
  | .promote planner input dryRun withLinks now, store =>
      .promote (input.withPlan env planner store) dryRun withLinks now
  | .supersede id supersededBy reason now, _ =>
      .supersede id supersededBy reason now
  | .updateLifecycle id lifecycle updatedAt, _ =>
      .updateLifecycle id lifecycle updatedAt
  | .transition id target request draw, _ =>
      .transition id target request draw

def writeSupersession : PlannedSupersession → Store → Store
  | .promote input dryRun withLinks now =>
      finalState (promote env input dryRun withLinks now)
  | .supersede id supersededBy reason now =>
      finalState (MemoryRepository.supersede env id supersededBy reason now)
  | .updateLifecycle id lifecycle updatedAt =>
      finalState (MemoryRepository.updateLifecycle id lifecycle updatedAt)
  | .transition id target request draw =>
      finalState (MemoryService.transition env id target request draw)

def supersessions : System Store SupersessionRequest PlannedSupersession where
  read request store := some (planSupersessionRequest env request store)
  write := writeSupersession env

/-- The link of one memory names the other. -/
def Supersedes (table : MemoryTable) (id next : String) : Prop :=
  ∃ memory ∈ table.rows, memory.id = id ∧
    ∃ link ∈ memory.supersession, link.supersededBy = next

/-- Only retired memories carry links, a link names a memory of the same tenant
or a promised one, and no memory supersedes itself through others. -/
structure SupersessionGraph (promised : String → NonEmptyString → Prop)
    (table : MemoryTable) : Prop where
  retired : ∀ memory ∈ table.rows, memory.supersession ≠ none →
    memory.lifecycle = .superseded ∨ memory.lifecycle = .archived
  named : ∀ memory ∈ table.rows, ∀ link ∈ memory.supersession,
    promised link.supersededBy memory.tenantId ∨
      ∃ next ∈ table.rows, next.id = link.supersededBy ∧
        next.tenantId = memory.tenantId
  acyclic : Acyclicity.Acyclic (Supersedes table)

/-- A later state of a memory keeps its tenant, and a link once it has one. -/
def LinkStays (old new : CuratedMemory) : Prop :=
  new.tenantId = old.tenantId ∧
    (old.supersession ≠ none → new.supersession ≠ none)

/-- Every memory is still stored, in a later state. -/
def LinksStay (before after : MemoryTable) : Prop :=
  before.Evolves LinkStays (fun _ => True) after

/-- What a superseded memory of a store looks like in every later one. -/
def SoundSupersessions (store : Store) : Prop :=
  (∀ memory ∈ store.curatedMemories.rows, memory.lifecycle = .superseded →
      ∃ link ∈ memory.supersession, ∃ next ∈ store.curatedMemories.rows,
        next.id = link.supersededBy ∧ next.tenantId = memory.tenantId) ∧
    Acyclicity.Acyclic (Supersedes store.curatedMemories)

/-- The memories that the plan retires are stored, in the tenant of the
candidate. -/
def PlannedSupersession.Sound : PlannedSupersession → Store → Prop
  | .promote input _ _ _, store =>
      ∀ sup ∈ input.supersessions, ∃ memory ∈ store.curatedMemories.rows,
        memory.id = sup.supersededMemoryId ∧
          memory.tenantId.value = input.candidate.tenantId
  | _, _ => True

variable {env}

theorem mem_of_mem_distinctSupersessions {matched : List SupersessionMatch}
    {sup : SupersessionMatch} (member : sup ∈ distinctSupersessions matched) :
    sup ∈ matched := by
  have collected : ∀ kept : List SupersessionMatch,
      ∀ sup ∈ matched.foldl
        (fun kept sup =>
          if kept.any (·.supersededMemoryId = sup.supersededMemoryId) then kept
          else kept ++ [sup]) kept,
        sup ∈ kept ∨ sup ∈ matched := by
    clear member
    induction matched with
    | nil => exact fun kept sup inside => .inl inside
    | cons first rest induction =>
        intro kept sup inside
        rcases induction _ sup inside with earlier | later
        · dsimp only at earlier
          split_ifs at earlier
          · exact .inl earlier
          · rcases List.mem_append.mp earlier with old | new
            · exact .inl old
            · rw [List.mem_singleton.mp new]
              exact .inr List.mem_cons_self
        · exact .inr (List.mem_cons_of_mem first later)
  rcases collected [] sup member with absent | present
  · cases absent
  · exact present

/-- A planned match is the match of an active memory. -/
theorem exists_of_mem_planSupersession {candidate : MemoryCandidate}
    {active : List CuratedMemory} {threshold : ℚ} {cap : Nat}
    {sup : SupersessionMatch}
    (member : sup ∈ (planSupersession env candidate active threshold
      cap).matched) :
    ∃ memory ∈ active, memory.id = sup.supersededMemoryId := by
  have byTitle : ∀ best : Option SupersessionMatch,
      ∀ sup ∈ active.foldl (betterTitleMatch env candidate threshold) best,
        sup ∈ best ∨ ∃ memory ∈ active, memory.id = sup.supersededMemoryId := by
    clear member
    induction active with
    | nil => exact fun best sup inside => .inl inside
    | cons first rest induction =>
        intro best sup inside
        rcases induction _ sup inside with earlier | ⟨memory, later, same⟩
        · unfold betterTitleMatch at earlier
          dsimp only at earlier
          split_ifs at earlier
          · cases earlier
            exact .inr ⟨first, List.mem_cons_self, rfl⟩
          · exact .inl earlier
        · exact .inr ⟨memory, List.mem_cons_of_mem first later, same⟩
  have bySubject : ∀ sup ∈ active.filterMap (subjectMatch candidate),
      ∃ memory ∈ active, memory.id = sup.supersededMemoryId := by
    intro sup inside
    obtain ⟨memory, isActive, matched⟩ := List.mem_filterMap.mp inside
    refine ⟨memory, isActive, ?_⟩
    unfold subjectMatch at matched
    dsimp only at matched
    split at matched
    · cases matched
    · split_ifs at matched
      cases matched
      rfl
  unfold planSupersession at member
  dsimp only at member
  split_ifs at member
  · rcases byTitle none sup (Option.mem_toList.mp member) with absent | present
    · cases absent
    · exact present
  · cases member
  · exact bySubject sup ((List.perm_insertionSort _ _).mem_iff.mp member)

theorem mem_of_mem_chooseSupersessions {config : CuratorConfig}
    {meters : CuratorMeters} {plan : SupersessionPlan}
    {sup : SupersessionMatch}
    (member : sup ∈ (chooseSupersessions config meters plan).1) :
    sup ∈ plan.matched := by
  unfold chooseSupersessions at member
  dsimp only at member
  split at member
  · cases member
  · by_cases isReport : config.supersessionMode = .report
    · rw [if_pos isReport] at member
      cases member
    · rw [if_neg isReport] at member
      split at member
      · cases member
      · exact member

theorem planSupersessionRequest_sound (request : SupersessionRequest)
    (store : Store) :
    (planSupersessionRequest env request store).Sound store := by
  cases request with
  | promote planner input dryRun withLinks now =>
      have active (threshold : Option ℚ) (cap : Option Nat) :
          ∀ sup ∈ (planFor env store input.candidate threshold cap).matched,
            ∃ memory ∈ store.curatedMemories.rows,
              memory.id = sup.supersededMemoryId ∧
                memory.tenantId.value = input.candidate.tenantId := by
        intro sup member
        obtain ⟨memory, inside, same⟩ := exists_of_mem_planSupersession member
        obtain ⟨stored, selected⟩ := List.mem_filter.mp inside
        simp only [Bool.and_eq_true, decide_eq_true_eq] at selected
        exact ⟨memory, stored, same, selected.1⟩
      intro sup member
      cases planner with
      | promotionService => exact active none none sup member
      | curator config meters =>
          apply active config.supersessionThreshold
            config.maxSupersedesPerPromotion sup
          exact mem_of_mem_chooseSupersessions member
  | supersede id supersededBy reason now => trivial
  | updateLifecycle id lifecycle updatedAt => trivial
  | transition id target request draw => trivial

theorem LinkStays.refl (memory : CuratedMemory) : LinkStays memory memory :=
  ⟨rfl, id⟩

theorem LinkStays.trans {first second third : CuratedMemory}
    (earlier : LinkStays first second) (later : LinkStays second third) :
    LinkStays first third :=
  ⟨later.1.trans earlier.1, later.2 ∘ earlier.2⟩

theorem LinksStay.refl (table : MemoryTable) : LinksStay table table :=
  Table.Evolves.refl LinkStays.refl table

theorem LinksStay.replace {start table : MemoryTable} {old new : CuratedMemory}
    (stays : LinksStay start table) (stored : old ∈ table.rows)
    (same : old.id = new.id) (stay : LinkStays old new) :
    LinksStay start (table.replace new) := by
  apply Table.Evolves.replace stays
  · intro current inside sameId first earlier
    rw [Table.eq_of_key_eq inside stored (sameId.trans same.symm)] at earlier
    exact earlier.trans stay
  · intro _ _ _ _
    trivial

/-- The link that a change gives the memory: its old one, or one to a node of
the same tenant that has no successor itself. -/
def SoundChange (promised : String → NonEmptyString → Prop)
    (table : MemoryTable) (old new : CuratedMemory) : Prop :=
  new.supersession = old.supersession ∨
    ∃ link, new.supersession = some link ∧ link.supersededBy ≠ old.id ∧
      (promised link.supersededBy old.tenantId ∨
        ∃ next ∈ table.rows, next.id = link.supersededBy ∧
          next.tenantId = old.tenantId) ∧
      ∀ stored ∈ table.rows, stored.id = link.supersededBy →
        stored.supersession = none

namespace SupersessionGraph

variable {promised : String → NonEmptyString → Prop} {table : MemoryTable}
variable {old new : CuratedMemory}

theorem acyclic_replace (graph : SupersessionGraph promised table)
    (stored : old ∈ table.rows) (same : new.id = old.id)
    (sound : SoundChange promised table old new) :
    Acyclicity.Acyclic (Supersedes (table.replace new)) := by
  rcases sound with unchanged | ⟨link, isLink, distinct, -, ends⟩
  · apply Acyclicity.mono graph.acyclic
    rintro left right ⟨memory, inside, isLeft, link, linked, isRight⟩
    rcases Table.mem_replace_iff.mp inside with ⟨rfl, -⟩ | ⟨kept, -⟩
    · rw [unchanged] at linked
      exact ⟨old, stored, same.symm.trans isLeft, link, linked, isRight⟩
    · exact ⟨memory, kept, isLeft, link, linked, isRight⟩
  · have added (left right : String)
        (edge : Supersedes (table.replace new) left right) :
        Supersedes table left right ∨ right = link.supersededBy := by
      obtain ⟨memory, inside, isLeft, other, linked, isRight⟩ := edge
      rcases Table.mem_replace_iff.mp inside with ⟨rfl, -⟩ | ⟨kept, -⟩
      · rw [isLink] at linked
        cases linked
        exact .inr isRight.symm
      · exact .inl ⟨memory, kept, isLeft, other, linked, isRight⟩
    apply Acyclicity.of_sink graph.acyclic added
    rintro right ⟨memory, inside, isSink, other, linked, -⟩
    rcases Table.mem_replace_iff.mp inside with ⟨rfl, -⟩ | ⟨kept, -⟩
    · exact distinct (isSink.symm.trans same)
    · rw [ends memory kept isSink] at linked
      cases linked

theorem replace (graph : SupersessionGraph promised table)
    (stored : old ∈ table.rows) (same : new.id = old.id)
    (sameTenant : new.tenantId = old.tenantId)
    (isRetired : new.supersession ≠ none →
      new.lifecycle = .superseded ∨ new.lifecycle = .archived)
    (sound : SoundChange promised table old new) :
    SupersessionGraph promised (table.replace new) := by
  have survives (next : CuratedMemory) (inside : next ∈ table.rows) :
      ∃ later ∈ (table.replace new).rows, later.id = next.id ∧
        later.tenantId = next.tenantId := by
    by_cases replaced : next.id = new.id
    · rw [Table.eq_of_key_eq inside stored (replaced.trans same)]
      exact ⟨new, Table.mem_replace_iff.mpr
        (.inl ⟨rfl, old, stored, same.symm⟩), same, sameTenant⟩
    · exact ⟨next, Table.mem_replace_iff.mpr (.inr ⟨inside, replaced⟩), rfl,
        rfl⟩
  have lasts (id : String) (tenant : NonEmptyString)
      (earlier : promised id tenant ∨
        ∃ next ∈ table.rows, next.id = id ∧ next.tenantId = tenant) :
      promised id tenant ∨
        ∃ next ∈ (table.replace new).rows, next.id = id ∧
          next.tenantId = tenant := by
    rcases earlier with awaited | ⟨next, inside, isNext, ofTenant⟩
    · exact .inl awaited
    · obtain ⟨later, member, sameId, sameOwner⟩ := survives next inside
      exact .inr ⟨later, member, sameId.trans isNext, sameOwner.trans ofTenant⟩
  constructor
  · intro memory inside linked
    rcases Table.mem_replace_iff.mp inside with ⟨rfl, -⟩ | ⟨kept, -⟩
    · exact isRetired linked
    · exact graph.retired memory kept linked
  · intro memory inside link linked
    apply lasts
    rcases Table.mem_replace_iff.mp inside with ⟨rfl, -⟩ | ⟨kept, -⟩
    · rw [sameTenant]
      rcases sound with unchanged | ⟨other, isOther, -, names, -⟩
      · rw [unchanged] at linked
        exact graph.named old stored link linked
      · rw [isOther] at linked
        cases linked
        exact names
    · exact graph.named memory kept link linked
  · exact graph.acyclic_replace stored same sound

/-- The promised memory is stored. -/
theorem insert {next : MemoryTable} {memory : CuratedMemory}
    (graph : SupersessionGraph
      (fun id tenant => id = memory.id ∧ tenant = memory.tenantId) table)
    (unlinked : memory.supersession = none)
    (inserted : next.rows = table.rows ++ [memory]) :
    SupersessionGraph (fun _ _ => False) next := by
  have known (other : CuratedMemory) (inside : other ∈ next.rows)
      {link : SupersessionLink} (linked : link ∈ other.supersession) :
      other ∈ table.rows := by
    rw [inserted] at inside
    rcases List.mem_append.mp inside with stored | new
    · exact stored
    · rw [List.mem_singleton.mp new, unlinked] at linked
      cases linked
  constructor
  · intro other inside linked
    obtain ⟨link, isLink⟩ := Option.ne_none_iff_exists'.mp linked
    exact graph.retired other (known other inside isLink) linked
  · intro other inside link linked
    right
    rw [inserted]
    rcases graph.named other (known other inside linked) link linked with
      ⟨isNew, ofTenant⟩ | ⟨successor, stored, isNext⟩
    · exact ⟨memory, List.mem_append_right _ List.mem_cons_self, isNew.symm,
        ofTenant.symm⟩
    · exact ⟨successor, List.mem_append_left _ stored, isNext⟩
  · apply Acyclicity.mono graph.acyclic
    rintro left right ⟨other, inside, isLeft, link, linked, isRight⟩
    exact ⟨other, known other inside linked, isLeft, link, linked, isRight⟩

end SupersessionGraph

/-- The graph of the store is sound, and no memory of the starting table lost
its link. -/
def StaysSound (start : MemoryTable) (store : Store) : Prop :=
  SupersessionGraph (fun _ _ => False) store.curatedMemories ∧
    LinksStay start store.curatedMemories

theorem survivesAppend_staysSound (start : MemoryTable)
    (kind : AuditEvent → Prop) :
    SurvivesAppend env kind (StaysSound start) :=
  fun _ _ _ _ holds _ => holds

theorem retired_of_legalChange {source target : MemoryLifecycleState}
    (legal : LegalChange source target)
    (isRetired : source = .superseded ∨ source = .archived) :
    target = .superseded ∨ target = .archived := by
  rcases legal with same | allowed
  · rwa [same]
  · rcases isRetired with rfl | rfl <;> cases target <;>
      simp [isTransitionAllowed, allowedTransitions] at allowed ⊢

theorem lifecycleLeads_staysSound (start : MemoryTable) (id : String)
    (target : MemoryLifecycleState) :
    LifecycleLeads id target (StaysSound start) (StaysSound start) := by
  rintro store old new ⟨graph, stays⟩ found same isTarget legal linked
  obtain ⟨stored, -⟩ := Table.find?_eq_some_iff.mp found
  have noLink (other : CuratedMemory)
      (inside : other ∈ store.curatedMemories.rows)
      (active : other.lifecycle = .active) : other.supersession = none := by
    by_contra isLinked
    rcases graph.retired other inside isLinked with superseded | archived
    · exact absurd (active.symm.trans superseded) (by decide)
    · exact absurd (active.symm.trans archived) (by decide)
  have sound : SoundChange (fun _ _ => False) store.curatedMemories old new := by
    rcases linked with
      unchanged | ⟨link, other, isLink, isOther, ofTenant, active, distinct, -⟩
    · exact .inl unchanged
    · obtain ⟨inside, sameId⟩ := Table.find?_eq_some_iff.mp isOther
      refine .inr ⟨link, isLink, ?_, .inr ⟨other, inside, sameId, ofTenant⟩, ?_⟩
      · rw [← sameId]
        exact distinct
      · intro successor member isNext
        rw [Table.eq_of_key_eq member inside (isNext.trans sameId.symm)]
        exact noLink other inside active
  have isRetired (isLinked : new.supersession ≠ none) :
      new.lifecycle = .superseded ∨ new.lifecycle = .archived := by
    rcases linked with unchanged | ⟨_, _, -, -, -, -, -, superseded⟩
    · rw [unchanged] at isLinked
      rw [isTarget]
      exact retired_of_legalChange legal (graph.retired old stored isLinked)
    · exact .inl superseded
  refine ⟨graph.replace stored same.id same.tenantId isRetired sound, ?_⟩
  apply stays.replace stored same.id.symm
  refine ⟨same.tenantId, ?_⟩
  intro wasLinked
  rcases linked with unchanged | ⟨link, _, isLink, -⟩
  · rwa [unchanged]
  · rw [isLink]
    exact Option.some_ne_none link

/-- While a promotion retires memories in favour of the one that it is about
to insert. -/
structure RetiresSoundly (start : MemoryTable) (input : PromotionInput)
    (memory : CuratedMemory) (store : Store) : Prop where
  graph : SupersessionGraph
    (fun id tenant => id = memory.id ∧ tenant = memory.tenantId)
    store.curatedMemories
  stays : LinksStay start store.curatedMemories
  owned : ∀ sup ∈ input.supersessions,
    ∀ stored ∈ store.curatedMemories.rows,
      stored.id = sup.supersededMemoryId → stored.tenantId = memory.tenantId

theorem RetiresSoundly.retire {start : MemoryTable} {input : PromotionInput}
    {memory old : CuratedMemory} {store : Store} {sup : SupersessionMatch}
    {link : SupersessionLink} {now : String}
    (holds : RetiresSoundly start input memory store)
    (absent : store.curatedMemories.find? memory.id = none)
    (planned : sup ∈ input.supersessions)
    (found : store.curatedMemories.find? sup.supersededMemoryId = some old)
    (isNext : link.supersededBy = memory.id) :
    RetiresSoundly start input memory
      { store with
        curatedMemories :=
          store.curatedMemories.replace (old.retired link now) } := by
  obtain ⟨stored, isOld⟩ := Table.find?_eq_some_iff.mp found
  have other := Table.find?_eq_none_iff.mp absent
  have same := old.retired_sameClaim link now
  constructor
  · apply holds.graph.replace stored same.id same.tenantId
      (fun _ => .inl rfl)
    refine .inr ⟨link, rfl, ?_, .inl ⟨isNext, ?_⟩, ?_⟩
    · rw [isNext]
      exact (other old stored).symm
    · exact holds.owned sup planned old stored isOld
    · intro successor inside isSuccessor
      exact absurd (isSuccessor.trans isNext) (other successor inside)
  · apply holds.stays.replace stored same.id.symm
    exact ⟨rfl, fun _ => Option.some_ne_none link⟩
  · intro later laterPlanned current inside isCurrent
    rcases Table.mem_replace_iff.mp inside with ⟨rfl, -⟩ | ⟨kept, -⟩
    · exact holds.owned later laterPlanned old stored isCurrent
    · exact holds.owned later laterPlanned current kept isCurrent

theorem retired_ofTenant {input : PromotionInput} {memory : CuratedMemory}
    {table : MemoryTable}
    (ofTenant : memory.tenantId.value = trim input.candidate.tenantId)
    (owned : ∀ sup ∈ input.supersessions, ∃ old ∈ table.rows,
      old.id = sup.supersededMemoryId ∧
        old.tenantId.value = input.candidate.tenantId) :
    ∀ sup ∈ input.supersessions, ∀ stored ∈ table.rows,
      stored.id = sup.supersededMemoryId →
        stored.tenantId = memory.tenantId := by
  intro sup planned stored inside isStored
  obtain ⟨old, member, isOld, owner⟩ := owned sup planned
  rw [Table.eq_of_key_eq inside member (isStored.trans isOld.symm)]
  apply NonEmptyString.value_injective
  rw [ofTenant, ← owner]
  exact old.tenantId.trimmed.symm

theorem promote_staysSound {input : PromotionInput} {store : Store}
    {now : String} {start : MemoryTable} (dryRun withLinks : Bool)
    (holds : StaysSound start store)
    (owned : ∀ sup ∈ input.supersessions,
      ∃ memory ∈ store.curatedMemories.rows,
        memory.id = sup.supersededMemoryId ∧
          memory.tenantId.value = input.candidate.tenantId) :
    StaysSound start
      (finalState (promote env input dryRun withLinks now) store) := by
  have unchanged (current : Store) (same : current = store) :
      StaysSound start current := by
    rwa [same]
  refine Triple.finalState ?_ unchanged rfl
  apply promote_triple fun _ => unchanged
  intro _ memory built
  obtain ⟨isNew, -, -, ofTenant, -, -, unlinked⟩ :=
    PromotionInput.memory_eq_ok built
  have begins : RetiresSoundly start input memory store := by
    constructor
    · constructor
      · exact holds.1.retired
      · intro other inside link linked
        rcases holds.1.named other inside link linked with awaited | stored
        · exact awaited.elim
        · exact .inr stored
      · exact holds.1.acyclic
    · exact holds.2
    · exact retired_ofTenant ofTenant owned
  let before (current : Store) : Prop :=
    current.curatedMemories.find? memory.id = none →
      RetiresSoundly start input memory current
  have committed : Triple before
      (input.commit env now withLinks memory input.minimumSensitivity)
      (fun _ => StaysSound start) (fun _ _ => True) := by
    apply PromotionInput.commit_triple
    · apply PromotionInput.retires_of_keeps
      intro sup planned
      apply PromotionInput.retire_keeps
      · intro _ _ _ _ kept _ absent
        have retires := kept absent
        exact ⟨retires.graph, retires.stays, retires.owned⟩
      · intro current old reason kept found absent
        have wasAbsent : current.curatedMemories.find? memory.id = none := by
          rw [Table.find?_replace] at absent
          split_ifs at absent with isOld
          · simpa using absent
          · exact absent
        exact (kept wasAbsent).retire wasAbsent
          (mem_of_mem_distinctSupersessions planned) found isNew.symm
    · intro current next kept inserted
      have absent : current.curatedMemories.find? memory.id = none :=
        Table.insert?_isSome_iff.mp (Option.isSome_of_eq_some inserted)
      have rows := Table.rows_of_insert? inserted
      have retires := kept absent
      exact ⟨retires.graph.insert unlinked rows,
        retires.stays.insert trivial rows⟩
    · intro _
      exact PromotionInput.drawLinks_keeps fun _ _ sound => sound
    · exact survivesAppend_staysSound start _
  apply Triple.weaken committed
  · rintro _ rfl _
    exact begins
  · exact fun _ _ sound => sound
  · exact fun _ _ _ => trivial

theorem supersessions_write {start : MemoryTable}
    (plan : PlannedSupersession) (store : Store)
    (holds : StaysSound start store) (sound : plan.Sound store) :
    StaysSound start ((supersessions env).write plan store) := by
  cases plan with
  | promote input dryRun withLinks now =>
      exact promote_staysSound dryRun withLinks holds sound
  | supersede id supersededBy reason now =>
      refine Triple.finalState ?_ (fun _ kept => kept) holds
      exact MemoryRepository.supersede_triple (fun _ kept => kept)
        (lifecycleLeads_staysSound start id _)
  | updateLifecycle id lifecycle updatedAt =>
      refine Triple.finalState ?_ (fun _ kept => kept) holds
      exact MemoryRepository.updateLifecycle_triple (fun _ kept => kept)
        (lifecycleLeads_staysSound start id _)
  | transition id target request draw =>
      refine Triple.finalState ?_ (fun _ kept => kept) holds
      exact MemoryService.transition_triple (fun _ kept => kept)
        (lifecycleLeads_staysSound start id _)
        (survivesAppend_staysSound start _)

theorem PlannedSupersession.Sound.stays {plan : PlannedSupersession}
    {before after : Store} (sound : plan.Sound before)
    (stays : LinksStay before.curatedMemories after.curatedMemories) :
    plan.Sound after := by
  cases plan with
  | promote input dryRun withLinks now =>
      intro sup planned
      obtain ⟨memory, stored, isOld, ofTenant⟩ := sound sup planned
      obtain ⟨later, inside, same, keeps⟩ := stays.survives memory stored
      refine ⟨later, inside, same.trans isOld, ?_⟩
      rw [keeps.1]
      exact ofTenant
  | supersede id supersededBy reason now => trivial
  | updateLifecycle id lifecycle updatedAt => trivial
  | transition id target request draw => trivial

theorem staysSound_run {start : MemoryTable}
    {config : Config Store PlannedSupersession}
    (labels : List (Label SupersessionRequest))
    (sounds : ∀ plan ∈ config.pending, plan.Sound config.shared)
    (holds : StaysSound start config.shared) :
    StaysSound start (run (supersessions env).step config labels).shared ∧
      ∀ plan ∈ (run (supersessions env).step config labels).pending,
        plan.Sound (run (supersessions env).step config labels).shared := by
  refine System.invariant_of_sound_writes ?_ ?_ ?_ sounds holds
    (System.guarded_of_allowed (fun _ _ => trivial) config labels)
  · intro request store plan _ planned
    cases planned
    exact planSupersessionRequest_sound request store
  · intro plan store kept sound _
    exact supersessions_write plan store kept sound
  · intro written store plan kept writes sound
    apply sound.stays
    have fromHere : StaysSound store.curatedMemories store :=
      ⟨kept.1, LinksStay.refl _⟩
    exact (supersessions_write written store fromHere writes).2

theorem SupersessionGraph.empty :
    SupersessionGraph (fun _ _ => False) Store.empty.curatedMemories where
  retired := by
    intro memory inside
    cases inside
  named := by
    intro memory inside
    cases inside
  acyclic := by
    intro node cycle
    obtain ⟨_, ⟨memory, inside, -⟩, -⟩ := Relation.TransGen.head'_iff.mp cycle
    cases inside

theorem SupersessionGraph.sound {store : Store}
    (graph : SupersessionGraph (fun _ _ => False) store.curatedMemories) :
    SoundSupersessions store := by
  refine ⟨?_, graph.acyclic⟩
  intro memory inside superseded
  obtain ⟨link, linked⟩ := Option.ne_none_iff_exists'.mp
    (memory.supersededHasLink superseded)
  refine ⟨link, linked, ?_⟩
  rcases graph.named memory inside link linked with awaited | stored
  · exact awaited.elim
  · exact stored

/-- After every interleaving the supersessions are sound, and a memory that
was superseded at some moment is not active at a later one. -/
theorem supersessions_sound
    (earlier later : List (Label SupersessionRequest)) :
    SoundSupersessions
        (run (supersessions env).step (Config.idle Store.empty)
          (earlier ++ later)).shared ∧
      ∀ old ∈ (run (supersessions env).step (Config.idle Store.empty)
          earlier).shared.curatedMemories.rows,
        old.lifecycle = .superseded →
        ∀ new ∈ (run (supersessions env).step (Config.idle Store.empty)
            (earlier ++ later)).shared.curatedMemories.rows,
          new.id = old.id → new.lifecycle ≠ .active := by
  have begins : StaysSound Store.empty.curatedMemories Store.empty :=
    ⟨SupersessionGraph.empty, LinksStay.refl _⟩
  have noPlans : ∀ plan : PlannedSupersession,
      plan ∈ (Config.idle Store.empty).pending → plan.Sound Store.empty := by
    intro plan member
    cases member
  obtain ⟨⟨graph, -⟩, sounds⟩ := staysSound_run earlier noPlans begins
  rw [run_append]
  obtain ⟨⟨final, stays⟩, -⟩ := staysSound_run later sounds
    ⟨graph, LinksStay.refl _⟩
  refine ⟨final.sound, ?_⟩
  intro old stored superseded new inside same active
  obtain ⟨next, member, sameId, keeps⟩ := stays.survives old stored
  rw [Table.eq_of_key_eq member inside (sameId.trans same.symm)] at keeps
  rcases final.retired new inside
    (keeps.2 (old.supersededHasLink superseded)) with isSuperseded | isArchived
  · exact absurd (active.symm.trans isSuperseded) (by decide)
  · exact absurd (active.symm.trans isArchived) (by decide)

end Registrar
