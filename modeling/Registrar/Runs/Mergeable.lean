import Registrar.Concurrency.Maintenance
import Registrar.Curator.MergeCommutes

/-!
# Stores that a merge accepts

The merge gate refuses a row whose id is not the one that its lineage derives.
Promotions derive the id; transitions, recategorizations and narrowings leave
id and lineage alone; a redaction changes the content hash and keeps the id.
-/

namespace Registrar

open Program Transition

variable (env : Environment)

/-- An operation on a store, taken on its own. -/
inductive GovernedStep where
  | promote (input : PromotionInput) (dryRun withLinks : Bool) (now : String)
  | maintain (request : MaintenanceRequest)

def governedStep (store : Store) : GovernedStep → Store
  | .promote input dryRun withLinks now =>
      finalState (promote env input dryRun withLinks now) store
  | .maintain request => request.alone env store

/-- The rows that a clone brings to a merge. -/
def activeRows (store : Store) : List CuratedMemory :=
  store.curatedMemories.rows.filter (·.lifecycle = .active)

/-- Every active row has the id of its lineage. -/
def Mergeable (store : Store) : Prop :=
  DerivedIds env (activeRows store)

/-- The step does not give an active row a content hash other than its own: a
redaction of an active row keeps the hash, and a row that becomes active again
still has the id of its lineage. -/
def KeepsLineage (store : Store) : GovernedStep → Prop
  | .maintain (.redactMemory input _ now) =>
      ∀ planned ∈ planOf (planRedaction env input now) store,
        planned.1.memory.lifecycle = .active →
          computeContentHash env planned.1.newContent =
            planned.1.memory.contentHash
  | .maintain (.transition id .active _ _) =>
      ∀ stored ∈ store.curatedMemories.rows,
        stored.id = id → stored.id = expectedId env stored
  | _ => True

def RegistrarError.IsMergeId : RegistrarError → Prop
  | .mergeIdInvariant _ _ => True
  | _ => False

/-- No merge of the clones is refused for the id of a row. -/
def MergesCleanly (cloneA cloneB : List CuratedMemory) : Prop :=
  ∀ options store final error,
    mergeGovern env cloneA cloneB options store = .error error final →
      ¬ error.IsMergeId

variable {env}

section Throws

variable {input : PromotionInput} {memory : CuratedMemory} {now : String}

/-- A program that never complains about the id of a row. -/
abbrev AcceptsIds {Value : Type} (program : StoreM Value) : Prop :=
  Throws (¬ ·.IsMergeId) program

theorem orSchemaError_acceptsIds {Value : Type}
    (checked : Except SchemaIssue Value) :
    AcceptsIds (orSchemaError checked) := by
  cases checked with
  | error issue => exact Throws.throw id
  | ok value => exact Throws.pure value

theorem AuditRepository.insert_acceptsIds (event : AuditEvent) :
    AcceptsIds (AuditRepository.insert env event) := by
  constructor
  intro store _
  unfold AuditRepository.insert
  cases store.auditEvents.insert?
      (appendedRecord env store.auditEvents event) with
  | some next => trivial
  | none =>
      dsimp only
      split_ifs <;> exact id

theorem AuditRepository.record_acceptsIds (event : AuditEventInput) :
    AcceptsIds (AuditRepository.record env event) := by
  apply Throws.bind (orSchemaError_acceptsIds _)
  intro parsed
  exact AuditRepository.insert_acceptsIds parsed

theorem MemoryRepository.insert_acceptsIds (memory : CuratedMemory) :
    AcceptsIds (MemoryRepository.insert memory) := by
  constructor
  intro store _
  unfold MemoryRepository.insert
  cases store.curatedMemories.insert? memory with
  | some next => trivial
  | none => exact id

theorem MemoryLinksRepository.insert_acceptsIds (link : MemoryLink) :
    AcceptsIds (MemoryLinksRepository.insert link) := by
  constructor
  intro store _
  unfold MemoryLinksRepository.insert
  cases store.memoryLinks.insert? link with
  | none => exact id
  | some next =>
      dsimp only
      split_ifs
      · trivial
      · exact id

theorem resolveMinimum_acceptsIds (candidate : MemoryCandidate) :
    AcceptsIds (resolveMinimum env candidate) := by
  apply resolveMinimum_throws
  intro error ofReceipt
  cases ofReceipt <;> exact id

theorem PromotionInput.retire_acceptsIds (sup : SupersessionMatch) :
    AcceptsIds (input.retire env now sup) := by
  unfold PromotionInput.retire
  apply Throws.bind (Throws.query _)
  intro found
  apply Throws.bind
  · apply Throws.forM
    intro old
    apply Throws.bind (orSchemaError_acceptsIds _)
    intro reason
    exact ⟨fun _ _ => trivial⟩
  · intro _
    exact AuditRepository.record_acceptsIds _

theorem searchByText_eq_error {table : MemoryTable} {slug : String}
    {error : RegistrarError}
    (failed : MemoryRepository.searchByText env table slug = .error error) :
    ¬ error.IsMergeId := by
  unfold MemoryRepository.searchByText at failed
  dsimp only at failed
  split_ifs at failed
  split at failed <;> cases failed
  exact id

theorem PromotionInput.drawWikiLink_acceptsIds (wikiLink : WikiLink) :
    AcceptsIds (input.drawWikiLink env now wikiLink) := by
  unfold PromotionInput.drawWikiLink
  apply Triple.bind (Triple.query_eq _)
  intro found
  cases found with
  | error error =>
      apply Triple.throw
      intro store searched
      exact searchByText_eq_error searched.1
  | ok targets =>
      dsimp only
      split
      · exact Triple.pure _ fun _ _ => trivial
      · apply Triple.weaken (Throws.tryCatch fun _ => Throws.pure _)
        · exact fun _ _ => trivial
        · exact fun _ _ _ => trivial
        · exact fun _ _ ofKind => ofKind

theorem PromotionInput.drawLinks_acceptsIds :
    AcceptsIds (input.drawLinks env now) := by
  unfold PromotionInput.drawLinks
  apply Throws.bind
  · apply Throws.forM
    intro sup
    exact MemoryLinksRepository.insert_acceptsIds _
  · intro _
    apply Throws.forM
    exact PromotionInput.drawWikiLink_acceptsIds

theorem PromotionInput.checkFloorRetained_acceptsIds (minimum : Sensitivity) :
    AcceptsIds (input.checkFloorRetained env now memory minimum) := by
  unfold PromotionInput.checkFloorRetained
  apply Throws.bind (Throws.query _)
  intro stored
  apply Throws.bind (Throws.query _)
  intro receipt
  apply Throws.bind (resolveMinimum_acceptsIds _)
  intro resolved
  exact Throws.ensure id

theorem PromotionInput.commit_acceptsIds (withLinks : Bool)
    (minimum : Option Sensitivity) :
    AcceptsIds (input.commit env now withLinks memory minimum) := by
  unfold PromotionInput.commit
  apply Throws.bind (resolveMinimum_acceptsIds _)
  intro resolved
  apply Throws.bind (Throws.ensure id)
  intro _
  apply Throws.bind (Throws.forM PromotionInput.retire_acceptsIds)
  intro _
  apply Throws.bind (MemoryRepository.insert_acceptsIds memory)
  intro _
  apply Throws.bind (Throws.when PromotionInput.drawLinks_acceptsIds)
  intro _
  apply Throws.bind (AuditRepository.record_acceptsIds _)
  intro _
  exact Throws.forM PromotionInput.checkFloorRetained_acceptsIds

theorem promote_acceptsIds (dryRun withLinks : Bool) :
    AcceptsIds (promote env input dryRun withLinks now) := by
  unfold promote
  apply Throws.bind (resolveMinimum_acceptsIds _)
  intro minimum
  apply Throws.bind (Throws.ensure id)
  intro _
  apply Throws.bind (orSchemaError_acceptsIds _)
  intro memory
  apply Throws.bind
  · apply Throws.when
    apply Throws.transaction
    exact PromotionInput.commit_acceptsIds withLinks minimum
  · intro _
    exact Throws.pure memory

end Throws

theorem governCandidate_acceptsIds (options : MergeGovernOptions)
    (index : Nat) (memoryId : String) (candidate : MemoryCandidate)
    (progress : MergeProgress) :
    AcceptsIds
      (governCandidate env options index memoryId candidate progress) := by
  unfold governCandidate
  cases disclosureViolation env candidate with
  | some category => exact Throws.pure _
  | none =>
      apply Throws.bind (resolveMinimum_acceptsIds candidate)
      intro minimum
      cases mergeDecision env options progress.existingHashes candidate
          minimum with
      | error reason => exact Throws.pure _
      | ok pipelineResult =>
          apply Throws.bind (promote_acceptsIds options.dryRun false)
          intro memory
          exact Throws.pure _

theorem governUnion_acceptsIds (options : MergeGovernOptions) (index : Nat)
    (rows : List CuratedMemory) (progress : MergeProgress) :
    AcceptsIds (governUnion env options index rows progress) := by
  induction rows generalizing index progress with
  | nil => exact Throws.pure progress
  | cons memory rest induction =>
      unfold governUnion
      apply Throws.bind (orSchemaError_acceptsIds _)
      intro candidate
      apply Throws.bind (governCandidate_acceptsIds options index _ _ _)
      intro next
      exact induction (index + 1) next

theorem mergesCleanly_of_derivedIds {cloneA cloneB : List CuratedMemory}
    (derived : DerivedIds env (cloneA ++ cloneB)) :
    MergesCleanly env cloneA cloneB := by
  intro options store final error failed
  rw [mergeGovern_eq_governRows derived] at failed
  have accepted :
      AcceptsIds (governRows env options (mergeUnion (cloneA ++ cloneB))) := by
    unfold governRows
    apply Throws.bind (Throws.query _)
    intro existingHashes
    apply Throws.bind (governUnion_acceptsIds options 0 _ _)
    intro progress
    exact Throws.pure _
  exact accepted.ofKind failed

theorem mergeable_replace {store : Store} {row : CuratedMemory}
    (holds : Mergeable env store)
    (derived : row.lifecycle = .active → row.id = expectedId env row) :
    Mergeable env
      { store with
        curatedMemories := store.curatedMemories.replace row } := by
  intro memory member
  obtain ⟨inside, isActive⟩ := List.mem_filter.mp member
  have active : memory.lifecycle = .active := of_decide_eq_true isActive
  rcases Table.mem_replace_iff.mp inside with ⟨isRow, -⟩ | ⟨stored, -⟩
  · rw [isRow] at active ⊢
    exact derived active
  · exact holds memory (List.mem_filter.mpr ⟨stored, isActive⟩)

theorem SameClaim.expectedId {old new : CuratedMemory}
    (same : SameClaim old new) :
    Registrar.expectedId env new = Registrar.expectedId env old := by
  unfold Registrar.expectedId
  rw [same.candidateId, same.contentHash]

theorem Mergeable.derived {store : Store} {memory : CuratedMemory}
    (holds : Mergeable env store) {id : String}
    (found : store.curatedMemories.find? id = some memory)
    (active : memory.lifecycle = .active) :
    memory.id = expectedId env memory := by
  apply holds memory
  apply List.mem_filter.mpr
  exact ⟨(Table.find?_eq_some_iff.mp found).1, decide_eq_true active⟩

theorem promote_mergeable (input : PromotionInput) (dryRun withLinks : Bool)
    (now : String) :
    Keeps (Mergeable env) (promote env input dryRun withLinks now) := by
  apply promote_keeps
  intro memory minimum built
  obtain ⟨id, candidateId, -, -, contentHash, -⟩ :=
    PromotionInput.memory_eq_ok built
  constructor
  case appended => exact fun _ _ _ _ holds _ => holds
  case linked => exact fun _ _ holds => holds
  case retired =>
    intro sup _ store old link now holds _
    apply mergeable_replace holds
    intro active
    cases active
  case inserted =>
    intro store next holds inserted stored member
    obtain ⟨inside, isActive⟩ := List.mem_filter.mp member
    rw [Table.rows_of_insert? inserted] at inside
    rcases List.mem_append.mp inside with earlier | new
    · exact holds stored (List.mem_filter.mpr ⟨earlier, isActive⟩)
    · rw [List.mem_singleton.mp new, id]
      unfold expectedId
      rw [candidateId, contentHash]
      rfl

theorem maintain_mergeable (request : MaintenanceRequest) (store : Store)
    (holds : Mergeable env store)
    (keeps : KeepsLineage env store (.maintain request)) :
    Mergeable env (request.alone env store) := by
  have unchanged : ∀ current, current = store → Mergeable env current := by
    intro current same
    rw [same]
    exact holds
  have anyReceipt (kind : AuditEvent → Prop) :
      SurvivesAppend env kind (Mergeable env) :=
    fun _ _ _ _ kept _ => kept
  cases request with
  | narrowAudience input draw =>
      simp only [MaintenanceRequest.alone, Registrar.narrowAudience]
      rw [finalState_planOf (fun _ => planNarrowing_keeps input draw)
        (fun _ => rfl)]
      cases planned : planOf (planNarrowing input draw) store with
      | none => exact holds
      | some plan =>
          obtain ⟨final, ended⟩ := planOf_eq_some planned
          obtain ⟨-, -, memory, found, updated, -⟩ := planNarrowing_eq_ok ended
          refine Triple.finalState ?_ unchanged rfl
          apply commitNarrowing_triple
          · intro current same
            rw [same, updated]
            apply mergeable_replace holds
            intro active
            have derived : memory.id = expectedId env memory :=
              holds.derived found active
            exact derived
          · exact anyReceipt _
  | redactMemory input freshId now =>
      simp only [MaintenanceRequest.alone, Registrar.redactMemory]
      rw [finalState_planOf (fun _ => planRedaction_keeps input now)
        (fun _ => rfl)]
      cases planned : planOf (planRedaction env input now) store with
      | none => exact holds
      | some parts =>
          obtain ⟨plan, updated⟩ := parts
          obtain ⟨final, ended⟩ := planOf_eq_some planned
          obtain ⟨-, row, found, planFor, rewritten⟩ :=
            planRedaction_eq_ok ended
          have replaced : Mergeable env
              { store with
                curatedMemories := store.curatedMemories.replace updated } := by
            apply mergeable_replace holds
            intro active
            rw [rewritten.lifecycle] at active
            have sameHash : updated.contentHash = row.contentHash := by
              rw [← planFor.memory, rewritten.contentHash,
                planFor.newContentHash]
              apply keeps (plan, updated) planned
              rw [planFor.memory]
              exact active
            unfold expectedId
            rw [rewritten.id, rewritten.candidateId, sameHash]
            exact holds.derived found active
          rcases commitRedaction_finalState replaced (anyReceipt _)
              (fun _ _ kept => kept) with
            same | rewrittenNow
          · exact unchanged _ same
          · exact rewrittenNow
  | recategorize id request draw =>
      refine Triple.finalState ?_ unchanged rfl
      apply MemoryService.recategorize_triple
      · intro current memory category now same found
        rw [same] at found ⊢
        apply mergeable_replace holds
        intro active
        have derived : memory.id = expectedId env memory :=
          holds.derived found active
        exact derived
      · exact anyReceipt _
  | transition id target request draw =>
      refine Triple.finalState ?_ unchanged rfl
      apply MemoryService.transition_triple unchanged
      · intro current old new same found claim isTarget legal _
        rw [same] at found ⊢
        apply mergeable_replace holds
        intro active
        obtain ⟨member, oldId⟩ := Table.find?_eq_some_iff.mp found
        rw [isTarget] at active
        subst active
        rw [claim.id, claim.expectedId]
        exact keeps old member oldId
      · exact anyReceipt _

theorem governedStep_mergeable (store : Store) (step : GovernedStep)
    (holds : Mergeable env store) (keeps : KeepsLineage env store step) :
    Mergeable env (governedStep env store step) := by
  cases step with
  | promote input dryRun withLinks now =>
      exact Keeps.finalState (promote_mergeable input dryRun withLinks now)
        holds
  | maintain request => exact maintain_mergeable request store holds keeps

theorem run_mergeable {labels : List GovernedStep}
    (keeps : Always (governedStep env) (KeepsLineage env) Store.empty labels) :
    Mergeable env (run (governedStep env) Store.empty labels) := by
  apply invariant_of_always governedStep_mergeable _ keeps
  intro memory member
  cases member

/-- Two stores reached by steps that keep lineages can be merged into any
store, and every active row of theirs has the id of its lineage. -/
theorem reachable_mergeable {left right : List GovernedStep}
    (leftKeeps : Always (governedStep env) (KeepsLineage env) Store.empty left)
    (rightKeeps :
      Always (governedStep env) (KeepsLineage env) Store.empty right) :
    Mergeable env (run (governedStep env) Store.empty left) ∧
      Mergeable env (run (governedStep env) Store.empty right) ∧
      MergesCleanly env
        (activeRows (run (governedStep env) Store.empty left))
        (activeRows (run (governedStep env) Store.empty right)) := by
  have leftMergeable := run_mergeable leftKeeps
  have rightMergeable := run_mergeable rightKeeps
  refine ⟨leftMergeable, rightMergeable, ?_⟩
  apply mergesCleanly_of_derivedIds
  intro memory member
  rcases List.mem_append.mp member with inLeft | inRight
  · exact leftMergeable memory inLeft
  · exact rightMergeable memory inRight

def pagerCandidate : MemoryCandidate :=
  untrustedProjection
    (sampleMemory plainEnvironment "candidate"
      ⟨"Page Ann on 555-0100.", by decide +kernel, by simp⟩
      ⟨"Pager", by decide +kernel, by simp⟩)

def promotePager : GovernedStep :=
  .promote
    { candidate := pagerCandidate
      contentHash := computeContentHash plainEnvironment pagerCandidate.content
      minimumSensitivity := none
      pipelineResult := approvedResult pagerCandidate
      supersessions := []
      promotedBy := none
      promotionReason := none
      humanResolvedFlags := [] }
    false true "1"

def redactPagerInput (replacement : String) : RedactMemoryInput where
  memoryId := deriveMemoryId plainEnvironment "candidate"
    (computeContentHash plainEnvironment pagerCandidate.content)
  tenantId := "team"
  actor := "ann"
  reason := "A phone number"
  mode := .replacement replacement
  replacementTitle := some "On call"
  dryRun := false

def redactPager (replacement : String) : GovernedStep :=
  .maintain
    (.redactMemory (redactPagerInput replacement) (fun index => toString index)
      "2")

def redactedClone : List CuratedMemory :=
  activeRows (run (governedStep plainEnvironment) Store.empty
    [promotePager, redactPager "Page Ann."])

/-- The promoted row was rewritten and kept its id. -/
theorem redactedClone_refused :
    ¬ MergesCleanly plainEnvironment redactedClone [] := by
  intro clean
  have violated : (mergeIdViolation plainEnvironment
      (mergeUnion (redactedClone ++ []))).isSome := by
    decide +kernel
  obtain ⟨error, found⟩ := Option.isSome_iff_exists.mp violated
  have thrown : mergeGovern plainEnvironment redactedClone [] openMergeOptions
      Store.empty = .error error Store.empty := by
    unfold mergeGovern
    simp only [found]
    rfl
  obtain ⟨memory, -, rfl⟩ := Option.map_eq_some_iff.mp found
  exact clean _ _ _ _ thrown trivial

theorem reachable_mergeable_sameContent :
    Mergeable plainEnvironment
        (run (governedStep plainEnvironment) Store.empty
          [promotePager, redactPager pagerCandidate.content]) ∧
      Mergeable plainEnvironment
        (run (governedStep plainEnvironment) Store.empty [promotePager]) ∧
      MergesCleanly plainEnvironment
        (activeRows (run (governedStep plainEnvironment) Store.empty
          [promotePager, redactPager pagerCandidate.content]))
        (activeRows (run (governedStep plainEnvironment) Store.empty
          [promotePager])) := by
  apply reachable_mergeable
  · refine ⟨trivial, ?_, trivial⟩
    exact
      (by decide +kernel :
        ∀ planned ∈ planOf
          (planRedaction plainEnvironment
            (redactPagerInput pagerCandidate.content) "2")
          (governedStep plainEnvironment Store.empty promotePager),
          planned.1.memory.lifecycle = .active →
            computeContentHash plainEnvironment planned.1.newContent =
              planned.1.memory.contentHash)
  · exact ⟨trivial, trivial⟩

end Registrar
