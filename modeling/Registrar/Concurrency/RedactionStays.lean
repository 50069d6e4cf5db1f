import Registrar.Concurrency.Maintenance
import Registrar.Curator.MergeGate

/-!
# Redacted content under concurrent maintenance

The log of a store says which content was removed from which memory since a
position of it.  No interleaving of maintenance operations brings such content
back, provided no write carries content that was removed after it was read.
-/

namespace Registrar

open Program TwoPhase Transition

/-- The event records that content with this hash was removed from this
memory. -/
def AuditEvent.Removes (event : AuditEvent) (memoryId hash : String) : Prop :=
  event.action = .redacted ∧ event.memoryId = memoryId ∧
    event.detailText "target" = some "memory" ∧
    event.detailText "oldContentHash" = some hash ∧
    event.detailText "newContentHash" ≠ some hash

instance (event : AuditEvent) (memoryId hash : String) :
    Decidable (event.Removes memoryId hash) :=
  inferInstanceAs (Decidable (_ ∧ _ ∧ _ ∧ _ ∧ _))

/-- A record after the first `since` ones says so. -/
def RemovedSince (since : Nat) (store : Store) (memoryId hash : String) :
    Prop :=
  ∃ record ∈ store.auditEvents.rows.drop since,
    record.event.Removes memoryId hash

instance (since : Nat) (store : Store) (memoryId hash : String) :
    Decidable (RemovedSince since store memoryId hash) :=
  inferInstanceAs (Decidable (∃ record ∈ _, _))

variable (env : Environment) (since : Nat)

/-- No memory stores content that was removed from it. -/
def StaysGone (store : Store) : Prop :=
  ∀ memory ∈ store.curatedMemories.rows,
    ¬ RemovedSince since store memory.id
      (computeContentHash env memory.content.value)

instance (store : Store) : Decidable (StaysGone env since store) :=
  inferInstanceAs (Decidable (∀ memory ∈ _, ¬ _))

/-- The content that the plan writes was not removed from the memory since it
was read, and a redaction does not put back what it removes: its replacement,
trimmed, is not the old content under another hash. -/
def MaintenancePlan.WritesLiveContent : MaintenancePlan → Store → Prop
  | .narrowing plan, store =>
      ¬ RemovedSince since store plan.updated.id
        (computeContentHash env plan.updated.content.value)
  | .redaction plan _ _ _, store =>
      ¬ RemovedSince since store plan.memory.id
          (computeContentHash env (trim plan.newContent)) ∧
        (computeContentHash env (trim plan.newContent) =
            computeContentHash env plan.memory.content.value →
          computeContentHash env plan.newContent =
            computeContentHash env plan.memory.content.value)
  | .recategorize _ _ _, _ | .transition _ _ _ _, _ => True

instance (plan : MaintenancePlan) (store : Store) :
    Decidable (plan.WritesLiveContent env since store) :=
  match plan with
  | .narrowing _ => inferInstanceAs (Decidable (¬ _))
  | .redaction _ _ _ _ => inferInstanceAs (Decidable (_ ∧ _))
  | .recategorize _ _ _ => inferInstanceAs (Decidable True)
  | .transition _ _ _ _ => inferInstanceAs (Decidable True)

variable {env} {since}

theorem removedSince_append {store : Store} {next : AuditLog}
    {event : AuditEvent} {memoryId hash : String}
    (appended : store.auditEvents.insert?
      (appendedRecord env store.auditEvents event) = some next)
    (removed :
      RemovedSince since { store with auditEvents := next } memoryId hash) :
    RemovedSince since store memoryId hash ∨
      event.Removes memoryId hash := by
  obtain ⟨record, member, removes⟩ := removed
  rw [Table.rows_of_insert? appended, List.drop_append] at member
  rcases List.mem_append.mp member with earlier | new
  · exact .inl ⟨record, earlier, removes⟩
  · have isNew := List.mem_singleton.mp (List.mem_of_mem_drop new)
    rw [isNew] at removes
    exact .inr removes

theorem survivesAppend_staysGone {kind : AuditEvent → Prop}
    (noRedaction : ∀ event, kind event → event.action ≠ .redacted) :
    SurvivesAppend env kind (StaysGone env since) := by
  intro store event next ofKind holds appended memory member removed
  rcases removedSince_append appended removed with earlier | removes
  · exact holds memory member earlier
  · exact noRedaction event ofKind removes.1

theorem staysGone_replace {store : Store} {row : CuratedMemory}
    (holds : StaysGone env since store)
    (live : ¬ RemovedSince since store row.id
      (computeContentHash env row.content.value)) :
    StaysGone env since
      { store with
        curatedMemories := store.curatedMemories.replace row } := by
  intro memory member
  rcases Table.mem_replace_iff.mp member with ⟨rfl, -⟩ | ⟨stored, -⟩
  · exact live
  · exact holds memory stored

theorem staysGone_sameText {store : Store} {old new : CuratedMemory}
    (holds : StaysGone env since store)
    (found : store.curatedMemories.find? old.id = some old)
    (sameId : new.id = old.id) (sameContent : new.content = old.content) :
    StaysGone env since
      { store with
        curatedMemories := store.curatedMemories.replace new } := by
  apply staysGone_replace holds
  rw [sameId, sameContent]
  exact holds old (Table.find?_eq_some_iff.mp found).1

/-- The receipts of a redaction remove nothing that its row stores. -/
theorem survivesAppend_redaction {plan : RedactionPlan}
    {updated : CuratedMemory} (planFor : plan.For env plan.input plan.memory)
    (rewritten : RewrittenFrom plan plan.memory updated)
    (sameId : plan.memory.id = plan.input.memoryId)
    (clean : computeContentHash env (trim plan.newContent) =
        computeContentHash env plan.memory.content.value →
      computeContentHash env plan.newContent =
        computeContentHash env plan.memory.content.value) :
    SurvivesAppend env plan.IsReceipt fun store =>
      StaysGone env since store ∧
        ∀ memory ∈ store.curatedMemories.rows,
          memory.id = updated.id → memory = updated := by
  rintro store event next ⟨-, receipt⟩ ⟨holds, inPlace⟩ appended
  refine ⟨?_, inPlace⟩
  intro memory member removed
  rcases removedSince_append appended removed with earlier | removes
  · exact holds memory member earlier
  obtain ⟨-, sameMemory, target, old, new⟩ := removes
  rcases receipt with ⟨targetId, details⟩ | copy
  · have isUpdated : memory = updated := by
      apply inPlace memory member
      rw [← sameMemory, targetId, ← sameId, rewritten.id]
    obtain ⟨oldHash, newHash⟩ :=
      RedactionPlan.hashes_of_memoryDetails details
    rw [oldHash, planFor.oldContentHash, isUpdated, rewritten.content,
      Option.some.injEq] at old
    apply new
    rw [newHash, planFor.newContentHash, isUpdated, rewritten.content,
      clean old.symm, old]
  · rw [copy] at target
    simp at target

theorem maintenance_staysGone (plan : MaintenancePlan) (store : Store)
    (planned : plan.Planned env) (holds : StaysGone env since store)
    (live : plan.WritesLiveContent env since store) :
    StaysGone env since ((maintenance env).write plan store) := by
  have unchanged : ∀ current, current = store → StaysGone env since current := by
    rintro _ rfl
    exact holds
  cases plan with
  | narrowing plan =>
      refine Triple.finalState ?_ unchanged rfl
      apply commitNarrowing_triple
      · rintro _ rfl
        exact staysGone_replace holds live
      · apply survivesAppend_staysGone
        rintro event rfl
        rw [planned.1]
        simp
  | redaction plan updated freshId now =>
      obtain ⟨planFor, rewritten, sameId⟩ := planned
      let inPlace (current : Store) : Prop :=
        StaysGone env since current ∧
          ∀ memory ∈ current.curatedMemories.rows,
            memory.id = updated.id → memory = updated
      have replaced :
          inPlace
            { store with
              curatedMemories := store.curatedMemories.replace updated } := by
        constructor
        · apply staysGone_replace holds
          rw [rewritten.id, rewritten.content]
          exact live.1
        · intro memory member isUpdated
          rcases Table.mem_replace_iff.mp member with
            ⟨same, -⟩ | ⟨-, different⟩
          · exact same
          · exact absurd isUpdated different
      rcases commitRedaction_finalState replaced
          (survivesAppend_redaction planFor rewritten sameId live.2)
          (fun _ _ kept => kept) with
        same | rewrittenNow
      · exact unchanged _ same
      · exact rewrittenNow.1
  | recategorize id request draw =>
      refine Triple.finalState ?_ unchanged rfl
      apply MemoryService.recategorize_triple
      · rintro _ memory category now rfl found
        rw [← (Table.find?_eq_some_iff.mp found).2] at found
        exact staysGone_sameText holds found rfl rfl
      · apply survivesAppend_staysGone
        intro event recategorized
        rw [recategorized]
        simp
  | transition id target request draw =>
      refine Triple.finalState ?_ unchanged rfl
      apply MemoryService.transition_triple unchanged
      · rintro _ old new rfl found same _ _ _
        rw [← (Table.find?_eq_some_iff.mp found).2] at found
        exact staysGone_sameText holds found same.id same.content
      · apply survivesAppend_staysGone
        rintro event ⟨target, action⟩
        rw [action]
        cases target <;> simp [lifecycleToAction]

/-- In an interleaving whose writes carry live content, no memory ever stores
content that was removed from it in the course of the run. -/
theorem redacted_staysGone {store : Store}
    {labels : List (Label MaintenanceRequest)}
    (live : Always (maintenance env).step
      (System.Guarded (MaintenancePlan.WritesLiveContent env
        store.auditEvents.rows.length)) (Config.idle store) labels) :
    StaysGone env store.auditEvents.rows.length
      (run (maintenance env).step (Config.idle store) labels).shared := by
  apply System.invariant_of_writes maintenance_reads maintenance_staysGone _ _
    live
  · intro plan member
    cases member
  · intro memory _ removed
    obtain ⟨record, member, -⟩ := removed
    simp [Config.idle] at member

def leakyMemory : CuratedMemory :=
  sampleMemory plainEnvironment "candidate"
    ⟨"The door code is 4711.", by decide +kernel, by simp⟩
    ⟨"Door", by decide +kernel, by simp⟩

def redactLeak : MaintenanceRequest :=
  .redactMemory
    { memoryId := leakyMemory.id
      tenantId := "team"
      actor := "ann"
      reason := "Door code"
      mode := .replacement "The code was removed."
      replacementTitle := none
      dryRun := false } (fun index => toString index) "1"

def narrowLeak : MaintenanceRequest :=
  .narrowAudience
    { memoryId := leakyMemory.id
      tenantId := "team"
      target := "owner"
      actor := "ann"
      reason := "Door code"
      dryRun := false }
    { freshId := "narrowed"
      now := "2" }

/-- The narrowing reads the row before the redaction and writes it after. -/
theorem narrowing_resurrects :
    ¬ StaysGone plainEnvironment 0
      (run (maintenance plainEnvironment).step
        (Config.idle (storeOf leakyMemory))
        [.start narrowLeak, .start redactLeak, .commit 1,
          .commit 0]).shared := by
  decide +kernel

theorem redacted_staysGone_inOrder :
    StaysGone plainEnvironment 0
      (run (maintenance plainEnvironment).step
        (Config.idle (storeOf leakyMemory))
        [.start redactLeak, .commit 0, .start narrowLeak,
          .commit 0]).shared :=
  redacted_staysGone (by decide +kernel)

end Registrar
