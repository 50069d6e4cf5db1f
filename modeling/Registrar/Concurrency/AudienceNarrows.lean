import Registrar.Concurrency.Maintenance
import Registrar.Curator.MergeGate

/-!
# Audiences under concurrent maintenance

Every interleaving of maintenance operations keeps each audience at least as
narrow as it was, provided the writes that carry a tier read earlier come in
time.
-/

namespace Registrar

open Program TwoPhase Transition

/-- The rank of the tier that a memory effectively has. -/
def CuratedMemory.audienceRank (memory : CuratedMemory) : Nat :=
  Registrar.audienceRank (resolveAudience memory.metadata.audience)

/-- Every memory is still stored, with an audience as narrow as before. -/
def NeverWidens (before after : Store) : Prop :=
  ∀ old ∈ before.curatedMemories.rows, ∃ new ∈ after.curatedMemories.rows,
    new.id = old.id ∧ old.audienceRank ≤ new.audienceRank

instance (before after : Store) : Decidable (NeverWidens before after) :=
  inferInstanceAs (Decidable (∀ old ∈ _, ∃ new ∈ _, _ ∧ _))

theorem NeverWidens.refl (store : Store) : NeverWidens store store :=
  fun old member => ⟨old, member, rfl, le_refl _⟩

theorem neverWidens_replace {store : Store} {row : CuratedMemory}
    (narrower : ∀ stored ∈ store.curatedMemories.rows, stored.id = row.id →
      stored.audienceRank ≤ row.audienceRank) :
    NeverWidens store
      { store with
        curatedMemories := store.curatedMemories.replace row } := by
  have evolved : store.curatedMemories.Evolves
      (fun old new => old.audienceRank ≤ new.audienceRank) (fun _ => False)
      (store.curatedMemories.replace row) :=
    Table.evolves_replace (fun memory => le_refl memory.audienceRank) narrower
  exact evolved.survives

/-- The row stored under the plan's id is not narrower than the tier that the
plan writes: the tier that was asked for, or the one that was read. -/
def MaintenancePlan.InTime : MaintenancePlan → Store → Prop
  | .narrowing plan, store =>
      ∀ stored ∈ store.curatedMemories.rows, stored.id = plan.updated.id →
        stored.audienceRank ≤ Registrar.audienceRank plan.target
  | .redaction plan _ _ _, store =>
      ∀ stored ∈ store.curatedMemories.rows, stored.id = plan.memory.id →
        stored.audienceRank ≤ plan.memory.audienceRank
  | .recategorize _ _ _, _ | .transition _ _ _ _, _ => True

instance (plan : MaintenancePlan) (store : Store) :
    Decidable (plan.InTime store) := by
  cases plan <;> unfold MaintenancePlan.InTime <;> infer_instance

variable {env : Environment}

theorem survivesAppend_neverWidens (store : Store)
    (kind : AuditEvent → Prop) :
    SurvivesAppend env kind (NeverWidens store) :=
  fun _ _ _ _ holds _ => holds

theorem SameClaim.audienceRank {old new : CuratedMemory}
    (same : SameClaim old new) : new.audienceRank = old.audienceRank := by
  unfold CuratedMemory.audienceRank
  rw [same.metadata]

theorem maintenance_neverWidens (plan : MaintenancePlan) (store : Store)
    (planned : plan.Planned env) (inTime : plan.InTime store) :
    NeverWidens store ((maintenance env).write plan store) := by
  have unchanged : ∀ current, current = store → NeverWidens store current := by
    rintro _ rfl
    exact NeverWidens.refl _
  cases plan with
  | narrowing plan =>
      refine Triple.finalState ?_ unchanged rfl
      apply commitNarrowing_triple
      · rintro _ rfl
        apply neverWidens_replace
        intro stored member same
        have rank : plan.updated.audienceRank =
            Registrar.audienceRank plan.target :=
          congrArg Registrar.audienceRank planned.2
        rw [rank]
        exact inTime stored member same
      · exact survivesAppend_neverWidens store _
  | redaction plan updated freshId now =>
      obtain ⟨-, rewritten, -⟩ := planned
      have replaced :
          NeverWidens store
            { store with
              curatedMemories := store.curatedMemories.replace updated } := by
        apply neverWidens_replace
        intro stored member same
        have rank : updated.audienceRank = plan.memory.audienceRank := by
          unfold CuratedMemory.audienceRank
          rw [rewritten.metadata]
        rw [rank]
        exact inTime stored member (same.trans rewritten.id)
      rcases commitRedaction_finalState replaced
          (survivesAppend_neverWidens store _) (fun _ _ holds => holds) with
        same | narrowed
      · exact unchanged _ same
      · exact narrowed
  | recategorize id request draw =>
      refine Triple.finalState ?_ unchanged rfl
      apply MemoryService.recategorize_triple
      · rintro _ memory category now rfl found
        apply neverWidens_replace
        intro stored member same
        have isMemory := Table.eq_of_key_eq member
          (Table.find?_eq_some_iff.mp found).1 same
        rw [isMemory]
        exact le_refl _
      · exact survivesAppend_neverWidens store _
  | transition id target request draw =>
      refine Triple.finalState ?_ unchanged rfl
      apply MemoryService.transition_triple unchanged
      · rintro _ old new rfl found same _ _ _
        apply neverWidens_replace
        intro stored member sameId
        have isOld := Table.eq_of_key_eq member
          (Table.find?_eq_some_iff.mp found).1 (sameId.trans same.id)
        rw [isOld, same.audienceRank]
      · exact survivesAppend_neverWidens store _

/-- In an interleaving whose tiers are all written in time, no step widens an
audience. -/
theorem audience_neverWidens {store : Store}
    {labels : List (Label MaintenanceRequest)}
    (inTime : Always (maintenance env).step
      (System.Guarded MaintenancePlan.InTime) (Config.idle store) labels) :
    Always (maintenance env).step
      (System.Related (maintenance env) NeverWidens) (Config.idle store)
      labels := by
  apply System.related_of_writes maintenance_reads NeverWidens.refl
    maintenance_neverWidens _ inTime
  intro plan member
  cases member

def runbookMemory : CuratedMemory :=
  sampleMemory plainEnvironment "candidate"
    ⟨"Call the vendor first.", by decide +kernel, by simp⟩
    ⟨"Runbook", by decide +kernel, by simp⟩

/-- A request to narrow the runbook to a tier. -/
def narrowRunbook (target freshId : String) : MaintenanceRequest :=
  .narrowAudience
    { memoryId := runbookMemory.id
      tenantId := "team"
      target := target
      actor := "ann"
      reason := "Not for everyone"
      dryRun := false }
    { freshId := freshId
      now := "1" }

/-- Both narrowings read the row before either writes it. -/
theorem narrowings_race :
    ¬ Always (maintenance plainEnvironment).step
      (System.Related (maintenance plainEnvironment) NeverWidens)
      (Config.idle (storeOf runbookMemory))
      [.start (narrowRunbook "owner" "first"),
        .start (narrowRunbook "admins" "second"), .commit 0, .commit 0] := by
  decide +kernel

theorem audience_neverWidens_inOrder :
    Always (maintenance plainEnvironment).step
      (System.Related (maintenance plainEnvironment) NeverWidens)
      (Config.idle (storeOf runbookMemory))
      [.start (narrowRunbook "admins" "first"), .commit 0,
        .start (narrowRunbook "owner" "second"), .commit 0] :=
  audience_neverWidens (by decide +kernel)

end Registrar
