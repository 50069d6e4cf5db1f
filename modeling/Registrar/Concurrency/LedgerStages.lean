import Registrar.Concurrency.ExplainedLifecycles
import Registrar.Curator.MergeCommutes
import Registrar.Daemon.Staleness
import Registrar.Library.Stages

/-!
# The lifecycle ledger

The writers of lifecycles in their separately committed stages.  An operation
that crashed is one whose next stage never comes.
-/

namespace Registrar

open Program Stages Transition

/-- A staleness sweep before its next memory. -/
structure StaleSweep where
  config : StalenessConfig
  freshId : Nat → String
  now : String
  /-- The receipt of this memory cannot be inserted. -/
  fails : String → Bool
  remaining : List CuratedMemory

def StaleSweep.draw (sweep : StaleSweep) : Draw where
  freshId := sweep.freshId sweep.remaining.length
  now := sweep.now

inductive LedgerRequest where
  | promote (planner : SupersessionPlanner) (input : PromotionInput)
      (withLinks : Bool) (now : String)
  | transition (id : String) (target : MemoryLifecycleState)
      (request : Except String TransitionRequest) (draw : Draw)
  | settle (value : Except String ReviewedStalenessManifest)
      (expectedDigest : String) (deps : ReviewedStalenessDependencies)
  | sweep (config : StalenessConfig) (freshId : Nat → String) (now : String)
      (fails : String → Bool)

inductive LedgerStage where
  /-- Nothing was read yet. -/
  | start (request : LedgerRequest)
  /-- A promotion has planned its supersessions. -/
  | commit (plan : PromotionPlan) (withLinks : Bool) (now : String)
  /-- A sweep is between two memories. -/
  | check (sweep : StaleSweep)
  /-- A sweep has found that the memory may be deprecated. -/
  | write (memory : CuratedMemory) (sweep : StaleSweep)
  /-- A sweep owes the memory its receipt. -/
  | receipt (memory : CuratedMemory) (sweep : StaleSweep)

variable (env)

def StaleSweep.begin (config : StalenessConfig) (freshId : Nat → String)
    (now : String) (fails : String → Bool) (store : Store) :
    Option StaleSweep :=
  match stalenessThreshold env config.staleDays now with
  | .error _ => none
  | .ok threshold =>
      some
        { config := config
          freshId := freshId
          now := now
          fails := fails
          remaining := tenantStale config threshold store.curatedMemories }

/-- The check of `updateLifecycle` for the next memory; a memory that is gone
still gets its receipt. -/
def StaleSweep.next (sweep : StaleSweep) (store : Store) :
    Option LedgerStage :=
  match sweep.remaining with
  | [] => none
  | memory :: rest =>
      let after := { sweep with remaining := rest }
      match checkLifecycle memory.id .deprecated store with
      | .ok (.ok _) _ => some (.write memory after)
      | .ok (.error _) _ => some (.receipt memory after)
      | .error _ _ => some (.check after)

def advanceLedger (store : Store) : LedgerStage → Store × Option LedgerStage
  | .start (.promote planner input withLinks now) =>
      (store,
        (planOf (preparePromotion env (input.withPlan env planner store) now)
          store).map fun plan => .commit plan withLinks now)
  | .start (.transition id target request draw) =>
      (finalState (MemoryService.transition env id target request draw) store,
        none)
  | .start (.settle value expectedDigest deps) =>
      (finalState (settleReviewedStaleness env value expectedDigest deps) store,
        none)
  | .start (.sweep config freshId now fails) =>
      (store, (StaleSweep.begin env config freshId now fails store).map .check)
  | .commit plan withLinks now =>
      (finalState (transaction
        (plan.input.commit env now withLinks plan.memory plan.minimum)) store,
        none)
  | .check sweep => (store, sweep.next store)
  | .write memory sweep =>
      (finalState (writeLifecycle memory.id .deprecated sweep.now) store,
        some (.receipt memory sweep))
  | .receipt memory sweep =>
      (if sweep.fails memory.id then store
      else
        finalState
          (AuditRepository.record env
            (demotedEvent env sweep.config memory sweep.draw)) store,
        some (.check sweep))

def ledgerSystem : System Store LedgerRequest LedgerStage where
  start request _ := some (.start request)
  advance stage store := advanceLedger env store stage

variable {env}

/-- What a sweep is about to write or to record is deprecated already. -/
def LedgerStage.ChangesNothing (stage : LedgerStage) (store : Store) : Prop :=
  match stage with
  | .write memory _ =>
      ∀ stored ∈ store.curatedMemories.rows, stored.id = memory.id →
        stored.lifecycle = .deprecated
  | .receipt memory sweep =>
      sweep.fails memory.id = false →
        ∀ stored ∈ store.curatedMemories.rows, stored.id = memory.id →
          stored.lifecycle = .deprecated
  | .start _ | .commit _ _ _ | .check _ => True

instance (stage : LedgerStage) (store : Store) :
    Decidable (stage.ChangesNothing store) := by
  cases stage <;> unfold LedgerStage.ChangesNothing <;> infer_instance

theorem writeLifecycle_deprecated {id updatedAt : String} {store : Store}
    {memory : CuratedMemory}
    (found : store.curatedMemories.find? id = some memory) :
    writeLifecycle id .deprecated updatedAt store =
      MemoryRepository.update
        { memory with
          lifecycle := .deprecated
          updatedAt := updatedAt
          supersededHasLink := fun retired => by cases retired } store := by
  unfold writeLifecycle
  rw [bind_apply_of_ok (query_apply _ _), found]
  rfl

/-- The check and the write, one after the other. -/
theorem updateLifecycle_eq_check (id updatedAt : String) (store : Store) :
    MemoryRepository.updateLifecycle id .deprecated updatedAt store =
      match checkLifecycle id .deprecated store with
      | .ok (.ok _) _ => writeLifecycle id .deprecated updatedAt store
      | .ok (.error changed) _ => .ok changed store
      | .error error _ => .error error store := by
  unfold MemoryRepository.updateLifecycle checkLifecycle
  rw [bind_apply_of_ok (query_apply _ _), bind_apply_of_ok (query_apply _ _)]
  cases found : store.curatedMemories.find? id with
  | none => rfl
  | some memory =>
      dsimp only
      by_cases same : memory.lifecycle = .deprecated
      · rw [if_pos same, if_pos same]
        dsimp only [Program.pure_apply]
        rw [writeLifecycle_deprecated found]
        cases memory
        cases same
        rfl
      · rw [if_neg same, if_neg same]
        by_cases forbidden : !isTransitionAllowed memory.lifecycle .deprecated
        · rw [if_pos forbidden, if_pos forbidden]
          rfl
        · rw [if_neg forbidden, if_neg forbidden]
          exact (writeLifecycle_deprecated found).symm

theorem writeLifecycle_total (id updatedAt : String) (store : Store) :
    ∃ changed, writeLifecycle id .deprecated updatedAt store =
      .ok changed
        (finalState (writeLifecycle id .deprecated updatedAt) store) := by
  cases found : store.curatedMemories.find? id with
  | none =>
      refine ⟨false, ?_⟩
      unfold finalState writeLifecycle
      rw [bind_apply_of_ok (query_apply _ _), found]
      rfl
  | some memory =>
      unfold finalState
      rw [writeLifecycle_deprecated found]
      exact ⟨_, rfl⟩

theorem sweepStale_cons (sweep : StaleSweep) (memory : CuratedMemory)
    (rest : List CuratedMemory) (result : StalenessSweepResult)
    (store : Store) :
    ∃ after : StalenessSweepResult,
      finalState
          (sweepStale env sweep.config sweep.freshId sweep.now (memory :: rest)
            result) store =
        finalState
          (sweepStale env sweep.config sweep.freshId sweep.now rest after)
          (finalState
            (deprecateStale env sweep.config memory
              { freshId := sweep.freshId rest.length
                now := sweep.now }) store) := by
  obtain ⟨failure, attempted⟩ := @attempt_apply _ _
    (deprecateStale env sweep.config memory
      { freshId := sweep.freshId rest.length
        now := sweep.now }) store
  rw [sweepStale, finalState_bind_of_ok attempted]
  exact ⟨_, rfl⟩

/-- The loop of a sweep whose receipts can be inserted, memory by memory. -/
theorem staleSweep_completes {remaining : List CuratedMemory}
    {sweep : StaleSweep} (isRemaining : sweep.remaining = remaining)
    (never : ∀ id, sweep.fails id = false) (result : StalenessSweepResult)
    (store : Store) :
    (ledgerSystem env).Completes (.check sweep) store
      (finalState
        (sweepStale env sweep.config sweep.freshId sweep.now remaining result)
        store) := by
  induction remaining generalizing sweep result store with
  | nil =>
      apply System.Completes.done
      simp only [ledgerSystem, advanceLedger, StaleSweep.next, isRemaining]
      rfl
  | cons memory rest induction =>
      let after : StaleSweep :=
        { sweep with
          remaining := rest }
      let records := AuditRepository.record env
        (demotedEvent env sweep.config memory after.draw)
      have owed (result : StalenessSweepResult) (middle : Store) :
          (ledgerSystem env).Completes (.receipt memory after) middle
            (finalState
              (sweepStale env sweep.config sweep.freshId sweep.now rest result)
              (finalState records middle)) := by
        apply System.Completes.next
        · simp only [ledgerSystem, advanceLedger]
          rw [never memory.id]
        · exact @induction after rfl never result _
      have updated := updateLifecycle_eq_check memory.id after.draw.now store
      let body := deprecateStale env sweep.config memory after.draw
      obtain ⟨_, continued⟩ := sweepStale_cons sweep memory rest result store
      change _ = finalState _ (finalState body store) at continued
      rw [continued]
      cases checked : checkLifecycle memory.id .deprecated store with
      | error error next =>
          rw [checked] at updated
          have skipped : finalState body store = store := by
            unfold body deprecateStale
            rw [finalState_bind_of_error updated]
          rw [skipped]
          apply System.Completes.next
          · simp only [ledgerSystem, advanceLedger, StaleSweep.next, isRemaining,
              checked]
            rfl
          · exact @induction after rfl never _ _
      | ok verdict next =>
          rw [checked] at updated
          cases verdict with
          | error changed =>
              have recorded : finalState body store =
                  finalState records store := by
                unfold body deprecateStale
                rw [finalState_bind_of_ok updated]
              rw [recorded]
              apply System.Completes.next _ (owed _ store)
              simp only [ledgerSystem, advanceLedger, StaleSweep.next,
                isRemaining, checked]
              rfl
          | ok _ =>
              obtain ⟨changed, written⟩ :=
                writeLifecycle_total memory.id after.draw.now store
              have recorded : finalState body store =
                  finalState records
                    (finalState
                      (writeLifecycle memory.id .deprecated after.draw.now)
                      store) := by
                unfold body deprecateStale
                rw [finalState_bind_of_ok (updated.trans written)]
              rw [recorded]
              apply System.Completes.next
              · simp only [ledgerSystem, advanceLedger, StaleSweep.next,
                  isRemaining, checked]
                rfl
              · exact .next rfl (owed _ _)

theorem sweep_alone_completes {config : StalenessConfig}
    {freshId : Nat → String} {now threshold : String} (store : Store)
    (dated : stalenessThreshold env config.staleDays now = .ok threshold) :
    (ledgerSystem env).Completes
      (.start (.sweep config freshId now fun _ => false)) store
      (finalState (runStalenessSweep env config freshId now) store) := by
  unfold runStalenessSweep
  rw [dated]
  dsimp only
  rw [finalState_bind_of_ok (query_apply _ _)]
  apply System.Completes.next
  · simp only [ledgerSystem, advanceLedger, StaleSweep.begin, dated]
    rfl
  · exact staleSweep_completes rfl (fun _ => rfl) _ _

/-- The memory that a promotion is about to insert is active under the id that
its receipt names. -/
def LedgerStage.Prepared (env : Environment) : LedgerStage → Prop
  | .commit plan _ _ =>
      plan.memory.id = plan.input.memoryId env ∧
        plan.memory.lifecycle = .active
  | .start _ | .check _ | .write _ _ | .receipt _ _ => True

theorem StaleSweep.next_prepared {sweep : StaleSweep} {store : Store}
    {stage : LedgerStage} (isNext : sweep.next store = some stage) :
    stage.Prepared env := by
  unfold StaleSweep.next at isNext
  split at isNext
  · cases isNext
  · split at isNext <;> cases isNext <;> trivial

theorem CuratedMemory.lifecycleRecord_deprecated {memory : CuratedMemory}
    (deprecated : memory.lifecycle = .deprecated) :
    memory.lifecycleRecord =
      { lifecycle := .deprecated
        replacement := none } := by
  simp [CuratedMemory.lifecycleRecord, deprecated]

/-- Deprecating what is deprecated only touches a timestamp. -/
theorem writeLifecycle_accounted {store : Store} (holds : Accounted store)
    {id updatedAt : String}
    (already : ∀ stored ∈ store.curatedMemories.rows, stored.id = id →
      stored.lifecycle = .deprecated) :
    Accounted
      (finalState (writeLifecycle id .deprecated updatedAt) store) := by
  unfold finalState
  cases found : store.curatedMemories.find? id with
  | none =>
      unfold writeLifecycle
      rw [bind_apply_of_ok (query_apply _ _), found]
      exact holds
  | some memory =>
      rw [writeLifecycle_deprecated found]
      dsimp only [MemoryRepository.update]
      obtain ⟨member, isId⟩ := Table.find?_eq_some_iff.mp found
      have same : memory.lifecycleRecord =
          { lifecycle := .deprecated
            replacement := none } :=
        CuratedMemory.lifecycleRecord_deprecated (already memory member isId)
      let new : CuratedMemory :=
        { memory with
          lifecycle := .deprecated
          updatedAt := updatedAt
          supersededHasLink := fun retired => by cases retired }
      apply (@Accounted.replace _ holds _ _ new found rfl).accounted
      dsimp only
      rw [← isId, (holds.explains memory member).2, same]
      rfl

theorem demotedEvent_tells {config : StalenessConfig} {memory : CuratedMemory}
    {draw : Draw} {event : AuditEvent}
    (accepted : AuditEvent.parse (demotedEvent env config memory draw) =
      .ok event) :
    event.memoryId = memory.id ∧ ¬IsPromotion event ∧
      receiptRecord event =
        some
          { lifecycle := .deprecated
            replacement := none } := by
  obtain ⟨tenantId, reason, -, rfl⟩ := AuditEvent.parse_eq_ok accepted
  refine ⟨rfl, ?_, rfl⟩
  rintro ⟨promoted, -⟩
  cases promoted

/-- The receipt of a sweep tells nothing new about what is deprecated. -/
theorem demotedEvent_accounted {config : StalenessConfig}
    {memory : CuratedMemory} {draw : Draw} :
    Keeps
      (fun store =>
        (∀ stored ∈ store.curatedMemories.rows, stored.id = memory.id →
          stored.lifecycle = .deprecated) ∧ Accounted store)
      (AuditRepository.record env (demotedEvent env config memory draw)) := by
  let record : LifecycleRecord :=
    { lifecycle := .deprecated
      replacement := none }
  apply @AuditRepository.record_keeps env _ fun event =>
    event.memoryId = memory.id ∧ ¬IsPromotion event ∧
      receiptRecord event = some record
  · rintro store event next ⟨own, notPromotion, tells⟩ ⟨already, holds⟩ inserted
    refine ⟨already, holds.append inserted notPromotion ?_⟩
    intro stored member same told isTold
    rw [tells] at isTold
    cases isTold
    exact (CuratedMemory.lifecycleRecord_deprecated
      (already stored member (same.symm.trans own))).symm
  · exact fun event accepted => demotedEvent_tells accepted

/-- A stage keeps the log in step, unless it is a sweep's half of a change. -/
theorem advanceLedger_accounted {stage : LedgerStage} {store : Store}
    (holds : Accounted store) (prepared : stage.Prepared env)
    (changesNothing : stage.ChangesNothing store) :
    Accounted (advanceLedger env store stage).1 ∧
      ∀ next ∈ (advanceLedger env store stage).2, next.Prepared env := by
  cases stage with
  | start request =>
      cases request with
      | promote planner input withLinks now =>
          refine ⟨holds, ?_⟩
          intro next isNext
          obtain ⟨plan, planned, rfl⟩ := Option.map_eq_some_iff.mp isNext
          obtain ⟨final, ended⟩ := planOf_eq_some planned
          obtain ⟨isInput, built⟩ := preparePromotion_eq_ok ended
          obtain ⟨isId, -, -, -, -, active, -⟩ :=
            PromotionInput.memory_eq_ok built
          rw [← isInput] at isId
          exact ⟨isId, active⟩
      | transition id target request draw =>
          refine ⟨(transition_accounted id target request draw).finalState
            holds, ?_⟩
          intro next isNext
          cases isNext
      | settle value expectedDigest deps =>
          refine ⟨(settleReviewedStaleness_accounted value expectedDigest
            deps).finalState holds, ?_⟩
          intro next isNext
          cases isNext
      | sweep config freshId now fails =>
          refine ⟨holds, ?_⟩
          intro next isNext
          obtain ⟨sweep, -, rfl⟩ := Option.map_eq_some_iff.mp isNext
          trivial
  | commit plan withLinks now =>
      have commits : Keeps Accounted (transaction
          (plan.input.commit env now withLinks plan.memory plan.minimum)) :=
        Triple.transaction (commit_accounted prepared.1 prepared.2 withLinks)
          fun _ _ start => start
      refine ⟨commits.finalState holds, ?_⟩
      intro next isNext
      cases isNext
  | check sweep =>
      exact ⟨holds, fun next isNext => StaleSweep.next_prepared isNext⟩
  | write memory sweep =>
      refine ⟨writeLifecycle_accounted holds changesNothing, ?_⟩
      intro next isNext
      cases isNext
      trivial
  | receipt memory sweep =>
      constructor
      · dsimp only [advanceLedger]
        cases fails : sweep.fails memory.id with
        | true => exact holds
        | false =>
            exact (demotedEvent_accounted.finalState
              ⟨changesNothing fails, holds⟩).2
      · intro next isNext
        cases isNext
        trivial

/-- In every state of a run in which no sweep writes a lifecycle or a receipt of
a memory that was not deprecated before, the log explains every lifecycle. -/
theorem log_explains_lifecycles {store : Store}
    {labels : List (Label LedgerRequest)} (explains : LogExplains store)
    (stored : PromotionsStored store)
    (changesNothing : Always (ledgerSystem env).step
      (System.Guarded LedgerStage.ChangesNothing) (Config.idle store) labels) :
    LogExplains
      (run (ledgerSystem env).step (Config.idle store) labels).shared := by
  have accounted : Accounted
      (run (ledgerSystem env).step (Config.idle store) labels).shared := by
    refine @System.invariant_of_guarded_stages _ _ _ (ledgerSystem env)
      Accounted LedgerStage.ChangesNothing _ _ (LedgerStage.Prepared env)
      ?_ ?_ ?_ ⟨explains, stored⟩ changesNothing
    · intro request store stage _ started
      cases started
      trivial
    · intro stage store holds prepared allowed
      exact advanceLedger_accounted holds prepared allowed
    · intro stage member
      cases member
  exact accounted.explains

/-- A sweep's write of any other memory leaves a lifecycle that the log does not
explain. -/
theorem write_unexplained {store : Store} (explains : LogExplains store)
    {memory : CuratedMemory} {sweep : StaleSweep}
    (changes : ¬(LedgerStage.write memory sweep).ChangesNothing store) :
    ¬LogExplains (advanceLedger env store (.write memory sweep)).1 := by
  unfold LedgerStage.ChangesNothing at changes
  push Not at changes
  obtain ⟨stored, member, isMemory, notDeprecated⟩ := changes
  have found : store.curatedMemories.find? memory.id = some stored :=
    Table.find?_eq_some_iff.mpr ⟨member, isMemory⟩
  let new : CuratedMemory :=
    { stored with
      lifecycle := .deprecated
      updatedAt := sweep.now
      supersededHasLink := fun retired => by cases retired }
  have written : (advanceLedger env store (.write memory sweep)).1 =
      { store with curatedMemories := store.curatedMemories.replace new } := by
    dsimp only [advanceLedger, finalState]
    rw [writeLifecycle_deprecated found]
    rfl
  rw [written]
  intro stillExplains
  have replayed := (stillExplains new (Table.mem_replace_iff.mpr
    (.inl ⟨rfl, stored, member, rfl⟩))).2
  dsimp only at replayed
  rw [(explains stored member).2] at replayed
  exact notDeprecated
    (congrArg LifecycleRecord.lifecycle (Option.some.inj replayed))

/-- Instants are written in milliseconds. -/
def millisecondEnvironment : Environment :=
  { plainEnvironment with
    dateParse := fun text =>
      some (text.toList.foldl
        (fun instant digit => 10 * instant + (digit.toNat - 48 : Int)) 0) }

def retroCandidate : MemoryCandidate :=
  untrustedProjection
    (sampleMemory millisecondEnvironment "candidate"
      ⟨"Retros are on Friday.", by decide +kernel, by simp⟩
      ⟨"Retros", by decide +kernel, by simp⟩)

def promoteRetro : LedgerRequest :=
  .promote .promotionService
    { candidate := retroCandidate
      contentHash :=
        computeContentHash millisecondEnvironment retroCandidate.content
      minimumSensitivity := none
      pipelineResult := approvedResult retroCandidate
      supersessions := []
      promotedBy := none
      promotionReason := none
      humanResolvedFlags := [] } false "1"

def sweepTeam : LedgerRequest :=
  .sweep
    { tenantId := "team"
      staleDays := 90 } (fun index => toString index) "8000000000"
    fun _ => false

/-- The sweep ends after it has written the lifecycle. -/
theorem deprecation_unexplained :
    LogExplains Store.empty ∧ PromotionsStored Store.empty ∧
      ¬LogExplains
        (run (ledgerSystem millisecondEnvironment).step
          (Config.idle Store.empty)
          [.start promoteRetro, .advance 0, .advance 0, .start sweepTeam,
            .advance 0, .advance 0, .advance 0]).shared := by
  refine ⟨by decide, fun _ _ => rfl, by decide +kernel⟩

theorem log_explains_lifecycles_archived :
    LogExplains
      (run (ledgerSystem millisecondEnvironment).step (Config.idle Store.empty)
        [.start promoteRetro, .advance 0, .advance 0,
          .start
            (.transition
              (deriveMemoryId millisecondEnvironment "candidate"
                (computeContentHash millisecondEnvironment
                  retroCandidate.content)) .archived
              (.ok
                { reason := ⟨"Moved", by decide +kernel, by simp⟩
                  actor := curatorActor
                  supersededBy := none })
              { freshId := "archived"
                now := "2" }), .advance 0]).shared :=
  log_explains_lifecycles (by decide) (fun _ _ => rfl) (by decide +kernel)

end Registrar
