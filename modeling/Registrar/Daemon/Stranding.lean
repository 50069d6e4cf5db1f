import Registrar.Curator.CurationKeeps
import Registrar.Curator.SpoolArrivals
import Registrar.Daemon.Cycle
import Registrar.Library.Transition

/-!
# Stranded candidates

A cycle stores every candidate that arrives and curates those that the cap and
the scope leave over.  A candidate that it stored and did not curate is skipped
by all later cycles.
-/

namespace Registrar

open Program Transition

/-- The candidate with the columns that no cycle changes. -/
def MemoryCandidate.unstamped (candidate : MemoryCandidate) : MemoryCandidate :=
  { candidate with status := .inbox }

/-- The candidates of the rows that one table has and the earlier one lacks. -/
def insertedSince (before after : CandidateTable) : List MemoryCandidate :=
  (after.rows.filter fun row => (before.find? row.id).isNone).map
    fun row => row.candidate.unstamped

/-- The candidate is of the daemon's tenant and in the scope of the cycle. -/
def IsOwed (env : Environment) (config : DaemonConfig) (input : CycleInput)
    (candidate : MemoryCandidate) : Prop :=
  candidate.tenantId = config.tenantId ∧
    (resolveScopedRemoteUrl config input).all (inRepoScope env · candidate) =
      true

instance (env : Environment) (config : DaemonConfig) (input : CycleInput)
    (candidate : MemoryCandidate) :
    Decidable (IsOwed env config input candidate) :=
  inferInstanceAs (Decidable (_ ∧ _))

/-- The daemon between two cycles: the store, the candidates that earlier
cycles inserted and have to curate, and those passed to the curator. -/
structure DaemonRun where
  store : Store
  owed : List MemoryCandidate
  passed : List MemoryCandidate

def DaemonRun.begin (store : Store) : DaemonRun where
  store := store
  owed := []
  passed := []

variable (env : Environment)

/-- The state after a cycle that left this store and passed on these. -/
def DaemonRun.after (state : DaemonRun) (config : DaemonConfig)
    (input : CycleInput) (final : Store) (passed : List MemoryCandidate) :
    DaemonRun where
  store := final
  owed := state.owed ++
    (insertedSince state.store.candidates final.candidates).filter
      (IsOwed env config input ·)
  passed := state.passed ++ passed

def daemonStep (state : DaemonRun) (cycle : DaemonConfig × CycleInput) :
    DaemonRun :=
  match runCycle env cycle.1 cycle.2 state.store with
  | .ok result final => state.after env cycle.1 cycle.2 final result.passed
  | .error _ final => state.after env cycle.1 cycle.2 final []

/-- Every candidate that a cycle owes was passed to the curator. -/
def NoneStranded (state : DaemonRun) : Prop :=
  ∀ candidate ∈ state.owed, ∃ curated ∈ state.passed,
    curated.unstamped = candidate

instance (state : DaemonRun) : Decidable (NoneStranded state) :=
  inferInstanceAs (Decidable (∀ candidate ∈ state.owed,
    ∃ curated ∈ state.passed, curated.unstamped = candidate))

/-- The cycle reports no error: of the ingestion, or of a curation. -/
def CompletesCleanly (state : DaemonRun) (cycle : DaemonConfig × CycleInput) :
    Prop :=
  (match runCycle env cycle.1 cycle.2 state.store with
  | .ok result _ =>
      result.ingest.errors = [] &&
        (result.passed = [] || result.curation.isSome)
  | .error _ _ => false) = true

instance (state : DaemonRun) (cycle : DaemonConfig × CycleInput) :
    Decidable (CompletesCleanly env state cycle) :=
  inferInstanceAs (Decidable (_ = true))

def cycleArrivals (config : DaemonConfig) (input : CycleInput)
    (store : Store) : Arrivals :=
  match input.spool with
  | .error _ => .begin
  | .ok files =>
      spoolArrivals env input.faults store
        { verifyManifest := true
          importBatchRepo := config.importBatchRepo } files

/-- Of what arrives, everything that the cycle owes is within its cap, and if
the ingestion fails there is nothing of the kind. -/
def FitsCycle (state : DaemonRun) (cycle : DaemonConfig × CycleInput) : Prop :=
  let arrivals := cycleArrivals env cycle.1 cycle.2 state.store
  cycle.2.memoryCaptureEnabled = true →
    ∀ candidate ∈ arrivals.arrived, IsOwed env cycle.1 cycle.2 candidate →
      arrivals.failed = false ∧
        candidate ∈ arrivals.arrived.take cycle.1.maxCandidatesPerCycle

instance (state : DaemonRun) (cycle : DaemonConfig × CycleInput) :
    Decidable (FitsCycle env state cycle) :=
  inferInstanceAs (Decidable (_ = true → ∀ candidate ∈ _, _ → _ = false ∧ _))

variable {env} {config : DaemonConfig} {input : CycleInput}

section Sweep

variable {invariant : Store → Prop}

theorem sweepStale_keeps
    (leads : ∀ id, LifecycleLeads id .deprecated invariant invariant)
    (appended : SurvivesAppend env (fun _ => True) invariant)
    (sweep : StalenessConfig) (freshId : Nat → String) (now : String)
    (memories : List CuratedMemory) (result : StalenessSweepResult) :
    Keeps invariant (sweepStale env sweep freshId now memories result) := by
  induction memories generalizing result with
  | nil => exact Keeps.pure result
  | cons memory rest induction =>
      unfold sweepStale
      apply Keeps.bind
      · apply Keeps.tryCatch
        · apply Keeps.bind
          · unfold deprecateStale
            apply Keeps.bind
            · exact MemoryRepository.updateLifecycle_triple
                (fun _ start => start) (leads memory.id)
            · intro _
              exact AuditRepository.record_keeps appended fun _ _ => trivial
          · intro _
            exact Keeps.pure _
        · intro error
          exact Keeps.pure _
      · intro failure
        exact induction _

theorem runStalenessSweep_keeps
    (leads : ∀ id, LifecycleLeads id .deprecated invariant invariant)
    (appended : SurvivesAppend env (fun _ => True) invariant)
    (sweep : StalenessConfig) (freshId : Nat → String) (now : String) :
    Keeps invariant (runStalenessSweep env sweep freshId now) := by
  unfold runStalenessSweep
  cases stalenessThreshold env sweep.staleDays now with
  | error error => exact Keeps.throw _
  | ok threshold =>
      apply Keeps.bind (Keeps.query _)
      intro stale
      exact sweepStale_keeps leads appended _ _ _ _ _

end Sweep

/-- The candidates of the store, whatever their status. -/
def HoldsCandidates (candidates : List MemoryCandidate) (store : Store) :
    Prop :=
  store.candidates.rows.map (·.candidate.unstamped) = candidates

theorem holdsCandidates_survives (candidates : List MemoryCandidate) :
    SurvivesCuration env (HoldsCandidates candidates) where
  appended := fun _ _ _ _ holds _ => holds
  held := by
    intro id tenantId
    constructor
    intro store holds
    unfold CandidateRepository.updateStatus HoldsCandidates
    dsimp only
    rw [← holds]
    unfold Table.updateWhere
    rw [List.map_map]
    apply List.map_congr_left
    intro row _
    dsimp only [Function.comp]
    split_ifs <;> rfl
  promoted := fun _ _ _ _ _ =>
    { appended := fun _ _ _ _ holds _ => holds
      linked := fun _ _ holds => holds
      retired := fun _ _ _ _ _ _ holds _ => holds
      inserted := fun _ _ holds _ => holds }

theorem scopeCandidates_eq_filter (candidates : List MemoryCandidate)
    (remoteUrl : Option String) :
    scopeCandidates env candidates remoteUrl =
      candidates.filter fun candidate =>
        remoteUrl.all (inRepoScope env · candidate) := by
  cases remoteUrl with
  | none => simp [scopeCandidates]
  | some remoteUrl => rfl

/-- What the ingestion hands on: what arrived within the cap and the scope,
or nothing if it failed. -/
def handedOn (env : Environment) (config : DaemonConfig) (input : CycleInput)
    (arrivals : Arrivals) : List MemoryCandidate :=
  if arrivals.failed then []
  else
    scopeCandidates env (arrivals.arrived.take config.maxCandidatesPerCycle)
      (resolveScopedRemoteUrl config input)

theorem ingestStep_foreseen (store : Store) :
    ∃ ingested final,
      ingestStep env config input (resolveScopedRemoteUrl config input) store =
          .ok ingested final ∧
        Foreseen store (cycleArrivals env config input store) final ∧
        ingested.2 =
          handedOn env config input (cycleArrivals env config input store) := by
  unfold ingestStep ingestFromSpoolDetailed cycleArrivals
  cases spool : input.spool with
  | error error =>
      refine ⟨failedIngest (.message error), store, rfl, Foreseen.begin store,
        ?_⟩
      simp [handedOn, failedIngest, Arrivals.begin, scopeCandidates_eq_filter]
  | ok files =>
      have loop := @ingestFromSpoolDetailed_foreseen env input.faults store
        { verifyManifest := true
          importBatchRepo := config.importBatchRepo } input.now files
      dsimp only
      cases ended : ingestFiles env
          { verifyManifest := true
            importBatchRepo := config.importBatchRepo } input.faults input.now
          files .empty store with
      | ok result final =>
          rw [ended] at loop
          refine ⟨settleIngest env config
              (resolveScopedRemoteUrl config input) result, final,
            tryCatch_apply_of_ok ?_, loop.foreseen, ?_⟩
          · rw [bind_assoc, bind_apply_of_ok ended]
            rfl
          · simp [handedOn, loop.going, loop.ingested, settleIngest]
      | error error final =>
          rw [ended] at loop
          refine ⟨failedIngest (.raised error), final,
            (tryCatch_apply_of_error ?_).trans rfl, loop.2, ?_⟩
          · rw [bind_assoc, bind_apply_of_error ended]
          · simp [handedOn, loop.1, failedIngest]

section Govern

variable (candidates : List MemoryCandidate)

theorem curateIngested_triple (ingested : List MemoryCandidate) :
    Triple (HoldsCandidates candidates)
      (curateIngested env config input ingested)
      (fun _ => HoldsCandidates candidates) fun _ _ => False := by
  unfold curateIngested
  apply Triple.ite
  · intro _
    exact Triple.pure _ fun _ holds => holds
  · intro _
    apply Keeps.recover
    apply Keeps.bind
      (processBatch_keeps (holdsCandidates_survives candidates) _ _ _)
    intro curation
    exact Keeps.pure _

theorem stalenessStep_triple :
    Triple (HoldsCandidates candidates) (stalenessStep env config input)
      (fun _ => HoldsCandidates candidates) fun _ _ => False := by
  unfold stalenessStep
  apply Triple.ite
  · intro _
    apply Keeps.recover
    apply Keeps.bind
    · exact runStalenessSweep_keeps (fun _ _ _ _ holds _ _ _ _ _ => holds)
        (fun _ _ _ _ holds _ => holds) _ _ _
    · intro swept
      exact Keeps.pure _
  · intro _
    exact Triple.pure _ fun _ holds => holds

theorem governStep_triple
    (ingested : IngestStepResult × List MemoryCandidate) :
    Triple (HoldsCandidates candidates) (governStep env config input ingested)
      (fun result store => result.passed = ingested.2 ∧
        HoldsCandidates candidates store)
      fun _ _ => False := by
  unfold governStep
  apply Triple.bind (curateIngested_triple candidates ingested.2)
  intro curation
  apply Triple.bind (stalenessStep_triple candidates)
  intro staleness
  exact Triple.pure _ fun _ holds => ⟨rfl, holds⟩

end Govern

/-- A cycle stores all that arrives and passes on what the ingestion hands
on. -/
theorem runCycle_foreseen (enabled : input.memoryCaptureEnabled = true)
    (store : Store) :
    ∃ result final,
      runCycle env config input store = .ok result final ∧
        final.candidates.rows.map (·.candidate.unstamped) =
          store.candidates.rows.map (·.candidate.unstamped) ++
            (cycleArrivals env config input store).arrived.map
              MemoryCandidate.unstamped ∧
        result.passed =
          handedOn env config input (cycleArrivals env config input store) := by
  obtain ⟨ingested, stored, ingestion, foreseen, handed⟩ :=
    @ingestStep_foreseen env config input store
  have govern := (@governStep_triple env config input
    (stored.candidates.rows.map fun row : CandidateRow =>
      row.candidate.unstamped) ingested).run stored rfl
  unfold runCycle
  rw [if_pos enabled, bind_apply_of_ok ingestion]
  cases ended : governStep env config input ingested stored with
  | error error final =>
      rw [ended] at govern
      exact govern.elim
  | ok result final =>
      rw [ended] at govern
      refine ⟨result, final, rfl, govern.2.trans ?_, govern.1.trans handed⟩
      have rows := congrArg (List.map MemoryCandidate.unstamped)
        foreseen.candidates
      simpa [Function.comp_def] using rows

theorem mem_insertedSince {before after : CandidateTable}
    {arrived : List MemoryCandidate}
    (rows : after.rows.map (·.candidate.unstamped) =
      before.rows.map (·.candidate.unstamped) ++
        arrived.map MemoryCandidate.unstamped)
    {candidate : MemoryCandidate}
    (inserted : candidate ∈ insertedSince before after) :
    ∃ arrival ∈ arrived, arrival.unstamped = candidate := by
  obtain ⟨row, member, rfl⟩ := List.mem_map.mp inserted
  obtain ⟨inside, isNew⟩ := List.mem_filter.mp member
  have listed : row.candidate.unstamped ∈
      after.rows.map (·.candidate.unstamped) :=
    List.mem_map_of_mem inside
  rw [rows, List.mem_append] at listed
  rcases listed with earlier | arrival
  · obtain ⟨old, oldMember, same⟩ := List.mem_map.mp earlier
    have sameId := congrArg MemoryCandidate.id same
    have absent : before.find? row.id = none := by simpa using isNew
    exact absurd sameId (Table.find?_eq_none_iff.mp absent old oldMember)
  · exact List.mem_map.mp arrival

/-- A cycle that fits passes on everything that it owes. -/
theorem daemonStep_noneStranded {state : DaemonRun}
    {cycle : DaemonConfig × CycleInput} (kept : NoneStranded state)
    (fits : FitsCycle env state cycle) :
    NoneStranded (daemonStep env state cycle) := by
  obtain ⟨config, input⟩ := cycle
  have advance (final : Store) (passed : List MemoryCandidate)
      (pays : ∀ candidate ∈
        insertedSince state.store.candidates final.candidates,
          IsOwed env config input candidate →
            ∃ curated ∈ passed, curated.unstamped = candidate) :
      NoneStranded (state.after env config input final passed) := by
    intro candidate owed
    rcases List.mem_append.mp owed with earlier | new
    · obtain ⟨curated, member, same⟩ := kept candidate earlier
      exact ⟨curated, List.mem_append_left _ member, same⟩
    · obtain ⟨inserted, isOwed⟩ := List.mem_filter.mp new
      obtain ⟨curated, member, same⟩ :=
        pays candidate inserted (of_decide_eq_true isOwed)
      exact ⟨curated, List.mem_append_right _ member, same⟩
  unfold daemonStep
  by_cases enabled : input.memoryCaptureEnabled = true
  · obtain ⟨result, final, ended, rows, passed⟩ :=
      @runCycle_foreseen env config input enabled state.store
    simp only [ended]
    apply advance
    intro candidate inserted isOwed
    obtain ⟨arrival, arrived, same⟩ := mem_insertedSince rows inserted
    have owedArrival : IsOwed env config input arrival := by
      rw [← same] at isOwed
      exact isOwed
    obtain ⟨going, within⟩ := fits enabled arrival arrived owedArrival
    refine ⟨arrival, ?_, same⟩
    rw [passed, handedOn, going, scopeCandidates_eq_filter]
    exact List.mem_filter.mpr ⟨within, owedArrival.2⟩
  · have skipped : runCycle env config input state.store =
        .ok skippedCycle state.store := by
      unfold runCycle
      rw [if_neg enabled]
      rfl
    simp only [skipped]
    apply advance
    intro candidate inserted
    obtain ⟨arrival, arrived, -⟩ :=
      @mem_insertedSince _ _ [] (by simp) _ inserted
    cases arrived

/-- In a run of cycles into each of which its spool fits, no candidate that a
cycle inserted and owed is left without curation. -/
theorem cycles_noneStranded {store : Store}
    {cycles : List (DaemonConfig × CycleInput)}
    (fits : Always (daemonStep env) (FitsCycle env) (.begin store) cycles) :
    NoneStranded (run (daemonStep env) (.begin store) cycles) := by
  apply invariant_of_always
  · intro state cycle kept fitsCycle
    exact daemonStep_noneStranded kept fitsCycle
  · intro candidate owed
    cases owed
  · exact fits

def agentProposal (id content : String) : MemoryCandidate where
  id := id
  status := .inbox
  source := .mcp
  content := content
  title := id
  category := .convention
  trustLevel := .medium
  author :=
    { type := .ai
      id := ⟨"mcp-server", trim_mcpServer, mcpServer_nonempty⟩
      name := none }
  tenantId := "team"
  metadata :=
    { filePaths := []
      language := none
      projectContext := none
      sessionId := none
      repoUrl := none
      branch := none
      confidence := none
      sensitivity := none
      tags := []
      subjects := none
      proposedByRole := none
      audience := none }
  prePolicyFlags :=
    { potentialSecret := false
      lowConfidence := false
      duplicateSuspect := false }
  capturedAt := "0"
  origin := none

def twoProposals : List MemoryCandidate :=
  [agentProposal "Deploys" "Deploy on Friday.",
    agentProposal "Reviews" "Review before lunch."]

/-- A spool file without a manifest. -/
def plainFile (candidates : List MemoryCandidate)
    (parsed : ∀ candidate ∈ candidates, candidate.parse = .ok candidate) :
    SpoolFile where
  path := "spool/candidates.jsonl"
  manifest := .ok
    { status := .noManifest
      expected := none
      actual := none
      candidateIds := none
      batchReceipt := none }
  candidates := .ok candidates
  parsed := by
    intro read same
    cases same
    exact parsed

def teamDaemon (maxCandidatesPerCycle : Nat) : DaemonConfig where
  tenantId := "team"
  maxCandidatesPerCycle := maxCandidatesPerCycle
  scopeByRepo := false
  supersessionThreshold := 3 / 5
  enableStalenessSweep := false
  staleDays := 90
  importBatchRepo := true

/-- A cycle that finds nothing but this file, and no error. -/
def quietInput (file : SpoolFile) : CycleInput where
  memoryCaptureEnabled := true
  remoteUrl := none
  spool := .ok [file]
  faults := fun _ => none
  originSecret := none
  holdLimits :=
    { ttlDays := none
      maxActiveHolds := none }
  draw := fun index =>
    { freshId := toString index
      now := "1" }
  freshId := fun index => toString index
  now := "1"

def proposalsInput : CycleInput :=
  quietInput (plainFile twoProposals (by decide +kernel))

/-- The daemon after its first cycle, which stored both proposals. -/
def cappedDaemon : DaemonRun :=
  daemonStep plainEnvironment (.begin .empty) (teamDaemon 1, proposalsInput)

/-- The second proposal is cut off by the cap of the first cycle and skipped by
the two that follow. -/
theorem cappedProposal_stranded :
    cappedDaemon.owed = twoProposals ∧
      Always (daemonStep plainEnvironment) (CompletesCleanly plainEnvironment)
        cappedDaemon (List.replicate 2 (teamDaemon 1, proposalsInput)) ∧
      ¬ NoneStranded
        (run (daemonStep plainEnvironment) cappedDaemon
          (List.replicate 2 (teamDaemon 1, proposalsInput))) := by
  decide +kernel

theorem cycles_noneStranded_bothProposals :
    NoneStranded
      (run (daemonStep plainEnvironment) (.begin .empty)
        (List.replicate 3 (teamDaemon 2, proposalsInput))) := by
  apply cycles_noneStranded
  decide +kernel

end Registrar
