import Registrar.Curator.Curator
import Registrar.Curator.SpoolIntake
import Registrar.Daemon.Staleness

/-!
# The daemon's cycle

One poll: ingest the spool, curate what was ingested, sweep stale memories.
Each step catches its own errors, so that the next one runs.  The export and
index steps write no table of this store.
-/

namespace Registrar

open Program

structure DaemonConfig where
  tenantId : String
  maxCandidatesPerCycle : Nat
  scopeByRepo : Bool
  supersessionThreshold : ℚ
  enableStalenessSweep : Bool
  staleDays : Nat
  /-- The daemon was started with the ledger of batches. -/
  importBatchRepo : Bool
  deriving DecidableEq

/-- What a cycle finds outside the store. -/
structure CycleInput where
  memoryCaptureEnabled : Bool
  /-- The remote that the repository resolver yields. -/
  remoteUrl : Option String
  spool : Except String (List SpoolFile)
  faults : StoreFaults
  originSecret : Option String
  holdLimits : HoldLimits
  draw : Nat → Draw
  freshId : Nat → String
  now : String

/-- Drop one trailing `.git`. -/
def stripGit (url : String) : String :=
  if url.endsWith ".git" then (url.dropEnd 4).toString else url

variable (env : Environment)

def normalizeUrl (url : String) : String :=
  env.toLowerCase (stripGit (trim url))

/-- A candidate without a repository is in every scope. -/
def inRepoScope (expectedRemoteUrl : String) (candidate : MemoryCandidate) :
    Bool :=
  match candidate.metadata.repoUrl with
  | none => true
  | some "" => true
  | some candidateUrl =>
      normalizeUrl env candidateUrl = normalizeUrl env expectedRemoteUrl

structure RepoScopeResult where
  kept : List MemoryCandidate
  skipped : Nat
  unscoped : Nat
  deriving DecidableEq

def filterByRepoScope (candidates : List MemoryCandidate)
    (expectedRemoteUrl : String) : RepoScopeResult where
  kept := candidates.filter (inRepoScope env expectedRemoteUrl)
  skipped := candidates.countP (!inRepoScope env expectedRemoteUrl ·)
  unscoped := candidates.countP (·.metadata.repoUrl.all (· = ""))

/-- The remote to scope by; without one the filter is off for this cycle. -/
def resolveScopedRemoteUrl (config : DaemonConfig) (input : CycleInput) :
    Option String :=
  if config.scopeByRepo then input.remoteUrl.filter (· ≠ "") else none

/-- The candidates that a cycle curates, if it ingested these. -/
def scopeCandidates (candidates : List MemoryCandidate) :
    Option String → List MemoryCandidate
  | none => candidates
  | some remoteUrl => (filterByRepoScope env candidates remoteUrl).kept

structure SpoolIntakeSummary where
  ingestedCandidates : Nat
  disclosureRejectedCandidates : Nat
  pii : Nat
  compensation : Nat
  secret : Nat
  tamperedFiles : Nat
  admissionRejectedFiles : Nat
  deriving DecidableEq, Repr

def summarizeSpoolIntake (result : IngestResult) : SpoolIntakeSummary :=
  let count (category : DisclosureCategory) : Nat :=
    result.rejected.countP (·.category = category)
  { ingestedCandidates := result.ingested.length
    disclosureRejectedCandidates := result.rejected.length
    pii := count .pii
    compensation := count .compensation
    secret := count .secret
    tamperedFiles := result.tampered.length
    admissionRejectedFiles := result.admissionRejected.length }

inductive IngestStepError where
  | message (text : String)
  | raised (error : RegistrarError)
  deriving DecidableEq

structure IngestStepResult where
  ingested : Nat
  errors : List IngestStepError
  summary : Option SpoolIntakeSummary
  deriving DecidableEq

def admissionRefused (rejection : SpoolAdmissionRejection) : IngestStepError :=
  .message ("Broad/bulk spool admission refused for " ++ rejection.spoolFile ++
    ": " ++ rejection.reason)

def cappedIngestion (found processing : Nat) : IngestStepError :=
  .message ("Capped ingestion: " ++ toString found ++ " found, processing " ++
    toString processing)

/-- What the step hands on of a spool that was ingested. -/
def settleIngest (config : DaemonConfig) (resolvedRemoteUrl : Option String)
    (result : IngestResult) : IngestStepResult × List MemoryCandidate :=
  let found := result.ingested.length
  let capped := result.ingested.take config.maxCandidatesPerCycle
  let kept := scopeCandidates env capped resolvedRemoteUrl
  ({ ingested := kept.length
     errors := result.admissionRejected.map admissionRefused ++
       if config.maxCandidatesPerCycle < found then
         [cappedIngestion found config.maxCandidatesPerCycle]
       else []
     summary := some (summarizeSpoolIntake result) }, kept)

/-- The step ended early: nothing is handed on. -/
def failedIngest (error : IngestStepError) :
    IngestStepResult × List MemoryCandidate :=
  ({ ingested := 0
     errors := [error]
     summary := none }, [])

def ingestStep (config : DaemonConfig) (input : CycleInput)
    (resolvedRemoteUrl : Option String) :
    StoreM (IngestStepResult × List MemoryCandidate) :=
  tryCatch
    (do
      let detailed ← ingestFromSpoolDetailed env input.spool
        { verifyManifest := true
          importBatchRepo := config.importBatchRepo } input.faults input.now
      match detailed with
      | .error error => pure (failedIngest (.message error))
      | .ok result => pure (settleIngest env config resolvedRemoteUrl result))
    fun error => pure (failedIngest (.raised error))

/-- The daemon's curator draws no links and keeps the default caps. -/
def DaemonConfig.curator (config : DaemonConfig) (input : CycleInput) :
    CuratorConfig where
  tenantId := config.tenantId
  dryRun := false
  supersessionThreshold := some config.supersessionThreshold
  supersessionMode := .apply
  maxSupersedesPerPromotion := none
  maxSupersedesPerRun := none
  suppressRejectionReceipts := false
  originSecret := input.originSecret
  holdLimits := input.holdLimits
  withLinks := false

def withDraws (input : CycleInput) (candidates : List MemoryCandidate) :
    List (MemoryCandidate × Draw) :=
  candidates.zipIdx.map fun entry => (entry.1, input.draw entry.2)

/-- The whole batch, with a curator of its own. -/
def curateStep (config : DaemonConfig) (input : CycleInput)
    (candidates : List MemoryCandidate) :
    StoreM (Option Curator.BatchResult) :=
  tryCatch
    (do
      let (curation, _) ← Curator.processBatch env (config.curator input)
        .fresh (withDraws input candidates)
      pure (some curation))
    fun _ => pure none

def stalenessStep (config : DaemonConfig) (input : CycleInput) :
    StoreM (Option StalenessSweepResult) :=
  if config.enableStalenessSweep then
    tryCatch
      (do
        let swept ← runStalenessSweep env
          { tenantId := config.tenantId
            staleDays := config.staleDays } input.freshId input.now
        pure (some swept))
      fun _ => pure none
  else pure none

structure CycleResult where
  ingest : IngestStepResult
  curation : Option Curator.BatchResult
  staleness : Option StalenessSweepResult
  /-- The candidates that were passed to the curator. -/
  passed : List MemoryCandidate

def skippedCycle : CycleResult where
  ingest :=
    { ingested := 0
      errors := []
      summary := none }
  curation := none
  staleness := none
  passed := []

/-- Only a cycle that ingested something curates. -/
def curateIngested (config : DaemonConfig) (input : CycleInput)
    (candidates : List MemoryCandidate) :
    StoreM (Option Curator.BatchResult) :=
  if candidates = [] then pure none
  else curateStep env config input candidates

/-- Curation and sweep, after the ingestion. -/
def governStep (config : DaemonConfig) (input : CycleInput)
    (ingested : IngestStepResult × List MemoryCandidate) :
    StoreM CycleResult := do
  let curation ← curateIngested env config input ingested.2
  let staleness ← stalenessStep env config input
  pure
    { ingest := ingested.1
      curation := curation
      staleness := staleness
      passed := ingested.2 }

def runCycle (config : DaemonConfig) (input : CycleInput) :
    StoreM CycleResult :=
  if input.memoryCaptureEnabled then do
    let ingested ← ingestStep env config input
      (resolveScopedRemoteUrl config input)
    governStep env config input ingested
  else pure skippedCycle

end Registrar
