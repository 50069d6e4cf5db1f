import Registrar.Store.Store

/-!
# Staleness sweep

Active memories that nobody has updated for some days are deprecated, one by
one.  The lifecycle is written before its receipt, and not in a transaction
with it.
-/

namespace Registrar

open Program

def MemoryRepository.findStale (table : MemoryTable) (olderThan : String) :
    List CuratedMemory :=
  table.rows.filter fun memory =>
    memory.lifecycle = .active && memory.updatedAt < olderThan

structure StalenessConfig where
  tenantId : String
  staleDays : Nat
  deriving DecidableEq, Repr

/-- The memories that could not be deprecated, and why, are reported. -/
structure StalenessSweepResult where
  scanned : Nat
  deprecated : Nat
  failed : List (String × RegistrarError)

def stalenessDaemon : Author where
  type := .system
  id := ⟨"staleness-daemon", by decide +kernel, by simp⟩
  name := none

variable (env : Environment)

def millisecondsPerDay : Int := 86400000

/-- The instant before which an update is stale. -/
def stalenessThreshold (staleDays : Nat) (now : String) :
    Except RegistrarError String :=
  match env.dateParse now with
  | none => .error (.error "Invalid time value")
  | some instant =>
      .ok (env.toISOString (instant - staleDays * millisecondsPerDay))

/-- The stale memories of the tenant, as the sweep reads them. -/
def tenantStale (config : StalenessConfig) (threshold : String)
    (table : MemoryTable) : List CuratedMemory :=
  (MemoryRepository.findStale table threshold).filter
    (·.tenantId.value = config.tenantId)

def demotedEvent (config : StalenessConfig) (memory : CuratedMemory)
    (draw : Draw) : AuditEventInput where
  id := draw.freshId
  action := .demoted
  memoryId := memory.id
  tenantId := memory.tenantId.value
  actor := stalenessDaemon
  reason := some ("Auto-deprecated: no updates for " ++
    toString config.staleDays ++ " days")
  details :=
    [("from", .string MemoryLifecycleState.active.text),
      ("to", .string MemoryLifecycleState.deprecated.text),
      ("staleDays", .number (env.numberText config.staleDays))]
  timestamp := draw.now

/-- The two statements for one memory. -/
def deprecateStale (config : StalenessConfig) (memory : CuratedMemory)
    (draw : Draw) : StoreM PUnit := do
  let _ ← MemoryRepository.updateLifecycle memory.id .deprecated draw.now
  AuditRepository.record env (demotedEvent env config memory draw)

/-- The loop of a sweep; a memory that fails does not stop it. -/
def sweepStale (config : StalenessConfig) (freshId : Nat → String)
    (now : String) :
    List CuratedMemory → StalenessSweepResult → StoreM StalenessSweepResult
  | [], result => pure result
  | memory :: rest, result => do
      let failure ← tryCatch
        (do
          deprecateStale env config memory
            { freshId := freshId rest.length
              now := now }
          pure none)
        fun error => pure (some error)
      sweepStale config freshId now rest
        (match failure with
        | none =>
            { result with
              deprecated := result.deprecated + 1 }
        | some error =>
            { result with
              failed := result.failed ++ [(memory.id, error)] })

def runStalenessSweep (config : StalenessConfig) (freshId : Nat → String)
    (now : String) : StoreM StalenessSweepResult :=
  match stalenessThreshold env config.staleDays now with
  | .error error => throw error
  | .ok threshold => do
      let stale ← query fun store : Store =>
        tenantStale config threshold store.curatedMemories
      sweepStale env config freshId now stale
        { scanned := stale.length
          deprecated := 0
          failed := [] }

end Registrar
