import Registrar.Policy.Rules
import Registrar.Store.Store

/-!
# Reviewed sensitivity floors

A human review can record a minimum sensitivity for a candidate.  Every later
evaluation and promotion of the candidate resolves these receipts again.
-/

namespace Registrar

open Program

variable (env : Environment)

def recoveryFloorKind : String := "recovery-sensitivity-floor-v1"

/-- A `governed` receipt that records a floor. -/
def AuditEvent.isFloorReceipt (event : AuditEvent) : Bool :=
  event.action = .governed &&
    event.detailText "kind" = some recoveryFloorKind

/-- The floor that a receipt sets for the candidate. -/
def floorOfReceipt (candidate : MemoryCandidate) (event : AuditEvent) :
    Except RegistrarError Sensitivity := do
  let some floor :=
    (event.detailText "minimumSensitivity").bind Sensitivity.ofText?
    | throw (.schema
        { path := "minimumSensitivity"
          message := "Invalid option" })
  if !(event.detailText "runId").any env.isUuid then
    throw (.schema
      { path := "runId"
        message := "Invalid UUID" })
  for name in ["candidateSnapshotDigest", "manifestDigest"] do
    if !(event.detailText name).any env.isSha256Hash then
      throw (.schema
        { path := name
          message := "Invalid SHA-256 hash" })
  if event.detailText "contentHash" ≠
        some (computeContentHash env candidate.content) ∨
      event.detailText "candidateId" ≠ some candidate.id ∨
      event.actor.type ≠ .human ∨
      (event.detailText "resolverRole" ≠ some "admin" ∧
        event.detailText "resolverRole" ≠ some "owner") then
    throw (.error
      ("Stored recovery sensitivity constraint is invalid or " ++
        "content-mismatched"))
  return floor

/-- The strictest floor that the receipts of the candidate set. -/
def resolveCandidateMinimumSensitivity (candidate : MemoryCandidate)
    (log : AuditLog) : Except RegistrarError (Option Sensitivity) := do
  let receipts := (AuditRepository.findByMemoryAndTenant log candidate.id
    candidate.tenantId).filter AuditEvent.isFloorReceipt
  let floors ← receipts.mapM (floorOfReceipt env candidate)
  return floors.foldl
    (fun minimum floor =>
      some ((minimum.map (effectiveSensitivity · (some floor))).getD floor))
    none

/-- Resolve the floor of a candidate inside a program. -/
def resolveMinimum (candidate : MemoryCandidate) :
    StoreM (Option Sensitivity) := do
  let resolved ← query fun store : Store =>
    resolveCandidateMinimumSensitivity env candidate store.auditEvents
  match resolved with
  | .ok minimum => pure minimum
  | .error error => throw error

variable {env}

theorem resolveMinimum_eq_ok_iff {candidate : MemoryCandidate}
    {store final : Store} {minimum : Option Sensitivity} :
    resolveMinimum env candidate store = .ok minimum final ↔
      resolveCandidateMinimumSensitivity env candidate store.auditEvents =
          .ok minimum ∧ final = store := by
  unfold resolveMinimum
  rw [bind_apply_of_ok (query_apply _ _)]
  cases resolveCandidateMinimumSensitivity env candidate store.auditEvents <;>
    simp [eq_comm]

theorem resolveMinimum_eq_error {candidate : MemoryCandidate} {store : Store}
    {error : RegistrarError}
    (refused : resolveCandidateMinimumSensitivity env candidate
      store.auditEvents = .error error) :
    resolveMinimum env candidate store = .error error store := by
  unfold resolveMinimum
  rw [bind_apply_of_ok (query_apply _ _), refused]
  rfl

theorem resolveMinimum_keeps {invariant : Store → Prop}
    (candidate : MemoryCandidate) :
    Keeps invariant (resolveMinimum env candidate) := by
  constructor
  intro store holds
  unfold resolveMinimum
  rw [bind_apply_of_ok (query_apply _ _)]
  cases resolveCandidateMinimumSensitivity env candidate store.auditEvents <;>
    exact holds

/-- An error that a stored receipt can cause. -/
inductive RegistrarError.OfReceipt : RegistrarError → Prop where
  | schema (issue : SchemaIssue) : OfReceipt (.schema issue)
  | error (message : String) : OfReceipt (.error message)

theorem floorOfReceipt_eq_error {candidate : MemoryCandidate}
    {event : AuditEvent} {error : RegistrarError}
    (refused : floorOfReceipt env candidate event = .error error) :
    error.OfReceipt := by
  unfold floorOfReceipt at refused
  split at refused
  · simp only [List.forIn_cons, List.forIn_nil] at refused
    split_ifs at refused <;> cases refused <;> constructor
  · cases refused
    constructor

theorem resolve_eq_error_ofReceipt {candidate : MemoryCandidate} {log : AuditLog}
    {error : RegistrarError}
    (unresolved : resolveCandidateMinimumSensitivity env candidate log =
      .error error) :
    error.OfReceipt := by
  unfold resolveCandidateMinimumSensitivity at unresolved
  dsimp only at unresolved
  cases floors : ((AuditRepository.findByMemoryAndTenant log candidate.id
      candidate.tenantId).filter AuditEvent.isFloorReceipt).mapM
        (floorOfReceipt env candidate) with
  | ok minima =>
      rw [floors] at unresolved
      cases unresolved
  | error other =>
      rw [floors] at unresolved
      cases unresolved
      obtain ⟨event, -, failed⟩ := exists_of_mapM_eq_error floors
      exact floorOfReceipt_eq_error failed

theorem resolveMinimum_throws {kind : RegistrarError → Prop}
    (ofReceipt : ∀ error : RegistrarError, error.OfReceipt → kind error)
    (candidate : MemoryCandidate) :
    Throws kind (resolveMinimum env candidate) := by
  constructor
  intro store _
  unfold resolveMinimum
  rw [bind_apply_of_ok (query_apply _ _)]
  cases unresolved : resolveCandidateMinimumSensitivity env candidate
      store.auditEvents with
  | ok minimum => trivial
  | error error =>
      exact ofReceipt error (resolve_eq_error_ofReceipt unresolved)

/-- An event other than a `governed` one sets no floor. -/
theorem resolveMinimum_append {candidate : MemoryCandidate}
    {log next : AuditLog} {event : AuditEvent}
    (notFloor : event.action ≠ .governed)
    (inserted : log.insert? (appendedRecord env log event) = some next) :
    resolveCandidateMinimumSensitivity env candidate next =
      resolveCandidateMinimumSensitivity env candidate log := by
  have sameReceipts :
      (AuditRepository.findByMemoryAndTenant next candidate.id
          candidate.tenantId).filter AuditEvent.isFloorReceipt =
        (AuditRepository.findByMemoryAndTenant log candidate.id
          candidate.tenantId).filter AuditEvent.isFloorReceipt := by
    unfold AuditRepository.findByMemoryAndTenant
      AuditRepository.findByTimestamp
    rw [List.filter_map, List.filter_map, Table.rows_of_insert? inserted]
    congr 1
    rw [StableSort.filter_insertionSort, StableSort.filter_insertionSort]
    simp [List.filter_append, appendedRecord, AuditEvent.isFloorReceipt,
      notFloor]
  unfold resolveCandidateMinimumSensitivity
  rw [sameReceipts]

/-- Without `governed` receipts no candidate has a floor. -/
theorem resolveMinimum_of_ungoverned {candidate : MemoryCandidate}
    {log : AuditLog}
    (ungoverned : ∀ record ∈ log.rows, record.event.action ≠ .governed) :
    resolveCandidateMinimumSensitivity env candidate log = .ok none := by
  have noReceipts : (AuditRepository.findByMemoryAndTenant log candidate.id
      candidate.tenantId).filter AuditEvent.isFloorReceipt = [] := by
    apply List.filter_eq_nil_iff.mpr
    intro event member
    obtain ⟨record, inside, rfl⟩ := List.mem_map.mp member
    have inLog := (List.mem_filter.mp
      ((List.perm_insertionSort _ _).mem_iff.mp inside)).1
    simp [AuditEvent.isFloorReceipt, ungoverned record inLog]
  unfold resolveCandidateMinimumSensitivity
  rw [noReceipts]
  rfl

end Registrar
