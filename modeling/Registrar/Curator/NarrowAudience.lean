import Registrar.Curator.Hold

/-!
# Narrowing an audience

The row is read and the request checked before the transaction; the transaction
writes every column of the row back, together with the receipt.
-/

namespace Registrar

open Program

inductive NarrowAudienceRefusalCode where
  | notFound
  | missingReason
  | missingActor
  | narrowing (refusal : AudienceNarrowingRefusal)
  deriving DecidableEq, Repr

structure NarrowAudienceInput where
  memoryId : String
  tenantId : String
  target : String
  actor : String
  reason : String
  dryRun : Bool
  deriving DecidableEq

inductive NarrowAudienceResult where
  | ok (memoryId : String) (source target : Audience)
      (auditEventId : Option String)
  | refused (memoryId : String) (code : NarrowAudienceRefusalCode)
      (error : String)
  deriving DecidableEq

def NarrowAudienceInput.refuse (input : NarrowAudienceInput)
    (code : NarrowAudienceRefusalCode) (error : String) :
    NarrowAudienceResult :=
  .refused input.memoryId code error

/-- What the reads outside the transaction leave to be written. -/
structure NarrowingPlan where
  updated : CuratedMemory
  receipt : AuditEvent
  source : Audience
  target : Audience

/-- The row with another audience. -/
def CuratedMemory.withAudience (memory : CuratedMemory) (audience : Audience)
    (now : String) : CuratedMemory :=
  { memory with
    metadata := { memory.metadata with audience := some audience }
    updatedAt := now }

def AudienceNarrowingRefusal.message (source target : String) :
    AudienceNarrowingRefusal → String
  | .unknownTo =>
      "Unknown audience \"" ++ target ++ "\" (expected one of: " ++
        audienceChoices ++ ")"
  | .same => "Audience is already \"" ++ source ++ "\""
  | .widening =>
      "Refusing to widen audience \"" ++ source ++ "\" -> \"" ++ target ++
        "\": this operation only narrows (tenant -> admins -> owner). " ++
        "Widening is a separate governed path (K4) and is not available."

/-- The request checked against the row it names: the actor, the row and the
new tier. -/
def checkNarrowing (store : Store) (input : NarrowAudienceInput) :
    Except NarrowAudienceResult (Author × CuratedMemory × Audience) :=
  if trim input.reason = "" then
    .error (input.refuse .missingReason
      "A reason is required to narrow an audience")
  else
    match RequestedActor.author?
        { type := .human
          id := input.actor
          name := none },
        (store.curatedMemories.find? input.memoryId).filter
          (·.tenantId.value = input.tenantId) with
    | none, _ =>
        .error (input.refuse .missingActor
          "An actor is required to narrow an audience")
    | _, none =>
        .error (input.refuse .notFound ("Memory " ++ input.memoryId ++
          " not found in tenant " ++ input.tenantId))
    | some actor, some memory =>
        match validateAudienceNarrowing memory.metadata.audience
            (Audience.ofText? input.target) with
        | .error refusal =>
            .error (input.refuse (.narrowing refusal)
              (refusal.message
                (resolveAudience memory.metadata.audience).text input.target))
        | .ok target => .ok (actor, memory, target)

def narrowedEvent (input : NarrowAudienceInput) (actor : Author)
    (memory : CuratedMemory) (target : Audience) (draw : Draw) :
    AuditEventInput where
  id := draw.freshId
  action := .audienceNarrowed
  memoryId := input.memoryId
  tenantId := memory.tenantId.value
  actor := actor
  reason := some input.reason
  details :=
    [("from", .string (resolveAudience memory.metadata.audience).text),
      ("to", .string target.text)]
  timestamp := draw.now

/-- The reads: a result when the operation ends there, or the plan of its
transaction. -/
def planNarrowing (input : NarrowAudienceInput) (draw : Draw) :
    StoreM (Except NarrowAudienceResult NarrowingPlan) := do
  let checked ← query fun store : Store => checkNarrowing store input
  match checked with
  | .error result => pure (.error result)
  | .ok (actor, memory, target) =>
      let source := resolveAudience memory.metadata.audience
      if input.dryRun then
        pure (.error (.ok input.memoryId source target none))
      else do
        let receipt ← orSchemaError
          (AuditEvent.parse (narrowedEvent input actor memory target draw))
        pure (.ok
          { updated := memory.withAudience target draw.now
            receipt := receipt
            source := source
            target := target })

variable (env : Environment)

/-- The transaction: the row as the plan has it, and the receipt. -/
def commitNarrowing (plan : NarrowingPlan) : StoreM NarrowAudienceResult :=
  transaction do
    let _ ← MemoryRepository.update plan.updated
    AuditRepository.insert env plan.receipt
    pure (.ok plan.updated.id plan.source plan.target (some plan.receipt.id))

def narrowAudience (input : NarrowAudienceInput) (draw : Draw) :
    StoreM NarrowAudienceResult := do
  let planned ← planNarrowing input draw
  match planned with
  | .error result => pure result
  | .ok plan => commitNarrowing env plan

variable {env} {before after : Store → Prop}

theorem checkNarrowing_eq_ok {store : Store} {input : NarrowAudienceInput}
    {actor : Author} {memory : CuratedMemory} {target : Audience}
    (accepted : checkNarrowing store input = .ok (actor, memory, target)) :
    store.curatedMemories.find? input.memoryId = some memory ∧
      audienceRank (resolveAudience memory.metadata.audience) <
        audienceRank target := by
  unfold checkNarrowing at accepted
  split_ifs at accepted
  split at accepted
  · cases accepted
  · cases accepted
  rename_i _ found
  split at accepted
  · cases accepted
  rename_i valid
  cases accepted
  exact ⟨(Option.filter_eq_some_iff.mp found).1,
    audienceRank_lt_of_validateAudienceNarrowing valid⟩

/-- A plan narrows the row that the reads found. -/
theorem planNarrowing_eq_ok {input : NarrowAudienceInput} {draw : Draw}
    {store final : Store} {plan : NarrowingPlan}
    (planned : planNarrowing input draw store = .ok (.ok plan) final) :
    final = store ∧ plan.receipt.action = .audienceNarrowed ∧
      ∃ memory, store.curatedMemories.find? input.memoryId = some memory ∧
        plan.updated = memory.withAudience plan.target draw.now ∧
        audienceRank (resolveAudience memory.metadata.audience) <
          audienceRank plan.target := by
  unfold planNarrowing at planned
  rw [bind_apply_of_ok (query_apply _ _)] at planned
  cases checked : checkNarrowing store input with
  | error result =>
      rw [checked] at planned
      cases planned
  | ok parts =>
      obtain ⟨actor, memory, target⟩ := parts
      simp only [checked] at planned
      split_ifs at planned
      · cases planned
      obtain ⟨receipt, _, parsed, returned⟩ := bind_eq_ok_iff.mp planned
      obtain ⟨accepted, rfl⟩ := orSchemaError_eq_ok_iff.mp parsed
      obtain ⟨tenantId, reason, -, rfl⟩ := AuditEvent.parse_eq_ok accepted
      cases returned
      obtain ⟨found, narrower⟩ := checkNarrowing_eq_ok checked
      exact ⟨rfl, rfl, memory, found, rfl, narrower⟩

/-- The transaction puts the planned row in place and records it, or does
nothing. -/
theorem commitNarrowing_triple {plan : NarrowingPlan}
    (replaced : ∀ store, before store →
      after
        { store with
          curatedMemories := store.curatedMemories.replace plan.updated })
    (recorded : SurvivesAppend env (· = plan.receipt) after) :
    Triple before (commitNarrowing env plan) (fun _ => after)
      (fun _ => before) := by
  unfold commitNarrowing
  apply Triple.transaction _ fun _ _ start => start
  apply Triple.bind (MemoryRepository.update_triple replaced)
  intro _
  have receipted : Keeps after (AuditRepository.insert env plan.receipt) :=
    AuditRepository.insert_keeps recorded rfl
  apply Triple.bind (Triple.anyFailure receipted)
  intro _
  exact Triple.pure _ fun _ start => start

end Registrar
