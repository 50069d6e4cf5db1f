import Registrar.Curator.Sensitivity
import Registrar.Policy.Supersession

/-!
# Promotion

Turning a governed candidate into a stored memory.  One transaction retires
the superseded memories, inserts the new one, draws its links and writes the
receipts.
-/

namespace Registrar

open Program

structure PromotionInput where
  candidate : MemoryCandidate
  contentHash : String
  minimumSensitivity : Option Sensitivity
  pipelineResult : PipelineResult
  supersessions : List SupersessionMatch
  promotedBy : Option Author
  promotionReason : Option String
  humanResolvedFlags : List String

def curatorActor : Author where
  type := .system
  id :=
    { value := "curator"
      trimmed := trim_curator
      nonempty := curator_nonempty }
  name := none

def unattestedChannel : String := "unattested"

def originTokenHashSurfaceLength : Nat := 16

/-- The reviewer's justification together with what the gate found. -/
def promotionReceiptReason (input : PromotionInput) : String :=
  let verdict :=
    if input.humanResolvedFlags ≠ [] then
      "flags resolved by a human releasing a hold: " ++
        joinComma input.humanResolvedFlags ++
        "; every other governance rule passed"
    else "passed all governance rules"
  match input.promotionReason with
  | none => verdict.capitalize
  | some reason =>
      if trim reason = "" then verdict.capitalize
      else reason ++ " (" ++ verdict ++ ")"

/-- One match per superseded memory, the first one. -/
def distinctSupersessions (matched : List SupersessionMatch) :
    List SupersessionMatch :=
  matched.foldl
    (fun kept sup =>
      if kept.any (·.supersededMemoryId = sup.supersededMemoryId) then kept
      else kept ++ [sup])
    []

variable (env : Environment)

namespace PromotionInput

variable (input : PromotionInput) (now : String)

def memoryId : String :=
  deriveMemoryId env input.candidate.id input.contentHash

def policyEvaluations : List PolicyEvaluation :=
  input.pipelineResult.evaluations.mapIdx fun index evaluation =>
    { policyId := derivePolicyEvaluationId env (input.memoryId env)
        evaluation.ruleId (toString index)
      ruleId := evaluation.ruleId
      result := evaluation.outcome
      reason := some evaluation.reason
      evaluatedAt := now }

def actor : Author :=
  input.promotedBy.getD curatorActor

def classified : Sensitivity :=
  (env.classifyContent input.candidate.content).sensitivityLevel

/-- The memory that the promotion inserts, once its schema accepts it. -/
def memory (minimum : Option Sensitivity) : Except SchemaIssue CuratedMemory :=
  do
  let content ← parseNonEmpty "content" input.candidate.content
  let title ← parseNonEmpty "title" input.candidate.title
  let tenantId ← parseNonEmpty "tenantId" input.candidate.tenantId
  return { id := input.memoryId env
           candidateId := input.candidate.id
           source := input.candidate.source
           content := content
           title := title
           category := input.candidate.category
           trustLevel := input.candidate.trustLevel
           sensitivity := effectiveSensitivity (input.classified env) minimum
           author := input.candidate.author
           tenantId := tenantId
           metadata := input.candidate.metadata
           lifecycle := .active
           contentHash := input.contentHash
           policyEvaluations := input.policyEvaluations env now
           supersession := none
           promotedAt := now
           promotedBy := input.actor
           updatedAt := now
           version := 1
           supersededHasLink := by simp }

def sensitivityConstraint (minimum : Sensitivity) : Json :=
  .object
    [("classified", .string (input.classified env).text),
      ("minimum", .string minimum.text),
      ("effective",
        .string (effectiveSensitivity (input.classified env)
          (some minimum)).text)]

def promotedDetails (minimum : Option Sensitivity) : List (String × Json) :=
  [("candidateId", .string input.candidate.id)] ++
    (minimum.toList.map fun minimum =>
      ("sensitivityConstraint", input.sensitivityConstraint env minimum)) ++
    (if input.humanResolvedFlags = [] then []
      else [("humanResolvedFlags",
        .array (input.humanResolvedFlags.map .string))]) ++
    [("originChannel", .string ((input.candidate.origin.map
      CandidateOrigin.channel).getD unattestedChannel))] ++
    (input.candidate.origin.toList.map fun origin =>
      ("originTokenHash", .string (String.ofList
        ((env.sha256 origin.tokenHmac).toList.take
          originTokenHashSurfaceLength))))

def promotedEvent (minimum : Option Sensitivity) : AuditEventInput where
  id := deriveAuditEventId env (input.memoryId env) AuditAction.promoted.text ""
  action := .promoted
  memoryId := input.memoryId env
  tenantId := input.candidate.tenantId
  actor := input.actor
  reason := some (promotionReceiptReason input)
  details := input.promotedDetails env minimum
  timestamp := now

def supersededEvent (sup : SupersessionMatch) : AuditEventInput where
  id := deriveAuditEventId env sup.supersededMemoryId
    AuditAction.superseded.text (input.memoryId env)
  action := .superseded
  memoryId := sup.supersededMemoryId
  tenantId := input.candidate.tenantId
  actor := curatorActor
  reason := some ("Superseded by " ++ input.memoryId env)
  details :=
    [("newMemoryId", .string (input.memoryId env)),
      ("similarity", .number (env.numberText sup.similarity))] ++
      (if sup.basis = .subject then
        [("basis", .string sup.basis.text),
          ("subject", .string (sup.subject.getD "unknown"))]
      else [])
  timestamp := now

def supersede (sup : SupersessionMatch) (old : CuratedMemory) :
    StoreM PUnit := do
  let reason ← orSchemaError (parseNonEmpty "supersession.reason"
    (if sup.basis = .subject then
      "Subject match: " ++ sup.subject.getD "unknown"
    else "Title similarity: " ++ env.toFixed2 sup.similarity))
  let link : SupersessionLink :=
    { supersededBy := input.memoryId env
      reason := reason
      linkedAt := now }
  let _ ← MemoryRepository.update (old.retired link now)

/-- Retire one superseded memory, whatever its state, and record it. -/
def retire (sup : SupersessionMatch) : StoreM PUnit := do
  let old ← query fun store : Store =>
    store.curatedMemories.find? sup.supersededMemoryId
  old.toList.forM (input.supersede env now sup)
  AuditRepository.record env (input.supersededEvent env now sup)

def link (targetMemoryId : String) (linkType : LinkType) (weight : ℚ) :
    MemoryLink where
  id := deriveLinkId env (input.memoryId env) targetMemoryId linkType.text
  sourceMemoryId := input.memoryId env
  targetMemoryId := targetMemoryId
  linkType := linkType
  weight := weight
  createdBy := "curator"
  source := .curator
  importBatchId := none
  createdAt := now

/-- A wiki link becomes an edge to the active memory with its title. -/
def drawWikiLink (wikiLink : WikiLink) : StoreM PUnit := do
  let found ← query fun store : Store =>
    MemoryRepository.searchByText env store.curatedMemories wikiLink.slug
  match found with
  | .error error => throw error
  | .ok targets =>
      match targets.find? fun memory =>
          env.toLowerCase memory.title.value = env.toLowerCase wikiLink.slug &&
            memory.id ≠ input.memoryId env with
      | none => pure ⟨⟩
      | some target =>
          tryCatch
            (MemoryLinksRepository.insert
              (input.link env now target.id .relatesTo 1))
            fun _ => pure ⟨⟩

def drawLinks : StoreM PUnit := do
  (distinctSupersessions input.supersessions).forM fun sup =>
    MemoryLinksRepository.insert
      (input.link env now sup.supersededMemoryId .supersedes sup.similarity)
  (env.extractWikiLinks input.candidate.content).forM
    (input.drawWikiLink env now)

/-- The stored memory and its receipt kept a reviewed floor. -/
def checkFloorRetained (memory : CuratedMemory) (minimum : Sensitivity) :
    StoreM PUnit := do
  let stored ← query fun store : Store =>
    store.curatedMemories.find? memory.id
  let receipt ← query fun store : Store =>
    (AuditRepository.findByMemoryAndTenant store.auditEvents memory.id
      memory.tenantId.value).find? fun event =>
        event.id = (input.promotedEvent env now (some minimum)).id
  let resolved ← resolveMinimum env input.candidate
  let constraint := receipt.bind fun event =>
    (Json.field? event.details "sensitivityConstraint").map Json.stringify
  ensure
    (resolved = some minimum ∧
      stored.map CuratedMemory.sensitivity = some memory.sensitivity ∧
      constraint = some (input.sensitivityConstraint env minimum).stringify)
    (.error "Promoted sensitivity constraint or its receipt was not retained")

def commit (withLinks : Bool) (memory : CuratedMemory)
    (minimum : Option Sensitivity) : StoreM PUnit := do
  let resolved ← resolveMinimum env input.candidate
  ensure (resolved = minimum)
    (.error ("Sensitivity constraint changed before promotion commit; " ++
      "retry governance"))
  (distinctSupersessions input.supersessions).forM (input.retire env now)
  MemoryRepository.insert memory
  when (withLinks = true) (input.drawLinks env now)
  AuditRepository.record env (input.promotedEvent env now minimum)
  minimum.toList.forM (input.checkFloorRetained env now memory)

end PromotionInput

/-- Promote a candidate; a dry run does everything but write. -/
def promote (input : PromotionInput) (dryRun withLinks : Bool) (now : String) :
    StoreM CuratedMemory := do
  let minimum ← resolveMinimum env input.candidate
  ensure (minimum = input.minimumSensitivity)
    (.error ("Sensitivity constraint changed since policy evaluation; " ++
      "retry governance"))
  let memory ← orSchemaError (input.memory env now minimum)
  when (dryRun = false)
    (transaction (input.commit env now withLinks memory minimum))
  return memory

variable {env}

theorem promote_eq_ok {input : PromotionInput} {dryRun withLinks : Bool}
    {now : String} {store final : Store} {memory : CuratedMemory}
    (completed :
      promote env input dryRun withLinks now store = .ok memory final) :
    resolveCandidateMinimumSensitivity env input.candidate
          store.auditEvents = .ok input.minimumSensitivity ∧
      input.memory env now input.minimumSensitivity = .ok memory ∧
      if dryRun = false then
        input.commit env now withLinks memory input.minimumSensitivity store =
          .ok ⟨⟩ final
      else final = store := by
  obtain ⟨minimum, _, resolved, afterFloor⟩ := bind_eq_ok_iff.mp completed
  obtain ⟨found, rfl⟩ := resolveMinimum_eq_ok_iff.mp resolved
  obtain ⟨_, _, agreed, afterCheck⟩ := bind_eq_ok_iff.mp afterFloor
  obtain ⟨rfl, rfl⟩ := ensure_eq_ok_iff.mp agreed
  obtain ⟨built, _, parsed, afterSchema⟩ := bind_eq_ok_iff.mp afterCheck
  obtain ⟨accepted, rfl⟩ := orSchemaError_eq_ok_iff.mp parsed
  obtain ⟨_, _, committed, returned⟩ := bind_eq_ok_iff.mp afterSchema
  cases returned
  refine ⟨found, accepted, ?_⟩
  have written := when_eq_ok_iff.mp committed
  split_ifs at written ⊢ with wet
  · exact transaction_eq_ok_iff.mp written
  · exact written

/-- How a promotion ends whose floor still holds and whose memory the schema
accepts. -/
theorem promote_apply {input : PromotionInput} {now : String} {store : Store}
    {memory : CuratedMemory} (dryRun withLinks : Bool)
    (resolved : resolveCandidateMinimumSensitivity env input.candidate
      store.auditEvents = .ok input.minimumSensitivity)
    (built : input.memory env now input.minimumSensitivity = .ok memory) :
    promote env input dryRun withLinks now store =
      if dryRun = false then
        match input.commit env now withLinks memory input.minimumSensitivity
          store with
        | .ok _ final => .ok memory final
        | .error error _ => .error error store
      else .ok memory store := by
  have checked : promote env input dryRun withLinks now store =
      (do
        when (dryRun = false)
          (transaction
            (input.commit env now withLinks memory input.minimumSensitivity))
        return memory : StoreM CuratedMemory) store := by
    have passes (error : RegistrarError) :
        ensure (input.minimumSensitivity = input.minimumSensitivity) error
          store = .ok ⟨⟩ store :=
      ensure_eq_ok_iff.mpr ⟨rfl, rfl⟩
    unfold promote
    rw [bind_apply_of_ok (resolveMinimum_eq_ok_iff.mpr ⟨resolved, rfl⟩),
      bind_apply_of_ok (passes _),
      bind_apply_of_ok (orSchemaError_eq_ok_iff.mpr ⟨built, rfl⟩)]
  rw [checked]
  by_cases wet : dryRun = false
  · rw [if_pos wet]
    cases committed : input.commit env now withLinks memory
        input.minimumSensitivity store with
    | ok value final =>
        rw [bind_apply_of_ok (when_eq_ok_iff.mpr (by
          rw [if_pos wet]
          exact transaction_eq_ok_iff.mpr committed))]
        rfl
    | error error final =>
        have failed : when (dryRun = false)
            (transaction
              (input.commit env now withLinks memory
                input.minimumSensitivity)) store = .error error store := by
          simp [when, wet, transaction, committed]
        rw [bind_apply_of_error failed]
  · rw [if_neg wet]
    have skipped : when (dryRun = false)
        (transaction
          (input.commit env now withLinks memory
            input.minimumSensitivity)) store = .ok ⟨⟩ store := by
      simp [when, wet]
    rw [bind_apply_of_ok skipped]
    rfl

/-! ## What a promotion keeps -/

section Keeps

variable {invariant : Store → Prop}

/-- The assertion survives whatever the promotion that inserts `memory` may
write. -/
structure SurvivesPromotion (env : Environment) (input : PromotionInput)
    (memory : CuratedMemory) (invariant : Store → Prop) : Prop where
  appended : SurvivesAppend env
    (fun event => event.action = .promoted ∨ event.action = .superseded)
    invariant
  linked : SurvivesLinks invariant
  retired : ∀ sup ∈ distinctSupersessions input.supersessions,
    ∀ store old link now, invariant store →
      store.curatedMemories.find? sup.supersededMemoryId = some old →
      invariant
        { store with
          curatedMemories :=
            store.curatedMemories.replace (old.retired link now) }
  inserted : ∀ store next, invariant store →
    store.curatedMemories.insert? memory = some next →
    invariant { store with curatedMemories := next }

namespace PromotionInput

variable {input : PromotionInput} {memory : CuratedMemory} {now : String}

/-- The link that a superseded memory gets. -/
def successorLink (env : Environment) (input : PromotionInput)
    (reason : NonEmptyString) (now : String) : SupersessionLink where
  supersededBy := input.memoryId env
  reason := reason
  linkedAt := now

/-- The reason on the link of a superseded memory. -/
def linkReason (env : Environment) (sup : SupersessionMatch) :
    Except SchemaIssue NonEmptyString :=
  parseNonEmpty "supersession.reason"
    (if sup.basis = .subject then
      "Subject match: " ++ sup.subject.getD "unknown"
    else "Title similarity: " ++ env.toFixed2 sup.similarity)

/-- A retirement leads from `before` to `after`, and its receipt keeps that. -/
theorem retire_triple {before after : Store → Prop} {sup : SupersessionMatch}
    (recorded : SurvivesAppend env (·.action = .superseded) after)
    (absent : ∀ store, before store →
      store.curatedMemories.find? sup.supersededMemoryId = none →
      after store)
    (retired : ∀ store old reason, before store →
      store.curatedMemories.find? sup.supersededMemoryId = some old →
      linkReason env sup = .ok reason →
      after
        { store with
          curatedMemories := store.curatedMemories.replace
            (old.retired (input.successorLink env reason now) now) }) :
    Triple before (input.retire env now sup) (fun _ => after)
      (fun _ store => before store ∨ after store) := by
  have receipted :
      Triple after
        (AuditRepository.record env (input.supersededEvent env now sup))
        (fun _ => after) (fun _ store => before store ∨ after store) := by
    have kept : Keeps after
        (AuditRepository.record env (input.supersededEvent env now sup)) := by
      apply AuditRepository.record_keeps recorded
      intro event parsed
      obtain ⟨tenantId, reason, -, rfl⟩ := AuditEvent.parse_eq_ok parsed
      rfl
    exact Triple.weaken kept (fun _ start => start) (fun _ _ ended => ended)
      fun _ _ ended => .inr ended
  unfold retire
  apply Triple.bind (Triple.query_eq _)
  intro found
  refine Triple.bind ?_ fun _ => receipted
  apply Triple.optional
  · intro old isOld
    unfold supersede
    apply Triple.bind
    · apply Triple.weaken (orSchemaError_triple _) (fun _ start => start)
        (fun _ _ checked => checked)
      intro _ store start
      exact .inl start.2
    · intro reason
      constructor
      intro store checked
      exact retired store old reason checked.2.2 (checked.2.1.trans isOld)
        checked.1
  · intro isAbsent store start
    exact absent store start.2 (start.1.trans isAbsent)

theorem retire_keeps {sup : SupersessionMatch}
    (recorded : SurvivesAppend env (·.action = .superseded) invariant)
    (retired : ∀ store old reason, invariant store →
      store.curatedMemories.find? sup.supersededMemoryId = some old →
      invariant
        { store with
          curatedMemories := store.curatedMemories.replace
            (old.retired (input.successorLink env reason now) now) }) :
    Keeps invariant (input.retire env now sup) := by
  apply Triple.weaken
    (retire_triple recorded (fun _ start _ => start)
      fun store old reason start found _ =>
        retired store old reason start found)
    (fun _ start => start) (fun _ _ ended => ended)
  rintro _ store (start | ended)
  · exact start
  · exact ended

theorem drawWikiLink_keeps (linked : SurvivesLinks invariant)
    (wikiLink : WikiLink) :
    Keeps invariant (input.drawWikiLink env now wikiLink) := by
  unfold drawWikiLink
  apply Keeps.bind (Keeps.query _)
  intro found
  cases found with
  | error error => exact Keeps.throw _
  | ok targets =>
      dsimp only
      split
      · exact Keeps.pure _
      · apply Keeps.tryCatch
        · exact MemoryLinksRepository.insert_keeps linked _
        · intro error
          exact Keeps.pure _

theorem drawLinks_keeps (linked : SurvivesLinks invariant) :
    Keeps invariant (input.drawLinks env now) := by
  unfold drawLinks
  apply Keeps.bind
  · apply Keeps.forM
    intro sup _
    exact MemoryLinksRepository.insert_keeps linked _
  · intro _
    apply Keeps.forM
    intro wikiLink _
    exact drawWikiLink_keeps linked wikiLink

theorem checkFloorRetained_keeps (minimum : Sensitivity) :
    Keeps invariant (input.checkFloorRetained env now memory minimum) := by
  unfold checkFloorRetained
  apply Keeps.bind (Keeps.query _)
  intro stored
  apply Keeps.bind (Keeps.query _)
  intro receipt
  apply Keeps.bind (resolveMinimum_keeps _)
  intro resolved
  exact Keeps.ensure _ _

theorem retires_of_keeps
    (retires : ∀ sup ∈ distinctSupersessions input.supersessions,
      Keeps invariant (input.retire env now sup)) :
    Triple invariant
      ((distinctSupersessions input.supersessions).forM (input.retire env now))
      (fun _ => invariant) (fun _ _ => True) :=
  Triple.anyFailure (Keeps.forM retires)

/-- The retirements lead to `retired`, the insertion to `after`, and the links
and the receipt keep that. -/
theorem commit_triple {before retired after : Store → Prop}
    (retires : Triple before
      ((distinctSupersessions input.supersessions).forM (input.retire env now))
      (fun _ => retired) (fun _ _ => True))
    (inserted : ∀ store next, retired store →
      store.curatedMemories.insert? memory = some next →
      after { store with curatedMemories := next })
    {withLinks : Bool}
    (links : withLinks = true → Keeps after (input.drawLinks env now))
    (recorded : SurvivesAppend env (·.action = .promoted) after)
    (minimum : Option Sensitivity) :
    Triple before (input.commit env now withLinks memory minimum)
      (fun _ => after) (fun _ _ => True) := by
  have inserts : Triple retired (MemoryRepository.insert memory)
      (fun _ => after) (fun _ _ => True) := by
    constructor
    intro store start
    unfold MemoryRepository.insert
    cases added : store.curatedMemories.insert? memory with
    | some next => exact inserted store next start added
    | none => trivial
  have finishes : Keeps after
      (do
        when (withLinks = true) (input.drawLinks env now)
        AuditRepository.record env (input.promotedEvent env now minimum)
        minimum.toList.forM (input.checkFloorRetained env now memory)) := by
    apply Keeps.bind (Keeps.when links)
    intro _
    apply Keeps.bind
    · apply AuditRepository.record_keeps recorded
      intro event parsed
      obtain ⟨tenantId, reason, -, rfl⟩ := AuditEvent.parse_eq_ok parsed
      rfl
    intro _
    apply Keeps.forM
    intro floor _
    exact checkFloorRetained_keeps floor
  have prepares : Triple before
      (do
        let resolved ← resolveMinimum env input.candidate
        ensure (resolved = minimum)
          (.error ("Sensitivity constraint changed before promotion commit; " ++
            "retry governance"))
        (distinctSupersessions input.supersessions).forM
          (input.retire env now))
      (fun _ => retired) (fun _ _ => True) := by
    apply Triple.bind (Triple.anyFailure (resolveMinimum_keeps _))
    intro resolved
    apply Triple.bind (Triple.anyFailure (Keeps.ensure _ _))
    intro _
    exact retires
  have writes : Triple retired
      (do
        MemoryRepository.insert memory
        when (withLinks = true) (input.drawLinks env now)
        AuditRepository.record env (input.promotedEvent env now minimum)
        minimum.toList.forM (input.checkFloorRetained env now memory))
      (fun _ => after) (fun _ _ => True) := by
    apply Triple.bind inserts
    intro _
    exact Triple.anyFailure finishes
  have all := Triple.bind prepares fun _ => writes
  unfold commit
  simpa only [bind_assoc] using all

theorem commit_survives
    (survives : SurvivesPromotion env input memory invariant)
    (withLinks : Bool) (minimum : Option Sensitivity) :
    Triple invariant (input.commit env now withLinks memory minimum)
      (fun _ => invariant) (fun _ _ => True) := by
  apply commit_triple
  · apply retires_of_keeps
    intro sup planned
    apply retire_keeps
    · intro store event next isSuperseded
      exact survives.appended store event next (.inr isSuperseded)
    · intro store old reason holds found
      exact survives.retired sup planned store old _ now holds found
  · exact survives.inserted
  · intro _
    exact drawLinks_keeps survives.linked
  · intro store event next isPromoted
    exact survives.appended store event next (.inl isPromoted)

end PromotionInput

/-- A promotion that returns has committed, unless it was a dry run; one that
throws leaves the store alone. -/
theorem promote_triple {input : PromotionInput} {now : String}
    {before after : Store → Prop} {dryRun withLinks : Bool}
    (unchanged : dryRun = true → ∀ store, before store → after store)
    (commits : dryRun = false → ∀ memory,
      input.memory env now input.minimumSensitivity = .ok memory →
      Triple before
        (input.commit env now withLinks memory input.minimumSensitivity)
        (fun _ => after) (fun _ _ => True)) :
    Triple before (promote env input dryRun withLinks now) (fun _ => after)
      (fun _ => before) := by
  unfold promote
  apply Triple.bind (resolveMinimum_keeps _)
  intro minimum
  apply Triple.bind
  · exact Triple.ensured fun _ start => start
  intro _
  apply Triple.assume
  intro agreed
  apply Triple.bind (orSchemaError_triple _)
  intro memory
  apply Triple.assume
  intro built
  rw [agreed] at built ⊢
  have written : Triple before
      (when (dryRun = false)
        (transaction
          (input.commit env now withLinks memory input.minimumSensitivity)))
      (fun _ => after) (fun _ => before) := by
    apply Triple.ite
    · intro isWet
      exact Triple.transaction (commits isWet memory built)
        fun _ _ start => start
    · intro isDry
      exact Triple.pure _ (unchanged (eq_true_of_ne_false isDry))
  apply Triple.bind written
  intro _
  exact Triple.pure _ fun _ ended => ended

theorem promote_keeps {input : PromotionInput} {now : String}
    (survives : ∀ memory minimum, input.memory env now minimum = .ok memory →
      SurvivesPromotion env input memory invariant)
    (dryRun withLinks : Bool) :
    Keeps invariant (promote env input dryRun withLinks now) := by
  apply promote_triple fun _ _ start => start
  intro _ memory built
  exact PromotionInput.commit_survives (survives memory _ built) withLinks _

/-- The fields of the memory that a promotion builds. -/
theorem PromotionInput.memory_eq_ok {input : PromotionInput} {now : String}
    {minimum : Option Sensitivity} {memory : CuratedMemory}
    (built : input.memory env now minimum = .ok memory) :
    memory.id = input.memoryId env ∧
      memory.candidateId = input.candidate.id ∧
      memory.content.value = trim input.candidate.content ∧
      memory.tenantId.value = trim input.candidate.tenantId ∧
      memory.contentHash = input.contentHash ∧
      memory.lifecycle = .active ∧ memory.supersession = none := by
  unfold PromotionInput.memory at built
  cases content : parseNonEmpty "content" input.candidate.content with
  | error issue =>
      rw [content] at built
      cases built
  | ok content' =>
      cases title : parseNonEmpty "title" input.candidate.title with
      | error issue =>
          rw [content, title] at built
          cases built
      | ok title' =>
          cases tenant :
              parseNonEmpty "tenantId" input.candidate.tenantId with
          | error issue =>
              rw [content, title, tenant] at built
              cases built
          | ok tenant' =>
              rw [content, title, tenant] at built
              cases built
              exact ⟨rfl, rfl, parseNonEmpty_eq_ok content,
                parseNonEmpty_eq_ok tenant, rfl, rfl, rfl⟩

end Keeps

end Registrar
