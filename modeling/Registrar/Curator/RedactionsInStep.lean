import Registrar.Curator.RedactionTrail
import Registrar.Library.Transition

/-!
# Redactions keep hash and content in step

The hash is taken of the replacement that was asked for, and the row stores it
trimmed.  Where the two agree, the row, its receipt and its trail stay in step,
and a repeated replacement changes nothing.
-/

namespace Registrar

open Program Transition
open AuditRepository (RedactionReceipt)

variable {env : Environment}

/-- What the reads have established of a plan. -/
structure RedactionPlan.Planned (env : Environment) (store : Store)
    (input : RedactMemoryInput) (row : CuratedMemory) (plan : RedactionPlan) :
    Prop where
  found : store.curatedMemories.find? input.memoryId = some row
  ofTenant : row.tenantId.value = input.tenantId
  accepted : refuseRequest env input = .ok plan.actor
  replaced : planReplacement env row input = .ok (plan.newContent, plan.newTitle)
  clean : replacementFault env input plan.newContent plan.newTitle = none
  writes : input.dryRun = false
  forRow : plan.For env input row

theorem prepareRedaction_planned {store : Store} {input : RedactMemoryInput}
    {plan : RedactionPlan}
    (prepared : prepareRedaction env store input = .ok plan) :
    ∃ row, plan.Planned env store input row := by
  obtain ⟨actor, accepted, afterRequest⟩ := except_bind_eq_ok_iff.mp prepared
  split at afterRequest
  · cases afterRequest
  rename_i row found
  obtain ⟨⟨newContent, newTitle⟩, replaced, afterReplacement⟩ :=
    except_bind_eq_ok_iff.mp afterRequest
  dsimp only at afterReplacement
  split at afterReplacement
  · cases afterReplacement
  rename_i clean
  have forRow := preparedPlan_eq_ok afterReplacement
  unfold preparedPlan at afterReplacement
  dsimp only at afterReplacement
  split_ifs at afterReplacement with unchanged dry
  cases afterReplacement
  obtain ⟨stored, ofTenant⟩ := Option.filter_eq_some_iff.mp found
  exact ⟨row,
    { found := stored
      ofTenant := of_decide_eq_true ofTenant
      accepted := accepted
      replaced := replaced
      clean := clean
      writes := eq_false_of_ne_true dry
      forRow := forRow }⟩

theorem planReplacement_eq_ok_iff {row : CuratedMemory}
    {input : RedactMemoryInput} {newContent newTitle : String} :
    planReplacement env row input = .ok (newContent, newTitle) ↔
      replacementContent env row input = .ok newContent ∧
        newTitle = replacementTitle env row input ∧ trim newTitle ≠ "" := by
  unfold planReplacement
  rw [except_bind_eq_ok_iff]
  constructor
  · rintro ⟨content, isContent, afterContent⟩
    dsimp only at afterContent
    split_ifs at afterContent with vanished
    cases afterContent
    exact ⟨isContent, rfl, vanished⟩
  · rintro ⟨isContent, rfl, kept⟩
    refine ⟨newContent, isContent, ?_⟩
    dsimp only
    rw [if_neg kept]
    rfl

theorem refuseRequest_refuses {input : RedactMemoryInput}
    {report : RedactionReport} :
    refuseRequest env input ≠ .error (.ok report) := by
  intro refused
  unfold refuseRequest at refused
  split_ifs at refused
  · cases refused
  · split at refused
    · cases refused
    · cases refused
  · split at refused <;> cases refused

theorem replacementContent_refuses {row : CuratedMemory}
    {input : RedactMemoryInput} {report : RedactionReport} :
    replacementContent env row input ≠ .error (.ok report) := by
  intro refused
  unfold replacementContent at refused
  split at refused
  · split_ifs at refused
    cases refused
  · split at refused <;> cases refused
  · cases refused

theorem planReplacement_refuses {row : CuratedMemory}
    {input : RedactMemoryInput} {report : RedactionReport} :
    planReplacement env row input ≠ .error (.ok report) := by
  intro refused
  unfold planReplacement at refused
  cases content : replacementContent env row input with
  | error result =>
      rw [content] at refused
      cases refused
      exact replacementContent_refuses content
  | ok newContent =>
      rw [content] at refused
      dsimp only [bind, Except.bind] at refused
      split_ifs at refused <;> cases refused

theorem replacementFault_refuses {input : RedactMemoryInput}
    {newContent newTitle : String} {report : RedactionReport} :
    replacementFault env input newContent newTitle ≠ some (.ok report) := by
  intro refused
  unfold replacementFault at refused
  dsimp only at refused
  split_ifs at refused <;> cases refused

theorem preparedPlan_error_status {store : Store} {input : RedactMemoryInput}
    {actor : Author} {row : CuratedMemory} {newContent newTitle : String}
    {report : RedactionReport}
    (ended : preparedPlan env store input actor row newContent newTitle =
      .error (.ok report)) :
    report.status ≠ .redacted := by
  unfold preparedPlan at ended
  dsimp only at ended
  split_ifs at ended with unchanged dry
  · unfold unchangedResult at ended
    split_ifs at ended
    · cases ended
    · cases ended
      simp
  · cases ended
    simp [redactionReport]

/-- A report before the commit comes from the comparison of the texts. -/
theorem prepareRedaction_eq_report {store : Store}
    {input : RedactMemoryInput} {report : RedactionReport}
    (ended : prepareRedaction env store input = .error (.ok report)) :
    ∃ row actor newContent newTitle,
      store.curatedMemories.find? input.memoryId = some row ∧
        planReplacement env row input = .ok (newContent, newTitle) ∧
        preparedPlan env store input actor row newContent newTitle =
          .error (.ok report) := by
  unfold prepareRedaction at ended
  cases accepted : refuseRequest env input with
  | error result =>
      rw [accepted] at ended
      cases ended
      exact absurd accepted refuseRequest_refuses
  | ok actor =>
      rw [accepted] at ended
      dsimp only [bind, Except.bind] at ended
      split at ended
      · cases ended
      · rename_i row found
        obtain ⟨stored, -⟩ := Option.filter_eq_some_iff.mp found
        cases replaced : planReplacement env row input with
        | error result =>
            rw [replaced] at ended
            cases ended
            exact absurd replaced planReplacement_refuses
        | ok texts =>
            rw [replaced] at ended
            dsimp only at ended
            split at ended
            · rename_i refusal fault
              cases ended
              exact absurd fault replacementFault_refuses
            · exact ⟨row, actor, texts.1, texts.2, stored, replaced, ended⟩

theorem prepareRedaction_error_status {store : Store}
    {input : RedactMemoryInput} {report : RedactionReport}
    (ended : prepareRedaction env store input = .error (.ok report)) :
    report.status ≠ .redacted := by
  obtain ⟨row, actor, newContent, newTitle, -, -, compared⟩ :=
    prepareRedaction_eq_report ended
  exact preparedPlan_error_status compared

theorem preparedPlan_unchanged {store : Store} {input : RedactMemoryInput}
    {actor : Author} {row : CuratedMemory} {newContent newTitle : String}
    {report : RedactionReport}
    (ended : preparedPlan env store input actor row newContent newTitle =
      .error (.ok report))
    (unchanged : report.status = .unchanged) :
    newContent = row.content.value ∧ newTitle = row.title.value := by
  unfold preparedPlan at ended
  dsimp only at ended
  split_ifs at ended with same dry
  · exact same
  · cases ended
    cases unchanged

theorem commitRedaction_of_ok {store next : Store} {plan : RedactionPlan}
    {updated : CuratedMemory} {freshId : Nat → String} {now : String}
    {ids : List String}
    (written : writeRedaction env plan updated freshId now store =
      .ok ids next) :
    commitRedaction env plan updated freshId now store =
      .ok (.ok
        { plan.report with
          status := .redacted
          auditEventIds := ids }) next := by
  unfold commitRedaction
  apply tryCatch_apply_of_ok
  rw [bind_apply_of_ok (transaction_eq_ok_iff.mpr written)]
  rfl

/-- A redaction that was rolled back is not reported. -/
theorem commitRedaction_eq_ok {store final : Store} {plan : RedactionPlan}
    {updated : CuratedMemory} {freshId : Nat → String} {now : String}
    {report : RedactionReport}
    (returned : commitRedaction env plan updated freshId now store =
      .ok (.ok report) final) :
    ∃ ids, writeRedaction env plan updated freshId now store = .ok ids final ∧
      report =
        { plan.report with
          status := .redacted
          auditEventIds := ids } := by
  cases written : writeRedaction env plan updated freshId now store with
  | ok ids next =>
      rw [commitRedaction_of_ok written] at returned
      cases returned
      exact ⟨ids, rfl, rfl⟩
  | error error next =>
      unfold commitRedaction at returned
      have failed : transaction (writeRedaction env plan updated freshId now)
          store = .error error store := by
        unfold transaction
        rw [written]
      dsimp only at returned
      rw [tryCatch_apply_of_error (bind_apply_of_error failed)] at returned
      cases error <;> cases returned

/-- A request that reports a redaction has planned and committed it. -/
theorem redactMemory_eq_redacted {store final : Store}
    {input : RedactMemoryInput} {freshId : Nat → String} {now : String}
    {report : RedactionReport}
    (returned : redactMemory env input freshId now store =
      .ok (.ok report) final)
    (redacted : report.status = .redacted) :
    ∃ row plan updated ids, plan.Planned env store input row ∧
      plan.updated now = .ok updated ∧
      writeRedaction env plan updated freshId now store = .ok ids final ∧
      report =
        { plan.report with
          status := .redacted
          auditEventIds := ids } := by
  obtain ⟨planned, middle, read, continued⟩ := bind_eq_ok_iff.mp returned
  unfold planRedaction at read
  rw [bind_apply_of_ok (query_apply _ _)] at read
  cases prepared : prepareRedaction env store input with
  | error result =>
      rw [prepared] at read
      cases read
      cases continued
      exact absurd redacted (prepareRedaction_error_status prepared)
  | ok plan =>
      rw [prepared] at read
      obtain ⟨updated, _, parsed, paired⟩ := bind_eq_ok_iff.mp read
      obtain ⟨accepted, rfl⟩ := orSchemaError_eq_ok_iff.mp parsed
      cases paired
      obtain ⟨row, isPlanned⟩ := prepareRedaction_planned prepared
      obtain ⟨ids, written, isReport⟩ := commitRedaction_eq_ok continued
      exact ⟨row, plan, updated, ids, isPlanned, accepted, written, isReport⟩

theorem redactMemory_of_error {store : Store} {input : RedactMemoryInput}
    {result : RedactMemoryResult} {freshId : Nat → String} {now : String}
    (prepared : prepareRedaction env store input = .error result) :
    redactMemory env input freshId now store = .ok result store := by
  have planned : planRedaction env input now store =
      .ok (.error result) store := by
    unfold planRedaction
    rw [bind_apply_of_ok (query_apply _ _), prepared]
    rfl
  unfold redactMemory
  rw [bind_apply_of_ok planned]
  rfl

theorem commitRedaction_of_error {store next : Store} {plan : RedactionPlan}
    {updated : CuratedMemory} {freshId : Nat → String} {now : String}
    {error : RegistrarError}
    (failed : writeRedaction env plan updated freshId now store =
      .error error next) :
    finalState (commitRedaction env plan updated freshId now) store =
      store := by
  have rolledBack : transaction (writeRedaction env plan updated freshId now)
      store = .error error store := by
    unfold transaction
    rw [failed]
  unfold finalState commitRedaction
  dsimp only
  rw [tryCatch_apply_of_error (bind_apply_of_error rolledBack)]
  cases error <;> rfl

/-- A redaction leaves the store as it was, or with what the plan writes. -/
theorem redactMemory_finalState (store : Store) (input : RedactMemoryInput)
    (freshId : Nat → String) (now : String) :
    finalState (redactMemory env input freshId now) store = store ∨
      ∃ row plan updated ids, plan.Planned env store input row ∧
        plan.updated now = .ok updated ∧
        writeRedaction env plan updated freshId now store =
          .ok ids (finalState (redactMemory env input freshId now) store) := by
  cases prepared : prepareRedaction env store input with
  | error result =>
      left
      unfold finalState
      rw [redactMemory_of_error prepared]
  | ok plan =>
      cases accepted : plan.updated now with
      | error issue =>
          left
          have planned : planRedaction env input now store =
              .error (.schema issue) store := by
            unfold planRedaction
            rw [bind_apply_of_ok (query_apply _ _), prepared]
            dsimp only
            rw [accepted]
            rfl
          exact finalState_bind_of_error planned
      | ok updated =>
          have planned : planRedaction env input now store =
              .ok (.ok (plan, updated)) store := by
            unfold planRedaction
            rw [bind_apply_of_ok (query_apply _ _), prepared]
            dsimp only
            rw [accepted]
            rfl
          have isCommit :
              finalState (redactMemory env input freshId now) store =
                finalState (commitRedaction env plan updated freshId now)
                  store :=
            finalState_bind_of_ok planned
          rw [isCommit]
          cases written : writeRedaction env plan updated freshId now store with
          | ok ids next =>
              right
              obtain ⟨row, isPlanned⟩ := prepareRedaction_planned prepared
              refine ⟨row, plan, updated, ids, isPlanned, accepted, ?_⟩
              unfold finalState
              rw [commitRedaction_of_ok written]
              exact written
          | error error next =>
              left
              exact commitRedaction_of_error written

/-- The rewritten row is stored, and its receipt is in the log. -/
def Recorded (plan : RedactionPlan) (updated : CuratedMemory) (id : String)
    (store : Store) : Prop :=
  store.curatedMemories.find? plan.input.memoryId = some updated ∧
    ∃ record ∈ store.auditEvents.rows, record.event.id = id ∧
      record.event.memoryId = plan.input.memoryId ∧
      record.event.detailText "newContentHash" =
        some plan.report.newContentHash

theorem survivesAppend_recorded {kind : AuditEvent → Prop}
    {plan : RedactionPlan} {updated : CuratedMemory} {id : String} :
    SurvivesAppend env kind (Recorded plan updated id) := by
  rintro store event next - ⟨found, record, member, isReceipt⟩ inserted
  refine ⟨found, record, ?_, isReceipt⟩
  rw [Table.rows_of_insert? inserted]
  exact List.mem_append_left _ member

theorem writeRedaction_recorded {store final : Store} {plan : RedactionPlan}
    {input : RedactMemoryInput} {row updated : CuratedMemory}
    {freshId : Nat → String} {now : String} {ids : List String}
    (planned : plan.Planned env store input row)
    (accepted : plan.updated now = .ok updated)
    (written : writeRedaction env plan updated freshId now store =
      .ok ids final) :
    Recorded plan updated (freshId 0) final ∧ ids.head? = some (freshId 0) := by
  obtain ⟨_, replaced, updates, afterUpdate⟩ := bind_eq_ok_iff.mp written
  cases updates
  obtain ⟨_, recorded, records, afterRecord⟩ := bind_eq_ok_iff.mp afterUpdate
  obtain ⟨later, last, copies, returned⟩ := bind_eq_ok_iff.mp afterRecord
  cases returned
  obtain ⟨event, log, parsed, inserted, rfl⟩ :=
    (AuditRepository.record_eq_ok_iff env).mp records
  obtain ⟨tenantId, reason, -, rfl⟩ := AuditEvent.parse_eq_ok parsed
  have rewritten := RedactionPlan.updated_eq_ok accepted
  have sameInput := planned.forRow.input
  have sameRow := planned.forRow.memory
  have first : Recorded plan updated (freshId 0)
      { store with
        curatedMemories := store.curatedMemories.replace updated
        auditEvents := log } := by
    constructor
    · obtain ⟨stored, isId⟩ := Table.find?_eq_some_iff.mp planned.found
      rw [Table.find?_eq_some_iff, sameInput]
      have sameId : updated.id = row.id := rewritten.id.trans
        (congrArg CuratedMemory.id sameRow)
      exact ⟨Table.mem_replace_iff.mpr (.inl ⟨rfl, row, stored, sameId.symm⟩),
        sameId.trans isId⟩
    · have isLast := Table.rows_of_insert? inserted
      refine ⟨_, isLast ▸ List.mem_append_right _ List.mem_cons_self, ?_⟩
      exact ⟨rfl, rfl, (RedactionPlan.hashes_of_memoryDetails rfl).2⟩
  have keeps : Keeps (Recorded plan updated (freshId 0))
      (redactCandidates env plan freshId now 1 plan.report.candidateIds) :=
    redactCandidates_keeps survivesAppend_recorded (fun _ _ holds => holds) _ _
      _ _
  have kept := keeps.run _ first
  rw [copies] at kept
  exact ⟨kept, rfl⟩

theorem RedactionPlan.updated_fields {plan : RedactionPlan} {now : String}
    {updated : CuratedMemory} (accepted : plan.updated now = .ok updated) :
    updated.title.value = trim plan.newTitle ∧
      updated.tenantId = plan.memory.tenantId := by
  obtain ⟨content, parsedContent, afterContent⟩ :=
    except_bind_eq_ok_iff.mp accepted
  obtain ⟨title, parsedTitle, afterTitle⟩ :=
    except_bind_eq_ok_iff.mp afterContent
  cases afterTitle
  exact ⟨parseNonEmpty_eq_ok parsedTitle, rfl⟩

/-- The same request in this store changes nothing, now and ever. -/
def RepeatsIdly (env : Environment) (input : RedactMemoryInput)
    (store : Store) : Prop :=
  ∀ freshId now, ∃ report,
    redactMemory env input freshId now store = .ok (.ok report) store ∧
      report.status = .unchanged

/-- A row that has the requested texts is left alone. -/
theorem repeatsIdly_of_same {store final : Store} {plan : RedactionPlan}
    {input : RedactMemoryInput} {row current : CuratedMemory} {text : String}
    (planned : plan.Planned env store input row)
    (replacement : input.mode = .replacement text)
    (found : final.curatedMemories.find? input.memoryId = some current)
    (tenant : current.tenantId = row.tenantId)
    (content : current.content.value = plan.newContent)
    (title : current.title.value = plan.newTitle) :
    RepeatsIdly env input final := by
  intro freshId now
  obtain ⟨isContent, isTitle, kept⟩ :=
    planReplacement_eq_ok_iff.mp planned.replaced
  have replaced : planReplacement env current input =
      .ok (plan.newContent, plan.newTitle) := by
    refine planReplacement_eq_ok_iff.mpr ⟨?_, ?_, kept⟩
    · rw [← isContent]
      unfold replacementContent
      rw [replacement]
    · unfold replacementTitle at isTitle ⊢
      rw [replacement] at isTitle ⊢
      cases asked : input.replacementTitle with
      | none => exact title.symm
      | some asked' => rwa [asked] at isTitle
  have selected : (final.curatedMemories.find? input.memoryId).filter
      (·.tenantId.value = input.tenantId) = some current := by
    rw [found, Option.filter_eq_some_iff]
    refine ⟨rfl, decide_eq_true ?_⟩
    rw [tenant]
    exact planned.ofTenant
  have prepared : prepareRedaction env final input =
      .error (.ok
        { redactionReport env input current plan.newContent plan.newTitle [] with
          status := .unchanged }) := by
    unfold prepareRedaction
    rw [planned.accepted, selected]
    dsimp only [bind, Except.bind]
    rw [replaced]
    dsimp only
    rw [planned.clean]
    dsimp only
    unfold preparedPlan
    dsimp only
    rw [if_pos ⟨content.symm, title.symm⟩]
    unfold unchangedResult
    rw [replacement, if_neg]
    rintro ⟨isScan, -⟩
    cases isScan
  exact ⟨_, redactMemory_of_error prepared, by simp⟩

/-- A repeated request is idle only for texts that the row has. -/
theorem same_of_repeatsIdly {store : Store} {input : RedactMemoryInput}
    (idle : RepeatsIdly env input store) :
    ∃ row newContent newTitle,
      store.curatedMemories.find? input.memoryId = some row ∧
        planReplacement env row input = .ok (newContent, newTitle) ∧
        newContent = row.content.value ∧ newTitle = row.title.value := by
  obtain ⟨report, returned, unchanged⟩ := idle (fun _ => "") ""
  obtain ⟨planned, middle, read, continued⟩ := bind_eq_ok_iff.mp returned
  unfold planRedaction at read
  rw [bind_apply_of_ok (query_apply _ _)] at read
  cases prepared : prepareRedaction env store input with
  | error result =>
      rw [prepared] at read
      cases read
      cases continued
      obtain ⟨row, actor, newContent, newTitle, found, replaced, compared⟩ :=
        prepareRedaction_eq_report prepared
      exact ⟨row, newContent, newTitle, found, replaced,
        preparedPlan_unchanged compared unchanged⟩
  | ok plan =>
      rw [prepared] at read
      obtain ⟨updated, _, parsed, paired⟩ := bind_eq_ok_iff.mp read
      cases paired
      obtain ⟨ids, -, rfl⟩ := commitRedaction_eq_ok continued
      cases unchanged

/-- The stored hash is that of the stored content, and the receipt of the
redaction names it. -/
def InStep (env : Environment) (memoryId : String) (report : RedactionReport)
    (store : Store) : Prop :=
  ∃ row, store.curatedMemories.find? memoryId = some row ∧
    row.contentHash = computeContentHash env row.content.value ∧
    report.newContentHash = row.contentHash ∧
    ∃ record ∈ store.auditEvents.rows,
      report.auditEventIds.head? = some record.event.id ∧
        record.event.memoryId = memoryId ∧
        record.event.detailText "newContentHash" = some row.contentHash

/-- The requested content hashes as the content that is stored for it. -/
def KeepsHash (env : Environment) (store : Store)
    (input : RedactMemoryInput) : Prop :=
  ∀ row ∈ store.curatedMemories.find? input.memoryId,
    ∀ content, replacementContent env row input = .ok content →
      computeContentHash env (trim content) = computeContentHash env content

/-- A replacement is requested without surrounding white space. -/
def KeepsTexts (env : Environment) (store : Store)
    (input : RedactMemoryInput) : Prop :=
  ∀ row ∈ store.curatedMemories.find? input.memoryId,
    ∀ text, input.mode = .replacement text →
      trim text = text ∧
        trim (replacementTitle env row input) = replacementTitle env row input

theorem replacementContent_of_replacement {row : CuratedMemory}
    {input : RedactMemoryInput} {text content : String}
    (mode : input.mode = .replacement text)
    (replaced : replacementContent env row input = .ok content) :
    content = text := by
  unfold replacementContent at replaced
  rw [mode] at replaced
  dsimp only at replaced
  split_ifs at replaced
  cases replaced
  rfl

section OneRedaction

variable {store final : Store} {input : RedactMemoryInput}
variable {row updated : CuratedMemory} {plan : RedactionPlan}
variable {freshId : Nat → String} {now : String} {ids : List String}

theorem inStep_iff_keepsHash
    (planned : plan.Planned env store input row)
    (accepted : plan.updated now = .ok updated)
    (written : writeRedaction env plan updated freshId now store =
      .ok ids final) :
    InStep env input.memoryId
        { plan.report with status := .redacted, auditEventIds := ids } final ↔
      KeepsHash env store input := by
  obtain ⟨⟨found, record, member, isId, isMemory, isHash⟩, isHead⟩ :=
    writeRedaction_recorded planned accepted written
  rw [planned.forRow.input] at found isMemory
  have rewritten := RedactionPlan.updated_eq_ok accepted
  have requested := (planReplacement_eq_ok_iff.mp planned.replaced).1
  have isNew := planned.forRow.newContentHash
  constructor
  · rintro ⟨current, isCurrent, inStep, -⟩ row' isRow content isContent
    rw [found] at isCurrent
    cases isCurrent
    rw [planned.found] at isRow
    cases isRow
    rw [requested] at isContent
    cases isContent
    rw [rewritten.contentHash, rewritten.content, isNew] at inStep
    exact inStep.symm
  · intro keeps
    have sameHash := keeps row planned.found plan.newContent requested
    refine ⟨updated, found, ?_, rewritten.contentHash.symm, record, member,
      ?_, isMemory, ?_⟩
    · rw [rewritten.contentHash, rewritten.content, sameHash, isNew]
    · rw [isId]
      exact isHead
    · rw [rewritten.contentHash]
      exact isHash

theorem repeatsIdly_iff_keepsTexts
    (planned : plan.Planned env store input row)
    (accepted : plan.updated now = .ok updated)
    (written : writeRedaction env plan updated freshId now store =
      .ok ids final) :
    ((∃ text, input.mode = .replacement text) →
        RepeatsIdly env input final) ↔
      KeepsTexts env store input := by
  obtain ⟨⟨found, -⟩, -⟩ := writeRedaction_recorded planned accepted written
  rw [planned.forRow.input] at found
  have rewritten := RedactionPlan.updated_eq_ok accepted
  obtain ⟨isTitle, isTenant⟩ := RedactionPlan.updated_fields accepted
  obtain ⟨requested, titled, -⟩ :=
    planReplacement_eq_ok_iff.mp planned.replaced
  constructor
  · rintro idle row' isRow text isMode
    rw [planned.found] at isRow
    cases isRow
    obtain ⟨current, newContent, newTitle, isCurrent, replaced, sameContent,
      sameTitle⟩ := same_of_repeatsIdly (idle ⟨text, isMode⟩)
    rw [found] at isCurrent
    cases isCurrent
    obtain ⟨again, titledAgain, -⟩ := planReplacement_eq_ok_iff.mp replaced
    have first := replacementContent_of_replacement isMode requested
    have second := replacementContent_of_replacement isMode again
    constructor
    · rw [← second, sameContent]
      exact updated.content.trimmed
    · cases asked : input.replacementTitle with
      | none =>
          unfold replacementTitle
          rw [asked, isMode]
          exact row.title.trimmed
      | some title =>
          have isAsked : replacementTitle env updated input = title := by
            unfold replacementTitle
            rw [asked]
            rfl
          have isAskedFirst : replacementTitle env row input = title := by
            unfold replacementTitle
            rw [asked]
            rfl
          rw [isAskedFirst, ← isAsked, ← titledAgain, sameTitle]
          exact updated.title.trimmed
  · rintro keeps ⟨text, isMode⟩
    obtain ⟨trimmedText, trimmedTitle⟩ := keeps row planned.found text isMode
    have first := replacementContent_of_replacement isMode requested
    refine repeatsIdly_of_same planned isMode found ?_ ?_ ?_
    · rw [isTenant, planned.forRow.memory]
    · rw [rewritten.content, first, trimmedText]
    · rw [isTitle, titled, trimmedTitle]

end OneRedaction

end Registrar
