import Registrar.Concurrency.Maintenance
import Registrar.Curator.MergeGate
import Registrar.Curator.RedactionsInStep

/-!
# Runs of redactions

Every redaction whose content hashes as its trimmed form extends the trails of
the rows that it rewrites: the one of the memory and those of the candidate
copies.  So the trails stay consistent over any sequence of such redactions.
-/

namespace Registrar

open Program Transition
open AuditRepository (RedactionReceipt)

variable {env : Environment}

theorem trailEnds_insert_own {log next : AuditLog} {event : AuditEvent}
    {oldContentHash newContentHash : String}
    (inserted : log.insert? (appendedRecord env log event) = some next)
    (redacts : event.action = .redacted)
    (old : event.detailText "oldContentHash" = some oldContentHash)
    (new : event.detailText "newContentHash" = some newContentHash)
    (ends : TrailEnds (AuditRepository.findRedactionsFor log event.memoryId)
      oldContentHash) :
    TrailEnds (AuditRepository.findRedactionsFor next event.memoryId)
      newContentHash := by
  rw [findRedactionsFor_insert inserted, if_pos ⟨redacts, rfl⟩,
    rowToRedactionReceipt_eq_some old new]
  let receipt : RedactionReceipt :=
    { eventId := event.id
      targetId := event.memoryId
      oldContentHash := oldContentHash
      newContentHash := newContentHash }
  have starts : TrailEnds (AuditRepository.findRedactionsFor log event.memoryId)
      receipt.oldContentHash := ends
  exact starts.append

theorem trailEnds_insert_other {log next : AuditLog} {event : AuditEvent}
    {targetId hash : String}
    (inserted : log.insert? (appendedRecord env log event) = some next)
    (other : event.memoryId ≠ targetId)
    (ends : TrailEnds (AuditRepository.findRedactionsFor log targetId) hash) :
    TrailEnds (AuditRepository.findRedactionsFor next targetId) hash := by
  rw [findRedactionsFor_insert inserted, if_neg fun own => other own.2]
  exact ends

/-- Every row has the hash of its content, at which its trail ends. -/
structure TrailsInStep (env : Environment) (store : Store) : Prop where
  hashed : ∀ row ∈ store.curatedMemories.rows,
    row.contentHash = computeContentHash env row.content.value
  memories : ∀ row ∈ store.curatedMemories.rows,
    TrailEnds (AuditRepository.findRedactionsFor store.auditEvents row.id)
      row.contentHash
  candidates : ∀ row ∈ store.candidates.rows,
    TrailEnds (AuditRepository.findRedactionsFor store.auditEvents row.id)
      (computeContentHash env row.candidate.content)
  separate : ∀ memory ∈ store.curatedMemories.rows,
    ∀ candidate ∈ store.candidates.rows, memory.id ≠ candidate.id

/-- What a provenance walk finds of the hashes: every memory has the hash of
its content, and every trail is consistent. -/
structure WalksConsistently (env : Environment) (store : Store) : Prop where
  hashed : ∀ row ∈ store.curatedMemories.rows,
    row.contentHash = computeContentHash env row.content.value
  memories : ∀ row ∈ store.curatedMemories.rows,
    ∀ trail ∈ readRedactionTrail store.auditEvents row.id row.contentHash,
      trail.consistent = true
  candidates : ∀ row ∈ store.candidates.rows,
    ∀ trail ∈ readRedactionTrail store.auditEvents row.id
        (computeContentHash env row.candidate.content),
      trail.consistent = true

/-- No candidate has the id of a memory, so that their trails are apart. -/
def IdsApart (store : Store) : Prop :=
  ∀ memory ∈ store.curatedMemories.rows,
    ∀ candidate ∈ store.candidates.rows, memory.id ≠ candidate.id

theorem trailsInStep_iff {store : Store} :
    TrailsInStep env store ↔ WalksConsistently env store ∧ IdsApart store := by
  constructor
  · intro inStep
    refine ⟨?_, inStep.separate⟩
    constructor
    case hashed => exact inStep.hashed
    case memories =>
      intro row member
      exact readRedactionTrail_consistent_iff.mpr (inStep.memories row member)
    case candidates =>
      intro row member
      exact readRedactionTrail_consistent_iff.mpr
        (inStep.candidates row member)
  · rintro ⟨walks, apart⟩
    constructor
    case hashed => exact walks.hashed
    case memories =>
      intro row member
      exact readRedactionTrail_consistent_iff.mp (walks.memories row member)
    case candidates =>
      intro row member
      exact readRedactionTrail_consistent_iff.mp (walks.candidates row member)
    case separate => exact apart

/-- A row that is rewritten together with its receipt. -/
structure MemoryRewrite (env : Environment) (store : Store)
    (row updated : CuratedMemory) (event : AuditEvent) (log : AuditLog) :
    Prop where
  stored : row ∈ store.curatedMemories.rows
  id : updated.id = row.id
  candidateId : updated.candidateId = row.candidateId
  hashed : updated.contentHash = computeContentHash env updated.content.value
  inserted : store.auditEvents.insert?
    (appendedRecord env store.auditEvents event) = some log
  redacts : event.action = .redacted
  about : event.memoryId = row.id
  old : event.detailText "oldContentHash" =
    some (computeContentHash env row.content.value)
  new : event.detailText "newContentHash" = some updated.contentHash

/-- The copy of a candidate that is rewritten together with its receipt. -/
structure CopyRewrite (env : Environment) (store : Store) (row : CandidateRow)
    (newContent : String) (event : AuditEvent) (log : AuditLog) : Prop where
  stored : row ∈ store.candidates.rows
  inserted : store.auditEvents.insert?
    (appendedRecord env store.auditEvents event) = some log
  redacts : event.action = .redacted
  about : event.memoryId = row.id
  old : event.detailText "oldContentHash" =
    some (computeContentHash env row.candidate.content)
  new : event.detailText "newContentHash" =
    some (computeContentHash env newContent)

/-- The candidates after the copy of one of them was rewritten. -/
def rewrittenCopies (env : Environment) (table : CandidateTable)
    (row : CandidateRow) (newContent newTitle : String) : CandidateTable :=
  table.updateWhere
    (fun other => other.id = row.id &&
      other.candidate.tenantId = row.candidate.tenantId)
    (CandidateRepository.CandidateRow.setText · newContent newTitle
      (computeContentHash env newContent))
    (fun _ _ => rfl)

theorem mem_rewrittenCopies {table : CandidateTable} {row other : CandidateRow}
    {newContent newTitle : String} (stored : row ∈ table.rows)
    (member : other ∈ (rewrittenCopies env table row newContent newTitle).rows) :
    other = CandidateRepository.CandidateRow.setText row newContent newTitle
        (computeContentHash env newContent) ∨
      other ∈ table.rows ∧ other.id ≠ row.id := by
  obtain ⟨before, isBefore, rfl⟩ := List.mem_map.mp member
  by_cases sameId : before.id = row.id
  · left
    obtain rfl := Table.eq_of_key_eq isBefore stored sameId
    simp
  · right
    rw [if_neg (by simp [sameId])]
    exact ⟨isBefore, sameId⟩

/-- The assertion survives both kinds of writes. -/
structure SurvivesRedaction (env : Environment) (invariant : Store → Prop) :
    Prop where
  memory : ∀ {store row updated event log}, invariant store →
    MemoryRewrite env store row updated event log →
    invariant
      { store with
        curatedMemories := store.curatedMemories.replace updated
        auditEvents := log }
  copy : ∀ {store row newContent newTitle event log}, invariant store →
    CopyRewrite env store row newContent event log →
    invariant
      { store with
        candidates :=
          rewrittenCopies env store.candidates row newContent newTitle
        auditEvents := log }

theorem TrailsInStep.memory {store : Store} {row updated : CuratedMemory}
    {event : AuditEvent} {log : AuditLog} (inStep : TrailsInStep env store)
    (rewrite : MemoryRewrite env store row updated event log) :
    TrailsInStep env
      { store with
        curatedMemories := store.curatedMemories.replace updated
        auditEvents := log } := by
  have fromStore : ∀ other,
      other ∈ (store.curatedMemories.replace updated).rows →
      other = updated ∨
        (other ∈ store.curatedMemories.rows ∧ other.id ≠ updated.id) := by
    intro other member
    rcases Table.mem_replace_iff.mp member with ⟨same, -⟩ | other'
    · exact .inl same
    · exact .inr other'
  constructor
  case hashed =>
    intro other member
    rcases fromStore other member with rfl | ⟨member', -⟩
    · exact rewrite.hashed
    · exact inStep.hashed other member'
  case memories =>
    intro other member
    rcases fromStore other member with rfl | ⟨member', different⟩
    · rw [rewrite.id, ← rewrite.about]
      refine trailEnds_insert_own rewrite.inserted rewrite.redacts rewrite.old
        rewrite.new ?_
      rw [rewrite.about, ← inStep.hashed row rewrite.stored]
      exact inStep.memories row rewrite.stored
    · refine trailEnds_insert_other rewrite.inserted ?_
        (inStep.memories other member')
      rw [rewrite.about, ← rewrite.id]
      exact different.symm
  case candidates =>
    intro candidate member
    refine trailEnds_insert_other rewrite.inserted ?_
      (inStep.candidates candidate member)
    rw [rewrite.about]
    exact inStep.separate row rewrite.stored candidate member
  case separate =>
    intro other member candidate isCandidate
    rcases fromStore other member with rfl | ⟨member', -⟩
    · rw [rewrite.id]
      exact inStep.separate row rewrite.stored candidate isCandidate
    · exact inStep.separate other member' candidate isCandidate

theorem TrailsInStep.copy {store : Store} {row : CandidateRow}
    {newContent newTitle : String} {event : AuditEvent} {log : AuditLog}
    (inStep : TrailsInStep env store)
    (rewrite : CopyRewrite env store row newContent event log) :
    TrailsInStep env
      { store with
        candidates :=
          rewrittenCopies env store.candidates row newContent newTitle
        auditEvents := log } := by
  constructor
  case hashed => exact inStep.hashed
  case memories =>
    intro memory isMemory
    refine trailEnds_insert_other rewrite.inserted ?_
      (inStep.memories memory isMemory)
    rw [rewrite.about]
    exact (inStep.separate memory isMemory row rewrite.stored).symm
  case candidates =>
    intro other isRow
    rcases mem_rewrittenCopies rewrite.stored isRow with rfl | ⟨member, different⟩
    · change TrailEnds (AuditRepository.findRedactionsFor log row.id)
        (computeContentHash env newContent)
      rw [← rewrite.about]
      refine trailEnds_insert_own rewrite.inserted rewrite.redacts rewrite.old
        rewrite.new ?_
      rw [rewrite.about]
      exact inStep.candidates row rewrite.stored
    · refine trailEnds_insert_other rewrite.inserted ?_
        (inStep.candidates other member)
      rw [rewrite.about]
      exact different.symm
  case separate =>
    intro memory isMemory other isRow
    rcases mem_rewrittenCopies rewrite.stored isRow with rfl | ⟨member, -⟩
    · exact inStep.separate memory isMemory row rewrite.stored
    · exact inStep.separate memory isMemory other member

theorem trailsInStep_survives : SurvivesRedaction env (TrailsInStep env) where
  memory := TrailsInStep.memory
  copy := TrailsInStep.copy

/-- The rewrite of a stored copy returns the hash of the new content. -/
theorem updateContent_eq_ok {content title : String} {row : CandidateRow}
    {store next : Store} {rewritten : Option String}
    (stored : row ∈ store.candidates.rows)
    (updated : CandidateRepository.updateContent env row.id
      row.candidate.tenantId content title store = .ok rewritten next) :
    rewritten = some (computeContentHash env content) ∧
      next =
        { store with
          candidates :=
            rewrittenCopies env store.candidates row content title } := by
  have selected : (store.candidates.rows.any fun other =>
      other.id = row.id &&
        other.candidate.tenantId = row.candidate.tenantId) = true := by
    rw [List.any_eq_true]
    exact ⟨row, stored, by simp⟩
  unfold CandidateRepository.updateContent at updated
  cases scanned : scanDisclosureFields env [content, title] with
  | some category =>
      rw [scanned] at updated
      cases updated
  | none =>
      rw [scanned] at updated
      cases updated
      exact ⟨if_pos selected, rfl⟩

section Writes

variable {invariant : Store → Prop}
variable (survives : SurvivesRedaction env invariant)

include survives

theorem redactCandidate_survives {plan : RedactionPlan}
    {freshId now candidateId : String} {store next : Store}
    {written : Option String}
    (redacted : redactCandidate env plan freshId now candidateId store =
      .ok written next)
    (holds : invariant store) :
    invariant next := by
  obtain ⟨texts, _, read, afterRead⟩ := bind_eq_ok_iff.mp redacted
  cases read
  dsimp only at afterRead
  cases stored : CandidateRepository.readStoredText store.candidates
      candidateId plan.memory.tenantId.value with
  | none =>
      rw [stored] at afterRead
      cases afterRead
      exact holds
  | some texts =>
      rw [stored] at afterRead
      obtain ⟨row, found, rfl⟩ := Option.map_eq_some_iff.mp stored
      have member := List.mem_of_find?_eq_some found
      have selected := List.find?_some found
      simp only [Bool.and_eq_true, decide_eq_true_eq] at selected
      obtain ⟨sameId, sameTenant⟩ := selected
      obtain ⟨rewritten, middle, updates, afterUpdate⟩ :=
        bind_eq_ok_iff.mp afterRead
      rw [← sameId, ← sameTenant] at updates
      obtain ⟨isHash, rfl⟩ := updateContent_eq_ok member updates
      rw [isHash] at afterUpdate
      obtain ⟨_, recorded, records, returned⟩ :=
        bind_eq_ok_iff.mp afterUpdate
      cases returned
      obtain ⟨event, log, parsed, inserted, rfl⟩ :=
        (AuditRepository.record_eq_ok_iff env).mp records
      obtain ⟨tenantId, reason, -, rfl⟩ := AuditEvent.parse_eq_ok parsed
      exact survives.copy holds
        { stored := member
          inserted := inserted
          redacts := rfl
          about := sameId.symm
          old := rfl
          new := rfl }

theorem redactCandidates_survive {plan : RedactionPlan}
    {freshId : Nat → String} {now : String} {index : Nat}
    {candidateIds ids : List String} {store next : Store}
    (redacted : redactCandidates env plan freshId now index candidateIds
      store = .ok ids next)
    (holds : invariant store) :
    invariant next := by
  induction candidateIds generalizing index ids store with
  | nil =>
      cases redacted
      exact holds
  | cons candidateId rest induction =>
      obtain ⟨written, middle, first, later⟩ := bind_eq_ok_iff.mp redacted
      obtain ⟨others, last, remaining, returned⟩ := bind_eq_ok_iff.mp later
      cases returned
      exact induction remaining (redactCandidate_survives survives first holds)

/-- What survives the writes survives a redaction whose content hashes as its
trimmed form. -/
theorem writeRedaction_survives {store final : Store} {plan : RedactionPlan}
    {input : RedactMemoryInput} {row updated : CuratedMemory}
    {freshId : Nat → String} {now : String} {ids : List String}
    (planned : plan.Planned env store input row)
    (accepted : plan.updated now = .ok updated)
    (written : writeRedaction env plan updated freshId now store =
      .ok ids final)
    (keeps : KeepsHash env store input)
    (holds : invariant store) :
    invariant final := by
  obtain ⟨_, replaced, updates, afterUpdate⟩ := bind_eq_ok_iff.mp written
  cases updates
  obtain ⟨_, recorded, records, afterRecord⟩ := bind_eq_ok_iff.mp afterUpdate
  obtain ⟨later, last, copies, returned⟩ := bind_eq_ok_iff.mp afterRecord
  cases returned
  obtain ⟨event, log, parsed, inserted, rfl⟩ :=
    (AuditRepository.record_eq_ok_iff env).mp records
  obtain ⟨tenantId, reason, -, isEvent⟩ := AuditEvent.parse_eq_ok parsed
  have rewritten := RedactionPlan.updated_eq_ok accepted
  have sameRow := planned.forRow.memory
  have requested := (planReplacement_eq_ok_iff.mp planned.replaced).1
  have sameHash := keeps row planned.found plan.newContent requested
  obtain ⟨stored, isId⟩ := Table.find?_eq_some_iff.mp planned.found
  have details : event.details = plan.memoryDetails :=
    congrArg AuditEvent.details isEvent
  obtain ⟨old, new⟩ := RedactionPlan.hashes_of_memoryDetails details
  have rewrite : MemoryRewrite env store row updated event log := by
    constructor
    case stored => exact stored
    case id => exact rewritten.id.trans (congrArg CuratedMemory.id sameRow)
    case candidateId =>
      exact rewritten.candidateId.trans
        (congrArg CuratedMemory.candidateId sameRow)
    case hashed =>
      rw [rewritten.contentHash, rewritten.content, sameHash,
        planned.forRow.newContentHash]
    case inserted => exact inserted
    case redacts => exact congrArg AuditEvent.action isEvent
    case about =>
      exact (congrArg AuditEvent.memoryId isEvent).trans
        ((congrArg RedactMemoryInput.memoryId planned.forRow.input).trans
          isId.symm)
    case old => rw [old, planned.forRow.oldContentHash]
    case new => rw [new, rewritten.contentHash]
  exact redactCandidates_survive survives copies (survives.memory holds rewrite)

end Writes

/-! ## Runs -/

/-- One request for a redaction, with the ids and the time that it draws. -/
structure RedactionCall where
  input : RedactMemoryInput
  freshId : Nat → String
  now : String

def redactionStep (env : Environment) (store : Store) (call : RedactionCall) :
    Store :=
  finalState (redactMemory env call.input call.freshId call.now) store

theorem redactionStep_survives {invariant : Store → Prop} {store : Store}
    {call : RedactionCall} (survives : SurvivesRedaction env invariant)
    (holds : invariant store) (keeps : KeepsHash env store call.input) :
    invariant (redactionStep env store call) := by
  unfold redactionStep
  rcases redactMemory_finalState store call.input call.freshId call.now with
    same | ⟨row, plan, updated, ids, planned, accepted, written⟩
  · rw [same]
    exact holds
  · exact writeRedaction_survives survives planned accepted written keeps holds

/-- A redaction keeps hash and content in step just when its content hashes as
its trimmed form, and a replacement is repeated idly just when it is trimmed.
Over any sequence of redactions of the first kind, the walk stays consistent. -/
theorem redactions_inStep (env : Environment) :
    (∀ store final input freshId now report,
      redactMemory env input freshId now store = .ok (.ok report) final →
        report.status = .redacted →
        (InStep env input.memoryId report final ∧
            ((∃ text, input.mode = .replacement text) →
              RepeatsIdly env input final) ↔
          KeepsHash env store input ∧ KeepsTexts env store input)) ∧
    ∀ store calls, WalksConsistently env store → IdsApart store →
      Always (redactionStep env)
        (fun current call => KeepsHash env current call.input) store calls →
      WalksConsistently env (run (redactionStep env) store calls) := by
  constructor
  · intro store final input freshId now report returned redacted
    obtain ⟨row, plan, updated, ids, planned, accepted, written, rfl⟩ :=
      redactMemory_eq_redacted returned redacted
    rw [inStep_iff_keepsHash planned accepted written,
      repeatsIdly_iff_keepsTexts planned accepted written]
  · intro store calls walks apart keeps
    have inStep := invariant_of_always
      (fun current call => redactionStep_survives trailsInStep_survives)
      (trailsInStep_iff.mpr ⟨walks, apart⟩) keeps
    exact (trailsInStep_iff.mp inStep).1

def deskMemory : CuratedMemory :=
  sampleMemory plainEnvironment "candidate"
    ⟨"Call Ann on 555-0100.", by decide +kernel, by simp⟩
    ⟨"Desk", by decide +kernel, by simp⟩

def redactDesk (replacement : String) : RedactMemoryInput where
  memoryId := deskMemory.id
  tenantId := "team"
  actor := "ann"
  reason := "A phone number"
  mode := .replacement replacement
  replacementTitle := none
  dryRun := false

def redactDeskCall (replacement : String) : RedactionCall where
  input := redactDesk replacement
  freshId index := toString index
  now := "2"

/-- The redaction of the desk memory, in a store that holds nothing else. -/
def redactedDesk (replacement : String) :
    EStateM.Result RegistrarError Store RedactMemoryResult :=
  redactMemory plainEnvironment (redactDesk replacement)
    (fun index => toString index) "2" (storeOf deskMemory)

/-- Whether a redaction is reported, and what holds of the stored row then. -/
def redactsTo (property : CuratedMemory → Bool)
    (result : EStateM.Result RegistrarError Store RedactMemoryResult) : Bool :=
  match result with
  | .ok (.ok report) final =>
      decide (report.status = .redacted) &&
        (final.curatedMemories.find? deskMemory.id).all property
  | _ => false

theorem exists_of_redactsTo {property : CuratedMemory → Bool}
    {result : EStateM.Result RegistrarError Store RedactMemoryResult}
    (redacts : redactsTo property result = true) :
    ∃ report final, result = .ok (.ok report) final ∧
      report.status = .redacted ∧
      ∀ row ∈ final.curatedMemories.find? deskMemory.id,
        property row = true := by
  unfold redactsTo at redacts
  split at redacts
  · rename_i report final
    rw [Bool.and_eq_true, decide_eq_true_eq] at redacts
    refine ⟨report, final, rfl, redacts.1, ?_⟩
    intro row found
    rw [Option.mem_def] at found
    rw [found] at redacts
    exact redacts.2
  · cases redacts

/-- The stored hash is that of the padded text, the stored text is trimmed. -/
theorem paddedReplacement_outOfStep :
    ¬ ∀ store final input freshId now report,
      redactMemory plainEnvironment input freshId now store =
        .ok (.ok report) final →
        report.status = .redacted →
        InStep plainEnvironment input.memoryId report final := by
  intro claimed
  have redacts : redactsTo
      (fun row => row.contentHash ≠
        computeContentHash plainEnvironment row.content.value)
      (redactedDesk " Call Ann. ") = true := by decide +kernel
  obtain ⟨report, final, returned, redacted, outOfStep⟩ :=
    exists_of_redactsTo redacts
  obtain ⟨row, found, inStep, -⟩ :=
    claimed _ final _ _ _ report returned redacted
  exact of_decide_eq_true (outOfStep row found) inStep

theorem keepsHash_of_trimmed {store : Store} {input : RedactMemoryInput}
    {text : String} (mode : input.mode = .replacement text)
    (trimmed : trim text = text) :
    KeepsHash env store input := by
  intro row found content replaced
  rw [replacementContent_of_replacement mode replaced, trimmed]

theorem redactions_inStep_desk :
    (∃ report final,
      redactedDesk "Call Ann." = .ok (.ok report) final ∧
        InStep plainEnvironment deskMemory.id report final ∧
        RepeatsIdly plainEnvironment (redactDesk "Call Ann.") final) ∧
    WalksConsistently plainEnvironment
      (run (redactionStep plainEnvironment) (storeOf deskMemory)
        [redactDeskCall "Call Ann.", redactDeskCall "Call the desk."]) := by
  have trimmed : trim "Call Ann." = "Call Ann." := by decide +kernel
  have trimmedLater : trim "Call the desk." = "Call the desk." := by
    decide +kernel
  constructor
  · have redacts : redactsTo (fun _ => true) (redactedDesk "Call Ann.") =
        true := by
      decide +kernel
    obtain ⟨report, final, returned, redacted, -⟩ :=
      exists_of_redactsTo redacts
    have kept : KeepsHash plainEnvironment (storeOf deskMemory)
          (redactDesk "Call Ann.") ∧
        KeepsTexts plainEnvironment (storeOf deskMemory)
          (redactDesk "Call Ann.") := by
      refine ⟨keepsHash_of_trimmed rfl trimmed, ?_⟩
      intro row found text mode
      cases mode
      exact ⟨trimmed, row.title.trimmed⟩
    obtain ⟨inStep, idle⟩ :=
      ((redactions_inStep plainEnvironment).1 _ final _ _ _ report returned
        redacted).mpr kept
    exact ⟨report, final, returned, inStep, idle ⟨_, rfl⟩⟩
  · refine (redactions_inStep plainEnvironment).2 _ _ ?_ ?_ ?_
    · constructor
      case hashed =>
        intro row member
        cases List.mem_singleton.mp member
        rfl
      case memories =>
        intro row member trail found
        cases found
      case candidates =>
        intro row member
        cases member
    · intro memory isMemory candidate isCandidate
      cases isCandidate
    · exact ⟨keepsHash_of_trimmed rfl trimmed,
        keepsHash_of_trimmed rfl trimmedLater, trivial⟩

end Registrar
