import Registrar.Curator.Attribution
import Registrar.Curator.CandidateIntake
import Registrar.Curator.MergeFates
import Registrar.Curator.SpoolArrivals
import Registrar.Library.Transition
import Registrar.Store.AppendedRows

/-!
# Audited intake

Every intake is one transaction, so an interleaving of calls is their order.
-/

namespace Registrar

open Program Transition

variable {env : Environment}

theorem toWellFormed_trimText (text : JsString) :
    (trimText text).toWellFormed = trim text.toWellFormed :=
  JsString.trim_toWellFormed (by decide) text

theorem toWellFormed_eq_empty {text : JsString}
    (vanished : text.toWellFormed = "") : text.points = [] := by
  unfold JsString.toWellFormed at vanished
  rw [← String.ofList_nil] at vanished
  exact List.map_eq_nil_iff.mp (String.ofList_injective vanished)

theorem ofStored_stored_iff {candidate : IntakeCandidate} :
    IntakeCandidate.ofStored candidate.stored = candidate ↔
      candidate.WellFormed := by
  constructor
  · intro same
    exact
      { content := JsString.ofString_toWellFormed_iff.mp
          (congrArg IntakeCandidate.content same)
        title := JsString.ofString_toWellFormed_iff.mp
          (congrArg IntakeCandidate.title same)
        tenantId := JsString.ofString_toWellFormed_iff.mp
          (congrArg IntakeCandidate.tenantId same) }
  · rintro ⟨content, title, tenantId⟩
    unfold IntakeCandidate.ofStored IntakeCandidate.stored
    dsimp only
    rw [JsString.ofString_toWellFormed_iff.mpr content,
      JsString.ofString_toWellFormed_iff.mpr title,
      JsString.ofString_toWellFormed_iff.mpr tenantId]

/-- What the schema accepts is stored as a candidate that it accepts again. -/
theorem IntakeCandidate.stored_parse {candidate parsed : IntakeCandidate}
    (accepted : candidate.parse = .ok parsed) :
    parsed.stored.parse = .ok parsed.stored := by
  unfold IntakeCandidate.parse at accepted
  split_ifs at accepted with content title tenantId bulk
  cases accepted
  have solid {text : JsString} (left : (trimText text).points ≠ []) :
      trim text.toWellFormed ≠ "" := by
    intro vanished
    rw [← toWellFormed_trimText] at vanished
    exact left (toWellFormed_eq_empty vanished)
  have again (text : JsString) :
      trim (trimText text).toWellFormed = (trimText text).toWellFormed := by
    rw [toWellFormed_trimText]
    exact Trim.trim_trim _ _
  unfold MemoryCandidate.parse IntakeCandidate.stored
  dsimp only
  rw [again, again, again, toWellFormed_trimText, toWellFormed_trimText,
    toWellFormed_trimText, if_neg (solid content), if_neg (solid title),
    if_neg (solid tenantId)]
  exact if_neg (not_not.mpr bulk)

/-- What preparation establishes. -/
structure Prepared (env : Environment) (candidate : IntakeCandidate)
    (ctx : IntakeActorContext) : Prop where
  parsed : candidate.stored.parse = .ok candidate.stored
  clean : disclosureViolation env candidate.stored = none
  author : ∃ author, ctx.author? "actor.id" = .ok author

theorem IntakeActorContext.author?_isOk {ctx : IntakeActorContext}
    {path : String} {author : Option Author}
    (accepted : ctx.author? path = .ok author) (other : String) :
    ∃ author, ctx.author? other = .ok author := by
  unfold IntakeActorContext.author? at accepted ⊢
  cases named : ctx.actor with
  | none => exact ⟨none, rfl⟩
  | some actor =>
      rw [named] at accepted
      dsimp only at accepted ⊢
      by_cases absent : actor = ""
      · rw [if_pos absent]
        exact ⟨none, rfl⟩
      · rw [if_neg absent] at accepted ⊢
        unfold parseNonEmpty at accepted ⊢
        cases solid : NonEmptyString.parse? actor with
        | none =>
            rw [solid] at accepted
            cases accepted
        | some id => exact ⟨_, rfl⟩

theorem prepareIntakeCandidate_eq_ok {data : Except String IntakeCandidate}
    {ctx : IntakeActorContext} {allowedChannels : List String}
    {candidate : IntakeCandidate}
    (prepared : prepareIntakeCandidate env data ctx allowedChannels =
      .ok candidate) : Prepared env candidate ctx := by
  unfold prepareIntakeCandidate at prepared
  cases data with
  | error complaint => cases prepared
  | ok payload =>
      dsimp only at prepared
      cases checked : payload.parse with
      | error issue =>
          rw [checked] at prepared
          cases prepared
      | ok parsed =>
          rw [checked] at prepared
          dsimp only at prepared
          split at prepared
          · cases prepared
          · cases overridden : applyIntakeOverrides parsed ctx with
            | error issue =>
                rw [overridden] at prepared
                cases prepared
            | ok bound =>
                rw [overridden] at prepared
                dsimp only at prepared
                split at prepared
                · cases prepared
                · rename_i clean
                  cases prepared
                  unfold applyIntakeOverrides at overridden
                  obtain ⟨author, named, accepted⟩ :=
                    except_bind_eq_ok_iff.mp overridden
                  exact
                    { parsed := IntakeCandidate.stored_parse accepted
                      clean := clean
                      author := IntakeActorContext.author?_isOk named _ }

variable {candidate : IntakeCandidate} {ctx : IntakeActorContext}
variable {now : String} {store final : Store}

theorem CandidateRepository.insert_eq_ok {candidate : MemoryCandidate}
    {contentHash : String} {batchId : Option String} {value : PUnit}
    (completed : CandidateRepository.insert env candidate contentHash batchId
      store = .ok value final) :
    ∃ next,
      store.candidates.insert?
          { candidate := candidate
            contentHash := contentHash
            importBatchId := batchId } = some next ∧
        final = { store with candidates := next } := by
  unfold CandidateRepository.insert CandidateRepository.assertDisclosureClean
    at completed
  cases violation : disclosureViolation env candidate with
  | some category =>
      rw [violation] at completed
      cases completed
  | none =>
      rw [violation, bind_apply_of_ok (pure_apply _ _),
        bind_apply_of_ok (query_apply _ _)] at completed
      obtain ⟨_, next, unredacted, inserted⟩ := bind_eq_ok_iff.mp completed
      obtain ⟨-, rfl⟩ := ensure_eq_ok_iff.mp unredacted
      split at inserted
      · rename_i table accepted
        cases inserted
        exact ⟨table, accepted, rfl⟩
      · cases inserted

/-- The row that an intake adds. -/
def intakeRow (env : Environment) (candidate : IntakeCandidate) :
    CandidateRow where
  candidate := candidate.stored
  contentHash := computeContentHash env candidate.content.toWellFormed
  importBatchId := none

/-- The receipt of a proposal. -/
structure ProposalOf (env : Environment) (row : CandidateRow)
    (event : AuditEvent) : Prop where
  id : event.id = deriveAuditEventId env row.id AuditAction.proposed.text ""
  action : event.action = .proposed
  memoryId : event.memoryId = row.id

/-- A row and its receipt, written to the store. -/
structure Landed (env : Environment) (row : CandidateRow)
    (event : AuditEvent) (store final : Store) : Prop where
  receipt : ProposalOf env row event
  candidates : store.candidates.insert? row = some final.candidates
  auditEvents : store.auditEvents.insert?
    (appendedRecord env store.auditEvents event) = some final.auditEvents

theorem proposalReceipt_proposal {contentHash : String} {actor : Author}
    {event : AuditEvent}
    (accepted : AuditEvent.parse
      (proposalReceipt env candidate contentHash ctx actor now) = .ok event) :
    ProposalOf env (intakeRow env candidate) event := by
  obtain ⟨tenantId, reason, -, rfl⟩ := AuditEvent.parse_eq_ok accepted
  exact ⟨rfl, rfl, rfl⟩

theorem checkRetained_keeps {invariant : Store → Prop} (contentHash : String)
    (receipt : AuditEvent) :
    Keeps invariant (checkRetained candidate contentHash receipt) := by
  unfold checkRetained
  apply Keeps.bind (CandidateRepository.findById_keeps _)
  intro stored
  apply Keeps.bind (Keeps.query _)
  intro hash
  apply Keeps.bind (Keeps.ensure _ _)
  intro _
  apply Keeps.bind (Keeps.query _)
  intro actual
  exact Keeps.ensure _ _

theorem landCandidate_eq_ok {result : IntakeResult}
    (completed : landCandidate env candidate ctx now store =
      .ok result final) :
    result =
        { candidate := candidate
          intake := .created } ∧
      ∃ event, Landed env (intakeRow env candidate) event store final := by
  unfold landCandidate at completed
  obtain ⟨_, middle, inserted, completed⟩ := bind_eq_ok_iff.mp completed
  obtain ⟨table, accepted, rfl⟩ := CandidateRepository.insert_eq_ok inserted
  obtain ⟨receipt, next, written, completed⟩ := bind_eq_ok_iff.mp completed
  obtain ⟨_, last, retained, returned⟩ := bind_eq_ok_iff.mp completed
  have same : last = next := eq_of_keeps (checkRetained_keeps _ _) retained
  cases returned
  subst same
  unfold writeIntakeReceipt at written
  obtain ⟨author, _, named, written⟩ := bind_eq_ok_iff.mp written
  obtain ⟨-, rfl⟩ := orSchemaError_eq_ok_iff.mp named
  obtain ⟨event, _, parsed, written⟩ := bind_eq_ok_iff.mp written
  obtain ⟨isReceipt, rfl⟩ := orSchemaError_eq_ok_iff.mp parsed
  obtain ⟨_, _, appended, isWritten⟩ := bind_eq_ok_iff.mp written
  obtain ⟨log, extended, rfl⟩ :=
    (AuditRepository.insert_eq_ok_iff env).mp appended
  cases isWritten
  exact ⟨rfl, receipt, proposalReceipt_proposal isReceipt, accepted, extended⟩

theorem MemoryCandidate.parse_tenantId {candidate parsed : MemoryCandidate}
    (accepted : candidate.parse = .ok parsed) :
    trim candidate.tenantId ≠ "" := by
  unfold MemoryCandidate.parse at accepted
  split_ifs at accepted with content title tenantId
  exact tenantId

theorem proposalReceipt_parses {contentHash : String} {actor : Author}
    (solid : trim candidate.tenantId.toWellFormed ≠ "") :
    ∃ receipt, AuditEvent.parse
      (proposalReceipt env candidate contentHash ctx actor now) =
        .ok receipt ∧
      receipt.tenantId.value = trim candidate.tenantId.toWellFormed := by
  obtain ⟨tenant, parsedTenant⟩ := parseNonEmpty_of_solid "tenantId" solid
  have stated : trim "Candidate proposed to the governed inbox" ≠ "" := by
    decide
  obtain ⟨why, parsedReason⟩ := parseNonEmpty_of_solid "reason" stated
  unfold AuditEvent.parse proposalReceipt
  simp only [parsedTenant, Option.mapM_some, parsedReason]
  exact ⟨_, rfl, parseNonEmpty_eq_ok parsedTenant⟩

/-- The row and the receipt of a well-formed candidate are read back as they
were written. -/
theorem checkRetained_landed {receipt : AuditEvent}
    (landed : Landed env (intakeRow env candidate) receipt store final)
    (parsed : candidate.stored.parse = .ok candidate.stored)
    (ofTenant : receipt.tenantId.value = candidate.tenantId.toWellFormed)
    (wellFormed : candidate.WellFormed) :
    checkRetained candidate
        (computeContentHash env candidate.content.toWellFormed) receipt final =
      .ok ⟨⟩ final := by
  have found : final.candidates.find? candidate.id =
      some (intakeRow env candidate) := by
    rw [Table.find?_of_insert? landed.candidates]
    exact if_pos rfl
  have reads : CandidateRepository.read final.candidates candidate.id =
      .ok (some candidate.stored) := by
    unfold CandidateRepository.read
    rw [found]
    simp only [Option.mapM_some, intakeRow, parsed]
    rfl
  have readsBack : CandidateRepository.findById candidate.id final =
      .ok (some candidate.stored) final := by
    rw [CandidateRepository.findById_apply, reads]
  have same : (some candidate.stored).map IntakeCandidate.ofStored =
      some candidate :=
    congrArg some (ofStored_stored_iff.mpr wellFormed)
  have inLog : appendedRecord env store.auditEvents receipt ∈
      final.auditEvents.rows := by
    rw [Table.rows_of_insert? landed.auditEvents]
    exact List.mem_append_right _ List.mem_cons_self
  have recorded := find?_findByMemoryAndTenant inLog
  simp only [appendedRecord] at recorded
  rw [landed.receipt.memoryId, ofTenant] at recorded
  unfold checkRetained
  rw [bind_apply_of_ok readsBack, bind_apply_of_ok (query_apply _ _), found,
    bind_apply_of_ok (ensure_apply_of_holds ⟨same, rfl⟩ _),
    bind_apply_of_ok (query_apply _ _)]
  apply ensure_apply_of_holds
  exact congrArg (Option.map fun event => event.json.canonical) recorded

/-- An accepted candidate whose id, content and receipt are new is taken in,
when its texts are well formed. -/
theorem landCandidate_total (prepared : Prepared env candidate ctx)
    (wellFormed : candidate.WellFormed)
    (unredacted : CandidateRepository.isRedactedContent env store.auditEvents
      candidate.content.toWellFormed candidate.tenantId.toWellFormed = false)
    (newId : store.candidates.find? candidate.id = none)
    (newReceipt : store.auditEvents.Accepts
      (deriveAuditEventId env candidate.id AuditAction.proposed.text "")) :
    ∃ result final, landCandidate env candidate ctx now store =
      .ok result final := by
  have admitted : admitsCandidate env store candidate.stored = true := by
    simp only [admitsCandidate, Bool.and_eq_true, decide_eq_true_eq]
    exact ⟨prepared.clean, by rw [Bool.not_eq_true']; exact unredacted⟩
  obtain ⟨table, accepted, inserted⟩ :=
    @CandidateRepository.insert_admitted env candidate.stored
      (computeContentHash env candidate.content.toWellFormed) none store admitted
      newId
  obtain ⟨author, named⟩ := prepared.author
  have solid := MemoryCandidate.parse_tenantId prepared.parsed
  rw [IntakeCandidate.stored_tenantId] at solid
  obtain ⟨receipt, parsed, ofTenant⟩ :=
    @proposalReceipt_parses env candidate ctx now
      (computeContentHash env candidate.content.toWellFormed)
      (author.getD intakeActor) solid
  have sameTenant : receipt.tenantId.value =
      candidate.tenantId.toWellFormed := by
    have stays := congrArg MemoryCandidate.tenantId
      (MemoryCandidate.parse_eq_ok prepared.parsed)
    rw [IntakeCandidate.stored_tenantId] at stays
    exact ofTenant.trans stays.symm
  have proposal := proposalReceipt_proposal parsed
  have accepts : store.auditEvents.Accepts receipt.id := by
    rw [proposal.id]
    exact newReceipt
  obtain ⟨log, extended⟩ := Option.isSome_iff_exists.mp
    ((isSome_insert?_iff_accepts env).mpr accepts)
  let middle : Store := { store with candidates := table }
  let final : Store := { middle with auditEvents := log }
  have landed : Landed env (intakeRow env candidate) receipt store final :=
    { receipt := proposal
      candidates := accepted
      auditEvents := extended }
  have appended : AuditRepository.insert env receipt middle = .ok ⟨⟩ final :=
    (AuditRepository.insert_eq_ok_iff env).mpr ⟨log, extended, rfl⟩
  have written : writeIntakeReceipt env candidate
      (computeContentHash env candidate.content.toWellFormed) ctx now middle =
        .ok receipt final := by
    unfold writeIntakeReceipt
    rw [bind_apply_of_ok (orSchemaError_eq_ok_iff.mpr ⟨named, rfl⟩),
      bind_apply_of_ok (orSchemaError_eq_ok_iff.mpr ⟨parsed, rfl⟩),
      bind_apply_of_ok appended]
    rfl
  have retained := checkRetained_landed landed prepared.parsed sameTenant
    wellFormed
  unfold landCandidate
  rw [bind_apply_of_ok inserted, bind_apply_of_ok written,
    bind_apply_of_ok retained]
  exact ⟨_, _, rfl⟩

/-- An intake of a known id or content returns the stored row. -/
structure Replayed (candidate : IntakeCandidate) (row : CandidateRow)
    (result : IntakeResult) : Prop where
  outcome : result.intake = .alreadyExists
  stored : ∃ existing, row.candidate.parse = .ok existing ∧
    result.candidate = .ofStored existing
  tenant : ∀ existing, row.candidate.parse = .ok existing →
    JsString.ofString existing.tenantId = candidate.tenantId ∨
      row.candidate.tenantId = candidate.tenantId.toWellFormed

/-- No row of the tenant has this content. -/
def NewContent (env : Environment) (candidate : IntakeCandidate)
    (store : Store) : Prop :=
  ∀ row ∈ store.candidates.rows,
    row.candidate.tenantId = candidate.tenantId.toWellFormed →
      row.contentHash ≠ computeContentHash env candidate.content.toWellFormed

theorem CandidateRepository.findByContentHashAndTenant_eq_ok
    {hash tenantId : String} {found : Option MemoryCandidate}
    (completed : CandidateRepository.findByContentHashAndTenant hash tenantId
      store = .ok found final) :
    final = store ∧
      match found with
      | none => ∀ row ∈ store.candidates.rows,
          row.candidate.tenantId = tenantId → row.contentHash ≠ hash
      | some existing => ∃ row ∈ store.candidates.rows,
          row.candidate.tenantId = tenantId ∧
            row.candidate.parse = .ok existing := by
  unfold CandidateRepository.findByContentHashAndTenant at completed
  rw [bind_apply_of_ok (query_apply _ _)] at completed
  obtain ⟨isFound, rfl⟩ := orSchemaError_eq_ok_iff.mp completed
  refine ⟨rfl, ?_⟩
  cases held : final.candidates.rows.find? fun row =>
      row.contentHash = hash && row.candidate.tenantId = tenantId with
  | none =>
      rw [held] at isFound
      cases isFound
      intro row member sameTenant sameHash
      have differs := List.find?_eq_none.mp held row member
      simp [sameTenant, sameHash] at differs
  | some row =>
      have matched := List.find?_some held
      simp only [Bool.and_eq_true, decide_eq_true_eq] at matched
      rw [held] at isFound
      cases parsed : row.candidate.parse with
      | error issue =>
          simp [Option.mapM_some, parsed, Functor.map, Except.map] at isFound
      | ok existing =>
          simp only [Option.mapM_some, parsed, Functor.map, Except.map,
            Except.ok.injEq] at isFound
          subst isFound
          exact ⟨row, List.mem_of_find?_eq_some held, matched.2, parsed⟩

/-- An intake that returns has found a row, or landed a new one. -/
theorem intakePrepared_eq_ok {result : IntakeResult}
    (completed : intakePrepared env candidate ctx now store =
      .ok result final) :
    (final = store ∧
        ∃ row ∈ store.candidates.rows, Replayed candidate row result) ∨
      NewContent env candidate store ∧
        result =
          { candidate := candidate
            intake := .created } ∧
        ∃ event, Landed env (intakeRow env candidate) event store final := by
  unfold intakePrepared at completed
  obtain ⟨byId, afterId, found, completed⟩ := bind_eq_ok_iff.mp completed
  have same : afterId = store :=
    eq_of_keeps (CandidateRepository.findById_keeps _) found
  subst same
  cases byId with
  | some existing =>
      dsimp only at completed
      split_ifs at completed with own
      · cases completed
        rw [CandidateRepository.findById_apply] at found
        cases isRead : CandidateRepository.read final.candidates candidate.id
          with
        | error issue =>
            rw [isRead] at found
            cases found
        | ok read =>
            rw [isRead] at found
            cases found
            obtain ⟨row, member, -, parsed⟩ :=
              CandidateRepository.read_eq_some isRead
            refine .inl ⟨rfl, row, member, rfl, ⟨existing, parsed, rfl⟩, ?_⟩
            intro other parsedOther
            rw [parsed] at parsedOther
            cases parsedOther
            exact .inl own
      · cases completed
  | none =>
      dsimp only at completed
      obtain ⟨byHash, afterHash, found, completed⟩ :=
        bind_eq_ok_iff.mp completed
      obtain ⟨rfl, hashed⟩ :=
        CandidateRepository.findByContentHashAndTenant_eq_ok found
      cases byHash with
      | some existing =>
          obtain ⟨row, member, sameTenant, parsed⟩ := hashed
          cases completed
          exact .inl ⟨rfl, row, member, rfl, ⟨existing, parsed, rfl⟩,
            fun _ _ => .inr sameTenant⟩
      | none =>
          dsimp only at completed
          rw [bind_apply_of_ok (query_apply _ _)] at completed
          obtain ⟨_, _, unredacted, landed⟩ := bind_eq_ok_iff.mp completed
          obtain ⟨-, rfl⟩ := ensure_eq_ok_iff.mp unredacted
          obtain ⟨isResult, event, isLanded⟩ := landCandidate_eq_ok landed
          exact .inr ⟨hashed, isResult, event, isLanded⟩

/-- The receipt proposes the candidate with this id. -/
def Proposes (id : String) (event : AuditEvent) : Prop :=
  event.action = .proposed ∧ event.memoryId = id

instance (id : String) (event : AuditEvent) : Decidable (Proposes id event) :=
  inferInstanceAs (Decidable (_ ∧ _))

/-- No tenant has two rows with one content. -/
def OneRowPerContent (store : Store) : Prop :=
  ∀ left ∈ store.candidates.rows, ∀ right ∈ store.candidates.rows,
    left.candidate.tenantId = right.candidate.tenantId →
      left.contentHash = right.contentHash → left = right

/-- Every row was proposed once. -/
def OneReceiptPerRow (store : Store) : Prop :=
  ∀ row ∈ store.candidates.rows,
    (store.auditEvents.rows.countP fun record =>
      Proposes row.id record.event) = 1

/-- Every proposal has its row. -/
def ProposalsHaveRows (store : Store) : Prop :=
  ∀ record ∈ store.auditEvents.rows, record.event.action = .proposed →
    ∃ row ∈ store.candidates.rows, row.id = record.event.memoryId

def lastSeq (log : AuditLog) : Int :=
  (maxSeq (log.rows.map AuditRecord.columns)).getD 0

/-- The store after this many intakes. -/
structure IntakeBooks (env : Environment) (count : Nat) (store : Store) :
    Prop where
  parsed : ∀ row ∈ store.candidates.rows,
    row.candidate.parse = .ok row.candidate
  contents : OneRowPerContent store
  receipts : OneReceiptPerRow store
  owned : ∀ record ∈ store.auditEvents.rows,
    ∃ row ∈ store.candidates.rows, ProposalOf env row record.event
  room : lastSeq store.auditEvents ≤ count

theorem IntakeBooks.empty : IntakeBooks env 0 Store.empty where
  parsed := by simp [Store.empty, Table.empty]
  contents := by simp [OneRowPerContent, Store.empty, Table.empty]
  receipts := by simp [OneReceiptPerRow, Store.empty, Table.empty]
  owned := by simp [Store.empty, Table.empty]
  room := by decide

theorem IntakeBooks.weaken {count more : Nat} (books : IntakeBooks env count store)
    (atMost : count ≤ more) : IntakeBooks env more store :=
  { books with
    room := by
      have room := books.room
      omega }

theorem accepts_of_insert? {log next : AuditLog} {event : AuditEvent}
    (inserted : log.insert? (appendedRecord env log event) = some next) :
    log.Accepts event.id := by
  rw [← isSome_insert?_iff_accepts env, inserted]
  rfl

theorem seqFree_iff_room {log : AuditLog} :
    (∀ record ∈ log.rows, record.seq = none ∨
      record.seq ≠ some (nextSeq (log.rows.map AuditRecord.columns))) ↔
        lastSeq log < 2 ^ 63 := by
  unfold lastSeq
  rw [← nextSeq_free_iff, List.forall_mem_map]
  rfl

theorem lastSeq_append {log next : AuditLog} {event : AuditEvent}
    (inserted : log.insert? (appendedRecord env log event) = some next) :
    lastSeq next = lastSeq log + 1 := by
  have room : lastSeq log < 2 ^ 63 := seqFree_iff_room.mp
    fun record member => (accepts_of_insert? inserted record member).2
  unfold lastSeq
  rw [Table.rows_of_insert? inserted, List.map_append, List.map_singleton,
    appendedRecord_columns]
  exact maxSeq_append (appendParams event.raw) room

section Landing

variable {row : CandidateRow} {event : AuditEvent} {count : Nat}

theorem Landed.mem_candidates (landed : Landed env row event store final)
    (other : CandidateRow) :
    other ∈ final.candidates.rows ↔
      other ∈ store.candidates.rows ∨ other = row := by
  rw [Table.rows_of_insert? landed.candidates, List.mem_append,
    List.mem_singleton]

theorem Landed.fresh (landed : Landed env row event store final)
    {other : CandidateRow} (member : other ∈ store.candidates.rows) :
    other.id ≠ row.id :=
  (Table.insert?_eq_some_iff.mp landed.candidates).1 other member

theorem Landed.countP_proposes (landed : Landed env row event store final)
    (id : String) :
    (final.auditEvents.rows.countP fun record => Proposes id record.event) =
      (store.auditEvents.rows.countP fun record => Proposes id record.event) +
        if row.id = id then 1 else 0 := by
  have proposes : Proposes id event ↔ row.id = id := by
    unfold Proposes
    rw [landed.receipt.memoryId]
    simp [landed.receipt.action]
  rw [Table.rows_of_insert? landed.auditEvents, List.countP_append]
  simp [appendedRecord, proposes]

/-- A landed candidate keeps the books. -/
theorem IntakeBooks.land (books : IntakeBooks env count store)
    (landed : Landed env row event store final)
    (parsed : row.candidate.parse = .ok row.candidate)
    (newContent : ∀ other ∈ store.candidates.rows,
      other.candidate.tenantId = row.candidate.tenantId →
        other.contentHash ≠ row.contentHash) :
    IntakeBooks env (count + 1) final where
  parsed := by
    intro other member
    rcases (landed.mem_candidates other).mp member with old | rfl
    · exact books.parsed other old
    · exact parsed
  contents := by
    intro left leftMember right rightMember sameTenant sameHash
    rcases (landed.mem_candidates left).mp leftMember with oldLeft | rfl
    · rcases (landed.mem_candidates right).mp rightMember with oldRight | rfl
      · exact books.contents left oldLeft right oldRight sameTenant sameHash
      · exact absurd sameHash (newContent left oldLeft sameTenant)
    · rcases (landed.mem_candidates right).mp rightMember with oldRight | rfl
      · exact absurd sameHash.symm (newContent right oldRight sameTenant.symm)
      · rfl
  receipts := by
    intro other member
    rw [landed.countP_proposes]
    rcases (landed.mem_candidates other).mp member with old | rfl
    · rw [books.receipts other old, if_neg (landed.fresh old).symm]
    · rw [if_pos rfl]
      have none : (store.auditEvents.rows.countP fun record =>
          Proposes other.id record.event) = 0 := by
        rw [List.countP_eq_zero]
        intro record recorded proposes
        obtain ⟨owner, isOwner, proposal⟩ := books.owned record recorded
        apply landed.fresh isOwner
        rw [← proposal.memoryId]
        exact (of_decide_eq_true proposes).2
      rw [none]
  owned := by
    intro record member
    rw [Table.rows_of_insert? landed.auditEvents] at member
    rcases List.mem_append.mp member with old | new
    · obtain ⟨owner, isOwner, proposal⟩ := books.owned record old
      exact ⟨owner, (landed.mem_candidates owner).mpr (.inl isOwner), proposal⟩
    · rw [List.mem_singleton.mp new]
      exact ⟨row, (landed.mem_candidates row).mpr (.inr rfl), landed.receipt⟩
  room := by
    rw [lastSeq_append landed.auditEvents]
    have room := books.room
    push_cast
    omega

end Landing

/-! ## Runs of intakes -/

def intakeStep (env : Environment) (store : Store) (call : IntakeCall) :
    Store :=
  finalState (intake env call) store

theorem intake_error {call : IntakeCall} {error : RegistrarError}
    (thrown : intake env call store = .error error final) : final = store :=
  eq_of_transaction_eq_error thrown

theorem intake_eq_ok {call : IntakeCall} {result : IntakeResult}
    (completed : intake env call store = .ok result final) :
    ∃ candidate,
      prepareIntakeCandidate env call.data call.ctx call.allowedChannels =
          .ok candidate ∧
        intakePrepared env candidate call.ctx call.now store =
          .ok result final := by
  unfold intake intakeValidated at completed
  rw [transaction_eq_ok_iff] at completed
  cases prepared : prepareIntakeCandidate env call.data call.ctx
      call.allowedChannels with
  | error error =>
      rw [prepared] at completed
      cases completed
  | ok candidate =>
      rw [prepared] at completed
      exact ⟨candidate, rfl, completed⟩

theorem intakeStep_books {count : Nat} {call : IntakeCall}
    (books : IntakeBooks env count store) :
    IntakeBooks env (count + 1) (intakeStep env store call) := by
  unfold intakeStep finalState
  cases ended : intake env call store with
  | error error next =>
      rw [intake_error ended]
      exact books.weaken (Nat.le_succ count)
  | ok result next =>
      obtain ⟨candidate, prepared, completed⟩ := intake_eq_ok ended
      rcases intakePrepared_eq_ok completed with
        ⟨rfl, -⟩ | ⟨newContent, -, event, landed⟩
      · exact books.weaken (Nat.le_succ count)
      · exact books.land landed (prepareIntakeCandidate_eq_ok prepared).parsed
          newContent

theorem run_books (calls : List IntakeCall) :
    IntakeBooks env calls.length
      (run (intakeStep env) Store.empty calls) := by
  induction calls using List.reverseRecOn with
  | nil => exact IntakeBooks.empty
  | append_singleton earlier call induction =>
      rw [run_append, List.length_append]
      exact intakeStep_books induction

theorem deriveAuditEventId_injective
    (distinct : Function.Injective env.uuidV5) {action discriminator : String}
    {left right : String}
    (same : deriveAuditEventId env left action discriminator =
      deriveAuditEventId env right action discriminator) : left = right := by
  have split (id : String) : joinNames ["audit", id, action, discriminator] =
      "audit" ++ nameFieldSeparator ++ id ++ nameFieldSeparator ++ action ++
        nameFieldSeparator ++ discriminator :=
    rfl
  have names := distinct same
  simpa only [split, String.append_left_inj, String.append_right_inj] using
    names

theorem IntakeBooks.newReceipt (distinct : Function.Injective env.uuidV5)
    {count : Nat} (books : IntakeBooks env count store) (room : count < 2 ^ 63)
    {id : String} (newId : store.candidates.find? id = none) :
    store.auditEvents.Accepts
      (deriveAuditEventId env id AuditAction.proposed.text "") := by
  have free : lastSeq store.auditEvents < 2 ^ 63 := by
    have atMost := books.room
    omega
  intro record member
  refine ⟨?_, seqFree_iff_room.mpr free record member⟩
  obtain ⟨owner, isOwner, proposal⟩ := books.owned record member
  rw [proposal.id]
  intro same
  exact Table.find?_eq_none_iff.mp newId owner isOwner
    (deriveAuditEventId_injective distinct same)

theorem IntakeBooks.findByContentHash {count : Nat}
    (books : IntakeBooks env count store) (hash tenantId : String) :
    ∃ found, CandidateRepository.findByContentHashAndTenant hash tenantId
      store = .ok found store := by
  unfold CandidateRepository.findByContentHashAndTenant
  rw [bind_apply_of_ok (query_apply _ _)]
  cases held : store.candidates.rows.find? fun row =>
      row.contentHash = hash && row.candidate.tenantId = tenantId with
  | none => exact ⟨none, rfl⟩
  | some row =>
      have parsed := books.parsed row (List.mem_of_find?_eq_some held)
      refine ⟨some row.candidate, ?_⟩
      simp only [Option.mapM_some, parsed]
      rfl

/-- An accepted payload that is not redacted text and whose id no other tenant
uses is taken in. -/
theorem intake_total (distinct : Function.Injective env.uuidV5) {count : Nat}
    (books : IntakeBooks env count store) (room : count < 2 ^ 63)
    {call : IntakeCall}
    (prepared : prepareIntakeCandidate env call.data call.ctx
      call.allowedChannels = .ok candidate)
    (wellFormed : candidate.WellFormed)
    (unredacted : CandidateRepository.isRedactedContent env store.auditEvents
      candidate.content.toWellFormed candidate.tenantId.toWellFormed = false)
    (ownId : ∀ row ∈ store.candidates.rows, row.id = candidate.id →
      row.candidate.tenantId = candidate.tenantId.toWellFormed) :
    ∃ result final, intake env call store = .ok result final := by
  suffices completed : ∃ result final,
      intakePrepared env candidate call.ctx call.now store =
        .ok result final by
    obtain ⟨result, final, ended⟩ := completed
    refine ⟨result, final, ?_⟩
    unfold intake intakeValidated
    rw [prepared]
    exact transaction_eq_ok_iff.mpr ended
  unfold intakePrepared
  cases held : store.candidates.find? candidate.id with
  | some row =>
      obtain ⟨member, sameId⟩ := Table.find?_eq_some_iff.mp held
      have found : CandidateRepository.findById candidate.id store =
          .ok (some row.candidate) store := by
        rw [CandidateRepository.findById_apply]
        unfold CandidateRepository.read
        rw [held]
        simp only [Option.mapM_some, books.parsed row member]
        rfl
      have own : JsString.ofString row.candidate.tenantId =
          candidate.tenantId := by
        rw [ownId row member sameId]
        exact JsString.ofString_toWellFormed_iff.mpr wellFormed.tenantId
      rw [bind_apply_of_ok found]
      dsimp only
      rw [if_pos own]
      exact ⟨_, _, rfl⟩
  | none =>
      have found : CandidateRepository.findById candidate.id store =
          .ok none store := by
        rw [CandidateRepository.findById_apply]
        unfold CandidateRepository.read
        rw [held]
        rfl
      obtain ⟨byHash, hashed⟩ := books.findByContentHash
        (computeContentHash env candidate.content.toWellFormed)
        candidate.tenantId.toWellFormed
      rw [bind_apply_of_ok found]
      dsimp only
      rw [bind_apply_of_ok hashed]
      cases byHash with
      | some existing => exact ⟨_, _, rfl⟩
      | none =>
          dsimp only
          rw [bind_apply_of_ok (query_apply _ _),
            bind_apply_of_ok (ensure_apply_of_holds unredacted _)]
          exact landCandidate_total (prepareIntakeCandidate_eq_ok prepared)
            wellFormed unredacted held (books.newReceipt distinct room held)

/-- What a call says of the store is true. -/
structure ReportsTruly (env : Environment) (store : Store)
    (call : IntakeCall) : Prop where
  /-- A call that throws changes no table. -/
  thrown : ∀ error final, intake env call store = .error error final →
    final = store
  /-- A call that finds the proposal returns a row of the caller's tenant and
  writes nothing. -/
  replayed : ∀ candidate result final,
    prepareIntakeCandidate env call.data call.ctx call.allowedChannels =
        .ok candidate →
      candidate.tenantId.WellFormed →
      intake env call store = .ok result final →
      result.intake = .alreadyExists →
        final = store ∧ result.candidate.tenantId = candidate.tenantId ∧
          ∃ row ∈ store.candidates.rows,
            result.candidate = .ofStored row.candidate

/-- A payload that preparation accepts, that is not redacted text and whose id
no other tenant uses, is taken in. -/
def TakesIn (env : Environment) (store : Store) (call : IntakeCall) : Prop :=
  ∀ candidate,
    prepareIntakeCandidate env call.data call.ctx call.allowedChannels =
        .ok candidate →
      candidate.WellFormed →
      CandidateRepository.isRedactedContent env store.auditEvents
          candidate.content.toWellFormed candidate.tenantId.toWellFormed =
        false →
      (∀ row ∈ store.candidates.rows, row.id = candidate.id →
        row.candidate.tenantId = candidate.tenantId.toWellFormed) →
        ∃ result final, intake env call store = .ok result final

theorem IntakeBooks.reportsTruly {count : Nat}
    (books : IntakeBooks env count store) (call : IntakeCall) :
    ReportsTruly env store call where
  thrown := fun _ _ thrown => intake_error thrown
  replayed := by
    intro candidate result final prepared wellFormed completed isExisting
    obtain ⟨other, preparedOther, ended⟩ := intake_eq_ok completed
    rw [prepared] at preparedOther
    cases preparedOther
    rcases intakePrepared_eq_ok ended with
      ⟨rfl, row, member, replayed⟩ | ⟨-, rfl, -⟩
    · have parsed := books.parsed row member
      obtain ⟨existing, parsedExisting, isStored⟩ := replayed.stored
      rw [parsed] at parsedExisting
      cases parsedExisting
      refine ⟨rfl, ?_, row, member, isStored⟩
      rw [isStored]
      rcases replayed.tenant _ parsed with own | own
      · exact own
      · dsimp only [IntakeCandidate.ofStored]
        rw [own]
        exact JsString.ofString_toWellFormed_iff.mpr wellFormed
    · cases isExisting

/-- After any calls by anyone, no tenant has a content twice, rows and proposals
match one to one, and every further call reports truly and takes in what is
acceptable. -/
theorem audited_intake_exactlyOnce (distinct : Function.Injective env.uuidV5)
    (calls : List IntakeCall) :
    OneRowPerContent (run (intakeStep env) Store.empty calls) ∧
      OneReceiptPerRow (run (intakeStep env) Store.empty calls) ∧
      ProposalsHaveRows (run (intakeStep env) Store.empty calls) ∧
      ∀ call,
        ReportsTruly env (run (intakeStep env) Store.empty calls) call ∧
          (calls.length < 2 ^ 63 →
            TakesIn env (run (intakeStep env) Store.empty calls) call) := by
  have books := @run_books env calls
  refine ⟨books.contents, books.receipts, ?_, ?_⟩
  · intro record member _
    obtain ⟨row, isRow, proposal⟩ := books.owned record member
    exact ⟨row, isRow, proposal.memoryId.symm⟩
  · intro call
    refine ⟨books.reportsTruly call, ?_⟩
    intro room candidate prepared wellFormed unredacted ownId
    exact intake_total distinct books room prepared wellFormed unredacted ownId

/-- A proposal with this content. -/
def proposalOf (content : JsString) : IntakeCall where
  data := .ok
    { id := "standup"
      status := .inbox
      source := .mcp
      content := content
      title := .ofString "Standup"
      category := .convention
      trustLevel := .medium
      author := intakeActor
      tenantId := .ofString "team"
      metadata :=
        { filePaths := []
          language := none
          projectContext := none
          sessionId := none
          repoUrl := none
          branch := none
          confidence := none
          sensitivity := none
          tags := []
          subjects := none
          proposedByRole := none
          audience := none }
      prePolicyFlags := noFlags
      capturedAt := "0"
      origin := none }
  ctx :=
    { actor := none
      role := none
      tenants := none }
  allowedChannels := defaultAllowedOriginChannels
  now := "1"

/-- A content that ends in half of a surrogate pair. -/
def cutContent : JsString where
  points := [.scalar 'H', .scalar 'i', .highSurrogate ⟨0, firstHighSurrogate⟩]
  unpaired := by decide

def returns (call : IntakeCall) : Bool :=
  match intake plainEnvironment call Store.empty with
  | .ok _ _ => true
  | .error _ _ => false

/-- The content is accepted, but the store does not give it back. -/
theorem cutContent_thrown :
    ∃ candidate,
      prepareIntakeCandidate plainEnvironment (proposalOf cutContent).data
          (proposalOf cutContent).ctx (proposalOf cutContent).allowedChannels =
        .ok candidate ∧
      CandidateRepository.isRedactedContent plainEnvironment
          Store.empty.auditEvents candidate.content.toWellFormed
          candidate.tenantId.toWellFormed = false ∧
      (∀ row ∈ Store.empty.candidates.rows, row.id ≠ candidate.id) ∧
      ∃ error, intake plainEnvironment (proposalOf cutContent) Store.empty =
        .error error Store.empty := by
  have accepted : (prepareIntakeCandidate plainEnvironment
      (proposalOf cutContent).data (proposalOf cutContent).ctx
      (proposalOf cutContent).allowedChannels).toOption.isSome := by
    decide +kernel
  have thrown : returns (proposalOf cutContent) = false := by
    decide +kernel
  cases prepared : prepareIntakeCandidate plainEnvironment
      (proposalOf cutContent).data (proposalOf cutContent).ctx
      (proposalOf cutContent).allowedChannels with
  | error error =>
      rw [prepared] at accepted
      cases accepted
  | ok candidate =>
      refine ⟨candidate, rfl, rfl, by simp [Store.empty, Table.empty], ?_⟩
      unfold returns at thrown
      cases ended : intake plainEnvironment (proposalOf cutContent) Store.empty
        with
      | ok result final =>
          rw [ended] at thrown
          cases thrown
      | error error final =>
          rw [intake_error ended]
          exact ⟨error, rfl⟩

/-- A proposal under another id. -/
def proposalUnder (id : String) (content : JsString) : IntakeCall :=
  let call := proposalOf content
  { call with data := call.data.map fun proposed => { proposed with id := id } }

/-- Two proposals and one of them again. -/
def standupProposals : List IntakeCall :=
  [proposalOf (.ofString "Standup at nine."),
    proposalUnder "retro" (.ofString "Retro at ten."),
    proposalUnder "again" (.ofString "Standup at nine.")]

theorem audited_intake_exactlyOnce_twice :
    let store := run (intakeStep plainEnvironment) Store.empty standupProposals
    store.candidates.rows.map CandidateRow.id = ["standup", "retro"] ∧
      OneRowPerContent store ∧ OneReceiptPerRow store ∧
      ProposalsHaveRows store := by
  have taken : (run (intakeStep plainEnvironment) Store.empty
      standupProposals).candidates.rows.map CandidateRow.id =
        ["standup", "retro"] := by
    decide +kernel
  obtain ⟨contents, receipts, proposals, -⟩ :=
    @audited_intake_exactlyOnce plainEnvironment Function.injective_id
      standupProposals
  exact ⟨taken, contents, receipts, proposals⟩

end Registrar
