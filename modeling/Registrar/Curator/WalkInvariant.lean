import Registrar.Curator.ProvenanceWalk
import Registrar.Curator.RedactionRuns

/-!
# What the walk relies on

The id of every row is derived from the hash at which its redaction trail starts.
The writes of the registrar keep that, and where it holds no link of the store
fails.
-/

namespace Registrar

open AuditRepository (RedactionReceipt)

variable {env : Environment} {workspaceId : String}

/-- The hash before the first redaction. -/
def trailStart (receipts : List RedactionReceipt) (hash : String) : String :=
  (receipts.head?.map RedactionReceipt.oldContentHash).getD hash

theorem trailStart_append (receipts : List RedactionReceipt)
    (receipt : RedactionReceipt) (hash : String) :
    trailStart (receipts ++ [receipt]) hash =
      trailStart receipts receipt.oldContentHash := by
  cases receipts <;> rfl

theorem readRedactionTrail_of_ends {log : AuditLog} {targetId hash : String}
    (ends : TrailEnds (AuditRepository.findRedactionsFor log targetId) hash) :
    match readRedactionTrail log targetId hash with
    | none =>
        trailStart (AuditRepository.findRedactionsFor log targetId) hash = hash
    | some trail => trail.consistent = true ∧ trail.originalHash =
        trailStart (AuditRepository.findRedactionsFor log targetId) hash := by
  have consistent := readRedactionTrail_consistent_iff.mpr ends
  unfold readRedactionTrail at consistent ⊢
  cases receipts : AuditRepository.findRedactionsFor log targetId with
  | nil => rfl
  | cons first rest =>
      rw [receipts] at consistent
      exact ⟨consistent _ rfl, rfl⟩

theorem findRedactionsFor_eq_nil {log : AuditLog} {targetId : String}
    (apart : ∀ record ∈ log.rows, record.event.action = .redacted →
      record.event.memoryId ≠ targetId) :
    AuditRepository.findRedactionsFor log targetId = [] := by
  unfold AuditRepository.findRedactionsFor AuditRepository.chronological
  rw [List.filterMap_eq_nil_iff]
  intro record selected
  obtain ⟨member, isAbout⟩ := List.mem_filter.mp selected
  simp only [Bool.and_eq_true, decide_eq_true_eq] at isAbout
  exact absurd isAbout.2 (apart record
    ((List.perm_insertionSort _ _).mem_iff.mp member) isAbout.1)

section Insert

variable {log next : AuditLog} {event : AuditEvent}

theorem trailStart_insert_own {hash newHash : String}
    (inserted : log.insert? (appendedRecord env log event) = some next)
    (redacts : event.action = .redacted)
    (old : event.detailText "oldContentHash" = some hash)
    (new : event.detailText "newContentHash" = some newHash) :
    trailStart (AuditRepository.findRedactionsFor next event.memoryId)
        newHash =
      trailStart (AuditRepository.findRedactionsFor log event.memoryId)
        hash := by
  rw [findRedactionsFor_insert inserted, if_pos ⟨redacts, rfl⟩,
    rowToRedactionReceipt_eq_some old new]
  exact trailStart_append _ _ _

theorem findRedactionsFor_insert_other {targetId : String}
    (inserted : log.insert? (appendedRecord env log event) = some next)
    (other : event.action = .redacted → event.memoryId ≠ targetId) :
    AuditRepository.findRedactionsFor next targetId =
      AuditRepository.findRedactionsFor log targetId := by
  rw [findRedactionsFor_insert inserted]
  exact if_neg fun own => other own.1 own.2

end Insert

/-- The id of the candidate is derived from this hash, if it has a path. -/
def AddressedBy (env : Environment) (workspaceId : String) (row : CandidateRow)
    (hash : String) : Prop :=
  ∀ relPath ∈ row.relPath?,
    deriveCandidateId env workspaceId relPath hash = row.id

/-- The hash that the id of a memory was derived from. -/
def CuratedMemory.trailHash (memory : CuratedMemory) (log : AuditLog) :
    String :=
  trailStart (AuditRepository.findRedactionsFor log memory.id)
    memory.contentHash

/-- The hash that the id of a candidate was derived from. -/
def CandidateRow.trailHash (env : Environment) (row : CandidateRow)
    (log : AuditLog) : String :=
  trailStart (AuditRepository.findRedactionsFor log row.id)
    (computeContentHash env row.candidate.content)

/-- A row is stored under this id. -/
def HasRow (store : Store) (id : String) : Prop :=
  (∃ memory ∈ store.curatedMemories.rows, memory.id = id) ∨
    ∃ row ∈ store.candidates.rows, row.id = id

/-- Ids are derived from the starts of the trails, every memory descends from a
candidate, and redactions are about stored rows. -/
structure Walkable (env : Environment) (workspaceId : String) (store : Store) :
    Prop extends TrailsInStep env store where
  derived : ∀ memory ∈ store.curatedMemories.rows,
    deriveMemoryId env memory.candidateId
      (memory.trailHash store.auditEvents) = memory.id
  addressed : ∀ row ∈ store.candidates.rows,
    AddressedBy env workspaceId row (row.trailHash env store.auditEvents)
  descends : ∀ memory ∈ store.curatedMemories.rows,
    ∃ row ∈ store.candidates.rows, row.id = memory.candidateId
  about : ∀ record ∈ store.auditEvents.rows,
    record.event.action = .redacted → HasRow store record.event.memoryId

theorem Walkable.empty : Walkable env workspaceId Store.empty := by
  constructor
  case toTrailsInStep => constructor <;> intro _ member <;> cases member
  all_goals intro _ member; cases member

/-- The receipt of the promotion of a memory. -/
def Promoted (log : AuditLog) (memoryId : String) : Prop :=
  ∃ record ∈ log.rows,
    record.event.memoryId = memoryId ∧ record.event.action = .promoted

theorem Promoted.insert {log next : AuditLog} {record : AuditRecord}
    {memoryId : String} (promoted : Promoted log memoryId)
    (inserted : log.insert? record = some next) : Promoted next memoryId := by
  obtain ⟨receipt, member, isReceipt⟩ := promoted
  refine ⟨receipt, ?_, isReceipt⟩
  rw [Table.rows_of_insert? inserted]
  exact List.mem_append_left _ member

section Links

variable {log : AuditLog}

theorem memoryIdDerivationLink_pass {memory : CuratedMemory}
    (hashed : memory.contentHash =
      computeContentHash env memory.content.value)
    (ends : TrailEnds (AuditRepository.findRedactionsFor log memory.id)
      memory.contentHash)
    (derived : deriveMemoryId env memory.candidateId (memory.trailHash log) =
      memory.id) :
    (memoryIdDerivationLink env log memory).status = .pass := by
  have trail := readRedactionTrail_of_ends ends
  unfold CuratedMemory.trailHash at derived
  unfold memoryIdDerivationLink
  dsimp only
  rw [if_neg (not_not.mpr hashed.symm)]
  by_cases direct :
      deriveMemoryId env memory.candidateId memory.contentHash = memory.id
  · rw [if_pos direct]
  · rw [if_neg direct]
    cases read : readRedactionTrail log memory.id memory.contentHash with
    | none =>
        rw [read] at trail
        rw [trail] at derived
        exact absurd derived direct
    | some found =>
        rw [read] at trail
        rw [← trail.2] at derived
        dsimp only
        rw [if_pos ⟨trail.1, derived⟩]

theorem candidateIdDerivationLink_pass {row : CandidateRow} {relPath : String}
    (ends : TrailEnds (AuditRepository.findRedactionsFor log row.id)
      (computeContentHash env row.candidate.content))
    (addressed : deriveCandidateId env workspaceId relPath
      (row.trailHash env log) = row.id) :
    (candidateIdDerivationLink env log row workspaceId relPath).status =
      .pass := by
  have trail := readRedactionTrail_of_ends ends
  unfold CandidateRow.trailHash at addressed
  unfold candidateIdDerivationLink
  dsimp only
  by_cases direct :
      deriveCandidateId env workspaceId relPath
        (computeContentHash env row.candidate.content) = row.id
  · rw [if_pos direct]
  · rw [if_neg direct]
    cases read : readRedactionTrail log row.id
        (computeContentHash env row.candidate.content) with
    | none =>
        rw [read] at trail
        rw [trail] at addressed
        exact absurd addressed direct
    | some found =>
        rw [read] at trail
        rw [← trail.2] at addressed
        rw [Option.filter_some, if_pos (by simp [trail.1, addressed])]

theorem promotionReceiptLink_pass {memoryId : String}
    (promoted : Promoted log memoryId) :
    (promotionReceiptLink log memoryId).status = .pass := by
  obtain ⟨record, member, isMemory, isPromotion⟩ := promoted
  unfold promotionReceiptLink
  cases found : promotionReceipt log memoryId with
  | some receipt => rfl
  | none =>
      have absent := List.find?_eq_none.mp found record.event (by
        unfold AuditRepository.findByMemory AuditRepository.findByTimestamp
        refine List.mem_map.mpr ⟨record, ?_, rfl⟩
        rw [(List.perm_insertionSort _ _).mem_iff, List.mem_filter]
        exact ⟨member, decide_eq_true isMemory⟩)
      simp [isPromotion] at absent

theorem candidateIdLink_status {row : CandidateRow} {opts : WalkOptions}
    (ends : TrailEnds (AuditRepository.findRedactionsFor log row.id)
      (computeContentHash env row.candidate.content))
    (addressed : AddressedBy env opts.workspaceId row (row.trailHash env log)) :
    (candidateIdLink env log opts row).status ≠ .fail := by
  unfold candidateIdLink
  cases stamped : row.relPath? with
  | none => simp [LinkName.verdict]
  | some relPath =>
      have passes := candidateIdDerivationLink_pass ends
        (addressed relPath stamped)
      dsimp only
      rw [passes]
      simp

end Links

/-- The links that rest on the store alone. -/
def LinkName.OfStore (link : LinkName) : Prop :=
  link ≠ .spoolManifest ∧ link ≠ .compileTrace

instance (link : LinkName) : Decidable link.OfStore :=
  inferInstanceAs (Decidable (_ ∧ _))

/-- No link of the store fails in the walk of this memory. -/
def WalksWell (env : Environment) (opts : WalkOptions) (store : Store)
    (memoryId : String) : Prop :=
  ∀ link ∈ (walkProvenance env store memoryId opts).links,
    link.link.OfStore → link.status ≠ .fail

instance (opts : WalkOptions) (store : Store) (memoryId : String) :
    Decidable (WalksWell env opts store memoryId) :=
  inferInstanceAs (Decidable (∀ link ∈ _, _ → _ ≠ _))

theorem spoolManifestLink_link (opts : WalkOptions) (row : CandidateRow) :
    (spoolManifestLink env opts row).link = .spoolManifest := by
  unfold spoolManifestLink
  dsimp only
  split_ifs
  · rfl
  · rfl
  · split
    · rfl
    · split
      · split_ifs <;> rfl
      · rfl

theorem compileTraceLink_link (opts : WalkOptions) (row : CandidateRow) :
    (compileTraceLink opts row).link = .compileTrace := by
  unfold compileTraceLink
  split
  · rfl
  · rfl
  · split <;> rfl

/-- Where the invariant holds and the memory has its receipt, the walk goes
well. -/
theorem Walkable.walksWell {store : Store} {opts : WalkOptions}
    {memory : CuratedMemory} (walkable : Walkable env opts.workspaceId store)
    (stored : memory ∈ store.curatedMemories.rows)
    (promoted : Promoted store.auditEvents memory.id) :
    WalksWell env opts store memory.id := by
  have found : store.curatedMemories.find? memory.id = some memory :=
    Table.find?_eq_some_iff.mpr ⟨stored, rfl⟩
  obtain ⟨row, isRow, isCandidate⟩ := walkable.descends memory stored
  have foundRow : store.candidates.find? memory.candidateId = some row :=
    Table.find?_eq_some_iff.mpr ⟨isRow, isCandidate⟩
  have memoryId := memoryIdDerivationLink_pass (walkable.hashed memory stored)
    (walkable.memories memory stored) (walkable.derived memory stored)
  have receipt := promotionReceiptLink_pass promoted
  have candidateId := candidateIdLink_status (walkable.candidates row isRow)
    (walkable.addressed row isRow)
  intro link member ofStore
  unfold walkProvenance finalizeWalk candidateLinks at member
  dsimp only at member
  rw [found] at member
  dsimp only at member
  rw [foundRow] at member
  simp only [List.cons_append, List.nil_append, List.mem_cons,
    List.not_mem_nil, or_false] at member
  rcases member with rfl | rfl | rfl | rfl | rfl | rfl | rfl
  · simp [LinkName.verdict]
  · simp [memoryId]
  · simp [receipt]
  · simp [LinkName.verdict]
  · exact candidateId
  · exact absurd (spoolManifestLink_link opts row) ofStore.1
  · exact absurd (compileTraceLink_link opts row) ofStore.2

/-! ## The writes -/

section Writes

variable {store : Store}

/-- Receipts of anything but a redaction leave the trails alone. -/
theorem walkable_survivesAppend :
    SurvivesAppend env (·.action ≠ .redacted) (Walkable env workspaceId) := by
  intro store event next notRedaction walkable inserted
  have sameTrail (targetId : String) :
      AuditRepository.findRedactionsFor next targetId =
        AuditRepository.findRedactionsFor store.auditEvents targetId :=
    findRedactionsFor_insert_other inserted
      fun redacts => absurd redacts notRedaction
  constructor
  case toTrailsInStep =>
    constructor
    case hashed => exact walkable.hashed
    case memories =>
      intro memory member
      dsimp only
      rw [sameTrail]
      exact walkable.memories memory member
    case candidates =>
      intro row member
      dsimp only
      rw [sameTrail]
      exact walkable.candidates row member
    case separate => exact walkable.separate
  case derived =>
    intro memory member
    unfold CuratedMemory.trailHash
    rw [sameTrail]
    exact walkable.derived memory member
  case addressed =>
    intro row member
    unfold CandidateRow.trailHash
    rw [sameTrail]
    exact walkable.addressed row member
  case descends => exact walkable.descends
  case about =>
    intro record member redacts
    rw [Table.rows_of_insert? inserted] at member
    rcases List.mem_append.mp member with old | new
    · exact walkable.about record old redacts
    · rw [List.mem_singleton.mp new] at redacts
      exact absurd redacts notRedaction

/-- Only the candidates, the memories and the log matter. -/
theorem Walkable.sameRows {other : Store}
    (walkable : Walkable env workspaceId store)
    (candidates : other.candidates = store.candidates)
    (memories : other.curatedMemories = store.curatedMemories)
    (log : other.auditEvents = store.auditEvents) :
    Walkable env workspaceId other := by
  constructor
  case toTrailsInStep =>
    constructor
    case hashed =>
      rw [memories]
      exact walkable.hashed
    case memories =>
      rw [memories, log]
      exact walkable.memories
    case candidates =>
      rw [candidates, log]
      exact walkable.candidates
    case separate =>
      rw [memories, candidates]
      exact walkable.separate
  case derived =>
    rw [memories, log]
    exact walkable.derived
  case addressed =>
    rw [candidates, log]
    exact walkable.addressed
  case descends =>
    rw [memories, candidates]
    exact walkable.descends
  case about =>
    unfold HasRow
    rw [memories, candidates, log]
    exact walkable.about

/-- A row may give way to another state of it with the same claim. -/
theorem Walkable.replace {old new : CuratedMemory}
    (walkable : Walkable env workspaceId store)
    (found : store.curatedMemories.find? old.id = some old)
    (same : SameClaim old new) :
    Walkable env workspaceId
      { store with
        curatedMemories := store.curatedMemories.replace new } := by
  have isOld := (Table.find?_eq_some_iff.mp found).1
  have fromStore : ∀ memory,
      memory ∈ (store.curatedMemories.replace new).rows →
      memory = new ∨ memory ∈ store.curatedMemories.rows := by
    intro memory member
    rcases Table.mem_replace_iff.mp member with ⟨isNew, -⟩ | ⟨kept, -⟩
    · exact .inl isNew
    · exact .inr kept
  constructor
  case toTrailsInStep =>
    constructor
    case hashed =>
      intro memory member
      rcases fromStore memory member with rfl | kept
      · rw [same.contentHash, same.content]
        exact walkable.hashed old isOld
      · exact walkable.hashed memory kept
    case memories =>
      intro memory member
      rcases fromStore memory member with rfl | kept
      · rw [same.contentHash, same.id]
        exact walkable.memories old isOld
      · exact walkable.memories memory kept
    case candidates => exact walkable.candidates
    case separate =>
      intro memory member
      rcases fromStore memory member with rfl | kept
      · rw [same.id]
        exact walkable.separate old isOld
      · exact walkable.separate memory kept
  case derived =>
    intro memory member
    rcases fromStore memory member with rfl | kept
    · unfold CuratedMemory.trailHash
      rw [same.id, same.candidateId, same.contentHash]
      exact walkable.derived old isOld
    · exact walkable.derived memory kept
  case addressed => exact walkable.addressed
  case descends =>
    intro memory member
    rcases fromStore memory member with rfl | kept
    · rw [same.candidateId]
      exact walkable.descends old isOld
    · exact walkable.descends memory kept
  case about =>
    intro record member redacts
    rcases walkable.about record member redacts with
      ⟨memory, isMemory, isId⟩ | candidate
    · left
      by_cases replaced : memory.id = new.id
      · exact ⟨new, Table.mem_replace_iff.mpr
          (.inl ⟨rfl, memory, isMemory, replaced⟩), replaced.symm.trans isId⟩
      · exact ⟨memory, Table.mem_replace_iff.mpr (.inr ⟨isMemory, replaced⟩),
          isId⟩
    · exact .inr candidate

theorem Walkable.noTrail {id : String}
    (walkable : Walkable env workspaceId store) (free : ¬HasRow store id) :
    AuditRepository.findRedactionsFor store.auditEvents id = [] := by
  apply findRedactionsFor_eq_nil
  intro record member redacts isId
  rw [← isId] at free
  exact free (walkable.about record member redacts)

/-- A memory enters with the id that its candidate and its content derive. -/
theorem Walkable.insertMemory {memory : CuratedMemory} {table : MemoryTable}
    (walkable : Walkable env workspaceId store)
    (inserted : store.curatedMemories.insert? memory = some table)
    (hashed : memory.contentHash =
      computeContentHash env memory.content.value)
    (derived : deriveMemoryId env memory.candidateId memory.contentHash =
      memory.id)
    (descends : ∃ row ∈ store.candidates.rows, row.id = memory.candidateId)
    (apart : ∀ row ∈ store.candidates.rows, memory.id ≠ row.id) :
    Walkable env workspaceId { store with curatedMemories := table } := by
  obtain ⟨free, rows⟩ := Table.insert?_eq_some_iff.mp inserted
  have noTrail : AuditRepository.findRedactionsFor store.auditEvents
      memory.id = [] := by
    apply walkable.noTrail
    rintro (⟨other, member, same⟩ | ⟨row, member, same⟩)
    · exact free other member same
    · exact apart row member same.symm
  have fromStore : ∀ other ∈ table.rows,
      other ∈ store.curatedMemories.rows ∨ other = memory := by
    intro other member
    rw [rows] at member
    simpa using member
  constructor
  case toTrailsInStep =>
    constructor
    case hashed =>
      intro other member
      rcases fromStore other member with kept | rfl
      · exact walkable.hashed other kept
      · exact hashed
    case memories =>
      intro other member
      rcases fromStore other member with kept | rfl
      · exact walkable.memories other kept
      · dsimp only
        rw [noTrail]
        exact trailEnds_nil _
    case candidates => exact walkable.candidates
    case separate =>
      intro other member
      rcases fromStore other member with kept | rfl
      · exact walkable.separate other kept
      · exact apart
  case derived =>
    intro other member
    rcases fromStore other member with kept | rfl
    · exact walkable.derived other kept
    · unfold CuratedMemory.trailHash
      rw [noTrail]
      exact derived
  case addressed => exact walkable.addressed
  case descends =>
    intro other member
    rcases fromStore other member with kept | rfl
    · exact walkable.descends other kept
    · exact descends
  case about =>
    intro record member redacts
    rcases walkable.about record member redacts with
      ⟨other, isMemory, isId⟩ | candidate
    · refine .inl ⟨other, ?_, isId⟩
      rw [rows]
      exact List.mem_append_left _ isMemory
    · exact .inr candidate

/-- A candidate enters with an id that its path and its content derive. -/
theorem Walkable.insertCandidate {row : CandidateRow} {table : CandidateTable}
    (walkable : Walkable env workspaceId store)
    (inserted : store.candidates.insert? row = some table)
    (addressed : AddressedBy env workspaceId row
      (computeContentHash env row.candidate.content))
    (apart : ∀ memory ∈ store.curatedMemories.rows, memory.id ≠ row.id) :
    Walkable env workspaceId { store with candidates := table } := by
  obtain ⟨free, rows⟩ := Table.insert?_eq_some_iff.mp inserted
  have noTrail : AuditRepository.findRedactionsFor store.auditEvents
      row.id = [] := by
    apply walkable.noTrail
    rintro (⟨memory, member, same⟩ | ⟨other, member, same⟩)
    · exact apart memory member same
    · exact free other member same
  have fromStore : ∀ other ∈ table.rows,
      other ∈ store.candidates.rows ∨ other = row := by
    intro other member
    rw [rows] at member
    simpa using member
  have stays : ∀ id, (∃ other ∈ store.candidates.rows, other.id = id) →
      ∃ other ∈ table.rows, other.id = id := by
    rintro id ⟨other, member, isId⟩
    refine ⟨other, ?_, isId⟩
    rw [rows]
    exact List.mem_append_left _ member
  constructor
  case toTrailsInStep =>
    constructor
    case hashed => exact walkable.hashed
    case memories => exact walkable.memories
    case candidates =>
      intro other member
      rcases fromStore other member with kept | rfl
      · exact walkable.candidates other kept
      · dsimp only
        rw [noTrail]
        exact trailEnds_nil _
    case separate =>
      intro memory isMemory other member
      rcases fromStore other member with kept | rfl
      · exact walkable.separate memory isMemory other kept
      · exact apart memory isMemory
  case derived => exact walkable.derived
  case addressed =>
    intro other member
    rcases fromStore other member with kept | rfl
    · exact walkable.addressed other kept
    · unfold CandidateRow.trailHash
      rw [noTrail]
      exact addressed
  case descends =>
    intro memory member
    exact stays _ (walkable.descends memory member)
  case about =>
    intro record member redacts
    rcases walkable.about record member redacts with memory | candidate
    · exact .inl memory
    · exact .inr (stays _ candidate)

/-- The status of candidates is not looked at. -/
theorem Walkable.setStatus {selected : CandidateRow → Bool}
    {status : CandidateStatus} (walkable : Walkable env workspaceId store) :
    Walkable env workspaceId
      { store with
        candidates := store.candidates.updateWhere selected
          (CandidateRepository.CandidateRow.setStatus · status)
          (fun _ _ => rfl) } := by
  let marked (row : CandidateRow) : CandidateRow :=
    if selected row then CandidateRepository.CandidateRow.setStatus row status
    else row
  have stays : ∀ id, (∃ row ∈ store.candidates.rows, row.id = id) →
      ∃ row ∈ (store.candidates.updateWhere selected
        (CandidateRepository.CandidateRow.setStatus · status)
        (fun _ _ => rfl)).rows, row.id = id := by
    rintro id ⟨row, member, rfl⟩
    refine ⟨marked row, List.mem_map.mpr ⟨row, member, rfl⟩, ?_⟩
    by_cases isSelected : selected row <;>
      simp [marked, isSelected, CandidateRow.id,
        CandidateRepository.CandidateRow.setStatus]
  constructor
  case toTrailsInStep =>
    constructor
    case hashed => exact walkable.hashed
    case memories => exact walkable.memories
    case candidates =>
      intro row member
      obtain ⟨before, isBefore, rfl⟩ := List.mem_map.mp member
      have ends := walkable.candidates before isBefore
      split_ifs <;> exact ends
    case separate =>
      intro memory isMemory row member
      obtain ⟨before, isBefore, rfl⟩ := List.mem_map.mp member
      have apart := walkable.separate memory isMemory before isBefore
      split_ifs <;> exact apart
  case derived => exact walkable.derived
  case addressed =>
    intro row member
    obtain ⟨before, isBefore, rfl⟩ := List.mem_map.mp member
    have addressed := walkable.addressed before isBefore
    split_ifs <;> exact addressed
  case descends =>
    intro memory member
    exact stays _ (walkable.descends memory member)
  case about =>
    intro record member redacts
    rcases walkable.about record member redacts with memory | candidate
    · exact .inl memory
    · exact .inr (stays _ candidate)

/-- A memory keeps the start of its trail when it is redacted. -/
theorem Walkable.memory {row updated : CuratedMemory} {event : AuditEvent}
    {log : AuditLog} (walkable : Walkable env workspaceId store)
    (rewrite : MemoryRewrite env store row updated event log) :
    Walkable env workspaceId
      { store with
        curatedMemories := store.curatedMemories.replace updated
        auditEvents := log } := by
  have updatedMember : updated ∈ (store.curatedMemories.replace updated).rows :=
    Table.mem_replace_iff.mpr (.inl ⟨rfl, row, rewrite.stored, rewrite.id.symm⟩)
  have stays : ∀ id,
      (∃ memory ∈ store.curatedMemories.rows, memory.id = id) →
      ∃ memory ∈ (store.curatedMemories.replace updated).rows,
        memory.id = id := by
    rintro id ⟨memory, member, isId⟩
    by_cases replaced : memory.id = updated.id
    · exact ⟨updated, updatedMember, replaced.symm.trans isId⟩
    · exact ⟨memory, Table.mem_replace_iff.mpr (.inr ⟨member, replaced⟩), isId⟩
  constructor
  case toTrailsInStep => exact walkable.toTrailsInStep.memory rewrite
  case derived =>
    intro memory member
    unfold CuratedMemory.trailHash
    rcases Table.mem_replace_iff.mp member with ⟨rfl, -⟩ | ⟨kept, different⟩
    · dsimp only
      rw [rewrite.candidateId, rewrite.id, ← rewrite.about,
        trailStart_insert_own rewrite.inserted rewrite.redacts rewrite.old
          rewrite.new, rewrite.about,
        ← walkable.hashed row rewrite.stored]
      exact walkable.derived row rewrite.stored
    · rw [findRedactionsFor_insert_other rewrite.inserted fun _ same =>
        different (by rw [rewrite.id, ← rewrite.about, same])]
      exact walkable.derived memory kept
  case addressed =>
    intro other member
    unfold CandidateRow.trailHash
    rw [findRedactionsFor_insert_other rewrite.inserted fun _ same =>
      walkable.separate row rewrite.stored other member
        (rewrite.about.symm.trans same)]
    exact walkable.addressed other member
  case descends =>
    intro memory member
    rcases Table.mem_replace_iff.mp member with ⟨rfl, -⟩ | ⟨kept, -⟩
    · rw [rewrite.candidateId]
      exact walkable.descends row rewrite.stored
    · exact walkable.descends memory kept
  case about =>
    intro record member redacts
    rw [Table.rows_of_insert? rewrite.inserted] at member
    rcases List.mem_append.mp member with old | new
    · rcases walkable.about record old redacts with memory | candidate
      · exact .inl (stays _ memory)
      · exact .inr candidate
    · rw [List.mem_singleton.mp new]
      exact .inl ⟨updated, updatedMember,
        rewrite.id.trans rewrite.about.symm⟩

/-- A candidate keeps the start of its trail when its copy is redacted. -/
theorem Walkable.copy {row : CandidateRow} {newContent newTitle : String}
    {event : AuditEvent} {log : AuditLog}
    (walkable : Walkable env workspaceId store)
    (rewrite : CopyRewrite env store row newContent event log) :
    Walkable env workspaceId
      { store with
        candidates :=
          rewrittenCopies env store.candidates row newContent newTitle
        auditEvents := log } := by
  have stays : ∀ id, (∃ other ∈ store.candidates.rows, other.id = id) →
      ∃ other ∈ (rewrittenCopies env store.candidates row newContent
        newTitle).rows, other.id = id := by
    rintro id ⟨other, member, isId⟩
    refine ⟨_, List.mem_map.mpr ⟨other, member, rfl⟩, ?_⟩
    split_ifs <;> exact isId
  constructor
  case toTrailsInStep => exact walkable.toTrailsInStep.copy rewrite
  case derived =>
    intro memory member
    unfold CuratedMemory.trailHash
    rw [findRedactionsFor_insert_other rewrite.inserted fun _ same =>
      walkable.separate memory member row rewrite.stored
        (same.symm.trans rewrite.about)]
    exact walkable.derived memory member
  case addressed =>
    intro other member
    rcases mem_rewrittenCopies rewrite.stored member with
      rfl | ⟨kept, different⟩
    · have addressed := walkable.addressed row rewrite.stored
      unfold CandidateRow.trailHash at addressed ⊢
      change AddressedBy env workspaceId row
        (trailStart (AuditRepository.findRedactionsFor log row.id)
          (computeContentHash env newContent))
      rw [← rewrite.about, trailStart_insert_own rewrite.inserted
        rewrite.redacts rewrite.old rewrite.new, rewrite.about]
      exact addressed
    · unfold CandidateRow.trailHash
      rw [findRedactionsFor_insert_other rewrite.inserted fun _ same =>
        different (same.symm.trans rewrite.about)]
      exact walkable.addressed other kept
  case descends =>
    intro memory member
    exact stays _ (walkable.descends memory member)
  case about =>
    intro record member redacts
    rw [Table.rows_of_insert? rewrite.inserted] at member
    rcases List.mem_append.mp member with old | new
    · rcases walkable.about record old redacts with memory | candidate
      · exact .inl memory
      · exact .inr (stays _ candidate)
    · rw [List.mem_singleton.mp new]
      exact .inr (stays _ ⟨row, rewrite.stored, rewrite.about.symm⟩)

end Writes

end Registrar
