import Registrar.Curator.Promoter
import Registrar.Library.Coupling

/-!
# Promotions by different promoters

Who promotes, and the reason given, end up on the memory and on its receipt and
nowhere else.  Two promotions that differ in nothing else end alike.
-/

namespace Registrar

open Program

def CuratedMemory.unattributed (memory : CuratedMemory) : CuratedMemory :=
  { memory with promotedBy := curatorActor }

/-- The receipt of a promotion without its actor and reason. -/
def AuditEvent.unattributed (event : AuditEvent) : AuditEvent :=
  if event.action = .promoted then
    { event with
      actor := curatorActor
      reason := none }
  else event

/-- A record as a later append and the lookups see it. -/
def AuditRecord.unattributed (record : AuditRecord) :
    AuditEvent × Option Int :=
  (record.event.unattributed, record.seq)

/-- The logs differ at most in attributions and hashes. -/
def AlikeLogs (left right : AuditLog) : Prop :=
  left.rows.map AuditRecord.unattributed =
    right.rows.map AuditRecord.unattributed

structure AlikeStores (left right : Store) : Prop where
  candidates : left.candidates = right.candidates
  governancePolicies : left.governancePolicies = right.governancePolicies
  memoryLinks : left.memoryLinks = right.memoryLinks
  importBatches : left.importBatches = right.importBatches
  memories : Table.Alike CuratedMemory.unattributed left.curatedMemories
    right.curatedMemories
  records : AlikeLogs left.auditEvents right.auditEvents

theorem AlikeStores.refl (store : Store) : AlikeStores store store :=
  ⟨rfl, rfl, rfl, rfl, rfl, rfl⟩

/-- A full-text index holds the texts of a memory and not its promoter. -/
def Environment.IndexesText (env : Environment) : Prop :=
  ∀ query left right,
    left.map CuratedMemory.unattributed =
      right.map CuratedMemory.unattributed →
    (env.fts5Match query left).map (List.map CuratedMemory.unattributed) =
      (env.fts5Match query right).map (List.map CuratedMemory.unattributed)

/-- An answer to a request, not a failure of the code. -/
def RegistrarError.IsRefusal : RegistrarError → Prop
  | .api _ _ _ => True
  | _ => False

variable {env : Environment}

section Views

variable (event : AuditEvent)

@[simp]
theorem unattributed_id : event.unattributed.id = event.id := by
  unfold AuditEvent.unattributed
  split_ifs <;> rfl

@[simp]
theorem unattributed_action : event.unattributed.action = event.action := by
  unfold AuditEvent.unattributed
  split_ifs <;> rfl

@[simp]
theorem unattributed_memoryId :
    event.unattributed.memoryId = event.memoryId := by
  unfold AuditEvent.unattributed
  split_ifs <;> rfl

@[simp]
theorem unattributed_tenantId :
    event.unattributed.tenantId = event.tenantId := by
  unfold AuditEvent.unattributed
  split_ifs <;> rfl

@[simp]
theorem unattributed_timestamp :
    event.unattributed.timestamp = event.timestamp := by
  unfold AuditEvent.unattributed
  split_ifs <;> rfl

@[simp]
theorem unattributed_details :
    event.unattributed.details = event.details := by
  unfold AuditEvent.unattributed
  split_ifs <;> rfl

theorem unattributed_of_floorReceipt
    (isFloor : event.isFloorReceipt = true) : event.unattributed = event := by
  unfold AuditEvent.isFloorReceipt at isFloor
  rw [Bool.and_eq_true, decide_eq_true_eq] at isFloor
  unfold AuditEvent.unattributed
  rw [if_neg (by simp [isFloor.1])]

@[simp]
theorem unattributed_isFloorReceipt :
    event.unattributed.isFloorReceipt = event.isFloorReceipt := by
  unfold AuditEvent.isFloorReceipt AuditEvent.detailText
  rw [unattributed_action, unattributed_details]

end Views

section Logs

variable {left right : AuditLog}

/-- What a lookup by timestamp finds, without attribution, is found in the
unattributed log. -/
theorem findByTimestamp_unattributed (log : AuditLog)
    (selected : AuditEvent → Bool)
    (seen : ∀ event, selected event.unattributed = selected event) :
    (AuditRepository.findByTimestamp log (fun record =>
        selected record.event)).map AuditEvent.unattributed =
      (((log.rows.map AuditRecord.unattributed).filter fun record =>
        selected record.1).insertionSort fun first second =>
          first.1.timestamp ≤ second.1.timestamp).map Prod.fst := by
  unfold AuditRepository.findByTimestamp
  have inView : (log.rows.map AuditRecord.unattributed).filter
      (fun record => selected record.1) =
        (log.rows.filter fun record => selected record.event).map
          AuditRecord.unattributed := by
    rw [List.filter_map]
    simp only [Function.comp_def, AuditRecord.unattributed, seen]
  rw [inView, ← List.map_insertionSort (fun first second : AuditRecord =>
    first.event.timestamp ≤ second.event.timestamp)]
  · simp only [List.map_map]
    rfl
  · intro first _ second _
    simp [AuditRecord.unattributed]

theorem AlikeLogs.findByMemoryAndTenant (alike : AlikeLogs left right)
    (memoryId tenantId : String) :
    (AuditRepository.findByMemoryAndTenant left memoryId tenantId).map
        AuditEvent.unattributed =
      (AuditRepository.findByMemoryAndTenant right memoryId tenantId).map
        AuditEvent.unattributed := by
  have view (log : AuditLog) := findByTimestamp_unattributed log
    (fun event => event.memoryId = memoryId && event.tenantId.value = tenantId)
    (fun event => by simp)
  have same : left.rows.map AuditRecord.unattributed =
      right.rows.map AuditRecord.unattributed :=
    alike
  refine (view left).trans (Eq.trans ?_ (view right).symm)
  rw [same]

theorem AlikeLogs.sameFloor (env : Environment)
    (alike : AlikeLogs left right) (candidate : MemoryCandidate) :
    resolveCandidateMinimumSensitivity env candidate left =
      resolveCandidateMinimumSensitivity env candidate right := by
  have floors (events : List AuditEvent) :
      events.filter AuditEvent.isFloorReceipt =
        (events.map AuditEvent.unattributed).filter
          AuditEvent.isFloorReceipt := by
    rw [List.filter_map]
    simp only [Function.comp_def, unattributed_isFloorReceipt]
    have same : (events.filter AuditEvent.isFloorReceipt).map
        AuditEvent.unattributed =
          (events.filter AuditEvent.isFloorReceipt).map id := by
      apply List.map_congr_left
      intro event member
      exact unattributed_of_floorReceipt event (List.of_mem_filter member)
    rw [same, List.map_id]
  unfold resolveCandidateMinimumSensitivity
  rw [floors, alike.findByMemoryAndTenant, ← floors]

theorem AlikeLogs.sameConstraint (alike : AlikeLogs left right)
    (memoryId tenantId id name : String) :
    (((AuditRepository.findByMemoryAndTenant left memoryId tenantId).find?
        (·.id = id)).bind fun event =>
          (Json.field? event.details name).map Json.stringify) =
      (((AuditRepository.findByMemoryAndTenant right memoryId tenantId).find?
        (·.id = id)).bind fun event =>
          (Json.field? event.details name).map Json.stringify) := by
  have seen (events : List AuditEvent) :
      ((events.find? (·.id = id)).bind fun event =>
          (Json.field? event.details name).map Json.stringify) =
        (((events.map AuditEvent.unattributed).find? (·.id = id)).bind
          fun event => (Json.field? event.details name).map Json.stringify) := by
    rw [List.find?_map]
    simp only [Function.comp_def, unattributed_id, Option.bind_map,
      unattributed_details]
  rw [seen, alike.findByMemoryAndTenant, ← seen]

theorem AlikeLogs.sameNextSeq (alike : AlikeLogs left right) :
    nextSeq (left.rows.map AuditRecord.columns) =
      nextSeq (right.rows.map AuditRecord.columns) := by
  have seen (log : AuditLog) :
      (log.rows.map AuditRecord.columns).filterMap AuditChainRow.seq =
        (log.rows.map AuditRecord.unattributed).filterMap Prod.snd := by
    rw [List.filterMap_map, List.filterMap_map]
    rfl
  have same : left.rows.map AuditRecord.unattributed =
      right.rows.map AuditRecord.unattributed :=
    alike
  unfold nextSeq maxSeq
  rw [seen, seen, same]

end Logs

/-- The id is new and the next write-order key is free. -/
def AuditLog.Accepts (log : AuditLog) (id : String) : Prop :=
  ∀ record ∈ log.rows, record.event.id ≠ id ∧
    (record.seq = none ∨
      record.seq ≠ some (nextSeq (log.rows.map AuditRecord.columns)))

instance (log : AuditLog) (id : String) : Decidable (log.Accepts id) :=
  inferInstanceAs (Decidable (∀ _ ∈ _, _))

theorem isSome_insert?_iff_accepts (env : Environment) {log : AuditLog}
    {event : AuditEvent} :
    (log.insert? (appendedRecord env log event)).isSome ↔
      log.Accepts event.id := by
  rw [Option.isSome_iff_ne_none, ne_eq, Table.insert?_eq_none_iff]
  push Not
  rfl

theorem AlikeLogs.accepts_iff {left right : AuditLog}
    (alike : AlikeLogs left right) (id : String) :
    left.Accepts id ↔ right.Accepts id := by
  have seen (log : AuditLog) : log.Accepts id ↔
      ∀ record ∈ log.rows.map AuditRecord.unattributed,
        record.1.id ≠ id ∧ (record.2 = none ∨
          record.2 ≠ some (nextSeq (log.rows.map AuditRecord.columns))) := by
    simp [AuditLog.Accepts, AuditRecord.unattributed]
  have same : left.rows.map AuditRecord.unattributed =
      right.rows.map AuditRecord.unattributed :=
    alike
  rw [seen, seen, same, alike.sameNextSeq]

/-! ## Programs over alike stores -/

/-- The programs end alike from alike stores, without refusing anything. -/
abbrev EndAlike {Value Value' : Type} (agrees : Value → Value' → Prop)
    (left : StoreM Value) (right : StoreM Value') : Prop :=
  Coupled AlikeStores (¬ ·.IsRefusal) agrees left right

theorem orSchemaError_endAlike {Value Value' : Type}
    {agrees : Value → Value' → Prop} {left : Except SchemaIssue Value}
    {right : Except SchemaIssue Value'}
    (same : (∃ value value', left = .ok value ∧ right = .ok value' ∧
        agrees value value') ∨
      ∃ issue, left = .error issue ∧ right = .error issue) :
    EndAlike agrees (orSchemaError left) (orSchemaError right) := by
  rcases same with ⟨value, value', rfl, rfl, related⟩ | ⟨issue, rfl, rfl⟩
  · exact Coupled.pure related
  · exact Coupled.throw id

theorem orSchemaError_endAlike_self {Value : Type}
    (checked : Except SchemaIssue Value) :
    EndAlike Eq (orSchemaError checked) (orSchemaError checked) := by
  cases checked with
  | ok value => exact Coupled.pure rfl
  | error issue => exact Coupled.throw id

theorem resolveMinimum_endAlike (candidate : MemoryCandidate) :
    EndAlike Eq (resolveMinimum env candidate)
      (resolveMinimum env candidate) := by
  constructor
  intro left right alike
  have floor := alike.records.sameFloor env candidate
  cases resolved : resolveCandidateMinimumSensitivity env candidate
      left.auditEvents with
  | ok minimum =>
      rw [resolveMinimum_eq_ok_iff.mpr ⟨resolved, rfl⟩,
        resolveMinimum_eq_ok_iff.mpr ⟨floor ▸ resolved, rfl⟩]
      exact ⟨rfl, alike⟩
  | error error =>
      have throws : Throws (¬ ·.IsRefusal) (resolveMinimum env candidate) := by
        apply resolveMinimum_throws
        intro other ofReceipt
        cases ofReceipt <;> exact id
      rw [resolveMinimum_eq_error resolved,
        resolveMinimum_eq_error (floor ▸ resolved)]
      exact ⟨rfl, throws.ofKind (resolveMinimum_eq_error resolved), alike⟩

theorem AuditRepository.insert_endAlike {event event' : AuditEvent}
    (same : event.unattributed = event'.unattributed) :
    EndAlike (fun _ _ => True) (AuditRepository.insert env event)
      (AuditRepository.insert env event') := by
  have sameId : event.id = event'.id := by
    rw [← unattributed_id event, same, unattributed_id]
  constructor
  intro left right alike
  have accepted := alike.records.accepts_iff event.id
  unfold AuditRepository.insert
  cases inserted : left.auditEvents.insert?
      (appendedRecord env left.auditEvents event) with
  | some next =>
      have accepts : right.auditEvents.Accepts event'.id := by
        rw [← sameId, ← accepted, ← isSome_insert?_iff_accepts env,
          inserted]
        rfl
      obtain ⟨next', inserted'⟩ := Option.isSome_iff_exists.mp
        ((isSome_insert?_iff_accepts env).mpr accepts)
      rw [inserted']
      refine ⟨trivial, alike.candidates, alike.governancePolicies,
        alike.memoryLinks, alike.importBatches, alike.memories, ?_⟩
      have records : left.auditEvents.rows.map AuditRecord.unattributed =
          right.auditEvents.rows.map AuditRecord.unattributed :=
        alike.records
      unfold AlikeLogs
      rw [Table.rows_of_insert? inserted, Table.rows_of_insert? inserted',
        List.map_append, List.map_append, records]
      simp only [List.map_singleton, AuditRecord.unattributed, appendedRecord,
        appendedRow, alike.records.sameNextSeq, same]
  | none =>
      have refused : right.auditEvents.insert?
          (appendedRecord env right.auditEvents event') = none := by
        rw [← Option.not_isSome_iff_eq_none, isSome_insert?_iff_accepts env,
          ← sameId, ← accepted, ← isSome_insert?_iff_accepts env,
          inserted]
        simp
      have sameUse : left.auditEvents.rows.any (·.event.id = event.id) =
          right.auditEvents.rows.any (·.event.id = event'.id) := by
        have seen (log : AuditLog) (id : String) :
            log.rows.any (·.event.id = id) =
              (log.rows.map AuditRecord.unattributed).any (·.1.id = id) := by
          simp [List.any_map, Function.comp_def, AuditRecord.unattributed]
        have records : left.auditEvents.rows.map AuditRecord.unattributed =
            right.auditEvents.rows.map AuditRecord.unattributed :=
          alike.records
        rw [seen, seen, records, sameId]
      rw [refused]
      dsimp only
      rw [sameUse]
      split_ifs
      · exact ⟨rfl, id, alike⟩
      · exact ⟨rfl, id, alike⟩

theorem unattributed_shown (memory : CuratedMemory) :
    memory.unattributed.id = memory.id :=
  rfl

theorem MemoryRepository.insert_endAlike {memory memory' : CuratedMemory}
    (same : memory.unattributed = memory'.unattributed) :
    EndAlike (fun _ _ => True) (MemoryRepository.insert memory)
      (MemoryRepository.insert memory') := by
  constructor
  intro left right alike
  unfold MemoryRepository.insert
  rcases alike.memories.insert? unattributed_shown same with
      ⟨next, next', inserted, inserted', stays⟩ | ⟨refused, refused'⟩
  · rw [inserted, inserted']
    exact ⟨trivial, alike.candidates, alike.governancePolicies,
      alike.memoryLinks, alike.importBatches, stays, alike.records⟩
  · rw [refused, refused']
    exact ⟨rfl, id, alike⟩

theorem MemoryRepository.update_endAlike {memory memory' : CuratedMemory}
    (same : memory.unattributed = memory'.unattributed) :
    EndAlike (fun _ _ => True) (MemoryRepository.update memory)
      (MemoryRepository.update memory') := by
  constructor
  intro left right alike
  exact ⟨trivial, alike.candidates, alike.governancePolicies,
    alike.memoryLinks, alike.importBatches,
    alike.memories.replace unattributed_shown same,
    alike.records⟩

theorem AlikeStores.isSome_find? {left right : Store}
    (alike : AlikeStores left right) (id : String) :
    (left.curatedMemories.find? id).isSome =
      (right.curatedMemories.find? id).isSome := by
  have found := alike.memories.find? unattributed_shown id
  rw [← Option.isSome_map, found, Option.isSome_map]

theorem MemoryLinksRepository.insert_endAlike (link : MemoryLink) :
    EndAlike (fun _ _ => True) (MemoryLinksRepository.insert link)
      (MemoryLinksRepository.insert link) := by
  constructor
  intro left right alike
  unfold MemoryLinksRepository.insert
  rw [alike.memoryLinks]
  cases right.memoryLinks.insert? link with
  | none => exact ⟨rfl, id, alike⟩
  | some next =>
      dsimp only
      rw [alike.isSome_find?, alike.isSome_find?]
      split_ifs
      · exact ⟨trivial, alike.candidates, alike.governancePolicies, rfl,
          alike.importBatches, alike.memories, alike.records⟩
      · exact ⟨rfl, id, alike⟩

theorem AuditRepository.record_endAlike {input input' : AuditEventInput}
    (same : (∃ event event', AuditEvent.parse input = .ok event ∧
        AuditEvent.parse input' = .ok event' ∧
        event.unattributed = event'.unattributed) ∨
      ∃ issue, AuditEvent.parse input = .error issue ∧
        AuditEvent.parse input' = .error issue) :
    EndAlike (fun _ _ => True) (AuditRepository.record env input)
      (AuditRepository.record env input') := by
  apply Coupled.bind (orSchemaError_endAlike same)
  intro event event' related
  exact AuditRepository.insert_endAlike related

/-- The searches found the same memories, up to their promoters, or failed
alike. -/
def FoundAlike (first second : Except RegistrarError (List CuratedMemory)) :
    Prop :=
  (∃ found found', first = .ok found ∧ second = .ok found' ∧
    found.map CuratedMemory.unattributed =
      found'.map CuratedMemory.unattributed) ∨
  ∃ error, ¬error.IsRefusal ∧ first = .error error ∧ second = .error error

theorem searchByText_alike (indexes : env.IndexesText) {left right : Store}
    (alike : AlikeStores left right) (slug : String) :
    FoundAlike (MemoryRepository.searchByText env left.curatedMemories slug)
      (MemoryRepository.searchByText env right.curatedMemories slug) := by
  unfold MemoryRepository.searchByText
  dsimp only
  split_ifs
  · exact .inl ⟨[], [], rfl, rfl, rfl⟩
  · have ranked := indexes (trim (String.ofList (slug.toList.filter fun char =>
      ! ['*', '"', '^', '(', ')', '{', '}', ':'].contains char))) _ _
      alike.memories
    generalize env.fts5Match _ left.curatedMemories.rows = first at ranked ⊢
    generalize env.fts5Match _ right.curatedMemories.rows = second at ranked ⊢
    cases first with
    | none =>
        cases second with
        | none => exact .inr ⟨_, id, rfl, rfl⟩
        | some rows' => cases ranked
    | some rows =>
        cases second with
        | none => cases ranked
        | some rows' =>
            have sameRows : rows.map CuratedMemory.unattributed =
                rows'.map CuratedMemory.unattributed := by
              simpa using ranked
            have seen (rows : List CuratedMemory) :
                ((rows.filter (·.lifecycle = .active)).take 100).map
                    CuratedMemory.unattributed =
                  ((rows.map CuratedMemory.unattributed).filter
                    (·.lifecycle = .active)).take 100 := by
              rw [List.filter_map, List.map_take]
              rfl
            refine .inl ⟨_, _, rfl, rfl, ?_⟩
            rw [seen, seen, sameRows]

/-- The promotion by someone else, for another reason. -/
def PromotionInput.attributed (input : PromotionInput)
    (promotedBy : Option Author) (promotionReason : Option String) :
    PromotionInput :=
  { input with
    promotedBy := promotedBy
    promotionReason := promotionReason }

section Promotion

variable {input : PromotionInput} {now : String}

theorem promotionReceiptReason_parses
    (unresolved : input.humanResolvedFlags = []) :
    ∃ reason, parseNonEmpty "reason" (promotionReceiptReason input) =
      .ok reason := by
  have solid : trim (promotionReceiptReason input) ≠ "" := by
    have verdict : trim ("passed all governance rules".capitalize) ≠ "" := by
      decide
    unfold promotionReceiptReason
    simp only [unresolved, ne_eq, not_true, if_false]
    cases input.promotionReason with
    | none => exact verdict
    | some reason =>
        dsimp only
        split_ifs
        · exact verdict
        · apply @Trim.trim_ne_empty _ _ '('
          · simp
          · decide
  exact parseNonEmpty_of_solid "reason" solid

theorem supersede_endAlike (sup : SupersessionMatch)
    {old old' : CuratedMemory} (same : old.unattributed = old'.unattributed) :
    EndAlike (fun _ _ => True) (input.supersede env now sup old)
      (input.supersede env now sup old') := by
  unfold PromotionInput.supersede
  apply Coupled.bind (orSchemaError_endAlike_self _)
  rintro reason _ rfl
  have retired (link : SupersessionLink) :
      (old.retired link now).unattributed =
        (old'.retired link now).unattributed :=
    congrArg (CuratedMemory.retired · link now) same
  apply Coupled.bind (MemoryRepository.update_endAlike (retired _))
  intro _ _ _
  exact Coupled.pure trivial

theorem record_endAlike_self (event : AuditEventInput) :
    EndAlike (fun _ _ => True) (AuditRepository.record env event)
      (AuditRepository.record env event) := by
  apply Coupled.bind (orSchemaError_endAlike_self _)
  rintro parsed _ rfl
  exact AuditRepository.insert_endAlike rfl

theorem retire_endAlike (sup : SupersessionMatch) :
    EndAlike (fun _ _ => True) (input.retire env now sup)
      (input.retire env now sup) := by
  unfold PromotionInput.retire
  have reads : EndAlike
      (fun found found' => found.map CuratedMemory.unattributed =
        found'.map CuratedMemory.unattributed)
      (query fun store : Store =>
        store.curatedMemories.find? sup.supersededMemoryId)
      (query fun store : Store =>
        store.curatedMemories.find? sup.supersededMemoryId) := by
    apply Coupled.query
    intro left right alike
    exact alike.memories.find? unattributed_shown sup.supersededMemoryId
  apply Coupled.bind reads
  intro found found' same
  have retires : EndAlike (fun _ _ => True)
      (found.toList.forM (input.supersede env now sup))
      (found'.toList.forM (input.supersede env now sup)) := by
    cases found with
    | none =>
        cases found' with
        | none => exact Coupled.pure trivial
        | some old' => cases same
    | some old =>
        cases found' with
        | none => cases same
        | some old' =>
            apply Coupled.bind (supersede_endAlike sup (Option.some.inj same))
            intro _ _ _
            exact Coupled.pure trivial
  apply Coupled.bind retires
  intro _ _ _
  exact record_endAlike_self _

theorem drawWikiLink_endAlike (indexes : env.IndexesText)
    (wikiLink : WikiLink) :
    EndAlike (fun _ _ => True) (input.drawWikiLink env now wikiLink)
      (input.drawWikiLink env now wikiLink) := by
  unfold PromotionInput.drawWikiLink
  have searches : EndAlike FoundAlike
      (query fun store : Store =>
        MemoryRepository.searchByText env store.curatedMemories wikiLink.slug)
      (query fun store : Store =>
        MemoryRepository.searchByText env store.curatedMemories
          wikiLink.slug) := by
    apply Coupled.query
    intro left right alike
    exact searchByText_alike indexes alike wikiLink.slug
  apply Coupled.bind searches
  rintro _ _ (⟨targets, targets', rfl, rfl, same⟩ | ⟨error, ofKind, rfl, rfl⟩)
  · dsimp only
    have sameTarget (fits : CuratedMemory → Bool)
        (seen : ∀ memory, fits memory.unattributed = fits memory) :
        (targets.find? fits).map CuratedMemory.unattributed =
          (targets'.find? fits).map CuratedMemory.unattributed := by
      have inView (rows : List CuratedMemory) :
          (rows.find? fits).map CuratedMemory.unattributed =
            (rows.map CuratedMemory.unattributed).find? fits := by
        rw [List.find?_map]
        simp only [Function.comp_def, seen]
      rw [inView, inView, same]
    have chosen := sameTarget
      (fun memory => env.toLowerCase memory.title.value =
          env.toLowerCase wikiLink.slug && memory.id ≠ input.memoryId env)
      (fun _ => rfl)
    split
    · rename_i absent
      rw [absent, Option.map_none, eq_comm, Option.map_eq_none_iff] at chosen
      rw [chosen]
      exact Coupled.pure trivial
    · rename_i target found
      rw [found, Option.map_some, eq_comm, Option.map_eq_some_iff] at chosen
      obtain ⟨target', found', sameView⟩ := chosen
      have sameId : target'.id = target.id := by
        rw [← unattributed_shown target', sameView, unattributed_shown]
      rw [found']
      dsimp only
      rw [sameId]
      apply Coupled.tryCatch (MemoryLinksRepository.insert_endAlike _)
      intro error _
      exact Coupled.pure trivial
  · exact Coupled.throw ofKind

theorem drawLinks_endAlike (indexes : env.IndexesText) :
    EndAlike (fun _ _ => True) (input.drawLinks env now)
      (input.drawLinks env now) := by
  unfold PromotionInput.drawLinks
  apply Coupled.bind
  · apply Coupled.forM
    intro sup _
    exact MemoryLinksRepository.insert_endAlike _
  · intro _ _ _
    apply Coupled.forM
    intro wikiLink _
    exact drawWikiLink_endAlike indexes wikiLink

variable {promotedBy : Option Author} {promotionReason : Option String}

/-- The memories differ in their promoter only. -/
theorem memory_attributed (minimum : Option Sensitivity) :
    (∃ memory memory', input.memory env now minimum = .ok memory ∧
        (input.attributed promotedBy promotionReason).memory env now minimum =
          .ok memory' ∧ memory.unattributed = memory'.unattributed) ∨
      ∃ issue, input.memory env now minimum = .error issue ∧
        (input.attributed promotedBy promotionReason).memory env now minimum =
          .error issue := by
  unfold PromotionInput.memory
  have same : (input.attributed promotedBy promotionReason).candidate =
      input.candidate :=
    rfl
  rw [same]
  cases parseNonEmpty "content" input.candidate.content with
  | error issue => exact .inr ⟨issue, rfl, rfl⟩
  | ok content =>
      cases parseNonEmpty "title" input.candidate.title with
      | error issue => exact .inr ⟨issue, rfl, rfl⟩
      | ok title =>
          cases parseNonEmpty "tenantId" input.candidate.tenantId with
          | error issue => exact .inr ⟨issue, rfl, rfl⟩
          | ok tenantId => exact .inl ⟨_, _, rfl, rfl, rfl⟩

theorem checkFloorRetained_endAlike {memory memory' : CuratedMemory}
    (same : memory.unattributed = memory'.unattributed)
    (minimum : Sensitivity) :
    EndAlike (fun _ _ => True)
      (input.checkFloorRetained env now memory minimum)
      ((input.attributed promotedBy promotionReason).checkFloorRetained env now
        memory' minimum) := by
  have sameId : memory.id = memory'.id := by
    rw [← unattributed_shown memory, same, unattributed_shown]
  have sameTenant : memory.unattributed.tenantId =
      memory'.unattributed.tenantId :=
    congrArg CuratedMemory.tenantId same
  have sameSensitivity : memory.unattributed.sensitivity =
      memory'.unattributed.sensitivity :=
    congrArg CuratedMemory.sensitivity same
  change memory.tenantId = memory'.tenantId at sameTenant
  change memory.sensitivity = memory'.sensitivity at sameSensitivity
  unfold PromotionInput.checkFloorRetained
  rw [← sameId, ← sameTenant, ← sameSensitivity]
  have storedSame : EndAlike
      (fun found found' => found.map CuratedMemory.sensitivity =
        found'.map CuratedMemory.sensitivity)
      (query fun store : Store => store.curatedMemories.find? memory.id)
      (query fun store : Store => store.curatedMemories.find? memory.id) := by
    apply Coupled.query
    intro left right alike
    have found := congrArg (Option.map CuratedMemory.sensitivity)
      (alike.memories.find? unattributed_shown memory.id)
    rw [Option.map_map, Option.map_map] at found
    exact found
  apply Coupled.bind storedSame
  intro stored stored' sameStored
  have receiptSame : EndAlike
      (fun receipt receipt' : Option AuditEvent =>
        (receipt.bind fun event =>
          (Json.field? event.details "sensitivityConstraint").map
            Json.stringify) =
        receipt'.bind fun event =>
          (Json.field? event.details "sensitivityConstraint").map
            Json.stringify)
      (query fun store : Store =>
        (AuditRepository.findByMemoryAndTenant store.auditEvents memory.id
          memory.tenantId.value).find? fun event =>
            event.id = (input.promotedEvent env now (some minimum)).id)
      (query fun store : Store =>
        (AuditRepository.findByMemoryAndTenant store.auditEvents memory.id
          memory.tenantId.value).find? fun event =>
            event.id = (input.promotedEvent env now (some minimum)).id) := by
    apply Coupled.query
    intro left right alike
    exact alike.records.sameConstraint memory.id memory.tenantId.value _ _
  apply Coupled.bind receiptSame
  intro receipt receipt' sameReceipt
  apply Coupled.bind (resolveMinimum_endAlike input.candidate)
  rintro resolved _ rfl
  dsimp only
  apply Coupled.ensure _ id
  rw [sameStored, sameReceipt]
  rfl

/-- The receipts differ in their actor and reason only. -/
theorem promotedEvent_attributed (unresolved : input.humanResolvedFlags = [])
    (minimum : Option Sensitivity) :
    EndAlike (fun _ _ => True)
      (AuditRepository.record env (input.promotedEvent env now minimum))
      (AuditRepository.record env
        ((input.attributed promotedBy promotionReason).promotedEvent env now
          minimum)) := by
  apply AuditRepository.record_endAlike
  obtain ⟨reason, parsed⟩ := promotionReceiptReason_parses unresolved
  have unresolved' : (input.attributed promotedBy
      promotionReason).humanResolvedFlags = [] :=
    unresolved
  obtain ⟨reason', parsed'⟩ := promotionReceiptReason_parses unresolved'
  unfold AuditEvent.parse PromotionInput.promotedEvent
  have sameCandidate : (input.attributed promotedBy promotionReason).candidate =
      input.candidate :=
    rfl
  simp only [Option.mapM_some, parsed, parsed', sameCandidate]
  cases parseNonEmpty "tenantId" input.candidate.tenantId with
  | error issue => exact .inr ⟨issue, rfl, rfl⟩
  | ok tenantId => exact .inl ⟨_, _, rfl, rfl, rfl⟩

theorem commit_endAlike (indexes : env.IndexesText)
    (unresolved : input.humanResolvedFlags = [])
    {memory memory' : CuratedMemory}
    (same : memory.unattributed = memory'.unattributed) (withLinks : Bool)
    (minimum : Option Sensitivity) :
    EndAlike (fun _ _ => True)
      (input.commit env now withLinks memory minimum)
      ((input.attributed promotedBy promotionReason).commit env now withLinks
        memory' minimum) := by
  unfold PromotionInput.commit
  apply Coupled.bind (resolveMinimum_endAlike input.candidate)
  rintro resolved _ rfl
  apply Coupled.bind (Coupled.ensure Iff.rfl id)
  intro _ _ _
  apply Coupled.bind
  · apply Coupled.forM
    intro sup _
    exact retire_endAlike sup
  intro _ _ _
  apply Coupled.bind (MemoryRepository.insert_endAlike same)
  intro _ _ _
  apply Coupled.bind (Coupled.when fun _ => drawLinks_endAlike indexes)
  intro _ _ _
  apply Coupled.bind (promotedEvent_attributed unresolved minimum)
  intro _ _ _
  apply Coupled.forM
  intro floor _
  exact checkFloorRetained_endAlike same floor

/-- Two promotions that differ in promoter and reason only end alike: in
memories that differ in the promoter only, or in the same error. -/
theorem promote_endAlike (indexes : env.IndexesText)
    (unresolved : input.humanResolvedFlags = []) (dryRun withLinks : Bool) :
    EndAlike
      (fun memory memory' => memory.unattributed = memory'.unattributed)
      (promote env input dryRun withLinks now)
      (promote env (input.attributed promotedBy promotionReason) dryRun
        withLinks now) := by
  unfold promote
  apply Coupled.bind (resolveMinimum_endAlike input.candidate)
  rintro minimum _ rfl
  apply Coupled.bind (Coupled.ensure Iff.rfl id)
  intro _ _ _
  apply Coupled.bind (orSchemaError_endAlike (memory_attributed minimum))
  intro memory memory' same
  apply Coupled.bind
  · apply Coupled.when
    intro _
    apply Coupled.transaction
    exact commit_endAlike indexes unresolved same withLinks minimum
  · intro _ _ _
    exact Coupled.pure same

end Promotion

end Registrar
