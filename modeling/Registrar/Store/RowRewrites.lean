import Registrar.Library.Transition
import Registrar.Store.AppendedRows

/-!
# Rewriting one row

A row of a table of inserted events is rewritten where it stands.  The walk
finds the tampering unless the row is the last one and the rewritten row is
passed over or hashes to itself behind an earlier row.
-/

namespace Registrar

open HashChain Transition

variable {sha256 : String → String}

/-- The hash over the fields of the row. -/
def recomputedHash (sha256 : String → String) (row : AuditChainRow) : String :=
  computeEntryHash sha256 row.canonical (rowHashVersion row)

/-- The last row was rewritten, and it has no hashes, or its own hash together
with the predecessor it had or the hash of a row before it. -/
def RewriteUnseen (sha256 : String → String) (before : List AuditChainRow)
    (original rewritten : AuditChainRow) (after : List AuditChainRow) : Prop :=
  after = [] ∧
    (rewritten.entryHash = none ∧ rewritten.prevEntryHash = none ∨
      rewritten.entryHash = some (recomputedHash sha256 rewritten) ∧
        (rewritten.prevEntryHash = original.prevEntryHash ∨
          ∃ earlier ∈ before,
            rewritten.prevEntryHash = earlier.entryHash))

/-- The table after inserts into an empty one. -/
def insertedTable (sha256 : String → String) (events : List RawAuditEvent) :
    InsertedTable :=
  run (InsertedTable.insert sha256) (.start Table.empty) events

/-- The rows stand in walking order, and each was written for one event. -/
structure Inserted (sha256 : String → String) (state : InsertedTable) :
    Prop where
  inOrder : findAllChronological state.table.rows = state.table.rows
  joined : (auditScheme sha256).unchecked.Linked none state.table.rows
  written : List.Forall₂ (WrittenFor sha256) state.table.rows state.committed

instance : Std.Total SeqAtMost where
  total left right := by
    unfold SeqAtMost seqAtMost
    cases left.seq <;> cases right.seq <;> simp [le_total]

instance : IsTrans AuditChainRow SeqAtMost where
  trans left middle right := by
    unfold SeqAtMost seqAtMost
    cases left.seq <;> cases middle.seq <;> cases right.seq <;> simp
    exact le_trans

/-- The walk reads only the write-order keys, so it still finds the rewritten
row in its place. -/
theorem findAllChronological_rewrite
    {before after : List AuditChainRow} {original rewritten : AuditChainRow}
    (inOrder : findAllChronological (before ++ original :: after) =
      before ++ original :: after)
    (sameSeq : rewritten.seq = original.seq) :
    findAllChronological (before ++ rewritten :: after) =
      before ++ rewritten :: after := by
  have ordered : List.Pairwise SeqAtMost (before ++ original :: after) := by
    rw [← inOrder]
    exact List.pairwise_insertionSort SeqAtMost _
  apply List.Pairwise.insertionSort_eq
  rw [List.pairwise_append, List.pairwise_cons] at ordered ⊢
  unfold SeqAtMost at ordered ⊢
  simpa only [List.forall_mem_cons, sameSeq] using ordered

theorem AddedInOrder.chronological {committed : List RawAuditEvent}
    {added : List AuditChainRow} {keys : List Int}
    (inOrder : AddedInOrder [] committed added keys) :
    findAllChronological added = added := by
  apply List.Pairwise.insertionSort_eq
  have keyed : List.Pairwise (fun left right => seqAtMost left right = true)
      (added.map AuditChainRow.seq) := by
    rw [inOrder.stored, List.pairwise_map]
    exact inOrder.increasing.imp fun below => decide_eq_true below.le
  rw [List.pairwise_map] at keyed
  exact keyed

theorem inserted_insertedTable (events : List RawAuditEvent) :
    Inserted sha256 (insertedTable sha256 events) := by
  have holds : Extends sha256 Table.empty (insertedTable sha256 events) := by
    apply invariant_of_run (fun _ event kept => kept.insert event)
    exact Extends.initially .nil
  obtain ⟨added, keys, extension, inOrder, written⟩ := holds.extended
  have rows : (insertedTable sha256 events).table.rows = added := extension
  have chronological := inOrder.chronological
  refine
    { inOrder := by rw [rows, chronological]
      joined := ?_
      written := rows ▸ written }
  have joined := holds.joined
  rw [rows, chronological] at joined
  rw [rows]
  exact joined

theorem Inserted.chained {state : InsertedTable}
    (holds : Inserted sha256 state) :
    ∀ row ∈ state.table.rows, (auditScheme sha256).Chained row := by
  intro row member
  obtain ⟨event, -, isWritten⟩ := exists_right_of_forall₂ holds.written member
  exact isWritten.chained

theorem entryHash_ne_of_id_ne
    (collisionFree : Function.Injective sha256) {left right : AuditChainRow}
    {texts texts' : AuditRowStrings} (hashed : left.HashedFrom sha256 texts)
    (rightHashed : right.HashedFrom sha256 texts')
    (different : left.id ≠ right.id) : left.entryHash ≠ right.entryHash := by
  intro same
  rw [hashed.hash, rightHashed.hash, Option.some.injEq] at same
  have columns := AuditRowStrings.columns_eq_of_entryHash_eq collisionFree same
  obtain ⟨-, covered⟩ := AuditRowStrings.columns_eq_iff.mp columns
  apply different
  calc
    left.id = texts.id.toWellFormed :=
      congrArg CanonicalAuditRow.id hashed.columns
    _ = texts'.id.toWellFormed := by rw [covered.id]
    _ = right.id := (congrArg CanonicalAuditRow.id rightHashed.columns).symm

/-- What passes unnoticed in a chain whose rows are intact up to the rewritten
one. -/
theorem unnoticed_iff {before after : List AuditChainRow}
    {original rewritten : AuditChainRow}
    (joined : (auditScheme sha256).unchecked.Linked none
      (before ++ original :: after))
    (originalChained : (auditScheme sha256).Chained original)
    (intact : ∀ row ∈ before, (auditScheme sha256).Intact row) :
    (auditScheme sha256).Unnoticed before rewritten after ↔
      RewriteUnseen sha256 before original rewritten after := by
  have originalPoints : original.prevEntryHash =
      (auditScheme sha256).tip none before := by
    rcases Scheme.linked_cons_iff.mp (Scheme.linked_append_iff.mp joined).2 with
      ⟨unchained, -⟩ | ⟨-, fits, -⟩
    · exact absurd originalChained unchained
    · exact fits.1
  have points : (auditScheme sha256).Points before rewritten ↔
      rewritten.prevEntryHash = original.prevEntryHash := by
    rw [originalPoints]
    rfl
  have anchored : (auditScheme sha256).Anchored before rewritten ↔
      ∃ earlier ∈ before, rewritten.prevEntryHash = earlier.entryHash := by
    constructor
    · intro anchor
      obtain ⟨earlier, member, -, same⟩ := anchor
      exact ⟨earlier, member, same⟩
    · intro anchor
      obtain ⟨earlier, member, same⟩ := anchor
      exact ⟨earlier, member, intact earlier member, same⟩
  unfold Scheme.Unnoticed RewriteUnseen
  rw [points, anchored]
  unfold Scheme.Chained
  rw [not_not]
  rfl

/-- The breaks that are no forks are the findings that are tampering. -/
theorem exists_tamperBreak_iff {rows : List AuditChainRow} :
    (∃ brk ∈ (verifyAuditChain sha256 rows).breaks,
        brk.reason ≠ .chainFork) ↔
      ∃ front row back, rows = front ++ row :: back ∧
        ((auditScheme sha256).verdictAfter front row).IsTamper := by
  constructor
  · intro noticed
    obtain ⟨brk, member, tamper⟩ := noticed
    obtain ⟨front, row, back, split, -, reason⟩ :=
      (mem_verifyAuditChain_breaks_iff sha256).mp ⟨brk, member, rfl, rfl⟩
    refine ⟨front, row, back, split, ?_⟩
    cases verdict : (auditScheme sha256).verdictAfter front row <;>
      rw [verdict] at reason <;> simp_all [reasonOf, Verdict.IsTamper,
        Verdict.IsBreak]
  · intro noticed
    obtain ⟨front, row, back, split, tamper⟩ := noticed
    have reported : ∃ reason ≠ AuditChainBreakReason.chainFork,
        reasonOf ((auditScheme sha256).verdictAfter front row) =
          some reason := by
      cases verdict : (auditScheme sha256).verdictAfter front row <;>
        rw [verdict] at tamper <;>
        simp_all [reasonOf, Verdict.IsTamper, Verdict.IsBreak]
    obtain ⟨reason, isTamper, isReason⟩ := reported
    obtain ⟨brk, member, -, sameReason⟩ :=
      (mem_verifyAuditChain_breaks_iff sha256).mpr
        ⟨front, row, back, split, rfl, isReason⟩
    refine ⟨brk, member, ?_⟩
    rw [sameReason]
    exact isTamper

/-- A row of a table of inserted events is rewritten, keeping its write-order
key, such that its entry hash changes or is not the hash over its fields.  Some
break that is no fork is reported, unless the row is the last one and the
rewrite is `RewriteUnseen`; where a text of another inserted event has an
unpaired surrogate there is such a break in any case. -/
theorem rewrittenRow_noticed_iff
    (collisionFree : Function.Injective sha256) (events : List RawAuditEvent)
    {before after : List AuditChainRow} {original rewritten : AuditChainRow}
    (built : (insertedTable sha256 events).table.rows =
      before ++ original :: after)
    (sameSeq : rewritten.seq = original.seq)
    (changed : rewritten.entryHash ≠ original.entryHash ∨
      rewritten.entryHash ≠ some (recomputedHash sha256 rewritten)) :
    (∃ brk ∈
        (verifyAuditChain sha256
          (findAllChronological (before ++ rewritten :: after))).breaks,
        brk.reason ≠ .chainFork) ↔
      (∃ other ∈
          (insertedTable sha256 events).committed.eraseIdx before.length,
          ¬other.IsStorable) ∨
        ¬RewriteUnseen sha256 before original rewritten after := by
  have holds : Inserted sha256 (insertedTable sha256 events) :=
    inserted_insertedTable events
  have allChained := holds.chained
  obtain ⟨inOrder, joined, written⟩ := holds
  have coexist := (insertedTable sha256 events).table.coexist
  rw [built] at inOrder joined written allChained coexist
  obtain ⟨earlier, event, later, committed, sameLength, writtenBefore,
    writtenOriginal, writtenAfter⟩ := exists_split_of_forall₂ written
  have otherEvents :
      (insertedTable sha256 events).committed.eraseIdx before.length =
        earlier ++ later := by
    rw [committed, sameLength, List.eraseIdx_append_of_length_le le_rfl,
      Nat.sub_self, List.eraseIdx_cons_zero]
  have distinct : ∀ row ∈ before, row.entryHash ≠ original.entryHash := by
    intro row member
    obtain ⟨source, -, isWritten⟩ :=
      exists_right_of_forall₂ writtenBefore member
    obtain ⟨texts, hashed⟩ := isWritten.hashedFrom
    obtain ⟨texts', originalHashed⟩ := writtenOriginal.hashedFrom
    apply entryHash_ne_of_id_ne collisionFree hashed originalHashed
    exact ((List.pairwise_append.mp coexist).2.2 row member original
      List.mem_cons_self).1
  have others : (∃ row ∈ before ++ after, ¬(auditScheme sha256).Intact row) ↔
      ∃ other ∈ earlier ++ later, ¬other.IsStorable := by
    have aligned := List.rel_append writtenBefore writtenAfter
    constructor
    · intro broken
      obtain ⟨row, member, notIntact⟩ := broken
      obtain ⟨source, inside, isWritten⟩ :=
        exists_right_of_forall₂ aligned member
      exact ⟨source, inside, fun storable =>
        notIntact (isWritten.intact storable)⟩
    · intro unstorable
      obtain ⟨source, member, notStorable⟩ := unstorable
      obtain ⟨row, inside, isWritten⟩ := exists_left_of_forall₂ aligned member
      exact ⟨row, inside, fun intact =>
        notStorable ((isWritten.intact_iff collisionFree).mp intact)⟩
  rw [findAllChronological_rewrite inOrder sameSeq, exists_tamperBreak_iff,
    Scheme.Linked.exists_isTamper_iff joined allChained distinct changed,
    others, otherEvents]
  by_cases unstorable : ∃ other ∈ earlier ++ later, ¬other.IsStorable
  · simp only [unstorable, true_or]
  · have intact : ∀ row ∈ before, (auditScheme sha256).Intact row := by
      intro row member
      by_contra broken
      exact unstorable (others.mp
        ⟨row, List.mem_append_left after member, broken⟩)
    rw [unnoticed_iff joined (allChained original (by simp)) intact]

def rewriteEvent (id : String) (reason : Option JsString) : RawAuditEvent where
  id := .ofString id
  action := .promoted
  memoryId := .ofString "memory"
  tenantId := .ofString "team"
  actorJson := "{}"
  reason := reason
  detailsJson := "{}"
  timestamp := .ofString "2026-01-01T00:00:00.000Z"

def earlierRow : AuditChainRow :=
  appendedRow id [] (appendParams (rewriteEvent "first" none))

def laterRow : AuditChainRow :=
  appendedRow id [earlierRow] (appendParams (rewriteEvent "second" none))

def twoEvents : List RawAuditEvent :=
  [rewriteEvent "first" none, rewriteEvent "second" none]

theorem earlierRow_coexists : AuditRowsCoexist earlierRow laterRow := by
  simp [AuditRowsCoexist, earlierRow, laterRow, appendedRow,
    canonicalAppendRow, AuditRowStrings.stored, appendParams, rewriteEvent,
    nextSeq, maxSeq, increment, List.max?]

theorem oneEvent_inserted (event : RawAuditEvent) :
    (insertedTable id [event]).table.rows =
        [appendedRow id [] (appendParams event)] ∧
      (insertedTable id [event]).committed = [event] :=
  @InsertedTable.insert_of_coexist id (.start Table.empty) event
    fun _ member => absurd member List.not_mem_nil

theorem twoEvents_inserted :
    (insertedTable id twoEvents).table.rows = [earlierRow, laterRow] ∧
      (insertedTable id twoEvents).committed = twoEvents := by
  obtain ⟨rows, committed⟩ := oneEvent_inserted (rewriteEvent "first" none)
  have accepted : ∀ other ∈
      (insertedTable id [rewriteEvent "first" none]).table.rows,
      AuditRowsCoexist other (appendedRow id
        (insertedTable id [rewriteEvent "first" none]).table.rows
        (appendParams (rewriteEvent "second" none))) := by
    rw [rows]
    intro other member
    rw [List.mem_singleton.mp member]
    exact earlierRow_coexists
  have inserted := InsertedTable.insert_of_coexist accepted
  rw [rows, committed] at inserted
  exact inserted

/-- The row with the hash over its own fields. -/
def AuditChainRow.rehashed (sha256 : String → String) (row : AuditChainRow) :
    AuditChainRow :=
  { row with entryHash := some (recomputedHash sha256 row) }

theorem rehashed_intact (row : AuditChainRow) :
    (auditScheme sha256).Intact (row.rehashed sha256) :=
  rfl

def clearedRow : AuditChainRow :=
  { laterRow with
    entryHash := none
    prevEntryHash := none }

def otherTenant (row : AuditChainRow) : AuditChainRow :=
  { row with tenantId := "other" }.rehashed id

theorem otherTenant_entryHash_ne {row : AuditChainRow}
    (intact : (auditScheme id).Intact row) (different : row.tenantId ≠ "other") :
    (otherTenant row).entryHash ≠ row.entryHash := by
  intro same
  have hashed : row.entryHash = some (recomputedHash id row) := intact
  rw [hashed] at same
  have texts : recomputedHash id { row with tenantId := "other" } =
      recomputedHash id row := Option.some.inj same
  obtain ⟨-, fields, -⟩ :=
    computeEntryHash_injective Function.injective_id texts
  exact different (congrArg CanonicalAuditRow.tenantId fields).symm

theorem twoRows_intact :
    (auditScheme id).Intact earlierRow ∧ (auditScheme id).Intact laterRow := by
  have storable : ∀ id, (rewriteEvent id none).IsStorable := fun id =>
    { id := JsString.wellFormed_ofString _
      memoryId := JsString.wellFormed_ofString _
      tenantId := JsString.wellFormed_ofString _
      reason := fun _ absent => by cases absent }
  exact ⟨appendedRow_intact id [] (storable "first"),
    appendedRow_intact id [earlierRow] (storable "second")⟩

theorem earlierRow_linked :
    (auditScheme id).Linked none [earlierRow] ∧
      laterRow.prevEntryHash = earlierRow.entryHash := by
  have previous : laterRow.prevEntryHash = stmtLastHash [earlierRow] :=
    appendedRow_previous id [earlierRow]
      (appendParams (rewriteEvent "second" none))
  have intact := twoRows_intact.1
  refine ⟨.link (Scheme.chained_of_intact _ intact) ⟨?_, intact⟩ .nil, ?_⟩
  · exact appendedRow_previous id [] (appendParams (rewriteEvent "first" none))
  · rw [previous]
    rfl

/-- The second row, cleared of its hashes or moved to another tenant under its
own new hash: its entry hash differs, and the walk reports no break. -/
theorem lastRow_rewritesUnseen :
    (insertedTable id twoEvents).table.rows = [earlierRow, laterRow] ∧
      (clearedRow.entryHash ≠ laterRow.entryHash ∧
        (verifyAuditChain id
          (findAllChronological [earlierRow, clearedRow])).breaks = []) ∧
      ((otherTenant laterRow).entryHash ≠ laterRow.entryHash ∧
        (verifyAuditChain id
          (findAllChronological [earlierRow, otherTenant laterRow])).breaks =
          []) := by
  have inOrder : ∀ row : AuditChainRow, row.seq = laterRow.seq →
      findAllChronological [earlierRow, row] = [earlierRow, row] := by
    intro row sameSeq
    have built := (@inserted_insertedTable id twoEvents).inOrder
    rw [twoEvents_inserted.1] at built
    exact @findAllChronological_rewrite [earlierRow] [] laterRow row built sameSeq
  obtain ⟨linked, previous⟩ := earlierRow_linked
  refine ⟨twoEvents_inserted.1, ⟨?_, ?_⟩, ?_, ?_⟩
  · intro same
    cases same
  · rw [inOrder clearedRow rfl, verifyAuditChain_breaks_eq_nil_iff]
    apply (@Scheme.linked_append_iff _ _ (auditScheme id) none [earlierRow] _).mpr
    exact ⟨linked, .skip (not_not.mpr ⟨rfl, rfl⟩) .nil⟩
  · exact otherTenant_entryHash_ne twoRows_intact.2 (by
      simp [laterRow, appendedRow, canonicalAppendRow, AuditRowStrings.stored,
        appendParams, rewriteEvent])
  · rw [inOrder (otherTenant laterRow) rfl,
      verifyAuditChain_breaks_eq_nil_iff]
    apply (@Scheme.linked_append_iff _ _ (auditScheme id) none [earlierRow] _).mpr
    refine ⟨linked, .link ?_ ⟨?_, ?_⟩ .nil⟩
    · exact Scheme.chained_of_intact _ (rehashed_intact _)
    · exact previous
    · exact rehashed_intact _

/-- The first row, moved to another tenant under its own new hash: the row
behind it no longer points at it. -/
theorem rewrittenRow_noticed_iff_first :
    ∃ brk ∈
      (verifyAuditChain id
        (findAllChronological [otherTenant earlierRow, laterRow])).breaks,
      brk.reason ≠ .chainFork := by
  have changed : (otherTenant earlierRow).entryHash ≠ earlierRow.entryHash :=
    otherTenant_entryHash_ne twoRows_intact.1 (by
      simp [earlierRow, appendedRow, canonicalAppendRow, AuditRowStrings.stored,
        appendParams, rewriteEvent])
  apply (@rewrittenRow_noticed_iff id Function.injective_id twoEvents []
    [laterRow] earlierRow (otherTenant earlierRow) twoEvents_inserted.1 rfl
    (.inl changed)).mpr
  right
  intro unseen
  cases unseen.1

end Registrar
