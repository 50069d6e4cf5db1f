import Registrar.Store.AuditRepository

/-!
# Rows added by inserts

A table that grows by inserts, with the events whose insert has returned.  Its
hashes stay linked, and each row was written for one of the events; whether the
walk finds it intact is decided by the texts of that event.
-/

namespace Registrar

open HashChain

variable {sha256 : String → String}

/-- The row is the one that a transaction adds for the event. -/
def WrittenFor (sha256 : String → String) (row : AuditChainRow)
    (event : RawAuditEvent) : Prop :=
  ∃ rows, row = appendedRow sha256 rows (appendParams event)

section Written

variable {row : AuditChainRow} {event : RawAuditEvent}

theorem WrittenFor.id_eq (written : WrittenFor sha256 row event) :
    row.id = event.id.toWellFormed := by
  obtain ⟨rows, isRow⟩ := written
  rw [isRow]
  rfl

theorem WrittenFor.chained (written : WrittenFor sha256 row event) :
    (auditScheme sha256).Chained row := by
  obtain ⟨rows, isRow⟩ := written
  rw [isRow]
  exact appendedRow_chained sha256 rows _

theorem WrittenFor.hashedFrom (written : WrittenFor sha256 row event) :
    ∃ texts, row.HashedFrom sha256 texts := by
  obtain ⟨rows, isRow⟩ := written
  rw [isRow]
  exact ⟨_, appendedRow_hashedFrom sha256 rows _⟩

theorem WrittenFor.intact (written : WrittenFor sha256 row event)
    (storable : event.IsStorable) : (auditScheme sha256).Intact row := by
  obtain ⟨rows, isRow⟩ := written
  rw [isRow]
  exact appendedRow_intact sha256 rows storable

theorem WrittenFor.intact_iff (collisionFree : Function.Injective sha256)
    (written : WrittenFor sha256 row event) :
    (auditScheme sha256).Intact row ↔ event.IsStorable := by
  obtain ⟨rows, isRow⟩ := written
  rw [isRow]
  exact appendedRow_intact_iff collisionFree

end Written

/-- A table and the events whose insert has returned, in commit order. -/
structure InsertedTable where
  table : AuditTable
  committed : List RawAuditEvent

def InsertedTable.start (table : AuditTable) : InsertedTable where
  table := table
  committed := []

/-- An insert that fails leaves the table as it was. -/
def InsertedTable.insert (sha256 : String → String) (state : InsertedTable)
    (event : RawAuditEvent) : InsertedTable :=
  match insertAuditEvent sha256 state.table event with
  | .ok table =>
      { table := table
        committed := state.committed ++ [event] }
  | .error _ => state

theorem InsertedTable.insert_of_coexist {state : InsertedTable}
    {event : RawAuditEvent}
    (accepted : ∀ other ∈ state.table.rows, AuditRowsCoexist other
      (appendedRow sha256 state.table.rows (appendParams event))) :
    (state.insert sha256 event).table.rows =
        state.table.rows ++
          [appendedRow sha256 state.table.rows (appendParams event)] ∧
      (state.insert sha256 event).committed = state.committed ++ [event] := by
  unfold InsertedTable.insert insertAuditEvent appendTxn Table.insert?
  dsimp only
  rw [dif_pos accepted]
  exact ⟨rfl, rfl⟩

/-- The rows added to `start` stand behind it in commit order, under keys
that increase strictly and lie above all the keys of `start`. -/
structure AddedInOrder (start : List AuditChainRow)
    (committed : List RawAuditEvent) (added : List AuditChainRow)
    (keys : List Int) : Prop where
  events : added.map AuditChainRow.id =
    committed.map fun event => event.id.toWellFormed
  stored : added.map AuditChainRow.seq = keys.map some
  increasing : keys.Pairwise (· < ·)
  fresh : ∀ row ∈ start, ∀ old, row.seq = some old → ∀ new ∈ keys, old < new

theorem AddedInOrder.append_singleton
    {start : List AuditChainRow} {committed : List RawAuditEvent}
    {added : List AuditChainRow} {keys : List Int}
    (inOrder : AddedInOrder start committed added keys)
    {event : RawAuditEvent} {row : AuditChainRow} {key : Int}
    (sameId : row.id = event.id.toWellFormed)
    (stored : row.seq = some key)
    (above : ∀ earlier ∈ start ++ added, ∀ old,
      earlier.seq = some old → old < key) :
    AddedInOrder start (committed ++ [event]) (added ++ [row])
      (keys ++ [key]) where
  events := by simp [inOrder.events, sameId]
  stored := by simp [inOrder.stored, stored]
  increasing := by
    rw [List.pairwise_append]
    refine ⟨inOrder.increasing, List.pairwise_singleton _ _, ?_⟩
    intro old oldMember new newMember
    rw [List.mem_singleton.mp newMember]
    have oldStored : some old ∈ added.map AuditChainRow.seq := by
      rw [inOrder.stored]
      exact List.mem_map_of_mem oldMember
    obtain ⟨earlier, member, seq⟩ := List.mem_map.mp oldStored
    exact above earlier (List.mem_append_right start member) old seq
  fresh := by
    intro earlier member old seq new newMember
    rcases List.mem_append.mp newMember with before | last
    · exact inOrder.fresh earlier member old seq new before
    · rw [List.mem_singleton.mp last]
      exact above earlier (List.mem_append_left added member) old seq

/-- What holds after any number of inserts into `start`. -/
structure Extends (sha256 : String → String) (start : AuditTable)
    (state : InsertedTable) : Prop where
  joined : (auditScheme sha256).unchecked.Linked none
    (findAllChronological state.table.rows)
  extended : ∃ added keys,
    state.table.rows = start.rows ++ added ∧
      AddedInOrder start.rows state.committed added keys ∧
      List.Forall₂ (WrittenFor sha256) added state.committed

section Aligned

variable {Left Right : Type*} {related : Left → Right → Prop}
  {lefts : List Left} {rights : List Right}

theorem exists_right_of_forall₂ (aligned : List.Forall₂ related lefts rights)
    {left : Left} (member : left ∈ lefts) :
    ∃ right ∈ rights, related left right := by
  induction aligned with
  | nil => cases member
  | @cons head right rest others isRelated _ induction =>
      rcases List.mem_cons.mp member with isHead | later
      · rw [isHead]
        exact ⟨right, List.mem_cons_self, isRelated⟩
      · obtain ⟨other, inside, isOther⟩ := induction later
        exact ⟨other, List.mem_cons_of_mem right inside, isOther⟩

theorem exists_left_of_forall₂ (aligned : List.Forall₂ related lefts rights)
    {right : Right} (member : right ∈ rights) :
    ∃ left ∈ lefts, related left right :=
  exists_right_of_forall₂ aligned.flip member

theorem exists_split_of_forall₂ {before after : List Left} {left : Left}
    (aligned : List.Forall₂ related (before ++ left :: after) rights) :
    ∃ earlier right later, rights = earlier ++ right :: later ∧
      before.length = earlier.length ∧ List.Forall₂ related before earlier ∧
      related left right ∧ List.Forall₂ related after later := by
  induction before generalizing rights with
  | nil =>
      cases aligned with
      | @cons _ right _ later isRelated rest =>
          exact ⟨[], right, later, rfl, rfl, .nil, isRelated, rest⟩
  | cons head rest induction =>
      cases aligned with
      | @cons _ first _ others isRelated tail =>
          obtain ⟨earlier, right, later, split, sameLength, front, middle,
            back⟩ := induction tail
          refine ⟨first :: earlier, right, later, ?_, ?_, .cons isRelated front,
            middle, back⟩
          · rw [split, List.cons_append]
          · rw [List.length_cons, List.length_cons, sameLength]

end Aligned

namespace Extends

variable {start : AuditTable} {state : InsertedTable}

theorem initially
    (joined : (auditScheme sha256).unchecked.Linked none
      (findAllChronological start.rows)) :
    Extends sha256 start (.start start) where
  joined := joined
  extended := ⟨[], [], (List.append_nil _).symm,
    { events := rfl
      stored := rfl
      increasing := .nil
      fresh := fun _ _ _ _ _ member => absurd member List.not_mem_nil },
    .nil⟩

theorem insert (holds : Extends sha256 start state) (event : RawAuditEvent) :
    Extends sha256 start (state.insert sha256 event) := by
  unfold InsertedTable.insert
  cases outcome : insertAuditEvent sha256 state.table event with
  | error _ => exact holds
  | ok next =>
      obtain ⟨accepted, rows⟩ := appendTxn_eq_ok outcome
      obtain ⟨added, keys, extension, inOrder, written⟩ := holds.extended
      obtain ⟨row, isRow⟩ : ∃ row, row =
          appendedRow sha256 state.table.rows (appendParams event) :=
        ⟨_, rfl⟩
      rw [← isRow] at rows
      have isWritten : WrittenFor sha256 row event := ⟨_, isRow⟩
      have above : ∀ earlier ∈ start.rows ++ added, ∀ old,
          earlier.seq = some old → old < nextSeq state.table.rows := by
        intro earlier member old seq
        rw [← extension] at member
        exact seq_lt_nextSeq accepted member seq
      refine
        { joined := appendTxn_joined holds.joined outcome
          extended := ⟨added ++ [row], keys ++ [nextSeq state.table.rows],
            ?_, ?_, ?_⟩ }
      · calc
          next.rows = state.table.rows ++ [row] := rows
          _ = start.rows ++ (added ++ [row]) := by
            rw [extension, List.append_assoc]
      · apply inOrder.append_singleton isWritten.id_eq _ above
        rw [isRow]
        rfl
      · exact List.rel_append written (.cons isWritten .nil)

theorem linked (holds : Extends sha256 start state)
    (startIntact : ∀ row ∈ start.rows, (auditScheme sha256).Chained row →
      (auditScheme sha256).Intact row)
    (storable : ∀ event ∈ state.committed, event.IsStorable) :
    (auditScheme sha256).Linked none
      (findAllChronological state.table.rows) := by
  obtain ⟨added, keys, extension, -, written⟩ := holds.extended
  refine Scheme.linked_iff_unchecked.mpr ⟨holds.joined, ?_⟩
  intro row member chained
  have inside := (findAllChronological_perm _).mem_iff.mp member
  rw [extension] at inside
  rcases List.mem_append.mp inside with old | new
  · exact startIntact row old chained
  · obtain ⟨event, isEvent, isWritten⟩ := exists_right_of_forall₂ written new
    exact isWritten.intact (storable event isEvent)

theorem storable (collisionFree : Function.Injective sha256)
    (holds : Extends sha256 start state)
    (linked : (auditScheme sha256).Linked none
      (findAllChronological state.table.rows)) :
    ∀ event ∈ state.committed, event.IsStorable := by
  intro event member
  obtain ⟨added, keys, extension, -, written⟩ := holds.extended
  obtain ⟨row, inside, isWritten⟩ := exists_left_of_forall₂ written member
  apply (isWritten.intact_iff collisionFree).mp
  apply linked.intact _ isWritten.chained
  apply (findAllChronological_perm _).mem_iff.mpr
  rw [extension]
  exact List.mem_append_right _ inside

end Extends

def sampleEvent (id : String) (reason : Option JsString) : RawAuditEvent where
  id := .ofString id
  action := .proposed
  memoryId := .ofString "m"
  tenantId := .ofString "t"
  actorJson := "{}"
  reason := reason
  detailsJson := "{}"
  timestamp := .ofString "2026-01-01T00:00:00.000Z"

theorem sampleEvent_isStorable (id : String) :
    (sampleEvent id none).IsStorable where
  id := JsString.wellFormed_ofString _
  memoryId := JsString.wellFormed_ofString _
  tenantId := JsString.wellFormed_ofString _
  reason := fun _ absent => by cases absent

theorem firstHighSurrogate : 0 < 1024 := by decide

/-- A text whose only code point is an unpaired surrogate. -/
def loneSurrogate : JsString where
  points := [.highSurrogate ⟨0, firstHighSurrogate⟩]
  unpaired := List.isChain_singleton _

theorem loneSurrogate_not_wellFormed : ¬loneSurrogate.WellFormed :=
  fun wellFormed => wellFormed _ List.mem_cons_self

end Registrar
