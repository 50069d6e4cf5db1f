import Registrar.Curator.RedactMemory
import Registrar.Store.LifecycleReplay

/-!
# Redaction trails

The receipts of the redactions of a row name the hashes before and after each
one.  A trail is consistent if every redaction starts where the one before it
ended and the last one ends in the present hash.
-/

namespace Registrar

open Program
open AuditRepository (RedactionReceipt)

structure RedactionTrail where
  originalHash : String
  receiptIds : List String
  consistent : Bool
  deriving DecidableEq, Repr

/-- No receipt starts at a hash that the one before it did not end in. -/
def hashesContinue : List RedactionReceipt → Bool
  | [] => true
  | [_] => true
  | first :: second :: rest =>
      second.oldContentHash = first.newContentHash &&
        hashesContinue (second :: rest)

def readRedactionTrail (log : AuditLog) (targetId currentHash : String) :
    Option RedactionTrail :=
  match AuditRepository.findRedactionsFor log targetId with
  | [] => none
  | first :: rest =>
      some
        { originalHash := first.oldContentHash
          receiptIds := (first :: rest).map RedactionReceipt.eventId
          consistent :=
            ((first :: rest).getLast?.map RedactionReceipt.newContentHash =
                some currentHash) &&
              hashesContinue (first :: rest) }

/-- The receipts continue each other and end in this hash, if there are any. -/
def TrailEnds (receipts : List RedactionReceipt) (hash : String) : Prop :=
  (∀ last ∈ receipts.getLast?, last.newContentHash = hash) ∧
    hashesContinue receipts = true

variable {env : Environment}

theorem trailEnds_nil (hash : String) : TrailEnds [] hash :=
  ⟨fun _ absent => (by cases absent), rfl⟩

theorem hashesContinue_append {receipts : List RedactionReceipt}
    {receipt : RedactionReceipt} :
    hashesContinue (receipts ++ [receipt]) = true ↔
      hashesContinue receipts = true ∧
        ∀ last ∈ receipts.getLast?,
          last.newContentHash = receipt.oldContentHash := by
  induction receipts with
  | nil => simp [hashesContinue]
  | cons first rest induction =>
      cases rest with
      | nil => simp [hashesContinue, eq_comm]
      | cons second later =>
          simp only [List.cons_append, hashesContinue, Bool.and_eq_true,
            decide_eq_true_eq, List.getLast?_cons_cons] at induction ⊢
          rw [induction, and_assoc]

theorem TrailEnds.append {receipts : List RedactionReceipt}
    {receipt : RedactionReceipt}
    (ends : TrailEnds receipts receipt.oldContentHash) :
    TrailEnds (receipts ++ [receipt]) receipt.newContentHash := by
  constructor
  · intro last isLast
    rw [List.getLast?_append_of_ne_nil _ (by simp)] at isLast
    cases isLast
    rfl
  · exact hashesContinue_append.mpr ⟨ends.2, ends.1⟩

/-- The trail that is read is consistent just when the receipts end in the
present hash. -/
theorem readRedactionTrail_consistent_iff {log : AuditLog}
    {targetId currentHash : String} :
    (∀ trail ∈ readRedactionTrail log targetId currentHash,
        trail.consistent = true) ↔
      TrailEnds (AuditRepository.findRedactionsFor log targetId)
        currentHash := by
  unfold readRedactionTrail TrailEnds
  cases AuditRepository.findRedactionsFor log targetId with
  | nil => simp [hashesContinue]
  | cons first rest =>
      cases found : (first :: rest).getLast? with
      | none => simp at found
      | some last =>
          simp only [Option.mem_def, Option.some.injEq, forall_eq', found,
            Option.map_some, Bool.and_eq_true, decide_eq_true_eq]

theorem findRedactionsFor_insert {log next : AuditLog} {event : AuditEvent}
    (inserted : log.insert? (appendedRecord env log event) = some next)
    (targetId : String) :
    AuditRepository.findRedactionsFor next targetId =
      if event.action = .redacted ∧ event.memoryId = targetId then
        AuditRepository.findRedactionsFor log targetId ++
          (AuditRepository.rowToRedactionReceipt event).toList
      else AuditRepository.findRedactionsFor log targetId := by
  unfold AuditRepository.findRedactionsFor
  rw [chronological_insert inserted, List.filter_append,
    List.filterMap_append]
  by_cases own : event.action = .redacted ∧ event.memoryId = targetId
  · rw [if_pos own]
    cases receipt : AuditRepository.rowToRedactionReceipt event <;>
      simp [appendedRecord, own, receipt]
  · rw [if_neg own]
    simp [appendedRecord, own]

theorem rowToRedactionReceipt_eq_some {event : AuditEvent}
    {oldContentHash newContentHash : String}
    (old : event.detailText "oldContentHash" = some oldContentHash)
    (new : event.detailText "newContentHash" = some newContentHash) :
    AuditRepository.rowToRedactionReceipt event =
      some
        { eventId := event.id
          targetId := event.memoryId
          oldContentHash := oldContentHash
          newContentHash := newContentHash } := by
  unfold AuditRepository.rowToRedactionReceipt
  rw [old, new]

end Registrar
