import Registrar.Common.Environment

/-!
# Derived ids

The names that the derived ids are hashed from (`uuid-v5.ts`).  Every name but
a candidate's starts with the tag of its kind, so two names are the same only
for one derivation or for a candidate from a workspace that is called like the
tag of memories.
-/

namespace Registrar

/-- A text without the separator of the name fields. -/
structure NulFreeString where
  value : String
  nulFree : Char.ofNat 0 ∉ value.toList
  deriving DecidableEq

/-- A call of one of the functions that derive ids. -/
inductive Derivation where
  | candidate (workspaceId relPath bodySha256 : NulFreeString)
  | memory (candidateId contentHash : NulFreeString)
  | auditEvent (memoryId action discriminator : NulFreeString)
  | policyEvaluation (memoryId ruleId discriminator : NulFreeString)
  | link (sourceMemoryId targetMemoryId linkType : NulFreeString)
  deriving DecidableEq

namespace Derivation

/-- The id that the call returns. -/
def derive (env : Environment) : Derivation → String
  | .candidate workspaceId relPath bodySha256 =>
      deriveCandidateId env workspaceId.value relPath.value bodySha256.value
  | .memory candidateId contentHash =>
      deriveMemoryId env candidateId.value contentHash.value
  | .auditEvent memoryId action discriminator =>
      deriveAuditEventId env memoryId.value action.value discriminator.value
  | .policyEvaluation memoryId ruleId discriminator =>
      derivePolicyEvaluationId env memoryId.value ruleId.value
        discriminator.value
  | .link sourceMemoryId targetMemoryId linkType =>
      deriveLinkId env sourceMemoryId.value targetMemoryId.value linkType.value

/-- The fields of the name that is hashed. -/
def nameFields : Derivation → List String
  | .candidate workspaceId relPath bodySha256 =>
      [workspaceId.value, relPath.value, bodySha256.value]
  | .memory candidateId contentHash =>
      ["memory", candidateId.value, contentHash.value]
  | .auditEvent memoryId action discriminator =>
      ["audit", memoryId.value, action.value, discriminator.value]
  | .policyEvaluation memoryId ruleId discriminator =>
      ["policy", memoryId.value, ruleId.value, discriminator.value]
  | .link sourceMemoryId targetMemoryId linkType =>
      ["link", sourceMemoryId.value, targetMemoryId.value, linkType.value]

def name (derivation : Derivation) : String :=
  joinNames derivation.nameFields

theorem derive_eq (env : Environment) (derivation : Derivation) :
    derivation.derive env = env.uuidV5 derivation.name := by
  cases derivation <;> rfl

theorem nulFree_nameFields (derivation : Derivation) :
    ∀ field ∈ derivation.nameFields, Char.ofNat 0 ∉ field.toList := by
  cases derivation with
  | candidate workspaceId relPath bodySha256 =>
      simp [nameFields, workspaceId.nulFree, relPath.nulFree,
        bodySha256.nulFree]
  | memory candidateId contentHash =>
      simp [nameFields, candidateId.nulFree, contentHash.nulFree]
  | auditEvent memoryId action discriminator =>
      simp [nameFields, memoryId.nulFree, action.nulFree,
        discriminator.nulFree]
  | policyEvaluation memoryId ruleId discriminator =>
      simp [nameFields, memoryId.nulFree, ruleId.nulFree,
        discriminator.nulFree]
  | link sourceMemoryId targetMemoryId linkType =>
      simp [nameFields, sourceMemoryId.nulFree, targetMemoryId.nulFree,
        linkType.nulFree]

theorem nameFields_ne_nil (derivation : Derivation) :
    derivation.nameFields ≠ [] := by
  cases derivation <;> simp [nameFields]

theorem splitOn_name (derivation : Derivation) :
    derivation.name.toList.splitOn (Char.ofNat 0) =
      derivation.nameFields.map String.toList := by
  have separator : nameFieldSeparator.toList = [Char.ofNat 0] := by
    simp [nameFieldSeparator]
  rw [name, joinNames, String.toList_intercalate, separator]
  apply List.splitOn_intercalate
  · intro field member
    obtain ⟨text, isField, rfl⟩ := List.mem_map.mp member
    exact derivation.nulFree_nameFields text isField
  · simpa using derivation.nameFields_ne_nil

theorem name_eq_iff {left right : Derivation} :
    left.name = right.name ↔ left.nameFields = right.nameFields := by
  constructor
  · intro same
    have fields := left.splitOn_name
    rw [same, right.splitOn_name] at fields
    exact (List.map_injective_iff.mpr fun _ _ => String.toList_inj.mp)
      fields.symm
  · intro same
    rw [name, name, same]

/-- A candidate from a workspace that is called like the tag of memories, and
the memory with its two other fields. -/
def IsTakenForMemory : Derivation → Derivation → Prop
  | .candidate workspaceId relPath bodySha256,
      .memory candidateId contentHash =>
      workspaceId.value = "memory" ∧ relPath = candidateId ∧
        bodySha256 = contentHash
  | _, _ => False

theorem nameFields_eq_iff {left right : Derivation} :
    left.nameFields = right.nameFields ↔
      left = right ∨ left.IsTakenForMemory right ∨
        right.IsTakenForMemory left := by
  have value_inj (first second : NulFreeString) :
      first.value = second.value ↔ first = second := by
    cases first
    cases second
    simp
  cases left <;> cases right <;>
    simp [nameFields, IsTakenForMemory, value_inj, eq_comm]

theorem not_isTakenForMemory_self (derivation : Derivation) :
    ¬derivation.IsTakenForMemory derivation := by
  cases derivation <;> exact id

/-- Without a collision of hashes, two derivations have names and ids of their
own unless one is a candidate that is taken for the other, a memory. -/
theorem derivations_distinct_iff {env : Environment} {left right : Derivation}
    (collisionFree : env.uuidV5 left.name = env.uuidV5 right.name →
      left.name = right.name) :
    (left.name = right.name → left = right) ∧
        (left.derive env = right.derive env → left = right) ↔
      ¬left.IsTakenForMemory right ∧ ¬right.IsTakenForMemory left := by
  have names : left.name = right.name ↔
      left = right ∨ left.IsTakenForMemory right ∨
        right.IsTakenForMemory left :=
    name_eq_iff.trans nameFields_eq_iff
  have ids : left.derive env = right.derive env ↔ left.name = right.name := by
    rw [derive_eq, derive_eq]
    exact ⟨collisionFree, congrArg env.uuidV5⟩
  rw [ids, and_self, names]
  constructor
  · intro distinct
    constructor <;> intro taken
    · obtain rfl := distinct (.inr (.inl taken))
      exact left.not_isTakenForMemory_self taken
    · obtain rfl := distinct (.inr (.inr taken))
      exact left.not_isTakenForMemory_self taken
  · rintro ⟨apart, away⟩ (same | taken | taken)
    · exact same
    · exact absurd taken apart
    · exact absurd taken away

def plainText (value : String)
    (nulFree : Char.ofNat 0 ∉ value.toList := by decide +kernel) :
    NulFreeString where
  value := value
  nulFree := nulFree

/-- A candidate of the file `note` in a workspace. -/
def noteIn (workspaceId : NulFreeString) : Derivation :=
  .candidate workspaceId (plainText "note") (plainText "hash")

def noteMemory : Derivation :=
  .memory (plainText "note") (plainText "hash")

/-- A note of the workspace `memory` has the id of a memory. -/
theorem memoryWorkspace_collides :
    ¬ ∀ (env : Environment) (left right : Derivation),
      (env.uuidV5 left.name = env.uuidV5 right.name →
        left.name = right.name) →
      left.derive env = right.derive env → left = right := by
  intro claimed
  have same := claimed plainEnvironment (noteIn (plainText "memory"))
    noteMemory id (by decide +kernel)
  cases same

theorem derivations_distinct_iff_vault :
    ((noteIn (plainText "vault")).name = noteMemory.name →
        noteIn (plainText "vault") = noteMemory) ∧
      ((noteIn (plainText "vault")).derive plainEnvironment =
          noteMemory.derive plainEnvironment →
        noteIn (plainText "vault") = noteMemory) := by
  have apart : ¬(noteIn (plainText "vault")).IsTakenForMemory noteMemory ∧
      ¬noteMemory.IsTakenForMemory (noteIn (plainText "vault")) :=
    ⟨fun taken => absurd taken.1 (by decide +kernel), id⟩
  exact (derivations_distinct_iff id).mpr apart

end Derivation

end Registrar
