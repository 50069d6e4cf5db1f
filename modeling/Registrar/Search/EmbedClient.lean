import Registrar.Library.JsValue
import Registrar.Library.Program
import Registrar.Search.DenseIndexer

/-!
# The embedding client

What the client accepts of a response: one vector for each text, in the order
of the texts, all of one length.  Anything else is no answer.
-/

namespace Registrar

/-- One entry of the response's data: its index, if that is a number, and its
embedding, if that is an array, with the numbers in it. -/
structure EmbeddingEntry where
  index : Option JsNumber
  embedding : Option (List (Option JsNumber))
  deriving DecidableEq

namespace EmbedClient

def finiteNumber : Option JsNumber → Option ℚ
  | some (.finite value) => some value
  | _ => none

/-- The vectors that are placed so far, and their length. -/
structure Slots where
  dims : Option Nat
  vectors : List (Option Embedding)

/-- A slot of the array is written where the index is one of its own. -/
def writeSlot (vectors : List (Option Embedding)) (index : ℚ)
    (embedding : Embedding) : List (Option Embedding) :=
  if index = index.floor then vectors.set index.floor.toNat (some embedding)
  else vectors

def placeEntry (count : Nat) (slots : Slots) (entry : EmbeddingEntry) :
    Option Slots := do
  let index ← finiteNumber entry.index
  let numbers ← entry.embedding
  let embedding ← numbers.mapM finiteNumber
  guard (0 ≤ index ∧ index < (count : ℚ) ∧ embedding ≠ [])
  guard (slots.dims.all (· = embedding.length))
  return {
    dims := some embedding.length
    vectors := writeSlot slots.vectors index embedding }

/-- The vectors of a response, or nothing where it is malformed. -/
def readVectors (count : Nat) (data : List EmbeddingEntry) :
    Option (List Embedding) := do
  guard (data.length = count)
  let slots ← data.foldlM (placeEntry count)
    { dims := none
      vectors := List.replicate count none }
  slots.vectors.mapM id

/-- Without texts no request is made. -/
def embed (respond : List String → Option (List EmbeddingEntry))
    (texts : List String) : Option (List Embedding) :=
  if texts = [] then some []
  else (respond texts).bind (readVectors texts.length)

/-- The placed vectors have the length that is noted. -/
def Slots.Uniform (slots : Slots) : Prop :=
  ∀ vector, some vector ∈ slots.vectors → slots.dims = some vector.length

theorem mem_writeSlot {vectors : List (Option Embedding)} {index : ℚ}
    {embedding vector : Embedding}
    (member : some vector ∈ writeSlot vectors index embedding) :
    vector = embedding ∨ some vector ∈ vectors := by
  unfold writeSlot at member
  split at member
  · rcases List.mem_or_eq_of_mem_set member with old | new
    · exact .inr old
    · exact .inl (Option.some_inj.mp new)
  · exact .inr member

theorem length_writeSlot (vectors : List (Option Embedding)) (index : ℚ)
    (embedding : Embedding) :
    (writeSlot vectors index embedding).length = vectors.length := by
  unfold writeSlot
  split
  · exact List.length_set
  · rfl

theorem of_guard {property : Prop} [Decidable property] {done : Unit}
    (passed : (guard property : Option Unit) = some done) : property := by
  by_contra fails
  rw [guard, if_neg fails] at passed
  cases passed

theorem placeEntry_spec {count : Nat} {slots placed : Slots}
    {entry : EmbeddingEntry} (uniform : slots.Uniform)
    (accepted : placeEntry count slots entry = some placed) :
    placed.Uniform ∧ placed.vectors.length = slots.vectors.length := by
  unfold placeEntry at accepted
  obtain ⟨index, -, accepted⟩ := Option.bind_eq_some_iff.mp accepted
  obtain ⟨numbers, -, accepted⟩ := Option.bind_eq_some_iff.mp accepted
  obtain ⟨embedding, -, accepted⟩ := Option.bind_eq_some_iff.mp accepted
  obtain ⟨-, -, accepted⟩ := Option.bind_eq_some_iff.mp accepted
  obtain ⟨_, sized, accepted⟩ := Option.bind_eq_some_iff.mp accepted
  obtain rfl := Option.some_inj.mp accepted
  refine ⟨fun vector member => ?_, length_writeSlot _ _ _⟩
  rcases mem_writeSlot member with rfl | old
  · rfl
  · have same := of_guard sized
    rw [uniform vector old] at same
    exact congrArg some (of_decide_eq_true same).symm

theorem foldlM_placeEntry {count : Nat} {data : List EmbeddingEntry}
    {slots placed : Slots} (uniform : slots.Uniform)
    (accepted : data.foldlM (placeEntry count) slots = some placed) :
    placed.Uniform ∧ placed.vectors.length = slots.vectors.length := by
  induction data generalizing slots with
  | nil =>
      obtain rfl := Option.some_inj.mp accepted
      exact ⟨uniform, rfl⟩
  | cons entry data induction =>
      rw [List.foldlM_cons] at accepted
      obtain ⟨next, first, rest⟩ := Option.bind_eq_some_iff.mp accepted
      obtain ⟨uniform', length⟩ := placeEntry_spec uniform first
      obtain ⟨uniform'', length'⟩ := induction uniform' rest
      exact ⟨uniform'', length'.trans length⟩

/-- An answer has one vector for each text, and they have one length. -/
structure Answers (texts : List String) (vectors : List Embedding) : Prop where
  length : vectors.length = texts.length
  uniform : ∃ dims, ∀ vector ∈ vectors, vector.length = dims

theorem embed_answers {respond : List String → Option (List EmbeddingEntry)}
    {texts : List String} {vectors : List Embedding}
    (answered : embed respond texts = some vectors) :
    Answers texts vectors := by
  unfold embed at answered
  split at answered
  · rename_i isEmpty
    obtain rfl := Option.some_inj.mp answered
    exact ⟨by rw [isEmpty]; rfl, 0, nofun⟩
  · obtain ⟨data, -, read⟩ := Option.bind_eq_some_iff.mp answered
    obtain ⟨-, -, read⟩ := Option.bind_eq_some_iff.mp read
    obtain ⟨slots, placed, filled⟩ := Option.bind_eq_some_iff.mp read
    have blank : ({ dims := none
                    vectors := List.replicate texts.length none } :
        Slots).Uniform := by
      intro vector member
      cases (List.mem_replicate.mp member).2
    obtain ⟨uniform, length⟩ := foldlM_placeEntry blank placed
    have all := Program.mapM_eq_some_iff.mp filled
    refine ⟨?_, slots.dims.getD 0, ?_⟩
    · rw [← all.length_eq, length, List.length_replicate]
    · intro vector member
      obtain ⟨slot, isSlot, filled⟩ :=
        Program.exists_of_forall₂_right all member
      have placedSlot := uniform vector (filled ▸ isSlot)
      rw [placedSlot]
      rfl

end EmbedClient

end Registrar
