import Registrar.Library.Regex

/-!
# Leftmost matches

A search goes through a text from the left.  At a position its attempt either
ends the search, or says how many symbols to pass over besides the next one.
-/

namespace Leftmost

variable {Symbol Found : Type*}

abbrev Attempt (Symbol Found : Type*) :=
  Regex.Position Symbol → Found ⊕ Nat

/-- The search among the symbols ahead, after the given number of them. -/
def searchAfter (attempt : Attempt Symbol Found) :
    Nat → List Symbol → List Symbol → Option Found
  | 0, before, [] => (attempt ⟨before, []⟩).getLeft?
  | _ + 1, _, [] => none
  | 0, before, symbol :: rest =>
      match attempt ⟨before, symbol :: rest⟩ with
      | .inl found => some found
      | .inr passed => searchAfter attempt passed (symbol :: before) rest
  | passed + 1, before, symbol :: rest =>
      searchAfter attempt passed (symbol :: before) rest

def search (attempt : Attempt Symbol Found) (text : List Symbol) :
    Option Found :=
  searchAfter attempt 0 [] text

/-- What is found at the positions of the text, each time going on after the
symbols of what was found. -/
def allAfter (attempt : Regex.Position Symbol → Option (Found × Nat)) :
    Nat → List Symbol → List Symbol → List Found
  | 0, before, [] => ((attempt ⟨before, []⟩).map Prod.fst).toList
  | _ + 1, _, [] => []
  | 0, before, symbol :: rest =>
      match attempt ⟨before, symbol :: rest⟩ with
      | some (found, length) =>
          found :: allAfter attempt (length - 1) (symbol :: before) rest
      | none => allAfter attempt 0 (symbol :: before) rest
  | passed + 1, before, symbol :: rest =>
      allAfter attempt passed (symbol :: before) rest

def all (attempt : Regex.Position Symbol → Option (Found × Nat))
    (text : List Symbol) : List Found :=
  allAfter attempt 0 [] text

/-- The position after so many symbols of a text. -/
def positionAt (text : List Symbol) (offset : Nat) : Regex.Position Symbol :=
  ⟨(text.take offset).reverse, text.drop offset⟩

/-- No attempt at an earlier position of this kind passes over the position. -/
def Open (attempt : Attempt Symbol Found) (text : List Symbol)
    (offset : Nat) : Prop :=
  ∀ earlier, earlier < offset → Open attempt text earlier →
    ∀ passed, attempt (positionAt text earlier) = .inr passed →
      earlier + passed < offset
termination_by offset

variable {attempt : Attempt Symbol Found} {text : List Symbol}

theorem open_iff {offset : Nat} :
    Open attempt text offset ↔
      ∀ earlier, earlier < offset → Open attempt text earlier →
        ∀ passed, attempt (positionAt text earlier) = .inr passed →
          earlier + passed < offset := by
  rw [Open]

/-- The attempts before the offset leave open what lies at least so far ahead of
it. -/
def Leaves (attempt : Attempt Symbol Found) (text : List Symbol)
    (offset passed : Nat) : Prop :=
  ∀ later, offset ≤ later →
    ((∀ earlier, earlier < offset → Open attempt text earlier →
      ∀ skipped, attempt (positionAt text earlier) = .inr skipped →
        earlier + skipped < later) ↔
      offset + passed ≤ later)

theorem leaves_zero : Leaves attempt text 0 0 := by
  intro later _
  constructor
  · intro _
    omega
  · intro _ earlier before
    omega

theorem Leaves.open_iff {offset passed : Nat}
    (leaves : Leaves attempt text offset passed) :
    Open attempt text offset ↔ passed = 0 := by
  rw [Leftmost.open_iff, leaves offset (Nat.le_refl offset)]
  omega

theorem Leaves.next {offset passed : Nat}
    (leaves : Leaves attempt text offset (passed + 1)) :
    Leaves attempt text (offset + 1) passed := by
  have closed : ¬Open attempt text offset := by
    rw [leaves.open_iff]
    omega
  intro later further
  have here := leaves later (by omega)
  constructor
  · intro beyond
    have := here.mp fun earlier before => beyond earlier (by omega)
    omega
  · intro far earlier before isOpen
    rcases Nat.lt_succ_iff_lt_or_eq.mp before with less | rfl
    · exact here.mpr (by omega) earlier less isOpen
    · exact absurd isOpen closed

theorem Leaves.refused {offset passed : Nat}
    (leaves : Leaves attempt text offset 0)
    (refuses : attempt (positionAt text offset) = .inr passed) :
    Leaves attempt text (offset + 1) passed := by
  have isOpen : Open attempt text offset := leaves.open_iff.mpr rfl
  intro later further
  have here := leaves later (by omega)
  constructor
  · intro beyond
    have := beyond offset (by omega) isOpen passed refuses
    omega
  · intro far earlier before isOpen skipped skips
    rcases Nat.lt_succ_iff_lt_or_eq.mp before with less | rfl
    · exact here.mpr (by omega) earlier less isOpen skipped skips
    · rw [refuses] at skips
      cases skips
      omega

/-- The search ends at an open position, where it is the first to succeed. -/
structure EndsAt (attempt : Attempt Symbol Found) (text : List Symbol)
    (offset : Nat) (found : Found) : Prop where
  within : offset ≤ text.length
  isOpen : Open attempt text offset
  finds : attempt (positionAt text offset) = .inl found
  first : ∀ earlier, earlier < offset → Open attempt text earlier →
    ∃ passed, attempt (positionAt text earlier) = .inr passed

theorem EndsAt.le {offset next : Nat} {found : Found}
    (ends : EndsAt attempt text offset found)
    (refused : ∀ earlier, earlier < next → Open attempt text earlier →
      ∃ skipped, attempt (positionAt text earlier) = .inr skipped) :
    next ≤ offset := by
  by_contra less
  obtain ⟨skipped, skips⟩ := refused offset (by omega) ends.isOpen
  rw [ends.finds] at skips
  cases skips

theorem positionAt_append (before after : List Symbol) :
    positionAt (before.reverse ++ after) before.length = ⟨before, after⟩ := by
  simp [positionAt]

theorem searchAfter_eq_some_iff {passed : Nat} {before after : List Symbol}
    (isText : text = before.reverse ++ after)
    (refused : ∀ earlier, earlier < before.length →
      Open attempt text earlier →
        ∃ skipped, attempt (positionAt text earlier) = .inr skipped)
    (leaves : Leaves attempt text before.length passed) {found : Found} :
    searchAfter attempt passed before after = some found ↔
      ∃ offset, EndsAt attempt text offset found := by
  induction after generalizing passed before with
  | nil =>
      have here : positionAt text before.length = ⟨before, []⟩ :=
        isText ▸ positionAt_append before []
      have total : text.length = before.length := by simp [isText]
      cases passed with
      | zero =>
          rw [searchAfter, Sum.getLeft?_eq_some_iff]
          constructor
          · intro finds
            exact ⟨before.length, by omega, leaves.open_iff.mpr rfl,
              here ▸ finds, refused⟩
          · rintro ⟨offset, ends⟩
            have last : offset = before.length :=
              Nat.le_antisymm (total ▸ ends.within) (ends.le refused)
            rw [← here, ← last]
            exact ends.finds
      | succ passed =>
          rw [searchAfter]
          constructor
          · intro isSome
            cases isSome
          · rintro ⟨offset, ends⟩
            have last : offset = before.length :=
              Nat.le_antisymm (total ▸ ends.within) (ends.le refused)
            have none := leaves.open_iff.mp (last ▸ ends.isOpen)
            omega
  | cons symbol rest induction =>
      have here : positionAt text before.length = ⟨before, symbol :: rest⟩ :=
        isText ▸ positionAt_append before (symbol :: rest)
      have isNext : text = (symbol :: before).reverse ++ rest := by
        simp [isText]
      cases passed with
      | zero =>
          unfold searchAfter
          cases tried : attempt ⟨before, symbol :: rest⟩ with
          | inl other =>
              have finds : attempt (positionAt text before.length) =
                  .inl other := by
                rw [here, tried]
              have isOpen : Open attempt text before.length :=
                leaves.open_iff.mpr rfl
              constructor
              · rintro ⟨⟩
                exact ⟨before.length, by simp [isText], isOpen, finds, refused⟩
              · rintro ⟨offset, ends⟩
                rcases Nat.lt_or_eq_of_le (ends.le refused) with less | same
                · obtain ⟨skipped, skips⟩ := ends.first _ less isOpen
                  rw [finds] at skips
                  cases skips
                · have both := ends.finds
                  rw [← same, finds] at both
                  exact congrArg some (Sum.inl.inj both)
          | inr skipped =>
              have skips : attempt (positionAt text before.length) =
                  .inr skipped := by
                rw [here, tried]
              refine induction isNext ?_ (leaves.refused skips)
              intro earlier less isOpen
              rcases Nat.lt_succ_iff_lt_or_eq.mp less with lower | rfl
              · exact refused earlier lower isOpen
              · exact ⟨skipped, skips⟩
      | succ passed =>
          unfold searchAfter
          have closed : ¬Open attempt text before.length := by
            rw [leaves.open_iff]
            omega
          refine induction isNext ?_ leaves.next
          intro earlier less isOpen
          rcases Nat.lt_succ_iff_lt_or_eq.mp less with lower | rfl
          · exact refused earlier lower isOpen
          · exact absurd isOpen closed

theorem search_eq_some_iff {found : Found} :
    search attempt text = some found ↔
      ∃ offset, EndsAt attempt text offset found := by
  refine searchAfter_eq_some_iff (by simp) ?_ leaves_zero
  intro earlier less
  exact absurd less (Nat.not_lt_zero earlier)

/-- A search succeeds where an attempt at an open position does. -/
theorem isSome_search_iff :
    (search attempt text).isSome = true ↔
      ∃ offset, offset ≤ text.length ∧ Open attempt text offset ∧
        ∃ found, attempt (positionAt text offset) = .inl found := by
  rw [Option.isSome_iff_exists]
  constructor
  · rintro ⟨found, isFound⟩
    obtain ⟨offset, ends⟩ := search_eq_some_iff.mp isFound
    exact ⟨offset, ends.within, ends.isOpen, found, ends.finds⟩
  · rintro ⟨offset, within, isOpen, found, finds⟩
    -- The first such offset ends the search.
    induction offset using Nat.strongRecOn generalizing found with
    | ind offset induction =>
        by_cases earlier : ∃ other, other < offset ∧
            Open attempt text other ∧
              ∃ early, attempt (positionAt text other) = .inl early
        · obtain ⟨other, less, otherOpen, early, isEarly⟩ := earlier
          exact induction other less (by omega) otherOpen early isEarly
        · refine ⟨found, search_eq_some_iff.mpr
            ⟨offset, within, isOpen, finds, ?_⟩⟩
          intro other less otherOpen
          cases tried : attempt (positionAt text other) with
          | inl early =>
              exact absurd ⟨other, less, otherOpen, early, tried⟩ earlier
          | inr passed => exact ⟨passed, rfl⟩

theorem exists_of_mem_allAfter
    {attempt : Regex.Position Symbol → Option (Found × Nat)} {passed : Nat}
    {before after : List Symbol} {found : Found}
    (member : found ∈ allAfter attempt passed before after) :
    ∃ offset length,
      attempt (positionAt (before.reverse ++ after) offset) =
        some (found, length) := by
  induction after generalizing passed before with
  | nil =>
      cases passed with
      | zero =>
          rw [allAfter, Option.mem_toList, Option.map_eq_some_iff] at member
          obtain ⟨⟨_, length⟩, finds, rfl⟩ := member
          exact ⟨before.length, length, by rw [positionAt_append, finds]⟩
      | succ passed =>
          rw [allAfter] at member
          cases member
  | cons symbol rest induction =>
      have isNext (next : Nat)
          (later : found ∈ allAfter attempt next (symbol :: before) rest) :
          ∃ offset length,
            attempt (positionAt (before.reverse ++ symbol :: rest) offset) =
              some (found, length) := by
        simpa using induction later
      cases passed with
      | zero =>
          unfold allAfter at member
          cases tried : attempt ⟨before, symbol :: rest⟩ with
          | none =>
              rw [tried] at member
              exact isNext 0 member
          | some pair =>
              obtain ⟨first, length⟩ := pair
              rw [tried] at member
              rcases List.mem_cons.mp member with rfl | later
              · exact ⟨before.length, length, by rw [positionAt_append, tried]⟩
              · exact isNext _ later
      | succ passed =>
          exact isNext passed member

theorem exists_of_mem_all
    {attempt : Regex.Position Symbol → Option (Found × Nat)} {found : Found}
    (member : found ∈ all attempt text) :
    ∃ offset length, attempt (positionAt text offset) = some (found, length) :=
  exists_of_mem_allAfter member

end Leftmost
