import Mathlib.Data.List.Pairwise
import Mathlib.Tactic.Common

/-!
# Tables with uniqueness constraints

A table is a list of rows in insertion order whose rows may pairwise coexist.
A keyed table is the common case: rows coexist when their keys differ.
-/

structure Table {Row : Type*} (Compatible : Row → Row → Prop) where
  rows : List Row
  coexist : rows.Pairwise Compatible

namespace Table

variable {Row Key : Type*}

section Constraint

variable {Compatible : Row → Row → Prop}

def empty : Table Compatible where
  rows := []
  coexist := .nil

def filter (table : Table Compatible) (selected : Row → Bool) :
    Table Compatible where
  rows := table.rows.filter selected
  coexist := table.coexist.filter selected

theorem rows_injective {left right : Table Compatible}
    (same : left.rows = right.rows) : left = right := by
  cases left
  cases right
  simpa using same

theorem filter_eq_self {table : Table Compatible} {selected : Row → Bool}
    (all : ∀ row ∈ table.rows, selected row = true) :
    table.filter selected = table :=
  rows_injective (List.filter_eq_self.mpr all)

/-- Append a row unless it conflicts with a row of the table. -/
def insert? [DecidableRel Compatible] (table : Table Compatible) (row : Row) :
    Option (Table Compatible) :=
  if accepted : ∀ other ∈ table.rows, Compatible other row then
    some
      { rows := table.rows ++ [row]
        coexist := by
          rw [List.pairwise_append]
          refine ⟨table.coexist, List.pairwise_singleton _ _, ?_⟩
          intro other member new isNew
          rw [List.mem_singleton.mp isNew]
          exact accepted other member }
  else none

variable [DecidableRel Compatible]

theorem insert?_eq_some_iff {table next : Table Compatible} {row : Row} :
    table.insert? row = some next ↔
      (∀ other ∈ table.rows, Compatible other row) ∧
        next.rows = table.rows ++ [row] := by
  unfold insert?
  split_ifs with accepted
  · rw [Option.some.injEq]
    constructor
    · rintro rfl
      exact ⟨accepted, rfl⟩
    · rintro ⟨-, rows⟩
      exact rows_injective rows.symm
  · simp only [false_iff, not_and]
    exact fun unconflicted => absurd unconflicted accepted

theorem insert?_eq_none_iff {table : Table Compatible} {row : Row} :
    table.insert? row = none ↔
      ∃ other ∈ table.rows, ¬Compatible other row := by
  unfold insert?
  split_ifs with accepted
  · simp only [false_iff, not_exists, not_and, not_not]
    exact accepted
  · push Not at accepted
    exact ⟨fun _ => accepted, fun _ => rfl⟩

theorem rows_of_insert? {table next : Table Compatible} {row : Row}
    (inserted : table.insert? row = some next) :
    next.rows = table.rows ++ [row] :=
  (insert?_eq_some_iff.mp inserted).2

end Constraint

/-- The constraint of a primary key. -/
def DistinctKey (key : Row → Key) (left right : Row) : Prop :=
  key left ≠ key right

instance [DecidableEq Key] (key : Row → Key) :
    DecidableRel (DistinctKey key) :=
  fun left right => inferInstanceAs (Decidable (key left ≠ key right))

instance (key : Row → Key) : Std.Symm (DistinctKey key) where
  symm _ _ different := different.symm

section Keyed

variable {key : Row → Key} [DecidableEq Key]

def find? (table : Table (DistinctKey key)) (wanted : Key) : Option Row :=
  table.rows.find? fun row => key row = wanted

/-- Change the selected rows, whose keys stay as they are. -/
def updateWhere (table : Table (DistinctKey key)) (selected : Row → Bool)
    (change : Row → Row)
    (keeps : ∀ row, selected row = true → key (change row) = key row) :
    Table (DistinctKey key) where
  rows := table.rows.map fun row => if selected row then change row else row
  coexist := by
    have sameKey : ∀ row,
        key (if selected row then change row else row) = key row := by
      intro row
      split_ifs with chosen
      · exact keeps row chosen
      · rfl
    refine List.pairwise_map.mpr (table.coexist.imp ?_)
    intro left right different same
    rw [sameKey left, sameKey right] at same
    exact different same

/-- Put `row` in the place of the row with its key. -/
def replace (table : Table (DistinctKey key)) (row : Row) :
    Table (DistinctKey key) :=
  table.updateWhere (fun other => key other = key row) (fun _ => row)
    (fun _ chosen => (of_decide_eq_true chosen).symm)

omit [DecidableEq Key] in
theorem eq_of_key_eq {table : Table (DistinctKey key)} {left right : Row}
    (leftMember : left ∈ table.rows) (rightMember : right ∈ table.rows)
    (same : key left = key right) : left = right := by
  by_contra different
  exact table.coexist.forall leftMember rightMember different same

theorem find?_eq_some_iff {table : Table (DistinctKey key)} {wanted : Key}
    {row : Row} :
    table.find? wanted = some row ↔ row ∈ table.rows ∧ key row = wanted := by
  constructor
  · intro found
    have sameKey : key row = wanted := by simpa using List.find?_some found
    exact ⟨List.mem_of_find?_eq_some found, sameKey⟩
  · rintro ⟨member, rfl⟩
    cases found : table.find? (key row) with
    | none =>
        have absent := List.find?_eq_none.mp found row member
        simp at absent
    | some other =>
        have sameKey : key other = key row := by
          simpa using List.find?_some found
        rw [eq_of_key_eq (List.mem_of_find?_eq_some found) member sameKey]

theorem find?_eq_none_iff {table : Table (DistinctKey key)} {wanted : Key} :
    table.find? wanted = none ↔ ∀ row ∈ table.rows, key row ≠ wanted := by
  simp [find?, List.find?_eq_none]

theorem insert?_isSome_iff {table : Table (DistinctKey key)} {row : Row} :
    (table.insert? row).isSome ↔ table.find? (key row) = none := by
  rw [Option.isSome_iff_ne_none, ne_eq, insert?_eq_none_iff, find?_eq_none_iff]
  simp [DistinctKey]

/-- Looking up a key after an insertion finds the new row under its key and
what was there before under every other key. -/
theorem find?_of_insert? {table next : Table (DistinctKey key)} {row : Row}
    (inserted : table.insert? row = some next) (wanted : Key) :
    next.find? wanted =
      if key row = wanted then some row else table.find? wanted := by
  have ⟨free, rows⟩ := insert?_eq_some_iff.mp inserted
  split_ifs with same
  · refine find?_eq_some_iff.mpr ⟨?_, same⟩
    rw [rows]
    exact List.mem_append_right _ List.mem_cons_self
  · simp [find?, rows, List.find?_append, same]

/-- Looking up a key finds the row that was there, changed if it was
selected. -/
theorem find?_updateWhere {table : Table (DistinctKey key)}
    {selected : Row → Bool} {change : Row → Row}
    (keeps : ∀ row, selected row = true → key (change row) = key row)
    (wanted : Key) :
    (table.updateWhere selected change keeps).find? wanted =
      (table.find? wanted).map fun row =>
        if selected row then change row else row := by
  have sameKey (row : Row) :
      key (if selected row then change row else row) = key row := by
    split_ifs with chosen
    · exact keeps row chosen
    · rfl
  unfold find? updateWhere
  rw [List.find?_map]
  simp only [Function.comp_def, sameKey]

theorem mem_replace_iff {table : Table (DistinctKey key)} {row other : Row} :
    other ∈ (table.replace row).rows ↔
      (other = row ∧ ∃ old ∈ table.rows, key old = key row) ∨
        (other ∈ table.rows ∧ key other ≠ key row) := by
  simp only [replace, updateWhere, List.mem_map, decide_eq_true_eq]
  constructor
  · rintro ⟨old, member, rfl⟩
    by_cases same : key old = key row
    · exact .inl ⟨if_pos same, old, member, same⟩
    · right
      rw [if_neg same]
      exact ⟨member, same⟩
  · rintro (⟨rfl, old, member, same⟩ | ⟨member, different⟩)
    · exact ⟨old, member, if_pos same⟩
    · exact ⟨other, member, if_neg different⟩

theorem find?_replace (table : Table (DistinctKey key)) (row : Row)
    (wanted : Key) :
    (table.replace row).find? wanted =
      if key row = wanted then (table.find? wanted).map fun _ => row
      else table.find? wanted := by
  split_ifs with same
  · subst same
    cases found : table.find? (key row) with
    | none =>
        refine find?_eq_none_iff.mpr ?_
        intro other member
        rcases mem_replace_iff.mp member with
          ⟨-, old, oldMember, oldSame⟩ | ⟨-, different⟩
        · exact absurd oldSame (find?_eq_none_iff.mp found old oldMember)
        · exact different
    | some old =>
        obtain ⟨member, oldSame⟩ := find?_eq_some_iff.mp found
        exact find?_eq_some_iff.mpr
          ⟨mem_replace_iff.mpr (.inl ⟨rfl, old, member, oldSame⟩), rfl⟩
  · cases found : table.find? wanted with
    | none =>
        refine find?_eq_none_iff.mpr ?_
        intro other member
        rcases mem_replace_iff.mp member with ⟨rfl, -⟩ | ⟨oldMember, -⟩
        · exact same
        · exact find?_eq_none_iff.mp found other oldMember
    | some old =>
        obtain ⟨member, rfl⟩ := find?_eq_some_iff.mp found
        exact find?_eq_some_iff.mpr
          ⟨mem_replace_iff.mpr (.inr ⟨member, fun oldSame => same oldSame.symm⟩),
            rfl⟩

theorem map_replace {Value : Type*} {column : Row → Value}
    {table : Table (DistinctKey key)} {row : Row}
    (agrees : ∀ old ∈ table.rows, key old = key row →
      column row = column old) :
    (table.replace row).rows.map column = table.rows.map column := by
  simp only [replace, updateWhere, List.map_map]
  apply List.map_congr_left
  intro old member
  simp only [Function.comp_apply, decide_eq_true_eq]
  split_ifs with same
  · exact agrees old member same
  · rfl

end Keyed

section Evolution

variable {key : Row → Key} {relation : Row → Row → Prop} {fresh : Row → Prop}

/-- Every row of the one table has a successor in the other, and every row of
the other is fresh or a successor. -/
structure Evolves (relation : Row → Row → Prop) (fresh : Row → Prop)
    (before after : Table (DistinctKey key)) : Prop where
  survives : ∀ old ∈ before.rows,
    ∃ new ∈ after.rows, key new = key old ∧ relation old new
  arises : ∀ new ∈ after.rows,
    fresh new ∨ ∃ old ∈ before.rows, key old = key new ∧ relation old new

theorem Evolves.refl (reflexive : ∀ row, relation row row)
    (table : Table (DistinctKey key)) :
    Evolves relation fresh table table where
  survives := fun old member => ⟨old, member, rfl, reflexive old⟩
  arises := fun new member => .inr ⟨new, member, rfl, reflexive new⟩

theorem Evolves.mono {weaker : Row → Row → Prop} {wider : Row → Prop}
    {before after : Table (DistinctKey key)}
    (evolved : Evolves relation fresh before after)
    (implied : ∀ old new, relation old new → weaker old new)
    (included : ∀ new, fresh new → wider new) :
    Evolves weaker wider before after := by
  constructor
  · intro old member
    obtain ⟨new, inside, same, related⟩ := evolved.survives old member
    exact ⟨new, inside, same, implied old new related⟩
  · intro new member
    rcases evolved.arises new member with
      isFresh | ⟨old, inside, same, related⟩
    · exact .inl (included new isFresh)
    · exact .inr ⟨old, inside, same, implied old new related⟩

variable [DecidableEq Key]

omit [DecidableEq Key] in
theorem Evolves.insert {before table next : Table (DistinctKey key)}
    {row : Row} (evolved : Evolves relation fresh before table)
    (isFresh : fresh row) (inserted : next.rows = table.rows ++ [row]) :
    Evolves relation fresh before next := by
  constructor
  · intro old member
    obtain ⟨new, inside, related⟩ := evolved.survives old member
    refine ⟨new, ?_, related⟩
    rw [inserted]
    exact List.mem_append_left _ inside
  · intro new member
    rw [inserted] at member
    rcases List.mem_append.mp member with stored | added
    · exact evolved.arises new stored
    · rw [List.mem_singleton.mp added]
      exact .inl isFresh

/-- Replacing a row continues an evolution when the new row is a successor of
whatever the replaced one was a successor of. -/
theorem Evolves.replace {before table : Table (DistinctKey key)} {row : Row}
    (evolved : Evolves relation fresh before table)
    (related : ∀ current ∈ table.rows, key current = key row →
      ∀ old, relation old current → relation old row)
    (stillFresh : ∀ current ∈ table.rows, key current = key row →
      fresh current → fresh row) :
    Evolves relation fresh before (table.replace row) := by
  constructor
  · intro old member
    obtain ⟨current, inside, same, step⟩ := evolved.survives old member
    by_cases replaced : key current = key row
    · refine ⟨row, mem_replace_iff.mpr (.inl ⟨rfl, current, inside, replaced⟩),
        ?_, related current inside replaced old step⟩
      rw [← replaced, same]
    · exact ⟨current, mem_replace_iff.mpr (.inr ⟨inside, replaced⟩), same, step⟩
  · intro new member
    rcases mem_replace_iff.mp member with
      ⟨rfl, current, inside, replaced⟩ | ⟨inside, -⟩
    · rcases evolved.arises current inside with
        isFresh | ⟨old, oldMember, same, step⟩
      · exact .inl (stillFresh current inside replaced isFresh)
      · exact .inr ⟨old, oldMember, same.trans replaced,
          related current inside replaced old step⟩
    · exact evolved.arises new inside

/-- Replacing one row, from where the table stands. -/
theorem evolves_replace {table : Table (DistinctKey key)} {row : Row}
    (reflexive : ∀ other, relation other other)
    (related : ∀ current ∈ table.rows, key current = key row →
      relation current row) :
    Evolves relation fresh table (table.replace row) := by
  constructor
  · intro old member
    by_cases replaced : key old = key row
    · exact ⟨row, mem_replace_iff.mpr (.inl ⟨rfl, old, member, replaced⟩),
        replaced.symm, related old member replaced⟩
    · exact ⟨old, mem_replace_iff.mpr (.inr ⟨member, replaced⟩), rfl,
        reflexive old⟩
  · intro new member
    rcases mem_replace_iff.mp member with
      ⟨rfl, old, inside, replaced⟩ | ⟨inside, -⟩
    · exact .inr ⟨old, inside, replaced, related old inside replaced⟩
    · exact .inr ⟨new, inside, rfl, reflexive new⟩

end Evolution

section Alike

variable {Seen : Type*} {key : Row → Key} [DecidableEq Key]
variable {view : Row → Seen} {seenKey : Seen → Key}

/-- Row for row, the tables look the same through `view`. -/
def Alike (view : Row → Seen) (left right : Table (DistinctKey key)) : Prop :=
  left.rows.map view = right.rows.map view

variable {left right : Table (DistinctKey key)}

theorem find?_map_view (shown : ∀ row, seenKey (view row) = key row)
    (table : Table (DistinctKey key)) (wanted : Key) :
    (table.find? wanted).map view =
      (table.rows.map view).find? fun seen => seenKey seen = wanted := by
  rw [List.find?_map]
  simp only [Function.comp_def, shown]
  rfl

theorem Alike.find? (shown : ∀ row, seenKey (view row) = key row)
    (alike : Alike view left right) (wanted : Key) :
    (left.find? wanted).map view = (right.find? wanted).map view := by
  rw [find?_map_view shown, find?_map_view shown, alike]

/-- Rows that look the same are both inserted or both refused. -/
theorem Alike.insert? (shown : ∀ row, seenKey (view row) = key row)
    (alike : Alike view left right) {row row' : Row}
    (same : view row = view row') :
    (∃ next next', left.insert? row = some next ∧
        right.insert? row' = some next' ∧ Alike view next next') ∨
      left.insert? row = none ∧ right.insert? row' = none := by
  have sameKey : key row = key row' := by
    rw [← shown row, ← shown row', same]
  have found := alike.find? shown (key row)
  cases inserted : left.insert? row with
  | some next =>
      have free : left.find? (key row) = none :=
        insert?_isSome_iff.mp (by simp [inserted])
      rw [free, Option.map_none, eq_comm, Option.map_eq_none_iff, sameKey]
        at found
      obtain ⟨next', inserted'⟩ :=
        Option.isSome_iff_exists.mp (insert?_isSome_iff.mpr found)
      refine .inl ⟨next, next', rfl, inserted', ?_⟩
      unfold Alike
      rw [rows_of_insert? inserted, rows_of_insert? inserted', List.map_append,
        List.map_append, alike, List.map_singleton, List.map_singleton, same]
  | none =>
      refine .inr ⟨rfl, ?_⟩
      rw [← Option.not_isSome_iff_eq_none, insert?_isSome_iff, ← sameKey]
      intro free
      rw [free, Option.map_none, Option.map_eq_none_iff,
        ← insert?_isSome_iff, inserted] at found
      cases found

/-- Rows that look the same replace rows that look the same. -/
theorem Alike.replace (shown : ∀ row, seenKey (view row) = key row)
    (alike : Alike view left right) {row row' : Row}
    (same : view row = view row') :
    Alike view (left.replace row) (right.replace row') := by
  have seen (table : Table (DistinctKey key)) (new : Row) :
      (table.replace new).rows.map view =
        (table.rows.map view).map fun old =>
          if seenKey old = seenKey (view new) then view new else old := by
    simp only [Table.replace, updateWhere, List.map_map]
    apply List.map_congr_left
    intro old _
    simp only [Function.comp_apply, decide_eq_true_eq, shown]
    split_ifs <;> rfl
  unfold Alike
  rw [seen, seen, alike, same]

end Alike

end Table
