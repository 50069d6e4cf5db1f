import Mathlib.Data.List.Basic

/-!
# Splices

Replacing spans of a text.  The spans count from the start of the text; where
they come one after another, replacing them from the last to the first is
cutting the text at them once.
-/

namespace Splice

variable {Symbol : Type*}

/-- A span, and what is written in its place, if anything is. -/
structure Edit (Symbol : Type*) where
  start : Nat
  stop : Nat
  written : Option (List Symbol)

def Edit.apply (edit : Edit Symbol) (text : List Symbol) : List Symbol :=
  match edit.written with
  | none => text
  | some written => text.take edit.start ++ written ++ text.drop edit.stop

/-- The edits, from the last to the first. -/
def applyBackwards (edits : List (Edit Symbol)) (text : List Symbol) :
    List Symbol :=
  edits.foldr Edit.apply text

/-- The spans come one after another between two positions. -/
def Ordered : Nat → List (Edit Symbol) → Nat → Prop
  | low, [], high => low ≤ high
  | low, edit :: edits, high =>
      low ≤ edit.start ∧ edit.start ≤ edit.stop ∧ Ordered edit.stop edits high

/-- A symbol of the text after the edits: one that the text had, with its
position there, or one that an edit wrote. -/
inductive Piece (Symbol : Type*) where
  | kept (position : Nat) (symbol : Symbol)
  | written (symbol : Symbol)
  deriving DecidableEq

def Piece.symbol : Piece Symbol → Symbol
  | kept _ symbol => symbol
  | written symbol => symbol

def keep (position : Nat) (text : List Symbol) : List (Piece Symbol) :=
  (text.zipIdx position).map fun entry => .kept entry.2 entry.1

/-- The text from a position on, cut at the spans. -/
def cut : Nat → List (Edit Symbol) → List Symbol → List (Piece Symbol)
  | position, [], text => keep position text
  | position, edit :: edits, text =>
      let span := text.drop (edit.start - position)
      keep position (text.take (edit.start - position)) ++
        (match edit.written with
          | none => keep edit.start (span.take (edit.stop - edit.start))
          | some written => written.map .written) ++
        cut edit.stop edits (span.drop (edit.stop - edit.start))

@[simp] theorem map_symbol_keep (position : Nat) (text : List Symbol) :
    (keep position text).map Piece.symbol = text := by
  rw [keep, List.map_map]
  exact List.zipIdx_map_fst position text

theorem kept_mem_keep {position index : Nat} {text : List Symbol}
    {symbol : Symbol} :
    .kept index symbol ∈ keep position text ↔
      position ≤ index ∧ text[index - position]? = some symbol := by
  simp only [keep, List.mem_map, Prod.exists, Piece.kept.injEq]
  constructor
  · rintro ⟨other, place, member, rfl, rfl⟩
    exact List.mk_mem_zipIdx_iff_le_and_getElem?_sub.mp member
  · intro found
    exact ⟨symbol, index, List.mk_mem_zipIdx_iff_le_and_getElem?_sub.mpr found,
      rfl, rfl⟩

/-- What is kept of a stretch of the text. -/
theorem kept_mem_keep_take {position index count : Nat} {text : List Symbol}
    {symbol : Symbol} :
    .kept index symbol ∈ keep position ((text.drop position).take count) ↔
      position ≤ index ∧ index < position + count ∧
        text[index]? = some symbol := by
  rw [kept_mem_keep]
  apply and_congr_right
  intro far
  rw [List.getElem?_take]
  split
  · rw [List.getElem?_drop, Nat.add_sub_cancel' far]
    exact (and_iff_right (by omega)).symm
  · refine iff_of_false nofun ?_
    omega

theorem Ordered.le {low high : Nat} {edits : List (Edit Symbol)}
    (ordered : Ordered low edits high) : low ≤ high := by
  induction edits generalizing low with
  | nil => exact ordered
  | cons edit edits induction =>
      obtain ⟨before, span, rest⟩ := ordered
      exact Nat.le_trans before (Nat.le_trans span (induction rest))

theorem Ordered.weaken {low lower high : Nat} {edits : List (Edit Symbol)}
    (ordered : Ordered low edits high) (below : lower ≤ low) :
    Ordered lower edits high := by
  cases edits with
  | nil => exact Nat.le_trans below ordered
  | cons edit edits => exact ⟨Nat.le_trans below ordered.1, ordered.2⟩

theorem Ordered.sublist {low high : Nat} {fewer edits : List (Edit Symbol)}
    (ordered : Ordered low edits high) (selected : fewer.Sublist edits) :
    Ordered low fewer high := by
  induction selected generalizing low with
  | slnil => exact ordered
  | cons edit _ induction =>
      obtain ⟨before, span, rest⟩ := ordered
      exact (induction rest).weaken (Nat.le_trans before span)
  | cons_cons edit _ induction =>
      obtain ⟨before, span, rest⟩ := ordered
      exact ⟨before, span, induction rest⟩

theorem Ordered.stop_le {low high : Nat} {edits : List (Edit Symbol)}
    (ordered : Ordered low edits high) :
    ∀ edit ∈ edits, edit.stop ≤ high := by
  induction edits generalizing low with
  | nil => nofun
  | cons edit edits induction =>
      obtain ⟨_, _, rest⟩ := ordered
      exact List.forall_mem_cons.mpr ⟨rest.le, induction rest⟩

theorem Ordered.le_start {low high : Nat} {edits : List (Edit Symbol)}
    (ordered : Ordered low edits high) :
    ∀ edit ∈ edits, low ≤ edit.start := by
  induction edits generalizing low with
  | nil => nofun
  | cons edit edits induction =>
      obtain ⟨before, span, rest⟩ := ordered
      refine List.forall_mem_cons.mpr ⟨before, fun other member => ?_⟩
      have later := induction rest other member
      omega

theorem cut_cons (low gap width : Nat) (written : Option (List Symbol))
    (edits : List (Edit Symbol)) (text : List Symbol) :
    cut low (⟨low + gap, low + gap + width, written⟩ :: edits)
        (text.drop low) =
      keep low ((text.drop low).take gap) ++
        (match written with
          | none => keep (low + gap) ((text.drop (low + gap)).take width)
          | some written => written.map .written) ++
        cut (low + gap + width) edits (text.drop (low + gap + width)) := by
  simp only [cut, Nat.add_sub_cancel_left, List.drop_drop]

/-- Replacing backwards is cutting. -/
theorem applyBackwards_eq {low : Nat} {edits : List (Edit Symbol)}
    {text : List Symbol} (ordered : Ordered low edits text.length) :
    applyBackwards edits text =
      text.take low ++ (cut low edits (text.drop low)).map Piece.symbol := by
  induction edits generalizing low with
  | nil => simp [applyBackwards, cut]
  | cons edit edits induction =>
      obtain ⟨start, stop, written⟩ := edit
      obtain ⟨before, span, rest⟩ := ordered
      dsimp only at before span rest
      obtain ⟨gap, rfl⟩ := Nat.exists_eq_add_of_le before
      obtain ⟨width, rfl⟩ := Nat.exists_eq_add_of_le span
      have within := rest.le
      rw [applyBackwards, List.foldr_cons, ← applyBackwards, induction rest,
        cut_cons]
      have front : text.take (low + gap) =
          text.take low ++ (text.drop low).take gap := List.take_add
      cases written with
      | none =>
          have whole : text.take (low + gap + width) =
              text.take (low + gap) ++ (text.drop (low + gap)).take width :=
            List.take_add
          simp [Edit.apply, whole, front]
      | some written =>
          have length : (text.take (low + gap + width)).length =
              low + gap + width := List.length_take_of_le within
          have kept : (text.take (low + gap + width)).take (low + gap) =
              text.take low ++ (text.drop low).take gap := by
            rw [List.take_take, Nat.min_eq_left span, front]
          simp only [Edit.apply, List.map_append, map_symbol_keep,
            List.map_map, ← List.append_assoc]
          rw [List.take_append_of_le_length (by rw [length]; exact span), kept,
            List.drop_append_of_le_length
            (Nat.le_of_eq length.symm)]
          simp [Function.comp_def, Piece.symbol]

/-- A symbol is kept where no edit writes. -/
theorem kept_mem_cut {low : Nat} {edits : List (Edit Symbol)}
    {text : List Symbol} (ordered : Ordered low edits text.length)
    {index : Nat} {symbol : Symbol} :
    .kept index symbol ∈ cut low edits (text.drop low) ↔
      low ≤ index ∧ text[index]? = some symbol ∧
        ∀ edit ∈ edits, edit.written ≠ none →
          ¬ (edit.start ≤ index ∧ index < edit.stop) := by
  induction edits generalizing low with
  | nil =>
      rw [cut, kept_mem_keep, List.getElem?_drop]
      constructor
      · rintro ⟨far, found⟩
        rw [Nat.add_sub_cancel' far] at found
        exact ⟨far, found, nofun⟩
      · rintro ⟨far, found, -⟩
        exact ⟨far, by rwa [Nat.add_sub_cancel' far]⟩
  | cons edit edits induction =>
      obtain ⟨start, stop, written⟩ := edit
      obtain ⟨before, span, rest⟩ := ordered
      dsimp only at before span rest
      obtain ⟨gap, rfl⟩ := Nat.exists_eq_add_of_le before
      obtain ⟨width, rfl⟩ := Nat.exists_eq_add_of_le span
      have later := rest.le_start
      rw [cut_cons, List.mem_append, List.mem_append, induction rest,
        kept_mem_keep_take, List.forall_mem_cons]
      have middle : Piece.kept index symbol ∈ (match written with
            | none => keep (low + gap) ((text.drop (low + gap)).take width)
            | some written => written.map .written) ↔
          written = none ∧ low + gap ≤ index ∧ index < low + gap + width ∧
            text[index]? = some symbol := by
        cases written with
        | none => rw [kept_mem_keep_take]; simp
        | some written => simp
      rw [middle]
      dsimp only
      constructor
      · rintro ((⟨far, near, found⟩ | ⟨rfl, far, near, found⟩) |
          ⟨far, found, free⟩)
        · refine ⟨far, found, fun _ => by omega, ?_⟩
          intro edit member _
          have := later edit member
          omega
        · refine ⟨by omega, found, nofun, ?_⟩
          intro edit member _
          have := later edit member
          omega
        · exact ⟨by omega, found, fun _ => by omega, free⟩
      · rintro ⟨far, found, here, free⟩
        by_cases near : index < low + gap
        · exact .inl (.inl ⟨far, near, found⟩)
        · by_cases within : index < low + gap + width
          · refine .inl (.inr ⟨?_, by omega, within, found⟩)
            by_contra filled
            exact here filled ⟨by omega, within⟩
          · exact .inr ⟨by omega, found, free⟩

end Splice
