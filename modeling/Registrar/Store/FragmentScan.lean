import Mathlib.Data.List.Infix
import Mathlib.Tactic.Common

/-!
# Scanning files for removed text

`scanFile` (`redaction-scrub.ts`) reads a file in chunks and keeps the end of
what it has read, shorter than the longest needle by one byte, in front of the
next chunk.  No occurrence across a border of two chunks is lost.
-/

namespace Registrar

/-- A short needle in two pieces lies in the first piece or meets the second
within an overlap. -/
theorem infix_append_iff_of_length_le {Symbol : Type*}
    {needle front back : List Symbol} {overlap : Nat}
    (short : needle.length ≤ overlap + 1) :
    needle <:+: front ++ back ↔
      needle <:+: front ∨
        needle <:+: front.drop (front.length - overlap) ++ back := by
  constructor
  · rintro ⟨before, after, split⟩
    by_cases inside : before.length + needle.length ≤ front.length
    · left
      have isPrefix : before ++ needle <+: front :=
        List.prefix_of_prefix_length_le ⟨after, split⟩
          (List.prefix_append front back) (by simpa using inside)
      obtain ⟨rest, isFront⟩ := isPrefix
      exact ⟨before, rest, isFront⟩
    · right
      -- The needle ends in the second piece, so it starts in the overlap.
      have late : front.length - overlap ≤ before.length := by omega
      refine ⟨before.drop (front.length - overlap), after, ?_⟩
      have dropped := congrArg (List.drop (front.length - overlap)) split
      rw [List.append_assoc, List.drop_append_of_le_length late,
        List.drop_append_of_le_length (Nat.sub_le _ _),
        ← List.append_assoc] at dropped
      exact dropped
  · rintro (⟨before, after, split⟩ | ⟨before, after, split⟩)
    · exact ⟨before, after ++ back, by simp [← split]⟩
    · refine ⟨front.take (front.length - overlap) ++ before, after, ?_⟩
      rw [List.append_assoc, List.append_assoc, ← List.append_assoc before,
        split, ← List.append_assoc, List.take_append_drop]

/-- How many bytes a read at a position of a file brings: at most a chunk, and
none only at the end of the file. -/
structure FileReads (size chunkBytes : Nat) where
  count : Nat → Nat
  bounded : ∀ position, count position ≤ min chunkBytes (size - position)
  brings : ∀ position, position < size → 0 < count position

/-- The variables of the loop. -/
structure FileScan where
  position : Nat
  carried : List UInt8
  inFile : List Nat
  deriving DecidableEq, Repr

variable (needles : List (List UInt8))

/-- The indexes with those of the needles in the window. -/
def scanWindow (window : List UInt8) (inFile : List Nat) : List Nat :=
  needles.zipIdx.foldl
    (fun inFile entry =>
      if entry.1 = [] ∨ entry.2 ∈ inFile then inFile
      else if entry.1 <:+: window then inFile ++ [entry.2]
      else inFile)
    inFile

/-- The longest needle, less one byte. -/
def scanOverlap : Nat :=
  (needles.map List.length).foldr max 0 - 1

variable {chunkBytes : Nat} (content : List UInt8)
variable (reads : FileReads content.length chunkBytes)

/-- The rest of the loop. -/
def scanChunks (scan : FileScan) : FileScan :=
  if scan.position < content.length then
    let read := reads.count scan.position
    if read = 0 then scan
    else
      let window :=
        scan.carried ++ (content.drop scan.position).take read
      scanChunks
        { position := scan.position + read
          carried := window.drop (window.length - scanOverlap needles)
          inFile := scanWindow needles window scan.inFile }
  else scan
termination_by content.length - scan.position
decreasing_by omega

/-- What is found, with what was found before, and how many needles the file
holds. -/
def scanFile (found : List Nat) : List Nat × Nat :=
  let scan := scanChunks needles content reads
    { position := 0
      carried := []
      inFile := [] }
  (found ++ scan.inFile.filter (· ∉ found), scan.inFile.length)

/-- The needle of the index is not empty and occurs in the bytes. -/
def Holds (bytes : List UInt8) (index : Nat) : Prop :=
  ∃ needle, needles[index]? = some needle ∧ needle ≠ [] ∧ needle <:+: bytes

variable {needles}

theorem mem_scanWindow_iff {window : List UInt8} {inFile : List Nat}
    {index : Nat} :
    index ∈ scanWindow needles window inFile ↔
      index ∈ inFile ∨ Holds needles window index := by
  have among (entries : List (List UInt8 × Nat)) (inFile : List Nat) :
      index ∈ entries.foldl
          (fun inFile entry =>
            if entry.1 = [] ∨ entry.2 ∈ inFile then inFile
            else if entry.1 <:+: window then inFile ++ [entry.2]
            else inFile) inFile ↔
        index ∈ inFile ∨ ∃ needle, (needle, index) ∈ entries ∧
          needle ≠ [] ∧ needle <:+: window := by
    induction entries generalizing inFile with
    | nil => simp
    | cons entry rest induction =>
        obtain ⟨needle, place⟩ := entry
        rw [List.foldl_cons, induction]
        by_cases skipped : needle = [] ∨ place ∈ inFile
        · rw [if_pos skipped]
          constructor
          · rintro (old | ⟨other, member, occurs⟩)
            · exact .inl old
            · exact .inr ⟨other, List.mem_cons_of_mem _ member, occurs⟩
          · rintro (old | ⟨other, member, present, occurs⟩)
            · exact .inl old
            · rcases List.mem_cons.mp member with same | later
              · obtain ⟨rfl, rfl⟩ := Prod.mk.inj same
                exact .inl (skipped.resolve_left present)
              · exact .inr ⟨other, later, present, occurs⟩
        · obtain ⟨present, new⟩ := not_or.mp skipped
          rw [if_neg skipped]
          by_cases occurs : needle <:+: window
          · rw [if_pos occurs]
            simp only [List.mem_append, List.mem_cons, List.not_mem_nil,
              or_false, Prod.mk.injEq]
            constructor
            · rintro ((old | rfl) | ⟨other, member, rest⟩)
              · exact .inl old
              · exact .inr ⟨needle, .inl ⟨rfl, rfl⟩, present, occurs⟩
              · exact .inr ⟨other, .inr member, rest⟩
            · rintro (old | ⟨other, ⟨rfl, rfl⟩ | member, rest⟩)
              · exact .inl (.inl old)
              · exact .inl (.inr rfl)
              · exact .inr ⟨other, member, rest⟩
          · rw [if_neg occurs]
            simp only [List.mem_cons, Prod.mk.injEq]
            constructor
            · rintro (old | ⟨other, member, rest⟩)
              · exact .inl old
              · exact .inr ⟨other, .inr member, rest⟩
            · rintro (old | ⟨other, ⟨rfl, rfl⟩ | member, found⟩)
              · exact .inl old
              · exact absurd found.2 occurs
              · exact .inr ⟨other, member, found⟩
  rw [scanWindow, among, Holds]
  simp only [List.mem_zipIdx_iff_getElem?]

theorem length_le_scanOverlap {needle : List UInt8}
    (member : needle ∈ needles) : needle.length ≤ scanOverlap needles + 1 := by
  have least (lengths : List Nat) (length : Nat) (isLength : length ∈ lengths) :
      length ≤ lengths.foldr max 0 := by
    induction lengths with
    | nil => cases isLength
    | cons head tail induction =>
        rcases List.mem_cons.mp isLength with rfl | later
        · exact le_max_left _ _
        · exact (induction later).trans (le_max_right _ _)
  have := least _ _ (List.mem_map_of_mem (f := List.length) member)
  unfold scanOverlap
  omega

/-- What the loop keeps of the bytes behind its position. -/
structure FileScan.Passed (needles : List (List UInt8))
    (content : List UInt8) (scan : FileScan) : Prop where
  within : scan.position ≤ content.length
  carried : scan.carried =
    (content.take scan.position).drop (scan.position - scanOverlap needles)
  found : ∀ index, index ∈ scan.inFile ↔
    Holds needles (content.take scan.position) index

variable {content}

/-- A chunk leaves nothing behind that it completes. -/
theorem FileScan.Passed.read {scan : FileScan}
    (passed : scan.Passed needles content) {read : Nat}
    (available : scan.position + read ≤ content.length) :
    FileScan.Passed needles content
      { position := scan.position + read
        carried := (scan.carried ++
          (content.drop scan.position).take read).drop
            ((scan.carried ++ (content.drop scan.position).take read).length -
              scanOverlap needles)
        inFile := scanWindow needles
          (scan.carried ++ (content.drop scan.position).take read)
          scan.inFile } := by
  have length : (content.take scan.position).length = scan.position :=
    List.length_take_of_le passed.within
  have window : scan.carried ++ (content.drop scan.position).take read =
      (content.take (scan.position + read)).drop
        (scan.position - scanOverlap needles) := by
    rw [passed.carried, List.take_add, List.drop_append_of_le_length]
    omega
  constructor
  · exact available
  · dsimp only
    rw [window, List.drop_drop, List.length_drop,
      List.length_take_of_le available]
    congr 1
    omega
  · intro index
    dsimp only
    rw [mem_scanWindow_iff, passed.found, List.take_add, passed.carried]
    simp only [Holds]
    constructor
    · rintro (⟨needle, isNeedle, present, occurs⟩ |
        ⟨needle, isNeedle, present, occurs⟩)
      · exact ⟨needle, isNeedle, present,
          occurs.trans (List.prefix_append _ _).isInfix⟩
      · have short := length_le_scanOverlap (List.mem_of_getElem? isNeedle)
        refine ⟨needle, isNeedle, present, ?_⟩
        rw [infix_append_iff_of_length_le short, length]
        exact .inr occurs
    · rintro ⟨needle, isNeedle, present, occurs⟩
      have short := length_le_scanOverlap (List.mem_of_getElem? isNeedle)
      rw [infix_append_iff_of_length_le short, length] at occurs
      rcases occurs with before | across
      · exact .inl ⟨needle, isNeedle, present, before⟩
      · exact .inr ⟨needle, isNeedle, present, across⟩

theorem mem_scanChunks_iff {scan : FileScan}
    (passed : scan.Passed needles content) (index : Nat) :
    index ∈ (scanChunks needles content reads scan).inFile ↔
      Holds needles content index := by
  fun_induction scanChunks needles content reads scan with
  | case1 scan before read stopped =>
      exact absurd stopped (reads.brings _ before).ne'
  | case2 scan before read nonzero window induction =>
      apply induction
      have bounded := reads.bounded scan.position
      apply passed.read
      have := Nat.le_min.mp bounded
      omega
  | case3 scan done =>
      have whole : content.take scan.position = content :=
        List.take_of_length_le (Nat.le_of_not_lt done)
      rw [passed.found, whole]

theorem passed_start :
    FileScan.Passed needles content
      { position := 0
        carried := []
        inFile := [] } := by
  refine ⟨Nat.zero_le _, by simp, fun index => ?_⟩
  simp only [List.not_mem_nil, false_iff, List.take_zero]
  rintro ⟨needle, -, present, occurs⟩
  exact present (List.infix_nil.mp occurs)

/-- A scan reports the needles that occur in the file, however its reads fall,
except empty ones. -/
theorem mem_scanFile_iff (found : List Nat) (index : Nat) :
    index ∈ (scanFile needles content reads found).1 ↔
      index ∈ found ∨ ∃ needle, needles[index]? = some needle ∧
        needle ≠ [] ∧ needle <:+: content := by
  have scanned := mem_scanChunks_iff reads (@passed_start needles content)
    index
  simp only [scanFile, List.mem_append, List.mem_filter, scanned,
    decide_eq_true_eq]
  by_cases old : index ∈ found <;> simp [old, Holds]

/-- Reads that bring as much as they may. -/
def FileReads.full (size : Nat) {chunkBytes : Nat} (positive : 0 < chunkBytes) :
    FileReads size chunkBytes where
  count position := min chunkBytes (size - position)
  bounded _ := le_rfl
  brings _ before := Nat.lt_min.mpr ⟨positive, Nat.sub_pos_of_lt before⟩

/-- The empty needle occurs in every file and is not searched for. -/
theorem emptyNeedle_unreported :
    ¬ ∀ (content : List UInt8) (needles : List (List UInt8))
        (chunkBytes : Nat) (reads : FileReads content.length chunkBytes)
        (index : Nat) (needle : List UInt8), needles[index]? = some needle →
      (index ∈ (scanFile needles content reads []).1 ↔
        needle <:+: content) := by
  intro claimed
  have reported := (claimed [1] [[]] 4 (.full 1 (by decide)) 0 [] rfl).mpr
    List.nil_infix
  have inFile := List.mem_of_mem_filter
    (List.mem_append.mp reported |>.resolve_left List.not_mem_nil)
  obtain ⟨needle, isNeedle, present, -⟩ :=
    (mem_scanChunks_iff _ passed_start 0).mp inFile
  exact present (Option.some.inj isNeedle).symm

end Registrar
