import Mathlib.Data.Bool.AllAny
import Registrar.Library.CodeUnits
import Registrar.Library.Trim

/-!
# Import exclusion patterns

`brainignore.ts`: a line of a brainignore file becomes a regular expression,
by a translation of the glob from left to right, and a path is excluded when
the last pattern that accepts it is not negated.  Paths are normalised first.
A line and a path are texts of UTF-16 units, which an expression without the
flag `u` matches one by one.
-/

namespace Registrar

open Regex

namespace GlobUnit

@[match_pattern] abbrev asterisk : CodeUnit := 0x2a

@[match_pattern] abbrev question : CodeUnit := 0x3f

@[match_pattern] abbrev slash : CodeUnit := 0x2f

@[match_pattern] abbrev backslash : CodeUnit := 0x5c

@[match_pattern] abbrev dot : CodeUnit := 0x2e

@[match_pattern] abbrev numberSign : CodeUnit := 0x23

@[match_pattern] abbrev exclamation : CodeUnit := 0x21

end GlobUnit

open GlobUnit

/-- The classes of a compiled pattern. -/
inductive GlobClass where
  /-- `.` -/
  | notTerminator
  /-- `[^/]` -/
  | notSlash
  /-- A unit itself, in any case. -/
  | letter (unit : CodeUnit)
  deriving DecidableEq, Repr

/-- The units that `.` does not match. -/
def isPathTerminator (unit : CodeUnit) : Bool :=
  unit = 0xa || unit = 0xd || unit = 0x2028 || unit = 0x2029

variable (canonicalize : CodeUnit → CodeUnit)

/-- Two units are the same when the flag `i` makes them one. -/
def GlobClass.accepts : GlobClass → CodeUnit → Bool
  | .notTerminator, unit => !isPathTerminator unit
  | .notSlash, unit => unit ≠ slash
  | .letter own, unit => canonicalize unit = canonicalize own

/-- The loop that translates the glob. -/
def globRegex : List CodeUnit → Regex GlobClass
  | asterisk :: asterisk :: slash :: rest =>
      .seq (.run .notTerminator 0 none) (globRegex rest)
  | asterisk :: asterisk :: rest =>
      .seq (.run .notTerminator 0 none) (globRegex rest)
  | asterisk :: rest => .seq (.run .notSlash 0 none) (globRegex rest)
  | question :: rest => .seq (.symbol .notSlash) (globRegex rest)
  | unit :: rest => .seq (.symbol (.letter unit)) (globRegex rest)
  | [] => .empty

inductive PatternSource where
  | default
  | override
  deriving DecidableEq, Repr

structure BrainignorePattern where
  pattern : List CodeUnit
  negated : Bool
  source : PatternSource
  regex : Regex GlobClass
  basenameOnly : Bool
  deriving DecidableEq

/-- `(?:.*/)?` -/
def anyFolders : Regex GlobClass :=
  .optional (.seq (.run .notTerminator 0 none) (.symbol (.letter slash)))

/-- The glob of a line, without the sign of a negation; blank lines and
comments have none. -/
def globOfLine (raw : List CodeUnit) : Option (Bool × List CodeUnit) :=
  let line := Trim.trimChars isSpaceUnit raw
  match line with
  | [] => none
  | numberSign :: _ => none
  | exclamation :: rest =>
      let glob := Trim.trimChars isSpaceUnit rest
      if glob = [] then none else some (true, glob)
  | glob => some (false, glob)

def compilePattern (raw : List CodeUnit) (source : PatternSource) :
    Option BrainignorePattern :=
  (globOfLine raw).map fun (negated, glob) =>
    let anchored := glob.head? = some slash
    let glob' := if anchored then glob.tail else glob
    let basenameOnly := !glob'.contains slash
    { pattern := glob
      negated := negated
      source := source
      regex :=
        if basenameOnly || anchored then globRegex glob'
        else .seq anyFolders (globRegex glob')
      basenameOnly := basenameOnly }

def stripDots : List CodeUnit → List CodeUnit
  | dot :: slash :: rest => stripDots rest
  | path => path

def normalizePath (path : List CodeUnit) : List CodeUnit :=
  let forward := path.map fun unit => if unit = backslash then slash else unit
  (stripDots forward).dropWhile (· = slash)

def basenameOf (path : List CodeUnit) : List CodeUnit :=
  (path.splitOn slash).getLastD []

/-- The expression matches the whole text. -/
def matchesWhole (regex : Regex GlobClass) (text : List CodeUnit) : Bool :=
  decide (regex.Spans (GlobClass.accepts canonicalize) (fun _ => false) [] text
    [])

/-- The compiled pattern accepts a path. -/
def BrainignorePattern.accepts (pattern : BrainignorePattern)
    (path : List CodeUnit) : Bool :=
  let normalized := normalizePath path
  matchesWhole canonicalize pattern.regex
    (if pattern.basenameOnly then basenameOf normalized else normalized)

/-- The pattern that excludes the path: the last one that accepts it, unless
that is negated. -/
def matchPath (path : List CodeUnit) (patterns : List BrainignorePattern) :
    Option BrainignorePattern :=
  (patterns.foldl
    (fun decision pattern =>
      if pattern.accepts canonicalize path then some pattern else decision)
    none).filter (!·.negated)

inductive GlobToken where
  | letter (unit : CodeUnit)
  /-- `?` -/
  | one
  /-- `*` -/
  | run
  /-- `**` -/
  | anything
  /-- `**/` -/
  | folders
  deriving DecidableEq, Repr

def globTokens : List CodeUnit → List GlobToken
  | asterisk :: asterisk :: slash :: rest => .folders :: globTokens rest
  | asterisk :: asterisk :: rest => .anything :: globTokens rest
  | asterisk :: rest => .run :: globTokens rest
  | question :: rest => .one :: globTokens rest
  | unit :: rest => .letter unit :: globTokens rest
  | [] => []

/-- Whole segments, each with its slash, behind a text that ends where a
segment starts. -/
def AreFolders (before folders : List CodeUnit) : Prop :=
  folders = [] ∨
    folders.getLast? = some slash ∧ (before = [] ∨ before.getLast? = some slash)

/-- The tokens account for the text, behind the text before it. -/
def TokensCover : List GlobToken → List CodeUnit → List CodeUnit → Prop
  | [], _, text => text = []
  | .letter own :: rest, before, text =>
      ∃ unit more, text = unit :: more ∧
        canonicalize unit = canonicalize own ∧
          TokensCover rest (before ++ [unit]) more
  | .one :: rest, before, text =>
      ∃ unit more, text = unit :: more ∧ unit ≠ slash ∧
        TokensCover rest (before ++ [unit]) more
  | .run :: rest, before, text =>
      ∃ front back, text = front ++ back ∧ slash ∉ front ∧
        TokensCover rest (before ++ front) back
  | .anything :: rest, before, text =>
      ∃ front back, text = front ++ back ∧
        TokensCover rest (before ++ front) back
  | .folders :: rest, before, text =>
      ∃ front back, text = front ++ back ∧ AreFolders before front ∧
        TokensCover rest (before ++ front) back

/-- A glob without a slash is about the last segment of a path, one with a
slash in front about the path from its start, and any other one about the path
from the start of some segment. -/
def GlobAccepts (glob path : List CodeUnit) : Prop :=
  if slash ∉ glob then
    TokensCover canonicalize (globTokens glob) [] (basenameOf path)
  else if glob.head? = some slash then
    TokensCover canonicalize (globTokens glob.tail) [] path
  else
    ∃ folders rest, path = folders ++ rest ∧ AreFolders [] folders ∧
      TokensCover canonicalize (globTokens glob) folders rest

variable {canonicalize}

theorem spans_anything {before text after : List CodeUnit}
    (plain : ∀ unit ∈ text, isPathTerminator unit = false) :
    (run GlobClass.notTerminator 0 none).Spans
      (GlobClass.accepts canonicalize) (fun _ => false) before text after := by
  refine spans_run_iff.mpr ⟨fun unit member => ?_, Nat.zero_le _, by simp⟩
  simp [GlobClass.accepts, plain unit member]

theorem spans_inside {before text after : List CodeUnit} :
    (run GlobClass.notSlash 0 none).Spans
      (GlobClass.accepts canonicalize) (fun _ => false) before text after ↔
      slash ∉ text := by
  rw [spans_run_iff]
  constructor
  · rintro ⟨all, -⟩ member
    simpa [GlobClass.accepts] using all slash member
  · intro inside
    refine ⟨fun unit member => ?_, Nat.zero_le _, by simp⟩
    simpa [GlobClass.accepts] using ne_of_mem_of_not_mem member inside

/-- A text without line terminators that the tokens account for is matched. -/
theorem spans_of_covers {glob before text : List CodeUnit}
    (plain : ∀ unit ∈ text, isPathTerminator unit = false)
    (covers : TokensCover canonicalize (globTokens glob) before text) :
    (globRegex glob).Spans (GlobClass.accepts canonicalize) (fun _ => false)
      before text [] := by
  fun_induction globRegex glob generalizing before text with
  | case1 rest induction =>
      rw [globTokens] at covers
      obtain ⟨front, back, rfl, -, covers⟩ := covers
      obtain ⟨plainFront, plainBack⟩ := List.forall_mem_append.mp plain
      exact spans_seq_iff.mpr ⟨front, back, rfl, spans_anything plainFront,
        induction plainBack covers⟩
  | case2 rest notFolders induction =>
      rw [globTokens.eq_2 _ notFolders] at covers
      obtain ⟨front, back, rfl, covers⟩ := covers
      obtain ⟨plainFront, plainBack⟩ := List.forall_mem_append.mp plain
      exact spans_seq_iff.mpr ⟨front, back, rfl, spans_anything plainFront,
        induction plainBack covers⟩
  | case3 rest notFolders notAnything induction =>
      rw [globTokens.eq_3 _ notFolders notAnything] at covers
      obtain ⟨front, back, rfl, inside, covers⟩ := covers
      obtain ⟨-, plainBack⟩ := List.forall_mem_append.mp plain
      exact spans_seq_iff.mpr ⟨front, back, rfl, spans_inside.mpr inside,
        induction plainBack covers⟩
  | case4 rest induction =>
      rw [globTokens] at covers
      obtain ⟨unit, more, rfl, inside, covers⟩ := covers
      have plainMore := (List.forall_mem_cons.mp plain).2
      refine spans_seq_iff.mpr
        ⟨[unit], more, rfl, ?_, induction plainMore covers⟩
      exact spans_symbol_iff.mpr ⟨unit, rfl, by simpa [GlobClass.accepts]⟩
  | case5 rest unit notFolders notAnything notRun notOne induction =>
      rw [globTokens.eq_5 _ _ notFolders notAnything notRun notOne] at covers
      obtain ⟨own, more, rfl, same, covers⟩ := covers
      have plainMore := (List.forall_mem_cons.mp plain).2
      refine spans_seq_iff.mpr
        ⟨[own], more, rfl, ?_, induction plainMore covers⟩
      exact spans_symbol_iff.mpr ⟨own, rfl, by simpa [GlobClass.accepts]⟩
  | case6 => exact spans_empty_iff.mpr covers

/-- Without `**/` the tokens account for every text that is matched. -/
theorem covers_of_spans {glob before text : List CodeUnit}
    (noFolders : .folders ∉ globTokens glob)
    (spans : (globRegex glob).Spans (GlobClass.accepts canonicalize)
      (fun _ => false) before text []) :
    TokensCover canonicalize (globTokens glob) before text := by
  fun_induction globRegex glob generalizing before text with
  | case1 rest induction =>
      rw [globTokens] at noFolders
      exact absurd List.mem_cons_self noFolders
  | case2 rest notFolders induction =>
      rw [globTokens.eq_2 _ notFolders] at noFolders ⊢
      obtain ⟨front, back, rfl, -, spans⟩ := spans_seq_iff.mp spans
      exact ⟨front, back, rfl,
        induction (List.not_mem_of_not_mem_cons noFolders) spans⟩
  | case3 rest notFolders notAnything induction =>
      rw [globTokens.eq_3 _ notFolders notAnything] at noFolders ⊢
      obtain ⟨front, back, rfl, inside, spans⟩ := spans_seq_iff.mp spans
      exact ⟨front, back, rfl, spans_inside.mp inside,
        induction (List.not_mem_of_not_mem_cons noFolders) spans⟩
  | case4 rest induction =>
      rw [globTokens] at noFolders ⊢
      obtain ⟨front, back, rfl, one, spans⟩ := spans_seq_iff.mp spans
      obtain ⟨unit, rfl, inside⟩ := spans_symbol_iff.mp one
      exact ⟨unit, back, rfl, by simpa [GlobClass.accepts] using inside,
        induction (List.not_mem_of_not_mem_cons noFolders) spans⟩
  | case5 rest unit notFolders notAnything notRun notOne induction =>
      rw [globTokens.eq_5 _ _ notFolders notAnything notRun notOne]
        at noFolders ⊢
      obtain ⟨front, back, rfl, one, spans⟩ := spans_seq_iff.mp spans
      obtain ⟨own, rfl, same⟩ := spans_symbol_iff.mp one
      exact ⟨own, back, rfl, by simpa [GlobClass.accepts] using same,
        induction (List.not_mem_of_not_mem_cons noFolders) spans⟩
  | case6 => exact spans_empty_iff.mp spans

/-- `(?:.*/)?` -/
theorem spans_anyFolders_iff {folders after : List CodeUnit}
    (onlySlash : ∀ unit, canonicalize unit = canonicalize slash →
      unit = slash)
    (plain : ∀ unit ∈ folders, isPathTerminator unit = false) :
    anyFolders.Spans (GlobClass.accepts canonicalize) (fun _ => false) []
      folders after ↔ AreFolders [] folders := by
  unfold anyFolders Regex.optional
  rw [spans_alt_iff, spans_empty_iff, spans_seq_iff]
  constructor
  · rintro (⟨front, back, rfl, -, one⟩ | rfl)
    · obtain ⟨unit, rfl, same⟩ := spans_symbol_iff.mp one
      have isSlash : unit = slash :=
        onlySlash unit (by simpa [GlobClass.accepts] using same)
      exact .inr ⟨by simp [isSlash], .inl rfl⟩
    · exact .inl rfl
  · rintro (rfl | ⟨closed, -⟩)
    · exact .inr rfl
    · obtain ⟨front, rfl⟩ := List.getLast?_eq_some_iff.mp closed
      refine .inl ⟨front, [slash], rfl, ?_, ?_⟩
      · exact spans_anything (List.forall_mem_append.mp plain).1
      · exact spans_symbol_iff.mpr ⟨slash, rfl, by simp [GlobClass.accepts]⟩

/-- A sign in front anchors only a glob with a further slash. -/
def LosesAnchor (glob : List CodeUnit) : Prop :=
  glob.head? = some slash ∧ slash ∉ glob.tail

/-- What a compiled pattern accepts, by the glob of its line. -/
theorem accepts_iff {raw path : List CodeUnit} {source : PatternSource}
    {pattern : BrainignorePattern} {negated : Bool} {glob : List CodeUnit}
    (isGlob : globOfLine raw = some (negated, glob))
    (compiled : compilePattern raw source = some pattern)
    (anchored : ¬LosesAnchor glob) :
    pattern.accepts canonicalize path = true ↔
      if slash ∉ glob then
        (globRegex glob).Spans (GlobClass.accepts canonicalize)
          (fun _ => false) [] (basenameOf (normalizePath path)) []
      else if glob.head? = some slash then
        (globRegex glob.tail).Spans (GlobClass.accepts canonicalize)
          (fun _ => false) [] (normalizePath path) []
      else
        (seq anyFolders (globRegex glob)).Spans
          (GlobClass.accepts canonicalize) (fun _ => false) []
          (normalizePath path) [] := by
  rw [compilePattern, isGlob, Option.map_some, Option.some_inj] at compiled
  subst compiled
  unfold BrainignorePattern.accepts matchesWhole
  rw [decide_eq_true_iff]
  by_cases bare : slash ∉ glob
  · have unanchored : glob.head? ≠ some slash := fun isHead =>
      bare (List.mem_of_mem_head? isHead)
    simp [bare, unanchored]
  · by_cases isHead : glob.head? = some slash
    · have further : slash ∈ glob.tail := by
        by_contra none
        exact anchored ⟨isHead, none⟩
      simp [bare, isHead, further]
    · simp [isHead, not_not.mp bare]

theorem mem_intercalate {separator piece : List CodeUnit}
    {pieces : List (List CodeUnit)} {unit : CodeUnit} (isPiece : piece ∈ pieces)
    (member : unit ∈ piece) : unit ∈ separator.intercalate pieces := by
  induction pieces with
  | nil => cases isPiece
  | cons first rest induction =>
      by_cases alone : rest = []
      · subst alone
        rw [List.mem_singleton] at isPiece
        rwa [List.intercalate_singleton, ← isPiece]
      · rw [List.intercalate_cons_of_ne_nil alone, List.append_assoc,
          List.mem_append, List.mem_append]
        rcases List.mem_cons.mp isPiece with rfl | inRest
        · exact .inl member
        · exact .inr (.inr (induction inRest))

section Plain

variable {path : List CodeUnit}

theorem plain_stripDots (plain : ∀ unit ∈ path, isPathTerminator unit = false) :
    ∀ unit ∈ stripDots path, isPathTerminator unit = false := by
  fun_induction stripDots path with
  | case1 rest induction =>
      have plainTail := (List.forall_mem_cons.mp plain).2
      exact induction (List.forall_mem_cons.mp plainTail).2
  | case2 path notDots => exact plain

theorem plain_normalizePath
    (plain : ∀ unit ∈ path, isPathTerminator unit = false) :
    ∀ unit ∈ normalizePath path, isPathTerminator unit = false := by
  intro unit member
  refine plain_stripDots ?_ unit (List.dropWhile_sublist _ |>.mem member)
  intro mapped isMapped
  obtain ⟨own, isOwn, rfl⟩ := List.mem_map.mp isMapped
  split_ifs
  · rfl
  · exact plain own isOwn

theorem plain_basenameOf
    (plain : ∀ unit ∈ path, isPathTerminator unit = false) :
    ∀ unit ∈ basenameOf path, isPathTerminator unit = false := by
  intro unit member
  refine plain unit ?_
  rw [← @List.intercalate_splitOn _ path _ _ slash]
  have pieces := List.splitOn_ne_nil slash path
  rw [basenameOf, List.getLastD_eq_getLast?,
    List.getLast?_eq_some_getLast pieces] at member
  exact mem_intercalate (List.getLast_mem pieces) member

end Plain

/-- A compiled pattern accepts every path that its glob accepts, and no other
one unless the glob has `**/`. -/
theorem pattern_accepts_of_glob {raw path : List CodeUnit}
    {source : PatternSource} {pattern : BrainignorePattern} {negated : Bool}
    {glob : List CodeUnit}
    (onlySlash : ∀ unit, canonicalize unit = canonicalize slash → unit = slash)
    (isGlob : globOfLine raw = some (negated, glob))
    (compiled : compilePattern raw source = some pattern)
    (anchored : ¬LosesAnchor glob)
    (plain : ∀ unit ∈ path, isPathTerminator unit = false) :
    (GlobAccepts canonicalize glob (normalizePath path) →
        pattern.accepts canonicalize path = true) ∧
      (.folders ∉ globTokens glob →
        pattern.accepts canonicalize path = true →
          GlobAccepts canonicalize glob (normalizePath path)) := by
  have plainPath := plain_normalizePath plain
  rw [accepts_iff isGlob compiled anchored, GlobAccepts]
  by_cases bare : slash ∉ glob
  · rw [if_pos bare, if_pos bare]
    exact ⟨spans_of_covers (plain_basenameOf plainPath), covers_of_spans⟩
  rw [if_neg bare, if_neg bare]
  by_cases isHead : glob.head? = some slash
  · rw [if_pos isHead, if_pos isHead]
    refine ⟨spans_of_covers plainPath, fun noFolders => covers_of_spans ?_⟩
    obtain ⟨rest, rfl⟩ := List.head?_eq_some_iff.mp isHead
    exact List.not_mem_of_not_mem_cons noFolders
  rw [if_neg isHead, if_neg isHead, spans_seq_iff]
  constructor
  · rintro ⟨folders, rest, isPath, are, covers⟩
    rw [isPath] at plainPath
    obtain ⟨plainFolders, plainRest⟩ := List.forall_mem_append.mp plainPath
    exact ⟨folders, rest, isPath,
      (spans_anyFolders_iff onlySlash plainFolders).mpr are,
      spans_of_covers plainRest covers⟩
  · rintro noFolders ⟨folders, rest, isPath, spans, covers⟩
    rw [isPath] at plainPath
    obtain ⟨plainFolders, plainRest⟩ := List.forall_mem_append.mp plainPath
    exact ⟨folders, rest, isPath,
      (spans_anyFolders_iff onlySlash plainFolders).mp spans,
      covers_of_spans noFolders covers⟩

/-- The flag `i` on ASCII letters. -/
def upperUnit (unit : CodeUnit) : CodeUnit :=
  if 0x61 ≤ unit ∧ unit ≤ 0x7a then unit - 0x20 else unit

theorem eq_slash_of_upperUnit {unit : CodeUnit}
    (same : upperUnit unit = upperUnit slash) : unit = slash := by
  have isSlash : upperUnit unit = slash := same
  unfold upperUnit at isSlash
  split_ifs at isSlash with letter
  · have least : (0x61 : Nat) ≤ unit.val := letter.1
    have value := congrArg Fin.val isSlash
    have shifted : (unit - 0x20).val = unit.val - 0x20 :=
      Fin.sub_val_of_le (Fin.le_def.mpr (by
        change (0x20 : Nat) ≤ unit.val
        omega))
    have isCode : unit.val - 0x20 = 0x2f := shifted.symm.trans value
    omega
  · exact isSlash

theorem pattern_accepts_of_glob_notes :
    ∃ pattern,
      compilePattern (CodeUnit.units "!a/*") .override = some pattern ∧
        pattern.accepts upperUnit (CodeUnit.units "B\\A\\c") = true := by
  have isGlob : globOfLine (CodeUnit.units "!a/*") =
      some (true, CodeUnit.units "a/*") := by
    decide
  obtain ⟨pattern, compiled⟩ : ∃ pattern,
      compilePattern (CodeUnit.units "!a/*") .override = some pattern :=
    ⟨_, by rw [compilePattern, isGlob, Option.map_some]⟩
  refine ⟨pattern, compiled, (pattern_accepts_of_glob
    (fun _ => eq_slash_of_upperUnit) isGlob compiled
    (fun loses => absurd loses.1 (by decide))
    (List.all_iff_forall_prop.mp (by decide))).1 ?_⟩
  rw [GlobAccepts, if_neg (by decide), if_neg (by decide)]
  exact ⟨CodeUnit.units "B/", CodeUnit.units "A/c", by decide,
    .inr ⟨rfl, .inl rfl⟩, 0x41, _, rfl, rfl, slash, _, rfl, rfl,
    CodeUnit.units "c", [], rfl, by decide, rfl⟩

/-- A slash at the end of a glob is a slash like any other: the files below the
directory are not accepted. -/
theorem trailingSlash_ignores_files :
    CodeUnit.units "docs/" <+: CodeUnit.units "docs/a.md" ∧
      ¬∃ pattern,
        compilePattern (CodeUnit.units "docs/") .override = some pattern ∧
          pattern.accepts upperUnit (CodeUnit.units "docs/a.md") = true := by
  refine ⟨by decide, ?_⟩
  intro accepts
  obtain ⟨pattern, compiled, accepted⟩ := accepts
  have isGlob : globOfLine (CodeUnit.units "docs/") =
      some (false, CodeUnit.units "docs/") := by
    decide
  rw [accepts_iff isGlob compiled (fun loses => absurd loses.1 (by decide))]
    at accepted
  revert accepted
  decide

theorem matchPath_eq_find? {path : List CodeUnit}
    {patterns : List BrainignorePattern} :
    matchPath canonicalize path patterns =
      (patterns.reverse.find? (·.accepts canonicalize path)).filter
        (!·.negated) := by
  unfold matchPath
  congr 1
  induction patterns using List.reverseRecOn with
  | nil => rfl
  | append_singleton earlier last induction =>
      rw [List.foldl_append, induction, List.reverse_append]
      by_cases accepted : last.accepts canonicalize path = true
      · simp [accepted]
      · simp [accepted]

/-- The pattern that excludes a path accepts it, is no negation, and no later
pattern accepts the path. -/
theorem matchPath_eq_some_iff {path : List CodeUnit}
    {patterns : List BrainignorePattern} {decision : BrainignorePattern} :
    matchPath canonicalize path patterns = some decision ↔
      ∃ earlier later, patterns = earlier ++ decision :: later ∧
        decision.accepts canonicalize path = true ∧
        decision.negated = false ∧
          ∀ pattern ∈ later, pattern.accepts canonicalize path = false := by
  rw [matchPath_eq_find?, Option.filter_eq_some_iff,
    List.find?_eq_some_iff_append]
  constructor
  · rintro ⟨⟨accepted, later, earlier, isReverse, others⟩, plain⟩
    refine ⟨earlier.reverse, later.reverse, ?_, accepted, by simpa using plain,
      fun pattern member => ?_⟩
    · simpa using congrArg List.reverse isReverse
    · simpa using others pattern (List.mem_reverse.mp member)
  · rintro ⟨earlier, later, rfl, accepted, plain, others⟩
    refine ⟨⟨accepted, later.reverse, earlier.reverse, by simp, ?_⟩,
      by simpa using plain⟩
    intro pattern member
    simpa using others pattern (List.mem_reverse.mp member)

end Registrar
