import Mathlib.Data.Bool.AllAny
import Registrar.Common.DisclosureFilter

/-!
# Matches that normalization leaves standing

The filter scans the normalized text only.  A match in the text as it was
written is found where it stands unless decoding or composition cuts into it, or
it is no match any more without its byte order marks and between the nearest
characters that stay visible.
-/

namespace Registrar

/-- Every character that a pattern accepts. -/
def legibleClass : CharClass :=
  .space ++ [(' ', '$'), ('&', '~'), ('→', '→')]

/-- The patterns that count by themselves. -/
def disclosurePatterns : List Pattern :=
  secretPatterns ++ [piiPattern, compensationTermsPattern]

/-- Every pattern of the filter. -/
def filterPatterns : List Pattern :=
  disclosurePatterns ++ [ratioSplitPattern, compContextPattern]

theorem legible_of_mem {pattern : Pattern}
    (member : pattern ∈ filterPatterns) :
    pattern.All legibleClass.Within := by
  have all : ∀ pattern ∈ filterPatterns,
      pattern.All legibleClass.Within := by
    decide +kernel
  exact all pattern member

theorem nonempty_of_mem {pattern : Pattern} (member : pattern ∈ filterPatterns)
    {before span after : List Char}
    (finds : pattern.Finds before span after) : span ≠ [] := by
  have filled : ∀ pattern ∈ filterPatterns, pattern.nullable = false := by
    decide +kernel
  exact Regex.Spans.nonempty (filled pattern member) finds

theorem scanNormalized_ne_none_iff {text : List Char} :
    scanNormalized text ≠ none ↔
      (∃ pattern ∈ disclosurePatterns, pattern.tests text = true) ∨
        ratioSplitPattern.tests text = true ∧
          compContextPattern.tests text = true := by
  unfold scanNormalized disclosurePatterns
  by_cases secret : secretPatterns.any (·.tests text) = true
  · have found := List.any_eq_true.mp secret
    obtain ⟨pattern, member, matched⟩ := found
    rw [if_pos secret]
    exact iff_of_true (by simp)
      (.inl ⟨pattern, List.mem_append_left _ member, matched⟩)
  · have unmatched : ∀ pattern ∈ secretPatterns,
        pattern.tests text = false := by
      simpa using secret
    rw [if_neg secret]
    by_cases pii : piiPattern.tests text = true
    · rw [if_pos pii]
      exact iff_of_true (by simp) (.inl ⟨piiPattern, by simp, pii⟩)
    · rw [if_neg pii]
      by_cases terms : compensationTermsPattern.tests text = true
      · rw [if_pos terms]
        exact iff_of_true (by simp)
          (.inl ⟨compensationTermsPattern, by simp, terms⟩)
      · rw [if_neg terms]
        have noneAlone : ¬∃ pattern ∈
            secretPatterns ++ [piiPattern, compensationTermsPattern],
            pattern.tests text = true := by
          rintro ⟨pattern, member, matched⟩
          rcases List.mem_append.mp member with inSecrets | others
          · rw [unmatched pattern inSecrets] at matched
            cases matched
          · rcases List.mem_pair.mp others with rfl | rfl
            · exact pii matched
            · exact terms matched
        rw [or_iff_right noneAlone]
        split_ifs with both
        · simpa using both
        · simpa using both

/-- NFKC turns compatibility spaces into spaces. -/
def isCompatibilitySpace (char : Char) : Bool :=
  CharClass.accepts
    [(Char.ofNat 0xa0, Char.ofNat 0xa0), (Char.ofNat 0x2000, Char.ofNat 0x200a),
      (Char.ofNat 0x202f, Char.ofNat 0x202f),
      (Char.ofNat 0x205f, Char.ofNat 0x205f),
      (Char.ofNat 0x3000, Char.ofNat 0x3000)] char

def composedForm (char : Char) : Char :=
  if isCompatibilitySpace char then ' ' else char

/-- How NFKC treats the characters of the patterns: none joins what stands
before it, each has its form when nothing follows it, and what follows one that
keeps its form is composed by itself. -/
structure ComposesApart (compose : List Char → List Char) : Prop where
  nothing : compose [] = []
  alone : ∀ char, legibleClass.accepts char = true →
    compose [char] = [composedForm char]
  ahead : ∀ before char after, legibleClass.accepts char = true →
    compose (before ++ char :: after) =
      compose before ++ compose (char :: after)
  behind : ∀ char after rest, legibleClass.accepts char = true →
    compose (char :: after) = composedForm char :: rest → rest = compose after

section Composition

variable {compose : List Char → List Char}

theorem ComposesApart.span (composes : ComposesApart compose)
    {span : List Char}
    (legible : ∀ char ∈ span, legibleClass.accepts char = true) :
    compose span = span.map composedForm := by
  induction span with
  | nil => exact composes.nothing
  | cons char rest induction =>
      obtain ⟨first, others⟩ := List.forall_mem_cons.mp legible
      cases rest with
      | nil => exact composes.alone char first
      | cons next rest =>
          have nextLegible := others next List.mem_cons_self
          calc
            compose ([char] ++ next :: rest) =
                compose [char] ++ compose (next :: rest) :=
              composes.ahead [char] next rest nextLegible
            _ = [composedForm char] ++ (next :: rest).map composedForm := by
              rw [composes.alone char first, induction others]

/-- A legible part of a text is composed by itself up to its last character,
which may join what follows. -/
theorem ComposesApart.around (composes : ComposesApart compose)
    {before front after : List Char} {last : Char}
    (legible : ∀ char ∈ front, legibleClass.accepts char = true)
    (lastLegible : legibleClass.accepts last = true) :
    compose (before ++ (front ++ last :: after)) =
      compose before ++
        (front.map composedForm ++ compose (last :: after)) := by
  have isFront := composes.span legible
  cases front with
  | nil => exact composes.ahead before last after lastLegible
  | cons first rest =>
      have firstLegible := legible first List.mem_cons_self
      calc
        compose (before ++ first :: (rest ++ last :: after)) =
            compose before ++ compose (first :: rest ++ last :: after) :=
          composes.ahead before first _ firstLegible
        _ = compose before ++
            ((first :: rest).map composedForm ++ compose (last :: after)) := by
          rw [composes.ahead (first :: rest) last after lastLegible, isFront]

/-- The last character of the part stays itself before what follows. -/
def LastStays (compose : List Char → List Char) (span after : List Char) :
    Prop :=
  ∃ last ∈ span.getLast?,
    (compose (last :: after)).head? = some (composedForm last)

/-- A part is composed apart from its sides just when its last character stays
itself. -/
theorem ComposesApart.split_iff (composes : ComposesApart compose)
    {before span after : List Char} (nonempty : span ≠ [])
    (legible : ∀ char ∈ span, legibleClass.accepts char = true) :
    compose (before ++ span ++ after) =
        compose before ++ compose span ++ compose after ↔
      LastStays compose span after := by
  obtain ⟨front, last, rfl⟩ :=
    (List.eq_nil_or_concat' span).resolve_left nonempty
  obtain ⟨frontLegible, lastLegible⟩ := List.forall_mem_append.mp legible
  have isLast := lastLegible last List.mem_cons_self
  have whole : before ++ (front ++ [last]) ++ after =
      before ++ (front ++ last :: after) := by
    simp
  rw [whole, composes.around frontLegible isLast, composes.span legible]
  constructor
  · intro same
    refine ⟨last, by simp, ?_⟩
    have joined : compose (last :: after) =
        composedForm last :: compose after := by
      simpa [List.append_assoc] using same
    rw [joined]
    rfl
  · intro stays
    obtain ⟨other, isOther, isHead⟩ := stays
    obtain rfl : last = other := by simpa using isOther
    obtain ⟨rest, isRest⟩ := List.head?_eq_some_iff.mp isHead
    rw [isRest, composes.behind last after rest isLast isRest]
    simp

end Composition

def isVisible (char : Char) : Bool :=
  !invisibleChars.contains char

/-- Strip and fold a composed text. -/
def cleaned (text : List Char) : List Char :=
  foldHomoglyphs (stripInvisibles text)

theorem cleaned_append (front back : List Char) :
    cleaned (front ++ back) = cleaned front ++ cleaned back := by
  simp [cleaned, stripInvisibles, foldHomoglyphs]

/-- The first character that is not stripped, a look-alike as its letter. -/
def nearestVisible (side : List Char) : Option Char :=
  (side.find? isVisible).map fun char => (homoglyphMap.lookup char).getD char

theorem head?_cleaned (side : List Char) :
    (cleaned side).head? = nearestVisible side := by
  unfold cleaned foldHomoglyphs stripInvisibles nearestVisible
  rw [List.head?_map, List.head?_filter]
  rfl

theorem getLast?_cleaned (side : List Char) :
    (cleaned side).getLast? = nearestVisible side.reverse := by
  rw [← head?_cleaned, ← List.head?_reverse]
  unfold cleaned foldHomoglyphs stripInvisibles
  rw [List.filter_reverse, List.map_reverse]

def byteOrderMark : Char := Char.ofNat 0xfeff

/-- Of the characters of the patterns, only the byte order mark is stripped and
none is folded. -/
theorem cleaned_of_legible {text : List Char}
    (legible : ∀ char ∈ text, legibleClass.accepts char = true) :
    cleaned text = text.filter (· ≠ byteOrderMark) := by
  have visible : ∀ char ∈ invisibleChars, char ≠ byteOrderMark →
      legibleClass.accepts char = false :=
    List.all_iff_forall_prop.mp (by decide +kernel)
  have unfolded : ∀ entry ∈ homoglyphMap,
      legibleClass.accepts entry.1 = false :=
    List.all_iff_forall_prop.mp (by decide +kernel)
  have kept : stripInvisibles text = text.filter (· ≠ byteOrderMark) := by
    apply List.filter_congr
    intro char member
    by_cases isMark : char = byteOrderMark
    · subst isMark
      decide +kernel
    · have isVisible : char ∉ invisibleChars := by
        intro invisible
        have refused := visible char invisible isMark
        rw [legible char member] at refused
        cases refused
      simp [isMark, isVisible]
  have same : ∀ char ∈ text.filter (· ≠ byteOrderMark),
      (homoglyphMap.lookup char).getD char = char := by
    intro char member
    have accepted := legible char (List.mem_filter.mp member).1
    cases folded : homoglyphMap.lookup char with
    | none => rfl
    | some other =>
        obtain ⟨front, back, isMap, -⟩ := List.lookup_eq_some_iff.mp folded
        have refused := unfolded (char, other) (by rw [isMap]; simp)
        rw [accepted] at refused
        cases refused
  unfold cleaned foldHomoglyphs
  rw [kept, List.map_congr_left same, List.map_id']

theorem composedForm_legible {char : Char}
    (legible : legibleClass.accepts char = true) :
    legibleClass.accepts (composedForm char) = true := by
  unfold composedForm
  split_ifs
  · decide +kernel
  · exact legible

theorem composedForm_eq_mark_iff {char : Char} :
    composedForm char = byteOrderMark ↔ char = byteOrderMark := by
  unfold composedForm
  split_ifs with isSpace
  · apply iff_of_false
    · decide
    · rintro rfl
      revert isSpace
      decide
  · rfl

/-- What is scanned of a match: its byte order marks are gone, and its
compatibility spaces are spaces. -/
def scannedForm (span : List Char) : List Char :=
  (span.filter (· ≠ byteOrderMark)).map composedForm

theorem cleaned_map_composedForm {span : List Char}
    (legible : ∀ char ∈ span, legibleClass.accepts char = true) :
    cleaned (span.map composedForm) = scannedForm span := by
  have composedLegible : ∀ char ∈ span.map composedForm,
      legibleClass.accepts char = true := by
    intro char member
    obtain ⟨written, inSpan, rfl⟩ := List.mem_map.mp member
    exact composedForm_legible (legible written inSpan)
  rw [cleaned_of_legible composedLegible, List.filter_map]
  unfold scannedForm
  congr 2
  funext char
  simp [composedForm_eq_mark_iff]

variable {compose : List Char → List Char}

/-- The scan finds the part of the decoded text where it stands: it is composed
apart from its sides, and what becomes of it is matched between what becomes of
them. -/
structure FoundInPlace (compose : List Char → List Char) (pattern : Pattern)
    (before span after : List Char) : Prop where
  split : compose (before ++ span ++ after) =
    compose before ++ compose span ++ compose after
  found : pattern.Finds (cleaned (compose before)) (cleaned (compose span))
    (cleaned (compose after))

/-- The last character of the match does not join what follows, and the pattern
matches what is scanned of it between the nearest visible characters. -/
structure Stands (compose : List Char → List Char) (pattern : Pattern)
    (before span after : List Char) : Prop where
  lastStays : LastStays compose span after
  bounded : pattern.Finds
    (nearestVisible (compose before).reverse).toList (scannedForm span)
    (nearestVisible (compose after)).toList

theorem foundInPlace_iff (composes : ComposesApart compose) {pattern : Pattern}
    {before span after : List Char} (nonempty : span ≠ [])
    (legible : ∀ char ∈ span, legibleClass.accepts char = true) :
    FoundInPlace compose pattern before span after ↔
      Stands compose pattern before span after := by
  have isSpan : cleaned (compose span) = scannedForm span := by
    rw [composes.span legible, cleaned_map_composedForm legible]
  have ahead : (cleaned (compose before)).getLast? =
      (nearestVisible (compose before).reverse).toList.getLast? := by
    rw [getLast?_cleaned]
    cases nearestVisible (compose before).reverse <;> rfl
  have behind : (cleaned (compose after)).head? =
      (nearestVisible (compose after)).toList.head? := by
    rw [head?_cleaned, Option.head?_toList]
  constructor
  · intro inPlace
    obtain ⟨split, found⟩ := inPlace
    rw [isSpan] at found
    exact
      { lastStays := (composes.split_iff nonempty legible).mp split
        bounded :=
          Regex.Spans.beside found (by rw [ahead]) (by rw [behind]) }
  · intro stands
    have found : pattern.Finds (cleaned (compose before)) (scannedForm span)
        (cleaned (compose after)) :=
      Regex.Spans.beside stands.bounded (by rw [ahead]) (by rw [behind])
    rw [← isSpan] at found
    exact
      { split := (composes.split_iff nonempty legible).mpr stands.lastStays
        found := found }

/-- What decoding leaves on the sides of a part of the text: it decodes the
sides, or it fails on the whole text. -/
def DecodesAround (text before after left right : List Char) : Prop :=
  PercentCoding.decodeURIComponent before = some left ∧
      PercentCoding.decodeURIComponent after = some right ∨
    PercentCoding.decodeURIComponent text = none ∧
      left = before ∧ right = after

/-- The pattern matches the text as it is written, decoding does not cut into
the match, and the match has the property between the decoded sides. -/
def WrittenMatch
    (property : Pattern → List Char → List Char → List Char → Prop)
    (pattern : Pattern) (text : List Char) : Prop :=
  ∃ before span after left right, text = before ++ span ++ after ∧
    pattern.Finds before span after ∧
      DecodesAround text before after left right ∧
        property pattern left span right

/-- What the filter looks for holds of the text by the given reading of
matches. -/
def FindingBy (matched : Pattern → List Char → Prop) (text : List Char) :
    Prop :=
  (∃ pattern ∈ disclosurePatterns, matched pattern text) ∨
    matched ratioSplitPattern text ∧ matched compContextPattern text

theorem FindingBy.mono {matched weaker : Pattern → List Char → Prop}
    {text other : List Char} (finding : FindingBy matched text)
    (implies : ∀ pattern ∈ filterPatterns,
      matched pattern text → weaker pattern other) :
    FindingBy weaker other := by
  rcases finding with ⟨pattern, member, found⟩ | ⟨ratio, context⟩
  · exact .inl ⟨pattern, member,
      implies pattern (List.mem_append_left _ member) found⟩
  · exact .inr ⟨implies _ (by simp [filterPatterns]) ratio,
      implies _ (by simp [filterPatterns]) context⟩

theorem decodeOnce_eq (text : List Char) :
    decodeOnce text =
      (PercentCoding.decodeURIComponent text).getD text := by
  unfold decodeOnce
  by_cases escaped : '%' ∈ text
  · rw [if_neg (not_not_intro escaped)]
  · rw [if_pos escaped,
      PercentCoding.decodeURIComponent_of_unescaped escaped]
    rfl

theorem decodeOnce_around {before span after left right : List Char}
    (legible : ∀ char ∈ span, legibleClass.accepts char = true)
    (decodes : DecodesAround (before ++ span ++ after) before after left
      right) :
    decodeOnce (before ++ span ++ after) = left ++ span ++ right := by
  rw [decodeOnce_eq]
  rcases decodes with ⟨isLeft, isRight⟩ | ⟨fails, rfl, rfl⟩
  · have unescaped : '%' ∉ span := by
      intro member
      have accepted := legible '%' member
      revert accepted
      decide +kernel
    have isSpan := PercentCoding.decodeURIComponent_of_unescaped unescaped
    rw [PercentCoding.decodeURIComponent_append
      (PercentCoding.decodeURIComponent_append isLeft isSpan) isRight]
    rfl
  · rw [fails]
    rfl

theorem tests_of_foundInPlace {pattern : Pattern} {text : List Char}
    (member : pattern ∈ filterPatterns)
    (found : WrittenMatch (FoundInPlace compose) pattern text) :
    pattern.tests (cleaned (compose (decodeOnce text))) = true := by
  obtain ⟨before, span, after, left, right, rfl, finds, decodes, inPlace⟩ :=
    found
  have legible := finds.accepts (legible_of_mem member)
  refine Regex.tests_iff.mpr ⟨_, _, _, ?_, inPlace.found⟩
  rw [decodeOnce_around legible decodes, inPlace.split, cleaned_append,
    cleaned_append]

/-- A match as written is found where it stands just when it stands, and the
filter reports a text if one of its findings does. -/
theorem scanForDisclosure_of_written (composes : ComposesApart compose)
    (text : String) :
    (∀ pattern ∈ filterPatterns,
      WrittenMatch (FoundInPlace compose) pattern text.toList ↔
        WrittenMatch (Stands compose) pattern text.toList) ∧
      (FindingBy (WrittenMatch (Stands compose)) text.toList →
        scanForDisclosure (fun decoded => some (compose decoded)) text ≠
          none) := by
  have inPlace_iff : ∀ pattern ∈ filterPatterns,
      (WrittenMatch (FoundInPlace compose) pattern text.toList ↔
        WrittenMatch (Stands compose) pattern text.toList) := by
    intro pattern member
    unfold WrittenMatch
    refine exists₅_congr fun before span after left right => ?_
    apply and_congr_right
    intro isText
    apply and_congr_right
    intro finds
    apply and_congr_right
    intro decodes
    exact foundInPlace_iff composes (nonempty_of_mem member finds)
      (finds.accepts (legible_of_mem member))
  refine ⟨inPlace_iff, fun stands => ?_⟩
  have found : FindingBy (fun pattern text => pattern.tests text = true)
      (cleaned (compose (decodeOnce text.toList))) :=
    stands.mono fun pattern member standing =>
      tests_of_foundInPlace member ((inPlace_iff pattern member).mpr standing)
  exact scanNormalized_ne_none_iff.mpr found

/-- NFKC as it is on the characters of the patterns. -/
def spacesComposed (text : List Char) : List Char :=
  text.map composedForm

theorem spacesComposed_apart : ComposesApart spacesComposed where
  nothing := rfl
  alone := fun _ _ => rfl
  ahead := fun _ _ _ _ => List.map_append
  behind := fun _ _ _ _ same => (List.cons_eq_cons.mp same).2.symm

/-- A combining mark behind a digit joins nothing, and the match needs no
boundary there. -/
theorem scanForDisclosure_of_written_marked :
    scanForDisclosure (fun decoded => some (spacesComposed decoded))
      "123-45-6789\u0301" ≠ none := by
  apply (scanForDisclosure_of_written spacesComposed_apart _).2
  refine .inl ⟨piiPattern, by simp [disclosurePatterns], [],
    "123-45-6789".toList, ['\u0301'], [], ['\u0301'], by decide +kernel,
    by decide +kernel, .inl (by decide +kernel), ?_⟩
  exact
    { lastStays := ⟨'9', by decide +kernel, rfl⟩
      bounded := by decide +kernel }

/-- The boundary after the term is a stripped character, so the normalized text
has none. -/
theorem splitUnits_hidden :
    scanNormalized "RSU\u200bx".toList = some .compensation ∧
      scanForDisclosure some "RSU\u200bx" = none := by
  decide +kernel

end Registrar
