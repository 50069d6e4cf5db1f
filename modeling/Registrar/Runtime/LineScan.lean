import Registrar.Runtime.SecretScanner

/-!
# Scans of one line

What the scanner reports in a text of one line: the match of each pattern, and
matches in what encoded parts of the line spell, which are shorter than these
parts.
-/

namespace Registrar

namespace SecretScanner

def IsOneLine (text : List CodeUnit) : Prop :=
  ∀ unit ∈ text, isLineSeparator unit = false

/-- The match of a pattern in the line. -/
def lineMatch (pattern : SecretPattern) (line : List CodeUnit) :
    Option UnitMatch :=
  execWithContext pattern line line
    (if pattern.requiresSourceContext then
      some fun found =>
        (SourceContext.ofContent line).allows pattern found.index
          (found.index + found.text.length)
    else none)

def lineReport (pattern : SecretPattern) (found : UnitMatch) : SecretMatch :=
  { patternId := pattern.id
    patternName := pattern.name
    line := 1
    column := found.index + 1
    matchLength := found.text.length }

theorem linesFrom_of_isOneLine {start offset : Nat} {text : List CodeUnit}
    (oneLine : IsOneLine text) :
    linesFrom start offset text =
      [{ start := start, finish := offset + text.length }] := by
  fun_induction linesFrom start offset text with
  | case1 start offset => simp
  | case2 start offset unit breaks =>
      have whole := oneLine unit List.mem_cons_self
      rw [breaks] at whole
      cases whole
  | case3 start offset unit whole => simp
  | case4 start offset first second rest both induction =>
      have whole := oneLine first List.mem_cons_self
      rw [both.1] at whole
      exact absurd whole (by decide)
  | case5 start offset first second rest apart breaks induction =>
      have whole := oneLine first List.mem_cons_self
      rw [breaks] at whole
      cases whole
  | case6 start offset first second rest apart whole induction =>
      rw [induction fun unit member =>
        oneLine unit (List.mem_cons_of_mem first member)]
      simp only [List.length_cons]
      congr 2
      omega

theorem locate_of_isOneLine {line : List CodeUnit} (oneLine : IsOneLine line)
    (offset : Nat) :
    (SourceContext.ofContent line).locate offset =
      { line := 1
        column := offset + 1 } := by
  have lines : (SourceContext.ofContent line).lines =
      [{ start := 0, finish := 0 + line.length }] :=
    linesFrom_of_isOneLine oneLine
  have first : (SourceContext.ofContent line).lineAt offset = 0 := by
    simp [SourceContext.lineAt, lines]
  simp [SourceContext.locate, first, SourceContext.startOf, lines]

theorem lineFeed_notMem {line : List CodeUnit} (oneLine : IsOneLine line) :
    lineFeed ∉ line := by
  intro member
  have whole := oneLine lineFeed member
  exact absurd whole (by decide)

theorem splitOn_of_isOneLine {line : List CodeUnit}
    (oneLine : IsOneLine line) : line.splitOn lineFeed = [line] := by
  exact List.splitOn_eq_singleton (lineFeed_notMem oneLine)

theorem mem_scanLine_iff {patterns : List SecretPattern}
    {line : List CodeUnit} {report : SecretMatch} (oneLine : IsOneLine line) :
    report ∈ scanLine patterns (SourceContext.ofContent line) 0 0 line ↔
      ∃ pattern ∈ patterns, ∃ found, lineMatch pattern line = some found ∧
        report = lineReport pattern found := by
  unfold scanLine
  rw [List.mem_flatMap]
  refine exists_congr fun pattern => and_congr_right fun _ => ?_
  have located (found : UnitMatch) :
      lineLocation (SourceContext.ofContent line) 0 0 found pattern =
        { line := 1
          column := found.index + 1 } := by
    unfold lineLocation
    rw [locate_of_isOneLine oneLine]
    simp
  have same : (if pattern.requiresSourceContext then
      some fun (_ : SecretPattern) (found : UnitMatch) =>
        (SourceContext.ofContent line).allows pattern (0 + found.index)
          (0 + found.index + found.text.length)
      else none).map (fun accept => accept pattern) =
        if pattern.requiresSourceContext then
          some fun (found : UnitMatch) =>
            (SourceContext.ofContent line).allows pattern found.index
              (found.index + found.text.length)
        else none := by
    cases pattern.requiresSourceContext with
    | false => rfl
    | true => simp
  unfold scanFlat
  rw [List.mem_filterMap]
  constructor
  · rintro ⟨only, member, mapped⟩
    obtain rfl := List.mem_singleton.mp member
    rw [same] at mapped
    obtain ⟨found, isFound, rfl⟩ := Option.map_eq_some_iff.mp mapped
    refine ⟨found, isFound, ?_⟩
    rw [located]
    rfl
  · rintro ⟨found, isFound, rfl⟩
    refine ⟨pattern, List.mem_singleton.mpr rfl, ?_⟩
    rw [same, Option.map_eq_some_iff]
    refine ⟨found, isFound, ?_⟩
    rw [located]
    rfl

theorem length_matchAt_le {expression : UnitExpression}
    {position : Regex.Position CodeUnit} {found : UnitMatch}
    (isFound : expression.matchAt position = some found) :
    found.text.length ≤ position.after.length := by
  obtain ⟨groups, final, -, rfl⟩ := Regex.matchAt_eq_some_iff.mp isFound
  simp [Regex.Position.upTo]

theorem attempt_eq_inl_iff {pattern : SecretPattern}
    {acceptSource : UnitMatch → Bool} {position : Regex.Position CodeUnit}
    {found : UnitMatch} :
    attempt pattern acceptSource position = .inl found ↔
      pattern.regex.matchAt position = some found ∧
        acceptSource found = true ∧
          (pattern.accept.all fun accept => accept found.groups) = true := by
  unfold attempt
  cases tried : pattern.regex.matchAt position with
  | none => simp
  | some other =>
      simp only [Option.some.injEq]
      split_ifs with refused accepted
      · constructor
        · intro same
          cases same
        · rintro ⟨rfl, source, -⟩
          simp [source] at refused
      · constructor
        · rintro ⟨⟩
          exact ⟨rfl, by simpa using refused, accepted⟩
        · rintro ⟨rfl, -⟩
          rfl
      · constructor
        · intro same
          cases same
        · rintro ⟨rfl, -, counted⟩
          exact absurd counted accepted

theorem length_firstCountedMatch_le {pattern : SecretPattern}
    {text : List CodeUnit} {acceptSource : UnitMatch → Bool}
    {found : UnitMatch}
    (isFound : firstCountedMatch pattern text acceptSource = some found) :
    found.text.length ≤ text.length := by
  obtain ⟨offset, ends⟩ := Leftmost.search_eq_some_iff.mp isFound
  have within := length_matchAt_le (attempt_eq_inl_iff.mp ends.finds).1
  rw [Leftmost.positionAt, List.length_drop] at within
  omega

theorem firstCountedMatch_of_execWithContext {pattern : SecretPattern}
    {text contextText : List CodeUnit}
    {acceptSource : Option (UnitMatch → Bool)} {found : UnitMatch}
    (isFound : execWithContext pattern text contextText acceptSource =
      some found) :
    firstCountedMatch pattern text (acceptSource.getD anySource) =
      some found := by
  unfold execWithContext at isFound
  cases counted : firstCountedMatch pattern text
      (acceptSource.getD anySource) with
  | none =>
      rw [counted] at isFound
      cases isFound
  | some other =>
      rw [counted] at isFound
      cases gated : pattern.requiresContext with
      | none =>
          rw [gated] at isFound
          exact isFound
      | some gate =>
          rw [gated] at isFound
          dsimp only at isFound
          split_ifs at isFound
          · exact isFound
          · exact isFound

theorem length_decode_lt {encoding : Encoding} {raw text : List CodeUnit}
    (decoded : encoding.decode raw = some text) (nonempty : raw ≠ []) :
    text.length < raw.length := by
  have positive := List.length_pos_iff.mpr nonempty
  have printed {bytes : List Nat} (isText : printableText bytes = some text) :
      text.length ≤ bytes.length := by
    unfold printableText at isText
    dsimp only at isText
    split_ifs at isText
    cases isText
    exact ByteTexts.length_utf8Text_le bytes
  cases encoding with
  | base64 =>
      unfold Encoding.decode decodeBase64 at decoded
      dsimp only at decoded
      split_ifs at decoded with odd
      have short := printed decoded
      have bytes := ByteTexts.length_base64Bytes
        ((raw.map standardUnit).rdropWhile (· = CodeUnit.ofChar '='))
      have kept := (List.rdropWhile_prefix
        (fun unit => decide (unit = CodeUnit.ofChar '='))
        (raw.map standardUnit)).length_le
      rw [List.length_map] at kept
      omega
  | hex =>
      unfold Encoding.decode decodeHex at decoded
      dsimp only at decoded
      split_ifs at decoded with odd
      have short := printed decoded
      have bytes := ByteTexts.length_hexBytes raw
      omega

def encodedChars : CharClass := base64Chars ++ .ofText "_-="

theorem hasUnit_of_within {outer inner : CharClass}
    (within : CharClass.Within outer inner) {unit : CodeUnit}
    (has : UnitClass.hasUnit inner unit = true) :
    UnitClass.hasUnit outer unit = true := by
  obtain ⟨range, member, inRange⟩ := List.any_eq_true.mp has
  obtain ⟨other, isOuter, lower, upper⟩ := within range member
  simp only [Bool.and_eq_true, decide_eq_true_eq] at inRange
  exact List.any_eq_true.mpr ⟨other, isOuter, by simp; omega⟩

theorem candidate_ofPattern (encoding : Encoding) :
    ∃ pattern : UnitPattern, encoding.candidate = .ofPattern pattern ∧
      pattern.All fun symbols => ∀ unit, symbols.accepts unit = true →
        UnitClass.hasUnit encodedChars unit = true := by
  cases encoding with
  | base64 =>
      exact ⟨_, rfl, fun _ => hasUnit_of_within (by decide),
        fun _ => hasUnit_of_within (by decide)⟩
  | hex => exact ⟨_, rfl, fun _ => hasUnit_of_within (by decide)⟩

/-- The candidate is this part of the text. -/
structure IsEncodedPart (content : List CodeUnit) (index : Nat)
    (raw : List CodeUnit) : Prop where
  encoded : ∀ unit ∈ raw, UnitClass.hasUnit encodedChars unit = true
  placed : ∃ before after, content = before ++ raw ++ after ∧
    before.length = index

theorem isEncodedPart_of_mem {encoding : Encoding} {content : List CodeUnit}
    {candidate : UnitMatch}
    (member : candidate ∈ encoding.candidate.matchAll content) :
    IsEncodedPart content candidate.index candidate.text := by
  obtain ⟨pattern, isPattern, covered⟩ := candidate_ofPattern encoding
  obtain ⟨offset, length, mapped⟩ := Leftmost.exists_of_mem_all member
  obtain ⟨found, isFound, same⟩ := Option.map_eq_some_iff.mp mapped
  cases same
  rw [isPattern] at isFound
  obtain ⟨groups, final, isHead, rfl⟩ := Regex.matchAt_eq_some_iff.mp isFound
  obtain ⟨middle, reached, others, last, -⟩ :=
    Regex.mem_captures_cons.mp (List.mem_of_mem_head? isHead)
  obtain ⟨-, rfl⟩ := Regex.mem_captures_nil.mp last
  obtain ⟨span, isAfter, -, encoded⟩ :=
    Regex.exists_span_of_mem_ends covered reached
  have isText := Regex.Position.upTo_eq isAfter
  refine ⟨?_, content.take offset, final.after, ?_, ?_⟩
  · dsimp only
    rw [isText]
    exact encoded
  · dsimp only
    rw [isText, List.append_assoc, ← isAfter]
    exact (List.take_append_drop offset content).symm
  · simp [Leftmost.positionAt]

/-- The report is about less than an encoded part. -/
def LiesInPart (content : List CodeUnit) (report : SecretMatch) : Prop :=
  ∃ index raw, IsEncodedPart content index raw ∧ report.column = index + 1 ∧
    report.matchLength < raw.length

structure EncodedScan.Within (content : List CodeUnit)
    (scan : EncodedScan) : Prop where
  shorter : ∀ decoded ∈ scan.cache, decoded.text.length < decoded.raw.length
  inParts : ∀ report ∈ scan.found, LiesInPart content report

theorem decode?_within {content : List CodeUnit} {scan : EncodedScan}
    (within : scan.Within content) {encoding : Encoding}
    {raw : List CodeUnit} (nonempty : raw ≠ []) {decoded : Decoded}
    {cached : Bool}
    (isDecoded : scan.decode? encoding raw = some (decoded, cached)) :
    decoded.raw = raw ∧ decoded.text.length < raw.length := by
  unfold EncodedScan.decode? at isDecoded
  cases known : scan.cache.find? fun decoded => decoded.raw = raw with
  | some entry =>
      rw [known] at isDecoded
      simp only at isDecoded
      split_ifs at isDecoded
      cases isDecoded
      have same : decoded.raw = raw := by simpa using List.find?_some known
      have short := within.shorter decoded (List.mem_of_find?_eq_some known)
      exact ⟨same, same ▸ short⟩
  | none =>
      rw [known] at isDecoded
      obtain ⟨text, isText, rest⟩ := Option.bind_eq_some_iff.mp isDecoded
      split_ifs at rest
      cases rest
      exact ⟨rfl, length_decode_lt isText nonempty⟩

theorem legacyLocation_column {line : List CodeUnit} (oneLine : IsOneLine line)
    {index : Nat} (inside : index ≤ line.length) :
    (legacyLocation line index).column = index + 1 := by
  have noFeed : ∀ unit ∈ line.take index, decide (unit ≠ lineFeed) = true := by
    intro unit member
    have apart := ne_of_mem_of_not_mem (List.mem_of_mem_take member)
      (lineFeed_notMem oneLine)
    simpa using apart
  unfold legacyLocation
  dsimp only
  rw [List.rtakeWhile_eq_self_iff.mpr noFeed, List.length_take,
    Nat.min_eq_left inside]
  omega

theorem wrappedMatches_inPart {line : List CodeUnit} (oneLine : IsOneLine line)
    {patterns : List SecretPattern} {candidate : UnitMatch}
    (part : IsEncodedPart line candidate.index candidate.text)
    {decoded : Decoded} {again : Bool}
    (shorter : decoded.text.length < candidate.text.length)
    {report : SecretMatch}
    (member : report ∈ wrappedMatches line patterns
      (SourceContext.ofContent line) candidate decoded again) :
    LiesInPart line report := by
  obtain ⟨pattern, -, mapped⟩ := List.mem_filterMap.mp member
  obtain ⟨found, isFound, rfl⟩ := Option.map_eq_some_iff.mp mapped
  have within := length_firstCountedMatch_le
    (firstCountedMatch_of_execWithContext isFound)
  refine ⟨candidate.index, candidate.text, part, ?_, by dsimp only; omega⟩
  obtain ⟨before, after, isLine, isIndex⟩ := part.placed
  have inside : candidate.index ≤ line.length := by
    rw [isLine, ← isIndex, List.append_assoc, List.length_append]
    omega
  dsimp only [wrappedLocation]
  split_ifs
  · rw [locate_of_isOneLine oneLine]
  · exact legacyLocation_column oneLine inside

theorem tryDecode_within {line : List CodeUnit} (oneLine : IsOneLine line)
    {patterns : List SecretPattern} {encoding : Encoding} {scan : EncodedScan}
    (within : scan.Within line) {candidate : UnitMatch}
    (part : IsEncodedPart line candidate.index candidate.text) :
    (tryDecode line patterns (SourceContext.ofContent line) encoding scan
      candidate).Within line := by
  unfold tryDecode
  dsimp only
  split_ifs with skipped
  · exact within
  · have nonempty : candidate.text ≠ [] := by
      intro empty
      simp [empty, minEncodedCandidateLen] at skipped
    cases isDecoded : scan.decode? encoding candidate.text with
    | none => exact within
    | some pair =>
        obtain ⟨decoded, cached⟩ := pair
        obtain ⟨isRaw, shorter⟩ := decode?_within within nonempty isDecoded
        constructor
        · intro other member
          dsimp only at member
          split_ifs at member
          · exact within.shorter other member
          · rcases List.mem_append.mp member with old | new
            · exact within.shorter other old
            · rw [List.mem_singleton.mp new, isRaw]
              exact shorter
        · intro report member
          rcases List.mem_append.mp member with old | new
          · exact within.inParts report old
          · exact wrappedMatches_inPart oneLine part shorter new

theorem visitCandidates_within {line : List CodeUnit}
    (oneLine : IsOneLine line) {patterns : List SecretPattern}
    {encoding : Encoding} {scan : EncodedScan} (within : scan.Within line) :
    (visitCandidates line patterns (SourceContext.ofContent line) encoding
      scan).Within line := by
  have visited (candidates : List UnitMatch)
      (parts : ∀ candidate ∈ candidates,
        IsEncodedPart line candidate.index candidate.text) :
      (candidates.foldl (visitCandidate line patterns
        (SourceContext.ofContent line) encoding) scan).Within line := by
    induction candidates generalizing scan with
    | nil => exact within
    | cons candidate rest induction =>
        refine induction ?_ fun other member =>
          parts other (List.mem_cons_of_mem candidate member)
        unfold visitCandidate
        split_ifs
        · exact within
        · exact tryDecode_within oneLine within
            (parts candidate List.mem_cons_self)
  exact visited _ fun _ => isEncodedPart_of_mem

theorem scanEncodedWrapped_inPart {line : List CodeUnit}
    (oneLine : IsOneLine line) {patterns : List SecretPattern}
    {report : SecretMatch}
    (member : report ∈ scanEncodedWrapped line patterns
      (SourceContext.ofContent line)) :
    LiesInPart line report := by
  have initial : EncodedScan.initial.Within line := by
    constructor
    · intro decoded known
      cases known
    · intro other known
      cases known
  exact (visitCandidates_within oneLine
    (visitCandidates_within oneLine initial)).inParts report member

theorem mem_scanForSecrets_iff {patterns : List SecretPattern}
    {line : List CodeUnit} {report : SecretMatch} (oneLine : IsOneLine line) :
    report ∈ scanForSecrets line patterns ↔
      (∃ pattern ∈ patterns, ∃ found, lineMatch pattern line = some found ∧
        report = lineReport pattern found) ∨
      report ∈ scanEncodedWrapped line patterns
        (SourceContext.ofContent line) := by
  have noViews : line.any isLineSeparator = false := by
    simpa [IsOneLine] using oneLine
  unfold scanForSecrets
  simp only [noViews, splitOn_of_isOneLine oneLine, scanLines,
    List.append_nil, Bool.false_eq_true, if_false, List.mem_append,
    mem_scanLine_iff oneLine]

end SecretScanner

end Registrar
