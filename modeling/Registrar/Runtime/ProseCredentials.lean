import Registrar.Runtime.LineScan

/-!
# Prose credentials

A line reports a real credential where the rule for passwords in prose reads one
before a placeholder has taken its keyword, or another rule spans its value.
-/

namespace Registrar

namespace SecretScanner

/-- A credential with its words up to the opening quote, in a line. -/
structure Credential where
  before : List CodeUnit
  lead : List CodeUnit
  value : List CodeUnit
  closing : CodeUnit
  after : List CodeUnit
  deriving DecidableEq, Repr

namespace Credential

def ahead (credential : Credential) : List CodeUnit :=
  credential.lead ++
    (credential.value ++ credential.closing :: credential.after)

def line (credential : Credential) : List CodeUnit :=
  credential.before ++ credential.ahead

def start (credential : Credential) : Regex.Position CodeUnit :=
  ⟨credential.before.reverse, credential.ahead⟩

def text (credential : Credential) : List CodeUnit :=
  credential.lead ++ credential.value ++ [credential.closing]

def final (credential : Credential) : Regex.Position CodeUnit :=
  ⟨credential.text.reverse ++ credential.before.reverse, credential.after⟩

/-- The offset of the value. -/
def offset (credential : Credential) : Nat :=
  credential.before.length + credential.lead.length

def found (credential : Credential) : UnitMatch :=
  { index := credential.before.length
    text := credential.text
    groups := [credential.value] }

/-- The rule's expression matches the credential. -/
def IsProse (credential : Credential) : Prop :=
  ([credential.value], credential.final) ∈
    Regex.captures UnitClass.accepts isWordUnit proseRegex credential.start

/-- The credential is the match that the rule prefers where it starts. -/
def IsPreferred (credential : Credential) : Prop :=
  proseRegex.matchAt credential.start = some credential.found

end Credential

/-- A line holds the credential, and its value is real. -/
structure HoldsReal (line : List CodeUnit) (credential : Credential) :
    Prop where
  isLine : credential.line = line
  isProse : credential.IsProse
  real : isRealValue credential.value = true

/-- The report spans the value. -/
structure SecretMatch.Covers (report : SecretMatch)
    (credential : Credential) : Prop where
  line : report.line = 1
  start : report.column ≤ credential.offset + 1
  finish : credential.offset + 1 + credential.value.length ≤
    report.column + report.matchLength

/-- Some real value of the line is reported. -/
def RealReported (line : List CodeUnit) : Prop :=
  ∃ credential, HoldsReal line credential ∧
    ∃ report ∈ scanForSecrets line secretPatterns, report.Covers credential

/-- No placeholder takes the unit at this offset: none is read that starts
before it, reaches it and is not itself taken so. -/
def IsFree (line : List CodeUnit) (offset : Nat) : Prop :=
  Leftmost.Open (attempt prosePassword anySource) line offset

/-- The rule reads a real credential. -/
def ReadsReal (line : List CodeUnit) : Prop :=
  ∃ credential, HoldsReal line credential ∧ credential.IsPreferred ∧
    IsFree line credential.before.length

/-- The match of another rule spans a real value. -/
def OtherRuleSpans (line : List CodeUnit) : Prop :=
  ∃ credential, HoldsReal line credential ∧
    ∃ pattern ∈ secretPatterns, pattern.id ≠ prosePassword.id ∧
      ∃ found, lineMatch pattern line = some found ∧
        (lineReport pattern found).Covers credential

theorem exists_credential {start final : Regex.Position CodeUnit}
    {groups : List (List CodeUnit)}
    (member : (groups, final) ∈ Regex.captures UnitClass.accepts isWordUnit
      proseRegex start) :
    ∃ lead quote value closing,
      groups = [value] ∧
        start.after = (lead ++ [quote]) ++
          (value ++ closing :: final.after) ∧
        final.before = ((lead ++ [quote]) ++ value ++ [closing]).reverse ++
          start.before ∧
        UnitClass.hasUnit openingQuotes quote = true ∧
        UnitClass.hasUnit closingQuotes closing = true := by
  obtain ⟨first, middle, second, inLead, inBack, rfl⟩ :=
    Regex.mem_captures_append.mp member
  obtain ⟨lead, isLead, leadBefore⟩ := Regex.exists_span_of_mem_captures inLead
  have noGroup : ∀ part ∈ proseLead, ¬Regex.Part.IsGroup part := by
    simp [proseLead, Regex.Part.IsGroup]
  obtain rfl := Regex.groups_eq_nil noGroup inLead
  obtain ⟨opened, isOpened, others, inValue, rfl⟩ :=
    Regex.mem_captures_cons.mp inBack
  obtain ⟨valued, isValued, last, inClosing, rfl⟩ :=
    Regex.mem_captures_cons.mp inValue
  obtain ⟨closed, isClosed, none, atEnd, rfl⟩ :=
    Regex.mem_captures_cons.mp inClosing
  obtain ⟨rfl, rfl⟩ := Regex.mem_captures_nil.mp atEnd
  obtain ⟨openSpan, openAfter, openBefore, opens, openOne, openMost⟩ :=
    Regex.mem_runEnds_iff.mp isOpened
  obtain ⟨value, valueAfter, valueBefore, -⟩ :=
    Regex.mem_runEnds_iff.mp isValued
  obtain ⟨closeSpan, closeAfter, closeBefore, closes, closeOne, closeMost⟩ :=
    Regex.mem_runEnds_iff.mp isClosed
  obtain ⟨quote, rfl⟩ : ∃ quote, openSpan = [quote] :=
    List.length_eq_one_iff.mp (Nat.le_antisymm (openMost 1 rfl) openOne)
  obtain ⟨closing, rfl⟩ : ∃ closing, closeSpan = [closing] :=
    List.length_eq_one_iff.mp (Nat.le_antisymm (closeMost 1 rfl) closeOne)
  refine ⟨lead, quote, value, closing, ?_, ?_, ?_,
    opens quote List.mem_cons_self, closes closing List.mem_cons_self⟩
  · simp [Regex.Part.texts, Regex.Position.upTo_eq valueAfter]
  · simp [isLead, openAfter, valueAfter, closeAfter]
  · simp [closeBefore, valueBefore, openBefore, leadBefore]

theorem Credential.start_eq {line : List CodeUnit} {credential : Credential}
    (isLine : credential.line = line) :
    Leftmost.positionAt line credential.before.length = credential.start := by
  rw [← isLine]
  simp [Leftmost.positionAt, Credential.line, Credential.start]

/-- What the rule prefers at a position is a credential there. -/
theorem exists_preferred {line : List CodeUnit} {offset : Nat}
    (within : offset ≤ line.length) {found : UnitMatch}
    (isFound : proseRegex.matchAt (Leftmost.positionAt line offset) =
      some found) :
    ∃ credential : Credential, credential.line = line ∧
      credential.before.length = offset ∧ credential.IsProse ∧
        credential.IsPreferred ∧ found = credential.found := by
  obtain ⟨groups, final, isHead, rfl⟩ := Regex.matchAt_eq_some_iff.mp isFound
  have member := List.mem_of_mem_head? isHead
  obtain ⟨lead, quote, value, closing, rfl, isAfter, isBefore, -⟩ :=
    exists_credential member
  let credential : Credential :=
    { before := line.take offset
      lead := lead ++ [quote]
      value := value
      closing := closing
      after := final.after }
  have isAhead : line.drop offset = credential.ahead := isAfter
  have isLine : credential.line = line := by
    rw [Credential.line, ← isAhead]
    exact List.take_append_drop offset line
  have isOffset : credential.before.length = offset := by
    simp [credential, within]
  have isStart : Leftmost.positionAt line offset = credential.start := by
    rw [← isOffset]
    exact Credential.start_eq isLine
  have isFinal : final = credential.final :=
    Regex.Position.ext isBefore rfl
  have isText : (Leftmost.positionAt line offset).upTo final =
      credential.text := by
    apply Regex.Position.upTo_eq
    rw [isStart]
    simp [Credential.start, Credential.ahead, Credential.text, credential]
  have same : ({ index := (Leftmost.positionAt line offset).before.length
                 text := (Leftmost.positionAt line offset).upTo final
                 groups := [value] } : UnitMatch) = credential.found := by
    rw [isText, isStart]
    simp [Credential.found, Credential.start, credential]
  refine ⟨credential, isLine, isOffset, ?_, ?_, same⟩
  · rw [isStart, isFinal] at member
    exact member
  · rw [Credential.IsPreferred, ← isStart, ← same]
    exact isFound

theorem Credential.IsProse.quoted {credential : Credential}
    (isProse : credential.IsProse) :
    (∃ lead quote, credential.lead = lead ++ [quote] ∧
      UnitClass.hasUnit openingQuotes quote = true) ∧
    UnitClass.hasUnit closingQuotes credential.closing = true := by
  obtain ⟨lead, quote, value, closing, sameValue, isAhead, -, opens, closes⟩ :=
    exists_credential isProse
  obtain rfl : credential.value = value := List.singleton_inj.mp sameValue
  have lengths : credential.lead.length = (lead ++ [quote]).length := by
    have total := congrArg List.length isAhead
    simp [start, ahead, final] at total ⊢
    omega
  obtain ⟨isLead, rest⟩ := List.append_inj isAhead lengths
  obtain ⟨-, last⟩ := List.append_inj rest rfl
  have isClosing : credential.closing = closing := (List.cons_eq_cons.mp last).1
  exact ⟨⟨lead, quote, isLead, opens⟩, isClosing ▸ closes⟩

theorem IsEncodedPart.hasUnit {line raw : List CodeUnit} {index : Nat}
    (part : IsEncodedPart line index raw) {place : Nat} (least : index ≤ place)
    (before : place < index + raw.length) {unit : CodeUnit}
    (stands : (line)[place]? = some unit) :
    UnitClass.hasUnit encodedChars unit = true := by
  obtain ⟨front, back, rfl, rfl⟩ := part.placed
  rw [List.append_assoc, List.getElem?_append_right least,
    List.getElem?_append_left (by omega)] at stands
  exact part.encoded unit (List.mem_of_getElem? stands)

theorem hasUnit_quote_eq_false {unit : CodeUnit}
    (quote : UnitClass.hasUnit openingQuotes unit = true ∨
      UnitClass.hasUnit closingQuotes unit = true) :
    UnitClass.hasUnit encodedChars unit = false := by
  simp [UnitClass.hasUnit, openingQuotes, closingQuotes, encodedChars,
    base64Chars, CharClass.ofText, CharClass.alphanumeric] at quote ⊢
  omega

/-- An encoded part ends before a quote, so that no report of it spans a
value. -/
theorem not_covers_of_liesInPart {line : List CodeUnit}
    {credential : Credential} (holds : HoldsReal line credential)
    {report : SecretMatch} (inPart : LiesInPart line report) :
    ¬report.Covers credential := by
  intro covers
  obtain ⟨index, raw, part, isColumn, shorter⟩ := inPart
  obtain ⟨⟨lead, quote, isLead, opens⟩, closes⟩ := holds.isProse.quoted
  have starts := covers.start
  have finishes := covers.finish
  have isOffset : credential.offset =
      credential.before.length + lead.length + 1 := by
    simp [Credential.offset, isLead]
    omega
  have isLine : line = (credential.before ++ lead) ++ quote ::
      (credential.value ++ credential.closing :: credential.after) := by
    rw [← holds.isLine]
    simp [Credential.line, Credential.ahead, isLead]
  have atQuote : (line)[credential.offset - 1]? = some quote := by
    rw [isLine, isOffset, List.getElem?_append_right (by simp)]
    simp
  have atClosing : (line)[credential.offset + credential.value.length]? =
      some credential.closing := by
    rw [isLine, isOffset, List.getElem?_append_right (by simp; omega)]
    have place : credential.before.length + lead.length + 1 +
        credential.value.length - (credential.before ++ lead).length =
          credential.value.length + 1 := by
      rw [List.length_append]
      omega
    rw [place]
    simp
  rcases Nat.lt_or_ge index credential.offset with less | least
  · have inside := part.hasUnit (by omega) (by omega) atQuote
    rw [hasUnit_quote_eq_false (.inl opens)] at inside
    cases inside
  · have inside := part.hasUnit (by omega) (by omega) atClosing
    rw [hasUnit_quote_eq_false (.inr closes)] at inside
    cases inside

theorem eq_prosePassword {pattern : SecretPattern}
    (member : pattern ∈ secretPatterns)
    (isId : pattern.id = prosePassword.id) : pattern = prosePassword := by
  simp only [secretPatterns, List.mem_cons, List.not_mem_nil,
    or_false] at member
  rcases member with rfl | rfl | rfl | rfl | rfl | rfl | rfl | rfl | rfl |
    rfl | rfl | rfl | rfl | rfl | rfl | rfl | rfl
  all_goals first
    | rfl
    | exact absurd isId (by decide)

theorem lineMatch_prosePassword (line : List CodeUnit) :
    lineMatch prosePassword line =
      Leftmost.search (attempt prosePassword anySource) line := by
  unfold lineMatch execWithContext
  have plain : prosePassword.requiresSourceContext = false := rfl
  have ungated : prosePassword.requiresContext = none := rfl
  rw [plain, ungated]
  simp only [Bool.false_eq_true, if_false, Option.getD_none, firstCountedMatch]
  cases Leftmost.search (attempt prosePassword anySource) line <;> rfl

theorem attempt_prosePassword_eq_inl_iff
    {position : Regex.Position CodeUnit} {found : UnitMatch} :
    attempt prosePassword anySource position = .inl found ↔
      proseRegex.matchAt position = some found ∧
        isRealValue (found.groups[0]?.getD []) = true := by
  rw [attempt_eq_inl_iff]
  simp [prosePassword, anySource]

theorem attempt_prosePassword_eq_inr_iff
    {position : Regex.Position CodeUnit} {passed : Nat} :
    attempt prosePassword anySource position = .inr passed ↔
      (proseRegex.matchAt position = none ∧ passed = 0) ∨
        ∃ found, proseRegex.matchAt position = some found ∧
          isRealValue (found.groups[0]?.getD []) = false ∧
            passed = found.text.length - 1 := by
  have isRegex : prosePassword.regex = proseRegex := rfl
  unfold attempt
  rw [isRegex]
  have accepts (found : UnitMatch) :
      (prosePassword.accept.all fun accept => accept found.groups) =
        isRealValue (found.groups[0]?.getD []) := by
    simp [prosePassword]
  cases tried : proseRegex.matchAt position with
  | none =>
      constructor
      · rintro ⟨⟩
        exact .inl ⟨rfl, rfl⟩
      · rintro (⟨-, rfl⟩ | ⟨found, isFound, -⟩)
        · rfl
        · cases isFound
  | some found =>
      dsimp only
      rw [accepts, anySource, Bool.not_true, if_neg Bool.false_ne_true]
      cases real : isRealValue (found.groups[0]?.getD []) with
      | true =>
          rw [if_pos rfl]
          constructor
          · intro same
            cases same
          · rintro (⟨none, -⟩ | ⟨other, isOther, placeholder, -⟩)
            · cases none
            · cases isOther
              rw [real] at placeholder
              cases placeholder
      | false =>
          rw [if_neg Bool.false_ne_true]
          constructor
          · rintro ⟨⟩
            exact .inr ⟨found, rfl, real, rfl⟩
          · rintro (⟨none, -⟩ | ⟨other, isOther, -, rfl⟩)
            · cases none
            · cases isOther
              rfl

/-- An offset is free where every placeholder that is read from a free offset
before it ends before it. -/
theorem isFree_iff {line : List CodeUnit} {offset : Nat}
    (within : offset ≤ line.length) :
    IsFree line offset ↔
      ∀ credential : Credential, credential.line = line →
        credential.IsPreferred → isRealValue credential.value = false →
          credential.before.length < offset →
            IsFree line credential.before.length →
              credential.before.length + credential.text.length ≤ offset := by
  unfold IsFree
  rw [Leftmost.open_iff]
  constructor
  · intro passes credential isLine preferred placeholder earlier isOpen
    have reaches := passes credential.before.length earlier isOpen
      (credential.text.length - 1) (by
        rw [Credential.start_eq isLine, attempt_prosePassword_eq_inr_iff]
        refine .inr ⟨credential.found, preferred, ?_, rfl⟩
        simpa [Credential.found] using placeholder)
    omega
  · intro ends earlier before isOpen passed tried
    rcases attempt_prosePassword_eq_inr_iff.mp tried with
      ⟨-, rfl⟩ | ⟨found, isFound, placeholder, rfl⟩
    · exact before
    · obtain ⟨credential, isLine, rfl, -, preferred, rfl⟩ :=
        exists_preferred (by omega) isFound
      have reaches := ends credential isLine preferred
        (by simpa [Credential.found] using placeholder) before isOpen
      have nonempty : 0 < credential.text.length := by
        rw [Credential.text, List.length_append, List.length_singleton]
        omega
      have isText : credential.found.text = credential.text := rfl
      rw [isText]
      omega

theorem exists_real_of_lineMatch {line : List CodeUnit} {found : UnitMatch}
    (isFound : lineMatch prosePassword line = some found) :
    ∃ credential, HoldsReal line credential ∧ credential.IsPreferred ∧
      IsFree line credential.before.length ∧ found = credential.found := by
  rw [lineMatch_prosePassword] at isFound
  obtain ⟨offset, ends⟩ := Leftmost.search_eq_some_iff.mp isFound
  obtain ⟨isMatch, real⟩ := attempt_prosePassword_eq_inl_iff.mp ends.finds
  obtain ⟨credential, isLine, isOffset, isProse, preferred, rfl⟩ :=
    exists_preferred ends.within isMatch
  refine ⟨credential, ⟨isLine, isProse, ?_⟩, preferred, ?_, rfl⟩
  · simpa [Credential.found] using real
  · rw [isOffset]
    exact ends.isOpen

theorem isSome_lineMatch_of_readsReal {line : List CodeUnit}
    (reads : ReadsReal line) :
    (lineMatch prosePassword line).isSome = true := by
  obtain ⟨credential, holds, preferred, free⟩ := reads
  rw [lineMatch_prosePassword]
  refine Leftmost.isSome_search_iff.mpr
    ⟨credential.before.length, ?_, free, credential.found, ?_⟩
  · rw [← holds.isLine, Credential.line, List.length_append]
    omega
  · rw [Credential.start_eq holds.isLine]
    refine attempt_prosePassword_eq_inl_iff.mpr ⟨preferred, ?_⟩
    simpa [Credential.found] using holds.real

theorem lineReport_covers (pattern : SecretPattern) (credential : Credential) :
    (lineReport pattern credential.found).Covers credential := by
  constructor
  · rfl
  · simp [lineReport, Credential.found, Credential.offset]
  · simp [lineReport, Credential.found, Credential.offset, Credential.text]
    omega

/-- A line reports a real value exactly where the rule reads a real credential
or another rule spans one. -/
theorem realReported_iff {line : List CodeUnit} (oneLine : IsOneLine line) :
    RealReported line ↔ ReadsReal line ∨ OtherRuleSpans line := by
  constructor
  · rintro ⟨credential, holds, report, member, covers⟩
    rcases (mem_scanForSecrets_iff oneLine).mp member with
      ⟨pattern, isPattern, found, isFound, rfl⟩ | wrapped
    · by_cases isId : pattern.id = prosePassword.id
      · left
        obtain rfl := eq_prosePassword isPattern isId
        obtain ⟨read, isRead, preferred, free, -⟩ :=
          exists_real_of_lineMatch isFound
        exact ⟨read, isRead, preferred, free⟩
      · right
        exact ⟨credential, holds, pattern, isPattern, isId, found, isFound,
          covers⟩
    · have inPart := scanEncodedWrapped_inPart oneLine wrapped
      exact absurd covers (not_covers_of_liesInPart holds inPart)
  · rintro (reads | ⟨credential, holds, pattern, isPattern, -, found, isFound,
      covers⟩)
    · obtain ⟨found, isFound⟩ := Option.isSome_iff_exists.mp
        (isSome_lineMatch_of_readsReal reads)
      obtain ⟨credential, holds, -, -, rfl⟩ := exists_real_of_lineMatch isFound
      refine ⟨credential, holds, lineReport prosePassword credential.found, ?_,
        lineReport_covers prosePassword credential⟩
      refine (mem_scanForSecrets_iff oneLine).mpr (.inl ?_)
      exact ⟨prosePassword, by simp [secretPatterns], _, isFound, rfl⟩
    · refine ⟨credential, holds, lineReport pattern found, ?_, covers⟩
      exact (mem_scanForSecrets_iff oneLine).mpr
        (.inl ⟨pattern, isPattern, found, isFound, rfl⟩)

/-- Two passwords of one line, of which the first one is a placeholder. -/
theorem realReported_iff_secondPassword :
    ReadsReal (CodeUnit.units
        "password is `changeme`, password is `hunter22`") ∨
      OtherRuleSpans (CodeUnit.units
        "password is `changeme`, password is `hunter22`") := by
  refine (realReported_iff ?_).mp
    ⟨{ before := CodeUnit.units "password is `changeme`, "
       lead := CodeUnit.units "password is `"
       value := CodeUnit.units "hunter22"
       closing := CodeUnit.ofChar (Char.ofNat 96)
       after := [] },
      ⟨by decide +kernel, by unfold Credential.IsProse; decide +kernel,
        by decide +kernel⟩,
      lineReport prosePassword
        { index := 24
          text := CodeUnit.units "password is `hunter22`"
          groups := [] },
      by decide +kernel, by decide +kernel, by decide +kernel,
      by decide +kernel⟩
  intro unit member
  have whole : (CodeUnit.units
      "password is `changeme`, password is `hunter22`").all
        (fun unit => !isLineSeparator unit) = true := by
    decide +kernel
  simpa using List.all_eq_true.mp whole unit member

/-- A placeholder between the keyword and the password in force. -/
def rotatedPassword : List CodeUnit :=
  CodeUnit.units "The password was `changeme` but now is `hunter22`"

/-- Its credential runs from the keyword to the password in force. -/
def passwordInForce : Credential :=
  { before := CodeUnit.units "The "
    lead := CodeUnit.units "password was `changeme` but now is `"
    value := CodeUnit.units "hunter22"
    closing := CodeUnit.ofChar (Char.ofNat 96)
    after := [] }

theorem rotatedPassword_hidden :
    HoldsReal rotatedPassword passwordInForce ∧
      ¬RealReported rotatedPassword := by
  constructor
  · exact ⟨by decide +kernel, by unfold Credential.IsProse; decide +kernel,
      by decide +kernel⟩
  · rintro ⟨credential, -, report, member, -⟩
    have silent : scanForSecrets rotatedPassword secretPatterns = [] := by
      decide +kernel
    rw [silent] at member
    cases member

end SecretScanner

end Registrar
