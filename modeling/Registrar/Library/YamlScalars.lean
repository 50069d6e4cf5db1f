import Mathlib.Data.List.Count
import Mathlib.Data.List.Forall2

/-!
# Double-quoted scalars of YAML

A double-quoted scalar is read in two passes: its text is cut into tokens, up
to the closing quotation mark, and the tokens are folded, so that a single line
break becomes a space and the blanks around line breaks go.  A text is its own
value exactly where nothing in it has a meaning of its own.
-/

namespace Yaml

def isBreak (char : Char) : Bool :=
  char = '\n' || char = '\r'

def isWhite (char : Char) : Bool :=
  char = ' ' || char = '\t'

/-- The characters that a quoted scalar may hold. -/
def isJson (char : Char) : Bool :=
  char = '\t' || decide (32 ≤ char.toNat)

/-- The escapes of one character. -/
def escapedChar? (char : Char) : Option Char :=
  if char = '0' then some (Char.ofNat 0)
  else if char = 'a' then some (Char.ofNat 7)
  else if char = 'b' then some (Char.ofNat 8)
  else if char = 't' ∨ char = '\t' then some '\t'
  else if char = 'n' then some '\n'
  else if char = 'v' then some (Char.ofNat 11)
  else if char = 'f' then some (Char.ofNat 12)
  else if char = 'r' then some '\r'
  else if char = 'e' then some (Char.ofNat 27)
  else if char = ' ' ∨ char = '"' ∨ char = '/' ∨ char = '\\' then some char
  else if char = 'N' then some (Char.ofNat 0x85)
  else if char = '_' then some (Char.ofNat 0xa0)
  else if char = 'L' then some (Char.ofNat 0x2028)
  else if char = 'P' then some (Char.ofNat 0x2029)
  else none

def hexDigit? (char : Char) : Option Nat :=
  if char.isDigit then some (char.toNat - 48)
  else if 'a' ≤ char ∧ char ≤ 'f' then some (char.toNat - 87)
  else if 'A' ≤ char ∧ char ≤ 'F' then some (char.toNat - 55)
  else none

/-- The character with this code, in hexadecimal digits. -/
def hexChar? (digits : List Char) : Option Char := do
  let values ← digits.mapM hexDigit?
  let code := values.foldl (16 * · + ·) 0
  if code.isValidChar then some (Char.ofNat code) else none

inductive Token where
  | literal (char : Char)
  | white (char : Char)
  | escaped (char : Char)
  | lineBreak
  /-- A line break that is escaped. -/
  | continuation
  deriving DecidableEq, Repr

/-- The token of a character that is not part of an escape. -/
def tokenOf (char : Char) : Token :=
  if isBreak char then .lineBreak
  else if isWhite char then .white char
  else .literal char

/-- The tokens of a scalar and the text behind its closing quotation mark. -/
def lex : List Char → Option (List Token × List Char)
  | [] => none
  | '"' :: rest => some ([], rest)
  | '\r' :: '\n' :: rest =>
      (lex rest).map fun (tokens, after) => (.lineBreak :: tokens, after)
  | '\\' :: '\r' :: '\n' :: rest =>
      (lex rest).map fun (tokens, after) => (.continuation :: tokens, after)
  | '\\' :: '\r' :: rest =>
      (lex rest).map fun (tokens, after) => (.continuation :: tokens, after)
  | '\\' :: '\n' :: rest =>
      (lex rest).map fun (tokens, after) => (.continuation :: tokens, after)
  | '\\' :: 'x' :: a :: b :: rest =>
      match hexChar? [a, b], lex rest with
      | some char, some (tokens, after) => some (.escaped char :: tokens, after)
      | _, _ => none
  | '\\' :: 'u' :: a :: b :: c :: d :: rest =>
      match hexChar? [a, b, c, d], lex rest with
      | some char, some (tokens, after) => some (.escaped char :: tokens, after)
      | _, _ => none
  | '\\' :: 'U' :: a :: b :: c :: d :: e :: f :: g :: h :: rest =>
      match hexChar? [a, b, c, d, e, f, g, h], lex rest with
      | some char, some (tokens, after) => some (.escaped char :: tokens, after)
      | _, _ => none
  | '\\' :: char :: rest =>
      match escapedChar? char, lex rest with
      | some char, some (tokens, after) => some (.escaped char :: tokens, after)
      | _, _ => none
  | char :: rest =>
      if isBreak char || isJson char then
        (lex rest).map fun (tokens, after) => (tokenOf char :: tokens, after)
      else none

/-- What the folding has passed and not written yet: blanks, line breaks after
the first one, or line breaks after an escaped one. -/
inductive Pending where
  | blanks (chars : List Char)
  | folded (breaks : Nat)
  | continued (breaks : Nat)
  deriving DecidableEq, Repr

namespace Pending

def emit : Pending → List Char
  | blanks chars => chars
  | folded 0 => [' ']
  | folded (breaks + 1) => List.replicate (breaks + 1) '\n'
  | continued breaks => List.replicate breaks '\n'

/-- Blanks at the start of a line are dropped. -/
def white (char : Char) : Pending → Pending
  | blanks chars => blanks (chars ++ [char])
  | pending => pending

/-- Blanks at the end of a line are dropped. -/
def lineBreak : Pending → Pending
  | blanks _ => folded 0
  | folded breaks => folded (breaks + 1)
  | continued breaks => continued (breaks + 1)

end Pending

def fold : Pending → List Token → List Char
  | pending, [] => pending.emit
  | pending, .literal char :: rest =>
      pending.emit ++ char :: fold (.blanks []) rest
  | pending, .escaped char :: rest =>
      pending.emit ++ char :: fold (.blanks []) rest
  | pending, .white char :: rest => fold (pending.white char) rest
  | pending, .lineBreak :: rest => fold pending.lineBreak rest
  | pending, .continuation :: rest => pending.emit ++ fold (.continued 0) rest

/-- The value of a scalar, read from behind its opening quotation mark, and the
text behind its closing one. -/
def readQuoted (chars : List Char) : Option (List Char × List Char) :=
  (lex chars).map fun (tokens, after) => (fold (.blanks []) tokens, after)

def isQuoteToken (token : Token) : Bool :=
  token = .escaped '"'

def isBreakToken (token : Token) : Bool :=
  token = .lineBreak

/-- The tokens are those of a text, each of its characters at its own, or
fewer; its quotation marks are all escaped. -/
structure Lexes (used : List Char) (tokens : List Token) : Prop where
  shorter : tokens.length ≤ used.length
  quotes : used.count '"' ≤ tokens.countP isQuoteToken
  aligned : tokens.length = used.length →
    tokens = used.map tokenOf ∧
      ∀ char ∈ used, char ≠ '"' ∧ char ≠ '\\' ∧
        (isBreak char || isJson char) = true

theorem Lexes.nil : Lexes [] [] where
  shorter := Nat.le_refl _
  quotes := Nat.le_refl _
  aligned _ := ⟨rfl, by simp⟩

/-- A token of several characters. -/
theorem Lexes.longer {escape used : List Char} {token : Token}
    {tokens : List Token} (lexes : Lexes used tokens)
    (long : 2 ≤ escape.length)
    (quotes : escape.count '"' ≤ if isQuoteToken token then 1 else 0) :
    Lexes (escape ++ used) (token :: tokens) := by
  have shorter := lexes.shorter
  constructor
  · simp only [List.length_cons, List.length_append]
    omega
  · have before := lexes.quotes
    rw [List.count_append, List.countP_cons]
    omega
  · intro same
    simp only [List.length_cons, List.length_append] at same
    omega

theorem Lexes.cons {char : Char} {used : List Char} {tokens : List Token}
    (lexes : Lexes used tokens) (notQuote : char ≠ '"')
    (notSlash : char ≠ '\\')
    (allowed : (isBreak char || isJson char) = true) :
    Lexes (char :: used) (tokenOf char :: tokens) where
  shorter := Nat.succ_le_succ lexes.shorter
  quotes := by
    rw [List.count_cons_of_ne notQuote, List.countP_cons]
    exact Nat.le_add_right_of_le lexes.quotes
  aligned same := by
    obtain ⟨isMap, all⟩ := lexes.aligned (Nat.succ.inj same)
    refine ⟨by rw [List.map_cons, ← isMap], ?_⟩
    exact List.forall_mem_cons.mpr ⟨⟨notQuote, notSlash, allowed⟩, all⟩

theorem hexDigit?_quote : hexDigit? '"' = none := by decide

theorem quote_notMem_hex {digits : List Char} {char : Char}
    (found : hexChar? digits = some char) : '"' ∉ digits := by
  intro member
  obtain ⟨values, isValues, -⟩ := Option.bind_eq_some_iff.mp found
  obtain ⟨value, isValue⟩ : ∃ value, hexDigit? '"' = some value := by
    clear found
    induction digits generalizing values with
    | nil => cases member
    | cons digit rest induction =>
        rw [List.mapM_cons] at isValues
        obtain ⟨first, isFirst, isRest⟩ := Option.bind_eq_some_iff.mp isValues
        obtain ⟨later, isLater, -⟩ := Option.bind_eq_some_iff.mp isRest
        rcases List.mem_cons.mp member with rfl | inRest
        · exact ⟨first, isFirst⟩
        · exact induction inRest later isLater
  rw [hexDigit?_quote] at isValue
  cases isValue

theorem Lexes.hex {letter char : Char} {digits used : List Char}
    {tokens : List Token} (lexes : Lexes used tokens)
    (found : hexChar? digits = some char) (isLetter : letter ≠ '"') :
    Lexes ('\\' :: letter :: digits ++ used) (.escaped char :: tokens) := by
  refine lexes.longer (by simp) ?_
  rw [List.count_cons_of_ne (by decide), List.count_cons_of_ne isLetter,
    List.count_eq_zero_of_not_mem (quote_notMem_hex found)]
  exact Nat.zero_le _

theorem escapedChar?_quote : escapedChar? '"' = some '"' := by decide

/-- What the lexer leaves is behind a closing quotation mark. -/
theorem exists_used {chars after : List Char} {tokens : List Token}
    (found : lex chars = some (tokens, after)) :
    ∃ used, chars = used ++ '"' :: after ∧ Lexes used tokens := by
  fun_induction lex chars generalizing tokens after with
  | case1 => cases found
  | case2 rest =>
      cases found
      exact ⟨[], rfl, .nil⟩
  | case3 rest induction =>
      obtain ⟨⟨more, behind⟩, isMore, same⟩ := Option.map_eq_some_iff.mp found
      cases same
      obtain ⟨used, rfl, lexes⟩ := induction isMore
      exact ⟨['\r', '\n'] ++ used, rfl, lexes.longer (by simp) (by decide)⟩
  | case4 rest induction =>
      obtain ⟨⟨more, behind⟩, isMore, same⟩ := Option.map_eq_some_iff.mp found
      cases same
      obtain ⟨used, rfl, lexes⟩ := induction isMore
      exact ⟨['\\', '\r', '\n'] ++ used, rfl,
        lexes.longer (by simp) (by decide)⟩
  | case5 rest notFeed induction =>
      obtain ⟨⟨more, behind⟩, isMore, same⟩ := Option.map_eq_some_iff.mp found
      cases same
      obtain ⟨used, rfl, lexes⟩ := induction isMore
      exact ⟨['\\', '\r'] ++ used, rfl, lexes.longer (by simp) (by decide)⟩
  | case6 rest induction =>
      obtain ⟨⟨more, behind⟩, isMore, same⟩ := Option.map_eq_some_iff.mp found
      cases same
      obtain ⟨used, rfl, lexes⟩ := induction isMore
      exact ⟨['\\', '\n'] ++ used, rfl, lexes.longer (by simp) (by decide)⟩
  | case7 a b rest char more behind isMore isChar induction =>
      cases found
      obtain ⟨used, rfl, lexes⟩ := induction isMore
      exact ⟨_, rfl, lexes.hex isChar (by decide)⟩
  | case8 => cases found
  | case9 a b c d rest char more behind isMore isChar induction =>
      cases found
      obtain ⟨used, rfl, lexes⟩ := induction isMore
      exact ⟨_, rfl, lexes.hex isChar (by decide)⟩
  | case10 => cases found
  | case11 a b c d e f g h rest char more behind isMore isChar induction =>
      cases found
      obtain ⟨used, rfl, lexes⟩ := induction isMore
      exact ⟨_, rfl, lexes.hex isChar (by decide)⟩
  | case12 => cases found
  | case13 letter rest notA notB notC notD notE notF char more behind isMore
      isChar induction =>
      cases found
      obtain ⟨used, rfl, lexes⟩ := induction isMore
      have quotes : ['\\', letter].count '"' ≤
          if isQuoteToken (.escaped char) then 1 else 0 := by
        by_cases isQuote : letter = '"'
        · rw [isQuote, escapedChar?_quote, Option.some_inj] at isChar
          rw [isQuote, ← isChar]
          decide
        · rw [List.count_cons_of_ne (by decide), List.count_cons_of_ne isQuote]
          exact Nat.zero_le _
      exact ⟨['\\', letter] ++ used, rfl, lexes.longer (by simp) quotes⟩
  | case14 => cases found
  | case15 char rest notQuote _ _ _ _ _ _ _ notEscape allowed induction =>
      obtain ⟨⟨more, behind⟩, isMore, same⟩ := Option.map_eq_some_iff.mp found
      cases same
      obtain ⟨used, rfl, lexes⟩ := induction isMore
      have notSlash : char ≠ '\\' := by
        intro isSlash
        cases used with
        | nil => exact notEscape _ _ isSlash rfl
        | cons first used => exact notEscape _ _ isSlash rfl
      exact ⟨char :: used, rfl, lexes.cons notQuote notSlash allowed⟩
  | case16 => cases found

namespace Pending

def size : Pending → Nat
  | blanks chars => chars.length
  | folded breaks => breaks + 1
  | continued breaks => breaks

def breaks : Pending → Nat
  | blanks chars => chars.countP isBreak
  | folded breaks => breaks
  | continued breaks => breaks

theorem length_emit_le (pending : Pending) :
    pending.emit.length ≤ pending.size := by
  cases pending with
  | blanks chars => exact Nat.le_refl _
  | folded breaks =>
      cases breaks with
      | zero => exact Nat.le_refl _
      | succ breaks => simp [emit, size]
  | continued breaks => simp [emit, size]

theorem breaks_emit_le (pending : Pending) :
    pending.emit.countP isBreak ≤ pending.breaks := by
  have feed : isBreak '\n' = true := by decide
  have space : isBreak ' ' = false := by decide
  cases pending with
  | blanks chars => exact Nat.le_refl _
  | folded breaks =>
      cases breaks with
      | zero => simp [emit, space]
      | succ breaks => simp [emit, Pending.breaks, List.countP_replicate, feed]
  | continued breaks =>
      simp [emit, Pending.breaks, List.countP_replicate, feed]

end Pending

/-- Folding writes at most one character for each token. -/
theorem length_fold_le (pending : Pending) (tokens : List Token) :
    (fold pending tokens).length ≤ pending.size + tokens.length := by
  fun_induction fold pending tokens with
  | case1 pending => exact pending.length_emit_le
  | case2 pending char rest induction =>
      have before := pending.length_emit_le
      simp only [Pending.size, List.length_nil] at induction
      simp only [List.length_append, List.length_cons]
      omega
  | case3 pending char rest induction =>
      have before := pending.length_emit_le
      simp only [Pending.size, List.length_nil] at induction
      simp only [List.length_append, List.length_cons]
      omega
  | case4 pending char rest induction =>
      have grows : (pending.white char).size ≤ pending.size + 1 := by
        cases pending <;> simp [Pending.white, Pending.size]
      simp only [List.length_cons]
      omega
  | case5 pending rest induction =>
      have grows : pending.lineBreak.size ≤ pending.size + 1 := by
        cases pending <;> simp [Pending.lineBreak, Pending.size]
      simp only [List.length_cons]
      omega
  | case6 pending rest induction =>
      have before := pending.length_emit_le
      simp only [Pending.size] at induction
      simp only [List.length_append, List.length_cons]
      omega

/-- Folding keeps every escaped quotation mark. -/
theorem quotes_le_fold (pending : Pending) (tokens : List Token) :
    tokens.countP isQuoteToken ≤ (fold pending tokens).count '"' := by
  fun_induction fold pending tokens with
  | case1 pending => exact Nat.zero_le _
  | case2 pending char rest induction =>
      rw [List.countP_cons_of_neg (by simp [isQuoteToken]), List.count_append,
        List.count_cons]
      omega
  | case3 pending char rest induction =>
      rw [List.countP_cons, List.count_append, List.count_cons]
      have same : isQuoteToken (.escaped char) = (char == '"') := by
        by_cases isQuote : char = '"'
        · simp [isQuoteToken, isQuote]
        · simp [isQuoteToken, isQuote]
      rw [same]
      omega
  | case4 pending char rest induction =>
      rwa [List.countP_cons_of_neg (by simp [isQuoteToken])]
  | case5 pending rest induction =>
      rwa [List.countP_cons_of_neg (by simp [isQuoteToken])]
  | case6 pending rest induction =>
      rw [List.countP_cons_of_neg (by simp [isQuoteToken]), List.count_append]
      omega

/-- The token writes no line break of its own. -/
def Token.IsPlain : Token → Prop
  | literal char | white char | escaped char => isBreak char = false
  | lineBreak => True
  | continuation => False

theorem breaks_fold_le {tokens : List Token} (pending : Pending)
    (plain : ∀ token ∈ tokens, token.IsPlain) :
    (fold pending tokens).countP isBreak ≤
      pending.breaks + tokens.countP isBreakToken := by
  fun_induction fold pending tokens with
  | case1 pending => exact pending.breaks_emit_le
  | case2 pending char rest induction =>
      obtain ⟨here, later⟩ := List.forall_mem_cons.mp plain
      have before := pending.breaks_emit_le
      have after := induction later
      have none : Pending.breaks (.blanks []) = 0 := rfl
      have here : isBreak char = false := here
      rw [List.countP_append, List.countP_cons_of_neg (by simp [here]),
        List.countP_cons_of_neg (by simp [isBreakToken])]
      omega
  | case3 pending char rest induction =>
      obtain ⟨here, later⟩ := List.forall_mem_cons.mp plain
      have before := pending.breaks_emit_le
      have after := induction later
      have none : Pending.breaks (.blanks []) = 0 := rfl
      have here : isBreak char = false := here
      rw [List.countP_append, List.countP_cons_of_neg (by simp [here]),
        List.countP_cons_of_neg (by simp [isBreakToken])]
      omega
  | case4 pending char rest induction =>
      obtain ⟨here, later⟩ := List.forall_mem_cons.mp plain
      have here : isBreak char = false := here
      have same : (pending.white char).breaks = pending.breaks := by
        cases pending <;> simp [Pending.white, Pending.breaks, here]
      rw [List.countP_cons_of_neg (by simp [isBreakToken]), ← same]
      exact induction later
  | case5 pending rest induction =>
      obtain ⟨-, later⟩ := List.forall_mem_cons.mp plain
      have after := induction later
      have grows : pending.lineBreak.breaks ≤ pending.breaks + 1 := by
        cases pending <;> simp [Pending.lineBreak, Pending.breaks]
      rw [List.countP_cons_of_pos (by simp [isBreakToken])]
      omega
  | case6 pending rest induction =>
      exact absurd (plain _ List.mem_cons_self) (by simp [Token.IsPlain])

/-- Folding loses a line break where there is one. -/
theorem breaks_fold_lt {tokens : List Token} {blanks : List Char}
    (plain : ∀ token ∈ tokens, token.IsPlain)
    (broken : 0 < tokens.countP isBreakToken) :
    (fold (.blanks blanks) tokens).countP isBreak <
      blanks.countP isBreak + tokens.countP isBreakToken := by
  induction tokens generalizing blanks with
  | nil => exact absurd broken (by simp)
  | cons token rest induction =>
      obtain ⟨here, later⟩ := List.forall_mem_cons.mp plain
      cases token with
      | lineBreak =>
          have after := breaks_fold_le (.folded 0) later
          have none : Pending.breaks (.folded 0) = 0 := rfl
          rw [List.countP_cons_of_pos (by simp [isBreakToken])]
          change (fold (.folded 0) rest).countP isBreak < _
          omega
      | continuation => exact absurd here (by simp [Token.IsPlain])
      | white char =>
          have here : isBreak char = false := here
          rw [List.countP_cons_of_neg (by simp [isBreakToken])] at broken ⊢
          have after := @induction (blanks ++ [char]) later broken
          rw [List.countP_append, List.countP_cons_of_neg (by simp [here]),
            List.countP_nil] at after
          exact after
      | literal char =>
          have here : isBreak char = false := here
          rw [List.countP_cons_of_neg (by simp [isBreakToken])] at broken ⊢
          have after := @induction [] later broken
          rw [List.countP_nil] at after
          rw [fold, List.countP_append,
            List.countP_cons_of_neg (by simp [here])]
          change blanks.countP isBreak + _ < _
          omega
      | escaped char =>
          have here : isBreak char = false := here
          rw [List.countP_cons_of_neg (by simp [isBreakToken])] at broken ⊢
          have after := @induction [] later broken
          rw [List.countP_nil] at after
          rw [fold, List.countP_append,
            List.countP_cons_of_neg (by simp [here])]
          change blanks.countP isBreak + _ < _
          omega

/-- The token stands for the character. -/
def Token.Spells (token : Token) (char : Char) : Prop :=
  token = .literal char ∨ token = .white char ∨ token = .escaped char

theorem fold_of_spells {tokens : List Token} {chars blanks : List Char}
    (spells : List.Forall₂ Token.Spells tokens chars) :
    fold (.blanks blanks) tokens = blanks ++ chars := by
  induction spells generalizing blanks with
  | nil => exact (List.append_nil _).symm
  | cons here later induction =>
      rcases here with rfl | rfl | rfl
      · rw [fold, induction]
        rfl
      · rw [fold, Pending.white, induction, List.append_assoc]
        rfl
      · rw [fold, induction]
        rfl

/-- A character that a line of a quoted scalar can hold. -/
def isInLine (char : Char) : Bool :=
  isJson char && !isBreak char

/-- A character that stands for itself in a quoted scalar. -/
def isQuotable (char : Char) : Bool :=
  isInLine char && char ≠ '"' && char ≠ '\\'

/-- The escape of quotation marks and backslashes. -/
def escape (char : Char) : List Char :=
  if char = '\\' then ['\\', '\\']
  else if char = '"' then ['\\', '"']
  else [char]

def escapedToken (char : Char) : Token :=
  if char = '\\' ∨ char = '"' then .escaped char else tokenOf char

theorem escape_quotable {text : List Char}
    (quotable : ∀ char ∈ text, isQuotable char = true) :
    text.flatMap escape = text := by
  induction text with
  | nil => rfl
  | cons char rest induction =>
      obtain ⟨here, later⟩ := List.forall_mem_cons.mp quotable
      simp only [isQuotable, Bool.and_eq_true, decide_eq_true_eq] at here
      rw [List.flatMap_cons, induction later, escape, if_neg here.2,
        if_neg here.1.2]
      rfl

theorem spells_escapedToken {char : Char} (inLine : isInLine char = true) :
    (escapedToken char).Spells char := by
  unfold escapedToken tokenOf
  simp only [isInLine, Bool.and_eq_true, Bool.not_eq_true'] at inLine
  split_ifs with special broken white
  · exact .inr (.inr rfl)
  · rw [inLine.2] at broken
    cases broken
  · exact .inr (.inl rfl)
  · exact .inl rfl

theorem lex_plain {char : Char} {rest : List Char} (notQuote : char ≠ '"')
    (notSlash : char ≠ '\\') (notReturn : char ≠ '\r') :
    lex (char :: rest) =
      if isBreak char || isJson char then
        (lex rest).map fun (tokens, after) => (tokenOf char :: tokens, after)
      else none := by
  rw [lex.eq_def]
  split <;> simp_all

theorem lex_escape {char : Char} {rest : List Char}
    (special : char = '\\' ∨ char = '"') :
    lex ('\\' :: char :: rest) =
      (lex rest).map fun (tokens, after) =>
        (.escaped char :: tokens, after) := by
  rcases special with rfl | rfl
  · have found : escapedChar? '\\' = some '\\' := by decide
    cases more : lex rest <;> simp [lex, found, more]
  · cases more : lex rest <;> simp [lex, escapedChar?_quote, more]

/-- A carriage return before a line feed adds nothing. -/
theorem lex_return (rest : List Char) :
    lex ('\r' :: rest) =
      if rest.head? = some '\n' then lex rest
      else
        (lex rest).map fun (tokens, after) =>
          (.lineBreak :: tokens, after) := by
  have isToken : tokenOf '\r' = .lineBreak := by decide
  have isChar : (isBreak '\r' || isJson '\r') = true := by decide
  cases rest with
  | nil => simp [lex, isToken, isChar]
  | cons next rest =>
      by_cases feed : next = '\n'
      · subst feed
        have isFeed : tokenOf '\n' = .lineBreak := by decide
        have isFeedChar : (isBreak '\n' || isJson '\n') = true := by decide
        have alone : lex ('\n' :: rest) = (lex rest).map fun (tokens, after) =>
            (.lineBreak :: tokens, after) := by
          rw [lex_plain (by decide) (by decide) (by decide), if_pos isFeedChar,
            isFeed]
        rw [List.head?_cons, if_pos rfl, alone, lex]
      · simp [lex, feed, isToken, isChar]

/-- Escaped texts of single lines are cut into one token for each
character. -/
theorem lex_of_inLine {text rest : List Char}
    (inLine : ∀ char ∈ text, isInLine char = true) :
    lex (text.flatMap escape ++ '"' :: rest) =
      some (text.map escapedToken, rest) := by
  induction text with
  | nil => simp [lex]
  | cons char more induction =>
      obtain ⟨here, later⟩ := List.forall_mem_cons.mp inLine
      rw [List.flatMap_cons, List.append_assoc, List.map_cons]
      by_cases special : char = '\\' ∨ char = '"'
      · have escaped : escape char = ['\\', char] := by
          unfold escape
          rcases special with rfl | rfl
          · rw [if_pos rfl]
          · rw [if_neg (by decide), if_pos rfl]
        rw [escaped, List.cons_append, List.singleton_append,
          lex_escape special, induction later, escapedToken, if_pos special]
        rfl
      · simp only [isInLine, Bool.and_eq_true, Bool.not_eq_true'] at here
        have notReturn : char ≠ '\r' := by
          rintro rfl
          exact absurd here.2 (by decide)
        rw [not_or] at special
        have escaped : escape char = [char] := by
          unfold escape
          rw [if_neg special.1, if_neg special.2]
        rw [escaped, List.singleton_append,
          lex_plain special.2 special.1 notReturn, induction later,
          escapedToken, if_neg (not_or.mpr special), here.1, Bool.or_true,
          if_pos rfl]
        rfl

theorem isPlain_tokenOf (char : Char) : (tokenOf char).IsPlain := by
  unfold tokenOf
  split_ifs with broken white
  · trivial
  · exact Bool.eq_false_iff.mpr broken
  · exact Bool.eq_false_iff.mpr broken

theorem isBreakToken_tokenOf (char : Char) :
    isBreakToken (tokenOf char) = isBreak char := by
  unfold tokenOf
  split_ifs with broken white
  · simp [isBreakToken, broken]
  · simp [isBreakToken, broken]
  · simp [isBreakToken, broken]

/-- What the lexer makes of an escaped text: plain tokens, and a line break
wherever the text has some. -/
structure LexesEscaped (text : List Char) (tokens : List Token) : Prop where
  plain : ∀ token ∈ tokens, token.IsPlain
  allowed : ∀ char ∈ text, (isBreak char || isJson char) = true
  fewer : tokens.countP isBreakToken ≤ text.countP isBreak
  broken : 0 < text.countP isBreak → 0 < tokens.countP isBreakToken

/-- One more character, with its own token. -/
theorem LexesEscaped.cons {text : List Char} {tokens : List Token}
    {char : Char} {token : Token} (lexes : LexesEscaped text tokens)
    (plain : token.IsPlain) (allowed : (isBreak char || isJson char) = true)
    (same : isBreakToken token = isBreak char) :
    LexesEscaped (char :: text) (token :: tokens) where
  plain := List.forall_mem_cons.mpr ⟨plain, lexes.plain⟩
  allowed := List.forall_mem_cons.mpr ⟨allowed, lexes.allowed⟩
  fewer := by
    have before := lexes.fewer
    rw [List.countP_cons, List.countP_cons, same]
    omega
  broken := by
    have before := lexes.broken
    rw [List.countP_cons, List.countP_cons, same]
    omega

theorem breaks_pos_of_head {text rest : List Char}
    (feed : (text.flatMap escape ++ '"' :: rest).head? = some '\n') :
    0 < text.countP isBreak := by
  cases text with
  | nil => exact absurd feed (by simp)
  | cons char more =>
      rw [List.flatMap_cons, List.append_assoc] at feed
      unfold escape at feed
      split_ifs at feed with slash quote
      · exact absurd feed (by simp)
      · exact absurd feed (by simp)
      · have isFeed : char = '\n' := by simpa using feed
        have broken : isBreak char = true := by
          rw [isFeed]
          decide
        rw [List.countP_cons_of_pos broken]
        omega

theorem lexesEscaped_of_lex {text rest after : List Char} {tokens : List Token}
    (found : lex (text.flatMap escape ++ '"' :: rest) = some (tokens, after)) :
    after = rest ∧ LexesEscaped text tokens := by
  induction text generalizing tokens after with
  | nil =>
      have done : lex ('"' :: rest) = some ([], rest) := by simp [lex]
      rw [List.flatMap_nil, List.nil_append, done] at found
      cases found
      exact ⟨rfl, by simp, by simp, Nat.le_refl _, by simp⟩
  | cons char more induction =>
      rw [List.flatMap_cons, List.append_assoc] at found
      by_cases special : char = '\\' ∨ char = '"'
      · have escaped : escape char = ['\\', char] := by
          unfold escape
          rcases special with rfl | rfl
          · rw [if_pos rfl]
          · rw [if_neg (by decide), if_pos rfl]
        rw [escaped, List.cons_append, List.singleton_append,
          lex_escape special] at found
        obtain ⟨⟨later, behind⟩, isLater, same⟩ :=
          Option.map_eq_some_iff.mp found
        cases same
        obtain ⟨rfl, lexes⟩ := induction isLater
        have inLine : isBreak char = false ∧ isJson char = true := by
          rcases special with rfl | rfl <;> decide
        exact ⟨rfl, lexes.cons inLine.1 (by simp [inLine])
          (by simp [isBreakToken, inLine])⟩
      · rw [not_or] at special
        have escaped : escape char = [char] := by
          unfold escape
          rw [if_neg special.1, if_neg special.2]
        rw [escaped, List.singleton_append] at found
        by_cases isReturn : char = '\r'
        · subst isReturn
          rw [lex_return] at found
          split_ifs at found with feed
          · -- The line feed behind the carriage return is the one break.
            obtain ⟨rfl, lexes⟩ := induction found
            have broken := lexes.broken (breaks_pos_of_head feed)
            have fewer := lexes.fewer
            refine ⟨rfl, lexes.plain, List.forall_mem_cons.mpr
              ⟨by decide, lexes.allowed⟩, ?_, fun _ => broken⟩
            rw [List.countP_cons]
            omega
          · obtain ⟨⟨later, behind⟩, isLater, same⟩ :=
              Option.map_eq_some_iff.mp found
            cases same
            obtain ⟨rfl, lexes⟩ := induction isLater
            exact ⟨rfl, lexes.cons trivial (by decide) (by decide)⟩
        · rw [lex_plain special.2 special.1 isReturn] at found
          split_ifs at found with allowed
          obtain ⟨⟨later, behind⟩, isLater, same⟩ :=
            Option.map_eq_some_iff.mp found
          cases same
          obtain ⟨rfl, lexes⟩ := induction isLater
          exact ⟨rfl, lexes.cons (isPlain_tokenOf char) allowed
            (isBreakToken_tokenOf char)⟩

/-- An escaped text is read back exactly where it is a single line. -/
theorem readQuoted_escaped_iff {text rest after : List Char} :
    readQuoted (text.flatMap escape ++ '"' :: rest) = some (text, after) ↔
      (∀ char ∈ text, isInLine char = true) ∧ after = rest := by
  unfold readQuoted
  constructor
  · intro read
    obtain ⟨⟨tokens, behind⟩, found, same⟩ := Option.map_eq_some_iff.mp read
    obtain ⟨folded, rfl⟩ := Prod.mk.inj same
    obtain ⟨rfl, lexes⟩ := lexesEscaped_of_lex found
    refine ⟨?_, rfl⟩
    have unbroken : text.countP isBreak = 0 := by
      by_contra broken
      have fewer := @breaks_fold_lt tokens [] lexes.plain
        (lexes.broken (Nat.pos_of_ne_zero broken))
      have bound := lexes.fewer
      rw [folded, List.countP_nil] at fewer
      omega
    intro char member
    have none := List.countP_eq_zero.mp unbroken char member
    have allowed := lexes.allowed char member
    simp only [isInLine, Bool.and_eq_true, Bool.not_eq_true']
    simp_all
  · rintro ⟨inLine, rfl⟩
    rw [lex_of_inLine inLine, Option.map_some]
    have spells : List.Forall₂ Token.Spells (text.map escapedToken) text := by
      rw [List.forall₂_map_left_iff, List.forall₂_same]
      exact fun char member => spells_escapedToken (inLine char member)
    dsimp only
    rw [fold_of_spells spells]
    rfl

/-- A raw text is its own value exactly where each of its characters stands for
itself. -/
theorem readQuoted_raw_iff {text rest after : List Char} :
    readQuoted (text ++ '"' :: rest) = some (text, after) ↔
      (∀ char ∈ text, isQuotable char = true) ∧ after = rest := by
  constructor
  · intro read
    obtain ⟨⟨tokens, behind⟩, found, same⟩ := Option.map_eq_some_iff.mp read
    obtain ⟨folded, rfl⟩ := Prod.mk.inj same
    obtain ⟨used, isUsed, lexes⟩ := exists_used found
    have long := length_fold_le (.blanks []) tokens
    have quotes := quotes_le_fold (.blanks []) tokens
    have shorter := lexes.shorter
    have escaped := lexes.quotes
    rw [folded] at long quotes
    simp only [Pending.size, List.length_nil, Nat.zero_add] at long
    obtain ⟨rfl, isEnd⟩ : text = used ∧ rest = behind := by
      rcases List.append_eq_append_iff.mp isUsed with
        ⟨more, isMore, isRest⟩ | ⟨more, isMore, isRest⟩
      · cases more with
        | nil =>
            rw [List.append_nil] at isMore
            exact ⟨isMore.symm, (List.cons.inj isRest).2⟩
        | cons first more =>
            -- The closing quotation mark has been read as an escaped one.
            obtain ⟨isQuote, -⟩ := List.cons.inj isRest
            rw [isMore, ← isQuote, List.count_append,
              List.count_cons_self] at escaped
            omega
      · cases more with
        | nil =>
            rw [List.append_nil] at isMore
            exact ⟨isMore, (List.cons.inj isRest).2.symm⟩
        | cons first more =>
            rw [isMore, List.length_append, List.length_cons] at long
            omega
    obtain ⟨rfl, plain⟩ := lexes.aligned (Nat.le_antisymm shorter long)
    have breaks : (text.map tokenOf).countP isBreakToken =
        text.countP isBreak := by
      rw [List.countP_map]
      exact List.countP_congr fun char _ => by
        rw [Function.comp_apply, isBreakToken_tokenOf]
    have unbroken : text.countP isBreak = 0 := by
      by_contra broken
      have fewer := @breaks_fold_lt (text.map tokenOf) []
        (List.forall_mem_map.mpr fun char _ => isPlain_tokenOf char)
        (breaks ▸ Nat.pos_of_ne_zero broken)
      rw [folded, List.countP_nil, breaks] at fewer
      omega
    refine ⟨fun char member => ?_, isEnd.symm⟩
    obtain ⟨notQuote, notSlash, allowed⟩ := plain char member
    have none := List.countP_eq_zero.mp unbroken char member
    simp_all [isQuotable, isInLine]
  · rintro ⟨quotable, rfl⟩
    have inLine : ∀ char ∈ text, isInLine char = true := fun char member => by
      have own := quotable char member
      simp only [isQuotable, Bool.and_eq_true] at own
      exact own.1.1
    have read := readQuoted_escaped_iff.mpr ⟨inLine, @rfl _ after⟩
    rwa [escape_quotable quotable] at read

end Yaml
