import Mathlib.Data.List.Basic
import Mathlib.Tactic.Common

/-!
# Full-text queries

The query language of a full-text index: words and quoted strings, joined to
phrases by `+`, compared next to each other or by `AND`, `OR` and `NOT`, with
groups, column filters and `NEAR`.  A query without quotes, brackets and
colons is one just when its words have at most one joining operator between
them and none at its ends.
-/

namespace Fts5

inductive Token where
  | string (text : String)
  | and
  | or
  | not
  | near
  | plus
  | minus
  | comma
  | star
  | caret
  | colon
  | leftParen
  | rightParen
  | leftBrace
  | rightBrace
  deriving DecidableEq, Repr

/-- ASCII letters and digits, the underscore, and all that is not ASCII. -/
def isWordChar (char : Char) : Bool :=
  char.isAlphanum || char = '_' || 127 < char.toNat

def isSpace (char : Char) : Bool :=
  char = ' ' || char = '\t' || char = '\n' || char = '\r'

def wordToken (word : List Char) : Token :=
  if word = ['A', 'N', 'D'] then .and
  else if word = ['O', 'R'] then .or
  else if word = ['N', 'O', 'T'] then .not
  else if word = ['N', 'E', 'A', 'R'] then .near
  else .string (String.ofList word)

/-- The token of the word that has been read, if any. -/
def flush (word : List Char) : List Token :=
  if word = [] then [] else [wordToken word]

def symbol? (char : Char) : Option Token :=
  if char = '+' then some .plus
  else if char = '-' then some .minus
  else if char = ',' then some .comma
  else if char = '*' then some .star
  else if char = '^' then some .caret
  else if char = ':' then some .colon
  else if char = '(' then some .leftParen
  else if char = ')' then some .rightParen
  else if char = '{' then some .leftBrace
  else if char = '}' then some .rightBrace
  else none

mutual

/-- Read tokens; `word` is what has been read of a word. -/
def lexWord (word : List Char) : List Char → Option (List Token)
  | [] => some (flush word)
  | char :: rest =>
      if isWordChar char then lexWord (word ++ [char]) rest
      else if char = '"' then (flush word ++ ·) <$> lexQuoted [] rest
      else if isSpace char then (flush word ++ ·) <$> lexWord [] rest
      else
        match symbol? char with
        | some token => (flush word ++ token :: ·) <$> lexWord [] rest
        | none => none

/-- Read a quoted string, in which a doubled quote stands for one. -/
def lexQuoted (text : List Char) : List Char → Option (List Token)
  | [] => none
  | '"' :: '"' :: rest => lexQuoted (text ++ ['"']) rest
  | '"' :: rest => (.string (String.ofList text) :: ·) <$> lexWord [] rest
  | char :: rest => lexQuoted (text ++ [char]) rest

end

def lex (query : String) : Option (List Token) :=
  lexWord [] query.toList

inductive Phrase : List Token → Prop
  | word (text : String) : Phrase [.string text]
  | starred (text : String) : Phrase [.string text, .star]
  | join {left right : List Token} :
      Phrase left → Phrase right → Phrase (left ++ .plus :: right)

/-- One or more phrases. -/
inductive Phrases : List Token → Prop
  | one {phrase : List Token} : Phrase phrase → Phrases phrase
  | more {phrase rest : List Token} :
      Phrase phrase → Phrases rest → Phrases (phrase ++ rest)

inductive NearGroup : List Token → Prop
  | within {phrases : List Token} :
      Phrases phrases →
      NearGroup (.near :: .leftParen :: (phrases ++ [.rightParen]))
  | atDistance {phrases : List Token} (distance : Nat) :
      Phrases phrases →
      NearGroup (.near :: .leftParen ::
        (phrases ++ [.comma, .string (toString distance), .rightParen]))

inductive Columns : List Token → Prop
  | one (name : String) : Columns [.string name]
  | some (names : List String) :
      Columns (.leftBrace :: (names.map .string ++ [.rightBrace]))

/-- An optional restriction to columns. -/
inductive Filter : List Token → Prop
  | none : Filter []
  | only {columns : List Token} :
      Columns columns → Filter (columns ++ [.colon])
  | except {columns : List Token} :
      Columns columns → Filter (.minus :: (columns ++ [.colon]))

inductive Term : List Token → Prop
  | phrase {columns phrase : List Token} :
      Filter columns → Phrase phrase → Term (columns ++ phrase)
  | initial {columns phrase : List Token} :
      Filter columns → Phrase phrase → Term (columns ++ .caret :: phrase)
  | near {columns group : List Token} :
      Filter columns → NearGroup group → Term (columns ++ group)

/-- Terms next to each other, which must all match. -/
inductive Terms : List Token → Prop
  | one {term : List Token} : Term term → Terms term
  | more {term rest : List Token} :
      Term term → Terms rest → Terms (term ++ rest)

inductive IsOperator : Token → Prop
  | and : IsOperator .and
  | or : IsOperator .or
  | not : IsOperator .not

inductive Query : List Token → Prop
  | terms {terms : List Token} : Terms terms → Query terms
  | group {columns query : List Token} :
      Filter columns → Query query →
      Query (columns ++ .leftParen :: (query ++ [.rightParen]))
  | operator {left right : List Token} {token : Token} :
      Query left → IsOperator token → Query right →
      Query (left ++ token :: right)

/-- The text is a query. -/
def IsQuery (text : String) : Prop :=
  ∃ tokens, lex text = some tokens ∧ Query tokens

/-- A token that is no bracket, colon, star or caret. -/
def isPlain : Token → Bool
  | .star | .caret | .colon | .leftParen | .rightParen | .leftBrace
  | .rightBrace => false
  | _ => true

def joins : Token → Bool
  | .and | .or | .not | .plus => true
  | _ => false

/-- Strings with at most one joining token between neighbours. -/
def alternates : List Token → Bool
  | [.string _] => true
  | .string _ :: .string text :: rest => alternates (.string text :: rest)
  | .string _ :: token :: .string text :: rest =>
      joins token && alternates (.string text :: rest)
  | _ => false

theorem exists_string_of_alternates {tokens : List Token}
    (alternate : alternates tokens = true) :
    ∃ text rest, tokens = .string text :: rest := by
  unfold alternates at alternate
  split at alternate
  · exact ⟨_, _, rfl⟩
  · exact ⟨_, _, rfl⟩
  · exact ⟨_, _, rfl⟩
  · cases alternate

theorem alternates_append {left right : List Token}
    (first : alternates left = true) (second : alternates right = true) :
    alternates (left ++ right) = true := by
  obtain ⟨text, rest, rfl⟩ := exists_string_of_alternates second
  induction left using alternates.induct with
  | case1 word => exact second
  | case2 word next later induction =>
      rw [alternates] at first
      exact induction first
  | case3 word token next later different induction =>
      rw [alternates, Bool.and_eq_true] at first
      · simp only [List.cons_append, alternates, Bool.and_eq_true]
        exact ⟨first.1, induction first.2⟩
      · exact different
  | case4 tokens single pair triple =>
      rw [alternates] at first
      · cases first
      · exact single
      · exact pair
      · exact triple

theorem alternates_join {left right : List Token} {token : Token}
    (first : alternates left = true) (joining : joins token = true)
    (second : alternates right = true) :
    alternates (left ++ token :: right) = true := by
  obtain ⟨text, rest, rfl⟩ := exists_string_of_alternates second
  induction left using alternates.induct with
  | case1 word =>
      cases token with
      | string _ => cases joining
      | _ =>
          simp only [List.cons_append, List.nil_append, alternates, joining,
            second, Bool.and_self]
  | case2 word next later induction =>
      rw [alternates] at first
      exact induction first
  | case3 word other next later different induction =>
      rw [alternates, Bool.and_eq_true] at first
      · simp only [List.cons_append, alternates, Bool.and_eq_true]
        exact ⟨first.1, induction first.2⟩
      · exact different
  | case4 tokens single pair triple =>
      rw [alternates] at first
      · cases first
      · exact single
      · exact pair
      · exact triple

/-- No token is a bracket, a colon, a star or a caret. -/
def Plain (tokens : List Token) : Prop :=
  ∀ token ∈ tokens, isPlain token = true

theorem plain_append {left right : List Token} :
    Plain (left ++ right) ↔ Plain left ∧ Plain right :=
  List.forall_mem_append

theorem plain_cons {token : Token} {rest : List Token} :
    Plain (token :: rest) ↔ isPlain token = true ∧ Plain rest :=
  List.forall_mem_cons

theorem Phrase.alternates {phrase : List Token} (isPhrase : Phrase phrase)
    (plain : Plain phrase) : alternates phrase = true := by
  induction isPhrase with
  | word text => rfl
  | starred text =>
      have star := plain .star (by simp)
      cases star
  | join left right leftInduction rightInduction =>
      obtain ⟨leftPlain, later⟩ := plain_append.mp plain
      obtain ⟨-, rightPlain⟩ := plain_cons.mp later
      exact alternates_join (leftInduction leftPlain) rfl
        (rightInduction rightPlain)

theorem Filter.eq_nil {columns : List Token} (isFilter : Filter columns)
    (plain : Plain columns) : columns = [] := by
  cases isFilter with
  | none => rfl
  | only isColumns =>
      have colon := plain .colon (by simp)
      cases colon
  | except isColumns =>
      have colon := plain .colon (by simp)
      cases colon

theorem Term.phrase_of_plain {term : List Token} (isTerm : Term term)
    (plain : Plain term) : Phrase term := by
  cases isTerm with
  | phrase isFilter isPhrase =>
      obtain rfl := isFilter.eq_nil (plain_append.mp plain).1
      exact isPhrase
  | initial isFilter isPhrase =>
      have caret := plain .caret (by simp)
      cases caret
  | near isFilter isGroup =>
      have isOpening := plain .leftParen (by cases isGroup <;> simp)
      cases isOpening

theorem Terms.alternates {terms : List Token} (areTerms : Terms terms)
    (plain : Plain terms) : alternates terms = true := by
  induction areTerms with
  | one isTerm => exact (isTerm.phrase_of_plain plain).alternates plain
  | more isTerm areTerms induction =>
      obtain ⟨first, rest⟩ := plain_append.mp plain
      exact alternates_append ((isTerm.phrase_of_plain first).alternates first)
        (induction rest)

theorem Query.alternates {query : List Token} (isQuery : Query query)
    (plain : Plain query) : alternates query = true := by
  induction isQuery with
  | terms areTerms => exact areTerms.alternates plain
  | group isFilter isQuery induction =>
      have isOpening := plain .leftParen (by simp)
      cases isOpening
  | operator left isOperator right leftInduction rightInduction =>
      obtain ⟨leftPlain, later⟩ := plain_append.mp plain
      obtain ⟨-, rightPlain⟩ := plain_cons.mp later
      refine alternates_join (leftInduction leftPlain) ?_
        (rightInduction rightPlain)
      cases isOperator <;> rfl

theorem Term.word (text : String) : Term [.string text] :=
  Term.phrase Filter.none (Phrase.word text)

theorem Query.cons_word (text : String) {query : List Token}
    (isQuery : Query query) (plain : Plain query) :
    Query (.string text :: query) := by
  induction isQuery with
  | terms areTerms => exact .terms (.more (Term.word text) areTerms)
  | group isFilter isQuery induction =>
      have isOpening := plain .leftParen (by simp)
      cases isOpening
  | operator left isOperator right leftInduction rightInduction =>
      obtain ⟨leftPlain, -⟩ := plain_append.mp plain
      exact .operator (leftInduction leftPlain) isOperator right

theorem Terms.cons_plus (text : String) {terms : List Token}
    (areTerms : Terms terms) (plain : Plain terms) :
    Terms (.string text :: .plus :: terms) := by
  have joined {term : List Token} (isTerm : Term term) (plain : Plain term) :
      Term (.string text :: .plus :: term) :=
    Term.phrase Filter.none
      (Phrase.join (Phrase.word text) (isTerm.phrase_of_plain plain))
  cases areTerms with
  | one isTerm => exact .one (joined isTerm plain)
  | more isTerm areTerms =>
      obtain ⟨first, -⟩ := plain_append.mp plain
      exact .more (joined isTerm first) areTerms

theorem Query.cons_plus (text : String) {query : List Token}
    (isQuery : Query query) (plain : Plain query) :
    Query (.string text :: .plus :: query) := by
  induction isQuery with
  | terms areTerms => exact .terms (areTerms.cons_plus text plain)
  | group isFilter isQuery induction =>
      have isOpening := plain .leftParen (by simp)
      cases isOpening
  | operator left isOperator right leftInduction rightInduction =>
      obtain ⟨leftPlain, -⟩ := plain_append.mp plain
      exact .operator (leftInduction leftPlain) isOperator right

theorem query_of_alternates {tokens : List Token}
    (alternate : alternates tokens = true) :
    Query tokens ∧ Plain tokens := by
  induction tokens using alternates.induct with
  | case1 text => exact ⟨.terms (.one (Term.word text)), by simp [Plain, isPlain]⟩
  | case2 text next later induction =>
      rw [alternates] at alternate
      obtain ⟨isQuery, plain⟩ := induction alternate
      exact ⟨isQuery.cons_word text plain, plain_cons.mpr ⟨rfl, plain⟩⟩
  | case3 text token next later different induction =>
      rw [alternates, Bool.and_eq_true] at alternate
      · obtain ⟨joining, rest⟩ := alternate
        obtain ⟨isQuery, plain⟩ := induction rest
        have isWord : Query [.string text] := .terms (.one (Term.word text))
        cases token with
        | and =>
            exact ⟨.operator isWord .and isQuery,
              plain_cons.mpr ⟨rfl, plain_cons.mpr ⟨rfl, plain⟩⟩⟩
        | or =>
            exact ⟨.operator isWord .or isQuery,
              plain_cons.mpr ⟨rfl, plain_cons.mpr ⟨rfl, plain⟩⟩⟩
        | not =>
            exact ⟨.operator isWord .not isQuery,
              plain_cons.mpr ⟨rfl, plain_cons.mpr ⟨rfl, plain⟩⟩⟩
        | plus =>
            exact ⟨isQuery.cons_plus text plain,
              plain_cons.mpr ⟨rfl, plain_cons.mpr ⟨rfl, plain⟩⟩⟩
        | _ => cases joining
      · exact different
  | case4 tokens single pair triple =>
      rw [alternates] at alternate
      · cases alternate
      · exact single
      · exact pair
      · exact triple

/-- A character that opens no quotation, group, filter or prefix query. -/
def isPlainChar (char : Char) : Bool :=
  ! ['*', '"', '^', '(', ')', '{', '}', ':'].contains char

theorem plain_flush (word : List Char) : Plain (flush word) := by
  unfold flush wordToken Plain
  split_ifs <;> simp [isPlain]

theorem isPlain_of_symbol {char : Char} {token : Token}
    (plain : isPlainChar char = true) (isSymbol : symbol? char = some token) :
    isPlain token = true := by
  unfold symbol? at isSymbol
  unfold isPlainChar at plain
  split_ifs at isSymbol with plus minus comma star caret colon left right
    leftBrace rightBrace
  · cases isSymbol
    rfl
  · cases isSymbol
    rfl
  · cases isSymbol
    rfl
  all_goals
    subst_vars
    cases plain

theorem plain_lexWord {chars word : List Char} {tokens : List Token}
    (plain : ∀ char ∈ chars, isPlainChar char = true)
    (lexed : lexWord word chars = some tokens) :
    Plain tokens := by
  induction chars generalizing word tokens with
  | nil =>
      cases lexed
      exact plain_flush word
  | cons char rest induction =>
      obtain ⟨first, later⟩ := List.forall_mem_cons.mp plain
      unfold lexWord at lexed
      split_ifs at lexed with isWord isQuote space
      · exact induction later lexed
      · rw [isQuote] at first
        cases first
      · obtain ⟨others, lexedRest, rfl⟩ := Option.map_eq_some_iff.mp lexed
        exact plain_append.mpr ⟨plain_flush word, induction later lexedRest⟩
      · split at lexed
        · rename_i token isSymbol
          obtain ⟨others, lexedRest, rfl⟩ := Option.map_eq_some_iff.mp lexed
          exact plain_append.mpr ⟨plain_flush word,
            plain_cons.mpr ⟨isPlain_of_symbol first isSymbol,
              induction later lexedRest⟩⟩
        · cases lexed

/-- Whether a plain text is a query. -/
def isPlainQuery (text : String) : Bool :=
  match lex text with
  | some tokens => alternates tokens
  | none => false

theorem isQuery_iff_of_plain {text : String}
    (plain : ∀ char ∈ text.toList, isPlainChar char = true) :
    IsQuery text ↔ isPlainQuery text = true := by
  unfold IsQuery isPlainQuery
  cases lexed : lex text with
  | none => simp
  | some tokens =>
      have plainTokens : Plain tokens := plain_lexWord plain lexed
      constructor
      · rintro ⟨others, same, isQuery⟩
        cases same
        exact isQuery.alternates plainTokens
      · intro alternate
        exact ⟨tokens, rfl, (query_of_alternates alternate).1⟩

end Fts5
