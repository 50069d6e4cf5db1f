import Mathlib.Data.Bool.AllAny
import Registrar.Export.StaleFiles

/-!
# The tenant line of an exported file

A quoted line that ends as the formatter writes it decides every match that
begins in it, so the frontmatter can be read line by line.
-/

namespace Registrar

theorem dropWhile_append_stop {stops : Char → Bool} (chars rest : List Char)
    {stop : Char} (stopped : stops stop = false) :
    (chars ++ stop :: rest).dropWhile stops =
      chars.dropWhile stops ++ stop :: rest := by
  induction chars with
  | nil => simp [stopped]
  | cons char chars induction =>
      by_cases passes : stops char = true <;> simp [passes, induction]

theorem takeWhile_append_stop {stops : Char → Bool} (chars rest : List Char)
    {stop : Char} (stopped : stops stop = false) :
    (chars ++ stop :: rest).takeWhile stops = chars.takeWhile stops := by
  induction chars with
  | nil => simp [stopped]
  | cons char chars induction =>
      by_cases passes : stops char = true <;> simp [passes, induction]

/-- The white space that does not end a line. -/
def isInlineSpace (char : Char) : Bool :=
  isTrimmedSpace char && !isLineTerminator char

theorem endsLine_eq (chars : List Char) :
    endsLine chars =
      match chars.dropWhile isInlineSpace with
      | [] => true
      | char :: _ => isLineTerminator char := rfl

theorem endsLine_append_quote (chars rest : List Char) :
    endsLine (chars ++ '"' :: rest) = endsLine (chars ++ ['"']) := by
  have stopped : isInlineSpace '"' = false := by decide
  rw [endsLine_eq, endsLine_eq, dropWhile_append_stop chars rest stopped,
    dropWhile_append_stop chars [] stopped]
  cases chars.dropWhile isInlineSpace <;> rfl

theorem isPrefixOf_append_quote {key : List Char} (unquoted : '"' ∉ key)
    (chars rest : List Char) :
    key.isPrefixOf (chars ++ '"' :: rest) = key.isPrefixOf chars := by
  induction key generalizing chars with
  | nil => simp
  | cons first key induction =>
      obtain ⟨notFirst, later⟩ := not_or.mp (unquoted ∘ List.mem_cons.mpr)
      cases chars with
      | nil => simp [List.isPrefixOf, Ne.symm notFirst]
      | cons char chars =>
          simp only [List.cons_append, List.isPrefixOf, induction later]

theorem tenantKey_unquoted : '"' ∉ tenantKey := by decide

/-- The name that the text begins with, if a quotation mark and a blank rest
of the line follow it. -/
def quotedName (value : List Char) : Option (List Char) :=
  match value.dropWhile isTenantNameChar with
  | '"' :: rest =>
      if endsLine rest then some (value.takeWhile isTenantNameChar) else none
  | _ => none

/-- The name after the key, if a quotation mark begins it. -/
def keyedName (value : List Char) : Option (List Char) :=
  match value.dropWhile isTrimmedSpace with
  | '"' :: name => quotedName name
  | _ => none

theorem matchTenantLine_eq (chars : List Char) :
    matchTenantLine chars =
      if tenantKey.isPrefixOf chars then
        keyedName (chars.drop tenantKey.length)
      else none := rfl

theorem quotedName_closed (name rest : List Char) :
    quotedName (name ++ '"' :: '\n' :: rest) =
      quotedName (name ++ ['"', '\n']) := by
  have stopped : isTenantNameChar '"' = false := by decide
  unfold quotedName
  rw [dropWhile_append_stop name _ stopped, dropWhile_append_stop name _ stopped,
    takeWhile_append_stop name _ stopped, takeWhile_append_stop name _ stopped]
  rcases name.dropWhile isTenantNameChar with _ | ⟨stop, after⟩
  · rfl
  · by_cases closed : stop = '"'
    · subst closed
      have same : endsLine (after ++ '"' :: '\n' :: rest) =
          endsLine (after ++ ['"', '\n']) :=
        (endsLine_append_quote after _).trans
          (endsLine_append_quote after ['\n']).symm
      change (if endsLine (after ++ '"' :: '\n' :: rest) then _ else _) = _
      rw [same]
      rfl
    · simp [closed]

theorem keyedName_closed (value rest : List Char) :
    keyedName (value ++ '"' :: '\n' :: rest) =
      keyedName (value ++ ['"', '\n']) := by
  have stopped : isTrimmedSpace '"' = false := by decide
  unfold keyedName
  rw [dropWhile_append_stop value _ stopped,
    dropWhile_append_stop value _ stopped]
  rcases value.dropWhile isTrimmedSpace with _ | ⟨char, name⟩
  · simp [quotedName, isTenantNameChar]
  · by_cases quoted : char = '"'
    · subst quoted
      exact quotedName_closed name rest
    · simp [quoted]

/-- What a quoted line contains decides a match that begins before its closing
mark. -/
theorem matchTenantLine_closed (chars rest : List Char) :
    matchTenantLine (chars ++ '"' :: '\n' :: rest) =
      matchTenantLine (chars ++ ['"', '\n']) := by
  rw [matchTenantLine_eq, matchTenantLine_eq,
    isPrefixOf_append_quote tenantKey_unquoted,
    isPrefixOf_append_quote tenantKey_unquoted]
  by_cases keyed : tenantKey.isPrefixOf chars = true
  · obtain ⟨value, rfl⟩ := List.isPrefixOf_iff_prefix.mp keyed
    rw [if_pos keyed, if_pos keyed, List.append_assoc, List.append_assoc,
      List.drop_left, List.drop_left]
    exact keyedName_closed value rest
  · rw [if_neg keyed, if_neg keyed]

theorem findTenantLine_cons (atStart : Bool) (char : Char) (rest : List Char) :
    findTenantLine atStart (char :: rest) =
      (if atStart then matchTenantLine (char :: rest) else none).or
        (findTenantLine (isLineTerminator char) rest) := rfl

theorem tenantKey_eq :
    tenantKey = ['t', 'e', 'n', 'a', 'n', 't', '_', 'i', 'd', ':'] := by
  decide

/-- A tenant line begins with a `t`. -/
theorem matchTenantLine_of_ne {char : Char} (other : char ≠ 't')
    (rest : List Char) : matchTenantLine (char :: rest) = none := by
  have absent : tenantKey.isPrefixOf (char :: rest) = false := by
    rw [tenantKey_eq, List.isPrefixOf, beq_false_of_ne (Ne.symm other)]
    rfl
  rw [matchTenantLine_eq, absent]
  rfl

theorem findTenantLine_closed (atStart : Bool) (chars rest : List Char) :
    findTenantLine atStart (chars ++ '"' :: '\n' :: rest) =
      (findTenantLine atStart (chars ++ ['"', '\n'])).or
        (findTenantLine true rest) := by
  induction chars generalizing atStart with
  | nil =>
      have quote := matchTenantLine_of_ne (by decide : '"' ≠ 't')
      have lineFeed := matchTenantLine_of_ne (by decide : '\n' ≠ 't')
      have ends : isLineTerminator '\n' = true := by decide
      simp [findTenantLine_cons, quote, lineFeed, ends, findTenantLine]
  | cons char chars induction =>
      rw [List.cons_append, List.cons_append, findTenantLine_cons,
        findTenantLine_cons, induction, ← Option.or_assoc,
        ← List.cons_append, ← List.cons_append, matchTenantLine_closed]

theorem findTenantLine_within {chars : List Char}
    (oneLine : ∀ char ∈ chars, isLineTerminator char = false)
    (rest : List Char) :
    findTenantLine false (chars ++ rest) = findTenantLine false rest := by
  induction chars with
  | nil => rfl
  | cons char chars induction =>
      obtain ⟨first, later⟩ := List.forall_mem_cons.mp oneLine
      rw [List.cons_append, findTenantLine_cons, first]
      exact (Option.none_or).trans (induction later)

theorem frontmatterMark_eq : frontmatterMark = ['\n', '-', '-', '-'] := by
  decide

theorem beforeMark_cons (char : Char) (rest : List Char) :
    beforeMark (char :: rest) =
      if frontmatterMark.isPrefixOf (char :: rest) then some []
      else (beforeMark rest).map (char :: ·) := rfl

theorem eq_of_beforeMark {chars front : List Char}
    (found : beforeMark chars = some front) :
    ∃ rest, chars = front ++ frontmatterMark ++ rest := by
  induction chars generalizing front with
  | nil => simp [beforeMark] at found
  | cons char chars induction =>
      rw [beforeMark_cons] at found
      split_ifs at found with marked
      · obtain ⟨rest, same⟩ := List.isPrefixOf_iff_prefix.mp marked
        obtain rfl := Option.some.inj found
        exact ⟨rest, same.symm⟩
      · obtain ⟨shorter, inner, rfl⟩ := Option.map_eq_some_iff.mp found
        obtain ⟨rest, same⟩ := induction inner
        exact ⟨rest, by rw [same]; rfl⟩

theorem beforeMark_isSome (front rest : List Char) :
    (beforeMark (front ++ frontmatterMark ++ rest)).isSome = true := by
  induction front with
  | nil =>
      have marked : frontmatterMark.isPrefixOf (frontmatterMark ++ rest) = true :=
        List.isPrefixOf_iff_prefix.mpr (List.prefix_append _ _)
      rw [List.nil_append]
      rw [frontmatterMark_eq] at marked ⊢
      rw [List.cons_append, beforeMark_cons, frontmatterMark_eq,
        ← List.cons_append, if_pos marked]
      rfl
  | cons char front induction =>
      rw [List.cons_append, List.cons_append, beforeMark_cons]
      split_ifs
      · rfl
      · rw [Option.isSome_map]
        exact induction

/-- A mark stays where it is when the text goes on. -/
theorem beforeMark_append_of_some {chars front : List Char}
    (found : beforeMark chars = some front) (rest : List Char) :
    beforeMark (chars ++ rest) = some front := by
  induction chars generalizing front with
  | nil => simp [beforeMark] at found
  | cons char chars induction =>
      rw [List.cons_append, beforeMark_cons]
      rw [beforeMark_cons] at found
      split_ifs at found with marked
      · have longer : frontmatterMark.isPrefixOf (char :: (chars ++ rest)) :=
          List.isPrefixOf_iff_prefix.mpr
            ((List.isPrefixOf_iff_prefix.mp marked).trans
              (List.prefix_append (char :: chars) rest))
        rw [if_pos longer]
        exact found
      · obtain ⟨shorter, inner, rfl⟩ := Option.map_eq_some_iff.mp found
        rw [induction inner, if_neg]
        · rfl
        · -- the later mark makes the text too long for one that begins here
          intro longer
          obtain ⟨after, same⟩ := eq_of_beforeMark inner
          refine marked (List.isPrefixOf_iff_prefix.mpr
            (List.prefix_of_prefix_length_le
              (List.isPrefixOf_iff_prefix.mp longer)
              (List.prefix_append (char :: chars) rest) ?_))
          rw [same]
          simp only [List.length_cons, List.length_append]
          omega

/-- After whole lines without a mark, the mark is that of the rest. -/
theorem beforeMark_append_of_none {chars rest : List Char}
    (unmarked : beforeMark chars = none)
    (ends : chars.getLast? = some '\n')
    (goesOn : rest.head? ≠ some '-') :
    beforeMark (chars ++ rest) = (beforeMark rest).map (chars ++ ·) := by
  induction chars with
  | nil => simp at ends
  | cons char chars induction =>
      rw [beforeMark_cons] at unmarked
      split_ifs at unmarked with marked
      rw [Option.map_eq_none_iff] at unmarked
      have here : ¬frontmatterMark.isPrefixOf (char :: (chars ++ rest)) := by
        intro longer
        have whole := List.isPrefixOf_iff_prefix.mp longer
        have short : (char :: chars).length ≤ frontmatterMark.length := by
          by_contra long
          exact marked (List.isPrefixOf_iff_prefix.mpr
            (List.prefix_of_prefix_length_le whole
              (List.prefix_append (char :: chars) rest) (not_le.mp long).le))
        have part := List.prefix_of_prefix_length_le
          (List.prefix_append (char :: chars) rest) whole short
        rw [frontmatterMark_eq] at whole part
        rcases chars with _ | ⟨second, _ | ⟨third, _ | ⟨fourth, more⟩⟩⟩
        · rcases rest with _ | ⟨first, rest⟩
          · simp at whole
          · simp only [List.nil_append, List.cons_prefix_cons] at whole
            exact goesOn (congrArg some whole.2.1.symm)
        · simp_all
        · simp_all
        · simp_all
      rw [List.cons_append, beforeMark_cons, if_neg here]
      rcases chars with _ | ⟨second, more⟩
      · simp
      · have later : (second :: more).getLast? = some '\n' := by
          rwa [List.getLast?_cons_cons] at ends
        rw [induction unmarked later, Option.map_map]
        rfl

theorem all_of_matchTenantLine {chars name : List Char}
    (found : matchTenantLine chars = some name) :
    ∀ char ∈ name, isTenantNameChar char = true := by
  rw [matchTenantLine_eq] at found
  split_ifs at found
  unfold keyedName quotedName at found
  split at found
  · split at found
    · split_ifs at found
      obtain rfl := Option.some.inj found
      exact fun char member => List.mem_takeWhile_imp member
    · simp at found
  · simp at found

theorem all_of_findTenantLine {atStart : Bool} {chars name : List Char}
    (found : findTenantLine atStart chars = some name) :
    ∀ char ∈ name, isTenantNameChar char = true := by
  induction chars generalizing atStart with
  | nil => simp [findTenantLine] at found
  | cons char chars induction =>
      rw [findTenantLine_cons, Option.or_eq_some_iff] at found
      rcases found with here | ⟨-, later⟩
      · split_ifs at here
        exact all_of_matchTenantLine here
      · exact induction later

def isTenantName (tenantId : String) : Bool :=
  tenantId.toList.all isTenantNameChar

theorem isTenantName_of_readFileTenant {text tenantId : String}
    (found : readFileTenant text = some tenantId) :
    isTenantName tenantId = true := by
  unfold readFileTenant at found
  split_ifs at found
  split at found
  · simp at found
  · obtain ⟨name, inner, rfl⟩ := Option.map_eq_some_iff.mp found
    unfold isTenantName
    rw [String.toList_ofList, List.all_eq_true]
    exact all_of_findTenantLine inner

/-- A line that names the tenant, without its line feed. -/
def tenantLine (tenantId : List Char) : List Char :=
  tenantKey ++ ' ' :: '"' :: (tenantId ++ ['"'])

theorem matchTenantLine_tenantLine {tenantId rest : List Char}
    (clean : ∀ char ∈ tenantId, isTenantNameChar char = true)
    (ends : endsLine rest = true) :
    matchTenantLine (tenantLine tenantId ++ rest) = some tenantId := by
  have stopped : isTenantNameChar '"' = false := by decide
  have isSplit : tenantLine tenantId ++ rest =
      tenantKey ++ ' ' :: '"' :: (tenantId ++ '"' :: rest) := by
    simp [tenantLine]
  have keyed : tenantKey.isPrefixOf
      (tenantKey ++ ' ' :: '"' :: (tenantId ++ '"' :: rest)) = true :=
    List.isPrefixOf_iff_prefix.mpr (List.prefix_append _ _)
  have named : quotedName (tenantId ++ '"' :: rest) = some tenantId := by
    unfold quotedName
    rw [dropWhile_append_stop tenantId rest stopped,
      takeWhile_append_stop tenantId rest stopped,
      List.dropWhile_eq_nil_iff.mpr clean, List.takeWhile_eq_self_iff.mpr clean]
    change (if endsLine rest then some tenantId else none) = some tenantId
    rw [if_pos ends]
  rw [isSplit, matchTenantLine_eq, if_pos keyed, List.drop_left]
  exact named

theorem oneLine_tenantLine {tenantId : List Char}
    (clean : ∀ char ∈ tenantId, isTenantNameChar char = true) :
    ∀ char ∈ tenantLine tenantId, char ≠ '\n' := by
  have inKey : ∀ char ∈ tenantKey, char ≠ '\n' :=
    List.all_iff_forall_prop.mp (by decide)
  intro char member
  simp only [tenantLine, List.mem_append, List.mem_cons, List.not_mem_nil,
    or_false] at member
  rcases member with member | rfl | rfl | member | rfl
  · exact inKey char member
  · decide
  · decide
  · have named := clean char member
    simp only [isTenantNameChar, Bool.and_eq_true, decide_eq_true_eq] at named
    exact named.2
  · decide

theorem beforeMark_within {chars : List Char}
    (oneLine : ∀ char ∈ chars, char ≠ '\n') (rest : List Char) :
    beforeMark (chars ++ rest) = (beforeMark rest).map (chars ++ ·) := by
  induction chars with
  | nil => simp
  | cons char chars induction =>
      obtain ⟨first, later⟩ := List.forall_mem_cons.mp oneLine
      have unmarked : frontmatterMark.isPrefixOf (char :: (chars ++ rest)) =
          false := by
        rw [frontmatterMark_eq, List.isPrefixOf, beq_false_of_ne (Ne.symm first)]
        rfl
      rw [List.cons_append, beforeMark_cons, unmarked, induction later,
        if_neg Bool.false_ne_true, Option.map_map]
      rfl

/-- A file that says nothing but its tenant. -/
def bareFile (tenantId : String) : String :=
  String.ofList ('-' :: '-' :: '-' :: '\n' ::
    (tenantLine tenantId.toList ++ frontmatterMark))

theorem readFileTenant_bareFile {tenantId : String}
    (isName : isTenantName tenantId = true) :
    readFileTenant (bareFile tenantId) = some tenantId := by
  have clean : ∀ char ∈ tenantId.toList, isTenantNameChar char = true :=
    List.all_eq_true.mp isName
  have oneLine := oneLine_tenantLine clean
  have closing : beforeMark frontmatterMark = some [] := by decide
  have front : beforeMark ('\n' :: (tenantLine tenantId.toList ++
      frontmatterMark)) = some ('\n' :: tenantLine tenantId.toList) := by
    have unmarked : frontmatterMark.isPrefixOf
        ('\n' :: (tenantLine tenantId.toList ++ frontmatterMark)) = false := by
      rw [frontmatterMark_eq, tenantLine, tenantKey_eq]
      rfl
    rw [beforeMark_cons, unmarked, beforeMark_within oneLine, closing]
    simp
  have dashes : "---".toList = ['-', '-', '-'] := by decide
  have dash := matchTenantLine_of_ne (by decide : '-' ≠ 't')
  have lineFeed := matchTenantLine_of_ne (by decide : '\n' ≠ 't')
  have inLine : isLineTerminator '-' = false := by decide
  have newLine : isLineTerminator '\n' = true := by decide
  have own := matchTenantLine_tenantLine clean (by rfl : endsLine [] = true)
  rw [List.append_nil] at own
  have found : findTenantLine true ('-' :: '-' :: '-' :: '\n' ::
      tenantLine tenantId.toList) = some tenantId.toList := by
    rw [findTenantLine_cons, findTenantLine_cons, findTenantLine_cons,
      findTenantLine_cons, dash, inLine, newLine]
    have starts : tenantLine tenantId.toList = 't' ::
        (tenantLine tenantId.toList).tail := by
      simp [tenantLine, tenantKey_eq]
    rw [starts, findTenantLine_cons, ← starts, own]
    rfl
  unfold readFileTenant bareFile
  rw [dashes, String.toList_ofList]
  rw [if_pos (by rfl)]
  have behind : ('-' :: '-' :: '-' :: '\n' :: (tenantLine tenantId.toList ++
      frontmatterMark)).drop 3 =
      '\n' :: (tenantLine tenantId.toList ++ frontmatterMark) := rfl
  rw [behind]
  rw [front]
  change (findTenantLine true ('-' :: '-' :: '-' :: '\n' ::
    tenantLine tenantId.toList)).map String.ofList = some tenantId
  rw [found]
  simp

/-- The tenant of the frontmatter that ends at the first mark. -/
def frontTenant (chars : List Char) : Option (List Char) :=
  (beforeMark chars).bind (findTenantLine true)

/-- Lines that end as the formatter ends a quoted line and name no tenant. -/
structure IsQuiet (chunk : List Char) : Prop where
  closed : ∃ chars, chunk = chars ++ ['"', '\n']
  unnamed : findTenantLine true chunk = none

/-- Quiet lines that do not close the frontmatter either. -/
structure IsSilent (chunk : List Char) : Prop extends IsQuiet chunk where
  unmarked : beforeMark chunk = none

theorem getLast?_closed (chars : List Char) :
    (chars ++ ['"', '\n']).getLast? = some '\n' := by
  simp

theorem frontTenant_silent {chunk rest : List Char} (silent : IsSilent chunk)
    (goesOn : rest.head? ≠ some '-') :
    frontTenant (chunk ++ rest) = frontTenant rest := by
  obtain ⟨⟨⟨chars, rfl⟩, unnamed⟩, unmarked⟩ := silent
  unfold frontTenant
  rw [beforeMark_append_of_none unmarked (getLast?_closed chars) goesOn,
    Option.bind_map]
  congr 1
  funext front
  have found := findTenantLine_closed true chars front
  rw [unnamed, Option.none_or] at found
  simpa using found

theorem endsLine_append {chars : List Char} (ends : endsLine chars = true)
    (rest : List Char) : endsLine (chars ++ '\n' :: rest) = true := by
  have stopped : isInlineSpace '\n' = false := by decide
  rw [endsLine_eq] at ends ⊢
  rw [dropWhile_append_stop chars rest stopped]
  cases shape : chars.dropWhile isInlineSpace with
  | nil => rfl
  | cons char more =>
      rw [shape] at ends
      exact ends

theorem quotedName_append {value name : List Char}
    (found : quotedName value = some name) (rest : List Char) :
    quotedName (value ++ '\n' :: rest) = some name := by
  unfold quotedName at found ⊢
  split at found
  · rename_i after dropped
    split_ifs at found with ends
    obtain rfl := Option.some.inj found
    have taken : (value ++ '\n' :: rest).takeWhile isTenantNameChar =
        value.takeWhile isTenantNameChar :=
      takeWhile_append_stop value rest (by decide)
    rw [dropWhile_append_stop value rest (by decide), dropped, taken]
    change (if endsLine (after ++ '\n' :: rest) then _ else _) = _
    rw [if_pos (endsLine_append ends rest)]
  · simp at found

/-- A match before a line feed stands whatever follows. -/
theorem matchTenantLine_append {chars name : List Char}
    (found : matchTenantLine chars = some name) (rest : List Char) :
    matchTenantLine (chars ++ '\n' :: rest) = some name := by
  rw [matchTenantLine_eq] at found ⊢
  split_ifs at found with keyed
  obtain ⟨value, rfl⟩ := List.isPrefixOf_iff_prefix.mp keyed
  have longer : tenantKey.isPrefixOf (tenantKey ++ value ++ '\n' :: rest) := by
    rw [List.append_assoc]
    exact List.isPrefixOf_iff_prefix.mpr (List.prefix_append _ _)
  rw [if_pos longer, List.append_assoc, List.drop_left]
  rw [List.drop_left] at found
  unfold keyedName at found ⊢
  split at found
  · rename_i name' dropped
    have goesOn : (value ++ '\n' :: rest).dropWhile isTrimmedSpace =
        '"' :: (name' ++ '\n' :: rest) := by
      rw [List.dropWhile_append, dropped]
      rfl
    rw [goesOn]
    exact quotedName_append found rest
  · simp at found

theorem findTenantLine_append {atStart : Bool} {chars : List Char}
    (found : (findTenantLine atStart chars).isSome = true) (rest : List Char) :
    (findTenantLine atStart (chars ++ '\n' :: rest)).isSome = true := by
  induction chars generalizing atStart with
  | nil => simp [findTenantLine] at found
  | cons char chars induction =>
      rw [findTenantLine_cons, Option.isSome_or, Bool.or_eq_true] at found
      rw [List.cons_append, findTenantLine_cons, Option.isSome_or,
        Bool.or_eq_true]
      refine found.imp (fun here => ?_) induction
      split_ifs at here ⊢ with starts
      · obtain ⟨name, matched⟩ := Option.isSome_iff_exists.mp here
        rw [← List.cons_append, matchTenantLine_append matched rest]
        rfl
      · exact here

theorem frontTenant_marked {chunk front : List Char} (quiet : IsQuiet chunk)
    (marked : beforeMark chunk = some front) (rest : List Char) :
    frontTenant (chunk ++ rest) = none := by
  unfold frontTenant
  rw [beforeMark_append_of_some marked, Option.bind_some]
  by_contra named
  obtain ⟨more, whole⟩ := eq_of_beforeMark marked
  have found := findTenantLine_append (Option.isSome_iff_ne_none.mpr named)
    ('-' :: '-' :: '-' :: more)
  have same : chunk = front ++ '\n' :: '-' :: '-' :: '-' :: more := by
    rw [whole, frontmatterMark_eq, List.append_assoc]
    rfl
  rw [← same, quiet.unnamed] at found
  exact Bool.false_ne_true found

theorem frontTenant_named {chars name rest : List Char}
    (named : findTenantLine true (chars ++ ['"', '\n']) = some name)
    (unmarked : beforeMark (chars ++ ['"', '\n']) = none)
    (goesOn : rest.head? ≠ some '-') :
    frontTenant (chars ++ ['"', '\n'] ++ rest) =
      (beforeMark rest).map fun _ => name := by
  unfold frontTenant
  rw [beforeMark_append_of_none unmarked (getLast?_closed chars) goesOn]
  cases beforeMark rest with
  | none => rfl
  | some front =>
      have found := findTenantLine_closed true chars front
      rw [named, Option.some_or] at found
      simpa using found

end Registrar
