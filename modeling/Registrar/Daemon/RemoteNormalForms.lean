import Registrar.Daemon.RemoteUrl
import Registrar.Library.LetterCase
import Mathlib.Data.List.Forall2

/-!
# Normal forms of remote addresses

When the identity of a remote is its own identity.  Four things can be left of
an address that a second pass would take away: a space at either end, an `@`
before the first separator, and a `.git`.
-/

namespace Registrar

open LetterCase

theorem exists_first {accepted : Char → Bool} (url : List Char) :
    (∀ char ∈ url, accepted char = false) ∨
      ∃ before stop after, url = before ++ stop :: after ∧
        accepted stop = true ∧ ∀ char ∈ before, accepted char = false := by
  induction url with
  | nil => exact .inl nofun
  | cons char url induction =>
      cases stops : accepted char with
      | true => exact .inr ⟨[], char, url, rfl, stops, nofun⟩
      | false =>
          rcases induction with unstopped |
            ⟨before, stop, after, rfl, stopped, unstopped⟩
          · exact .inl (List.forall_mem_cons.mpr ⟨stops, unstopped⟩)
          · exact .inr ⟨char :: before, stop, after, rfl, stopped,
              List.forall_mem_cons.mpr ⟨stops, unstopped⟩⟩

theorem idxOf_append_cons {before : List Char} {char : Char}
    (after : List Char) (fresh : char ∉ before) :
    (before ++ char :: after).idxOf char = before.length := by
  rw [List.idxOf_append_of_notMem fresh, List.idxOf_cons_self, Nat.add_zero]

theorem stripUserInfo_at {before after : List Char} (noUser : '@' ∉ before)
    (slash : '/' ∉ before) :
    stripUserInfo (before ++ '@' :: after) = after := by
  have index := idxOf_append_cons after noUser
  have later : '/' ∉ before ++ '@' :: after ∨
      before.length < (before ++ '@' :: after).idxOf '/' := by
    right
    rw [List.idxOf_append_of_notMem slash, List.idxOf_cons_ne _ (by decide)]
    omega
  simp only [stripUserInfo, index]
  rw [if_pos ⟨by simp, later⟩, List.drop_append,
    List.drop_eq_nil_of_le (by omega)]
  simp

theorem stripUserInfo_slash {before after : List Char} (noUser : '@' ∉ before) :
    stripUserInfo (before ++ '/' :: after) = before ++ '/' :: after := by
  have slashes : (before ++ '/' :: after).idxOf '/' ≤ before.length := by
    have bound := List.idxOf_lt_length_of_mem
      (show '/' ∈ before ++ ['/'] by simp)
    rw [List.append_cons, List.idxOf_append_of_mem (by simp)]
    simp only [List.length_append, List.length_singleton] at bound
    omega
  have ats : before.length ≤ (before ++ '/' :: after).idxOf '@' := by
    rw [List.idxOf_append_of_notMem noUser]
    omega
  refine if_neg ?_
  rintro ⟨-, missing | early⟩
  · exact missing (by simp)
  · omega

theorem stripUserInfo_eq_self {url : List Char} (noUser : '@' ∉ url) :
    stripUserInfo url = url :=
  if_neg fun found => noUser found.1

theorem convertScp_colon {before after : List Char} (colon : ':' ∉ before)
    (slash : '/' ∉ before) :
    convertScp (before ++ ':' :: after) =
      if looksLikePort after then before ++ ':' :: after
      else before ++ '/' :: after := by
  have index := idxOf_append_cons after colon
  simp only [convertScp, index]
  rw [List.take_left, if_pos ⟨by simp, slash⟩, List.drop_append,
    List.drop_eq_nil_of_le (by omega)]
  simp

theorem convertScp_slash {before after : List Char} (colon : ':' ∉ before) :
    convertScp (before ++ '/' :: after) = before ++ '/' :: after := by
  refine if_neg ?_
  rintro ⟨-, early⟩
  refine early ?_
  rw [List.idxOf_append_of_notMem colon, List.idxOf_cons_ne _ (by decide),
    List.take_length_add_append, List.take_succ_cons]
  simp

theorem convertScp_eq_self {url : List Char} (colon : ':' ∉ url) :
    convertScp url = url :=
  if_neg fun found => colon found.1

theorem length_of_isGit {text : List Char} (git : isGit text = true) :
    text.length = 4 := by
  have same := congrArg List.length (of_decide_eq_true git)
  rwa [List.length_map] at same

theorem stripGitSuffix_append {url git : List Char}
    (spellsGit : isGit git = true) :
    stripGitSuffix (url ++ git) = url := by
  have four := length_of_isGit spellsGit
  have split : (url ++ git).length - 4 = url.length := by
    rw [List.length_append]
    omega
  rw [stripGitSuffix, split, List.drop_left, if_pos spellsGit, List.take_left]

def EndsInGit (url : List Char) : Prop :=
  ∃ front git, url = front ++ git ∧ isGit git = true

theorem endsInGit_iff {url : List Char} :
    EndsInGit url ↔ isGit (url.drop (url.length - 4)) = true := by
  constructor
  · rintro ⟨front, git, rfl, spellsGit⟩
    have four := length_of_isGit spellsGit
    rwa [List.length_append, four, Nat.add_sub_cancel, List.drop_left]
  · intro spellsGit
    exact ⟨_, _, (List.take_append_drop _ url).symm, spellsGit⟩

theorem stripGitSuffix_eq_self {url : List Char} (git : ¬ EndsInGit url) :
    stripGitSuffix url = url :=
  if_neg (mt endsInGit_iff.mpr git)

/-- An address is its own when stripped, or what stands before a `.git`. -/
theorem stripGitSuffix_cases (url : List Char) :
    stripGitSuffix url = url ∨
      ∃ git, isGit git = true ∧ url = stripGitSuffix url ++ git := by
  by_cases ends : EndsInGit url
  · obtain ⟨front, git, rfl, spellsGit⟩ := ends
    exact .inr ⟨git, spellsGit, by rw [stripGitSuffix_append spellsGit]⟩
  · exact .inl (stripGitSuffix_eq_self ends)

theorem stripProtocol_suffix (url : List Char) : stripProtocol url <:+ url := by
  simp only [stripProtocol]
  split
  · rename_i rest kept
    split
    · exact List.suffix_rfl
    · have tail : url.dropWhile isProtocolChar <:+ url :=
        List.dropWhile_suffix isProtocolChar
      rw [kept] at tail
      exact List.IsSuffix.trans ⟨"://".toList, rfl⟩ tail
  · exact List.suffix_rfl

theorem stripUserInfo_suffix (url : List Char) : stripUserInfo url <:+ url := by
  unfold stripUserInfo
  dsimp only
  split
  · exact List.drop_suffix _ url
  · exact List.suffix_rfl

theorem stripGitSuffix_isFront (url : List Char) :
    stripGitSuffix url <+: url := by
  unfold stripGitSuffix
  split
  · exact List.take_prefix _ url
  · exact List.prefix_rfl

def isStop (char : Char) : Bool :=
  char == ':' || char == '/'

theorem notMem_of_isStop {before : List Char}
    (unstopped : ∀ char ∈ before, isStop char = false) :
    ':' ∉ before ∧ '/' ∉ before :=
  ⟨fun member => absurd (unstopped _ member) (by decide),
    fun member => absurd (unstopped _ member) (by decide)⟩

theorem convertScp_cases (url : List Char) :
    convertScp url = url ∨ ∃ before after, url = before ++ ':' :: after ∧
      (∀ char ∈ before, isStop char = false) ∧
      convertScp url = before ++ '/' :: after := by
  rcases @exists_first isStop url with unstopped | ⟨before, stop, after, rfl, stopped,
    unstopped⟩
  · exact .inl (convertScp_eq_self (notMem_of_isStop (unstopped)).1)
  · obtain ⟨colon, slash⟩ := notMem_of_isStop unstopped
    rcases Bool.or_eq_true_iff.mp stopped with isColon | isSlash
    · obtain rfl := beq_iff_eq.mp isColon
      rw [convertScp_colon colon slash]
      cases looksLikePort after with
      | true => exact .inl rfl
      | false => exact .inr ⟨before, after, rfl, unstopped, rfl⟩
    · obtain rfl := beq_iff_eq.mp isSlash
      exact .inl (convertScp_slash colon)

theorem looksLikePort_iff {after : List Char} :
    looksLikePort after = true ↔ ∃ digits rest, after = digits ++ rest ∧
      digits ≠ [] ∧ (∀ char ∈ digits, char.isDigit = true) ∧
      (rest = [] ∨ ∃ tail, rest = '/' :: tail) := by
  constructor
  · intro port
    simp only [looksLikePort, Bool.and_eq_true, decide_eq_true_eq] at port
    refine ⟨_, _, List.takeWhile_append_dropWhile.symm, port.1,
      fun char member => List.mem_takeWhile_imp member, ?_⟩
    cases rest : after.dropWhile Char.isDigit with
    | nil => exact .inl rfl
    | cons char tail =>
        rw [rest] at port
        exact .inr ⟨tail, by rw [beq_iff_eq.mp port.2]⟩
  · rintro ⟨digits, rest, rfl, nonempty, all, closed⟩
    have stopped : rest.takeWhile Char.isDigit = [] ∧
        rest.dropWhile Char.isDigit = rest := by
      rcases closed with rfl | ⟨tail, rfl⟩
      · exact ⟨rfl, rfl⟩
      · exact ⟨rfl, rfl⟩
    simp only [looksLikePort, Bool.and_eq_true, decide_eq_true_eq]
    rw [List.takeWhile_append_of_pos all, List.dropWhile_append_of_pos all,
      stopped.1, stopped.2, List.append_nil]
    refine ⟨nonempty, ?_⟩
    rcases closed with rfl | ⟨tail, rfl⟩
    · rfl
    · rfl

theorem convertScp_eq_self_iff {url : List Char} :
    convertScp url = url ↔ ∀ before after, url = before ++ ':' :: after →
      (∀ char ∈ before, isStop char = false) → looksLikePort after = true := by
  constructor
  · rintro same before after rfl unstopped
    obtain ⟨colon, slash⟩ := notMem_of_isStop unstopped
    by_contra noPort
    rw [convertScp_colon colon slash, if_neg noPort] at same
    have char := List.append_cancel_left same
    cases char
  · intro ports
    rcases convertScp_cases url with same | ⟨before, after, rfl, unstopped, -⟩
    · exact same
    · obtain ⟨colon, slash⟩ := notMem_of_isStop unstopped
      rw [convertScp_colon colon slash, if_pos (ports before after rfl unstopped)]

theorem convertScp_convertScp (url : List Char) :
    convertScp (convertScp url) = convertScp url := by
  rcases convertScp_cases url with same | ⟨before, after, -, unstopped, made⟩
  · rw [same, same]
  · rw [made, convertScp_slash (notMem_of_isStop unstopped).1]

theorem mem_of_isGit {git : List Char} {char : Char}
    (spellsGit : isGit git = true) (member : char ∈ git) :
    char.toLower ∈ ".git".toList :=
  of_decide_eq_true spellsGit ▸ List.mem_map_of_mem member

theorem slash_notMem_of_isGit {git : List Char} (spellsGit : isGit git = true) :
    '/' ∉ git :=
  fun member => absurd (mem_of_isGit spellsGit member) (by decide)

theorem dot_mem_of_isGit {git : List Char} (spellsGit : isGit git = true) :
    '.' ∈ git := by
  have same := of_decide_eq_true spellsGit
  cases git with
  | nil => cases same
  | cons char rest =>
      have dot : char.toLower = '.' := (List.cons.inj same).1
      cases upper : char.isUpper with
      | true =>
          have letter := isAlpha_toLower upper
          rw [dot] at letter
          cases letter
      | false =>
          rw [toLower_of_not_isUpper upper] at dot
          rw [dot]
          exact List.mem_cons_self

theorem looksLikePort_of_append {after git : List Char}
    (spellsGit : isGit git = true) (port : looksLikePort (after ++ git) = true) :
    looksLikePort after = true := by
  obtain ⟨digits, rest, split, nonempty, all, closed⟩ := looksLikePort_iff.mp port
  rw [looksLikePort_iff]
  rcases List.append_eq_append_iff.mp split with ⟨mid, rfl, isGitPart⟩ |
    ⟨mid, rfl, isRest⟩
  · -- The digits would reach into the suffix, which has a dot.
    rcases closed with rfl | ⟨tail, rfl⟩
    · have member := dot_mem_of_isGit spellsGit
      rw [isGitPart, List.append_nil] at member
      cases all '.' (List.mem_append_right after member)
    · exact absurd (by simp [isGitPart]) (slash_notMem_of_isGit spellsGit)
  · refine ⟨digits, mid, rfl, nonempty, all, ?_⟩
    cases mid with
    | nil => exact .inl rfl
    | cons char mid =>
        rcases closed with rfl | ⟨tail, rfl⟩
        · cases isRest
        · obtain ⟨rfl, -⟩ := List.cons.inj isRest
          exact .inr ⟨mid, rfl⟩

theorem convertScp_stripGitSuffix {url : List Char}
    (settled : convertScp url = url) :
    convertScp (stripGitSuffix url) = stripGitSuffix url := by
  rcases stripGitSuffix_cases url with same | ⟨git, spellsGit, split⟩
  · rwa [same]
  · rw [convertScp_eq_self_iff] at settled ⊢
    intro before after front unstopped
    rw [front] at split
    refine looksLikePort_of_append spellsGit
      (settled before (after ++ git) ?_ unstopped)
    rw [split, List.append_assoc, List.cons_append]

theorem isStop_of_isProtocolChar {char : Char}
    (letter : isProtocolChar char = true) : isStop char = false := by
  by_contra stop
  rcases Bool.or_eq_true_iff.mp (Bool.of_not_eq_false stop) with colon | slash
  · rw [beq_iff_eq.mp colon] at letter
    cases letter
  · rw [beq_iff_eq.mp slash] at letter
    cases letter

theorem stripProtocol_eq_self {url : List Char}
    (settled : convertScp url = url) : stripProtocol url = url := by
  simp only [stripProtocol]
  split
  · rename_i rest kept
    split
    · rfl
    · have isSplit := (List.takeWhile_append_dropWhile
        (p := isProtocolChar) (l := url)).symm
      rw [kept] at isSplit
      have port := convertScp_eq_self_iff.mp settled _ _ isSplit (by
        intro char member
        exact isStop_of_isProtocolChar (List.mem_takeWhile_imp member))
      cases port
  · rfl

theorem isMark_of_isTrimmedSpace {char : Char}
    (space : isTrimmedSpace char = true) :
    isMark isTrimmedSpace char = true := by
  have noLetter : char.isAlpha = false := by
    by_contra letter
    simp only [isTrimmedSpace, Bool.or_eq_true, Bool.and_eq_true,
      decide_eq_true_eq, beq_iff_eq] at space
    rcases Bool.or_eq_true_iff.mp (Bool.of_not_eq_false letter) with
      upper | lower
    · have range := isUpper_iff.mp upper
      omega
    · have range := isLower_iff.mp lower
      omega
  simp [isMark, noLetter, space]

theorem looksLikePort_lowers {after lowered : List Char}
    (lowers : Lowers isTrimmedSpace after lowered)
    (port : looksLikePort after = true) : looksLikePort lowered = true := by
  obtain ⟨digits, rest, rfl, nonempty, all, closed⟩ := looksLikePort_iff.mp port
  obtain ⟨first, second, rfl, early, late⟩ := lowers.append
  rw [looksLikePort_iff]
  have same : first = digits := early.eq_of_plain fun char member =>
    isPlain_of_isDigit (all char member)
  refine ⟨digits, second, by rw [same], nonempty, all, ?_⟩
  rcases closed with rfl | ⟨tail, rfl⟩
  · cases late
    exact .inl rfl
  · obtain ⟨before, after, rfl, unstopped, -⟩ :=
      @Lowers.append_mark _ [] tail second '/' late (by decide)
    cases unstopped
    exact .inr ⟨after, rfl⟩

theorem convertScp_lowers {url lowered : List Char}
    (lowers : Lowers isTrimmedSpace url lowered)
    (settled : convertScp url = url) : convertScp lowered = lowered := by
  rcases @exists_first isStop url with unstopped | ⟨before, stop, after, rfl, stopped,
    unstopped⟩
  · refine convertScp_eq_self ?_
    rw [lowers.notMem_of_isMark (by decide)]
    exact (notMem_of_isStop unstopped).1
  · obtain ⟨colon, slash⟩ := notMem_of_isStop unstopped
    rcases Bool.or_eq_true_iff.mp stopped with isColon | isSlash
    · obtain rfl := beq_iff_eq.mp isColon
      have port := convertScp_eq_self_iff.mp settled before after rfl unstopped
      obtain ⟨first, second, rfl, early, late⟩ := lowers.append_mark (by decide)
      rw [convertScp_colon, if_pos (looksLikePort_lowers late port)]
      · rwa [early.notMem_of_isMark (by decide)]
      · rwa [early.notMem_of_isMark (by decide)]
    · obtain rfl := beq_iff_eq.mp isSlash
      obtain ⟨first, second, rfl, early, late⟩ := lowers.append_mark (by decide)
      rw [convertScp_slash]
      rwa [early.notMem_of_isMark (by decide)]

theorem ascii_of_isGit {git : List Char} (spellsGit : isGit git = true) :
    (∀ char ∈ git, char.toNat < 128) ∧ 'k' ∉ git := by
  refine ⟨?_, fun member => absurd (mem_of_isGit spellsGit member) (by decide)⟩
  intro char member
  have lower := mem_of_isGit spellsGit member
  cases upper : char.isUpper with
  | true =>
      have range := isUpper_iff.mp upper
      omega
  | false =>
      rw [toLower_of_not_isUpper upper] at lower
      exact of_decide_eq_true (List.all_eq_true.mp
        (show ".git".toList.all (fun char => decide (char.toNat < 128)) = true
          by decide) char lower)

theorem isGit_of_map_eq {git other : List Char} (spellsGit : isGit git = true)
    (same : other.map Char.toLower = git.map Char.toLower) :
    isGit other = true :=
  decide_eq_true (same.trans (of_decide_eq_true spellsGit))

/-- An `@` or a `/`. -/
def isUserStop (char : Char) : Bool :=
  char == '@' || char == '/'

structure Stable (url : List Char) : Prop where
  front : ∀ char ∈ url.head?, isTrimmedSpace char = false
  back : ∀ char ∈ url.getLast?, isTrimmedSpace char = false
  userInfo : url.find? isUserStop ≠ some '@'
  git : ¬ EndsInGit url

theorem stripUserInfo_cases (url : List Char) :
    (url.find? isUserStop ≠ some '@' ∧ stripUserInfo url = url) ∨
      url.find? isUserStop = some '@' ∧
        ∃ before, url = before ++ '@' :: stripUserInfo url := by
  rcases @exists_first isUserStop url with unstopped | ⟨before, stop, after, rfl,
    stopped, unstopped⟩
  · refine .inl ⟨?_, stripUserInfo_eq_self fun member =>
      absurd (unstopped _ member) (by decide)⟩
    rw [List.find?_eq_none.mpr (by simpa using unstopped)]
    nofun
  · have at' : '@' ∉ before := fun member =>
      absurd (unstopped _ member) (by decide)
    have slash : '/' ∉ before := fun member =>
      absurd (unstopped _ member) (by decide)
    rcases Bool.or_eq_true_iff.mp stopped with isAt | isSlash
    · obtain rfl := beq_iff_eq.mp isAt
      refine .inr ⟨?_, before, by rw [stripUserInfo_at at' slash]⟩
      rw [List.find?_append, List.find?_eq_none.mpr (by simpa using unstopped),
        List.find?_cons_of_pos stopped, Option.none_or]
    · obtain rfl := beq_iff_eq.mp isSlash
      refine .inl ⟨?_, stripUserInfo_slash at'⟩
      rw [List.find?_append, List.find?_eq_none.mpr (by simpa using unstopped),
        List.find?_cons_of_pos stopped]
      decide

theorem Stable.strippedUrl_eq_self {url : List Char} (stable : Stable url)
    (settled : convertScp url = url) : strippedUrl url = url := by
  have noUser : stripUserInfo url = url := by
    rcases stripUserInfo_cases url with ⟨-, same⟩ | ⟨user, -⟩
    · exact same
    · exact absurd user stable.userInfo
  rw [strippedUrl, Trim.trimChars_eq_self _ stable.front stable.back,
    stripProtocol_eq_self settled, noUser, settled,
    stripGitSuffix_eq_self stable.git]

theorem count_strippedUrl_le {url : List Char} {mark : Char}
    (slash : mark ≠ '/') :
    (strippedUrl url).count mark ≤ (stripUserInfo (stripProtocol
      (Trim.trimChars isTrimmedSpace url))).count mark := by
  have shorter := (stripGitSuffix_isFront (convertScp (stripUserInfo
    (stripProtocol (Trim.trimChars isTrimmedSpace url))))).sublist.count_le mark
  refine shorter.trans ?_
  generalize stripUserInfo (stripProtocol
    (Trim.trimChars isTrimmedSpace url)) = address
  rcases convertScp_cases address with same | ⟨before, after, rfl, -, made⟩
  · rw [same]
  · rw [made, List.count_append, List.count_append,
      List.count_cons_of_ne (Ne.symm slash)]
    have more := (List.sublist_cons_self ':' after).count_le mark
    omega

theorem count_strippedUrl_le_trim {url : List Char} {mark : Char}
    (slash : mark ≠ '/') : (strippedUrl url).count mark ≤
      (Trim.trimChars isTrimmedSpace url).count mark :=
  (count_strippedUrl_le slash).trans
    (((stripUserInfo_suffix _).trans
      (stripProtocol_suffix _)).sublist.count_le mark)

/-- What does not stay loses a mark. -/
theorem exists_count_lt {url : List Char} (settled : convertScp url = url)
    (unstable : ¬ Stable url) :
    ∃ mark, isMark isTrimmedSpace mark = true ∧
      (strippedUrl url).count mark < url.count mark := by
  have spaces : ∀ char, isTrimmedSpace char = true → char ≠ '/' := by
    rintro char space rfl
    cases space
  by_cases front : ∀ char ∈ url.head?, isTrimmedSpace char = false
  · by_cases back : ∀ char ∈ url.getLast?, isTrimmedSpace char = false
    · have trimmed := Trim.trimChars_eq_self isTrimmedSpace front back
      rcases stripUserInfo_cases url with ⟨noUser, same⟩ | ⟨-, before, split⟩
      · have ends : EndsInGit url := by
          by_contra git
          exact unstable ⟨front, back, noUser, git⟩
        obtain ⟨rest, git, rfl, spellsGit⟩ := ends
        refine ⟨'.', by decide, ?_⟩
        rw [strippedUrl, trimmed, stripProtocol_eq_self settled, same, settled,
          stripGitSuffix_append spellsGit, List.count_append]
        have dots := List.count_pos_iff.mpr (dot_mem_of_isGit spellsGit)
        omega
      · refine ⟨'@', by decide, ?_⟩
        have fewer := @count_strippedUrl_le url '@' (by decide)
        rw [trimmed, stripProtocol_eq_self settled] at fewer
        have more := congrArg (List.count '@') split
        rw [List.count_append, List.count_cons_self] at more
        omega
    · push Not at back
      obtain ⟨char, last, space⟩ := back
      have space := Bool.of_not_eq_false space
      exact ⟨char, isMark_of_isTrimmedSpace space,
        (count_strippedUrl_le_trim (spaces char space)).trans_lt
          (Trim.count_trimChars_lt_of_getLast? _ last space)⟩
  · push Not at front
    obtain ⟨char, first, space⟩ := front
    have space := Bool.of_not_eq_false space
    exact ⟨char, isMark_of_isTrimmedSpace space,
      (count_strippedUrl_le_trim (spaces char space)).trans_lt
        (Trim.count_trimChars_lt_of_head? _ first space)⟩

theorem endsInGit_lowers {url lowered : List Char}
    (lowers : Lowers isTrimmedSpace url lowered) :
    EndsInGit lowered ↔ EndsInGit url := by
  constructor
  · rintro ⟨front, git, rfl, spellsGit⟩
    obtain ⟨small, other⟩ := ascii_of_isGit spellsGit
    obtain ⟨before, after, rfl, same, -⟩ := lowers.of_append small other
    exact ⟨before, after, rfl, isGit_of_map_eq spellsGit same⟩
  · rintro ⟨front, git, rfl, spellsGit⟩
    obtain ⟨first, second, rfl, -, late⟩ := lowers.append
    exact ⟨first, second, rfl, isGit_of_map_eq spellsGit
      (late.map_toLower (ascii_of_isGit spellsGit).1)⟩

theorem stable_lowers {url lowered : List Char}
    (lowers : Lowers isTrimmedSpace url lowered) :
    Stable lowered ↔ Stable url := by
  have ends (edge : List Char → Option Char)
      (same : ∀ mark, isMark isTrimmedSpace mark = true →
        (edge lowered = some mark ↔ edge url = some mark)) :
      (∀ char ∈ edge lowered, isTrimmedSpace char = false) ↔
        ∀ char ∈ edge url, isTrimmedSpace char = false := by
    constructor
    · intro solid char isEdge
      by_contra space
      have mark := isMark_of_isTrimmedSpace (Bool.of_not_eq_false space)
      exact space (solid char ((same char mark).mpr isEdge))
    · intro solid char isEdge
      by_contra space
      have mark := isMark_of_isTrimmedSpace (Bool.of_not_eq_false space)
      exact space (solid char ((same char mark).mp isEdge))
  have fronts := ends List.head? fun mark marked => lowers.head?_mark marked
  have backs := ends List.getLast? fun mark marked =>
    lowers.getLast?_mark marked
  have users : lowered.find? isUserStop = url.find? isUserStop := by
    rw [← List.head?_filter, ← List.head?_filter, lowers.filter_eq]
    intro mark stop
    rcases Bool.or_eq_true_iff.mp stop with isAt | isSlash
    · rw [beq_iff_eq.mp isAt]
      decide
    · rw [beq_iff_eq.mp isSlash]
      decide
  have gits := endsInGit_lowers lowers
  constructor
  · intro stable
    exact {
      front := fronts.mp stable.front
      back := backs.mp stable.back
      userInfo := users ▸ stable.userInfo
      git := mt gits.mpr stable.git }
  · intro stable
    exact {
      front := fronts.mpr stable.front
      back := backs.mpr stable.back
      userInfo := users.symm ▸ stable.userInfo
      git := mt gits.mp stable.git }

/-! ## The address behind the user-info -/

/-- What an address says after its protocol and its user-info. -/
def addressPart (url : String) : List Char :=
  stripUserInfo (stripProtocol
    (Trim.trimChars isTrimmedSpace url.toList))

/-- An `@` or a separator. -/
def isAnyStop (char : Char) : Bool :=
  char == '@' || isStop char

/-- Nothing is left that a second pass would take away: no space in front of
the address or before its `.git`, no other `@` before the first separator, no
second `.git`. -/
structure Settles (address : List Char) : Prop where
  front : ∀ char ∈ address.head?, isTrimmedSpace char = false
  back : ∀ char ∈ (stripGitSuffix address).getLast?, isTrimmedSpace char = false
  userInfo : address.find? isAnyStop ≠ some '@'
  git : ¬ EndsInGit (stripGitSuffix address)

/-- The two texts agree, but for a `:` that became a `/`. -/
def Agree (url converted : List Char) : Prop :=
  List.Forall₂ (fun char other => char = other ∨ char = ':' ∧ other = '/') url
    converted

theorem agree_refl (url : List Char) : Agree url url :=
  List.forall₂_same.mpr fun _ _ => .inl rfl

theorem agree_convertScp (url : List Char) : Agree url (convertScp url) := by
  rcases convertScp_cases url with same | ⟨before, after, rfl, -, made⟩
  · rw [same]
    exact agree_refl url
  · rw [made]
    exact List.rel_append (agree_refl before)
      (.cons (.inr ⟨rfl, rfl⟩) (agree_refl after))

namespace Agree

variable {url converted : List Char}

theorem eq_of_notMem (agree : Agree url converted) (colon : ':' ∉ url) :
    converted = url := by
  induction agree with
  | nil => rfl
  | cons head tail induction =>
      obtain ⟨first, rest⟩ := not_or.mp (mt List.mem_cons.mpr colon)
      rcases head with rfl | ⟨rfl, -⟩
      · rw [induction rest]
      · exact absurd rfl first

theorem eq_of_notMem' (agree : Agree url converted) (slash : '/' ∉ converted) :
    converted = url := by
  induction agree with
  | nil => rfl
  | cons head tail induction =>
      obtain ⟨first, rest⟩ := not_or.mp (mt List.mem_cons.mpr slash)
      rcases head with rfl | ⟨-, rfl⟩
      · rw [induction rest]
      · exact absurd rfl first

theorem isGit_eq (agree : Agree url converted) :
    isGit converted = isGit url := by
  rw [Bool.eq_iff_iff]
  constructor
  · intro spellsGit
    rwa [← agree.eq_of_notMem' (slash_notMem_of_isGit spellsGit)]
  · intro spellsGit
    rwa [agree.eq_of_notMem
      fun member => absurd (mem_of_isGit spellsGit member) (by decide)]

theorem drop_isGit_eq (agree : Agree url converted) :
    isGit (converted.drop (converted.length - 4)) =
      isGit (url.drop (url.length - 4)) := by
  rw [← List.Forall₂.length_eq agree]
  exact isGit_eq (List.forall₂_drop _ agree)

theorem endsInGit (agree : Agree url converted) :
    EndsInGit converted ↔ EndsInGit url := by
  rw [endsInGit_iff, endsInGit_iff, agree.drop_isGit_eq]

theorem stripGitSuffix (agree : Agree url converted) :
    Agree (stripGitSuffix url) (stripGitSuffix converted) := by
  unfold Registrar.stripGitSuffix
  rw [agree.drop_isGit_eq, ← List.Forall₂.length_eq agree]
  split
  · exact List.forall₂_take _ agree
  · exact agree

theorem head?_space (agree : Agree url converted) {char : Char}
    (space : isTrimmedSpace char = true) :
    converted.head? = some char ↔ url.head? = some char := by
  cases agree with
  | nil => rfl
  | cons head tail =>
      rcases head with rfl | ⟨rfl, rfl⟩
      · rfl
      · constructor
        · intro same
          obtain rfl := Option.some_inj.mp same
          cases space
        · intro same
          obtain rfl := Option.some_inj.mp same
          cases space

theorem getLast?_space (agree : Agree url converted) {char : Char}
    (space : isTrimmedSpace char = true) :
    converted.getLast? = some char ↔ url.getLast? = some char := by
  rw [← List.head?_reverse, ← List.head?_reverse]
  exact head?_space (List.forall₂_reverse_iff.mpr agree) space

end Agree

theorem find?_first {accepted : Char → Bool} {before after : List Char}
    {stop : Char} (unstopped : ∀ char ∈ before, accepted char = false)
    (stopped : accepted stop = true) :
    (before ++ stop :: after).find? accepted = some stop := by
  rw [List.find?_append, List.find?_eq_none.mpr (by simpa using unstopped),
    List.find?_cons_of_pos stopped, Option.none_or]

theorem isUserStop_eq_false {char : Char} (other : isAnyStop char = false) :
    isUserStop char = false := by
  simp only [isAnyStop, isStop, isUserStop, Bool.or_eq_false_iff] at other ⊢
  exact ⟨other.1, other.2.2⟩

/-- No user-info ends behind a port. -/
theorem find?_port {before after : List Char}
    (unstopped : ∀ char ∈ before, isAnyStop char = false)
    (port : looksLikePort after = true) :
    (before ++ ':' :: after).find? isUserStop ≠ some '@' := by
  obtain ⟨digits, rest, rfl, -, all, closed⟩ := looksLikePort_iff.mp port
  have front : ∀ char ∈ before ++ ':' :: digits, isUserStop char = false := by
    intro char member
    rcases List.mem_append.mp member with early | late
    · exact isUserStop_eq_false (unstopped char early)
    · rcases List.mem_cons.mp late with rfl | digit
      · rfl
      · by_contra stop
        have inDigits := all char digit
        rcases Bool.or_eq_true_iff.mp (Bool.of_not_eq_false stop) with
          isUser | slash
        · rw [beq_iff_eq.mp isUser] at inDigits
          cases inDigits
        · rw [beq_iff_eq.mp slash] at inDigits
          cases inDigits
  rcases closed with rfl | ⟨tail, rfl⟩
  · rw [List.append_nil, List.find?_eq_none.mpr (by simpa using front)]
    nofun
  · rw [← List.cons_append, ← List.append_assoc,
      find?_first front (show isUserStop '/' = true by decide)]
    decide

/-- The user-info that a second pass would find ends at an `@` before the first
separator. -/
theorem find?_convertScp (address : List Char) :
    (convertScp address).find? isUserStop = some '@' ↔
      address.find? isAnyStop = some '@' := by
  rcases @exists_first isAnyStop address with unstopped | ⟨before, stop, after, rfl,
    stopped, unstopped⟩
  · have colon : ':' ∉ address := fun member =>
      absurd (unstopped _ member) (by decide)
    have users : ∀ char ∈ address, isUserStop char = false :=
      fun char member => isUserStop_eq_false (unstopped char member)
    rw [convertScp_eq_self colon, List.find?_eq_none.mpr (by simpa using users),
      List.find?_eq_none.mpr (by simpa using unstopped)]
  · have users : ∀ char ∈ before, isUserStop char = false :=
      fun char member => isUserStop_eq_false (unstopped char member)
    have colon : ':' ∉ before := fun member =>
      absurd (unstopped _ member) (by decide)
    have slash : '/' ∉ before := fun member =>
      absurd (unstopped _ member) (by decide)
    rw [find?_first unstopped stopped]
    rcases Bool.or_eq_true_iff.mp stopped with isAt | separator
    · obtain rfl := beq_iff_eq.mp isAt
      refine iff_of_true ?_ rfl
      -- A colon that is converted stands behind the `@`.
      rcases convertScp_cases (before ++ '@' :: after) with same |
        ⟨front, rest, split, -, made⟩
      · rw [same, find?_first users (by decide)]
      · rcases List.append_eq_append_iff.mp split with ⟨mid, rfl, tail⟩ |
          ⟨mid, rfl, tail⟩
        · cases mid with
          | nil => cases tail
          | cons char mid =>
              obtain ⟨rfl, -⟩ := List.cons.inj tail
              rw [made, List.append_assoc, List.cons_append,
                find?_first users (by decide)]
        · cases mid with
          | nil => cases tail
          | cons char mid =>
              obtain ⟨rfl, -⟩ := List.cons.inj tail
              exact absurd (by simp) colon
    · rcases Bool.or_eq_true_iff.mp separator with isColon | isSlash
      · obtain rfl := beq_iff_eq.mp isColon
        refine iff_of_false ?_ (by decide)
        rw [convertScp_colon colon slash]
        cases port : looksLikePort after with
        | true => exact find?_port unstopped port
        | false =>
            rw [if_neg Bool.false_ne_true, find?_first users (by decide)]
            decide
      · obtain rfl := beq_iff_eq.mp isSlash
        refine iff_of_false ?_ (by decide)
        rw [convertScp_slash colon, find?_first users (by decide)]
        decide

theorem find?_stripGitSuffix (url : List Char) :
    (stripGitSuffix url).find? isUserStop = url.find? isUserStop := by
  rcases stripGitSuffix_cases url with same | ⟨git, spellsGit, split⟩
  · rw [same]
  · have unfound : git.find? isUserStop = none := by
      rw [List.find?_eq_none]
      intro char member stop
      have lower := mem_of_isGit spellsGit member
      rcases Bool.or_eq_true_iff.mp stop with isUser | slash
      · rw [beq_iff_eq.mp isUser] at lower
        exact absurd lower (by decide)
      · rw [beq_iff_eq.mp slash] at lower
        exact absurd lower (by decide)
    conv_rhs => rw [split, List.find?_append, unfound, Option.or_none]

theorem not_isTrimmedSpace_of_isGit {git : List Char} {char : Char}
    (spellsGit : isGit git = true) (member : char ∈ git) :
    isTrimmedSpace char ≠ true := by
  intro space
  have plain := isPlain_of_isMark (isMark_of_isTrimmedSpace space)
  simp only [isPlain, Bool.and_eq_true, Bool.not_eq_true'] at plain
  have lower := mem_of_isGit spellsGit member
  rw [toLower_of_not_isUpper plain.1] at lower
  have solid : ".git".toList.all (fun char => !isTrimmedSpace char) = true := by
    decide
  have other := List.all_eq_true.mp solid char lower
  rw [space] at other
  cases other

theorem head?_stripGitSuffix {url : List Char} {char : Char}
    (space : isTrimmedSpace char = true) :
    (stripGitSuffix url).head? = some char ↔ url.head? = some char := by
  rcases stripGitSuffix_cases url with same | ⟨git, spellsGit, split⟩
  · rw [same]
  · cases stripped : stripGitSuffix url with
    | cons first rest => rw [split, stripped, List.cons_append, List.head?_cons,
        List.head?_cons]
    | nil =>
        rw [stripped, List.nil_append] at split
        rw [split]
        refine iff_of_false (by simp) ?_
        intro first
        exact not_isTrimmedSpace_of_isGit spellsGit (List.mem_of_mem_head? first)
          space

theorem settles_iff (address : List Char) :
    Settles address ↔ Stable (stripGitSuffix (convertScp address)) := by
  have agree := (agree_convertScp address).stripGitSuffix
  have fronts {char : Char} (space : isTrimmedSpace char = true) :
      (stripGitSuffix (convertScp address)).head? = some char ↔
        address.head? = some char := by
    rw [head?_stripGitSuffix space]
    exact (agree_convertScp address).head?_space space
  have users : (stripGitSuffix (convertScp address)).find? isUserStop =
      some '@' ↔ address.find? isAnyStop = some '@' := by
    rw [find?_stripGitSuffix, find?_convertScp]
  constructor
  · intro settles
    exact {
      front := fun char first => by
        by_contra space
        exact space (settles.front char
          ((fronts (Bool.of_not_eq_false space)).mp first))
      back := fun char last => by
        by_contra space
        exact space (settles.back char
          ((agree.getLast?_space (Bool.of_not_eq_false space)).mp last))
      userInfo := mt users.mp settles.userInfo
      git := mt agree.endsInGit.mp settles.git }
  · intro stable
    exact {
      front := fun char first => by
        by_contra space
        exact space (stable.front char
          ((fronts (Bool.of_not_eq_false space)).mpr first))
      back := fun char last => by
        by_contra space
        exact space (stable.back char
          ((agree.getLast?_space (Bool.of_not_eq_false space)).mpr last))
      userInfo := mt users.mpr stable.userInfo
      git := mt agree.endsInGit.mpr stable.git }

variable {env : Environment}

/-- Normalizing twice is normalizing once where the address settles. -/
theorem normalizeRemoteUrl_idem_iff
    (lower : LowerCase isTrimmedSpace env.toLowerCase) (url : String) :
    normalizeRemoteUrl env (normalizeRemoteUrl env url) =
        normalizeRemoteUrl env url ↔ Settles (addressPart url) := by
  rw [settles_iff]
  have named : stripGitSuffix (convertScp (addressPart url)) =
      strippedUrl url.toList := rfl
  have lowers := lower.lowers (String.ofList (strippedUrl url.toList))
  rw [String.toList_ofList] at lowers
  have settled : convertScp (normalizeRemoteUrl env url).toList =
      (normalizeRemoteUrl env url).toList :=
    convertScp_lowers lowers (convertScp_stripGitSuffix
      (convertScp_convertScp (addressPart url)))
  rw [named, ← stable_lowers lowers]
  constructor
  · intro same
    by_contra unstable
    obtain ⟨mark, marked, fewer⟩ := exists_count_lt settled unstable
    have again := (lower.lowers (String.ofList
      (strippedUrl (normalizeRemoteUrl env url).toList))).count_eq marked
    rw [String.toList_ofList] at again
    have counted := congrArg (fun text => text.toList.count mark) same
    exact fewer.ne (again.symm.trans counted)
  · intro stable
    have fixed : strippedUrl (normalizeRemoteUrl env url).toList =
        (normalizeRemoteUrl env url).toList :=
      Stable.strippedUrl_eq_self stable settled
    conv_lhs => rw [normalizeRemoteUrl, fixed, String.ofList_toList]
    exact lower.lowered _

end Registrar
