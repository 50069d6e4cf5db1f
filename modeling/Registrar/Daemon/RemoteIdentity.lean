import Registrar.Daemon.RemoteNormalForms
import Registrar.Daemon.Stranding

/-!
# One remote, one identity

The ways to write the address of one remote: with any protocol or none, any
user-info or none, as a URL or as `host:path`, with spaces around it and `.git`
behind it.  Which of them the resolver's normalizer brings to one identity, and
which of them the daemon's scope takes for the same repository.
-/

namespace Registrar

open LetterCase

inductive AddressForm where
  /-- `host/path` -/
  | url
  /-- `host:path` -/
  | scp
  /-- `host:/path` -/
  | rootedScp
  deriving DecidableEq, Repr

def AddressForm.separator : AddressForm → List Char
  | .url => ['/']
  | .scp => [':']
  | .rootedScp => [':', '/']

structure AddressParts where
  spaceBefore : List Char
  spaceAfter : List Char
  protocol : Option (List Char)
  userInfo : Option (List Char)
  host : List Char
  port : Option (List Char)
  form : AddressForm
  path : List Char
  /-- The `.git`s behind the path. -/
  suffixes : List (List Char)

namespace AddressParts

def protocolPart (parts : AddressParts) : List Char :=
  match parts.protocol with
  | none => []
  | some protocol => protocol ++ "://".toList

def userInfoPart (parts : AddressParts) : List Char :=
  match parts.userInfo with
  | none => []
  | some userInfo => userInfo ++ ['@']

def portPart (parts : AddressParts) : List Char :=
  match parts.port with
  | none => []
  | some port => ':' :: port

/-- The host with its port. -/
def hostPart (parts : AddressParts) : List Char :=
  parts.host ++ parts.portPart

/-- The path with what is written behind it. -/
def pathPart (parts : AddressParts) : List Char :=
  parts.path ++ parts.suffixes.flatten

/-- The address after its protocol and its user-info. -/
def location (parts : AddressParts) : List Char :=
  parts.hostPart ++ (parts.form.separator ++ parts.pathPart)

/-- The address without the spaces around it. -/
def address (parts : AddressParts) : List Char :=
  parts.protocolPart ++ (parts.userInfoPart ++ parts.location)

def text (parts : AddressParts) : String :=
  String.ofList (parts.spaceBefore ++ parts.address ++ parts.spaceAfter)

/-- What the parts name: `host/path`, with the port where there is one. -/
def remote (parts : AddressParts) : List Char :=
  parts.hostPart ++ '/' :: parts.path

variable (env : Environment)

/-- The remote up to letter case. -/
def identity (parts : AddressParts) : String :=
  env.toLowerCase (String.ofList parts.remote)

end AddressParts

/-- Parts that are the parts of their text: a `/` ends the user-info, a host
holds no separator, a space at an end is no part of the address, and a `.git`
at the end of the path is a suffix. -/
structure Spelling extends AddressParts where
  spaces : ∀ char ∈ spaceBefore ++ spaceAfter, isTrimmedSpace char = true
  letters : ∀ letters ∈ protocol,
    letters ≠ [] ∧ ∀ char ∈ letters, isProtocolChar char = true
  userInfo_slash : ∀ user ∈ userInfo, '/' ∉ user
  host_plain : ∀ char ∈ host, isAnyStop char = false
  port_digits : ∀ digits ∈ port,
    digits ≠ [] ∧ ∀ char ∈ digits, char.isDigit = true
  port_form : port ≠ none → form = .url
  rooted : form ≠ .url → path.head? ≠ some '/'
  gits : ∀ git ∈ suffixes, isGit git = true
  bare : ¬ EndsInGit path
  head : ∀ char ∈ toAddressParts.address.head?, isTrimmedSpace char = false
  last : ∀ char ∈ toAddressParts.address.getLast?, isTrimmedSpace char = false

/-- A spelling that the normalizer reads as it is meant: the user-info holds no
`@`, a path behind a colon begins neither with a slash nor like a port, nor
with what reads as user-info, and there is at most one `.git`. -/
structure Spelling.Plain (spelling : Spelling) : Prop where
  userInfo : ∀ user ∈ spelling.userInfo, '@' ∉ user
  segment : spelling.userInfo = none → spelling.form = .scp →
    '@' ∉ spelling.path.takeWhile (· ≠ '/')
  form : spelling.form ≠ .rootedScp
  port : spelling.form = .scp → looksLikePort spelling.pathPart = false
  suffixes : spelling.suffixes.length ≤ 1

theorem first_unique {accepted : Char → Bool}
    {before before' after after' : List Char} {stop stop' : Char}
    (unstopped : ∀ char ∈ before, accepted char = false)
    (unstopped' : ∀ char ∈ before', accepted char = false)
    (stopped : accepted stop = true) (stopped' : accepted stop' = true)
    (same : before ++ stop :: after = before' ++ stop' :: after') :
    before = before' ∧ stop = stop' ∧ after = after' := by
  have fronts := congrArg (List.takeWhile fun char => !accepted char) same
  rw [List.takeWhile_append_of_pos (by simpa using unstopped),
    List.takeWhile_append_of_pos (by simpa using unstopped'),
    List.takeWhile_cons_of_neg (by simpa using stopped),
    List.takeWhile_cons_of_neg (by simpa using stopped'), List.append_nil,
    List.append_nil] at fronts
  subst fronts
  obtain ⟨stops, afters⟩ := List.cons.inj (List.append_cancel_left same)
  exact ⟨rfl, stops, afters⟩

theorem stripProtocol_append {letters rest : List Char} (nonempty : letters ≠ [])
    (all : ∀ char ∈ letters, isProtocolChar char = true) :
    stripProtocol (letters ++ "://".toList ++ rest) = rest := by
  have stops : isProtocolChar ':' = false := rfl
  rw [stripProtocol, List.append_assoc, List.takeWhile_append_of_pos all,
    List.dropWhile_append_of_pos all]
  change (if letters ++ [] = [] then _ else rest) = rest
  rw [List.append_nil, if_neg nonempty]

theorem stripProtocol_of_not {url : List Char}
    (other : ∀ letters rest, url = letters ++ "://".toList ++ rest →
      ¬ ∀ char ∈ letters, isProtocolChar char = true) :
    stripProtocol url = url := by
  simp only [stripProtocol]
  split
  · rename_i rest kept
    have isSplit := (List.takeWhile_append_dropWhile
      (p := isProtocolChar) (l := url)).symm
    rw [kept] at isSplit
    exact absurd (fun char member => List.mem_takeWhile_imp member)
      (other (url.takeWhile isProtocolChar) rest (by
        rw [List.append_assoc]
        exact isSplit))
  · rfl

theorem endsInGit_of_append {before after : List Char} {char : Char}
    (other : char.toLower ∉ ".git".toList)
    (ends : EndsInGit (before ++ char :: after)) : EndsInGit after := by
  obtain ⟨front, git, split, spellsGit⟩ := ends
  have outside : char ∉ git := fun member => other (mem_of_isGit spellsGit member)
  rcases List.append_eq_append_iff.mp split with ⟨mid, rfl, tail⟩ |
    ⟨mid, rfl, tail⟩
  · cases mid with
    | nil =>
        rw [List.nil_append] at tail
        exact absurd (tail ▸ List.mem_cons_self) outside
    | cons first mid =>
        exact ⟨mid, git, (List.cons.inj tail).2, spellsGit⟩
  · exact absurd (by rw [tail]; simp) outside

theorem count_stripGitSuffix {url : List Char} {mark : Char}
    (other : mark.toLower ∉ ".git".toList) :
    (stripGitSuffix url).count mark = url.count mark := by
  rcases stripGitSuffix_cases url with same | ⟨git, spellsGit, split⟩
  · rw [same]
  · have uncounted : git.count mark = 0 := List.count_eq_zero.mpr fun member =>
      other (mem_of_isGit spellsGit member)
    conv_rhs => rw [split, List.count_append, uncounted, Nat.add_zero]

theorem count_convertScp {url : List Char} {mark : Char} (colon : mark ≠ ':')
    (slash : mark ≠ '/') : (convertScp url).count mark = url.count mark := by
  rcases convertScp_cases url with same | ⟨before, after, rfl, -, made⟩
  · rw [same]
  · rw [made, List.count_append, List.count_append,
      List.count_cons_of_ne (Ne.symm slash),
      List.count_cons_of_ne (Ne.symm colon)]

namespace Spelling

variable (spelling : Spelling)

theorem not_starts_with_slash (form : spelling.form ≠ .url) :
    spelling.pathPart.head? ≠ some '/' := by
  intro slash
  cases path : spelling.path with
  | cons char rest =>
      rw [AddressParts.pathPart, path] at slash
      exact spelling.rooted form (by rw [path]; exact slash)
  | nil =>
      rw [AddressParts.pathPart, path, List.nil_append] at slash
      obtain ⟨git, member, inside⟩ :=
        List.mem_flatten.mp (List.mem_of_mem_head? slash)
      exact slash_notMem_of_isGit (spelling.gits git member) inside

theorem no_protocol_in_userInfo {user rest letters location : List Char}
    (slash : '/' ∉ user) (unstopped : ∀ char ∈ letters, isAnyStop char = false)
    (split : user ++ '@' :: location = letters ++ ':' :: '/' :: '/' :: rest) :
    False := by
  rcases List.append_eq_append_iff.mp split with ⟨mid, rfl, tail⟩ |
    ⟨mid, rfl, tail⟩
  · cases mid with
    | nil => cases tail
    | cons char mid =>
        obtain ⟨rfl, -⟩ := List.cons.inj tail
        cases unstopped '@' (by simp)
  · match mid, tail with
    | [], tail => cases tail
    | [_], tail => cases tail
    | _ :: char :: mid, tail =>
        obtain ⟨rfl, -⟩ := List.cons.inj (List.cons.inj tail).2
        exact slash (by simp)

/-- Nor does a location. -/
theorem no_protocol_in_location {rest letters : List Char}
    (unstopped : ∀ char ∈ letters, isAnyStop char = false)
    (split : spelling.location = letters ++ ':' :: '/' :: '/' :: rest) :
    False := by
  rw [AddressParts.location, AddressParts.hostPart, List.append_assoc] at split
  have host := spelling.host_plain
  cases port : spelling.port with
  | some digits =>
      rw [AddressParts.portPart, port, List.cons_append] at split
      obtain ⟨-, -, tail⟩ := first_unique host unstopped rfl rfl split
      obtain ⟨nonempty, all⟩ := spelling.port_digits digits port
      cases digits with
      | nil => exact nonempty rfl
      | cons digit digits =>
          obtain ⟨rfl, -⟩ := List.cons.inj tail
          cases all '/' List.mem_cons_self
  | none =>
      rw [AddressParts.portPart, port, List.nil_append] at split
      cases form : spelling.form with
      | url =>
          rw [form] at split
          obtain ⟨-, stop, -⟩ := first_unique host unstopped rfl rfl split
          cases stop
      | scp =>
          rw [form] at split
          obtain ⟨-, -, tail⟩ := first_unique host unstopped rfl rfl split
          refine spelling.not_starts_with_slash (by rw [form]; nofun) ?_
          rw [show spelling.pathPart = '/' :: '/' :: rest from tail,
            List.head?_cons]
      | rootedScp =>
          rw [form] at split
          obtain ⟨-, -, tail⟩ := first_unique host unstopped rfl rfl split
          refine spelling.not_starts_with_slash (by rw [form]; nofun) ?_
          rw [show spelling.pathPart = '/' :: rest from (List.cons.inj tail).2,
            List.head?_cons]

/-- Nothing in front of the location reads as a protocol. -/
theorem stripProtocol_address :
    stripProtocol spelling.address =
      spelling.userInfoPart ++ spelling.location := by
  cases protocol : spelling.protocol with
  | some letters =>
      obtain ⟨nonempty, all⟩ := spelling.letters letters protocol
      rw [AddressParts.address, AddressParts.protocolPart, protocol]
      exact stripProtocol_append nonempty all
  | none =>
      rw [AddressParts.address, AddressParts.protocolPart, protocol,
        List.nil_append]
      refine stripProtocol_of_not ?_
      intro letters rest split all
      have noStop : ∀ char ∈ letters, isAnyStop char = false := by
        intro char member
        have letter := all char member
        rw [isAnyStop, isStop_of_isProtocolChar letter, Bool.or_false]
        by_contra isUser
        rw [beq_iff_eq.mp (Bool.of_not_eq_false isUser)] at letter
        cases letter
      have split : spelling.userInfoPart ++ spelling.location =
          letters ++ ':' :: ('/' :: '/' :: rest) := by
        rw [split, List.append_assoc]
        rfl
      cases user : spelling.userInfo with
      | some userInfo =>
          rw [AddressParts.userInfoPart, user, List.append_assoc,
            List.singleton_append] at split
          exact no_protocol_in_userInfo (spelling.userInfo_slash userInfo user)
            noStop split
      | none =>
          rw [AddressParts.userInfoPart, user, List.nil_append] at split
          exact spelling.no_protocol_in_location noStop split

theorem trimChars_text :
    Trim.trimChars isTrimmedSpace spelling.text.toList = spelling.address := by
  rw [AddressParts.text, String.toList_ofList]
  exact Trim.trimChars_surrounded _
    (fun char member => spelling.spaces char (List.mem_append_left _ member))
    (fun char member => spelling.spaces char (List.mem_append_right _ member))
    (Trim.trimChars_eq_self _ spelling.head spelling.last)

theorem strippedUrl_text :
    strippedUrl spelling.text.toList = stripGitSuffix (convertScp
      (stripUserInfo (spelling.userInfoPart ++ spelling.location))) := by
  rw [strippedUrl, spelling.trimChars_text, spelling.stripProtocol_address]

/-! ## Plain spellings -/

theorem notMem_hostPart {char : Char} (mark : char = '@' ∨ char = '/') :
    char ∉ spelling.hostPart := by
  intro member
  rcases List.mem_append.mp member with host | port
  · have plain := spelling.host_plain char host
    rcases mark with rfl | rfl <;> cases plain
  · cases given : spelling.port with
    | none => rw [AddressParts.portPart, given] at port; cases port
    | some digits =>
        rw [AddressParts.portPart, given] at port
        rcases List.mem_cons.mp port with rfl | digit
        · rcases mark with colon | colon <;> cases colon
        · have all := (spelling.port_digits digits given).2 char digit
          rcases mark with rfl | rfl <;> cases all

theorem notMem_suffixes {char : Char}
    (other : char.toLower ∉ ".git".toList) :
    char ∉ spelling.suffixes.flatten := by
  intro member
  obtain ⟨git, given, inside⟩ := List.mem_flatten.mp member
  exact other (mem_of_isGit (spelling.gits git given) inside)

theorem path_segment (path : List Char) :
    path = path.takeWhile (· ≠ '/') ∨
      ∃ tail, path = path.takeWhile (· ≠ '/') ++ '/' :: tail := by
  have isSplit := (List.takeWhile_append_dropWhile
    (p := fun char => decide (char ≠ '/')) (l := path)).symm
  cases rest : path.dropWhile (· ≠ '/') with
  | nil =>
      rw [rest, List.append_nil] at isSplit
      exact .inl isSplit
  | cons char tail =>
      have stop := List.head_dropWhile_not (· ≠ '/') (by rw [rest]; nofun)
      simp only [rest, List.head_cons, decide_eq_false_iff_not, not_not] at stop
      rw [rest, stop] at isSplit
      exact .inr ⟨tail, isSplit⟩

/-- The user-info is dropped whole, and nothing but it. -/
theorem stripUserInfo_eq {spelling : Spelling}
    (userInfo_at : ∀ user ∈ spelling.userInfo, '@' ∉ user)
    (segment_at : spelling.userInfo = none → spelling.form = .scp →
      '@' ∉ spelling.path.takeWhile (· ≠ '/')) :
    stripUserInfo (spelling.userInfoPart ++ spelling.location) =
      spelling.location := by
  cases user : spelling.userInfo with
  | some userInfo =>
      rw [AddressParts.userInfoPart, user, List.append_assoc,
        List.singleton_append]
      exact stripUserInfo_at (userInfo_at userInfo user)
        (spelling.userInfo_slash userInfo user)
  | none =>
      rw [AddressParts.userInfoPart, user, List.nil_append]
      have host := spelling.notMem_hostPart (.inl rfl)
      cases form : spelling.form with
      | url =>
          rw [AddressParts.location, form]
          exact stripUserInfo_slash host
      | rootedScp =>
          have front : '@' ∉ spelling.hostPart ++ [':'] := by simp [host]
          have same := @stripUserInfo_slash _ spelling.pathPart front
          rw [AddressParts.location, form]
          simpa [AddressForm.separator] using same
      | scp =>
          have segment := segment_at user form
          have suffixes : '@' ∉ spelling.suffixes.flatten :=
            spelling.notMem_suffixes (by decide)
          rw [AddressParts.location, form, AddressParts.pathPart]
          rcases path_segment spelling.path with whole | ⟨tail, split⟩
          · rw [← whole] at segment
            exact stripUserInfo_eq_self (by
              simp [AddressForm.separator, host, segment, suffixes])
          · generalize spelling.path.takeWhile (· ≠ '/') = first at *
            have front : '@' ∉ spelling.hostPart ++ ':' :: first := by
              simp [host, segment]
            have same := @stripUserInfo_slash _
              (tail ++ spelling.suffixes.flatten) front
            rw [split]
            simpa [AddressForm.separator] using same

theorem colon_notMem_host : ':' ∉ spelling.host :=
  fun member => nomatch spelling.host_plain ':' member

theorem slash_notMem_host : '/' ∉ spelling.host :=
  fun member => nomatch spelling.host_plain '/' member

theorem portPart_eq_nil {spelling : Spelling} (form : spelling.form ≠ .url) :
    spelling.portPart = [] := by
  cases port : spelling.port with
  | none => rw [AddressParts.portPart, port]
  | some digits => exact absurd (spelling.port_form (by rw [port]; nofun)) form

theorem hostPart_eq {spelling : Spelling} (form : spelling.form ≠ .url) :
    spelling.hostPart = spelling.host := by
  rw [AddressParts.hostPart, portPart_eq_nil form, List.append_nil]

/-- The path comes to stand behind a slash. -/
theorem convertScp_eq {spelling : Spelling}
    (unrooted : spelling.form ≠ .rootedScp)
    (noPort : spelling.form = .scp →
      looksLikePort spelling.pathPart = false) :
    convertScp spelling.location =
      spelling.remote ++ spelling.suffixes.flatten := by
  have colon := spelling.colon_notMem_host
  have slash := spelling.slash_notMem_host
  rw [AddressParts.remote, AddressParts.location, AddressParts.pathPart]
  cases form : spelling.form with
  | rootedScp => exact absurd form unrooted
  | scp =>
      have port := noPort form
      rw [AddressParts.pathPart] at port
      rw [hostPart_eq (by rw [form]; nofun), AddressForm.separator,
        List.singleton_append, convertScp_colon colon slash, port,
        if_neg Bool.false_ne_true,
        List.append_assoc, List.cons_append]
  | url =>
      rw [AddressParts.hostPart, AddressForm.separator]
      cases port : spelling.port with
      | none =>
          rw [AddressParts.portPart, port, List.append_nil,
            List.singleton_append, convertScp_slash colon, List.append_assoc,
            List.cons_append]
      | some digits =>
          obtain ⟨nonempty, all⟩ := spelling.port_digits digits port
          have isPort : looksLikePort (digits ++
              '/' :: (spelling.path ++ spelling.suffixes.flatten)) = true :=
            looksLikePort_iff.mpr ⟨digits, _, rfl, nonempty, all, .inr ⟨_, rfl⟩⟩
          have same := @convertScp_colon spelling.host (digits ++ '/' ::
            (spelling.path ++ spelling.suffixes.flatten)) colon slash
          rw [if_pos isPort] at same
          rw [AddressParts.portPart, port]
          simpa using same

theorem not_endsInGit_remote : ¬ EndsInGit spelling.remote :=
  fun ends => spelling.bare (endsInGit_of_append (by decide) ends)

theorem strippedUrl_plain {spelling : Spelling} (plain : spelling.Plain) :
    strippedUrl spelling.text.toList = spelling.remote := by
  rw [spelling.strippedUrl_text,
    stripUserInfo_eq plain.userInfo plain.segment,
    convertScp_eq plain.form plain.port]
  have few := plain.suffixes
  have gits := spelling.gits
  match spelling.suffixes, few, gits with
  | [], _, _ =>
      rw [List.flatten_nil, List.append_nil]
      exact stripGitSuffix_eq_self spelling.not_endsInGit_remote
  | [git], _, gits =>
      rw [List.flatten_singleton]
      exact stripGitSuffix_append (gits git List.mem_cons_self)

theorem count_remote {mark : Char} (absent : mark ∉ spelling.hostPart)
    (slash : mark ≠ '/') :
    spelling.remote.count mark = spelling.path.count mark := by
  rw [AddressParts.remote, List.count_append, List.count_eq_zero.mpr absent,
    List.count_cons_of_ne (Ne.symm slash), Nat.zero_add]

theorem count_pathPart {mark : Char} (other : mark.toLower ∉ ".git".toList) :
    spelling.pathPart.count mark = spelling.path.count mark := by
  rw [AddressParts.pathPart, List.count_append,
    List.count_eq_zero.mpr (spelling.notMem_suffixes other), Nat.add_zero]

/-- What the normalizer leaves has as many of every mark as the remote. -/
def Even (spelling : Spelling) : Prop :=
  ∀ mark, isMark isTrimmedSpace mark = true →
    (strippedUrl spelling.text.toList).count mark = spelling.remote.count mark

theorem count_at_location :
    spelling.location.count '@' = spelling.path.count '@' := by
  have host := List.count_eq_zero.mpr (spelling.notMem_hostPart (.inl rfl))
  have separator : spelling.form.separator.count '@' = 0 := by
    cases spelling.form <;> rfl
  rw [AddressParts.location, List.count_append, List.count_append,
    spelling.count_pathPart (by decide), host, separator]
  omega

theorem count_at_strippedUrl :
    (strippedUrl spelling.text.toList).count '@' = (stripUserInfo
      (spelling.userInfoPart ++ spelling.location)).count '@' := by
  rw [spelling.strippedUrl_text, count_stripGitSuffix (by decide),
    count_convertScp (by decide) (by decide)]

namespace Even

variable {spelling : Spelling}

theorem at_eq (even : spelling.Even) :
    (stripUserInfo (spelling.userInfoPart ++ spelling.location)).count '@' =
      spelling.path.count '@' := by
  rw [← count_at_strippedUrl, even '@' (by decide),
    spelling.count_remote (spelling.notMem_hostPart (.inl rfl)) (by decide)]

theorem userInfo (even : spelling.Even) :
    ∀ user ∈ spelling.userInfo, '@' ∉ user := by
  intro user given member
  have slash := spelling.userInfo_slash user given
  obtain ⟨before, after, rfl, fresh⟩ := List.eq_append_cons_of_mem member
  have counted := even.at_eq
  rw [AddressParts.userInfoPart, given, List.append_assoc, List.append_assoc,
    List.cons_append, stripUserInfo_at fresh (by simp_all), List.count_append,
    List.count_append, spelling.count_at_location] at counted
  simp only [List.count_cons_self, List.count_nil] at counted
  omega

theorem segment (even : spelling.Even) :
    spelling.userInfo = none → spelling.form = .scp →
      '@' ∉ spelling.path.takeWhile (· ≠ '/') := by
  intro user form member
  have noSlash : '/' ∉ spelling.path.takeWhile (· ≠ '/') := fun inside =>
    absurd (List.mem_takeWhile_imp inside) (by decide)
  have isSplit := (List.takeWhile_append_dropWhile
    (p := fun char => decide (char ≠ '/')) (l := spelling.path)).symm
  obtain ⟨before, after, first, fresh⟩ := List.eq_append_cons_of_mem member
  rw [first] at noSlash isSplit
  have front : '@' ∉ spelling.hostPart ++ ':' :: before := by
    simp [spelling.notMem_hostPart (.inl rfl), fresh]
  have front' : '/' ∉ spelling.hostPart ++ ':' :: before := by
    simp [spelling.notMem_hostPart (.inr rfl), not_or.mp
      (mt List.mem_append.mpr noSlash)]
  generalize spelling.path.dropWhile (fun char => decide (char ≠ '/')) = rest
    at isSplit
  have stripped := @stripUserInfo_at _
    (after ++ rest ++ spelling.suffixes.flatten) front front'
  have counted := even.at_eq
  have uncounted : spelling.suffixes.flatten.count '@' = 0 :=
    List.count_eq_zero.mpr (spelling.notMem_suffixes (by decide))
  have location : spelling.location = spelling.hostPart ++ ':' :: before ++
      '@' :: (after ++ rest ++ spelling.suffixes.flatten) := by
    rw [AddressParts.location, form, AddressParts.pathPart, isSplit]
    simp [AddressForm.separator]
  rw [AddressParts.userInfoPart, user, List.nil_append, location, stripped,
    List.count_append, List.count_append, uncounted, isSplit, List.count_append,
    List.count_append, List.count_cons_self] at counted
  omega

theorem stripped (even : spelling.Even) :
    strippedUrl spelling.text.toList =
      stripGitSuffix (convertScp spelling.location) := by
  rw [spelling.strippedUrl_text, stripUserInfo_eq even.userInfo even.segment]

theorem form (even : spelling.Even) : spelling.form ≠ .rootedScp := by
  intro form
  have colon := spelling.colon_notMem_host
  have slash := spelling.slash_notMem_host
  have counted := even '/' (by decide)
  have noPort : looksLikePort ('/' :: spelling.pathPart) = false := rfl
  have location : spelling.location =
      spelling.host ++ ':' :: '/' :: spelling.pathPart := by
    rw [AddressParts.location, hostPart_eq (by rw [form]; nofun), form]
    rfl
  rw [even.stripped, location, convertScp_colon colon slash, noPort,
    if_neg Bool.false_ne_true, count_stripGitSuffix (by decide),
    AddressParts.remote, hostPart_eq (by rw [form]; nofun), List.count_append,
    List.count_append, List.count_cons_self, List.count_cons_self,
    List.count_cons_self, spelling.count_pathPart (by decide)] at counted
  omega

theorem port (even : spelling.Even) (form : spelling.form = .scp) :
    looksLikePort spelling.pathPart = false := by
  by_contra isPort
  have colon := spelling.colon_notMem_host
  have slash := spelling.slash_notMem_host
  have counted := even ':' (by decide)
  have hostPart : spelling.hostPart = spelling.host :=
    hostPart_eq (by rw [form]; nofun)
  have location : spelling.location =
      spelling.host ++ ':' :: spelling.pathPart := by
    rw [AddressParts.location, hostPart, form]
    rfl
  rw [even.stripped, location, convertScp_colon colon slash,
    if_pos (Bool.of_not_eq_false isPort), count_stripGitSuffix (by decide),
    spelling.count_remote (hostPart ▸ colon) (by decide), List.count_append,
    List.count_cons_self, spelling.count_pathPart (by decide)] at counted
  omega

theorem suffixes (even : spelling.Even) : spelling.suffixes.length ≤ 1 := by
  by_contra many
  have counted := even '.' (by decide)
  rw [even.stripped, convertScp_eq even.form even.port] at counted
  have gits := spelling.gits
  rcases List.eq_nil_or_concat' spelling.suffixes with noSuffix |
    ⟨init, git, split⟩
  · rw [noSuffix] at many
    exact many (Nat.zero_le 1)
  · rw [split] at gits many counted
    cases init with
    | nil => exact many (Nat.le_refl 1)
    | cons first init =>
        have last := gits git (by simp)
        have dots := List.count_pos_iff.mpr
          (dot_mem_of_isGit (gits first (by simp)))
        rw [List.flatten_append, List.flatten_singleton, ← List.append_assoc,
          stripGitSuffix_append last, List.flatten_cons, List.count_append,
          List.count_append] at counted
        omega

theorem plain (even : spelling.Even) : spelling.Plain where
  userInfo := even.userInfo
  segment := even.segment
  form := even.form
  port := even.port
  suffixes := even.suffixes

end Even

variable {env : Environment}

/-- The normalizer brings a spelling to its remote's identity where it reads it
as it is meant. -/
theorem normalizeRemoteUrl_eq_iff
    (lower : LowerCase isTrimmedSpace env.toLowerCase) :
    normalizeRemoteUrl env spelling.text = spelling.identity env ↔
      spelling.Plain := by
  constructor
  · intro same
    refine Even.plain fun mark marked => ?_
    have left := (lower.lowers (String.ofList
      (strippedUrl spelling.text.toList))).count_eq marked
    have right := (lower.lowers (String.ofList spelling.remote)).count_eq marked
    rw [String.toList_ofList] at left right
    rw [← left, ← right]
    exact congrArg (fun text => text.toList.count mark) same
  · intro plain
    rw [normalizeRemoteUrl, strippedUrl_plain plain]
    rfl

/-! ## The daemon's scope -/

/-- What the daemon compares of a spelling, before it is lowered: all of it but
a `.git` in lower case. -/
def compared : List Char :=
  { spelling.toAddressParts with
    suffixes := spelling.suffixes.filter (· ≠ ".git".toList) }.address

/-- The two are written alike, up to letter case. -/
def Alike (env : Environment) (left right : Spelling) : Prop :=
  env.toLowerCase (String.ofList left.compared) =
    env.toLowerCase (String.ofList right.compared)

instance (env : Environment) (left right : Spelling) :
    Decidable (Alike env left right) :=
  inferInstanceAs (Decidable (_ = _))

theorem text_ne_empty : spelling.text ≠ "" := by
  intro empty
  have isEmpty := congrArg String.toList empty
  rw [AddressParts.text, String.toList_ofList, AddressParts.address,
    AddressParts.location] at isEmpty
  cases form : spelling.form <;> simp [form, AddressForm.separator] at isEmpty

theorem stripGit_append (front : List Char) :
    stripGit (String.ofList (front ++ ".git".toList)) =
      String.ofList front := by
  have ends : (String.ofList (front ++ ".git".toList)).endsWith ".git" =
      true := by
    rw [← String.endsWith_toSlice, String.Slice.endsWith_string_iff]
    simp
  rw [stripGit, if_pos ends, ← String.toList_inj]
  simp [String.toList_copy_dropEnd]

theorem stripGit_eq_self {url : List Char} (other : ¬ ".git".toList <:+ url) :
    stripGit (String.ofList url) = String.ofList url := by
  refine if_neg ?_
  rw [← String.endsWith_toSlice, String.Slice.endsWith_string_iff]
  simpa using other

theorem not_endsInGit_address (noSuffix : spelling.suffixes = []) :
    ¬ EndsInGit spelling.address := by
  intro ends
  refine spelling.bare ?_
  rw [AddressParts.address, AddressParts.location, AddressParts.pathPart, noSuffix,
    List.flatten_nil, List.append_nil] at ends
  cases form : spelling.form with
  | url =>
      rw [form, AddressForm.separator, ← List.append_assoc,
        ← List.append_assoc] at ends
      exact endsInGit_of_append (by decide) ends
  | scp =>
      rw [form, AddressForm.separator, ← List.append_assoc,
        ← List.append_assoc] at ends
      exact endsInGit_of_append (by decide) ends
  | rootedScp =>
      rw [form, AddressForm.separator, ← List.append_assoc,
        ← List.append_assoc] at ends
      exact @endsInGit_of_append [] spelling.path '/' (by decide)
        (endsInGit_of_append (by decide) ends)

theorem address_eq (parts : AddressParts) :
    parts.address =
      { parts with suffixes := [] }.address ++ parts.suffixes.flatten := by
  simp [AddressParts.address, AddressParts.protocolPart,
    AddressParts.userInfoPart, AddressParts.location, AddressParts.hostPart,
    AddressParts.portPart, AddressParts.pathPart]

theorem stripGit_address {spelling : Spelling}
    (few : spelling.suffixes.length ≤ 1) :
    stripGit (String.ofList spelling.address) =
      String.ofList spelling.compared := by
  have kept := address_eq spelling.toAddressParts
  have left := address_eq { spelling.toAddressParts with
    suffixes := spelling.suffixes.filter (· ≠ ".git".toList) }
  have bare := spelling.not_endsInGit_address
  have gits := spelling.gits
  rw [compared, left]
  match suffixes : spelling.suffixes, few with
  | [], _ =>
      rw [suffixes] at kept
      rw [List.filter_nil, ← kept]
      refine stripGit_eq_self fun ends => bare suffixes ?_
      obtain ⟨front, split⟩ := ends
      exact ⟨front, _, split.symm, by decide⟩
  | [git], _ =>
      rw [suffixes, List.flatten_singleton] at kept
      rw [kept]
      by_cases lowerCase : git = ".git".toList
      · rw [lowerCase, stripGit_append, List.filter_cons_of_neg (by simp),
          List.filter_nil, List.flatten_nil, List.append_nil]
      · rw [List.filter_cons_of_pos (by simpa using lowerCase), List.filter_nil,
          List.flatten_singleton]
        refine stripGit_eq_self ?_
        rintro ⟨front, split⟩
        have four := length_of_isGit (gits git (by rw [suffixes]; simp))
        exact lowerCase (List.append_inj' split (by rw [four]; rfl)).2.symm

theorem normalizeUrl_text {spelling : Spelling}
    (few : spelling.suffixes.length ≤ 1) :
    normalizeUrl env spelling.text =
      env.toLowerCase (String.ofList spelling.compared) := by
  rw [normalizeUrl, trim, Trim.trim, spelling.trimChars_text,
    stripGit_address few]

theorem mem_kept_iff {left right : Spelling}
    (few : left.suffixes.length ≤ 1) (few' : right.suffixes.length ≤ 1)
    {candidates : List MemoryCandidate} {candidate : MemoryCandidate}
    (member : candidate ∈ candidates)
    (given : candidate.metadata.repoUrl = some left.text) :
    candidate ∈ (filterByRepoScope env candidates right.text).kept ↔
      Alike env left right := by
  have named := left.text_ne_empty
  have inScope : inRepoScope env right.text candidate =
      decide (normalizeUrl env left.text = normalizeUrl env right.text) := by
    rw [inRepoScope, given]
    split
    · rename_i isNone; cases isNone
    · rename_i empty
      exact absurd (Option.some_inj.mp empty) named
    · rename_i url _ same
      rw [Option.some_inj.mp same]
  rw [filterByRepoScope, List.mem_filter, inScope, decide_eq_true_eq,
    normalizeUrl_text few, normalizeUrl_text few']
  exact and_iff_right member

/-- Two addresses go by their remotes: each gets its remote's identity, and the
scope of the second keeps what comes from the first where these agree. -/
structure OneIdentity (env : Environment) (left right : Spelling) : Prop where
  left_identity : normalizeRemoteUrl env left.text = left.identity env
  right_identity : normalizeRemoteUrl env right.text = right.identity env
  scope : ∀ candidates : List MemoryCandidate, ∀ candidate ∈ candidates,
    candidate.metadata.repoUrl = some left.text →
      (candidate ∈ (filterByRepoScope env candidates right.text).kept ↔
        normalizeRemoteUrl env left.text = normalizeRemoteUrl env right.text)

/-- A proposal that was captured in a repository. -/
def proposalFrom (repoUrl : String) : MemoryCandidate :=
  let proposal := agentProposal "Pager" "Page the on-call engineer."
  { proposal with
    metadata := { proposal.metadata with repoUrl := some repoUrl } }

theorem oneIdentity_iff (lower : LowerCase isTrimmedSpace env.toLowerCase)
    (left right : Spelling) :
    OneIdentity env left right ↔ left.Plain ∧ right.Plain ∧
      (left.identity env = right.identity env ↔ Alike env left right) := by
  constructor
  · intro one
    have plain := (left.normalizeRemoteUrl_eq_iff lower).mp one.left_identity
    have plain' := (right.normalizeRemoteUrl_eq_iff lower).mp one.right_identity
    have kept := one.scope [proposalFrom left.text] _ List.mem_cons_self rfl
    rw [mem_kept_iff plain.suffixes plain'.suffixes List.mem_cons_self rfl,
      one.left_identity, one.right_identity] at kept
    exact ⟨plain, plain', kept.symm⟩
  · rintro ⟨plain, plain', alike⟩
    have left_identity := (left.normalizeRemoteUrl_eq_iff lower).mpr plain
    have right_identity := (right.normalizeRemoteUrl_eq_iff lower).mpr plain'
    refine {
      left_identity := left_identity
      right_identity := right_identity
      scope := ?_ }
    intro candidates candidate member given
    rw [mem_kept_iff plain.suffixes plain'.suffixes member given, left_identity,
      right_identity]
    exact alike.symm

theorem deriveTenantId_eq {left right : Spelling}
    (lower : LowerCase isTrimmedSpace env.toLowerCase) (plain : left.Plain)
    (plain' : right.Plain) (same : left.identity env = right.identity env)
    (files : String → Option String) (ctx : RepoContext)
    (overrides : TenantOverrides) :
    deriveTenantId env files { ctx with remoteUrl := some left.text }
        overrides =
      deriveTenantId env files { ctx with remoteUrl := some right.text }
        overrides := by
  have left_identity := (left.normalizeRemoteUrl_eq_iff lower).mpr plain
  have right_identity := (right.normalizeRemoteUrl_eq_iff lower).mpr plain'
  have given (spelling : Spelling) :
      (some spelling.text).filter (· ≠ "") = some spelling.text := by
    rw [Option.filter_some, if_pos (by simpa using spelling.text_ne_empty)]
  simp only [deriveTenantId, given, left_identity, right_identity, same]

end Spelling

/-- An address is a normal form once it settles, and a remote goes by one
identity where its addresses are plain and the scope sees the remote in them. -/
theorem normalizeRemoteUrl_identities {env : Environment}
    (lower : LowerCase isTrimmedSpace env.toLowerCase) :
    (∀ url, normalizeRemoteUrl env (normalizeRemoteUrl env url) =
        normalizeRemoteUrl env url ↔ Settles (addressPart url)) ∧
      (∀ left right : Spelling, Spelling.OneIdentity env left right ↔
        left.Plain ∧ right.Plain ∧
          (left.identity env = right.identity env ↔
            Spelling.Alike env left right)) ∧
      ∀ (left right : Spelling) (files : String → Option String)
        (ctx : RepoContext) (overrides : TenantOverrides),
        left.Plain → right.Plain → left.identity env = right.identity env →
          deriveTenantId env files { ctx with remoteUrl := some left.text }
              overrides =
            deriveTenantId env files { ctx with remoteUrl := some right.text }
              overrides :=
  ⟨normalizeRemoteUrl_idem_iff lower, Spelling.oneIdentity_iff lower,
    fun _ _ files ctx overrides plain plain' same =>
      Spelling.deriveTenantId_eq lower plain plain' same files ctx overrides⟩

def asciiEnvironment : Environment :=
  { plainEnvironment with toLowerCase := asciiLower }

/-- `git@github.com:acme/repo.git` -/
def scpSpelling : Spelling where
  spaceBefore := []
  spaceAfter := []
  protocol := none
  userInfo := some "git".toList
  host := "github.com".toList
  port := none
  form := .scp
  path := "acme/repo".toList
  suffixes := [".git".toList]
  spaces := nofun
  letters := nofun
  userInfo_slash user given := by
    obtain rfl := Option.some_inj.mp given
    decide
  host_plain char member := by
    have plain : "github.com".toList.all (fun char => !isAnyStop char) = true :=
      by decide
    simpa using List.all_eq_true.mp plain char member
  port_digits := nofun
  port_form given := absurd rfl given
  rooted _ := by decide
  gits git member := by
    rw [List.mem_singleton.mp member]
    rfl
  bare := by
    rw [endsInGit_iff]
    decide
  head char first := by
    obtain rfl := Option.some_inj.mp first
    rfl
  last char final := by
    obtain rfl := Option.some_inj.mp final
    rfl

/-- `https://GitHub.com/Acme/Repo` -/
def httpsSpelling : Spelling where
  spaceBefore := []
  spaceAfter := []
  protocol := some "https".toList
  userInfo := none
  host := "GitHub.com".toList
  port := none
  form := .url
  path := "Acme/Repo".toList
  suffixes := []
  spaces := nofun
  letters letters given := by
    obtain rfl := Option.some_inj.mp given
    exact ⟨by decide, List.all_eq_true.mp (by decide)⟩
  userInfo_slash := nofun
  host_plain char member := by
    have plain : "GitHub.com".toList.all (fun char => !isAnyStop char) = true :=
      by decide
    simpa using List.all_eq_true.mp plain char member
  port_digits := nofun
  port_form _ := rfl
  rooted given := absurd rfl given
  gits := nofun
  bare := by
    rw [endsInGit_iff]
    decide
  head char first := by
    obtain rfl := Option.some_inj.mp first
    rfl
  last char final := by
    obtain rfl := Option.some_inj.mp final
    rfl

theorem scpSpelling_plain : scpSpelling.Plain where
  userInfo user given := by
    obtain rfl := Option.some_inj.mp given
    decide
  segment given := by cases given
  form := nofun
  port _ := by decide
  suffixes := Nat.le_refl 1

theorem httpsSpelling_plain : httpsSpelling.Plain where
  userInfo := nofun
  segment _ given := by cases given
  form := nofun
  port given := by cases given
  suffixes := Nat.zero_le 1

/-- `https://github.com/acme/repo.git` -/
def cloneSpelling : Spelling where
  spaceBefore := []
  spaceAfter := []
  protocol := some "https".toList
  userInfo := none
  host := "github.com".toList
  port := none
  form := .url
  path := "acme/repo".toList
  suffixes := [".git".toList]
  spaces := nofun
  letters := httpsSpelling.letters
  userInfo_slash := nofun
  host_plain := scpSpelling.host_plain
  port_digits := nofun
  port_form _ := rfl
  rooted given := absurd rfl given
  gits := scpSpelling.gits
  bare := scpSpelling.bare
  head char first := by
    obtain rfl := Option.some_inj.mp first
    rfl
  last char final := by
    obtain rfl := Option.some_inj.mp final
    rfl

theorem cloneSpelling_plain : cloneSpelling.Plain where
  userInfo := nofun
  segment _ given := by cases given
  form := nofun
  port given := by cases given
  suffixes := Nat.le_refl 1

/-- All give the tenant `github.com/acme/repo`, whose id is its own normal form;
the scope knows the `https` addresses for each other, but not the `ssh` one for
them. -/
theorem githubSpellings_identity :
    normalizeRemoteUrl asciiEnvironment
        (normalizeRemoteUrl asciiEnvironment scpSpelling.text) =
      normalizeRemoteUrl asciiEnvironment scpSpelling.text ∧
    Spelling.OneIdentity asciiEnvironment httpsSpelling cloneSpelling ∧
    ¬Spelling.OneIdentity asciiEnvironment scpSpelling httpsSpelling ∧
    ∀ (files : String → Option String) (ctx : RepoContext)
      (overrides : TenantOverrides),
      deriveTenantId asciiEnvironment files
          { ctx with remoteUrl := some scpSpelling.text } overrides =
        deriveTenantId asciiEnvironment files
          { ctx with remoteUrl := some httpsSpelling.text } overrides := by
  obtain ⟨idem, one, tenants⟩ := @normalizeRemoteUrl_identities
    asciiEnvironment (asciiLower_lowerCase isTrimmedSpace)
  have clones := (one httpsSpelling cloneSpelling).mpr
    ⟨httpsSpelling_plain, cloneSpelling_plain, by decide +kernel⟩
  have apart : ¬Spelling.OneIdentity asciiEnvironment scpSpelling
      httpsSpelling := by
    intro identity
    obtain ⟨-, -, alike⟩ := (one scpSpelling httpsSpelling).mp identity
    revert alike
    decide +kernel
  refine ⟨(idem scpSpelling.text).mpr ?_, clones, apart,
    fun files ctx overrides =>
      tenants scpSpelling httpsSpelling files ctx overrides scpSpelling_plain
        httpsSpelling_plain (by decide +kernel)⟩
  have part : addressPart scpSpelling.text =
      "github.com:acme/repo.git".toList := by
    decide +kernel
  have stripped : stripGitSuffix "github.com:acme/repo.git".toList =
      "github.com:acme/repo".toList := by
    decide +kernel
  rw [part]
  exact {
    front := fun char first => by
      obtain rfl := Option.some_inj.mp first
      rfl
    back := fun char final => by
      rw [stripped] at final
      obtain rfl := Option.some_inj.mp final
      rfl
    userInfo := by decide +kernel
    git := by
      rw [stripped, endsInGit_iff]
      decide }

/-- A doubled `.git` is not dropped at once, a password with an `@` is not
dropped whole, a path that begins with a number is taken for a port, and the
scope does not know an `https` address for the `ssh` address of its remote. -/
theorem remoteUrls_without_identity :
    ¬ (∀ url, normalizeRemoteUrl asciiEnvironment
        (normalizeRemoteUrl asciiEnvironment url) =
      normalizeRemoteUrl asciiEnvironment url) ∧
    normalizeRemoteUrl asciiEnvironment "https://user:p@ss@host/path" =
      "ss@host/path" ∧
    normalizeRemoteUrl asciiEnvironment "git@host:123/path" ≠
      normalizeRemoteUrl asciiEnvironment "ssh://git@host/123/path" ∧
    normalizeRemoteUrl asciiEnvironment "git@host:path" =
      normalizeRemoteUrl asciiEnvironment "https://host/path" ∧
    (filterByRepoScope asciiEnvironment
      [Spelling.proposalFrom "git@host:path"] "https://host/path").kept =
        [] := by
  refine ⟨fun idem => ?_, by decide +kernel, by decide +kernel,
    by decide +kernel, by decide +kernel⟩
  have twice := idem "host/path.git.git"
  revert twice
  decide +kernel

end Registrar
