import Registrar.Curator.WikiLinks
import Registrar.Library.Splice

/-!
# Resolving wiki links

Links become Markdown references to the memories that a resolver finds for
them.  The replacement runs backwards over the text; it is one cut at the
links' spans, and it leaves code alone as long as no link lies across the edge
of a code range.
-/

namespace Registrar

structure WikiLinkMatch where
  raw : List Char
  slug : String
  displayText : Option String
  startIndex : Nat
  endIndex : Nat
  deriving DecidableEq, Repr

/-- A link: its length, its slug and its display text. -/
def wikiLinkPartsAt (_ : Option Char) :
    List Char → Option (Nat × (List Char × Option (List Char)))
  | '[' :: '[' :: rest =>
      let slug := rest.takeWhile isSlugChar
      if slug = [] then none
      else
        match rest.drop slug.length with
        | ']' :: ']' :: _ => some (slug.length + 4, slug, none)
        | '|' :: more =>
            let display := more.takeWhile isDisplayChar
            match more.drop display.length with
            | ']' :: ']' :: _ =>
                some (slug.length + display.length + 5, slug, some display)
            | _ => none
        | _ => none
  | _ => none

def wikiLinkMatches (content : List Char) :
    List ((Nat × Nat) × (List Char × Option (List Char))) :=
  allMatches wikiLinkPartsAt 0 0 none content

def trimmedText (chars : List Char) : String :=
  trim (String.ofList chars)

def wikiLinkMatch (content : List Char)
    (found : (Nat × Nat) × (List Char × Option (List Char))) :
    WikiLinkMatch where
  raw := (content.drop found.1.1).take (found.1.2 - found.1.1)
  slug := trimmedText found.2.1
  displayText := found.2.2.map trimmedText
  startIndex := found.1.1
  endIndex := found.1.2

/-- The links of a text outside its code. -/
def extractWikiLinkMatches (content : List Char) : List WikiLinkMatch :=
  let codeRanges := findCodeRanges content
  ((wikiLinkMatches content).filter fun found =>
    !isInsideCodeRange found.1 codeRanges).map (wikiLinkMatch content)

/-- What is captured can be mapped before or after the matching. -/
theorem allMatches_map {Capture Other : Type}
    {matchAt : Option Char → List Char → Option (Nat × Capture)}
    {other : Option Char → List Char → Option (Nat × Other)}
    {reads : Capture → Other}
    (same : ∀ before text, other before text =
      (matchAt before text).map (Prod.map id reads))
    (skip position : Nat) (before : Option Char) (text : List Char) :
    allMatches other skip position before text =
      (allMatches matchAt skip position before text).map
        (Prod.map id reads) := by
  induction text generalizing skip position before with
  | nil => cases skip <;> rfl
  | cons char rest induction =>
      cases skip with
      | succ skip =>
          rw [allMatches, allMatches]
          exact induction skip (position + 1) (some char)
      | zero =>
          rw [allMatches, allMatches, same]
          cases matchAt before (char :: rest) with
          | none => exact induction 0 (position + 1) (some char)
          | some found =>
              rw [Option.map_some, List.map_cons]
              exact congrArg _ (induction _ _ _)

theorem wikiLinkAt_eq (before : Option Char) (text : List Char) :
    wikiLinkAt before text =
      (wikiLinkPartsAt before text).map (Prod.map id Prod.fst) := by
  fun_cases wikiLinkAt before text with
  | case1 rest slug isEmpty => simp [wikiLinkPartsAt, slug, isEmpty]
  | case2 rest slug filled tail closed =>
      simp [wikiLinkPartsAt, slug, filled, closed]
  | case3 rest slug filled more piped display tail closed =>
      simp [wikiLinkPartsAt, slug, filled, piped, display, closed]
  | case4 rest slug filled more piped display unclosed =>
      simp [wikiLinkPartsAt, slug, filled, piped, display]
  | case5 rest slug filled unclosed unpiped =>
      simp [wikiLinkPartsAt, slug, filled]
  | case6 text unlinked =>
      unfold wikiLinkPartsAt
      split
      · exact absurd rfl (unlinked _)
      · rfl

/-- The links that are drawn between memories are the ones that are
resolved. -/
theorem extractWikiLinks_eq (content : String) :
    extractWikiLinks content = (extractWikiLinkMatches content.toList).map
      fun link => { slug := link.slug } := by
  rw [extractWikiLinks, allMatches_map wikiLinkAt_eq, List.filter_map,
    extractWikiLinkMatches, List.map_map, List.map_map]
  rfl

structure LinkTarget where
  id : String
  title : String
  deriving DecidableEq, Repr

structure ResolvedLink where
  slug : String
  memoryId : Option String
  resolved : Bool
  deriving DecidableEq, Repr

structure WikiLinkResolutionResult where
  resolvedContent : List Char
  links : List ResolvedLink
  deriving DecidableEq, Repr

abbrev ResolutionCache := List (String × Option LinkTarget)

/-- The resolver is asked once for each slug. -/
def resolutionCache (resolver : String → Option LinkTarget)
    (allLinks : List WikiLinkMatch) : ResolutionCache :=
  allLinks.foldl
    (fun cache link =>
      if cache.any (·.1 = link.slug) then cache
      else cache ++ [(link.slug, resolver link.slug)])
    []

/-- `cache.get(slug) ?? null` -/
def cachedTarget (cache : ResolutionCache) (slug : String) :
    Option LinkTarget :=
  ((cache.find? (·.1 = slug)).map Prod.snd).join

def resolvedLinks (cache : ResolutionCache) (allLinks : List WikiLinkMatch) :
    List ResolvedLink :=
  (allLinks.foldl
    (fun (seen, links) link =>
      if link.slug ∈ seen then (seen, links)
      else
        let target := cachedTarget cache link.slug
        (seen ++ [link.slug],
          links ++
            [{ slug := link.slug
               memoryId := target.map LinkTarget.id
               resolved := target.isSome }]))
    (([], []) : List String × List ResolvedLink)).2

/-- The Markdown reference that replaces a link. -/
def linkReference (link : WikiLinkMatch) (target : LinkTarget) : List Char :=
  let displayLabel := link.displayText.getD target.title
  ("[" ++ displayLabel ++ "](/api/memories/" ++ target.id ++ ")").toList

def replaceLink (cache : ResolutionCache) (link : WikiLinkMatch)
    (result : List Char) : List Char :=
  match cachedTarget cache link.slug with
  | none => result
  | some target =>
      result.take link.startIndex ++ linkReference link target ++
        result.drop link.endIndex

def resolveWikiLinks (content : List Char)
    (resolver : String → Option LinkTarget) : WikiLinkResolutionResult :=
  let allLinks := extractWikiLinkMatches content
  if allLinks = [] then
    { resolvedContent := content
      links := [] }
  else
    let cache := resolutionCache resolver allLinks
    { resolvedContent := allLinks.foldr (replaceLink cache) content
      links := resolvedLinks cache allLinks }

/-- A pattern that matches some of the text ahead, and no more than that. -/
def Matches {Capture : Type}
    (matchAt : Option Char → List Char → Option (Nat × Capture)) : Prop :=
  ∀ before text length capture, matchAt before text = some (length, capture) →
    0 < length ∧ length ≤ text.length

/-- Matches lie one behind the other in the text. -/
theorem allMatches_ordered {Capture : Type}
    {matchAt : Option Char → List Char → Option (Nat × Capture)}
    (valid : Matches matchAt) (edit : (Nat × Nat) × Capture → Option (List Char))
    (skip position : Nat) (before : Option Char) (text : List Char)
    (within : skip ≤ text.length) :
    Splice.Ordered (position + skip)
      ((allMatches matchAt skip position before text).map fun found =>
        (⟨found.1.1, found.1.2, edit found⟩ : Splice.Edit Char))
      (position + text.length) := by
  induction text generalizing skip position before with
  | nil => exact Nat.add_le_add_left within position
  | cons char rest induction =>
      cases skip with
      | succ skip =>
          have later := induction skip (position + 1) (some char)
            (Nat.le_of_succ_le_succ within)
          rw [allMatches, List.length_cons]
          rwa [show position + 1 + skip = position + (skip + 1) by omega,
            show position + 1 + rest.length = position + (rest.length + 1)
              by omega] at later
      | zero =>
          rw [allMatches, List.length_cons,
            show position + (rest.length + 1) = position + 1 + rest.length
              by omega]
          cases found : matchAt before (char :: rest) with
          | none =>
              have later := induction 0 (position + 1) (some char)
                (Nat.zero_le _)
              exact later.weaken (by omega)
          | some span =>
              obtain ⟨length, capture⟩ := span
              obtain ⟨positive, fits⟩ := valid _ _ _ _ found
              rw [List.length_cons] at fits
              have later := induction (length - 1) (position + 1) (some char)
                (by omega)
              rw [show position + 1 + (length - 1) = position + length
                by omega] at later
              exact ⟨Nat.le_refl _, Nat.le_add_right _ _, later⟩

theorem wikiLinkPartsAt_matches : Matches wikiLinkPartsAt := by
  intro before text length parts found
  unfold wikiLinkPartsAt at found
  split at found
  · rename_i rest
    dsimp only at found
    have slugs := List.takeWhile_prefix isSlugChar (l := rest) |>.length_le
    split at found
    · cases found
    · split at found
      · rename_i tail closed
        have left := congrArg List.length closed
        rw [List.length_drop, List.length_cons, List.length_cons] at left
        cases found
        simp only [List.length_cons]
        omega
      · rename_i more piped
        have left := congrArg List.length piped
        rw [List.length_drop, List.length_cons] at left
        split at found
        · rename_i tail closed
          have left' := congrArg List.length closed
          rw [List.length_drop, List.length_cons, List.length_cons] at left'
          cases found
          simp only [List.length_cons]
          omega
        · cases found
      · cases found
  · cases found

variable {resolver : String → Option LinkTarget}

/-- What is cached is what the resolver said. -/
def Faithful (resolver : String → Option LinkTarget)
    (cache : ResolutionCache) : Prop :=
  ∀ entry ∈ cache, entry.2 = resolver entry.1

theorem cachedTarget_eq {cache : ResolutionCache} {slug : String}
    (faithful : Faithful resolver cache)
    (cached : cache.any (·.1 = slug) = true) :
    cachedTarget cache slug = resolver slug := by
  obtain ⟨entry, member, same⟩ := List.any_eq_true.mp cached
  cases found : cache.find? (·.1 = slug) with
  | none => exact absurd same (List.find?_eq_none.mp found entry member)
  | some first =>
      have named : first.1 = slug := by simpa using List.find?_some found
      rw [cachedTarget, found, Option.map_some, Option.join_some,
        faithful first (List.mem_of_find?_eq_some found), named]

theorem cache_step {cache : ResolutionCache} (link : WikiLinkMatch)
    (faithful : Faithful resolver cache) :
    Faithful resolver
        (if cache.any (·.1 = link.slug) then cache
          else cache ++ [(link.slug, resolver link.slug)]) ∧
      (∀ slug, slug = link.slug ∨ cache.any (·.1 = slug) = true →
        (if cache.any (·.1 = link.slug) then cache
          else cache ++ [(link.slug, resolver link.slug)]).any
            (·.1 = slug) = true) := by
  split
  · rename_i cached
    exact ⟨faithful, fun slug known => known.elim (· ▸ cached) id⟩
  · constructor
    · intro entry member
      rcases List.mem_append.mp member with old | new
      · exact faithful entry old
      · rw [List.mem_singleton.mp new]
    · intro slug known
      rw [List.any_append]
      rcases known with rfl | old
      · simp
      · rw [old, Bool.true_or]

theorem resolutionCache_spec (allLinks : List WikiLinkMatch)
    (cache : ResolutionCache) (faithful : Faithful resolver cache) :
    let filled := allLinks.foldl
      (fun cache link =>
        if cache.any (·.1 = link.slug) then cache
        else cache ++ [(link.slug, resolver link.slug)])
      cache
    Faithful resolver filled ∧
      ∀ slug, (∃ link ∈ allLinks, link.slug = slug) ∨
        cache.any (·.1 = slug) = true → filled.any (·.1 = slug) = true := by
  induction allLinks generalizing cache with
  | nil => exact ⟨faithful, fun slug known => known.elim nofun id⟩
  | cons link allLinks induction =>
      obtain ⟨faithful', known'⟩ := cache_step link faithful
      obtain ⟨kept, filled⟩ := induction _ faithful'
      refine ⟨kept, fun slug known => filled slug ?_⟩
      rcases known with ⟨other, member, rfl⟩ | old
      · rcases List.mem_cons.mp member with rfl | later
        · exact .inr (known' _ (.inl rfl))
        · exact .inl ⟨other, later, rfl⟩
      · exact .inr (known' slug (.inr old))

theorem cachedTarget_resolutionCache {allLinks : List WikiLinkMatch}
    {link : WikiLinkMatch} (member : link ∈ allLinks) :
    cachedTarget (resolutionCache resolver allLinks) link.slug =
      resolver link.slug := by
  obtain ⟨faithful, filled⟩ := resolutionCache_spec allLinks [] nofun
  exact cachedTarget_eq faithful (filled link.slug (.inl ⟨link, member, rfl⟩))

/-- What resolution does at one link. -/
def linkEdit (resolver : String → Option LinkTarget) (link : WikiLinkMatch) :
    Splice.Edit Char where
  start := link.startIndex
  stop := link.endIndex
  written := (resolver link.slug).map (linkReference link)

def linkEdits (content : List Char) (resolver : String → Option LinkTarget) :
    List (Splice.Edit Char) :=
  (extractWikiLinkMatches content).map (linkEdit resolver)

/-- The text cut at its links, each resolved one replaced. -/
def resolvedPieces (content : List Char)
    (resolver : String → Option LinkTarget) : List (Splice.Piece Char) :=
  Splice.cut 0 (linkEdits content resolver) content

theorem linkEdits_ordered (content : List Char)
    (resolver : String → Option LinkTarget) :
    Splice.Ordered 0 (linkEdits content resolver) content.length := by
  have all := allMatches_ordered wikiLinkPartsAt_matches
    (fun found => (linkEdit resolver (wikiLinkMatch content found)).written) 0 0
    none content (Nat.zero_le _)
  rw [Nat.zero_add, Nat.zero_add] at all
  refine all.sublist ?_
  rw [linkEdits, extractWikiLinkMatches, List.map_map]
  exact List.filter_sublist.map _

theorem replaceLink_eq {allLinks : List WikiLinkMatch} {link : WikiLinkMatch}
    (member : link ∈ allLinks) (result : List Char) :
    replaceLink (resolutionCache resolver allLinks) link result =
      (linkEdit resolver link).apply result := by
  rw [replaceLink, cachedTarget_resolutionCache member, linkEdit,
    Splice.Edit.apply]
  cases resolver link.slug with
  | none => rfl
  | some target => rfl

theorem resolvedContent_eq (content : List Char)
    (resolver : String → Option LinkTarget) :
    (resolveWikiLinks content resolver).resolvedContent =
      (resolvedPieces content resolver).map Splice.Piece.symbol := by
  have cut := Splice.applyBackwards_eq (linkEdits_ordered content resolver)
  rw [List.take_zero, List.nil_append, List.drop_zero] at cut
  rw [resolvedPieces, ← cut, resolveWikiLinks, Splice.applyBackwards, linkEdits,
    List.foldr_map]
  dsimp only
  split
  · rename_i isNone
    rw [isNone]
    rfl
  · exact List.foldr_ext _ _ _ fun link member result =>
      replaceLink_eq member result

/-- The two ranges share a position. -/
def Meets (left right : Nat × Nat) : Prop :=
  max left.1 right.1 < min left.2 right.2

instance (left right : Nat × Nat) : Decidable (Meets left right) :=
  inferInstanceAs (Decidable (_ < _))

/-- Every character of the code is one that the cut keeps. -/
def KeepsCode (content : List Char) (resolver : String → Option LinkTarget) :
    Prop :=
  ∀ code ∈ findCodeRanges content, ∀ index char,
    content[index]? = some char → code.1 ≤ index → index < code.2 →
      .kept index char ∈ resolvedPieces content resolver

/-- A link that the resolver knows lies in code or apart from all of it. -/
def CodeApart (content : List Char) (resolver : String → Option LinkTarget) :
    Prop :=
  ∀ found ∈ wikiLinkMatches content, resolver (trimmedText found.2.1) ≠ none →
    isInsideCodeRange found.1 (findCodeRanges content) = true ∨
      ∀ code ∈ findCodeRanges content, ¬ Meets found.1 code

theorem mem_linkEdits {content : List Char}
    {resolver : String → Option LinkTarget} {edit : Splice.Edit Char} :
    edit ∈ linkEdits content resolver ↔ ∃ found ∈ wikiLinkMatches content,
      isInsideCodeRange found.1 (findCodeRanges content) = false ∧
        linkEdit resolver (wikiLinkMatch content found) = edit := by
  simp only [linkEdits, extractWikiLinkMatches, List.map_map, List.mem_map,
    List.mem_filter, Bool.not_eq_true', Function.comp_apply, and_assoc]

theorem kept_mem_resolvedPieces {content : List Char}
    {resolver : String → Option LinkTarget} {index : Nat} {char : Char} :
    .kept index char ∈ resolvedPieces content resolver ↔
      content[index]? = some char ∧ ∀ edit ∈ linkEdits content resolver,
        edit.written ≠ none → ¬ (edit.start ≤ index ∧ index < edit.stop) := by
  have kept := @Splice.kept_mem_cut _ 0 _ _ (linkEdits_ordered content resolver)
    index char
  rw [List.drop_zero] at kept
  exact kept.trans (and_iff_right (Nat.zero_le index))

theorem keepsCode_iff (content : List Char)
    (resolver : String → Option LinkTarget) :
    KeepsCode content resolver ↔ CodeApart content resolver := by
  constructor
  · intro keeps found member resolves
    rw [or_iff_not_imp_left]
    intro outside code isCode meets
    have edited : linkEdit resolver (wikiLinkMatch content found) ∈
        linkEdits content resolver :=
      mem_linkEdits.mpr ⟨found, member, Bool.of_not_eq_true outside, rfl⟩
    have within := (linkEdits_ordered content resolver).stop_le _ edited
    -- The first position that they share is replaced.
    have first : max found.1.1 code.1 < min found.1.2 code.2 := meets
    have short : max found.1.1 code.1 < content.length := by
      have : found.1.2 ≤ content.length := within
      omega
    have free := (kept_mem_resolvedPieces.mp (keeps code isCode _ _
      (List.getElem?_eq_getElem short) (Nat.le_max_right _ _) (by omega))).2 _
      edited
    refine free ?_ ⟨Nat.le_max_left _ _, ?_⟩
    · intro silent
      exact resolves (Option.map_eq_none_iff.mp silent)
    · change _ < found.1.2
      omega
  · intro apart code isCode index char isChar low high
    refine kept_mem_resolvedPieces.mpr ⟨isChar, fun edit member written => ?_⟩
    obtain ⟨found, isMatch, outside, rfl⟩ := mem_linkEdits.mp member
    rintro ⟨start, stop⟩
    have resolves : resolver (trimmedText found.2.1) ≠ none := by
      intro silent
      exact written (Option.map_eq_none_iff.mpr silent)
    rcases apart found isMatch resolves with inside | free
    · rw [outside] at inside
      cases inside
    · refine free code isCode ?_
      have start' : found.1.1 ≤ index := start
      have stop' : index < found.1.2 := stop
      exact Nat.lt_of_le_of_lt (Nat.max_le.mpr ⟨start', low⟩)
        (Nat.lt_min.mpr ⟨stop', high⟩)

/-- Resolution cuts the text at its links and replaces those that resolve, one
behind the other; it keeps all code where no link that resolves lies across the
edge of a code range. -/
theorem resolveWikiLinks_keepsCode_iff (content : List Char)
    (resolver : String → Option LinkTarget) :
    (resolveWikiLinks content resolver).resolvedContent =
        (resolvedPieces content resolver).map Splice.Piece.symbol ∧
      Splice.Ordered 0 (linkEdits content resolver) content.length ∧
      (KeepsCode content resolver ↔ CodeApart content resolver) :=
  ⟨resolvedContent_eq content resolver, linkEdits_ordered content resolver,
    keepsCode_iff content resolver⟩

/-- In "`a [[b` c]]" the brackets open a link inside the code that ends outside
of it. -/
theorem straddlingLink_changesCode :
    ¬ KeepsCode "\x60a [[b\x60 c]]".toList
        (fun _ => some ⟨"memory", "Title"⟩) ∧
      (resolveWikiLinks "\x60a [[b\x60 c]]".toList
        (fun _ => some ⟨"memory", "Title"⟩)).resolvedContent =
          "\x60a [Title](/api/memories/memory)".toList := by
  refine ⟨fun keeps => ?_, by decide +kernel⟩
  have code : (0, 7) ∈ findCodeRanges "\x60a [[b\x60 c]]".toList := by
    decide +kernel
  have kept := keeps (0, 7) code 3 '[' rfl (by decide) (by decide)
  revert kept
  decide +kernel

end Registrar
