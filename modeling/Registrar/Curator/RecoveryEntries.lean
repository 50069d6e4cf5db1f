import Registrar.Curator.RecoveryProposals

/-!
# The parts of a recovery plan

What the planner establishes of bindings and entries, and that the validator
accepts each entry that the planner wrote.
-/

namespace Registrar.Recovery

open Json

variable {env : RecoveryEnvironment}

theorem get?_string_of_same {left right : Json} (same : Same left right)
    (isLeft : left.Distinct) (isRight : right.Distinct) {name text : String}
    (isText : right.string? name = some text) :
    left.get? name = some (.string text) := by
  obtain ⟨other, isOther, agree⟩ :=
    same.exists_get? isLeft isRight (get?_of_string? isText)
  rw [isOther, same_string_iff.mp agree]

theorem get?_eq_none_of_same {left right : Json} (same : Same left right)
    (isLeft : left.Distinct) (isRight : right.Distinct) {name : String}
    (absent : right.get? name = none) : left.get? name = none := by
  have agree := same.get?_eq isLeft isRight name
  rw [absent, Option.map_none, Option.map_eq_none_iff] at agree
  exact agree

theorem string?_eq_of_same {left right : Json} (same : Same left right)
    (isLeft : left.Distinct) (isRight : right.Distinct) (name : String) :
    left.string? name = right.string? name := by
  unfold string?
  cases isFound : right.get? name with
  | none => rw [get?_eq_none_of_same same isLeft isRight isFound]
  | some found =>
      obtain ⟨other, isOther, agree⟩ := same.exists_get? isLeft isRight isFound
      rw [isOther]
      rcases Schema.same_cases agree with rfl | ⟨_, _, rfl, rfl, -⟩ |
        ⟨_, _, rfl, rfl⟩
      all_goals rfl

theorem string?_of_get? {value : Json} {name text : String}
    (isText : value.get? name = some (.string text)) :
    value.string? name = some text := by
  rw [string?, isText]

theorem textOf_of_string? {value : Json} {name text : String}
    (isText : value.string? name = some text) : textOf value name = text := by
  rw [textOf, isText, Option.getD_some]

theorem perm_names_of_same {left right : List (String × Json)}
    (same : Same (.object left) (.object right))
    (nodup : (left.map Prod.fst).Nodup) :
    (left.map Prod.fst).Perm (right.map Prod.fst) := by
  have names := ((sortKeys_object_eq_iff nodup).mp same).map Prod.fst
  rw [map_fst_sortFields, map_fst_sortFields] at names
  exact names

theorem insertionSort_eq_of_perm {left right : List String}
    (perm : left.Perm right) :
    left.insertionSort (· ≤ ·) = right.insertionSort (· ≤ ·) := by
  have total : Std.Total fun left right : String => left ≤ right :=
    ⟨String.le_total⟩
  have transitive : IsTrans String fun left right => left ≤ right :=
    ⟨fun _ _ _ => String.le_trans⟩
  exact List.Perm.eq_of_pairwise (fun _ _ _ _ => String.le_antisymm)
    (List.pairwise_insertionSort _ _) (List.pairwise_insertionSort _ _)
    ((List.perm_insertionSort _ _).trans
      (perm.trans (List.perm_insertionSort _ _).symm))

theorem record_of_same {value : Json} {fields : List (String × Json)}
    {keys : List String} (same : Same value (.object fields))
    (isValue : value.Distinct) (named : (fields.map Prod.fst).Perm keys) :
    ∃ others, value = .object others ∧ record value keys = .ok others := by
  obtain ⟨others, rfl⟩ := exists_object_of_same same
  refine ⟨others, rfl, ?_⟩
  rw [record, if_pos (insertionSort_eq_of_perm
    ((perm_names_of_same same isValue.1).trans named))]

theorem record_eq_ok {value : Json} {keys : List String}
    {fields : List (String × Json)} (isRecord : record value keys = .ok fields) :
    value = .object fields := by
  cases value with
  | object others =>
      rw [record] at isRecord
      split_ifs at isRecord
      cases isRecord
      rfl
  | _ => cases isRecord

theorem requireFresh_congr {left right : List Json}
    (agree : List.Forall₂ (fun first second : Json =>
      first.get? "id" = second.get? "id" ∧
        first.get? "snapshotDigest" = second.get? "snapshotDigest")
      left right) (ids : List String) :
    requireFresh env left ids = requireFresh env right ids := by
  induction agree generalizing ids with
  | nil => rfl
  | cons here later induction =>
      obtain ⟨sameId, sameDigest⟩ := here
      unfold requireFresh requireText textOf string?
      rw [sameId, sameDigest]
      simp only [induction]

theorem texts_of_requireFresh {bindings : List Json} {ids : List String}
    (fresh : requireFresh env bindings ids = .ok ()) :
    ∀ binding ∈ bindings,
      (∃ id, binding.string? "id" = some id ∧ env.isUuid id = true) ∧
      ∃ snapshot, binding.string? "snapshotDigest" = some snapshot ∧
        env.isSha256Hash snapshot = true := by
  induction bindings generalizing ids with
  | nil =>
      intro _ member
      cases member
  | cons first rest induction =>
      rw [requireFresh] at fresh
      obtain ⟨_, isId, afterId⟩ := Program.except_bind_eq_ok_iff.mp fresh
      obtain ⟨_, isDigest, afterDigest⟩ :=
        Program.except_bind_eq_ok_iff.mp afterId
      obtain ⟨_, -, later⟩ := Program.except_bind_eq_ok_iff.mp afterDigest
      intro binding member
      rcases List.mem_cons.mp member with rfl | inRest
      · exact ⟨requireText_eq_ok.mp isId, requireText_eq_ok.mp isDigest⟩
      · exact induction later binding inRest

theorem requireBindings_eq_ok {selections exclusions : Option Json}
    (passed : requireBindings env selections exclusions = .ok ()) :
    ∃ selected excluded, selections = some (.array selected) ∧
      exclusions = some (.array excluded) ∧
      requireFresh env (selected ++ excluded) [] = .ok () ∧
      1 ≤ selected.length ∧ selected.length ≤ 100 ∧
      excluded.length ≤ 100 := by
  unfold requireBindings at passed
  split at passed
  · rename_i selected excluded
    obtain ⟨_, inBounds, fresh⟩ := Program.except_bind_eq_ok_iff.mp passed
    rw [require_eq_ok] at inBounds
    exact ⟨selected, excluded, rfl, rfl, fresh, inBounds⟩
  · cases passed

theorem get?_bindingJson (binding : RecoverySnapshotBinding) :
    binding.json.get? "id" = some (.string binding.id) ∧
      binding.json.get? "snapshotDigest" =
        some (.string binding.snapshotDigest) := by
  simp [RecoverySnapshotBinding.json, Json.get?, field?]

/-- The bindings that were read pass as those that they were read from. -/
theorem requireBindings_of_read {selected excluded : List Json}
    (fresh : requireFresh env (selected ++ excluded) [] = .ok ())
    (inBounds : 1 ≤ selected.length ∧ selected.length ≤ 100 ∧
      excluded.length ≤ 100) :
    requireBindings env
      (some (.array ((selected.map bindingOf).map
        RecoverySnapshotBinding.json)))
      (some (.array ((excluded.map bindingOf).map
        RecoverySnapshotBinding.json))) = .ok () := by
  have read : ∀ bindings : List Json,
      (∀ binding ∈ bindings, binding ∈ selected ++ excluded) →
      List.Forall₂ (fun first second : Json =>
        first.get? "id" = second.get? "id" ∧
          first.get? "snapshotDigest" = second.get? "snapshotDigest")
        ((bindings.map bindingOf).map RecoverySnapshotBinding.json)
        bindings := by
    intro bindings inside
    rw [List.map_map, List.forall₂_map_left_iff, List.forall₂_same]
    intro binding member
    obtain ⟨⟨id, isId, -⟩, snapshot, isSnapshot, -⟩ :=
      texts_of_requireFresh fresh binding (inside binding member)
    obtain ⟨readId, readSnapshot⟩ := get?_bindingJson (bindingOf binding)
    rw [get?_of_string? isId, get?_of_string? isSnapshot]
    refine ⟨readId.trans ?_, readSnapshot.trans ?_⟩
    · rw [bindingOf, textOf_of_string? isId]
    · rw [bindingOf, textOf_of_string? isSnapshot]
  unfold requireBindings
  dsimp only
  rw [Program.except_bind_eq_ok_iff]
  refine ⟨(), require_eq_ok.mpr (by simpa using inBounds), ?_⟩
  rw [← fresh]
  rw [← List.map_append, ← List.map_append]
  exact requireFresh_congr (read _ fun _ member => member) []

theorem findSource_eq_ok {store : RecoveryStore}
    {binding : RecoverySnapshotBinding} {input source : Json}
    {missing : String}
    (found : findSource env store binding input missing = .ok source) :
    requireSource env source binding input = .ok () ∧
      (curatedMemory env).parse source = some source ∧ source.IsValue := by
  obtain ⟨read, isRead, afterRead⟩ := Program.except_bind_eq_ok_iff.mp found
  cases read with
  | none => cases afterRead
  | some memory =>
      obtain ⟨_, passed, returned⟩ :=
        Program.except_bind_eq_ok_iff.mp afterRead
      cases returned
      unfold RecoveryStore.findById at isRead
      cases isRow : store.memories.find? fun row =>
          row.1.string? "id" = some binding.id with
      | none =>
          rw [isRow] at isRead
          cases isRead
      | some row =>
          rw [isRow] at isRead
          cases isParsed : parse (curatedMemory env) "" (some row.1) with
          | error error =>
              dsimp only at isRead
              rw [isParsed] at isRead
              cases isRead
          | ok parsed =>
              dsimp only at isRead
              rw [isParsed] at isRead
              cases isRead
              have accepted := parse_eq_ok.mp isParsed
              rw [Option.bind_some] at accepted
              exact ⟨passed,
                Schema.parse_parse (curatedMemory_normal env) accepted,
                Schema.isValue_of_parse (curatedMemory_normal env) row.2
                  accepted⟩

/-- A proposal as the planner attests it. -/
theorem exists_origin_of_attested {source input proposal : Json}
    {allowedChannels : List String} {origin : Option OriginOption}
    (isInput : input.IsValue)
    (attested : attestedProposal env source input allowedChannels origin =
      .ok proposal) :
    ∃ given, proposalFor env source input allowedChannels given =
        .ok proposal ∧
      given.isSome = origin.isSome ∧
      ∀ token, given = some token →
        token.IsValue ∧ token.get? "mintedAt" = input.get? "createdAt" := by
  obtain ⟨first, isFirst, afterFirst⟩ :=
    Program.except_bind_eq_ok_iff.mp attested
  cases origin with
  | none =>
      cases afterFirst
      exact ⟨none, isFirst, rfl, fun _ isToken => by cases isToken⟩
  | some origin =>
      refine ⟨_, afterFirst, rfl, ?_⟩
      rintro _ ⟨⟩
      constructor
      · refine Schema.isValue_object ?_ ?_
        · rw [List.map_append]
          exact List.Nodup.sublist
            ((List.Sublist.refl ["tokenHmac", "channel"]).append
              (Schema.names_optionalField "mintedAt" _)) (by decide)
        · intro field member
          rcases List.mem_append.mp member with fixed | minted
          · simp only [List.mem_cons, List.not_mem_nil, or_false] at fixed
            rcases fixed with rfl | rfl <;> exact isValue_string _
          · exact Schema.isValue_optionalField
              (fun _ isFound => isInput.get? isFound) field minted
      · rw [mintOrigin, Json.get?, field?_append, field?_optionalField,
          if_pos rfl]
        simp [field?]

/-- What the planner has established of an entry. -/
structure PlannedEntry (env : RecoveryEnvironment) (input : Json)
    (allowedChannels : List String) (fresh : Bool)
    (binding : RecoverySnapshotBinding) (entry : RecoveryPlanEntry) :
    Prop where
  passes : requireSource env entry.source binding input = .ok ()
  sourceNormal : (curatedMemory env).parse entry.source = some entry.source
  isSource : entry.source.IsValue
  snapshot : entry.sourceSnapshotDigest = binding.snapshotDigest
  proposalNormal :
    (memoryCandidate env).parse entry.proposal = some entry.proposal
  isProposal : entry.proposal.IsValue
  derived : proposalFor env entry.source input allowedChannels
    (entry.proposal.get? "origin") = .ok entry.proposal
  attested : (entry.proposal.get? "origin").isSome = fresh
  minted : ∀ origin, entry.proposal.get? "origin" = some origin →
    origin.string? "mintedAt" = input.string? "createdAt"
  candidateSnapshot : candidateSnapshotDigest env entry.proposal =
    .ok entry.candidateSnapshotDigest

theorem origin_string?_mintedAt {given origin : Json}
    (parsed : (candidateOrigin env).parse given = some origin) :
    origin.string? "mintedAt" = given.string? "mintedAt" := by
  obtain ⟨content, isContent, -, kept⟩ := Schema.exists_text_of_parse
    (candidateOrigin_normal env).1 (parse_of_refine parsed)
    (List.mem_cons_of_mem _ (List.mem_cons_of_mem _ List.mem_cons_self))
  rw [isContent, kept]
  rfl

theorem planEntry_eq_ok {store : RecoveryStore} {input : Json}
    {allowedChannels : List String} {origin : Option OriginOption}
    {active : List Json} {earlier : List RecoveryPlanEntry}
    {binding : RecoverySnapshotBinding} {entry : RecoveryPlanEntry}
    (actor : ∃ parsed, (input.get? "actor").bind author.parse = some parsed)
    (isInput : input.IsValue)
    (planned : planEntry env store input allowedChannels origin active earlier
      binding = .ok entry) :
    PlannedEntry env input allowedChannels origin.isSome binding entry ∧
      textOf entry.source "contentHash" ∉
        earlier.map fun entry => textOf entry.source "contentHash" := by
  unfold planEntry at planned
  obtain ⟨source, isFound, afterSource⟩ :=
    Program.except_bind_eq_ok_iff.mp planned
  obtain ⟨proposal, isAttested, afterProposal⟩ :=
    Program.except_bind_eq_ok_iff.mp afterSource
  obtain ⟨_, noConflict, afterConflict⟩ :=
    Program.except_bind_eq_ok_iff.mp afterProposal
  obtain ⟨_, -, afterRedacted⟩ :=
    Program.except_bind_eq_ok_iff.mp afterConflict
  obtain ⟨_, -, afterExclusion⟩ :=
    Program.except_bind_eq_ok_iff.mp afterRedacted
  obtain ⟨_, -, afterSupersession⟩ :=
    Program.except_bind_eq_ok_iff.mp afterExclusion
  obtain ⟨snapshot, isSnapshot, returned⟩ :=
    Program.except_bind_eq_ok_iff.mp afterSupersession
  cases returned
  obtain ⟨passes, normal, isSource⟩ := findSource_eq_ok isFound
  obtain ⟨given, isGiven, someGiven, tokens⟩ :=
    exists_origin_of_attested isInput isAttested
  have kept := origin_of_proposalFor isGiven
  have again := Schema.read_optional_of_read (candidateOrigin_normal env) kept
  have unchanged : SameAuthority input input := by
    obtain ⟨parsed, isParsed⟩ := actor
    exact
      { texts := fun _ _ => rfl
        actor := ⟨parsed, isParsed, isParsed⟩ }
  refine ⟨?_, (require_eq_ok.mp noConflict).1⟩
  exact
    { passes := passes
      sourceNormal := normal
      isSource := isSource
      snapshot := rfl
      proposalNormal := proposalFor_normal isGiven
      isProposal := isValue_proposal isSource isInput
        (fun token isToken => (tokens token isToken).1) isGiven
      derived := by
        rw [← isGiven]
        exact unchanged.proposalFor_eq source allowedChannels
          (again.trans kept.symm)
      attested := by
        rw [← someGiven]
        cases given with
        | none =>
            rw [← Option.some.inj kept]
        | some token =>
            rw [Presence.read] at kept
            obtain ⟨result, -, isResult⟩ := Option.map_eq_some_iff.mp kept
            rw [← isResult]
            rfl
      minted := by
        intro found isFound
        cases given with
        | none =>
            rw [isFound] at kept
            cases kept
        | some token =>
            rw [isFound, Presence.read] at kept
            obtain ⟨result, isResult, same⟩ := Option.map_eq_some_iff.mp kept
            cases same
            rw [origin_string?_mintedAt isResult, string?, string?,
              (tokens token rfl).2]
      candidateSnapshot := isSnapshot }

/-! ## What the validator makes of an entry -/

theorem sensitivity_of_source {source : Json}
    (normal : (curatedMemory env).parse source = some source) :
    ∃ value, source.get? "sensitivity" = some value := by
  have read := @Schema.read_get?_of_parse _ source source
    (curatedMemory_normal env).1 (parse_of_refine normal) "sensitivity"
    (.default (.string "internal")) sensitivity (by simp)
  cases isFound : source.get? "sensitivity" with
  | none =>
      rw [isFound] at read
      cases read
  | some value => exact ⟨value, rfl⟩

theorem requireSource_eq_ok {source input : Json}
    {binding : RecoverySnapshotBinding}
    (passes : requireSource env source binding input = .ok ()) :
    source.string? "id" = some binding.id ∧
      ∃ parsed, (curatedMemory env).parse source = some parsed ∧
        digest env parsed = binding.snapshotDigest := by
  unfold requireSource at passes
  obtain ⟨_, isSource, afterSource⟩ :=
    Program.except_bind_eq_ok_iff.mp passes
  obtain ⟨snapshot, isSnapshot, agrees⟩ :=
    Program.except_bind_eq_ok_iff.mp afterSource
  obtain ⟨parsed, isParsed, returned⟩ :=
    Program.except_bind_eq_ok_iff.mp isSnapshot
  cases returned
  exact ⟨(require_eq_ok.mp isSource).1, parsed, parse_eq_ok.mp isParsed,
    (require_eq_ok.mp agrees).1⟩

/-- The validator accepts what the planner wrote of an entry, and accounts for
the binding that it was planned for. -/
theorem validateEntry_of_planned {input plan raw : Json}
    {allowedChannels hashes : List String} {fresh : Bool}
    {binding : RecoverySnapshotBinding} {entry : RecoveryPlanEntry}
    (isHash : ∀ text, env.isSha256Hash (env.sha256 text) = true)
    (planned : PlannedEntry env input allowedChannels fresh binding entry)
    (authority : SameAuthority input plan)
    (mode : plan.string? "originMode" = some "fresh" ↔ fresh = true)
    (unseen : textOf entry.source "contentHash" ∉ hashes)
    (isRaw : raw.IsValue) (same : Same raw entry.json) :
    ∃ valid, validateEntry env plan allowedChannels hashes raw = .ok valid ∧
      valid.binding = binding ∧
      valid.contentHash = textOf entry.source "contentHash" ∧
      Same valid.json raw := by
  obtain ⟨sensitive, isSensitive⟩ := sensitivity_of_source planned.sourceNormal
  obtain ⟨isId, parsed, isParsed, isSnapshot⟩ :=
    requireSource_eq_ok planned.passes
  have names : entry.json = .object
      [("source", entry.source),
        ("sourceSnapshotDigest", .string entry.sourceSnapshotDigest),
        ("proposal", entry.proposal),
        ("candidateSnapshotDigest", .string entry.candidateSnapshotDigest),
        ("minimumSensitivity", sensitive)] := by
    rw [RecoveryPlanEntry.json, isSensitive]
    rfl
  rw [names] at same
  have isSensitiveValue := planned.isSource.get? isSensitive
  have isEntry : (Json.object
      [("source", entry.source),
        ("sourceSnapshotDigest", .string entry.sourceSnapshotDigest),
        ("proposal", entry.proposal),
        ("candidateSnapshotDigest", .string entry.candidateSnapshotDigest),
        ("minimumSensitivity", sensitive)]).Distinct :=
    ⟨by simp, planned.isSource.distinct, trivial, planned.isProposal.distinct,
      trivial, isSensitiveValue.distinct, trivial⟩
  obtain ⟨fields, rfl, isRecord⟩ := @record_of_same _ _ entryKeys same
    isRaw.distinct (.refl entryKeys)
  obtain ⟨rawSource, hasSource, sameSource⟩ := @Same.exists_get? _ _ same
    isRaw.distinct isEntry "source" entry.source (by simp [Json.get?, field?])
  obtain ⟨rawProposal, hasProposal, sameProposal⟩ := @Same.exists_get? _ _ same
    isRaw.distinct isEntry "proposal" entry.proposal
    (by simp [Json.get?, field?])
  have readSource : (curatedMemory env).parse rawSource =
      some entry.source := by
    rw [Schema.parse_eq_of_same (curatedMemory_closed env) sameSource
      (isRaw.get? hasSource).distinct planned.isSource.distinct]
    exact planned.sourceNormal
  have readProposal : (memoryCandidate env).parse rawProposal =
      some entry.proposal := by
    rw [Schema.parse_eq_of_same (memoryCandidate_closed env) sameProposal
      (isRaw.get? hasProposal).distinct planned.isProposal.distinct]
    exact planned.proposalNormal
  have hasSnapshot : (Json.object fields).string? "sourceSnapshotDigest" =
      some entry.sourceSnapshotDigest := by
    rw [string?_eq_of_same same isRaw.distinct isEntry]
    simp [string?, Json.get?, field?]
  have hasCandidate : (Json.object fields).string? "candidateSnapshotDigest" =
      some entry.candidateSnapshotDigest := by
    rw [string?_eq_of_same same isRaw.distinct isEntry]
    simp [string?, Json.get?, field?]
  have hasSensitivity : (Json.object fields).string? "minimumSensitivity" =
      entry.source.string? "sensitivity" := by
    rw [string?_eq_of_same same isRaw.distinct isEntry, string?, string?,
      isSensitive]
    simp [Json.get?, field?]
  have snapshotHash : env.isSha256Hash entry.sourceSnapshotDigest = true := by
    rw [planned.snapshot, ← isSnapshot]
    exact isHash _
  have candidateHash :
      env.isSha256Hash entry.candidateSnapshotDigest = true := by
    obtain ⟨_, -, returned⟩ :=
      Program.except_bind_eq_ok_iff.mp planned.candidateSnapshot
    rw [← Except.ok.inj returned]
    exact isHash _
  have isBinding : ({ id := textOf entry.source "id"
                      snapshotDigest := textOf (.object fields)
                        "sourceSnapshotDigest" } : RecoverySnapshotBinding) =
      binding := by
    rw [textOf_of_string? isId, textOf_of_string? hasSnapshot,
      planned.snapshot]
  refine ⟨{ json := .object (setField "proposal" entry.proposal
              (setField "source" entry.source fields))
            binding := binding
            contentHash := textOf entry.source "contentHash" },
    ?_, rfl, rfl, ?_⟩
  · refine Program.except_bind_eq_ok_iff.mpr ⟨_, isRecord, ?_⟩
    refine Program.except_bind_eq_ok_iff.mpr
      ⟨entry.source, parse_eq_ok.mpr ?_, ?_⟩
    · rw [show field? fields "source" = some rawSource from hasSource]
      exact readSource
    refine Program.except_bind_eq_ok_iff.mpr
      ⟨entry.proposal, parse_eq_ok.mpr ?_, ?_⟩
    · rw [show field? fields "proposal" = some rawProposal from hasProposal]
      exact readProposal
    refine Program.except_bind_eq_ok_iff.mpr
      ⟨(), requireText_eq_ok.mpr ⟨_, hasSnapshot, snapshotHash⟩, ?_⟩
    dsimp only
    rw [isBinding]
    refine Program.except_bind_eq_ok_iff.mpr ⟨(), ?_, ?_⟩
    · rw [← authority.requireSource_eq]
      exact planned.passes
    refine Program.except_bind_eq_ok_iff.mpr
      ⟨(), require_eq_ok.mpr ⟨?_, ?_, hasSensitivity, unseen⟩, ?_⟩
    · rw [mode, planned.attested]
    · rw [Option.all_eq_true]
      intro origin isOrigin
      rw [decide_eq_true_eq, planned.minted origin isOrigin,
        authority.string?_eq (by simp)]
    refine Program.except_bind_eq_ok_iff.mpr
      ⟨_, planned.candidateSnapshot, ?_⟩
    refine Program.except_bind_eq_ok_iff.mpr
      ⟨(), requireText_eq_ok.mpr ⟨_, hasCandidate, candidateHash⟩, ?_⟩
    refine Program.except_bind_eq_ok_iff.mpr
      ⟨(), require_eq_ok.mpr hasCandidate.symm, ?_⟩
    refine Program.except_bind_eq_ok_iff.mpr ⟨entry.proposal, ?_, ?_⟩
    · rw [← authority.proposalFor_eq entry.source allowedChannels rfl]
      exact planned.derived
    refine Program.except_bind_eq_ok_iff.mpr
      ⟨(), require_eq_ok.mpr (deepEquals_of_same (.refl _)), ?_⟩
    rfl
  · have nodup := isRaw.distinct.1
    have first : Same (.object (setField "source" entry.source fields))
        (.object fields) := same_setField nodup hasSource sameSource.symm
    refine Same.trans (same_setField (nodup_setField _ _ nodup) ?_
      sameProposal.symm) first
    rw [field?_setField_of_ne _ _ (by decide)]
    exact hasProposal

/-- The entries of a plan, from any place of the list on. -/
theorem validateEntries_of_planned {store : RecoveryStore} {input plan : Json}
    {allowedChannels : List String} {origin : Option OriginOption}
    {active : List Json} {bindings : List RecoverySnapshotBinding}
    {entries : List RecoveryPlanEntry} {raws : List Json}
    (isHash : ∀ text, env.isSha256Hash (env.sha256 text) = true)
    (isInput : input.IsValue) (authority : SameAuthority input plan)
    (mode : plan.string? "originMode" = some "fresh" ↔ origin.isSome = true)
    (isRaw : ∀ raw ∈ raws, raw.IsValue)
    (same : List.Forall₂ Same raws (entries.map RecoveryPlanEntry.json))
    {earlier : List RecoveryPlanEntry} {hashes : List String}
    (seen : ∀ hash ∈ hashes,
      hash ∈ earlier.map fun entry => textOf entry.source "contentHash")
    (planned : planEntries env store input allowedChannels origin active
      earlier bindings = .ok entries) :
    ∃ valids, validateEntries env plan allowedChannels hashes raws =
        .ok valids ∧
      valids.map ValidEntry.binding = bindings ∧
      List.Forall₂ Same (valids.map ValidEntry.json) raws := by
  induction bindings generalizing earlier hashes entries raws with
  | nil =>
      cases planned
      cases same
      exact ⟨[], rfl, rfl, .nil⟩
  | cons binding rest induction =>
      rw [planEntries] at planned
      obtain ⟨entry, isEntry, afterEntry⟩ :=
        Program.except_bind_eq_ok_iff.mp planned
      obtain ⟨others, areOthers, returned⟩ :=
        Program.except_bind_eq_ok_iff.mp afterEntry
      cases returned
      cases same with
      | @cons raw _ rawRest _ here later =>
          obtain ⟨parsed, isParsed, -⟩ := authority.actor
          obtain ⟨facts, unseen⟩ :=
            planEntry_eq_ok ⟨parsed, isParsed⟩ isInput isEntry
          obtain ⟨valid, isValid, accounts, hash, kept⟩ :=
            validateEntry_of_planned isHash facts authority mode
              (fun known => unseen (seen _ known))
              (isRaw raw List.mem_cons_self) here
          obtain ⟨valids, areValid, bound, keptRest⟩ :=
            @induction others rawRest
              (fun other member => isRaw other (List.mem_cons_of_mem _ member))
              later (earlier ++ [entry]) (valid.contentHash :: hashes)
              (by
                intro known member
                rw [List.map_append, List.mem_append]
                rcases List.mem_cons.mp member with rfl | old
                · right
                  rw [hash]
                  exact List.mem_singleton.mpr rfl
                · exact .inl (seen known old))
              areOthers
          refine ⟨valid :: valids, ?_, ?_, .cons kept keptRest⟩
          · rw [validateEntries]
            refine Program.except_bind_eq_ok_iff.mpr ⟨valid, isValid, ?_⟩
            exact Program.except_bind_eq_ok_iff.mpr ⟨valids, areValid, rfl⟩
          · rw [List.map_cons, accounts, bound]

structure PlanParts where
  actor : Json
  selected : List Json
  excluded : List Json
  active : List Json
  entries : List RecoveryPlanEntry
  policies : List Json

def RecoveryPlanOptions.channels (options : RecoveryPlanOptions) :
    List String :=
  options.allowedOriginChannels.getD defaultAllowedOriginChannels

def PlanParts.payload (parts : PlanParts) (env : RecoveryEnvironment)
    (input : Json) (options : RecoveryPlanOptions) : List (String × Json) :=
  planPayload env input parts.actor (parts.excluded.map bindingOf)
    parts.entries parts.policies options.channels
    (if options.origin.isSome then "fresh" else "unattested")

def PlanParts.fields (parts : PlanParts) (env : RecoveryEnvironment)
    (input : Json) (options : RecoveryPlanOptions) : List (String × Json) :=
  parts.payload env input options ++
    [("digest", .string (digest env (.object
      (parts.payload env input options))))]

/-- What the planner has established of its plan. -/
structure PlanParts.Planned (parts : PlanParts) (env : RecoveryEnvironment)
    (input : JsonValue) (store : RecoveryStore)
    (options : RecoveryPlanOptions) : Prop where
  authority : requireAuthority env input.1 = .ok ()
  selections : input.1.get? "selections" = some (.array parts.selected)
  exclusions : input.1.get? "exclusions" = some (.array parts.excluded)
  fresh : requireFresh env (parts.selected ++ parts.excluded) [] = .ok ()
  inBounds : 1 ≤ parts.selected.length ∧ parts.selected.length ≤ 100 ∧
    parts.excluded.length ≤ 100
  solid : options.channels.all isSolid = true
  policies : store.policiesOf env (textOf input.1 "targetTenantId") =
    .ok parts.policies
  enabled : parts.policies.any isEnabled = true
  entries : planEntries env store input.1 options.channels options.origin
    parts.active [] (parts.selected.map bindingOf) = .ok parts.entries
  actor : (input.1.get? "actor").bind author.parse = some parts.actor

theorem exists_parts_of_plan {input : JsonValue} {store : RecoveryStore}
    {options : RecoveryPlanOptions} {plan : Json}
    (planned : planMemoryRecovery env input store options = .ok plan) :
    ∃ parts : PlanParts, parts.Planned env input store options ∧
      jsonValue (.object (parts.fields env input.1 options)) = .ok plan := by
  unfold planMemoryRecovery at planned
  obtain ⟨_, authority, afterAuthority⟩ :=
    Program.except_bind_eq_ok_iff.mp planned
  obtain ⟨_, bound, afterBindings⟩ :=
    Program.except_bind_eq_ok_iff.mp afterAuthority
  obtain ⟨_, solid, afterChannels⟩ :=
    Program.except_bind_eq_ok_iff.mp afterBindings
  obtain ⟨_, -, afterSecret⟩ := Program.except_bind_eq_ok_iff.mp afterChannels
  obtain ⟨_, -, afterLocator⟩ := Program.except_bind_eq_ok_iff.mp afterSecret
  obtain ⟨policies, arePolicies, afterPolicies⟩ :=
    Program.except_bind_eq_ok_iff.mp afterLocator
  obtain ⟨_, enabled, afterEnabled⟩ :=
    Program.except_bind_eq_ok_iff.mp afterPolicies
  obtain ⟨_, -, afterExclusions⟩ :=
    Program.except_bind_eq_ok_iff.mp afterEnabled
  obtain ⟨active, -, afterActive⟩ :=
    Program.except_bind_eq_ok_iff.mp afterExclusions
  obtain ⟨entries, areEntries, afterEntries⟩ :=
    Program.except_bind_eq_ok_iff.mp afterActive
  obtain ⟨actor, isActor, written⟩ :=
    Program.except_bind_eq_ok_iff.mp afterEntries
  obtain ⟨selected, excluded, selections, exclusions, fresh, inBounds⟩ :=
    requireBindings_eq_ok bound
  rw [selections] at areEntries
  rw [exclusions] at written
  exact ⟨{ actor := actor
           selected := selected
           excluded := excluded
           active := active
           entries := entries
           policies := policies },
    { authority := authority
      selections := selections
      exclusions := exclusions
      fresh := fresh
      inBounds := inBounds
      solid := require_eq_ok.mp solid
      policies := arePolicies
      enabled := require_eq_ok.mp enabled
      entries := areEntries
      actor := parse_eq_ok.mp isActor },
    written⟩

/-- The authority holds its texts. -/
theorem exists_text_of_authority {input : Json}
    (authority : requireAuthority env input = .ok ()) :
    ∀ name ∈ authorityNames, ∃ text, input.string? name = some text := by
  unfold requireAuthority at authority
  obtain ⟨_, isRun, afterRun⟩ := Program.except_bind_eq_ok_iff.mp authority
  obtain ⟨_, isCreated, afterCreated⟩ :=
    Program.except_bind_eq_ok_iff.mp afterRun
  obtain ⟨_, isSource, afterSource⟩ :=
    Program.except_bind_eq_ok_iff.mp afterCreated
  obtain ⟨_, isTarget, afterTarget⟩ :=
    Program.except_bind_eq_ok_iff.mp afterSource
  obtain ⟨_, -, afterActor⟩ := Program.except_bind_eq_ok_iff.mp afterTarget
  obtain ⟨_, declared, located⟩ :=
    Program.except_bind_eq_ok_iff.mp afterActor
  obtain ⟨-, -, role, reason, -⟩ := require_eq_ok.mp declared
  have locator := require_eq_ok.mp located
  obtain ⟨run, hasRun, -⟩ := requireText_eq_ok.mp isRun
  obtain ⟨created, hasCreated, -⟩ := requireText_eq_ok.mp isCreated
  obtain ⟨source, hasSource, -⟩ := requireText_eq_ok.mp isSource
  obtain ⟨target, hasTarget, -⟩ := requireText_eq_ok.mp isTarget
  obtain ⟨why, hasReason, -⟩ := (Option.any_eq_true _ _).mp reason
  obtain ⟨place, hasLocator, -⟩ := (Option.any_eq_true _ _).mp locator
  intro name member
  rcases mem_authorityNames.mp member with
    rfl | rfl | rfl | rfl | rfl | rfl | rfl
  · exact ⟨run, hasRun⟩
  · exact ⟨created, hasCreated⟩
  · exact ⟨place, hasLocator⟩
  · exact ⟨source, hasSource⟩
  · exact ⟨target, hasTarget⟩
  · rcases role with admin | owner
    · exact ⟨_, admin⟩
    · exact ⟨_, owner⟩
  · exact ⟨why, hasReason⟩

end Registrar.Recovery
