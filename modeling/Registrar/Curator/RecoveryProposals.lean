import Registrar.Curator.RecoveryPlan

/-!
# The proposals of a recovery plan

Planner and validator derive a proposal from what each holds of the authority.
They derive the same one, although the planner holds the actor as it was given
and the validator as its schema parsed it.
-/

namespace Registrar.Recovery

open Json

variable {env : RecoveryEnvironment}

@[simp]
theorem require_eq_ok {condition : Prop} [Decidable condition]
    {error : RegistrarError} {result : Unit} :
    require condition error = .ok result ↔ condition := by
  unfold require
  split_ifs with holds <;> simp [holds]

theorem parse_eq_ok {schema : Schema} {path : String} {value : Option Json}
    {result : Json} :
    parse schema path value = .ok result ↔
      value.bind schema.parse = some result := by
  unfold parse
  cases value.bind schema.parse <;> simp

theorem requireText_eq_ok {normalize : String → String}
    {accepts : String → Bool} {input : Json} {name : String} {result : Unit} :
    requireText (.text normalize accepts) input name = .ok result ↔
      ∃ content, input.string? name = some content ∧
        accepts (normalize content) = true := by
  unfold requireText string?
  rw [Program.except_bind_eq_ok_iff]
  simp only [parse_eq_ok]
  cases input.get? name with
  | none => simp
  | some value =>
      cases value <;> simp [Schema.parse, pure, Except.pure]

theorem jsonValue_of_wellFormed {value : Json}
    (wellFormed : value.WellFormed) : jsonValue value = .ok value := by
  rw [jsonValue, parse_stringify wellFormed]

theorem get?_of_string? {value : Json} {name text : String}
    (isText : value.string? name = some text) :
    value.get? name = some (.string text) := by
  unfold string? at isText
  cases isFound : value.get? name with
  | none =>
      rw [isFound] at isText
      cases isText
  | some found =>
      rw [isFound] at isText
      cases found <;> simp_all

theorem parse_of_refine {inner : Schema} {accepts : Json → Bool}
    {value result : Json}
    (parsed : (Schema.refine inner accepts).parse value = some result) :
    inner.parse value = some result := by
  rw [Schema.parse, Option.filter_eq_some_iff] at parsed
  exact parsed.1

theorem parse_author {actor parsed : Json}
    (isParsed : author.parse actor = some parsed) :
    ∃ id, actor.string? "id" = some id ∧ trim id ≠ "" ∧
      parsed.string? "id" = some (trim id) ∧
      actor.string? "type" = parsed.string? "type" := by
  have nodup := author_normal.1
  obtain ⟨id, isId, solid, kept⟩ := Schema.exists_text_of_parse nodup isParsed
    (List.mem_cons_of_mem _ List.mem_cons_self)
  obtain ⟨type, isType, -, stays⟩ := Schema.exists_text_of_parse nodup isParsed
    List.mem_cons_self
  exact ⟨id, isId, of_decide_eq_true solid, kept, by rw [isType, stays]; rfl⟩

theorem parse_humanAuthor (id : String) :
    author.parse (humanAuthor id) =
      if trim id = "" then none else some (humanAuthor (trim id)) := by
  have isType : field? [("type", Json.string "human"), ("id", .string id)]
      "type" = some (.string "human") := by
    simp [field?]
  have isId : field? [("type", Json.string "human"), ("id", .string id)]
      "id" = some (.string id) := by
    simp [field?]
  have noName : field? [("type", Json.string "human"), ("id", .string id)]
      "name" = none := by
    simp [field?]
  unfold author humanAuthor
  simp only [Schema.parse, Schema.parseFields, isType, isId, noName,
    Presence.read, enumeration, nonEmptyString]
  by_cases empty : trim id = "" <;> simp [empty, optionalField]

def authorityNames : List String :=
  ["runId", "createdAt", "storeLocator", "sourceTenantId", "targetTenantId",
    "role", "reason"]

@[simp]
theorem mem_authorityNames {name : String} :
    name ∈ authorityNames ↔ name = "runId" ∨ name = "createdAt" ∨
      name = "storeLocator" ∨ name = "sourceTenantId" ∨
      name = "targetTenantId" ∨ name = "role" ∨ name = "reason" := by
  simp [authorityNames]

/-- The two hold the same authority, up to the normal form of the actor. -/
structure SameAuthority (left right : Json) : Prop where
  texts : ∀ name ∈ authorityNames, left.get? name = right.get? name
  actor : ∃ parsed, (left.get? "actor").bind author.parse = some parsed ∧
    (right.get? "actor").bind author.parse = some parsed

section SameAuthority

variable {left right : Json}

theorem SameAuthority.string?_eq (same : SameAuthority left right)
    {name : String} (member : name ∈ authorityNames) :
    left.string? name = right.string? name := by
  unfold string?
  rw [same.texts name member]

theorem SameAuthority.textOf_eq (same : SameAuthority left right)
    {name : String} (member : name ∈ authorityNames) :
    textOf left name = textOf right name := by
  unfold textOf
  rw [same.string?_eq member]

theorem SameAuthority.requireText_eq (same : SameAuthority left right)
    (schema : Schema) {name : String} (member : name ∈ authorityNames) :
    requireText schema left name = requireText schema right name := by
  unfold requireText
  rw [same.texts name member]

theorem SameAuthority.requireAuthority_eq (same : SameAuthority left right) :
    requireAuthority env left = requireAuthority env right := by
  obtain ⟨parsed, isLeft, isRight⟩ := same.actor
  obtain ⟨first, hasFirst, parsedFirst⟩ := Option.bind_eq_some_iff.mp isLeft
  obtain ⟨second, hasSecond, parsedSecond⟩ :=
    Option.bind_eq_some_iff.mp isRight
  obtain ⟨one, isOne, oneSolid, -, oneType⟩ := parse_author parsedFirst
  obtain ⟨two, isTwo, twoSolid, -, twoType⟩ := parse_author parsedSecond
  have types : first.string? "type" = second.string? "type" := by
    rw [oneType, twoType]
  unfold requireAuthority
  rw [same.requireText_eq _ (by simp), same.requireText_eq _ (by simp),
    same.requireText_eq _ (by simp), same.requireText_eq _ (by simp),
    same.string?_eq (by simp), same.string?_eq (by simp),
    same.string?_eq (by simp), same.string?_eq (by simp),
    same.string?_eq (by simp)]
  unfold parse
  simp [hasFirst, hasSecond, parsedFirst, parsedSecond, types, isOne, isTwo,
    isSolid, oneSolid, twoSolid]

theorem SameAuthority.requireSource_eq (same : SameAuthority left right)
    (source : Json) (binding : RecoverySnapshotBinding) :
    requireSource env source binding left =
      requireSource env source binding right := by
  unfold requireSource
  rw [same.string?_eq (by simp), same.string?_eq (by simp)]

end SameAuthority

theorem nodup_serverFields {candidate : List (String × Json)}
    (nodup : (candidate.map Prod.fst).Nodup) (ctx : IntakeActor) :
    ((serverFields candidate ctx).map Prod.fst).Nodup := by
  have flagged := nodup_setField "prePolicyFlags" noFlags nodup
  have staged : ∀ metadata, ((setField "metadata" metadata
      (setField "prePolicyFlags" noFlags candidate)).map Prod.fst).Nodup :=
    fun metadata => nodup_setField _ _ flagged
  unfold serverFields
  split <;> split <;> dsimp only <;> split_ifs
  all_goals
    first
      | exact nodup_setField _ _ (nodup_setField _ _ (staged _))
      | exact nodup_setField _ _ (staged _)
      | exact nodup_setField _ _ (nodup_setField _ _ flagged)
      | exact nodup_setField _ _ flagged
      | exact staged _
      | exact flagged

/-- Authors and origins aside, candidates that agree are parsed alike. -/
theorem parse_candidate_congr {left right : List (String × Json)}
    (agree : ∀ name, name ≠ "author" → name ≠ "origin" →
      field? left name = field? right name)
    (authors : Presence.required.read author.parse (field? left "author") =
      Presence.required.read author.parse (field? right "author"))
    (origins :
      Presence.optional.read (candidateOrigin env).parse
          (field? left "origin") =
        Presence.optional.read (candidateOrigin env).parse
          (field? right "origin")) :
    (memoryCandidate env).parse (.object left) =
      (memoryCandidate env).parse (.object right) := by
  have fields : Schema.parseFields (candidateFields env) left =
      Schema.parseFields (candidateFields env) right := by
    refine Schema.parseFields_congr fun field member => ?_
    by_cases isAuthor : field.1 = "author"
    · obtain rfl : field = ("author", .required, author) :=
        List.inj_on_of_nodup_map (memoryCandidate_normal env).1 member
          (by simp [candidateFields]) isAuthor
      exact authors
    · by_cases isOrigin : field.1 = "origin"
      · obtain rfl : field = ("origin", .optional, candidateOrigin env) :=
          List.inj_on_of_nodup_map (memoryCandidate_normal env).1 member
            (by simp [candidateFields]) isOrigin
        exact origins
      · rw [agree field.1 isAuthor isOrigin]
  unfold memoryCandidate
  rw [Schema.parse, Schema.parse, Schema.parse, Schema.parse, fields]

theorem applyIntakeOverrides_congr {candidate : Json} {left right : IntakeActor}
    {first second : String}
    (nodup : ((fieldsOf candidate).map Prod.fst).Nodup)
    (isFirst : left.actor = some first) (isSecond : right.actor = some second)
    (firstSolid : trim first ≠ "") (same : trim first = trim second)
    (roles : left.role = right.role) (tenants : left.tenants = right.tenants) :
    applyIntakeOverrides env candidate left =
      applyIntakeOverrides env candidate right := by
  have secondSolid : trim second ≠ "" := same ▸ firstSolid
  have firstPresent : first ≠ "" := by
    rintro rfl
    exact firstSolid rfl
  have secondPresent : second ≠ "" := by
    rintro rfl
    exact secondSolid rfl
  have server : serverFields (fieldsOf candidate) left =
      serverFields (fieldsOf candidate) right := by
    unfold serverFields
    rw [roles, tenants]
  have overridden := nodup_serverFields nodup right
  unfold applyIntakeOverrides parse intakeOverrides
  rw [isFirst, isSecond, server]
  dsimp only
  rw [if_neg firstPresent, if_neg secondPresent, Option.bind_some,
    Option.bind_some, @parse_candidate_congr env
      (setField "author" (humanAuthor first)
        (serverFields (fieldsOf candidate) right))
      (setField "author" (humanAuthor second)
        (serverFields (fieldsOf candidate) right))]
  · intro name notAuthor _
    rw [field?_setField_of_ne _ _ notAuthor,
      field?_setField_of_ne _ _ notAuthor]
  · rw [field?_setField _ _ _ overridden, field?_setField _ _ _ overridden,
      if_pos rfl, if_pos rfl, Presence.read, Presence.read,
      parse_humanAuthor, parse_humanAuthor, same]
  · rw [field?_setField_of_ne _ _ (by decide),
      field?_setField_of_ne _ _ (by decide)]

theorem nodup_of_parse_candidate {data candidate : Json}
    (parsed : (memoryCandidate env).parse data = some candidate) :
    ((fieldsOf candidate).map Prod.fst).Nodup := by
  have inner := parse_of_refine parsed
  cases data with
  | object values =>
      rw [Schema.parse] at inner
      obtain ⟨kept, isKept, rfl⟩ := Option.map_eq_some_iff.mp inner
      exact Schema.nodup_of_parseFields (memoryCandidate_normal env).1 isKept
  | _ => cases inner

section ProposalData

variable (source input : Json) (origin : Option Json)

theorem field?_proposalData_author :
    field? (proposalData env source input origin) "author" =
      input.get? "actor" := by
  simp only [proposalData, field?_append, field?_optionalField]
  simp [field?]

theorem field?_proposalData_origin :
    field? (proposalData env source input origin) "origin" = origin := by
  simp only [proposalData, field?_append, field?_optionalField]
  simp [field?]

end ProposalData

variable {left right : Json}

theorem SameAuthority.proposalData_agree (same : SameAuthority left right)
    (source : Json) (first second : Option Json) {name : String}
    (notAuthor : name ≠ "author") (notOrigin : name ≠ "origin") :
    field? (proposalData env source left first) name =
      field? (proposalData env source right second) name := by
  have id : proposalId env source left = proposalId env source right := by
    unfold proposalId
    rw [same.textOf_eq (by simp), same.texts "sourceTenantId" (by simp),
      same.texts "targetTenantId" (by simp)]
  unfold proposalData
  simp only [field?_append, field?_optionalField, id,
    same.texts "targetTenantId" (by simp), same.texts "createdAt" (by simp),
    if_neg (Ne.symm notAuthor), if_neg (Ne.symm notOrigin)]

/-- Proposals depend on the authority, and on an origin as its schema parses
it. -/
theorem SameAuthority.proposalFor_eq (same : SameAuthority left right)
    (source : Json) (allowedChannels : List String)
    {first second : Option Json}
    (origins :
      Presence.optional.read (candidateOrigin env).parse first =
        Presence.optional.read (candidateOrigin env).parse second) :
    proposalFor env source left allowedChannels first =
      proposalFor env source right allowedChannels second := by
  obtain ⟨parsed, isLeft, isRight⟩ := same.actor
  obtain ⟨one, hasOne, parsedOne⟩ := Option.bind_eq_some_iff.mp isLeft
  obtain ⟨two, hasTwo, parsedTwo⟩ := Option.bind_eq_some_iff.mp isRight
  obtain ⟨oneId, isOne, oneSolid, oneKept, -⟩ := parse_author parsedOne
  obtain ⟨twoId, isTwo, twoSolid, twoKept, -⟩ := parse_author parsedTwo
  have ids : trim oneId = trim twoId :=
    Option.some.inj (oneKept.symm.trans twoKept)
  have data : (memoryCandidate env).parse
      (.object (proposalData env source left first)) =
        (memoryCandidate env).parse
          (.object (proposalData env source right second)) := by
    refine parse_candidate_congr
      (fun name notAuthor notOrigin =>
        same.proposalData_agree source first second notAuthor notOrigin) ?_ ?_
    · rw [field?_proposalData_author, field?_proposalData_author, hasOne,
        hasTwo, Presence.read, Presence.read, parsedOne, parsedTwo]
    · rw [field?_proposalData_origin, field?_proposalData_origin]
      exact origins
  unfold proposalFor prepareIntakeCandidate
  rw [data]
  cases isParsed : (memoryCandidate env).parse
      (.object (proposalData env source right second)) with
  | none => rfl
  | some candidate =>
      have overrides : applyIntakeOverrides env candidate
          (proposalActor left) =
            applyIntakeOverrides env candidate (proposalActor right) := by
        refine @applyIntakeOverrides_congr env _ _ _ oneId twoId
          (nodup_of_parse_candidate isParsed) ?_ ?_ oneSolid ids rfl ?_
        · rw [proposalActor, hasOne, Option.bind_some, isOne]
        · rw [proposalActor, hasTwo, Option.bind_some, isTwo]
        · rw [proposalActor, proposalActor, same.textOf_eq (by simp)]
      dsimp only
      rw [overrides]

theorem isValue_proposalData {source input : Json} {origin : Option Json}
    (isSource : source.IsValue) (isInput : input.IsValue)
    (isOrigin : ∀ found, origin = some found → found.IsValue) :
    (Json.object (proposalData env source input origin)).IsValue := by
  have ofSource : ∀ name, ∀ field ∈ optionalField name (source.get? name),
      field.2.IsValue := fun name =>
    Schema.isValue_optionalField fun _ isFound => isSource.get? isFound
  have ofInput : ∀ written name,
      ∀ field ∈ optionalField written (input.get? name), field.2.IsValue :=
    fun written name =>
      Schema.isValue_optionalField fun _ isFound => isInput.get? isFound
  have ofTrust : ∀ field ∈ optionalField "trustLevel" (cappedTrust source),
      field.2.IsValue := by
    refine Schema.isValue_optionalField fun found isFound => ?_
    unfold cappedTrust at isFound
    dsimp only at isFound
    split at isFound
    · split_ifs at isFound
      · obtain ⟨level, -, rfl⟩ := Option.map_eq_some_iff.mp isFound
        exact isValue_string level
      · obtain ⟨level, -, rfl⟩ := Option.map_eq_some_iff.mp isFound
        exact isValue_string level
    · cases isFound
  refine Schema.isValue_object ?_ ?_
  · have inside : ((proposalData env source input origin).map
        Prod.fst).Sublist (["schemaVersion", "id", "status"] ++ ["source"] ++
          ["content"] ++ ["title"] ++ ["category"] ++ ["trustLevel"] ++
          ["author"] ++ ["tenantId"] ++ ["metadata"] ++ ["prePolicyFlags"] ++
          ["capturedAt"] ++ ["origin"]) := by
      unfold proposalData
      simp only [List.map_append]
      repeat' apply List.Sublist.append
      all_goals
        first
          | exact Schema.names_optionalField _ _
          | exact .refl _
    exact List.Nodup.sublist inside (by decide)
  · intro field member
    unfold proposalData at member
    simp only [List.mem_append, List.mem_cons, List.not_mem_nil, or_false]
      at member
    rcases member with (((((((((((fixed | held) | held) | held) | held) | held)
      | held) | held) | held) | fixed) | held) | held)
    · rcases fixed with rfl | rfl | rfl <;> exact isValue_string _
    · exact ofSource _ field held
    · exact ofSource _ field held
    · exact ofSource _ field held
    · exact ofSource _ field held
    · exact ofTrust field held
    · exact ofInput _ _ field held
    · exact ofInput _ _ field held
    · exact ofSource _ field held
    · rw [fixed]
      exact isValue_noFlags
    · exact ofInput _ _ field held
    · exact Schema.isValue_optionalField isOrigin field held

theorem isValue_humanAuthor (id : String) : (humanAuthor id).IsValue :=
  Schema.isValue_object (by simp) (by simp)

theorem isValue_serverFields {candidate : List (String × Json)}
    (isValue : (Json.object candidate).IsValue) (ctx : IntakeActor) :
    (Json.object (serverFields candidate ctx)).IsValue := by
  have flagged : (Json.object
      (setField "prePolicyFlags" noFlags candidate)).IsValue :=
    Schema.isValue_setField isValue isValue_noFlags
  have text : ∀ {name value : String} {fields : List (String × Json)},
      (Json.object fields).IsValue →
        (Json.object (setField name (.string value) fields)).IsValue :=
    fun isFields => Schema.isValue_setField isFields (isValue_string _)
  unfold serverFields
  split
  · rename_i role metadata _ isMetadata
    have staged := @Schema.isValue_setField "metadata" _ _ flagged
      (@text "proposedByRole" role.text _
        (@IsValue.get? (.object candidate) _ _ isValue isMetadata))
    split <;> dsimp only <;> split_ifs
    · exact text (text staged)
    · exact text staged
    · exact text staged
    · exact staged
  · split <;> dsimp only <;> split_ifs
    · exact text (text flagged)
    · exact text flagged
    · exact text flagged
    · exact flagged

theorem isValue_intakeOverrides {candidate : List (String × Json)}
    (isValue : (Json.object candidate).IsValue) (ctx : IntakeActor) :
    (Json.object (intakeOverrides candidate ctx)).IsValue := by
  have server := isValue_serverFields isValue ctx
  unfold intakeOverrides
  split
  · split_ifs
    · exact server
    · exact Schema.isValue_setField server (isValue_humanAuthor _)
  · exact server

theorem field?_serverFields_origin (candidate : List (String × Json))
    (ctx : IntakeActor) :
    field? (serverFields candidate ctx) "origin" =
      field? candidate "origin" := by
  unfold serverFields
  split <;> split <;> dsimp only <;> split_ifs
  all_goals
    simp [field?_setField_of_ne]

theorem field?_intakeOverrides_origin (candidate : List (String × Json))
    (ctx : IntakeActor) :
    field? (intakeOverrides candidate ctx) "origin" =
      field? candidate "origin" := by
  have server := field?_serverFields_origin candidate ctx
  unfold intakeOverrides
  split
  · split_ifs
    · exact server
    · rw [field?_setField_of_ne _ _ (by decide)]
      exact server
  · exact server

/-- A proposal has been parsed twice, with the token's fields in between. -/
theorem exists_parsed_of_proposalFor {source input proposal : Json}
    {allowedChannels : List String} {origin : Option Json}
    (derived : proposalFor env source input allowedChannels origin =
      .ok proposal) :
    ∃ candidate, (memoryCandidate env).parse
        (.object (proposalData env source input origin)) = some candidate ∧
      (memoryCandidate env).parse (.object (intakeOverrides
        (fieldsOf candidate) (proposalActor input))) = some proposal := by
  unfold proposalFor prepareIntakeCandidate at derived
  cases isParsed : (memoryCandidate env).parse
      (.object (proposalData env source input origin)) with
  | none =>
      rw [isParsed] at derived
      cases derived
  | some candidate =>
      rw [isParsed] at derived
      refine ⟨candidate, rfl, ?_⟩
      dsimp only at derived
      split at derived
      · cases derived
      · obtain ⟨overridden, applied, passed⟩ :=
          Program.except_bind_eq_ok_iff.mp derived
        split at passed
        · cases passed
        · cases passed
          unfold applyIntakeOverrides at applied
          rw [parse_eq_ok] at applied
          exact applied

theorem proposalFor_normal {source input proposal : Json}
    {allowedChannels : List String} {origin : Option Json}
    (derived : proposalFor env source input allowedChannels origin =
      .ok proposal) :
    (memoryCandidate env).parse proposal = some proposal := by
  obtain ⟨_, -, isProposal⟩ := exists_parsed_of_proposalFor derived
  exact Schema.parse_parse (memoryCandidate_normal env) isProposal

theorem isValue_proposal {source input proposal : Json}
    {allowedChannels : List String} {origin : Option Json}
    (isSource : source.IsValue) (isInput : input.IsValue)
    (isOrigin : ∀ found, origin = some found → found.IsValue)
    (derived : proposalFor env source input allowedChannels origin =
      .ok proposal) :
    proposal.IsValue := by
  obtain ⟨candidate, isCandidate, isProposal⟩ :=
    exists_parsed_of_proposalFor derived
  have parsed := Schema.isValue_of_parse (memoryCandidate_normal env)
    (isValue_proposalData isSource isInput isOrigin) isCandidate
  have inner := parse_of_refine isCandidate
  obtain ⟨fields, rfl⟩ : ∃ fields, candidate = .object fields := by
    rw [Schema.parse] at inner
    obtain ⟨fields, -, rfl⟩ := Option.map_eq_some_iff.mp inner
    exact ⟨fields, rfl⟩
  exact Schema.isValue_of_parse (memoryCandidate_normal env)
    (isValue_intakeOverrides parsed (proposalActor input)) isProposal

/-- A proposal's origin is the one that it was derived with, as the schema
parses it. -/
theorem origin_of_proposalFor {source input proposal : Json}
    {allowedChannels : List String} {origin : Option Json}
    (derived : proposalFor env source input allowedChannels origin =
      .ok proposal) :
    Presence.optional.read (candidateOrigin env).parse origin =
      some (proposal.get? "origin") := by
  obtain ⟨candidate, isCandidate, isProposal⟩ :=
    exists_parsed_of_proposalFor derived
  have isField : ("origin", Presence.optional, candidateOrigin env) ∈
      candidateFields env := by
    simp [candidateFields]
  have first := Schema.read_get?_of_parse (memoryCandidate_normal env).1
    (parse_of_refine isCandidate) isField
  have second := Schema.read_get?_of_parse (memoryCandidate_normal env).1
    (parse_of_refine isProposal) isField
  have kept := field?_intakeOverrides_origin (fieldsOf candidate)
    (proposalActor input)
  have data := @field?_proposalData_origin env source input origin
  rw [Json.get?, data] at first
  rw [Json.get?, kept] at second
  have same : field? (fieldsOf candidate) "origin" =
      candidate.get? "origin" := by
    cases candidate <;> rfl
  rw [same] at second
  rw [first]
  cases isOrigin : candidate.get? "origin" with
  | none =>
      rw [isOrigin] at second
      exact second
  | some found =>
      rw [isOrigin] at first second
      cases origin with
      | none => cases first
      | some given =>
          rw [Presence.read] at first second
          obtain ⟨parsed, isParsed, isSame⟩ := Option.map_eq_some_iff.mp first
          cases isSame
          rw [Schema.parse_parse (candidateOrigin_normal env) isParsed,
            Option.map_some] at second
          exact second

end Registrar.Recovery
