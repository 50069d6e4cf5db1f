import Registrar.Curator.RecoveryEntries

/-!
# Planner and validator agree

The validator accepts what the planner wrote, in any order of fields, exactly
when the target tenant is named without spaces around it; what differs from the
plan it refuses.
-/

namespace Registrar.Recovery

open Json

variable {env : RecoveryEnvironment}

theorem exists_authorityTexts {input : Json}
    (authority : requireAuthority env input = .ok ()) :
    ∃ texts : String → String, ∀ name ∈ authorityNames,
      input.get? name = some (.string (texts name)) := by
  refine ⟨textOf input, fun name member => ?_⟩
  obtain ⟨text, isText⟩ := exists_text_of_authority authority name member
  rw [textOf_of_string? isText]
  exact get?_of_string? isText

section Fields

variable (parts : PlanParts) (env : RecoveryEnvironment) {input : Json}
  (options : RecoveryPlanOptions) {texts : String → String}
  (hasTexts : ∀ name ∈ authorityNames,
    input.get? name = some (.string (texts name)))

theorem PlanParts.field?_digest :
    field? (parts.fields env input options) "digest" =
      some (.string (digest env (.object
        (parts.payload env input options)))) := by
  rw [PlanParts.fields, field?_append]
  simp [field?]

theorem PlanParts.field?_fields {name : String} (apart : name ≠ "digest") :
    field? (parts.fields env input options) name =
      field? (parts.payload env input options) name := by
  rw [PlanParts.fields, field?_append]
  simp [field?, Ne.symm apart]

include hasTexts

theorem PlanParts.payload_eq :
    parts.payload env input options =
      [("schemaVersion", .number "1"), ("runId", .string (texts "runId")),
        ("createdAt", .string (texts "createdAt")),
        ("storeLocator", .string (texts "storeLocator")),
        ("sourceTenantId", .string (texts "sourceTenantId")),
        ("targetTenantId", .string (texts "targetTenantId")),
        ("actor", parts.actor), ("role", .string (texts "role")),
        ("reason", .string (texts "reason")),
        ("exclusions", .array ((parts.excluded.map bindingOf).map
          RecoverySnapshotBinding.json)),
        ("entries", .array (parts.entries.map RecoveryPlanEntry.json)),
        ("policies", .array parts.policies),
        ("policySnapshotDigest",
          .string (digest env (.array parts.policies))),
        ("allowedOriginChannels", .array (options.channels.map .string)),
        ("originMode", .string
          (if options.origin.isSome then "fresh" else "unattested")),
        ("defaultImportRulesDigest", .string (importRulesDigest env))] := by
  unfold PlanParts.payload planPayload
  rw [hasTexts "runId" (by simp), hasTexts "createdAt" (by simp),
    hasTexts "storeLocator" (by simp), hasTexts "sourceTenantId" (by simp),
    hasTexts "targetTenantId" (by simp), hasTexts "role" (by simp),
    hasTexts "reason" (by simp)]
  rfl

theorem PlanParts.names_payload :
    (parts.payload env input options).map Prod.fst = planKeys.dropLast := by
  rw [parts.payload_eq env options hasTexts]
  rfl

theorem PlanParts.names_fields :
    (parts.fields env input options).map Prod.fst = planKeys := by
  rw [PlanParts.fields, List.map_append,
    parts.names_payload env options hasTexts]
  rfl

theorem PlanParts.eraseField_fields :
    eraseField "digest" (parts.fields env input options) =
      parts.payload env input options := by
  rw [PlanParts.fields, eraseField, List.filter_append,
    List.filter_eq_self.mpr]
  · simp
  · intro field member
    have named := List.mem_map_of_mem (f := Prod.fst) member
    rw [parts.names_payload env options hasTexts] at named
    rw [decide_eq_true_eq]
    rintro same
    rw [same] at named
    exact absurd named (by decide)

end Fields

theorem isValue_bindingJson (binding : RecoverySnapshotBinding) :
    binding.json.IsValue :=
  Schema.isValue_object (by simp) (by simp)

theorem PlannedEntry.isValue {input : Json} {allowedChannels : List String}
    {fresh : Bool} {binding : RecoverySnapshotBinding}
    {entry : RecoveryPlanEntry}
    (planned : PlannedEntry env input allowedChannels fresh binding entry) :
    entry.json.IsValue := by
  obtain ⟨sensitive, isSensitive⟩ := sensitivity_of_source planned.sourceNormal
  rw [RecoveryPlanEntry.json, isSensitive]
  refine Schema.isValue_object (by simp [optionalField]) ?_
  intro field member
  simp only [optionalField, Option.toList_some, List.map_cons, List.map_nil,
    List.cons_append, List.nil_append, List.mem_cons, List.not_mem_nil,
    or_false] at member
  rcases member with rfl | rfl | rfl | rfl | rfl
  · exact planned.isSource
  · exact isValue_string _
  · exact planned.isProposal
  · exact isValue_string _
  · exact planned.isSource.get? isSensitive

theorem isValue_of_planEntries {store : RecoveryStore} {input : Json}
    {allowedChannels : List String} {origin : Option OriginOption}
    {active : List Json} {earlier entries : List RecoveryPlanEntry}
    {bindings : List RecoverySnapshotBinding}
    (actor : ∃ parsed, (input.get? "actor").bind author.parse = some parsed)
    (isInput : input.IsValue)
    (planned : planEntries env store input allowedChannels origin active
      earlier bindings = .ok entries) :
    ∀ entry ∈ entries, entry.json.IsValue := by
  induction bindings generalizing earlier entries with
  | nil =>
      cases planned
      intro _ member
      cases member
  | cons binding rest induction =>
      rw [planEntries] at planned
      obtain ⟨first, isFirst, afterFirst⟩ :=
        Program.except_bind_eq_ok_iff.mp planned
      obtain ⟨others, areOthers, returned⟩ :=
        Program.except_bind_eq_ok_iff.mp afterFirst
      cases returned
      intro entry member
      rcases List.mem_cons.mp member with rfl | later
      · exact (planEntry_eq_ok actor isInput isFirst).1.isValue
      · exact induction areOthers entry later

/-- The policies of a tenant, as their schema parses them. -/
theorem facts_of_policiesOf {store : RecoveryStore} {tenant : String}
    {policies : List Json}
    (found : store.policiesOf env tenant = .ok policies) :
    ∀ policy ∈ policies, (governancePolicy env).parse policy = some policy ∧
      policy.IsValue ∧ policy.string? "tenantId" = some (trim tenant) := by
  unfold RecoveryStore.policiesOf at found
  have all := Program.mapM_eq_ok_iff.mp found
  intro policy member
  obtain ⟨row, inRows, isParsed⟩ : ∃ row, row ∈ store.policies.filter
      (fun row => row.1.string? "tenantId" = some tenant) ∧
        parse (governancePolicy env) "" (some row.1) = .ok policy := by
    clear found
    generalize store.policies.filter _ = rows at all ⊢
    induction all with
    | nil => cases member
    | cons here later induction =>
        rcases List.mem_cons.mp member with rfl | inRest
        · exact ⟨_, List.mem_cons_self, here⟩
        · obtain ⟨row, inside, isParsed⟩ := induction inRest
          exact ⟨row, List.mem_cons_of_mem _ inside, isParsed⟩
  have accepted := parse_eq_ok.mp isParsed
  rw [Option.bind_some] at accepted
  have tenantText := of_decide_eq_true (List.mem_filter.mp inRows).2
  obtain ⟨content, isContent, -, kept⟩ := @Schema.exists_text_of_parse _ row.1
    policy (governancePolicy_normal env).1 accepted "tenantId" trim
    (fun text => decide (text ≠ "")) (by simp [tenantId, nonEmptyString])
  refine ⟨Schema.parse_parse (governancePolicy_normal env) accepted,
    Schema.isValue_of_parse (governancePolicy_normal env) row.2 accepted, ?_⟩
  rw [tenantText] at isContent
  rw [kept, Option.some.inj isContent]

/-- A plan is a JSON value. -/
theorem PlanParts.Planned.isValue {parts : PlanParts} {input : JsonValue}
    {store : RecoveryStore} {options : RecoveryPlanOptions}
    (planned : parts.Planned env input store options) :
    (Json.object (parts.fields env input.1 options)).IsValue := by
  obtain ⟨texts, hasTexts⟩ := exists_authorityTexts planned.authority
  have isActor : parts.actor.IsValue := by
    obtain ⟨actor, isActor, parsed⟩ :=
      Option.bind_eq_some_iff.mp planned.actor
    exact Schema.isValue_of_parse author_normal (input.2.get? isActor) parsed
  have entries := isValue_of_planEntries ⟨_, planned.actor⟩ input.2
    planned.entries
  refine Schema.isValue_object ?_ ?_
  · rw [parts.names_fields env options hasTexts]
    decide
  · intro field member
    rw [PlanParts.fields, parts.payload_eq env options hasTexts] at member
    simp only [List.cons_append, List.nil_append, List.mem_cons,
      List.not_mem_nil, or_false] at member
    rcases member with rfl | rfl | rfl | rfl | rfl | rfl | rfl | rfl | rfl |
      rfl | rfl | rfl | rfl | rfl | rfl | rfl | rfl
    all_goals try exact isValue_string _
    · exact isValue_one
    · exact isActor
    · refine Schema.isValue_array fun item inside => ?_
      obtain ⟨binding, -, rfl⟩ := List.mem_map.mp inside
      exact isValue_bindingJson binding
    · refine Schema.isValue_array fun item inside => ?_
      obtain ⟨entry, isEntry, rfl⟩ := List.mem_map.mp inside
      exact entries entry isEntry
    · exact Schema.isValue_array fun policy inside =>
        (facts_of_policiesOf planned.policies policy inside).2.1
    · refine Schema.isValue_array fun item inside => ?_
      obtain ⟨channel, -, rfl⟩ := List.mem_map.mp inside
      exact isValue_string channel

theorem arrayOf_of_same {left right : Json} (same : Same left right)
    (isLeft : left.IsValue) (isRight : right.Distinct) {name : String}
    {items : List Json} (isArray : right.get? name = some (.array items)) :
    ∃ others, left.get? name = some (.array others) ∧
      List.Forall₂ Same others items ∧ ∀ other ∈ others, other.IsValue := by
  obtain ⟨value, isFound, agree⟩ :=
    same.exists_get? isLeft.distinct isRight isArray
  obtain ⟨others, rfl, all⟩ := same_array_iff.mp agree
  exact ⟨others, isFound, all, fun other member =>
    Schema.isValue_of_mem_array (isLeft.get? isFound) member⟩

theorem arrayOf_eq_ok {plan : Json} {name : String} {error : RegistrarError}
    {items : List Json} (isArray : plan.get? name = some (.array items)) :
    arrayOf plan name error = .ok items := by
  rw [arrayOf, isArray]

/-- Exclusions that the planner took are the validator's. -/
theorem validateExclusions_of_same {bindings raws : List Json}
    {before : List Json} {ids : List String}
    (fresh : requireFresh env (before ++ bindings) ids = .ok ())
    (isRaw : ∀ raw ∈ raws, raw.IsValue)
    (same : List.Forall₂ Same raws
      ((bindings.map bindingOf).map RecoverySnapshotBinding.json)) :
    raws.mapM (validateExclusion env) = .ok (bindings.map bindingOf) := by
  have texts : ∀ binding ∈ bindings,
      env.isUuid (bindingOf binding).id = true ∧
        env.isSha256Hash (bindingOf binding).snapshotDigest = true := by
    intro binding member
    obtain ⟨⟨id, isId, accepted⟩, snapshot, isSnapshot, hashed⟩ :=
      texts_of_requireFresh fresh binding (List.mem_append_right _ member)
    rw [bindingOf, textOf_of_string? isId, textOf_of_string? isSnapshot]
    exact ⟨accepted, hashed⟩
  rw [Program.mapM_eq_ok_iff]
  clear fresh
  induction bindings generalizing raws with
  | nil =>
      cases same
      exact .nil
  | cons binding rest induction =>
      cases same with
      | @cons raw _ rawRest _ here later =>
          have isHere := isRaw raw List.mem_cons_self
          have isBinding := isValue_bindingJson (bindingOf binding)
          obtain ⟨uuids, hashes⟩ := texts binding List.mem_cons_self
          obtain ⟨fields, isObject, isRecord⟩ := @record_of_same raw _
            ["id", "snapshotDigest"] here isHere.distinct (.refl _)
          obtain ⟨readId, readSnapshot⟩ := get?_bindingJson (bindingOf binding)
          have hasId := string?_of_get? (get?_string_of_same here
            isHere.distinct isBinding.distinct (string?_of_get? readId))
          have hasSnapshot := string?_of_get? (get?_string_of_same here
            isHere.distinct isBinding.distinct (string?_of_get? readSnapshot))
          refine .cons ?_ (induction
            (fun other member => isRaw other (List.mem_cons_of_mem _ member))
            later
            fun other member => texts other (List.mem_cons_of_mem _ member))
          unfold validateExclusion
          refine Program.except_bind_eq_ok_iff.mpr ⟨_, isRecord, ?_⟩
          refine Program.except_bind_eq_ok_iff.mpr
            ⟨(), requireText_eq_ok.mpr ⟨_, hasId, uuids⟩, ?_⟩
          refine Program.except_bind_eq_ok_iff.mpr
            ⟨(), requireText_eq_ok.mpr ⟨_, hasSnapshot, hashes⟩, ?_⟩
          have read : bindingOf raw = bindingOf binding := by
            rw [bindingOf, textOf_of_string? hasId,
              textOf_of_string? hasSnapshot]
          rw [read]
          rfl

theorem channelsOf_of_same {left right : Json} (same : Same left right)
    (isLeft : left.IsValue) (isRight : right.Distinct)
    {channels : List String} (solid : channels.all isSolid = true)
    (isArray : right.get? "allowedOriginChannels" =
      some (.array (channels.map .string))) :
    channelsOf left = some channels := by
  obtain ⟨others, isFound, all, -⟩ :=
    arrayOf_of_same same isLeft isRight isArray
  have texts : others.mapM channelOf = some channels := by
    rw [Program.mapM_eq_some_iff]
    rw [List.forall₂_map_right_iff] at all
    refine all.imp fun other channel agree => ?_
    rw [same_string_iff.mp agree]
    rfl
  rw [channelsOf, isFound, Option.bind_some]
  dsimp only
  rw [texts, Option.filter_some, if_pos solid]

/-- Policies that the planner took are the validator's, up to the order of
fields. -/
theorem policies_of_same {policies raws : List Json}
    (normal : ∀ policy ∈ policies,
      (governancePolicy env).parse policy = some policy ∧ policy.IsValue)
    (isRaw : ∀ raw ∈ raws, raw.IsValue)
    (same : List.Forall₂ Same raws policies) :
    ∃ results, raws.mapM (fun policy =>
        parse (governancePolicy env) "policies" (some policy)) = .ok results ∧
      List.Forall₂ Same results policies ∧
      ∀ result ∈ results, result.Distinct := by
  induction same with
  | nil =>
      refine ⟨[], rfl, .nil, ?_⟩
      intro _ member
      cases member
  | @cons raw policy rest others here later induction =>
      obtain ⟨results, areResults, agree, distinct⟩ := induction
        (fun other member => normal other (List.mem_cons_of_mem _ member))
        fun other member => isRaw other (List.mem_cons_of_mem _ member)
      obtain ⟨isNormal, isPolicy⟩ := normal policy List.mem_cons_self
      have isHere := isRaw raw List.mem_cons_self
      have sorted := Schema.parse_same (governancePolicy_regular env) here
        isHere.distinct isPolicy.distinct
      rw [isNormal, Option.map_some, Option.map_eq_some_iff] at sorted
      obtain ⟨result, isResult, kept⟩ := sorted
      refine ⟨result :: results, ?_, .cons kept agree, ?_⟩
      · rw [List.mapM_cons]
        refine Program.except_bind_eq_ok_iff.mpr
          ⟨result, parse_eq_ok.mpr isResult, ?_⟩
        exact Program.except_bind_eq_ok_iff.mpr ⟨results, areResults, rfl⟩
      · intro other member
        rcases List.mem_cons.mp member with rfl | inRest
        · exact (Schema.isValue_of_parse (governancePolicy_normal env) isHere
            isResult).distinct
        · exact distinct other inRest

theorem isEnabled_of_same {left right : Json} (same : Same left right)
    (isLeft : left.Distinct) (isRight : right.Distinct) :
    isEnabled left = isEnabled right := by
  unfold isEnabled
  cases isFound : right.get? "enabled" with
  | none => rw [get?_eq_none_of_same same isLeft isRight isFound]
  | some value =>
      obtain ⟨other, isOther, agree⟩ := same.exists_get? isLeft isRight isFound
      rw [isOther]
      rcases Schema.same_cases agree with rfl | ⟨_, _, rfl, rfl, -⟩ |
        ⟨_, _, rfl, rfl⟩
      all_goals rfl

theorem author_closed : author.Closed := by
  repeat' constructor

theorem isSome_of_policies {policies results : List Json}
    (same : List.Forall₂ Same results policies)
    (isResult : ∀ result ∈ results, result.Distinct)
    (isPolicy : ∀ policy ∈ policies, policy.Distinct)
    (enabled : policies.any isEnabled = true) :
    results.any isEnabled = true := by
  induction same with
  | nil => exact enabled
  | cons here later induction =>
      rw [List.any_cons, Bool.or_eq_true] at enabled ⊢
      rcases enabled with first | rest
      · left
        rw [isEnabled_of_same here (isResult _ List.mem_cons_self)
          (isPolicy _ List.mem_cons_self)]
        exact first
      · right
        exact induction
          (fun other member => isResult other (List.mem_cons_of_mem _ member))
          (fun other member => isPolicy other (List.mem_cons_of_mem _ member))
          rest

theorem string?_of_policies {policies results : List Json} {name text : String}
    (same : List.Forall₂ Same results policies)
    (isResult : ∀ result ∈ results, result.Distinct)
    (isPolicy : ∀ policy ∈ policies, policy.Distinct)
    (all : ∀ policy ∈ policies, policy.string? name = some text) :
    ∀ result ∈ results, result.string? name = some text := by
  induction same with
  | nil =>
      intro _ member
      cases member
  | cons here later induction =>
      intro result member
      rcases List.mem_cons.mp member with rfl | inRest
      · rw [string?_eq_of_same here (isResult _ List.mem_cons_self)
          (isPolicy _ List.mem_cons_self)]
        exact all _ List.mem_cons_self
      · exact induction
          (fun other known => isResult other (List.mem_cons_of_mem _ known))
          (fun other known => isPolicy other (List.mem_cons_of_mem _ known))
          (fun other known => all other (List.mem_cons_of_mem _ known))
          result inRest

section Accepts

variable {parts : PlanParts} {input : JsonValue} {store : RecoveryStore}
  {options : RecoveryPlanOptions} {raw : Json}

theorem PlanParts.Planned.sameAuthority
    (planned : parts.Planned env input store options) (isRaw : raw.IsValue)
    (same : Same raw (.object (parts.fields env input.1 options))) :
    SameAuthority input.1 raw := by
  obtain ⟨texts, hasTexts⟩ := exists_authorityTexts planned.authority
  have isPlan := planned.isValue
  have hasActor : (Json.object (parts.fields env input.1 options)).get?
      "actor" = some parts.actor := by
    rw [Json.get?, parts.field?_fields env options (by decide),
      parts.payload_eq env options hasTexts]
    simp [field?]
  obtain ⟨actor, isActor, sameActor⟩ :=
    same.exists_get? isRaw.distinct isPlan.distinct hasActor
  obtain ⟨given, isGiven, parsed⟩ := Option.bind_eq_some_iff.mp planned.actor
  refine ⟨fun name member => ?_, parts.actor, planned.actor, ?_⟩
  · have isText : (Json.object (parts.fields env input.1 options)).get? name =
        some (.string (texts name)) := by
      rw [Json.get?]
      rcases mem_authorityNames.mp member with
        rfl | rfl | rfl | rfl | rfl | rfl | rfl
      all_goals
        rw [parts.field?_fields env options (by decide),
          parts.payload_eq env options hasTexts]
        simp [field?]
    rw [hasTexts name member, get?_string_of_same same isRaw.distinct
      isPlan.distinct (string?_of_get? isText)]
  · rw [isActor, Option.bind_some, Schema.parse_eq_of_same author_closed
      sameActor (isRaw.get? isActor).distinct (isPlan.get? hasActor).distinct]
    exact Schema.parse_parse author_normal parsed

theorem PlanParts.Planned.digest_payload
    (planned : parts.Planned env input store options)
    {fields : List (String × Json)} (isRaw : (Json.object fields).IsValue)
    (same : Same (.object fields)
      (.object (parts.fields env input.1 options))) :
    digest env (.object (eraseField "digest" fields)) =
      digest env (.object (parts.payload env input.1 options)) := by
  obtain ⟨texts, hasTexts⟩ := exists_authorityTexts planned.authority
  have isPlan := planned.isValue
  rw [← parts.eraseField_fields env options hasTexts]
  refine congrArg env.sha256 (Same.canonical_eq ?_)
  refine (same_object_iff (nodup_eraseField _ isRaw.distinct.1)
    (nodup_eraseField _ isPlan.distinct.1)).mpr fun name => ?_
  rw [field?_eraseField, field?_eraseField]
  split_ifs
  · rfl
  · exact (same_object_iff isRaw.distinct.1 isPlan.distinct.1).mp same name

/-- The plan is accepted, in any order of its fields, where its target tenant
is named without spaces around it. -/
theorem PlanParts.Planned.accepted
    (isHash : ∀ text, env.isSha256Hash (env.sha256 text) = true)
    (planned : parts.Planned env input store options)
    (trimmed : trim (textOf input.1 "targetTenantId") =
      textOf input.1 "targetTenantId")
    (isRaw : raw.IsValue)
    (same : Same raw (.object (parts.fields env input.1 options))) :
    ∃ result, validateRecoveryPlan env raw
        (digest env (.object (parts.payload env input.1 options))) =
          .ok result ∧
      Same result raw := by
  obtain ⟨texts, hasTexts⟩ := exists_authorityTexts planned.authority
  have isPlan := planned.isValue
  have authority := planned.sameAuthority isRaw same
  have field := fun name (apart : name ≠ "digest") =>
    (@PlanParts.field?_fields parts env input.1 options name apart).trans
      (congrArg (field? · name) (parts.payload_eq env options hasTexts))
  have text := fun name value
      (isText : (Json.object (parts.fields env input.1 options)).get? name =
        some (.string value)) =>
    get?_string_of_same same isRaw.distinct isPlan.distinct
      (string?_of_get? isText)
  have hasDigest := string?_of_get? (text "digest" _
    (parts.field?_digest env options))
  have hasTarget := string?_of_get? (text "targetTenantId"
    (texts "targetTenantId") (by
      rw [Json.get?, field _ (by decide)]
      simp [field?]))
  have hasMode := string?_of_get? (text "originMode"
    (if options.origin.isSome then "fresh" else "unattested") (by
      rw [Json.get?, field _ (by decide)]
      simp [field?]))
  have hasPolicyDigest := string?_of_get? (text "policySnapshotDigest"
    (digest env (.array parts.policies)) (by
      rw [Json.get?, field _ (by decide)]
      simp [field?]))
  have hasRulesDigest := string?_of_get? (text "defaultImportRulesDigest"
    (importRulesDigest env) (by
      rw [Json.get?, field _ (by decide)]
      simp [field?]))
  have hasVersion : raw.get? "schemaVersion" = some (.number "1") := by
    obtain ⟨value, isFound, agree⟩ := @Same.exists_get? _ _ same isRaw.distinct
      isPlan.distinct "schemaVersion" (.number "1") (by
        rw [Json.get?, field _ (by decide)]
        simp [field?])
    rw [isFound, same_number_iff.mp agree]
  obtain ⟨rawEntries, hasEntries, sameEntries, isEntry⟩ :=
    @arrayOf_of_same _ _ same isRaw isPlan.distinct "entries"
      (parts.entries.map RecoveryPlanEntry.json) (by
        rw [Json.get?, field _ (by decide)]
        simp [field?])
  obtain ⟨rawPolicies, hasPolicies, samePolicies, isPolicy⟩ :=
    @arrayOf_of_same _ _ same isRaw isPlan.distinct "policies"
      parts.policies (by
        rw [Json.get?, field _ (by decide)]
        simp [field?])
  obtain ⟨rawExclusions, hasExclusions, sameExclusions, isExclusion⟩ :=
    @arrayOf_of_same _ _ same isRaw isPlan.distinct "exclusions"
      ((parts.excluded.map bindingOf).map RecoverySnapshotBinding.json) (by
        rw [Json.get?, field _ (by decide)]
        simp [field?])
  have channels := @channelsOf_of_same _ _ same isRaw isPlan.distinct
    options.channels planned.solid (by
      rw [Json.get?, field _ (by decide)]
      simp [field?])
  have policyFacts := facts_of_policiesOf planned.policies
  have exclusions := validateExclusions_of_same planned.fresh isExclusion
    sameExclusions
  obtain ⟨valids, areValid, accounted, sameValids⟩ :=
    @validateEntries_of_planned env store input.1 raw options.channels
      options.origin parts.active (parts.selected.map bindingOf) parts.entries
      rawEntries isHash input.2 authority (by
        rw [hasMode]
        cases options.origin <;> simp) isEntry sameEntries [] []
      (fun _ member => by cases member) planned.entries
  obtain ⟨policies, arePolicies, samePolicyResults, distinctPolicies⟩ :=
    policies_of_same
      (fun policy member =>
        ⟨(policyFacts policy member).1, (policyFacts policy member).2.1⟩)
      isPolicy samePolicies
  obtain ⟨fields, rfl, isRecord⟩ := @record_of_same _ _ planKeys same
    isRaw.distinct (by rw [parts.names_fields env options hasTexts])
  have nodup := isRaw.distinct.1
  have normalized : Same
      (normalizedPlan fields (parts.excluded.map bindingOf) valids policies)
      (.object fields) := by
    have first := @same_setField "exclusions" _ _ fields nodup hasExclusions
      (same_array_iff.mpr ⟨_, rfl, Schema.forall₂_symm sameExclusions⟩)
    have firstNodup := nodup_setField "exclusions" (.array
      ((parts.excluded.map bindingOf).map RecoverySnapshotBinding.json)) nodup
    have second := @same_setField "entries"
      (.array (valids.map ValidEntry.json))
      (.array rawEntries) _ firstNodup (by
        rw [field?_setField_of_ne _ _ (by decide)]
        exact hasEntries) (same_array_iff.mpr ⟨_, rfl, sameValids⟩)
    have third := @same_setField "policies" (.array policies)
      (.array rawPolicies) _
      (nodup_setField "entries" (.array (valids.map ValidEntry.json))
        firstNodup) (by
        rw [field?_setField_of_ne _ _ (by decide),
          field?_setField_of_ne _ _ (by decide)]
        exact hasPolicies)
      (same_array_iff.mpr ⟨_, rfl, Schema.forall₂_trans samePolicyResults
        (Schema.forall₂_symm samePolicies)⟩)
    exact third.trans (second.trans first)
  refine ⟨_, ?_, normalized⟩
  unfold validateRecoveryPlan
  refine Program.except_bind_eq_ok_iff.mpr
    ⟨_, parse_eq_ok.mpr (if_pos (isHash _) : _ = some _), ?_⟩
  refine Program.except_bind_eq_ok_iff.mpr ⟨_, isRecord, ?_⟩
  refine Program.except_bind_eq_ok_iff.mpr
    ⟨(), require_eq_ok.mpr ⟨hasDigest, planned.digest_payload isRaw same, ?_⟩,
      ?_⟩
  · rw [hasVersion]
    rfl
  refine Program.except_bind_eq_ok_iff.mpr
    ⟨_, jsonValue_of_wellFormed isRaw.wellFormed, ?_⟩
  refine Program.except_bind_eq_ok_iff.mpr ⟨(), ?_, ?_⟩
  · rw [← authority.requireAuthority_eq]
    exact planned.authority
  refine Program.except_bind_eq_ok_iff.mpr
    ⟨_, arrayOf_eq_ok hasEntries, ?_⟩
  refine Program.except_bind_eq_ok_iff.mpr
    ⟨_, arrayOf_eq_ok hasPolicies, ?_⟩
  rw [channels]
  dsimp only
  refine Program.except_bind_eq_ok_iff.mpr ⟨(), require_eq_ok.mpr ?_, ?_⟩
  · rw [hasMode]
    cases options.origin <;> simp
  refine Program.except_bind_eq_ok_iff.mpr
    ⟨_, arrayOf_eq_ok hasExclusions, ?_⟩
  refine Program.except_bind_eq_ok_iff.mpr ⟨_, exclusions, ?_⟩
  refine Program.except_bind_eq_ok_iff.mpr ⟨_, areValid, ?_⟩
  refine Program.except_bind_eq_ok_iff.mpr ⟨(), ?_, ?_⟩
  · have bound : (valids.map fun entry => entry.binding.json) =
        (parts.selected.map bindingOf).map RecoverySnapshotBinding.json := by
      rw [← accounted, List.map_map]
      rfl
    rw [bound]
    exact requireBindings_of_read planned.fresh planned.inBounds
  refine Program.except_bind_eq_ok_iff.mpr ⟨_, arePolicies, ?_⟩
  refine Program.except_bind_eq_ok_iff.mpr
    ⟨(), require_eq_ok.mpr ⟨?_, ?_, ?_, hasRulesDigest⟩, ?_⟩
  · exact isSome_of_policies samePolicyResults distinctPolicies
      (fun policy member => (policyFacts policy member).2.1.distinct)
      planned.enabled
  · intro policy member
    have target : textOf input.1 "targetTenantId" = texts "targetTenantId" :=
      textOf_of_string? (string?_of_get? (hasTexts _ (by simp)))
    rw [hasTarget, string?_of_policies samePolicyResults distinctPolicies
      (fun other known => (policyFacts other known).2.1.distinct)
      (fun other known => (policyFacts other known).2.2) policy member,
      trimmed, target]
  · rw [hasPolicyDigest]
    refine congrArg some (congrArg env.sha256 (Same.canonical_eq ?_))
    exact same_array_iff.mpr ⟨_, rfl, Schema.forall₂_symm samePolicyResults⟩
  refine Program.except_bind_eq_ok_iff.mpr
    ⟨(), require_eq_ok.mpr (deepEquals_of_same normalized), rfl⟩

end Accepts

section Refuses

variable {parts : PlanParts} {input : JsonValue} {store : RecoveryStore}
  {options : RecoveryPlanOptions}

theorem digest_of_accepted {value result : Json} {expected : String}
    (accepted : validateRecoveryPlan env value expected = .ok result) :
    ∃ fields, value = .object fields ∧
      value.string? "digest" = some expected ∧
      digest env (.object (eraseField "digest" fields)) = expected := by
  unfold validateRecoveryPlan at accepted
  obtain ⟨_, -, afterHash⟩ := Program.except_bind_eq_ok_iff.mp accepted
  obtain ⟨fields, isRecord, afterRecord⟩ :=
    Program.except_bind_eq_ok_iff.mp afterHash
  obtain ⟨_, bound, -⟩ := Program.except_bind_eq_ok_iff.mp afterRecord
  obtain ⟨supplied, computed, -⟩ := require_eq_ok.mp bound
  exact ⟨fields, record_eq_ok isRecord, supplied, computed⟩

/-- What differs from the plan is refused. -/
theorem PlanParts.Planned.same_of_accepted
    (injective : Function.Injective env.sha256)
    (planned : parts.Planned env input store options) {value result : Json}
    (isValue : value.IsValue)
    (accepted : validateRecoveryPlan env value
      (digest env (.object (parts.payload env input.1 options))) =
        .ok result) :
    Same value (.object (parts.fields env input.1 options)) := by
  obtain ⟨texts, hasTexts⟩ := exists_authorityTexts planned.authority
  have isPlan := planned.isValue
  obtain ⟨fields, rfl, supplied, computed⟩ := digest_of_accepted accepted
  have nodup := isValue.distinct.1
  have canonicals := injective computed
  rw [← parts.eraseField_fields env options hasTexts] at canonicals
  have payloads := same_of_canonical_eq
    (Schema.isValue_object (nodup_eraseField "digest" nodup)
      fun field member => Schema.isValue_of_mem_object isValue
        (List.mem_of_mem_filter member)).wellFormed
    (Schema.isValue_object (nodup_eraseField "digest" isPlan.distinct.1)
      fun field member => Schema.isValue_of_mem_object isPlan
        (List.mem_of_mem_filter member)).wellFormed canonicals
  have agree := (same_object_iff (nodup_eraseField _ nodup)
    (nodup_eraseField _ isPlan.distinct.1)).mp payloads
  refine (same_object_iff nodup isPlan.distinct.1).mpr fun name => ?_
  by_cases isDigest : name = "digest"
  · have hasDigest := get?_of_string? supplied
    rw [Json.get?] at hasDigest
    rw [isDigest, hasDigest, parts.field?_digest env options]
  · have here := agree name
    rw [field?_eraseField, field?_eraseField, if_neg isDigest,
      if_neg isDigest] at here
    exact here

/-- What the validator accepts names the tenant of its policies. -/
theorem tenants_of_accepted {value result : Json} {expected : String}
    {items : List Json} (isValue : value.WellFormed)
    (hasPolicies : value.get? "policies" = some (.array items))
    (accepted : validateRecoveryPlan env value expected = .ok result) :
    ∃ policies, items.mapM (fun policy =>
        parse (governancePolicy env) "policies" (some policy)) =
          .ok policies ∧
      ∀ policy ∈ policies,
        policy.string? "tenantId" = value.string? "targetTenantId" := by
  unfold validateRecoveryPlan at accepted
  obtain ⟨_, -, afterHash⟩ := Program.except_bind_eq_ok_iff.mp accepted
  obtain ⟨fields, isRecord, afterRecord⟩ :=
    Program.except_bind_eq_ok_iff.mp afterHash
  obtain ⟨_, -, afterBound⟩ := Program.except_bind_eq_ok_iff.mp afterRecord
  obtain ⟨plan, isPlan, afterPlan⟩ :=
    Program.except_bind_eq_ok_iff.mp afterBound
  rw [jsonValue_of_wellFormed isValue] at isPlan
  cases isPlan
  obtain ⟨_, -, afterAuthority⟩ := Program.except_bind_eq_ok_iff.mp afterPlan
  obtain ⟨_, -, afterEntries⟩ :=
    Program.except_bind_eq_ok_iff.mp afterAuthority
  obtain ⟨read, isRead, afterPolicies⟩ :=
    Program.except_bind_eq_ok_iff.mp afterEntries
  rw [arrayOf_eq_ok hasPolicies] at isRead
  cases isRead
  split at afterPolicies
  · cases afterPolicies
  · obtain ⟨_, -, afterMode⟩ :=
      Program.except_bind_eq_ok_iff.mp afterPolicies
    obtain ⟨_, -, afterArray⟩ := Program.except_bind_eq_ok_iff.mp afterMode
    obtain ⟨_, -, afterExclusions⟩ :=
      Program.except_bind_eq_ok_iff.mp afterArray
    obtain ⟨_, -, afterValid⟩ :=
      Program.except_bind_eq_ok_iff.mp afterExclusions
    obtain ⟨_, -, afterBindings⟩ :=
      Program.except_bind_eq_ok_iff.mp afterValid
    obtain ⟨policies, arePolicies, afterParsed⟩ :=
      Program.except_bind_eq_ok_iff.mp afterBindings
    obtain ⟨_, consistent, -⟩ :=
      Program.except_bind_eq_ok_iff.mp afterParsed
    exact ⟨policies, arePolicies, (require_eq_ok.mp consistent).2.1⟩

/-- A plan whose target tenant has spaces around it is refused. -/
theorem PlanParts.Planned.trimmed_of_accepted
    (planned : parts.Planned env input store options) {result : Json}
    {expected : String}
    (accepted : validateRecoveryPlan env
      (.object (parts.fields env input.1 options)) expected = .ok result) :
    trim (textOf input.1 "targetTenantId") =
      textOf input.1 "targetTenantId" := by
  obtain ⟨texts, hasTexts⟩ := exists_authorityTexts planned.authority
  have field := fun name (apart : name ≠ "digest") =>
    (@PlanParts.field?_fields parts env input.1 options name apart).trans
      (congrArg (field? · name) (parts.payload_eq env options hasTexts))
  have hasPolicies : (Json.object (parts.fields env input.1 options)).get?
      "policies" = some (.array parts.policies) := by
    rw [Json.get?, field _ (by decide)]
    simp [field?]
  have hasTarget : (Json.object (parts.fields env input.1 options)).string?
      "targetTenantId" = some (texts "targetTenantId") := by
    rw [string?, Json.get?, field _ (by decide)]
    simp [field?]
  obtain ⟨policies, arePolicies, tenants⟩ :=
    tenants_of_accepted planned.isValue.wellFormed hasPolicies accepted
  have facts := facts_of_policiesOf planned.policies
  have target : textOf input.1 "targetTenantId" = texts "targetTenantId" :=
    textOf_of_string? (string?_of_get? (hasTexts _ (by simp)))
  have enabled := planned.enabled
  rw [Program.mapM_eq_ok_iff] at arePolicies
  generalize parts.policies = given at arePolicies facts enabled
  cases arePolicies with
  | nil => cases enabled
  | @cons policy result _ _ here later =>
      obtain ⟨isNormal, -, hasTenant⟩ := facts policy List.mem_cons_self
      have parsed := parse_eq_ok.mp here
      rw [Option.bind_some, isNormal, Option.some.injEq] at parsed
      have named := tenants result List.mem_cons_self
      rw [← parsed, hasTenant, hasTarget, Option.some.injEq] at named
      rw [named, target]

end Refuses

/-! ## Agreement -/

/-- The validator takes the plan in any order of its fields, gives it back, and
takes nothing else under the plan's digest. -/
structure PlanAgrees (env : RecoveryEnvironment) (plan : Json) : Prop where
  accepts : ∀ raw : JsonValue, Same raw.1 plan →
    ∃ result, validateRecoveryPlan env raw.1 (textOf plan "digest") =
      .ok result ∧ Same result plan
  refuses : ∀ value : JsonValue, ¬Same value.1 plan →
    ∀ result, validateRecoveryPlan env value.1 (textOf plan "digest") ≠
      .ok result

theorem PlanParts.Planned.agrees_iff {parts : PlanParts} {input : JsonValue}
    {store : RecoveryStore} {options : RecoveryPlanOptions}
    (isHash : ∀ text, env.isSha256Hash (env.sha256 text) = true)
    (injective : Function.Injective env.sha256)
    (planned : parts.Planned env input store options) :
    PlanAgrees env (.object (parts.fields env input.1 options)) ↔
      trim (textOf input.1 "targetTenantId") =
        textOf input.1 "targetTenantId" := by
  have isDigest : textOf (.object (parts.fields env input.1 options)) "digest" =
      digest env (.object (parts.payload env input.1 options)) :=
    textOf_of_string? (string?_of_get? (parts.field?_digest env options))
  constructor
  · intro agrees
    obtain ⟨result, accepted, -⟩ :=
      agrees.accepts ⟨_, planned.isValue⟩ (.refl _)
    exact planned.trimmed_of_accepted accepted
  · intro trimmed
    constructor
    · intro raw same
      obtain ⟨result, accepted, kept⟩ :=
        planned.accepted isHash trimmed raw.2 same
      rw [isDigest]
      exact ⟨result, accepted, kept.trans same⟩
    · intro value differs result accepted
      rw [isDigest] at accepted
      exact differs (planned.same_of_accepted injective value.2 accepted)

/-- Planner and validator agree on a plan exactly if its target tenant is named
without spaces around it. -/
theorem planAgrees_iff {input : JsonValue} {store : RecoveryStore}
    {options : RecoveryPlanOptions} {plan : Json}
    (isHash : ∀ text, env.isSha256Hash (env.sha256 text) = true)
    (injective : Function.Injective env.sha256)
    (planned : planMemoryRecovery env input store options = .ok plan) :
    PlanAgrees env plan ↔
      trim (textOf input.1 "targetTenantId") =
        textOf input.1 "targetTenantId" := by
  obtain ⟨parts, facts, written⟩ := exists_parts_of_plan planned
  rw [jsonValue_of_wellFormed facts.isValue.wellFormed] at written
  cases written
  exact facts.agrees_iff isHash injective

def isLowerHex (char : Char) : Bool :=
  char.isDigit || decide ('a' ≤ char ∧ char ≤ 'f')

def isUuidText (text : String) : Bool :=
  text.toList.length = 36 &&
    text.toList.zipIdx.all fun (char, place) =>
      if [8, 13, 18, 23].contains place then char = '-' else isLowerHex char

def hashMark : List Char := List.replicate 64 '0'

theorem length_hashMark : hashMark.length = 64 := List.length_replicate

/-- A digest is one hash value with the text behind it, so that it tells all
texts apart. -/
def markedDigest (text : String) : String := String.ofList hashMark ++ text

def isMarkedDigest (text : String) : Bool :=
  64 ≤ text.toList.length && (text.toList.take 64).all isLowerHex

theorem toList_markedDigest (text : String) :
    (markedDigest text).toList = hashMark ++ text.toList := by
  rw [markedDigest, String.toList_append, String.toList_ofList]

theorem isMarkedDigest_markedDigest (text : String) :
    isMarkedDigest (markedDigest text) = true := by
  have long : 64 ≤ (hashMark ++ text.toList).length := by
    rw [List.length_append, length_hashMark]
    exact Nat.le_add_right 64 _
  have mark : (hashMark ++ text.toList).take 64 = hashMark :=
    List.take_left' length_hashMark
  have hexadecimal : hashMark.all isLowerHex = true := by decide +kernel
  rw [isMarkedDigest, toList_markedDigest, mark, hexadecimal, Bool.and_true]
  exact decide_eq_true long

theorem markedDigest_injective : Function.Injective markedDigest := by
  intro left right same
  have lists := congrArg String.toList same
  rw [toList_markedDigest, toList_markedDigest] at lists
  exact String.toList_injective (List.append_cancel_left lists)

def candidateUuid : String := "00000000-0000-4000-8000-0000000000ca"

/-- Ids have the form of an id, and digests that of a marked one. -/
def openEnvironment : RecoveryEnvironment where
  toEnvironment :=
    { plainEnvironment with
      sha256 := markedDigest
      isSha256Hash := isMarkedDigest
      isUuid := isUuidText
      uuidV5 := fun _ => candidateUuid }
  isIsoDatetime text := text.toList.getLast? = some 'Z'
  hmacSha256 _ payload := payload
  importRules := .array []
  importExcluded _ := false
  supersedes _ _ := false

def orchardInstant : String := "2026-01-01T00:00:00.000Z"

def operator : Json :=
  .object [("type", .string "human"), ("id", .string "op")]

def orchardMemory : Json :=
  .object
    [("id", .string "00000000-0000-4000-8000-00000000000a"),
      ("candidateId", .string "00000000-0000-4000-8000-00000000000b"),
      ("source", .string "manual"), ("content", .string "prune"),
      ("title", .string "orchard"), ("category", .string "pattern"),
      ("trustLevel", .string "low"), ("sensitivity", .string "public"),
      ("author", operator), ("tenantId", .string "a"),
      ("metadata", noMetadata), ("lifecycle", .string "active"),
      ("contentHash", .string (markedDigest "prune")),
      ("policyEvaluations", .array []),
      ("promotedAt", .string orchardInstant), ("promotedBy", operator),
      ("updatedAt", .string orchardInstant), ("version", .number "1")]

def orchardPolicy (tenant : String) : Json :=
  .object
    [("id", .string "00000000-0000-4000-8000-00000000000c"),
      ("name", .string "default"),
      ("tenantId", .string tenant),
      ("rules", .array
        [.object
          [("id", .string "rule"), ("type", .string "content_length"),
            ("action", .string "reject"), ("enabled", .bool true),
            ("priority", .number "0"), ("parameters", .object [])]]),
      ("enabled", .bool true), ("version", .number "1"),
      ("createdAt", .string orchardInstant),
      ("updatedAt", .string orchardInstant)]

def orchardBinding : RecoverySnapshotBinding where
  id := "00000000-0000-4000-8000-00000000000a"
  snapshotDigest := digest openEnvironment orchardMemory

def orchardInput (tenant : String) : Json :=
  .object
    [("runId", .string "00000000-0000-4000-8000-00000000000d"),
      ("createdAt", .string orchardInstant),
      ("storeLocator", .string ":memory:"), ("sourceTenantId", .string "a"),
      ("targetTenantId", .string tenant),
      ("selections", .array [orchardBinding.json]), ("exclusions", .array []),
      ("actor", operator), ("role", .string "owner"),
      ("reason", .string "recover")]

theorem isValue_operator : operator.IsValue :=
  Schema.isValue_object (by simp) (by simp)

theorem isValue_orchardMemory : orchardMemory.IsValue := by
  refine Schema.isValue_object (by simp) ?_
  simp [isValue_operator, isValue_noMetadata, isValue_one]

theorem isValue_orchardPolicy (tenant : String) :
    (orchardPolicy tenant).IsValue := by
  have parameters : (Json.object []).IsValue :=
    Schema.isValue_object (by simp) (by simp)
  have rule := @Schema.isValue_object
    [("id", .string "rule"), ("type", .string "content_length"),
      ("action", .string "reject"), ("enabled", .bool true),
      ("priority", .number "0"), ("parameters", .object [])]
    (by simp) (by simp [isValue_zero, parameters])
  refine Schema.isValue_object (by simp) ?_
  simp [isValue_one, Schema.isValue_array, rule]

theorem isValue_orchardInput (tenant : String) :
    (orchardInput tenant).IsValue := by
  refine Schema.isValue_object (by simp) ?_
  simp [isValue_operator, Schema.isValue_array, isValue_bindingJson]

def orchardStore (tenant : String) : RecoveryStore where
  locator := ":memory:"
  memories := [⟨orchardMemory, isValue_orchardMemory⟩]
  candidates := []
  policies := [⟨orchardPolicy tenant, isValue_orchardPolicy tenant⟩]
  isRedactedContent _ _ := false

def noOptions : RecoveryPlanOptions where
  allowedOriginChannels := none
  origin := none

def orchardProposal : Json :=
  .object
    [("schemaVersion", .string "1"), ("id", .string candidateUuid),
      ("status", .string "inbox"), ("source", .string "manual"),
      ("content", .string "prune"), ("title", .string "orchard"),
      ("category", .string "pattern"), ("trustLevel", .string "low"),
      ("author", operator), ("tenantId", .string "b"),
      ("metadata", .object
        [("filePaths", .array []), ("tags", .array []),
          ("proposedByRole", .string "admin")]),
      ("prePolicyFlags", noFlags),
      ("capturedAt", .string orchardInstant)]

def orchardParts : PlanParts where
  actor := operator
  selected := [orchardBinding.json]
  excluded := []
  active := []
  entries :=
    [{ source := orchardMemory
       sourceSnapshotDigest := digest openEnvironment orchardMemory
       proposal := orchardProposal
       candidateSnapshotDigest := digest openEnvironment orchardProposal }]
  policies := [orchardPolicy "b"]

theorem targetTenant_orchard (tenant : String) :
    textOf (orchardInput tenant) "targetTenantId" = tenant := by
  simp [textOf, string?, Json.get?, orchardInput, field?]

theorem findSource_orchard (tenant : String) :
    findSource openEnvironment (orchardStore tenant)
      (bindingOf orchardBinding.json) (orchardInput tenant)
      "Recovery source is missing" = .ok orchardMemory := by
  have tenants : (orchardInput tenant).string? "sourceTenantId" =
      some "a" := by
    simp [string?, Json.get?, orchardInput, field?]
  have role : (orchardInput tenant).string? "role" = some "owner" := by
    simp [string?, Json.get?, orchardInput, field?]
  refine Program.except_bind_eq_ok_iff.mpr ⟨some orchardMemory, rfl, ?_⟩
  refine Program.except_bind_eq_ok_iff.mpr ⟨(), ?_, rfl⟩
  refine Program.except_bind_eq_ok_iff.mpr
    ⟨(), require_eq_ok.mpr ⟨rfl, tenants ▸ rfl, rfl, rfl⟩, ?_⟩
  refine Program.except_bind_eq_ok_iff.mpr
    ⟨digest openEnvironment orchardMemory, rfl, ?_⟩
  exact require_eq_ok.mpr ⟨rfl, by rw [role]; rfl⟩

theorem planEntries_orchard {tenant : String} (foreign : tenant ≠ "a")
    (proposal : proposalFor openEnvironment orchardMemory (orchardInput tenant)
      defaultAllowedOriginChannels none = .ok orchardProposal) :
    planEntries openEnvironment (orchardStore tenant) (orchardInput tenant)
      noOptions.channels noOptions.origin orchardParts.active []
      (orchardParts.selected.map bindingOf) = .ok orchardParts.entries := by
  have snapshot : candidateSnapshotDigest openEnvironment orchardProposal =
      .ok (digest openEnvironment orchardProposal) :=
    Program.except_bind_eq_ok_iff.mpr ⟨orchardProposal, rfl, rfl⟩
  refine Program.except_bind_eq_ok_iff.mpr ⟨_, ?_,
    Program.except_bind_eq_ok_iff.mpr ⟨[], rfl, rfl⟩⟩
  refine Program.except_bind_eq_ok_iff.mpr ⟨_, findSource_orchard tenant, ?_⟩
  refine Program.except_bind_eq_ok_iff.mpr ⟨orchardProposal, ?_, ?_⟩
  · exact Program.except_bind_eq_ok_iff.mpr ⟨_, proposal, rfl⟩
  refine Program.except_bind_eq_ok_iff.mpr
    ⟨(), require_eq_ok.mpr ⟨by simp, by simp [orchardStore],
      by simp [orchardStore], ?_⟩, ?_⟩
  · rw [targetTenant_orchard]
    simp [orchardStore, orchardMemory, string?, Json.get?, field?, foreign]
  refine Program.except_bind_eq_ok_iff.mpr ⟨(), rfl, ?_⟩
  refine Program.except_bind_eq_ok_iff.mpr ⟨(), rfl, ?_⟩
  refine Program.except_bind_eq_ok_iff.mpr ⟨(), rfl, ?_⟩
  exact Program.except_bind_eq_ok_iff.mpr ⟨_, snapshot, rfl⟩

theorem isSha256Hash_digest (value : Json) :
    openEnvironment.isSha256Hash (digest openEnvironment value) = true :=
  isMarkedDigest_markedDigest value.canonical

theorem requireFresh_orchard :
    requireFresh openEnvironment [orchardBinding.json] [] = .ok () := by
  obtain ⟨isId, isDigest⟩ := get?_bindingJson orchardBinding
  have id : orchardBinding.json.string? "id" = some orchardBinding.id := by
    rw [string?, isId]
  have snapshot : orchardBinding.json.string? "snapshotDigest" =
      some orchardBinding.snapshotDigest := by
    rw [string?, isDigest]
  refine Program.except_bind_eq_ok_iff.mpr
    ⟨(), requireText_eq_ok.mpr ⟨_, id, by decide +kernel⟩, ?_⟩
  refine Program.except_bind_eq_ok_iff.mpr
    ⟨(), requireText_eq_ok.mpr
      ⟨_, snapshot, isSha256Hash_digest orchardMemory⟩, ?_⟩
  exact Program.except_bind_eq_ok_iff.mpr
    ⟨(), require_eq_ok.mpr List.not_mem_nil, rfl⟩

/-- The planner plans for any spelling of the tenant that policies and proposal
trim to the same name. -/
theorem orchardParts_planned {tenant : String}
    (authority : requireAuthority openEnvironment (orchardInput tenant) =
      .ok ())
    (policies : (orchardStore tenant).policiesOf openEnvironment tenant =
      .ok [orchardPolicy "b"])
    (foreign : tenant ≠ "a")
    (proposal : proposalFor openEnvironment orchardMemory (orchardInput tenant)
      defaultAllowedOriginChannels none = .ok orchardProposal) :
    orchardParts.Planned openEnvironment
      ⟨orchardInput tenant, isValue_orchardInput tenant⟩ (orchardStore tenant)
      noOptions where
  authority := authority
  selections := by simp [orchardInput, Json.get?, field?, orchardParts]
  exclusions := by simp [orchardInput, Json.get?, field?, orchardParts]
  fresh := requireFresh_orchard
  inBounds := by decide
  solid := by decide
  policies := by
    dsimp only
    rw [targetTenant_orchard]
    exact policies
  enabled := rfl
  entries := planEntries_orchard foreign proposal
  actor := by
    have actor : (orchardInput tenant).get? "actor" = some operator := by
      simp [Json.get?, orchardInput, field?]
    dsimp only
    rw [actor]
    rfl

theorem planMemoryRecovery_orchard {tenant : String}
    (planned : orchardParts.Planned openEnvironment
      ⟨orchardInput tenant, isValue_orchardInput tenant⟩ (orchardStore tenant)
      noOptions)
    (foreign : tenant ≠ "a") :
    planMemoryRecovery openEnvironment
      ⟨orchardInput tenant, isValue_orchardInput tenant⟩ (orchardStore tenant)
      noOptions =
        .ok (.object (orchardParts.fields openEnvironment (orchardInput tenant)
          noOptions)) := by
  have target : textOf (orchardInput tenant) "targetTenantId" = tenant := by
    simp [textOf, string?, Json.get?, orchardInput, field?]
  have locator : (orchardInput tenant).string? "storeLocator" =
      some ":memory:" := by
    simp [string?, Json.get?, orchardInput, field?]
  refine Program.except_bind_eq_ok_iff.mpr ⟨(), planned.authority, ?_⟩
  refine Program.except_bind_eq_ok_iff.mpr ⟨(), ?_, ?_⟩
  · dsimp only
    rw [planned.selections, planned.exclusions]
    exact Program.except_bind_eq_ok_iff.mpr
      ⟨(), require_eq_ok.mpr planned.inBounds, planned.fresh⟩
  refine Program.except_bind_eq_ok_iff.mpr
    ⟨(), require_eq_ok.mpr planned.solid, ?_⟩
  refine Program.except_bind_eq_ok_iff.mpr ⟨(), rfl, ?_⟩
  refine Program.except_bind_eq_ok_iff.mpr
    ⟨(), require_eq_ok.mpr locator.symm, ?_⟩
  refine Program.except_bind_eq_ok_iff.mpr ⟨_, planned.policies, ?_⟩
  refine Program.except_bind_eq_ok_iff.mpr
    ⟨(), require_eq_ok.mpr planned.enabled, ?_⟩
  dsimp only
  rw [planned.exclusions, planned.selections, target]
  refine Program.except_bind_eq_ok_iff.mpr ⟨[], rfl, ?_⟩
  refine Program.except_bind_eq_ok_iff.mpr ⟨[], ?_, ?_⟩
  · have none : (orchardStore tenant).memories.filter (fun row =>
        row.1.string? "tenantId" = some tenant &&
          row.1.string? "lifecycle" = some "active") = [] := by
      simp [orchardStore, orchardMemory, string?, Json.get?, field?,
        Ne.symm foreign]
    rw [RecoveryStore.findByTenantAndLifecycle, none]
    rfl
  refine Program.except_bind_eq_ok_iff.mpr ⟨_, planned.entries, ?_⟩
  refine Program.except_bind_eq_ok_iff.mpr
    ⟨_, parse_eq_ok.mpr planned.actor, ?_⟩
  exact jsonValue_of_wellFormed planned.isValue.wellFormed

theorem orchardParts_space :
    orchardParts.Planned openEnvironment
      ⟨orchardInput " b ", isValue_orchardInput " b "⟩ (orchardStore " b ")
      noOptions :=
  orchardParts_planned rfl rfl (by decide) rfl

theorem planAgrees_orchard :
    PlanAgrees openEnvironment
      (.object (orchardParts.fields openEnvironment (orchardInput "b")
        noOptions)) := by
  have planned := @orchardParts_planned "b" rfl rfl (by decide) rfl
  refine (planAgrees_iff isMarkedDigest_markedDigest
    markedDigest_injective
    (planMemoryRecovery_orchard planned (by decide))).mpr ?_
  rfl

/-- A plan for the tenant ` b ` of a policy that was stored with these spaces
is not accepted. -/
theorem spacedTenant_refused :
    ¬∀ (env : RecoveryEnvironment) (input : JsonValue) (store : RecoveryStore)
      (options : RecoveryPlanOptions) (plan : Json),
      (∀ text, env.isSha256Hash (env.sha256 text) = true) →
      Function.Injective env.sha256 →
      planMemoryRecovery env input store options = .ok plan →
      PlanAgrees env plan := by
  intro agree
  have agrees := agree _ _ _ _ _ isMarkedDigest_markedDigest
    markedDigest_injective
    (planMemoryRecovery_orchard orchardParts_space (by decide))
  have trimmed := (orchardParts_space.agrees_iff isMarkedDigest_markedDigest
    markedDigest_injective).mp agrees
  exact absurd trimmed (by decide +kernel)

end Registrar.Recovery
