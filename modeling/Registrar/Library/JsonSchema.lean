import Registrar.Library.JsonSame
import Registrar.Library.Program

/-!
# Schemas of JSON values

A schema takes a value apart and puts together what it keeps of it: texts in
their normal form, the known fields of an object in the schema's order, and the
default of a field that is absent.
-/

inductive Presence where
  | required
  | optional
  | default (value : Json)

inductive Schema where
  /-- A string that passes the check in its normal form. -/
  | text (normalize : String → String) (accepts : String → Bool)
  | boolean
  | number (accepts : String → Bool)
  | unknown
  /-- An object of any fields but `__proto__`. -/
  | record
  | array (item : Schema) (accepts : Nat → Bool)
  | object (fields : List (String × Presence × Schema))
  | refine (inner : Schema) (accepts : Json → Bool)

/-- What is kept of a field, if the field may be as it is. -/
def Presence.read (presence : Presence) (parse : Json → Option Json) :
    Option Json → Option (Option Json)
  | some value => (parse value).map some
  | none =>
      match presence with
      | .required => none
      | .optional => some none
      | .default value => some (some value)

namespace Schema

mutual

def parse : Schema → Json → Option Json
  | .text normalize accepts, value =>
      match value with
      | .string content =>
          if accepts (normalize content) then some (.string (normalize content))
          else none
      | _ => none
  | .boolean, value =>
      match value with
      | .bool flag => some (.bool flag)
      | _ => none
  | .number accepts, value =>
      match value with
      | .number literal =>
          if accepts literal then some (.number literal) else none
      | _ => none
  | .unknown, value => some value
  | .record, value =>
      match value with
      | .object values => some (.object (Json.eraseField "__proto__" values))
      | _ => none
  | .array item accepts, value =>
      match value with
      | .array items =>
          if accepts items.length then
            (items.mapM fun element => parse item element).map .array
          else none
      | _ => none
  | .object fields, value =>
      match value with
      | .object values => (parseFields fields values).map .object
      | _ => none
  | .refine inner accepts, value => (parse inner value).filter accepts

/-- The known fields, in the order of the schema. -/
def parseFields : List (String × Presence × Schema) →
    List (String × Json) → Option (List (String × Json))
  | [], _ => some []
  | (name, presence, schema) :: rest, values =>
      (Presence.read presence (fun value => parse schema value)
        (Json.field? values name)).bind fun kept =>
          (parseFields rest values).map (Json.optionalField name kept ++ ·)

end

def names (fields : List (String × Presence × Schema)) : List String :=
  fields.map Prod.fst

mutual

/-- A value that the schema gave is one that it keeps as it is. -/
def Normal : Schema → Prop
  | .text normalize accepts =>
      ∀ content, accepts (normalize content) = true →
        normalize (normalize content) = normalize content
  | .boolean | .number _ | .unknown | .record => True
  | .array item _ => item.Normal
  | .object fields => (names fields).Nodup ∧ FieldsNormal fields
  | .refine inner _ => inner.Normal

def FieldsNormal : List (String × Presence × Schema) → Prop
  | [] => True
  | (_, presence, schema) :: rest =>
      schema.Normal ∧
        (∀ value, presence = .default value →
          parse schema value = some value ∧ value.IsValue) ∧
        FieldsNormal rest

end

mutual

/-- Nothing of the values is kept unseen. -/
def Closed : Schema → Prop
  | .text _ _ | .boolean | .number _ => True
  | .unknown | .record => False
  | .array item _ => item.Closed
  | .object fields => FieldsClosed fields
  | .refine inner _ => inner.Closed

def FieldsClosed : List (String × Presence × Schema) → Prop
  | [] => True
  | (_, _, schema) :: rest => schema.Closed ∧ FieldsClosed rest

end

mutual

/-- Only closed schemas are refined. -/
def Regular : Schema → Prop
  | .text _ _ | .boolean | .number _ | .unknown | .record => True
  | .array item _ => item.Regular
  | .object fields => FieldsRegular fields
  | .refine inner _ => inner.Closed

def FieldsRegular : List (String × Presence × Schema) → Prop
  | [] => True
  | (_, _, schema) :: rest => schema.Regular ∧ FieldsRegular rest

end

theorem mem_names_of_parseFields
    {fields : List (String × Presence × Schema)}
    {values kept : List (String × Json)}
    (parsed : parseFields fields values = some kept) :
    ∀ name ∈ kept.map Prod.fst, name ∈ names fields := by
  induction fields generalizing kept with
  | nil =>
      rw [parseFields, Option.some.injEq] at parsed
      subst parsed
      intro name member
      cases member
  | cons field rest induction =>
      obtain ⟨key, presence, schema⟩ := field
      rw [parseFields] at parsed
      obtain ⟨found, -, mapped⟩ := Option.bind_eq_some_iff.mp parsed
      obtain ⟨others, isOthers, rfl⟩ := Option.map_eq_some_iff.mp mapped
      intro name member
      rw [List.map_append, List.mem_append] at member
      rcases member with first | later
      · obtain ⟨value, -, rfl⟩ :
            ∃ value, found = some value ∧ key = name := by
          cases found <;> simp [Json.optionalField, eq_comm] at first ⊢
          exact first
        exact List.mem_cons_self
      · exact List.mem_cons_of_mem _ (induction isOthers name later)

theorem nodup_of_parseFields {fields : List (String × Presence × Schema)}
    {values kept : List (String × Json)} (nodup : (names fields).Nodup)
    (parsed : parseFields fields values = some kept) :
    (kept.map Prod.fst).Nodup := by
  induction fields generalizing kept with
  | nil =>
      rw [parseFields, Option.some.injEq] at parsed
      subst parsed
      exact List.nodup_nil
  | cons field rest induction =>
      obtain ⟨key, presence, schema⟩ := field
      rw [parseFields] at parsed
      obtain ⟨found, -, mapped⟩ := Option.bind_eq_some_iff.mp parsed
      obtain ⟨others, isOthers, rfl⟩ := Option.map_eq_some_iff.mp mapped
      obtain ⟨fresh, restNodup⟩ := List.nodup_cons.mp nodup
      have later := induction restNodup isOthers
      cases found with
      | none => exact later
      | some value =>
          refine List.nodup_cons.mpr ⟨?_, later⟩
          exact fun member => fresh (mem_names_of_parseFields isOthers _ member)

/-- Every field of the schema is kept as its presence says. -/
theorem read_eq_of_parseFields {fields : List (String × Presence × Schema)}
    {values kept : List (String × Json)} (nodup : (names fields).Nodup)
    (parsed : parseFields fields values = some kept) {name : String}
    {presence : Presence} {schema : Schema}
    (member : (name, presence, schema) ∈ fields) :
    presence.read schema.parse (Json.field? values name) =
      some (Json.field? kept name) := by
  induction fields generalizing kept with
  | nil => cases member
  | cons field rest induction =>
      obtain ⟨key, keyPresence, keySchema⟩ := field
      rw [parseFields] at parsed
      obtain ⟨found, isFound, mapped⟩ := Option.bind_eq_some_iff.mp parsed
      obtain ⟨others, isOthers, rfl⟩ := Option.map_eq_some_iff.mp mapped
      obtain ⟨fresh, restNodup⟩ := List.nodup_cons.mp nodup
      rw [Json.field?_append, Json.field?_optionalField]
      rcases List.mem_cons.mp member with same | later
      · cases same
        have absent : Json.field? others name = none := by
          rw [← Option.not_isSome_iff_eq_none, Json.isSome_field?_iff]
          exact fun inOthers =>
            fresh (mem_names_of_parseFields isOthers name inOthers)
        rw [absent, if_pos rfl, Option.none_or]
        exact isFound
      · have apart : key ≠ name := by
          rintro rfl
          exact fresh (List.mem_map.mpr ⟨_, later, rfl⟩)
        rw [if_neg apart, Option.or_none]
        exact induction restNodup isOthers later

theorem read_get?_of_parse {fields : List (String × Presence × Schema)}
    {value result : Json} (nodup : (names fields).Nodup)
    (parsed : (object fields).parse value = some result) {name : String}
    {presence : Presence} {schema : Schema}
    (member : (name, presence, schema) ∈ fields) :
    presence.read schema.parse (value.get? name) = some (result.get? name) := by
  cases value with
  | object values =>
      rw [parse] at parsed
      obtain ⟨kept, isKept, rfl⟩ := Option.map_eq_some_iff.mp parsed
      exact read_eq_of_parseFields nodup isKept member
  | _ => cases parsed

/-- A text that the schema requires is there, and it is kept in its normal
form. -/
theorem exists_text_of_parse {fields : List (String × Presence × Schema)}
    {value result : Json} (nodup : (names fields).Nodup)
    (parsed : (object fields).parse value = some result) {name : String}
    {normalize : String → String} {accepts : String → Bool}
    (member : (name, Presence.required, text normalize accepts) ∈ fields) :
    ∃ content, value.string? name = some content ∧
      accepts (normalize content) = true ∧
      result.string? name = some (normalize content) := by
  have read := read_get?_of_parse nodup parsed member
  unfold Json.string?
  cases isFound : value.get? name with
  | none =>
      rw [isFound] at read
      cases read
  | some found =>
      rw [isFound, Presence.read] at read
      obtain ⟨kept, isKept, same⟩ := Option.map_eq_some_iff.mp read
      cases found with
      | string content =>
          rw [parse] at isKept
          split_ifs at isKept with accepted
          cases isKept
          exact ⟨content, rfl, accepted, by rw [← same]⟩
      | _ => cases isKept

/-- Fields that are read alike are parsed alike. -/
theorem parseFields_congr {fields : List (String × Presence × Schema)}
    {left right : List (String × Json)}
    (agree : ∀ field ∈ fields,
      field.2.1.read field.2.2.parse (Json.field? left field.1) =
        field.2.1.read field.2.2.parse (Json.field? right field.1)) :
    parseFields fields left = parseFields fields right := by
  induction fields with
  | nil => rfl
  | cons field rest induction =>
      obtain ⟨key, presence, schema⟩ := field
      rw [parseFields, parseFields,
        induction fun other later => agree other (List.mem_cons_of_mem _ later)]
      have here := agree _ List.mem_cons_self
      rw [here]

mutual

/-- What a normal schema gives, it keeps. -/
theorem parse_parse :
    ∀ {schema : Schema} {value result : Json}, schema.Normal →
      schema.parse value = some result → schema.parse result = some result
  | .text normalize accepts, value, result, normal, parsed => by
      cases value with
      | string content =>
          rw [parse] at parsed
          split_ifs at parsed with accepted
          cases parsed
          rw [parse, normal content accepted, if_pos accepted]
      | _ => cases parsed
  | .boolean, value, result, _, parsed => by
      cases value with
      | bool flag =>
          cases parsed
          rfl
      | _ => cases parsed
  | .number accepts, value, result, _, parsed => by
      cases value with
      | number literal =>
          rw [parse] at parsed
          split_ifs at parsed with accepted
          cases parsed
          rw [parse, if_pos accepted]
      | _ => cases parsed
  | .unknown, value, result, _, parsed => rfl
  | .record, value, result, _, parsed => by
      cases value with
      | object values =>
          cases parsed
          rw [parse]
          simp [Json.eraseField]
      | _ => cases parsed
  | .array item accepts, value, result, normal, parsed => by
      cases value with
      | array items =>
          rw [parse] at parsed
          split_ifs at parsed with accepted
          obtain ⟨kept, isKept, rfl⟩ := Option.map_eq_some_iff.mp parsed
          have all := Program.mapM_eq_some_iff.mp isKept
          rw [parse, ← all.length_eq, if_pos accepted]
          have again : kept.mapM (fun element => parse item element) =
              some kept := by
            clear isKept accepted parsed
            rw [Program.mapM_eq_some_iff]
            induction all with
            | nil => exact .nil
            | cons first rest induction =>
                exact .cons (parse_parse normal first) induction
          rw [again, Option.map_some]
      | _ => cases parsed
  | .object fields, value, result, normal, parsed => by
      cases value with
      | object values =>
          rw [parse] at parsed
          obtain ⟨kept, isKept, rfl⟩ := Option.map_eq_some_iff.mp parsed
          rw [parse, parseFields_parseFields normal.1 normal.2 isKept fun _ _ => rfl,
            Option.map_some]
      | _ => cases parsed
  | .refine inner accepts, value, result, normal, parsed => by
      have inside : inner.Normal := normal
      rw [parse, Option.filter_eq_some_iff] at parsed
      rw [parse, parse_parse inside parsed.1, Option.filter_eq_some_iff]
      exact ⟨rfl, parsed.2⟩

theorem parseFields_parseFields :
    ∀ {fields : List (String × Presence × Schema)}
      {values kept whole : List (String × Json)}, (names fields).Nodup →
      FieldsNormal fields → parseFields fields values = some kept →
      (∀ name ∈ names fields,
        Json.field? whole name = Json.field? kept name) →
      parseFields fields whole = some kept
  | [], values, kept, whole, _, _, parsed, _ => by
      rw [parseFields] at parsed ⊢
      exact parsed
  | (key, presence, schema) :: rest, values, kept, whole, nodup, normal,
      parsed, agree => by
      have kept_eq := read_eq_of_parseFields nodup parsed List.mem_cons_self
      have here := agree key List.mem_cons_self
      rw [parseFields] at parsed ⊢
      obtain ⟨found, isFound, mapped⟩ := Option.bind_eq_some_iff.mp parsed
      obtain ⟨others, isOthers, rfl⟩ := Option.map_eq_some_iff.mp mapped
      obtain ⟨fresh, restNodup⟩ := List.nodup_cons.mp nodup
      have same : some found =
          some (Json.field? (Json.optionalField key found ++ others) key) := by
        rw [← isFound, ← kept_eq]
      have again : presence.read (fun value => parse schema value)
          (Json.field? whole key) = some found := by
        rw [here, ← Option.some.inj same]
        cases found with
        | none =>
            cases read : Json.field? values key with
            | some value =>
                rw [read] at isFound
                simp [Presence.read] at isFound
            | none =>
                rw [read] at isFound
                exact isFound
        | some value =>
            have stays : schema.parse value = some value := by
              cases read : Json.field? values key with
              | some original =>
                  rw [read] at isFound
                  have isValue : schema.parse original = some value := by
                    simpa [Presence.read] using isFound
                  exact parse_parse normal.1 isValue
              | none =>
                  rw [read] at isFound
                  cases presence with
                  | required => simp [Presence.read] at isFound
                  | optional => simp [Presence.read] at isFound
                  | default stored =>
                      simp only [Presence.read, Option.some.injEq] at isFound
                      subst isFound
                      exact (normal.2.1 stored rfl).1
            rw [Presence.read, stays, Option.map_some]
      have later := @parseFields_parseFields rest values others whole restNodup
        normal.2.2 isOthers (by
          intro name member
          rw [agree name (List.mem_cons_of_mem _ member), Json.field?_append,
            Json.field?_optionalField, if_neg, Option.or_none]
          rintro rfl
          exact fresh member)
      rw [again, later]
      rfl

end

theorem forall₂_symm {left right : List Json}
    (same : List.Forall₂ Json.Same left right) :
    List.Forall₂ Json.Same right left :=
  (List.Forall₂.imp (fun _ _ agree => Json.Same.symm agree) same).flip

theorem forall₂_trans {left middle right : List Json}
    (first : List.Forall₂ Json.Same left middle)
    (second : List.Forall₂ Json.Same middle right) :
    List.Forall₂ Json.Same left right := by
  induction first generalizing right with
  | nil =>
      cases second
      exact .nil
  | cons here later induction =>
      cases second with
      | cons next rest => exact .cons (here.trans next) (induction rest)

theorem read_optional_of_read {schema : Schema} (normal : schema.Normal)
    {found kept : Option Json}
    (isKept : Presence.optional.read schema.parse found = some kept) :
    Presence.optional.read schema.parse kept = some kept := by
  cases found with
  | none =>
      cases isKept
      rfl
  | some value =>
      rw [Presence.read] at isKept
      obtain ⟨result, isResult, rfl⟩ := Option.map_eq_some_iff.mp isKept
      rw [Presence.read, parse_parse normal isResult, Option.map_some]

/-- The fields of two objects of the same value. -/
structure SameFields (left right : List (String × Json)) : Prop where
  agree : ∀ name, (Json.field? left name).map Json.sortKeys =
    (Json.field? right name).map Json.sortKeys
  isLeft : (Json.object left).Distinct
  isRight : (Json.object right).Distinct

theorem SameFields.of_same {left right : List (String × Json)}
    (same : Json.Same (.object left) (.object right))
    (isLeft : (Json.object left).Distinct)
    (isRight : (Json.object right).Distinct) : SameFields left right where
  agree := (Json.same_object_iff isLeft.1 isRight.1).mp same
  isLeft := isLeft
  isRight := isRight

/-- A field is absent from both objects, or it has one value in both. -/
theorem SameFields.field?_cases {left right : List (String × Json)}
    (same : SameFields left right) (name : String) :
    (Json.field? left name = none ∧ Json.field? right name = none) ∨
      ∃ first second, Json.field? left name = some first ∧
        Json.field? right name = some second ∧ Json.Same first second ∧
        first.Distinct ∧ second.Distinct := by
  have agree := same.agree name
  cases isFirst : Json.field? left name with
  | none =>
      rw [isFirst, Option.map_none, eq_comm, Option.map_eq_none_iff] at agree
      exact .inl ⟨rfl, agree⟩
  | some first =>
      rw [isFirst, Option.map_some, eq_comm, Option.map_eq_some_iff] at agree
      obtain ⟨second, isSecond, sorted⟩ := agree
      exact .inr ⟨first, second, rfl, isSecond, sorted.symm,
        @Json.distinct_of_get? (.object left) _ _ same.isLeft isFirst,
        @Json.distinct_of_get? (.object right) _ _ same.isRight isSecond⟩

theorem same_cases {left right : Json} (same : Json.Same left right) :
    left = right ∨
      (∃ first second, left = .array first ∧ right = .array second ∧
        List.Forall₂ Json.Same first second) ∨
      ∃ first second, left = .object first ∧ right = .object second := by
  cases right with
  | null => exact .inl (Json.same_null_iff.mp same)
  | bool flag => exact .inl (Json.same_bool_iff.mp same)
  | number literal => exact .inl (Json.same_number_iff.mp same)
  | string text => exact .inl (Json.same_string_iff.mp same)
  | array items =>
      obtain ⟨others, rfl, all⟩ := Json.same_array_iff.mp same
      exact .inr (.inl ⟨others, items, rfl, rfl, all⟩)
  | object fields =>
      obtain ⟨others, rfl⟩ := Json.exists_object_of_same same
      exact .inr (.inr ⟨others, fields, rfl, rfl⟩)

mutual

/-- A closed schema takes no notice of the order of fields. -/
theorem parse_eq_of_same :
    ∀ {schema : Schema} {left right : Json}, schema.Closed →
      Json.Same left right → left.Distinct → right.Distinct →
      schema.parse left = schema.parse right
  | .text _ _, left, right, _, same, _, _ => by
      rcases same_cases same with rfl | ⟨_, _, rfl, rfl, -⟩ | ⟨_, _, rfl, rfl⟩
      all_goals rfl
  | .boolean, left, right, _, same, _, _ => by
      rcases same_cases same with rfl | ⟨_, _, rfl, rfl, -⟩ | ⟨_, _, rfl, rfl⟩
      all_goals rfl
  | .number _, left, right, _, same, _, _ => by
      rcases same_cases same with rfl | ⟨_, _, rfl, rfl, -⟩ | ⟨_, _, rfl, rfl⟩
      all_goals rfl
  | .array item accepts, left, right, closed, same, isLeft, isRight => by
      rcases same_cases same with
        rfl | ⟨first, second, rfl, rfl, all⟩ | ⟨_, _, rfl, rfl⟩
      · rfl
      · have items : first.mapM (fun element => parse item element) =
            second.mapM fun element => parse item element := by
          have inLeft := Json.itemsDistinct_iff.mp isLeft
          have inRight := Json.itemsDistinct_iff.mp isRight
          clear same isLeft isRight
          induction all with
          | nil => rfl
          | cons here rest induction =>
              rw [List.mapM_cons, List.mapM_cons,
                @parse_eq_of_same item _ _ closed here
                  (inLeft _ List.mem_cons_self) (inRight _ List.mem_cons_self),
                induction
                  (fun element later => inLeft _ (List.mem_cons_of_mem _ later))
                  fun element later => inRight _ (List.mem_cons_of_mem _ later)]
        rw [parse, parse, items, all.length_eq]
      · rfl
  | .object fields, left, right, closed, same, isLeft, isRight => by
      rcases same_cases same with
        rfl | ⟨_, _, rfl, rfl, -⟩ | ⟨first, second, rfl, rfl⟩
      · rfl
      · rfl
      · rw [parse, parse,
          parseFields_eq_of_same closed (.of_same same isLeft isRight)]
  | .refine inner accepts, left, right, closed, same, isLeft, isRight => by
      rw [parse, parse, @parse_eq_of_same inner _ _ closed same isLeft isRight]

theorem parseFields_eq_of_same :
    ∀ {fields : List (String × Presence × Schema)}
      {left right : List (String × Json)}, FieldsClosed fields →
      SameFields left right →
      parseFields fields left = parseFields fields right
  | [], _, _, _, _ => rfl
  | (key, presence, schema) :: rest, left, right, closed, same => by
      have here : presence.read (fun value => parse schema value)
          (Json.field? left key) =
            presence.read (fun value => parse schema value)
              (Json.field? right key) := by
        rcases same.field?_cases key with ⟨first, second⟩ |
          ⟨first, second, isFirst, isSecond, agree, one, two⟩
        · rw [first, second]
        · rw [isFirst, isSecond, Presence.read, Presence.read,
            parse_eq_of_same closed.1 agree one two]
      rw [parseFields, parseFields, here, parseFields_eq_of_same closed.2 same]

end

/-! Sorting commutes with what a schema puts together. -/

theorem map_some_congr {left right : Option Json}
    (agree : left.map Json.sortKeys = right.map Json.sortKeys) :
    left.map (Option.map Json.sortKeys ∘ some) =
      right.map (Option.map Json.sortKeys ∘ some) := by
  have both := congrArg (Option.map some) agree
  rw [Option.map_map, Option.map_map] at both
  exact both

theorem map_cons_congr {left right : Option Json}
    {leftRest rightRest : Option (List Json)}
    (agree : left.map Json.sortKeys = right.map Json.sortKeys)
    (later : leftRest.map Json.sortItems = rightRest.map Json.sortItems) :
    (left.bind fun item => leftRest.bind fun items =>
        some (item :: items)).map Json.sortItems =
      (right.bind fun item => rightRest.bind fun items =>
        some (item :: items)).map Json.sortItems := by
  cases left <;> cases right <;> cases leftRest <;> cases rightRest <;>
    simp_all [Json.sortItems]

theorem map_array_congr {left right : Option (List Json)}
    (agree : left.map Json.sortItems = right.map Json.sortItems) :
    (left.map Json.array).map Json.sortKeys =
      (right.map Json.array).map Json.sortKeys := by
  have both := congrArg (Option.map Json.array) agree
  rw [Option.map_map, Option.map_map] at both ⊢
  exact both

theorem map_object_congr {left right : Option (List (String × Json))}
    (agree : left.map Json.sortFields = right.map Json.sortFields) :
    (left.map Json.object).map Json.sortKeys =
      (right.map Json.object).map Json.sortKeys := by
  have both := congrArg (Option.map fun fields : List (String × Json) =>
    Json.object (fields.insertionSort fun left right => left.1 ≤ right.1)) agree
  rw [Option.map_map, Option.map_map] at both ⊢
  exact both

theorem parseFields_cons_congr {key : String} {left right : Option (Option Json)}
    {leftRest rightRest : Option (List (String × Json))}
    (agree : left.map (Option.map Json.sortKeys) =
      right.map (Option.map Json.sortKeys))
    (later : leftRest.map Json.sortFields = rightRest.map Json.sortFields) :
    (left.bind fun kept =>
        leftRest.map (Json.optionalField key kept ++ ·)).map Json.sortFields =
      (right.bind fun kept =>
        rightRest.map (Json.optionalField key kept ++ ·)).map
          Json.sortFields := by
  cases left with
  | none => cases right <;> simp_all
  | some left =>
      cases right with
      | none => simp_all
      | some right =>
          cases left <;> cases right <;> cases leftRest <;> cases rightRest <;>
            simp_all [Json.sortFields_eq_map, Json.optionalField]

mutual

/-- What a schema gives of the same values is the same. -/
theorem parse_same :
    ∀ {schema : Schema} {left right : Json}, schema.Regular →
      Json.Same left right → left.Distinct → right.Distinct →
      (schema.parse left).map Json.sortKeys =
        (schema.parse right).map Json.sortKeys
  | .text _ _, left, right, _, same, isLeft, isRight => by
      rw [@parse_eq_of_same (.text _ _) _ _ trivial same isLeft isRight]
  | .boolean, left, right, _, same, isLeft, isRight => by
      rw [@parse_eq_of_same (.boolean) _ _ trivial same isLeft isRight]
  | .number _, left, right, _, same, isLeft, isRight => by
      rw [@parse_eq_of_same (.number _) _ _ trivial same isLeft isRight]
  | .unknown, left, right, _, same, _, _ => congrArg some same
  | .record, left, right, _, same, isLeft, isRight => by
      rcases same_cases same with
        rfl | ⟨_, _, rfl, rfl, -⟩ | ⟨first, second, rfl, rfl⟩
      · rfl
      · rfl
      · refine congrArg some ((Json.same_object_iff
          (Json.nodup_eraseField _ isLeft.1)
          (Json.nodup_eraseField _ isRight.1)).mpr fun name => ?_)
        rw [Json.field?_eraseField, Json.field?_eraseField]
        split_ifs
        · rfl
        · exact (Json.same_object_iff isLeft.1 isRight.1).mp same name
  | .array item accepts, left, right, regular, same, isLeft, isRight => by
      rcases same_cases same with
        rfl | ⟨first, second, rfl, rfl, all⟩ | ⟨_, _, rfl, rfl⟩
      · rfl
      · have items :
            (first.mapM fun element => parse item element).map Json.sortItems =
              (second.mapM fun element => parse item element).map
                Json.sortItems := by
          have inLeft := Json.itemsDistinct_iff.mp isLeft
          have inRight := Json.itemsDistinct_iff.mp isRight
          clear same isLeft isRight
          induction all with
          | nil => rfl
          | cons here rest induction =>
              have agree := @parse_same item _ _ regular here
                (inLeft _ List.mem_cons_self) (inRight _ List.mem_cons_self)
              have later := induction
                (fun element later => inLeft _ (List.mem_cons_of_mem _ later))
                fun element later => inRight _ (List.mem_cons_of_mem _ later)
              rw [List.mapM_cons, List.mapM_cons]
              exact map_cons_congr agree later
        rw [parse, parse, all.length_eq]
        split_ifs
        · exact map_array_congr items
        · rfl
      · rfl
  | .object fields, left, right, regular, same, isLeft, isRight => by
      rcases same_cases same with
        rfl | ⟨_, _, rfl, rfl, -⟩ | ⟨first, second, rfl, rfl⟩
      · rfl
      · rfl
      · exact map_object_congr
          (parseFields_same regular (.of_same same isLeft isRight))
  | .refine inner accepts, left, right, regular, same, isLeft, isRight => by
      rw [parse, parse, @parse_eq_of_same inner _ _ regular same isLeft isRight]

theorem parseFields_same :
    ∀ {fields : List (String × Presence × Schema)}
      {left right : List (String × Json)}, FieldsRegular fields →
      SameFields left right →
      (parseFields fields left).map Json.sortFields =
        (parseFields fields right).map Json.sortFields
  | [], _, _, _, _ => rfl
  | (key, presence, schema) :: rest, left, right, regular, same => by
      have here : (presence.read (fun value => parse schema value)
          (Json.field? left key)).map (Option.map Json.sortKeys) =
            (presence.read (fun value => parse schema value)
              (Json.field? right key)).map (Option.map Json.sortKeys) := by
        rcases same.field?_cases key with ⟨first, second⟩ |
          ⟨first, second, isFirst, isSecond, agree, one, two⟩
        · rw [first, second]
        · have parsed := parse_same regular.1 agree one two
          rw [isFirst, isSecond, Presence.read, Presence.read, Option.map_map,
            Option.map_map]
          exact map_some_congr parsed
      exact parseFields_cons_congr here (parseFields_same regular.2 same)

end

theorem isValue_array {items : List Json}
    (all : ∀ item ∈ items, item.IsValue) : (Json.array items).IsValue where
  wellFormed := Json.itemsWellFormed_iff.mpr fun item member =>
    (all item member).wellFormed
  distinct := Json.itemsDistinct_iff.mpr fun item member =>
    (all item member).distinct

theorem isValue_object {fields : List (String × Json)}
    (nodup : (fields.map Prod.fst).Nodup)
    (all : ∀ field ∈ fields, field.2.IsValue) :
    (Json.object fields).IsValue where
  wellFormed := Json.fieldsWellFormed_iff.mpr fun field member =>
    (all field member).wellFormed
  distinct := ⟨nodup, Json.fieldsDistinct_iff.mpr fun field member =>
    (all field member).distinct⟩

theorem isValue_of_mem_array {items : List Json}
    (isValue : (Json.array items).IsValue) {item : Json}
    (member : item ∈ items) : item.IsValue where
  wellFormed := Json.itemsWellFormed_iff.mp isValue.wellFormed item member
  distinct := Json.itemsDistinct_iff.mp isValue.distinct item member

theorem isValue_of_mem_object {fields : List (String × Json)}
    (isValue : (Json.object fields).IsValue) {field : String × Json}
    (member : field ∈ fields) : field.2.IsValue where
  wellFormed := Json.fieldsWellFormed_iff.mp isValue.wellFormed field member
  distinct := Json.fieldsDistinct_iff.mp isValue.distinct.2 field member

theorem isValue_setField {name : String} {value : Json}
    {fields : List (String × Json)} (isFields : (Json.object fields).IsValue)
    (isValue : value.IsValue) :
    (Json.object (Json.setField name value fields)).IsValue := by
  refine isValue_object (Json.nodup_setField name value isFields.distinct.1) ?_
  intro field member
  unfold Json.setField at member
  split_ifs at member
  · obtain ⟨before, isBefore, rfl⟩ := List.mem_map.mp member
    split_ifs
    · exact isValue
    · exact isValue_of_mem_object isFields isBefore
  · rcases List.mem_append.mp member with old | new
    · exact isValue_of_mem_object isFields old
    · rw [List.mem_singleton.mp new]
      exact isValue

theorem isValue_optionalField {name : String} {value : Option Json}
    (isValue : ∀ found, value = some found → found.IsValue) :
    ∀ field ∈ Json.optionalField name value, field.2.IsValue := by
  cases value with
  | none =>
      intro field member
      cases member
  | some found =>
      intro field member
      obtain rfl : field = (name, found) := by
        simpa [Json.optionalField] using member
      exact isValue found rfl

theorem names_optionalField (name : String) (value : Option Json) :
    ((Json.optionalField name value).map Prod.fst).Sublist [name] := by
  cases value with
  | none => exact List.nil_sublist _
  | some found => exact .refl _

mutual

theorem isValue_of_parse :
    ∀ {schema : Schema} {value result : Json}, schema.Normal → value.IsValue →
      schema.parse value = some result → result.IsValue
  | .text normalize accepts, value, result, _, _, parsed => by
      cases value with
      | string content =>
          rw [parse] at parsed
          split_ifs at parsed
          cases parsed
          exact ⟨trivial, trivial⟩
      | _ => cases parsed
  | .boolean, value, result, _, _, parsed => by
      cases value with
      | bool flag =>
          cases parsed
          exact ⟨trivial, trivial⟩
      | _ => cases parsed
  | .number accepts, value, result, _, isValue, parsed => by
      cases value with
      | number literal =>
          rw [parse] at parsed
          split_ifs at parsed
          cases parsed
          exact isValue
      | _ => cases parsed
  | .unknown, value, result, _, isValue, parsed => by
      cases parsed
      exact isValue
  | .record, value, result, _, isValue, parsed => by
      cases value with
      | object values =>
          cases parsed
          refine isValue_object (Json.nodup_eraseField _ isValue.distinct.1) ?_
          intro field member
          exact isValue_of_mem_object isValue (List.mem_of_mem_filter member)
      | _ => cases parsed
  | .array item accepts, value, result, normal, isValue, parsed => by
      cases value with
      | array items =>
          rw [parse] at parsed
          split_ifs at parsed with accepted
          obtain ⟨kept, isKept, rfl⟩ := Option.map_eq_some_iff.mp parsed
          have all := Program.mapM_eq_some_iff.mp isKept
          have inside : ∀ element ∈ items, element.IsValue := fun _ member =>
            isValue_of_mem_array isValue member
          refine isValue_array ?_
          clear isKept parsed isValue accepted
          induction all with
          | nil =>
              intro _ member
              cases member
          | cons first rest induction =>
              intro element member
              rcases List.mem_cons.mp member with rfl | later
              · exact @isValue_of_parse item _ _ normal
                  (inside _ List.mem_cons_self) first
              · exact induction
                  (fun other known => inside _ (List.mem_cons_of_mem _ known))
                  element later
      | _ => cases parsed
  | .object fields, value, result, normal, isValue, parsed => by
      cases value with
      | object values =>
          rw [parse] at parsed
          obtain ⟨kept, isKept, rfl⟩ := Option.map_eq_some_iff.mp parsed
          refine isValue_object (nodup_of_parseFields normal.1 isKept) ?_
          exact isValue_of_parseFields normal.2
            (fun name found isFound =>
              @Json.IsValue.get? (.object values) _ _ isValue isFound) isKept
      | _ => cases parsed
  | .refine inner accepts, value, result, normal, isValue, parsed => by
      have inside : inner.Normal := normal
      rw [parse, Option.filter_eq_some_iff] at parsed
      exact isValue_of_parse inside isValue parsed.1

theorem isValue_of_parseFields :
    ∀ {fields : List (String × Presence × Schema)}
      {values kept : List (String × Json)}, FieldsNormal fields →
      (∀ name found, Json.field? values name = some found → found.IsValue) →
      parseFields fields values = some kept →
      ∀ field ∈ kept, field.2.IsValue
  | [], values, kept, _, _, parsed => by
      rw [parseFields, Option.some.injEq] at parsed
      subst parsed
      intro _ member
      cases member
  | (key, presence, schema) :: rest, values, kept, normal, inside, parsed => by
      rw [parseFields] at parsed
      obtain ⟨found, isFound, mapped⟩ := Option.bind_eq_some_iff.mp parsed
      obtain ⟨others, isOthers, rfl⟩ := Option.map_eq_some_iff.mp mapped
      intro field member
      rcases List.mem_append.mp member with here | later
      · cases found with
        | none => cases here
        | some value =>
            rw [Json.optionalField] at here
            obtain rfl : field = (key, value) := by simpa using here
            cases read : Json.field? values key with
            | some original =>
                rw [read] at isFound
                have isValue : schema.parse original = some value := by
                  simpa [Presence.read] using isFound
                exact isValue_of_parse normal.1 (inside _ _ read) isValue
            | none =>
                rw [read] at isFound
                cases presence with
                | required => simp [Presence.read] at isFound
                | optional => simp [Presence.read] at isFound
                | default stored =>
                    simp only [Presence.read, Option.some.injEq] at isFound
                    subst isFound
                    exact (normal.2.1 stored rfl).2
      · exact isValue_of_parseFields normal.2.2 inside isOthers field later

end

end Schema
