import Registrar.Library.JsonText

/-!
# Values up to the order of fields

Two values are the same if they differ at most in the order in which their
objects list their fields.
-/

namespace Json

/-- The values differ at most in the order of fields. -/
def Same (left right : Json) : Prop :=
  left.sortKeys = right.sortKeys

mutual

/-- No object of the value has two fields of one name. -/
def Distinct : Json → Prop
  | array items => ItemsDistinct items
  | object fields => (fields.map Prod.fst).Nodup ∧ FieldsDistinct fields
  | null | bool _ | number _ | string _ => True

def ItemsDistinct : List Json → Prop
  | [] => True
  | item :: rest => item.Distinct ∧ ItemsDistinct rest

def FieldsDistinct : List (String × Json) → Prop
  | [] => True
  | (_, value) :: rest => value.Distinct ∧ FieldsDistinct rest

end

/-- What can be read from a JSON text: the numbers are literals, and the last
field of a name is the only one. -/
structure IsValue (value : Json) : Prop where
  wellFormed : value.WellFormed
  distinct : value.Distinct

/-- The property of a value. -/
def get? (value : Json) (name : String) : Option Json :=
  match value with
  | object fields => field? fields name
  | _ => none

/-- The property of a value, where it is a string. -/
def string? (value : Json) (name : String) : Option String :=
  match value.get? name with
  | some (string text) => some text
  | _ => none

/-- `isDeepStrictEqual` -/
def deepEquals (left right : Json) : Bool :=
  left.canonical = right.canonical

@[simp]
theorem Same.refl (value : Json) : Same value value :=
  rfl

theorem Same.symm {left right : Json} (same : Same left right) :
    Same right left :=
  Eq.symm same

theorem Same.trans {left middle right : Json} (first : Same left middle)
    (second : Same middle right) : Same left right :=
  Eq.trans first second

theorem Same.canonical_eq {left right : Json} (same : Same left right) :
    left.canonical = right.canonical :=
  congrArg stringify same

theorem deepEquals_of_same {left right : Json} (same : Same left right) :
    deepEquals left right = true :=
  decide_eq_true same.canonical_eq

theorem itemsDistinct_iff {items : List Json} :
    ItemsDistinct items ↔ ∀ item ∈ items, item.Distinct := by
  induction items with
  | nil => simp [ItemsDistinct]
  | cons item items induction => simp [ItemsDistinct, induction]

theorem fieldsDistinct_iff {fields : List (String × Json)} :
    FieldsDistinct fields ↔ ∀ field ∈ fields, field.2.Distinct := by
  induction fields with
  | nil => simp [FieldsDistinct]
  | cons field fields induction => simp [FieldsDistinct, induction]

theorem sortItems_eq_map (items : List Json) :
    sortItems items = items.map sortKeys := by
  induction items with
  | nil => rfl
  | cons item items induction => rw [sortItems, induction, List.map_cons]

theorem sortFields_eq_map (fields : List (String × Json)) :
    sortFields fields =
      fields.map fun field => (field.1, field.2.sortKeys) := by
  induction fields with
  | nil => rfl
  | cons field fields induction => rw [sortFields, induction, List.map_cons]

theorem map_fst_sortFields (fields : List (String × Json)) :
    (sortFields fields).map Prod.fst = fields.map Prod.fst := by
  rw [sortFields_eq_map, List.map_map]
  rfl

theorem field?_sortFields (fields : List (String × Json)) (name : String) :
    field? (sortFields fields) name = (field? fields name).map sortKeys := by
  unfold field?
  rw [sortFields_eq_map, ← List.map_reverse, List.find?_map, Option.map_map,
    Option.map_map]
  rfl

theorem field?_eq_some_iff {fields : List (String × Json)}
    (nodup : (fields.map Prod.fst).Nodup) {name : String} {value : Json} :
    field? fields name = some value ↔ (name, value) ∈ fields := by
  unfold field?
  rw [Option.map_eq_some_iff]
  constructor
  · rintro ⟨⟨key, found⟩, isFound, rfl⟩
    have named : key = name := by simpa using List.find?_some isFound
    rw [← named]
    exact List.mem_reverse.mp (List.mem_of_find?_eq_some isFound)
  · intro member
    cases isFound : fields.reverse.find? fun entry => entry.1 = name with
    | none =>
        have other := List.find?_eq_none.mp isFound _
          (List.mem_reverse.mpr member)
        simp at other
    | some entry =>
        have named : entry.1 = name := by simpa using List.find?_some isFound
        have isEntry := List.mem_reverse.mp (List.mem_of_find?_eq_some isFound)
        have only := List.inj_on_of_nodup_map nodup isEntry member named
        exact ⟨entry, rfl, by rw [only]⟩

theorem isSome_field?_iff {fields : List (String × Json)} {name : String} :
    (field? fields name).isSome = true ↔ name ∈ fields.map Prod.fst := by
  unfold field?
  rw [Option.isSome_map, List.find?_isSome]
  simp

theorem sortKeys_object_eq_iff {left right : List (String × Json)}
    (isLeft : (left.map Prod.fst).Nodup) :
    (object left).sortKeys = (object right).sortKeys ↔
      (sortFields left).Perm (sortFields right) := by
  have total : Std.Total fun left right : String × Json => left.1 ≤ right.1 :=
    ⟨fun left right => String.le_total left.1 right.1⟩
  have transitive : IsTrans (String × Json) fun left right =>
      left.1 ≤ right.1 :=
    ⟨fun _ _ _ => String.le_trans⟩
  rw [sortKeys, sortKeys, object.injEq]
  constructor
  · intro same
    have first := List.perm_insertionSort
      (fun left right : String × Json => left.1 ≤ right.1) (sortFields left)
    rw [same] at first
    exact first.symm.trans (List.perm_insertionSort _ _)
  · intro perm
    have keys : ((sortFields left).map Prod.fst).Nodup := by
      rw [map_fst_sortFields]
      exact isLeft
    refine List.Perm.eq_of_pairwise ?_ (List.pairwise_insertionSort _ _)
      (List.pairwise_insertionSort _ _)
      ((List.perm_insertionSort _ _).trans
        (perm.trans (List.perm_insertionSort _ _).symm))
    intro first second isFirst isSecond below above
    have one := (List.perm_insertionSort _ _).mem_iff.mp isFirst
    have two := perm.mem_iff.mpr
      ((List.perm_insertionSort _ _).mem_iff.mp isSecond)
    exact List.inj_on_of_nodup_map keys one two
      (String.le_antisymm below above)

/-- Objects are the same where their fields of each name are. -/
theorem same_object_iff {left right : List (String × Json)}
    (isLeft : (left.map Prod.fst).Nodup)
    (isRight : (right.map Prod.fst).Nodup) :
    Same (object left) (object right) ↔
      ∀ name, (field? left name).map sortKeys =
        (field? right name).map sortKeys := by
  have leftKeys : ((sortFields left).map Prod.fst).Nodup := by
    rw [map_fst_sortFields]
    exact isLeft
  have rightKeys : ((sortFields right).map Prod.fst).Nodup := by
    rw [map_fst_sortFields]
    exact isRight
  rw [Same, sortKeys_object_eq_iff isLeft]
  constructor
  · intro perm name
    rw [← field?_sortFields, ← field?_sortFields]
    refine Option.ext fun value => ?_
    rw [field?_eq_some_iff leftKeys, field?_eq_some_iff rightKeys]
    exact perm.mem_iff
  · intro agree
    refine (List.perm_ext_iff_of_nodup leftKeys.of_map rightKeys.of_map).mpr ?_
    rintro ⟨name, value⟩
    rw [← field?_eq_some_iff leftKeys, ← field?_eq_some_iff rightKeys,
      field?_sortFields, field?_sortFields, agree name]

theorem same_string_iff {value : Json} {text : String} :
    Same value (string text) ↔ value = string text := by
  cases value <;> simp [Same, sortKeys]

theorem same_number_iff {value : Json} {literal : String} :
    Same value (number literal) ↔ value = number literal := by
  cases value <;> simp [Same, sortKeys]

theorem same_bool_iff {value : Json} {flag : Bool} :
    Same value (bool flag) ↔ value = bool flag := by
  cases value <;> simp [Same, sortKeys]

theorem same_null_iff {value : Json} : Same value null ↔ value = null := by
  cases value <;> simp [Same, sortKeys]

theorem same_array_iff {value : Json} {items : List Json} :
    Same value (array items) ↔
      ∃ others, value = array others ∧ List.Forall₂ Same others items := by
  constructor
  · intro same
    cases value with
    | array others =>
        refine ⟨others, rfl, ?_⟩
        rw [Same, sortKeys, sortKeys, array.injEq, sortItems_eq_map,
          sortItems_eq_map] at same
        refine List.forall₂_iff_get.mpr
          ⟨by simpa using congrArg List.length same, ?_⟩
        intro index inLeft inRight
        have both := congrArg (·[index]?) same
        simp [inLeft, inRight] at both
        exact both
    | _ => simp [Same, sortKeys] at same
  · rintro ⟨others, rfl, all⟩
    rw [Same, sortKeys, sortKeys, array.injEq, sortItems_eq_map,
      sortItems_eq_map]
    induction all with
    | nil => rfl
    | cons first rest induction =>
        rw [List.map_cons, List.map_cons, induction]
        congr 1

theorem exists_object_of_same {value : Json} {fields : List (String × Json)}
    (same : Same value (object fields)) :
    ∃ others, value = object others := by
  cases value with
  | object others => exact ⟨others, rfl⟩
  | _ => simp [Same, sortKeys] at same

theorem Same.get?_eq {left right : Json} (same : Same left right)
    (isLeft : left.Distinct) (isRight : right.Distinct) (name : String) :
    (left.get? name).map sortKeys = (right.get? name).map sortKeys := by
  cases left with
  | object fields =>
      obtain ⟨others, rfl⟩ := exists_object_of_same same.symm
      exact (same_object_iff isLeft.1 isRight.1).mp same name
  | _ =>
      cases right with
      | object fields => simp [Same, sortKeys] at same
      | _ => rfl

theorem Same.exists_get? {left right : Json} (same : Same left right)
    (isLeft : left.Distinct) (isRight : right.Distinct) {name : String}
    {value : Json} (found : right.get? name = some value) :
    ∃ other, left.get? name = some other ∧ Same other value := by
  have agree := same.get?_eq isLeft isRight name
  rw [found, Option.map_some, Option.map_eq_some_iff] at agree
  exact agree

theorem distinct_of_get? {value found : Json} {name : String}
    (distinct : value.Distinct) (isFound : value.get? name = some found) :
    found.Distinct := by
  cases value with
  | object fields =>
      have member := (field?_eq_some_iff distinct.1).mp isFound
      exact fieldsDistinct_iff.mp distinct.2 _ member
  | _ => cases isFound

theorem wellFormed_of_field? {fields : List (String × Json)} {found : Json}
    {name : String} (wellFormed : FieldsWellFormed fields)
    (isFound : field? fields name = some found) : found.WellFormed := by
  unfold field? at isFound
  obtain ⟨entry, isEntry, rfl⟩ := Option.map_eq_some_iff.mp isFound
  exact fieldsWellFormed_iff.mp wellFormed entry
    (List.mem_reverse.mp (List.mem_of_find?_eq_some isEntry))

theorem wellFormed_of_get? {value found : Json} {name : String}
    (wellFormed : value.WellFormed) (isFound : value.get? name = some found) :
    found.WellFormed := by
  cases value with
  | object fields => exact wellFormed_of_field? wellFormed isFound
  | _ => cases isFound

theorem IsValue.get? {value found : Json} {name : String}
    (isValue : value.IsValue) (isFound : value.get? name = some found) :
    found.IsValue :=
  ⟨wellFormed_of_get? isValue.wellFormed isFound,
    distinct_of_get? isValue.distinct isFound⟩

mutual

theorem wellFormed_sortKeys :
    ∀ {value : Json}, value.WellFormed → value.sortKeys.WellFormed
  | null, _ => trivial
  | bool _, _ => trivial
  | number _, wellFormed => wellFormed
  | string _, _ => trivial
  | array items, wellFormed => by
      rw [sortKeys, WellFormed]
      exact itemsWellFormed_sortItems wellFormed
  | object fields, wellFormed => by
      rw [sortKeys, WellFormed, fieldsWellFormed_iff]
      intro field member
      exact fieldsWellFormed_iff.mp (fieldsWellFormed_sortFields wellFormed)
        field ((List.perm_insertionSort _ _).mem_iff.mp member)

theorem itemsWellFormed_sortItems :
    ∀ {items : List Json}, ItemsWellFormed items →
      ItemsWellFormed (sortItems items)
  | [], _ => trivial
  | _ :: _, wellFormed =>
      ⟨wellFormed_sortKeys wellFormed.1,
        itemsWellFormed_sortItems wellFormed.2⟩

theorem fieldsWellFormed_sortFields :
    ∀ {fields : List (String × Json)}, FieldsWellFormed fields →
      FieldsWellFormed (sortFields fields)
  | [], _ => trivial
  | (_, _) :: _, wellFormed =>
      ⟨wellFormed_sortKeys wellFormed.1,
        fieldsWellFormed_sortFields wellFormed.2⟩

end

theorem same_of_canonical_eq {left right : Json} (isLeft : left.WellFormed)
    (isRight : right.WellFormed) (texts : left.canonical = right.canonical) :
    Same left right :=
  stringify_injective (wellFormed_sortKeys isLeft)
    (wellFormed_sortKeys isRight) texts

/-- The fields without those of a name. -/
def eraseField (name : String) (fields : List (String × Json)) :
    List (String × Json) :=
  fields.filter fun field => field.1 ≠ name

/-- `{ ...object, name: value }` -/
def setField (name : String) (value : Json) (fields : List (String × Json)) :
    List (String × Json) :=
  if name ∈ fields.map Prod.fst then
    fields.map fun field => if field.1 = name then (name, value) else field
  else fields ++ [(name, value)]

theorem field?_eraseField (erased name : String)
    (fields : List (String × Json)) :
    field? (eraseField erased fields) name =
      if name = erased then none else field? fields name := by
  unfold field? eraseField
  rw [← List.filter_reverse, List.find?_filter]
  split_ifs with same
  · rw [Option.map_eq_none_iff, List.find?_eq_none]
    rintro ⟨key, value⟩ - both
    simp [same] at both
  · congr 2
    funext field
    by_cases named : field.1 = name
    · simp [named, same]
    · simp [named]

theorem nodup_eraseField (name : String) {fields : List (String × Json)}
    (nodup : (fields.map Prod.fst).Nodup) :
    ((eraseField name fields).map Prod.fst).Nodup :=
  nodup.sublist (List.Sublist.map _ List.filter_sublist)

theorem map_fst_setField {name : String} {value : Json}
    {fields : List (String × Json)} (present : name ∈ fields.map Prod.fst) :
    (setField name value fields).map Prod.fst = fields.map Prod.fst := by
  rw [setField, if_pos present, List.map_map]
  refine List.map_congr_left fun field _ => ?_
  by_cases named : field.1 = name <;> simp [named]

theorem nodup_setField (name : String) (value : Json)
    {fields : List (String × Json)} (nodup : (fields.map Prod.fst).Nodup) :
    ((setField name value fields).map Prod.fst).Nodup := by
  by_cases present : name ∈ fields.map Prod.fst
  · rw [map_fst_setField present]
    exact nodup
  · rw [setField, if_neg present, List.map_append, List.nodup_append]
    refine ⟨nodup, by simp, ?_⟩
    intro key member other isOther
    rw [List.map_singleton, List.mem_singleton] at isOther
    exact ne_of_mem_of_not_mem member (isOther ▸ present)

theorem field?_setField (written name : String) (value : Json)
    {fields : List (String × Json)} (nodup : (fields.map Prod.fst).Nodup) :
    field? (setField written value fields) name =
      if name = written then some value else field? fields name := by
  have keys := nodup_setField written value nodup
  refine Option.ext fun found => ?_
  rw [field?_eq_some_iff keys]
  split_ifs with same
  · subst same
    rw [Option.some.injEq]
    by_cases present : name ∈ fields.map Prod.fst
    · rw [setField, if_pos present, List.mem_map]
      constructor
      · rintro ⟨field, -, changed⟩
        split_ifs at changed with named
        · exact (Prod.mk.inj changed).2
        · exact absurd (congrArg Prod.fst changed) named
      · rintro rfl
        obtain ⟨field, member, named⟩ := List.mem_map.mp present
        exact ⟨field, member, if_pos named⟩
    · rw [setField, if_neg present, List.mem_append, List.mem_singleton]
      constructor
      · rintro (member | new)
        · exact absurd (List.mem_map_of_mem member) present
        · exact (Prod.mk.inj new).2.symm
      · rintro rfl
        exact .inr rfl
  · rw [field?_eq_some_iff nodup]
    by_cases present : written ∈ fields.map Prod.fst
    · rw [setField, if_pos present, List.mem_map]
      constructor
      · rintro ⟨field, member, changed⟩
        split_ifs at changed with named
        · exact absurd (congrArg Prod.fst changed).symm same
        · exact changed ▸ member
      · intro member
        exact ⟨_, member, if_neg same⟩
    · rw [setField, if_neg present, List.mem_append, List.mem_singleton]
      constructor
      · rintro (member | new)
        · exact member
        · exact absurd (Prod.mk.inj new).1 same
      · exact .inl

theorem field?_setField_of_ne {written name : String} (value : Json)
    (fields : List (String × Json)) (apart : name ≠ written) :
    field? (setField written value fields) name = field? fields name := by
  by_cases present : written ∈ fields.map Prod.fst
  · rw [setField, if_pos present]
    unfold field?
    rw [← List.map_reverse, List.find?_map, Option.map_map]
    have same : ((fun entry : String × Json => decide (entry.1 = name)) ∘
        fun field => if field.1 = written then (written, value) else field) =
          fun entry => decide (entry.1 = name) := by
      funext entry
      by_cases named : entry.1 = written
      · simp [named]
      · simp [named]
    rw [same]
    cases isFound : fields.reverse.find? fun entry => entry.1 = name with
    | none => rfl
    | some entry =>
        have named : entry.1 = name := by simpa using List.find?_some isFound
        simp [named, apart]
  · rw [setField, if_neg present, field?_append]
    simp [field?, Ne.symm apart]

theorem same_setField {name : String} {value old : Json}
    {fields : List (String × Json)} (nodup : (fields.map Prod.fst).Nodup)
    (isOld : field? fields name = some old) (same : Same value old) :
    Same (object (setField name value fields)) (object fields) := by
  refine (same_object_iff (nodup_setField _ _ nodup) nodup).mpr fun other => ?_
  rw [field?_setField _ _ _ nodup]
  split_ifs with named
  · rw [named, isOld]
    exact congrArg some same
  · rfl

end Json
