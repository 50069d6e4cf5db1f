import Registrar.Store.AnchorLog

/-!
# What a verifier reports of an anchor log

The conversions that a check of one record makes, and with them the logs over
which the verifiers complete and report each line of another shape.
-/

namespace Registrar

variable (host : AnchorHost)

theorem except_bind_isOk {First Result : Type}
    {first : Except JsError First} {next : First → Except JsError Result} :
    (∃ result, (first >>= next) = .ok result) ↔
      ∃ value, first = .ok value ∧ ∃ result, next value = .ok result := by
  cases first <;> simp [bind, Except.bind]

theorem except_bind_ok {First Result : Type}
    {first : Except JsError First} {next : First → Except JsError Result}
    {result : Result} :
    (first >>= next) = .ok result ↔
      ∃ value, first = .ok value ∧ next value = .ok result := by
  cases first <;> simp [bind, Except.bind]

theorem except_pure_ok {Result : Type} {value result : Result} :
    (pure value : Except JsError Result) = .ok result ↔ value = result := by
  simp [pure, Except.pure]

theorem properties_isOk_iff (record : Json) :
    (∃ fields, properties record = .ok fields) ↔ record ≠ .null := by
  cases record <;> simp [properties]

/-- The link is the expected one, or both have a text for the report. -/
def LinkCheckable (expectedPrev : JsValue) (record : Json) : Prop :=
  host.strictEquals (propertyOf record "prevAnchorHash") expectedPrev = true ∨
    (propertyOf record "prevAnchorHash").Printable ∧ expectedPrev.Printable

variable {host}

theorem linkBreaks_isOk_iff (index : Nat) (record : Json)
    (expectedPrev : JsValue) :
    (∃ found, linkBreaks host index record expectedPrev = .ok found) ↔
      LinkCheckable host expectedPrev record := by
  unfold linkBreaks LinkCheckable
  split_ifs with linked
  · simp [linked]
  · simp only [except_bind_isOk, except_pure_ok]
    rw [← JsNumbers.printedOrNull_isOk_iff host.toJsNumbers,
      ← JsNumbers.printedOrNull_isOk_iff host.toJsNumbers]
    simp [linked]

theorem linkBreaks_eq_ok {index : Nat} {record : Json} {expectedPrev : JsValue}
    {found : List LogBreak}
    (checked : linkBreaks host index record expectedPrev = .ok found) :
    (∀ reported ∈ found, reported.index = index) ∧
      (found = [] ↔ host.strictEquals (propertyOf record "prevAnchorHash")
        expectedPrev = true) := by
  unfold linkBreaks at checked
  split_ifs at checked with linked
  · obtain rfl := Except.ok.inj checked
    simp [linked]
  · obtain ⟨_, -, checked⟩ := except_bind_ok.mp checked
    obtain ⟨_, -, checked⟩ := except_bind_ok.mp checked
    obtain rfl := except_pure_ok.mp checked
    simp [linked]

variable (host)

/-- The position converts to a number; up to the end of the chain it names a
row, whose hash is the anchored head unless that has a text for the report. -/
def HistoryCheckable (rows : List AuditChainRow) (record : Json) : Prop :=
  ∃ anchored,
    host.toNumber (propertyOf record "chainedRows") = .ok anchored ∧
      (JsNumber.lessThan (.finite rows.length) anchored = false →
        JsNumber.lessThan (.finite 0) anchored = true →
          ∃ row, anchoredRow? rows anchored = some row ∧
            (host.strictEquals (some (Json.ofOption row.entryHash))
                (propertyOf record "chainHead") = true ∨
              (propertyOf record "chainHead").Printable))

/-- The chain has the anchored head at the anchored position. -/
def HistoryAgrees (rows : List AuditChainRow) (record : Json) : Prop :=
  ∃ anchored,
    host.toNumber (propertyOf record "chainedRows") = .ok anchored ∧
      JsNumber.lessThan (.finite rows.length) anchored = false ∧
        (JsNumber.lessThan (.finite 0) anchored = true →
          ∃ row, anchoredRow? rows anchored = some row ∧
            host.strictEquals (some (Json.ofOption row.entryHash))
              (propertyOf record "chainHead") = true)

variable {host}

theorem historyBreaks_isOk_iff (rows : List AuditChainRow) (index : Nat)
    (record : Json) :
    (∃ found, historyBreaks host rows index record = .ok found) ↔
      HistoryCheckable host rows record := by
  unfold historyBreaks HistoryCheckable
  rw [except_bind_isOk]
  apply exists_congr
  intro anchored
  apply and_congr_right
  intro converted
  have printable : ∃ text,
      host.printed (propertyOf record "chainedRows") = .ok text :=
    (JsNumbers.printed_isOk_iff _ _).mpr
      ((JsNumbers.toNumber_isOk_iff _ _).mp ⟨anchored, converted⟩)
  obtain ⟨claimed, isClaimed⟩ := printable
  by_cases past : JsNumber.lessThan (.finite rows.length) anchored = true
  · simp [past, isClaimed]
  · rw [if_neg past]
    by_cases positive : JsNumber.lessThan (.finite 0) anchored = true
    · rw [if_pos positive]
      cases named : anchoredRow? rows anchored with
      | none => simp [past, positive, throw, throwThe, MonadExceptOf.throw]
      | some row =>
          dsimp only
          by_cases same : host.strictEquals
              (some (Json.ofOption row.entryHash))
              (propertyOf record "chainHead") = true
          · simp [same, except_pure_ok]
          · rw [if_neg same]
            simp only [except_bind_isOk, except_pure_ok, isClaimed,
              Except.ok.injEq, exists_eq_left', exists_eq', and_true]
            rw [JsNumbers.printed_isOk_iff]
            simp [same, past, positive]
    · simp [positive, except_pure_ok]

theorem historyBreaks_eq_ok {rows : List AuditChainRow} {index : Nat}
    {record : Json} {found : List LogBreak}
    (checked : historyBreaks host rows index record = .ok found) :
    (∀ reported ∈ found, reported.index = index) ∧
      (found = [] ↔ HistoryAgrees host rows record) := by
  unfold historyBreaks at checked
  obtain ⟨anchored, converted, checked⟩ := except_bind_ok.mp checked
  have agrees : HistoryAgrees host rows record ↔
      JsNumber.lessThan (.finite rows.length) anchored = false ∧
        (JsNumber.lessThan (.finite 0) anchored = true →
          ∃ row, anchoredRow? rows anchored = some row ∧
            host.strictEquals (some (Json.ofOption row.entryHash))
              (propertyOf record "chainHead") = true) := by
    unfold HistoryAgrees
    rw [converted]
    simp
  rw [agrees]
  by_cases past : JsNumber.lessThan (.finite rows.length) anchored = true
  · rw [if_pos past] at checked
    obtain ⟨_, -, checked⟩ := except_bind_ok.mp checked
    obtain rfl := except_pure_ok.mp checked
    simp [past]
  · rw [if_neg past] at checked
    by_cases positive : JsNumber.lessThan (.finite 0) anchored = true
    · rw [if_pos positive] at checked
      cases named : anchoredRow? rows anchored with
      | none =>
          rw [named] at checked
          cases checked
      | some row =>
          rw [named] at checked
          dsimp only at checked
          split_ifs at checked with same
          · obtain rfl := except_pure_ok.mp checked
            simp [past, same]
          · obtain ⟨_, -, checked⟩ := except_bind_ok.mp checked
            obtain ⟨_, -, checked⟩ := except_bind_ok.mp checked
            obtain rfl := except_pure_ok.mp checked
            simp [positive, same]
    · rw [if_neg positive] at checked
      obtain rfl := except_pure_ok.mp checked
      simp [past, positive]

/-- What a check of one record does: it completes when it can, names the place
of the record, and is silent about a sealed record. -/
structure Checks
    (check : Nat → JsValue → Json → Except JsError (List LogBreak))
    (Checkable Sealed : JsValue → Json → Prop) : Prop where
  completes : ∀ index expectedPrev record,
    (∃ found, check index expectedPrev record = .ok found) ↔
      Checkable expectedPrev record
  indexed : ∀ index expectedPrev record found,
    check index expectedPrev record = .ok found →
      ∀ reported ∈ found, reported.index = index
  silent : ∀ index expectedPrev record found,
    check index expectedPrev record = .ok found →
      (found = [] ↔ Sealed expectedPrev record)

theorem hashBreaks_index (index : Nat) (record : Json) (recomputed : String) :
    ∀ reported ∈ hashBreaks host index record recomputed,
      reported.index = index := by
  unfold hashBreaks
  split_ifs <;> simp

theorem hashBreaks_eq_nil_iff (index : Nat) (record : Json)
    (recomputed : String) :
    hashBreaks host index record recomputed = [] ↔
      host.strictEquals (some (.string recomputed))
        (propertyOf record "anchorHash") = true := by
  unfold hashBreaks
  split_ifs with same <;> simp [same]

variable (host)

/-- Every conversion of the check succeeds. -/
def Checkable (rows : List AuditChainRow) (expectedPrev : JsValue)
    (record : Json) : Prop :=
  record ≠ .null ∧ LinkCheckable host expectedPrev record ∧
    HistoryCheckable host rows record

/-- The record carries the hash of its own fields and the hash of the record
before it, and the chain agrees with it. -/
def Sealed (rows : List AuditChainRow) (expectedPrev : JsValue)
    (record : Json) : Prop :=
  host.strictEquals (some (.string (recomputedAnchorHash host record)))
      (propertyOf record "anchorHash") = true ∧
    host.strictEquals (propertyOf record "prevAnchorHash") expectedPrev =
      true ∧
    HistoryAgrees host rows record

theorem checks_checkAnchor (rows : List AuditChainRow) :
    Checks (checkAnchor host rows) (Checkable host rows)
      (Sealed host rows) where
  completes index expectedPrev record := by
    unfold checkAnchor Checkable
    simp only [except_bind_isOk, except_pure_ok, exists_eq', and_true,
      exists_and_right, properties_isOk_iff, linkBreaks_isOk_iff,
      historyBreaks_isOk_iff]
  indexed index expectedPrev record found checked := by
    unfold checkAnchor at checked
    obtain ⟨_, -, checked⟩ := except_bind_ok.mp checked
    obtain ⟨link, linked, checked⟩ := except_bind_ok.mp checked
    obtain ⟨history, anchored, checked⟩ := except_bind_ok.mp checked
    obtain rfl := except_pure_ok.mp checked
    intro reported member
    rcases List.mem_append.mp member with front | inHistory
    · rcases List.mem_append.mp front with inHash | inLink
      · exact hashBreaks_index _ _ _ reported inHash
      · exact (linkBreaks_eq_ok linked).1 reported inLink
    · exact (historyBreaks_eq_ok anchored).1 reported inHistory
  silent index expectedPrev record found checked := by
    unfold checkAnchor at checked
    obtain ⟨_, -, checked⟩ := except_bind_ok.mp checked
    obtain ⟨link, linked, checked⟩ := except_bind_ok.mp checked
    obtain ⟨history, anchored, checked⟩ := except_bind_ok.mp checked
    obtain rfl := except_pure_ok.mp checked
    rw [List.append_eq_nil_iff, List.append_eq_nil_iff, hashBreaks_eq_nil_iff,
      (linkBreaks_eq_ok linked).2, (historyBreaks_eq_ok anchored).2, and_assoc]
    rfl

theorem mapM_toText_isOk_iff (items : List Json) :
    (∃ texts, (items.mapM fun item => host.toText item) = .ok texts) ↔
      Json.ItemsPrintable items := by
  induction items with
  | nil => simp [Json.ItemsPrintable, pure, Except.pure]
  | cons item rest induction =>
      simp only [List.mapM_cons, except_bind_isOk, except_pure_ok, exists_eq',
        and_true, exists_and_right]
      rw [induction, JsNumbers.toText_isOk_iff, Json.ItemsPrintable]

theorem sortedParents_isOk_iff (parents : List Json) :
    (∃ sorted, sortedParents host parents = .ok sorted) ↔
      (2 ≤ parents.length → Json.ItemsPrintable parents) := by
  unfold sortedParents
  split_ifs with short
  · simp [except_pure_ok, Nat.not_le.mpr short]
  · simp only [except_bind_isOk, except_pure_ok, exists_eq', and_true]
    rw [mapM_toText_isOk_iff]
    exact ⟨fun all _ => all, fun all => all (Nat.le_of_not_lt short)⟩

/-- The parents can be spread, and two or more have a text to sort by. -/
def ParentsSortable (record : Json) : Prop :=
  ∃ parents, spread (propertyOf record "parents") = .ok parents ∧
    (2 ≤ parents.length → Json.ItemsPrintable parents)

def SignedCheckable (rows : List AuditChainRow) (expectedPrev : JsValue)
    (record : Json) : Prop :=
  record ≠ .null ∧ ParentsSortable record ∧
    LinkCheckable host expectedPrev record ∧ HistoryCheckable host rows record

/-- The record carries the hash and the signature of its own fields and the
hash of the record before it, and the chain agrees with it. -/
def SignedSealed (rows : List AuditChainRow) (expectedPrev : JsValue)
    (record : Json) : Prop :=
  (∃ parents sorted, spread (propertyOf record "parents") = .ok parents ∧
      sortedParents host parents = .ok sorted ∧
      host.strictEquals
          (some (.string (recomputedSignedHash host record sorted)))
          (propertyOf record "anchorHash") = true) ∧
    host.signatureVerifies record = true ∧
    host.strictEquals (propertyOf record "prevAnchorHash") expectedPrev =
      true ∧
    HistoryAgrees host rows record

theorem checks_checkSignedAnchor (rows : List AuditChainRow) :
    Checks (checkSignedAnchor host rows) (SignedCheckable host rows)
      (SignedSealed host rows) where
  completes index expectedPrev record := by
    unfold checkSignedAnchor SignedCheckable ParentsSortable
    simp only [except_bind_isOk, except_pure_ok, exists_eq', and_true,
      exists_and_right, properties_isOk_iff, linkBreaks_isOk_iff,
      historyBreaks_isOk_iff, ← sortedParents_isOk_iff host]
    tauto
  indexed index expectedPrev record found checked := by
    unfold checkSignedAnchor at checked
    obtain ⟨_, -, checked⟩ := except_bind_ok.mp checked
    obtain ⟨_, -, checked⟩ := except_bind_ok.mp checked
    obtain ⟨_, -, checked⟩ := except_bind_ok.mp checked
    obtain ⟨link, linked, checked⟩ := except_bind_ok.mp checked
    obtain ⟨history, anchored, checked⟩ := except_bind_ok.mp checked
    obtain rfl := except_pure_ok.mp checked
    intro reported member
    simp only [List.mem_append] at member
    rcases member with ((inHash | inSignature) | inLink) | inHistory
    · exact hashBreaks_index _ _ _ reported inHash
    · unfold signatureBreaks at inSignature
      split_ifs at inSignature
      · cases inSignature
      · rw [List.mem_singleton.mp inSignature]
    · exact (linkBreaks_eq_ok linked).1 reported inLink
    · exact (historyBreaks_eq_ok anchored).1 reported inHistory
  silent index expectedPrev record found checked := by
    unfold checkSignedAnchor at checked
    obtain ⟨_, -, checked⟩ := except_bind_ok.mp checked
    obtain ⟨parents, spreads, checked⟩ := except_bind_ok.mp checked
    obtain ⟨sorted, sorts, checked⟩ := except_bind_ok.mp checked
    obtain ⟨link, linked, checked⟩ := except_bind_ok.mp checked
    obtain ⟨history, anchored, checked⟩ := except_bind_ok.mp checked
    obtain rfl := except_pure_ok.mp checked
    have signed : signatureBreaks host index record = [] ↔
        host.signatureVerifies record = true := by
      unfold signatureBreaks
      split_ifs with verifies <;> simp [verifies]
    have hashed : (∃ parents sorted,
        spread (propertyOf record "parents") = .ok parents ∧
          sortedParents host parents = .ok sorted ∧
          host.strictEquals
              (some (.string (recomputedSignedHash host record sorted)))
              (propertyOf record "anchorHash") = true) ↔
        host.strictEquals
            (some (.string (recomputedSignedHash host record sorted)))
            (propertyOf record "anchorHash") = true := by
      rw [spreads]
      simp [sorts]
    simp only [List.append_eq_nil_iff, hashBreaks_eq_nil_iff,
      (linkBreaks_eq_ok linked).2, (historyBreaks_eq_ok anchored).2, signed,
      SignedSealed, hashed, and_assoc]

end Registrar
