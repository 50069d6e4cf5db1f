import Registrar.Store.AnchorLogReports

/-!
# The lines of an anchor log

The verifiers complete over a log, and report each line of another shape, when
every line is JSON that their checks can convert and no ill-shaped record is
sealed into the log.
-/

namespace Registrar

/-- A property of each record, with the hash of the record before it and the
records behind it. -/
def Along (property : JsValue → Json → List Json → Prop) :
    JsValue → List Json → Prop
  | _, [] => True
  | expectedPrev, record :: rest =>
      property expectedPrev record rest ∧
        Along property (propertyOf record "anchorHash") rest

theorem along_congr {property other : JsValue → Json → List Json → Prop}
    {expectedPrev : JsValue} {records : List Json}
    (same : ∀ prev record rest, record :: rest <:+ records →
      (property prev record rest ↔ other prev record rest)) :
    Along property expectedPrev records ↔ Along other expectedPrev records := by
  induction records generalizing expectedPrev with
  | nil => rfl
  | cons record rest induction =>
      exact and_congr (same _ _ _ (List.suffix_refl _))
        (induction fun prev other behind suffix =>
          same prev other behind (suffix.trans (List.suffix_cons _ _)))

theorem along_and {property other : JsValue → Json → List Json → Prop}
    {expectedPrev : JsValue} {records : List Json} :
    Along (fun prev record rest =>
        property prev record rest ∧ other prev record rest)
        expectedPrev records ↔
      Along property expectedPrev records ∧
        Along other expectedPrev records := by
  induction records generalizing expectedPrev with
  | nil => simp [Along]
  | cons record rest induction =>
      simp only [Along, induction]
      tauto

theorem along_last_iff {property : Json → Prop} {expectedPrev : JsValue}
    {records : List Json} :
    Along (fun _ record rest => rest = [] → property record) expectedPrev
        records ↔
      ∀ last, records.getLast? = some last → property last := by
  induction records generalizing expectedPrev with
  | nil => simp [Along]
  | cons record rest induction =>
      rw [Along, induction]
      cases rest with
      | nil => simp
      | cons next behind => simp [List.getLast?_cons_cons]

section Walk

variable {check : Nat → JsValue → Json → Except JsError (List LogBreak)}
variable {Checkable Sealed : JsValue → Json → Prop}

theorem walkAnchors_cons_ok {index : Nat} {expectedPrev : JsValue}
    {record : Json} {rest : List Json} {found : List LogBreak} :
    walkAnchors check index expectedPrev (record :: rest) = .ok found ↔
      ∃ here, check index expectedPrev record = .ok here ∧
        ∃ later, walkAnchors check (index + 1)
            (propertyOf record "anchorHash") rest = .ok later ∧
          here ++ later = found := by
  simp only [walkAnchors, except_bind_ok, except_pure_ok]

theorem Checks.le_index (checks : Checks check Checkable Sealed)
    {index : Nat} {expectedPrev : JsValue} {records : List Json}
    {found : List LogBreak}
    (walked : walkAnchors check index expectedPrev records = .ok found) :
    ∀ reported ∈ found, index ≤ reported.index := by
  induction records generalizing index expectedPrev found with
  | nil =>
      obtain rfl := Except.ok.inj walked
      simp
  | cons record rest induction =>
      obtain ⟨here, checked, later, goesOn, rfl⟩ :=
        walkAnchors_cons_ok.mp walked
      intro reported member
      rcases List.mem_append.mp member with first | behind
      · exact (checks.indexed _ _ _ _ checked reported first).ge
      · exact (Nat.le_succ index).trans (induction goesOn reported behind)

/-- A walk reports each bad record, with the reports on the last record added,
when its checks complete and no bad record is sealed. -/
theorem Checks.walkAnchors_reports_iff
    (checks : Checks check Checkable Sealed) {bad : Json → Prop}
    {last : List LogBreak} {index : Nat} {expectedPrev : JsValue}
    {records : List Json}
    (onLast : ∀ reported ∈ last,
      reported.index + 1 = index + records.length) :
    (∃ found, walkAnchors check index expectedPrev records = .ok found ∧
        ∀ position record, records[position]? = some record → bad record →
          ∃ reported ∈ found ++ last,
            reported.index = index + position) ↔
      Along (fun prev record rest => Checkable prev record ∧
          (bad record → Sealed prev record → rest = [] ∧ last ≠ []))
        expectedPrev records := by
  induction records generalizing index expectedPrev with
  | nil => simp [walkAnchors, Along]
  | cons record rest induction =>
      have onLater : ∀ reported ∈ last,
          reported.index + 1 = index + 1 + rest.length := by
        intro reported member
        rw [onLast reported member, List.length_cons]
        omega
      rw [Along, ← induction onLater]
      constructor
      · rintro ⟨found, walked, reports⟩
        obtain ⟨here, checked, later, goesOn, rfl⟩ :=
          walkAnchors_cons_ok.mp walked
        refine ⟨⟨(checks.completes _ _ _).mp ⟨here, checked⟩,
          fun isBad isSealed => ?_⟩, later, goesOn,
          fun position other isLine isBad => ?_⟩
        · obtain ⟨reported, member, place⟩ := reports 0 record rfl isBad
          rw [(checks.silent _ _ _ _ checked).mpr isSealed,
            List.nil_append] at member
          rcases List.mem_append.mp member with behind | inLast
          · have := checks.le_index goesOn reported behind
            omega
          · refine ⟨List.eq_nil_of_length_eq_zero ?_,
              List.ne_nil_of_mem inLast⟩
            have := onLater reported inLast
            omega
        · obtain ⟨reported, member, place⟩ :=
            reports (position + 1) other isLine isBad
          refine ⟨reported, ?_, by omega⟩
          rw [List.append_assoc] at member
          rcases List.mem_append.mp member with first | behind
          · have := checks.indexed _ _ _ _ checked reported first
            omega
          · exact behind
      · rintro ⟨⟨checkable, spared⟩, later, walked, reports⟩
        obtain ⟨here, checked⟩ := (checks.completes index _ _).mpr checkable
        refine ⟨here ++ later,
          walkAnchors_cons_ok.mpr ⟨here, checked, later, walked, rfl⟩,
          fun position other isLine isBad => ?_⟩
        cases position with
        | zero =>
            obtain rfl := Option.some.inj isLine
            by_cases silent : here = []
            · obtain ⟨rfl, reported⟩ := spared isBad
                ((checks.silent _ _ _ _ checked).mp silent)
              obtain ⟨first, member⟩ := List.exists_mem_of_ne_nil _ reported
              refine ⟨first, List.mem_append_right _ member, ?_⟩
              have := onLater first member
              simpa using this
            · obtain ⟨first, member⟩ := List.exists_mem_of_ne_nil _ silent
              exact ⟨first, List.mem_append_left _
                (List.mem_append_left _ member),
                checks.indexed _ _ _ _ checked first member⟩
        | succ position =>
            obtain ⟨reported, member, place⟩ := reports position other isLine isBad
            refine ⟨reported, ?_, by omega⟩
            rw [List.append_assoc]
            exact List.mem_append_right _ member

end Walk

theorem readAnchorLines_eq_ok_iff {log : String} {records : List Json} :
    readAnchorLines (some log) = .ok records ↔
      List.Forall₂ (fun line record => Json.parse line = some record)
        (anchorLines log) records := by
  simp only [readAnchorLines]
  generalize anchorLines log = lines
  induction lines generalizing records with
  | nil => cases records <;> simp [pure, Except.pure]
  | cons line rest induction =>
      rw [List.mapM_cons]
      simp only [except_bind_ok, except_pure_ok, induction]
      cases parsed : Json.parse line with
      | none => cases records <;> simp [parsed]
      | some record =>
          cases records with
          | nil => simp
          | cons first behind => simp [parsed, and_comm]

theorem forall_lines_iff {lines : List String} {records : List Json}
    (parsed : List.Forall₂ (fun line record => Json.parse line = some record)
      lines records)
    {shaped : Json → Prop} {reported : Nat → Prop} :
    (∀ index line, lines[index]? = some line →
        (∀ record, Json.parse line = some record → ¬shaped record) →
          reported index) ↔
      ∀ index record, records[index]? = some record → ¬shaped record →
        reported index := by
  induction parsed generalizing reported with
  | nil => simp
  | @cons line record lines records first _ induction =>
      have later := @induction fun index => reported (index + 1)
      constructor
      · intro all index other isLine unshaped
        cases index with
        | zero =>
            obtain rfl := Option.some.inj isLine
            refine all 0 line rfl fun given isGiven => ?_
            obtain rfl := Option.some.inj (first.symm.trans isGiven)
            exact unshaped
        | succ index =>
            exact later.mp (fun place text isLine => all (place + 1) text isLine)
              index other isLine unshaped
      · intro all index text isLine unshaped
        cases index with
        | zero =>
            obtain rfl := Option.some.inj isLine
            exact all 0 record rfl (unshaped record first)
        | succ index =>
            exact later.mpr (fun place other isLine => all (place + 1) other isLine)
              index text isLine unshaped

variable (host : AnchorHost)

theorem length_of_mapM_toText {items : List Json} {texts : List String}
    (written : (items.mapM fun item => host.toText item) = .ok texts) :
    texts.length = items.length := by
  induction items generalizing texts with
  | nil =>
      obtain rfl := except_pure_ok.mp written
      rfl
  | cons item rest induction =>
      rw [List.mapM_cons] at written
      obtain ⟨_, -, written⟩ := except_bind_ok.mp written
      obtain ⟨behind, writesOn, written⟩ := except_bind_ok.mp written
      obtain rfl := except_pure_ok.mp written
      simp [induction writesOn]

theorem sortedByText_eq_ok {items sorted : List Json}
    (sorts : sortedByText host items = .ok sorted) : sorted.Perm items := by
  unfold sortedByText at sorts
  split_ifs at sorts
  · rw [except_pure_ok.mp sorts]
  · obtain ⟨texts, written, sorts⟩ := except_bind_ok.mp sorts
    obtain rfl := except_pure_ok.mp sorts
    refine ((List.perm_insertionSort _ _).map Prod.fst).trans ?_
    rw [List.map_fst_zip (length_of_mapM_toText host written).ge]

theorem sortedByText_isOk {items : List Json}
    (printable : Json.ItemsPrintable items) :
    ∃ sorted, sortedByText host items = .ok sorted := by
  unfold sortedByText
  split_ifs
  · exact ⟨_, rfl⟩
  · obtain ⟨texts, written⟩ := (mapM_toText_isOk_iff host items).mpr printable
    exact except_bind_isOk.mpr ⟨texts, written, _, rfl⟩

/-- The parents can be spread, and are the expected ones or have a text for
the report. -/
def ParentsCheckable (record : Json) (expected : List String) : Prop :=
  ∃ parents, spread (propertyOf record "parents") = .ok parents ∧
    (sameParents host (propertyOf record "parents") expected = .ok true ∨
      Json.ItemsPrintable parents)

theorem spread_of_sameParents {parents : JsValue} {expected : List String}
    (same : sameParents host parents expected = .ok true) :
    ∃ items, spread parents = .ok items := by
  unfold sameParents at same
  split_ifs at same
  · cases same
  · obtain ⟨items, spreads, -⟩ := except_bind_ok.mp same
    exact ⟨items, spreads⟩

theorem parentBreaks_isOk_iff (index : Nat) (record : Json)
    (expected : List String) :
    (∃ found, parentBreaks host index record expected = .ok found) ↔
      ParentsCheckable host record expected := by
  unfold parentBreaks ParentsCheckable
  rw [except_bind_isOk]
  constructor
  · rintro ⟨same, compared, reports⟩
    cases same with
    | true =>
        obtain ⟨items, spreads⟩ := spread_of_sameParents host compared
        exact ⟨items, spreads, .inl compared⟩
    | false =>
        rw [if_neg Bool.false_ne_true, except_bind_isOk] at reports
        obtain ⟨items, spreads, reports⟩ := reports
        obtain ⟨sorted, sorts, reports⟩ := except_bind_isOk.mp reports
        obtain ⟨texts, joined, -⟩ := except_bind_isOk.mp reports
        have printable := Json.itemsPrintable_iff.mp
          ((JsNumbers.joinTexts_isOk_iff _ _).mp ⟨texts, joined⟩)
        refine ⟨items, spreads, .inr (Json.itemsPrintable_iff.mpr ?_)⟩
        intro item member
        exact printable item
          ((sortedByText_eq_ok host sorts).mem_iff.mpr member)
  · rintro ⟨items, spreads, same | printable⟩
    · exact ⟨true, same, [], rfl⟩
    · obtain ⟨sorted, sorts⟩ := sortedByText_isOk host printable
      have compared : ∃ same, sameParents host (propertyOf record "parents")
          expected = .ok same := by
        unfold sameParents
        split_ifs
        · exact ⟨_, rfl⟩
        · exact except_bind_isOk.mpr
            ⟨items, spreads, except_bind_isOk.mpr ⟨sorted, sorts, _, rfl⟩⟩
      obtain ⟨same, compared⟩ := compared
      refine ⟨same, compared, ?_⟩
      cases same with
      | true => exact ⟨[], rfl⟩
      | false =>
          have joined : ∃ texts, host.joinTexts sorted = .ok texts := by
            rw [JsNumbers.joinTexts_isOk_iff, Json.itemsPrintable_iff]
            intro item member
            exact Json.itemsPrintable_iff.mp printable item
              ((sortedByText_eq_ok host sorts).mem_iff.mp member)
          obtain ⟨texts, joined⟩ := joined
          exact except_bind_isOk.mpr ⟨items, spreads, except_bind_isOk.mpr
            ⟨sorted, sorts, except_bind_isOk.mpr ⟨texts, joined, _, rfl⟩⟩⟩

theorem parentBreaks_eq_ok {index : Nat} {record : Json}
    {expected : List String} {found : List LogBreak}
    (checked : parentBreaks host index record expected = .ok found) :
    (∀ reported ∈ found, reported.index = index) ∧
      (found ≠ [] ↔
        sameParents host (propertyOf record "parents") expected ≠ .ok true)
    := by
  unfold parentBreaks at checked
  obtain ⟨same, compared, checked⟩ := except_bind_ok.mp checked
  cases same with
  | true =>
      obtain rfl := Except.ok.inj checked
      simp [compared]
  | false =>
      rw [if_neg Bool.false_ne_true] at checked
      obtain ⟨_, -, checked⟩ := except_bind_ok.mp checked
      obtain ⟨_, -, checked⟩ := except_bind_ok.mp checked
      obtain ⟨_, -, checked⟩ := except_bind_ok.mp checked
      obtain rfl := except_pure_ok.mp checked
      simp [compared]

/-- The parents of the record are to be checked and are not the expected
ones. -/
def ParentsReported (expectedParents : Option (List String)) (record : Json) :
    Prop :=
  ∃ expected, expectedParents = some expected ∧
    sameParents host (propertyOf record "parents") expected ≠ .ok true

theorem lastParentBreaks_isOk_iff (records : List Json)
    (expectedParents : Option (List String)) :
    (∃ last, lastParentBreaks host records expectedParents = .ok last) ↔
      ∀ record, records.getLast? = some record →
        ∀ expected, expectedParents = some expected →
          ParentsCheckable host record expected := by
  unfold lastParentBreaks
  cases expectedParents with
  | none => simp
  | some expected =>
      cases records.getLast? with
      | none => simp
      | some record => simp [parentBreaks_isOk_iff]

theorem lastParentBreaks_eq_ok {records : List Json}
    {expectedParents : Option (List String)} {last : List LogBreak}
    (checked : lastParentBreaks host records expectedParents = .ok last) :
    (∀ reported ∈ last, reported.index + 1 = 0 + records.length) ∧
      ∀ record, records.getLast? = some record →
        (last ≠ [] ↔ ParentsReported host expectedParents record) := by
  unfold lastParentBreaks at checked
  cases expectedParents with
  | none =>
      obtain rfl := Except.ok.inj checked
      simp [ParentsReported]
  | some expected =>
      cases isLast : records.getLast? with
      | none =>
          rw [isLast] at checked
          obtain rfl := Except.ok.inj checked
          simp
      | some record =>
          rw [isLast] at checked
          obtain ⟨indexed, silent⟩ := parentBreaks_eq_ok host checked
          have present : 0 < records.length :=
            List.length_pos_of_mem (List.mem_of_getLast? isLast)
          refine ⟨fun reported member => ?_, fun other same => ?_⟩
          · rw [indexed reported member]
            omega
          · obtain rfl := Option.some.inj same
            simp [ParentsReported, silent]

def IsText (value : JsValue) : Prop :=
  ∃ text, value = some (.string text)

def IsTextOrNull (value : JsValue) : Prop :=
  value = some .null ∨ IsText value

def IsCount (count : Nat) (value : JsValue) : Prop :=
  ∃ literal, value = some (.number literal) ∧
    host.ofLiteral literal = .finite count

/-- What both kinds of records have. -/
structure RecordShape (rows : List AuditChainRow) (record : Json) : Prop where
  anchoredAt : IsText (propertyOf record "anchoredAt")
  tenantId : IsText (propertyOf record "tenantId")
  chainedRows : ∃ count ≤ rows.length,
    IsCount host count (propertyOf record "chainedRows")
  chainHead : IsText (propertyOf record "chainHead")
  prevAnchorHash : IsTextOrNull (propertyOf record "prevAnchorHash")
  anchorHash : IsText (propertyOf record "anchorHash")

/-- `AnchorRecord`, with a count that the chain has. -/
structure AnchorShape (rows : List AuditChainRow) (record : Json) : Prop
    extends RecordShape host rows record where
  schemaVersion : IsCount host 1 (propertyOf record "schemaVersion")

/-- `SignedMergeAnchorRecord`, with a count that the chain has. -/
structure SignedAnchorShape (rows : List AuditChainRow) (record : Json) : Prop
    extends RecordShape host rows record where
  schemaVersion : IsCount host 2 (propertyOf record "schemaVersion")
  parents : ∃ items : List String,
    propertyOf record "parents" = some (.array (items.map .string))
  commitHash : IsTextOrNull (propertyOf record "commitHash")
  lamportClock : ∃ literal,
    propertyOf record "lamportClock" = some (.number literal)
  signerPublicKey : IsText (propertyOf record "signerPublicKey")
  signature : IsText (propertyOf record "signature")

/-- A verifier completes and reports every line that is not JSON of the
shape. -/
def Reports (shaped : Json → Prop) (log : String)
    (outcome : Except JsError (List LogBreak)) : Prop :=
  ∃ breaks, outcome = .ok breaks ∧
    ∀ index line, (anchorLines log)[index]? = some line →
      (∀ record, Json.parse line = some record → ¬shaped record) →
        ∃ reported ∈ breaks, reported.index = index

/-- The records of the lines, all of which are JSON, have the property. -/
def RecordsAlong (log : String)
    (property : JsValue → Json → List Json → Prop) : Prop :=
  ∃ records,
    List.Forall₂ (fun line record => Json.parse line = some record)
      (anchorLines log) records ∧
    Along property (some .null) records

variable {host}

theorem except_map_ok {First Result : Type} {outcome : Except JsError First}
    {change : First → Result} {result : Result} :
    outcome.map change = .ok result ↔
      ∃ value, outcome = .ok value ∧ change value = result := by
  cases outcome <;> simp [Except.map]

theorem verifyAnchorLog_reports_iff (rows : List AuditChainRow) (log : String)
    (shaped : Json → Prop) :
    Reports shaped log ((verifyAnchorLog host rows (some log)).map
        AnchorLogResult.anchorBreaks) ↔
      RecordsAlong log fun expectedPrev record _ =>
        Checkable host (chainedRowsOf rows) expectedPrev record ∧
          (¬shaped record →
            ¬Sealed host (chainedRowsOf rows) expectedPrev record) := by
  have walked (records : List Json) :=
    @Checks.walkAnchors_reports_iff _ _ _
      (checks_checkAnchor host (chainedRowsOf rows)) (fun record =>
        ¬shaped record) [] 0 (some .null) records (by simp)
  simp only [ne_eq, not_true_eq_false, and_false, List.append_nil,
    Nat.zero_add] at walked
  unfold Reports RecordsAlong verifyAnchorLog
  simp only [except_map_ok, except_bind_ok, except_pure_ok]
  constructor
  · rintro ⟨breaks, ⟨_, ⟨records, reads, found, walks, rfl⟩, rfl⟩, reports⟩
    have parsed := readAnchorLines_eq_ok_iff.mp reads
    exact ⟨records, parsed, (walked records).mp
      ⟨found, walks, (forall_lines_iff parsed).mp reports⟩⟩
  · rintro ⟨records, parsed, along⟩
    obtain ⟨found, walks, reports⟩ := (walked records).mpr along
    exact ⟨found,
      ⟨_, ⟨records, readAnchorLines_eq_ok_iff.mpr parsed, found, walks, rfl⟩,
        rfl⟩,
      (forall_lines_iff parsed).mpr reports⟩

theorem verifySignedAnchorLog_reports_iff (rows : List AuditChainRow)
    (log : String) (expectedParents : Option (List String))
    (shaped : Json → Prop) :
    Reports shaped log
        ((verifySignedAnchorLog host rows (some log) expectedParents).map
          SignedAnchorLogResult.breaks) ↔
      RecordsAlong log fun expectedPrev record behind =>
        (SignedCheckable host (chainedRowsOf rows) expectedPrev record ∧
          (behind = [] → ∀ expected, expectedParents = some expected →
            ParentsCheckable host record expected)) ∧
          (¬shaped record →
            SignedSealed host (chainedRowsOf rows) expectedPrev record →
              behind = [] ∧ ParentsReported host expectedParents record) := by
  have walked (records : List Json) (last : List LogBreak) :=
    @Checks.walkAnchors_reports_iff _ _ _
      (checks_checkSignedAnchor host (chainedRowsOf rows)) (fun record =>
        ¬shaped record) last 0 (some .null) records
  simp only [Nat.zero_add] at walked
  have onLast {records : List Json} {last : List LogBreak}
      (checked : lastParentBreaks host records expectedParents = .ok last) :
      Along (fun expectedPrev record behind =>
          SignedCheckable host (chainedRowsOf rows) expectedPrev record ∧
            (¬shaped record →
              SignedSealed host (chainedRowsOf rows) expectedPrev record →
                behind = [] ∧ last ≠ [])) (some .null) records ↔
        Along (fun expectedPrev record behind =>
          SignedCheckable host (chainedRowsOf rows) expectedPrev record ∧
            (¬shaped record →
              SignedSealed host (chainedRowsOf rows) expectedPrev record →
                behind = [] ∧ ParentsReported host expectedParents record))
          (some .null) records := by
    apply along_congr
    intro prev record behind suffix
    refine and_congr_right fun _ => imp_congr_right fun _ =>
      imp_congr_right fun _ => and_congr_right fun isLast => ?_
    obtain ⟨front, rfl⟩ := suffix
    exact (lastParentBreaks_eq_ok host checked).2 record (by simp [isLast])
  have split (records : List Json) :
      Along (fun expectedPrev record behind =>
        (SignedCheckable host (chainedRowsOf rows) expectedPrev record ∧
          (behind = [] → ∀ expected, expectedParents = some expected →
            ParentsCheckable host record expected)) ∧
          (¬shaped record →
            SignedSealed host (chainedRowsOf rows) expectedPrev record →
              behind = [] ∧ ParentsReported host expectedParents record))
          (some .null) records ↔
        Along (fun expectedPrev record behind =>
          SignedCheckable host (chainedRowsOf rows) expectedPrev record ∧
            (¬shaped record →
              SignedSealed host (chainedRowsOf rows) expectedPrev record →
                behind = [] ∧ ParentsReported host expectedParents record))
          (some .null) records ∧
          ∃ last, lastParentBreaks host records expectedParents =
            .ok last := by
    rw [lastParentBreaks_isOk_iff,
      ← @along_last_iff _ (some .null), ← along_and]
    apply along_congr
    intro prev record behind _
    tauto
  unfold Reports RecordsAlong verifySignedAnchorLog
  simp only [except_map_ok, except_bind_ok, except_pure_ok, split]
  constructor
  · rintro ⟨breaks, ⟨_, ⟨records, reads, found, walks, last, checked, rfl⟩,
      rfl⟩, reports⟩
    have parsed := readAnchorLines_eq_ok_iff.mp reads
    refine ⟨records, parsed, ?_, last, checked⟩
    have indexed := (lastParentBreaks_eq_ok host checked).1
    rw [Nat.zero_add] at indexed
    exact (onLast checked).mp ((walked records last indexed).mp
      ⟨found, walks, (forall_lines_iff parsed).mp reports⟩)
  · rintro ⟨records, parsed, along, last, checked⟩
    have indexed := (lastParentBreaks_eq_ok host checked).1
    rw [Nat.zero_add] at indexed
    obtain ⟨found, walks, reports⟩ :=
      (walked records last indexed).mpr ((onLast checked).mpr along)
    exact ⟨found ++ last,
      ⟨_, ⟨records, readAnchorLines_eq_ok_iff.mpr parsed, found, walks, last,
        checked, rfl⟩, rfl⟩,
      (forall_lines_iff parsed).mpr reports⟩

/-- Both verifiers complete over a log and report each of its lines of another
shape just when every line is JSON that their checks can convert and no record
of another shape is sealed into the log. -/
theorem anchorLogs_reported_iff (host : AnchorHost) (rows : List AuditChainRow)
    (log : String) (expectedParents : Option (List String)) :
    (Reports (AnchorShape host (chainedRowsOf rows)) log
        ((verifyAnchorLog host rows (some log)).map
          AnchorLogResult.anchorBreaks) ↔
      RecordsAlong log fun expectedPrev record _ =>
        Checkable host (chainedRowsOf rows) expectedPrev record ∧
          (¬AnchorShape host (chainedRowsOf rows) record →
            ¬Sealed host (chainedRowsOf rows) expectedPrev record)) ∧
      (Reports (SignedAnchorShape host (chainedRowsOf rows)) log
          ((verifySignedAnchorLog host rows (some log) expectedParents).map
            SignedAnchorLogResult.breaks) ↔
        RecordsAlong log fun expectedPrev record behind =>
          (SignedCheckable host (chainedRowsOf rows) expectedPrev record ∧
            (behind = [] → ∀ expected, expectedParents = some expected →
              ParentsCheckable host record expected)) ∧
            (¬SignedAnchorShape host (chainedRowsOf rows) record →
              SignedSealed host (chainedRowsOf rows) expectedPrev record →
                behind = [] ∧
                  ParentsReported host expectedParents record)) :=
  ⟨verifyAnchorLog_reports_iff rows log _,
    verifySignedAnchorLog_reports_iff rows log expectedParents _⟩

/-- A runtime that has nothing to convert. -/
def idleHost : AnchorHost where
  ofLiteral _ := .notANumber
  ofText _ := .notANumber
  text := id
  sha256 := id
  stringify _ := ""
  signatureVerifies _ := false

/-- A line that is not JSON stops the one verifier, and a record without
parents the other. -/
theorem brokenLogs_throw :
    (¬ ∀ host rows log,
      Reports (AnchorShape host (chainedRowsOf rows)) log
        ((verifyAnchorLog host rows (some log)).map
          AnchorLogResult.anchorBreaks)) ∧
      ¬ ∀ host rows log expectedParents,
        Reports (SignedAnchorShape host (chainedRowsOf rows)) log
          ((verifySignedAnchorLog host rows (some log) expectedParents).map
            SignedAnchorLogResult.breaks) := by
  constructor
  · intro claimed
    obtain ⟨breaks, completes, -⟩ := claimed idleHost [] "x"
    obtain ⟨result, completes, -⟩ := except_map_ok.mp completes
    obtain ⟨records, reads, -⟩ := except_bind_ok.mp completes
    cases reads
  · intro claimed
    obtain ⟨breaks, completes, -⟩ := claimed idleHost [] "{}" none
    obtain ⟨result, completes, -⟩ := except_map_ok.mp completes
    obtain ⟨records, reads, completes⟩ := except_bind_ok.mp completes
    obtain ⟨found, walks, -⟩ := except_bind_ok.mp completes
    cases reads
    cases walks

end Registrar
