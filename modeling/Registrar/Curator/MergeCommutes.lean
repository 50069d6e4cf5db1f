import Registrar.Curator.MergeGate

/-!
# When the merge commutes

The union keeps the first row of an id, so the order of the clones matters
exactly when the clones hold rows of one id that the gate can tell apart.
-/

namespace Registrar

open Program

variable (env : Environment)

theorem promote_capturedAt (input : PromotionInput) (capturedAt : String)
    (dryRun withLinks : Bool) (now : String) :
    promote env
        { input with
          candidate := { input.candidate with capturedAt := capturedAt } }
        dryRun withLinks now =
      promote env input dryRun withLinks now :=
  rfl

theorem mergeDecision_capturedAt (options : MergeGovernOptions)
    (existingHashes : List String) (candidate : MemoryCandidate)
    (capturedAt : String) (minimum : Option Sensitivity) :
    mergeDecision env options existingHashes
        { candidate with capturedAt := capturedAt } minimum =
      mergeDecision env options existingHashes candidate minimum := by
  unfold mergeDecision
  simp only [PolicyPipeline.evaluate_capturedAt]

theorem governCleared_capturedAt (options : MergeGovernOptions) (index : Nat)
    (memoryId : String) (candidate : MemoryCandidate) (capturedAt : String)
    (progress : MergeProgress) :
    governCleared env options index memoryId
        { candidate with capturedAt := capturedAt } progress =
      governCleared env options index memoryId candidate progress := by
  have sameMinimum :
      resolveMinimum env { candidate with capturedAt := capturedAt } =
        resolveMinimum env candidate := rfl
  have samePromotion (minimum : Option Sensitivity) (result : PipelineResult) :
      promote env
          (mergePromotion env { candidate with capturedAt := capturedAt }
            minimum result) options.dryRun false (mergeClock env index) =
        promote env (mergePromotion env candidate minimum result)
          options.dryRun false (mergeClock env index) :=
    promote_capturedAt env (mergePromotion env candidate minimum result)
      capturedAt options.dryRun false (mergeClock env index)
  unfold governCleared
  simp only [sameMinimum, mergeDecision_capturedAt, samePromotion]

/-- What the gate reads of a row: its projection less the capture time. -/
def governedFields (memory : CuratedMemory) : MemoryCandidate :=
  { untrustedProjection memory with capturedAt := "" }

/-- The disclosure gate treats both rows alike, and if it lets them pass, they
agree on every governed field. -/
def Alike (left right : CuratedMemory) : Prop :=
  disclosureViolation env (untrustedProjection left) =
      disclosureViolation env (untrustedProjection right) ∧
    (disclosureViolation env (untrustedProjection left) = none →
      governedFields left = governedFields right)

variable {env}

theorem Alike.refl (memory : CuratedMemory) : Alike env memory memory :=
  ⟨rfl, fun _ => rfl⟩

theorem Alike.governCandidate_eq {left right : CuratedMemory}
    (alike : Alike env left right) (options : MergeGovernOptions)
    (index : Nat) (memoryId : String) (progress : MergeProgress) :
    governCandidate env options index memoryId (untrustedProjection left)
        progress =
      governCandidate env options index memoryId (untrustedProjection right)
        progress := by
  obtain ⟨sameDisclosure, sameFields⟩ := alike
  unfold governCandidate
  rw [← sameDisclosure]
  cases disclosure : disclosureViolation env (untrustedProjection left) with
  | some category => rfl
  | none =>
      have leftFields := governCleared_capturedAt env options index memoryId
        (untrustedProjection left) "" progress
      have rightFields := governCleared_capturedAt env options index memoryId
        (untrustedProjection right) "" progress
      have same : governCleared env options index memoryId
          (governedFields left) progress =
            governCleared env options index memoryId
              (governedFields right) progress := by
        rw [sameFields disclosure]
      exact leftFields.symm.trans (same.trans rightFields)

/-- Rows with one id that are alike. -/
def AlikeTwins (env : Environment) (left right : CuratedMemory) : Prop :=
  left.id = right.id ∧ Alike env left right

theorem governUnion_eq_of_alike {rows others : List CuratedMemory}
    (aligned : List.Forall₂ (AlikeTwins env) rows others)
    (options : MergeGovernOptions) (index : Nat) (progress : MergeProgress) :
    governUnion env options index rows progress =
      governUnion env options index others progress := by
  induction aligned generalizing index progress with
  | nil => rfl
  | cons twins _ induction =>
      obtain ⟨sameId, alike⟩ := twins
      simp only [governUnion, projectToUntrustedCandidate_eq, orSchemaError,
        pure_bind, sameId, alike.governCandidate_eq, induction]

theorem mergeUnion_perm (rows : List CuratedMemory) :
    (mergeUnion rows).Perm (KeyedUnion.union CuratedMemory.id rows) :=
  List.perm_insertionSort _ _

theorem mem_mergeUnion_iff {rows : List CuratedMemory}
    {memory : CuratedMemory} :
    memory ∈ mergeUnion rows ↔
      KeyedUnion.first? CuratedMemory.id rows memory.id = some memory :=
  (mergeUnion_perm rows).mem_iff.trans KeyedUnion.mem_union_iff

theorem mem_of_mem_mergeUnion {rows : List CuratedMemory}
    {memory : CuratedMemory} (member : memory ∈ mergeUnion rows) :
    memory ∈ rows :=
  List.mem_of_find?_eq_some (mem_mergeUnion_iff.mp member)

theorem exists_mem_mergeUnion {rows : List CuratedMemory}
    {memory : CuratedMemory} (member : memory ∈ rows) :
    ∃ kept ∈ mergeUnion rows, kept.id = memory.id := by
  have listed : memory.id ∈
      (KeyedUnion.union CuratedMemory.id rows).map CuratedMemory.id :=
    KeyedUnion.mem_keys_union_iff.mpr ⟨memory, member, rfl⟩
  obtain ⟨kept, keptMember, same⟩ := List.mem_map.mp listed
  exact ⟨kept, (mergeUnion_perm rows).mem_iff.mpr keptMember, same⟩

theorem mergeUnion_ids_nodup (rows : List CuratedMemory) :
    ((mergeUnion rows).map CuratedMemory.id).Nodup :=
  ((mergeUnion_perm rows).map CuratedMemory.id).nodup_iff.mpr
    (KeyedUnion.keys_nodup_union rows)

/-- The first rows of one id are alike, whichever list comes first. -/
def FirstRowsAlike (env : Environment) (rows others : List CuratedMemory) :
    Prop :=
  ∀ id left right,
    KeyedUnion.first? CuratedMemory.id rows id = some left →
      KeyedUnion.first? CuratedMemory.id others id = some right →
        Alike env left right

theorem mergeUnion_aligned {related : CuratedMemory → CuratedMemory → Prop}
    {rows others : List CuratedMemory}
    (sameRows : ∀ memory, memory ∈ rows ↔ memory ∈ others)
    (relate : ∀ id left right,
      KeyedUnion.first? CuratedMemory.id rows id = some left →
        KeyedUnion.first? CuratedMemory.id others id = some right →
          related left right) :
    List.Forall₂ (fun left right => left.id = right.id ∧ related left right)
      (mergeUnion rows) (mergeUnion others) := by
  have nodup : ((KeyedUnion.union CuratedMemory.id rows).map
      CuratedMemory.id).Nodup := KeyedUnion.keys_nodup_union rows
  have othersNodup : ((KeyedUnion.union CuratedMemory.id others).map
      CuratedMemory.id).Nodup := KeyedUnion.keys_nodup_union others
  apply KeyedUnion.sorted_aligned nodup othersNodup
  · intro id
    simp only [KeyedUnion.mem_keys_union_iff, sameRows]
  · intro left leftMember right rightMember sameId
    apply relate left.id left right
    · exact KeyedUnion.mem_union_iff.mp leftMember
    · rw [sameId]
      exact KeyedUnion.mem_union_iff.mp rightMember

theorem mergeUnion_sameIds {rows others : List CuratedMemory}
    (sameRows : ∀ memory, memory ∈ rows ↔ memory ∈ others) :
    List.Forall₂ (fun left right => left.id = right.id)
      (mergeUnion rows) (mergeUnion others) :=
  (mergeUnion_aligned sameRows fun _ _ _ _ _ => trivial).imp
    fun _ _ twins => twins.1

/-- Every row carries the id of its lineage. -/
def DerivedIds (env : Environment) (rows : List CuratedMemory) : Prop :=
  ∀ memory ∈ rows, memory.id = expectedId env memory

theorem mergeIdViolation_eq_none {rows : List CuratedMemory}
    (derived : DerivedIds env rows) :
    mergeIdViolation env (mergeUnion rows) = none := by
  unfold mergeIdViolation
  rw [Option.map_eq_none_iff, List.find?_eq_none]
  intro memory member
  have same := derived memory (mem_of_mem_mergeUnion member)
  simp [same]

theorem mergeGovern_eq_governRows {cloneA cloneB : List CuratedMemory}
    (derived : DerivedIds env (cloneA ++ cloneB))
    (options : MergeGovernOptions) :
    mergeGovern env cloneA cloneB options =
      governRows env options (mergeUnion (cloneA ++ cloneB)) := by
  simp only [mergeGovern, mergeIdViolation_eq_none derived]

theorem governRows_eq_of_alike {rows others : List CuratedMemory}
    (aligned : List.Forall₂ (AlikeTwins env) rows others)
    (options : MergeGovernOptions) :
    governRows env options rows = governRows env options others := by
  unfold governRows
  simp only [governUnion_eq_of_alike aligned, aligned.length_eq]

theorem mergeGovernFold_eq_governRows {clones : List (List CuratedMemory)}
    (present : clones ≠ []) (derived : DerivedIds env clones.flatten)
    (options : MergeGovernOptions) :
    mergeGovernFold env clones options =
      governRows env options (mergeUnion clones.flatten) := by
  have split : clones.dropLast.flatten ++ clones.getLast present =
      clones.flatten := by
    conv_rhs => rw [← List.dropLast_append_getLast present]
    simp
  unfold mergeGovernFold
  rw [List.getLast?_eq_some_getLast present]
  rw [← split] at derived ⊢
  exact mergeGovern_eq_governRows derived options

/-! ## What a preview shows -/

/-- A policy that decides nothing. -/
def disabledPolicy : GovernancePolicy where
  id := "disabled"
  name := curatorActor.id
  tenantId := curatorActor.id
  rules :=
    [{ id := "disabled"
       type := .tenantMatch
       action := .flag
       enabled := false
       priority := 0
       parameters := [] }]
  enabled := true
  version := 1
  hasRule := by simp

/-- A dry run under the disabled policy. -/
def previewOptions : MergeGovernOptions where
  policy := some disabledPolicy
  tenantId := ""
  dryRun := true

def approvedResult (candidate : MemoryCandidate) : PipelineResult where
  candidateId := candidate.id
  outcome := .approved
  evaluations := []
  rejectedBy := none
  flaggedBy := none

/-- The memory that a preview promotes a row to. -/
def previewMemory (env : Environment) (index : Nat) (memory : CuratedMemory) :
    CuratedMemory where
  id := deriveMemoryId env memory.candidateId
    (computeContentHash env memory.content.value)
  candidateId := memory.candidateId
  source := memory.source
  content := memory.content
  title := memory.title
  category := memory.category
  trustLevel := .untrusted
  sensitivity := (env.classifyContent memory.content.value).sensitivityLevel
  author := memory.author
  tenantId := memory.tenantId
  metadata := memory.metadata
  lifecycle := .active
  contentHash := computeContentHash env memory.content.value
  policyEvaluations := []
  supersession := none
  promotedAt := mergeClock env index
  promotedBy := curatorActor
  updatedAt := mergeClock env index
  version := 1
  supersededHasLink := active_hasLink

/-- The rows that a preview promotes. -/
def previewPromoted (env : Environment) :
    Nat → List CuratedMemory → List CuratedMemory
  | _, [] => []
  | index, memory :: rest =>
      if disclosureViolation env (untrustedProjection memory) = none then
        previewMemory env index memory :: previewPromoted env (index + 1) rest
      else previewPromoted env (index + 1) rest

def previewQuarantined (env : Environment) (rows : List CuratedMemory) :
    List QuarantinedRow :=
  rows.filterMap fun memory =>
    (disclosureViolation env (untrustedProjection memory)).map fun category =>
      { memoryId := memory.id
        category := .disclosure
        reason := category.text }

theorem mergeDecision_preview (existingHashes : List String)
    (candidate : MemoryCandidate) (minimum : Option Sensitivity) :
    mergeDecision env previewOptions existingHashes candidate minimum =
      .ok (approvedResult candidate) :=
  rfl

theorem resolveMinimum_empty (candidate : MemoryCandidate) :
    resolveMinimum env candidate Store.empty = .ok none Store.empty :=
  rfl

theorem memory_preview (index : Nat) (memory : CuratedMemory) :
    (mergePromotion env (untrustedProjection memory) none
        (approvedResult (untrustedProjection memory))).memory env
        (mergeClock env index) none =
      .ok (previewMemory env index memory) := by
  simp only [PromotionInput.memory, parseNonEmpty, mergePromotion,
    untrustedProjection, NonEmptyString.parse?_value]
  rfl

theorem promote_preview (index : Nat) (memory : CuratedMemory) :
    promote env
        (mergePromotion env (untrustedProjection memory) none
          (approvedResult (untrustedProjection memory)))
        previewOptions.dryRun false (mergeClock env index) Store.empty =
      .ok (previewMemory env index memory) Store.empty := by
  unfold promote
  rw [bind_apply_of_ok (resolveMinimum_empty _), memory_preview]
  rfl

theorem governCandidate_preview (index : Nat) (memory : CuratedMemory)
    (progress : MergeProgress) :
    ∃ hashes,
      governCandidate env previewOptions index memory.id
          (untrustedProjection memory) progress Store.empty =
        .ok
          { existingHashes := hashes
            promoted :=
              progress.promoted ++ previewPromoted env index [memory]
            quarantined :=
              progress.quarantined ++ previewQuarantined env [memory] }
          Store.empty := by
  unfold governCandidate
  cases disclosure : disclosureViolation env (untrustedProjection memory) with
  | some category =>
      refine ⟨progress.existingHashes, ?_⟩
      simp [previewPromoted, previewQuarantined, disclosure,
        MergeProgress.quarantine]
  | none =>
      refine ⟨computeContentHash env memory.content.value ::
        progress.existingHashes, ?_⟩
      simp only [governCleared, mergeDecision_preview]
      rw [bind_apply_of_ok (resolveMinimum_empty _),
        bind_apply_of_ok (promote_preview index memory)]
      simp [previewPromoted, previewQuarantined, disclosure,
        MergeProgress.promote]

theorem previewPromoted_cons (index : Nat) (memory : CuratedMemory)
    (rest : List CuratedMemory) :
    previewPromoted env index (memory :: rest) =
      previewPromoted env index [memory] ++
        previewPromoted env (index + 1) rest := by
  simp only [previewPromoted]
  split_ifs <;> rfl

theorem governUnion_preview (index : Nat) (rows : List CuratedMemory)
    (progress : MergeProgress) :
    ∃ hashes,
      governUnion env previewOptions index rows progress Store.empty =
        .ok
          { existingHashes := hashes
            promoted := progress.promoted ++ previewPromoted env index rows
            quarantined :=
              progress.quarantined ++ previewQuarantined env rows }
          Store.empty := by
  induction rows generalizing index progress with
  | nil =>
      exact ⟨progress.existingHashes, by
        simp [governUnion, previewPromoted, previewQuarantined]⟩
  | cons memory rest induction =>
      obtain ⟨hashes, governed⟩ :=
        governCandidate_preview index memory progress
      obtain ⟨later, governedRest⟩ := induction (index + 1)
        { existingHashes := hashes
          promoted := progress.promoted ++ previewPromoted env index [memory]
          quarantined :=
            progress.quarantined ++ previewQuarantined env [memory] }
      have quarantined : previewQuarantined env (memory :: rest) =
          previewQuarantined env [memory] ++ previewQuarantined env rest := by
        simp only [previewQuarantined, ← List.filterMap_append,
          List.singleton_append]
      refine ⟨later, ?_⟩
      simp only [governUnion, projectToUntrustedCandidate_eq, orSchemaError,
        pure_bind]
      rw [bind_apply_of_ok governed, governedRest,
        previewPromoted_cons index memory rest, quarantined]
      simp only [List.append_assoc]

theorem DisclosureCategory.text_injective :
    Function.Injective DisclosureCategory.text := by
  intro left right same
  cases left <;> cases right <;> first | rfl | simp [text] at same

theorem governedFields_eq_of_previewMemory {index : Nat}
    {left right : CuratedMemory}
    (same : previewMemory env index left = previewMemory env index right) :
    governedFields left = governedFields right := by
  simp only [previewMemory, CuratedMemory.mk.injEq] at same
  simp only [governedFields, untrustedProjection, same]

theorem quarantined_id_mem {rows : List CuratedMemory} {row : QuarantinedRow}
    (member : row ∈ previewQuarantined env rows) :
    row.memoryId ∈ rows.map CuratedMemory.id := by
  obtain ⟨memory, inside, shown⟩ := List.mem_filterMap.mp member
  obtain ⟨category, -, rfl⟩ := Option.map_eq_some_iff.mp shown
  exact List.mem_map_of_mem inside

theorem previewQuarantined_cons_of_some {memory : CuratedMemory}
    {category : DisclosureCategory}
    (disclosure :
      disclosureViolation env (untrustedProjection memory) = some category)
    (rest : List CuratedMemory) :
    previewQuarantined env (memory :: rest) =
      { memoryId := memory.id
        category := .disclosure
        reason := category.text } :: previewQuarantined env rest := by
  simp [previewQuarantined, disclosure]

theorem previewQuarantined_cons_of_none {memory : CuratedMemory}
    (disclosure :
      disclosureViolation env (untrustedProjection memory) = none)
    (rest : List CuratedMemory) :
    previewQuarantined env (memory :: rest) =
      previewQuarantined env rest := by
  simp [previewQuarantined, disclosure]

/-- A row is quarantined in both previews or in neither: no later row has its
id. -/
theorem sameDisclosure_of_quarantined {left right : CuratedMemory}
    {rest othersRest : List CuratedMemory}
    (sameId : left.id = right.id)
    (sameIds : rest.map CuratedMemory.id = othersRest.map CuratedMemory.id)
    (fresh : left.id ∉ rest.map CuratedMemory.id)
    (same : previewQuarantined env (left :: rest) =
      previewQuarantined env (right :: othersRest)) :
    disclosureViolation env (untrustedProjection left) =
        disclosureViolation env (untrustedProjection right) ∧
      previewQuarantined env rest = previewQuarantined env othersRest := by
  cases leftDisclosure : disclosureViolation env (untrustedProjection left)
    with
  | some category =>
      rw [previewQuarantined_cons_of_some leftDisclosure] at same
      cases rightDisclosure :
          disclosureViolation env (untrustedProjection right) with
      | some category' =>
          rw [previewQuarantined_cons_of_some rightDisclosure,
            List.cons.injEq, QuarantinedRow.mk.injEq] at same
          obtain ⟨⟨-, -, sameText⟩, sameRest⟩ := same
          rw [DisclosureCategory.text_injective sameText]
          exact ⟨rfl, sameRest⟩
      | none =>
          rw [previewQuarantined_cons_of_none rightDisclosure] at same
          have later := quarantined_id_mem (same ▸ List.mem_cons_self)
          exact absurd (sameIds ▸ later) fresh
  | none =>
      rw [previewQuarantined_cons_of_none leftDisclosure] at same
      cases rightDisclosure :
          disclosureViolation env (untrustedProjection right) with
      | some category =>
          rw [previewQuarantined_cons_of_some rightDisclosure] at same
          have later := quarantined_id_mem (same.symm ▸ List.mem_cons_self)
          exact absurd (sameId ▸ later) fresh
      | none =>
          rw [previewQuarantined_cons_of_none rightDisclosure] at same
          exact ⟨rfl, same⟩

/-- Rows whose previews agree are alike. -/
theorem alike_of_previews {rows others : List CuratedMemory}
    (aligned : List.Forall₂ (fun left right => left.id = right.id)
      rows others)
    (nodup : (rows.map CuratedMemory.id).Nodup) {index : Nat}
    (samePromoted : previewPromoted env index rows =
      previewPromoted env index others)
    (sameQuarantined : previewQuarantined env rows =
      previewQuarantined env others) :
    List.Forall₂ (AlikeTwins env) rows others := by
  induction aligned generalizing index with
  | nil => exact .nil
  | @cons left right rest othersRest sameId aligned induction =>
      rw [List.map_cons, List.nodup_cons] at nodup
      have sameIds : rest.map CuratedMemory.id =
          othersRest.map CuratedMemory.id := by
        rw [← List.forall₂_eq_eq_eq, List.forall₂_map_left_iff,
          List.forall₂_map_right_iff]
        exact aligned
      obtain ⟨sameDisclosure, sameRest⟩ :=
        sameDisclosure_of_quarantined sameId sameIds nodup.1 sameQuarantined
      simp only [previewPromoted, ← sameDisclosure] at samePromoted
      split_ifs at samePromoted with passed
      · obtain ⟨sameMemory, sameLater⟩ := List.cons.inj samePromoted
        exact .cons ⟨sameId, sameDisclosure,
            fun _ => governedFields_eq_of_previewMemory sameMemory⟩
          (induction nodup.2 sameLater sameRest)
      · exact .cons ⟨sameId, sameDisclosure, fun clean => absurd clean passed⟩
          (induction nodup.2 samePromoted sameRest)

/-- Two passes that agree on every preview govern twins that are alike. -/
theorem aligned_of_governRows_eq {rows others : List CuratedMemory}
    (aligned : List.Forall₂ (fun left right => left.id = right.id)
      rows others)
    (nodup : (rows.map CuratedMemory.id).Nodup)
    (same : governRows env previewOptions rows Store.empty =
      governRows env previewOptions others Store.empty) :
    List.Forall₂ (AlikeTwins env) rows others := by
  have preview (union : List CuratedMemory) :
      governRows env previewOptions union Store.empty =
        .ok
          { promoted := previewPromoted env 0 union
            quarantined := previewQuarantined env union
            unionSize := union.length }
          Store.empty := by
    obtain ⟨hashes, governed⟩ := governUnion_preview 0 union
      { existingHashes := []
        promoted := []
        quarantined := [] }
    unfold governRows
    rw [bind_apply_of_ok (query_apply _ _)]
    exact bind_apply_of_ok governed
  rw [preview, preview, EStateM.Result.ok.injEq, MergeGovernResult.mk.injEq]
    at same
  exact alike_of_previews aligned nodup same.1.1 same.1.2.1

/-- Two unions of the same rows are governed alike from every store and under
every option exactly when their first rows are. -/
theorem governRows_eq_iff {rows others : List CuratedMemory}
    (sameRows : ∀ memory, memory ∈ rows ↔ memory ∈ others) :
    (∀ options store,
        governRows env options (mergeUnion rows) store =
          governRows env options (mergeUnion others) store) ↔
      FirstRowsAlike env rows others := by
  constructor
  · intro same id left right leftFirst rightFirst
    have twins := aligned_of_governRows_eq
      (mergeUnion_sameIds sameRows) (mergeUnion_ids_nodup rows)
      (same previewOptions Store.empty)
    have leftId : left.id = id := KeyedUnion.key_of_first? leftFirst
    have rightId : right.id = id := KeyedUnion.key_of_first? rightFirst
    apply KeyedUnion.related_of_aligned twins (mergeUnion_ids_nodup others)
    · exact mem_mergeUnion_iff.mpr (leftId ▸ leftFirst)
    · exact mem_mergeUnion_iff.mpr (rightId ▸ rightFirst)
    · rw [leftId, rightId]
  · intro alike options store
    rw [governRows_eq_of_alike (mergeUnion_aligned sameRows alike)]

/-! ## Every order of the clones -/

theorem Alike.symm {left right : CuratedMemory}
    (alike : Alike env left right) : Alike env right left :=
  ⟨alike.1.symm, fun passed => (alike.2 (alike.1.trans passed)).symm⟩

theorem Alike.trans {left middle right : CuratedMemory}
    (first : Alike env left middle) (second : Alike env middle right) :
    Alike env left right :=
  ⟨first.1.trans second.1, fun passed =>
    (first.2 passed).trans (second.2 (first.1.symm.trans passed))⟩

/-- Any two clones have alike first rows of every id that both hold. -/
def ClonesAgree (env : Environment) (clones : List (List CuratedMemory)) :
    Prop :=
  ∀ clone ∈ clones, ∀ other ∈ clones, FirstRowsAlike env clone other

theorem firstRowsAlike_append_comm_iff {cloneA cloneB : List CuratedMemory} :
    FirstRowsAlike env (cloneA ++ cloneB) (cloneB ++ cloneA) ↔
      FirstRowsAlike env cloneA cloneB := by
  constructor
  · intro alike id left right leftFirst rightFirst
    apply alike id left right
    · rw [KeyedUnion.first?_append, leftFirst, Option.some_or]
    · rw [KeyedUnion.first?_append, rightFirst, Option.some_or]
  · intro alike id left right leftFirst rightFirst
    rw [KeyedUnion.first?_append] at leftFirst rightFirst
    cases inA : KeyedUnion.first? CuratedMemory.id cloneA id with
    | none =>
        rw [inA, Option.none_or] at leftFirst
        rw [inA, Option.or_none, leftFirst] at rightFirst
        cases rightFirst
        exact .refl left
    | some first =>
        rw [inA, Option.some_or] at leftFirst
        cases leftFirst
        cases inB : KeyedUnion.first? CuratedMemory.id cloneB id with
        | none =>
            rw [inB, Option.none_or, inA] at rightFirst
            cases rightFirst
            exact .refl left
        | some second =>
            rw [inB, Option.some_or] at rightFirst
            cases rightFirst
            exact alike id left right inA inB

theorem first?_flatten_of_cons {clone : List CuratedMemory} {id : String}
    {memory : CuratedMemory}
    (found : KeyedUnion.first? CuratedMemory.id clone id = some memory)
    (rest : List (List CuratedMemory)) :
    KeyedUnion.first? CuratedMemory.id (clone :: rest).flatten id =
      some memory := by
  rw [List.flatten_cons, KeyedUnion.first?_append, found, Option.some_or]

theorem exists_perm_cons {clones : List (List CuratedMemory)}
    {clone : List CuratedMemory} (member : clone ∈ clones) :
    ∃ rest, (clone :: rest).Perm clones := by
  obtain ⟨front, back, rfl⟩ := List.append_of_mem member
  exact ⟨front ++ back, List.perm_middle.symm⟩

/-- Every order of the clones puts alike rows first exactly when the clones
agree. -/
theorem firstRowsAlike_perms_iff {clones : List (List CuratedMemory)} :
    (∀ reordered : List (List CuratedMemory), reordered.Perm clones →
        FirstRowsAlike env reordered.flatten clones.flatten) ↔
      ClonesAgree env clones := by
  constructor
  · intro alike clone member other otherMember id left right leftFirst
      rightFirst
    obtain ⟨rest, cloneFirst⟩ := exists_perm_cons member
    obtain ⟨otherRest, otherFirst⟩ := exists_perm_cons otherMember
    have inClones : ∃ row ∈ clones.flatten, row.id = id :=
      ⟨left, List.mem_flatten.mpr
        ⟨clone, member, List.mem_of_find?_eq_some leftFirst⟩,
        KeyedUnion.key_of_first? leftFirst⟩
    obtain ⟨row, rowMember, rfl⟩ := inClones
    obtain ⟨middle, middleFirst⟩ :
        ∃ middle, KeyedUnion.first? CuratedMemory.id clones.flatten row.id =
          some middle := KeyedUnion.exists_first? rowMember
    have leftAlike := alike (clone :: rest) cloneFirst row.id left middle
      (first?_flatten_of_cons leftFirst rest) middleFirst
    have rightAlike := alike (other :: otherRest) otherFirst row.id right
      middle (first?_flatten_of_cons rightFirst otherRest) middleFirst
    exact leftAlike.trans rightAlike.symm
  · intro agree reordered permutation id left right leftFirst rightFirst
    obtain ⟨clone, member, inClone⟩ :=
      KeyedUnion.exists_first?_of_flatten leftFirst
    obtain ⟨other, otherMember, inOther⟩ :=
      KeyedUnion.exists_first?_of_flatten rightFirst
    exact agree clone (permutation.mem_iff.mp member) other otherMember id
      left right inClone inOther

/-- The merge ignores the order of its clones, for every policy, option and
destination, exactly when rows with one id are alike wherever clones start
with different ones.  The ids are assumed to be derived, as the gate checks. -/
theorem merge_orderIndependent_iff
    {cloneA cloneB : List CuratedMemory}
    {clones : List (List CuratedMemory)}
    (derived : DerivedIds env (cloneA ++ cloneB))
    (clonesDerived : DerivedIds env clones.flatten) :
    ((∀ options store,
          mergeGovern env cloneA cloneB options store =
            mergeGovern env cloneB cloneA options store) ↔
        FirstRowsAlike env cloneA cloneB) ∧
      ((∀ options store, ∀ reordered : List (List CuratedMemory),
          reordered.Perm clones →
          mergeGovernFold env reordered options store =
            mergeGovernFold env clones options store) ↔
        ClonesAgree env clones) := by
  constructor
  · have swapped : DerivedIds env (cloneB ++ cloneA) := by
      intro memory member
      apply derived memory
      simpa [or_comm] using member
    simp only [mergeGovern_eq_governRows derived,
      mergeGovern_eq_governRows swapped]
    rw [governRows_eq_iff fun memory => by simp [or_comm]]
    exact firstRowsAlike_append_comm_iff
  · rw [← firstRowsAlike_perms_iff]
    have reorder {reordered : List (List CuratedMemory)}
        (permutation : reordered.Perm clones) :
        (∀ options store,
            mergeGovernFold env reordered options store =
              mergeGovernFold env clones options store) ↔
          FirstRowsAlike env reordered.flatten clones.flatten := by
      have sameRows (memory : CuratedMemory) :
          memory ∈ reordered.flatten ↔ memory ∈ clones.flatten :=
        permutation.flatten.mem_iff
      have reorderedDerived : DerivedIds env reordered.flatten :=
        fun memory member => clonesDerived memory ((sameRows memory).mp member)
      rw [← governRows_eq_iff sameRows]
      cases clones with
      | nil =>
          cases permutation.eq_nil
          simp
      | cons clone rest =>
          have present : reordered ≠ [] := by
            rintro rfl
            exact List.not_perm_nil_cons _ _ permutation
          simp only [mergeGovernFold_eq_governRows present reorderedDerived,
            mergeGovernFold_eq_governRows (List.cons_ne_nil clone rest)
              clonesDerived]
    constructor
    · intro same reordered permutation
      exact (reorder permutation).mp fun options store =>
        same options store reordered permutation
    · intro alike options store reordered permutation
      exact (reorder permutation).mpr (alike reordered permutation) options
        store

/-- A memory of one candidate, under the title that a clone gave it. -/
def cloneMemory (title : NonEmptyString) : CuratedMemory :=
  sampleMemory plainEnvironment "candidate"
    ⟨"Deploy on Fridays.", by decide +kernel, by simp⟩ title

def originalTitle : NonEmptyString :=
  ⟨"Deploys", by decide +kernel, by simp⟩

def changedTitle : NonEmptyString :=
  ⟨"Friday deploys", by decide +kernel, by simp⟩

/-- The titles that a pass promotes, or nothing when it throws. -/
def promotedTitles :
    EStateM.Result RegistrarError Store MergeGovernResult →
      Option (List String)
  | .ok result _ => some (result.promoted.map (·.title.value))
  | .error _ _ => none

/-- Clones that hold one memory under two titles merge to whichever title
comes first. -/
theorem mergeGovern_titles_differ :
    DerivedIds plainEnvironment
        ([cloneMemory originalTitle] ++ [cloneMemory changedTitle]) ∧
      promotedTitles (mergeGovern plainEnvironment
          [cloneMemory originalTitle] [cloneMemory changedTitle]
          openMergeOptions Store.empty) = some ["Deploys"] ∧
      promotedTitles (mergeGovern plainEnvironment
          [cloneMemory changedTitle] [cloneMemory originalTitle]
          openMergeOptions Store.empty) = some ["Friday deploys"] := by
  refine ⟨?_, by decide +kernel, by decide +kernel⟩
  intro memory member
  simp only [List.singleton_append, List.mem_cons, List.not_mem_nil,
    or_false] at member
  rcases member with rfl | rfl <;> rfl

/-- A row that the other clone has touched outside the governed fields. -/
def touchedMemory : CuratedMemory :=
  { cloneMemory originalTitle with
    updatedAt := "1"
    version := 2 }

theorem firstRowsAlike_touched :
    FirstRowsAlike plainEnvironment [cloneMemory originalTitle]
      [touchedMemory] := by
  intro id left right leftFirst rightFirst
  have isOriginal : left = cloneMemory originalTitle := by
    simpa using List.mem_of_find?_eq_some leftFirst
  have isTouched : right = touchedMemory := by
    simpa using List.mem_of_find?_eq_some rightFirst
  rw [isOriginal, isTouched]
  exact ⟨rfl, fun _ => rfl⟩

theorem merge_orderIndependent_iff_touched :
    mergeGovern plainEnvironment [cloneMemory originalTitle] [touchedMemory] =
      mergeGovern plainEnvironment [touchedMemory]
        [cloneMemory originalTitle] := by
  have derived : DerivedIds plainEnvironment
      ([cloneMemory originalTitle] ++ [touchedMemory]) := by
    intro memory member
    simp only [List.singleton_append, List.mem_cons, List.not_mem_nil,
      or_false] at member
    rcases member with rfl | rfl <;> rfl
  have noClones : DerivedIds plainEnvironment
      ([] : List (List CuratedMemory)).flatten := by
    intro memory member
    simp at member
  funext options store
  exact (merge_orderIndependent_iff derived noClones).1.mpr
    firstRowsAlike_touched options store

end Registrar
