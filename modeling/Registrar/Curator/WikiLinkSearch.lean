import Registrar.Curator.MergeGate
import Registrar.Curator.WikiLinks
import Registrar.Library.Coupling
import Registrar.Library.Fts5

/-!
# Searching for the targets of wiki links

A promotion searches for every link of its content inside its transaction.
The search removes some of the syntax of the query language from the title and
passes the rest on; what is left may be no query, and the promotion fails.
-/

namespace Registrar

open Program

/-- The query that is made of a title. -/
def ftsQuery (title : String) : String :=
  trim (String.ofList (title.toList.filter Fts5.isPlainChar))

/-- What is left of the title is nothing, or barewords with at most one of
`+`, `AND`, `OR` and `NOT` between two of them. -/
def IsSearchable (title : String) : Prop :=
  ftsQuery title = "" ∨ Fts5.isPlainQuery (ftsQuery title) = true

instance (title : String) : Decidable (IsSearchable title) :=
  inferInstanceAs (Decidable (_ ∨ _))

/-- The index reads queries, and refuses every other text. -/
def ParsesQueries (env : Environment) : Prop :=
  ∀ query rows, env.fts5Match query rows = none ↔ ¬Fts5.IsQuery query

/-- The environment with another reading of the links of a text. -/
def Environment.reading (env : Environment)
    (extract : String → List WikiLink) : Environment :=
  { env with extractWikiLinks := extract }

variable {env : Environment} {extract : String → List WikiLink}

theorem isPlainChar_ftsQuery {title : String} {char : Char}
    (member : char ∈ (ftsQuery title).toList) :
    Fts5.isPlainChar char = true := by
  unfold ftsQuery trim at member
  have within := Trim.mem_of_mem_trim isTrimmedSpace member
  rw [String.toList_ofList] at within
  exact (List.mem_filter.mp within).2

theorem searchByText_eq (table : MemoryTable) (title : String) :
    MemoryRepository.searchByText env table title =
      if ftsQuery title = "" then .ok []
      else
        match env.fts5Match (ftsQuery title) table.rows with
        | none => .error (.sqlite (.fts5Syntax (ftsQuery title)))
        | some ranked =>
            .ok ((ranked.filter (·.lifecycle = .active)).take 100) :=
  rfl

/-- The search for a title succeeds in every store, or in none. -/
theorem searchByText_isOk_iff (parses : ParsesQueries env)
    (table : MemoryTable) (title : String) :
    (∃ targets, MemoryRepository.searchByText env table title =
        .ok targets) ↔
      IsSearchable title := by
  unfold IsSearchable
  rw [searchByText_eq, ← Fts5.isQuery_iff_of_plain fun _ =>
    isPlainChar_ftsQuery]
  by_cases empty : ftsQuery title = ""
  · simp [empty]
  · rw [if_neg empty]
    have refused := parses (ftsQuery title) table.rows
    cases ranked : env.fts5Match (ftsQuery title) table.rows with
    | none =>
        have noQuery := refused.mp ranked
        simp [empty, noQuery]
    | some rows =>
        have isQuery : Fts5.IsQuery (ftsQuery title) := by
          by_contra noQuery
          rw [refused.mpr noQuery] at ranked
          cases ranked
        simp [empty, isQuery]

/-- The stores differ in their links at most. -/
def SameButLinks (left right : Store) : Prop :=
  right = { left with memoryLinks := right.memoryLinks }

theorem SameButLinks.refl (store : Store) : SameButLinks store store := rfl

theorem SameButLinks.trans {first second third : Store}
    (before : SameButLinks first second)
    (after : SameButLinks second third) : SameButLinks first third := by
  unfold SameButLinks at before after ⊢
  rw [before] at after
  exact after

theorem insertLink_sameButLinks (link : MemoryLink) (store : Store) :
    SameButLinks store
      (finalState (MemoryLinksRepository.insert link) store) := by
  unfold finalState MemoryLinksRepository.insert
  cases store.memoryLinks.insert? link with
  | none => rfl
  | some next =>
      dsimp only
      split_ifs <;> rfl

section Draw

variable {input : PromotionInput} {now : String}

/-- A searchable link is drawn or dropped. -/
theorem drawWikiLink_of_searchable (parses : ParsesQueries env)
    {link : WikiLink} (searchable : IsSearchable link.slug) (store : Store) :
    ∃ next, input.drawWikiLink env now link store = .ok ⟨⟩ next ∧
      SameButLinks store next := by
  obtain ⟨targets, found⟩ :=
    (searchByText_isOk_iff parses store.curatedMemories link.slug).mpr
      searchable
  unfold PromotionInput.drawWikiLink
  rw [bind_apply_of_ok (query_apply _ _), found]
  dsimp only
  cases targets.find? fun memory =>
      env.toLowerCase memory.title.value = env.toLowerCase link.slug &&
        memory.id ≠ input.memoryId env with
  | none => exact ⟨store, rfl, SameButLinks.refl store⟩
  | some target =>
      have kept := insertLink_sameButLinks
        (input.link env now target.id .relatesTo 1) store
      cases inserted : MemoryLinksRepository.insert
          (input.link env now target.id .relatesTo 1) store with
      | ok value next =>
          refine ⟨next, tryCatch_apply_of_ok inserted, ?_⟩
          unfold finalState at kept
          rw [inserted] at kept
          exact kept
      | error error next =>
          refine ⟨next, tryCatch_apply_of_error inserted, ?_⟩
          unfold finalState at kept
          rw [inserted] at kept
          exact kept

theorem searchable_of_drawWikiLink (parses : ParsesQueries env)
    {link : WikiLink} {store next : Store} {value : PUnit}
    (drawn : input.drawWikiLink env now link store = .ok value next) :
    IsSearchable link.slug := by
  rw [← searchByText_isOk_iff parses store.curatedMemories link.slug]
  cases searched : MemoryRepository.searchByText env store.curatedMemories
      link.slug with
  | ok targets => exact ⟨targets, rfl⟩
  | error error =>
      unfold PromotionInput.drawWikiLink at drawn
      rw [bind_apply_of_ok (query_apply _ _), searched] at drawn
      cases drawn

theorem drawWikiLinks_isOk_iff (parses : ParsesQueries env)
    (links : List WikiLink) (store : Store) :
    (∃ next, links.forM (input.drawWikiLink env now) store = .ok ⟨⟩ next) ↔
      ∀ link ∈ links, IsSearchable link.slug := by
  induction links generalizing store with
  | nil => exact ⟨fun _ link absent => (by cases absent), fun _ => ⟨store, rfl⟩⟩
  | cons link rest induction =>
      rw [List.forall_mem_cons]
      constructor
      · rintro ⟨next, drawn⟩
        obtain ⟨_, middle, first, later⟩ := bind_eq_ok_iff.mp drawn
        exact ⟨searchable_of_drawWikiLink parses first,
          (induction middle).mp ⟨next, later⟩⟩
      · rintro ⟨searchable, others⟩
        obtain ⟨middle, first, -⟩ :=
          drawWikiLink_of_searchable parses searchable store
        obtain ⟨next, later⟩ := (induction middle).mpr others
        exact ⟨next, bind_eq_ok_iff.mpr ⟨⟨⟩, middle, first, later⟩⟩

theorem drawWikiLinks_sameButLinks (parses : ParsesQueries env)
    {links : List WikiLink} {store next : Store}
    (drawn : links.forM (input.drawWikiLink env now) store = .ok ⟨⟩ next) :
    SameButLinks store next := by
  induction links generalizing store with
  | nil =>
      cases drawn
      exact SameButLinks.refl _
  | cons link rest induction =>
      obtain ⟨_, middle, first, later⟩ := bind_eq_ok_iff.mp drawn
      obtain ⟨middle', first', kept⟩ := drawWikiLink_of_searchable parses
        (searchable_of_drawWikiLink parses first) store
      rw [first] at first'
      cases first'
      exact kept.trans (induction later)

theorem whenLinked_of_searchable (parses : ParsesQueries env)
    {withLinks : Bool} {links : List WikiLink} (store : Store)
    (searchable : withLinks = true →
      ∀ link ∈ links, IsSearchable link.slug) :
    ∃ next, when (withLinks = true)
        (links.forM (input.drawWikiLink env now)) store = .ok ⟨⟩ next ∧
      SameButLinks store next := by
  by_cases linked : withLinks = true
  · obtain ⟨next, drawn⟩ :=
      (drawWikiLinks_isOk_iff parses links store).mpr (searchable linked)
    refine ⟨next, when_eq_ok_iff.mpr ?_,
      drawWikiLinks_sameButLinks parses drawn⟩
    rw [if_pos linked]
    exact drawn
  · refine ⟨store, when_eq_ok_iff.mpr ?_, SameButLinks.refl store⟩
    rw [if_neg linked]

end Draw

section Commit

variable (env) (input : PromotionInput) (now : String)
variable (memory : CuratedMemory) (minimum : Option Sensitivity)

/-- What a promotion writes before it looks at the wiki links. -/
def beforeWikiLinks (withLinks : Bool) : StoreM PUnit := do
  let resolved ← resolveMinimum env input.candidate
  ensure (resolved = minimum)
    (.error ("Sensitivity constraint changed before promotion commit; " ++
      "retry governance"))
  (distinctSupersessions input.supersessions).forM (input.retire env now)
  MemoryRepository.insert memory
  when (withLinks = true)
    ((distinctSupersessions input.supersessions).forM fun sup =>
      MemoryLinksRepository.insert
        (input.link env now sup.supersededMemoryId .supersedes sup.similarity))

/-- What a promotion writes and checks after the links. -/
def afterWikiLinks : StoreM PUnit := do
  AuditRepository.record env (input.promotedEvent env now minimum)
  minimum.toList.forM (input.checkFloorRetained env now memory)

theorem commit_eq (withLinks : Bool) :
    input.commit (env.reading extract) now withLinks memory minimum =
      (do
        beforeWikiLinks env input now memory minimum withLinks
        when (withLinks = true)
          ((extract input.candidate.content).forM
            (input.drawWikiLink env now))
        afterWikiLinks env input now memory minimum) := by
  unfold PromotionInput.commit beforeWikiLinks afterWikiLinks
    PromotionInput.drawLinks
  cases withLinks with
  | false =>
      simp only [when, Bool.false_eq_true, if_false, bind_assoc, pure_bind]
      rfl
  | true =>
      simp only [when, if_true, bind_assoc]
      rfl

/-- Nothing after the links looks at them. -/
theorem afterWikiLinks_coupled :
    Coupled SameButLinks (fun _ => True) (fun _ _ => True)
      (afterWikiLinks env input now memory minimum)
      (afterWikiLinks env input now memory minimum) := by
  have recorded : Coupled SameButLinks (fun _ => True) (fun _ _ => True)
      (AuditRepository.record env (input.promotedEvent env now minimum))
      (AuditRepository.record env (input.promotedEvent env now minimum)) := by
    unfold AuditRepository.record
    refine Coupled.bind ?_ fun event event' (same : event = event') => ?_
    · cases AuditEvent.parse (input.promotedEvent env now minimum) with
      | error issue => exact Coupled.throw trivial
      | ok event => exact Coupled.pure rfl
    · subst same
      constructor
      intro store store' same
      rw [same]
      unfold AuditRepository.insert
      cases store.auditEvents.insert?
          (appendedRecord env store.auditEvents event) with
      | some next => exact ⟨trivial, rfl⟩
      | none =>
          dsimp only
          cases store.auditEvents.rows.any (·.event.id = event.id) <;>
            exact ⟨rfl, trivial, rfl⟩
  have resolves : Coupled SameButLinks (fun _ => True) Eq
      (resolveMinimum env input.candidate)
      (resolveMinimum env input.candidate) := by
    unfold resolveMinimum
    refine Coupled.bind ?_ fun resolved resolved'
      (same : resolved = resolved') => ?_
    · apply Coupled.query
      intro store store' same
      rw [same]
    · subst same
      cases resolved with
      | ok minimum => exact Coupled.pure rfl
      | error error => exact Coupled.throw trivial
  unfold afterWikiLinks
  apply Coupled.bind recorded
  intro _ _ _
  apply Coupled.forM
  intro floor _
  unfold PromotionInput.checkFloorRetained
  refine Coupled.bind ?_ fun stored stored' (same : stored = stored') => ?_
  · apply Coupled.query
    intro store store' same
    rw [same]
  subst same
  refine Coupled.bind ?_ fun receipt receipt' (same : receipt = receipt') => ?_
  · apply Coupled.query
    intro store store' same
    rw [same]
  subst same
  apply Coupled.bind resolves
  rintro resolved _ rfl
  exact Coupled.ensure Iff.rfl trivial

end Commit

theorem searchable_of_promote (parses : ParsesQueries env)
    {input : PromotionInput} {now : String} {store final : Store}
    {memory : CuratedMemory}
    (completed : promote (env.reading extract) input false true now store =
      .ok memory final) :
    ∀ link ∈ extract input.candidate.content, IsSearchable link.slug := by
  obtain ⟨-, -, committed⟩ := promote_eq_ok completed
  rw [if_pos rfl, commit_eq] at committed
  obtain ⟨_, before, -, afterFirst⟩ := bind_eq_ok_iff.mp committed
  obtain ⟨_, drawn, draws, -⟩ := bind_eq_ok_iff.mp afterFirst
  rw [when_eq_ok_iff, if_pos rfl] at draws
  exact (drawWikiLinks_isOk_iff parses _ before).mp ⟨drawn, draws⟩

/-- A promotion that completes when its links are dropped completes with them
just when every link that it extracts has a searchable title. -/
theorem promote_wikiLinks_iff (parses : ParsesQueries env)
    {input : PromotionInput} {dryRun withLinks : Bool} {now : String}
    {store final : Store} {memory : CuratedMemory}
    (completes : promote (env.reading fun _ => []) input dryRun withLinks now
      store = .ok memory final) :
    (∃ final', promote (env.reading extractWikiLinks) input dryRun withLinks
        now store = .ok memory final') ↔
      (dryRun = false → withLinks = true →
        ∀ link ∈ extractWikiLinks input.candidate.content,
          IsSearchable link.slug) := by
  constructor
  · rintro ⟨final', completed⟩ rfl rfl
    exact searchable_of_promote parses completed
  intro searchable
  obtain ⟨resolved, built, committed⟩ := promote_eq_ok completes
  have applied := @promote_apply (env.reading extractWikiLinks) input now store
    memory dryRun withLinks resolved built
  rw [applied]
  by_cases wet : dryRun = false
  · rw [if_pos wet] at committed ⊢
    rw [commit_eq] at committed ⊢
    obtain ⟨_, before, first, afterFirst⟩ := bind_eq_ok_iff.mp committed
    obtain ⟨_, middle, undrawn, last⟩ := bind_eq_ok_iff.mp afterFirst
    have same : middle = before := by
      rw [when_eq_ok_iff] at undrawn
      split_ifs at undrawn
      · cases undrawn
        rfl
      · exact undrawn
    subst same
    obtain ⟨next, drawn, kept⟩ :=
      @whenLinked_of_searchable env input now parses withLinks _ middle
        (searchable wet)
    rw [bind_apply_of_ok first, bind_apply_of_ok drawn]
    rcases (afterWikiLinks_coupled env input now memory
        input.minimumSensitivity).ends kept with
      ⟨_, _, _, last', -, completed, -⟩ | ⟨error, _, _, failed, -⟩
    · rw [completed]
      exact ⟨last', rfl⟩
    · rw [last] at failed
      cases failed
  · rw [if_neg wet]
    exact ⟨store, rfl⟩

open Classical in
/-- An index that finds nothing, and refuses what is no query. -/
noncomputable def queryEnvironment : Environment :=
  { plainEnvironment with
    fts5Match := fun query _ =>
      if Fts5.IsQuery query then some [] else none }

theorem queryEnvironment_parses : ParsesQueries queryEnvironment := by
  intro query rows
  unfold queryEnvironment
  by_cases isQuery : Fts5.IsQuery query <;> simp [isQuery]

def linkingInput (content : NonEmptyString) : PromotionInput :=
  let candidate := untrustedProjection
    (sampleMemory plainEnvironment "candidate" content
      ⟨"Languages", by decide +kernel, by simp⟩)
  { candidate := candidate
    contentHash := computeContentHash plainEnvironment content.value
    minimumSensitivity := none
    pipelineResult :=
      { candidateId := candidate.id
        outcome := .approved
        evaluations := []
        rejectedBy := none
        flaggedBy := none }
    supersessions := []
    promotedBy := none
    promotionReason := none
    humanResolvedFlags := [] }

def plusPlusInput : PromotionInput :=
  linkingInput ⟨"See [[C++]].", by decide +kernel, by simp⟩

def lispInput : PromotionInput :=
  linkingInput ⟨"See [[Common Lisp]].", by decide +kernel, by simp⟩

/-- The promotion, without its links, into an empty store. -/
noncomputable def unlinkedPromotion (input : PromotionInput) :
    EStateM.Result RegistrarError Store CuratedMemory :=
  promote (queryEnvironment.reading fun _ => []) input false true "1"
    Store.empty

theorem exists_of_unlinkedPromotion (input : PromotionInput)
    (completes : (match unlinkedPromotion input with
      | .ok _ _ => true
      | .error _ _ => false) = true) :
    ∃ memory final, unlinkedPromotion input = .ok memory final := by
  cases ended : unlinkedPromotion input with
  | ok memory final => exact ⟨memory, final, rfl⟩
  | error error final =>
      rw [ended] at completes
      cases completes

/-- The two signs after the letter join nothing. -/
theorem plusPlusLink_aborts :
    ¬ ∀ input store now memory final,
      promote (queryEnvironment.reading fun _ => []) input false true now
        store = .ok memory final →
      ∃ final', promote (queryEnvironment.reading extractWikiLinks) input false
        true now store = .ok memory final' := by
  intro claimed
  obtain ⟨memory, final, completes⟩ :=
    exists_of_unlinkedPromotion plusPlusInput (by decide +kernel)
  obtain ⟨final', completed⟩ := claimed _ _ _ memory final completes
  have searchable := searchable_of_promote queryEnvironment_parses completed
    { slug := "C++" } (by decide +kernel)
  revert searchable
  decide +kernel

theorem promote_wikiLinks_lisp :
    ∃ memory final,
      promote (queryEnvironment.reading extractWikiLinks) lispInput false true
        "1" Store.empty = .ok memory final := by
  obtain ⟨memory, final, completes⟩ :=
    exists_of_unlinkedPromotion lispInput (by decide +kernel)
  obtain ⟨final', completed⟩ :=
    (promote_wikiLinks_iff queryEnvironment_parses completes).mpr
      (fun _ _ => by decide +kernel)
  exact ⟨memory, final', completed⟩

end Registrar
