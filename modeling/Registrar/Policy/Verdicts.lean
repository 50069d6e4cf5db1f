import Registrar.Policy.Pipeline
import Registrar.Library.StableSort

/-!
# The verdict of a policy

The pipeline over any evaluators.  A candidate is rejected by the first failing
reject rule, by priority and then by position, and by no order of the rules
does the outcome change.
-/

namespace Registrar

/-- An evaluator for each type of rule. -/
abbrev RuleEvaluators :=
  PolicyRuleType → MemoryCandidate → PolicyRule → EvaluationContext → RuleResult

namespace RuleEvaluators

variable (evaluators : RuleEvaluators)

/-- `evaluateStandardRules` over any evaluators. -/
def standardRules (candidate : MemoryCandidate) (context : EvaluationContext) :
    List PolicyRule → List RuleResult → List String → PipelineResult
  | [], evaluations, flaggedBy =>
      { candidateId := candidate.id
        outcome := if flaggedBy = [] then .approved else .flagged
        evaluations := evaluations
        rejectedBy := none
        flaggedBy := presentFlags flaggedBy }
  | rule :: rest, evaluations, flaggedBy =>
      let result := evaluators rule.type candidate rule context
      let evaluations := evaluations ++ [result]
      match result.outcome with
      | .fail =>
          if rule.action = .reject then
            { candidateId := candidate.id
              outcome := .rejected
              evaluations := evaluations
              rejectedBy := some rule.id
              flaggedBy := presentFlags flaggedBy }
          else
            standardRules candidate context rest evaluations
              (flaggedBy ++ [rule.id])
      | .flag =>
          standardRules candidate context rest evaluations
            (flaggedBy ++ [rule.id])
      | .pass => standardRules candidate context rest evaluations flaggedBy

/-- `PolicyPipeline.evaluate` over any evaluators. -/
def evaluate (rules : List PolicyRule) (candidate : MemoryCandidate)
    (context : EvaluationContext) : PipelineResult :=
  let enabledRules := rules.filter PolicyRule.enabled
  let contradictionRules :=
    byPriority (enabledRules.filter (·.type = .contradictionCheck))
  let standardRules :=
    byPriority (enabledRules.filter (·.type ≠ .contradictionCheck))
  let evaluations := contradictionRules.map fun rule =>
    evaluators rule.type candidate rule context
  let flaggedBy := (contradictionRules.filter fun rule =>
    (evaluators rule.type candidate rule context).outcome ≠ .pass).map
      PolicyRule.id
  evaluators.standardRules candidate context standardRules evaluations
    flaggedBy

/-- No evaluator reads the priority of its rule. -/
def IgnorePriority : Prop :=
  ∀ type candidate rule priority context,
    evaluators type candidate { rule with priority := priority } context =
      evaluators type candidate rule context

/-- An enabled rule, other than a contradiction rule, that fails and rejects. -/
def Rejects (candidate : MemoryCandidate) (context : EvaluationContext)
    (rule : PolicyRule) : Prop :=
  rule.enabled = true ∧ rule.type ≠ .contradictionCheck ∧
    rule.action = .reject ∧
      (evaluators rule.type candidate rule context).outcome = .fail

instance (candidate : MemoryCandidate) (context : EvaluationContext) :
    DecidablePred (evaluators.Rejects candidate context) :=
  fun _ => inferInstanceAs (Decidable (_ ∧ _))

/-- The rule at the position rejects, and each other rule that does has a
higher priority number or the same one and a later position. -/
def IsFirstRejecting (candidate : MemoryCandidate)
    (context : EvaluationContext) (rules : List PolicyRule) (position : Nat)
    (rule : PolicyRule) : Prop :=
  rules[position]? = some rule ∧ evaluators.Rejects candidate context rule ∧
    ∀ (other : Nat) (otherRule : PolicyRule),
      rules[other]? = some otherRule →
        evaluators.Rejects candidate context otherRule →
          rule.priority < otherRule.priority ∨
            rule.priority = otherRule.priority ∧ position ≤ other

end RuleEvaluators

/-- The rule apart from its priority. -/
def PolicyRule.withoutPriority (rule : PolicyRule) : PolicyRule :=
  { rule with priority := 0 }

theorem evaluateStandardRules_eq (env : Environment)
    (candidate : MemoryCandidate) (context : EvaluationContext)
    (rules : List PolicyRule) (evaluations : List RuleResult)
    (flaggedBy : List String) :
    evaluateStandardRules env candidate context rules evaluations flaggedBy =
      RuleEvaluators.standardRules (createRule env) candidate context rules
        evaluations flaggedBy := by
  induction rules generalizing evaluations flaggedBy with
  | nil => rfl
  | cons rule rest induction =>
      simp only [evaluateStandardRules, RuleEvaluators.standardRules]
      cases (createRule env rule.type candidate rule context).outcome with
      | pass => exact induction _ _
      | flag => exact induction _ _
      | fail =>
          dsimp only
          split_ifs
          · rfl
          · exact induction _ _

/-- The pipeline runs the rules of its policy with the registered
evaluators. -/
theorem PolicyPipeline.evaluate_eq (env : Environment)
    (policy : GovernancePolicy) (candidate : MemoryCandidate)
    (context : EvaluationContext) :
    PolicyPipeline.evaluate env policy candidate context =
      RuleEvaluators.evaluate (createRule env) policy.rules candidate
        context :=
  evaluateStandardRules_eq env candidate context _ _ _

theorem createRule_ignorePriority (env : Environment) :
    RuleEvaluators.IgnorePriority (createRule env) := by
  intro type candidate rule priority context
  cases type <;> rfl

namespace RuleEvaluators

variable {evaluators : RuleEvaluators} {candidate : MemoryCandidate}
variable {context : EvaluationContext}

theorem standardRules_rejectedBy (rules : List PolicyRule)
    (evaluations : List RuleResult) (flaggedBy : List String) :
    (evaluators.standardRules candidate context rules evaluations
        flaggedBy).rejectedBy =
      (rules.find? fun rule => rule.action = .reject ∧
        (evaluators rule.type candidate rule context).outcome = .fail).map
          PolicyRule.id := by
  induction rules generalizing evaluations flaggedBy with
  | nil => rfl
  | cons rule rest induction =>
      simp only [standardRules]
      cases found : (evaluators rule.type candidate rule context).outcome with
      | pass => simp [found, induction]
      | flag => simp [found, induction]
      | fail =>
          by_cases rejects : rule.action = .reject <;>
            simp [found, rejects, induction]

theorem standardRules_rejected_iff (rules : List PolicyRule)
    (evaluations : List RuleResult) (flaggedBy : List String) :
    (evaluators.standardRules candidate context rules evaluations
        flaggedBy).outcome = .rejected ↔
      (evaluators.standardRules candidate context rules evaluations
        flaggedBy).rejectedBy.isSome = true := by
  induction rules generalizing evaluations flaggedBy with
  | nil => by_cases unflagged : flaggedBy = [] <;> simp [standardRules, unflagged]
  | cons rule rest induction =>
      simp only [standardRules]
      split
      · split_ifs
        · simp
        · exact induction _ _
      · exact induction _ _
      · exact induction _ _

/-- What was found before the second phase stays in its result. -/
theorem prefix_standardRules (rules : List PolicyRule)
    (evaluations : List RuleResult) (flaggedBy : List String) :
    evaluations <+: (evaluators.standardRules candidate context rules
        evaluations flaggedBy).evaluations ∧
      flaggedBy <+: (evaluators.standardRules candidate context rules
        evaluations flaggedBy).flags := by
  have present (flags : List String) : (presentFlags flags).getD [] = flags := by
    unfold presentFlags
    split_ifs with absent
    · exact absent.symm
    · rfl
  have added {found later : List RuleResult} (result : RuleResult)
      (more : found ++ [result] <+: later) : found <+: later :=
    (List.prefix_append _ _).trans more
  have named {found later : List String} (id : String)
      (more : found ++ [id] <+: later) : found <+: later :=
    (List.prefix_append _ _).trans more
  induction rules generalizing evaluations flaggedBy with
  | nil =>
      refine ⟨List.prefix_refl _, ?_⟩
      simp [standardRules, PipelineResult.flags, present]
  | cons rule rest induction =>
      simp only [standardRules]
      split
      · split_ifs
        · refine ⟨List.prefix_append _ _, ?_⟩
          simp [PipelineResult.flags, present]
        · obtain ⟨evaluated, flagged⟩ := induction
            (evaluations ++ [evaluators rule.type candidate rule context])
            (flaggedBy ++ [rule.id])
          exact ⟨added _ evaluated, named _ flagged⟩
      · obtain ⟨evaluated, flagged⟩ := induction
          (evaluations ++ [evaluators rule.type candidate rule context])
          (flaggedBy ++ [rule.id])
        exact ⟨added _ evaluated, named _ flagged⟩
      · obtain ⟨evaluated, flagged⟩ := induction
          (evaluations ++ [evaluators rule.type candidate rule context])
          flaggedBy
        exact ⟨added _ evaluated, flagged⟩

theorem standardRules_approved_iff (rules : List PolicyRule)
    (evaluations : List RuleResult) (flaggedBy : List String) :
    (evaluators.standardRules candidate context rules evaluations
        flaggedBy).outcome = .approved ↔
      flaggedBy = [] ∧ ∀ rule ∈ rules,
        (evaluators rule.type candidate rule context).outcome = .pass := by
  induction rules generalizing evaluations flaggedBy with
  | nil => by_cases unflagged : flaggedBy = [] <;> simp [standardRules, unflagged]
  | cons rule rest induction =>
      simp only [standardRules, List.forall_mem_cons]
      split
      · rename_i failed
        split_ifs <;> simp [induction, failed]
      · rename_i flagged
        simp [induction, flagged]
      · rename_i passed
        simp [induction, passed]

theorem mem_byPriority {rules : List PolicyRule} {rule : PolicyRule} :
    rule ∈ byPriority rules ↔ rule ∈ rules :=
  (List.perm_insertionSort _ rules).mem_iff

theorem evaluate_rejectedBy (rules : List PolicyRule) :
    (evaluators.evaluate rules candidate context).rejectedBy =
      ((byPriority rules).find? fun rule =>
        evaluators.Rejects candidate context rule).map PolicyRule.id := by
  have : Std.Total fun left right : PolicyRule =>
      left.priority ≤ right.priority :=
    ⟨fun left right => le_total left.priority right.priority⟩
  have : IsTrans PolicyRule fun left right =>
      left.priority ≤ right.priority :=
    ⟨fun _ _ _ => le_trans⟩
  rw [evaluate, standardRules_rejectedBy]
  congr 1
  rw [List.filter_filter, byPriority, ← StableSort.filter_insertionSort,
    List.find?_filter]
  congr 1
  funext rule
  rw [decide_eq_decide]
  simp only [Rejects, Bool.and_eq_true, decide_eq_true_eq]
  tauto

/-- The pipeline rejects a candidate by the first failing reject rule. -/
theorem evaluate_rejectedBy_iff (rules : List PolicyRule) (id : String) :
    (evaluators.evaluate rules candidate context).rejectedBy = some id ↔
      ∃ position rule,
        evaluators.IsFirstRejecting candidate context rules position rule ∧
          rule.id = id := by
  have : Std.Total fun left right : PolicyRule =>
      left.priority ≤ right.priority :=
    ⟨fun left right => le_total left.priority right.priority⟩
  have : IsTrans PolicyRule fun left right =>
      left.priority ≤ right.priority :=
    ⟨fun _ _ _ => le_trans⟩
  have before (left right : PolicyRule) (here there : Nat) :
      left.priority ≤ right.priority ∧
          (right.priority ≤ left.priority → here ≤ there) ↔
        left.priority < right.priority ∨
          left.priority = right.priority ∧ here ≤ there := by
    omega
  rw [evaluate_rejectedBy, Option.map_eq_some_iff]
  simp only [byPriority, StableSort.find?_insertionSort_eq_some_iff,
    StableSort.IsFirst, decide_eq_true_eq, before]
  constructor
  · rintro ⟨rule, ⟨rejects, position, isRule, first⟩, named⟩
    exact ⟨position, rule, ⟨isRule, rejects, first⟩, named⟩
  · rintro ⟨position, rule, ⟨isRule, rejects, first⟩, named⟩
    exact ⟨rule, ⟨rejects, position, isRule, first⟩, named⟩

theorem evaluate_rejected_iff (rules : List PolicyRule) :
    (evaluators.evaluate rules candidate context).outcome = .rejected ↔
      ∃ rule ∈ rules, evaluators.Rejects candidate context rule := by
  have named :
      (evaluators.evaluate rules candidate context).outcome = .rejected ↔
        (evaluators.evaluate rules candidate context).rejectedBy.isSome =
          true :=
    standardRules_rejected_iff _ _ _
  rw [named, evaluate_rejectedBy, Option.isSome_map, List.find?_isSome]
  simp only [mem_byPriority, decide_eq_true_eq]

theorem evaluate_approved_iff (rules : List PolicyRule) :
    (evaluators.evaluate rules candidate context).outcome = .approved ↔
      ∀ rule ∈ rules, rule.enabled = true →
        (evaluators rule.type candidate rule context).outcome = .pass := by
  rw [evaluate, standardRules_approved_iff]
  simp only [List.map_eq_nil_iff, List.filter_eq_nil_iff, mem_byPriority,
    List.mem_filter, decide_eq_true_eq]
  constructor
  · rintro ⟨contradictions, standard⟩ rule member enabled
    by_cases isContradiction : rule.type = .contradictionCheck
    · by_contra notPassed
      exact contradictions rule ⟨⟨member, enabled⟩, isContradiction⟩ notPassed
    · exact standard rule ⟨⟨member, enabled⟩, isContradiction⟩
  · intro passes
    constructor
    · intro rule selected notPassed
      exact notPassed (passes rule selected.1.1 selected.1.2)
    · intro rule selected
      exact passes rule selected.1.1 selected.1.2

/-- The result carries what each contradiction rule found, and its id when it
did not pass. -/
theorem evaluate_contradictions (rules : List PolicyRule) :
    ∀ rule ∈ rules, rule.enabled = true → rule.type = .contradictionCheck →
      evaluators rule.type candidate rule context ∈
          (evaluators.evaluate rules candidate context).evaluations ∧
        ((evaluators rule.type candidate rule context).outcome ≠ .pass →
          rule.id ∈
            (evaluators.evaluate rules candidate context).flags) := by
  intro rule member enabled isContradiction
  have selected : rule ∈ byPriority ((rules.filter PolicyRule.enabled).filter
      (·.type = .contradictionCheck)) :=
    mem_byPriority.mpr (List.mem_filter.mpr
      ⟨List.mem_filter.mpr ⟨member, enabled⟩, decide_eq_true isContradiction⟩)
  obtain ⟨evaluated, flagged⟩ := @prefix_standardRules evaluators candidate
    context
    (byPriority ((rules.filter PolicyRule.enabled).filter
      (·.type ≠ .contradictionCheck))) _ _
  refine ⟨evaluated.subset (List.mem_map_of_mem selected), fun found => ?_⟩
  exact flagged.subset (List.mem_map_of_mem
    (List.mem_filter.mpr ⟨selected, decide_eq_true found⟩))

/-- Rules that differ by their order and priorities alone satisfy the same
properties that read no priority. -/
theorem forall_rules_of_perm {rules others : List PolicyRule}
    (same : (rules.map PolicyRule.withoutPriority).Perm
      (others.map PolicyRule.withoutPriority))
    {property : PolicyRule → Prop}
    (unread : ∀ rule, property rule ↔ property rule.withoutPriority)
    (all : ∀ rule ∈ rules, property rule) :
    ∀ rule ∈ others, property rule := by
  intro rule member
  have listed := same.mem_iff.mpr
    (List.mem_map_of_mem (f := PolicyRule.withoutPriority) member)
  obtain ⟨twin, inRules, alike⟩ := List.mem_map.mp listed
  have holds := (unread twin).mp (all twin inRules)
  rw [alike] at holds
  exact (unread rule).mpr holds

theorem evaluate_outcome_of_perm (ignores : evaluators.IgnorePriority)
    {rules others : List PolicyRule}
    (same : (rules.map PolicyRule.withoutPriority).Perm
      (others.map PolicyRule.withoutPriority)) :
    (evaluators.evaluate rules candidate context).outcome =
      (evaluators.evaluate others candidate context).outcome := by
  have evaluated (rule : PolicyRule) :
      evaluators rule.type candidate rule.withoutPriority context =
        evaluators rule.type candidate rule context :=
    ignores rule.type candidate rule 0 context
  have passes (rule : PolicyRule) :
      (rule.enabled = true →
          (evaluators rule.type candidate rule context).outcome = .pass) ↔
        (rule.withoutPriority.enabled = true →
          (evaluators rule.withoutPriority.type candidate rule.withoutPriority
            context).outcome = .pass) := by
    rw [← evaluated rule]
    rfl
  have spares (rule : PolicyRule) :
      ¬evaluators.Rejects candidate context rule ↔
        ¬evaluators.Rejects candidate context rule.withoutPriority := by
    unfold Rejects
    rw [← evaluated rule]
    rfl
  have approved : (evaluators.evaluate rules candidate context).outcome =
      .approved ↔
        (evaluators.evaluate others candidate context).outcome =
          .approved := by
    rw [evaluate_approved_iff, evaluate_approved_iff]
    exact ⟨forall_rules_of_perm same passes,
      forall_rules_of_perm same.symm passes⟩
  have rejected : (evaluators.evaluate rules candidate context).outcome =
      .rejected ↔
        (evaluators.evaluate others candidate context).outcome =
          .rejected := by
    rw [evaluate_rejected_iff, evaluate_rejected_iff, ← not_iff_not]
    push Not
    exact ⟨forall_rules_of_perm same spares,
      forall_rules_of_perm same.symm spares⟩
  cases left : (evaluators.evaluate rules candidate context).outcome <;>
    cases right : (evaluators.evaluate others candidate context).outcome <;>
      simp_all

/-- What a pipeline decides: who rejects, what the contradiction rules
contribute, and that neither the order of the rules nor their priorities change
the outcome. -/
theorem evaluate_verdict (ignores : evaluators.IgnorePriority)
    (rules : List PolicyRule) (candidate : MemoryCandidate)
    (context : EvaluationContext) :
    ((evaluators.evaluate rules candidate context).outcome = .rejected ↔
        ∃ rule ∈ rules, evaluators.Rejects candidate context rule) ∧
      (∀ id, (evaluators.evaluate rules candidate context).rejectedBy =
          some id ↔
        ∃ position rule,
          evaluators.IsFirstRejecting candidate context rules position rule ∧
            rule.id = id) ∧
      (∀ rule ∈ rules, rule.enabled = true →
        rule.type = .contradictionCheck →
        evaluators rule.type candidate rule context ∈
            (evaluators.evaluate rules candidate context).evaluations ∧
          ((evaluators rule.type candidate rule context).outcome ≠ .pass →
            rule.id ∈
              (evaluators.evaluate rules candidate context).flags)) ∧
      ∀ others : List PolicyRule,
        (rules.map PolicyRule.withoutPriority).Perm
            (others.map PolicyRule.withoutPriority) →
          (evaluators.evaluate rules candidate context).outcome =
            (evaluators.evaluate others candidate context).outcome :=
  ⟨evaluate_rejected_iff rules, evaluate_rejectedBy_iff rules,
    evaluate_contradictions rules,
    fun _ same => evaluate_outcome_of_perm ignores same⟩

end RuleEvaluators

def untrustedNote : MemoryCandidate where
  id := "note"
  status := .inbox
  source := .mcp
  content := "Deploy on Fridays."
  title := "Deploys"
  category := .convention
  trustLevel := .untrusted
  author :=
    { type := .ai
      id := ⟨"mcp-server", by decide +kernel, by simp⟩
      name := none }
  tenantId := "team"
  metadata :=
    { filePaths := []
      language := none
      projectContext := none
      sessionId := none
      repoUrl := none
      branch := none
      confidence := none
      sensitivity := none
      tags := []
      subjects := none
      proposedByRole := none
      audience := none }
  prePolicyFlags :=
    { potentialSecret := false
      lowConfidence := false
      duplicateSuspect := false }
  capturedAt := "1"
  origin := none

def bareContext : EvaluationContext where
  minimumSensitivity := none
  existingHashes := none
  tenantId := none
  getActiveMemoriesInCategory := none

def trustRule (id : String) (priority : Nat) : PolicyRule where
  id := id
  type := .sourceTrust
  action := .reject
  enabled := true
  priority := priority
  parameters := [("minimumTrust", .string "high")]

/-- The rule with the lower number rejects, and other numbers in another order
lead to the same outcome. -/
theorem evaluate_verdict_trust :
    (RuleEvaluators.evaluate (createRule plainEnvironment)
        [trustRule "late" 2, trustRule "early" 1] untrustedNote
        bareContext).rejectedBy = some "early" ∧
      (RuleEvaluators.evaluate (createRule plainEnvironment)
        [trustRule "late" 2, trustRule "early" 1] untrustedNote
        bareContext).outcome =
        (RuleEvaluators.evaluate (createRule plainEnvironment)
          [trustRule "early" 7, trustRule "late" 7] untrustedNote
          bareContext).outcome := by
  obtain ⟨-, named, -, unordered⟩ := RuleEvaluators.evaluate_verdict
    (createRule_ignorePriority plainEnvironment)
    [trustRule "late" 2, trustRule "early" 1] untrustedNote bareContext
  have fails (id : String) (priority : Nat) :
      (createRule plainEnvironment .sourceTrust untrustedNote
        (trustRule id priority) bareContext).outcome = .fail := by
    rfl
  refine ⟨(named "early").mpr ⟨1, trustRule "early" 1, ⟨rfl, ?_, ?_⟩, rfl⟩,
    unordered _ (.swap _ _ _)⟩
  · exact ⟨rfl, by decide, rfl, fails "early" 1⟩
  · intro other otherRule listed _
    rcases other with _ | _ | _
    · obtain rfl := Option.some.inj listed
      exact .inl (by decide)
    · obtain rfl := Option.some.inj listed
      exact .inr ⟨rfl, le_rfl⟩
    · cases listed

end Registrar
