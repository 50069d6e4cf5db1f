import Registrar.Policy.Pipeline

/-!
# The contradiction phase

Only the contradiction rules read the active memories.  They turn an approval
into a flag and change nothing else, so the other rules settle the rejections
and the holds by themselves.
-/

namespace Registrar

variable (env : Environment)

/-- The rules of the second phase. -/
def GovernancePolicy.standardRules (policy : GovernancePolicy) :
    List PolicyRule :=
  byPriority
    ((policy.rules.filter PolicyRule.enabled).filter
      (·.type ≠ .contradictionCheck))

/-- The verdict of the other rules alone. -/
def PolicyPipeline.standardPhase (policy : GovernancePolicy)
    (candidate : MemoryCandidate) (context : EvaluationContext) :
    PipelineResult :=
  evaluateStandardRules env candidate context policy.standardRules [] []

/-- An enabled contradiction rule suspects the candidate. -/
def GovernancePolicy.Suspects (policy : GovernancePolicy)
    (candidate : MemoryCandidate) (context : EvaluationContext) : Prop :=
  ∃ rule ∈ policy.rules, rule.enabled = true ∧
    rule.type = .contradictionCheck ∧
      (createRule env rule.type candidate rule context).outcome ≠ .pass

instance (policy : GovernancePolicy) (candidate : MemoryCandidate)
    (context : EvaluationContext) :
    Decidable (policy.Suspects env candidate context) :=
  inferInstanceAs (Decidable (∃ rule ∈ policy.rules, _))

variable {env} {policy : GovernancePolicy} {candidate : MemoryCandidate}
variable {context : EvaluationContext}

theorem evaluateStandardRules_evaluations (rules : List PolicyRule)
    (evaluations : List RuleResult) (flaggedBy : List String) :
    (evaluateStandardRules env candidate context rules evaluations
        flaggedBy).evaluations =
      evaluations ++
        (evaluateStandardRules env candidate context rules [] []).evaluations
    := by
  induction rules generalizing evaluations flaggedBy with
  | nil => simp [evaluateStandardRules]
  | cons rule rest induction =>
      have alone (flags : List String) :=
        induction [createRule env rule.type candidate rule context] flags
      have after (flags : List String) :=
        induction
          (evaluations ++ [createRule env rule.type candidate rule context])
          flags
      simp only [evaluateStandardRules, List.nil_append]
      cases (createRule env rule.type candidate rule context).outcome with
      | pass => simp only [after, alone, List.append_assoc]
      | flag => simp only [after, alone, List.append_assoc]
      | fail =>
          dsimp only
          split_ifs
          · rfl
          · simp only [after, alone, List.append_assoc]

/-- Earlier flags turn an approval into a flag. -/
theorem evaluateStandardRules_outcome (rules : List PolicyRule)
    (evaluations : List RuleResult) (flaggedBy : List String) :
    (evaluateStandardRules env candidate context rules evaluations
        flaggedBy).outcome =
      if (evaluateStandardRules env candidate context rules [] []).outcome =
          .approved ∧ flaggedBy ≠ [] then .flagged
      else
        (evaluateStandardRules env candidate context rules [] []).outcome := by
  induction rules generalizing evaluations flaggedBy with
  | nil =>
      by_cases unflagged : flaggedBy = [] <;>
        simp [evaluateStandardRules, unflagged]
  | cons rule rest induction =>
      have flagged (earlier : List RuleResult) (others : List String) :
          (evaluateStandardRules env candidate context rest earlier
              (others ++ [rule.id])).outcome =
            (evaluateStandardRules env candidate context rest
              [createRule env rule.type candidate rule context]
              [rule.id]).outcome := by
        rw [induction, induction [_] [rule.id]]
        simp
      have unapproved : (evaluateStandardRules env candidate context rest
          [createRule env rule.type candidate rule context]
          [rule.id]).outcome ≠ .approved := by
        rw [induction]
        split_ifs with approves
        · simp
        · simpa using approves
      simp only [evaluateStandardRules, List.nil_append]
      cases (createRule env rule.type candidate rule context).outcome with
      | pass =>
          dsimp only
          rw [induction, induction [_] []]
          simp
      | flag => simp only [flagged, unapproved, false_and, if_false]
      | fail =>
          by_cases rejects : rule.action = .reject
          · simp [rejects]
          · simp only [rejects, if_false, flagged, unapproved, false_and]

/-- The first phase turns an approval into a flag. -/
theorem PolicyPipeline.outcome_eq :
    (PolicyPipeline.evaluate env policy candidate context).outcome =
      if (PolicyPipeline.standardPhase env policy candidate context).outcome =
          .approved ∧ policy.Suspects env candidate context then .flagged
      else
        (PolicyPipeline.standardPhase env policy candidate context).outcome
    := by
  have suspected :
      (((byPriority ((policy.rules.filter PolicyRule.enabled).filter
          (·.type = .contradictionCheck))).filter fun rule =>
        (createRule env rule.type candidate rule context).outcome ≠
          .pass).map PolicyRule.id) ≠ [] ↔
        policy.Suspects env candidate context := by
    have sorted (rules : List PolicyRule) (rule : PolicyRule) :
        rule ∈ byPriority rules ↔ rule ∈ rules :=
      (List.perm_insertionSort _ rules).mem_iff
    simp only [ne_eq, List.map_eq_nil_iff, List.filter_eq_nil_iff, sorted,
      List.mem_filter, decide_eq_true_eq, GovernancePolicy.Suspects]
    push Not
    simp only [and_assoc]
  unfold PolicyPipeline.evaluate
  dsimp only
  rw [evaluateStandardRules_outcome]
  exact if_congr (and_congr_right fun _ => suspected) rfl rfl

/-- A contradiction raises no hold trigger. -/
theorem PolicyPipeline.coveredEvaluations_eq :
    coveredEvaluations (PolicyPipeline.evaluate env policy candidate context) =
      coveredEvaluations
        (PolicyPipeline.standardPhase env policy candidate context) := by
  have uncovered :
      (((byPriority ((policy.rules.filter PolicyRule.enabled).filter
          (·.type = .contradictionCheck))).map fun rule =>
        createRule env rule.type candidate rule context).filter
          fun evaluation =>
            (triggerByRuleType evaluation.ruleType).isSome &&
              evaluation.outcome ≠ .pass) = [] := by
    apply List.filter_eq_nil_iff.mpr
    intro evaluation member
    obtain ⟨rule, selected, rfl⟩ := List.mem_map.mp member
    have isContradiction := of_decide_eq_true
      (List.mem_filter.mp
        ((List.perm_insertionSort _ _).mem_iff.mp selected)).2
    have ruleType : (createRule env rule.type candidate rule context).ruleType =
        .policy .contradictionCheck := by
      rw [isContradiction]
      show (evaluateContradictionCheck env candidate rule context).ruleType = _
      unfold evaluateContradictionCheck
      split
      · simp [PolicyRule.result, isContradiction]
      · dsimp only
        split_ifs <;> simp [PolicyRule.result, isContradiction]
    simp [ruleType, triggerByRuleType]
  unfold coveredEvaluations PolicyPipeline.evaluate PolicyPipeline.standardPhase
  dsimp only
  rw [evaluateStandardRules_evaluations, List.filter_append, uncovered]
  rfl

theorem createRule_activeMemories {type : PolicyRuleType}
    (standard : type ≠ .contradictionCheck) (rule : PolicyRule)
    (lookup : Option (MemoryCategory → List ActiveMemorySnapshot)) :
    createRule env type candidate rule
        { context with getActiveMemoriesInCategory := lookup } =
      createRule env type candidate rule context := by
  cases type <;> first | rfl | exact absurd rfl standard

theorem evaluateStandardRules_activeMemories {rules : List PolicyRule}
    (standard : ∀ rule ∈ rules, rule.type ≠ .contradictionCheck)
    (lookup : Option (MemoryCategory → List ActiveMemorySnapshot))
    (evaluations : List RuleResult) (flaggedBy : List String) :
    evaluateStandardRules env candidate
        { context with getActiveMemoriesInCategory := lookup } rules
        evaluations flaggedBy =
      evaluateStandardRules env candidate context rules evaluations
        flaggedBy := by
  induction rules generalizing evaluations flaggedBy with
  | nil => rfl
  | cons rule rest induction =>
      obtain ⟨first, others⟩ := List.forall_mem_cons.mp standard
      simp only [evaluateStandardRules, createRule_activeMemories first,
        induction others]

theorem PolicyPipeline.standardPhase_activeMemories
    (lookup : Option (MemoryCategory → List ActiveMemorySnapshot)) :
    PolicyPipeline.standardPhase env policy candidate
        { context with getActiveMemoriesInCategory := lookup } =
      PolicyPipeline.standardPhase env policy candidate context := by
  apply evaluateStandardRules_activeMemories
  intro rule member
  have selected := (List.perm_insertionSort _ _).mem_iff.mp member
  exact of_decide_eq_true (List.mem_filter.mp selected).2

end Registrar
