import Registrar.Policy.Rules

/-!
# Policy pipeline

The two-phase evaluation of a policy.  Contradiction rules run to completion
first and only flag; the other rules follow by priority, and the first failing
reject rule ends the evaluation.
-/

namespace Registrar

inductive PipelineOutcome where
  | approved
  | rejected
  | flagged
  deriving DecidableEq, Repr

structure PipelineResult where
  candidateId : String
  outcome : PipelineOutcome
  evaluations : List RuleResult
  rejectedBy : Option String
  flaggedBy : Option (List String)
  deriving DecidableEq, Repr

/-- The flags of a result, none when the field is absent. -/
def PipelineResult.flags (result : PipelineResult) : List String :=
  result.flaggedBy.getD []

def byPriority (rules : List PolicyRule) : List PolicyRule :=
  rules.insertionSort fun left right => left.priority ≤ right.priority

def presentFlags (flaggedBy : List String) : Option (List String) :=
  if flaggedBy = [] then none else some flaggedBy

variable (env : Environment)

/-- The second phase, after the given evaluations and flags. -/
def evaluateStandardRules (candidate : MemoryCandidate)
    (context : EvaluationContext) :
    List PolicyRule → List RuleResult → List String → PipelineResult
  | [], evaluations, flaggedBy =>
      { candidateId := candidate.id
        outcome := if flaggedBy = [] then .approved else .flagged
        evaluations := evaluations
        rejectedBy := none
        flaggedBy := presentFlags flaggedBy }
  | rule :: rest, evaluations, flaggedBy =>
      let result := createRule env rule.type candidate rule context
      let evaluations := evaluations ++ [result]
      match result.outcome with
      | .fail =>
          if rule.action = .reject then
            { candidateId := candidate.id
              outcome := .rejected
              evaluations := evaluations
              rejectedBy := some rule.id
              flaggedBy := presentFlags flaggedBy }
          else
            evaluateStandardRules candidate context rest evaluations
              (flaggedBy ++ [rule.id])
      | .flag =>
          evaluateStandardRules candidate context rest evaluations
            (flaggedBy ++ [rule.id])
      | .pass =>
          evaluateStandardRules candidate context rest evaluations flaggedBy

def PolicyPipeline.evaluate (policy : GovernancePolicy)
    (candidate : MemoryCandidate) (context : EvaluationContext) :
    PipelineResult :=
  let enabledRules := policy.rules.filter PolicyRule.enabled
  let contradictionRules :=
    byPriority (enabledRules.filter (·.type = .contradictionCheck))
  let standardRules :=
    byPriority (enabledRules.filter (·.type ≠ .contradictionCheck))
  let evaluations := contradictionRules.map fun rule =>
    createRule env rule.type candidate rule context
  let flaggedBy := (contradictionRules.filter fun rule =>
    (createRule env rule.type candidate rule context).outcome ≠ .pass).map
      PolicyRule.id
  evaluateStandardRules env candidate context standardRules evaluations
    flaggedBy

theorem evaluateStandardRules_capturedAt
    (candidate : MemoryCandidate) (capturedAt : String)
    (context : EvaluationContext) (rules : List PolicyRule)
    (evaluations : List RuleResult) (flaggedBy : List String) :
    evaluateStandardRules env { candidate with capturedAt := capturedAt }
        context rules evaluations flaggedBy =
      evaluateStandardRules env candidate context rules evaluations
        flaggedBy := by
  induction rules generalizing evaluations flaggedBy with
  | nil => rfl
  | cons rule rest induction =>
      simp only [evaluateStandardRules, createRule_capturedAt, induction]

theorem PolicyPipeline.evaluate_capturedAt
    (policy : GovernancePolicy) (candidate : MemoryCandidate)
    (capturedAt : String) (context : EvaluationContext) :
    PolicyPipeline.evaluate env policy
        { candidate with capturedAt := capturedAt } context =
      PolicyPipeline.evaluate env policy candidate context := by
  simp only [PolicyPipeline.evaluate, createRule_capturedAt,
    evaluateStandardRules_capturedAt]

/-- What a result decides, without the evaluations that led to it. -/
def PipelineResult.decision (result : PipelineResult) :
    PipelineOutcome × Option String × Option (List String) :=
  (result.outcome, result.rejectedBy, result.flaggedBy)

theorem evaluateStandardRules_congr {candidate : MemoryCandidate}
    {context other : EvaluationContext} {rules : List PolicyRule}
    (same : ∀ rule ∈ rules,
      (createRule env rule.type candidate rule context).outcome =
        (createRule env rule.type candidate rule other).outcome)
    (evaluations otherEvaluations : List RuleResult)
    (flaggedBy : List String) :
    (evaluateStandardRules env candidate context rules evaluations
        flaggedBy).decision =
      (evaluateStandardRules env candidate other rules otherEvaluations
        flaggedBy).decision := by
  induction rules generalizing evaluations otherEvaluations flaggedBy with
  | nil => rfl
  | cons rule rest induction =>
      obtain ⟨first, others⟩ := List.forall_mem_cons.mp same
      simp only [evaluateStandardRules, ← first]
      cases (createRule env rule.type candidate rule context).outcome with
      | pass => exact induction others _ _ flaggedBy
      | flag => exact induction others _ _ (flaggedBy ++ [rule.id])
      | fail =>
          dsimp only
          split_ifs
          · rfl
          · exact induction others _ _ (flaggedBy ++ [rule.id])

theorem PolicyPipeline.decision_congr {policy : GovernancePolicy}
    {candidate : MemoryCandidate} {context other : EvaluationContext}
    (same : ∀ rule : PolicyRule,
      (createRule env rule.type candidate rule context).outcome =
        (createRule env rule.type candidate rule other).outcome) :
    (PolicyPipeline.evaluate env policy candidate context).decision =
      (PolicyPipeline.evaluate env policy candidate other).decision := by
  unfold PolicyPipeline.evaluate
  simp only [same]
  exact evaluateStandardRules_congr env (fun rule _ => same rule) _ _ _

theorem evaluateStandardRules_approved_iff
    {candidate : MemoryCandidate} {context : EvaluationContext}
    {rules : List PolicyRule} {evaluations : List RuleResult}
    {flaggedBy : List String} :
    (evaluateStandardRules env candidate context rules evaluations
        flaggedBy).outcome = .approved ↔
      flaggedBy = [] ∧ ∀ rule ∈ rules,
        (createRule env rule.type candidate rule context).outcome = .pass := by
  induction rules generalizing evaluations flaggedBy with
  | nil =>
      by_cases unflagged : flaggedBy = [] <;>
        simp [evaluateStandardRules, unflagged]
  | cons rule rest induction =>
      simp only [evaluateStandardRules, List.forall_mem_cons]
      split
      · rename_i failed
        split_ifs <;> simp [induction, failed]
      · rename_i flagged
        simp [induction, flagged]
      · rename_i passed
        simp [induction, passed]

/-- A candidate is approved when every enabled rule passes it. -/
theorem PolicyPipeline.approved_iff {policy : GovernancePolicy}
    {candidate : MemoryCandidate} {context : EvaluationContext} :
    (PolicyPipeline.evaluate env policy candidate context).outcome =
        .approved ↔
      ∀ rule ∈ policy.rules, rule.enabled = true →
        (createRule env rule.type candidate rule context).outcome = .pass := by
  have mem_byPriority (rules : List PolicyRule) (rule : PolicyRule) :
      rule ∈ byPriority rules ↔ rule ∈ rules :=
    (List.perm_insertionSort _ rules).mem_iff
  unfold PolicyPipeline.evaluate
  dsimp only
  rw [evaluateStandardRules_approved_iff]
  simp only [List.map_eq_nil_iff, List.filter_eq_nil_iff, mem_byPriority,
    List.mem_filter, decide_eq_true_eq]
  constructor
  · rintro ⟨contradictions, standard⟩ rule member enabled
    by_cases isContradiction : rule.type = .contradictionCheck
    · by_contra notPassed
      exact contradictions rule ⟨⟨member, enabled⟩, isContradiction⟩ notPassed
    · exact standard rule ⟨⟨member, enabled⟩, isContradiction⟩
  · intro passes
    constructor
    · intro rule selected notPassed
      exact notPassed (passes rule selected.1.1 selected.1.2)
    · intro rule selected
      exact passes rule selected.1.1 selected.1.2

theorem PolicyPipeline.evaluate_of_no_enabled
    {policy : GovernancePolicy}
    (disabled : ∀ rule ∈ policy.rules, rule.enabled = false)
    (candidate : MemoryCandidate) (context : EvaluationContext) :
    (PolicyPipeline.evaluate env policy candidate context).outcome =
      .approved := by
  have noRules : policy.rules.filter PolicyRule.enabled = [] := by
    apply List.filter_eq_nil_iff.mpr
    intro rule member
    simp [disabled rule member]
  simp [PolicyPipeline.evaluate, noRules, byPriority, evaluateStandardRules]

inductive HoldTrigger where
  | audienceNarrowingFlag
  | audienceAboveProposerClearance
  | secretScanFlag
  | sensitivityGateFlag
  deriving DecidableEq, Repr

def HoldTrigger.text : HoldTrigger → String
  | .audienceNarrowingFlag => "audience_narrowing_flag"
  | .audienceAboveProposerClearance => "audience_above_proposer_clearance"
  | .secretScanFlag => "secret_scan_flag"
  | .sensitivityGateFlag => "sensitivity_gate_flag"

/-- The trigger that a covered rule type raises when it does not pass. -/
def triggerByRuleType : ResultRuleType → Option HoldTrigger
  | .policy .audienceNarrowing => some .audienceNarrowingFlag
  | .policy .secretDetection => some .secretScanFlag
  | .policy .sensitivityGate => some .sensitivityGateFlag
  | _ => none

structure HoldDecision where
  triggers : List HoldTrigger
  declaredAudience : Audience
  recommendedAudience : Audience
  basis : String
  matchedPatterns : List String
  triggerRuleIds : List String
  otherFlags : List String
  deriving DecidableEq, Repr

/-- The narrower of two tiers. -/
def narrower (left right : Audience) : Audience :=
  if audienceRank right ≤ audienceRank left then left else right

/-- An `admin` stamp is given owner clearance; an absent one counts as
cleared. -/
def isAudienceAboveProposerClearance (candidate : MemoryCandidate) : Bool :=
  match candidate.metadata.proposedByRole with
  | none => false
  | some .admin =>
      !isAudienceVisibleToRole candidate.metadata.audience .owner
  | some .member =>
      !isAudienceVisibleToRole candidate.metadata.audience .member

/-- The evaluations that a hold covers. -/
def coveredEvaluations (result : PipelineResult) : List RuleResult :=
  result.evaluations.filter fun evaluation =>
    (triggerByRuleType evaluation.ruleType).isSome &&
      evaluation.outcome ≠ .pass

/-- The triggers that fire for a candidate the pipeline did not reject. -/
def firedHoldTriggers (candidate : MemoryCandidate)
    (result : PipelineResult) : List HoldTrigger :=
  ((coveredEvaluations result).filterMap fun evaluation =>
    triggerByRuleType evaluation.ruleType).eraseDups ++
    (if isAudienceAboveProposerClearance candidate then
      [.audienceAboveProposerClearance] else [])

/-- Whether the candidate goes on hold, and why. -/
def evaluateHoldTriggers (candidate : MemoryCandidate)
    (result : PipelineResult) (policy : Option GovernancePolicy) :
    Option HoldDecision :=
  if result.outcome = .rejected then none
  else if firedHoldTriggers candidate result = [] then none
  else
    let narrowingRule := policy.bind fun policy =>
      policy.rules.find? fun rule =>
        rule.enabled && rule.type = .audienceNarrowing
    let recommendation := recommendAudience env candidate.content
      candidate.metadata.audience
      (narrowingRule.bind (·.stringParameter "credentialsAudience"))
      (narrowingRule.bind (·.stringParameter "piiAudience"))
    let triggerRuleIds := (coveredEvaluations result).map RuleResult.ruleId
    some
      { triggers := (firedHoldTriggers candidate result).insertionSort
          fun left right => env.localeAtMost left.text right.text
        declaredAudience := recommendation.declared
        recommendedAudience :=
          narrower recommendation.declared recommendation.recommended
        basis := recommendation.basis
        matchedPatterns := recommendation.matchedPatterns
        triggerRuleIds := triggerRuleIds
        otherFlags := result.flags.filter (!triggerRuleIds.contains ·) }

/-- The flags that a human release leaves standing. -/
def unresolvedFlagsAfterRelease (result : PipelineResult) : List String :=
  let covered := (coveredEvaluations result).map RuleResult.ruleId
  result.flags.filter (!covered.contains ·)

end Registrar
