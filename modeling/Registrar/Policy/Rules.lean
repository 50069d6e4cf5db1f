import Registrar.Common.Environment
import Mathlib.Data.List.Sort
import Mathlib.Algebra.Order.Field.Rat

/-!
# Rule evaluators

The rules that a governance policy can name.  An evaluator reads a candidate,
the rule's parameters and the evaluation context, and writes nothing.
-/

namespace Registrar

/-- The part of an active memory that the contradiction rule compares with. -/
structure ActiveMemorySnapshot where
  id : String
  content : String
  deriving DecidableEq, Repr

structure EvaluationContext where
  minimumSensitivity : Option Sensitivity
  existingHashes : Option (List String)
  tenantId : Option String
  getActiveMemoriesInCategory :
    Option (MemoryCategory → List ActiveMemorySnapshot)

/-- What produced a result: a rule of the policy, or one of the structural
gates that report in the same shape. -/
inductive ResultRuleType where
  | policy (type : PolicyRuleType)
  | originAttestation
  | importExclusion
  deriving DecidableEq, Repr

def PolicyRuleType.text : PolicyRuleType → String
  | .secretDetection => "secret_detection"
  | .dedupCheck => "dedup_check"
  | .relevanceScore => "relevance_score"
  | .contentLength => "content_length"
  | .sourceTrust => "source_trust"
  | .tenantMatch => "tenant_match"
  | .sensitivityGate => "sensitivity_gate"
  | .contentSanitization => "content_sanitization"
  | .contradictionCheck => "contradiction_check"
  | .audienceNarrowing => "audience_narrowing"

def ResultRuleType.text : ResultRuleType → String
  | .policy type => type.text
  | .originAttestation => "origin_attestation"
  | .importExclusion => "import_exclusion"

structure RuleResult where
  ruleId : String
  ruleType : ResultRuleType
  outcome : RuleOutcome
  reason : String
  deriving DecidableEq, Repr

def PolicyRule.result (rule : PolicyRule) (outcome : RuleOutcome)
    (reason : String) : RuleResult where
  ruleId := rule.id
  ruleType := .policy rule.type
  outcome := outcome
  reason := reason

def PolicyRule.numberParameter (rule : PolicyRule) (name : String)
    (default : ℚ) : ℚ :=
  match rule.parameter name with
  | some (.number value) => value
  | _ => default

def PolicyRule.stringParameter (rule : PolicyRule) (name : String) :
    Option String :=
  match rule.parameter name with
  | some (.string value) => some value
  | _ => none

def PolicyRule.stringsParameter (rule : PolicyRule) (name : String) :
    Option (List String) :=
  match rule.parameter name with
  | some (.strings values) => some values
  | _ => none

/-- Number of UTF-16 units, as `length` counts them. -/
def utf16Length (text : String) : Nat :=
  (text.toList.map fun char => if char.toNat < 0x10000 then 1 else 2).sum

def joinComma (texts : List String) : String :=
  String.intercalate ", " texts

variable (env : Environment)

def evaluateContentLength (candidate : MemoryCandidate) (rule : PolicyRule)
    (_context : EvaluationContext) : RuleResult :=
  let min := rule.numberParameter "min" 10
  let max := rule.numberParameter "max" 50000
  let length := utf16Length candidate.content
  if (length : ℚ) < min then
    rule.result .fail ("Content too short (" ++ toString length ++
      " chars, minimum " ++ env.numberText min ++ ")")
  else if max < (length : ℚ) then
    rule.result .fail ("Content too long (" ++ toString length ++
      " chars, maximum " ++ env.numberText max ++ ")")
  else
    rule.result .pass ("Content length " ++ toString length ++
      " chars is within bounds [" ++ env.numberText min ++ ", " ++
      env.numberText max ++ "]")

def trustOrder : TrustLevel → Nat
  | .high => 4
  | .medium => 3
  | .low => 2
  | .untrusted => 1

def TrustLevel.ofText? (text : String) : Option TrustLevel :=
  [TrustLevel.high, .medium, .low, .untrusted].find? (·.text = text)

def evaluateSourceTrust (candidate : MemoryCandidate) (rule : PolicyRule)
    (_context : EvaluationContext) : RuleResult :=
  let minimumTrust :=
    ((rule.stringParameter "minimumTrust").bind TrustLevel.ofText?).getD .low
  if trustOrder minimumTrust ≤ trustOrder candidate.trustLevel then
    rule.result .pass ("Trust level '" ++ candidate.trustLevel.text ++
      "' meets minimum '" ++ minimumTrust.text ++ "'")
  else
    rule.result (if rule.action = .flag then .flag else .fail)
      ("Trust level '" ++ candidate.trustLevel.text ++
        "' is below minimum '" ++ minimumTrust.text ++ "'")

/-- Number of distinct lower-case words. -/
def uniqueWordCount (content : String) : Nat :=
  let words := (env.toLowerCase content).toList.splitOnP isTrimmedSpace
  (words.filter (· ≠ [])).eraseDups.length

def relevanceScore (candidate : MemoryCandidate) : ℚ :=
  let length := utf16Length candidate.content
  (if trim candidate.title ≠ "" then 1 / 5 else 0) +
  (if 200 < length then 1 / 5 else if 50 < length then 1 / 10 else 0) +
  1 / 20 +
  (if candidate.metadata.filePaths ≠ [] then 1 / 10 else 0) +
  (if candidate.metadata.projectContext.any (· ≠ "") then 1 / 10 else 0) +
  (if candidate.metadata.tags ≠ [] then 1 / 10 else 0) +
  (if candidate.trustLevel = .high then 1 / 20 else 0) +
  (if 15 < uniqueWordCount env candidate.content then 1 / 10 else 0) +
  (if candidate.source = .manual ∨ candidate.source = .import_ then 1 / 10
    else 0)

/-- A below-threshold score fails for the sources that the parameters list, by
default the imports, and otherwise only flags.  Unknown source names have no
candidate to match. -/
def evaluateRelevanceScore (candidate : MemoryCandidate) (rule : PolicyRule)
    (_context : EvaluationContext) : RuleResult :=
  let minimumScore := rule.numberParameter "minimumScore" (3 / 10)
  let rejectSources :=
    (rule.stringsParameter "rejectSources").getD ["import", "bulk_import"]
  let score := relevanceScore env candidate
  let below := "Relevance score " ++ env.toFixed2 score ++
    " is below minimum " ++ env.toFixed2 minimumScore
  if minimumScore ≤ score then
    rule.result .pass ("Relevance score " ++ env.toFixed2 score ++
      " meets minimum " ++ env.toFixed2 minimumScore)
  else if rejectSources.contains candidate.source.text then
    rule.result .fail (below ++ " for import-class source '" ++
      candidate.source.text ++ "' (hard-rejectable per rule parameters)")
  else rule.result .flag below

def evaluateDedupCheck (candidate : MemoryCandidate) (rule : PolicyRule)
    (context : EvaluationContext) : RuleResult :=
  let existingHashes := context.existingHashes.getD []
  let hash := computeContentHash env candidate.content
  if existingHashes = [] then
    rule.result .pass "No existing hashes provided — dedup check skipped"
  else if existingHashes.contains hash then
    rule.result .fail ("Exact duplicate detected (hash: " ++ hash ++ ")")
  else rule.result .pass ("Content is unique (hash: " ++ hash ++ ")")

def evaluateTenantMatch (candidate : MemoryCandidate) (rule : PolicyRule)
    (context : EvaluationContext) : RuleResult :=
  match context.tenantId with
  | none =>
      rule.result .pass
        "No tenantId in context — tenant enforcement not active"
  | some tenantId =>
      if candidate.tenantId = tenantId then
        rule.result .pass ("Tenant match confirmed: '" ++
          candidate.tenantId ++ "'")
      else
        rule.result .fail ("Tenant mismatch: candidate tenant '" ++
          candidate.tenantId ++ "' != expected '" ++ tenantId ++ "'")

def sensitivityRank : Sensitivity → Nat
  | .public_ => 0
  | .internal => 1
  | .confidential => 2
  | .restricted => 3

/-- A reviewed floor can only increase the classifier's sensitivity. -/
def effectiveSensitivity (classified : Sensitivity) :
    Option Sensitivity → Sensitivity
  | none => classified
  | some minimum =>
      if sensitivityRank classified < sensitivityRank minimum then minimum
      else classified

def Sensitivity.ofText? (text : String) : Option Sensitivity :=
  [Sensitivity.public_, .internal, .confidential, .restricted].find?
    (·.text = text)

def parseBlockedLevels (rule : PolicyRule) : List Sensitivity :=
  let levels := ((rule.stringsParameter "blockedLevels").getD []).filterMap
    Sensitivity.ofText?
  if levels = [] then [.restricted, .confidential] else levels

def evaluateSensitivityGate (candidate : MemoryCandidate) (rule : PolicyRule)
    (context : EvaluationContext) : RuleResult :=
  let classification := env.classifyContent candidate.content
  let classified := classification.sensitivityLevel
  let blockedLevels := parseBlockedLevels rule
  let effective := effectiveSensitivity classified context.minimumSensitivity
  let assessed := match context.minimumSensitivity with
    | none => classified.text
    | some minimum => classified.text ++ " (reviewed minimum " ++
        minimum.text ++ ", effective " ++ effective.text ++ ")"
  if blockedLevels.contains classified || blockedLevels.contains effective then
    rule.result .fail ("Content blocked — sensitivity level '" ++ assessed ++
      "' is restricted. Matched patterns: " ++
      joinComma classification.matchedPatterns)
  else
    rule.result .pass ("Content sensitivity level '" ++ assessed ++
      "' is allowed")

def sanitizationPatternIds : List String :=
  ["unix-home-path", "macos-user-path", "windows-path", "internal-hostname",
    "local-hostname", "rfc1918-ip"]

def evaluateContentSanitization (candidate : MemoryCandidate)
    (rule : PolicyRule) (_context : EvaluationContext) : RuleResult :=
  let patterns := match rule.stringsParameter "enabledPatterns" with
    | none => sanitizationPatternIds
    | some enabled => sanitizationPatternIds.filter enabled.contains
  let matched := patterns.filter fun pattern =>
    env.sanitizationMatches pattern candidate.content
  if matched = [] then
    rule.result .pass "No internal paths, hostnames, or private IPs detected"
  else
    rule.result .flag ("Content contains internal references: " ++
      joinComma matched)

def Audience.ofText? (text : String) : Option Audience :=
  [Audience.tenant, .admins, .owner].find? (·.text = text)

def parseTier (value : Option String) (fallback : Audience) : Audience :=
  (value.bind Audience.ofText?).getD fallback

structure AudienceRecommendation where
  declared : Audience
  recommended : Audience
  shouldNarrow : Bool
  basis : String
  matchedPatterns : List String
  deriving DecidableEq, Repr

/-- The widest audience that the content's classification supports. -/
def recommendAudience (content : String) (declaredAudience : Option Audience)
    (credentials pii : Option String) : AudienceRecommendation :=
  let classification := env.classifyContent content
  let declared := resolveAudience declaredAudience
  let recommendation : String × Audience :=
    if classification.hasCredentials then
      ("credentials", parseTier credentials .owner)
    else if classification.hasPii then ("pii", parseTier pii .admins)
    else ("none", .tenant)
  { declared := declared
    recommended := recommendation.2
    shouldNarrow :=
      (validateAudienceNarrowing (some declared)
        (some recommendation.2)).isOk
    basis := recommendation.1
    matchedPatterns :=
      classification.matchedPatterns.filter (· ≠ "internal-path") }

def evaluateAudienceNarrowing (candidate : MemoryCandidate)
    (rule : PolicyRule) (_context : EvaluationContext) : RuleResult :=
  let recommendation := recommendAudience env candidate.content
    candidate.metadata.audience (rule.stringParameter "credentialsAudience")
    (rule.stringParameter "piiAudience")
  if recommendation.shouldNarrow then
    rule.result .flag ("Declared audience '" ++
      recommendation.declared.text ++
      "' is wider than the content calls for: " ++ recommendation.basis ++
      " detected (patterns: " ++ joinComma recommendation.matchedPatterns ++
      ") — recommend narrowing to '" ++ recommendation.recommended.text ++
      "'. Recommendation only; nothing was changed.")
  else
    rule.result .pass ("Declared audience '" ++ recommendation.declared.text ++
      "' is not wider than the content calls for ('" ++
      recommendation.recommended.text ++ "')")

/-- The reason names patterns and lines, never the matched text. -/
def evaluateSecretDetection (candidate : MemoryCandidate) (rule : PolicyRule)
    (_context : EvaluationContext) : RuleResult :=
  let findings := env.scanTextForSecrets candidate.content
  if findings = [] then rule.result .pass "No secrets detected in content"
  else
    let patternNames :=
      joinComma (findings.map SecretFinding.patternName).eraseDups
    let patternIds := joinComma (findings.map SecretFinding.patternId)
    let locations := String.intercalate "; "
      (findings.map fun finding => finding.patternId ++ " at line " ++
        joinComma (finding.lines.map toString))
    rule.result .fail ("Secrets detected — patterns matched: " ++
      patternNames ++ " (ids: " ++ patternIds ++ "; locations: " ++
      locations ++ ")")

/-- `|A ∩ B| / |A ∪ B|` of two token sets, 0 when both are empty. -/
def jaccard (left right : List String) : ℚ :=
  let intersection := left.countP right.contains
  let union := left.length + right.length - intersection
  if union = 0 then 0 else intersection / union

def parseThreshold (rule : PolicyRule) : ℚ :=
  match rule.parameter "threshold" with
  | some (.number raw) => min 1 (max 0 raw)
  | _ => 3 / 5

def maxReported : Nat := 5

/-- Flags a candidate whose tokens overlap with those of an active memory of
its category with other content. -/
def evaluateContradictionCheck (candidate : MemoryCandidate)
    (rule : PolicyRule) (context : EvaluationContext) : RuleResult :=
  match context.getActiveMemoriesInCategory with
  | none =>
      rule.result .pass
        "No active-memory lookup provided — contradiction check skipped"
  | some activeMemories =>
      let threshold := parseThreshold rule
      let candidateTokens := env.contradictionTokens candidate.content
      let others := (activeMemories candidate.category).filter
        (·.content ≠ candidate.content)
      let measured := others.map fun memory =>
        (memory.id,
          jaccard candidateTokens (env.contradictionTokens memory.content))
      let suspects := measured.filter fun suspect => threshold ≤ suspect.2
      if suspects = [] then
        rule.result .pass ("No active '" ++ candidate.category.text ++
          "' memory overlaps at or above " ++ env.numberText threshold)
      else
        let sorted := suspects.insertionSort fun left right =>
          right.2 ≤ left.2
        let reported := (sorted.take maxReported).map fun suspect =>
          suspect.1 ++ " (" ++ env.toFixed2 suspect.2 ++ ")"
        rule.result .flag
          ("Potential contradiction: high token overlap with " ++
            toString suspects.length ++ " active '" ++
            candidate.category.text ++ "' memor" ++
            (if suspects.length = 1 then "y" else "ies") ++ " — " ++
            joinComma reported ++
            ". v1 heuristic (token overlap, not semantic) — human review " ++
            "required.")

/-- The registered evaluator of a rule type. -/
def createRule : PolicyRuleType →
    MemoryCandidate → PolicyRule → EvaluationContext → RuleResult
  | .secretDetection => evaluateSecretDetection env
  | .contentLength => evaluateContentLength env
  | .sourceTrust => evaluateSourceTrust
  | .relevanceScore => evaluateRelevanceScore env
  | .dedupCheck => evaluateDedupCheck env
  | .tenantMatch => evaluateTenantMatch
  | .sensitivityGate => evaluateSensitivityGate env
  | .contentSanitization => evaluateContentSanitization env
  | .contradictionCheck => evaluateContradictionCheck env
  | .audienceNarrowing => evaluateAudienceNarrowing env

theorem createRule_capturedAt (type : PolicyRuleType)
    (candidate : MemoryCandidate) (capturedAt : String) (rule : PolicyRule)
    (context : EvaluationContext) :
    createRule env type { candidate with capturedAt := capturedAt } rule
        context =
      createRule env type candidate rule context := by
  cases type <;> rfl

theorem createRule_existingHashes {type : PolicyRuleType}
    (notDedup : type ≠ .dedupCheck) (candidate : MemoryCandidate)
    (rule : PolicyRule) (context : EvaluationContext)
    (existingHashes : Option (List String)) :
    createRule env type candidate rule
        { context with existingHashes := existingHashes } =
      createRule env type candidate rule context := by
  cases type <;> first | rfl | exact absurd rfl notDedup

theorem evaluateDedupCheck_pass_iff (candidate : MemoryCandidate)
    (rule : PolicyRule) (context : EvaluationContext) :
    (evaluateDedupCheck env candidate rule context).outcome = .pass ↔
      computeContentHash env candidate.content ∉
        context.existingHashes.getD [] := by
  unfold evaluateDedupCheck
  dsimp only
  split_ifs with empty known
  · simp [PolicyRule.result, empty]
  · simpa [PolicyRule.result] using known
  · simpa [PolicyRule.result] using known

/-- The known hashes decide an outcome only by whether they have the content. -/
theorem createRule_outcome_congr {candidate : MemoryCandidate}
    {known more : List String}
    (same : computeContentHash env candidate.content ∈ known ↔
      computeContentHash env candidate.content ∈ more)
    (type : PolicyRuleType) (rule : PolicyRule) (context : EvaluationContext) :
    (createRule env type candidate rule
        { context with existingHashes := some known }).outcome =
      (createRule env type candidate rule
        { context with existingHashes := some more }).outcome := by
  by_cases isDedup : type = .dedupCheck
  · have fails (hashes : List String) :
        (evaluateDedupCheck env candidate rule
            { context with existingHashes := some hashes }).outcome =
          if computeContentHash env candidate.content ∈ hashes then .fail
          else .pass := by
      unfold evaluateDedupCheck
      cases hashes with
      | nil => simp [PolicyRule.result]
      | cons head tail =>
          by_cases isKnown :
              computeContentHash env candidate.content ∈ head :: tail <;>
            simp [PolicyRule.result, isKnown]
    rw [isDedup]
    exact (fails known).trans (Eq.trans (by simp only [same]) (fails more).symm)
  · have unread :=
      createRule_existingHashes env isDedup candidate rule context
    rw [unread (some known), unread (some more)]

end Registrar
