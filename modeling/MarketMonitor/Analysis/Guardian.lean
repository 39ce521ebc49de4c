import MarketMonitor.Analysis.Thresholds

/-!
# Guardian and Scout rules

The protection chain of the Guardian and the objective tags of the Scout, as pure
functions of the metric values. `guardianDecision` is the chain the calibration runs;
the Analysis Commit runs its own copy on the facts it has verified.
-/

namespace MarketMonitor

open Transaction

/-! ## Guardian -/

/-- A risk the Guardian found. -/
structure RiskFinding where
  riskTag : RiskTag
  severity : Severity
  reasonCode : String
  primaryFactUid : Option Uid
  deriving DecidableEq, Repr

/-- A rule of the Guardian : a metric code, and what reaching its threshold means. -/
structure GuardianRule where
  code : String
  riskTag : RiskTag
  severity : Severity
  effect : GuardianEffect

/-- `_RULES` of the Guardian. -/
def guardianRules : List GuardianRule :=
  [⟨"RISE_RATE_PPM", .risingTooFast, .high, .downgrade⟩,
    ⟨"HEAD_CONCENTRATION_PPM", .headConcentrationHigh, .high, .downgrade⟩,
    ⟨"INTERNAL_DIVERGENCE_PPM", .internalDivergence, .high, .downgrade⟩,
    ⟨"CROWDING_PPM", .crowdingIncreasing, .high, .downgrade⟩,
    ⟨"LIQUIDITY_WEAKENING_PPM", .liquidityWeakening, .warning, .allowWithWarning⟩,
    ⟨"CORE_WEAKENING_PPM", .coreMembersWeakening, .high, .downgrade⟩,
    ⟨"BREADTH_COLLAPSE_PPM", .breadthCollapsing, .critical, .suppress⟩,
    ⟨"STAMPEDE_RISK_PPM", .stampedeRisk, .critical, .suppress⟩,
    ⟨"T1_CHASING_RISK_PPM", .t1ChasingRisk, .critical, .suppress⟩,
    ⟨"EARLY_SIGNAL_FAILURE_PPM", .earlySignalFailed, .warning, .downgrade⟩]

/-- `GuardianService.RULE_VERSION` -/
def guardianRuleVersion : String := "guardian-v1"

/-- `_EFFECT_ORDER` -/
def GuardianEffect.order : GuardianEffect → ℕ
  | .allow => 0
  | .allowWithWarning => 1
  | .downgrade => 2
  | .suppress => 3
  | .pause => 4

/-- `_SEVERITY_ORDER` -/
def Severity.order : Severity → ℕ
  | .none => 0
  | .info => 1
  | .warning => 2
  | .high => 3
  | .critical => 4

/-- `max(effects, key=_EFFECT_ORDER.__getitem__) if effects else "ALLOW"`. -/
def strongestEffect (effects : List GuardianEffect) : GuardianEffect :=
  (effects.argmax GuardianEffect.order).getD .allow

/-- The largest severity of the findings, `NONE` without any. -/
def maxSeverity (risks : List RiskFinding) : Severity :=
  ((risks.map RiskFinding.severity).argmax Severity.order).getD .none

/-- `effect in {"SUPPRESS", "PAUSE"}`. -/
def GuardianEffect.blocks : GuardianEffect → Bool
  | .suppress | .pause => true
  | _ => false

/-- The quality gives no ground for a judgement. -/
def qualityUnavailable (availabilityState : String) (health : DataHealthStatus)
    (fitness : FitnessStatus) : Bool :=
  availabilityState ≠ "AVAILABLE" ∨ (health = .unknown ∨ health = .unhealthy) ∨
    (fitness = .unknown ∨ fitness = .unfit)

/-- The quality limits a judgement. -/
def qualityLimited (health : DataHealthStatus) (fitness : FitnessStatus) : Bool :=
  health = .degraded ∨ fitness = .fitWithLimitations

/-- The finding of an unavailable or a limited quality. -/
def dataLimitation (unavailable missing : Bool) : RiskFinding where
  riskTag := .dataLimitation
  severity := if unavailable then .critical else .warning
  reasonCode :=
    if missing then "REQUIRED_GUARDIAN_FACTS_MISSING"
    else if unavailable then "QUALITY_REQUIRES_PAUSE"
    else "QUALITY_LIMITED"
  primaryFactUid := none

/-- The finding of a rule whose threshold is met. -/
def GuardianRule.finding (rule : GuardianRule) (factUid : Option Uid) : RiskFinding where
  riskTag := rule.riskTag
  severity := rule.severity
  reasonCode := rule.riskTag.text ++ "_THRESHOLD_MET"
  primaryFactUid := factUid

/-- `guardian_threshold_matches(metrics, thresholds)`. -/
def guardianThresholdMatches (metrics : Metrics) (thresholds : ThresholdSet) : List String :=
  (guardianRules.map GuardianRule.code).filter fun code =>
    match metrics.lookup code with
    | some value => thresholds.entry code ≤ value
    | none => false

/-- `GuardianDecision` -/
structure GuardianDecision where
  thresholdMatches : List String
  risks : List RiskFinding
  guardianEffect : GuardianEffect
  blocking : Bool
  maxSeverity : Severity
  unavailable : Bool
  deriving DecidableEq

/-- `guardian_decision(metrics, thresholds, availability_state, data_health_status,
fitness_status, fact_uids)`. -/
def guardianDecision (metrics : Metrics) (thresholds : Option ThresholdSet)
    (availabilityState : String) (health : DataHealthStatus) (fitness : FitnessStatus)
    (factUids : List (String × Uid)) : GuardianDecision :=
  let missing := guardianRules.any fun rule => (metrics.lookup rule.code).isNone
  let unavailable := qualityUnavailable availabilityState health fitness || missing
  let limited := qualityLimited health fitness
  let quality := if unavailable || limited then [dataLimitation unavailable missing] else []
  let qualityEffects : List GuardianEffect :=
    if unavailable || limited then [if unavailable then .pause else .allowWithWarning] else []
  let thresholdMatches :=
    match thresholds with
    | some thresholds => if unavailable then [] else guardianThresholdMatches metrics thresholds
    | none => []
  let met := guardianRules.filter fun rule => rule.code ∈ thresholdMatches
  let risks := quality ++ met.map fun rule => rule.finding (factUids.lookup rule.code)
  let effect := strongestEffect (qualityEffects ++ met.map GuardianRule.effect)
  { thresholdMatches := thresholdMatches
    risks := risks
    guardianEffect := effect
    blocking := effect.blocks
    maxSeverity := MarketMonitor.maxSeverity risks
    unavailable := unavailable }

/-! ## Scout -/

/-- An opportunity the Scout found. -/
structure OpportunityFinding where
  opportunityTag : OpportunityTag
  reasonCode : String
  primaryFactUid : Uid
  deriving DecidableEq, Repr

/-- `_RULES` of the Scout. -/
def scoutRules : List (String × OpportunityTag) :=
  [("EARLY_ACTIVITY_PPM", .earlyActivity), ("HEALTHY_BREADTH_PPM", .healthyBreadth),
    ("RELATIVE_STRENGTH_PPM", .relativeStrength),
    ("TURNOVER_CONFIRMATION_PPM", .turnoverConfirmation),
    ("ETF_CONFIRMATION_PPM", .etfConfirmation), ("STYLE_SUPPORT_PPM", .styleSupport),
    ("LOW_CROWDING_PPM", .lowCrowding), ("CONTINUITY_STRENGTHENING_PPM", .continuityStrengthening)]

/-- `ScoutService.RULE_VERSION` -/
def scoutRuleVersion : String := "scout-v1"

/-- The status of a number of opportunities. -/
def scoutStatus (count : ℕ) : ScoutStatus :=
  if count = 0 then .none else if count < 3 then .observing else .active

/-- The strength of a number of opportunities. -/
def scoutStrength (count : ℕ) : ScoutStrength :=
  if count < 3 then .low else if count < 6 then .medium else .high

end MarketMonitor
