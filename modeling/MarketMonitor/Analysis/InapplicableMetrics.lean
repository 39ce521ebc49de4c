import MarketMonitor.Analysis.MetricGuardian

/-!
# Metrics that do not apply

The metrics an output hands on are those with a value : a metric that does not apply is
left out like a missing one. The Guardian requires all of its metrics, so an evaluation
whose only gap is an early signal that does not apply is paused for missing facts. The
rules decide exactly when an early signal applies.
-/

namespace MarketMonitor

open Transaction

/-- The rules decide : nothing counts as missing, the effect is the strongest of the rules
met, and `ALLOW` when every value is below its threshold. -/
structure FollowsRules (metrics : Metrics) (thresholds : ThresholdSet)
    (risks : List RiskFinding) (effect : GuardianEffect) : Prop where
  notMissing : ∀ risk ∈ risks, risk.reasonCode ≠ "REQUIRED_GUARDIAN_FACTS_MISSING"
  strongest : effect = strongestEffect ((metRules metrics thresholds).map GuardianRule.effect)
  allow : (∀ rule ∈ guardianRules, ∀ value ∈ metrics.lookup rule.code,
    value < thresholds.entry rule.code) → effect = .allow

/-- The decision in an available, healthy and fit context. -/
def fitDecision (metrics : Metrics) (thresholds : ThresholdSet) (factUids : List (String × Uid)) :
    GuardianDecision :=
  guardianDecision metrics (some thresholds) "AVAILABLE" .healthy .fit factUids

variable {metrics : Metrics} {thresholds : ThresholdSet}

/-- Without a value at its threshold no rule is met. -/
theorem metRules_eq_nil (h : ∀ rule ∈ guardianRules, ∀ value ∈ metrics.lookup rule.code,
    value < thresholds.entry rule.code) : metRules metrics thresholds = [] := by
  rw [metRules, List.filter_eq_nil_iff]
  intro rule hrule
  cases hvalue : metrics.lookup rule.code with
  | none => simp
  | some value => simpa using h rule hrule value hvalue

theorem finding_reasonCode_ne (rule : GuardianRule) (factUid : Option Uid) :
    (rule.finding factUid).reasonCode ≠ "REQUIRED_GUARDIAN_FACTS_MISSING" := by
  cases htag : rule.riskTag <;> simp [GuardianRule.finding, htag, RiskTag.text]

/-- In a fit context the rules decide exactly when no metric is missing. -/
theorem followsRules_fitDecision_iff (thresholds : ThresholdSet)
    (factUids : List (String × Uid)) :
    FollowsRules metrics thresholds (fitDecision metrics thresholds factUids).risks
      (fitDecision metrics thresholds factUids).guardianEffect ↔
        factsMissing metrics = false := by
  have hquality : qualityUnavailable "AVAILABLE" .healthy .fit = false := by decide
  have hlimited : qualityLimited .healthy .fit = false := by decide
  cases hmissing : factsMissing metrics with
  | true =>
    rw [fitDecision, guardianDecision_of_unavailable (by rw [hmissing, Bool.or_true])]
    refine iff_of_false (fun h => ?_) (by decide)
    exact h.notMissing _ (List.mem_singleton_self _) (by simp [dataLimitation, hmissing])
  | false =>
    rw [fitDecision, guardianDecision_of_available (by rw [hquality, hmissing, Bool.or_false])]
    refine iff_of_true ⟨?_, ?_, ?_⟩ rfl
    · intro risk hrisk
      simp only [hlimited, Bool.false_eq_true, if_false, List.nil_append, List.mem_map] at hrisk
      obtain ⟨rule, -, rfl⟩ := hrisk
      exact finding_reasonCode_ne rule _
    · simp [hlimited]
    · intro hbelow
      simp [hlimited, metRules_eq_nil hbelow, strongestEffect]

/-- With values or inapplicable metrics only, a metric is missing exactly when the early
signal does not apply. -/
theorem factsMissing_iff_not_earlyApplicable (producer : MarketMetricProducer)
    (metricInput : MetricInput)
    (hstatus : ∀ code ∈ guardianCodes,
      (producer.evaluate metricInput).statusByMetric code = some .value ∨
        (producer.evaluate metricInput).statusByMetric code = some .notApplicable) :
    factsMissing (producer.evaluate metricInput).guardianMetrics = false ↔
      earlyApplicable metricInput.earlyEvidence metricInput.tradingDate = true := by
  have hmissing : ∀ code ∈ guardianCodes,
      ((producer.evaluate metricInput).guardianMetrics.lookup code = none ↔
        (producer.results metricInput).1 code = .notApplicable) := by
    intro code hcode
    rw [producer.lookup_guardianMetrics metricInput hcode]
    have hresult := hstatus code hcode
    rw [producer.statusByMetric_eq metricInput (mem_allCodes.mpr (Or.inl hcode))] at hresult
    cases hvalue : (producer.results metricInput).1 code with
    | value ppm => simp [MetricResult.valuePpm]
    | notApplicable => simp [MetricResult.valuePpm]
    | missing => simp [hvalue, MetricResult.status] at hresult
  rw [← Bool.not_eq_true, factsMissing_iff]
  constructor
  · intro h
    by_contra happlicable
    refine h ⟨"EARLY_SIGNAL_FAILURE_PPM", by decide, ?_⟩
    exact (hmissing _ (by decide)).mpr ((producer.results_eq_notApplicable_iff metricInput
      (by decide)).mpr ⟨rfl, by simpa using happlicable⟩)
  · rintro happlicable ⟨code, hcode, hnone⟩
    have hnot := (producer.results_eq_notApplicable_iff metricInput hcode).mp
      ((hmissing code hcode).mp hnone)
    rw [happlicable] at hnot
    cases hnot.2

/-- In an available, healthy and fit context the rules decide, for the calibration and for
the commit alike. -/
def DecidedByRules (metrics : Metrics) (thresholds : ThresholdSet) (facts : List MetricFact) :
    Prop :=
  (∀ factUids, FollowsRules metrics thresholds (fitDecision metrics thresholds factUids).risks
    (fitDecision metrics thresholds factUids).guardianEffect) ∧
  ∀ uids snapshot stateUid stateHash request t findings hash t',
    request.availabilityState = "AVAILABLE" → snapshot.dataHealthStatus = .healthy →
    snapshot.fitnessStatus = .fit →
    (insertGuardian uids snapshot stateUid stateHash request facts thresholds).run t =
      .ok (findings, hash) t' →
    FollowsRules metrics thresholds findings.risks findings.effect

/-- Of an output whose Guardian metrics have values or do not apply, the rules decide
exactly when the early signal applies. -/
theorem inapplicable_not_missing_iff (producer : MarketMetricProducer)
    (metricInput : MetricInput) (thresholds : ThresholdSet) (facts : List MetricFact)
    (_hfit : (producer.evaluate metricInput).quality.fitnessStatus = .fit)
    (hstatus : ∀ code ∈ guardianCodes,
      (producer.evaluate metricInput).statusByMetric code = some .value ∨
        (producer.evaluate metricInput).statusByMetric code = some .notApplicable)
    (hfacts : FactsCarry facts (producer.evaluate metricInput).guardianMetrics) :
    DecidedByRules (producer.evaluate metricInput).guardianMetrics thresholds facts ↔
      earlyApplicable metricInput.earlyEvidence metricInput.tradingDate = true := by
  rw [← factsMissing_iff_not_earlyApplicable producer metricInput hstatus]
  constructor
  · intro h
    exact (followsRules_fitDecision_iff thresholds []).mp (h.1 [])
  · intro hmissing
    refine ⟨fun factUids => (followsRules_fitDecision_iff thresholds factUids).mpr hmissing, ?_⟩
    intro uids snapshot stateUid stateHash request t findings hash t' havailable hhealth hfitness
      hrun
    have hinserted := insertGuardian_ok hrun
    have hfindings : findings = _ := hinserted.findings_eq
    rw [havailable, hhealth, hfitness, guardianFindings_eq_decision hfacts] at hfindings
    rw [hfindings]
    exact (followsRules_fitDecision_iff thresholds (factUidsOf facts)).mpr hmissing

/-! ## The quiet sector -/

/-- The Guardian metrics of the quiet sector other than the failure of an early signal. -/
def quietMetrics : Metrics :=
  [("BREADTH_COLLAPSE_PPM", 0), ("CORE_WEAKENING_PPM", 0), ("CROWDING_PPM", 0),
    ("HEAD_CONCENTRATION_PPM", 0), ("INTERNAL_DIVERGENCE_PPM", 0), ("LIQUIDITY_WEAKENING_PPM",
    0), ("RISE_RATE_PPM", 0), ("STAMPEDE_RISK_PPM", 0), ("T1_CHASING_RISK_PPM", 0)]

theorem sampleOutput_quiet : (sampleOutput none false).quality.fitnessStatus = .fit ∧
    (sampleOutput none false).guardianMetrics = quietMetrics ∧
    ∀ code ∈ guardianCodes, (sampleOutput none false).statusByMetric code = some .value ∨
      (sampleOutput none false).statusByMetric code = some .notApplicable := by
  decide +kernel

theorem sampleOutput_early : (sampleOutput (some sampleEarly) false).quality.fitnessStatus = .fit ∧
    FactsCarry (sampleFacts (("EARLY_SIGNAL_FAILURE_PPM", 0) :: quietMetrics))
      (sampleOutput (some sampleEarly) false).guardianMetrics ∧
    ∀ code ∈ guardianCodes,
      (sampleOutput (some sampleEarly) false).statusByMetric code = some .value ∨
        (sampleOutput (some sampleEarly) false).statusByMetric code = some .notApplicable := by
  decide +kernel

/-- With an early signal that applies, the rules decide the quiet sector. -/
theorem early_signal_decided_by_rules :
    DecidedByRules (sampleOutput (some sampleEarly) false).guardianMetrics
      (sampleThresholds .guardian)
      (sampleFacts (("EARLY_SIGNAL_FAILURE_PPM", 0) :: quietMetrics)) :=
  (inapplicable_not_missing_iff .current (sampleInput (some sampleEarly) false)
    (sampleThresholds .guardian) _ sampleOutput_early.1 sampleOutput_early.2.2
    sampleOutput_early.2.1).mpr (by decide)

/-- Without one, the quiet sector is fit, all its metrics have values below their thresholds
or do not apply, and it is paused for missing facts. -/
theorem no_early_signal_pauses :
    (sampleOutput none false).quality.fitnessStatus = .fit ∧
    (∀ code ∈ guardianCodes, (sampleOutput none false).statusByMetric code = some .value ∨
      (sampleOutput none false).statusByMetric code = some .notApplicable) ∧
    (∀ rule ∈ guardianRules, ∀ value ∈ (sampleOutput none false).guardianMetrics.lookup rule.code,
      value < (sampleThresholds .guardian).entry rule.code) ∧
    (fitDecision (sampleOutput none false).guardianMetrics (sampleThresholds .guardian)
      []).risks.map RiskFinding.reasonCode = ["REQUIRED_GUARDIAN_FACTS_MISSING"] ∧
    (fitDecision (sampleOutput none false).guardianMetrics (sampleThresholds .guardian)
      []).guardianEffect = .pause ∧
    ¬DecidedByRules (sampleOutput none false).guardianMetrics (sampleThresholds .guardian)
      (sampleFacts (sampleOutput none false).guardianMetrics) := by
  obtain ⟨hfit, hmetrics, hstatus⟩ := sampleOutput_quiet
  rw [hmetrics]
  refine ⟨hfit, hstatus, by decide +kernel, by decide +kernel, by decide +kernel, fun h => ?_⟩
  exact absurd ((followsRules_fitDecision_iff _ []).mp (h.1 [])) (by decide +kernel)

end MarketMonitor
