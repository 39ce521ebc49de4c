import MarketMonitor.Analysis.CommitSpec
import MarketMonitor.Analysis.MarketMetrics

/-!
# The Guardian of a commit and the Guardian of the rules

The commit decides on the facts it has verified and the calibration on the metrics of an
output, with two copies of the rules. On facts that carry the metrics the copies decide
alike (`guardianFindings_eq_decision`), so that what a decision says of a metric run
holds of the commit that is bound to it.
-/

namespace MarketMonitor

open Transaction

/-! ## The decision -/

/-- Some metric the rules require is not there. -/
def factsMissing (metrics : Metrics) : Bool :=
  guardianRules.any fun rule => (metrics.lookup rule.code).isNone

/-- The rules whose threshold the metrics reach. -/
def metRules (metrics : Metrics) (thresholds : ThresholdSet) : List GuardianRule :=
  guardianRules.filter fun rule =>
    (metrics.lookup rule.code).any fun value => thresholds.entry rule.code ≤ value

theorem map_code_guardianRules : guardianRules.map GuardianRule.code = guardianCodes := rfl

theorem mem_guardianCodes {rule : GuardianRule} (h : rule ∈ guardianRules) :
    rule.code ∈ guardianCodes :=
  map_code_guardianRules ▸ List.mem_map_of_mem h

theorem factsMissing_iff {metrics : Metrics} :
    factsMissing metrics = true ↔ ∃ code ∈ guardianCodes, metrics.lookup code = none := by
  rw [← map_code_guardianRules]
  simp [factsMissing]

variable {metrics : Metrics} {thresholds : ThresholdSet} {availability : String}
  {health : DataHealthStatus} {fitness : FitnessStatus} {factUids : List (String × Uid)}

theorem mem_guardianThresholdMatches {rule : GuardianRule} (hrule : rule ∈ guardianRules) :
    rule.code ∈ guardianThresholdMatches metrics thresholds ↔
      (metrics.lookup rule.code).any (fun value => thresholds.entry rule.code ≤ value) = true := by
  rw [guardianThresholdMatches, List.mem_filter]
  cases metrics.lookup rule.code with
  | none => simp
  | some value => simp [List.mem_map_of_mem hrule]

/-- The rules a decision applies are those met. -/
theorem filter_mem_guardianThresholdMatches :
    (guardianRules.filter fun rule => rule.code ∈ guardianThresholdMatches metrics thresholds) =
      metRules metrics thresholds := by
  refine List.filter_congr fun rule hrule => ?_
  rw [Bool.eq_iff_iff, decide_eq_true_eq]
  exact mem_guardianThresholdMatches hrule

/-- An unavailable quality, or a missing metric, pauses. -/
theorem guardianDecision_of_unavailable
    (h : (qualityUnavailable availability health fitness || factsMissing metrics) = true) :
    guardianDecision metrics (some thresholds) availability health fitness factUids =
      { thresholdMatches := []
        risks := [dataLimitation true (factsMissing metrics)]
        guardianEffect := .pause
        blocking := true
        maxSeverity := .critical
        unavailable := true } := by
  unfold factsMissing at h ⊢
  simp only [guardianDecision, h]
  simp [strongestEffect, maxSeverity, dataLimitation, GuardianEffect.blocks]

/-- An available quality with every metric applies the rules met, after its limitation. -/
theorem guardianDecision_of_available
    (h : (qualityUnavailable availability health fitness || factsMissing metrics) = false) :
    guardianDecision metrics (some thresholds) availability health fitness factUids =
      let limited := qualityLimited health fitness
      let met := metRules metrics thresholds
      let risks := (if limited then [dataLimitation false false] else []) ++
        met.map fun rule => rule.finding (factUids.lookup rule.code)
      let effect := strongestEffect ((if limited then [.allowWithWarning] else []) ++
        met.map GuardianRule.effect)
      { thresholdMatches := guardianThresholdMatches metrics thresholds
        risks := risks
        guardianEffect := effect
        blocking := effect.blocks
        maxSeverity := maxSeverity risks
        unavailable := false } := by
  obtain ⟨hquality, hmissing⟩ := Bool.or_eq_false_iff.mp h
  unfold factsMissing at hmissing
  simp only [guardianDecision, hquality, hmissing, Bool.false_or, Bool.false_eq_true, if_false,
    filter_mem_guardianThresholdMatches]

/-! ## The facts of a commit -/

/-- The facts carry the Guardian metrics. -/
def FactsCarry (facts : List MetricFact) (metrics : Metrics) : Prop :=
  ∀ code ∈ guardianCodes, (factByCode facts code).map MetricFact.value = metrics.lookup code

instance (facts : List MetricFact) (metrics : Metrics) : Decidable (FactsCarry facts metrics) :=
  inferInstanceAs (Decidable (∀ code ∈ guardianCodes,
    (factByCode facts code).map MetricFact.value = metrics.lookup code))

/-- The fact of each code : of several, the last. -/
def factUidsOf (facts : List MetricFact) : List (String × Uid) :=
  facts.reverse.map fun f => (f.code, f.factUid)

/-- The identifier of the fact of a code. -/
theorem lookup_factUidsOf (facts : List MetricFact) (code : String) :
    (factUidsOf facts).lookup code = (factByCode facts code).map MetricFact.factUid := by
  rw [factByCode, List.findRev?_eq_find?_reverse, factUidsOf]
  induction facts.reverse with
  | nil => rfl
  | cons f fs ih =>
    rw [List.map_cons, List.lookup_cons, List.find?_cons]
    by_cases hcode : f.code = code
    · simp [hcode]
    · have hne : (code == f.code) = false := by simpa using Ne.symm hcode
      simp only [hne, hcode, decide_false]
      exact ih

section Agreement

variable {facts : List MetricFact} (hfacts : FactsCarry facts metrics)

include hfacts

theorem isNone_factByCode {rule : GuardianRule} (hrule : rule ∈ guardianRules) :
    (factByCode facts rule.code).isNone = (metrics.lookup rule.code).isNone := by
  rw [← hfacts rule.code (mem_guardianCodes hrule), Option.isNone_map]

theorem any_isNone_factByCode :
    (guardianRules.any fun rule => (factByCode facts rule.code).isNone) =
      factsMissing metrics := by
  rw [factsMissing, Bool.eq_iff_iff, List.any_eq_true, List.any_eq_true]
  constructor
  · rintro ⟨rule, hrule, h⟩
    exact ⟨rule, hrule, isNone_factByCode hfacts hrule ▸ h⟩
  · rintro ⟨rule, hrule, h⟩
    exact ⟨rule, hrule, (isNone_factByCode hfacts hrule).symm ▸ h⟩

/-- The facts that reach their thresholds are those of the rules met. -/
theorem map_filterMap_met {β : Type} (g : GuardianRule → Option Uid → β) :
    (guardianRules.filterMap fun rule =>
      match factByCode facts rule.code with
      | some fact =>
        if thresholds.entry rule.code ≤ fact.value then some (rule, fact.factUid) else none
      | none => none).map (fun p => g p.1 (some p.2)) =
        (metRules metrics thresholds).map fun rule =>
          g rule ((factUidsOf facts).lookup rule.code) := by
  rw [List.map_filterMap, metRules, ← List.filterMap_eq_map, ← List.filterMap_eq_filter,
    List.filterMap_filterMap]
  refine List.filterMap_congr fun rule hrule => ?_
  have hvalue := hfacts rule.code (mem_guardianCodes hrule)
  have huid := lookup_factUidsOf facts rule.code
  cases hfact : factByCode facts rule.code with
  | none =>
    rw [hfact] at hvalue
    simp [Option.guard, ← hvalue]
  | some fact =>
    rw [hfact] at hvalue huid
    by_cases hmet : thresholds.entry rule.code ≤ fact.value <;>
      simp [Option.guard, ← hvalue, huid, hmet]

/-- On facts that carry the metrics, the commit finds what the rules decide. -/
theorem guardianFindings_eq_decision :
    guardianFindings availability health fitness facts thresholds =
      let decision := guardianDecision metrics (some thresholds) availability health fitness
        (factUidsOf facts)
      ⟨decision.risks, decision.guardianEffect, decision.maxSeverity⟩ := by
  cases h : qualityUnavailable availability health fitness || factsMissing metrics with
  | true =>
    simp only [guardianFindings, any_isNone_factByCode hfacts, h,
      guardianDecision_of_unavailable h]
    simp [strongestEffect, maxSeverity, dataLimitation]
  | false =>
    obtain ⟨hquality, hmissing⟩ := Bool.or_eq_false_iff.mp h
    have hfindings := @map_filterMap_met metrics thresholds facts hfacts _ GuardianRule.finding
    have heffects := @map_filterMap_met metrics thresholds facts hfacts _ fun rule _ =>
      rule.effect
    simp only [guardianFindings, any_isNone_factByCode hfacts, guardianDecision_of_available h,
      hquality, hmissing, Bool.false_or, Bool.false_eq_true, if_false]
    rewrite [← hfindings, ← heffects]
    rfl

end Agreement

/-! ## A sample -/

/-- Thresholds at one half. -/
def sampleThresholds (family : ThresholdFamily) : ThresholdSet where
  uid := family.text
  family := family
  version := "v1"
  definitionHash :=
    definitionHash family "v1" (Metrics.sorted (family.codes.map fun code => (code, 500000)))
  entries := Metrics.sorted (family.codes.map fun code => (code, 500000))
  effectiveTime := some 0
  ownerApprovalReference := "owner"
  complete := by cases family <;> decide

/-- A fact for each metric. -/
def sampleFacts (metrics : Metrics) : List MetricFact :=
  metrics.map fun p => ⟨"fact-" ++ p.1, p.1, p.2, p.1⟩

end MarketMonitor
