import MarketMonitor.Analysis.MetricGuardian

/-!
# Worse inputs of the Guardian

An input is at least as bad as another when it has some of its metrics at values at least as
high, thresholds at most as high, and a quality at least as bad. The Guardian is monotone :
on a worse input its effect is at least as restrictive, and its severity at least as high.

A metric that is gone takes its own match away, and pauses.
-/

namespace MarketMonitor

/-! ## The largest of a list -/

/-- The largest of some elements, where each is matched by one of some others. -/
theorem argmax_getD_le {α : Type} (f : α → ℕ) {bottom : α} (hbottom : f bottom = 0)
    {xs ys : List α} (h : ∀ x ∈ xs, ∃ y ∈ ys, f x ≤ f y) :
    f ((xs.argmax f).getD bottom) ≤ f ((ys.argmax f).getD bottom) := by
  cases hx : xs.argmax f with
  | none =>
    rw [Option.getD_none, hbottom]
    exact Nat.zero_le _
  | some x =>
    obtain ⟨y, hy, hle⟩ := h x (List.argmax_mem hx)
    cases hmax : ys.argmax f with
    | none =>
      rw [List.argmax_eq_none.mp hmax] at hy
      cases hy
    | some y' => exact hle.trans (List.le_of_mem_argmax hy hmax)

theorem strongestEffect_mono {effects effects' : List GuardianEffect}
    (h : ∀ e ∈ effects, ∃ e' ∈ effects', e.order ≤ e'.order) :
    (strongestEffect effects).order ≤ (strongestEffect effects').order :=
  argmax_getD_le GuardianEffect.order rfl h

theorem maxSeverity_mono {risks risks' : List RiskFinding}
    (h : ∀ r ∈ risks, ∃ r' ∈ risks', r.severity.order ≤ r'.severity.order) :
    (maxSeverity risks).order ≤ (maxSeverity risks').order := by
  refine argmax_getD_le Severity.order rfl fun severity hseverity => ?_
  obtain ⟨r, hr, rfl⟩ := List.mem_map.mp hseverity
  obtain ⟨r', hr', hle⟩ := h r hr
  exact ⟨r'.severity, List.mem_map_of_mem hr', hle⟩

theorem GuardianEffect.order_le_pause (e : GuardianEffect) :
    e.order ≤ GuardianEffect.pause.order := by
  cases e <;> decide

theorem Severity.order_le_critical (s : Severity) : s.order ≤ Severity.critical.order := by
  cases s <;> decide

/-! ## Inputs -/

/-- The order of the health : `HEALTHY`, then `DEGRADED`, then the others. -/
def DataHealthStatus.badness : DataHealthStatus → ℕ
  | .healthy => 0
  | .degraded => 1
  | .unknown | .unhealthy => 2

/-- The order of the fitness : `FIT`, then `FIT_WITH_LIMITATIONS`, then the others. -/
def FitnessStatus.badness : FitnessStatus → ℕ
  | .fit => 0
  | .fitWithLimitations => 1
  | .unknown | .unfit => 2

/-- What `guardian_decision` decides on. -/
structure GuardianInput where
  metrics : Metrics
  thresholds : ThresholdSet
  availabilityState : String
  dataHealthStatus : DataHealthStatus
  fitnessStatus : FitnessStatus

namespace GuardianInput

/-- The decision on an input. -/
def decision (input : GuardianInput) (factUids : List (String × Uid)) : GuardianDecision :=
  guardianDecision input.metrics (some input.thresholds) input.availabilityState
    input.dataHealthStatus input.fitnessStatus factUids

/-- The quality or a missing metric pauses. -/
def paused (input : GuardianInput) : Bool :=
  qualityUnavailable input.availabilityState input.dataHealthStatus input.fitnessStatus ||
    factsMissing input.metrics

/-- The quality limits. -/
def limited (input : GuardianInput) : Bool :=
  qualityLimited input.dataHealthStatus input.fitnessStatus

/-- An input is at least as bad as another. -/
structure Worsens (input worse : GuardianInput) : Prop where
  metrics : ∀ code value, worse.metrics.lookup code = some value →
    ∃ v, input.metrics.lookup code = some v ∧ v ≤ value
  thresholds : ∀ code ∈ guardianCodes, worse.thresholds.entry code ≤ input.thresholds.entry code
  availability : worse.availabilityState = "AVAILABLE" → input.availabilityState = "AVAILABLE"
  health : input.dataHealthStatus.badness ≤ worse.dataHealthStatus.badness
  fitness : input.fitnessStatus.badness ≤ worse.fitnessStatus.badness

variable {input worse : GuardianInput} {factUids factUids' : List (String × Uid)}

/-- The Guardian is not paused when the data are usable and no metric is missing. -/
theorem paused_eq_false_iff : input.paused = false ↔
    input.availabilityState = "AVAILABLE" ∧ input.dataHealthStatus.badness ≤ 1 ∧
      input.fitnessStatus.badness ≤ 1 ∧
        ∀ code ∈ guardianCodes, ∃ value, input.metrics.lookup code = some value := by
  have hmissing : factsMissing input.metrics = false ↔
      ∀ code ∈ guardianCodes, ∃ value, input.metrics.lookup code = some value := by
    rw [← Bool.not_eq_true, factsMissing_iff]
    simp only [not_exists, not_and, ← Option.isSome_iff_exists, ← Option.ne_none_iff_isSome, ne_eq]
  rw [paused, Bool.or_eq_false_iff, hmissing, qualityUnavailable, decide_eq_false_iff_not]
  cases input.dataHealthStatus <;> cases input.fitnessStatus <;>
    simp [DataHealthStatus.badness, FitnessStatus.badness]

theorem limited_iff : input.limited = true ↔
    input.dataHealthStatus.badness = 1 ∨ input.fitnessStatus.badness = 1 := by
  rw [limited, qualityLimited, decide_eq_true_iff]
  cases input.dataHealthStatus <;> cases input.fitnessStatus <;>
    simp [DataHealthStatus.badness, FitnessStatus.badness]

/-- An input is not paused when a worse one is not. -/
theorem Worsens.not_paused (h : input.Worsens worse) (hworse : worse.paused = false) :
    input.paused = false := by
  obtain ⟨havailable, hhealth, hfitness, hpresent⟩ := paused_eq_false_iff.mp hworse
  refine paused_eq_false_iff.mpr ⟨h.availability havailable, h.health.trans hhealth,
    h.fitness.trans hfitness, fun code hcode => ?_⟩
  obtain ⟨value, hvalue⟩ := hpresent code hcode
  obtain ⟨v, hv, -⟩ := h.metrics code value hvalue
  exact ⟨v, hv⟩

/-- Limits stay on a worse input that is not paused. -/
theorem Worsens.limited (h : input.Worsens worse) (hworse : worse.paused = false)
    (hlimited : input.limited = true) : worse.limited = true := by
  obtain ⟨-, hhealth, hfitness, -⟩ := paused_eq_false_iff.mp hworse
  have hle := h.health
  have hle' := h.fitness
  rw [limited_iff] at hlimited ⊢
  omega

/-- What the limits add to a list, they add on a worse input that is not paused. -/
theorem Worsens.limitation_subset (h : input.Worsens worse) (hworse : worse.paused = false)
    {α : Type} (limitation : List α) :
    (if input.limited then limitation else []) ⊆ (if worse.limited then limitation else []) := by
  cases hlimited : input.limited with
  | true => rw [h.limited hworse hlimited, if_pos rfl]; exact List.Subset.refl _
  | false => exact List.nil_subset _

/-- The rules met stay met on a worse input that is not paused. -/
theorem Worsens.metRules_subset (h : input.Worsens worse) (hworse : worse.paused = false) :
    metRules input.metrics input.thresholds ⊆ metRules worse.metrics worse.thresholds := by
  intro rule hrule
  obtain ⟨hmem, hmet⟩ := List.mem_filter.mp hrule
  refine List.mem_filter.mpr ⟨hmem, ?_⟩
  have hcode := mem_guardianCodes hmem
  obtain ⟨value, hvalue⟩ := (paused_eq_false_iff.mp hworse).2.2.2 rule.code hcode
  obtain ⟨v, hv, hle⟩ := h.metrics rule.code value hvalue
  have hthreshold := h.thresholds rule.code hcode
  rw [hv, Option.any_some, decide_eq_true_iff] at hmet
  rw [hvalue, Option.any_some, decide_eq_true_iff]
  omega

variable (factUids) in
/-- A paused input has the strongest decision. -/
theorem decision_of_paused (h : input.paused = true) :
    (input.decision factUids).guardianEffect = .pause ∧
      (input.decision factUids).maxSeverity = .critical := by
  rw [decision, guardianDecision_of_unavailable h]
  exact ⟨rfl, rfl⟩

variable (factUids) in
/-- An input that is not paused is decided by its limits and the rules met. -/
theorem decision_of_not_paused (h : input.paused = false) :
    (input.decision factUids).guardianEffect =
        strongestEffect ((if input.limited then [.allowWithWarning] else []) ++
          (metRules input.metrics input.thresholds).map GuardianRule.effect) ∧
      (input.decision factUids).maxSeverity =
        MarketMonitor.maxSeverity ((if input.limited then [dataLimitation false false] else []) ++
          (metRules input.metrics input.thresholds).map fun rule =>
            rule.finding (factUids.lookup rule.code)) := by
  rw [decision, guardianDecision_of_available h]
  exact ⟨rfl, rfl⟩

end GuardianInput

open GuardianInput in
/-- On an input that is at least as bad the effect is at least as restrictive, and the
severity is not lower. -/
theorem guardian_decision_monotone {input worse : GuardianInput}
    {factUids factUids' : List (String × Uid)} (h : input.Worsens worse) :
    (input.decision factUids).guardianEffect.order ≤
        (worse.decision factUids').guardianEffect.order ∧
      (input.decision factUids).maxSeverity.order ≤
        (worse.decision factUids').maxSeverity.order := by
  cases hworse : worse.paused with
  | true =>
    obtain ⟨heffect, hseverity⟩ := decision_of_paused factUids' hworse
    rw [heffect, hseverity]
    exact ⟨GuardianEffect.order_le_pause _, Severity.order_le_critical _⟩
  | false =>
    obtain ⟨heffect, hseverity⟩ := decision_of_not_paused factUids
      (h.not_paused hworse)
    obtain ⟨heffect', hseverity'⟩ := decision_of_not_paused factUids' hworse
    have hmet := h.metRules_subset hworse
    rw [heffect, hseverity, heffect', hseverity']
    constructor
    · refine strongestEffect_mono fun e he => ?_
      rcases List.mem_append.mp he with he | he
      · exact ⟨e, List.mem_append_left _ (h.limitation_subset hworse _ he), le_rfl⟩
      · obtain ⟨rule, hrule, rfl⟩ := List.mem_map.mp he
        exact ⟨_, List.mem_append_right _ (List.mem_map_of_mem (hmet hrule)), le_rfl⟩
    · refine maxSeverity_mono fun r hr => ?_
      rcases List.mem_append.mp hr with hr | hr
      · exact ⟨r, List.mem_append_left _ (h.limitation_subset hworse _ hr), le_rfl⟩
      · obtain ⟨rule, hrule, rfl⟩ := List.mem_map.mp hr
        exact ⟨_, List.mem_append_right _ (List.mem_map_of_mem (hmet hrule)), le_rfl⟩

/-- An input with every metric at zero. -/
def quietInput : GuardianInput where
  metrics := guardianCodes.map fun code => (code, 0)
  thresholds := sampleThresholds .guardian
  availabilityState := "AVAILABLE"
  dataHealthStatus := .healthy
  fitnessStatus := .fit

theorem degraded_quality_warns :
    (quietInput.decision []).guardianEffect.order ≤
        (({ quietInput with dataHealthStatus := .degraded } : GuardianInput).decision
          []).guardianEffect.order ∧
      (quietInput.decision []).maxSeverity.order ≤
        (({ quietInput with dataHealthStatus := .degraded } : GuardianInput).decision
          []).maxSeverity.order :=
  guardian_decision_monotone ⟨fun _ value h => ⟨value, h, le_rfl⟩, fun _ _ => le_rfl, id,
    by decide, le_rfl⟩

end MarketMonitor
