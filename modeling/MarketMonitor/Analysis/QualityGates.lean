import MarketMonitor.Library.Rounding
import MarketMonitor.Analysis.MarketMetrics

/-!
# The gates of metric quality

When an input is fit and when it is unfit, as conditions on its members, coverages and
gates, and why better data never lowers the fitness : every condition is monotone, the
quote coverage because division rounds monotonically.
-/

namespace MarketMonitor

open Decimal

/-! ## The conditions -/

/-- The phase can be evaluated. -/
def MetricInput.EvaluablePhase (metricInput : MetricInput) : Prop :=
  metricInput.marketPhase ∈ ["CONTINUOUS_AM", "CONTINUOUS_PM"] ∨
    (metricInput.marketPhase = "CLOSED" ∧ metricInput.isFinalTradingSnapshot = true)

instance (metricInput : MetricInput) : Decidable metricInput.EvaluablePhase :=
  inferInstanceAs (Decidable (_ ∨ _))

/-- The phase, complete-minute and provider-capability gates hold. -/
def MetricInput.GatesHold (metricInput : MetricInput) : Prop :=
  metricInput.EvaluablePhase ∧ metricInput.hasCompleteMinute = true ∧
    metricInput.providerCapabilityFit = true

/-- The share of the active sector members that have a valid quote. -/
def MetricInput.quoteCoverage (metricInput : MetricInput) : Decimal :=
  if metricInput.activeSector.length = 0 then zero
  else ofInt metricInput.validSector.length / ofInt metricInput.activeSector.length

theorem not_lt_iff_le {x y : Decimal} : ¬x < y ↔ y ≤ x := not_not

theorem ite_singleton_eq_nil {p : Bool} {code : String} :
    (if p = true then [code] else []) = [] ↔ p = false := by
  cases p <;> simp

/-- The cascade of `_quality`. -/
theorem metricQuality_fitness (metricInput : MetricInput) :
    metricInput.quality.fitnessStatus =
      if ¬metricInput.EvaluablePhase ∨ ¬metricInput.hasCompleteMinute = true then .unfit
      else if ¬(metricInput.activeSector.length ≠ 0 ∧
          hundredths 70 ≤ metricInput.quoteCoverage ∧ 3 ≤ metricInput.validSector.length ∧
          hundredths 70 ≤ metricInput.historicalCoverage ∧
          metricInput.providerCapabilityFit = true) then .unfit
      else if ¬(hundredths 85 ≤ metricInput.quoteCoverage ∧
          hundredths 80 ≤ metricInput.historicalCoverage ∧
          metricInput.providerCapabilityLimited = false ∧ metricInput.contextFit = true ∧
          5 ≤ metricInput.validSector.length) then .fitWithLimitations
      else .fit := by
  unfold MetricInput.quality metricQuality MetricInput.EvaluablePhase MetricInput.quoteCoverage
  dsimp only
  generalize (if metricInput.activeSector.length = 0 then zero else
    ofInt metricInput.validSector.length / ofInt metricInput.activeSector.length) = coverage
  generalize metricInput.activeSector.length = denominator
  generalize metricInput.validSector.length = valid
  simp only [apply_ite MetricQuality.fitnessStatus, ne_eq, List.append_eq_nil_iff,
    ite_singleton_eq_nil, decide_eq_false_iff_not, Bool.not_eq_false', not_lt_iff_le, Nat.not_lt,
    and_assoc]

theorem length_validSector_le (metricInput : MetricInput) :
    metricInput.validSector.length ≤ metricInput.activeSector.length :=
  List.length_filter_le _ _

/-- An input is unfit as soon as a gate fails or a floor is missed. -/
theorem quality_unfit_iff (metricInput : MetricInput) :
    metricInput.quality.fitnessStatus = .unfit ↔
      ¬metricInput.GatesHold ∨ metricInput.validSector.length < 3 ∨
        metricInput.quoteCoverage < hundredths 70 ∨
        metricInput.historicalCoverage < hundredths 70 := by
  have hle := length_validSector_le metricInput
  rw [metricQuality_fitness, MetricInput.GatesHold]
  by_cases hphase : ¬metricInput.EvaluablePhase ∨ ¬metricInput.hasCompleteMinute = true
  · rw [if_pos hphase, eq_self, true_iff]
    exact .inl fun hgates => hphase.elim (· hgates.1) (· hgates.2.1)
  rw [if_neg hphase]
  obtain ⟨hevaluable, hcomplete⟩ : metricInput.EvaluablePhase ∧
      metricInput.hasCompleteMinute = true := by
    rwa [not_or, not_not, not_not] at hphase
  split
  case isTrue hfloor =>
    rw [eq_self, true_iff]
    by_contra hno
    simp only [not_or, not_not, not_lt, not_lt_iff_le] at hno
    obtain ⟨⟨-, -, hprovider⟩, hvalid, hcoverage, hhistory⟩ := hno
    exact hfloor ⟨by omega, hcoverage, hvalid, hhistory, hprovider⟩
  case isFalse hfloor =>
    obtain ⟨-, hcoverage, hvalid, hhistory, hprovider⟩ := not_not.mp hfloor
    have hno : ¬(¬(metricInput.EvaluablePhase ∧ metricInput.hasCompleteMinute = true ∧
        metricInput.providerCapabilityFit = true) ∨ metricInput.validSector.length < 3 ∨
        metricInput.quoteCoverage < hundredths 70 ∨
        metricInput.historicalCoverage < hundredths 70) := by
      simp only [not_or, not_not, not_lt, not_lt_iff_le]
      exact ⟨⟨hevaluable, hcomplete, hprovider⟩, hvalid, hcoverage, hhistory⟩
    rw [iff_false_right hno]
    split <;> exact fun h => nomatch h

theorem hundredths_mono {m n : ℤ} (h : m ≤ n) {x : Decimal} (hx : hundredths n ≤ x) :
    hundredths m ≤ x := by
  rw [le_iff_toRat_le] at hx ⊢
  refine le_trans ?_ hx
  have hcast : (m : ℚ) ≤ n := by exact_mod_cast h
  exact mul_le_mul_of_nonneg_right hcast (by positivity)

/-- An input is fit when every gate holds and nothing limits it. -/
theorem quality_fit_iff (metricInput : MetricInput) :
    metricInput.quality.fitnessStatus = .fit ↔
      metricInput.GatesHold ∧ 5 ≤ metricInput.validSector.length ∧
        hundredths 85 ≤ metricInput.quoteCoverage ∧
        hundredths 80 ≤ metricInput.historicalCoverage ∧
        metricInput.providerCapabilityLimited = false ∧ metricInput.contextFit = true := by
  have hle := length_validSector_le metricInput
  rw [metricQuality_fitness, MetricInput.GatesHold]
  constructor
  · intro h
    split at h
    · cases h
    rename_i hphase
    split at h
    · cases h
    rename_i hfloor
    split at h
    · cases h
    rename_i hlimit
    rw [not_or, not_not, not_not] at hphase
    obtain ⟨-, -, -, -, hprovider⟩ := not_not.mp hfloor
    obtain ⟨hcoverage, hhistory, hlimited, hcontext, hvalid⟩ := not_not.mp hlimit
    exact ⟨⟨hphase.1, hphase.2, hprovider⟩, hvalid, hcoverage, hhistory, hlimited, hcontext⟩
  · rintro ⟨⟨hevaluable, hcomplete, hprovider⟩, hvalid, hcoverage, hhistory, hlimited, hcontext⟩
    rw [if_neg (not_or.mpr ⟨not_not.mpr hevaluable, not_not.mpr hcomplete⟩),
      if_neg (not_not.mpr ⟨by omega, hundredths_mono (by norm_num) hcoverage, by omega,
        hundredths_mono (by norm_num) hhistory, hprovider⟩),
      if_neg (not_not.mpr ⟨hcoverage, hhistory, hlimited, hcontext, hvalid⟩)]

/-! ## The quote coverage -/

theorem toRat_quoteCoverage (metricInput : MetricInput) :
    metricInput.quoteCoverage.toRat =
      rounded ((metricInput.validSector.length : ℚ) / metricInput.activeSector.length) := by
  rw [MetricInput.quoteCoverage]
  split
  case isTrue h => simp [h, rounded_zero, zero, toRat_ofInt]
  case isFalse h =>
    rw [toRat_div _ (by simpa [ofInt] using h), toRat_ofInt, toRat_ofInt, Int.cast_natCast,
      Int.cast_natCast]

/-- With as many active members, more valid ones do not lower the coverage. -/
theorem quoteCoverage_mono {a b : MetricInput}
    (hactive : a.activeSector.length = b.activeSector.length)
    (hvalid : a.validSector.length ≤ b.validSector.length) :
    a.quoteCoverage ≤ b.quoteCoverage := by
  rw [le_iff_toRat_le, toRat_quoteCoverage, toRat_quoteCoverage, hactive]
  refine rounded_mono (div_le_div_of_nonneg_right ?_ (Nat.cast_nonneg _))
  exact_mod_cast hvalid

/-- Rounding moves no coverage of a sector of this size over a threshold. -/
theorem hundredths_le_quoteCoverage_iff {n : ℕ} (hn : n < 10 ^ 28) {metricInput : MetricInput}
    (hpos : 0 < metricInput.activeSector.length)
    (hsize : metricInput.activeSector.length < 10 ^ 25) :
    hundredths n ≤ metricInput.quoteCoverage ↔
      n * metricInput.activeSector.length ≤ 100 * metricInput.validSector.length := by
  have hle := length_validSector_le metricInput
  have hthreshold : (hundredths n).toRat = n / 100 := by
    rw [toRat, hundredths, Int.cast_natCast, zpow_neg, ← div_eq_mul_inv]
    norm_num
  have hself : rounded (n / 100 : ℚ) = n / 100 := by
    have hfix : (hundredths n).toRat = (n : ℤ) * 10 ^ (-2 : ℤ) := rfl
    rw [← hthreshold, hfix]
    exact rounded_eq_self (by rw [Nat.abs_cast]; exact_mod_cast hn)
  rw [le_iff_toRat_le, toRat_quoteCoverage, hthreshold]
  generalize metricInput.activeSector.length = active at *
  generalize metricInput.validSector.length = valid at *
  have hactive : (0 : ℚ) < active := by exact_mod_cast hpos
  have hratio : (n / 100 : ℚ) ≤ valid / active ↔ n * active ≤ 100 * valid := by
    rw [div_le_div_iff₀ (by norm_num) hactive, mul_comm (valid : ℚ)]
    exact_mod_cast Iff.rfl
  rw [← hratio]
  refine ⟨fun h => ?_, fun h => hself ▸ rounded_mono h⟩
  by_contra hlt
  -- A ratio below the threshold is further from it than a rounding moves it.
  have hgap : (n / 100 : ℚ) - valid / active ≥ 1 / (100 * active) := by
    have hint : 100 * valid + 1 ≤ n * active := by
      rw [hratio] at hlt
      omega
    have hint : (100 * valid + 1 : ℚ) ≤ n * active := by exact_mod_cast hint
    rw [ge_iff_le, div_sub_div _ _ (by norm_num) hactive.ne',
      div_le_div_iff_of_pos_right (by positivity)]
    linarith
  have herror := (abs_le.mp (abs_rounded_sub_le ((valid : ℚ) / active))).2
  have hone : (valid : ℚ) / active ≤ 1 := (div_le_one hactive).mpr (by exact_mod_cast hle)
  have hsmall : |(valid : ℚ) / active| / (2 * 10 ^ 27) < 1 / (100 * active) := by
    rw [abs_of_nonneg (by positivity), div_lt_div_iff₀ (by positivity) (by positivity)]
    have hsize : (active : ℚ) < 10 ^ 25 := by exact_mod_cast hsize
    nlinarith
  linarith

/-! ## Better data -/

/-- The input with the quote and the bars of one primary member replaced. -/
def MetricInput.withMember (metricInput : MetricInput) (member : MetricMember) : MetricInput :=
  let replace (m : MetricMember) := if m.instrumentUid = member.instrumentUid then member else m
  have huids : (metricInput.primaryMembers.map replace).map MetricMember.instrumentUid =
      metricInput.primaryMembers.map MetricMember.instrumentUid := by
    rw [List.map_map]
    refine List.map_congr_left fun m _ => ?_
    simp only [Function.comp_apply, replace]
    split
    · rename_i h
      exact h.symm
    · rfl
  { metricInput with
    primaryMembers := metricInput.primaryMembers.map replace
    primaryUnique := huids ▸ metricInput.primaryUnique
    sectorPrimary := fun uid huid => huids ▸ metricInput.sectorPrimary uid huid }

/-- One change for the better : an active sector member gets a valid quote, the history is
covered further, or a limitation of the provider or of the context is lifted. -/
inductive BetterData : MetricInput → MetricInput → Prop
  | validQuote (metricInput : MetricInput) (member repaired : MetricMember)
      (hmember : member ∈ metricInput.primaryMembers)
      (hsector : member.instrumentUid ∈ metricInput.sectorMemberUids)
      (huid : repaired.instrumentUid = member.instrumentUid)
      (hactive : member.suspended = false) (hactive' : repaired.suspended = false)
      (hinvalid : member.validQuote = false) (hvalid : repaired.validQuote = true) :
      BetterData metricInput (metricInput.withMember repaired)
  | historicalCoverage (metricInput : MetricInput) (coverage : Decimal)
      (hraised : metricInput.historicalCoverage ≤ coverage)
      (hbounds : zero ≤ coverage ∧ coverage ≤ one) :
      BetterData metricInput
        { metricInput with historicalCoverage := coverage, coverageBounds := hbounds }
  | providerFit (metricInput : MetricInput) (h : metricInput.providerCapabilityFit = false) :
      BetterData metricInput { metricInput with providerCapabilityFit := true }
  | providerUnlimited (metricInput : MetricInput)
      (h : metricInput.providerCapabilityLimited = true) :
      BetterData metricInput { metricInput with providerCapabilityLimited := false }
  | contextFit (metricInput : MetricInput) (h : metricInput.contextFit = false) :
      BetterData metricInput { metricInput with contextFit := true }

/-- From `FIT` towards `UNFIT`. -/
def MetricFitness.rank : MetricFitness → ℕ
  | .fit => 0
  | .fitWithLimitations => 1
  | .unfit => 2

/-- The members of the sector after one was replaced. -/
theorem activeSector_withMember {metricInput : MetricInput} {member repaired : MetricMember}
    (hmember : member ∈ metricInput.primaryMembers)
    (huid : repaired.instrumentUid = member.instrumentUid)
    (hactive : member.suspended = false) (hactive' : repaired.suspended = false) :
    (metricInput.withMember repaired).activeSector = metricInput.activeSector.map fun m =>
      if m.instrumentUid = repaired.instrumentUid then repaired else m := by
  have hfind (uid : Uid) : (metricInput.withMember repaired).primaryMembers.find?
      (fun m => m.instrumentUid = uid) =
        (metricInput.primaryMembers.find? fun m => m.instrumentUid = uid).map fun m =>
          if m.instrumentUid = repaired.instrumentUid then repaired else m := by
    rw [MetricInput.withMember, List.find?_map]
    congr 2
    funext m
    simp only [Function.comp_apply]
    split
    · rename_i h
      rw [h]
    · rfl
  have hsuspended (m : MetricMember) (hm : m ∈ metricInput.primaryMembers) :
      (if m.instrumentUid = repaired.instrumentUid then repaired else m).suspended =
        m.suspended := by
    split
    · rename_i h
      have hsame : m = member := List.inj_on_of_nodup_map metricInput.primaryUnique hm hmember
        (h.trans huid)
      rw [hactive', hsame, hactive]
    · rfl
  unfold MetricInput.activeSector
  simp only [hfind]
  rw [← List.map_filterMap, List.filter_map]
  congr 1
  refine List.filter_congr fun m hm => ?_
  obtain ⟨uid, -, hfound⟩ := List.mem_filterMap.mp hm
  rw [Function.comp_apply, hsuspended m (List.mem_of_find?_eq_some hfound)]

/-- No condition of an improved input is worse. -/
structure NoWorse (a b : MetricInput) : Prop where
  gates : a.GatesHold → b.GatesHold
  valid : a.validSector.length ≤ b.validSector.length
  coverage : a.quoteCoverage ≤ b.quoteCoverage
  history : a.historicalCoverage ≤ b.historicalCoverage
  unlimited : a.providerCapabilityLimited = false → b.providerCapabilityLimited = false
  context : a.contextFit = true → b.contextFit = true

/-- Data that are no worse are no less fit. -/
theorem NoWorse.rank_le {a b : MetricInput} (h : NoWorse a b) :
    b.quality.fitnessStatus.rank ≤ a.quality.fitnessStatus.rank := by
  have htrans {x y z : Decimal} (hxy : x ≤ y) (hyz : y ≤ z) : x ≤ z :=
    le_iff_toRat_le.mpr ((le_iff_toRat_le.mp hxy).trans (le_iff_toRat_le.mp hyz))
  have hfit : a.quality.fitnessStatus = .fit → b.quality.fitnessStatus = .fit := by
    rw [quality_fit_iff, quality_fit_iff]
    rintro ⟨hgates, hvalid, hcoverage, hhistory, hlimited, hcontext⟩
    exact ⟨h.gates hgates, hvalid.trans h.valid, htrans hcoverage h.coverage,
      htrans hhistory h.history, h.unlimited hlimited, h.context hcontext⟩
  have hunfit : b.quality.fitnessStatus = .unfit → a.quality.fitnessStatus = .unfit := by
    rw [quality_unfit_iff, quality_unfit_iff]
    rintro (hgates | hvalid | hcoverage | hhistory)
    · exact .inl (mt h.gates hgates)
    · exact .inr (.inl (h.valid.trans_lt hvalid))
    · exact .inr (.inr (.inl fun hle => hcoverage (htrans hle h.coverage)))
    · exact .inr (.inr (.inr fun hle => hhistory (htrans hle h.history)))
  cases ha : a.quality.fitnessStatus with
  | fit => rw [hfit ha]
  | unfit => cases b.quality.fitnessStatus <;> decide
  | fitWithLimitations =>
    cases hb : b.quality.fitnessStatus with
    | unfit => rw [hunfit hb] at ha; cases ha
    | fit => decide
    | fitWithLimitations => decide

theorem decimal_le_refl (x : Decimal) : x ≤ x := le_iff_toRat_le.mpr le_rfl

/-- A repaired quote leaves the members counted and adds to the valid ones. -/
theorem noWorse_withMember {metricInput : MetricInput} {member repaired : MetricMember}
    (hmember : member ∈ metricInput.primaryMembers)
    (huid : repaired.instrumentUid = member.instrumentUid)
    (hactive : member.suspended = false) (hactive' : repaired.suspended = false)
    (hvalid : repaired.validQuote = true) :
    NoWorse metricInput (metricInput.withMember repaired) := by
  have hsector := activeSector_withMember hmember huid hactive hactive'
  have hcount : metricInput.validSector.length ≤
      (metricInput.withMember repaired).validSector.length := by
    unfold MetricInput.validSector
    rw [hsector, ← List.countP_eq_length_filter, ← List.countP_eq_length_filter, List.countP_map]
    refine List.countP_mono_left fun m _ hm => ?_
    rw [Function.comp_apply]
    split
    · exact hvalid
    · exact hm
  exact ⟨id, hcount, quoteCoverage_mono (by rw [hsector, List.length_map]) hcount,
    decimal_le_refl _, id, id⟩

/-- Better data are no worse. -/
theorem BetterData.noWorse {a b : MetricInput} (h : BetterData a b) : NoWorse a b := by
  cases h with
  | validQuote member repaired hmember _ huid hactive hactive' _ hvalid =>
    exact noWorse_withMember hmember huid hactive hactive' hvalid
  | historicalCoverage coverage hraised =>
    exact ⟨id, le_rfl, decimal_le_refl _, hraised, id, id⟩
  | providerFit h =>
    exact ⟨fun hgates => ⟨hgates.1, hgates.2.1, rfl⟩, le_rfl, decimal_le_refl _,
      decimal_le_refl _, id, id⟩
  | providerUnlimited h =>
    exact ⟨id, le_rfl, decimal_le_refl _, decimal_le_refl _, fun _ => rfl, id⟩
  | contextFit h =>
    exact ⟨id, le_rfl, decimal_le_refl _, decimal_le_refl _, id, fun _ => rfl⟩

/-! ## Fitness -/

/-- Better data never worsens the fitness of an evaluation, which is fit and unfit exactly
under the conditions of the specification. Their quote coverage is a quotient of 28 digits,
and crosses the two thresholds with the exact one. -/
theorem fitness_of_evaluation (producer : MarketMetricProducer) :
    (∀ a b, BetterData a b →
      (producer.evaluate b).quality.fitnessStatus.rank ≤
        (producer.evaluate a).quality.fitnessStatus.rank) ∧
    (∀ metricInput : MetricInput,
      ((producer.evaluate metricInput).quality.fitnessStatus = .fit ↔
        metricInput.GatesHold ∧ 5 ≤ metricInput.validSector.length ∧
          hundredths 85 ≤ metricInput.quoteCoverage ∧
          hundredths 80 ≤ metricInput.historicalCoverage ∧
          metricInput.providerCapabilityLimited = false ∧ metricInput.contextFit = true) ∧
      ((producer.evaluate metricInput).quality.fitnessStatus = .unfit ↔
        ¬metricInput.GatesHold ∨ metricInput.validSector.length < 3 ∨
          metricInput.quoteCoverage < hundredths 70 ∨
          metricInput.historicalCoverage < hundredths 70)) ∧
    ∀ metricInput : MetricInput, 0 < metricInput.activeSector.length →
      metricInput.activeSector.length < 10 ^ 25 →
      (hundredths 85 ≤ metricInput.quoteCoverage ↔
        85 * metricInput.activeSector.length ≤ 100 * metricInput.validSector.length) ∧
      (metricInput.quoteCoverage < hundredths 70 ↔
        100 * metricInput.validSector.length < 70 * metricInput.activeSector.length) := by
  refine ⟨fun _ _ h => h.noWorse.rank_le, fun metricInput =>
    ⟨quality_fit_iff metricInput, quality_unfit_iff metricInput⟩, fun metricInput hpos hsize =>
    ⟨hundredths_le_quoteCoverage_iff (by norm_num) hpos hsize, ?_⟩⟩
  rw [← not_le, ← hundredths_le_quoteCoverage_iff (by norm_num) hpos hsize]
  exact Iff.rfl

/-- Lifting a limitation of the provider from a sector of five members. -/
theorem fitness_of_unlimited_sample :
    (MarketMetricProducer.current.evaluate (sampleInput none false)).quality.fitnessStatus.rank ≤
      (MarketMetricProducer.current.evaluate (sampleInput none true)).quality.fitnessStatus.rank ∧
    (hundredths 85 ≤ (sampleInput none true).quoteCoverage ↔
      85 * (sampleInput none true).activeSector.length ≤
        100 * (sampleInput none true).validSector.length) :=
  ⟨(fitness_of_evaluation MarketMetricProducer.current).1 _ _
      (BetterData.providerUnlimited (sampleInput none true) rfl),
    ((fitness_of_evaluation MarketMetricProducer.current).2.2 (sampleInput none true)
      (by decide +kernel) (by decide +kernel)).1⟩

end MarketMonitor
