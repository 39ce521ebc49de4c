import Mathlib.Tactic.NormNum
import MarketMonitor.Analysis.CheckedProducer
import MarketMonitor.Analysis.QualityGates

/-!
# The producer is total and bounded

Every partial operation of the producer is guarded : a quotient by the sign of its divisor,
an index by the length of its list, a look up by the checks of the input, and a metric value
by `_ppm_value`, which stays within a million. Two operations no check guards : the conversion
of an observation's time to UTC, at the ends of the calendar, and the text of an integer of more
than 4300 digits.
-/

namespace MarketMonitor.Exact

open Faults
open Json (Printable Value intLimit)
open LocationStatistics (sorted length_sorted)

/-! ## Statistics -/

/-- A metric that is computed is within a million. -/
def InRange (value : Option ℤ) : Prop := ∀ ppm ∈ value, 0 ≤ ppm ∧ ppm ≤ 1000000

theorem inRange_complement {value : Option ℤ} (h : InRange value) :
    InRange (value.map fun ppm => 1000000 - ppm) := by
  intro ppm hppm
  obtain ⟨n, hn, rfl⟩ := Option.mem_map.mp hppm
  have := h n hn
  omega

theorem returns_none : Returns (pure none) InRange :=
  returns_pure fun _ h => (Option.not_mem_none _ h).elim

theorem returns_ppmValue (value : ℚ) : Returns (pure (some (ppmValue value))) InRange := by
  refine returns_pure fun ppm h => ?_
  obtain rfl := Option.mem_some_iff.mp h
  exact ppmValue_bounds value

theorem returns_linear (value : ℚ) {low high : ℚ} (h : low ≠ high) :
    Returns (linear value low high) fun _ => True :=
  (returns_quotient (sub_ne_zero.mpr h.symm)).bind fun _ _ => returns_pure trivial

theorem returns_fromPpm (value : ℤ) : Returns (fromPpm value) fun _ => True :=
  (returns_quotient (by norm_num)).mono fun _ _ => trivial

/-- The middle of a list that is not empty is in the list. -/
theorem returns_median (values : List ℚ) : Returns (median values) fun _ => True := by
  refine Returns.ite (fun _ => returns_pure trivial) fun hne => ?_
  have hlength : 0 < (sorted values).length := by
    rw [length_sorted]
    exact List.length_pos_iff.mpr hne
  refine Returns.ite (fun hodd => ?_) fun heven => ?_
  · exact (returns_item (by omega) (by omega)).bind fun _ _ => returns_pure trivial
  · refine (returns_item (by omega) (by omega)).bind fun low _ => ?_
    refine (returns_item (by omega) (by omega)).bind fun high _ => ?_
    exact (returns_quotient (by norm_num)).bind fun _ _ => returns_pure trivial

/-- The place of a percentile is between the ends of the list. -/
theorem truncate_bounds {position : ℚ} {n : ℕ} (hlow : 0 ≤ position) (hhigh : position ≤ n) :
    0 ≤ truncate position ∧ truncate position ≤ n := by
  rw [truncate, if_pos hlow]
  exact ⟨Int.floor_nonneg.mpr hlow, Int.floor_le_iff.mpr (by push_cast; linarith)⟩

/-- A percentile of some values returns. -/
theorem returns_percentile {values : List ℚ} (hne : values ≠ []) {proportion : ℚ}
    (hlow : 0 ≤ proportion) (hhigh : proportion ≤ 1) :
    Returns (percentile values proportion) fun _ => True := by
  obtain ⟨n, hn⟩ : ∃ n, values.length = n + 1 :=
    Nat.exists_eq_succ_of_ne_zero (List.length_pos_iff.mpr hne).ne'
  have hposition : 0 ≤ (n : ℚ) * proportion ∧ (n : ℚ) * proportion ≤ n :=
    ⟨by positivity, mul_le_of_le_one_right (Nat.cast_nonneg n) hhigh⟩
  obtain ⟨hplace, hplace'⟩ := truncate_bounds hposition.1 hposition.2
  have hlength : (values.length - 1 : ℚ) = n := by rw [hn]; push_cast; ring
  rw [percentile, hlength]
  refine (returns_item hplace (by omega)).bind fun low _ => ?_
  refine (returns_item (by omega) (by omega)).bind fun high _ => ?_
  exact returns_pure trivial

/-- The robust return always returns, if with no value. -/
theorem returns_robustReturn (values : List ℚ) :
    Returns (robustReturn values) fun _ => True := by
  refine Returns.ite (fun _ => returns_pure trivial) fun hne => ?_
  have hsorted : sorted values ≠ [] := by
    rw [← List.length_pos_iff, length_sorted]
    exact List.length_pos_iff.mpr hne
  have hlength : ((sorted values).length : ℚ) ≠ 0 := by
    exact_mod_cast (List.length_pos_iff.mpr hsorted).ne'
  refine Returns.ite (fun _ => returns_median _) fun _ => ?_
  refine (returns_percentile hsorted (by norm_num) (by norm_num)).bind fun lower _ => ?_
  refine (returns_percentile hsorted (by norm_num) (by norm_num)).bind fun upper _ => ?_
  exact (returns_quotient hlength).bind fun _ _ => returns_pure trivial

/-! ## Facts -/

theorem returns_returnOf (numerator denominator : Option ℚ) :
    Returns (returnOf numerator denominator) fun _ => True := by
  unfold returnOf
  split
  case h_1 n d =>
    refine Returns.ite (fun _ => returns_pure trivial) fun h => ?_
    have hd : d ≠ 0 := fun hzero => h (.inr hzero.le)
    exact (returns_quotient hd).bind fun _ _ => returns_pure trivial
  case h_2 => exact returns_pure trivial

theorem returns_ratio (numerator denominator : Option ℚ) :
    Returns (ratio numerator denominator) fun _ => True := by
  unfold ratio
  split
  case h_1 n d =>
    refine Returns.ite (fun _ => returns_pure trivial) fun h => ?_
    have hd : d ≠ 0 := fun hzero => h hzero.le
    exact (returns_quotient hd).bind fun _ _ => returns_pure trivial
  case h_2 => exact returns_pure trivial

theorem returns_memberFacts (member : MetricMember) :
    Returns (memberFacts member) fun _ => True := by
  refine (returns_returnOf _ _).bind fun _ _ => ?_
  refine (returns_returnOf _ _).bind fun _ _ => ?_
  refine (returns_returnOf _ _).bind fun _ _ => ?_
  refine (returns_returnOf _ _).bind fun _ _ => ?_
  exact returns_pure trivial

theorem returns_mapM_memberFacts (members : List MetricMember) :
    Returns (members.mapM memberFacts) fun _ => True :=
  (returns_mapM fun member _ => returns_memberFacts member).mono fun _ _ => trivial

theorem returns_returnAndBreadth (facts : List MemberFacts) (column : MemberFacts → Option ℚ) :
    Returns (returnAndBreadth facts column) fun _ => True := by
  unfold returnAndBreadth
  split
  case h_1 => exact returns_pure trivial
  case h_2 returns _ =>
    refine Returns.ite (fun _ => returns_pure trivial) fun _ => ?_
    refine (returns_robustReturn returns).bind fun _ _ => ?_
    exact (returns_ratio _ _).bind fun _ _ => returns_pure trivial

theorem returns_currentAmounts (facts : List MemberFacts) :
    Returns (currentAmounts facts) fun _ => True := by
  unfold currentAmounts
  split
  case h_1 => exact returns_pure trivial
  case h_2 => exact (returns_ratio _ _).bind fun _ _ => returns_pure trivial

/-- A window is looked up only at the members it has. -/
theorem returns_windowShare (uids : List Uid) (window : HistoricalSameClockWindow) :
    Returns (windowShare uids window) fun _ => True := by
  refine Returns.ite (fun _ => returns_pure trivial) fun hall => ?_
  have hentry : ∀ uid ∈ uids, ∃ amount, window.memberAmounts.lookup uid = some amount := by
    intro uid huid
    by_contra hnone
    refine hall (List.any_eq_true.mpr ⟨uid, huid, ?_⟩)
    cases hlookup : window.memberAmounts.lookup uid with
    | none => rfl
    | some amount => exact (hnone ⟨amount, hlookup⟩).elim
  have hcurrent : Returns (windowAmounts window uids) fun _ => True := by
    refine (returns_mapM (S := fun _ _ => True) fun uid huid => ?_).mono fun _ _ => trivial
    obtain ⟨amount, hamount⟩ := hentry uid huid
    exact (returns_entry hamount).bind fun _ _ => returns_pure trivial
  refine hcurrent.bind fun current _ => Returns.ite (fun _ => returns_pure trivial) fun h => ?_
  exact (returns_quotient (not_le.mp h).ne').bind fun _ _ => returns_pure trivial

theorem returns_historicalBaselines (windows : List HistoricalSameClockWindow)
    (facts : List MemberFacts) : Returns (historicalBaselines windows facts) fun _ => True := by
  refine Returns.ite (fun _ => returns_pure trivial) fun _ => ?_
  refine (returns_mapM fun window _ => returns_windowShare _ window).bind fun shares _ => ?_
  refine Returns.ite (fun _ => returns_pure trivial) fun _ => ?_
  refine (returns_median _).bind fun _ _ => ?_
  exact (returns_median _).bind fun _ _ => returns_pure trivial

theorem returns_headShare (facts : List MemberFacts) :
    Returns (headShare facts) fun _ => True := by
  unfold headShare
  split
  case h_1 => exact returns_pure trivial
  case h_2 amounts _ =>
    refine Returns.ite (fun _ => returns_pure trivial) fun h => ?_
    exact (returns_quotient (not_le.mp h).ne').bind fun _ _ => returns_pure trivial

theorem returns_coreStats (facts : List MemberFacts) :
    Returns (coreStats facts) fun _ => True := by
  refine Returns.ite (fun _ => returns_pure trivial) fun _ => ?_
  refine (returns_robustReturn _).bind fun _ _ => ?_
  refine (returns_robustReturn _).bind fun _ _ => ?_
  exact (returns_ratio _ _).bind fun _ _ => returns_pure trivial

/-- `_calculate` gathers its facts whatever the members, windows and amounts are. -/
theorem returns_calculateFacts (metricInput : MetricInput) (validSector : List MetricMember) :
    Returns (calculateFacts metricInput validSector) fun _ => True := by
  refine (returns_mapM_memberFacts _).bind fun sectorFacts _ => ?_
  refine (returns_mapM_memberFacts _).bind fun marketFacts _ => ?_
  refine (returns_returnAndBreadth _ _).bind fun _ _ => ?_
  refine (returns_returnAndBreadth _ _).bind fun _ _ => ?_
  refine (returns_returnAndBreadth _ _).bind fun _ _ => ?_
  refine (returns_returnAndBreadth _ _).bind fun _ _ => ?_
  refine (returns_returnAndBreadth _ _).bind fun _ _ => ?_
  refine (returns_returnAndBreadth _ _).bind fun _ _ => ?_
  refine (returns_returnAndBreadth _ _).bind fun _ _ => ?_
  refine (returns_currentAmounts _).bind fun _ _ => ?_
  refine (returns_historicalBaselines _ _).bind fun _ _ => ?_
  refine (returns_ratio _ _).bind fun _ _ => ?_
  refine (returns_headShare _).bind fun _ _ => ?_
  refine (returns_coreStats _).bind fun _ _ => ?_
  exact returns_pure trivial

/-! ## Formulas -/

theorem returns_risingTooFast (current previous : Option ℚ) :
    Returns (risingTooFast current previous) InRange := by
  unfold risingTooFast
  split
  case h_1 =>
    refine (returns_linear _ (by norm_num)).bind fun speed _ => ?_
    refine (returns_linear _ (by norm_num)).bind fun gain _ => ?_
    exact returns_ppmValue _
  case h_2 => exact returns_none

/-- The metric returns a value in range, or none. -/
theorem returns_headConcentration (current baseline : Option ℚ) :
    Returns (headConcentration current baseline) InRange := by
  unfold headConcentration
  split
  case h_1 =>
    refine Returns.ite (fun _ => returns_none) fun hpos => ?_
    refine (returns_linear _ (by norm_num)).bind fun level _ => ?_
    refine (returns_quotient (not_le.mp hpos).ne').bind fun quotient _ => ?_
    refine (returns_linear _ (by norm_num)).bind fun growth _ => ?_
    exact returns_ppmValue _
  case h_2 => exact returns_none

theorem returns_oppositeShare (values : List ℚ) (sectorReturn : ℚ) :
    Returns (oppositeShare values sectorReturn) fun _ => True :=
  Returns.ite (fun _ => returns_pure trivial) fun _ => returns_ratio _ _

/-- So does the divergence of the members. -/
theorem returns_internalDivergence (facts : List MemberFacts) (sectorReturn : Option ℚ) :
    Returns (internalDivergence facts sectorReturn) InRange := by
  unfold internalDivergence
  split
  case h_2 => exact returns_none
  case h_1 sectorReturn values _ =>
  refine (returns_median _).bind fun center _ => ?_
  cases center with
  | none => exact returns_none
  | some center =>
  refine (returns_median _).bind fun dispersion _ => ?_
  cases dispersion with
  | none => exact returns_none
  | some dispersion =>
  refine (returns_oppositeShare _ _).bind fun opposite _ => ?_
  cases opposite with
  | none => exact returns_none
  | some opposite =>
    refine (returns_linear _ (by norm_num)).bind fun spread _ => ?_
    refine (returns_linear _ (by norm_num)).bind fun against _ => ?_
    exact returns_ppmValue _

theorem returns_crowding (rise : Option ℤ) (turnoverRatio : Option ℚ) (head : Option ℤ) :
    Returns (crowding rise turnoverRatio head) InRange := by
  unfold crowding
  split
  case h_1 =>
    refine (returns_linear _ (by norm_num)).bind fun turnover _ => ?_
    refine (returns_fromPpm _).bind fun rise _ => ?_
    refine (returns_fromPpm _).bind fun head _ => ?_
    exact returns_ppmValue _
  case h_2 => exact returns_none

/-- So does the liquidity. -/
theorem returns_liquidity (currentAmount previousAmount inactiveRatio : Option ℚ) :
    Returns (liquidity currentAmount previousAmount inactiveRatio) InRange := by
  unfold liquidity
  split
  case h_1 =>
    refine Returns.ite (fun _ => returns_none) fun hpos => ?_
    refine (returns_quotient (not_le.mp hpos).ne').bind fun quotient _ => ?_
    refine (returns_linear _ (by norm_num)).bind fun fall _ => ?_
    refine (returns_linear _ (by norm_num)).bind fun inactive _ => ?_
    exact returns_ppmValue _
  case h_2 => exact returns_none

theorem returns_coreWeakening (core : Option CoreStats) :
    Returns (coreWeakening core) InRange := by
  unfold coreWeakening
  split
  case h_1 =>
    refine (returns_linear _ (by norm_num)).bind fun gap _ => ?_
    refine (returns_linear _ (by norm_num)).bind fun falling _ => ?_
    exact returns_ppmValue _
  case h_2 => exact returns_none

theorem returns_breadthCollapse (current previous : Option ℚ) :
    Returns (breadthCollapse current previous) InRange := by
  unfold breadthCollapse
  split
  case h_1 =>
    refine (returns_linear _ (by norm_num)).bind fun fall _ => ?_
    refine (returns_linear _ (by norm_num)).bind fun low _ => ?_
    exact returns_ppmValue _
  case h_2 => exact returns_none

theorem returns_stampede (sectorReturn5m turnoverRatio : Option ℚ) (collapse : Option ℤ) :
    Returns (stampede sectorReturn5m turnoverRatio collapse) InRange := by
  unfold stampede
  split
  case h_1 =>
    refine (returns_linear _ (by norm_num)).bind fun fall _ => ?_
    refine (returns_linear _ (by norm_num)).bind fun turnover _ => ?_
    refine (returns_fromPpm _).bind fun collapse _ => ?_
    exact returns_ppmValue _
  case h_2 => exact returns_none

/-- So does the chasing of the day before. -/
theorem returns_t1Chasing (sectorReturnDay : Option ℚ) (rise crowded head : Option ℤ) :
    Returns (t1Chasing sectorReturnDay rise crowded head) InRange := by
  unfold t1Chasing
  split
  case h_1 =>
    refine (returns_linear _ (by norm_num)).bind fun day _ => ?_
    refine (returns_fromPpm _).bind fun rise _ => ?_
    refine (returns_fromPpm _).bind fun crowded _ => ?_
    refine (returns_fromPpm _).bind fun head _ => ?_
    exact returns_ppmValue _
  case h_2 => exact returns_none

/-- Evidence that is missing is not applicable, so the assertion holds. -/
theorem returns_earlyFailure (evidence : Option EarlyEvidence) (tradingDate : String)
    (sectorReturnDay breadth turnoverRatio : Option ℚ) :
    Returns (earlyFailure evidence tradingDate sectorReturnDay breadth turnoverRatio)
      InRange := by
  refine Returns.ite (fun _ => returns_none) fun happlicable => ?_
  have hsome : evidence.isSome := by
    cases evidence with
    | none => exact (happlicable (by simp [earlyApplicable])).elim
    | some evidence => rfl
  split
  case h_1 =>
    refine (returns_asserted hsome).bind fun evidence _ => ?_
    refine (returns_linear _ (by norm_num)).bind fun lost _ => ?_
    refine (returns_linear _ (by norm_num)).bind fun narrowed _ => ?_
    refine (returns_linear _ (by norm_num)).bind fun dried _ => ?_
    exact returns_ppmValue _
  case h_2 => exact returns_none

/-- So does the early activity. -/
theorem returns_earlyActivity (sectorReturn5m breadth5m turnoverRatio : Option ℚ) :
    Returns (earlyActivity sectorReturn5m breadth5m turnoverRatio) InRange := by
  unfold earlyActivity
  split
  case h_1 =>
    refine (returns_linear _ (by norm_num)).bind fun positiveStart _ => ?_
    refine (returns_linear _ (by norm_num)).bind fun overextended _ => ?_
    refine (returns_linear _ (by norm_num)).bind fun breadth _ => ?_
    refine (returns_linear _ (by norm_num)).bind fun turnover _ => ?_
    exact returns_ppmValue _
  case h_2 => exact returns_none

theorem returns_healthyBreadth (breadth5m : Option ℚ) (head : Option ℤ) :
    Returns (healthyBreadth breadth5m head) InRange := by
  unfold healthyBreadth
  split
  case h_1 =>
    refine (returns_linear _ (by norm_num)).bind fun breadth _ => ?_
    refine (returns_fromPpm _).bind fun head _ => ?_
    exact returns_ppmValue _
  case h_2 => exact returns_none

/-- The four assertions hold once none of the returns is missing. -/
theorem returns_relativeStrength (sector5m sector15m market5m market15m : Option ℚ) :
    Returns (relativeStrength sector5m sector15m market5m market15m) InRange := by
  refine Returns.ite (fun _ => returns_none) fun hpresent => ?_
  have hsome : ∀ value ∈ [sector5m, sector15m, market5m, market15m], value.isSome := by
    intro value hmem
    rw [Option.isSome_iff_ne_none]
    rintro rfl
    exact hpresent hmem
  refine (returns_asserted (hsome _ (by simp))).bind fun sector5m _ => ?_
  refine (returns_asserted (hsome _ (by simp))).bind fun sector15m _ => ?_
  refine (returns_asserted (hsome _ (by simp))).bind fun market5m _ => ?_
  refine (returns_asserted (hsome _ (by simp))).bind fun market15m _ => ?_
  refine (returns_linear _ (by norm_num)).bind fun short _ => ?_
  refine (returns_linear _ (by norm_num)).bind fun long _ => ?_
  exact returns_ppmValue _

theorem returns_turnoverConfirmation (turnoverRatio : Option ℚ) :
    Returns (turnoverConfirmation turnoverRatio) InRange := by
  cases turnoverRatio with
  | none => exact returns_none
  | some turnoverRatio =>
    exact (returns_linear _ (by norm_num)).bind fun turnover _ => returns_ppmValue _

/-- A formula of a context returns a value within a million. -/
def BoundedFormula (formula : ℚ → ℚ → Checked ℤ) : Prop :=
  ∀ contextReturn marketReturn, Returns (formula contextReturn marketReturn) fun ppm =>
    0 ≤ ppm ∧ ppm ≤ 1000000

theorem boundedFormula_etfConfirmation : BoundedFormula etfConfirmation := fun _ _ =>
  (returns_linear _ (by norm_num)).bind fun _ _ =>
    (returns_linear _ (by norm_num)).bind fun _ _ => returns_pure (ppmValue_bounds _)

theorem boundedFormula_styleSupport : BoundedFormula styleSupport := fun _ _ =>
  (returns_linear _ (by norm_num)).bind fun _ _ => returns_pure (ppmValue_bounds _)

/-! ## Continuity -/

theorem length_present {values : List (Option ℚ)} {qs : List ℚ} (h : present values = some qs) :
    qs.length = values.length := by
  induction values generalizing qs with
  | nil =>
    obtain rfl : [] = qs := by simpa [present] using h
    rfl
  | cons value values ih =>
    simp only [present, List.mapM_cons, id_eq, Option.bind_eq_bind, Option.bind_eq_some_iff,
      Option.pure_def, Option.some.injEq] at h
    obtain ⟨q, -, qs, hqs, rfl⟩ := h
    rw [List.length_cons, List.length_cons, ih hqs]

/-- A component of three observations returns. -/
theorem returns_continuityComponent {values : List ℚ} (hlength : values.length = 3)
    (positiveFloor tolerance : ℚ) :
    Returns (continuityComponent values positiveFloor tolerance) fun _ => True := by
  refine Returns.ite (fun _ => returns_pure trivial) fun _ => ?_
  refine (returns_item (by omega) (by omega)).bind fun second _ => ?_
  refine (returns_item (by omega) (by omega)).bind fun first _ => ?_
  refine (returns_item (by omega) (by omega)).bind fun third _ => ?_
  refine (returns_item (by omega) (by omega)).bind fun second' _ => ?_
  refine Returns.ite (fun _ => returns_pure trivial) fun _ => ?_
  refine Returns.ite (fun hone => ?_) fun _ => returns_pure trivial
  refine (returns_item (by omega) (by omega)).bind fun step _ => ?_
  refine (returns_item (by omega) (by omega)).bind fun first' _ => ?_
  refine (returns_item (by omega) (by omega)).bind fun third' _ => ?_
  exact Returns.ite (fun _ => returns_pure trivial) fun _ => returns_pure trivial

/-- So do the scores of three observations. -/
theorem returns_continuityScores {ordered : List ContinuityObservation}
    (hlength : ordered.length = 3)
    (components : List ((ContinuityObservation → Option Decimal) × ℚ × ℚ × ℚ)) :
    Returns (continuityScores ordered components) fun _ => True := by
  induction components with
  | nil => exact returns_pure trivial
  | cons component components ih =>
    obtain ⟨column, positiveFloor, tolerance, weight⟩ := component
    rw [continuityScores]
    split
    case h_1 => exact returns_pure trivial
    case h_2 values hvalues =>
      have hthree : values.length = 3 := by
        rw [length_present hvalues, List.length_map, hlength]
      refine (returns_continuityComponent hthree _ _).bind fun score _ => ?_
      exact ih.bind fun scores _ => returns_pure trivial

theorem length_ordered (observations : List ContinuityObservation) :
    (orderedContinuityObservations observations).length = observations.length :=
  List.length_insertionSort _ _

/-- The strengthening returns a value in range, or none. -/
theorem returns_continuityStrengthening (observations : List ContinuityObservation) :
    Returns (continuityStrengthening observations) InRange := by
  refine Returns.ite (fun _ => returns_none) fun hlength => ?_
  have hthree : (orderedContinuityObservations observations).length = 3 := by
    rw [length_ordered]
    exact not_not.mp hlength
  refine (returns_item_neg (by omega) (by omega)).bind fun last _ => ?_
  refine (returns_item (by omega) (by omega)).bind fun first _ => ?_
  refine Returns.ite (fun _ => returns_none) fun _ => ?_
  refine (returns_continuityScores hthree _).bind fun scores _ => ?_
  cases scores with
  | none => exact returns_none
  | some scores => exact returns_ppmValue _

/-! ## Values -/

/-- Every code has its value, under its own name. -/
def Filled (values : Values) : Prop :=
  ∀ code ∈ allCodes, ∃ result, values code = some ⟨code, result⟩

theorem Filled.set {values : Values} (h : Filled values) (code : String)
    (result : MetricResult) : Filled (values.set code ⟨code, result⟩) := by
  intro c hc
  unfold Values.set
  split
  case isTrue heq => exact ⟨result, by rw [heq]⟩
  case isFalse => exact h c hc

variable {values : Values}

theorem returns_setMissing (h : Filled values) (code : String) :
    Returns (values.setMissing code) Filled := ⟨_, rfl, h.set code .missing⟩

theorem returns_setNotApplicable (h : Filled values) (code : String) :
    Returns (values.setNotApplicable code) Filled := ⟨_, rfl, h.set code .notApplicable⟩

/-- The constructor of a value within a million raises nothing. -/
theorem returns_setPpm (h : Filled values) (code : String) {ppm : ℤ}
    (hppm : 0 ≤ ppm ∧ ppm ≤ 1000000) : Returns (values.setPpm code ppm) Filled := by
  refine ⟨values.set code ⟨code, .value ⟨ppm, hppm⟩⟩, ?_, h.set code _⟩
  rw [Values.setPpm, metricValue, dif_pos hppm]
  rfl

theorem returns_setValue (h : Filled values) (code : String) {value : Option ℤ}
    (hvalue : InRange value) : Returns (setValue values code value) Filled := by
  cases value with
  | none => exact returns_setMissing h code
  | some ppm => exact returns_setPpm h code (hvalue ppm rfl)

/-- Setting a value of the context keeps the values filled. -/
theorem returns_setContextValue (h : Filled values) (code : String)
    (context : Option ContextMetric) (market5m : Option ℚ) {formula : ℚ → ℚ → Checked ℤ}
    (hformula : BoundedFormula formula) :
    Returns (setContextValue values code context market5m formula) Filled := by
  unfold setContextValue
  split
  case h_1 => exact returns_setNotApplicable h code
  case h_2 =>
    split
    case h_1 => exact (hformula _ _).bind fun ppm hppm => returns_setPpm h code hppm
    case h_2 => exact returns_setMissing h code

theorem returns_missing :
    Returns (allCodes.mapM fun code => metricValue code .missing none)
      fun missing => missing = allCodes.map fun code => ⟨code, .missing⟩ :=
  ⟨_, List.mapM_pure, rfl⟩

/-- Missing values are filled. -/
theorem filled_missing : Filled fun code =>
    (allCodes.map fun code => (⟨code, .missing⟩ : MetricValue)).find?
      fun item => item.code = code := by
  intro code hcode
  refine ⟨.missing, ?_⟩
  have hmem : (⟨code, .missing⟩ : MetricValue) ∈
      allCodes.map fun code => (⟨code, .missing⟩ : MetricValue) := List.mem_map_of_mem hcode
  have hsome : ((allCodes.map fun code => (⟨code, .missing⟩ : MetricValue)).find?
      fun item => item.code = code).isSome :=
    List.find?_isSome.mpr ⟨_, hmem, decide_eq_true rfl⟩
  obtain ⟨item, hitem⟩ := Option.isSome_iff_exists.mp hsome
  obtain ⟨c, -, rfl⟩ := List.mem_map.mp (List.mem_of_find?_eq_some hitem)
  have hpred := List.find?_some hitem
  obtain rfl : c = code := of_decide_eq_true hpred
  exact hitem

/-- So are the empty values, which always return. -/
theorem returns_emptyValues (metricInput : MetricInput) :
    Returns (emptyValues metricInput) Filled := by
  refine returns_missing.bind fun missing hmissing => ?_
  have hfilled : Filled fun code => missing.find? fun item => item.code = code := by
    rw [hmissing]
    exact filled_missing
  have hetf := Returns.ite (p := metricInput.etfContext.isNone)
    (fun _ => returns_setNotApplicable hfilled "ETF_CONFIRMATION_PPM")
    (fun _ => returns_pure hfilled)
  refine hetf.bind fun values hvalues => ?_
  have hstyle := Returns.ite (p := metricInput.styleContext.isNone)
    (fun _ => returns_setNotApplicable hvalues "STYLE_SUPPORT_PPM")
    (fun _ => returns_pure hvalues)
  refine hstyle.bind fun values hvalues => ?_
  exact Returns.ite (fun _ => returns_pure hvalues) (fun _ => returns_setNotApplicable hvalues _)

/-- `_calculate` sets every metric to what its formula computes. -/
theorem returns_calculateValues (current : Bool) (metricInput : MetricInput) (facts : Facts) :
    Returns (calculateValues current metricInput facts) Filled := by
  refine (returns_emptyValues metricInput).bind fun values hvalues => ?_
  refine (returns_risingTooFast _ _).bind fun rise hrise => ?_
  refine (returns_headConcentration _ _).bind fun head hhead => ?_
  refine (returns_internalDivergence _ _).bind fun divergence hdivergence => ?_
  refine (returns_crowding _ _ _).bind fun crowded hcrowded => ?_
  refine (returns_liquidity _ _ _).bind fun liquid hliquid => ?_
  refine (returns_coreWeakening _).bind fun weakening hweakening => ?_
  refine (returns_breadthCollapse _ _).bind fun collapse hcollapse => ?_
  refine (returns_stampede _ _ _).bind fun rush hrush => ?_
  refine (returns_t1Chasing _ _ _ _).bind fun chasing hchasing => ?_
  refine (returns_earlyFailure _ _ _ _ _).bind fun failure hfailure => ?_
  refine (returns_setValue hvalues _ hrise).bind fun values hvalues => ?_
  refine (returns_setValue hvalues _ hhead).bind fun values hvalues => ?_
  refine (returns_setValue hvalues _ hdivergence).bind fun values hvalues => ?_
  refine (returns_setValue hvalues _ hcrowded).bind fun values hvalues => ?_
  refine (returns_setValue hvalues _ hliquid).bind fun values hvalues => ?_
  refine (returns_setValue hvalues _ hweakening).bind fun values hvalues => ?_
  refine (returns_setValue hvalues _ hcollapse).bind fun values hvalues => ?_
  refine (returns_setValue hvalues _ hrush).bind fun values hvalues => ?_
  refine (returns_setValue hvalues _ hchasing).bind fun values hvalues => ?_
  have hearly := Returns.ite
    (p := earlyApplicable metricInput.earlyEvidence metricInput.tradingDate)
    (fun _ => returns_setValue hvalues "EARLY_SIGNAL_FAILURE_PPM" hfailure)
    (fun _ => returns_pure hvalues)
  refine hearly.bind fun values hvalues => ?_
  refine (returns_earlyActivity _ _ _).bind fun activity hactivity => ?_
  refine (returns_setValue hvalues _ hactivity).bind fun values hvalues => ?_
  refine (returns_healthyBreadth _ _).bind fun breadth hbreadth => ?_
  refine (returns_setValue hvalues _ hbreadth).bind fun values hvalues => ?_
  refine (returns_relativeStrength _ _ _ _).bind fun strength hstrength => ?_
  refine (returns_setValue hvalues _ hstrength).bind fun values hvalues => ?_
  refine (returns_turnoverConfirmation _).bind fun turnover hturnover => ?_
  refine (returns_setValue hvalues _ hturnover).bind fun values hvalues => ?_
  refine (returns_setContextValue hvalues _ _ _ boundedFormula_etfConfirmation).bind
    fun values hvalues => ?_
  refine (returns_setContextValue hvalues _ _ _ boundedFormula_styleSupport).bind
    fun values hvalues => ?_
  refine (returns_setValue hvalues _ (inRange_complement hcrowded)).bind
    fun values hvalues => ?_
  refine Returns.ite (fun _ => ?_) (fun _ => returns_setMissing hvalues _)
  refine (returns_continuityStrengthening _).bind fun continuity hcontinuity => ?_
  exact returns_setValue hvalues _ hcontinuity

/-! ## Evidence -/

variable (text : ℚ → String)

theorem utcText_of_inCalendar {observedAt : AwareDatetime} (h : observedAt.InCalendar) :
    utcText observedAt = .ok (formatRfc3339 observedAt.utcMicros.toNat) := by
  rw [utcText, AwareDatetime.formatRfc3339, AwareDatetime.toUtc, if_pos h]
  rfl

theorem utcText_of_not_inCalendar {observedAt : AwareDatetime} (h : ¬observedAt.InCalendar) :
    utcText observedAt = .error .overflowError := by
  rw [utcText, AwareDatetime.formatRfc3339, AwareDatetime.toUtc, if_neg h]
  rfl

theorem printable_decimalText (value : Option ℚ) : Printable (decimalText text value) :=
  Json.printable_optional _

/-- An observation of a time with a date in UTC has evidence, whose one integer is its minute. -/
theorem returns_observationEvidence {o : ContinuityObservation} (h : o.observedAt.InCalendar) :
    Returns (observationEvidence text o) fun value =>
      o.marketMinuteIndex < intLimit ↔ Printable value := by
  rw [observationEvidence, utcText_of_inCalendar h]
  refine ⟨_, rfl, ?_⟩
  simp [printable_decimalText]

theorem observationEvidence_eq_error {o : ContinuityObservation} (h : ¬o.observedAt.InCalendar) :
    observationEvidence text o = .error .overflowError := by
  rw [observationEvidence, utcText_of_not_inCalendar h]
  rfl

theorem mem_ordered {observations : List ContinuityObservation} {o : ContinuityObservation} :
    o ∈ orderedContinuityObservations observations ↔ o ∈ observations :=
  List.mem_insertionSort _

theorem forall_mem_iff_of_forall₂ {α β : Type} {P : α → Prop} {Q : β → Prop} {as : List α}
    {bs : List β} (h : List.Forall₂ (fun a b => P a ↔ Q b) as bs) :
    (∀ a ∈ as, P a) ↔ ∀ b ∈ bs, Q b := by
  induction h with
  | nil => simp
  | cons hab _ ih => simp [hab, ih]

theorem returns_continuityEvidence {observations : List ContinuityObservation}
    (h : ∀ o ∈ observations, o.observedAt.InCalendar) :
    Returns (continuityEvidence text observations) fun value =>
      (∀ o ∈ observations, o.marketMinuteIndex < intLimit) ↔ Printable value := by
  refine (returns_mapM fun o ho => returns_observationEvidence text
    (h o (mem_ordered.mp ho))).bind fun values hvalues => returns_pure ?_
  rw [Json.printable_arr, ← forall_mem_iff_of_forall₂ hvalues]
  simp only [mem_ordered]

/-- The evidence of an observation outside of the calendar raises. -/
theorem continuityEvidence_eq_error {observations : List ContinuityObservation}
    (h : ∃ o ∈ observations, ¬o.observedAt.InCalendar) :
    continuityEvidence text observations = .error .overflowError := by
  have hmapM : (orderedContinuityObservations observations).mapM (observationEvidence text) =
      .error .overflowError := by
    refine mapM_eq_error (fun o _ => ?_) ?_
    · by_cases ho : o.observedAt.InCalendar
      · obtain ⟨value, hvalue, -⟩ := returns_observationEvidence text ho
        exact Or.inl ⟨value, hvalue⟩
      · exact Or.inr (observationEvidence_eq_error text ho)
    · obtain ⟨o, ho, hout⟩ := h
      exact ⟨o, mem_ordered.mpr ho, observationEvidence_eq_error text hout⟩
  rw [continuityEvidence, hmapM]
  rfl

/-- The current rule version meets an observation whose time has no date in UTC. -/
def Overflows (producer : MarketMetricProducer) (metricInput : MetricInput) : Prop :=
  producer.isCurrent = true ∧
    ∃ o ∈ metricInput.continuityObservations, ¬o.observedAt.InCalendar

/-- The current rule version meets an observation whose minute has too many digits. -/
def LongMinute (producer : MarketMetricProducer) (metricInput : MetricInput) : Prop :=
  producer.isCurrent = true ∧
    ∃ o ∈ metricInput.continuityObservations, intLimit ≤ o.marketMinuteIndex

theorem not_longMinute_iff {producer : MarketMetricProducer} {metricInput : MetricInput}
    (hcurrent : producer.isCurrent = true) : ¬LongMinute producer metricInput ↔
      ∀ o ∈ metricInput.continuityObservations, o.marketMinuteIndex < intLimit := by
  simp [LongMinute, hcurrent]

/-- The base facts have a text unless the minute of an observation has none. -/
theorem returns_calculateEvidence {producer : MarketMetricProducer} {metricInput : MetricInput}
    (h : ¬Overflows producer metricInput) (facts : Facts) :
    Returns (calculateEvidence text producer.isCurrent metricInput facts) fun baseFacts =>
      ¬LongMinute producer metricInput ↔ Printable (.obj baseFacts) := by
  refine Returns.ite (fun hcurrent => ?_) fun hold => returns_pure ?_
  · have htimes : ∀ o ∈ metricInput.continuityObservations, o.observedAt.InCalendar :=
      fun o ho => not_not.mp fun hout => h ⟨hcurrent, o, ho, hout⟩
    refine (returns_continuityEvidence text htimes).bind fun value hvalue => returns_pure ?_
    rw [not_longMinute_iff hcurrent, hvalue]
    simp [printable_decimalText]
  · refine iff_of_true (fun hlong => hold hlong.1) ?_
    simp [printable_decimalText]

theorem returns_calculate {producer : MarketMetricProducer} {metricInput : MetricInput}
    (h : ¬Overflows producer metricInput) (validSector : List MetricMember) :
    Returns (calculate text producer metricInput validSector) fun result =>
      Filled result.1 ∧ (¬LongMinute producer metricInput ↔ Printable (.obj result.2)) := by
  refine (returns_calculateFacts _ _).bind fun facts _ => ?_
  refine (returns_calculateValues _ _ _).bind fun values hvalues => ?_
  refine (returns_calculateEvidence text h facts).bind fun baseFacts hbase => ?_
  exact returns_pure ⟨hvalues, hbase⟩

theorem calculate_eq_error {producer : MarketMetricProducer} {metricInput : MetricInput}
    (h : Overflows producer metricInput) (validSector : List MetricMember) :
    calculate text producer metricInput validSector = .error .overflowError := by
  refine (returns_calculateFacts _ _).bind_eq_error fun facts _ => ?_
  refine (returns_calculateValues _ _ _).bind_eq_error fun values _ => ?_
  rw [calculateEvidence, if_pos h.1, continuityEvidence_eq_error text h.2]
  rfl

/-! ## Quality -/

/-- No gate fails and no floor is missed. -/
def Evaluable (metricInput : MetricInput) : Prop :=
  metricInput.GatesHold ∧ 3 ≤ metricInput.validSector.length ∧
    70 * metricInput.activeSector.length ≤ 100 * metricInput.validSector.length ∧
    0.70 ≤ metricInput.historicalCoverage.toRat

/-- The quote coverage in exact arithmetic : of no active member it is zero. -/
theorem returns_coverage (denominator valid : ℕ) :
    Returns (if denominator = 0 then pure 0 else quotient (valid : ℚ) denominator)
      fun coverage => coverage = (valid : ℚ) / denominator := by
  refine Returns.ite (fun h => returns_pure ?_) fun h => returns_quotient (by exact_mod_cast h)
  rw [h, Nat.cast_zero, div_zero]

/-- The comparison of the coverage in whole numbers. -/
theorem coverage_lt_iff {denominator valid : ℕ} (hpos : 0 < denominator) :
    (valid : ℚ) / denominator < 0.70 ↔ ¬70 * denominator ≤ 100 * valid := by
  have hdenominator : (0 : ℚ) < denominator := by exact_mod_cast hpos
  rw [div_lt_iff₀ hdenominator, not_le]
  constructor
  · intro h
    have : (100 * valid : ℚ) < 70 * denominator := by linarith
    exact_mod_cast this
  · intro h
    have : (100 * valid : ℚ) < 70 * denominator := by exact_mod_cast h
    linarith

/-- The quality is unfit exactly when a gate fails, and it has the counts of the sector. -/
theorem returns_quality (metricInput : MetricInput) :
    Returns (quality metricInput metricInput.activeSector metricInput.validSector)
      fun quality => (quality.fitnessStatus = .unfit ↔ ¬Evaluable metricInput) ∧
        quality.validMemberCount = metricInput.validSector.length ∧
        quality.tradableExpectedCount = metricInput.activeSector.length := by
  have hle := length_validSector_le metricInput
  refine (returns_coverage _ _).bind fun coverage hcoverage => ?_
  refine Returns.ite (fun hphase => returns_pure ⟨?_, rfl, rfl⟩) fun hphase => ?_
  · refine iff_of_true rfl fun h => hphase.elim (fun hno => hno h.1.1) fun hno => hno h.1.2.1
  obtain ⟨hevaluable, hcomplete⟩ := not_or.mp hphase
  refine Returns.ite (fun hreasons => returns_pure ⟨?_, rfl, rfl⟩) fun hreasons => ?_
  · refine iff_of_true rfl fun h => hreasons ?_
    obtain ⟨⟨-, -, hprovider⟩, hvalid, hfloor, hhistory⟩ := h
    have hcovered : ¬coverage < 0.70 := by
      rw [hcoverage, coverage_lt_iff (by omega)]
      exact not_not.mpr hfloor
    simp only [List.append_eq_nil_iff, ite_singleton_eq_nil, decide_eq_false_iff_not,
      Bool.not_eq_false', not_lt]
    exact ⟨⟨⟨⟨by omega, not_lt.mp hcovered⟩, hvalid⟩, hhistory⟩, hprovider⟩
  simp only [ne_eq, not_not, List.append_eq_nil_iff, ite_singleton_eq_nil,
    decide_eq_false_iff_not, Bool.not_eq_false', not_lt] at hreasons
  obtain ⟨⟨⟨⟨hsome, hcovered⟩, hvalid⟩, hhistory⟩, hprovider⟩ := hreasons
  have hfloor : 70 * metricInput.activeSector.length ≤ 100 * metricInput.validSector.length := by
    by_contra hno
    exact absurd ((coverage_lt_iff (Nat.pos_of_ne_zero hsome)).mpr hno)
      (not_lt.mpr (hcoverage ▸ hcovered))
  have hgood : Evaluable metricInput :=
    ⟨⟨not_not.mp hevaluable, not_not.mp hcomplete, hprovider⟩, hvalid, hfloor, hhistory⟩
  have hfit : ∀ fitness : MetricFitness, fitness ≠ .unfit →
      (fitness = .unfit ↔ ¬Evaluable metricInput) := fun fitness hne =>
    iff_of_false hne (not_not.mpr hgood)
  refine Returns.ite (fun _ => returns_pure ⟨?_, rfl, rfl⟩) fun _ => returns_pure ⟨?_, rfl, rfl⟩
  · exact hfit .fitWithLimitations nofun
  · exact hfit .fit nofun

/-! ## The producer -/

/-- The members of a sector are looked up in the universe they belong to. -/
theorem returns_sectorMembers (metricInput : MetricInput) :
    Returns ((metricInput.sectorMemberUids.insertionSort (· ≤ ·)).mapM
        (entry fun uid => metricInput.primaryMembers.find? fun member =>
          member.instrumentUid = uid))
      fun members => members = (metricInput.sectorMemberUids.insertionSort (· ≤ ·)).filterMap
        fun uid => metricInput.primaryMembers.find? fun member => member.instrumentUid = uid := by
  have hfind : ∀ uid ∈ metricInput.sectorMemberUids.insertionSort (· ≤ ·), ∃ member,
      metricInput.primaryMembers.find? (fun member => decide (member.instrumentUid = uid)) =
        some member := by
    intro uid huid
    obtain ⟨member, hmember, heq⟩ := List.mem_map.mp
      (metricInput.sectorPrimary uid ((List.mem_insertionSort _).mp huid))
    exact Option.isSome_iff_exists.mp
      (List.find?_isSome.mpr ⟨member, hmember, decide_eq_true heq⟩)
  generalize metricInput.sectorMemberUids.insertionSort (· ≤ ·) = uids at *
  induction uids with
  | nil => exact ⟨[], rfl, rfl⟩
  | cons uid uids ih =>
    obtain ⟨member, hmember⟩ := hfind uid List.mem_cons_self
    obtain ⟨members, hmembers, heq⟩ := ih fun uid' h => hfind uid' (List.mem_cons_of_mem _ h)
    refine ⟨member :: members, ?_, ?_⟩
    · rw [List.mapM_cons, entry, hmember, hmembers]
      rfl
    · rw [heq, List.filterMap_cons, hmember]

/-- What the producer promises of an output. -/
structure Bounded (output : MetricOutput) : Prop where
  codes : output.values.map MetricValue.code = allCodes
  inRange : ∀ item ∈ output.values, ∀ ppm, item.result.valuePpm = some ppm →
    0 ≤ ppm ∧ ppm ≤ 1000000
  unfit : output.quality.fitnessStatus = .unfit →
    ∀ item ∈ output.values, item.result.status ≠ .value
  limited : output.quality.fitnessStatus = .fitWithLimitations →
    ∀ item ∈ output.values, item.code ∈ scoutCodes → item.result.status ≠ .value

theorem filled_removeValues {values : Values} (h : Filled values) (codes : List String) :
    Filled (removeValues values codes) := by
  intro code hcode
  obtain ⟨result, hresult⟩ := h code hcode
  rw [removeValues, hresult, Option.map_some]
  split
  · exact ⟨.missing, rfl⟩
  · exact ⟨result, rfl⟩

/-- A removed code has no value any more. -/
theorem removeValues_status {values : Values} {codes : List String} {code : String}
    {item : MetricValue} (hitem : removeValues values codes code = some item)
    (hcode : code ∈ codes) : item.result.status ≠ .value := by
  rw [removeValues] at hitem
  obtain ⟨old, -, rfl⟩ := Option.map_eq_some_iff.mp hitem
  split
  case isTrue => exact nofun
  case isFalse h => exact fun hvalue => h ⟨hcode, hvalue⟩

/-- The values of the codes, in the order of the codes. -/
theorem returns_ordered {values : Values} (h : Filled values) :
    Returns (allCodes.mapM (entry values)) fun items =>
      items.map MetricValue.code = allCodes ∧
        ∀ item ∈ items, item.code ∈ allCodes ∧ values item.code = some item := by
  refine (returns_mapM (S := fun code item => item.code = code ∧ values code = some item)
    fun code hcode => ?_).mono fun items hall => ⟨?_, fun item hitem => ?_⟩
  · obtain ⟨result, hresult⟩ := h code hcode
    exact (returns_entry hresult).mono fun item hitem => by rw [hitem]; exact ⟨rfl, hresult⟩
  · have heq : List.Forall₂ (· = ·) (items.map MetricValue.code) allCodes :=
      List.forall₂_map_left_iff.mpr (hall.flip.imp fun _ _ h => h.1)
    rwa [List.forall₂_eq_eq_eq] at heq
  · obtain ⟨code, hcode, rfl, hvalue⟩ := exists_of_mem_forall₂ hall hitem
    exact ⟨hcode, hvalue⟩

/-- The values of the output, after the removal the quality asks for. -/
def kept (fitness : MetricFitness) (values : Values) : Values :=
  if fitness = .unfit then removeValues values allCodes
  else if fitness = .fitWithLimitations then removeValues values scoutCodes
  else values

theorem filled_kept {values : Values} (h : Filled values) (fitness : MetricFitness) :
    Filled (kept fitness values) := by
  cases fitness with
  | fit => exact h
  | fitWithLimitations => exact filled_removeValues h scoutCodes
  | unfit => exact filled_removeValues h allCodes

theorem valuePpm_bounds {result : MetricResult} {ppm : ℤ} (h : result.valuePpm = some ppm) :
    0 ≤ ppm ∧ ppm ≤ 1000000 := by
  cases result with
  | value stored =>
    obtain rfl : stored.1 = ppm := Option.some.inj h
    exact stored.2
  | missing => cases h
  | notApplicable => cases h

/-- An output with the values that are kept is bounded. -/
theorem bounded_of_kept {output : MetricOutput} {values : Values}
    (hcodes : output.values.map MetricValue.code = allCodes)
    (hvalues : ∀ item ∈ output.values, item.code ∈ allCodes ∧
      kept output.quality.fitnessStatus values item.code = some item) : Bounded output where
  codes := hcodes
  inRange item _ ppm hppm := valuePpm_bounds hppm
  unfit hunfit item hitem := by
    obtain ⟨hcode, hkept⟩ := hvalues item hitem
    rw [hunfit] at hkept
    exact removeValues_status hkept hcode
  limited hlimited item hitem hscout := by
    obtain ⟨-, hkept⟩ := hvalues item hitem
    rw [hlimited] at hkept
    exact removeValues_status hkept hscout

/-! ## The text of the evidence -/

theorem printable_metricDocument (item : MetricValue) : Printable item.document := by
  have hppm : Printable (item.result.valuePpm.elim .null Value.int) := by
    cases hresult : item.result.valuePpm with
    | none => exact Json.printable_null
    | some ppm =>
      have hbounds := valuePpm_bounds hresult
      exact Json.printable_int.mpr (Json.lt_intLimit_of_le (by omega))
  rw [MetricValue.document, Json.printable_obj]
  simpa using hppm

theorem printable_qualityDocument {quality : MetricQuality}
    (hvalid : quality.validMemberCount < intLimit)
    (hexpected : quality.tradableExpectedCount < intLimit) : Printable quality.document := by
  have hquote : (quality.quoteCoveragePpm : ℤ).natAbs < intLimit :=
    Json.lt_intLimit_of_le (by have := quality.quoteCoveragePpm.2; omega)
  have hhistory : (quality.historicalCoveragePpm : ℤ).natAbs < intLimit :=
    Json.lt_intLimit_of_le (by have := quality.historicalCoveragePpm.2; omega)
  rw [MetricQuality.document, Json.printable_obj]
  simp [hquote, hhistory, hvalid, hexpected]

/-- A sector has no more active members than the universe has members. -/
theorem length_activeSector_le (metricInput : MetricInput) :
    metricInput.activeSector.length ≤ metricInput.primaryMembers.length := by
  calc metricInput.activeSector.length
      ≤ metricInput.sectorMemberUids.length := by
        refine ((List.length_filter_le _ _).trans (List.length_filterMap_le _ _)).trans ?_
        rw [List.length_insertionSort]
    _ ≤ (metricInput.primaryMembers.map MetricMember.instrumentUid).length :=
        (metricInput.sectorUnique.subperm metricInput.sectorPrimary).length_le
    _ = metricInput.primaryMembers.length := List.length_map _

/-- The evidence has a text when the base facts and the number of members have one. -/
theorem printable_evidencePayload {producer : MarketMetricProducer} {metricInput : MetricInput}
    {quality : MetricQuality} (hvalid : quality.validMemberCount = metricInput.validSector.length)
    (hexpected : quality.tradableExpectedCount = metricInput.activeSector.length)
    (baseFacts : List (String × Value)) (items : List MetricValue) :
    Printable (evidencePayload producer metricInput quality baseFacts items) ↔
      metricInput.primaryMembers.length < intLimit ∧ Printable (.obj baseFacts) := by
  have hquality : metricInput.primaryMembers.length < intLimit → Printable quality.document := by
    intro hcount
    have hactive := (length_activeSector_le metricInput).trans_lt hcount
    exact printable_qualityDocument
      (hvalid ▸ (length_validSector_le metricInput).trans_lt hactive) (hexpected ▸ hactive)
  rw [evidencePayload, Json.printable_obj]
  simp only [List.mem_cons, List.not_mem_nil, or_false, forall_eq_or_imp, forall_eq,
    Json.printable_str, Json.printable_bool, Json.printable_int, Int.natAbs_natCast,
    Json.printable_arr, List.forall_mem_map, implies_true, true_and, printable_metricDocument,
    and_true]
  exact ⟨fun h => ⟨h.1, h.2.2⟩, fun h => ⟨h.1, hquality h.1, h.2⟩⟩

/-- The evidence has an integer of too many digits : the minute of an observation, or the number
of members. -/
def TooLong (producer : MarketMetricProducer) (metricInput : MetricInput) : Prop :=
  intLimit ≤ metricInput.primaryMembers.length ∨
    Evaluable metricInput ∧ LongMinute producer metricInput

/-- What is calculated of usable data, or kept of others. -/
theorem returns_calculated {producer : MarketMetricProducer} {metricInput : MetricInput}
    (h : ¬(Overflows producer metricInput ∧ Evaluable metricInput)) {quality : MetricQuality}
    (hquality : quality.fitnessStatus = .unfit ↔ ¬Evaluable metricInput) {values : Values}
    (hvalues : Filled values) :
    Returns (if quality.fitnessStatus ≠ .unfit then
        calculate text producer metricInput metricInput.validSector else pure (values, []))
      fun result => Filled result.1 ∧
        (¬(Evaluable metricInput ∧ LongMinute producer metricInput) ↔
          Printable (.obj result.2)) := by
  refine Returns.ite (fun hfit => ?_) fun hunfit => returns_pure ⟨hvalues, ?_⟩
  · have hgood : Evaluable metricInput := not_not.mp fun hno => hfit (hquality.mpr hno)
    refine (returns_calculate text (fun hover => h ⟨hover, hgood⟩) _).mono fun result hresult => ?_
    rw [and_iff_right hgood]
    exact hresult
  · refine iff_of_true (fun hlong => hquality.mp (not_not.mp hunfit) hlong.1) ?_
    exact Json.printable_obj.mpr fun f hf => absurd hf List.not_mem_nil

/-- The evidence of an evaluation has a text unless it is too long. -/
theorem printable_evidence_iff {producer : MarketMetricProducer} {metricInput : MetricInput}
    {quality : MetricQuality} (hvalid : quality.validMemberCount = metricInput.validSector.length)
    (hexpected : quality.tradableExpectedCount = metricInput.activeSector.length)
    {baseFacts : List (String × Value)}
    (hbase : ¬(Evaluable metricInput ∧ LongMinute producer metricInput) ↔
      Printable (.obj baseFacts)) (items : List MetricValue) :
    Printable (evidencePayload producer metricInput quality baseFacts items) ↔
      ¬TooLong producer metricInput := by
  rw [printable_evidencePayload hvalid hexpected, ← hbase, TooLong, not_or, not_le]

/-- Without an overflow and a long text the evaluation returns bounded results. -/
theorem evaluate_bounded {producer : MarketMetricProducer} {metricInput : MetricInput}
    (h : ¬(Overflows producer metricInput ∧ Evaluable metricInput))
    (hlong : ¬TooLong producer metricInput) :
    Returns (evaluate text producer metricInput) Bounded := by
  refine (returns_sectorMembers metricInput).bind fun members hmembers => ?_
  subst hmembers
  refine (returns_quality metricInput).bind fun quality ⟨hquality, hvalid, hexpected⟩ => ?_
  refine (returns_emptyValues metricInput).bind fun values hvalues => ?_
  refine (returns_calculated text h hquality hvalues).bind
    fun ⟨values, baseFacts⟩ ⟨hfilled, hbase⟩ => ?_
  have hkept := filled_kept hfilled quality.fitnessStatus
  refine (returns_ordered hkept).bind fun items ⟨hcodes, hitems⟩ => ?_
  have hprintable := (printable_evidence_iff hvalid hexpected hbase items).mpr hlong
  have hhash : Returns (canonicalHash
      (evidencePayload producer metricInput quality baseFacts items)) fun _ => True := by
    rw [canonicalHash, if_pos hprintable]
    exact returns_pure trivial
  exact hhash.bind fun sha256 _ => returns_pure (bounded_of_kept hcodes hitems)

/-- A text that is too long raises. -/
theorem evaluate_tooLong {producer : MarketMetricProducer} {metricInput : MetricInput}
    (h : ¬(Overflows producer metricInput ∧ Evaluable metricInput))
    (hlong : TooLong producer metricInput) :
    evaluate text producer metricInput = .error tooManyDigits := by
  refine (returns_sectorMembers metricInput).bind_eq_error fun members hmembers => ?_
  subst hmembers
  refine (returns_quality metricInput).bind_eq_error
    fun quality ⟨hquality, hvalid, hexpected⟩ => ?_
  refine (returns_emptyValues metricInput).bind_eq_error fun values hvalues => ?_
  refine (returns_calculated text h hquality hvalues).bind_eq_error
    fun ⟨values, baseFacts⟩ ⟨hfilled, hbase⟩ => ?_
  have hkept := filled_kept hfilled quality.fitnessStatus
  refine (returns_ordered hkept).bind_eq_error fun items _ => ?_
  have hunprintable : ¬Printable
      (evidencePayload producer metricInput quality baseFacts items) := fun hprintable =>
    (printable_evidence_iff hvalid hexpected hbase items).mp hprintable hlong
  have hhash : canonicalHash (evidencePayload producer metricInput quality baseFacts items) =
      .error tooManyDigits := if_neg hunprintable
  change Except.bind (canonicalHash _) _ = _
  rw [hhash]
  rfl

theorem evaluate_overflows {producer : MarketMetricProducer} {metricInput : MetricInput}
    (hover : Overflows producer metricInput) (hgood : Evaluable metricInput) :
    evaluate text producer metricInput = .error .overflowError := by
  refine (returns_sectorMembers metricInput).bind_eq_error fun members hmembers => ?_
  subst hmembers
  refine (returns_quality metricInput).bind_eq_error fun quality ⟨hquality, _⟩ => ?_
  refine (returns_emptyValues metricInput).bind_eq_error fun values _ => ?_
  have hfit : quality.fitnessStatus ≠ .unfit := fun hunfit => hquality.mp hunfit hgood
  rw [if_pos hfit, calculate_eq_error text hover]
  rfl

/-- The producer raises nothing and keeps its bounds, unless the current rule version has to
write the time of an observation that has no date in UTC, or an integer of the evidence has too
many digits. -/
theorem evaluate_total (producer : MarketMetricProducer) (metricInput : MetricInput) :
    (¬(Overflows producer metricInput ∧ Evaluable metricInput) → ¬TooLong producer metricInput →
      ∃ output, evaluate text producer metricInput = .ok output ∧ Bounded output) ∧
    (Overflows producer metricInput ∧ Evaluable metricInput →
      evaluate text producer metricInput = .error .overflowError) ∧
    (¬(Overflows producer metricInput ∧ Evaluable metricInput) → TooLong producer metricInput →
      evaluate text producer metricInput = .error tooManyDigits) :=
  ⟨evaluate_bounded text, fun h => evaluate_overflows text h.1 h.2, evaluate_tooLong text⟩

/-! ## A late observation -/

/-- The last second of the calendar, one hour behind UTC. -/
def lastSecond : AwareDatetime where
  wall := maxInstant - 1000000
  offset := -3600000000
  wall_lt := by decide
  offset_lt := by decide

def lateObservation : ContinuityObservation where
  observationUid := "observation"
  observedAt := lastSecond
  tradingDate := "2025-01-07"
  marketMinuteIndex := 0
  fitnessStatus := .fit
  relativeStrength5m := none
  breadth5mUp := none
  turnoverRatio5m := none

/-- The quiet sector with that observation. -/
def lateInput : MetricInput :=
  { sampleInput none false with
    continuityObservations := [lateObservation]
    observationsUnique := List.nodup_singleton _
    observationsOfDay := fun _ ho => by rw [List.mem_singleton.mp ho]; rfl }

theorem evaluable_lateInput : Evaluable lateInput := by
  have hlengths : lateInput.validSector.length = 5 ∧ lateInput.activeSector.length = 5 := by
    decide +kernel
  have hcoverage : lateInput.historicalCoverage.toRat = 1 := by
    rw [show lateInput.historicalCoverage = Decimal.ofInt 1 from rfl, Decimal.toRat_ofInt,
      Int.cast_one]
  have hgates : lateInput.GatesHold := ⟨by decide, rfl, rfl⟩
  refine ⟨hgates, by omega, by omega, ?_⟩
  rw [hcoverage]
  norm_num

/-- The constructors accept an input the producer raises on. -/
theorem evaluate_of_late_observation :
    ¬∀ (text : ℚ → String) (producer : MarketMetricProducer) (metricInput : MetricInput),
      ∃ output, evaluate text producer metricInput = .ok output ∧ Bounded output := by
  intro h
  obtain ⟨output, houtput, -⟩ := h (fun _ => "") MarketMetricProducer.current lateInput
  have hover : Overflows MarketMetricProducer.current lateInput :=
    ⟨by decide, lateObservation, List.mem_singleton_self _, by decide⟩
  rw [evaluate_overflows _ hover evaluable_lateInput] at houtput
  cases houtput

end MarketMonitor.Exact
