import MarketMonitor.Analysis.MetricInput

/-!
# The market metrics

`MarketMetricProducer.evaluate` rates the quality of an input and, unless it is unfit,
calculates the metrics of both families from the returns, breadths and amounts of the
sector and its market. A missing operand makes a metric missing; a context that is not
mapped and an early signal that does not apply make theirs not applicable.
-/

namespace MarketMonitor

open Decimal
open Json (Value)

/-! ## Statistics -/

/-- `_clamp01(value)`. -/
def clamp01 (value : Decimal) : Decimal := minOf one (maxOf zero value)

theorem clamp01_bounds (value : Decimal) :
    0 ≤ (clamp01 value).toRat ∧ (clamp01 value).toRat ≤ 1 := by
  have hzero : zero.toRat = 0 := by simp [zero, toRat_ofInt]
  have hone : one.toRat = 1 := by simp [one, toRat_ofInt]
  rw [clamp01, toRat_minOf, toRat_maxOf, hzero, hone]
  exact ⟨le_min zero_le_one (le_max_left _ _), min_le_left _ _⟩

/-- `_linear(value, low, high)`. -/
def linear (value low high : Decimal) : Decimal := clamp01 ((value - low) / (high - low))

/-- `_ppm_value(value)`. -/
def ppmValue (value : Decimal) : Ppm :=
  ⟨(clamp01 value * ofInt 1000000).quantize, by
    obtain ⟨hnonneg, hle⟩ := clamp01_bounds value
    have hcoeff :
        0 ≤ (⟨(clamp01 value).coeff * 1000000, (clamp01 value).exp + 0⟩ : Decimal).coeff :=
      mul_nonneg (toRat_nonneg_iff.mp hnonneg) (by norm_num)
    have hvalue : (⟨(clamp01 value).coeff * 1000000, (clamp01 value).exp + 0⟩ : Decimal).toRat ≤
        (1000000 : ℕ) := by
      calc (⟨(clamp01 value).coeff * 1000000, (clamp01 value).exp + 0⟩ : Decimal).toRat
          = (clamp01 value).toRat * 1000000 := by
            simp only [toRat, add_zero]
            push_cast
            ring
        _ ≤ 1 * 1000000 := mul_le_mul_of_nonneg_right hle (by norm_num)
        _ = (1000000 : ℕ) := by norm_num
    have hfix := fix_coeff_nonneg hcoeff
    exact ⟨quantize_nonneg hfix, quantize_le hfix (fix_le (by norm_num) hcoeff hvalue)⟩⟩

/-- `_from_ppm(value)`. -/
def fromPpm (value : Ppm) : Decimal := ofInt value.1 / ofInt 1000000

def sortedDecimals (values : List Decimal) : List Decimal := values.insertionSort (· ≤ ·)

/-- `_median(values)`. -/
def median (values : List Decimal) : Option Decimal :=
  let ordered := sortedDecimals values
  let middle := ordered.length / 2
  if values = [] then none
  else if ordered.length % 2 = 1 then ordered[middle]?
  else do
    let a ← ordered[middle - 1]?
    let b ← ordered[middle]?
    return (a + b) / ofInt 2

/-- `_percentile(values, proportion)`, of a non-empty list. -/
def percentile (values : List Decimal) (proportion : Decimal) : Decimal :=
  let position := ofInt (values.length - 1) * proportion
  let lower := position.truncate.toNat
  let upper := min (lower + 1) (values.length - 1)
  let low := values.getD lower zero
  low + (values.getD upper zero - low) * (position - ofInt lower)

/-- `MarketMetricProducer.robust_return(values)`. -/
def robustReturn (values : List Decimal) : Option Decimal :=
  let ordered := sortedDecimals values
  if values = [] then none
  else if ordered.length < 20 then median ordered
  else
    let lower := percentile ordered (hundredths 5)
    let upper := percentile ordered (hundredths 95)
    some (sum (ordered.map fun value => minOf upper (maxOf lower value)) / ofInt ordered.length)

/-- `_return(numerator, denominator)`. -/
def returnOf (numerator denominator : Option Decimal) : Option Decimal := do
  let numerator ← numerator
  let denominator ← denominator
  if numerator ≤ zero ∨ denominator ≤ zero then none else some (numerator / denominator - one)

/-- `_ratio(numerator, denominator)`. -/
def ratio (numerator denominator : Option Decimal) : Option Decimal := do
  let numerator ← numerator
  let denominator ← denominator
  if denominator ≤ zero then none else some (numerator / denominator)

/-- The share of the values that satisfy a predicate. -/
def shareOf (values : List Decimal) (p : Decimal → Bool) : Option Decimal :=
  ratio (some (ofInt (values.countP p))) (some (ofInt values.length))

/-- The values, when none is missing. -/
def present (values : List (Option Decimal)) : Option (List Decimal) := values.mapM id

/-- The amounts, when there are some and none is missing or negative. -/
def validAmounts (amounts : List (Option Decimal)) : Option (List Decimal) := do
  let amounts ← present amounts
  if amounts = [] ∨ amounts.any (· < zero) then none else some amounts

/-! ## Members -/

/-- `_suspended(member)`. -/
def MetricMember.suspended (member : MetricMember) : Bool :=
  member.knownSuspended || member.quoteStatus = .suspended

/-- `_valid_quote(member)`. -/
def MetricMember.validQuote (member : MetricMember) : Bool :=
  member.quoteStatus = .valid && member.price.any (zero < ·) && member.preClose.any (zero < ·)

/-- `_MemberFacts` -/
structure MemberFacts where
  member : MetricMember
  returnDay : Option Decimal
  return5m : Option Decimal
  return15m : Option Decimal
  previousReturn5m : Option Decimal

/-- `_member_facts(member)`. -/
def memberFacts (member : MetricMember) : MemberFacts where
  member := member
  returnDay := returnOf member.price member.preClose
  return5m := returnOf member.price member.close5m
  return15m := returnOf member.price member.close15m
  previousReturn5m := returnOf member.close5m member.close10m

/-- `_return_and_breadth(facts, attribute)`. -/
def returnAndBreadth (facts : List MemberFacts) (column : MemberFacts → Option Decimal) :
    Option Decimal × Option Decimal :=
  match present (facts.map column) with
  | none => (none, none)
  | some returns =>
    if returns = [] then (none, none)
    else (robustReturn returns, shareOf returns (zero < ·))

/-- `_current_amounts(facts)`. -/
def currentAmounts (facts : List MemberFacts) : Option Decimal × Option Decimal :=
  match validAmounts (facts.map fun fact => fact.member.amount5m) with
  | none => (none, none)
  | some amounts => (some (sum amounts), shareOf amounts fun a => a ≤ zero ∧ zero ≤ a)

/-- `_previous_amount(facts)`. -/
def previousAmount (facts : List MemberFacts) : Option Decimal :=
  (validAmounts (facts.map fun fact => fact.member.previousAmount5m)).map sum

/-- `_amount_15m(facts)`. -/
def amount15m (facts : List MemberFacts) : Option Decimal :=
  (validAmounts (facts.map fun fact => fact.member.amount15m)).map sum

/-- `min(5, max(1, ceil(n * 0.10)))` : up to 40 members the product of the float has the
ceiling of the tenth. -/
def headCount (n : ℕ) : ℕ := min 5 (max 1 ((n + 9) / 10))

/-- The order `(-amount, uid)`. -/
def byAmountDesc (a b : Uid × Decimal) : Prop :=
  -a.2 < -b.2 ∨ (-a.2 ≤ -b.2 ∧ a.1 ≤ b.1)

instance (a b : Uid × Decimal) : Decidable (byAmountDesc a b) :=
  inferInstanceAs (Decidable (_ ∨ _))

/-- The sum of the largest amounts. -/
def headAmount (amounts : List (Uid × Decimal)) : Decimal :=
  sum (((amounts.insertionSort byAmountDesc).take (headCount amounts.length)).map Prod.snd)

/-- `_historical_baselines(windows, facts)`. -/
def historicalBaselines (windows : List HistoricalSameClockWindow) (facts : List MemberFacts) :
    Option Decimal × Option Decimal :=
  let uids := facts.map fun fact => fact.member.instrumentUid
  let observed := (windows.insertionSort fun a b => a.tradingDate ≤ b.tradingDate).filterMap
    fun window => do
      let amounts ← validAmounts (uids.map fun uid => window.memberAmounts.lookup uid)
      let total := sum amounts
      if total ≤ zero then none else some (total, headAmount (uids.zip amounts) / total)
  if uids = [] ∨ observed.length < 3 then (none, none)
  else (median (observed.map Prod.fst), median (observed.map Prod.snd))

/-- `_head_share(facts)`. -/
def headShare (facts : List MemberFacts) : Option Decimal := do
  let amounts ← validAmounts (facts.map fun fact => fact.member.amount5m)
  let total := sum amounts
  if total ≤ zero then none
  else some (headAmount ((facts.map fun fact => fact.member.instrumentUid).zip amounts) / total)

/-- `_CoreStats` -/
structure CoreStats where
  memberUids : List Uid
  return5m : Option Decimal
  noncoreReturn5m : Option Decimal
  breadth5m : Option Decimal

/-- `_core_stats(facts)`. -/
def coreStats (facts : List MemberFacts) : Option CoreStats :=
  let trailing (fact : MemberFacts) : List Decimal :=
    fact.member.trailingDailyAmounts.drop (fact.member.trailingDailyAmounts.length - 20)
  let eligible := facts.filter fun fact =>
    20 ≤ fact.member.trailingDailyAmounts.length ∧
      (trailing fact).all (zero < ·) ∧ fact.return5m.isSome
  let count := min 10 (max 3 (ofInt eligible.length * hundredths 20).ceil.toNat)
  let ranked := eligible.insertionSort fun a b =>
    byAmountDesc (a.member.instrumentUid, sum (trailing a))
      (b.member.instrumentUid, sum (trailing b))
  let core := ranked.take count
  let coreUids := core.map fun fact => fact.member.instrumentUid
  let noncore := facts.filter fun fact => fact.member.instrumentUid ∉ coreUids
  if eligible.length < 3 ∨ noncore = [] then none
  else do
    let noncoreReturns ← present (noncore.map MemberFacts.return5m)
    let coreReturns := core.filterMap MemberFacts.return5m
    return ⟨coreUids.insertionSort (· ≤ ·), robustReturn coreReturns,
      robustReturn noncoreReturns, shareOf coreReturns (zero < ·)⟩

/-! ## Formulas -/

/-- `_rising_too_fast(current, previous)`. -/
def risingTooFast (current previous : Option Decimal) : Option Ppm := do
  let current ← current
  let previous ← previous
  return ppmValue (hundredths 65 * linear current (thousandths 15) (thousandths 40) +
    hundredths 35 * linear (current - previous) (thousandths 8) (thousandths 25))

/-- `_head_concentration(current, baseline)`. -/
def headConcentration (current baseline : Option Decimal) : Option Ppm := do
  let current ← current
  let baseline ← baseline
  if baseline ≤ zero then none
  else some (ppmValue (hundredths 60 * linear current (hundredths 35) (hundredths 60) +
    hundredths 40 * linear (current / baseline) (hundredths 120) (hundredths 180)))

/-- `_internal_divergence(facts, sector_return)`. -/
def internalDivergence (facts : List MemberFacts) (sectorReturn : Option Decimal) :
    Option Ppm := do
  let sectorReturn ← sectorReturn
  let values ← present (facts.map MemberFacts.return5m)
  let middle ← median values
  let dispersion ← median (values.map fun value => (value - middle).abs)
  let opposite ←
    if sectorReturn.abs < thousandths 2 then some zero
    else shareOf values fun value => value * sectorReturn < zero
  return ppmValue (hundredths 55 * linear dispersion (thousandths 6) (thousandths 20) +
    hundredths 45 * linear opposite (hundredths 30) (hundredths 60))

/-- `_crowding(rise_ppm, turnover_ratio, head_ppm)`. -/
def crowding (rise : Option Ppm) (turnoverRatio : Option Decimal) (head : Option Ppm) :
    Option Ppm := do
  let rise ← rise
  let turnoverRatio ← turnoverRatio
  let head ← head
  return ppmValue (hundredths 35 * fromPpm rise +
    hundredths 35 * linear turnoverRatio (hundredths 130) (hundredths 250) +
    hundredths 30 * fromPpm head)

/-- `_liquidity(current_amount, previous_amount, inactive_ratio)`. -/
def liquidity (currentAmount previousAmount inactiveRatio : Option Decimal) : Option Ppm := do
  let currentAmount ← currentAmount
  let previousAmount ← previousAmount
  let inactiveRatio ← inactiveRatio
  if previousAmount ≤ zero then none
  else some (ppmValue (hundredths 70 *
      linear (one - currentAmount / previousAmount) (hundredths 20) (hundredths 60) +
    hundredths 30 * linear inactiveRatio (hundredths 10) (hundredths 35)))

/-- `_core_weakening(core)`. -/
def coreWeakening (core : Option CoreStats) : Option Ppm := do
  let core ← core
  let return5m ← core.return5m
  let noncoreReturn5m ← core.noncoreReturn5m
  let breadth5m ← core.breadth5m
  return ppmValue (hundredths 65 *
      linear (noncoreReturn5m - return5m) (thousandths 5) (thousandths 25) +
    hundredths 35 * linear (hundredths 50 - breadth5m) zero (hundredths 30))

/-- `_breadth_collapse(current, previous)`. -/
def breadthCollapse (current previous : Option Decimal) : Option Ppm := do
  let current ← current
  let previous ← previous
  return ppmValue (hundredths 60 * linear (previous - current) (hundredths 15) (hundredths 40) +
    hundredths 40 * linear (hundredths 45 - current) zero (hundredths 25))

/-- `_stampede(sector_return_5m, turnover_ratio, breadth_collapse_ppm)`. -/
def stampede (sectorReturn5m turnoverRatio : Option Decimal) (breadthCollapse : Option Ppm) :
    Option Ppm := do
  let sectorReturn5m ← sectorReturn5m
  let turnoverRatio ← turnoverRatio
  let breadthCollapse ← breadthCollapse
  return ppmValue (hundredths 45 * fromPpm breadthCollapse +
    hundredths 35 * linear (-sectorReturn5m) (thousandths 15) (thousandths 40) +
    hundredths 20 * linear turnoverRatio (hundredths 130) (hundredths 250))

/-- `_t1_chasing(sector_return_day, rise_ppm, crowding_ppm, head_ppm)`. -/
def t1Chasing (sectorReturnDay : Option Decimal) (rise crowding head : Option Ppm) :
    Option Ppm := do
  let sectorReturnDay ← sectorReturnDay
  let rise ← rise
  let crowding ← crowding
  let head ← head
  return ppmValue (hundredths 35 * fromPpm rise + hundredths 25 * fromPpm crowding +
    hundredths 20 * fromPpm head +
    hundredths 20 * linear sectorReturnDay (thousandths 25) (thousandths 70))

/-- `_early_applicable(evidence, trading_date)`. -/
def earlyApplicable (evidence : Option EarlyEvidence) (tradingDate : String) : Bool :=
  evidence.any fun e => e.isOfficial ∧ e.isQualifying ∧ e.tradingDate = tradingDate ∧
    0 ≤ e.marketMinutesAgo ∧ e.marketMinutesAgo ≤ 30

/-- `_early_failure(evidence, trading_date, sector_return_day, breadth, turnover_ratio)`. -/
def earlyFailure (evidence : Option EarlyEvidence) (tradingDate : String)
    (sectorReturnDay breadth turnoverRatio : Option Decimal) : Option Ppm :=
  if ¬earlyApplicable evidence tradingDate then none
  else do
    let evidence ← evidence
    let sectorReturnDay ← sectorReturnDay
    let breadth ← breadth
    let turnoverRatio ← turnoverRatio
    return ppmValue (hundredths 45 *
        linear (evidence.sectorReturnDay - sectorReturnDay) (thousandths 10) (thousandths 35) +
      hundredths 35 * linear (evidence.breadth - breadth) (hundredths 15) (hundredths 40) +
      hundredths 20 * linear (evidence.turnoverRatio - turnoverRatio) (hundredths 30)
        (hundredths 100))

/-- `_early_activity(sector_return_5m, breadth_5m, turnover_ratio)`. -/
def earlyActivity (sectorReturn5m breadth5m turnoverRatio : Option Decimal) : Option Ppm := do
  let sectorReturn5m ← sectorReturn5m
  let breadth5m ← breadth5m
  let turnoverRatio ← turnoverRatio
  let positiveStart := linear sectorReturn5m (thousandths 3) (thousandths 12)
  let overextended := linear sectorReturn5m (thousandths 25) (thousandths 45)
  return ppmValue (hundredths 35 * positiveStart * (one - overextended) +
    hundredths 35 * linear breadth5m (hundredths 52) (hundredths 72) +
    hundredths 30 * linear turnoverRatio (hundredths 120) (hundredths 200))

/-- `_healthy_breadth(breadth_5m, head_ppm)`. -/
def healthyBreadth (breadth5m : Option Decimal) (head : Option Ppm) : Option Ppm := do
  let breadth5m ← breadth5m
  let head ← head
  return ppmValue (linear breadth5m (hundredths 50) (hundredths 75) *
    (one - hundredths 40 * fromPpm head))

/-- `_relative_strength(sector_5m, sector_15m, market_5m, market_15m)`. -/
def relativeStrength (sector5m sector15m market5m market15m : Option Decimal) : Option Ppm := do
  let sector5m ← sector5m
  let sector15m ← sector15m
  let market5m ← market5m
  let market15m ← market15m
  return ppmValue (hundredths 60 *
      linear (sector5m - market5m) (thousandths 2) (thousandths 15) +
    hundredths 40 * linear (sector15m - market15m) (thousandths 3) (thousandths 25))

/-- `_turnover_confirmation(turnover_ratio)`. -/
def turnoverConfirmation (turnoverRatio : Option Decimal) : Option Ppm :=
  turnoverRatio.map fun turnoverRatio =>
    ppmValue (linear turnoverRatio (hundredths 110) (hundredths 220))

/-- `_etf_confirmation(context_return, market_return)`. -/
def etfConfirmation (contextReturn marketReturn : Decimal) : Ppm :=
  ppmValue (hundredths 55 * linear contextReturn (thousandths 1) (thousandths 10) +
    hundredths 45 * linear (contextReturn - marketReturn) (thousandths 1) (thousandths 8))

/-- `_style_support(context_return, market_return)`. -/
def styleSupport (contextReturn marketReturn : Decimal) : Ppm :=
  ppmValue (linear (contextReturn - marketReturn) (thousandths 1) (thousandths 10))

/-! ## Continuity -/

/-- `_ordered_continuity_observations(observations)`. -/
def orderedContinuityObservations (observations : List ContinuityObservation) :
    List ContinuityObservation :=
  observations.insertionSort fun a b => a.marketMinuteIndex < b.marketMinuteIndex ∨
    (a.marketMinuteIndex = b.marketMinuteIndex ∧ (a.observedUtc < b.observedUtc ∨
      (a.observedUtc = b.observedUtc ∧ a.observationUid ≤ b.observationUid)))

/-- `_continuity_component(values, positive_floor, tolerance)`. -/
def continuityComponent (first second third positiveFloor tolerance : Decimal) : Decimal :=
  if [first, second, third].any (· ≤ positiveFloor) then zero
  else
    let firstStep := second - first
    let secondStep := third - second
    if zero ≤ firstStep ∧ zero ≤ secondStep then one
    else
      match [firstStep, secondStep].filter (· < zero) with
      | [step] => if step.abs ≤ tolerance ∧ first ≤ third then ⟨5, -1⟩ else zero
      | _ => zero

/-- The score of one component of three observations. -/
def continuityScore (ordered : List ContinuityObservation)
    (component : ContinuityObservation → Option Decimal) (positiveFloor tolerance : Decimal) :
    Option Decimal := do
  match ← present (ordered.map component) with
  | [first, second, third] =>
    return continuityComponent first second third positiveFloor tolerance
  | _ => none

/-- `_continuity_strengthening(observations)`. -/
def continuityStrengthening (observations : List ContinuityObservation) : Option Ppm :=
  match orderedContinuityObservations observations with
  | [first, second, third] =>
    let ordered := [first, second, third]
    if ¬(ordered.map ContinuityObservation.observationUid).Nodup ∨
        ¬(ordered.map ContinuityObservation.observedUtc).Nodup ∨
        ordered.any (fun o => o.tradingDate ≠ first.tradingDate) ∨
        third.marketMinuteIndex - first.marketMinuteIndex < 10 ∨
        ordered.any (fun o => o.fitnessStatus ≠ .fit) then none
    else do
      let strength ← continuityScore ordered ContinuityObservation.relativeStrength5m zero
        ⟨15, -4⟩
      let breadth ← continuityScore ordered ContinuityObservation.breadth5mUp (hundredths 50)
        (hundredths 3)
      let turnover ← continuityScore ordered ContinuityObservation.turnoverRatio5m one
        (hundredths 10)
      return ppmValue (sum [strength * hundredths 40, breadth * hundredths 35,
        turnover * hundredths 25])
  | _ => none

/-- `_decimal_text(value)`. -/
def decimalText (value : Option Decimal) : Value := Value.optional (value.map Decimal.text)

def MetricFitness.text (fitness : MetricFitness) : String := fitness.status.text

/-- `_continuity_evidence(observations)`, of times that have a date in UTC. -/
def continuityEvidence (observations : List ContinuityObservation) : Value :=
  .arr ((orderedContinuityObservations observations).map fun item =>
    .obj [("observation_uid", .str item.observationUid),
      ("observed_at", .str (formatRfc3339 item.observedUtc.toNat)),
      ("trading_date", .str item.tradingDate),
      ("market_minute_index", .int item.marketMinuteIndex),
      ("fitness_status", .str item.fitnessStatus.text),
      ("relative_strength_5m", decimalText item.relativeStrength5m),
      ("breadth_5m_up", decimalText item.breadth5mUp),
      ("turnover_ratio_5m", decimalText item.turnoverRatio5m)])

/-! ## Quality -/

/-- `_quality(metric_input, active_sector, valid_sector)`. -/
def metricQuality (metricInput : MetricInput) (activeSector validSector : List MetricMember) :
    MetricQuality :=
  let denominator := activeSector.length
  let valid := validSector.length
  let coverage := if denominator = 0 then zero else ofInt valid / ofInt denominator
  let quality (fitness : MetricFitness) (reasons : List String) : MetricQuality :=
    { fitnessStatus := fitness
      quoteCoveragePpm := ppmValue coverage
      historicalCoveragePpm := ppmValue metricInput.historicalCoverage
      validMemberCount := valid
      tradableExpectedCount := denominator
      reasonCodes := reasons.insertionSort (· ≤ ·) }
  let evaluablePhase := metricInput.marketPhase ∈ ["CONTINUOUS_AM", "CONTINUOUS_PM"] ∨
    (metricInput.marketPhase = "CLOSED" ∧ metricInput.isFinalTradingSnapshot)
  let reason (p : Bool) (code : String) : List String := if p then [code] else []
  let unfitReasons := reason (denominator = 0) "NO_TRADABLE_MEMBERS" ++
    reason (coverage < hundredths 70) "QUOTE_COVERAGE_UNFIT" ++
    reason (valid < 3) "INSUFFICIENT_VALID_MEMBERS" ++
    reason (metricInput.historicalCoverage < hundredths 70) "HISTORICAL_COVERAGE_UNFIT" ++
    reason (!metricInput.providerCapabilityFit) "PRIMARY_PROVIDER_UNFIT"
  let limitedReasons := reason (coverage < hundredths 85) "QUOTE_COVERAGE_LIMITED" ++
    reason (metricInput.historicalCoverage < hundredths 80) "HISTORICAL_COVERAGE_LIMITED" ++
    reason metricInput.providerCapabilityLimited "PRIMARY_PROVIDER_LIMITED" ++
    reason (!metricInput.contextFit) "CONTEXT_LIMITED" ++
    reason (valid < 5) "VALID_MEMBER_COUNT_LIMITED"
  if ¬evaluablePhase ∨ ¬metricInput.hasCompleteMinute then
    quality .unfit ["MARKET_PHASE_NOT_EVALUABLE"]
  else if unfitReasons ≠ [] then quality .unfit unfitReasons
  else if limitedReasons ≠ [] then quality .fitWithLimitations limitedReasons
  else quality .fit []

/-! ## The producer -/

/-- `_empty_values(metric_input)`. -/
def emptyValues (metricInput : MetricInput) : MetricResults := fun code =>
  if code = "ETF_CONFIRMATION_PPM" ∧ metricInput.etfContext.isNone ∨
      code = "STYLE_SUPPORT_PPM" ∧ metricInput.styleContext.isNone ∨
      code = "EARLY_SIGNAL_FAILURE_PPM" ∧
        ¬earlyApplicable metricInput.earlyEvidence metricInput.tradingDate then .notApplicable
  else .missing

/-- `_set_value(values, code, value)`. -/
def setValue (values : MetricResults) (code : String) (value : Option Ppm) : MetricResults :=
  fun c => if c = code then value.elim .missing .value else values c

/-- `_set_context_value(values, code, context, market_5m, formula)`. -/
def setContextValue (values : MetricResults) (code : String) (context : Option ContextMetric)
    (market5m : Option Decimal) (formula : Decimal → Decimal → Ppm) : MetricResults :=
  match context with
  | none => fun c => if c = code then .notApplicable else values c
  | some context => setValue values code do
    let return5m ← context.return5m
    let market5m ← market5m
    return formula return5m market5m

/-- `_remove_values(values, codes)`. -/
def removeValues (values : MetricResults) (codes : List String) : MetricResults := fun code =>
  if code ∈ codes ∧ (values code).status = .value then .missing else values code

/-- `MarketMetricProducer`, of one of its two rule versions. -/
structure MarketMetricProducer where
  ruleVersion : String
  supported : ruleVersion ∈ ["cr004-market-metrics-v1", "cr004-market-metrics-v2"]

/-- `MarketMetricProducer()`. -/
def MarketMetricProducer.current : MarketMetricProducer :=
  ⟨"cr004-market-metrics-v2", by decide⟩

/-- `rule_version == RULE_VERSION`. -/
def MarketMetricProducer.isCurrent (producer : MarketMetricProducer) : Bool :=
  producer.ruleVersion = current.ruleVersion

/-- `MarketMetricProducer._calculate(metric_input, valid_sector)` : the metrics with their
base facts. -/
def MarketMetricProducer.calculate (producer : MarketMetricProducer) (metricInput : MetricInput)
    (validSector : List MetricMember) : MetricResults × List (String × Value) :=
  let sectorFacts := validSector.map memberFacts
  let marketFacts := (metricInput.primaryMembers.filter fun member =>
    !member.suspended && member.validQuote).map memberFacts
  let (sectorDay, breadthDay) := returnAndBreadth sectorFacts MemberFacts.returnDay
  let (sector5m, breadth5m) := returnAndBreadth sectorFacts MemberFacts.return5m
  let (sector15m, _) := returnAndBreadth sectorFacts MemberFacts.return15m
  let (marketDay, _) := returnAndBreadth marketFacts MemberFacts.returnDay
  let (market5m, _) := returnAndBreadth marketFacts MemberFacts.return5m
  let (market15m, _) := returnAndBreadth marketFacts MemberFacts.return15m
  let (previousSector5m, previousBreadth5m) :=
    returnAndBreadth sectorFacts MemberFacts.previousReturn5m
  let (currentAmount, inactiveRatio) := currentAmounts sectorFacts
  let (turnoverBaseline, headBaseline) :=
    historicalBaselines metricInput.sameClockWindows sectorFacts
  let turnoverRatio := ratio currentAmount turnoverBaseline
  let share := headShare sectorFacts
  let core := coreStats sectorFacts
  let rise := risingTooFast sector5m previousSector5m
  let head := headConcentration share headBaseline
  let crowded := crowding rise turnoverRatio head
  let collapse := breadthCollapse breadth5m previousBreadth5m
  let early := metricInput.earlyEvidence
  let date := metricInput.tradingDate
  let values := emptyValues metricInput
  let values := setValue values "RISE_RATE_PPM" rise
  let values := setValue values "HEAD_CONCENTRATION_PPM" head
  let values := setValue values "INTERNAL_DIVERGENCE_PPM" (internalDivergence sectorFacts sector5m)
  let values := setValue values "CROWDING_PPM" crowded
  let values := setValue values "LIQUIDITY_WEAKENING_PPM"
    (liquidity currentAmount (previousAmount sectorFacts) inactiveRatio)
  let values := setValue values "CORE_WEAKENING_PPM" (coreWeakening core)
  let values := setValue values "BREADTH_COLLAPSE_PPM" collapse
  let values := setValue values "STAMPEDE_RISK_PPM" (stampede sector5m turnoverRatio collapse)
  let values := setValue values "T1_CHASING_RISK_PPM" (t1Chasing sectorDay rise crowded head)
  let values :=
    if earlyApplicable early date then
      setValue values "EARLY_SIGNAL_FAILURE_PPM"
        (earlyFailure early date sectorDay breadthDay turnoverRatio)
    else values
  let values := setValue values "EARLY_ACTIVITY_PPM"
    (earlyActivity sector5m breadth5m turnoverRatio)
  let values := setValue values "HEALTHY_BREADTH_PPM" (healthyBreadth breadth5m head)
  let values := setValue values "RELATIVE_STRENGTH_PPM"
    (relativeStrength sector5m sector15m market5m market15m)
  let values := setValue values "TURNOVER_CONFIRMATION_PPM" (turnoverConfirmation turnoverRatio)
  let values := setContextValue values "ETF_CONFIRMATION_PPM" metricInput.etfContext market5m
    etfConfirmation
  let values := setContextValue values "STYLE_SUPPORT_PPM" metricInput.styleContext market5m
    styleSupport
  let values := setValue values "LOW_CROWDING_PPM" (crowded.map fun ppm =>
    ⟨1000000 - ppm.1, by have := ppm.2; omega⟩)
  let values := setValue values "CONTINUITY_STRENGTHENING_PPM"
    (if producer.isCurrent then continuityStrengthening metricInput.continuityObservations
    else none)
  let evidence := [("sector_return_day", decimalText sectorDay),
    ("sector_return_5m", decimalText sector5m), ("sector_return_15m", decimalText sector15m),
    ("market_return_day", decimalText marketDay), ("market_return_5m", decimalText market5m),
    ("market_return_15m", decimalText market15m), ("breadth_day", decimalText breadthDay),
    ("breadth_5m", decimalText breadth5m),
    ("previous_breadth_5m", decimalText previousBreadth5m),
    ("turnover_ratio_5m", decimalText turnoverRatio),
    ("sector_amount_5m", decimalText currentAmount),
    ("sector_amount_15m", decimalText (amount15m sectorFacts)),
    ("turnover_baseline_5m", decimalText turnoverBaseline), ("head_share", decimalText share),
    ("head_share_baseline", decimalText headBaseline),
    ("core_member_uids", .arr ((core.elim [] CoreStats.memberUids).map Value.str))] ++
    (if producer.isCurrent then
      [("continuity_observations", continuityEvidence metricInput.continuityObservations)]
    else [])
  (values, evidence)

/-- The document of a metric. -/
def MetricValue.document (item : MetricValue) : Value :=
  .obj [("code", .str item.code), ("status", .str item.result.status.text),
    ("value_ppm", item.result.valuePpm.elim .null Value.int)]

def MetricQuality.document (quality : MetricQuality) : Value :=
  .obj [("fitness_status", .str quality.fitnessStatus.text),
    ("quote_coverage_ppm", .int quality.quoteCoveragePpm),
    ("historical_coverage_ppm", .int quality.historicalCoveragePpm),
    ("valid_member_count", .int quality.validMemberCount),
    ("tradable_expected_count", .int quality.tradableExpectedCount),
    ("reason_codes", .arr (quality.reasonCodes.map Value.str))]

/-- The members of the sector that are not suspended, in the order of their identifiers. -/
def MetricInput.activeSector (metricInput : MetricInput) : List MetricMember :=
  ((metricInput.sectorMemberUids.insertionSort (· ≤ ·)).filterMap fun uid =>
    metricInput.primaryMembers.find? fun member => member.instrumentUid = uid).filter
      fun member => !member.suspended

/-- The active members with a valid quote. -/
def MetricInput.validSector (metricInput : MetricInput) : List MetricMember :=
  metricInput.activeSector.filter MetricMember.validQuote

/-- The quality of an input. -/
def MetricInput.quality (metricInput : MetricInput) : MetricQuality :=
  metricQuality metricInput metricInput.activeSector metricInput.validSector

/-- The metrics of an input, with their base facts : an unfit input has none, and a limited
one none of the Scout. -/
def MarketMetricProducer.results (producer : MarketMetricProducer) (metricInput : MetricInput) :
    MetricResults × List (String × Value) :=
  match metricInput.quality.fitnessStatus with
  | .unfit => (removeValues (emptyValues metricInput) allCodes, [])
  | .fitWithLimitations =>
    let (values, evidence) := producer.calculate metricInput metricInput.validSector
    (removeValues values scoutCodes, evidence)
  | .fit => producer.calculate metricInput metricInput.validSector

/-- `MarketMetricProducer.evaluate(metric_input)`. -/
def MarketMetricProducer.evaluate (producer : MarketMetricProducer) (metricInput : MetricInput) :
    MetricOutput :=
  let (results, baseFacts) := producer.results metricInput
  let values := allCodes.map fun code => (⟨code, results code⟩ : MetricValue)
  let dates := metricInput.sameClockWindows.map HistoricalSameClockWindow.tradingDate
  let evidence : Value :=
    .obj [("rule_version", .str producer.ruleVersion),
      ("sector_uid", .str metricInput.sectorUid),
      ("primary_member_count", .int metricInput.primaryMembers.length),
      ("sector_member_uids", .arr ((metricInput.sectorMemberUids.insertionSort (· ≤ ·)).map
        Value.str)),
      ("same_clock_trading_dates", .arr ((dates.insertionSort (· ≤ ·)).map Value.str)),
      ("is_final_trading_snapshot", .bool metricInput.isFinalTradingSnapshot),
      ("quality", metricInput.quality.document), ("base_facts", .obj baseFacts),
      ("metrics", .arr (values.map MetricValue.document))]
  { sectorUid := metricInput.sectorUid
    ruleVersion := producer.ruleVersion
    values := values
    quality := metricInput.quality
    evidence := evidence
    evidenceSha256 := canonicalHash evidence }

/-! ## Statuses -/

theorem setValue_eq_notApplicable_iff {values : MetricResults} {code c : String}
    {value : Option Ppm} :
    setValue values code value c = .notApplicable ↔ c ≠ code ∧ values c = .notApplicable := by
  unfold setValue
  split
  · cases value <;> simp [*]
  · simp [*]

theorem setContextValue_of_ne {values : MetricResults} {code c : String}
    {context : Option ContextMetric} {market5m : Option Decimal}
    {formula : Decimal → Decimal → Ppm} (h : c ≠ code) :
    setContextValue values code context market5m formula c = values c := by
  unfold setContextValue
  cases context <;> simp [setValue, h]

/-- Values that are removed are not thereby without application. -/
theorem removeValues_eq_notApplicable_iff {values : MetricResults} {codes : List String}
    {c : String} : removeValues values codes c = .notApplicable ↔ values c = .notApplicable := by
  unfold removeValues
  split
  · rename_i h
    constructor
    · intro h'
      cases h'
    · intro h'
      rw [h'] at h
      cases h.2
  · rfl

/-- Of the empty values only the early signal can be without application. -/
theorem emptyValues_eq_notApplicable_iff {metricInput : MetricInput} {code : String}
    (hcode : code ∈ guardianCodes) : emptyValues metricInput code = .notApplicable ↔
      code = "EARLY_SIGNAL_FAILURE_PPM" ∧
        earlyApplicable metricInput.earlyEvidence metricInput.tradingDate = false := by
  have hetf : code ≠ "ETF_CONFIRMATION_PPM" := by
    rintro rfl
    exact absurd hcode (by decide)
  have hstyle : code ≠ "STYLE_SUPPORT_PPM" := by
    rintro rfl
    exact absurd hcode (by decide)
  simp [emptyValues, hetf, hstyle]

/-- Calculating a Guardian metric never makes it inapplicable. -/
theorem MarketMetricProducer.calculate_eq_notApplicable_iff (producer : MarketMetricProducer)
    (metricInput : MetricInput) (validSector : List MetricMember) {code : String}
    (hcode : code ∈ guardianCodes) :
    (producer.calculate metricInput validSector).1 code = .notApplicable ↔
      code = "EARLY_SIGNAL_FAILURE_PPM" ∧
        earlyApplicable metricInput.earlyEvidence metricInput.tradingDate = false := by
  have hetf : code ≠ "ETF_CONFIRMATION_PPM" := by
    rintro rfl
    exact absurd hcode (by decide)
  have hstyle : code ≠ "STYLE_SUPPORT_PPM" := by
    rintro rfl
    exact absurd hcode (by decide)
  by_cases hearly : code = "EARLY_SIGNAL_FAILURE_PPM"
  · subst hearly
    cases happlicable : earlyApplicable metricInput.earlyEvidence metricInput.tradingDate <;>
      simp [MarketMetricProducer.calculate, setValue_eq_notApplicable_iff,
        setContextValue_of_ne hetf, setContextValue_of_ne hstyle,
        emptyValues_eq_notApplicable_iff hcode, happlicable]
  · have hempty : emptyValues metricInput code ≠ .notApplicable := fun h =>
      hearly ((emptyValues_eq_notApplicable_iff hcode).mp h).1
    cases happlicable : earlyApplicable metricInput.earlyEvidence metricInput.tradingDate <;>
      simp [MarketMetricProducer.calculate, setValue_eq_notApplicable_iff,
        setContextValue_of_ne hetf, setContextValue_of_ne hstyle, hempty, hearly, happlicable]

/-- Of the Guardian metrics only the failure of an early signal can be inapplicable, and it
is so without an applicable early signal. -/
theorem MarketMetricProducer.results_eq_notApplicable_iff (producer : MarketMetricProducer)
    (metricInput : MetricInput) {code : String} (hcode : code ∈ guardianCodes) :
    (producer.results metricInput).1 code = .notApplicable ↔
      code = "EARLY_SIGNAL_FAILURE_PPM" ∧
        earlyApplicable metricInput.earlyEvidence metricInput.tradingDate = false := by
  unfold MarketMetricProducer.results
  split
  · rw [removeValues_eq_notApplicable_iff, emptyValues_eq_notApplicable_iff hcode]
  · simp only [removeValues_eq_notApplicable_iff]
    exact producer.calculate_eq_notApplicable_iff metricInput _ hcode
  · exact producer.calculate_eq_notApplicable_iff metricInput _ hcode

/-- The values of a family are looked up in the results. -/
theorem lookup_filterMap_results (results : MetricResults) {codes : List String} {code : String}
    (hcode : code ∈ codes) (all : List String) :
    (all.filterMap fun c =>
      if c ∈ codes then (results c).valuePpm.map fun ppm => (c, ppm) else none).lookup code =
        if code ∈ all then (results code).valuePpm else none := by
  induction all with
  | nil => rfl
  | cons c all ih =>
    rw [List.filterMap_cons]
    by_cases hc : code = c
    · subst hc
      cases hvalue : (results code).valuePpm with
      | none => simp [hcode, ih, hvalue]
      | some ppm => simp [hcode]
    · have hne : (code == c) = false := by simpa using hc
      by_cases hmem : c ∈ codes
      · cases hvalue : (results c).valuePpm <;> simp [hmem, ih, hc, hne, List.lookup_cons]
      · simp [hmem, ih, hc]

/-- The Guardian metrics of an output are the values of its results. -/
theorem MarketMetricProducer.lookup_guardianMetrics (producer : MarketMetricProducer)
    (metricInput : MetricInput) {code : String} (hcode : code ∈ guardianCodes) :
    (producer.evaluate metricInput).guardianMetrics.lookup code =
      ((producer.results metricInput).1 code).valuePpm := by
  have h := lookup_filterMap_results (producer.results metricInput).1 hcode allCodes
  rw [if_pos (mem_allCodes.mpr (Or.inl hcode))] at h
  rw [← h, MetricOutput.guardianMetrics, MetricOutput.metricsOf, MarketMetricProducer.evaluate,
    List.filterMap_map]
  rfl

/-- The status of a metric is that of its result. -/
theorem MarketMetricProducer.statusByMetric_eq (producer : MarketMetricProducer)
    (metricInput : MetricInput) {code : String} (hcode : code ∈ allCodes) :
    (producer.evaluate metricInput).statusByMetric code =
      some ((producer.results metricInput).1 code).status := by
  have hfind : ∀ all : List String, code ∈ all →
      ((all.map fun c => (⟨c, (producer.results metricInput).1 c⟩ : MetricValue)).find?
        fun item => item.code = code).map (fun item => item.result.status) =
          some ((producer.results metricInput).1 code).status := by
    intro all hmem
    induction all with
    | nil => cases hmem
    | cons c all ih =>
      by_cases hc : c = code
      · simp [hc]
      · have hrest : code ∈ all := (List.mem_cons.mp hmem).resolve_left (Ne.symm hc)
        simpa [hc] using ih hrest
  exact hfind allCodes hcode

/-! ## A sample -/

/-- A member that rose by one per cent. -/
def sampleMember (uid : Uid) : MetricMember where
  instrumentUid := uid
  quoteStatus := .valid
  price := some (hundredths 1010)
  preClose := some (hundredths 1000)
  close5m := some (hundredths 1005)
  close10m := some (hundredths 1002)
  close15m := some (hundredths 1000)
  amount5m := some (ofInt 1000)
  amount15m := some (ofInt 3000)
  previousAmount5m := some (ofInt 1000)
  trailingDailyAmounts := List.replicate 20 (ofInt 48000)
  knownSuspended := false

/-- Five members make a sector fit. -/
def sampleUids : List Uid := ["m1", "m2", "m3", "m4", "m5"]

/-- A window of an earlier day with the same amounts. -/
def sampleWindow (date : String) : HistoricalSameClockWindow where
  tradingDate := date
  memberAmounts := sampleUids.map fun uid => (uid, ofInt 1000)
  membersUnique := by decide

/-- A quiet sector, whose provider is limited or not. -/
def sampleInput (early : Option EarlyEvidence) (limited : Bool) : MetricInput where
  sectorUid := "sector"
  sectorMemberUids := sampleUids
  primaryMembers := sampleUids.map sampleMember
  sameClockWindows := ["2025-01-02", "2025-01-03", "2025-01-06"].map sampleWindow
  historicalCoverage := one
  providerCapabilityFit := true
  tradingDate := "2025-01-07"
  marketPhase := "CONTINUOUS_AM"
  hasCompleteMinute := true
  providerCapabilityLimited := limited
  isFinalTradingSnapshot := false
  etfContext := none
  styleContext := none
  earlyEvidence := early
  contextFit := true
  continuityObservations := []
  sectorNamed := by decide
  primaryUnique := by decide
  sectorUnique := by decide
  sectorPrimary := by decide
  coverageBounds := by decide
  windowsUnique := by decide
  observationsUnique := by decide
  observationsOfDay := by decide

/-- An earlier qualifying signal of the day. -/
def sampleEarly : EarlyEvidence where
  tradingDate := "2025-01-07"
  marketMinutesAgo := 15
  sectorReturnDay := thousandths 10
  breadth := one
  turnoverRatio := one
  isQualifying := true
  isOfficial := true

/-- The output of the quiet sector. -/
def sampleOutput (early : Option EarlyEvidence) (limited : Bool) : MetricOutput :=
  MarketMetricProducer.current.evaluate (sampleInput early limited)

example : (sampleOutput none false).scoutMetrics.lookup "EARLY_ACTIVITY_PPM" = some 426810 := by
  decide +kernel

end MarketMonitor
