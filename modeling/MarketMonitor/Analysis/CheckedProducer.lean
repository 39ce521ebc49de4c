import MarketMonitor.Library.Faults
import MarketMonitor.Library.JsonIntegers
import MarketMonitor.Library.LocationStatistics
import MarketMonitor.Library.Rounding
import MarketMonitor.Analysis.MarketMetrics
import MarketMonitor.Persistence.Instants

/-!
# The producer in exact arithmetic

`MarketMetricProducer.evaluate` once more, over the rational values of its input and with
every partial operation of the source explicit : a division, an index, a look up, an
assertion, the constructor of a metric value, the conversion of a time to UTC and the text of an
integer can each raise. How a rational is written in the evidence is a parameter.
-/

namespace MarketMonitor.Exact

open Faults
open Json (Value)
open LocationStatistics (sorted)

/-- The rational value of a decimal that may be missing. -/
abbrev exact (value : Option Decimal) : Option ℚ := value.map Decimal.toRat

/-! ## Statistics -/

/-- `_clamp01(value)`. -/
def clamp01 (value : ℚ) : ℚ := min 1 (max 0 value)

/-- `_linear(value, low, high)`. -/
def linear (value low high : ℚ) : Checked ℚ := do
  return clamp01 (← quotient (value - low) (high - low))

/-- `_ppm_value(value)`. -/
def ppmValue (value : ℚ) : ℤ := Decimal.roundEven (clamp01 value * 1000000)

theorem clamp01_bounds (value : ℚ) : 0 ≤ clamp01 value ∧ clamp01 value ≤ 1 :=
  ⟨le_min zero_le_one (le_max_left _ _), min_le_left _ _⟩

/-- A metric in parts per million is in range. -/
theorem ppmValue_bounds (value : ℚ) : 0 ≤ ppmValue value ∧ ppmValue value ≤ 1000000 := by
  obtain ⟨hlow, hhigh⟩ := clamp01_bounds value
  constructor
  · calc (0 : ℤ) = Decimal.roundEven ((0 : ℤ) : ℚ) := (Decimal.roundEven_intCast 0).symm
      _ ≤ ppmValue value := Decimal.roundEven_mono (by rw [Int.cast_zero]; positivity)
  · calc ppmValue value ≤ Decimal.roundEven ((1000000 : ℤ) : ℚ) :=
          Decimal.roundEven_mono (by push_cast; linarith)
      _ = 1000000 := Decimal.roundEven_intCast 1000000

/-- `_from_ppm(value)`. -/
def fromPpm (value : ℤ) : Checked ℚ := quotient value 1000000

/-- `int(value)`. -/
def truncate (value : ℚ) : ℤ := if 0 ≤ value then ⌊value⌋ else ⌈value⌉

/-- `_median(values)`. -/
def median (values : List ℚ) : Checked (Option ℚ) :=
  if values = [] then pure none
  else do
    let ordered := sorted values
    let middle := ordered.length / 2
    if ordered.length % 2 = 1 then
      return some (← item ordered middle)
    else
      let low ← item ordered (middle - 1)
      let high ← item ordered middle
      return some (← quotient (low + high) 2)

/-- `_percentile(values, proportion)`. -/
def percentile (values : List ℚ) (proportion : ℚ) : Checked ℚ := do
  let position := (values.length - 1 : ℚ) * proportion
  let lower := truncate position
  let upper := min (lower + 1) (values.length - 1)
  let low ← item values lower
  let high ← item values upper
  return low + (high - low) * (position - lower)

/-- `MarketMetricProducer.robust_return(values)`. -/
def robustReturn (values : List ℚ) : Checked (Option ℚ) :=
  if values = [] then pure none
  else do
    let ordered := sorted values
    if ordered.length < 20 then median ordered
    else
      let lower ← percentile ordered 0.05
      let upper ← percentile ordered 0.95
      let clipped := ordered.map fun value => min upper (max lower value)
      return some (← quotient clipped.sum ordered.length)

/-- `_return(numerator, denominator)`. -/
def returnOf : Option ℚ → Option ℚ → Checked (Option ℚ)
  | some numerator, some denominator =>
    if numerator ≤ 0 ∨ denominator ≤ 0 then pure none
    else do return some ((← quotient numerator denominator) - 1)
  | _, _ => pure none

/-- `_ratio(numerator, denominator)`. -/
def ratio : Option ℚ → Option ℚ → Checked (Option ℚ)
  | some numerator, some denominator =>
    if denominator ≤ 0 then pure none
    else do return some (← quotient numerator denominator)
  | _, _ => pure none

/-- The share of the values that satisfy a predicate. -/
def shareOf (values : List ℚ) (p : ℚ → Bool) : Checked (Option ℚ) :=
  ratio (some (values.countP p)) (some values.length)

/-- The values, when none is missing. -/
def present (values : List (Option ℚ)) : Option (List ℚ) := values.mapM id

/-- The amounts, when there are some and none is missing or negative. -/
def validAmounts (amounts : List (Option ℚ)) : Option (List ℚ) := do
  let amounts ← present amounts
  if amounts = [] ∨ amounts.any (· < 0) then none else some amounts

/-! ## Members -/

/-- `_MemberFacts` -/
structure MemberFacts where
  member : MetricMember
  returnDay : Option ℚ
  return5m : Option ℚ
  return15m : Option ℚ
  previousReturn5m : Option ℚ

/-- `_member_facts(member)`. -/
def memberFacts (member : MetricMember) : Checked MemberFacts := do
  let returnDay ← returnOf (exact member.price) (exact member.preClose)
  let return5m ← returnOf (exact member.price) (exact member.close5m)
  let return15m ← returnOf (exact member.price) (exact member.close15m)
  let previousReturn5m ← returnOf (exact member.close5m) (exact member.close10m)
  return ⟨member, returnDay, return5m, return15m, previousReturn5m⟩

/-- `_return_and_breadth(facts, attribute)`. -/
def returnAndBreadth (facts : List MemberFacts) (column : MemberFacts → Option ℚ) :
    Checked (Option ℚ × Option ℚ) :=
  match present (facts.map column) with
  | none => pure (none, none)
  | some returns =>
    if returns = [] then pure (none, none)
    else do return (← robustReturn returns, ← shareOf returns (0 < ·))

/-- `_current_amounts(facts)`. -/
def currentAmounts (facts : List MemberFacts) : Checked (Option ℚ × Option ℚ) :=
  match validAmounts (facts.map fun fact => exact fact.member.amount5m) with
  | none => pure (none, none)
  | some amounts => do return (some amounts.sum, ← shareOf amounts (· = 0))

/-- `_previous_amount(facts)`. -/
def previousAmount (facts : List MemberFacts) : Option ℚ :=
  (validAmounts (facts.map fun fact => exact fact.member.previousAmount5m)).map List.sum

/-- `_amount_15m(facts)`. -/
def amount15m (facts : List MemberFacts) : Option ℚ :=
  (validAmounts (facts.map fun fact => exact fact.member.amount15m)).map List.sum

/-- The order `(-amount, uid)`. -/
def byAmountDesc (a b : Uid × ℚ) : Prop := b.2 < a.2 ∨ (a.2 = b.2 ∧ a.1 ≤ b.1)

instance (a b : Uid × ℚ) : Decidable (byAmountDesc a b) := inferInstanceAs (Decidable (_ ∨ _))

/-- The sum of the largest amounts. -/
def headAmount (amounts : List (Uid × ℚ)) : ℚ :=
  (((amounts.insertionSort byAmountDesc).take (headCount amounts.length)).map Prod.snd).sum

/-- The amounts of a window, each the look up of a member. -/
def windowAmounts (window : HistoricalSameClockWindow) (uids : List Uid) :
    Checked (List (Uid × ℚ)) :=
  uids.mapM fun uid => do
    return (uid, (← entry (fun uid => window.memberAmounts.lookup uid) uid).toRat)

/-- The body of the loop of `_historical_baselines`, for one window. -/
def windowShare (uids : List Uid) (window : HistoricalSameClockWindow) :
    Checked (Option (ℚ × ℚ)) :=
  if uids.any fun uid => (window.memberAmounts.lookup uid).all (·.toRat < 0) then pure none
  else do
    let current ← windowAmounts window uids
    let total := (current.map Prod.snd).sum
    if total ≤ 0 then pure none
    else return some (total, ← quotient (headAmount current) total)

/-- `_historical_baselines(windows, facts)`. -/
def historicalBaselines (windows : List HistoricalSameClockWindow) (facts : List MemberFacts) :
    Checked (Option ℚ × Option ℚ) :=
  let uids := facts.map fun fact => fact.member.instrumentUid
  if uids = [] then pure (none, none)
  else do
    let shares ← (windows.insertionSort fun a b => a.tradingDate ≤ b.tradingDate).mapM
      (windowShare uids)
    let observed := shares.filterMap id
    if observed.length < 3 then pure (none, none)
    else return (← median (observed.map Prod.fst), ← median (observed.map Prod.snd))

/-- `_head_share(facts)`. -/
def headShare (facts : List MemberFacts) : Checked (Option ℚ) :=
  match validAmounts (facts.map fun fact => exact fact.member.amount5m) with
  | none => pure none
  | some amounts =>
    let total := amounts.sum
    if total ≤ 0 then pure none
    else do
      let uids := facts.map fun fact => fact.member.instrumentUid
      return some (← quotient (headAmount (uids.zip amounts)) total)

/-- `_CoreStats` -/
structure CoreStats where
  memberUids : List Uid
  return5m : Option ℚ
  noncoreReturn5m : Option ℚ
  breadth5m : Option ℚ

/-- The amounts of the last twenty days. -/
def trailing (fact : MemberFacts) : List ℚ :=
  (fact.member.trailingDailyAmounts.drop
    (fact.member.trailingDailyAmounts.length - 20)).map Decimal.toRat

/-- `_core_stats(facts)`. -/
def coreStats (facts : List MemberFacts) : Checked (Option CoreStats) :=
  let eligible := facts.filter fun fact =>
    20 ≤ fact.member.trailingDailyAmounts.length ∧
      (trailing fact).all (0 < ·) ∧ fact.return5m.isSome
  let count := min 10 (max 3 ⌈(eligible.length : ℚ) * 0.20⌉.toNat)
  let ranked := eligible.insertionSort fun a b =>
    byAmountDesc (a.member.instrumentUid, (trailing a).sum)
      (b.member.instrumentUid, (trailing b).sum)
  let core := ranked.take count
  let coreUids := core.map fun fact => fact.member.instrumentUid
  let noncore := facts.filter fun fact => fact.member.instrumentUid ∉ coreUids
  if eligible.length < 3 ∨ noncore = [] ∨ noncore.any fun fact => fact.return5m.isNone then
    pure none
  else do
    let coreReturns := core.filterMap MemberFacts.return5m
    let noncoreReturns := noncore.filterMap MemberFacts.return5m
    return some ⟨coreUids.insertionSort (· ≤ ·), ← robustReturn coreReturns,
      ← robustReturn noncoreReturns, ← shareOf coreReturns (0 < ·)⟩

/-! ## Formulas -/

/-- `_rising_too_fast(current, previous)`. -/
def risingTooFast : Option ℚ → Option ℚ → Checked (Option ℤ)
  | some current, some previous => do
    let speed ← linear current 0.015 0.040
    let gain ← linear (current - previous) 0.008 0.025
    return some (ppmValue (0.65 * speed + 0.35 * gain))
  | _, _ => pure none

/-- `_head_concentration(current, baseline)`. -/
def headConcentration : Option ℚ → Option ℚ → Checked (Option ℤ)
  | some current, some baseline =>
    if baseline ≤ 0 then pure none
    else do
      let level ← linear current 0.35 0.60
      let growth ← linear (← quotient current baseline) 1.20 1.80
      return some (ppmValue (0.60 * level + 0.40 * growth))
  | _, _ => pure none

/-- The share of the values whose sign opposes a sector that moved. -/
def oppositeShare (values : List ℚ) (sectorReturn : ℚ) : Checked (Option ℚ) :=
  if |sectorReturn| < 0.002 then pure (some 0)
  else shareOf values fun value => value * sectorReturn < 0

/-- `_internal_divergence(facts, sector_return)`. -/
def internalDivergence (facts : List MemberFacts) (sectorReturn : Option ℚ) :
    Checked (Option ℤ) :=
  match sectorReturn, present (facts.map MemberFacts.return5m) with
  | some sectorReturn, some values => do
    match ← median values with
    | none => pure none
    | some center =>
      match ← median (values.map fun value => |value - center|) with
      | none => pure none
      | some dispersion =>
        match ← oppositeShare values sectorReturn with
        | none => pure none
        | some opposite => do
          let spread ← linear dispersion 0.006 0.020
          let against ← linear opposite 0.30 0.60
          return some (ppmValue (0.55 * spread + 0.45 * against))
  | _, _ => pure none

/-- `_crowding(rise_ppm, turnover_ratio, head_ppm)`. -/
def crowding : Option ℤ → Option ℚ → Option ℤ → Checked (Option ℤ)
  | some rise, some turnoverRatio, some head => do
    let turnover ← linear turnoverRatio 1.30 2.50
    return some (ppmValue (0.35 * (← fromPpm rise) + 0.35 * turnover + 0.30 * (← fromPpm head)))
  | _, _, _ => pure none

/-- `_liquidity(current_amount, previous_amount, inactive_ratio)`. -/
def liquidity : Option ℚ → Option ℚ → Option ℚ → Checked (Option ℤ)
  | some currentAmount, some previousAmount, some inactiveRatio =>
    if previousAmount ≤ 0 then pure none
    else do
      let fall ← linear (1 - (← quotient currentAmount previousAmount)) 0.20 0.60
      let inactive ← linear inactiveRatio 0.10 0.35
      return some (ppmValue (0.70 * fall + 0.30 * inactive))
  | _, _, _ => pure none

/-- `_core_weakening(core)`. -/
def coreWeakening : Option CoreStats → Checked (Option ℤ)
  | some ⟨_, some return5m, some noncoreReturn5m, some breadth5m⟩ => do
    let gap ← linear (noncoreReturn5m - return5m) 0.005 0.025
    let falling ← linear (0.50 - breadth5m) 0 0.30
    return some (ppmValue (0.65 * gap + 0.35 * falling))
  | _ => pure none

/-- `_breadth_collapse(current, previous)`. -/
def breadthCollapse : Option ℚ → Option ℚ → Checked (Option ℤ)
  | some current, some previous => do
    let fall ← linear (previous - current) 0.15 0.40
    let low ← linear (0.45 - current) 0 0.25
    return some (ppmValue (0.60 * fall + 0.40 * low))
  | _, _ => pure none

/-- `_stampede(sector_return_5m, turnover_ratio, breadth_collapse_ppm)`. -/
def stampede : Option ℚ → Option ℚ → Option ℤ → Checked (Option ℤ)
  | some sectorReturn5m, some turnoverRatio, some breadthCollapse => do
    let fall ← linear (-sectorReturn5m) 0.015 0.040
    let turnover ← linear turnoverRatio 1.30 2.50
    return some (ppmValue (0.45 * (← fromPpm breadthCollapse) + 0.35 * fall + 0.20 * turnover))
  | _, _, _ => pure none

/-- `_t1_chasing(sector_return_day, rise_ppm, crowding_ppm, head_ppm)`. -/
def t1Chasing : Option ℚ → Option ℤ → Option ℤ → Option ℤ → Checked (Option ℤ)
  | some sectorReturnDay, some rise, some crowding, some head => do
    let day ← linear sectorReturnDay 0.025 0.070
    return some (ppmValue (0.35 * (← fromPpm rise) + 0.25 * (← fromPpm crowding) +
      0.20 * (← fromPpm head) + 0.20 * day))
  | _, _, _, _ => pure none

/-- `_early_failure(evidence, trading_date, sector_return_day, breadth, turnover_ratio)`. -/
def earlyFailure (evidence : Option EarlyEvidence) (tradingDate : String)
    (sectorReturnDay breadth turnoverRatio : Option ℚ) : Checked (Option ℤ) :=
  if ¬earlyApplicable evidence tradingDate then pure none
  else
    match sectorReturnDay, breadth, turnoverRatio with
    | some sectorReturnDay, some breadth, some turnoverRatio => do
      let evidence ← asserted evidence
      let lost ← linear (evidence.sectorReturnDay.toRat - sectorReturnDay) 0.010 0.035
      let narrowed ← linear (evidence.breadth.toRat - breadth) 0.15 0.40
      let dried ← linear (evidence.turnoverRatio.toRat - turnoverRatio) 0.30 1.00
      return some (ppmValue (0.45 * lost + 0.35 * narrowed + 0.20 * dried))
    | _, _, _ => pure none

/-- `_early_activity(sector_return_5m, breadth_5m, turnover_ratio)`. -/
def earlyActivity : Option ℚ → Option ℚ → Option ℚ → Checked (Option ℤ)
  | some sectorReturn5m, some breadth5m, some turnoverRatio => do
    let positiveStart ← linear sectorReturn5m 0.003 0.012
    let overextended ← linear sectorReturn5m 0.025 0.045
    let breadth ← linear breadth5m 0.52 0.72
    let turnover ← linear turnoverRatio 1.20 2.00
    return some (ppmValue (0.35 * positiveStart * (1 - overextended) + 0.35 * breadth +
      0.30 * turnover))
  | _, _, _ => pure none

/-- `_healthy_breadth(breadth_5m, head_ppm)`. -/
def healthyBreadth : Option ℚ → Option ℤ → Checked (Option ℤ)
  | some breadth5m, some head => do
    let breadth ← linear breadth5m 0.50 0.75
    return some (ppmValue (breadth * (1 - 0.40 * (← fromPpm head))))
  | _, _ => pure none

/-- `_relative_strength(sector_5m, sector_15m, market_5m, market_15m)`. -/
def relativeStrength (sector5m sector15m market5m market15m : Option ℚ) : Checked (Option ℤ) :=
  if none ∈ [sector5m, sector15m, market5m, market15m] then pure none
  else do
    let sector5m ← asserted sector5m
    let sector15m ← asserted sector15m
    let market5m ← asserted market5m
    let market15m ← asserted market15m
    let short ← linear (sector5m - market5m) 0.002 0.015
    let long ← linear (sector15m - market15m) 0.003 0.025
    return some (ppmValue (0.60 * short + 0.40 * long))

/-- `_turnover_confirmation(turnover_ratio)`. -/
def turnoverConfirmation : Option ℚ → Checked (Option ℤ)
  | some turnoverRatio => do return some (ppmValue (← linear turnoverRatio 1.10 2.20))
  | none => pure none

/-- `_etf_confirmation(context_return, market_return)`. -/
def etfConfirmation (contextReturn marketReturn : ℚ) : Checked ℤ := do
  let level ← linear contextReturn 0.001 0.010
  let lead ← linear (contextReturn - marketReturn) 0.001 0.008
  return ppmValue (0.55 * level + 0.45 * lead)

/-- `_style_support(context_return, market_return)`. -/
def styleSupport (contextReturn marketReturn : ℚ) : Checked ℤ := do
  return ppmValue (← linear (contextReturn - marketReturn) 0.001 0.010)

/-! ## Continuity -/

/-- `_continuity_component(values, positive_floor, tolerance)`, of three values. -/
def continuityComponent (values : List ℚ) (positiveFloor tolerance : ℚ) : Checked ℚ :=
  if values.any (· ≤ positiveFloor) then pure 0
  else do
    let firstStep := (← item values 1) - (← item values 0)
    let secondStep := (← item values 2) - (← item values 1)
    if 0 ≤ firstStep ∧ 0 ≤ secondStep then pure 1
    else
      let negativeSteps := [firstStep, secondStep].filter (· < 0)
      if negativeSteps.length = 1 then
        if |← item negativeSteps 0| ≤ tolerance ∧ (← item values 0) ≤ (← item values 2) then
          pure 0.5
        else pure 0
      else pure 0

/-- The components of a continuity : a column, its floor, its tolerance and its weight. -/
def continuityComponents : List ((ContinuityObservation → Option Decimal) × ℚ × ℚ × ℚ) :=
  [(ContinuityObservation.relativeStrength5m, 0, 0.0015, 0.40),
    (ContinuityObservation.breadth5mUp, 0.50, 0.03, 0.35),
    (ContinuityObservation.turnoverRatio5m, 1, 0.10, 0.25)]

/-- The scores of the components with their weights, unless a value is missing. -/
def continuityScores (ordered : List ContinuityObservation) :
    List ((ContinuityObservation → Option Decimal) × ℚ × ℚ × ℚ) → Checked (Option (List (ℚ × ℚ)))
  | [] => pure (some [])
  | (column, positiveFloor, tolerance, weight) :: rest =>
    match present (ordered.map fun o => exact (column o)) with
    | none => pure none
    | some values => do
      let score ← continuityComponent values positiveFloor tolerance
      return (← continuityScores ordered rest).map ((score, weight) :: ·)

/-- `_continuity_strengthening(observations)`. -/
def continuityStrengthening (observations : List ContinuityObservation) :
    Checked (Option ℤ) :=
  if observations.length ≠ 3 then pure none
  else do
    let ordered := orderedContinuityObservations observations
    let last ← item ordered (-1)
    let first ← item ordered 0
    if (ordered.map ContinuityObservation.observationUid).dedup.length ≠ 3 ∨
        (ordered.map ContinuityObservation.observedUtc).dedup.length ≠ 3 ∨
        (ordered.map ContinuityObservation.tradingDate).dedup.length ≠ 1 ∨
        (last.marketMinuteIndex : ℤ) - first.marketMinuteIndex < 10 ∨
        ordered.any (fun o => o.fitnessStatus ≠ .fit) then pure none
    else
      match ← continuityScores ordered continuityComponents with
      | none => pure none
      | some scores =>
        return some (ppmValue (scores.map fun (score, weight) => score * weight).sum)

/-! ## Quality -/

/-- `_quality(metric_input, active_sector, valid_sector)`. -/
def quality (metricInput : MetricInput) (activeSector validSector : List MetricMember) :
    Checked MetricQuality := do
  let denominator := activeSector.length
  let valid := validSector.length
  let coverage ← (if denominator = 0 then pure 0 else quotient valid denominator)
  let historical := metricInput.historicalCoverage.toRat
  let rated (fitness : MetricFitness) (reasons : List String) : MetricQuality :=
    { fitnessStatus := fitness
      quoteCoveragePpm := ⟨ppmValue coverage, ppmValue_bounds coverage⟩
      historicalCoveragePpm := ⟨ppmValue historical, ppmValue_bounds historical⟩
      validMemberCount := valid
      tradableExpectedCount := denominator
      reasonCodes := reasons.insertionSort (· ≤ ·) }
  let evaluablePhase := metricInput.marketPhase ∈ ["CONTINUOUS_AM", "CONTINUOUS_PM"] ∨
    (metricInput.marketPhase = "CLOSED" ∧ metricInput.isFinalTradingSnapshot)
  let reason (p : Bool) (code : String) : List String := if p then [code] else []
  let unfitReasons := reason (denominator = 0) "NO_TRADABLE_MEMBERS" ++
    reason (coverage < 0.70) "QUOTE_COVERAGE_UNFIT" ++
    reason (valid < 3) "INSUFFICIENT_VALID_MEMBERS" ++
    reason (historical < 0.70) "HISTORICAL_COVERAGE_UNFIT" ++
    reason (!metricInput.providerCapabilityFit) "PRIMARY_PROVIDER_UNFIT"
  let limitedReasons := reason (coverage < 0.85) "QUOTE_COVERAGE_LIMITED" ++
    reason (historical < 0.80) "HISTORICAL_COVERAGE_LIMITED" ++
    reason metricInput.providerCapabilityLimited "PRIMARY_PROVIDER_LIMITED" ++
    reason (!metricInput.contextFit) "CONTEXT_LIMITED" ++
    reason (valid < 5) "VALID_MEMBER_COUNT_LIMITED"
  if ¬evaluablePhase ∨ ¬metricInput.hasCompleteMinute then
    return rated .unfit ["MARKET_PHASE_NOT_EVALUABLE"]
  else if unfitReasons ≠ [] then return rated .unfit unfitReasons
  else if limitedReasons ≠ [] then return rated .fitWithLimitations limitedReasons
  else return rated .fit []

/-! ## Values -/

/-- `MetricValue(code, status, value_ppm)`. -/
def metricValue (code : String) (status : MetricStatus) (valuePpm : Option ℤ) :
    Checked MetricValue :=
  match status, valuePpm with
  | .value, some ppm =>
    if h : 0 ≤ ppm ∧ ppm ≤ 1000000 then pure ⟨code, .value ⟨ppm, h⟩⟩
    else throw (.valueError "VALUE metrics require a PPM value")
  | .value, none => throw (.valueError "VALUE metrics require a PPM value")
  | .missing, none => pure ⟨code, .missing⟩
  | .notApplicable, none => pure ⟨code, .notApplicable⟩
  | _, some _ =>
    throw (.valueError "missing or not-applicable metrics cannot carry a PPM value")

/-- The dictionary of the metrics. -/
abbrev Values := String → Option MetricValue

/-- `values[code] = item` -/
def Values.set (values : Values) (code : String) (item : MetricValue) : Values :=
  fun c => if c = code then some item else values c

/-- `values[code] = _not_applicable(code)` -/
def Values.setNotApplicable (values : Values) (code : String) : Checked Values := do
  return values.set code (← metricValue code .notApplicable none)

/-- `values[code] = _missing(code)` -/
def Values.setMissing (values : Values) (code : String) : Checked Values := do
  return values.set code (← metricValue code .missing none)

/-- `values[code] = _value(code, value_ppm)` -/
def Values.setPpm (values : Values) (code : String) (valuePpm : ℤ) : Checked Values := do
  return values.set code (← metricValue code .value (some valuePpm))

/-- `_empty_values(metric_input)`. -/
def emptyValues (metricInput : MetricInput) : Checked Values := do
  let missing ← allCodes.mapM fun code => metricValue code .missing none
  let values : Values := fun code => missing.find? fun item => item.code = code
  let values ← (if metricInput.etfContext.isNone then
      values.setNotApplicable "ETF_CONFIRMATION_PPM" else pure values)
  let values ← (if metricInput.styleContext.isNone then
      values.setNotApplicable "STYLE_SUPPORT_PPM" else pure values)
  if earlyApplicable metricInput.earlyEvidence metricInput.tradingDate then pure values
  else values.setNotApplicable "EARLY_SIGNAL_FAILURE_PPM"

/-- `_set_value(values, code, value)`. -/
def setValue (values : Values) (code : String) : Option ℤ → Checked Values
  | none => values.setMissing code
  | some valuePpm => values.setPpm code valuePpm

/-- `_set_context_value(values, code, context, market_5m, formula)`. -/
def setContextValue (values : Values) (code : String) (context : Option ContextMetric)
    (market5m : Option ℚ) (formula : ℚ → ℚ → Checked ℤ) : Checked Values :=
  match context with
  | none => values.setNotApplicable code
  | some context =>
    match context.return5m, market5m with
    | some return5m, some market5m => do
      values.setPpm code (← formula return5m.toRat market5m)
    | _, _ => values.setMissing code

/-- `_remove_values(values, codes)`. -/
def removeValues (values : Values) (codes : List String) : Values := fun code =>
  (values code).map fun item =>
    if code ∈ codes ∧ item.result.status = .value then ⟨code, .missing⟩ else item

/-! ## The evidence -/

section

/- How `_decimal_text` writes a rational. -/
variable (text : ℚ → String)

/-- `_decimal_text(value)`. -/
def decimalText (value : Option ℚ) : Value := Value.optional (value.map text)

/-- `observed_at.astimezone(UTC)`, as a text : the calendar of the language has the years from 1
to 9999. -/
def utcText (observedAt : AwareDatetime) : Checked String :=
  match observedAt.formatRfc3339 with
  | some text => pure text
  | none => throw .overflowError

/-- The evidence of one observation. -/
def observationEvidence (o : ContinuityObservation) : Checked Value := do
  return .obj [("observation_uid", .str o.observationUid),
    ("observed_at", .str (← utcText o.observedAt)),
    ("trading_date", .str o.tradingDate),
    ("market_minute_index", .int o.marketMinuteIndex),
    ("fitness_status", .str o.fitnessStatus.text),
    ("relative_strength_5m", decimalText text (exact o.relativeStrength5m)),
    ("breadth_5m_up", decimalText text (exact o.breadth5mUp)),
    ("turnover_ratio_5m", decimalText text (exact o.turnoverRatio5m))]

/-- `_continuity_evidence(observations)`. -/
def continuityEvidence (observations : List ContinuityObservation) : Checked Value := do
  return .arr (← (orderedContinuityObservations observations).mapM (observationEvidence text))

/-- The exception of an integer of too many digits. -/
def tooManyDigits : Fault := .valueError
  ("Exceeds the limit (4300 digits) for integer string conversion; " ++
    "use sys.set_int_max_str_digits() to increase the limit")

/-- `canonical_hash(value)` -/
def canonicalHash (value : Value) : Checked String :=
  if Json.Printable value then pure (MarketMonitor.canonicalHash value) else throw tooManyDigits

/-! ## The producer -/

/-- The returns and breadths, amounts and shares `_calculate` works on. -/
structure Facts where
  sectorFacts : List MemberFacts
  sectorDay : Option ℚ
  breadthDay : Option ℚ
  sector5m : Option ℚ
  breadth5m : Option ℚ
  sector15m : Option ℚ
  marketDay : Option ℚ
  market5m : Option ℚ
  market15m : Option ℚ
  previousSector5m : Option ℚ
  previousBreadth5m : Option ℚ
  currentAmount : Option ℚ
  inactiveRatio : Option ℚ
  turnoverBaseline : Option ℚ
  headBaseline : Option ℚ
  turnoverRatio : Option ℚ
  headShare : Option ℚ
  core : Option CoreStats

/-- The first part of `_calculate`. -/
def calculateFacts (metricInput : MetricInput) (validSector : List MetricMember) :
    Checked Facts := do
  let sectorFacts ← validSector.mapM memberFacts
  let marketFacts ← (metricInput.primaryMembers.filter fun member =>
    !member.suspended && member.validQuote).mapM memberFacts
  let (sectorDay, breadthDay) ← returnAndBreadth sectorFacts MemberFacts.returnDay
  let (sector5m, breadth5m) ← returnAndBreadth sectorFacts MemberFacts.return5m
  let (sector15m, _) ← returnAndBreadth sectorFacts MemberFacts.return15m
  let (marketDay, _) ← returnAndBreadth marketFacts MemberFacts.returnDay
  let (market5m, _) ← returnAndBreadth marketFacts MemberFacts.return5m
  let (market15m, _) ← returnAndBreadth marketFacts MemberFacts.return15m
  let (previousSector5m, previousBreadth5m) ←
    returnAndBreadth sectorFacts MemberFacts.previousReturn5m
  let (currentAmount, inactiveRatio) ← currentAmounts sectorFacts
  let (turnoverBaseline, headBaseline) ←
    historicalBaselines metricInput.sameClockWindows sectorFacts
  let turnoverRatio ← ratio currentAmount turnoverBaseline
  let share ← headShare sectorFacts
  let core ← coreStats sectorFacts
  return { sectorFacts, sectorDay, breadthDay, sector5m, breadth5m, sector15m, marketDay,
           market5m, market15m, previousSector5m, previousBreadth5m, currentAmount,
           inactiveRatio, turnoverBaseline, headBaseline, turnoverRatio, headShare := share,
           core }

/-- The metrics `_calculate` sets, in its order. -/
def calculateValues (current : Bool) (metricInput : MetricInput) (facts : Facts) :
    Checked Values := do
  let early := metricInput.earlyEvidence
  let date := metricInput.tradingDate
  let values ← emptyValues metricInput
  let rise ← risingTooFast facts.sector5m facts.previousSector5m
  let head ← headConcentration facts.headShare facts.headBaseline
  let divergence ← internalDivergence facts.sectorFacts facts.sector5m
  let crowded ← crowding rise facts.turnoverRatio head
  let liquid ← liquidity facts.currentAmount (previousAmount facts.sectorFacts)
    facts.inactiveRatio
  let weakening ← coreWeakening facts.core
  let collapse ← breadthCollapse facts.breadth5m facts.previousBreadth5m
  let rush ← stampede facts.sector5m facts.turnoverRatio collapse
  let chasing ← t1Chasing facts.sectorDay rise crowded head
  let failure ← earlyFailure early date facts.sectorDay facts.breadthDay facts.turnoverRatio
  let values ← setValue values "RISE_RATE_PPM" rise
  let values ← setValue values "HEAD_CONCENTRATION_PPM" head
  let values ← setValue values "INTERNAL_DIVERGENCE_PPM" divergence
  let values ← setValue values "CROWDING_PPM" crowded
  let values ← setValue values "LIQUIDITY_WEAKENING_PPM" liquid
  let values ← setValue values "CORE_WEAKENING_PPM" weakening
  let values ← setValue values "BREADTH_COLLAPSE_PPM" collapse
  let values ← setValue values "STAMPEDE_RISK_PPM" rush
  let values ← setValue values "T1_CHASING_RISK_PPM" chasing
  let values ← (if earlyApplicable early date then
      setValue values "EARLY_SIGNAL_FAILURE_PPM" failure else pure values)
  let values ← setValue values "EARLY_ACTIVITY_PPM"
    (← earlyActivity facts.sector5m facts.breadth5m facts.turnoverRatio)
  let values ← setValue values "HEALTHY_BREADTH_PPM" (← healthyBreadth facts.breadth5m head)
  let values ← setValue values "RELATIVE_STRENGTH_PPM"
    (← relativeStrength facts.sector5m facts.sector15m facts.market5m facts.market15m)
  let values ← setValue values "TURNOVER_CONFIRMATION_PPM"
    (← turnoverConfirmation facts.turnoverRatio)
  let values ← setContextValue values "ETF_CONFIRMATION_PPM" metricInput.etfContext
    facts.market5m etfConfirmation
  let values ← setContextValue values "STYLE_SUPPORT_PPM" metricInput.styleContext
    facts.market5m styleSupport
  let values ← setValue values "LOW_CROWDING_PPM" (crowded.map fun ppm => 1000000 - ppm)
  if current then
    setValue values "CONTINUITY_STRENGTHENING_PPM"
      (← continuityStrengthening metricInput.continuityObservations)
  else values.setMissing "CONTINUITY_STRENGTHENING_PPM"

/-- The base facts `_calculate` reports. -/
def calculateEvidence (current : Bool) (metricInput : MetricInput) (facts : Facts) :
    Checked (List (String × Value)) := do
  let evidence := [("sector_return_day", decimalText text facts.sectorDay),
    ("sector_return_5m", decimalText text facts.sector5m),
    ("sector_return_15m", decimalText text facts.sector15m),
    ("market_return_day", decimalText text facts.marketDay),
    ("market_return_5m", decimalText text facts.market5m),
    ("market_return_15m", decimalText text facts.market15m),
    ("breadth_day", decimalText text facts.breadthDay),
    ("breadth_5m", decimalText text facts.breadth5m),
    ("previous_breadth_5m", decimalText text facts.previousBreadth5m),
    ("turnover_ratio_5m", decimalText text facts.turnoverRatio),
    ("sector_amount_5m", decimalText text facts.currentAmount),
    ("sector_amount_15m", decimalText text (amount15m facts.sectorFacts)),
    ("turnover_baseline_5m", decimalText text facts.turnoverBaseline),
    ("head_share", decimalText text facts.headShare),
    ("head_share_baseline", decimalText text facts.headBaseline),
    ("core_member_uids", .arr ((facts.core.elim [] CoreStats.memberUids).map Value.str))]
  if current then
    return evidence ++ [("continuity_observations",
      ← continuityEvidence text metricInput.continuityObservations)]
  else return evidence

/-- `MarketMetricProducer._calculate(metric_input, valid_sector)`. -/
def calculate (producer : MarketMetricProducer) (metricInput : MetricInput)
    (validSector : List MetricMember) : Checked (Values × List (String × Value)) := do
  let facts ← calculateFacts metricInput validSector
  let values ← calculateValues producer.isCurrent metricInput facts
  return (values, ← calculateEvidence text producer.isCurrent metricInput facts)

/-- `evidence_payload` -/
def evidencePayload (producer : MarketMetricProducer) (metricInput : MetricInput)
    (quality : MetricQuality) (evidence : List (String × Value))
    (orderedValues : List MetricValue) : Value :=
  let uids := metricInput.sectorMemberUids.insertionSort (· ≤ ·)
  let dates := metricInput.sameClockWindows.map HistoricalSameClockWindow.tradingDate
  .obj [("rule_version", .str producer.ruleVersion),
    ("sector_uid", .str metricInput.sectorUid),
    ("primary_member_count", .int metricInput.primaryMembers.length),
    ("sector_member_uids", .arr (uids.map Value.str)),
    ("same_clock_trading_dates", .arr ((dates.insertionSort (· ≤ ·)).map Value.str)),
    ("is_final_trading_snapshot", .bool metricInput.isFinalTradingSnapshot),
    ("quality", quality.document), ("base_facts", .obj evidence),
    ("metrics", .arr (orderedValues.map MetricValue.document))]

/-- `MarketMetricProducer.evaluate(metric_input)`. -/
def evaluate (producer : MarketMetricProducer) (metricInput : MetricInput) :
    Checked MetricOutput := do
  let membersByUid (uid : Uid) : Option MetricMember :=
    metricInput.primaryMembers.find? fun member => member.instrumentUid = uid
  let uids := metricInput.sectorMemberUids.insertionSort (· ≤ ·)
  let sectorMembers ← uids.mapM (entry membersByUid)
  let activeSector := sectorMembers.filter fun member => !member.suspended
  let validSector := activeSector.filter MetricMember.validQuote
  let quality ← quality metricInput activeSector validSector
  let values ← emptyValues metricInput
  let (values, baseFacts) ← (if quality.fitnessStatus ≠ .unfit then
      calculate text producer metricInput validSector else pure (values, []))
  let values :=
    if quality.fitnessStatus = .unfit then removeValues values allCodes
    else if quality.fitnessStatus = .fitWithLimitations then removeValues values scoutCodes
    else values
  let orderedValues ← allCodes.mapM (entry values)
  let evidence := evidencePayload producer metricInput quality baseFacts orderedValues
  let evidenceSha256 ← canonicalHash evidence
  return { sectorUid := metricInput.sectorUid
           ruleVersion := producer.ruleVersion
           values := orderedValues
           quality := quality
           evidence := evidence
           evidenceSha256 := evidenceSha256 }

end

end MarketMonitor.Exact
