import MarketMonitor.Library.Decimal
import MarketMonitor.Analysis.Guardian
import MarketMonitor.Persistence.InstantOrder

/-!
# The input of the market metrics

One sector evaluation over the canonical Primary Universe : the quotes and the bars of
the members, the windows of earlier days at the same clock, and the context and evidence
the caller supplies. The invariants the constructors check are fields.
-/

namespace MarketMonitor

inductive MetricStatus where
  | value | missing | notApplicable
  deriving DecidableEq, Repr

def MetricStatus.text : MetricStatus → String
  | .value => "VALUE"
  | .missing => "MISSING"
  | .notApplicable => "NOT_APPLICABLE"

inductive QuoteStatus where
  | valid | missing | suspended | noValidQuote
  deriving DecidableEq, Repr

/-- The fitness of a metric evaluation. -/
inductive MetricFitness where
  | fit | fitWithLimitations | unfit
  deriving DecidableEq, Repr

/-- The fitness as a quality context has it. -/
def MetricFitness.status : MetricFitness → FitnessStatus
  | .fit => .fit
  | .fitWithLimitations => .fitWithLimitations
  | .unfit => .unfit

/-- `MetricMember` : a Primary-Universe instrument with its quote and bars. -/
structure MetricMember where
  instrumentUid : Uid
  quoteStatus : QuoteStatus
  price : Option Decimal
  preClose : Option Decimal
  close5m : Option Decimal
  close10m : Option Decimal
  close15m : Option Decimal
  amount5m : Option Decimal
  amount15m : Option Decimal
  previousAmount5m : Option Decimal
  trailingDailyAmounts : List Decimal
  knownSuspended : Bool

/-- `HistoricalSameClockWindow` : the five-minute amounts of the members on an earlier
trading day. -/
structure HistoricalSameClockWindow where
  tradingDate : String
  memberAmounts : List (Uid × Decimal)
  membersUnique : (memberAmounts.map Prod.fst).Nodup

/-- `ContextMetric` -/
structure ContextMetric where
  return5m : Option Decimal

/-- `EarlyEvidence` -/
structure EarlyEvidence where
  tradingDate : String
  marketMinutesAgo : ℤ
  sectorReturnDay : Decimal
  breadth : Decimal
  turnoverRatio : Decimal
  isQualifying : Bool
  isOfficial : Bool

/-- `ContinuityObservation` -/
structure ContinuityObservation where
  observationUid : Uid
  observedAt : AwareDatetime
  tradingDate : String
  marketMinuteIndex : ℕ
  fitnessStatus : MetricFitness
  relativeStrength5m : Option Decimal
  breadth5mUp : Option Decimal
  turnoverRatio5m : Option Decimal

/-- The time of an observation in UTC, by which observations are ordered and told apart. -/
def ContinuityObservation.observedUtc (o : ContinuityObservation) : ℤ := o.observedAt.utcMicros

/-- `MetricInput` -/
structure MetricInput where
  sectorUid : Uid
  sectorMemberUids : List Uid
  primaryMembers : List MetricMember
  sameClockWindows : List HistoricalSameClockWindow
  historicalCoverage : Decimal
  providerCapabilityFit : Bool
  tradingDate : String
  marketPhase : String
  hasCompleteMinute : Bool
  providerCapabilityLimited : Bool
  isFinalTradingSnapshot : Bool
  etfContext : Option ContextMetric
  styleContext : Option ContextMetric
  earlyEvidence : Option EarlyEvidence
  contextFit : Bool
  continuityObservations : List ContinuityObservation
  sectorNamed : sectorUid ≠ ""
  primaryUnique : (primaryMembers.map MetricMember.instrumentUid).Nodup
  sectorUnique : sectorMemberUids.Nodup
  sectorPrimary : ∀ uid ∈ sectorMemberUids,
    uid ∈ primaryMembers.map MetricMember.instrumentUid
  coverageBounds : Decimal.zero ≤ historicalCoverage ∧ historicalCoverage ≤ Decimal.one
  windowsUnique : (sameClockWindows.map HistoricalSameClockWindow.tradingDate).Nodup
  observationsUnique : (continuityObservations.map ContinuityObservation.observationUid).Nodup
  observationsOfDay : ∀ o ∈ continuityObservations, o.tradingDate = tradingDate

/-! ## Values -/

/-- A value in parts per million. -/
abbrev Ppm := {n : ℤ // 0 ≤ n ∧ n ≤ 1000000}

/-- What a metric evaluates to : a `VALUE` carries its parts per million, and no other
status does. -/
inductive MetricResult where
  | value (ppm : Ppm)
  | missing
  | notApplicable
  deriving DecidableEq

def MetricResult.status : MetricResult → MetricStatus
  | .value _ => .value
  | .missing => .missing
  | .notApplicable => .notApplicable

def MetricResult.valuePpm : MetricResult → Option ℤ
  | .value ppm => some ppm
  | _ => none

/-- The metric of each code. -/
abbrev MetricResults := String → MetricResult

/-- `MetricValue` -/
structure MetricValue where
  code : String
  result : MetricResult
  deriving DecidableEq

/-- `MetricQuality` -/
structure MetricQuality where
  fitnessStatus : MetricFitness
  quoteCoveragePpm : Ppm
  historicalCoveragePpm : Ppm
  validMemberCount : ℕ
  tradableExpectedCount : ℕ
  reasonCodes : List String
  deriving DecidableEq

/-- `_ALL_CODES` : the codes of both families, sorted. -/
def allCodes : List String :=
  ["BREADTH_COLLAPSE_PPM", "CONTINUITY_STRENGTHENING_PPM", "CORE_WEAKENING_PPM",
    "CROWDING_PPM", "EARLY_ACTIVITY_PPM", "EARLY_SIGNAL_FAILURE_PPM", "ETF_CONFIRMATION_PPM",
    "HEAD_CONCENTRATION_PPM", "HEALTHY_BREADTH_PPM", "INTERNAL_DIVERGENCE_PPM",
    "LIQUIDITY_WEAKENING_PPM", "LOW_CROWDING_PPM", "RELATIVE_STRENGTH_PPM", "RISE_RATE_PPM",
    "STAMPEDE_RISK_PPM", "STYLE_SUPPORT_PPM", "T1_CHASING_RISK_PPM",
    "TURNOVER_CONFIRMATION_PPM"]

theorem allCodes_eq_sorted : allCodes = (guardianCodes ++ scoutCodes).insertionSort (· ≤ ·) := by
  decide +kernel

theorem nodup_allCodes : allCodes.Nodup := by
  rw [allCodes_eq_sorted, (List.perm_insertionSort _ _).nodup_iff]
  decide

theorem mem_allCodes {code : String} :
    code ∈ allCodes ↔ code ∈ guardianCodes ∨ code ∈ scoutCodes := by
  rw [allCodes_eq_sorted, List.mem_insertionSort, List.mem_append]

/-- `MetricOutput` -/
structure MetricOutput where
  sectorUid : Uid
  ruleVersion : String
  values : List MetricValue
  quality : MetricQuality
  evidence : Json.Value
  evidenceSha256 : String

/-- The values of the codes of a family. -/
def MetricOutput.metricsOf (output : MetricOutput) (codes : List String) : Metrics :=
  output.values.filterMap fun item =>
    if item.code ∈ codes then item.result.valuePpm.map fun ppm => (item.code, ppm) else none

/-- `MetricOutput.guardian_metrics` -/
def MetricOutput.guardianMetrics (output : MetricOutput) : Metrics :=
  output.metricsOf guardianCodes

/-- `MetricOutput.scout_metrics` -/
def MetricOutput.scoutMetrics (output : MetricOutput) : Metrics :=
  output.metricsOf scoutCodes

/-- `MetricOutput.status_by_metric` -/
def MetricOutput.statusByMetric (output : MetricOutput) (code : String) : Option MetricStatus :=
  (output.values.find? fun item => item.code = code).map fun item => item.result.status

end MarketMonitor
