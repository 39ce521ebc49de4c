import MarketMonitor.Persistence.Values

/-!
# The schema

The tables the modelled services read and write, one structure for the row of each. A
table is the list of its rows in the order of their insertion. Columns constrained by a
`CHECK(… IN …)` have the enumeration as their type; the columns nothing here reads are
left out.

The tables are grouped by who writes them : the evidence an evaluation rests on, the
threshold registry, the tables of the Analysis Commit, the artifact registry, and the
metadata of the system.
-/

namespace MarketMonitor

open Json (Value)

/-- The text of a stable identifier. -/
abbrev Uid := String

/-! ## Enumerations -/

/-- The effective lifecycle of a subject. -/
inductive LifecycleState where
  | observing | starting | expanding | accelerating | diverging | declining
  deriving DecidableEq, Repr

def LifecycleState.text : LifecycleState → String
  | .observing => "OBSERVING"
  | .starting => "STARTING"
  | .expanding => "EXPANDING"
  | .accelerating => "ACCELERATING"
  | .diverging => "DIVERGING"
  | .declining => "DECLINING"

/-- Whether a subject can be judged. -/
inductive AvailabilityState where
  | available | warmingUp | suspended | unavailable
  deriving DecidableEq, Repr

def AvailabilityState.text : AvailabilityState → String
  | .available => "AVAILABLE"
  | .warmingUp => "WARMING_UP"
  | .suspended => "SUSPENDED"
  | .unavailable => "UNAVAILABLE"

/-- What an evaluation is made for. -/
inductive EvaluationDisposition where
  | official | staleAudit | userQuery | shadow | historicalReplay | correctedResearch
  deriving DecidableEq, Repr

inductive SnapshotStatus where
  | draft | sealed | rejected
  deriving DecidableEq, Repr

inductive DataHealthStatus where
  | healthy | degraded | unhealthy | unknown
  deriving DecidableEq, Repr

inductive FitnessStatus where
  | fit | fitWithLimitations | unfit | unknown
  deriving DecidableEq, Repr

def FitnessStatus.text : FitnessStatus → String
  | .fit => "FIT"
  | .fitWithLimitations => "FIT_WITH_LIMITATIONS"
  | .unfit => "UNFIT"
  | .unknown => "UNKNOWN"

inductive EvidenceSufficiency where
  | low | medium | high | unknown
  deriving DecidableEq, Repr

inductive ValidationStatus where
  | valid | invalid | unfit
  deriving DecidableEq, Repr

inductive ValueStatus where
  | value | missing | notApplicable | stale | invalid
  deriving DecidableEq, Repr

inductive ThresholdFamily where
  | guardian | scout
  deriving DecidableEq, Repr

def ThresholdFamily.text : ThresholdFamily → String
  | .guardian => "GUARDIAN"
  | .scout => "SCOUT"

inductive ApprovalStatus where
  | legacyUncalibrated | ownerApprovedPendingValidation | ownerApproved
  deriving DecidableEq, Repr

def ApprovalStatus.text : ApprovalStatus → String
  | .legacyUncalibrated => "LEGACY_UNCALIBRATED"
  | .ownerApprovedPendingValidation => "OWNER_APPROVED_PENDING_VALIDATION"
  | .ownerApproved => "OWNER_APPROVED"

inductive ValidationKind where
  | replay | shadow
  deriving DecidableEq, Repr

def ValidationKind.text : ValidationKind → String
  | .replay => "REPLAY"
  | .shadow => "SHADOW"

/-- What activation evidence is good for. -/
inductive EvidenceScope where
  | production | demo
  deriving DecidableEq, Repr

/-- The protection the Guardian orders. -/
inductive GuardianEffect where
  | allow | allowWithWarning | downgrade | suppress | pause
  deriving DecidableEq, Repr

def GuardianEffect.text : GuardianEffect → String
  | .allow => "ALLOW"
  | .allowWithWarning => "ALLOW_WITH_WARNING"
  | .downgrade => "DOWNGRADE"
  | .suppress => "SUPPRESS"
  | .pause => "PAUSE"

inductive Severity where
  | none | info | warning | high | critical
  deriving DecidableEq, Repr

def Severity.text : Severity → String
  | .none => "NONE"
  | .info => "INFO"
  | .warning => "WARNING"
  | .high => "HIGH"
  | .critical => "CRITICAL"

inductive RiskTag where
  | risingTooFast | headConcentrationHigh | internalDivergence | crowdingIncreasing
  | liquidityWeakening | coreMembersWeakening | breadthCollapsing | stampedeRisk | t1ChasingRisk
  | dataLimitation | earlySignalFailed
  deriving DecidableEq, Repr

def RiskTag.text : RiskTag → String
  | .risingTooFast => "RISING_TOO_FAST"
  | .headConcentrationHigh => "HEAD_CONCENTRATION_HIGH"
  | .internalDivergence => "INTERNAL_DIVERGENCE"
  | .crowdingIncreasing => "CROWDING_INCREASING"
  | .liquidityWeakening => "LIQUIDITY_WEAKENING"
  | .coreMembersWeakening => "CORE_MEMBERS_WEAKENING"
  | .breadthCollapsing => "BREADTH_COLLAPSING"
  | .stampedeRisk => "STAMPEDE_RISK"
  | .t1ChasingRisk => "T1_CHASING_RISK"
  | .dataLimitation => "DATA_LIMITATION"
  | .earlySignalFailed => "EARLY_SIGNAL_FAILED"

inductive ScoutStatus where
  | none | observing | active
  deriving DecidableEq, Repr

def ScoutStatus.text : ScoutStatus → String
  | .none => "NONE"
  | .observing => "OBSERVING"
  | .active => "ACTIVE"

inductive ScoutStrength where
  | low | medium | high
  deriving DecidableEq, Repr

def ScoutStrength.text : ScoutStrength → String
  | .low => "LOW"
  | .medium => "MEDIUM"
  | .high => "HIGH"

inductive OpportunityTag where
  | earlyActivity | healthyBreadth | relativeStrength | turnoverConfirmation | etfConfirmation
  | styleSupport | lowCrowding | continuityStrengthening
  deriving DecidableEq, Repr

def OpportunityTag.text : OpportunityTag → String
  | .earlyActivity => "EARLY_ACTIVITY"
  | .healthyBreadth => "HEALTHY_BREADTH"
  | .relativeStrength => "RELATIVE_STRENGTH"
  | .turnoverConfirmation => "TURNOVER_CONFIRMATION"
  | .etfConfirmation => "ETF_CONFIRMATION"
  | .styleSupport => "STYLE_SUPPORT"
  | .lowCrowding => "LOW_CROWDING"
  | .continuityStrengthening => "CONTINUITY_STRENGTHENING"

inductive EventKind where
  | guardianRisk | scoutWatch
  deriving DecidableEq, Repr

def EventKind.text : EventKind → String
  | .guardianRisk => "GUARDIAN_RISK"
  | .scoutWatch => "SCOUT_WATCH"

inductive EventStatus where
  | candidate | active | resolved | invalidated
  deriving DecidableEq, Repr

def EventStatus.text : EventStatus → String
  | .candidate => "CANDIDATE"
  | .active => "ACTIVE"
  | .resolved => "RESOLVED"
  | .invalidated => "INVALIDATED"

inductive ChangeType where
  | created | changed | resolved | invalidated
  deriving DecidableEq, Repr

inductive IntentKind where
  | risk | attention | resolution
  deriving DecidableEq, Repr

inductive Channel where
  | inApp | webhook
  deriving DecidableEq, Repr

def Channel.text : Channel → String
  | .inApp => "IN_APP"
  | .webhook => "WEBHOOK"

inductive DeliveryStatus where
  | pending | processing | retryWait | delivered | failed | cancelled | expired
  deriving DecidableEq, Repr

/-- The member of an enumeration with the given text. -/
def ofText {α : Type} (members : List α) (text : α → String) (s : String) : Option α :=
  members.find? fun a => text a == s

def LifecycleState.ofText? : String → Option LifecycleState :=
  ofText [.observing, .starting, .expanding, .accelerating, .diverging, .declining]
    LifecycleState.text

def AvailabilityState.ofText? : String → Option AvailabilityState :=
  ofText [.available, .warmingUp, .suspended, .unavailable] AvailabilityState.text

def Channel.ofText? : String → Option Channel :=
  ofText [.inApp, .webhook] Channel.text

theorem text_of_ofText {α : Type} {members : List α} {text : α → String} {s : String} {a : α}
    (h : ofText members text s = some a) : text a = s := by
  simpa using List.find?_some h

/-! ## Evidence -/

/-- `evaluation_snapshot` -/
structure EvaluationSnapshot where
  snapshotUid : Uid
  subjectUid : Uid
  manifestUid : Uid
  bundleUid : Uid
  qualityContextUid : Uid
  asOfTime : Instant
  evaluationDisposition : EvaluationDisposition
  snapshotStatus : SnapshotStatus
  canonicalHash : String
  deriving DecidableEq

/-- `quality_context` -/
structure QualityContext where
  qualityContextUid : Uid
  dataHealthStatus : DataHealthStatus
  fitnessStatus : FitnessStatus
  evidenceSufficiency : EvidenceSufficiency
  deriving DecidableEq

/-- `quality_limitation` -/
structure QualityLimitation where
  qualityContextUid : Uid
  limitationCode : String
  detail : String
  deriving DecidableEq

/-- `input_manifest` -/
structure InputManifest where
  manifestUid : Uid
  canonicalHash : String
  artifactSha256 : String
  asOfTime : Instant
  deriving DecidableEq

/-- `reference_version_bundle` -/
structure ReferenceVersionBundle where
  bundleUid : Uid
  canonicalHash : String
  deriving DecidableEq

/-- `reference_version_entry` -/
structure ReferenceVersionEntry where
  bundleUid : Uid
  entityKind : String
  entityUid : Uid
  versionUid : Uid
  deriving DecidableEq

/-- `capability_snapshot` -/
structure CapabilitySnapshot where
  snapshotUid : Uid
  capability : String
  epochUid : Uid
  deriving DecidableEq

/-- `rule_execution` -/
structure RuleExecution where
  ruleExecutionUid : Uid
  snapshotUid : Uid
  ruleKey : String
  ruleVersion : String
  thresholdVersionUid : Option Uid
  validationStatus : ValidationStatus
  inputHash : String
  outputHash : String
  deriving DecidableEq

/-- `fact_record` -/
structure FactRecord where
  factUid : Uid
  snapshotUid : Uid
  producerRuleExecutionUid : Uid
  qualityContextUid : Uid
  factCode : String
  valueScaled : Option ℤ
  valueScale : ℕ
  valueStatus : ValueStatus
  unit : String
  factHash : String
  deriving DecidableEq

/-- The tables a sealed snapshot and its facts live in. -/
structure EvidenceTables where
  evaluationSnapshot : List EvaluationSnapshot
  qualityContext : List QualityContext
  qualityLimitation : List QualityLimitation
  inputManifest : List InputManifest
  referenceVersionBundle : List ReferenceVersionBundle
  referenceVersionEntry : List ReferenceVersionEntry
  capabilitySnapshot : List CapabilitySnapshot
  ruleExecution : List RuleExecution
  factRecord : List FactRecord

/-! ## Thresholds -/

/-- `threshold_version` -/
structure ThresholdVersion where
  thresholdVersionUid : Uid
  family : ThresholdFamily
  version : String
  approvalStatus : ApprovalStatus
  ownerApprovalReference : String
  definitionHash : String
  deriving DecidableEq

/-- `threshold_entry` -/
structure ThresholdEntry where
  thresholdVersionUid : Uid
  metricCode : String
  thresholdPpm : ℤ
  deriving DecidableEq

/-- `threshold_validation` -/
structure ThresholdValidation where
  validationOrder : ℕ
  validationUid : Uid
  thresholdVersionUid : Uid
  validationKind : ValidationKind
  passed : Bool
  reportReference : String
  reportSha256 : String
  observedAt : Instant
  deriving DecidableEq

/-- `threshold_activation` -/
structure ThresholdActivation where
  activationOrder : ℕ
  activationUid : Uid
  family : ThresholdFamily
  thresholdVersionUid : Uid
  effectiveAt : Instant
  idempotencyKey : String
  ownerApprovalReference : String
  acceptanceEvidenceUid : Uid
  deriving DecidableEq

/-- `threshold_activation_evidence` -/
structure ThresholdActivationEvidence where
  acceptanceEvidenceUid : Uid
  evidenceSha256 : String
  replayEvidenceSha256 : String
  guardianThresholdVersionUid : Uid
  scoutThresholdVersionUid : Uid
  evidenceScope : EvidenceScope
  observedAt : Instant
  deriving DecidableEq

/-- The threshold registry. -/
structure ThresholdTables where
  thresholdVersion : List ThresholdVersion
  thresholdEntry : List ThresholdEntry
  thresholdValidation : List ThresholdValidation
  thresholdActivation : List ThresholdActivation
  thresholdActivationEvidence : List ThresholdActivationEvidence

/-! ## The Analysis Commit -/

/-- `state_evaluation` -/
structure StateEvaluation where
  evaluationUid : Uid
  snapshotUid : Uid
  subjectUid : Uid
  evaluationDisposition : EvaluationDisposition
  availabilityState : AvailabilityState
  lifecycleState : Option LifecycleState
  evaluationHash : String
  createdAt : Instant
  deriving DecidableEq

/-- `state_evaluation_fact` -/
structure StateEvaluationFact where
  evaluationUid : Uid
  factUid : Uid
  deriving DecidableEq

/-- `state_transition` -/
structure StateTransition where
  transitionUid : Uid
  subjectUid : Uid
  fromLifecycleState : Option LifecycleState
  toLifecycleState : LifecycleState
  evaluationUid : Uid
  occurredAt : Instant
  deriving DecidableEq

/-- `current_state_projection` -/
structure StateProjection where
  subjectUid : Uid
  availabilityState : AvailabilityState
  effectiveLifecycleState : Option LifecycleState
  lastValidLifecycleState : Option LifecycleState
  lastValidAsOfTime : Option Instant
  evaluationUid : Uid
  asOfTime : Instant
  version : ℕ
  rewarmRequired : Bool
  deriving DecidableEq

/-- `guardian_evaluation` -/
structure GuardianEvaluation where
  guardianUid : Uid
  stateEvaluationUid : Uid
  subjectUid : Uid
  snapshotUid : Uid
  ruleVersion : String
  guardianEffect : GuardianEffect
  blocking : Bool
  maxSeverity : Severity
  evaluationHash : String
  createdAt : Instant
  deriving DecidableEq

/-- `guardian_risk_tag` -/
structure GuardianRiskTag where
  guardianUid : Uid
  riskTag : RiskTag
  severity : Severity
  reasonCode : String
  primaryFactUid : Option Uid
  deriving DecidableEq

/-- `guardian_risk_evidence`, whose role is `SUPPORTING` -/
structure GuardianRiskEvidence where
  guardianUid : Uid
  riskTag : RiskTag
  factUid : Uid
  deriving DecidableEq

/-- `scout_evaluation` -/
structure ScoutEvaluation where
  scoutUid : Uid
  guardianUid : Uid
  stateEvaluationUid : Uid
  subjectUid : Uid
  snapshotUid : Uid
  ruleVersion : String
  scoutStatus : ScoutStatus
  scoutStrength : ScoutStrength
  suppressedByGuardian : Bool
  guardianEffect : GuardianEffect
  evaluationHash : String
  createdAt : Instant
  deriving DecidableEq

/-- `scout_opportunity_tag` -/
structure ScoutOpportunityTag where
  scoutUid : Uid
  opportunityTag : OpportunityTag
  reasonCode : String
  primaryFactUid : Uid
  deriving DecidableEq

/-- `scout_opportunity_evidence`, whose role is `SUPPORTING` -/
structure ScoutOpportunityEvidence where
  scoutUid : Uid
  opportunityTag : OpportunityTag
  factUid : Uid
  deriving DecidableEq

/-- `analysis_commit` -/
structure AnalysisCommit where
  commitUid : Uid
  snapshotUid : Uid
  stateEvaluationUid : Uid
  guardianUid : Uid
  scoutUid : Uid
  commitHash : String
  committedAt : Instant
  deriving DecidableEq

/-- `market_event` -/
structure MarketEvent where
  eventUid : Uid
  subjectUid : Uid
  eventKind : EventKind
  relatedKey : String
  createdAt : Instant
  deriving DecidableEq

/-- `event_version` -/
structure EventVersion where
  eventVersionUid : Uid
  eventUid : Uid
  version : ℕ
  eventStatus : EventStatus
  changeType : ChangeType
  analysisCommitUid : Uid
  stateEvaluationUid : Uid
  guardianUid : Uid
  scoutUid : Uid
  versionHash : String
  createdAt : Instant
  deriving DecidableEq

/-- `event_evidence`, whose role is `SUPPORTING` -/
structure EventEvidence where
  eventVersionUid : Uid
  factUid : Uid
  deriving DecidableEq

/-- `current_event_projection` -/
structure EventProjection where
  relatedKey : String
  eventUid : Uid
  eventVersionUid : Uid
  eventStatus : EventStatus
  version : ℕ
  updatedAt : Instant
  deriving DecidableEq

/-- `notification_intent` -/
structure NotificationIntent where
  intentUid : Uid
  eventVersionUid : Uid
  channel : Channel
  intentKind : IntentKind
  idempotencyKey : String
  frozenContextJson : String
  frozenContextHash : String
  createdAt : Instant
  expiresAt : Instant
  restoreGeneration : ℕ
  deriving DecidableEq

/-- `notification_delivery_state` -/
structure NotificationDeliveryState where
  intentUid : Uid
  deliveryStatus : DeliveryStatus
  attemptCount : ℕ
  nextAttemptAt : Option Instant
  leaseOwner : Option String
  leaseUntil : Option Instant
  lastErrorCode : Option String
  version : ℕ
  updatedAt : Instant
  deriving DecidableEq

/-- `audit_record` -/
structure AuditRecord where
  auditUid : Uid
  action : String
  subjectUid : Option Uid
  analysisCommitUid : Option Uid
  detailHash : String
  createdAt : Instant
  deriving DecidableEq

/-- The tables an Analysis Commit writes. -/
structure AnalysisTables where
  stateEvaluation : List StateEvaluation
  stateEvaluationFact : List StateEvaluationFact
  stateTransition : List StateTransition
  currentStateProjection : List StateProjection
  guardianEvaluation : List GuardianEvaluation
  guardianRiskTag : List GuardianRiskTag
  guardianRiskEvidence : List GuardianRiskEvidence
  scoutEvaluation : List ScoutEvaluation
  scoutOpportunityTag : List ScoutOpportunityTag
  scoutOpportunityEvidence : List ScoutOpportunityEvidence
  analysisCommit : List AnalysisCommit
  marketEvent : List MarketEvent
  eventVersion : List EventVersion
  eventEvidence : List EventEvidence
  currentEventProjection : List EventProjection
  notificationIntent : List NotificationIntent
  notificationDeliveryState : List NotificationDeliveryState
  auditRecord : List AuditRecord

/-- The tables before the first commit. -/
def AnalysisTables.empty : AnalysisTables :=
  ⟨[], [], [], [], [], [], [], [], [], [], [], [], [], [], [], [], [], []⟩

/-! ## Artifacts -/

/-- `artifact_object` -/
structure ArtifactObject where
  sha256 : String
  sizeBytes : ℕ
  mediaType : String
  relativePath : String
  createdAt : Instant
  deriving DecidableEq

/-- `artifact_lease` -/
structure ArtifactLease where
  leaseUid : Uid
  sha256 : String
  purpose : String
  validUntil : Instant
  createdAt : Instant
  deriving DecidableEq

/-- The artifact registry. -/
structure ArtifactTables where
  artifactObject : List ArtifactObject
  artifactLease : List ArtifactLease

/-! ## Cycles and metadata -/

inductive CyclePhase where
  | snapshot | metric | analysisCommit | eventOutbox | completed | failed
  deriving DecidableEq, Repr

inductive CycleStatus where
  | running | committed | failed
  deriving DecidableEq, Repr

/-- `official_cycle_run` -/
structure OfficialCycleRun where
  cycleUid : Uid
  cycleKey : String
  subjectUid : Uid
  observedAt : Instant
  phase : CyclePhase
  status : CycleStatus
  attempt : ℕ
  snapshotUid : Option Uid
  commitUid : Option Uid
  errorCode : Option String
  detailJson : String
  createdAt : Instant
  updatedAt : Instant
  deriving DecidableEq

/-- The keys of `system_metadata` that are read here. -/
structure SystemMetadata where
  restoreGeneration : ℕ
  recoveryState : Option String
  deriving DecidableEq

/-- The durable database. -/
structure Database where
  evidence : EvidenceTables
  thresholds : ThresholdTables
  analysis : AnalysisTables
  artifacts : ArtifactTables
  officialCycleRun : List OfficialCycleRun
  metadata : SystemMetadata

/-- The files of the artifact directory, by digest. -/
abbrev ArtifactFiles := String → Option (List UInt8)

end MarketMonitor
