import MarketMonitor.Analysis.AnalysisCommit

/-!
# Views of the events

What the API shows of an event : its projection with the context of the evaluation the
projected version comes from. `event` finds an event through the projection of its related
key.
-/

namespace MarketMonitor

/-! ## Views -/

/-- What a query of the API raises. -/
inductive ApiError where
  | lookupError (uid : Uid)
  | multipleResultsFound
  | validationError
  deriving DecidableEq, Repr

/-- `GuardianView.status` -/
inductive GuardianStatus where
  | normal | caution | warning | blocked
  deriving DecidableEq, Repr

inductive ConfidenceLevel where
  | high | medium | low | blocked
  deriving DecidableEq, Repr

inductive ReferenceStatus where
  | normalReference | limitedReference | observationOnly | noJudgment
  deriving DecidableEq, Repr

/-- `ConfidenceView` -/
structure ConfidenceView where
  level : ConfidenceLevel
  referenceStatus : ReferenceStatus
  deriving DecidableEq, Repr

/-- `EvidenceItemView` -/
structure EvidenceItemView where
  reasonCode : String
  factUid : Option Uid
  factUidStatus : ValueStatus
  ruleExecutionUid : Option Uid
  ruleExecutionUidStatus : ValueStatus
  templateKey : String
  attributes : List (String × String)
  /-- `validate_references` -/
  factUid_iff : factUidStatus = .value ↔ factUid.isSome
  ruleExecutionUid_iff : ruleExecutionUidStatus = .value ↔ ruleExecutionUid.isSome

/-- `GuardianView` -/
structure GuardianView where
  status : GuardianStatus
  effect : GuardianEffect
  blocking : Bool
  reasons : List EvidenceItemView

/-- `ScoutView` -/
structure ScoutView where
  status : ScoutStatus
  strength : ScoutStrength
  suppressedByGuardian : Bool
  reasons : List EvidenceItemView

/-- The parts of `_ProtectiveContext` an event shows. Evidence is `SUPPORTING` only, as the
commit writes it, so `explanation` has no contrary items. -/
structure ProtectiveContext where
  guardian : GuardianView
  confidence : ConfidenceView
  scout : ScoutView
  supporting : List EvidenceItemView
  limitations : List (String × String)

/-- `EventSummaryView` -/
structure EventSummaryView where
  eventUid : Uid
  eventVersionUid : Uid
  subjectUid : Uid
  eventKind : EventKind
  status : EventStatus
  version : ℕ
  asOfTime : Instant
  context : ProtectiveContext
  version_pos : 1 ≤ version

/-- The summary of an event with the `created_at` that `event` adds. -/
structure EventDetail extends EventSummaryView where
  createdAt : Instant

/-- `confidence_from_quality(availability, health, fitness, evidence,
rule_validation_status)`. -/
def confidenceFromQuality (availability : AvailabilityState) (health : DataHealthStatus)
    (fitness : FitnessStatus) (evidence : EvidenceSufficiency) (validation : ValidationStatus) :
    ConfidenceView :=
  if availability ≠ .available ∨ health = .unknown ∨ health = .unhealthy ∨ fitness = .unknown ∨
      fitness = .unfit ∨ validation ≠ .valid then ⟨.blocked, .noJudgment⟩
  else if health = .degraded ∨ fitness = .fitWithLimitations ∨ evidence = .low ∨
      evidence = .unknown then ⟨.low, .observationOnly⟩
  else if evidence = .medium then ⟨.medium, .limitedReference⟩
  else ⟨.high, .normalReference⟩

/-- `guardian_statuses` -/
def GuardianEffect.status : GuardianEffect → GuardianStatus
  | .allow => .normal
  | .allowWithWarning => .caution
  | .downgrade => .warning
  | .suppress => .blocked
  | .pause => .blocked

/-- `_aggregate_validation(statuses)`. -/
def aggregateValidation (statuses : List ValidationStatus) : ValidationStatus :=
  if statuses = [] ∨ .invalid ∈ statuses then .invalid
  else if .unfit ∈ statuses then .unfit
  else .valid

/-! ## Evidence -/

/-- A row of the queries of the evidence. -/
structure EvidenceRow where
  tag : String
  severity : Option Severity
  reasonCode : String
  factUid : Option Uid
  producerRuleExecutionUid : Option Uid
  rule : Option RuleExecution

/-- `"VALUE"` or `"MISSING"`. -/
def presence {α : Type} (value : Option α) : ValueStatus :=
  if value.isSome then .value else .missing

theorem presence_eq_value_iff {α : Type} (value : Option α) :
    presence value = .value ↔ value.isSome := by
  cases value <;> simp [presence]

/-- `_evidence(row, tag_key)`. -/
def evidenceOf (tagKey : String) (row : EvidenceRow) : EvidenceItemView where
  reasonCode := row.reasonCode
  factUid := row.factUid
  factUidStatus := presence row.factUid
  ruleExecutionUid := row.producerRuleExecutionUid
  ruleExecutionUidStatus := presence row.producerRuleExecutionUid
  templateKey := row.reasonCode
  attributes := [(tagKey, row.tag)] ++
    (row.severity.map fun s => ("severity", s.text)).toList ++
    (row.rule.map fun r => ("rule_key", r.ruleKey)).toList ++
    (row.rule.map fun r => ("rule_version", r.ruleVersion)).toList
  factUid_iff := presence_eq_value_iff _
  ruleExecutionUid_iff := presence_eq_value_iff _

/-- `ORDER BY tag,evidence_role,fact_uid`, `NULL` first. -/
def EvidenceRow.before (a b : EvidenceRow) : Bool :=
  a.tag < b.tag ∨ a.tag = b.tag ∧ (a.factUid = none ∨ a.factUid.getD "" ≤ b.factUid.getD "")

namespace Database

variable (db : Database)

/-- The row of `fact_record` of an identifier. -/
def factOf (factUid : Uid) : Option FactRecord :=
  db.evidence.factRecord.find? fun f => f.factUid = factUid

/-- The execution that produced a fact. -/
def ruleOf (fact : FactRecord) : Option RuleExecution :=
  db.evidence.ruleExecution.find? fun r => r.ruleExecutionUid = fact.producerRuleExecutionUid

/-- The risks of a Guardian evaluation, each with its evidence or without any. -/
def riskRows (guardianUid : Uid) : List EvidenceRow :=
  ((db.analysis.guardianRiskTag.filter fun t => t.guardianUid = guardianUid).flatMap fun t =>
    let facts := (db.analysis.guardianRiskEvidence.filter fun e =>
      e.guardianUid = t.guardianUid ∧ e.riskTag = t.riskTag).map fun e => e.factUid
    (if facts = [] then [none] else facts.map some).map fun factUid =>
      { tag := t.riskTag.text
        severity := some t.severity
        reasonCode := t.reasonCode
        factUid := factUid
        producerRuleExecutionUid :=
          (factUid.bind db.factOf).map FactRecord.producerRuleExecutionUid
        rule := (factUid.bind db.factOf).bind db.ruleOf }).insertionSort
          fun a b => a.before b

/-- The opportunities of a Scout evaluation with their evidence. -/
def opportunityRows (scoutUid : Uid) : List EvidenceRow :=
  ((db.analysis.scoutOpportunityTag.filter fun t => t.scoutUid = scoutUid).flatMap fun t =>
    (db.analysis.scoutOpportunityEvidence.filter fun e =>
      e.scoutUid = t.scoutUid ∧ e.opportunityTag = t.opportunityTag).filterMap fun e => do
        let fact ← db.factOf e.factUid
        let rule ← db.ruleOf fact
        return { tag := t.opportunityTag.text
                 severity := none
                 reasonCode := t.reasonCode
                 factUid := some e.factUid
                 producerRuleExecutionUid := some fact.producerRuleExecutionUid
                 rule := some rule }).insertionSort fun a b => a.before b

/-- The validations of the executions behind an evaluation. -/
def validationStatuses (evaluationUid : Uid) : List ValidationStatus :=
  (db.analysis.stateEvaluationFact.filter fun ef => ef.evaluationUid = evaluationUid).filterMap
    fun ef => ((db.factOf ef.factUid).bind db.ruleOf).map RuleExecution.validationStatus

/-! ## Events -/

/-- `ApiRepository.protective_context(evaluation_uid, guardian_uid, scout_uid)`. -/
def protectiveContext (evaluationUid guardianUid scoutUid : Uid) :
    Except ApiError ProtectiveContext :=
  let row : Option _ := do
    let evaluation ← db.analysis.stateEvaluation.find? fun e => e.evaluationUid = evaluationUid
    let snapshot ← db.evidence.evaluationSnapshot.find? fun s =>
      s.snapshotUid = evaluation.snapshotUid
    let quality ← db.evidence.qualityContext.find? fun q =>
      q.qualityContextUid = snapshot.qualityContextUid
    let guardian ← db.analysis.guardianEvaluation.find? fun g =>
      g.guardianUid = guardianUid ∧ g.stateEvaluationUid = evaluation.evaluationUid
    let scout ← db.analysis.scoutEvaluation.find? fun s =>
      s.scoutUid = scoutUid ∧ s.stateEvaluationUid = evaluation.evaluationUid
    return (evaluation, quality, guardian, scout)
  match row with
  | none => .error (.lookupError evaluationUid)
  | some (evaluation, quality, guardian, scout) =>
    let risks := (db.riskRows guardianUid).map (evidenceOf "risk_tag")
    let scouts := (db.opportunityRows scoutUid).map (evidenceOf "opportunity_tag")
    .ok
      { guardian := ⟨guardian.guardianEffect.status, guardian.guardianEffect, guardian.blocking,
          risks⟩
        confidence := confidenceFromQuality evaluation.availabilityState quality.dataHealthStatus
          quality.fitnessStatus quality.evidenceSufficiency
          (aggregateValidation (db.validationStatuses evaluationUid))
        scout := ⟨scout.scoutStatus, scout.scoutStrength, scout.suppressedByGuardian, scouts⟩
        supporting := (risks ++ scouts).filter fun item =>
          item.factUidStatus = .value ∧ item.ruleExecutionUidStatus = .value
        limitations := limitationsOf db quality.qualityContextUid }

/-- The rows of `market_event JOIN current_event_projection JOIN event_version` of an event. -/
def eventRows (uid : Uid) : List (MarketEvent × EventProjection × EventVersion) :=
  (db.analysis.marketEvent.filter fun e => e.eventUid = uid).flatMap fun e =>
    (db.analysis.currentEventProjection.filter fun p => p.eventUid = e.eventUid).flatMap fun p =>
      (db.analysis.eventVersion.filter fun v => v.eventVersionUid = p.eventVersionUid).map
        fun v => (e, p, v)

/-- `_event_summary(row)`. -/
def eventSummary (e : MarketEvent) (p : EventProjection) (v : EventVersion) :
    Except ApiError EventSummaryView := do
  let context ← db.protectiveContext v.stateEvaluationUid v.guardianUid v.scoutUid
  if hversion : 1 ≤ p.version then
    return { eventUid := e.eventUid
             eventVersionUid := p.eventVersionUid
             subjectUid := e.subjectUid
             eventKind := e.eventKind
             status := p.eventStatus
             version := p.version
             asOfTime := p.updatedAt
             context := context
             version_pos := hversion }
  else throw .validationError

/-- `ApiRepository.event(uid)`. -/
def event (uid : Uid) : Except ApiError EventDetail :=
  match db.eventRows uid with
  | [] => .error (.lookupError uid)
  | [(e, p, v)] => (db.eventSummary e p v).map fun summary => ⟨summary, e.createdAt⟩
  | _ => .error .multipleResultsFound

end Database

end MarketMonitor
