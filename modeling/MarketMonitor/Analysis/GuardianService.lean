import MarketMonitor.Analysis.MetricGuardian

/-!
# The stand-alone Guardian and Scout

`GuardianService` and `ScoutService` evaluate a state evaluation that is there, from the
facts linked to it. They take their thresholds from the version those facts were produced
with, where a commit is handed the active ones.
-/

namespace MarketMonitor

open Transaction

/-! ## What the services read -/

/-- A fact of a state evaluation, with the threshold version of the rule that produced it. -/
structure StateFact where
  factUid : Uid
  factCode : String
  valueScaled : Option ℤ
  thresholdVersionUid : Option Uid
  deriving DecidableEq, Repr

/-- The columns of a state evaluation and of its quality that the Guardian reads. -/
structure EvaluatedState where
  subjectUid : Uid
  snapshotUid : Uid
  availabilityState : String
  evaluationHash : String
  createdAt : Instant
  dataHealthStatus : DataHealthStatus
  fitnessStatus : FitnessStatus
  deriving DecidableEq

def noResultFound : Exn := ⟨.noResultFound, "No row was found when one was required"⟩

/-- `one()` -/
def oneRow {ρ : Type} : Option ρ → Except Exn ρ
  | some row => .ok row
  | none => .error noResultFound

/-- The state evaluation with the quality of its snapshot. -/
def Database.evaluatedState (db : Database) (stateEvaluationUid : Uid) :
    Except Exn EvaluatedState :=
  oneRow do
    let e ← db.analysis.stateEvaluation.find? fun e => e.evaluationUid = stateEvaluationUid
    let s ← db.evidence.evaluationSnapshot.find? fun s => s.snapshotUid = e.snapshotUid
    let q ← db.evidence.qualityContext.find? fun q => q.qualityContextUid = s.qualityContextUid
    return ⟨e.subjectUid, e.snapshotUid, e.availabilityState.text, e.evaluationHash, e.createdAt,
      q.dataHealthStatus, q.fitnessStatus⟩

/-- The facts of a state evaluation. -/
def Database.stateFacts (db : Database) (stateEvaluationUid : Uid) : List StateFact :=
  (db.analysis.stateEvaluationFact.filter fun e =>
    e.evaluationUid = stateEvaluationUid).filterMap fun e => do
      let f ← db.evidence.factRecord.find? fun f => f.factUid = e.factUid
      let r ← db.evidence.ruleExecution.find? fun r =>
        r.ruleExecutionUid = f.producerRuleExecutionUid
      return ⟨f.factUid, f.factCode, f.valueScaled, r.thresholdVersionUid⟩

/-- `by_code.get(code)` : of several facts of a code, the last. -/
def stateFactByCode (facts : List StateFact) (code : String) : Option StateFact :=
  facts.findRev? fun f => f.factCode = code

/-! ## Thresholds -/

def thresholdLineage (message : String) : Exn := ⟨.thresholdLineageError, message⟩

/-- `resolve_threshold_by_uid(connection, family, threshold_version_uid)`. -/
def resolveThresholdByUid (tables : ThresholdTables) (family : ThresholdFamily)
    (thresholdVersionUid : Uid) : Except Exn ThresholdSet :=
  let invalid := thresholdLineage
    (family.text ++ " metric facts reference an invalid threshold version")
  match tables.version? thresholdVersionUid with
  | none => .error invalid
  | some row =>
    if row.family ≠ family then .error invalid
    else setFromRow tables row family row.version none

/-- `resolve_thresholds_for_facts(connection, family, facts)`. -/
def resolveThresholdsForFacts (tables : ThresholdTables) (family : ThresholdFamily)
    (facts : List StateFact) : Except Exn ThresholdSet :=
  match (facts.map StateFact.thresholdVersionUid).dedup with
  | [some uid] => resolveThresholdByUid tables family uid
  | _ => .error (thresholdLineage (family.text ++ " metric facts must use one threshold version"))

/-! ## The Guardian -/

/-- `metric_values` -/
def metricValues (facts : List StateFact) : Metrics :=
  (facts.map StateFact.factCode).dedup.filterMap fun code =>
    ((stateFactByCode facts code).bind StateFact.valueScaled).map fun value => (code, value)

/-- `fact_uids` -/
def factUidsByCode (facts : List StateFact) : List (String × Uid) :=
  facts.reverse.map fun f => (f.factCode, f.factUid)

/-- The decision of `GuardianService.evaluate(state_evaluation_uid)`. -/
def guardianServiceDecision (db : Database) (stateEvaluationUid : Uid) :
    Except Exn GuardianDecision := do
  let state ← db.evaluatedState stateEvaluationUid
  let facts := db.stateFacts stateEvaluationUid
  let decide (thresholds : Option ThresholdSet) : GuardianDecision :=
    guardianDecision (metricValues facts) thresholds state.availabilityState
      state.dataHealthStatus state.fitnessStatus (factUidsByCode facts)
  let decision := decide none
  if decision.unavailable then return decision
  else do
    let thresholds ← resolveThresholdsForFacts db.thresholds .guardian
      (guardianRules.filterMap fun rule => stateFactByCode facts rule.code)
    return decide (some thresholds)

/-- `GuardianService.evaluate(state_evaluation_uid)` : the evaluation that is there, or a new
one. -/
def guardianServiceEvaluate (guardianUid stateEvaluationUid : Uid) : EStateM Exn Database Uid := do
  let db : Database ← get
  match db.analysis.guardianEvaluation.find? fun g =>
      g.stateEvaluationUid = stateEvaluationUid with
  | some existing => return existing.guardianUid
  | none => do
    let state ← fromExcept (db.evaluatedState stateEvaluationUid)
    let decision ← fromExcept (guardianServiceDecision db stateEvaluationUid)
    let findings : GuardianFindings :=
      ⟨decision.risks, decision.guardianEffect, decision.maxSeverity⟩
    submit do
      insertInto guardianEvaluationTable integrityError
        { guardianUid := guardianUid
          stateEvaluationUid := stateEvaluationUid
          subjectUid := state.subjectUid
          snapshotUid := state.snapshotUid
          ruleVersion := guardianRuleVersion
          guardianEffect := decision.guardianEffect
          blocking := decision.guardianEffect.blocks
          maxSeverity := decision.maxSeverity
          evaluationHash := guardianHash state.evaluationHash findings
          createdAt := state.createdAt }
      forM decision.risks (insertRisk guardianUid)
    return guardianUid

/-! ## The Scout -/

/-- The findings of `ScoutService.evaluate(guardian_uid)`. -/
def scoutServiceFindings (db : Database) (guardian : GuardianEvaluation) :
    Except Exn ScoutFindings := do
  let facts := db.stateFacts guardian.stateEvaluationUid
  let comparisonFacts := scoutRules.filterMap fun rule => stateFactByCode facts rule.1
  let thresholds ←
    if comparisonFacts = [] then pure none
    else some <$> resolveThresholdsForFacts db.thresholds .scout comparisonFacts
  let opportunities := scoutRules.filterMap fun rule => do
    let fact ← stateFactByCode facts rule.1
    let value ← fact.valueScaled
    let thresholds ← thresholds
    if thresholds.entry rule.1 ≤ value then
      some (⟨rule.2, rule.2.text ++ "_OBJECTIVE_THRESHOLD_MET", fact.factUid⟩ : OpportunityFinding)
    else none
  return { opportunities := opportunities
           status := scoutStatus opportunities.length
           strength := scoutStrength opportunities.length
           suppressed := guardian.guardianEffect.blocks }

/-- `ScoutService.evaluate(guardian_uid)` : the evaluation that is there, or a new one. -/
def scoutServiceEvaluate (scoutUid guardianUid : Uid) : EStateM Exn Database Uid := do
  let db : Database ← get
  match db.analysis.scoutEvaluation.find? fun s => s.guardianUid = guardianUid with
  | some existing => return existing.scoutUid
  | none => do
    let guardian ← fromExcept (oneRow (db.analysis.guardianEvaluation.find? fun g =>
      g.guardianUid = guardianUid))
    let state ← fromExcept (oneRow (db.analysis.stateEvaluation.find? fun e =>
      e.evaluationUid = guardian.stateEvaluationUid))
    let findings ← fromExcept (scoutServiceFindings db guardian)
    submit do
      insertInto scoutEvaluationTable integrityError
        { scoutUid := scoutUid
          guardianUid := guardianUid
          stateEvaluationUid := guardian.stateEvaluationUid
          subjectUid := guardian.subjectUid
          snapshotUid := guardian.snapshotUid
          ruleVersion := scoutRuleVersion
          scoutStatus := findings.status
          scoutStrength := findings.strength
          suppressedByGuardian := findings.suppressed
          guardianEffect := guardian.guardianEffect
          evaluationHash := scoutHash guardian.evaluationHash findings
          createdAt := state.createdAt }
      forM findings.opportunities (insertOpportunity scoutUid)
    return scoutUid

end MarketMonitor
