import MarketMonitor.Persistence.Artifacts
import MarketMonitor.Analysis.Guardian

/-!
# The metric evidence of an Analysis Commit

Before it writes anything, a commit verifies where its metrics come from : the evidence
artifact must be registered and intact, name the snapshot with its whole lineage and the
thresholds in force, and carry the metric values that the two CR-004 executions of the
snapshot recorded as facts.
-/

namespace MarketMonitor

open Json (Value)
open Transaction

/-! ## Requests -/

/-- `MetricProvenance` -/
structure MetricProvenance where
  producerVersion : String
  evidenceSha256 : String
  deriving DecidableEq

/-- `AnalysisCommitRequest` -/
structure AnalysisCommitRequest where
  snapshotUid : Uid
  availabilityState : String
  lifecycleState : Option String
  expectedProjectionVersion : ℤ
  guardianMetrics : Metrics
  scoutMetrics : Metrics
  channels : List String
  metricProvenance : Option MetricProvenance

def thresholdGate (message : String) : Exn := ⟨.officialThresholdGateError, message⟩

/-- `_validate_metrics(metrics, allowed)`. -/
def validateMetrics (metrics : Metrics) (allowed : List String) : Except Exn Unit :=
  if metrics.any fun p => p.1 ∉ allowed then
    .error (valueError "metric code is not approved")
  else if metrics.any fun p => p.2 < 0 ∨ 1000000 < p.2 then
    .error (valueError "metrics must be integer PPM values from 0 to 1000000")
  else .ok ()

/-- `tuple(sorted(set(channels)))`. -/
def requestedChannels (channels : List String) : List String :=
  channels.dedup.insertionSort (· ≤ ·)

/-- `_validate_request(request, channels)` : the channels and the provenance of a valid
request. -/
def validateRequest (request : AnalysisCommitRequest) :
    Except Exn (List Channel × MetricProvenance) := do
  check (request.availabilityState = "AVAILABLE" ↔ request.lifecycleState ≠ none)
    (valueError "only AVAILABLE evaluations have an effective lifecycle")
  check (0 ≤ request.expectedProjectionVersion)
    (valueError "expected projection version cannot be negative")
  let names := requestedChannels request.channels
  let channels := names.filterMap Channel.ofText?
  check (names ≠ [] ∧ channels.length = names.length)
    (valueError "notification channels must be IN_APP or WEBHOOK")
  match request.metricProvenance with
  | none => throw (thresholdGate "OFFICIAL commit requires metric producer and evidence provenance")
  | some provenance =>
    check (¬blank provenance.producerVersion ∧ ¬blank provenance.evidenceSha256)
      (thresholdGate "OFFICIAL commit requires metric producer and evidence provenance")
    validateMetrics request.guardianMetrics guardianCodes
    validateMetrics request.scoutMetrics scoutCodes
    return (channels, provenance)

/-! ## The artifact -/

/-- `_verified_metric_provenance(runtime, artifacts, provenance)` : the fields of the
evidence document. -/
def verifiedMetricProvenance (db : Database) (files : ArtifactFiles)
    (provenance : MetricProvenance) : Except Exn Value := do
  let unavailable := thresholdGate "OFFICIAL metric evidence is unavailable"
  let evidence ←
    match openVerified files provenance.evidenceSha256 with
    | .error _ => throw unavailable
    | .ok raw =>
      match Json.loads raw with
      | none => throw unavailable
      | some evidence => pure evidence
  check (db.artifacts.artifactObject.any fun a => a.sha256 = provenance.evidenceSha256)
    (thresholdGate "OFFICIAL metric evidence is not registered")
  match evidence with
  | .obj fields => return .obj fields
  | _ => throw (thresholdGate "OFFICIAL metric evidence lineage is invalid")

/-- The identity of a threshold set in an evidence document. -/
def ThresholdSet.document (thresholds : ThresholdSet) : Value :=
  .obj [("uid", .str thresholds.uid), ("version", .str thresholds.version),
    ("definition_hash", .str thresholds.definitionHash)]

/-- `_threshold_evidence_matches(value, thresholds)`. -/
def thresholdEvidenceMatches (value : Option Value) (thresholds : ThresholdSet) : Bool :=
  value.map Json.sortKeys = some (Json.sortKeys thresholds.document)

/-- One item of the `metrics` list : its code, with its value when it has one. -/
def readMetric (item : Value) : Option (String × Option ℤ) :=
  match item with
  | .obj fields =>
    let keys := fields.map Prod.fst
    if ¬(∀ key ∈ keys, key ∈ ["code", "status", "value_ppm"]) ∨
        ¬∀ key ∈ ["code", "status", "value_ppm"], key ∈ keys then none
    else
      match item.get? "code", item.get? "status", item.get? "value_ppm" with
      | some (.str code), some (.str "VALUE"), some (.int value) =>
        if 0 ≤ value ∧ value ≤ 1000000 then some (code, some value) else none
      | some (.str code), some (.str status), some .null =>
        if status = "MISSING" ∨ status = "NOT_APPLICABLE" then some (code, none) else none
      | _, _, _ => none
  | _ => none

/-- `_metrics_from_evidence(output)`, from the metrics read so far. -/
def metricsFromEvidence : List Value → Metrics → Metrics → Option (Metrics × Metrics)
  | [], guardian, scout => some (guardian, scout)
  | item :: items, guardian, scout => do
    let (code, value) ← readMetric item
    if code ∉ guardianCodes ∧ code ∉ scoutCodes then none
    else
      let target := if code ∈ guardianCodes then guardian else scout
      if (target.lookup code).isSome then none
      else
        match value with
        | none => metricsFromEvidence items guardian scout
        | some value =>
          if code ∈ guardianCodes then
            metricsFromEvidence items (guardian ++ [(code, value)]) scout
          else metricsFromEvidence items guardian (scout ++ [(code, value)])

/-- The lineage of a snapshot in its evidence, when its manifest and bundle are there. -/
def snapshotLineage (db : Database) (snapshotUid : Uid) : Option (List (String × Value)) := do
  let snapshot ← db.evidence.evaluationSnapshot.find? fun s => s.snapshotUid = snapshotUid
  let manifest ← db.evidence.inputManifest.find? fun m => m.manifestUid = snapshot.manifestUid
  let bundle ← db.evidence.referenceVersionBundle.find? fun b => b.bundleUid = snapshot.bundleUid
  let entries := (db.evidence.referenceVersionEntry.filter fun e =>
    e.bundleUid = bundle.bundleUid).map fun e => [e.entityKind, e.entityUid, e.versionUid]
  let epochs := ((db.evidence.capabilitySnapshot.filter fun c =>
    c.snapshotUid = snapshotUid).map CapabilitySnapshot.epochUid).dedup
  return [("snapshot_uid", .str snapshotUid), ("snapshot_hash", .str snapshot.canonicalHash),
    ("subject_uid", .str snapshot.subjectUid), ("manifest_uid", .str manifest.manifestUid),
    ("manifest_hash", .str manifest.canonicalHash),
    ("manifest_artifact_sha256", .str manifest.artifactSha256),
    ("bundle_uid", .str bundle.bundleUid), ("bundle_hash", .str bundle.canonicalHash),
    ("reference_entries", .arr ((entries.insertionSort (· ≤ ·)).map fun e =>
      .arr (e.map Value.str))),
    ("source_epoch_uids", .arr ((epochs.insertionSort (· ≤ ·)).map Value.str))]

/-- The lineage a sealed snapshot expects of its evidence, for
`_verify_metric_evidence_lineage`. -/
def expectedLineage (db : Database) (snapshotUid : Uid) (provenance : MetricProvenance) :
    Except Exn (List (String × Value)) :=
  match snapshotLineage db snapshotUid with
  | none => .error ⟨.noResultFound, "No row was found when one was required"⟩
  | some lineage => .ok (lineage ++ [("producer_version", .str provenance.producerVersion)])

/-- `_verify_metric_evidence_lineage(…)` : the metric values the evidence carries. -/
def verifyMetricEvidenceLineage (db : Database) (snapshotUid : Uid)
    (provenance : MetricProvenance) (evidence : Value)
    (guardianThresholds scoutThresholds : ThresholdSet) : Except Exn (Metrics × Metrics) := do
  let invalid := thresholdGate "OFFICIAL metric evidence lineage is invalid"
  check (evidence.get? "schema_version" = some (.int 2)) invalid
  let expected ← expectedLineage db snapshotUid provenance
  check (expected.all fun p => evidence.get? p.1 = some p.2) invalid
  check (thresholdEvidenceMatches (evidence.get? "guardian_threshold") guardianThresholds) invalid
  check (thresholdEvidenceMatches (evidence.get? "scout_threshold") scoutThresholds) invalid
  match evidence.get? "metric_output" with
  | some (.obj fields) =>
    let output : Value := .obj fields
    check (output.get? "rule_version" = some (.str provenance.producerVersion) ∧
      evidence.get? "metric_output_sha256" = some (.str (canonicalHash output))) invalid
    match output.get? "metrics" with
    | some (.arr items) =>
      match metricsFromEvidence items [] [] with
      | some metrics => return metrics
      | none => throw invalid
    | _ => throw invalid
  | _ => throw invalid

/-! ## The recorded facts -/

/-- A metric fact : its row, code, value and hash. -/
structure MetricFact where
  factUid : Uid
  code : String
  value : ℤ
  factHash : String
  deriving DecidableEq

/-- The facts of the rows of an execution, `_metric_execution_facts`. -/
def readFacts (allowed : List String) : List FactRecord → List MetricFact →
    Except Exn (List MetricFact)
  | [], facts => .ok facts
  | row :: rows, facts =>
    if row.factCode ∉ allowed ∨ row.valueStatus ≠ .value ∨ row.valueScale ≠ 0 ∨
        row.unit ≠ "PPM" ∨ row.factCode ∈ facts.map MetricFact.code then
      .error (thresholdGate "OFFICIAL CR004 metric fact lineage is invalid")
    else
      let value := row.valueScaled.getD 0
      if value < 0 ∨ 1000000 < value then
        .error (thresholdGate "OFFICIAL CR004 metric value is invalid")
      else readFacts allowed rows (facts ++ [⟨row.factUid, row.factCode, value, row.factHash⟩])

/-- `_metric_execution_facts(…)`. -/
def metricExecutionFacts (db : Database) (snapshotUid : Uid) (ruleKey : String)
    (provenance : MetricProvenance) (thresholds : ThresholdSet) (allowed : List String) :
    Except Exn (List MetricFact) :=
  let executions := db.evidence.ruleExecution.filter fun r =>
    r.snapshotUid = snapshotUid ∧ r.ruleKey = ruleKey ∧
      r.ruleVersion = provenance.producerVersion ∧
      r.thresholdVersionUid = some thresholds.uid ∧ r.validationStatus = .valid ∧
      r.outputHash = provenance.evidenceSha256
  match executions with
  | [execution] =>
    let rows := db.evidence.factRecord.filter fun f =>
      f.producerRuleExecutionUid = execution.ruleExecutionUid ∧ f.snapshotUid = snapshotUid
    readFacts allowed (rows.insertionSort fun f g => f.factCode ≤ g.factCode) []
  | _ =>
    .error (thresholdGate
      ("OFFICIAL commit requires exactly one " ++ ruleKey ++ " CR004 execution"))

/-- The metric values of facts. -/
def factMetrics (facts : List MetricFact) : Metrics := facts.map fun f => (f.code, f.value)

/-- `_VerifiedMetricExecution` : the facts of the two executions. -/
structure VerifiedMetricExecution where
  guardianFacts : List MetricFact
  scoutFacts : List MetricFact
  deriving DecidableEq

/-- `[*metrics.guardian_facts, *metrics.scout_facts]`. -/
def VerifiedMetricExecution.facts (execution : VerifiedMetricExecution) : List MetricFact :=
  execution.guardianFacts ++ execution.scoutFacts

/-- `_verified_metric_execution(…)`. -/
def verifiedMetricExecution (db : Database) (snapshotUid : Uid) (provenance : MetricProvenance)
    (evidence : Value) (guardianThresholds scoutThresholds : ThresholdSet) :
    Except Exn VerifiedMetricExecution := do
  let (guardianMetrics, scoutMetrics) ← verifyMetricEvidenceLineage db snapshotUid provenance
    evidence guardianThresholds scoutThresholds
  let guardianFacts ← metricExecutionFacts db snapshotUid "CR004_GUARDIAN_METRICS" provenance
    guardianThresholds guardianCodes
  let scoutFacts ← metricExecutionFacts db snapshotUid "CR004_SCOUT_METRICS" provenance
    scoutThresholds scoutCodes
  check (Metrics.same (factMetrics guardianFacts) guardianMetrics ∧
      Metrics.same (factMetrics scoutFacts) scoutMetrics)
    (thresholdGate "OFFICIAL persisted metric facts do not match bound artifact metrics")
  return ⟨guardianFacts, scoutFacts⟩

end MarketMonitor
