import MarketMonitor.Analysis.MetricEvidence
import MarketMonitor.Analysis.ProductionWorker
import MarketMonitor.Library.Program
import Mathlib.Data.List.DropRight

/-!
# The official orchestrator

A cycle of a subject, as a program that calls the pipeline and the journal. Every readiness
stage, the phase and the thresholds are gates with an early return ; an official cycle then
seals its snapshot, runs the metrics under a permit, commits and delivers, and writes the
journal before and after each of these.
-/

namespace MarketMonitor

open Json (Value)

/-! ## Records -/

/-- A mapping of texts to values. -/
abbrev Details := List (String × Value)

/-- `mapping.get(key)` -/
def Details.get (d : Details) (key : String) : Option Value :=
  (d.find? fun p => p.1 = key).map Prod.snd

/-- `mapping[key] = value` -/
def Details.set (d : Details) (key : String) (value : Value) : Details :=
  if d.any fun p => p.1 = key then d.map fun p => if p.1 = key then (key, value) else p
  else d ++ [(key, value)]

/-- `mapping.update(other)` -/
def Details.update (d other : Details) : Details := other.foldl (fun d p => d.set p.1 p.2) d

/-- `text.strip()` -/
def strip (text : String) : String :=
  String.ofList ((text.toList.dropWhile isSpace).rdropWhile isSpace)

/-- `_activation_count(data)`. -/
def activationCount (data : Details) : ℕ :=
  match data.get "activation_count" with
  | some (.int n) => n.toNat
  | _ => 0

/-- `_text(value)`. -/
def textOf : Option Value → String
  | some (.str text) => strip text
  | _ => ""

/-- `CycleStatus` -/
inductive OfficialCycleStatus where
  | committed | idempotent | blocked | shadowCompleted
  deriving DecidableEq, Repr

/-- `StageStatus` -/
structure StageStatus where
  ready : Bool
  fitnessStatus : FitnessStatus
  detail : String
  data : Details

/-- `OfficialMetricOutput` -/
structure OfficialMetricOutput where
  producerVersion : String
  evidenceSha256 : String
  guardianMetrics : Metrics
  scoutMetrics : Metrics
  availabilityState : String
  lifecycleState : Option String
  fitnessStatus : FitnessStatus
  lineage : blank producerVersion = false ∧ evidenceSha256.length = 64
  available_iff : availabilityState = "AVAILABLE" ↔ lifecycleState ≠ none
  ppm : ∀ p ∈ guardianMetrics ++ scoutMetrics, 0 ≤ p.2 ∧ p.2 ≤ 1000000

/-- `OfficialCommitInput` -/
structure OfficialCommitInput where
  snapshotUid : Uid
  subjectUid : Uid
  availabilityState : String
  lifecycleState : Option String
  expectedProjectionVersion : ℤ
  guardianMetrics : Metrics
  scoutMetrics : Metrics
  producerVersion : String
  evidenceSha256 : String
  fitnessStatus : FitnessStatus
  channels : List String
  deriving DecidableEq

/-- `OfficialCommitResult` -/
structure OfficialCommitResult where
  commitUid : Uid
  eventVersionUids : List Uid
  intentUids : List Uid
  deriving DecidableEq

/-- `CycleCheckpoint` -/
structure CycleCheckpoint where
  cycleUid : Uid
  cycleKey : String
  subjectUid : Uid
  observedAt : Instant
  phase : CyclePhase
  status : CycleStatus
  attempt : ℕ
  snapshotUid : Option Uid
  commitUid : Option Uid
  errorCode : Option String
  details : Details
  named : blank cycleKey = false ∧ blank subjectUid = false
  attempt_pos : 1 ≤ attempt

/-- `OfficialExecutionPermit` -/
structure OfficialExecutionPermit where
  cycleKey : String
  subjectUid : Uid
  snapshotUid : Uid
  thresholdActivationCount : ℕ
  nonce : Uid
  guardianThresholdUid : Uid
  scoutThresholdUid : Uid
  identity : blank cycleKey = false ∧ blank subjectUid = false ∧ blank snapshotUid = false ∧
    blank nonce = false
  pair : 2 ≤ thresholdActivationCount
  lineage : blank guardianThresholdUid = false ∧ blank scoutThresholdUid = false

/-- `OfficialOrchestratorConfig` -/
structure OfficialOrchestratorConfig where
  officialEnabled : Bool
  channels : List String
  deliverAfterCommit : Bool
  minimumActivationCount : ℕ
  evaluationDisposition : EvaluationDisposition
  channels_valid : channels ≠ [] ∧ channels.Pairwise (· < ·) ∧
    ∀ c ∈ channels, c = "IN_APP" ∨ c = "WEBHOOK"
  pair : 2 ≤ minimumActivationCount
  disposition_valid : evaluationDisposition = .official ∨ evaluationDisposition = .shadow

/-- A single channel is sorted. -/
theorem inApp_valid : ["IN_APP"] ≠ [] ∧ ["IN_APP"].Pairwise (· < ·) ∧
    ∀ c ∈ ["IN_APP"], c = "IN_APP" ∨ c = "WEBHOOK" := by
  decide

theorem two_activations : 2 ≤ 2 := le_rfl

/-- `OfficialCycleResult` -/
structure OfficialCycleResult where
  status : OfficialCycleStatus
  cycleKey : String
  subjectUid : Uid
  phase : String
  reason : Option String
  commit : Option OfficialCommitResult
  details : Details

/-! ## Calls -/

/-- The stages of the pipeline that answer with a status. -/
inductive ReadinessStage where
  | boot | calendar | reference | provider | historical | minuteCohort | threshold
  deriving DecidableEq, Repr

/-- The calls of a cycle : of `CycleJournal` and of `OfficialPipeline`. -/
inductive CycleCall where
  | journalGet (cycleKey : String) (subjectUid : Uid)
  | journalBegin (cycleKey : String) (subjectUid : Uid) (observedAt : Instant)
  | journalSave (checkpoint : CycleCheckpoint)
  | readiness (stage : ReadinessStage) (observedAt : Instant)
  | marketPhase (observedAt : Instant)
  | sealSnapshot (subjectUid : Uid) (cycleKey : String) (observedAt : Instant)
  | runMetrics (snapshotUid : Uid) (permit : Option OfficialExecutionPermit)
  | expectedProjectionVersion (subjectUid : Uid)
  | commit (request : OfficialCommitInput)
  | deliver

/-- What a call answers with. -/
abbrev CycleCall.Answer : CycleCall → Type
  | journalGet _ _ => Option CycleCheckpoint
  | journalBegin _ _ _ => CycleCheckpoint
  | journalSave _ => CycleCheckpoint
  | readiness _ _ => StageStatus
  | marketPhase _ => String
  | sealSnapshot _ _ _ => Uid
  | runMetrics _ _ => OfficialMetricOutput
  | expectedProjectionVersion _ => ℤ
  | commit _ => OfficialCommitResult
  | deliver => Unit

/-- A part of a cycle. -/
abbrev CycleProgram (α : Type) := Program CycleCall CycleCall.Answer CycleError α

/-- One call of a cycle. -/
def ask (op : CycleCall) : CycleProgram op.Answer := Program.perform op

/-- `raise ValueError(text)` -/
def raiseValueError {α : Type} (text : String) : CycleProgram α := .throw ⟨"ValueError", text⟩

/-- `_issue_official_execution_permit(...)`. -/
def issuePermit (cycleKey : String) (subjectUid snapshotUid : Uid) (activationCount : ℕ)
    (nonce guardianThresholdUid scoutThresholdUid : Uid) : CycleProgram OfficialExecutionPermit :=
  if hidentity : blank cycleKey = false ∧ blank subjectUid = false ∧ blank snapshotUid = false ∧
      blank nonce = false then
    if hpair : 2 ≤ activationCount then
      if hlineage : blank guardianThresholdUid = false ∧ blank scoutThresholdUid = false then
        .pure ⟨cycleKey, subjectUid, snapshotUid, activationCount, nonce, guardianThresholdUid,
          scoutThresholdUid, hidentity, hpair, hlineage⟩
      else raiseValueError "official permit threshold lineage must contain a pair"
    else raiseValueError "official permit requires an active Guardian/Scout pair"
  else raiseValueError "official permit identity is required"

/-! ## Results -/

/-- What a cycle is run with. -/
structure CycleInput where
  config : OfficialOrchestratorConfig
  subjectUid : Uid
  cycleKey : String
  observedAt : Instant
  nonce : Uid

namespace CycleInput

variable (c : CycleInput)

/-- `_blocked(cycle_key, subject_uid, phase, reason, details)`. -/
def blocked (phase reason : String) (details : Details) : OfficialCycleResult :=
  ⟨.blocked, c.cycleKey, c.subjectUid, phase, some reason, none, details⟩

/-- The result of a cycle whose checkpoint is committed. -/
def idempotent (checkpoint : CycleCheckpoint) : OfficialCycleResult :=
  ⟨.idempotent, c.cycleKey, c.subjectUid, "COMPLETED", none,
    checkpoint.commitUid.map fun uid => ⟨uid, [], []⟩, checkpoint.details⟩

/-- `_stage_gate(cycle_key, subject_uid, name, stage, failure_reason)`. -/
def stageGate (name : String) (stage : StageStatus) (failureReason : Option String) :
    Option OfficialCycleResult :=
  if stage.fitnessStatus = .unfit ∨ stage.fitnessStatus = .unknown then
    some (c.blocked name (name ++ "_" ++ stage.fitnessStatus.text) stage.data)
  else if stage.ready then none
  else some (c.blocked name (failureReason.getD (name ++ "_NOT_READY")) stage.data)

/-- `_phase_gate(phase, cycle_key, subject_uid)`. -/
def phaseGate (phase : String) : Option OfficialCycleResult :=
  if phase = "BREAK" then some (c.blocked "PHASE" "MARKET_BREAK" [])
  else if phase = "NON_TRADING_DAY" then some (c.blocked "PHASE" "NON_TRADING_DAY" [])
  else if phase = "PRE_OPEN" then some (c.blocked "PHASE" "MARKET_NOT_OPEN" [])
  else if phase ≠ "CONTINUOUS_AM" ∧ phase ≠ "CONTINUOUS_PM" ∧ phase ≠ "CLOSED" then
    some (c.blocked "PHASE" "MARKET_PHASE_UNKNOWN" [])
  else none

/-- Return early when a gate blocks. -/
def gate (result : Option OfficialCycleResult) (rest : CycleProgram OfficialCycleResult) :
    CycleProgram OfficialCycleResult :=
  match result with
  | some blocked => .pure blocked
  | none => rest

/-- The gate of the thresholds, and of the final evaluation after the close. -/
def thresholdGate (phase : String) (threshold : StageStatus) : Option OfficialCycleResult :=
  if threshold.ready = false ∨ c.config.evaluationDisposition = .official ∧
      activationCount threshold.data < c.config.minimumActivationCount then
    some (c.blocked "THRESHOLD" "THRESHOLD_ACTIVATION_UNAVAILABLE" threshold.data)
  else if phase = "CLOSED" ∧ threshold.data.get "final_close" ≠ some (.bool true) then
    some (c.blocked "PHASE" "FINAL_EVALUATION_NOT_PERMITTED" [])
  else if threshold.fitnessStatus = .unfit ∨ threshold.fitnessStatus = .unknown then
    some (c.blocked "THRESHOLD" "THRESHOLD_NOT_FIT" threshold.data)
  else none

/-! ## The journal -/

end CycleInput

/-- The checkpoint `_save(checkpoint, phase=..., ...)` writes. -/
def CycleCheckpoint.updated (checkpoint : CycleCheckpoint) (phase : CyclePhase)
    (status : Option CycleStatus) (snapshotUid commitUid : Option Uid)
    (errorCode : Option String) (details : Details) : CycleCheckpoint where
  cycleUid := checkpoint.cycleUid
  cycleKey := checkpoint.cycleKey
  subjectUid := checkpoint.subjectUid
  observedAt := checkpoint.observedAt
  phase := phase
  status := status.getD checkpoint.status
  attempt := checkpoint.attempt
  snapshotUid := snapshotUid.orElse fun _ => checkpoint.snapshotUid
  commitUid := commitUid.orElse fun _ => checkpoint.commitUid
  errorCode := errorCode
  details := checkpoint.details.update details
  named := checkpoint.named
  attempt_pos := checkpoint.attempt_pos

/-- `_save(checkpoint, ...)`. -/
def saveCheckpoint (checkpoint : CycleCheckpoint) (phase : CyclePhase)
    (status : Option CycleStatus) (snapshotUid commitUid : Option Uid)
    (errorCode : Option String) (details : Details) : CycleProgram CycleCheckpoint :=
  ask (.journalSave
    (checkpoint.updated phase status snapshotUid commitUid errorCode details))

/-- What `run` does when a cycle raises. -/
def recordFailure {α : Type} (checkpoint : CycleCheckpoint) (error : CycleError) :
    CycleProgram α := do
  let _ ← saveCheckpoint checkpoint .failed (some .failed) checkpoint.snapshotUid none
    (some error.typeName) [("error", .str error.typeName)]
  .throw error

namespace CycleInput

variable (c : CycleInput)

/-! ## Cycles -/

/-- The snapshot of the cycle : the one of the checkpoint, or a new one. -/
def sealedSnapshot (checkpoint : CycleCheckpoint) (threshold : StageStatus) :
    CycleProgram (Uid × CycleCheckpoint) :=
  match checkpoint.snapshotUid with
  | some snapshotUid => .pure (snapshotUid, checkpoint)
  | none => do
    let snapshotUid ← ask (.sealSnapshot c.subjectUid c.cycleKey c.observedAt)
    let checkpoint ← saveCheckpoint checkpoint .metric none (some snapshotUid) none none
      [("threshold_activation_count", .int (activationCount threshold.data)),
        ("guardian_threshold_uid", .str (textOf (threshold.data.get "guardian_threshold_uid"))),
        ("scout_threshold_uid", .str (textOf (threshold.data.get "scout_threshold_uid")))]
    return (snapshotUid, checkpoint)

/-- The metrics of a snapshot, under a permit for the cycle. -/
def officialMetrics (snapshotUid : Uid) (threshold : StageStatus) :
    CycleProgram OfficialMetricOutput := do
  let permit ← issuePermit c.cycleKey c.subjectUid snapshotUid (activationCount threshold.data)
    c.nonce (textOf (threshold.data.get "guardian_threshold_uid"))
    (textOf (threshold.data.get "scout_threshold_uid"))
  ask (.runMetrics snapshotUid (some permit))

/-- `METRIC_UNFIT` or `METRIC_UNKNOWN`. -/
def metricReason (fitness : FitnessStatus) : String :=
  if fitness = .unfit then "METRIC_UNFIT" else "METRIC_UNKNOWN"

/-- The request for the commit of the metrics of a snapshot. -/
def commitInput (snapshotUid : Uid) (metric : OfficialMetricOutput) (version : ℤ) :
    OfficialCommitInput where
  snapshotUid := snapshotUid
  subjectUid := c.subjectUid
  availabilityState := metric.availabilityState
  lifecycleState := metric.lifecycleState
  expectedProjectionVersion := version
  guardianMetrics := metric.guardianMetrics
  scoutMetrics := metric.scoutMetrics
  producerVersion := metric.producerVersion
  evidenceSha256 := metric.evidenceSha256
  fitnessStatus := metric.fitnessStatus
  channels := c.config.channels

/-- What the journal keeps of a commit. -/
def commitDetails (commit : OfficialCommitResult) : Details :=
  [("event_version_count", .int commit.eventVersionUids.length),
    ("intent_count", .int commit.intentUids.length),
    ("event_version_uids", .arr (commit.eventVersionUids.map Value.str)),
    ("intent_uids", .arr (commit.intentUids.map Value.str))]

/-- The commit of a snapshot, and the delivery after it. -/
def commitSnapshot (snapshotUid : Uid) (metric : OfficialMetricOutput)
    (checkpoint : CycleCheckpoint) : CycleProgram OfficialCycleResult :=
  (do
    let version ← ask (.expectedProjectionVersion c.subjectUid)
    ask (.commit (c.commitInput snapshotUid metric version))).handle
      (recordFailure checkpoint) fun (commit : OfficialCommitResult) =>
  (saveCheckpoint checkpoint .eventOutbox (some .running) (some snapshotUid)
    (some commit.commitUid) none (commitDetails commit)).handle
      (recordFailure checkpoint) fun checkpoint =>
  (do
    if c.config.deliverAfterCommit then
      ask .deliver
    saveCheckpoint checkpoint .completed (some .committed) (some snapshotUid)
      (some commit.commitUid) none (commitDetails commit)).handle
      (recordFailure checkpoint) fun _ =>
  .pure ⟨.committed, c.cycleKey, c.subjectUid, "COMPLETED", none, some commit,
    [("event_version_count", .int commit.eventVersionUids.length),
      ("intent_count", .int commit.intentUids.length)]⟩

/-- The cycle after the metrics of its snapshot. -/
def afterMetrics (snapshotUid : Uid) (metric : OfficialMetricOutput)
    (checkpoint : CycleCheckpoint) : CycleProgram OfficialCycleResult :=
  if metric.fitnessStatus = .unfit ∨ metric.fitnessStatus = .unknown then
    (saveCheckpoint checkpoint .failed (some .failed) (some snapshotUid) none
      (some (metricReason metric.fitnessStatus))
      [("fitness_status", .str metric.fitnessStatus.text)]).handle
        (recordFailure checkpoint) fun _ =>
    .pure (c.blocked "METRIC" (metricReason metric.fitnessStatus)
      [("fitness_status", .str metric.fitnessStatus.text)])
  else if metric.availabilityState ≠ "AVAILABLE" ∨ metric.lifecycleState = none then
    (saveCheckpoint checkpoint .failed (some .failed) (some snapshotUid) none
      (some "METRIC_NOT_AVAILABLE")
      [("availability_state", .str metric.availabilityState),
        ("fitness_status", .str metric.fitnessStatus.text)]).handle
        (recordFailure checkpoint) fun _ =>
    .pure (c.blocked "METRIC" "METRIC_NOT_AVAILABLE"
      [("availability_state", .str metric.availabilityState)])
  else
    (saveCheckpoint checkpoint .analysisCommit none (some snapshotUid) none none
      [("fitness_status", .str metric.fitnessStatus.text),
        ("metric_producer_version", .str metric.producerVersion),
        ("metric_evidence_sha256", .str metric.evidenceSha256)]).handle
        (recordFailure checkpoint) fun checkpoint =>
    c.commitSnapshot snapshotUid metric checkpoint

/-- The cycle after its gates, from its place in the journal. What raises is recorded with
the checkpoint that was saved last. -/
def runOfficial (threshold : StageStatus) : CycleProgram OfficialCycleResult := do
  let checkpoint : CycleCheckpoint ←
    ask (.journalBegin c.cycleKey c.subjectUid c.observedAt)
  if checkpoint.status = .committed then
    return c.idempotent checkpoint
  else
    (c.sealedSnapshot checkpoint threshold).handle (recordFailure checkpoint)
      fun (snapshotUid, checkpoint) =>
    (c.officialMetrics snapshotUid threshold).handle (recordFailure checkpoint) fun metric =>
    c.afterMetrics snapshotUid metric checkpoint

/-- `_run_shadow(...)`. -/
def runShadow (threshold : StageStatus) (phase : String) :
    CycleProgram OfficialCycleResult := do
  let snapshotUid ← ask (.sealSnapshot c.subjectUid c.cycleKey c.observedAt)
  let metric : OfficialMetricOutput ← ask (.runMetrics snapshotUid none)
  let details : Details :=
    [("evaluation_disposition", .str "SHADOW"), ("market_phase", .str phase),
      ("snapshot_uid", .str snapshotUid),
      ("threshold_activation_count", .int (activationCount threshold.data)),
      ("fitness_status", .str metric.fitnessStatus.text),
      ("availability_state", .str metric.availabilityState),
      ("guardian_metrics", .obj (metric.guardianMetrics.map fun p => (p.1, .int p.2))),
      ("scout_metrics", .obj (metric.scoutMetrics.map fun p => (p.1, .int p.2))),
      ("official_side_effects", .int 0)]
  if metric.fitnessStatus = .unfit ∨ metric.fitnessStatus = .unknown then
    return c.blocked "METRIC" ("METRIC_" ++ metric.fitnessStatus.text) details
  else if metric.availabilityState ≠ "AVAILABLE" ∨ metric.lifecycleState = none then
    return c.blocked "METRIC" "METRIC_NOT_AVAILABLE" details
  else return ⟨.shadowCompleted, c.cycleKey, c.subjectUid, "COMPLETED", none, none, details⟩

/-- Ask a stage, and go on when it is ready. -/
def passing (name : String) (stage : ReadinessStage) (failureReason : Option String)
    (rest : CycleProgram OfficialCycleResult) : CycleProgram OfficialCycleResult := do
  let status ← ask (.readiness stage c.observedAt)
  gate (c.stageGate name status failureReason) rest

/-- The cycle from the phase of the market on. -/
def runPhase : CycleProgram OfficialCycleResult := do
  let phase ← ask (.marketPhase c.observedAt)
  gate (c.phaseGate phase) do
    let threshold ← ask (.readiness .threshold c.observedAt)
    gate (c.thresholdGate phase threshold) <|
      if c.config.evaluationDisposition = .shadow then c.runShadow threshold phase
      else c.runOfficial threshold

/-- The readiness stages, in their order. -/
def runStages : CycleProgram OfficialCycleResult :=
  c.passing "BOOT" .boot none <|
  gate (if c.config.evaluationDisposition = .official ∧ c.config.officialEnabled = false then
      some (c.blocked "BOOT" "OFFICIAL_DISABLED" []) else none) <|
  c.passing "CALENDAR" .calendar none <|
  c.passing "REFERENCE" .reference none <|
  c.passing "PROVIDER" .provider (some "PROVIDER_NOT_READY") <|
  c.passing "HISTORICAL" .historical (some "HISTORICAL_NOT_READY") <|
  c.passing "MINUTE_COHORT" .minuteCohort (some "MINUTE_COHORT_NOT_READY") c.runPhase

/-- `OfficialOrchestrator.run(subject_uid, cycle_key, observed_at)`. -/
def run (closed : Bool) : CycleProgram OfficialCycleResult :=
  if closed then .throw ⟨"RuntimeError", "official orchestrator is closed"⟩
  else if blank c.subjectUid ∨ blank c.cycleKey then
    raiseValueError "subject UID and cycle key are required"
  else do
    let existing ← ask (.journalGet c.cycleKey c.subjectUid)
    match existing with
    | some checkpoint =>
      if checkpoint.status = .committed then return c.idempotent checkpoint else c.runStages
    | none => c.runStages

end CycleInput

end MarketMonitor
