import MarketMonitor.Analysis.MetricEvidence
import MarketMonitor.Persistence.Tables

/-!
# The Analysis Commit

`AnalysisCommitService.commit` verifies the evidence of a request, then writes the
lifecycle, the Guardian, the Scout, the events and the notification outbox of a sealed
OFFICIAL snapshot in one transaction of the writer queue. A second commit of the snapshot
returns the first one when its request has the same hash.

The writing functions are commands on the tables of the commit; the rest of the database
is a parameter, since they only read it. The identifiers `new_uid` draws are parameters
too, and nothing is assumed of them : an identifier that is already there breaks a
primary key.
-/

namespace MarketMonitor

open Json (Value)
open Transaction

/-- A transaction on the tables of the commit. -/
abbrev AnalysisCommand := EStateM Exn AnalysisTables

/-- The identifiers one commit draws. -/
structure CommitUids where
  evaluation : Uid
  transition : Uid
  guardian : Uid
  scout : Uid
  commit : Uid
  audit : Uid
  event : EventKind → Uid
  eventVersion : EventKind → Uid
  intent : EventKind → Channel → Uid

/-- The sealed snapshot with its quality context, as the transaction reads it. -/
structure CommitSnapshot where
  snapshotUid : Uid
  subjectUid : Uid
  evaluationDisposition : EvaluationDisposition
  snapshotStatus : SnapshotStatus
  canonicalHash : String
  qualityContextUid : Uid
  asOfTime : Instant
  dataHealthStatus : DataHealthStatus
  fitnessStatus : FitnessStatus
  evidenceSufficiency : EvidenceSufficiency
  deriving DecidableEq

/-! ## Lifecycle -/

/-- `_LEGAL` -/
def legal : LifecycleState → List LifecycleState
  | .observing => [.starting]
  | .starting => [.observing, .expanding, .declining]
  | .expanding => [.starting, .accelerating, .diverging, .declining]
  | .accelerating => [.expanding, .diverging, .declining]
  | .diverging => [.expanding, .declining, .observing]
  | .declining => [.observing, .starting, .diverging]

/-- The columns of `state_evaluation` for a request, when they satisfy its `CHECK`s. -/
def stateColumns (request : AnalysisCommitRequest) :
    Option (AvailabilityState × Option LifecycleState) := do
  let availability ← AvailabilityState.ofText? request.availabilityState
  match request.lifecycleState with
  | none => return (availability, none)
  | some text =>
    let lifecycle ← LifecycleState.ofText? text
    return (availability, some lifecycle)

/-- The evaluation hash of a request. -/
def stateHash (snapshot : CommitSnapshot) (request : AnalysisCommitRequest)
    (facts : List MetricFact) : String :=
  canonicalHash (.obj [("snapshot_hash", .str snapshot.canonicalHash),
    ("disposition", .str "OFFICIAL"), ("availability", .str request.availabilityState),
    ("lifecycle", Value.optional request.lifecycleState),
    ("fact_hashes", .arr (((facts.map MetricFact.factHash).insertionSort (· ≤ ·)).map
      Value.str))])

/-- The row of `current_state_projection` after an evaluation. -/
def nextProjection (current : Option StateProjection) (snapshot : CommitSnapshot)
    (evaluationUid : Uid) (availability : AvailabilityState)
    (lifecycle : Option LifecycleState) : StateProjection where
  subjectUid := snapshot.subjectUid
  availabilityState := availability
  effectiveLifecycleState := lifecycle
  lastValidLifecycleState :=
    if lifecycle.isSome then lifecycle else current.bind StateProjection.lastValidLifecycleState
  lastValidAsOfTime :=
    if lifecycle.isSome then some snapshot.asOfTime
    else current.bind StateProjection.lastValidAsOfTime
  evaluationUid := evaluationUid
  asOfTime := snapshot.asOfTime
  version := (current.map StateProjection.version).getD 0 + 1
  rewarmRequired := availability = .warmingUp

/-- The lifecycle an evaluation comes from : `current.effective_lifecycle_state or
current.last_valid_lifecycle_state`. -/
def previousLifecycle (current : Option StateProjection) : Option LifecycleState :=
  current.bind fun p => p.effectiveLifecycleState.or p.lastValidLifecycleState

/-- `INSERT` or `UPDATE … WHERE subject_uid=? AND version=?` of the projection. -/
def writeProjection (current : Option StateProjection) (next : StateProjection) :
    AnalysisCommand Unit :=
  match current with
  | none => insertInto currentStateProjectionTable integrityError next
  | some row => do
    let t : AnalysisTables ← get
    let updated := t.currentStateProjection.countP fun p =>
      p.subjectUid = row.subjectUid ∧ p.version = row.version
    require (updated = 1)
      ⟨.projectionConflictError, "projection changed during Analysis Commit"⟩
    modify fun t => { t with
      currentStateProjection := t.currentStateProjection.map fun p =>
        if p.subjectUid = row.subjectUid ∧ p.version = row.version then next else p }

/-- The transition of an evaluation, when its lifecycle differs from the previous. -/
def writeTransition (uids : CommitUids) (snapshot : CommitSnapshot)
    (previous lifecycle : Option LifecycleState) : AnalysisCommand Unit :=
  match lifecycle with
  | some state => do
    if previous ≠ some state then
      insertInto stateTransitionTable integrityError
        { transitionUid := uids.transition
          subjectUid := snapshot.subjectUid
          fromLifecycleState := previous
          toLifecycleState := state
          evaluationUid := uids.evaluation
          occurredAt := snapshot.asOfTime }
  | none => pure ()

/-- `_insert_state(connection, snapshot, request, facts)`. -/
def insertState (uids : CommitUids) (snapshot : CommitSnapshot)
    (request : AnalysisCommitRequest) (facts : List MetricFact) :
    AnalysisCommand (Uid × String) := do
  require (facts ≠ []) (valueError "state evaluation requires fact evidence")
  let evaluationHash := stateHash snapshot request facts
  let t : AnalysisTables ← get
  let current := t.currentStateProjection.find? fun p => p.subjectUid = snapshot.subjectUid
  let actualVersion := (current.map StateProjection.version).getD 0
  require ((actualVersion : ℤ) = request.expectedProjectionVersion)
    ⟨.projectionConflictError, "projection version is " ++ toString actualVersion ++
      "; expected " ++ toString request.expectedProjectionVersion⟩
  let previous := previousLifecycle current
  -- The comparison is on texts : an unknown lifecycle is illegal before it is malformed.
  require (∀ state ∈ request.lifecycleState, ∀ p ∈ previous,
      state = p.text ∨ state ∈ (legal p).map LifecycleState.text)
    ⟨.illegalLifecycleTransitionError, "illegal lifecycle transition " ++
      (previous.map LifecycleState.text).getD "None" ++ " -> " ++
      request.lifecycleState.getD "None"⟩
  match stateColumns request with
  | none => throw integrityError
  | some (availability, lifecycle) =>
    insertInto stateEvaluationTable integrityError
      { evaluationUid := uids.evaluation
        snapshotUid := request.snapshotUid
        subjectUid := snapshot.subjectUid
        evaluationDisposition := .official
        availabilityState := availability
        lifecycleState := lifecycle
        evaluationHash := evaluationHash
        createdAt := snapshot.asOfTime }
    forM (facts.map fun f => (⟨uids.evaluation, f.factUid⟩ : StateEvaluationFact))
      (insertInto stateEvaluationFactTable integrityError)
    writeTransition uids snapshot previous lifecycle
    writeProjection current
      (nextProjection current snapshot uids.evaluation availability lifecycle)
    return (uids.evaluation, evaluationHash)

/-! ## Guardian -/

/-- The fact of a code : of several, `by_code` keeps the last. -/
def factByCode (facts : List MetricFact) (code : String) : Option MetricFact :=
  facts.findRev? fun f => f.code = code

/-- What `_insert_guardian` finds in the facts of a commit. -/
structure GuardianFindings where
  risks : List RiskFinding
  effect : GuardianEffect
  severity : Severity
  deriving DecidableEq

/-- The findings of `_insert_guardian`, from the quality context of the snapshot. -/
def guardianFindings (availabilityState : String) (health : DataHealthStatus)
    (fitness : FitnessStatus) (facts : List MetricFact) (thresholds : ThresholdSet) :
    GuardianFindings :=
  let missing := guardianRules.any fun rule => (factByCode facts rule.code).isNone
  let unavailable := qualityUnavailable availabilityState health fitness || missing
  let limited := qualityLimited health fitness
  let quality := if unavailable || limited then [dataLimitation unavailable missing] else []
  let qualityEffects : List GuardianEffect :=
    if unavailable || limited then [if unavailable then .pause else .allowWithWarning] else []
  let met :=
    if unavailable then []
    else guardianRules.filterMap fun rule =>
      match factByCode facts rule.code with
      | some fact =>
        if thresholds.entry rule.code ≤ fact.value then some (rule, fact.factUid) else none
      | none => none
  let risks := quality ++ met.map fun p => p.1.finding (some p.2)
  { risks := risks
    effect := strongestEffect (qualityEffects ++ met.map fun p => p.1.effect)
    severity := maxSeverity risks }

def riskDocument (risk : RiskFinding) : Value :=
  .arr [.str risk.riskTag.text, .str risk.severity.text, .str risk.reasonCode,
    Value.optional risk.primaryFactUid]

def guardianHash (stateHash : String) (findings : GuardianFindings) : String :=
  canonicalHash (.obj [("state_evaluation_hash", .str stateHash),
    ("rule_version", .str guardianRuleVersion), ("effect", .str findings.effect.text),
    ("risks", .arr ((findings.risks.insertionSort fun a b =>
      a.riskTag.text ≤ b.riskTag.text).map riskDocument))])

/-- A risk tag with its evidence. -/
def insertRisk (guardianUid : Uid) (risk : RiskFinding) : AnalysisCommand Unit := do
  insertInto guardianRiskTagTable integrityError
    ⟨guardianUid, risk.riskTag, risk.severity, risk.reasonCode, risk.primaryFactUid⟩
  match risk.primaryFactUid with
  | some factUid =>
    insertInto guardianRiskEvidenceTable integrityError ⟨guardianUid, risk.riskTag, factUid⟩
  | none => pure ()

/-- `_insert_guardian(connection, snapshot, state_uid, state_hash, request, facts,
thresholds)` : the findings with their hash. -/
def insertGuardian (uids : CommitUids) (snapshot : CommitSnapshot) (stateUid : Uid)
    (stateHash : String) (request : AnalysisCommitRequest) (facts : List MetricFact)
    (thresholds : ThresholdSet) : AnalysisCommand (GuardianFindings × String) := do
  let findings := guardianFindings request.availabilityState snapshot.dataHealthStatus
    snapshot.fitnessStatus facts thresholds
  let hash := guardianHash stateHash findings
  insertInto guardianEvaluationTable integrityError
    { guardianUid := uids.guardian
      stateEvaluationUid := stateUid
      subjectUid := snapshot.subjectUid
      snapshotUid := request.snapshotUid
      ruleVersion := guardianRuleVersion
      guardianEffect := findings.effect
      blocking := findings.effect.blocks
      maxSeverity := findings.severity
      evaluationHash := hash
      createdAt := snapshot.asOfTime }
  forM findings.risks (insertRisk uids.guardian)
  return (findings, hash)

/-! ## Scout -/

/-- What `_insert_scout` finds in the facts of a commit. -/
structure ScoutFindings where
  opportunities : List OpportunityFinding
  status : ScoutStatus
  strength : ScoutStrength
  suppressed : Bool
  deriving DecidableEq

def scoutFindings (guardianEffect : GuardianEffect) (facts : List MetricFact)
    (thresholds : ThresholdSet) : ScoutFindings :=
  let opportunities := scoutRules.filterMap fun rule =>
    match factByCode facts rule.1 with
    | some fact =>
      if thresholds.entry rule.1 ≤ fact.value then
        some ⟨rule.2, rule.2.text ++ "_OBJECTIVE_THRESHOLD_MET", fact.factUid⟩
      else none
    | none => none
  { opportunities := opportunities
    status := scoutStatus opportunities.length
    strength := scoutStrength opportunities.length
    suppressed := guardianEffect.blocks }

def opportunityDocument (item : OpportunityFinding) : Value :=
  .arr [.str item.opportunityTag.text, .str item.reasonCode, .str item.primaryFactUid]

def scoutHash (guardianHash : String) (findings : ScoutFindings) : String :=
  canonicalHash (.obj [("guardian_hash", .str guardianHash),
    ("rule_version", .str scoutRuleVersion), ("status", .str findings.status.text),
    ("strength", .str findings.strength.text), ("suppressed", .bool findings.suppressed),
    ("tags", .arr ((findings.opportunities.insertionSort fun a b =>
      a.opportunityTag.text ≤ b.opportunityTag.text).map opportunityDocument))])

/-- An opportunity tag with its evidence. -/
def insertOpportunity (scoutUid : Uid) (item : OpportunityFinding) : AnalysisCommand Unit := do
  insertInto scoutOpportunityTagTable integrityError
    ⟨scoutUid, item.opportunityTag, item.reasonCode, item.primaryFactUid⟩
  insertInto scoutOpportunityEvidenceTable integrityError
    ⟨scoutUid, item.opportunityTag, item.primaryFactUid⟩

/-- `_insert_scout(connection, snapshot, state_uid, guardian_uid, guardian_hash,
guardian_effect, facts, thresholds)` : the findings with their hash. -/
def insertScout (uids : CommitUids) (snapshot : CommitSnapshot) (stateUid guardianUid : Uid)
    (guardianHash : String) (guardianEffect : GuardianEffect) (facts : List MetricFact)
    (thresholds : ThresholdSet) : AnalysisCommand (ScoutFindings × String) := do
  let findings := scoutFindings guardianEffect facts thresholds
  let hash := scoutHash guardianHash findings
  insertInto scoutEvaluationTable integrityError
    { scoutUid := uids.scout
      guardianUid := guardianUid
      stateEvaluationUid := stateUid
      subjectUid := snapshot.subjectUid
      snapshotUid := snapshot.snapshotUid
      ruleVersion := scoutRuleVersion
      scoutStatus := findings.status
      scoutStrength := findings.strength
      suppressedByGuardian := findings.suppressed
      guardianEffect := guardianEffect
      evaluationHash := hash
      createdAt := snapshot.asOfTime }
  forM findings.opportunities (insertOpportunity uids.scout)
  return (findings, hash)

/-! ## The frozen context -/

/-- `confidence_from_quality(…)`, whose rules are valid here. -/
def confidence (availabilityState : String) (health : DataHealthStatus) (fitness : FitnessStatus)
    (evidence : EvidenceSufficiency) : Value :=
  let view (level reference : String) : Value :=
    .obj [("level", .str level), ("reference_status", .str reference)]
  if qualityUnavailable availabilityState health fitness then view "BLOCKED" "NO_JUDGMENT"
  else if qualityLimited health fitness ∨ evidence = .low ∨ evidence = .unknown then
    view "LOW" "OBSERVATION_ONLY"
  else if evidence = .medium then view "MEDIUM" "LIMITED_REFERENCE"
  else view "HIGH" "NORMAL_REFERENCE"

/-- An item of the evidence of a tag : the tag with its fact and the rule that produced it. -/
structure EvidenceItem where
  tag : String
  factUid : Uid
  reasonCode : String
  ruleExecutionUid : Uid
  attributes : List (String × Value)

/-- The evidence of a tag, when its fact and the execution of the fact are there. -/
def evidenceItem (db : Database) (tagKey tag : String) (severity : Option String)
    (reasonCode : String) (factUid : Uid) : Option EvidenceItem := do
  let fact ← db.evidence.factRecord.find? fun f => f.factUid = factUid
  let execution ← db.evidence.ruleExecution.find? fun r =>
    r.ruleExecutionUid = fact.producerRuleExecutionUid
  let attributes := [(tagKey, Value.str tag), ("rule_key", .str execution.ruleKey),
    ("rule_version", .str execution.ruleVersion)] ++
      (severity.map fun s => ("severity", Value.str s)).toList
  return ⟨tag, factUid, reasonCode, execution.ruleExecutionUid, attributes⟩

/-- `_frozen_evidence(connection, guardian_uid, scout_uid)`. -/
def frozenEvidence (db : Database) (t : AnalysisTables) (guardianUid scoutUid : Uid) :
    List EvidenceItem :=
  let risks := (t.guardianRiskTag.filter fun r => r.guardianUid = guardianUid).flatMap fun r =>
    (t.guardianRiskEvidence.filter fun e =>
      e.guardianUid = guardianUid ∧ e.riskTag = r.riskTag).filterMap fun e =>
        evidenceItem db "risk_tag" r.riskTag.text (some r.severity.text) r.reasonCode e.factUid
  let tags := (t.scoutOpportunityTag.filter fun o => o.scoutUid = scoutUid).flatMap fun o =>
    (t.scoutOpportunityEvidence.filter fun e =>
      e.scoutUid = scoutUid ∧ e.opportunityTag = o.opportunityTag).filterMap fun e =>
        evidenceItem db "opportunity_tag" o.opportunityTag.text none o.reasonCode e.factUid
  (risks ++ tags).insertionSort fun a b => [a.tag, a.factUid] ≤ [b.tag, b.factUid]

/-- The fields of an evidence item other than its role. -/
def EvidenceItem.fields (item : EvidenceItem) : List (String × Value) :=
  [("reason_code", .str item.reasonCode), ("fact_uid", .str item.factUid),
    ("fact_uid_status", .str "VALUE"), ("rule_execution_uid", .str item.ruleExecutionUid),
    ("rule_execution_uid_status", .str "VALUE"), ("template_key", .str item.reasonCode),
    ("attributes", .obj item.attributes)]

/-- `_frozen_reason_context(fact_uid, reason_code, attributes, evidence_by_fact)`. -/
def frozenReasonContext (evidence : List EvidenceItem) (factUid : Option Uid)
    (reasonCode : String) (attributes : List (String × Value)) : List (String × Value) :=
  match factUid.bind fun uid => evidence.findRev? fun item => item.factUid = uid with
  | some item => item.fields
  | none =>
    [("fact_uid", Value.optional factUid),
      ("fact_uid_status", .str (if factUid.isNone then "MISSING" else "VALUE")),
      ("rule_execution_uid", .null), ("rule_execution_uid_status", .str "MISSING"),
      ("template_key", .str reasonCode), ("attributes", .obj attributes)]

/-- A later dictionary over an earlier one : `{**earlier, **later}`. -/
def mergeFields (earlier later : List (String × Value)) : List (String × Value) :=
  later.foldl (fun acc f => Json.bindField acc f.1 f.2) earlier

/-- `_frozen_context(…)` : the fields that every notification of the commit freezes. -/
def frozenContext (db : Database) (t : AnalysisTables) (uids : CommitUids)
    (snapshot : CommitSnapshot) (request : AnalysisCommitRequest)
    (guardian : GuardianFindings) (scout : ScoutFindings)
    (limitations : List (String × String)) : List (String × Value) :=
  let evidence := frozenEvidence db t uids.guardian uids.scout
  let risk (item : RiskFinding) : Value :=
    .obj (mergeFields [("tag", .str item.riskTag.text), ("severity", .str item.severity.text),
      ("reason_code", .str item.reasonCode)]
      (frozenReasonContext evidence item.primaryFactUid item.reasonCode
        [("risk_tag", .str item.riskTag.text), ("severity", .str item.severity.text)]))
  let tag (item : OpportunityFinding) : Value :=
    .obj (mergeFields [("tag", .str item.opportunityTag.text),
      ("reason_code", .str item.reasonCode)]
      (frozenReasonContext evidence (some item.primaryFactUid) item.reasonCode
        [("opportunity_tag", .str item.opportunityTag.text)]))
  [("as_of_time", .str (formatRfc3339 snapshot.asOfTime)),
    ("guardian", .obj [("guardian_uid", .str uids.guardian),
      ("effect", .str guardian.effect.text), ("blocking", .bool guardian.effect.blocks),
      ("risks", .arr (guardian.risks.map risk))]),
    ("confidence", confidence request.availabilityState snapshot.dataHealthStatus
      snapshot.fitnessStatus snapshot.evidenceSufficiency),
    ("scout", .obj [("scout_uid", .str uids.scout), ("status", .str scout.status.text),
      ("strength", .str scout.strength.text),
      ("suppressed_by_guardian", .bool scout.suppressed),
      ("tags", .arr (scout.opportunities.map tag))]),
    ("explanation", .obj [("supporting", .arr (evidence.map fun item =>
      .obj (("role", .str "SUPPORTING") :: item.fields))), ("contrary", .arr [])]),
    ("data_limitations", .arr (limitations.map fun l =>
      .obj [("code", .str l.1), ("detail", .str l.2)]))]

/-! ## Events -/

/-- The key all events of a kind about a subject share. -/
def relatedKey (subjectUid : Uid) (kind : EventKind) : String :=
  canonicalHash (.obj [("subject_uid", .str subjectUid), ("event_kind", .str kind.text)])

/-- What a commit does to the event of a related key. -/
structure EventChange where
  creates : Bool
  eventUid : Uid
  version : ℕ
  changeType : ChangeType
  status : EventStatus
  evidence : List Uid
  sourceHash : String
  intentKind : IntentKind
  deriving DecidableEq

/-- What `_decide_events` knows of the commit. -/
structure EventContext where
  snapshot : CommitSnapshot
  uids : CommitUids
  guardian : GuardianFindings
  guardianHash : String
  scout : ScoutFindings
  scoutHash : String
  context : List (String × Value)
  channels : List Channel
  generation : ℕ

/-- `desired[kind]` -/
def EventContext.desired (ctx : EventContext) : EventKind → Bool
  | .guardianRisk => ctx.guardian.effect ≠ .allow
  | .scoutWatch => ctx.scout.status = .active ∧ ¬ctx.scout.suppressed

/-- The event is over : a new one begins when its kind is desired again. -/
def EventStatus.closed (status : EventStatus) : Bool :=
  status = .resolved ∨ status = .invalidated

/-- The change of an event, from its projection. -/
def eventChange (ctx : EventContext) (kind : EventKind) (current : Option EventProjection) :
    Option EventChange :=
  if ctx.desired kind then
    let evidence :=
      match kind with
      | .guardianRisk => ctx.guardian.risks.filterMap RiskFinding.primaryFactUid
      | .scoutWatch => ctx.scout.opportunities.map OpportunityFinding.primaryFactUid
    let sourceHash :=
      match kind with
      | .guardianRisk => ctx.guardianHash
      | .scoutWatch => ctx.scoutHash
    let intentKind : IntentKind :=
      match kind with
      | .guardianRisk => .risk
      | .scoutWatch => .attention
    match current.filter fun p => !p.eventStatus.closed with
    | none =>
      some ⟨true, ctx.uids.event kind, 1, .created, .active, evidence, sourceHash, intentKind⟩
    | some p =>
      some ⟨false, p.eventUid, p.version + 1, .changed, .active, evidence, sourceHash,
        intentKind⟩
  else
    match current.filter fun p => !p.eventStatus.closed with
    | none => none
    | some p =>
      let sourceHash := canonicalHash (.obj [("guardian", .str ctx.guardianHash),
        ("scout", .str ctx.scoutHash)])
      some ⟨false, p.eventUid, p.version + 1, .resolved, .resolved, [], sourceHash, .resolution⟩

/-- The new row of `event_version`. -/
def EventContext.versionRow (ctx : EventContext) (kind : EventKind) (change : EventChange) :
    EventVersion where
  eventVersionUid := ctx.uids.eventVersion kind
  eventUid := change.eventUid
  version := change.version
  eventStatus := change.status
  changeType := change.changeType
  analysisCommitUid := ctx.uids.commit
  stateEvaluationUid := ctx.uids.evaluation
  guardianUid := ctx.uids.guardian
  scoutUid := ctx.uids.scout
  versionHash := canonicalHash (.obj [("event_uid", .str change.eventUid),
    ("version", .int change.version), ("status", .str change.status.text),
    ("source_hash", .str change.sourceHash)])
  createdAt := ctx.snapshot.asOfTime

/-- The row of `current_event_projection` after a change. -/
def EventContext.projectionRow (ctx : EventContext) (kind : EventKind) (change : EventChange) :
    EventProjection where
  relatedKey := relatedKey ctx.snapshot.subjectUid kind
  eventUid := change.eventUid
  eventVersionUid := ctx.uids.eventVersion kind
  eventStatus := change.status
  version := change.version
  updatedAt := ctx.snapshot.asOfTime

/-- The frozen context of a change. -/
def EventContext.frozen (ctx : EventContext) (change : EventChange) : Value :=
  .obj (mergeFields ctx.context [("event", .obj [("event_uid", .str change.eventUid),
    ("version", .int change.version), ("status", .str change.status.text)])])

/-- The new row of `notification_intent` for a channel. -/
def EventContext.intentRow (ctx : EventContext) (kind : EventKind) (change : EventChange)
    (channel : Channel) : NotificationIntent where
  intentUid := ctx.uids.intent kind channel
  eventVersionUid := ctx.uids.eventVersion kind
  channel := channel
  intentKind := change.intentKind
  idempotencyKey := canonicalHash (.obj [("event_version_uid", .str (ctx.uids.eventVersion kind)),
    ("channel", .str channel.text)])
  frozenContextJson := String.ofList (Json.dumps (Json.sortKeys (ctx.frozen change)))
  frozenContextHash := canonicalHash (ctx.frozen change)
  createdAt := ctx.snapshot.asOfTime
  expiresAt := ctx.snapshot.asOfTime + minutes 5
  restoreGeneration := ctx.generation

/-- The delivery state of a new intent. -/
def EventContext.deliveryRow (ctx : EventContext) (kind : EventKind) (channel : Channel) :
    NotificationDeliveryState where
  intentUid := ctx.uids.intent kind channel
  deliveryStatus := .pending
  attemptCount := 0
  nextAttemptAt := some ctx.snapshot.asOfTime
  leaseOwner := none
  leaseUntil := none
  lastErrorCode := none
  version := 1
  updatedAt := ctx.snapshot.asOfTime

/-- The intent of a channel, with its delivery state. -/
def insertIntent (ctx : EventContext) (kind : EventKind) (change : EventChange)
    (channel : Channel) : AnalysisCommand Unit := do
  insertInto notificationIntentTable integrityError (ctx.intentRow kind change channel)
  insertInto notificationDeliveryStateTable integrityError (ctx.deliveryRow kind channel)

/-- The new row of `market_event` of a change that begins one. -/
def createEvent (ctx : EventContext) (kind : EventKind) (change : EventChange) :
    AnalysisCommand Unit :=
  if change.creates then
    insertInto marketEventTable integrityError
      ⟨change.eventUid, ctx.snapshot.subjectUid, kind,
        relatedKey ctx.snapshot.subjectUid kind, ctx.snapshot.asOfTime⟩
  else pure ()

/-- `INSERT` or `UPDATE … WHERE related_key=?` of the projection. The
`UNIQUE(event_version_uid)` holds in an update, since the version is new. -/
def writeEventProjection (ctx : EventContext) (kind : EventKind)
    (current : Option EventProjection) (change : EventChange) : AnalysisCommand Unit :=
  match current with
  | none =>
    insertInto currentEventProjectionTable integrityError (ctx.projectionRow kind change)
  | some _ =>
    modify fun t => { t with
      currentEventProjection := t.currentEventProjection.map fun p =>
        if p.relatedKey = relatedKey ctx.snapshot.subjectUid kind then
          ctx.projectionRow kind change
        else p }

/-- Write a change : the event, its version with the evidence, the projection, the
intents. -/
def writeEvent (ctx : EventContext) (kind : EventKind) (current : Option EventProjection)
    (change : EventChange) : AnalysisCommand Unit := do
  createEvent ctx kind change
  insertInto eventVersionTable integrityError (ctx.versionRow kind change)
  forM ((change.evidence.dedup.insertionSort (· ≤ ·)).map fun factUid =>
      (⟨ctx.uids.eventVersion kind, factUid⟩ : EventEvidence))
    (insertInto eventEvidenceTable integrityError)
  writeEventProjection ctx kind current change
  forM ctx.channels (insertIntent ctx kind change)

/-- One iteration of `_decide_events` : the version and the intents it appended. -/
def decideEvent (ctx : EventContext) (kind : EventKind) : AnalysisCommand (List Uid × List Uid) :=
  do
  let t : AnalysisTables ← get
  let current := t.currentEventProjection.find? fun p =>
    p.relatedKey = relatedKey ctx.snapshot.subjectUid kind
  match eventChange ctx kind current with
  | none => return ([], [])
  | some change =>
    writeEvent ctx kind current change
    return ([ctx.uids.eventVersion kind], ctx.channels.map (ctx.uids.intent kind))

/-- `_decide_events(…)` : the versions and the intents it appended. -/
def decideEvents (ctx : EventContext) : AnalysisCommand (List Uid × List Uid) := do
  let (riskVersions, riskIntents) ← decideEvent ctx .guardianRisk
  let (watchVersions, watchIntents) ← decideEvent ctx .scoutWatch
  return (riskVersions ++ watchVersions, riskIntents ++ watchIntents)

/-! ## The service -/

/-- `AnalysisCommitResult` -/
structure AnalysisCommitResult where
  commitUid : Uid
  stateEvaluationUid : Uid
  guardianUid : Uid
  scoutUid : Uid
  eventVersionUids : List Uid
  intentUids : List Uid
  deriving DecidableEq

/-- What the verification of a request establishes. -/
structure VerifiedRequest where
  channels : List Channel
  provenance : MetricProvenance
  guardianThresholds : ThresholdSet
  scoutThresholds : ThresholdSet
  execution : VerifiedMetricExecution

/-- The document whose hash identifies a request. -/
def requestDocument (request : AnalysisCommitRequest) (verified : VerifiedRequest) : Value :=
  .obj [("snapshot_uid", .str request.snapshotUid),
    ("availability_state", .str request.availabilityState),
    ("lifecycle_state", Value.optional request.lifecycleState),
    ("expected_projection_version", .int request.expectedProjectionVersion),
    ("guardian_metrics", (factMetrics verified.execution.guardianFacts).sorted.document),
    ("scout_metrics", (factMetrics verified.execution.scoutFacts).sorted.document),
    ("channels", .arr (verified.channels.map fun c => .str c.text)),
    ("metric_provenance", .arr [.str verified.provenance.producerVersion,
      .str verified.provenance.evidenceSha256])]

/-- `AnalysisCommitService._official_thresholds(snapshot_uid)`. -/
def officialThresholds (db : Database) (snapshotUid : Uid) :
    Except Exn (ThresholdSet × ThresholdSet) :=
  match db.evidence.evaluationSnapshot.find? fun s => s.snapshotUid = snapshotUid with
  | none => .error ⟨.noResultFound, "No row was found when one was required"⟩
  | some snapshot =>
    if snapshot.snapshotStatus ≠ .sealed then
      .error (valueError "Analysis Commit requires a SEALED snapshot")
    else if snapshot.evaluationDisposition ≠ .official then
      .error (valueError "Analysis Commit accepts only OFFICIAL snapshots")
    else
      match resolveOfficial db.thresholds .guardian snapshot.asOfTime,
          resolveOfficial db.thresholds .scout snapshot.asOfTime with
      | .ok guardian, .ok scout => .ok (guardian, scout)
      | _, _ => .error (thresholdGate
          "OFFICIAL commit requires an active validated threshold pair")

/-- The part of `commit` that only reads : the verification of a request. -/
def verifyRequest (db : Database) (files : ArtifactFiles) (request : AnalysisCommitRequest) :
    Except Exn VerifiedRequest := do
  let (channels, provenance) ← validateRequest request
  let evidence ← verifiedMetricProvenance db files provenance
  let (guardianThresholds, scoutThresholds) ← officialThresholds db request.snapshotUid
  let execution ← verifiedMetricExecution db request.snapshotUid provenance evidence
    guardianThresholds scoutThresholds
  check (Metrics.same request.guardianMetrics (factMetrics execution.guardianFacts))
    (thresholdGate "OFFICIAL persisted Guardian metric values do not match caller metrics")
  check (Metrics.same request.scoutMetrics (factMetrics execution.scoutFacts))
    (thresholdGate "OFFICIAL persisted Scout metric values do not match caller metrics")
  return ⟨channels, provenance, guardianThresholds, scoutThresholds, execution⟩

/-- `AnalysisCommitService._existing(snapshot_uid)` : the hash and the result of the commit
of a snapshot. -/
def existingCommit (t : AnalysisTables) (snapshotUid : Uid) :
    Option (String × AnalysisCommitResult) :=
  (t.analysisCommit.find? fun c => c.snapshotUid = snapshotUid).map fun c =>
    let versions := (t.eventVersion.filter fun v => v.analysisCommitUid = c.commitUid).map
      EventVersion.eventVersionUid
    let intents := (t.notificationIntent.filter fun n => n.eventVersionUid ∈ versions).map
      NotificationIntent.intentUid
    (c.commitHash, ⟨c.commitUid, c.stateEvaluationUid, c.guardianUid, c.scoutUid,
      versions.insertionSort (· ≤ ·), intents.insertionSort (· ≤ ·)⟩)

/-- The snapshot the transaction of a commit reads. -/
def commitSnapshot (db : Database) (snapshotUid : Uid) : Except Exn CommitSnapshot := do
  let row : Option CommitSnapshot := do
    let s ← db.evidence.evaluationSnapshot.find? fun s => s.snapshotUid = snapshotUid
    let q ← db.evidence.qualityContext.find? fun q => q.qualityContextUid = s.qualityContextUid
    return ⟨s.snapshotUid, s.subjectUid, s.evaluationDisposition, s.snapshotStatus,
      s.canonicalHash, s.qualityContextUid, s.asOfTime, q.dataHealthStatus, q.fitnessStatus,
      q.evidenceSufficiency⟩
  match row with
  | none => throw ⟨.noResultFound, "No row was found when one was required"⟩
  | some snapshot =>
    check (snapshot.snapshotStatus = .sealed)
      (valueError "Analysis Commit requires a SEALED snapshot")
    check (snapshot.evaluationDisposition = .official)
      (valueError "Analysis Commit requires an OFFICIAL snapshot")
    return snapshot

/-- The limitations of a quality context, in the order of their codes. -/
def limitationsOf (db : Database) (qualityContextUid : Uid) : List (String × String) :=
  ((db.evidence.qualityLimitation.filter fun l =>
    l.qualityContextUid = qualityContextUid).map fun l =>
      (l.limitationCode, l.detail)).insertionSort fun a b => a.1 ≤ b.1

/-- The transaction of a commit. -/
def commitCommand (db : Database) (uids : CommitUids) (request : AnalysisCommitRequest)
    (verified : VerifiedRequest) : AnalysisCommand AnalysisCommitResult := do
  let requestHash := canonicalHash (requestDocument request verified)
  let t : AnalysisTables ← get
  require (t.analysisCommit.all fun c => c.snapshotUid ≠ request.snapshotUid)
    (valueError "snapshot was committed concurrently")
  let snapshot ← fromExcept (commitSnapshot db request.snapshotUid)
  let facts := verified.execution.facts
  let (stateUid, stateHash) ← insertState uids snapshot request facts
  let (guardian, guardianHash) ← insertGuardian uids snapshot stateUid stateHash request facts
    verified.guardianThresholds
  let (scout, scoutHash) ← insertScout uids snapshot stateUid uids.guardian guardianHash
    guardian.effect facts verified.scoutThresholds
  insertInto analysisCommitTable integrityError
    { commitUid := uids.commit
      snapshotUid := request.snapshotUid
      stateEvaluationUid := stateUid
      guardianUid := uids.guardian
      scoutUid := uids.scout
      commitHash := requestHash
      committedAt := snapshot.asOfTime }
  let limitations := limitationsOf db snapshot.qualityContextUid
  let t : AnalysisTables ← get
  let context := frozenContext db t uids snapshot request guardian scout limitations
  let (eventVersions, intents) ← decideEvents
    { snapshot, uids, guardian, guardianHash, scout, scoutHash, context
      channels := verified.channels
      generation := db.metadata.restoreGeneration }
  insertInto auditRecordTable integrityError
    { auditUid := uids.audit
      action := "ANALYSIS_COMMITTED"
      subjectUid := some snapshot.subjectUid
      analysisCommitUid := some uids.commit
      detailHash := canonicalHash (.obj [("commit_hash", .str requestHash),
        ("event_versions", .arr (eventVersions.map Value.str)),
        ("intents", .arr (intents.map Value.str))])
      createdAt := snapshot.asOfTime }
  return ⟨uids.commit, stateUid, uids.guardian, uids.scout, eventVersions, intents⟩

/-- A command on the tables of the commit, run as a transaction on the database. -/
def submit {α : Type} (command : AnalysisCommand α) : EStateM Exn Database α := fun db =>
  match (atomically command).run db.analysis with
  | .ok a t => .ok a { db with analysis := t }
  | .error e t => .error e { db with analysis := t }

/-- `AnalysisCommitService.commit(request)`. -/
def commit (files : ArtifactFiles) (uids : CommitUids) (request : AnalysisCommitRequest) :
    EStateM Exn Database AnalysisCommitResult := do
  let db : Database ← get
  let verified ← fromExcept (verifyRequest db files request)
  match existingCommit db.analysis request.snapshotUid with
  | some (commitHash, result) =>
    require (commitHash = canonicalHash (requestDocument request verified))
      (valueError "snapshot already has a different Analysis Commit")
    return result
  | none => submit (commitCommand db uids request verified)

end MarketMonitor
