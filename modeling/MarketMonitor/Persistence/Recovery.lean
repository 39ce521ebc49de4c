import MarketMonitor.Analysis.EventLedger

/-!
# Recovery

A restored database starts in `RECOVERING` : its deliveries of the generation before are
cancelled and its projections recomputed from the commits. The reconciliation counts the
projections that differ from what the commits give.
-/

namespace MarketMonitor

open Json (Value)
open Transaction Keyed View

/-! ## Queries -/

/-- `analysis_commit JOIN state_evaluation JOIN evaluation_snapshot`. -/
def Database.observedCommits (db : Database) :
    List ((AnalysisCommit × StateEvaluation) × EvaluationSnapshot) :=
  db.analysis.committedEvaluations.filterMap fun p =>
    (db.snapshot p.2.snapshotUid).map fun s => (p, s)

/-- `committed_at, commit_uid` -/
def commitOrder (p : AnalysisCommit × StateEvaluation) : Instant ×ₗ String :=
  toLex (p.1.committedAt, p.1.commitUid)

/-- `availability_state='AVAILABLE'` -/
def isAvailable (p : AnalysisCommit × StateEvaluation) : Bool :=
  p.2.availabilityState = .available

/-- `created_at, version, event_version_uid` -/
def versionOrder (p : EventVersion × MarketEvent) : Instant ×ₗ (ℕ ×ₗ String) :=
  toLex (p.1.createdAt, toLex (p.1.version, p.1.eventVersionUid))

/-! ## The rebuild -/

/-- The rows `_STATE_REBUILD_SQL` inserts. -/
def stateRebuildRows (db : Database) : List StateProjection :=
  db.observedCommits.filterMap fun (p, s) =>
    let commits := db.analysis.commitsOf p.2.subjectUid
    let latestUid : Option Uid := (latest commitOrder commits).map fun q => q.1.commitUid
    let valid := latest commitOrder (commits.filter isAvailable)
    let validSnapshot := latest (fun q => commitOrder q.1) (db.observedCommits.filter fun q =>
      q.1.2.subjectUid = p.2.subjectUid ∧ isAvailable q.1)
    if latestUid = some p.1.commitUid then
      some
        { subjectUid := p.2.subjectUid
          availabilityState := p.2.availabilityState
          effectiveLifecycleState := p.2.lifecycleState
          lastValidLifecycleState := valid.bind fun q => q.2.lifecycleState
          lastValidAsOfTime := validSnapshot.map fun q => q.2.asOfTime
          evaluationUid := p.2.evaluationUid
          asOfTime := s.asOfTime
          version := commits.length
          rewarmRequired := true }
    else none

/-- The rows `_EVENT_REBUILD_SQL` inserts. -/
def eventRebuildRows (t : AnalysisTables) : List EventProjection :=
  t.eventLog.filterMap fun p =>
    let versions := entries versionKey p.2.relatedKey t.eventLog
    let latestUid : Option Uid :=
      (latest versionOrder versions).map fun q => q.1.eventVersionUid
    if latestUid = some p.1.eventVersionUid then some (versionProjection p) else none

/-- `DELETE` and `INSERT` of the two projections. -/
def replaceProjections (states : List StateProjection) (events : List EventProjection) :
    AnalysisCommand Unit := do
  modify fun t : AnalysisTables => { t with currentStateProjection := [] }
  forM states (insertInto currentStateProjectionTable integrityError)
  modify fun t : AnalysisTables => { t with currentEventProjection := [] }
  forM events (insertInto currentEventProjectionTable integrityError)

/-- The rebuild of the two projections : the numbers of their rows. -/
def rebuildProjections : EStateM Exn Database (ℕ × ℕ) := do
  let db : Database ← get
  let states := stateRebuildRows db
  let events := eventRebuildRows db.analysis
  submit (replaceProjections states events)
  return (states.length, events.length)

/-- `delivery_status IN ('PENDING','PROCESSING','RETRY_WAIT')` -/
def DeliveryStatus.unfinished (status : DeliveryStatus) : Bool :=
  status = .pending ∨ status = .processing ∨ status = .retryWait

/-- The deliveries that are not over are cancelled. -/
def cancelDelivery (startedAt : Instant) (d : NotificationDeliveryState) :
    NotificationDeliveryState :=
  if d.deliveryStatus.unfinished then
    { d with
      deliveryStatus := .cancelled
      nextAttemptAt := none
      leaseOwner := none
      leaseUntil := none
      lastErrorCode := some "RESTORE_GENERATION_SUPPRESSED"
      version := d.version + 1
      updatedAt := startedAt }
  else d

/-- The next generation : the deliveries of the one before are cancelled. -/
def nextGeneration (startedAt : Instant) (db : Database) : Database :=
  { db with
    analysis := { db.analysis with
      notificationDeliveryState :=
        db.analysis.notificationDeliveryState.map (cancelDelivery startedAt) }
    metadata := { restoreGeneration := db.metadata.restoreGeneration + 1
                  recoveryState := some "RECOVERING" } }

/-- `_start_recovery(transaction, started_at, manifest_sha256)`, for the audit identifiers it
draws and the number of watermarks it rebuilds. -/
def startRecovery (generationAudit recoveryAudit : Uid) (watermarks : ℕ) (startedAt : Instant)
    (manifestSha256 : String) : EStateM Exn Database Unit := atomically do
  let db : Database ← get
  let generation := db.metadata.restoreGeneration + 1
  let cancelled := db.analysis.notificationDeliveryState.countP fun d => d.deliveryStatus.unfinished
  set (nextGeneration startedAt db)
  let (states, events) ← rebuildProjections
  let audit (uid : Uid) (action : String) (detail : Value) : AnalysisCommand Unit :=
    insertInto auditRecordTable integrityError
      ⟨uid, action, none, none, canonicalHash detail, startedAt⟩
  submit (audit generationAudit "RESTORE_GENERATION_ADVANCED"
    (.obj [("cancelled", .int cancelled), ("restore_generation", .int generation)]))
  submit (audit recoveryAudit "RECOVERY_STARTED"
    (.obj [("event_projections", .int events), ("manifest_sha256", .str manifestSha256),
      ("state_projections", .int states), ("watermarks", .int watermarks)]))

/-! ## The drift of the projections -/

/-- The columns of a state projection that are compared. -/
structure StateColumns where
  availabilityState : AvailabilityState
  effectiveLifecycleState : Option LifecycleState
  lastValidLifecycleState : Option LifecycleState
  lastValidAsOfTime : Option Instant
  evaluationUid : Uid
  asOfTime : Instant
  version : ℕ
  deriving DecidableEq

def StateProjection.columns (p : StateProjection) : StateColumns :=
  ⟨p.availabilityState, p.effectiveLifecycleState, p.lastValidLifecycleState,
    p.lastValidAsOfTime, p.evaluationUid, p.asOfTime, p.version⟩

/-- The columns the commits of a subject give : the rows of position `1` of its partition. -/
def expectedState (db : Database) (subjectUid : Uid) : Option StateColumns :=
  let ranked := db.observedCommits.filter fun q => q.1.2.subjectUid = subjectUid
  let valid := latest (fun q => commitOrder q.1) (ranked.filter fun q => isAvailable q.1)
  (latest (fun q => commitOrder q.1) ranked).map fun q =>
    { availabilityState := q.1.2.availabilityState
      effectiveLifecycleState := q.1.2.lifecycleState
      lastValidLifecycleState := valid.bind fun v => v.1.2.lifecycleState
      lastValidAsOfTime := valid.map fun v => v.2.asOfTime
      evaluationUid := q.1.2.evaluationUid
      asOfTime := q.2.asOfTime
      version := (db.analysis.commitsOf subjectUid).length }

/-- A subject whose projection is not what its commits give. -/
def stateDrifts (db : Database) (subjectUid : Uid) : Bool :=
  match expectedState db subjectUid, db.analysis.projection subjectUid with
  | some wanted, some actual =>
    actual.columns ≠ wanted ∨ (db.metadata.recoveryState ≠ some "RECOVERING" ∧
      actual.rewarmRequired ≠ (wanted.availabilityState = .warmingUp : Bool))
  | _, _ => true

/-- `_state_projection_drift(connection)`. -/
def stateProjectionDrift (db : Database) : ℕ :=
  let expected := db.observedCommits.map fun q => q.1.2.subjectUid
  let current := db.analysis.currentStateProjection.map StateProjection.subjectUid
  ((expected ++ current).dedup.filter (stateDrifts db)).length

/-- `_event_projection_drift(connection)`. -/
def eventProjectionDrift (db : Database) : ℕ :=
  let t := db.analysis
  let expected (key : String) : Option EventProjection :=
    (latest versionOrder (entries versionKey key t.eventLog)).map versionProjection
  let keys := t.eventLog.map versionKey ++ t.currentEventProjection.map EventProjection.relatedKey
  (keys.dedup.filter fun key => expected key ≠ t.eventProjection key).length

end MarketMonitor
