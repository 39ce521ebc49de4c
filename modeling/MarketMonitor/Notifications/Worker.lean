import MarketMonitor.Library.Run
import MarketMonitor.Persistence.Recovery

/-!
# The delivery worker

`DeliveryWorker.run_once` delivers one intent : a transaction claims it for the time of a
lease, a read checks that the claim is current, the adapter sends the message outside any
transaction, and a second transaction records the attempt. The steps of all workers, of
the commits and of the recoveries interleave; `Fleet.step` is one of them.
-/

namespace MarketMonitor

open Json (Value)
open Transaction Keyed

/-! ## Tables -/

inductive AttemptOutcome where
  | delivered | retryableFailure | permanentFailure
  deriving DecidableEq, Repr

/-- `delivery_attempt` -/
structure DeliveryAttempt where
  attemptUid : Uid
  intentUid : Uid
  attemptNumber : ℕ
  outcome : AttemptOutcome
  startedAt : Instant
  completedAt : Instant
  providerReference : Option String
  errorCode : Option String
  deriving DecidableEq

/-- The database with the tables of the deliveries. -/
structure DeliveryStore where
  database : Database
  deliveryAttempt : List DeliveryAttempt
  /-- `enabled` of the row of `notification_setting` -/
  notificationEnabled : Bool

def deliveryAttemptTable : Table DeliveryStore DeliveryAttempt where
  rows := DeliveryStore.deliveryAttempt
  put rows s := { s with deliveryAttempt := rows }
  clash a b := a.attemptUid = b.attemptUid ∨
    (a.intentUid = b.intentUid ∧ a.attemptNumber = b.attemptNumber)
  rows_put _ _ := rfl
  put_rows _ := rfl
  put_put _ _ _ := rfl

namespace DeliveryStore

def intents (s : DeliveryStore) : List NotificationIntent := s.database.analysis.notificationIntent

def deliveries (s : DeliveryStore) : List NotificationDeliveryState :=
  s.database.analysis.notificationDeliveryState

def metadata (s : DeliveryStore) : SystemMetadata := s.database.metadata

/-- `UPDATE notification_delivery_state`. -/
def mapDeliveries (s : DeliveryStore) (f : NotificationDeliveryState → NotificationDeliveryState) :
    DeliveryStore :=
  { s with database := { s.database with analysis := { s.database.analysis with
      notificationDeliveryState := s.deliveries.map f } } }

/-- The intent of an identifier. -/
def intent (s : DeliveryStore) (intentUid : Uid) : Option NotificationIntent :=
  lookupBy NotificationIntent.intentUid intentUid s.intents

/-- The delivery state of an intent. -/
def delivery (s : DeliveryStore) (intentUid : Uid) : Option NotificationDeliveryState :=
  lookupBy NotificationDeliveryState.intentUid intentUid s.deliveries

/-- A command on the database. -/
def onDatabase {α : Type} (s : DeliveryStore) (command : EStateM Exn Database α) :
    DeliveryStore :=
  { s with database := stateAfter (command.run s.database) }

end DeliveryStore

/-! ## Workers -/

/-- `DeliveryMessage` -/
structure DeliveryMessage where
  intentUid : Uid
  idempotencyKey : String
  channel : Channel
  context : Value
  deriving DecidableEq

/-- `DeliveryResult` -/
structure DeliveryResult where
  delivered : Bool
  retryable : Bool
  providerReference : Option String
  errorCode : Option String
  deriving DecidableEq

/-- `_Claim` -/
structure Claim where
  message : DeliveryMessage
  generation : ℕ
  deriving DecidableEq

/-- `DeliveryWorker`, with the channels it has an adapter for. The lease and the time to a
retry are in microseconds. -/
structure DeliveryWorker where
  workerId : String
  adapters : List Channel
  lease : ℕ
  retry : ℕ
  maxAttempts : ℕ
  workerId_ne : workerId ≠ ""
  lease_pos : 0 < lease
  retry_pos : 0 < retry
  maxAttempts_pos : 0 < maxAttempts

/-- `_recovery_state(value, generation)`. -/
def recoveryStateOf (value : Option String) (generation : ℕ) : String :=
  value.getD (if generation = 0 then "NORMAL" else "RECOVERING")

/-- The recovery state is `NORMAL`. -/
def SystemMetadata.isNormal (m : SystemMetadata) : Bool :=
  recoveryStateOf m.recoveryState m.restoreGeneration = "NORMAL"

/-! ## Claiming -/

/-- A delivery that is not over expires with its intent. -/
def expireDelivery (intents : List NotificationIntent) (now : Instant)
    (d : NotificationDeliveryState) : NotificationDeliveryState :=
  if d.deliveryStatus.unfinished ∧
      intents.any fun i => i.intentUid = d.intentUid ∧ i.expiresAt ≤ now then
    { d with
      deliveryStatus := .expired
      nextAttemptAt := none
      leaseOwner := none
      leaseUntil := none
      lastErrorCode := some "EXPIRED"
      version := d.version + 1
      updatedAt := now }
  else d

/-- An intent that waits for an attempt, or whose lease has run out. -/
def claimable (s : DeliveryStore) (now : Instant)
    (p : NotificationIntent × NotificationDeliveryState) : Bool :=
  p.1.restoreGeneration = s.metadata.restoreGeneration ∧ now < p.1.expiresAt ∧
    (p.1.channel ≠ .webhook ∨ s.notificationEnabled) ∧
    (((p.2.deliveryStatus = .pending ∨ p.2.deliveryStatus = .retryWait) ∧
        p.2.nextAttemptAt.all fun t => t ≤ now) ∨
      (p.2.deliveryStatus = .processing ∧ p.2.leaseUntil.any fun t => t ≤ now))

/-- `i.created_at, i.intent_uid` -/
def claimOrder (p : NotificationIntent × NotificationDeliveryState) : Instant ×ₗ String :=
  toLex (p.1.createdAt, p.1.intentUid)

/-- The intent that is claimed next. -/
def nextClaim (s : DeliveryStore) (now : Instant) :
    Option (NotificationIntent × NotificationDeliveryState) :=
  let joined := s.intents.filterMap fun i => (s.delivery i.intentUid).map fun d => (i, d)
  earliest claimOrder (joined.filter (claimable s now))

namespace DeliveryWorker

variable (worker : DeliveryWorker)

/-- `UPDATE … WHERE intent_uid=? AND version=?` : the worker takes the lease. -/
def takeLease (now : Instant) (row d : NotificationDeliveryState) : NotificationDeliveryState :=
  if d.intentUid = row.intentUid ∧ d.version = row.version then
    { d with
      deliveryStatus := .processing
      leaseOwner := some worker.workerId
      leaseUntil := some (now + worker.lease)
      version := d.version + 1
      updatedAt := now }
  else d

/-- `run_once.claim(transaction)`. -/
def claim (now : Instant) : EStateM Exn DeliveryStore (Option Claim) := atomically do
  let s : DeliveryStore ← get
  if s.metadata.isNormal then
    let swept := s.mapDeliveries (expireDelivery s.intents now)
    set swept
    match nextClaim swept now with
    | none => return none
    | some (i, row) =>
      set (swept.mapDeliveries (worker.takeLease now row))
      let updated := swept.deliveries.countP fun d =>
        d.intentUid = row.intentUid ∧ d.version = row.version
      if updated = 1 then
        match (Json.scan i.frozenContextJson.toList).map Json.toDict with
        | none => throw ⟨.valueError, "Expecting value"⟩
        | some context =>
          return some ⟨⟨i.intentUid, i.idempotencyKey, i.channel, context⟩,
            s.metadata.restoreGeneration⟩
      else return none
  else return none

/-- The worker still holds what it claimed. -/
def holds (claimed : Claim) (i : NotificationIntent) (d : NotificationDeliveryState) : Bool :=
  i.restoreGeneration = claimed.generation ∧ d.deliveryStatus = .processing ∧
    d.leaseOwner = some worker.workerId

/-- `_claim_is_current(claimed)`. -/
def claimIsCurrent (claimed : Claim) (s : DeliveryStore) : Bool :=
  s.metadata.isNormal && s.metadata.restoreGeneration = claimed.generation &&
    match s.intent claimed.message.intentUid, s.delivery claimed.message.intentUid with
    | some i, some d => worker.holds claimed i d
    | _, _ => false

/-! ## Sending and finishing -/

/-- What an adapter replies, `none` when it raises. -/
def send (message : DeliveryMessage) (reply : Option DeliveryResult) : DeliveryResult :=
  if message.channel ∈ worker.adapters then
    match reply with
    | some result => result
    | none => ⟨false, true, none, some "ADAPTER_EXCEPTION"⟩
  else ⟨false, false, none, some "ADAPTER_NOT_CONFIGURED"⟩

/-- The status, the outcome of the attempt and the time of the next one. -/
def verdict (attempt : ℕ) (outcome : DeliveryResult) (completedAt : Instant) :
    DeliveryStatus × AttemptOutcome × Option Instant :=
  if outcome.delivered then (.delivered, .delivered, none)
  else if outcome.retryable ∧ attempt < worker.maxAttempts then
    (.retryWait, .retryableFailure, some (completedAt + worker.retry))
  else (.failed, .permanentFailure, none)

/-- `UPDATE … WHERE intent_uid=? AND version=?` : the state after an attempt. -/
def settle (outcome : DeliveryResult) (completedAt : Instant)
    (row d : NotificationDeliveryState) : NotificationDeliveryState :=
  let attempt := row.attemptCount + 1
  if d.intentUid = row.intentUid ∧ d.version = row.version then
    { d with
      deliveryStatus := (worker.verdict attempt outcome completedAt).1
      attemptCount := attempt
      nextAttemptAt := (worker.verdict attempt outcome completedAt).2.2
      leaseOwner := none
      leaseUntil := none
      lastErrorCode := outcome.errorCode
      version := d.version + 1
      updatedAt := completedAt }
  else d

/-- `run_once.finish(transaction)`. -/
def finish (claimed : Claim) (startedAt : Instant) (outcome : DeliveryResult)
    (completedAt : Instant) (attemptUid : Uid) : EStateM Exn DeliveryStore Bool := atomically do
  let s : DeliveryStore ← get
  if s.metadata.isNormal ∧ s.metadata.restoreGeneration = claimed.generation then
    match s.intent claimed.message.intentUid, s.delivery claimed.message.intentUid with
    | some i, some d =>
      if worker.holds claimed i d then
        let attempt := d.attemptCount + 1
        insertInto deliveryAttemptTable integrityError
          { attemptUid
            intentUid := claimed.message.intentUid
            attemptNumber := attempt
            outcome := (worker.verdict attempt outcome completedAt).2.1
            startedAt
            completedAt
            providerReference := outcome.providerReference
            errorCode := outcome.errorCode }
        modify fun s => s.mapDeliveries (worker.settle outcome completedAt d)
        return true
      else return false
    | _, _ => return false
  else return false

end DeliveryWorker

/-! ## Restore generations and settings -/

/-- `advance_restore_generation(…)` : the new generation and the number of deliveries it
cancelled. -/
def advanceRestoreGeneration (auditUid : Uid) (occurredAt : Instant) :
    EStateM Exn Database (ℕ × ℕ) := atomically do
  let db : Database ← get
  let generation := db.metadata.restoreGeneration + 1
  let cancelled := db.analysis.notificationDeliveryState.countP fun d => d.deliveryStatus.unfinished
  set { db with
    analysis := { db.analysis with
      notificationDeliveryState :=
        db.analysis.notificationDeliveryState.map (cancelDelivery occurredAt) }
    metadata := { db.metadata with restoreGeneration := generation } }
  submit (insertInto auditRecordTable integrityError
    ⟨auditUid, "RESTORE_GENERATION_ADVANCED", none, none,
      canonicalHash (.obj [("restore_generation", .int generation), ("cancelled", .int cancelled)]),
      occurredAt⟩)
  return (generation, cancelled)

/-! ## The system -/

/-- Where an execution of `run_once` is. -/
inductive Phase where
  | idle
  | claimed (claim : Claim) (startedAt : Instant)
  | sending (claim : Claim) (startedAt : Instant)
  | sent (claim : Claim) (startedAt : Instant) (outcome : DeliveryResult) (completedAt : Instant)

/-- The claim of an execution under way. -/
def Phase.claim? : Phase → Option Claim
  | .idle => none
  | .claimed c _ | .sending c _ | .sent c _ _ _ => some c

/-- The workers, which have distinct identifiers and a common number of attempts. -/
structure Fleet (ι : Type) (maxAttempts : ℕ) where
  maxAttempts_pos : 0 < maxAttempts
  worker : ι → DeliveryWorker
  distinct : Function.Injective fun k => (worker k).workerId
  common : ∀ k, (worker k).maxAttempts = maxAttempts

/-- The store, and where the execution of each worker is. -/
structure DeliverySystem (ι : Type) where
  store : DeliveryStore
  phase : ι → Phase

/-- The steps of the executions, the commits, the recoveries, the settings, and the other
services. -/
inductive DeliveryEvent (ι : Type) where
  | claim (k : ι) (now : Instant)
  | check (k : ι)
  | send (k : ι) (reply : Option DeliveryResult) (completedAt : Instant)
  | finish (k : ι) (attemptUid : Uid)
  | abandon (k : ι)
  | commit (files : ArtifactFiles) (uids : CommitUids) (request : AnalysisCommitRequest)
  | advanceRestoreGeneration (auditUid : Uid) (occurredAt : Instant)
  | startRecovery (generationAudit recoveryAudit : Uid) (watermarks : ℕ) (startedAt : Instant)
      (manifestSha256 : String)
  | setRecoveryState (value : String)
  | updateNotificationSettings (enabled : Bool)
  | other (database : Database)

/-- What the other services leave as it is. -/
structure OutboxUnrelated (db db' : Database) : Prop where
  intents : db'.analysis.notificationIntent = db.analysis.notificationIntent
  deliveries : db'.analysis.notificationDeliveryState = db.analysis.notificationDeliveryState
  metadata : db'.metadata = db.metadata
  projections : db.analysis.ProjectionsUnique → db'.analysis.ProjectionsUnique

namespace Fleet

variable {ι : Type} [DecidableEq ι] {maxAttempts : ℕ} (fleet : Fleet ι maxAttempts)

/-- A step of the system. A worker takes the steps of `run_once` in their order; one that is
abandoned begins anew. -/
def next : DeliveryEvent ι → DeliverySystem ι → DeliverySystem ι
  | .claim k now, s =>
    match s.phase k with
    | .idle =>
      match ((fleet.worker k).claim now).run s.store with
      | .ok (some c) store => ⟨store, Function.update s.phase k (.claimed c now)⟩
      | r => { s with store := stateAfter r }
    | _ => s
  | .check k, s =>
    match s.phase k with
    | .claimed c startedAt =>
      let phase := if (fleet.worker k).claimIsCurrent c s.store then .sending c startedAt else .idle
      ⟨s.store, Function.update s.phase k phase⟩
    | _ => s
  | .send k reply completedAt, s =>
    match s.phase k with
    | .sending c startedAt =>
      let outcome := (fleet.worker k).send c.message reply
      ⟨s.store, Function.update s.phase k (.sent c startedAt outcome completedAt)⟩
    | _ => s
  | .finish k attemptUid, s =>
    match s.phase k with
    | .sent c startedAt outcome completedAt =>
      let command := (fleet.worker k).finish c startedAt outcome completedAt attemptUid
      ⟨stateAfter (command.run s.store), Function.update s.phase k .idle⟩
    | _ => s
  | .abandon k, s => ⟨s.store, Function.update s.phase k .idle⟩
  | .commit files uids request, s =>
    { s with store := s.store.onDatabase (commit files uids request) }
  | .advanceRestoreGeneration auditUid occurredAt, s =>
    { s with store := s.store.onDatabase (advanceRestoreGeneration auditUid occurredAt) }
  | .startRecovery generationAudit recoveryAudit watermarks startedAt manifestSha256, s =>
    let command :=
      startRecovery generationAudit recoveryAudit watermarks startedAt manifestSha256
    { s with store := s.store.onDatabase command }
  | .setRecoveryState value, s =>
    { s with store := { s.store with database := { s.store.database with
        metadata := { s.store.metadata with recoveryState := some value } } } }
  | .updateNotificationSettings enabled, s =>
    { s with store := { s.store with notificationEnabled := enabled } }
  | .other database, s => { s with store := { s.store with database := database } }

/-- The event that takes a system to another. -/
def step (e : DeliveryEvent ι) (s s' : DeliverySystem ι) : Prop :=
  (∀ db, e = .other db → OutboxUnrelated s.store.database db) ∧ s' = fleet.next e s

end Fleet

end MarketMonitor
