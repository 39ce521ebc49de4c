import MarketMonitor.Persistence.Retention
import Mathlib.Algebra.GroupWithZero.Nat

/-!
# Retention of minute bars

`plan_tdx_bar_retention` counts the old minute bars that no manifest lists, and
`apply_tdx_bar_retention` deletes them batch by batch, each in a transaction of its own. A
statement binds the listed bars one by one, and SQLite allows so many variables in a
statement (`maxVariables`).
-/

namespace MarketMonitor

open Json (Value)
open Transaction

/-! ## The storage -/

/-- The values of `interval_kind`. -/
inductive IntervalKind where
  | minute
  | day
  deriving DecidableEq, Repr

/-- `tdx_bar`, as far as retention reads it. -/
structure TdxBarRow where
  barUid : Uid
  intervalKind : IntervalKind
  sourceTime : Instant
  deriving DecidableEq, Repr

/-- The tables that the retention of bars reads, with the key of the bars. -/
structure BarTables where
  tables : RetentionTables
  tdxBar : List TdxBarRow
  barKey : (tdxBar.map TdxBarRow.barUid).Nodup

abbrev BarCommand (α : Type) := EStateM Exn BarTables α

/-- `SQLITE_LIMIT_VARIABLE_NUMBER` -/
def maxVariables : ℕ := 32766

/-- The bound on the variables of a statement. -/
def bindVariables (count : ℕ) : Except Exn Unit :=
  check (count ≤ maxVariables) ⟨.operationalError, "too many SQL variables"⟩

/-- `_chunks(values, size)` -/
def chunks {α : Type} (size : ℕ) (values : List α) : List (List α) :=
  if values = [] ∨ size = 0 then []
  else values.take size :: chunks size (values.drop size)
termination_by values.length
decreasing_by
  rename_i h
  rw [not_or] at h
  have hpos := List.length_pos_of_ne_nil h.1
  rw [List.length_drop]
  omega

/-! ## Candidates -/

/-- The fields of a manifest that list bars. -/
def manifestBarFields : List String := ["bar_uids", "realtime_current_bar_uids"]

/-- The bars that a field of a manifest lists, if it is there. -/
def readBarField (document : Value) (field : String) : Except Exn (List Uid) :=
  let invalid := retentionError ("an Input Manifest " ++ field ++ " list is invalid")
  match document.get? field with
  | none => .ok []
  | some (.arr items) =>
    match readTexts items with
    | none => .error invalid
    | some uids => do
      check (∀ uid ∈ uids, uid ≠ "" ∧ uid.length ≤ 256) invalid
      return uids
  | some _ => .error invalid

/-- The bars that a manifest lists. -/
def readBarManifest (files : ArtifactFiles) (row : InputManifest) : Except Exn (List Uid) := do
  let malformed := retentionError "an Input Manifest is missing, corrupt, or malformed"
  match openVerified files row.artifactSha256 with
  | .error _ => throw malformed
  | .ok raw =>
    match Json.decode raw with
    | none => throw malformed
    | some document =>
      check (Json.uniqueKeys document)
        (retentionError "an Input Manifest contains duplicate keys")
      match document with
      | .obj _ => List.flatten <$> manifestBarFields.mapM (readBarField document)
      | _ => throw (retentionError "an Input Manifest has an invalid shape")

/-- `_protected_tdx_bar_uids(artifacts, connection)` -/
def protectedTdxBarUids (files : ArtifactFiles) (t : BarTables) : Except Exn (List Uid) := do
  let lists ← t.tables.manifestRows.mapM (readBarManifest files)
  return lists.flatten.dedup.insertionSort (· ≤ ·)

/-- The variables of `_tdx_bar_candidate_query` : the cutoff, the protected bars and the
limit. -/
def candidateVariables (protectedBarUids : List Uid) (limit : Option ℕ) : ℕ :=
  1 + ((chunks 400 protectedBarUids).map List.length).sum + if limit.isSome then 1 else 0

/-- The rows of `_tdx_bar_candidate_query` without a limit. -/
def tdxBarCandidates (cutoff : Instant) (protectedBarUids : List Uid) (t : BarTables) : List Uid :=
  ((t.tdxBar.filter fun b => b.intervalKind = .minute ∧ b.sourceTime < cutoff ∧
    ∀ chunk ∈ chunks 400 protectedBarUids, b.barUid ∉ chunk).map
      TdxBarRow.barUid).insertionSort (· ≤ ·)

/-- `_scan_tdx_bar_candidates(…)` : the number of the candidates and their digest. -/
def scanTdxBarCandidates (cutoff : Instant) (protectedBarUids : List Uid) (t : BarTables) :
    Except Exn (ℕ × String) := do
  bindVariables (candidateVariables protectedBarUids none)
  let uids := tdxBarCandidates cutoff protectedBarUids t
  return (uids.length,
    Sha256.hexdigest (uids.flatMap fun uid => uid.toUTF8.toList ++ [0]))

/-- `_tdx_bar_retention_hash(…)` -/
def tdxBarRetentionHash (cutoff : Instant) (candidateCount : ℕ)
    (candidateDigest manifestCatalogHash : String) : String :=
  canonicalHash (.obj [("candidate_count", .int candidateCount),
    ("candidate_digest", .str candidateDigest), ("cutoff", .str (formatRfc3339 cutoff)),
    ("manifest_catalog_hash", .str manifestCatalogHash)])

/-! ## Plans -/

/-- `TdxBarRetentionPlan` -/
structure TdxBarRetentionPlan where
  candidateCount : ℕ
  candidateHash : String
  cutoff : Instant
  plannedAt : Instant
  manifestCatalogHash : String
  protectedBarUids : List Uid
  deriving DecidableEq, Repr

/-- `_validate_bar_retention_batch_size(batch_size)` -/
def validateBatchSize (batchSize : ℕ) : Except Exn Unit :=
  check (1 ≤ batchSize ∧ batchSize ≤ 5000)
    (valueError "tdx_bar retention batch size is outside the accepted bounds")

/-- `plan_tdx_bar_retention(runtime, artifacts, cutoff, now=…, batch_size=…)` -/
def planTdxBarRetention (files : ArtifactFiles) (t : BarTables) (cutoff now : Instant)
    (batchSize : ℕ) : Except Exn TdxBarRetentionPlan := do
  validateBatchSize batchSize
  check (cutoff < now) (valueError "retention cutoff must precede the current time")
  let protectedBarUids ← protectedTdxBarUids files t
  let (candidateCount, candidateDigest) ← scanTdxBarCandidates cutoff protectedBarUids t
  return {
    candidateCount
    candidateHash := tdxBarRetentionHash cutoff candidateCount candidateDigest
      t.tables.manifestCatalogHash
    cutoff
    plannedAt := now
    manifestCatalogHash := t.tables.manifestCatalogHash
    protectedBarUids }

/-- `_same_tdx_bar_retention_plan(left, right)` -/
def SameTdxBarRetentionPlan (left right : TdxBarRetentionPlan) : Prop :=
  left.candidateCount = right.candidateCount ∧ left.candidateHash = right.candidateHash ∧
    left.cutoff = right.cutoff ∧ left.manifestCatalogHash = right.manifestCatalogHash ∧
    left.protectedBarUids = right.protectedBarUids

instance (left right : TdxBarRetentionPlan) : Decidable (SameTdxBarRetentionPlan left right) :=
  inferInstanceAs (Decidable (_ ∧ _))

/-! ## Batches -/

/-- The tables without some bars. -/
def BarTables.without (t : BarTables) (uids : List Uid) : BarTables where
  tables := t.tables
  tdxBar := t.tdxBar.filter fun b => b.barUid ∉ uids
  barKey := t.barKey.sublist ((List.filter_sublist).map _)

/-- `DELETE FROM tdx_bar WHERE bar_uid IN (…)` : the number of the deleted rows. -/
def deleteChunk (uids : List Uid) : BarCommand ℕ := do
  fromExcept (bindVariables uids.length)
  let t ← get
  set (t.without uids)
  return (t.tdxBar.filter fun b => b.barUid ∈ uids).length

/-- The statements of `_delete_values(connection, "tdx_bar", "bar_uid", values)`. -/
def deleteBars : List (List Uid) → BarCommand ℕ
  | [] => return 0
  | chunk :: rest => do
    let deleted ← deleteChunk chunk
    return deleted + (← deleteBars rest)

/-- The check of the manifests that every transaction begins with. -/
def fenceManifests (plan : TdxBarRetentionPlan) : BarCommand Unit := do
  let t ← get
  require (t.tables.manifestCatalogHash = plan.manifestCatalogHash)
    (retentionError "tdx_bar retention evidence catalog changed")

/-- `delete_batch(transaction)` -/
def deleteBatch (plan : TdxBarRetentionPlan) (batchSize : ℕ) : BarCommand ℕ := do
  fenceManifests plan
  fromExcept (bindVariables (candidateVariables plan.protectedBarUids (some batchSize)))
  let uids := (tdxBarCandidates plan.cutoff plan.protectedBarUids (← get)).take batchSize
  if uids = [] then return 0
  else do
    let removed ← deleteBars (chunks 500 uids)
    require (removed = uids.length)
      (retentionError "tdx_bar delete count did not match the fenced batch")
    return removed

/-- What goes wrong with a transaction that the writer was given. -/
inductive WriterFault where
  /-- It is not made. -/
  | refused (e : Exn)
  /-- It is made, and its result does not arrive. -/
  | lost (e : Exn)

/-- `writer.submit(command).result()`, whose error becomes a `RetentionError`. -/
def submitTransaction {α : Type} (fault : Option WriterFault) (message : String)
    (command : BarCommand α) : BarCommand α := fun t =>
  match fault with
  | some (.refused e) => .error (retentionFailure message e) t
  | some (.lost e) => .error (retentionFailure message e) (stateAfter ((atomically command).run t))
  | none =>
    match (atomically command).run t with
    | .ok a t => .ok a t
    | .error e t => .error (retentionFailure message e) t

section Apply

-- What goes wrong with each transaction, by its number.
variable (faults : ℕ → Option WriterFault)

/-- `while deleted < plan.candidate_count` : the number of the transactions. -/
def deleteBatches (plan : TdxBarRetentionPlan) (batchSize submitted deleted : ℕ) :
    BarCommand (ℕ × ℕ) := fun t =>
  if deleted < plan.candidateCount then
    match (submitTransaction (faults submitted) "tdx_bar retention database apply failed"
      (deleteBatch plan batchSize)).run t with
    | .error e t => .error e t
    | .ok removed t =>
      if removed = 0 then
        .error (retentionError "tdx_bar retention ended before its fenced plan was deleted") t
      else (deleteBatches plan batchSize (submitted + 1) (deleted + removed)).run t
  else .ok (submitted, deleted) t
termination_by plan.candidateCount - deleted

/-- The audit record of a retention of bars. -/
def barAudit (auditUid : Uid) (plan : TdxBarRetentionPlan) (now : Instant) : AuditRecord :=
  ⟨auditUid, "TDX_BAR_RETENTION_APPLIED", none, none, plan.candidateHash, now⟩

/-- `record_audit(transaction)` -/
def recordBarAudit (plan : TdxBarRetentionPlan) (auditUid : Uid) (now : Instant) :
    BarCommand Unit := do
  fenceManifests plan
  let t ← get
  match (insertAudit (barAudit auditUid plan now)).run t.tables with
  | .error e _ => throw e
  | .ok _ tables => set { t with tables }

/-- `TdxBarRetentionResult` -/
structure TdxBarRetentionResult where
  deletedBarCount : ℕ
  auditHash : String
  deriving DecidableEq, Repr

/-- `apply_tdx_bar_retention`, after the plan was found to be the same. -/
def applyFenced (plan : TdxBarRetentionPlan) (auditUid : Uid) (now : Instant) (batchSize : ℕ) :
    BarCommand TdxBarRetentionResult :=
  if plan.candidateCount = 0 then return ⟨0, plan.candidateHash⟩
  else do
    let (submitted, deleted) ← deleteBatches faults plan batchSize 0 0
    require (deleted = plan.candidateCount)
      (retentionError "tdx_bar retention delete count did not match the fenced plan")
    fenceManifests plan
    let (remaining, _) ← fromExcept
      (scanTdxBarCandidates plan.cutoff plan.protectedBarUids (← get))
    require (remaining = 0)
      (retentionError "tdx_bar retention found new candidates during apply")
    submitTransaction (faults submitted) "tdx_bar retention audit write failed"
      (recordBarAudit plan auditUid now)
    return ⟨deleted, plan.candidateHash⟩

/-- `apply_tdx_bar_retention(runtime, writer, artifacts, plan, now=…, batch_size=…)` -/
def applyTdxBarRetention (files : ArtifactFiles) (plan : TdxBarRetentionPlan) (auditUid : Uid)
    (now : Instant) (batchSize : ℕ) : BarCommand TdxBarRetentionResult := do
  fromExcept (validateBatchSize batchSize)
  let refreshed ← fromExcept (planTdxBarRetention files (← get) plan.cutoff now batchSize)
  require (SameTdxBarRetentionPlan plan refreshed)
    (retentionError "tdx_bar retention candidates changed; create a new plan")
  applyFenced faults plan auditUid now batchSize

end Apply

end MarketMonitor
