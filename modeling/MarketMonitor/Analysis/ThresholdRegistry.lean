import MarketMonitor.Analysis.ActivationEvidence
import MarketMonitor.Analysis.AnalysisCommit

/-!
# The threshold registry as a service

Versions, validations, activation evidence and activations of pairs : append-only tables
that four commands write, each in one transaction. The triggers of `threshold_activation`
are checks of its insertion.
-/

namespace MarketMonitor

open Json (Value)
open Transaction

/-! ## Keys of the tables -/

def thresholdVersionTable : Table ThresholdTables ThresholdVersion where
  rows := ThresholdTables.thresholdVersion
  put rows t := { t with thresholdVersion := rows }
  clash a b := a.thresholdVersionUid = b.thresholdVersionUid ∨
    a.definitionHash = b.definitionHash ∨ (a.family = b.family ∧ a.version = b.version)
  rows_put _ _ := rfl
  put_rows _ := rfl
  put_put _ _ _ := rfl

def thresholdEntryTable : Table ThresholdTables ThresholdEntry where
  rows := ThresholdTables.thresholdEntry
  put rows t := { t with thresholdEntry := rows }
  clash a b := a.thresholdVersionUid = b.thresholdVersionUid ∧ a.metricCode = b.metricCode
  rows_put _ _ := rfl
  put_rows _ := rfl
  put_put _ _ _ := rfl

def thresholdValidationTable : Table ThresholdTables ThresholdValidation where
  rows := ThresholdTables.thresholdValidation
  put rows t := { t with thresholdValidation := rows }
  clash a b := a.validationOrder = b.validationOrder ∨ a.validationUid = b.validationUid ∨
    (a.thresholdVersionUid = b.thresholdVersionUid ∧ a.validationKind = b.validationKind ∧
      a.reportSha256 = b.reportSha256)
  rows_put _ _ := rfl
  put_rows _ := rfl
  put_put _ _ _ := rfl

def thresholdActivationTable : Table ThresholdTables ThresholdActivation where
  rows := ThresholdTables.thresholdActivation
  put rows t := { t with thresholdActivation := rows }
  clash a b := a.activationOrder = b.activationOrder ∨ a.activationUid = b.activationUid ∨
    (a.family = b.family ∧ a.effectiveAt = b.effectiveAt) ∨
    (a.family = b.family ∧ a.idempotencyKey = b.idempotencyKey)
  rows_put _ _ := rfl
  put_rows _ := rfl
  put_put _ _ _ := rfl

def thresholdActivationEvidenceTable : Table ThresholdTables ThresholdActivationEvidence where
  rows := ThresholdTables.thresholdActivationEvidence
  put rows t := { t with thresholdActivationEvidence := rows }
  clash a b := a.acceptanceEvidenceUid = b.acceptanceEvidenceUid ∨
    a.evidenceSha256 = b.evidenceSha256
  rows_put _ _ := rfl
  put_rows _ := rfl
  put_put _ _ _ := rfl

/-- A command on the registry. -/
abbrev ThresholdCommand (α : Type) := EStateM Exn ThresholdTables α

/-! ## Arguments -/

/-- `_family(value)`. -/
def familyOf (value : String) : Except Exn ThresholdFamily :=
  match [ThresholdFamily.guardian, .scout].find? fun family => family.text = value with
  | some family => .ok family
  | none => .error (valueError "threshold family must be GUARDIAN or SCOUT")

/-- The approval status with a text. -/
def approvalStatusOf (value : String) : Except Exn ApprovalStatus :=
  match [ApprovalStatus.legacyUncalibrated, .ownerApprovedPendingValidation,
      .ownerApproved].find? fun status => status.text = value with
  | some status => .ok status
  | none => .error (valueError "invalid threshold approval status")

/-- The validation kind with a text. -/
def validationKindOf (value : String) : Except Exn ValidationKind :=
  match [ValidationKind.replay, .shadow].find? fun kind => kind.text = value with
  | some kind => .ok kind
  | none => .error (valueError "unknown threshold validation kind")

/-- Whether a validation status is a pass. -/
def validationPassed (value : String) : Except Exn Bool :=
  if value = "PASS" then .ok true
  else if value = "FAIL" then .ok false
  else .error (valueError "unknown threshold validation status")

/-- The version of a family with a name. -/
def ThresholdTables.versionNamed? (tables : ThresholdTables) (family : ThresholdFamily)
    (version : String) : Option ThresholdVersion :=
  tables.thresholdVersion.find? fun v => v.family = family ∧ v.version = version

theorem isSome_lookup {entries : Metrics} {code : String} :
    (entries.lookup code).isSome ↔ code ∈ entries.map Prod.fst := by
  induction entries with
  | nil => simp
  | cons p entries ih =>
    rw [List.lookup_cons, List.map_cons, List.mem_cons]
    by_cases h : code = p.1
    · simp [h]
    · have hne : (code == p.1) = false := by simpa using h
      simp only [hne, ih, h, false_or]

/-- Sorting keeps the codes. -/
theorem CompleteFor.sorted {family : ThresholdFamily} {entries : Metrics}
    (h : CompleteFor family entries) : CompleteFor family entries.sorted := by
  intro code hcode
  have hperm : (entries.sorted.map Prod.fst).Perm (entries.map Prod.fst) :=
    (List.perm_insertionSort _ entries).map Prod.fst
  rw [isSome_lookup, hperm.mem_iff, ← isSome_lookup]
  exact h code hcode

/-! ## Versions -/

/-- The arguments of `register_version`. -/
structure VersionRequest where
  family : String
  version : String
  approvalStatus : String
  ownerApprovalReference : String
  entries : Metrics
  createdAt : Instant

/-- The transaction of `register_version`. -/
def registerVersionCommand (request : VersionRequest) (family : ThresholdFamily)
    (approvalStatus : ApprovalStatus) (entries : {entries // CompleteFor family entries})
    (uid : Uid) : ThresholdCommand ThresholdSet := do
  let tables ← get
  let hash := definitionHash family request.version entries
  match tables.versionNamed? family request.version with
  | some existing =>
    require (existing.approvalStatus = approvalStatus ∧
      existing.ownerApprovalReference = request.ownerApprovalReference ∧
      existing.definitionHash = hash)
      (valueError "threshold version already exists with different immutable content")
    fromExcept (setFromRow tables existing family request.version (some request.createdAt))
  | none =>
    insertInto thresholdVersionTable integrityError
      ⟨uid, family, request.version, approvalStatus, request.ownerApprovalReference, hash⟩
    forM (Metrics.sorted entries.1) fun p =>
      insertInto thresholdEntryTable integrityError ⟨uid, p.1, p.2⟩
    return ⟨uid, family, request.version, hash, Metrics.sorted entries.1,
      some request.createdAt, request.ownerApprovalReference, entries.2.sorted⟩

/-- `ThresholdRegistry.register_version(…)`. -/
def registerVersion (request : VersionRequest) (uid : Uid) : ThresholdCommand ThresholdSet := do
  let family ← fromExcept (familyOf request.family)
  let entries ← fromExcept ((validatedEntries family request.entries).mapError valueError)
  let approvalStatus ← fromExcept (approvalStatusOf request.approvalStatus)
  require (¬blank request.version ∧ ¬blank request.ownerApprovalReference)
    (valueError "threshold version and owner approval reference are required")
  atomically (registerVersionCommand request family approvalStatus entries uid)

/-! ## Validations -/

/-- The arguments of `record_validation`. -/
structure ValidationRequest where
  family : String
  version : String
  validationKind : String
  validationStatus : String
  reportReference : String
  reportSha256 : String
  observedAt : Instant

/-- The transaction of `record_validation`. -/
def recordValidationCommand (artifacts : ArtifactTables) (request : ValidationRequest)
    (family : ThresholdFamily) (kind : ValidationKind) (passed : Bool) (uid : Uid) :
    ThresholdCommand Uid := do
  let tables ← get
  match tables.versionNamed? family request.version with
  | none => throw (thresholdUnavailable
      ("unknown " ++ family.text ++ " threshold version " ++ request.version))
  | some version =>
    require (∃ a ∈ artifacts.artifactObject, a.sha256 = request.reportSha256)
      (valueError "threshold validation report artifact is not registered")
    match tables.thresholdValidation.find? fun v =>
        v.thresholdVersionUid = version.thresholdVersionUid ∧ v.validationKind = kind ∧
          v.reportSha256 = request.reportSha256 with
    | some existing =>
      require (existing.passed = passed ∧ existing.reportReference = request.reportReference ∧
        existing.observedAt = request.observedAt)
        (valueError "validation artifact already has immutable different content")
      return existing.validationUid
    | none =>
      insertInto thresholdValidationTable integrityError
        ⟨nextOrder (tables.thresholdValidation.map ThresholdValidation.validationOrder), uid,
          version.thresholdVersionUid, kind, passed, request.reportReference,
          request.reportSha256, request.observedAt⟩
      return uid

/-- `ThresholdRegistry.record_validation(…)`. -/
def recordValidation (artifacts : ArtifactTables) (request : ValidationRequest) (uid : Uid) :
    ThresholdCommand Uid := do
  let family ← fromExcept (familyOf request.family)
  let kind ← fromExcept (validationKindOf request.validationKind)
  let passed ← fromExcept (validationPassed request.validationStatus)
  require (¬blank request.reportReference ∧ request.reportSha256.toList.length = 64)
    (valueError "validation report reference and SHA-256 are required")
  atomically (recordValidationCommand artifacts request family kind passed uid)

/-! ## Activation evidence -/

def demoOwnerApprovalReference : String := "M9 demo-only fixture; never production"

/-- `_evidence_threshold_uid(connection, family, reference, demo_only=…)`. -/
def evidenceThresholdUid (tables : ThresholdTables) (family : ThresholdFamily)
    (reference : ThresholdEvidenceReference) (scope : EvidenceScope) : Except Exn Uid :=
  match tables.version? reference.uid with
  | none => .error (thresholdActivation "activation evidence threshold lineage mismatch")
  | some row =>
    if row.family ≠ family ∨ row.version ≠ reference.version ∨
        row.definitionHash ≠ reference.definitionHash ∨
        (scope = .demo ↔ row.ownerApprovalReference ≠ demoOwnerApprovalReference) then
      .error (thresholdActivation "activation evidence threshold lineage mismatch")
    else .ok row.thresholdVersionUid

/-- The transaction of `record_activation_evidence`. -/
def recordActivationEvidenceCommand (artifacts : ArtifactTables) (evidence : ActivationEvidence)
    (uid : Uid) : ThresholdCommand Uid := do
  let tables ← get
  let guardianUid ← fromExcept
    (evidenceThresholdUid tables .guardian evidence.guardian evidence.scope)
  let scoutUid ← fromExcept (evidenceThresholdUid tables .scout evidence.scout evidence.scope)
  match tables.thresholdActivationEvidence.find? fun e =>
      e.evidenceSha256 = evidence.evidenceSha256 with
  | some existing =>
    require (existing.guardianThresholdVersionUid = guardianUid ∧
      existing.scoutThresholdVersionUid = scoutUid ∧
      existing.replayEvidenceSha256 = evidence.replayEvidenceSha256 ∧
      existing.evidenceScope = evidence.scope ∧ existing.observedAt = evidence.observedAt)
      (thresholdActivation "activation evidence already exists differently")
    return existing.acceptanceEvidenceUid
  | none =>
    -- The foreign keys of both hashes ; a database error is raised as an activation error.
    require ((∃ a ∈ artifacts.artifactObject, a.sha256 = evidence.evidenceSha256) ∧
      ∃ a ∈ artifacts.artifactObject, a.sha256 = evidence.replayEvidenceSha256)
      (thresholdActivation "FOREIGN KEY constraint failed")
    insertInto thresholdActivationEvidenceTable (thresholdActivation "UNIQUE constraint failed")
      ⟨uid, evidence.evidenceSha256, evidence.replayEvidenceSha256, guardianUid, scoutUid,
        evidence.scope, evidence.observedAt⟩
    return uid

/-- `ThresholdRegistry.record_activation_evidence(evidence_sha256, _scope=…)`. -/
def recordActivationEvidence (artifacts : ArtifactTables) (files : ArtifactFiles)
    (evidenceSha256 : String) (scope : EvidenceScope) (uid : Uid) : ThresholdCommand Uid := do
  require (Sha256.IsDigest evidenceSha256)
    (thresholdActivation "activation evidence SHA-256 is required")
  let evidence ← fromExcept (readActivationEvidence files evidenceSha256 scope)
  atomically (recordActivationEvidenceCommand artifacts evidence uid)

/-! ## Activations -/

/-- The arguments of `activate_pair`. -/
structure ActivationRequest where
  guardianVersion : String
  scoutVersion : String
  effectiveAt : Instant
  acceptanceId : String
  acceptanceEvidenceSha256 : String
  activationScope : EvidenceScope

/-- The version of a family a request activates. -/
def ActivationRequest.version (request : ActivationRequest) : ThresholdFamily → String
  | .guardian => request.guardianVersion
  | .scout => request.scoutVersion

/-- `_activation_by_key(transaction, family, acceptance_id)`. -/
def activationByKey (tables : ThresholdTables) (family : ThresholdFamily)
    (acceptanceId : String) : Option (ThresholdActivation × ThresholdVersion) :=
  tables.thresholdActivation.findSome? fun a =>
    if a.family = family ∧ a.idempotencyKey = acceptanceId then
      (tables.version? a.thresholdVersionUid).map fun v => (a, v)
    else none

/-- The registered evidence of a request, with the versions it is about. -/
def activationEvidenceRow (tables : ThresholdTables) (request : ActivationRequest) :
    Option (ThresholdActivationEvidence × ThresholdVersion × ThresholdVersion) :=
  tables.thresholdActivationEvidence.findSome? fun e =>
    if e.evidenceSha256 = request.acceptanceEvidenceSha256 ∧
        e.evidenceScope = request.activationScope then do
      let guardian ← tables.version? e.guardianThresholdVersionUid
      let scout ← tables.version? e.scoutThresholdVersionUid
      return (e, guardian, scout)
    else none

/-- `_activation_evidence_for_pair(…)`. -/
def activationEvidenceForPair (tables : ThresholdTables) (request : ActivationRequest) :
    Except Exn ThresholdActivationEvidence :=
  match activationEvidenceRow tables request with
  | none =>
    .error (thresholdActivation "typed production activation evidence is not registered")
  | some (e, guardian, scout) =>
    if guardian.version ≠ request.guardianVersion ∨ scout.version ≠ request.scoutVersion ∨
        request.effectiveAt < e.observedAt then
      .error (thresholdActivation "typed activation evidence does not match this activation")
    else .ok e

/-- `_version_for_activation(transaction, family, version, instant, acceptance_id)`. -/
def versionForActivation (tables : ThresholdTables) (request : ActivationRequest)
    (family : ThresholdFamily) : Except Exn ThresholdVersion :=
  if tables.thresholdActivation.any fun a =>
      a.family = family ∧ a.effectiveAt = request.effectiveAt then
    .error (thresholdActivation "threshold activation effective time is already occupied")
  else
    match tables.versionNamed? family (request.version family) with
    | none => .error (thresholdActivation
        ("unknown " ++ family.text ++ " threshold version " ++ request.version family))
    | some row =>
      if row.approvalStatus = .legacyUncalibrated then
        .error (thresholdActivation "threshold version is not Owner approved for OFFICIAL use")
      else if ¬latestValidationsPass tables row.thresholdVersionUid request.effectiveAt then
        .error (thresholdActivation
          "threshold version has not passed replay and shadow validation")
      else .ok row

/-- The conditions under which the triggers of `threshold_activation` abort an insertion,
each with its message. -/
def activationTriggers (tables : ThresholdTables) (row : ThresholdActivation) :
    List (Bool × String) :=
  [((tables.version? row.thresholdVersionUid).any fun v => v.family ≠ row.family,
      "threshold activation family mismatch"),
    (¬((tables.version? row.thresholdVersionUid).any fun v =>
          v.approvalStatus ≠ .legacyUncalibrated) ∨
        ¬latestValidationsPass tables row.thresholdVersionUid row.effectiveAt,
      "threshold activation requires validated approval"),
    (tables.thresholdActivation.any fun a =>
        a.family = row.family ∧ row.effectiveAt ≤ a.effectiveAt,
      "threshold activation effective time must strictly advance"),
    (¬tables.thresholdActivationEvidence.any fun e =>
        e.acceptanceEvidenceUid = row.acceptanceEvidenceUid ∧ e.observedAt ≤ row.effectiveAt ∧
          row.thresholdVersionUid = match row.family with
            | .guardian => e.guardianThresholdVersionUid
            | .scout => e.scoutThresholdVersionUid,
      "threshold activation requires typed production evidence")]

/-- Insert an activation of a version ; a database error is raised as an activation error. -/
def insertActivation (request : ActivationRequest) (version : ThresholdVersion)
    (evidenceUid uid : Uid) : ThresholdCommand Unit := do
  let tables ← get
  let row : ThresholdActivation :=
    ⟨nextOrder (tables.thresholdActivation.map ThresholdActivation.activationOrder), uid,
      version.family, version.thresholdVersionUid, request.effectiveAt, request.acceptanceId,
      version.ownerApprovalReference, evidenceUid⟩
  forM (activationTriggers tables row) fun trigger =>
    require (¬trigger.1) (thresholdActivation trigger.2)
  insertInto thresholdActivationTable (thresholdActivation "UNIQUE constraint failed") row

/-- The transaction of `activate_pair`. -/
def activatePairCommand (request : ActivationRequest) (uids : Uid × Uid) :
    ThresholdCommand (Uid × Uid) := do
  let tables ← get
  let evidence ← fromExcept (activationEvidenceForPair tables request)
  match activationByKey tables .guardian request.acceptanceId,
      activationByKey tables .scout request.acceptanceId with
  | some (guardian, guardianVersion), some (scout, scoutVersion) =>
    require ((guardianVersion.version = request.guardianVersion ∧
        scoutVersion.version = request.scoutVersion) ∧
      (guardian.effectiveAt = request.effectiveAt ∧ scout.effectiveAt = request.effectiveAt) ∧
      guardian.acceptanceEvidenceUid = evidence.acceptanceEvidenceUid ∧
      scout.acceptanceEvidenceUid = evidence.acceptanceEvidenceUid)
      (thresholdActivation "threshold activation key was already used differently")
    return (guardian.activationUid, scout.activationUid)
  | none, none =>
    let guardian ← fromExcept (versionForActivation tables request .guardian)
    let scout ← fromExcept (versionForActivation tables request .scout)
    insertActivation request guardian evidence.acceptanceEvidenceUid uids.1
    insertActivation request scout evidence.acceptanceEvidenceUid uids.2
    return uids
  | _, _ => throw (thresholdActivation "threshold activation pair is incomplete")

/-- `ThresholdRegistry.activate_pair(…)`. -/
def activatePair (request : ActivationRequest) (uids : Uid × Uid) :
    ThresholdCommand (Uid × Uid) := do
  require (¬blank request.acceptanceId)
    (valueError "threshold activation acceptance ID is required")
  require (Sha256.IsDigest request.acceptanceEvidenceSha256)
    (thresholdActivation "activation evidence SHA-256 is required")
  atomically (activatePairCommand request uids)

/-! ## The migration -/

/-- `_seed(uid, family, version, approval_status, approval_reference, …)` : a version with
its entries, added to the tables. -/
def seed (version : ThresholdVersion) (entries : Metrics) (tables : ThresholdTables) :
    ThresholdTables :=
  { tables with
    thresholdVersion := tables.thresholdVersion ++ [version]
    thresholdEntry := tables.thresholdEntry ++
      entries.sorted.map fun p => ⟨version.thresholdVersionUid, p.1, p.2⟩ }

def calibrationReference : String :=
  "docs/decisions/CR-005_GUARDIAN_SCOUT_PRODUCTION_THRESHOLD_CALIBRATION.md"

/-- The registry the migration leaves : the legacy and the production versions of both
families, none of them activated. -/
def seedTables : ThresholdTables :=
  seed ⟨"69e8d0c4-90ca-47c1-a40a-000000000004", .scout, "scout-thresholds-v1.0-prod",
      .ownerApprovedPendingValidation, calibrationReference,
      "cca5873ea533bd7bce4b2be4870f46843955b2001a29a79d7ae4d849a4488ceb"⟩
    [("EARLY_ACTIVITY_PPM", 650000), ("HEALTHY_BREADTH_PPM", 650000),
      ("RELATIVE_STRENGTH_PPM", 650000), ("TURNOVER_CONFIRMATION_PPM", 600000),
      ("ETF_CONFIRMATION_PPM", 550000), ("STYLE_SUPPORT_PPM", 550000),
      ("LOW_CROWDING_PPM", 650000), ("CONTINUITY_STRENGTHENING_PPM", 650000)] <|
  seed ⟨"69e8d0c4-90ca-47c1-a40a-000000000003", .guardian, "guardian-thresholds-v1.0-prod",
      .ownerApprovedPendingValidation, calibrationReference,
      "52756668ee2766d1bee0db03903033801b9000d5b4dcdedaecf7782005fb5b0b"⟩
    [("RISE_RATE_PPM", 600000), ("HEAD_CONCENTRATION_PPM", 600000),
      ("INTERNAL_DIVERGENCE_PPM", 550000), ("CROWDING_PPM", 600000),
      ("LIQUIDITY_WEAKENING_PPM", 550000), ("CORE_WEAKENING_PPM", 550000),
      ("BREADTH_COLLAPSE_PPM", 550000), ("STAMPEDE_RISK_PPM", 600000),
      ("T1_CHASING_RISK_PPM", 600000), ("EARLY_SIGNAL_FAILURE_PPM", 550000)] <|
  seed ⟨"69e8d0c4-90ca-47c1-a40a-000000000002", .scout, "scout-v1", .legacyUncalibrated,
      "legacy scout-v1 retained for explicit replay only",
      "3f214767a58294f15bfca339e2e7f11941ee5a43e694a686c5bb8838d73b54f7"⟩
    [("EARLY_ACTIVITY_PPM", 600000), ("HEALTHY_BREADTH_PPM", 600000),
      ("RELATIVE_STRENGTH_PPM", 600000), ("TURNOVER_CONFIRMATION_PPM", 600000),
      ("ETF_CONFIRMATION_PPM", 600000), ("STYLE_SUPPORT_PPM", 600000),
      ("LOW_CROWDING_PPM", 600000), ("CONTINUITY_STRENGTHENING_PPM", 600000)] <|
  seed ⟨"69e8d0c4-90ca-47c1-a40a-000000000001", .guardian, "guardian-v1", .legacyUncalibrated,
      "legacy guardian-v1 retained for explicit replay only",
      "44dc1f8f9eb3778e8d2ffc703f5e60ec0db8636c353b77f9eb647cc3466bb860"⟩
    [("RISE_RATE_PPM", 700000), ("HEAD_CONCENTRATION_PPM", 650000),
      ("INTERNAL_DIVERGENCE_PPM", 600000), ("CROWDING_PPM", 700000),
      ("LIQUIDITY_WEAKENING_PPM", 500000), ("CORE_WEAKENING_PPM", 600000),
      ("BREADTH_COLLAPSE_PPM", 600000), ("STAMPEDE_RISK_PPM", 700000),
      ("T1_CHASING_RISK_PPM", 600000), ("EARLY_SIGNAL_FAILURE_PPM", 500000)]
    ⟨[], [], [], [], []⟩

/-- The hashes the migration writes are those of its definitions. -/
example : ∀ v ∈ seedTables.thresholdVersion, v.definitionHash =
    definitionHash v.family v.version (seedTables.entriesOf v.thresholdVersionUid) := by
  decide +kernel

end MarketMonitor
