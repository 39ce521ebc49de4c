import MarketMonitor.Analysis.MetricEvidence

/-!
# Activation evidence

The typed documents an activation of thresholds rests on : the production evidence of a
live shadow run with its replay, and the evidence of a demo. A document is read from the
artifact store, checked field by field, and reduced to the two threshold versions it is
about and the time it was observed.
-/

namespace MarketMonitor

open Json (Value)
open Transaction

def thresholdActivation (message : String) : Exn := ⟨.thresholdActivationError, message⟩

/-- `_ThresholdEvidenceReference` -/
structure ThresholdEvidenceReference where
  uid : Uid
  version : String
  definitionHash : String
  deriving DecidableEq

/-- `_ProductionActivationEvidence` -/
structure ActivationEvidence where
  evidenceSha256 : String
  replayEvidenceSha256 : String
  guardian : ThresholdEvidenceReference
  scout : ThresholdEvidenceReference
  scope : EvidenceScope
  observedAt : Instant
  deriving DecidableEq

/-! ## Typed fields -/

/-- `_activation_mapping(value, name)`. -/
def activationMapping (value : Option Value) (name : String) : Except Exn Value :=
  match value with
  | some (.obj fields) => .ok (.obj fields)
  | _ => .error (thresholdActivation (name ++ " must be an object"))

/-- `_activation_text(value, name)`. -/
def activationText (value : Option Value) (name : String) : Except Exn String :=
  match value with
  | some (.str text) =>
    if blank text then .error (thresholdActivation (name ++ " is required")) else .ok text
  | _ => .error (thresholdActivation (name ++ " is required"))

/-- `_activation_sha256(value, name)`. -/
def activationSha256 (value : Option Value) (name : String) : Except Exn String :=
  match value with
  | some (.str text) =>
    if Sha256.IsDigest text then .ok text
    else .error (thresholdActivation (name ++ " must be a SHA-256"))
  | _ => .error (thresholdActivation (name ++ " must be a SHA-256"))

/-- `_activation_threshold_reference(value, name)`. -/
def activationThresholdReference (value : Option Value) (name : String) :
    Except Exn ThresholdEvidenceReference := do
  let document ← activationMapping value (name ++ " threshold")
  let uid ← activationText (document.get? "uid") (name ++ " threshold UID")
  let version ← activationText (document.get? "version") (name ++ " threshold version")
  let hash ← activationSha256 (document.get? "definition_hash")
    (name ++ " threshold definition hash")
  return ⟨uid, version, hash⟩

/-- The canonical time of a document, or `message`. -/
def activationInstant (text : String) (message : String) : Except Exn Instant :=
  match canonicalInstant? text with
  | some t => .ok t
  | none => .error (thresholdActivation message)

/-- The JSON document of an artifact, or `message`. -/
def readDocument (files : ArtifactFiles) (digest : String) (message : String) :
    Except Exn Value :=
  match openVerified files digest with
  | .error _ => .error (thresholdActivation message)
  | .ok content =>
    match Json.loads content with
    | none => .error (thresholdActivation message)
    | some document => .ok document

theorem readDocument_eq_ok {files : ArtifactFiles} {digest : String} {content : List UInt8}
    {document : Value} (hopen : openVerified files digest = .ok content)
    (hloads : Json.loads content = some document) (message : String) :
    readDocument files digest message = .ok document := by
  simp only [readDocument, hopen, hloads]

/-! ## Production evidence -/

def continuousPhases : List String := ["CONTINUOUS_AM", "CONTINUOUS_PM"]

def activationQualities : List String := ["FIT", "FIT_WITH_LIMITATIONS", "UNFIT"]

/-- What is kept of an observation : its identity, its lineage and its quality. -/
structure ActivationObservation where
  observationUid : String
  lineage : List String
  quality : String

/-- One observation of the evidence. -/
def readObservation (producerVersion : String) (raw : Value × ℕ) :
    Except Exn ActivationObservation := do
  let observation ← activationMapping (some raw.1) ("observation " ++ toString raw.2)
  let observationUid ← activationText (observation.get? "observation_uid") "observation UID"
  let snapshotUid ← activationText (observation.get? "snapshot_uid") "snapshot UID"
  let snapshotHash ← activationSha256 (observation.get? "snapshot_hash") "snapshot hash"
  let manifestHash ← activationSha256 (observation.get? "input_manifest_hash")
    "input manifest hash"
  let _ ← activationSha256 (observation.get? "metric_evidence_sha256") "metric evidence hash"
  check (observation.get? "producer_version" = some (.str producerVersion))
    (thresholdActivation "observation producer version mismatch")
  check (continuousPhases.any fun phase => observation.get? "market_phase" = some (.str phase))
    (thresholdActivation "activation evidence requires continuous-session observations")
  match activationQualities.find? fun quality =>
      observation.get? "quality_status" = some (.str quality) with
  | none => throw (thresholdActivation "invalid activation observation quality")
  | some quality => return ⟨observationUid, [snapshotUid, snapshotHash, manifestHash], quality⟩

/-- How many observations have each quality. -/
def qualityCounts (observations : List ActivationObservation) : Value :=
  .obj (activationQualities.map fun quality =>
    (quality, .int (observations.countP fun o => o.quality = quality)))

/-- `_activation_sanity(value)`. -/
def activationSanity (value : Option Value) : Except Exn Unit := do
  let result ← activationMapping value "CR-005 sanity result"
  check (result.get? "passed" = some (.bool true) ∧ result.get? "failure_codes" = some (.arr []))
    (thresholdActivation "CR-005 sanity result must pass without failures")

/-- `_activation_side_effect_audit(value)`. -/
def activationSideEffectAudit (value : Option Value) : Except Exn Unit := do
  let result ← activationMapping value "side-effect audit"
  check (result.get? "passed" = some (.bool true) ∧
      result.get? "official_business_side_effect_delta" = some (.int 0))
    (thresholdActivation "activation evidence requires zero official side effects")

/-- `_activation_replay_result(artifacts, value, guardian, scout)` : the hash of the replay. -/
def activationReplayResult (files : ArtifactFiles) (value : Option Value)
    (guardian scout : ThresholdEvidenceReference) : Except Exn String := do
  let result ← activationMapping value "replay result"
  check (result.get? "passed" = some (.bool true))
    (thresholdActivation "activation evidence requires a passing replay result")
  let replaySha256 ← activationSha256 (result.get? "evidence_sha256") "replay evidence hash"
  let document ← readDocument files replaySha256 "cannot verify replay calibration evidence"
  let replay ← activationMapping (some document) "replay calibration evidence"
  let ineligible := thresholdActivation "replay calibration evidence is not production eligible"
  check (replay.get? "schema_version" = some (.int 2) ∧
    replay.get? "evidence_kind" = some (.str "CR005_CALIBRATION") ∧
    replay.get? "validation_kind" = some (.str "REPLAY") ∧
    replay.get? "passed" = some (.bool true) ∧
    replay.get? "failure_codes" = some (.arr [])) ineligible
  let replayGuardian ← activationThresholdReference (replay.get? "guardian_threshold")
    "replay guardian"
  check (replayGuardian = guardian) ineligible
  let replayScout ← activationThresholdReference (replay.get? "scout_threshold") "replay scout"
  check (replayScout = scout) ineligible
  return replaySha256

/-- `_parse_production_activation_evidence(artifacts, evidence_sha256, value)`. -/
def parseProductionActivationEvidence (files : ArtifactFiles) (evidenceSha256 : String)
    (value : Value) : Except Exn ActivationEvidence := do
  let document ← activationMapping (some value) "activation evidence"
  check (document.get? "schema_version" = some (.int 1))
    (thresholdActivation "unsupported activation evidence schema")
  check (document.get? "evidence_kind" = some (.str "CR005_PRODUCTION_ACTIVATION"))
    (thresholdActivation "invalid activation evidence kind")
  check (document.get? "evidence_origin" = some (.str "LIVE_SHADOW"))
    (thresholdActivation "fixture evidence cannot activate production thresholds")
  check (document.get? "validation_kind" = some (.str "SHADOW"))
    (thresholdActivation "production activation evidence requires Shadow validation")
  let text ← activationText (document.get? "observed_at") "observed_at"
  let observedAt ← activationInstant text
    "activation evidence observed_at must be canonical RFC3339"
  let guardian ← activationThresholdReference (document.get? "guardian_threshold") "guardian"
  let scout ← activationThresholdReference (document.get? "scout_threshold") "scout"
  let producerVersion ← activationText (document.get? "metric_producer_version")
    "metric producer version"
  let items ← match document.get? "observations" with
    | some (.arr items) =>
      if items.length < 20 then
        throw (thresholdActivation "activation evidence requires at least 20 observations")
      else pure items
    | _ => throw (thresholdActivation "activation evidence requires at least 20 observations")
  let observations ← items.zipIdx.mapM (readObservation producerVersion)
  let uids := observations.map ActivationObservation.observationUid
  check uids.Nodup (thresholdActivation "activation observations must be distinct")
  check (document.get? "observation_identity_hash" =
      some (.str (canonicalHash (.arr (uids.map Value.str)))))
    (thresholdActivation "activation observation identity lineage mismatch")
  check (document.get? "snapshot_input_lineage_hash" =
      some (.str (canonicalHash (.arr (observations.map fun o => .arr (o.lineage.map Value.str))))))
    (thresholdActivation "activation snapshot/input lineage mismatch")
  let distribution ← activationMapping (document.get? "quality_distribution")
    "quality distribution"
  check (Json.sortKeys distribution = Json.sortKeys (qualityCounts observations))
    (thresholdActivation "activation quality distribution mismatch")
  activationSanity (document.get? "sanity_result")
  activationSideEffectAudit (document.get? "side_effect_audit")
  let replaySha256 ← activationReplayResult files (document.get? "replay_result") guardian scout
  return ⟨evidenceSha256, replaySha256, guardian, scout, .production, observedAt⟩

/-- `_read_production_activation_evidence(artifacts, evidence_sha256)`. -/
def readProductionActivationEvidence (files : ArtifactFiles) (evidenceSha256 : String) :
    Except Exn ActivationEvidence := do
  let document ← readDocument files evidenceSha256 "cannot read typed activation evidence artifact"
  parseProductionActivationEvidence files evidenceSha256 document

/-! ## Demo evidence -/

/-- `_read_demo_activation_evidence(artifacts, evidence_sha256)`. -/
def readDemoActivationEvidence (files : ArtifactFiles) (evidenceSha256 : String) :
    Except Exn ActivationEvidence := do
  let value ← readDocument files evidenceSha256 "cannot read demo activation evidence artifact"
  let document ← activationMapping (some value) "demo activation evidence"
  check (document.get? "schema_version" = some (.int 1) ∧
    document.get? "evidence_kind" = some (.str "M9_DEMO_ACTIVATION") ∧
    document.get? "evidence_origin" = some (.str "DEMO_FIXTURE") ∧
    document.get? "validation_kind" = some (.str "DEMO"))
    (thresholdActivation "invalid demo activation evidence")
  let text ← activationText (document.get? "observed_at") "demo observed_at"
  let observedAt ← activationInstant text "demo evidence observed_at must be canonical RFC3339"
  let guardian ← activationThresholdReference (document.get? "guardian_threshold")
    "demo guardian"
  let scout ← activationThresholdReference (document.get? "scout_threshold") "demo scout"
  return ⟨evidenceSha256, evidenceSha256, guardian, scout, .demo, observedAt⟩

/-- The evidence of a scope. -/
def readActivationEvidence (files : ArtifactFiles) (evidenceSha256 : String) :
    EvidenceScope → Except Exn ActivationEvidence
  | .production => readProductionActivationEvidence files evidenceSha256
  | .demo => readDemoActivationEvidence files evidenceSha256

end MarketMonitor
