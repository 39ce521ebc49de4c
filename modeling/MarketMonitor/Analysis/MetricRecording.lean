import MarketMonitor.Analysis.EvidenceSpec
import MarketMonitor.Analysis.FactExecutor
import MarketMonitor.Analysis.CommitRuns

/-!
# Recording a metric run

A metric run of an OFFICIAL snapshot writes one evidence document : the lineage of the
snapshot, the thresholds in force, and the document of the output. The facts of its two
executions name the document by its hash. The commit accepts what such a run has written
(`verifyRequest_of_recorded`).
-/

namespace MarketMonitor

open Json (Value Plain)
open Transaction

/-! ## The evidence document -/

/-- `scout_threshold_matches(metrics, thresholds)`. -/
def scoutThresholdMatches (metrics : Metrics) (thresholds : ThresholdSet) : List String :=
  (scoutRules.map Prod.fst).filter fun code =>
    match metrics.lookup code with
    | some value => thresholds.entry code ≤ value
    | none => false

/-- The fields of the evidence after its lineage. -/
def evidenceFields (output : MetricOutput) (manifestSchemaVersion : ℕ) (inputLineage : Value)
    (guardian scout : ThresholdSet) (cycleKey : String) : List (String × Value) :=
  [("manifest_schema_version", .int manifestSchemaVersion),
    ("producer_version", .str output.ruleVersion), ("input_lineage", inputLineage),
    ("guardian_threshold", guardian.document), ("scout_threshold", scout.document),
    ("guardian_threshold_matches", .arr ((guardianThresholdMatches output.guardianMetrics
      guardian).map Value.str)),
    ("scout_threshold_matches", .arr ((scoutThresholdMatches output.scoutMetrics scout).map
      Value.str)),
    ("metric_output", output.evidence), ("metric_output_sha256", .str output.evidenceSha256),
    ("official_cycle_key", .str cycleKey)]

/-- The evidence of `MetricRunner.run_official`, from the lineage of its snapshot. -/
def evidenceDocument (lineage : List (String × Value)) (output : MetricOutput)
    (manifestSchemaVersion : ℕ) (inputLineage : Value) (guardian scout : ThresholdSet)
    (cycleKey : String) : Value :=
  .obj (("schema_version", .int 2) :: lineage ++
    evidenceFields output manifestSchemaVersion inputLineage guardian scout cycleKey)

/-! ## The document is plain -/

theorem plain_decimalText (value : Option Decimal) : Plain (decimalText value) :=
  Plain.optional _

theorem plain_metricDocument (item : MetricValue) : Plain item.document := by
  refine Plain.obj (by simp) ?_
  cases item.result.valuePpm <;> simp [Plain.str, Plain.int, Plain.null]

theorem plain_qualityDocument (quality : MetricQuality) : Plain quality.document :=
  Plain.obj (by simp) (by simp [Plain.str, Plain.int, Plain.arr_map Plain.str])

theorem plain_continuityEvidence (observations : List ContinuityObservation) :
    Plain (continuityEvidence observations) :=
  Plain.arr_map (fun _ => Plain.obj (by simp)
    (by simp [Plain.str, Plain.int, plain_decimalText])) _

/-- The base facts are a plain document. -/
theorem plain_baseFacts (producer : MarketMetricProducer) (metricInput : MetricInput) :
    Plain (.obj (producer.results metricInput).2) := by
  have hcalculate : ∀ validSector,
      Plain (.obj (producer.calculate metricInput validSector).2) := by
    intro validSector
    simp only [MarketMetricProducer.calculate]
    cases producer.isCurrent
    · exact Plain.obj (by simp) (by simp [plain_decimalText, Plain.arr_map Plain.str])
    · exact Plain.obj (by simp)
        (by simp [plain_decimalText, Plain.arr_map Plain.str, plain_continuityEvidence])
  unfold MarketMetricProducer.results
  split
  · exact Plain.obj List.nodup_nil fun f hf => absurd hf List.not_mem_nil
  · exact hcalculate _
  · exact hcalculate _

theorem plain_evidence (producer : MarketMetricProducer) (metricInput : MetricInput) :
    Plain (producer.evaluate metricInput).evidence := by
  refine Plain.obj (by simp) ?_
  simp [Plain.str, Plain.int, Plain.bool, Plain.arr_map Plain.str, plain_qualityDocument,
    Plain.arr_map plain_metricDocument, -List.map_map]
  exact plain_baseFacts producer metricInput

/-! ## The lineage -/

theorem sortKeys_str (text : String) : Json.sortKeys (.str text) = .str text := rfl

theorem sortKeys_strings (items : List String) :
    Json.sortKeys (.arr (items.map Value.str)) = .arr (items.map Value.str) := by
  rw [Json.sortKeys, Value.arr.injEq]
  induction items with
  | nil => rfl
  | cons item items ih => rw [List.map_cons, Json.sortItems, ih, sortKeys_str]

theorem sortKeys_stringLists (items : List (List String)) :
    Json.sortKeys (.arr (items.map fun e => .arr (e.map Value.str))) =
      .arr (items.map fun e => .arr (e.map Value.str)) := by
  rw [Json.sortKeys, Value.arr.injEq]
  induction items with
  | nil => rfl
  | cons item items ih => rw [List.map_cons, Json.sortItems, ih, sortKeys_strings]

/-- The fields of a lineage, which sorting the keys leaves as they are. -/
structure LineageFields (lineage : List (String × Value)) : Prop where
  keys : lineage.map Prod.fst = ["snapshot_uid", "snapshot_hash", "subject_uid", "manifest_uid",
    "manifest_hash", "manifest_artifact_sha256", "bundle_uid", "bundle_hash",
    "reference_entries", "source_epoch_uids"]
  plain : ∀ f ∈ lineage, Plain f.2
  sorted : ∀ f ∈ lineage, Json.sortKeys f.2 = f.2

theorem lineageFields_of_snapshotLineage {db : Database} {snapshotUid : Uid}
    {lineage : List (String × Value)} (h : snapshotLineage db snapshotUid = some lineage) :
    LineageFields lineage := by
  simp only [snapshotLineage, Option.bind_eq_bind, Option.bind_eq_some_iff] at h
  obtain ⟨snapshot, -, manifest, -, bundle, -, h⟩ := h
  obtain rfl := Option.some.inj h
  refine ⟨rfl, ?_, ?_⟩
  · simp [Plain.str, Plain.arr_map Plain.str,
      Plain.arr_map fun e : List String => Plain.arr_map Plain.str e]
  · simp [sortKeys_str, sortKeys_strings, sortKeys_stringLists]

/-! ## Reading the document back -/

section Evidence

variable {db : Database} {snapshotUid : Uid} {lineage : List (String × Value)}
  {producer : MarketMetricProducer} {metricInput : MetricInput} {manifestSchemaVersion : ℕ}
  {inputLineage : Value} {guardian scout : ThresholdSet} {cycleKey : String}

/-- The fields of the evidence document. -/
abbrev documentFields (lineage : List (String × Value)) (output : MetricOutput)
    (manifestSchemaVersion : ℕ) (inputLineage : Value) (guardian scout : ThresholdSet)
    (cycleKey : String) : List (String × Value) :=
  ("schema_version", .int 2) :: lineage ++
    evidenceFields output manifestSchemaVersion inputLineage guardian scout cycleKey

theorem nodup_documentFields {output : MetricOutput} (h : LineageFields lineage) :
    ((documentFields lineage output manifestSchemaVersion inputLineage guardian scout
      cycleKey).map Prod.fst).Nodup := by
  rw [documentFields, List.map_append, List.map_cons, h.keys]
  simp [evidenceFields]

/-- So is the evidence, when the lineage is. -/
theorem plain_evidenceDocument (h : LineageFields lineage) (hinput : Plain inputLineage) :
    Plain (evidenceDocument lineage (producer.evaluate metricInput) manifestSchemaVersion
      inputLineage guardian scout cycleKey) := by
  have hthreshold : ∀ thresholds : ThresholdSet, Plain thresholds.document := fun thresholds =>
    Plain.obj (by simp) (by simp [Plain.str])
  have hfields : ∀ f ∈ evidenceFields (producer.evaluate metricInput) manifestSchemaVersion
      inputLineage guardian scout cycleKey, Plain f.2 := by
    simp [evidenceFields, Plain.str, Plain.int, hinput, hthreshold, Plain.arr_map Plain.str,
      plain_evidence]
  refine Plain.obj (nodup_documentFields h) ?_
  intro f hf
  rcases List.mem_append.mp hf with hf | hf
  · rcases List.mem_cons.mp hf with rfl | hf
    · exact Plain.int 2
    · exact h.plain f hf
  · exact hfields f hf

/-- A field of the document is read back with its keys sorted. -/
theorem get?_evidenceDocument {output : MetricOutput} (h : LineageFields lineage)
    {f : String × Value} (hf : f ∈ documentFields lineage output manifestSchemaVersion
      inputLineage guardian scout cycleKey) :
    (Json.sortKeys (evidenceDocument lineage output manifestSchemaVersion inputLineage guardian
      scout cycleKey)).get? f.1 = some (Json.sortKeys f.2) :=
  Json.get?_sortKeys_of_mem hf (nodup_documentFields h)

theorem canonicalHash_sortKeys (document : Value) :
    canonicalHash (Json.sortKeys document) = canonicalHash document := by
  rw [canonicalHash, Json.sortKeys_idem, canonicalHash]

theorem thresholdEvidenceMatches_sortKeys (thresholds : ThresholdSet) :
    thresholdEvidenceMatches (some (Json.sortKeys thresholds.document)) thresholds = true := by
  simp [thresholdEvidenceMatches, Json.sortKeys_idem]

/-- The lineage verification reads the metrics of the output in its evidence. -/
theorem verifyMetricEvidenceLineage_document
    (hlineage : snapshotLineage db snapshotUid = some lineage) (evidenceSha256 : String) :
    verifyMetricEvidenceLineage db snapshotUid ⟨producer.ruleVersion, evidenceSha256⟩
      (Json.sortKeys (evidenceDocument lineage (producer.evaluate metricInput)
        manifestSchemaVersion inputLineage guardian scout cycleKey)) guardian scout =
      .ok ((producer.evaluate metricInput).guardianMetrics,
        (producer.evaluate metricInput).scoutMetrics) := by
  have h := lineageFields_of_snapshotLineage hlineage
  have hget := @get?_evidenceDocument lineage manifestSchemaVersion inputLineage guardian scout
    cycleKey (producer.evaluate metricInput) h
  obtain ⟨fields, hfields⟩ : ∃ fields, Json.sortKeys (producer.evaluate metricInput).evidence =
    .obj fields := ⟨_, rfl⟩
  refine verifyMetricEvidenceLineage_eq_ok.mpr ⟨?_, ⟨lineage ++ [("producer_version",
    .str producer.ruleVersion)], ?_, ?_⟩, ?_, ?_, fields, _, ?_, ?_, ?_, ?_,
    metricsFromEvidence_output producer metricInput⟩
  · exact hget (f := ("schema_version", .int 2)) List.mem_cons_self
  · rw [expectedLineage, hlineage]
  · rw [List.all_eq_true]
    intro f hf
    rw [decide_eq_true_eq]
    rcases List.mem_append.mp hf with hf | hf
    · rw [hget (List.mem_append_left _ (List.mem_cons_of_mem _ hf)), h.sorted f hf]
    · rw [List.mem_singleton.mp hf]
      exact hget (f := ("producer_version", .str producer.ruleVersion))
        (List.mem_append_right _ (by simp [evidenceFields, MarketMetricProducer.evaluate]))
  · rw [hget (f := ("guardian_threshold", guardian.document))
      (List.mem_append_right _ (by simp [evidenceFields]))]
    exact thresholdEvidenceMatches_sortKeys guardian
  · rw [hget (f := ("scout_threshold", scout.document))
      (List.mem_append_right _ (by simp [evidenceFields]))]
    exact thresholdEvidenceMatches_sortKeys scout
  · rw [← hfields]
    exact hget (f := ("metric_output", (producer.evaluate metricInput).evidence))
      (List.mem_append_right _ (by simp [evidenceFields]))
  · rw [← hfields]
    exact Json.get?_sortKeys_of_mem (f := ("rule_version", .str producer.ruleVersion))
      List.mem_cons_self (by simp)
  · rw [← hfields, canonicalHash_sortKeys]
    exact hget (f := ("metric_output_sha256",
      .str (producer.evaluate metricInput).evidenceSha256))
      (List.mem_append_right _ (by simp [evidenceFields]))
  · rw [← hfields]
    exact get?_metrics producer metricInput

/-- The evidence file is read as the document. -/
theorem verifiedMetricProvenance_document {files : ArtifactFiles} {document : Value}
    (hdocument : Plain document) (hobject : ∃ fields, document = .obj fields)
    (hfile : files (canonicalHash document) = some (Json.canonicalBytes document))
    (hregistered : ∃ a ∈ db.artifacts.artifactObject, a.sha256 = canonicalHash document)
    (version : String) :
    verifiedMetricProvenance db files ⟨version, canonicalHash document⟩ =
      .ok (Json.sortKeys document) := by
  obtain ⟨fields, rfl⟩ := hobject
  have hopen : openVerified files (canonicalHash (.obj fields)) =
      .ok (Json.canonicalBytes (.obj fields)) := 
      openVerified_eq_ok.mpr ⟨hfile, (canonicalHash_eq_hexdigest _).symm⟩
  have hany : db.artifacts.artifactObject.any
      (fun a => a.sha256 = canonicalHash (.obj fields)) = true := by
    simpa using hregistered
  simp only [verifiedMetricProvenance, hopen, hdocument.loads, hany]
  rfl

/-- The commit accepts the metrics a run has recorded : the evidence document is stored and
registered under its hash, and the facts of its two executions carry the metrics. -/
theorem verifyRequest_of_recorded {files : ArtifactFiles} {request : AnalysisCommitRequest}
    {channels : List Channel} {guardianFacts scoutFacts : List MetricFact} {document : Value}
    (hdocument : document = evidenceDocument lineage (producer.evaluate metricInput)
      manifestSchemaVersion inputLineage guardian scout cycleKey)
    (hlineage : snapshotLineage db request.snapshotUid = some lineage)
    (hinput : Plain inputLineage)
    (hfile : files (canonicalHash document) = some (Json.canonicalBytes document))
    (hregistered : ∃ a ∈ db.artifacts.artifactObject, a.sha256 = canonicalHash document)
    (hthresholds : officialThresholds db request.snapshotUid = .ok (guardian, scout))
    (hguardian : metricExecutionFacts db request.snapshotUid "CR004_GUARDIAN_METRICS"
      ⟨producer.ruleVersion, canonicalHash document⟩ guardian guardianCodes = .ok guardianFacts)
    (hscout : metricExecutionFacts db request.snapshotUid "CR004_SCOUT_METRICS"
      ⟨producer.ruleVersion, canonicalHash document⟩ scout scoutCodes = .ok scoutFacts)
    (hguardianMetrics : Metrics.same (factMetrics guardianFacts)
      (producer.evaluate metricInput).guardianMetrics)
    (hscoutMetrics : Metrics.same (factMetrics scoutFacts)
      (producer.evaluate metricInput).scoutMetrics)
    (hvalid : validateRequest request =
      .ok (channels, ⟨producer.ruleVersion, canonicalHash document⟩))
    (hrequest : request.guardianMetrics = (producer.evaluate metricInput).guardianMetrics ∧
      request.scoutMetrics = (producer.evaluate metricInput).scoutMetrics) :
    verifyRequest db files request = .ok ⟨channels,
      ⟨producer.ruleVersion, canonicalHash document⟩, guardian, scout,
      ⟨guardianFacts, scoutFacts⟩⟩ := by
  have hplain : Plain document :=
    hdocument ▸ plain_evidenceDocument (lineageFields_of_snapshotLineage hlineage) hinput
  have hevidence := verifiedMetricProvenance_document hplain ⟨_, hdocument⟩ hfile hregistered
    producer.ruleVersion
  have hmetrics := @verifyMetricEvidenceLineage_document db request.snapshotUid lineage producer
    metricInput manifestSchemaVersion inputLineage guardian scout cycleKey hlineage
    (canonicalHash document)
  rw [← hdocument] at hmetrics
  refine verifyRequest_eq_ok.mpr ⟨hvalid, _, hevidence, hthresholds, ?_, ?_, ?_⟩
  · simp only [verifiedMetricExecution, except_bind_eq_ok, check_eq_ok, exists_const]
    exact ⟨_, hmetrics, _, hguardian, _, hscout, ⟨hguardianMetrics, hscoutMetrics⟩, rfl⟩
  · rw [same_iff, hrequest.1]
    exact fun code => (same_iff.mp hguardianMetrics code).symm
  · rw [same_iff, hrequest.2]
    exact fun code => (same_iff.mp hscoutMetrics code).symm

end Evidence

/-! ## A sample -/

/-- A member five minutes after the opening. -/
def openingMember (uid : Uid) : MetricMember :=
  { sampleMember uid with
    close10m := none
    close15m := none
    amount15m := none
    previousAmount5m := none }

theorem openingMembers_unique :
    ((sampleUids.map openingMember).map MetricMember.instrumentUid).Nodup := by
  decide

theorem sampleUids_opening :
    ∀ uid ∈ sampleUids, uid ∈ (sampleUids.map openingMember).map MetricMember.instrumentUid := by
  decide

/-- The quiet sector five minutes after the opening, from a limited provider. -/
def openingInput : MetricInput :=
  { sampleInput none true with
    primaryMembers := sampleUids.map openingMember
    primaryUnique := openingMembers_unique
    sectorPrimary := sampleUids_opening }

/-- Its output has a few metrics of the Guardian and none of the Scout. -/
def openingOutput : MetricOutput := MarketMetricProducer.current.evaluate openingInput

def openingMetrics : Metrics :=
  [("CORE_WEAKENING_PPM", 0), ("HEAD_CONCENTRATION_PPM", 0), ("INTERNAL_DIVERGENCE_PPM", 0)]

theorem openingOutput_metrics :
    openingOutput.guardianMetrics = openingMetrics ∧ openingOutput.scoutMetrics = [] := by
  decide +kernel

/-- A sealed OFFICIAL snapshot of the sector. -/
def sampleSnapshot (uid : Uid) (asOfTime : Instant) : EvaluationSnapshot where
  snapshotUid := uid
  subjectUid := "sector"
  manifestUid := "manifest"
  bundleUid := "bundle"
  qualityContextUid := "quality"
  asOfTime := asOfTime
  evaluationDisposition := .official
  snapshotStatus := .sealed
  canonicalHash := canonicalHash (.str uid)

/-- Two snapshots of the sector, five minutes apart. -/
def earlierSnapshot : EvaluationSnapshot := sampleSnapshot "snapshot-1" 63902741700000000
def laterSnapshot : EvaluationSnapshot := sampleSnapshot "snapshot-2" 63902742000000000

/-- The lineage of a snapshot of the sample. -/
def sampleLineage (snapshot : EvaluationSnapshot) : List (String × Value) :=
  [("snapshot_uid", .str snapshot.snapshotUid), ("snapshot_hash", .str snapshot.canonicalHash),
    ("subject_uid", .str snapshot.subjectUid), ("manifest_uid", .str "manifest"),
    ("manifest_hash", .str "manifest-hash"), ("manifest_artifact_sha256", .str "manifest-sha256"),
    ("bundle_uid", .str "bundle"), ("bundle_hash", .str "bundle-hash"),
    ("reference_entries", .arr []), ("source_epoch_uids", .arr [])]

/-- The evidence of the opening, bound to a snapshot. -/
def sampleEvidence (snapshot : EvaluationSnapshot) : Value :=
  evidenceDocument (sampleLineage snapshot) openingOutput 2 (.obj [])
    (sampleThresholds .guardian) (sampleThresholds .scout) "cycle"

/-- The execution that records the metrics of a family. -/
def sampleExecution (snapshot : EvaluationSnapshot) (family : ThresholdFamily) :
    MetricExecution where
  snapshot := snapshot
  ruleKey := "CR004_" ++ family.text ++ "_METRICS"
  producerVersion := "cr004-market-metrics-v2"
  thresholds := sampleThresholds family
  evidenceSha256 := some (canonicalHash (sampleEvidence snapshot))

def sampleExecutionUid (snapshot : EvaluationSnapshot) (family : ThresholdFamily) : Uid :=
  snapshot.snapshotUid ++ "-" ++ family.text

/-- The facts of the Guardian. -/
def sampleFactRows (snapshot : EvaluationSnapshot) : List FactRecord :=
  openingMetrics.map fun value =>
    (sampleExecution snapshot .guardian).factRow (sampleExecutionUid snapshot .guardian)
      (snapshot.snapshotUid ++ "-" ++ value.1) value

/-- Thresholds registered, validated and activated at the first instant. -/
def sampleThresholdTables : ThresholdTables where
  thresholdVersion := [ThresholdFamily.guardian, .scout].map fun family =>
    { thresholdVersionUid := family.text
      family := family
      version := "v1"
      approvalStatus := .ownerApproved
      ownerApprovalReference := "owner"
      definitionHash := (sampleThresholds family).definitionHash }
  thresholdEntry := [ThresholdFamily.guardian, .scout].flatMap fun family =>
    family.codes.map fun code => ⟨family.text, code, 500000⟩
  thresholdValidation :=
    let report := canonicalHash (.str "report")
    [⟨1, "validation-1", "GUARDIAN", .replay, true, "report", report, 0⟩,
      ⟨2, "validation-2", "GUARDIAN", .shadow, true, "report", report, 0⟩,
      ⟨3, "validation-3", "SCOUT", .replay, true, "report", report, 0⟩,
      ⟨4, "validation-4", "SCOUT", .shadow, true, "report", report, 0⟩]
  thresholdActivation :=
    [⟨1, "activation-1", .guardian, "GUARDIAN", 0, "accepted", "owner", "acceptance"⟩,
      ⟨2, "activation-2", .scout, "SCOUT", 0, "accepted", "owner", "acceptance"⟩]
  thresholdActivationEvidence :=
    [⟨"acceptance", canonicalHash (sampleEvidence laterSnapshot),
      canonicalHash (sampleEvidence earlierSnapshot), "GUARDIAN", "SCOUT", .production, 0⟩]

/-- A registered document. -/
def sampleArtifact (document : Value) : ArtifactObject where
  sha256 := canonicalHash document
  sizeBytes := (Json.canonicalBytes document).length
  mediaType := "application/json"
  relativePath := "artifact"
  createdAt := 63902741600000000

/-- The metrics of both snapshots are recorded, and nothing is committed. -/
def sampleDatabase : Database where
  evidence :=
    { evaluationSnapshot := [earlierSnapshot, laterSnapshot]
      qualityContext := [⟨"quality", .healthy, .fit, .high⟩]
      qualityLimitation := []
      inputManifest := [⟨"manifest", "manifest-hash", "manifest-sha256", 63902741700000000⟩]
      referenceVersionBundle := [⟨"bundle", "bundle-hash"⟩]
      referenceVersionEntry := []
      capabilitySnapshot := []
      ruleExecution := [earlierSnapshot, laterSnapshot].flatMap fun snapshot =>
        [(sampleExecution snapshot .guardian).row (sampleExecutionUid snapshot .guardian)
            openingMetrics,
          (sampleExecution snapshot .scout).row (sampleExecutionUid snapshot .scout) []]
      factRecord := [earlierSnapshot, laterSnapshot].flatMap sampleFactRows }
  thresholds := sampleThresholdTables
  analysis := .empty
  artifacts :=
    { artifactObject :=
        [sampleArtifact (sampleEvidence earlierSnapshot),
          sampleArtifact (sampleEvidence laterSnapshot), sampleArtifact (.str "report"),
          sampleArtifact (.str "review")]
      artifactLease := [] }
  officialCycleRun := []
  metadata := ⟨1, some "NORMAL"⟩

/-- The request that commits a snapshot of the sample. -/
def sampleRequest (snapshot : EvaluationSnapshot) (expectedProjectionVersion : ℕ) :
    AnalysisCommitRequest where
  snapshotUid := snapshot.snapshotUid
  availabilityState := "AVAILABLE"
  lifecycleState := some "OBSERVING"
  expectedProjectionVersion := expectedProjectionVersion
  guardianMetrics := openingMetrics
  scoutMetrics := []
  channels := ["IN_APP"]
  metricProvenance := some ⟨"cr004-market-metrics-v2", canonicalHash (sampleEvidence snapshot)⟩

/-- The facts of a snapshot of the sample, as the commit reads them. -/
def openingFacts (snapshot : EvaluationSnapshot) : List MetricFact :=
  openingMetrics.map fun value =>
    (sampleExecution snapshot .guardian).fact (snapshot.snapshotUid ++ "-" ++ value.1) value

/-- What the commit of a snapshot of the sample verifies. -/
def sampleVerified (snapshot : EvaluationSnapshot) : VerifiedRequest where
  channels := [.inApp]
  provenance := ⟨"cr004-market-metrics-v2", canonicalHash (sampleEvidence snapshot)⟩
  guardianThresholds := sampleThresholds .guardian
  scoutThresholds := sampleThresholds .scout
  execution := ⟨openingFacts snapshot, []⟩

/-- The evidence of a snapshot in the artifact directory. -/
def sampleFiles (snapshot : EvaluationSnapshot) : ArtifactFiles := fun digest =>
  if digest = canonicalHash (sampleEvidence snapshot) then
    some (Json.canonicalBytes (sampleEvidence snapshot))
  else none

/-- Identifiers for the commit of a snapshot. -/
def sampleUidsOf (snapshot : EvaluationSnapshot) : CommitUids where
  evaluation := snapshot.snapshotUid ++ "-evaluation"
  transition := snapshot.snapshotUid ++ "-transition"
  guardian := snapshot.snapshotUid ++ "-guardian"
  scout := snapshot.snapshotUid ++ "-scout"
  commit := snapshot.snapshotUid ++ "-commit"
  audit := snapshot.snapshotUid ++ "-audit"
  event kind := snapshot.snapshotUid ++ "-event-" ++ kind.text
  eventVersion kind := snapshot.snapshotUid ++ "-version-" ++ kind.text
  intent kind channel := snapshot.snapshotUid ++ "-intent-" ++ kind.text ++ channel.text

/-- A digest is not blank. -/
theorem not_blank_of_isDigest {text : String} (h : Sha256.IsDigest text) :
    blank text = false := by
  obtain ⟨hlength, hdigits⟩ := h
  cases htext : text.toList with
  | nil =>
    rw [htext] at hlength
    cases hlength
  | cons c cs =>
    have hhex : (48 ≤ c.toNat ∧ c.toNat ≤ 57) ∨ (97 ≤ c.toNat ∧ c.toNat ≤ 102) :=
      hdigits c (htext ▸ List.mem_cons_self)
    have hspace : isSpace c = false := by
      rw [isSpace, decide_eq_false_iff_not]
      omega
    rw [blank, htext, List.all_cons, hspace, Bool.false_and]

/-- A version of the sample is read back from its row. -/
theorem setFromRow_sample (family : ThresholdFamily) {row : ThresholdVersion}
    (huid : row.thresholdVersionUid = family.text)
    (hhash : row.definitionHash = (sampleThresholds family).definitionHash)
    (howner : row.ownerApprovalReference = "owner") (effectiveTime : Option Instant) :
    setFromRow sampleThresholdTables row family "v1" effectiveTime =
      .ok { sampleThresholds family with effectiveTime := effectiveTime } := by
  have hentries : sampleThresholdTables.entriesOf family.text =
      (sampleThresholds family).entries := by
    cases family <;> decide +kernel
  have hvalidated : validatedEntries family (sampleThresholds family).entries =
      .ok ⟨(sampleThresholds family).entries, (sampleThresholds family).complete⟩ := by
    cases family <;> decide +kernel
  simp only [setFromRow, huid, hentries, hvalidated, hhash, howner]
  rw [if_neg (by simp [sampleThresholds])]
  rfl

/-- Both threshold sets are in force at every instant. -/
theorem resolveOfficial_sample (family : ThresholdFamily) (at_ : Instant) :
    resolveOfficial sampleThresholdTables family at_ = .ok (sampleThresholds family) := by
  have hvalid : latestValidationsPass sampleThresholdTables family.text at_ = true := by
    cases family <;> simp [latestValidationsPass, sampleThresholdTables, ThresholdFamily.text,
      latest]
  have hset : ∀ row : ThresholdVersion, row.thresholdVersionUid = family.text →
      row.definitionHash = (sampleThresholds family).definitionHash →
      row.ownerApprovalReference = "owner" →
      setFromRow sampleThresholdTables row family "v1" (some 0) =
        .ok (sampleThresholds family) := fun _ huid hhash howner =>
    setFromRow_sample family huid hhash howner (some 0)
  have hversions : sampleThresholdTables.thresholdVersion =
      [⟨"GUARDIAN", .guardian, "v1", .ownerApproved, "owner",
          (sampleThresholds .guardian).definitionHash⟩,
        ⟨"SCOUT", .scout, "v1", .ownerApproved, "owner",
          (sampleThresholds .scout).definitionHash⟩] := rfl
  have hactivations : sampleThresholdTables.thresholdActivation =
      [⟨1, "activation-1", .guardian, "GUARDIAN", 0, "accepted", "owner", "acceptance"⟩,
        ⟨2, "activation-2", .scout, "SCOUT", 0, "accepted", "owner", "acceptance"⟩] := rfl
  cases family <;>
    simp_all [resolveOfficial, ThresholdTables.active, ThresholdTables.activations,
      ThresholdTables.effective, ThresholdTables.version?, latest, ThresholdFamily.text]

theorem recordable_openingMetrics : Recordable guardianCodes openingMetrics :=
  ⟨by decide, by decide, by decide⟩

/-- The metrics the sample records for a family. -/
def sampleValues : ThresholdFamily → Metrics
  | .guardian => openingMetrics
  | .scout => []

/-- The row of an execution of the sample. -/
abbrev sampleExecutionRow (snapshot : EvaluationSnapshot) (family : ThresholdFamily) :
    RuleExecution :=
  (sampleExecution snapshot family).row (sampleExecutionUid snapshot family) (sampleValues family)

/-- The executions of the sample. -/
theorem ruleExecution_sample {db : Database} (hevidence : db.evidence = sampleDatabase.evidence)
    {snapshot : EvaluationSnapshot}
    (hsnapshot : snapshot = earlierSnapshot ∨ snapshot = laterSnapshot)
    (family : ThresholdFamily) :
    (db.evidence.ruleExecution.filter fun r => r.snapshotUid = snapshot.snapshotUid ∧
      r.ruleKey = (sampleExecution snapshot family).ruleKey ∧
      r.ruleVersion = (sampleExecution snapshot family).producerVersion ∧
      r.thresholdVersionUid = some (sampleThresholds family).uid ∧ r.validationStatus = .valid ∧
      r.outputHash = canonicalHash (sampleEvidence snapshot)) =
        [sampleExecutionRow snapshot family] := by
  have hrows : db.evidence.ruleExecution =
      [sampleExecutionRow earlierSnapshot .guardian, sampleExecutionRow earlierSnapshot .scout,
        sampleExecutionRow laterSnapshot .guardian, sampleExecutionRow laterSnapshot .scout] := by
    rw [hevidence]
    rfl
  rw [hrows]
  generalize hp : (fun r : RuleExecution => decide (r.snapshotUid = snapshot.snapshotUid ∧
    r.ruleKey = (sampleExecution snapshot family).ruleKey ∧
    r.ruleVersion = (sampleExecution snapshot family).producerVersion ∧
    r.thresholdVersionUid = some (sampleThresholds family).uid ∧ r.validationStatus = .valid ∧
    r.outputHash = canonicalHash (sampleEvidence snapshot))) = p
  have hkeep : p (sampleExecutionRow snapshot family) = true := by
    have hevidence : (sampleExecution snapshot family).evidenceSha256 =
        some (canonicalHash (sampleEvidence snapshot)) := rfl
    rw [← hp, decide_eq_true_eq]
    refine ⟨rfl, rfl, rfl, rfl, rfl, ?_⟩
    rw [(sampleExecution snapshot family).row_outputHash, hevidence, Option.getD_some]
  have hdrop : ∀ s f, s.snapshotUid ≠ snapshot.snapshotUid ∨
      f.text ≠ family.text → p (sampleExecutionRow s f) = false := by
    intro s f hne
    rw [← hp, decide_eq_false_iff_not]
    rintro ⟨huid, -, -, hthreshold, -⟩
    exact hne.elim (fun h => h huid) fun h => h (Option.some.inj hthreshold)
  clear hp hrows
  rcases hsnapshot with rfl | rfl <;> cases family
  · rw [List.filter_cons_of_pos hkeep]
    simp only [List.filter_cons, List.filter_nil, hdrop earlierSnapshot .scout (by decide),
      hdrop laterSnapshot .guardian (by decide), hdrop laterSnapshot .scout (by decide),
      Bool.false_eq_true, if_false]
  · simp only [List.filter_cons, List.filter_nil, hkeep,
      hdrop earlierSnapshot .guardian (by decide), hdrop laterSnapshot .guardian (by decide),
      hdrop laterSnapshot .scout (by decide), Bool.false_eq_true, if_false, if_true]
  · simp only [List.filter_cons, List.filter_nil, hkeep,
      hdrop earlierSnapshot .guardian (by decide), hdrop earlierSnapshot .scout (by decide),
      hdrop laterSnapshot .scout (by decide), Bool.false_eq_true, if_false, if_true]
  · simp only [List.filter_cons, List.filter_nil, hkeep,
      hdrop earlierSnapshot .guardian (by decide), hdrop earlierSnapshot .scout (by decide),
      hdrop laterSnapshot .guardian (by decide), Bool.false_eq_true, if_false, if_true]

/-- The facts of the sample. -/
theorem factRecord_sample {db : Database} (hevidence : db.evidence = sampleDatabase.evidence)
    {snapshot : EvaluationSnapshot}
    (hsnapshot : snapshot = earlierSnapshot ∨ snapshot = laterSnapshot)
    (family : ThresholdFamily) :
    (db.evidence.factRecord.filter fun f =>
      f.producerRuleExecutionUid = sampleExecutionUid snapshot family ∧
        f.snapshotUid = snapshot.snapshotUid) =
      match family with
      | .guardian => sampleFactRows snapshot
      | .scout => [] := by
  have hrows : ∀ s, ∀ f ∈ sampleFactRows s,
      f.producerRuleExecutionUid = sampleExecutionUid s .guardian ∧
        f.snapshotUid = s.snapshotUid := by
    rintro s f hf
    obtain ⟨v, -, rfl⟩ := List.mem_map.mp hf
    exact ⟨rfl, rfl⟩
  have hfacts : db.evidence.factRecord =
      sampleFactRows earlierSnapshot ++ sampleFactRows laterSnapshot := by
    rw [hevidence]
    rfl
  have hself : ∀ s, (sampleFactRows s).filter (fun f => f.producerRuleExecutionUid =
      sampleExecutionUid s .guardian ∧ f.snapshotUid = s.snapshotUid) = sampleFactRows s :=
    fun s => List.filter_eq_self.mpr fun f hf => by simpa using hrows s f hf
  have hnone : ∀ s s' f', (sampleExecutionUid s .guardian, s.snapshotUid) ≠
      (sampleExecutionUid s' f', s'.snapshotUid) →
      (sampleFactRows s).filter (fun f => f.producerRuleExecutionUid =
        sampleExecutionUid s' f' ∧ f.snapshotUid = s'.snapshotUid) = [] := by
    intro s s' f' hne
    refine List.filter_eq_nil_iff.mpr fun f hf hp => hne ?_
    obtain ⟨huid, hsnapshot⟩ := hrows s f hf
    rw [decide_eq_true_eq, huid, hsnapshot] at hp
    rw [hp.1, hp.2]
  rw [hfacts, List.filter_append]
  rcases hsnapshot with rfl | rfl <;> cases family
  · rw [hself, hnone _ _ _ (by decide), List.append_nil]
  · rw [hnone _ _ _ (by decide), hnone _ _ _ (by decide), List.append_nil]
  · rw [hself, hnone _ _ _ (by decide), List.nil_append]
  · rw [hnone _ _ _ (by decide), hnone _ _ _ (by decide), List.append_nil]

/-- The facts a commit of the sample reads. -/
theorem metricExecutionFacts_sample {db : Database}
    (hevidence : db.evidence = sampleDatabase.evidence) {snapshot : EvaluationSnapshot}
    (hsnapshot : snapshot = earlierSnapshot ∨ snapshot = laterSnapshot) :
    metricExecutionFacts db snapshot.snapshotUid "CR004_GUARDIAN_METRICS"
        (sampleVerified snapshot).provenance (sampleThresholds .guardian) guardianCodes =
          .ok (openingFacts snapshot) ∧
      metricExecutionFacts db snapshot.snapshotUid "CR004_SCOUT_METRICS"
        (sampleVerified snapshot).provenance (sampleThresholds .scout) scoutCodes = .ok [] := by
  constructor
  · exact (sampleExecution snapshot .guardian).metricExecutionFacts_eq_ok
      recordable_openingMetrics (ruleExecution_sample hevidence hsnapshot .guardian)
      (factRecord_sample hevidence hsnapshot .guardian) (by decide)
  · have hnone : Recordable scoutCodes [] := ⟨by decide, by decide, by decide⟩
    exact @MetricExecution.metricExecutionFacts_eq_ok (sampleExecution snapshot .scout) db _
      (fun _ => "") scoutCodes [] _ hnone (ruleExecution_sample hevidence hsnapshot .scout)
      (factRecord_sample hevidence hsnapshot .scout) List.Pairwise.nil

/-- The commit verifies the requests of the sample. -/
theorem verifyRequest_sample {db : Database} (hevidence : db.evidence = sampleDatabase.evidence)
    (hthresholds : db.thresholds = sampleDatabase.thresholds)
    (hartifacts : db.artifacts = sampleDatabase.artifacts) {snapshot : EvaluationSnapshot}
    (hsnapshot : snapshot = earlierSnapshot ∨ snapshot = laterSnapshot) (version : ℕ) :
    verifyRequest db (sampleFiles snapshot) (sampleRequest snapshot version) =
      .ok (sampleVerified snapshot) := by
  obtain ⟨hguardian, hscout⟩ := metricExecutionFacts_sample hevidence hsnapshot
  obtain ⟨hguardianMetrics, hscoutMetrics⟩ := openingOutput_metrics
  have hlineage : snapshotLineage db snapshot.snapshotUid = some (sampleLineage snapshot) := by
    rcases hsnapshot with rfl | rfl <;>
      simp [snapshotLineage, hevidence, sampleDatabase, sampleLineage, earlierSnapshot,
        laterSnapshot, sampleSnapshot]
  have hofficial : officialThresholds db snapshot.snapshotUid =
      .ok (sampleThresholds .guardian, sampleThresholds .scout) := by
    rcases hsnapshot with rfl | rfl <;>
      simp [officialThresholds, hevidence, hthresholds, sampleDatabase, earlierSnapshot,
        laterSnapshot, sampleSnapshot, resolveOfficial_sample]
  have hregistered : ∃ a ∈ db.artifacts.artifactObject,
      a.sha256 = canonicalHash (sampleEvidence snapshot) := by
    rw [hartifacts]
    rcases hsnapshot with rfl | rfl
    · exact ⟨_, List.mem_cons_self, rfl⟩
    · exact ⟨_, List.mem_cons_of_mem _ List.mem_cons_self, rfl⟩
  have hvalid : validateRequest (sampleRequest snapshot version) =
      .ok ([.inApp], (sampleVerified snapshot).provenance) := by
    have hdigest : blank (canonicalHash (sampleEvidence snapshot)) = false :=
      not_blank_of_isDigest (canonicalHash_isDigest _)
    have hproducer : blank "cr004-market-metrics-v2" = false := by decide
    have hchannels : requestedChannels ["IN_APP"] = ["IN_APP"] := by decide
    have hmetrics : validateMetrics openingMetrics guardianCodes = .ok () := by decide
    have hnone : validateMetrics [] scoutCodes = .ok () := by decide
    have hchannel : Channel.ofText? "IN_APP" = some .inApp := by decide
    simp [validateRequest, sampleRequest, sampleVerified, hdigest, hproducer, hchannels,
      hmetrics, hnone, hchannel, check]
    rfl
  have hfacts : factMetrics (openingFacts snapshot) = openingMetrics := by
    rw [factMetrics, openingFacts, List.map_map]
    exact List.map_id _
  have houtput : (MarketMetricProducer.current.evaluate openingInput).guardianMetrics =
      openingMetrics ∧ (MarketMetricProducer.current.evaluate openingInput).scoutMetrics = [] :=
    ⟨hguardianMetrics, hscoutMetrics⟩
  have hdocument : sampleEvidence snapshot = evidenceDocument (sampleLineage snapshot)
      (MarketMetricProducer.current.evaluate openingInput) 2 (.obj [])
      (sampleThresholds .guardian) (sampleThresholds .scout) "cycle" := rfl
  exact verifyRequest_of_recorded hdocument hlineage
    (Plain.obj List.nodup_nil fun _ hf => absurd hf List.not_mem_nil)
    (if_pos rfl) hregistered hofficial hguardian hscout
    (by rw [hfacts, houtput.1]; decide) (by rw [houtput.2]; decide) hvalid
    ⟨houtput.1.symm, houtput.2.symm⟩

/-- The tables the first commit of the later snapshot leaves. -/
def laterTables : AnalysisTables :=
  stateAfter ((commitCommand sampleDatabase (sampleUidsOf laterSnapshot)
    (sampleRequest laterSnapshot 0) (sampleVerified laterSnapshot)).run .empty)

/-- The sample after the commit of its later snapshot. -/
def laterDatabase : Database :=
  stateAfter ((commit (sampleFiles laterSnapshot) (sampleUidsOf laterSnapshot)
    (sampleRequest laterSnapshot 0)).run sampleDatabase)

/-- The commit of the later snapshot returns. -/
theorem commit_laterTables : ∃ result,
    (commit (sampleFiles laterSnapshot) (sampleUidsOf laterSnapshot)
      (sampleRequest laterSnapshot 0)).run sampleDatabase =
        .ok result { sampleDatabase with analysis := laterTables } := by
  obtain ⟨result, hrun⟩ := eq_ok_of_isOk (r := (commitCommand sampleDatabase
    (sampleUidsOf laterSnapshot) (sampleRequest laterSnapshot 0)
    (sampleVerified laterSnapshot)).run sampleDatabase.analysis) (by decide +kernel)
  refine ⟨result, ?_⟩
  rw [commit_of_new (verifyRequest_sample rfl rfl rfl (Or.inr rfl) 0) rfl, submit_of_ok hrun]
  rfl

theorem laterDatabase_eq : laterDatabase = { sampleDatabase with analysis := laterTables } := by
  obtain ⟨result, hrun⟩ := commit_laterTables
  rw [laterDatabase, hrun]
  rfl

theorem commit_laterDatabase : ∃ result,
    (commit (sampleFiles laterSnapshot) (sampleUidsOf laterSnapshot)
      (sampleRequest laterSnapshot 0)).run sampleDatabase = .ok result laterDatabase := by
  rw [laterDatabase_eq]
  exact commit_laterTables

theorem analysis_laterDatabase : laterDatabase.analysis = laterTables := by
  rw [laterDatabase_eq]

theorem step_laterDatabase {allowed : Database → AnalysisCommitRequest → Prop}
    (h : allowed sampleDatabase (sampleRequest laterSnapshot 0)) :
    Step allowed sampleDatabase laterDatabase :=
  .attempt _ _ _ _ h

theorem reachable_laterDatabase {allowed : Database → AnalysisCommitRequest → Prop}
    (h : allowed sampleDatabase (sampleRequest laterSnapshot 0)) :
    Reachable allowed laterDatabase :=
  ⟨sampleDatabase, rfl, .single (step_laterDatabase h)⟩

attribute [irreducible] laterTables laterDatabase

end MarketMonitor
