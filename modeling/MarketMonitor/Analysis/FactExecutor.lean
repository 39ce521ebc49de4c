import MarketMonitor.Analysis.MetricEvidence

/-!
# The fact executor

`FactExecutor.record_metrics` writes the metrics of a run as one `rule_execution` with a
`fact_record` for each value. A commit reads them back by the snapshot, the rule, the
thresholds and the hash of the evidence.
-/

namespace MarketMonitor

open Json (Value)
open Transaction

/-! ## Rows -/

/-- The execution of a rule on a snapshot, whose hashes bind the thresholds and the
evidence. -/
structure MetricExecution where
  snapshot : EvaluationSnapshot
  ruleKey : String
  producerVersion : String
  thresholds : ThresholdSet
  evidenceSha256 : Option String

/-- The fields every hash of an execution covers. -/
def MetricExecution.fields (execution : MetricExecution) : List (String × Value) :=
  [("snapshot_hash", .str execution.snapshot.canonicalHash), ("rule_key", .str execution.ruleKey),
    ("producer_version", .str execution.producerVersion),
    ("threshold_version_uid", .str execution.thresholds.uid),
    ("threshold_definition_hash", .str execution.thresholds.definitionHash),
    ("evidence_sha256", Value.optional execution.evidenceSha256)]

/-- The hash of the inputs, `digest`. -/
def MetricExecution.inputHash (execution : MetricExecution) (values : Metrics) : String :=
  canonicalHash (.obj (execution.fields ++ [("metrics", values.document)]))

/-- The hash of a fact. -/
def MetricExecution.factHash (execution : MetricExecution) (code : String) (value : ℤ) : String :=
  canonicalHash (.obj (execution.fields ++ [("fact_code", .str code), ("value_scaled", .int value),
    ("value_scale", .int 0), ("unit", .str "PPM")]))

/-- The row of `rule_execution`. -/
def MetricExecution.row (execution : MetricExecution) (uid : Uid) (values : Metrics) :
    RuleExecution where
  ruleExecutionUid := uid
  snapshotUid := execution.snapshot.snapshotUid
  ruleKey := execution.ruleKey
  ruleVersion := execution.producerVersion
  thresholdVersionUid := some execution.thresholds.uid
  validationStatus := .valid
  inputHash := execution.inputHash values
  outputHash := execution.evidenceSha256.getD (execution.inputHash values)

theorem MetricExecution.row_outputHash (execution : MetricExecution) (uid : Uid)
    (values : Metrics) : (execution.row uid values).outputHash =
      execution.evidenceSha256.getD (execution.inputHash values) := rfl

/-- The row of `fact_record` of a value. -/
def MetricExecution.factRow (execution : MetricExecution) (uid factUid : Uid)
    (value : String × ℤ) : FactRecord where
  factUid := factUid
  snapshotUid := execution.snapshot.snapshotUid
  producerRuleExecutionUid := uid
  qualityContextUid := execution.snapshot.qualityContextUid
  factCode := value.1
  valueScaled := some value.2
  valueScale := 0
  valueStatus := .value
  unit := "PPM"
  factHash := execution.factHash value.1 value.2

/-! ## Reading the facts back -/

/-- The metrics a producer records : of one family, each code once, in parts per million. -/
structure Recordable (allowed : List String) (values : Metrics) : Prop where
  codes : ∀ v ∈ values, v.1 ∈ allowed
  range : ∀ v ∈ values, 0 ≤ v.2 ∧ v.2 ≤ 1000000
  unique : (values.map Prod.fst).Nodup

/-- The fact a commit reads from a recorded value. -/
def MetricExecution.fact (execution : MetricExecution) (factUid : Uid) (value : String × ℤ) :
    MetricFact :=
  ⟨factUid, value.1, value.2, execution.factHash value.1 value.2⟩

/-- The rows of recorded values are read back as their facts. -/
theorem MetricExecution.readFacts_factRow (execution : MetricExecution) (uid : Uid)
    (factUid : String × ℤ → Uid) {allowed : List String} {values : Metrics}
    (h : Recordable allowed values) {facts : List MetricFact}
    (hfresh : ∀ v ∈ values, v.1 ∉ facts.map MetricFact.code) :
    readFacts allowed (values.map fun v => execution.factRow uid (factUid v) v) facts =
      .ok (facts ++ values.map fun v => execution.fact (factUid v) v) := by
  obtain ⟨hcodes, hrange, hunique⟩ := h
  induction values generalizing facts with
  | nil => rw [List.map_nil, List.map_nil, readFacts, List.append_nil]
  | cons v values ih =>
    have hv := hrange v List.mem_cons_self
    rw [List.map_cons, List.nodup_cons] at hunique
    rw [List.map_cons, readFacts, if_neg, if_neg]
    · rw [ih, List.append_assoc]
      · rfl
      · intro w hw
        rw [List.map_append, List.mem_append, List.map_singleton, List.mem_singleton]
        rintro (hold | hnew)
        · exact hfresh w (List.mem_cons_of_mem _ hw) hold
        · exact hunique.1 (List.mem_map.mpr ⟨w, hw, hnew⟩)
      · exact fun w hw => hcodes w (List.mem_cons_of_mem _ hw)
      · exact fun w hw => hrange w (List.mem_cons_of_mem _ hw)
      · exact hunique.2
    · show ¬(v.2 < 0 ∨ 1000000 < v.2)
      omega
    · have hmem := hcodes v List.mem_cons_self
      have hnew := hfresh v List.mem_cons_self
      simpa [MetricExecution.factRow, hmem] using hnew

/-- A commit reads the facts of the one execution that records a family. -/
theorem MetricExecution.metricExecutionFacts_eq_ok (execution : MetricExecution) {db : Database}
    {uid : Uid} {factUid : String × ℤ → Uid} {allowed : List String} {values : Metrics}
    {evidenceSha256 : String} (h : Recordable allowed values)
    (hexecutions : (db.evidence.ruleExecution.filter fun r =>
      r.snapshotUid = execution.snapshot.snapshotUid ∧ r.ruleKey = execution.ruleKey ∧
        r.ruleVersion = execution.producerVersion ∧
        r.thresholdVersionUid = some execution.thresholds.uid ∧ r.validationStatus = .valid ∧
        r.outputHash = evidenceSha256) = [execution.row uid values])
    (hfacts : (db.evidence.factRecord.filter fun f =>
      f.producerRuleExecutionUid = uid ∧ f.snapshotUid = execution.snapshot.snapshotUid) =
        values.map fun v => execution.factRow uid (factUid v) v)
    (hsorted : values.Pairwise fun v w => v.1 ≤ w.1) :
    metricExecutionFacts db execution.snapshot.snapshotUid execution.ruleKey
      ⟨execution.producerVersion, evidenceSha256⟩ execution.thresholds allowed =
        .ok (values.map fun v => execution.fact (factUid v) v) := by
  have hrows : ((values.map fun v => execution.factRow uid (factUid v) v).insertionSort
      fun f g => f.factCode ≤ g.factCode) =
        values.map fun v => execution.factRow uid (factUid v) v :=
    List.Pairwise.insertionSort_eq (List.pairwise_map.mpr hsorted)
  have hread : readFacts allowed (values.map fun v => execution.factRow uid (factUid v) v) [] =
      .ok ([] ++ values.map fun v => execution.fact (factUid v) v) :=
    execution.readFacts_factRow uid factUid h fun _ _ => List.not_mem_nil
  simp only [metricExecutionFacts, hexecutions, MetricExecution.row, hfacts, hrows]
  exact hread

end MarketMonitor
