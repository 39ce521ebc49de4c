import MarketMonitor.Analysis.MetricGuardian

/-!
# Reading metric evidence back

The verification reads the metrics of an evidence document and the facts of an
execution. The metrics it reads in the document of an output are the metrics of the
output (`metricsFromEvidence_output`), and the facts it accepts carry them
(`verifiedMetricExecution_output`).
-/

namespace MarketMonitor

open Json (Value)
open Transaction

/-! ## Metrics -/

/-- The document of a metric has its keys in order. -/
theorem sortKeys_metricDocument (item : MetricValue) :
    Json.sortKeys item.document = item.document := by
  cases hvalue : item.result.valuePpm <;>
    simp [MetricValue.document, Json.sortKeys, Json.sortFields, hvalue]

/-- A metric is read as its code and its value. -/
theorem readMetric_document (item : MetricValue) :
    readMetric item.document = some (item.code, item.result.valuePpm) := by
  obtain ⟨code, ⟨ppm, hppm⟩ | _ | _⟩ := item
  · simp [readMetric, MetricValue.document, Value.get?, MetricResult.status, MetricStatus.text,
      MetricResult.valuePpm, List.lookup_cons, hppm]
  · simp [readMetric, MetricValue.document, Value.get?, MetricResult.status, MetricStatus.text,
      MetricResult.valuePpm, List.lookup_cons]
  · simp [readMetric, MetricValue.document, Value.get?, MetricResult.status, MetricStatus.text,
      MetricResult.valuePpm, List.lookup_cons]

/-- The values of the codes of a family. -/
def valuesOf (codes : List String) (values : List MetricValue) : Metrics :=
  values.filterMap fun item =>
    if item.code ∈ codes then item.result.valuePpm.map fun ppm => (item.code, ppm) else none

theorem not_mem_scoutCodes : ∀ code ∈ guardianCodes, code ∉ scoutCodes := by decide

/-- The metrics of the two families are told apart by their codes. -/
theorem metricsFromEvidence_documents (values : List MetricValue) (guardian scout : Metrics)
    (hcodes : ∀ item ∈ values, item.code ∈ guardianCodes ∨ item.code ∈ scoutCodes)
    (hnodup : (values.map MetricValue.code).Nodup)
    (hfresh : ∀ item ∈ values, guardian.lookup item.code = none ∧ scout.lookup item.code = none) :
    metricsFromEvidence (values.map MetricValue.document) guardian scout =
      some (guardian ++ valuesOf guardianCodes values, scout ++ valuesOf scoutCodes values) := by
  induction values generalizing guardian scout with
  | nil => simp [metricsFromEvidence, valuesOf]
  | cons item values ih =>
    rw [List.map_cons, List.nodup_cons] at hnodup
    have hrest := fun i hi => hcodes i (List.mem_cons_of_mem item hi)
    have hfreshRest := fun i hi => hfresh i (List.mem_cons_of_mem item hi)
    obtain ⟨hguardian, hscout⟩ := hfresh item List.mem_cons_self
    have hne : ∀ i ∈ values, i.code ≠ item.code := fun i hi heq =>
      hnodup.1 (heq ▸ List.mem_map_of_mem hi)
    have hlookup : ∀ (metrics : Metrics) (ppm : ℤ), ∀ i ∈ values, metrics.lookup i.code = none →
        (metrics ++ [(item.code, ppm)]).lookup i.code = none := by
      intro metrics ppm i hi h
      simpa [List.lookup_append, h] using hne i hi
    rcases hcodes item List.mem_cons_self with hcode | hcode
    · have hnot := not_mem_scoutCodes _ hcode
      cases hvalue : item.result.valuePpm with
      | none =>
        simp [metricsFromEvidence, readMetric_document, hvalue, hcode, hguardian, valuesOf, hnot,
          ih guardian scout hrest hnodup.2 hfreshRest]
      | some ppm =>
        have hnext := ih (guardian ++ [(item.code, ppm)]) scout hrest hnodup.2 fun i hi =>
          ⟨hlookup guardian ppm i hi (hfreshRest i hi).1, (hfreshRest i hi).2⟩
        simp [metricsFromEvidence, readMetric_document, hvalue, hcode, hguardian, hnext, valuesOf,
          hnot]
    · have hnot : item.code ∉ guardianCodes := fun h => not_mem_scoutCodes _ h hcode
      cases hvalue : item.result.valuePpm with
      | none =>
        simp [metricsFromEvidence, readMetric_document, hvalue, hcode, hscout, valuesOf, hnot,
          ih guardian scout hrest hnodup.2 hfreshRest]
      | some ppm =>
        have hnext := ih guardian (scout ++ [(item.code, ppm)]) hrest hnodup.2 fun i hi =>
          ⟨(hfreshRest i hi).1, hlookup scout ppm i hi (hfreshRest i hi).2⟩
        simp [metricsFromEvidence, readMetric_document, hvalue, hcode, hscout, hnext, valuesOf,
          hnot]

/-- What the verification reads in the metrics of an output are its metrics. -/
theorem metricsFromEvidence_output (producer : MarketMetricProducer) (metricInput : MetricInput) :
    metricsFromEvidence ((producer.evaluate metricInput).values.map MetricValue.document) [] [] =
      some ((producer.evaluate metricInput).guardianMetrics,
        (producer.evaluate metricInput).scoutMetrics) := by
  rw [metricsFromEvidence_documents]
  · rfl
  · intro item hitem
    obtain ⟨code, hcode, rfl⟩ := List.mem_map.mp hitem
    exact mem_allCodes.mp hcode
  · rw [MarketMetricProducer.evaluate, List.map_map]
    simpa [Function.comp_def] using nodup_allCodes
  · simp

/-! ## Facts -/

/-- The fact of a row. -/
def factOfRow (row : FactRecord) : MetricFact :=
  ⟨row.factUid, row.factCode, row.valueScaled.getD 0, row.factHash⟩

/-- The facts that are read are those of the rows, of one family and each code once. -/
theorem readFacts_eq_ok {allowed : List String} {rows : List FactRecord}
    {facts facts' : List MetricFact} (h : readFacts allowed rows facts = .ok facts')
    (hnodup : (facts.map MetricFact.code).Nodup)
    (hallowed : ∀ f ∈ facts, f.code ∈ allowed) :
    facts' = facts ++ rows.map factOfRow ∧ (facts'.map MetricFact.code).Nodup ∧
      ∀ f ∈ facts', f.code ∈ allowed := by
  induction rows generalizing facts with
  | nil =>
    obtain rfl := Except.ok.inj h
    simpa using ⟨hnodup, hallowed⟩
  | cons row rows ih =>
    simp only [readFacts] at h
    split at h
    · cases h
    · rename_i hvalid
      simp only [not_or, not_not] at hvalid
      split at h
      · cases h
      · obtain ⟨hfacts, hrest⟩ := ih h
          (by
            rw [List.map_append, List.nodup_append]
            refine ⟨hnodup, List.nodup_singleton _, ?_⟩
            rintro code hcode code' hcode' rfl
            rw [List.mem_singleton.mp hcode'] at hcode
            exact hvalid.2.2.2.2 hcode)
          (by
            intro f hf
            rcases List.mem_append.mp hf with hf | hf
            · exact hallowed f hf
            · rw [List.mem_singleton.mp hf]
              exact hvalid.1)
        refine ⟨?_, hrest⟩
        rw [hfacts, List.append_assoc]
        rfl

/-- The facts of an execution are of its family, each code once. -/
theorem metricExecutionFacts_eq_ok {db : Database} {snapshotUid : Uid} {ruleKey : String}
    {provenance : MetricProvenance} {thresholds : ThresholdSet} {allowed : List String}
    {facts : List MetricFact}
    (h : metricExecutionFacts db snapshotUid ruleKey provenance thresholds allowed = .ok facts) :
    (facts.map MetricFact.code).Nodup ∧ ∀ f ∈ facts, f.code ∈ allowed := by
  simp only [metricExecutionFacts] at h
  split at h
  · exact (readFacts_eq_ok h List.nodup_nil fun _ hf => absurd hf List.not_mem_nil).2
  · cases h

/-! ## Verified executions -/

/-- Metrics are the same when they agree on every code. -/
theorem same_iff {a b : Metrics} :
    Metrics.same a b = true ↔ ∀ code, a.lookup code = b.lookup code := by
  simp only [Metrics.same, List.all_eq_true, beq_iff_eq, List.mem_append]
  constructor
  · intro h code
    by_cases hmem : ∃ p, (p ∈ a ∨ p ∈ b) ∧ p.1 = code
    · obtain ⟨p, hp, rfl⟩ := hmem
      exact h p hp
    · have ha : a.lookup code = none := List.lookup_eq_none_iff.mpr fun p hp => by
        simpa using fun heq => hmem ⟨p, Or.inl hp, heq.symm⟩
      have hb : b.lookup code = none := List.lookup_eq_none_iff.mpr fun p hp => by
        simpa using fun heq => hmem ⟨p, Or.inr hp, heq.symm⟩
      rw [ha, hb]
  · intro h p _
    exact h p.1

/-- The parts of a lineage verification that returns. -/
theorem verifyMetricEvidenceLineage_eq_ok {db : Database} {snapshotUid : Uid}
    {provenance : MetricProvenance} {evidence : Value} {guardian scout : ThresholdSet}
    {metrics : Metrics × Metrics} :
    verifyMetricEvidenceLineage db snapshotUid provenance evidence guardian scout = .ok metrics ↔
      evidence.get? "schema_version" = some (.int 2) ∧
      (∃ expected, expectedLineage db snapshotUid provenance = .ok expected ∧
        expected.all fun p => evidence.get? p.1 = some p.2) ∧
      thresholdEvidenceMatches (evidence.get? "guardian_threshold") guardian ∧
      thresholdEvidenceMatches (evidence.get? "scout_threshold") scout ∧
      ∃ fields items, evidence.get? "metric_output" = some (.obj fields) ∧
        (Value.obj fields).get? "rule_version" = some (.str provenance.producerVersion) ∧
        evidence.get? "metric_output_sha256" = some (.str (canonicalHash (.obj fields))) ∧
        (Value.obj fields).get? "metrics" = some (.arr items) ∧
        metricsFromEvidence items [] [] = some metrics := by
  simp only [verifyMetricEvidenceLineage, except_bind_eq_ok, check_eq_ok, exists_const]
  constructor
  · rintro ⟨hschema, expected, hexpected, hall, hguardian, hscout, h⟩
    refine ⟨hschema, ⟨expected, hexpected, hall⟩, hguardian, hscout, ?_⟩
    split at h
    · rename_i fields houtput
      simp only [except_bind_eq_ok, check_eq_ok, exists_const] at h
      obtain ⟨⟨hversion, hhash⟩, h⟩ := h
      split at h
      · rename_i items hitems
        split at h
        · rename_i found hfound
          obtain rfl := Except.ok.inj h
          exact ⟨fields, items, houtput, hversion, hhash, hitems, hfound⟩
        · cases h
      · cases h
    · cases h
  · rintro ⟨hschema, ⟨expected, hexpected, hall⟩, hguardian, hscout, fields, items, houtput,
      hversion, hhash, hitems, hmetrics⟩
    refine ⟨hschema, expected, hexpected, hall, hguardian, hscout, ?_⟩
    simp only [houtput, hversion, hhash, hitems, hmetrics, and_self, except_bind_eq_ok,
      check_eq_ok, exists_const, true_and]
    rfl

/-- The metrics of an output are in its document. -/
theorem get?_metrics (producer : MarketMetricProducer) (metricInput : MetricInput) :
    (Json.sortKeys (producer.evaluate metricInput).evidence).get? "metrics" =
      some (.arr ((producer.evaluate metricInput).values.map MetricValue.document)) := by
  have hitems : ∀ values : List MetricValue, Json.sortItems (values.map MetricValue.document) =
      values.map MetricValue.document := by
    intro values
    induction values with
    | nil => rfl
    | cons item values ih =>
      rw [List.map_cons, Json.sortItems, sortKeys_metricDocument, ih]
  rw [MarketMetricProducer.evaluate, Json.get?_sortKeys (by simp)]
  simp [List.lookup_cons, Json.sortKeys, hitems, -List.map_map]

end MarketMonitor
