import MarketMonitor.Analysis.MetricRecording

/-!
# A risk that recurs

Snapshots of a sector whose metrics are recorded, and the runs that commit them. In the run of
the last section a risk is found, is gone, and is found again.
-/

namespace MarketMonitor

open Transaction Keyed View

/-! ## Recorded scenes -/

/-- A sealed snapshot of the sector with the metrics of the Guardian. -/
structure Scene where
  snapshotUid : Uid
  asOfTime : Instant
  metricInput : MetricInput
  metrics : Metrics
  output : (MarketMetricProducer.current.evaluate metricInput).guardianMetrics = metrics ∧
    (MarketMetricProducer.current.evaluate metricInput).scoutMetrics = []
  recordable : Recordable guardianCodes metrics
  sorted : metrics.Pairwise fun v w => v.1 ≤ w.1
  valid : validateMetrics metrics guardianCodes = .ok ()

namespace Scene

variable (scene : Scene)

def snapshot : EvaluationSnapshot := sampleSnapshot scene.snapshotUid scene.asOfTime

/-- The evidence of the scene. -/
def evidence : Json.Value :=
  evidenceDocument (sampleLineage scene.snapshot)
    (MarketMetricProducer.current.evaluate scene.metricInput) 2 (.obj [])
    (sampleThresholds .guardian) (sampleThresholds .scout) "cycle"

/-- The execution that records the metrics of a family. -/
def execution (family : ThresholdFamily) : MetricExecution :=
  { sampleExecution scene.snapshot family with
    evidenceSha256 := some (canonicalHash scene.evidence) }

def values : ThresholdFamily → Metrics
  | .guardian => scene.metrics
  | .scout => []

def executionRow (family : ThresholdFamily) : RuleExecution :=
  (scene.execution family).row (sampleExecutionUid scene.snapshot family) (scene.values family)

def factRows : List FactRecord :=
  scene.metrics.map fun value =>
    (scene.execution .guardian).factRow (sampleExecutionUid scene.snapshot .guardian)
      (scene.snapshotUid ++ "-" ++ value.1) value

/-- The facts of the scene, as the commit reads them. -/
def facts : List MetricFact :=
  scene.metrics.map fun value =>
    (scene.execution .guardian).fact (scene.snapshotUid ++ "-" ++ value.1) value

/-- The request that commits the scene. -/
def request (version : ℕ) : AnalysisCommitRequest :=
  { sampleRequest scene.snapshot version with
    guardianMetrics := scene.metrics
    metricProvenance := some ⟨"cr004-market-metrics-v2", canonicalHash scene.evidence⟩ }

/-- What the commit of the scene verifies. -/
def verified : VerifiedRequest where
  channels := [.inApp]
  provenance := ⟨"cr004-market-metrics-v2", canonicalHash scene.evidence⟩
  guardianThresholds := sampleThresholds .guardian
  scoutThresholds := sampleThresholds .scout
  execution := ⟨scene.facts, []⟩

/-- The evidence of the scene in the artifact directory. -/
def files : ArtifactFiles := fun digest =>
  if digest = canonicalHash scene.evidence then some (Json.canonicalBytes scene.evidence) else none

end Scene

/-- The metrics of some scenes are recorded, and nothing is committed. -/
def scenesDatabase (scenes : List Scene) : Database :=
  { sampleDatabase with
    evidence := { sampleDatabase.evidence with
      evaluationSnapshot := scenes.map Scene.snapshot
      ruleExecution := scenes.flatMap fun s => [s.executionRow .guardian, s.executionRow .scout]
      factRecord := scenes.flatMap Scene.factRows }
    artifacts := { sampleDatabase.artifacts with
      artifactObject := scenes.map fun s => sampleArtifact s.evidence } }

section Scenes

variable {scenes : List Scene} (hunique : (scenes.map Scene.snapshotUid).Nodup)

include hunique

/-- What belongs to one of the scenes. -/
theorem flatMap_scene {α : Type} {scene : Scene} (hscene : scene ∈ scenes) (f : Scene → List α)
    {p : α → Bool} (hp : ∀ s, ∀ a ∈ f s, p a = true → s.snapshotUid = scene.snapshotUid) :
    (scenes.flatMap f).filter p = (f scene).filter p := by
  rw [List.filter_flatMap]
  have hother : ∀ s, s.snapshotUid ≠ scene.snapshotUid → (f s).filter p = [] := fun s hne =>
    List.filter_eq_nil_iff.mpr fun a ha hpa => hne (hp s a ha hpa)
  have hflat : ∀ l : List Scene, l.flatMap (fun s => (f s).filter p) =
      (l.filter fun s => s.snapshotUid = scene.snapshotUid).flatMap fun s => (f s).filter p := by
    intro l
    induction l with
    | nil => rfl
    | cons s l ih =>
      by_cases hs : s.snapshotUid = scene.snapshotUid
      · simp [hs, ih]
      · simp [hs, hother s hs, ih]
  rw [hflat, filter_eq_toList_lookupBy hunique, lookupBy_of_mem hunique hscene, Option.toList_some,
    List.flatMap_singleton]

variable {scene : Scene} (hscene : scene ∈ scenes)

include hscene

/-- The execution of a scene is found by its keys. -/
theorem ruleExecution_scene (family : ThresholdFamily) :
    ((scenesDatabase scenes).evidence.ruleExecution.filter fun r =>
      r.snapshotUid = scene.snapshot.snapshotUid ∧ r.ruleKey = (scene.execution family).ruleKey ∧
      r.ruleVersion = (scene.execution family).producerVersion ∧
      r.thresholdVersionUid = some (sampleThresholds family).uid ∧ r.validationStatus = .valid ∧
      r.outputHash = canonicalHash scene.evidence) = [scene.executionRow family] := by
  have hflat := flatMap_scene hunique hscene
    (fun s => [s.executionRow .guardian, s.executionRow .scout])
    (p := fun r => r.snapshotUid = scene.snapshot.snapshotUid ∧
      r.ruleKey = (scene.execution family).ruleKey ∧
      r.ruleVersion = (scene.execution family).producerVersion ∧
      r.thresholdVersionUid = some (sampleThresholds family).uid ∧ r.validationStatus = .valid ∧
      r.outputHash = canonicalHash scene.evidence) (by
    intro s r hr hp
    rw [decide_eq_true_eq] at hp
    have hsnapshot : r.snapshotUid = s.snapshotUid := by
      rcases List.mem_cons.mp hr with rfl | hr
      · rfl
      · rw [List.mem_singleton.mp hr]
        rfl
    exact hsnapshot.symm.trans hp.1)
  refine hflat.trans ?_
  have hkeep : ∀ f, (scene.executionRow f).outputHash = canonicalHash scene.evidence := by
    intro f
    have hsome : (scene.execution f).evidenceSha256 = some (canonicalHash scene.evidence) := rfl
    rw [Scene.executionRow, (scene.execution f).row_outputHash, hsome, Option.getD_some]
  have hthreshold : ∀ f, (scene.executionRow f).thresholdVersionUid =
      some (sampleThresholds f).uid := fun _ => rfl
  have hne : (sampleThresholds .guardian).uid ≠ (sampleThresholds .scout).uid := by decide
  cases family with
  | guardian =>
    rw [List.filter_cons_of_pos, List.filter_cons_of_neg, List.filter_nil]
    · rw [decide_eq_true_eq, hthreshold]
      exact fun h => hne (Option.some.inj h.2.2.2.1).symm
    · rw [decide_eq_true_eq]
      exact ⟨rfl, rfl, rfl, rfl, rfl, hkeep .guardian⟩
  | scout =>
    rw [List.filter_cons_of_neg, List.filter_cons_of_pos, List.filter_nil]
    · rw [decide_eq_true_eq]
      exact ⟨rfl, rfl, rfl, rfl, rfl, hkeep .scout⟩
    · rw [decide_eq_true_eq, hthreshold]
      exact fun h => hne (Option.some.inj h.2.2.2.1)

/-- So are its facts. -/
theorem factRecord_scene (family : ThresholdFamily) :
    ((scenesDatabase scenes).evidence.factRecord.filter fun f =>
      f.producerRuleExecutionUid = sampleExecutionUid scene.snapshot family ∧
        f.snapshotUid = scene.snapshot.snapshotUid) =
      (scene.values family).map fun value => (scene.execution family).factRow
        (sampleExecutionUid scene.snapshot family) (scene.snapshotUid ++ "-" ++ value.1) value := by
  have hrows : ∀ s : Scene, ∀ f ∈ s.factRows,
      f.producerRuleExecutionUid = sampleExecutionUid s.snapshot .guardian ∧
        f.snapshotUid = s.snapshotUid := by
    rintro s f hf
    obtain ⟨v, -, rfl⟩ := List.mem_map.mp hf
    exact ⟨rfl, rfl⟩
  have hflat := flatMap_scene hunique hscene Scene.factRows
    (p := fun f => f.producerRuleExecutionUid = sampleExecutionUid scene.snapshot family ∧
      f.snapshotUid = scene.snapshot.snapshotUid) (by
    intro s f hf hp
    rw [decide_eq_true_eq] at hp
    exact (hrows s f hf).2.symm.trans hp.2)
  refine hflat.trans ?_
  cases family with
  | guardian =>
    refine List.filter_eq_self.mpr fun f hf => decide_eq_true ?_
    exact hrows scene f hf
  | scout =>
    refine List.filter_eq_nil_iff.mpr fun f hf hp => ?_
    rw [decide_eq_true_eq, (hrows scene f hf).1] at hp
    have hsuffix := congrArg String.toList hp.1
    simp [sampleExecutionUid, ThresholdFamily.text] at hsuffix

/-- The commit verifies the request of a recorded scene. -/
theorem verifyRequest_scene (t : AnalysisTables) (version : ℕ) :
    verifyRequest { scenesDatabase scenes with analysis := t } scene.files
      (scene.request version) = .ok scene.verified := by
  have hlookup : lookupBy EvaluationSnapshot.snapshotUid scene.snapshotUid
      (scenes.map Scene.snapshot) = some scene.snapshot := by
    refine lookupBy_of_mem (r := scene.snapshot) ?_ (List.mem_map_of_mem hscene)
    rw [List.map_map]
    exact hunique
  have hlineage : snapshotLineage { scenesDatabase scenes with analysis := t }
      scene.snapshotUid = some (sampleLineage scene.snapshot) := by
    unfold snapshotLineage
    simp only [scenesDatabase, hlookup, Option.bind_eq_bind, Option.bind_some]
    rfl
  have hofficial : officialThresholds { scenesDatabase scenes with analysis := t }
      scene.snapshotUid = .ok (sampleThresholds .guardian, sampleThresholds .scout) := by
    unfold officialThresholds
    simp only [scenesDatabase, hlookup]
    have hthresholds : sampleDatabase.thresholds = sampleThresholdTables := rfl
    rw [if_neg (by simp [Scene.snapshot, sampleSnapshot]),
      if_neg (by simp [Scene.snapshot, sampleSnapshot]), hthresholds, resolveOfficial_sample,
      resolveOfficial_sample]
  have hregistered : ∃ a ∈ (scenesDatabase scenes).artifacts.artifactObject,
      a.sha256 = canonicalHash scene.evidence :=
    ⟨_, List.mem_map_of_mem hscene, rfl⟩
  have hguardian : metricExecutionFacts { scenesDatabase scenes with analysis := t }
      scene.snapshotUid "CR004_GUARDIAN_METRICS" scene.verified.provenance
      (sampleThresholds .guardian) guardianCodes = .ok scene.facts :=
    (scene.execution .guardian).metricExecutionFacts_eq_ok scene.recordable
      (ruleExecution_scene hunique hscene .guardian) (factRecord_scene hunique hscene .guardian)
      scene.sorted
  have hnone : Recordable scoutCodes [] := ⟨by decide, by decide, by decide⟩
  have hscout : metricExecutionFacts { scenesDatabase scenes with analysis := t }
      scene.snapshotUid "CR004_SCOUT_METRICS" scene.verified.provenance
      (sampleThresholds .scout) scoutCodes = .ok [] :=
    (scene.execution .scout).metricExecutionFacts_eq_ok hnone
      (ruleExecution_scene hunique hscene .scout) (factRecord_scene hunique hscene .scout)
      List.Pairwise.nil
  have hvalid : validateRequest (scene.request version) =
      .ok ([.inApp], scene.verified.provenance) := by
    have hdigest : blank (canonicalHash scene.evidence) = false :=
      not_blank_of_isDigest (canonicalHash_isDigest _)
    have hproducer : blank "cr004-market-metrics-v2" = false := by decide
    have hchannels : requestedChannels ["IN_APP"] = ["IN_APP"] := by decide
    have hnone : validateMetrics [] scoutCodes = .ok () := by decide
    have hchannel : Channel.ofText? "IN_APP" = some .inApp := by decide
    simp [validateRequest, Scene.request, sampleRequest, Scene.verified, hdigest, hproducer,
      hchannels, scene.valid, hnone, hchannel, check]
    rfl
  have hfacts : factMetrics scene.facts = scene.metrics := by
    rw [factMetrics, Scene.facts, List.map_map]
    exact List.map_id _
  have hdocument : scene.evidence = evidenceDocument (sampleLineage scene.snapshot)
      (MarketMetricProducer.current.evaluate scene.metricInput) 2 (.obj [])
      (sampleThresholds .guardian) (sampleThresholds .scout) "cycle" := rfl
  exact verifyRequest_of_recorded hdocument hlineage
    (Json.Plain.obj List.nodup_nil fun _ hf => absurd hf List.not_mem_nil)
    (if_pos rfl) hregistered hofficial hguardian hscout
    (by rw [hfacts, scene.output.1]; exact same_iff.mpr fun _ => rfl)
    (by rw [scene.output.2]; decide) hvalid
    ⟨scene.output.1.symm, scene.output.2.symm⟩

/-- The transaction of the commit of a scene. -/
def commitScene (scenes : List Scene) (scene : Scene) (version : ℕ) :
    AnalysisCommand AnalysisCommitResult := do
  let t : AnalysisTables ← get
  commitCommand { scenesDatabase scenes with analysis := t } (sampleUidsOf scene.snapshot)
    (scene.request version) scene.verified

omit hunique hscene in
theorem run_commitScene (scenes : List Scene) (scene : Scene) (version : ℕ)
    (t : AnalysisTables) : (commitScene scenes scene version).run t =
      (commitCommand { scenesDatabase scenes with analysis := t } (sampleUidsOf scene.snapshot)
        (scene.request version) scene.verified).run t :=
  run_bind_of_ok (run_get t)

/-- The commit of a scene returns what its transaction returns. -/
theorem commit_scene {t t' : AnalysisTables} {version : ℕ} {result : AnalysisCommitResult}
    (h : t.ProjectionsUnique) (hrun : (commitScene scenes scene version).run t = .ok result t') :
    existingCommit t scene.snapshotUid = none ∧
      (commit scene.files (sampleUidsOf scene.snapshot) (scene.request version)).run
        { scenesDatabase scenes with analysis := t } =
          .ok result { scenesDatabase scenes with analysis := t' } := by
  rw [run_commitScene] at hrun
  obtain ⟨course, -⟩ := commitCommand_ok h hrun
  have hexisting := course.existingCommit_eq_none
  refine ⟨hexisting, ?_⟩
  rw [@commit_of_new scene.files (sampleUidsOf scene.snapshot) _ _ _
    (verifyRequest_scene hunique hscene t version) hexisting, submit_of_ok hrun]

/-- The commit of a scene is a step. -/
theorem step_scene {allowed : Database → AnalysisCommitRequest → Prop} {t t' : AnalysisTables}
    {version : ℕ} {result : AnalysisCommitResult} (h : t.ProjectionsUnique)
    (hallowed : allowed { scenesDatabase scenes with analysis := t } (scene.request version))
    (hrun : (commitScene scenes scene version).run t = .ok result t') :
    Step allowed { scenesDatabase scenes with analysis := t }
      { scenesDatabase scenes with analysis := t' } := by
  have hstep : Step allowed { scenesDatabase scenes with analysis := t } _ :=
    .attempt _ scene.files (sampleUidsOf scene.snapshot) (scene.request version) hallowed
  rw [(commit_scene hunique hscene h hrun).2] at hstep
  exact hstep

end Scenes

/-- Five minutes after the opening too few metrics are there, which is a risk. -/
def openingScene (snapshotUid : Uid) (asOfTime : Instant) : Scene where
  snapshotUid := snapshotUid
  asOfTime := asOfTime
  metricInput := openingInput
  metrics := openingMetrics
  output := openingOutput_metrics
  recordable := recordable_openingMetrics
  sorted := by decide
  valid := by decide

def lowMetrics : Metrics :=
  [("BREADTH_COLLAPSE_PPM", 0), ("CORE_WEAKENING_PPM", 0), ("CROWDING_PPM", 0),
    ("EARLY_SIGNAL_FAILURE_PPM", 0), ("HEAD_CONCENTRATION_PPM", 0),
    ("INTERNAL_DIVERGENCE_PPM", 0), ("LIQUIDITY_WEAKENING_PPM", 0), ("RISE_RATE_PPM", 0),
    ("STAMPEDE_RISK_PPM", 0), ("T1_CHASING_RISK_PPM", 0)]

/-- Later the sector is quiet. -/
def quietScene (snapshotUid : Uid) (asOfTime : Instant) : Scene where
  snapshotUid := snapshotUid
  asOfTime := asOfTime
  metricInput := sampleInput (some sampleEarly) true
  metrics := lowMetrics
  output := by decide +kernel
  recordable := ⟨by decide, by decide, by decide⟩
  sorted := by decide
  valid := by decide

/-! ## A risk, no risk, and the risk again -/

/-- The risk. -/
def firstScene : Scene := openingScene "snapshot-1" 63902741700000000

/-- Five minutes later there is none. -/
def secondScene : Scene := quietScene "snapshot-2" 63902742000000000

/-- The risk again. -/
def thirdScene : Scene := openingScene "snapshot-3" 63902742300000000

def recurringScenes : List Scene := [firstScene, secondScene, thirdScene]

theorem recurringScenes_unique : (recurringScenes.map Scene.snapshotUid).Nodup := by decide

/-- The commits of the three scenes, with the tables between them. -/
def recurringCommits : AnalysisCommand (AnalysisTables × AnalysisTables) := do
  let _ ← commitScene recurringScenes firstScene 0
  let first : AnalysisTables ← get
  let _ ← commitScene recurringScenes secondScene 1
  let second : AnalysisTables ← get
  let _ ← commitScene recurringScenes thirdScene 2
  return (first, second)

/-! ### The hashes of the scenes

They are long to compute, and the commits compare them with those of the rows that are there.
-/

/-- The hash of the evidence of a scene, and those of its facts. -/
structure SceneHashes where
  evidence : String
  facts : List String

def Scene.executionBy (scene : Scene) (sha256 : String) : MetricExecution :=
  { sampleExecution scene.snapshot .guardian with evidenceSha256 := some sha256 }

def Scene.Hashed (scene : Scene) (hashes : SceneHashes) : Prop :=
  canonicalHash scene.evidence = hashes.evidence ∧
    (scene.metrics.map fun value =>
      (scene.executionBy hashes.evidence).factHash value.1 value.2) = hashes.facts

/-- What the commit of a scene verifies, from the hashes. -/
def Scene.verifiedBy (scene : Scene) (hashes : SceneHashes) : VerifiedRequest where
  channels := [.inApp]
  provenance := ⟨"cr004-market-metrics-v2", hashes.evidence⟩
  guardianThresholds := sampleThresholds .guardian
  scoutThresholds := sampleThresholds .scout
  execution := ⟨(scene.metrics.zip hashes.facts).map fun x =>
    ⟨scene.snapshotUid ++ "-" ++ x.1.1, x.1.1, x.1.2, x.2⟩, []⟩

/-- `commitScene`, from the hashes. -/
def commitSceneBy (scenes : List Scene) (scene : Scene) (hashes : SceneHashes) (version : ℕ) :
    AnalysisCommand AnalysisCommitResult := do
  let t : AnalysisTables ← get
  commitCommand { scenesDatabase scenes with analysis := t } (sampleUidsOf scene.snapshot)
    { sampleRequest scene.snapshot version with
      guardianMetrics := scene.metrics
      metricProvenance := some ⟨"cr004-market-metrics-v2", hashes.evidence⟩ }
    (scene.verifiedBy hashes)

/-- The request of a scene with known hashes. -/
theorem Scene.Hashed.verified_eq {scene : Scene} {hashes : SceneHashes}
    (h : scene.Hashed hashes) : scene.verified = scene.verifiedBy hashes := by
  obtain ⟨hevidence, hfacts⟩ := h
  have hzip : scene.metrics.zip hashes.facts = scene.metrics.map fun value =>
      (value, (scene.executionBy hashes.evidence).factHash value.1 value.2) := by
    rw [← hfacts]
    simpa using List.zip_map' (f := id) (g := fun value =>
      (scene.executionBy hashes.evidence).factHash value.1 value.2) (l := scene.metrics)
  rw [Scene.verified, Scene.verifiedBy, hzip, List.map_map, hevidence, Scene.facts,
    Scene.execution, hevidence]
  rfl

theorem Scene.Hashed.commitScene_eq {scene : Scene} {hashes : SceneHashes}
    (h : scene.Hashed hashes) (scenes : List Scene) (version : ℕ) :
    commitScene scenes scene version = commitSceneBy scenes scene hashes version := by
  rw [commitScene, commitSceneBy, h.verified_eq, Scene.request, h.1]

def firstHashes : SceneHashes where
  evidence := "0c5d8d010a324f3e2a499c27a393543319a35e5912c26c6d89ba3c7b8f47d5c8"
  facts := ["8cf3f71cd41a442e471c01f4dfa8cde63f92e5799120b8211b392611042bf5e5",
    "cd6f725f0e9cf2312b22c50382ad5d8afcdf9611716fdcdcd648122e3c557b87",
    "066d452059d403e520513df311f4de3067e7aad7abb0d4b242971396983b3e37"]

def secondHashes : SceneHashes where
  evidence := "af947d24b9368e442767808d7478299aea8021a5549333eddb34f98700399c32"
  facts := ["426b1bd2820516e1962f2d450b600d5158e1ab809c6d845392ef2b1f3ba87fe5",
    "ad5d50a962cc2349c207076fbf707f1b736381d673334e53ca61e984a21a3150",
    "bf8b192a2db3067d88b39de31ec570c237933e796bb433f46963f2f1450f5c11",
    "e4057ed5992426ae94010e457cbc374bf2af88aa72c75bb2fbb943d1d531b3c8",
    "8e999f3075b624b85b289b295ab536599f22313dfa06803ae3366038a4ce23c9",
    "2a80412c0cef2cfeb230bfa111e226a1cbe1b197246f20076ab2c0139a4199c6",
    "a740688fc8428b35334605f9946acdf3d5f400a735efbb066edd750b88831a86",
    "438bd1fff3a39b0c04d8fb69c3c336052eea3c261a109c1d867e0bcfa79cc689",
    "c5d554ddec3bc29255b0df08fd6ea74df8d7cf52d85839f94256010cb93c9a1d",
    "12564c1430b74f48ca3a50f7d4a50aa110fe3fef2df9b3f91ba976e97348f2b2"]

def thirdHashes : SceneHashes where
  evidence := "aaf8e4c1eeb37d09752c8e669b760f33314911e805712b5bbd6494719e7bfc22"
  facts := ["c9d75a206aa822058d95308f291feeebe6a14080f679aad6b1d1e9877cb92e9f",
    "c3dc8e4c01470ea5721b19395c52592f82d0c0aacb587320b310520558fd75a3",
    "0d2b0a4c215d47c79ebde222f0f602bf2f1a077799f8a8399f55131bcac86d6d"]

theorem hashed_openingScenes : firstScene.Hashed firstHashes ∧ thirdScene.Hashed thirdHashes := by
  refine ⟨⟨?_, ?_⟩, ?_, ?_⟩ <;> decide +kernel

theorem hashed_quietScene : secondScene.Hashed secondHashes := by
  refine ⟨?_, ?_⟩ <;> decide +kernel

theorem recurringCommits_eq : recurringCommits = (do
    let _ ← commitSceneBy recurringScenes firstScene firstHashes 0
    let first : AnalysisTables ← get
    let _ ← commitSceneBy recurringScenes secondScene secondHashes 1
    let second : AnalysisTables ← get
    let _ ← commitSceneBy recurringScenes thirdScene thirdHashes 2
    return (first, second)) := by
  obtain ⟨hfirst, hthird⟩ := hashed_openingScenes
  rw [recurringCommits, hfirst.commitScene_eq, hashed_quietScene.commitScene_eq,
    hthird.commitScene_eq]

/-- The tables after each commit. -/
def stagesOf : EStateM.Result Exn AnalysisTables (AnalysisTables × AnalysisTables) →
    Option (AnalysisTables × AnalysisTables × AnalysisTables)
  | .ok stages t => some (stages.1, stages.2, t)
  | .error .. => none

theorem stagesOf_eq_some {r : EStateM.Result Exn AnalysisTables (AnalysisTables × AnalysisTables)}
    {first second t : AnalysisTables} :
    stagesOf r = some (first, second, t) ↔ r = .ok (first, second) t := by
  cases r with
  | error e t => simp [stagesOf]
  | ok stages t => simp [stagesOf, Prod.ext_iff, and_assoc]

def recurringStages : Option (AnalysisTables × AnalysisTables × AnalysisTables) :=
  stagesOf (recurringCommits.run .empty)

/-- What the runs below read of the tables. -/
structure Outline where
  projections : List (Uid × Instant × ℕ)
  commits : List (Uid × Instant)
  subjects : List Uid
  events : List (Uid × Uid × EventKind)
  versions : List EventStatus
  deliveries : List DeliveryStatus
  currentEvents : List (Uid × Instant)
  deriving DecidableEq

def AnalysisTables.outline (t : AnalysisTables) : Outline where
  projections := t.currentStateProjection.map fun p => (p.subjectUid, p.asOfTime, p.version)
  commits := t.committedEvaluations.map fun p => (p.2.subjectUid, p.1.committedAt)
  subjects := t.stateEvaluation.map StateEvaluation.subjectUid
  events := t.marketEvent.map fun e => (e.eventUid, e.subjectUid, e.eventKind)
  versions := t.eventVersion.map EventVersion.eventStatus
  deliveries := t.notificationDeliveryState.map NotificationDeliveryState.deliveryStatus
  currentEvents := t.currentEventProjection.map fun p => (p.eventUid, p.updatedAt)

/-- `outline`, column by column. -/
structure AnalysisTables.Shows (t : AnalysisTables) (o : Outline) : Prop where
  projections : t.currentStateProjection.map (fun p => (p.subjectUid, p.asOfTime, p.version)) =
    o.projections
  commits : t.committedEvaluations.map (fun p => (p.2.subjectUid, p.1.committedAt)) = o.commits
  subjects : t.stateEvaluation.map StateEvaluation.subjectUid = o.subjects
  events : t.marketEvent.map (fun e => (e.eventUid, e.subjectUid, e.eventKind)) = o.events
  versions : t.eventVersion.map EventVersion.eventStatus = o.versions
  deliveries : t.notificationDeliveryState.map NotificationDeliveryState.deliveryStatus =
    o.deliveries
  currentEvents : t.currentEventProjection.map (fun p => (p.eventUid, p.updatedAt)) =
    o.currentEvents

theorem AnalysisTables.Shows.of_eq {t : AnalysisTables} {o : Outline} (h : t.outline = o) :
    t.Shows o := by
  subst h
  exact ⟨rfl, rfl, rfl, rfl, rfl, rfl, rfl⟩

def firstOutline : Outline where
  projections := [("sector", 63902741700000000, 1)]
  commits := [("sector", 63902741700000000)]
  subjects := ["sector"]
  events := [("snapshot-1-event-GUARDIAN_RISK", "sector", .guardianRisk)]
  versions := [.active]
  deliveries := [.pending]
  currentEvents := [("snapshot-1-event-GUARDIAN_RISK", 63902741700000000)]

def secondOutline : Outline where
  projections := [("sector", 63902742000000000, 2)]
  commits := [("sector", 63902741700000000), ("sector", 63902742000000000)]
  subjects := ["sector", "sector"]
  events := [("snapshot-1-event-GUARDIAN_RISK", "sector", .guardianRisk)]
  versions := [.active, .resolved]
  deliveries := [.pending, .pending]
  currentEvents := [("snapshot-1-event-GUARDIAN_RISK", 63902742000000000)]

def thirdOutline : Outline where
  projections := [("sector", 63902742300000000, 3)]
  commits := [("sector", 63902741700000000), ("sector", 63902742000000000),
    ("sector", 63902742300000000)]
  subjects := ["sector", "sector", "sector"]
  events := [("snapshot-1-event-GUARDIAN_RISK", "sector", .guardianRisk),
    ("snapshot-3-event-GUARDIAN_RISK", "sector", .guardianRisk)]
  versions := [.active, .resolved, .active]
  deliveries := [.pending, .pending, .pending]
  currentEvents := [("snapshot-3-event-GUARDIAN_RISK", 63902742300000000)]

theorem recurringStages_outline :
    recurringStages.map (fun s => (s.1.outline, s.2.1.outline, s.2.2.outline)) =
      some (firstOutline, secondOutline, thirdOutline) := by
  rw [recurringStages, recurringCommits_eq]
  decide +kernel

def firstTables : AnalysisTables := (recurringStages.map fun s => s.1).getD .empty

def secondTables : AnalysisTables := (recurringStages.map fun s => s.2.1).getD .empty

def recurringTables : AnalysisTables := (recurringStages.map fun s => s.2.2).getD .empty

/-- The three commits return, and show what is expected. -/
theorem recurringStages_eq : recurringStages = some (firstTables, secondTables, recurringTables) ∧
    firstTables.Shows firstOutline ∧ secondTables.Shows secondOutline ∧
    recurringTables.Shows thirdOutline := by
  have houtline := recurringStages_outline
  rw [firstTables, secondTables, recurringTables]
  generalize recurringStages = stages at houtline ⊢
  cases stages with
  | none => cases houtline
  | some stages =>
    simp only [Option.map_some, Option.some.injEq, Prod.mk.injEq] at houtline
    exact ⟨rfl, .of_eq houtline.1, .of_eq houtline.2.1, .of_eq houtline.2.2⟩

theorem run_recurringCommits {t first second t' : AnalysisTables}
    (h : recurringCommits.run t = .ok (first, second) t') :
    (∃ result, (commitScene recurringScenes firstScene 0).run t = .ok result first) ∧
    (∃ result, (commitScene recurringScenes secondScene 1).run first = .ok result second) ∧
    ∃ result, (commitScene recurringScenes thirdScene 2).run second = .ok result t' := by
  simp only [recurringCommits, run_bind_eq_ok, run_pure_eq_ok, run_get_eq_ok, Prod.mk.injEq] at h
  obtain ⟨result₁, _, h₁, _, _, ⟨rfl, rfl⟩, result₂, _, h₂, _, _, ⟨rfl, rfl⟩, result₃, _, h₃,
    ⟨rfl, rfl⟩, rfl⟩ := h
  exact ⟨⟨result₁, h₁⟩, ⟨result₂, h₂⟩, result₃, h₃⟩

/-- Each commit returns. -/
theorem recurringCommits_ok :
    (∃ result, (commitScene recurringScenes firstScene 0).run .empty = .ok result firstTables) ∧
    (∃ result, (commitScene recurringScenes secondScene 1).run firstTables =
      .ok result secondTables) ∧
    ∃ result, (commitScene recurringScenes thirdScene 2).run secondTables =
      .ok result recurringTables := by
  have hstages := recurringStages_eq.1
  rw [recurringStages] at hstages
  exact run_recurringCommits (stagesOf_eq_some.mp hstages)

attribute [irreducible] recurringStages firstTables secondTables recurringTables

/-- The database of the scenes with the tables of some of their commits. -/
def recurringAt (t : AnalysisTables) : Database :=
  { scenesDatabase recurringScenes with analysis := t }

theorem analysis_recurringAt (t : AnalysisTables) : (recurringAt t).analysis = t := rfl

/-- The database after the three commits. -/
def recurringDatabase : Database := recurringAt recurringTables

theorem analysis_recurringDatabase : recurringDatabase.analysis = recurringTables :=
  analysis_recurringAt recurringTables

/-- Each of the tables has one projection of the subject. -/
theorem projectionsUnique_recurring :
    firstTables.ProjectionsUnique ∧ secondTables.ProjectionsUnique := by
  obtain ⟨⟨_, hfirst⟩, ⟨_, hsecond⟩, -⟩ := recurringCommits_ok
  have hstep : Step anyRequest (recurringAt .empty) (recurringAt firstTables) :=
    step_scene recurringScenes_unique List.mem_cons_self List.nodup_nil trivial hfirst
  have hempty : (recurringAt .empty).analysis.ProjectionsUnique := List.nodup_nil
  have hunique : (recurringAt firstTables).analysis.ProjectionsUnique :=
    hstep.projectionsUnique hempty
  have hstep' : Step anyRequest (recurringAt firstTables) (recurringAt secondTables) :=
    step_scene recurringScenes_unique (List.mem_cons_of_mem _ List.mem_cons_self) hunique trivial
      hsecond
  exact ⟨hunique, hstep'.projectionsUnique hunique⟩

/-- The commits of the scenes are steps. -/
theorem recurring_steps {allowed : Database → AnalysisCommitRequest → Prop}
    (hallowed : allowed (recurringAt .empty) (firstScene.request 0) ∧
      allowed (recurringAt firstTables) (secondScene.request 1) ∧
      allowed (recurringAt secondTables) (thirdScene.request 2)) :
    Step allowed (recurringAt .empty) (recurringAt firstTables) ∧
      Step allowed (recurringAt firstTables) (recurringAt secondTables) ∧
      Step allowed (recurringAt secondTables) recurringDatabase := by
  obtain ⟨⟨_, hfirst⟩, ⟨_, hsecond⟩, _, hthird⟩ := recurringCommits_ok
  obtain ⟨hunique, hunique'⟩ := projectionsUnique_recurring
  exact ⟨step_scene recurringScenes_unique List.mem_cons_self List.nodup_nil hallowed.1 hfirst,
    step_scene recurringScenes_unique (List.mem_cons_of_mem _ List.mem_cons_self) hunique
      hallowed.2.1 hsecond,
    step_scene recurringScenes_unique
      (List.mem_cons_of_mem _ (List.mem_cons_of_mem _ List.mem_cons_self)) hunique'
      hallowed.2.2 hthird⟩

theorem reachable_recurring : Reachable anyRequest (recurringAt secondTables) ∧
    Reachable anyRequest recurringDatabase := by
  obtain ⟨hfirst, hsecond, hthird⟩ := @recurring_steps anyRequest ⟨trivial, trivial, trivial⟩
  have hreach : Reachable anyRequest (recurringAt secondTables) :=
    ⟨recurringAt .empty, rfl, (Relation.ReflTransGen.single hfirst).tail hsecond⟩
  exact ⟨hreach, hreach.imp fun _ h => ⟨h.1, h.2.tail hthird⟩⟩

/-- The third commit returns, and its snapshot had none before. -/
theorem commit_thirdScene :
    existingCommit secondTables thirdScene.snapshotUid = none ∧ ∃ result,
      (commit thirdScene.files (sampleUidsOf thirdScene.snapshot) (thirdScene.request 2)).run
        (recurringAt secondTables) = .ok result recurringDatabase := by
  obtain ⟨-, -, result, hthird⟩ := recurringCommits_ok
  obtain ⟨hexisting, hrun⟩ := commit_scene recurringScenes_unique
    (List.mem_cons_of_mem _ (List.mem_cons_of_mem _ List.mem_cons_self))
    projectionsUnique_recurring.2 hthird
  exact ⟨hexisting, result, hrun⟩

/-! ### What the tables show -/

namespace AnalysisTables.Shows

variable {t : AnalysisTables} {o : Outline}

theorem projection (h : t.Shows o) {subjectUid : Uid} {asOfTime : Instant} {version : ℕ}
    (ho : o.projections = [(subjectUid, asOfTime, version)]) :
    ∃ p, t.projection subjectUid = some p ∧ p.asOfTime = asOfTime ∧ p.version = version := by
  obtain ⟨p, rest, hrows, hp, hrest⟩ := List.map_eq_cons_iff.mp (h.projections.trans ho)
  rw [List.map_eq_nil_iff] at hrest
  simp only [Prod.mk.injEq] at hp
  refine ⟨p, ?_, hp.2.1, hp.2.2⟩
  rw [AnalysisTables.projection, hrows, hrest]
  simp [lookupBy, hp.1]

theorem version (h : t.Shows o) {subjectUid : Uid} {asOfTime : Instant} {version : ℕ}
    (ho : o.projections = [(subjectUid, asOfTime, version)]) : t.version subjectUid = version := by
  obtain ⟨p, hp, -, hversion⟩ := h.projection ho
  rw [AnalysisTables.version, hp, Option.map_some, Option.getD_some, hversion]

end AnalysisTables.Shows

theorem relatedKey_sector_ne :
    relatedKey "sector" .guardianRisk ≠ relatedKey "sector" .scoutWatch := by
  decide +kernel

end MarketMonitor
