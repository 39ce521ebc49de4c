import Mathlib.Data.List.Dedup
import MarketMonitor.Library.Keyed
import MarketMonitor.Analysis.AnalysisCommit

/-!
# What an Analysis Commit writes

One lemma for each function of the transaction : from its return, the tables it left.
`Committed` collects them for a whole commit, and `commit_cases` says what a call of
`commit` can do to the database : nothing, or one transaction as `Committed` describes.
-/

namespace MarketMonitor

open Json (Value)
open Transaction Keyed

/-! ## Verification -/

/-- A valid request has an effective lifecycle exactly when it is available, and a list of
distinct channels. -/
theorem validateRequest_ok {request : AnalysisCommitRequest} {channels : List Channel}
    {provenance : MetricProvenance}
    (h : validateRequest request = .ok (channels, provenance)) :
    (request.availabilityState = "AVAILABLE" ↔ request.lifecycleState ≠ none) ∧
      channels = (requestedChannels request.channels).filterMap Channel.ofText? ∧
      channels.length = (requestedChannels request.channels).length ∧
      request.metricProvenance = some provenance := by
  simp only [validateRequest, except_bind_eq_ok, check_eq_ok, exists_const] at h
  obtain ⟨hstate, -, ⟨-, hlength⟩, h⟩ := h
  cases hprovenance : request.metricProvenance with
  | none =>
    rw [hprovenance] at h
    cases h
  | some found =>
    simp only [hprovenance, except_bind_eq_ok, check_eq_ok, exists_const] at h
    obtain ⟨-, _, -, _, -, h⟩ := h
    obtain ⟨rfl, rfl⟩ := Prod.mk.inj (Except.ok.inj h)
    exact ⟨hstate, rfl, hlength, rfl⟩

/-- The channels of a valid request are those it names, each once. -/
theorem channels_of_validateRequest {request : AnalysisCommitRequest} {channels : List Channel}
    {provenance : MetricProvenance} (h : validateRequest request = .ok (channels, provenance)) :
    channels.Nodup ∧ ∀ channel, channel ∈ channels ↔ channel.text ∈ request.channels := by
  obtain ⟨-, hchannels, -, -⟩ := validateRequest_ok h
  have htext : ∀ channel : Channel, Channel.ofText? channel.text = some channel := by
    rintro (_ | _) <;> decide
  have hnames : (requestedChannels request.channels).Nodup :=
    (List.perm_insertionSort _ _).nodup_iff.mpr (List.nodup_dedup _)
  constructor
  · rw [hchannels]
    refine hnames.filterMap fun text text' channel hc hc' => ?_
    rw [← text_of_ofText hc, ← text_of_ofText hc']
  · intro channel
    rw [hchannels, List.mem_filterMap]
    constructor
    · rintro ⟨text, hmem, hc⟩
      rw [text_of_ofText hc]
      simpa [requestedChannels] using hmem
    · intro hmem
      exact ⟨channel.text, by simpa [requestedChannels] using hmem, htext channel⟩

/-- The parts of a verification that returns. -/
theorem verifyRequest_eq_ok {db : Database} {files : ArtifactFiles}
    {request : AnalysisCommitRequest} {verified : VerifiedRequest} :
    verifyRequest db files request = .ok verified ↔
      validateRequest request = .ok (verified.channels, verified.provenance) ∧
      ∃ evidence, verifiedMetricProvenance db files verified.provenance = .ok evidence ∧
        officialThresholds db request.snapshotUid =
          .ok (verified.guardianThresholds, verified.scoutThresholds) ∧
        verifiedMetricExecution db request.snapshotUid verified.provenance evidence
          verified.guardianThresholds verified.scoutThresholds = .ok verified.execution ∧
        Metrics.same request.guardianMetrics (factMetrics verified.execution.guardianFacts) ∧
        Metrics.same request.scoutMetrics (factMetrics verified.execution.scoutFacts) := by
  simp only [verifyRequest, except_bind_eq_ok, check_eq_ok, exists_const, Prod.exists]
  constructor
  · rintro ⟨channels, provenance, hvalid, evidence, hevidence, guardian, scout, hthresholds,
      execution, hexecution, hguardian, hscout, h⟩
    obtain rfl := Except.ok.inj h
    exact ⟨hvalid, evidence, hevidence, hthresholds, hexecution, hguardian, hscout⟩
  · rintro ⟨hvalid, evidence, hevidence, hthresholds, hexecution, hguardian, hscout⟩
    exact ⟨_, _, hvalid, evidence, hevidence, _, _, hthresholds, _, hexecution, hguardian,
      hscout, rfl⟩

/-! ## Projections -/

/-- The lifecycle projection of a subject. -/
def AnalysisTables.projection (t : AnalysisTables) (subjectUid : Uid) : Option StateProjection :=
  lookupBy StateProjection.subjectUid subjectUid t.currentStateProjection

/-- The event projection of a related key. -/
def AnalysisTables.eventProjection (t : AnalysisTables) (key : String) : Option EventProjection :=
  lookupBy EventProjection.relatedKey key t.currentEventProjection

/-- The version of a subject, `0` before its first evaluation. -/
def AnalysisTables.version (t : AnalysisTables) (subjectUid : Uid) : ℕ :=
  ((t.projection subjectUid).map StateProjection.version).getD 0

/-- The primary key of `current_state_projection`. -/
def AnalysisTables.ProjectionsUnique (t : AnalysisTables) : Prop :=
  (t.currentStateProjection.map StateProjection.subjectUid).Nodup

/-- Under its primary key, the projection is written over the row of its subject. -/
theorem writeProjection_ok {t t' : AnalysisTables} (hunique : t.ProjectionsUnique)
    {current : Option StateProjection} {next : StateProjection} {u : Unit}
    (hcurrent : t.projection next.subjectUid = current)
    (h : (writeProjection current next).run t = .ok u t') :
    t' = { t with
      currentStateProjection :=
        upsert StateProjection.subjectUid next t.currentStateProjection } := by
  cases current with
  | none =>
    obtain ⟨-, rfl⟩ := run_insertInto_eq_ok.mp h
    rw [AnalysisTables.projection] at hcurrent
    simp only [upsert, hcurrent]
    rfl
  | some row =>
    have hsubject := key_of_lookupBy hcurrent
    have hreplace : ∀ p ∈ t.currentStateProjection,
        (if p.subjectUid = row.subjectUid ∧ p.version = row.version then next else p) =
          if p.subjectUid = next.subjectUid then next else p := by
      intro p hp
      by_cases hps : p.subjectUid = next.subjectUid
      · have hrow : p = row := by
          have := lookupBy_of_mem hunique hp
          rw [hps] at this
          exact Option.some.inj (this.symm.trans hcurrent)
        simp [hrow, hsubject]
      · simp [hps, hsubject]
    simp only [writeProjection, run_bind_eq_ok, run_get_eq_ok, run_require_eq_ok,
      run_modify_eq_ok] at h
    obtain ⟨_, _, ⟨rfl, rfl⟩, _, _, ⟨-, rfl⟩, rfl⟩ := h
    rw [AnalysisTables.projection] at hcurrent
    simp only [upsert, hcurrent, List.map_congr_left hreplace]

/-- The transition row of an evaluation, when its lifecycle differs from the previous. -/
def transitionRows (uids : CommitUids) (snapshot : CommitSnapshot)
    (previous lifecycle : Option LifecycleState) : List StateTransition :=
  match lifecycle with
  | some state =>
    if previous ≠ some state then
      [⟨uids.transition, snapshot.subjectUid, previous, state, uids.evaluation,
        snapshot.asOfTime⟩]
    else []
  | none => []

/-- The row of `state_evaluation` of a commit. -/
def evaluationRow (uids : CommitUids) (snapshot : CommitSnapshot)
    (request : AnalysisCommitRequest) (facts : List MetricFact)
    (availability : AvailabilityState) (lifecycle : Option LifecycleState) : StateEvaluation where
  evaluationUid := uids.evaluation
  snapshotUid := request.snapshotUid
  subjectUid := snapshot.subjectUid
  evaluationDisposition := .official
  availabilityState := availability
  lifecycleState := lifecycle
  evaluationHash := stateHash snapshot request facts
  createdAt := snapshot.asOfTime

/-- What a returning `_insert_state` checked and wrote. -/
structure StateInserted (uids : CommitUids) (snapshot : CommitSnapshot)
    (request : AnalysisCommitRequest) (facts : List MetricFact)
    (availability : AvailabilityState) (lifecycle : Option LifecycleState)
    (t t' : AnalysisTables) : Prop where
  columns : stateColumns request = some (availability, lifecycle)
  version : (t.version snapshot.subjectUid : ℤ) = request.expectedProjectionVersion
  legal : ∀ state ∈ lifecycle, ∀ p ∈ previousLifecycle (t.projection snapshot.subjectUid),
    state = p ∨ state ∈ legal p
  evaluationFresh : ∀ e ∈ t.stateEvaluation, e.evaluationUid ≠ uids.evaluation
  tables : t' = { t with
    stateEvaluation := t.stateEvaluation ++
      [evaluationRow uids snapshot request facts availability lifecycle]
    stateEvaluationFact := t.stateEvaluationFact ++
      facts.map fun f => ⟨uids.evaluation, f.factUid⟩
    stateTransition := t.stateTransition ++ transitionRows uids snapshot
      (previousLifecycle (t.projection snapshot.subjectUid)) lifecycle
    currentStateProjection := upsert StateProjection.subjectUid
      (nextProjection (t.projection snapshot.subjectUid) snapshot uids.evaluation
        availability lifecycle) t.currentStateProjection }

theorem LifecycleState.text_injective : Function.Injective LifecycleState.text := by
  intro a b h
  cases a <;> cases b <;> first | rfl | (exact absurd h (by decide))

/-- The lifecycle column is the lifecycle of the request. -/
theorem lifecycle_of_stateColumns {request : AnalysisCommitRequest}
    {availability : AvailabilityState} {lifecycle : Option LifecycleState}
    (h : stateColumns request = some (availability, lifecycle)) :
    request.availabilityState = availability.text ∧
      request.lifecycleState = lifecycle.map LifecycleState.text := by
  unfold stateColumns at h
  cases ha : AvailabilityState.ofText? request.availabilityState with
  | none => simp [ha] at h
  | some a =>
    cases hl : request.lifecycleState with
    | none =>
      simp only [ha, hl, Option.bind_eq_bind, Option.bind_some, Option.pure_def,
        Option.some.injEq, Prod.mk.injEq] at h
      exact ⟨h.1 ▸ (text_of_ofText ha).symm, by simp [← h.2]⟩
    | some text =>
      cases hs : LifecycleState.ofText? text with
      | none => simp [ha, hl, hs] at h
      | some state =>
        simp only [ha, hl, hs, Option.bind_eq_bind, Option.bind_some, Option.pure_def,
          Option.some.injEq, Prod.mk.injEq] at h
        exact ⟨h.1 ▸ (text_of_ofText ha).symm, by simp [← h.2, text_of_ofText hs]⟩

/-- The transition of a commit is written when its lifecycle changes. -/
theorem writeTransition_ok {uids : CommitUids} {snapshot : CommitSnapshot}
    {previous lifecycle : Option LifecycleState} {t t' : AnalysisTables} {u : Unit}
    (h : (writeTransition uids snapshot previous lifecycle).run t = .ok u t') :
    t' = { t with
      stateTransition := t.stateTransition ++
        transitionRows uids snapshot previous lifecycle } := by
  unfold writeTransition at h
  cases lifecycle with
  | none =>
    obtain ⟨-, rfl⟩ := run_pure_eq_ok.mp h
    simp [transitionRows]
  | some state =>
    by_cases hchange : previous ≠ some state
    · simp only [if_pos hchange] at h
      obtain ⟨-, rfl⟩ := run_insertInto_eq_ok.mp h
      simp only [transitionRows, if_pos hchange]
      rfl
    · simp only [if_neg hchange] at h
      obtain ⟨-, rfl⟩ := run_pure_eq_ok.mp h
      simp [transitionRows, hchange]

/-- The evaluation of a commit and its projection are written. -/
theorem insertState_ok {uids : CommitUids} {snapshot : CommitSnapshot}
    {request : AnalysisCommitRequest} {facts : List MetricFact} {t t' : AnalysisTables}
    {result : Uid × String} (hunique : t.ProjectionsUnique)
    (h : (insertState uids snapshot request facts).run t = .ok result t') :
    result = (uids.evaluation, stateHash snapshot request facts) ∧
      ∃ availability lifecycle,
        StateInserted uids snapshot request facts availability lifecycle t t' := by
  simp only [insertState, run_bind_eq_ok, run_get_eq_ok, run_require_eq_ok] at h
  obtain ⟨_, _, ⟨-, rfl⟩, _, _, ⟨rfl, rfl⟩, _, _, ⟨hversion, rfl⟩, _, _, ⟨hlegal, rfl⟩, h⟩ := h
  cases hcolumns : stateColumns request with
  | none =>
    rw [hcolumns] at h
    exact absurd h run_throw_ne_ok
  | some columns =>
    obtain ⟨availability, lifecycle⟩ := columns
    rw [hcolumns] at h
    simp only [run_bind_eq_ok, run_insertInto_eq_ok, run_pure_eq_ok] at h
    obtain ⟨_, _, ⟨hfresh, rfl⟩, _, t₂, hfacts, _, t₃, htransition, _, _, hprojection, rfl, rfl⟩ :=
      h
    obtain ⟨-, hlifecycle⟩ := lifecycle_of_stateColumns hcolumns
    replace hfacts := run_forM_insertInto_eq_ok hfacts
    replace htransition := writeTransition_ok htransition
    have hsame : t₃.currentStateProjection = t.currentStateProjection := by
      rw [htransition, hfacts]
      rfl
    replace hprojection := writeProjection_ok
      (by rw [AnalysisTables.ProjectionsUnique, hsame]; exact hunique)
      (by rw [AnalysisTables.projection, hsame]; rfl) hprojection
    refine ⟨rfl, availability, lifecycle, hcolumns, hversion, ?_, ?_, ?_⟩
    · rintro state hstate p hp
      rcases hlegal state.text (by rw [hlifecycle]; exact Option.mem_map_of_mem _ hstate) p hp with
        htext | htext
      · exact Or.inl (LifecycleState.text_injective htext)
      · obtain ⟨state', hlegal', htext⟩ := List.mem_map.mp htext
        exact Or.inr (LifecycleState.text_injective htext ▸ hlegal')
    · intro e he heq
      have := hfresh e he
      simp [stateEvaluationTable, heq] at this
    · rw [hprojection, hsame, htransition, hfacts]
      rfl

/-! ## Guardian and Scout -/

/-- The row of `guardian_risk_tag` of a risk. -/
def riskRow (guardianUid : Uid) (risk : RiskFinding) : GuardianRiskTag :=
  ⟨guardianUid, risk.riskTag, risk.severity, risk.reasonCode, risk.primaryFactUid⟩

/-- The row of `guardian_risk_evidence` of a risk that rests on a fact. -/
def riskEvidenceRow (guardianUid : Uid) (risk : RiskFinding) : Option GuardianRiskEvidence :=
  risk.primaryFactUid.map fun factUid => ⟨guardianUid, risk.riskTag, factUid⟩

/-- A risk tag is written with its facts. -/
theorem insertRisk_ok {guardianUid : Uid} {risk : RiskFinding} {t t' : AnalysisTables} {u : Unit}
    (h : (insertRisk guardianUid risk).run t = .ok u t') :
    t' = { t with
      guardianRiskTag := t.guardianRiskTag ++ [riskRow guardianUid risk]
      guardianRiskEvidence := t.guardianRiskEvidence ++
        (riskEvidenceRow guardianUid risk).toList } := by
  unfold insertRisk at h
  obtain ⟨_, t₁, htag, hevidence⟩ := run_bind_eq_ok.mp h
  obtain ⟨-, rfl⟩ := run_insertInto_eq_ok.mp htag
  cases hfact : risk.primaryFactUid with
  | none =>
    simp only [hfact] at hevidence
    obtain ⟨-, rfl⟩ := run_pure_eq_ok.mp hevidence
    simp [riskEvidenceRow, hfact, guardianRiskTagTable, riskRow]
  | some factUid =>
    simp only [hfact] at hevidence
    obtain ⟨-, rfl⟩ := run_insertInto_eq_ok.mp hevidence
    simp [riskEvidenceRow, hfact, guardianRiskTagTable, guardianRiskEvidenceTable, riskRow]

/-- The loop over the risks appends their tags and their evidence. -/
theorem insertRisks_ok {guardianUid : Uid} {risks : List RiskFinding} {t t' : AnalysisTables}
    {u : Unit} (h : (forM risks (insertRisk guardianUid)).run t = .ok u t') :
    t' = { t with
      guardianRiskTag := t.guardianRiskTag ++ risks.map (riskRow guardianUid)
      guardianRiskEvidence := t.guardianRiskEvidence ++
        risks.filterMap (riskEvidenceRow guardianUid) } := by
  induction risks generalizing t with
  | nil =>
    rw [run_forM_nil_eq_ok] at h
    simp [h]
  | cons risk risks ih =>
    obtain ⟨t₁, hrisk, hrisks⟩ := run_forM_cons_eq_ok.mp h
    rw [ih hrisks, insertRisk_ok hrisk]
    cases hrow : riskEvidenceRow guardianUid risk <;> simp [hrow]

/-- The row of `guardian_evaluation` of a commit. -/
def guardianRow (uids : CommitUids) (snapshot : CommitSnapshot) (stateUid : Uid)
    (request : AnalysisCommitRequest) (findings : GuardianFindings) (hash : String) :
    GuardianEvaluation where
  guardianUid := uids.guardian
  stateEvaluationUid := stateUid
  subjectUid := snapshot.subjectUid
  snapshotUid := request.snapshotUid
  ruleVersion := guardianRuleVersion
  guardianEffect := findings.effect
  blocking := findings.effect.blocks
  maxSeverity := findings.severity
  evaluationHash := hash
  createdAt := snapshot.asOfTime

/-- What a returning `_insert_guardian` found and wrote. -/
structure GuardianInserted (uids : CommitUids) (snapshot : CommitSnapshot) (stateUid : Uid)
    (stateHash : String) (request : AnalysisCommitRequest) (facts : List MetricFact)
    (thresholds : ThresholdSet) (findings : GuardianFindings) (hash : String)
    (t t' : AnalysisTables) : Prop where
  findings_eq : findings = guardianFindings request.availabilityState
    snapshot.dataHealthStatus snapshot.fitnessStatus facts thresholds
  hash_eq : hash = guardianHash stateHash findings
  guardianFresh : ∀ g ∈ t.guardianEvaluation, g.guardianUid ≠ uids.guardian
  tables : t' = { t with
    guardianEvaluation := t.guardianEvaluation ++
      [guardianRow uids snapshot stateUid request findings hash]
    guardianRiskTag := t.guardianRiskTag ++ findings.risks.map (riskRow uids.guardian)
    guardianRiskEvidence := t.guardianRiskEvidence ++
      findings.risks.filterMap (riskEvidenceRow uids.guardian) }

/-- The evaluation of the Guardian is written with its risks. -/
theorem insertGuardian_ok {uids : CommitUids} {snapshot : CommitSnapshot} {stateUid : Uid}
    {stateHash : String} {request : AnalysisCommitRequest} {facts : List MetricFact}
    {thresholds : ThresholdSet} {t t' : AnalysisTables} {result : GuardianFindings × String}
    (h : (insertGuardian uids snapshot stateUid stateHash request facts thresholds).run t =
      .ok result t') :
    GuardianInserted uids snapshot stateUid stateHash request facts thresholds result.1 result.2
      t t' := by
  simp only [insertGuardian, run_bind_eq_ok, run_insertInto_eq_ok, run_pure_eq_ok] at h
  obtain ⟨_, _, ⟨hfresh, rfl⟩, _, _, hrisks, rfl, rfl⟩ := h
  refine ⟨rfl, rfl, ?_, ?_⟩
  · intro g hg heq
    have := hfresh g hg
    simp [guardianEvaluationTable, heq] at this
  · rw [insertRisks_ok hrisks]
    rfl

theorem insertOpportunity_ok {scoutUid : Uid} {item : OpportunityFinding} {t t' : AnalysisTables}
    {u : Unit} (h : (insertOpportunity scoutUid item).run t = .ok u t') :
    t' = { t with
      scoutOpportunityTag := t.scoutOpportunityTag ++
        [⟨scoutUid, item.opportunityTag, item.reasonCode, item.primaryFactUid⟩]
      scoutOpportunityEvidence := t.scoutOpportunityEvidence ++
        [⟨scoutUid, item.opportunityTag, item.primaryFactUid⟩] } := by
  simp only [insertOpportunity, run_bind_eq_ok, run_insertInto_eq_ok] at h
  obtain ⟨_, _, ⟨-, rfl⟩, -, rfl⟩ := h
  rfl

/-- The loop over the opportunities appends their tags and their evidence. -/
theorem insertOpportunities_ok {scoutUid : Uid} {items : List OpportunityFinding}
    {t t' : AnalysisTables} {u : Unit}
    (h : (forM items (insertOpportunity scoutUid)).run t = .ok u t') :
    t' = { t with
      scoutOpportunityTag := t.scoutOpportunityTag ++ items.map fun item =>
        ⟨scoutUid, item.opportunityTag, item.reasonCode, item.primaryFactUid⟩
      scoutOpportunityEvidence := t.scoutOpportunityEvidence ++ items.map fun item =>
        ⟨scoutUid, item.opportunityTag, item.primaryFactUid⟩ } := by
  induction items generalizing t with
  | nil =>
    rw [run_forM_nil_eq_ok] at h
    simp [h]
  | cons item items ih =>
    obtain ⟨t₁, hitem, hitems⟩ := run_forM_cons_eq_ok.mp h
    rw [ih hitems, insertOpportunity_ok hitem]
    simp

/-- The row of `scout_evaluation` of a commit. -/
def scoutRow (uids : CommitUids) (snapshot : CommitSnapshot) (stateUid guardianUid : Uid)
    (guardianEffect : GuardianEffect) (findings : ScoutFindings) (hash : String) :
    ScoutEvaluation where
  scoutUid := uids.scout
  guardianUid := guardianUid
  stateEvaluationUid := stateUid
  subjectUid := snapshot.subjectUid
  snapshotUid := snapshot.snapshotUid
  ruleVersion := scoutRuleVersion
  scoutStatus := findings.status
  scoutStrength := findings.strength
  suppressedByGuardian := findings.suppressed
  guardianEffect := guardianEffect
  evaluationHash := hash
  createdAt := snapshot.asOfTime

/-- What a returning `_insert_scout` found and wrote. -/
structure ScoutInserted (uids : CommitUids) (snapshot : CommitSnapshot)
    (stateUid guardianUid : Uid) (guardianHash : String) (guardianEffect : GuardianEffect)
    (facts : List MetricFact) (thresholds : ThresholdSet) (findings : ScoutFindings)
    (hash : String) (t t' : AnalysisTables) : Prop where
  findings_eq : findings = scoutFindings guardianEffect facts thresholds
  hash_eq : hash = scoutHash guardianHash findings
  scoutFresh : ∀ s ∈ t.scoutEvaluation, s.scoutUid ≠ uids.scout
  tables : t' = { t with
    scoutEvaluation := t.scoutEvaluation ++
      [scoutRow uids snapshot stateUid guardianUid guardianEffect findings hash]
    scoutOpportunityTag := t.scoutOpportunityTag ++ findings.opportunities.map fun item =>
      ⟨uids.scout, item.opportunityTag, item.reasonCode, item.primaryFactUid⟩
    scoutOpportunityEvidence := t.scoutOpportunityEvidence ++
      findings.opportunities.map fun item =>
        ⟨uids.scout, item.opportunityTag, item.primaryFactUid⟩ }

/-- The evaluation of the Scout is written with its opportunities. -/
theorem insertScout_ok {uids : CommitUids} {snapshot : CommitSnapshot}
    {stateUid guardianUid : Uid} {guardianHash : String} {guardianEffect : GuardianEffect}
    {facts : List MetricFact} {thresholds : ThresholdSet} {t t' : AnalysisTables}
    {result : ScoutFindings × String}
    (h : (insertScout uids snapshot stateUid guardianUid guardianHash guardianEffect facts
      thresholds).run t = .ok result t') :
    ScoutInserted uids snapshot stateUid guardianUid guardianHash guardianEffect facts thresholds
      result.1 result.2 t t' := by
  simp only [insertScout, run_bind_eq_ok, run_insertInto_eq_ok, run_pure_eq_ok] at h
  obtain ⟨_, _, ⟨hfresh, rfl⟩, _, _, hitems, rfl, rfl⟩ := h
  refine ⟨rfl, rfl, ?_, ?_⟩
  · intro s hs heq
    have := hfresh s hs
    simp [scoutEvaluationTable, heq] at this
  · rw [insertOpportunities_ok hitems]
    rfl

/-! ## Events -/

/-- The row of `market_event` of a change that creates one. -/
def EventContext.eventRow (ctx : EventContext) (kind : EventKind) (change : EventChange) :
    MarketEvent :=
  ⟨change.eventUid, ctx.snapshot.subjectUid, kind, relatedKey ctx.snapshot.subjectUid kind,
    ctx.snapshot.asOfTime⟩

/-- The rows of `event_evidence` of a change. -/
def EventContext.evidenceRows (ctx : EventContext) (kind : EventKind) (change : EventChange) :
    List EventEvidence :=
  (change.evidence.dedup.insertionSort (· ≤ ·)).map fun factUid =>
    ⟨ctx.uids.eventVersion kind, factUid⟩

/-- What writing a change checked and wrote. -/
structure EventWritten (ctx : EventContext) (kind : EventKind) (change : EventChange)
    (t t' : AnalysisTables) : Prop where
  eventFresh : change.creates → ∀ e ∈ t.marketEvent, e.eventUid ≠ change.eventUid
  versionFresh : ∀ v ∈ t.eventVersion, v.eventVersionUid ≠ ctx.uids.eventVersion kind
  tables : t' = { t with
    marketEvent := t.marketEvent ++ if change.creates then [ctx.eventRow kind change] else []
    eventVersion := t.eventVersion ++ [ctx.versionRow kind change]
    eventEvidence := t.eventEvidence ++ ctx.evidenceRows kind change
    currentEventProjection :=
      upsert EventProjection.relatedKey (ctx.projectionRow kind change) t.currentEventProjection
    notificationIntent := t.notificationIntent ++ ctx.channels.map (ctx.intentRow kind change)
    notificationDeliveryState :=
      t.notificationDeliveryState ++ ctx.channels.map (ctx.deliveryRow kind) }

theorem insertIntent_ok {ctx : EventContext} {kind : EventKind} {change : EventChange}
    {channel : Channel} {t t' : AnalysisTables} {u : Unit}
    (h : (insertIntent ctx kind change channel).run t = .ok u t') :
    t' = { t with
      notificationIntent := t.notificationIntent ++ [ctx.intentRow kind change channel]
      notificationDeliveryState :=
        t.notificationDeliveryState ++ [ctx.deliveryRow kind channel] } := by
  simp only [insertIntent, run_bind_eq_ok, run_insertInto_eq_ok] at h
  obtain ⟨_, _, ⟨-, rfl⟩, -, rfl⟩ := h
  rfl

/-- The loop over the channels appends an intent and its delivery state for each. -/
theorem insertIntents_ok {ctx : EventContext} {kind : EventKind} {change : EventChange}
    {channels : List Channel} {t t' : AnalysisTables} {u : Unit}
    (h : (forM channels (insertIntent ctx kind change)).run t = .ok u t') :
    t' = { t with
      notificationIntent := t.notificationIntent ++ channels.map (ctx.intentRow kind change)
      notificationDeliveryState :=
        t.notificationDeliveryState ++ channels.map (ctx.deliveryRow kind) } := by
  induction channels generalizing t with
  | nil =>
    rw [run_forM_nil_eq_ok] at h
    simp [h]
  | cons channel channels ih =>
    obtain ⟨t₁, hchannel, hchannels⟩ := run_forM_cons_eq_ok.mp h
    rw [ih hchannels, insertIntent_ok hchannel]
    simp

/-- The event projection is written over the one that was read. -/
theorem writeEventProjection_ok {ctx : EventContext} {kind : EventKind} {change : EventChange}
    {current : Option EventProjection} {t t' : AnalysisTables} {u : Unit}
    (hcurrent : t.eventProjection (relatedKey ctx.snapshot.subjectUid kind) = current)
    (h : (writeEventProjection ctx kind current change).run t = .ok u t') :
    t' = { t with
      currentEventProjection :=
        upsert EventProjection.relatedKey (ctx.projectionRow kind change)
          t.currentEventProjection } := by
  have hlookup : lookupBy EventProjection.relatedKey (ctx.projectionRow kind change).relatedKey
      t.currentEventProjection = current := hcurrent
  unfold writeEventProjection at h
  cases current with
  | none =>
    obtain ⟨-, rfl⟩ := run_insertInto_eq_ok.mp h
    simp only [upsert, hlookup]
    rfl
  | some p =>
    rw [run_modify_eq_ok] at h
    simp only [upsert, hlookup, ← h]
    rfl

/-- An event is created under an identifier that is new. -/
theorem createEvent_ok {ctx : EventContext} {kind : EventKind} {change : EventChange}
    {t t' : AnalysisTables} {u : Unit}
    (h : (createEvent ctx kind change).run t = .ok u t') :
    (change.creates → ∀ e ∈ t.marketEvent, e.eventUid ≠ change.eventUid) ∧
      t' = { t with
        marketEvent :=
          t.marketEvent ++ if change.creates then [ctx.eventRow kind change] else [] } := by
  unfold createEvent at h
  by_cases hcreates : change.creates
  · rw [if_pos hcreates] at h
    obtain ⟨hfresh, rfl⟩ := run_insertInto_eq_ok.mp h
    refine ⟨fun _ e he heq => ?_, ?_⟩
    · have := hfresh e he
      simp [marketEventTable, heq] at this
    · rw [if_pos hcreates]
      rfl
  · rw [if_neg hcreates] at h
    obtain ⟨-, rfl⟩ := run_pure_eq_ok.mp h
    exact ⟨fun h => absurd h hcreates, by simp [hcreates]⟩

/-- A change of an event writes its version, its projection and its intents. -/
theorem writeEvent_ok {ctx : EventContext} {kind : EventKind} {change : EventChange}
    {t t' : AnalysisTables} {u : Unit}
    (h : (writeEvent ctx kind (t.eventProjection (relatedKey ctx.snapshot.subjectUid kind))
      change).run t = .ok u t') : EventWritten ctx kind change t t' := by
  simp only [writeEvent, run_bind_eq_ok, run_insertInto_eq_ok] at h
  obtain ⟨_, t₁, hcreate, _, _, ⟨hfresh, rfl⟩, _, t₂, hevidence, _, t₃, hprojection, hintents⟩ := h
  obtain ⟨heventFresh, rfl⟩ := createEvent_ok hcreate
  replace hevidence := run_forM_insertInto_eq_ok hevidence
  replace hprojection := writeEventProjection_ok (by rw [hevidence]; rfl) hprojection
  refine ⟨heventFresh, ?_, ?_⟩
  · intro v hv heq
    have := hfresh v hv
    simp [eventVersionTable, EventContext.versionRow, heq] at this
  · rw [insertIntents_ok hintents, hprojection, hevidence]
    rfl

/-- The related key of the events of a kind about the subject of the commit. -/
def EventContext.key (ctx : EventContext) (kind : EventKind) : String :=
  relatedKey ctx.snapshot.subjectUid kind

/-- The change a commit makes to the event of a kind. -/
def EventContext.nextChange (ctx : EventContext) (kind : EventKind) (t : AnalysisTables) :
    Option EventChange :=
  eventChange ctx kind (t.eventProjection (ctx.key kind))

/-- What one iteration of `_decide_events` did. -/
def EventDecided (ctx : EventContext) (kind : EventKind) (t t' : AnalysisTables) : Prop :=
  match ctx.nextChange kind t with
  | none => t' = t
  | some change => EventWritten ctx kind change t t'

/-- A kind of event is left as it is, or changed once. -/
theorem decideEvent_ok {ctx : EventContext} {kind : EventKind} {t t' : AnalysisTables}
    {result : List Uid × List Uid} (h : (decideEvent ctx kind).run t = .ok result t') :
    EventDecided ctx kind t t' := by
  simp only [decideEvent, run_bind_eq_ok, run_get_eq_ok] at h
  obtain ⟨_, _, ⟨rfl, rfl⟩, h⟩ := h
  rw [EventDecided]
  cases hchange : ctx.nextChange kind t with
  | none =>
    rw [EventContext.nextChange, EventContext.key, AnalysisTables.eventProjection] at hchange
    simp only [hchange] at h
    exact (run_pure_eq_ok.mp h).2.symm
  | some change =>
    rw [EventContext.nextChange, EventContext.key, AnalysisTables.eventProjection] at hchange
    simp only [hchange, run_bind_eq_ok, run_pure_eq_ok] at h
    obtain ⟨_, _, hwrite, -, rfl⟩ := h
    exact writeEvent_ok hwrite

theorem decideEvents_ok {ctx : EventContext} {t t' : AnalysisTables}
    {result : List Uid × List Uid} (h : (decideEvents ctx).run t = .ok result t') :
    ∃ t₁, EventDecided ctx .guardianRisk t t₁ ∧ EventDecided ctx .scoutWatch t₁ t' := by
  simp only [decideEvents, run_bind_eq_ok, run_pure_eq_ok] at h
  obtain ⟨_, t₁, hrisk, _, _, hwatch, -, rfl⟩ := h
  exact ⟨t₁, decideEvent_ok hrisk, decideEvent_ok hwatch⟩

/-- The tables other than those of the events, the outbox and the audit are the same. -/
def AnalysisTables.SameEvaluations (t t' : AnalysisTables) : Prop :=
  t' = { t with
    marketEvent := t'.marketEvent
    eventVersion := t'.eventVersion
    eventEvidence := t'.eventEvidence
    currentEventProjection := t'.currentEventProjection
    notificationIntent := t'.notificationIntent
    notificationDeliveryState := t'.notificationDeliveryState
    auditRecord := t'.auditRecord }

theorem AnalysisTables.SameEvaluations.trans {t t' t'' : AnalysisTables}
    (h : t.SameEvaluations t') (h' : t'.SameEvaluations t'') : t.SameEvaluations t'' := by
  unfold SameEvaluations at *
  rw [h] at h'
  exact h'

/-- Deciding an event touches the tables of the events and of the outbox only. -/
theorem EventDecided.sameEvaluations {ctx : EventContext} {kind : EventKind}
    {t t' : AnalysisTables} (h : EventDecided ctx kind t t') : t.SameEvaluations t' := by
  rw [EventDecided] at h
  split at h
  · rw [h]
    rfl
  · rw [h.tables]
    rfl

/-! ## The commit -/

/-- The row of `evaluation_snapshot` of an identifier. -/
def Database.snapshot (db : Database) (snapshotUid : Uid) : Option EvaluationSnapshot :=
  lookupBy EvaluationSnapshot.snapshotUid snapshotUid db.evidence.evaluationSnapshot

/-- The snapshot of a commit is a sealed one of the evidence. -/
theorem commitSnapshot_ok {db : Database} {snapshotUid : Uid} {snapshot : CommitSnapshot}
    (h : commitSnapshot db snapshotUid = .ok snapshot) :
    snapshot.snapshotUid = snapshotUid ∧ ∃ row, db.snapshot snapshotUid = some row ∧
      row.snapshotStatus = .sealed ∧ row.subjectUid = snapshot.subjectUid ∧
      row.asOfTime = snapshot.asOfTime := by
  unfold commitSnapshot at h
  cases hrow : db.evidence.evaluationSnapshot.find? fun s => s.snapshotUid = snapshotUid with
  | none =>
    simp only [hrow] at h
    cases h
  | some row =>
    have hkey : row.snapshotUid = snapshotUid := key_of_lookupBy hrow
    cases hquality : db.evidence.qualityContext.find? fun q =>
        q.qualityContextUid = row.qualityContextUid with
    | none =>
      simp only [hrow, hquality, Option.bind_eq_bind, Option.bind_some, Option.bind_none] at h
      cases h
    | some quality =>
      simp only [hrow, hquality, Option.bind_eq_bind, Option.bind_some, Option.pure_def,
        except_bind_eq_ok, check_eq_ok, exists_const] at h
      obtain ⟨hsealed, -, h⟩ := h
      obtain rfl := Except.ok.inj h
      exact ⟨hkey, row, hrow, hsealed, rfl, rfl⟩

/-- The context in which a commit decides its events. -/
def eventContext (db : Database) (t : AnalysisTables) (uids : CommitUids)
    (snapshot : CommitSnapshot) (request : AnalysisCommitRequest) (verified : VerifiedRequest)
    (guardian : GuardianFindings) (guardianHash : String) (scout : ScoutFindings)
    (scoutHash : String) : EventContext where
  snapshot := snapshot
  uids := uids
  guardian := guardian
  guardianHash := guardianHash
  scout := scout
  scoutHash := scoutHash
  context := frozenContext db t uids snapshot request guardian scout
    (limitationsOf db snapshot.qualityContextUid)
  channels := verified.channels
  generation := db.metadata.restoreGeneration

/-- The row of `analysis_commit` of a commit. -/
def commitRow (uids : CommitUids) (snapshot : CommitSnapshot) (request : AnalysisCommitRequest)
    (verified : VerifiedRequest) : AnalysisCommit where
  commitUid := uids.commit
  snapshotUid := request.snapshotUid
  stateEvaluationUid := uids.evaluation
  guardianUid := uids.guardian
  scoutUid := uids.scout
  commitHash := canonicalHash (requestDocument request verified)
  committedAt := snapshot.asOfTime

/-- The tables with the row of a commit. -/
def AnalysisTables.withCommit (t : AnalysisTables) (row : AnalysisCommit) : AnalysisTables :=
  { t with analysisCommit := t.analysisCommit ++ [row] }

/-- The course of the transaction of a commit : what it read and found, the tables after
each of its parts, and what each part did. -/
structure CommitCourse (db : Database) (uids : CommitUids) (request : AnalysisCommitRequest)
    (verified : VerifiedRequest) (result : AnalysisCommitResult) (t : AnalysisTables) where
  snapshot : CommitSnapshot
  availability : AvailabilityState
  lifecycle : Option LifecycleState
  guardian : GuardianFindings
  guardianHash : String
  scout : ScoutFindings
  scoutHash : String
  afterState : AnalysisTables
  afterGuardian : AnalysisTables
  afterScout : AnalysisTables
  afterRisk : AnalysisTables
  afterWatch : AnalysisTables
  audit : AuditRecord
  result_commitUid : result.commitUid = uids.commit
  result_guardianUid : result.guardianUid = uids.guardian
  result_scoutUid : result.scoutUid = uids.scout
  snapshot_eq : commitSnapshot db request.snapshotUid = .ok snapshot
  snapshotFresh : ∀ c ∈ t.analysisCommit, c.snapshotUid ≠ request.snapshotUid
  state : StateInserted uids snapshot request verified.execution.facts availability lifecycle
    t afterState
  guardianInserted : GuardianInserted uids snapshot uids.evaluation
    (stateHash snapshot request verified.execution.facts) request verified.execution.facts
    verified.guardianThresholds guardian guardianHash afterState afterGuardian
  scoutInserted : ScoutInserted uids snapshot uids.evaluation uids.guardian guardianHash
    guardian.effect verified.execution.facts verified.scoutThresholds scout scoutHash
    afterGuardian afterScout
  commitFresh : ∀ c ∈ t.analysisCommit,
    c.commitUid ≠ uids.commit ∧ c.stateEvaluationUid ≠ uids.evaluation
  riskDecided : EventDecided
    (eventContext db (afterScout.withCommit (commitRow uids snapshot request verified))
      uids snapshot request verified guardian guardianHash scout scoutHash) .guardianRisk
    (afterScout.withCommit (commitRow uids snapshot request verified)) afterRisk
  watchDecided : EventDecided
    (eventContext db (afterScout.withCommit (commitRow uids snapshot request verified))
      uids snapshot request verified guardian guardianHash scout scoutHash) .scoutWatch
    afterRisk afterWatch

namespace CommitCourse

variable {db : Database} {uids : CommitUids} {request : AnalysisCommitRequest}
  {verified : VerifiedRequest} {result : AnalysisCommitResult} {t : AnalysisTables}
  (course : CommitCourse db uids request verified result t)

/-- The tables the commit left. -/
def after : AnalysisTables :=
  { course.afterWatch with auditRecord := course.afterWatch.auditRecord ++ [course.audit] }

/-- The tables when the events are decided. -/
def beforeEvents : AnalysisTables :=
  course.afterScout.withCommit (commitRow uids course.snapshot request verified)

/-- The context in which the commit decided its events. -/
def context : EventContext :=
  eventContext db course.beforeEvents uids course.snapshot request verified course.guardian
    course.guardianHash course.scout course.scoutHash

/-- The tables of a commit before it writes its events. -/
theorem beforeEvents_eq : course.beforeEvents = { t with
    stateEvaluation := t.stateEvaluation ++ [evaluationRow uids course.snapshot request
      verified.execution.facts course.availability course.lifecycle]
    stateEvaluationFact := t.stateEvaluationFact ++
      verified.execution.facts.map fun f => ⟨uids.evaluation, f.factUid⟩
    stateTransition := t.stateTransition ++ transitionRows uids course.snapshot
      (previousLifecycle (t.projection course.snapshot.subjectUid)) course.lifecycle
    currentStateProjection := upsert StateProjection.subjectUid
      (nextProjection (t.projection course.snapshot.subjectUid) course.snapshot uids.evaluation
        course.availability course.lifecycle) t.currentStateProjection
    guardianEvaluation := t.guardianEvaluation ++ [guardianRow uids course.snapshot
      uids.evaluation request course.guardian course.guardianHash]
    guardianRiskTag :=
      t.guardianRiskTag ++ course.guardian.risks.map (riskRow uids.guardian)
    guardianRiskEvidence := t.guardianRiskEvidence ++
      course.guardian.risks.filterMap (riskEvidenceRow uids.guardian)
    scoutEvaluation := t.scoutEvaluation ++ [scoutRow uids course.snapshot uids.evaluation
      uids.guardian course.guardian.effect course.scout course.scoutHash]
    scoutOpportunityTag := t.scoutOpportunityTag ++ course.scout.opportunities.map fun item =>
      ⟨uids.scout, item.opportunityTag, item.reasonCode, item.primaryFactUid⟩
    scoutOpportunityEvidence := t.scoutOpportunityEvidence ++
      course.scout.opportunities.map fun item =>
        ⟨uids.scout, item.opportunityTag, item.primaryFactUid⟩
    analysisCommit :=
      t.analysisCommit ++ [commitRow uids course.snapshot request verified] } := by
  rw [beforeEvents, AnalysisTables.withCommit, course.scoutInserted.tables,
    course.guardianInserted.tables, course.state.tables]

/-- The events come after everything else. -/
theorem sameEvaluations : course.beforeEvents.SameEvaluations course.after :=
  (course.riskDecided.sameEvaluations.trans course.watchDecided.sameEvaluations).trans rfl

theorem stateEvaluation : course.after.stateEvaluation =
    t.stateEvaluation ++ [evaluationRow uids course.snapshot request verified.execution.facts
      course.availability course.lifecycle] := by
  rw [course.sameEvaluations, course.beforeEvents_eq]

theorem stateTransition : course.after.stateTransition =
    t.stateTransition ++ transitionRows uids course.snapshot
      (previousLifecycle (t.projection course.snapshot.subjectUid)) course.lifecycle := by
  rw [course.sameEvaluations, course.beforeEvents_eq]

theorem currentStateProjection : course.after.currentStateProjection =
    upsert StateProjection.subjectUid
      (nextProjection (t.projection course.snapshot.subjectUid) course.snapshot uids.evaluation
        course.availability course.lifecycle) t.currentStateProjection := by
  rw [course.sameEvaluations, course.beforeEvents_eq]

theorem guardianEvaluation : course.after.guardianEvaluation =
    t.guardianEvaluation ++ [guardianRow uids course.snapshot uids.evaluation request
      course.guardian course.guardianHash] := by
  rw [course.sameEvaluations, course.beforeEvents_eq]

theorem guardianRiskTag : course.after.guardianRiskTag =
    t.guardianRiskTag ++ course.guardian.risks.map (riskRow uids.guardian) := by
  rw [course.sameEvaluations, course.beforeEvents_eq]

theorem scoutEvaluation : course.after.scoutEvaluation =
    t.scoutEvaluation ++ [scoutRow uids course.snapshot uids.evaluation uids.guardian
      course.guardian.effect course.scout course.scoutHash] := by
  rw [course.sameEvaluations, course.beforeEvents_eq]

theorem mem_guardianEvaluation : guardianRow uids course.snapshot uids.evaluation request
    course.guardian course.guardianHash ∈ course.after.guardianEvaluation := by
  rw [course.guardianEvaluation]
  exact List.mem_append_right _ (List.mem_singleton_self _)

theorem mem_scoutEvaluation : scoutRow uids course.snapshot uids.evaluation uids.guardian
    course.guardian.effect course.scout course.scoutHash ∈ course.after.scoutEvaluation := by
  rw [course.scoutEvaluation]
  exact List.mem_append_right _ (List.mem_singleton_self _)

theorem analysisCommit : course.after.analysisCommit =
    t.analysisCommit ++ [commitRow uids course.snapshot request verified] := by
  rw [course.sameEvaluations, course.beforeEvents_eq]

end CommitCourse

/-- A commit command that returns has run its whole course. -/
theorem commitCommand_ok {db : Database} {uids : CommitUids} {request : AnalysisCommitRequest}
    {verified : VerifiedRequest} {t t' : AnalysisTables} {result : AnalysisCommitResult}
    (hunique : t.ProjectionsUnique)
    (h : (commitCommand db uids request verified).run t = .ok result t') :
    ∃ course : CommitCourse db uids request verified result t, t' = course.after := by
  simp only [commitCommand, run_bind_eq_ok, run_get_eq_ok, run_require_eq_ok,
    run_fromExcept_eq_ok, run_insertInto_eq_ok, run_pure_eq_ok] at h
  obtain ⟨_, _, ⟨rfl, rfl⟩, _, _, ⟨hfresh, rfl⟩, snapshot, _, ⟨hsnapshot, rfl⟩, state, t₁, hstate,
    guardian, t₂, hguardian, scout, t₃, hscout, _, _, ⟨hcommit, rfl⟩, _, _, ⟨rfl, rfl⟩,
    _, _, hevents, _, _, ⟨-, rfl⟩, rfl, rfl⟩ := h
  obtain ⟨rfl, availability, lifecycle, hstate⟩ := insertState_ok hunique hstate
  have hguardian := insertGuardian_ok hguardian
  have hscout := insertScout_ok hscout
  obtain ⟨t₄, hrisk, hwatch⟩ := decideEvents_ok hevents
  have hcommits : t₃.analysisCommit = t.analysisCommit := by
    rw [hscout.tables, hguardian.tables, hstate.tables]
  exact ⟨{
    snapshot := snapshot
    availability := availability
    lifecycle := lifecycle
    guardian := guardian.1
    guardianHash := guardian.2
    scout := scout.1
    scoutHash := scout.2
    afterState := t₁
    afterGuardian := t₂
    afterScout := t₃
    afterRisk := t₄
    afterWatch := _
    audit := _
    result_commitUid := rfl
    result_guardianUid := rfl
    result_scoutUid := rfl
    snapshot_eq := hsnapshot
    snapshotFresh := by simpa using hfresh
    state := hstate
    guardianInserted := hguardian
    scoutInserted := hscout
    commitFresh := by
      intro c hc
      have hclash := hcommit c (by rw [← hcommits] at hc; exact hc)
      simp only [analysisCommitTable, decide_eq_false_iff_not, not_or] at hclash
      exact ⟨fun h => hclash.1 h.symm, fun h => hclash.2.2.1 h.symm⟩
    riskDecided := hrisk
    watchDecided := hwatch }, rfl⟩

theorem submit_of_ok {α : Type} {command : AnalysisCommand α} {a : α} {db : Database}
    {t' : AnalysisTables} (h : command.run db.analysis = .ok a t') :
    (submit command).run db = .ok a { db with analysis := t' } := by
  have htx := run_atomically_eq_ok.mpr h
  simp only [submit, EStateM.run] at htx ⊢
  rw [htx]

/-- A transaction changes the analysis tables only. -/
theorem submit_eq_ok {α : Type} {command : AnalysisCommand α} {a : α} {db db' : Database} :
    (submit command).run db = .ok a db' ↔
      ∃ t', command.run db.analysis = .ok a t' ∧ db' = { db with analysis := t' } := by
  constructor
  · intro h
    cases hcommand : (atomically command).run db.analysis with
    | ok a' t' =>
      simp only [submit, EStateM.run] at h hcommand
      rw [hcommand] at h
      cases h
      exact ⟨t', run_atomically_eq_ok.mp hcommand, rfl⟩
    | error e t' =>
      simp only [submit, EStateM.run] at h hcommand
      rw [hcommand] at h
      cases h
  · rintro ⟨t', h, rfl⟩
    exact submit_of_ok h

theorem submit_of_error {α : Type} {command : AnalysisCommand α} {e : Exn} {db : Database}
    {t' : AnalysisTables} (h : command.run db.analysis = .error e t') :
    (submit command).run db = .error e db := by
  have htx := run_atomically_of_error h
  simp only [submit, EStateM.run] at htx ⊢
  rw [htx]

theorem commit_of_verify_error {files : ArtifactFiles} {uids : CommitUids}
    {request : AnalysisCommitRequest} {db : Database} {e : Exn}
    (hverify : verifyRequest db files request = .error e) :
    (commit files uids request).run db = .error e db := by
  unfold commit
  rw [run_bind_of_ok (run_get db), hverify]
  exact run_bind_of_error (run_throw e db)

/-- The second commit of a snapshot returns the first, or refuses another request. -/
theorem commit_of_existing {files : ArtifactFiles} (uids : CommitUids)
    {request : AnalysisCommitRequest} {db : Database} {verified : VerifiedRequest}
    {commitHash : String} {result : AnalysisCommitResult}
    (hverify : verifyRequest db files request = .ok verified)
    (hexisting : existingCommit db.analysis request.snapshotUid = some (commitHash, result)) :
    (commit files uids request).run db =
      if commitHash = canonicalHash (requestDocument request verified) then .ok result db
      else .error (valueError "snapshot already has a different Analysis Commit") db := by
  unfold commit
  rw [run_bind_of_ok (run_get db),
    run_bind_of_ok (run_fromExcept_eq_ok.mpr ⟨hverify, rfl⟩), hexisting]
  by_cases hsame : commitHash = canonicalHash (requestDocument request verified)
  · have hrequire : (require (commitHash = canonicalHash (requestDocument request verified))
        (valueError "snapshot already has a different Analysis Commit")).run db = .ok () db :=
      run_require_eq_ok.mpr ⟨hsame, rfl⟩
    rw [if_pos hsame, run_bind_of_ok hrequire]
    rfl
  · rw [if_neg hsame, run_bind_of_error]
    rw [require, if_neg hsame]
    rfl

theorem commit_of_new {files : ArtifactFiles} {uids : CommitUids}
    {request : AnalysisCommitRequest} {db : Database} {verified : VerifiedRequest}
    (hverify : verifyRequest db files request = .ok verified)
    (hexisting : existingCommit db.analysis request.snapshotUid = none) :
    (commit files uids request).run db =
      (submit (commitCommand db uids request verified)).run db := by
  unfold commit
  rw [run_bind_of_ok (run_get db),
    run_bind_of_ok (run_fromExcept_eq_ok.mpr ⟨hverify, rfl⟩), hexisting]

/-- A call of `commit` raises and changes nothing, returns the commit of the snapshot and
changes nothing, or commits one transaction. -/
theorem commit_cases (files : ArtifactFiles) (uids : CommitUids)
    (request : AnalysisCommitRequest) {db : Database} (hunique : db.analysis.ProjectionsUnique) :
    (∃ e, (commit files uids request).run db = .error e db) ∨
    (∃ verified result, (commit files uids request).run db = .ok result db ∧
      verifyRequest db files request = .ok verified ∧
      existingCommit db.analysis request.snapshotUid =
        some (canonicalHash (requestDocument request verified), result)) ∨
    ∃ verified result t', (commit files uids request).run db =
        .ok result { db with analysis := t' } ∧
      verifyRequest db files request = .ok verified ∧
      existingCommit db.analysis request.snapshotUid = none ∧
      ∃ course : CommitCourse db uids request verified result db.analysis,
        t' = course.after := by
  cases hverify : verifyRequest db files request with
  | error e => exact Or.inl ⟨e, commit_of_verify_error hverify⟩
  | ok verified =>
    cases hexisting : existingCommit db.analysis request.snapshotUid with
    | some existing =>
      obtain ⟨commitHash, result⟩ := existing
      have hrun := commit_of_existing uids hverify hexisting
      by_cases hsame : commitHash = canonicalHash (requestDocument request verified)
      · rw [if_pos hsame] at hrun
        exact Or.inr (Or.inl ⟨verified, result, hrun, rfl, by rw [hsame]⟩)
      · rw [if_neg hsame] at hrun
        exact Or.inl ⟨_, hrun⟩
    | none =>
      rw [commit_of_new hverify hexisting]
      cases hrun : (commitCommand db uids request verified).run db.analysis with
      | error e t' => exact Or.inl ⟨e, submit_of_error hrun⟩
      | ok result t' =>
        exact Or.inr (Or.inr ⟨verified, result, t', submit_of_ok hrun, rfl, rfl,
          commitCommand_ok hunique hrun⟩)

end MarketMonitor
