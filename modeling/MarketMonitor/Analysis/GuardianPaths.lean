import MarketMonitor.Library.Keyed
import MarketMonitor.Analysis.GuardianService
import MarketMonitor.Analysis.MetricRecording

/-!
# The paths to a Guardian evaluation

A commit, the pure decision and the stand-alone services evaluate the same inputs three
times over. On the same facts, thresholds and quality they decide alike
(`guardianServiceDecision_eq`, `scoutServiceFindings_eq`), so that it does not matter which
of them wrote an evaluation.
-/

namespace MarketMonitor

open Transaction

/-! ## The same inputs -/

/-- A fact of a commit as the services read it : its execution has the thresholds of its
family. -/
def stateFactOf (guardianThresholds scoutThresholds : ThresholdSet) (fact : MetricFact) :
    StateFact where
  factUid := fact.factUid
  factCode := fact.code
  valueScaled := some fact.value
  thresholdVersionUid :=
    some (if fact.code ∈ guardianCodes then guardianThresholds.uid else scoutThresholds.uid)

/-- A threshold version is in the tables with the entries of a set. -/
def VersionStored (tables : ThresholdTables) (thresholds : ThresholdSet) : Prop :=
  ∃ stored, resolveThresholdByUid tables thresholds.family thresholds.uid = .ok stored ∧
    stored.entries = thresholds.entries

/-- The tables hold, for a state evaluation, the inputs that a commit evaluates : the quality,
the facts in any order, and the two threshold versions. -/
structure SameInputs (db : Database) (stateUid : Uid) (availability : String)
    (health : DataHealthStatus) (fitness : FitnessStatus) (facts : List MetricFact)
    (guardianThresholds scoutThresholds : ThresholdSet) : Prop where
  state : ∃ state, db.evaluatedState stateUid = .ok state ∧
    state.availabilityState = availability ∧ state.dataHealthStatus = health ∧
    state.fitnessStatus = fitness
  codes : (facts.map MetricFact.code).Nodup
  facts : (db.stateFacts stateUid).Perm
    (facts.map (stateFactOf guardianThresholds scoutThresholds))
  guardianFamily : guardianThresholds.family = .guardian
  scoutFamily : scoutThresholds.family = .scout
  guardianVersion : VersionStored db.thresholds guardianThresholds
  scoutVersion : VersionStored db.thresholds scoutThresholds

/-! ## Lookups -/

theorem findRev?_eq_lookupBy {α : Type} (key : α → String) (xs : List α) (code : String) :
    xs.findRev? (fun x => key x = code) = Keyed.lookupBy key code xs.reverse :=
  List.findRev?_eq_find?_reverse

/-- Of several pairs of a key the one listed first counts. -/
theorem lookup_map_pair {α β : Type} (key : α → String) (value : α → β) (xs : List α)
    (code : String) :
    (xs.map fun x => (key x, value x)).lookup code = (Keyed.lookupBy key code xs).map value := by
  induction xs with
  | nil => rfl
  | cons x xs ih =>
    rw [List.map_cons, List.lookup_cons, Keyed.lookupBy, List.find?_cons]
    by_cases hcode : key x = code
    · simp [hcode]
    · have hne : (code == key x) = false := by simpa using Ne.symm hcode
      simp only [hne, hcode, decide_false]
      exact ih

/-- Looking a code up in a table of the values that are there. -/
theorem lookup_filterMap_pair (codes : List String) (value : String → Option ℤ) (code : String) :
    (codes.filterMap fun c => (value c).map fun v => (c, v)).lookup code =
      if code ∈ codes then value code else none := by
  induction codes with
  | nil => rfl
  | cons c codes ih =>
    by_cases hcode : code = c
    · subst hcode
      rw [if_pos List.mem_cons_self]
      cases hvalue : value code with
      | none =>
        rw [List.filterMap_cons_none (by rw [hvalue]; rfl), ih, hvalue, ite_self]
      | some v =>
        rw [List.filterMap_cons_some (by rw [hvalue]; rfl), List.lookup_cons_self]
    · have hmem : code ∈ c :: codes ↔ code ∈ codes := by simp [hcode]
      simp only [hmem]
      cases hvalue : value c with
      | none => rw [List.filterMap_cons_none (by rw [hvalue]; rfl), ih]
      | some v =>
        rw [List.filterMap_cons_some (by rw [hvalue]; rfl), List.lookup_cons,
          show (code == c) = false by simpa using hcode]
        exact ih

section Facts

variable {stateFacts : List StateFact} {facts : List MetricFact}
  {guardianThresholds scoutThresholds : ThresholdSet}

/-- A fact is read from the projection as it was committed. -/
theorem stateFactByCode_eq
    (hfacts : stateFacts.Perm (facts.map (stateFactOf guardianThresholds scoutThresholds)))
    (hcodes : (facts.map MetricFact.code).Nodup) (code : String) :
    stateFactByCode stateFacts code =
      (factByCode facts code).map (stateFactOf guardianThresholds scoutThresholds) := by
  have hkeys : ((facts.map (stateFactOf guardianThresholds scoutThresholds)).map
      StateFact.factCode).Nodup := by
    rw [List.map_map]
    exact hcodes
  have hkeys' : (stateFacts.reverse.map StateFact.factCode).Nodup := by
    rw [((stateFacts.reverse_perm.trans hfacts).map _).nodup_iff]
    exact hkeys
  have hkeys'' : (facts.reverse.map MetricFact.code).Nodup := by
    rw [(facts.reverse_perm.map _).nodup_iff]
    exact hcodes
  rw [stateFactByCode, factByCode, findRev?_eq_lookupBy, findRev?_eq_lookupBy]
  ext f
  rw [Keyed.lookupBy_eq_some_iff hkeys', Option.map_eq_some_iff, List.mem_reverse,
    hfacts.mem_iff]
  constructor
  · rintro ⟨hmem, rfl⟩
    obtain ⟨fact, hfact, rfl⟩ := List.mem_map.mp hmem
    exact ⟨fact, (Keyed.lookupBy_eq_some_iff hkeys'').mpr ⟨List.mem_reverse.mpr hfact, rfl⟩, rfl⟩
  · rintro ⟨fact, hfact, rfl⟩
    obtain ⟨hmem, rfl⟩ := (Keyed.lookupBy_eq_some_iff hkeys'').mp hfact
    exact ⟨List.mem_map_of_mem (List.mem_reverse.mp hmem), rfl⟩

/-- The values of the facts, by their codes. -/
theorem lookup_metricValues (stateFacts : List StateFact) (code : String) :
    (metricValues stateFacts).lookup code =
      (stateFactByCode stateFacts code).bind StateFact.valueScaled := by
  rw [metricValues, lookup_filterMap_pair]
  split
  case isTrue => rfl
  case isFalse hcode =>
    rw [List.mem_dedup] at hcode
    rw [stateFactByCode, findRev?_eq_lookupBy, Keyed.lookupBy_eq_none_iff.mpr]
    · rfl
    · rwa [List.map_reverse, List.mem_reverse]

theorem lookup_factUidsByCode (stateFacts : List StateFact) (code : String) :
    (factUidsByCode stateFacts).lookup code =
      (stateFactByCode stateFacts code).map StateFact.factUid := by
  rw [factUidsByCode, lookup_map_pair, stateFactByCode, findRev?_eq_lookupBy]

end Facts

/-! ## The decision -/

section Decision

variable {metrics metrics' : Metrics} {thresholds thresholds' : ThresholdSet}
  {availability : String} {health : DataHealthStatus} {fitness : FitnessStatus}
  {factUids factUids' : List (String × Uid)}

theorem factsMissing_congr
    (hmetrics : ∀ code ∈ guardianCodes, metrics.lookup code = metrics'.lookup code) :
    factsMissing metrics = factsMissing metrics' := by
  rw [Bool.eq_iff_iff, factsMissing_iff, factsMissing_iff]
  constructor
  · rintro ⟨code, hcode, h⟩
    exact ⟨code, hcode, hmetrics code hcode ▸ h⟩
  · rintro ⟨code, hcode, h⟩
    exact ⟨code, hcode, (hmetrics code hcode).trans h⟩

/-- A decision rests on the values, the thresholds and the facts of the Guardian codes. -/
theorem guardianDecision_congr
    (hmetrics : ∀ code ∈ guardianCodes, metrics.lookup code = metrics'.lookup code)
    (hthresholds : thresholds.entries = thresholds'.entries)
    (huids : ∀ code ∈ guardianCodes, factUids.lookup code = factUids'.lookup code) :
    guardianDecision metrics (some thresholds) availability health fitness factUids =
      guardianDecision metrics' (some thresholds') availability health fitness factUids' := by
  have hentry (code : String) : thresholds.entry code = thresholds'.entry code := by
    rw [ThresholdSet.entry, ThresholdSet.entry, hthresholds]
  have hmissing := factsMissing_congr hmetrics
  cases h : qualityUnavailable availability health fitness || factsMissing metrics with
  | true =>
    rw [guardianDecision_of_unavailable h, guardianDecision_of_unavailable (hmissing ▸ h), hmissing]
  | false =>
    have hmatches : guardianThresholdMatches metrics thresholds =
        guardianThresholdMatches metrics' thresholds' := by
      refine List.filter_congr fun code hcode => ?_
      rw [hmetrics code hcode, hentry]
    have hmet : metRules metrics thresholds = metRules metrics' thresholds' := by
      refine List.filter_congr fun rule hrule => ?_
      rw [hmetrics rule.code (mem_guardianCodes hrule), hentry]
    have hfindings : ((metRules metrics' thresholds').map fun rule =>
        rule.finding (factUids.lookup rule.code)) =
          (metRules metrics' thresholds').map fun rule =>
            rule.finding (factUids'.lookup rule.code) := by
      refine List.map_congr_left fun rule hrule => ?_
      rw [huids rule.code (mem_guardianCodes (List.mem_filter.mp hrule).1)]
    rw [guardianDecision_of_available h, guardianDecision_of_available (hmissing ▸ h), hmatches,
      hmet]
    dsimp only
    rw [hfindings]

variable (thresholds) in
/-- An unavailable decision does not look at the thresholds. -/
theorem guardianDecision_none_of_unavailable
    (h : (qualityUnavailable availability health fitness || factsMissing metrics) = true) :
    guardianDecision metrics none availability health fitness factUids =
      guardianDecision metrics (some thresholds) availability health fitness factUids := by
  rw [guardianDecision_of_unavailable h]
  unfold factsMissing at h ⊢
  simp only [guardianDecision, h]
  simp [strongestEffect, maxSeverity, dataLimitation, GuardianEffect.blocks]

theorem unavailable_guardianDecision (thresholds : Option ThresholdSet) :
    (guardianDecision metrics thresholds availability health fitness factUids).unavailable =
      (qualityUnavailable availability health fitness || factsMissing metrics) := rfl

end Decision

/-! ## The services -/

theorem map_fst_scoutRules : scoutRules.map Prod.fst = scoutCodes := rfl

theorem scoutCodes_disjoint {code : String} (h : code ∈ scoutCodes) : code ∉ guardianCodes := by
  revert h
  revert code
  decide

section Services

variable {db : Database} {stateUid : Uid} {availability : String} {health : DataHealthStatus}
  {fitness : FitnessStatus} {facts : List MetricFact} {metrics : Metrics}
  {guardianThresholds scoutThresholds : ThresholdSet}

/-- Facts of one family resolve its thresholds. -/
theorem resolveThresholdsForFacts_ok {tables : ThresholdTables} {thresholds : ThresholdSet}
    (hstored : VersionStored tables thresholds) {stateFacts : List StateFact}
    (hne : stateFacts ≠ [])
    (huid : ∀ f ∈ stateFacts, f.thresholdVersionUid = some thresholds.uid) :
    ∃ stored, resolveThresholdsForFacts tables thresholds.family stateFacts = .ok stored ∧
      stored.entries = thresholds.entries := by
  obtain ⟨stored, hresolve, hentries⟩ := hstored
  have huids : stateFacts.map StateFact.thresholdVersionUid =
      List.replicate stateFacts.length (some thresholds.uid) := by
    rw [List.eq_replicate_iff, List.length_map]
    refine ⟨rfl, fun uid h => ?_⟩
    obtain ⟨f, hf, rfl⟩ := List.mem_map.mp h
    exact huid f hf
  refine ⟨stored, ?_, hentries⟩
  rw [resolveThresholdsForFacts, huids,
    List.replicate_dedup (mt List.length_eq_zero_iff.mp hne)]
  exact hresolve

variable (hsame : SameInputs db stateUid availability health fitness facts guardianThresholds
  scoutThresholds)

include hsame

theorem SameInputs.byCode (code : String) : stateFactByCode (db.stateFacts stateUid) code =
    (factByCode facts code).map (stateFactOf guardianThresholds scoutThresholds) :=
  stateFactByCode_eq hsame.facts hsame.codes code

/-- The values the service reads are those of the facts. -/
theorem SameInputs.lookup_metricValues (code : String) :
    (metricValues (db.stateFacts stateUid)).lookup code =
      (factByCode facts code).map MetricFact.value := by
  rw [MarketMonitor.lookup_metricValues, hsame.byCode]
  cases factByCode facts code <;> rfl

theorem SameInputs.lookup_factUids (code : String) :
    (factUidsByCode (db.stateFacts stateUid)).lookup code = (factUidsOf facts).lookup code := by
  rw [lookup_factUidsByCode, lookup_factUidsOf, hsame.byCode]
  cases factByCode facts code <;> rfl

/-- The facts of some codes of a family resolve its thresholds. -/
theorem SameInputs.resolve {thresholds : ThresholdSet} {codes : List String}
    (hstored : VersionStored db.thresholds thresholds)
    (huid : ∀ fact ∈ facts, fact.code ∈ codes →
      (stateFactOf guardianThresholds scoutThresholds fact).thresholdVersionUid =
        some thresholds.uid)
    (hne : codes.filterMap (stateFactByCode (db.stateFacts stateUid)) ≠ []) :
    ∃ stored, resolveThresholdsForFacts db.thresholds thresholds.family
      (codes.filterMap (stateFactByCode (db.stateFacts stateUid))) = .ok stored ∧
      stored.entries = thresholds.entries := by
  refine resolveThresholdsForFacts_ok hstored hne fun f hf => ?_
  obtain ⟨code, hcode, hfound⟩ := List.mem_filterMap.mp hf
  rw [hsame.byCode, Option.map_eq_some_iff] at hfound
  obtain ⟨fact, hfact, rfl⟩ := hfound
  rw [factByCode, findRev?_eq_lookupBy] at hfact
  exact huid fact (List.mem_reverse.mp (Keyed.mem_of_lookupBy hfact))
    (Keyed.key_of_lookupBy hfact ▸ hcode)

/-- The service decides on the tables as the rules do on the facts. -/
theorem guardianServiceDecision_eq (hfacts : FactsCarry facts metrics) :
    guardianServiceDecision db stateUid = .ok (guardianDecision metrics (some guardianThresholds)
      availability health fitness (factUidsOf facts)) := by
  have hmetrics (code : String) (hcode : code ∈ guardianCodes) :
      (metricValues (db.stateFacts stateUid)).lookup code = metrics.lookup code := by
    rw [hsame.lookup_metricValues, hfacts code hcode]
  have huids (code : String) (_ : code ∈ guardianCodes) := hsame.lookup_factUids code
  have hmissing := factsMissing_congr hmetrics
  obtain ⟨state, hstate, rfl, rfl, rfl⟩ := hsame.state
  rw [guardianServiceDecision, hstate]
  change (if (guardianDecision _ none _ _ _ _).unavailable = true then _ else _) = _
  rw [unavailable_guardianDecision]
  cases h : qualityUnavailable state.availabilityState state.dataHealthStatus state.fitnessStatus ||
      factsMissing (metricValues (db.stateFacts stateUid)) with
  | true =>
    rw [if_pos rfl]
    exact congrArg Except.ok ((guardianDecision_none_of_unavailable guardianThresholds h).trans
      (guardianDecision_congr hmetrics rfl huids))
  | false =>
    have hcodes : guardianRules.filterMap (fun rule =>
        stateFactByCode (db.stateFacts stateUid) rule.code) =
          guardianCodes.filterMap (stateFactByCode (db.stateFacts stateUid)) := by
      rw [← map_code_guardianRules, List.filterMap_map]
      rfl
    have hpresent : (metricValues (db.stateFacts stateUid)).lookup "RISE_RATE_PPM" ≠ none :=
      fun hnone => absurd (factsMissing_iff.mpr ⟨_, by decide, hnone⟩)
        (by rw [(Bool.or_eq_false_iff.mp h).2]; exact Bool.false_ne_true)
    have hne : guardianCodes.filterMap (stateFactByCode (db.stateFacts stateUid)) ≠ [] := by
      rw [MarketMonitor.lookup_metricValues] at hpresent
      obtain ⟨f, hf⟩ : ∃ f, stateFactByCode (db.stateFacts stateUid) "RISE_RATE_PPM" = some f :=
        Option.ne_none_iff_exists'.mp fun hnone => hpresent (by rw [hnone, Option.bind_none])
      exact List.ne_nil_of_mem (List.mem_filterMap.mpr ⟨"RISE_RATE_PPM", by decide, hf⟩)
    obtain ⟨stored, hresolve, hentries⟩ := hsame.resolve hsame.guardianVersion
      (fun fact _ hcode => by rw [stateFactOf, if_pos hcode]) hne
    rw [if_neg Bool.false_ne_true, hcodes, ← hsame.guardianFamily, hresolve]
    exact congrArg Except.ok (guardianDecision_congr hmetrics hentries huids)

/-- The service finds in the tables the opportunities that a commit finds in the facts. -/
theorem scoutServiceFindings_eq {guardian : GuardianEvaluation}
    (hguardian : guardian.stateEvaluationUid = stateUid) :
    scoutServiceFindings db guardian =
      .ok (scoutFindings guardian.guardianEffect facts scoutThresholds) := by
  subst hguardian
  let rated (opportunities : List OpportunityFinding) : ScoutFindings :=
    ⟨opportunities, scoutStatus opportunities.length, scoutStrength opportunities.length,
      guardian.guardianEffect.blocks⟩
  have hcodes : scoutRules.filterMap (fun rule =>
      stateFactByCode (db.stateFacts guardian.stateEvaluationUid) rule.1) =
        scoutCodes.filterMap (stateFactByCode (db.stateFacts guardian.stateEvaluationUid)) := by
    rw [← map_fst_scoutRules, List.filterMap_map]
    rfl
  rw [scoutServiceFindings]
  dsimp only
  rw [hcodes]
  by_cases hnone : scoutCodes.filterMap
      (stateFactByCode (db.stateFacts guardian.stateEvaluationUid)) = []
  · have hmissing (rule : String × OpportunityTag) (hrule : rule ∈ scoutRules) :
        factByCode facts rule.1 = none := by
      have h := List.filterMap_eq_nil_iff.mp hnone rule.1
        (map_fst_scoutRules ▸ List.mem_map_of_mem hrule)
      rwa [hsame.byCode, Option.map_eq_none_iff] at h
    rw [if_pos hnone]
    refine congrArg Except.ok (congrArg rated (List.filterMap_congr fun rule hrule => ?_))
    rw [hsame.byCode, hmissing rule hrule]
    rfl
  · obtain ⟨stored, hresolve, hentries⟩ := hsame.resolve hsame.scoutVersion
      (fun fact _ hcode => by rw [stateFactOf, if_neg (scoutCodes_disjoint hcode)]) hnone
    have hentry (code : String) : stored.entry code = scoutThresholds.entry code := by
      rw [ThresholdSet.entry, ThresholdSet.entry, hentries]
    rw [if_neg hnone, ← hsame.scoutFamily, hresolve]
    refine congrArg Except.ok (congrArg rated (List.filterMap_congr fun rule hrule => ?_))
    rw [hsame.byCode]
    cases factByCode facts rule.1 with
    | none => rfl
    | some fact => simp only [Option.map_some, Option.bind_eq_bind, Option.bind_some, stateFactOf,
        hentry]

end Services

/-! ## What is written -/

/-- A Guardian evaluation was written with what a decision says. -/
def GuardianPersisted (guardianUid stateUid : Uid) (decision : GuardianDecision)
    (t t' : AnalysisTables) : Prop :=
  ∃ row : GuardianEvaluation, t'.guardianEvaluation = t.guardianEvaluation ++ [row] ∧
    row.guardianUid = guardianUid ∧ row.stateEvaluationUid = stateUid ∧
    row.guardianEffect = decision.guardianEffect ∧ row.blocking = decision.blocking ∧
    row.maxSeverity = decision.maxSeverity ∧
    t'.guardianRiskTag = t.guardianRiskTag ++ decision.risks.map (riskRow guardianUid)

/-- A Scout evaluation was written with what findings say. -/
def ScoutPersisted (scoutUid guardianUid : Uid) (findings : ScoutFindings)
    (t t' : AnalysisTables) : Prop :=
  ∃ row : ScoutEvaluation, t'.scoutEvaluation = t.scoutEvaluation ++ [row] ∧
    row.scoutUid = scoutUid ∧ row.guardianUid = guardianUid ∧
    row.scoutStatus = findings.status ∧ row.scoutStrength = findings.strength ∧
    row.suppressedByGuardian = findings.suppressed ∧
    t'.scoutOpportunityTag = t.scoutOpportunityTag ++ findings.opportunities.map fun item =>
      ⟨scoutUid, item.opportunityTag, item.reasonCode, item.primaryFactUid⟩

/-- A commit writes what the rules decide on its facts. -/
theorem guardianPersisted_of_insertGuardian {uids : CommitUids} {snapshot : CommitSnapshot}
    {stateUid : Uid} {stateHash : String} {request : AnalysisCommitRequest}
    {facts : List MetricFact} {metrics : Metrics} {thresholds : ThresholdSet}
    {t t' : AnalysisTables} {result : GuardianFindings × String} (hfacts : FactsCarry facts metrics)
    (h : (insertGuardian uids snapshot stateUid stateHash request facts thresholds).run t =
      .ok result t') :
    GuardianPersisted uids.guardian stateUid (guardianDecision metrics (some thresholds)
      request.availabilityState snapshot.dataHealthStatus snapshot.fitnessStatus
      (factUidsOf facts)) t t' := by
  have hinserted := insertGuardian_ok h
  have hfindings := hinserted.findings_eq
  rw [guardianFindings_eq_decision hfacts] at hfindings
  refine ⟨_, by rw [hinserted.tables], rfl, rfl, ?_, ?_, ?_, ?_⟩
  · rw [guardianRow, hfindings]
  · rw [guardianRow, hfindings]
    rfl
  · rw [guardianRow, hfindings]
  · rw [hinserted.tables, hfindings]

/-- The service writes what it decided, when there is no evaluation yet. -/
theorem guardianPersisted_of_evaluate {guardianUid stateUid uid : Uid} {db db' : Database}
    {decision : GuardianDecision}
    (hnew : ∀ g ∈ db.analysis.guardianEvaluation, g.stateEvaluationUid ≠ stateUid)
    (hdecision : guardianServiceDecision db stateUid = .ok decision)
    (hblocking : decision.blocking = decision.guardianEffect.blocks)
    (h : (guardianServiceEvaluate guardianUid stateUid).run db = .ok uid db') :
    uid = guardianUid ∧
      GuardianPersisted guardianUid stateUid decision db.analysis db'.analysis := by
  have hnone : db.analysis.guardianEvaluation.find? (fun g =>
      g.stateEvaluationUid = stateUid) = none :=
    List.find?_eq_none.mpr fun g hg => by simpa using hnew g hg
  rw [guardianServiceEvaluate, run_bind_of_ok (run_get db)] at h
  simp only [hnone, run_bind_eq_ok, run_fromExcept_eq_ok, run_pure_eq_ok] at h
  obtain ⟨state, _, ⟨-, rfl⟩, decision', _, ⟨hdecision', rfl⟩, _, _, hsubmit, rfl, rfl⟩ := h
  obtain rfl : decision = decision' := Except.ok.inj (hdecision.symm.trans hdecision')
  obtain ⟨t', hcommand, rfl⟩ := submit_eq_ok.mp hsubmit
  obtain ⟨_, t₁, hrow, hrisks⟩ := run_bind_eq_ok.mp hcommand
  obtain ⟨-, rfl⟩ := run_insertInto_eq_ok.mp hrow
  rw [insertRisks_ok hrisks]
  exact ⟨rfl, _, rfl, rfl, rfl, rfl, hblocking.symm, rfl, rfl⟩

theorem scoutPersisted_of_insertScout {uids : CommitUids} {snapshot : CommitSnapshot}
    {stateUid guardianUid : Uid} {guardianHash : String} {guardianEffect : GuardianEffect}
    {facts : List MetricFact} {thresholds : ThresholdSet} {t t' : AnalysisTables}
    {result : ScoutFindings × String}
    (h : (insertScout uids snapshot stateUid guardianUid guardianHash guardianEffect facts
      thresholds).run t = .ok result t') :
    ScoutPersisted uids.scout guardianUid (scoutFindings guardianEffect facts thresholds) t t' := by
  have hinserted := insertScout_ok h
  rw [← hinserted.findings_eq]
  refine ⟨_, by rw [hinserted.tables], rfl, rfl, rfl, rfl, rfl, by rw [hinserted.tables]⟩

/-- A call of the Scout service that returns persists its findings. -/
theorem scoutPersisted_of_evaluate {scoutUid guardianUid uid : Uid} {db db' : Database}
    {guardian : GuardianEvaluation} {findings : ScoutFindings}
    (hnew : ∀ s ∈ db.analysis.scoutEvaluation, s.guardianUid ≠ guardianUid)
    (hguardian : db.analysis.guardianEvaluation.find? (fun g => g.guardianUid = guardianUid) =
      some guardian)
    (hfindings : scoutServiceFindings db guardian = .ok findings)
    (h : (scoutServiceEvaluate scoutUid guardianUid).run db = .ok uid db') :
    uid = scoutUid ∧ ScoutPersisted scoutUid guardianUid findings db.analysis db'.analysis := by
  have hnone : db.analysis.scoutEvaluation.find? (fun s => s.guardianUid = guardianUid) = none :=
    List.find?_eq_none.mpr fun s hs => by simpa using hnew s hs
  rw [scoutServiceEvaluate, run_bind_of_ok (run_get db)] at h
  simp only [hnone, hguardian, oneRow, run_bind_eq_ok, run_fromExcept_eq_ok, run_pure_eq_ok] at h
  obtain ⟨guardian', _, ⟨hguardian', rfl⟩, state, _, ⟨-, rfl⟩, findings', _, ⟨hfindings', rfl⟩, _,
    _, hsubmit, rfl, rfl⟩ := h
  obtain rfl := Except.ok.inj hguardian'
  obtain rfl : findings = findings' := Except.ok.inj (hfindings.symm.trans hfindings')
  obtain ⟨t', hcommand, rfl⟩ := submit_eq_ok.mp hsubmit
  obtain ⟨_, t₁, hrow, htags⟩ := run_bind_eq_ok.mp hcommand
  obtain ⟨-, rfl⟩ := run_insertInto_eq_ok.mp hrow
  rw [insertOpportunities_ok htags]
  exact ⟨rfl, _, rfl, rfl, rfl, rfl, rfl, rfl, rfl⟩

/-! ## Agreement -/

/-- On the same facts, thresholds and quality a commit, the rules and the stand-alone
services write one Guardian evaluation, and a commit and the Scout service one Scout
evaluation under its effect. -/
theorem guardian_paths_agree {db : Database} {stateUid : Uid} {availability : String}
    {health : DataHealthStatus} {fitness : FitnessStatus} {facts : List MetricFact}
    {metrics : Metrics} {guardianThresholds scoutThresholds : ThresholdSet}
    (hfacts : FactsCarry facts metrics)
    (hsame : SameInputs db stateUid availability health fitness facts guardianThresholds
      scoutThresholds) :
    let decision := guardianDecision metrics (some guardianThresholds) availability health fitness
      (factUidsOf facts)
    (∀ (uids : CommitUids) (snapshot : CommitSnapshot) (stateHash : String)
        (request : AnalysisCommitRequest) (t t' : AnalysisTables)
        (result : GuardianFindings × String),
      request.availabilityState = availability → snapshot.dataHealthStatus = health →
      snapshot.fitnessStatus = fitness →
      (insertGuardian uids snapshot stateUid stateHash request facts guardianThresholds).run t =
        .ok result t' →
      GuardianPersisted uids.guardian stateUid decision t t') ∧
    guardianServiceDecision db stateUid = .ok decision ∧
    (∀ (guardianUid uid : Uid) (db' : Database),
      (∀ g ∈ db.analysis.guardianEvaluation, g.stateEvaluationUid ≠ stateUid) →
      (guardianServiceEvaluate guardianUid stateUid).run db = .ok uid db' →
      uid = guardianUid ∧
        GuardianPersisted guardianUid stateUid decision db.analysis db'.analysis) ∧
    ∀ (guardianUid : Uid) (guardian : GuardianEvaluation),
      db.analysis.guardianEvaluation.find? (fun g => g.guardianUid = guardianUid) =
        some guardian →
      guardian.stateEvaluationUid = stateUid →
      let findings := scoutFindings guardian.guardianEffect facts scoutThresholds
      (∀ (uids : CommitUids) (snapshot : CommitSnapshot) (guardianHash : String)
          (t t' : AnalysisTables) (result : ScoutFindings × String),
        (insertScout uids snapshot stateUid guardianUid guardianHash guardian.guardianEffect facts
          scoutThresholds).run t = .ok result t' →
        ScoutPersisted uids.scout guardianUid findings t t') ∧
      scoutServiceFindings db guardian = .ok findings ∧
      ∀ (scoutUid uid : Uid) (db' : Database),
        (∀ s ∈ db.analysis.scoutEvaluation, s.guardianUid ≠ guardianUid) →
        (scoutServiceEvaluate scoutUid guardianUid).run db = .ok uid db' →
        uid = scoutUid ∧
          ScoutPersisted scoutUid guardianUid findings db.analysis db'.analysis := by
  have hservice := guardianServiceDecision_eq hsame hfacts
  refine ⟨?_, hservice, ?_, ?_⟩
  · rintro uids snapshot stateHash request t t' result rfl rfl rfl h
    exact guardianPersisted_of_insertGuardian hfacts h
  · intro guardianUid uid db' hnew h
    exact guardianPersisted_of_evaluate hnew hservice rfl h
  · intro guardianUid guardian hguardian hstate
    have hfindings := scoutServiceFindings_eq hsame hstate
    exact ⟨fun _ _ _ _ _ _ h => scoutPersisted_of_insertScout h, hfindings,
      fun _ _ _ hnew h => scoutPersisted_of_evaluate hnew hguardian hfindings h⟩

/-- A state evaluation with one fact. -/
def evaluatedDatabase : Database where
  evidence :=
    { evaluationSnapshot := [⟨"snapshot", "sector", "manifest", "bundle", "quality", 0, .official,
        .sealed, "hash"⟩]
      qualityContext := [⟨"quality", .healthy, .fit, .high⟩]
      qualityLimitation := []
      inputManifest := []
      referenceVersionBundle := []
      referenceVersionEntry := []
      capabilitySnapshot := []
      ruleExecution := [⟨"execution", "snapshot", "CR004_GUARDIAN_METRICS",
        "cr004-market-metrics-v2", some "GUARDIAN", .valid, "input", "output"⟩]
      factRecord := [⟨"fact", "snapshot", "execution", "quality", "CROWDING_PPM", some 600000, 6,
        .value, "ratio", "hash"⟩] }
  thresholds := sampleThresholdTables
  analysis :=
    { AnalysisTables.empty with
      stateEvaluation := [⟨"state", "snapshot", "sector", .official, .available, some .observing,
        "hash", 0⟩]
      stateEvaluationFact := [⟨"state", "fact"⟩] }
  artifacts := ⟨[], []⟩
  officialCycleRun := []
  metadata := ⟨1, some "NORMAL"⟩

/-- The sample versions are stored with their entries. -/
theorem versionStored_sample (family : ThresholdFamily) :
    VersionStored sampleThresholdTables (sampleThresholds family) := by
  refine ⟨{ sampleThresholds family with effectiveTime := none }, ?_, rfl⟩
  have hversion : sampleThresholdTables.version? (sampleThresholds family).uid =
      some ⟨family.text, family, "v1", .ownerApproved, "owner",
        (sampleThresholds family).definitionHash⟩ := by
    cases family <;> rfl
  rw [resolveThresholdByUid, hversion]
  dsimp only
  rw [if_neg (fun hne => hne rfl)]
  exact setFromRow_sample family rfl rfl rfl none

theorem evaluatedDatabase_inputs : SameInputs evaluatedDatabase "state" "AVAILABLE" .healthy .fit
    [⟨"fact", "CROWDING_PPM", 600000, "hash"⟩] (sampleThresholds .guardian)
    (sampleThresholds .scout) where
  state := ⟨_, rfl, rfl, rfl, rfl⟩
  codes := by decide
  facts := List.Perm.refl _
  guardianFamily := rfl
  scoutFamily := rfl
  guardianVersion := versionStored_sample .guardian
  scoutVersion := versionStored_sample .scout

/-- With one metric of ten the Guardian pauses on every path. -/
theorem guardian_paths_pause :
    guardianServiceDecision evaluatedDatabase "state" =
      .ok (guardianDecision [("CROWDING_PPM", 600000)] (some (sampleThresholds .guardian))
        "AVAILABLE" .healthy .fit (factUidsOf [⟨"fact", "CROWDING_PPM", 600000, "hash"⟩])) :=
  (guardian_paths_agree (by decide) evaluatedDatabase_inputs).2.1

end MarketMonitor
