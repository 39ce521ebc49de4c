import MarketMonitor.Analysis.CommitOrder
import MarketMonitor.Persistence.Recovery

/-!
# The rebuild reproduces the projections

The commits maintain the projections one at a time; the rebuild computes them at once,
by the latest commit, the latest available one and their number. Both agree when the
commits of each subject are in the order of their observation times, and then no
projection drifts.
-/

namespace MarketMonitor

open Transaction Keyed View

variable {allowed : Database → AnalysisCommitRequest → Prop} {db db' : Database}

/-! ## The projection of a list of commits -/

/-- The last available commit. -/
def lastAvailable (es : List (AnalysisCommit × StateEvaluation)) :
    Option (AnalysisCommit × StateEvaluation) :=
  (es.filter isAvailable).getLast?

/-- The projection the commits of a subject give, the last of them being `p`. -/
def summary (es : List (AnalysisCommit × StateEvaluation)) (p : AnalysisCommit × StateEvaluation) :
    StateProjection where
  subjectUid := p.2.subjectUid
  availabilityState := p.2.availabilityState
  effectiveLifecycleState := p.2.lifecycleState
  lastValidLifecycleState := (lastAvailable es).bind fun q => q.2.lifecycleState
  lastValidAsOfTime := (lastAvailable es).map fun q => q.2.createdAt
  evaluationUid := p.2.evaluationUid
  asOfTime := p.2.createdAt
  version := es.length
  rewarmRequired := p.2.availabilityState = .warmingUp

/-- One more commit, of which the lifecycle is there when it is available. -/
theorem projectionStep_summary {es : List (AnalysisCommit × StateEvaluation)}
    {p : AnalysisCommit × StateEvaluation}
    (hp : p.2.lifecycleState.isSome ↔ p.2.availabilityState = .available) :
    projectionStep (es.getLast?.map (summary es)) p = summary (es ++ [p]) p := by
  have hversion : ((es.getLast?.map (summary es)).map StateProjection.version).getD 0 =
      es.length := by
    cases es using List.reverseRecOn with
    | nil => rfl
    | append_singleton es q => simp [summary]
  have hvalid : (es.getLast?.map (summary es)).bind StateProjection.lastValidLifecycleState =
      (lastAvailable es).bind fun q => q.2.lifecycleState := by
    cases es using List.reverseRecOn with
    | nil => rfl
    | append_singleton es q => simp [summary]
  have hasOf : (es.getLast?.map (summary es)).bind StateProjection.lastValidAsOfTime =
      (lastAvailable es).map fun q => q.2.createdAt := by
    cases es using List.reverseRecOn with
    | nil => rfl
    | append_singleton es q => simp [summary]
  by_cases havailable : p.2.availabilityState = .available
  · have hlast : lastAvailable (es ++ [p]) = some p := by
      simp [lastAvailable, isAvailable, havailable]
    simp only [projectionStep, summary, hversion, hlast, hp.mpr havailable, if_true,
      Option.bind_some, Option.map_some, List.length_append, List.length_singleton]
  · have hlast : lastAvailable (es ++ [p]) = lastAvailable es := by
      simp [lastAvailable, isAvailable, havailable]
    have hnone : ¬p.2.lifecycleState.isSome := fun h => havailable (hp.mp h)
    simp only [projectionStep, summary, hversion, hvalid, hasOf, hlast, hnone,
      Bool.false_eq_true, if_false, List.length_append, List.length_singleton]

/-- The projection of a subject is the summary of its commits. -/
theorem CommitLedger.projection_eq_summary (hledger : CommitLedger db) (subjectUid : Uid) :
    db.analysis.projection subjectUid =
      (db.analysis.commitsOf subjectUid).getLast?.map
        (summary (db.analysis.commitsOf subjectUid)) := by
  have hview : (∀ e ∈ db.analysis.commitsOf subjectUid, Observed db e) →
      view committedSubject projectionStep subjectUid db.analysis.committedEvaluations =
        (db.analysis.commitsOf subjectUid).getLast?.map
          (summary (db.analysis.commitsOf subjectUid)) := by
    refine view_induction (P := fun es row => (∀ e ∈ es, Observed db e) →
      row = es.getLast?.map (summary es)) (fun _ => rfl) ?_ _
    intro es row e _ ih hes
    rw [ih fun e he => hes e (List.mem_append_left _ he),
      projectionStep_summary (hes e (by simp)).lifecycle, List.getLast?_concat]
    rfl
  rw [hledger.projection_eq_view]
  exact hview fun e he => hledger.observed e (mem_entries.mp he).1

/-! ## The queries -/

theorem mem_observedCommits {q : (AnalysisCommit × StateEvaluation) × EvaluationSnapshot} :
    q ∈ db.observedCommits ↔
      q.1 ∈ db.analysis.committedEvaluations ∧ db.snapshot q.1.2.snapshotUid = some q.2 := by
  simp only [Database.observedCommits, List.mem_filterMap, Option.map_eq_some_iff]
  constructor
  · rintro ⟨p, hp, s, hs, rfl⟩
    exact ⟨hp, hs⟩
  · rintro ⟨hp, hs⟩
    exact ⟨q.1, hp, q.2, hs, rfl⟩

/-- The observation time of a commit is the one of its snapshot. -/
theorem CommitLedger.asOfTime_of_mem (hledger : CommitLedger db)
    {q : (AnalysisCommit × StateEvaluation) × EvaluationSnapshot} (hq : q ∈ db.observedCommits) :
    q.2.asOfTime = q.1.2.createdAt := by
  obtain ⟨hp, hs⟩ := mem_observedCommits.mp hq
  obtain ⟨row, hrow, -, -, hasOf⟩ := (hledger.observed q.1 hp).snapshot
  rw [← Option.some.inj (hrow.symm.trans hs), hasOf]

/-- A join in which every row has its partner keeps the rows. -/
theorem map_fst_filter_join {α β : Type} {f : α → Option β} (P : α → Bool) {l : List α}
    (h : ∀ a ∈ l, (f a).isSome) :
    ((l.filterMap fun a => (f a).map fun b => (a, b)).filter fun q => P q.1).map Prod.fst =
      l.filter P := by
  induction l with
  | nil => rfl
  | cons a l ih =>
    obtain ⟨b, hb⟩ := Option.isSome_iff_exists.mp (h a List.mem_cons_self)
    have hrest := ih fun a' ha' => h a' (List.mem_cons_of_mem a ha')
    rw [List.filterMap_cons_some (b := (a, b)) (by rw [hb]; rfl)]
    by_cases hP : P a
    · rw [List.filter_cons_of_pos (by exact hP), List.filter_cons_of_pos hP, List.map_cons, hrest]
    · rw [List.filter_cons_of_neg (by exact hP), List.filter_cons_of_neg hP, hrest]

/-- Every commit is joined with its snapshot. -/
theorem CommitLedger.map_fst_observed (hledger : CommitLedger db)
    (P : AnalysisCommit × StateEvaluation → Bool) :
    (db.observedCommits.filter fun q => P q.1).map Prod.fst =
      db.analysis.committedEvaluations.filter P := by
  refine map_fst_filter_join P fun p hp => ?_
  obtain ⟨row, hrow, -⟩ := (hledger.observed p hp).snapshot
  rw [hrow]
  rfl

/-- The latest of the joined commits is the last of the commits. -/
theorem CommitLedger.latest_observed {γ : Type} (hledger : CommitLedger db)
    {P : AnalysisCommit × StateEvaluation → Bool}
    {f : (AnalysisCommit × StateEvaluation) × EvaluationSnapshot → γ}
    {g : AnalysisCommit × StateEvaluation → γ}
    (hincreasing : (db.analysis.committedEvaluations.filter P).Pairwise
      fun p q => commitOrder p < commitOrder q)
    (hfg : ∀ q ∈ db.observedCommits, f q = g q.1) :
    (latest (fun q => commitOrder q.1) (db.observedCommits.filter fun q => P q.1)).map f =
      (db.analysis.committedEvaluations.filter P).getLast?.map g := by
  rw [← hledger.map_fst_observed, List.pairwise_map] at hincreasing
  rw [latest_eq_getLast? hincreasing, ← hledger.map_fst_observed, List.getLast?_map, Option.map_map]
  cases hlast : (db.observedCommits.filter fun q => P q.1).getLast? with
  | none => rfl
  | some q =>
    have hq := List.mem_of_mem_getLast? hlast
    exact congrArg some (hfg q (List.mem_filter.mp hq).1)

theorem CommitsOrdered.commitOrder {t : AnalysisTables} (h : CommitsOrdered (· < ·) t)
    (subjectUid : Uid) :
    (t.commitsOf subjectUid).Pairwise fun p q => commitOrder p < commitOrder q :=
  (h subjectUid).imp fun hlt => Prod.Lex.toLex_lt_toLex.mpr (Or.inl hlt)

/-- The available commits of a subject. -/
def availableOf (subjectUid : Uid) (p : AnalysisCommit × StateEvaluation) : Bool :=
  p.2.subjectUid = subjectUid ∧ isAvailable p

theorem filter_availableOf {t : AnalysisTables} (subjectUid : Uid) :
    t.committedEvaluations.filter (availableOf subjectUid) =
      (t.commitsOf subjectUid).filter isAvailable := by
  rw [AnalysisTables.commitsOf, entries, List.filter_filter]
  refine List.filter_congr fun p _ => ?_
  simp only [availableOf, committedSubject, Bool.decide_and, Bool.decide_eq_true]
  exact Bool.and_comm _ _

/-! ## The state projections -/

section State

variable (hledger : CommitLedger db) (hasOf : CommitsOrdered (· < ·) db.analysis)

include hledger hasOf

/-- The columns the commits give are those of the projection. -/
theorem expectedState_eq (subjectUid : Uid) : expectedState db subjectUid =
    (db.analysis.projection subjectUid).map StateProjection.columns := by
  have hcommits := hasOf.commitOrder subjectUid
  have havailable := hcommits.filter isAvailable
  rw [← filter_availableOf] at havailable
  have hfilter : (db.observedCommits.filter fun q => q.1.2.subjectUid = subjectUid).filter
      (fun q => isAvailable q.1) =
        db.observedCommits.filter fun q => availableOf subjectUid q.1 := by
    rw [List.filter_filter]
    refine List.filter_congr fun q _ => ?_
    simp only [availableOf, Bool.decide_and, Bool.decide_eq_true]
    exact Bool.and_comm _ _
  have hvalid := hledger.latest_observed (f := Prod.fst) (g := id) havailable fun _ _ => rfl
  rw [filter_availableOf, Option.map_id_apply] at hvalid
  have hvalidAsOf := hledger.latest_observed (f := fun q => q.2.asOfTime)
    (g := fun p => p.2.createdAt) havailable fun _ hq => hledger.asOfTime_of_mem hq
  rw [filter_availableOf] at hvalidAsOf
  unfold expectedState
  rw [hledger.projection_eq_summary, Option.map_map]
  refine hledger.latest_observed (P := fun p => p.2.subjectUid = subjectUid) hcommits ?_
  intro q hq
  have hlifecycle : (latest (fun q => MarketMonitor.commitOrder q.1)
      (db.observedCommits.filter fun q => availableOf subjectUid q.1)).bind
        (fun v => v.1.2.lifecycleState) =
      (lastAvailable (db.analysis.commitsOf subjectUid)).bind fun p => p.2.lifecycleState := by
    rw [lastAvailable, ← hvalid, Option.bind_map]
    rfl
  simp only [hfilter, hlifecycle, hvalidAsOf, hledger.asOfTime_of_mem hq]
  rfl

/-- The commit whose identifier the latest of its subject has is the last one. -/
theorem latestUid_eq_iff {p : AnalysisCommit × StateEvaluation}
    (hp : p ∈ db.analysis.committedEvaluations) :
    (latest commitOrder (db.analysis.commitsOf p.2.subjectUid)).map (fun q => q.1.commitUid) =
      some p.1.commitUid ↔ (db.analysis.commitsOf p.2.subjectUid).getLast? = some p := by
  rw [latest_eq_getLast? (hasOf.commitOrder _)]
  constructor
  · intro h
    obtain ⟨q, hq, huid⟩ := Option.map_eq_some_iff.mp h
    have hmem := (mem_entries.mp (List.mem_of_mem_getLast? hq)).1
    rw [hq, List.inj_on_of_nodup_map hledger.commitsUnique hmem hp huid]
  · intro h
    rw [h]
    rfl

/-- The rebuilt rows are the summaries of the last commits, to be rewarmed. -/
theorem stateRebuildRows_eq : stateRebuildRows db = db.observedCommits.filterMap fun q =>
    if (db.analysis.commitsOf q.1.2.subjectUid).getLast? = some q.1 then
      some { summary (db.analysis.commitsOf q.1.2.subjectUid) q.1 with rewarmRequired := true }
    else none := by
  refine List.filterMap_congr fun q hq => ?_
  have hcommits := hasOf.commitOrder q.1.2.subjectUid
  have havailable := hcommits.filter isAvailable
  have hvalid := latest_eq_getLast? havailable
  rw [← filter_availableOf] at havailable
  have hvalidAsOf := hledger.latest_observed (f := fun q => q.2.asOfTime)
    (g := fun p => p.2.createdAt) havailable fun _ hq => hledger.asOfTime_of_mem hq
  rw [filter_availableOf] at hvalidAsOf
  simp only [latestUid_eq_iff hledger hasOf (mem_observedCommits.mp hq).1, hvalid,
    hledger.asOfTime_of_mem hq]
  by_cases hlast : (db.analysis.commitsOf q.1.2.subjectUid).getLast? = some q.1
  · rw [if_pos hlast, if_pos hlast]
    refine congrArg some ?_
    have hsame : (latest (fun q => commitOrder q.1) (db.observedCommits.filter fun q' =>
        decide (q'.1.2.subjectUid = q.1.2.subjectUid ∧ isAvailable q'.1 = true))).map
          (fun q => q.2.asOfTime) = _ := hvalidAsOf
    rw [hsame]
    rfl
  · rw [if_neg hlast, if_neg hlast]

/-- A rebuilt row is the projection of its subject, to be rewarmed. -/
theorem mem_stateRebuildRows {r : StateProjection} : r ∈ stateRebuildRows db ↔
    ∃ p, db.analysis.projection r.subjectUid = some p ∧ r = { p with rewarmRequired := true } := by
  rw [stateRebuildRows_eq hledger hasOf, List.mem_filterMap]
  constructor
  · rintro ⟨q, hq, hr⟩
    split at hr
    · rename_i hlast
      obtain rfl := Option.some.inj hr
      refine ⟨summary (db.analysis.commitsOf q.1.2.subjectUid) q.1, ?_, rfl⟩
      rw [hledger.projection_eq_summary]
      exact congrArg (Option.map _) hlast
    · cases hr
  · rintro ⟨p, hp, hr⟩
    rw [hledger.projection_eq_summary] at hp
    obtain ⟨q, hq, rfl⟩ := Option.map_eq_some_iff.mp hp
    have hmem := List.mem_of_mem_getLast? hq
    obtain ⟨hcommitted, hsubject⟩ := mem_entries.mp hmem
    obtain ⟨s, hs, -⟩ := (hledger.observed q hcommitted).snapshot
    refine ⟨(q, s), mem_observedCommits.mpr ⟨hcommitted, hs⟩, ?_⟩
    have hsubject' : q.2.subjectUid = r.subjectUid := hsubject
    simp only [hsubject', hq, if_true]
    exact congrArg some hr.symm

/-- No subject is rebuilt twice. -/
theorem nodup_stateRebuildRows :
    ((stateRebuildRows db).map StateProjection.subjectUid).Nodup := by
  have hcommitted : db.observedCommits.Pairwise fun q q' => q.1.1.commitUid ≠ q'.1.1.commitUid := by
    have hall := hledger.map_fst_observed fun _ => true
    rw [List.filter_true, List.filter_true] at hall
    have hunique := hledger.commitsUnique
    rw [← hall, List.map_map] at hunique
    exact List.pairwise_map.mp hunique
  rw [stateRebuildRows_eq hledger hasOf, List.Nodup, List.pairwise_map, List.pairwise_filterMap]
  refine hcommitted.imp_of_mem ?_
  intro q q' _ _ hne r hr r' hr' hsubject
  split at hr
  · split at hr'
    · rename_i hlast hlast'
      obtain rfl := Option.some.inj hr
      obtain rfl := Option.some.inj hr'
      have hsame : q.1.2.subjectUid = q'.1.2.subjectUid := hsubject
      rw [hsame, hlast'] at hlast
      exact hne (congrArg (fun p => p.1.commitUid) (Option.some.inj hlast).symm)
    · cases hr'
  · cases hr

/-- The rebuilt rows are the projections the commits had left, to be rewarmed. -/
theorem stateRebuildRows_perm (hunique : db.analysis.ProjectionsUnique) :
    (stateRebuildRows db).Perm (db.analysis.currentStateProjection.map fun p =>
      { p with rewarmRequired := true }) := by
  have hkeys : ((db.analysis.currentStateProjection.map fun p =>
      { p with rewarmRequired := true }).map StateProjection.subjectUid).Nodup := by
    rw [List.map_map]
    exact hunique
  refine (List.perm_ext_iff_of_nodup (nodup_stateRebuildRows hledger hasOf).of_map hkeys.of_map).mpr
    fun r => ?_
  rw [mem_stateRebuildRows hledger hasOf, List.mem_map]
  constructor
  · rintro ⟨p, hp, rfl⟩
    exact ⟨p, mem_of_lookupBy hp, rfl⟩
  · rintro ⟨p, hp, rfl⟩
    exact ⟨p, lookupBy_of_mem hunique hp, rfl⟩

end State

/-! ## The event projections -/

theorem latestVersion_eq {t : AnalysisTables} (horder : EventOrder (· < ·) t) (key : String) :
    latest versionOrder (entries versionKey key t.eventLog) =
      (entries versionKey key t.eventLog).getLast? :=
  latest_eq_getLast? ((horder.increasing key).imp fun hlt =>
    Prod.Lex.toLex_lt_toLex.mpr (Or.inl hlt))

section Events

variable {t : AnalysisTables} (hledger : EventLedger t)

include hledger

theorem EventLedger.nodup_eventLog :
    (t.eventLog.map fun p => p.1.eventVersionUid).Nodup := by
  have hversions : t.eventLog.map Prod.fst = t.eventVersion :=
    map_fst_join hledger.references.eventsUnique hledger.references.eventOfVersion
  have hunique := hledger.references.versionsUnique
  rw [← hversions, List.map_map] at hunique
  exact hunique

variable (horder : EventOrder (· < ·) t)

include horder

/-- The version whose identifier the latest of its related key has is the last one. -/
theorem latestVersionUid_eq_iff {p : EventVersion × MarketEvent} (hp : p ∈ t.eventLog) :
    (latest versionOrder (entries versionKey p.2.relatedKey t.eventLog)).map
        (fun q => q.1.eventVersionUid) = some p.1.eventVersionUid ↔
      (entries versionKey p.2.relatedKey t.eventLog).getLast? = some p := by
  rw [latestVersion_eq horder]
  constructor
  · intro h
    obtain ⟨q, hq, huid⟩ := Option.map_eq_some_iff.mp h
    have hmem := (mem_entries.mp (List.mem_of_mem_getLast? hq)).1
    rw [hq, List.inj_on_of_nodup_map hledger.nodup_eventLog hmem hp huid]
  · intro h
    rw [h]
    rfl

/-- A rebuilt row is the projection of its related key. -/
theorem mem_eventRebuildRows {r : EventProjection} :
    r ∈ eventRebuildRows t ↔ t.eventProjection r.relatedKey = some r := by
  rw [eventRebuildRows, List.mem_filterMap, hledger.eventMachine.projected]
  constructor
  · rintro ⟨p, hp, hr⟩
    simp only [latestVersionUid_eq_iff hledger horder hp] at hr
    split at hr
    · rename_i hlast
      obtain rfl := Option.some.inj hr
      exact congrArg (Option.map versionProjection) hlast
    · cases hr
  · intro h
    obtain ⟨p, hlast, rfl⟩ := Option.map_eq_some_iff.mp h
    have hp := (mem_entries.mp (List.mem_of_mem_getLast? hlast)).1
    refine ⟨p, hp, ?_⟩
    simp only [latestVersionUid_eq_iff hledger horder hp]
    exact if_pos hlast

/-- No related key and no version is rebuilt twice. -/
theorem pairwise_eventRebuildRows : (eventRebuildRows t).Pairwise fun r r' =>
    r.relatedKey ≠ r'.relatedKey ∧ r.eventVersionUid ≠ r'.eventVersionUid := by
  rw [eventRebuildRows, List.pairwise_filterMap]
  refine (List.pairwise_map.mp hledger.nodup_eventLog).imp_of_mem ?_
  intro p p' hp hp' hne r hr r' hr'
  simp only [latestVersionUid_eq_iff hledger horder hp] at hr
  simp only [latestVersionUid_eq_iff hledger horder hp'] at hr'
  split at hr
  · split at hr'
    · rename_i hlast hlast'
      obtain rfl := Option.some.inj hr
      obtain rfl := Option.some.inj hr'
      refine ⟨fun hkey => ?_, hne⟩
      have hsame : p.2.relatedKey = p'.2.relatedKey := hkey
      rw [hsame, hlast'] at hlast
      exact hne (congrArg (fun p => p.1.eventVersionUid) (Option.some.inj hlast).symm)
    · cases hr'
  · cases hr

theorem nodup_eventRebuildRows :
    ((eventRebuildRows t).map EventProjection.relatedKey).Nodup :=
  List.pairwise_map.mpr ((pairwise_eventRebuildRows hledger horder).imp fun h => h.1)

/-- The rebuilt rows are the projections the commits had left. -/
theorem eventRebuildRows_perm : (eventRebuildRows t).Perm t.currentEventProjection := by
  refine (List.perm_ext_iff_of_nodup (nodup_eventRebuildRows hledger horder).of_map
    hledger.projectionsUnique.of_map).mpr fun r => ?_
  rw [mem_eventRebuildRows hledger horder]
  exact (lookupBy_eq_some_iff hledger.projectionsUnique).trans (and_iff_left rfl)

end Events

/-! ## Drift -/

theorem latest_ne_none_of_mem {ρ κ : Type} [LinearOrder κ] {key : ρ → κ} {rows : List ρ} {r : ρ}
    (hr : r ∈ rows) : latest key rows ≠ none := by
  intro h
  rw [latest, List.argmax_eq_none] at h
  rw [h] at hr
  cases hr

/-- No state projection drifts when each has the columns its commits give. -/
theorem stateProjectionDrift_eq_zero
    (hcolumns : ∀ subjectUid, expectedState db subjectUid =
      (db.analysis.projection subjectUid).map StateProjection.columns)
    (hrewarm : db.metadata.recoveryState = some "RECOVERING" ∨
      ∀ subjectUid p, db.analysis.projection subjectUid = some p →
        p.rewarmRequired = (p.availabilityState = .warmingUp : Bool)) :
    stateProjectionDrift db = 0 := by
  rw [stateProjectionDrift, List.length_eq_zero_iff, List.filter_eq_nil_iff]
  intro subjectUid hmem
  have hsome : ∃ p, db.analysis.projection subjectUid = some p := by
    rw [← Option.ne_none_iff_exists']
    rcases List.mem_append.mp (List.mem_dedup.mp hmem) with hmem | hmem
    · obtain ⟨q, hq, rfl⟩ := List.mem_map.mp hmem
      intro hnone
      have hexpected := hcolumns q.1.2.subjectUid
      rw [hnone, Option.map_none, expectedState, Option.map_eq_none_iff] at hexpected
      exact latest_ne_none_of_mem (List.mem_filter.mpr ⟨hq, decide_eq_true rfl⟩) hexpected
    · exact fun hnone => lookupBy_eq_none_iff.mp hnone hmem
  obtain ⟨p, hp⟩ := hsome
  have hexpected := hcolumns subjectUid
  rw [hp, Option.map_some] at hexpected
  simp only [stateDrifts, hexpected, hp]
  have hrewarmed : ¬(db.metadata.recoveryState ≠ some "RECOVERING" ∧
      p.rewarmRequired ≠ (p.columns.availabilityState = .warmingUp : Bool)) := by
    rintro ⟨hstate, hne⟩
    rcases hrewarm with hrecovering | hrewarm
    · exact hstate hrecovering
    · exact hne (hrewarm subjectUid p hp)
  simp only [ne_eq, not_true_eq_false, false_or, decide_eq_true_eq]
  exact hrewarmed

/-- No event projection drifts when each is the latest version. -/
theorem eventProjectionDrift_eq_zero (horder : EventOrder (· < ·) db.analysis)
    (hprojected : ∀ key, db.analysis.eventProjection key =
      (entries versionKey key db.analysis.eventLog).getLast?.map versionProjection) :
    eventProjectionDrift db = 0 := by
  rw [eventProjectionDrift, List.length_eq_zero_iff, List.filter_eq_nil_iff]
  intro key _
  simp only [latestVersion_eq horder, hprojected, ne_eq, not_true_eq_false, decide_false,
    Bool.false_eq_true, not_false_eq_true]

/-! ## The run of a recovery -/

theorem clash_currentStateProjection {p q : StateProjection}
    (h : p.subjectUid ≠ q.subjectUid) : currentStateProjectionTable.clash q p = false :=
  decide_eq_false h.symm

theorem clash_currentEventProjection {p q : EventProjection}
    (h : p.relatedKey ≠ q.relatedKey ∧ p.eventVersionUid ≠ q.eventVersionUid) :
    currentEventProjectionTable.clash q p = false := by
  refine decide_eq_false ?_
  rintro (hkey | huid)
  · exact h.1 hkey.symm
  · exact h.2 huid.symm

/-- Rows that do not clash replace the projections. -/
theorem replaceProjections_run {states : List StateProjection} {events : List EventProjection}
    (hstates : states.Pairwise fun p q => p.subjectUid ≠ q.subjectUid)
    (hevents : events.Pairwise fun p q =>
      p.relatedKey ≠ q.relatedKey ∧ p.eventVersionUid ≠ q.eventVersionUid) (t : AnalysisTables) :
    (replaceProjections states events).run t =
      .ok () { t with currentStateProjection := states, currentEventProjection := events } := by
  have hinsertStates := run_forM_insertInto currentStateProjectionTable integrityError
    (s := { t with currentStateProjection := [] })
    (hstates.imp clash_currentStateProjection)
  have hinsertEvents := run_forM_insertInto currentEventProjectionTable integrityError
    (s := { t with currentStateProjection := states, currentEventProjection := [] })
    (hevents.imp clash_currentEventProjection)
  unfold replaceProjections
  rw [run_bind_of_ok (run_modify _ t), run_bind_of_ok hinsertStates,
    run_bind_of_ok (run_modify _ _)]
  exact hinsertEvents

/-- The rebuild inserts its rows : no two of them clash. -/
theorem rebuildProjections_run (hcommits : CommitLedger db) (hledger : EventLedger db.analysis)
    (hasOf : CommitsOrdered (· < ·) db.analysis) (horder : EventOrder (· < ·) db.analysis) :
    rebuildProjections.run db =
      .ok ((stateRebuildRows db).length, (eventRebuildRows db.analysis).length)
        { db with analysis := { db.analysis with
          currentStateProjection := stateRebuildRows db
          currentEventProjection := eventRebuildRows db.analysis } } := by
  have hreplace := replaceProjections_run
    (List.pairwise_map.mp (nodup_stateRebuildRows hcommits hasOf))
    (pairwise_eventRebuildRows hledger horder) db.analysis
  unfold rebuildProjections
  rw [run_bind_of_ok (run_get db), run_bind_of_ok (submit_of_ok hreplace)]
  rfl

/-- What a recovery leaves of a database. -/
structure Restored (db db' : Database) : Prop where
  evidence : db'.evidence = db.evidence
  recovering : db'.metadata.recoveryState = some "RECOVERING"
  analysis : db'.analysis = { db.analysis with
    currentStateProjection := stateRebuildRows db
    currentEventProjection := eventRebuildRows db.analysis
    notificationDeliveryState := db'.analysis.notificationDeliveryState
    auditRecord := db'.analysis.auditRecord }

/-- A recovery that returns has restored every projection. -/
theorem startRecovery_ok {generationAudit recoveryAudit : Uid} {watermarks : ℕ}
    {startedAt : Instant} {manifestSha256 : String} {u : Unit} (hcommits : CommitLedger db)
    (hledger : EventLedger db.analysis) (hasOf : CommitsOrdered (· < ·) db.analysis)
    (horder : EventOrder (· < ·) db.analysis)
    (h : (startRecovery generationAudit recoveryAudit watermarks startedAt manifestSha256).run db =
      .ok u db') : Restored db db' := by
  rw [startRecovery, run_atomically_eq_ok] at h
  simp only [run_bind_eq_ok, run_get_eq_ok, run_set_eq_ok, submit_eq_ok] at h
  obtain ⟨_, _, ⟨rfl, rfl⟩, _, _, rfl, counts, db₁, hrebuild, _, _, ⟨t₁, haudit, rfl⟩, t₂, haudit',
    rfl⟩ := h
  have hcommits' : CommitLedger (nextGeneration startedAt db) :=
    ⟨hcommits.commitsUnique, hcommits.evaluationsUnique, hcommits.evaluated,
      fun p hp => (hcommits.observed p hp).of_sameEvidence rfl, hcommits.projections⟩
  have hledger' : EventLedger (nextGeneration startedAt db).analysis :=
    SameEvents.eventLedger (t := db.analysis)
      ⟨rfl, rfl, rfl, rfl, fun _ hc => hc, fun _ hx => hx⟩ hledger
  have hrun := rebuildProjections_run hcommits' hledger' hasOf
    ⟨horder.committed, horder.increasing⟩
  rw [hrun] at hrebuild
  cases hrebuild
  obtain ⟨-, rfl⟩ := run_insertInto_eq_ok.mp haudit
  obtain ⟨-, rfl⟩ := run_insertInto_eq_ok.mp haudit'
  exact ⟨rfl, rfl, rfl⟩

section Restored

variable (hrestored : Restored db db')

include hrestored

theorem Restored.observedCommits : db'.observedCommits = db.observedCommits := by
  have hcommitted : db'.analysis.committedEvaluations = db.analysis.committedEvaluations := by
    rw [hrestored.analysis]
    rfl
  have hsnapshot : db'.snapshot = db.snapshot := by
    funext uid
    rw [Database.snapshot, hrestored.evidence, Database.snapshot]
  rw [Database.observedCommits, hcommitted, hsnapshot, Database.observedCommits]

theorem Restored.expectedState (subjectUid : Uid) :
    expectedState db' subjectUid = expectedState db subjectUid := by
  have hcommits : db'.analysis.commitsOf = db.analysis.commitsOf := by
    rw [hrestored.analysis]
    rfl
  rw [MarketMonitor.expectedState, hrestored.observedCommits, hcommits]
  rfl

theorem Restored.projectionsUnique (hcommits : CommitLedger db)
    (hasOf : CommitsOrdered (· < ·) db.analysis) : db'.analysis.ProjectionsUnique := by
  rw [hrestored.analysis]
  exact nodup_stateRebuildRows hcommits hasOf

/-- The restored projection of a subject is the one before, to be rewarmed. -/
theorem Restored.projection (hcommits : CommitLedger db)
    (hasOf : CommitsOrdered (· < ·) db.analysis) (subjectUid : Uid) :
    db'.analysis.projection subjectUid =
      (db.analysis.projection subjectUid).map fun p => { p with rewarmRequired := true } := by
  have hrows : db'.analysis.projection subjectUid =
      lookupBy StateProjection.subjectUid subjectUid (stateRebuildRows db) := by
    rw [hrestored.analysis]
    rfl
  refine Option.ext fun r => ?_
  rw [hrows, lookupBy_eq_some_iff (nodup_stateRebuildRows hcommits hasOf),
    mem_stateRebuildRows hcommits hasOf, Option.map_eq_some_iff]
  constructor
  · rintro ⟨⟨p, hp, hr⟩, rfl⟩
    exact ⟨p, hp, hr.symm⟩
  · rintro ⟨p, hp, rfl⟩
    have hsubject := key_of_lookupBy hp
    exact ⟨⟨p, by rw [← hp]; exact congrArg _ hsubject, rfl⟩, hsubject⟩

/-- The restored projection of a related key is the one before. -/
theorem Restored.eventProjection (hledger : EventLedger db.analysis)
    (horder : EventOrder (· < ·) db.analysis) (key : String) :
    db'.analysis.eventProjection key = db.analysis.eventProjection key := by
  have hrows : db'.analysis.eventProjection key =
      lookupBy EventProjection.relatedKey key (eventRebuildRows db.analysis) := by
    rw [hrestored.analysis]
    rfl
  refine Option.ext fun r => ?_
  rw [hrows, lookupBy_eq_some_iff (nodup_eventRebuildRows hledger horder),
    mem_eventRebuildRows hledger horder]
  constructor
  · rintro ⟨hr, rfl⟩
    exact hr
  · intro hr
    have hkey := key_of_lookupBy hr
    exact ⟨hkey.symm ▸ hr, hkey⟩

end Restored

/-- A new commit increments the version of its subject. -/
theorem commit_version_succ (hunique : db.analysis.ProjectionsUnique) {files : ArtifactFiles}
    {uids : CommitUids} {request : AnalysisCommitRequest} {result : AnalysisCommitResult}
    {subjectUid : Uid} (hrun : (commit files uids request).run db = .ok result db')
    (hnew : existingCommit db.analysis request.snapshotUid = none)
    (hsubject : (db.snapshot request.snapshotUid).map EvaluationSnapshot.subjectUid =
      some subjectUid) :
    db'.analysis.version subjectUid = db.analysis.version subjectUid + 1 := by
  obtain ⟨e, hcase⟩ | ⟨verified, result', -, -, hexisting⟩ |
    ⟨verified, result', t', hcase, -, -, course, rfl⟩ := commit_cases files uids request hunique
  · rw [hcase] at hrun
    cases hrun
  · rw [hnew] at hexisting
    cases hexisting
  · rw [hcase] at hrun
    obtain ⟨rfl, rfl⟩ := EStateM.Result.ok.inj hrun
    obtain ⟨-, row, hrow, -, hrowSubject, -⟩ := commitSnapshot_ok course.snapshot_eq
    rw [hrow, Option.map_some, hrowSubject] at hsubject
    obtain rfl := Option.some.inj hsubject
    simp only [AnalysisTables.version, course.projection_self]
    rfl

/-- When the commits of each subject have increasing observation times, the rebuild inserts
the projections the commits had left, no projection drifts before or after a recovery, and
the commits of any later run go on from the rebuilt version. -/
theorem recovery_reproduces_projections (h : Reachable anyRequest db)
    (hasOf : CommitsOrdered (· < ·) db.analysis) (hkeys : RelatedKeysDistinct db.analysis) :
    (stateRebuildRows db).Perm (db.analysis.currentStateProjection.map fun p =>
      { p with rewarmRequired := true }) ∧
    (eventRebuildRows db.analysis).Perm db.analysis.currentEventProjection ∧
    stateProjectionDrift db = 0 ∧ eventProjectionDrift db = 0 ∧
    (∃ counts db', rebuildProjections.run db = .ok counts db' ∧
      db'.analysis.currentStateProjection = stateRebuildRows db ∧
      db'.analysis.currentEventProjection = eventRebuildRows db.analysis) ∧
    ∀ generationAudit recoveryAudit watermarks startedAt manifestSha256 u db',
      (startRecovery generationAudit recoveryAudit watermarks startedAt manifestSha256).run db =
        .ok u db' →
      db'.analysis.currentStateProjection = stateRebuildRows db ∧
      db'.analysis.currentEventProjection = eventRebuildRows db.analysis ∧
      stateProjectionDrift db' = 0 ∧ eventProjectionDrift db' = 0 ∧
      (∀ subjectUid, db'.analysis.version subjectUid = db.analysis.version subjectUid) ∧
      ∀ db₁ files uids request result db₂ subjectUid,
        Relation.ReflTransGen (Step anyRequest) db' db₁ →
        (commit files uids request).run db₁ = .ok result db₂ →
        existingCommit db₁.analysis request.snapshotUid = none →
        (db₁.snapshot request.snapshotUid).map EvaluationSnapshot.subjectUid = some subjectUid →
        db₂.analysis.version subjectUid = db₁.analysis.version subjectUid + 1 := by
  have hcommits := h.commitLedger
  have hledger := h.eventLedger
  have horder := h.eventOrder hasOf hkeys
  have hrebuild := rebuildProjections_run hcommits hledger hasOf horder
  have hrewarm : ∀ subjectUid p, db.analysis.projection subjectUid = some p →
      p.rewarmRequired = (p.availabilityState = .warmingUp : Bool) := by
    intro subjectUid p hp
    rw [hcommits.projection_eq_view] at hp
    obtain ⟨row, e, -, -, rfl⟩ := view_eq_some hp
    rfl
  refine ⟨stateRebuildRows_perm hcommits hasOf h.projectionsUnique,
    eventRebuildRows_perm hledger horder,
    stateProjectionDrift_eq_zero (expectedState_eq hcommits hasOf) (Or.inr hrewarm),
    eventProjectionDrift_eq_zero horder hledger.eventMachine.projected,
    ⟨_, _, hrebuild, rfl, rfl⟩, ?_⟩
  intro generationAudit recoveryAudit watermarks startedAt manifestSha256 u db' hrun
  have hrestored := startRecovery_ok hcommits hledger hasOf horder hrun
  have hstates : db'.analysis.currentStateProjection = stateRebuildRows db := by
    rw [hrestored.analysis]
  have hevents : db'.analysis.currentEventProjection = eventRebuildRows db.analysis := by
    rw [hrestored.analysis]
  have hlog : db'.analysis.eventLog = db.analysis.eventLog := by
    rw [hrestored.analysis]
    rfl
  have hcolumns : ∀ subjectUid, expectedState db' subjectUid =
      (db'.analysis.projection subjectUid).map StateProjection.columns := by
    intro subjectUid
    rw [hrestored.expectedState, expectedState_eq hcommits hasOf,
      hrestored.projection hcommits hasOf, Option.map_map]
    rfl
  have horder' : EventOrder (· < ·) db'.analysis := by
    rw [hrestored.analysis]
    exact ⟨horder.committed, horder.increasing⟩
  have hprojected : ∀ key, db'.analysis.eventProjection key =
      (entries versionKey key db'.analysis.eventLog).getLast?.map versionProjection := by
    intro key
    rw [hrestored.eventProjection hledger horder, hlog]
    exact hledger.eventMachine.projected key
  refine ⟨hstates, hevents, stateProjectionDrift_eq_zero hcolumns (Or.inl hrestored.recovering),
    eventProjectionDrift_eq_zero horder' hprojected, ?_, ?_⟩
  · intro subjectUid
    rw [AnalysisTables.version, hrestored.projection hcommits hasOf, Option.map_map]
    rfl
  · intro db₁ files uids request result db₂ subjectUid hsteps hcommit hnew hsubject
    have hunique : db₁.analysis.ProjectionsUnique :=
      invariant_of_step (P := fun db => db.analysis.ProjectionsUnique)
        (fun _ _ hunique hstep => Step.projectionsUnique hunique hstep) hsteps
        (hrestored.projectionsUnique hcommits hasOf)
    exact commit_version_succ hunique hcommit hnew hsubject

/-- The projections of the scenes are rebuilt as their three commits had left them. -/
theorem recovery_reproduces_recurringDatabase :
    (stateRebuildRows recurringDatabase).Perm
      (recurringDatabase.analysis.currentStateProjection.map fun p =>
        { p with rewarmRequired := true }) ∧
    (eventRebuildRows recurringDatabase.analysis).Perm
      recurringDatabase.analysis.currentEventProjection ∧
    stateProjectionDrift recurringDatabase = 0 ∧ eventProjectionDrift recurringDatabase = 0 ∧
    (∃ counts db', rebuildProjections.run recurringDatabase = .ok counts db' ∧
      db'.analysis.currentStateProjection = stateRebuildRows recurringDatabase ∧
      db'.analysis.currentEventProjection = eventRebuildRows recurringDatabase.analysis) ∧
    recurringDatabase.analysis.version "sector" = 3 ∧
    recurringDatabase.analysis.eventVersion.length = 3 := by
  obtain ⟨hstates, hevents, hdrift, hdrift', hrebuild, -⟩ :=
    recovery_reproduces_projections reachable_recurring.2 commitsOrdered_recurringTables
      relatedKeysDistinct_recurringTables
  obtain ⟨-, -, -, hthird⟩ := recurringStages_eq
  have hversions : recurringDatabase.analysis.eventVersion.length = 3 :=
    (@List.length_map _ _ recurringTables.eventVersion EventVersion.eventStatus) ▸
      congrArg List.length hthird.versions
  exact ⟨hstates, hevents, hdrift, hdrift', hrebuild, hthird.version rfl, hversions⟩

end MarketMonitor
