import MarketMonitor.Analysis.CommitOrder

/-!
# Stale commits

The version of a projection orders the writes, not the observations : a commit that
expects the current version replaces the projection whatever its snapshot observes. In a
run without stale snapshots the observation time of a projection and the times of the
current events never decrease; a single commit of a stale one turns the projection back.
-/

namespace MarketMonitor

open Transaction Keyed View

variable {allowed : Database → AnalysisCommitRequest → Prop} {db db' : Database}

/-- A snapshot without a commit is not older than the projection of its subject. -/
def NotStale (db : Database) (request : AnalysisCommitRequest) : Prop :=
  existingCommit db.analysis request.snapshotUid = none →
    ∀ row ∈ db.snapshot request.snapshotUid,
      ∀ p ∈ db.analysis.projection row.subjectUid, p.asOfTime ≤ row.asOfTime

/-- No projection and no current event is replaced by an older one. -/
structure NotOlder (t t' : AnalysisTables) : Prop where
  projection : ∀ subjectUid, ∀ p ∈ t.projection subjectUid,
    ∃ p' ∈ t'.projection subjectUid, p.asOfTime ≤ p'.asOfTime
  event : ∀ key, ∀ p ∈ t.eventProjection key,
    ∃ p' ∈ t'.eventProjection key, p.updatedAt ≤ p'.updatedAt

/-! ## Logs only grow -/

/-- The commits of each subject and the versions of the first ledger begin those of the
second. -/
structure LogExtends (t t' : AnalysisTables) : Prop where
  commits : ∀ subjectUid, t.commitsOf subjectUid <+: t'.commitsOf subjectUid
  events : t.eventLog <+: t'.eventLog

theorem LogExtends.refl (t : AnalysisTables) : LogExtends t t :=
  ⟨fun _ => List.prefix_rfl, List.prefix_rfl⟩

theorem LogExtends.trans {t t' t'' : AnalysisTables} (h : LogExtends t t')
    (h' : LogExtends t' t'') : LogExtends t t'' :=
  ⟨fun subjectUid => (h.commits subjectUid).trans (h'.commits subjectUid),
    h.events.trans h'.events⟩

/-- A step extends the logs. -/
theorem Step.extends (hreachable : Reachable allowed db) (h : Step allowed db db') :
    LogExtends db.analysis db'.analysis := by
  obtain h | rfl | ⟨files, uids, request, verified, result, course, -, -, rfl⟩ :=
    h.cases hreachable.projectionsUnique
  · rw [h.ledger]
    exact ⟨fun _ => List.prefix_rfl, List.prefix_rfl⟩
  · exact .refl _
  · constructor
    · intro subjectUid
      obtain ⟨new, hnew⟩ :=
        course.commitsOf_prefix hreachable.commitLedger.evaluationsUnique subjectUid
      exact ⟨new, hnew.symm⟩
    · obtain ⟨risk, watch, hlog, -⟩ := course.newVersions hreachable.eventLedger
      exact ⟨risk ++ watch, by rw [← List.append_assoc]; exact hlog.symm⟩

theorem Reachable.tail (h : Reachable allowed db)
    (hrun : Relation.ReflTransGen (Step allowed) db db') : Reachable allowed db' := by
  obtain ⟨db₀, hdb₀, hrun₀⟩ := h
  exact ⟨db₀, hdb₀, hrun₀.trans hrun⟩

/-- A run extends the logs. -/
theorem Reachable.extends (h : Reachable allowed db)
    (hrun : Relation.ReflTransGen (Step allowed) db db') : LogExtends db.analysis db'.analysis := by
  induction hrun with
  | refl => exact .refl _
  | tail hrun hstep ih => exact ih.trans (hstep.extends (h.tail hrun))

/-! ## Runs without stale snapshots -/

/-- The projection of a subject is as of its last commit. -/
theorem CommitLedger.projection_eq_some (hcommits : CommitLedger db) {subjectUid : Uid}
    {p : StateProjection} (hp : db.analysis.projection subjectUid = some p) :
    ∃ last, (db.analysis.commitsOf subjectUid).getLast? = some last ∧
      p.asOfTime = last.1.committedAt := by
  have htime := hcommits.asOfTime_eq subjectUid
  rw [hp, Option.map_some] at htime
  obtain ⟨last, hlast, hcreated⟩ := Option.map_eq_some_iff.mp htime.symm
  have hmem := (mem_entries.mp (List.mem_of_mem_getLast? hlast)).1
  exact ⟨last, hlast, by rw [(hcommits.observed last hmem).committedAt, hcreated]⟩

/-- A subject with a commit has the projection of its last one. -/
theorem CommitLedger.projection_of_last (hcommits : CommitLedger db) {subjectUid : Uid}
    {last : AnalysisCommit × StateEvaluation}
    (hlast : (db.analysis.commitsOf subjectUid).getLast? = some last) :
    ∃ p, db.analysis.projection subjectUid = some p ∧ p.asOfTime = last.1.committedAt := by
  have htime := hcommits.asOfTime_eq subjectUid
  rw [hlast, Option.map_some] at htime
  obtain ⟨p, hp, hasOf⟩ := Option.map_eq_some_iff.mp htime
  have hmem := (mem_entries.mp (List.mem_of_mem_getLast? hlast)).1
  exact ⟨p, hp, by rw [(hcommits.observed last hmem).committedAt, hasOf]⟩

/-- A commit of a snapshot that is not stale comes after those of its subject. -/
theorem CommitCourse.commitsOrdered {uids : CommitUids} {request : AnalysisCommitRequest}
    {verified : VerifiedRequest} {result : AnalysisCommitResult}
    (course : CommitCourse db uids request verified result db.analysis)
    (hcommits : CommitLedger db) (hnotStale : NotStale db request)
    (hordered : CommitsOrdered (· ≤ ·) db.analysis) : CommitsOrdered (· ≤ ·) course.after := by
  obtain ⟨-, row, hrow, -, hsubject, hasOf⟩ := commitSnapshot_ok course.snapshot_eq
  have hbound := hnotStale course.existingCommit_eq_none row hrow
  rw [hsubject, hasOf] at hbound
  intro subjectUid
  by_cases h : subjectUid = course.snapshot.subjectUid
  · subst h
    rw [course.commitsOf_self hcommits.evaluationsUnique, List.pairwise_append]
    refine ⟨hordered _, List.pairwise_singleton _ _, ?_⟩
    intro q hq r hr
    obtain rfl := List.mem_singleton.mp hr
    obtain ⟨last, hlast⟩ := Option.isSome_iff_exists.mp
      (List.getLast?_isSome.mpr (List.ne_nil_of_mem hq))
    obtain ⟨p, hp, hpasOf⟩ := hcommits.projection_of_last hlast
    calc q.1.committedAt ≤ last.1.committedAt :=
        le_getLast (fun q => q.1.committedAt) (hordered _) hq hlast
      _ = p.asOfTime := hpasOf.symm
      _ ≤ course.snapshot.asOfTime := hbound p hp
  · rw [course.commitsOf_of_ne hcommits.evaluationsUnique h]
    exact hordered _

/-- In a run without stale snapshots the commits are ordered. -/
theorem Reachable.commitsOrdered (h : Reachable NotStale db) :
    CommitsOrdered (· ≤ ·) db.analysis := by
  refine (h.induction (P := fun db => CommitLedger db ∧ CommitsOrdered (· ≤ ·) db.analysis)
    ?_ ?_ ?_).1.2
  · intro db hdb
    refine ⟨.of_empty hdb, ?_⟩
    rw [hdb]
    exact fun _ => List.Pairwise.nil
  · rintro db db' h ⟨hcommits, hordered⟩
    refine ⟨hcommits.of_unrelated h, ?_⟩
    rw [h.ledger]
    exact hordered
  · rintro db files uids request verified result course - hverify hnotStale ⟨hcommits, hordered⟩
    exact ⟨course.commitLedger ⟨files, hverify⟩ hcommits,
      course.commitsOrdered hcommits hnotStale hordered⟩

/-- In a run without stale snapshots, no projection and no current event is replaced by an
older one. -/
theorem not_stale_run_keeps_newest (h : Reachable NotStale db)
    (hrun : Relation.ReflTransGen (Step NotStale) db db')
    (hkeys : RelatedKeysDistinct db'.analysis) : NotOlder db.analysis db'.analysis := by
  have h' := h.tail hrun
  have hextends := h.extends hrun
  have hordered := h'.commitsOrdered
  have horder := h'.eventOrder hordered hkeys
  constructor
  · intro subjectUid p hp
    obtain ⟨last, hlast, hpasOf⟩ := h.commitLedger.projection_eq_some hp
    have hmem : last ∈ db'.analysis.commitsOf subjectUid :=
      (hextends.commits subjectUid).subset (List.mem_of_mem_getLast? hlast)
    obtain ⟨last', hlast'⟩ := Option.isSome_iff_exists.mp
      (List.getLast?_isSome.mpr (List.ne_nil_of_mem hmem))
    obtain ⟨p', hp', hpasOf'⟩ := h'.commitLedger.projection_of_last hlast'
    refine ⟨p', hp', ?_⟩
    rw [hpasOf, hpasOf']
    exact le_getLast (fun q => q.1.committedAt) (hordered subjectUid) hmem hlast'
  · intro key p hp
    rw [Option.mem_def, h.eventLedger.eventMachine.projected] at hp
    obtain ⟨last, hlast, rfl⟩ := Option.map_eq_some_iff.mp hp
    have hmem : last ∈ entries versionKey key db'.analysis.eventLog :=
      (hextends.events.filter _).subset (List.mem_of_mem_getLast? hlast)
    obtain ⟨last', hlast'⟩ := Option.isSome_iff_exists.mp
      (List.getLast?_isSome.mpr (List.ne_nil_of_mem hmem))
    refine ⟨versionProjection last', ?_,
      le_getLast (fun q => q.1.createdAt) (horder.increasing key) hmem hlast'⟩
    rw [Option.mem_def, h'.eventLedger.eventMachine.projected, hlast']
    rfl

/-- The commit of a scene that is not older than the projection of the sector is not stale. -/
theorem notStale_scene {t : AnalysisTables} {scene : Scene} {version : ℕ}
    (hsnapshot : (recurringAt t).snapshot scene.snapshotUid = some scene.snapshot)
    (h : ∀ p ∈ t.projection "sector", p.asOfTime ≤ scene.asOfTime) :
    NotStale (recurringAt t) (scene.request version) := by
  intro _ row hrow p hp
  obtain rfl := Option.some.inj (hsnapshot.symm.trans hrow)
  exact h p hp

/-- No commit of the recurring risk is stale. -/
theorem notStale_recurring : NotStale (recurringAt .empty) (firstScene.request 0) ∧
    NotStale (recurringAt firstTables) (secondScene.request 1) ∧
    NotStale (recurringAt secondTables) (thirdScene.request 2) := by
  obtain ⟨-, hfirst, hsecond, -⟩ := recurringStages_eq
  obtain ⟨p, hp, hasOf, -⟩ := hfirst.projection rfl
  obtain ⟨q, hq, hasOf', -⟩ := hsecond.projection rfl
  refine ⟨notStale_scene rfl nofun, notStale_scene rfl fun p' hp' => ?_,
    notStale_scene rfl fun q' hq' => ?_⟩
  · rw [← Option.some.inj (hp.symm.trans hp'), hasOf]
    decide
  · rw [← Option.some.inj (hq.symm.trans hq'), hasOf']
    decide

/-- The third commit of the scenes replaces the projection and the current event of the second by
later ones. -/
theorem recurringDatabase_keeps_newest :
    Reachable NotStale (recurringAt secondTables) ∧
    Step NotStale (recurringAt secondTables) recurringDatabase ∧
    ((recurringAt secondTables).analysis.projection "sector").map StateProjection.asOfTime =
      some secondScene.asOfTime ∧
    (recurringDatabase.analysis.projection "sector").map StateProjection.asOfTime =
      some thirdScene.asOfTime ∧
    (recurringAt secondTables).analysis.currentEventProjection.map EventProjection.updatedAt =
      [secondScene.asOfTime] ∧
    recurringDatabase.analysis.currentEventProjection.map EventProjection.updatedAt =
      [thirdScene.asOfTime] ∧
    NotOlder (recurringAt secondTables).analysis recurringDatabase.analysis := by
  obtain ⟨-, -, hsecond, hthird⟩ := recurringStages_eq
  obtain ⟨hstep₁, hstep₂, hstep₃⟩ := recurring_steps notStale_recurring
  have hreach : Reachable NotStale (recurringAt secondTables) :=
    ⟨recurringAt .empty, rfl, (Relation.ReflTransGen.single hstep₁).tail hstep₂⟩
  have hupdated : ∀ {t : AnalysisTables} {o : Outline}, t.Shows o →
      t.currentEventProjection.map EventProjection.updatedAt = o.currentEvents.map Prod.snd := by
    intro t o h
    rw [← h.currentEvents, List.map_map]
    rfl
  obtain ⟨p, hp, hasOf, -⟩ := hsecond.projection rfl
  obtain ⟨q, hq, hasOf', -⟩ := hthird.projection rfl
  exact ⟨hreach, hstep₃, Option.map_eq_some_iff.mpr ⟨p, hp, hasOf⟩,
    Option.map_eq_some_iff.mpr ⟨q, hq, hasOf'⟩, hupdated hsecond, hupdated hthird,
    not_stale_run_keeps_newest hreach (.single hstep₃) relatedKeysDistinct_recurringTables⟩

/-! ## A stale commit -/

/-- `sampleRequest` with the hash of the evidence, which is long to compute. -/
def sampleRequestBy (snapshot : EvaluationSnapshot) (sha256 : String) (version : ℕ) :
    AnalysisCommitRequest :=
  { sampleRequest snapshot version with
    metricProvenance := some ⟨"cr004-market-metrics-v2", sha256⟩ }

/-- `sampleVerified` with the hash of the evidence. -/
def sampleVerifiedBy (snapshot : EvaluationSnapshot) (sha256 : String) : VerifiedRequest :=
  { sampleVerified snapshot with
    provenance := ⟨"cr004-market-metrics-v2", sha256⟩
    execution := ⟨openingMetrics.map fun value =>
      { sampleExecution snapshot .guardian with evidenceSha256 := some sha256 }.fact
        (snapshot.snapshotUid ++ "-" ++ value.1) value, []⟩ }

theorem sampleRequest_eq {snapshot : EvaluationSnapshot} {sha256 : String}
    (h : canonicalHash (sampleEvidence snapshot) = sha256) (version : ℕ) :
    sampleRequest snapshot version = sampleRequestBy snapshot sha256 version := by
  subst h
  rfl

theorem sampleVerified_eq {snapshot : EvaluationSnapshot} {sha256 : String}
    (h : canonicalHash (sampleEvidence snapshot) = sha256) :
    sampleVerified snapshot = sampleVerifiedBy snapshot sha256 := by
  subst h
  rfl

theorem evidenceHash_later : canonicalHash (sampleEvidence laterSnapshot) =
    "070721c6be938d17798ac2a2532a88499a3d8a56e042c00c299a30730a551ba1" := by
  decide +kernel

theorem evidenceHash_earlier : canonicalHash (sampleEvidence earlierSnapshot) =
    "0c5d8d010a324f3e2a499c27a393543319a35e5912c26c6d89ba3c7b8f47d5c8" :=
  hashed_openingScenes.1.1

theorem laterTables_eq : laterTables =
    stateAfter ((commitCommand sampleDatabase (sampleUidsOf laterSnapshot)
      (sampleRequestBy laterSnapshot
        "070721c6be938d17798ac2a2532a88499a3d8a56e042c00c299a30730a551ba1" 0)
      (sampleVerifiedBy laterSnapshot
        "070721c6be938d17798ac2a2532a88499a3d8a56e042c00c299a30730a551ba1")).run .empty) := by
  rw [← sampleRequest_eq evidenceHash_later, ← sampleVerified_eq evidenceHash_later]
  unfold laterTables
  rfl

/-- The tables after the commit of the earlier snapshot, which expects the version it
finds. -/
def turnedBackTables : AnalysisTables :=
  stateAfter ((commitCommand { sampleDatabase with analysis := laterTables }
    (sampleUidsOf earlierSnapshot) (sampleRequest earlierSnapshot 1)
    (sampleVerified earlierSnapshot)).run laterTables)

/-- The sample after both commits. -/
def turnedBackDatabase : Database :=
  stateAfter ((commit (sampleFiles earlierSnapshot) (sampleUidsOf earlierSnapshot)
    (sampleRequest earlierSnapshot 1)).run laterDatabase)

/-- The second commit returns, and the rows it leaves are as of the earlier snapshot. -/
theorem turnedBackTables_spec :
    isOk ((commitCommand { sampleDatabase with analysis := laterTables }
      (sampleUidsOf earlierSnapshot) (sampleRequest earlierSnapshot 1)
      (sampleVerified earlierSnapshot)).run laterTables) = true ∧
    turnedBackTables.currentStateProjection.map StateProjection.asOfTime =
      [earlierSnapshot.asOfTime] ∧
    turnedBackTables.currentEventProjection.map EventProjection.updatedAt =
      [earlierSnapshot.asOfTime] := by
  rw [turnedBackTables, sampleRequest_eq evidenceHash_earlier,
    sampleVerified_eq evidenceHash_earlier, laterTables_eq]
  decide +kernel

/-- The tables the stale commit leaves. -/
theorem analysis_turnedBackDatabase : turnedBackDatabase.analysis = turnedBackTables := by
  have hexisting : existingCommit laterTables (sampleRequest earlierSnapshot 1).snapshotUid =
      none := by
    rw [laterTables_eq]
    decide +kernel
  have hverify : verifyRequest { sampleDatabase with analysis := laterTables }
      (sampleFiles earlierSnapshot) (sampleRequest earlierSnapshot 1) =
        .ok (sampleVerified earlierSnapshot) :=
    verifyRequest_sample rfl rfl rfl (Or.inl rfl) 1
  obtain ⟨result, hrun⟩ := eq_ok_of_isOk turnedBackTables_spec.1
  rw [turnedBackDatabase, laterDatabase_eq, commit_of_new hverify hexisting, submit_of_ok hrun]
  rfl

attribute [irreducible] turnedBackTables turnedBackDatabase

/-- Nothing stops the commit of the earlier snapshot after that of the later one : it expects
the version it finds, and it turns the projection and the current event back. -/
theorem stale_commit_turns_back : Reachable anyRequest laterDatabase ∧
    Step anyRequest laterDatabase turnedBackDatabase ∧
    laterDatabase.analysis.version "sector" = 1 ∧
    (sampleRequest earlierSnapshot 1).expectedProjectionVersion = 1 ∧
    laterDatabase.analysis.currentEventProjection.map EventProjection.updatedAt =
      [laterSnapshot.asOfTime] ∧
    turnedBackDatabase.analysis.currentEventProjection.map EventProjection.updatedAt =
      [earlierSnapshot.asOfTime] ∧
    earlierSnapshot.asOfTime < laterSnapshot.asOfTime ∧
    ¬NotOlder laterDatabase.analysis turnedBackDatabase.analysis := by
  have hstep : Step anyRequest laterDatabase turnedBackDatabase := by
    rw [turnedBackDatabase]
    exact .attempt _ _ _ _ trivial
  rw [analysis_laterDatabase, analysis_turnedBackDatabase]
  obtain ⟨-, hprojection, hevents⟩ := turnedBackTables_spec
  refine ⟨reachable_laterDatabase trivial, hstep, by decide +kernel, rfl, by decide +kernel,
    hevents, by decide, fun h => ?_⟩
  obtain ⟨p, hp, hpasOf⟩ : ∃ p, laterTables.projection "sector" = some p ∧
      p.asOfTime = laterSnapshot.asOfTime :=
    Option.map_eq_some_iff.mp (by decide +kernel)
  obtain ⟨p', hp', hle⟩ := h.projection "sector" p hp
  have hp'asOf : p'.asOfTime = earlierSnapshot.asOfTime :=
    List.mem_singleton.mp (hprojection ▸ List.mem_map_of_mem (mem_of_lookupBy hp'))
  rw [hpasOf, hp'asOf] at hle
  exact absurd hle (by decide)

end MarketMonitor
