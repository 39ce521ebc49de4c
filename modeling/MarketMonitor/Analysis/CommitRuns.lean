import MarketMonitor.Library.View
import MarketMonitor.Analysis.CommitSpec

/-!
# Runs of the commit service

The database changes by calls of `commit`, whatever their requests and outcomes, and by
the other services, which leave the ledger of the commits and the sealed snapshots as
they are. `Reachable` is what a run that starts without commits can reach, and
`Reachable.induction` the rule for what such runs keep.
-/

namespace MarketMonitor

open Transaction Keyed View

/-! ## Steps -/

/-- What the other services leave as it is. -/
structure Unrelated (db db' : Database) : Prop where
  ledger : db'.analysis = { db.analysis with
    notificationDeliveryState := db'.analysis.notificationDeliveryState
    auditRecord := db'.analysis.auditRecord }
  sealedSnapshot : ∀ uid row, db.snapshot uid = some row → row.snapshotStatus = .sealed →
    db'.snapshot uid = some row

/-- A step of the database, whose calls of `commit` are `allowed` ones. -/
inductive Step (allowed : Database → AnalysisCommitRequest → Prop) :
    Database → Database → Prop where
  | attempt (db : Database) (files : ArtifactFiles) (uids : CommitUids)
      (request : AnalysisCommitRequest) (h : allowed db request) :
      Step allowed db (stateAfter ((commit files uids request).run db))
  | other (db db' : Database) (h : Unrelated db db') : Step allowed db db'

/-- The databases a run of allowed calls can reach. -/
def Reachable (allowed : Database → AnalysisCommitRequest → Prop) (db : Database) : Prop :=
  ∃ db₀ : Database, db₀.analysis = .empty ∧ Relation.ReflTransGen (Step allowed) db₀ db

/-- The runs of any calls. -/
abbrev anyRequest (_ : Database) (_ : AnalysisCommitRequest) : Prop := True

variable {allowed : Database → AnalysisCommitRequest → Prop} {db db' : Database}

/-- A commit transaction is about a snapshot without a commit. -/
theorem CommitCourse.existingCommit_eq_none {uids : CommitUids}
    {request : AnalysisCommitRequest} {verified : VerifiedRequest}
    {result : AnalysisCommitResult} {t : AnalysisTables}
    (course : CommitCourse db uids request verified result t) :
    existingCommit t request.snapshotUid = none := by
  rw [existingCommit, Option.map_eq_none_iff, List.find?_eq_none]
  intro c hc
  simpa using course.snapshotFresh c hc

theorem CommitCourse.projectionsUnique {uids : CommitUids} {request : AnalysisCommitRequest}
    {verified : VerifiedRequest} {result : AnalysisCommitResult} {t : AnalysisTables}
    (course : CommitCourse db uids request verified result t) (h : t.ProjectionsUnique) :
    course.after.ProjectionsUnique := by
  rw [AnalysisTables.ProjectionsUnique, course.currentStateProjection]
  exact nodup_map_upsert h

/-- A step is a committed transaction, leaves the database, or is one of the other
services. -/
theorem Step.cases (hunique : db.analysis.ProjectionsUnique) (h : Step allowed db db') :
    Unrelated db db' ∨ db' = db ∨ ∃ files uids request verified result,
      ∃ course : CommitCourse db uids request verified result db.analysis,
        verifyRequest db files request = .ok verified ∧ allowed db request ∧
          db' = { db with analysis := course.after } := by
  cases h with
  | other _ h => exact Or.inl h
  | attempt files uids request h =>
    obtain ⟨e, hrun⟩ | ⟨verified, result, hrun, -⟩ |
      ⟨verified, result, t', hrun, hverify, -, course, rfl⟩ :=
        commit_cases files uids request hunique
    · rw [hrun]
      exact Or.inr (Or.inl rfl)
    · rw [hrun]
      exact Or.inr (Or.inl rfl)
    · rw [hrun]
      exact Or.inr (Or.inr ⟨files, uids, request, verified, result, course, hverify, h, rfl⟩)

theorem Step.projectionsUnique (hunique : db.analysis.ProjectionsUnique)
    (h : Step allowed db db') : db'.analysis.ProjectionsUnique := by
  obtain h | rfl | ⟨files, uids, request, verified, result, course, -, -, rfl⟩ := h.cases hunique
  · rw [h.ledger]
    exact hunique
  · exact hunique
  · exact course.projectionsUnique hunique

/-- What holds without commits, and what transactions and the other services keep, holds
after every run. -/
theorem Reachable.induction {P : Database → Prop}
    (hempty : ∀ db, db.analysis = .empty → P db)
    (hother : ∀ db db', Unrelated db db' → P db → P db')
    (hcommit : ∀ db files uids request verified result
      (course : CommitCourse db uids request verified result db.analysis),
      db.analysis.ProjectionsUnique → verifyRequest db files request = .ok verified →
      allowed db request → P db → P { db with analysis := course.after })
    (h : Reachable allowed db) : P db ∧ db.analysis.ProjectionsUnique := by
  obtain ⟨db₀, hdb₀, hrun⟩ := h
  refine invariant_of_step (P := fun db => P db ∧ db.analysis.ProjectionsUnique) ?_ hrun
    ⟨hempty db₀ hdb₀, by rw [hdb₀]; exact List.nodup_nil⟩
  rintro db db' ⟨hP, hunique⟩ hstep
  refine ⟨?_, hstep.projectionsUnique hunique⟩
  obtain h | rfl | ⟨files, uids, request, verified, result, course, hverify, hallowed, rfl⟩ :=
    hstep.cases hunique
  · exact hother db db' h hP
  · exact hP
  · exact hcommit db files uids request verified result course hunique hverify hallowed hP

/-! ## Committed evaluations -/

/-- `analysis_commit JOIN state_evaluation`, in commit order. -/
def AnalysisTables.committedEvaluations (t : AnalysisTables) :
    List (AnalysisCommit × StateEvaluation) :=
  join AnalysisCommit.stateEvaluationUid StateEvaluation.evaluationUid t.analysisCommit
    t.stateEvaluation

/-- The subject of a commit. -/
def committedSubject (p : AnalysisCommit × StateEvaluation) : Uid := p.2.subjectUid

/-- The commits of a subject with their evaluations, in commit order. -/
def AnalysisTables.commitsOf (t : AnalysisTables) (subjectUid : Uid) :
    List (AnalysisCommit × StateEvaluation) :=
  entries committedSubject subjectUid t.committedEvaluations

/-- What the projection of a subject becomes with one more evaluation. -/
def projectionStep (current : Option StateProjection) (p : AnalysisCommit × StateEvaluation) :
    StateProjection where
  subjectUid := p.2.subjectUid
  availabilityState := p.2.availabilityState
  effectiveLifecycleState := p.2.lifecycleState
  lastValidLifecycleState :=
    if p.2.lifecycleState.isSome then p.2.lifecycleState
    else current.bind StateProjection.lastValidLifecycleState
  lastValidAsOfTime :=
    if p.2.lifecycleState.isSome then some p.2.createdAt
    else current.bind StateProjection.lastValidAsOfTime
  evaluationUid := p.2.evaluationUid
  asOfTime := p.2.createdAt
  version := (current.map StateProjection.version).getD 0 + 1
  rewarmRequired := p.2.availabilityState = .warmingUp

/-- A committed evaluation and the snapshot it is about. -/
structure Observed (db : Database) (p : AnalysisCommit × StateEvaluation) : Prop where
  lifecycle : p.2.lifecycleState.isSome ↔ p.2.availabilityState = .available
  committedAt : p.1.committedAt = p.2.createdAt
  snapshot : ∃ row, db.snapshot p.2.snapshotUid = some row ∧ row.snapshotStatus = .sealed ∧
    row.subjectUid = p.2.subjectUid ∧ row.asOfTime = p.2.createdAt

/-- The commits, their evaluations and the lifecycle projections of a reachable database. -/
structure CommitLedger (db : Database) : Prop where
  commitsUnique : (db.analysis.committedEvaluations.map fun p => p.1.commitUid).Nodup
  evaluationsUnique : (db.analysis.stateEvaluation.map StateEvaluation.evaluationUid).Nodup
  evaluated : ∀ c ∈ db.analysis.analysisCommit,
    ∃ e ∈ db.analysis.stateEvaluation, e.evaluationUid = c.stateEvaluationUid
  observed : ∀ p ∈ db.analysis.committedEvaluations, Observed db p
  projections : Maintains committedSubject projectionStep StateProjection.subjectUid
    db.analysis.currentStateProjection db.analysis.committedEvaluations

section Commit

variable {uids : CommitUids} {request : AnalysisCommitRequest} {verified : VerifiedRequest}
  {result : AnalysisCommitResult}
  (course : CommitCourse db uids request verified result db.analysis)

/-- The commit with its evaluation. -/
def CommitCourse.committed : AnalysisCommit × StateEvaluation :=
  (commitRow uids course.snapshot request verified,
    evaluationRow uids course.snapshot request verified.execution.facts course.availability
      course.lifecycle)

theorem CommitCourse.evaluationsUnique
    (h : (db.analysis.stateEvaluation.map StateEvaluation.evaluationUid).Nodup) :
    (course.after.stateEvaluation.map StateEvaluation.evaluationUid).Nodup := by
  rw [course.stateEvaluation, List.map_append, List.nodup_append]
  refine ⟨h, List.nodup_singleton _, ?_⟩
  rintro uid huid uid' huid' rfl
  obtain ⟨e, he, rfl⟩ := List.mem_map.mp huid
  exact course.state.evaluationFresh e he (List.mem_singleton.mp huid')

/-- A commit adds one committed evaluation. -/
theorem CommitCourse.committedEvaluations
    (h : (db.analysis.stateEvaluation.map StateEvaluation.evaluationUid).Nodup) :
    course.after.committedEvaluations =
      db.analysis.committedEvaluations ++ [course.committed] := by
  have hunique := course.evaluationsUnique h
  rw [AnalysisTables.committedEvaluations, course.analysisCommit]
  rw [course.stateEvaluation] at hunique ⊢
  rw [join_concat_left AnalysisCommit.stateEvaluationUid _ hunique
    (List.mem_append_right _ (List.mem_singleton_self _)) rfl, join_concat_right]
  · rfl
  · intro c hc
    exact (course.commitFresh c hc).2

/-- A commit whose request was verified is observed. -/
theorem CommitCourse.observed (hverify : ∃ files, verifyRequest db files request = .ok verified) :
    Observed db course.committed := by
  obtain ⟨files, hverify⟩ := hverify
  obtain ⟨hvalid, -⟩ := verifyRequest_eq_ok.mp hverify
  obtain ⟨hstate, -⟩ := validateRequest_ok hvalid
  obtain ⟨havailability, hlifecycle⟩ := lifecycle_of_stateColumns course.state.columns
  obtain ⟨-, row, hrow, hsealed, hsubject, hasOf⟩ := commitSnapshot_ok course.snapshot_eq
  refine ⟨?_, rfl, row, hrow, hsealed, hsubject, hasOf⟩
  show course.lifecycle.isSome ↔ course.availability = .available
  rw [havailability, hlifecycle] at hstate
  rw [← Option.isSome_map (f := LifecycleState.text), ← Option.ne_none_iff_isSome, ← hstate]
  cases course.availability <;> decide

end Commit

theorem Observed.of_sameEvidence {p : AnalysisCommit × StateEvaluation} (hp : Observed db p)
    (h : db'.evidence = db.evidence) : Observed db' p := by
  have hsnapshot : db'.snapshot = db.snapshot := by
    funext uid
    rw [Database.snapshot, h, Database.snapshot]
  exact ⟨hp.lifecycle, hp.committedAt, hsnapshot ▸ hp.snapshot⟩

theorem Observed.of_unrelated {p : AnalysisCommit × StateEvaluation} (h : Unrelated db db')
    (hp : Observed db p) : Observed db' p := by
  obtain ⟨row, hrow, hsealed, hrest⟩ := hp.snapshot
  exact ⟨hp.lifecycle, hp.committedAt, row, h.sealedSnapshot _ row hrow hsealed, hsealed, hrest⟩

/-- The other services keep the ledger. -/
theorem CommitLedger.of_unrelated (h : Unrelated db db') (hledger : CommitLedger db) :
    CommitLedger db' := by
  obtain ⟨hcommits, hunique, hevaluated, hobserved, hprojections⟩ := hledger
  constructor
  · rw [h.ledger]
    exact hcommits
  · rw [h.ledger]
    exact hunique
  · rw [h.ledger]
    exact hevaluated
  · intro p hp
    rw [h.ledger] at hp
    exact (hobserved p hp).of_unrelated h
  · rw [h.ledger]
    exact hprojections

/-- A commit keeps the ledger. -/
theorem CommitCourse.commitLedger {uids : CommitUids} {request : AnalysisCommitRequest}
    {verified : VerifiedRequest} {result : AnalysisCommitResult}
    (course : CommitCourse db uids request verified result db.analysis)
    (hverify : ∃ files, verifyRequest db files request = .ok verified)
    (hledger : CommitLedger db) : CommitLedger { db with analysis := course.after } := by
  obtain ⟨hcommits, hunique, hevaluated, hobserved, hprojections⟩ := hledger
  refine ⟨?_, course.evaluationsUnique hunique, ?_, ?_, ?_⟩
  · simp only [course.committedEvaluations hunique, List.map_append, List.nodup_append]
    refine ⟨hcommits, List.nodup_singleton _, ?_⟩
    rintro uid huid uid' huid' rfl
    obtain ⟨p, hp, rfl⟩ := List.mem_map.mp huid
    exact (course.commitFresh p.1 (mem_join.mp hp).1).1 (List.mem_singleton.mp huid')
  · intro c hc
    simp only [course.analysisCommit, course.stateEvaluation, List.mem_append,
      List.mem_singleton] at hc ⊢
    rcases hc with hc | rfl
    · obtain ⟨e, he, heq⟩ := hevaluated c hc
      exact ⟨e, Or.inl he, heq⟩
    · exact ⟨_, Or.inr rfl, rfl⟩
  · intro p hp
    rw [course.committedEvaluations hunique, List.mem_append, List.mem_singleton] at hp
    rcases hp with hp | rfl
    · exact (hobserved p hp).of_sameEvidence rfl
    · exact (course.observed hverify).of_sameEvidence rfl
  · simp only [course.committedEvaluations hunique, course.currentStateProjection]
    exact maintains_concat (e := course.committed) hprojections fun _ => rfl

/-- Without commits, the ledger is empty. -/
theorem CommitLedger.of_empty (h : db.analysis = .empty) : CommitLedger db := by
  refine ⟨?_, ?_, ?_, ?_, ?_⟩ <;> rw [h]
  · exact List.nodup_nil
  · exact List.nodup_nil
  · rintro c hc
    cases hc
  · rintro p hp
    cases hp
  · exact maintains_nil

theorem Reachable.commitLedger (h : Reachable allowed db) : CommitLedger db := by
  refine (h.induction (fun _ => .of_empty) (fun _ _ => .of_unrelated) ?_).1
  intro db files uids request verified result course _ hverify _ hledger
  exact course.commitLedger ⟨files, hverify⟩ hledger

theorem Reachable.projectionsUnique (h : Reachable allowed db) :
    db.analysis.ProjectionsUnique :=
  (h.induction (P := fun _ => True) (fun _ _ => trivial) (fun _ _ _ _ => trivial)
    (fun _ _ _ _ _ _ _ _ _ _ _ => trivial)).2

end MarketMonitor
