import MarketMonitor.Analysis.RecurringRisk

/-!
# The lifecycle projection

The projection of a subject is the view of its committed evaluations. Its version counts
them, and its transitions are a legal path to the last valid lifecycle.
-/

namespace MarketMonitor

open Transaction Keyed View

variable {allowed : Database → AnalysisCommitRequest → Prop} {db db' : Database}

/-! ## The projection of a subject -/

section Ledger

variable (hledger : CommitLedger db) {subjectUid : Uid}

include hledger

theorem CommitLedger.projection_eq_view : db.analysis.projection subjectUid =
    view committedSubject projectionStep subjectUid db.analysis.committedEvaluations :=
  hledger.projections subjectUid

/-- The version counts the commits of the subject. -/
theorem CommitLedger.version_eq_length :
    db.analysis.version subjectUid = (db.analysis.commitsOf subjectUid).length := by
  rw [AnalysisTables.version, hledger.projection_eq_view]
  exact count_view fun _ _ => rfl

/-- The projection is as of the last commit of the subject. -/
theorem CommitLedger.asOfTime_eq (subjectUid : Uid) :
    (db.analysis.projection subjectUid).map StateProjection.asOfTime =
      (db.analysis.commitsOf subjectUid).getLast?.map fun p => p.2.createdAt := by
  rw [hledger.projection_eq_view]
  refine view_induction (P := fun (es : List (AnalysisCommit × StateEvaluation)) row =>
    row.map StateProjection.asOfTime = es.getLast?.map fun p => p.2.createdAt) rfl ?_ _
  intro es row p _ _
  rw [List.getLast?_concat]
  rfl

/-- The effective lifecycle is there when the subject is available. -/
theorem CommitLedger.effective_isSome {p : StateProjection}
    (hp : db.analysis.projection subjectUid = some p) :
    p.effectiveLifecycleState.isSome ↔ p.availabilityState = .available := by
  rw [hledger.projection_eq_view] at hp
  obtain ⟨row, e, he, -, rfl⟩ := view_eq_some hp
  exact (hledger.observed e he).lifecycle

/-- The effective lifecycle is the last valid one. -/
theorem CommitLedger.effective_eq_lastValid {p : StateProjection}
    (hp : db.analysis.projection subjectUid = some p)
    (heffective : p.effectiveLifecycleState.isSome) :
    p.effectiveLifecycleState = p.lastValidLifecycleState := by
  rw [hledger.projection_eq_view] at hp
  obtain ⟨row, e, -, -, rfl⟩ := view_eq_some hp
  exact (if_pos heffective).symm

/-- Whichever column it is read from, the previous lifecycle is the last valid one. -/
theorem CommitLedger.previousLifecycle_eq (subjectUid : Uid) :
    previousLifecycle (db.analysis.projection subjectUid) =
      (db.analysis.projection subjectUid).bind StateProjection.lastValidLifecycleState := by
  cases hp : db.analysis.projection subjectUid with
  | none => rfl
  | some p =>
    show p.effectiveLifecycleState.or p.lastValidLifecycleState = p.lastValidLifecycleState
    cases heffective : p.effectiveLifecycleState with
    | none => rfl
    | some state =>
      rw [← hledger.effective_eq_lastValid hp (by rw [heffective]; rfl), heffective]
      rfl

end Ledger

/-! ## Transitions -/

/-- The transitions of a subject, in the order of the table. -/
def AnalysisTables.transitionsOf (t : AnalysisTables) (subjectUid : Uid) :
    List StateTransition :=
  entries StateTransition.subjectUid subjectUid t.stateTransition

/-- Legal transitions that lead, each from where the one before arrived, from a lifecycle
to another. -/
def IsPath : Option LifecycleState → List StateTransition → Option LifecycleState → Prop
  | start, [], last => start = last
  | start, tr :: trs, last =>
    tr.fromLifecycleState = start ∧
      (∀ p ∈ tr.fromLifecycleState, tr.toLifecycleState ∈ legal p) ∧
      IsPath (some tr.toLifecycleState) trs last

/-- A legal transition from the last state continues the path. -/
theorem isPath_concat {start last : Option LifecycleState} {trs : List StateTransition}
    {tr : StateTransition} (h : IsPath start trs last) (hfrom : tr.fromLifecycleState = last)
    (hlegal : ∀ p ∈ last, tr.toLifecycleState ∈ legal p) :
    IsPath start (trs ++ [tr]) (some tr.toLifecycleState) := by
  induction trs generalizing start with
  | nil =>
    cases (h : start = last)
    exact ⟨hfrom, hfrom ▸ hlegal, rfl⟩
  | cons tr' trs ih =>
    obtain ⟨hstart, hlegal', hrest⟩ := h
    exact ⟨hstart, hlegal', ih hrest⟩

/-- The transitions of a subject are a path to its last valid lifecycle, made by its
commits in their order. -/
structure LifecyclePath (t : AnalysisTables) (subjectUid : Uid) : Prop where
  path : IsPath none (t.transitionsOf subjectUid)
    ((t.projection subjectUid).bind StateProjection.lastValidLifecycleState)
  order : ((t.transitionsOf subjectUid).map StateTransition.evaluationUid).Sublist
    ((t.commitsOf subjectUid).map fun p => p.2.evaluationUid)

section Commit

variable {uids : CommitUids} {request : AnalysisCommitRequest} {verified : VerifiedRequest}
  {result : AnalysisCommitResult}
  (course : CommitCourse db uids request verified result db.analysis) {subjectUid : Uid}

theorem CommitCourse.projection_self : course.after.projection course.snapshot.subjectUid =
    some (nextProjection (db.analysis.projection course.snapshot.subjectUid) course.snapshot
      uids.evaluation course.availability course.lifecycle) := by
  rw [AnalysisTables.projection, course.currentStateProjection]
  rw [lookupBy_upsert]
  exact if_pos rfl

theorem CommitCourse.projection_of_ne (h : subjectUid ≠ course.snapshot.subjectUid) :
    course.after.projection subjectUid = db.analysis.projection subjectUid := by
  rw [AnalysisTables.projection, course.currentStateProjection]
  exact lookupBy_upsert_of_ne h

/-- A commit adds at most one transition of its subject. -/
theorem CommitCourse.transitionsOf_self :
    course.after.transitionsOf course.snapshot.subjectUid =
      db.analysis.transitionsOf course.snapshot.subjectUid ++ transitionRows uids course.snapshot
        (previousLifecycle (db.analysis.projection course.snapshot.subjectUid))
        course.lifecycle := by
  rw [AnalysisTables.transitionsOf, course.stateTransition, entries, List.filter_append, ← entries,
    ← AnalysisTables.transitionsOf]
  congr 1
  unfold transitionRows
  split
  · split <;> simp
  · rfl

theorem CommitCourse.transitionsOf_of_ne (h : subjectUid ≠ course.snapshot.subjectUid) :
    course.after.transitionsOf subjectUid = db.analysis.transitionsOf subjectUid := by
  rw [AnalysisTables.transitionsOf, course.stateTransition, entries, List.filter_append, ← entries,
    ← AnalysisTables.transitionsOf]
  unfold transitionRows
  split
  · split <;> simp [h.symm]
  · simp

theorem CommitCourse.commitsOf_self
    (h : (db.analysis.stateEvaluation.map StateEvaluation.evaluationUid).Nodup) :
    course.after.commitsOf course.snapshot.subjectUid =
      db.analysis.commitsOf course.snapshot.subjectUid ++ [course.committed] := by
  rw [AnalysisTables.commitsOf, course.committedEvaluations h]
  exact entries_concat_self committedSubject _ course.committed

theorem CommitCourse.commitsOf_of_ne
    (hunique : (db.analysis.stateEvaluation.map StateEvaluation.evaluationUid).Nodup)
    (h : subjectUid ≠ course.snapshot.subjectUid) :
    course.after.commitsOf subjectUid = db.analysis.commitsOf subjectUid := by
  rw [AnalysisTables.commitsOf, course.committedEvaluations hunique]
  exact entries_concat_of_ne h

/-- A commit extends the path of its subject by a legal transition, or leaves it. -/
theorem CommitCourse.lifecyclePath (hledger : CommitLedger db)
    (h : LifecyclePath db.analysis subjectUid) : LifecyclePath course.after subjectUid := by
  by_cases hsubject : subjectUid = course.snapshot.subjectUid
  · subst hsubject
    have hprevious := hledger.previousLifecycle_eq course.snapshot.subjectUid
    have hlegal := course.state.legal
    rw [hprevious] at hlegal
    obtain ⟨hpath, horder⟩ := h
    have hcommits := course.commitsOf_self hledger.evaluationsUnique
    constructor
    · rw [course.transitionsOf_self, course.projection_self, hprevious]
      cases hlifecycle : course.lifecycle with
      | none => simpa [transitionRows, nextProjection] using hpath
      | some state =>
        by_cases hsame : (db.analysis.projection course.snapshot.subjectUid).bind
            StateProjection.lastValidLifecycleState = some state
        · rw [hsame] at hpath ⊢
          simpa [transitionRows, nextProjection] using hpath
        · simp only [transitionRows, ne_eq, hsame, not_false_eq_true, if_true]
          refine isPath_concat hpath rfl fun p hp => ?_
          rcases hlegal state hlifecycle p hp with rfl | hstate
          · exact absurd hp hsame
          · exact hstate
    · rw [course.transitionsOf_self, hcommits, List.map_append, List.map_append]
      refine horder.append ?_
      unfold transitionRows
      split
      · split
        · exact List.Sublist.refl _
        · exact List.nil_sublist _
      · exact List.nil_sublist _
  · obtain ⟨hpath, horder⟩ := h
    constructor
    · rw [course.transitionsOf_of_ne hsubject, course.projection_of_ne hsubject]
      exact hpath
    · rw [course.transitionsOf_of_ne hsubject,
        course.commitsOf_of_ne hledger.evaluationsUnique hsubject]
      exact horder

end Commit

theorem LifecyclePath.of_unrelated {subjectUid : Uid} (h : Unrelated db db')
    (hpath : LifecyclePath db.analysis subjectUid) : LifecyclePath db'.analysis subjectUid := by
  rw [h.ledger]
  exact ⟨hpath.path, hpath.order⟩

/-- In every reachable database the transitions of a subject are a legal path. -/
theorem Reachable.lifecyclePath (h : Reachable allowed db) (subjectUid : Uid) :
    LifecyclePath db.analysis subjectUid := by
  refine (h.induction (P := fun db => CommitLedger db ∧ LifecyclePath db.analysis subjectUid)
    ?_ ?_ ?_).1.2
  · intro db hdb
    refine ⟨.of_empty hdb, ?_⟩
    rw [hdb]
    exact ⟨rfl, List.Sublist.refl _⟩
  · rintro db db' h ⟨hledger, hpath⟩
    exact ⟨hledger.of_unrelated h, hpath.of_unrelated h⟩
  · rintro db files uids request verified result course - hverify - ⟨hledger, hpath⟩
    exact ⟨course.commitLedger ⟨files, hverify⟩ hledger, course.lifecyclePath hledger hpath⟩

/-! ## The invariant -/

/-- After any run of commit attempts, the version of a subject counts its commits, its
transitions are a legal path to its last valid lifecycle, its effective lifecycle is there
when it is available and is then the last valid one, and an attempt that raises changes
nothing. -/
theorem lifecycle_projection (h : Reachable anyRequest db) (subjectUid : Uid) :
    db.analysis.version subjectUid = (db.analysis.commitsOf subjectUid).length ∧
    LifecyclePath db.analysis subjectUid ∧
    (∀ p ∈ db.analysis.projection subjectUid,
      (p.effectiveLifecycleState.isSome ↔ p.availabilityState = .available) ∧
      (p.effectiveLifecycleState.isSome →
        p.effectiveLifecycleState = p.lastValidLifecycleState)) ∧
    ∀ files uids request e db', (commit files uids request).run db = .error e db' → db' = db := by
  have hledger := h.commitLedger
  refine ⟨hledger.version_eq_length, h.lifecyclePath subjectUid, ?_, ?_⟩
  · intro p hp
    exact ⟨hledger.effective_isSome hp, hledger.effective_eq_lastValid hp⟩
  · intro files uids request e db' hrun
    obtain ⟨e', hcase⟩ | ⟨verified, result, hcase, -⟩ | ⟨verified, result, t', hcase, -⟩ :=
      commit_cases files uids request h.projectionsUnique
    · rw [hcase] at hrun
      cases hrun
      rfl
    · rw [hcase] at hrun
      cases hrun
    · rw [hcase] at hrun
      cases hrun

/-- After its third commit a subject has version 3, from the three commits it has. -/
theorem lifecycle_projection_recurringDatabase :
    recurringDatabase.analysis.version "sector" = 3 ∧
    (recurringDatabase.analysis.commitsOf "sector").length = 3 ∧
    LifecyclePath recurringDatabase.analysis "sector" ∧
    ∀ p ∈ recurringDatabase.analysis.projection "sector",
      p.effectiveLifecycleState.isSome ↔ p.availabilityState = .available := by
  obtain ⟨hversion, hpath, heffective, -⟩ := lifecycle_projection reachable_recurring.2 "sector"
  have hthree : recurringDatabase.analysis.version "sector" = 3 :=
    recurringStages_eq.2.2.2.version rfl
  exact ⟨hthree, hversion.symm.trans hthree, hpath, fun p hp => (heffective p hp).1⟩

end MarketMonitor
