import MarketMonitor.Analysis.Lifecycle
import MarketMonitor.Analysis.EventLedger

/-!
# The order of the commits

When the observation times of the commits of each subject are in an order, so are the
versions of each related key, provided that the related keys of the subjects do not
collide.
-/

namespace MarketMonitor

open Transaction Keyed View

variable {allowed : Database → AnalysisCommitRequest → Prop} {db db' : Database}
  {R : Instant → Instant → Prop}

/-- The observation times of the commits of each subject are in the order `R`. -/
def CommitsOrdered (R : Instant → Instant → Prop) (t : AnalysisTables) : Prop :=
  ∀ subjectUid, (t.commitsOf subjectUid).Pairwise fun p q => R p.1.committedAt q.1.committedAt

/-! ## The order of the versions -/

/-- The related keys of the evaluated subjects do not collide. -/
def RelatedKeysDistinct (t : AnalysisTables) : Prop :=
  ∀ x ∈ t.stateEvaluation, ∀ y ∈ t.stateEvaluation, ∀ kind kind',
    relatedKey x.subjectUid kind = relatedKey y.subjectUid kind' →
      x.subjectUid = y.subjectUid ∧ kind = kind'

/-- The versions of a related key are in the order of their times, which are those of the
commits of its subject. -/
structure EventOrder (R : Instant → Instant → Prop) (t : AnalysisTables) : Prop where
  committed : ∀ p ∈ t.eventLog,
    ∃ q ∈ t.commitsOf p.2.subjectUid, q.1.committedAt = p.1.createdAt
  increasing : ∀ key,
    (entries versionKey key t.eventLog).Pairwise fun p q => R p.1.createdAt q.1.createdAt

/-- The versions that deciding an event of a kind appends. -/
structure NewVersions (ctx : EventContext) (kind : EventKind) (t' : AnalysisTables)
    (new : List (EventVersion × MarketEvent)) : Prop where
  length_le : new.length ≤ 1
  row : ∀ p ∈ new, p.2 ∈ t'.marketEvent ∧ p.2.relatedKey = ctx.key kind ∧
    p.1.createdAt = ctx.snapshot.asOfTime

/-- What the decision about a kind of event adds to the log. -/
theorem EventDecided.newVersions {ctx : EventContext} {kind : EventKind} {t t' : AnalysisTables}
    (h : EventDecided ctx kind t t') (hledger : EventLedger t) (hready : ctx.Ready t) :
    ∃ new, t'.eventLog = t.eventLog ++ new ∧ NewVersions ctx kind t' new := by
  cases hchange : ctx.nextChange kind t with
  | none =>
    rw [h.of_no_change hchange]
    exact ⟨[], (List.append_nil _).symm, Nat.zero_le _, by simp⟩
  | some change =>
    obtain ⟨-, e, hkey, happended⟩ := (h.of_change hchange).appended hledger hchange hready
    refine ⟨_, happended.eventLog, Nat.le_refl _, ?_⟩
    intro p hp
    obtain rfl := List.mem_singleton.mp hp
    exact ⟨(happended.mem_marketEvent e).mpr (Or.inr rfl), hkey, rfl⟩

theorem NewVersions.pairwise {ctx : EventContext} {kind : EventKind} {t' : AnalysisTables}
    {new : List (EventVersion × MarketEvent)} (h : NewVersions ctx kind t' new)
    {R : EventVersion × MarketEvent → EventVersion × MarketEvent → Prop} : new.Pairwise R := by
  match new, h.length_le with
  | [], _ => exact List.Pairwise.nil
  | [p], _ => exact List.pairwise_singleton R p

theorem EventDecided.mem_marketEvent {ctx : EventContext} {kind : EventKind}
    {t t' : AnalysisTables} (h : EventDecided ctx kind t t') {e : MarketEvent}
    (he : e ∈ t.marketEvent) : e ∈ t'.marketEvent := by
  cases hchange : ctx.nextChange kind t with
  | none =>
    rw [h.of_no_change hchange]
    exact he
  | some change =>
    rw [(h.of_change hchange).tables]
    exact List.mem_append_left _ he

section Commit

variable {uids : CommitUids} {request : AnalysisCommitRequest} {verified : VerifiedRequest}
  {result : AnalysisCommitResult}
  (course : CommitCourse db uids request verified result db.analysis)

/-- What a commit appends to the versions. -/
theorem CommitCourse.newVersions (hledger : EventLedger db.analysis) :
    ∃ risk watch, course.after.eventLog = db.analysis.eventLog ++ risk ++ watch ∧
      NewVersions course.context .guardianRisk course.after risk ∧
      NewVersions course.context .scoutWatch course.after watch := by
  have hbefore := course.sameEvents_before.eventLedger hledger
  have hrisk := course.riskDecided.eventLedger hbefore course.ready_beforeEvents
  obtain ⟨risk, hriskLog, hriskNew⟩ :=
    course.riskDecided.newVersions hbefore course.ready_beforeEvents
  obtain ⟨watch, hwatchLog, hwatchNew⟩ :=
    course.watchDecided.newVersions hrisk course.ready_afterRisk
  refine ⟨risk, watch, ?_, ⟨hriskNew.length_le, ?_⟩,
    ⟨hwatchNew.length_le, hwatchNew.row⟩⟩
  · have hstart : course.beforeEvents.eventLog = db.analysis.eventLog := by
      rw [course.beforeEvents_eq]
      rfl
    rw [← hstart]
    rw [hriskLog] at hwatchLog
    exact hwatchLog
  · intro p hp
    obtain ⟨hmem, hrow⟩ := hriskNew.row p hp
    exact ⟨course.watchDecided.mem_marketEvent hmem, hrow⟩

theorem CommitCourse.commitsOf_prefix
    (hunique : (db.analysis.stateEvaluation.map StateEvaluation.evaluationUid).Nodup)
    (subjectUid : Uid) : ∃ new, course.after.commitsOf subjectUid =
      db.analysis.commitsOf subjectUid ++ new := by
  by_cases h : subjectUid = course.snapshot.subjectUid
  · subst h
    exact ⟨_, course.commitsOf_self hunique⟩
  · exact ⟨[], (course.commitsOf_of_ne hunique h).trans (List.append_nil _).symm⟩

theorem CommitsOrdered.of_after
    (hunique : (db.analysis.stateEvaluation.map StateEvaluation.evaluationUid).Nodup)
    (h : CommitsOrdered R course.after) : CommitsOrdered R db.analysis := by
  intro subjectUid
  obtain ⟨new, hnew⟩ := course.commitsOf_prefix hunique subjectUid
  have hafter := h subjectUid
  rw [hnew] at hafter
  exact (List.pairwise_append.mp hafter).1

theorem RelatedKeysDistinct.of_after (h : RelatedKeysDistinct course.after) :
    RelatedKeysDistinct db.analysis := by
  intro x hx y hy
  refine h x ?_ y ?_
  · rw [course.stateEvaluation]
    exact List.mem_append_left _ hx
  · rw [course.stateEvaluation]
    exact List.mem_append_left _ hy

/-- The commit is later than every commit of its subject. -/
theorem CommitsOrdered.asOfTime
    (hunique : (db.analysis.stateEvaluation.map StateEvaluation.evaluationUid).Nodup)
    (h : CommitsOrdered R course.after) {q : AnalysisCommit × StateEvaluation}
    (hq : q ∈ db.analysis.commitsOf course.snapshot.subjectUid) :
    R q.1.committedAt course.snapshot.asOfTime := by
  have hafter := h course.snapshot.subjectUid
  rw [course.commitsOf_self hunique] at hafter
  exact (List.pairwise_append.mp hafter).2.2 q hq _ (List.mem_singleton_self _)

/-- A version of a related key of the subject of the commit is about that subject. -/
theorem CommitCourse.subject_of_key (hledger : EventLedger db.analysis)
    (hkeys : RelatedKeysDistinct course.after) {e : MarketEvent} {kind : EventKind}
    (he : e ∈ course.after.marketEvent) (hkey : e.relatedKey = course.context.key kind) :
    e.subjectUid = course.snapshot.subjectUid ∧ e.eventKind = kind := by
  have hreferences := (course.eventLedger hledger).references
  obtain ⟨x, hx, hxsubject⟩ := hreferences.subjectOfEvent e he
  have hy : evaluationRow uids course.snapshot request verified.execution.facts
      course.availability course.lifecycle ∈ course.after.stateEvaluation := by
    rw [course.stateEvaluation]
    exact List.mem_append_right _ (List.mem_singleton_self _)
  rw [hreferences.keyOfEvent e he, ← hxsubject] at hkey
  obtain ⟨hsubject, hkind⟩ := hkeys x hx _ hy _ _ hkey
  exact ⟨hxsubject.symm.trans hsubject, hkind⟩

/-- A commit later than those of its subject keeps the order of the versions. -/
theorem CommitCourse.eventOrder (hcommits : CommitLedger db) (hledger : EventLedger db.analysis)
    (hasOf : CommitsOrdered R course.after) (hkeys : RelatedKeysDistinct course.after)
    (horder : EventOrder R db.analysis) : EventOrder R course.after := by
  have hunique := hcommits.evaluationsUnique
  obtain ⟨risk, watch, hlog, hrisk, hwatch⟩ := course.newVersions hledger
  have hold : ∀ p ∈ db.analysis.eventLog, p.2 ∈ course.after.marketEvent := by
    intro p hp
    have hp' : p ∈ course.after.eventLog := by
      rw [hlog]
      exact List.mem_append_left _ (List.mem_append_left _ hp)
    exact (mem_join.mp hp').2.1
  -- A version of a key the commit writes is older than the commit.
  have holder : ∀ kind, ∀ p ∈ db.analysis.eventLog, p.2.relatedKey = course.context.key kind →
      R p.1.createdAt course.snapshot.asOfTime := by
    intro kind p hp hkey
    obtain ⟨hsubject, -⟩ := course.subject_of_key hledger hkeys (hold p hp) hkey
    obtain ⟨q, hq, htime⟩ := horder.committed p hp
    rw [hsubject] at hq
    exact htime ▸ hasOf.asOfTime course hunique hq
  constructor
  · intro p hp
    rw [hlog, List.mem_append, List.mem_append] at hp
    rcases hp with (hp | hp) | hp
    · obtain ⟨q, hq, htime⟩ := horder.committed p hp
      obtain ⟨new, hnew⟩ := course.commitsOf_prefix hunique p.2.subjectUid
      exact ⟨q, by rw [hnew]; exact List.mem_append_left _ hq, htime⟩
    · obtain ⟨he, hkey, htime⟩ := hrisk.row p hp
      obtain ⟨hsubject, -⟩ := course.subject_of_key hledger hkeys he hkey
      rw [hsubject, course.commitsOf_self hunique]
      exact ⟨_, List.mem_append_right _ (List.mem_singleton_self _), htime.symm⟩
    · obtain ⟨he, hkey, htime⟩ := hwatch.row p hp
      obtain ⟨hsubject, -⟩ := course.subject_of_key hledger hkeys he hkey
      rw [hsubject, course.commitsOf_self hunique]
      exact ⟨_, List.mem_append_right _ (List.mem_singleton_self _), htime.symm⟩
  · intro key
    rw [hlog, entries, List.filter_append, List.filter_append, List.pairwise_append,
      List.pairwise_append]
    refine ⟨⟨horder.increasing key, hrisk.pairwise.filter _, ?_⟩, hwatch.pairwise.filter _, ?_⟩
    · intro p hp q hq
      obtain ⟨hp, hpkey⟩ := mem_entries.mp hp
      obtain ⟨hq, hqkey⟩ := mem_entries.mp hq
      obtain ⟨-, hkey, htime⟩ := hrisk.row q hq
      rw [htime]
      exact holder _ p hp (hpkey.trans (hqkey.symm.trans hkey))
    · intro p hp q hq
      obtain ⟨hq, hqkey⟩ := mem_entries.mp hq
      obtain ⟨-, hkey, htime⟩ := hwatch.row q hq
      rw [htime]
      rcases List.mem_append.mp hp with hp | hp
      · obtain ⟨hp, hpkey⟩ := mem_entries.mp hp
        exact holder _ p hp (hpkey.trans (hqkey.symm.trans hkey))
      · -- The two kinds have different keys.
        obtain ⟨hp, hpkey⟩ := mem_entries.mp hp
        obtain ⟨he, hkeyRisk, -⟩ := hrisk.row p hp
        obtain ⟨-, hkind⟩ := course.subject_of_key hledger hkeys he hkeyRisk
        obtain ⟨-, hkind'⟩ := course.subject_of_key hledger hkeys he
          (hpkey.trans (hqkey.symm.trans hkey))
        rw [hkind] at hkind'
        cases hkind'

end Commit

/-- The order of the versions in a reachable database. -/
theorem Reachable.eventOrder (h : Reachable allowed db) (hasOf : CommitsOrdered R db.analysis)
    (hkeys : RelatedKeysDistinct db.analysis) : EventOrder R db.analysis := by
  refine (h.induction (P := fun db => CommitLedger db ∧ EventLedger db.analysis ∧
    (CommitsOrdered R db.analysis → RelatedKeysDistinct db.analysis → EventOrder R db.analysis))
    ?_ ?_ ?_).1.2.2 hasOf hkeys
  · intro db hdb
    refine ⟨.of_empty hdb, ?_, fun _ _ => ?_⟩ <;> rw [hdb]
    · exact eventLedger_empty
    · refine ⟨fun p hp => ?_, fun _ => List.Pairwise.nil⟩
      cases hp
  · rintro db db' h ⟨hcommits, hledger, horder⟩
    refine ⟨hcommits.of_unrelated h, hledger.of_unrelated h, ?_⟩
    rw [h.ledger]
    intro hasOf hkeys
    exact ⟨(horder hasOf hkeys).committed, (horder hasOf hkeys).increasing⟩
  · rintro db files uids request verified result course - hverify - ⟨hcommits, hledger, horder⟩
    refine ⟨course.commitLedger ⟨files, hverify⟩ hcommits, course.eventLedger hledger, ?_⟩
    intro hasOf hkeys
    exact course.eventOrder hcommits hledger hasOf hkeys
      (horder (.of_after course hcommits.evaluationsUnique hasOf) (.of_after course hkeys))

/-! ## The scenes -/

/-- The keys of the events of the scenes are distinct. -/
theorem relatedKeysDistinct_recurringTables : RelatedKeysDistinct recurringTables := by
  have hsubject : ∀ x ∈ recurringTables.stateEvaluation, x.subjectUid = "sector" := by
    intro x hx
    have hmem := List.mem_map_of_mem (f := StateEvaluation.subjectUid) hx
    rw [recurringStages_eq.2.2.2.subjects] at hmem
    simpa [thirdOutline] using hmem
  intro x hx y hy kind kind' hkey
  rw [hsubject x hx, hsubject y hy] at hkey ⊢
  refine ⟨rfl, ?_⟩
  cases kind <;> cases kind'
  · rfl
  · exact absurd hkey relatedKey_sector_ne
  · exact absurd hkey.symm relatedKey_sector_ne
  · rfl

/-- The scenes are committed in the order of their times. -/
theorem commitsOrdered_recurringTables : CommitsOrdered (· < ·) recurringTables := by
  have hpairs : (recurringTables.committedEvaluations.map fun p =>
      (p.2.subjectUid, p.1.committedAt)).Pairwise fun a b => a.2 < b.2 := by
    rw [recurringStages_eq.2.2.2.commits]
    decide
  intro subjectUid
  exact (List.pairwise_map.mp hpairs).sublist List.filter_sublist

end MarketMonitor
