import MarketMonitor.Analysis.EventLedger
import MarketMonitor.Analysis.RecurringRisk
import MarketMonitor.Api.EventView

/-!
# Events by their identity

The API finds an event through the projection of its related key, which a recurrence of the
risk points to a new event. So an event is found, with the status and the number of its last
version, exactly while no later event has its related key (`event_addressable_iff`).
-/

namespace MarketMonitor

open Transaction Keyed View

/-! ## The event of a related key -/

/-- The projection of a related key is of the last event of the key. -/
def CurrentEvents (t : AnalysisTables) : Prop :=
  ∀ key, (entries MarketEvent.relatedKey key t.marketEvent).getLast?.map MarketEvent.eventUid =
    (t.eventProjection key).map EventProjection.eventUid

theorem currentEvents_empty : CurrentEvents .empty := fun _ => rfl

theorem SameEvents.currentEvents {t t' : AnalysisTables} (h : SameEvents t t')
    (hcurrent : CurrentEvents t) : CurrentEvents t' := by
  intro key
  rw [AnalysisTables.eventProjection, h.marketEvent, h.currentEventProjection]
  exact hcurrent key

/-- A new event becomes the one its related key projects, and a change of the event that is
open leaves it so. -/
theorem EventDecided.currentEvents {ctx : EventContext} {kind : EventKind}
    {t t' : AnalysisTables} (h : EventDecided ctx kind t t') (hcurrent : CurrentEvents t) :
    CurrentEvents t' := by
  cases hchange : ctx.nextChange kind t with
  | none =>
    rw [h.of_no_change hchange]
    exact hcurrent
  | some change =>
    have hwritten := h.of_change hchange
    have hevents : t'.marketEvent =
        t.marketEvent ++ if change.creates then [ctx.eventRow kind change] else [] := by
      rw [hwritten.tables]
    have hprojection : ∀ key, t'.eventProjection key =
        if key = ctx.key kind then some (ctx.projectionRow kind change)
        else t.eventProjection key := by
      intro key
      rw [AnalysisTables.eventProjection, hwritten.tables]
      exact lookupBy_upsert _ _ _ _
    intro key
    rw [hevents, hprojection]
    by_cases hkey : key = ctx.key kind
    · subst hkey
      rw [if_pos rfl]
      obtain ⟨-, -, hcreates, -⟩ | ⟨p, hp, -, hcreates, huid, -⟩ := eventChange_eq_some hchange
      · have hlast : entries MarketEvent.relatedKey (ctx.key kind)
            (t.marketEvent ++ [ctx.eventRow kind change]) =
            entries MarketEvent.relatedKey (ctx.key kind) t.marketEvent ++
              [ctx.eventRow kind change] :=
          entries_concat_self MarketEvent.relatedKey _ (ctx.eventRow kind change)
        rw [if_pos hcreates, hlast, List.getLast?_concat]
        rfl
      · rw [if_neg hcreates, List.append_nil, hcurrent, hp]
        exact congrArg some huid.symm
    · have hother : key ≠ (ctx.eventRow kind change).relatedKey := hkey
      rw [if_neg hkey]
      by_cases hcreates : change.creates
      · rw [if_pos hcreates, entries_concat_of_ne hother]
        exact hcurrent key
      · rw [if_neg hcreates, List.append_nil]
        exact hcurrent key

/-! ## The evaluation of a version -/

/-- The evaluations come from sealed snapshots with their quality contexts, and the versions
of the events from evaluations of the state, the Guardian and the Scout. -/
structure EvaluationsComplete (db : Database) : Prop where
  snapshot : ∀ x ∈ db.analysis.stateEvaluation, ∃ s, db.snapshot x.snapshotUid = some s ∧
    s.snapshotStatus = .sealed ∧
    ∃ q ∈ db.evidence.qualityContext, q.qualityContextUid = s.qualityContextUid
  state : ∀ v ∈ db.analysis.eventVersion, ∃ x ∈ db.analysis.stateEvaluation,
    x.evaluationUid = v.stateEvaluationUid
  guardian : ∀ v ∈ db.analysis.eventVersion, ∃ g ∈ db.analysis.guardianEvaluation,
    g.guardianUid = v.guardianUid ∧ g.stateEvaluationUid = v.stateEvaluationUid
  scout : ∀ v ∈ db.analysis.eventVersion, ∃ s ∈ db.analysis.scoutEvaluation,
    s.scoutUid = v.scoutUid ∧ s.stateEvaluationUid = v.stateEvaluationUid

/-- A new version is of the evaluations of its commit. -/
theorem EventDecided.mem_eventVersion {ctx : EventContext} {kind : EventKind}
    {t t' : AnalysisTables} (h : EventDecided ctx kind t t') {v : EventVersion}
    (hv : v ∈ t'.eventVersion) : v ∈ t.eventVersion ∨
      v.stateEvaluationUid = ctx.uids.evaluation ∧ v.guardianUid = ctx.uids.guardian ∧
        v.scoutUid = ctx.uids.scout := by
  cases hchange : ctx.nextChange kind t with
  | none =>
    rw [h.of_no_change hchange] at hv
    exact Or.inl hv
  | some change =>
    rw [(h.of_change hchange).tables] at hv
    refine (List.mem_append.mp hv).imp_right fun hv => ?_
    rw [List.mem_singleton.mp hv]
    exact ⟨rfl, rfl, rfl⟩

/-- The quality context of the snapshot of a commit. -/
theorem exists_quality_of_commitSnapshot {db : Database} {snapshotUid : Uid}
    {snapshot : CommitSnapshot} (h : commitSnapshot db snapshotUid = .ok snapshot)
    {row : EvaluationSnapshot} (hrow : db.snapshot snapshotUid = some row) :
    ∃ q ∈ db.evidence.qualityContext, q.qualityContextUid = row.qualityContextUid := by
  unfold commitSnapshot at h
  cases hquality : db.evidence.qualityContext.find? fun q =>
      q.qualityContextUid = row.qualityContextUid with
  | none =>
    rw [Database.snapshot] at hrow
    simp only [hrow, hquality, Option.bind_eq_bind, Option.bind_some, Option.bind_none] at h
    cases h
  | some quality => exact ⟨quality, mem_of_lookupBy hquality, key_of_lookupBy hquality⟩

section Commit

variable {db : Database} {uids : CommitUids} {request : AnalysisCommitRequest}
  {verified : VerifiedRequest} {result : AnalysisCommitResult}
  (course : CommitCourse db uids request verified result db.analysis)

theorem CommitCourse.currentEvents (h : CurrentEvents db.analysis) :
    CurrentEvents course.after :=
  course.sameEvents_after.currentEvents (course.watchDecided.currentEvents
    (course.riskDecided.currentEvents (course.sameEvents_before.currentEvents h)))

theorem CommitCourse.mem_eventVersion {v : EventVersion} (hv : v ∈ course.after.eventVersion) :
    v ∈ db.analysis.eventVersion ∨ v.stateEvaluationUid = uids.evaluation ∧
      v.guardianUid = uids.guardian ∧ v.scoutUid = uids.scout := by
  have hbefore : course.beforeEvents.eventVersion = db.analysis.eventVersion :=
    course.sameEvents_before.eventVersion
  rcases course.watchDecided.mem_eventVersion hv with hv | hv
  · rcases course.riskDecided.mem_eventVersion hv with hv | hv
    · exact Or.inl (hbefore ▸ hv)
    · exact Or.inr hv
  · exact Or.inr hv

/-- A commit leaves the evaluations complete. -/
theorem CommitCourse.evaluationsComplete (h : EvaluationsComplete db) :
    EvaluationsComplete { db with analysis := course.after } := by
  refine ⟨fun x hx => ?_, fun v hv => ?_, fun v hv => ?_, fun v hv => ?_⟩
  · rw [course.stateEvaluation] at hx
    rcases List.mem_append.mp hx with hx | hx
    · exact h.snapshot x hx
    · obtain ⟨-, row, hrow, hsealed, -⟩ := commitSnapshot_ok course.snapshot_eq
      obtain rfl := List.mem_singleton.mp hx
      exact ⟨row, hrow, hsealed, exists_quality_of_commitSnapshot course.snapshot_eq hrow⟩
  · rw [course.stateEvaluation]
    rcases course.mem_eventVersion hv with hv | ⟨hstate, -⟩
    · obtain ⟨x, hx, huid⟩ := h.state v hv
      exact ⟨x, List.mem_append_left _ hx, huid⟩
    · exact ⟨_, List.mem_append_right _ (List.mem_singleton_self _), hstate.symm⟩
  · rcases course.mem_eventVersion hv with hv | ⟨hstate, hguardian, -⟩
    · obtain ⟨g, hg, huid⟩ := h.guardian v hv
      rw [course.guardianEvaluation]
      exact ⟨g, List.mem_append_left _ hg, huid⟩
    · exact ⟨_, course.mem_guardianEvaluation, hguardian.symm, hstate.symm⟩
  · rcases course.mem_eventVersion hv with hv | ⟨hstate, -, hscout⟩
    · obtain ⟨s, hs, huid⟩ := h.scout v hv
      rw [course.scoutEvaluation]
      exact ⟨s, List.mem_append_left _ hs, huid⟩
    · exact ⟨_, course.mem_scoutEvaluation, hscout.symm, hstate.symm⟩

end Commit

/-! ## Runs -/

/-- A call of `commit`, or a step of the other services, which delete no quality context that
a sealed snapshot may reference. -/
structure EventStep (db db' : Database) : Prop where
  step : Step anyRequest db db'
  qualityContext : ∀ q ∈ db.evidence.qualityContext, q ∈ db'.evidence.qualityContext

/-- The databases that runs from one without commits reach. -/
def EventReachable (db : Database) : Prop :=
  ∃ db₀ : Database, db₀.analysis = .empty ∧ Relation.ReflTransGen EventStep db₀ db

/-- What the events of a reachable database meet. -/
structure EventTables (db : Database) : Prop where
  projectionsUnique : db.analysis.ProjectionsUnique
  ledger : EventLedger db.analysis
  current : CurrentEvents db.analysis
  evaluations : EvaluationsComplete db

/-- The tables of the events stand while the other writes leave them. -/
theorem EventTables.of_unrelated {db db' : Database} (h : EventTables db)
    (hunrelated : Unrelated db db')
    (hquality : ∀ q ∈ db.evidence.qualityContext, q ∈ db'.evidence.qualityContext) :
    EventTables db' := by
  have hsame : SameEvents db.analysis db'.analysis := by
    rw [hunrelated.ledger]
    exact ⟨rfl, rfl, rfl, rfl, fun _ hc => hc, fun _ hx => hx⟩
  refine ⟨?_, hsame.eventLedger h.ledger, hsame.currentEvents h.current, ?_⟩
  · rw [hunrelated.ledger]
    exact h.projectionsUnique
  · have hevaluations := h.evaluations
    refine ⟨?_, ?_, ?_, ?_⟩
    · intro x hx
      rw [hunrelated.ledger] at hx
      obtain ⟨s, hs, hsealed, q, hq, huid⟩ := hevaluations.snapshot x hx
      exact ⟨s, hunrelated.sealedSnapshot _ s hs hsealed, hsealed, q, hquality q hq, huid⟩
    · rw [hunrelated.ledger]
      exact hevaluations.state
    · rw [hunrelated.ledger]
      exact hevaluations.guardian
    · rw [hunrelated.ledger]
      exact hevaluations.scout

theorem EventTables.step {db db' : Database} (h : EventTables db) (hstep : EventStep db db') :
    EventTables db' := by
  obtain hunrelated | rfl | ⟨files, uids, request, verified, result, course, -, -, rfl⟩ :=
    hstep.step.cases h.projectionsUnique
  · exact h.of_unrelated hunrelated hstep.qualityContext
  · exact h
  · exact ⟨course.projectionsUnique h.projectionsUnique, course.eventLedger h.ledger,
      course.currentEvents h.current, course.evaluationsComplete h.evaluations⟩

theorem EventTables.of_empty {db : Database} (h : db.analysis = .empty) : EventTables db := by
  refine ⟨?_, ?_, ?_, ⟨?_, ?_, ?_, ?_⟩⟩ <;> rw [h]
  · exact List.nodup_nil
  · exact eventLedger_empty
  · exact currentEvents_empty
  all_goals exact fun _ hmem => absurd hmem List.not_mem_nil

theorem EventReachable.eventTables {db : Database} (h : EventReachable db) : EventTables db := by
  obtain ⟨db₀, hempty, hrun⟩ := h
  exact invariant_of_step (fun _ _ h hstep => h.step hstep) hrun (.of_empty hempty)

/-! ## Looking an event up -/

section Lookup

variable {db : Database} {e : MarketEvent}

theorem EventTables.lookup_event (h : EventTables db) (he : e ∈ db.analysis.marketEvent) :
    (db.analysis.marketEvent.filter fun x => x.eventUid = e.eventUid) = [e] := by
  rw [filter_eq_toList_lookupBy h.ledger.references.eventsUnique,
    lookupBy_of_mem h.ledger.references.eventsUnique he, Option.toList_some]

/-- The last version of the event a projection points to. -/
theorem EventTables.last_of_projection (h : EventTables db)
    (he : e ∈ db.analysis.marketEvent) {key : String} {p : EventProjection}
    (hp : db.analysis.eventProjection key = some p) (huid : p.eventUid = e.eventUid) :
    e.relatedKey = key ∧ ∃ vs v, db.analysis.versionsOf e.eventUid = vs ++ [v] ∧
      p = versionProjection (v, e) := by
  obtain ⟨e', he', vs, v, hvs, hkey, rfl⟩ := h.ledger.projected key p hp
  have hv : v.eventUid = e'.eventUid := by
    have hmem : v ∈ db.analysis.versionsOf e'.eventUid := by simp [hvs]
    exact (mem_entries.mp hmem).2
  obtain rfl : e' = e := List.inj_on_of_nodup_map h.ledger.references.eventsUnique he' he
    (hv.symm.trans huid)
  exact ⟨hkey, vs, v, hvs, rfl⟩

/-- The projections of an event : the one of its related key, if it points to the event. -/
theorem EventTables.projections_of (h : EventTables db) (he : e ∈ db.analysis.marketEvent) :
    (db.analysis.currentEventProjection.filter fun p => p.eventUid = e.eventUid) =
      (db.analysis.eventProjection e.relatedKey).toList.filter fun p =>
        p.eventUid = e.eventUid := by
  rw [AnalysisTables.eventProjection,
    ← filter_eq_toList_lookupBy h.ledger.projectionsUnique, List.filter_filter]
  refine List.filter_congr fun p hp => ?_
  have hkey : p.eventUid = e.eventUid → p.relatedKey = e.relatedKey := fun huid =>
    (h.last_of_projection he (lookupBy_of_mem h.ledger.projectionsUnique hp) huid).1.symm
  by_cases huid : p.eventUid = e.eventUid
  · simp [huid, hkey huid]
  · simp [huid]

/-- The context of a version is found. -/
theorem EventTables.protectiveContext (h : EventTables db) {v : EventVersion}
    (hv : v ∈ db.analysis.eventVersion) :
    ∃ context, db.protectiveContext v.stateEvaluationUid v.guardianUid v.scoutUid =
      .ok context := by
  obtain ⟨x, hx, hxuid⟩ := h.evaluations.state v hv
  obtain ⟨x', hx'⟩ := Option.isSome_iff_exists.mp
    (List.find?_isSome (p := fun x => x.evaluationUid = v.stateEvaluationUid) |>.mpr
      ⟨x, hx, decide_eq_true hxuid⟩)
  have hx'uid : x'.evaluationUid = v.stateEvaluationUid := key_of_lookupBy hx'
  obtain ⟨s, hs, -, q, hq, hquid⟩ := h.evaluations.snapshot x' (mem_of_lookupBy hx')
  obtain ⟨q', hq'⟩ := Option.isSome_iff_exists.mp
    (List.find?_isSome (p := fun q => q.qualityContextUid = s.qualityContextUid) |>.mpr
      ⟨q, hq, decide_eq_true hquid⟩)
  obtain ⟨g, hg, hguid⟩ := h.evaluations.guardian v hv
  obtain ⟨g', hg'⟩ := Option.isSome_iff_exists.mp
    (List.find?_isSome (p := fun g => g.guardianUid = v.guardianUid ∧
      g.stateEvaluationUid = x'.evaluationUid) |>.mpr
      ⟨g, hg, decide_eq_true ⟨hguid.1, hguid.2.trans hx'uid.symm⟩⟩)
  obtain ⟨c, hc, hcuid⟩ := h.evaluations.scout v hv
  obtain ⟨c', hc'⟩ := Option.isSome_iff_exists.mp
    (List.find?_isSome (p := fun c => c.scoutUid = v.scoutUid ∧
      c.stateEvaluationUid = x'.evaluationUid) |>.mpr
      ⟨c, hc, decide_eq_true ⟨hcuid.1, hcuid.2.trans hx'uid.symm⟩⟩)
  unfold Database.protectiveContext
  rw [Database.snapshot] at hs
  simp only [hx', hs, hq', hg', hc', Option.bind_eq_bind, Option.bind_some, Option.pure_def]
  exact ⟨_, rfl⟩

/-- The event of a projection is found, with its last version. -/
theorem EventTables.event_of_projection (h : EventTables db)
    (he : e ∈ db.analysis.marketEvent) {p : EventProjection}
    (hp : db.analysis.eventProjection e.relatedKey = some p) (huid : p.eventUid = e.eventUid) :
    ∃ view vs v, db.event e.eventUid = .ok view ∧
      db.analysis.versionsOf e.eventUid = vs ++ [v] ∧ view.status = v.eventStatus ∧
      view.version = v.version := by
  obtain ⟨-, vs, v, hvs, rfl⟩ := h.last_of_projection he hp huid
  have hv : v ∈ db.analysis.eventVersion := by
    have hmem : v ∈ db.analysis.versionsOf e.eventUid := by simp [hvs]
    exact (mem_entries.mp hmem).1
  have hrows : db.eventRows e.eventUid = [(e, versionProjection (v, e), v)] := by
    rw [Database.eventRows, h.lookup_event he, List.flatMap_singleton, h.projections_of he, hp,
      Option.toList_some, List.filter_singleton, decide_eq_true huid, cond_true,
      List.flatMap_singleton, filter_eq_toList_lookupBy h.ledger.references.versionsUnique]
    have hlookup := lookupBy_of_mem h.ledger.references.versionsUnique hv
    rw [show (versionProjection (v, e)).eventVersionUid = v.eventVersionUid from rfl, hlookup]
    rfl
  have hpos : 1 ≤ v.version := by
    have hversions := (h.ledger.life e he).versions
    rw [hvs, List.map_append, List.length_append, List.length_singleton,
      List.range'_concat] at hversions
    have hlast := (List.append_inj' hversions rfl).2
    simp only [List.map_singleton, List.singleton_inj] at hlast
    omega
  obtain ⟨context, hcontext⟩ := h.protectiveContext hv
  have hevent : ∃ view, db.event e.eventUid = .ok view ∧
      view.status = v.eventStatus ∧ view.version = v.version := by
    unfold Database.event
    rw [hrows]
    dsimp only
    unfold Database.eventSummary
    rw [hcontext]
    refine ⟨_, congrArg (Except.map _) (dif_pos hpos), rfl, rfl⟩
  obtain ⟨view, hview, hstatus, hversion⟩ := hevent
  exact ⟨view, vs, v, hview, hvs, hstatus, hversion⟩

/-- An event that is found is the one its related key projects. -/
theorem EventTables.projection_of_event (h : EventTables db)
    (he : e ∈ db.analysis.marketEvent) {view : EventDetail}
    (hview : db.event e.eventUid = .ok view) :
    (db.analysis.eventProjection e.relatedKey).map EventProjection.eventUid =
      some e.eventUid := by
  by_contra hother
  have hnone : db.eventRows e.eventUid = [] := by
    rw [Database.eventRows, h.lookup_event he, List.flatMap_singleton, h.projections_of he,
      List.filter_eq_nil_iff.mpr, List.flatMap_nil]
    intro p hp huid
    rw [Option.mem_toList] at hp
    rw [hp] at hother
    exact hother (congrArg some (of_decide_eq_true huid))
  unfold Database.event at hview
  rw [hnone] at hview
  cases hview

end Lookup

/-- An event is found with the status and the number of its last version. -/
def Addressable (db : Database) (e : MarketEvent) : Prop :=
  ∃ view vs v, db.event e.eventUid = .ok view ∧
    db.analysis.versionsOf e.eventUid = vs ++ [v] ∧ view.status = v.eventStatus ∧
    view.version = v.version

/-- An event is addressable when it is the last of its related key. -/
theorem EventTables.addressable_iff {db : Database} (h : EventTables db) {e : MarketEvent}
    (he : e ∈ db.analysis.marketEvent) : Addressable db e ↔
      (entries MarketEvent.relatedKey e.relatedKey db.analysis.marketEvent).getLast? = some e := by
  have hcurrent := h.current e.relatedKey
  constructor
  · rintro ⟨view, vs, v, hview, -⟩
    rw [h.projection_of_event he hview] at hcurrent
    obtain ⟨last, hlast, huid⟩ := Option.map_eq_some_iff.mp hcurrent
    have hmem := (mem_entries.mp (List.mem_of_getLast? hlast)).1
    rw [hlast, List.inj_on_of_nodup_map h.ledger.references.eventsUnique hmem he huid]
  · intro hlast
    rw [hlast, Option.map_some] at hcurrent
    obtain ⟨p, hp, huid⟩ := Option.map_eq_some_iff.mp hcurrent.symm
    exact h.event_of_projection he hp huid

/-- An event of a reachable database is addressable exactly when it is the last event of its
related key. -/
theorem event_addressable_iff {db : Database} (h : EventReachable db) {e : MarketEvent}
    (he : e ∈ db.analysis.marketEvent) : Addressable db e ↔
      (entries MarketEvent.relatedKey e.relatedKey db.analysis.marketEvent).getLast? = some e :=
  h.eventTables.addressable_iff he

/-! ## A risk that recurs -/

theorem eventStep_recurringAt {t t' : AnalysisTables}
    (h : Step anyRequest (recurringAt t) (recurringAt t')) :
    EventStep (recurringAt t) (recurringAt t') :=
  ⟨h, fun _ hq => hq⟩

theorem eventReachable_recurringDatabase : EventReachable recurringDatabase := by
  obtain ⟨hfirst, hsecond, hthird⟩ := @recurring_steps anyRequest ⟨trivial, trivial, trivial⟩
  exact ⟨recurringAt .empty, rfl,
    ((Relation.ReflTransGen.single (eventStep_recurringAt hfirst)).tail
      (eventStep_recurringAt hsecond)).tail (eventStep_recurringAt hthird)⟩

/-- The two events of the risk, which have one related key. -/
theorem recurringDatabase_events : ∃ first last : MarketEvent,
    recurringDatabase.analysis.marketEvent = [first, last] ∧ first ≠ last ∧
      first.relatedKey = last.relatedKey := by
  obtain ⟨first, _, hevents, hfirst, hrest⟩ := List.map_eq_cons_iff.mp
    recurringStages_eq.2.2.2.events
  obtain ⟨last, _, rfl, hlast, hnil⟩ := List.map_eq_cons_iff.mp hrest
  rw [List.map_eq_nil_iff.mp hnil] at hevents
  simp only [Prod.mk.injEq] at hfirst hlast
  have hkeys := eventReachable_recurringDatabase.eventTables.ledger.references.keyOfEvent
  rw [analysis_recurringDatabase] at hkeys ⊢
  refine ⟨first, last, hevents, ?_, ?_⟩
  · rintro rfl
    exact absurd (hfirst.1.symm.trans hlast.1) (by decide)
  · have hfirst' : first ∈ recurringTables.marketEvent := by
      rw [hevents]
      exact List.mem_cons_self
    have hlast' : last ∈ recurringTables.marketEvent := by
      rw [hevents]
      exact List.mem_cons_of_mem _ List.mem_cons_self
    rw [hkeys first hfirst', hkeys last hlast', hfirst.2.1, hlast.2.1, hfirst.2.2, hlast.2.2]

/-- The event of the recurrence is found. -/
theorem recurring_event_is_found :
    ∃ e ∈ recurringDatabase.analysis.marketEvent, Addressable recurringDatabase e := by
  obtain ⟨first, last, hevents, -, hkey⟩ := recurringDatabase_events
  have hlast : last ∈ recurringDatabase.analysis.marketEvent := by
    rw [hevents]
    exact List.mem_cons_of_mem _ List.mem_cons_self
  refine ⟨last, hlast, (event_addressable_iff eventReachable_recurringDatabase hlast).mpr ?_⟩
  rw [hevents, entries]
  simp [hkey]

/-- The event that was resolved before the recurrence is not found. -/
theorem resolved_event_is_lost : ¬∀ db, EventReachable db →
    ∀ e ∈ db.analysis.marketEvent, Addressable db e := by
  intro h
  obtain ⟨first, last, hevents, hne, hkey⟩ := recurringDatabase_events
  have hfirst : first ∈ recurringDatabase.analysis.marketEvent := by
    rw [hevents]
    exact List.mem_cons_self
  have hlast := (eventReachable_recurringDatabase.eventTables.addressable_iff hfirst).mp
    (h _ eventReachable_recurringDatabase first hfirst)
  rw [hevents, entries] at hlast
  simp only [List.filter_cons, hkey, decide_true, if_true, List.filter_nil] at hlast
  exact hne (Option.some.inj hlast).symm

end MarketMonitor
