import MarketMonitor.Analysis.RecurringRisk

/-!
# Events and the outbox

The versions of an event live from their creation, through changes, to at most one
resolution at the end (`Life`). The projection of a related key is its last version, and
an event that is not over is the one its related key projects (`EventLedger`). Deciding
an event keeps both, since it appends one version to the event that is open, or to a new
one when none is.
-/

namespace MarketMonitor

open Transaction Keyed View

/-! ## The change of an event -/

/-- A change begins an event when none is open, and otherwise goes on with the open one. -/
theorem eventChange_eq_some {ctx : EventContext} {kind : EventKind}
    {current : Option EventProjection} {change : EventChange}
    (h : eventChange ctx kind current = some change) :
    (ctx.desired kind ∧ (∀ p ∈ current, p.eventStatus.closed) ∧ change.creates ∧
      change.eventUid = ctx.uids.event kind ∧ change.version = 1 ∧
      change.changeType = .created ∧ change.status = .active) ∨
    ∃ p, current = some p ∧ ¬p.eventStatus.closed ∧ ¬change.creates ∧
      change.eventUid = p.eventUid ∧ change.version = p.version + 1 ∧
      (ctx.desired kind ∧ change.changeType = .changed ∧ change.status = .active ∨
        ¬ctx.desired kind ∧ change.changeType = .resolved ∧ change.status = .resolved) := by
  unfold eventChange at h
  by_cases hdesired : ctx.desired kind
  · rw [if_pos hdesired] at h
    cases current with
    | none =>
      obtain rfl := Option.some.inj h
      exact Or.inl ⟨hdesired, by simp, rfl, rfl, rfl, rfl, rfl⟩
    | some p =>
      by_cases hclosed : p.eventStatus.closed
      · simp only [Option.filter_some, hclosed, Bool.not_true, Bool.false_eq_true, if_false] at h
        obtain rfl := Option.some.inj h
        refine Or.inl ⟨hdesired, ?_, rfl, rfl, rfl, rfl, rfl⟩
        rintro q hq
        obtain rfl := Option.some.inj hq
        exact hclosed
      · simp only [Option.filter_some, hclosed, Bool.not_false, if_true] at h
        obtain rfl := Option.some.inj h
        exact Or.inr ⟨p, rfl, hclosed, by simp, rfl, rfl, Or.inl ⟨hdesired, rfl, rfl⟩⟩
  · rw [if_neg hdesired] at h
    cases current with
    | none => cases h
    | some p =>
      by_cases hclosed : p.eventStatus.closed
      · simp only [Option.filter_some, hclosed, Bool.not_true, Bool.false_eq_true, if_false] at h
        cases h
      · simp only [Option.filter_some, hclosed, Bool.not_false, if_true] at h
        obtain rfl := Option.some.inj h
        exact Or.inr ⟨p, rfl, hclosed, by simp, rfl, rfl, Or.inr ⟨hdesired, rfl, rfl⟩⟩

/-- Nothing changes when the kind is not desired and no event is open. -/
theorem eventChange_eq_none {ctx : EventContext} {kind : EventKind}
    {current : Option EventProjection} (h : eventChange ctx kind current = none) :
    ¬ctx.desired kind ∧ ∀ p ∈ current, p.eventStatus.closed := by
  unfold eventChange at h
  by_cases hdesired : ctx.desired kind
  · rw [if_pos hdesired] at h
    cases hopen : current.filter fun p => !p.eventStatus.closed <;> simp [hopen] at h
  · rw [if_neg hdesired] at h
    refine ⟨hdesired, fun p hp => ?_⟩
    obtain rfl := Option.mem_def.mp hp
    cases hclosed : p.eventStatus.closed with
    | true => rfl
    | false =>
      simp only [Option.filter_some, hclosed, Bool.not_false, if_true] at h
      cases h

/-! ## The life of an event -/

/-- The versions of an event : created active, changed while active, resolved at most at
the end. -/
inductive Life : List EventVersion → Prop where
  | created (v : EventVersion) (hversion : v.version = 1) (htype : v.changeType = .created)
      (hstatus : v.eventStatus = .active) : Life [v]
  | next (vs : List EventVersion) (p v : EventVersion) (h : Life (vs ++ [p]))
      (hactive : p.eventStatus = .active) (hversion : v.version = p.version + 1)
      (hchange : v.changeType = .changed ∧ v.eventStatus = .active ∨
        v.changeType = .resolved ∧ v.eventStatus = .resolved) : Life (vs ++ [p] ++ [v])

theorem Life.exists_last {vs : List EventVersion} (h : Life vs) : ∃ ws w, vs = ws ++ [w] := by
  cases h with
  | created v => exact ⟨[], v, rfl⟩
  | next ws p v => exact ⟨ws ++ [p], v, rfl⟩

/-- The versions are numbered from `1` on. -/
theorem Life.versions {vs : List EventVersion} (h : Life vs) :
    vs.map EventVersion.version = List.range' 1 vs.length := by
  induction h with
  | created v hversion => simp [hversion]
  | next vs p v _ _ hversion _ ih =>
    have hlast : p.version = vs.length + 1 := by
      rw [List.map_append, List.length_append, List.length_singleton, List.range'_concat] at ih
      have hp := (List.append_inj' ih rfl).2
      simp only [List.map_singleton, List.singleton_inj, one_mul] at hp
      omega
    have hlength : (vs ++ [p] ++ [v]).length = (vs ++ [p]).length + 1 := by simp
    rw [List.map_append, ih, hlength, List.range'_concat]
    simp only [List.map_singleton, List.append_cancel_left_eq, List.singleton_inj,
      List.length_append, List.length_singleton]
    omega

/-- The first version, and no other, is `CREATED`. -/
theorem Life.head_created {vs : List EventVersion} (h : Life vs) :
    ∃ v rest, vs = v :: rest ∧ v.changeType = .created ∧
      ∀ w ∈ rest, w.changeType ≠ .created := by
  induction h with
  | created v _ htype => exact ⟨v, [], rfl, htype, by simp⟩
  | next vs p v _ _ _ hchange ih =>
    obtain ⟨u, rest, hvs, htype, hrest⟩ := ih
    refine ⟨u, rest ++ [v], by rw [hvs]; rfl, htype, ?_⟩
    intro w hw
    rcases List.mem_append.mp hw with hw | hw
    · exact hrest w hw
    · obtain rfl := List.mem_singleton.mp hw
      rcases hchange with ⟨htype, -⟩ | ⟨htype, -⟩ <;> simp [htype]

/-- Every version before the last is active. -/
theorem Life.active_of_mem_dropLast {vs : List EventVersion} (h : Life vs) :
    ∀ v ∈ vs.dropLast, v.eventStatus = .active := by
  induction h with
  | created v => simp
  | next vs p v _ hactive _ _ ih =>
    rw [List.dropLast_concat] at ih ⊢
    intro w hw
    rcases List.mem_append.mp hw with hw | hw
    · exact ih w hw
    · rw [List.mem_singleton.mp hw]
      exact hactive

/-- A version that is not over is active. -/
theorem Life.last_active {vs : List EventVersion} {v : EventVersion} (h : Life (vs ++ [v]))
    (hopen : ¬v.eventStatus.closed) : v.eventStatus = .active := by
  generalize hws : vs ++ [v] = ws at h
  cases h with
  | created w _ _ hstatus =>
    obtain ⟨-, hv⟩ := List.append_inj' (hws.trans (List.nil_append [w]).symm) rfl
    rw [List.singleton_inj.mp hv]
    exact hstatus
  | next ws p w _ _ _ hchange =>
    obtain ⟨-, hv⟩ := List.append_inj' hws rfl
    obtain rfl := List.singleton_inj.mp hv
    rcases hchange with ⟨-, hstatus⟩ | ⟨-, hstatus⟩
    · exact hstatus
    · exact absurd (by rw [hstatus]; rfl) hopen

/-! ## The ledger of the events -/

/-- The versions of an event, in the order of the table. -/
def AnalysisTables.versionsOf (t : AnalysisTables) (eventUid : Uid) : List EventVersion :=
  entries EventVersion.eventUid eventUid t.eventVersion

/-- `event_version JOIN market_event`, in the order of the versions. -/
def AnalysisTables.eventLog (t : AnalysisTables) : List (EventVersion × MarketEvent) :=
  join EventVersion.eventUid MarketEvent.eventUid t.eventVersion t.marketEvent

/-- The related key of a version. -/
def versionKey (p : EventVersion × MarketEvent) : String := p.2.relatedKey

/-- The projection a version leaves. -/
def versionProjection (p : EventVersion × MarketEvent) : EventProjection where
  relatedKey := p.2.relatedKey
  eventUid := p.1.eventUid
  eventVersionUid := p.1.eventVersionUid
  eventStatus := p.1.eventStatus
  version := p.1.version
  updatedAt := p.1.createdAt

/-- The references between the tables of the events. -/
structure EventReferences (t : AnalysisTables) : Prop where
  eventsUnique : (t.marketEvent.map MarketEvent.eventUid).Nodup
  versionsUnique : (t.eventVersion.map EventVersion.eventVersionUid).Nodup
  eventOfVersion : ∀ v ∈ t.eventVersion, ∃ e ∈ t.marketEvent, e.eventUid = v.eventUid
  keyOfEvent : ∀ e ∈ t.marketEvent, e.relatedKey = relatedKey e.subjectUid e.eventKind
  subjectOfEvent : ∀ e ∈ t.marketEvent,
    ∃ x ∈ t.stateEvaluation, x.subjectUid = e.subjectUid
  commitOfVersion : ∀ v ∈ t.eventVersion,
    ∃ c ∈ t.analysisCommit, c.commitUid = v.analysisCommitUid
  versionOfIntent : ∀ n ∈ t.notificationIntent,
    ∃ v ∈ t.eventVersion, v.eventVersionUid = n.eventVersionUid

/-- The events, their versions and their projections. -/
structure EventLedger (t : AnalysisTables) : Prop where
  references : EventReferences t
  projectionsUnique : (t.currentEventProjection.map EventProjection.relatedKey).Nodup
  projections : Maintains versionKey (fun _ p => versionProjection p) EventProjection.relatedKey
    t.currentEventProjection t.eventLog
  life : ∀ e ∈ t.marketEvent, Life (t.versionsOf e.eventUid)
  /-- An event that is not over is the one its related key projects. -/
  openProjected : ∀ e ∈ t.marketEvent, ∀ vs v, t.versionsOf e.eventUid = vs ++ [v] →
    ¬v.eventStatus.closed → t.eventProjection e.relatedKey = some (versionProjection (v, e))
  /-- A projection is the last version of an event. -/
  projected : ∀ key p, t.eventProjection key = some p → ∃ e ∈ t.marketEvent, ∃ vs v,
    t.versionsOf e.eventUid = vs ++ [v] ∧ e.relatedKey = key ∧ p = versionProjection (v, e)

/-- A version of an event, appended with its projection. -/
structure VersionAppended (t t' : AnalysisTables) (e : MarketEvent) (v : EventVersion) :
    Prop where
  eventUid : v.eventUid = e.eventUid
  mem_marketEvent : ∀ x, x ∈ t'.marketEvent ↔ x ∈ t.marketEvent ∨ x = e
  eventVersion : t'.eventVersion = t.eventVersion ++ [v]
  eventLog : t'.eventLog = t.eventLog ++ [(v, e)]
  projection : t'.currentEventProjection =
    upsert EventProjection.relatedKey (versionProjection (v, e)) t.currentEventProjection

section Appended

variable {t t' : AnalysisTables} {e : MarketEvent} {v : EventVersion}
  (happended : VersionAppended t t' e v)

include happended

theorem VersionAppended.versionsOf_self :
    t'.versionsOf e.eventUid = t.versionsOf e.eventUid ++ [v] := by
  rw [AnalysisTables.versionsOf, happended.eventVersion, ← happended.eventUid]
  exact entries_concat_self _ _ _

theorem VersionAppended.versionsOf_of_ne {uid : Uid} (h : uid ≠ e.eventUid) :
    t'.versionsOf uid = t.versionsOf uid := by
  rw [AnalysisTables.versionsOf, happended.eventVersion]
  exact entries_concat_of_ne (happended.eventUid ▸ h)

theorem VersionAppended.eventProjection (key : String) : t'.eventProjection key =
    if key = e.relatedKey then some (versionProjection (v, e)) else t.eventProjection key := by
  rw [AnalysisTables.eventProjection, happended.projection]
  exact lookupBy_upsert _ _ _ _

/-- The ledger is kept when the event lives on with the version and no other event of its
related key is open. -/
theorem VersionAppended.eventLedger (hledger : EventLedger t) (hreferences : EventReferences t')
    (hlife : Life (t.versionsOf e.eventUid ++ [v]))
    (hopen : ∀ p ∈ t.eventProjection e.relatedKey, ¬p.eventStatus.closed →
      p.eventUid = e.eventUid) : EventLedger t' := by
  have hmem : e ∈ t'.marketEvent := (happended.mem_marketEvent e).mpr (Or.inr rfl)
  have hsame : ∀ x ∈ t'.marketEvent, x.eventUid = e.eventUid → x = e := fun x hx heq =>
    List.inj_on_of_nodup_map hreferences.eventsUnique hx hmem heq
  have hold : ∀ x ∈ t'.marketEvent, x.eventUid ≠ e.eventUid → x ∈ t.marketEvent := by
    intro x hx hne
    rcases (happended.mem_marketEvent x).mp hx with hx | rfl
    · exact hx
    · exact absurd rfl hne
  refine ⟨hreferences, ?_, ?_, ?_, ?_, ?_⟩
  · rw [happended.projection]
    exact nodup_map_upsert hledger.projectionsUnique
  · rw [happended.projection, happended.eventLog]
    exact maintains_concat (e := (v, e)) hledger.projections fun _ => rfl
  · intro x hx
    by_cases huid : x.eventUid = e.eventUid
    · rw [hsame x hx huid, happended.versionsOf_self]
      exact hlife
    · rw [happended.versionsOf_of_ne huid]
      exact hledger.life x (hold x hx huid)
  · intro x hx vs w hvs hw
    rw [happended.eventProjection]
    by_cases huid : x.eventUid = e.eventUid
    · obtain rfl := hsame x hx huid
      rw [happended.versionsOf_self] at hvs
      obtain ⟨-, hv⟩ := List.append_inj' hvs rfl
      rw [if_pos rfl, List.singleton_inj.mp hv]
    · rw [happended.versionsOf_of_ne huid] at hvs
      have hprojection := hledger.openProjected x (hold x hx huid) vs w hvs hw
      have hwuid : w.eventUid = x.eventUid := by
        have hwmem : w ∈ t.versionsOf x.eventUid := by simp [hvs]
        exact (mem_entries.mp hwmem).2
      have hkey : x.relatedKey ≠ e.relatedKey := by
        intro hkey
        rw [hkey] at hprojection
        exact huid (hwuid ▸ hopen _ hprojection hw)
      rw [if_neg hkey, hprojection]
  · intro key p hp
    rw [happended.eventProjection] at hp
    by_cases hkey : key = e.relatedKey
    · rw [if_pos hkey] at hp
      exact ⟨e, hmem, _, v, happended.versionsOf_self, hkey.symm, (Option.some.inj hp).symm⟩
    · rw [if_neg hkey] at hp
      obtain ⟨x, hx, vs, w, hvs, hxkey, hpw⟩ := hledger.projected key p hp
      have hx' := (happended.mem_marketEvent x).mpr (Or.inl hx)
      have huid : x.eventUid ≠ e.eventUid := fun huid =>
        hkey (hxkey ▸ congrArg MarketEvent.relatedKey (hsame x hx' huid))
      exact ⟨x, hx', vs, w, by rw [happended.versionsOf_of_ne huid, hvs], hxkey, hpw⟩

end Appended

/-! ## Deciding an event -/

/-- The commit and its evaluation are there when the events are decided. -/
structure EventContext.Ready (ctx : EventContext) (t : AnalysisTables) : Prop where
  commit : ∃ c ∈ t.analysisCommit, c.commitUid = ctx.uids.commit
  subject : ∃ x ∈ t.stateEvaluation, x.subjectUid = ctx.snapshot.subjectUid

section Decided

variable {ctx : EventContext} {kind : EventKind} {change : EventChange} {t t' : AnalysisTables}

theorem EventDecided.of_change (h : EventDecided ctx kind t t')
    (hchange : ctx.nextChange kind t = some change) : EventWritten ctx kind change t t' := by
  rw [EventDecided, hchange] at h
  exact h

theorem EventDecided.of_no_change (h : EventDecided ctx kind t t')
    (hchange : ctx.nextChange kind t = none) : t' = t := by
  rw [EventDecided, hchange] at h
  exact h

/-- A written change keeps the references. -/
theorem EventWritten.references (h : EventWritten ctx kind change t t')
    (hreferences : EventReferences t) (hready : ctx.Ready t)
    (hevent : change.creates ∨ ∃ e ∈ t.marketEvent, e.eventUid = change.eventUid) :
    EventReferences t' := by
  have htables := h.tables
  refine ⟨?_, ?_, ?_, ?_, ?_, ?_, ?_⟩
  · rw [htables]
    by_cases hcreates : change.creates
    · rw [if_pos hcreates, List.map_append, List.nodup_append]
      refine ⟨hreferences.eventsUnique, List.nodup_singleton _, ?_⟩
      rintro uid huid uid' huid' rfl
      obtain ⟨e, he, rfl⟩ := List.mem_map.mp huid
      exact h.eventFresh hcreates e he (List.mem_singleton.mp huid')
    · rw [if_neg hcreates, List.append_nil]
      exact hreferences.eventsUnique
  · rw [htables, List.map_append, List.nodup_append]
    refine ⟨hreferences.versionsUnique, List.nodup_singleton _, ?_⟩
    rintro uid huid uid' huid' rfl
    obtain ⟨v, hv, rfl⟩ := List.mem_map.mp huid
    exact h.versionFresh v hv (List.mem_singleton.mp huid')
  · rw [htables]
    intro v hv
    rcases List.mem_append.mp hv with hv | hv
    · obtain ⟨e, he, heq⟩ := hreferences.eventOfVersion v hv
      exact ⟨e, List.mem_append_left _ he, heq⟩
    · obtain rfl := List.mem_singleton.mp hv
      rcases hevent with hcreates | ⟨e, he, heq⟩
      · rw [if_pos hcreates]
        exact ⟨_, List.mem_append_right _ (List.mem_singleton_self _), rfl⟩
      · exact ⟨e, List.mem_append_left _ he, heq⟩
  · rw [htables]
    intro e he
    rcases List.mem_append.mp he with he | he
    · exact hreferences.keyOfEvent e he
    · by_cases hcreates : change.creates
      · rw [if_pos hcreates, List.mem_singleton] at he
        rw [he]
        rfl
      · rw [if_neg hcreates] at he
        cases he
  · rw [htables]
    intro e he
    rcases List.mem_append.mp he with he | he
    · exact hreferences.subjectOfEvent e he
    · by_cases hcreates : change.creates
      · rw [if_pos hcreates, List.mem_singleton] at he
        rw [he]
        exact hready.subject
      · rw [if_neg hcreates] at he
        cases he
  · rw [htables]
    intro v hv
    rcases List.mem_append.mp hv with hv | hv
    · exact hreferences.commitOfVersion v hv
    · obtain rfl := List.mem_singleton.mp hv
      exact hready.commit
  · rw [htables]
    intro n hn
    rcases List.mem_append.mp hn with hn | hn
    · obtain ⟨v, hv, heq⟩ := hreferences.versionOfIntent n hn
      exact ⟨v, List.mem_append_left _ hv, heq⟩
    · obtain ⟨channel, -, rfl⟩ := List.mem_map.mp hn
      exact ⟨_, List.mem_append_right _ (List.mem_singleton_self _), rfl⟩

/-- A change that begins an event appends the first version of a new one. -/
theorem EventWritten.appended_of_creates (h : EventWritten ctx kind change t t')
    (hreferences : EventReferences t) (hreferences' : EventReferences t')
    (hcreates : change.creates) :
    VersionAppended t t' (ctx.eventRow kind change) (ctx.versionRow kind change) := by
  have hevents : t'.marketEvent = t.marketEvent ++ [ctx.eventRow kind change] := by
    rw [h.tables, if_pos hcreates]
  have hversions : t'.eventVersion = t.eventVersion ++ [ctx.versionRow kind change] := by
    rw [h.tables]
  refine ⟨rfl, ?_, hversions, ?_, ?_⟩
  · intro x
    rw [hevents, List.mem_append, List.mem_singleton]
  · have hunique := hreferences'.eventsUnique
    rw [AnalysisTables.eventLog, hversions]
    rw [hevents] at hunique ⊢
    rw [join_concat_left EventVersion.eventUid _ hunique
      (List.mem_append_right _ (List.mem_singleton_self _)) rfl, join_concat_right]
    · rfl
    · intro v hv heq
      obtain ⟨e, he, huid⟩ := hreferences.eventOfVersion v hv
      exact h.eventFresh hcreates e he (huid.trans heq)
  · rw [h.tables]
    rfl

/-- A change of an open event appends its next version. -/
theorem EventWritten.appended_of_open (h : EventWritten ctx kind change t t')
    (hreferences : EventReferences t) (hcreates : ¬change.creates) {e : MarketEvent}
    (he : e ∈ t.marketEvent) (huid : change.eventUid = e.eventUid)
    (hkey : e.relatedKey = ctx.key kind) :
    VersionAppended t t' e (ctx.versionRow kind change) := by
  have hevents : t'.marketEvent = t.marketEvent := by
    rw [h.tables, if_neg hcreates]
    exact List.append_nil _
  have hversions : t'.eventVersion = t.eventVersion ++ [ctx.versionRow kind change] := by
    rw [h.tables]
  refine ⟨huid, ?_, hversions, ?_, ?_⟩
  · intro x
    rw [hevents]
    constructor
    · exact Or.inl
    · rintro (hx | rfl)
      · exact hx
      · exact he
  · rw [AnalysisTables.eventLog, hversions, hevents]
    exact join_concat_left EventVersion.eventUid _ hreferences.eventsUnique he huid
  · rw [h.tables, versionProjection, hkey]
    rfl

/-- The event of a written change, whose version it appended. -/
theorem EventWritten.appended (h : EventWritten ctx kind change t t') (hledger : EventLedger t)
    (hchange : ctx.nextChange kind t = some change)
    (hready : ctx.Ready t) :
    EventLedger t' ∧ ∃ e, e.relatedKey = ctx.key kind ∧
      VersionAppended t t' e (ctx.versionRow kind change) := by
  obtain ⟨-, hclosed, hcreates, -, hversion, htype, hstatus⟩ |
    ⟨p, hp, hopen, hcreates, huid, hversion, hchange⟩ := eventChange_eq_some hchange
  · have hreferences := h.references hledger.references hready (Or.inl hcreates)
    have happended := h.appended_of_creates hledger.references hreferences hcreates
    have hnone : t.versionsOf change.eventUid = [] := by
      refine List.eq_nil_iff_forall_not_mem.mpr fun v hv => ?_
      obtain ⟨hv, hvuid⟩ := mem_entries.mp hv
      obtain ⟨e, he, heuid⟩ := hledger.references.eventOfVersion v hv
      exact h.eventFresh hcreates e he (heuid.trans hvuid)
    have hlife : Life (t.versionsOf change.eventUid ++ [ctx.versionRow kind change]) := by
      rw [hnone]
      exact .created _ hversion htype hstatus
    refine ⟨happended.eventLedger hledger hreferences hlife ?_, _, rfl, happended⟩
    intro p hp hopen
    exact absurd (hclosed p hp) hopen
  · obtain ⟨e, he, vs, w, hvs, hkey, rfl⟩ := hledger.projected _ p hp
    have hwuid : w.eventUid = e.eventUid := by
      have hwmem : w ∈ t.versionsOf e.eventUid := by simp [hvs]
      exact (mem_entries.mp hwmem).2
    have hreferences := h.references hledger.references hready
      (Or.inr ⟨e, he, (huid.trans hwuid).symm⟩)
    have happended := h.appended_of_open hledger.references hcreates he (huid.trans hwuid) hkey
    have hwlife := hledger.life e he
    rw [hvs] at hwlife
    have hlife : Life (t.versionsOf e.eventUid ++ [ctx.versionRow kind change]) := by
      rw [hvs]
      refine .next vs w _ hwlife (hwlife.last_active hopen) hversion ?_
      rcases hchange with ⟨-, hchange⟩ | ⟨-, hchange⟩
      · exact Or.inl hchange
      · exact Or.inr hchange
    refine ⟨happended.eventLedger hledger hreferences hlife ?_, e, hkey, happended⟩
    intro q hq _
    rw [hkey] at hq
    rw [← Option.some.inj (hp.symm.trans hq)]
    exact hwuid

/-- Deciding an event keeps the ledger. -/
theorem EventDecided.eventLedger (h : EventDecided ctx kind t t') (hledger : EventLedger t)
    (hready : ctx.Ready t) : EventLedger t' := by
  cases hchange : ctx.nextChange kind t with
  | none =>
    rw [h.of_no_change hchange]
    exact hledger
  | some change => exact ((h.of_change hchange).appended hledger hchange hready).1

/-- The event of the kind is active afterwards exactly when the kind is desired. -/
theorem EventDecided.active_iff (h : EventDecided ctx kind t t') :
    (t'.eventProjection (ctx.key kind)).map EventProjection.eventStatus = some .active ↔
      ctx.desired kind := by
  cases hchange : ctx.nextChange kind t with
  | none =>
    obtain ⟨hdesired, hclosed⟩ := eventChange_eq_none hchange
    rw [h.of_no_change hchange]
    refine iff_of_false ?_ hdesired
    intro hactive
    obtain ⟨p, hp, hstatus⟩ := Option.map_eq_some_iff.mp hactive
    have := hclosed p hp
    rw [hstatus] at this
    cases this
  | some change =>
    have hprojection : t'.eventProjection (ctx.key kind) =
        some (ctx.projectionRow kind change) := by
      rw [AnalysisTables.eventProjection, (h.of_change hchange).tables, lookupBy_upsert]
      exact if_pos rfl
    rw [hprojection]
    show some change.status = some .active ↔ _
    obtain ⟨hdesired, -, -, -, -, -, hstatus⟩ |
      ⟨p, -, -, -, -, -, ⟨hdesired, -, hstatus⟩ | ⟨hdesired, -, hstatus⟩⟩ :=
        eventChange_eq_some hchange
    · simp [hstatus, hdesired]
    · simp [hstatus, hdesired]
    · simp [hstatus, hdesired]

/-- The other related keys keep their projections. -/
theorem EventDecided.eventProjection_of_ne (h : EventDecided ctx kind t t') {key : String}
    (hkey : key ≠ ctx.key kind) : t'.eventProjection key = t.eventProjection key := by
  cases hchange : ctx.nextChange kind t with
  | none => rw [h.of_no_change hchange]
  | some change =>
    rw [AnalysisTables.eventProjection, (h.of_change hchange).tables]
    exact lookupBy_upsert_of_ne hkey

/-! ## The outbox of a version -/

/-- The channels of the intents of a version. -/
def AnalysisTables.channelsOf (t : AnalysisTables) (eventVersionUid : Uid) : List Channel :=
  (entries NotificationIntent.eventVersionUid eventVersionUid t.notificationIntent).map
    NotificationIntent.channel

/-- The intent waits for its delivery. -/
def AnalysisTables.Pending (t : AnalysisTables) (n : NotificationIntent) : Prop :=
  ∃ d ∈ t.notificationDeliveryState, d.intentUid = n.intentUid ∧ d.deliveryStatus = .pending

/-- What deciding an event adds to the versions and to the outbox. -/
structure OutboxExtended (ctx : EventContext) (t t' : AnalysisTables) : Prop where
  /-- A new version is one of the commit, of an event that was not over, with one intent for
  each channel. -/
  written : ∀ v ∈ t'.eventVersion, v ∈ t.eventVersion ∨
    v.analysisCommitUid = ctx.uids.commit ∧ t'.channelsOf v.eventVersionUid = ctx.channels ∧
    ∀ w ∈ t.eventVersion, w.eventUid = v.eventUid → w.eventStatus = .active
  kept : ∀ v ∈ t.eventVersion, v ∈ t'.eventVersion ∧
    t'.channelsOf v.eventVersionUid = t.channelsOf v.eventVersionUid
  /-- A new intent is pending, and of a new version. -/
  created : ∀ n ∈ t'.notificationIntent, n ∈ t.notificationIntent ∨
    t'.Pending n ∧ ∃ v ∈ t'.eventVersion, v ∉ t.eventVersion ∧
      v.eventVersionUid = n.eventVersionUid
  pending : ∀ n, t.Pending n → t'.Pending n

theorem OutboxExtended.refl (ctx : EventContext) (t : AnalysisTables) : OutboxExtended ctx t t :=
  ⟨fun _ hv => Or.inl hv, fun _ hv => ⟨hv, rfl⟩, fun _ hn => Or.inl hn, fun _ hn => hn⟩

/-- Extensions of the outbox compose. -/
theorem OutboxExtended.trans {t'' : AnalysisTables} (h : OutboxExtended ctx t t')
    (h' : OutboxExtended ctx t' t'') : OutboxExtended ctx t t'' := by
  refine ⟨?_, ?_, ?_, fun n hn => h'.pending n (h.pending n hn)⟩
  · intro v hv
    rcases h'.written v hv with hv | ⟨hcommit, hchannels, hactive⟩
    · rcases h.written v hv with hold | ⟨hcommit, hchannels, hactive⟩
      · exact Or.inl hold
      · exact Or.inr ⟨hcommit, (h'.kept v hv).2.trans hchannels, hactive⟩
    · exact Or.inr ⟨hcommit, hchannels, fun w hw => hactive w (h.kept w hw).1⟩
  · intro v hv
    obtain ⟨hv', hchannels⟩ := h.kept v hv
    obtain ⟨hv'', hchannels'⟩ := h'.kept v hv'
    exact ⟨hv'', hchannels'.trans hchannels⟩
  · intro n hn
    rcases h'.created n hn with hn | ⟨hpending, v, hv, hnew, huid⟩
    · rcases h.created n hn with hold | ⟨hpending, v, hv, hnew, huid⟩
      · exact Or.inl hold
      · exact Or.inr ⟨h'.pending n hpending, v, (h'.kept v hv).1, hnew, huid⟩
    · exact Or.inr ⟨hpending, v, hv, fun hold => hnew (h.kept v hold).1, huid⟩

/-- A new version is notified on the channels of its commit. -/
theorem EventWritten.channelsOf_self (h : EventWritten ctx kind change t t')
    (hreferences : EventReferences t) :
    t'.channelsOf (ctx.uids.eventVersion kind) = ctx.channels := by
  have hold : entries NotificationIntent.eventVersionUid (ctx.uids.eventVersion kind)
      t.notificationIntent = [] := by
    refine List.eq_nil_iff_forall_not_mem.mpr fun n hn => ?_
    obtain ⟨hn, huid⟩ := mem_entries.mp hn
    obtain ⟨v, hv, hvuid⟩ := hreferences.versionOfIntent n hn
    exact h.versionFresh v hv (hvuid.trans huid)
  rw [AnalysisTables.channelsOf, h.tables, entries, List.filter_append, ← entries, hold,
    List.nil_append, List.filter_eq_self.mpr]
  · rw [List.map_map]
    exact List.map_id _
  · intro n hn
    obtain ⟨channel, -, rfl⟩ := List.mem_map.mp hn
    exact decide_eq_true rfl

/-- The channels of an old version stay. -/
theorem EventWritten.channelsOf_old (h : EventWritten ctx kind change t t') {v : EventVersion}
    (hv : v ∈ t.eventVersion) :
    t'.channelsOf v.eventVersionUid = t.channelsOf v.eventVersionUid := by
  have hnew : entries NotificationIntent.eventVersionUid v.eventVersionUid
      (ctx.channels.map (ctx.intentRow kind change)) = [] := by
    refine List.eq_nil_iff_forall_not_mem.mpr fun n hn => ?_
    obtain ⟨hn, huid⟩ := mem_entries.mp hn
    obtain ⟨channel, -, rfl⟩ := List.mem_map.mp hn
    exact h.versionFresh v hv huid.symm
  rw [AnalysisTables.channelsOf, h.tables, entries, List.filter_append, ← entries, ← entries, hnew,
    List.append_nil, AnalysisTables.channelsOf]

/-- Deciding an event adds a version with its intents, or nothing. -/
theorem EventDecided.outbox (h : EventDecided ctx kind t t') (hledger : EventLedger t)
    (hready : ctx.Ready t) :
    OutboxExtended ctx t t' := by
  cases hchange : ctx.nextChange kind t with
  | none =>
    rw [h.of_no_change hchange]
    exact .refl ctx t
  | some change =>
    have hwritten := h.of_change hchange
    obtain ⟨hledger', e, -, happended⟩ := hwritten.appended hledger hchange hready
    refine ⟨?_, ?_, ?_, ?_⟩
    · intro v hv
      rw [happended.eventVersion, List.mem_append, List.mem_singleton] at hv
      rcases hv with hv | rfl
      · exact Or.inl hv
      · refine Or.inr ⟨rfl, hwritten.channelsOf_self hledger.references, fun w hw huid => ?_⟩
        have hlife := hledger'.life e ((happended.mem_marketEvent e).mpr (Or.inr rfl))
        rw [happended.versionsOf_self] at hlife
        refine hlife.active_of_mem_dropLast w ?_
        rw [List.dropLast_concat]
        exact mem_entries.mpr ⟨hw, huid.trans happended.eventUid⟩
    · intro v hv
      refine ⟨?_, hwritten.channelsOf_old hv⟩
      rw [happended.eventVersion]
      exact List.mem_append_left _ hv
    · intro n hn
      rw [hwritten.tables] at hn
      rcases List.mem_append.mp hn with hn | hn
      · exact Or.inl hn
      · obtain ⟨channel, hchannel, rfl⟩ := List.mem_map.mp hn
        refine Or.inr ⟨⟨ctx.deliveryRow kind channel, ?_, rfl, rfl⟩, ctx.versionRow kind change,
          ?_, ?_, rfl⟩
        · rw [hwritten.tables]
          exact List.mem_append_right _ (List.mem_map_of_mem hchannel)
        · rw [happended.eventVersion]
          exact List.mem_append_right _ (List.mem_singleton_self _)
        · exact fun hold => hwritten.versionFresh _ hold rfl
    · rintro n ⟨d, hd, hrest⟩
      refine ⟨d, ?_, hrest⟩
      rw [hwritten.tables]
      exact List.mem_append_left _ hd

end Decided

/-! ## Runs -/

/-- The tables of the events are the same, and no commit or evaluation is lost. -/
structure SameEvents (t t' : AnalysisTables) : Prop where
  marketEvent : t'.marketEvent = t.marketEvent
  eventVersion : t'.eventVersion = t.eventVersion
  currentEventProjection : t'.currentEventProjection = t.currentEventProjection
  notificationIntent : t'.notificationIntent = t.notificationIntent
  analysisCommit : ∀ c ∈ t.analysisCommit, c ∈ t'.analysisCommit
  stateEvaluation : ∀ x ∈ t.stateEvaluation, x ∈ t'.stateEvaluation

/-- The ledger of the events holds while their tables stay. -/
theorem SameEvents.eventLedger {t t' : AnalysisTables} (h : SameEvents t t')
    (hledger : EventLedger t) : EventLedger t' := by
  have hversions : t'.versionsOf = t.versionsOf := by
    funext uid
    rw [AnalysisTables.versionsOf, h.eventVersion, AnalysisTables.versionsOf]
  have hprojection : t'.eventProjection = t.eventProjection := by
    funext key
    rw [AnalysisTables.eventProjection, h.currentEventProjection, AnalysisTables.eventProjection]
  have hlog : t'.eventLog = t.eventLog := by
    rw [AnalysisTables.eventLog, h.eventVersion, h.marketEvent, AnalysisTables.eventLog]
  obtain ⟨⟨heventsUnique, hversionsUnique, heventOf, hkeyOf, hsubjectOf, hcommitOf, hversionOf⟩,
    hprojectionsUnique, hprojections, hlife, hopen, hprojected⟩ := hledger
  rw [← h.marketEvent] at heventsUnique heventOf hkeyOf hsubjectOf hlife hopen hprojected
  rw [← h.eventVersion] at hversionsUnique heventOf hcommitOf hversionOf
  rw [← h.notificationIntent] at hversionOf
  rw [← h.currentEventProjection] at hprojectionsUnique hprojections
  rw [← hversions] at hlife hopen hprojected
  rw [← hprojection] at hopen hprojected
  rw [← hlog] at hprojections
  refine ⟨⟨heventsUnique, hversionsUnique, heventOf, hkeyOf, ?_, ?_, hversionOf⟩,
    hprojectionsUnique, hprojections, hlife, hopen, hprojected⟩
  · intro e he
    obtain ⟨x, hx, hsubject⟩ := hsubjectOf e he
    exact ⟨x, h.stateEvaluation x hx, hsubject⟩
  · intro v hv
    obtain ⟨c, hc, huid⟩ := hcommitOf v hv
    exact ⟨c, h.analysisCommit c hc, huid⟩

/-- It holds of the empty tables. -/
theorem eventLedger_empty : EventLedger .empty where
  references := by
    refine ⟨List.nodup_nil, List.nodup_nil, ?_, ?_, ?_, ?_, ?_⟩ <;> rintro x hx <;> cases hx
  projectionsUnique := List.nodup_nil
  projections := maintains_nil
  life := by
    rintro e he
    cases he
  openProjected := by
    rintro e he
    cases he
  projected := by
    rintro key p hp
    cases hp

section Commit

variable {db : Database} {uids : CommitUids} {request : AnalysisCommitRequest}
  {verified : VerifiedRequest} {result : AnalysisCommitResult} {t : AnalysisTables}
  (course : CommitCourse db uids request verified result t)

theorem CommitCourse.sameEvents_before : SameEvents t course.beforeEvents := by
  rw [course.beforeEvents_eq]
  exact ⟨rfl, rfl, rfl, rfl, fun _ hc => List.mem_append_left _ hc,
    fun _ hx => List.mem_append_left _ hx⟩

theorem CommitCourse.sameEvents_after : SameEvents course.afterWatch course.after :=
  ⟨rfl, rfl, rfl, rfl, fun _ hc => hc, fun _ hx => hx⟩

theorem CommitCourse.ready_beforeEvents : course.context.Ready course.beforeEvents := by
  rw [course.beforeEvents_eq]
  exact ⟨⟨_, List.mem_append_right _ (List.mem_singleton_self _), rfl⟩,
    ⟨_, List.mem_append_right _ (List.mem_singleton_self _), rfl⟩⟩

theorem CommitCourse.ready_afterRisk : course.context.Ready course.afterRisk := by
  rw [course.riskDecided.sameEvaluations]
  exact ⟨course.ready_beforeEvents.commit, course.ready_beforeEvents.subject⟩

/-- A commit keeps the ledger of the events. -/
theorem CommitCourse.eventLedger (hledger : EventLedger t) : EventLedger course.after := by
  have hbefore := course.sameEvents_before.eventLedger hledger
  have hrisk := course.riskDecided.eventLedger hbefore course.ready_beforeEvents
  have hwatch := course.watchDecided.eventLedger hrisk course.ready_afterRisk
  exact course.sameEvents_after.eventLedger hwatch

/-- What a commit adds to the versions and to the outbox. -/
theorem CommitCourse.outbox (hledger : EventLedger t) :
    OutboxExtended course.context t course.after := by
  have hbefore := course.sameEvents_before.eventLedger hledger
  have hrisk := course.riskDecided.eventLedger hbefore course.ready_beforeEvents
  have hrisk' := course.riskDecided.outbox hbefore course.ready_beforeEvents
  have hwatch' := course.watchDecided.outbox hrisk course.ready_afterRisk
  have hstart : OutboxExtended course.context t course.beforeEvents := by
    rw [course.beforeEvents_eq]
    exact ⟨fun _ hv => Or.inl hv, fun _ hv => ⟨hv, rfl⟩, fun _ hn => Or.inl hn, fun _ hn => hn⟩
  have hend : OutboxExtended course.context course.afterWatch course.after :=
    ⟨fun _ hv => Or.inl hv, fun _ hv => ⟨hv, rfl⟩, fun _ hn => Or.inl hn, fun _ hn => hn⟩
  exact ((hstart.trans hrisk').trans hwatch').trans hend

/-- The event of a kind about a subject is active. -/
def AnalysisTables.Active (t : AnalysisTables) (subjectUid : Uid) (kind : EventKind) : Prop :=
  (t.eventProjection (relatedKey subjectUid kind)).map EventProjection.eventStatus = some .active

/-- After a commit the risk event is active exactly when the Guardian does not allow. -/
theorem CommitCourse.risk_active_iff
    (hkeys : relatedKey course.snapshot.subjectUid .guardianRisk ≠
      relatedKey course.snapshot.subjectUid .scoutWatch) :
    course.after.Active course.snapshot.subjectUid .guardianRisk ↔
      course.guardian.effect ≠ .allow := by
  have hkept : course.afterWatch.eventProjection (course.context.key .guardianRisk) =
      course.afterRisk.eventProjection (course.context.key .guardianRisk) :=
    course.watchDecided.eventProjection_of_ne hkeys
  have hrisk : (course.afterRisk.eventProjection (course.context.key .guardianRisk)).map
      EventProjection.eventStatus = some .active ↔ course.context.desired .guardianRisk :=
    course.riskDecided.active_iff
  rw [← hkept] at hrisk
  exact hrisk.trans decide_eq_true_iff

theorem CommitCourse.watch_active_iff :
    course.after.Active course.snapshot.subjectUid .scoutWatch ↔
      course.scout.status = .active ∧ course.guardian.effect ≠ .suppress ∧
        course.guardian.effect ≠ .pause := by
  have hsuppressed : course.scout.suppressed = course.guardian.effect.blocks := by
    rw [course.scoutInserted.findings_eq]
    rfl
  refine (course.watchDecided.active_iff).trans ?_
  simp only [EventContext.desired, eventContext, hsuppressed]
  cases course.guardian.effect <;> simp [GuardianEffect.blocks]

end Commit

theorem EventLedger.of_unrelated {db db' : Database} (h : Unrelated db db')
    (hledger : EventLedger db.analysis) : EventLedger db'.analysis := by
  refine SameEvents.eventLedger ?_ hledger
  rw [h.ledger]
  exact ⟨rfl, rfl, rfl, rfl, fun _ hc => hc, fun _ hx => hx⟩

theorem Reachable.eventLedger {allowed : Database → AnalysisCommitRequest → Prop} {db : Database}
    (h : Reachable allowed db) : EventLedger db.analysis := by
  refine (h.induction (P := fun db => EventLedger db.analysis) ?_ (fun _ _ => .of_unrelated) ?_).1
  · intro db hdb
    rw [hdb]
    exact eventLedger_empty
  · intro db files uids request verified result course _ _ _ hledger
    exact course.eventLedger hledger

/-! ## The state machine -/

/-- The events of a database : each lives from its creation to at most one resolution, at
most one of a related key is open, and the projection is the last version. -/
structure EventMachine (t : AnalysisTables) : Prop where
  versions : ∀ e ∈ t.marketEvent, t.versionsOf e.eventUid ≠ [] ∧
    (t.versionsOf e.eventUid).map EventVersion.version =
      List.range' 1 (t.versionsOf e.eventUid).length
  created : ∀ e ∈ t.marketEvent, ∃ v rest, t.versionsOf e.eventUid = v :: rest ∧
    v.changeType = .created ∧ ∀ w ∈ rest, w.changeType ≠ .created
  resolved : ∀ e ∈ t.marketEvent, ∀ v ∈ (t.versionsOf e.eventUid).dropLast,
    v.eventStatus = .active
  oneOpen : ∀ e ∈ t.marketEvent, ∀ e' ∈ t.marketEvent, e.relatedKey = e'.relatedKey →
    (∀ v ∈ (t.versionsOf e.eventUid).getLast?, ¬v.eventStatus.closed) →
    (∀ v ∈ (t.versionsOf e'.eventUid).getLast?, ¬v.eventStatus.closed) → e = e'
  projected : ∀ key, t.eventProjection key =
    (entries versionKey key t.eventLog).getLast?.map versionProjection

/-- The versions of a ledger are runs of the event machine. -/
theorem EventLedger.eventMachine {t : AnalysisTables} (h : EventLedger t) : EventMachine t := by
  refine ⟨?_, ?_, ?_, ?_, ?_⟩
  · intro e he
    refine ⟨?_, (h.life e he).versions⟩
    obtain ⟨vs, v, hvs⟩ := (h.life e he).exists_last
    rw [hvs]
    exact List.concat_ne_nil _ _
  · exact fun e he => (h.life e he).head_created
  · exact fun e he => (h.life e he).active_of_mem_dropLast
  · intro e he e' he' hkey hopen hopen'
    obtain ⟨vs, v, hvs⟩ := (h.life e he).exists_last
    obtain ⟨vs', v', hvs'⟩ := (h.life e' he').exists_last
    have hproj := h.openProjected e he vs v hvs (hopen v (by simp [hvs]))
    have hproj' := h.openProjected e' he' vs' v' hvs' (hopen' v' (by simp [hvs']))
    rw [hkey] at hproj
    have hrow := Option.some.inj (hproj.symm.trans hproj')
    have hv : v ∈ t.versionsOf e.eventUid := by simp [hvs]
    have hv' : v' ∈ t.versionsOf e'.eventUid := by simp [hvs']
    have huid : e.eventUid = e'.eventUid := by
      rw [← (mem_entries.mp hv).2, ← (mem_entries.mp hv').2]
      exact congrArg EventProjection.eventUid hrow
    exact List.inj_on_of_nodup_map h.references.eventsUnique he he' huid
  · intro key
    exact (h.projections key).trans view_of_last

/-- What a new commit does to the events of its subject and to the outbox. -/
structure CommitEvents (db db' : Database) (request : AnalysisCommitRequest)
    (result : AnalysisCommitResult) : Prop where
  /-- The active events are those its Guardian and its Scout call for. -/
  active : ∃ g ∈ db'.analysis.guardianEvaluation, ∃ s ∈ db'.analysis.scoutEvaluation,
    g.guardianUid = result.guardianUid ∧ s.scoutUid = result.scoutUid ∧
    g.snapshotUid = request.snapshotUid ∧
    (db'.analysis.Active g.subjectUid .guardianRisk ↔ g.guardianEffect ≠ .allow) ∧
    (db'.analysis.Active g.subjectUid .scoutWatch ↔ s.scoutStatus = .active ∧
      g.guardianEffect ≠ .suppress ∧ g.guardianEffect ≠ .pause)
  /-- Each new version has one intent for each requested channel. -/
  written : ∀ v ∈ db'.analysis.eventVersion, v.analysisCommitUid = result.commitUid →
    (db'.analysis.channelsOf v.eventVersionUid).Nodup ∧
    (∀ channel, channel ∈ db'.analysis.channelsOf v.eventVersionUid ↔
      channel.text ∈ request.channels) ∧
    ∀ w ∈ db.analysis.eventVersion, w.eventUid = v.eventUid → w.eventStatus = .active
  /-- The new intents are pending, and of the new versions only. -/
  intents : ∀ n ∈ db'.analysis.notificationIntent, n ∈ db.analysis.notificationIntent ∨
    db'.analysis.Pending n ∧ ∃ v ∈ db'.analysis.eventVersion,
      v.analysisCommitUid = result.commitUid ∧ v.eventVersionUid = n.eventVersionUid

/-- What a commit does to the events of its subject. -/
theorem CommitCourse.commitEvents {db : Database} {files : ArtifactFiles} {uids : CommitUids}
    {request : AnalysisCommitRequest} {verified : VerifiedRequest}
    {result : AnalysisCommitResult}
    (course : CommitCourse db uids request verified result db.analysis)
    (hverify : verifyRequest db files request = .ok verified)
    (hledger : EventLedger db.analysis)
    (hkeys : relatedKey course.snapshot.subjectUid .guardianRisk ≠
      relatedKey course.snapshot.subjectUid .scoutWatch) :
    CommitEvents db { db with analysis := course.after } request result := by
  obtain ⟨hnodup, hchannels⟩ := channels_of_validateRequest (verifyRequest_eq_ok.mp hverify).1
  have houtbox := course.outbox hledger
  refine ⟨?_, ?_, ?_⟩
  · exact ⟨_, course.mem_guardianEvaluation, _, course.mem_scoutEvaluation,
      course.result_guardianUid.symm, course.result_scoutUid.symm, rfl,
      course.risk_active_iff hkeys, course.watch_active_iff⟩
  · intro v hv hcommit
    rw [course.result_commitUid] at hcommit
    rcases houtbox.written v hv with hold | ⟨-, hwritten, hactive⟩
    · obtain ⟨c, hc, huid⟩ := hledger.references.commitOfVersion v hold
      exact absurd (huid.trans hcommit) (course.commitFresh c hc).1
    · have hrequested : course.after.channelsOf v.eventVersionUid = verified.channels := hwritten
      simp only [hrequested]
      exact ⟨hnodup, hchannels, hactive⟩
  · intro n hn
    rcases houtbox.created n hn with hold | ⟨hpending, v, hv, hnew, huid⟩
    · exact Or.inl hold
    · refine Or.inr ⟨hpending, v, hv, ?_, huid⟩
      rcases houtbox.written v hv with hold | ⟨hcommit, -⟩
      · exact absurd hold hnew
      · exact hcommit.trans course.result_commitUid.symm

/-- After any run of commit attempts the events are well formed, and a new commit of a
snapshot activates the events its Guardian and its Scout call for, with one pending intent
for each new version and requested channel, and no other. -/
theorem event_machine_and_outbox {db : Database} (h : Reachable anyRequest db) :
    EventMachine db.analysis ∧
    ∀ files uids request result db' subjectUid,
      (commit files uids request).run db = .ok result db' →
      existingCommit db.analysis request.snapshotUid = none →
      (db.snapshot request.snapshotUid).map EvaluationSnapshot.subjectUid = some subjectUid →
      relatedKey subjectUid .guardianRisk ≠ relatedKey subjectUid .scoutWatch →
      EventMachine db'.analysis ∧ CommitEvents db db' request result := by
  have hledger := h.eventLedger
  refine ⟨hledger.eventMachine, ?_⟩
  intro files uids request result db' subjectUid hrun hnew hsubject hkeys
  obtain ⟨e, hcase⟩ | ⟨verified, result', -, -, hexisting⟩ |
    ⟨verified, result', t', hcase, hverify, -, course, rfl⟩ :=
      commit_cases files uids request h.projectionsUnique
  · rw [hcase] at hrun
    cases hrun
  · rw [hnew] at hexisting
    cases hexisting
  · rw [hcase] at hrun
    obtain ⟨rfl, rfl⟩ := EStateM.Result.ok.inj hrun
    obtain ⟨-, row, hrow, -, hrowSubject, -⟩ := commitSnapshot_ok course.snapshot_eq
    rw [hrow, Option.map_some, hrowSubject] at hsubject
    obtain rfl := Option.some.inj hsubject
    exact ⟨(course.eventLedger hledger).eventMachine, course.commitEvents hverify hledger hkeys⟩

/-- The third commit of the scenes activates a second event for the risk that came back, with a
pending intent for its version. -/
theorem event_machine_recurringDatabase : ∃ result,
    (commit thirdScene.files (sampleUidsOf thirdScene.snapshot) (thirdScene.request 2)).run
      (recurringAt secondTables) = .ok result recurringDatabase ∧
    EventMachine recurringDatabase.analysis ∧
    CommitEvents (recurringAt secondTables) recurringDatabase (thirdScene.request 2) result ∧
    recurringDatabase.analysis.eventVersion.map EventVersion.eventStatus =
      [.active, .resolved, .active] ∧
    recurringDatabase.analysis.notificationDeliveryState.map
      NotificationDeliveryState.deliveryStatus = [.pending, .pending, .pending] := by
  obtain ⟨hexisting, result, hrun⟩ := commit_thirdScene
  obtain ⟨hmachine, hevents⟩ := (event_machine_and_outbox reachable_recurring.1).2 _ _ _ _ _
    "sector" hrun hexisting rfl relatedKey_sector_ne
  exact ⟨result, hrun, hmachine, hevents, recurringStages_eq.2.2.2.versions,
    recurringStages_eq.2.2.2.deliveries⟩

end MarketMonitor
