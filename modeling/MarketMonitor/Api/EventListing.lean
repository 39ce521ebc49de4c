import MarketMonitor.Api.EventLookup
import MarketMonitor.Api.PaginationSpec

/-!
# The listing of the events of a run

What the schema leaves open for `events` holds in every database that commits reach : each
event is projected once, and its context is found. So the listing is complete there, and it
shows the events that `event` finds, each as `event` shows it but for its `created_at`.
-/

namespace MarketMonitor

open Transaction
open Keyset (Complete length_filter_le_one length_flatMap_le_one nodup_map_flatMap nodup_map_of_imp)

section Reachable

variable {db : Database}

/-- An event has one projection : the one of its related key. -/
theorem EventTables.nodup_projected (h : EventTables db) :
    (db.analysis.currentEventProjection.map EventProjection.eventUid).Nodup := by
  refine nodup_map_of_imp h.ledger.projectionsUnique fun p hp p' hp' huid => ?_
  obtain ⟨e, he, vs, v, hvs, hkey, heq⟩ :=
    h.ledger.projected p.relatedKey p (Keyed.lookupBy_of_mem h.ledger.projectionsUnique hp)
  have heid : p.eventUid = e.eventUid := by
    have hmem : v ∈ db.analysis.versionsOf e.eventUid := by simp [hvs]
    rw [heq]
    exact (View.mem_entries.mp hmem).2
  have hself := (h.last_of_projection he
    (Keyed.lookupBy_of_mem h.ledger.projectionsUnique hp) heid).1
  have hother := (h.last_of_projection he
    (Keyed.lookupBy_of_mem h.ledger.projectionsUnique hp') (huid.symm.trans heid)).1
  exact hself.symm.trans hother

/-- A projection is of the last version of its event, which has a number from one on. -/
theorem EventTables.projection_pos (h : EventTables db) {p : EventProjection}
    (hp : p ∈ db.analysis.currentEventProjection) : 1 ≤ p.version := by
  obtain ⟨e, he, vs, v, hvs, -, rfl⟩ :=
    h.ledger.projected p.relatedKey p (Keyed.lookupBy_of_mem h.ledger.projectionsUnique hp)
  have hversions := (h.ledger.life e he).versions
  rw [hvs, List.map_append, List.length_append, List.length_singleton,
    List.range'_concat] at hversions
  have hlast := (List.append_inj' hversions rfl).2
  simp only [List.map_singleton, List.singleton_inj] at hlast
  change 1 ≤ v.version
  omega

end Reachable

/-- The rows of one event are those of the listing. -/
theorem mem_eventRows_of_event {t : ApiTables} {uid : Uid}
    {row : MarketEvent × EventProjection × EventVersion} :
    row ∈ t.database.eventRows uid ↔ row ∈ t.eventRows ∧ row.1.eventUid = uid := by
  rw [ApiTables.mem_eventRows]
  simp only [Database.eventRows, List.mem_flatMap, List.mem_map, List.mem_filter,
    decide_eq_true_eq]
  constructor
  · rintro ⟨e, ⟨he, huid⟩, p, ⟨hp, hpuid⟩, v, ⟨hv, hversion⟩, rfl⟩
    exact ⟨⟨⟨he, hp, hv⟩, hpuid.symm, hversion⟩, huid⟩
  · rintro ⟨⟨⟨he, hp, hv⟩, hpuid, hversion⟩, huid⟩
    exact ⟨row.1, ⟨he, huid⟩, row.2.1, ⟨hp, hpuid.symm⟩, row.2.2, ⟨hv, hversion⟩, rfl⟩

theorem EventTables.length_eventRows {db : Database} (h : EventTables db) (uid : Uid) :
    (db.eventRows uid).length ≤ 1 := by
  refine length_flatMap_le_one (length_filter_le_one h.ledger.references.eventsUnique
    fun e _ e' _ he he' => (of_decide_eq_true he).trans (of_decide_eq_true he').symm) fun e _ => ?_
  refine length_flatMap_le_one (length_filter_le_one h.nodup_projected
    fun p _ p' _ hp hp' => (of_decide_eq_true hp).trans (of_decide_eq_true hp').symm) fun p _ => ?_
  rw [List.length_map]
  exact length_filter_le_one h.ledger.references.versionsUnique
    fun v _ v' _ hv hv' => (of_decide_eq_true hv).trans (of_decide_eq_true hv').symm

/-- `event` finds an event through a row of the listing, and only so. -/
theorem EventTables.event_eq_ok_iff {t : ApiTables} (h : EventTables t.database) {uid : Uid}
    {view : EventSummaryView} :
    (t.database.event uid).map EventDetail.toEventSummaryView = .ok view ↔
      ∃ row ∈ t.eventRows, row.1.eventUid = uid ∧ t.eventItem row = .ok view := by
  have hsame : ∀ (createdAt : Instant) (summary : Except ApiError EventSummaryView),
      (summary.map fun summary => EventDetail.mk summary createdAt).map
        EventDetail.toEventSummaryView = summary := by
    intro createdAt summary
    cases summary <;> rfl
  have hone := h.length_eventRows uid
  have hmem : ∀ row, row ∈ t.database.eventRows uid ↔ row ∈ t.eventRows ∧ row.1.eventUid = uid :=
    fun _ => mem_eventRows_of_event
  unfold Database.event
  generalize t.database.eventRows uid = rows at hone hmem
  rcases rows with _ | ⟨row, _ | ⟨row', rows⟩⟩
  · constructor
    · intro hview
      cases hview
    · rintro ⟨row, hrow, huid, -⟩
      exact absurd ((hmem row).mpr ⟨hrow, huid⟩) List.not_mem_nil
  · constructor
    · intro hview
      obtain ⟨hrow, huid⟩ := (hmem row).mp (List.mem_singleton_self row)
      exact ⟨row, hrow, huid, except_mapError_eq_ok.mpr ((hsame _ _).symm.trans hview)⟩
    · rintro ⟨row', hrow', huid, hview⟩
      obtain rfl := List.mem_singleton.mp ((hmem row').mpr ⟨hrow', huid⟩)
      exact (hsame _ _).trans (except_mapError_eq_ok.mp hview)
  · simp at hone

end MarketMonitor
