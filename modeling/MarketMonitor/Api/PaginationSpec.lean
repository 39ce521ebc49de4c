import MarketMonitor.Api.Pagination

/-!
# Complete listings

Following the pages of each listing shows its rows once, in the order of their keys. The key
of a listing is unique by the primary keys of its tables and the newest rows of its joins, and
the cursor of an item reads back as the key of its row.
-/

namespace MarketMonitor

open Transaction
open Keyset (Page Complete Follows nodup_map_flatMap length_filter_le_one
  length_flatMap_le_one nodup_map_of_imp)

/-! ## Pages of rows -/

section Pages

variable {ρ ι κ : Type} [LinearOrder κ]

theorem mapM_ok {f : ρ → Except ListingError ι} {g : ρ → ι} {rows : List ρ}
    (h : ∀ r ∈ rows, f r = .ok (g r)) : rows.mapM f = .ok (rows.map g) := by
  induction rows with
  | nil => rfl
  | cons r rows ih =>
    rw [List.mapM_cons, h r List.mem_cons_self,
      ih fun r' hr' => h r' (List.mem_cons_of_mem r hr')]
    rfl

/-- The items of a listing that has no error. -/
theorem map_eq_of_mapM {f : ρ → Except ListingError ι} {rows : List ρ} {items : List ι}
    (h : rows.mapM f = .ok items) : rows.map f = items.map .ok := by
  induction rows generalizing items with
  | nil =>
    cases h
    rfl
  | cons r rows ih =>
    rw [List.mapM_cons] at h
    cases hr : f r with
    | error e =>
      rw [hr] at h
      cases h
    | ok i =>
      cases hrows : rows.mapM f with
      | error e =>
        rw [hr, hrows] at h
        cases h
      | ok rest =>
        rw [hr, hrows] at h
        cases h
        rw [List.map_cons, List.map_cons, hr, ih hrows]

variable {rows : List ρ} {key : ρ → κ} {past : String × String → κ}
  {item : ρ → Except ListingError ι} {sortKey uidKey : ι → String} {limit : ℕ}

/-- A listing whose rows have unique keys past the start, and can be shown, is complete. -/
theorem complete_listing (shown : ρ → ι) (hitem : ∀ r ∈ rows, item r = .ok (shown r))
    (hkey : ∀ r ∈ rows, past (sortKey (shown r), uidKey (shown r)) = key r)
    (hkeys : (rows.map key).Nodup) (hstart : ∀ r ∈ rows, past ("", "") < key r)
    (hlimit : 1 ≤ limit) :
    Complete (fun cursor => listing rows key past item sortKey uidKey cursor limit)
      (fun i => past (sortKey i, uidKey i)) (rows.map shown) := by
  have hpage : ∀ after, (Keyset.fetch key rows after (limit + 1)).mapM item =
      .ok (Keyset.fetch (fun i => past (sortKey i, uidKey i)) (rows.map shown) after
        (limit + 1)) := by
    intro after
    rw [← Keyset.map_fetch (fun i => past (sortKey i, uidKey i)) hkey]
    refine mapM_ok fun r hr => hitem r ?_
    exact List.mem_of_mem_filter (Keyset.mem_ordered.mp (List.mem_of_mem_take hr))
  have hget : ∀ cursor after, startAfter cursor = .ok after →
      listing rows key past item sortKey uidKey cursor limit =
        .ok (Keyset.page (fun i => past (sortKey i, uidKey i))
          (fun i => encodeCursor (sortKey i) (uidKey i)) (rows.map shown) limit (past after)) := by
    intro cursor after hafter
    rw [listing, hafter]
    change (do
      let items ← (Keyset.fetch key rows (past after) (limit + 1)).mapM item
      return pageOf items sortKey uidKey limit) = _
    rw [hpage]
    rfl
  refine Keyset.complete_of_page ?_ hlimit ?_ (hget none ("", "") rfl) ?_
  · rw [List.map_map]
    exact (List.map_congr_left hkey) ▸ hkeys
  · intro i hi
    obtain ⟨r, hr, rfl⟩ := List.mem_map.mp hi
    exact (hkey r hr).symm ▸ hstart r hr
  · intro i _
    have hread : startAfter (some (encodeCursor (sortKey i) (uidKey i))) =
        .ok (sortKey i, uidKey i) := decodeCursor_encodeCursor (sortKey i) (uidKey i)
    exact hget (some (encodeCursor (sortKey i) (uidKey i))) (sortKey i, uidKey i) hread

/-- The same of a listing whose items are read from other tables. -/
theorem complete_listing_of_items (hitem : ∀ r ∈ rows, ∃ i, item r = .ok i)
    (hkey : ∀ r i, item r = .ok i → past (sortKey i, uidKey i) = key r)
    (hkeys : (rows.map key).Nodup) (hstart : ∀ r ∈ rows, past ("", "") < key r)
    (hlimit : 1 ≤ limit) :
    ∃ items, rows.mapM item = .ok items ∧
      Complete (fun cursor => listing rows key past item sortKey uidKey cursor limit)
        (fun i => past (sortKey i, uidKey i)) items := by
  rcases rows.eq_nil_or_concat with rfl | ⟨_, r, rfl⟩
  · have hempty : listing [] key past item sortKey uidKey none limit = .ok ⟨[], none⟩ := by
      change Except.ok (pageOf [] sortKey uidKey limit) = _
      rw [pageOf, List.length_nil, if_neg (Nat.not_lt_zero limit), List.take_nil]
    exact ⟨[], rfl, [[]], .last hempty, .refl _, .nil⟩
  · obtain ⟨i, -⟩ := hitem r (by simp)
    have : Nonempty ι := ⟨i⟩
    choose! shown hshown using hitem
    exact ⟨_, mapM_ok hshown, complete_listing shown hshown
      (fun r hr => hkey r _ (hshown r hr)) hkeys hstart hlimit⟩

end Pages

/-! ## Keys -/

theorem empty_lt {s : String} (h : s ≠ "") : "" < s := by
  rw [String.lt_iff_toList_lt, String.toList_empty]
  cases hs : s.toList with
  | nil => exact absurd (String.toList_eq_nil_iff.mp hs) h
  | cons c cs => exact List.nil_lt_cons c cs

theorem formatRfc3339_ne_empty (t : Instant) : formatRfc3339 t ≠ "" := by
  rw [formatRfc3339, Ne, ← String.toList_eq_nil_iff, String.toList_ofList]
  simp

/-- The columns of a row come after the start. -/
theorem start_lt_columns (time : Instant) (uid : Uid) :
    toLex (("", "") : String × String) < columns time uid :=
  Prod.Lex.toLex_lt_toLex.mpr (.inl (empty_lt (formatRfc3339_ne_empty time)))

/-- Rows with unique identifiers have unique columns. -/
theorem nodup_columns {ρ : Type} {rows : List ρ} {time : ρ → Instant} {uid : ρ → Uid}
    (h : (rows.map uid).Nodup) : (rows.map fun r => columns (time r) (uid r)).Nodup :=
  nodup_map_of_imp h fun _ _ _ _ heq => (Prod.ext_iff.mp (toLex.injective heq)).2

/-- The primary keys and unique indexes of the tables, and their `CHECK` of a version. -/
structure ApiTables.Keys (t : ApiTables) : Prop where
  instrument : (t.instrument.map Instrument.instrumentUid).Nodup
  identityVersion : (t.instrumentIdentityVersion.map fun v =>
    (v.identity.instrumentUid, v.identity.version)).Nodup
  sectors : t.sectors.Keys
  stateTransition :
    (t.database.analysis.stateTransition.map StateTransition.transitionUid).Nodup
  factRecord : (t.database.evidence.factRecord.map FactRecord.factUid).Nodup
  evaluationSnapshot :
    (t.database.evidence.evaluationSnapshot.map EvaluationSnapshot.snapshotUid).Nodup
  marketEvent : (t.database.analysis.marketEvent.map MarketEvent.eventUid).Nodup
  eventVersion : (t.database.analysis.eventVersion.map EventVersion.eventVersionUid).Nodup
  notificationIntent :
    (t.database.analysis.notificationIntent.map NotificationIntent.intentUid).Nodup
  deliveryState : (t.database.analysis.notificationDeliveryState.map
    NotificationDeliveryState.intentUid).Nodup
  auditRecord : (t.database.analysis.auditRecord.map AuditRecord.auditUid).Nodup
  projection_pos : ∀ p ∈ t.database.analysis.currentEventProjection, 1 ≤ p.version
  version_pos : ∀ v ∈ t.database.analysis.eventVersion, 1 ≤ v.version

/-- What the schema leaves open : identifiers are not empty, an event is projected once at a
time, and what an item shows can be read. -/
structure ApiTables.Readable (t : ApiTables) : Prop where
  instrumentUid : ∀ i ∈ t.instrument, i.instrumentUid ≠ ""
  sectorUid : ∀ s ∈ t.sectors.sector, s.sectorUid ≠ ""
  memberUid : ∀ m ∈ t.sectors.sectorMembership, m.instrumentUid ≠ ""
  projections : (t.database.analysis.currentEventProjection.map fun p =>
    columns p.updatedAt p.eventUid).Nodup
  contexts : ∀ v ∈ t.database.analysis.eventVersion, ∃ context,
    t.database.protectiveContext v.stateEvaluationUid v.guardianUid v.scoutUid = .ok context
  frozenContexts : ∀ n ∈ t.database.analysis.notificationIntent,
    ∃ value, Json.scan n.frozenContextJson.toList = some value

/-! ## Listings -/

namespace ApiTables

variable {t : ApiTables} {limit : ℕ}

/-- An instrument has one row. -/
theorem nodup_instrumentRows (h : t.Keys) :
    (t.instrumentRows.map fun row => row.1.instrumentUid).Nodup := by
  refine nodup_map_flatMap h.instrument ?_ ?_
  · intro i _ row hrow
    obtain ⟨v, -, rfl⟩ := List.mem_map.mp hrow
    rfl
  · intro i _
    rw [List.length_map]
    refine length_filter_le_one h.identityVersion fun v hv v' hv' hp hp' => ?_
    obtain ⟨huid, hmax⟩ := of_decide_eq_true hp
    obtain ⟨huid', hmax'⟩ := of_decide_eq_true hp'
    exact Prod.ext (huid.trans huid'.symm) (Nat.le_antisymm (hmax' v hv huid) (hmax v' hv' huid'))

theorem mem_instrumentRows {row : Instrument × IdentityVersionRow} (h : row ∈ t.instrumentRows) :
    row.1 ∈ t.instrument := by
  obtain ⟨i, hi, hrow⟩ := List.mem_flatMap.mp h
  obtain ⟨v, -, rfl⟩ := List.mem_map.mp hrow
  exact hi

theorem complete_instruments (hkeys : t.Keys) (h : t.Readable) (hlimit : 1 ≤ limit) :
    Complete (fun cursor => t.instruments cursor limit) InstrumentItem.instrumentUid
      (t.instrumentRows.map instrumentItem) :=
  complete_listing instrumentItem (fun _ _ => rfl) (fun _ _ => rfl) (nodup_instrumentRows hkeys)
    (fun _ hr => empty_lt (h.instrumentUid _ (mem_instrumentRows hr))) hlimit

/-- A sector has one subject. -/
theorem length_sectorSubjects (h : t.Keys) (sectorUid : Uid) :
    (t.sectorSubjects sectorUid).length = 1 := by
  have hone : (t.sectors.analysisSubject.filter fun a => a.target = .sector sectorUid).length ≤ 1 :=
    length_filter_le_one h.sectors.subjectTarget fun a _ a' _ ha ha' =>
      (of_decide_eq_true ha).trans (of_decide_eq_true ha').symm
  rw [sectorSubjects]
  split_ifs with hnil
  · rfl
  · rw [List.length_map]
    have hpos := List.length_pos_iff.mpr hnil
    omega

/-- A sector has one row. -/
theorem nodup_sectorRows (h : t.Keys) :
    (t.sectorRows.map fun row => row.1.sectorUid).Nodup := by
  refine nodup_map_flatMap h.sectors.sector ?_ ?_
  · intro s _ row hrow
    obtain ⟨v, -, hrow⟩ := List.mem_flatMap.mp hrow
    obtain ⟨a, -, rfl⟩ := List.mem_map.mp hrow
    rfl
  · intro s _
    refine length_flatMap_le_one ?_ fun v _ => ?_
    · refine length_filter_le_one h.sectors.sectorVersion fun v hv v' hv' hp hp' => ?_
      obtain ⟨huid, hmax⟩ := of_decide_eq_true hp
      obtain ⟨huid', hmax'⟩ := of_decide_eq_true hp'
      exact Prod.ext (huid.trans huid'.symm)
        (Nat.le_antisymm (hmax' v hv huid) (hmax v' hv' huid'))
    · rw [List.length_map, length_sectorSubjects h]

theorem mem_sectorRows {row : Sector × SectorVersion × Option AnalysisSubject}
    (h : row ∈ t.sectorRows) : row.1 ∈ t.sectors.sector := by
  obtain ⟨s, hs, hrow⟩ := List.mem_flatMap.mp h
  obtain ⟨v, -, hrow⟩ := List.mem_flatMap.mp hrow
  obtain ⟨a, -, rfl⟩ := List.mem_map.mp hrow
  exact hs

theorem complete_sectors (hkeys : t.Keys) (h : t.Readable) (hlimit : 1 ≤ limit) :
    Complete (fun cursor => t.sectorsPage cursor limit) SectorItem.sectorUid
      (t.sectorRows.map sectorItem) :=
  complete_listing sectorItem (fun _ _ => rfl) (fun _ _ => rfl) (nodup_sectorRows hkeys)
    (fun _ hr => empty_lt (h.sectorUid _ (mem_sectorRows hr))) hlimit

/-- The listing of the members of a sector is complete. -/
theorem complete_sectorMembers (hkeys : t.Keys) (h : t.Readable) (hlimit : 1 ≤ limit) {uid : Uid}
    {item : SectorItem} (hsector : t.sector uid = .ok item) :
    Complete (fun cursor => t.sectorMembers uid cursor limit) SectorMemberItem.instrumentUid
      ((t.sectorMemberRows uid).map sectorMemberItem) := by
  have hget : (fun cursor => t.sectorMembers uid cursor limit) = fun cursor =>
      listing (t.sectorMemberRows uid) (fun row => row.1.instrumentUid) Prod.snd
        (.ok ∘ sectorMemberItem) SectorMemberItem.instrumentUid SectorMemberItem.instrumentUid
        cursor limit := by
    funext cursor
    rw [sectorMembers, hsector]
    rfl
  have hmem : ∀ row ∈ t.sectorMemberRows uid, row.1 ∈ t.sectors.sectorMembership ∧
      row.2 ∈ t.sectors.sectorMembershipVersion ∧
      row.2.membershipVersionUid = row.1.membershipVersionUid ∧ row.2.sectorUid = uid ∧
      (∀ d ∈ t.sectors.sectorMembershipVersion, d.sectorUid = row.2.sectorUid →
        d.tradingDate ≤ row.2.tradingDate) ∧
      ∀ x ∈ t.sectors.sectorMembershipVersion, x.sectorUid = row.2.sectorUid →
        x.tradingDate = row.2.tradingDate → x.version ≤ row.2.version := by
    intro row hrow
    obtain ⟨m, hm, hrow⟩ := List.mem_flatMap.mp hrow
    obtain ⟨v, hv, rfl⟩ := List.mem_map.mp hrow
    obtain ⟨hv, hp⟩ := List.mem_filter.mp hv
    exact ⟨hm, hv, of_decide_eq_true hp⟩
  have hrows : ((t.sectorMemberRows uid).map fun row =>
      (row.1.membershipVersionUid, row.1.instrumentUid)).Nodup := by
    refine nodup_map_flatMap hkeys.sectors.sectorMembership ?_ ?_
    · intro m _ row hrow
      obtain ⟨v, -, rfl⟩ := List.mem_map.mp hrow
      rfl
    · intro m _
      rw [List.length_map]
      exact length_filter_le_one hkeys.sectors.membershipVersionUid fun v _ v' _ hp hp' =>
        (of_decide_eq_true hp).1.trans (of_decide_eq_true hp').1.symm
  rw [hget]
  refine complete_listing sectorMemberItem (fun _ _ => rfl) (fun _ _ => rfl) ?_
    (fun _ hr => empty_lt (h.memberUid _ (hmem _ hr).1)) hlimit
  -- The newest membership of the newest date is one version.
  refine nodup_map_of_imp hrows fun row hrow row' hrow' heq => ?_
  obtain ⟨-, hv, huid, hsector, hdate, hversion⟩ := hmem row hrow
  obtain ⟨-, hv', huid', hsector', hdate', hversion'⟩ := hmem row' hrow'
  have hsame : row'.2.sectorUid = row.2.sectorUid := hsector'.trans hsector.symm
  have hsameDate : row'.2.tradingDate = row.2.tradingDate :=
    le_antisymm (hdate _ hv' hsame) (hdate' _ hv hsame.symm)
  have hsameVersion : row'.2.version = row.2.version :=
    Nat.le_antisymm (hversion _ hv' hsame hsameDate) (hversion' _ hv hsame.symm hsameDate.symm)
  have hrow2 : row'.2 = row.2 := List.inj_on_of_nodup_map hkeys.sectors.membershipVersion hv' hv
    (Prod.ext hsame (Prod.ext hsameDate hsameVersion))
  exact Prod.ext (huid.symm.trans (hrow2 ▸ huid')) heq

/-- A listing that first looks its subject up. -/
theorem requireSubject_of_mem {uid : Uid}
    (h : ∃ a ∈ t.sectors.analysisSubject, a.subjectUid = uid) :
    t.requireSubject uid = .ok () := if_pos h

/-- So is the one of the transitions of a subject. -/
theorem complete_transitions (hkeys : t.Keys) (hlimit : 1 ≤ limit) {uid : Uid}
    (huid : ∃ a ∈ t.sectors.analysisSubject, a.subjectUid = uid) :
    Complete (fun cursor => t.transitions uid cursor limit)
      (fun item => columns item.occurredAt item.transitionUid)
      ((t.database.analysis.stateTransition.filter fun r => r.subjectUid = uid).map
        transitionItem) := by
  have hget : (fun cursor => t.transitions uid cursor limit) = fun cursor =>
      listing (t.database.analysis.stateTransition.filter fun r => r.subjectUid = uid)
        (fun row => columns row.occurredAt row.transitionUid) toLex (.ok ∘ transitionItem)
        (fun item => formatRfc3339 item.occurredAt) TransitionItem.transitionUid cursor limit := by
    funext cursor
    rw [transitions, requireSubject_of_mem huid]
    rfl
  rw [hget]
  exact complete_listing transitionItem (fun _ _ => rfl) (fun _ _ => rfl)
    (nodup_columns (hkeys.stateTransition.sublist (List.filter_sublist.map _)))
    (fun _ _ => start_lt_columns _ _) hlimit

theorem nodup_factRows (h : t.Keys) (uid : Uid) :
    ((t.factRows uid).map fun row => row.1.factUid).Nodup := by
  refine nodup_map_flatMap h.factRecord ?_ ?_
  · intro f _ row hrow
    obtain ⟨s, -, rfl⟩ := List.mem_map.mp hrow
    rfl
  · intro f _
    rw [List.length_map]
    exact length_filter_le_one h.evaluationSnapshot fun s _ s' _ hp hp' =>
      (of_decide_eq_true hp).1.trans (of_decide_eq_true hp').1.symm

/-- So is the one of its facts. -/
theorem complete_facts (hkeys : t.Keys) (hlimit : 1 ≤ limit) {uid : Uid}
    (huid : ∃ a ∈ t.sectors.analysisSubject, a.subjectUid = uid) :
    Complete (fun cursor => t.facts uid cursor limit)
      (fun item => columns item.asOfTime item.factUid) ((t.factRows uid).map factItem) := by
  have hget : (fun cursor => t.facts uid cursor limit) = fun cursor =>
      listing (t.factRows uid) (fun row => columns row.2.asOfTime row.1.factUid) toLex
        (.ok ∘ factItem) (fun item => formatRfc3339 item.asOfTime) FactItem.factUid cursor
        limit := by
    funext cursor
    rw [facts, requireSubject_of_mem huid]
    rfl
  rw [hget]
  exact complete_listing factItem (fun _ _ => rfl) (fun _ _ => rfl)
    (nodup_columns (nodup_factRows hkeys uid)) (fun _ _ => start_lt_columns _ _) hlimit

theorem complete_audit (hkeys : t.Keys) (hlimit : 1 ≤ limit) :
    Complete (fun cursor => t.audit cursor limit)
      (fun item => columns item.record.createdAt item.record.auditUid)
      (t.database.analysis.auditRecord.map auditItem) :=
  complete_listing auditItem (fun _ _ => rfl) (fun _ _ => rfl) (nodup_columns hkeys.auditRecord)
    (fun _ _ => start_lt_columns _ _) hlimit

/-- The summary of a version that is read shows its identifiers and its time. -/
theorem eventSummary_eq_ok {db : Database} {e : MarketEvent} {p : EventProjection}
    {v : EventVersion} {view : EventSummaryView} (h : db.eventSummary e p v = .ok view) :
    view.eventUid = e.eventUid ∧ view.eventVersionUid = p.eventVersionUid ∧
      view.asOfTime = p.updatedAt := by
  unfold Database.eventSummary at h
  cases hcontext : db.protectiveContext v.stateEvaluationUid v.guardianUid v.scoutUid with
  | error error =>
    rw [hcontext] at h
    cases h
  | ok context =>
    rw [hcontext] at h
    by_cases hversion : 1 ≤ p.version
    · simp only [hversion, dite_true] at h
      cases h
      exact ⟨rfl, rfl, rfl⟩
    · simp only [hversion, dite_false] at h
      cases h

/-- A version whose context is found can be shown. -/
theorem exists_eventSummary {db : Database} {e : MarketEvent} {p : EventProjection}
    {v : EventVersion} (hcontext : ∃ context,
      db.protectiveContext v.stateEvaluationUid v.guardianUid v.scoutUid = .ok context)
    (hversion : 1 ≤ p.version) : ∃ view, db.eventSummary e p v = .ok view := by
  obtain ⟨context, hcontext⟩ := hcontext
  unfold Database.eventSummary
  rw [hcontext]
  simp only [hversion, dite_true]
  exact ⟨_, rfl⟩

/-- The rows of the events, joined by their keys. -/
theorem mem_eventRows {row : MarketEvent × EventProjection × EventVersion} :
    row ∈ t.eventRows ↔ (row.1 ∈ t.database.analysis.marketEvent ∧
      row.2.1 ∈ t.database.analysis.currentEventProjection ∧
      row.2.2 ∈ t.database.analysis.eventVersion) ∧ row.1.eventUid = row.2.1.eventUid ∧
      row.2.2.eventVersionUid = row.2.1.eventVersionUid := by
  simp only [eventRows, List.mem_flatMap, List.mem_map, List.mem_filter, decide_eq_true_eq]
  constructor
  · rintro ⟨p, hp, e, ⟨he, huid⟩, v, ⟨hv, hversion⟩, rfl⟩
    exact ⟨⟨he, hp, hv⟩, huid, hversion⟩
  · rintro ⟨⟨he, hp, hv⟩, huid, hversion⟩
    exact ⟨row.2.1, hp, row.1, ⟨he, huid⟩, row.2.2, ⟨hv, hversion⟩, rfl⟩

/-- The rows of the events are told apart by what tells their projections apart. -/
theorem nodup_eventRows {κ : Type} {key : EventProjection → κ}
    {rowKey : MarketEvent × EventProjection × EventVersion → κ}
    (hevents : (t.database.analysis.marketEvent.map MarketEvent.eventUid).Nodup)
    (hversions : (t.database.analysis.eventVersion.map EventVersion.eventVersionUid).Nodup)
    (hprojections : (t.database.analysis.currentEventProjection.map key).Nodup)
    (hkey : ∀ row ∈ t.eventRows, rowKey row = key row.2.1) : (t.eventRows.map rowKey).Nodup := by
  refine nodup_map_flatMap hprojections ?_ fun p _ => ?_
  · intro p hp row hrow
    rw [hkey row (List.mem_flatMap.mpr ⟨p, hp, hrow⟩)]
    obtain ⟨e, -, hrow⟩ := List.mem_flatMap.mp hrow
    obtain ⟨v, -, rfl⟩ := List.mem_map.mp hrow
    rfl
  · refine length_flatMap_le_one (length_filter_le_one hevents fun e _ e' _ he he' =>
      (of_decide_eq_true he).trans (of_decide_eq_true he').symm) fun e _ => ?_
    rw [List.length_map]
    exact length_filter_le_one hversions fun v _ v' _ hv hv' =>
      (of_decide_eq_true hv).trans (of_decide_eq_true hv').symm

/-- The listing of events is complete where each is projected once and can be shown. -/
theorem complete_events
    (hevents : (t.database.analysis.marketEvent.map MarketEvent.eventUid).Nodup)
    (hversions : (t.database.analysis.eventVersion.map EventVersion.eventVersionUid).Nodup)
    (hprojections : (t.database.analysis.currentEventProjection.map fun p =>
      columns p.updatedAt p.eventUid).Nodup)
    (hpos : ∀ p ∈ t.database.analysis.currentEventProjection, 1 ≤ p.version)
    (hcontexts : ∀ v ∈ t.database.analysis.eventVersion, ∃ context,
      t.database.protectiveContext v.stateEvaluationUid v.guardianUid v.scoutUid = .ok context)
    (hlimit : 1 ≤ limit) :
    ∃ items, t.eventRows.mapM t.eventItem = .ok items ∧
      Complete (fun cursor => t.events cursor limit)
        (fun item => columns item.asOfTime item.eventUid) items := by
  refine complete_listing_of_items (fun row hrow => ?_) (fun row view hview => ?_)
    (nodup_eventRows hevents hversions hprojections fun row hrow => ?_)
    (fun _ _ => start_lt_columns _ _) hlimit
  · obtain ⟨⟨-, hp, hv⟩, -⟩ := mem_eventRows.mp hrow
    obtain ⟨view, hview⟩ := exists_eventSummary (hcontexts _ hv) (hpos _ hp)
    exact ⟨view, except_mapError_eq_ok.mpr hview⟩
  · obtain ⟨huid, -, htime⟩ := eventSummary_eq_ok (except_mapError_eq_ok.mp hview)
    rw [huid, htime]
    rfl
  · rw [(mem_eventRows.mp hrow).2.1]

/-- The listing of the versions of an event is complete. -/
theorem complete_eventVersions (hkeys : t.Keys) (h : t.Readable) (hlimit : 1 ≤ limit) {uid : Uid}
    (huid : ∃ e ∈ t.database.analysis.marketEvent, e.eventUid = uid) :
    ∃ items, (t.eventVersionRows uid).mapM t.eventVersionItem = .ok items ∧
      Complete (fun cursor => t.eventVersions uid cursor limit)
        (fun item => columns item.summary.asOfTime item.summary.eventVersionUid) items := by
  have hget : (fun cursor => t.eventVersions uid cursor limit) = fun cursor =>
      listing (t.eventVersionRows uid) (fun row => columns row.1.createdAt row.1.eventVersionUid)
        toLex t.eventVersionItem (fun item => formatRfc3339 item.summary.asOfTime)
        (fun item => item.summary.eventVersionUid) cursor limit := by
    funext cursor
    rw [eventVersions, requireEvent, if_pos huid]
    rfl
  have hmem : ∀ row ∈ t.eventVersionRows uid, row.1 ∈ t.database.analysis.eventVersion := by
    intro row hrow
    obtain ⟨v, hv, hrow⟩ := List.mem_flatMap.mp hrow
    obtain ⟨e, -, rfl⟩ := List.mem_map.mp hrow
    exact hv
  have hrows : ((t.eventVersionRows uid).map fun row => row.1.eventVersionUid).Nodup := by
    refine nodup_map_flatMap hkeys.eventVersion ?_ ?_
    · intro v _ row hrow
      obtain ⟨e, -, rfl⟩ := List.mem_map.mp hrow
      rfl
    · intro v _
      rw [List.length_map]
      exact length_filter_le_one hkeys.marketEvent fun e _ e' _ he he' =>
        (of_decide_eq_true he).1.trans (of_decide_eq_true he').1.symm
  rw [hget]
  refine complete_listing_of_items (fun row hrow => ?_) (fun row item hitem => ?_)
    (nodup_columns hrows) (fun _ _ => start_lt_columns _ _) hlimit
  · obtain ⟨view, hview⟩ := exists_eventSummary (e := row.2) (p := versionProjection row)
      (h.contexts _ (hmem row hrow)) (hkeys.version_pos _ (hmem row hrow))
    refine ⟨⟨view, row.1.changeType⟩, except_mapError_eq_ok.mpr ?_⟩
    rw [hview]
    rfl
  · have hsummary := except_mapError_eq_ok.mp hitem
    cases hview : t.database.eventSummary row.2 (versionProjection row) row.1 with
    | error error =>
      rw [hview] at hsummary
      cases hsummary
    | ok view =>
      rw [hview] at hsummary
      cases hsummary
      obtain ⟨-, hversion, htime⟩ := eventSummary_eq_ok hview
      dsimp only
      rw [hversion, htime]
      rfl

theorem nodup_notificationRows (h : t.Keys) :
    (t.notificationRows.map fun row => row.1.intentUid).Nodup := by
  refine nodup_map_flatMap h.notificationIntent ?_ ?_
  · intro n _ row hrow
    obtain ⟨d, -, rfl⟩ := List.mem_map.mp hrow
    rfl
  · intro n _
    rw [List.length_map]
    exact length_filter_le_one h.deliveryState fun d _ d' _ hp hp' =>
      (of_decide_eq_true hp).trans (of_decide_eq_true hp').symm

/-- So is the one of the notifications. -/
theorem complete_notifications (hkeys : t.Keys) (h : t.Readable) (hlimit : 1 ≤ limit) :
    ∃ items, t.notificationRows.mapM notificationItem = .ok items ∧
      Complete (fun cursor => t.notifications cursor limit)
        (fun item => columns item.createdAt item.intentUid) items := by
  refine complete_listing_of_items (fun row hrow => ?_) (fun row item hitem => ?_)
    (nodup_columns (nodup_notificationRows hkeys)) (fun _ _ => start_lt_columns _ _) hlimit
  · obtain ⟨n, hn, hrow⟩ := List.mem_flatMap.mp hrow
    obtain ⟨d, -, rfl⟩ := List.mem_map.mp hrow
    obtain ⟨value, hvalue⟩ := h.frozenContexts n hn
    rw [notificationItem, hvalue]
    exact ⟨_, rfl⟩
  · unfold notificationItem at hitem
    cases hvalue : (Json.scan row.1.frozenContextJson.toList).map Json.toDict with
    | none =>
      rw [hvalue] at hitem
      cases hitem
    | some value =>
      rw [hvalue] at hitem
      cases hitem
      rfl

/-- Tables with some instruments, each of one identity, next to some evidence and analysis. -/
def small (uids : List Uid) (evidence : EvidenceTables) (analysis : AnalysisTables) :
    ApiTables where
  database := ⟨evidence, ⟨[], [], [], [], []⟩, analysis, ⟨[], []⟩, [], ⟨0, none⟩⟩
  instrument := uids.map fun uid => ⟨uid, .stock⟩
  instrumentIdentityVersion := uids.map fun uid =>
    ⟨uid, ⟨uid, 1, "SSE", uid, "name", "LISTED", "TRADING", none, none, none, 0⟩⟩
  sectors := .empty

/-- Two audit records of one instant. -/
def twoAudits : ApiTables :=
  small ["a", "b"] ⟨[], [], [], [], [], [], [], [], []⟩
    { AnalysisTables.empty with
      auditRecord := [⟨"x", "READ", none, none, "", 5⟩, ⟨"w", "READ", none, none, "", 5⟩] }

/-- An event of two versions, both projected at one time, next to some Guardian evaluations. -/
def projectedTwice (guardians : List GuardianEvaluation) : ApiTables :=
  small [] ⟨[⟨"s", "u", "m", "b", "q", 5, .official, .sealed, "h"⟩], [⟨"q", .healthy, .fit, .high⟩],
      [], [], [], [], [], [], []⟩
    { AnalysisTables.empty with
      stateEvaluation := [⟨"x", "s", "u", .official, .available, none, "h", 5⟩,
        ⟨"y", "s", "u", .official, .available, none, "i", 5⟩]
      guardianEvaluation := guardians
      scoutEvaluation := [⟨"c", "g", "x", "u", "s", "1", .none, .low, false, .allow, "h", 5⟩]
      marketEvent := [⟨"e", "u", .guardianRisk, "k", 5⟩]
      eventVersion := [⟨"v", "e", 1, .active, .created, "a", "x", "g", "c", "h", 5⟩,
        ⟨"w", "e", 2, .active, .changed, "a", "x", "g", "c", "i", 5⟩]
      currentEventProjection := [⟨"k", "e", "v", .active, 1, 5⟩, ⟨"l", "e", "w", .active, 2, 5⟩] }

/-- An intent whose frozen context is no JSON text. -/
def unparsedIntent : ApiTables :=
  small [] ⟨[], [], [], [], [], [], [], [], []⟩
    { AnalysisTables.empty with
      notificationIntent := [⟨"n", "v", .inApp, .risk, "k", "x", "h", 5, 6, 0⟩]
      notificationDeliveryState := [⟨"n", .pending, 0, none, none, none, none, 1, 5⟩] }

theorem not_complete_of_same_key {ι κ : Type} [LinearOrder κ]
    {get : Option String → Except ListingError (Page ι String)} {key : ι → κ} {i i' : ι}
    (h : key i = key i') : ¬ Complete get key [i, i'] := by
  rintro ⟨pages, -, hperm, hpairwise⟩
  have hsorted : (pages.flatten.map key).Nodup :=
    List.pairwise_map.mpr (hpairwise.imp fun hlt => ne_of_lt hlt)
  have hnodup := (hperm.map key).nodup_iff.mp hsorted
  simp [h] at hnodup

end ApiTables

end MarketMonitor
