import MarketMonitor.Library.Keyset
import MarketMonitor.Analysis.EventLedger
import MarketMonitor.Api.Cursors
import MarketMonitor.Persistence.MarketSchema
import MarketMonitor.Persistence.SectorSchema

/-!
# The listings of the API

The nine listings of `ApiRepository`, each in pages that follow its key : one query per page,
past the key of the cursor, for one row more than the page shows.
-/

namespace MarketMonitor

open Keyset (Page Complete)

/-! ## Tables -/

/-- `instrument_identity_version`, with its identifier. -/
structure IdentityVersionRow where
  identityVersionUid : Uid
  identity : InstrumentIdentityVersion
  deriving DecidableEq, Repr

/-- The tables the listings read. -/
structure ApiTables where
  database : Database
  instrument : List Instrument
  instrumentIdentityVersion : List IdentityVersionRow
  sectors : SectorTables

/-! ## Items -/

structure InstrumentItem where
  instrumentUid : Uid
  instrumentKind : InstrumentKind
  identityVersionUid : Uid
  exchange : String
  tradingCode : String
  name : String
  listingStatus : String
  tradingStatus : String
  validFrom : Instant
  deriving DecidableEq, Repr

/-- `_instrument(row)` -/
def instrumentItem (row : Instrument × IdentityVersionRow) : InstrumentItem where
  instrumentUid := row.1.instrumentUid
  instrumentKind := row.1.instrumentKind
  identityVersionUid := row.2.identityVersionUid
  exchange := row.2.identity.exchange
  tradingCode := row.2.identity.tradingCode
  name := row.2.identity.name
  listingStatus := row.2.identity.listingStatus
  tradingStatus := row.2.identity.tradingStatus
  validFrom := row.2.identity.validFrom

structure SectorItem where
  sectorUid : Uid
  sectorKind : SectorKind
  sectorVersionUid : Uid
  name : String
  validFrom : Instant
  subjectUid : Option Uid
  subjectUidStatus : ValueStatus
  deriving DecidableEq

/-- `_sector(row)` -/
def sectorItem (row : Sector × SectorVersion × Option AnalysisSubject) : SectorItem where
  sectorUid := row.1.sectorUid
  sectorKind := row.1.sectorKind
  sectorVersionUid := row.2.1.sectorVersionUid
  name := row.2.1.name
  validFrom := row.2.1.validFrom
  subjectUid := row.2.2.map AnalysisSubject.subjectUid
  subjectUidStatus := presence row.2.2

structure SectorMemberItem where
  instrumentUid : Uid
  memberRole : String
  membershipVersionUid : Uid
  tradingDate : String
  deriving DecidableEq, Repr

def sectorMemberItem (row : SectorMember × SectorMembershipVersion) : SectorMemberItem where
  instrumentUid := row.1.instrumentUid
  memberRole := row.1.memberRole
  membershipVersionUid := row.2.membershipVersionUid
  tradingDate := row.2.tradingDate

structure TransitionItem where
  transitionUid : Uid
  fromLifecycleState : Option LifecycleState
  fromLifecycleStateStatus : ValueStatus
  toLifecycleState : LifecycleState
  evaluationUid : Uid
  occurredAt : Instant
  deriving DecidableEq

def transitionItem (row : StateTransition) : TransitionItem where
  transitionUid := row.transitionUid
  fromLifecycleState := row.fromLifecycleState
  fromLifecycleStateStatus := presence row.fromLifecycleState
  toLifecycleState := row.toLifecycleState
  evaluationUid := row.evaluationUid
  occurredAt := row.occurredAt

/-- The digits of a number, at least `width` of them. -/
def rjustDigits (width n : ℕ) : List Char :=
  let digits := Nat.toDigits 10 n
  List.replicate (width - digits.length) '0' ++ digits

/-- `_decimal(value, scale)` -/
def decimalString (value : Option ℤ) (scale : ℕ) : Option String :=
  value.map fun number =>
    let digits := rjustDigits (scale + 1) number.natAbs
    let rendered := if scale = 0 then digits
      else digits.take (digits.length - scale) ++ '.' :: digits.drop (digits.length - scale)
    String.ofList (if number < 0 then '-' :: rendered else rendered)

structure FactItem where
  factUid : Uid
  factCode : String
  value : Option String
  valueStatus : ValueStatus
  unit : String
  asOfTime : Instant
  deriving DecidableEq

def factItem (row : FactRecord × EvaluationSnapshot) : FactItem where
  factUid := row.1.factUid
  factCode := row.1.factCode
  value := decimalString row.1.valueScaled row.1.valueScale
  valueStatus := row.1.valueStatus
  unit := row.1.unit
  asOfTime := row.2.asOfTime

/-- An item of `event_versions`. -/
structure EventVersionItem where
  summary : EventSummaryView
  changeType : ChangeType

structure NotificationItem where
  intentUid : Uid
  eventVersionUid : Uid
  channel : Channel
  intentKind : IntentKind
  createdAt : Instant
  expiresAt : Instant
  deliveryStatus : DeliveryStatus
  attemptCount : ℕ
  frozenContext : Json.Value

/-- An item of `notifications`, whose frozen context is parsed. -/
def notificationItem (row : NotificationIntent × NotificationDeliveryState) :
    Except ListingError NotificationItem :=
  match (Json.scan row.1.frozenContextJson.toList).map Json.toDict with
  | none => .error (.valueError "not a JSON text")
  | some context => .ok
    { intentUid := row.1.intentUid
      eventVersionUid := row.1.eventVersionUid
      channel := row.1.channel
      intentKind := row.1.intentKind
      createdAt := row.1.createdAt
      expiresAt := row.1.expiresAt
      deliveryStatus := row.2.deliveryStatus
      attemptCount := row.2.attemptCount
      frozenContext := context }

structure AuditItem where
  record : AuditRecord
  subjectUidStatus : ValueStatus
  analysisCommitUidStatus : ValueStatus
  deriving DecidableEq

/-- `"NOT_APPLICABLE"` or `"VALUE"`. -/
def applicability {α : Type} (value : Option α) : ValueStatus :=
  if value.isSome then .value else .notApplicable

def auditItem (row : AuditRecord) : AuditItem :=
  ⟨row, applicability row.subjectUid, applicability row.analysisCommitUid⟩

/-! ## Pages -/

section Pages

variable {ρ ι κ : Type} [LinearOrder κ]

/-- `_page(items, sort_key, uid_key, limit)`, whose `next_cursor_status` tells whether there
is a next cursor. -/
def pageOf (items : List ι) (sortKey uidKey : ι → String) (limit : ℕ) : Page ι String :=
  let visible := items.take limit
  ⟨visible, if limit < items.length then
    visible.getLast?.map fun item => encodeCursor (sortKey item) (uidKey item) else none⟩

/-- `("", "") if cursor is None else decode_cursor(cursor)` -/
def startAfter : Option String → Except ListingError (String × String)
  | none => .ok ("", "")
  | some cursor => decodeCursor cursor

/-- A page of the rows of a query whose key is past that of the cursor. -/
def listing (rows : List ρ) (key : ρ → κ) (past : String × String → κ)
    (item : ρ → Except ListingError ι) (sortKey uidKey : ι → String) (cursor : Option String)
    (limit : ℕ) : Except ListingError (Page ι String) := do
  let after ← startAfter cursor
  let items ← (Keyset.fetch key rows (past after) (limit + 1)).mapM item
  return pageOf items sortKey uidKey limit

/-- The pair that two columns are compared as. -/
def columns (time : Instant) (uid : Uid) : Lex (String × String) := toLex (formatRfc3339 time, uid)

end Pages

/-! ## Queries -/

namespace ApiTables

variable (t : ApiTables)

/-- The instruments with their newest identities. -/
def instrumentRows : List (Instrument × IdentityVersionRow) :=
  t.instrument.flatMap fun i =>
    (t.instrumentIdentityVersion.filter fun v => v.identity.instrumentUid = i.instrumentUid ∧
      ∀ x ∈ t.instrumentIdentityVersion, x.identity.instrumentUid = i.instrumentUid →
        x.identity.version ≤ v.identity.version).map fun v => (i, v)

/-- `LEFT JOIN analysis_subject a ON a.sector_uid=s.sector_uid AND a.subject_kind='SECTOR'` -/
def sectorSubjects (sectorUid : Uid) : List (Option AnalysisSubject) :=
  let subjects := t.sectors.analysisSubject.filter fun a => a.target = .sector sectorUid
  if subjects = [] then [none] else subjects.map some

/-- The sectors with their newest versions and their subjects. -/
def sectorRows : List (Sector × SectorVersion × Option AnalysisSubject) :=
  t.sectors.sector.flatMap fun s =>
    (t.sectors.sectorVersion.filter fun v => v.sectorUid = s.sectorUid ∧
      ∀ x ∈ t.sectors.sectorVersion, x.sectorUid = s.sectorUid → x.version ≤ v.version).flatMap
        fun v => (t.sectorSubjects s.sectorUid).map fun a => (s, v, a)

/-- The members of the newest membership of a sector. -/
def sectorMemberRows (uid : Uid) : List (SectorMember × SectorMembershipVersion) :=
  t.sectors.sectorMembership.flatMap fun m =>
    (t.sectors.sectorMembershipVersion.filter fun v =>
      v.membershipVersionUid = m.membershipVersionUid ∧ v.sectorUid = uid ∧
      (∀ d ∈ t.sectors.sectorMembershipVersion, d.sectorUid = v.sectorUid →
        d.tradingDate ≤ v.tradingDate) ∧
      ∀ x ∈ t.sectors.sectorMembershipVersion, x.sectorUid = v.sectorUid →
        x.tradingDate = v.tradingDate → x.version ≤ v.version).map fun v => (m, v)

/-- The facts of the official snapshots of a subject. -/
def factRows (subjectUid : Uid) : List (FactRecord × EvaluationSnapshot) :=
  t.database.evidence.factRecord.flatMap fun f =>
    (t.database.evidence.evaluationSnapshot.filter fun s => s.snapshotUid = f.snapshotUid ∧
      s.subjectUid = subjectUid ∧ s.evaluationDisposition = .official).map fun s => (f, s)

/-- The events with their projections and the versions these point to. -/
def eventRows : List (MarketEvent × EventProjection × EventVersion) :=
  t.database.analysis.currentEventProjection.flatMap fun p =>
    (t.database.analysis.marketEvent.filter fun e => e.eventUid = p.eventUid).flatMap fun e =>
      (t.database.analysis.eventVersion.filter fun v =>
        v.eventVersionUid = p.eventVersionUid).map fun v => (e, p, v)

/-- The versions of an event. -/
def eventVersionRows (uid : Uid) : List (EventVersion × MarketEvent) :=
  t.database.analysis.eventVersion.flatMap fun v =>
    (t.database.analysis.marketEvent.filter fun e => e.eventUid = v.eventUid ∧
      v.eventUid = uid).map fun e => (v, e)

/-- The intents with the states of their deliveries. -/
def notificationRows : List (NotificationIntent × NotificationDeliveryState) :=
  t.database.analysis.notificationIntent.flatMap fun n =>
    (t.database.analysis.notificationDeliveryState.filter fun d =>
      d.intentUid = n.intentUid).map fun d => (n, d)

/-- `_event_summary(row)` of a row of `events`. -/
def eventItem (row : MarketEvent × EventProjection × EventVersion) :
    Except ListingError EventSummaryView :=
  (t.database.eventSummary row.1 row.2.1 row.2.2).mapError .api

/-- `{**self._event_summary(row), "change_type": str(row.change_type)}`, where the row has the
columns of the version itself. -/
def eventVersionItem (row : EventVersion × MarketEvent) : Except ListingError EventVersionItem :=
  ((t.database.eventSummary row.2 (versionProjection row) row.1).map fun summary =>
    { summary := summary, changeType := row.1.changeType }).mapError .api

/-! ## Lookups -/

/-- `ApiRepository.sector(uid)` : the newest version, if there is one. -/
def sector (uid : Uid) : Except ListingError SectorItem :=
  let rows := (t.sectors.sector.filter fun s => s.sectorUid = uid).flatMap fun s =>
    (t.sectors.sectorVersion.filter fun v => v.sectorUid = s.sectorUid).flatMap fun v =>
      (t.sectorSubjects s.sectorUid).map fun a => (s, v, a)
  match rows.insertionSort fun a b => b.2.1.version ≤ a.2.1.version with
  | [] => .error (.api (.lookupError uid))
  | row :: _ => .ok (sectorItem row)

/-- `_require_subject(uid)` -/
def requireSubject (uid : Uid) : Except ListingError Unit :=
  if ∃ a ∈ t.sectors.analysisSubject, a.subjectUid = uid then .ok ()
  else .error (.api (.lookupError uid))

/-- `_require_event(uid)` -/
def requireEvent (uid : Uid) : Except ListingError Unit :=
  if ∃ e ∈ t.database.analysis.marketEvent, e.eventUid = uid then .ok ()
  else .error (.api (.lookupError uid))

/-! ## Listings -/

/-- `ApiRepository.instruments(cursor, limit)` -/
def instruments (cursor : Option String) (limit : ℕ) :
    Except ListingError (Page InstrumentItem String) :=
  listing t.instrumentRows (fun row => row.1.instrumentUid) Prod.snd (.ok ∘ instrumentItem)
    InstrumentItem.instrumentUid InstrumentItem.instrumentUid cursor limit

/-- `ApiRepository.sectors(cursor, limit)` -/
def sectorsPage (cursor : Option String) (limit : ℕ) :
    Except ListingError (Page SectorItem String) :=
  listing t.sectorRows (fun row => row.1.sectorUid) Prod.snd (.ok ∘ sectorItem)
    SectorItem.sectorUid SectorItem.sectorUid cursor limit

/-- `ApiRepository.sector_members(uid, cursor, limit)` -/
def sectorMembers (uid : Uid) (cursor : Option String) (limit : ℕ) :
    Except ListingError (Page SectorMemberItem String) := do
  let _ ← t.sector uid
  listing (t.sectorMemberRows uid) (fun row => row.1.instrumentUid) Prod.snd
    (.ok ∘ sectorMemberItem) SectorMemberItem.instrumentUid SectorMemberItem.instrumentUid cursor
    limit

/-- `ApiRepository.transitions(subject_uid, cursor, limit)` -/
def transitions (subjectUid : Uid) (cursor : Option String) (limit : ℕ) :
    Except ListingError (Page TransitionItem String) := do
  t.requireSubject subjectUid
  listing (t.database.analysis.stateTransition.filter fun r => r.subjectUid = subjectUid)
    (fun row => columns row.occurredAt row.transitionUid) toLex (.ok ∘ transitionItem)
    (fun item => formatRfc3339 item.occurredAt) TransitionItem.transitionUid cursor limit

/-- `ApiRepository.facts(subject_uid, cursor, limit)` -/
def facts (subjectUid : Uid) (cursor : Option String) (limit : ℕ) :
    Except ListingError (Page FactItem String) := do
  t.requireSubject subjectUid
  listing (t.factRows subjectUid) (fun row => columns row.2.asOfTime row.1.factUid) toLex
    (.ok ∘ factItem) (fun item => formatRfc3339 item.asOfTime) FactItem.factUid cursor limit

/-- `ApiRepository.events(cursor, limit)` -/
def events (cursor : Option String) (limit : ℕ) :
    Except ListingError (Page EventSummaryView String) :=
  listing t.eventRows (fun row => columns row.2.1.updatedAt row.1.eventUid) toLex t.eventItem
    (fun item => formatRfc3339 item.asOfTime) EventSummaryView.eventUid cursor limit

/-- `ApiRepository.event_versions(uid, cursor, limit)` -/
def eventVersions (uid : Uid) (cursor : Option String) (limit : ℕ) :
    Except ListingError (Page EventVersionItem String) := do
  t.requireEvent uid
  listing (t.eventVersionRows uid) (fun row => columns row.1.createdAt row.1.eventVersionUid) toLex
    t.eventVersionItem (fun item => formatRfc3339 item.summary.asOfTime)
    (fun item => item.summary.eventVersionUid) cursor limit

/-- `ApiRepository.notifications(cursor, limit)` -/
def notifications (cursor : Option String) (limit : ℕ) :
    Except ListingError (Page NotificationItem String) :=
  listing t.notificationRows (fun row => columns row.1.createdAt row.1.intentUid) toLex
    notificationItem (fun item => formatRfc3339 item.createdAt) NotificationItem.intentUid cursor
    limit

/-- `ApiRepository.audit(cursor, limit)` -/
def audit (cursor : Option String) (limit : ℕ) : Except ListingError (Page AuditItem String) :=
  listing t.database.analysis.auditRecord (fun row => columns row.createdAt row.auditUid) toLex
    (.ok ∘ auditItem) (fun item => formatRfc3339 item.record.createdAt)
    (fun item => item.record.auditUid) cursor limit

end ApiTables

end MarketMonitor
