import MarketMonitor.Library.Course
import MarketMonitor.MarketData.BlockVersions
import MarketMonitor.MarketData.ListingEvidence
import MarketMonitor.MarketData.TradingClock
import MarketMonitor.Persistence.SectorSchema

/-!
# Onboarding of the sectors

`TdxSectorOnboarding.synchronize` : the blocks of the newest files with their primary members,
and for each block its sector, which is created when the block has none, and its membership of
the day, which is frozen when it comes from another version of the file. Each write is a
transaction of its own, and the process may stop between two of them.
-/

namespace MarketMonitor

open Transaction
open Transaction.Process (read transact)

/-! ## Blocks -/

/-- `(block_version_uid, filename, membership_kind, block_type, block_name)` -/
structure BlockKey where
  blockVersionUid : Uid
  filename : String
  membershipKind : MembershipKind
  blockType : ℕ
  blockName : String
  deriving DecidableEq, Repr

/-- The order of the tuples. -/
def BlockKey.order (key : BlockKey) :
    Lex (String × Lex (String × Lex (String × Lex (ℕ × String)))) :=
  toLex (key.blockVersionUid, toLex (key.filename, toLex (key.membershipKind.text,
    toLex (key.blockType, key.blockName))))

/-- `f"TDX:{filename}:{membership_kind}:{block_type}:{block_name}"` -/
def BlockKey.externalCode (key : BlockKey) : String :=
  "TDX:" ++ key.filename ++ ":" ++ key.membershipKind.text ++ ":" ++ toString key.blockType ++
    ":" ++ key.blockName

/-- A block with its members. -/
structure BlockGroup where
  key : BlockKey
  members : List Uid
  deriving DecidableEq, Repr

namespace MarketTables

variable (tables : MarketTables) (instant : Instant)

/-- A row of the query of `synchronize`, if the membership has one that is primary. -/
def blockRow (row : TdxBlockMembershipRow) : Option (BlockKey × Uid) := do
  let version ← tables.tdxBlockArtifactVersion.find? fun v =>
    v.blockVersionUid = row.blockVersionUid
  let newest ← tables.latestBlock version.filename instant
  if newest.blockVersionUid ≠ row.blockVersionUid then none else
  if row.membership.membershipKind ≠ .conceptMembership ∧
    row.membership.membershipKind ≠ .themeMembership then none else
  let instrumentUid ← tables.onboardingMapping "NATIVE_TDX"
    (toString row.membership.market ++ ":" ++ row.membership.code) instant
  let instrument ← tables.instrument.find? fun i => i.instrumentUid = instrumentUid
  if isPrimaryAShare instrument.instrumentKind row.membership.market row.membership.code then
    some (⟨row.blockVersionUid, version.filename, row.membership.membershipKind,
      row.membership.blockType, row.membership.blockName⟩, instrumentUid)
  else none

/-- `sorted(groups.items())` -/
def blockGroups : List BlockGroup :=
  let rows := tables.tdxBlockMembership.filterMap (tables.blockRow instant)
  ((rows.map Prod.fst).dedup.insertionSort fun a b => a.order ≤ b.order).map fun key =>
    ⟨key, ((rows.filter fun r => r.1 = key).map Prod.snd).dedup⟩

end MarketTables

/-! ## Tables -/

/-- The tables the onboarding reads and writes, and how many identifiers `new_uid()` has
given. -/
structure OnboardingState where
  market : MarketTables
  sectors : SectorTables
  drawn : ℕ

namespace OnboardingState

def sectorTable : Table OnboardingState Sector where
  rows s := s.sectors.sector
  put rows s := { s with sectors := { s.sectors with sector := rows } }
  clash a b := a.sectorUid = b.sectorUid
  rows_put _ _ := rfl
  put_rows _ := rfl
  put_put _ _ _ := rfl

def sectorVersionTable : Table OnboardingState SectorVersion where
  rows s := s.sectors.sectorVersion
  put rows s := { s with sectors := { s.sectors with sectorVersion := rows } }
  clash a b := a.sectorVersionUid = b.sectorVersionUid ∨
    (a.sectorUid = b.sectorUid ∧ a.version = b.version)
  rows_put _ _ := rfl
  put_rows _ := rfl
  put_put _ _ _ := rfl

def mappingTable : Table OnboardingState ProviderMapping where
  rows s := s.market.providerMapping
  put rows s := { s with market := { s.market with providerMapping := rows } }
  clash a b := a.mappingUid = b.mappingUid ∨
    (a.providerKey = b.providerKey ∧ a.externalCode = b.externalCode ∧ a.validFrom = b.validFrom)
  rows_put _ _ := rfl
  put_rows _ := rfl
  put_put _ _ _ := rfl

def subjectTable : Table OnboardingState AnalysisSubject where
  rows s := s.sectors.analysisSubject
  put rows s := { s with sectors := { s.sectors with analysisSubject := rows } }
  clash a b := a.subjectUid = b.subjectUid ∨ a.target = b.target
  rows_put _ _ := rfl
  put_rows _ := rfl
  put_put _ _ _ := rfl

def membershipVersionTable : Table OnboardingState SectorMembershipVersion where
  rows s := s.sectors.sectorMembershipVersion
  put rows s := { s with sectors := { s.sectors with sectorMembershipVersion := rows } }
  clash a b := a.membershipVersionUid = b.membershipVersionUid ∨
    (a.sectorUid = b.sectorUid ∧ a.tradingDate = b.tradingDate ∧ a.version = b.version)
  rows_put _ _ := rfl
  put_rows _ := rfl
  put_put _ _ _ := rfl

def memberTable : Table OnboardingState SectorMember where
  rows s := s.sectors.sectorMembership
  put rows s := { s with sectors := { s.sectors with sectorMembership := rows } }
  clash a b := a.membershipVersionUid = b.membershipVersionUid ∧ a.instrumentUid = b.instrumentUid
  rows_put _ _ := rfl
  put_rows _ := rfl
  put_put _ _ _ := rfl

def membershipSourceTable : Table OnboardingState TdxSectorMembershipSource where
  rows s := s.sectors.tdxSectorMembershipSource
  put rows s := { s with sectors := { s.sectors with tdxSectorMembershipSource := rows } }
  clash a b := a.membershipVersionUid = b.membershipVersionUid
  rows_put _ _ := rfl
  put_rows _ := rfl
  put_put _ _ _ := rfl

end OnboardingState

/-- A command on these tables. -/
abbrev OnboardingCommand (α : Type) := EStateM Exn OnboardingState α

/-- A process that writes them. -/
abbrev OnboardingProcess (α : Type) := Transaction.Process OnboardingState Exn α

/-! ## Writes -/

section Writes

variable (uids : ℕ → Uid)

/-- `new_uid()` -/
def newUid : OnboardingCommand Uid := do
  let s ← get
  set { s with drawn := s.drawn + 1 }
  return uids s.drawn

/-- `create_sector(kind, created_at)` -/
def createSector (kind : SectorKind) : OnboardingProcess Uid := transact do
  let uid ← newUid uids
  insertInto OnboardingState.sectorTable integrityError ⟨uid, kind⟩
  return uid

/-- The sector of a foreign key is there. -/
def OnboardingState.HasSector (s : OnboardingState) (sectorUid : Uid) : Prop :=
  ∃ x ∈ s.sectors.sector, x.sectorUid = sectorUid

instance (s : OnboardingState) (sectorUid : Uid) : Decidable (s.HasSector sectorUid) :=
  inferInstanceAs (Decidable (∃ x ∈ s.sectors.sector, _))

/-- `add_sector_version(sector_uid, name, valid_from)` -/
def addSectorVersion (sectorUid : Uid) (name : String) (validFrom : Instant) :
    OnboardingProcess Uid := transact do
  let uid ← newUid uids
  let s ← get
  let versions := s.sectors.sectorVersion.filter fun v => v.sectorUid = sectorUid
  require (∀ newest ∈ latest SectorVersion.version versions, newest.validFrom < validFrom)
    (valueError "sector versions must advance effective time")
  require (s.HasSector sectorUid) integrityError
  insertInto OnboardingState.sectorVersionTable integrityError
    ⟨uid, sectorUid, nextOrder (versions.map SectorVersion.version), name, validFrom⟩
  return uid

/-- `map_sector(provider, external_code, sector_uid, valid_from)` -/
def mapSector (provider externalCode : String) (sectorUid : Uid) (validFrom : Instant) :
    OnboardingProcess Uid := transact do
  let uid ← newUid uids
  require ((← get).HasSector sectorUid) integrityError
  insertInto OnboardingState.mappingTable integrityError
    ⟨uid, provider, externalCode, .sector sectorUid, validFrom, none⟩
  return uid

/-- The foreign key of a subject holds. -/
def OnboardingState.HasTarget (s : OnboardingState) : SubjectTarget → Prop
  | .market => True
  | .sector uid => s.HasSector uid
  | .instrument uid => ∃ i ∈ s.market.instrument, i.instrumentUid = uid

instance (s : OnboardingState) (target : SubjectTarget) : Decidable (s.HasTarget target) :=
  match target with
  | .market => inferInstanceAs (Decidable True)
  | .sector uid => inferInstanceAs (Decidable (s.HasSector uid))
  | .instrument uid =>
    inferInstanceAs (Decidable (∃ i ∈ s.market.instrument, i.instrumentUid = uid))

/-- `ensure_analysis_subject(kind, target_uid)` -/
def ensureAnalysisSubject (target : SubjectTarget) : OnboardingProcess Uid := do
  let existing ← read fun s => s.sectors.analysisSubject.find? fun a => a.target = target
  match existing with
  | some subject => return subject.subjectUid
  | none => transact do
    let uid ← newUid uids
    require ((← get).HasTarget target) integrityError
    insertInto OnboardingState.subjectTable integrityError ⟨uid, target⟩
    return uid

/-- The versions of the membership of a sector on a date. -/
def OnboardingState.membershipVersions (s : OnboardingState) (sectorUid : Uid)
    (tradingDate : String) : List SectorMembershipVersion :=
  s.sectors.sectorMembershipVersion.filter fun v =>
    v.sectorUid = sectorUid ∧ v.tradingDate = tradingDate

/-- `freeze_membership(sector_uid, trading_date, instrument_uids, frozen_at, correction)` -/
def freezeMembership (sectorUid : Uid) (tradingDate : String) (instrumentUids : List Uid)
    (frozenAt : Instant) (correction : Bool) : OnboardingProcess Uid := transact do
  let s ← get
  let versions := s.membershipVersions sectorUid tradingDate
  match latest SectorMembershipVersion.version versions, correction with
  | some newest, false => return newest.membershipVersionUid
  | _, _ =>
    let uid ← newUid uids
    require (s.HasSector sectorUid) integrityError
    insertInto OnboardingState.membershipVersionTable integrityError
      ⟨uid, sectorUid, tradingDate, nextOrder (versions.map SectorMembershipVersion.version),
        frozenAt, frozenAt, correction, if correction then "CORRECTION" else "DAILY_FREEZE"⟩
    forM (instrumentUids.dedup.insertionSort (· ≤ ·)) fun instrumentUid => do
      require (∃ i ∈ s.market.instrument, i.instrumentUid = instrumentUid) integrityError
      insertInto OnboardingState.memberTable integrityError ⟨uid, instrumentUid, "MEMBER"⟩
    return uid

/-- `record_sector_membership_source(...)` -/
def recordSectorMembershipSource (source : TdxSectorMembershipSource) : OnboardingProcess Unit :=
  if source.membershipKind ≠ .conceptMembership ∧ source.membershipKind ≠ .themeMembership then
    Process.raise (valueError "only TDX Concept and Theme memberships are sector subjects")
  else transact do
    let s ← get
    match s.sectors.tdxSectorMembershipSource.find? fun x =>
        x.membershipVersionUid = source.membershipVersionUid with
    | some existing =>
      require (existing = source) (valueError "TDX sector membership source is immutable")
    | none =>
      require (∃ v ∈ s.sectors.sectorMembershipVersion,
        v.membershipVersionUid = source.membershipVersionUid) integrityError
      require (∃ v ∈ s.market.tdxBlockArtifactVersion, v.blockVersionUid = source.blockVersionUid)
        integrityError
      insertInto OnboardingState.membershipSourceTable integrityError source

/-! ## Synchronizing -/

/-- `_sector_uid(filename, membership_kind, block_type, block_name, observed_at)` -/
def sectorUidOf (key : BlockKey) (observedAt : Instant) : OnboardingProcess Uid := do
  let mapped ← read fun s =>
    s.market.resolveProviderMapping "NATIVE_TDX" key.externalCode observedAt
  match mapped with
  | some sectorUid =>
    let _ ← ensureAnalysisSubject uids (.sector sectorUid)
    return sectorUid
  | none =>
    let sectorUid ← createSector uids .concept
    let _ ← addSectorVersion uids sectorUid key.blockName observedAt
    let _ ← mapSector uids "NATIVE_TDX" key.externalCode sectorUid observedAt
    let _ ← ensureAnalysisSubject uids (.sector sectorUid)
    return sectorUid

/-- `_latest_membership(sector_uid, trading_date)` : its version, with the version of the block
it comes from. -/
def OnboardingState.latestMembership (s : OnboardingState) (sectorUid : Uid)
    (tradingDate : String) : Option (SectorMembershipVersion × Option Uid) :=
  (latest SectorMembershipVersion.version (s.membershipVersions sectorUid tradingDate)).map
    fun v => (v, (s.sectors.tdxSectorMembershipSource.find? fun x =>
      x.membershipVersionUid = v.membershipVersionUid).map
        TdxSectorMembershipSource.blockVersionUid)

/-- `date.isoformat()` -/
def isoformat (date : Date) : String :=
  let (year, month, day) := civil date
  String.ofList (zeroPad 4 year ++ '-' :: zeroPad 2 month ++ '-' :: zeroPad 2 day)

/-- The membership of the day, from the lookup of the latest. -/
def synchronizeMembership (observedAt : Instant) (group : BlockGroup) (sectorUid : Uid) :
    OnboardingProcess (List Uid) := do
  let tradingDate := isoformat (chinaDate observedAt)
  let newest ← read fun s => s.latestMembership sectorUid tradingDate
  if newest.bind Prod.snd = some group.key.blockVersionUid then return []
  else
    let membershipVersionUid ← freezeMembership uids sectorUid tradingDate group.members observedAt
      newest.isSome
    recordSectorMembershipSource ⟨membershipVersionUid, group.key.blockVersionUid,
      group.key.membershipKind, group.key.blockName, group.key.blockType⟩
    return [membershipVersionUid]

/-- The body of the loop of `synchronize`. -/
def synchronizeGroup (observedAt : Instant) (group : BlockGroup) :
    OnboardingProcess (List Uid) := do
  let sectorUid ← sectorUidOf uids group.key observedAt
  synchronizeMembership uids observedAt group sectorUid

/-- The loop of `synchronize`. -/
def synchronizeGroups (observedAt : Instant) : List BlockGroup → OnboardingProcess (List Uid)
  | [] => return []
  | group :: groups => do
    let created ← synchronizeGroup uids observedAt group
    let rest ← synchronizeGroups observedAt groups
    return created ++ rest

/-- `TdxSectorOnboarding.synchronize(epoch_uid, observed_at)` -/
def synchronize (observedAt : Instant) : OnboardingProcess (List Uid) := do
  let groups ← read fun s => s.market.blockGroups observedAt
  synchronizeGroups uids observedAt groups

end Writes

/-- `sector_subject_mapping_missing` of `reconcile` : the sectors with a version that have no
analysis subject. -/
def OnboardingState.subjectMappingMissing (s : OnboardingState) : ℕ :=
  (s.sectors.sector.filter fun x =>
    (∃ v ∈ s.sectors.sectorVersion, v.sectorUid = x.sectorUid) ∧
      ¬∃ a ∈ s.sectors.analysisSubject, a.target = .sector x.sectorUid).length

end MarketMonitor
