import MarketMonitor.MarketData.Blocks
import MarketMonitor.Persistence.Schema

/-!
# The tables of the sectors

The sectors with their versions, the analysis subjects, and the memberships of the sectors by
trading date.
-/

namespace MarketMonitor

inductive SectorKind where
  | industry | concept
  deriving DecidableEq, Repr

/-- `sector` -/
structure Sector where
  sectorUid : Uid
  sectorKind : SectorKind
  deriving DecidableEq, Repr

/-- `sector_version` -/
structure SectorVersion where
  sectorVersionUid : Uid
  sectorUid : Uid
  version : ℕ
  name : String
  validFrom : Instant
  deriving DecidableEq, Repr

/-- What is analysed : the columns `subject_kind`, `instrument_uid` and `sector_uid`, which a
`CHECK` ties together. -/
inductive SubjectTarget where
  | market
  | sector (uid : Uid)
  | instrument (uid : Uid)
  deriving DecidableEq, Repr

/-- `analysis_subject` -/
structure AnalysisSubject where
  subjectUid : Uid
  target : SubjectTarget
  deriving DecidableEq, Repr

/-- `sector_membership_version` -/
structure SectorMembershipVersion where
  membershipVersionUid : Uid
  sectorUid : Uid
  tradingDate : String
  version : ℕ
  validFrom : Instant
  frozenAt : Instant
  rewarmRequired : Bool
  reason : String
  deriving DecidableEq, Repr

/-- `sector_membership` -/
structure SectorMember where
  membershipVersionUid : Uid
  instrumentUid : Uid
  memberRole : String
  deriving DecidableEq, Repr

/-- `tdx_sector_membership_source` -/
structure TdxSectorMembershipSource where
  membershipVersionUid : Uid
  blockVersionUid : Uid
  membershipKind : MembershipKind
  blockName : String
  blockType : ℕ
  deriving DecidableEq, Repr

/-- The tables of the sectors. -/
structure SectorTables where
  sector : List Sector
  sectorVersion : List SectorVersion
  analysisSubject : List AnalysisSubject
  sectorMembershipVersion : List SectorMembershipVersion
  sectorMembership : List SectorMember
  tdxSectorMembershipSource : List TdxSectorMembershipSource
  deriving Repr

/-- The tables the migrations create. -/
def SectorTables.empty : SectorTables := ⟨[], [], [], [], [], []⟩

/-- The primary keys and the unique indexes. -/
structure SectorTables.Keys (t : SectorTables) : Prop where
  sector : (t.sector.map Sector.sectorUid).Nodup
  sectorVersion : (t.sectorVersion.map fun v => (v.sectorUid, v.version)).Nodup
  analysisSubject : (t.analysisSubject.map AnalysisSubject.subjectUid).Nodup
  /-- `analysis_subject_sector_uidx` and its siblings -/
  subjectTarget : (t.analysisSubject.map AnalysisSubject.target).Nodup
  membershipVersionUid :
    (t.sectorMembershipVersion.map SectorMembershipVersion.membershipVersionUid).Nodup
  membershipVersion :
    (t.sectorMembershipVersion.map fun v => (v.sectorUid, v.tradingDate, v.version)).Nodup
  sectorMembership :
    (t.sectorMembership.map fun m => (m.membershipVersionUid, m.instrumentUid)).Nodup
  membershipSource : (t.tdxSectorMembershipSource.map
    TdxSectorMembershipSource.membershipVersionUid).Nodup

end MarketMonitor
