import Mathlib.Data.List.Dedup
import Mathlib.Data.String.Basic
import MarketMonitor.Library.Run
import MarketMonitor.Persistence.MarketSchema

/-!
# Versions of the block files

Each recorded block file is a version of its filename with the memberships of the file,
unless a version of the filename has its hash already. The readers take the version with
the highest number.
-/

namespace MarketMonitor

open Transaction

/-! ## Recording a version -/

/-- `TdxBlockArtifact`. -/
structure TdxBlockArtifact where
  filename : String
  sourceServer : String
  sizeBytes : ℕ
  serverHash : Option String
  sha256 : String
  fetchedAt : Instant
  parserVersion : String
  deriving DecidableEq, Repr

/-- `_block_artifact(artifact)`. -/
def checkBlockArtifact (artifact : TdxBlockArtifact) : Except Exn Unit := do
  check (artifact.filename ∈ blockFilenames) (valueError "unsupported TDX block artifact")
  check (artifact.sourceServer ≠ "") (valueError "invalid TDX block artifact metadata")

/-- `_membership(membership)`, whose kinds are those of the type. -/
def checkMembership (m : TdxBlockMembership) : Except Exn Unit :=
  check ((m.market = 0 ∨ m.market = 1) ∧ IsCode m.code.toList)
    (valueError "invalid TDX instrument identity")

def MembershipKind.text : MembershipKind → String
  | .indexMembership => "IndexMembership"
  | .conceptMembership => "ConceptMembership"
  | .themeMembership => "ThemeMembership"
  | .styleFactorMembership => "StyleFactorMembership"
  | .statusMembership => "StatusMembership"
  | .tdxCuratedMembership => "TDXCuratedMembership"

/-- The sort key of a membership. -/
def TdxBlockMembership.sortKey (m : TdxBlockMembership) :
    String ×ₗ ℕ ×ₗ String ×ₗ String :=
  toLex (m.blockName, toLex (m.market, toLex (m.code, m.membershipKind.text)))

/-- `sorted(set(memberships), key=…)`. -/
def uniqueMemberships (memberships : List TdxBlockMembership) : List TdxBlockMembership :=
  memberships.dedup.insertionSort fun m m' => m.sortKey ≤ m'.sortKey

/-- The versions of a filename. -/
def MarketTables.blockVersions (tables : MarketTables) (filename : String) :
    List TdxBlockArtifactVersion :=
  tables.tdxBlockArtifactVersion.filter fun v => v.filename = filename

/-- The row of a new version. -/
def TdxBlockArtifact.row (artifact : TdxBlockArtifact) (epochUid uid : Uid) (version : ℕ) :
    TdxBlockArtifactVersion :=
  ⟨uid, epochUid, artifact.filename, version, artifact.sourceServer, artifact.sizeBytes,
    artifact.serverHash, artifact.sha256, artifact.fetchedAt, artifact.parserVersion⟩

/-- The transaction of `record_block_version`. -/
def recordBlockVersionCommand (artifacts : ArtifactTables) (epochUid : Uid)
    (artifact : TdxBlockArtifact) (memberships : List TdxBlockMembership) (uid : Uid) :
    MarketCommand (Option Uid) := do
  let tables ← get
  let versions := tables.blockVersions artifact.filename
  if ∃ v ∈ versions, v.artifactSha256 = artifact.sha256 then
    return none
  else do
    -- The foreign keys of the epoch and of the artifact.
    require ((∃ e ∈ tables.marketSourceEpoch, e.epochUid = epochUid) ∧
      ∃ a ∈ artifacts.artifactObject, a.sha256 = artifact.sha256) integrityError
    insertInto tdxBlockArtifactVersionTable integrityError
      (artifact.row epochUid uid
        (nextOrder (versions.map TdxBlockArtifactVersion.version)))
    forM (uniqueMemberships memberships) fun m => do
      fromExcept (checkMembership m)
      insertInto tdxBlockMembershipTable integrityError ⟨uid, m⟩
    return some uid

/-- `TdxStorage.record_block_version(epoch_uid, artifact, memberships)`. -/
def recordBlockVersion (artifacts : ArtifactTables) (epochUid : Uid)
    (artifact : TdxBlockArtifact) (memberships : List TdxBlockMembership) (uid : Uid) :
    MarketCommand (Option Uid) := do
  fromExcept (checkBlockArtifact artifact)
  atomically (recordBlockVersionCommand artifacts epochUid artifact memberships uid)

/-! ## Reading the versions -/

/-- The version of a filename with the highest number. -/
def MarketTables.highestVersion (tables : MarketTables) (filename : String) :
    Option TdxBlockArtifactVersion :=
  latest TdxBlockArtifactVersion.version (tables.blockVersions filename)

/-- The version of a filename that `TdxSectorOnboarding.synchronize` reads at an instant. -/
def MarketTables.latestBlock (tables : MarketTables) (filename : String) (instant : Instant) :
    Option TdxBlockArtifactVersion :=
  latest TdxBlockArtifactVersion.version
    ((tables.blockVersions filename).filter fun v => v.fetchedAt ≤ instant)

/-- The memberships of a version. -/
def MarketTables.membershipsOf (tables : MarketTables) (uid : Uid) : List TdxBlockMembership :=
  (tables.tdxBlockMembership.filter fun r => r.blockVersionUid = uid).map
    TdxBlockMembershipRow.membership

/-! ## The course of a recording -/

theorem mem_uniqueMemberships {memberships : List TdxBlockMembership} {m : TdxBlockMembership} :
    m ∈ uniqueMemberships memberships ↔ m ∈ memberships := by
  rw [uniqueMemberships, (List.perm_insertionSort _ _).mem_iff, List.mem_dedup]

theorem WellFormedMemberships.unique {memberships : List TdxBlockMembership}
    (h : WellFormedMemberships memberships) :
    ((uniqueMemberships memberships).map TdxBlockMembership.key).Nodup := by
  have hdedup : memberships.dedup = memberships :=
    List.dedup_eq_self.mpr h.nodup.of_map
  have hperm : (uniqueMemberships memberships).Perm memberships := by
    rw [uniqueMemberships, hdedup]
    exact List.perm_insertionSort _ _
  exact (hperm.map _).nodup_iff.mpr h.nodup

/-- The tables with more memberships of a version. -/
def MarketTables.withMemberships (tables : MarketTables) (uid : Uid)
    (memberships : List TdxBlockMembership) : MarketTables :=
  let rows := memberships.map (TdxBlockMembershipRow.mk uid)
  { tables with tdxBlockMembership := tables.tdxBlockMembership ++ rows }

/-- The tables with one more version and its memberships. -/
def MarketTables.withVersion (tables : MarketTables) (row : TdxBlockArtifactVersion)
    (memberships : List TdxBlockMembership) : MarketTables :=
  let versions := tables.tdxBlockArtifactVersion ++ [row]
  { tables with tdxBlockArtifactVersion := versions }.withMemberships row.blockVersionUid
    (uniqueMemberships memberships)

/-- What a recording needs of the tables besides the versions of its filename. -/
structure BlockRecordable (artifacts : ArtifactTables) (tables : MarketTables) (epochUid : Uid)
    (artifact : TdxBlockArtifact) (uid : Uid) : Prop where
  valid : checkBlockArtifact artifact = .ok ()
  epoch : ∃ e ∈ tables.marketSourceEpoch, e.epochUid = epochUid
  registered : ∃ a ∈ artifacts.artifactObject, a.sha256 = artifact.sha256
  fresh : ∀ v ∈ tables.tdxBlockArtifactVersion, v.blockVersionUid ≠ uid
  owned : ∀ r ∈ tables.tdxBlockMembership, ∃ v ∈ tables.tdxBlockArtifactVersion,
    v.blockVersionUid = r.blockVersionUid

variable {artifacts : ArtifactTables} {tables : MarketTables} {epochUid uid : Uid}
  {artifact : TdxBlockArtifact} {memberships : List TdxBlockMembership}

/-- A hash that is there already : nothing is written. -/
theorem recordBlockVersion_known (h : checkBlockArtifact artifact = .ok ())
    (hknown : ∃ v ∈ tables.blockVersions artifact.filename, v.artifactSha256 = artifact.sha256) :
    (recordBlockVersion artifacts epochUid artifact memberships uid).run tables =
      .ok none tables := by
  rw [recordBlockVersion, run_bind_of_ok (run_fromExcept_eq_ok.mpr ⟨h, rfl⟩),
    run_atomically_eq_ok, recordBlockVersionCommand, run_bind_of_ok (run_get tables)]
  dsimp only
  rw [if_pos hknown]
  rfl

/-- The insertion of the memberships of a new version. -/
theorem run_forM_memberships {rows : List TdxBlockMembership}
    (hvalid : ∀ m ∈ rows, checkMembership m = .ok ())
    (hkeys : (rows.map TdxBlockMembership.key).Nodup)
    (hfresh : ∀ r ∈ tables.tdxBlockMembership, r.blockVersionUid = uid →
      r.membership.key ∉ rows.map TdxBlockMembership.key) :
    (forM rows fun m => do
        fromExcept (checkMembership m)
        insertInto tdxBlockMembershipTable integrityError ⟨uid, m⟩ :
      MarketCommand PUnit).run tables = .ok () (tables.withMemberships uid rows) := by
  induction rows generalizing tables with
  | nil =>
    rw [run_forM_nil_eq_ok, MarketTables.withMemberships, List.map_nil, List.append_nil]
  | cons m rows ih =>
    rw [List.map_cons, List.nodup_cons] at hkeys
    rw [run_forM_cons_eq_ok]
    refine ⟨tables.withMemberships uid [m], run_bind_eq_ok.mpr
      ⟨(), tables, run_fromExcept_eq_ok.mpr ⟨hvalid m List.mem_cons_self, rfl⟩,
        run_insertInto_eq_ok.mpr ⟨?_, rfl⟩⟩, ?_⟩
    · intro r hr
      have hne : uid = r.blockVersionUid → m.key ≠ r.membership.key := fun huid hkey =>
        hfresh r hr huid.symm (by rw [← hkey]; exact List.mem_map_of_mem List.mem_cons_self)
      simpa [tdxBlockMembershipTable] using hne
    · rw [ih (fun m' hm' => hvalid m' (List.mem_cons_of_mem _ hm')) hkeys.2 ?_]
      · simp only [MarketTables.withMemberships, List.map_cons, List.map_nil, List.append_assoc,
          List.singleton_append]
      · intro r hr huid
        rcases List.mem_append.mp hr with hr | hr
        · exact fun hkey => hfresh r hr huid (List.mem_cons_of_mem _ hkey)
        · rw [List.mem_singleton.mp hr]
          exact hkeys.1

/-- A hash that is new : the version after the others, with the memberships of the file. -/
theorem recordBlockVersion_new (h : BlockRecordable artifacts tables epochUid artifact uid)
    (hwf : WellFormedMemberships memberships)
    (hnew : ∀ v ∈ tables.blockVersions artifact.filename, v.artifactSha256 ≠ artifact.sha256) :
    (recordBlockVersion artifacts epochUid artifact memberships uid).run tables =
      .ok (some uid) (tables.withVersion (artifact.row epochUid uid
        (nextOrder ((tables.blockVersions artifact.filename).map
          TdxBlockArtifactVersion.version))) memberships) := by
  rw [recordBlockVersion, run_bind_of_ok (run_fromExcept_eq_ok.mpr ⟨h.valid, rfl⟩),
    run_atomically_eq_ok, recordBlockVersionCommand, run_bind_of_ok (run_get tables)]
  dsimp only
  have hknown : ¬∃ v ∈ tables.blockVersions artifact.filename,
      v.artifactSha256 = artifact.sha256 := fun ⟨v, hv, hsha⟩ => hnew v hv hsha
  rw [if_neg hknown, run_bind_of_ok (a := ()) (run_require_eq_ok.mpr
    ⟨⟨h.epoch, h.registered⟩, rfl⟩)]
  have hinsert : (insertInto tdxBlockArtifactVersionTable integrityError
      (artifact.row epochUid uid (nextOrder ((tables.blockVersions artifact.filename).map
        TdxBlockArtifactVersion.version))) : MarketCommand Unit).run tables =
      .ok () { tables with tdxBlockArtifactVersion := tables.tdxBlockArtifactVersion ++
        [artifact.row epochUid uid (nextOrder ((tables.blockVersions artifact.filename).map
          TdxBlockArtifactVersion.version))] } := by
    refine run_insertInto_eq_ok.mpr ⟨fun v hv => ?_, rfl⟩
    have huid : uid ≠ v.blockVersionUid := (h.fresh v hv).symm
    have hname : artifact.filename = v.filename →
        nextOrder ((tables.blockVersions artifact.filename).map
          TdxBlockArtifactVersion.version) ≠ v.version ∧ artifact.sha256 ≠ v.artifactSha256 := by
      intro hfilename
      have hmem : v ∈ tables.blockVersions artifact.filename :=
        List.mem_filter.mpr ⟨hv, by simpa using hfilename.symm⟩
      exact ⟨(lt_nextOrder (List.mem_map_of_mem hmem)).ne', (hnew v hmem).symm⟩
    simp only [tdxBlockArtifactVersionTable, TdxBlockArtifact.row, decide_eq_false_iff_not]
    rintro (huid' | ⟨hfilename, hversion | hsha⟩)
    · exact huid huid'
    · exact (hname hfilename).1 hversion
    · exact (hname hfilename).2 hsha
  rw [run_bind_of_ok hinsert, run_bind_of_ok (a := ()) (run_forM_memberships ?_ hwf.unique ?_)]
  · rfl
  · intro m hm
    have hm := mem_uniqueMemberships.mp hm
    exact check_eq_ok.mpr ⟨hwf.market m hm, hwf.code m hm⟩
  · intro r hr huid
    obtain ⟨v, hv, hvuid⟩ := h.owned r hr
    exact absurd (hvuid.trans huid) (h.fresh v hv)

end MarketMonitor
