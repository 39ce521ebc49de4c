import MarketMonitor.MarketData.SectorRecovery

/-!
# Memberships of the newest block files

Block files are recorded and the sectors synchronized, in any order and with stops, while the
mappings of the stocks stay as they are. After a run the membership of the day of each block
with an eligible stock is that of the newest version of its file. A block that has none is not
among those of the run : its sector keeps what an earlier run of the day froze.
-/

namespace MarketMonitor

open Transaction
open Transaction.Process (Does stoppedAfter does_read)

/-! ## Recording a version -/

/-- The versions of the block files up to a time. -/
structure MarketTables.BlockFiles (tables : MarketTables) (now : Instant) : Prop where
  unique : (tables.tdxBlockArtifactVersion.map TdxBlockArtifactVersion.blockVersionUid).Nodup
  filenames : ∀ v ∈ tables.tdxBlockArtifactVersion, v.filename ∈ blockFilenames
  fetched : ∀ v ∈ tables.tdxBlockArtifactVersion, v.fetchedAt ≤ now

section Recording

variable {artifacts : ArtifactTables} {tables tables' : MarketTables} {epochUid uid : Uid}
  {artifact : TdxBlockArtifact} {memberships : List TdxBlockMembership}

/-- The memberships of a version are all inserted. -/
theorem withMemberships_of_run {rows : List TdxBlockMembership} {u : PUnit}
    (h : (forM rows fun m => do
        fromExcept (checkMembership m)
        insertInto tdxBlockMembershipTable integrityError ⟨uid, m⟩ :
      MarketCommand PUnit).run tables = .ok u tables') :
    tables' = tables.withMemberships uid rows := by
  induction rows generalizing tables with
  | nil =>
    rw [run_forM_nil_eq_ok] at h
    rw [← h, MarketTables.withMemberships, List.map_nil, List.append_nil]
  | cons m rows ih =>
    obtain ⟨_, hm, hrows⟩ := run_forM_cons_eq_ok.mp h
    obtain ⟨_, _, hcheck, hinsert⟩ := run_bind_eq_ok.mp hm
    obtain ⟨-, rfl⟩ := run_fromExcept_eq_ok.mp hcheck
    obtain ⟨-, rfl⟩ := run_insertInto_eq_ok.mp hinsert
    have happend := List.append_cons tables.tdxBlockMembership ⟨uid, m⟩
      (rows.map (TdxBlockMembershipRow.mk uid))
    rw [ih hrows, MarketTables.withMemberships, MarketTables.withMemberships, List.map_cons,
      happend]
    rfl

/-- A recording adds nothing, or a version under a new identifier with its memberships. -/
theorem recordBlockVersion_eq_ok {result : Option Uid}
    (h : (recordBlockVersion artifacts epochUid artifact memberships uid).run tables =
      .ok result tables') :
    tables' = tables ∨ (artifact.filename ∈ blockFilenames ∧
      (∀ v ∈ tables.tdxBlockArtifactVersion, v.blockVersionUid ≠ uid) ∧
      ∃ version, tables' = tables.withVersion (artifact.row epochUid uid version) memberships) := by
  rw [recordBlockVersion, run_bind_eq_ok] at h
  obtain ⟨_, _, hcheck, h⟩ := h
  obtain ⟨hvalid, rfl⟩ := run_fromExcept_eq_ok.mp hcheck
  rw [run_atomically_eq_ok, recordBlockVersionCommand, run_bind_of_ok (run_get _)] at h
  dsimp only at h
  split_ifs at h with hknown
  · left
    exact (run_pure_eq_ok.mp h).2.symm
  · right
    obtain ⟨_, _, hrequire, h⟩ := run_bind_eq_ok.mp h
    obtain ⟨-, rfl⟩ := run_require_eq_ok.mp hrequire
    obtain ⟨_, _, hinsert, h⟩ := run_bind_eq_ok.mp h
    obtain ⟨hfree, rfl⟩ := run_insertInto_eq_ok.mp hinsert
    obtain ⟨_, _, hrows, h⟩ := run_bind_eq_ok.mp h
    obtain ⟨-, rfl⟩ := run_pure_eq_ok.mp h
    obtain ⟨_, hname, -⟩ := except_bind_eq_ok.mp hvalid
    refine ⟨check_eq_ok.mp hname, fun v hv heq => ?_, _, withMemberships_of_run hrows⟩
    have hclash := hfree v hv
    simp only [tdxBlockArtifactVersionTable, TdxBlockArtifact.row,
      decide_eq_false_iff_not] at hclash
    exact hclash (.inl heq.symm)

/-- A recording that raises adds nothing. -/
theorem recordBlockVersion_eq_error {e : Exn}
    (h : (recordBlockVersion artifacts epochUid artifact memberships uid).run tables =
      .error e tables') : tables' = tables := by
  rw [recordBlockVersion, run_bind_eq_error] at h
  rcases h with hcheck | ⟨_, _, hcheck, hatomic⟩
  · exact (run_fromExcept_eq_error.mp hcheck).2.symm
  · obtain ⟨-, rfl⟩ := run_fromExcept_eq_ok.mp hcheck
    exact run_atomically_eq_error hatomic

/-- A recorded version is newer than those of its file, and its members are of no other. -/
theorem eligible_withVersion {row : TdxBlockArtifactVersion} {since : Instant} {key : BlockKey}
    (hne : row.blockVersionUid ≠ key.blockVersionUid) {stock : Uid} :
    (tables.withVersion row memberships).Eligible since key stock ↔
      tables.Eligible since key stock := by
  constructor
  · rintro ⟨r, hr, huid, hrow⟩
    rcases List.mem_append.mp hr with hr | hr
    · exact ⟨r, hr, huid, hrow⟩
    · obtain ⟨m, -, rfl⟩ := List.mem_map.mp hr
      exact absurd huid hne
  · rintro ⟨r, hr, hrow⟩
    exact ⟨r, List.mem_append_left _ hr, hrow⟩

end Recording

/-! ## Histories -/

/-- The tables with others of the market data. -/
def OnboardingState.withMarket (s : OnboardingState) (market : MarketTables) : OnboardingState :=
  { s with market }

/-- Recordings of block files and runs of the onboarding up to a time, while the stocks of the
members stay as they are `since` a time. -/
inductive SectorHistory (uids : ℕ → Uid) (since : Instant) : Instant → OnboardingState → Prop
  | start {s : OnboardingState} (sectors : s.sectors = .empty)
      (blockMappings : ∀ key : BlockKey, s.blockMappings key.externalCode = [])
      (files : s.market.tdxBlockArtifactVersion = [])
      (mapping : ∀ n, s.drawn ≤ n → ∀ m ∈ s.market.providerMapping,
        m.mappingUid ≠ uids n ∧ m.target ≠ .sector (uids n))
      (steady : ∀ instant, since ≤ instant → ∀ m,
        s.market.stockOf instant m = s.market.stockOf since m) :
      SectorHistory uids since since s
  | record {now : Instant} {s : OnboardingState} (h : SectorHistory uids since now s)
      (artifacts : ArtifactTables) (epochUid : Uid) (artifact : TdxBlockArtifact)
      (memberships : List TdxBlockMembership) (uid : Uid) (later : now ≤ artifact.fetchedAt) :
      SectorHistory uids since artifact.fetchedAt (s.withMarket (stateAfter
        ((recordBlockVersion artifacts epochUid artifact memberships uid).run s.market)))
  | synchronize {now later : Instant} {s : OnboardingState} (h : SectorHistory uids since now s)
      (later_le : now ≤ later) (n : ℕ) :
      SectorHistory uids since later ((synchronize uids later).stoppedAfter n s)

/-- What holds of every history. -/
structure OnboardingState.Followed (uids : ℕ → Uid) (since now : Instant) (s : OnboardingState) :
    Prop where
  sound : s.Sound uids now
  frozen : s.Frozen since
  files : s.market.BlockFiles now
  since_le : since ≤ now

section Histories

variable {uids : ℕ → Uid} {since now : Instant} {s : OnboardingState}

/-- A recorded version is followed by what the files say. -/
theorem OnboardingState.Followed.record (h : s.Followed uids since now)
    {artifact : TdxBlockArtifact} (hlater : now ≤ artifact.fetchedAt)
    (hname : artifact.filename ∈ blockFilenames)
    {epochUid uid : Uid}
    (hfresh : ∀ v ∈ s.market.tdxBlockArtifactVersion, v.blockVersionUid ≠ uid) (version : ℕ)
    (memberships : List TdxBlockMembership) :
    (s.withMarket (s.market.withVersion (artifact.row epochUid uid version)
      memberships)).Followed uids since artifact.fetchedAt := by
  let row := artifact.row epochUid uid version
  have hnames : ∀ v ∈ s.market.tdxBlockArtifactVersion ++ [row], v.filename ∈ blockFilenames :=
    List.forall_mem_append.mpr ⟨h.files.filenames, List.forall_mem_singleton.mpr hname⟩
  have hwrite : OtherDataWrites uids s (s.withMarket (s.market.withVersion row memberships)) :=
    ⟨rfl, fun _ => rfl, hnames, le_rfl, fun n hn => (h.sound.unused n hn).mapping⟩
  refine ⟨(h.sound.write hwrite).mono hlater,
    ⟨h.frozen.steady, h.frozen.numbered, fun v hv x hx heq => ?_⟩, ⟨?_, hnames, ?_⟩,
    h.since_le.trans hlater⟩
  · -- The members of an older version stay the same.
    obtain ⟨key, hkey⟩ := h.frozen.sourced v hv x hx heq
    obtain ⟨b, hb, hbuid⟩ := hkey.recorded
    have hne : row.blockVersionUid ≠ key.blockVersionUid := fun heq' =>
      hfresh b hb (hbuid.trans heq'.symm)
    exact ⟨key, hkey.version, hkey.filename, ⟨b, List.mem_append_left _ hb, hbuid⟩, hkey.mapped,
      fun stock => (hkey.members stock).trans (eligible_withVersion hne).symm⟩
  · have hunique : ((s.market.tdxBlockArtifactVersion ++ [row]).map
        TdxBlockArtifactVersion.blockVersionUid).Nodup := by
      rw [List.map_append, List.nodup_append]
      refine ⟨h.files.unique, List.nodup_singleton _, fun uid' huid' uid'' huid'' => ?_⟩
      obtain ⟨v, hv, rfl⟩ := List.mem_map.mp huid'
      rw [List.map_singleton, List.mem_singleton] at huid''
      rw [huid'']
      exact hfresh v hv
    exact hunique
  · exact List.forall_mem_append.mpr ⟨fun v hv => (h.files.fetched v hv).trans hlater,
      List.forall_mem_singleton.mpr le_rfl⟩

theorem OnboardingState.Followed.mono (h : s.Followed uids since now) {later : Instant}
    (hle : now ≤ later) : s.Followed uids since later :=
  ⟨h.sound.mono hle, h.frozen, ⟨h.files.unique, h.files.filenames, fun v hv =>
    (h.files.fetched v hv).trans hle⟩, h.since_le.trans hle⟩

/-- What transactions of the onboarding keep. -/
theorem OnboardingState.Followed.progress (h : s.Followed uids since now) {touched : List String}
    {c : OnboardingState} (hprogress : OnboardingState.Progress uids now touched s c) :
    c.Followed uids since now := by
  refine ⟨hprogress.sound, hprogress.frozen since h.since_le h.frozen, ⟨?_, ?_, ?_⟩, h.since_le⟩
  · rw [hprogress.files.1]
    exact h.files.unique
  · rw [hprogress.files.1]
    exact h.files.filenames
  · rw [hprogress.files.1]
    exact h.files.fetched

/-- What happened is followed from the start on. -/
theorem SectorHistory.reachable (h : SectorHistory uids since now s)
    (huids : Function.Injective uids) : s.Followed uids since now := by
  induction h with
  | start sectors blockMappings files mapping steady =>
    have hreachable : OnboardingReachable uids since _ := .start sectors blockMappings
      (by rw [files]; exact fun v hv => absurd hv List.not_mem_nil) mapping
    refine ⟨hreachable.sound huids, ⟨steady, fun sectorUid date => ?_, ?_⟩, ⟨?_, ?_, ?_⟩, le_rfl⟩
    · rw [OnboardingState.membershipVersions, sectors]
      rfl
    · rw [sectors]
      exact fun v hv => absurd hv List.not_mem_nil
    · rw [files]
      exact List.nodup_nil
    · rw [files]
      exact fun v hv => absurd hv List.not_mem_nil
    · rw [files]
      exact fun v hv => absurd hv List.not_mem_nil
  | @record now s _ artifacts epochUid artifact memberships uid later ih =>
    cases hrun : (recordBlockVersion artifacts epochUid artifact memberships uid).run s.market with
    | ok result tables =>
      rcases recordBlockVersion_eq_ok hrun with rfl | ⟨hname, hfresh, version, rfl⟩
      · exact ih.mono later
      · exact ih.record later hname hfresh version memberships
    | error e tables =>
      rw [recordBlockVersion_eq_error hrun]
      exact ih.mono later
  | synchronize _ later_le n ih =>
    exact (ih.mono later_le).progress ((ih.sound.mono later_le).stopped huids n).1

end Histories

/-! ## Runs -/

namespace MarketTables

variable (tables : MarketTables) (instant : Instant)

/-- The block is of the newest version of its file at the time, and of a kind that is
onboarded. -/
def NewestBlock (key : BlockKey) : Prop :=
  (tables.latestBlock key.filename instant).map TdxBlockArtifactVersion.blockVersionUid =
      some key.blockVersionUid ∧
    (key.membershipKind = .conceptMembership ∨ key.membershipKind = .themeMembership)

end MarketTables

section Runs

variable {uids : ℕ → Uid} {since now instant later : Instant} {s : OnboardingState}
  {tables : MarketTables}

/-- The blocks of a run are those of the newest files with an eligible stock. -/
theorem MarketTables.BlockFiles.mem_blockGroups (h : tables.BlockFiles now) {key : BlockKey} :
    (∃ group ∈ tables.blockGroups instant, group.key = key) ↔
      tables.NewestBlock instant key ∧ ∃ uid, tables.Eligible instant key uid := by
  constructor
  · rintro ⟨group, hgroup, rfl⟩
    have hblock := onboardable_of_mem hgroup
    obtain ⟨row, hrow, uid, hrowBlock⟩ := mem_blockGroups_iff.mp ⟨group, hgroup, rfl⟩
    exact ⟨⟨hblock.newest, hblock.kind⟩, uid, row, hrow, (blockRow_eq_some_iff.mp hrowBlock).2.2⟩
  · rintro ⟨⟨hnewest, hkind⟩, uid, row, hrow, hversion, hmember⟩
    obtain ⟨newest, hlatest, hnewestUid⟩ := Option.map_eq_some_iff.mp hnewest
    obtain ⟨hmem, hfile⟩ := List.mem_filter.mp (List.mem_filter.mp (mem_of_latest hlatest)).1
    have hname : newest.filename = key.filename := of_decide_eq_true hfile
    have hfind : tables.tdxBlockArtifactVersion.find? (fun v =>
        v.blockVersionUid = row.blockVersionUid) = some newest := by
      have heq : newest.blockVersionUid = row.blockVersionUid := hnewestUid.trans hversion.symm
      cases hfound : tables.tdxBlockArtifactVersion.find? fun v =>
        v.blockVersionUid = row.blockVersionUid with
      | none => exact absurd (decide_eq_true heq) (List.find?_eq_none.mp hfound newest hmem)
      | some v =>
        have huid := List.find?_some hfound
        exact congrArg some (List.inj_on_of_nodup_map h.unique (List.mem_of_find?_eq_some hfound)
          hmem ((of_decide_eq_true huid).trans heq.symm))
    refine mem_blockGroups_iff.mpr ⟨row, hrow, uid, blockRow_eq_some_iff.mpr
      ⟨⟨newest, newest, hfind, hname ▸ hlatest, ?_, hname⟩, hkind, hversion, hmember⟩⟩
    exact hnewestUid.trans hversion.symm

/-- The blocks stay those of a run, until another file is recorded. -/
theorem OnboardingState.Followed.blockGroups_eq (h : s.Followed uids since now)
    (hle : now ≤ later) : s.market.blockGroups later = s.market.blockGroups now := by
  have hlatest : ∀ filename, s.market.latestBlock filename later =
      s.market.latestBlock filename now := by
    intro filename
    have hfetched : ∀ v ∈ s.market.blockVersions filename, v.fetchedAt ≤ now := fun v hv =>
      h.files.fetched v (List.mem_filter.mp hv).1
    rw [latestBlock_eq_highestVersion fun v hv => (hfetched v hv).trans hle,
      latestBlock_eq_highestVersion hfetched]
  have hstock : ∀ m, s.market.stockOf later m = s.market.stockOf now m := fun m =>
    (h.frozen.steady later (h.since_le.trans hle) m).trans (h.frozen.steady now h.since_le m).symm
  have hrow : s.market.blockRow later = s.market.blockRow now := by
    funext row
    refine Option.ext fun ⟨key, uid⟩ => ?_
    simp only [MarketTables.blockRow_eq_some_iff, MarketTables.Newest, hlatest, hstock]
  rw [MarketTables.blockGroups, MarketTables.blockGroups, hrow]

/-- The number of transactions of a block depends on the day only. -/
theorem OnboardingState.Sound.writes_eq (h : s.Sound uids now) (hle : now ≤ later)
    (hdate : chinaDate later = chinaDate now) (group : BlockGroup) :
    s.writes later group = s.writes now group := by
  have hsector : s.sectorOf later group.key = s.sectorOf now group.key :=
    Option.ext fun uid => (h.mono hle).resolve_eq_some.trans h.resolve_eq_some.symm
  have hday : ∀ uid, s.UpToDate later uid group.key ↔ s.UpToDate now uid group.key := by
    intro uid
    rw [OnboardingState.UpToDate, OnboardingState.UpToDate, hdate]
  simp only [OnboardingState.writes, hsector, hday]

/-- The block of a source is known from its code and its version. -/
theorem OnboardingState.Sourced.key_eq {v : SectorMembershipVersion}
    {x : TdxSectorMembershipSource} {key key' : BlockKey} (h : s.Sourced since v x key')
    (hcode : key'.externalCode = key.externalCode) (hname : key.filename ∈ blockFilenames)
    (hversion : x.blockVersionUid = key.blockVersionUid) : key' = key := by
  obtain ⟨hfile, hkind, htype, hblock⟩ := BlockKey.eq_of_externalCode
    (colon_notMem_blockFilenames h.filename) (colon_notMem_blockFilenames hname) hcode
  have huid := h.version.trans hversion
  cases key
  cases key'
  simp_all

/-- The membership of the day of a block that needs nothing is its eligible stocks. -/
theorem OnboardingState.Followed.members_of_writes (h : s.Followed uids since now)
    {group : BlockGroup} (hgroup : group ∈ s.market.blockGroups now)
    (hzero : s.writes now group = 0) :
    ∃ sectorUid v, s.sectorOf now group.key = some sectorUid ∧
      latest SectorMembershipVersion.version (s.membershipVersions sectorUid
        (isoformat (chinaDate now))) = some v ∧
      ∀ uid, s.HasMember v.membershipVersionUid uid ↔ uid ∈ group.members := by
  obtain ⟨m, hm, sectorUid, htarget, hsector, -, hdate⟩ := h.sound.of_writes_eq_zero hzero
  obtain ⟨⟨v, source⟩, hnewest, hsource⟩ := Option.bind_eq_some_iff.mp hdate
  obtain ⟨v, hv, heq⟩ := Option.map_eq_some_iff.mp hnewest
  cases heq
  obtain ⟨x, hx, hblock⟩ := Option.map_eq_some_iff.mp hsource
  have huid := List.find?_some hx
  obtain ⟨hmem, hrow⟩ := List.mem_filter.mp (mem_of_latest hv)
  obtain ⟨key, hkey⟩ := h.frozen.sourced v hmem x (List.mem_of_find?_eq_some hx)
    (of_decide_eq_true huid)
  -- The source is a block of the sector, so it is this one.
  obtain ⟨m', hm', htarget'⟩ := hkey.mapped
  rw [(of_decide_eq_true hrow).1] at htarget'
  have hcode := h.sound.apart key group.key m' hm' m hm (htarget'.trans htarget.symm)
  obtain ⟨b, hb, -, hname⟩ := (MarketTables.onboardable_of_mem hgroup).version
  obtain rfl := hkey.key_eq hcode (hname ▸ h.files.filenames b hb) hblock
  exact ⟨sectorUid, v, hsector, hv, fun uid => (hkey.members uid).trans
    ((h.frozen.eligible_iff h.since_le).symm.trans (MarketTables.mem_members hgroup).symm)⟩

/-- After a run, the membership of the day of each block of the newest files with an eligible
stock is the eligible stocks. The sectors of other blocks keep those of the day. The memberships
of a day are numbered from one on, and a run of the same day changes nothing until another file is
recorded. -/
theorem sector_memberships (huids : Function.Injective uids)
    (h : SectorHistory uids since now s) (hle : now ≤ instant) :
    ∃ commits created, Does (synchronize uids instant) s commits created ∧
      (∀ key, s.market.NewestBlock instant key → (∃ uid, s.market.Eligible instant key uid) →
        ∃ sectorUid v, (lastOf s commits).sectorOf instant key = some sectorUid ∧
          latest SectorMembershipVersion.version ((lastOf s commits).membershipVersions sectorUid
            (isoformat (chinaDate instant))) = some v ∧
          ∀ uid, (lastOf s commits).HasMember v.membershipVersionUid uid ↔
            s.market.Eligible instant key uid) ∧
      (∀ sectorUid, (∀ key, s.market.NewestBlock instant key →
          (∃ uid, s.market.Eligible instant key uid) →
            (lastOf s commits).sectorOf instant key ≠ some sectorUid) → ∀ date,
        (lastOf s commits).membershipVersions sectorUid date =
          s.membershipVersions sectorUid date ∧
        ∀ v ∈ s.membershipVersions sectorUid date, ∀ uid,
          (lastOf s commits).HasMember v.membershipVersionUid uid ↔
            s.HasMember v.membershipVersionUid uid) ∧
      (∀ sectorUid date, ((lastOf s commits).membershipVersions sectorUid date).map
        SectorMembershipVersion.version =
          List.range' 1 ((lastOf s commits).membershipVersions sectorUid date).length) ∧
      ∀ later, instant ≤ later → chinaDate later = chinaDate instant →
        (synchronize uids later (lastOf s commits)).commits = [] := by
  have hstart := (h.reachable huids).mono hle
  obtain ⟨commits, created, hdoes, hlast, -, hdone⟩ := hstart.sound.synchronized huids
  have hend := hstart.progress hlast
  refine ⟨commits, created, hdoes, ?_, ?_, hend.frozen.numbered, ?_⟩
  · rintro key hnewest heligible
    obtain ⟨group, hgroup, rfl⟩ := hstart.files.mem_blockGroups.mpr ⟨hnewest, heligible⟩
    have hgroup' : group ∈ (lastOf s commits).market.blockGroups instant := by
      rw [hlast.blocks]
      exact hgroup
    obtain ⟨sectorUid, v, hsector, hv, hmembers⟩ :=
      hend.members_of_writes hgroup' (hdone group hgroup)
    exact ⟨sectorUid, v, hsector, hv, fun uid =>
      (hmembers uid).trans (MarketTables.mem_members hgroup)⟩
  · intro sectorUid hother date
    refine ⟨hlast.others sectorUid (fun code hcode m hm htarget => ?_) date, fun v hv =>
      (hlast.members v (List.mem_filter.mp hv).1).2⟩
    obtain ⟨group, hgroup, rfl⟩ := List.mem_map.mp hcode
    obtain ⟨hnewest, heligible⟩ := hstart.files.mem_blockGroups.mp ⟨group, hgroup, rfl⟩
    exact hother group.key hnewest heligible (hend.sound.resolve_eq_some.mpr ⟨m, hm, htarget⟩)
  · intro later hlater hdate
    obtain ⟨commits', created', hdoes', hlength, -⟩ :=
      OnboardingState.course_synchronize huids (hend.sound.mono hlater)
    rw [hend.blockGroups_eq hlater, hlast.blocks, List.sum_eq_zero fun n hn => ?_,
      List.length_eq_zero_iff] at hlength
    · exact (congrArg Course.commits hdoes').trans hlength
    · obtain ⟨group, hgroup, rfl⟩ := List.mem_map.mp hn
      rw [hend.sound.writes_eq hlater hdate]
      exact hdone group hgroup

/-- Mappings that are in force from a time on give the same stocks then. -/
theorem stockOf_eq_of_in_force (h : ∀ m ∈ tables.providerMapping, m.validFrom ≤ since ∧
    m.validUntil = none) (hle : since ≤ instant) (m : TdxBlockMembership) :
    tables.stockOf instant m = tables.stockOf since m := by
  have hnewest : ∀ code keep, tables.newestMapping "NATIVE_TDX" code instant keep =
      tables.newestMapping "NATIVE_TDX" code since keep := by
    intro code keep
    refine congrArg (latest ProviderMapping.validFrom) (List.filter_congr fun m hm => ?_)
    obtain ⟨hfrom, huntil⟩ := h m hm
    simp [huntil, hfrom, hfrom.trans hle]
  simp only [MarketTables.stockOf, MarketTables.onboardingMapping, MarketTables.newestInstrument,
    hnewest]

end Runs

/-! ## A block that leaves its file -/

def leavingStart : OnboardingState where
  market := { MarketTables.empty with
    marketSourceEpoch := [⟨"epoch", "NATIVE_TDX", "tdx-v1", 0, none, true, false⟩]
    instrument := [⟨"stock-1", .stock⟩, ⟨"stock-2", .stock⟩]
    providerMapping := [⟨"mapping-1", "NATIVE_TDX", "1:600000", .instrument "stock-1", 0, none⟩,
      ⟨"mapping-2", "NATIVE_TDX", "1:600001", .instrument "stock-2", 0, none⟩] }
  sectors := .empty
  drawn := 0

def leavingArtifacts : ArtifactTables :=
  ⟨[⟨"first", 6012, "application/vnd.tdx.block", "first", 0⟩,
    ⟨"second", 3199, "application/vnd.tdx.block", "second", 0⟩], []⟩

def leavingMember (name code : String) : TdxBlockMembership :=
  ⟨name, 2, .conceptMembership, 1, code⟩

def leavingFile (sha256 : String) (fetchedAt : Instant) : TdxBlockArtifact :=
  ⟨"block_gn.dat", "server", 6012, none, sha256, fetchedAt, "1"⟩

/-- The file with a kept and a leaving block is recorded. -/
def leavingRecorded : OnboardingState :=
  leavingStart.withMarket (stateAfter ((recordBlockVersion leavingArtifacts "epoch"
    (leavingFile "first" 5) [leavingMember "kept" "600000", leavingMember "left" "600001"]
    "version-1").run leavingStart.market))

def leavingSynchronized : OnboardingState :=
  (synchronize numberedUid 6).stoppedAfter 12 leavingRecorded

/-- The file with the kept block alone is recorded. -/
def leavingLeft : OnboardingState :=
  leavingSynchronized.withMarket (stateAfter ((recordBlockVersion leavingArtifacts "epoch"
    (leavingFile "second" 7) [leavingMember "kept" "600000"]
    "version-2").run leavingSynchronized.market))

/-- The two files and the run between them are a history. -/
theorem history_leavingLeft : SectorHistory numberedUid 0 7 leavingLeft := by
  have hmappings : ∀ m ∈ leavingStart.market.providerMapping, m.validFrom ≤ 0 ∧
      m.validUntil = none := by
    decide
  have hcode : ∀ m ∈ leavingStart.market.providerMapping,
      ∃ code, m.externalCode = toString 1 ++ ":" ++ code := by
    intro m hm
    rcases List.mem_cons.mp hm with rfl | hm
    · exact ⟨"600000", rfl⟩
    · exact ⟨"600001", List.mem_singleton.mp hm ▸ rfl⟩
  have huid : ∀ m ∈ leavingStart.market.providerMapping, m.mappingUid.toList.head? = some 'm' ∧
      ∀ uid, m.target ≠ .sector uid := by
    intro m hm
    rcases List.mem_cons.mp hm with rfl | hm
    · exact ⟨rfl, nofun⟩
    · rw [List.mem_singleton.mp hm]
      exact ⟨rfl, nofun⟩
  have hstart : SectorHistory numberedUid 0 0 leavingStart := by
    refine .start rfl (fun key => ?_) rfl (fun n _ m hm => ⟨fun heq => ?_, (huid m hm).2 _⟩)
      fun instant hle m => stockOf_eq_of_in_force hmappings hle m
    · refine List.filter_eq_nil_iff.mpr fun m hm hrow => ?_
      obtain ⟨code, heq⟩ := hcode m hm
      exact key.externalCode_ne 1 code (heq.symm.trans (of_decide_eq_true hrow).2)
    · have hhead := (huid m hm).1
      rw [heq, numberedUid, String.toList_append,
        List.head?_append_of_ne_nil _ (by decide)] at hhead
      exact absurd hhead (by decide)
  have hrecorded : SectorHistory numberedUid 0 5 leavingRecorded :=
    hstart.record leavingArtifacts "epoch" (leavingFile "first" 5) _ _ (Nat.zero_le 5)
  have hsynchronized : SectorHistory numberedUid 0 6 leavingSynchronized :=
    hrecorded.synchronize (Nat.le_succ 5) 12
  exact hsynchronized.record leavingArtifacts "epoch" (leavingFile "second" 7) _ _
    (Nat.le_succ 6)

def leavingFinal : OnboardingState :=
  lastOf leavingLeft (synchronize numberedUid 8 leavingLeft).commits

/-- The kept block. -/
def keptBlock : BlockKey := ⟨"version-2", "block_gn.dat", .conceptMembership, 2, "kept"⟩

theorem eligible_keptBlock : leavingLeft.market.Eligible 8 keptBlock "stock-1" := by
  have hrow : ∃ row ∈ leavingLeft.market.tdxBlockMembership,
      row.blockVersionUid = "version-2" ∧ row.membership.membershipKind = .conceptMembership ∧
      row.membership.blockType = 2 ∧ row.membership.blockName = "kept" ∧
      leavingLeft.market.stockOf 8 row.membership = some "stock-1" := by
    decide +kernel
  exact hrow

/-- It is the only one of the newest file with an eligible stock. -/
theorem eq_keptBlock {key : BlockKey} (hnewest : leavingLeft.market.NewestBlock 8 key)
    (heligible : ∃ uid, leavingLeft.market.Eligible 8 key uid) : key = keptBlock := by
  have hfiles : ∀ v ∈ leavingLeft.market.tdxBlockArtifactVersion, v.filename = "block_gn.dat" := by
    decide +kernel
  have hlatest : (leavingLeft.market.latestBlock "block_gn.dat" 8).map
      TdxBlockArtifactVersion.blockVersionUid = some "version-2" := by
    decide +kernel
  have hrows : ∀ row ∈ leavingLeft.market.tdxBlockMembership, row.blockVersionUid = "version-2" →
      row.membership = leavingMember "kept" "600000" := by
    decide +kernel
  obtain ⟨version, filename, kind, type, name⟩ := key
  obtain ⟨uid, row, hrow, rfl, rfl, rfl, rfl, -⟩ := heligible
  obtain ⟨newest, hnewest, hversion⟩ := Option.map_eq_some_iff.mp hnewest.1
  obtain ⟨hmem, hfile⟩ := List.mem_filter.mp (List.mem_filter.mp (mem_of_latest hnewest)).1
  obtain rfl : filename = "block_gn.dat" := by
    rw [← hfiles newest hmem]
    exact (of_decide_eq_true hfile).symm
  rw [hnewest, Option.map_some, hversion] at hlatest
  have hversion : row.blockVersionUid = "version-2" := Option.some.inj hlatest
  rw [hrows row hrow hversion, hversion]
  rfl

/-- The run freezes the membership of the kept block, leaves the one of the sector of the block
that left, and another run of the day does nothing. -/
theorem sector_memberships_leavingLeft :
    (∃ sectorUid v, leavingFinal.sectorOf 8 keptBlock = some sectorUid ∧
      latest SectorMembershipVersion.version (leavingFinal.membershipVersions sectorUid
        (isoformat (chinaDate 8))) = some v ∧
      ∀ uid, leavingFinal.HasMember v.membershipVersionUid uid ↔
        leavingLeft.market.Eligible 8 keptBlock uid) ∧
    leavingFinal.membershipVersions "uid-5" (isoformat (chinaDate 8)) =
      leavingLeft.membershipVersions "uid-5" (isoformat (chinaDate 8)) ∧
    (leavingLeft.membershipVersions "uid-5" (isoformat (chinaDate 8))).map
      SectorMembershipVersion.membershipVersionUid = ["uid-9"] ∧
    (synchronize numberedUid 9 leavingFinal).commits = [] := by
  obtain ⟨commits, created, hdoes, hblocks, hothers, -, hlater⟩ :=
    sector_memberships numberedUid_injective history_leavingLeft (Nat.le_succ 7)
  have hfinal : lastOf leavingLeft commits = leavingFinal :=
    congrArg (lastOf leavingLeft) (congrArg Course.commits hdoes).symm
  rw [hfinal] at hblocks hothers hlater
  have hkept : leavingFinal.sectorOf 8 keptBlock ≠ some "uid-5" := by decide +kernel
  refine ⟨hblocks keptBlock ⟨by decide +kernel, .inl rfl⟩ ⟨"stock-1", eligible_keptBlock⟩,
    (hothers "uid-5" (fun key hnewest heligible => ?_) _).1, by decide +kernel,
    hlater 9 (Nat.le_succ 8) (by decide +kernel)⟩
  rw [eq_keptBlock hnewest heligible]
  exact hkept

/-- The run of the day leaves the sector of the block that left with its member. -/
theorem membership_of_left_block :
    let key : BlockKey := ⟨"version-2", "block_gn.dat", .conceptMembership, 2, "left"⟩
    SectorHistory numberedUid 0 7 leavingLeft ∧ leavingFinal.market.NewestBlock 8 key ∧
      (∀ uid, ¬leavingFinal.market.Eligible 8 key uid) ∧ ∃ sectorUid v,
        leavingFinal.sectorOf 8 key = some sectorUid ∧
        latest SectorMembershipVersion.version (leavingFinal.membershipVersions sectorUid
          (isoformat (chinaDate 8))) = some v ∧
        leavingFinal.HasMember v.membershipVersionUid "stock-2" := by
  have hrows : ∀ row ∈ leavingFinal.market.tdxBlockMembership,
      row.blockVersionUid = "version-2" → row.membership.blockName ≠ "left" := by
    decide +kernel
  have hmember : ∃ r ∈ leavingFinal.sectors.sectorMembership,
      r.membershipVersionUid = "uid-9" ∧ r.instrumentUid = "stock-2" := by
    decide +kernel
  refine ⟨history_leavingLeft, ⟨by decide +kernel, .inl rfl⟩, ?_, "uid-5",
    ⟨"uid-9", "uid-5", "0001-01-01", 1, 6, 6, false, "DAILY_FREEZE"⟩, by decide +kernel,
    by decide +kernel, hmember⟩
  rintro uid ⟨row, hrow, hversion, -, -, hname, -⟩
  exact hrows row hrow hversion hname

end MarketMonitor
