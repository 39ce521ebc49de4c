import MarketMonitor.MarketData.BlockVersions

/-!
# The latest version of a block file

The downloads of one filename, recorded one after the other. A download whose hash was
recorded before writes no version : when a file returns to an earlier content, the readers
keep the version in between. The readers have the last download after each recording exactly
when no file returns to an earlier hash with other memberships than the file just before it
(`latest_block_version_iff`).
-/

namespace MarketMonitor

open Transaction

variable {decodeGbk : List UInt8 → List Char} {filename : String}

/-! ## Downloads -/

/-- A block file as `_refresh_blocks` records it. -/
structure BlockDownload (decodeGbk : List UInt8 → List Char) (filename : String) where
  data : List UInt8
  memberships : List TdxBlockMembership
  parsed : parseBlockFile decodeGbk data filename = .ok memberships
  epochUid : Uid
  sourceServer : String
  named : sourceServer ≠ ""
  serverHash : Option String
  fetchedAt : Instant
  uid : Uid

/-- The SHA-256 of a file. -/
def BlockDownload.sha256 (d : BlockDownload decodeGbk filename) : String :=
  Sha256.hexdigest d.data

def BlockDownload.artifact (d : BlockDownload decodeGbk filename) : TdxBlockArtifact :=
  ⟨filename, d.sourceServer, d.data.length, d.serverHash, d.sha256, d.fetchedAt, "cr002-v1"⟩

/-- The call of `record_block_version` for a download. -/
def BlockDownload.record (artifacts : ArtifactTables) (d : BlockDownload decodeGbk filename) :
    MarketCommand (Option Uid) :=
  recordBlockVersion artifacts d.epochUid d.artifact d.memberships d.uid

theorem BlockDownload.checkBlockArtifact (d : BlockDownload decodeGbk filename) :
    checkBlockArtifact d.artifact = .ok () := by
  rw [MarketMonitor.checkBlockArtifact]
  exact except_bind_eq_ok.mpr ⟨(), check_eq_ok.mpr (parseBlockFile_wellFormed d.parsed).1,
    check_eq_ok.mpr d.named⟩

/-- The downloads of a filename at increasing times, from tables that have no version of
it. The epochs are registered, and so are the artifacts of the files. -/
structure BlockRecording (decodeGbk : List UInt8 → List Char) (filename : String) where
  artifacts : ArtifactTables
  start : MarketTables
  downloads : List (BlockDownload decodeGbk filename)
  unversioned : start.blockVersions filename = []
  owned : ∀ r ∈ start.tdxBlockMembership, ∃ v ∈ start.tdxBlockArtifactVersion,
    v.blockVersionUid = r.blockVersionUid
  epochs : ∀ d ∈ downloads, ∃ e ∈ start.marketSourceEpoch, e.epochUid = d.epochUid
  registered : ∀ d ∈ downloads, ∃ a ∈ artifacts.artifactObject, a.sha256 = d.sha256
  fresh : (start.tdxBlockArtifactVersion.map TdxBlockArtifactVersion.blockVersionUid ++
    downloads.map BlockDownload.uid).Nodup
  ordered : downloads.Pairwise fun d d' => d.fetchedAt < d'.fetchedAt

namespace BlockRecording

variable (r : BlockRecording decodeGbk filename)

/-- The tables after the first `n` downloads. -/
def tablesAfter (n : ℕ) : MarketTables :=
  (r.downloads.take n).foldl (fun t d => stateAfter ((d.record r.artifacts).run t)) r.start

/-- The download before the `n`-th ones with the hash of `d`. -/
def Recorded (n : ℕ) (d : BlockDownload decodeGbk filename) : Prop :=
  ∃ e ∈ r.downloads.take n, e.sha256 = d.sha256

end BlockRecording

/-- The version with the highest number is the one read from the time of a download on, and
it has the memberships of the file. -/
def LatestIs (tables : MarketTables) (d : BlockDownload decodeGbk filename) : Prop :=
  ∃ v, tables.highestVersion filename = some v ∧
    (∀ instant, d.fetchedAt ≤ instant → tables.latestBlock filename instant = some v) ∧
    ∀ m, m ∈ tables.membershipsOf v.blockVersionUid ↔ m ∈ d.memberships

/-- Two files with the same memberships. -/
def SameMemberships (d d' : BlockDownload decodeGbk filename) : Prop :=
  ∀ m, m ∈ d.memberships ↔ m ∈ d'.memberships

/-! ## The tables of a recording -/

/-- What holds of the tables after the first `n` downloads. -/
structure RecordedUpTo (r : BlockRecording decodeGbk filename) (n : ℕ)
    (tables : MarketTables) : Prop where
  epochs : tables.marketSourceEpoch = r.start.marketSourceEpoch
  hashes : ∀ hash, (∃ v ∈ tables.blockVersions filename, v.artifactSha256 = hash) ↔
    ∃ d ∈ r.downloads.take n, d.sha256 = hash
  uids : ∀ v ∈ tables.tdxBlockArtifactVersion, v.blockVersionUid ∈
    r.start.tdxBlockArtifactVersion.map TdxBlockArtifactVersion.blockVersionUid ++
      (r.downloads.take n).map BlockDownload.uid
  owned : ∀ row ∈ tables.tdxBlockMembership, ∃ v ∈ tables.tdxBlockArtifactVersion,
    v.blockVersionUid = row.blockVersionUid
  times : ∀ v ∈ tables.blockVersions filename, ∃ d ∈ r.downloads.take n,
    v.fetchedAt = d.fetchedAt

variable {r : BlockRecording decodeGbk filename} {n : ℕ}
  {d d' : BlockDownload decodeGbk filename} {tables : MarketTables}

theorem take_succ_of_getElem? (hd : r.downloads[n]? = some d) :
    r.downloads.take (n + 1) = r.downloads.take n ++ [d] := by
  rw [List.take_add_one, hd, Option.toList_some]

theorem mem_downloads (hd : r.downloads[n]? = some d) : d ∈ r.downloads :=
  List.mem_of_getElem? hd

/-- The downloads before the `n`-th are older. -/
theorem fetchedAt_lt (hd : r.downloads[n]? = some d) (hd' : d' ∈ r.downloads.take n) :
    d'.fetchedAt < d.fetchedAt := by
  obtain ⟨j, hj⟩ := List.getElem?_of_mem hd'
  have hjn : j < n := by
    by_contra hle
    rw [List.getElem?_eq_none ((List.length_take_le _ _).trans (Nat.le_of_not_lt hle))] at hj
    cases hj
  rw [List.getElem?_take_of_lt hjn] at hj
  obtain ⟨hjlen, rfl⟩ := List.getElem?_eq_some_iff.mp hj
  obtain ⟨hnlen, rfl⟩ := List.getElem?_eq_some_iff.mp hd
  exact List.pairwise_iff_getElem.mp r.ordered j n hjlen hnlen hjn

/-- The next download can be recorded. -/
theorem RecordedUpTo.recordable (h : RecordedUpTo r n tables) (hd : r.downloads[n]? = some d) :
    BlockRecordable r.artifacts tables d.epochUid d.artifact d.uid where
  valid := d.checkBlockArtifact
  epoch := h.epochs ▸ r.epochs d (mem_downloads hd)
  registered := r.registered d (mem_downloads hd)
  fresh v hv huid := by
    have hfresh := r.fresh
    rw [← List.take_append_drop n r.downloads, List.map_append, ← List.append_assoc] at hfresh
    refine (List.nodup_append.mp hfresh).2.2 _ (h.uids v hv) d.uid
      (List.mem_map_of_mem ?_) huid
    exact List.mem_of_getElem? (i := 0) (by rw [List.getElem?_drop, Nat.add_zero, hd])
  owned := h.owned

/-- A download whose hash is recorded leaves the tables as they are. -/
theorem RecordedUpTo.run_known (h : RecordedUpTo r n tables) (hknown : r.Recorded n d) :
    (d.record r.artifacts).run tables = .ok none tables :=
  recordBlockVersion_known d.checkBlockArtifact ((h.hashes d.sha256).mpr hknown)

/-- The row of a download that makes a version. -/
def BlockDownload.row (d : BlockDownload decodeGbk filename) (tables : MarketTables) :
    TdxBlockArtifactVersion :=
  d.artifact.row d.epochUid d.uid
    (nextOrder ((tables.blockVersions filename).map TdxBlockArtifactVersion.version))

theorem blockVersions_withVersion (tables : MarketTables)
    (d : BlockDownload decodeGbk filename) :
    (tables.withVersion (d.row tables) d.memberships).blockVersions filename =
      tables.blockVersions filename ++ [d.row tables] := by
  have hrow : (d.row tables).filename = filename := rfl
  simp [MarketTables.blockVersions, MarketTables.withVersion, MarketTables.withMemberships,
    List.filter_append, hrow]

/-- A download with a new hash makes a version. -/
theorem RecordedUpTo.run_new (h : RecordedUpTo r n tables) (hd : r.downloads[n]? = some d)
    (hnew : ¬r.Recorded n d) :
    (d.record r.artifacts).run tables =
      .ok (some d.uid) (tables.withVersion (d.row tables) d.memberships) :=
  recordBlockVersion_new (h.recordable hd) (parseBlockFile_wellFormed d.parsed).2
    fun v hv hsha => hnew ((h.hashes d.sha256).mp ⟨v, hv, hsha⟩)

/-- A download that is known leaves the tables. -/
theorem RecordedUpTo.known (h : RecordedUpTo r n tables) (hd : r.downloads[n]? = some d)
    (hknown : r.Recorded n d) : RecordedUpTo r (n + 1) tables := by
  constructor
  · exact h.epochs
  · intro hash
    rw [h.hashes, take_succ_of_getElem? hd]
    constructor
    · rintro ⟨e, he, hhash⟩
      exact ⟨e, List.mem_append_left _ he, hhash⟩
    · rintro ⟨e, he, rfl⟩
      rcases List.mem_append.mp he with he | he
      · exact ⟨e, he, rfl⟩
      · rw [List.mem_singleton.mp he]
        exact hknown
  · intro v hv
    rw [take_succ_of_getElem? hd, List.map_append, ← List.append_assoc]
    exact List.mem_append_left _ (h.uids v hv)
  · exact h.owned
  · intro v hv
    obtain ⟨e, he, htime⟩ := h.times v hv
    rw [take_succ_of_getElem? hd]
    exact ⟨e, List.mem_append_left _ he, htime⟩

/-- One that is new adds its version. -/
theorem RecordedUpTo.new (h : RecordedUpTo r n tables) (hd : r.downloads[n]? = some d) :
    RecordedUpTo r (n + 1) (tables.withVersion (d.row tables) d.memberships) := by
  constructor
  · exact h.epochs
  · intro hash
    rw [blockVersions_withVersion tables d, take_succ_of_getElem? hd]
    simp only [List.mem_append, List.mem_singleton, or_and_right, exists_or, exists_eq_left,
      h.hashes]
    rfl
  · intro v hv
    rw [take_succ_of_getElem? hd, List.map_append, ← List.append_assoc]
    rcases List.mem_append.mp hv with hv | hv
    · exact List.mem_append_left _ (h.uids v hv)
    · rw [List.mem_singleton.mp hv]
      exact List.mem_append_right _ List.mem_cons_self
  · intro row hrow
    rcases List.mem_append.mp hrow with hrow | hrow
    · obtain ⟨v, hv, huid⟩ := h.owned row hrow
      exact ⟨v, List.mem_append_left _ hv, huid⟩
    · obtain ⟨m, -, rfl⟩ := List.mem_map.mp hrow
      exact ⟨d.row tables, List.mem_append_right _ List.mem_cons_self, rfl⟩
  · intro v hv
    rw [blockVersions_withVersion tables d] at hv
    rw [take_succ_of_getElem? hd]
    rcases List.mem_append.mp hv with hv | hv
    · obtain ⟨e, he, htime⟩ := h.times v hv
      exact ⟨e, List.mem_append_left _ he, htime⟩
    · exact ⟨d, List.mem_append_right _ List.mem_cons_self, List.mem_singleton.mp hv ▸ rfl⟩

/-- Before the first download nothing is recorded. -/
theorem recordedUpTo_zero (r : BlockRecording decodeGbk filename) :
    RecordedUpTo r 0 (r.tablesAfter 0) where
  epochs := rfl
  hashes hash := by
    constructor
    · rintro ⟨v, hv, -⟩
      rw [BlockRecording.tablesAfter, List.take_zero, List.foldl_nil, r.unversioned] at hv
      cases hv
    · rintro ⟨e, he, -⟩
      cases he
  uids v hv := List.mem_append_left _ (List.mem_map_of_mem hv)
  owned := r.owned
  times v hv := by
    rw [BlockRecording.tablesAfter, List.take_zero, List.foldl_nil, r.unversioned] at hv
    cases hv

theorem tablesAfter_succ (hd : r.downloads[n]? = some d) :
    r.tablesAfter (n + 1) = stateAfter ((d.record r.artifacts).run (r.tablesAfter n)) := by
  rw [BlockRecording.tablesAfter, take_succ_of_getElem? hd, List.foldl_append]
  rfl

/-- The tables after the first `n` downloads, for every `n`. -/
theorem recordedUpTo (r : BlockRecording decodeGbk filename) (hn : n ≤ r.downloads.length) :
    RecordedUpTo r n (r.tablesAfter n) := by
  induction n with
  | zero => exact recordedUpTo_zero r
  | succ n ih =>
    have h := ih (Nat.le_of_succ_le hn)
    have hd : r.downloads[n]? = some (r.downloads[n]) := List.getElem?_eq_getElem hn
    rw [tablesAfter_succ hd]
    by_cases hknown : r.Recorded n (r.downloads[n])
    · rw [h.run_known hknown]
      exact h.known hd hknown
    · rw [h.run_new hd hknown]
      exact h.new hd

/-! ## What the readers have -/

/-- Once every version of a filename is fetched, the readers have the highest. -/
theorem latestBlock_eq_highestVersion {instant : Instant}
    (h : ∀ v ∈ tables.blockVersions filename, v.fetchedAt ≤ instant) :
    tables.latestBlock filename instant = tables.highestVersion filename := by
  rw [MarketTables.latestBlock, MarketTables.highestVersion, List.filter_eq_self.mpr
    fun v hv => decide_eq_true (h v hv)]

theorem mem_membershipsOf {uid : Uid} {m : TdxBlockMembership} :
    m ∈ tables.membershipsOf uid ↔ ⟨uid, m⟩ ∈ tables.tdxBlockMembership := by
  rw [MarketTables.membershipsOf, List.mem_map]
  constructor
  · rintro ⟨row, hrow, rfl⟩
    obtain ⟨hmem, huid⟩ := List.mem_filter.mp hrow
    rwa [← of_decide_eq_true huid]
  · intro h
    exact ⟨⟨uid, m⟩, List.mem_filter.mpr ⟨h, by simp⟩, rfl⟩

/-- A new version is the one the readers have. -/
theorem RecordedUpTo.latestIs_new (h : RecordedUpTo r n tables)
    (hd : r.downloads[n]? = some d) :
    LatestIs (tables.withVersion (d.row tables) d.memberships) d := by
  have hversions := blockVersions_withVersion tables d
  have hhighest : (tables.withVersion (d.row tables) d.memberships).highestVersion filename =
      some (d.row tables) := by
    rw [MarketTables.highestVersion, hversions]
    exact latest_concat fun v hv => lt_nextOrder (List.mem_map_of_mem hv)
  refine ⟨d.row tables, hhighest, fun instant hinstant => ?_, fun m => ?_⟩
  · rw [latestBlock_eq_highestVersion ?_, hhighest]
    intro v hv
    rw [hversions] at hv
    rcases List.mem_append.mp hv with hv | hv
    · obtain ⟨e, he, htime⟩ := h.times v hv
      rw [htime]
      exact (fetchedAt_lt hd he).le.trans hinstant
    · rw [List.mem_singleton.mp hv]
      exact hinstant
  · have hold : (⟨d.uid, m⟩ : TdxBlockMembershipRow) ∉ tables.tdxBlockMembership := by
      intro hrow
      obtain ⟨v, hv, huid⟩ := h.owned _ hrow
      exact (h.recordable hd).fresh v hv huid
    rw [mem_membershipsOf]
    show _ ∈ tables.tdxBlockMembership ++ _ ↔ _
    rw [List.mem_append, List.mem_map]
    constructor
    · rintro (hrow | ⟨m', hm', heq⟩)
      · exact absurd hrow hold
      · cases heq
        exact mem_uniqueMemberships.mp hm'
    · intro hm
      exact Or.inr ⟨m, mem_uniqueMemberships.mpr hm, rfl⟩

/-- The readers of one file have the next when it has the same memberships. -/
theorem latestIs_iff_sameMemberships (hd : r.downloads[n]? = some d)
    (hd' : r.downloads[n + 1]? = some d') (hlatest : LatestIs tables d) :
    LatestIs tables d' ↔ SameMemberships d d' := by
  have htime : d.fetchedAt < d'.fetchedAt := fetchedAt_lt hd' (by
    rw [take_succ_of_getElem? hd]
    exact List.mem_append_right _ List.mem_cons_self)
  obtain ⟨v, hhighest, hread, hmembers⟩ := hlatest
  constructor
  · rintro ⟨v', hhighest', -, hmembers'⟩ m
    obtain rfl : v = v' := Option.some.inj (hhighest.symm.trans hhighest')
    exact (hmembers m).symm.trans (hmembers' m)
  · intro hsame
    exact ⟨v, hhighest, fun instant hinstant => hread instant (htime.le.trans hinstant),
      fun m => (hmembers m).trans (hsame m)⟩

/-! ## The recordings that keep the last download -/

/-- After a recording that returns the readers have the recorded file. -/
def BlockRecording.Current (r : BlockRecording decodeGbk filename) (n : ℕ) : Prop :=
  ∀ d, r.downloads[n]? = some d →
    isOk ((d.record r.artifacts).run (r.tablesAfter n)) = true ∧
      LatestIs (r.tablesAfter (n + 1)) d

/-- A file whose hash was recorded has the memberships of the file just before it. -/
def BlockRecording.NoRevert (r : BlockRecording decodeGbk filename) (n : ℕ) : Prop :=
  ∀ d d', r.downloads[n]? = some d → r.downloads[n + 1]? = some d' → r.Recorded (n + 1) d' →
    SameMemberships d d'

/-- The first download makes the version that is read. -/
theorem current_zero (r : BlockRecording decodeGbk filename) : r.Current 0 := by
  intro d hd
  have hnew : ¬r.Recorded 0 d := by
    rintro ⟨e, he, -⟩
    cases he
  rw [tablesAfter_succ hd, (recordedUpTo_zero r).run_new hd hnew]
  exact ⟨rfl, (recordedUpTo_zero r).latestIs_new hd⟩

/-- After a current download the next one is current when it is no revert. -/
theorem current_succ_iff (h : r.Current n) : r.Current (n + 1) ↔ r.NoRevert n := by
  by_cases hlen : n + 1 < r.downloads.length
  swap
  · have hnone : r.downloads[n + 1]? = none := List.getElem?_eq_none (Nat.le_of_not_lt hlen)
    simp [BlockRecording.Current, BlockRecording.NoRevert, hnone]
  obtain ⟨d, hd⟩ : ∃ d, r.downloads[n]? = some d :=
    ⟨_, List.getElem?_eq_getElem (Nat.lt_of_succ_lt hlen)⟩
  obtain ⟨d', hd'⟩ : ∃ d', r.downloads[n + 1]? = some d' := ⟨_, List.getElem?_eq_getElem hlen⟩
  have hupTo := recordedUpTo r hlen.le
  have hlatest := (h d hd).2
  have hcurrent : r.Current (n + 1) ↔
      isOk ((d'.record r.artifacts).run (r.tablesAfter (n + 1))) = true ∧
        LatestIs (r.tablesAfter (n + 2)) d' := by
    simp [BlockRecording.Current, hd']
  have hrevert : r.NoRevert n ↔ (r.Recorded (n + 1) d' → SameMemberships d d') := by
    simp [BlockRecording.NoRevert, hd, hd']
  rw [hcurrent, hrevert, tablesAfter_succ hd']
  by_cases hknown : r.Recorded (n + 1) d'
  · rw [hupTo.run_known hknown]
    have hiff := latestIs_iff_sameMemberships hd hd' hlatest
    exact ⟨fun h _ => hiff.mp h.2, fun hsame => ⟨rfl, hiff.mpr (hsame hknown)⟩⟩
  · rw [hupTo.run_new hd' hknown]
    exact ⟨fun _ hrecorded => absurd hrecorded hknown, fun _ => ⟨rfl, hupTo.latestIs_new hd'⟩⟩

/-- Every recording returns and leaves the readers the recorded file, exactly when no file
returns to a recorded hash with other memberships than the file just before it. -/
theorem latest_block_version_iff (r : BlockRecording decodeGbk filename) :
    (∀ n, r.Current n) ↔ ∀ n, r.NoRevert n :=
  forall_iff_of_step (current_zero r) fun _ => current_succ_iff

/-! ## A file that returns to an earlier content -/

/-- A file without a block. -/
def emptyBlockFile : List UInt8 := List.replicate 386 0

/-- A file with one block `A`, of one stock. -/
def oneBlockFile : List UInt8 :=
  List.replicate 384 0 ++ [1, 0] ++ 65 :: List.replicate 8 0 ++ [1, 0, 7, 0] ++
    [54, 48, 48, 48, 48, 48] ++ List.replicate 2794 0

theorem parse_emptyBlockFile :
    parseBlockFile decodeAscii emptyBlockFile "block_gn.dat" = .ok [] := by
  decide +kernel

theorem parse_oneBlockFile : parseBlockFile decodeAscii oneBlockFile "block_gn.dat" =
    .ok [⟨"A", 7, .conceptMembership, 1, "600000"⟩] := by
  decide +kernel

/-- The file without a block, as it is downloaded at an instant. -/
def emptyDownload (fetchedAt : Instant) (uid : Uid) : BlockDownload decodeAscii "block_gn.dat" :=
  ⟨emptyBlockFile, [], parse_emptyBlockFile, "epoch", "node", by decide, none, fetchedAt, uid⟩

def oneBlockDownload (fetchedAt : Instant) (uid : Uid) :
    BlockDownload decodeAscii "block_gn.dat" :=
  ⟨oneBlockFile, _, parse_oneBlockFile, "epoch", "node", by decide, none, fetchedAt, uid⟩

/-- The block is added, and removed again. -/
def revertedRecording : BlockRecording decodeAscii "block_gn.dat" where
  artifacts :=
    ⟨[emptyDownload 1 "v1", oneBlockDownload 2 "v2"].map fun d =>
      ⟨d.sha256, d.data.length, "application/vnd.tdx.block", "blocks", 0⟩, []⟩
  start := { MarketTables.empty with
    marketSourceEpoch := [⟨"epoch", "NATIVE_TDX", "tdx-v1", 0, none, true, false⟩] }
  downloads := [emptyDownload 1 "v1", oneBlockDownload 2 "v2", emptyDownload 3 "v3"]
  unversioned := rfl
  owned _ h := absurd h List.not_mem_nil
  epochs d hd := by
    refine ⟨_, List.mem_singleton_self _, ?_⟩
    rcases List.mem_cons.mp hd with rfl | hd
    · rfl
    · rcases List.mem_cons.mp hd with rfl | hd
      · rfl
      · rw [List.mem_singleton.mp hd]
        rfl
  registered d hd := by
    rcases List.mem_cons.mp hd with rfl | hd
    · exact ⟨_, List.mem_cons_self, rfl⟩
    · rcases List.mem_cons.mp hd with rfl | hd
      · exact ⟨_, List.mem_cons_of_mem _ List.mem_cons_self, rfl⟩
      · rw [List.mem_singleton.mp hd]
        exact ⟨_, List.mem_cons_self, rfl⟩
  fresh := by
    show (["v1", "v2", "v3"] : List String).Nodup
    decide
  ordered := by
    simp [emptyDownload, oneBlockDownload]

/-- After the third download the readers still have the block. -/
theorem reverted_block_file_is_stale : ¬∀ n, revertedRecording.Current n := by
  intro h
  have hrevert := (current_succ_iff (h 1)).mp (h 2)
  have hsame : SameMemberships (oneBlockDownload 2 "v2") (emptyDownload 3 "v3") :=
    hrevert _ _ rfl rfl ⟨emptyDownload 1 "v1", List.mem_cons_self, rfl⟩
  exact List.not_mem_nil ((hsame ⟨"A", 7, .conceptMembership, 1, "600000"⟩).mp
    List.mem_cons_self)

end MarketMonitor
