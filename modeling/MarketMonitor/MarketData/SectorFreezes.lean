import MarketMonitor.MarketData.SectorWrites

/-!
# What a frozen membership holds

A membership that has its source names the eligible stocks of its block in that version of the
file, and the memberships of a sector on a date are numbered from one on (`Frozen`). Each
transaction of the onboarding keeps this, while the mappings of the stocks do not change.
-/

namespace MarketMonitor

open Transaction

/-! ## Frozen memberships -/

namespace OnboardingState

variable (s : OnboardingState)

/-- The stock is a member in a version of a membership. -/
def HasMember (membershipVersionUid instrumentUid : Uid) : Prop :=
  ∃ r ∈ s.sectors.sectorMembership, r.membershipVersionUid = membershipVersionUid ∧
    r.instrumentUid = instrumentUid

/-- The source of a version of a membership is a block of its sector, with these members. -/
structure Sourced (since : Instant) (v : SectorMembershipVersion) (x : TdxSectorMembershipSource)
    (key : BlockKey) : Prop where
  version : key.blockVersionUid = x.blockVersionUid
  filename : key.filename ∈ blockFilenames
  recorded : ∃ b ∈ s.market.tdxBlockArtifactVersion, b.blockVersionUid = key.blockVersionUid
  mapped : ∃ m ∈ s.blockMappings key.externalCode, m.target = .sector v.sectorUid
  members : ∀ uid, s.HasMember v.membershipVersionUid uid ↔ s.market.Eligible since key uid

/-- What the transactions keep of the memberships, while the mappings of the stocks stay as they
are `since` a time. -/
structure Frozen (since : Instant) : Prop where
  steady : ∀ instant, since ≤ instant → ∀ m,
    s.market.stockOf instant m = s.market.stockOf since m
  numbered : ∀ sectorUid date,
    (s.membershipVersions sectorUid date).map SectorMembershipVersion.version =
      List.range' 1 (s.membershipVersions sectorUid date).length
  sourced : ∀ v ∈ s.sectors.sectorMembershipVersion,
    ∀ x ∈ s.sectors.tdxSectorMembershipSource,
      x.membershipVersionUid = v.membershipVersionUid → ∃ key, s.Sourced since v x key

end OnboardingState

section Kept

variable {since : Instant} {s : OnboardingState}

/-- The next of the numbers from one on. -/
theorem nextOrder_range' (n : ℕ) : nextOrder (List.range' 1 n) = n + 1 := by
  have hmax : ∀ (orders : List ℕ) (k : ℕ), (∀ m ∈ orders, m ≤ k) → orders.foldr max 0 ≤ k := by
    intro orders k
    induction orders with
    | nil => exact fun _ => Nat.zero_le k
    | cons m orders ih =>
      intro h
      exact max_le (h m List.mem_cons_self) (ih fun m' hm' => h m' (List.mem_cons_of_mem m hm'))
  refine le_antisymm (Nat.succ_le_succ (hmax _ n fun m hm => ?_)) ?_
  · have hbound := List.mem_range'_1.mp hm
    omega
  · rcases n with _ | n
    · exact Nat.le_add_left 1 _
    · exact lt_nextOrder (List.mem_range'_1.mpr ⟨by omega, by omega⟩)

namespace OnboardingState

/-- The eligible stocks of a block stay the same. -/
theorem Frozen.eligible_iff (h : s.Frozen since) {instant : Instant} (hle : since ≤ instant)
    {key : BlockKey} {uid : Uid} :
    s.market.Eligible instant key uid ↔ s.market.Eligible since key uid := by
  simp only [MarketTables.Eligible, h.steady instant hle]

/-- A source stays one while the market and the members stay. -/
theorem Sourced.of_eq {c : OnboardingState} {v : SectorMembershipVersion}
    {x : TdxSectorMembershipSource} {key : BlockKey} (h : s.Sourced since v x key)
    (hmarket : c.market = s.market)
    (hmembers : c.sectors.sectorMembership = s.sectors.sectorMembership) :
    c.Sourced since v x key := by
  refine ⟨h.version, h.filename, ?_, ?_, fun uid => ?_⟩
  · rw [hmarket]
    exact h.recorded
  · rw [blockMappings, hmarket]
    exact h.mapped
  · rw [HasMember, hmarket, hmembers]
    exact h.members uid

/-- The tables that matter are as they were. -/
theorem Frozen.of_eq {c : OnboardingState} (h : s.Frozen since) (hmarket : c.market = s.market)
    (hversions : c.sectors.sectorMembershipVersion = s.sectors.sectorMembershipVersion)
    (hmembers : c.sectors.sectorMembership = s.sectors.sectorMembership)
    (hsources : c.sectors.tdxSectorMembershipSource = s.sectors.tdxSectorMembershipSource) :
    c.Frozen since := by
  refine ⟨?_, fun sectorUid date => ?_, fun v hv x hx heq => ?_⟩
  · rw [hmarket]
    exact h.steady
  · rw [membershipVersions, hversions]
    exact h.numbered sectorUid date
  · rw [hversions] at hv
    rw [hsources] at hx
    exact (h.sourced v hv x hx heq).imp fun _ hkey => hkey.of_eq hmarket hmembers

/-- The mapping of a block keeps what is frozen. -/
theorem Frozen.withMapping (h : s.Frozen since) {row : ProviderMapping} {key : BlockKey}
    (hprovider : row.providerKey = "NATIVE_TDX") (hcode : row.externalCode = key.externalCode) :
    (s.withMapping row).Frozen since := by
  have hstock : (s.withMapping row).market.stockOf = s.market.stockOf :=
    funext fun instant => MarketTables.stockOf_withMapping hcode instant
  refine ⟨fun instant hle m => ?_, h.numbered, fun v hv x hx heq => ?_⟩
  · rw [hstock]
    exact h.steady instant hle m
  · obtain ⟨key', hkey⟩ := h.sourced v hv x hx heq
    obtain ⟨m, hm, htarget⟩ := hkey.mapped
    refine ⟨key', hkey.version, hkey.filename, hkey.recorded,
      ⟨m, (mem_blockMappings_withMapping hprovider).mpr (.inl hm), htarget⟩, fun uid => ?_⟩
    refine (hkey.members uid).trans ?_
    simp only [MarketTables.Eligible, hstock]
    rfl

/-- A new version of a membership has no source yet. -/
theorem Frozen.withMembership (h : s.Frozen since) {row : SectorMembershipVersion}
    (hunused : s.Unused row.membershipVersionUid) (hversion : row.version = nextOrder
      ((s.membershipVersions row.sectorUid row.tradingDate).map SectorMembershipVersion.version))
    (members : List Uid) : (s.withMembership row members).Frozen since := by
  refine ⟨h.steady, fun sectorUid date => ?_, fun v hv x hx heq => ?_⟩
  · have hversions : (s.withMembership row members).membershipVersions sectorUid date =
        s.membershipVersions sectorUid date ++
          [row].filter fun v => v.sectorUid = sectorUid ∧ v.tradingDate = date :=
      List.filter_append ..
    rw [hversions, List.filter_singleton]
    by_cases hrow : row.sectorUid = sectorUid ∧ row.tradingDate = date
    · obtain ⟨rfl, rfl⟩ := hrow
      rw [decide_eq_true ⟨rfl, rfl⟩, cond_true, List.map_append, List.map_singleton, hversion,
        h.numbered, nextOrder_range', List.length_append, List.length_singleton,
        List.range'_concat, Nat.one_mul, Nat.add_comm 1]
    · rw [decide_eq_false hrow, cond_false, List.append_nil]
      exact h.numbered sectorUid date
  · rcases List.mem_append.mp hv with hv | hv
    · obtain ⟨key, hkey⟩ := h.sourced v hv x hx heq
      refine ⟨key, hkey.version, hkey.filename, hkey.recorded, hkey.mapped, fun uid => ?_⟩
      refine Iff.trans ⟨?_, ?_⟩ (hkey.members uid)
      · rintro ⟨r, hr, hrv, hruid⟩
        rcases List.mem_append.mp hr with hr | hr
        · exact ⟨r, hr, hrv, hruid⟩
        · obtain ⟨uid', -, rfl⟩ := List.mem_map.mp hr
          exact absurd hrv.symm (hunused.membershipVersion v hv).1
      · rintro ⟨r, hr, hrow⟩
        exact ⟨r, List.mem_append_left _ hr, hrow⟩
    · rw [List.mem_singleton.mp hv] at heq
      exact absurd heq (hunused.source x hx)

/-- The source of a version says what its members are. -/
theorem Frozen.withSource (h : s.Frozen since) {row : TdxSectorMembershipSource}
    (hrow : ∀ v ∈ s.sectors.sectorMembershipVersion,
      row.membershipVersionUid = v.membershipVersionUid → ∃ key, s.Sourced since v row key) :
    (s.withSource row).Frozen since := by
  refine ⟨h.steady, h.numbered, fun v hv x hx heq => ?_⟩
  rcases List.mem_append.mp hx with hx | hx
  · exact (h.sourced v hv x hx heq).imp fun _ hkey => hkey.of_eq rfl rfl
  · obtain rfl := List.mem_singleton.mp hx
    exact (hrow v hv heq).imp fun _ hkey => hkey.of_eq rfl rfl

end OnboardingState

end Kept

end MarketMonitor
