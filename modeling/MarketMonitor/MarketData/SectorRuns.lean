import MarketMonitor.MarketData.SectorFreezes

/-!
# Runs of the onboarding

A run over blocks returns whatever an earlier run left, and gives each block a sector with a
subject. What it does of a block concerns no other block (`Progress`). A sector with a version
that no block is mapped to is lost : it arises in one place, when the run stops between the
version and the mapping of a new sector (`course_groups`).
-/

namespace MarketMonitor

open Transaction
open Transaction.Process (Does read transact does_pure does_read does_transact)

variable {uids : ℕ → Uid} {now : Instant} {s : OnboardingState}

/-! ## What a block needs -/

namespace OnboardingState

variable (s : OnboardingState) (now : Instant)

/-- The membership of the day comes from the version of the block. -/
def UpToDate (sectorUid : Uid) (key : BlockKey) : Prop :=
  (s.latestMembership sectorUid (isoformat (chinaDate now))).bind Prod.snd =
    some key.blockVersionUid

instance (sectorUid : Uid) (key : BlockKey) : Decidable (s.UpToDate now sectorUid key) :=
  inferInstanceAs (Decidable (_ = _))

/-- The sector of a block. -/
def sectorOf (key : BlockKey) : Option Uid :=
  s.market.resolveProviderMapping "NATIVE_TDX" key.externalCode now

/-- The number of transactions that `synchronize` makes of a block. -/
def writes (group : BlockGroup) : ℕ :=
  match s.sectorOf now group.key with
  | none => 6
  | some uid =>
    (if s.HasSubject uid then 0 else 1) + if s.UpToDate now uid group.key then 0 else 2

/-- A sector that `reconcile` counts and that is mapped to none of the codes. -/
def Lost (codes : List String) (sectorUid : Uid) : Prop :=
  s.Missing sectorUid ∧ ∀ code ∈ codes, ∀ m ∈ s.blockMappings code, m.target ≠ .sector sectorUid

end OnboardingState

namespace OnboardingState

variable {c : OnboardingState} {group : BlockGroup} {key : BlockKey} {codes : List String}

theorem writes_congr (hsector : c.sectorOf now group.key = s.sectorOf now group.key)
    (hsubject : ∀ uid, s.sectorOf now group.key = some uid → (c.HasSubject uid ↔ s.HasSubject uid))
    (hdate : ∀ uid, s.sectorOf now group.key = some uid →
      (c.UpToDate now uid group.key ↔ s.UpToDate now uid group.key)) :
    c.writes now group = s.writes now group := by
  rw [writes, writes, hsector]
  cases huid : s.sectorOf now group.key with
  | none => rfl
  | some uid => simp only [hsubject uid huid, hdate uid huid]

/-- What transactions for blocks of the codes `touched` change concerns these blocks. -/
structure Progress (uids : ℕ → Uid) (now : Instant) (touched : List String)
    (s c : OnboardingState) : Prop where
  sound : c.Sound uids now
  blocks : ∀ instant, c.market.blockGroups instant = s.market.blockGroups instant
  files : c.market.tdxBlockArtifactVersion = s.market.tdxBlockArtifactVersion ∧
    c.market.tdxBlockMembership = s.market.tdxBlockMembership
  mappings : ∀ code, ∀ m ∈ s.blockMappings code, m ∈ c.blockMappings code
  subjects : ∀ uid, s.HasSubject uid → c.HasSubject uid
  sectors : ∀ group : BlockGroup, group.key.externalCode ∉ touched →
    c.sectorOf now group.key = s.sectorOf now group.key
  writes : ∀ group : BlockGroup, group.key.externalCode ∉ touched →
    c.writes now group = s.writes now group
  frozen : ∀ since ≤ now, s.Frozen since → c.Frozen since
  others : ∀ sectorUid,
    (∀ code ∈ touched, ∀ m ∈ c.blockMappings code, m.target ≠ .sector sectorUid) → ∀ date,
      c.membershipVersions sectorUid date = s.membershipVersions sectorUid date
  members : ∀ v ∈ s.sectors.sectorMembershipVersion, v ∈ c.sectors.sectorMembershipVersion ∧
    ∀ uid, c.HasMember v.membershipVersionUid uid ↔ s.HasMember v.membershipVersionUid uid

variable {touched : List String}

/-- Doing nothing is progress. -/
theorem Progress.refl (h : s.Sound uids now) : Progress uids now touched s s where
  sound := h
  blocks _ := rfl
  files := ⟨rfl, rfl⟩
  mappings _ _ hm := hm
  subjects _ hs := hs
  sectors _ _ := rfl
  writes _ _ := rfl
  frozen _ _ hf := hf
  others _ _ _ := rfl
  members _ hv := ⟨hv, fun _ => Iff.rfl⟩

/-- Progress is made one after the other. -/
theorem Progress.trans {c' : OnboardingState} (h : Progress uids now touched s c)
    (h' : Progress uids now touched c c') : Progress uids now touched s c' where
  sound := h'.sound
  blocks instant := (h'.blocks instant).trans (h.blocks instant)
  files := ⟨h'.files.1.trans h.files.1, h'.files.2.trans h.files.2⟩
  mappings code m hm := h'.mappings code m (h.mappings code m hm)
  subjects uid hs := h'.subjects uid (h.subjects uid hs)
  sectors group hne := (h'.sectors group hne).trans (h.sectors group hne)
  writes group hne := (h'.writes group hne).trans (h.writes group hne)
  frozen since hle hf := h'.frozen since hle (h.frozen since hle hf)
  others sectorUid hne date := (h'.others sectorUid hne date).trans
    (h.others sectorUid (fun code hcode m hm => hne code hcode m (h'.mappings _ m hm)) date)
  members v hv := ⟨(h'.members v (h.members v hv).1).1, fun uid =>
    ((h'.members v (h.members v hv).1).2 uid).trans ((h.members v hv).2 uid)⟩

theorem Progress.mono (h : Progress uids now touched s c) {touched' : List String}
    (hsub : touched ⊆ touched') : Progress uids now touched' s c :=
  { h with
    sectors := fun group hne => h.sectors group fun hmem => hne (hsub hmem)
    writes := fun group hne => h.writes group fun hmem => hne (hsub hmem)
    others := fun sectorUid hne => h.others sectorUid fun code hcode => hne code (hsub hcode) }

section Steps

variable (huids : Function.Injective uids) (h : s.Sound uids now)

include huids h

theorem progress_withSector (kind : SectorKind) :
    Progress uids now [key.externalCode] s (s.withSector (uids s.drawn) kind) :=
  { Progress.refl h with
    sound := h.withSector huids kind
    frozen := fun _ _ hf => hf.of_eq rfl rfl rfl rfl }

theorem progress_withSectorVersion {row : SectorVersion}
    (huid : row.sectorVersionUid = uids s.drawn) (hsector : s.HasSector row.sectorUid) :
    Progress uids now [key.externalCode] s (s.withSectorVersion row) :=
  { Progress.refl h with
    sound := h.withSectorVersion huids huid hsector
    frozen := fun _ _ hf => hf.of_eq rfl rfl rfl rfl }

omit huids h in
/-- The mapping of a code is read past those of others. -/
theorem sectorOf_withMapping {row : ProviderMapping} (hne : row.externalCode ≠ key.externalCode) :
    (s.withMapping row).sectorOf now key = s.sectorOf now key := by
  have hfilter : ((s.withMapping row).market.providerMapping.filter fun m =>
      m.providerKey = "NATIVE_TDX" ∧ m.externalCode = key.externalCode ∧ m.validFrom ≤ now) =
        s.market.providerMapping.filter fun m =>
          m.providerKey = "NATIVE_TDX" ∧ m.externalCode = key.externalCode ∧
            m.validFrom ≤ now := by
    refine (List.filter_append ..).trans ?_
    rw [List.filter_singleton, decide_eq_false fun hrow => hne hrow.2.1, cond_false,
      List.append_nil]
  rw [sectorOf, sectorOf, MarketTables.resolveProviderMapping, MarketTables.mappingAt, hfilter]
  rfl

/-- The mapping of a block is progress. -/
theorem progress_withMapping {row : ProviderMapping} {uid : Uid}
    (huid : row.mappingUid = uids s.drawn) (hprovider : row.providerKey = "NATIVE_TDX")
    (hcode : row.externalCode = key.externalCode) (htarget : row.target = .sector uid)
    (hfrom : row.validFrom ≤ now) (hsector : s.HasSector uid) (hversion : s.Versioned uid)
    (hfree : s.blockMappings key.externalCode = [])
    (hapart : ∀ key' : BlockKey, ∀ m ∈ s.blockMappings key'.externalCode, m.target ≠ .sector uid) :
    Progress uids now [key.externalCode] s (s.withMapping row) := by
  have hne : ∀ group : BlockGroup, group.key.externalCode ∉ [key.externalCode] →
      (s.withMapping row).sectorOf now group.key = s.sectorOf now group.key := fun group hne =>
    sectorOf_withMapping (hcode ▸ fun heq => hne (List.mem_singleton.mpr heq.symm))
  exact { (Progress.refl h : Progress uids now [key.externalCode] s s) with
    sound := h.withMapping huids huid hprovider hcode htarget hfrom hsector hversion hfree hapart
    blocks := MarketTables.blockGroups_withMapping hcode
    mappings := fun _ _ hm => (mem_blockMappings_withMapping hprovider).mpr (.inl hm)
    sectors := hne
    writes := fun group hgroup =>
      writes_congr (hne group hgroup) (fun _ _ => Iff.rfl) fun _ _ => Iff.rfl
    frozen := fun _ _ hf => hf.withMapping hprovider hcode
    others := fun _ _ _ => rfl }

omit huids in
/-- Two blocks have two sectors. -/
theorem Sound.sector_ne {uid uid' : Uid} {m : ProviderMapping}
    (hm : m ∈ s.blockMappings key.externalCode) (htarget : m.target = .sector uid)
    (hne : group.key.externalCode ∉ [key.externalCode])
    (hsector : s.sectorOf now group.key = some uid') : uid' ≠ uid := by
  rintro rfl
  obtain ⟨m', hm', htarget'⟩ := h.resolve_eq_some.mp hsector
  refine hne (List.mem_singleton.mpr ?_)
  exact (h.apart group.key key m' hm' m hm (htarget'.trans htarget.symm))

/-- So is the subject of its sector. -/
theorem progress_withSubject {row : AnalysisSubject} {uid : Uid} {m : ProviderMapping}
    (huid : row.subjectUid = uids s.drawn) (htarget : row.target = .sector uid)
    (hsector : s.HasSector uid) (hm : m ∈ s.blockMappings key.externalCode)
    (hmapped : m.target = .sector uid) :
    Progress uids now [key.externalCode] s (s.withSubject row) where
  sound := h.withSubject huids huid htarget hsector
  blocks _ := rfl
  files := ⟨rfl, rfl⟩
  mappings _ _ hm := hm
  subjects := by
    rintro uid' ⟨a, ha, hsubject⟩
    exact ⟨a, List.mem_append_left _ ha, hsubject⟩
  sectors _ _ := rfl
  writes group hne := by
    refine writes_congr rfl (fun uid' huid' => ⟨?_, ?_⟩) fun _ _ => Iff.rfl
    · rintro ⟨a, ha, hsubject⟩
      rcases List.mem_append.mp ha with ha | ha
      · exact ⟨a, ha, hsubject⟩
      · rw [List.mem_singleton.mp ha, htarget] at hsubject
        exact absurd (SubjectTarget.sector.inj hsubject).symm (h.sector_ne hm hmapped hne huid')
    · rintro ⟨a, ha, hsubject⟩
      exact ⟨a, List.mem_append_left _ ha, hsubject⟩
  frozen _ _ hf := hf.of_eq rfl rfl rfl rfl
  others _ _ _ := rfl
  members _ hv := ⟨hv, fun _ => Iff.rfl⟩

omit huids h in
/-- A version of another sector is not one of the sector. -/
theorem membershipVersions_withMembership {row : SectorMembershipVersion} (members : List Uid)
    {sectorUid : Uid} (hne : sectorUid ≠ row.sectorUid) (date : String) :
    (s.withMembership row members).membershipVersions sectorUid date =
      s.membershipVersions sectorUid date := by
  refine (List.filter_append ..).trans ?_
  rw [List.filter_singleton, decide_eq_false fun hrow => hne hrow.1.symm, cond_false,
    List.append_nil]
  rfl

/-- So is a membership version of its sector. -/
theorem progress_withMembership {row : SectorMembershipVersion} {m : ProviderMapping}
    (huid : row.membershipVersionUid = uids s.drawn) (hsector : s.HasSector row.sectorUid)
    (hversion : row.version = nextOrder
      ((s.membershipVersions row.sectorUid row.tradingDate).map SectorMembershipVersion.version))
    (members : List Uid) (hm : m ∈ s.blockMappings key.externalCode)
    (hmapped : m.target = .sector row.sectorUid) :
    Progress uids now [key.externalCode] s (s.withMembership row members) where
  sound := h.withMembership huids huid hsector members
  blocks _ := rfl
  files := ⟨rfl, rfl⟩
  mappings _ _ hm := hm
  subjects _ hs := hs
  sectors _ _ := rfl
  writes group hne := by
    refine writes_congr rfl (fun _ _ => Iff.rfl) fun uid' huid' => ?_
    rw [UpToDate, UpToDate, latestMembership, latestMembership,
      membershipVersions_withMembership members (h.sector_ne hm hmapped hne huid')]
    rfl
  frozen _ _ hf := hf.withMembership (huid ▸ h.unused s.drawn le_rfl) hversion members
  others sectorUid hne := membershipVersions_withMembership members fun heq =>
    hne _ (List.mem_singleton_self _) m hm (heq ▸ hmapped)
  members v hv := by
    refine ⟨List.mem_append_left _ hv, fun uid => ⟨?_, ?_⟩⟩
    · rintro ⟨r, hr, hrv, hruid⟩
      rcases List.mem_append.mp hr with hr | hr
      · exact ⟨r, hr, hrv, hruid⟩
      · obtain ⟨uid', -, rfl⟩ := List.mem_map.mp hr
        exact absurd (hrv.symm.trans huid) ((h.unused s.drawn le_rfl).membershipVersion v hv).1
    · rintro ⟨r, hr, hrow⟩
      exact ⟨r, List.mem_append_left _ hr, hrow⟩

omit huids in
/-- So is the source of that version. -/
theorem progress_withSource {row : TdxSectorMembershipSource} {uid : Uid} {m : ProviderMapping}
    (hversion : ∃ v ∈ s.sectors.sectorMembershipVersion,
      v.membershipVersionUid = row.membershipVersionUid)
    (hown : ∀ v ∈ s.sectors.sectorMembershipVersion,
      v.membershipVersionUid = row.membershipVersionUid → v.sectorUid = uid)
    (hm : m ∈ s.blockMappings key.externalCode) (hmapped : m.target = .sector uid)
    (hsourced : ∀ since ≤ now, s.Frozen since → ∀ v ∈ s.sectors.sectorMembershipVersion,
      row.membershipVersionUid = v.membershipVersionUid → ∃ key, s.Sourced since v row key) :
    Progress uids now [key.externalCode] s (s.withSource row) where
  sound := h.withSource hversion
  blocks _ := rfl
  files := ⟨rfl, rfl⟩
  mappings _ _ hm := hm
  subjects _ hs := hs
  sectors _ _ := rfl
  writes group hne := by
    refine writes_congr rfl (fun _ _ => Iff.rfl) fun uid' huid' => ?_
    have huid'' := h.sector_ne hm hmapped hne huid'
    rw [UpToDate, UpToDate, latestMembership, latestMembership]
    change ((latest SectorMembershipVersion.version (s.membershipVersions uid' _)).map _).bind _ =
      _ ↔ _
    cases hnewest : latest SectorMembershipVersion.version
      (s.membershipVersions uid' (isoformat (chinaDate now))) with
    | none => rfl
    | some v =>
      obtain ⟨hv, hsector⟩ := List.mem_filter.mp (mem_of_latest hnewest)
      have hother : ¬row.membershipVersionUid = v.membershipVersionUid := fun heq =>
        huid'' ((of_decide_eq_true hsector).1.symm.trans (hown v hv heq.symm))
      have hsource : (s.withSource row).sectors.tdxSectorMembershipSource.find? (fun x =>
          x.membershipVersionUid = v.membershipVersionUid) =
            s.sectors.tdxSectorMembershipSource.find? fun x =>
              x.membershipVersionUid = v.membershipVersionUid := by
        refine (List.find?_append ..).trans ?_
        rw [List.find?_singleton, decide_eq_false hother, if_neg Bool.false_ne_true,
          Option.or_none]
      simp only [Option.map_some, hsource]
  frozen since hle hf := hf.withSource (hsourced since hle hf)
  others _ _ _ := rfl
  members _ hv := ⟨hv, fun _ => Iff.rfl⟩

end Steps

/-! ## Sectors without a subject -/

section Lost

/-- A new sector has no version, so it is not counted. -/
theorem lost_withSector {uid : Uid} (hunused : s.Unused uid) (kind : SectorKind) {uid' : Uid} :
    (s.withSector uid kind).Lost codes uid' ↔ s.Lost codes uid' := by
  refine and_congr_left' ⟨?_, ?_⟩
  · rintro ⟨⟨x, hx, rfl⟩, ⟨v, hv, hvuid⟩, hsubject⟩
    rcases List.mem_append.mp hx with hx | hx
    · exact ⟨⟨x, hx, rfl⟩, ⟨v, hv, hvuid⟩, hsubject⟩
    · rw [List.mem_singleton.mp hx] at hvuid
      exact absurd hvuid (hunused.sectorVersion v hv).2
  · rintro ⟨⟨x, hx, hxuid⟩, hversion, hsubject⟩
    exact ⟨⟨x, List.mem_append_left _ hx, hxuid⟩, hversion, hsubject⟩

/-- A version counts its sector, which nothing maps yet. -/
theorem lost_withSectorVersion {row : SectorVersion} (hsector : s.HasSector row.sectorUid)
    (hsubject : ¬s.HasSubject row.sectorUid)
    (hapart : ∀ code ∈ codes, ∀ m ∈ s.blockMappings code, m.target ≠ .sector row.sectorUid) :
    (s.withSectorVersion row).Lost codes row.sectorUid :=
  ⟨⟨hsector, ⟨row, List.mem_append_right _ (List.mem_singleton_self row), rfl⟩, hsubject⟩, hapart⟩

/-- The mapping of a new sector brings it back to its block. -/
theorem lost_withMapping {uid : Uid} (hunused : s.Unused uid) {kind : SectorKind}
    {version : SectorVersion} (hversion : version.sectorUid = uid) {row : ProviderMapping}
    (hprovider : row.providerKey = "NATIVE_TDX") (hcode : row.externalCode ∈ codes)
    (htarget : row.target = .sector uid) {uid' : Uid} :
    (((s.withSector uid kind).withSectorVersion version).withMapping row).Lost codes uid' ↔
      s.Lost codes uid' := by
  have hmem := @mem_blockMappings_withMapping
    ((s.withSector uid kind).withSectorVersion version) row hprovider
  constructor
  · rintro ⟨⟨⟨x, hx, hxuid⟩, ⟨v, hv, hvuid⟩, hsubject⟩, hcodes⟩
    have hne : uid ≠ uid' := by
      rintro rfl
      exact hcodes row.externalCode hcode row (hmem.mpr (.inr ⟨rfl, rfl⟩)) htarget
    refine ⟨⟨⟨x, ?_, hxuid⟩, ⟨v, ?_, hvuid⟩, hsubject⟩, fun code hc m hm =>
      hcodes code hc m (hmem.mpr (.inl hm))⟩
    · rcases List.mem_append.mp hx with hx | hx
      · exact hx
      · rw [List.mem_singleton.mp hx] at hxuid
        exact absurd hxuid hne
    · rcases List.mem_append.mp hv with hv | hv
      · exact hv
      · rw [List.mem_singleton.mp hv, hversion] at hvuid
        exact absurd hvuid hne
  · rintro ⟨⟨⟨x, hx, hxuid⟩, ⟨v, hv, hvuid⟩, hsubject⟩, hcodes⟩
    refine ⟨⟨⟨x, List.mem_append_left _ hx, hxuid⟩, ⟨v, List.mem_append_left _ hv, hvuid⟩,
      hsubject⟩, fun code hc m hm => ?_⟩
    rcases hmem.mp hm with hm | ⟨rfl, -⟩
    · exact hcodes code hc m hm
    · rw [htarget]
      intro heq
      exact hunused.sector x hx (hxuid.trans (MappingTarget.sector.inj heq).symm)

/-- A sector that is mapped is not lost, with or without its subject. -/
theorem lost_withSubject {row : AnalysisSubject} {uid : Uid} (htarget : row.target = .sector uid)
    {code : String} (hcode : code ∈ codes) {m : ProviderMapping} (hm : m ∈ s.blockMappings code)
    (hmapped : m.target = .sector uid) {uid' : Uid} :
    (s.withSubject row).Lost codes uid' ↔ s.Lost codes uid' := by
  by_cases huid : uid' = uid
  · subst huid
    exact iff_of_false (fun hlost => hlost.2 code hcode m hm hmapped)
      fun hlost => hlost.2 code hcode m hm hmapped
  · refine and_congr_left' (and_congr_right' (and_congr_right' (not_congr ⟨?_, ?_⟩)))
    · rintro ⟨a, ha, hsubject⟩
      rcases List.mem_append.mp ha with ha | ha
      · exact ⟨a, ha, hsubject⟩
      · rw [List.mem_singleton.mp ha, htarget] at hsubject
        exact absurd (SubjectTarget.sector.inj hsubject).symm huid
    · rintro ⟨a, ha, hsubject⟩
      exact ⟨a, List.mem_append_left _ ha, hsubject⟩

end Lost

end OnboardingState

/-! ## The course of a block -/

namespace OnboardingState

variable {c : OnboardingState} {group : BlockGroup} {key : BlockKey} {codes : List String}

section Course

variable (huids : Function.Injective uids) (h : s.Sound uids now)

include huids h

/-- A block without a sector gets one, with a version, a mapping and a subject. Only between
the version and the mapping is the sector lost. -/
theorem course_newSector (hcode : key.externalCode ∈ codes) (hnew : s.sectorOf now key = none) :
    ∃ commits, Does (sectorUidOf uids key now) s commits (uids s.drawn) ∧ commits.length = 4 ∧
      Passes (fun n c => Progress uids now [key.externalCode] s c ∧
        ((∃ uid, c.Lost codes uid) ↔ (∃ uid, s.Lost codes uid) ∨ n = 2)) s commits ∧
      (∃ m ∈ (lastOf s commits).blockMappings key.externalCode,
        m.target = .sector (uids s.drawn)) ∧
      (lastOf s commits).HasSubject (uids s.drawn) ∧
      ∀ date, (lastOf s commits).latestMembership (uids s.drawn) date = none := by
  have hunused := h.unused s.drawn le_rfl
  have hfree := h.resolve_eq_none.mp hnew
  -- The four states.
  let s₁ := s.withSector (uids s.drawn) .concept
  let s₂ := s₁.withSectorVersion ⟨uids s₁.drawn, uids s.drawn, 1, key.blockName, now⟩
  let m : ProviderMapping :=
    ⟨uids s₂.drawn, "NATIVE_TDX", key.externalCode, .sector (uids s.drawn), now, none⟩
  let s₃ := s₂.withMapping m
  let s₄ := s₃.withSubject ⟨uids s₃.drawn, .sector (uids s.drawn)⟩
  have hsector : s₁.HasSector (uids s.drawn) :=
    ⟨_, List.mem_append_right _ (List.mem_singleton_self _), rfl⟩
  have hversion : s₂.Versioned (uids s.drawn) :=
    ⟨_, List.mem_append_right _ (List.mem_singleton_self _), rfl⟩
  have hfirst : ¬s₁.Versioned (uids s.drawn) := fun ⟨v, hv, hvuid⟩ =>
    (hunused.sectorVersion v hv).2 hvuid
  have hsubject : ¬s.HasSubject (uids s.drawn) := fun ⟨a, ha, htarget⟩ =>
    (hunused.subject a ha).2 htarget
  have hapart : ∀ code, ∀ m ∈ s.blockMappings code, m.target ≠ .sector (uids s.drawn) :=
    fun code m hm => (hunused.mapping m (List.mem_filter.mp hm).1).2
  have hm : m ∈ s₃.blockMappings key.externalCode :=
    (mem_blockMappings_withMapping rfl).mpr (.inr ⟨rfl, rfl⟩)
  have h₁ : Progress uids now [key.externalCode] s s₁ := progress_withSector huids h .concept
  have h₂ : Progress uids now [key.externalCode] s₁ s₂ :=
    progress_withSectorVersion huids h₁.sound rfl hsector
  have h₃ : Progress uids now [key.externalCode] s₂ s₃ :=
    progress_withMapping huids h₂.sound rfl rfl rfl rfl le_rfl hsector hversion hfree
      fun key' => hapart key'.externalCode
  have h₄ : Progress uids now [key.externalCode] s₃ s₄ :=
    progress_withSubject huids h₃.sound rfl rfl hsector hm rfl
  have hdone : Does (sectorUidOf uids key now) s [s₁, s₂, s₃, s₄] (uids s.drawn) := by
    have hnone : s.market.resolveProviderMapping "NATIVE_TDX" key.externalCode now = none := hnew
    refine (does_read _ s).bind ?_
    simp only [hnone, lastOf_nil]
    refine (does_createSector hunused .concept).bind ?_
    refine (does_addSectorVersion (h₁.sound.unused _ le_rfl) hsector hfirst key.blockName
      now).bind ?_
    refine (does_mapSector ((h₁.trans h₂).sound.unused _ le_rfl) hsector hfree now).bind ?_
    refine (does_ensureAnalysisSubject (((h₁.trans h₂).trans h₃).sound.unused _ le_rfl) hsector
      hsubject).bind ?_
    exact does_pure _ _
  refine ⟨[s₁, s₂, s₃, s₄], hdone, rfl, ?_, ⟨m, hm, rfl⟩, ?_, ?_⟩
  · refine passes_cons ⟨.refl h, by simp⟩ (passes_cons ⟨h₁, ?_⟩ (passes_cons ⟨h₁.trans h₂, ?_⟩
      (passes_cons ⟨(h₁.trans h₂).trans h₃, ?_⟩
        (passes_nil ⟨((h₁.trans h₂).trans h₃).trans h₄, ?_⟩))))
    · rw [or_iff_left (by omega)]
      exact exists_congr fun _ => lost_withSector hunused _
    · exact iff_of_true ⟨_, lost_withSectorVersion hsector hsubject fun code _ => hapart code⟩
        (.inr rfl)
    · rw [or_iff_left (by omega)]
      exact exists_congr fun _ => lost_withMapping hunused rfl rfl hcode rfl
    · rw [or_iff_left (by omega)]
      exact exists_congr fun _ => (lost_withSubject rfl hcode hm rfl).trans
        (lost_withMapping hunused rfl rfl hcode rfl)
  · exact ⟨_, List.mem_append_right _ (List.mem_singleton_self _), rfl⟩
  · intro date
    have hnone : s.membershipVersions (uids s.drawn) date = [] :=
      List.filter_eq_nil_iff.mpr fun v hv hrow =>
        (hunused.membershipVersion v hv).2 (of_decide_eq_true hrow).1
    change (latest SectorMembershipVersion.version
      (s.membershipVersions (uids s.drawn) date)).map _ = none
    rw [hnone]
    rfl

/-- A block with a sector keeps it, and the sector gets its subject. -/
theorem course_mappedSector (hcode : key.externalCode ∈ codes) {uid : Uid}
    (hmapped : s.sectorOf now key = some uid) :
    ∃ commits, Does (sectorUidOf uids key now) s commits uid ∧
      commits.length = (if s.HasSubject uid then 0 else 1) ∧
      Passes (fun _ c => Progress uids now [key.externalCode] s c ∧
        ((∃ uid, c.Lost codes uid) ↔ ∃ uid, s.Lost codes uid)) s commits ∧
      (lastOf s commits).HasSubject uid ∧
      ∀ date, (lastOf s commits).latestMembership uid date = s.latestMembership uid date := by
  have hsome : s.market.resolveProviderMapping "NATIVE_TDX" key.externalCode now = some uid :=
    hmapped
  obtain ⟨m, hm, htarget⟩ := h.resolve_eq_some.mp hsome
  have hsector : s.HasSector uid := by
    obtain ⟨-, uid', htarget', hsector, -⟩ := h.mapped key m hm
    rwa [MappingTarget.sector.inj (htarget.symm.trans htarget')]
  by_cases hsubject : s.HasSubject uid
  · obtain ⟨subjectUid, hsame⟩ := does_ensureAnalysisSubject_of_hasSubject uids hsubject
    refine ⟨[], ?_, (if_pos hsubject).symm, passes_nil ⟨.refl h, Iff.rfl⟩, hsubject, fun _ => rfl⟩
    refine (does_read _ s).bind ?_
    simp only [hsome, lastOf_nil]
    exact hsame.bind (does_pure _ _)
  · have hnew := h.unused s.drawn le_rfl
    refine ⟨[s.withSubject ⟨uids s.drawn, .sector uid⟩], ?_, (if_neg hsubject).symm,
      passes_cons ⟨.refl h, Iff.rfl⟩ (passes_nil ⟨?_, ?_⟩),
      ⟨_, List.mem_append_right _ (List.mem_singleton_self _), rfl⟩, fun _ => rfl⟩
    · refine (does_read _ s).bind ?_
      simp only [hsome, lastOf_nil]
      exact (does_ensureAnalysisSubject hnew hsector hsubject).bind (does_pure _ _)
    · exact progress_withSubject huids h rfl rfl hsector hm htarget
    · exact exists_congr fun _ => lost_withSubject rfl hcode hm htarget

omit huids in
/-- The membership that is frozen for a block holds its eligible stocks. -/
theorem Sound.sourced_group (hgroup : group ∈ s.market.blockGroups now) {m : ProviderMapping}
    (hm : m ∈ s.blockMappings group.key.externalCode) {uid : Uid}
    (htarget : m.target = .sector uid) {since : Instant} (hle : since ≤ now)
    {row : SectorMembershipVersion} {source : TdxSectorMembershipSource}
    (hf : (s.withMembership row (group.members.dedup.insertionSort (· ≤ ·))).Frozen since)
    (hunused : s.Unused row.membershipVersionUid) (hrow : row.sectorUid = uid)
    (hsource : source.blockVersionUid = group.key.blockVersionUid) :
    (s.withMembership row (group.members.dedup.insertionSort (· ≤ ·))).Sourced since row source
      group.key := by
  have hblock := MarketTables.onboardable_of_mem hgroup
  obtain ⟨b, hb, hbuid, hname⟩ := hblock.version
  refine ⟨hsource.symm, hname ▸ h.filenames b hb, ⟨b, hb, hbuid⟩, ⟨m, hm, hrow ▸ htarget⟩,
    fun uid' => ?_⟩
  have hmember : uid' ∈ group.members.dedup.insertionSort (· ≤ ·) ↔ uid' ∈ group.members := by
    rw [(List.perm_insertionSort _ _).mem_iff, List.mem_dedup]
  refine Iff.trans ?_ (hf.eligible_iff hle)
  change _ ↔ s.market.Eligible now group.key uid'
  rw [← MarketTables.mem_members hgroup, ← hmember]
  constructor
  · rintro ⟨r, hr, hruid, rfl⟩
    rcases List.mem_append.mp hr with hr | hr
    · exact absurd hruid (hunused.member r hr)
    · obtain ⟨uid', huid', rfl⟩ := List.mem_map.mp hr
      exact huid'
  · intro huid'
    exact ⟨⟨row.membershipVersionUid, uid', "MEMBER"⟩,
      List.mem_append_right _ (List.mem_map.mpr ⟨uid', huid', rfl⟩), rfl, rfl⟩

omit huids h in
/-- A new version with its source is the latest of its day. -/
theorem upToDate_of_sourced {uid : Uid} {row : SectorMembershipVersion} {members : List Uid}
    {source : TdxSectorMembershipSource} (hunused : s.Unused row.membershipVersionUid)
    (hsource : source.membershipVersionUid = row.membershipVersionUid)
    (hsector : row.sectorUid = uid) (hdate : row.tradingDate = isoformat (chinaDate now))
    (hversion : row.version = nextOrder
      ((s.membershipVersions uid row.tradingDate).map SectorMembershipVersion.version))
    (hblock : source.blockVersionUid = key.blockVersionUid) :
    ((s.withMembership row members).withSource source).UpToDate now uid key := by
  have hversions : ((s.withMembership row members).withSource source).membershipVersions uid
      (isoformat (chinaDate now)) =
        s.membershipVersions uid (isoformat (chinaDate now)) ++ [row] := by
    refine (List.filter_append ..).trans ?_
    rw [List.filter_singleton, decide_eq_true ⟨hsector, hdate⟩, cond_true]
    rfl
  have hlatest : latest SectorMembershipVersion.version
      (s.membershipVersions uid (isoformat (chinaDate now)) ++ [row]) = some row := by
    refine latest_concat fun v hv => ?_
    rw [hversion, hdate]
    exact lt_nextOrder (List.mem_map_of_mem hv)
  have hnone : s.sectors.tdxSectorMembershipSource.find? (fun x =>
      x.membershipVersionUid = row.membershipVersionUid) = none :=
    List.find?_eq_none.mpr fun x hx heq => hunused.source x hx (of_decide_eq_true heq)
  have hfind :
      ((s.withMembership row members).withSource source).sectors.tdxSectorMembershipSource.find?
        (fun x => x.membershipVersionUid = row.membershipVersionUid) = some source := by
    refine (List.find?_append ..).trans ?_
    rw [List.find?_singleton, decide_eq_true hsource, if_pos rfl]
    exact congrArg (·.or (some source)) hnone
  rw [UpToDate, latestMembership, hversions, hlatest, Option.map_some, hfind, Option.map_some,
    Option.bind_some, hblock]

/-- The membership of a block that comes from another version of its file is frozen, with its
source. -/
theorem course_membership (codes : List String) (hgroup : group ∈ s.market.blockGroups now)
    {m : ProviderMapping}
    (hm : m ∈ s.blockMappings group.key.externalCode) {uid : Uid}
    (htarget : m.target = .sector uid) :
    ∃ commits created, Does (synchronizeMembership uids now group uid) s commits created ∧
      commits.length = (if s.UpToDate now uid group.key then 0 else 2) ∧
      Passes (fun _ c => Progress uids now [group.key.externalCode] s c ∧
        ((∃ uid, c.Lost codes uid) ↔ ∃ uid, s.Lost codes uid)) s commits ∧
      (lastOf s commits).UpToDate now uid group.key := by
  have hblock := MarketTables.onboardable_of_mem hgroup
  have hunused := h.unused s.drawn le_rfl
  have hsector : s.HasSector uid := by
    obtain ⟨-, uid', htarget', hsector, -⟩ := h.mapped group.key m hm
    rwa [MappingTarget.sector.inj (htarget.symm.trans htarget')]
  by_cases hdate : s.UpToDate now uid group.key
  · have hsource : (s.latestMembership uid (isoformat (chinaDate now))).bind Prod.snd =
        some group.key.blockVersionUid := hdate
    refine ⟨[], [], ?_, (if_pos hdate).symm, passes_nil ⟨.refl h, Iff.rfl⟩, hdate⟩
    refine (does_read _ s).bind ?_
    rw [if_pos hsource]
    exact does_pure _ _
  · let date := isoformat (chinaDate now)
    let newest := s.latestMembership uid date
    have hsource : ¬newest.bind Prod.snd = some group.key.blockVersionUid := hdate
    have hcorrection : (latest SectorMembershipVersion.version
        (s.membershipVersions uid date)).isSome = newest.isSome := by
      simp only [newest, latestMembership, Option.isSome_map]
    let row : SectorMembershipVersion := ⟨uids s.drawn, uid, date, nextOrder
      ((s.membershipVersions uid date).map SectorMembershipVersion.version), now, now,
      newest.isSome, if newest.isSome then "CORRECTION" else "DAILY_FREEZE"⟩
    let s₁ := s.withMembership row (group.members.dedup.insertionSort (· ≤ ·))
    let source : TdxSectorMembershipSource := ⟨uids s.drawn, group.key.blockVersionUid,
      group.key.membershipKind, group.key.blockName, group.key.blockType⟩
    have hrow : row ∈ s₁.sectors.sectorMembershipVersion :=
      List.mem_append_right _ (List.mem_singleton_self _)
    have hown : ∀ v ∈ s₁.sectors.sectorMembershipVersion,
        v.membershipVersionUid = uids s.drawn → v.sectorUid = uid := by
      intro v hv hvuid
      rcases List.mem_append.mp hv with hv | hv
      · exact absurd hvuid (hunused.membershipVersion v hv).1
      · rw [List.mem_singleton.mp hv]
    have hsourced : ∀ since ≤ now, s₁.Frozen since →
        ∀ v ∈ s₁.sectors.sectorMembershipVersion, uids s.drawn = v.membershipVersionUid →
          ∃ key, s₁.Sourced since v source key := by
      intro since hle hf v hv hvuid
      rcases List.mem_append.mp hv with hv | hv
      · exact absurd hvuid.symm (hunused.membershipVersion v hv).1
      · rw [List.mem_singleton.mp hv]
        exact ⟨group.key, h.sourced_group hgroup hm htarget hle hf hunused rfl rfl⟩
    have h₁ : Progress uids now [group.key.externalCode] s s₁ :=
      progress_withMembership huids h rfl hsector rfl _ hm htarget
    have h₂ : Progress uids now [group.key.externalCode] s₁ (s₁.withSource source) :=
      progress_withSource h₁.sound ⟨row, hrow, rfl⟩ hown hm htarget hsourced
    refine ⟨[s₁, s₁.withSource source], [uids s.drawn], ?_, (if_neg hdate).symm,
      passes_cons ⟨.refl h, Iff.rfl⟩ (passes_cons ⟨h₁, Iff.rfl⟩
        (passes_nil ⟨h₁.trans h₂, Iff.rfl⟩)), upToDate_of_sourced hunused rfl rfl rfl rfl rfl⟩
    refine (does_read _ s).bind ?_
    rw [if_neg hsource]
    refine (does_freezeMembership hunused hsector hblock.members now hcorrection).bind ?_
    obtain ⟨v, hv, hvuid, -⟩ := hblock.version
    have hrecord : Does (recordSectorMembershipSource source) s₁ [s₁.withSource source] () :=
      does_recordSectorMembershipSource hblock.kind ⟨row, hrow, rfl⟩ ⟨v, hv, hvuid⟩ hunused.source
    exact hrecord.bind (does_pure _ _)

omit huids in
/-- A block whose sector has its subject and the membership of the day needs nothing. -/
theorem Sound.writes_eq_zero {m : ProviderMapping} (hm : m ∈ s.blockMappings group.key.externalCode)
    {uid : Uid} (htarget : m.target = .sector uid) (hsubject : s.HasSubject uid)
    (hdate : s.UpToDate now uid group.key) : s.writes now group = 0 := by
  have hsector : s.sectorOf now group.key = some uid := h.resolve_eq_some.mpr ⟨m, hm, htarget⟩
  rw [writes, hsector]
  simp only [if_pos hsubject, if_pos hdate]

omit huids in
/-- A block that needs no write has its mapping, its subject and its membership. -/
theorem Sound.of_writes_eq_zero (hzero : s.writes now group = 0) :
    ∃ m ∈ s.blockMappings group.key.externalCode, ∃ uid, m.target = .sector uid ∧
      s.sectorOf now group.key = some uid ∧ s.HasSubject uid ∧ s.UpToDate now uid group.key := by
  cases hsector : s.sectorOf now group.key with
  | none =>
    rw [writes, hsector] at hzero
    exact absurd hzero (Nat.succ_ne_zero 5)
  | some uid =>
    obtain ⟨m, hm, htarget⟩ := h.resolve_eq_some.mp hsector
    rw [writes, hsector] at hzero
    simp only [Nat.add_eq_zero_iff, ite_eq_left_iff] at hzero
    refine ⟨m, hm, uid, htarget, rfl, ?_, ?_⟩
    · by_contra hnone
      exact absurd (hzero.1 hnone) (by decide)
    · by_contra hnone
      exact absurd (hzero.2 hnone) (by decide)

/-- The transactions of a block, of which one leaves a sector lost : the one that gives a new
sector its version. -/
theorem course_group (hgroup : group ∈ s.market.blockGroups now)
    (hcode : group.key.externalCode ∈ codes) :
    ∃ commits created, Does (synchronizeGroup uids now group) s commits created ∧
      commits.length = s.writes now group ∧
      Passes (fun n c => Progress uids now [group.key.externalCode] s c ∧
        ((∃ uid, c.Lost codes uid) ↔ (∃ uid, s.Lost codes uid) ∨
          (s.sectorOf now group.key = none ∧ n = 2))) s commits ∧
      (lastOf s commits).writes now group = 0 := by
  cases hsector : s.sectorOf now group.key with
  | none =>
    obtain ⟨commits, hdoes, hlength, hpasses, ⟨m, hm, htarget⟩, hsubject, hdate⟩ :=
      course_newSector huids h hcode hsector
    obtain ⟨hprogress, hlost⟩ := hpasses.last
    rw [or_iff_left (by omega)] at hlost
    have hgroup' : group ∈ (lastOf s commits).market.blockGroups now := by
      rw [hprogress.blocks]
      exact hgroup
    obtain ⟨commits', created, hdoes', hlength', hpasses', hdone⟩ :=
      course_membership huids hprogress.sound codes hgroup' hm htarget
    have hstale : ¬(lastOf s commits).UpToDate now (uids s.drawn) group.key := by
      rw [UpToDate, hdate]
      exact nofun
    rw [if_neg hstale] at hlength'
    refine ⟨commits ++ commits', created, hdoes.bind hdoes', ?_, ?_, ?_⟩
    · rw [List.length_append, hlength, hlength', writes, hsector]
    · refine Passes.append (hpasses.imp fun n c _ hc => ⟨hc.1, by simpa using hc.2⟩)
        (hpasses'.imp fun n c _ hc => ⟨hprogress.trans hc.1, ?_⟩)
      rw [or_iff_left (by omega), hc.2, hlost]
    · have hlast := hpasses'.last.1
      rw [lastOf_append]
      exact hlast.sound.writes_eq_zero (hlast.mappings _ m hm) htarget
        (hlast.subjects _ hsubject) hdone
  | some uid =>
    obtain ⟨commits, hdoes, hlength, hpasses, hsubject, hdate⟩ :=
      course_mappedSector huids h hcode hsector
    obtain ⟨hprogress, hlost⟩ := hpasses.last
    obtain ⟨m, hm, htarget⟩ := h.resolve_eq_some.mp hsector
    have hgroup' : group ∈ (lastOf s commits).market.blockGroups now := by
      rw [hprogress.blocks]
      exact hgroup
    have hm' := hprogress.mappings _ m hm
    obtain ⟨commits', created, hdoes', hlength', hpasses', hdone⟩ :=
      course_membership huids hprogress.sound codes hgroup' hm' htarget
    have hsame : (lastOf s commits).UpToDate now uid group.key ↔ s.UpToDate now uid group.key := by
      rw [UpToDate, UpToDate, hdate]
    refine ⟨commits ++ commits', created, hdoes.bind hdoes', ?_, ?_, ?_⟩
    · rw [List.length_append, hlength, hlength', writes, hsector]
      simp only [hsame]
    · refine Passes.append (hpasses.imp fun n c _ hc => ⟨hc.1, by simpa using hc.2⟩)
        (hpasses'.imp fun n c _ hc => ⟨hprogress.trans hc.1, ?_⟩)
      rw [hc.2, hlost]
      simp
    · have hlast := hpasses'.last.1
      rw [lastOf_append]
      exact hlast.sound.writes_eq_zero (hlast.mappings _ m hm') htarget
        (hlast.subjects _ hsubject) hdone

/-- The run stops after the version of a new sector and before its mapping. -/
def StopsAtVersion (s : OnboardingState) (now : Instant) (groups : List BlockGroup)
    (n : ℕ) : Prop :=
  ∃ before group after, groups = before ++ group :: after ∧
    s.sectorOf now group.key = none ∧ n = (before.map (s.writes now)).sum + 2

omit huids h in
theorem not_stopsAtVersion_nil (n : ℕ) : ¬s.StopsAtVersion now [] n := by
  rintro ⟨before, group, after, heq, -⟩
  simp at heq

omit huids h in
/-- A stop is in the first block or in the others. -/
theorem stopsAtVersion_cons {groups : List BlockGroup} {n : ℕ} :
    s.StopsAtVersion now (group :: groups) n ↔
      (s.sectorOf now group.key = none ∧ n = 2) ∨
        ∃ k, n = s.writes now group + k ∧ s.StopsAtVersion now groups k := by
  constructor
  · rintro ⟨_ | ⟨first, before⟩, group', after, heq, hnone, rfl⟩
    · obtain ⟨rfl, rfl⟩ := List.cons.inj heq
      exact .inl ⟨hnone, by simp⟩
    · obtain ⟨rfl, rfl⟩ := List.cons.inj heq
      refine .inr ⟨(before.map (s.writes now)).sum + 2, ?_, before, group', after, rfl, hnone, rfl⟩
      rw [List.map_cons, List.sum_cons, Nat.add_assoc]
  · rintro (⟨hnone, rfl⟩ | ⟨k, rfl, before, group', after, rfl, hnone, rfl⟩)
    · exact ⟨[], group, groups, rfl, hnone, by simp⟩
    · refine ⟨group :: before, group', after, rfl, hnone, ?_⟩
      rw [List.map_cons, List.sum_cons, Nat.add_assoc]

omit huids h in
theorem stopsAtVersion_congr {groups : List BlockGroup} {n : ℕ}
    (hsectors : ∀ group ∈ groups, c.sectorOf now group.key = s.sectorOf now group.key)
    (hwrites : ∀ group ∈ groups, c.writes now group = s.writes now group) :
    c.StopsAtVersion now groups n ↔ s.StopsAtVersion now groups n := by
  refine exists₃_congr fun before group after => and_congr_right fun heq => ?_
  subst heq
  rw [hsectors group (by simp), List.map_congr_left fun group' hgroup' =>
    hwrites group' (List.mem_append_left _ hgroup')]

omit huids h in
theorem le_of_stopsAtVersion {groups : List BlockGroup} {n : ℕ}
    (hstop : s.StopsAtVersion now groups n) : 2 ≤ n := by
  obtain ⟨before, group, after, -, -, rfl⟩ := hstop
  exact Nat.le_add_left 2 _

omit huids h in
theorem writes_of_none (hnone : s.sectorOf now group.key = none) : s.writes now group = 6 := by
  rw [writes, hnone]

/-- A run over blocks returns. A sector is lost after `n` transactions when one was lost before,
or when the run stops there between the version and the mapping of a new sector. -/
theorem course_groups (codes : List String) {groups : List BlockGroup}
    (hgroups : ∀ group ∈ groups, group ∈ s.market.blockGroups now)
    (hcodes : (groups.map fun group => group.key.externalCode).Nodup)
    (hmem : ∀ group ∈ groups, group.key.externalCode ∈ codes) :
    ∃ commits created, Does (synchronizeGroups uids now groups) s commits created ∧
      commits.length = (groups.map (s.writes now)).sum ∧
      Passes (fun n c => Progress uids now (groups.map fun group => group.key.externalCode) s c ∧
        ((∃ uid, c.Lost codes uid) ↔
          (∃ uid, s.Lost codes uid) ∨ s.StopsAtVersion now groups n)) s commits ∧
      ∀ group ∈ groups, (lastOf s commits).writes now group = 0 := by
  induction groups generalizing s with
  | nil =>
    refine ⟨[], [], does_pure _ _, rfl, passes_nil ⟨.refl h, ?_⟩, ?_⟩
    · rw [or_iff_left (not_stopsAtVersion_nil 0)]
    · intro group hgroup
      exact absurd hgroup List.not_mem_nil
  | cons group groups ih =>
    rw [List.map_cons, List.nodup_cons] at hcodes
    obtain ⟨commits, created, hdoes, hlength, hpasses, hdone⟩ := course_group huids h
      (hgroups group List.mem_cons_self) (hmem group List.mem_cons_self)
    have hfirst := hpasses.last.1
    have hother : ∀ group' ∈ groups, group'.key.externalCode ∉ [group.key.externalCode] :=
      fun group' hgroup' heq => hcodes.1
        (List.mem_map.mpr ⟨group', hgroup', List.mem_singleton.mp heq⟩)
    obtain ⟨commits', created', hdoes', hlength', hpasses', hdone'⟩ := ih hfirst.sound
      (fun group' hgroup' => by
        rw [hfirst.blocks]
        exact hgroups group' (List.mem_cons_of_mem group hgroup'))
      hcodes.2 (fun group' hgroup' => hmem group' (List.mem_cons_of_mem group hgroup'))
    have hwrites : groups.map ((lastOf s commits).writes now) = groups.map (s.writes now) :=
      List.map_congr_left fun group' hgroup' => hfirst.writes group' (hother group' hgroup')
    have hstops : ∀ n, (lastOf s commits).StopsAtVersion now groups n ↔
        s.StopsAtVersion now groups n := fun n =>
      stopsAtVersion_congr (fun group' hgroup' => hfirst.sectors group' (hother group' hgroup'))
        fun group' hgroup' => hfirst.writes group' (hother group' hgroup')
    have hrest : Does (do
        let rest ← synchronizeGroups uids now groups
        return created ++ rest) (lastOf s commits) (commits' ++ []) (created ++ created') :=
      hdoes'.bind (does_pure _ _)
    rw [List.append_nil] at hrest
    refine ⟨commits ++ commits', created ++ created', hdoes.bind hrest, ?_, ?_, ?_⟩
    · rw [List.length_append, hlength, hlength', hwrites, List.map_cons, List.sum_cons]
    · have hhead : [group.key.externalCode] ⊆
          (group :: groups).map fun group => group.key.externalCode :=
        fun code hcode => List.mem_singleton.mp hcode ▸ List.mem_cons_self
      refine Passes.append (hpasses.imp fun n c hn hc => ⟨hc.1.mono hhead, hc.2.trans ?_⟩)
        (hpasses'.imp fun n c _ hc => ⟨(hfirst.mono hhead).trans
          (hc.1.mono fun _ hcode => List.mem_cons_of_mem _ hcode), hc.2.trans ?_⟩)
      · -- No stop among the other blocks is that early.
        rw [stopsAtVersion_cons]
        refine or_congr_right ⟨.inl, ?_⟩
        rintro (hstop | ⟨k, rfl, hstop⟩)
        · exact hstop
        · have hk := le_of_stopsAtVersion hstop
          omega
      · have hlate : ∀ k, ¬(s.sectorOf now group.key = none ∧ commits.length + k = 2) := by
          rintro k ⟨hnone, hk⟩
          rw [writes_of_none hnone] at hlength
          omega
        have hearly : ¬(s.sectorOf now group.key = none ∧ commits.length = 2) := hlate 0
        rw [hpasses.last.2, or_iff_left hearly, hstops, stopsAtVersion_cons,
          or_iff_right (hlate n)]
        refine or_congr_right ⟨fun hstop => ⟨n, by rw [hlength], hstop⟩, ?_⟩
        rintro ⟨k, hk, hstop⟩
        obtain rfl : n = k := by omega
        exact hstop
    · rw [lastOf_append]
      intro group' hgroup'
      rcases List.mem_cons.mp hgroup' with rfl | hgroup'
      · rw [hpasses'.last.1.writes _ hcodes.1]
        exact hdone
      · exact hdone' group' hgroup'

end Course

end OnboardingState

end MarketMonitor
