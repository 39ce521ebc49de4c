import MarketMonitor.MarketData.SectorGroups

/-!
# The transactions of the onboarding

Each transaction of `synchronize` returns from the tables that runs leave (`Sound`) and keeps
them so, whatever is missing from an earlier run that stopped.
-/

namespace MarketMonitor

open Transaction
open Transaction.Process (Does read transact does_pure does_read does_transact)

/-! ## Tables that runs leave -/

namespace OnboardingState

variable (s : OnboardingState)

/-- The sector has a version. -/
def Versioned (sectorUid : Uid) : Prop :=
  ∃ v ∈ s.sectors.sectorVersion, v.sectorUid = sectorUid

/-- The sector has its analysis subject. -/
def HasSubject (sectorUid : Uid) : Prop :=
  ∃ a ∈ s.sectors.analysisSubject, a.target = .sector sectorUid

instance (sectorUid : Uid) : Decidable (s.HasSubject sectorUid) :=
  inferInstanceAs (Decidable (∃ a ∈ s.sectors.analysisSubject, _))

/-- A sector that `reconcile` counts. -/
def Missing (sectorUid : Uid) : Prop :=
  s.HasSector sectorUid ∧ s.Versioned sectorUid ∧ ¬s.HasSubject sectorUid

theorem subjectMappingMissing_eq_zero :
    s.subjectMappingMissing = 0 ↔ ∀ uid, ¬s.Missing uid := by
  rw [subjectMappingMissing, List.length_eq_zero_iff, List.filter_eq_nil_iff]
  constructor
  · rintro h uid ⟨⟨x, hx, rfl⟩, hversion, hsubject⟩
    exact h x hx (decide_eq_true ⟨hversion, hsubject⟩)
  · intro h x hx hcount
    obtain ⟨hversion, hsubject⟩ := of_decide_eq_true hcount
    exact h x.sectorUid ⟨⟨x, hx, rfl⟩, hversion, hsubject⟩

/-- The mappings of the code of a block. -/
def blockMappings (code : String) : List ProviderMapping :=
  s.market.providerMapping.filter fun m => m.providerKey = "NATIVE_TDX" ∧ m.externalCode = code

/-- No row names the identifier. -/
structure Unused (uid : Uid) : Prop where
  sector : ∀ x ∈ s.sectors.sector, x.sectorUid ≠ uid
  sectorVersion : ∀ v ∈ s.sectors.sectorVersion, v.sectorVersionUid ≠ uid ∧ v.sectorUid ≠ uid
  mapping : ∀ m ∈ s.market.providerMapping, m.mappingUid ≠ uid ∧ m.target ≠ .sector uid
  subject : ∀ a ∈ s.sectors.analysisSubject, a.subjectUid ≠ uid ∧ a.target ≠ .sector uid
  membershipVersion : ∀ v ∈ s.sectors.sectorMembershipVersion,
    v.membershipVersionUid ≠ uid ∧ v.sectorUid ≠ uid
  member : ∀ m ∈ s.sectors.sectorMembership, m.membershipVersionUid ≠ uid
  source : ∀ x ∈ s.sectors.tdxSectorMembershipSource, x.membershipVersionUid ≠ uid

/-- What the runs until `now` leave, also when they stop between two transactions. -/
structure Sound (uids : ℕ → Uid) (now : Instant) : Prop where
  unused : ∀ n, s.drawn ≤ n → s.Unused (uids n)
  filenames : ∀ v ∈ s.market.tdxBlockArtifactVersion, v.filename ∈ blockFilenames
  single : ∀ key : BlockKey, (s.blockMappings key.externalCode).length ≤ 1
  mapped : ∀ key : BlockKey, ∀ m ∈ s.blockMappings key.externalCode, m.validFrom ≤ now ∧
    ∃ uid, m.target = .sector uid ∧ s.HasSector uid ∧ s.Versioned uid
  apart : ∀ key key' : BlockKey, ∀ m ∈ s.blockMappings key.externalCode,
    ∀ m' ∈ s.blockMappings key'.externalCode, m.target = m'.target →
      key.externalCode = key'.externalCode

end OnboardingState

variable {uids : ℕ → Uid} {now : Instant} {s : OnboardingState}

theorem OnboardingState.Sound.mono (h : s.Sound uids now) {later : Instant} (hle : now ≤ later) :
    s.Sound uids later :=
  { h with mapped := fun key m hm => ⟨(h.mapped key m hm).1.trans hle, (h.mapped key m hm).2⟩ }

/-- A sector that is there has an identifier that was given. -/
theorem OnboardingState.HasSector.ne_of_unused {uid uid' : Uid} (h : s.HasSector uid)
    (hunused : s.Unused uid') : uid ≠ uid' := by
  obtain ⟨x, hx, rfl⟩ := h
  exact hunused.sector x hx

/-- A block has no mapping, or one of a sector that has a version. -/
theorem OnboardingState.Sound.mappings_cases (h : s.Sound uids now) (key : BlockKey) :
    s.blockMappings key.externalCode = [] ∨ ∃ m uid, s.blockMappings key.externalCode = [m] ∧
      m.target = .sector uid ∧ s.HasSector uid ∧ s.Versioned uid := by
  have hsingle := h.single key
  have hmapped := h.mapped key
  generalize s.blockMappings key.externalCode = mappings at hsingle hmapped
  rcases mappings with _ | ⟨m, _ | ⟨m', rest⟩⟩
  · exact .inl rfl
  · obtain ⟨-, uid, huid⟩ := hmapped m (List.mem_singleton_self m)
    exact .inr ⟨m, uid, rfl, huid⟩
  · simp at hsingle

/-- The mapping of a block is in force from then on. -/
theorem OnboardingState.Sound.mappingAt_eq (h : s.Sound uids now) (key : BlockKey) :
    s.market.mappingAt "NATIVE_TDX" key.externalCode now =
      (latest ProviderMapping.validFrom (s.blockMappings key.externalCode)).map
        ProviderMapping.target := by
  have hfilter : (s.market.providerMapping.filter fun m => m.providerKey = "NATIVE_TDX" ∧
      m.externalCode = key.externalCode ∧ m.validFrom ≤ now) =
        s.blockMappings key.externalCode := by
    refine List.filter_congr fun m hm => decide_eq_decide.mpr ⟨fun hm' => ⟨hm'.1, hm'.2.1⟩, ?_⟩
    intro hm'
    have hmapped := h.mapped key m (List.mem_filter.mpr ⟨hm, decide_eq_true hm'⟩)
    exact ⟨hm'.1, hm'.2, hmapped.1⟩
  rw [MarketTables.mappingAt, hfilter]

theorem OnboardingState.Sound.resolve_eq_some (h : s.Sound uids now) {key : BlockKey} {uid : Uid} :
    s.market.resolveProviderMapping "NATIVE_TDX" key.externalCode now = some uid ↔
      ∃ m ∈ s.blockMappings key.externalCode, m.target = .sector uid := by
  rw [MarketTables.resolveProviderMapping, h.mappingAt_eq]
  rcases h.mappings_cases key with hnone | ⟨m, uid', hone, htarget, -⟩
  · simp [hnone, latest]
  · simp [hone, latest, htarget]

theorem OnboardingState.Sound.resolve_eq_none (h : s.Sound uids now) {key : BlockKey} :
    s.market.resolveProviderMapping "NATIVE_TDX" key.externalCode now = none ↔
      s.blockMappings key.externalCode = [] := by
  rw [MarketTables.resolveProviderMapping, h.mappingAt_eq]
  rcases h.mappings_cases key with hnone | ⟨m, uid', hone, htarget, -⟩
  · simp [hnone, latest]
  · simp [hone, latest, htarget]

/-! ## What the transactions write -/

namespace OnboardingState

variable (s : OnboardingState)

/-- One more identifier is given. -/
def drew : OnboardingState := { s with drawn := s.drawn + 1 }

def withSector (uid : Uid) (kind : SectorKind) : OnboardingState :=
  let sector := s.sectors.sector ++ [⟨uid, kind⟩]
  { s with sectors := { s.sectors with sector }, drawn := s.drawn + 1 }

def withSectorVersion (row : SectorVersion) : OnboardingState :=
  let sectorVersion := s.sectors.sectorVersion ++ [row]
  { s with sectors := { s.sectors with sectorVersion }, drawn := s.drawn + 1 }

def withMapping (row : ProviderMapping) : OnboardingState :=
  { s with market := s.market.withMapping row, drawn := s.drawn + 1 }

def withSubject (row : AnalysisSubject) : OnboardingState :=
  let analysisSubject := s.sectors.analysisSubject ++ [row]
  { s with sectors := { s.sectors with analysisSubject }, drawn := s.drawn + 1 }

def withMembership (row : SectorMembershipVersion) (members : List Uid) : OnboardingState :=
  let sectorMembershipVersion := s.sectors.sectorMembershipVersion ++ [row]
  let rows := members.map fun uid => SectorMember.mk row.membershipVersionUid uid "MEMBER"
  let sectorMembership := s.sectors.sectorMembership ++ rows
  { s with
    sectors := { s.sectors with sectorMembershipVersion, sectorMembership }
    drawn := s.drawn + 1 }

def withSource (row : TdxSectorMembershipSource) : OnboardingState :=
  let tdxSectorMembershipSource := s.sectors.tdxSectorMembershipSource ++ [row]
  { s with sectors := { s.sectors with tdxSectorMembershipSource } }

end OnboardingState

section Writes

theorem run_newUid (s : OnboardingState) :
    (newUid uids).run s = .ok (uids s.drawn) s.drew := rfl

theorem does_createSector (h : s.Unused (uids s.drawn)) (kind : SectorKind) :
    Does (createSector uids kind) s [s.withSector (uids s.drawn) kind] (uids s.drawn) := by
  refine does_transact ?_
  rw [run_bind_of_ok (run_newUid s),
    run_bind_of_ok (run_insertInto _ _ fun x hx => decide_eq_false (h.sector x hx).symm)]
  rfl

/-- A sector without versions gets one at any time. -/
theorem does_addSectorVersion (h : s.Unused (uids s.drawn)) {sectorUid : Uid}
    (hsector : s.HasSector sectorUid) (hfirst : ¬s.Versioned sectorUid) (name : String)
    (validFrom : Instant) : Does (addSectorVersion uids sectorUid name validFrom) s
      [s.withSectorVersion ⟨uids s.drawn, sectorUid, 1, name, validFrom⟩] (uids s.drawn) := by
  have hnone : (s.drew.sectors.sectorVersion.filter fun v => v.sectorUid = sectorUid) = [] :=
    List.filter_eq_nil_iff.mpr fun v hv heq => hfirst ⟨v, hv, of_decide_eq_true heq⟩
  have hadvance : ∀ newest ∈ latest SectorVersion.version
      (s.drew.sectors.sectorVersion.filter fun v => v.sectorUid = sectorUid),
      newest.validFrom < validFrom := by
    intro newest hnewest
    rw [hnone] at hnewest
    exact absurd hnewest (Option.not_mem_none newest)
  have hsector' : s.drew.HasSector sectorUid := hsector
  refine does_transact ?_
  rw [run_bind_of_ok (run_newUid s), run_bind_of_ok (run_get _),
    run_bind_of_ok (run_require_of hadvance), run_bind_of_ok (run_require_of hsector'),
    run_bind_of_ok (run_insertInto _ _ fun v hv => ?_)]
  · rw [hnone]
    rfl
  · refine decide_eq_false (not_or.mpr ⟨(h.sectorVersion v hv).1.symm, ?_⟩)
    rintro ⟨heq, -⟩
    exact hfirst ⟨v, hv, heq.symm⟩

/-- What the mapping of a sector writes. -/
theorem does_mapSector (h : s.Unused (uids s.drawn)) {sectorUid : Uid}
    (hsector : s.HasSector sectorUid) {code : String} (hfree : s.blockMappings code = [])
    (validFrom : Instant) : Does (mapSector uids "NATIVE_TDX" code sectorUid validFrom) s
      [s.withMapping ⟨uids s.drawn, "NATIVE_TDX", code, .sector sectorUid, validFrom, none⟩]
      (uids s.drawn) := by
  have hsector' : s.drew.HasSector sectorUid := hsector
  refine does_transact ?_
  rw [run_bind_of_ok (run_newUid s), run_bind_of_ok (run_get _),
    run_bind_of_ok (run_require_of hsector'),
    run_bind_of_ok (run_insertInto _ _ fun m hm => ?_)]
  · rfl
  · refine decide_eq_false (not_or.mpr ⟨(h.mapping m hm).1.symm, ?_⟩)
    rintro ⟨hprovider, hcode, -⟩
    exact List.filter_eq_nil_iff.mp hfree m hm (decide_eq_true ⟨hprovider.symm, hcode.symm⟩)

/-- The subject of a sector is added, unless it is there. -/
theorem does_ensureAnalysisSubject (h : s.Unused (uids s.drawn)) {sectorUid : Uid}
    (hsector : s.HasSector sectorUid) (hsubject : ¬s.HasSubject sectorUid) :
    Does (ensureAnalysisSubject uids (.sector sectorUid)) s
      [s.withSubject ⟨uids s.drawn, .sector sectorUid⟩] (uids s.drawn) := by
  have hnone : (s.sectors.analysisSubject.find? fun a => a.target = .sector sectorUid) = none :=
    List.find?_eq_none.mpr fun a ha heq => hsubject ⟨a, ha, of_decide_eq_true heq⟩
  have htarget : s.drew.HasTarget (.sector sectorUid) := hsector
  refine (does_read _ s).bind ?_
  simp only [hnone, lastOf_nil]
  refine does_transact ?_
  rw [run_bind_of_ok (run_newUid s), run_bind_of_ok (run_get _),
    run_bind_of_ok (run_require_of htarget),
    run_bind_of_ok (run_insertInto _ _ fun a ha => ?_)]
  · rfl
  · refine decide_eq_false (not_or.mpr ⟨(h.subject a ha).1.symm, fun heq => ?_⟩)
    exact hsubject ⟨a, ha, heq.symm⟩

theorem does_ensureAnalysisSubject_of_hasSubject (uids : ℕ → Uid) {sectorUid : Uid}
    (hsubject : s.HasSubject sectorUid) :
    ∃ uid, Does (ensureAnalysisSubject uids (.sector sectorUid)) s [] uid := by
  obtain ⟨a, ha, htarget⟩ := hsubject
  cases hfind : s.sectors.analysisSubject.find? fun a => a.target = .sector sectorUid with
  | none => exact absurd (decide_eq_true htarget) (List.find?_eq_none.mp hfind a ha)
  | some subject =>
    refine ⟨subject.subjectUid, (does_read _ s).bind ?_⟩
    simp only [hfind]
    exact does_pure _ _

/-- Known instruments become members of a version. -/
theorem run_insertMembers {t : OnboardingState} {instruments : List Instrument} {uid : Uid}
    {members : List Uid} (hnodup : members.Nodup)
    (hmembers : ∀ m ∈ members, ∃ i ∈ instruments, i.instrumentUid = m)
    (hfree : ∀ row ∈ t.sectors.sectorMembership, row.membershipVersionUid = uid →
      row.instrumentUid ∉ members) :
    (forM members fun instrumentUid => do
      require (∃ i ∈ instruments, i.instrumentUid = instrumentUid) integrityError
      insertInto OnboardingState.memberTable integrityError ⟨uid, instrumentUid, "MEMBER"⟩ :
        OnboardingCommand PUnit).run t = .ok () (OnboardingState.memberTable.put
          (t.sectors.sectorMembership ++ members.map fun m => ⟨uid, m, "MEMBER"⟩) t) := by
  induction members generalizing t with
  | nil =>
    rw [run_forM_nil_eq_ok, List.map_nil, List.append_nil]
    rfl
  | cons m members ih =>
    rw [List.nodup_cons] at hnodup
    rw [run_forM_cons_eq_ok]
    refine ⟨OnboardingState.memberTable.put
      (t.sectors.sectorMembership ++ [⟨uid, m, "MEMBER"⟩]) t, ?_, ?_⟩
    · rw [run_bind_of_ok (run_require_of (hmembers m List.mem_cons_self))]
      refine run_insertInto _ _ fun row hrow => decide_eq_false ?_
      rintro ⟨huid, hinstrument⟩
      exact hfree row hrow huid.symm (hinstrument ▸ List.mem_cons_self)
    · rw [ih hnodup.2 (fun m' hm' => hmembers m' (List.mem_cons_of_mem m hm'))]
      · have happend := List.append_cons t.sectors.sectorMembership ⟨uid, m, "MEMBER"⟩
          (members.map fun m => ⟨uid, m, "MEMBER"⟩)
        rw [List.map_cons, happend]
        rfl
      · intro row hrow huid hrest
        rcases List.mem_append.mp hrow with hrow | hrow
        · exact hfree row hrow huid (List.mem_cons_of_mem m hrest)
        · obtain rfl := List.mem_singleton.mp hrow
          exact hnodup.1 hrest

/-- A membership is frozen as a new version, which corrects the one of the day if there is
one. -/
theorem does_freezeMembership (h : s.Unused (uids s.drawn)) {sectorUid : Uid}
    (hsector : s.HasSector sectorUid) {tradingDate : String} {members : List Uid}
    (hmembers : ∀ m ∈ members, ∃ i ∈ s.market.instrument, i.instrumentUid = m)
    (frozenAt : Instant) {correction : Bool}
    (hcorrection : (latest SectorMembershipVersion.version
      (s.membershipVersions sectorUid tradingDate)).isSome = correction) :
    Does (freezeMembership uids sectorUid tradingDate members frozenAt correction) s
      [s.withMembership ⟨uids s.drawn, sectorUid, tradingDate, nextOrder
        ((s.membershipVersions sectorUid tradingDate).map SectorMembershipVersion.version),
        frozenAt, frozenAt, correction, if correction then "CORRECTION" else "DAILY_FREEZE"⟩
        (members.dedup.insertionSort (· ≤ ·))] (uids s.drawn) := by
  have hsector' : s.HasSector sectorUid := hsector
  have hfree : ∀ v ∈ s.sectors.sectorMembershipVersion, ¬(uids s.drawn = v.membershipVersionUid ∨
      (sectorUid = v.sectorUid ∧ tradingDate = v.tradingDate ∧ nextOrder
        ((s.membershipVersions sectorUid tradingDate).map SectorMembershipVersion.version) =
          v.version)) := by
    rintro v hv (heq | ⟨hsector, hdate, hversion⟩)
    · exact (h.membershipVersion v hv).1 heq.symm
    · refine (lt_nextOrder (List.mem_map_of_mem ?_)).ne hversion.symm
      exact List.mem_filter.mpr ⟨hv, decide_eq_true ⟨hsector.symm, hdate.symm⟩⟩
  have hnodup : (members.dedup.insertionSort (· ≤ ·)).Nodup :=
    (List.perm_insertionSort _ _).nodup_iff.mpr (List.nodup_dedup members)
  have hknown : ∀ m ∈ members.dedup.insertionSort (· ≤ ·),
      ∃ i ∈ s.market.instrument, i.instrumentUid = m := by
    intro m hm
    rw [(List.perm_insertionSort _ _).mem_iff, List.mem_dedup] at hm
    exact hmembers m hm
  refine does_transact ?_
  rw [run_bind_of_ok (run_get s)]
  -- The first version of a day and a correction differ in their columns only.
  cases hnewest : latest SectorMembershipVersion.version
    (s.membershipVersions sectorUid tradingDate)
  all_goals
    simp only [hnewest, Option.isSome] at hcorrection
    subst hcorrection
    simp only [hnewest]
    rw [run_bind_of_ok (run_newUid s), run_bind_of_ok (run_require_of hsector),
      run_bind_of_ok (run_insertInto _ _ fun v hv => decide_eq_false (hfree v hv)),
      run_bind_of_ok (run_insertMembers hnodup hknown fun row hrow huid => ?_)]
    · rfl
    · exact absurd huid (h.member row hrow)

/-- The source of a new version is recorded. -/
theorem does_recordSectorMembershipSource {source : TdxSectorMembershipSource}
    (hkind : source.membershipKind = .conceptMembership ∨
      source.membershipKind = .themeMembership)
    (hversion : ∃ v ∈ s.sectors.sectorMembershipVersion,
      v.membershipVersionUid = source.membershipVersionUid)
    (hblock : ∃ v ∈ s.market.tdxBlockArtifactVersion, v.blockVersionUid = source.blockVersionUid)
    (hfree : ∀ x ∈ s.sectors.tdxSectorMembershipSource,
      x.membershipVersionUid ≠ source.membershipVersionUid) :
    Does (recordSectorMembershipSource source) s [s.withSource source] () := by
  have hnone : (s.sectors.tdxSectorMembershipSource.find? fun x =>
      x.membershipVersionUid = source.membershipVersionUid) = none :=
    List.find?_eq_none.mpr fun x hx heq => hfree x hx (of_decide_eq_true heq)
  rw [recordSectorMembershipSource, if_neg (by rw [not_and_or, not_not, not_not]; exact hkind)]
  refine does_transact ?_
  rw [run_bind_of_ok (run_get s)]
  simp only [hnone]
  rw [run_bind_of_ok (run_require_of hversion), run_bind_of_ok (run_require_of hblock),
    run_insertInto _ _ fun x hx => decide_eq_false (hfree x hx).symm]
  rfl

end Writes

/-! ## What the transactions keep -/

namespace OnboardingState

/-- The mappings of a code after one more. -/
theorem blockMappings_withMapping (s : OnboardingState) {row : ProviderMapping}
    (hprovider : row.providerKey = "NATIVE_TDX") (code : String) :
    (s.withMapping row).blockMappings code =
      if row.externalCode = code then s.blockMappings code ++ [row] else s.blockMappings code := by
  have happend : (s.withMapping row).blockMappings code = s.blockMappings code ++
      [row].filter fun m => m.providerKey = "NATIVE_TDX" ∧ m.externalCode = code :=
    List.filter_append ..
  rw [happend, List.filter_singleton]
  by_cases hcode : row.externalCode = code
  · rw [if_pos hcode, decide_eq_true ⟨hprovider, hcode⟩, cond_true]
  · rw [if_neg hcode, decide_eq_false fun hrow => hcode hrow.2, cond_false, List.append_nil]

theorem mem_blockMappings_withMapping {s : OnboardingState} {row : ProviderMapping}
    (hprovider : row.providerKey = "NATIVE_TDX") {code : String} {m : ProviderMapping} :
    m ∈ (s.withMapping row).blockMappings code ↔
      m ∈ s.blockMappings code ∨ (m = row ∧ row.externalCode = code) := by
  rw [blockMappings_withMapping s hprovider]
  split_ifs with hcode
  · rw [List.mem_append, List.mem_singleton, and_iff_left hcode]
  · rw [or_iff_left fun hrow => hcode hrow.2]

end OnboardingState

section Kept

variable (huids : Function.Injective uids) (h : s.Sound uids now)

include huids in
/-- An identifier is given once. -/
theorem uid_ne_of_lt {m n : ℕ} (hlt : m < n) : uids m ≠ uids n :=
  fun heq => hlt.ne (huids heq)

include huids h

theorem OnboardingState.Sound.withSector (kind : SectorKind) :
    (s.withSector (uids s.drawn) kind).Sound uids now := by
  refine { h with unused := fun n hn => ?_, mapped := fun key m hm => ?_ }
  · refine { h.unused n (Nat.le_of_succ_le hn) with sector := ?_ }
    exact List.forall_mem_append.mpr ⟨(h.unused n (Nat.le_of_succ_le hn)).sector,
      List.forall_mem_singleton.mpr (uid_ne_of_lt huids hn)⟩
  · obtain ⟨hfrom, uid, htarget, ⟨x, hx, hxuid⟩, hversion⟩ := h.mapped key m hm
    exact ⟨hfrom, uid, htarget, ⟨x, List.mem_append_left _ hx, hxuid⟩, hversion⟩

theorem OnboardingState.Sound.withSectorVersion {row : SectorVersion}
    (huid : row.sectorVersionUid = uids s.drawn) (hsector : s.HasSector row.sectorUid) :
    (s.withSectorVersion row).Sound uids now := by
  refine { h with unused := fun n hn => ?_, mapped := fun key m hm => ?_ }
  · have hunused := h.unused n (Nat.le_of_succ_le hn)
    refine { hunused with sectorVersion := ?_ }
    exact List.forall_mem_append.mpr ⟨hunused.sectorVersion, List.forall_mem_singleton.mpr
      ⟨huid ▸ uid_ne_of_lt huids hn, hsector.ne_of_unused hunused⟩⟩
  · obtain ⟨hfrom, uid, htarget, hsector, v, hv, hvuid⟩ := h.mapped key m hm
    exact ⟨hfrom, uid, htarget, hsector, v, List.mem_append_left _ hv, hvuid⟩

/-- A mapping to a sector keeps the state sound. -/
theorem OnboardingState.Sound.withMapping {row : ProviderMapping} {key : BlockKey} {uid : Uid}
    (huid : row.mappingUid = uids s.drawn) (hprovider : row.providerKey = "NATIVE_TDX")
    (hcode : row.externalCode = key.externalCode) (htarget : row.target = .sector uid)
    (hfrom : row.validFrom ≤ now) (hsector : s.HasSector uid) (hversion : s.Versioned uid)
    (hfree : s.blockMappings key.externalCode = [])
    (hapart : ∀ key' : BlockKey, ∀ m ∈ s.blockMappings key'.externalCode, m.target ≠ .sector uid) :
    (s.withMapping row).Sound uids now := by
  have hmem := @OnboardingState.mem_blockMappings_withMapping s row hprovider
  refine { h with
    unused := fun n hn => ?_
    single := fun key' => ?_
    mapped := fun key' m hm => ?_
    apart := fun key' key'' m hm m' hm' heq => ?_ }
  · have hunused := h.unused n (Nat.le_of_succ_le hn)
    refine { hunused with mapping := ?_ }
    refine List.forall_mem_append.mpr ⟨hunused.mapping, List.forall_mem_singleton.mpr
      ⟨huid ▸ uid_ne_of_lt huids hn, ?_⟩⟩
    rw [htarget]
    exact fun heq => hsector.ne_of_unused hunused (MappingTarget.sector.inj heq)
  · rw [OnboardingState.blockMappings_withMapping s hprovider]
    split_ifs with hsame
    · rw [← hsame, hcode, hfree]
      exact le_rfl
    · exact h.single key'
  · rcases hmem.mp hm with hm | ⟨rfl, -⟩
    · exact h.mapped key' m hm
    · exact ⟨hfrom, uid, htarget, hsector, hversion⟩
  · rcases hmem.mp hm with hold | ⟨rfl, hkey'⟩
    · rcases hmem.mp hm' with hold' | ⟨rfl, hkey''⟩
      · exact h.apart key' key'' m hold m' hold' heq
      · exact absurd (heq.trans htarget) (hapart key' m hold)
    · rcases hmem.mp hm' with hold' | ⟨rfl, hkey''⟩
      · exact absurd (heq.symm.trans htarget) (hapart key'' m' hold')
      · exact hkey'.symm.trans hkey''

theorem OnboardingState.Sound.withSubject {row : AnalysisSubject} {uid : Uid}
    (huid : row.subjectUid = uids s.drawn) (htarget : row.target = .sector uid)
    (hsector : s.HasSector uid) : (s.withSubject row).Sound uids now := by
  refine { h with unused := fun n hn => ?_ }
  have hunused := h.unused n (Nat.le_of_succ_le hn)
  refine { hunused with subject := ?_ }
  refine List.forall_mem_append.mpr ⟨hunused.subject, List.forall_mem_singleton.mpr
    ⟨huid ▸ uid_ne_of_lt huids hn, ?_⟩⟩
  rw [htarget]
  exact fun heq => hsector.ne_of_unused hunused (SubjectTarget.sector.inj heq)

/-- So does a membership version. -/
theorem OnboardingState.Sound.withMembership {row : SectorMembershipVersion}
    (huid : row.membershipVersionUid = uids s.drawn) (hsector : s.HasSector row.sectorUid)
    (members : List Uid) : (s.withMembership row members).Sound uids now := by
  refine { h with unused := fun n hn => ?_ }
  have hunused := h.unused n (Nat.le_of_succ_le hn)
  have hne := huid ▸ uid_ne_of_lt huids hn
  refine { hunused with membershipVersion := ?_, member := ?_ }
  · exact List.forall_mem_append.mpr ⟨hunused.membershipVersion, List.forall_mem_singleton.mpr
      ⟨hne, hsector.ne_of_unused hunused⟩⟩
  · refine List.forall_mem_append.mpr ⟨hunused.member, fun m hm => ?_⟩
    obtain ⟨uid, -, rfl⟩ := List.mem_map.mp hm
    exact hne

omit huids in
theorem OnboardingState.Sound.withSource {row : TdxSectorMembershipSource}
    (hversion : ∃ v ∈ s.sectors.sectorMembershipVersion,
      v.membershipVersionUid = row.membershipVersionUid) :
    (s.withSource row).Sound uids now := by
  refine { h with unused := fun n hn => ?_ }
  have hunused := h.unused n hn
  obtain ⟨v, hv, hvuid⟩ := hversion
  refine { hunused with source := ?_ }
  exact List.forall_mem_append.mpr ⟨hunused.source, List.forall_mem_singleton.mpr
    (hvuid ▸ (hunused.membershipVersion v hv).1)⟩

end Kept

end MarketMonitor
