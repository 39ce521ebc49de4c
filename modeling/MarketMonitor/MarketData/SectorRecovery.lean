import MarketMonitor.MarketData.SectorRuns

/-!
# Onboarding after a stop

Between the runs other programs register instruments and record block files. A run may stop
after any of its transactions. The next run over the same blocks returns, and each block has
one sector then. But the run that stops between the version and the mapping of a new sector
leaves that sector for good : the next run finds no mapping and creates another one, and
`reconcile` counts the first (`onboarding_recovers_iff`).
-/

namespace MarketMonitor

open Transaction
open Transaction.Process (Does stoppedAfter does_read)

/-! ## Histories -/

/-- What the other programs write between the runs. -/
structure OtherDataWrites (uids : ℕ → Uid) (s s' : OnboardingState) : Prop where
  sectors : s'.sectors = s.sectors
  blockMappings : ∀ key : BlockKey,
    s'.blockMappings key.externalCode = s.blockMappings key.externalCode
  filenames : ∀ v ∈ s'.market.tdxBlockArtifactVersion, v.filename ∈ blockFilenames
  drawn : s.drawn ≤ s'.drawn
  mapping : ∀ n, s'.drawn ≤ n → ∀ m ∈ s'.market.providerMapping,
    m.mappingUid ≠ uids n ∧ m.target ≠ .sector (uids n)

/-- The tables that runs until a time reach, each of which may stop. -/
inductive OnboardingReachable (uids : ℕ → Uid) : Instant → OnboardingState → Prop
  | start {now : Instant} {s : OnboardingState} (sectors : s.sectors = .empty)
      (blockMappings : ∀ key : BlockKey, s.blockMappings key.externalCode = [])
      (filenames : ∀ v ∈ s.market.tdxBlockArtifactVersion, v.filename ∈ blockFilenames)
      (mapping : ∀ n, s.drawn ≤ n → ∀ m ∈ s.market.providerMapping,
        m.mappingUid ≠ uids n ∧ m.target ≠ .sector (uids n)) :
      OnboardingReachable uids now s
  | write {now : Instant} {s s' : OnboardingState} (h : OnboardingReachable uids now s)
      (other : OtherDataWrites uids s s') : OnboardingReachable uids now s'
  | run {now later : Instant} {s : OnboardingState} (h : OnboardingReachable uids now s)
      (later_le : now ≤ later) (n : ℕ) :
      OnboardingReachable uids later ((synchronize uids later).stoppedAfter n s)

namespace OnboardingState

variable {uids : ℕ → Uid} {now : Instant} {s : OnboardingState}

/-- Writes of other data keep the state sound. -/
theorem Sound.write (h : s.Sound uids now) {s' : OnboardingState}
    (hwrite : OtherDataWrites uids s s') : s'.Sound uids now where
  unused n hn := by
    have hunused := h.unused n (hwrite.drawn.trans hn)
    refine ⟨?_, ?_, hwrite.mapping n hn, ?_, ?_, ?_, ?_⟩ <;> rw [hwrite.sectors]
    · exact hunused.sector
    · exact hunused.sectorVersion
    · exact hunused.subject
    · exact hunused.membershipVersion
    · exact hunused.member
    · exact hunused.source
  filenames := hwrite.filenames
  single key := by
    rw [hwrite.blockMappings]
    exact h.single key
  mapped key m hm := by
    rw [hwrite.blockMappings] at hm
    obtain ⟨hfrom, uid, htarget, hsector, hversion⟩ := h.mapped key m hm
    refine ⟨hfrom, uid, htarget, ?_, ?_⟩
    · rw [HasSector, hwrite.sectors]
      exact hsector
    · rw [Versioned, hwrite.sectors]
      exact hversion
  apart key key' m hm m' hm' := by
    rw [hwrite.blockMappings] at hm hm'
    exact h.apart key key' m hm m' hm'

/-- The codes of the blocks of a run. -/
def blockCodes (s : OnboardingState) (now : Instant) : List String :=
  (s.market.blockGroups now).map fun group => group.key.externalCode

/-- A run returns, and goes through tables like those it found. -/
theorem course_synchronize (huids : Function.Injective uids) (h : s.Sound uids now) :
    ∃ commits created, Does (synchronize uids now) s commits created ∧
      commits.length = ((s.market.blockGroups now).map (s.writes now)).sum ∧
      Passes (fun n c => Progress uids now (s.blockCodes now) s c ∧
        ((∃ uid, c.Lost (s.blockCodes now) uid) ↔ (∃ uid, s.Lost (s.blockCodes now) uid) ∨
          s.StopsAtVersion now (s.market.blockGroups now) n)) s commits ∧
      ∀ group ∈ s.market.blockGroups now, (lastOf s commits).writes now group = 0 := by
  obtain ⟨commits, created, hdoes, hcourse⟩ := course_groups huids h (s.blockCodes now)
    (fun _ hgroup => hgroup) (MarketTables.nodup_externalCodes h.filenames)
    fun _ hgroup => List.mem_map.mpr ⟨_, hgroup, rfl⟩
  exact ⟨commits, created, (does_read _ s).bind hdoes, hcourse⟩

/-- A stop between the version and the mapping of a new sector comes before the last
transactions. -/
theorem StopsAtVersion.lt {groups : List BlockGroup} {n : ℕ}
    (hstop : s.StopsAtVersion now groups n) : n < (groups.map (s.writes now)).sum := by
  obtain ⟨before, group, after, rfl, hnone, rfl⟩ := hstop
  rw [List.map_append, List.map_cons, List.sum_append, List.sum_cons,
    writes_of_none hnone]
  omega

/-- A run that stops after `n` transactions. -/
theorem Sound.stopped (huids : Function.Injective uids) (h : s.Sound uids now) (n : ℕ) :
    Progress uids now (s.blockCodes now) s ((synchronize uids now).stoppedAfter n s) ∧
      ((∃ uid, ((synchronize uids now).stoppedAfter n s).Lost (s.blockCodes now) uid) ↔
        (∃ uid, s.Lost (s.blockCodes now) uid) ∨
          s.StopsAtVersion now (s.market.blockGroups now) n) := by
  obtain ⟨commits, created, hdoes, hlength, hpasses, -⟩ := course_synchronize huids h
  rcases le_or_gt n commits.length with hle | hgt
  · rw [hdoes.stoppedAfter]
    exact hpasses n hle
  · have hend : ∀ {k}, commits.length ≤ k →
        ¬s.StopsAtVersion now (s.market.blockGroups now) k := by
      intro k hk hstop
      exact absurd hstop.lt (hlength ▸ hk.not_gt)
    rw [hdoes.stoppedAfter_of_le hgt.le, or_iff_left (hend hgt.le)]
    obtain ⟨hlast, hlost⟩ := hpasses.last
    rw [or_iff_left (hend le_rfl)] at hlost
    exact ⟨hlast, hlost⟩

/-- A run that does not stop. -/
theorem Sound.synchronized (huids : Function.Injective uids) (h : s.Sound uids now) :
    ∃ commits created, Does (synchronize uids now) s commits created ∧
      Progress uids now (s.blockCodes now) s (lastOf s commits) ∧
      ((∃ uid, (lastOf s commits).Lost (s.blockCodes now) uid) ↔
        ∃ uid, s.Lost (s.blockCodes now) uid) ∧
      ∀ group ∈ s.market.blockGroups now, (lastOf s commits).writes now group = 0 := by
  obtain ⟨commits, created, hdoes, hlength, hpasses, hdone⟩ := course_synchronize huids h
  obtain ⟨hlast, hlost⟩ := hpasses.last
  rw [or_iff_left fun hstop => hstop.lt.ne hlength] at hlost
  exact ⟨commits, created, hdoes, hlast, hlost, hdone⟩

/-- Where all blocks have their sectors, the lost ones are those that are counted. -/
theorem Sound.lost_iff (h : s.Sound uids now) {codes : List String}
    (hcodes : ∀ code ∈ codes, ∃ group : BlockGroup, group.key.externalCode = code ∧
      s.writes now group = 0) {uid : Uid} : s.Lost codes uid ↔ s.Missing uid := by
  refine ⟨And.left, fun hmissing => ⟨hmissing, fun code hcode m hm htarget => ?_⟩⟩
  obtain ⟨group, rfl, hzero⟩ := hcodes code hcode
  obtain ⟨m', hm', uid', htarget', -, hsubject, -⟩ := h.of_writes_eq_zero hzero
  rcases h.mappings_cases group.key with hnone | ⟨m'', -, hone, -⟩
  · rw [hnone] at hm
    exact absurd hm List.not_mem_nil
  · rw [hone, List.mem_singleton] at hm hm'
    rw [hm'.trans hm.symm, htarget] at htarget'
    exact hmissing.2.2 (MappingTarget.sector.inj htarget' ▸ hsubject)

/-- A block has one sector. -/
theorem Sound.sector_of_writes (h : s.Sound uids now) {group : BlockGroup}
    (hzero : s.writes now group = 0) : ∃ m uid, s.blockMappings group.key.externalCode = [m] ∧
      m.target = .sector uid ∧ s.HasSector uid := by
  obtain ⟨m', hm', -⟩ := h.of_writes_eq_zero hzero
  rcases h.mappings_cases group.key with hnone | ⟨m, uid, hone, htarget, hsector, -⟩
  · rw [hnone] at hm'
    exact absurd hm' List.not_mem_nil
  · exact ⟨m, uid, hone, htarget, hsector⟩

end OnboardingState

section Recovery

variable {uids : ℕ → Uid} {before now later : Instant} {s : OnboardingState}

/-- Every reachable state is sound. -/
theorem OnboardingReachable.sound (huids : Function.Injective uids)
    (h : OnboardingReachable uids now s) : s.Sound uids now := by
  induction h with
  | start sectors blockMappings filenames mapping =>
    have hnone : ∀ {ρ : Type} {p : ρ → Prop}, ∀ r ∈ ([] : List ρ), p r := fun {_ _} r hr =>
      absurd hr List.not_mem_nil
    refine ⟨fun n hn => ?_, filenames, fun key => ?_, fun key m hm => ?_, fun key _ m hm => ?_⟩
    · refine ⟨?_, ?_, mapping n hn, ?_, ?_, ?_, ?_⟩ <;>
        · rw [sectors]
          exact hnone
    · rw [blockMappings]
      exact Nat.zero_le 1
    · rw [blockMappings] at hm
      exact absurd hm List.not_mem_nil
    · rw [blockMappings] at hm
      exact absurd hm List.not_mem_nil
  | write _ other ih => exact ih.write other
  | run _ later_le n ih => exact ((ih.mono later_le).stopped huids n).1.sound

/-- A run that stops anywhere is followed by one over the same blocks, which returns and leaves
one sector for each block. No sector with a version lacks its subject then exactly when none
lacked it before that belongs to no block, and the first run did not stop right after the
version of a new sector. -/
theorem onboarding_recovers_iff (huids : Function.Injective uids)
    (h : OnboardingReachable uids before s) (hnow : before ≤ now) (hlater : now ≤ later)
    (hblocks : s.market.blockGroups later = s.market.blockGroups now) (n : ℕ) :
    let groups := s.market.blockGroups now
    let stopped := (synchronize uids now).stoppedAfter n s
    let rerun := synchronize uids later stopped
    let final := lastOf stopped rerun.commits
    (rerun.result.isOk = true ∧
      (∀ group ∈ groups, ∃ m uid, final.blockMappings group.key.externalCode = [m] ∧
        m.target = .sector uid ∧ final.HasSector uid) ∧
      final.subjectMappingMissing = 0) ↔
    ¬s.StopsAtVersion now groups n ∧ ∀ uid, s.Missing uid →
      ∃ group ∈ groups, ∃ m ∈ s.blockMappings group.key.externalCode, m.target = .sector uid := by
  intro groups stopped rerun final
  obtain ⟨hstopped, hlost⟩ := ((h.sound huids).mono hnow).stopped huids n
  -- The second run, over the same blocks.
  have hgroups : stopped.market.blockGroups later = groups :=
    (hstopped.blocks later).trans hblocks
  have hcodes : stopped.blockCodes later = s.blockCodes now := by
    rw [OnboardingState.blockCodes, hgroups]
    rfl
  obtain ⟨commits, created, hdoes, hlast, hlost', hdone⟩ :=
    (hstopped.sound.mono hlater).synchronized huids
  rw [hcodes, hlost] at hlost'
  rw [hgroups] at hdone
  have hrerun : rerun = ⟨commits, .ok created⟩ := hdoes
  have hfinal : final = lastOf stopped commits := congrArg (lastOf stopped ·.commits) hrerun
  have hmissing : final.subjectMappingMissing = 0 ↔
      ¬∃ uid, final.Lost (s.blockCodes now) uid := by
    rw [OnboardingState.subjectMappingMissing_eq_zero, not_exists, hfinal]
    refine forall_congr' fun uid => not_congr (hlast.sound.lost_iff fun code hcode => ?_).symm
    obtain ⟨group, hgroup, rfl⟩ := List.mem_map.mp hcode
    exact ⟨group, rfl, hdone group hgroup⟩
  have hreturns : rerun.result.isOk = true := by
    rw [hrerun]
    rfl
  have hsectors : ∀ group ∈ groups, ∃ m uid, final.blockMappings group.key.externalCode = [m] ∧
      m.target = .sector uid ∧ final.HasSector uid := by
    intro group hgroup
    rw [hfinal]
    exact hlast.sound.sector_of_writes (hdone group hgroup)
  have hknown : (¬∃ uid, s.Lost (s.blockCodes now) uid) ↔ ∀ uid, s.Missing uid →
      ∃ group ∈ groups, ∃ m ∈ s.blockMappings group.key.externalCode, m.target = .sector uid := by
    rw [not_exists]
    refine forall_congr' fun uid => ⟨fun hlost hmissing => ?_, ?_⟩
    · by_contra hnone
      refine hlost ⟨hmissing, fun code hcode m hm htarget => hnone ?_⟩
      obtain ⟨group, hgroup, rfl⟩ := List.mem_map.mp hcode
      exact ⟨group, hgroup, m, hm, htarget⟩
    · rintro hknown ⟨hmissing, hlost⟩
      obtain ⟨group, hgroup, m, hm, htarget⟩ := hknown hmissing
      exact hlost _ (List.mem_map.mpr ⟨group, hgroup, rfl⟩) m hm htarget
  rw [and_iff_right hreturns, and_iff_right hsectors, hmissing, hfinal, hlost', not_or, hknown,
    and_comm]

end Recovery

/-! ## One block -/

def numberedUid (n : ℕ) : Uid := "uid-" ++ toString n

theorem numberedUid_injective : Function.Injective numberedUid := by
  intro m n h
  have hlist := congrArg String.toList h
  rw [numberedUid, numberedUid, String.toList_append, String.toList_append] at hlist
  exact toString_nat_inj (List.append_cancel_left hlist)

/-- A concept block with one member, before the first run. -/
def oneBlock : OnboardingState where
  market := { MarketTables.empty with
    instrument := [⟨"stock", .stock⟩]
    providerMapping :=
      [⟨"mapping", "NATIVE_TDX", "1:600000", .instrument "stock", 0, none⟩]
    tdxBlockArtifactVersion :=
      [⟨"version", "epoch", "block_gn.dat", 1, "server", 3199, none, "sha256", 0, "1"⟩]
    tdxBlockMembership := [⟨"version", "concept", 2, .conceptMembership, 1, "600000"⟩] }
  sectors := .empty
  drawn := 0

/-- The state with one block is reachable. -/
theorem reachable_oneBlock : OnboardingReachable numberedUid 0 oneBlock := by
  refine .start rfl (fun key => ?_) ?_ fun n _ m hm => ?_
  · refine List.filter_eq_nil_iff.mpr fun m hm hcode => ?_
    rw [List.mem_singleton.mp hm] at hcode
    exact key.externalCode_ne 1 "600000" (of_decide_eq_true hcode).2
  · decide
  · rw [List.mem_singleton.mp hm]
    refine ⟨fun heq => ?_, nofun⟩
    have hlist : "mapping".toList = "uid-".toList ++ (toString n).toList := by
      rw [← String.toList_append]
      exact congrArg String.toList heq
    have hhead := congrArg List.head? hlist
    rw [List.head?_append_of_ne_nil _ (by decide)] at hhead
    exact absurd hhead (by decide)

/-- A run over the block that stops after three transactions is made up for by the next. -/
theorem onboarding_recovers_iff_oneBlock :
    let stopped := (synchronize numberedUid 5).stoppedAfter 3 oneBlock
    let rerun := synchronize numberedUid 6 stopped
    let final := lastOf stopped rerun.commits
    (rerun.result.isOk = true ∧
      (∀ group ∈ oneBlock.market.blockGroups 5, ∃ m uid,
        final.blockMappings group.key.externalCode = [m] ∧ m.target = .sector uid ∧
          final.HasSector uid) ∧
      final.subjectMappingMissing = 0) ↔
    ¬oneBlock.StopsAtVersion 5 (oneBlock.market.blockGroups 5) 3 ∧ ∀ uid, oneBlock.Missing uid →
      ∃ group ∈ oneBlock.market.blockGroups 5,
        ∃ m ∈ oneBlock.blockMappings group.key.externalCode, m.target = .sector uid :=
  onboarding_recovers_iff numberedUid_injective reachable_oneBlock (Nat.zero_le 5)
    (Nat.le_succ 5) (by decide +kernel) 3

/-- A run over the block that stops after its second transaction leaves a sector that the next
run does not find : it returns, maps a second sector, and the first is counted. -/
theorem onboarding_not_recovered :
    let stopped := (synchronize numberedUid 5).stoppedAfter 2 oneBlock
    let rerun := synchronize numberedUid 6 stopped
    let final := lastOf stopped rerun.commits
    OnboardingReachable numberedUid 0 oneBlock ∧ oneBlock.subjectMappingMissing = 0 ∧
      oneBlock.market.blockGroups 6 = oneBlock.market.blockGroups 5 ∧
      rerun.result.isOk = true ∧ final.sectors.sector.length = 2 ∧
      final.subjectMappingMissing = 1 := by
  refine ⟨reachable_oneBlock, ?_, ?_, ?_, ?_, ?_⟩ <;> decide +kernel

end MarketMonitor
