import MarketMonitor.MarketData.BlockHistory
import MarketMonitor.MarketData.Sectors
import MarketMonitor.Persistence.Instants

/-!
# The blocks that are onboarded

A block of `synchronize` is of the newest version of its file, and its members are known
instruments. Two blocks have two external codes, and the mapping of such a code changes no
block : an instrument is found by a code of another form.
-/

namespace MarketMonitor

open Transaction

/-! ## External codes -/

/-- What comes before the first colon, and what comes after it. -/
theorem append_colon_inj {xs xs' ys ys' : List Char} (hxs : ':' ∉ xs) (hxs' : ':' ∉ xs')
    (h : xs ++ ':' :: ys = xs' ++ ':' :: ys') : xs = xs' ∧ ys = ys' := by
  have hall : ∀ zs : List Char, ':' ∉ zs → ∀ c ∈ zs, decide (c ≠ ':') = true := by
    intro zs hzs c hc
    simp only [decide_eq_true_eq]
    rintro rfl
    exact hzs hc
  have htake := congrArg (List.takeWhile fun c => c ≠ ':') h
  rw [List.takeWhile_append_of_pos (hall xs hxs), List.takeWhile_append_of_pos (hall xs' hxs')]
    at htake
  have hlists : xs = xs' := by simpa using htake
  subst hlists
  exact ⟨rfl, List.tail_eq_of_cons_eq (List.append_cancel_left h)⟩

theorem MembershipKind.text_inj {kind kind' : MembershipKind} (h : kind.text = kind'.text) :
    kind = kind' := by
  cases kind <;> cases kind' <;> first | rfl | exact absurd h (by decide)

theorem MembershipKind.colon_notMem_text (kind : MembershipKind) : ':' ∉ kind.text.toList := by
  cases kind <;> decide

theorem colon_notMem_toString (n : ℕ) : ':' ∉ (toString n).toList := by
  have hlist : (toString n).toList = Nat.toDigits 10 n := Nat.toList_repr
  intro hmem
  rw [hlist] at hmem
  exact absurd (Nat.isDigit_of_mem_toDigits (by decide) (by decide) hmem) (by decide)

theorem toString_nat_inj {m n : ℕ} (h : (toString m).toList = (toString n).toList) : m = n := by
  have hlist : ∀ k : ℕ, (toString k).toList = Nat.toDigits 10 k := fun k => Nat.toList_repr
  rw [hlist, hlist] at h
  exact toDigits_inj h

theorem colon_notMem_blockFilenames {filename : String} (h : filename ∈ blockFilenames) :
    ':' ∉ filename.toList := by
  simp only [blockFilenames, List.mem_cons, List.not_mem_nil, or_false] at h
  rcases h with rfl | rfl | rfl | rfl <;> decide

/-- The characters of an external code. -/
theorem BlockKey.toList_externalCode (key : BlockKey) : key.externalCode.toList =
    ['T', 'D', 'X', ':'] ++ (key.filename.toList ++ ':' :: (key.membershipKind.text.toList ++
      ':' :: ((toString key.blockType).toList ++ ':' :: key.blockName.toList))) := by
  simp only [BlockKey.externalCode, String.toList_append, List.append_assoc]
  rfl

/-- Blocks of one version of a file have different codes. -/
theorem BlockKey.eq_of_externalCode {key key' : BlockKey} (hname : ':' ∉ key.filename.toList)
    (hname' : ':' ∉ key'.filename.toList) (h : key.externalCode = key'.externalCode) :
    key.filename = key'.filename ∧ key.membershipKind = key'.membershipKind ∧
      key.blockType = key'.blockType ∧ key.blockName = key'.blockName := by
  have hlist := congrArg String.toList h
  rw [toList_externalCode, toList_externalCode] at hlist
  obtain ⟨hfile, hlist⟩ := append_colon_inj hname hname' (List.append_cancel_left hlist)
  obtain ⟨hkind, hlist⟩ := append_colon_inj (MembershipKind.colon_notMem_text _)
    (MembershipKind.colon_notMem_text _) hlist
  obtain ⟨htype, hblock⟩ := append_colon_inj (colon_notMem_toString _) (colon_notMem_toString _)
    hlist
  exact ⟨String.toList_inj.mp hfile, MembershipKind.text_inj (String.toList_inj.mp hkind),
    toString_nat_inj htype, String.toList_inj.mp hblock⟩

/-- The code of an instrument is not that of a block. -/
theorem BlockKey.externalCode_ne (key : BlockKey) (market : ℕ) (code : String) :
    toString market ++ ":" ++ code ≠ key.externalCode := by
  intro h
  have hlist := congrArg String.toList h
  rw [toList_externalCode] at hlist
  simp only [String.toList_append, List.append_assoc] at hlist
  have hhead := congrArg List.head? hlist
  have hdigits : (toString market).toList = Nat.toDigits 10 market := Nat.toList_repr
  rw [hdigits, List.head?_append_of_ne_nil _ Nat.toDigits_ne_nil] at hhead
  have hmem := List.mem_of_mem_head? (a := 'T') hhead
  exact absurd (Nat.isDigit_of_mem_toDigits (by decide) (by decide) hmem) (by decide)

/-! ## Blocks -/

namespace MarketTables

variable (tables : MarketTables) (instant : Instant)

/-- The primary stock of a member of a block. -/
def stockOf (m : TdxBlockMembership) : Option Uid := do
  let instrumentUid ← tables.onboardingMapping "NATIVE_TDX"
    (toString m.market ++ ":" ++ m.code) instant
  let instrument ← tables.instrument.find? fun i => i.instrumentUid = instrumentUid
  if isPrimaryAShare instrument.instrumentKind m.market m.code then some instrumentUid else none

/-- The stock is a member of the block in its version of the file. -/
def Eligible (key : BlockKey) (instrumentUid : Uid) : Prop :=
  ∃ row ∈ tables.tdxBlockMembership, row.blockVersionUid = key.blockVersionUid ∧
    row.membership.membershipKind = key.membershipKind ∧
    row.membership.blockType = key.blockType ∧ row.membership.blockName = key.blockName ∧
    tables.stockOf instant row.membership = some instrumentUid

/-- The version is the newest of its file. -/
def Newest (blockVersionUid : Uid) (filename : String) : Prop :=
  ∃ version newest, tables.tdxBlockArtifactVersion.find? (fun v =>
      v.blockVersionUid = blockVersionUid) = some version ∧
    tables.latestBlock version.filename instant = some newest ∧
    newest.blockVersionUid = blockVersionUid ∧ version.filename = filename

end MarketTables

namespace MarketTables

variable {tables : MarketTables} {instant : Instant}

/-- A row of the query, in one statement. -/
theorem blockRow_eq_some_iff {row : TdxBlockMembershipRow} {key : BlockKey} {uid : Uid} :
    tables.blockRow instant row = some (key, uid) ↔
      tables.Newest instant row.blockVersionUid key.filename ∧
      (key.membershipKind = .conceptMembership ∨ key.membershipKind = .themeMembership) ∧
      row.blockVersionUid = key.blockVersionUid ∧
      row.membership.membershipKind = key.membershipKind ∧
      row.membership.blockType = key.blockType ∧ row.membership.blockName = key.blockName ∧
      tables.stockOf instant row.membership = some uid := by
  rcases key with ⟨blockVersionUid, filename, kind, blockType, blockName⟩
  constructor
  · intro h
    simp only [blockRow, Option.bind_eq_bind, Option.bind_eq_some_iff] at h
    obtain ⟨version, hversion, newest, hnewest, h⟩ := h
    split_ifs at h with huid hkind
    simp only [Option.bind_eq_some_iff] at h
    obtain ⟨instrumentUid, hmapping, instrument, hinstrument, h⟩ := h
    split_ifs at h with hprimary
    cases h
    refine ⟨⟨version, newest, hversion, hnewest, not_not.mp huid, rfl⟩, ?_, rfl, rfl, rfl, rfl, ?_⟩
    · by_contra hne
      exact hkind (not_or.mp hne)
    · simp only [stockOf, Option.bind_eq_bind, Option.bind_eq_some_iff]
      exact ⟨_, hmapping, instrument, hinstrument, if_pos hprimary⟩
  · rintro ⟨⟨version, newest, hversion, hnewest, huid, rfl⟩, hkinds, rfl, rfl, rfl, rfl, hstock⟩
    simp only [stockOf, Option.bind_eq_bind, Option.bind_eq_some_iff] at hstock
    obtain ⟨instrumentUid, hmapping, instrument, hinstrument, h⟩ := hstock
    split_ifs at h with hprimary
    cases h
    simp only [blockRow, Option.bind_eq_bind, Option.bind_eq_some_iff]
    refine ⟨version, hversion, newest, hnewest, ?_⟩
    rw [if_neg (not_not.mpr huid), if_neg (not_and_or.mpr (by simpa using hkinds))]
    simp only [Option.bind_eq_some_iff]
    exact ⟨_, hmapping, instrument, hinstrument, if_pos hprimary⟩

/-- A block of a run is one of the newest version of its file with an eligible stock. -/
theorem mem_blockGroups_iff {key : BlockKey} :
    (∃ group ∈ tables.blockGroups instant, group.key = key) ↔
      ∃ row ∈ tables.tdxBlockMembership, ∃ uid, tables.blockRow instant row = some (key, uid) := by
  simp only [blockGroups, List.mem_map, exists_exists_and_eq_and]
  constructor
  · rintro ⟨key', hkey', rfl⟩
    rw [(List.perm_insertionSort _ _).mem_iff, List.mem_dedup] at hkey'
    obtain ⟨⟨key', uid⟩, hrow, rfl⟩ := List.mem_map.mp hkey'
    obtain ⟨row, hrow, hblock⟩ := List.mem_filterMap.mp hrow
    exact ⟨row, hrow, uid, hblock⟩
  · rintro ⟨row, hrow, uid, hblock⟩
    refine ⟨key, ?_, rfl⟩
    rw [(List.perm_insertionSort _ _).mem_iff, List.mem_dedup]
    exact List.mem_map.mpr ⟨(key, uid), List.mem_filterMap.mpr ⟨row, hrow, hblock⟩, rfl⟩

/-- The members of a block of a run are its eligible stocks. -/
theorem mem_members {group : BlockGroup} (hgroup : group ∈ tables.blockGroups instant) {uid : Uid} :
    uid ∈ group.members ↔ tables.Eligible instant group.key uid := by
  obtain ⟨row₀, hrow₀, uid₀, hblock₀⟩ := mem_blockGroups_iff.mp ⟨group, hgroup, rfl⟩
  obtain ⟨hnewest, hkinds, huid, -⟩ := blockRow_eq_some_iff.mp hblock₀
  obtain ⟨key, -, rfl⟩ := List.mem_map.mp hgroup
  rw [List.mem_dedup, List.mem_map]
  constructor
  · rintro ⟨⟨key', uid'⟩, hmem, rfl⟩
    obtain ⟨hmem, hkey⟩ := List.mem_filter.mp hmem
    obtain ⟨row, hrow, hblock⟩ := List.mem_filterMap.mp hmem
    obtain rfl := of_decide_eq_true hkey
    exact ⟨row, hrow, (blockRow_eq_some_iff.mp hblock).2.2⟩
  · rintro ⟨row, hrow, hversion, hmember⟩
    have hblock : tables.blockRow instant row = some (key, uid) :=
      blockRow_eq_some_iff.mpr ⟨(hversion.trans huid.symm) ▸ hnewest, hkinds, hversion, hmember⟩
    exact ⟨(key, uid), List.mem_filter.mpr
      ⟨List.mem_filterMap.mpr ⟨row, hrow, hblock⟩, decide_eq_true rfl⟩, rfl⟩

/-- What is known of a block of a run. -/
structure Onboardable (tables : MarketTables) (instant : Instant) (group : BlockGroup) : Prop where
  version : ∃ v ∈ tables.tdxBlockArtifactVersion, v.blockVersionUid = group.key.blockVersionUid ∧
    v.filename = group.key.filename
  newest : (tables.latestBlock group.key.filename instant).map
    TdxBlockArtifactVersion.blockVersionUid = some group.key.blockVersionUid
  kind : group.key.membershipKind = .conceptMembership ∨
    group.key.membershipKind = .themeMembership
  members : ∀ uid ∈ group.members, ∃ i ∈ tables.instrument, i.instrumentUid = uid

/-- The groups are onboardable. -/
theorem onboardable_of_mem {group : BlockGroup} (hgroup : group ∈ tables.blockGroups instant) :
    Onboardable tables instant group := by
  obtain ⟨row, -, uid, hblock⟩ := mem_blockGroups_iff.mp ⟨group, hgroup, rfl⟩
  obtain ⟨⟨version, newest, hversion, hnewest, huid, hfile⟩, hkind, hrow, -⟩ :=
    blockRow_eq_some_iff.mp hblock
  refine ⟨⟨version, List.mem_of_find?_eq_some hversion, ?_, hfile⟩, ?_, hkind, ?_⟩
  · have hfound := List.find?_some hversion
    exact (of_decide_eq_true hfound).trans hrow
  · rw [← hfile, hnewest, Option.map_some, huid, hrow]
  · intro uid hmember
    obtain ⟨row', -, -, -, -, -, hstock⟩ := (mem_members hgroup).mp hmember
    simp only [stockOf, Option.bind_eq_bind, Option.bind_eq_some_iff] at hstock
    obtain ⟨instrumentUid, -, instrument, hinstrument, h⟩ := hstock
    split_ifs at h
    cases h
    have hfound := List.find?_some hinstrument
    exact ⟨instrument, List.mem_of_find?_eq_some hinstrument, of_decide_eq_true hfound⟩

/-- The blocks of one time have different codes. -/
theorem nodup_externalCodes
    (hnames : ∀ v ∈ tables.tdxBlockArtifactVersion, v.filename ∈ blockFilenames) :
    ((tables.blockGroups instant).map fun group => group.key.externalCode).Nodup := by
  have hkeys : ((tables.blockGroups instant).map BlockGroup.key).Nodup := by
    rw [blockGroups, List.map_map]
    refine (List.nodup_map_iff_inj_on
      ((List.perm_insertionSort _ _).nodup_iff.mpr (List.nodup_dedup _))).mpr ?_
    exact fun _ _ _ _ heq => heq
  have hname : ∀ group ∈ tables.blockGroups instant, ':' ∉ group.key.filename.toList := by
    intro group hgroup
    obtain ⟨v, hv, -, hfile⟩ := (onboardable_of_mem hgroup).version
    exact colon_notMem_blockFilenames (hfile ▸ hnames v hv)
  refine (List.nodup_map_iff_inj_on hkeys.of_map).mpr fun group hgroup group' hgroup' heq => ?_
  obtain ⟨hfile, hkind, htype, hblock⟩ :=
    BlockKey.eq_of_externalCode (hname group hgroup) (hname group' hgroup') heq
  have hnewest := (onboardable_of_mem hgroup).newest
  rw [hfile, (onboardable_of_mem hgroup').newest] at hnewest
  refine List.inj_on_of_nodup_map hkeys hgroup hgroup' ?_
  rcases group with ⟨⟨⟩, _⟩
  rcases group' with ⟨⟨⟩, _⟩
  simp_all

/-- The tables with one more mapping. -/
def withMapping (tables : MarketTables) (m : ProviderMapping) : MarketTables :=
  { tables with providerMapping := tables.providerMapping ++ [m] }

section WithMapping

variable {m : ProviderMapping} {key : BlockKey} (hm : m.externalCode = key.externalCode)

include hm

/-- The mapping of a block maps no stock. -/
theorem onboardingMapping_withMapping (instant : Instant) (market : ℕ) (code : String) :
    (tables.withMapping m).onboardingMapping "NATIVE_TDX" (toString market ++ ":" ++ code) instant =
      tables.onboardingMapping "NATIVE_TDX" (toString market ++ ":" ++ code) instant := by
  have hne : ¬m.externalCode = toString market ++ ":" ++ code := fun h =>
    key.externalCode_ne market code (h.symm.trans hm)
  simp only [onboardingMapping, newestInstrument, newestMapping, withMapping, List.filter_append]
  rw [List.filter_singleton, decide_eq_false fun h => hne h.2.1, cond_false, List.append_nil]

theorem stockOf_withMapping (instant : Instant) :
    (tables.withMapping m).stockOf instant = tables.stockOf instant := by
  funext member
  simp only [stockOf, onboardingMapping_withMapping hm]
  rfl

/-- The mapping of a block changes no block. -/
theorem blockGroups_withMapping (instant : Instant) :
    (tables.withMapping m).blockGroups instant = tables.blockGroups instant := by
  have hrow : (tables.withMapping m).blockRow instant = tables.blockRow instant := by
    funext row
    simp only [blockRow, onboardingMapping_withMapping hm]
    rfl
  rw [blockGroups, blockGroups, hrow]
  rfl

end WithMapping

end MarketTables

end MarketMonitor
