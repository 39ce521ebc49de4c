import MarketMonitor.Analysis.ActivationHistory
import MarketMonitor.Analysis.MetricRecording

/-!
# The audit of thresholds

What was in force at the time of a committed snapshot is asked again later. A call of the
registry may be about the past : `Backdated` is the kind of call that changes the answer,
and `resolves_iff` says that no other does.
-/

namespace MarketMonitor

open Transaction

variable {t t' : ThresholdTables} {at_ : Instant} {recorded : ThresholdFamily → Uid}

/-- The recorded versions are those in force at an instant. -/
def Resolves (t : ThresholdTables) (at_ : Instant) (recorded : ThresholdFamily → Uid) : Prop :=
  ∀ family, ∃ set, resolveOfficial t family at_ = .ok set ∧ set.uid = recorded family

/-- A call that changes, after the fact, what was in force at an instant : it fails a
recorded version in a validation that is the latest of its kind at that instant, or it
activates another version at or before the instant. -/
def Backdated (t : ThresholdTables) (at_ : Instant) (recorded : ThresholdFamily → Uid) :
    RegistryCall → Prop
  | .recordValidation request _ => ∃ family version kind,
    familyOf request.family = .ok family ∧
    t.versionNamed? family request.version = some version ∧
    (∃ f, recorded f = version.thresholdVersionUid) ∧
    validationKindOf request.validationKind = .ok kind ∧
    request.validationStatus = "FAIL" ∧ request.observedAt ≤ at_ ∧
    ∀ v ∈ t.thresholdValidation, v.thresholdVersionUid = version.thresholdVersionUid →
      v.validationKind = kind → v.reportSha256 ≠ request.reportSha256 ∧
        (v.observedAt ≤ at_ → v.observedAt ≤ request.observedAt)
  | .activatePair request _ =>
    request.effectiveAt ≤ at_ ∧ activationByKey t .guardian request.acceptanceId = none ∧
    ∃ family version, t.versionNamed? family (request.version family) = some version ∧
      version.thresholdVersionUid ≠ recorded family
  | .registerVersion _ _ => False
  | .recordActivationEvidence _ _ _ _ => False

/-! ## Validations -/

/-- The validations of a version and a kind known at an instant. -/
def ThresholdTables.validations (t : ThresholdTables) (versionUid : Uid) (kind : ValidationKind)
    (at_ : Instant) : List ThresholdValidation :=
  t.thresholdValidation.filter fun v =>
    v.thresholdVersionUid = versionUid ∧ v.validationKind = kind ∧ v.observedAt ≤ at_

/-- The latest validation of a kind is a pass. -/
def LatestPass (rows : List ThresholdValidation) : Prop :=
  ∃ v, latest (fun v => toLex (v.observedAt, v.validationOrder)) rows = some v ∧ v.passed = true

/-- Validations pass when the latest of either kind does. -/
theorem latestValidationsPass_iff {uid : Uid} : latestValidationsPass t uid at_ = true ↔
    ∀ kind, LatestPass (t.validations uid kind at_) := by
  rw [latestValidationsPass, List.all_eq_true]
  have hmem : ∀ kind : ValidationKind, kind ∈ [ValidationKind.replay, .shadow] := by
    intro kind
    cases kind <;> decide
  refine ⟨fun h kind => ?_, fun h kind _ => ?_⟩
  · have hpassed := h kind (hmem kind)
    dsimp only at hpassed
    split at hpassed
    · rename_i v hlatest
      exact ⟨v, hlatest, hpassed⟩
    · cases hpassed
  · obtain ⟨v, hlatest, hpassed⟩ := h kind
    dsimp only
    split
    · rename_i v' hlatest'
      rwa [Option.some.inj (hlatest'.symm.trans hlatest)]
    · rename_i hnone
      cases hnone.symm.trans hlatest

/-- A later row of a kind overrides those it is not older than. -/
theorem latestPass_concat_iff {rows : List ThresholdValidation} {row : ThresholdValidation}
    (hpass : LatestPass rows) (horder : ∀ v ∈ rows, v.validationOrder < row.validationOrder) :
    LatestPass (rows ++ [row]) ↔
      ¬(row.passed = false ∧ ∀ v ∈ rows, v.observedAt ≤ row.observedAt) := by
  by_cases holder : ∀ v ∈ rows, v.observedAt ≤ row.observedAt
  · have hlatest : latest (fun v : ThresholdValidation => toLex (v.observedAt, v.validationOrder))
        (rows ++ [row]) = some row :=
      latest_concat fun v hv => Prod.Lex.toLex_lt_toLex.mpr
        ((lt_or_eq_of_le (holder v hv)).imp_right fun heq => ⟨heq, horder v hv⟩)
    have hrow : LatestPass (rows ++ [row]) ↔ row.passed = true := by
      simp [LatestPass, hlatest]
    rw [hrow]
    constructor
    · rintro hpassed ⟨hfailed, -⟩
      exact absurd (hpassed.symm.trans hfailed) (by decide)
    · intro h
      by_contra hfailed
      exact h ⟨Bool.not_eq_true _ ▸ hfailed, holder⟩
  · have hnewer := holder
    push Not at hnewer
    obtain ⟨v, hv, hlt⟩ := hnewer
    have hlatest := @latest_concat_of_lt ThresholdValidation _ _
      (fun v => toLex (v.observedAt, v.validationOrder)) _ _ _ hv
      (Prod.Lex.toLex_lt_toLex.mpr (Or.inl hlt))
    rw [LatestPass, hlatest]
    exact iff_of_true hpass fun h => holder h.2

/-- When a new validation fails a version at an instant. -/
theorem latestValidationsPass_concat_iff {uid : Uid} {row : ThresholdValidation}
    (hpass : latestValidationsPass t uid at_ = true)
    (horder : ∀ v ∈ t.thresholdValidation, v.validationOrder < row.validationOrder) :
    latestValidationsPass { t with thresholdValidation := t.thresholdValidation ++ [row] } uid at_ =
        true ↔
      ¬(row.thresholdVersionUid = uid ∧ row.observedAt ≤ at_ ∧ row.passed = false ∧
        ∀ v ∈ t.thresholdValidation, v.thresholdVersionUid = uid →
          v.validationKind = row.validationKind → v.observedAt ≤ at_ →
            v.observedAt ≤ row.observedAt) := by
  rw [latestValidationsPass_iff] at hpass ⊢
  have hrows : ∀ kind, ({ t with thresholdValidation := t.thresholdValidation ++ [row] } :
      ThresholdTables).validations uid kind at_ = t.validations uid kind at_ ++
        if row.thresholdVersionUid = uid ∧ row.validationKind = kind ∧ row.observedAt ≤ at_ then
          [row] else [] := by
    intro kind
    rw [ThresholdTables.validations, List.filter_append, ← ThresholdTables.validations]
    congr 1
    split <;> simp [*]
  have hmem : ∀ v, v ∈ t.validations uid row.validationKind at_ ↔ v ∈ t.thresholdValidation ∧
      v.thresholdVersionUid = uid ∧ v.validationKind = row.validationKind ∧
        v.observedAt ≤ at_ := by
    intro v
    simp [ThresholdTables.validations]
  have hconcat := latestPass_concat_iff (hpass row.validationKind)
    fun v hv => horder v ((hmem v).mp hv).1
  constructor
  · rintro h ⟨huid, hat, hfailed, holder⟩
    have hkind := h row.validationKind
    rw [hrows, if_pos ⟨huid, rfl, hat⟩] at hkind
    refine hconcat.mp hkind ⟨hfailed, fun v hv => ?_⟩
    obtain ⟨hv, hvuid, hvkind, hvat⟩ := (hmem v).mp hv
    exact holder v hv hvuid hvkind hvat
  · intro h kind
    rw [hrows]
    split
    · rename_i hmatch
      obtain ⟨huid, rfl, hat⟩ := hmatch
      refine hconcat.mpr fun hfails => h ⟨huid, hat, hfails.1, fun v hv hvuid hvkind hvat => ?_⟩
      exact hfails.2 v ((hmem v).mpr ⟨hv, hvuid, hvkind, hvat⟩)
    · rw [List.append_nil]
      exact hpass kind

/-! ## Calls -/

/-- A version in force resolves when it is approved, validated and intact. -/
theorem resolves_iff_active : Resolves t at_ recorded ↔ ∀ family, ∃ a v,
    t.active family at_ = some (a, v) ∧ v.thresholdVersionUid = recorded family ∧
    v.approvalStatus ≠ .legacyUncalibrated ∧
    latestValidationsPass t (recorded family) at_ = true ∧
    ∃ set, setFromRow t v family v.version (some a.effectiveAt) = .ok set := by
  refine forall_congr' fun family => ?_
  constructor
  · rintro ⟨set, hset, huid⟩
    obtain ⟨a, v, hactive, happroved, hvalid, hrow⟩ := resolveOfficial_eq_ok.mp hset
    have hv : v.thresholdVersionUid = recorded family := (setFromRow_eq_ok hrow).1.symm.trans huid
    exact ⟨a, v, hactive, hv, happroved, hv ▸ hvalid, set, hrow⟩
  · rintro ⟨a, v, hactive, hv, happroved, hvalid, set, hrow⟩
    exact ⟨set, resolveOfficial_eq_ok.mpr ⟨a, v, hactive, happroved, hv ▸ hvalid, hrow⟩,
      (setFromRow_eq_ok hrow).1.trans hv⟩

/-- The time an activation took effect is not part of a version. -/
theorem setFromRow_time {row : ThresholdVersion} {family : ThresholdFamily} {version : String}
    {effectiveTime : Option Instant} {set : ThresholdSet}
    (h : setFromRow t row family version effectiveTime = .ok set) (time : Option Instant) :
    ∃ set', setFromRow t row family version time = .ok set' := by
  unfold setFromRow at h ⊢
  split at h
  · cases h
  · rename_i entries complete hentries
    dsimp only at h ⊢
    split at h
    · cases h
    · rename_i hhash
      simp [hhash]

/-- A validation keeps the answer exactly when it is not backdated. -/
theorem resolves_recordValidation_iff {artifacts : ArtifactTables} {request : ValidationRequest}
    {uid result : Uid} (hres : Resolves t at_ recorded)
    (h : (recordValidation artifacts request uid).run t = .ok result t') :
    Resolves t' at_ recorded ↔ ¬Backdated t at_ recorded (.recordValidation request uid) := by
  rcases recordValidation_cases h with ⟨rfl, family, v, kind, hfamily, hnamed, hkind, w, hw,
    hwuid, hwkind, hwsha⟩ | ⟨row, hnew, rfl⟩
  · refine iff_of_true hres ?_
    rintro ⟨_, _, _, hfamily', hnamed', -, hkind', -, -, hold⟩
    cases hfamily.symm.trans hfamily'
    cases hnamed.symm.trans hnamed'
    cases hkind.symm.trans hkind'
    exact (hold w hw hwuid hwkind).1 hwsha
  · obtain ⟨family, v, hfamily, hnamed, hvuid⟩ := hnew.version
    have hactive := resolves_iff_active.mp hres
    have hpass : ∀ f, latestValidationsPass t (recorded f) at_ = true := fun f => by
      obtain ⟨_, _, -, -, -, hvalid, -⟩ := hactive f
      exact hvalid
    have hfails : Resolves { t with thresholdValidation := t.thresholdValidation ++ [row] } at_
        recorded ↔ ∀ f, latestValidationsPass
          { t with thresholdValidation := t.thresholdValidation ++ [row] } (recorded f) at_ =
            true := by
      rw [resolves_iff_active]
      refine forall_congr' fun f => ?_
      obtain ⟨a, v, ha, hv, happroved, -, hset⟩ := hactive f
      constructor
      · rintro ⟨_, _, -, -, -, hvalid, -⟩
        exact hvalid
      · intro hvalid
        exact ⟨a, v, ha, hv, happroved, hvalid, hset⟩
    rw [hfails, ← not_iff_not, not_forall, not_not]
    constructor
    · rintro ⟨f, hf⟩
      rw [latestValidationsPass_concat_iff (hpass f) hnew.order, not_not] at hf
      obtain ⟨huid, hat, hfailed, hold⟩ := hf
      refine ⟨family, v, row.validationKind, hfamily, hnamed, ⟨f, huid.symm.trans hvuid.symm⟩,
        hnew.kind, ?_, hnew.observedAt ▸ hat, fun w hw hwuid hwkind => ⟨?_, fun hwat => ?_⟩⟩
      · have hstatus := hnew.passed
        rw [hfailed, validationPassed] at hstatus
        split at hstatus
        · cases hstatus
        · split at hstatus
          · assumption
          · cases hstatus
      · rw [← hnew.reportSha256]
        exact hnew.fresh w hw (hwuid.trans hvuid) hwkind
      · rw [← hnew.observedAt]
        exact hold w hw (hwuid.trans (hvuid.trans huid)) hwkind hwat
    · rintro ⟨_, _, kind, hfamily', hnamed', ⟨f, hf⟩, hkind, hstatus, hat, hold⟩
      cases hfamily.symm.trans hfamily'
      cases hnamed.symm.trans hnamed'
      have hkindEq : row.validationKind = kind := Except.ok.inj (hnew.kind.symm.trans hkind)
      refine ⟨f, ?_⟩
      rw [latestValidationsPass_concat_iff (hpass f) hnew.order, not_not]
      refine ⟨hvuid.symm.trans hf.symm, hnew.observedAt.symm ▸ hat, ?_,
        fun w hw hwuid hwkind hwat => ?_⟩
      · have hpassed := hnew.passed
        rw [hstatus, validationPassed] at hpassed
        exact (Except.ok.inj hpassed).symm
      · rw [hnew.observedAt]
        exact (hold w hw (hwuid.trans hf) (hwkind.trans hkindEq)).2 hwat

/-- A new activation is in force from its time on. -/
theorem NewActivation.active {request : ActivationRequest} {evidence : ThresholdActivationEvidence}
    {uids : Uid × Uid} {guardian scout : ThresholdActivation} (hkeys : RegistryKeys t)
    (h : NewActivation t request evidence uids guardian scout) (hat : request.effectiveAt ≤ at_)
    (family : ThresholdFamily) : ∃ a v, Activatable t request family v ∧
      ({ t with thresholdActivation := t.thresholdActivation ++ [guardian, scout] } :
        ThresholdTables).active family at_ = some (a, v) := by
  obtain ⟨_, _, v, w, hv, hw, -, -, hguardian, hscout⟩ := h.versions
  obtain ⟨hvmem, hvfamily, -⟩ := family_of_versionNamed? hv.named
  obtain ⟨hwmem, hwfamily, -⟩ := family_of_versionNamed? hw.named
  have hold : ∀ p ∈ t.activations family at_, p.1.effectiveAt < request.effectiveAt := by
    rintro ⟨b, x⟩ hp
    obtain ⟨a, ha, hsome⟩ := List.mem_filterMap.mp hp
    obtain ⟨-, -, -, rfl⟩ := effective_eq_some.mp hsome
    exact h.advances a ha
  have hlatest : ∀ a x, a.effectiveAt = request.effectiveAt →
      latest (fun p : ThresholdActivation × ThresholdVersion =>
        toLex (p.1.effectiveAt, p.1.activationOrder)) (t.activations family at_ ++ [(a, x)]) =
          some (a, x) := fun a x ha => latest_concat fun p hp =>
    Prod.Lex.toLex_lt_toLex.mpr (Or.inl (ha.symm ▸ hold p hp))
  have hskip : ∀ a, a.family ≠ family → t.effective family at_ a = none :=
    fun a ha => if_neg fun hcond => ha hcond.1
  have hguardianAt : guardian.effectiveAt = request.effectiveAt := hguardian ▸ rfl
  have hscoutAt : scout.effectiveAt = request.effectiveAt := hscout ▸ rfl
  have hguardianFamily : guardian.family = .guardian := hguardian ▸ hvfamily
  have hscoutFamily : scout.family = .scout := hscout ▸ hwfamily
  have hguardianVersion : t.version? guardian.thresholdVersionUid = some v :=
    hguardian ▸ hkeys.version? hvmem
  have hscoutVersion : t.version? scout.thresholdVersionUid = some w :=
    hscout ▸ hkeys.version? hwmem
  cases family with
  | guardian =>
    refine ⟨guardian, v, hv, ?_⟩
    rw [← hlatest guardian v hguardianAt]
    refine congrArg (latest _) (List.filterMap_append.trans (congrArg _ ?_))
    exact (List.filterMap_cons_some (effective_eq_some.mpr
      ⟨hguardianFamily, hguardianAt ▸ hat, hguardianVersion, rfl⟩)).trans
        (congrArg _ (List.filterMap_cons_none (hskip scout (by rw [hscoutFamily]; decide))))
  | scout =>
    refine ⟨scout, w, hw, ?_⟩
    rw [← hlatest scout w hscoutAt]
    refine congrArg (latest _) (List.filterMap_append.trans (congrArg _ ?_))
    exact (List.filterMap_cons_none (hskip guardian (by rw [hguardianFamily]; decide))).trans
      (List.filterMap_cons_some (effective_eq_some.mpr
        ⟨hscoutFamily, hscoutAt ▸ hat, hscoutVersion, rfl⟩))

/-- So does an activation. -/
theorem resolves_activatePair_iff {request : ActivationRequest} {uids result : Uid × Uid}
    (hkeys : RegistryKeys t) (hres : Resolves t at_ recorded)
    (h : (activatePair request uids).run t = .ok result t') :
    Resolves t' at_ recorded ↔ ¬Backdated t at_ recorded (.activatePair request uids) := by
  obtain ⟨evidence, -, ⟨hrepeated, rfl⟩ | ⟨-, guardian, scout, hnew, rfl⟩⟩ := activatePair_cases h
  · refine iff_of_true hres ?_
    rintro ⟨-, hunused, -⟩
    obtain ⟨_, _, _, _, hfound, -⟩ := hrepeated.found
    rw [hunused] at hfound
    cases hfound
  · by_cases hat : request.effectiveAt ≤ at_
    · have hactive := hnew.active hkeys hat
      constructor
      · rintro hres' ⟨-, -, family, version, hnamed, hne⟩
        obtain ⟨a, v, hactivatable, ha⟩ := hactive family
        obtain ⟨_, w, ha', hw, -⟩ := resolves_iff_active.mp hres' family
        cases ha.symm.trans ha'
        cases hactivatable.named.symm.trans hnamed
        exact hne hw
      · intro h
        refine resolves_iff_active.mpr fun family => ?_
        obtain ⟨a, v, hactivatable, ha⟩ := hactive family
        obtain ⟨hvmem, -, -⟩ := family_of_versionNamed? hactivatable.named
        obtain ⟨b, w, hb, hw, happroved, hvalid, set, hset⟩ := resolves_iff_active.mp hres family
        have hv : v.thresholdVersionUid = recorded family := by
          by_contra hne
          exact h ⟨hat, hnew.unused .guardian, family, v, hactivatable.named, hne⟩
        -- The version is the recorded one, so its row is the row it had.
        have hrow : v = w := by
          have hwself := (active_eq_some hb).1.2.2.2
          have hbuid : b.thresholdVersionUid = w.thresholdVersionUid := by
            simpa [eq_comm] using List.find?_some hwself
          rw [hbuid, hw, ← hv, hkeys.version? hvmem] at hwself
          exact Option.some.inj hwself
        subst hrow
        exact ⟨a, v, ha, hv, happroved, hvalid, setFromRow_time hset _⟩
    · refine iff_of_true (resolves_iff_active.mpr fun family => ?_) fun hback => hat hback.1
      obtain ⟨a, v, ha, hv, happroved, hvalid, set, hset⟩ := resolves_iff_active.mp hres family
      exact ⟨a, v, (active_of_activatePair h family (not_le.mp hat)).trans ha, hv, happroved,
        hvalid, set, hset⟩

/-- A new version changes nothing that is in force. -/
theorem Resolves.version {version : ThresholdVersion} {entries : List ThresholdEntry}
    (hkeys : RegistryKeys t) (hres : Resolves t at_ recorded)
    (h : NewVersion t version entries) :
    Resolves { t with
      thresholdVersion := t.thresholdVersion ++ [version]
      thresholdEntry := t.thresholdEntry ++ entries } at_ recorded := by
  have hext : Extends t { t with
      thresholdVersion := t.thresholdVersion ++ [version]
      thresholdEntry := t.thresholdEntry ++ entries } :=
    ⟨List.prefix_append _ _, List.prefix_rfl, List.prefix_rfl, List.prefix_rfl⟩
  refine resolves_iff_active.mpr fun family => ?_
  obtain ⟨a, v, ha, hv, happroved, hvalid, set, hset⟩ := resolves_iff_active.mp hres family
  refine ⟨a, v, ?_, hv, happroved, hvalid, set, ?_⟩
  · rw [← ha]
    refine congrArg (latest _) (List.filterMap_congr fun b hb => ?_)
    rw [ThresholdTables.effective, ThresholdTables.effective,
      hext.version?_of_isSome (hkeys.activation b hb)]
  · have hmem : v ∈ t.thresholdVersion := List.mem_of_find?_eq_some (active_eq_some ha).1.2.2.2
    have hentries : ({ t with
        thresholdVersion := t.thresholdVersion ++ [version]
        thresholdEntry := t.thresholdEntry ++ entries } : ThresholdTables).entriesOf
          v.thresholdVersionUid = t.entriesOf v.thresholdVersionUid := by
      have hnone :
          entries.filter (fun e => e.thresholdVersionUid = v.thresholdVersionUid) = [] := by
        rw [List.filter_eq_nil_iff]
        intro e he
        rw [h.owned e he]
        simpa using (h.fresh v hmem).symm
      rw [ThresholdTables.entriesOf, List.filter_append, hnone, List.append_nil]
      rfl
    rw [setFromRow, hentries]
    exact hset

/-- A returning call keeps the answer for an instant exactly when it is not backdated. -/
theorem resolves_iff {c : RegistryCall} {result : RegistryResult} {db db' : Database}
    (hkeys : RegistryKeys db.thresholds) (hres : Resolves db.thresholds at_ recorded)
    (h : c.run.run db = .ok result db') :
    Resolves db'.thresholds at_ recorded ↔ ¬Backdated db.thresholds at_ recorded c := by
  obtain ⟨tables, hrun, rfl⟩ := RegistryCall.run_eq_ok.mp h
  cases c with
  | registerVersion request uid =>
    refine iff_of_true ?_ id
    obtain ⟨set, hset, -⟩ := run_map_eq_ok.mp hrun
    obtain rfl | ⟨version, entries, hnew, rfl⟩ := registerVersion_cases hset
    · exact hres
    · exact hres.version hkeys hnew
  | recordValidation request uid =>
    obtain ⟨recorded', hrecorded, -⟩ := run_map_eq_ok.mp hrun
    exact resolves_recordValidation_iff hres hrecorded
  | recordActivationEvidence files sha scope uid =>
    refine iff_of_true ?_ id
    obtain ⟨recorded', hrecorded, -⟩ := run_map_eq_ok.mp hrun
    obtain rfl | ⟨row, -, rfl⟩ := recordActivationEvidence_cases hrecorded
    · exact hres
    · exact hres
  | activatePair request uids =>
    obtain ⟨activated, hactivated, -⟩ := run_map_eq_ok.mp hrun
    exact resolves_activatePair_iff hkeys hres hactivated

/-- The answer for an instant stays along a run exactly when no returning call is
backdated. -/
theorem resolves_run_iff (run : RegistryRun) (hkeys : RegistryKeys (run.state 0).thresholds)
    (hres : Resolves (run.state 0).thresholds at_ recorded) :
    (∀ n, Resolves (run.state n).thresholds at_ recorded) ↔
      ∀ n c result, ReturnsAt run n c result →
        ¬Backdated (run.state n).thresholds at_ recorded c := by
  refine run.forall_iff (P := fun db => Resolves db.thresholds at_ recorded) hres fun n hn => ?_
  by_cases hreturns : ∃ c result, ReturnsAt run n c result
  · obtain ⟨c, result, hevent, hrun⟩ := hreturns
    rw [resolves_iff (registryKeys_of_run run hkeys n) hn hrun]
    constructor
    · intro h c' result' hreturns'
      cases hevent.symm.trans hreturns'.1
      exact h
    · intro h
      exact h c result ⟨hevent, hrun⟩
  · rw [(registryRun_cases run n).resolve_right hreturns]
    exact iff_of_true hn fun c result h => absurd ⟨c, result, h⟩ hreturns

/-! ## Committed snapshots -/

/-- A returning commit verified its request, and leaves the evidence and the thresholds. -/
theorem verifyRequest_of_commit {files : ArtifactFiles} {uids : CommitUids}
    {request : AnalysisCommitRequest} {result : AnalysisCommitResult} {db db' : Database}
    (h : (commit files uids request).run db = .ok result db') :
    ∃ verified, verifyRequest db files request = .ok verified ∧
      db'.evidence = db.evidence ∧ db'.thresholds = db.thresholds := by
  cases hverify : verifyRequest db files request with
  | error e =>
    rw [commit_of_verify_error hverify] at h
    cases h
  | ok verified =>
    refine ⟨verified, rfl, ?_⟩
    cases hexisting : existingCommit db.analysis request.snapshotUid with
    | some existing =>
      obtain ⟨commitHash, existing⟩ := existing
      rw [commit_of_existing uids hverify hexisting] at h
      split at h
      · cases h
        exact ⟨rfl, rfl⟩
      · cases h
    | none =>
      rw [commit_of_new hverify hexisting] at h
      obtain ⟨t', -, rfl⟩ := submit_eq_ok.mp h
      exact ⟨rfl, rfl⟩

/-- The execution of a family, bound to the evidence of a commit. -/
structure RecordedExecution (db : Database) (snapshotUid : Uid) (provenance : MetricProvenance)
    (family : ThresholdFamily) (versionUid : Uid) : Prop where
  recorded : ∃ r ∈ db.evidence.ruleExecution, r.snapshotUid = snapshotUid ∧
    r.ruleKey = "CR004_" ++ family.text ++ "_METRICS" ∧
    r.ruleVersion = provenance.producerVersion ∧ r.outputHash = provenance.evidenceSha256 ∧
    r.thresholdVersionUid = some versionUid

/-- The facts of an execution are those of its record. -/
theorem recordedExecution_of_facts {db : Database} {snapshotUid : Uid}
    {provenance : MetricProvenance} {family : ThresholdFamily} {thresholds : ThresholdSet}
    {allowed : List String} {facts : List MetricFact}
    (h : metricExecutionFacts db snapshotUid ("CR004_" ++ family.text ++ "_METRICS") provenance
      thresholds allowed = .ok facts) :
    RecordedExecution db snapshotUid provenance family thresholds.uid := by
  unfold metricExecutionFacts at h
  dsimp only at h
  split at h
  · rename_i execution hexecution
    have hmem : execution ∈ db.evidence.ruleExecution.filter fun r =>
        r.snapshotUid = snapshotUid ∧ r.ruleKey = "CR004_" ++ family.text ++ "_METRICS" ∧
          r.ruleVersion = provenance.producerVersion ∧
          r.thresholdVersionUid = some thresholds.uid ∧ r.validationStatus = .valid ∧
          r.outputHash = provenance.evidenceSha256 := by
      rw [hexecution]
      exact List.mem_singleton_self execution
    obtain ⟨hr, hmatch⟩ := List.mem_filter.mp hmem
    simp only [decide_eq_true_eq] at hmatch
    obtain ⟨hsnapshot, hkey, hversion, huid, -, hhash⟩ := hmatch
    exact ⟨⟨execution, hr, hsnapshot, hkey, hversion, hhash, huid⟩⟩
  · cases h

/-- What the verification of a request reads of the thresholds. -/
theorem recorded_of_verifyRequest {db : Database} {files : ArtifactFiles}
    {request : AnalysisCommitRequest} {verified : VerifiedRequest}
    (h : verifyRequest db files request = .ok verified) :
    ∃ snapshot recorded, db.snapshot request.snapshotUid = some snapshot ∧
      snapshot.evaluationDisposition = .official ∧
      (∀ family, RecordedExecution db request.snapshotUid verified.provenance family
        (recorded family)) ∧
      Resolves db.thresholds snapshot.asOfTime recorded := by
  obtain ⟨-, evidence, -, hthresholds, hexecution, -, -⟩ := verifyRequest_eq_ok.mp h
  let recorded (family : ThresholdFamily) : Uid :=
    ThresholdFamily.casesOn family verified.guardianThresholds.uid verified.scoutThresholds.uid
  unfold officialThresholds at hthresholds
  split at hthresholds
  · cases hthresholds
  · rename_i snapshot hsnapshot
    split at hthresholds
    · cases hthresholds
    · split at hthresholds
      · cases hthresholds
      · rename_i hofficial
        split at hthresholds
        · rename_i guardian scout hguardian hscout
          cases hthresholds
          refine ⟨snapshot, recorded, hsnapshot, not_not.mp hofficial, fun family => ?_,
            fun family => ?_⟩
          · simp only [verifiedMetricExecution, except_bind_eq_ok] at hexecution
            obtain ⟨_, -, guardianFacts, hguardianFacts, scoutFacts, hscoutFacts, -⟩ := hexecution
            cases family with
            | guardian => exact recordedExecution_of_facts hguardianFacts
            | scout => exact recordedExecution_of_facts hscoutFacts
          · cases family with
            | guardian => exact ⟨_, hguardian, rfl⟩
            | scout => exact ⟨_, hscout, rfl⟩
        · cases hthresholds

/-- The audit of a committed snapshot succeeds in every later state exactly when no later
call that returns is backdated. -/
theorem audit_of_commit_iff {files : ArtifactFiles} {uids : CommitUids}
    {request : AnalysisCommitRequest} {result : AnalysisCommitResult} {db₀ db : Database}
    (hkeys : RegistryKeys db₀.thresholds)
    (hcommit : (commit files uids request).run db₀ = .ok result db) :
    ∃ snapshot provenance recorded, db.snapshot request.snapshotUid = some snapshot ∧
      snapshot.evaluationDisposition = .official ∧
      request.metricProvenance = some provenance ∧
      (∀ family, RecordedExecution db request.snapshotUid provenance family (recorded family)) ∧
      ∀ run : RegistryRun, run.state 0 = db →
        ((∀ n, Resolves (run.state n).thresholds snapshot.asOfTime recorded) ↔
          ∀ n c returned, ReturnsAt run n c returned →
            ¬Backdated (run.state n).thresholds snapshot.asOfTime recorded c) := by
  obtain ⟨verified, hverify, hevidence, hthresholds⟩ := verifyRequest_of_commit hcommit
  obtain ⟨snapshot, recorded, hsnapshot, hofficial, hrecorded, hres⟩ :=
    recorded_of_verifyRequest hverify
  refine ⟨snapshot, verified.provenance, recorded, ?_, hofficial, ?_, fun family => ?_,
    fun run hrun => ?_⟩
  · rw [Database.snapshot, hevidence]
    exact hsnapshot
  · exact (validateRequest_ok (verifyRequest_eq_ok.mp hverify).1).2.2.2
  · obtain ⟨r, hr, hmatch⟩ := (hrecorded family).recorded
    exact ⟨⟨r, hevidence ▸ hr, hmatch⟩⟩
  · subst hrun
    rw [← hthresholds] at hkeys hres
    exact resolves_run_iff run hkeys hres

/-! ## A failed validation after the fact -/

theorem registryKeys_sampleThresholdTables : RegistryKeys sampleThresholdTables where
  unique := by decide
  activation := by decide
  guardian := by decide
  scout := by decide

/-- After the commit of the later snapshot, a review fails the shadow validation of the
Guardian thresholds as of the time of that snapshot. -/
def backdatedValidation : ValidationRequest where
  family := "GUARDIAN"
  version := "v1"
  validationKind := "SHADOW"
  validationStatus := "FAIL"
  reportReference := "review"
  reportSha256 := canonicalHash (.str "review")
  observedAt := 63902742000000000

/-- The validation is recorded. -/
def backdatedRow : ThresholdValidation :=
  ⟨5, "validation-5", "GUARDIAN", .shadow, false, "review", canonicalHash (.str "review"),
    63902742000000000⟩

/-- The registry with the review as of an instant. -/
def reviewedTables (observedAt : Instant) : ThresholdTables :=
  { sampleThresholdTables with
    thresholdValidation := sampleThresholdTables.thresholdValidation ++
      [{ backdatedRow with observedAt := observedAt }] }

def backdatedTables : ThresholdTables :=
  { sampleThresholdTables with
    thresholdValidation := sampleThresholdTables.thresholdValidation ++ [backdatedRow] }

/-- The review is recorded as of any instant. -/
theorem run_review (observedAt : Instant) :
    (recordValidation sampleDatabase.artifacts { backdatedValidation with observedAt := observedAt }
      "validation-5").run sampleThresholdTables =
        .ok "validation-5" (reviewedTables observedAt) := by
  have hnamed : sampleThresholdTables.versionNamed? .guardian "v1" =
      some ⟨"GUARDIAN", .guardian, "v1", .ownerApproved, "owner",
        (sampleThresholds .guardian).definitionHash⟩ := rfl
  have hargs : ¬blank backdatedValidation.reportReference ∧
      backdatedValidation.reportSha256.toList.length = 64 :=
    ⟨by decide, (canonicalHash_isDigest _).1⟩
  have hregistered : ∃ a ∈ sampleDatabase.artifacts.artifactObject,
      a.sha256 = backdatedValidation.reportSha256 :=
    ⟨sampleArtifact (.str "review"), by simp [sampleDatabase], rfl⟩
  have hfree : ∀ v ∈ sampleThresholdTables.thresholdValidation,
      thresholdValidationTable.clash backdatedRow v = false := by
    decide +kernel
  have hnone : sampleThresholdTables.thresholdValidation.find? (fun v =>
      v.thresholdVersionUid = "GUARDIAN" ∧ v.validationKind = .shadow ∧
        v.reportSha256 = backdatedValidation.reportSha256) = none := by
    decide +kernel
  simp only [recordValidation, recordValidationCommand, run_bind_eq_ok, run_fromExcept_eq_ok,
    run_require_eq_ok, run_atomically_eq_ok, run_get_eq_ok]
  refine ⟨.guardian, _, ⟨rfl, rfl⟩, .shadow, _, ⟨rfl, rfl⟩, false, _, ⟨rfl, rfl⟩, (), _,
    ⟨hargs, rfl⟩, _, _, ⟨rfl, rfl⟩, ?_⟩
  rw [show backdatedValidation.version = "v1" from rfl, hnamed]
  simp only [hnone, run_bind_eq_ok, run_require_eq_ok, run_insertInto_eq_ok, run_pure_eq_ok]
  exact ⟨(), _, ⟨hregistered, rfl⟩, (), _, ⟨fun v hv => hfree v hv, rfl⟩, trivial, rfl⟩

/-- After the commit of the later snapshot the review is recorded too. -/
theorem run_review_laterDatabase (observedAt : Instant) :
    (RegistryCall.recordValidation { backdatedValidation with observedAt := observedAt }
      "validation-5").run.run laterDatabase =
        .ok (.recorded "validation-5")
          { laterDatabase with thresholds := reviewedTables observedAt } := by
  have hthresholds : laterDatabase.thresholds = sampleThresholdTables := by
    rw [laterDatabase_eq]
    rfl
  have hartifacts : laterDatabase.artifacts = sampleDatabase.artifacts := by
    rw [laterDatabase_eq]
  refine RegistryCall.run_eq_ok.mpr ⟨reviewedTables observedAt, ?_, rfl⟩
  rw [hthresholds, hartifacts]
  exact run_map_eq_ok.mpr ⟨_, run_review observedAt, rfl⟩

/-- The failed validation is the latest shadow validation of the Guardian thresholds. -/
theorem latestValidationsPass_backdatedTables :
    latestValidationsPass backdatedTables "GUARDIAN" laterSnapshot.asOfTime = false := by
  obtain ⟨a, v, hactive, -, hvalid, hset⟩ :=
    resolveOfficial_eq_ok.mp (resolveOfficial_sample .guardian laterSnapshot.asOfTime)
  have hv : v.thresholdVersionUid = "GUARDIAN" := (setFromRow_eq_ok hset).1.symm
  rw [← Bool.not_eq_true, backdatedTables,
    latestValidationsPass_concat_iff (hv ▸ hvalid) (by decide), not_not]
  exact ⟨rfl, le_rfl, rfl, by decide⟩

/-- After the review the Guardian thresholds are not in force. -/
theorem resolveOfficial_backdatedTables :
    resolveOfficial backdatedTables .guardian laterSnapshot.asOfTime =
      .error (thresholdUnavailable "active threshold version lacks passed validation") := by
  obtain ⟨a, v, hactive, happroved, -, hset⟩ :=
    resolveOfficial_eq_ok.mp (resolveOfficial_sample .guardian laterSnapshot.asOfTime)
  have hv : v.thresholdVersionUid = "GUARDIAN" := (setFromRow_eq_ok hset).1.symm
  have hactive' : backdatedTables.active .guardian laterSnapshot.asOfTime = some (a, v) := hactive
  rw [resolveOfficial, hactive']
  dsimp only
  rw [if_neg happroved, if_pos]
  rw [hv, latestValidationsPass_backdatedTables]
  decide

/-- A committed snapshot whose thresholds no longer resolve at its own time. -/
theorem backdated_validation_breaks_audit : ∃ result db',
    (commit (sampleFiles laterSnapshot) (sampleUidsOf laterSnapshot)
      (sampleRequest laterSnapshot 0)).run sampleDatabase = .ok result laterDatabase ∧
    (RegistryCall.recordValidation backdatedValidation "validation-5").run.run laterDatabase =
      .ok (.recorded "validation-5") db' ∧
    resolveOfficial laterDatabase.thresholds .guardian laterSnapshot.asOfTime =
      .ok (sampleThresholds .guardian) ∧
    resolveOfficial db'.thresholds .guardian laterSnapshot.asOfTime =
      .error (thresholdUnavailable "active threshold version lacks passed validation") := by
  obtain ⟨result, hcommit⟩ := commit_laterDatabase
  refine ⟨result, _, hcommit, run_review_laterDatabase backdatedValidation.observedAt, ?_,
    resolveOfficial_backdatedTables⟩
  have hthresholds : laterDatabase.thresholds = sampleThresholdTables := by
    rw [laterDatabase_eq]
    rfl
  rw [hthresholds]
  exact resolveOfficial_sample .guardian _

/-- The same review, as of a second after the snapshot. -/
def followingValidation : ValidationRequest :=
  { backdatedValidation with observedAt := 63902742001000000 }

/-- The following review fails the Guardian thresholds, and the audit of the later snapshot
keeps succeeding. -/
theorem audit_of_laterDatabase : ∃ recorded,
    laterDatabase.snapshot (sampleRequest laterSnapshot 0).snapshotUid = some laterSnapshot ∧
    ReturnsAt (registryRun laterDatabase [.recordValidation followingValidation "validation-5"]) 0
      (.recordValidation followingValidation "validation-5") (.recorded "validation-5") ∧
    ∀ n, Resolves ((registryRun laterDatabase
      [.recordValidation followingValidation "validation-5"]).state n).thresholds
        laterSnapshot.asOfTime recorded := by
  obtain ⟨result, hcommit⟩ := commit_laterDatabase
  obtain ⟨snapshot, provenance, recorded, hsnapshot, -, -, -, hrun⟩ :=
    audit_of_commit_iff registryKeys_sampleThresholdTables hcommit
  have hlater : laterDatabase.snapshot (sampleRequest laterSnapshot 0).snapshotUid =
      some laterSnapshot := by
    rw [laterDatabase_eq]
    rfl
  obtain rfl : snapshot = laterSnapshot := Option.some.inj (hsnapshot.symm.trans hlater)
  have hreview : (RegistryCall.recordValidation followingValidation "validation-5").run.run
      laterDatabase = .ok (.recorded "validation-5") { laterDatabase with
        thresholds := reviewedTables followingValidation.observedAt } :=
    run_review_laterDatabase followingValidation.observedAt
  refine ⟨recorded, hlater, ⟨rfl, ?_⟩,
    (hrun _ (registryRun_start _ _)).mpr fun n c returned hreturns => ?_⟩
  · have hstate := @registryRun_state [.recordValidation followingValidation "validation-5"] 1
      le_rfl laterDatabase
    rw [List.foldl_cons, List.foldl_nil, hreview] at hstate
    rw [registryRun_start, hstate]
    exact hreview
  · cases n with
    | zero =>
      obtain ⟨hevent, -⟩ := hreturns
      cases hevent
      rintro ⟨_, _, _, -, -, -, -, -, hat, -⟩
      exact absurd hat (by decide)
    | succ n =>
      exact absurd hreturns (not_returnsAt_registryRun (Nat.le_add_left 1 n) laterDatabase c
        returned)

end MarketMonitor
