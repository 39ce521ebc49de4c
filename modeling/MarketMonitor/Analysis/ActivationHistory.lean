import MarketMonitor.Library.Keyed
import MarketMonitor.Analysis.RegistrySpec

/-!
# The history of activations

A run of the registry keeps its keys and only appends to its tables. Every activation has
a twin of the other family, made by the same call of `activate_pair` and effective at the
same time, and later calls are effective later : so the two versions that resolve at an
instant are those of one call.
-/

namespace MarketMonitor

open Json (Value)
open Transaction Keyed

variable {t t' t'' : ThresholdTables}

/-! ## Keys -/

/-- The primary key of the versions and the foreign keys to it. -/
structure RegistryKeys (t : ThresholdTables) : Prop where
  unique : (t.thresholdVersion.map ThresholdVersion.thresholdVersionUid).Nodup
  activation : ∀ a ∈ t.thresholdActivation, (t.version? a.thresholdVersionUid).isSome
  guardian : ∀ e ∈ t.thresholdActivationEvidence,
    (t.version? e.guardianThresholdVersionUid).isSome
  scout : ∀ e ∈ t.thresholdActivationEvidence, (t.version? e.scoutThresholdVersionUid).isSome

theorem RegistryKeys.version? (h : RegistryKeys t) {v : ThresholdVersion}
    (hv : v ∈ t.thresholdVersion) : t.version? v.thresholdVersionUid = some v :=
  lookupBy_of_mem h.unique hv

/-- What a later state still has. -/
structure Extends (t t' : ThresholdTables) : Prop where
  thresholdVersion : t.thresholdVersion <+: t'.thresholdVersion
  thresholdValidation : t.thresholdValidation <+: t'.thresholdValidation
  thresholdActivation : t.thresholdActivation <+: t'.thresholdActivation
  thresholdActivationEvidence :
    t.thresholdActivationEvidence <+: t'.thresholdActivationEvidence

theorem Extends.refl (t : ThresholdTables) : Extends t t :=
  ⟨List.prefix_rfl, List.prefix_rfl, List.prefix_rfl, List.prefix_rfl⟩

theorem Extends.trans (h : Extends t t') (h' : Extends t' t'') : Extends t t'' :=
  ⟨h.1.trans h'.1, h.2.trans h'.2, h.3.trans h'.3, h.4.trans h'.4⟩

/-- A version keeps its row. -/
theorem Extends.version? (h : Extends t t') {uid : Uid} {v : ThresholdVersion}
    (hv : t.version? uid = some v) : t'.version? uid = some v := by
  obtain ⟨rows, hrows⟩ := h.thresholdVersion
  rw [ThresholdTables.version?] at hv ⊢
  rw [← hrows, List.find?_append, hv, Option.some_or]

theorem Extends.version?_of_isSome (h : Extends t t') {uid : Uid}
    (hv : (t.version? uid).isSome) : t'.version? uid = t.version? uid := by
  obtain ⟨v, hv⟩ := Option.isSome_iff_exists.mp hv
  rw [hv, h.version? hv]

/-! ## Events -/

/-- The rows a returning call adds. -/
inductive Growth (t : ThresholdTables) : RegistryCall → RegistryResult → ThresholdTables → Prop
  | unchanged (c : RegistryCall) (result : RegistryResult) : Growth t c result t
  | version (c : RegistryCall) (result : RegistryResult) (version : ThresholdVersion)
      (entries : List ThresholdEntry) (h : NewVersion t version entries) :
      Growth t c result { t with
        thresholdVersion := t.thresholdVersion ++ [version]
        thresholdEntry := t.thresholdEntry ++ entries }
  | validation (request : ValidationRequest) (uid : Uid) (result : RegistryResult)
      (row : ThresholdValidation) (h : NewValidation t request row) :
      Growth t (.recordValidation request uid) result
        { t with thresholdValidation := t.thresholdValidation ++ [row] }
  | evidence (c : RegistryCall) (result : RegistryResult) (row : ThresholdActivationEvidence)
      (h : NewEvidence t row) :
      Growth t c result
        { t with thresholdActivationEvidence := t.thresholdActivationEvidence ++ [row] }
  | activation (request : ActivationRequest) (uids : Uid × Uid)
      (evidence : ThresholdActivationEvidence) (guardian scout : ThresholdActivation)
      (h : NewActivation t request evidence uids guardian scout) :
      Growth t (.activatePair request uids) (.activated uids)
        { t with thresholdActivation := t.thresholdActivation ++ [guardian, scout] }

/-- A returning call adds the rows of one command. -/
theorem RegistryCall.growth {c : RegistryCall} {result : RegistryResult} {db db' : Database}
    (h : c.run.run db = .ok result db') : Growth db.thresholds c result db'.thresholds := by
  obtain ⟨tables, hrun, rfl⟩ := RegistryCall.run_eq_ok.mp h
  cases c with
  | registerVersion request uid =>
    obtain ⟨set, hset, -⟩ := run_map_eq_ok.mp hrun
    obtain rfl | ⟨version, entries, hnew, rfl⟩ := registerVersion_cases hset
    · exact .unchanged _ _
    · exact .version _ _ version entries hnew
  | recordValidation request uid =>
    obtain ⟨recorded, hrecorded, -⟩ := run_map_eq_ok.mp hrun
    obtain ⟨rfl, -⟩ | ⟨row, hnew, rfl⟩ := recordValidation_cases hrecorded
    · exact .unchanged _ _
    · exact .validation request uid _ row hnew
  | recordActivationEvidence files sha scope uid =>
    obtain ⟨recorded, hrecorded, -⟩ := run_map_eq_ok.mp hrun
    obtain rfl | ⟨row, hnew, rfl⟩ := recordActivationEvidence_cases hrecorded
    · exact .unchanged _ _
    · exact .evidence _ _ row hnew
  | activatePair request uids =>
    obtain ⟨activated, hactivated, rfl⟩ := run_map_eq_ok.mp hrun
    obtain ⟨evidence, -, ⟨-, rfl⟩ | ⟨rfl, guardian, scout, hnew, rfl⟩⟩ :=
      activatePair_cases hactivated
    · exact .unchanged _ _
    · exact .activation request _ evidence guardian scout hnew

/-- The registry only grows. -/
theorem Growth.extends {c : RegistryCall} {result : RegistryResult} (h : Growth t c result t') :
    Extends t t' := by
  cases h with
  | unchanged => exact Extends.refl t
  | version _ _ version entries _ =>
    exact ⟨List.prefix_append _ _, List.prefix_rfl, List.prefix_rfl, List.prefix_rfl⟩
  | validation request uid _ row _ =>
    exact ⟨List.prefix_rfl, List.prefix_append _ _, List.prefix_rfl, List.prefix_rfl⟩
  | evidence _ _ row _ =>
    exact ⟨List.prefix_rfl, List.prefix_rfl, List.prefix_rfl, List.prefix_append _ _⟩
  | activation request uids evidence guardian scout _ =>
    exact ⟨List.prefix_rfl, List.prefix_rfl, List.prefix_append _ _, List.prefix_rfl⟩

/-- The activations of a first call are of versions that are there. -/
theorem NewActivation.version? {request : ActivationRequest}
    {evidence : ThresholdActivationEvidence} {uids : Uid × Uid}
    {guardian scout : ThresholdActivation} (hkeys : RegistryKeys t)
    (h : NewActivation t request evidence uids guardian scout) :
    ∃ guardianVersion scoutVersion,
      t.version? guardian.thresholdVersionUid = some guardianVersion ∧
      t.version? scout.thresholdVersionUid = some scoutVersion ∧
      guardianVersion.version = request.guardianVersion ∧
      scoutVersion.version = request.scoutVersion := by
  obtain ⟨_, _, guardianVersion, scoutVersion, hguardian, hscout, -, -, rfl, rfl⟩ := h.versions
  obtain ⟨hg, -, hgname⟩ := family_of_versionNamed? hguardian.named
  obtain ⟨hs, -, hsname⟩ := family_of_versionNamed? hscout.named
  exact ⟨guardianVersion, scoutVersion, hkeys.version? hg, hkeys.version? hs, hgname, hsname⟩

/-- The keys hold after every call. -/
theorem Growth.keys {c : RegistryCall} {result : RegistryResult} (h : Growth t c result t')
    (hkeys : RegistryKeys t) : RegistryKeys t' := by
  have hext := h.extends
  have hold : ∀ {uid : Uid}, (t.version? uid).isSome → (t'.version? uid).isSome := fun hv => by
    rw [hext.version?_of_isSome hv]
    exact hv
  obtain ⟨hunique, hactivation, hguardian, hscout⟩ := hkeys
  cases h with
  | unchanged => exact ⟨hunique, hactivation, hguardian, hscout⟩
  | version _ _ version entries hnew =>
    refine ⟨?_, fun a ha => hold (hactivation a ha), fun e he => hold (hguardian e he),
      fun e he => hold (hscout e he)⟩
    rw [List.map_append, List.map_singleton, List.nodup_append]
    refine ⟨hunique, List.nodup_singleton _, ?_⟩
    rintro uid huid _ hmem rfl
    obtain ⟨v, hv, hvuid⟩ := List.mem_map.mp huid
    exact hnew.fresh v hv (hvuid.trans (List.mem_singleton.mp hmem))
  | validation => exact ⟨hunique, hactivation, hguardian, hscout⟩
  | evidence _ _ row hnew =>
    obtain ⟨v, hv, -⟩ := hnew.guardian
    obtain ⟨w, hw, -⟩ := hnew.scout
    refine ⟨hunique, hactivation, fun e he => ?_, fun e he => ?_⟩
    · rcases List.mem_append.mp he with he | he
      · exact hguardian e he
      · rw [List.mem_singleton.mp he]
        exact Option.isSome_of_eq_some hv
    · rcases List.mem_append.mp he with he | he
      · exact hscout e he
      · rw [List.mem_singleton.mp he]
        exact Option.isSome_of_eq_some hw
  | activation request uids evidence guardian scout hnew =>
    obtain ⟨v, w, hv, hw, -, -⟩ :=
      hnew.version? ⟨hunique, hactivation, hguardian, hscout⟩
    refine ⟨hunique, fun a ha => ?_, hguardian, hscout⟩
    rcases List.mem_append.mp ha with ha | ha
    · exact hactivation a ha
    · simp only [List.mem_cons, List.not_mem_nil, or_false] at ha
      rcases ha with rfl | rfl
      · exact Option.isSome_of_eq_some hv
      · exact Option.isSome_of_eq_some hw

/-- An event leaves the registry or is a returning call. -/
theorem registryRun_cases (run : RegistryRun) (n : ℕ) :
    (run.state (n + 1)).thresholds = (run.state n).thresholds ∨
      ∃ c result, ReturnsAt run n c result := by
  have hstep := run.steps n
  cases hevent : run.event n with
  | other =>
    rw [hevent] at hstep
    exact Or.inl hstep
  | call c =>
    rw [hevent] at hstep
    cases hrun : c.run.run (run.state n) with
    | ok result db' =>
      refine Or.inr ⟨c, result, hevent, ?_⟩
      rw [hrun, show run.state (n + 1) = db' from hstep.trans (by rw [hrun]; rfl)]
    | error e db' =>
      have hsame := RegistryCall.run_eq_error hrun
      rw [show run.state (n + 1) = db' from hstep.trans (by rw [hrun]; rfl), hsame]
      exact Or.inl rfl

/-! ## Resolution -/

/-- An activation is in force from its time on, for its family and while its version exists. -/
theorem effective_eq_some {family : ThresholdFamily} {at_ : Instant} {a b : ThresholdActivation}
    {v : ThresholdVersion} : t.effective family at_ a = some (b, v) ↔
      a.family = family ∧ a.effectiveAt ≤ at_ ∧ t.version? a.thresholdVersionUid = some v ∧
        a = b := by
  unfold ThresholdTables.effective
  split
  · rename_i hcond
    simp only [Option.map_eq_some_iff, Prod.mk.injEq, hcond, true_and]
    constructor
    · rintro ⟨w, hw, rfl, rfl⟩
      exact ⟨hw, rfl⟩
    · rintro ⟨hv, rfl⟩
      exact ⟨v, hv, rfl, rfl⟩
  · rename_i hcond
    constructor
    · intro h
      cases h
    · rintro ⟨hfamily, hat, -, -⟩
      exact absurd ⟨hfamily, hat⟩ hcond

/-- The row in force is the latest of its family with a version. -/
theorem active_eq_some {family : ThresholdFamily} {at_ : Instant} {a : ThresholdActivation}
    {v : ThresholdVersion} (h : t.active family at_ = some (a, v)) :
    (a ∈ t.thresholdActivation ∧ a.family = family ∧ a.effectiveAt ≤ at_ ∧
      t.version? a.thresholdVersionUid = some v) ∧
    ∀ b ∈ t.thresholdActivation, b.family = family → b.effectiveAt ≤ at_ →
      (t.version? b.thresholdVersionUid).isSome → b.effectiveAt ≤ a.effectiveAt := by
  have hmem : ∀ b w, (b, w) ∈ t.activations family at_ ↔ b ∈ t.thresholdActivation ∧
      b.family = family ∧ b.effectiveAt ≤ at_ ∧ t.version? b.thresholdVersionUid = some w := by
    intro b w
    simp only [ThresholdTables.activations, List.mem_filterMap, effective_eq_some]
    constructor
    · rintro ⟨b', hb', hfamily, hat, hw, rfl⟩
      exact ⟨hb', hfamily, hat, hw⟩
    · rintro ⟨hb, hfamily, hat, hw⟩
      exact ⟨b, hb, hfamily, hat, hw, rfl⟩
  refine ⟨(hmem a v).mp (mem_of_latest h), fun b hb hfamily hat hsome => ?_⟩
  obtain ⟨w, hw⟩ := Option.isSome_iff_exists.mp hsome
  have hle := List.le_of_mem_argmax ((hmem b w).mpr ⟨hb, hfamily, hat, hw⟩) h
  rcases Prod.Lex.toLex_le_toLex.mp hle with hlt | heq
  · exact le_of_lt hlt
  · exact le_of_eq heq.1

/-- What a row in force resolves to. -/
theorem resolveOfficial_eq_ok {family : ThresholdFamily} {at_ : Instant} {set : ThresholdSet} :
    resolveOfficial t family at_ = .ok set ↔ ∃ a v, t.active family at_ = some (a, v) ∧
      v.approvalStatus ≠ .legacyUncalibrated ∧
      latestValidationsPass t v.thresholdVersionUid at_ = true ∧
      setFromRow t v family v.version (some a.effectiveAt) = .ok set := by
  unfold resolveOfficial
  cases t.active family at_ with
  | none => simp
  | some p =>
    obtain ⟨a, v⟩ := p
    constructor
    · intro h
      dsimp only at h
      split at h
      · cases h
      · split at h
        · cases h
        · rename_i happroved hvalid
          exact ⟨a, v, rfl, happroved, by simpa using hvalid, h⟩
    · rintro ⟨_, _, h, happroved, hvalid, hset⟩
      cases h
      simp [happroved, hvalid, hset]

/-- A resolved set is that of its row. -/
theorem setFromRow_eq_ok {row : ThresholdVersion} {family : ThresholdFamily} {version : String}
    {effectiveTime : Option Instant} {set : ThresholdSet}
    (h : setFromRow t row family version effectiveTime = .ok set) :
    set.uid = row.thresholdVersionUid ∧ set.version = version ∧
      set.effectiveTime = effectiveTime := by
  unfold setFromRow at h
  split at h
  · cases h
  · dsimp only at h
    split at h
    · cases h
    · cases h
      exact ⟨rfl, rfl, rfl⟩

/-! ## Twins -/

/-- The two activations one call made. -/
structure Twins (t : ThresholdTables) (request : ActivationRequest) (uids : Uid × Uid)
    (guardian scout : ThresholdActivation) : Prop where
  mem : guardian ∈ t.thresholdActivation ∧ scout ∈ t.thresholdActivation
  family : guardian.family = .guardian ∧ scout.family = .scout
  effectiveAt : guardian.effectiveAt = request.effectiveAt ∧
    scout.effectiveAt = request.effectiveAt
  activationUid : guardian.activationUid = uids.1 ∧ scout.activationUid = uids.2
  guardianVersion : ∃ v, t.version? guardian.thresholdVersionUid = some v ∧
    v.version = request.guardianVersion
  scoutVersion : ∃ v, t.version? scout.thresholdVersionUid = some v ∧
    v.version = request.scoutVersion

/-- Twins stay twins while the registry grows. -/
theorem Twins.extends {request : ActivationRequest} {uids : Uid × Uid}
    {guardian scout : ThresholdActivation} (h : Twins t request uids guardian scout)
    (hext : Extends t t') : Twins t' request uids guardian scout := by
  obtain ⟨v, hv, hvname⟩ := h.guardianVersion
  obtain ⟨w, hw, hwname⟩ := h.scoutVersion
  exact
    { mem := ⟨hext.thresholdActivation.subset h.mem.1, hext.thresholdActivation.subset h.mem.2⟩
      family := h.family
      effectiveAt := h.effectiveAt
      activationUid := h.activationUid
      guardianVersion := ⟨v, hext.version? hv, hvname⟩
      scoutVersion := ⟨w, hext.version? hw, hwname⟩ }

/-- Every activation has its twin, and those of a family advance in time. -/
structure ActivationLedger (made : ActivationRequest → Uid × Uid → Prop) (t : ThresholdTables) :
    Prop where
  keys : RegistryKeys t
  twins : ∀ a ∈ t.thresholdActivation, ∃ request uids guardian scout,
    made request uids ∧ Twins t request uids guardian scout ∧ (a = guardian ∨ a = scout)
  advances : t.thresholdActivation.Pairwise fun a b =>
    a.activationOrder < b.activationOrder ∧ (a.family = b.family → a.effectiveAt < b.effectiveAt)

section Ledger

variable {made made' : ActivationRequest → Uid × Uid → Prop}

/-- The activations of a first call are twins. -/
theorem NewActivation.twins {request : ActivationRequest} {evidence : ThresholdActivationEvidence}
    {uids : Uid × Uid} {guardian scout : ThresholdActivation} (hkeys : RegistryKeys t)
    (h : NewActivation t request evidence uids guardian scout) :
    Twins { t with thresholdActivation := t.thresholdActivation ++ [guardian, scout] }
      request uids guardian scout := by
  obtain ⟨v, w, hv, hw, hvname, hwname⟩ := h.version? hkeys
  obtain ⟨_, _, guardianVersion, scoutVersion, hguardian, hscout, -, -, rfl, rfl⟩ := h.versions
  exact
    { mem := ⟨List.mem_append_right _ List.mem_cons_self,
        List.mem_append_right _ (List.mem_cons_of_mem _ List.mem_cons_self)⟩
      family := ⟨(family_of_versionNamed? hguardian.named).2.1,
        (family_of_versionNamed? hscout.named).2.1⟩
      effectiveAt := ⟨rfl, rfl⟩
      activationUid := ⟨rfl, rfl⟩
      guardianVersion := ⟨v, hv, hvname⟩
      scoutVersion := ⟨w, hw, hwname⟩ }

/-- Both new activations come after the others. -/
theorem NewActivation.pairwise {request : ActivationRequest}
    {evidence : ThresholdActivationEvidence} {uids : Uid × Uid}
    {guardian scout : ThresholdActivation}
    (h : NewActivation t request evidence uids guardian scout)
    (hadvances : t.thresholdActivation.Pairwise fun a b => a.activationOrder < b.activationOrder ∧
      (a.family = b.family → a.effectiveAt < b.effectiveAt)) :
    (t.thresholdActivation ++ [guardian, scout]).Pairwise fun a b =>
      a.activationOrder < b.activationOrder ∧
        (a.family = b.family → a.effectiveAt < b.effectiveAt) := by
  obtain ⟨order, order', v, w, hguardian, hscout, horder, hlt, rfl, rfl⟩ := h.versions
  have hfamilies : v.family ≠ w.family := by
    rw [(family_of_versionNamed? hguardian.named).2.1, (family_of_versionNamed? hscout.named).2.1]
    decide
  refine List.pairwise_append.mpr ⟨hadvances, ?_, fun a ha b hb => ?_⟩
  · exact List.pairwise_pair.mpr ⟨hlt, fun hfamily => absurd hfamily hfamilies⟩
  · simp only [List.mem_cons, List.not_mem_nil, or_false] at hb
    rcases hb with rfl | rfl
    · exact ⟨horder a ha, fun _ => h.advances a ha⟩
    · exact ⟨(horder a ha).trans hlt, fun _ => h.advances a ha⟩

/-- A returning call keeps the ledger. -/
theorem ActivationLedger.growth (h : ActivationLedger made t) {c : RegistryCall}
    {result : RegistryResult} (hgrowth : Growth t c result t')
    (hmade : ∀ request uids, made request uids → made' request uids)
    (hnew : ∀ request uids, c = .activatePair request uids → result = .activated uids →
      made' request uids) :
    ActivationLedger made' t' := by
  have hext := hgrowth.extends
  have hkeys := hgrowth.keys h.keys
  have hold : ∀ a ∈ t.thresholdActivation, ∃ request uids guardian scout,
      made' request uids ∧ Twins t' request uids guardian scout ∧ (a = guardian ∨ a = scout) := by
    intro a ha
    obtain ⟨request, uids, guardian, scout, hrequest, htwins, hor⟩ := h.twins a ha
    exact ⟨request, uids, guardian, scout, hmade _ _ hrequest, htwins.extends hext, hor⟩
  cases hgrowth with
  | unchanged => exact ⟨hkeys, hold, h.advances⟩
  | version => exact ⟨hkeys, hold, h.advances⟩
  | validation => exact ⟨hkeys, hold, h.advances⟩
  | evidence => exact ⟨hkeys, hold, h.advances⟩
  | activation request uids evidence guardian scout hactivation =>
    refine ⟨hkeys, fun a ha => ?_, hactivation.pairwise h.advances⟩
    rcases List.mem_append.mp ha with ha | ha
    · exact hold a ha
    · refine ⟨request, uids, guardian, scout, hnew request uids rfl rfl,
        hactivation.twins h.keys, ?_⟩
      simpa only [List.mem_cons, List.not_mem_nil, or_false] using ha

/-- Rows of one family and one time are the same. -/
theorem ActivationLedger.eq_of_effectiveAt (h : ActivationLedger made t)
    {a b : ThresholdActivation} (ha : a ∈ t.thresholdActivation) (hb : b ∈ t.thresholdActivation)
    (hfamily : a.family = b.family) (hat : a.effectiveAt = b.effectiveAt) : a = b := by
  by_contra hne
  have hdistinct : t.thresholdActivation.Pairwise fun a b =>
      a.family = b.family → a.effectiveAt ≠ b.effectiveAt :=
    h.advances.imp fun hab hfamily => ne_of_lt (hab.2 hfamily)
  have hsymm : Std.Symm fun a b : ThresholdActivation =>
      a.family = b.family → a.effectiveAt ≠ b.effectiveAt :=
    ⟨fun a b hab hfamily => (hab hfamily.symm).symm⟩
  exact hdistinct.forall ha hb hne hfamily hat

/-- In a family the order of the activations is that of their times. -/
theorem ActivationLedger.effectiveAt_lt (h : ActivationLedger made t)
    {a b : ThresholdActivation} (ha : a ∈ t.thresholdActivation) (hb : b ∈ t.thresholdActivation)
    (hfamily : a.family = b.family) (horder : a.activationOrder < b.activationOrder) :
    a.effectiveAt < b.effectiveAt := by
  have hboth : t.thresholdActivation.Pairwise fun a b =>
      (a.family = b.family → a.activationOrder < b.activationOrder →
        a.effectiveAt < b.effectiveAt) ∧
      (b.family = a.family → b.activationOrder < a.activationOrder →
        b.effectiveAt < a.effectiveAt) :=
    h.advances.imp fun hab => ⟨fun hfamily _ => hab.2 hfamily,
      fun _ hlt => absurd hlt (lt_asymm hab.1)⟩
  have hsymm : Std.Symm fun a b : ThresholdActivation =>
      (a.family = b.family → a.activationOrder < b.activationOrder →
        a.effectiveAt < b.effectiveAt) ∧
      (b.family = a.family → b.activationOrder < a.activationOrder →
        b.effectiveAt < a.effectiveAt) :=
    ⟨fun a b hab => ⟨hab.2, hab.1⟩⟩
  have hne : a ≠ b := fun heq => absurd horder (heq ▸ lt_irrefl _)
  exact (hboth.forall ha hb hne).1 hfamily horder

/-- The rows in force at an instant are twins. -/
theorem ActivationLedger.twins_of_active (h : ActivationLedger made t) {at_ : Instant}
    {a b : ThresholdActivation} {v w : ThresholdVersion}
    (hguardian : t.active .guardian at_ = some (a, v))
    (hscout : t.active .scout at_ = some (b, w)) :
    ∃ request uids, made request uids ∧ Twins t request uids a b := by
  obtain ⟨⟨ha, hafamily, haat, -⟩, hamax⟩ := active_eq_some hguardian
  obtain ⟨⟨hb, hbfamily, hbat, -⟩, hbmax⟩ := active_eq_some hscout
  obtain ⟨request, uids, guardian, scout, hmade, htwins, hor⟩ := h.twins a ha
  obtain ⟨request', uids', guardian', scout', hmade', htwins', hor'⟩ := h.twins b hb
  -- The row of the Guardian is the first of its twins, that of the Scout the second.
  have hag : a = guardian := hor.resolve_right fun heq => by
    rw [heq, htwins.family.2] at hafamily
    cases hafamily
  have hbs : b = scout' := hor'.resolve_left fun heq => by
    rw [heq, htwins'.family.1] at hbfamily
    cases hbfamily
  subst hag hbs
  have hle : a.effectiveAt ≤ b.effectiveAt := by
    obtain ⟨x, hx, -⟩ := htwins.scoutVersion
    rw [htwins.effectiveAt.1, ← htwins.effectiveAt.2]
    refine hbmax scout htwins.mem.2 htwins.family.2 ?_ (Option.isSome_of_eq_some hx)
    rw [htwins.effectiveAt.2, ← htwins.effectiveAt.1]
    exact haat
  have hge : b.effectiveAt ≤ a.effectiveAt := by
    obtain ⟨x, hx, -⟩ := htwins'.guardianVersion
    rw [htwins'.effectiveAt.2, ← htwins'.effectiveAt.1]
    refine hamax guardian' htwins'.mem.1 htwins'.family.1 ?_ (Option.isSome_of_eq_some hx)
    rw [htwins'.effectiveAt.1, ← htwins'.effectiveAt.2]
    exact hbat
  have hsame : scout = b := h.eq_of_effectiveAt htwins.mem.2 hb
    (htwins.family.2.trans hbfamily.symm)
    ((htwins.effectiveAt.2.trans htwins.effectiveAt.1.symm).trans (le_antisymm hle hge))
  exact ⟨request, uids, hmade, hsame ▸ htwins⟩

end Ledger

/-! ## Repeated calls -/

/-- A search finds in longer rows what it found. -/
theorem findSome?_of_prefix {α β : Type} {f g : α → Option β} {l l' : List α} {b : β}
    (hlead : l <+: l') (hfg : ∀ a ∈ l, g a = f a) (h : l.findSome? f = some b) :
    l'.findSome? g = some b := by
  obtain ⟨rest, rfl⟩ := hlead
  rw [List.findSome?_append, ← List.head?_filterMap, List.filterMap_congr hfg,
    List.head?_filterMap, h, Option.some_or]

theorem Extends.activationByKey (hext : Extends t t') (hkeys : RegistryKeys t)
    {family : ThresholdFamily} {key : String} {p : ThresholdActivation × ThresholdVersion}
    (h : activationByKey t family key = some p) : activationByKey t' family key = some p := by
  refine findSome?_of_prefix hext.thresholdActivation (fun a ha => ?_) h
  rw [hext.version?_of_isSome (hkeys.activation a ha)]

theorem Extends.activationEvidenceForPair (hext : Extends t t') (hkeys : RegistryKeys t)
    {request : ActivationRequest} {evidence : ThresholdActivationEvidence}
    (h : activationEvidenceForPair t request = .ok evidence) :
    activationEvidenceForPair t' request = .ok evidence := by
  rw [activationEvidenceForPair_eq_ok] at h ⊢
  obtain ⟨guardian, scout, hrow, hmatch⟩ := h
  refine ⟨guardian, scout, ?_, hmatch⟩
  refine findSome?_of_prefix hext.thresholdActivationEvidence (fun e he => ?_) hrow
  rw [hext.version?_of_isSome (hkeys.guardian e he), hext.version?_of_isSome (hkeys.scout e he)]

theorem RepeatedActivation.extends {request : ActivationRequest}
    {evidence : ThresholdActivationEvidence} {uids : Uid × Uid}
    (h : RepeatedActivation t request evidence uids) (hext : Extends t t')
    (hkeys : RegistryKeys t) : RepeatedActivation t' request evidence uids := by
  obtain ⟨guardian, v, scout, w, hguardian, hscout, hmatch, huids⟩ := h.found
  exact ⟨guardian, v, scout, w, hext.activationByKey hkeys hguardian,
    hext.activationByKey hkeys hscout, hmatch, huids⟩

theorem activationByKey_append (rows : List ThresholdActivation) (family : ThresholdFamily)
    (key : String) :
    activationByKey { t with thresholdActivation := t.thresholdActivation ++ rows } family key =
      (activationByKey t family key).or
        (activationByKey { t with thresholdActivation := rows } family key) :=
  List.findSome?_append

theorem activationByKey_cons_self {a : ThresholdActivation} (rows : List ThresholdActivation)
    {v : ThresholdVersion} (hv : t.version? a.thresholdVersionUid = some v) :
    activationByKey { t with thresholdActivation := a :: rows } a.family a.idempotencyKey =
      some (a, v) := by
  have hv' : ({ t with thresholdActivation := a :: rows } : ThresholdTables).version?
      a.thresholdVersionUid = some v := hv
  rw [activationByKey, List.findSome?_cons, if_pos ⟨rfl, rfl⟩, hv', Option.map_some]

theorem activationByKey_cons_of_ne {a : ThresholdActivation} {rows : List ThresholdActivation}
    {family : ThresholdFamily} (h : a.family ≠ family) (key : String) :
    activationByKey { t with thresholdActivation := a :: rows } family key =
      activationByKey { t with thresholdActivation := rows } family key := by
  rw [activationByKey, List.findSome?_cons, if_neg fun hcond => h hcond.1]
  rfl

/-- After a first call its key is used. -/
theorem NewActivation.repeated {request : ActivationRequest}
    {evidence : ThresholdActivationEvidence} {uids : Uid × Uid}
    {guardian scout : ThresholdActivation} (hkeys : RegistryKeys t)
    (h : NewActivation t request evidence uids guardian scout) :
    RepeatedActivation { t with thresholdActivation := t.thresholdActivation ++ [guardian, scout] }
      request evidence uids := by
  obtain ⟨v, w, hv, hw, hvname, hwname⟩ := h.version? hkeys
  obtain ⟨_, _, guardianVersion, scoutVersion, hguardian, hscout, -, -, hgrow, hsrow⟩ := h.versions
  have hgfamily := (family_of_versionNamed? hguardian.named).2.1
  have hsfamily := (family_of_versionNamed? hscout.named).2.1
  have hother : guardianVersion.family ≠ .scout := by
    rw [hgfamily]
    decide
  refine ⟨⟨guardian, v, scout, w, ?_, ?_, ?_, ?_⟩⟩
  · have hself := activationByKey_cons_self [scout] hv
    rw [hgrow] at hself
    rw [activationByKey_append, h.unused, Option.none_or, hgrow, ← hgfamily]
    exact hself
  · have hself := activationByKey_cons_self [] hw
    rw [hsrow] at hself
    have hne : guardian.family ≠ .scout := hgrow ▸ hother
    rw [activationByKey_append, h.unused, Option.none_or, activationByKey_cons_of_ne hne, hsrow,
      ← hsfamily]
    exact hself
  · subst hgrow hsrow
    exact ⟨⟨hvname, hwname⟩, ⟨rfl, rfl⟩, rfl, rfl⟩
  · subst hgrow hsrow
    rfl

/-- The call a used key answers. -/
theorem RepeatedActivation.run {request : ActivationRequest}
    {evidence : ThresholdActivationEvidence} {result : Uid × Uid}
    (h : RepeatedActivation t request evidence result)
    (hevidence : activationEvidenceForPair t request = .ok evidence)
    (hargs : ¬blank request.acceptanceId ∧ Sha256.IsDigest request.acceptanceEvidenceSha256)
    (uids : Uid × Uid) : (activatePair request uids).run t = .ok result t := by
  obtain ⟨guardian, v, scout, w, hguardian, hscout, hmatch, huids⟩ := h.found
  simp only [activatePair, activatePairCommand, run_bind_eq_ok, run_require_eq_ok,
    run_atomically_eq_ok, run_fromExcept_eq_ok, run_get_eq_ok]
  refine ⟨(), t, ⟨hargs.1, rfl⟩, (), t, ⟨hargs.2, rfl⟩, t, t, ⟨rfl, rfl⟩, evidence, t,
    ⟨hevidence, rfl⟩, ?_⟩
  simp only [hguardian, hscout, run_bind_eq_ok, run_require_eq_ok, run_pure_eq_ok]
  exact ⟨(), t, ⟨hmatch, rfl⟩, huids.symm, rfl⟩

theorem activatePair_args {request : ActivationRequest} {uids result : Uid × Uid}
    (h : (activatePair request uids).run t = .ok result t') :
    ¬blank request.acceptanceId ∧ Sha256.IsDigest request.acceptanceEvidenceSha256 := by
  simp only [activatePair, run_bind_eq_ok, run_require_eq_ok] at h
  obtain ⟨_, _, ⟨hid, -⟩, _, _, ⟨hsha, -⟩, -⟩ := h
  exact ⟨hid, hsha⟩

/-- A call that returned returns the same later, and adds nothing. -/
theorem activatePair_repeated {request : ActivationRequest} {uids result : Uid × Uid}
    (hkeys : RegistryKeys t) (h : (activatePair request uids).run t = .ok result t')
    (hext : Extends t' t'') (uids' : Uid × Uid) :
    (activatePair request uids').run t'' = .ok result t'' := by
  have hargs := activatePair_args h
  obtain ⟨evidence, hevidence, ⟨hrepeated, rfl⟩ | ⟨rfl, guardian, scout, hnew, rfl⟩⟩ :=
    activatePair_cases h
  · exact (hrepeated.extends hext hkeys).run (hext.activationEvidenceForPair hkeys hevidence)
      hargs uids'
  · have hgrowth : Growth t (.activatePair request result) (.activated result) _ :=
      .activation request result evidence guardian scout hnew
    have hkeys' := hgrowth.keys hkeys
    have hevidence' := hgrowth.extends.activationEvidenceForPair hkeys hevidence
    exact ((hnew.repeated hkeys).extends hext hkeys').run
      (hext.activationEvidenceForPair hkeys' hevidence') hargs uids'

/-- What an activation does not reach stays in force. -/
theorem active_of_activatePair {request : ActivationRequest} {uids result : Uid × Uid}
    (h : (activatePair request uids).run t = .ok result t') (family : ThresholdFamily)
    {at_ : Instant} (hat : at_ < request.effectiveAt) :
    t'.active family at_ = t.active family at_ := by
  obtain ⟨evidence, -, ⟨-, rfl⟩ | ⟨-, guardian, scout, hnew, rfl⟩⟩ := activatePair_cases h
  · rfl
  · obtain ⟨_, _, v, w, -, -, -, -, rfl, rfl⟩ := hnew.versions
    have hlate : ¬request.effectiveAt ≤ at_ := not_le.mpr hat
    rw [ThresholdTables.active, ThresholdTables.activations, List.filterMap_append]
    simp only [ThresholdTables.effective, activationRow, List.filterMap_cons, hlate, and_false,
      if_false, List.filterMap_nil, List.append_nil]
    rfl

/-! ## Runs from the migration -/

/-- The calls of `activate_pair` that returned before the `n`-th state. -/
def ActivatedBefore (run : RegistryRun) (n : ℕ) (request : ActivationRequest)
    (uids : Uid × Uid) : Prop :=
  ∃ k < n, ∃ fresh, ReturnsAt run k (.activatePair request fresh) (.activated uids)

theorem registryKeys_seedTables : RegistryKeys seedTables where
  unique := by decide
  activation := by decide
  guardian := by decide
  scout := by decide

theorem ActivationLedger.seedTables (made : ActivationRequest → Uid × Uid → Prop) :
    ActivationLedger made seedTables where
  keys := registryKeys_seedTables
  twins _ ha := absurd ha List.not_mem_nil
  advances := List.Pairwise.nil

/-- The ledger holds in every state. -/
theorem activationLedger_of_run (run : RegistryRun) (hstart : (run.state 0).thresholds = seedTables)
    (n : ℕ) : ActivationLedger (ActivatedBefore run n) (run.state n).thresholds := by
  induction n with
  | zero =>
    rw [hstart]
    exact ActivationLedger.seedTables _
  | succ n ih =>
    have hmono : ∀ request uids, ActivatedBefore run n request uids →
        ActivatedBefore run (n + 1) request uids := by
      rintro request uids ⟨k, hk, fresh, hreturns⟩
      exact ⟨k, hk.trans (Nat.lt_succ_self n), fresh, hreturns⟩
    obtain hsame | ⟨c, result, hreturns⟩ := registryRun_cases run n
    · rw [hsame]
      refine ⟨ih.keys, fun a ha => ?_, ih.advances⟩
      obtain ⟨request, uids, guardian, scout, hmade, htwins⟩ := ih.twins a ha
      exact ⟨request, uids, guardian, scout, hmono _ _ hmade, htwins⟩
    · refine ih.growth (RegistryCall.growth hreturns.2) hmono fun request uids hcall hresult => ?_
      subst hcall hresult
      exact ⟨n, Nat.lt_succ_self n, uids, hreturns⟩

/-- Later states extend earlier ones. -/
theorem extends_of_run (run : RegistryRun) {m n : ℕ} (h : m ≤ n) :
    Extends (run.state m).thresholds (run.state n).thresholds := by
  induction n, h using Nat.le_induction with
  | base => exact Extends.refl _
  | succ n _ ih =>
    refine ih.trans ?_
    obtain hsame | ⟨c, result, hreturns⟩ := registryRun_cases run n
    · rw [hsame]
      exact Extends.refl _
    · exact (RegistryCall.growth hreturns.2).extends

/-- The keys hold in every state. -/
theorem registryKeys_of_run (run : RegistryRun) (hstart : RegistryKeys (run.state 0).thresholds)
    (n : ℕ) : RegistryKeys (run.state n).thresholds := by
  induction n with
  | zero => exact hstart
  | succ n ih =>
    obtain hsame | ⟨c, result, hreturns⟩ := registryRun_cases run n
    · rw [hsame]
      exact ih
    · exact (RegistryCall.growth hreturns.2).keys ih

/-- The command of a returning call of `activate_pair`. -/
theorem activatePair_of_run {request : ActivationRequest} {uids : Uid × Uid}
    {result : RegistryResult} {db db' : Database}
    (h : (RegistryCall.activatePair request uids).run.run db = .ok result db') :
    ∃ activated, (activatePair request uids).run db.thresholds = .ok activated db'.thresholds ∧
      result = .activated activated := by
  obtain ⟨tables, hrun, rfl⟩ := RegistryCall.run_eq_ok.mp h
  obtain ⟨activated, hactivated, rfl⟩ := run_map_eq_ok.mp hrun
  exact ⟨activated, hactivated, rfl⟩

theorem run_of_activatePair {request : ActivationRequest} {uids result : Uid × Uid}
    {db : Database}
    (h : (activatePair request uids).run db.thresholds = .ok result db.thresholds) :
    (RegistryCall.activatePair request uids).run.run db = .ok (.activated result) db :=
  RegistryCall.run_eq_ok.mpr ⟨db.thresholds, run_map_eq_ok.mpr ⟨result, h, rfl⟩, rfl⟩

/-- Every pair of thresholds in force was activated by one call, activations of a family
advance in time, an activation changes nothing before its time, and a repeated or rejected
call changes nothing. -/
theorem activation_history (run : RegistryRun)
    (hstart : (run.state 0).thresholds = seedTables) (n : ℕ) :
    (∀ at_ guardian scout,
      resolveOfficial (run.state n).thresholds .guardian at_ = .ok guardian →
      resolveOfficial (run.state n).thresholds .scout at_ = .ok scout →
      ∃ request uids, ActivatedBefore run n request uids ∧
        (guardian.version = request.guardianVersion ∧ scout.version = request.scoutVersion) ∧
        (guardian.effectiveTime = some request.effectiveAt ∧
          scout.effectiveTime = some request.effectiveAt) ∧
        ((run.state n).thresholds.active .guardian at_).map (·.1.activationUid) = some uids.1 ∧
        ((run.state n).thresholds.active .scout at_).map (·.1.activationUid) = some uids.2) ∧
    (∀ a ∈ (run.state n).thresholds.thresholdActivation,
      ∀ b ∈ (run.state n).thresholds.thresholdActivation, a.family = b.family →
        a.activationOrder < b.activationOrder → a.effectiveAt < b.effectiveAt) ∧
    (∀ request uids result db',
      (RegistryCall.activatePair request uids).run.run (run.state n) = .ok result db' →
      ∀ family at_, at_ < request.effectiveAt →
        db'.thresholds.active family at_ = (run.state n).thresholds.active family at_) ∧
    (∀ request uids, ActivatedBefore run n request uids → ∀ fresh,
      (RegistryCall.activatePair request fresh).run.run (run.state n) =
        .ok (.activated uids) (run.state n)) ∧
    ∀ request uids e db',
      (RegistryCall.activatePair request uids).run.run (run.state n) = .error e db' →
        db' = run.state n := by
  have hledger := activationLedger_of_run run hstart n
  refine ⟨fun at_ guardian scout hguardian hscout => ?_,
    fun a ha b hb hfamily horder => hledger.effectiveAt_lt ha hb hfamily horder,
    fun request uids result db' h family at_ hat => ?_, ?_,
    fun _ _ _ _ h => RegistryCall.run_eq_error h⟩
  · obtain ⟨a, v, ha, -, -, hv⟩ := resolveOfficial_eq_ok.mp hguardian
    obtain ⟨b, w, hb, -, -, hw⟩ := resolveOfficial_eq_ok.mp hscout
    obtain ⟨-, hgversion, hgtime⟩ := setFromRow_eq_ok hv
    obtain ⟨-, hsversion, hstime⟩ := setFromRow_eq_ok hw
    obtain ⟨request, uids, hmade, htwins⟩ := hledger.twins_of_active ha hb
    obtain ⟨x, hx, hxname⟩ := htwins.guardianVersion
    obtain ⟨y, hy, hyname⟩ := htwins.scoutVersion
    have hvx : v = x := Option.some.inj ((active_eq_some ha).1.2.2.2.symm.trans hx)
    have hwy : w = y := Option.some.inj ((active_eq_some hb).1.2.2.2.symm.trans hy)
    refine ⟨request, uids, hmade, ⟨?_, ?_⟩, ⟨?_, ?_⟩, ?_, ?_⟩
    · rw [hgversion, hvx, hxname]
    · rw [hsversion, hwy, hyname]
    · rw [hgtime, htwins.effectiveAt.1]
    · rw [hstime, htwins.effectiveAt.2]
    · rw [ha, Option.map_some, htwins.activationUid.1]
    · rw [hb, Option.map_some, htwins.activationUid.2]
  · obtain ⟨activated, hrun, -⟩ := activatePair_of_run h
    exact active_of_activatePair hrun family hat
  · rintro request uids ⟨k, hk, fresh', hreturns⟩ fresh
    obtain ⟨activated, hrun, hresult⟩ := activatePair_of_run hreturns.2
    cases hresult
    exact run_of_activatePair (activatePair_repeated
      (activationLedger_of_run run hstart k).keys hrun (extends_of_run run hk) fresh)

/-! ## A demo activation -/

/-- The definition hashes of the demo versions. -/
def demoHash : ThresholdFamily → String
  | .guardian => "08035811c99ae8ba78cf9815b275d938833f9c82c51ca4bd8ed730e172d13f1c"
  | .scout => "db82d735b47bb903b0d112fbfc03f3b40417768e80b7de6db6c6e65608199626"

def demoVersion (family : ThresholdFamily) : VersionRequest where
  family := family.text
  version := "demo-v1"
  approvalStatus := "OWNER_APPROVED"
  ownerApprovalReference := demoOwnerApprovalReference
  entries := family.codes.map fun code => (code, 600000)
  createdAt := 63902741400000000

def demoReference (family : ThresholdFamily) : ThresholdEvidenceReference :=
  ⟨family.text ++ "-demo", "demo-v1", demoHash family⟩

/-- The document of a demo activation. -/
def demoDocument : Value :=
  let reference (family : ThresholdFamily) : Value :=
    .obj [("uid", .str (demoReference family).uid),
      ("version", .str (demoReference family).version),
      ("definition_hash", .str (demoReference family).definitionHash)]
  .obj [("schema_version", .int 1), ("evidence_kind", .str "M9_DEMO_ACTIVATION"),
    ("evidence_origin", .str "DEMO_FIXTURE"), ("validation_kind", .str "DEMO"),
    ("observed_at", .str "2025-12-31T01:30:00.000000Z"),
    ("guardian_threshold", reference .guardian), ("scout_threshold", reference .scout)]

def demoSha256 : String := "4f9442e3b2ba4e718218edcb41954ac734324100209c4011a4b38068e736b91b"

def demoFiles : ArtifactFiles := fun digest =>
  if digest = demoSha256 then some (Json.canonicalBytes demoDocument) else none

def demoEvidence : ActivationEvidence :=
  ⟨demoSha256, demoSha256, demoReference .guardian, demoReference .scout, .demo,
    63902741400000000⟩

theorem readActivationEvidence_demo :
    readActivationEvidence demoFiles demoSha256 .demo = .ok demoEvidence := by
  have hhash : Sha256.hexdigest (Json.canonicalBytes demoDocument) = demoSha256 := by
    rw [← canonicalHash_eq_hexdigest]
    decide +kernel
  have hplain : Json.Plain demoDocument := ⟨by decide, by decide⟩
  rw [readActivationEvidence, readDemoActivationEvidence,
    readDocument_eq_ok (openVerified_eq_ok.mpr ⟨if_pos rfl, hhash⟩) hplain.loads]
  decide +kernel

def demoValidation (family : ThresholdFamily) (kind : ValidationKind) : ValidationRequest where
  family := family.text
  version := "demo-v1"
  validationKind := kind.text
  validationStatus := "PASS"
  reportReference := "demo"
  reportSha256 := demoSha256
  observedAt := 63902741400000000

def demoActivation : ActivationRequest where
  guardianVersion := "demo-v1"
  scoutVersion := "demo-v1"
  effectiveAt := 63902741500000000
  acceptanceId := "demo"
  acceptanceEvidenceSha256 := demoSha256
  activationScope := .demo

/-- The versions are registered and validated. -/
def demoPreparation : List RegistryCall :=
  [.registerVersion (demoVersion .guardian) "GUARDIAN-demo",
    .registerVersion (demoVersion .scout) "SCOUT-demo",
    .recordValidation (demoValidation .guardian .replay) "validation-1",
    .recordValidation (demoValidation .guardian .shadow) "validation-2",
    .recordValidation (demoValidation .scout .replay) "validation-3",
    .recordValidation (demoValidation .scout .shadow) "validation-4"]

/-- The migrated database, with the document among its artifacts. -/
def demoDatabase : Database where
  evidence := ⟨[], [], [], [], [], [], [], [], []⟩
  thresholds := seedTables
  analysis := .empty
  artifacts :=
    ⟨[⟨demoSha256, 700, "application/json", "demo", 63902741400000000⟩], []⟩
  officialCycleRun := []
  metadata := ⟨1, some "NORMAL"⟩

def demoRun : RegistryRun :=
  registryRun demoDatabase (demoPreparation ++
    [.recordActivationEvidence demoFiles demoSha256 .demo "acceptance",
      .activatePair demoActivation ("activation-1", "activation-2")])

/-- The database with both versions. -/
def demoPrepared : Database :=
  demoPreparation.foldl (fun db c => stateAfter (c.run.run db)) demoDatabase

/-- The registry with the evidence of the demo. -/
def demoTables : ThresholdTables :=
  stateAfter ((atomically (recordActivationEvidenceCommand demoPrepared.artifacts demoEvidence
    "acceptance")).run demoPrepared.thresholds)

/-- The last call of the demonstration starts from what the others prepared. -/
theorem demoRun_state :
    demoRun.state 8 = { demoPrepared with
      thresholds := stateAfter ((activatePair demoActivation
        ("activation-1", "activation-2")).run demoTables) } := by
  have hevidence : (recordActivationEvidence demoPrepared.artifacts demoFiles demoSha256 .demo
      "acceptance").run demoPrepared.thresholds =
      (atomically (recordActivationEvidenceCommand demoPrepared.artifacts demoEvidence
        "acceptance")).run demoPrepared.thresholds := by
    rw [recordActivationEvidence, readActivationEvidence_demo,
      run_bind_of_ok (a := ()) (run_require_eq_ok.mpr ⟨by decide +kernel, rfl⟩),
      run_bind_of_ok (run_fromExcept_eq_ok.mpr ⟨rfl, rfl⟩)]
  rw [demoRun, registryRun_state (by decide), List.foldl_append, List.foldl_cons, List.foldl_cons,
    List.foldl_nil, ← demoPrepared, RegistryCall.stateAfter_run, RegistryCall.stateAfter_run,
    RegistryCall.command, RegistryCall.command, stateAfter_run_map, stateAfter_run_map, hevidence,
    ← demoTables]

theorem demoRun_thresholds :
    (demoRun.state 8).thresholds = stateAfter ((activatePair demoActivation
      ("activation-1", "activation-2")).run demoTables) := by
  rw [demoRun_state]

/-- Both demo versions resolve, from one call. -/
theorem activation_history_demo :
    ∃ guardian scout request uids,
      resolveOfficial (demoRun.state 8).thresholds .guardian 63902741500000000 = .ok guardian ∧
      resolveOfficial (demoRun.state 8).thresholds .scout 63902741500000000 = .ok scout ∧
      ActivatedBefore demoRun 8 request uids ∧
      guardian.version = request.guardianVersion ∧ scout.version = request.scoutVersion := by
  have hok : [ThresholdFamily.guardian, .scout].all (fun family => (resolveOfficial
      (stateAfter ((activatePair demoActivation ("activation-1", "activation-2")).run
        demoTables)) family 63902741500000000).isOk) = true := by
    decide +kernel
  have hresolved : ∀ family, family ∈ [ThresholdFamily.guardian, .scout] →
      ∃ set, resolveOfficial (demoRun.state 8).thresholds family 63902741500000000 = .ok set := by
    intro family hfamily
    rw [demoRun_thresholds]
    exact eq_ok_of_except_isOk (List.all_eq_true.mp hok family hfamily)
  obtain ⟨guardian, hguardian⟩ := hresolved .guardian List.mem_cons_self
  obtain ⟨scout, hscout⟩ := hresolved .scout (List.mem_cons_of_mem _ List.mem_cons_self)
  obtain ⟨request, uids, hmade, ⟨hg, hs⟩, -⟩ :=
    (activation_history demoRun rfl 8).1 _ _ _ hguardian hscout
  exact ⟨guardian, scout, request, uids, hguardian, hscout, hmade, hg, hs⟩

end MarketMonitor
