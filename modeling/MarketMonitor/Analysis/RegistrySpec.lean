import MarketMonitor.Library.Run
import MarketMonitor.Analysis.ThresholdRegistry

/-!
# What a call of the registry can do

Each command either leaves the tables or appends rows that passed its checks. The lemmas
`registerVersion_cases`, `recordValidation_cases`, `recordActivationEvidence_cases` and
`activatePair_cases` say which, and `Extends` is what they have in common. The services
are put together as the events of `RegistryRun`.
-/

namespace MarketMonitor

open Transaction

variable {t t' : ThresholdTables}

/-! ## Returning commands -/

/-- A new version, with entries of its own. -/
structure NewVersion (t : ThresholdTables) (version : ThresholdVersion)
    (entries : List ThresholdEntry) : Prop where
  fresh : ∀ v ∈ t.thresholdVersion, v.thresholdVersionUid ≠ version.thresholdVersionUid
  owned : ∀ e ∈ entries, e.thresholdVersionUid = version.thresholdVersionUid

/-- A loop that inserts the entries of a version. -/
theorem run_insertEntries {uid : Uid} {e : Exn} {entries : Metrics} {u : PUnit}
    (h : (forM entries fun p => insertInto thresholdEntryTable e ⟨uid, p.1, p.2⟩).run t =
      .ok u t') :
    t' = { t with thresholdEntry := t.thresholdEntry ++ entries.map fun p => ⟨uid, p.1, p.2⟩ } := by
  have hfold := eq_foldl_of_run_forM (g := fun s p =>
    thresholdEntryTable.put (thresholdEntryTable.rows s ++ [⟨uid, p.1, p.2⟩]) s)
    (fun _ _ _ hp => (run_insertInto_eq_ok.mp hp).2.symm) h
  rw [hfold]
  exact (List.foldl_map (f := fun p : String × ℤ => (⟨uid, p.1, p.2⟩ : ThresholdEntry))
    (g := fun s r => thresholdEntryTable.put (thresholdEntryTable.rows s ++ [r]) s)).symm.trans
      (foldl_put_append thresholdEntryTable _ t)

/-- A call registers a new version, or finds it. -/
theorem registerVersion_cases {request : VersionRequest} {uid : Uid} {result : ThresholdSet}
    (h : (registerVersion request uid).run t = .ok result t') :
    t' = t ∨ ∃ version entries, NewVersion t version entries ∧
      t' = { t with
        thresholdVersion := t.thresholdVersion ++ [version]
        thresholdEntry := t.thresholdEntry ++ entries } := by
  simp only [registerVersion, run_bind_eq_ok, run_fromExcept_eq_ok, run_require_eq_ok,
    run_atomically_eq_ok, registerVersionCommand, run_get_eq_ok] at h
  obtain ⟨family, _, ⟨-, rfl⟩, entries, _, ⟨-, rfl⟩, status, _, ⟨-, rfl⟩, _, _, ⟨-, rfl⟩,
    _, _, ⟨rfl, rfl⟩, h⟩ := h
  cases hexisting : t.versionNamed? family request.version with
  | some existing =>
    simp only [hexisting, run_bind_eq_ok, run_require_eq_ok, run_fromExcept_eq_ok] at h
    obtain ⟨_, _, ⟨-, rfl⟩, -, rfl⟩ := h
    exact Or.inl rfl
  | none =>
    simp only [hexisting, run_bind_eq_ok, run_insertInto_eq_ok, run_pure_eq_ok] at h
    obtain ⟨_, _, ⟨hfree, rfl⟩, _, _, hentries, -, rfl⟩ := h
    refine Or.inr ⟨_, _, ⟨?_, ?_⟩, run_insertEntries hentries⟩
    · intro v hv huid
      have hclash := hfree v hv
      simp [thresholdVersionTable, huid] at hclash
    · intro e he
      obtain ⟨p, -, rfl⟩ := List.mem_map.mp he
      rfl

/-- A new validation of a version, which had none of its kind for the report. -/
structure NewValidation (t : ThresholdTables) (request : ValidationRequest)
    (row : ThresholdValidation) : Prop where
  order : ∀ v ∈ t.thresholdValidation, v.validationOrder < row.validationOrder
  version : ∃ family v, familyOf request.family = .ok family ∧
    t.versionNamed? family request.version = some v ∧
      v.thresholdVersionUid = row.thresholdVersionUid
  kind : validationKindOf request.validationKind = .ok row.validationKind
  passed : validationPassed request.validationStatus = .ok row.passed
  reportSha256 : row.reportSha256 = request.reportSha256
  observedAt : row.observedAt = request.observedAt
  fresh : ∀ v ∈ t.thresholdValidation, v.thresholdVersionUid = row.thresholdVersionUid →
    v.validationKind = row.validationKind → v.reportSha256 ≠ row.reportSha256

/-- A call records a new validation, or finds it. -/
theorem recordValidation_cases {artifacts : ArtifactTables} {request : ValidationRequest}
    {uid result : Uid} (h : (recordValidation artifacts request uid).run t = .ok result t') :
    (t' = t ∧ ∃ family v kind, familyOf request.family = .ok family ∧
      t.versionNamed? family request.version = some v ∧
        validationKindOf request.validationKind = .ok kind ∧
          ∃ w ∈ t.thresholdValidation, w.thresholdVersionUid = v.thresholdVersionUid ∧
            w.validationKind = kind ∧ w.reportSha256 = request.reportSha256) ∨
      ∃ row, NewValidation t request row ∧
        t' = { t with thresholdValidation := t.thresholdValidation ++ [row] } := by
  simp only [recordValidation, run_bind_eq_ok, run_fromExcept_eq_ok, run_require_eq_ok,
    run_atomically_eq_ok, recordValidationCommand, run_get_eq_ok] at h
  obtain ⟨family, _, ⟨hfamily, rfl⟩, kind, _, ⟨hkind, rfl⟩, passed, _, ⟨hpassed, rfl⟩,
    _, _, ⟨-, rfl⟩, _, _, ⟨rfl, rfl⟩, h⟩ := h
  cases hversion : t.versionNamed? family request.version with
  | none =>
    simp only [hversion] at h
    exact absurd h run_throw_ne_ok
  | some version =>
    simp only [hversion, run_bind_eq_ok, run_require_eq_ok] at h
    obtain ⟨_, _, ⟨-, rfl⟩, h⟩ := h
    split at h
    · rename_i existing hexisting
      simp only [run_bind_eq_ok, run_require_eq_ok, run_pure_eq_ok] at h
      obtain ⟨_, _, ⟨-, rfl⟩, -, rfl⟩ := h
      refine Or.inl ⟨rfl, family, version, kind, hfamily, hversion, hkind, existing,
        List.mem_of_find?_eq_some hexisting, ?_⟩
      simpa using List.find?_some hexisting
    · rename_i hnone
      simp only [run_bind_eq_ok, run_insertInto_eq_ok, run_pure_eq_ok] at h
      obtain ⟨_, _, ⟨-, rfl⟩, -, rfl⟩ := h
      refine Or.inr ⟨_, ⟨fun v hv => lt_nextOrder (List.mem_map_of_mem hv), ⟨family, version,
        hfamily, hversion, rfl⟩, hkind, hpassed, rfl, rfl, ?_⟩, rfl⟩
      intro v hv huid hvkind hsha
      have hfree := List.find?_eq_none.mp hnone v hv
      simp [huid, hvkind, hsha] at hfree

/-- The version a piece of evidence is about. -/
theorem evidenceThresholdUid_eq_ok {family : ThresholdFamily}
    {reference : ThresholdEvidenceReference} {scope : EvidenceScope} {uid : Uid}
    (h : evidenceThresholdUid t family reference scope = .ok uid) :
    ∃ v, t.version? uid = some v ∧ v.family = family ∧ v.version = reference.version := by
  unfold evidenceThresholdUid at h
  cases hrow : t.version? reference.uid with
  | none => simp [hrow] at h
  | some row =>
    simp only [hrow] at h
    split at h
    · cases h
    · rename_i hmatch
      simp only [not_or, not_not] at hmatch
      have huid : row.thresholdVersionUid = reference.uid := by
        simpa using List.find?_some hrow
      cases h
      exact ⟨row, huid ▸ hrow, hmatch.1, hmatch.2.1⟩

/-- Activation evidence about two versions that are there. -/
structure NewEvidence (t : ThresholdTables) (row : ThresholdActivationEvidence) : Prop where
  guardian : ∃ v, t.version? row.guardianThresholdVersionUid = some v ∧ v.family = .guardian
  scout : ∃ v, t.version? row.scoutThresholdVersionUid = some v ∧ v.family = .scout
  fresh : ∀ e ∈ t.thresholdActivationEvidence, e.evidenceSha256 ≠ row.evidenceSha256

/-- A call records new evidence, or finds it. -/
theorem recordActivationEvidence_cases {artifacts : ArtifactTables} {files : ArtifactFiles}
    {evidenceSha256 : String} {scope : EvidenceScope} {uid result : Uid}
    (h : (recordActivationEvidence artifacts files evidenceSha256 scope uid).run t =
      .ok result t') :
    t' = t ∨ ∃ row, NewEvidence t row ∧
      t' = { t with thresholdActivationEvidence := t.thresholdActivationEvidence ++ [row] } := by
  simp only [recordActivationEvidence, run_bind_eq_ok, run_fromExcept_eq_ok, run_require_eq_ok,
    run_atomically_eq_ok, recordActivationEvidenceCommand, run_get_eq_ok] at h
  obtain ⟨_, _, ⟨-, rfl⟩, evidence, _, ⟨-, rfl⟩, _, _, ⟨rfl, rfl⟩, guardianUid, _,
    ⟨hguardian, rfl⟩, scoutUid, _, ⟨hscout, rfl⟩, h⟩ := h
  obtain ⟨v, hv, hvfamily, -⟩ := evidenceThresholdUid_eq_ok hguardian
  obtain ⟨w, hw, hwfamily, -⟩ := evidenceThresholdUid_eq_ok hscout
  split at h
  · simp only [run_bind_eq_ok, run_require_eq_ok, run_pure_eq_ok] at h
    obtain ⟨_, _, ⟨-, rfl⟩, -, rfl⟩ := h
    exact Or.inl rfl
  · rename_i hnone
    simp only [run_bind_eq_ok, run_require_eq_ok, run_insertInto_eq_ok, run_pure_eq_ok] at h
    obtain ⟨_, _, ⟨-, rfl⟩, _, _, ⟨-, rfl⟩, -, rfl⟩ := h
    refine Or.inr ⟨_, ⟨⟨v, hv, hvfamily⟩, ⟨w, hw, hwfamily⟩, fun e he hsha => ?_⟩, rfl⟩
    simpa [hsha] using List.find?_eq_none.mp hnone e he

/-! ## Activations -/

/-- The evidence an activation is based on. -/
theorem activationEvidenceForPair_eq_ok {request : ActivationRequest}
    {evidence : ThresholdActivationEvidence} :
    activationEvidenceForPair t request = .ok evidence ↔ ∃ guardian scout,
      activationEvidenceRow t request = some (evidence, guardian, scout) ∧
      guardian.version = request.guardianVersion ∧ scout.version = request.scoutVersion ∧
        evidence.observedAt ≤ request.effectiveAt := by
  unfold activationEvidenceForPair
  cases activationEvidenceRow t request with
  | none => simp
  | some row =>
    obtain ⟨e, guardian, scout⟩ := row
    constructor
    · intro h
      dsimp only at h
      split at h
      · cases h
      · rename_i hmatch
        simp only [not_or, not_not, not_lt] at hmatch
        cases h
        exact ⟨guardian, scout, rfl, hmatch⟩
    · rintro ⟨_, _, h, hmatch⟩
      cases h
      dsimp only
      rw [if_neg]
      simpa only [not_or, not_not, not_lt] using hmatch

/-- A version that may be activated at the time of a request. -/
structure Activatable (t : ThresholdTables) (request : ActivationRequest)
    (family : ThresholdFamily) (version : ThresholdVersion) : Prop where
  named : t.versionNamed? family (request.version family) = some version
  approved : version.approvalStatus ≠ .legacyUncalibrated
  validated : latestValidationsPass t version.thresholdVersionUid request.effectiveAt = true

/-- A version that may be activated. -/
theorem versionForActivation_eq_ok {request : ActivationRequest} {family : ThresholdFamily}
    {version : ThresholdVersion} (h : versionForActivation t request family = .ok version) :
    Activatable t request family version := by
  unfold versionForActivation at h
  split at h
  · cases h
  · cases hnamed : t.versionNamed? family (request.version family) with
    | none => simp [hnamed] at h
    | some row =>
      simp only [hnamed] at h
      split at h
      · cases h
      · split at h
        · cases h
        · rename_i happroved hvalidated
          cases h
          exact ⟨hnamed, happroved, by simpa using hvalidated⟩

/-- The row `activate_pair` inserts for a version. -/
def activationRow (order : ℕ) (uid : Uid) (request : ActivationRequest)
    (version : ThresholdVersion) (evidenceUid : Uid) : ThresholdActivation :=
  ⟨order, uid, version.family, version.thresholdVersionUid, request.effectiveAt,
    request.acceptanceId, version.ownerApprovalReference, evidenceUid⟩

/-- An activation passes the triggers and comes after all others. -/
theorem insertActivation_cases {request : ActivationRequest} {version : ThresholdVersion}
    {evidenceUid uid : Uid}
    (h : (insertActivation request version evidenceUid uid).run t = .ok () t') :
    ∃ order, (∀ a ∈ t.thresholdActivation, a.activationOrder < order) ∧
      (∀ a ∈ t.thresholdActivation, a.family = version.family →
        a.effectiveAt < request.effectiveAt) ∧
      t' = { t with thresholdActivation :=
        t.thresholdActivation ++ [activationRow order uid request version evidenceUid] } := by
  simp only [insertActivation, activationTriggers, run_bind_eq_ok, run_get_eq_ok,
    run_forM_cons_eq_ok, run_forM_nil_eq_ok, run_require_eq_ok, run_insertInto_eq_ok] at h
  obtain ⟨_, _, ⟨rfl, rfl⟩, _, _, ⟨_, ⟨-, rfl⟩, _, ⟨-, rfl⟩, _, ⟨hlater, rfl⟩, _, ⟨-, rfl⟩, rfl⟩,
    -, rfl⟩ := h
  refine ⟨_, fun a ha => lt_nextOrder (List.mem_map_of_mem ha), fun a ha hfamily => ?_, rfl⟩
  simp only [List.any_eq_true, decide_eq_true_eq, not_exists, not_and] at hlater
  exact not_le.mp (hlater a ha hfamily)

/-- A repeated call finds both activations of its key. -/
structure RepeatedActivation (t : ThresholdTables) (request : ActivationRequest)
    (evidence : ThresholdActivationEvidence) (uids : Uid × Uid) : Prop where
  found : ∃ guardian guardianVersion scout scoutVersion,
    activationByKey t .guardian request.acceptanceId = some (guardian, guardianVersion) ∧
    activationByKey t .scout request.acceptanceId = some (scout, scoutVersion) ∧
    ((guardianVersion.version = request.guardianVersion ∧
        scoutVersion.version = request.scoutVersion) ∧
      (guardian.effectiveAt = request.effectiveAt ∧ scout.effectiveAt = request.effectiveAt) ∧
      guardian.acceptanceEvidenceUid = evidence.acceptanceEvidenceUid ∧
      scout.acceptanceEvidenceUid = evidence.acceptanceEvidenceUid) ∧
    uids = (guardian.activationUid, scout.activationUid)

/-- A first call inserts the activations of both versions after all others. -/
structure NewActivation (t : ThresholdTables) (request : ActivationRequest)
    (evidence : ThresholdActivationEvidence) (uids : Uid × Uid)
    (guardian scout : ThresholdActivation) : Prop where
  unused : ∀ family, activationByKey t family request.acceptanceId = none
  versions : ∃ order order' guardianVersion scoutVersion,
    Activatable t request .guardian guardianVersion ∧
    Activatable t request .scout scoutVersion ∧
    (∀ a ∈ t.thresholdActivation, a.activationOrder < order) ∧ order < order' ∧
    guardian = activationRow order uids.1 request guardianVersion evidence.acceptanceEvidenceUid ∧
    scout = activationRow order' uids.2 request scoutVersion evidence.acceptanceEvidenceUid
  advances : ∀ a ∈ t.thresholdActivation, a.effectiveAt < request.effectiveAt

theorem family_of_versionNamed? {family : ThresholdFamily} {name : String}
    {version : ThresholdVersion} (h : t.versionNamed? family name = some version) :
    version ∈ t.thresholdVersion ∧ version.family = family ∧ version.version = name := by
  have hfound := List.find?_some h
  simp only [decide_eq_true_eq] at hfound
  exact ⟨List.mem_of_find?_eq_some h, hfound⟩

/-- A call activates a pair, or finds it activated. -/
theorem activatePair_cases {request : ActivationRequest} {uids result : Uid × Uid}
    (h : (activatePair request uids).run t = .ok result t') :
    ∃ evidence, activationEvidenceForPair t request = .ok evidence ∧
      ((RepeatedActivation t request evidence result ∧ t' = t) ∨
        (result = uids ∧ ∃ guardian scout, NewActivation t request evidence uids guardian scout ∧
          t' = { t with
            thresholdActivation := t.thresholdActivation ++ [guardian, scout] })) := by
  simp only [activatePair, run_bind_eq_ok, run_fromExcept_eq_ok, run_require_eq_ok,
    run_atomically_eq_ok, activatePairCommand, run_get_eq_ok] at h
  obtain ⟨_, _, ⟨-, rfl⟩, _, _, ⟨-, rfl⟩, _, _, ⟨rfl, rfl⟩, evidence, _, ⟨hevidence, rfl⟩, h⟩ := h
  refine ⟨evidence, hevidence, ?_⟩
  split at h
  · rename_i guardian guardianVersion scout scoutVersion hguardian hscout
    simp only [run_bind_eq_ok, run_require_eq_ok, run_pure_eq_ok] at h
    obtain ⟨_, _, ⟨hmatch, rfl⟩, rfl, rfl⟩ := h
    exact Or.inl ⟨⟨_, _, _, _, hguardian, hscout, hmatch, rfl⟩, rfl⟩
  · rename_i hguardian hscout
    simp only [run_bind_eq_ok, run_fromExcept_eq_ok, run_pure_eq_ok] at h
    obtain ⟨guardian, _, ⟨hg, rfl⟩, scout, _, ⟨hs, rfl⟩, _, t₁, hfirst, _, t₂, hsecond,
      rfl, rfl⟩ := h
    have hg := versionForActivation_eq_ok hg
    have hs := versionForActivation_eq_ok hs
    obtain ⟨order, horder, hearlier, rfl⟩ := insertActivation_cases hfirst
    obtain ⟨order', horder', hearlier', rfl⟩ := insertActivation_cases hsecond
    refine Or.inr ⟨rfl, _, _, ⟨?_, ⟨order, order', guardian, scout, hg, hs, horder, ?_, rfl, rfl⟩,
      fun a ha => ?_⟩, by rw [List.append_assoc]; rfl⟩
    · intro family
      cases family
      · exact hguardian
      · exact hscout
    · exact horder' _ (List.mem_append_right _ (List.mem_singleton_self _))
    · cases hfamily : a.family with
      | guardian => exact hearlier a ha (hfamily.trans (family_of_versionNamed? hg.named).2.1.symm)
      | scout =>
        exact hearlier' a (List.mem_append_left _ ha)
          (hfamily.trans (family_of_versionNamed? hs.named).2.1.symm)
  · exact absurd h run_throw_ne_ok

/-! ## Raising commands -/

/-- A call that raises changes nothing. -/
theorem registerVersion_eq_error {request : VersionRequest} {uid : Uid} {e : Exn}
    (h : (registerVersion request uid).run t = .error e t') : t' = t := by
  simp only [registerVersion, run_bind_eq_error, run_fromExcept_eq_error, run_fromExcept_eq_ok,
    run_require_eq_error, run_require_eq_ok] at h
  obtain ⟨-, h⟩ | ⟨_, _, ⟨-, rfl⟩, ⟨-, h⟩ | ⟨_, _, ⟨-, rfl⟩, ⟨-, h⟩ | ⟨_, _, ⟨-, rfl⟩,
    ⟨-, -, h⟩ | ⟨_, _, ⟨-, rfl⟩, h⟩⟩⟩⟩ := h
  · exact h.symm
  · exact h.symm
  · exact h.symm
  · exact h.symm
  · exact run_atomically_eq_error h

/-- A call that raises changes nothing. -/
theorem recordValidation_eq_error {artifacts : ArtifactTables} {request : ValidationRequest}
    {uid : Uid} {e : Exn} (h : (recordValidation artifacts request uid).run t = .error e t') :
    t' = t := by
  simp only [recordValidation, run_bind_eq_error, run_fromExcept_eq_error, run_fromExcept_eq_ok,
    run_require_eq_error, run_require_eq_ok] at h
  obtain ⟨-, h⟩ | ⟨_, _, ⟨-, rfl⟩, ⟨-, h⟩ | ⟨_, _, ⟨-, rfl⟩, ⟨-, h⟩ | ⟨_, _, ⟨-, rfl⟩,
    ⟨-, -, h⟩ | ⟨_, _, ⟨-, rfl⟩, h⟩⟩⟩⟩ := h
  · exact h.symm
  · exact h.symm
  · exact h.symm
  · exact h.symm
  · exact run_atomically_eq_error h

theorem recordActivationEvidence_eq_error {artifacts : ArtifactTables} {files : ArtifactFiles}
    {evidenceSha256 : String} {scope : EvidenceScope} {uid : Uid} {e : Exn}
    (h : (recordActivationEvidence artifacts files evidenceSha256 scope uid).run t =
      .error e t') : t' = t := by
  simp only [recordActivationEvidence, run_bind_eq_error, run_fromExcept_eq_error,
    run_fromExcept_eq_ok, run_require_eq_error, run_require_eq_ok] at h
  obtain ⟨-, -, h⟩ | ⟨_, _, ⟨-, rfl⟩, ⟨-, h⟩ | ⟨_, _, ⟨-, rfl⟩, h⟩⟩ := h
  · exact h.symm
  · exact h.symm
  · exact run_atomically_eq_error h

theorem activatePair_eq_error {request : ActivationRequest} {uids : Uid × Uid} {e : Exn}
    (h : (activatePair request uids).run t = .error e t') : t' = t := by
  simp only [activatePair, run_bind_eq_error, run_require_eq_error, run_require_eq_ok] at h
  obtain ⟨-, -, h⟩ | ⟨_, _, ⟨-, rfl⟩, ⟨-, -, h⟩ | ⟨_, _, ⟨-, rfl⟩, h⟩⟩ := h
  · exact h.symm
  · exact h.symm
  · exact run_atomically_eq_error h

/-! ## The service -/

/-- A call of the registry, with the identifiers it draws. -/
inductive RegistryCall where
  | registerVersion (request : VersionRequest) (uid : Uid)
  | recordValidation (request : ValidationRequest) (uid : Uid)
  | recordActivationEvidence (files : ArtifactFiles) (evidenceSha256 : String)
      (scope : EvidenceScope) (uid : Uid)
  | activatePair (request : ActivationRequest) (uids : Uid × Uid)

/-- What a call returns. -/
inductive RegistryResult where
  | thresholds (set : ThresholdSet)
  | recorded (uid : Uid)
  | activated (uids : Uid × Uid)

/-- The command of a call. -/
def RegistryCall.command (artifacts : ArtifactTables) :
    RegistryCall → ThresholdCommand RegistryResult
  | .registerVersion request uid => .thresholds <$> MarketMonitor.registerVersion request uid
  | .recordValidation request uid =>
    .recorded <$> MarketMonitor.recordValidation artifacts request uid
  | .recordActivationEvidence files evidenceSha256 scope uid =>
    .recorded <$> MarketMonitor.recordActivationEvidence artifacts files evidenceSha256 scope uid
  | .activatePair request uids => .activated <$> MarketMonitor.activatePair request uids

/-- A call on the database. -/
def RegistryCall.run (call : RegistryCall) : EStateM Exn Database RegistryResult := fun db =>
  match (call.command db.artifacts).run db.thresholds with
  | .ok result tables => .ok result { db with thresholds := tables }
  | .error e tables => .error e { db with thresholds := tables }

/-- A call changes the tables of the registry only. -/
theorem RegistryCall.run_eq_ok {call : RegistryCall} {result : RegistryResult}
    {db db' : Database} : call.run.run db = .ok result db' ↔
      ∃ tables, (call.command db.artifacts).run db.thresholds = .ok result tables ∧
        db' = { db with thresholds := tables } := by
  simp only [EStateM.run, RegistryCall.run]
  constructor
  · intro h
    split at h
    · rename_i hrun
      cases h
      exact ⟨_, hrun, rfl⟩
    · cases h
  · rintro ⟨tables, hrun, rfl⟩
    rw [hrun]

/-- The state a call leaves. -/
theorem RegistryCall.stateAfter_run (c : RegistryCall) (db : Database) :
    stateAfter (c.run.run db) =
      { db with thresholds := stateAfter ((c.command db.artifacts).run db.thresholds) } := by
  simp only [EStateM.run, RegistryCall.run]
  cases c.command db.artifacts db.thresholds with
  | ok result tables => rfl
  | error e tables => rfl

/-- A raising call leaves the database as it was. -/
theorem RegistryCall.run_eq_error {call : RegistryCall} {e : Exn} {db db' : Database}
    (h : call.run.run db = .error e db') : db' = db := by
  simp only [EStateM.run, RegistryCall.run] at h
  split at h
  · cases h
  · rename_i tables hrun
    have htables : tables = db.thresholds := by
      cases call with
      | registerVersion request uid => exact registerVersion_eq_error (run_map_eq_error.mp hrun)
      | recordValidation request uid => exact recordValidation_eq_error (run_map_eq_error.mp hrun)
      | recordActivationEvidence files sha scope uid =>
        exact recordActivationEvidence_eq_error (run_map_eq_error.mp hrun)
      | activatePair request uids => exact activatePair_eq_error (run_map_eq_error.mp hrun)
    cases h
    rw [htables]

/-! ## Runs -/

/-- An event of the system : a call of the registry, or anything that leaves its tables. -/
inductive RegistryEvent where
  | call (call : RegistryCall)
  | other

/-- The effect of an event. -/
def RegistryEvent.step : RegistryEvent → Database → Database → Prop
  | .call c, db, db' => db' = stateAfter (c.run.run db)
  | .other, db, db' => db'.thresholds = db.thresholds

/-- A run of the system. -/
abbrev RegistryRun := Run RegistryEvent.step

/-- The `n`-th event is a call that returns. -/
def ReturnsAt (run : RegistryRun) (n : ℕ) (call : RegistryCall) (result : RegistryResult) : Prop :=
  run.event n = .call call ∧ call.run.run (run.state n) = .ok result (run.state (n + 1))

/-- The run of some calls, after which nothing happens. -/
def registryRun (db : Database) (calls : List RegistryCall) : RegistryRun where
  state n := (calls.take n).foldl (fun db c => stateAfter (c.run.run db)) db
  event n := (calls[n]?).elim .other .call
  steps n := by
    rw [List.take_add_one, List.foldl_append]
    cases calls[n]? with
    | none => exact rfl
    | some c => exact rfl

/-- It starts with the database. -/
theorem registryRun_start (db : Database) (calls : List RegistryCall) :
    (registryRun db calls).state 0 = db := rfl

/-- It ends with what its calls leave. -/
theorem registryRun_state {calls : List RegistryCall} {n : ℕ} (h : calls.length ≤ n)
    (db : Database) : (registryRun db calls).state n =
      calls.foldl (fun db c => stateAfter (c.run.run db)) db := by
  simp only [registryRun, List.take_of_length_le h]

/-- After its calls nothing returns. -/
theorem not_returnsAt_registryRun {calls : List RegistryCall} {n : ℕ} (h : calls.length ≤ n)
    (db : Database) (c : RegistryCall) (result : RegistryResult) :
    ¬ReturnsAt (registryRun db calls) n c result := by
  rintro ⟨hevent, -⟩
  simp only [registryRun, List.getElem?_eq_none h, Option.elim_none] at hevent
  cases hevent

end MarketMonitor
