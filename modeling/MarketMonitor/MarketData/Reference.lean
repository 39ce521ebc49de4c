import MarketMonitor.MarketData.Ingestion

/-!
# Reference data of a provider

`ReferenceRepository` maps the codes of a provider to instruments, records that a code is in
conflict, and registers the instruments that a provider or an import of listing facts
names : an instrument that is not there yet is created with a mapping and a first identity
version, and a changed identity becomes a new version.

A mapping is read at an instant in several places. Some take the newest row and look at its
status, others look for the newest row among the resolved ones (`MarketTables.newestMapping`).
-/

namespace MarketMonitor

open Transaction

/-! ## Registrations -/

/-- `ProviderInstrumentRegistration` -/
structure ProviderInstrumentRegistration where
  externalCode : String
  instrumentKind : InstrumentKind
  exchange : String
  tradingCode : String
  name : String
  listingStatus : String
  tradingStatus : String
  listingEffectiveAt : Option Instant
  listingEvidenceSha256 : Option String
  listingSourceRef : Option String
  deriving DecidableEq, Repr

/-- `_validate_artifact_digest(value)` -/
def validateArtifactDigest (value : String) : Except Exn Unit :=
  check (value.length = 64 ∧ ∀ c ∈ value.toList, c ∈ "0123456789abcdef".toList)
    (valueError "listing Reference artifact hash is invalid")

/-- `_validate_listing_provenance(record)` -/
def validateListingProvenance (record : ProviderInstrumentRegistration) : Except Exn Unit :=
  match record.listingEvidenceSha256, record.listingSourceRef with
  | none, none => .ok ()
  | some sha256, some sourceRef => do
    validateArtifactDigest sha256
    check (record.listingEffectiveAt ≠ none)
      (valueError "listing evidence requires an effective time")
    check (¬blank sourceRef) (valueError "listing evidence requires a source reference")
  | _, _ => .error
    (valueError "listing evidence hash and source reference must be supplied together")

/-- What a registration says of an instrument. -/
structure ListingIdentity where
  exchange : String
  tradingCode : String
  name : String
  listingStatus : String
  tradingStatus : String
  listingEffectiveAt : Option Instant
  listingEvidenceSha256 : Option String
  listingSourceRef : Option String
  deriving DecidableEq, Repr

def ProviderInstrumentRegistration.identity (record : ProviderInstrumentRegistration) :
    ListingIdentity :=
  ⟨record.exchange, record.tradingCode, record.name, record.listingStatus, record.tradingStatus,
    record.listingEffectiveAt, record.listingEvidenceSha256, record.listingSourceRef⟩

def InstrumentIdentityVersion.identity (row : InstrumentIdentityVersion) : ListingIdentity :=
  ⟨row.exchange, row.tradingCode, row.name, row.listingStatus, row.tradingStatus,
    row.listingEffectiveAt, row.listingEvidenceSha256, row.listingSourceRef⟩

/-- `_identity_update_required(current, record, instant)` -/
def IdentityUpdateRequired (current : InstrumentIdentityVersion)
    (record : ProviderInstrumentRegistration) : Prop :=
  ¬(record.listingStatus = "DISCOVERED" ∧ current.listingStatus ≠ "DISCOVERED") ∧
    current.identity ≠ record.identity

instance (current : InstrumentIdentityVersion) (record : ProviderInstrumentRegistration) :
    Decidable (IdentityUpdateRequired current record) :=
  inferInstanceAs (Decidable (¬(_ ∧ _) ∧ ¬_ = _))

/-- The identity version that a registration makes of an instrument. -/
def ProviderInstrumentRegistration.version (record : ProviderInstrumentRegistration)
    (instrumentUid : Uid) (version : ℕ) (instant : Instant) : InstrumentIdentityVersion where
  instrumentUid
  version
  exchange := record.exchange
  tradingCode := record.tradingCode
  name := record.name
  listingStatus := record.listingStatus
  tradingStatus := record.tradingStatus
  listingEffectiveAt := record.listingEffectiveAt
  listingEvidenceSha256 := record.listingEvidenceSha256
  listingSourceRef := record.listingSourceRef
  validFrom := instant

/-! ## Reading mappings -/

namespace MarketTables

variable (tables : MarketTables) (providerKey externalCode : String) (instant : Instant)

/-- The newest row of a code among those in force that are kept. -/
def newestMapping (keep : MappingTarget → Bool) : Option ProviderMapping :=
  latest ProviderMapping.validFrom (tables.providerMapping.filter fun m =>
    m.providerKey = providerKey ∧ m.externalCode = externalCode ∧ keep m.target ∧
      m.validFrom ≤ instant ∧ ∀ validUntil ∈ m.validUntil, instant < validUntil)

/-- `resolve_provider_mapping(provider, external_code, at)` -/
def resolveProviderMapping : Option Uid :=
  match tables.mappingAt providerKey externalCode instant with
  | some (.instrument uid) => some uid
  | some (.sector uid) => some uid
  | _ => none

/-- The instrument of the newest row that is kept. -/
def newestInstrument (keep : MappingTarget → Bool) : Option Uid :=
  mappedInstrument ((tables.newestMapping providerKey externalCode instant keep).map
    ProviderMapping.target)

/-- An instrument of a kind is there. -/
def OfKind (kind : InstrumentKind) (instrumentUid : Uid) : Prop :=
  ∃ i ∈ tables.instrument, i.instrumentUid = instrumentUid ∧ i.instrumentKind = kind

instance (kind : InstrumentKind) (instrumentUid : Uid) :
    Decidable (tables.OfKind kind instrumentUid) :=
  inferInstanceAs (Decidable (∃ i ∈ tables.instrument, _ ∧ _))

/-- `current_mapping` of `_current_provider_identity_rows`, `record_bars` and
`historical_coverage`. -/
def identityMapping : Option Uid :=
  tables.newestInstrument providerKey externalCode instant fun
    | .instrument _ => true
    | _ => false

/-- `active_mapping` of the onboarding of the sectors, joined with the instruments. -/
def onboardingMapping : Option Uid :=
  (tables.newestInstrument providerKey externalCode instant fun
    | .conflict => false
    | _ => true).filter fun uid => tables.instrument.any fun i => i.instrumentUid = uid

/-- `current_mapping` of `_known_suspended_primary` and of the preparation of the
snapshots, which join the stocks. -/
def stockMapping : Option Uid :=
  tables.newestInstrument providerKey externalCode instant fun
    | .instrument uid => tables.OfKind .stock uid
    | _ => false

/-- The identity version of an instrument at an instant. -/
def identityAt (instrumentUid : Uid) : Option InstrumentIdentityVersion :=
  latest (fun v => toLex (v.validFrom, v.version)) (tables.instrumentIdentityVersion.filter
    fun v => v.instrumentUid = instrumentUid ∧ v.validFrom ≤ instant)

/-- `_current_provider_identity_rows(provider, instant)` at a code. -/
def currentProviderIdentity : Option InstrumentIdentityVersion := do
  tables.identityAt instant (← tables.identityMapping providerKey externalCode instant)

end MarketTables

/-- `ProviderListingState` -/
structure ProviderListingState where
  listingStatus : String
  tradingStatus : String
  listingEffectiveAt : Option Instant
  listingEvidenceSha256 : Option String
  listingSourceRef : Option String
  deriving DecidableEq, Repr

def InstrumentIdentityVersion.listingState (row : InstrumentIdentityVersion) :
    ProviderListingState :=
  ⟨row.listingStatus, row.tradingStatus, row.listingEffectiveAt, row.listingEvidenceSha256,
    row.listingSourceRef⟩

/-- `provider_listing_states(provider, at)` at a code. -/
def MarketTables.providerListingState (tables : MarketTables) (providerKey externalCode : String)
    (instant : Instant) : Option ProviderListingState :=
  (tables.currentProviderIdentity providerKey externalCode instant).map
    InstrumentIdentityVersion.listingState

/-! ## Writing mappings -/

/-- The foreign key of a mapping to an instrument. -/
def MappingTarget.Known (tables : MarketTables) : MappingTarget → Prop
  | .instrument uid => uid ∈ tables.instrument.map Instrument.instrumentUid
  | _ => True

instance (tables : MarketTables) : (target : MappingTarget) → Decidable (target.Known tables)
  | .instrument uid =>
    inferInstanceAs (Decidable (uid ∈ tables.instrument.map Instrument.instrumentUid))
  | .conflict => isTrue trivial
  | .sector _ => isTrue trivial

/-- `_add_mapping(…)`, whose statement is a transaction of its own. -/
def addMapping (providerKey externalCode : String) (target : MappingTarget) (validFrom : Instant)
    (mappingUid : Uid) : MarketCommand Unit :=
  atomically do
    require (target.Known (← get)) integrityError
    insertInto providerMappingTable integrityError
      ⟨mappingUid, providerKey, externalCode, target, validFrom, none⟩

/-- `map_instrument(provider, external_code, instrument_uid, valid_from)` -/
def mapInstrument (providerKey externalCode : String) (instrumentUid : Uid) (validFrom : Instant)
    (mappingUid : Uid) : MarketCommand Unit :=
  addMapping providerKey externalCode (.instrument instrumentUid) validFrom mappingUid

/-- `record_mapping_conflict(provider, external_code, entity_kind, valid_from)` -/
def recordMappingConflict (providerKey externalCode : String) (validFrom : Instant)
    (mappingUid : Uid) : MarketCommand Unit :=
  addMapping providerKey externalCode .conflict validFrom mappingUid

/-! ## Registering instruments -/

section Register

variable (artifacts : ArtifactTables) (providerKey : String) (validFrom : Instant)

/-- `INSERT INTO instrument_identity_version`, with the foreign key of its evidence. -/
def insertIdentity (row : InstrumentIdentityVersion) : MarketCommand Unit := do
  require (∀ sha256 ∈ row.listingEvidenceSha256,
    sha256 ∈ artifacts.artifactObject.map ArtifactObject.sha256) integrityError
  insertInto instrumentIdentityVersionTable integrityError row

/-- What is written for a code that is not there, with the identifiers of its instrument and
its mapping. -/
def registerMissing (record : ProviderInstrumentRegistration) (uids : Uid × Uid) :
    MarketCommand Unit := do
  insertInto instrumentTable integrityError ⟨uids.1, record.instrumentKind⟩
  insertIdentity artifacts (record.version uids.1 1 validFrom)
  insertInto providerMappingTable integrityError
    ⟨uids.2, providerKey, record.externalCode, .instrument uids.1, validFrom, none⟩

/-- What is written for a code whose identity has changed. -/
def registerUpdate (record : ProviderInstrumentRegistration)
    (previous : InstrumentIdentityVersion) : MarketCommand Unit := do
  require (previous.validFrom < validFrom)
    (valueError "identity versions must advance effective time")
  insertIdentity artifacts (record.version previous.instrumentUid (previous.version + 1) validFrom)

/-- The records whose codes are not there. -/
def missingRecords (tables : MarketTables) (records : List ProviderInstrumentRegistration) :
    List ProviderInstrumentRegistration :=
  records.filter fun record =>
    tables.currentProviderIdentity providerKey record.externalCode validFrom = none

/-- The records whose codes have another identity, with the one they have. -/
def updatedRecords (tables : MarketTables) (records : List ProviderInstrumentRegistration) :
    List (ProviderInstrumentRegistration × InstrumentIdentityVersion) :=
  records.filterMap fun record =>
    match tables.currentProviderIdentity providerKey record.externalCode validFrom with
    | none => none
    | some current => if IdentityUpdateRequired current record then some (record, current) else none

/-- `register_provider_instruments(provider, records, valid_from)` -/
def registerProviderInstruments (records : List ProviderInstrumentRegistration)
    (uids : ℕ → Uid × Uid) : MarketCommand ℕ := do
  fromExcept (forM records validateListingProvenance)
  require (records.map ProviderInstrumentRegistration.externalCode).Nodup
    (valueError "provider registrations must have unique external codes")
  let tables ← get
  let missing := missingRecords providerKey validFrom tables records
  let updates := updatedRecords providerKey validFrom tables records
  atomically do
    forM missing.zipIdx fun (record, index) =>
      registerMissing artifacts providerKey validFrom record (uids index)
    forM updates fun (record, previous) => registerUpdate artifacts validFrom record previous
  return missing.length

/-! ## What a registration writes -/

/-- The instrument of a code that is not there. -/
def newInstrument (uids : ℕ → Uid × Uid) (x : ProviderInstrumentRegistration × ℕ) : Instrument :=
  ⟨(uids x.2).1, x.1.instrumentKind⟩

/-- The first identity version of a code that is not there. -/
def newVersion (uids : ℕ → Uid × Uid) (x : ProviderInstrumentRegistration × ℕ) :
    InstrumentIdentityVersion :=
  x.1.version (uids x.2).1 1 validFrom

/-- The mapping of a code that is not there. -/
def newMapping (uids : ℕ → Uid × Uid) (x : ProviderInstrumentRegistration × ℕ) :
    ProviderMapping :=
  ⟨(uids x.2).2, providerKey, x.1.externalCode, .instrument (uids x.2).1, validFrom, none⟩

/-- The identity version after a previous one. -/
def nextVersion (y : ProviderInstrumentRegistration × InstrumentIdentityVersion) :
    InstrumentIdentityVersion :=
  y.1.version y.2.instrumentUid (y.2.version + 1) validFrom

variable {artifacts providerKey validFrom} {t t' : MarketTables} {uids : ℕ → Uid × Uid}

theorem insertIdentity_eq_ok {row : InstrumentIdentityVersion} {u : Unit}
    (h : (insertIdentity artifacts row).run t = .ok u t') :
    t' = { t with instrumentIdentityVersion := t.instrumentIdentityVersion ++ [row] } := by
  obtain ⟨_, t₁, hkey, h⟩ := run_bind_eq_ok.mp h
  obtain ⟨-, rfl⟩ := run_require_eq_ok.mp hkey
  exact (run_insertInto_eq_ok.mp h).2.symm

/-- A new code gets its instrument, the first version of its identity and a mapping. -/
theorem registerMissing_eq_ok {x : ProviderInstrumentRegistration × ℕ} {u : Unit}
    (h : (registerMissing artifacts providerKey validFrom x.1 (uids x.2)).run t = .ok u t') :
    (∀ i ∈ t.instrument, (newInstrument uids x).instrumentUid ≠ i.instrumentUid) ∧
      t' = { t with
        instrument := t.instrument ++ [newInstrument uids x]
        instrumentIdentityVersion :=
          t.instrumentIdentityVersion ++ [newVersion validFrom uids x]
        providerMapping := t.providerMapping ++ [newMapping providerKey validFrom uids x] } := by
  obtain ⟨_, t₁, hinstrument, h⟩ := run_bind_eq_ok.mp h
  obtain ⟨hfree, rfl⟩ := run_insertInto_eq_ok.mp hinstrument
  obtain ⟨_, t₂, hidentity, hmapping⟩ := run_bind_eq_ok.mp h
  obtain rfl := insertIdentity_eq_ok hidentity
  exact ⟨fun i hi => of_decide_eq_false (hfree i hi), (run_insertInto_eq_ok.mp hmapping).2.symm⟩

/-- A changed identity becomes a version after the previous one. -/
theorem registerUpdate_eq_ok {y : ProviderInstrumentRegistration × InstrumentIdentityVersion}
    {u : Unit} (h : (registerUpdate artifacts validFrom y.1 y.2).run t = .ok u t') :
    y.2.validFrom < validFrom ∧ t' = { t with
      instrumentIdentityVersion := t.instrumentIdentityVersion ++ [nextVersion validFrom y] } := by
  obtain ⟨_, t₁, hadvance, h⟩ := run_bind_eq_ok.mp h
  obtain ⟨hbefore, rfl⟩ := run_require_eq_ok.mp hadvance
  exact ⟨hbefore, insertIdentity_eq_ok h⟩

/-- What a registration writes : the rows of the new codes and of the changed identities. -/
structure Registered (providerKey : String) (validFrom : Instant) (uids : ℕ → Uid × Uid)
    (missing : List (ProviderInstrumentRegistration × ℕ))
    (updates : List (ProviderInstrumentRegistration × InstrumentIdentityVersion))
    (t t' : MarketTables) : Prop where
  eq : t' = { t with
    instrument := t.instrument ++ missing.map (newInstrument uids)
    instrumentIdentityVersion := t.instrumentIdentityVersion ++
      missing.map (newVersion validFrom uids) ++ updates.map (nextVersion validFrom)
    providerMapping := t.providerMapping ++ missing.map (newMapping providerKey validFrom uids) }
  fresh : ∀ x ∈ missing, ∀ i ∈ t.instrument,
    (newInstrument uids x).instrumentUid ≠ i.instrumentUid
  distinct : missing.Pairwise fun x x' =>
    (newInstrument uids x').instrumentUid ≠ (newInstrument uids x).instrumentUid
  advance : ∀ y ∈ updates, y.2.validFrom < validFrom

/-- The missing records are all registered. -/
theorem registerAllMissing_eq_ok {missing : List (ProviderInstrumentRegistration × ℕ)} {u : Unit}
    (h : (forM missing fun x =>
      registerMissing artifacts providerKey validFrom x.1 (uids x.2)).run t = .ok u t') :
    Registered providerKey validFrom uids missing [] t t' := by
  induction missing generalizing t with
  | nil =>
    obtain rfl := run_forM_nil_eq_ok.mp h
    exact ⟨by simp, by simp, List.Pairwise.nil, by simp⟩
  | cons x missing ih =>
    obtain ⟨t₁, hx, hrest⟩ := run_forM_cons_eq_ok.mp h
    obtain ⟨hfree, rfl⟩ := registerMissing_eq_ok hx
    obtain ⟨heq, hfresh, hdistinct, -⟩ := ih hrest
    refine ⟨by rw [heq]; simp, ?_, List.pairwise_cons.mpr ⟨?_, hdistinct⟩, by simp⟩
    · intro x' hx' i hi
      rcases List.mem_cons.mp hx' with rfl | hx'
      · exact hfree i hi
      · exact hfresh x' hx' i (List.mem_append_left _ hi)
    · intro x' hx'
      exact hfresh x' hx' _ (List.mem_append_right _ (List.mem_singleton_self _))

/-- The updates are all registered, each after the version before. -/
theorem registerAllUpdates_eq_ok
    {updates : List (ProviderInstrumentRegistration × InstrumentIdentityVersion)} {u : Unit}
    (h : (forM updates fun y => registerUpdate artifacts validFrom y.1 y.2).run t = .ok u t') :
    (∀ y ∈ updates, y.2.validFrom < validFrom) ∧ t' = { t with
      instrumentIdentityVersion :=
        t.instrumentIdentityVersion ++ updates.map (nextVersion validFrom) } := by
  induction updates generalizing t with
  | nil =>
    obtain rfl := run_forM_nil_eq_ok.mp h
    exact ⟨by simp, by simp⟩
  | cons y updates ih =>
    obtain ⟨t₁, hy, hrest⟩ := run_forM_cons_eq_ok.mp h
    obtain ⟨hbefore, rfl⟩ := registerUpdate_eq_ok hy
    obtain ⟨hrest, heq⟩ := ih hrest
    exact ⟨List.forall_mem_cons.mpr ⟨hbefore, hrest⟩, by rw [heq]; simp⟩

/-- A registration that returns has valid records of distinct codes, and writes the new codes
and the changed identities. -/
theorem registerProviderInstruments_eq_ok {records : List ProviderInstrumentRegistration} {n : ℕ}
    (h : (registerProviderInstruments artifacts providerKey validFrom records uids).run t =
      .ok n t') :
    (records.map ProviderInstrumentRegistration.externalCode).Nodup ∧
      Registered providerKey validFrom uids (missingRecords providerKey validFrom t records).zipIdx
        (updatedRecords providerKey validFrom t records) t t' := by
  obtain ⟨_, t₁, hvalid, h⟩ := run_bind_eq_ok.mp h
  obtain ⟨-, rfl⟩ := run_fromExcept_eq_ok.mp hvalid
  obtain ⟨_, t₂, hunique, h⟩ := run_bind_eq_ok.mp h
  obtain ⟨hnodup, rfl⟩ := run_require_eq_ok.mp hunique
  obtain ⟨_, t₃, hget, h⟩ := run_bind_eq_ok.mp h
  obtain ⟨rfl, rfl⟩ := run_get_eq_ok.mp hget
  obtain ⟨_, t₄, hwrite, h⟩ := run_bind_eq_ok.mp h
  obtain ⟨-, rfl⟩ := run_pure_eq_ok.mp h
  obtain ⟨_, t₅, hmissing, hupdates⟩ := run_bind_eq_ok.mp (run_atomically_eq_ok.mp hwrite)
  obtain ⟨heq, hfresh, hdistinct, -⟩ := registerAllMissing_eq_ok hmissing
  obtain ⟨hadvance, rfl⟩ := registerAllUpdates_eq_ok hupdates
  exact ⟨hnodup, by rw [heq]; simp, hfresh, hdistinct, hadvance⟩

/-- A registration that raises writes nothing. -/
theorem registerProviderInstruments_eq_error {records : List ProviderInstrumentRegistration}
    {e : Exn}
    (h : (registerProviderInstruments artifacts providerKey validFrom records uids).run t =
      .error e t') : t' = t := by
  rcases run_bind_eq_error.mp h with h | ⟨_, t₁, hvalid, h⟩
  · exact (run_fromExcept_eq_error.mp h).2.symm
  obtain ⟨-, rfl⟩ := run_fromExcept_eq_ok.mp hvalid
  rcases run_bind_eq_error.mp h with h | ⟨_, t₂, hnodup, h⟩
  · exact (run_require_eq_error.mp h).2.2.symm
  obtain ⟨-, rfl⟩ := run_require_eq_ok.mp hnodup
  rcases run_bind_eq_error.mp h with h | ⟨_, t₃, hget, h⟩
  · cases h
  obtain ⟨rfl, rfl⟩ := run_get_eq_ok.mp hget
  rcases run_bind_eq_error.mp h with h | ⟨_, t₄, -, h⟩
  · exact run_atomically_eq_error h
  · cases h

end Register

section Add

variable {providerKey externalCode : String} {target : MappingTarget} {validFrom : Instant}
  {mappingUid : Uid} {t t' : MarketTables}

theorem addMapping_eq_ok {u : Unit}
    (h : (addMapping providerKey externalCode target validFrom mappingUid).run t = .ok u t') :
    target.Known t ∧ t' = { t with providerMapping := t.providerMapping ++
      [⟨mappingUid, providerKey, externalCode, target, validFrom, none⟩] } := by
  obtain ⟨_, t₁, hget, h⟩ := run_bind_eq_ok.mp (run_atomically_eq_ok.mp h)
  obtain ⟨rfl, rfl⟩ := run_get_eq_ok.mp hget
  obtain ⟨_, t₂, hkey, h⟩ := run_bind_eq_ok.mp h
  obtain ⟨hknown, rfl⟩ := run_require_eq_ok.mp hkey
  exact ⟨hknown, (run_insertInto_eq_ok.mp h).2.symm⟩

end Add

end MarketMonitor
