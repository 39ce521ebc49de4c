import MarketMonitor.Library.Keyed
import MarketMonitor.Library.Run
import MarketMonitor.MarketData.Directory
import MarketMonitor.MarketData.Reference

/-!
# The evidence of listings

Two callers register instruments : the synchronisation with the directory of the provider,
whose records say that a security was discovered, and the import of listing facts, whose
records name an artifact. Over any history of both, a code has one instrument, whose identity
versions are numbered and come in the order of their instants ; a registration that says
nothing new writes nothing ; what an import says of a code stays until the next import of it ;
and what was read at an instant is read of it ever after
(`ListingHistory.listing_evidence_kept`).

The tables keep for each code a chain of identity versions (`ListingLedger`), and a
registration adds at most one version to it (`ListingLedger.identities_registered`).
-/

namespace MarketMonitor

open Keyed Transaction

/-! ## The directory -/

/-- `_is_primary_a_share(kind, market, code)` -/
def isPrimaryAShare (kind : InstrumentKind) (market : ℕ) (code : String) : Prop :=
  kind = .stock ∧ ((market = 1 ∧ code.toList.take 3 ∈
      ["600".toList, "601".toList, "603".toList, "605".toList, "688".toList]) ∨
    (market = 0 ∧ code.toList.take 3 ∈
      ["000".toList, "001".toList, "002".toList, "003".toList, "300".toList, "301".toList]))

instance (kind : InstrumentKind) (market : ℕ) (code : String) :
    Decidable (isPrimaryAShare kind market code) :=
  inferInstanceAs (Decidable (_ ∧ (_ ∨ _)))

namespace TdxSecurity

variable (security : TdxSecurity)

/-- `_is_a_share_stock_candidate(security)` -/
def IsAShareStockCandidate : Prop := isPrimaryAShare security.kind security.market security.code

/-- `_is_context_index(security)` -/
def IsContextIndex : Prop := security.kind = .index ∧
  (security.market, security.code) ∈ [(1, "000001"), (0, "399001"), (0, "399006")]

/-- `_is_context_etf(security)` -/
def IsContextEtf : Prop := security.kind = .etf ∧
  (security.market, security.code) ∈ [(1, "510300"), (0, "159915")]

instance : Decidable security.IsAShareStockCandidate :=
  inferInstanceAs (Decidable (isPrimaryAShare _ _ _))

instance : Decidable security.IsContextIndex := inferInstanceAs (Decidable (_ ∧ _))

instance : Decidable security.IsContextEtf := inferInstanceAs (Decidable (_ ∧ _))

/-- `_external_code(security.instrument)` -/
def externalCode : String := toString security.market ++ ":" ++ security.code

/-- What the synchronisation registers of a security. -/
def registration : ProviderInstrumentRegistration where
  externalCode := security.externalCode
  instrumentKind := security.kind
  exchange := if security.market = 1 then "SSE" else "SZSE"
  tradingCode := security.code
  name := security.name
  listingStatus := "DISCOVERED"
  tradingStatus := security.tradingStatus
  listingEffectiveAt := none
  listingEvidenceSha256 := none
  listingSourceRef := none

end TdxSecurity

/-- The securities of a directory in the order of their identities, each once. -/
def distinctSecurities (directory : List TdxSecurity) : List TdxSecurity :=
  (directory.insertionSort fun s s' =>
    toLex (s.market, s.code) ≤ toLex (s'.market, s'.code)).foldl (fun seen s =>
      if seen.any fun s' => s'.market = s.market ∧ s'.code = s.code then seen else seen ++ [s]) []

/-- `selected` -/
def selectedSecurities (directory : List TdxSecurity) : List TdxSecurity :=
  (distinctSecurities directory).filter fun s =>
    s.IsAShareStockCandidate ∨ s.IsContextIndex ∨ s.IsContextEtf

/-- `_is_primary_eligible(security, listing, observed_at)` -/
def primaryEligible (security : TdxSecurity) (listing : Option ProviderListingState)
    (observedAt : Instant) : Bool :=
  decide security.IsAShareStockCandidate && listing.any fun listing =>
    listing.listingStatus = "LISTED" ∧ (∃ at_ ∈ listing.listingEffectiveAt, at_ ≤ observedAt) ∧
      listing.listingEvidenceSha256 ≠ none ∧
        ∃ sourceRef ∈ listing.listingSourceRef, ¬blank sourceRef

/-- The universe of a synchronisation. -/
structure ReferenceUniverse where
  primary : List TdxSecurity
  indexes : List TdxSecurity
  etfs : List TdxSecurity

section Calls

variable (artifacts : ArtifactTables) (validFrom : Instant) (uids : ℕ → Uid × Uid)

/-- `NativeTdxProvider.synchronize_reference(observed_at)`, with the directory it reads. -/
def synchronizeReference (directory : List TdxSecurity) : MarketCommand ReferenceUniverse := do
  let selected := selectedSecurities directory
  let _ ← registerProviderInstruments artifacts "NATIVE_TDX" validFrom
    (selected.map TdxSecurity.registration) uids
  let tables ← get
  return {
    primary := selected.filter fun s =>
      primaryEligible s (tables.providerListingState "NATIVE_TDX" s.externalCode validFrom)
        validFrom
    indexes := selected.filter fun s => s.IsContextIndex
    etfs := selected.filter fun s => ¬s.IsContextIndex ∧ s.IsContextEtf }

/-! ## Listing facts -/

/-- The checks of a listing fact. -/
def checkListingFact (sourceArtifactSha256 sourceRef : String)
    (record : ProviderInstrumentRegistration) : Except Exn Unit := do
  check (record.listingStatus ∈ ["LISTED", "PRE_LISTING", "NOT_YET_LISTED"])
    (valueError "listing Reference fact has an invalid listing status")
  check (record.listingEffectiveAt ≠ none)
    (valueError "listing Reference fact requires an effective time")
  check (record.listingEvidenceSha256 ∈ [none, some sourceArtifactSha256])
    (valueError "listing Reference fact artifact does not match its source")
  check (record.listingSourceRef ∈ [none, some sourceRef])
    (valueError "listing Reference fact source does not match its source")

/-- A listing fact with its source. -/
def ProviderInstrumentRegistration.enriched (sourceArtifactSha256 sourceRef : String)
    (record : ProviderInstrumentRegistration) : ProviderInstrumentRegistration :=
  { record with
    listingEvidenceSha256 := some sourceArtifactSha256
    listingSourceRef := some sourceRef }

/-- `import_listing_reference_facts(provider, records, valid_from, …)` -/
def importListingReferenceFacts (providerKey : String)
    (records : List ProviderInstrumentRegistration) (sourceArtifactSha256 sourceRef : String) :
    MarketCommand ℕ := do
  fromExcept (validateArtifactDigest sourceArtifactSha256)
  require (¬blank sourceRef)
    (valueError "listing Reference facts require a source reference")
  require (sourceArtifactSha256 ∈ artifacts.artifactObject.map ArtifactObject.sha256)
    ⟨.referenceNotFoundError, sourceArtifactSha256⟩
  fromExcept (forM records (checkListingFact sourceArtifactSha256 sourceRef))
  registerProviderInstruments artifacts providerKey validFrom
    (records.map (ProviderInstrumentRegistration.enriched sourceArtifactSha256 sourceRef)) uids

end Calls

/-! ## Histories -/

/-- A call that registers instruments of the provider. -/
inductive ReferenceCall where
  | synchronize (artifacts : ArtifactTables) (directory : List TdxSecurity) (uids : ℕ → Uid × Uid)
  | importFacts (artifacts : ArtifactTables) (records : List ProviderInstrumentRegistration)
      (sourceArtifactSha256 sourceRef : String) (uids : ℕ → Uid × Uid)

namespace ReferenceCall

def command (validFrom : Instant) : ReferenceCall → MarketCommand Unit
  | synchronize artifacts directory uids => do
    let _ ← synchronizeReference artifacts validFrom uids directory
  | importFacts artifacts records sha256 sourceRef uids => do
    let _ ← importListingReferenceFacts artifacts validFrom uids "NATIVE_TDX" records sha256
      sourceRef

/-- The records that a call registers. -/
def records : ReferenceCall → List ProviderInstrumentRegistration
  | synchronize _ directory _ => (selectedSecurities directory).map TdxSecurity.registration
  | importFacts _ records sha256 sourceRef _ =>
    records.map (ProviderInstrumentRegistration.enriched sha256 sourceRef)

def isImport : ReferenceCall → Bool
  | synchronize _ _ _ => false
  | importFacts _ _ _ _ _ => true

/-- A call of the same kind that registers the same records. -/
def Repeats (call call' : ReferenceCall) : Prop :=
  call.isImport = call'.isImport ∧ call.records = call'.records

/-- A call of the same kind says of the codes of another what that one said. -/
def Confirms (call call' : ReferenceCall) : Prop :=
  call.isImport = call'.isImport → ∀ r ∈ call.records, ∀ r' ∈ call'.records,
    r.externalCode = r'.externalCode → r' = r

end ReferenceCall

/-- The calls of the two callers, each later than the one before unless it is the
synchronisation after an import. The tables at the start have no mapping of the provider, and
every identity version has its instrument. -/
structure ListingHistory extends
    Run fun (e : Instant × ReferenceCall) (t t' : MarketTables) =>
      t' = stateAfter ((e.2.command e.1).run t) where
  unmapped : ∀ m ∈ (state 0).providerMapping, m.providerKey ≠ "NATIVE_TDX"
  owned : ∀ v ∈ (state 0).instrumentIdentityVersion,
    ∃ i ∈ (state 0).instrument, i.instrumentUid = v.instrumentUid
  times : ∀ n, (event n).1 < (event (n + 1)).1 ∨ ((event n).1 = (event (n + 1)).1 ∧
    (event n).2.isImport = true ∧ (event (n + 1)).2.isImport = false)

/-- A call of a history returns. -/
def ListingHistory.Returns (history : ListingHistory) (n : ℕ) : Prop :=
  isOk (((history.event n).2.command (history.event n).1).run (history.state n)) = true

/-! ## Chains of identity versions -/

/-- The identity versions of an instrument. -/
def MarketTables.identities (tables : MarketTables) (instrumentUid : Uid) :
    List InstrumentIdentityVersion :=
  tables.instrumentIdentityVersion.filter fun v => v.instrumentUid = instrumentUid

/-- The identity versions of the instrument of a mapping, up to an instant : numbered, in the
order of their instants, and the first of the instant of the mapping. -/
structure IdentityChain (instant : Instant) (mapping : ProviderMapping)
    (versions : List InstrumentIdentityVersion) : Prop where
  first : ∃ v, versions.head? = some v ∧ v.validFrom = mapping.validFrom
  numbered : versions.map InstrumentIdentityVersion.version = List.range' 1 versions.length
  increasing : versions.Pairwise fun v v' => v.validFrom < v'.validFrom
  past : ∀ v ∈ versions, v.validFrom ≤ instant

/-- Each code of the provider has one mapping, to an instrument of its own with a chain of
identity versions. -/
structure ListingLedger (instant : Instant) (tables : MarketTables) : Prop where
  owned : ∀ v ∈ tables.instrumentIdentityVersion,
    ∃ i ∈ tables.instrument, i.instrumentUid = v.instrumentUid
  distinct : tables.providerMapping.Pairwise fun m m' => m.providerKey = "NATIVE_TDX" →
    m'.providerKey = "NATIVE_TDX" → m.externalCode ≠ m'.externalCode ∧ m.target ≠ m'.target
  chains : ∀ m ∈ tables.providerMapping, m.providerKey = "NATIVE_TDX" → m.validUntil = none ∧
    ∃ uid, m.target = .instrument uid ∧ (∃ i ∈ tables.instrument, i.instrumentUid = uid) ∧
      IdentityChain instant m (tables.identities uid)

theorem MarketTables.mem_identities {tables : MarketTables} {uid : Uid}
    {v : InstrumentIdentityVersion} : v ∈ tables.identities uid ↔
      v ∈ tables.instrumentIdentityVersion ∧ v.instrumentUid = uid := by
  rw [identities, List.mem_filter, decide_eq_true_iff]

namespace IdentityChain

variable {instant : Instant} {mapping : ProviderMapping} {versions : List InstrumentIdentityVersion}

/-- The last version of a chain. -/
theorem exists_last (h : IdentityChain instant mapping versions) :
    ∃ v, versions.getLast? = some v ∧ v.version = versions.length := by
  obtain ⟨first, hfirst, -⟩ := h.first
  rcases List.eq_nil_or_concat versions with rfl | ⟨init, v, rfl⟩
  · cases hfirst
  · refine ⟨v, by simp, ?_⟩
    have hnumbered := congrArg List.getLast? h.numbered
    rw [List.concat_eq_append] at hnumbered ⊢
    rw [List.map_append, List.map_singleton, List.getLast?_concat,
      List.getLast?_range'] at hnumbered
    simp only [List.length_append, List.length_singleton] at hnumbered ⊢
    simpa using hnumbered

/-- A version after the last one continues the chain. -/
theorem extend (h : IdentityChain instant mapping versions) {v next : InstrumentIdentityVersion}
    (hv : versions.getLast? = some v) {later : Instant} (hlater : instant ≤ later)
    (hadvance : v.validFrom < later) (hfrom : next.validFrom = later)
    (hversion : next.version = v.version + 1) :
    IdentityChain later mapping (versions ++ [next]) where
  first := by
    obtain ⟨first, hfirst, hmapping⟩ := h.first
    refine ⟨first, ?_, hmapping⟩
    cases versions with
    | nil => cases hfirst
    | cons a versions => exact hfirst
  numbered := by
    obtain ⟨v', hv', hlength⟩ := h.exists_last
    rw [hv, Option.some.injEq] at hv'
    rw [List.map_append, h.numbered, List.length_append, List.length_singleton,
      List.range'_concat, List.map_singleton, hversion, hv', hlength]
    simp [Nat.add_comm]
  increasing := by
    refine List.pairwise_append.mpr ⟨h.increasing, List.pairwise_singleton _ _, ?_⟩
    intro a ha b hb
    rw [List.mem_singleton.mp hb, hfrom]
    rcases List.eq_nil_or_concat versions with rfl | ⟨init, v', rfl⟩
    · cases ha
    · rw [List.concat_eq_append] at ha hv
      rw [List.getLast?_concat, Option.some.injEq] at hv
      subst hv
      have hincreasing := h.increasing
      rw [List.concat_eq_append, List.pairwise_append] at hincreasing
      rcases List.mem_append.mp ha with ha | ha
      · exact (hincreasing.2.2 a ha v' (List.mem_singleton_self v')).trans hadvance
      · rwa [List.mem_singleton.mp ha]
  past := by
    intro a ha
    rcases List.mem_append.mp ha with ha | ha
    · exact (h.past a ha).trans hlater
    · rw [List.mem_singleton.mp ha, hfrom]

theorem mono (h : IdentityChain instant mapping versions) {later : Instant}
    (hlater : instant ≤ later) : IdentityChain later mapping versions :=
  { h with past := fun v hv => (h.past v hv).trans hlater }

end IdentityChain

/-! ## Reading the ledger -/

namespace ListingLedger

variable {instant : Instant} {t : MarketTables} (h : ListingLedger instant t)

include h

/-- The mappings of the provider differ in their codes and in their instruments. -/
theorem mapping_distinct {m m' : ProviderMapping} (hm : m ∈ t.providerMapping)
    (hm' : m' ∈ t.providerMapping) (hkey : m.providerKey = "NATIVE_TDX")
    (hkey' : m'.providerKey = "NATIVE_TDX") (hne : m ≠ m') :
    m.externalCode ≠ m'.externalCode ∧ m.target ≠ m'.target := by
  obtain ⟨a, ha, rfl⟩ := List.getElem_of_mem hm
  obtain ⟨b, hb, rfl⟩ := List.getElem_of_mem hm'
  have hdistinct := List.pairwise_iff_getElem.mp h.distinct
  rcases lt_trichotomy a b with hab | rfl | hab
  · exact hdistinct a b ha hb hab hkey hkey'
  · exact absurd rfl hne
  · obtain ⟨hcode, htarget⟩ := hdistinct b a hb ha hab hkey' hkey
    exact ⟨hcode.symm, htarget.symm⟩

omit h in
/-- The identity of an instrument at an instant is the last of its chain until then. -/
theorem identityAt_eq {m : ProviderMapping} {uid : Uid}
    (hchain : IdentityChain instant m (t.identities uid)) (at_ : Instant) :
    t.identityAt at_ uid = ((t.identities uid).filter fun v => v.validFrom ≤ at_).getLast? := by
  have hrows : (t.instrumentIdentityVersion.filter fun v =>
      v.instrumentUid = uid ∧ v.validFrom ≤ at_) =
      (t.identities uid).filter fun v => v.validFrom ≤ at_ := by
    rw [MarketTables.identities, List.filter_filter]
    refine List.filter_congr fun v _ => ?_
    simp [Bool.and_comm]
  rw [MarketTables.identityAt, hrows, latest_eq_getLast?]
  exact (hchain.increasing.filter _).imp fun hlt => Prod.Lex.toLex_lt_toLex.mpr (Or.inl hlt)

/-- The identity of a code at an instant is the last one of its chain until then. -/
theorem current_of_mapping {m : ProviderMapping} (hm : m ∈ t.providerMapping)
    (hkey : m.providerKey = "NATIVE_TDX") {uid : Uid} (huid : m.target = .instrument uid)
    (at_ : Instant) : t.currentProviderIdentity "NATIVE_TDX" m.externalCode at_ =
      ((t.identities uid).filter fun v => v.validFrom ≤ at_).getLast? := by
  obtain ⟨huntil, uid', huid', -, hchain⟩ := h.chains m hm hkey
  rw [huid, MappingTarget.instrument.injEq] at huid'
  subst huid'
  have hrow : ∀ m', m' ∈ t.providerMapping → m'.providerKey = "NATIVE_TDX" →
      m'.externalCode = m.externalCode → m' = m := by
    intro m' hm' hkey' hcode
    by_contra hne
    exact (h.mapping_distinct hm' hm hkey' hkey hne).1 hcode
  have hmapping : t.identityMapping "NATIVE_TDX" m.externalCode at_ =
      if m.validFrom ≤ at_ then some uid else none := by
    rw [MarketTables.identityMapping, MarketTables.newestInstrument, MarketTables.newestMapping]
    generalize hlatest : latest ProviderMapping.validFrom _ = found
    cases found with
    | none =>
      have hnil := List.argmax_eq_none.mp hlatest
      rw [if_neg fun hle => ?_]
      · rfl
      · refine List.filter_eq_nil_iff.mp hnil m hm (decide_eq_true ⟨hkey, rfl, ?_, hle, ?_⟩)
        · rw [huid]
        · simp [huntil]
    | some m' =>
      obtain ⟨hm', hcond⟩ := List.mem_filter.mp (mem_of_latest hlatest)
      obtain ⟨hkey', hcode', -, hle, -⟩ := of_decide_eq_true hcond
      obtain rfl := hrow m' hm' hkey' hcode'
      rw [if_pos hle, Option.map_some, huid, mappedInstrument]
  rw [MarketTables.currentProviderIdentity, hmapping]
  split
  · exact identityAt_eq hchain at_
  · rename_i hlt
    obtain ⟨first, hfirst, hfrom⟩ := hchain.first
    have hnil : ((t.identities uid).filter fun v => v.validFrom ≤ at_) = [] := by
      refine List.filter_eq_nil_iff.mpr fun v hv hle => hlt ?_
      have hle := of_decide_eq_true hle
      cases hversions : t.identities uid with
      | nil =>
        rw [hversions] at hv
        cases hv
      | cons a versions =>
        have hincreasing := hchain.increasing
        rw [hversions] at hv hfirst hincreasing
        rw [List.head?_cons, Option.some.injEq] at hfirst
        rw [← hfrom, ← hfirst]
        rcases List.mem_cons.mp hv with rfl | hv
        · exact hle
        · exact (List.rel_of_pairwise_cons hincreasing hv).le.trans hle
    rw [hnil]
    rfl

omit h in
/-- A code without a mapping has no identity. -/
theorem current_of_unmapped {externalCode : String}
    (hno : ∀ m ∈ t.providerMapping, m.providerKey = "NATIVE_TDX" → m.externalCode ≠ externalCode)
    (at_ : Instant) : t.currentProviderIdentity "NATIVE_TDX" externalCode at_ = none := by
  have hnone : ∀ keep, t.newestInstrument "NATIVE_TDX" externalCode at_ keep = none := by
    intro keep
    have hnil : (t.providerMapping.filter fun m => m.providerKey = "NATIVE_TDX" ∧
        m.externalCode = externalCode ∧ keep m.target ∧ m.validFrom ≤ at_ ∧
          ∀ validUntil ∈ m.validUntil, at_ < validUntil) = [] := by
      refine List.filter_eq_nil_iff.mpr fun m hm hcond => ?_
      obtain ⟨hkey, hcode, -⟩ := of_decide_eq_true hcond
      exact hno m hm hkey hcode
    rw [MarketTables.newestInstrument, MarketTables.newestMapping, hnil]
    rfl
  rw [MarketTables.currentProviderIdentity, MarketTables.identityMapping, hnone]
  rfl

/-- From the instant of the ledger on, the identity of a code is the last of its chain. -/
theorem current_of_le {m : ProviderMapping} (hm : m ∈ t.providerMapping)
    (hkey : m.providerKey = "NATIVE_TDX") {uid : Uid} (huid : m.target = .instrument uid)
    {at_ : Instant} (hat : instant ≤ at_) :
    t.currentProviderIdentity "NATIVE_TDX" m.externalCode at_ = (t.identities uid).getLast? := by
  obtain ⟨-, uid', huid', -, hchain⟩ := h.chains m hm hkey
  rw [huid, MappingTarget.instrument.injEq] at huid'
  subst huid'
  rw [h.current_of_mapping hm hkey huid,
    List.filter_eq_self.mpr fun v hv => decide_eq_true ((hchain.past v hv).trans hat)]

/-- A code has an identity when it has a mapping. -/
theorem current_eq_none_iff {externalCode : String} {at_ : Instant} (hat : instant ≤ at_) :
    t.currentProviderIdentity "NATIVE_TDX" externalCode at_ = none ↔
      ∀ m ∈ t.providerMapping, m.providerKey = "NATIVE_TDX" → m.externalCode ≠ externalCode := by
  refine ⟨?_, fun hno => current_of_unmapped hno at_⟩
  rintro hnone m hm hkey rfl
  obtain ⟨-, uid, huid, -, hchain⟩ := h.chains m hm hkey
  obtain ⟨v, hv, -⟩ := hchain.exists_last
  rw [h.current_of_le hm hkey huid hat, hv] at hnone
  cases hnone

/-- The mapping behind an identity. -/
theorem exists_mapping {externalCode : String} {at_ : Instant} (hat : instant ≤ at_)
    {v : InstrumentIdentityVersion}
    (hv : t.currentProviderIdentity "NATIVE_TDX" externalCode at_ = some v) :
    ∃ m ∈ t.providerMapping, m.providerKey = "NATIVE_TDX" ∧ m.externalCode = externalCode ∧
      m.target = .instrument v.instrumentUid ∧
      (t.identities v.instrumentUid).getLast? = some v := by
  have hsome : ¬∀ m ∈ t.providerMapping, m.providerKey = "NATIVE_TDX" →
      m.externalCode ≠ externalCode := by
    rw [← h.current_eq_none_iff hat, hv]
    exact Option.some_ne_none v
  push Not at hsome
  obtain ⟨m, hm, hkey, rfl⟩ := hsome
  obtain ⟨-, uid, huid, -, -⟩ := h.chains m hm hkey
  rw [h.current_of_le hm hkey huid hat] at hv
  obtain ⟨-, rfl⟩ := MarketTables.mem_identities.mp (List.mem_of_getLast? hv)
  exact ⟨m, hm, hkey, rfl, huid, hv⟩

end ListingLedger

/-! ## What a registration adds -/

section Registration

variable {instant later : Instant} {t t' : MarketTables} {uids : ℕ → Uid × Uid}
  {records : List ProviderInstrumentRegistration}

/-- The record of a code. -/
def listedRecord (records : List ProviderInstrumentRegistration) (externalCode : String) :
    Option ProviderInstrumentRegistration :=
  lookupBy ProviderInstrumentRegistration.externalCode externalCode records

/-- The record that changes an identity. -/
def changeOf (records : List ProviderInstrumentRegistration) (externalCode : String)
    (v : InstrumentIdentityVersion) : Option ProviderInstrumentRegistration :=
  (listedRecord records externalCode).filter fun r => IdentityUpdateRequired v r

/-- The records that change the identity of a code. -/
theorem updatedRecords_filter
    (hcodes : (records.map ProviderInstrumentRegistration.externalCode).Nodup)
    {externalCode : String} {v : InstrumentIdentityVersion}
    (hv : t.currentProviderIdentity "NATIVE_TDX" externalCode later = some v) :
    ((updatedRecords "NATIVE_TDX" later t records).filter fun y =>
      y.1.externalCode = externalCode) =
        (changeOf records externalCode v).toList.map fun r => (r, v) := by
  have hchange : (changeOf records externalCode v).toList =
      (records.filter fun r => r.externalCode = externalCode).filter fun r =>
        IdentityUpdateRequired v r := by
    rw [Keyed.filter_eq_toList_lookupBy hcodes, changeOf, listedRecord, Option.toList_filter]
  rw [hchange, updatedRecords, List.filter_filterMap, List.filter_filter,
    ← List.filterMap_eq_filter, List.map_filterMap]
  refine List.filterMap_congr fun r _ => ?_
  by_cases hcode : r.externalCode = externalCode
  · subst hcode
    rw [hv]
    by_cases hupdate : IdentityUpdateRequired v r
    · simp [hupdate]
    · simp [hupdate]
  · cases hcurrent : t.currentProviderIdentity "NATIVE_TDX" r.externalCode later with
    | none => simp [hcode]
    | some current =>
      by_cases hupdate : IdentityUpdateRequired current r
      · simp [hupdate, hcode, Option.filter, Option.guard]
      · simp [hupdate, hcode, Option.guard]

/-- The records whose identity is updated. -/
theorem mem_updatedRecords {y : ProviderInstrumentRegistration × InstrumentIdentityVersion} :
    y ∈ updatedRecords "NATIVE_TDX" later t records ↔ y.1 ∈ records ∧
      t.currentProviderIdentity "NATIVE_TDX" y.1.externalCode later = some y.2 ∧
        IdentityUpdateRequired y.2 y.1 := by
  rw [updatedRecords, List.mem_filterMap]
  constructor
  · rintro ⟨r, hr, hy⟩
    split at hy
    · cases hy
    · rename_i current hcurrent
      split at hy
      · rename_i hupdate
        cases hy
        exact ⟨hr, hcurrent, hupdate⟩
      · cases hy
  · rintro ⟨hr, hcurrent, hupdate⟩
    refine ⟨y.1, hr, ?_⟩
    rw [hcurrent]
    exact if_pos hupdate

namespace ListingLedger

variable (h : ListingLedger instant t) (hlater : instant ≤ later)
  (hcodes : (records.map ProviderInstrumentRegistration.externalCode).Nodup)
  (hreg : Registered "NATIVE_TDX" later uids (missingRecords "NATIVE_TDX" later t records).zipIdx
    (updatedRecords "NATIVE_TDX" later t records) t t')

include h hlater hcodes hreg

/-- A mapped code gets the change of its identity at the end of its chain. -/
theorem identities_registered {m : ProviderMapping} (hm : m ∈ t.providerMapping)
    (hkey : m.providerKey = "NATIVE_TDX") {v : InstrumentIdentityVersion}
    (hv : t.currentProviderIdentity "NATIVE_TDX" m.externalCode later = some v) :
    t'.identities v.instrumentUid = t.identities v.instrumentUid ++
      (changeOf records m.externalCode v).toList.map fun r => nextVersion later (r, v) := by
  obtain ⟨m', hm', hkey', hcode', huid, -⟩ := h.exists_mapping hlater hv
  have hmm' : m' = m := by
    by_contra hne
    exact (h.mapping_distinct hm' hm hkey' hkey hne).1 hcode'
  subst hmm'
  have hmissing : ((missingRecords "NATIVE_TDX" later t records).zipIdx.map
      (newVersion later uids)).filter (fun v' => v'.instrumentUid = v.instrumentUid) = [] := by
    refine List.filter_eq_nil_iff.mpr fun v' hv' huid' => ?_
    obtain ⟨x, hx, rfl⟩ := List.mem_map.mp hv'
    obtain ⟨-, uid, htarget, ⟨i, hi, rfl⟩, -⟩ := h.chains m' hm hkey
    rw [huid, MappingTarget.instrument.injEq] at htarget
    exact hreg.fresh x hx i hi ((of_decide_eq_true huid').trans htarget)
  have hupdates : ((updatedRecords "NATIVE_TDX" later t records).map (nextVersion later)).filter
      (fun v' => v'.instrumentUid = v.instrumentUid) =
      (changeOf records m'.externalCode v).toList.map fun r => nextVersion later (r, v) := by
    have hcongr : ((updatedRecords "NATIVE_TDX" later t records).filter fun y =>
        (nextVersion later y).instrumentUid = v.instrumentUid) =
        (updatedRecords "NATIVE_TDX" later t records).filter fun y =>
          y.1.externalCode = m'.externalCode := by
      refine List.filter_congr fun y hy => decide_eq_decide.mpr ?_
      obtain ⟨-, hcurrent, -⟩ := mem_updatedRecords.mp hy
      obtain ⟨n, hn, hnkey, hncode, hnuid, -⟩ := h.exists_mapping hlater hcurrent
      constructor
      · intro huid'
        by_contra hne
        have hnm : n ≠ m' := by
          rintro rfl
          exact hne hncode.symm
        refine (h.mapping_distinct hn hm hnkey hkey hnm).2 ?_
        rw [hnuid, huid]
        exact congrArg _ huid'
      · intro hcode
        rw [hcode, hv, Option.some.injEq] at hcurrent
        rw [hcurrent]
        rfl
    rw [List.filter_map]
    refine (congrArg (List.map (nextVersion later)) hcongr).trans ?_
    rw [updatedRecords_filter hcodes hv, List.map_map]
    rfl
  rw [MarketTables.identities, hreg.eq, List.filter_append, List.filter_append, hmissing, hupdates,
    List.append_nil]
  rfl

omit hcodes in
/-- A new code gets the first version of its identity. -/
theorem identities_missing {x : ProviderInstrumentRegistration × ℕ}
    (hx : x ∈ (missingRecords "NATIVE_TDX" later t records).zipIdx) :
    t'.identities (uids x.2).1 = [newVersion later uids x] := by
  have hold :
      t.instrumentIdentityVersion.filter (fun v => v.instrumentUid = (uids x.2).1) = [] := by
    refine List.filter_eq_nil_iff.mpr fun v hv huid => ?_
    obtain ⟨i, hi, hiv⟩ := h.owned v hv
    exact hreg.fresh x hx i hi (hiv.trans (of_decide_eq_true huid)).symm
  have hupdates : ((updatedRecords "NATIVE_TDX" later t records).map (nextVersion later)).filter
      (fun v => v.instrumentUid = (uids x.2).1) = [] := by
    refine List.filter_eq_nil_iff.mpr fun v hv huid => ?_
    obtain ⟨y, hy, rfl⟩ := List.mem_map.mp hv
    obtain ⟨-, hcurrent, -⟩ := mem_updatedRecords.mp hy
    obtain ⟨n, hn, hnkey, -, hnuid, -⟩ := h.exists_mapping hlater hcurrent
    obtain ⟨-, uid, htarget, ⟨i, hi, rfl⟩, -⟩ := h.chains n hn hnkey
    rw [hnuid, MappingTarget.instrument.injEq] at htarget
    exact hreg.fresh x hx i hi ((of_decide_eq_true huid).symm.trans htarget)
  have hmissing : ((missingRecords "NATIVE_TDX" later t records).zipIdx.map
      (newVersion later uids)).filter (fun v => v.instrumentUid = (uids x.2).1) =
        [newVersion later uids x] := by
    have hnodup : (((missingRecords "NATIVE_TDX" later t records).zipIdx.map
        (newVersion later uids)).map InstrumentIdentityVersion.instrumentUid).Nodup := by
      rw [List.map_map]
      exact List.pairwise_map.mpr (hreg.distinct.imp fun hne => hne.symm)
    have hmem : newVersion later uids x ∈ (missingRecords "NATIVE_TDX" later t records).zipIdx.map
        (newVersion later uids) := List.mem_map_of_mem hx
    have hlookup := Keyed.lookupBy_of_mem hnodup hmem
    have hfilter := Keyed.filter_eq_toList_lookupBy (k := (uids x.2).1) hnodup
    rw [hfilter]
    exact congrArg Option.toList hlookup
  rw [MarketTables.identities, hreg.eq, List.filter_append, List.filter_append, hold, hmissing,
    hupdates]
  rfl

omit h hlater hcodes hreg in
/-- The change of an identity is written. -/
theorem mem_updatedRecords_of_change {externalCode : String} {v : InstrumentIdentityVersion}
    (hv : t.currentProviderIdentity "NATIVE_TDX" externalCode later = some v)
    {r : ProviderInstrumentRegistration} (hr : changeOf records externalCode v = some r) :
    (r, v) ∈ updatedRecords "NATIVE_TDX" later t records := by
  obtain ⟨hrecord, hupdate⟩ := Option.filter_eq_some_iff.mp hr
  refine mem_updatedRecords.mpr ⟨mem_of_lookupBy hrecord, ?_, of_decide_eq_true hupdate⟩
  rw [key_of_lookupBy hrecord]
  exact hv

/-- A registration keeps the ledger. -/
theorem registered : ListingLedger later t' where
  owned := by
    intro v hv
    rw [hreg.eq] at hv ⊢
    rcases List.mem_append.mp hv with hv | hv
    · rcases List.mem_append.mp hv with hv | hv
      · obtain ⟨i, hi, hiv⟩ := h.owned v hv
        exact ⟨i, List.mem_append_left _ hi, hiv⟩
      · obtain ⟨x, hx, rfl⟩ := List.mem_map.mp hv
        exact ⟨newInstrument uids x, List.mem_append_right _ (List.mem_map_of_mem hx), rfl⟩
    · obtain ⟨y, hy, rfl⟩ := List.mem_map.mp hv
      obtain ⟨-, hcurrent, -⟩ := mem_updatedRecords.mp hy
      obtain ⟨m, hm, hkey, -, huid, -⟩ := h.exists_mapping hlater hcurrent
      obtain ⟨-, uid, htarget, ⟨i, hi, hiuid⟩, -⟩ := h.chains m hm hkey
      rw [huid, MappingTarget.instrument.injEq] at htarget
      exact ⟨i, List.mem_append_left _ hi, hiuid.trans htarget.symm⟩
  distinct := by
    rw [hreg.eq]
    refine List.pairwise_append.mpr ⟨h.distinct, ?_, ?_⟩
    · have hmissing : ((missingRecords "NATIVE_TDX" later t records).zipIdx.map
          (ProviderInstrumentRegistration.externalCode ∘ Prod.fst)).Nodup := by
        rw [← List.map_map, List.zipIdx_map_fst]
        exact hcodes.sublist (List.filter_sublist.map _)
      refine List.pairwise_map.mpr
        (((List.pairwise_map.mp hmissing).and hreg.distinct).imp fun hne _ _ => ⟨hne.1, ?_⟩)
      rw [newMapping, newMapping, ne_eq, MappingTarget.instrument.injEq]
      exact hne.2.symm
    · intro m hm m' hm' hkey _
      obtain ⟨x, hx, rfl⟩ := List.mem_map.mp hm'
      obtain ⟨-, uid, htarget, ⟨i, hi, rfl⟩, -⟩ := h.chains m hm hkey
      have hnone := (List.mem_filter.mp (List.fst_mem_of_mem_zipIdx hx)).2
      refine ⟨(h.current_eq_none_iff hlater).mp (of_decide_eq_true hnone) m hm hkey, ?_⟩
      rw [htarget, newMapping, ne_eq, MappingTarget.instrument.injEq]
      exact (hreg.fresh x hx i hi).symm
  chains := by
    intro m hm hkey
    have hm₀ := hm
    rw [hreg.eq] at hm
    rcases List.mem_append.mp hm with hm | hm
    · obtain ⟨huntil, uid, huid, ⟨i, hi, hiuid⟩, hchain⟩ := h.chains m hm hkey
      obtain ⟨v, hlast, -⟩ := hchain.exists_last
      have hv := (h.current_of_le hm hkey huid hlater).trans hlast
      obtain ⟨-, rfl⟩ := MarketTables.mem_identities.mp (List.mem_of_getLast? hlast)
      refine ⟨huntil, v.instrumentUid, huid, ⟨i, ?_, hiuid⟩, ?_⟩
      · rw [hreg.eq]
        exact List.mem_append_left _ hi
      · rw [h.identities_registered hlater hcodes hreg hm hkey hv]
        cases hchange : changeOf records m.externalCode v with
        | none => exact (List.append_nil _).symm ▸ hchain.mono hlater
        | some r =>
          exact hchain.extend hlast hlater (hreg.advance _
            (mem_updatedRecords_of_change hv hchange)) rfl rfl
    · obtain ⟨x, hx, rfl⟩ := List.mem_map.mp hm
      refine ⟨rfl, (uids x.2).1, rfl, ⟨newInstrument uids x, ?_, rfl⟩, ?_⟩
      · rw [hreg.eq]
        exact List.mem_append_right _ (List.mem_map_of_mem hx)
      · rw [h.identities_missing hlater hreg hx]
        exact ⟨⟨_, rfl, rfl⟩, rfl, List.pairwise_singleton _ _,
          fun v hv => (List.mem_singleton.mp hv ▸ le_rfl)⟩

/-- What was read at an earlier instant is read of it. -/
theorem current_registered_past (externalCode : String) {at_ : Instant} (hat : at_ < later) :
    t'.currentProviderIdentity "NATIVE_TDX" externalCode at_ =
      t.currentProviderIdentity "NATIVE_TDX" externalCode at_ := by
  have h' := h.registered hlater hcodes hreg
  by_cases hmapped : ∃ m ∈ t'.providerMapping, m.providerKey = "NATIVE_TDX" ∧
      m.externalCode = externalCode
  · obtain ⟨m, hm', hkey, rfl⟩ := hmapped
    have hm := hm'
    rw [hreg.eq] at hm
    rcases List.mem_append.mp hm with hm | hm
    · obtain ⟨-, uid, huid, -, hchain⟩ := h.chains m hm hkey
      obtain ⟨v, hlast, -⟩ := hchain.exists_last
      have hv := (h.current_of_le hm hkey huid hlater).trans hlast
      obtain ⟨-, rfl⟩ := MarketTables.mem_identities.mp (List.mem_of_getLast? hlast)
      have hnew : ((changeOf records m.externalCode v).toList.map fun r =>
          nextVersion later (r, v)).filter (fun v => v.validFrom ≤ at_) = [] := by
        refine List.filter_eq_nil_iff.mpr fun v' hv' hle => ?_
        obtain ⟨r, -, rfl⟩ := List.mem_map.mp hv'
        exact absurd (of_decide_eq_true hle) (not_le.mpr hat)
      rw [h'.current_of_mapping hm' hkey huid, h.current_of_mapping hm hkey huid,
        h.identities_registered hlater hcodes hreg hm hkey hv, List.filter_append, hnew,
        List.append_nil]
    · obtain ⟨x, hx, rfl⟩ := List.mem_map.mp hm
      have hnone := of_decide_eq_true (List.mem_filter.mp (List.fst_mem_of_mem_zipIdx hx)).2
      have hold : t.currentProviderIdentity "NATIVE_TDX"
          (newMapping "NATIVE_TDX" later uids x).externalCode at_ = none :=
        current_of_unmapped ((h.current_eq_none_iff hlater).mp hnone) at_
      rw [h'.current_of_mapping hm' hkey rfl, h.identities_missing hlater hreg hx, hold]
      have hnil : [newVersion later uids x].filter (fun v => v.validFrom ≤ at_) = [] :=
        List.filter_eq_nil_iff.mpr fun v hv hle => by
          rw [List.mem_singleton.mp hv] at hle
          exact absurd (of_decide_eq_true hle) (not_le.mpr hat)
      rw [hnil]
      rfl
  · have hno : ∀ m ∈ t'.providerMapping, m.providerKey = "NATIVE_TDX" →
        m.externalCode ≠ externalCode := fun m hm hkey hcode => hmapped ⟨m, hm, hkey, hcode⟩
    rw [current_of_unmapped hno, current_of_unmapped fun m hm => hno m ?_]
    rw [hreg.eq]
    exact List.mem_append_left _ hm

/-- Later a mapped code has its identity or the change of it. -/
theorem current_registered {externalCode : String} {v : InstrumentIdentityVersion}
    (hv : t.currentProviderIdentity "NATIVE_TDX" externalCode later = some v) {at_ : Instant}
    (hat : later ≤ at_) : t'.currentProviderIdentity "NATIVE_TDX" externalCode at_ =
      some ((changeOf records externalCode v).elim v fun r => nextVersion later (r, v)) := by
  have h' := h.registered hlater hcodes hreg
  obtain ⟨m, hm, hkey, rfl, huid, hlast⟩ := h.exists_mapping hlater hv
  have hm' : m ∈ t'.providerMapping := by
    rw [hreg.eq]
    exact List.mem_append_left _ hm
  rw [h'.current_of_le hm' hkey huid hat, h.identities_registered hlater hcodes hreg hm hkey hv]
  cases changeOf records m.externalCode v with
  | none => simpa using hlast
  | some r => simp

/-- Later a new code has the identity of its record. -/
theorem current_registered_missing {r : ProviderInstrumentRegistration} (hr : r ∈ records)
    (hnone : t.currentProviderIdentity "NATIVE_TDX" r.externalCode later = none) :
    ∃ uid, ∀ at_, later ≤ at_ → t'.currentProviderIdentity "NATIVE_TDX" r.externalCode at_ =
      some (r.version uid 1 later) := by
  have h' := h.registered hlater hcodes hreg
  have hmissing : r ∈ missingRecords "NATIVE_TDX" later t records :=
    List.mem_filter.mpr ⟨hr, decide_eq_true hnone⟩
  rw [← List.zipIdx_map_fst 0 (missingRecords "NATIVE_TDX" later t records)] at hmissing
  obtain ⟨x, hx, rfl⟩ := List.mem_map.mp hmissing
  have hm' : newMapping "NATIVE_TDX" later uids x ∈ t'.providerMapping := by
    rw [hreg.eq]
    exact List.mem_append_right _ (List.mem_map_of_mem hx)
  refine ⟨(uids x.2).1, fun at_ hat => (h'.current_of_le hm' rfl rfl hat).trans ?_⟩
  rw [h.identities_missing hlater hreg hx]
  rfl

end ListingLedger

/-! ## What is known of a code -/

/-- The identity of the code of a record from an instant on, which the record does not change. -/
def ProviderInstrumentRegistration.Known (r : ProviderInstrumentRegistration) (instant : Instant)
    (t : MarketTables) : Prop :=
  ∃ v, (∀ at_, instant ≤ at_ →
      t.currentProviderIdentity "NATIVE_TDX" r.externalCode at_ = some v) ∧
    ¬IdentityUpdateRequired v r

/-- The identity of the code of a record is the one it gives. -/
def ProviderInstrumentRegistration.Reported (r : ProviderInstrumentRegistration)
    (t : MarketTables) (at_ : Instant) : Prop :=
  ∃ v, t.currentProviderIdentity "NATIVE_TDX" r.externalCode at_ = some v ∧
    v.identity = r.identity

theorem not_identityUpdateRequired_of_eq {v : InstrumentIdentityVersion}
    {r : ProviderInstrumentRegistration} (h : v.identity = r.identity) :
    ¬IdentityUpdateRequired v r := fun hupdate => hupdate.2 h

/-- What was imported is not changed by what is discovered. -/
theorem not_identityUpdateRequired_of_discovered {v : InstrumentIdentityVersion}
    {r : ProviderInstrumentRegistration} (hr : r.listingStatus = "DISCOVERED")
    (hv : v.listingStatus ≠ "DISCOVERED") : ¬IdentityUpdateRequired v r :=
  fun hupdate => hupdate.1 ⟨hr, hv⟩

theorem listingStatus_of_identity {v : InstrumentIdentityVersion}
    {r : ProviderInstrumentRegistration} (h : v.identity = r.identity) :
    v.listingStatus = r.listingStatus :=
  congrArg ListingIdentity.listingStatus h

/-- An imported fact that is known is reported. -/
theorem identity_of_not_required {v : InstrumentIdentityVersion}
    {r : ProviderInstrumentRegistration} (hr : r.listingStatus ≠ "DISCOVERED")
    (h : ¬IdentityUpdateRequired v r) : v.identity = r.identity := by
  by_contra hne
  exact h ⟨fun hdiscovered => hr hdiscovered.1, hne⟩

section Known

variable {instant later : Instant} {t t' : MarketTables} {uids : ℕ → Uid × Uid}
  {records : List ProviderInstrumentRegistration} (h : ListingLedger instant t)
  (hlater : instant ≤ later)
  (hcodes : (records.map ProviderInstrumentRegistration.externalCode).Nodup)
  (hreg : Registered "NATIVE_TDX" later uids (missingRecords "NATIVE_TDX" later t records).zipIdx
    (updatedRecords "NATIVE_TDX" later t records) t t')

include h hlater hcodes hreg

/-- What was registered is known. -/
theorem known_registered {r : ProviderInstrumentRegistration} (hr : r ∈ records) :
    r.Known later t' := by
  cases hcurrent : t.currentProviderIdentity "NATIVE_TDX" r.externalCode later with
  | none =>
    obtain ⟨uid, huid⟩ := h.current_registered_missing hlater hcodes hreg hr hcurrent
    exact ⟨_, huid, not_identityUpdateRequired_of_eq rfl⟩
  | some v =>
    refine ⟨_, fun at_ hat => h.current_registered hlater hcodes hreg hcurrent hat, ?_⟩
    have hrecord : listedRecord records r.externalCode = some r := lookupBy_of_mem hcodes hr
    rw [changeOf, hrecord]
    by_cases hupdate : IdentityUpdateRequired v r
    · rw [Option.filter_some, if_pos (decide_eq_true hupdate)]
      exact not_identityUpdateRequired_of_eq rfl
    · rw [Option.filter_some, if_neg (by simpa using hupdate)]
      exact hupdate

/-- What is known stays known under what confirms it and under records of the other kind. -/
theorem known_kept {r : ProviderInstrumentRegistration} (hknown : r.Known instant t)
    (hother : ∀ r' ∈ records, r'.externalCode = r.externalCode → r' = r ∨
      ¬(r'.listingStatus = "DISCOVERED" ↔ r.listingStatus = "DISCOVERED")) :
    r.Known later t' := by
  obtain ⟨v, hv, hnot⟩ := hknown
  refine ⟨_, fun at_ hat => h.current_registered hlater hcodes hreg (hv later hlater) hat, ?_⟩
  cases hchange : changeOf records r.externalCode v with
  | none => exact hnot
  | some r' =>
    obtain ⟨hrecord, hupdate⟩ := Option.filter_eq_some_iff.mp hchange
    have hupdate := of_decide_eq_true hupdate
    rcases hother r' (mem_of_lookupBy hrecord) (key_of_lookupBy hrecord) with rfl | hkind
    · exact absurd hupdate hnot
    · by_cases hr : r.listingStatus = "DISCOVERED"
      · have hr' : r'.listingStatus ≠ "DISCOVERED" := fun hr' => hkind (iff_of_true hr' hr)
        exact not_identityUpdateRequired_of_discovered hr hr'
      · have hr' : r'.listingStatus = "DISCOVERED" := by
          by_contra hr'
          exact hkind (iff_of_false hr' hr)
        have hv := listingStatus_of_identity (identity_of_not_required hr hnot)
        exact absurd hupdate (not_identityUpdateRequired_of_discovered hr' (hv ▸ hr))

/-- What was imported of a code is reported until another import of it. -/
theorem reported_kept {r : ProviderInstrumentRegistration} {at_ : Instant}
    (hr : r.listingStatus ≠ "DISCOVERED") (hreported : r.Reported t at_)
    (hother : later ≤ at_ → ∀ r' ∈ records, r'.externalCode = r.externalCode →
      r'.listingStatus = "DISCOVERED") : r.Reported t' at_ := by
  obtain ⟨v, hv, hidentity⟩ := hreported
  rcases lt_or_ge at_ later with hat | hat
  · exact ⟨v, (h.current_registered_past hlater hcodes hreg _ hat).trans hv, hidentity⟩
  · obtain ⟨m, hm, hkey, hcode, huid, hlast⟩ := h.exists_mapping (hlater.trans hat) hv
    have hnow : t.currentProviderIdentity "NATIVE_TDX" r.externalCode later = some v := by
      rw [← hcode]
      exact (h.current_of_le hm hkey huid hlater).trans hlast
    refine ⟨v, (h.current_registered hlater hcodes hreg hnow hat).trans ?_, hidentity⟩
    cases hchange : changeOf records r.externalCode v with
    | none => rfl
    | some r' =>
      obtain ⟨hrecord, hupdate⟩ := Option.filter_eq_some_iff.mp hchange
      have hr' := hother hat r' (mem_of_lookupBy hrecord) (key_of_lookupBy hrecord)
      exact absurd (of_decide_eq_true hupdate) (not_identityUpdateRequired_of_discovered hr'
        (listingStatus_of_identity hidentity ▸ hr))

omit h hcodes in
/-- A registration that says nothing new writes nothing. -/
theorem eq_of_known (hknown : ∀ r ∈ records, r.Known instant t) : t' = t := by
  have hmissing : missingRecords "NATIVE_TDX" later t records = [] := by
    refine List.filter_eq_nil_iff.mpr fun r hr hnone => ?_
    obtain ⟨v, hv, -⟩ := hknown r hr
    have hsome := hv later hlater
    rw [of_decide_eq_true hnone] at hsome
    cases hsome
  have hupdated : updatedRecords "NATIVE_TDX" later t records = [] := by
    refine List.eq_nil_iff_forall_not_mem.mpr fun y hy => ?_
    obtain ⟨hr, hcurrent, hupdate⟩ := mem_updatedRecords.mp hy
    obtain ⟨v, hv, hnot⟩ := hknown y.1 hr
    rw [hv later hlater, Option.some.injEq] at hcurrent
    exact hnot (hcurrent ▸ hupdate)
  rw [hreg.eq, hmissing, hupdated]
  simp

end Known

end Registration

/-! ## The calls -/

section Calls

variable {call : ReferenceCall} {validFrom : Instant} {t t' : MarketTables}

theorem synchronizeReference_eq_ok {artifacts : ArtifactTables} {directory : List TdxSecurity}
    {uids : ℕ → Uid × Uid} {result : ReferenceUniverse}
    (h : (synchronizeReference artifacts validFrom uids directory).run t = .ok result t') :
    ∃ n, (registerProviderInstruments artifacts "NATIVE_TDX" validFrom
      ((selectedSecurities directory).map TdxSecurity.registration) uids).run t = .ok n t' := by
  obtain ⟨n, t₁, hregister, h⟩ := run_bind_eq_ok.mp h
  obtain ⟨_, t₂, hget, h⟩ := run_bind_eq_ok.mp h
  obtain ⟨-, rfl⟩ := run_get_eq_ok.mp hget
  obtain ⟨-, rfl⟩ := run_pure_eq_ok.mp h
  exact ⟨n, hregister⟩

/-- What an import that returns has checked and written. -/
theorem importListingReferenceFacts_eq_ok {artifacts : ArtifactTables}
    {records : List ProviderInstrumentRegistration} {sha256 sourceRef : String}
    {uids : ℕ → Uid × Uid} {n : ℕ}
    (h : (importListingReferenceFacts artifacts validFrom uids "NATIVE_TDX" records sha256
      sourceRef).run t = .ok n t') :
    (∀ r ∈ records, checkListingFact sha256 sourceRef r = .ok ()) ∧
      (registerProviderInstruments artifacts "NATIVE_TDX" validFrom
        (records.map (ProviderInstrumentRegistration.enriched sha256 sourceRef)) uids).run t =
          .ok n t' := by
  obtain ⟨_, t₁, hdigest, h⟩ := run_bind_eq_ok.mp h
  obtain ⟨-, rfl⟩ := run_fromExcept_eq_ok.mp hdigest
  obtain ⟨_, t₂, hsource, h⟩ := run_bind_eq_ok.mp h
  obtain ⟨-, rfl⟩ := run_require_eq_ok.mp hsource
  obtain ⟨_, t₃, hartifact, h⟩ := run_bind_eq_ok.mp h
  obtain ⟨-, rfl⟩ := run_require_eq_ok.mp hartifact
  obtain ⟨_, t₄, hchecks, h⟩ := run_bind_eq_ok.mp h
  obtain ⟨hfacts, rfl⟩ := run_fromExcept_eq_ok.mp hchecks
  exact ⟨except_forM_eq_ok.mp hfacts, h⟩

theorem listingStatus_of_checkListingFact {sha256 sourceRef : String}
    {r : ProviderInstrumentRegistration} (h : checkListingFact sha256 sourceRef r = .ok ()) :
    r.listingStatus ≠ "DISCOVERED" := by
  obtain ⟨_, hstatus, -⟩ := except_bind_eq_ok.mp h
  have hmem := check_eq_ok.mp hstatus
  intro hdiscovered
  rw [hdiscovered] at hmem
  exact absurd hmem (by decide)

/-- A call that returns registers its records, discovered or imported. -/
theorem ReferenceCall.command_eq_ok {u : Unit} (h : (call.command validFrom).run t = .ok u t') :
    (call.records.map ProviderInstrumentRegistration.externalCode).Nodup ∧
      (∀ r ∈ call.records, r.listingStatus = "DISCOVERED" ↔ call.isImport = false) ∧
      ∃ uids, Registered "NATIVE_TDX" validFrom uids
        (missingRecords "NATIVE_TDX" validFrom t call.records).zipIdx
        (updatedRecords "NATIVE_TDX" validFrom t call.records) t t' := by
  cases call with
  | synchronize artifacts directory uids =>
    obtain ⟨result, t₁, hsync, hpure⟩ := run_bind_eq_ok.mp h
    obtain ⟨-, rfl⟩ := run_pure_eq_ok.mp hpure
    obtain ⟨n, hregister⟩ := synchronizeReference_eq_ok hsync
    obtain ⟨hcodes, hreg⟩ := registerProviderInstruments_eq_ok hregister
    refine ⟨hcodes, fun r hr => ?_, uids, hreg⟩
    obtain ⟨security, -, rfl⟩ := List.mem_map.mp hr
    exact iff_of_true rfl rfl
  | importFacts artifacts records sha256 sourceRef uids =>
    obtain ⟨n, t₁, himport, hpure⟩ := run_bind_eq_ok.mp h
    obtain ⟨-, rfl⟩ := run_pure_eq_ok.mp hpure
    obtain ⟨hfacts, hregister⟩ := importListingReferenceFacts_eq_ok himport
    obtain ⟨hcodes, hreg⟩ := registerProviderInstruments_eq_ok hregister
    refine ⟨hcodes, fun r hr => ?_, uids, hreg⟩
    obtain ⟨fact, hfact, rfl⟩ := List.mem_map.mp hr
    have hstatus := listingStatus_of_checkListingFact (hfacts fact hfact)
    exact iff_of_false (fun hdiscovered => hstatus hdiscovered) (by simp [isImport])

/-- A call that raises writes nothing. -/
theorem ReferenceCall.command_eq_error {e : Exn}
    (h : (call.command validFrom).run t = .error e t') : t' = t := by
  cases call with
  | synchronize artifacts directory uids =>
    rcases run_bind_eq_error.mp h with h | ⟨_, t₁, -, h⟩
    · rcases run_bind_eq_error.mp h with h | ⟨_, t₁, -, h⟩
      · exact registerProviderInstruments_eq_error h
      · rcases run_bind_eq_error.mp h with h | ⟨_, t₂, -, h⟩
        · cases h
        · cases h
    · cases h
  | importFacts artifacts records sha256 sourceRef uids =>
    rcases run_bind_eq_error.mp h with h | ⟨_, t₁, -, h⟩
    · rcases run_bind_eq_error.mp h with h | ⟨_, t₁, hdigest, h⟩
      · exact (run_fromExcept_eq_error.mp h).2.symm
      obtain ⟨-, rfl⟩ := run_fromExcept_eq_ok.mp hdigest
      rcases run_bind_eq_error.mp h with h | ⟨_, t₂, hsource, h⟩
      · exact (run_require_eq_error.mp h).2.2.symm
      obtain ⟨-, rfl⟩ := run_require_eq_ok.mp hsource
      rcases run_bind_eq_error.mp h with h | ⟨_, t₃, hartifact, h⟩
      · exact (run_require_eq_error.mp h).2.2.symm
      obtain ⟨-, rfl⟩ := run_require_eq_ok.mp hartifact
      rcases run_bind_eq_error.mp h with h | ⟨_, t₄, hfacts, h⟩
      · exact (run_fromExcept_eq_error.mp h).2.symm
      obtain ⟨-, rfl⟩ := run_fromExcept_eq_ok.mp hfacts
      exact registerProviderInstruments_eq_error h
    · cases h

end Calls

/-! ## Histories keep the evidence -/

/-- What a record says of a listing. -/
def ProviderInstrumentRegistration.listingState (r : ProviderInstrumentRegistration) :
    ProviderListingState :=
  ⟨r.listingStatus, r.tradingStatus, r.listingEffectiveAt, r.listingEvidenceSha256,
    r.listingSourceRef⟩

/-- The states of the listings of a history. -/
structure ListingEvidenceKept (history : ListingHistory) : Prop where
  /-- A code has at most one instrument. -/
  oneInstrument : ∀ n, ∀ m ∈ (history.state n).providerMapping,
    ∀ m' ∈ (history.state n).providerMapping, m.providerKey = "NATIVE_TDX" →
      m'.providerKey = "NATIVE_TDX" → m.externalCode = m'.externalCode → m.target = m'.target
  /-- The identity versions of an instrument are numbered in the order of their instants. -/
  numbered : ∀ n, ∀ m ∈ (history.state n).providerMapping, m.providerKey = "NATIVE_TDX" →
    ∃ uid, m.target = .instrument uid ∧
      ((history.state n).identities uid).map InstrumentIdentityVersion.version =
        List.range' 1 ((history.state n).identities uid).length ∧
      ((history.state n).identities uid).Pairwise fun v v' => v.validFrom < v'.validFrom
  /-- A call that repeats another writes nothing, unless a call of its kind said something
  else of its codes in between. -/
  repeated : ∀ n k, n < k → history.Returns n → (history.event k).2.Repeats (history.event n).2 →
    (∀ j, n < j → j < k → history.Returns j →
      (history.event n).2.Confirms (history.event j).2) →
    history.state (k + 1) = history.state k
  /-- What an import says of a code is read of it until the next import of it. -/
  evidence : ∀ n k, n < k → history.Returns n → (history.event n).2.isImport = true →
    ∀ r ∈ (history.event n).2.records, ∀ at_, (history.event n).1 ≤ at_ →
    (∀ j, n < j → j < k → history.Returns j → (history.event j).2.isImport = true →
      (history.event j).1 ≤ at_ → ∀ r' ∈ (history.event j).2.records,
        r'.externalCode ≠ r.externalCode) →
    (history.state k).providerListingState "NATIVE_TDX" r.externalCode at_ =
      some r.listingState
  /-- What is read of a past instant does not change. -/
  past : ∀ n k, n ≤ k → ∀ externalCode at_, at_ < (history.event n).1 →
    (history.state k).providerListingState "NATIVE_TDX" externalCode at_ =
      (history.state n).providerListingState "NATIVE_TDX" externalCode at_

namespace ListingHistory

variable (history : ListingHistory)

theorem time_le_succ (n : ℕ) : (history.event n).1 ≤ (history.event (n + 1)).1 := by
  rcases history.times n with h | h
  · exact h.le
  · exact h.1.le

theorem time_mono : Monotone fun n => (history.event n).1 :=
  monotone_nat_of_le_succ history.time_le_succ

/-- The state after a call that raises. -/
theorem state_succ_of_not_returns {n : ℕ} (h : ¬history.Returns n) :
    history.state (n + 1) = history.state n := by
  rw [Returns] at h
  rw [history.steps n]
  cases hrun : ((history.event n).2.command (history.event n).1).run (history.state n) with
  | ok u t' =>
    rw [hrun] at h
    exact absurd rfl h
  | error e t' => exact ReferenceCall.command_eq_error hrun

/-- What a call that returns has registered. -/
theorem registered_of_returns {n : ℕ} (h : history.Returns n) :
    ((history.event n).2.records.map ProviderInstrumentRegistration.externalCode).Nodup ∧
      (∀ r ∈ (history.event n).2.records,
        r.listingStatus = "DISCOVERED" ↔ (history.event n).2.isImport = false) ∧
      ∃ uids, Registered "NATIVE_TDX" (history.event n).1 uids
        (missingRecords "NATIVE_TDX" (history.event n).1 (history.state n)
          (history.event n).2.records).zipIdx
        (updatedRecords "NATIVE_TDX" (history.event n).1 (history.state n)
          (history.event n).2.records) (history.state n) (history.state (n + 1)) := by
  obtain ⟨u, hrun⟩ := eq_ok_of_isOk h
  rw [history.steps n]
  exact ReferenceCall.command_eq_ok hrun

theorem ledger_zero : ListingLedger (history.event 0).1 (history.state 0) where
  owned := history.owned
  distinct := by
    have hpairs : (history.state 0).providerMapping.Pairwise fun _ _ => True :=
      List.pairwise_of_forall fun _ _ => trivial
    exact hpairs.imp_of_mem fun {m _} hm _ _ hkey => absurd hkey (history.unmapped m hm)
  chains m hm hkey := absurd hkey (history.unmapped m hm)

/-- The tables are a ledger before and after every call. -/
theorem ledger (n : ℕ) : ListingLedger (history.event n).1 (history.state n) ∧
    ListingLedger (history.event n).1 (history.state (n + 1)) := by
  have hafter : ∀ n, ListingLedger (history.event n).1 (history.state n) →
      ListingLedger (history.event n).1 (history.state (n + 1)) := by
    intro n h
    by_cases hn : history.Returns n
    · obtain ⟨hcodes, -, uids, hreg⟩ := history.registered_of_returns hn
      exact h.registered le_rfl hcodes hreg
    · rwa [history.state_succ_of_not_returns hn]
  induction n with
  | zero => exact ⟨history.ledger_zero, hafter 0 history.ledger_zero⟩
  | succ n ih =>
    have h : ListingLedger (history.event (n + 1)).1 (history.state (n + 1)) :=
      { ih.2 with
        chains := fun m hm hkey => by
          obtain ⟨huntil, uid, huid, hi, hchain⟩ := ih.2.chains m hm hkey
          exact ⟨huntil, uid, huid, hi, hchain.mono (history.time_le_succ n)⟩ }
    exact ⟨h, hafter _ h⟩

/-- What a call registered is known until a call of its kind says something else. -/
theorem known_until {n : ℕ} (hn : history.Returns n) {r : ProviderInstrumentRegistration}
    (hr : r ∈ (history.event n).2.records) {k : ℕ} (hk : n < k)
    (hconfirms : ∀ j, n < j → j < k → history.Returns j →
      (history.event n).2.Confirms (history.event j).2) :
    r.Known (history.event k).1 (history.state k) := by
  obtain ⟨hcodes, hkind, uids, hreg⟩ := history.registered_of_returns hn
  have hmono : ∀ {k t}, r.Known (history.event k).1 t → r.Known (history.event (k + 1)).1 t := by
    rintro k t ⟨v, hv, hnot⟩
    exact ⟨v, fun at_ hat => hv at_ ((history.time_le_succ k).trans hat), hnot⟩
  induction k, hk using Nat.le_induction with
  | base => exact hmono (known_registered (history.ledger n).1 le_rfl hcodes hreg hr)
  | succ k hk ih =>
    have hknown := ih fun j hj hjk => hconfirms j hj (hjk.trans k.lt_succ_self)
    by_cases hreturns : history.Returns k
    · obtain ⟨hcodes', hkind', uids', hreg'⟩ := history.registered_of_returns hreturns
      refine hmono (known_kept (history.ledger k).1 le_rfl hcodes' hreg' hknown ?_)
      intro r' hr' hcode
      by_cases hsame : (history.event n).2.isImport = (history.event k).2.isImport
      · exact Or.inl (hconfirms k hk k.lt_succ_self hreturns hsame r hr r' hr' hcode.symm)
      · refine Or.inr ?_
        rw [hkind' r' hr', hkind r hr]
        intro hiff
        exact hsame (by
          cases hn' : (history.event n).2.isImport <;> cases hk' : (history.event k).2.isImport <;>
            simp_all)
    · rw [history.state_succ_of_not_returns hreturns]
      exact hmono hknown

/-- What an import said of a code is reported until the next import of it. -/
theorem reported_until {n : ℕ} (hn : history.Returns n)
    (himport : (history.event n).2.isImport = true) {r : ProviderInstrumentRegistration}
    (hr : r ∈ (history.event n).2.records) {at_ : Instant} (hat : (history.event n).1 ≤ at_)
    {k : ℕ} (hk : n < k)
    (hlast : ∀ j, n < j → j < k → history.Returns j → (history.event j).2.isImport = true →
      (history.event j).1 ≤ at_ → ∀ r' ∈ (history.event j).2.records,
        r'.externalCode ≠ r.externalCode) :
    r.Reported (history.state k) at_ := by
  obtain ⟨hcodes, hkind, uids, hreg⟩ := history.registered_of_returns hn
  have hstatus : r.listingStatus ≠ "DISCOVERED" := by
    rw [ne_eq, hkind r hr, himport]
    simp
  induction k, hk using Nat.le_induction with
  | base =>
    obtain ⟨v, hv, hnot⟩ := known_registered (history.ledger n).1 le_rfl hcodes hreg hr
    exact ⟨v, hv at_ hat, identity_of_not_required hstatus hnot⟩
  | succ k hk ih =>
    have hreported := ih fun j hj hjk => hlast j hj (hjk.trans k.lt_succ_self)
    by_cases hreturns : history.Returns k
    · obtain ⟨hcodes', hkind', uids', hreg'⟩ := history.registered_of_returns hreturns
      refine reported_kept (history.ledger k).1 le_rfl hcodes' hreg' hstatus hreported ?_
      intro hle r' hr' hcode
      rw [hkind' r' hr']
      by_contra hk'
      exact hlast k hk k.lt_succ_self hreturns (by simpa using hk') hle r' hr' hcode
    · rwa [history.state_succ_of_not_returns hreturns]

/-- The identity of a code at a past instant stays. -/
theorem current_past {n k : ℕ} (hk : n ≤ k) (externalCode : String) {at_ : Instant}
    (hat : at_ < (history.event n).1) :
    (history.state k).currentProviderIdentity "NATIVE_TDX" externalCode at_ =
      (history.state n).currentProviderIdentity "NATIVE_TDX" externalCode at_ := by
  induction k, hk using Nat.le_induction with
  | base => rfl
  | succ k hk ih =>
    by_cases hreturns : history.Returns k
    · obtain ⟨hcodes, -, uids, hreg⟩ := history.registered_of_returns hreturns
      rw [← ih]
      exact (history.ledger k).1.current_registered_past le_rfl hcodes hreg externalCode
        (hat.trans_le (history.time_mono hk))
    · rw [history.state_succ_of_not_returns hreturns, ih]

/-- However synchronisations and imports alternate, the codes keep one instrument each, their
identity versions are numbered, repetitions write nothing, what was imported stays until it is
imported again, and the past is read as it was. -/
theorem listing_evidence_kept : ListingEvidenceKept history where
  oneInstrument n m hm m' hm' hkey hkey' hcode := by
    by_contra hne
    have hmm' : m ≠ m' := fun h => hne (congrArg ProviderMapping.target h)
    exact ((history.ledger n).1.mapping_distinct hm hm' hkey hkey' hmm').1 hcode
  numbered n m hm hkey := by
    obtain ⟨-, uid, huid, -, hchain⟩ := (history.ledger n).1.chains m hm hkey
    exact ⟨uid, huid, hchain.numbered, hchain.increasing⟩
  repeated n k hk hn hrepeats hconfirms := by
    by_cases hreturns : history.Returns k
    · obtain ⟨-, -, uids, hreg⟩ := history.registered_of_returns hreturns
      refine eq_of_known le_rfl hreg fun r hr => ?_
      exact history.known_until hn (hrepeats.2 ▸ hr) hk hconfirms
    · exact history.state_succ_of_not_returns hreturns
  evidence n k hk hn himport r hr at_ hat hlast := by
    obtain ⟨v, hv, hidentity⟩ := history.reported_until hn himport hr hat hk hlast
    rw [MarketTables.providerListingState, hv, Option.map_some, Option.some.injEq]
    have hstate := congrArg (fun i : ListingIdentity => (⟨i.listingStatus, i.tradingStatus,
      i.listingEffectiveAt, i.listingEvidenceSha256, i.listingSourceRef⟩ :
        ProviderListingState)) hidentity
    exact hstate
  past n k hk externalCode at_ hat := by
    rw [MarketTables.providerListingState, MarketTables.providerListingState,
      history.current_past hk externalCode hat]

/-! ## An import -/

/-- A stock that was listed at 3. -/
def listedStock : ProviderInstrumentRegistration :=
  ⟨"1:600000", .stock, "SSE", "600000", "stock", "LISTED", "NORMAL", some 3, none, none⟩

theorem directoryStock_valid : (1 = 0 ∨ 1 = 1) ∧ IsCode "600000".toList := by decide

theorem directoryStock_named : ¬blank "stock" := by decide

/-- The stock in the directory of the provider. -/
def directoryStock : TdxSecurity :=
  ⟨1, "600000", "stock", .stock, "DISCOVERED", "UNKNOWN", directoryStock_valid,
    directoryStock_named⟩

def listingSha256 : String := String.ofList (List.replicate 64 'a')

/-- The import of the stock, and then synchronisations. -/
def importEvents : ℕ → Instant × ReferenceCall
  | 0 => (5, .importFacts ⟨[⟨listingSha256, 1, "text/csv", "listing", 4⟩], []⟩ [listedStock]
      listingSha256 "exchange" fun _ => ("instrument", "mapping"))
  | n + 1 => (n + 6, .synchronize ⟨[], []⟩ [directoryStock] fun _ => ("other", "other"))

/-- The history over an empty database. -/
def importHistory : ListingHistory where
  toRun := .ofEvents (fun e t => stateAfter ((e.2.command e.1).run t)) .empty importEvents
    fun _ _ => rfl
  unmapped _ hm := by cases hm
  owned _ hv := by cases hv
  times
    | 0 => Or.inl (by decide)
    | n + 1 => Or.inl (Nat.lt_succ_self (n + 6))

/-- What the import says of the stock is read after two synchronisations. -/
theorem imported_listing_is_kept :
    (importHistory.state 3).providerListingState "NATIVE_TDX" "1:600000" 8 =
      some ⟨"LISTED", "NORMAL", some 3, some listingSha256, some "exchange"⟩ := by
  have hreturns : importHistory.Returns 0 := by
    change isOk (((importEvents 0).2.command 5).run .empty) = true
    decide +kernel
  refine (listing_evidence_kept importHistory).evidence 0 3 (by omega) hreturns rfl
    (listedStock.enriched listingSha256 "exchange") (List.mem_singleton_self _) 8 (by decide)
    fun j hj _ _ himport => ?_
  cases j with
  | zero => exact absurd hj (lt_irrefl 0)
  | succ j => cases himport

end ListingHistory

end MarketMonitor
