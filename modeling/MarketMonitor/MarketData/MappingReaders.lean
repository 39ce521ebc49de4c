import MarketMonitor.Library.Keyed
import MarketMonitor.Library.Run
import MarketMonitor.MarketData.Reference

/-!
# The readers of the mappings

Over a history of mappings, recorded conflicts and registrations of a provider, the readers of
its codes agree exactly when every call is safe (`MappingHistory.readers_agree_iff`) : a
conflict is recorded of a code without instruments only, a code of a stock is not mapped to
another kind of instrument, and no registration creates an instrument for a code in conflict.

A reader that keeps the resolved rows and takes the newest of them does not see the newer row
that took its place. It reads what the others do while the rows it keeps are the newest
(`MappingScene.Settled.newestMapping`).
-/

namespace MarketMonitor

open Transaction

/-! ## The newest of the rows that are kept -/

/-- The last of the elements that are kept, when those after a kept one are kept. -/
theorem getLast?_filter_of_pairwise {α : Type} {keep : α → Bool} {xs : List α}
    (h : xs.Pairwise fun a b => keep a = true → keep b = true) :
    (xs.filter keep).getLast? = xs.getLast?.filter keep := by
  rcases List.eq_nil_or_concat xs with rfl | ⟨xs, a, rfl⟩
  · rfl
  rw [List.concat_eq_append, List.pairwise_append] at h
  rw [List.concat_eq_append, List.getLast?_concat, List.filter_append]
  cases ha : keep a with
  | true => rw [List.filter_cons_of_pos ha, List.filter_nil, List.getLast?_concat,
      Option.filter_some_pos ha]
  | false =>
    have hxs : xs.filter keep = [] := by
      refine List.filter_eq_nil_iff.mpr fun b hb hkeep => ?_
      rw [h.2.2 b hb a (List.mem_singleton_self a) hkeep] at ha
      cases ha
    rw [hxs, List.filter_cons_of_neg (by simp [ha]), Option.filter_some_neg (by simp [ha])]
    rfl

/-- The newest of the rows that are kept is the newest row, if that one is kept. -/
theorem latest_filter_of_pairwise {ρ κ : Type} [LinearOrder κ] {key : ρ → κ} {keep : ρ → Bool}
    {rows : List ρ} (hkey : rows.Pairwise fun r r' => key r < key r')
    (hkeep : rows.Pairwise fun r r' => keep r = true → keep r' = true) :
    latest key (rows.filter keep) = (latest key rows).filter keep := by
  rw [latest_eq_getLast? hkey, latest_eq_getLast? (hkey.filter _),
    getLast?_filter_of_pairwise hkeep]

/-! ## Histories -/

/-- A call that writes mappings of a provider. -/
inductive MappingCall where
  | map (externalCode : String) (instrumentUid mappingUid : Uid)
  | conflict (externalCode : String) (mappingUid : Uid)
  | register (artifacts : ArtifactTables) (records : List ProviderInstrumentRegistration)
      (uids : ℕ → Uid × Uid)

/-- A target that a call names for a code. -/
structure ExplicitMapping where
  externalCode : String
  target : MappingTarget
  validFrom : Instant
  deriving DecidableEq

namespace MappingCall

variable (providerKey : String) (validFrom : Instant)

def command : MappingCall → MarketCommand Unit
  | map externalCode instrumentUid mappingUid =>
    mapInstrument providerKey externalCode instrumentUid validFrom mappingUid
  | conflict externalCode mappingUid =>
    recordMappingConflict providerKey externalCode validFrom mappingUid
  | register artifacts records uids => do
    let _ ← registerProviderInstruments artifacts providerKey validFrom records uids

def explicit : MappingCall → List ExplicitMapping
  | map externalCode instrumentUid _ => [⟨externalCode, .instrument instrumentUid, validFrom⟩]
  | conflict externalCode _ => [⟨externalCode, .conflict, validFrom⟩]
  | register _ _ _ => []

end MappingCall

/-- The tables, and what the calls that returned have named. -/
structure MappingScene where
  tables : MarketTables
  explicit : List ExplicitMapping

namespace MappingScene

/-- What a call makes of a scene. -/
def after (providerKey : String) (validFrom : Instant) (call : MappingCall)
    (scene : MappingScene) : MappingScene :=
  match (call.command providerKey validFrom).run scene.tables with
  | .ok _ tables => ⟨tables, scene.explicit ++ call.explicit validFrom⟩
  | .error _ tables => ⟨tables, scene.explicit⟩

/-- What a code was last named to be. -/
def explicitAt (scene : MappingScene) (externalCode : String) (instant : Instant) :
    Option MappingTarget :=
  (latest ExplicitMapping.validFrom (scene.explicit.filter fun e =>
    e.externalCode = externalCode ∧ e.validFrom ≤ instant)).map ExplicitMapping.target

end MappingScene

/-- The calls of a provider at increasing instants, from tables without a mapping of it. -/
structure MappingHistory (providerKey : String) extends
    Run fun (e : Instant × MappingCall) (s s' : MappingScene) =>
      s' = s.after providerKey e.1 e.2 where
  unmapped : ∀ m ∈ (state 0).tables.providerMapping, m.providerKey ≠ providerKey
  unnamed : (state 0).explicit = []
  increasing : StrictMono fun n => (event n).1

/-! ## Agreement -/

/-- The readers of a code at an instant : all of them use one instrument, the ones that look for
stocks if it is one, and none while the code is in conflict. -/
structure ReadersAgree (providerKey : String) (scene : MappingScene) (externalCode : String)
    (instant : Instant) : Prop where
  ingestion : mappedInstrument (scene.tables.mappingAt providerKey externalCode instant) =
    scene.tables.resolveProviderMapping providerKey externalCode instant
  listing : scene.tables.identityMapping providerKey externalCode instant =
    scene.tables.resolveProviderMapping providerKey externalCode instant
  onboarding : scene.tables.onboardingMapping providerKey externalCode instant =
    scene.tables.resolveProviderMapping providerKey externalCode instant
  stock : scene.tables.stockMapping providerKey externalCode instant =
    (scene.tables.resolveProviderMapping providerKey externalCode instant).filter fun uid =>
      scene.tables.OfKind .stock uid
  conflict : scene.explicitAt externalCode instant = some .conflict →
    scene.tables.resolveProviderMapping providerKey externalCode instant = none

/-- How far up the readers keep a target : the stocks are kept by all, a conflict by none but
those that take the newest row. -/
def MappingTarget.standing (tables : MarketTables) : MappingTarget → ℕ
  | .conflict => 0
  | .sector _ => 1
  | .instrument uid => if tables.OfKind .stock uid then 3 else 2

def InstrumentKind.standing : InstrumentKind → ℕ
  | .stock => 3
  | _ => 2

/-- No mapping of a code stands higher. -/
def MarketTables.StandsAtMost (tables : MarketTables) (providerKey externalCode : String)
    (standing : ℕ) : Prop :=
  ∀ m ∈ tables.providerMapping, m.providerKey = providerKey → m.externalCode = externalCode →
    m.target.standing tables ≤ standing

/-- No mapping of the code stands higher than the one the call makes, and it is not made by a
registration for a code in conflict. -/
def SafeCall (providerKey : String) (validFrom : Instant) (scene : MappingScene) :
    MappingCall → Prop
  | .map externalCode instrumentUid _ =>
    scene.tables.StandsAtMost providerKey externalCode
      (MappingTarget.standing scene.tables (.instrument instrumentUid))
  | .conflict externalCode _ => scene.tables.StandsAtMost providerKey externalCode 0
  | .register _ records _ => ∀ record ∈ missingRecords providerKey validFrom scene.tables records,
    scene.tables.StandsAtMost providerKey record.externalCode record.instrumentKind.standing ∧
      scene.explicitAt record.externalCode validFrom ≠ some .conflict

/-- A call that returns is safe. -/
def SafeStep (providerKey : String) (e : Instant × MappingCall) (scene : MappingScene) : Prop :=
  isOk ((e.2.command providerKey e.1).run scene.tables) = true →
    SafeCall providerKey e.1 scene e.2

/-! ## What a call writes -/

/-- A conflict, or an instrument that is there. -/
def MappingTarget.Plain (tables : MarketTables) : MappingTarget → Prop
  | .conflict => True
  | .sector _ => False
  | .instrument uid => uid ∈ tables.instrument.map Instrument.instrumentUid

/-- At most one mapping for a code, in force from an instant, and new instruments. -/
structure Maps (providerKey : String) (validFrom : Instant) (rows : List ProviderMapping)
    (t t' : MarketTables) : Prop where
  mappings : t'.providerMapping = t.providerMapping ++ rows
  instruments : ∃ new, t'.instrument = t.instrument ++ new ∧
    ∀ i ∈ new, ∀ i' ∈ t.instrument, i.instrumentUid ≠ i'.instrumentUid
  key : ∀ m ∈ rows, m.providerKey = providerKey ∧ m.validFrom = validFrom ∧ m.validUntil = none
  codes : rows.Pairwise fun m m' => m.externalCode ≠ m'.externalCode
  plain : ∀ m ∈ rows, m.target.Plain t'

section Maps

variable {providerKey : String} {validFrom : Instant} {rows : List ProviderMapping}
  {t t' : MarketTables}

/-- The kind of an instrument stays. -/
theorem Maps.ofKind_iff (h : Maps providerKey validFrom rows t t') {kind : InstrumentKind}
    {uid : Uid} (huid : uid ∈ t.instrument.map Instrument.instrumentUid) :
    t'.OfKind kind uid ↔ t.OfKind kind uid := by
  obtain ⟨new, hnew, hfresh⟩ := h.instruments
  obtain ⟨i₀, hi₀, rfl⟩ := List.mem_map.mp huid
  constructor
  · rintro ⟨i, hi, huid, hkind⟩
    rw [hnew, List.mem_append] at hi
    rcases hi with hi | hi
    · exact ⟨i, hi, huid, hkind⟩
    · exact absurd huid (hfresh i hi i₀ hi₀)
  · rintro ⟨i, hi, huid, hkind⟩
    exact ⟨i, hnew ▸ List.mem_append_left _ hi, huid, hkind⟩

/-- New instruments change nothing for the mappings that are there. -/
theorem Maps.plain_mono (h : Maps providerKey validFrom rows t t') {target : MappingTarget}
    (hplain : target.Plain t) : target.Plain t' := by
  obtain ⟨new, hnew, -⟩ := h.instruments
  cases target with
  | conflict => trivial
  | sector uid => exact hplain
  | instrument uid =>
    rw [MappingTarget.Plain, hnew, List.map_append]
    exact List.mem_append_left _ hplain

theorem Maps.standing_eq (h : Maps providerKey validFrom rows t t') {target : MappingTarget}
    (hplain : target.Plain t) : target.standing t' = target.standing t := by
  cases target with
  | conflict => rfl
  | sector uid => rfl
  | instrument uid => rw [MappingTarget.standing, MappingTarget.standing, if_congr
      (h.ofKind_iff hplain) rfl rfl]

/-- The rows that a call writes are safe. -/
def SafeRows (providerKey : String) (validFrom : Instant) (rows : List ProviderMapping)
    (t : MarketTables) (scene' : MappingScene) : Prop :=
  ∀ m ∈ rows, t.StandsAtMost providerKey m.externalCode (m.target.standing scene'.tables) ∧
    (scene'.explicitAt m.externalCode validFrom = some .conflict → m.target = .conflict)

/-- A mapping that is added is the one row. -/
theorem maps_of_addMapping {externalCode : String} {target : MappingTarget} {mappingUid : Uid}
    {u : Unit} (htarget : ∀ uid, target ≠ .sector uid)
    (h : (addMapping providerKey externalCode target validFrom mappingUid).run t = .ok u t') :
    Maps providerKey validFrom [⟨mappingUid, providerKey, externalCode, target, validFrom, none⟩]
      t t' := by
  obtain ⟨hknown, rfl⟩ := addMapping_eq_ok h
  refine ⟨rfl, ⟨[], (List.append_nil _).symm, by simp⟩, ?_, List.pairwise_singleton _ _, ?_⟩
  · intro m hm
    rw [List.mem_singleton.mp hm]
    exact ⟨rfl, rfl, rfl⟩
  · intro m hm
    rw [List.mem_singleton.mp hm]
    cases target with
    | conflict => trivial
    | sector uid => exact absurd rfl (htarget uid)
    | instrument uid => exact hknown

/-- A registration adds the mappings of its records. -/
theorem maps_of_registered {uids : ℕ → Uid × Uid} {records : List ProviderInstrumentRegistration}
    {updates : List (ProviderInstrumentRegistration × InstrumentIdentityVersion)}
    (hcodes : (records.map ProviderInstrumentRegistration.externalCode).Nodup)
    (h : Registered providerKey validFrom uids records.zipIdx updates t t') :
    Maps providerKey validFrom
      (records.zipIdx.map (newMapping providerKey validFrom uids)) t t' := by
  refine ⟨by rw [h.eq], ⟨records.zipIdx.map (newInstrument uids), by rw [h.eq], ?_⟩, ?_, ?_, ?_⟩
  · intro i hi
    obtain ⟨x, hx, rfl⟩ := List.mem_map.mp hi
    exact h.fresh x hx
  · intro m hm
    obtain ⟨x, -, rfl⟩ := List.mem_map.mp hm
    exact ⟨rfl, rfl, rfl⟩
  · rw [List.pairwise_map]
    have hpairs : (records.zipIdx.map
        (ProviderInstrumentRegistration.externalCode ∘ Prod.fst)).Nodup := by
      rw [← List.map_map, List.zipIdx_map_fst]
      exact hcodes
    exact List.pairwise_map.mp hpairs
  · intro m hm
    obtain ⟨x, hx, rfl⟩ := List.mem_map.mp hm
    rw [newMapping, MappingTarget.Plain, h.eq, List.map_append]
    exact List.mem_append_right _ (List.mem_map.mpr
      ⟨newInstrument uids x, List.mem_map_of_mem hx, rfl⟩)

/-- The standing of a new mapping is that of the kind of its instrument. -/
theorem standing_of_registered {uids : ℕ → Uid × Uid}
    {missing : List (ProviderInstrumentRegistration × ℕ)}
    {updates : List (ProviderInstrumentRegistration × InstrumentIdentityVersion)}
    (h : Registered providerKey validFrom uids missing updates t t')
    {x : ProviderInstrumentRegistration × ℕ} (hx : x ∈ missing) :
    (newMapping providerKey validFrom uids x).target.standing t' = x.1.instrumentKind.standing := by
  have hkind : ∀ kind, t'.OfKind kind (uids x.2).1 ↔ x.1.instrumentKind = kind := by
    intro kind
    constructor
    · rintro ⟨i, hi, huid, rfl⟩
      rw [h.eq, List.mem_append] at hi
      rcases hi with hi | hi
      · exact absurd huid.symm (h.fresh x hx i hi)
      · obtain ⟨x', hx', rfl⟩ := List.mem_map.mp hi
        by_cases hxx' : x = x'
        · rw [hxx']
          rfl
        · refine absurd huid ?_
          rcases List.pairwise_iff_getElem.mp h.distinct with hdistinct
          obtain ⟨a, ha, rfl⟩ := List.getElem_of_mem hx
          obtain ⟨b, hb, rfl⟩ := List.getElem_of_mem hx'
          rcases lt_trichotomy a b with hab | rfl | hab
          · exact hdistinct a b ha hb hab
          · exact absurd rfl hxx'
          · exact (hdistinct b a hb ha hab).symm
    · rintro rfl
      refine ⟨newInstrument uids x, ?_, rfl, rfl⟩
      rw [h.eq]
      exact List.mem_append_right _ (List.mem_map_of_mem hx)
  rw [newMapping, MappingTarget.standing, if_congr (hkind .stock) rfl rfl]
  cases x.1.instrumentKind <;> rfl

end Maps

namespace MappingCall

variable {providerKey : String} {validFrom : Instant} {call : MappingCall} {scene : MappingScene}
  {t' : MarketTables}

/-- A call that raises writes nothing. -/
theorem command_eq_error {e : Exn}
    (h : (call.command providerKey validFrom).run scene.tables = .error e t') :
    t' = scene.tables := by
  cases call with
  | map externalCode instrumentUid mappingUid => exact run_atomically_eq_error h
  | conflict externalCode mappingUid => exact run_atomically_eq_error h
  | register artifacts records uids =>
    rcases run_bind_eq_error.mp h with h | ⟨n, t₁, -, h⟩
    · exact registerProviderInstruments_eq_error h
    · cases h

/-- A name given after all the others is the last one. -/
theorem explicitAt_concat {explicit : List ExplicitMapping} {e : ExplicitMapping}
    (hbefore : ∀ e' ∈ explicit, e'.validFrom < e.validFrom) :
    MappingScene.explicitAt ⟨t', explicit ++ [e]⟩ e.externalCode e.validFrom = some e.target := by
  rw [MappingScene.explicitAt, List.filter_append,
    List.filter_cons_of_pos (by simp), List.filter_nil,
    latest_concat fun e' he' => hbefore e' (List.mem_filter.mp he').1]
  rfl

/-- A call that returns writes at most one mapping of a code, among them the ones it names, and
they are safe when the call is. -/
theorem command_eq_ok {u : Unit} (hbefore : ∀ e ∈ scene.explicit, e.validFrom < validFrom)
    (h : (call.command providerKey validFrom).run scene.tables = .ok u t') :
    ∃ rows, Maps providerKey validFrom rows scene.tables t' ∧
      (∀ e ∈ call.explicit validFrom, e.validFrom = validFrom ∧ ∃ m ∈ rows,
        m.externalCode = e.externalCode ∧ m.target = e.target) ∧
      (SafeCall providerKey validFrom scene call ↔ SafeRows providerKey validFrom rows
        scene.tables ⟨t', scene.explicit ++ call.explicit validFrom⟩) := by
  cases call with
  | map externalCode instrumentUid mappingUid =>
    refine ⟨_, maps_of_addMapping (by simp) h, ?_, ?_⟩
    · simp [explicit]
    · obtain ⟨-, rfl⟩ := addMapping_eq_ok h
      rw [SafeRows, List.forall_mem_singleton, explicit,
        explicitAt_concat (e := ⟨externalCode, .instrument instrumentUid, validFrom⟩) hbefore]
      exact ⟨fun hsafe => ⟨hsafe, by simp⟩, And.left⟩
  | conflict externalCode mappingUid =>
    refine ⟨_, maps_of_addMapping (by simp) h, ?_, ?_⟩
    · simp [explicit]
    · rw [SafeRows, List.forall_mem_singleton]
      exact ⟨fun hsafe => ⟨hsafe, fun _ => rfl⟩, And.left⟩
  | register artifacts records uids =>
    obtain ⟨n, t₁, hregister, hpure⟩ := run_bind_eq_ok.mp h
    obtain ⟨-, rfl⟩ := run_pure_eq_ok.mp hpure
    obtain ⟨hcodes, hregistered⟩ := registerProviderInstruments_eq_ok hregister
    have hmissing : ((missingRecords providerKey validFrom scene.tables records).map
        ProviderInstrumentRegistration.externalCode).Nodup :=
      hcodes.sublist (List.filter_sublist.map _)
    refine ⟨_, maps_of_registered hmissing hregistered, by simp [explicit], ?_⟩
    rw [SafeCall, SafeRows, List.forall_mem_map, explicit, List.append_nil]
    constructor
    · intro hsafe x hx
      obtain ⟨hstanding, hconflict⟩ := hsafe x.1 (List.fst_mem_of_mem_zipIdx hx)
      exact ⟨standing_of_registered hregistered hx ▸ hstanding, fun hc => absurd hc hconflict⟩
    · intro hsafe record hrecord
      rw [← List.zipIdx_map_fst 0 (missingRecords providerKey validFrom scene.tables records)]
        at hrecord
      obtain ⟨x, hx, rfl⟩ := List.mem_map.mp hrecord
      obtain ⟨hstanding, hconflict⟩ := hsafe x hx
      rw [standing_of_registered hregistered hx] at hstanding
      exact ⟨hstanding, fun hc => by cases hconflict hc⟩

end MappingCall

/-! ## Settled scenes -/

/-- The mappings of a code at an instant. -/
def MarketTables.mappingRows (tables : MarketTables) (providerKey externalCode : String)
    (instant : Instant) : List ProviderMapping :=
  tables.providerMapping.filter fun m =>
    m.providerKey = providerKey ∧ m.externalCode = externalCode ∧ m.validFrom ≤ instant

theorem mem_mappingRows {tables : MarketTables} {providerKey externalCode : String}
    {instant : Instant} {m : ProviderMapping} :
    m ∈ tables.mappingRows providerKey externalCode instant ↔ m ∈ tables.providerMapping ∧
      m.providerKey = providerKey ∧ m.externalCode = externalCode ∧ m.validFrom ≤ instant := by
  rw [MarketTables.mappingRows, List.mem_filter, decide_eq_true_iff]

namespace MappingScene

/-- What safe calls before an instant keep : the mappings of a code come in the order of their
instants and never stand lower than before, and none but a conflict follows a conflict that was
named last. -/
structure Settled (providerKey : String) (instant : Instant) (scene : MappingScene) :
    Prop where
  before : ∀ m ∈ scene.tables.providerMapping, m.providerKey = providerKey →
    m.validFrom < instant
  openEnded : ∀ m ∈ scene.tables.providerMapping, m.providerKey = providerKey →
    m.validUntil = none
  plain : ∀ m ∈ scene.tables.providerMapping, m.providerKey = providerKey →
    m.target.Plain scene.tables
  ordered : scene.tables.providerMapping.Pairwise fun m m' => m.providerKey = providerKey →
    m'.providerKey = providerKey → m.externalCode = m'.externalCode →
      m.validFrom < m'.validFrom ∧
        m.target.standing scene.tables ≤ m'.target.standing scene.tables
  named : ∀ e ∈ scene.explicit, ∃ m ∈ scene.tables.providerMapping,
    m.providerKey = providerKey ∧ m.externalCode = e.externalCode ∧ m.target = e.target ∧
      m.validFrom = e.validFrom
  resolved : ∀ m ∈ scene.tables.providerMapping, m.providerKey = providerKey →
    scene.explicitAt m.externalCode m.validFrom = some .conflict → m.target = .conflict

variable {providerKey : String} {instant : Instant} {scene : MappingScene}

theorem Settled.pairwise_mappingRows (h : scene.Settled providerKey instant)
    (externalCode : String) (at_ : Instant) :
    (scene.tables.mappingRows providerKey externalCode at_).Pairwise fun m m' =>
      m.validFrom < m'.validFrom ∧
        m.target.standing scene.tables ≤ m'.target.standing scene.tables := by
  refine (h.ordered.filter _).imp_of_mem fun {m m'} hm hm' hordered => ?_
  obtain ⟨-, hkey, hcode, -⟩ := mem_mappingRows.mp hm
  obtain ⟨-, hkey', hcode', -⟩ := mem_mappingRows.mp hm'
  exact hordered hkey hkey' (hcode.trans hcode'.symm)

/-- A reader that keeps the targets from some standing on reads the newest row, if that one
stands as high. -/
theorem Settled.newestInstrument (h : scene.Settled providerKey instant) {n : ℕ}
    {keep : MappingTarget → Bool}
    (hkeep : ∀ target, keep target = decide (n ≤ target.standing scene.tables))
    (externalCode : String) (at_ : Instant) :
    scene.tables.newestInstrument providerKey externalCode at_ keep =
      mappedInstrument ((scene.tables.mappingAt providerKey externalCode at_).filter fun target =>
        n ≤ target.standing scene.tables) := by
  have hrows : (scene.tables.providerMapping.filter fun m =>
      m.providerKey = providerKey ∧ m.externalCode = externalCode ∧ keep m.target ∧
        m.validFrom ≤ at_ ∧ ∀ validUntil ∈ m.validUntil, at_ < validUntil) =
      (scene.tables.mappingRows providerKey externalCode at_).filter fun m =>
        n ≤ m.target.standing scene.tables := by
    rw [MarketTables.mappingRows, List.filter_filter]
    refine List.filter_congr fun m hm => ?_
    by_cases hkey : m.providerKey = providerKey
    · simp [hkey, hkeep, h.openEnded m hm hkey, Bool.and_left_comm]
    · simp [hkey]
  have hpairs := h.pairwise_mappingRows externalCode at_
  have hlatest : latest ProviderMapping.validFrom
      ((scene.tables.mappingRows providerKey externalCode at_).filter fun m =>
        n ≤ m.target.standing scene.tables) =
      (latest ProviderMapping.validFrom
        (scene.tables.mappingRows providerKey externalCode at_)).filter fun m =>
        n ≤ m.target.standing scene.tables :=
    latest_filter_of_pairwise (hpairs.imp And.left) (hpairs.imp fun hm hn =>
      decide_eq_true ((of_decide_eq_true hn).trans hm.2))
  rw [MarketTables.newestInstrument, MarketTables.newestMapping, hrows, hlatest,
    MarketTables.mappingAt, Option.filter_map]
  rfl

/-- The newest row of a code. -/
theorem exists_of_mappingAt {providerKey : String}
    {externalCode : String} {at_ : Instant} {target : MappingTarget}
    (htarget : scene.tables.mappingAt providerKey externalCode at_ = some target) :
    ∃ m ∈ scene.tables.mappingRows providerKey externalCode at_, m.target = target ∧
      ∀ m' ∈ scene.tables.mappingRows providerKey externalCode at_,
        m'.validFrom ≤ m.validFrom := by
  obtain ⟨m, hm, htarget⟩ := Option.map_eq_some_iff.mp htarget
  exact ⟨m, mem_of_latest hm, htarget, fun m' hm' => List.le_of_mem_argmax hm' hm⟩

/-- A name that is the last one at an instant is the last one since it was given. -/
theorem explicitAt_of_le {externalCode : String} {at_ : Instant} {e : ExplicitMapping}
    (he : latest ExplicitMapping.validFrom (scene.explicit.filter fun e =>
      e.externalCode = externalCode ∧ e.validFrom ≤ at_) = some e) {since : Instant}
    (hsince : e.validFrom ≤ since) (hle : since ≤ at_) :
    scene.explicitAt externalCode since = some e.target := by
  have hrows : (scene.explicit.filter fun e => e.externalCode = externalCode ∧
      e.validFrom ≤ since) = scene.explicit.filter fun e =>
      e.externalCode = externalCode ∧ e.validFrom ≤ at_ := by
    refine List.filter_congr fun e' he' => decide_eq_decide.mpr ?_
    refine and_congr_right fun hcode => ⟨fun hle' => hle'.trans hle, fun hle' => ?_⟩
    have hmem : e' ∈ scene.explicit.filter fun e =>
        e.externalCode = externalCode ∧ e.validFrom ≤ at_ :=
      List.mem_filter.mpr ⟨he', decide_eq_true ⟨hcode, hle'⟩⟩
    exact (List.le_of_mem_argmax hmem he).trans hsince
  rw [explicitAt, hrows, he]
  rfl

theorem standing_le_three {tables : MarketTables} (target : MappingTarget) :
    target.standing tables ≤ 3 := by
  cases target with
  | conflict => exact Nat.zero_le 3
  | instrument uid =>
    rw [MappingTarget.standing]
    split <;> decide
  | sector uid => exact Nat.one_le_ofNat

theorem two_le_standing {tables : MarketTables} {uid : Uid} :
    2 ≤ MappingTarget.standing tables (.instrument uid) := by
  rw [MappingTarget.standing]
  split <;> decide

theorem three_le_standing_iff {tables : MarketTables} {uid : Uid} :
    3 ≤ MappingTarget.standing tables (.instrument uid) ↔ tables.OfKind .stock uid := by
  rw [MappingTarget.standing]
  split <;> simp [*]

/-- A reader that keeps every instrument. -/
theorem mappedInstrument_filter {tables : MarketTables} {n : ℕ} (hn : n ≤ 2)
    (target : Option MappingTarget) :
    mappedInstrument (target.filter fun target => n ≤ target.standing tables) =
      mappedInstrument target := by
  rcases target with _ | (_ | uid | uid)
  · rfl
  · rw [Option.filter_some]
    split <;> rfl
  · rw [Option.filter_some, if_pos (decide_eq_true (hn.trans two_le_standing))]
  · rw [Option.filter_some]
    split <;> rfl

/-- A reader that keeps the stocks. -/
theorem mappedInstrument_filter_stock {tables : MarketTables} (target : Option MappingTarget) :
    mappedInstrument (target.filter fun target => 3 ≤ target.standing tables) =
      (mappedInstrument target).filter fun uid => tables.OfKind .stock uid := by
  rcases target with _ | (_ | uid | uid)
  · rfl
  · rfl
  · have hstanding : 3 ≤ (MappingTarget.instrument uid).standing tables ↔
        tables.OfKind .stock uid := three_le_standing_iff
    change mappedInstrument _ = (some uid).filter _
    rw [Option.filter_some, Option.filter_some]
    by_cases hstock : tables.OfKind .stock uid
    · rw [if_pos (decide_eq_true (hstanding.mpr hstock)), if_pos (decide_eq_true hstock)]
      rfl
    · rw [if_neg (by simpa [hstanding] using hstock), if_neg (by simpa using hstock)]
      rfl
  · rfl

/-- While a conflict was named last, the newest row is one. -/
theorem Settled.mappingAt_of_conflict (h : scene.Settled providerKey instant)
    {externalCode : String} {at_ : Instant}
    (hnamed : scene.explicitAt externalCode at_ = some .conflict) :
    scene.tables.mappingAt providerKey externalCode at_ = some .conflict := by
  obtain ⟨e, he, htarget⟩ := Option.map_eq_some_iff.mp hnamed
  obtain ⟨hemem, hcode⟩ := List.mem_filter.mp (mem_of_latest he)
  obtain ⟨hcode, hle⟩ := of_decide_eq_true hcode
  obtain ⟨m₀, hm₀, hkey₀, hcode₀, -, hvalid₀⟩ := h.named e hemem
  have hrow₀ : m₀ ∈ scene.tables.mappingRows providerKey externalCode at_ :=
    mem_mappingRows.mpr ⟨hm₀, hkey₀, hcode₀.trans hcode, hvalid₀.trans_le hle⟩
  cases hmapping : scene.tables.mappingAt providerKey externalCode at_ with
  | none =>
    have hnil := List.argmax_eq_none.mp (Option.map_eq_none_iff.mp hmapping)
    exact absurd hrow₀ (by rw [MarketTables.mappingRows, hnil]; simp)
  | some target =>
    -- The row of the conflict is there, so the newest row does not come before it.
    obtain ⟨m, hm, rfl, hnewest⟩ := exists_of_mappingAt hmapping
    obtain ⟨hm, hkey, hmcode, hmle⟩ := mem_mappingRows.mp hm
    have hsince := explicitAt_of_le he (hvalid₀.symm.trans_le (hnewest m₀ hrow₀)) hmle
    rw [← hmcode, htarget] at hsince
    rw [h.resolved m hm hkey hsince]

/-- All the readers of a settled scene agree. -/
theorem Settled.readersAgree (h : scene.Settled providerKey instant) (externalCode : String)
    (at_ : Instant) : ReadersAgree providerKey scene externalCode at_ := by
  have hplain : ∀ target, scene.tables.mappingAt providerKey externalCode at_ = some target →
      target.Plain scene.tables := by
    intro target htarget
    obtain ⟨m, hm, rfl, -⟩ := exists_of_mappingAt htarget
    obtain ⟨hm, hkey, -⟩ := mem_mappingRows.mp hm
    exact h.plain m hm hkey
  have hresolve : scene.tables.resolveProviderMapping providerKey externalCode at_ =
      mappedInstrument (scene.tables.mappingAt providerKey externalCode at_) := by
    rw [MarketTables.resolveProviderMapping]
    split
    · rename_i hmapping
      rw [hmapping, mappedInstrument]
    · rename_i hmapping
      exact (hplain _ hmapping).elim
    · rename_i hinstrument _
      rcases hmapping : scene.tables.mappingAt providerKey externalCode at_ with _ | (_ | uid | uid)
      · rfl
      · rfl
      · exact absurd hmapping (hinstrument uid)
      · exact (hplain _ hmapping).elim
  refine ⟨hresolve.symm, ?_, ?_, ?_, fun hnamed => ?_⟩
  · rw [hresolve, ← mappedInstrument_filter le_rfl]
    refine h.newestInstrument (fun target => ?_) externalCode at_
    cases target with
    | conflict => rfl
    | sector uid => rfl
    | instrument uid => exact (decide_eq_true two_le_standing).symm
  · rw [hresolve, MarketTables.onboardingMapping]
    refine (congrArg (Option.filter _) (h.newestInstrument (n := 1) (fun target => ?_)
      externalCode at_)).trans ?_
    · cases target with
      | conflict => rfl
      | sector uid => rfl
      | instrument uid => exact (decide_eq_true (one_le_two.trans two_le_standing)).symm
    rw [mappedInstrument_filter one_le_two]
    rcases hmapping : scene.tables.mappingAt providerKey externalCode at_ with _ | (_ | uid | uid)
    · rfl
    · rfl
    · obtain ⟨i, hi, rfl⟩ := List.mem_map.mp (hplain _ hmapping)
      exact Option.filter_some_pos (List.any_eq_true.mpr ⟨i, hi, decide_eq_true rfl⟩)
    · exact (hplain _ hmapping).elim
  · rw [hresolve, ← mappedInstrument_filter_stock]
    refine h.newestInstrument (fun target => ?_) externalCode at_
    cases target with
    | conflict => rfl
    | sector uid => rfl
    | instrument uid => exact decide_eq_decide.mpr three_le_standing_iff.symm
  · rw [hresolve, h.mappingAt_of_conflict hnamed]
    rfl

/-- Later, nothing else has changed. -/
theorem Settled.mono (h : scene.Settled providerKey instant) {later : Instant}
    (hlater : instant ≤ later) : scene.Settled providerKey later :=
  { h with before := fun m hm hkey => (h.before m hm hkey).trans_le hlater }

theorem Settled.explicit_before (h : scene.Settled providerKey instant) :
    ∀ e ∈ scene.explicit, e.validFrom < instant := by
  intro e he
  obtain ⟨m, hm, hkey, -, -, hvalid⟩ := h.named e he
  exact hvalid ▸ h.before m hm hkey

section Step

variable {rows : List ProviderMapping} {explicit : List ExplicitMapping} {t' : MarketTables}

/-- Names given later are not read. -/
theorem explicitAt_append (hexplicit : ∀ e ∈ explicit, e.validFrom = instant)
    {externalCode : String} {at_ : Instant} (hat : at_ < instant) :
    explicitAt ⟨t', scene.explicit ++ explicit⟩ externalCode at_ =
      scene.explicitAt externalCode at_ := by
  have hnew :
      (explicit.filter fun e => e.externalCode = externalCode ∧ e.validFrom ≤ at_) = [] := by
    refine List.filter_eq_nil_iff.mpr fun e he => ?_
    simp [hexplicit e he, hat]
  rw [explicitAt, List.filter_append, hnew, List.append_nil]
  rfl

/-- Safe rows leave a settled scene. -/
theorem Settled.step (h : scene.Settled providerKey instant)
    (hmaps : Maps providerKey instant rows scene.tables t')
    (hexplicit : ∀ e ∈ explicit, e.validFrom = instant ∧ ∃ m ∈ rows,
      m.externalCode = e.externalCode ∧ m.target = e.target)
    (hsafe : SafeRows providerKey instant rows scene.tables ⟨t', scene.explicit ++ explicit⟩)
    {later : Instant} (hlater : instant < later) :
    Settled providerKey later ⟨t', scene.explicit ++ explicit⟩ where
  before m hm hkey := by
    rw [hmaps.mappings, List.mem_append] at hm
    rcases hm with hm | hm
    · exact (h.before m hm hkey).trans hlater
    · exact (hmaps.key m hm).2.1 ▸ hlater
  openEnded m hm hkey := by
    rw [hmaps.mappings, List.mem_append] at hm
    rcases hm with hm | hm
    · exact h.openEnded m hm hkey
    · exact (hmaps.key m hm).2.2
  plain m hm hkey := by
    rw [hmaps.mappings, List.mem_append] at hm
    rcases hm with hm | hm
    · exact hmaps.plain_mono (h.plain m hm hkey)
    · exact hmaps.plain m hm
  ordered := by
    rw [hmaps.mappings, List.pairwise_append]
    refine ⟨h.ordered.imp_of_mem fun {m m'} hm hm' hordered hkey hkey' hcode => ?_,
      hmaps.codes.imp fun hcodes _ _ hcode => absurd hcode hcodes,
      fun m hm m' hm' hkey _ hcode => ?_⟩
    · rw [hmaps.standing_eq (h.plain m hm hkey), hmaps.standing_eq (h.plain m' hm' hkey')]
      exact hordered hkey hkey' hcode
    · rw [hmaps.standing_eq (h.plain m hm hkey)]
      exact ⟨(hmaps.key m' hm').2.1 ▸ h.before m hm hkey, (hsafe m' hm').1 m hm hkey hcode⟩
  named e he := by
    rw [hmaps.mappings]
    rcases List.mem_append.mp he with he | he
    · obtain ⟨m, hm, hm'⟩ := h.named e he
      exact ⟨m, List.mem_append_left _ hm, hm'⟩
    · obtain ⟨hvalid, m, hm, hcode, htarget⟩ := hexplicit e he
      obtain ⟨hkey, hfrom, -⟩ := hmaps.key m hm
      exact ⟨m, List.mem_append_right _ hm, hkey, hcode, htarget, hfrom.trans hvalid.symm⟩
  resolved m hm hkey hnamed := by
    rw [hmaps.mappings, List.mem_append] at hm
    rcases hm with hm | hm
    · rw [explicitAt_append (fun e he => (hexplicit e he).1) (h.before m hm hkey)] at hnamed
      exact h.resolved m hm hkey hnamed
    · rw [(hmaps.key m hm).2.1] at hnamed
      exact (hsafe m hm).2 hnamed

/-- The row that a call writes for a code is the newest. -/
theorem Settled.mappingAt_eq (h : scene.Settled providerKey instant)
    (hmaps : Maps providerKey instant rows scene.tables t') {m : ProviderMapping} (hm : m ∈ rows) :
    t'.mappingAt providerKey m.externalCode instant = some m.target := by
  have hnew : (rows.filter fun m' => m'.providerKey = providerKey ∧
      m'.externalCode = m.externalCode ∧ m'.validFrom ≤ instant) = [m] := by
    have hnodup : (rows.map ProviderMapping.externalCode).Nodup := List.pairwise_map.mpr hmaps.codes
    have hrows : (rows.filter fun m' => m'.providerKey = providerKey ∧
        m'.externalCode = m.externalCode ∧ m'.validFrom ≤ instant) =
        rows.filter fun m' => m'.externalCode = m.externalCode := by
      refine List.filter_congr fun m' hm' => decide_eq_decide.mpr ?_
      obtain ⟨hkey, hfrom, -⟩ := hmaps.key m' hm'
      exact ⟨fun h' => h'.2.1, fun hcode => ⟨hkey, hcode, hfrom.le⟩⟩
    rw [hrows, Keyed.filter_eq_toList_lookupBy hnodup, Keyed.lookupBy_of_mem hnodup hm]
    rfl
  rw [MarketTables.mappingAt, hmaps.mappings, List.filter_append, hnew,
    latest_concat fun m' hm' => ?_]
  · rfl
  · obtain ⟨hm', hkey⟩ := List.mem_filter.mp hm'
    rw [(hmaps.key m hm).2.1]
    exact h.before m' hm' (of_decide_eq_true hkey).1

/-- A reader that keeps some row of a code reads an instrument. -/
theorem newestInstrument_ne_none {tables : MarketTables} {externalCode : String}
    {keep : MappingTarget → Bool} (hkeep : ∀ target, keep target = true → ∃ uid,
      target = .instrument uid) {m : ProviderMapping} (hm : m ∈ tables.providerMapping)
    (hkey : m.providerKey = providerKey) (hcode : m.externalCode = externalCode)
    (hkept : keep m.target = true) (hfrom : m.validFrom ≤ instant) (huntil : m.validUntil = none) :
    tables.newestInstrument providerKey externalCode instant keep ≠ none := by
  rw [MarketTables.newestInstrument, MarketTables.newestMapping]
  cases hlatest : latest ProviderMapping.validFrom (tables.providerMapping.filter fun m =>
      m.providerKey = providerKey ∧ m.externalCode = externalCode ∧ keep m.target ∧
        m.validFrom ≤ instant ∧ ∀ validUntil ∈ m.validUntil, instant < validUntil) with
  | none =>
    have hmem : m ∈ tables.providerMapping.filter fun m =>
        m.providerKey = providerKey ∧ m.externalCode = externalCode ∧ keep m.target ∧
          m.validFrom ≤ instant ∧ ∀ validUntil ∈ m.validUntil, instant < validUntil :=
      List.mem_filter.mpr ⟨hm, decide_eq_true ⟨hkey, hcode, hkept, hfrom, by simp [huntil]⟩⟩
    rw [List.argmax_eq_none.mp hlatest] at hmem
    cases hmem
  | some newest =>
    obtain ⟨-, hnewest⟩ := List.mem_filter.mp (mem_of_latest hlatest)
    obtain ⟨uid, huid⟩ := hkeep _ (of_decide_eq_true hnewest).2.2.1
    rw [Option.map_some, huid, mappedInstrument]
    exact Option.some_ne_none uid

/-- Where the readers agree after a call, its rows were safe. -/
theorem Settled.safeRows (h : scene.Settled providerKey instant)
    (hmaps : Maps providerKey instant rows scene.tables t')
    (hagree : ∀ externalCode, ReadersAgree providerKey ⟨t', scene.explicit ++ explicit⟩
      externalCode instant) :
    SafeRows providerKey instant rows scene.tables ⟨t', scene.explicit ++ explicit⟩ := by
  intro m hm
  obtain ⟨-, hlisting, -, hstock, hconflict⟩ := hagree m.externalCode
  have hplain := hmaps.plain m hm
  have hresolve : t'.resolveProviderMapping providerKey m.externalCode instant =
      mappedInstrument (some m.target) := by
    rw [MarketTables.resolveProviderMapping, h.mappingAt_eq hmaps hm]
    cases htarget : m.target with
    | conflict => rfl
    | instrument uid => rfl
    | sector uid =>
      rw [htarget] at hplain
      exact hplain.elim
  simp only [hresolve] at hlisting hstock hconflict
  refine ⟨fun m' hm' hkey hcode => ?_, fun hnamed => ?_⟩
  · by_contra hlt
    rw [not_le, ← hmaps.standing_eq (h.plain m' hm' hkey)] at hlt
    have hplain' := hmaps.plain_mono (h.plain m' hm' hkey)
    have hmem : m' ∈ t'.providerMapping := hmaps.mappings ▸ List.mem_append_left _ hm'
    have hfrom : m'.validFrom ≤ instant := (h.before m' hm' hkey).le
    have huntil := h.openEnded m' hm' hkey
    obtain ⟨uid', htarget'⟩ : ∃ uid, m'.target = .instrument uid := by
      cases htarget' : m'.target with
      | conflict =>
        rw [htarget'] at hlt
        exact absurd hlt (Nat.not_lt_zero _)
      | instrument uid => exact ⟨uid, rfl⟩
      | sector uid =>
        rw [htarget'] at hplain'
        exact hplain'.elim
    rw [htarget'] at hlt
    cases htarget : m.target with
    | sector uid =>
      rw [htarget] at hplain
      exact hplain.elim
    | conflict =>
      -- A conflict after an instrument : the listing states still have the instrument.
      rw [htarget] at hlisting
      refine newestInstrument_ne_none (fun target hkept => ?_) hmem hkey hcode ?_ hfrom huntil
        hlisting
      · cases target with
        | conflict => cases hkept
        | instrument uid => exact ⟨uid, rfl⟩
        | sector uid => cases hkept
      · rw [htarget']
    | instrument uid =>
      -- Another instrument after a stock : the readers of stocks still have the stock.
      rw [htarget] at hlt hstock
      have hother : ¬t'.OfKind .stock uid := by
        intro hkind
        have hle := (three_le_standing_iff.mpr hkind).trans_lt hlt
        exact absurd hle (not_lt.mpr (standing_le_three _))
      have hkind : t'.OfKind .stock uid' :=
        three_le_standing_iff.mp (Nat.succ_le_of_lt (two_le_standing.trans_lt hlt))
      rw [mappedInstrument, Option.filter_some_neg (by simpa using hother)] at hstock
      refine newestInstrument_ne_none (fun target hkept => ?_) hmem hkey hcode ?_ hfrom huntil
        hstock
      · cases target with
        | conflict => cases hkept
        | instrument uid => exact ⟨uid, rfl⟩
        | sector uid => cases hkept
      · rw [htarget']
        exact decide_eq_true hkind
  · have hnone := hconflict hnamed
    cases htarget : m.target with
    | conflict => rfl
    | instrument uid =>
      rw [htarget] at hnone
      cases hnone
    | sector uid =>
      rw [htarget] at hplain
      exact hplain.elim

end Step

end MappingScene

/-! ## Agreement over a history -/

namespace MappingHistory

variable {providerKey : String} (history : MappingHistory providerKey)

/-- A history starts settled. -/
theorem settled_zero : (history.state 0).Settled providerKey (history.event 0).1 where
  before m hm hkey := absurd hkey (history.unmapped m hm)
  openEnded m hm hkey := absurd hkey (history.unmapped m hm)
  plain m hm hkey := absurd hkey (history.unmapped m hm)
  ordered := by
    have hpairs : (history.state 0).tables.providerMapping.Pairwise fun _ _ => True :=
      List.pairwise_of_forall fun _ _ => trivial
    exact hpairs.imp_of_mem fun {m _} hm _ _ hkey => absurd hkey (history.unmapped m hm)
  named e he := by
    rw [history.unnamed] at he
    cases he
  resolved m hm hkey := absurd hkey (history.unmapped m hm)

/-- A call at a settled scene leaves one exactly when it is safe, and the readers differ after
a call that is not. -/
theorem step_of_settled {n : ℕ} (h : (history.state n).Settled providerKey (history.event n).1) :
    ((∀ externalCode, ReadersAgree providerKey (history.state (n + 1)) externalCode
      (history.event n).1) → SafeStep providerKey (history.event n) (history.state n)) ∧
    (SafeStep providerKey (history.event n) (history.state n) →
      (history.state (n + 1)).Settled providerKey (history.event (n + 1)).1) := by
  have hlater : (history.event n).1 < (history.event (n + 1)).1 :=
    history.increasing n.lt_succ_self
  rw [history.steps n, MappingScene.after, SafeStep]
  cases hrun : ((history.event n).2.command providerKey (history.event n).1).run
      (history.state n).tables with
  | ok u t' =>
    obtain ⟨rows, hmaps, hexplicit, hsafe⟩ := MappingCall.command_eq_ok h.explicit_before hrun
    exact ⟨fun hagree _ => hsafe.mpr (h.safeRows hmaps hagree),
      fun hcall => h.step hmaps hexplicit (hsafe.mp (hcall rfl)) hlater⟩
  | error e t' =>
    obtain rfl := MappingCall.command_eq_error hrun
    exact ⟨fun _ hok => (by cases hok), fun _ => h.mono hlater.le⟩

/-- All the readers of the codes of a provider agree in every scene and at every instant, and
use nothing for a code in conflict, exactly when every call is safe. -/
theorem readers_agree_iff :
    (∀ n externalCode instant, ReadersAgree providerKey (history.state n) externalCode instant) ↔
      ∀ n, SafeStep providerKey (history.event n) (history.state n) := by
  constructor
  · intro hagree
    have hsettled : ∀ n, (history.state n).Settled providerKey (history.event n).1 := by
      intro n
      induction n with
      | zero => exact history.settled_zero
      | succ n ih =>
        obtain ⟨hsafe, hnext⟩ := history.step_of_settled ih
        exact hnext (hsafe fun externalCode => hagree (n + 1) externalCode _)
    exact fun n => (history.step_of_settled (hsettled n)).1
      fun externalCode => hagree (n + 1) externalCode _
  · intro hsafe n
    have hsettled : (history.state n).Settled providerKey (history.event n).1 := by
      induction n with
      | zero => exact history.settled_zero
      | succ n ih => exact (history.step_of_settled ih).2 (hsafe n)
    exact hsettled.readersAgree

end MappingHistory

/-! ## A conflict after a mapping -/

/-- Tables with one stock. -/
def oneStock : MarketTables :=
  { MarketTables.empty with instrument := [⟨"I", .stock⟩] }

/-- A code is mapped to a stock and then recorded to be in conflict. -/
def conflictCalls : ℕ → Instant × MappingCall
  | 0 => (0, .map "1:600000" "I" "M0")
  | 1 => (1, .conflict "1:600000" "M1")
  | n + 2 => (n + 2, .register ⟨[], []⟩ [] fun _ => ("", ""))

def conflictHistory : MappingHistory "NATIVE_TDX" where
  toRun := Run.ofEvents (fun e s => s.after "NATIVE_TDX" e.1 e.2) ⟨oneStock, []⟩ conflictCalls
    fun _ _ => rfl
  unmapped := by
    intro m hm
    cases hm
  unnamed := rfl
  increasing := strictMono_nat_of_lt_succ fun n => by
    rcases n with _ | _ | n
    · decide
    · decide
    · exact Nat.lt_succ_self _

/-- The listing states still use the instrument of a code in conflict. -/
theorem listing_of_conflict_differs :
    ¬∀ (providerKey : String) (history : MappingHistory providerKey) (n : ℕ)
      (externalCode : String) (instant : Instant),
      ReadersAgree providerKey (history.state n) externalCode instant := by
  intro h
  exact absurd (h "NATIVE_TDX" conflictHistory 2 "1:600000" 1).listing (by decide)

end MarketMonitor
