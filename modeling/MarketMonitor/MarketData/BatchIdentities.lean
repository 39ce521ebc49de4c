import MarketMonitor.MarketData.Acquisition

/-!
# The identities of the batches of a cycle

A cycle polls the quotes and refreshes the supporting data at one instant. A poll numbers its
batches from zero on, and a refresh has the fixed numbers 100 and 101. The batches of a cycle
are told apart, and all ingested, exactly when the poll accepts no batch with a number that
the refresh uses, every batch but the last can be stored, and the columns hold the new quotes
of the last (`cycle_ingested_iff`).
-/

namespace MarketMonitor

open Transaction

/-! ## The calls of a cycle -/

/-- A call of `ingest` : the number and the quotes of its batch, and the database it finds. -/
structure IngestCall where
  sequence : ℕ
  quotes : List TdxQuote
  tables : MarketTables

/-- The identifier of the batch of a call. -/
def IngestCall.identifier (call : IngestCall) (observedAt : Instant) : String :=
  batchIdentifier observedAt call.sequence

/-- The calls of `_ingest_batch` : one, when there are quotes. -/
def batchCalls (sequence : ℕ) (quotes : List TdxQuote) (t : MarketTables) : List IngestCall :=
  if quotes = [] then [] else [⟨sequence, quotes, t⟩]

/-- The calls a poll makes for its accepted batches, up to one that raises. -/
def NativeTdxProvider.ingestCalls (p : NativeTdxProvider) (epochUid : Uid) (given : Poll) :
    ℕ → List (List TdxQuote) → MarketTables → List IngestCall
  | _, [], _ => []
  | sequence, quotes :: batches, t =>
    batchCalls sequence quotes t ++
      match (p.ingestBatch epochUid given.observedAt quotes sequence
          (given.uids sequence)).run t with
      | .ok _ t' => p.ingestCalls epochUid given (sequence + 1) batches t'
      | .error _ _ => []

/-- The calls of `poll_once`. -/
def NativeTdxProvider.pollCalls (p : NativeTdxProvider) (epochUid : Uid) (given : Poll)
    (s : ProviderState) : List IngestCall :=
  match p.tdxUniverse with
  | none => []
  | some tdxUniverse =>
    match (acquireBatches epochUid given.gateway given.observedAt (batchesOf
      (s.tables.eligible epochUid given.observedAt tdxUniverse) 75)).run s with
    | .ok accepted s' => p.ingestCalls epochUid given 0 accepted.1 s'.tables
    | .error _ _ => []

/-- The calls of `_refresh_context_quotes`. -/
def contextCalls (given : Poll) (instruments : List TdxInstrument) (sequence : ℕ)
    (t : MarketTables) : List IngestCall :=
  match contextAccepted given.gateway given.observedAt instruments with
  | .ok quotes => batchCalls sequence quotes t
  | .error _ => []

/-- The calls of `refresh_supporting_data`. -/
def NativeTdxProvider.refreshCalls (p : NativeTdxProvider) (epochUid : Uid) (given : Poll)
    (t : MarketTables) : List IngestCall :=
  match p.tdxUniverse with
  | none => []
  | some tdxUniverse =>
    contextCalls given tdxUniverse.contextIndexes 100 t ++
      match (p.refreshContextQuotes epochUid given tdxUniverse.contextIndexes "INDEX_QUOTES"
        100).run t with
      | .ok _ t' => contextCalls given tdxUniverse.contextEtfs 101 t'
      | .error _ _ => []

/-- A cycle : a poll, and a refresh unless the poll raises. The gateway is asked for no list of
instruments twice. -/
def NativeTdxProvider.cycle (p : NativeTdxProvider) (epochUid : Uid) (given : Poll)
    (rest : OtherWrites) : ProviderCommand PUnit := do
  let _ ← p.pollOnce epochUid given
  p.refreshSupportingData epochUid given rest

/-- The calls of a cycle, in their order. -/
def NativeTdxProvider.cycleCalls (p : NativeTdxProvider) (epochUid : Uid) (given : Poll)
    (s : ProviderState) : List IngestCall :=
  p.pollCalls epochUid given s ++
    match (p.pollOnce epochUid given).run s with
    | .ok _ s' => p.refreshCalls epochUid given s'.tables
    | .error _ _ => []

/-! ## What a cycle accepts -/

/-- The requests of a poll. -/
def TdxUniverse.requests (tdxUniverse : TdxUniverse) (epochUid : Uid) (given : Poll)
    (t : MarketTables) : List (List TdxInstrument) :=
  batchesOf (t.eligible epochUid given.observedAt tdxUniverse) 75

/-- The accepted quotes of some context instruments, none when the request raises. -/
def acceptedContext (given : Poll) (instruments : List TdxInstrument) : List TdxQuote :=
  match contextAccepted given.gateway given.observedAt instruments with
  | .ok quotes => quotes
  | .error _ => []

/-- The accepted quotes of the context indexes. -/
def TdxUniverse.indexQuotes (tdxUniverse : TdxUniverse) (given : Poll) : List TdxQuote :=
  acceptedContext given tdxUniverse.contextIndexes

/-- The accepted quotes of the context ETFs, which are asked for after the indexes. -/
def TdxUniverse.etfQuotes (tdxUniverse : TdxUniverse) (given : Poll) : List TdxQuote :=
  match contextAccepted given.gateway given.observedAt tdxUniverse.contextIndexes with
  | .ok _ => acceptedContext given tdxUniverse.contextEtfs
  | .error _ => []

/-- The accepted batches of a cycle : those of the poll, of the indexes and of the ETFs. -/
structure CycleBatches where
  polled : List (List TdxQuote)
  indexes : List TdxQuote
  etfs : List TdxQuote

namespace CycleBatches

/-- The batches, in the order they are ingested in. -/
def all (b : CycleBatches) : List (List TdxQuote) :=
  b.polled ++ (batchOfQuotes b.indexes ++ batchOfQuotes b.etfs)

/-- No batch of the poll has the number of a batch of the refresh. -/
structure ToldApart (b : CycleBatches) : Prop where
  indexes : b.polled.length ≤ 100 ∨ b.indexes = []
  etfs : b.polled.length ≤ 101 ∨ b.etfs = []

end CycleBatches

/-- What the cycle accepts. A poll whose acquisition raises accepts nothing, and no refresh
follows it. -/
def NativeTdxProvider.cycleBatches (p : NativeTdxProvider) (epochUid : Uid) (given : Poll)
    (s : ProviderState) : CycleBatches :=
  match p.tdxUniverse with
  | none => ⟨[], [], []⟩
  | some tdxUniverse =>
    match acceptedOf s.previousQuotes given.gateway given.observedAt
      (tdxUniverse.requests epochUid given s.tables) with
    | .ok polled => ⟨polled, tdxUniverse.indexQuotes given, tdxUniverse.etfQuotes given⟩
    | .error _ => ⟨[], [], []⟩

/-! ## What a cycle should do -/

/-- The batch of a call is in a database, with a record for each of its quotes. -/
def IngestCall.Recorded (call : IngestCall) (epochUid : Uid) (observedAt : Instant)
    (t : MarketTables) : Prop :=
  ∃ b ∈ t.marketDataBatch, b.epochUid = epochUid ∧
    b.providerBatchId = call.identifier observedAt ∧
    ∀ q ∈ call.quotes, ∃ r ∈ t.rawMarketRecord,
      r.batchUid = b.batchUid ∧ r.externalCode = q.instrument.externalCode

/-- The batches of a cycle are told apart by their identifiers, none is answered by the result
of another, and every accepted batch is ingested. -/
structure NativeTdxProvider.CycleIngested (p : NativeTdxProvider) (epochUid : Uid) (given : Poll)
    (rest : OtherWrites) (s : ProviderState) : Prop where
  distinct : ((p.cycleCalls epochUid given s).map (IngestCall.identifier · given.observedAt)).Nodup
  unanswered : ∀ call ∈ p.cycleCalls epochUid given s,
    call.tables.existingBatch epochUid (call.identifier given.observedAt) = none
  every : (p.cycleCalls epochUid given s).map IngestCall.quotes =
    (p.cycleBatches epochUid given s).all
  recorded : ∀ call ∈ p.cycleCalls epochUid given s,
    call.Recorded epochUid given.observedAt
      (stateAfter ((p.cycle epochUid given rest).run s)).tables

/-- The columns of `market_quote` hold every quote whose business key is in no lineage, and is
that of no quote before it. -/
def NativeTdxProvider.HoldsNew (p : NativeTdxProvider) (t : MarketTables)
    (epoch : MarketSourceEpoch) (now : Instant) (quotes : List TdxQuote) : Prop :=
  ∀ before q after, quotes = before ++ q :: after → ∀ key ∈ p.keyOf? t epoch now q,
    key ∉ t.keys → (∀ q' ∈ before, p.keyOf? t epoch now q' ≠ some key) → (p.record q).Bindable

/-- The batches of a cycle are told apart, the quotes of every one but the last can be stored,
and the columns hold the new quotes. -/
structure NativeTdxProvider.CycleFits (p : NativeTdxProvider) (epoch : MarketSourceEpoch)
    (given : Poll) (s : ProviderState) : Prop where
  apart : (p.cycleBatches epoch.epochUid given s).ToldApart
  stored : p.StoresAll s.tables epoch given.observedAt
    (p.cycleBatches epoch.epochUid given s).all.dropLast.flatten
  held : p.HoldsNew s.tables epoch given.observedAt
    (p.cycleBatches epoch.epochUid given s).all.flatten

/-- What a cycle meets : an epoch, a time after all batches of the epoch and new identifiers. -/
structure CycleValid (epochUid : Uid) (epoch : MarketSourceEpoch) (given : Poll)
    (t : MarketTables) : Prop where
  epoch : t.epoch? epochUid = some epoch
  now_lt : given.observedAt < maxInstant
  past : ∀ b ∈ t.marketDataBatch, b.epochUid = epochUid → b.receivedAt < given.observedAt
  fresh : ∀ j, (given.uids j).Fresh t
  disjoint : ∀ j k, j ≠ k → (given.uids j).Disjoint (given.uids k)
  reports : ∀ capability, ∀ r ∈ t.capabilityHealthReport,
    r.reportUid ≠ given.healthUid capability
  healthUid_inj : given.healthUid.Injective

/-! ## Databases that grow -/

/-- The batches and the records of a database are in another. -/
structure Grows (t t' : MarketTables) : Prop where
  batches : ∀ b ∈ t.marketDataBatch, ∃ b' ∈ t'.marketDataBatch, b'.batchUid = b.batchUid ∧
    b'.epochUid = b.epochUid ∧ b'.providerBatchId = b.providerBatchId
  records : ∀ r ∈ t.rawMarketRecord, r ∈ t'.rawMarketRecord

variable {t t' t'' : MarketTables} {epochUid : Uid} {now : Instant} {given : Poll}
  {p : NativeTdxProvider} {epoch : MarketSourceEpoch} {uids : ℕ → IngestUids} {sequence : ℕ}
  {quotes : List TdxQuote}

theorem Grows.trans (h : Grows t t') (h' : Grows t' t'') : Grows t t'' where
  batches b hb := by
    obtain ⟨b', hb', huid, hepoch, hid⟩ := h.batches b hb
    obtain ⟨b'', hb'', huid', hepoch', hid'⟩ := h'.batches b' hb'
    exact ⟨b'', hb'', huid'.trans huid, hepoch'.trans hepoch, hid'.trans hid⟩
  records r hr := h'.records r (h.records r hr)

theorem SameQuotes.grows (h : SameQuotes t t') : Grows t t' where
  batches b hb := ⟨b, h.batches ▸ hb, rfl, rfl, rfl⟩
  records _ hr := h.records ▸ hr

theorem IngestCall.Recorded.grows {call : IngestCall} (h : call.Recorded epochUid now t)
    (hgrows : Grows t t') : call.Recorded epochUid now t' := by
  obtain ⟨b, hb, hepoch, hid, hrecords⟩ := h
  obtain ⟨b', hb', huid, hepoch', hid'⟩ := hgrows.batches b hb
  refine ⟨b', hb', hepoch'.trans hepoch, hid'.trans hid, fun q hq => ?_⟩
  obtain ⟨r, hr, hbatch, hcode⟩ := hrecords q hq
  exact ⟨r, hgrows.records r hr, hbatch.trans huid.symm, hcode⟩

theorem grows_addBatch (ctx : IngestContext) (batch : ProviderBatch) (status : BatchStatus)
    (t : MarketTables) : Grows t (t.addBatch ctx batch status) where
  batches b hb := by
    refine ⟨_, List.mem_map_of_mem (List.mem_append_left _ hb), ?_⟩
    split
    · exact ⟨rfl, rfl, rfl⟩
    · exact ⟨rfl, rfl, rfl⟩
  records r hr := List.mem_append_left _ hr

/-- A batch is recorded once it is added. -/
theorem recorded_addBatch (status : BatchStatus) (t t₀ : MarketTables) :
    IngestCall.Recorded ⟨sequence, quotes, t₀⟩ epoch.epochUid now
      (t.addBatch (p.contextOf epoch now (uids sequence)) (p.batchOf now sequence quotes)
        status) := by
  refine ⟨_, List.mem_map_of_mem (List.mem_append_right _ (List.mem_singleton_self _)), ?_⟩
  rw [if_pos rfl]
  refine ⟨rfl, rfl, fun q hq => ?_⟩
  obtain ⟨before, after, rfl⟩ := List.append_of_mem hq
  refine ⟨rawRow (p.contextOf epoch now (uids sequence))
    (t.mappingOf (p.contextOf epoch now (uids sequence))) (0 + (before.map p.record).length)
    (p.record q), List.mem_append_right _ (mem_rawRows_iff.mpr ⟨before.map p.record, p.record q,
      after.map p.record, ?_, rfl⟩), rfl, rfl⟩
  rw [NativeTdxProvider.batchOf, List.map_append, List.map_cons]

theorem SameQuotes.recorded_iff {call : IngestCall} (h : SameQuotes t t') :
    call.Recorded epochUid now t' ↔ call.Recorded epochUid now t := by
  unfold IngestCall.Recorded
  rw [h.batches, h.records]

/-! ## Quotes the columns hold -/

theorem holdsNew_nil (p : NativeTdxProvider) (t : MarketTables) (epoch : MarketSourceEpoch)
    (now : Instant) : p.HoldsNew t epoch now [] :=
  fun before _ _ h =>
    absurd h.symm (List.append_ne_nil_of_right_ne_nil before (List.cons_ne_nil _ _))

theorem holdsNew_of_storable (h : ∀ q ∈ quotes, q.Storable) : p.HoldsNew t epoch now quotes := by
  rintro before q after rfl key hkey hnew hfirst
  exact ((TdxQuote.storable_iff p).mp
    (h q (List.mem_append_right _ List.mem_cons_self))).2

/-- The new quotes are the ones a batch adds. -/
theorem holdsNew_iff (uids : IngestUids) : p.HoldsNew t epoch now quotes ↔
    ∀ e ∈ t.batchQuotes (p.contextOf epoch now uids) (quotes.map p.record),
      e.record.Bindable := by
  constructor
  · intro h e he
    obtain ⟨before', after', hrecords, -, hfirst⟩ := mem_newQuotes_iff.mp he
    obtain ⟨before, rest, rfl, rfl, hrest⟩ := List.map_eq_append_iff.mp hrecords
    obtain ⟨q, after, rfl, hq, rfl⟩ := List.map_eq_cons_iff.mp hrest
    rw [← hq] at hfirst ⊢
    refine h before q after rfl _ ((keyOf?_eq_some_iff uids).mpr ⟨_, hfirst.mapped, rfl⟩)
      hfirst.new fun q' hq' hkey => ?_
    obtain ⟨uid, huid, heq⟩ := (keyOf?_eq_some_iff uids).mp hkey
    exact hfirst.first _ (List.mem_map_of_mem hq') uid huid heq
  · intro h before q after hquotes key hkey hnew hfirst
    obtain ⟨uid, huid, rfl⟩ := (keyOf?_eq_some_iff uids).mp hkey
    refine h _ ((mem_batchQuotes_iff hquotes).mpr ⟨huid, hnew, fun r hr uid' huid' heq => ?_⟩)
    obtain ⟨q', hq', rfl⟩ := List.mem_map.mp hr
    exact hfirst q' hq' ((keyOf?_eq_some_iff uids).mpr ⟨uid', huid', heq⟩)

/-- The new quotes after some that are stored. -/
theorem holdsNew_append {quotes' : List TdxQuote}
    (h : BatchStored p epoch now uids sequence quotes t t')
    (hall : p.StoresAll t epoch now quotes) :
    p.HoldsNew t epoch now (quotes ++ quotes') ↔ p.HoldsNew t' epoch now quotes' := by
  have hkeyOf : ∀ q, p.keyOf? t' epoch now q = p.keyOf? t epoch now q := keyOf?_congr h.mappings
  constructor
  · rintro hnew before q after rfl key hkey hnone hfirst
    rw [hkeyOf] at hkey
    rw [h.keys, not_or] at hnone
    refine hnew (quotes ++ before) q after (List.append_assoc _ _ _).symm key hkey hnone.1
      fun q' hq' hkey' => ?_
    rcases List.mem_append.mp hq' with hq' | hq'
    · exact hnone.2 ⟨q', hq', hkey'⟩
    · exact hfirst q' hq' ((hkeyOf q').trans hkey')
  · intro hnew before q after heq key hkey hnone hfirst
    rcases List.append_eq_append_iff.mp heq with ⟨before', rfl, hrest⟩ | ⟨after', rfl, hrest⟩
    · refine hnew before' q after hrest key ((hkeyOf q).trans hkey) ?_ fun q' hq' => ?_
      · rw [h.keys, not_or]
        refine ⟨hnone, fun ⟨q', hq', hkey'⟩ => ?_⟩
        exact hfirst q' (List.mem_append_left _ hq') hkey'
      · rw [hkeyOf]
        exact hfirst q' (List.mem_append_right _ hq')
    · cases after' with
      | nil =>
        rw [List.append_nil] at hall h
        refine hnew [] q after hrest.symm key ((hkeyOf q).trans hkey) ?_
          fun q' hq' => absurd hq' List.not_mem_nil
        rw [h.keys, not_or]
        exact ⟨hnone, fun ⟨q', hq', hkey'⟩ => hfirst q' hq' hkey'⟩
      | cons q' after' =>
        obtain ⟨rfl, -⟩ := List.cons.inj hrest
        exact ((TdxQuote.storable_iff p).mp
          (hall.2 q (List.mem_append_right _ List.mem_cons_self))).2

theorem holdsNew_congr (h : SameStore t t') :
    p.HoldsNew t' epoch now quotes ↔ p.HoldsNew t epoch now quotes := by
  have hkeyOf : ∀ q, p.keyOf? t' epoch now q = p.keyOf? t epoch now q := keyOf?_congr h.mappings
  unfold NativeTdxProvider.HoldsNew
  simp only [hkeyOf, MarketTables.keys_congr h.toSameQuotes]

/-! ## Calls that are ingested -/

/-- The calls between two databases find no batch with their identifier, and lose none. -/
structure Ingests (epochUid : Uid) (now : Instant) (calls : List IngestCall)
    (t t' : MarketTables) : Prop where
  unanswered : ∀ call ∈ calls, call.tables.existingBatch epochUid (call.identifier now) = none
  grows : Grows t t'

variable {calls calls' : List IngestCall}

theorem SameQuotes.ingests (h : SameQuotes t t') : Ingests epochUid now [] t t' :=
  ⟨fun _ hcall => absurd hcall List.not_mem_nil, h.grows⟩

theorem Ingests.append (h : Ingests epochUid now calls t t')
    (h' : Ingests epochUid now calls' t' t'') : Ingests epochUid now (calls ++ calls') t t'' where
  unanswered call hcall := by
    rcases List.mem_append.mp hcall with hcall | hcall
    · exact h.unanswered call hcall
    · exact h'.unanswered call hcall
  grows := h.grows.trans h'.grows

theorem Ingests.sameQuotes (h : Ingests epochUid now calls t t') (hsame : SameQuotes t' t'') :
    Ingests epochUid now calls t t'' := by
  have happend := h.append hsame.ingests
  rwa [List.append_nil] at happend

/-- Calls that are all recorded. -/
def AllRecorded (epochUid : Uid) (now : Instant) (calls : List IngestCall) (t : MarketTables) :
    Prop :=
  ∀ call ∈ calls, call.Recorded epochUid now t

theorem SameQuotes.allRecorded_iff (h : SameQuotes t t') :
    AllRecorded epochUid now calls t' ↔ AllRecorded epochUid now calls t :=
  forall₂_congr fun _ _ => h.recorded_iff

theorem allRecorded_nil (epochUid : Uid) (now : Instant) (t : MarketTables) :
    AllRecorded epochUid now [] t :=
  fun _ hcall => absurd hcall List.not_mem_nil

/-- Calls after some that are recorded. -/
theorem allRecorded_append (h : AllRecorded epochUid now calls t) (hgrows : Grows t t') :
    AllRecorded epochUid now (calls ++ calls') t' ↔ AllRecorded epochUid now calls' t' := by
  unfold AllRecorded
  rw [List.forall_mem_append]
  exact and_iff_right fun call hcall => (h call hcall).grows hgrows

/-- A batch whose number is new is ingested, and recorded when the columns hold its new
quotes. -/
structure BatchIngested (p : NativeTdxProvider) (epoch : MarketSourceEpoch) (now : Instant)
    (quotes : List TdxQuote) (calls : List IngestCall) (t t' : MarketTables) : Prop where
  ingests : Ingests epoch.epochUid now calls t t'
  recorded : AllRecorded epoch.epochUid now calls t' ↔ p.HoldsNew t epoch now quotes

/-- A batch without quotes. -/
theorem SameQuotes.batchIngested (h : SameQuotes t t') :
    BatchIngested p epoch now [] [] t t' :=
  ⟨h.ingests, iff_of_true (allRecorded_nil _ _ _) (holdsNew_nil p t epoch now)⟩

theorem BatchIngested.sameQuotes (h : BatchIngested p epoch now quotes calls t t')
    (hsame : SameQuotes t' t'') : BatchIngested p epoch now quotes calls t t'' :=
  ⟨h.ingests.sameQuotes hsame, hsame.allRecorded_iff.trans h.recorded⟩

/-- The storing of the details writes no batch and no record. -/
theorem grows_storeDetails (batchUid : Uid) (quotes : List TdxQuote) (n : ℕ) (t : MarketTables) :
    Grows t (stateAfter ((storeDetails batchUid quotes >>= fun _ => pure n :
      MarketCommand ℕ).run t)) := by
  rcases storeDetails_cases batchUid quotes t with
    ⟨rows, -, hstored⟩ | ⟨e, -, -, hstored⟩ | ⟨e, -, -, hstored⟩
  · rw [run_bind_of_ok hstored]
    exact ⟨fun b hb => ⟨b, hb, rfl, rfl, rfl⟩, fun r hr => hr⟩
  · rw [run_bind_of_error hstored]
    exact (SameStore.refl t).toSameQuotes.grows
  · rw [run_bind_of_error hstored]
    exact (SameStore.refl t).toSameQuotes.grows

/-- A batch whose number is new is ingested. -/
theorem batchIngested_ingestBatch (hready : Ready epoch.epochUid now uids sequence t)
    (hepoch : t.epoch? epoch.epochUid = some epoch) (hnow : now < maxInstant)
    (p : NativeTdxProvider) (quotes : List TdxQuote) :
    BatchIngested p epoch now quotes (batchCalls sequence quotes t) t
      (stateAfter ((p.ingestBatch epoch.epochUid now quotes sequence (uids sequence)).run t)) := by
  by_cases hempty : quotes = []
  · rw [hempty, batchCalls, if_pos rfl, NativeTdxProvider.ingestBatch, if_pos rfl]
    exact (SameStore.refl t).toSameQuotes.batchIngested
  have hnone := hready.existingBatch hnow
  have hunanswered : ∀ call ∈ [(⟨sequence, quotes, t⟩ : IngestCall)],
      call.tables.existingBatch epoch.epochUid (call.identifier now) = none := by
    intro call hcall
    rw [List.mem_singleton.mp hcall]
    exact hnone
  rw [batchCalls, if_neg hempty]
  by_cases hbindable : ∀ e ∈ t.batchQuotes (p.contextOf epoch now (uids sequence))
      (quotes.map p.record), e.record.Bindable
  · obtain ⟨n, status, hrun⟩ := run_ingestBatch_eq (p := p) hready hepoch hnow hempty hbindable
    rw [hrun _ rfl]
    have hgrows := grows_storeDetails (uids sequence).batch quotes n
      (t.addBatch (p.contextOf epoch now (uids sequence)) (p.batchOf now sequence quotes) status)
    refine ⟨⟨hunanswered, (grows_addBatch _ _ status t).trans hgrows⟩,
      iff_of_true (fun call hcall => ?_) ((holdsNew_iff (uids sequence)).mpr hbindable)⟩
    rw [List.mem_singleton.mp hcall]
    exact (recorded_addBatch status t t).grows hgrows
  · have hnot : ¬p.HoldsNew t epoch now quotes := mt (holdsNew_iff (uids sequence)).mp hbindable
    push Not at hbindable
    obtain ⟨e, he, hunbound⟩ := hbindable
    obtain ⟨error, hrun⟩ := run_ingestBatch_of_not_bindable hready hepoch hnow he hunbound
    rw [hrun]
    refine ⟨⟨hunanswered, (SameStore.refl t).toSameQuotes.grows⟩, iff_of_false (fun h => ?_) hnot⟩
    -- No batch of the database has the number.
    obtain ⟨b, hb, hepochUid, hid, -⟩ := h _ (List.mem_singleton_self _)
    exact MarketTables.existingBatch_eq_none_iff.mp hnone b hb hepochUid hid

/-! ## The batches of a poll -/

variable {batches : List (List TdxQuote)}

theorem storesAll_nil (p : NativeTdxProvider) (t : MarketTables) (epoch : MarketSourceEpoch)
    (now : Instant) : p.StoresAll t epoch now [] :=
  ⟨⟨fun _ hq => absurd hq List.not_mem_nil, fun _ hq => absurd hq List.not_mem_nil,
    List.Pairwise.nil⟩, fun _ hq => absurd hq List.not_mem_nil⟩

/-- A batch without quotes, and what keeps the quotes after it. -/
theorem Ready.batchStored_of_sameStore (h : Ready epoch.epochUid now uids sequence t)
    (hsame : SameStore t t') : BatchStored p epoch now uids sequence [] t t' where
  epochs := hsame.epochs
  mappings := hsame.mappings
  keys key := by
    rw [MarketTables.keys_congr hsame.toSameQuotes]
    simp
  details q hq := absurd hq List.not_mem_nil
  kept _ hkey := hkey.congr hsame.toSameQuotes
  ready := h.congr hsame.toSameQuotes

/-- All batches but the last, with one before the others. -/
theorem storesAll_dropLast_cons :
    p.StoresAll t epoch now (quotes :: batches).dropLast.flatten ↔
      batches = [] ∨ p.StoresAll t epoch now (quotes ++ batches.dropLast.flatten) := by
  cases batches with
  | nil => exact iff_of_true (storesAll_nil p t epoch now) (Or.inl rfl)
  | cons quotes' batches =>
    rw [List.dropLast_cons_cons, List.flatten_cons]
    exact ⟨Or.inr, Or.rec (fun h => nomatch h) id⟩

/-- What ingesting some batches comes to : the calls are numbered from the first on, each is
ingested, all are made exactly when every batch but the last is stored, and then all are
recorded exactly when the columns hold the new quotes. -/
structure BatchesIngested (p : NativeTdxProvider) (epoch : MarketSourceEpoch) (given : Poll)
    (sequence : ℕ) (batches : List (List TdxQuote)) (t : MarketTables) (calls : List IngestCall)
    {α : Type} (result : EStateM.Result Exn MarketTables α) : Prop where
  ingests : Ingests epoch.epochUid given.observedAt calls t (stateAfter result)
  numbers : calls.map IngestCall.sequence = List.range' sequence calls.length
  taken : List.IsPrefix (calls.map IngestCall.quotes) batches
  every : calls.map IngestCall.quotes = batches ↔
    p.StoresAll t epoch given.observedAt batches.dropLast.flatten
  recorded : p.StoresAll t epoch given.observedAt batches.dropLast.flatten →
    (AllRecorded epoch.epochUid given.observedAt calls (stateAfter result) ↔
      p.HoldsNew t epoch given.observedAt batches.flatten)
  stored : p.StoresAll t epoch given.observedAt batches.flatten → ∃ a t', result = .ok a t' ∧
    BatchStored p epoch given.observedAt given.uids (sequence + batches.length) batches.flatten
      t t' ∧ t'.capabilityHealthReport = t.capabilityHealthReport
  lost : ¬p.StoresAll t epoch given.observedAt batches.flatten → isOk result = false

theorem stateAfter_add (command : MarketCommand ℕ) (n : ℕ) (t : MarketTables) :
    stateAfter ((do return n + (← command) : MarketCommand ℕ).run t) =
      stateAfter (command.run t) := by
  cases hrun : command.run t with
  | ok m t' =>
    rw [run_bind_of_ok hrun]
    rfl
  | error e t' => rw [run_bind_of_error hrun]

/-- A batch that is stored before the others. -/
theorem BatchesIngested.cons {command : MarketCommand ℕ} {n : ℕ}
    (h : BatchesIngested p epoch given (sequence + 1) batches t' calls (command.run t'))
    (hstored : BatchStored p epoch given.observedAt given.uids (sequence + 1) quotes t t')
    (hreports : t'.capabilityHealthReport = t.capabilityHealthReport)
    (hall : p.StoresAll t epoch given.observedAt quotes)
    (hfirst : BatchIngested p epoch given.observedAt quotes [⟨sequence, quotes, t⟩] t t') :
    BatchesIngested p epoch given sequence (quotes :: batches) t
      (⟨sequence, quotes, t⟩ :: calls) ((do return n + (← command)).run t') where
  ingests := by
    rw [stateAfter_add]
    exact hfirst.ingests.append h.ingests
  numbers := by
    rw [List.map_cons, List.length_cons, List.range'_succ, h.numbers]
  taken := List.cons_prefix_cons.mpr ⟨rfl, h.taken⟩
  every := by
    rw [storesAll_dropLast_cons, storesAll_append hstored, and_iff_right hall, ← h.every,
      List.map_cons, List.cons.injEq, and_iff_right rfl]
    constructor
    · exact Or.inr
    · rintro (rfl | heq)
      · exact h.every.mpr (storesAll_nil p t' epoch _)
      · exact heq
  recorded hdropLast := by
    have hrest : p.StoresAll t' epoch given.observedAt batches.dropLast.flatten := by
      rcases storesAll_dropLast_cons.mp hdropLast with rfl | hboth
      · exact storesAll_nil p t' epoch _
      · exact ((storesAll_append hstored).mp hboth).2
    rw [stateAfter_add, List.flatten_cons, holdsNew_append hstored hall, ← h.recorded hrest]
    exact allRecorded_append (hfirst.recorded.mpr (holdsNew_of_storable hall.2)) h.ingests.grows
  stored hboth := by
    obtain ⟨m, t'', hrun, hrest, hreports'⟩ := h.stored ((storesAll_append hstored).mp hboth).2
    refine ⟨n + m, t'', run_bind_of_ok hrun, ?_, hreports'.trans hreports⟩
    rw [List.length_cons, Nat.add_comm batches.length, ← Nat.add_assoc]
    exact hstored.trans hrest
  lost hnot := by
    have hlost := h.lost fun hrest => hnot ((storesAll_append hstored).mpr ⟨hall, hrest⟩)
    cases hrun : command.run t' with
    | ok m t'' =>
      rw [hrun] at hlost
      cases hlost
    | error e t'' =>
      rw [run_bind_of_error hrun]
      rfl

/-- The batches of a poll, numbered from one on whose numbers are new. -/
theorem batchesIngested (hnow : given.observedAt < maxInstant)
    (hdisjoint : ∀ j k, j ≠ k → (given.uids j).Disjoint (given.uids k)) (t : MarketTables)
    (sequence : ℕ) (hready : Ready epoch.epochUid given.observedAt given.uids sequence t)
    (hepoch : t.epoch? epoch.epochUid = some epoch)
    (hcodes : ∀ quotes ∈ batches, (quotes.map fun q => q.instrument.externalCode).Nodup)
    (hne : ∀ quotes ∈ batches, quotes ≠ []) :
    BatchesIngested p epoch given sequence batches t
      (p.ingestCalls epoch.epochUid given sequence batches t)
      ((p.ingestBatches epoch.epochUid given.observedAt given.uids sequence batches).run t) := by
  induction batches generalizing t sequence with
  | nil =>
    exact ⟨(SameStore.refl t).toSameQuotes.ingests, rfl, List.prefix_refl _,
      iff_of_true rfl (storesAll_nil p t epoch _),
      fun _ => iff_of_true (allRecorded_nil _ _ _) (holdsNew_nil p t epoch _),
      fun _ => ⟨0, t, rfl, hready.batchStored_of_sameStore (SameStore.refl t), rfl⟩,
      fun hnot => absurd (storesAll_nil p t epoch _) hnot⟩
  | cons quotes batches ih =>
    have hingests := batchIngested_ingestBatch hready hepoch hnow p quotes
    have hcodesFirst := hcodes quotes List.mem_cons_self
    rw [batchCalls, if_neg (hne quotes List.mem_cons_self)] at hingests
    rw [NativeTdxProvider.ingestCalls, NativeTdxProvider.ingestBatches, batchCalls,
      if_neg (hne quotes List.mem_cons_self)]
    by_cases hfirst : p.StoresAll t epoch given.observedAt quotes
    · obtain ⟨n, t', hrun, hstored, hreports⟩ := run_ingestBatch_of_allNew hready hepoch hnow
        hcodesFirst hfirst.1 hfirst.2 fun j hj => hdisjoint j sequence hj
      have hepoch' : t'.epoch? epoch.epochUid = some epoch := by
        rw [MarketTables.epoch?, hstored.epochs]
        exact hepoch
      have hrest := ih t' (sequence + 1) hstored.ready hepoch'
        (fun quotes' hquotes' => hcodes quotes' (List.mem_cons_of_mem _ hquotes'))
        fun quotes' hquotes' => hne quotes' (List.mem_cons_of_mem _ hquotes')
      rw [hrun, stateAfter] at hingests
      rw [hrun, run_bind_of_ok hrun]
      exact hrest.cons hstored hreports hfirst hingests
    · obtain ⟨e, t', hrun, -⟩ := run_ingestBatch_of_not hready hepoch hnow hcodesFirst hfirst
      rw [hrun] at hingests
      rw [hrun, run_bind_of_error hrun]
      refine ⟨hingests.ingests, rfl, List.cons_prefix_cons.mpr ⟨rfl, List.nil_prefix⟩, ?_,
        fun hdropLast => ?_, fun hall => ?_, fun _ => rfl⟩
      · rw [storesAll_dropLast_cons]
        constructor
        · intro heq
          exact Or.inl (List.cons.inj heq).2.symm
        · rintro (rfl | hall)
          · rfl
          · exact absurd (StoresAll.left hall) hfirst
      · rcases storesAll_dropLast_cons.mp hdropLast with rfl | hall
        · rw [List.flatten_singleton]
          exact hingests.recorded
        · exact absurd (StoresAll.left hall) hfirst
      · exact absurd (StoresAll.left hall) hfirst

/-! ## The health of a poll -/

/-- Reports of some capabilities are new, and nothing else is. -/
def Reports (given : Poll) (capabilities : List String) (t t' : MarketTables) : Prop :=
  ∃ rows, t' = { t with capabilityHealthReport := t.capabilityHealthReport ++ rows } ∧
    ∀ row ∈ rows, ∃ c ∈ capabilities, row.reportUid = given.healthUid c

variable {capabilities capabilities' : List String}

theorem Reports.refl (given : Poll) (capabilities : List String) (t : MarketTables) :
    Reports given capabilities t t :=
  ⟨[], by rw [List.append_nil], fun _ hrow => absurd hrow List.not_mem_nil⟩

/-- Reports are made one after the other. -/
theorem Reports.append (h : Reports given capabilities t t')
    (h' : Reports given capabilities' t' t'') :
    Reports given (capabilities ++ capabilities') t t'' := by
  obtain ⟨rows, rfl, hrows⟩ := h
  obtain ⟨rows', rfl, hrows'⟩ := h'
  refine ⟨rows ++ rows', by rw [List.append_assoc], fun row hrow => ?_⟩
  rcases List.mem_append.mp hrow with hrow | hrow
  · obtain ⟨c, hc, heq⟩ := hrows row hrow
    exact ⟨c, List.mem_append_left _ hc, heq⟩
  · obtain ⟨c, hc, heq⟩ := hrows' row hrow
    exact ⟨c, List.mem_append_right _ hc, heq⟩

theorem Reports.sameStore (h : Reports given capabilities t t') : SameStore t t' := by
  obtain ⟨rows, rfl, -⟩ := h
  exact ⟨⟨rfl, rfl, rfl, rfl, rfl, rfl⟩, rfl, rfl⟩

theorem Reports.epoch_isSome (h : Reports given capabilities t t')
    (hepoch : (t.epoch? epochUid).isSome) : (t'.epoch? epochUid).isSome := by
  rw [MarketTables.epoch?, h.sameStore.epochs]
  exact hepoch

/-- No report of a capability has been made. -/
def Unreported (given : Poll) (capability : String) (t : MarketTables) : Prop :=
  ∀ r ∈ t.capabilityHealthReport, r.reportUid ≠ given.healthUid capability

theorem Unreported.reports {capability : String} (hs : Unreported given capability t)
    (hinj : given.healthUid.Injective) (h : Reports given capabilities t t')
    (hnot : capability ∉ capabilities) : Unreported given capability t' := by
  obtain ⟨rows, rfl, hrows⟩ := h
  intro r hr heq
  rcases List.mem_append.mp hr with hr | hr
  · exact hs r hr heq
  · obtain ⟨c, hc, huid⟩ := hrows r hr
    exact hnot (hinj (huid.symm.trans heq) ▸ hc)

/-- A report is recorded under an identifier that is new. -/
theorem reports_record (thresholds : HealthThresholds) (capability : String) {coveragePpm : ℕ}
    (latencyMs : ℕ) (hcoverage : coveragePpm ≤ 1000000) (hepoch : (t.epoch? epochUid).isSome)
    (huid : Unreported given capability t) :
    ∃ status t', (thresholds.record epochUid capability coveragePpm latencyMs given.observedAt
        (given.healthUid capability)).run t = .ok status t' ∧
      Reports given [capability] t t' := by
  obtain ⟨status, row, hrow, hrun⟩ := run_record given.observedAt thresholds capability latencyMs
    hcoverage hepoch huid
  refine ⟨status, _, hrun, [row], rfl, fun row' hrow' => ?_⟩
  rw [List.mem_singleton.mp hrow']
  exact ⟨capability, List.mem_singleton_self _, hrow⟩

/-- So is the health of a market. -/
theorem reports_marketHealth (tdxUniverse : TdxUniverse) (quotes : List TdxQuote) (market : ℕ)
    (capability : String) (hepoch : (t.epoch? epochUid).isSome)
    (huid : Unreported given capability t) :
    ∃ a t', (p.marketHealth epochUid given tdxUniverse quotes market capability).run t = .ok a t' ∧
      Reports given [capability] t t' := by
  unfold NativeTdxProvider.marketHealth
  dsimp only
  split
  · exact ⟨_, t, rfl, Reports.refl given _ t⟩
  · obtain ⟨status, t', hrun, hreports⟩ := reports_record p.thresholds capability given.durationMs
      (coverage_le _ _) hepoch huid
    exact ⟨_, t', run_bind_of_ok hrun, hreports⟩

/-- The quotes of the two markets are no more than the quotes. -/
theorem countP_markets_le (quotes : List TdxQuote) :
    (quotes.countP fun q => q.instrument.market = 0) +
      (quotes.countP fun q => q.instrument.market = 1) ≤ quotes.length := by
  rw [List.length_eq_countP_add_countP fun q => q.instrument.market = 0]
  refine Nat.add_le_add_left (List.countP_mono_left fun q _ hmarket => ?_) _
  have hone := of_decide_eq_true hmarket
  simp [hone]

/-- The health of a poll is recorded when it returns no more quotes than were asked for. -/
theorem reports_recordQuoteHealth (tdxUniverse : TdxUniverse)
    (hlength : quotes.length ≤ tdxUniverse.primary.length) (hepoch : (t.epoch? epochUid).isSome)
    (huids : ∀ capability, Unreported given capability t) (hinj : given.healthUid.Injective) :
    ∃ a t', (p.recordQuoteHealth epochUid given tdxUniverse quotes).run t = .ok a t' ∧
      Reports given ["SH_QUOTES", "SZ_QUOTES", "QUOTES"] t t' := by
  obtain ⟨a, t₁, hrun, hfirst⟩ := reports_marketHealth (p := p) tdxUniverse quotes 1 "SH_QUOTES"
    hepoch (huids _)
  obtain ⟨b, t₂, hrun', hsecond⟩ := reports_marketHealth (p := p) tdxUniverse quotes 0 "SZ_QUOTES"
    (hfirst.epoch_isSome hepoch) ((huids _).reports hinj hfirst (by decide))
  have hboth := hfirst.append hsecond
  rw [NativeTdxProvider.recordQuoteHealth, run_bind_of_ok hrun, run_bind_of_ok hrun']
  dsimp only
  split
  · exact ⟨_, t₂, rfl, hboth.append (Reports.refl given ["QUOTES"] t₂)⟩
  · rename_i htotal
    have hcompleted : min (quotes.countP fun q => q.instrument.market = 0)
        tdxUniverse.primary.length + min (quotes.countP fun q => q.instrument.market = 1)
          tdxUniverse.primary.length ≤ tdxUniverse.primary.length :=
      (Nat.add_le_add (min_le_left _ _) (min_le_left _ _)).trans
        ((countP_markets_le quotes).trans hlength)
    obtain ⟨status, t₃, hrun'', hthird⟩ := reports_record p.thresholds "QUOTES" given.durationMs
      (Nat.div_le_of_le_mul (Nat.mul_le_mul_right 1000000 hcompleted)) (hboth.epoch_isSome hepoch)
      ((huids _).reports hinj hboth (by decide))
    exact ⟨_, t₃, run_bind_of_ok hrun'', hboth.append hthird⟩

/-! ## The outcome of a poll -/

section

variable {α : Type} {command : MarketCommand α} {s : ProviderState}

theorem run_onTables_of_ok {a : α} (h : command.run s.tables = .ok a t) :
    (onTables command).run s = .ok a { s with tables := t } := by
  change onTables command s = _
  rw [onTables, h]

theorem run_onTables_of_error {e : Exn} (h : command.run s.tables = .error e t) :
    (onTables command).run s = .error e { s with tables := t } := by
  change onTables command s = _
  rw [onTables, h]

end

theorem BatchStored.of_sameStore (h : BatchStored p epoch now uids sequence quotes t' t'')
    (hsame : SameStore t t') : BatchStored p epoch now uids sequence quotes t t'' where
  epochs := h.epochs.trans hsame.epochs
  mappings := h.mappings.trans hsame.mappings
  keys key := by
    rw [h.keys, MarketTables.keys_congr hsame.toSameQuotes]
    simp only [keyOf?_congr hsame.mappings]
  details q hq key hkey := h.details q hq key ((keyOf?_congr hsame.mappings q).trans hkey)
  kept key hkey := h.kept key (hkey.congr hsame.toSameQuotes)
  ready := h.ready

theorem CycleValid.ready (h : CycleValid epochUid epoch given t) (hs : Callable epochUid t)
    (sequence : ℕ) : Ready epochUid given.observedAt given.uids sequence t where
  store := hs.store
  batches b hb hb' := by
    obtain ⟨hmax, j, hid⟩ := hs.batches b hb hb'
    have hlt := h.past b hb hb'
    exact ⟨hmax, Nat.le_of_lt hlt, j, hid, fun heq => absurd heq (Nat.ne_of_lt hlt)⟩
  fresh j _ := h.fresh j

/-- What a poll that accepts some batches comes to. -/
structure PollIngested (p : NativeTdxProvider) (epoch : MarketSourceEpoch) (given : Poll)
    (batches : List (List TdxQuote)) (s : ProviderState) (calls : List IngestCall)
    (result : EStateM.Result Exn ProviderState TdxPollResult) : Prop where
  ingests : Ingests epoch.epochUid given.observedAt calls s.tables (stateAfter result).tables
  numbers : calls.map IngestCall.sequence = List.range' 0 calls.length
  taken : List.IsPrefix (calls.map IngestCall.quotes) batches
  every : calls.map IngestCall.quotes = batches ↔
    p.StoresAll s.tables epoch given.observedAt batches.dropLast.flatten
  recorded : p.StoresAll s.tables epoch given.observedAt batches.dropLast.flatten →
    (AllRecorded epoch.epochUid given.observedAt calls (stateAfter result).tables ↔
      p.HoldsNew s.tables epoch given.observedAt batches.flatten)
  stored : p.StoresAll s.tables epoch given.observedAt batches.flatten → ∃ a s',
    result = .ok a s' ∧ BatchStored p epoch given.observedAt given.uids batches.length
      batches.flatten s.tables s'.tables ∧
    Unreported given "INDEX_QUOTES" s'.tables ∧ Unreported given "ETF_QUOTES" s'.tables
  lost : ¬p.StoresAll s.tables epoch given.observedAt batches.flatten → isOk result = false

variable {s : ProviderState} {tdxUniverse : TdxUniverse}

/-- The instruments of a poll are those of the universe. -/
theorem requests_sublist (tdxUniverse : TdxUniverse) (epochUid : Uid) (given : Poll)
    (t : MarketTables) :
    (tdxUniverse.requests epochUid given t).flatten.Sublist tdxUniverse.primary :=
  (flatten_batchesOf_sublist _ _).trans List.filter_sublist

theorem requests_nodup (tdxUniverse : TdxUniverse) (epochUid : Uid) (given : Poll)
    (t : MarketTables) :
    ((tdxUniverse.requests epochUid given t).flatten.map TdxInstrument.identity).Nodup :=
  tdxUniverse.primary_nodup.sublist ((requests_sublist tdxUniverse epochUid given t).map _)

/-- The quotes of an accepted batch have different codes. -/
theorem codes_nodup_of_mem (h : BatchesOf (tdxUniverse.requests epochUid given t).flatten batches)
    (hmem : quotes ∈ batches) : (quotes.map fun q => q.instrument.externalCode).Nodup :=
  codes_nodup (((List.sublist_flatten_of_mem hmem).map _).trans h.sublist)
    (requests_nodup tdxUniverse epochUid given t)

/-- The acquisition of a poll returns what it accepts, and reports no health. -/
theorem run_acquireBatches_of_accepted
    (hvalid : CycleValid epoch.epochUid epoch given s.tables)
    (haccepted : acceptedOf s.previousQuotes given.gateway given.observedAt
      (tdxUniverse.requests epoch.epochUid given s.tables) = .ok batches) :
    ∃ quarantined s', (acquireBatches epoch.epochUid given.gateway given.observedAt
        (tdxUniverse.requests epoch.epochUid given s.tables)).run s =
        .ok (batches, quarantined) s' ∧
      SameStore s.tables s'.tables ∧ ∀ capability, Unreported given capability s'.tables := by
  obtain ⟨hanswer, hacquired⟩ := run_acquireBatches given.gateway given.observedAt
    (Option.isSome_iff_exists.mpr ⟨epoch, hvalid.epoch⟩) _
    (requests_nodup tdxUniverse epoch.epochUid given s.tables)
  rw [haccepted] at hanswer
  cases hrun : (acquireBatches epoch.epochUid given.gateway given.observedAt
      (tdxUniverse.requests epoch.epochUid given s.tables)).run s with
  | error e s' =>
    rw [hrun] at hanswer
    cases hanswer
  | ok accepted s' =>
    rw [hrun] at hanswer hacquired
    obtain ⟨batches', quarantined⟩ := accepted
    obtain rfl : batches' = batches := Except.ok.inj hanswer
    refine ⟨quarantined, s', rfl, hacquired.sameStore, ?_⟩
    obtain ⟨rows, hrows⟩ := hacquired.tables
    have htables : s'.tables = _ := hrows
    rw [htables]
    exact hvalid.reports

/-- The ingestion of the batches of a poll, after its acquisition and before its health. -/
theorem BatchesIngested.pollIngested {s' : ProviderState} {ingested : EStateM.Result Exn
      MarketTables ℕ} {result : EStateM.Result Exn ProviderState TdxPollResult}
    (h : BatchesIngested p epoch given 0 batches s'.tables calls ingested)
    (hsame : SameStore s.tables s'.tables)
    (hafter : SameStore (stateAfter ingested) (stateAfter result).tables)
    (hstored : isOk ingested = true → isOk result = true ∧
      Unreported given "INDEX_QUOTES" (stateAfter result).tables ∧
      Unreported given "ETF_QUOTES" (stateAfter result).tables)
    (hlost : isOk ingested = false → isOk result = false) :
    PollIngested p epoch given batches s calls result := by
  have hall : ∀ quotes, p.StoresAll s'.tables epoch given.observedAt quotes ↔
      p.StoresAll s.tables epoch given.observedAt quotes := fun quotes => storesAll_congr hsame
  refine ⟨(hsame.toSameQuotes.ingests.append h.ingests).sameQuotes hafter.toSameQuotes, h.numbers,
    h.taken, h.every.trans (hall _), fun hdropLast => ?_, fun hstores => ?_,
    fun hnot => hlost (h.lost (mt (hall _).mp hnot))⟩
  · rw [hafter.toSameQuotes.allRecorded_iff, h.recorded ((hall _).mpr hdropLast)]
    exact holdsNew_congr hsame
  · obtain ⟨n, t, rfl, hrows, -⟩ := h.stored ((hall _).mpr hstores)
    obtain ⟨hok, hindexes, hetfs⟩ := hstored rfl
    cases result with
    | error e s'' => cases hok
    | ok a s'' =>
      rw [Nat.zero_add] at hrows
      exact ⟨a, s'', rfl, (hrows.of_sameStore hsame).congr hafter, hindexes, hetfs⟩

/-- A poll whose batches were all ingested records the health of its quotes. -/
theorem run_recordQuoteHealth_of_stored (hvalid : CycleValid epoch.epochUid epoch given s.tables)
    (hspec : BatchesOf (tdxUniverse.requests epoch.epochUid given s.tables).flatten batches)
    (hepoch : t.epoch? epoch.epochUid = some epoch)
    (hstored : BatchStored p epoch given.observedAt given.uids sequence batches.flatten t t')
    (hreports : ∀ capability, Unreported given capability t') :
    ∃ health t'', (p.recordQuoteHealth epoch.epochUid given tdxUniverse batches.flatten).run t' =
        .ok health t'' ∧ SameStore t' t'' ∧
      Unreported given "INDEX_QUOTES" t'' ∧ Unreported given "ETF_QUOTES" t'' := by
  have hepoch' : (t'.epoch? epoch.epochUid).isSome := by
    rw [MarketTables.epoch?, hstored.epochs]
    exact Option.isSome_iff_exists.mpr ⟨epoch, hepoch⟩
  have hlength : batches.flatten.length ≤ tdxUniverse.primary.length := by
    have hle := (hspec.sublist.trans (requests_sublist _ _ _ _)).length_le
    rwa [List.length_map] at hle
  obtain ⟨health, t'', hhealth, hnew⟩ := reports_recordQuoteHealth (p := p) tdxUniverse hlength
    hepoch' hreports hvalid.healthUid_inj
  exact ⟨health, t'', hhealth, hnew.sameStore,
    (hreports _).reports hvalid.healthUid_inj hnew (by decide),
    (hreports _).reports hvalid.healthUid_inj hnew (by decide)⟩

/-- What a poll comes to. -/
theorem pollIngested (hvalid : CycleValid epoch.epochUid epoch given s.tables)
    (hs : Callable epoch.epochUid s.tables) (htdxUniverse : p.tdxUniverse = some tdxUniverse)
    (haccepted : acceptedOf s.previousQuotes given.gateway given.observedAt
      (tdxUniverse.requests epoch.epochUid given s.tables) = .ok batches) :
    PollIngested p epoch given batches s (p.pollCalls epoch.epochUid given s)
      ((p.pollOnce epoch.epochUid given).run s) := by
  have hspec := acceptedOf_spec haccepted
  obtain ⟨quarantined, s₁, hrun, hsame, hreports₁⟩ :=
    run_acquireBatches_of_accepted hvalid haccepted
  have hepoch₁ : s₁.tables.epoch? epoch.epochUid = some epoch := by
    rw [MarketTables.epoch?, hsame.epochs]
    exact hvalid.epoch
  have hbatches := batchesIngested (p := p) hvalid.now_lt hvalid.disjoint s₁.tables 0
    ((hvalid.ready hs 0).congr hsame.toSameQuotes) hepoch₁
    (fun quotes hquotes => codes_nodup_of_mem hspec hquotes) hspec.ne_nil
  unfold TdxUniverse.requests at hrun
  unfold NativeTdxProvider.pollCalls NativeTdxProvider.pollOnce
  rw [htdxUniverse]
  dsimp only
  rw [run_bind_of_ok (run_get s), hrun, run_bind_of_ok hrun]
  dsimp only
  by_cases hall : p.StoresAll s₁.tables epoch given.observedAt batches.flatten
  · obtain ⟨n, t₂, hingest, hstored, hsameReports⟩ := hbatches.stored hall
    obtain ⟨health, t₃, hhealth, hstore, hunreported⟩ := run_recordQuoteHealth_of_stored
      (p := p) hvalid hspec hepoch₁ hstored fun capability r hr =>
        hreports₁ capability r (hsameReports ▸ hr)
    rw [hingest] at hbatches
    rw [run_bind_of_ok (run_onTables_of_ok hingest),
      run_bind_of_ok (run_onTables_of_ok (s := { s₁ with tables := t₂ }) hhealth)]
    exact hbatches.pollIngested hsame hstore (fun _ => ⟨rfl, hunreported⟩)
      fun hlost => by cases hlost
  · have hlost := hbatches.lost hall
    cases hingest : (p.ingestBatches epoch.epochUid given.observedAt given.uids 0 batches).run
        s₁.tables with
    | ok n t₂ =>
      rw [hingest] at hlost
      cases hlost
    | error e t₂ =>
      rw [hingest] at hbatches
      rw [run_bind_of_error (run_onTables_of_error hingest)]
      exact hbatches.pollIngested hsame (SameStore.refl _) (fun hok => by cases hok) fun _ => rfl

/-! ## The outcome of a refresh -/

section

variable {instruments : List TdxInstrument} {capability : String} {indexes etfs : List TdxQuote}

theorem contextCalls_eq :
    contextCalls given instruments sequence t =
      batchCalls sequence (acceptedContext given instruments) t := by
  unfold contextCalls acceptedContext
  split
  · rfl
  · rfl

theorem map_quotes_batchCalls :
    (batchCalls sequence quotes t).map IngestCall.quotes = batchOfQuotes quotes := by
  unfold batchCalls batchOfQuotes
  by_cases hempty : quotes = []
  · rw [if_pos hempty, if_neg (not_not.mpr hempty)]
    rfl
  · rw [if_neg hempty, if_pos hempty]
    rfl

/-- Of the two batches of a refresh, all but the last. -/
theorem storesAll_dropLast_pair :
    p.StoresAll t epoch now (batchOfQuotes indexes ++ batchOfQuotes etfs).dropLast.flatten ↔
      etfs = [] ∨ p.StoresAll t epoch now indexes := by
  by_cases hetfs : etfs = []
  · have hnil : (batchOfQuotes indexes).dropLast = [] := by
      unfold batchOfQuotes
      split
      · rfl
      · rfl
    have hlast : batchOfQuotes [] = [] := rfl
    rw [hetfs, hlast, List.append_nil, hnil]
    exact iff_of_true (storesAll_nil p t epoch now) (Or.inl rfl)
  · have hlast : batchOfQuotes etfs = [etfs] := if_pos hetfs
    rw [hlast, List.dropLast_concat, flatten_batchOfQuotes, or_iff_right hetfs]

variable (hnow : given.observedAt < maxInstant)
  (hdisjoint : ∀ j k, j ≠ k → (given.uids j).Disjoint (given.uids k))

theorem Ready.mono {m n : ℕ} (h : Ready epochUid now uids m t) (hle : m ≤ n) :
    Ready epochUid now uids n t where
  store := h.store
  batches b hb hb' := by
    obtain ⟨hmax, hpast, j, hid, hlt⟩ := h.batches b hb hb'
    exact ⟨hmax, hpast, j, hid, fun heq => (hlt heq).trans_le hle⟩
  fresh j hj := h.fresh j (hle.trans hj)

/-- Context instruments without an accepted quote. -/
theorem run_refreshContextQuotes_nil (sequence : ℕ) (hepoch : (t.epoch? epochUid).isSome)
    (huid : Unreported given capability t)
    (haccepted : contextAccepted given.gateway given.observedAt instruments = .ok []) :
    ∃ t', (p.refreshContextQuotes epochUid given instruments capability sequence).run t =
        .ok () t' ∧ Reports given [capability] t t' := by
  unfold NativeTdxProvider.refreshContextQuotes
  by_cases hempty : instruments = []
  · rw [if_pos hempty]
    exact ⟨t, rfl, Reports.refl given _ t⟩
  rw [contextAccepted, if_neg hempty] at haccepted
  rw [if_neg hempty, run_bind_of_ok (run_fromExcept_eq_ok.mpr ⟨haccepted, rfl⟩)]
  have hbatch : (p.ingestBatch epochUid given.observedAt [] sequence (given.uids sequence)).run t =
      .ok 0 t := rfl
  obtain ⟨status, t', hrun, hreports⟩ := reports_record p.thresholds capability 0
    (coverage_le ([] : List TdxQuote).length instruments.length) hepoch huid
  exact ⟨t', (run_bind_of_ok hbatch).trans (run_bind_of_ok hrun), hreports⟩

include hnow in
/-- The batch of some context instruments is ingested when its number is new. -/
theorem batchIngested_refreshContextQuotes {m : ℕ}
    (hready : Ready epoch.epochUid given.observedAt given.uids m t)
    (hepoch : t.epoch? epoch.epochUid = some epoch) (huid : Unreported given capability t)
    (hnumber : m ≤ sequence ∨ acceptedContext given instruments = []) :
    BatchIngested p epoch given.observedAt (acceptedContext given instruments)
      (batchCalls sequence (acceptedContext given instruments) t) t (stateAfter
        ((p.refreshContextQuotes epoch.epochUid given instruments capability sequence).run t)) := by
  cases haccepted : contextAccepted given.gateway given.observedAt instruments with
  | error e =>
    rw [acceptedContext, haccepted, refreshContextQuotes_error haccepted]
    exact (SameStore.refl t).toSameQuotes.batchIngested
  | ok quotes =>
    rw [acceptedContext, haccepted] at hnumber
    rw [acceptedContext, haccepted]
    dsimp only at hnumber ⊢
    by_cases hquotes : quotes = []
    · obtain ⟨t', hrun, hreports⟩ := run_refreshContextQuotes_nil (p := p) sequence
        (Option.isSome_iff_exists.mpr ⟨epoch, hepoch⟩) huid (hquotes ▸ haccepted)
      rw [hrun, hquotes, batchCalls, if_pos rfl]
      exact hreports.sameStore.toSameQuotes.batchIngested
    have hingests := batchIngested_ingestBatch (hready.mono (hnumber.resolve_right hquotes)) hepoch
      hnow p quotes
    have hempty : instruments ≠ [] := by
      rintro rfl
      cases haccepted
      exact hquotes rfl
    rw [contextAccepted, if_neg hempty] at haccepted
    rw [NativeTdxProvider.refreshContextQuotes, if_neg hempty,
      run_bind_of_ok (run_fromExcept_eq_ok.mpr ⟨haccepted, rfl⟩)]
    cases hrun : (p.ingestBatch epoch.epochUid given.observedAt quotes sequence
        (given.uids sequence)).run t with
    | error e t' =>
      rw [hrun] at hingests
      rw [run_bind_of_error hrun]
      exact hingests
    | ok n t' =>
      rw [hrun] at hingests
      rw [run_bind_of_ok hrun]
      have hrecord : Yields (SameQuotes t') (p.thresholds.record epoch.epochUid capability
          (coverage quotes.length instruments.length) 0 given.observedAt
          (given.healthUid capability)) (fun _ => True) NoKeyError :=
        yields_record SameQuotes.insertReport _ _ _ _ _
      have hrest := hrecord.bind fun _ _ => yields_pure (a := ()) (Q := fun _ => True) trivial
      exact hingests.sameQuotes (hrest.keeps t' (SameStore.refl t').toSameQuotes)

include hnow hdisjoint in
/-- The indexes of a refresh : the request is answered and the accepted quotes are stored, or
no ETF is accepted or some quote of an index is not stored. -/
theorem refreshIndexes_cases {n : ℕ}
    (hready : Ready epoch.epochUid given.observedAt given.uids n t)
    (hepoch : t.epoch? epoch.epochUid = some epoch) (hinj : given.healthUid.Injective)
    (hindexes : Unreported given "INDEX_QUOTES" t) (hetfs : Unreported given "ETF_QUOTES" t)
    (hnumber : n ≤ 100 ∨ tdxUniverse.indexQuotes given = []) :
    (∃ t', (p.refreshContextQuotes epoch.epochUid given tdxUniverse.contextIndexes "INDEX_QUOTES"
        100).run t = .ok () t' ∧
      p.StoresAll t epoch given.observedAt (tdxUniverse.indexQuotes given) ∧
      tdxUniverse.etfQuotes given = acceptedContext given tdxUniverse.contextEtfs ∧
      (∃ m, (m ≤ n ∨ m ≤ 101) ∧ BatchStored p epoch given.observedAt given.uids m
        (tdxUniverse.indexQuotes given) t t') ∧ Unreported given "ETF_QUOTES" t') ∨
    ∃ e t', (p.refreshContextQuotes epoch.epochUid given tdxUniverse.contextIndexes "INDEX_QUOTES"
        100).run t = .error e t' ∧
      (tdxUniverse.etfQuotes given = [] ∨
        ¬p.StoresAll t epoch given.observedAt (tdxUniverse.indexQuotes given)) := by
  unfold TdxUniverse.indexQuotes TdxUniverse.etfQuotes acceptedContext at *
  cases haccepted : contextAccepted given.gateway given.observedAt tdxUniverse.contextIndexes with
  | error e => exact Or.inr ⟨e, t, refreshContextQuotes_error haccepted, Or.inl rfl⟩
  | ok indexes =>
    rw [haccepted] at hnumber
    dsimp only at hnumber ⊢
    by_cases hempty : indexes = []
    · obtain ⟨t', hrun, hreports⟩ := run_refreshContextQuotes_nil (p := p) 100
        (Option.isSome_iff_exists.mpr ⟨epoch, hepoch⟩) hindexes (hempty ▸ haccepted)
      exact Or.inl ⟨t', hrun, hempty ▸ storesAll_nil p t epoch _, rfl,
        ⟨n, Or.inl le_rfl, hempty ▸ hready.batchStored_of_sameStore hreports.sameStore⟩,
        hetfs.reports hinj hreports (by decide)⟩
    obtain ⟨hstores, hloses⟩ := storing_refreshContextQuotes (p := p) "INDEX_QUOTES"
      (hready.mono (hnumber.resolve_right hempty)) hepoch hnow hdisjoint hindexes
      tdxUniverse.contextIndexes_nodup haccepted
    by_cases hall : p.StoresAll t epoch given.observedAt indexes
    · obtain ⟨t', hrun, hstored, hreports⟩ := hstores hall
      refine Or.inl ⟨t', hrun, hall, rfl, ⟨101, Or.inr le_rfl, hstored⟩, fun r hr heq => ?_⟩
      rcases hreports r hr with hr | huid
      · exact hetfs r hr heq
      · exact absurd (hinj (huid.symm.trans heq)) (by decide)
    · obtain ⟨e, t', hrun, -⟩ := hloses hall
      exact Or.inr ⟨e, t', hrun, Or.inr hall⟩

theorem batchOfQuotes_eq_nil_iff : batchOfQuotes quotes = [] ↔ quotes = [] := by
  unfold batchOfQuotes
  split
  · rename_i hne
    exact iff_of_false (List.cons_ne_nil _ _) hne
  · rename_i hnil
    exact iff_of_true rfl (not_not.mp hnil)

/-- What a refresh comes to. -/
structure RefreshIngested (p : NativeTdxProvider) (epoch : MarketSourceEpoch) (given : Poll)
    (indexes etfs : List TdxQuote) (t : MarketTables) (calls : List IngestCall)
    (result : EStateM.Result Exn MarketTables Unit) : Prop where
  ingests : Ingests epoch.epochUid given.observedAt calls t (stateAfter result)
  numbers : (calls.map IngestCall.sequence).Sublist
    ((batchOfQuotes indexes).map (fun _ => 100) ++ (batchOfQuotes etfs).map fun _ => 101)
  every : calls.map IngestCall.quotes = batchOfQuotes indexes ++ batchOfQuotes etfs ↔
    p.StoresAll t epoch given.observedAt
      (batchOfQuotes indexes ++ batchOfQuotes etfs).dropLast.flatten
  recorded : p.StoresAll t epoch given.observedAt
      (batchOfQuotes indexes ++ batchOfQuotes etfs).dropLast.flatten →
    (AllRecorded epoch.epochUid given.observedAt calls (stateAfter result) ↔
      p.HoldsNew t epoch given.observedAt (batchOfQuotes indexes ++ batchOfQuotes etfs).flatten)

theorem map_sequence_batchCalls :
    (batchCalls sequence quotes t).map IngestCall.sequence =
      (batchOfQuotes quotes).map fun _ => sequence := by
  unfold batchCalls batchOfQuotes
  by_cases hempty : quotes = []
  · rw [if_pos hempty, if_neg (not_not.mpr hempty)]
    rfl
  · rw [if_neg hempty, if_pos hempty]
    rfl

include hnow hdisjoint in
/-- What the quotes of a refresh come to. -/
theorem refreshIngested {n : ℕ} (hready : Ready epoch.epochUid given.observedAt given.uids n t)
    (hepoch : t.epoch? epoch.epochUid = some epoch) (hinj : given.healthUid.Injective)
    (hindexes : Unreported given "INDEX_QUOTES" t) (hetfs : Unreported given "ETF_QUOTES" t)
    (htdxUniverse : p.tdxUniverse = some tdxUniverse)
    (hfirst : n ≤ 100 ∨ tdxUniverse.indexQuotes given = [])
    (hsecond : n ≤ 101 ∨ tdxUniverse.etfQuotes given = []) :
    RefreshIngested p epoch given (tdxUniverse.indexQuotes given) (tdxUniverse.etfQuotes given) t
      (p.refreshCalls epoch.epochUid given t)
      ((p.refreshSupportingQuotes epoch.epochUid given).run t) := by
  have hingests := batchIngested_refreshContextQuotes (p := p) hnow hready hepoch hindexes hfirst
  unfold NativeTdxProvider.refreshCalls NativeTdxProvider.refreshSupportingQuotes
  rw [htdxUniverse]
  dsimp only
  rw [contextCalls_eq]
  rcases refreshIndexes_cases (p := p) hnow hdisjoint hready hepoch hinj hindexes hetfs hfirst with
    ⟨t', hrun, hall, heq, ⟨m, hm, hstored⟩, hetfs'⟩ | ⟨e, t', hrun, hnone⟩
  · have hnumber : m ≤ 101 ∨ acceptedContext given tdxUniverse.contextEtfs = [] := by
      rcases hsecond with hsecond | hsecond
      · exact Or.inl (hm.elim (fun h => h.trans hsecond) id)
      · exact Or.inr (heq.symm.trans hsecond)
    have hepoch' : t'.epoch? epoch.epochUid = some epoch := by
      rw [MarketTables.epoch?, hstored.epochs]
      exact hepoch
    have hrest := batchIngested_refreshContextQuotes (p := p) hnow hstored.ready hepoch' hetfs'
      hnumber
    rw [hrun] at hingests
    rw [hrun, run_bind_of_ok hrun]
    dsimp only
    rw [contextCalls_eq, heq]
    refine ⟨hingests.ingests.append hrest.ingests, ?_, ?_, fun _ => ?_⟩
    · rw [List.map_append, map_sequence_batchCalls, map_sequence_batchCalls]
      exact List.Sublist.refl _
    · rw [List.map_append, map_quotes_batchCalls, map_quotes_batchCalls]
      exact iff_of_true rfl (storesAll_dropLast_pair.mpr (Or.inr hall))
    · rw [List.flatten_append, flatten_batchOfQuotes, flatten_batchOfQuotes,
        holdsNew_append hstored hall]
      exact (allRecorded_append (hingests.recorded.mpr (holdsNew_of_storable hall.2))
        hrest.ingests.grows).trans hrest.recorded
  · rw [hrun] at hingests
    rw [hrun, run_bind_of_error hrun]
    dsimp only
    rw [List.append_nil]
    refine ⟨hingests.ingests, ?_, ?_, fun hdropLast => ?_⟩
    · rw [map_sequence_batchCalls]
      exact List.sublist_append_left _ _
    · rw [map_quotes_batchCalls, storesAll_dropLast_pair]
      change batchOfQuotes (tdxUniverse.indexQuotes given) = _ ↔ _
      rw [List.self_eq_append_right, batchOfQuotes_eq_nil_iff]
      exact ⟨Or.inl, Or.rec id fun hall => hnone.resolve_right (not_not.mpr hall)⟩
    · have hempty : tdxUniverse.etfQuotes given = [] :=
        (storesAll_dropLast_pair.mp hdropLast).elim id fun hall =>
          hnone.resolve_right (not_not.mpr hall)
      rw [List.flatten_append, flatten_batchOfQuotes, flatten_batchOfQuotes, hempty,
        List.append_nil]
      exact hingests.recorded

end

/-! ## The outcome of a cycle -/

theorem storesAll_dropLast (h : p.StoresAll t epoch now batches.flatten) :
    p.StoresAll t epoch now batches.dropLast.flatten := by
  rcases List.eq_nil_or_concat batches with rfl | ⟨front, last, rfl⟩
  · exact h
  · rw [List.concat_eq_append, List.flatten_append] at h
    rw [List.concat_eq_append, List.dropLast_concat]
    exact StoresAll.left h

/-- All batches but the last, with some that are stored before the others. -/
theorem storesAll_dropLast_append {rest : List (List TdxQuote)}
    (h : BatchStored p epoch now uids sequence batches.flatten t t')
    (hall : p.StoresAll t epoch now batches.flatten) :
    p.StoresAll t epoch now (batches ++ rest).dropLast.flatten ↔
      p.StoresAll t' epoch now rest.dropLast.flatten := by
  by_cases hrest : rest = []
  · rw [hrest, List.append_nil]
    exact iff_of_true (storesAll_dropLast hall) (storesAll_nil p t' epoch now)
  · rw [List.dropLast_append_of_ne_nil hrest, List.flatten_append, storesAll_append h,
      and_iff_right hall]

/-- A refresh uses a number of the poll when its batches are not told apart. -/
theorem exists_mem_refreshCalls (batches : List (List TdxQuote))
    (htdxUniverse : p.tdxUniverse = some tdxUniverse)
    (hepoch : (t.epoch? epochUid).isSome) (hindexes : Unreported given "INDEX_QUOTES" t)
    (hnot : ¬CycleBatches.ToldApart
      ⟨batches, tdxUniverse.indexQuotes given, tdxUniverse.etfQuotes given⟩) :
    ∃ k < batches.length, k ∈ (p.refreshCalls epochUid given t).map IngestCall.sequence := by
  unfold NativeTdxProvider.refreshCalls
  rw [htdxUniverse]
  dsimp only
  rw [contextCalls_eq, List.map_append, map_sequence_batchCalls]
  by_cases hempty : tdxUniverse.indexQuotes given = []
  · have hlength : 101 < batches.length ∧ tdxUniverse.etfQuotes given ≠ [] := by
      by_contra hnone
      refine hnot ⟨Or.inr hempty, ?_⟩
      by_cases hetfs : tdxUniverse.etfQuotes given = []
      · exact Or.inr hetfs
      · exact Or.inl (Nat.le_of_not_lt fun hlt => hnone ⟨hlt, hetfs⟩)
    obtain ⟨hlength, hetfs⟩ := hlength
    unfold TdxUniverse.etfQuotes at hetfs
    unfold TdxUniverse.indexQuotes acceptedContext at hempty
    cases haccepted : contextAccepted given.gateway given.observedAt
        tdxUniverse.contextIndexes with
    | error e =>
      rw [haccepted] at hetfs
      exact absurd rfl hetfs
    | ok indexes =>
      rw [haccepted] at hetfs hempty
      obtain ⟨t', hrun, -⟩ := run_refreshContextQuotes_nil (p := p) 100 hepoch
        hindexes (haccepted.trans (congrArg Except.ok hempty))
      refine ⟨101, hlength, List.mem_append_right _ ?_⟩
      rw [hrun]
      dsimp only
      rw [contextCalls_eq, map_sequence_batchCalls, batchOfQuotes, if_pos hetfs]
      exact List.mem_singleton_self _
  · have hlength : 100 < batches.length := by
      by_contra hle
      have hle := Nat.le_of_not_lt hle
      exact hnot ⟨Or.inl hle, Or.inl (hle.trans (by decide))⟩
    refine ⟨100, hlength, List.mem_append_left _ ?_⟩
    change 100 ∈ (batchOfQuotes (tdxUniverse.indexQuotes given)).map _
    rw [batchOfQuotes, if_pos hempty]
    exact List.mem_singleton_self _

/-- A cycle that accepts nothing makes no call. -/
theorem cycleIngested_of_nil (rest : OtherWrites)
    (hcalls : p.cycleCalls epoch.epochUid given s = [])
    (hbatches : p.cycleBatches epoch.epochUid given s = ⟨[], [], []⟩) :
    p.CycleIngested epoch.epochUid given rest s ↔ p.CycleFits epoch given s := by
  refine iff_of_true ⟨?_, ?_, ?_, ?_⟩ ⟨?_, ?_, ?_⟩
  · rw [hcalls]
    exact List.nodup_nil
  · rw [hcalls]
    exact fun _ hcall => absurd hcall List.not_mem_nil
  · rw [hcalls, hbatches]
    rfl
  · rw [hcalls]
    exact fun _ hcall => absurd hcall List.not_mem_nil
  · rw [hbatches]
    exact ⟨Or.inl (Nat.zero_le _), Or.inl (Nat.zero_le _)⟩
  · rw [hbatches]
    exact storesAll_nil p _ epoch _
  · rw [hbatches]
    exact holdsNew_nil p _ epoch _

/-- Different numbers are different identifiers. -/
theorem identifiers_nodup (hnow : now < maxInstant)
    (h : (calls.map IngestCall.sequence).Nodup) :
    (calls.map (IngestCall.identifier · now)).Nodup := by
  refine List.pairwise_map.mpr ((List.pairwise_map.mp h).imp fun hne heq => ?_)
  exact hne (batchIdentifier_inj hnow hnow heq).2

/-- The numbers of the batches of a cycle that are told apart differ. -/
theorem numbers_nodup {b : CycleBatches} (h : b.ToldApart) {numbers : List ℕ}
    (hnumbers : numbers.Sublist ((batchOfQuotes b.indexes).map (fun _ => 100) ++
      (batchOfQuotes b.etfs).map fun _ => 101)) :
    (List.range' 0 b.polled.length ++ numbers).Nodup := by
  refine List.Nodup.sublist ((List.Sublist.refl _).append hnumbers) ?_
  unfold batchOfQuotes
  have hrange : (List.range' 0 b.polled.length).Nodup := List.nodup_range'
  have hindexes : b.indexes ≠ [] → b.polled.length ≤ 100 := h.indexes.resolve_right
  have hetfs : b.etfs ≠ [] → b.polled.length ≤ 101 := h.etfs.resolve_right
  split
  · rename_i hne
    have hle := hindexes hne
    split
    · simp [List.nodup_append, hrange]
      omega
    · simp [List.nodup_append, hrange]
      omega
  · split
    · rename_i hne
      have hle := hetfs hne
      simp [List.nodup_append, hrange]
      omega
    · simpa using hrange

/-- What follows the quotes of a refresh keeps the quotes. -/
theorem sameQuotes_refreshSupportingData (epochUid : Uid) (rest : OtherWrites)
    (s : ProviderState) :
    SameQuotes (stateAfter ((p.refreshSupportingQuotes epochUid given).run s.tables))
      (stateAfter ((p.refreshSupportingData epochUid given rest).run s)).tables := by
  unfold NativeTdxProvider.refreshSupportingData
  cases hrun : (p.refreshSupportingQuotes epochUid given).run s.tables with
  | error e t' =>
    rw [run_bind_of_error (run_onTables_of_error hrun)]
    exact (SameStore.refl t').toSameQuotes
  | ok u t' =>
    rw [run_bind_of_ok (run_onTables_of_ok hrun)]
    exact rest.keeps t'

/-- A refresh that repeats the number of a batch of the poll repeats its identifier. -/
theorem not_cycleIngested_of_confused {b : CycleBatches} (rest : OtherWrites)
    (hnumbers : (p.pollCalls epoch.epochUid given s).map IngestCall.sequence =
      List.range' 0 b.polled.length)
    (hcalls : p.cycleCalls epoch.epochUid given s = p.pollCalls epoch.epochUid given s ++
      p.refreshCalls epoch.epochUid given t)
    (hepoch : t.epoch? epoch.epochUid = some epoch) (hindexes : Unreported given "INDEX_QUOTES" t)
    (htdxUniverse : p.tdxUniverse = some tdxUniverse)
    (hnot : ¬CycleBatches.ToldApart
      ⟨b.polled, tdxUniverse.indexQuotes given, tdxUniverse.etfQuotes given⟩) :
    ¬p.CycleIngested epoch.epochUid given rest s := by
  intro h
  obtain ⟨k, hk, hmem⟩ := exists_mem_refreshCalls (p := p) b.polled htdxUniverse
    (Option.isSome_iff_exists.mpr ⟨epoch, hepoch⟩) hindexes hnot
  have hpollMem : k ∈ (p.pollCalls epoch.epochUid given s).map IngestCall.sequence := by
    rw [hnumbers, List.mem_range'_1]
    omega
  obtain ⟨call, hcall, rfl⟩ := List.mem_map.mp hpollMem
  obtain ⟨call', hcall', heq⟩ := List.mem_map.mp hmem
  have hdistinct := h.distinct
  rw [hcalls, List.map_append, List.nodup_append] at hdistinct
  refine hdistinct.2.2 _ (List.mem_map_of_mem hcall) _ (List.mem_map_of_mem hcall') ?_
  exact congrArg (batchIdentifier given.observedAt) heq.symm

/-- The other writes of a refresh keep what the cycle recorded. -/
theorem allRecorded_cycle_iff (rest : OtherWrites) {a : TdxPollResult} {s' : ProviderState}
    (hrun : (p.pollOnce epoch.epochUid given).run s = .ok a s')
    (hrecorded : AllRecorded epoch.epochUid given.observedAt (p.pollCalls epoch.epochUid given s)
      s'.tables)
    (hgrows : Grows s'.tables
      (stateAfter ((p.refreshSupportingQuotes epoch.epochUid given).run s'.tables)))
    (calls : List IngestCall) :
    AllRecorded epoch.epochUid given.observedAt (p.pollCalls epoch.epochUid given s ++ calls)
        (stateAfter ((p.cycle epoch.epochUid given rest).run s)).tables ↔
      AllRecorded epoch.epochUid given.observedAt calls
        (stateAfter ((p.refreshSupportingQuotes epoch.epochUid given).run s'.tables)) := by
  have hcycle : (p.cycle epoch.epochUid given rest).run s =
      (p.refreshSupportingData epoch.epochUid given rest).run s' := run_bind_of_ok hrun
  have hafter := @sameQuotes_refreshSupportingData given p epoch.epochUid rest s'
  rw [hcycle, hafter.allRecorded_iff]
  exact allRecorded_append hrecorded hgrows

section

variable {b : CycleBatches} (rest : OtherWrites)
  (hbatches : p.cycleBatches epoch.epochUid given s = b)
  (hpoll : PollIngested p epoch given b.polled s (p.pollCalls epoch.epochUid given s)
    ((p.pollOnce epoch.epochUid given).run s))
  (hnow : given.observedAt < maxInstant)

include hbatches hpoll hnow

/-- A poll that raises ends the cycle : what is left of the batches is not ingested. -/
theorem cycleIngested_of_lost
    (hnot : ¬p.StoresAll s.tables epoch given.observedAt b.polled.flatten) :
    p.CycleIngested epoch.epochUid given rest s ↔ p.CycleFits epoch given s := by
  obtain ⟨e, s', hrun⟩ : ∃ e s', (p.pollOnce epoch.epochUid given).run s = .error e s' := by
    have hlost := hpoll.lost hnot
    cases hrun : (p.pollOnce epoch.epochUid given).run s with
    | ok a s' =>
      rw [hrun] at hlost
      cases hlost
    | error e s' => exact ⟨e, s', rfl⟩
  have hcalls : p.cycleCalls epoch.epochUid given s = p.pollCalls epoch.epochUid given s := by
    rw [NativeTdxProvider.cycleCalls, hrun]
    exact List.append_nil _
  have hcycle : (p.cycle epoch.epochUid given rest).run s = .error e s' := run_bind_of_error hrun
  by_cases hcontext : batchOfQuotes b.indexes ++ batchOfQuotes b.etfs = []
  · have hall : b.all = b.polled := by
      rw [CycleBatches.all, hcontext, List.append_nil]
    obtain ⟨hindexes, hetfs⟩ := List.append_eq_nil_iff.mp hcontext
    have hrecorded := hpoll.recorded
    rw [hrun] at hrecorded
    constructor
    · intro h
      have hevery := h.every
      rw [hcalls, hbatches, hall] at hevery
      have hstored := hpoll.every.mp hevery
      have hheld := h.recorded
      rw [hcalls, hcycle] at hheld
      refine ⟨?_, ?_, ?_⟩
      · rw [hbatches]
        exact ⟨Or.inr (batchOfQuotes_eq_nil_iff.mp hindexes),
          Or.inr (batchOfQuotes_eq_nil_iff.mp hetfs)⟩
      · rw [hbatches, hall]
        exact hstored
      · rw [hbatches, hall]
        exact (hrecorded hstored).mp hheld
    · rintro ⟨-, hstored, hheld⟩
      rw [hbatches, hall] at hstored hheld
      refine ⟨?_, ?_, ?_, ?_⟩
      · rw [hcalls]
        exact identifiers_nodup hnow (hpoll.numbers ▸ List.nodup_range')
      · rw [hcalls]
        exact hpoll.ingests.unanswered
      · rw [hcalls, hbatches, hall]
        exact hpoll.every.mpr hstored
      · rw [hcalls, hcycle]
        exact (hrecorded hstored).mpr hheld
  · refine iff_of_false (fun h => ?_) fun h => ?_
    · have hlength := hpoll.taken.length_le
      have hevery := h.every
      rw [hcalls, hbatches, CycleBatches.all] at hevery
      rw [hevery, List.length_append] at hlength
      exact hcontext
        (List.length_eq_zero_iff.mp (Nat.le_zero.mp (Nat.le_of_add_le_add_left hlength)))
    · have hall := h.stored
      rw [hbatches, CycleBatches.all, List.dropLast_append_of_ne_nil hcontext,
        List.flatten_append] at hall
      exact hnot (StoresAll.left hall)

/-- A poll that stores its quotes is followed by a refresh. -/
theorem cycleIngested_of_stored (hvalid : CycleValid epoch.epochUid epoch given s.tables)
    {tdxUniverse : TdxUniverse} (htdxUniverse : p.tdxUniverse = some tdxUniverse)
    (hindexes : b.indexes = tdxUniverse.indexQuotes given)
    (hetfs : b.etfs = tdxUniverse.etfQuotes given)
    (hall : p.StoresAll s.tables epoch given.observedAt b.polled.flatten) :
    p.CycleIngested epoch.epochUid given rest s ↔ p.CycleFits epoch given s := by
  obtain ⟨a, s', hrun, hstored, hnoIndexes, hnoEtfs⟩ := hpoll.stored hall
  have hepoch : s'.tables.epoch? epoch.epochUid = some epoch := by
    rw [MarketTables.epoch?, hstored.epochs]
    exact hvalid.epoch
  have hpolled : (p.pollCalls epoch.epochUid given s).map IngestCall.quotes = b.polled :=
    hpoll.every.mpr (storesAll_dropLast hall)
  have hpollRecorded := (hpoll.recorded (storesAll_dropLast hall)).mpr
    (holdsNew_of_storable hall.2)
  have hpollIngests := hpoll.ingests
  rw [hrun] at hpollRecorded hpollIngests
  have hcalls : p.cycleCalls epoch.epochUid given s = p.pollCalls epoch.epochUid given s ++
      p.refreshCalls epoch.epochUid given s'.tables := by
    rw [NativeTdxProvider.cycleCalls, hrun]
  have hnumbers : (p.pollCalls epoch.epochUid given s).map IngestCall.sequence =
      List.range' 0 b.polled.length := by
    rw [hpoll.numbers, ← hpolled, List.length_map]
  by_cases happart : b.ToldApart
  swap
  · exact iff_of_false (not_cycleIngested_of_confused rest hnumbers hcalls hepoch hnoIndexes
      htdxUniverse (hindexes ▸ hetfs ▸ happart)) fun h => happart (hbatches ▸ h.apart)
  have hrefresh := refreshIngested (p := p) hnow hvalid.disjoint hstored.ready hepoch
    hvalid.healthUid_inj hnoIndexes hnoEtfs htdxUniverse (hindexes ▸ happart.indexes)
    (hetfs ▸ happart.etfs)
  rw [← hindexes, ← hetfs] at hrefresh
  have hstoredRest : p.StoresAll s.tables epoch given.observedAt b.all.dropLast.flatten ↔
      p.StoresAll s'.tables epoch given.observedAt
        (batchOfQuotes b.indexes ++ batchOfQuotes b.etfs).dropLast.flatten :=
    storesAll_dropLast_append hstored hall
  have hheldRest : p.HoldsNew s.tables epoch given.observedAt b.all.flatten ↔
      p.HoldsNew s'.tables epoch given.observedAt
        (batchOfQuotes b.indexes ++ batchOfQuotes b.etfs).flatten := by
    rw [CycleBatches.all, List.flatten_append]
    exact holdsNew_append hstored hall
  have hrecorded := allRecorded_cycle_iff rest hrun hpollRecorded hrefresh.ingests.grows
    (p.refreshCalls epoch.epochUid given s'.tables)
  rw [← hcalls] at hrecorded
  constructor
  · intro h
    have hevery := h.every
    rw [hcalls, hbatches, List.map_append, hpolled, CycleBatches.all] at hevery
    have hrest := hrefresh.every.mp (List.append_cancel_left hevery)
    refine ⟨hbatches.symm ▸ happart, ?_, ?_⟩
    · rw [hbatches]
      exact hstoredRest.mpr hrest
    · rw [hbatches]
      exact hheldRest.mpr ((hrefresh.recorded hrest).mp (hrecorded.mp h.recorded))
  · rintro ⟨-, hstores, hheld⟩
    rw [hbatches] at hstores hheld
    have hrest := hstoredRest.mp hstores
    refine ⟨?_, ?_, ?_, ?_⟩
    · rw [hcalls]
      refine identifiers_nodup hnow ?_
      rw [List.map_append, hnumbers]
      exact numbers_nodup happart hrefresh.numbers
    · rw [hcalls]
      exact (hpollIngests.append hrefresh.ingests).unanswered
    · rw [hcalls, hbatches, List.map_append, hpolled, hrefresh.every.mpr hrest]
      rfl
    · exact hrecorded.mpr ((hrefresh.recorded hrest).mpr (hheldRest.mp hheld))

end

/-- An acquisition that raises makes no call. -/
theorem pollCalls_of_error (hepoch : (s.tables.epoch? epochUid).isSome)
    (htdxUniverse : p.tdxUniverse = some tdxUniverse) {e : Exn}
    (haccepted : acceptedOf s.previousQuotes given.gateway given.observedAt
      (tdxUniverse.requests epochUid given s.tables) = .error e) :
    p.cycleCalls epochUid given s = [] := by
  obtain ⟨hanswer, -⟩ := run_acquireBatches given.gateway given.observedAt
    hepoch _ (requests_nodup tdxUniverse epochUid given s.tables)
  rw [haccepted, TdxUniverse.requests] at hanswer
  unfold NativeTdxProvider.cycleCalls NativeTdxProvider.pollCalls NativeTdxProvider.pollOnce
  rw [htdxUniverse]
  dsimp only
  rw [run_bind_of_ok (run_get s)]
  cases hrun : (acquireBatches epochUid given.gateway given.observedAt (batchesOf
      (s.tables.eligible epochUid given.observedAt tdxUniverse) 75)).run s with
  | ok accepted s₁ =>
    rw [hrun] at hanswer
    cases hanswer
  | error e' s₁ =>
    rw [run_bind_of_error hrun]
    rfl

/-- A cycle accepts nothing and makes no call, or its poll ingests what it accepts. -/
theorem cycle_cases (hvalid : CycleValid epoch.epochUid epoch given s.tables)
    (hs : Callable epoch.epochUid s.tables) :
    (p.cycleCalls epoch.epochUid given s = [] ∧
      p.cycleBatches epoch.epochUid given s = ⟨[], [], []⟩) ∨
    ∃ tdxUniverse polled, p.tdxUniverse = some tdxUniverse ∧
      p.cycleBatches epoch.epochUid given s =
        ⟨polled, tdxUniverse.indexQuotes given, tdxUniverse.etfQuotes given⟩ ∧
      PollIngested p epoch given polled s (p.pollCalls epoch.epochUid given s)
        ((p.pollOnce epoch.epochUid given).run s) := by
  unfold NativeTdxProvider.cycleBatches
  cases htdxUniverse : p.tdxUniverse with
  | none =>
    refine Or.inl ⟨?_, rfl⟩
    unfold NativeTdxProvider.cycleCalls NativeTdxProvider.pollCalls NativeTdxProvider.pollOnce
    rw [htdxUniverse]
    rfl
  | some tdxUniverse =>
    dsimp only
    cases haccepted : acceptedOf s.previousQuotes given.gateway given.observedAt
        (tdxUniverse.requests epoch.epochUid given s.tables) with
    | error e =>
      exact Or.inl ⟨pollCalls_of_error (Option.isSome_iff_exists.mpr ⟨epoch, hvalid.epoch⟩)
        htdxUniverse haccepted, rfl⟩
    | ok polled =>
      exact Or.inr ⟨tdxUniverse, polled, rfl, rfl,
        pollIngested hvalid hs htdxUniverse haccepted⟩

/-- The batches of a cycle whose batches are all ingested are told apart. -/
theorem NativeTdxProvider.CycleIngested.toldApart {rest : OtherWrites}
    (h : p.CycleIngested epochUid given rest s)
    (hvalid : CycleValid epochUid epoch given s.tables) (hs : Callable epochUid s.tables) :
    (p.cycleBatches epochUid given s).ToldApart := by
  obtain rfl := MarketTables.epochUid_of_epoch? hvalid.epoch
  rcases cycle_cases hvalid hs with
    ⟨-, hnil⟩ | ⟨tdxUniverse, polled, htdxUniverse, hbatches, hpoll⟩
  · rw [hnil]
    exact ⟨Or.inl (Nat.zero_le _), Or.inl (Nat.zero_le _)⟩
  by_cases hall : p.StoresAll s.tables epoch given.observedAt polled.flatten
  · exact ((cycleIngested_of_stored rest hbatches hpoll hvalid.now_lt hvalid htdxUniverse rfl rfl
      hall).mp h).apart
  · exact ((cycleIngested_of_lost rest hbatches hpoll hvalid.now_lt hall).mp h).apart

/-! ## A poll of single instruments -/

/-- A stock of Shanghai. -/
def stockOf (n : ℕ) : TdxInstrument where
  market := 1
  code := String.ofList ['6', '0', '0', (n / 100 % 10).digitChar, (n / 10 % 10).digitChar,
    (n % 10).digitChar]
  kind := .stock
  valid := by
    have hdigit : ∀ d < 10, d.digitChar.isDigit = true := by decide
    have hmod : ∀ k, (k % 10).digitChar.isDigit = true := fun k =>
      hdigit _ (Nat.mod_lt k (by decide))
    refine ⟨Or.inr rfl, ?_⟩
    rw [String.toList_ofList]
    refine ⟨rfl, fun c hc => ?_⟩
    simp only [List.mem_cons, List.not_mem_nil, or_false] at hc
    rcases hc with rfl | rfl | rfl | rfl | rfl | rfl
    · rfl
    · rfl
    · rfl
    · exact hmod _
    · exact hmod _
    · exact hmod _

/-- The index of Shanghai. -/
def shanghaiIndex : TdxInstrument := ⟨1, "000001", .index, by decide⟩

/-- A gateway that answers requests for one instrument only. -/
def singleGateway : TdxGateway
  | [i] => .ok [⟨i.market, i.code, ⟨10, 0⟩, ⟨10, 0⟩, ⟨10, 0⟩, ⟨10, 0⟩, ⟨10, 0⟩, 1000, 0, ⟨1, 6⟩,
      94000⟩]
  | _ => .error ⟨.runtimeError, "quote response is truncated"⟩

/-- A cycle of some stocks and an index that is answered so. -/
def singlePoll : Poll where
  observedAt := minutes 100
  gateway := singleGateway
  durationMs := 0
  uids j := ⟨letterUid 'a' j, fun i => letterUid 'a' (Nat.pair j i),
    fun i => letterUid 'a' (Nat.pair j i)⟩
  healthUid capability := String.ofList ('a' :: capability.toList)

/-- A provider of some stocks and the index. -/
def providerOf (stocks : List TdxInstrument)
    (h : (stocks.map TdxInstrument.identity).Nodup) : NativeTdxProvider where
  parseRfc3339 _ := none
  clock := none
  thresholds := ninetyPercent
  tdxUniverse := some ⟨stocks, [shanghaiIndex], [], h, nodup_identities_singleton shanghaiIndex,
    nodup_identities_nil⟩

/-- The tables with the mappings of some stocks and of the index. -/
def tablesOf (stocks : List TdxInstrument) : MarketTables :=
  { MarketTables.empty with
    marketSourceEpoch := [⟨"epoch", "NATIVE_TDX", "tdx-v1", 0, none, true, false⟩]
    instrument := (stocks ++ [shanghaiIndex]).map fun i => ⟨i.code, i.kind⟩
    providerMapping := (stocks ++ [shanghaiIndex]).map fun i =>
      ⟨i.code, "NATIVE_TDX", i.externalCode, .instrument i.code, 0, none⟩ }

/-- The poll is valid in the tables of its stocks. -/
theorem singlePoll_valid (stocks : List TdxInstrument) :
    CycleValid "epoch" ⟨"epoch", "NATIVE_TDX", "tdx-v1", 0, none, true, false⟩ singlePoll
      (tablesOf stocks) where
  epoch := rfl
  now_lt := by decide +kernel
  past _ hb := absurd hb List.not_mem_nil
  fresh j := by
    refine ⟨fun _ hb => absurd hb List.not_mem_nil, fun _ hl => absurd hl List.not_mem_nil,
      fun _ hq => absurd hq List.not_mem_nil, fun i i' h => ?_, fun i i' h => ?_⟩
    · exact (Nat.pair_eq_pair.mp (letterUid_inj h).2).2
    · exact (Nat.pair_eq_pair.mp (letterUid_inj h).2).2
  disjoint j k hne := by
    refine ⟨fun h => hne (letterUid_inj h).2, fun i i' h => ?_, fun i i' h => ?_⟩
    · exact hne (Nat.pair_eq_pair.mp (letterUid_inj h).2).1
    · exact hne (Nat.pair_eq_pair.mp (letterUid_inj h).2).1
  reports _ _ hr := absurd hr List.not_mem_nil
  healthUid_inj _ _ h := String.toList_inj.mp (List.tail_eq_of_cons_eq (String.ofList_inj.mp h))

theorem callable_tablesOf (stocks : List TdxInstrument) : Callable "epoch" (tablesOf stocks) := by
  refine ⟨⟨?_, ?_, ?_, ?_, ?_, ?_, ?_⟩, ?_⟩
  all_goals exact fun x hx => absurd hx List.not_mem_nil

/-- The quote of an instrument. -/
def singleQuote (i : TdxInstrument) : TdxQuote :=
  TdxRawQuote.value ⟨i.market, i.code, ⟨10, 0⟩, ⟨10, 0⟩, ⟨10, 0⟩, ⟨10, 0⟩, ⟨10, 0⟩, 1000, 0,
    ⟨1, 6⟩, 94000⟩ i (minutes 100)

/-- Its quotes fit the columns. -/
theorem storable_singleQuote (i : TdxInstrument) : (singleQuote i).Storable := by
  have hfits : ∀ n ∈ some (100000 : ℤ), FitsColumn n := fun n hn => by
    cases hn
    decide
  have hprice : FitsPrice (some ⟨10, 0⟩) := ⟨some 100000, by decide +kernel, hfits⟩
  have hamount : amountStorage (some ⟨1, 6⟩) = .ok (some 10000000000) := by decide +kernel
  have hlast : scaledPrice (some ⟨10, 0⟩) = .ok (some 100000, .value) := by decide +kernel
  have htime : FitsColumn 94000 := by decide
  refine ⟨⟨⟨_, hamount⟩, hprice, hprice, hprice, hprice, htime⟩, ⟨_, hlast, hfits⟩,
    fun n hn => ?_⟩
  cases hn
  change FitsColumn (quoteVolume 1000 i.kind).1
  cases i.kind
  all_goals decide +kernel

/-- Its stocks are different instruments. -/
theorem stockOf_inj {m n : ℕ} (hm : m < 1000) (hn : n < 1000)
    (h : (stockOf m).identity = (stockOf n).identity) : m = n := by
  have hdigit : ∀ d < 10, ∀ d' < 10, d.digitChar = d'.digitChar → d = d' := by decide
  have hmod : ∀ k k', (k % 10).digitChar = (k' % 10).digitChar → k % 10 = k' % 10 := fun k k' =>
    hdigit _ (Nat.mod_lt k (by decide)) _ (Nat.mod_lt k' (by decide))
  have hcode := String.ofList_inj.mp (Prod.mk.inj h).2
  simp only [List.cons.injEq, true_and, and_true] at hcode
  obtain ⟨hhundreds, htens, hones⟩ := hcode
  have hhundreds := hmod _ _ hhundreds
  have htens := hmod _ _ htens
  have hones := hmod _ _ hones
  omega

theorem hundredStocks_nodup :
    (((List.range 101).map stockOf).map TdxInstrument.identity).Nodup := by
  rw [List.map_map]
  refine List.Nodup.map_on (fun m hm n hn h => ?_) List.nodup_range
  rw [List.mem_range] at hm hn
  exact stockOf_inj (hm.trans (by decide)) (hn.trans (by decide)) h

end MarketMonitor
