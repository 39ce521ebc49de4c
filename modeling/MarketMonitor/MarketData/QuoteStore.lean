import MarketMonitor.MarketData.Ingestion

/-!
# What an ingestion stores

A lineage has one business key and a current quote, and every row refers to rows that are
there (`QuoteStore`). The quotes a batch adds are those of the mapped records that are the
first of their business key (`newQuotes`). In such a database a batch with new identifiers is
stored when the columns hold the prices and the volumes of these records (`Bindable`,
`run_ingestCommand`), and rolled back else (`run_ingest_of_not_bindable`).
-/

namespace MarketMonitor

open Transaction

/-! ## The invariant -/

/-- The lineages and quotes of a database, and what refers to them. -/
structure QuoteStore (t : MarketTables) : Prop where
  key : ∀ l ∈ t.quoteLineage,
    l.businessKeySha256 = businessKey l.epochUid l.instrumentUid l.sourceTime
  current : ∀ l ∈ t.quoteLineage,
    ∃ q ∈ t.marketQuote, q.lineageUid = l.lineageUid ∧ q.isCurrent = true
  lineage : ∀ q ∈ t.marketQuote, ∃ l ∈ t.quoteLineage, l.lineageUid = q.lineageUid
  batch : ∀ q ∈ t.marketQuote, ∃ b ∈ t.marketDataBatch, b.batchUid = q.batchUid
  record : ∀ r ∈ t.rawMarketRecord, ∃ b ∈ t.marketDataBatch, b.batchUid = r.batchUid
  issue : ∀ i ∈ t.quoteQualityIssue, ∃ q ∈ t.marketQuote, q.quoteUid = i.quoteUid
  detail : ∀ d ∈ t.tdxQuoteDetail, ∃ q ∈ t.marketQuote, q.quoteUid = d.quoteUid

/-- The business keys of the lineages. -/
def MarketTables.keys (t : MarketTables) : List String :=
  t.quoteLineage.map QuoteLineage.businessKeySha256

/-- Identifiers that no row has. -/
structure IngestUids.Fresh (uids : IngestUids) (t : MarketTables) : Prop where
  batch : ∀ b ∈ t.marketDataBatch, b.batchUid ≠ uids.batch
  lineage : ∀ l ∈ t.quoteLineage, ∀ j, l.lineageUid ≠ uids.lineage j
  quote : ∀ q ∈ t.marketQuote, ∀ j, q.quoteUid ≠ uids.quote j
  lineage_inj : uids.lineage.Injective
  quote_inj : uids.quote.Injective

/-- Identifiers that no row has, from those of a record on. -/
structure IngestUids.FreshFrom (uids : IngestUids) (index : ℕ) (t : MarketTables) : Prop where
  record : ∀ r ∈ t.rawMarketRecord, r.batchUid = uids.batch → r.recordIndex < index
  lineage : ∀ l ∈ t.quoteLineage, ∀ j, index ≤ j → l.lineageUid ≠ uids.lineage j
  quote : ∀ q ∈ t.marketQuote, ∀ j, index ≤ j → q.quoteUid ≠ uids.quote j

variable {t : MarketTables} {ctx : IngestContext} {index : ℕ} {record : ProviderRecord}
  {records : List ProviderRecord}

theorem MarketTables.lineageOf_eq_none_iff {key : String} :
    t.lineageOf key = none ↔ key ∉ t.keys := by
  simp [lineageOf, keys]

theorem MarketTables.existingBatch_eq_none_iff {epochUid : Uid} {providerBatchId : String} :
    t.existingBatch epochUid providerBatchId = none ↔
      ∀ b ∈ t.marketDataBatch, b.epochUid = epochUid → b.providerBatchId ≠ providerBatchId := by
  simp [existingBatch]

/-! ## The integers of a record -/

/-- The columns of the price of a record. -/
def ProviderRecord.priceColumns (record : ProviderRecord) : Option ℤ × FieldValueStatus :=
  match scaledPrice record.price with
  | .ok columns => columns
  | .error _ => (none, .invalid)

/-- A record whose price and volume the columns of a quote hold. -/
structure ProviderRecord.Bindable (record : ProviderRecord) : Prop where
  scaled : scaledPrice record.price = .ok record.priceColumns
  price : ∀ n ∈ record.priceColumns.1, FitsColumn n
  volume : ∀ n ∈ record.volume, FitsColumn n

theorem bindInteger_eq_ok {value : Option ℤ} {u : Unit} :
    bindInteger value = .ok u ↔ ∀ n ∈ value, FitsColumn n := by
  cases value with
  | none => simp [bindInteger]
  | some n => simp [bindInteger, check_eq_ok]

theorem MarketQuote.bindIntegers_eq_ok {row : MarketQuote} {u : Unit} :
    row.bindIntegers = .ok u ↔
      (∀ n ∈ row.priceScaled, FitsColumn n) ∧ ∀ n ∈ row.volume, FitsColumn n := by
  rw [MarketQuote.bindIntegers, except_bind_eq_ok]
  simp only [bindInteger_eq_ok, exists_and_left, exists_const]

/-- A quote of bindable columns is inserted with its issues. -/
theorem run_ingestQuote_of_bindable (h : record.Bindable) (lineageUid : Uid) :
    (ingestQuote ctx index record lineageUid).run t =
      (do
        insertInto marketQuoteTable integrityError
          (record.quoteRow record.priceColumns ctx index lineageUid)
        forM (record.quoteRow record.priceColumns ctx index lineageUid).sourceTimeIssues
          (insertInto quoteQualityIssueTable integrityError)
        return some lineageUid : MarketCommand (Option Uid)).run t := by
  have hbind : (record.quoteRow record.priceColumns ctx index lineageUid).bindIntegers = .ok () :=
    MarketQuote.bindIntegers_eq_ok.mpr ⟨h.price, h.volume⟩
  rw [ingestQuote, run_bind_of_ok (run_fromExcept_of_ok h.scaled)]
  exact run_bind_of_ok (run_fromExcept_of_ok hbind)

/-- A quote whose columns cannot hold it raises. -/
theorem run_ingestQuote_of_not (h : ¬record.Bindable) (lineageUid : Uid) :
    ∃ e t', (ingestQuote ctx index record lineageUid).run t = .error e t' := by
  rw [ingestQuote]
  cases hscaled : scaledPrice record.price with
  | error e => exact ⟨e, t, run_bind_of_error (run_fromExcept_eq_error.mpr ⟨rfl, rfl⟩)⟩
  | ok columns =>
    have hcolumns : record.priceColumns = columns := by rw [ProviderRecord.priceColumns, hscaled]
    rw [run_bind_of_ok (run_fromExcept_of_ok rfl)]
    cases hbind : (record.quoteRow columns ctx index lineageUid).bindIntegers with
    | error e => exact ⟨e, t, run_bind_of_error (run_fromExcept_eq_error.mpr ⟨hbind, rfl⟩)⟩
    | ok u =>
      obtain ⟨hprice, hvolume⟩ := MarketQuote.bindIntegers_eq_ok.mp hbind
      exact absurd ⟨hcolumns ▸ hscaled, hcolumns ▸ hprice, hvolume⟩ h

/-! ## The rows of a batch -/

/-- A record that becomes a quote. -/
structure NewQuote where
  index : ℕ
  record : ProviderRecord
  instrumentUid : Uid

/-- The mapping of a code for a batch. -/
def MarketTables.mappingOf (t : MarketTables) (ctx : IngestContext) (externalCode : String) :
    Option MappingTarget :=
  t.mappingAt ctx.providerKey externalCode ctx.receivedAt

/-- The business key of a record of an instrument. -/
def IngestContext.keyOf (ctx : IngestContext) (record : ProviderRecord) (instrumentUid : Uid) :
    String :=
  businessKey ctx.epochUid instrumentUid (sourceKey record.sourceTime ctx.receivedAt)

/-- The records that become quotes : those of an instrument that are the first of their
business key. -/
def newQuotes (ctx : IngestContext) (mappingOf : String → Option MappingTarget) :
    List String → ℕ → List ProviderRecord → List NewQuote
  | _, _, [] => []
  | keys, index, record :: records =>
    match mappedInstrument (mappingOf record.externalCode) with
    | none => newQuotes ctx mappingOf keys (index + 1) records
    | some uid =>
      if ctx.keyOf record uid ∈ keys then newQuotes ctx mappingOf keys (index + 1) records
      else ⟨index, record, uid⟩ ::
        newQuotes ctx mappingOf (keys ++ [ctx.keyOf record uid]) (index + 1) records

def NewQuote.lineageRow (e : NewQuote) (ctx : IngestContext) : QuoteLineage :=
  ⟨ctx.uids.lineage e.index, ctx.epochUid, e.instrumentUid,
    sourceKey e.record.sourceTime ctx.receivedAt, ctx.keyOf e.record e.instrumentUid⟩

def NewQuote.quoteRow (e : NewQuote) (ctx : IngestContext) : MarketQuote :=
  e.record.quoteRow e.record.priceColumns ctx e.index (ctx.uids.lineage e.index)

/-- The raw row of a record. -/
def rawRow (ctx : IngestContext) (mappingOf : String → Option MappingTarget) (index : ℕ)
    (record : ProviderRecord) : RawMarketRecord :=
  ⟨ctx.uids.batch, index, record.externalCode, record.sourceTime,
    mappingStatus (mappingOf record.externalCode)⟩

/-- The raw rows of the records from an index on. -/
def rawRows (ctx : IngestContext) (mappingOf : String → Option MappingTarget) :
    ℕ → List ProviderRecord → List RawMarketRecord
  | _, [] => []
  | index, record :: records =>
    rawRow ctx mappingOf index record :: rawRows ctx mappingOf (index + 1) records

/-- The tables with some raw rows and some quotes more. -/
def MarketTables.addQuotes (t : MarketTables) (ctx : IngestContext)
    (raw : List RawMarketRecord) (quotes : List NewQuote) : MarketTables :=
  { t with
    rawMarketRecord := t.rawMarketRecord ++ raw
    quoteLineage := t.quoteLineage ++ quotes.map fun e => e.lineageRow ctx
    marketQuote := t.marketQuote ++ quotes.map fun e => e.quoteRow ctx
    quoteQualityIssue := t.quoteQualityIssue ++
      quotes.flatMap fun e => (e.quoteRow ctx).sourceTimeIssues }

theorem MarketTables.addQuotes_addQuotes (raw raw' : List RawMarketRecord)
    (quotes quotes' : List NewQuote) :
    (t.addQuotes ctx raw quotes).addQuotes ctx raw' quotes' =
      t.addQuotes ctx (raw ++ raw') (quotes ++ quotes') := by
  simp [addQuotes, List.append_assoc]

/-- The tables after the records from an index on. -/
def MarketTables.addRecords (t : MarketTables) (ctx : IngestContext) (index : ℕ)
    (records : List ProviderRecord) : MarketTables :=
  t.addQuotes ctx (rawRows ctx (t.mappingOf ctx) index records)
    (newQuotes ctx (t.mappingOf ctx) t.keys index records)

theorem MarketQuote.quoteUid_of_mem_sourceTimeIssues {row : MarketQuote} {i : QuoteQualityIssue}
    (h : i ∈ row.sourceTimeIssues) : i.quoteUid = row.quoteUid := by
  unfold sourceTimeIssues at h
  split at h
  · rw [List.mem_singleton.mp h]
  · cases h

/-- A mapped record that is the first of its key. -/
theorem newQuotes_cons_of_new {mappingOf : String → Option MappingTarget} {keys : List String}
    {uid : Uid} (hmapped : mappedInstrument (mappingOf record.externalCode) = some uid)
    (hnew : ctx.keyOf record uid ∉ keys) :
    newQuotes ctx mappingOf keys index (record :: records) = ⟨index, record, uid⟩ ::
      newQuotes ctx mappingOf (keys ++ [ctx.keyOf record uid]) (index + 1) records := by
  rw [newQuotes, hmapped]
  exact if_neg hnew

/-- A record that is of no instrument, or not the first of its key. -/
theorem newQuotes_cons_of_old {mappingOf : String → Option MappingTarget} {keys : List String}
    (hold : ∀ uid, mappedInstrument (mappingOf record.externalCode) = some uid →
      ctx.keyOf record uid ∈ keys) :
    newQuotes ctx mappingOf keys index (record :: records) =
      newQuotes ctx mappingOf keys (index + 1) records := by
  rw [newQuotes]
  cases hmapped : mappedInstrument (mappingOf record.externalCode) with
  | none => rfl
  | some uid => exact if_pos (hold uid hmapped)

/-! ## The quotes of a batch -/

/-- A record of an instrument whose business key is new, and in no record before it. -/
structure FirstOfKey (ctx : IngestContext) (mappingOf : String → Option MappingTarget)
    (keys : List String) (before : List ProviderRecord) (record : ProviderRecord) (uid : Uid) :
    Prop where
  mapped : mappedInstrument (mappingOf record.externalCode) = some uid
  new : ctx.keyOf record uid ∉ keys
  first : ∀ r ∈ before, ∀ uid', mappedInstrument (mappingOf r.externalCode) = some uid' →
    ctx.keyOf r uid' ≠ ctx.keyOf record uid

section

variable {mappingOf : String → Option MappingTarget} {keys : List String}
  {before : List ProviderRecord} {uid : Uid}

/-- A record before that has no new key of its own makes no difference. -/
theorem firstOfKey_cons_of_old {r : ProviderRecord}
    (hold : ∀ uid', mappedInstrument (mappingOf r.externalCode) = some uid' →
      ctx.keyOf r uid' ∈ keys) :
    FirstOfKey ctx mappingOf keys (r :: before) record uid ↔
      FirstOfKey ctx mappingOf keys before record uid := by
  constructor
  · rintro ⟨hmapped, hnew, hfirst⟩
    exact ⟨hmapped, hnew, fun r' hr' => hfirst r' (List.mem_cons_of_mem _ hr')⟩
  · rintro ⟨hmapped, hnew, hfirst⟩
    refine ⟨hmapped, hnew, fun r' hr' uid' huid' => ?_⟩
    rcases List.mem_cons.mp hr' with rfl | hr'
    · exact fun heq => hnew (heq ▸ hold uid' huid')
    · exact hfirst r' hr' uid' huid'

/-- A record before with a key of its own makes it known. -/
theorem firstOfKey_cons_of_new {r : ProviderRecord} {uid' : Uid}
    (hmapped' : mappedInstrument (mappingOf r.externalCode) = some uid') :
    FirstOfKey ctx mappingOf keys (r :: before) record uid ↔
      FirstOfKey ctx mappingOf (keys ++ [ctx.keyOf r uid']) before record uid := by
  constructor
  · rintro ⟨hmapped, hnew, hfirst⟩
    refine ⟨hmapped, ?_, fun r' hr' => hfirst r' (List.mem_cons_of_mem _ hr')⟩
    rw [List.mem_append, List.mem_singleton]
    rintro (hkey | hkey)
    · exact hnew hkey
    · exact hfirst r List.mem_cons_self uid' hmapped' hkey.symm
  · rintro ⟨hmapped, hnew, hfirst⟩
    rw [List.mem_append, List.mem_singleton, not_or] at hnew
    refine ⟨hmapped, hnew.1, fun r' hr' uid'' huid'' => ?_⟩
    rcases List.mem_cons.mp hr' with rfl | hr'
    · rw [hmapped'] at huid''
      cases huid''
      exact fun heq => hnew.2 heq.symm
    · exact hfirst r' hr' uid'' huid''

/-- The records that become quotes are those of an instrument that are the first of their
business key. -/
theorem mem_newQuotes_iff {e : NewQuote} :
    e ∈ newQuotes ctx mappingOf keys index records ↔
      ∃ before after, records = before ++ e.record :: after ∧ e.index = index + before.length ∧
        FirstOfKey ctx mappingOf keys before e.record e.instrumentUid := by
  induction records generalizing keys index with
  | nil => simp [newQuotes]
  | cons record records ih =>
    by_cases hnew : ∃ uid, mappedInstrument (mappingOf record.externalCode) = some uid ∧
        ctx.keyOf record uid ∉ keys
    · obtain ⟨uid, hmapped, hkey⟩ := hnew
      rw [newQuotes_cons_of_new hmapped hkey, List.mem_cons, ih]
      constructor
      · rintro (rfl | ⟨before, after, rfl, hindex, hfirst⟩)
        · exact ⟨[], records, rfl, rfl, hmapped, hkey, fun r hr => absurd hr List.not_mem_nil⟩
        · refine ⟨record :: before, after, rfl, ?_, (firstOfKey_cons_of_new hmapped).mpr hfirst⟩
          rw [hindex, List.length_cons]
          omega
      · rintro ⟨before, after, hrecords, hindex, hfirst⟩
        cases before with
        | nil =>
          rw [List.nil_append, List.cons.injEq] at hrecords
          obtain ⟨hrecord, -⟩ := hrecords
          have huid := hfirst.mapped
          rw [← hrecord, hmapped] at huid
          obtain ⟨_, _, _⟩ := e
          cases huid
          subst hrecord
          subst hindex
          exact Or.inl rfl
        | cons r before =>
          rw [List.cons_append, List.cons.injEq] at hrecords
          obtain ⟨rfl, rfl⟩ := hrecords
          refine Or.inr ⟨before, after, rfl, ?_, (firstOfKey_cons_of_new hmapped).mp hfirst⟩
          rw [hindex, List.length_cons]
          omega
    · have hold : ∀ uid, mappedInstrument (mappingOf record.externalCode) = some uid →
          ctx.keyOf record uid ∈ keys := fun uid hmapped =>
        not_not.mp fun hkey => hnew ⟨uid, hmapped, hkey⟩
      rw [newQuotes_cons_of_old hold, ih]
      constructor
      · rintro ⟨before, after, rfl, hindex, hfirst⟩
        refine ⟨record :: before, after, rfl, ?_, (firstOfKey_cons_of_old hold).mpr hfirst⟩
        rw [hindex, List.length_cons]
        omega
      · rintro ⟨before, after, hrecords, hindex, hfirst⟩
        cases before with
        | nil =>
          rw [List.nil_append, List.cons.injEq] at hrecords
          obtain ⟨rfl, -⟩ := hrecords
          exact absurd (hold _ hfirst.mapped) hfirst.new
        | cons r before =>
          rw [List.cons_append, List.cons.injEq] at hrecords
          obtain ⟨rfl, rfl⟩ := hrecords
          refine ⟨before, after, rfl, ?_, (firstOfKey_cons_of_old hold).mp hfirst⟩
          rw [hindex, List.length_cons]
          omega

end

/-! ## One record -/

/-- A quote with new identifiers keeps the invariant. -/
theorem QuoteStore.addQuotes (h : QuoteStore t) {raw : List RawMarketRecord}
    {quotes : List NewQuote} (hbatch : ∃ b ∈ t.marketDataBatch, b.batchUid = ctx.uids.batch)
    (hraw : ∀ r ∈ raw, r.batchUid = ctx.uids.batch) : QuoteStore (t.addQuotes ctx raw quotes) where
  key l hl := by
    rcases List.mem_append.mp hl with hl | hl
    · exact h.key l hl
    · obtain ⟨e, -, rfl⟩ := List.mem_map.mp hl
      rfl
  current l hl := by
    rcases List.mem_append.mp hl with hl | hl
    · obtain ⟨q, hq, hcurrent⟩ := h.current l hl
      exact ⟨q, List.mem_append_left _ hq, hcurrent⟩
    · obtain ⟨e, he, rfl⟩ := List.mem_map.mp hl
      exact ⟨e.quoteRow ctx, List.mem_append_right _ (List.mem_map_of_mem he), rfl, rfl⟩
  lineage q hq := by
    rcases List.mem_append.mp hq with hq | hq
    · obtain ⟨l, hl, heq⟩ := h.lineage q hq
      exact ⟨l, List.mem_append_left _ hl, heq⟩
    · obtain ⟨e, he, rfl⟩ := List.mem_map.mp hq
      exact ⟨e.lineageRow ctx, List.mem_append_right _ (List.mem_map_of_mem he), rfl⟩
  batch q hq := by
    rcases List.mem_append.mp hq with hq | hq
    · exact h.batch q hq
    · obtain ⟨e, -, rfl⟩ := List.mem_map.mp hq
      exact hbatch
  record r hr := by
    rcases List.mem_append.mp hr with hr | hr
    · exact h.record r hr
    · rw [hraw r hr]
      exact hbatch
  issue i hi := by
    rcases List.mem_append.mp hi with hi | hi
    · obtain ⟨q, hq, heq⟩ := h.issue i hi
      exact ⟨q, List.mem_append_left _ hq, heq⟩
    · obtain ⟨e, he, hi⟩ := List.mem_flatMap.mp hi
      exact ⟨e.quoteRow ctx, List.mem_append_right _ (List.mem_map_of_mem he),
        (MarketQuote.quoteUid_of_mem_sourceTimeIssues hi).symm⟩
  detail d hd := by
    obtain ⟨q, hq, heq⟩ := h.detail d hd
    exact ⟨q, List.mem_append_left _ hq, heq⟩

/-- The lineage of a known business key. -/
theorem run_ingestLineage_of_mem {uid : Uid} {source : String}
    (hkey : businessKey ctx.epochUid uid source ∈ t.keys) :
    ∃ l ∈ t.quoteLineage, l.businessKeySha256 = businessKey ctx.epochUid uid source ∧
      (ingestLineage ctx index uid source).run t = .ok l.lineageUid t := by
  have hsome : t.lineageOf (businessKey ctx.epochUid uid source) ≠ none := fun h =>
    MarketTables.lineageOf_eq_none_iff.mp h hkey
  obtain ⟨l, hl⟩ := Option.ne_none_iff_exists'.mp hsome
  have hsha : l.businessKeySha256 = businessKey ctx.epochUid uid source := by
    have hfound := List.find?_some hl
    exact of_decide_eq_true hfound
  refine ⟨l, List.mem_of_find?_eq_some hl, hsha, ?_⟩
  rw [ingestLineage, run_bind_of_ok (run_get t), hl]
  rfl

/-- A new business key gets a lineage. -/
theorem run_ingestLineage_of_new {uid : Uid} {source : String}
    (hkeys : ∀ l ∈ t.quoteLineage,
      l.businessKeySha256 = businessKey l.epochUid l.instrumentUid l.sourceTime)
    (hkey : businessKey ctx.epochUid uid source ∉ t.keys)
    (hfresh : ∀ l ∈ t.quoteLineage, l.lineageUid ≠ ctx.uids.lineage index) :
    (ingestLineage ctx index uid source).run t = .ok (ctx.uids.lineage index)
      { t with quoteLineage := t.quoteLineage ++ [⟨ctx.uids.lineage index, ctx.epochUid, uid,
        source, businessKey ctx.epochUid uid source⟩] } := by
  rw [ingestLineage, run_bind_of_ok (run_get t), MarketTables.lineageOf_eq_none_iff.mpr hkey]
  refine (run_bind_of_ok (run_insertInto quoteLineageTable _ fun l hl => ?_)).trans rfl
  have hother : l.businessKeySha256 ≠ businessKey ctx.epochUid uid source := fun heq =>
    hkey (heq ▸ List.mem_map_of_mem hl)
  refine decide_eq_false ?_
  rintro (heq | heq | ⟨hepoch, huid, hsource⟩)
  · exact hfresh l hl heq.symm
  · exact hother heq.symm
  · exact hother (by rw [hkeys l hl, ← hepoch, ← huid, ← hsource])

/-- A quote of a new lineage has no other quote of its lineage. -/
theorem currentQuote_eq_none {uid : Uid} (hquotes : ∀ q ∈ t.marketQuote, q.lineageUid ≠ uid) :
    t.currentQuote uid = none := by
  rw [MarketTables.currentQuote, List.find?_eq_none]
  intro q hq hcurrent
  exact hquotes q hq (of_decide_eq_true hcurrent).1

/-- The current quote of a lineage of the database. -/
theorem QuoteStore.currentQuote_isSome (h : QuoteStore t) {l : QuoteLineage}
    (hl : l ∈ t.quoteLineage) : (t.currentQuote l.lineageUid).isSome := by
  obtain ⟨q, hq, hlineage, hcurrent⟩ := h.current l hl
  rw [MarketTables.currentQuote, List.find?_isSome]
  exact ⟨q, hq, decide_eq_true ⟨hlineage, hcurrent⟩⟩

/-- The first quote of a new lineage is inserted with its issues. -/
theorem run_insert_quote (row : MarketQuote)
    (hquote : ∀ q ∈ t.marketQuote, q.quoteUid ≠ row.quoteUid ∧ q.lineageUid ≠ row.lineageUid)
    (hissue : ∀ i ∈ t.quoteQualityIssue, i.quoteUid ≠ row.quoteUid) :
    (do
      insertInto marketQuoteTable integrityError row
      forM row.sourceTimeIssues (insertInto quoteQualityIssueTable integrityError)
      return some row.lineageUid : MarketCommand (Option Uid)).run t =
    .ok (some row.lineageUid)
      { t with
        marketQuote := t.marketQuote ++ [row]
        quoteQualityIssue := t.quoteQualityIssue ++ row.sourceTimeIssues } := by
  have hinsert : (insertInto marketQuoteTable integrityError row).run t =
      .ok () { t with marketQuote := t.marketQuote ++ [row] } := by
    refine run_insertInto marketQuoteTable _ fun q hq => decide_eq_false ?_
    rintro (heq | ⟨heq, -⟩)
    · exact (hquote q hq).1 heq.symm
    · exact (hquote q hq).2 heq.symm
  have hissues : (forM row.sourceTimeIssues
      (insertInto quoteQualityIssueTable integrityError)).run
        { t with marketQuote := t.marketQuote ++ [row] } =
      .ok () { t with
        marketQuote := t.marketQuote ++ [row]
        quoteQualityIssue := t.quoteQualityIssue ++ row.sourceTimeIssues } := by
    unfold MarketQuote.sourceTimeIssues
    split
    · exact run_forM_cons_eq_ok.mpr ⟨_, run_insertInto quoteQualityIssueTable _ fun i hi =>
        decide_eq_false fun heq => hissue i hi heq.1.symm, rfl⟩
    · rw [List.append_nil]
      rfl
  rw [run_bind_of_ok hinsert, run_bind_of_ok hissues]
  rfl

theorem MarketTables.addQuotes_nil (raw : List RawMarketRecord) :
    t.addQuotes ctx raw [] = { t with rawMarketRecord := t.rawMarketRecord ++ raw } := by
  simp [addQuotes]

theorem MarketTables.addQuotes_singleton (raw : List RawMarketRecord) (e : NewQuote) :
    t.addQuotes ctx raw [e] =
      { t with
        rawMarketRecord := t.rawMarketRecord ++ raw
        quoteLineage := t.quoteLineage ++ [e.lineageRow ctx]
        marketQuote := t.marketQuote ++ [e.quoteRow ctx]
        quoteQualityIssue := t.quoteQualityIssue ++ (e.quoteRow ctx).sourceTimeIssues } := by
  simp [addQuotes]

/-- The raw row of a record is stored first. -/
theorem run_ingestRecord_eq (record : ProviderRecord) (hfresh : ctx.uids.FreshFrom index t) :
    (ingestRecord ctx index record).run t =
      (ingestMapped ctx index record (mappedInstrument (t.mappingOf ctx record.externalCode))).run
        { t with rawMarketRecord :=
            t.rawMarketRecord ++ [rawRow ctx (t.mappingOf ctx) index record] } := by
  have hraw : (insertInto rawMarketRecordTable integrityError
      (rawRow ctx (t.mappingOf ctx) index record)).run t = .ok ()
        { t with rawMarketRecord :=
            t.rawMarketRecord ++ [rawRow ctx (t.mappingOf ctx) index record] } := by
    refine run_insertInto rawMarketRecordTable _ fun r hr => decide_eq_false ?_
    rintro ⟨hbatch, hindex⟩
    exact absurd hindex.symm (hfresh.record r hr hbatch.symm).ne
  rw [ingestRecord, run_bind_of_ok (run_get t)]
  exact run_bind_of_ok hraw

/-- A record that is of no instrument, or of a business key that is there, adds its raw row. -/
theorem run_ingestRecord_of_old (h : QuoteStore t) (hfresh : ctx.uids.FreshFrom index t)
    (hold : ∀ uid, mappedInstrument (t.mappingOf ctx record.externalCode) = some uid →
      ctx.keyOf record uid ∈ t.keys) :
    ∃ lineage, (ingestRecord ctx index record).run t =
      .ok lineage (t.addRecords ctx index [record]) := by
  rw [run_ingestRecord_eq record hfresh, MarketTables.addRecords, newQuotes_cons_of_old hold,
    newQuotes, MarketTables.addQuotes_nil]
  cases hmapped : mappedInstrument (t.mappingOf ctx record.externalCode) with
  | none => exact ⟨none, rfl⟩
  | some uid =>
    obtain ⟨l, hl, -, hrun⟩ := run_ingestLineage_of_mem
      (t := { t with rawMarketRecord :=
        t.rawMarketRecord ++ [rawRow ctx (t.mappingOf ctx) index record] }) (hold uid hmapped)
    refine ⟨some l.lineageUid, (run_bind_of_ok hrun).trans ?_⟩
    rw [run_bind_of_ok (run_get _)]
    exact congrArg (fun x : MarketCommand (Option Uid) => x.run _)
      (if_pos (h.currentQuote_isSome hl))

/-- A record that is the first of its business key gets to its quote. -/
theorem run_ingestRecord_of_first {uid : Uid} (h : QuoteStore t)
    (hfresh : ctx.uids.FreshFrom index t)
    (hmapped : mappedInstrument (t.mappingOf ctx record.externalCode) = some uid)
    (hkey : ctx.keyOf record uid ∉ t.keys) :
    (ingestRecord ctx index record).run t =
      (ingestQuote ctx index record (ctx.uids.lineage index)).run
        { t with
          rawMarketRecord := t.rawMarketRecord ++ [rawRow ctx (t.mappingOf ctx) index record]
          quoteLineage := t.quoteLineage ++
            [(⟨index, record, uid⟩ : NewQuote).lineageRow ctx] } := by
  have hlineage := run_ingestLineage_of_new
    (t := { t with rawMarketRecord :=
      t.rawMarketRecord ++ [rawRow ctx (t.mappingOf ctx) index record] }) h.key hkey
    fun l hl => hfresh.lineage l hl index le_rfl
  have hnone := currentQuote_eq_none fun q hq heq => by
    obtain ⟨l, hl, hlq⟩ := h.lineage q hq
    exact hfresh.lineage l hl index le_rfl (hlq.trans heq)
  rw [run_ingestRecord_eq record hfresh, hmapped]
  refine (run_bind_of_ok hlineage).trans ?_
  rw [run_bind_of_ok (run_get _)]
  refine congrArg (fun x : MarketCommand (Option Uid) => x.run _) (if_neg fun hsome => ?_)
  exact Bool.false_ne_true ((congrArg Option.isSome hnone).symm.trans hsome)

/-- A record is stored, and with it a quote when it is one of an instrument and the first of
its business key, and its columns hold it. -/
theorem run_ingestRecord (record : ProviderRecord) (h : QuoteStore t)
    (hfresh : ctx.uids.FreshFrom index t)
    (hbindable : ∀ e ∈ newQuotes ctx (t.mappingOf ctx) t.keys index [record],
      e.record.Bindable) :
    ∃ lineage, (ingestRecord ctx index record).run t =
      .ok lineage (t.addRecords ctx index [record]) := by
  by_cases hnew : ∃ uid, mappedInstrument (t.mappingOf ctx record.externalCode) = some uid ∧
      ctx.keyOf record uid ∉ t.keys
  swap
  · exact run_ingestRecord_of_old h hfresh fun uid hmapped =>
      not_not.mp fun hkey => hnew ⟨uid, hmapped, hkey⟩
  obtain ⟨uid, hmapped, hkey⟩ := hnew
  rw [newQuotes_cons_of_new hmapped hkey] at hbindable
  have hold : ∀ q ∈ t.marketQuote, q.lineageUid ≠ ctx.uids.lineage index := by
    intro q hq heq
    obtain ⟨l, hl, hlq⟩ := h.lineage q hq
    exact hfresh.lineage l hl index le_rfl (hlq.trans heq)
  have hissue : ∀ i ∈ t.quoteQualityIssue, i.quoteUid ≠ ctx.uids.quote index := by
    intro i hi heq
    obtain ⟨q, hq, hqi⟩ := h.issue i hi
    exact hfresh.quote q hq index le_rfl (hqi.trans heq)
  refine ⟨some (ctx.uids.lineage index), ?_⟩
  rw [run_ingestRecord_of_first h hfresh hmapped hkey, MarketTables.addRecords,
    newQuotes_cons_of_new hmapped hkey, newQuotes, MarketTables.addQuotes_singleton,
    run_ingestQuote_of_bindable (hbindable _ List.mem_cons_self)]
  exact run_insert_quote
    (record.quoteRow record.priceColumns ctx index (ctx.uids.lineage index))
    (fun q hq => ⟨hfresh.quote q hq index le_rfl, hold q hq⟩) hissue

/-- A record whose columns cannot hold its new quote raises. -/
theorem run_ingestRecord_of_not (h : QuoteStore t) (hfresh : ctx.uids.FreshFrom index t)
    {e : NewQuote} (he : e ∈ newQuotes ctx (t.mappingOf ctx) t.keys index [record])
    (hnot : ¬e.record.Bindable) :
    ∃ error t', (ingestRecord ctx index record).run t = .error error t' := by
  by_cases hnew : ∃ uid, mappedInstrument (t.mappingOf ctx record.externalCode) = some uid ∧
      ctx.keyOf record uid ∉ t.keys
  swap
  · rw [newQuotes_cons_of_old fun uid hmapped =>
      not_not.mp fun hkey => hnew ⟨uid, hmapped, hkey⟩] at he
    cases he
  obtain ⟨uid, hmapped, hkey⟩ := hnew
  rw [newQuotes_cons_of_new hmapped hkey, newQuotes, List.mem_singleton] at he
  rw [he] at hnot
  rw [run_ingestRecord_of_first h hfresh hmapped hkey]
  exact run_ingestQuote_of_not hnot _

/-! ## The records of a batch -/

theorem mem_newQuotes_singleton {mappingOf : String → Option MappingTarget} {keys : List String}
    {e : NewQuote} (h : e ∈ newQuotes ctx mappingOf keys index [record]) : e.index = index := by
  rw [newQuotes] at h
  split at h
  · cases h
  · split at h
    · cases h
    · rw [newQuotes, List.mem_singleton] at h
      rw [h]

/-- The identifiers of the later records are still new. -/
theorem IngestUids.FreshFrom.addRecords (hfresh : ctx.uids.FreshFrom index t)
    (hlineage : ctx.uids.lineage.Injective) (hquote : ctx.uids.quote.Injective) :
    ctx.uids.FreshFrom (index + 1) (t.addRecords ctx index [record]) where
  record r hr hbatch := by
    rcases List.mem_append.mp hr with hr | hr
    · exact Nat.lt_succ_of_lt (hfresh.record r hr hbatch)
    · rw [rawRows, rawRows, List.mem_singleton] at hr
      rw [hr]
      exact Nat.lt_succ_self _
  lineage l hl j hj heq := by
    rcases List.mem_append.mp hl with hl | hl
    · exact hfresh.lineage l hl j (Nat.le_of_succ_le hj) heq
    · obtain ⟨e, he, rfl⟩ := List.mem_map.mp hl
      have hindex : e.index = j := hlineage heq
      exact absurd (mem_newQuotes_singleton he ▸ hindex) (Nat.ne_of_lt hj)
  quote q hq j hj heq := by
    rcases List.mem_append.mp hq with hq | hq
    · exact hfresh.quote q hq j (Nat.le_of_succ_le hj) heq
    · obtain ⟨e, he, rfl⟩ := List.mem_map.mp hq
      have hindex : e.index = j := hquote heq
      exact absurd (mem_newQuotes_singleton he ▸ hindex) (Nat.ne_of_lt hj)

/-- The new quotes of a batch are those of its first record, and those of the others after it. -/
theorem newQuotes_cons_append :
    newQuotes ctx (t.mappingOf ctx) t.keys index [record] ++
      newQuotes ctx (t.mappingOf ctx) (t.addRecords ctx index [record]).keys (index + 1) records =
      newQuotes ctx (t.mappingOf ctx) t.keys index (record :: records) := by
  by_cases hnew : ∃ uid, mappedInstrument (t.mappingOf ctx record.externalCode) = some uid ∧
      ctx.keyOf record uid ∉ t.keys
  · obtain ⟨uid, hmapped, hkey⟩ := hnew
    have hkeys : (t.addRecords ctx index [record]).keys = t.keys ++ [ctx.keyOf record uid] := by
      rw [MarketTables.addRecords, newQuotes_cons_of_new hmapped hkey, newQuotes,
        MarketTables.addQuotes_singleton]
      exact List.map_append
    rw [hkeys, newQuotes_cons_of_new hmapped hkey, newQuotes_cons_of_new hmapped hkey]
    rfl
  · have hold : ∀ uid, mappedInstrument (t.mappingOf ctx record.externalCode) = some uid →
        ctx.keyOf record uid ∈ t.keys := fun uid hmapped =>
      not_not.mp fun hkey => hnew ⟨uid, hmapped, hkey⟩
    have hkeys : (t.addRecords ctx index [record]).keys = t.keys := by
      rw [MarketTables.addRecords, newQuotes_cons_of_old hold, newQuotes,
        MarketTables.addQuotes_nil]
      rfl
    rw [hkeys, newQuotes_cons_of_old hold, newQuotes_cons_of_old hold]
    rfl

/-- The records of a batch are stored one after the other. -/
theorem MarketTables.addRecords_cons :
    (t.addRecords ctx index [record]).addRecords ctx (index + 1) records =
      t.addRecords ctx index (record :: records) := by
  calc (t.addRecords ctx index [record]).addRecords ctx (index + 1) records
      = t.addQuotes ctx
          (rawRows ctx (t.mappingOf ctx) index [record] ++
            rawRows ctx (t.mappingOf ctx) (index + 1) records)
          (newQuotes ctx (t.mappingOf ctx) t.keys index [record] ++
            newQuotes ctx (t.mappingOf ctx) (t.addRecords ctx index [record]).keys (index + 1)
              records) := addQuotes_addQuotes _ _ _ _
    _ = t.addRecords ctx index (record :: records) := by
      rw [newQuotes_cons_append]
      rfl

theorem QuoteStore.addRecords (h : QuoteStore t)
    (hbatch : ∃ b ∈ t.marketDataBatch, b.batchUid = ctx.uids.batch) :
    QuoteStore (t.addRecords ctx index records) :=
  h.addQuotes hbatch fun r hr => by
    induction records generalizing index with
    | nil => cases hr
    | cons record records ih =>
      rcases List.mem_cons.mp hr with rfl | hr
      · rfl
      · exact ih hr

/-- The records of a batch are stored, and with them the quotes of those of an instrument
that are the first of their business key, when the columns hold these. -/
theorem run_ingestRecords (ctx : IngestContext) (records : List ProviderRecord)
    (h : QuoteStore t)
    (hbatch : ∃ b ∈ t.marketDataBatch, b.batchUid = ctx.uids.batch)
    (hfresh : ctx.uids.FreshFrom index t) (hlineage : ctx.uids.lineage.Injective)
    (hquote : ctx.uids.quote.Injective)
    (hbindable : ∀ e ∈ newQuotes ctx (t.mappingOf ctx) t.keys index records,
      e.record.Bindable) :
    ∃ lineages, (ingestRecords ctx index records).run t =
      .ok lineages (t.addRecords ctx index records) := by
  induction records generalizing index t with
  | nil =>
    refine ⟨[], ?_⟩
    rw [MarketTables.addRecords, newQuotes, MarketTables.addQuotes_nil, rawRows, List.append_nil]
    rfl
  | cons record records ih =>
    rw [← newQuotes_cons_append, List.forall_mem_append] at hbindable
    obtain ⟨lineage, hrecord⟩ := run_ingestRecord record h hfresh hbindable.1
    obtain ⟨lineages, hrecords⟩ := ih (h.addRecords hbatch) hbatch
      (hfresh.addRecords hlineage hquote) hbindable.2
    refine ⟨lineage :: lineages, ?_⟩
    rw [ingestRecords, run_bind_of_ok hrecord, run_bind_of_ok hrecords,
      MarketTables.addRecords_cons]
    rfl

/-- A batch with a new quote that its columns cannot hold raises. -/
theorem run_ingestRecords_of_not (h : QuoteStore t)
    (hbatch : ∃ b ∈ t.marketDataBatch, b.batchUid = ctx.uids.batch)
    (hfresh : ctx.uids.FreshFrom index t) (hlineage : ctx.uids.lineage.Injective)
    (hquote : ctx.uids.quote.Injective) {e : NewQuote}
    (he : e ∈ newQuotes ctx (t.mappingOf ctx) t.keys index records)
    (hnot : ¬e.record.Bindable) :
    ∃ error t', (ingestRecords ctx index records).run t = .error error t' := by
  induction records generalizing index t with
  | nil => cases he
  | cons record records ih =>
    rw [← newQuotes_cons_append, List.mem_append] at he
    by_cases hfirst : ∀ e' ∈ newQuotes ctx (t.mappingOf ctx) t.keys index [record],
        e'.record.Bindable
    · obtain ⟨lineage, hrecord⟩ := run_ingestRecord record h hfresh hfirst
      obtain ⟨error, t', hrecords⟩ := ih (h.addRecords hbatch) hbatch
        (hfresh.addRecords hlineage hquote) (he.resolve_left fun he => hnot (hfirst e he))
      refine ⟨error, t', ?_⟩
      rw [ingestRecords, run_bind_of_ok hrecord]
      exact run_bind_of_error hrecords
    · push Not at hfirst
      obtain ⟨e', he', hnot'⟩ := hfirst
      obtain ⟨error, t', hrecord⟩ := run_ingestRecord_of_not h hfresh he' hnot'
      exact ⟨error, t', run_bind_of_error hrecord⟩

/-! ## A batch -/

/-- What the records of a batch of an epoch share. -/
def ingestContext (parseRfc3339 : String → Option Instant) (epoch : MarketSourceEpoch)
    (batch : ProviderBatch) (uids : IngestUids) : IngestContext :=
  ⟨parseRfc3339, epoch.epochUid, epoch.providerKey, batch.receivedAt, uids⟩

/-- The quotes a batch adds. -/
def MarketTables.batchQuotes (t : MarketTables) (ctx : IngestContext)
    (records : List ProviderRecord) : List NewQuote :=
  newQuotes ctx (t.mappingOf ctx) t.keys 0 records

/-- The tables with the row of a new batch. -/
def MarketTables.openBatch (t : MarketTables) (ctx : IngestContext) (batch : ProviderBatch) :
    MarketTables :=
  { t with marketDataBatch := t.marketDataBatch ++ [⟨ctx.uids.batch, ctx.epochUid,
    batch.providerBatchId, batch.receivedAt, .received⟩] }

/-- The tables after a batch. -/
def MarketTables.addBatch (t : MarketTables) (ctx : IngestContext) (batch : ProviderBatch)
    (status : BatchStatus) : MarketTables :=
  setBatchStatus ctx.uids.batch status ((t.openBatch ctx batch).addQuotes ctx
    (rawRows ctx (t.mappingOf ctx) 0 batch.records) (t.batchQuotes ctx batch.records))

variable {parseRfc3339 : String → Option Instant} {epoch : MarketSourceEpoch} {epochUid : Uid}
  {batch : ProviderBatch} {uids : IngestUids}

theorem MarketTables.epochUid_of_epoch? (h : t.epoch? epochUid = some epoch) :
    epoch.epochUid = epochUid := by
  have hfound := List.find?_some h
  exact of_decide_eq_true hfound

/-- Only the status of a batch is set. -/
theorem exists_mem_setBatchStatus {status : BatchStatus} {batchUid uid : Uid}
    (h : ∃ b ∈ t.marketDataBatch, b.batchUid = uid) :
    ∃ b ∈ (setBatchStatus batchUid status t).marketDataBatch, b.batchUid = uid := by
  obtain ⟨b, hb, huid⟩ := h
  refine ⟨_, List.mem_map_of_mem hb, ?_⟩
  split
  · exact huid
  · exact huid

theorem QuoteStore.setBatchStatus (h : QuoteStore t) (batchUid : Uid) (status : BatchStatus) :
    QuoteStore (setBatchStatus batchUid status t) where
  key := h.key
  current := h.current
  lineage := h.lineage
  batch q hq := exists_mem_setBatchStatus (h.batch q hq)
  record r hr := exists_mem_setBatchStatus (h.record r hr)
  issue := h.issue
  detail := h.detail

/-- A further batch keeps the invariant. -/
theorem QuoteStore.insertBatch (h : QuoteStore t) (row : MarketDataBatch) :
    QuoteStore { t with marketDataBatch := t.marketDataBatch ++ [row] } where
  key := h.key
  current := h.current
  lineage := h.lineage
  batch q hq := by
    obtain ⟨b, hb, heq⟩ := h.batch q hq
    exact ⟨b, List.mem_append_left _ hb, heq⟩
  record r hr := by
    obtain ⟨b, hb, heq⟩ := h.record r hr
    exact ⟨b, List.mem_append_left _ hb, heq⟩
  issue := h.issue
  detail := h.detail

theorem QuoteStore.addBatch (h : QuoteStore t) (ctx : IngestContext) (batch : ProviderBatch)
    (status : BatchStatus) : QuoteStore (t.addBatch ctx batch status) :=
  ((h.insertBatch _).addRecords ⟨_, List.mem_append_right _ List.mem_cons_self, rfl⟩).setBatchStatus
    _ _

theorem IngestUids.Fresh.freshFrom_openBatch (h : QuoteStore t) (hfresh : uids.Fresh t)
    (hctx : ctx.uids = uids) : ctx.uids.FreshFrom 0 (t.openBatch ctx batch) := by
  subst hctx
  refine ⟨fun r hr hbatch => ?_, fun l hl j _ => hfresh.lineage l hl j,
    fun q hq j _ => hfresh.quote q hq j⟩
  obtain ⟨b, hb, heq⟩ := h.record r hr
  exact absurd (heq.trans hbatch) (hfresh.batch b hb)

/-- The row of a batch with a new identifier is inserted first. -/
theorem run_ingestCommand_eq (parseRfc3339 : String → Option Instant) (hfresh : uids.Fresh t)
    (hepoch : t.epoch? epochUid = some epoch)
    (hnone : t.existingBatch epochUid batch.providerBatchId = none) :
    (ingestCommand parseRfc3339 epochUid batch uids).run t =
      (do
        let outcomes ← ingestRecords (ingestContext parseRfc3339 epoch batch uids) 0 batch.records
        let lineages := outcomes.filterMap id
        modify (setBatchStatus uids.batch (if lineages ≠ [] then .normalized else .quarantined))
        return ⟨uids.batch, lineages.length, outcomes.countP Option.isNone, lineages⟩ :
          MarketCommand IngestionResult).run
        (t.openBatch (ingestContext parseRfc3339 epoch batch uids) batch) := by
  obtain rfl := MarketTables.epochUid_of_epoch? hepoch
  have hinsert : (insertInto marketDataBatchTable integrityError
      ⟨uids.batch, epoch.epochUid, batch.providerBatchId, batch.receivedAt, .received⟩).run t =
        .ok () (t.openBatch (ingestContext parseRfc3339 epoch batch uids) batch) := by
    refine run_insertInto marketDataBatchTable _ fun b hb => decide_eq_false ?_
    rintro (heq | ⟨hsame, hid⟩)
    · exact hfresh.batch b hb heq.symm
    · exact MarketTables.existingBatch_eq_none_iff.mp hnone b hb hsame.symm hid.symm
  rw [ingestCommand, run_bind_of_ok (run_get t), hepoch]
  exact run_bind_of_ok hinsert

/-- A batch with a new identifier is stored, when the columns hold its new quotes. -/
theorem run_ingestCommand (parseRfc3339 : String → Option Instant) (h : QuoteStore t)
    (hfresh : uids.Fresh t) (hepoch : t.epoch? epochUid = some epoch)
    (hnone : t.existingBatch epochUid batch.providerBatchId = none)
    (hbindable : ∀ e ∈ t.batchQuotes (ingestContext parseRfc3339 epoch batch uids) batch.records,
      e.record.Bindable) :
    ∃ result status, (ingestCommand parseRfc3339 epochUid batch uids).run t = .ok result
        (t.addBatch (ingestContext parseRfc3339 epoch batch uids) batch status) ∧
      result.batchUid = uids.batch := by
  obtain ⟨lineages, hrecords⟩ := run_ingestRecords
    (ingestContext parseRfc3339 epoch batch uids) batch.records (h.insertBatch _)
    ⟨_, List.mem_append_right _ List.mem_cons_self, rfl⟩
    (hfresh.freshFrom_openBatch h rfl) hfresh.lineage_inj hfresh.quote_inj hbindable
  have hrun : (ingestCommand parseRfc3339 epochUid batch uids).run t = .ok
      ⟨uids.batch, (lineages.filterMap id).length, lineages.countP Option.isNone,
        lineages.filterMap id⟩
      (t.addBatch (ingestContext parseRfc3339 epoch batch uids) batch
        (if lineages.filterMap id ≠ [] then .normalized else .quarantined)) := by
    rw [run_ingestCommand_eq parseRfc3339 hfresh hepoch hnone]
    exact (run_bind_of_ok hrecords).trans rfl
  exact ⟨_, _, hrun, rfl⟩

/-- A batch that is new in its epoch is stored, when the columns hold its new quotes. -/
theorem run_ingest_of_new (parseRfc3339 : String → Option Instant) (batch : ProviderBatch)
    (h : QuoteStore t) (hfresh : uids.Fresh t)
    (hepoch : t.epoch? epochUid = some epoch)
    (hnone : t.existingBatch epochUid batch.providerBatchId = none)
    (hbindable : ∀ e ∈ t.batchQuotes (ingestContext parseRfc3339 epoch batch uids) batch.records,
      e.record.Bindable) :
    ∃ result status, (ingest parseRfc3339 epochUid batch uids).run t = .ok result
        (t.addBatch (ingestContext parseRfc3339 epoch batch uids) batch status) ∧
      result.batchUid = uids.batch := by
  obtain ⟨result, status, hrun, hbatch⟩ := run_ingestCommand parseRfc3339 h
    hfresh hepoch hnone hbindable
  refine ⟨result, status, ?_, hbatch⟩
  rw [ingest, run_bind_of_ok (run_get t), hnone]
  exact run_atomically_eq_ok.mpr hrun

/-- A batch that is new in its epoch is rolled back, when the columns cannot hold one of its
new quotes. -/
theorem run_ingest_of_not_bindable (parseRfc3339 : String → Option Instant)
    (h : QuoteStore t) (hfresh : uids.Fresh t)
    (hepoch : t.epoch? epochUid = some epoch)
    (hnone : t.existingBatch epochUid batch.providerBatchId = none) {e : NewQuote}
    (he : e ∈ t.batchQuotes (ingestContext parseRfc3339 epoch batch uids) batch.records)
    (hnot : ¬e.record.Bindable) :
    ∃ error, (ingest parseRfc3339 epochUid batch uids).run t = .error error t := by
  obtain ⟨error, t', hrecords⟩ :
      ∃ error t', (ingestRecords (ingestContext parseRfc3339 epoch batch uids) 0 batch.records).run
        (t.openBatch (ingestContext parseRfc3339 epoch batch uids) batch) = .error error t' :=
    run_ingestRecords_of_not (h.insertBatch _) ⟨_, List.mem_append_right _ List.mem_cons_self, rfl⟩
      (hfresh.freshFrom_openBatch h rfl) hfresh.lineage_inj hfresh.quote_inj he hnot
  have hcommand : (ingestCommand parseRfc3339 epochUid batch uids).run t = .error error t' := by
    rw [run_ingestCommand_eq parseRfc3339 hfresh hepoch hnone]
    exact run_bind_of_error hrecords
  refine ⟨error, ?_⟩
  rw [ingest, run_bind_of_ok (run_get t), hnone]
  exact run_atomically_of_error hcommand

/-- A batch of the database, or of no epoch, changes nothing. -/
theorem stateAfter_ingest_of_old
    (hold : t.epoch? epochUid = none ∨ t.existingBatch epochUid batch.providerBatchId ≠ none) :
    stateAfter ((ingest parseRfc3339 epochUid batch uids).run t) = t := by
  rw [ingest, run_bind_of_ok (run_get t)]
  cases hexisting : t.existingBatch epochUid batch.providerBatchId with
  | some existing => rfl
  | none =>
    have hepoch := hold.resolve_right fun h => h hexisting
    have herror : (ingestCommand parseRfc3339 epochUid batch uids).run t =
        .error ⟨.noResultFound, "No row was found when one was required"⟩ t := by
      rw [ingestCommand, run_bind_of_ok (run_get t), hepoch]
      rfl
    rw [run_atomically_of_error herror]
    rfl

/-- A batch keeps the invariant. -/
theorem QuoteStore.ingest (h : QuoteStore t) (hfresh : uids.Fresh t) :
    QuoteStore (stateAfter ((ingest parseRfc3339 epochUid batch uids).run t)) := by
  by_cases hnone : t.existingBatch epochUid batch.providerBatchId = none
  swap
  · rw [stateAfter_ingest_of_old (Or.inr hnone)]
    exact h
  cases hepoch : t.epoch? epochUid with
  | none =>
    rw [stateAfter_ingest_of_old (Or.inl hepoch)]
    exact h
  | some epoch =>
    by_cases hbindable : ∀ e ∈ t.batchQuotes (ingestContext parseRfc3339 epoch batch uids)
        batch.records, e.record.Bindable
    · obtain ⟨result, status, hrun, -⟩ := run_ingest_of_new parseRfc3339 batch h hfresh hepoch
        hnone hbindable
      rw [hrun]
      exact h.addBatch _ _ _
    · push Not at hbindable
      obtain ⟨e, he, hnot⟩ := hbindable
      obtain ⟨error, hrun⟩ := run_ingest_of_not_bindable parseRfc3339 h hfresh hepoch hnone he hnot
      rw [hrun]
      exact h

/-! ## A correction -/

variable {c : QuoteCorrection} {uid : Uid}

/-- What a correction does : nothing, or a further version of the current quote. -/
theorem correctQuote_cases (c : QuoteCorrection) (uid : Uid) (t : MarketTables) :
    stateAfter ((correctQuote c uid).run t) = t ∨
    ∃ price current, t.currentQuote c.lineageUid = some current ∧
      (∃ r ∈ t.rawMarketRecord, r.batchUid = c.batchUid ∧ r.recordIndex = c.recordIndex) ∧
      stateAfter ((correctQuote c uid).run t) = { t with
        marketQuote := retireQuotes c.lineageUid t.marketQuote ++ [c.row price current uid] } := by
  cases hrun : (atomically (correctQuoteCommand c uid)).run t with
  | error e t' =>
    refine Or.inl ?_
    rw [correctQuote, run_bind_of_error hrun]
    exact run_atomically_eq_error hrun
  | ok u t' =>
    refine Or.inr ?_
    have hstate : stateAfter ((correctQuote c uid).run t) = t' := by
      rw [correctQuote, run_bind_of_ok hrun]
      rfl
    obtain ⟨tables, t₀, hget, hrun⟩ := run_bind_eq_ok.mp (run_atomically_eq_ok.mp hrun)
    obtain ⟨rfl, rfl⟩ := run_get_eq_ok.mp hget
    cases hcurrent : t.currentQuote c.lineageUid with
    | none =>
      rw [hcurrent] at hrun
      exact absurd hrun run_throw_ne_ok
    | some current =>
      rw [hcurrent] at hrun
      simp only [run_bind_eq_ok, run_fromExcept_eq_ok, run_modify_eq_ok, run_get_eq_ok,
        run_require_eq_ok, run_insertInto_eq_ok] at hrun
      obtain ⟨price, _, ⟨-, rfl⟩, _, _, rfl, _, _, ⟨-, rfl⟩, _, _, ⟨rfl, rfl⟩, _, _,
        ⟨hrecord, rfl⟩, -, rfl⟩ := hrun
      exact ⟨price, current, rfl, hrecord, hstate⟩

theorem mem_retireQuotes (lineageUid : Uid) {quotes : List MarketQuote} {q : MarketQuote}
    (h : q ∈ quotes) : ∃ q' ∈ retireQuotes lineageUid quotes, q'.quoteUid = q.quoteUid := by
  refine ⟨_, List.mem_map_of_mem h, ?_⟩
  split
  · rfl
  · rfl

/-- A retired quote differs from the one it was in nothing else. -/
theorem exists_of_mem_retireQuotes {lineageUid : Uid} {quotes : List MarketQuote}
    {q : MarketQuote} (h : q ∈ retireQuotes lineageUid quotes) :
    ∃ q' ∈ quotes, ∃ isCurrent, q = { q' with isCurrent := isCurrent } := by
  obtain ⟨q', hq', rfl⟩ := List.mem_map.mp h
  refine ⟨q', hq', ?_⟩
  split
  · exact ⟨false, rfl⟩
  · exact ⟨q'.isCurrent, rfl⟩

/-- A correction keeps the invariant. -/
theorem QuoteStore.correctQuote (h : QuoteStore t) :
    QuoteStore (stateAfter ((correctQuote c uid).run t)) := by
  rcases correctQuote_cases c uid t with hsame | hcorrected
  · rw [hsame]
    exact h
  obtain ⟨price, current, hcurrent, ⟨r, hr, hbatch, -⟩, hstate⟩ := hcorrected
  have hfound := List.find?_some hcurrent
  have hlineage : current.lineageUid = c.lineageUid := (of_decide_eq_true hfound).1
  have hmem : current ∈ t.marketQuote := List.mem_of_find?_eq_some hcurrent
  have hkept : ∀ uid', (∃ q ∈ t.marketQuote, q.quoteUid = uid') →
      ∃ q ∈ retireQuotes c.lineageUid t.marketQuote ++ [c.row price current uid],
        q.quoteUid = uid' := by
    rintro uid' ⟨q, hq, rfl⟩
    obtain ⟨q', hq', heq⟩ := mem_retireQuotes c.lineageUid hq
    exact ⟨q', List.mem_append_left _ hq', heq⟩
  rw [hstate]
  refine ⟨h.key, fun l hl => ?_, fun q hq => ?_, fun q hq => ?_, h.record,
    fun i hi => hkept _ (h.issue i hi), fun d hd => hkept _ (h.detail d hd)⟩
  · by_cases heq : l.lineageUid = c.lineageUid
    · exact ⟨_, List.mem_append_right _ List.mem_cons_self, heq.symm, rfl⟩
    · obtain ⟨q, hq, hql, hqc⟩ := h.current l hl
      refine ⟨q, List.mem_append_left _ (List.mem_map.mpr ⟨q, hq, ?_⟩), hql, hqc⟩
      exact if_neg fun hq' => heq (hql.symm.trans hq')
  · rcases List.mem_append.mp hq with hq | hq
    · obtain ⟨q', hq', isCurrent, rfl⟩ := exists_of_mem_retireQuotes hq
      exact h.lineage q' hq'
    · obtain ⟨l, hl, heq⟩ := h.lineage current hmem
      rw [List.mem_singleton.mp hq]
      exact ⟨l, hl, heq.trans hlineage⟩
  · rcases List.mem_append.mp hq with hq | hq
    · obtain ⟨q', hq', isCurrent, rfl⟩ := exists_of_mem_retireQuotes hq
      exact h.batch q' hq'
    · rw [List.mem_singleton.mp hq]
      obtain ⟨b, hb, heq⟩ := h.record r hr
      exact ⟨b, hb, heq.trans hbatch⟩

end MarketMonitor
