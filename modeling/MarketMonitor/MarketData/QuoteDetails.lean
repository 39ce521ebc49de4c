import MarketMonitor.MarketData.Provider
import MarketMonitor.MarketData.QuoteStore

/-!
# The details of the quotes of a batch

The provider ingests the accepted quotes of a batch and stores the details of each. The
details are stored when every quote is the first of its business key and fits the columns
(`run_ingestBatch_of_allNew`). A quote that does not fit those of `market_quote` rolls the batch
back, and any other failure leaves what the batch ingested without details.
-/

namespace MarketMonitor

open Transaction

/-! ## Identifiers -/

/-- The identifiers of two batches differ in the instant or in the sequence number. -/
theorem batchIdentifier_inj {t t' j k : ℕ} (ht : t < maxInstant) (ht' : t' < maxInstant)
    (h : batchIdentifier t j = batchIdentifier t' k) : t = t' ∧ j = k := by
  unfold batchIdentifier at h
  have hlist := congrArg String.toList h
  simp only [String.toList_append, List.append_assoc] at hlist
  obtain ⟨htime, hrest⟩ := List.append_inj (List.append_cancel_left hlist)
    ((length_formatRfc3339 t).trans (length_formatRfc3339 t').symm)
  have hsequence : (Nat.repr j).toList = (Nat.repr k).toList := List.append_cancel_left hrest
  rw [Nat.toList_repr, Nat.toList_repr] at hsequence
  exact ⟨formatRfc3339_inj ht ht' (String.toList_inj.mp htime), toDigits_inj hsequence⟩

/-- Different instruments have different codes. -/
theorem TdxInstrument.externalCode_inj {i i' : TdxInstrument}
    (h : i.externalCode = i'.externalCode) : i.identity = i'.identity := by
  have hmarket : ∀ {m : ℕ}, m = 0 ∨ m = 1 → (toString m).toList.length = 1 := by
    rintro m (rfl | rfl)
    · rfl
    · rfl
  unfold TdxInstrument.externalCode at h
  have hlist := congrArg String.toList h
  simp only [String.toList_append, List.append_assoc] at hlist
  obtain ⟨hm, hrest⟩ := List.append_inj hlist
    ((hmarket i.valid.1).trans (hmarket i'.valid.1).symm)
  have hm' : (Nat.repr i.market).toList = (Nat.repr i'.market).toList := hm
  rw [Nat.toList_repr, Nat.toList_repr] at hm'
  exact Prod.ext (toDigits_inj hm') (String.toList_inj.mp (List.append_cancel_left hrest))

/-! ## Rows of details -/

/-- A price whose column holds it. -/
def FitsPrice (price : Option Decimal) : Prop :=
  ∃ value, optionalScaled price = .ok value ∧ ∀ n ∈ value, FitsColumn n

/-- A quote whose detail fits the columns of `tdx_quote_detail`. -/
structure TdxQuote.DetailFits (quote : TdxQuote) : Prop where
  amount : ∃ value, amountStorage quote.amount = .ok value
  preClose : FitsPrice quote.preClose
  openPrice : FitsPrice quote.openPrice
  high : FitsPrice quote.high
  low : FitsPrice quote.low
  serverTime : FitsColumn quote.serverTimeRaw

/-- A quote that fits the columns : those of its detail, and those of its price and volume. -/
structure TdxQuote.Storable (quote : TdxQuote) : Prop extends quote.DetailFits where
  price : ∃ columns, scaledPrice quote.price = .ok columns ∧ ∀ n ∈ columns.1, FitsColumn n
  volume : ∀ n ∈ quote.volume, FitsColumn n

/-- A quote fits when its detail and its record do. -/
theorem TdxQuote.storable_iff (p : NativeTdxProvider) {quote : TdxQuote} :
    quote.Storable ↔ quote.DetailFits ∧ (p.record quote).Bindable := by
  constructor
  · rintro ⟨hdetail, ⟨columns, hscaled, hprice⟩, hvolume⟩
    have hcolumns : (p.record quote).priceColumns = columns := by
      have hrecord : scaledPrice (p.record quote).price = .ok columns := hscaled
      rw [ProviderRecord.priceColumns, hrecord]
    exact ⟨hdetail, hcolumns.symm ▸ hscaled, hcolumns.symm ▸ hprice, hvolume⟩
  · rintro ⟨hdetail, hscaled, hprice, hvolume⟩
    exact ⟨hdetail, ⟨_, hscaled, hprice⟩, hvolume⟩

/-- The amount that is stored fits its column. -/
theorem fitsColumn_of_amountStorage {amount : Option Decimal} {value : Option ℤ}
    (h : amountStorage amount = .ok value) : ∀ n ∈ value, FitsColumn n := by
  cases amount with
  | none =>
    cases h
    exact fun n hn => absurd hn (Option.not_mem_none n)
  | some amount =>
    simp only [amountStorage, except_bind_eq_ok, check_eq_ok] at h
    obtain ⟨-, -, scaled, -, -, hfits, h⟩ := h
    cases h
    rintro n hn
    cases hn
    exact hfits

theorem TdxQuoteDetailRow.bindIntegers_eq_ok {row : TdxQuoteDetailRow} {u : Unit} :
    row.bindIntegers = .ok u ↔ (∀ n ∈ row.preCloseScaled, FitsColumn n) ∧
      (∀ n ∈ row.openScaled, FitsColumn n) ∧ (∀ n ∈ row.highScaled, FitsColumn n) ∧
      (∀ n ∈ row.lowScaled, FitsColumn n) ∧ (∀ n ∈ row.amountScaled, FitsColumn n) ∧
      FitsColumn row.serverTimeRaw := by
  simp only [TdxQuoteDetailRow.bindIntegers, except_bind_eq_ok, bindInteger_eq_ok,
    exists_and_left, exists_const, Option.mem_some_iff, forall_eq']

/-- The row of a detail that fits is bound. -/
theorem TdxQuote.DetailFits.detailRow {quote : TdxQuote} (h : quote.DetailFits) (uid : Uid) :
    ∃ row, quote.detailRow uid = .ok row ∧ row.bindIntegers = .ok () := by
  obtain ⟨⟨amount, hamount⟩, ⟨preClose, hpreClose, hfitsPreClose⟩, ⟨openPrice, hopen, hfitsOpen⟩,
    ⟨high, hhigh, hfitsHigh⟩, ⟨low, hlow, hfitsLow⟩, htime⟩ := h
  refine ⟨⟨uid, preClose, openPrice, high, low, amount, quote.quoteStatus.text,
    quote.serverTimeRaw⟩, ?_, ?_⟩
  · simp only [TdxQuote.detailRow, except_bind_eq_ok]
    exact ⟨amount, hamount, preClose, hpreClose, openPrice, hopen, high, hhigh, low, hlow, rfl⟩
  · exact TdxQuoteDetailRow.bindIntegers_eq_ok.mpr ⟨hfitsPreClose, hfitsOpen, hfitsHigh,
      hfitsLow, fitsColumn_of_amountStorage hamount, htime⟩

/-- Only a detail that fits has a row that is bound. -/
theorem TdxQuote.detailFits_of_detailRow {quote : TdxQuote} {uid : Uid} {row : TdxQuoteDetailRow}
    (h : quote.detailRow uid = .ok row) :
    row.quoteUid = uid ∧ (row.bindIntegers = .ok () → quote.DetailFits) := by
  rw [TdxQuote.detailRow] at h
  simp only [except_bind_eq_ok] at h
  obtain ⟨amount, hamount, preClose, hpreClose, openPrice, hopen, high, hhigh, low, hlow,
    h⟩ := h
  cases h
  refine ⟨rfl, fun hbind => ?_⟩
  obtain ⟨hfitsPreClose, hfitsOpen, hfitsHigh, hfitsLow, -, htime⟩ :=
    TdxQuoteDetailRow.bindIntegers_eq_ok.mp hbind
  exact ⟨⟨_, hamount⟩, ⟨_, hpreClose, hfitsPreClose⟩, ⟨_, hopen, hfitsOpen⟩,
    ⟨_, hhigh, hfitsHigh⟩, ⟨_, hlow, hfitsLow⟩, htime⟩

/-- The rows that are there stay. -/
theorem subset_foldl_insertDetail (rows old : List TdxQuoteDetailRow) :
    ∀ d ∈ old, d ∈ rows.foldl insertDetail old := by
  induction rows generalizing old with
  | nil => exact fun d hd => hd
  | cons row rows ih =>
    intro d hd
    refine ih _ d ?_
    unfold insertDetail
    split
    · exact hd
    · exact List.mem_append_left _ hd

/-- A row is inserted, or there is one for its quote. -/
theorem exists_mem_foldl_insertDetail {rows : List TdxQuoteDetailRow} {row : TdxQuoteDetailRow}
    (h : row ∈ rows) (old : List TdxQuoteDetailRow) :
    ∃ d ∈ rows.foldl insertDetail old, d.quoteUid = row.quoteUid := by
  induction rows generalizing old with
  | nil => cases h
  | cons first rows ih =>
    rcases List.mem_cons.mp h with rfl | h
    · have hinserted : ∃ d ∈ insertDetail old row, d.quoteUid = row.quoteUid := by
        unfold insertDetail
        split
        · rename_i hany
          obtain ⟨d, hd, heq⟩ := List.any_eq_true.mp hany
          exact ⟨d, hd, of_decide_eq_true heq⟩
        · exact ⟨row, List.mem_append_right _ List.mem_cons_self, rfl⟩
      obtain ⟨d, hd, heq⟩ := hinserted
      exact ⟨d, subset_foldl_insertDetail rows _ d hd, heq⟩
    · exact ih h _

/-- No other row is inserted. -/
theorem mem_of_mem_foldl_insertDetail {rows old : List TdxQuoteDetailRow} {d : TdxQuoteDetailRow}
    (h : d ∈ rows.foldl insertDetail old) : d ∈ old ∨ d ∈ rows := by
  induction rows generalizing old with
  | nil => exact Or.inl h
  | cons row rows ih =>
    rcases ih h with h | h
    · unfold insertDetail at h
      split at h
      · exact Or.inl h
      · rcases List.mem_append.mp h with h | h
        · exact Or.inl h
        · exact Or.inr (List.mem_cons.mpr (Or.inl (List.mem_singleton.mp h)))
    · exact Or.inr (List.mem_cons_of_mem _ h)

/-! ## The lookup of the quotes -/

variable {t : MarketTables} {ctx : IngestContext} {batch : ProviderBatch} {status : BatchStatus}

/-- The raw rows of a batch, by their places. -/
theorem mem_rawRows_iff {mappingOf : String → Option MappingTarget} {index : ℕ}
    {records : List ProviderRecord} {r : RawMarketRecord} :
    r ∈ rawRows ctx mappingOf index records ↔ ∃ before record after,
      records = before ++ record :: after ∧
        r = rawRow ctx mappingOf (index + before.length) record := by
  induction records generalizing index with
  | nil => simp [rawRows]
  | cons record records ih =>
    rw [rawRows, List.mem_cons, ih]
    constructor
    · rintro (rfl | ⟨before, record', after, rfl, rfl⟩)
      · exact ⟨[], record, records, rfl, rfl⟩
      · refine ⟨record :: before, record', after, rfl, ?_⟩
        rw [List.length_cons, Nat.add_right_comm, Nat.add_assoc]
    · rintro ⟨before, record', after, hrecords, rfl⟩
      cases before with
      | nil =>
        rw [List.nil_append, List.cons.injEq] at hrecords
        exact Or.inl (by rw [hrecords.1]; rfl)
      | cons r before =>
        rw [List.cons_append, List.cons.injEq] at hrecords
        obtain ⟨rfl, rfl⟩ := hrecords
        refine Or.inr ⟨before, record', after, rfl, ?_⟩
        rw [List.length_cons, Nat.add_right_comm, Nat.add_assoc]

/-- A quote of a batch is the one of the record with its index. -/
theorem getElem?_of_mem_batchQuotes {records : List ProviderRecord} {e : NewQuote}
    (h : e ∈ t.batchQuotes ctx records) : records[e.index]? = some e.record := by
  obtain ⟨before, after, hrecords, hindex, -⟩ := mem_newQuotes_iff.mp h
  rw [hindex, Nat.zero_add, hrecords, List.getElem?_append_right le_rfl, Nat.sub_self]
  rfl

/-- The identifiers a batch is looked up in are those of the quotes it added. -/
theorem mem_quoteIds_iff (h : QuoteStore t)
    (hbatch : ∀ b ∈ t.marketDataBatch, b.batchUid ≠ ctx.uids.batch) {code : String} {uid : Uid} :
    (code, uid) ∈ (t.addBatch ctx batch status).quoteIds ctx.uids.batch ↔
      ∃ e ∈ t.batchQuotes ctx batch.records,
        e.record.externalCode = code ∧ ctx.uids.quote e.index = uid := by
  unfold MarketTables.quoteIds
  simp only [List.mem_flatMap, List.mem_map, List.mem_filter, decide_eq_true_eq, Prod.mk.injEq]
  constructor
  · rintro ⟨r, ⟨hr, hrbatch⟩, q, ⟨hq, hqbatch, hindex, -⟩, rfl, rfl⟩
    rcases List.mem_append.mp hr with hr | hr
    · obtain ⟨b, hb, heq⟩ := h.record r hr
      exact absurd (heq.trans hrbatch) (hbatch b hb)
    rcases List.mem_append.mp hq with hq | hq
    · obtain ⟨b, hb, heq⟩ := h.batch q hq
      exact absurd (heq.trans hqbatch) (hbatch b hb)
    obtain ⟨e, he, rfl⟩ := List.mem_map.mp hq
    obtain ⟨before, record, after, hrecords, rfl⟩ := mem_rawRows_iff.mp hr
    refine ⟨e, he, ?_, rfl⟩
    have hfirst := getElem?_of_mem_batchQuotes he
    have hsame : e.index = 0 + before.length := hindex
    rw [hsame, Nat.zero_add, hrecords, List.getElem?_append_right le_rfl, Nat.sub_self,
      List.getElem?_cons_zero, Option.some.injEq] at hfirst
    rw [← hfirst]
    rfl
  · rintro ⟨e, he, rfl, rfl⟩
    obtain ⟨before, after, hrecords, hindex, -⟩ := mem_newQuotes_iff.mp he
    refine ⟨rawRow ctx (t.mappingOf ctx) e.index e.record, ⟨List.mem_append_right _ ?_, rfl⟩,
      e.quoteRow ctx, ⟨List.mem_append_right _ (List.mem_map_of_mem he), rfl, rfl, rfl⟩, rfl, rfl⟩
    rw [hindex]
    exact mem_rawRows_iff.mpr ⟨before, e.record, after, hrecords, rfl⟩

/-- The code of a quote the batch added is found. -/
theorem lookupQuoteId_of_mem (ctx : IngestContext) (h : QuoteStore t)
    (hbatch : ∀ b ∈ t.marketDataBatch, b.batchUid ≠ ctx.uids.batch)
    (hcodes : (batch.records.map ProviderRecord.externalCode).Nodup) {e : NewQuote}
    (he : e ∈ t.batchQuotes ctx batch.records) :
    lookupQuoteId ((t.addBatch ctx batch status).quoteIds ctx.uids.batch) e.record.externalCode =
      .ok (ctx.uids.quote e.index) := by
  have hmem : (e.record.externalCode, ctx.uids.quote e.index) ∈
      ((t.addBatch ctx batch status).quoteIds ctx.uids.batch).filter fun p =>
        p.1 = e.record.externalCode :=
    List.mem_filter.mpr ⟨(mem_quoteIds_iff h hbatch).mpr ⟨e, he, rfl, rfl⟩, decide_eq_true rfl⟩
  have hall : ∀ p ∈ ((t.addBatch ctx batch status).quoteIds ctx.uids.batch).filter fun p =>
      p.1 = e.record.externalCode, p.2 = ctx.uids.quote e.index := by
    rintro ⟨code, uid⟩ hp
    obtain ⟨hp, hcode⟩ := List.mem_filter.mp hp
    obtain ⟨e', he', hcode', rfl⟩ := (mem_quoteIds_iff h hbatch).mp hp
    have hsame : e'.record.externalCode = e.record.externalCode :=
      hcode'.trans (of_decide_eq_true hcode)
    have hget := getElem?_of_mem_batchQuotes he
    have hget' := getElem?_of_mem_batchQuotes he'
    have hindex : e'.index = e.index := by
      refine (List.getElem?_inj ?_ hcodes).mp ?_
      · rw [List.length_map]
        exact (List.getElem?_eq_some_iff.mp hget').1
      · rw [List.getElem?_map, List.getElem?_map, hget, hget', Option.map_some, Option.map_some,
          hsame]
    exact congrArg ctx.uids.quote hindex
  unfold lookupQuoteId
  cases hlast : (((t.addBatch ctx batch status).quoteIds ctx.uids.batch).filter fun p =>
      p.1 = e.record.externalCode).getLast? with
  | none => exact absurd (List.getLast?_eq_none_iff.mp hlast ▸ hmem) List.not_mem_nil
  | some p => exact congrArg Except.ok (hall p (List.mem_of_getLast? hlast))

/-- A code of no quote the batch added is not found. -/
theorem lookupQuoteId_of_not_mem (ctx : IngestContext) (h : QuoteStore t)
    (hbatch : ∀ b ∈ t.marketDataBatch, b.batchUid ≠ ctx.uids.batch) {code : String}
    (hnone : ∀ e ∈ t.batchQuotes ctx batch.records, e.record.externalCode ≠ code) :
    lookupQuoteId ((t.addBatch ctx batch status).quoteIds ctx.uids.batch) code =
      .error ⟨.keyError, code⟩ := by
  have hempty : (((t.addBatch ctx batch status).quoteIds ctx.uids.batch).filter fun p =>
      p.1 = code) = [] := by
    refine List.filter_eq_nil_iff.mpr fun p hp hcode => ?_
    obtain ⟨e, he, hcode', -⟩ := (mem_quoteIds_iff h hbatch).mp hp
    exact hnone e he (hcode'.trans (of_decide_eq_true hcode))
  rw [lookupQuoteId, hempty]
  rfl

/-! ## The quotes of a batch -/

/-- The business key of an accepted quote, when its instrument is mapped. -/
def NativeTdxProvider.keyOf? (p : NativeTdxProvider) (t : MarketTables)
    (epoch : MarketSourceEpoch) (observedAt : Instant) (quote : TdxQuote) : Option String :=
  (mappedInstrument (t.mappingAt epoch.providerKey quote.instrument.externalCode observedAt)).map
    fun uid => businessKey epoch.epochUid uid (sourceKey (p.record quote).sourceTime observedAt)

/-- Quotes of mapped instruments whose business keys are new and differ. -/
structure NativeTdxProvider.AllNew (p : NativeTdxProvider) (t : MarketTables)
    (epoch : MarketSourceEpoch) (observedAt : Instant) (quotes : List TdxQuote) : Prop where
  mapped : ∀ q ∈ quotes, (p.keyOf? t epoch observedAt q).isSome
  new : ∀ q ∈ quotes, ∀ key ∈ p.keyOf? t epoch observedAt q, key ∉ t.keys
  distinct : quotes.Pairwise fun q q' =>
    p.keyOf? t epoch observedAt q ≠ p.keyOf? t epoch observedAt q'

/-- The batch of some accepted quotes. -/
def NativeTdxProvider.batchOf (p : NativeTdxProvider) (observedAt : Instant) (sequence : ℕ)
    (quotes : List TdxQuote) : ProviderBatch :=
  ⟨batchIdentifier observedAt sequence, observedAt, quotes.map p.record⟩

variable {p : NativeTdxProvider} {epoch : MarketSourceEpoch} {observedAt : Instant}
  {sequence : ℕ} {uids : IngestUids} {quotes before after : List TdxQuote} {q : TdxQuote}

/-- What the records of a batch of accepted quotes share. -/
abbrev NativeTdxProvider.contextOf (p : NativeTdxProvider) (epoch : MarketSourceEpoch)
    (observedAt : Instant) (uids : IngestUids) : IngestContext :=
  ⟨p.parseRfc3339, epoch.epochUid, epoch.providerKey, observedAt, uids⟩

theorem keyOf?_eq_some_iff (uids : IngestUids) {key : String} :
    p.keyOf? t epoch observedAt q = some key ↔
      ∃ uid, mappedInstrument (t.mappingOf (p.contextOf epoch observedAt uids)
        (p.record q).externalCode) = some uid ∧
        (p.contextOf epoch observedAt uids).keyOf (p.record q) uid = key :=
  Option.map_eq_some_iff

/-- What holds between each element and the ones before it holds pairwise. -/
theorem pairwise_of_forall_before {α : Type} {R : α → α → Prop} {l : List α}
    (h : ∀ before x after, l = before ++ x :: after → ∀ y ∈ before, R y x) : l.Pairwise R := by
  induction l with
  | nil => exact List.Pairwise.nil
  | cons y l ih =>
    refine List.pairwise_cons.mpr ⟨fun x hx => ?_, ih fun before x after heq y' hy' => ?_⟩
    · obtain ⟨before, after, rfl⟩ := List.append_of_mem hx
      exact h (y :: before) x after rfl y List.mem_cons_self
    · exact h (y :: before) x after (by rw [heq, List.cons_append]) y' (List.mem_cons_of_mem _ hy')

/-- The quotes are all new when each is the first of its business key. -/
theorem allNew_iff (uids : IngestUids) :
    p.AllNew t epoch observedAt quotes ↔ ∀ before q after, quotes = before ++ q :: after →
      ∃ uid, FirstOfKey (p.contextOf epoch observedAt uids)
        (t.mappingOf (p.contextOf epoch observedAt uids)) t.keys (before.map p.record)
        (p.record q) uid := by
  constructor
  · rintro ⟨hmapped, hnew, hdistinct⟩ before q after rfl
    have hq : q ∈ before ++ q :: after := List.mem_append_right _ List.mem_cons_self
    obtain ⟨key, hkey⟩ := Option.isSome_iff_exists.mp (hmapped q hq)
    obtain ⟨uid, huid, rfl⟩ := (keyOf?_eq_some_iff uids).mp hkey
    refine ⟨uid, huid, hnew q hq _ hkey, fun r hr uid' huid' heq => ?_⟩
    obtain ⟨q', hq', rfl⟩ := List.mem_map.mp hr
    have hkey' := (keyOf?_eq_some_iff uids).mpr ⟨uid', huid', heq⟩
    exact (List.pairwise_append.mp hdistinct).2.2 q' hq' q List.mem_cons_self
      (hkey'.trans hkey.symm)
  · intro h
    refine ⟨fun q hq => ?_, fun q hq key hkey => ?_, ?_⟩
    · obtain ⟨before, after, rfl⟩ := List.append_of_mem hq
      obtain ⟨uid, hfirst⟩ := h before q after rfl
      rw [(keyOf?_eq_some_iff uids).mpr ⟨uid, hfirst.mapped, rfl⟩]
      rfl
    · obtain ⟨before, after, rfl⟩ := List.append_of_mem hq
      obtain ⟨uid, hfirst⟩ := h before q after rfl
      obtain ⟨uid', huid', rfl⟩ := (keyOf?_eq_some_iff uids).mp hkey
      cases hfirst.mapped.symm.trans huid'
      exact hfirst.new
    · refine pairwise_of_forall_before fun before q after heq q' hq' hsame => ?_
      obtain ⟨uid, hfirst⟩ := h before q after heq
      have hkey := (keyOf?_eq_some_iff uids).mpr ⟨uid, hfirst.mapped, rfl⟩
      obtain ⟨uid', huid', heq'⟩ := (keyOf?_eq_some_iff uids).mp (hsame.trans hkey)
      exact hfirst.first _ (List.mem_map_of_mem hq') uid' huid' heq'

/-- A quote that is the first of its key is one the batch adds. -/
theorem mem_batchQuotes_iff (hquotes : quotes = before ++ q :: after) {uid : Uid} :
    ⟨before.length, p.record q, uid⟩ ∈
        t.batchQuotes (p.contextOf epoch observedAt uids) (quotes.map p.record) ↔
      FirstOfKey (p.contextOf epoch observedAt uids)
        (t.mappingOf (p.contextOf epoch observedAt uids)) t.keys (before.map p.record)
        (p.record q) uid := by
  rw [MarketTables.batchQuotes, mem_newQuotes_iff]
  constructor
  · rintro ⟨before', after', hrecords, hindex, hfirst⟩
    have hlength : (before.map p.record).length = before'.length := by
      rw [List.length_map]
      exact hindex.trans (Nat.zero_add _)
    rw [hquotes, List.map_append, List.map_cons] at hrecords
    obtain ⟨rfl, -⟩ := List.append_inj hrecords hlength
    exact hfirst
  · intro hfirst
    refine ⟨before.map p.record, after.map p.record, ?_, ?_, hfirst⟩
    · rw [hquotes, List.map_append, List.map_cons]
    · rw [List.length_map, Nat.zero_add]

/-- The lookup of a quote after its batch : its identifier when it is the first of its key,
and otherwise a `KeyError`. -/
theorem lookup_of_firstOfKey (h : QuoteStore t)
    (hbatch : ∀ b ∈ t.marketDataBatch, b.batchUid ≠ uids.batch)
    (hcodes : (quotes.map fun q => q.instrument.externalCode).Nodup)
    (hquotes : quotes = before ++ q :: after) {uid : Uid}
    (hfirst : FirstOfKey (p.contextOf epoch observedAt uids)
      (t.mappingOf (p.contextOf epoch observedAt uids)) t.keys (before.map p.record)
      (p.record q) uid) :
    lookupQuoteId ((t.addBatch (p.contextOf epoch observedAt uids)
      (p.batchOf observedAt sequence quotes) status).quoteIds uids.batch)
      q.instrument.externalCode = .ok (uids.quote before.length) := by
  have hcodes' : ((p.batchOf observedAt sequence quotes).records.map
      ProviderRecord.externalCode).Nodup := by
    rw [NativeTdxProvider.batchOf, List.map_map]
    exact hcodes
  exact lookupQuoteId_of_mem (p.contextOf epoch observedAt uids) h hbatch hcodes'
    ((mem_batchQuotes_iff hquotes).mpr hfirst)

/-- A quote whose key is known has no identifier in its batch. -/
theorem lookup_of_not_firstOfKey (h : QuoteStore t)
    (hbatch : ∀ b ∈ t.marketDataBatch, b.batchUid ≠ uids.batch)
    (hcodes : (quotes.map fun q => q.instrument.externalCode).Nodup)
    (hquotes : quotes = before ++ q :: after)
    (hfirst : ∀ uid, ¬FirstOfKey (p.contextOf epoch observedAt uids)
      (t.mappingOf (p.contextOf epoch observedAt uids)) t.keys (before.map p.record)
      (p.record q) uid) :
    lookupQuoteId ((t.addBatch (p.contextOf epoch observedAt uids)
      (p.batchOf observedAt sequence quotes) status).quoteIds uids.batch)
      q.instrument.externalCode = .error ⟨.keyError, q.instrument.externalCode⟩ := by
  refine lookupQuoteId_of_not_mem (p.contextOf epoch observedAt uids) h hbatch
    fun e he hcode => ?_
  obtain ⟨before', after', hrecords, hindex, hfirst'⟩ := mem_newQuotes_iff.mp he
  have hget := getElem?_of_mem_batchQuotes he
  have hgetq : (quotes.map p.record)[before.length]? = some (p.record q) := by
    rw [hquotes, List.map_append, List.map_cons, List.getElem?_append_right (by simp)]
    simp
  have hlength : e.index = before.length := by
    refine (List.getElem?_inj (l := quotes.map fun q => q.instrument.externalCode) ?_
      hcodes).mp ?_
    · have hlt := (List.getElem?_eq_some_iff.mp hget).1
      rw [NativeTdxProvider.batchOf, List.length_map] at hlt
      rw [List.length_map]
      exact hlt
    · have hcodeOf : (quotes.map fun q => q.instrument.externalCode) =
          (quotes.map p.record).map ProviderRecord.externalCode := by
        rw [List.map_map]
        rfl
      have hget' : (quotes.map p.record)[e.index]? = some e.record := hget
      rw [hcodeOf, List.getElem?_map (i := e.index), List.getElem?_map (i := before.length), hget',
        hgetq]
      exact congrArg some hcode
  rw [NativeTdxProvider.batchOf, hquotes, List.map_append, List.map_cons] at hrecords
  obtain ⟨rfl, hrest⟩ := List.append_inj hrecords
    (by rw [List.length_map, ← hlength, hindex, Nat.zero_add])
  rw [List.cons.injEq] at hrest
  exact hfirst e.instrumentUid (hrest.1 ▸ hfirst')

/-! ## The storing of the details -/

/-- Rows for the quotes : one for each, with the identifier it is found under, and no
other. -/
structure DetailRows (t : MarketTables) (batchUid : Uid) (quotes : List TdxQuote)
    (rows : List TdxQuoteDetailRow) : Prop where
  fits : ∀ q ∈ quotes, q.DetailFits
  stored : ∀ q ∈ quotes, ∃ row ∈ rows,
    lookupQuoteId (t.quoteIds batchUid) q.instrument.externalCode = .ok row.quoteUid
  found : ∀ row ∈ rows, ∃ q ∈ quotes,
    lookupQuoteId (t.quoteIds batchUid) q.instrument.externalCode = .ok row.quoteUid

/-- The details of the quotes, one by one. -/
theorem detailRows_of_forall₂ {batchUid : Uid} {quotes : List TdxQuote} {uids : List Uid}
    {rows : List TdxQuoteDetailRow}
    (huids : List.Forall₂
      (fun q uid => lookupQuoteId (t.quoteIds batchUid) q.instrument.externalCode = .ok uid)
      quotes uids)
    (hrows : List.Forall₂ (fun x row => x.1.detailRow x.2 = .ok row) (quotes.zip uids) rows)
    (hbind : ∀ row ∈ rows, row.bindIntegers = .ok ()) : DetailRows t batchUid quotes rows := by
  induction huids generalizing rows with
  | nil =>
    rw [List.zip_nil_left, List.forall₂_nil_left_iff] at hrows
    rw [hrows]
    exact ⟨fun q hq => absurd hq List.not_mem_nil, fun q hq => absurd hq List.not_mem_nil,
      fun row hrow => absurd hrow List.not_mem_nil⟩
  | @cons q uid quotes uids huid _ ih =>
    rw [List.zip_cons_cons, List.forall₂_cons_left_iff] at hrows
    obtain ⟨row, rows, hrow, hrows, rfl⟩ := hrows
    obtain ⟨heq, hfits⟩ := TdxQuote.detailFits_of_detailRow hrow
    have ih := ih hrows fun row' hrow' => hbind row' (List.mem_cons_of_mem _ hrow')
    obtain rfl : row.quoteUid = uid := heq
    refine ⟨fun q' hq' => ?_, fun q' hq' => ?_, fun row' hrow' => ?_⟩
    · rcases List.mem_cons.mp hq' with rfl | hq'
      · exact hfits (hbind row List.mem_cons_self)
      · exact ih.fits q' hq'
    · rcases List.mem_cons.mp hq' with rfl | hq'
      · exact ⟨row, List.mem_cons_self, huid⟩
      · obtain ⟨row', hrow', hfound⟩ := ih.stored q' hq'
        exact ⟨row', List.mem_cons_of_mem _ hrow', hfound⟩
    · rcases List.mem_cons.mp hrow' with rfl | hrow'
      · exact ⟨q, List.mem_cons_self, huid⟩
      · obtain ⟨q', hq', hfound⟩ := ih.found row' hrow'
        exact ⟨q', List.mem_cons_of_mem _ hq', hfound⟩

/-- The rows of quotes that fit the columns are bound. -/
theorem bindIntegers_of_detailFits {pairs : List (TdxQuote × Uid)} {rows : List TdxQuoteDetailRow}
    (hrows : List.Forall₂ (fun x row => x.1.detailRow x.2 = .ok row) pairs rows)
    (hfits : ∀ x ∈ pairs, x.1.DetailFits) :
    (forM rows TdxQuoteDetailRow.bindIntegers : Except Exn Unit) = .ok () := by
  induction hrows with
  | nil => rfl
  | @cons x row pairs rows hrow _ ih =>
    obtain ⟨row', hrow', hbound⟩ := (hfits x List.mem_cons_self).detailRow x.2
    rw [Except.ok.inj (hrow'.symm.trans hrow)] at hbound
    exact except_forM_eq_ok.mpr (List.forall_mem_cons.mpr ⟨hbound,
      except_forM_eq_ok.mp (ih fun y hy => hfits y (List.mem_cons_of_mem _ hy))⟩)

/-- What the storing of the details does : it stores a row for each quote, or a quote is not
found, or one does not fit the columns. -/
theorem storeDetails_cases (batchUid : Uid) (quotes : List TdxQuote) (t : MarketTables) :
    (∃ rows, DetailRows t batchUid quotes rows ∧ (storeDetails batchUid quotes).run t =
      .ok () { t with tdxQuoteDetail := rows.foldl insertDetail t.tdxQuoteDetail }) ∨
    (∃ e, e.cls = .keyError ∧ (∃ q ∈ quotes,
        lookupQuoteId (t.quoteIds batchUid) q.instrument.externalCode = .error e) ∧
      (storeDetails batchUid quotes).run t = .error e t) ∨
    (∃ e, (∃ q ∈ quotes, ¬q.DetailFits) ∧ (∀ q ∈ quotes, ∃ uid,
        lookupQuoteId (t.quoteIds batchUid) q.instrument.externalCode = .ok uid) ∧
      (storeDetails batchUid quotes).run t = .error e t) := by
  cases huids : quotes.mapM fun q => lookupQuoteId (t.quoteIds batchUid)
      q.instrument.externalCode with
  | error e =>
    obtain ⟨q, hq, hlookup⟩ := exists_of_mapM_eq_error huids
    refine Or.inr (Or.inl ⟨e, ?_, ⟨q, hq, hlookup⟩, ?_⟩)
    · rw [lookupQuoteId] at hlookup
      split at hlookup
      · cases hlookup
      · cases hlookup
        rfl
    · exact (run_bind_of_ok (run_get t)).trans
        (run_bind_of_error (run_fromExcept_eq_error.mpr ⟨huids, rfl⟩))
  | ok uids =>
    have hlookup := mapM_eq_ok_iff.mp huids
    have hfound : ∀ q ∈ quotes, ∃ uid,
        lookupQuoteId (t.quoteIds batchUid) q.instrument.externalCode = .ok uid := by
      intro q hq
      obtain ⟨i, hi, rfl⟩ := List.mem_iff_getElem.mp hq
      have hlength := hlookup.length_eq
      exact ⟨uids[i], (List.forall₂_iff_get.mp hlookup).2 i hi (hlength ▸ hi)⟩
    have hstart : (storeDetails batchUid quotes).run t =
        (do
          let rows ← fromExcept ((quotes.zip uids).mapM fun x => x.1.detailRow x.2)
          fromExcept (forM rows TdxQuoteDetailRow.bindIntegers)
          modify fun t => { t with tdxQuoteDetail := rows.foldl insertDetail t.tdxQuoteDetail } :
          MarketCommand PUnit).run t :=
      (run_bind_of_ok (run_get t)).trans
        (run_bind_of_ok (run_fromExcept_eq_ok.mpr ⟨huids, rfl⟩))
    rw [hstart]
    cases hrows : (quotes.zip uids).mapM fun x => x.1.detailRow x.2 with
    | error e =>
      refine Or.inr (Or.inr ⟨e, ?_, hfound,
        run_bind_of_error (run_fromExcept_eq_error.mpr ⟨rfl, rfl⟩)⟩)
      obtain ⟨⟨q, uid⟩, hmem, hq⟩ := exists_of_mapM_eq_error hrows
      refine ⟨q, (List.of_mem_zip hmem).1, fun hfits => ?_⟩
      obtain ⟨row, hrow, -⟩ := hfits.detailRow uid
      rw [hrow] at hq
      cases hq
    | ok rows =>
      rw [run_bind_of_ok (run_fromExcept_of_ok rfl)]
      have hdetails := mapM_eq_ok_iff.mp hrows
      cases hbind : (forM rows TdxQuoteDetailRow.bindIntegers : Except Exn Unit) with
      | error e =>
        refine Or.inr (Or.inr ⟨e, ?_, hfound,
          run_bind_of_error (run_fromExcept_eq_error.mpr ⟨rfl, rfl⟩)⟩)
        by_contra hfits
        push Not at hfits
        cases hbind.symm.trans (bindIntegers_of_detailFits hdetails fun x hx =>
          hfits _ (List.of_mem_zip hx).1)
      | ok u =>
        exact Or.inl ⟨rows, detailRows_of_forall₂ hlookup hdetails
          (except_forM_eq_ok.mp hbind), rfl⟩

/-- The identifiers that are looked up are of quotes. -/
theorem exists_of_lookupQuoteId {batchUid : Uid} {code : String} {uid : Uid}
    (h : lookupQuoteId (t.quoteIds batchUid) code = .ok uid) :
    ∃ q ∈ t.marketQuote, q.quoteUid = uid := by
  unfold lookupQuoteId at h
  split at h
  · rename_i pair hpair
    cases h
    have hmem := List.mem_of_mem_filter (List.mem_of_getLast? hpair)
    obtain ⟨r, -, hmem⟩ := List.mem_flatMap.mp hmem
    obtain ⟨q, hq, heq⟩ := List.mem_map.mp hmem
    exact ⟨q, List.mem_of_mem_filter hq, congrArg Prod.snd heq⟩
  · cases h

/-- The storing of details keeps the invariant. -/
theorem QuoteStore.storeDetails (h : QuoteStore t) (batchUid : Uid) (quotes : List TdxQuote) :
    QuoteStore (stateAfter ((storeDetails batchUid quotes).run t)) := by
  rcases storeDetails_cases batchUid quotes t with
    ⟨rows, hrows, hrun⟩ | ⟨e, -, -, hrun⟩ | ⟨e, -, -, hrun⟩
  · rw [hrun]
    refine ⟨h.key, h.current, h.lineage, h.batch, h.record, h.issue, fun d hd => ?_⟩
    rcases mem_of_mem_foldl_insertDetail hd with hd | hd
    · exact h.detail d hd
    · obtain ⟨q, -, hfound⟩ := hrows.found d hd
      exact exists_of_lookupQuoteId hfound
  · rw [hrun]
    exact h
  · rw [hrun]
    exact h

/-! ## A batch and its details -/

/-- The current quote of a business key has a detail. -/
def MarketTables.HasDetail (t : MarketTables) (key : String) : Prop :=
  ∃ l ∈ t.quoteLineage, l.businessKeySha256 = key ∧
    ∃ q ∈ t.marketQuote, q.lineageUid = l.lineageUid ∧ q.isCurrent = true ∧
      ∃ d ∈ t.tdxQuoteDetail, d.quoteUid = q.quoteUid

/-- Identifiers without one in common. -/
structure IngestUids.Disjoint (uids uids' : IngestUids) : Prop where
  batch : uids.batch ≠ uids'.batch
  lineage : ∀ i j, uids.lineage i ≠ uids'.lineage j
  quote : ∀ i j, uids.quote i ≠ uids'.quote j

/-- A database before the batches of an instant from a sequence number on : they are new in
their epoch, and so are the identifiers they draw. -/
structure Ready (epochUid : Uid) (now : Instant) (uids : ℕ → IngestUids) (sequence : ℕ)
    (t : MarketTables) : Prop where
  store : QuoteStore t
  batches : ∀ b ∈ t.marketDataBatch, b.epochUid = epochUid → b.receivedAt < maxInstant ∧
    b.receivedAt ≤ now ∧ ∃ j, b.providerBatchId = batchIdentifier b.receivedAt j ∧
      (b.receivedAt = now → j < sequence)
  fresh : ∀ j, sequence ≤ j → (uids j).Fresh t

section

variable {epochUid : Uid} {now : Instant} {uids : ℕ → IngestUids}

theorem Ready.existingBatch (h : Ready epochUid now uids sequence t) (hnow : now < maxInstant) :
    t.existingBatch epochUid (batchIdentifier now sequence) = none := by
  refine MarketTables.existingBatch_eq_none_iff.mpr fun b hb hepoch heq => ?_
  obtain ⟨hmax, hle, j, hid, hlt⟩ := h.batches b hb hepoch
  obtain ⟨htime, hsequence⟩ := batchIdentifier_inj hmax hnow (hid.symm.trans heq)
  exact absurd hsequence (Nat.ne_of_lt (hlt htime))

/-- The batches after one more : those before, with a status, and the new one. -/
theorem mem_marketDataBatch_addBatch {b : MarketDataBatch}
    (h : b ∈ (t.addBatch ctx batch status).marketDataBatch) :
    (∃ b' ∈ t.marketDataBatch, ∃ status', b = { b' with status := status' }) ∨
      ∃ status', b = ⟨ctx.uids.batch, ctx.epochUid, batch.providerBatchId, batch.receivedAt,
        status'⟩ := by
  obtain ⟨b', hb', rfl⟩ := List.mem_map.mp h
  have hstatus : ∃ status', (if b'.batchUid = ctx.uids.batch then { b' with status := status }
      else b') = { b' with status := status' } := by
    split
    · exact ⟨status, rfl⟩
    · exact ⟨b'.status, rfl⟩
  obtain ⟨status', hstatus⟩ := hstatus
  rw [hstatus]
  rcases List.mem_append.mp hb' with hb' | hb'
  · exact Or.inl ⟨b', hb', status', rfl⟩
  · rw [List.mem_singleton.mp hb']
    exact Or.inr ⟨status', rfl⟩

/-- Identifiers a batch does not draw stay new. -/
theorem IngestUids.Fresh.addBatch {uids : IngestUids} (h : uids.Fresh t)
    (hdisjoint : uids.Disjoint ctx.uids) : uids.Fresh (t.addBatch ctx batch status) where
  batch b hb := by
    rcases mem_marketDataBatch_addBatch hb with ⟨b', hb', status', rfl⟩ | ⟨status', rfl⟩
    · exact h.batch b' hb'
    · exact hdisjoint.batch.symm
  lineage l hl j heq := by
    rcases List.mem_append.mp hl with hl | hl
    · exact h.lineage l hl j heq
    · obtain ⟨e, -, rfl⟩ := List.mem_map.mp hl
      exact hdisjoint.lineage j e.index heq.symm
  quote q hq j heq := by
    rcases List.mem_append.mp hq with hq | hq
    · exact h.quote q hq j heq
    · obtain ⟨e, -, rfl⟩ := List.mem_map.mp hq
      exact hdisjoint.quote j e.index heq.symm
  lineage_inj := h.lineage_inj
  quote_inj := h.quote_inj

/-- After a batch the database is ready for the next. -/
theorem Ready.addBatch (h : Ready epochUid now uids sequence t) (p : NativeTdxProvider)
    (epoch : MarketSourceEpoch) (quotes : List TdxQuote) (status : BatchStatus)
    (hnow : now < maxInstant) (hdisjoint : ∀ j, j ≠ sequence → (uids j).Disjoint (uids sequence)) :
    Ready epochUid now uids (sequence + 1)
      (t.addBatch (p.contextOf epoch now (uids sequence)) (p.batchOf now sequence quotes)
        status) where
  store := h.store.addBatch _ _ _
  batches b hb hb' := by
    rcases mem_marketDataBatch_addBatch hb with ⟨b', hmem, status', rfl⟩ | ⟨status', rfl⟩
    · obtain ⟨hmax, hle, j, hid, hlt⟩ := h.batches b' hmem hb'
      exact ⟨hmax, hle, j, hid, fun heq => Nat.lt_succ_of_lt (hlt heq)⟩
    · exact ⟨hnow, le_rfl, sequence, rfl, fun _ => Nat.lt_succ_self _⟩
  fresh j hj := (h.fresh j (Nat.le_of_succ_le hj)).addBatch (hdisjoint j (Nat.ne_of_gt hj))

/-- Further details make no difference to the next batch. -/
theorem Ready.insertDetails (h : Ready epochUid now uids sequence t)
    {rows : List TdxQuoteDetailRow} (hstore : QuoteStore { t with tdxQuoteDetail := rows }) :
    Ready epochUid now uids sequence { t with tdxQuoteDetail := rows } where
  store := hstore
  batches := h.batches
  fresh j hj :=
    let hfresh := h.fresh j hj
    ⟨hfresh.batch, hfresh.lineage, hfresh.quote, hfresh.lineage_inj, hfresh.quote_inj⟩

/-- What a batch whose details are stored leaves : its quotes have details, its business
keys are known, and nothing is lost. -/
structure BatchStored (p : NativeTdxProvider) (epoch : MarketSourceEpoch) (now : Instant)
    (uids : ℕ → IngestUids) (sequence : ℕ) (quotes : List TdxQuote) (t t' : MarketTables) :
    Prop where
  epochs : t'.marketSourceEpoch = t.marketSourceEpoch
  mappings : t'.providerMapping = t.providerMapping
  keys : ∀ key, key ∈ t'.keys ↔ key ∈ t.keys ∨ ∃ q ∈ quotes, key ∈ p.keyOf? t epoch now q
  details : ∀ q ∈ quotes, ∀ key ∈ p.keyOf? t epoch now q, t'.HasDetail key
  kept : ∀ key, t.HasDetail key → t'.HasDetail key
  ready : Ready epoch.epochUid now uids sequence t'

/-- A batch without quotes leaves the database as it was. -/
theorem Ready.batchStored_nil (h : Ready epoch.epochUid now uids sequence t) :
    BatchStored p epoch now uids (sequence + 1) [] t t where
  epochs := rfl
  mappings := rfl
  keys key := by simp
  details q hq := absurd hq List.not_mem_nil
  kept _ hkey := hkey
  ready :=
    { store := h.store
      batches b hb hb' := by
        obtain ⟨hmax, hle, j, hid, hlt⟩ := h.batches b hb hb'
        exact ⟨hmax, hle, j, hid, fun heq => Nat.lt_succ_of_lt (hlt heq)⟩
      fresh j hj := h.fresh j (Nat.le_of_succ_le hj) }

/-- The business keys after a batch of new quotes. -/
theorem mem_keys_addBatch (uids : IngestUids) (status : BatchStatus)
    (hnew : p.AllNew t epoch now quotes) {key : String} :
    key ∈ (t.addBatch (p.contextOf epoch now uids) (p.batchOf now sequence quotes) status).keys ↔
      key ∈ t.keys ∨ ∃ q ∈ quotes, key ∈ p.keyOf? t epoch now q := by
  have hkeys : (t.addBatch (p.contextOf epoch now uids) (p.batchOf now sequence quotes)
      status).keys = t.keys ++ (t.batchQuotes (p.contextOf epoch now uids)
        (quotes.map p.record)).map fun e =>
          (p.contextOf epoch now uids).keyOf e.record e.instrumentUid := by
    change List.map _ (t.quoteLineage ++ _) = _
    rw [List.map_append, List.map_map]
    rfl
  rw [hkeys, List.mem_append]
  refine or_congr_right ?_
  constructor
  · intro h
    obtain ⟨e, he, rfl⟩ := List.mem_map.mp h
    obtain ⟨before, after, hrecords, -, hfirst⟩ := mem_newQuotes_iff.mp he
    have hmem : e.record ∈ quotes.map p.record := by
      rw [hrecords]
      exact List.mem_append_right _ List.mem_cons_self
    obtain ⟨q, hq, heq⟩ := List.mem_map.mp hmem
    refine ⟨q, hq, (keyOf?_eq_some_iff uids).mpr ⟨e.instrumentUid, ?_, ?_⟩⟩
    · rw [heq]
      exact hfirst.mapped
    · rw [heq]
  · rintro ⟨q, hq, hkey⟩
    obtain ⟨before, after, hquotes⟩ := List.append_of_mem hq
    obtain ⟨uid, hfirst⟩ := (allNew_iff uids).mp hnew before q after hquotes
    obtain ⟨uid', huid', rfl⟩ := (keyOf?_eq_some_iff uids).mp hkey
    cases hfirst.mapped.symm.trans huid'
    exact List.mem_map.mpr ⟨_, (mem_batchQuotes_iff hquotes).mpr hfirst, rfl⟩

/-- A batch loses no detail. -/
theorem MarketTables.HasDetail.addBatch {key : String} (h : t.HasDetail key) :
    (t.addBatch ctx batch status).HasDetail key := by
  obtain ⟨l, hl, hkey, q, hq, hlineage, hcurrent, hdetail⟩ := h
  exact ⟨l, List.mem_append_left _ hl, hkey, q, List.mem_append_left _ hq, hlineage, hcurrent,
    hdetail⟩

/-- More details lose none. -/
theorem MarketTables.HasDetail.insertDetails {key : String} (h : t.HasDetail key)
    (rows : List TdxQuoteDetailRow) :
    ({ t with tdxQuoteDetail := rows.foldl insertDetail t.tdxQuoteDetail } :
      MarketTables).HasDetail key := by
  obtain ⟨l, hl, hkey, q, hq, hlineage, hcurrent, d, hd, heq⟩ := h
  exact ⟨l, hl, hkey, q, hq, hlineage, hcurrent, d, subset_foldl_insertDetail rows _ d hd, heq⟩

/-- A quote a batch adds has no detail yet. -/
theorem not_hasDetail_addBatch (ctx : IngestContext) (status : BatchStatus) (h : QuoteStore t)
    (hfresh : ctx.uids.Fresh t) {e : NewQuote} (he : e ∈ t.batchQuotes ctx batch.records) :
    ¬(t.addBatch ctx batch status).HasDetail (ctx.keyOf e.record e.instrumentUid) := by
  rintro ⟨l, hl, hkey, q, hq, hlineage, -, d, hd, hdetail⟩
  obtain ⟨before, after, hrecords, hindex, hfirst⟩ := mem_newQuotes_iff.mp he
  obtain ⟨q', hq', hdetail'⟩ := h.detail d hd
  have hquote : ∀ i, q.quoteUid ≠ ctx.uids.quote i := fun i heq =>
    hfresh.quote q' hq' i (hdetail'.trans (hdetail.trans heq))
  rcases List.mem_append.mp hl with hl | hl
  · exact hfirst.new (hkey ▸ List.mem_map_of_mem hl)
  obtain ⟨e', he', rfl⟩ := List.mem_map.mp hl
  rcases List.mem_append.mp hq with hq | hq
  · obtain ⟨l, hl, heq⟩ := h.lineage q hq
    exact hfresh.lineage l hl e'.index (heq.trans hlineage)
  · obtain ⟨e'', -, rfl⟩ := List.mem_map.mp hq
    exact hquote e''.index rfl

variable (hready : Ready epoch.epochUid now uids sequence t)
  (hepoch : t.epoch? epoch.epochUid = some epoch) (hnow : now < maxInstant)
  (hcodes : (quotes.map fun q => q.instrument.externalCode).Nodup)

include hready hepoch hnow

/-- A batch of quotes that fit the columns is ingested, and what follows is the storing of
their details. -/
theorem run_ingestBatch_eq (hquotes : quotes ≠ [])
    (hbindable : ∀ e ∈ t.batchQuotes (p.contextOf epoch now (uids sequence))
      (quotes.map p.record), e.record.Bindable) :
    ∃ n status, ∀ result, ((storeDetails (uids sequence).batch quotes >>= fun _ => pure n :
        MarketCommand ℕ).run (t.addBatch (p.contextOf epoch now (uids sequence))
          (p.batchOf now sequence quotes) status) = result →
      (p.ingestBatch epoch.epochUid now quotes sequence (uids sequence)).run t = result) := by
  obtain ⟨result, status, hrun, hbatch⟩ := run_ingest_of_new p.parseRfc3339
    (p.batchOf now sequence quotes) hready.store (hready.fresh sequence le_rfl) hepoch
    (hready.existingBatch hnow) hbindable
  refine ⟨result.quotes, status, fun outcome houtcome => ?_⟩
  rw [NativeTdxProvider.ingestBatch, if_neg hquotes]
  rw [← hbatch] at houtcome
  exact (run_bind_of_ok hrun).trans houtcome

/-- A batch with a new quote that does not fit the columns is rolled back. -/
theorem run_ingestBatch_of_not_bindable {e : NewQuote}
    (he : e ∈ t.batchQuotes (p.contextOf epoch now (uids sequence)) (quotes.map p.record))
    (hnot : ¬e.record.Bindable) :
    ∃ error, (p.ingestBatch epoch.epochUid now quotes sequence (uids sequence)).run t =
      .error error t := by
  have hquotes : quotes ≠ [] := by
    rintro rfl
    cases he
  obtain ⟨error, hrun⟩ : ∃ error, (ingest p.parseRfc3339 epoch.epochUid
      (p.batchOf now sequence quotes) (uids sequence)).run t = .error error t :=
    run_ingest_of_not_bindable p.parseRfc3339 hready.store (hready.fresh sequence le_rfl) hepoch
      (hready.existingBatch hnow) he hnot
  refine ⟨error, ?_⟩
  rw [NativeTdxProvider.ingestBatch, if_neg hquotes]
  exact run_bind_of_error hrun

include hcodes

/-- A batch of new quotes that fit the columns is stored with its details. -/
theorem run_ingestBatch_of_allNew (hnew : p.AllNew t epoch now quotes)
    (hstorable : ∀ q ∈ quotes, q.Storable)
    (hdisjoint : ∀ j, j ≠ sequence → (uids j).Disjoint (uids sequence)) :
    ∃ n t', (p.ingestBatch epoch.epochUid now quotes sequence (uids sequence)).run t = .ok n t' ∧
      BatchStored p epoch now uids (sequence + 1) quotes t t' ∧
      t'.capabilityHealthReport = t.capabilityHealthReport := by
  by_cases hempty : quotes = []
  · refine ⟨0, t, ?_, hempty ▸ hready.batchStored_nil, rfl⟩
    rw [NativeTdxProvider.ingestBatch, if_pos hempty]
    rfl
  have hbindable : ∀ e ∈ t.batchQuotes (p.contextOf epoch now (uids sequence))
      (quotes.map p.record), e.record.Bindable := by
    intro e he
    obtain ⟨q, hq, heq⟩ := List.mem_map.mp (List.mem_of_getElem? (getElem?_of_mem_batchQuotes he))
    exact heq ▸ ((TdxQuote.storable_iff p).mp (hstorable q hq)).2
  obtain ⟨n, status, hrun⟩ := run_ingestBatch_eq (p := p) hready hepoch hnow hempty hbindable
  have hfresh := hready.fresh sequence le_rfl
  have hfound : ∀ q ∈ quotes, ∃ i uid, lookupQuoteId ((t.addBatch
      (p.contextOf epoch now (uids sequence)) (p.batchOf now sequence quotes) status).quoteIds
        (uids sequence).batch) q.instrument.externalCode = .ok ((uids sequence).quote i) ∧
      ⟨i, p.record q, uid⟩ ∈ t.batchQuotes (p.contextOf epoch now (uids sequence))
        (quotes.map p.record) := by
    intro q hq
    obtain ⟨before, after, hquotes⟩ := List.append_of_mem hq
    obtain ⟨uid, hfirst⟩ := (allNew_iff (uids sequence)).mp hnew before q after hquotes
    exact ⟨before.length, uid, lookup_of_firstOfKey hready.store hfresh.batch hcodes hquotes hfirst,
      (mem_batchQuotes_iff hquotes).mpr hfirst⟩
  have hstore := hready.addBatch p epoch quotes status hnow hdisjoint
  rcases storeDetails_cases (uids sequence).batch quotes (t.addBatch
      (p.contextOf epoch now (uids sequence)) (p.batchOf now sequence quotes) status) with
    ⟨rows, hrows, hdetails⟩ | ⟨e, -, ⟨q, hq, herror⟩, -⟩ | ⟨e, ⟨q, hq, hnot⟩, -, -⟩
  · refine ⟨n, _, hrun _ (run_bind_of_ok hdetails), ⟨rfl, rfl,
      fun key => mem_keys_addBatch (uids sequence) status hnew, fun q hq key hkey => ?_,
      fun key h => h.addBatch.insertDetails rows, hstore.insertDetails ?_⟩, rfl⟩
    swap
    · have hkept := hstore.store.storeDetails (uids sequence).batch quotes
      rw [hdetails] at hkept
      exact hkept
    · obtain ⟨i, uid, hlookup, hmem⟩ := hfound q hq
      obtain ⟨row, hrow, hrowUid⟩ := hrows.stored q hq
      obtain ⟨d, hd, hdetail⟩ := exists_mem_foldl_insertDetail hrow (t.addBatch
        (p.contextOf epoch now (uids sequence)) (p.batchOf now sequence quotes)
        status).tdxQuoteDetail
      have huid : row.quoteUid = (uids sequence).quote i :=
        Except.ok.inj (hrowUid.symm.trans hlookup)
      obtain ⟨uid', huid', rfl⟩ := (keyOf?_eq_some_iff (uids sequence)).mp hkey
      obtain ⟨before, after, -, -, hfirst⟩ := mem_newQuotes_iff.mp hmem
      cases hfirst.mapped.symm.trans huid'
      exact ⟨_, List.mem_append_right _ (List.mem_map_of_mem hmem), rfl, _,
        List.mem_append_right _ (List.mem_map_of_mem hmem), rfl, rfl, d, hd, hdetail.trans huid⟩
  · obtain ⟨i, uid, hlookup, -⟩ := hfound q hq
    rw [hlookup] at herror
    cases herror
  · exact absurd (hstorable q hq).toDetailFits hnot

/-- What a batch whose details are not stored leaves : its lineages and quotes, but not the
details of one of its quotes. -/
structure BatchLost (p : NativeTdxProvider) (epoch : MarketSourceEpoch) (now : Instant)
    (quotes : List TdxQuote) (t : MarketTables) (e : Exn) (t' : MarketTables) : Prop where
  lost : e.cls = .keyError ∨
    ∃ q ∈ quotes, ∃ key ∈ p.keyOf? t epoch now q, ¬t'.HasDetail key
  epochs : t'.marketSourceEpoch = t.marketSourceEpoch
  store : QuoteStore t'
  batches : ∀ b ∈ t'.marketDataBatch, b.epochUid = epoch.epochUid → b.receivedAt < maxInstant ∧
    b.receivedAt ≤ now ∧ ∃ j, b.providerBatchId = batchIdentifier b.receivedAt j

omit hepoch hnow hcodes in
/-- A batch that is rolled back has not even the quote of a new key. -/
theorem batchLost_of_not_bindable {e : NewQuote} (error : Exn)
    (he : e ∈ t.batchQuotes (p.contextOf epoch now (uids sequence)) (quotes.map p.record)) :
    BatchLost p epoch now quotes t error t := by
  obtain ⟨before, after, hrecords, -, hfirst⟩ := mem_newQuotes_iff.mp he
  have hmem : e.record ∈ quotes.map p.record := by
    rw [hrecords]
    exact List.mem_append_right _ List.mem_cons_self
  obtain ⟨q, hq, heq⟩ := List.mem_map.mp hmem
  refine ⟨Or.inr ⟨q, hq, _, (keyOf?_eq_some_iff (uids sequence)).mpr
    ⟨e.instrumentUid, heq ▸ hfirst.mapped, rfl⟩, ?_⟩, rfl, hready.store, fun b hb hb' => ?_⟩
  · rintro ⟨l, hl, hkey, -⟩
    exact hfirst.new (heq ▸ hkey ▸ List.mem_map_of_mem hl)
  · obtain ⟨hmax, hle, j, hid, -⟩ := hready.batches b hb hb'
    exact ⟨hmax, hle, j, hid⟩

omit hepoch hnow in
/-- A quote that is found after its batch is the first of its key. -/
theorem exists_firstOfKey_of_lookup {before after : List TdxQuote} {q : TdxQuote} {uid : Uid}
    (hquotes : quotes = before ++ q :: after)
    (hfound : lookupQuoteId ((t.addBatch (p.contextOf epoch now (uids sequence))
      (p.batchOf now sequence quotes) status).quoteIds (uids sequence).batch)
      q.instrument.externalCode = .ok uid) :
    ∃ uid, FirstOfKey (p.contextOf epoch now (uids sequence))
      (t.mappingOf (p.contextOf epoch now (uids sequence))) t.keys (before.map p.record)
      (p.record q) uid := by
  by_contra hnone
  have herror := hfound.symm.trans (lookup_of_not_firstOfKey hready.store
    (hready.fresh sequence le_rfl).batch hcodes hquotes fun uid h => hnone ⟨uid, h⟩)
  cases herror

/-- A batch with a quote that is not new, or does not fit the columns, loses details. -/
theorem run_ingestBatch_of_not
    (hnot : ¬(p.AllNew t epoch now quotes ∧ ∀ q ∈ quotes, q.Storable)) :
    ∃ e t', (p.ingestBatch epoch.epochUid now quotes sequence (uids sequence)).run t =
      .error e t' ∧ BatchLost p epoch now quotes t e t' := by
  have hempty : quotes ≠ [] := by
    rintro rfl
    exact hnot ⟨⟨fun q hq => absurd hq List.not_mem_nil, fun q hq => absurd hq List.not_mem_nil,
      List.Pairwise.nil⟩, fun q hq => absurd hq List.not_mem_nil⟩
  by_cases hbindable : ∀ e ∈ t.batchQuotes (p.contextOf epoch now (uids sequence))
      (quotes.map p.record), e.record.Bindable
  swap
  · push Not at hbindable
    obtain ⟨e, he, hunbound⟩ := hbindable
    obtain ⟨error, hrun⟩ := run_ingestBatch_of_not_bindable hready hepoch hnow he hunbound
    exact ⟨error, t, hrun, batchLost_of_not_bindable hready error he⟩
  obtain ⟨n, status, hrun⟩ := run_ingestBatch_eq (p := p) hready hepoch hnow hempty hbindable
  have hfresh := hready.fresh sequence le_rfl
  have hstore : QuoteStore (t.addBatch (p.contextOf epoch now (uids sequence))
      (p.batchOf now sequence quotes) status) := hready.store.addBatch _ _ _
  have hbatches : ∀ b ∈ (t.addBatch (p.contextOf epoch now (uids sequence))
      (p.batchOf now sequence quotes) status).marketDataBatch, b.epochUid = epoch.epochUid →
      b.receivedAt < maxInstant ∧ b.receivedAt ≤ now ∧
        ∃ j, b.providerBatchId = batchIdentifier b.receivedAt j := by
    intro b hb hb'
    rcases mem_marketDataBatch_addBatch hb with ⟨b', hmem, status', rfl⟩ | ⟨status', rfl⟩
    · obtain ⟨hmax, hle, j, hid, -⟩ := hready.batches b' hmem hb'
      exact ⟨hmax, hle, j, hid⟩
    · exact ⟨hnow, le_rfl, sequence, rfl⟩
  -- The records of new quotes are bound, so that what does not fit is a detail.
  have hfits : p.AllNew t epoch now quotes → (∀ q ∈ quotes, q.DetailFits) →
      ∀ q ∈ quotes, q.Storable := by
    intro hnew hdetail q hq
    obtain ⟨before, after, hquotes⟩ := List.append_of_mem hq
    obtain ⟨uid, hfirst⟩ := (allNew_iff (uids sequence)).mp hnew before q after hquotes
    exact (TdxQuote.storable_iff p).mpr
      ⟨hdetail q hq, hbindable _ ((mem_batchQuotes_iff hquotes).mpr hfirst)⟩
  rcases storeDetails_cases (uids sequence).batch quotes (t.addBatch
      (p.contextOf epoch now (uids sequence)) (p.batchOf now sequence quotes) status) with
    ⟨rows, hrows, -⟩ | ⟨e, hkey, -, hdetails⟩ | ⟨e, ⟨q, hq, -⟩, hfound, hdetails⟩
  · have hnew : p.AllNew t epoch now quotes := by
      refine (allNew_iff (uids sequence)).mpr fun before q after hquotes => ?_
      obtain ⟨row, -, hfound⟩ := hrows.stored q
        (hquotes ▸ List.mem_append_right _ List.mem_cons_self)
      exact exists_firstOfKey_of_lookup hready hcodes hquotes hfound
    exact absurd ⟨hnew, hfits hnew hrows.fits⟩ hnot
  · exact ⟨e, _, hrun _ (run_bind_of_error hdetails), Or.inl hkey, rfl, hstore, hbatches⟩
  · refine ⟨e, _, hrun _ (run_bind_of_error hdetails), Or.inr ⟨q, hq, ?_⟩, rfl, hstore, hbatches⟩
    obtain ⟨before, after, hquotes⟩ := List.append_of_mem hq
    obtain ⟨uid, hlookup⟩ := hfound q hq
    obtain ⟨uid', hfirst⟩ :=
      exists_firstOfKey_of_lookup hready hcodes hquotes hlookup
    have hmem : ⟨before.length, p.record q, uid'⟩ ∈ t.batchQuotes
        (p.contextOf epoch now (uids sequence)) (p.batchOf now sequence quotes).records :=
      (mem_batchQuotes_iff hquotes).mpr hfirst
    have hnone := not_hasDetail_addBatch (p.contextOf epoch now (uids sequence)) status
      hready.store hfresh hmem
    exact ⟨_, (keyOf?_eq_some_iff (uids sequence)).mpr ⟨uid', hfirst.mapped, rfl⟩, hnone⟩

end

end MarketMonitor
