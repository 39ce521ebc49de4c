import MarketMonitor.Library.Decimal
import MarketMonitor.Library.Sha256
import MarketMonitor.Persistence.MarketSchema

/-!
# The ingestion of quotes

A batch of records becomes quotes : a record of a mapped instrument is a quote of the
lineage of its business key, unless the lineage has a current quote already. The parser of
source times is a parameter.
-/

namespace MarketMonitor

open Transaction

/-! ## Batches -/

/-- `ProviderRecord`. The price is the number its text denotes. -/
structure ProviderRecord where
  externalCode : String
  sourceTime : Option String
  price : Option Decimal
  volume : Option ℤ
  deriving DecidableEq

/-- `ProviderBatch`. -/
structure ProviderBatch where
  providerBatchId : String
  receivedAt : Instant
  records : List ProviderRecord
  deriving DecidableEq

/-- `IngestionResult`. -/
structure IngestionResult where
  batchUid : Uid
  quotes : ℕ
  quarantined : ℕ
  lineageUids : List Uid
  deriving DecidableEq, Repr

/-- The identifiers an ingestion draws, those of a record by its index. -/
structure IngestUids where
  batch : Uid
  lineage : ℕ → Uid
  quote : ℕ → Uid

/-! ## Queries -/

/-- The epoch with an identifier. -/
def MarketTables.epoch? (tables : MarketTables) (epochUid : Uid) : Option MarketSourceEpoch :=
  tables.marketSourceEpoch.find? fun e => e.epochUid = epochUid

/-- The mapping of a provider's code at an instant, as the ingestion reads it. -/
def MarketTables.mappingAt (tables : MarketTables) (providerKey externalCode : String)
    (instant : Instant) : Option MappingTarget :=
  (latest ProviderMapping.validFrom (tables.providerMapping.filter fun m =>
    m.providerKey = providerKey ∧ m.externalCode = externalCode ∧ m.validFrom ≤ instant)).map
      ProviderMapping.target

/-- The column `mapping_status` of a record. -/
def mappingStatus : Option MappingTarget → MappingStatus
  | none => .unmapped
  | some .conflict => .conflict
  | some _ => .resolved

/-- The instrument of a mapping. -/
def mappedInstrument : Option MappingTarget → Option Uid
  | some (.instrument uid) => some uid
  | _ => none

/-- The lineage of a business key. -/
def MarketTables.lineageOf (tables : MarketTables) (key : String) : Option QuoteLineage :=
  tables.quoteLineage.find? fun l => l.businessKeySha256 = key

/-- The current quote of a lineage. -/
def MarketTables.currentQuote (tables : MarketTables) (lineageUid : Uid) : Option MarketQuote :=
  tables.marketQuote.find? fun q => q.lineageUid = lineageUid ∧ q.isCurrent

/-- `_existing(epoch_uid, provider_batch_id)`. -/
def MarketTables.existingBatch (tables : MarketTables) (epochUid : Uid)
    (providerBatchId : String) : Option IngestionResult :=
  (tables.marketDataBatch.find? fun b =>
    b.epochUid = epochUid ∧ b.providerBatchId = providerBatchId).map fun b =>
    let lineages := ((tables.marketQuote.filter fun q => q.batchUid = b.batchUid).map
      MarketQuote.lineageUid).dedup.insertionSort (· ≤ ·)
    let quarantined := tables.rawMarketRecord.countP fun r =>
      r.batchUid = b.batchUid ∧ r.mappingStatus ≠ .resolved
    ⟨b.batchUid, lineages.length, quarantined, lineages⟩

/-! ## Columns of a quote -/

/-- What a signal of the decimal context raises. -/
def signalError : Decimal.Signal → Exn
  | .invalidOperation => ⟨.invalidOperation, "invalid operation"⟩
  | .overflow => ⟨.decimalOverflow, "above Emax"⟩

/-- `to_scaled_integer(value, scale)`. -/
def toScaledInteger (value : Decimal) (scale : ℤ) : Except Exn ℤ := do
  check (0 ≤ scale) (valueError "scale must be non-negative")
  let scaled ← (value.scaleb scale).mapError signalError
  check (scaled.SameValue (.ofInt scaled.quantize))
    (valueError "value exceeds fixed-point precision")
  return scaled.truncate

/-- `_price(value)`. -/
def scaledPrice : Option Decimal → Except Exn (Option ℤ × FieldValueStatus)
  | none => .ok (none, .missing)
  | some value =>
    match toScaledInteger value 4 with
    | .ok scaled => .ok (some scaled, .value)
    | .error e =>
      if e.cls = .invalidOperation ∨ e.cls = .valueError then .ok (none, .invalid) else .error e

/-- The integers of a column. -/
def FitsColumn (n : ℤ) : Prop := -(2 ^ 63) ≤ n ∧ n ≤ 2 ^ 63 - 1

instance (n : ℤ) : Decidable (FitsColumn n) := inferInstanceAs (Decidable (_ ∧ _))

/-- An integer that is bound to a parameter of a statement. -/
def bindInteger : Option ℤ → Except Exn Unit
  | none => .ok ()
  | some n =>
    check (FitsColumn n) ⟨.overflowError, "Python int too large to convert to SQLite INTEGER"⟩

/-- The status of a column without a check. -/
def volumeStatus (volume : Option ℤ) : FieldValueStatus :=
  if volume.isSome then .value else .missing

/-- The key a lineage has in the place of a source time. -/
def sourceKey (sourceTime : Option String) (receivedAt : Instant) : String :=
  match sourceTime with
  | some text => if text = "" then "RECEIVED:" ++ formatRfc3339 receivedAt else text
  | none => "RECEIVED:" ++ formatRfc3339 receivedAt

/-- The business key of a quote. -/
def businessKey (epochUid instrumentUid : Uid) (source : String) : String :=
  let text := epochUid ++ "|" ++ instrumentUid ++ "|" ++ source ++ "|LAST"
  Sha256.hexdigest (text.toList.flatMap String.utf8EncodeChar)

/-! ## Ingestion -/

/-- What the records of a batch share. -/
structure IngestContext where
  parseRfc3339 : String → Option Instant
  epochUid : Uid
  providerKey : String
  receivedAt : Instant
  uids : IngestUids

/-- The lineage of a record, a new one when its business key has none. -/
def ingestLineage (ctx : IngestContext) (index : ℕ) (instrumentUid : Uid) (source : String) :
    MarketCommand Uid := do
  let key := businessKey ctx.epochUid instrumentUid source
  match (← get).lineageOf key with
  | some lineage => return lineage.lineageUid
  | none =>
    let uid := ctx.uids.lineage index
    insertInto quoteLineageTable integrityError ⟨uid, ctx.epochUid, instrumentUid, source, key⟩
    return uid

/-- The row of a first quote. -/
def ProviderRecord.quoteRow (record : ProviderRecord) (price : Option ℤ × FieldValueStatus)
    (ctx : IngestContext) (index : ℕ) (lineageUid : Uid) : MarketQuote where
  quoteUid := ctx.uids.quote index
  lineageUid := lineageUid
  recordVersion := 1
  batchUid := ctx.uids.batch
  recordIndex := index
  receivedAt := ctx.receivedAt
  sourceTimeRaw := record.sourceTime
  sourceTime := record.sourceTime.bind ctx.parseRfc3339
  priceScaled := price.1
  priceStatus := price.2
  volume := record.volume
  volumeStatus := volumeStatus record.volume
  isCurrent := true

/-- The integers of a quote, as its `INSERT` binds them. -/
def MarketQuote.bindIntegers (row : MarketQuote) : Except Exn Unit := do
  bindInteger row.priceScaled
  bindInteger row.volume

/-- The issue of a source time that is there and is none. -/
def MarketQuote.sourceTimeIssues (row : MarketQuote) : List QuoteQualityIssue :=
  match row.sourceTimeRaw, row.sourceTime with
  | some text, none => [⟨row.quoteUid, "INVALID_SOURCE_TIME", text⟩]
  | _, _ => []

/-- The first quote of a lineage, with the issue of its source time. -/
def ingestQuote (ctx : IngestContext) (index : ℕ) (record : ProviderRecord) (lineageUid : Uid) :
    MarketCommand (Option Uid) := do
  let price ← fromExcept (scaledPrice record.price)
  let row := record.quoteRow price ctx index lineageUid
  fromExcept row.bindIntegers
  insertInto marketQuoteTable integrityError row
  forM row.sourceTimeIssues (insertInto quoteQualityIssueTable integrityError)
  return some lineageUid

/-- The lineage and the quote of a record of an instrument. -/
def ingestMapped (ctx : IngestContext) (index : ℕ) (record : ProviderRecord) :
    Option Uid → MarketCommand (Option Uid)
  | none => return none
  | some instrumentUid => do
    let lineageUid ← ingestLineage ctx index instrumentUid
      (sourceKey record.sourceTime ctx.receivedAt)
    if ((← get).currentQuote lineageUid).isSome then
      return some lineageUid
    else
      ingestQuote ctx index record lineageUid

/-- One record, with its lineage when it is one of a mapped instrument. -/
def ingestRecord (ctx : IngestContext) (index : ℕ) (record : ProviderRecord) :
    MarketCommand (Option Uid) := do
  let mapping := (← get).mappingAt ctx.providerKey record.externalCode ctx.receivedAt
  insertInto rawMarketRecordTable integrityError
    ⟨ctx.uids.batch, index, record.externalCode, record.sourceTime, mappingStatus mapping⟩
  ingestMapped ctx index record (mappedInstrument mapping)

/-- The records of a batch from an index on. -/
def ingestRecords (ctx : IngestContext) :
    ℕ → List ProviderRecord → MarketCommand (List (Option Uid))
  | _, [] => return []
  | index, record :: records => do
    let lineage ← ingestRecord ctx index record
    let lineages ← ingestRecords ctx (index + 1) records
    return lineage :: lineages

/-- The status of a batch at the end of its ingestion. -/
def setBatchStatus (batchUid : Uid) (status : BatchStatus) (tables : MarketTables) :
    MarketTables :=
  { tables with marketDataBatch := tables.marketDataBatch.map fun b =>
      if b.batchUid = batchUid then { b with status := status } else b }

/-- The transaction of `ingest`. -/
def ingestCommand (parseRfc3339 : String → Option Instant) (epochUid : Uid)
    (batch : ProviderBatch) (uids : IngestUids) : MarketCommand IngestionResult := do
  match (← get).epoch? epochUid with
  | none => throw ⟨.noResultFound, "No row was found when one was required"⟩
  | some epoch =>
    insertInto marketDataBatchTable integrityError
      ⟨uids.batch, epochUid, batch.providerBatchId, batch.receivedAt, .received⟩
    let outcomes ← ingestRecords
      ⟨parseRfc3339, epochUid, epoch.providerKey, batch.receivedAt, uids⟩ 0 batch.records
    let lineages := outcomes.filterMap id
    modify (setBatchStatus uids.batch (if lineages ≠ [] then .normalized else .quarantined))
    return ⟨uids.batch, lineages.length, outcomes.countP Option.isNone, lineages⟩

/-- `IngestionService.ingest(epoch_uid, batch)`. -/
def ingest (parseRfc3339 : String → Option Instant) (epochUid : Uid) (batch : ProviderBatch)
    (uids : IngestUids) : MarketCommand IngestionResult := do
  match (← get).existingBatch epochUid batch.providerBatchId with
  | some existing => return existing
  | none => atomically (ingestCommand parseRfc3339 epochUid batch uids)

/-! ## Corrections -/

/-- The arguments of `correct_quote`. -/
structure QuoteCorrection where
  lineageUid : Uid
  batchUid : Uid
  recordIndex : ℕ
  price : Option Decimal
  volume : Option ℤ
  receivedAt : Instant

/-- The row of a corrected quote. -/
def QuoteCorrection.row (c : QuoteCorrection) (price : Option ℤ × FieldValueStatus)
    (current : MarketQuote) (uid : Uid) : MarketQuote where
  quoteUid := uid
  lineageUid := c.lineageUid
  recordVersion := current.recordVersion + 1
  batchUid := c.batchUid
  recordIndex := c.recordIndex
  receivedAt := c.receivedAt
  sourceTimeRaw := current.sourceTimeRaw
  sourceTime := current.sourceTime
  priceScaled := price.1
  priceStatus := price.2
  volume := c.volume
  volumeStatus := volumeStatus c.volume
  isCurrent := true

/-- The quotes with none of a lineage current. -/
def retireQuotes (lineageUid : Uid) (quotes : List MarketQuote) : List MarketQuote :=
  quotes.map fun q => if q.lineageUid = lineageUid then { q with isCurrent := false } else q

/-- The transaction of `correct_quote`. -/
def correctQuoteCommand (c : QuoteCorrection) (uid : Uid) : MarketCommand PUnit := do
  match (← get).currentQuote c.lineageUid with
  | none => throw ⟨.noResultFound, "No row was found when one was required"⟩
  | some current =>
    let price ← fromExcept (scaledPrice c.price)
    modify fun t => { t with marketQuote := retireQuotes c.lineageUid t.marketQuote }
    fromExcept (c.row price current uid).bindIntegers
    let tables ← get
    -- The foreign key of the corrected record.
    require (∃ r ∈ tables.rawMarketRecord, r.batchUid = c.batchUid ∧
      r.recordIndex = c.recordIndex) integrityError
    insertInto marketQuoteTable integrityError (c.row price current uid)

/-- `IngestionService.correct_quote(…)`. -/
def correctQuote (c : QuoteCorrection) (uid : Uid) : MarketCommand Uid := do
  atomically (correctQuoteCommand c uid)
  return uid

end MarketMonitor
