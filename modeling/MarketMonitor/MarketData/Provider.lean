import MarketMonitor.MarketData.Ingestion
import MarketMonitor.MarketData.Quotes
import MarketMonitor.MarketData.TradingClock
import MarketMonitor.Persistence.Instants

/-!
# The TDX provider

One poll : the quotes of the eligible instruments are acquired in batches, a batch that
fails is halved, what is accepted is ingested and its details are stored. The provider
remembers the last accepted quote of each instrument from poll to poll.

`examined` is a history : what was normalized, with what was remembered before and after.
The code does not keep it, and reads none of it.
-/

namespace MarketMonitor

open Transaction

/-! ## State -/

/-- A normalization, as it happened. -/
structure Examination where
  observedAt : Instant
  instrument : TdxInstrument
  raw : TdxRawQuote
  remembered : Option TdxQuote
  accepted : Option TdxQuote
  rememberedAfter : Option TdxQuote

/-- The database and the memory of a provider. -/
structure ProviderState where
  tables : MarketTables
  previousQuotes : TdxIdentity → Option TdxQuote
  examined : List Examination

/-- A provider without a poll. -/
def ProviderState.new (tables : MarketTables) : ProviderState := ⟨tables, fun _ => none, []⟩

abbrev ProviderCommand (α : Type) := EStateM Exn ProviderState α

/-- A command on the database. -/
def onTables {α : Type} (command : MarketCommand α) : ProviderCommand α := fun s =>
  match command.run s.tables with
  | .ok a tables => .ok a { s with tables := tables }
  | .error e tables => .error e { s with tables := tables }

/-- `TdxUniverse`, as `synchronize_reference` builds it : no instrument twice. -/
structure TdxUniverse where
  primary : List TdxInstrument
  contextIndexes : List TdxInstrument
  contextEtfs : List TdxInstrument
  primary_nodup : (primary.map TdxInstrument.identity).Nodup
  contextIndexes_nodup : (contextIndexes.map TdxInstrument.identity).Nodup
  contextEtfs_nodup : (contextEtfs.map TdxInstrument.identity).Nodup

theorem nodup_identities_nil : (([] : List TdxInstrument).map TdxInstrument.identity).Nodup :=
  List.nodup_nil

theorem nodup_identities_singleton (i : TdxInstrument) :
    ([i].map TdxInstrument.identity).Nodup := List.nodup_singleton _

/-- `HealthThresholds`. -/
structure HealthThresholds where
  minimumCoveragePpm : ℕ
  maximumLatencyMs : ℕ
  validForSeconds : ℕ
  coverage_le : minimumCoveragePpm ≤ 1000000
  valid_pos : 0 < validForSeconds

/-- Thresholds of ninety per cent. -/
def ninetyPercent : HealthThresholds := ⟨900000, 1000, 60, by decide, by decide⟩

/-- What a provider is built with. -/
structure NativeTdxProvider where
  parseRfc3339 : String → Option Instant
  clock : Option (ℕ → TradingCalendar)
  thresholds : HealthThresholds
  tdxUniverse : Option TdxUniverse

/-- What the gateway answers to a request for quotes. -/
abbrev TdxGateway := List TdxInstrument → Except Exn (List TdxRawQuote)

/-! ## Quarantine -/

/-- `_retry_delay()`. -/
def retryDelay : ℕ := minutes 5

/-- The row of an instrument's quarantine. -/
def TdxSymbolQuarantine.isOf (epochUid : Uid) (identity : TdxIdentity)
    (row : TdxSymbolQuarantine) : Bool :=
  row.epochUid = epochUid ∧ row.market = identity.1 ∧ row.externalCode = identity.2

/-- One more failure of a quarantined instrument. -/
def TdxSymbolQuarantine.fail (row : TdxSymbolQuarantine) (reason : String)
    (observedAt : Instant) : TdxSymbolQuarantine where
  epochUid := row.epochUid
  market := row.market
  externalCode := row.externalCode
  failureReason := reason
  failureCount := row.failureCount + 1
  lastFailureAt := observedAt
  retryAfter := observedAt + retryDelay

/-- `TdxStorage.record_quarantine(…)`, of an instrument whose identity is valid. -/
def recordQuarantine (epochUid : Uid) (identity : TdxIdentity) (reason : String)
    (observedAt : Instant) : MarketCommand PUnit := do
  let tables ← get
  if tables.tdxSymbolQuarantine.any (TdxSymbolQuarantine.isOf epochUid identity) then
    let rows := tables.tdxSymbolQuarantine.map fun row =>
      if row.isOf epochUid identity then row.fail reason observedAt else row
    set { tables with tdxSymbolQuarantine := rows }
  else do
    require (tables.epoch? epochUid).isSome integrityError
    let row : TdxSymbolQuarantine :=
      ⟨epochUid, identity.1, identity.2, reason, 1, observedAt, observedAt + retryDelay⟩
    set { tables with tdxSymbolQuarantine := tables.tdxSymbolQuarantine ++ [row] }

/-- `TdxStorage.active_quarantine(epoch_uid, observed_at)`. -/
def MarketTables.activeQuarantine (tables : MarketTables) (epochUid : Uid)
    (observedAt : Instant) : List TdxIdentity :=
  (tables.tdxSymbolQuarantine.filter fun row =>
    row.epochUid = epochUid ∧ observedAt < row.retryAfter).map fun row =>
      (row.market, row.externalCode)

/-! ## Acquisition -/

/-- The quotes of a request, when they are of the requested instruments. -/
def requestQuotes (gateway : TdxGateway) (instruments : List TdxInstrument) :
    Except Exn (List TdxRawQuote) := do
  let rawQuotes ← gateway instruments
  check (rawQuotes.length = instruments.length ∧
    (∀ q ∈ rawQuotes, q.identity ∈ instruments.map TdxInstrument.identity) ∧
    ∀ i ∈ instruments, i.identity ∈ rawQuotes.map TdxRawQuote.identity)
    (valueError "quote identity/cardinality mismatch")
  return rawQuotes

/-- `except (OSError, RuntimeError, ValueError)`. A transport error is a runtime error. -/
def ExceptionClass.isRequestFailure : ExceptionClass → Bool
  | .osError | .runtimeError | .valueError | .tdxTransportError | .tdxBlockParseError
  | .tdxProtocolError => true
  | _ => false

/-- The quote that is accepted : one with values. -/
def acceptedQuote : Except TdxInvalidRecord TdxQuote → Option TdxQuote
  | .ok quote => if quote.quoteStatus = .value then some quote else none
  | .error _ => none

/-- Why a quote that is not accepted is quarantined. -/
def quarantineReason : Except TdxInvalidRecord TdxQuote → String
  | .ok quote => quote.quoteStatus.text
  | .error record => record.reason

/-- The memory after a quote of an instrument. -/
def remember (identity : TdxIdentity) (accepted : Option TdxQuote)
    (memory : TdxIdentity → Option TdxQuote) : TdxIdentity → Option TdxQuote := fun k =>
  if k = identity then accepted.or (memory k) else memory k

/-- The normalization of the quote of an instrument : remembered or quarantined. -/
def examine (epochUid : Uid) (observedAt : Instant) (instrument : TdxInstrument)
    (raw : TdxRawQuote) : ProviderCommand (Option TdxQuote) := do
  let s ← get
  let remembered := s.previousQuotes instrument.identity
  let outcome := normalizeQuote raw instrument observedAt remembered
  let accepted := acceptedQuote outcome
  let memory := remember instrument.identity accepted s.previousQuotes
  let examination : Examination :=
    ⟨observedAt, instrument, raw, remembered, accepted, memory instrument.identity⟩
  set { s with previousQuotes := memory, examined := s.examined ++ [examination] }
  if accepted = none then
    onTables (recordQuarantine epochUid instrument.identity (quarantineReason outcome) observedAt)
  return accepted

/-- The normalization of the quotes of a batch, in the order of the instruments. -/
def examineAll (epochUid : Uid) (observedAt : Instant) (rawQuotes : List TdxRawQuote) :
    List TdxInstrument → ProviderCommand (List (Option TdxQuote))
  | [] => return []
  | instrument :: instruments => do
    match (rawQuotes.filter fun q => q.identity = instrument.identity).getLast? with
    | none => throw ⟨.keyError, instrument.code⟩
    | some raw =>
      let accepted ← examine epochUid observedAt instrument raw
      let rest ← examineAll epochUid observedAt rawQuotes instruments
      return accepted :: rest

/-- `_acquire_batch(epoch_uid, instruments, observed_at)` : the accepted batches and the
number of the quarantined instruments. A batch of `n + 1` instruments is halved at most `n`
times. -/
def acquireBatch (epochUid : Uid) (gateway : TdxGateway) (observedAt : Instant) :
    ℕ → List TdxInstrument → ProviderCommand (List (List TdxQuote) × ℕ)
  | 0, _ => return ([], 0)
  | fuel + 1, instruments =>
    match requestQuotes gateway instruments with
    | .ok rawQuotes => do
      let outcomes ← examineAll epochUid observedAt rawQuotes instruments
      let quotes := outcomes.filterMap id
      return (if quotes ≠ [] then [quotes] else [], outcomes.countP Option.isNone)
    | .error e =>
      if e.cls = .tdxTransportError ∨ ¬e.cls.isRequestFailure then throw e
      else
        match instruments with
        | [instrument] => do
          onTables (recordQuarantine epochUid instrument.identity "INVALID_RESPONSE" observedAt)
          return ([], 1)
        | instruments => do
          let midpoint := instruments.length / 2
          let left ← acquireBatch epochUid gateway observedAt fuel (instruments.take midpoint)
          let right ← acquireBatch epochUid gateway observedAt fuel (instruments.drop midpoint)
          return (left.1 ++ right.1, left.2 + right.2)

/-- The batches of a poll, one after the other. -/
def acquireBatches (epochUid : Uid) (gateway : TdxGateway) (observedAt : Instant) :
    List (List TdxInstrument) → ProviderCommand (List (List TdxQuote) × ℕ)
  | [] => return ([], 0)
  | batch :: batches => do
    let first ← acquireBatch epochUid gateway observedAt batch.length batch
    let rest ← acquireBatches epochUid gateway observedAt batches
    return (first.1 ++ rest.1, first.2 + rest.2)

/-- `_batches(items, size)`. -/
def batchesOf {α : Type} (items : List α) (size : ℕ) : List (List α) :=
  (List.range ((items.length + size - 1) / size)).map fun i => (items.drop (i * size)).take size

/-! ## Details -/

/-- `_amount_storage_values(value)` : ten-thousandths, half to even, in 64 bits. -/
def amountStorage : Option Decimal → Except Exn (Option ℤ)
  | none => .ok none
  | some value => do
    let quantized := Decimal.quantize ⟨value.coeff, value.exp + 4⟩
    check (Decimal.digitCount quantized.natAbs ≤ Decimal.precision)
      ⟨.invalidOperation, "quantize result has too many digits for current context"⟩
    let scaled ← toScaledInteger ⟨quantized, -4⟩ 4
    check (-(2 ^ 63) ≤ scaled ∧ scaled ≤ 2 ^ 63 - 1)
      (valueError "TDX amount exceeds SQLite fixed-point range")
    return some scaled

/-- `_optional_scaled(value, 4)`. -/
def optionalScaled : Option Decimal → Except Exn (Option ℤ)
  | none => .ok none
  | some value => some <$> toScaledInteger value 4

/-- `_detail_values(detail)` of the detail of a quote. -/
def TdxQuote.detailRow (quote : TdxQuote) (quoteUid : Uid) : Except Exn TdxQuoteDetailRow := do
  let amount ← amountStorage quote.amount
  let preClose ← optionalScaled quote.preClose
  let openPrice ← optionalScaled quote.openPrice
  let high ← optionalScaled quote.high
  let low ← optionalScaled quote.low
  return ⟨quoteUid, preClose, openPrice, high, low, amount, quote.quoteStatus.text,
    quote.serverTimeRaw⟩

/-- The integers of a detail, as its `INSERT` binds them. -/
def TdxQuoteDetailRow.bindIntegers (row : TdxQuoteDetailRow) : Except Exn Unit := do
  bindInteger row.preCloseScaled
  bindInteger row.openScaled
  bindInteger row.highScaled
  bindInteger row.lowScaled
  bindInteger row.amountScaled
  bindInteger (some row.serverTimeRaw)

/-- `_external_code(instrument)`. -/
def TdxInstrument.externalCode (i : TdxInstrument) : String :=
  toString i.market ++ ":" ++ i.code

/-- The current quotes of a batch by their external codes. -/
def MarketTables.quoteIds (tables : MarketTables) (batchUid : Uid) : List (String × Uid) :=
  (tables.rawMarketRecord.filter fun r => r.batchUid = batchUid).flatMap fun r =>
    (tables.marketQuote.filter fun q =>
      q.batchUid = batchUid ∧ q.recordIndex = r.recordIndex ∧ q.isCurrent).map fun q =>
        (r.externalCode, q.quoteUid)

/-- `quote_ids[code]`, with the last of two rows of one code. -/
def lookupQuoteId (ids : List (String × Uid)) (code : String) : Except Exn Uid :=
  match (ids.filter fun p => p.1 = code).getLast? with
  | some p => .ok p.2
  | none => .error ⟨.keyError, code⟩

/-- `INSERT … ON CONFLICT(quote_uid) DO NOTHING`. -/
def insertDetail (rows : List TdxQuoteDetailRow) (row : TdxQuoteDetailRow) :
    List TdxQuoteDetailRow :=
  if rows.any fun r => r.quoteUid = row.quoteUid then rows else rows ++ [row]

/-- `_store_details(batch_uid, quotes)`. -/
def storeDetails (batchUid : Uid) (quotes : List TdxQuote) : MarketCommand PUnit := do
  let ids := (← get).quoteIds batchUid
  let uids ← fromExcept (quotes.mapM fun q => lookupQuoteId ids q.instrument.externalCode)
  let rows ← fromExcept ((quotes.zip uids).mapM fun p => p.1.detailRow p.2)
  fromExcept (forM rows TdxQuoteDetailRow.bindIntegers)
  modify fun t => { t with tdxQuoteDetail := rows.foldl insertDetail t.tdxQuoteDetail }

/-! ## Polls -/

/-- The record of a quote. -/
def NativeTdxProvider.record (p : NativeTdxProvider) (quote : TdxQuote) : ProviderRecord where
  externalCode := quote.instrument.externalCode
  sourceTime := p.clock.bind fun calendars =>
    ((calendars quote.instrument.market).tdxQuoteTime quote.receivedAt quote.serverTimeRaw).map
      formatRfc3339
  price := quote.price
  volume := quote.volume

/-- The identifier of a batch. -/
def batchIdentifier (observedAt : Instant) (sequence : ℕ) : String :=
  "tdx-" ++ formatRfc3339 observedAt ++ "-" ++ toString sequence

/-- `_ingest_batch(epoch_uid, batch, observed_at, sequence)`. -/
def NativeTdxProvider.ingestBatch (p : NativeTdxProvider) (epochUid : Uid) (observedAt : Instant)
    (quotes : List TdxQuote) (sequence : ℕ) (uids : IngestUids) : MarketCommand ℕ := do
  if quotes = [] then return 0
  else do
    let result ← ingest p.parseRfc3339 epochUid
      ⟨batchIdentifier observedAt sequence, observedAt, quotes.map p.record⟩ uids
    storeDetails result.batchUid quotes
    return result.quotes

/-- The accepted batches of a poll, from a sequence number on. -/
def NativeTdxProvider.ingestBatches (p : NativeTdxProvider) (epochUid : Uid)
    (observedAt : Instant) (uids : ℕ → IngestUids) :
    ℕ → List (List TdxQuote) → MarketCommand ℕ
  | _, [] => return 0
  | sequence, quotes :: batches => do
    let first ← p.ingestBatch epochUid observedAt quotes sequence (uids sequence)
    let rest ← p.ingestBatches epochUid observedAt uids (sequence + 1) batches
    return first + rest

/-- The status of a measured capability. -/
def HealthThresholds.status (t : HealthThresholds) (coveragePpm latencyMs : ℕ) :
    DataHealthStatus × FitnessStatus :=
  if coveragePpm * 2 < t.minimumCoveragePpm ∨ t.maximumLatencyMs * 2 < latencyMs then
    (.unhealthy, .unfit)
  else if coveragePpm < t.minimumCoveragePpm ∨ t.maximumLatencyMs < latencyMs then
    (.degraded, .fitWithLimitations)
  else (.healthy, .fit)

/-- `CapabilityHealthService.record(…)`. -/
def HealthThresholds.record (t : HealthThresholds) (epochUid : Uid) (capability : String)
    (coveragePpm latencyMs : ℕ) (observedAt : Instant) (uid : Uid) :
    MarketCommand DataHealthStatus := do
  require (coveragePpm ≤ 1000000)
    (valueError "health measurements are outside valid range")
  let tables ← get
  require (tables.epoch? epochUid).isSome integrityError
  let status := t.status coveragePpm latencyMs
  insertInto capabilityHealthReportTable integrityError
    ⟨uid, epochUid, capability, status.1, status.2, coveragePpm, latencyMs, observedAt,
      observedAt + t.validForSeconds * microsPerSecond⟩
  return status.1

/-- The coverage of a capability in parts per million. -/
def coverage (completed total : ℕ) : ℕ :=
  if total = 0 then 0 else min completed total * 1000000 / total

/-- `TdxPollResult`. -/
structure TdxPollResult where
  requested : ℕ
  returned : ℕ
  quarantined : ℕ
  healthCapabilities : List (String × DataHealthStatus)
  durationMs : ℕ
  deriving DecidableEq, Repr

/-- What a poll meets : the time, the answers of the gateway, its duration and the
identifiers it draws. -/
structure Poll where
  observedAt : Instant
  gateway : TdxGateway
  durationMs : ℕ
  uids : ℕ → IngestUids
  healthUid : String → Uid

/-- The health of a market's quotes, when the market has a Primary instrument. -/
def NativeTdxProvider.marketHealth (p : NativeTdxProvider) (epochUid : Uid) (poll : Poll)
    (tdxUniverse : TdxUniverse) (quotes : List TdxQuote) (market : ℕ) (capability : String) :
    MarketCommand (List (String × DataHealthStatus)) := do
  let total := tdxUniverse.primary.countP fun i => i.market = market
  let returned := quotes.countP fun q => q.instrument.market = market
  if total = 0 then return []
  else do
    let status ← p.thresholds.record epochUid capability (coverage returned total)
      poll.durationMs poll.observedAt (poll.healthUid capability)
    return [(capability, status)]

/-- `_record_quote_health(…)`. -/
def NativeTdxProvider.recordQuoteHealth (p : NativeTdxProvider) (epochUid : Uid) (poll : Poll)
    (tdxUniverse : TdxUniverse) (quotes : List TdxQuote) :
    MarketCommand (List (String × DataHealthStatus)) := do
  let shanghai ← p.marketHealth epochUid poll tdxUniverse quotes 1 "SH_QUOTES"
  let shenzhen ← p.marketHealth epochUid poll tdxUniverse quotes 0 "SZ_QUOTES"
  let total := tdxUniverse.primary.length
  if total = 0 then return shanghai ++ shenzhen
  else do
    let completed := min (quotes.countP fun q => q.instrument.market = 0) total +
      min (quotes.countP fun q => q.instrument.market = 1) total
    let status ← p.thresholds.record epochUid "QUOTES" (completed * 1000000 / total)
      poll.durationMs poll.observedAt (poll.healthUid "QUOTES")
    return shanghai ++ shenzhen ++ [("QUOTES", status)]

/-- The instruments a poll asks for. -/
def MarketTables.eligible (tables : MarketTables) (epochUid : Uid) (observedAt : Instant)
    (tdxUniverse : TdxUniverse) : List TdxInstrument :=
  tdxUniverse.primary.filter fun i => i.identity ∉ tables.activeQuarantine epochUid observedAt

/-- `NativeTdxProvider.poll_once(epoch_uid, observed_at)`. -/
def NativeTdxProvider.pollOnce (p : NativeTdxProvider) (epochUid : Uid) (poll : Poll) :
    ProviderCommand TdxPollResult := do
  match p.tdxUniverse with
  | none => throw ⟨.runtimeError, "synchronize TDX reference before polling"⟩
  | some tdxUniverse =>
    let eligible := (← get).tables.eligible epochUid poll.observedAt tdxUniverse
    let (accepted, quarantined) ←
      acquireBatches epochUid poll.gateway poll.observedAt (batchesOf eligible 75)
    let returned ← onTables
      (p.ingestBatches epochUid poll.observedAt poll.uids 0 accepted)
    let health ← onTables (p.recordQuoteHealth epochUid poll tdxUniverse accepted.flatten)
    return ⟨tdxUniverse.primary.length, returned, quarantined, health, poll.durationMs⟩

/-! ## Context quotes -/

/-- The values of the context instruments, normalized without a memory. -/
def contextQuotes (gateway : TdxGateway) (observedAt : Instant)
    (instruments : List TdxInstrument) : Except Exn (List TdxQuote) :=
  match requestQuotes gateway instruments with
  | .ok rawQuotes => .ok (instruments.filterMap fun instrument =>
      ((rawQuotes.filter fun q => q.identity = instrument.identity).getLast?).bind fun raw =>
        acceptedQuote (normalizeQuote raw instrument observedAt none))
  | .error e => if e.cls.isRequestFailure then .ok [] else .error e

/-- `_refresh_context_quotes(…)`. -/
def NativeTdxProvider.refreshContextQuotes (p : NativeTdxProvider) (epochUid : Uid) (poll : Poll)
    (instruments : List TdxInstrument) (capability : String) (sequence : ℕ) :
    MarketCommand Unit := do
  if instruments = [] then return ()
  else do
    let quotes ← fromExcept (contextQuotes poll.gateway poll.observedAt instruments)
    let _ ← p.ingestBatch epochUid poll.observedAt quotes sequence (poll.uids sequence)
    let _ ← p.thresholds.record epochUid capability (coverage quotes.length instruments.length) 0
      poll.observedAt (poll.healthUid capability)

/-- The quotes of `refresh_supporting_data(epoch_uid, observed_at)`, before it goes on with
the bars, the blocks and the sectors. -/
def NativeTdxProvider.refreshSupportingQuotes (p : NativeTdxProvider) (epochUid : Uid)
    (poll : Poll) : MarketCommand Unit :=
  match p.tdxUniverse with
  | none => throw ⟨.runtimeError, "synchronize TDX reference before refreshing supporting data"⟩
  | some tdxUniverse => do
    p.refreshContextQuotes epochUid poll tdxUniverse.contextIndexes "INDEX_QUOTES" 100
    p.refreshContextQuotes epochUid poll tdxUniverse.contextEtfs "ETF_QUOTES" 101

/-! ## One instrument -/

/-- One instrument of Shanghai. -/
def oneInstrument : TdxInstrument := ⟨1, "600000", .stock, by decide⟩

/-- The tables with the mapping of the instrument. -/
def oneMappingTables : MarketTables :=
  { MarketTables.empty with
    marketSourceEpoch := [⟨"epoch", "NATIVE_TDX", "tdx-v1", 0, none, true, false⟩]
    instrument := [⟨"instrument", .stock⟩]
    providerMapping := [⟨"mapping", "NATIVE_TDX", "1:600000", .instrument "instrument", 0, none⟩] }

end MarketMonitor
