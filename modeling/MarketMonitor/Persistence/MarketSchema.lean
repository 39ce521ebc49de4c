import MarketMonitor.Library.Transaction
import MarketMonitor.MarketData.Blocks
import MarketMonitor.Persistence.Schema

/-!
# The schema of the market data

The tables the acquisition of market data reads and writes, and their keys. As for the
other tables, the columns nothing here reads are left out.
-/

namespace MarketMonitor

open Transaction

/-! ## Sources and reference data -/

/-- `market_source_epoch` -/
structure MarketSourceEpoch where
  epochUid : Uid
  providerKey : String
  capabilityFingerprint : String
  startedAt : Instant
  endedAt : Option Instant
  active : Bool
  rewarmRequired : Bool
  deriving DecidableEq, Repr

inductive InstrumentKind where
  | stock | etf | index
  deriving DecidableEq, Repr

/-- `instrument` -/
structure Instrument where
  instrumentUid : Uid
  instrumentKind : InstrumentKind
  deriving DecidableEq, Repr

/-- `instrument_identity_version` -/
structure InstrumentIdentityVersion where
  instrumentUid : Uid
  version : ℕ
  exchange : String
  tradingCode : String
  name : String
  listingStatus : String
  tradingStatus : String
  listingEffectiveAt : Option Instant
  listingEvidenceSha256 : Option String
  listingSourceRef : Option String
  validFrom : Instant
  deriving DecidableEq, Repr

/-- What a provider's code stands for : the columns `mapping_status`, `instrument_uid` and
`sector_uid`, which a `CHECK` ties together. -/
inductive MappingTarget where
  | conflict
  | instrument (instrumentUid : Uid)
  | sector (sectorUid : Uid)
  deriving DecidableEq, Repr

/-- `provider_mapping` -/
structure ProviderMapping where
  mappingUid : Uid
  providerKey : String
  externalCode : String
  target : MappingTarget
  validFrom : Instant
  validUntil : Option Instant
  deriving DecidableEq, Repr

/-! ## Quotes -/

inductive BatchStatus where
  | received | normalized | quarantined
  deriving DecidableEq, Repr

/-- `market_data_batch` -/
structure MarketDataBatch where
  batchUid : Uid
  epochUid : Uid
  providerBatchId : String
  receivedAt : Instant
  status : BatchStatus
  deriving DecidableEq, Repr

inductive MappingStatus where
  | resolved | conflict | unmapped
  deriving DecidableEq, Repr

/-- `raw_market_record` -/
structure RawMarketRecord where
  batchUid : Uid
  recordIndex : ℕ
  externalCode : String
  rawSourceTime : Option String
  mappingStatus : MappingStatus
  deriving DecidableEq, Repr

/-- `quote_lineage` -/
structure QuoteLineage where
  lineageUid : Uid
  epochUid : Uid
  instrumentUid : Uid
  sourceTime : String
  businessKeySha256 : String
  deriving DecidableEq, Repr

inductive FieldValueStatus where
  | value | missing | invalid
  deriving DecidableEq, Repr

/-- `market_quote` -/
structure MarketQuote where
  quoteUid : Uid
  lineageUid : Uid
  recordVersion : ℕ
  batchUid : Uid
  recordIndex : ℕ
  receivedAt : Instant
  sourceTimeRaw : Option String
  sourceTime : Option Instant
  priceScaled : Option ℤ
  priceStatus : FieldValueStatus
  volume : Option ℤ
  volumeStatus : FieldValueStatus
  isCurrent : Bool
  deriving DecidableEq, Repr

/-- `quote_quality_issue` -/
structure QuoteQualityIssue where
  quoteUid : Uid
  issueCode : String
  detail : String
  deriving DecidableEq, Repr

/-- `tdx_quote_detail`, whose scales are constants. -/
structure TdxQuoteDetailRow where
  quoteUid : Uid
  preCloseScaled : Option ℤ
  openScaled : Option ℤ
  highScaled : Option ℤ
  lowScaled : Option ℤ
  amountScaled : Option ℤ
  quoteStatus : String
  serverTimeRaw : ℤ
  deriving DecidableEq, Repr

/-- `tdx_symbol_quarantine` -/
structure TdxSymbolQuarantine where
  epochUid : Uid
  market : ℕ
  externalCode : String
  failureReason : String
  failureCount : ℕ
  lastFailureAt : Instant
  retryAfter : Instant
  deriving DecidableEq, Repr

/-! ## Blocks -/

/-- `tdx_block_artifact_version` -/
structure TdxBlockArtifactVersion where
  blockVersionUid : Uid
  epochUid : Uid
  filename : String
  version : ℕ
  sourceServer : String
  byteLength : ℕ
  serverHash : Option String
  artifactSha256 : String
  fetchedAt : Instant
  parserVersion : String
  deriving DecidableEq, Repr

/-- `tdx_block_membership` -/
structure TdxBlockMembershipRow where
  blockVersionUid : Uid
  membership : TdxBlockMembership
  deriving DecidableEq, Repr

/-! ## Health -/

/-- `capability_health_report` -/
structure CapabilityHealthReport where
  reportUid : Uid
  epochUid : Uid
  capability : String
  healthStatus : DataHealthStatus
  fitnessStatus : FitnessStatus
  coveragePpm : ℕ
  latencyMs : ℕ
  observedAt : Instant
  validUntil : Instant
  deriving DecidableEq, Repr

/-- `capability_watermark` -/
structure CapabilityWatermark where
  epochUid : Uid
  capability : String
  eventTime : Option Instant
  receivedTime : Instant
  version : ℕ
  rewarmRequired : Bool
  deriving DecidableEq, Repr

/-! ## The tables -/

/-- The market data of a database. -/
structure MarketTables where
  marketSourceEpoch : List MarketSourceEpoch
  instrument : List Instrument
  instrumentIdentityVersion : List InstrumentIdentityVersion
  providerMapping : List ProviderMapping
  marketDataBatch : List MarketDataBatch
  rawMarketRecord : List RawMarketRecord
  quoteLineage : List QuoteLineage
  marketQuote : List MarketQuote
  quoteQualityIssue : List QuoteQualityIssue
  tdxQuoteDetail : List TdxQuoteDetailRow
  tdxSymbolQuarantine : List TdxSymbolQuarantine
  tdxBlockArtifactVersion : List TdxBlockArtifactVersion
  tdxBlockMembership : List TdxBlockMembershipRow
  capabilityHealthReport : List CapabilityHealthReport
  capabilityWatermark : List CapabilityWatermark
  deriving Repr

/-- The tables the migrations create. -/
def MarketTables.empty : MarketTables :=
  ⟨[], [], [], [], [], [], [], [], [], [], [], [], [], [], []⟩

/-- A command on the market data. -/
abbrev MarketCommand (α : Type) := EStateM Exn MarketTables α

/-! ## Keys -/

def instrumentTable : Table MarketTables Instrument where
  rows := MarketTables.instrument
  put rows t := { t with instrument := rows }
  clash a b := a.instrumentUid = b.instrumentUid
  rows_put _ _ := rfl
  put_rows _ := rfl
  put_put _ _ _ := rfl

def instrumentIdentityVersionTable : Table MarketTables InstrumentIdentityVersion where
  rows := MarketTables.instrumentIdentityVersion
  put rows t := { t with instrumentIdentityVersion := rows }
  clash a b := (a.instrumentUid = b.instrumentUid ∧ a.version = b.version) ∨
    (a.exchange = b.exchange ∧ a.tradingCode = b.tradingCode ∧ a.validFrom = b.validFrom)
  rows_put _ _ := rfl
  put_rows _ := rfl
  put_put _ _ _ := rfl

def providerMappingTable : Table MarketTables ProviderMapping where
  rows := MarketTables.providerMapping
  put rows t := { t with providerMapping := rows }
  clash a b := a.mappingUid = b.mappingUid ∨
    (a.providerKey = b.providerKey ∧ a.externalCode = b.externalCode ∧ a.validFrom = b.validFrom)
  rows_put _ _ := rfl
  put_rows _ := rfl
  put_put _ _ _ := rfl

def marketDataBatchTable : Table MarketTables MarketDataBatch where
  rows := MarketTables.marketDataBatch
  put rows t := { t with marketDataBatch := rows }
  clash a b := a.batchUid = b.batchUid ∨
    (a.epochUid = b.epochUid ∧ a.providerBatchId = b.providerBatchId)
  rows_put _ _ := rfl
  put_rows _ := rfl
  put_put _ _ _ := rfl

def rawMarketRecordTable : Table MarketTables RawMarketRecord where
  rows := MarketTables.rawMarketRecord
  put rows t := { t with rawMarketRecord := rows }
  clash a b := a.batchUid = b.batchUid ∧ a.recordIndex = b.recordIndex
  rows_put _ _ := rfl
  put_rows _ := rfl
  put_put _ _ _ := rfl

def quoteLineageTable : Table MarketTables QuoteLineage where
  rows := MarketTables.quoteLineage
  put rows t := { t with quoteLineage := rows }
  clash a b := a.lineageUid = b.lineageUid ∨ a.businessKeySha256 = b.businessKeySha256 ∨
    (a.epochUid = b.epochUid ∧ a.instrumentUid = b.instrumentUid ∧ a.sourceTime = b.sourceTime)
  rows_put _ _ := rfl
  put_rows _ := rfl
  put_put _ _ _ := rfl

def marketQuoteTable : Table MarketTables MarketQuote where
  rows := MarketTables.marketQuote
  put rows t := { t with marketQuote := rows }
  clash a b := a.quoteUid = b.quoteUid ∨ (a.lineageUid = b.lineageUid ∧
    (a.recordVersion = b.recordVersion ∨ (a.isCurrent ∧ b.isCurrent)))
  rows_put _ _ := rfl
  put_rows _ := rfl
  put_put _ _ _ := rfl

def quoteQualityIssueTable : Table MarketTables QuoteQualityIssue where
  rows := MarketTables.quoteQualityIssue
  put rows t := { t with quoteQualityIssue := rows }
  clash a b := a.quoteUid = b.quoteUid ∧ a.issueCode = b.issueCode
  rows_put _ _ := rfl
  put_rows _ := rfl
  put_put _ _ _ := rfl

def capabilityHealthReportTable : Table MarketTables CapabilityHealthReport where
  rows := MarketTables.capabilityHealthReport
  put rows t := { t with capabilityHealthReport := rows }
  clash a b := a.reportUid = b.reportUid
  rows_put _ _ := rfl
  put_rows _ := rfl
  put_put _ _ _ := rfl

def tdxBlockArtifactVersionTable : Table MarketTables TdxBlockArtifactVersion where
  rows := MarketTables.tdxBlockArtifactVersion
  put rows t := { t with tdxBlockArtifactVersion := rows }
  clash a b := a.blockVersionUid = b.blockVersionUid ∨
    (a.filename = b.filename ∧ (a.version = b.version ∨ a.artifactSha256 = b.artifactSha256))
  rows_put _ _ := rfl
  put_rows _ := rfl
  put_put _ _ _ := rfl

def tdxBlockMembershipTable : Table MarketTables TdxBlockMembershipRow where
  rows := MarketTables.tdxBlockMembership
  put rows t := { t with tdxBlockMembership := rows }
  clash a b := a.blockVersionUid = b.blockVersionUid ∧ a.membership.key = b.membership.key
  rows_put _ _ := rfl
  put_rows _ := rfl
  put_put _ _ _ := rfl

end MarketMonitor
