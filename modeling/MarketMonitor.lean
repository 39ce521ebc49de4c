import MarketMonitor.Library.Json
import MarketMonitor.Library.JsonText
import MarketMonitor.Library.Sha256
import MarketMonitor.Library.Keyed
import MarketMonitor.Library.Transaction
import MarketMonitor.Library.Decimal
import MarketMonitor.Persistence.Values
import MarketMonitor.Persistence.Schema
import MarketMonitor.Analysis.Thresholds
import MarketMonitor.Analysis.Guardian
import MarketMonitor.Analysis.MetricInput
import MarketMonitor.Persistence.Artifacts
import MarketMonitor.Analysis.MetricEvidence
import MarketMonitor.Persistence.Tables
import MarketMonitor.Analysis.AnalysisCommit
import MarketMonitor.Analysis.CommitSpec
import MarketMonitor.Analysis.Lifecycle
import MarketMonitor.Analysis.EventLedger
import MarketMonitor.Analysis.StaleCommit
import MarketMonitor.Persistence.RecoverySpec
import MarketMonitor.Analysis.MarketMetrics
import MarketMonitor.Analysis.MetricGuardian
import MarketMonitor.Analysis.EvidenceSpec
import MarketMonitor.Analysis.InapplicableMetrics
import MarketMonitor.Analysis.MetricRecording
import MarketMonitor.Analysis.ThresholdAudit
import MarketMonitor.Analysis.ActivationHistory
import MarketMonitor.Notifications.CompletedSend
import MarketMonitor.MarketData.BlockHistory
import MarketMonitor.Persistence.Instants
import MarketMonitor.MarketData.TradingClock
import MarketMonitor.MarketData.Quotes
import MarketMonitor.MarketData.Ingestion
import MarketMonitor.MarketData.Provider
import MarketMonitor.MarketData.CumulativeCounters
import MarketMonitor.MarketData.QuoteStore
import MarketMonitor.MarketData.QuoteDetails
import MarketMonitor.MarketData.PollHistory
import MarketMonitor.Analysis.WorkerTicks
import MarketMonitor.Analysis.Orchestrator
import MarketMonitor.Analysis.OfficialGate
import MarketMonitor.Analysis.SessionClose
import MarketMonitor.Analysis.CommittedCycles
import MarketMonitor.Api.EventLookup
import MarketMonitor.MarketData.Acquisition
import MarketMonitor.MarketData.BatchIdentities
import MarketMonitor.Persistence.Retention
import MarketMonitor.Persistence.RetentionSpec
import MarketMonitor.Analysis.GuardianOrder
import MarketMonitor.Analysis.GuardianService
import MarketMonitor.Analysis.GuardianPaths
import MarketMonitor.MarketData.LegalMinutes
import MarketMonitor.MarketData.TradingPhase
import MarketMonitor.Library.Rounding
import MarketMonitor.Analysis.QualityGates
import MarketMonitor.Analysis.MinuteTails
import MarketMonitor.Library.LocationStatistics
import MarketMonitor.Analysis.RobustReturn
import MarketMonitor.Api.LoginThrottle
import MarketMonitor.MarketData.QuoteTime
import MarketMonitor.Persistence.InstantOrder
import MarketMonitor.Api.QueryRate
import MarketMonitor.MarketData.Directory
import MarketMonitor.MarketData.BlockLayout
import MarketMonitor.MarketData.Bisection
import MarketMonitor.MarketData.FixedPoint
import MarketMonitor.Library.Reader
import MarketMonitor.MarketData.WireNumbers
import MarketMonitor.MarketData.QuoteResponse
import MarketMonitor.MarketData.BarResponse
import MarketMonitor.MarketData.NumberReader
import MarketMonitor.Api.NotificationSettings
import MarketMonitor.MarketData.Reference
import MarketMonitor.MarketData.ServerPool
import MarketMonitor.Persistence.BarRetention
import MarketMonitor.Persistence.BarRetentionSpec
import MarketMonitor.MarketData.MappingReaders
import MarketMonitor.MarketData.ListingEvidence
import MarketMonitor.Analysis.ProducerTotality
import MarketMonitor.Library.Base64
import MarketMonitor.Library.JsonAscii
import MarketMonitor.Library.Keyset
import MarketMonitor.Library.Course
import MarketMonitor.Api.Cursors
import MarketMonitor.Api.Pagination
import MarketMonitor.Api.PaginationSpec
import MarketMonitor.Api.EventListing
import MarketMonitor.Persistence.SectorSchema
import MarketMonitor.MarketData.Sectors
import MarketMonitor.MarketData.SectorGroups
import MarketMonitor.MarketData.SectorFreezes
import MarketMonitor.MarketData.SectorMemberships
