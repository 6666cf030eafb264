import QuantEmbrace.PositionLedger
import QuantEmbrace.PositionAccounting
import QuantEmbrace.RiskLedger
import QuantEmbrace.OrderTransition
import QuantEmbrace.StatusWriters
import QuantEmbrace.Lib.Optimistic
import QuantEmbrace.PositionWrites
import QuantEmbrace.BulkPoller
import QuantEmbrace.Placement
import QuantEmbrace.SignalDelivery
import QuantEmbrace.KillSwitchGate
import QuantEmbrace.OneOrderPerSignal
import QuantEmbrace.KillSwitchCancel
import QuantEmbrace.OneFillPerSignal
import QuantEmbrace.RecordFill
import QuantEmbrace.TerminalSnapshot
import QuantEmbrace.AckUnknown
import QuantEmbrace.FillDiscovery
import QuantEmbrace.Lib.InFlight
import QuantEmbrace.NavSnapshot
import QuantEmbrace.PaperIsolation
import QuantEmbrace.PaperOrder
import QuantEmbrace.ProtectiveStop
import QuantEmbrace.StartupCredits
import QuantEmbrace.StrandedPending
import QuantEmbrace.AttachedStop
import QuantEmbrace.AutomaticExits
import QuantEmbrace.BrokerPositions
import QuantEmbrace.ConcurrentRecord
import QuantEmbrace.Lib.KeyedTable
import QuantEmbrace.Lib.Paging
import QuantEmbrace.OrphanScan
import QuantEmbrace.PositionDrift
import QuantEmbrace.SafetyScans
import QuantEmbrace.SquareOffEscalation
import QuantEmbrace.CancelPass
import QuantEmbrace.EndpointCaps
import QuantEmbrace.Lib.StableSort
import QuantEmbrace.OrderCaps
import QuantEmbrace.TokenReserve
import QuantEmbrace.WaiterOrder
import QuantEmbrace.ApprovalHalt
import QuantEmbrace.CommittedOffsets
import QuantEmbrace.EnrichmentWatchdog
import QuantEmbrace.FailurePublisher
import QuantEmbrace.FillAccounting
import QuantEmbrace.FilteredSignals
import QuantEmbrace.PositionLimit
import QuantEmbrace.RetryBound
import QuantEmbrace.RiskDataFailure
import QuantEmbrace.SectorSnapshot
import QuantEmbrace.StrategyPnl
import QuantEmbrace.CandleConsumer
import QuantEmbrace.CandleStream
import QuantEmbrace.Lib.Periods
import QuantEmbrace.Lib.PythonValue
import QuantEmbrace.RetryPoll
import QuantEmbrace.SafeActionRuns
import QuantEmbrace.SquareOffSchedule
import QuantEmbrace.CandleStrategies
import QuantEmbrace.DailySessions
import QuantEmbrace.EntryBlock
import QuantEmbrace.OpeningRange
import QuantEmbrace.WarmRestart
import QuantEmbrace.BacktestEquity
import QuantEmbrace.BacktestLedger
import QuantEmbrace.BacktestPrefix
import QuantEmbrace.EmissionGate
import QuantEmbrace.Lib.Double
import QuantEmbrace.Lib.IsoFormat
import QuantEmbrace.ProtectiveLevels
import QuantEmbrace.SignalEvents
import QuantEmbrace.SignalRoutes
import QuantEmbrace.StrategyConfigTable
import QuantEmbrace.TickOrder
import QuantEmbrace.TickOutbox
import QuantEmbrace.AiPassOn
import QuantEmbrace.ApprovalExpiry
import QuantEmbrace.FillEvents
import QuantEmbrace.Lib.ConfigValue
import QuantEmbrace.Lib.DynamoItem
import QuantEmbrace.Lib.Ratchet
import QuantEmbrace.LiveGateApproval
import QuantEmbrace.LiveUniverse
import QuantEmbrace.LiveUniverseSafety
import QuantEmbrace.LocalOutbox
import QuantEmbrace.NavView
import QuantEmbrace.OrderRecord
import QuantEmbrace.OrderRecovery
import QuantEmbrace.OutboxHalt
import QuantEmbrace.TrailingStop
import QuantEmbrace.BreakerHistory
import QuantEmbrace.CandleReplay
import QuantEmbrace.CandleSchedule
import QuantEmbrace.CrossStability
import QuantEmbrace.ExitPolicy
import QuantEmbrace.SafeActionAudit
import QuantEmbrace.SignedLimits
import QuantEmbrace.SizedSignals
import QuantEmbrace.PreCloseBias
import QuantEmbrace.FeatureAgreement
import QuantEmbrace.FeatureRanges
import QuantEmbrace.LatestPrices
import QuantEmbrace.Lib.Grouping
import QuantEmbrace.LiveQuotes
import QuantEmbrace.QualityScorer
import QuantEmbrace.TickArchive
import QuantEmbrace.UniverseDecisions
import QuantEmbrace.BacktestFigures
import QuantEmbrace.OrderEvents
import QuantEmbrace.ExecutionHalt
import QuantEmbrace.AutoTriggers
import QuantEmbrace.IncidentLog
import QuantEmbrace.MonitoringFindings
import QuantEmbrace.MonitoringActions
import QuantEmbrace.HaltFlags
import QuantEmbrace.TokenRefresh
import QuantEmbrace.LagMonitor
import QuantEmbrace.Lib.LastChange
import QuantEmbrace.FeatureStore
import QuantEmbrace.Lib.Countdown
import QuantEmbrace.FeedGap
import QuantEmbrace.Lib.Timetable
import QuantEmbrace.PhaseGovernor
