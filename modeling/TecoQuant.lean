import TecoQuant.AnalyticsCausality
import TecoQuant.AnalyticsIndicators
import TecoQuant.AnalyticsOverlap
import TecoQuant.AnalyticsResampling
import TecoQuant.AnalyticsValues
import TecoQuant.AnalyticsZones
import TecoQuant.ApiActionability
import TecoQuant.ApiConvergence
import TecoQuant.ApiFeedSources
import TecoQuant.ApiFeedTicks
import TecoQuant.ApiReadModel
import TecoQuant.ApiReadStatus
import TecoQuant.ApiUpdates
import TecoQuant.AutomationService
import TecoQuant.BacktestAccounts
import TecoQuant.BacktestBreakdowns
import TecoQuant.BacktestCalendar
import TecoQuant.BacktestConservation
import TecoQuant.BacktestDepth
import TecoQuant.BacktestEngine
import TecoQuant.BacktestIsolation
import TecoQuant.BacktestLookahead
import TecoQuant.BacktestMetrics
import TecoQuant.BacktestModels
import TecoQuant.BacktestPnl
import TecoQuant.BacktestRisk
import TecoQuant.BacktestRuns
import TecoQuant.BacktestSettlement
import TecoQuant.BacktestSteps
import TecoQuant.BacktestTallies
import TecoQuant.BaseAverages
import TecoQuant.BaseBinary64
import TecoQuant.BaseBinary64Rounding
import TecoQuant.BaseBinary64Shortest
import TecoQuant.BaseBisection
import TecoQuant.BaseDatetime
import TecoQuant.BaseDatetimeOrder
import TecoQuant.BaseDatetimeText
import TecoQuant.BaseDecimal
import TecoQuant.BaseDecimalContext
import TecoQuant.BaseDecimalError
import TecoQuant.BaseDecimalMonotone
import TecoQuant.BaseDecimalNormalize
import TecoQuant.BaseDecimalOrder
import TecoQuant.BaseDecimalQuantize
import TecoQuant.BaseDecimalQuotient
import TecoQuant.BaseDecimalRounding
import TecoQuant.BaseDecimalSignals
import TecoQuant.BaseDecimalText
import TecoQuant.BaseDecimalValue
import TecoQuant.BaseDict
import TecoQuant.BaseDistinct
import TecoQuant.BaseExcept
import TecoQuant.BaseGrouping
import TecoQuant.BaseJson
import TecoQuant.BaseJsonParse
import TecoQuant.BaseProgram
import TecoQuant.BaseRaises
import TecoQuant.BaseRegister
import TecoQuant.BaseRoundRobin
import TecoQuant.BaseRun
import TecoQuant.BaseRunningMax
import TecoQuant.BaseSaturation
import TecoQuant.BaseSession
import TecoQuant.BaseSha256
import TecoQuant.BaseStableOrder
import TecoQuant.BaseStruct
import TecoQuant.BaseSweep
import TecoQuant.BaseText
import TecoQuant.BaseTiling
import TecoQuant.BrokersFeedFormat
import TecoQuant.BrokersFeedLoop
import TecoQuant.BrokersFeedPacket
import TecoQuant.BrokersFeedReadiness
import TecoQuant.BrokersFeedReplacement
import TecoQuant.BrokersFeedSubscription
import TecoQuant.BrokersFeedSupervisor
import TecoQuant.DomainModels
import TecoQuant.DomainSnapshot
import TecoQuant.ExecutionAccounts
import TecoQuant.ExecutionApproval
import TecoQuant.ExecutionConcurrency
import TecoQuant.ExecutionConsistency
import TecoQuant.ExecutionController
import TecoQuant.ExecutionExposure
import TecoQuant.ExecutionFidelity
import TecoQuant.ExecutionGates
import TecoQuant.ExecutionHalt
import TecoQuant.ExecutionKillSwitch
import TecoQuant.ExecutionLedger
import TecoQuant.ExecutionLiveRecord
import TecoQuant.ExecutionModels
import TecoQuant.ExecutionPaper
import TecoQuant.ExecutionPlanText
import TecoQuant.ExecutionProtocol
import TecoQuant.ExecutionReport
import TecoQuant.ExecutionSlippage
import TecoQuant.ExecutionStreak
import TecoQuant.ExecutionTimestamps
import TecoQuant.ExecutionTransactions
import TecoQuant.FrontendGate
import TecoQuant.FrontendMarketLoop
import TecoQuant.FrontendRisk
import TecoQuant.IngestionCatalog
import TecoQuant.IngestionContinuity
import TecoQuant.IngestionFiveStrikes
import TecoQuant.IngestionFocus
import TecoQuant.IngestionIntraday
import TecoQuant.IngestionReport
import TecoQuant.IngestionRules
import TecoQuant.IngestionUniverse
import TecoQuant.IngestionValidation
import TecoQuant.IngestionWorker
import TecoQuant.PersistenceAudit
import TecoQuant.PersistenceCalls
import TecoQuant.PersistenceIngestion
import TecoQuant.PersistencePublications
import TecoQuant.PersistenceReadBack
import TecoQuant.PersistenceRepository
import TecoQuant.PersistenceSchema
import TecoQuant.PersistenceStreams
import TecoQuant.RuntimeContracts
import TecoQuant.RuntimeFeedLifecycle
import TecoQuant.RuntimeFeedShutdown
import TecoQuant.SignalAdapters
import TecoQuant.SignalEvaluation
import TecoQuant.SignalExecution
import TecoQuant.SignalGates
import TecoQuant.SignalGeometry
import TecoQuant.SignalMirror
import TecoQuant.SignalPipeline
import TecoQuant.SignalRanking
import TecoQuant.SignalService
import TecoQuant.SignalSides
import TecoQuant.StrategyDecision
import TecoQuant.StrategyLiquidity
import TecoQuant.StrategySizing
import TecoQuant.StrategySpec
import TecoQuant.StrategyStrikes
import TecoQuant.AnalyticsRanges
import TecoQuant.AnalyticsComposition
import TecoQuant.BaseBinary64Relative
import TecoQuant.BacktestReplays
