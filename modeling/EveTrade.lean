import EveTrade.SettlementEffects
import EveTrade.SettlementOperationSpecs
import EveTrade.SettlementConservation
import EveTrade.SettlementAuthorization
import EveTrade.SettlementExecutor
import EveTrade.SettlementOutcome
import EveTrade.SettlementTotals
import EveTrade.SettlementRecords
import EveTrade.SettlementInterleaving
import EveTrade.SettlementIdempotency
import EveTrade.SettlementFailureAudit
import EveTrade.SettlementWork
import EveTrade.SettlementDelivery
import EveTrade.SettlementAgreement
import EveTrade.SettlementAuthorizationSpecs
import EveTrade.TradeBook
import EveTrade.TradeFrames
import EveTrade.TradeCalls
import EveTrade.TradeAccounting
import EveTrade.GameTrade
import EveTrade.MarketRepository
import EveTrade.MarketHandler
import EveTrade.MarketPlanning
import EveTrade.MarketGui
import EveTrade.GatewayPackets
import EveTrade.GatewayIdentity
import EveTrade.MarketResubmission
import EveTrade.SettlementRetry
import EveTrade.SettlementLifecycle
import EveTrade.SettlementEndings
import EveTrade.SettlementResubmission
import EveTrade.SettlementAcknowledgement
import EveTrade.TradeLabels
import EveTrade.LedgerChain
import EveTrade.TransactionLogic
import EveTrade.SettlementLedgers
import EveTrade.SettlementTriggers
import EveTrade.SettlementLedgerIntegrity
import EveTrade.SettlementAudit
import EveTrade.GatewayReplay
import EveTrade.GatewayRateLimit
import EveTrade.GatewayResponses
import EveTrade.GatewayWorkers
import EveTrade.EnvelopeSigning
import EveTrade.SimulatorClient
import EveTrade.IdempotencyKeys
import EveTrade.PriceChecks
import EveTrade.MarketFingerprints
import EveTrade.MarketConflicts
import EveTrade.SettlementTradeLocks
import EveTrade.SettlementLocking
import EveTrade.PlanRefinement
import EveTrade.SettlementFaults
import EveTrade.LockSchedules
import EveTrade.SettlementCommit
import EveTrade.SettlementRowLocks
import EveTrade.SettlementDeadlocks
import EveTrade.LinkedTable
import EveTrade.MarketInitialization
import EveTrade.GatewayTables
import EveTrade.DeterministicIds
import EveTrade.GatewayListener
import EveTrade.PythonValues
import EveTrade.Redaction
import EveTrade.RedactionRules
import EveTrade.RedactionContext
import EveTrade.RedactionShapes
import EveTrade.RunProvenance
import EveTrade.RunIndex
import EveTrade.RunFreshness
import EveTrade.CiAggregate
import EveTrade.CiPipeline
