import CryptoTrading.Lib.UnorderedMap
import CryptoTrading.Lib.KeyedTable
import CryptoTrading.Lib.Runs
import CryptoTrading.Lib.DecimalText
import CryptoTrading.Lib.Cumulative
import CryptoTrading.Lib.BoundedFifo
import CryptoTrading.Lib.Histories
import CryptoTrading.Lib.Reflected
import CryptoTrading.Lib.SharedVariable
import CryptoTrading.Lib.SelfDelimiting
import CryptoTrading.Lib.TextSearch
import CryptoTrading.Lib.JsonLiteral
import CryptoTrading.Lib.Json
import CryptoTrading.Lib.BitGroups
import CryptoTrading.Lib.Base64Text
import CryptoTrading.Lib.Spans
import CryptoTrading.Lib.DecimalOrder
import CryptoTrading.Lib.Calendar
import CryptoTrading.Lib.IsoTime
import CryptoTrading.Sdk.Utils
import CryptoTrading.Sdk.Defs
import CryptoTrading.Sdk.RingShm
import CryptoTrading.Sdk.RingFifo
import CryptoTrading.TradingEngine.PositionManager
import CryptoTrading.Clients.OkxAccount
import CryptoTrading.Clients.OkxOrder
import CryptoTrading.TradingEngine.PositionSpec
import CryptoTrading.TradingEngine.OrderHistory
import CryptoTrading.TradingEngine.FillCost
import CryptoTrading.TradingEngine.Engine
import CryptoTrading.TradingEngine.EngineSpec
import CryptoTrading.TradingEngine.AccountSync
import CryptoTrading.TradingEngine.Recovery
import CryptoTrading.TradingEngine.FrozenResidue
import CryptoTrading.TradingEngine.OrderFlow
import CryptoTrading.TradingEngine.Refusal
import CryptoTrading.TradingEngine.FillMeasure
import CryptoTrading.TradingEngine.BalanceSync
import CryptoTrading.TradingEngine.SwapSync
import CryptoTrading.TradingEngine.Conservation
import CryptoTrading.TradingEngine.Restart
import CryptoTrading.TradingEngine.SwapFills
import CryptoTrading.TradingEngine.HedgedFills
import CryptoTrading.TradingEngine.NetFills
import CryptoTrading.TradingEngine.OneAmount
import CryptoTrading.TradingEngine.Reconcile
import CryptoTrading.TradingEngine.ReconcileOutcome
import CryptoTrading.TradingEngine.ReservationFate
import CryptoTrading.TradingEngine.OrderStep
import CryptoTrading.TradingEngine.Ledger
import CryptoTrading.TradingEngine.FillAccount
import CryptoTrading.TradingEngine.Threads
import CryptoTrading.TradingEngine.ThreadsSpec
import CryptoTrading.TradingEngine.Undisturbed
import CryptoTrading.TradingEngine.ReconcileFrame
import CryptoTrading.TradingEngine.FillsOnce
import CryptoTrading.TradingEngine.Heard
import CryptoTrading.TradingEngine.NewStages
import CryptoTrading.TradingEngine.NewOnce
import CryptoTrading.TradingEngine.ReportRing
import CryptoTrading.Lib.MutualExclusion
import CryptoTrading.Lib.Polling
import CryptoTrading.Lib.Paging
import CryptoTrading.Lib.Correlation
import CryptoTrading.Lib.OnDemand
import CryptoTrading.Lib.QuotedText
import CryptoTrading.Sdk.MarketData
import CryptoTrading.Common.WebSocket
import CryptoTrading.Common.WsFrames
import CryptoTrading.Common.WsMessages
import CryptoTrading.Common.WsSend
import CryptoTrading.Common.Https
import CryptoTrading.Common.Chunks
import CryptoTrading.Common.HeaderScan
import CryptoTrading.Clients.OkxQueries
import CryptoTrading.Clients.OkxOps
import CryptoTrading.Clients.OkxMessages
import CryptoTrading.Common.Base64
import CryptoTrading.Clients.OkxLogin
import CryptoTrading.Clients.OkxInstruments
import CryptoTrading.Clients.OkxPrivate
import CryptoTrading.Clients.OkxPublic
import CryptoTrading.Clients.QuotationThread
import CryptoTrading.TradingEngine.FullRing
import CryptoTrading.TradingEngine.UnseenFills
import CryptoTrading.TradingEngine.FeesOnce
import CryptoTrading.TradingEngine.OtherEndings
import CryptoTrading.TradingEngine.CancelledTwice
import CryptoTrading.TradingEngine.NamedReports
import CryptoTrading.Clients.MarketFields
import CryptoTrading.Sdk.FormatInt64
import CryptoTrading.Clients.DepthLevels
import CryptoTrading.Clients.OkxTimestamp
import CryptoTrading.Clients.PrivateSession
import CryptoTrading.Clients.PrivateSessionSpec
import CryptoTrading.TradingEngine.NoOverdraft
import CryptoTrading.StrategyEngine.StrategyLoop
import CryptoTrading.StrategyEngine.Delivery
import CryptoTrading.Clients.OkxRequests
import CryptoTrading.TradingEngine.OrderWire
import CryptoTrading.TradingEngine.ReconcileTwice
import CryptoTrading.Common.CutResponse
import CryptoTrading.Common.CutStream
import CryptoTrading.Clients.MessageSource
import CryptoTrading.StrategyEngine.MarketFeed
import CryptoTrading.Lib.MessageHead
import CryptoTrading.Lib.HttpRequest
import CryptoTrading.Clients.SignedRequests
import CryptoTrading.Lib.SnapshotStream
import CryptoTrading.TradingEngine.StartUp
import CryptoTrading.TradingEngine.StartUpSpec
import CryptoTrading.TradingEngine.StartUpOutcome
import CryptoTrading.Common.SentStream
import CryptoTrading.Clients.PublicSession
import CryptoTrading.Clients.PublicSessionSpec
import CryptoTrading.Clients.PublicThread
import CryptoTrading.QuotationEngine.Subscriptions
