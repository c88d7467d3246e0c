import LuvFlicker.Lob.Replace
import LuvFlicker.Execution.PositionLimit
import LuvFlicker.Execution.Terminal
import LuvFlicker.Execution.WalRefinement
import LuvFlicker.Safety.ReconciliationMap
import LuvFlicker.Engine.OrderIds
import LuvFlicker.Execution.Overflow
import LuvFlicker.Feed.Agreement
import LuvFlicker.Feed.Replay
import LuvFlicker.Feed.Stream
import LuvFlicker.Http.Replies
import LuvFlicker.Lob.Frame
import LuvFlicker.Clearing.Netting
import LuvFlicker.Execution.Lookup
import LuvFlicker.Execution.RejectStreak
import LuvFlicker.Execution.Replacements
import LuvFlicker.Execution.RiskSpec
import LuvFlicker.Execution.StopOrders
import LuvFlicker.Fast.Decoder
import LuvFlicker.Feed.ItchOutput
import LuvFlicker.Feed.MoldIterator
import LuvFlicker.Fix.Sequence
import LuvFlicker.Ha.Replica
import LuvFlicker.Http.Authentication
import LuvFlicker.Http.Delivery
import LuvFlicker.Http.Price
import LuvFlicker.Http.Segmentation
import LuvFlicker.Market.Luld
import LuvFlicker.Market.RegNms
import LuvFlicker.Mempool
import LuvFlicker.MultiRegion.Clock
import LuvFlicker.MultiRegion.Commit
import LuvFlicker.Rings
import LuvFlicker.Safety.AuditAppend
import LuvFlicker.Safety.Manifest
import LuvFlicker.Safety.Probes
import LuvFlicker.Safety.Sequence
import LuvFlicker.Session.Authenticity
import LuvFlicker.Session.Window
import LuvFlicker.Simulation.Scheduler
import LuvFlicker.Ws.Chunking
import LuvFlicker.Ws.FillText
import LuvFlicker.Ws.Utf8
import LuvFlicker.Ws.Wakeup
import LuvFlicker.Compliance.Worm
import LuvFlicker.Engine.HardwareClock
import LuvFlicker.Market.Protection
import LuvFlicker.Session.DropCopy
import LuvFlicker.Compliance.RegSho
import LuvFlicker.Clearing.TradeReconciliation
import LuvFlicker.Engine.TwapSlicer
import LuvFlicker.Engine.Latency
