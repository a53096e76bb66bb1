import Axes.Lib.Run
import Axes.Stat.KeySpace
import Axes.Orders.Lease
import Axes.Orders.Agreement
import Axes.Orders.Conservation
import Axes.Orders.Delivery
import Axes.Chat.HubSpec
import Axes.Chat.ExactlyOnce
import Axes.Chat.Rebuild
import Axes.Chat.Identity
import Axes.Chat.Departure
import Axes.Chat.Checks
import Axes.Chat.Isolation
import Axes.Chat.Lifecycle
import Axes.Orders.Published
import Axes.Lib.Keyed
import Axes.Orders.Confluence
import Axes.Bakeries.Offsets
import Axes.Orders.Precheck
import Axes.Orders.CacheAtRest
import Axes.Observability.Completion
import Axes.Stat.HotTop
import Axes.Orders.Recovery
import Axes.Orders.RowHistory
import Axes.Orders.Reads
import Axes.Orders.Wire
import Axes.Chat.WellFormed
import Axes.Observability.Logging
import Axes.Stat.HotTime
import Axes.Http.Answers
import Axes.Http.Rows
import Axes.Http.Service
import Axes.Observability.Otlp
