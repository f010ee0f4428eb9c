import HftTrading.Book.Atomic
import HftTrading.Book.Emptied
import HftTrading.Book.Fills
import HftTrading.Book.Heaps
import HftTrading.Book.IdIndex
import HftTrading.Book.MidPrice
import HftTrading.Feed.Buffer
import HftTrading.Feed.Coverage
import HftTrading.Feed.Cycle
import HftTrading.Feed.DeadIds
import HftTrading.Feed.Recovery
import HftTrading.Feed.Replay
import HftTrading.Feed.Restart
import HftTrading.MarketData.Accepts
import HftTrading.OrderEntry.Booking
import HftTrading.OrderEntry.KillSwitch
import HftTrading.OrderEntry.Modify
import HftTrading.OrderEntry.PerSequence
import HftTrading.OrderEntry.Reconnect
import HftTrading.OrderEntry.Rollback
import HftTrading.OrderEntry.SeqNums
import HftTrading.Strategy.Acceptance
import HftTrading.Strategy.Aggression
import HftTrading.Strategy.EtfProfit
import HftTrading.Strategy.Flatten
import HftTrading.Strategy.Gate
import HftTrading.Strategy.Limits
import HftTrading.Strategy.OrderIds
import HftTrading.Strategy.Pricing
import HftTrading.Strategy.Shutdown
import HftTrading.Strategy.Signals
import HftTrading.Strategy.Spoofs
import HftTrading.Strategy.Throttle
import HftTrading.Strategy.Tracked
import HftTrading.Strategy.Undisturbed
