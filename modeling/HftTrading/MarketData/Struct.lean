import Mathlib.Data.Int.Notation
import Mathlib.Data.Nat.Notation

/-!
# Market data: the feed's messages and the book's records

The records of the market-data feed after parsing, and the two records the books are made of. Fields
that travel as unsigned integers are natural numbers, prices are integers; the enumerations are
closed types, so that a parsed message cannot carry a side or a message type outside them.

A message is a header with what its body was parsed to; a heartbeat has the header for its body. The
fields have the names and the order of the source.
-/

namespace HftTrading.MarketData

/-- `MSG_TYPE`. -/
inductive MsgType
  | heartbeat
  | newOrder
  | deleteOrder
  | modifyOrder
  | trade
  | tradeSummary
  | snapshotInfo
  deriving DecidableEq, Repr

/-- `SIDE`. -/
inductive Side
  | buy
  | sell
  deriving DecidableEq, Repr

/-- `MDHeader`. -/
structure MDHeader where
  magicNumber : ℕ
  length : ℕ
  seqNum : ℕ
  timestamp : ℕ
  msgType : MsgType
  deriving DecidableEq

/-- The body of a `NewOrder`. -/
structure NewOrder where
  orderId : ℕ
  symbol : ℕ
  side : Side
  quantity : ℕ
  price : ℤ
  flags : ℕ
  deriving DecidableEq

/-- The body of a `DeleteOrder`. -/
structure DeleteOrder where
  orderId : ℕ
  deriving DecidableEq

/-- The body of a `ModifyOrder`. -/
structure ModifyOrder where
  orderId : ℕ
  side : Side
  quantity : ℕ
  price : ℤ
  deriving DecidableEq

/-- The body of a `Trade`. -/
structure Trade where
  orderId : ℕ
  quantity : ℕ
  price : ℤ
  deriving DecidableEq

/-- The body of a `TradeSummary`. -/
structure TradeSummary where
  symbol : ℕ
  aggressorSide : Side
  totalQuantity : ℕ
  lastPrice : ℤ
  deriving DecidableEq

/-- The body of a `SnapshotInfo`. -/
structure SnapshotInfo where
  symbol : ℕ
  bidCount : ℕ
  askCount : ℕ
  lastMdSeqNum : ℕ
  deriving DecidableEq

/-- `MarketDataMessage`: what `parse_message` returns. A heartbeat is its bare header. -/
inductive MarketDataMessage
  | newOrder (body : NewOrder)
  | deleteOrder (body : DeleteOrder)
  | modifyOrder (body : ModifyOrder)
  | trade (body : Trade)
  | tradeSummary (body : TradeSummary)
  | snapshotInfo (body : SnapshotInfo)
  | header (header : MDHeader)
  deriving DecidableEq

/-- A received message: the header, and what the packet parsed to. -/
abbrev Message := MDHeader × MarketDataMessage

/-- `MAGIC_NUMBER`: the bytes of `GOIRISH!`, read as a little-endian number. -/
def MAGIC_NUMBER : ℕ := 0x2148534952494F47

/-- `PriceLevel`. -/
structure PriceLevel where
  price : ℤ
  totalQty : ℤ
  orderCount : ℤ
  deriving DecidableEq

/-- `Order`: a resting order. -/
structure Order where
  orderId : ℤ
  symbol : ℤ
  side : Side
  quantity : ℤ
  price : ℤ
  timestamp : ℤ
  deriving DecidableEq

end HftTrading.MarketData
