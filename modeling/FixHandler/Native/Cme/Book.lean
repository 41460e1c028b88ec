import Mathlib

/-!
# Books and instruments

`message/book.h`, `message/instrument.h` and `book_state.h`, with the fields that
the order books and their publication use.
-/

namespace FixHandler.Cme

/-- A price: mantissa and exponent. -/
abbrev Px := Int64 × Int8

/-- Tag 269. -/
inductive MDEntryType where
  | bid | offer | trade | openPrice | settlementPrice | tradingSessionHighPrice
  | tradingSessionLowPrice | clearedVolume | openInterest | impliedBid | impliedOffer
  | bookReset | sessionHighBid | sessionLowOffer | fixingPrice | electronicVolume
  | thresholdLimitsandPriceBandVariation | nullValue
deriving DecidableEq, Repr

/-- Tag 279. -/
inductive MDUpdateAction where
  | new | change | delete | deleteThru | deleteFrom | overlay | nullValue
deriving DecidableEq, Repr

/-- A change of the market data: an entry of an increment, or of a recovery message. -/
structure Book where
  /-- LastMsgSeqNumProcessed in a recovery book -/
  packetSeqNum : UInt32
  /-- X or W -/
  type : Char
  securityID : UInt32
  mDEntryPx : Px := (0, 0)
  mDEntrySize : UInt32 := 0
  mDEntryType : MDEntryType
  mDPriceLevel : UInt8 := 0
  mDUpdateAction : MDUpdateAction := .new
  numberOfOrders : UInt32 := 0
deriving DecidableEq, Repr

/-- The definition of a security. -/
structure Instrument where
  /-- A: add, D: delete, M: modify -/
  securityUpdateAction : Char
  securityID : UInt32
  symbol : String
  minPriceIncrement : Px := (0, 0)
  highLimitPrice : Px := (0, 0)
  lowLimitPrice : Px := (0, 0)
  /-- the depth of the real book -/
  depthGBX : UInt8 := 0
deriving DecidableEq, Repr

/-- One level of a side. -/
structure BookPrice where
  numberOfOrders : UInt32
  mDEntrySize : UInt32
  mDEntryPx : Px
deriving DecidableEq, Repr

/-- The book of a security. -/
structure BookState where
  /-- 1: multiple depth book -/
  bookType : UInt8
  securityID : UInt32
  symbol : String
  marketDepth : UInt8
  bid : List BookPrice := []
  ask : List BookPrice := []
deriving DecidableEq, Repr

end FixHandler.Cme
