import Mathlib
import FixHandler.Native.Market.Feed
import FixHandler.Native.Persist.Json

/-!
# From stored records to documents

The converters of `ctp/market/book_convert.cc`, `femas/market/convert/Femas_book_convert.cc`,
`rem/market/convert/Rem_book_convert.cc` and `rem/efhmarket/convert/EFHRem_book_convert.cc` are one
text, but for the name of the market and for how a record is read and sent. The part of a record that
three of the feeds share is written and read here, too.
-/

namespace FixHandler.Market

open Cxx (Float64)
open Json (Error getStr getSub getInt32 getDouble)

/-! ## The shared part of a record -/

/-- What `StructToJSON` of three managers writes alike -/
def Depth.fields (d : Depth Float64) : List (String × Json) :=
  [("PreSettlementPrice", .double d.preSettlementPrice),
    ("PreClosePrice", .double d.preClosePrice),
    ("PreOpenInterest", .double d.preOpenInterest),
    ("PreDelta", .double d.preDelta),
    ("OpenPrice", .double d.openPrice),
    ("HighestPrice", .double d.highestPrice),
    ("LowestPrice", .double d.lowestPrice),
    ("ClosePrice", .double d.closePrice),
    ("UpperLimitPrice", .double d.upperLimitPrice),
    ("LowerLimitPrice", .double d.lowerLimitPrice),
    ("SettlementPrice", .double d.settlementPrice),
    ("CurrDelta", .double d.currDelta),
    ("LastPrice", .double d.lastPrice),
    ("Volume", .int d.volume),
    ("Turnover", .double d.turnover),
    ("OpenInterest", .double d.openInterest),
    ("BidPrice1", .double d.bidPrice1), ("BidVolume1", .int d.bidVolume1),
    ("AskPrice1", .double d.askPrice1), ("AskVolume1", .int d.askVolume1),
    ("BidPrice2", .double d.bidPrice2), ("BidVolume2", .int d.bidVolume2),
    ("BidPrice3", .double d.bidPrice3), ("BidVolume3", .int d.bidVolume3),
    ("AskPrice2", .double d.askPrice2), ("AskVolume2", .int d.askVolume2),
    ("AskPrice3", .double d.askPrice3), ("AskVolume3", .int d.askVolume3),
    ("BidPrice4", .double d.bidPrice4), ("BidVolume4", .int d.bidVolume4),
    ("BidPrice5", .double d.bidPrice5), ("BidVolume5", .int d.bidVolume5),
    ("AskPrice4", .double d.askPrice4), ("AskVolume4", .int d.askVolume4),
    ("AskPrice5", .double d.askPrice5), ("AskVolume5", .int d.askVolume5),
    ("InstrumentID", .utf8 d.instrumentID),
    ("UpdateTime", .utf8 d.updateTime),
    ("UpdateMillisec", .int d.updateMillisec)]

/-- What `FemasmarketData` and `CtpMarketData` read alike, when they have the two names -/
def readDepth (message : Option Json) (instrumentID tradingDay : String) :
    Except Error (Depth Float64) := do
  let preSettlementPrice ← getDouble message "PreSettlementPrice"
  let preClosePrice ← getDouble message "PreClosePrice"
  let preOpenInterest ← getDouble message "PreOpenInterest"
  let preDelta ← getDouble message "PreDelta"
  let openPrice ← getDouble message "OpenPrice"
  let highestPrice ← getDouble message "HighestPrice"
  let lowestPrice ← getDouble message "LowestPrice"
  let closePrice ← getDouble message "ClosePrice"
  let upperLimitPrice ← getDouble message "UpperLimitPrice"
  let lowerLimitPrice ← getDouble message "LowerLimitPrice"
  let settlementPrice ← getDouble message "SettlementPrice"
  let currDelta ← getDouble message "CurrDelta"
  let lastPrice ← getDouble message "LastPrice"
  let volume ← getInt32 message "Volume"
  let turnover ← getDouble message "Turnover"
  let openInterest ← getDouble message "OpenInterest"
  let bidPrice1 ← getDouble message "BidPrice1"
  let bidVolume1 ← getInt32 message "BidVolume1"
  let askPrice1 ← getDouble message "AskPrice1"
  let askVolume1 ← getInt32 message "AskVolume1"
  let bidPrice2 ← getDouble message "BidPrice2"
  let bidVolume2 ← getInt32 message "BidVolume2"
  let askPrice2 ← getDouble message "AskPrice2"
  let askVolume2 ← getInt32 message "AskVolume2"
  let bidPrice3 ← getDouble message "BidPrice3"
  let bidVolume3 ← getInt32 message "BidVolume3"
  let askPrice3 ← getDouble message "AskPrice3"
  let askVolume3 ← getInt32 message "AskVolume3"
  let bidPrice4 ← getDouble message "BidPrice4"
  let bidVolume4 ← getInt32 message "BidVolume4"
  let askPrice4 ← getDouble message "AskPrice4"
  let askVolume4 ← getInt32 message "AskVolume4"
  let bidPrice5 ← getDouble message "BidPrice5"
  let bidVolume5 ← getInt32 message "BidVolume5"
  let askPrice5 ← getDouble message "AskPrice5"
  let askVolume5 ← getInt32 message "AskVolume5"
  let updateTime ← getStr message "UpdateTime"
  let updateMillisec ← getInt32 message "UpdateMillisec"
  return {
    tradingDay, instrumentID, updateTime, updateMillisec, preSettlementPrice, preClosePrice,
    preOpenInterest, preDelta, openPrice, highestPrice, lowestPrice, closePrice, upperLimitPrice,
    lowerLimitPrice, settlementPrice, currDelta, lastPrice, volume, turnover, openInterest,
    bidPrice1, bidVolume1, askPrice1, askVolume1, bidPrice2, bidVolume2, askPrice2, askVolume2,
    bidPrice3, bidVolume3, askPrice3, askVolume3, bidPrice4, bidVolume4, askPrice4, askVolume4,
    bidPrice5, bidVolume5, askPrice5, askVolume5 }

/-- A record that is published, and the clock when this is done -/
structure Published (Record : Type) where
  record : Record
  insertTime : Nat
  receivedTime : Nat
deriving DecidableEq, Repr

/-- The document that a manager publishes; the one of REM-EFH has no `InstrumentID`. -/
def dateToString (market : String) (insertTime receivedTime : Nat)
    (sendingTime sendingTimeStr : String) (instrumentID : Option String) (json : Json) : Json :=
  .document ([("market", .utf8 market), ("insertTime", .utf8 insertTime.repr),
    ("sendingTime", .utf8 sendingTime), ("sendingTimeStr", .utf8 sendingTimeStr),
    ("receivedTime", .utf8 receivedTime.repr)] ++
    (instrumentID.map fun id => ("InstrumentID", .utf8 id)).toList ++ [("message", json)])

/-! ## The listener of a converter -/

/-- The message of each kind that came last -/
structure ConvertListener where
  bbo : Option (String × DataPoint Float64 × DataPoint Float64) := none
  bid : Option (String × DataPoint Float64) := none
  offer : Option (String × DataPoint Float64) := none
  l2 : Option (String × List (DataPoint Float64) × List (DataPoint Float64) × String) := none
  trade : Option (String × DataPoint Float64 × String) := none
  turnover : Option (String × UInt64 × Float64) := none

namespace ConvertListener

/-- `OnBBO`, `OnBid`, `OnOffer`, `OnTrade`, `OnTurnover` and `OnL2` -/
def on (listener : ConvertListener) : Message Float64 → ConvertListener
  | .bbo contract bid offer => { listener with bbo := some (contract, bid, offer) }
  | .bid contract bid => { listener with bid := some (contract, bid) }
  | .offer contract offer => { listener with offer := some (contract, offer) }
  | .trade contract last time => { listener with trade := some (contract, last, time) }
  | .turnover contract totalVolume turnover =>
    { listener with turnover := some (contract, totalVolume, turnover) }
  | .l2 contract bid offer time => { listener with l2 := some (contract, bid, offer, time) }

/-- A price and a size -/
def pointJson (p : DataPoint Float64) : Json :=
  .document [("price", .double p.price), ("size", .uint64 p.size)]

/-- The levels, where they were sent -/
def makeL2Json (listener : ConvertListener) : Option Json :=
  listener.l2.map fun (contract, bid, offer, time) =>
    .document [("contract", .utf8 contract), ("bid", .array (bid.map pointJson)),
      ("offer", .array (offer.map pointJson)), ("time", .utf8 time)]

/-- The best bid, where it was sent alone -/
def makeBidJson (listener : ConvertListener) : Option Json :=
  listener.bid.map fun (contract, bid) =>
    .document [("contract", .utf8 contract), ("bid", pointJson bid)]

/-- The best offer, where it was sent alone -/
def makeOfferJson (listener : ConvertListener) : Option Json :=
  listener.offer.map fun (contract, offer) =>
    .document [("contract", .utf8 contract), ("offer", pointJson offer)]

/-- The best bid and offer, where both were sent -/
def makeBboJson (listener : ConvertListener) : Option Json :=
  listener.bbo.map fun (contract, bid, offer) =>
    .document [("contract", .utf8 contract), ("bid", pointJson bid), ("offer", pointJson offer)]

/-- The time is the one of the L2. -/
def makeTradeJson (listener : ConvertListener) : Option Json :=
  listener.trade.map fun (contract, last, _) =>
    .document [("contract", .utf8 contract), ("last", pointJson last),
      ("time", .utf8 ((listener.l2.map fun (_, _, _, time) => time).getD ""))]

/-- The turnover, where it was sent -/
def makeTurnoverJson (listener : ConvertListener) : Option Json :=
  listener.turnover.map fun (contract, totalVolume, turnover) =>
    .document [("contract", .utf8 contract), ("total_volume", .uint64 totalVolume),
      ("turnover", .double turnover)]

/-- The bodies that there are, in the order in which they are made -/
def bodies (listener : ConvertListener) : List (String × Json) :=
  (listener.makeBidJson.map ("bid", ·)).toList ++
    (listener.makeOfferJson.map ("offer", ·)).toList ++
    (listener.makeBboJson.map ("bbo", ·)).toList ++
    (listener.makeTradeJson.map ("trade", ·)).toList ++
    (listener.makeTurnoverJson.map ("turnover", ·)).toList ++
    (listener.makeL2Json.map ("l2", ·)).toList

end ConvertListener

/-! ## The converter -/

/-- The volumes, and how many times the clock was read -/
structure BookConvert where
  trademap : TradeMap := ∅
  readings : Nat := 0

namespace BookConvert

/-- The document around a body -/
def document (market type insertTime sendingTime sendingTimeStr : String) (body : Json) : Json :=
  .document [("market", .utf8 market), ("type", .utf8 type), ("insertTime", .utf8 insertTime),
    ("sendingTime", .utf8 sendingTime), ("sendingTimeStr", .utf8 sendingTimeStr), ("message", body)]

/-- The documents around some bodies, where `clock` is what `Current_time_ns` gives, reading by
    reading -/
def documents (market sendingTime sendingTimeStr : String) (clock : Nat → Nat) :
    Nat → List (String × Json) → List (String × Json)
  | _, [] => []
  | readings, (type, body) :: bodies =>
    (type, document market type (clock readings).repr sendingTime sendingTimeStr body) ::
      documents market sendingTime sendingTimeStr clock (readings + 1) bodies

/-- `Convert`, where `marketData` reads a record and sends what there is to send for it. The entries
    of the `MessMap` are in the order in which they are made. -/
def convert (market : String)
    (marketData : TradeMap → Option Json → Except Error (List (Message Float64) × TradeMap))
    (clock : Nat → Nat) (converter : BookConvert) (message : Json) :
    Except Error (List (String × Json) × BookConvert) := do
  let body := getSub (some message) "message"
  let _ ← getStr (some message) "InstrumentID"
  let _ ← getStr (some message) "insertTime"
  let sendingTime ← getStr (some message) "sendingTime"
  let sendingTimeStr ← getStr (some message) "sendingTimeStr"
  let (messages, trademap) ← marketData converter.trademap body
  let bodies := (messages.foldl ConvertListener.on {}).bodies
  return (documents market sendingTime sendingTimeStr clock converter.readings bodies,
    { trademap, readings := converter.readings + bodies.length })

end BookConvert

end FixHandler.Market
