import Mathlib
import FixHandler.Native.Femas.BookManager
import FixHandler.Native.Market.Convert

/-!
# The records of FEMAS, stored and converted

What `femas/market/femas_market_manager.cc` publishes for a record, and what
`femas/market/convert/Femas_book_convert.cc` makes of it.
-/

namespace FixHandler.Femas

open Cxx (Float64)
open Json (Error getStr getInt32 getDouble getChar)
open Market (Message TradeMap Published BookConvert)

namespace MarketManager

/-- `GetUpdateTimeStr`: milliseconds other than 500 are not shown. -/
def getUpdateTimeStr (marketData : DepthMarketDataField Float64) : String :=
  Market.dayText marketData.actionDay ++ marketData.updateTime ++ "." ++
    (if marketData.updateMillisec ≠ 500 then "000" else toString marketData.updateMillisec.toInt) ++
    "000"

/-- The body that `StructToJSON` makes -/
def body (marketData : DepthMarketDataField Float64) : Json :=
  .document ([("TradingDay", .utf8 marketData.tradingDay),
      ("SettlementGroupID", .utf8 marketData.settlementGroupID),
      ("SettlementID", .int marketData.settlementID)] ++
    marketData.fields ++
    [("ActionDay", .utf8 marketData.actionDay),
      ("HisHighestPrice", .double marketData.hisHighestPrice),
      ("HisLowestPrice", .double marketData.hisLowestPrice),
      ("LatestVolume", .int marketData.latestVolume),
      ("InitVolume", .int marketData.initVolume),
      ("ChangeVolume", .int marketData.changeVolume),
      ("BidImplyVolume", .int marketData.bidImplyVolume),
      ("AskImplyVolume", .int marketData.askImplyVolume),
      ("AvgPrice", .double marketData.avgPrice),
      ("ArbiType", .utf8 (toString marketData.arbiType.toInt)),
      ("InstrumentID_1", .utf8 marketData.instrumentID_1),
      ("InstrumentID_2", .utf8 marketData.instrumentID_2),
      ("InstrumentName", .utf8 marketData.instrumentName),
      ("TotalBidVolume", .int marketData.totalBidVolume),
      ("TotalAskVolume", .int marketData.totalAskVolume)])

/-- `StructToJSON` and `FemasDateToString` -/
def structToJSON (str2stmp : String → UInt64) (p : Published (DepthMarketDataField Float64)) : Json :=
  Market.dateToString "FEMAS" p.insertTime p.receivedTime
    (Market.getUpdateTimeInt str2stmp p.record.actionDay p.record.updateTime
      p.record.updateMillisec).toNat.repr
    (getUpdateTimeStr p.record) (some p.record.instrumentID) (body p.record)

end MarketManager

namespace BookConvert

/-- How `FemasmarketData` reads a record -/
def readMarketData (message : Option Json) : Except Error (DepthMarketDataField Float64) := do
  let instrumentID ← getStr message "InstrumentID"
  let tradingDay ← getStr message "TradingDay"
  let settlementGroupID ← getStr message "SettlementGroupID"
  let settlementID ← getInt32 message "SettlementID"
  let depth ← Market.readDepth message instrumentID tradingDay
  let actionDay ← getStr message "ActionDay"
  let hisHighestPrice ← getDouble message "HisHighestPrice"
  let hisLowestPrice ← getDouble message "HisLowestPrice"
  let latestVolume ← getInt32 message "LatestVolume"
  let initVolume ← getInt32 message "InitVolume"
  let changeVolume ← getInt32 message "ChangeVolume"
  let bidImplyVolume ← getInt32 message "BidImplyVolume"
  let askImplyVolume ← getInt32 message "AskImplyVolume"
  let avgPrice ← getDouble message "AvgPrice"
  let arbiType ← getChar message "ArbiType"
  let totalBidVolume ← getInt32 message "TotalBidVolume"
  let totalAskVolume ← getInt32 message "TotalAskVolume"
  let instrumentID_1 ← getStr message "InstrumentID_1"
  let instrumentID_2 ← getStr message "InstrumentID_2"
  let instrumentName ← getStr message "InstrumentName"
  return {
    toDepth := depth, actionDay, settlementGroupID, settlementID, hisHighestPrice, hisLowestPrice,
    latestVolume, initVolume, changeVolume, bidImplyVolume, askImplyVolume, avgPrice,
    arbiType, instrumentID_1, instrumentID_2, instrumentName, totalBidVolume, totalAskVolume }

/-- `FemasmarketData` -/
def femasmarketData (str2stmp : String → UInt64) (trademap : TradeMap) (message : Option Json) :
    Except Error (List (Message Float64) × TradeMap) := do
  return BookManager.sendFemasmarketData str2stmp trademap (← readMarketData message)

/-- `Convert` -/
def convert (str2stmp : String → UInt64) :
    (Nat → Nat) → BookConvert → Json → Except Error (List (String × Json) × BookConvert) :=
  Market.BookConvert.convert "FEMAS" (femasmarketData str2stmp)

end BookConvert

end FixHandler.Femas
