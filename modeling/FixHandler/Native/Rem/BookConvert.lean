import Mathlib
import FixHandler.Native.Rem.BookManager
import FixHandler.Native.Market.Convert

/-!
# The records of REM, stored and converted

What `rem/market/rem_market_manager.cc` publishes for a record, and what
`rem/market/convert/Rem_book_convert.cc` makes of it.
-/

namespace FixHandler.Rem

open Cxx (Double Float64)
open Json (Error getStr getInt getInt32 getDouble)
open Market (Message TradeMap Published BookConvert)

namespace MarketManager

/-- `GetUpdateTimeStr`: milliseconds other than 500 are not shown. -/
def getUpdateTimeStr (marketData : MarketDepthQuoteData Float64) : String :=
  Market.dayText marketData.tradingDay ++ marketData.updateTime ++ "." ++
    (if marketData.updateMillisec ≠ 500 then "000" else toString marketData.updateMillisec.toInt) ++
    "000"

/-- The body that `StructToJSON` makes -/
def body (marketData : MarketDepthQuoteData Float64) : Json :=
  .document ([("TradingDay", .utf8 marketData.tradingDay),
      ("ExchangeID", .utf8 marketData.exchangeID),
      ("ExchangeInstID", .utf8 marketData.exchangeInstID)] ++
    marketData.fields ++ [("AveragePrice", .double marketData.averagePrice)])

/-- `StructToJSON` and `RemDateToString` -/
def structToJSON (str2stmp : String → UInt64) (p : Published (MarketDepthQuoteData Float64)) : Json :=
  Market.dateToString "REM" p.insertTime p.receivedTime
    (Market.getUpdateTimeInt str2stmp p.record.tradingDay p.record.updateTime
      p.record.updateMillisec).toNat.repr
    (getUpdateTimeStr p.record) (some p.record.instrumentID) (body p.record)

end MarketManager

namespace BookConvert

/-- How `RemmarketData` reads a record. The open interests are read as integers, and the volume is
    read where the open interest of the day before is written. The average price is not read; `memset`
    has made it 0. -/
def readMarketData (message : Option Json) : Except Error (MarketDepthQuoteData Float64) := do
  let instrumentID ← getStr message "InstrumentID"
  let tradingDay ← getStr message "TradingDay"
  let exchangeID ← getStr message "ExchangeID"
  let exchangeInstID ← getStr message "ExchangeInstID"
  let preSettlementPrice ← getDouble message "PreSettlementPrice"
  let lastPrice ← getDouble message "LastPrice"
  let preClosePrice ← getDouble message "PreClosePrice"
  let preOpenInterest ← getInt message "PreOpenInterest"
  let openPrice ← getDouble message "OpenPrice"
  let highestPrice ← getDouble message "HighestPrice"
  let lowestPrice ← getDouble message "LowestPrice"
  let volume ← getInt32 message "PreOpenInterest"
  let turnover ← getDouble message "Turnover"
  let openInterest ← getInt message "OpenInterest"
  let closePrice ← getDouble message "ClosePrice"
  let settlementPrice ← getDouble message "SettlementPrice"
  let upperLimitPrice ← getDouble message "UpperLimitPrice"
  let lowerLimitPrice ← getDouble message "LowerLimitPrice"
  let preDelta ← getDouble message "PreDelta"
  let currDelta ← getDouble message "CurrDelta"
  let updateTime ← getStr message "UpdateTime"
  let updateMillisec ← getInt32 message "UpdateMillisec"
  let bidPrice1 ← getDouble message "BidPrice1"
  let bidVolume1 ← getInt32 message "BidVolume1"
  let askPrice1 ← getDouble message "AskPrice1"
  let askVolume1 ← getInt32 message "AskVolume1"
  let bidPrice2 ← getDouble message "BidPrice2"
  let bidVolume2 ← getInt32 message "BidVolume2"
  let askPrice2 ← getDouble message "AskPrice2"
  let askVolume2 ← getInt32 message "AskVolume2"
  let bidPrice3 ← getDouble message "BidPrice3"
  let bidVolume3 ← getInt32 message "BidVolume3"
  let askPrice3 ← getDouble message "AskPrice3"
  let askVolume3 ← getInt32 message "AskVolume3"
  let bidPrice4 ← getDouble message "BidPrice4"
  let bidVolume4 ← getInt32 message "BidVolume4"
  let askPrice4 ← getDouble message "AskPrice4"
  let askVolume4 ← getInt32 message "AskVolume4"
  let bidPrice5 ← getDouble message "BidPrice5"
  let bidVolume5 ← getInt32 message "BidVolume5"
  let askPrice5 ← getDouble message "AskPrice5"
  let askVolume5 ← getInt32 message "AskVolume5"
  return {
    tradingDay, instrumentID, exchangeID, exchangeInstID, updateTime, updateMillisec,
    preSettlementPrice, preClosePrice, preOpenInterest := Double.ofInt preOpenInterest.toInt,
    preDelta, openPrice, highestPrice, lowestPrice, closePrice, upperLimitPrice, lowerLimitPrice,
    settlementPrice, currDelta, lastPrice, volume, turnover,
    openInterest := Double.ofInt openInterest.toInt, averagePrice := Float64.ofRat 0,
    bidPrice1, bidVolume1, askPrice1, askVolume1, bidPrice2, bidVolume2, askPrice2, askVolume2,
    bidPrice3, bidVolume3, askPrice3, askVolume3, bidPrice4, bidVolume4, askPrice4, askVolume4,
    bidPrice5, bidVolume5, askPrice5, askVolume5 }

/-- `RemmarketData` -/
def remmarketData (str2stmp : String → UInt64) (trademap : TradeMap) (message : Option Json) :
    Except Error (List (Message Float64) × TradeMap) := do
  return BookManager.sendRemmarketData str2stmp trademap (← readMarketData message)

/-- `Convert` -/
def convert (str2stmp : String → UInt64) :
    (Nat → Nat) → BookConvert → Json → Except Error (List (String × Json) × BookConvert) :=
  Market.BookConvert.convert "REM" (remmarketData str2stmp)

end BookConvert

end FixHandler.Rem
