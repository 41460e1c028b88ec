import Mathlib
import FixHandler.Native.Ctp.CustomMdSpi
import FixHandler.Native.Market.Convert

/-!
# The records of CTP, stored and converted

What `ctp/market/custom_md_spi.cc` publishes for a record, and what `ctp/market/book_convert.cc`
makes of it.
-/

namespace FixHandler.Ctp

open Cxx (Float64)
open Json (Error getStr)
open Market (Message TradeMap Published BookConvert)

namespace CustomMdSpi

/-- `GetUpdateTimeStr` -/
def getUpdateTimeStr (marketData : DepthMarketDataField Float64) : String :=
  let tmp := toString marketData.updateMillisec.toInt
  Market.dayText marketData.actionDay ++ marketData.updateTime ++ "." ++
    (if marketData.updateMillisec < 10 then "00" ++ tmp
      else if marketData.updateMillisec < 100 then "0" ++ tmp
      else tmp) ++ "000"

/-- The body that `StructToJSON` makes -/
def body (marketData : DepthMarketDataField Float64) : Json :=
  .document ([("TradingDay", .utf8 marketData.tradingDay)] ++ marketData.fields ++
    [("ActionDay", .utf8 marketData.actionDay)])

/-- `StructToJSON` -/
def structToJSON (str2stmp : String → UInt64) (p : Published (DepthMarketDataField Float64)) : Json :=
  Market.dateToString "CTP" p.insertTime p.receivedTime
    (Market.getUpdateTimeInt str2stmp p.record.actionDay p.record.updateTime
      p.record.updateMillisec).toNat.repr
    (getUpdateTimeStr p.record) (some p.record.instrumentID) (body p.record)

end CustomMdSpi

namespace BookConvert

/-- `SendDepthMarketData`, a copy of the one that sends what is live -/
def sendDepthMarketData (str2stmp : String → UInt64) (trademap : TradeMap)
    (marketData : DepthMarketDataField Float64) : List (Message Float64) × TradeMap :=
  marketData.send (Market.getUpdateTimeInt str2stmp marketData.actionDay marketData.updateTime
    marketData.updateMillisec).toNat.repr trademap

/-- How `CtpMarketData` reads a record -/
def readMarketData (message : Option Json) : Except Error (DepthMarketDataField Float64) := do
  let instrumentID ← getStr message "InstrumentID"
  let tradingDay ← getStr message "TradingDay"
  let depth ← Market.readDepth message instrumentID tradingDay
  let actionDay ← getStr message "ActionDay"
  return { toDepth := depth, actionDay }

/-- `CtpMarketData` -/
def ctpMarketData (str2stmp : String → UInt64) (trademap : TradeMap) (message : Option Json) :
    Except Error (List (Message Float64) × TradeMap) := do
  return sendDepthMarketData str2stmp trademap (← readMarketData message)

/-- `Convert` -/
def convert (str2stmp : String → UInt64) :
    (Nat → Nat) → BookConvert → Json → Except Error (List (String × Json) × BookConvert) :=
  Market.BookConvert.convert "CTP" (ctpMarketData str2stmp)

end BookConvert

end FixHandler.Ctp
