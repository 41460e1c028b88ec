import Mathlib
import FixHandler.Native.Market.Feed

/-!
# The FEMAS feed

`femas/market/femas_book_manager.cc`: what is sent for a record of market data.
-/

namespace FixHandler.Femas

open Cxx (Double)
open Market (Depth Message TradeMap)

/-- `CUstpFtdcDepthMarketDataField` -/
structure DepthMarketDataField (Price : Type) extends Depth Price where
  actionDay : String
  settlementGroupID : String
  settlementID : Int32
  hisHighestPrice : Price
  hisLowestPrice : Price
  latestVolume : Int32
  initVolume : Int32
  changeVolume : Int32
  bidImplyVolume : Int32
  askImplyVolume : Int32
  avgPrice : Price
  arbiType : Int8
  instrumentID_1 : String
  instrumentID_2 : String
  instrumentName : String
  totalBidVolume : Int32
  totalAskVolume : Int32
deriving DecidableEq, Repr, Inhabited

namespace BookManager

variable {Price : Type} [DecidableEq Price] [Double Price]

/-- `SendFemasmarketData` -/
def sendFemasmarketData (str2stmp : String → UInt64) (trademap : TradeMap)
    (marketData : DepthMarketDataField Price) : List (Message Price) × TradeMap :=
  marketData.send (Market.getUpdateTimeInt str2stmp marketData.actionDay marketData.updateTime
    marketData.updateMillisec).toNat.repr trademap

end BookManager

end FixHandler.Femas
