import Mathlib
import FixHandler.Native.Market.Feed

/-!
# The CTP feed

`ctp/market/custom_md_spi.cc`: what is sent for a record of market data.
-/

namespace FixHandler.Ctp

open Cxx (Double)
open Market (Depth Message TradeMap)

/-- `CThostFtdcDepthMarketDataField` -/
structure DepthMarketDataField (Price : Type) extends Depth Price where
  actionDay : String
deriving DecidableEq, Repr, Inhabited

namespace CustomMdSpi

variable {Price : Type} [DecidableEq Price] [Double Price]

/-- `SendDepthMarketData` -/
def sendDepthMarketData (str2stmp : String → UInt64) (trademap : TradeMap)
    (marketData : DepthMarketDataField Price) : List (Message Price) × TradeMap :=
  marketData.send (Market.getUpdateTimeInt str2stmp marketData.actionDay marketData.updateTime
    marketData.updateMillisec).toNat.repr trademap

end CustomMdSpi

end FixHandler.Ctp
