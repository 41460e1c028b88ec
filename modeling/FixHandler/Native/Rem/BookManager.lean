import Mathlib
import FixHandler.Native.Market.Feed

/-!
# The REM feed

`rem/market/rem_book_manager.cc`: what is sent for a record of market data.
-/

namespace FixHandler.Rem

open Cxx (Double)
open Market (Depth Message TradeMap)

/-- `EESMarketDepthQuoteData` -/
structure MarketDepthQuoteData (Price : Type) extends Depth Price where
  exchangeID : String
  exchangeInstID : String
  averagePrice : Price
deriving DecidableEq, Repr, Inhabited

namespace BookManager

variable {Price : Type} [DecidableEq Price] [Double Price]

/-- `SendRemmarketData`: the time is of the trading day. -/
def sendRemmarketData (str2stmp : String → UInt64) (trademap : TradeMap)
    (marketData : MarketDepthQuoteData Price) : List (Message Price) × TradeMap :=
  marketData.send (Market.getUpdateTimeInt str2stmp marketData.tradingDay marketData.updateTime
    marketData.updateMillisec).toNat.repr trademap

end BookManager

end FixHandler.Rem
