import Mathlib
import FixHandler.Native.Market.Feed

/-!
# The REM-EFH feed

`rem/efhmarket/rem_efhmarket_manager.cc`: what is sent for a record of market data. It has one
level, and no day: its time is of the current day.
-/

namespace FixHandler.Rem

open Cxx (Double)
open Market (DataPoint Message TradeMap toSize)

/-- `guava_udp_normal` -/
structure GuavaUdpNormal (Price : Type) where
  sequence : UInt32
  exchangeId : Int8
  channelId : Int8
  quoteFlag : Int8
  symbol : String
  updateTime : String
  millisecond : Int32
  lastPx : Price
  lastShare : Int32
  totalValue : Price
  totalPos : Price
  bidPx : Price
  bidShare : Int32
  askPx : Price
  askShare : Int32
deriving DecidableEq, Repr, Inhabited

namespace EfhMarketManager

variable {Price : Type} [DecidableEq Price] [Double Price]

/-- The rows of a side -/
def row (price : Price) (share : Int32) : List (DataPoint Price) :=
  if price ≠ Double.dblMax ∧ share > 0 then [{ price, size := toSize share }] else []

/-- The best prices are tested without their sizes, and the bid of a BBO has its price set twice:
    its size is what is read where none is set. -/
def best (marketData : GuavaUdpNormal Price) : List (Message Price) :=
  if marketData.bidPx = Double.dblMax ∧ marketData.askPx = Double.dblMax then []
  else if marketData.bidPx = Double.dblMax then
    [.offer marketData.symbol { price := marketData.askPx, size := toSize marketData.askShare }]
  else if marketData.askPx = Double.dblMax then
    [.bid marketData.symbol { price := marketData.bidPx, size := toSize marketData.bidShare }]
  else
    [.bbo marketData.symbol { price := Double.ofInt marketData.bidShare.toInt, size := 0 }
      { price := marketData.askPx, size := toSize marketData.askShare }]

/-- `SendRemmarketData`, on the day `current` -/
def sendRemmarketData (str2stmp : String → UInt64) (current : String) (trademap : TradeMap)
    (marketData : GuavaUdpNormal Price) : List (Message Price) × TradeMap :=
  let time := (Market.getUpdateTimeInt str2stmp current marketData.updateTime
    marketData.millisecond).toNat.repr
  let (tmpvolume, trademap) := Market.makePriceVolume trademap marketData.symbol
    marketData.lastShare marketData.updateTime
  let trade : List (Message Price) :=
    if tmpvolume > 0 then
      [.trade marketData.symbol { price := marketData.lastPx, size := toSize tmpvolume } time]
    else []
  (best marketData ++ trade ++
    [.turnover marketData.symbol (toSize marketData.lastShare) marketData.totalValue,
      .l2 marketData.symbol (row marketData.bidPx marketData.bidShare)
        (row marketData.askPx marketData.askShare) time], trademap)

end EfhMarketManager

end FixHandler.Rem
