import Mathlib
import FixHandler.Cxx.Double
import FixHandler.Cxx.Text

/-!
# What the feed handlers send

`ctp/market/custom_md_spi.cc`, `femas/market/femas_book_manager.cc` and
`rem/market/rem_book_manager.cc` are copies of one another, on records that differ in a few
fields: what they share is here, and each has its own module. Nothing is done with a price or a
turnover but to compare it with `DBL_MAX`, so that they are of any type that has one. A `char` array
is the text that it holds. Logging is left out, and so is what is only in the records of a feed and
read by nothing.
-/

namespace FixHandler.Market

open Cxx (Double)

/-- `pb::dms::DataPoint` -/
structure DataPoint (Price : Type) where
  price : Price
  size : UInt64
deriving DecidableEq, Repr

/-- A message of the market listener -/
inductive Message (Price : Type) where
  | bbo (contract : String) (bid offer : DataPoint Price)
  | bid (contract : String) (bid : DataPoint Price)
  | offer (contract : String) (offer : DataPoint Price)
  | trade (contract : String) (last : DataPoint Price) (time : String)
  | turnover (contract : String) (totalVolume : UInt64) (turnover : Price)
  | l2 (contract : String) (bid offer : List (DataPoint Price)) (time : String)
deriving DecidableEq, Repr

/-- A number that becomes the size of a row -/
def toSize (n : Int32) : UInt64 := n.toInt64.toUInt64

/-! ## The volume of an instrument -/

/-- `mstrade`: the last volume of an instrument, and when it came -/
structure Mstrade where
  mvolume : Int32 := 0
  mtime : String := ""
deriving DecidableEq, Repr

/-- The last volumes of the instruments -/
abbrev TradeMap := Std.TreeMap String Mstrade

/-- The number that the first two characters are -/
def hour (time : String) : Int32 := Cxx.atoi (String.ofList (time.toList.take 2))

/-- `CheckTime`: the volume starts again in the night session. -/
def checkTime (last : Mstrade) (volume : Int32) (time : String) : Mstrade :=
  if hour time > 18 ∧ hour last.mtime < 18 then { mvolume := volume, mtime := time } else last

/-- `MakePriceVolume`: what was traded since the last record of the instrument -/
def makePriceVolume (trademap : TradeMap) (instrumentID : String) (volume : Int32)
    (time : String) : Int32 × TradeMap :=
  let trademap' := trademap.insert instrumentID { mvolume := volume, mtime := time }
  match trademap[instrumentID]? with
  | none => (0, trademap')
  | some last =>
    let tmpVolume := volume - (checkTime last volume time).mvolume
    (if tmpVolume > 0 then tmpVolume else 0, trademap')

/-! ## Times -/

/-- What `strncpy` makes of a day `YYYYMMDD`: `YYYY-MM-DD ` -/
def dayText (day : String) : String :=
  let chars := day.toList ++ List.replicate 8 '\x00'
  String.ofList ((chars.take 4 ++ '-' :: (chars.drop 4).take 2 ++ '-' :: (chars.drop 6).take 2 ++
    [' ']).takeWhile (· != '\x00'))

/-- `GetUpdateTimeInt`, where `str2stmp` takes a text to seconds -/
def getUpdateTimeInt (str2stmp : String → UInt64) (day updateTime : String)
    (updateMillisec : Int32) : UInt64 :=
  (str2stmp (dayText day ++ updateTime) * 1000 + updateMillisec.toInt64.toUInt64) * 1000 * 1000

/-! ## Records of five levels -/

/-- The fields that the records of three feeds share -/
structure Depth (Price : Type) where
  tradingDay : String
  instrumentID : String
  updateTime : String
  updateMillisec : Int32
  preSettlementPrice : Price
  preClosePrice : Price
  preOpenInterest : Price
  preDelta : Price
  openPrice : Price
  highestPrice : Price
  lowestPrice : Price
  closePrice : Price
  upperLimitPrice : Price
  lowerLimitPrice : Price
  settlementPrice : Price
  currDelta : Price
  lastPrice : Price
  volume : Int32
  turnover : Price
  openInterest : Price
  bidPrice1 : Price
  bidVolume1 : Int32
  askPrice1 : Price
  askVolume1 : Int32
  bidPrice2 : Price
  bidVolume2 : Int32
  askPrice2 : Price
  askVolume2 : Int32
  bidPrice3 : Price
  bidVolume3 : Int32
  askPrice3 : Price
  askVolume3 : Int32
  bidPrice4 : Price
  bidVolume4 : Int32
  askPrice4 : Price
  askVolume4 : Int32
  bidPrice5 : Price
  bidVolume5 : Int32
  askPrice5 : Price
  askVolume5 : Int32
deriving DecidableEq, Repr, Inhabited

namespace Depth

variable {Price : Type} [DecidableEq Price] [Double Price]

/-- A level that is not there has the price `DBL_MAX` or no size. -/
def row (price : Price) (volume : Int32) : List (DataPoint Price) :=
  if price = Double.dblMax ∨ volume ≤ 0 then [] else [{ price, size := toSize volume }]

/-- The bids that are shown, the best first -/
def bids (d : Depth Price) : List (DataPoint Price) :=
  row d.bidPrice1 d.bidVolume1 ++ row d.bidPrice2 d.bidVolume2 ++ row d.bidPrice3 d.bidVolume3 ++
    row d.bidPrice4 d.bidVolume4 ++ row d.bidPrice5 d.bidVolume5

/-- The offers that are shown, the best first -/
def offers (d : Depth Price) : List (DataPoint Price) :=
  row d.askPrice1 d.askVolume1 ++ row d.askPrice2 d.askVolume2 ++ row d.askPrice3 d.askVolume3 ++
    row d.askPrice4 d.askVolume4 ++ row d.askPrice5 d.askVolume5

/-- The best prices are taken from the record, and tested anew. -/
def best (d : Depth Price) : List (Message Price) :=
  if (d.bidPrice1 = Double.dblMax ∨ d.bidVolume1 ≤ 0) ∧
      (d.askVolume1 ≤ 0 ∨ d.askPrice1 = Double.dblMax) then []
  else if d.bidPrice1 = Double.dblMax ∨ d.bidVolume1 ≤ 0 then
    [.offer d.instrumentID { price := d.askPrice1, size := toSize d.askVolume1 }]
  else if d.askPrice1 = Double.dblMax ∨ d.askVolume1 ≤ 0 then
    [.bid d.instrumentID { price := d.bidPrice1, size := toSize d.bidVolume1 }]
  else
    [.bbo d.instrumentID { price := d.bidPrice1, size := toSize d.bidVolume1 }
      { price := d.askPrice1, size := toSize d.askVolume1 }]

/-- What is sent for a record, and the volumes that are kept: `time` is its time. -/
def send (d : Depth Price) (time : String) (trademap : TradeMap) : List (Message Price) × TradeMap :=
  let (tmpvolume, trademap) := makePriceVolume trademap d.instrumentID d.volume d.updateTime
  let trade : List (Message Price) :=
    if tmpvolume > 0 then
      [.trade d.instrumentID { price := d.lastPrice, size := toSize tmpvolume } time]
    else []
  (d.best ++ trade ++ [.turnover d.instrumentID (toSize d.volume) d.turnover,
    .l2 d.instrumentID d.bids d.offers time], trademap)

end Depth

end FixHandler.Market
