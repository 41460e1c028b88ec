import Mathlib
import FixHandler.Native.Rem.EfhMarketManager
import FixHandler.Native.Market.Convert

/-!
# The records of REM-EFH, stored and converted

What `rem/efhmarket/rem_efhmarket_manager.cc` publishes for a record, and what
`rem/efhmarket/convert/EFHRem_book_convert.cc` makes of it.
-/

namespace FixHandler.Rem

open Cxx (Double Float64)
open Json (Error getStr getInt getInt32 getDouble getChar)
open Market (Message TradeMap Published BookConvert)

namespace EfhMarketManager

/-- How a share is written: it becomes a `double`, and is not negative. -/
def shareJson (share : Int32) : Json :=
  .double (if share < 0 then Float64.ofRat 0 else Double.ofInt share.toInt)

/-- The body that `StructToJSON` makes -/
def body (marketData : GuavaUdpNormal Float64) : Json :=
  .document [("sequence", .utf8 marketData.sequence.toNat.repr),
    ("exchange_id", .utf8 (toString marketData.exchangeId.toInt)),
    ("channel_id", .utf8 (toString marketData.channelId.toInt)),
    ("quote_flag", .utf8 (toString marketData.quoteFlag.toInt)),
    ("symbol", .utf8 marketData.symbol),
    ("update_time", .utf8 marketData.updateTime),
    ("millisecond", .int marketData.millisecond),
    ("last_px", .double marketData.lastPx),
    ("last_share", shareJson marketData.lastShare),
    ("total_value", .double marketData.totalValue),
    ("total_pos", .double marketData.totalPos),
    ("bid_px", .double marketData.bidPx),
    ("bid_share", shareJson marketData.bidShare),
    ("ask_px", .double marketData.askPx),
    ("ask_share", shareJson marketData.askShare)]

/-- A record that is published, with all that the clock gives for it -/
structure PublishedNow extends Published (GuavaUdpNormal Float64) where
  sendingTime : Nat
  sendingTimeStr : String

/-- `StructToJSON` and `RemDateToString`: there is no `InstrumentID`. -/
def structToJSON (p : PublishedNow) : Json :=
  Market.dateToString "REMEFH" p.insertTime p.receivedTime p.sendingTime.repr p.sendingTimeStr none
    (body p.record)

end EfhMarketManager

namespace EfhBookConvert

/-- How `EfhRemmarketData` reads a record -/
def readMarketData (message : Option Json) : Except Error (GuavaUdpNormal Float64) := do
  let sequence ← getInt message "sequence"
  let exchangeId ← getChar message "exchange_id"
  let channelId ← getChar message "channel_id"
  let quoteFlag ← getChar message "quote_flag"
  let symbol ← getStr message "symbol"
  let updateTime ← getStr message "update_time"
  let millisecond ← getInt32 message "millisecond"
  let lastPx ← getDouble message "last_px"
  let lastShare ← getInt32 message "last_share"
  let totalValue ← getDouble message "total_value"
  let totalPos ← getDouble message "total_pos"
  let bidPx ← getDouble message "bid_px"
  let bidShare ← getInt32 message "bid_share"
  let askPx ← getDouble message "ask_px"
  let askShare ← getDouble message "ask_share"
  return {
    sequence := sequence.toUInt64.toUInt32, exchangeId, channelId, quoteFlag, symbol, updateTime,
    millisecond, lastPx, lastShare, totalValue, totalPos, bidPx, bidShare, askPx,
    askShare := askShare.toInt32 }

/-- `EfhRemmarketData`, on the day `current` -/
def efhRemmarketData (str2stmp : String → UInt64) (current : String) (trademap : TradeMap)
    (message : Option Json) : Except Error (List (Message Float64) × TradeMap) := do
  return EfhMarketManager.sendRemmarketData str2stmp current trademap (← readMarketData message)

/-- `Convert` -/
def convert (str2stmp : String → UInt64) (current : String) :
    (Nat → Nat) → BookConvert → Json → Except Error (List (String × Json) × BookConvert) :=
  Market.BookConvert.convert "REMEFH" (efhRemmarketData str2stmp current)

end EfhBookConvert

end FixHandler.Rem
