import Mathlib
import FixHandler.Native.Market.Feed
import FixHandler.Native.Persist.Json

/-!
# The consumer of stored documents

`tmalpha/replay/replay_data_consumer.h`: a document that was read from the database becomes a call of
the listener.
-/

namespace FixHandler.Tmalpha.ReplayDataConsumer

open Cxx (Float64)
open Market (DataPoint Message)
open Json (Error getSub getStr getArr getInt getInt32 getDouble)

/-- A call of the listener -/
inductive Call where
  /-- `OnTrade`, `OnBBO`, `OnBid`, `OnOffer`, `OnL2` and `OnTurnover` -/
  | market (message : Message Float64)
  /-- `OnContractDefinition` -/
  | contractDefinition
      (name tickSize tickValue yesterdayClosePrice upperLimit lowerLimit : String)
deriving DecidableEq

/-- A price and a size -/
def parsePoint (element : Option Json) : Except Error (DataPoint Float64) := do
  let price ← getDouble element "price"
  let size ← getInt element "size"
  return { price, size := size.toUInt64 }

/-- The call that a saved trade is replayed as -/
def parseTrade (body : Option Json) : Except Error Call := do
  let contract ← getStr body "contract"
  let last ← parsePoint (getSub body "last")
  let time ← getStr body "time"
  return .market (.trade contract last time)

/-- The call that a saved BBO is replayed as -/
def parseBbo (body : Option Json) : Except Error Call := do
  let contract ← getStr body "contract"
  let bid ← parsePoint (getSub body "bid")
  let offer ← parsePoint (getSub body "offer")
  return .market (.bbo contract bid offer)

/-- The call that a saved bid is replayed as -/
def parseBid (body : Option Json) : Except Error Call := do
  let contract ← getStr body "contract"
  let bid ← parsePoint (getSub body "bid")
  return .market (.bid contract bid)

/-- The call that a saved offer is replayed as -/
def parseOffer (body : Option Json) : Except Error Call := do
  let contract ← getStr body "contract"
  let offer ← parsePoint (getSub body "offer")
  return .market (.offer contract offer)

/-- The call that saved levels are replayed as -/
def parseL2 (body : Option Json) : Except Error Call := do
  let contract ← getStr body "contract"
  let bids ← (← getArr body "bid").mapM fun bid => parsePoint (some bid)
  let offers ← (← getArr body "offer").mapM fun offer => parsePoint (some offer)
  let time ← getStr body "time"
  return .market (.l2 contract bids offers time)

/-- The call that a saved contract is replayed as -/
def parseContract (body : Option Json) : Except Error Call := do
  let name ← getStr body "name"
  let tickSize ← getStr body "tick_size"
  let tickValue ← getStr body "tick_value"
  let yesterdayClosePrice ← getStr body "yesterday_close_price"
  let upperLimit ← getStr body "upper_limit"
  let lowerLimit ← getStr body "lower_limit"
  return .contractDefinition name tickSize tickValue yesterdayClosePrice upperLimit lowerLimit

/-- The call that a saved turnover is replayed as -/
def parseTurnover (body : Option Json) : Except Error Call := do
  let contract ← getStr body "contract"
  let totalVolume ← getInt body "total_volume"
  let turnover ← getDouble body "turnover"
  return .market (.turnover contract totalVolume.toUInt64 turnover)

/-- `Consume`: the volume multiple, which goes with an L2, and the call, if there is one -/
def consume (message : Json) : Except Error (Int32 × Option Call) := do
  let type ← getStr (some message) "type"
  let _ ← getStr (some message) "insertTime"
  let volumeMultiple ← getInt32 (some message) "VolumeMultiple"
  let body := getSub (some message) "message"
  let call ← match type with
    | "trade" => some <$> parseTrade body
    | "bbo" => some <$> parseBbo body
    | "bid" => some <$> parseBid body
    | "offer" => some <$> parseOffer body
    | "l2" => some <$> parseL2 body
    | "contract" => some <$> parseContract body
    | "turnover" => some <$> parseTurnover body
    | _ => pure none
  return (volumeMultiple, call)

end FixHandler.Tmalpha.ReplayDataConsumer
