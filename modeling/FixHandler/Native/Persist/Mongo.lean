import Mathlib
import FixHandler.Native.Persist.Json

/-!
# Reading from the database

The queries of `core/persist/mongo.cc`, the two providers that use them
(`core/persist/market_data_provider.h` and `tmalpha/replay/replay_data_provider.h`), and the
loop in which `Read` of `tmalpha/replay/replay_simulater.cc` and
`tmalpha/market/market_simulater.cc` fetches the messages. The database itself is a parameter.
-/

namespace FixHandler.Persist

open Cxx (Exception)

/-- A record of the market data, with the fields that are asked for. -/
structure Record where
  /-- the number that `insertTime` shows -/
  time : Nat
  sendingTimeStr : String := ""
  market : String := ""
  /-- `message.contract` -/
  contract : String := ""
deriving DecidableEq, Repr

/-- Times are stored as `std::to_string` writes them. -/
def Record.insertTime (r : Record) : String := r.time.repr

/-- A row of the contracts of a market. -/
structure ContractInfo where
  instrumentID : String
  volumeMultiple : Option String := none
deriving DecidableEq, Repr

/-- The two queries that are put to the database -/
structure Database where
  /-- the records that meet a condition, in the order of `insertTime`, up to a limit -/
  find : (Record → Bool) → Nat → List Record
  /-- the rows of some contracts in the order of `insertTime`, if the market has any saved -/
  findContracts : Option (List String → List ContractInfo) := none

/-- A message that is given to the reader. -/
structure Document where
  record : Record
  volumeMultiple : Option String := none
deriving DecidableEq, Repr

/-- A stored document with the `VolumeMultiple` of its contract -/
def addVolumeMultiple (volumeMultiple : String) : Json → Json
  | .document fields => .document (fields ++ [("VolumeMultiple", .utf8 volumeMultiple)])
  | json => json

/-- What is given to the reader, where `json` is what is stored as the record -/
def Document.message (d : Document) (json : Json) : Json :=
  match d.volumeMultiple with
  | none => json
  | some volumeMultiple => addVolumeMultiple volumeMultiple json

/-- `Query_contracts`: the row that was inserted last counts. -/
def queryContracts (found : List ContractInfo) : Std.TreeMap String String :=
  found.foldl (fun result doc => result.insert doc.instrumentID (doc.volumeMultiple.getD "0")) ∅

/-- `Query` by collection -/
def queryCollection (db : Database) (pageSize : UInt32) (startDateInclude endDateExclude : String)
    (prevLastRecordInsertTime : UInt64) : List Document :=
  (db.find (fun r => decide (startDateInclude ≤ r.sendingTimeStr) &&
      decide (r.sendingTimeStr < endDateExclude) &&
      decide (prevLastRecordInsertTime.toNat.repr < r.insertTime)) pageSize.toNat).map
    fun r => { record := r }

/-- `Query` by market: all contracts where none is given. The records get the `VolumeMultiple`
    of their contracts if the market has contracts saved. -/
def queryMarket (db : Database) (pageSize : UInt32) (market : String) (contracts : List String)
    (startDateInclude endDateExclude : String) (prevLastRecordInsertTime : UInt64) :
    List Document :=
  let cursor := db.find (fun r => decide (startDateInclude ≤ r.sendingTimeStr) &&
      decide (r.sendingTimeStr < endDateExclude) && r.market == market &&
      (contracts.isEmpty || contracts.contains r.contract) &&
      decide (prevLastRecordInsertTime.toNat.repr < r.insertTime)) pageSize.toNat
  match db.findContracts with
  | none => cursor.map fun r => { record := r }
  | some findContracts =>
    let contractInfos := queryContracts (findContracts (cursor.map (·.contract)).dedup)
    cursor.map fun r => { record := r, volumeMultiple := some (contractInfos[r.contract]?.getD "0") }

/-- A `DataProvider` with its range -/
inductive Provider where
  /-- `MarketDataProvider` -/
  | market (startDateInclude endDateExclude : String)
  /-- `ReplayDataProvider` -/
  | replay (market : String) (contracts : List String) (startDateInclude endDateExclude : String)
deriving DecidableEq, Repr

/-- The page behind a time -/
def Provider.query (db : Database) (pageSize : UInt32) (provider : Provider)
    (prevLastRecordInsertTime : UInt64) : List Document :=
  match provider with
  | .market startDateInclude endDateExclude =>
    queryCollection db pageSize startDateInclude endDateExclude prevLastRecordInsertTime
  | .replay market' contracts startDateInclude endDateExclude =>
    queryMarket db pageSize market' contracts startDateInclude endDateExclude
      prevLastRecordInsertTime

/-- `Message_identify` -/
def messageIdentify (message : Document) : Except Exception UInt64 :=
  (Cxx.stol message.record.insertTime).map Int64.toUInt64

/-- What `Read` fetches in turns until it finds nothing more; nothing if it has not come to
    this end yet, or if the time of a message cannot be read. -/
def readFrom (db : Database) (pageSize : UInt32) (provider : Provider) :
    Nat → UInt64 → Option (List (List Document))
  | 0, _ => none
  | fuel + 1, lastMessage =>
    let messages := provider.query db pageSize lastMessage
    match messages.getLast? with
    | none => some []
    | some back =>
      match messageIdentify back with
      | .error _ => none
      | .ok lastMessage => (readFrom db pageSize provider fuel lastMessage).map (messages :: ·)

end FixHandler.Persist
