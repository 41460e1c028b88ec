import Mathlib
import FixHandler.ForStd.TreeMap
import FixHandler.Native.Persist.Mongo
import FixHandler.Native.Ctp.BookConvert
import FixHandler.Spec.Femas.ConvertCorrect

/-!
# The messages that a query returns

The consumer asks each message for the `VolumeMultiple` of its contract. A query adds it, from the row
of the contract that was inserted last, if the market has contracts saved; if it has none, the
documents are returned as they are stored, and the consumer reads none of them.

## Key results

- `volumeMultiple_of_mem_queryMarket`: the `VolumeMultiple` that is added
- `Produced.exists_document`: what the converters of FEMAS and CTP store
- `consumed_iff`: the messages that are consumed with the multiple of their contract
-/

namespace FixHandler.Persist

open Cxx (Float64)
open Json (Error getSub getStr)
open Market (Message BookConvert render)
open Tmalpha.ReplayDataConsumer (consume consume_document Call)

/-! ## The contracts of a market -/

/-- The `VolumeMultiple` of the row of a contract that was inserted last, `0` if there is none -/
def lastMultiple (rows : List ContractInfo) (contract : String) : String :=
  ((rows.filter (·.instrumentID = contract)).getLast?.map (·.volumeMultiple.getD "0")).getD "0"

/-- The database answers with the rows of the contracts that are asked for, in the order in which they
    were inserted, if the market has contracts saved. -/
def Database.SavesContracts (db : Database) (contents : Option (List ContractInfo)) : Prop :=
  db.findContracts = contents.map fun rows ids => rows.filter fun row => ids.contains row.instrumentID

/-- The multiple of a contract is that of the last row for it. -/
theorem getElem?_queryContracts (found : List ContractInfo) (contract : String) :
    (queryContracts found)[contract]? =
      (found.filter (·.instrumentID = contract)).getLast?.map (·.volumeMultiple.getD "0") :=
  Std.TreeMap.getElem?_foldl_insert _ _ found contract

/-- The rows of the contract of a document that is found are among those that are asked for. -/
theorem volumeMultiple_of_mem_queryMarket {db : Database} {contents : Option (List ContractInfo)}
    (hcontents : db.SavesContracts contents) {pageSize : UInt32} {market : String}
    {contracts : List String} {startDateInclude endDateExclude : String}
    {prevLastRecordInsertTime : UInt64} {d : Document}
    (hd : d ∈ queryMarket db pageSize market contracts startDateInclude endDateExclude
      prevLastRecordInsertTime) :
    d.volumeMultiple = contents.map (lastMultiple · d.record.contract) := by
  unfold queryMarket at hd
  generalize db.find _ pageSize.toNat = cursor at hd
  rw [hcontents] at hd
  cases contents with
  | none =>
    obtain ⟨r, -, rfl⟩ := List.mem_map.mp hd
    rfl
  | some rows =>
    obtain ⟨r, hr, rfl⟩ := List.mem_map.mp hd
    -- the contracts asked for are those of the page, so the rows of this one are all there
    have hrows : (rows.filter fun row => (cursor.map (·.contract)).dedup.contains
        row.instrumentID).filter (·.instrumentID = r.contract) =
        rows.filter (·.instrumentID = r.contract) := by
      rw [List.filter_filter]
      refine List.filter_congr fun row _ => ?_
      by_cases hrow : row.instrumentID = r.contract
      · have hasked : r.contract ∈ (cursor.map (·.contract)).dedup :=
          List.mem_dedup.mpr (List.mem_map_of_mem hr)
        simp [hrow, List.mem_dedup.mp hasked]
      · simp [hrow]
    rw [getElem?_queryContracts, hrows]
    rfl

/-! ## What the converters store -/

/-- A document that a converter of FEMAS or CTP has made, in any state and of any message -/
def Produced (json : Json) : Prop :=
  ∃ (str2stmp : String → UInt64) (clock : Nat → Nat) (converter : BookConvert) (message : Json),
    ∃ entries converter', (Femas.BookConvert.convert str2stmp clock converter message =
        .ok (entries, converter') ∨
      Ctp.BookConvert.convert str2stmp clock converter message = .ok (entries, converter')) ∧
      json ∈ entries.map (·.2)

/-- It is the document of a message that is sent for some record. -/
theorem Produced.exists_document {json : Json} (h : Produced json) :
    ∃ (market insertTime sendingTime sendingTimeStr : String) (m : Message Float64),
      json = BookConvert.document market (render m).1 insertTime sendingTime sendingTimeStr
        (render m).2 ∧
      ∃ (d : Market.Depth Float64) (time : String) (trademap : Market.TradeMap),
        m ∈ (d.send time trademap).1 := by
  obtain ⟨str2stmp, clock, converter, message, entries, converter', hconvert, hjson⟩ := h
  obtain ⟨entry, hentry, rfl⟩ := List.mem_map.mp hjson
  -- the documents are those of the messages sent for the record
  have hsent {market : String} {d : Market.Depth Float64} {time sendingTime sendingTimeStr : String}
      (hentries : entries = BookConvert.documents market sendingTime sendingTimeStr clock
        converter.readings ((d.send time converter.trademap).1.foldl
          Market.ConvertListener.on {}).bodies) :
      ∃ (market insertTime sendingTime sendingTimeStr : String) (m : Message Float64),
        entry.2 = BookConvert.document market (render m).1 insertTime sendingTime sendingTimeStr
          (render m).2 ∧
        ∃ (d : Market.Depth Float64) (time : String) (trademap : Market.TradeMap),
          m ∈ (d.send time trademap).1 := by
    rw [Market.bodies_send] at hentries
    obtain ⟨insertTime, body, hbody, rfl⟩ := Market.mem_documents (hentries ▸ hentry)
    obtain ⟨m, hm, rfl⟩ := List.mem_map.mp hbody
    exact ⟨_, _, _, _, m, rfl, d, time, _, hm⟩
  -- both converters send a depth
  rcases hconvert with hconvert | hconvert
  · obtain ⟨body, messages, trademap, _, _, hmessages, hentries⟩ := Market.convert_eq_ok hconvert
    obtain ⟨d, -, hsend⟩ := Except.bind_eq_ok.mp hmessages
    obtain ⟨rfl, -⟩ := Prod.mk.inj (Except.ok.inj hsend)
    exact hsent hentries
  · obtain ⟨body, messages, trademap, _, _, hmessages, hentries⟩ := Market.convert_eq_ok hconvert
    obtain ⟨d, -, hsend⟩ := Except.bind_eq_ok.mp hmessages
    obtain ⟨rfl, -⟩ := Prod.mk.inj (Except.ok.inj hsend)
    exact hsent hentries

/-- Only a volume is a size that is not read. -/
theorem small_iff_of_mem_send {d : Market.Depth Float64} {time : String} {trademap : Market.TradeMap}
    {m : Message Float64} (hm : m ∈ (d.send time trademap).1) :
    m.Small ↔ ∀ n : Nat, getStr (some (render m).2) "total_volume" = .ok n.repr → n < 2 ^ 63 := by
  cases m with
  | turnover contract totalVolume turnover =>
    have htext : getStr (some (render (.turnover contract totalVolume turnover)).2) "total_volume" =
      .ok totalVolume.toNat.repr := rfl
    simp only [htext, Except.ok.injEq, Nat.repr_inj, forall_eq']
    exact ⟨fun h => h _ List.mem_cons_self, fun h size hsize => List.mem_singleton.mp hsize ▸ h⟩
  | _ =>
    exact ⟨fun _ n h => (nomatch h),
      fun _ => Market.Depth.small_of_mem_send_of_turnover hm fun _ _ _ h => (nomatch h)⟩

/-! ## Consuming -/

/-- A message is consumed, and the multiple is the one of its contract. -/
def Consumed (contents : Option (List ContractInfo)) (message : Json) : Prop :=
  ∃ multiple call contract value, consume message = .ok (multiple, some call) ∧
    getStr (getSub (some message) "message") "contract" = .ok contract ∧
    Cxx.stol (lastMultiple (contents.getD []) contract) = .ok value ∧ multiple.toInt = value.toInt

/-- A `long` is an `int` if it is in the range of `int`. -/
theorem toInt_toInt32_eq_iff (value : Int64) :
    value.toInt32.toInt = value.toInt ↔ -2 ^ 31 ≤ value.toInt ∧ value.toInt < 2 ^ 31 := by
  rw [Int64.toInt_toInt32, Int.bmod_def]
  split <;> omega

/-- The messages that are consumed: the market has contracts saved, the multiple of the contract is an
    `int`, and the volume, if there is one, is a `long`. -/
theorem consumed_iff {db : Database} {contents : Option (List ContractInfo)}
    (hcontents : db.SavesContracts contents) {pageSize : UInt32} {market : String}
    {contracts : List String} {startDateInclude endDateExclude : String}
    {prevLastRecordInsertTime : UInt64} {d : Document}
    (hd : d ∈ queryMarket db pageSize market contracts startDateInclude endDateExclude
      prevLastRecordInsertTime)
    {json : Json} (hjson : Produced json)
    (hcontract : getStr (getSub (some json) "message") "contract" = .ok d.record.contract) :
    Consumed contents (d.message json) ↔ contents.isSome ∧
      (∃ value, Cxx.stol (lastMultiple (contents.getD []) d.record.contract) = .ok value ∧
        -2 ^ 31 ≤ value.toInt ∧ value.toInt < 2 ^ 31) ∧
      ∀ n : Nat, getStr (getSub (some json) "message") "total_volume" = .ok n.repr → n < 2 ^ 63 := by
  obtain ⟨market', insertTime, sendingTime, sendingTimeStr, m, rfl, record, time, trademap, hm⟩ :=
    hjson.exists_document
  have hvolume := volumeMultiple_of_mem_queryMarket hcontents hd
  have hbody : getSub (some (BookConvert.document market' (render m).1 insertTime sendingTime
    sendingTimeStr (render m).2)) "message" = some (render m).2 := rfl
  rw [hbody] at hcontract ⊢
  rw [← small_iff_of_mem_send hm, Document.message, hvolume]
  cases contents with
  | none =>
    -- without a collection of contracts no multiple is added, and reading it throws
    refine ⟨fun ⟨multiple, call, _, _, hconsume, _⟩ => ?_, fun h => nomatch h.1⟩
    exact nomatch hconsume
  | some rows =>
    show Consumed (some rows) (addVolumeMultiple (lastMultiple rows d.record.contract) _) ↔ _
    unfold Consumed
    -- the multiple is added beside the message, which stays as it is
    have hbody' : getSub (some (addVolumeMultiple (lastMultiple rows d.record.contract)
        (BookConvert.document market' (render m).1 insertTime sendingTime sendingTimeStr
          (render m).2))) "message" = some (render m).2 := rfl
    rw [consume_document, hbody', hcontract]
    simp only [Option.getD_some, Option.isSome_some, true_and]
    constructor
    · -- the multiple is cut to 32 bits, which keeps it when it fits
      rintro ⟨multiple, call, _, value, hconsume, ⟨⟩, hvalue, hmultiple⟩
      rw [hvalue, Except.mapError, Except.ok_bind] at hconsume
      split at hconsume
      · next hsmall =>
        obtain ⟨rfl, -⟩ := Prod.mk.inj (Except.ok.inj hconsume)
        exact ⟨⟨value, hvalue, (toInt_toInt32_eq_iff value).mp hmultiple⟩, hsmall⟩
      · exact nomatch hconsume
    · rintro ⟨⟨value, hvalue, hrange⟩, hsmall⟩
      rw [hvalue, Except.mapError, Except.ok_bind, if_pos hsmall]
      exact ⟨_, _, _, value, rfl, rfl, hvalue, (toInt_toInt32_eq_iff value).mpr hrange⟩

/-! ## A market -/

/-- A record without levels -/
private def sent : Market.Published (Femas.DepthMarketDataField Float64) where
  record := { (default : Femas.DepthMarketDataField Float64) with
    instrumentID := "IC1809"
    actionDay := "20180903"
    updateTime := "10:15:00"
    volume := 7 }
  insertTime := 1535940900000000000
  receivedTime := 1535940900000000001

/-- The document of its turnover -/
private def turnoverJson : Json :=
  BookConvert.document "FEMAS" "turnover" (1535940900000000002).repr
    (Market.getUpdateTimeInt (fun _ => 1535940900) "20180903" "10:15:00" 0).toNat.repr
    (Femas.MarketManager.getUpdateTimeStr sent.record)
    (.document [("contract", .utf8 "IC1809"), ("total_volume", .uint64 7),
      ("turnover", .double sent.record.turnover)])

/-- The sample is made by the converter of CTP. -/
private theorem produced_turnoverJson : Produced turnoverJson := by
  have hprices : sent.record.DecimalPrices := by
    intro price hprice
    simp only [Market.Depth.prices, List.mem_cons, List.not_mem_nil, or_false] at hprice
    rcases hprice with rfl | rfl | rfl | rfl | rfl | rfl | rfl | rfl | rfl | rfl | rfl
    all_goals exact Float64.isDecimal_default
  have hsent : (Femas.BookManager.sendFemasmarketData (fun _ => 1535940900) ∅ sent.record).1 =
      [.turnover "IC1809" 7 sent.record.turnover, .l2 "IC1809" [] [] "1535940900000000000"] := by
    decide +kernel
  refine ⟨fun _ => 1535940900, fun n => 1535940900000000002 + n, {},
    Femas.MarketManager.structToJSON (fun _ => 1535940900) sent, _, _,
    .inl (Femas.BookConvert.convert_structToJSON hprices Float64.isDecimal_default _ _ _), ?_⟩
  rw [hsent]
  exact List.mem_cons_self

/-- A record of the database -/
private def stored : Record where
  time := 1535940900000000002
  sendingTimeStr := "2018-09-03 10:15:00.000000"
  market := "FEMAS"
  contract := "IC1809"

/-- A database with one record, and the contracts of its market -/
private def saved (contents : Option (List ContractInfo)) : Database where
  find condition limit := ([stored].filter condition).take limit
  findContracts := contents.map fun rows ids => rows.filter fun row => ids.contains row.instrumentID

/-- A contract that was saved with two multiples -/
private def savedTwice : List ContractInfo :=
  [{ instrumentID := "IC1809", volumeMultiple := some "200" },
    { instrumentID := "IC1809", volumeMultiple := some "300" }]

/-- The record with the later multiple -/
private def found : Document := { record := stored, volumeMultiple := some "300" }

/-- The contract was saved twice. -/
theorem consumed_iff_twice :
    Consumed (some savedTwice) (found.message turnoverJson) ↔ (some savedTwice).isSome ∧
      (∃ value, Cxx.stol (lastMultiple ((some savedTwice).getD []) found.record.contract) = .ok value ∧
        -2 ^ 31 ≤ value.toInt ∧ value.toInt < 2 ^ 31) ∧
      ∀ n : Nat, getStr (getSub (some turnoverJson) "message") "total_volume" = .ok n.repr →
        n < 2 ^ 63 := by
  have hcontents : (saved (some savedTwice)).SavesContracts (some savedTwice) := rfl
  have hfound : found ∈ queryMarket (saved (some savedTwice)) 1000 "FEMAS" [] "2018-09-03"
    "2018-09-04" 0 := by decide +kernel
  exact consumed_iff hcontents hfound produced_turnoverJson rfl

/-- The record without a multiple -/
private def bare : Document := { record := stored }

/-- A market without saved contracts: its documents are returned without a `VolumeMultiple`. -/
theorem not_consumed_unsaved :
    bare ∈ queryMarket (saved none) 1000 "FEMAS" [] "2018-09-03" "2018-09-04" 0 ∧
      Produced turnoverJson ∧
      getStr (getSub (some turnoverJson) "message") "contract" = .ok bare.record.contract ∧
      ¬ Consumed none (bare.message turnoverJson) :=
  ⟨by decide +kernel, produced_turnoverJson, rfl, fun ⟨_, _, _, _, hconsume, _⟩ => nomatch hconsume⟩

end FixHandler.Persist
