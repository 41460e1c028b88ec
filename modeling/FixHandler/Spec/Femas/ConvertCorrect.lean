import Mathlib
import FixHandler.Native.Femas.BookConvert
import FixHandler.Spec.Tmalpha.StorageCorrect

/-!
# Storing and replaying the FEMAS feed

What `FemasBookConvert` makes of the stored records, ordered by its `insertTime` and consumed, is what
was sent live for them, as long as no volume is negative: a volume is stored as `std::uint64_t` and
read as `long`.

## Key results

- `femasmarketData_body`: what is sent for a stored record
- `replays_iff_volumes`: the streams that are reproduced from their documents
-/

namespace FixHandler.Femas

open Cxx (Float64)
open Json (getSub getStr getChar getStr_eq getInt32_eq getDouble_eq)
open Market (Message BookConvert Published TradeMap)

namespace BookConvert

/-- Every field of the record is written under its name. -/
theorem getSub_body (d : DepthMarketDataField Float64) :
    ∀ field ∈ d.fields, getSub (some (MarketManager.body d)) field.1 = some field.2 :=
  Market.getSub_fields d.toDepth (by simp [Market.Depth.fields])

/-- A record is read back, but for the digits of its doubles, and for `ArbiType`: of its number only
    the first character is read. -/
theorem readMarketData_body (d : DepthMarketDataField Float64) :
    ∃ d', readMarketData (some (MarketManager.body d)) = .ok d' ∧
      d'.toDepth = d.map Float64.shown ∧ d'.actionDay = d.actionDay := by
  -- the arbitrage type is read as the first character of a number, which is never empty
  have harbiType : ∃ c, getChar (some (MarketManager.body d)) "ArbiType" = .ok c := by
    have hne : (toString d.arbiType.toInt).toList ≠ [] := by
      cases d.arbiType.toInt with
      | ofNat n => exact Cxx.Text.repr_ne_nil n
      | negSucc n =>
        rw [show toString (Int.negSucc n) = "-" ++ (n + 1).repr from rfl, String.toList_append]
        exact List.cons_ne_nil _ _
    unfold getChar
    rw [getStr_eq (t := toString d.arbiType.toInt) rfl, Except.ok_bind]
    cases htext : (toString d.arbiType.toInt).toList with
    | nil => exact absurd htext hne
    | cons c rest => exact ⟨_, rfl⟩
  obtain ⟨c, hc⟩ := harbiType
  -- the fields in the order in which they are read
  unfold readMarketData
  rw [getStr_eq (t := d.instrumentID) rfl, Except.ok_bind,
    getStr_eq (t := d.tradingDay) rfl, Except.ok_bind,
    getStr_eq (t := d.settlementGroupID) rfl, Except.ok_bind,
    getInt32_eq (n := d.settlementID) rfl, Except.ok_bind,
    Market.readDepth_eq (getSub_body d), Except.ok_bind,
    getStr_eq (t := d.actionDay) rfl, Except.ok_bind,
    getDouble_eq (x := d.hisHighestPrice) rfl, Except.ok_bind,
    getDouble_eq (x := d.hisLowestPrice) rfl, Except.ok_bind,
    getInt32_eq (n := d.latestVolume) rfl, Except.ok_bind,
    getInt32_eq (n := d.initVolume) rfl, Except.ok_bind,
    getInt32_eq (n := d.changeVolume) rfl, Except.ok_bind,
    getInt32_eq (n := d.bidImplyVolume) rfl, Except.ok_bind,
    getInt32_eq (n := d.askImplyVolume) rfl, Except.ok_bind,
    getDouble_eq (x := d.avgPrice) rfl, Except.ok_bind, hc, Except.ok_bind,
    getInt32_eq (n := d.totalBidVolume) rfl, Except.ok_bind,
    getInt32_eq (n := d.totalAskVolume) rfl, Except.ok_bind,
    getStr_eq (t := d.instrumentID_1) rfl, Except.ok_bind,
    getStr_eq (t := d.instrumentID_2) rfl, Except.ok_bind,
    getStr_eq (t := d.instrumentName) rfl, Except.ok_bind]
  exact ⟨_, rfl, rfl, rfl⟩

/-- No price of decimals is cut to `DBL_MAX`. -/
theorem femasmarketData_body {d : DepthMarketDataField Float64} (hd : d.DecimalPrices)
    (str2stmp : String → UInt64) (trademap : TradeMap) :
    femasmarketData str2stmp trademap (some (MarketManager.body d)) =
      .ok ((BookManager.sendFemasmarketData str2stmp trademap d).1.map (·.map Float64.shown),
        (BookManager.sendFemasmarketData str2stmp trademap d).2) := by
  obtain ⟨d', hread, hdepth, hday⟩ := readMarketData_body d
  unfold femasmarketData BookManager.sendFemasmarketData
  rw [hread, Except.ok_bind, hdepth, hday]
  exact congrArg Except.ok (Market.Depth.send_map
    (fun price hprice => by rw [(hd price (List.mem_cons_of_mem _ hprice)).shown]) _ trademap)

/-! ## A stream -/

open Tmalpha.ReplayDataConsumer (Replays replays_iff convertAll_rows)

/-- A stream is reproduced: its records are converted without an exception, and their documents are
    replayed to what was sent live. -/
def Reproduced (str2stmp : String → UInt64) (clock : Nat → Nat) (converter : BookConvert)
    (stream : List (Published (DepthMarketDataField Float64))) : Prop :=
  ∃ results, Market.convertAll (convert str2stmp clock) converter
      (stream.map (MarketManager.structToJSON str2stmp)) = .ok results ∧
    Replays (results.flatten.map (·.2))
      (Market.sendAll (BookManager.sendFemasmarketData str2stmp) converter.trademap
        (stream.map (·.record))).flatten

/-- A record with few digits is converted to the documents of its messages. -/
theorem convert_structToJSON {p : Published (DepthMarketDataField Float64)}
    (hd : p.record.DecimalPrices) (hturnover : p.record.turnover.IsDecimal)
    (str2stmp : String → UInt64) (clock : Nat → Nat) (converter : BookConvert) :
    convert str2stmp clock converter (MarketManager.structToJSON str2stmp p) = .ok
      (Market.BookConvert.documents "FEMAS"
        (Market.getUpdateTimeInt str2stmp p.record.actionDay p.record.updateTime
          p.record.updateMillisec).toNat.repr
        (MarketManager.getUpdateTimeStr p.record) clock converter.readings
        ((BookManager.sendFemasmarketData str2stmp converter.trademap p.record).1.map Market.render),
      { trademap := (BookManager.sendFemasmarketData str2stmp converter.trademap p.record).2
        readings := converter.readings +
          (BookManager.sendFemasmarketData str2stmp converter.trademap p.record).1.length }) := by
  exact Market.convert_send_decimals hd hturnover _
    (femasmarketData_body hd str2stmp converter.trademap) _ _ _ _ _ _

/-- A stream is reproduced if all sizes that are sent live can be read. -/
theorem reproduced_iff_small (str2stmp : String → UInt64) {clock : Nat → Nat}
    (hclock : StrictMono clock) (converter : BookConvert)
    {stream : List (Published (DepthMarketDataField Float64))}
    (hprices : ∀ p ∈ stream, p.record.DecimalPrices)
    (hturnover : ∀ p ∈ stream, p.record.turnover.IsDecimal) :
    Reproduced str2stmp clock converter stream ↔
      ∀ m ∈ (Market.sendAll (BookManager.sendFemasmarketData str2stmp) converter.trademap
        (stream.map (·.record))).flatten, m.Small := by
  obtain ⟨results, rows, hresults, hdocuments, hmessages, htimes⟩ := convertAll_rows
    (fun p hp converter => ⟨_, _, convert_structToJSON (hprices p hp) (hturnover p hp) str2stmp clock
      converter⟩) converter
  -- the clock rises, so the documents are stored in the order of their messages
  have hascending : (rows.map (·.time)).Pairwise (· < ·) := by
    rw [htimes, List.pairwise_map]
    exact (List.pairwise_lt_range' ..).imp fun h => hclock h
  -- the prices of every message have few digits
  have hrows : ∀ row ∈ rows, row.message.map Float64.shown = row.message := by
    intro row hrow
    have hm := List.mem_map_of_mem (f := (·.message)) hrow
    rw [hmessages] at hm
    obtain ⟨p, hp, trademap, hsent⟩ := Market.exists_of_mem_live hm
    exact Market.Depth.map_shown_of_mem_send (hprices p hp) (hturnover p hp) hsent
  unfold Reproduced
  rw [← hmessages, List.forall_mem_map, ← replays_iff hascending hrows, ← hdocuments, hresults]
  exact ⟨fun ⟨_, h, hreplays⟩ => Except.ok.inj h ▸ hreplays, fun h => ⟨results, rfl, h⟩⟩

/-- The turnover of a record is sent with its volume. -/
theorem volume_nonneg_of_small {str2stmp : String → UInt64} {trademap : TradeMap}
    {stream : List (Published (DepthMarketDataField Float64))}
    (hsmall : ∀ m ∈ (Market.sendAll (BookManager.sendFemasmarketData str2stmp) trademap
      (stream.map (·.record))).flatten, m.Small) : ∀ p ∈ stream, 0 ≤ p.record.volume := by
  intro p hp
  obtain ⟨trademap', hmem⟩ : ∃ trademap',
      (BookManager.sendFemasmarketData str2stmp trademap' p.record).1 ∈
        Market.sendAll (BookManager.sendFemasmarketData str2stmp) trademap
          (stream.map (·.record)) :=
    Market.exists_mem_sendAll _ _ (List.mem_map_of_mem hp)
  have hturnover := hsmall _ (List.mem_flatten.mpr
    ⟨_, hmem, Market.Depth.turnover_mem_send p.record.toDepth _ trademap'⟩)
  exact Market.toNat_toSize_lt_iff.mp (hturnover _ List.mem_cons_self)

/-- The streams that are reproduced: their volumes can be read as they are written. -/
theorem reproduced_iff (str2stmp : String → UInt64) {clock : Nat → Nat} (hclock : StrictMono clock)
    (converter : BookConvert) {stream : List (Published (DepthMarketDataField Float64))}
    (hprices : ∀ p ∈ stream, p.record.DecimalPrices)
    (hturnover : ∀ p ∈ stream, p.record.turnover.IsDecimal) :
    Reproduced str2stmp clock converter stream ↔ ∀ p ∈ stream, 0 ≤ p.record.volume := by
  rw [reproduced_iff_small str2stmp hclock converter hprices hturnover]
  constructor
  · exact volume_nonneg_of_small
  · intro hvolume m hm
    obtain ⟨p, hp, trademap, hsent⟩ := Market.exists_of_mem_live hm
    exact Market.Depth.small_of_mem_send (hvolume p hp) hsent

/-- A record with both sides -/
private def quoted (volume : Int32) : Published (DepthMarketDataField Float64) where
  record := { (default : DepthMarketDataField Float64) with
    instrumentID := "IC1809"
    actionDay := "20180903"
    updateTime := "10:15:00"
    lastPrice := .ofMillionths 4810200000
    volume
    turnover := .ofMillionths 9620400500000
    bidPrice1 := .ofMillionths 4810000000
    bidVolume1 := 2
    askPrice1 := .ofMillionths 4810400000
    askVolume1 := 1
    bidPrice2 := Cxx.Double.dblMax }
  insertTime := 1535940900000000000
  receivedTime := 1535940900000000001

/-- All prices of the sample have few digits. -/
private theorem decimalPrices_quoted (volume : Int32) : (quoted volume).record.DecimalPrices := by
  intro price hprice
  simp only [Market.Depth.prices, List.mem_cons, List.not_mem_nil, or_false] at hprice
  rcases hprice with rfl | rfl | rfl | rfl | rfl | rfl | rfl | rfl | rfl | rfl | rfl
  · exact Float64.isDecimal_ofMillionths 4810200000
  · exact Float64.isDecimal_ofMillionths 4810000000
  · exact Float64.isDecimal_ofMillionths 4810400000
  · exact Float64.isDecimal_dblMax
  all_goals exact Float64.isDecimal_default

/-- The turnover of the sample has few digits. -/
private theorem isDecimal_turnover_quoted (volume : Int32) :
    (quoted volume).record.turnover.IsDecimal :=
  Float64.isDecimal_ofMillionths 9620400500000

/-- The second record comes with a trade. -/
theorem reproduced_iff_quoted :
    Reproduced (fun _ => 0) id {} [quoted 100, quoted 103] ↔
      ∀ p ∈ [quoted 100, quoted 103], 0 ≤ p.record.volume :=
  reproduced_iff (fun _ => 0) strictMono_id {} (fun p hp => by
    simp only [List.mem_cons, List.not_mem_nil, or_false] at hp
    rcases hp with rfl | rfl
    · exact decimalPrices_quoted 100
    · exact decimalPrices_quoted 103) fun p hp => by
    simp only [List.mem_cons, List.not_mem_nil, or_false] at hp
    rcases hp with rfl | rfl
    · exact isDecimal_turnover_quoted 100
    · exact isDecimal_turnover_quoted 103

/-- A negative volume is written as a number that is no `long`. -/
theorem not_reproduced_negative : ¬ Reproduced (fun _ => 0) id {} [quoted (-1)] := by
  rw [reproduced_iff_small (fun _ => 0) strictMono_id {} (fun p hp => by
    rw [List.mem_singleton.mp hp]
    exact decimalPrices_quoted (-1)) fun p hp => by
    rw [List.mem_singleton.mp hp]
    exact isDecimal_turnover_quoted (-1)]
  intro hsmall
  have hvolume := volume_nonneg_of_small hsmall (quoted (-1)) List.mem_cons_self
  exact absurd (show (0 : Int32) ≤ -1 from hvolume) (by decide)

end BookConvert

end FixHandler.Femas
