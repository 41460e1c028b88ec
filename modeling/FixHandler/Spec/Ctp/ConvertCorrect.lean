import Mathlib
import FixHandler.Native.Ctp.BookConvert
import FixHandler.Spec.Market.ConvertCorrect

/-!
# The converter of CTP

What `CtpBookConvert` makes of the stored records says what was sent live for them.

## Key results

- `readMarketData_body`: a record is read back, but for the digits of its doubles
- `documents_say_depth_market_data`: over a whole stream, record by record and message by message
-/

namespace FixHandler.Ctp

open Cxx (Float64)
open Json (getSub getStr_eq)
open Market (BookConvert Published)

namespace BookConvert

/-- Every field of the record is written under its name. -/
theorem getSub_body (d : DepthMarketDataField Float64) :
    ∀ field ∈ d.fields, getSub (some (CustomMdSpi.body d)) field.1 = some field.2 :=
  Market.getSub_fields d.toDepth (by simp [Market.Depth.fields])

/-- A record is read back, but for the digits of its doubles. -/
theorem readMarketData_body (d : DepthMarketDataField Float64) :
    readMarketData (some (CustomMdSpi.body d)) =
      .ok { toDepth := d.map Float64.shown, actionDay := d.actionDay } := by
  unfold readMarketData
  rw [getStr_eq (t := d.instrumentID) rfl, Except.ok_bind,
    getStr_eq (t := d.tradingDay) rfl, Except.ok_bind,
    Market.readDepth_eq (getSub_body d), Except.ok_bind,
    getStr_eq (t := d.actionDay) rfl, Except.ok_bind]
  rfl

/-- No price of decimals is cut to `DBL_MAX`. -/
theorem ctpMarketData_body {d : DepthMarketDataField Float64} (hd : d.DecimalPrices)
    (str2stmp : String → UInt64) (trademap : Market.TradeMap) :
    ctpMarketData str2stmp trademap (some (CustomMdSpi.body d)) =
      .ok ((CustomMdSpi.sendDepthMarketData str2stmp trademap d).1.map (·.map Float64.shown),
        (CustomMdSpi.sendDepthMarketData str2stmp trademap d).2) := by
  unfold ctpMarketData
  rw [readMarketData_body, Except.ok_bind]
  exact congrArg Except.ok (Market.Depth.send_map
    (fun price hprice => by rw [(hd price (List.mem_cons_of_mem _ hprice)).shown]) _ trademap)

/-- The documents that a converter makes of the stored records of a stream say, record by record, what
    was sent live: the same kinds of messages with the same contracts, prices, sizes and volumes. -/
theorem documents_say_depth_market_data (str2stmp : String → UInt64) (clock : Nat → Nat)
    (converter : BookConvert) {stream : List (Published (DepthMarketDataField Float64))}
    (hprices : ∀ p ∈ stream, p.record.DecimalPrices) :
    ∃ results, Market.convertAll (convert str2stmp clock) converter
        (stream.map (CustomMdSpi.structToJSON str2stmp)) = .ok results ∧
      List.Forall₂ (List.Forall₂ Market.Says)
        (Market.sendAll (CustomMdSpi.sendDepthMarketData str2stmp) converter.trademap
          (stream.map (·.record))) results := by
  refine Market.convertAll_says (fun p hp converter => ?_) converter
  have hd := hprices p hp
  exact ⟨_, _, Market.convert_send hd _ (ctpMarketData_body hd str2stmp converter.trademap) _ _ _ _ _ _,
    rfl, Market.says_send hd _ _ _ _ _ _ _⟩

/-- A record with a bid and no offer -/
private def bidOnly (volume : Int32) : Published (DepthMarketDataField Float64) where
  record := { (default : DepthMarketDataField Float64) with
    instrumentID := "IF1809"
    actionDay := "20180903"
    updateTime := "10:15:00"
    lastPrice := .ofMillionths 3310200000
    volume
    bidPrice1 := .ofMillionths 3310000000
    bidVolume1 := 2
    askPrice1 := Cxx.Double.dblMax }
  insertTime := 1535940900000000000
  receivedTime := 1535940900000000001

/-- All prices of the sample have few digits. -/
private theorem decimalPrices_bidOnly (volume : Int32) :
    (bidOnly volume).record.DecimalPrices := by
  intro price hprice
  simp only [Market.Depth.prices, List.mem_cons, List.not_mem_nil, or_false] at hprice
  rcases hprice with rfl | rfl | rfl | rfl | rfl | rfl | rfl | rfl | rfl | rfl | rfl
  · exact Float64.isDecimal_ofMillionths 3310200000
  · exact Float64.isDecimal_ofMillionths 3310000000
  · exact Float64.isDecimal_dblMax
  all_goals exact Float64.isDecimal_default

/-- The second record comes with a trade. -/
theorem documents_say_depth_market_data_bidOnly :
    ∃ results, Market.convertAll (convert (fun _ => 0) id) {}
        ([bidOnly 100, bidOnly 103].map (CustomMdSpi.structToJSON fun _ => 0)) = .ok results ∧
      List.Forall₂ (List.Forall₂ Market.Says)
        (Market.sendAll (CustomMdSpi.sendDepthMarketData fun _ => 0) ∅
          [(bidOnly 100).record, (bidOnly 103).record]) results :=
  documents_say_depth_market_data (fun _ => 0) id {} (fun p hp => by
    simp only [List.mem_cons, List.not_mem_nil, or_false] at hp
    rcases hp with rfl | rfl
    · exact decimalPrices_bidOnly 100
    · exact decimalPrices_bidOnly 103)

end BookConvert

end FixHandler.Ctp
