import Mathlib
import FixHandler.Native.Rem.BookConvert
import FixHandler.Native.Rem.EfhBookConvert
import FixHandler.Spec.Market.ConvertCorrect

/-!
# The converters of REM and REM-EFH

What `RemBookConvert` makes of the stored records says what was sent live for them, as long as the
volume, which it reads from the open interest of the day before, is the same. `EfhRemBookConvert` reads
a key that is not written.

## Key results

- `remmarketData_body`: what is sent for a stored record
- `survives_of_says`: a record whose documents say what was sent live survives
- `records_survive_iff`: the streams that survive storage
-/

namespace FixHandler.Rem

open Cxx (Double Float64)
open Json (Error getSub getStr getInt getInt32 getStr_eq getInt32_eq getDouble_eq)
open Market (Message BookConvert Published TradeMap)

/-! ## REM -/

namespace BookConvert

/-- Every field of the record is written under its name. -/
theorem getSub_body (d : MarketDepthQuoteData Float64) :
    ∀ field ∈ d.fields, getSub (some (MarketManager.body d)) field.1 = some field.2 :=
  Market.getSub_fields d.toDepth (by simp [Market.Depth.fields])

/-- The record that is read where `volume` stands for the volume -/
def reread (d : MarketDepthQuoteData Float64) (preOpenInterest openInterest : Int64) :
    MarketDepthQuoteData Float64 :=
  { d with
    toDepth := { d.map Float64.shown with
      volume := preOpenInterest.toInt32
      preOpenInterest := Double.ofInt preOpenInterest.toInt
      openInterest := Double.ofInt openInterest.toInt }
    averagePrice := Float64.ofRat 0 }

/-- A record is read if its open interests can be read as integers. -/
theorem readMarketData_body (d : MarketDepthQuoteData Float64) :
    readMarketData (some (MarketManager.body d)) = do
      let preOpenInterest ← getInt (some (MarketManager.body d)) "PreOpenInterest"
      let openInterest ← getInt (some (MarketManager.body d)) "OpenInterest"
      return reread d preOpenInterest openInterest := by
  have hfields := getSub_body d
  simp only [Market.Depth.fields, List.forall_mem_cons] at hfields
  obtain ⟨
    hPreSettlementPrice, hPreClosePrice, hPreOpenInterest, hPreDelta, hOpenPrice, hHighestPrice,
    hLowestPrice, hClosePrice, hUpperLimitPrice, hLowerLimitPrice, hSettlementPrice, hCurrDelta,
    hLastPrice, hVolume, hTurnover, hOpenInterest, hBidPrice1, hBidVolume1, hAskPrice1, hAskVolume1,
    hBidPrice2, hBidVolume2, hBidPrice3, hBidVolume3, hAskPrice2, hAskVolume2, hAskPrice3,
    hAskVolume3, hBidPrice4, hBidVolume4, hBidPrice5, hBidVolume5, hAskPrice4, hAskVolume4,
    hAskPrice5, hAskVolume5, hInstrumentID, hUpdateTime, hUpdateMillisec, -⟩ := hfields
  have hTradingDay : getSub (some (MarketManager.body d)) "TradingDay" =
      some (.utf8 d.tradingDay) := rfl
  have hExchangeID : getSub (some (MarketManager.body d)) "ExchangeID" =
      some (.utf8 d.exchangeID) := rfl
  have hExchangeInstID : getSub (some (MarketManager.body d)) "ExchangeInstID" =
      some (.utf8 d.exchangeInstID) := rfl
  -- `Volume` is read from the open interest of the day before
  have hvolume : getInt32 (some (MarketManager.body d)) "PreOpenInterest" = do
      return (← getInt (some (MarketManager.body d)) "PreOpenInterest").toInt32 := rfl
  simp only [readMarketData, Except.ok_bind,
    getStr_eq hInstrumentID, getStr_eq hTradingDay, getStr_eq hExchangeID,
    getStr_eq hExchangeInstID, getDouble_eq hPreSettlementPrice, getDouble_eq hLastPrice,
    getDouble_eq hPreClosePrice]
  -- the two open interests are read as integers, which may throw
  cases hpre : getInt (some (MarketManager.body d)) "PreOpenInterest" with
  | error e => rfl
  | ok preOpenInterest =>
    simp only [hvolume, hpre, pure_bind, Except.ok_bind,
      getDouble_eq hOpenPrice, getDouble_eq hHighestPrice, getDouble_eq hLowestPrice,
      getDouble_eq hTurnover]
    cases getInt (some (MarketManager.body d)) "OpenInterest" with
    | error e => rfl
    | ok openInterest =>
      simp only [Except.ok_bind,
        getDouble_eq hClosePrice, getDouble_eq hSettlementPrice, getDouble_eq hUpperLimitPrice,
        getDouble_eq hLowerLimitPrice, getDouble_eq hPreDelta, getDouble_eq hCurrDelta,
        getStr_eq hUpdateTime, getInt32_eq hUpdateMillisec, getDouble_eq hBidPrice1,
        getInt32_eq hBidVolume1, getDouble_eq hAskPrice1, getInt32_eq hAskVolume1,
        getDouble_eq hBidPrice2, getInt32_eq hBidVolume2, getDouble_eq hAskPrice2,
        getInt32_eq hAskVolume2, getDouble_eq hBidPrice3, getInt32_eq hBidVolume3,
        getDouble_eq hAskPrice3, getInt32_eq hAskVolume3, getDouble_eq hBidPrice4,
        getInt32_eq hBidVolume4, getDouble_eq hAskPrice4, getInt32_eq hAskVolume4,
        getDouble_eq hBidPrice5, getInt32_eq hBidVolume5, getDouble_eq hAskPrice5,
        getInt32_eq hAskVolume5]
      rfl

/-- What is sent for a stored record: what is sent for the record with another volume, its doubles
    cut -/
theorem remmarketData_body {d : MarketDepthQuoteData Float64} (hd : d.DecimalPrices)
    (str2stmp : String → UInt64) (trademap : TradeMap) :
    remmarketData str2stmp trademap (some (MarketManager.body d)) = do
      let preOpenInterest ← getInt (some (MarketManager.body d)) "PreOpenInterest"
      let _ ← getInt (some (MarketManager.body d)) "OpenInterest"
      let sent := BookManager.sendRemmarketData str2stmp trademap
        { d with volume := preOpenInterest.toInt32 }
      return (sent.1.map (·.map Float64.shown), sent.2) := by
  unfold remmarketData
  rw [readMarketData_body]
  cases getInt (some (MarketManager.body d)) "PreOpenInterest" with
  | error e => rfl
  | ok preOpenInterest =>
    cases getInt (some (MarketManager.body d)) "OpenInterest" with
    | error e => rfl
    | ok openInterest =>
      -- the open interests and the average price are not sent
      have hsend := Market.Depth.send_map (d := { d.toDepth with volume := preOpenInterest.toInt32 })
        (f := Float64.shown)
        (fun price hprice => by rw [(hd price (List.mem_cons_of_mem _ hprice)).shown])
        (Market.getUpdateTimeInt str2stmp d.tradingDay d.updateTime d.updateMillisec).toNat.repr
        trademap
      exact congrArg Except.ok hsend

/-- The open interests of a record can be read as integers, and the one of the day before is the
    volume. -/
structure Survives (d : MarketDepthQuoteData Float64) : Prop where
  volume : ∃ n, d.preOpenInterest.val.whole = some n ∧ -2 ^ 63 ≤ n ∧ n < 2 ^ 63 ∧
    (Int64.ofInt n).toInt32 = d.volume
  openInterest : ∃ n, d.openInterest.val.whole = some n ∧ -2 ^ 63 ≤ n ∧ n < 2 ^ 63

/-- A record survives where both open interests are read and the first is the volume. -/
theorem survives_iff {d : MarketDepthQuoteData Float64} : Survives d ↔
    ∃ preOpenInterest openInterest,
      getInt (some (MarketManager.body d)) "PreOpenInterest" = .ok preOpenInterest ∧
      getInt (some (MarketManager.body d)) "OpenInterest" = .ok openInterest ∧
      preOpenInterest.toInt32 = d.volume := by
  -- the document has both interests as they were in the record
  have hpre : getSub (some (MarketManager.body d)) "PreOpenInterest" =
      some (.double d.preOpenInterest) := rfl
  have hopen : getSub (some (MarketManager.body d)) "OpenInterest" =
      some (.double d.openInterest) := rfl
  constructor
  · rintro ⟨⟨n, hn, hlower, hupper, hvolume⟩, k, hk, hlower', hupper'⟩
    exact ⟨_, _, (Json.getInt_double_eq_ok hpre).mpr ⟨n, hn, hlower, hupper, rfl⟩,
      (Json.getInt_double_eq_ok hopen).mpr ⟨k, hk, hlower', hupper', rfl⟩, hvolume⟩
  · rintro ⟨preOpenInterest, openInterest, hn, hk, hvolume⟩
    obtain ⟨n, hwhole, hlower, hupper, rfl⟩ := (Json.getInt_double_eq_ok hpre).mp hn
    obtain ⟨k, hwhole', hlower', hupper', -⟩ := (Json.getInt_double_eq_ok hopen).mp hk
    exact ⟨⟨n, hwhole, hlower, hupper, hvolume⟩, k, hwhole', hlower', hupper'⟩

/-- A record that survives is read back, but for the digits of its doubles. -/
theorem remmarketData_of_survives {d : MarketDepthQuoteData Float64} (hd : d.DecimalPrices)
    (hsurvives : Survives d) (str2stmp : String → UInt64) (trademap : TradeMap) :
    remmarketData str2stmp trademap (some (MarketManager.body d)) =
      .ok ((BookManager.sendRemmarketData str2stmp trademap d).1.map (·.map Float64.shown),
        (BookManager.sendRemmarketData str2stmp trademap d).2) := by
  obtain ⟨preOpenInterest, openInterest, hpre, hopen, hvolume⟩ := survives_iff.mp hsurvives
  rw [remmarketData_body hd, hpre, hopen]
  simp only [Except.ok_bind, hvolume]
  rfl

/-- A record that survives is converted to documents that say what was sent live. -/
theorem convert_of_survives {p : Published (MarketDepthQuoteData Float64)}
    (hd : p.record.DecimalPrices) (hsurvives : Survives p.record) (str2stmp : String → UInt64)
    (clock : Nat → Nat) (converter : BookConvert) :
    ∃ entries converter', convert str2stmp clock converter (MarketManager.structToJSON str2stmp p) =
        .ok (entries, converter') ∧
      converter'.trademap =
        (BookManager.sendRemmarketData str2stmp converter.trademap p.record).2 ∧
      List.Forall₂ Market.Says
        (BookManager.sendRemmarketData str2stmp converter.trademap p.record).1 entries :=
  ⟨_, _, Market.convert_send hd _ (remmarketData_of_survives hd hsurvives str2stmp
    converter.trademap) _ _ _ _ _ _, rfl, Market.says_send hd _ _ _ _ _ _ _⟩

/-- A record whose documents say what was sent live survives. -/
theorem survives_of_says {d : MarketDepthQuoteData Float64} (hd : d.DecimalPrices)
    {str2stmp : String → UInt64} {clock : Nat → Nat} {converter converter' : BookConvert}
    {entries : List (String × Json)} {insertTime receivedTime : Nat}
    {sendingTime sendingTimeStr : String}
    (hconvert : convert str2stmp clock converter (Market.dateToString "REM" insertTime receivedTime
      sendingTime sendingTimeStr (some d.instrumentID) (MarketManager.body d)) =
      .ok (entries, converter'))
    (hsaid : List.Forall₂ Market.Says
      (BookManager.sendRemmarketData str2stmp converter.trademap d).1 entries) :
    Survives d := by
  have hmessages := remmarketData_body hd str2stmp converter.trademap
  cases hpre : getInt (some (MarketManager.body d)) "PreOpenInterest" with
  | error e =>
    rw [hpre] at hmessages
    rw [convert, Market.convert_dateToString, hmessages] at hconvert
    exact nomatch hconvert
  | ok preOpenInterest =>
    cases hopen : getInt (some (MarketManager.body d)) "OpenInterest" with
    | error e =>
      rw [hpre, hopen] at hmessages
      rw [convert, Market.convert_dateToString, hmessages] at hconvert
      exact nomatch hconvert
    | ok openInterest =>
      -- the documents are those of the record with the other volume
      rw [hpre, hopen] at hmessages
      have hd' : ({ d with volume := preOpenInterest.toInt32 } :
        MarketDepthQuoteData Float64).DecimalPrices := hd
      rw [convert, Market.convert_send hd' _ hmessages] at hconvert
      obtain ⟨rfl, -⟩ := Prod.mk.inj (Except.ok.inj hconvert)
      -- the turnover is always sent, and it says the total volume
      obtain ⟨entry, hentry, hsaid⟩ := hsaid.exists_of_mem (Market.Depth.turnover_mem_send _ _ _)
      obtain ⟨_, body, hbody, rfl⟩ := Market.mem_documents hentry
      obtain ⟨m, hm, rfl⟩ := List.mem_map.mp hbody
      obtain ⟨-, htype, -, hvolume, -⟩ := hsaid
      obtain ⟨contract, totalVolume, turnover, rfl⟩ := Market.exists_of_render_turnover htype
      obtain ⟨m', hm', hmap⟩ := List.mem_map.mp hm
      cases m' with
      | turnover contract' totalVolume' turnover' =>
        have htotal := (Market.Depth.eq_of_turnover_mem_send hm').1
        have htext : totalVolume.toNat.repr = (Market.toSize d.volume).toNat.repr :=
          Except.ok.inj hvolume
        have heq : totalVolume' = totalVolume := (Message.turnover.inj hmap).2.1
        rw [← heq, htotal] at htext
        exact survives_iff.mpr ⟨preOpenInterest, openInterest, hpre, hopen,
          Market.toSize_injective (UInt64.toNat_inj.mp (Nat.repr_inj.mp htext))⟩
      | _ => exact nomatch hmap

/-- A stream of REM survives storage: its documents are converted without an exception to what was
    sent live. -/
def StreamSurvives (str2stmp : String → UInt64) (clock : Nat → Nat) (converter : BookConvert)
    (stream : List (Published (MarketDepthQuoteData Float64))) : Prop :=
  ∃ results, Market.convertAll (convert str2stmp clock) converter
      (stream.map (MarketManager.structToJSON str2stmp)) = .ok results ∧
    List.Forall₂ (List.Forall₂ Market.Says)
      (Market.sendAll (BookManager.sendRemmarketData str2stmp) converter.trademap
        (stream.map (·.record))) results

/-- A stream survives where each of its records does. -/
theorem streamSurvives_iff (str2stmp : String → UInt64) (clock : Nat → Nat) (converter : BookConvert)
    {stream : List (Published (MarketDepthQuoteData Float64))}
    (hprices : ∀ p ∈ stream, p.record.DecimalPrices) :
    StreamSurvives str2stmp clock converter stream ↔ ∀ p ∈ stream, Survives p.record := by
  constructor
  · -- record after record, as a record that survived leaves the same state behind
    rintro ⟨results, hresults, hsaid⟩
    induction stream generalizing converter results with
    | nil => exact fun p hp => nomatch hp
    | cons p stream ih =>
      have hd := hprices p List.mem_cons_self
      rw [List.map_cons, Market.convertAll, Except.bind_eq_ok] at hresults
      obtain ⟨⟨entries, converter'⟩, hconvert, hrest⟩ := hresults
      obtain ⟨rest, hall, hpure⟩ := Except.bind_eq_ok.mp hrest
      obtain rfl := Except.ok.inj hpure
      have hsurvives := survives_of_says hd hconvert (List.forall₂_cons.mp hsaid).1
      -- a record that survives leaves the volumes as they are live
      obtain ⟨_, _, hlive, htrademap, -⟩ := convert_of_survives hd hsurvives str2stmp clock converter
      obtain ⟨-, rfl⟩ := Prod.mk.inj (Except.ok.inj (hlive.symm.trans hconvert))
      rw [List.map_cons, Market.sendAll, ← htrademap] at hsaid
      intro p' hp'
      rcases List.mem_cons.mp hp' with rfl | hp'
      · exact hsurvives
      · exact ih _ (fun q hq => hprices q (List.mem_cons_of_mem p hq)) rest hall
          (List.forall₂_cons.mp hsaid).2 p' hp'
  · intro hsurvives
    exact Market.convertAll_says (fun p hp converter =>
      convert_of_survives (hprices p hp) (hsurvives p hp) str2stmp clock converter) converter

end BookConvert

/-! ## REM-EFH -/

namespace EfhBookConvert

open EfhMarketManager (PublishedNow)

/-- A stream of REM-EFH survives storage, on the days on which it is sent and converted. -/
def StreamSurvives (str2stmp : String → UInt64) (sent converted : String) (clock : Nat → Nat)
    (converter : BookConvert) (stream : List PublishedNow) : Prop :=
  ∃ results, Market.convertAll (convert str2stmp converted clock) converter
      (stream.map EfhMarketManager.structToJSON) = .ok results ∧
    List.Forall₂ (List.Forall₂ Market.Says)
      (Market.sendAll (EfhMarketManager.sendRemmarketData str2stmp sent) converter.trademap
        (stream.map (·.record))) results

/-- No document has the `InstrumentID` that is read of each of them. -/
theorem convert_structToJSON (str2stmp : String → UInt64) (converted : String) (clock : Nat → Nat)
    (converter : BookConvert) (p : PublishedNow) :
    convert str2stmp converted clock converter (EfhMarketManager.structToJSON p) =
      .error .bsoncxx := rfl

/-- Of REM-EFH only the empty stream survives. -/
theorem streamSurvives_iff (str2stmp : String → UInt64) (sent converted : String)
    (clock : Nat → Nat) (converter : BookConvert) {stream : List PublishedNow} :
    StreamSurvives str2stmp sent converted clock converter stream ↔ stream = [] := by
  constructor
  · rintro ⟨results, hresults, -⟩
    cases stream with
    | nil => rfl
    | cons p stream =>
      rw [List.map_cons, Market.convertAll, convert_structToJSON] at hresults
      cases hresults
  · rintro rfl
    exact ⟨[], rfl, .nil⟩

end EfhBookConvert

/-- The streams of both feeds that survive storage -/
theorem records_survive_iff (str2stmp : String → UInt64) (sent converted : String)
    (clock : Nat → Nat) (converter : BookConvert)
    {stream : List (Published (MarketDepthQuoteData Float64))}
    {efhStream : List EfhMarketManager.PublishedNow}
    (hprices : ∀ p ∈ stream, p.record.DecimalPrices) :
    (BookConvert.StreamSurvives str2stmp clock converter stream ↔
      ∀ p ∈ stream, BookConvert.Survives p.record) ∧
    (EfhBookConvert.StreamSurvives str2stmp sent converted clock converter efhStream ↔
      efhStream = []) :=
  ⟨BookConvert.streamSurvives_iff str2stmp clock converter hprices,
    EfhBookConvert.streamSurvives_iff str2stmp sent converted clock converter⟩

/-- A record of 100 that were traded, with the open interest of the day before -/
private def traded (preOpenInterest : Int) : Published (MarketDepthQuoteData Float64) where
  record := { (default : MarketDepthQuoteData Float64) with
    instrumentID := "cu1811"
    tradingDay := "20180903"
    updateTime := "10:15:00"
    lastPrice := .ofMillionths 48600000000
    volume := 100
    preOpenInterest := .ofMillionths (preOpenInterest * 10 ^ 6)
    bidPrice1 := .ofMillionths 48590000000
    bidVolume1 := 2
    askPrice1 := Double.dblMax }
  insertTime := 1535940900000000000
  receivedTime := 1535940900000000001

/-- All prices of the sample have few digits. -/
private theorem decimalPrices_traded (preOpenInterest : Int) :
    (traded preOpenInterest).record.DecimalPrices := by
  intro price hprice
  simp only [Market.Depth.prices, List.mem_cons, List.not_mem_nil, or_false] at hprice
  rcases hprice with rfl | rfl | rfl | rfl | rfl | rfl | rfl | rfl | rfl | rfl | rfl
  · exact Float64.isDecimal_ofMillionths 48600000000
  · exact Float64.isDecimal_ofMillionths 48590000000
  · exact Float64.isDecimal_dblMax
  all_goals exact Float64.isDecimal_default

/-- The condition where the open interest of the day before is the volume -/
theorem records_survive_iff_traded :
    (BookConvert.StreamSurvives (fun _ => 0) id {} [traded 100] ↔
      ∀ p ∈ [traded 100], BookConvert.Survives p.record) ∧
    (EfhBookConvert.StreamSurvives (fun _ => 0) "20180903" "20180903" id {} [] ↔
      ([] : List EfhMarketManager.PublishedNow) = []) :=
  records_survive_iff (fun _ => 0) "20180903" "20180903" id {} (fun p hp => by
    rw [List.mem_singleton.mp hp]
    exact decimalPrices_traded 100)

/-- A record of REM-EFH -/
private def quoted : EfhMarketManager.PublishedNow where
  record := { (default : GuavaUdpNormal Float64) with
    symbol := "cu1811"
    updateTime := "10:15:00"
    lastShare := 100 }
  insertTime := 1535940900000000000
  receivedTime := 1535940900000000001
  sendingTime := 1535940900000000002
  sendingTimeStr := "2018-09-03 10:15:00.000000"

/-- The volume is taken from the open interest of the day before, and a key is missing. -/
theorem not_records_survive_traded :
    ¬ BookConvert.StreamSurvives (fun _ => 0) id {} [traded 52340] ∧
    ¬ EfhBookConvert.StreamSurvives (fun _ => 0) "20180903" "20180903" id {} [quoted] := by
  constructor
  · rw [BookConvert.streamSurvives_iff (fun _ => 0) id {} fun p hp => by
      rw [List.mem_singleton.mp hp]
      exact decimalPrices_traded 52340]
    intro h
    obtain ⟨n, hn, -, -, hvolume⟩ := (h _ List.mem_cons_self).volume
    -- the open interest is read in place of the volume, and it is another number
    have hwhole : (traded 52340).record.preOpenInterest.val.whole = some 52340 := by
      decide +kernel
    rw [hwhole] at hn
    obtain rfl := Option.some.inj hn
    exact absurd hvolume (by decide +kernel)
  · rw [EfhBookConvert.streamSurvives_iff]
    exact List.cons_ne_nil _ _

end FixHandler.Rem
