import Mathlib
import FixHandler.Spec.Ctp.ConvertCorrect
import FixHandler.Spec.Femas.ConvertCorrect
import FixHandler.Spec.Rem.ConvertCorrect
import FixHandler.Spec.Tmalpha.ReplayCorrect

/-!
# From the feed to the listener

A record is sent live, published, converted to documents, stored, fetched, put into the queue, consumed
and given to the listener. For the three feeds with five levels, the listener is called in the end
for what was sent live.

## Key results

- `streamPlaysBack`: a feed whose records are converted to what is sent live
- `feeds_played_back`: the feeds of CTP, FEMAS and REM
-/

namespace FixHandler.Tmalpha.ReplayDataConsumer

open Cxx (Float64)
open Json (Error)
open Market (Message TradeMap Depth BookConvert Published render)
open Persist (Record Database Provider ContractInfo lastMultiple)

/-- A clock that rises, and shows nanoseconds of 19 digits when it is read -/
structure Ticks (clock : Nat → Nat) (first count : Nat) : Prop where
  rises : StrictMono clock
  digits : ∀ n, first ≤ n → n < first + count → 10 ^ 18 ≤ clock n ∧ clock n < 2 ^ 63

/-- Fewer readings of a clock that ticks -/
theorem Ticks.mono {clock : Nat → Nat} {first count count' : Nat} (h : Ticks clock first count)
    (hle : count' ≤ count) : Ticks clock first count' :=
  ⟨h.rises, fun n hfirst hlast => h.digits n hfirst (by omega)⟩

/-- A record whose numbers are the same when they are read back: decimals, and a volume that is one. -/
structure Plain (d : Depth Float64) : Prop where
  prices : d.DecimalPrices
  turnover : d.turnover.IsDecimal
  volume : 0 ≤ d.volume

section Stream

variable {Source : Type} (market : String)
  {convert : BookConvert → Json → Except Error (List (String × Json) × BookConvert)}
  {send : TradeMap → Source → List (Message Float64) × TradeMap} {publish : Published Source → Json}
  {clock : Nat → Nat} {stream : List (Published Source)}

/-- What is sent live for a stream -/
def live (send : TradeMap → Source → List (Message Float64) × TradeMap) (trademap : TradeMap)
    (stream : List (Published Source)) : List (Message Float64) :=
  (Market.sendAll send trademap (stream.map (·.record))).flatten

/-- A stream is converted without an exception to rows of what is sent live for it. They can be stored,
    and wherever they are, those that are asked for are played back with the multiples of their
    contracts. -/
def StreamPlaysBack (convert : BookConvert → Json → Except Error (List (String × Json) × BookConvert))
    (publish : Published Source → Json)
    (send : TradeMap → Source → List (Message Float64) × TradeMap) (converter : BookConvert)
    (stream : List (Published Source)) : Prop :=
  ∃ results, ∃ rows : List Row,
    Market.convertAll convert converter (stream.map publish) = .ok results ∧
    results.flatten.map (·.2) = rows.map Row.document ∧
    rows.map (·.message) = live send converter.trademap stream ∧
    (∀ contracts, ∃ db content, Stores db content contracts rows) ∧
    ∀ (db : Database) (content : Record → Json) (contracts : List ContractInfo),
      Stores db content contracts rows → ∀ multiple : String → Int64,
      (∀ row ∈ rows, Cxx.stol (lastMultiple contracts row.message.contract) =
        .ok (multiple row.message.contract)) →
      ∀ (pageSize : UInt32), 0 < pageSize → ∀ (market : String) (ids : List String)
        (start stop : String),
        PlaysBack db content pageSize (.replay market ids start stop)
          ((rows.filter fun row => (Provider.replay market ids start stop).wants row.record).map
            (Row.call multiple))

/-- A feed whose records are converted to what is sent live for them -/
theorem streamPlaysBack (hstep : ∀ p ∈ stream, ∀ converter : BookConvert,
      ∃ sendingTime sendingTimeStr, convert converter (publish p) = .ok
        (BookConvert.documents market sendingTime sendingTimeStr clock converter.readings
          ((send converter.trademap p.record).1.map render),
        { trademap := (send converter.trademap p.record).2
          readings := converter.readings + (send converter.trademap p.record).1.length }))
    (hsent : ∀ p ∈ stream, ∀ trademap, ∀ m ∈ (send trademap p.record).1,
      m.map Float64.shown = m ∧ m.Small) (converter : BookConvert)
    (hticks : Ticks clock converter.readings (live send converter.trademap stream).length) :
    StreamPlaysBack convert publish send converter stream := by
  obtain ⟨results, rows, hresults, hdocuments, hmessages, htimes⟩ := convertAll_rows hstep converter
  -- there are as many readings of the clock as messages
  have hlength : rows.length = (live send converter.trademap stream).length := by
    rw [live, ← hmessages, List.length_map]
  have hclocked : Clocked rows := by
    constructor
    · rw [htimes, List.pairwise_map]
      exact (List.pairwise_lt_range' ..).imp fun h => hticks.rises h
    · intro row hrow
      have htime := List.mem_map_of_mem (f := (·.time)) hrow
      rw [htimes] at htime
      obtain ⟨n, hn, hclock⟩ := List.mem_map.mp htime
      have hrange := List.mem_range'_1.mp hn
      rw [← hclock]
      exact hticks.digits n hrange.1 (by omega)
  -- every row is of a message that was sent for some record
  have hrows : ∀ row ∈ rows, row.message.map Float64.shown = row.message ∧ row.message.Small := by
    intro row hrow
    have hm := List.mem_map_of_mem (f := (·.message)) hrow
    rw [hmessages] at hm
    obtain ⟨p, hp, trademap, hmem⟩ := Market.exists_of_mem_live hm
    exact hsent p hp trademap row.message hmem
  refine ⟨results, rows, hresults, hdocuments, hmessages, hclocked.exists_stores, ?_⟩
  intro db content contracts hstores multiple hmultiple pageSize hsize market ids start stop
  exact replayed hclocked (fun row hrow => (hrows row hrow).1) (fun row hrow => (hrows row hrow).2)
    hstores multiple hmultiple hsize market ids start stop

/-- Where a record makes at most n messages, the stream makes at most n for each record. -/
theorem length_live_le {n : Nat}
    (hsend : ∀ p ∈ stream, ∀ trademap, (send trademap p.record).1.length ≤ n) (trademap : TradeMap) :
    (live send trademap stream).length ≤ n * stream.length := by
  induction stream generalizing trademap with
  | nil => exact Nat.zero_le _
  | cons p stream ih =>
    have hfirst := hsend p List.mem_cons_self trademap
    have hrest := ih (fun q hq => hsend q (List.mem_cons_of_mem p hq)) (send trademap p.record).2
    show ((send trademap p.record).1 ++ live send (send trademap p.record).2 stream).length ≤
      n * (stream.length + 1)
    rw [List.length_append, Nat.mul_add]
    omega

/-- A feed whose records have five levels -/
theorem streamPlaysBack_of_plain {depth : Source → Depth Float64} {time : Source → String}
    (hsend : ∀ trademap source, send trademap source = (depth source).send (time source) trademap)
    (hstep : ∀ p ∈ stream, ∀ converter : BookConvert,
      ∃ sendingTime sendingTimeStr, convert converter (publish p) = .ok
        (BookConvert.documents market sendingTime sendingTimeStr clock converter.readings
          ((send converter.trademap p.record).1.map render),
        { trademap := (send converter.trademap p.record).2
          readings := converter.readings + (send converter.trademap p.record).1.length }))
    (hplain : ∀ p ∈ stream, Plain (depth p.record)) (converter : BookConvert)
    (hticks : Ticks clock converter.readings (4 * stream.length)) :
    StreamPlaysBack convert publish send converter stream := by
  apply streamPlaysBack market hstep
  · intro p hp trademap m hm
    rw [hsend] at hm
    -- the four messages of a depth have the texts that are read back
    obtain ⟨hprices, hturnover, hvolume⟩ := hplain p hp
    exact ⟨Depth.map_shown_of_mem_send hprices hturnover hm, Depth.small_of_mem_send hvolume hm⟩
  · -- no record makes more than four documents
    apply hticks.mono
    apply length_live_le
    intro p _ trademap
    rw [hsend]
    exact Depth.length_send_le _ _ _

end Stream

/-- The feeds with five levels are played back. Of REM these are the streams that survive storage. -/
theorem feeds_played_back (str2stmp : String → UInt64) (clock : Nat → Nat) (converter : BookConvert) :
    (∀ stream : List (Published (Ctp.DepthMarketDataField Float64)),
      (∀ p ∈ stream, Plain p.record.toDepth) → Ticks clock converter.readings (4 * stream.length) →
        StreamPlaysBack (Ctp.BookConvert.convert str2stmp clock) (Ctp.CustomMdSpi.structToJSON str2stmp)
          (Ctp.CustomMdSpi.sendDepthMarketData str2stmp) converter stream) ∧
    (∀ stream : List (Published (Femas.DepthMarketDataField Float64)),
      (∀ p ∈ stream, Plain p.record.toDepth) → Ticks clock converter.readings (4 * stream.length) →
        StreamPlaysBack (Femas.BookConvert.convert str2stmp clock)
          (Femas.MarketManager.structToJSON str2stmp) (Femas.BookManager.sendFemasmarketData str2stmp)
          converter stream) ∧
    (∀ stream : List (Published (Rem.MarketDepthQuoteData Float64)),
      (∀ p ∈ stream, Plain p.record.toDepth ∧ Rem.BookConvert.Survives p.record) →
        Ticks clock converter.readings (4 * stream.length) →
        StreamPlaysBack (Rem.BookConvert.convert str2stmp clock) (Rem.MarketManager.structToJSON str2stmp)
          (Rem.BookManager.sendRemmarketData str2stmp) converter stream) := by
  refine ⟨fun stream hplain hticks => ?_, fun stream hplain hticks => ?_,
    fun stream hplain hticks => ?_⟩
  · -- every feed sends a depth, and converts what it saved
    refine streamPlaysBack_of_plain "CTP" (fun _ _ => rfl) (fun p hp converter => ?_) hplain converter hticks
    obtain ⟨hprices, hturnover, -⟩ := hplain p hp
    exact ⟨_, _, Market.convert_send_decimals hprices hturnover _
      (Ctp.BookConvert.ctpMarketData_body hprices str2stmp converter.trademap) _ _ _ _ _ _⟩
  · refine streamPlaysBack_of_plain "FEMAS" (fun _ _ => rfl) (fun p hp converter => ?_) hplain converter hticks
    obtain ⟨hprices, hturnover, -⟩ := hplain p hp
    exact ⟨_, _, Femas.BookConvert.convert_structToJSON hprices hturnover str2stmp clock converter⟩
  · refine streamPlaysBack_of_plain "REM" (fun _ _ => rfl) (fun p hp converter => ?_)
      (fun p hp => (hplain p hp).1) converter hticks
    obtain ⟨⟨hprices, hturnover, -⟩, hsurvives⟩ := hplain p hp
    -- the volume is read from another field, which has the same number in it
    exact ⟨_, _, Market.convert_send_decimals hprices hturnover _
      (Rem.BookConvert.remmarketData_of_survives hprices hsurvives str2stmp converter.trademap)
      _ _ _ _ _ _⟩

/-- A record of 100 that were traded, as many as were open on the day before -/
private def plainDepth : Depth Float64 :=
  { (default : Depth Float64) with
    instrumentID := "cu1811"
    tradingDay := "20180903"
    updateTime := "10:15:00"
    lastPrice := .ofMillionths 48600000000
    volume := 100
    turnover := .ofMillionths 4860000000000
    preOpenInterest := .ofMillionths (100 * 10 ^ 6)
    bidPrice1 := .ofMillionths 48590000000
    bidVolume1 := 2
    askPrice1 := Cxx.Double.dblMax }

/-- All prices and the turnover of the sample are shown exactly. -/
private theorem plain_plainDepth : Plain plainDepth where
  prices := by
    intro price hprice
    simp only [Market.Depth.prices, List.mem_cons, List.not_mem_nil, or_false] at hprice
    rcases hprice with rfl | rfl | rfl | rfl | rfl | rfl | rfl | rfl | rfl | rfl | rfl
    · exact Float64.isDecimal_ofMillionths 48600000000
    · exact Float64.isDecimal_ofMillionths 48590000000
    · exact Float64.isDecimal_dblMax
    all_goals exact Float64.isDecimal_default
  turnover := Float64.isDecimal_ofMillionths 4860000000000
  volume := by decide

/-- A record of CTP -/
private def ctpRecord : Published (Ctp.DepthMarketDataField Float64) where
  record := { toDepth := plainDepth, actionDay := "20180903" }
  insertTime := 1535940900000000000
  receivedTime := 1535940900000000001

/-- A record of Femas -/
private def femasRecord : Published (Femas.DepthMarketDataField Float64) where
  record := { (default : Femas.DepthMarketDataField Float64) with
    toDepth := plainDepth
    actionDay := "20180903" }
  insertTime := 1535940900000000000
  receivedTime := 1535940900000000001

/-- A record of REM -/
private def remRecord : Published (Rem.MarketDepthQuoteData Float64) where
  record := { toDepth := plainDepth, exchangeID := "", exchangeInstID := "", averagePrice := default }
  insertTime := 1535940900000000000
  receivedTime := 1535940900000000001

/-- The record of REM is read back with its volume. -/
private theorem survives_remRecord : Rem.BookConvert.Survives remRecord.record where
  volume := ⟨100, by decide +kernel⟩
  openInterest := ⟨0, by decide +kernel⟩

/-- The same record of each feed -/
theorem feeds_played_back_hundred :
    StreamPlaysBack (Ctp.BookConvert.convert (fun _ => 0) (1535940900000000002 + ·))
      (Ctp.CustomMdSpi.structToJSON fun _ => 0) (Ctp.CustomMdSpi.sendDepthMarketData fun _ => 0) {}
      [ctpRecord] ∧
    StreamPlaysBack (Femas.BookConvert.convert (fun _ => 0) (1535940900000000002 + ·))
      (Femas.MarketManager.structToJSON fun _ => 0) (Femas.BookManager.sendFemasmarketData fun _ => 0)
      {} [femasRecord] ∧
    StreamPlaysBack (Rem.BookConvert.convert (fun _ => 0) (1535940900000000002 + ·))
      (Rem.MarketManager.structToJSON fun _ => 0) (Rem.BookManager.sendRemmarketData fun _ => 0) {}
      [remRecord] := by
  -- the clock of the sample ticks by nanoseconds
  have hticks : Ticks (1535940900000000002 + ·) 0 4 := by
    refine ⟨fun a b hlt => Nat.add_lt_add_left hlt _, fun n _ hn => ?_⟩
    show 10 ^ 18 ≤ 1535940900000000002 + n ∧ 1535940900000000002 + n < 2 ^ 63
    omega
  obtain ⟨hctp, hfemas, hrem⟩ :=
    feeds_played_back (fun _ => 0) (1535940900000000002 + ·) ({} : BookConvert)
  refine ⟨hctp [ctpRecord] (fun p hp => ?_) hticks, hfemas [femasRecord] (fun p hp => ?_) hticks,
    hrem [remRecord] (fun p hp => ?_) hticks⟩
  · rw [List.mem_singleton.mp hp]
    exact plain_plainDepth
  · rw [List.mem_singleton.mp hp]
    exact plain_plainDepth
  · rw [List.mem_singleton.mp hp]
    exact ⟨plain_plainDepth, survives_remRecord⟩

end FixHandler.Tmalpha.ReplayDataConsumer
