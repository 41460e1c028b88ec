import Mathlib
import FixHandler.ForStd.List
import FixHandler.Native.Market.Convert

/-!
# What converters make of stored records

A record that was stored has its doubles cut to six digits. A converter that reads it so sends what
was sent live, with its doubles cut as well, and makes one document of each message, in the same
order.

## Key results

- `readDepth_eq`: the shared part of a record is read back, but for the digits of its doubles
- `Depth.send_map`: what is sent for a record whose doubles are changed
- `bodies_send`: the documents are those of the messages, in their order
- `convertAll_says`: over a whole stream, the documents say what was sent live
-/

namespace FixHandler.Market

open Cxx (Double Float64)
open Json (Error getStr getSub getArr getDouble getDouble_eq getInt32_eq getStr_eq)

/-! ## Changed doubles -/

section

variable {α β : Type}

/-- The data point with another price -/
def DataPoint.map (f : α → β) (p : DataPoint α) : DataPoint β := { price := f p.price, size := p.size }

/-- The prices and the turnover of a message changed -/
def Message.map (f : α → β) : Message α → Message β
  | .bbo contract b o => .bbo contract (b.map f) (o.map f)
  | .bid contract b => .bid contract (b.map f)
  | .offer contract o => .offer contract (o.map f)
  | .trade contract last time => .trade contract (last.map f) time
  | .turnover contract totalVolume amount => .turnover contract totalVolume (f amount)
  | .l2 contract bids offers time =>
    .l2 contract (bids.map (·.map f)) (offers.map (·.map f)) time

/-- All doubles of a record changed -/
def Depth.map (f : α → β) (d : Depth α) : Depth β where
  tradingDay := d.tradingDay
  instrumentID := d.instrumentID
  updateTime := d.updateTime
  updateMillisec := d.updateMillisec
  preSettlementPrice := f d.preSettlementPrice
  preClosePrice := f d.preClosePrice
  preOpenInterest := f d.preOpenInterest
  preDelta := f d.preDelta
  openPrice := f d.openPrice
  highestPrice := f d.highestPrice
  lowestPrice := f d.lowestPrice
  closePrice := f d.closePrice
  upperLimitPrice := f d.upperLimitPrice
  lowerLimitPrice := f d.lowerLimitPrice
  settlementPrice := f d.settlementPrice
  currDelta := f d.currDelta
  lastPrice := f d.lastPrice
  volume := d.volume
  turnover := f d.turnover
  openInterest := f d.openInterest
  bidPrice1 := f d.bidPrice1
  bidVolume1 := d.bidVolume1
  askPrice1 := f d.askPrice1
  askVolume1 := d.askVolume1
  bidPrice2 := f d.bidPrice2
  bidVolume2 := d.bidVolume2
  askPrice2 := f d.askPrice2
  askVolume2 := d.askVolume2
  bidPrice3 := f d.bidPrice3
  bidVolume3 := d.bidVolume3
  askPrice3 := f d.askPrice3
  askVolume3 := d.askVolume3
  bidPrice4 := f d.bidPrice4
  bidVolume4 := d.bidVolume4
  askPrice4 := f d.askPrice4
  askVolume4 := d.askVolume4
  bidPrice5 := f d.bidPrice5
  bidVolume5 := d.bidVolume5
  askPrice5 := f d.askPrice5
  askVolume5 := d.askVolume5

/-- The prices of the levels -/
def Depth.prices (d : Depth α) : List α :=
  [d.bidPrice1, d.askPrice1, d.bidPrice2, d.askPrice2, d.bidPrice3, d.askPrice3, d.bidPrice4,
    d.askPrice4, d.bidPrice5, d.askPrice5]

variable [DecidableEq α] [Double α] [DecidableEq β] [Double β] {f : α → β}

/-- A change of prices that keeps `DBL_MAX` keeps the rows that are shown. -/
theorem Depth.row_map {price : α} {volume : Int32}
    (hf : f price = Double.dblMax ↔ price = Double.dblMax) :
    row (f price) volume = (row price volume).map (·.map f) := by
  unfold row
  simp only [hf]
  split <;> rfl

/-- What is sent for a record with changed doubles, where no price becomes `DBL_MAX` -/
theorem Depth.send_map {d : Depth α}
    (hf : ∀ price ∈ d.prices, f price = Double.dblMax ↔ price = Double.dblMax) (time : String)
    (trademap : TradeMap) :
    (d.map f).send time trademap =
      ((d.send time trademap).1.map (·.map f), (d.send time trademap).2) := by
  simp only [prices, List.forall_mem_cons] at hf
  obtain ⟨hb1, ha1, hb2, ha2, hb3, ha3, hb4, ha4, hb5, ha5, -⟩ := hf
  have hbids : (d.map f).bids = d.bids.map (·.map f) := by
    simp only [bids, List.map_append, ← row_map hb1, ← row_map hb2, ← row_map hb3, ← row_map hb4,
      ← row_map hb5]
    rfl
  have hoffers : (d.map f).offers = d.offers.map (·.map f) := by
    simp only [offers, List.map_append, ← row_map ha1, ← row_map ha2, ← row_map ha3, ← row_map ha4,
      ← row_map ha5]
    rfl
  -- the tests of the best level are those of the first row
  have hbest : (d.map f).best = d.best.map (·.map f) := by
    have hb1' : (d.map f).bidPrice1 = Double.dblMax ↔ d.bidPrice1 = Double.dblMax := hb1
    have ha1' : (d.map f).askPrice1 = Double.dblMax ↔ d.askPrice1 = Double.dblMax := ha1
    have hbidVolume : (d.map f).bidVolume1 = d.bidVolume1 := rfl
    have haskVolume : (d.map f).askVolume1 = d.askVolume1 := rfl
    unfold best
    simp only [hb1', ha1', hbidVolume, haskVolume]
    split_ifs <;> rfl
  -- the traded volume comes from the total volume, which has no price
  have hmade : makePriceVolume trademap (d.map f).instrumentID (d.map f).volume
      (d.map f).updateTime = makePriceVolume trademap d.instrumentID d.volume d.updateTime := rfl
  unfold send
  rw [hbids, hoffers, hbest, hmade]
  generalize makePriceVolume trademap d.instrumentID d.volume d.updateTime = made
  obtain ⟨tmpvolume, trademap'⟩ := made
  by_cases htrade : tmpvolume > 0
  · simp only [htrade, if_true, List.map_append]
    rfl
  · simp only [htrade, if_false, List.map_append]
    rfl

end

/-! ## Reading -/

/-- The shared part of a record stands in a body between fields of other names. -/
theorem getSub_fields (d : Depth Float64) {before after : List (String × Json)}
    (hbefore : ∀ field ∈ before, ∀ field' ∈ d.fields, field'.1 ≠ field.1) :
    ∀ field ∈ d.fields,
      getSub (some (.document (before ++ d.fields ++ after))) field.1 = some field.2 := by
  intro field hfield
  have hnone : before.lookup field.1 = none := by
    rw [List.lookup_eq_none_iff]
    intro p hp
    rw [bne_iff_ne]
    exact hbefore p hp field hfield
  have hsome : d.fields.lookup field.1 = some field.2 := by
    unfold Depth.fields at hfield
    fin_cases hfield <;> rfl
  rw [getSub, List.lookup_append, List.lookup_append, hnone, hsome]
  rfl

/-- The shared part of a record is read back, but for the digits of its doubles. -/
theorem readDepth_eq {message : Option Json} {d : Depth Float64}
    (hfields : ∀ field ∈ d.fields, getSub message field.1 = some field.2) :
    readDepth message d.instrumentID d.tradingDay = .ok (d.map Float64.shown) := by
  simp only [Depth.fields, List.forall_mem_cons] at hfields
  obtain ⟨
    hPreSettlementPrice, hPreClosePrice, hPreOpenInterest, hPreDelta, hOpenPrice, hHighestPrice,
    hLowestPrice, hClosePrice, hUpperLimitPrice, hLowerLimitPrice, hSettlementPrice, hCurrDelta,
    hLastPrice, hVolume, hTurnover, hOpenInterest, hBidPrice1, hBidVolume1, hAskPrice1, hAskVolume1,
    hBidPrice2, hBidVolume2, hBidPrice3, hBidVolume3, hAskPrice2, hAskVolume2, hAskPrice3,
    hAskVolume3, hBidPrice4, hBidVolume4, hBidPrice5, hBidVolume5, hAskPrice4, hAskVolume4,
    hAskPrice5, hAskVolume5, hInstrumentID, hUpdateTime, hUpdateMillisec, -⟩ := hfields
  -- the fields in the order in which they are read
  simp only [readDepth, Except.ok_bind,
    getDouble_eq hPreSettlementPrice, getDouble_eq hPreClosePrice, getDouble_eq hPreOpenInterest,
    getDouble_eq hPreDelta, getDouble_eq hOpenPrice, getDouble_eq hHighestPrice,
    getDouble_eq hLowestPrice, getDouble_eq hClosePrice, getDouble_eq hUpperLimitPrice,
    getDouble_eq hLowerLimitPrice, getDouble_eq hSettlementPrice, getDouble_eq hCurrDelta,
    getDouble_eq hLastPrice, getInt32_eq hVolume, getDouble_eq hTurnover,
    getDouble_eq hOpenInterest, getDouble_eq hBidPrice1, getInt32_eq hBidVolume1,
    getDouble_eq hAskPrice1, getInt32_eq hAskVolume1, getDouble_eq hBidPrice2,
    getInt32_eq hBidVolume2, getDouble_eq hAskPrice2, getInt32_eq hAskVolume2,
    getDouble_eq hBidPrice3, getInt32_eq hBidVolume3, getDouble_eq hAskPrice3,
    getInt32_eq hAskVolume3, getDouble_eq hBidPrice4, getInt32_eq hBidVolume4,
    getDouble_eq hAskPrice4, getInt32_eq hAskVolume4, getDouble_eq hBidPrice5,
    getInt32_eq hBidVolume5, getDouble_eq hAskPrice5, getInt32_eq hAskVolume5,
    getStr_eq hUpdateTime, getInt32_eq hUpdateMillisec]
  rfl

/-! ## The documents of messages -/

open ConvertListener (pointJson) in
/-- The type and the body of the document that is made of a message -/
def render : Message Float64 → String × Json
  | .bbo contract bid offer => ("bbo", .document [("contract", .utf8 contract),
      ("bid", pointJson bid), ("offer", pointJson offer)])
  | .bid contract bid => ("bid", .document [("contract", .utf8 contract), ("bid", pointJson bid)])
  | .offer contract offer =>
    ("offer", .document [("contract", .utf8 contract), ("offer", pointJson offer)])
  | .trade contract last time => ("trade", .document [("contract", .utf8 contract),
      ("last", pointJson last), ("time", .utf8 time)])
  | .turnover contract totalVolume turnover => ("turnover", .document [("contract", .utf8 contract),
      ("total_volume", .uint64 totalVolume), ("turnover", .double turnover)])
  | .l2 contract bid offer time => ("l2", .document [("contract", .utf8 contract),
      ("bid", .array (bid.map pointJson)), ("offer", .array (offer.map pointJson)),
      ("time", .utf8 time)])

/-- Only a turnover is rendered as one. -/
theorem exists_of_render_turnover {m : Message Float64} (h : (render m).1 = "turnover") :
    ∃ contract totalVolume turnover, m = .turnover contract totalVolume turnover := by
  cases m with
  | turnover contract totalVolume turnover => exact ⟨contract, totalVolume, turnover, rfl⟩
  | _ => exact absurd (show _ = "turnover" from h) (by simp [render])

/-- What is sent for a record comes once of each kind, in the order in which the documents are
    made. -/
theorem bodies_send (d : Depth Float64) (time : String) (trademap : TradeMap) :
    ((d.send time trademap).1.foldl ConvertListener.on {}).bodies =
      (d.send time trademap).1.map render := by
  unfold Depth.send
  generalize makePriceVolume trademap d.instrumentID d.volume d.updateTime = made
  obtain ⟨tmpvolume, trademap'⟩ := made
  dsimp only
  unfold Depth.best
  -- no best price, the one of a side or both, with a trade or without
  split_ifs <;> rfl

/-- An element says what a row says. -/
def SaysPoint (p : DataPoint Float64) (element : Option Json) : Prop :=
  getDouble element "price" = .ok p.price ∧ getStr element "size" = .ok p.size.toNat.repr

/-- The elements of an array say what the rows of a side say. -/
def SaysPoints (ps : List (DataPoint Float64)) (message : Option Json) (key : String) : Prop :=
  ∃ items, getArr message key = .ok items ∧
    List.Forall₂ (fun p item => SaysPoint p (some item)) ps items

/-- A body says what a message says, times aside. An amount that is no decimal of six digits is not
    said to be kept. -/
def SaysBody (m : Message Float64) (type : String) (message : Option Json) : Prop :=
  match m with
  | .bbo contract bid offer => type = "bbo" ∧ getStr message "contract" = .ok contract ∧
      SaysPoint bid (getSub message "bid") ∧ SaysPoint offer (getSub message "offer")
  | .bid contract bid => type = "bid" ∧ getStr message "contract" = .ok contract ∧
      SaysPoint bid (getSub message "bid")
  | .offer contract offer => type = "offer" ∧ getStr message "contract" = .ok contract ∧
      SaysPoint offer (getSub message "offer")
  | .trade contract last _ => type = "trade" ∧ getStr message "contract" = .ok contract ∧
      SaysPoint last (getSub message "last")
  | .turnover contract totalVolume turnover => type = "turnover" ∧
      getStr message "contract" = .ok contract ∧
      getStr message "total_volume" = .ok totalVolume.toNat.repr ∧
      (turnover.IsDecimal → getDouble message "turnover" = .ok turnover)
  | .l2 contract bid offer _ => type = "l2" ∧ getStr message "contract" = .ok contract ∧
      SaysPoints bid message "bid" ∧ SaysPoints offer message "offer"

/-- An entry of a `MessMap` says what a message says. -/
def Says (m : Message Float64) (entry : String × Json) : Prop :=
  getStr (some entry.2) "type" = .ok entry.1 ∧
    SaysBody m entry.1 (getSub (some entry.2) "message")

/-- The prices of a message -/
def Message.prices {Price : Type} : Message Price → List Price
  | .bbo _ b o => [b.price, o.price]
  | .bid _ b => [b.price]
  | .offer _ o => [o.price]
  | .trade _ last _ => [last.price]
  | .turnover _ _ _ => []
  | .l2 _ bids offers _ => bids.map (·.price) ++ offers.map (·.price)

/-- A price with few digits is read as it was. -/
theorem DataPoint.map_shown {p : DataPoint Float64} (hp : p.price.IsDecimal) :
    p.map Float64.shown = p := by
  rw [DataPoint.map, hp.shown]

/-- A message of decimals is the same with its doubles cut. -/
theorem Message.map_shown {m : Message Float64} (hm : ∀ price ∈ m.prices, price.IsDecimal)
    (hturnover : ∀ contract totalVolume turnover, m = .turnover contract totalVolume turnover →
      turnover.IsDecimal) : m.map Float64.shown = m := by
  -- each price of the message has few digits
  cases m with
  | bbo contract bid offer =>
    rw [Message.map, DataPoint.map_shown (hm bid.price List.mem_cons_self),
      DataPoint.map_shown (hm offer.price (List.mem_cons_of_mem _ List.mem_cons_self))]
  | bid contract bid =>
    rw [Message.map, DataPoint.map_shown (hm bid.price List.mem_cons_self)]
  | offer contract offer =>
    rw [Message.map, DataPoint.map_shown (hm offer.price List.mem_cons_self)]
  | trade contract last time =>
    rw [Message.map, DataPoint.map_shown (hm last.price List.mem_cons_self)]
  | turnover contract totalVolume turnover =>
    rw [Message.map, (hturnover contract totalVolume turnover rfl).shown]
  | l2 contract bids offers time =>
    have hsame {ps : List (DataPoint Float64)} (hps : ∀ p ∈ ps, p.price.IsDecimal) :
        ps.map (·.map Float64.shown) = ps :=
      (List.map_congr_left fun p hp => DataPoint.map_shown (hps p hp)).trans (List.map_id ps)
    rw [Message.map,
      hsame fun p hp => hm p.price (List.mem_append_left _ (List.mem_map_of_mem hp)),
      hsame fun p hp => hm p.price (List.mem_append_right _ (List.mem_map_of_mem hp))]

/-- A data point is written with its price and size. -/
private theorem saysPoint_pointJson {p : DataPoint Float64} (hp : p.price.IsDecimal) :
    SaysPoint p (some (ConvertListener.pointJson p)) := by
  refine ⟨?_, getStr_eq rfl⟩
  rw [getDouble_eq (x := p.price) rfl, hp.shown]

/-- The rows of one side are written one by one. -/
private theorem forall₂_saysPoint {ps : List (DataPoint Float64)}
    (hps : ∀ p ∈ ps, p.price.IsDecimal) :
    List.Forall₂ (fun p item => SaysPoint p (some item)) ps (ps.map ConvertListener.pointJson) := by
  induction ps with
  | nil => exact .nil
  | cons p ps ih =>
    exact .cons (saysPoint_pointJson (hps p List.mem_cons_self))
      (ih fun q hq => hps q (List.mem_cons_of_mem p hq))

/-- The document of a message whose doubles are cut says what the message says, if its prices are
    decimals. -/
theorem says_document {m : Message Float64} (hm : ∀ price ∈ m.prices, price.IsDecimal)
    (market insertTime sendingTime sendingTimeStr : String) :
    Says m ((render (m.map Float64.shown)).1, BookConvert.document market
      (render (m.map Float64.shown)).1 insertTime sendingTime sendingTimeStr
      (render (m.map Float64.shown)).2) := by
  cases m with
  | bbo contract bid offer =>
    rw [Message.map_shown hm fun _ _ _ h => nomatch h]
    simp only [Message.prices, List.forall_mem_cons] at hm
    obtain ⟨hbid, hoffer, -⟩ := hm
    exact ⟨rfl, rfl, rfl, saysPoint_pointJson hbid, saysPoint_pointJson hoffer⟩
  | bid contract bid =>
    rw [Message.map_shown hm fun _ _ _ h => nomatch h]
    exact ⟨rfl, rfl, rfl, saysPoint_pointJson (hm bid.price List.mem_cons_self)⟩
  | offer contract offer =>
    rw [Message.map_shown hm fun _ _ _ h => nomatch h]
    exact ⟨rfl, rfl, rfl, saysPoint_pointJson (hm offer.price List.mem_cons_self)⟩
  | trade contract last time =>
    rw [Message.map_shown hm fun _ _ _ h => nomatch h]
    exact ⟨rfl, rfl, rfl, saysPoint_pointJson (hm last.price List.mem_cons_self)⟩
  | turnover contract totalVolume turnover =>
    -- the prices of a turnover are none; its amount is as it was when it has few digits
    refine ⟨rfl, rfl, rfl, rfl, fun hturnover => ?_⟩
    rw [Message.map, hturnover.shown]
    exact (getDouble_eq rfl).trans (congrArg Except.ok hturnover.shown)
  | l2 contract bids offers time =>
    rw [Message.map_shown hm fun _ _ _ h => nomatch h]
    have hbids : ∀ p ∈ bids, p.price.IsDecimal := fun p hp =>
      hm p.price (List.mem_append_left _ (List.mem_map_of_mem hp))
    have hoffers : ∀ p ∈ offers, p.price.IsDecimal := fun p hp =>
      hm p.price (List.mem_append_right _ (List.mem_map_of_mem hp))
    exact ⟨rfl, rfl, rfl, ⟨_, rfl, forall₂_saysPoint hbids⟩, _, rfl, forall₂_saysPoint hoffers⟩

/-- A document stands around one of the bodies. -/
theorem mem_documents {market sendingTime sendingTimeStr : String} {clock : Nat → Nat}
    {readings : Nat} {bodies : List (String × Json)} {entry : String × Json}
    (h : entry ∈ BookConvert.documents market sendingTime sendingTimeStr clock readings bodies) :
    ∃ insertTime, ∃ body ∈ bodies, entry = (body.1, BookConvert.document market body.1 insertTime
      sendingTime sendingTimeStr body.2) := by
  induction bodies generalizing readings with
  | nil => exact nomatch h
  | cons body bodies ih =>
    rcases List.mem_cons.mp h with rfl | h
    · exact ⟨_, body, List.mem_cons_self, rfl⟩
    · obtain ⟨insertTime, body', hbody', hentry⟩ := ih h
      exact ⟨insertTime, body', List.mem_cons_of_mem body hbody', hentry⟩

/-- The turnover is sent with the volume of the record. -/
theorem Depth.turnover_mem_send (d : Depth Float64) (time : String) (trademap : TradeMap) :
    Message.turnover d.instrumentID (toSize d.volume) d.turnover ∈ (d.send time trademap).1 :=
  List.mem_append_right _ List.mem_cons_self

/-- The turnover that is sent has the volume and the turnover of the record. -/
theorem Depth.eq_of_turnover_mem_send {d : Depth Float64} {time : String} {trademap : TradeMap}
    {contract : String} {totalVolume : UInt64} {turnover : Float64}
    (h : Message.turnover contract totalVolume turnover ∈ (d.send time trademap).1) :
    totalVolume = toSize d.volume ∧ turnover = d.turnover := by
  unfold send at h
  generalize makePriceVolume trademap d.instrumentID d.volume d.updateTime = made at h
  obtain ⟨tmpvolume, trademap'⟩ := made
  simp only [List.mem_append, List.mem_cons, List.not_mem_nil, or_false] at h
  rcases h with (h | h) | h | h
  · unfold best at h
    split_ifs at h <;> simp at h
  · split at h <;> simp at h
  · injection h with _ hvolume hturnover
    exact ⟨hvolume, hturnover⟩
  · exact nomatch h

/-- The unsigned size tells the volumes apart. -/
theorem toSize_injective {m n : Int32} (h : toSize m = toSize n) : m = n := by
  have hlong := congrArg UInt64.toInt64 h
  rw [toSize, toSize, Int64.toInt64_toUInt64, Int64.toInt64_toUInt64] at hlong
  rw [← Int32.toInt32_toInt64 m, hlong, Int32.toInt32_toInt64]

/-- The prices of the levels, and the last price, are decimals of six digits. -/
def Depth.DecimalPrices (d : Depth Float64) : Prop :=
  ∀ price ∈ d.lastPrice :: d.prices, price.IsDecimal

/-- A row that is shown has the price of its level. -/
theorem Depth.mem_of_mem_row {price : Float64} {volume : Int32} {p : DataPoint Float64}
    (hp : p ∈ row price volume) : p.price = price := by
  unfold row at hp
  split at hp
  · exact nomatch hp
  · rw [List.mem_singleton.mp hp]

/-- A message has no other prices than its record. -/
theorem Depth.mem_prices_of_mem_send {d : Depth Float64} {time : String} {trademap : TradeMap}
    {m : Message Float64} (hm : m ∈ (d.send time trademap).1) :
    ∀ price ∈ m.prices, price ∈ d.lastPrice :: d.prices := by
  -- a row has the price of its level
  have hbids : ∀ p ∈ d.bids, p.price ∈ d.lastPrice :: d.prices := by
    intro p hp
    simp only [bids, List.mem_append] at hp
    rcases hp with (((hp | hp) | hp) | hp) | hp <;>
      simp [mem_of_mem_row hp, prices]
  have hoffers : ∀ p ∈ d.offers, p.price ∈ d.lastPrice :: d.prices := by
    intro p hp
    simp only [offers, List.mem_append] at hp
    rcases hp with (((hp | hp) | hp) | hp) | hp <;>
      simp [mem_of_mem_row hp, prices]
  unfold send at hm
  generalize makePriceVolume trademap d.instrumentID d.volume d.updateTime = made at hm
  obtain ⟨tmpvolume, trademap'⟩ := made
  dsimp only at hm
  simp only [List.mem_append, List.mem_cons, List.not_mem_nil, or_false] at hm
  -- the best level, the trade, the turnover and the levels, as `send` lists them
  rcases hm with (hm | hm) | rfl | rfl
  · unfold best at hm
    split_ifs at hm
    · exact nomatch hm
    all_goals
      rw [List.mem_singleton.mp hm]
      simp [Message.prices, prices]
  · split at hm
    · rw [List.mem_singleton.mp hm]
      simp [Message.prices]
    · exact nomatch hm
  · intro price hprice
    exact nomatch hprice
  · intro price hprice
    rcases List.mem_append.mp hprice with hprice | hprice
    · obtain ⟨p, hp, rfl⟩ := List.mem_map.mp hprice
      exact hbids p hp
    · obtain ⟨p, hp, rfl⟩ := List.mem_map.mp hprice
      exact hoffers p hp

/-- What is sent for decimals is the same with its doubles cut. -/
theorem Depth.map_shown_of_mem_send {d : Depth Float64} (hd : d.DecimalPrices)
    (hturnover : d.turnover.IsDecimal) {time : String} {trademap : TradeMap} {m : Message Float64}
    (hm : m ∈ (d.send time trademap).1) : m.map Float64.shown = m := by
  apply Message.map_shown
  · exact fun price hprice => hd price (mem_prices_of_mem_send hm price hprice)
  · intro contract volume turnover hmessage
    subst hmessage
    rw [(eq_of_turnover_mem_send hm).2]
    exact hturnover

/-- A record is sent as at most four messages. -/
theorem Depth.length_send_le (d : Depth Float64) (time : String) (trademap : TradeMap) :
    (d.send time trademap).1.length ≤ 4 := by
  have hbest : d.best.length ≤ 1 := by
    unfold best
    split_ifs <;> simp
  unfold send
  generalize makePriceVolume trademap d.instrumentID d.volume d.updateTime = made
  obtain ⟨tmpvolume, trademap'⟩ := made
  dsimp only
  split <;> simp <;> omega

/-! ## One record -/

/-- What is made of a record that is published with its instrument -/
theorem convert_dateToString {market : String}
    {marketData : TradeMap → Option Json → Except Error (List (Message Float64) × TradeMap)}
    {clock : Nat → Nat} {converter : BookConvert} {body : Json}
    (market' sendingTime sendingTimeStr id : String) (insertTime receivedTime : Nat) :
    BookConvert.convert market marketData clock converter
        (dateToString market' insertTime receivedTime sendingTime sendingTimeStr (some id) body) = do
      let (messages, trademap) ← marketData converter.trademap (some body)
      let bodies := (messages.foldl ConvertListener.on {}).bodies
      return (BookConvert.documents market sendingTime sendingTimeStr clock converter.readings bodies,
        { trademap, readings := converter.readings + bodies.length }) := by
  have hmessage : getSub (some (dateToString market' insertTime receivedTime sendingTime
      sendingTimeStr (some id) body)) "message" = some body := rfl
  unfold BookConvert.convert
  rw [hmessage, getStr_eq (t := id) rfl, getStr_eq (t := insertTime.repr) rfl,
    getStr_eq (t := sendingTime) rfl, getStr_eq (t := sendingTimeStr) rfl]
  rfl

/-- What is made of any message: the documents of what is sent for the record that is read. -/
theorem convert_eq_ok {market : String}
    {marketData : TradeMap → Option Json → Except Error (List (Message Float64) × TradeMap)}
    {clock : Nat → Nat} {converter converter' : BookConvert} {message : Json}
    {entries : List (String × Json)}
    (h : BookConvert.convert market marketData clock converter message = .ok (entries, converter')) :
    ∃ body messages trademap sendingTime sendingTimeStr,
      marketData converter.trademap body = .ok (messages, trademap) ∧
      entries = BookConvert.documents market sendingTime sendingTimeStr clock converter.readings
        (messages.foldl ConvertListener.on {}).bodies := by
  unfold BookConvert.convert at h
  obtain ⟨_, -, h⟩ := Except.bind_eq_ok.mp h
  obtain ⟨_, -, h⟩ := Except.bind_eq_ok.mp h
  obtain ⟨sendingTime, -, h⟩ := Except.bind_eq_ok.mp h
  obtain ⟨sendingTimeStr, -, h⟩ := Except.bind_eq_ok.mp h
  obtain ⟨⟨messages, trademap⟩, hmessages, h⟩ := Except.bind_eq_ok.mp h
  obtain ⟨rfl, -⟩ := Prod.mk.inj (Except.ok.inj h)
  exact ⟨_, messages, trademap, sendingTime, sendingTimeStr, hmessages, rfl⟩

/-- What is made of a record that is read back, but for the digits of its doubles -/
theorem convert_send {market : String}
    {marketData : TradeMap → Option Json → Except Error (List (Message Float64) × TradeMap)}
    {clock : Nat → Nat} {converter : BookConvert} {body : Json} {d : Depth Float64}
    (hd : d.DecimalPrices) (time : String) (hmessages : marketData converter.trademap (some body) =
      .ok ((d.send time converter.trademap).1.map (·.map Float64.shown),
        (d.send time converter.trademap).2))
    (market' sendingTime sendingTimeStr id : String) (insertTime receivedTime : Nat) :
    BookConvert.convert market marketData clock converter
        (dateToString market' insertTime receivedTime sendingTime sendingTimeStr (some id) body) =
      .ok (BookConvert.documents market sendingTime sendingTimeStr clock converter.readings
          (((d.send time converter.trademap).1.map (·.map Float64.shown)).map render),
        { trademap := (d.send time converter.trademap).2
          readings := converter.readings + (d.send time converter.trademap).1.length }) := by
  have hbodies := bodies_send (d.map Float64.shown) time converter.trademap
  -- a price with few digits is shown as it is, so none becomes `DBL_MAX`
  rw [Depth.send_map fun price hprice => by
    rw [(hd price (List.mem_cons_of_mem _ hprice)).shown]] at hbodies
  rw [convert_dateToString, hmessages, Except.ok_bind]
  dsimp only
  rw [hbodies, List.length_map, List.length_map]
  rfl

/-- Of a record of decimals, what is sent live is made into documents. -/
theorem convert_send_decimals {market : String}
    {marketData : TradeMap → Option Json → Except Error (List (Message Float64) × TradeMap)}
    {clock : Nat → Nat} {converter : BookConvert} {body : Json} {d : Depth Float64}
    (hd : d.DecimalPrices) (hturnover : d.turnover.IsDecimal) (time : String)
    (hmessages : marketData converter.trademap (some body) =
      .ok ((d.send time converter.trademap).1.map (·.map Float64.shown),
        (d.send time converter.trademap).2))
    (market' sendingTime sendingTimeStr id : String) (insertTime receivedTime : Nat) :
    BookConvert.convert market marketData clock converter
        (dateToString market' insertTime receivedTime sendingTime sendingTimeStr (some id) body) =
      .ok (BookConvert.documents market sendingTime sendingTimeStr clock converter.readings
          ((d.send time converter.trademap).1.map render),
        { trademap := (d.send time converter.trademap).2
          readings := converter.readings + (d.send time converter.trademap).1.length }) := by
  -- with few digits everywhere the messages are the live ones
  have hshown : (d.send time converter.trademap).1.map (·.map Float64.shown) =
      (d.send time converter.trademap).1 :=
    (List.map_congr_left fun m hm => Depth.map_shown_of_mem_send hd hturnover hm).trans
      (List.map_id _)
  rw [convert_send hd time hmessages, hshown]

/-- The documents of messages say what the messages say. -/
theorem says_documents {messages : List (Message Float64)}
    (hprices : ∀ m ∈ messages, ∀ price ∈ m.prices, price.IsDecimal)
    (market sendingTime sendingTimeStr : String) (clock : Nat → Nat) (readings : Nat) :
    List.Forall₂ Says messages (BookConvert.documents market sendingTime sendingTimeStr clock readings
      ((messages.map (·.map Float64.shown)).map render)) := by
  induction messages generalizing readings with
  | nil => exact .nil
  | cons m messages ih =>
    exact .cons (says_document (hprices m List.mem_cons_self) market _ sendingTime sendingTimeStr)
      (ih (fun m' hm' => hprices m' (List.mem_cons_of_mem m hm')) (readings + 1))

/-! ## A stream -/

/-- What is sent for the records of a stream -/
def sendAll {Record Price : Type} (send : TradeMap → Record → List (Message Price) × TradeMap) :
    TradeMap → List Record → List (List (Message Price))
  | _, [] => []
  | trademap, record :: records =>
    (send trademap record).1 :: sendAll send (send trademap record).2 records

/-- What is sent for a stream is sent for its records. -/
theorem exists_of_mem_sendAll {Record Price : Type}
    {send : TradeMap → Record → List (Message Price) × TradeMap} {trademap : TradeMap}
    {records : List Record} {messages : List (Message Price)}
    (h : messages ∈ sendAll send trademap records) :
    ∃ record ∈ records, ∃ trademap', messages = (send trademap' record).1 := by
  induction records generalizing trademap with
  | nil => exact nomatch h
  | cons record records ih =>
    rcases List.mem_cons.mp h with rfl | h
    · exact ⟨record, List.mem_cons_self, trademap, rfl⟩
    · obtain ⟨record', hrecord', hsend⟩ := ih h
      exact ⟨record', List.mem_cons_of_mem record hrecord', hsend⟩

/-- A message of the stream was sent for one of its records. -/
theorem exists_of_mem_live {Record Price : Type}
    {send : TradeMap → Record → List (Message Price) × TradeMap} {trademap : TradeMap}
    {stream : List (Published Record)} {m : Message Price}
    (h : m ∈ (sendAll send trademap (stream.map (·.record))).flatten) :
    ∃ p ∈ stream, ∃ trademap', m ∈ (send trademap' p.record).1 := by
  obtain ⟨messages, hmessages, hm⟩ := List.mem_flatten.mp h
  obtain ⟨_, hrecord, trademap', rfl⟩ := exists_of_mem_sendAll hmessages
  obtain ⟨p, hp, rfl⟩ := List.mem_map.mp hrecord
  exact ⟨p, hp, trademap', hm⟩

/-- Every record of the stream is sent on, with the volumes known by then. -/
theorem exists_mem_sendAll {Record Price : Type}
    (send : TradeMap → Record → List (Message Price) × TradeMap) (trademap : TradeMap)
    {records : List Record} {record : Record} (h : record ∈ records) :
    ∃ trademap', (send trademap' record).1 ∈ sendAll send trademap records := by
  induction records generalizing trademap with
  | nil => exact nomatch h
  | cons first records ih =>
    rcases List.mem_cons.mp h with rfl | h
    · exact ⟨trademap, List.mem_cons_self⟩
    · obtain ⟨trademap', hmem⟩ := ih (send trademap first).2 h
      exact ⟨trademap', List.mem_cons_of_mem _ hmem⟩

/-- What a converter makes of the messages of a stream -/
def convertAll (convert : BookConvert → Json → Except Error (List (String × Json) × BookConvert)) :
    BookConvert → List Json → Except Error (List (List (String × Json)))
  | _, [] => .ok []
  | converter, message :: messages => do
    let (entries, converter) ← convert converter message
    return entries :: (← convertAll convert converter messages)

/-- The documents of a record say what is sent for it. -/
theorem says_send {d : Depth Float64} (hd : d.DecimalPrices) (time : String) (trademap : TradeMap)
    (market sendingTime sendingTimeStr : String) (clock : Nat → Nat) (readings : Nat) :
    List.Forall₂ Says (d.send time trademap).1
      (BookConvert.documents market sendingTime sendingTimeStr clock readings
        (((d.send time trademap).1.map (·.map Float64.shown)).map render)) :=
  says_documents (fun _ hm price hprice => hd price (Depth.mem_prices_of_mem_send hm price hprice))
    market sendingTime sendingTimeStr clock readings

/-- Over a whole stream the documents say what is sent live, if this is so for each record. -/
theorem convertAll_says {Record : Type}
    {convert : BookConvert → Json → Except Error (List (String × Json) × BookConvert)}
    {send : TradeMap → Record → List (Message Float64) × TradeMap} {publish : Published Record → Json}
    {stream : List (Published Record)}
    (hstep : ∀ p ∈ stream, ∀ converter, ∃ entries converter',
      convert converter (publish p) = .ok (entries, converter') ∧
      converter'.trademap = (send converter.trademap p.record).2 ∧
      List.Forall₂ Says (send converter.trademap p.record).1 entries) (converter : BookConvert) :
    ∃ results, convertAll convert converter (stream.map publish) = .ok results ∧
      List.Forall₂ (List.Forall₂ Says)
        (sendAll send converter.trademap (stream.map (·.record))) results := by
  induction stream generalizing converter with
  | nil => exact ⟨[], rfl, .nil⟩
  | cons p stream ih =>
    obtain ⟨entries, converter', hconvert, htrademap, hsaid⟩ := hstep p List.mem_cons_self converter
    obtain ⟨results, hresults, hall⟩ :=
      ih (fun p' hp' => hstep p' (List.mem_cons_of_mem p hp')) converter'
    refine ⟨entries :: results, ?_, ?_⟩
    · rw [List.map_cons, convertAll, hconvert, Except.ok_bind]
      dsimp only
      rw [hresults]
      rfl
    · -- the converter carries the volumes on as the live path does
      rw [htrademap] at hall
      exact .cons hsaid hall

end FixHandler.Market
