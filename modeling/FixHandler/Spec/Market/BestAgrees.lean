import Mathlib
import FixHandler.Native.Ctp.CustomMdSpi
import FixHandler.Native.Femas.BookManager
import FixHandler.Native.Rem.BookManager
import FixHandler.Native.Rem.EfhMarketManager

/-!
# The best prices and the depth

A handler builds the best prices from the record, not from the rows that it sends. The feeds of
five levels test them alike, so that they agree where no level is missing above another one.
REM-EFH leaves out the size of a best price, and sends a BBO without the size of its bid.

## Key results

- `Depth.best_agrees`: a record of five levels without a gap
- `EfhMarketManager.best_agrees_iff`: the records of REM-EFH for which they agree
- `best_agrees_feeds`: all feeds together
-/

namespace FixHandler.Market

open Cxx (Double)

variable {Price : Type}

/-- Among the messages is one L2, the BBO is sent if both of its sides have rows, the bid or the
    offer if only that side has, and they have the price and the size of the first row. -/
def BestAgrees (sent : List (Message Price)) : Prop :=
  ∃ contract bids offers time,
    (∀ c b o t, Message.l2 c b o t ∈ sent ↔ c = contract ∧ b = bids ∧ o = offers ∧ t = time) ∧
    ((∃ c b o, Message.bbo c b o ∈ sent) ↔ bids ≠ [] ∧ offers ≠ []) ∧
    ((∃ c b, Message.bid c b ∈ sent) ↔ bids ≠ [] ∧ offers = []) ∧
    ((∃ c o, Message.offer c o ∈ sent) ↔ bids = [] ∧ offers ≠ []) ∧
    (∀ c b o, Message.bbo c b o ∈ sent → bids.head? = some b ∧ offers.head? = some o) ∧
    (∀ c b, Message.bid c b ∈ sent → bids.head? = some b) ∧
    ∀ c o, Message.offer c o ∈ sent → offers.head? = some o

/-- The messages in the order in which every handler sends them. -/
theorem bestAgrees_iff {best trade : List (Message Price)} {contract other : String}
    {bids offers : List (DataPoint Price)} {time : String} {volume : UInt64} {turnover : Price}
    (hbest : ∀ m ∈ best, (∃ c b o, m = .bbo c b o) ∨ (∃ c b, m = .bid c b) ∨ ∃ c o, m = .offer c o)
    (htrade : ∀ m ∈ trade, ∃ c d t, m = .trade c d t) :
    BestAgrees (best ++ trade ++ [.turnover other volume turnover, .l2 contract bids offers time]) ↔
    ((∃ c b o, Message.bbo c b o ∈ best) ↔ bids ≠ [] ∧ offers ≠ []) ∧
    ((∃ c b, Message.bid c b ∈ best) ↔ bids ≠ [] ∧ offers = []) ∧
    ((∃ c o, Message.offer c o ∈ best) ↔ bids = [] ∧ offers ≠ []) ∧
    (∀ c b o, Message.bbo c b o ∈ best → bids.head? = some b ∧ offers.head? = some o) ∧
    (∀ c b, Message.bid c b ∈ best → bids.head? = some b) ∧
    ∀ c o, Message.offer c o ∈ best → offers.head? = some o := by
  -- the book of the messages is the one at their end
  have hl2 : ∀ c b o t, Message.l2 c b o t ∈ best ++ trade ++
      [.turnover other volume turnover, .l2 contract bids offers time] ↔
      c = contract ∧ b = bids ∧ o = offers ∧ t = time := by
    intro c b o t
    have hnotBest : Message.l2 c b o t ∉ best := fun h => by
      rcases hbest _ h with ⟨_, _, _, h⟩ | ⟨_, _, h⟩ | ⟨_, _, h⟩ <;> exact nomatch h
    have hnotTrade : Message.l2 c b o t ∉ trade := fun h => by
      obtain ⟨_, _, _, h⟩ := htrade _ h
      exact nomatch h
    simp [hnotBest, hnotTrade]
  -- the best messages are among the first only
  have hother : ∀ m : Message Price, (∀ c d t, m ≠ .trade c d t) → (∀ c v x, m ≠ .turnover c v x) →
      (∀ c b o t, m ≠ .l2 c b o t) → (m ∈ best ++ trade ++
        [.turnover other volume turnover, .l2 contract bids offers time] ↔ m ∈ best) := by
    intro m htr htu hl
    have hnotTrade : m ∉ trade := fun h => by
      obtain ⟨c, d, t, h⟩ := htrade _ h
      exact htr c d t h
    simp [hnotTrade, htu, hl]
  have hbbo : ∀ c b o, Message.bbo c b o ∈ best ++ trade ++
      [.turnover other volume turnover, .l2 contract bids offers time] ↔ Message.bbo c b o ∈ best :=
    fun c b o => hother _ nofun nofun nofun
  have hbid : ∀ c b, Message.bid c b ∈ best ++ trade ++
      [.turnover other volume turnover, .l2 contract bids offers time] ↔ Message.bid c b ∈ best :=
    fun c b => hother _ nofun nofun nofun
  have hoffer : ∀ c o, Message.offer c o ∈ best ++ trade ++
      [.turnover other volume turnover, .l2 contract bids offers time] ↔ Message.offer c o ∈ best :=
    fun c o => hother _ nofun nofun nofun
  unfold BestAgrees
  simp only [hl2, hbbo, hbid, hoffer]
  constructor
  · rintro ⟨contract', bids', offers', time', hsame, h⟩
    obtain ⟨-, rfl, rfl, -⟩ := (hsame contract bids offers time).mp ⟨rfl, rfl, rfl, rfl⟩
    exact h
  · exact fun h => ⟨contract, bids, offers, time, fun _ _ _ _ => Iff.rfl, h⟩

namespace Depth

variable [Double Price]

/-- A level that is there: it has a price, and a size. -/
def Present (price : Price) (volume : Int32) : Prop := price ≠ Double.dblMax ∧ volume > 0

instance [DecidableEq Price] (price : Price) (volume : Int32) : Decidable (Present price volume) :=
  inferInstanceAs (Decidable (_ ∧ _))

/-- A level is there only if the levels above it are. -/
structure NoGap (d : Depth Price) : Prop where
  bid2 : Present d.bidPrice2 d.bidVolume2 → Present d.bidPrice1 d.bidVolume1
  bid3 : Present d.bidPrice3 d.bidVolume3 → Present d.bidPrice2 d.bidVolume2
  bid4 : Present d.bidPrice4 d.bidVolume4 → Present d.bidPrice3 d.bidVolume3
  bid5 : Present d.bidPrice5 d.bidVolume5 → Present d.bidPrice4 d.bidVolume4
  ask2 : Present d.askPrice2 d.askVolume2 → Present d.askPrice1 d.askVolume1
  ask3 : Present d.askPrice3 d.askVolume3 → Present d.askPrice2 d.askVolume2
  ask4 : Present d.askPrice4 d.askVolume4 → Present d.askPrice3 d.askVolume3
  ask5 : Present d.askPrice5 d.askVolume5 → Present d.askPrice4 d.askVolume4

/-- A level is not shown when it has no price or no size. -/
theorem not_present_iff {price : Price} {volume : Int32} :
    ¬ Present price volume ↔ price = Double.dblMax ∨ volume ≤ 0 := by
  unfold Present
  rw [not_and_or, not_not, gt_iff_lt, Int32.not_lt]

variable [DecidableEq Price]

/-- A level that is shown is one row. -/
theorem row_of_present {price : Price} {volume : Int32} (h : Present price volume) :
    row price volume = [{ price, size := toSize volume }] :=
  if_neg fun h' => not_present_iff.mpr h' h

/-- A level that is not shown is no row. -/
theorem row_of_not_present {price : Price} {volume : Int32} (h : ¬ Present price volume) :
    row price volume = [] :=
  if_pos (not_present_iff.mp h)

/-- The rows of a side without a gap start with its first level. -/
theorem rows_head? {price₁ price₂ price₃ price₄ price₅ : Price}
    {volume₁ volume₂ volume₃ volume₄ volume₅ : Int32}
    (h₂ : Present price₂ volume₂ → Present price₁ volume₁)
    (h₃ : Present price₃ volume₃ → Present price₂ volume₂)
    (h₄ : Present price₄ volume₄ → Present price₃ volume₃)
    (h₅ : Present price₅ volume₅ → Present price₄ volume₄) :
    (row price₁ volume₁ ++ row price₂ volume₂ ++ row price₃ volume₃ ++ row price₄ volume₄ ++
      row price₅ volume₅).head? =
      if Present price₁ volume₁ then some { price := price₁, size := toSize volume₁ } else none := by
  by_cases h : Present price₁ volume₁
  · rw [row_of_present h, if_pos h]
    rfl
  · -- without a first level there is none behind it
    have hno₂ := mt h₂ h
    have hno₃ := mt h₃ hno₂
    have hno₄ := mt h₄ hno₃
    have hno₅ := mt h₅ hno₄
    rw [row_of_not_present h, row_of_not_present hno₂, row_of_not_present hno₃,
      row_of_not_present hno₄, row_of_not_present hno₅, if_neg h]
    rfl

/-- The best of a record is a BBO, a bid or an offer. -/
theorem best_kinds (d : Depth Price) : ∀ m ∈ d.best,
    (∃ c b o, m = .bbo c b o) ∨ (∃ c b, m = .bid c b) ∨ ∃ c o, m = .offer c o := by
  intro m hm
  unfold best at hm
  split at hm
  · exact nomatch hm
  · split at hm
    · exact .inr (.inr ⟨_, _, List.mem_singleton.mp hm⟩)
    · split at hm
      · exact .inr (.inl ⟨_, _, List.mem_singleton.mp hm⟩)
      · exact .inl ⟨_, _, _, List.mem_singleton.mp hm⟩

/-- The best prices of a record, in terms of its first level. -/
theorem best_eq (d : Depth Price) : d.best =
    if Present d.bidPrice1 d.bidVolume1 then
      if Present d.askPrice1 d.askVolume1 then
        [.bbo d.instrumentID { price := d.bidPrice1, size := toSize d.bidVolume1 }
          { price := d.askPrice1, size := toSize d.askVolume1 }]
      else [.bid d.instrumentID { price := d.bidPrice1, size := toSize d.bidVolume1 }]
    else if Present d.askPrice1 d.askVolume1 then
      [.offer d.instrumentID { price := d.askPrice1, size := toSize d.askVolume1 }]
    else [] := by
  have hbid : (d.bidPrice1 = Double.dblMax ∨ d.bidVolume1 ≤ 0) ↔
      ¬ Present d.bidPrice1 d.bidVolume1 := not_present_iff.symm
  have hask : (d.askPrice1 = Double.dblMax ∨ d.askVolume1 ≤ 0) ↔
      ¬ Present d.askPrice1 d.askVolume1 := not_present_iff.symm
  -- the test of both sides has the operands of the offer the other way round
  have hask' : (d.askVolume1 ≤ 0 ∨ d.askPrice1 = Double.dblMax) ↔
      ¬ Present d.askPrice1 d.askVolume1 := or_comm.trans hask
  unfold best
  simp only [hbid, hask, hask']
  by_cases hpresent : Present d.bidPrice1 d.bidVolume1 <;>
    by_cases hpresent' : Present d.askPrice1 d.askVolume1 <;> simp [hpresent, hpresent']

/-- The best prices of a record without a gap are its first rows. -/
theorem best_agrees {d : Depth Price} (h : d.NoGap) (time : String) (trademap : TradeMap) :
    BestAgrees (d.send time trademap).1 := by
  have hbids := rows_head? h.bid2 h.bid3 h.bid4 h.bid5
  have hoffers := rows_head? h.ask2 h.ask3 h.ask4 h.ask5
  unfold send
  refine (bestAgrees_iff d.best_kinds fun m hm => ?_).mpr ?_
  · split at hm
    · exact ⟨_, _, _, List.mem_singleton.mp hm⟩
    · exact nomatch hm
  · rw [best_eq]
    unfold bids offers
    have hnil : ∀ l : List (DataPoint Price), l = [] ↔ l.head? = none := fun l =>
      List.head?_eq_none_iff.symm
    simp only [ne_eq, hnil, hbids, hoffers]
    by_cases hbid : Present d.bidPrice1 d.bidVolume1 <;>
      by_cases hask : Present d.askPrice1 d.askVolume1 <;> simp +contextual [hbid, hask]

end Depth

/-- A size that is sent is not the one of a field that is not set. -/
theorem toSize_ne_zero {n : Int32} (h : n > 0) : toSize n ≠ 0 := by
  intro hzero
  have hint : n.toInt64 = 0 := by
    have := congrArg UInt64.toInt64 hzero
    simpa [toSize] using this
  have := congrArg Int64.toInt hint
  rw [Int32.toInt_toInt64] at this
  have := Int32.lt_iff_toInt_lt.mp h
  simp at *
  omega

end FixHandler.Market

namespace FixHandler.Rem.EfhMarketManager

open Cxx (Double)
open Market (BestAgrees bestAgrees_iff toSize_ne_zero DataPoint Message TradeMap toSize)

variable {Price : Type} [Double Price]

/-- The records for which the best prices agree: not both prices are there, and one that is there
    has a size. -/
structure Agreeing (marketData : GuavaUdpNormal Price) : Prop where
  one : marketData.bidPx = Double.dblMax ∨ marketData.askPx = Double.dblMax
  bid : marketData.bidPx ≠ Double.dblMax → marketData.bidShare > 0
  ask : marketData.askPx ≠ Double.dblMax → marketData.askShare > 0

/-- The condition on the two prices and shares -/
theorem agreeing_iff {marketData : GuavaUdpNormal Price} : Agreeing marketData ↔
    (marketData.bidPx = Double.dblMax ∨ marketData.askPx = Double.dblMax) ∧
    (marketData.bidPx ≠ Double.dblMax → marketData.bidShare > 0) ∧
    (marketData.askPx ≠ Double.dblMax → marketData.askShare > 0) :=
  ⟨fun h => ⟨h.one, h.bid, h.ask⟩, fun ⟨h₁, h₂, h₃⟩ => ⟨h₁, h₂, h₃⟩⟩

variable [DecidableEq Price]

/-- The best of a quote is a BBO, a bid or an offer. -/
theorem best_kinds (marketData : GuavaUdpNormal Price) : ∀ m ∈ best marketData,
    (∃ c b o, m = .bbo c b o) ∨ (∃ c b, m = .bid c b) ∨ ∃ c o, m = .offer c o := by
  intro m hm
  unfold best at hm
  split at hm
  · exact nomatch hm
  · split at hm
    · exact .inr (.inr ⟨_, _, List.mem_singleton.mp hm⟩)
    · split at hm
      · exact .inr (.inl ⟨_, _, List.mem_singleton.mp hm⟩)
      · exact .inl ⟨_, _, _, List.mem_singleton.mp hm⟩

/-- The best agrees with the levels where one price is missing and the other has a share. -/
theorem best_agrees_iff (str2stmp : String → UInt64) (current : String) (trademap : TradeMap)
    (marketData : GuavaUdpNormal Price) :
    BestAgrees (sendRemmarketData str2stmp current trademap marketData).1 ↔
      Agreeing marketData := by
  unfold sendRemmarketData
  -- what is sent for the last price is a trade
  have hkinds : ∀ n : Int32, ∀ time : String, ∀ m ∈ (if n > 0 then
      [Message.trade marketData.symbol { price := marketData.lastPx, size := toSize n } time]
      else []), ∃ c d t, m = .trade c d t := by
    intro n time m hm
    split at hm
    · exact ⟨_, _, _, List.mem_singleton.mp hm⟩
    · exact nomatch hm
  rw [bestAgrees_iff (best_kinds marketData) (hkinds _ _)]
  unfold best row
  by_cases hbid : marketData.bidPx = Double.dblMax
  · -- without a bid the offer decides
    by_cases hask : marketData.askPx = Double.dblMax
    · simp [hbid, hask, agreeing_iff]
    · by_cases hshare : marketData.askShare > 0
      · simp +contextual [hbid, hask, hshare, agreeing_iff]
      · simp [hbid, hask, hshare, agreeing_iff]
  · by_cases hask : marketData.askPx = Double.dblMax
    · by_cases hshare : marketData.bidShare > 0
      · simp +contextual [hbid, hask, hshare, agreeing_iff]
      · simp [hbid, hask, hshare, agreeing_iff]
    · -- a BBO: its bid has no size, and the first row has one
      by_cases hshare : marketData.bidShare > 0
      · have := toSize_ne_zero hshare
        simp [hbid, hask, hshare, agreeing_iff, this]
      · simp [hbid, hask, hshare, agreeing_iff]

end FixHandler.Rem.EfhMarketManager

namespace FixHandler.Market

open Cxx (Binary64 Double)

variable {Price : Type} [DecidableEq Price] [Double Price]

/-- The best prices agree in every feed of five levels, and in REM-EFH for its `Agreeing`
    records. -/
theorem best_agrees_feeds (str2stmp : String → UInt64) (trademap : TradeMap) :
    (∀ d : Ctp.DepthMarketDataField Price, d.NoGap →
      BestAgrees (Ctp.CustomMdSpi.sendDepthMarketData str2stmp trademap d).1) ∧
    (∀ d : Femas.DepthMarketDataField Price, d.NoGap →
      BestAgrees (Femas.BookManager.sendFemasmarketData str2stmp trademap d).1) ∧
    (∀ d : Rem.MarketDepthQuoteData Price, d.NoGap →
      BestAgrees (Rem.BookManager.sendRemmarketData str2stmp trademap d).1) ∧
    ∀ current (d : Rem.GuavaUdpNormal Price), BestAgrees (Rem.EfhMarketManager.sendRemmarketData str2stmp current trademap d).1 ↔
      Rem.EfhMarketManager.Agreeing d :=
  ⟨fun _ h => Depth.best_agrees h _ _, fun _ h => Depth.best_agrees h _ _,
    fun _ h => Depth.best_agrees h _ _,
    fun current => Rem.EfhMarketManager.best_agrees_iff str2stmp current trademap⟩

/-- Two levels of each side -/
private def twoLevels : Depth Binary64 :=
  { (default : Depth Binary64) with
    bidPrice1 := .fin 10, bidVolume1 := 5, askPrice1 := .fin 11, askVolume1 := 7
    bidPrice2 := .fin 9, bidVolume2 := 1, askPrice2 := .fin 12, askVolume2 := 2
    bidPrice3 := Double.dblMax, askPrice3 := Double.dblMax }

/-- The record of two levels has no gap. -/
private theorem noGap_twoLevels : twoLevels.NoGap := by
  constructor <;> decide +kernel

/-- Both prices, and both sizes -/
private def bothSides : Rem.GuavaUdpNormal Binary64 :=
  { (default : Rem.GuavaUdpNormal Binary64) with
    symbol := "a", bidPx := .fin 10, bidShare := 5, askPx := .fin 11, askShare := 7 }

/-- The feeds on the record of two levels -/
theorem best_agrees_feeds_twoLevels :
    BestAgrees (Ctp.CustomMdSpi.sendDepthMarketData (fun _ => 0) ∅
      { toDepth := twoLevels, actionDay := "20180102" }).1 ∧
    BestAgrees (Femas.BookManager.sendFemasmarketData (fun _ => 0) ∅
      { (default : Femas.DepthMarketDataField Binary64) with toDepth := twoLevels }).1 ∧
    BestAgrees (Rem.BookManager.sendRemmarketData (fun _ => 0) ∅
      { (default : Rem.MarketDepthQuoteData Binary64) with toDepth := twoLevels }).1 ∧
    BestAgrees (Rem.EfhMarketManager.sendRemmarketData (fun _ => 0) "20180102" ∅
      { bothSides with askPx := Double.dblMax }).1 :=
  have h := @best_agrees_feeds Binary64 _ _ (fun _ => 0) ∅
  ⟨h.1 _ noGap_twoLevels, h.2.1 _ noGap_twoLevels, h.2.2.1 _ noGap_twoLevels,
    (h.2.2.2 _ _).mpr ⟨by decide +kernel, by decide +kernel, by decide +kernel⟩⟩

/-- The BBO of REM-EFH has a bid of price five, and no size. -/
theorem not_best_agrees_bothSides :
    ¬ BestAgrees (Rem.EfhMarketManager.sendRemmarketData (fun _ => 0) "20180102" ∅ bothSides).1 :=
  fun h => absurd ((Rem.EfhMarketManager.best_agrees_iff _ _ _ _).mp h).one (by decide +kernel)

end FixHandler.Market
