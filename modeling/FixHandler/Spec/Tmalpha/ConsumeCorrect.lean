import Mathlib
import FixHandler.Native.Persist.Mongo
import FixHandler.Native.Tmalpha.ReplayDataConsumer
import FixHandler.Spec.Market.ConvertCorrect

/-!
# What the consumer makes of a document

A document that a converter has made of a message becomes that message again, its doubles cut to six
digits. Sizes are written as `std::uint64_t` and read as `long`, so that one with the highest bit is
not read.

## Key results

- `toNat_toSize_lt_iff`: the numbers whose sizes can be read
- `consume_document`: what is made of the document of a message
- `Depth.small_of_mem_send`: the messages of a record whose documents are read
-/

namespace FixHandler

open Cxx (Float64)
open Json (Error getSub getStr getInt getInt32 getInt_uint64 getDouble_eq getStr_eq getArr_eq)
open Market (DataPoint Message Depth BookConvert render)
open Market.ConvertListener (pointJson)

/-! ## Sizes -/

namespace Market

/-- The sizes and the volume of a message -/
def Message.sizes {Price : Type} : Message Price → List UInt64
  | .bbo _ b o => [b.size, o.size]
  | .bid _ b => [b.size]
  | .offer _ o => [o.size]
  | .trade _ last _ => [last.size]
  | .turnover _ totalVolume _ => [totalVolume]
  | .l2 _ bids offers _ => bids.map (·.size) ++ offers.map (·.size)

/-- All sizes of a message are `long`. -/
def Message.Small {Price : Type} (m : Message Price) : Prop := ∀ size ∈ m.sizes, size.toNat < 2 ^ 63

instance {Price : Type} (m : Message Price) : Decidable m.Small :=
  inferInstanceAs (Decidable (∀ size ∈ m.sizes, size.toNat < 2 ^ 63))

/-- The highest bit of a size is the sign of its number. -/
theorem toNat_toSize_lt_iff {n : Int32} : (toSize n).toNat < 2 ^ 63 ↔ 0 ≤ n := by
  -- the conversion extends the sign, so that both see the number `n`
  have hint : n.toInt64.toBitVec.toInt = n.toInt := by
    rw [Int64.toInt_toBitVec, Int32.toInt_toInt64]
  have hnat : (toSize n).toNat = n.toInt64.toBitVec.toNat := rfl
  -- the number is negative exactly if the 64 bit pattern is in the upper half
  rw [BitVec.toInt_eq_toNat_cond] at hint
  rw [hnat, Int32.le_iff_toInt_le, Int32.toInt_zero]
  split at hint <;> omega

/-- A level that is sent has a size that can be read. -/
theorem Depth.size_lt_of_mem_row {price : Float64} {volume : Int32} {p : DataPoint Float64}
    (hp : p ∈ row price volume) : p.size.toNat < 2 ^ 63 := by
  unfold row at hp
  -- a level without a volume above zero is left out
  split at hp
  · exact nomatch hp
  · next h =>
    rw [List.mem_singleton.mp hp]
    exact toNat_toSize_lt_iff.mpr (Int32.not_lt.mp fun hlt => h (.inr (Int32.le_of_lt hlt)))

/-- Only the volume of a record can become a size that is not read. -/
theorem Depth.small_of_mem_send_of_turnover {d : Depth Float64} {time : String}
    {trademap : TradeMap} {m : Message Float64} (hm : m ∈ (d.send time trademap).1)
    (hvolume : ∀ contract totalVolume turnover, m = .turnover contract totalVolume turnover →
      totalVolume.toNat < 2 ^ 63) : m.Small := by
  -- the five levels of a side one by one
  have hbids : ∀ p ∈ d.bids, p.size.toNat < 2 ^ 63 := by
    intro p hp
    simp only [bids, List.mem_append] at hp
    rcases hp with (((hp | hp) | hp) | hp) | hp <;> exact size_lt_of_mem_row hp
  have hoffers : ∀ p ∈ d.offers, p.size.toNat < 2 ^ 63 := by
    intro p hp
    simp only [offers, List.mem_append] at hp
    rcases hp with (((hp | hp) | hp) | hp) | hp <;> exact size_lt_of_mem_row hp
  have hpos {n : Int32} (hn : ¬ n ≤ 0) : (toSize n).toNat < 2 ^ 63 :=
    toNat_toSize_lt_iff.mpr (Int32.le_of_lt (Int32.not_le.mp hn))
  -- what is sent is the best prices, a trade if there is one, the turnover and the levels
  unfold send at hm
  generalize makePriceVolume trademap d.instrumentID d.volume d.updateTime = made at hm
  obtain ⟨tmpvolume, trademap'⟩ := made
  dsimp only at hm
  simp only [List.mem_append, List.mem_cons, List.not_mem_nil, or_false] at hm
  rcases hm with (hm | hm) | rfl | rfl
  · -- a side whose price is sent has a size
    unfold best at hm
    split_ifs at hm with hnone hbid hoffer
    · exact absurd hm List.not_mem_nil
    · rw [List.mem_singleton.mp hm]
      have hask : ¬ d.askVolume1 ≤ 0 := fun h => hnone ⟨hbid, .inl h⟩
      exact fun size hsize => List.mem_singleton.mp hsize ▸ hpos hask
    · rw [List.mem_singleton.mp hm]
      exact fun size hsize => List.mem_singleton.mp hsize ▸ hpos fun h => hbid (.inr h)
    · rw [List.mem_singleton.mp hm]
      intro size hsize
      simp only [Message.sizes, List.mem_cons, List.not_mem_nil, or_false] at hsize
      rcases hsize with rfl | rfl
      · exact hpos fun h => hbid (.inr h)
      · exact hpos fun h => hoffer (.inr h)
  · split at hm
    · -- a trade is sent for a volume above zero
      next htrade =>
      rw [List.mem_singleton.mp hm]
      exact fun size hsize => List.mem_singleton.mp hsize ▸ hpos (Int32.not_le.mpr htrade)
    · exact absurd hm List.not_mem_nil
  · -- the turnover has the volume of the record, about which the hypothesis is
    exact fun size hsize => List.mem_singleton.mp hsize ▸ hvolume _ _ _ rfl
  · intro size hsize
    rcases List.mem_append.mp hsize with hsize | hsize
    · obtain ⟨p, hp, rfl⟩ := List.mem_map.mp hsize
      exact hbids p hp
    · obtain ⟨p, hp, rfl⟩ := List.mem_map.mp hsize
      exact hoffers p hp

/-- If the volume of a record is not negative, all of its messages can be read. -/
theorem Depth.small_of_mem_send {d : Depth Float64} {time : String} {trademap : TradeMap}
    (hd : 0 ≤ d.volume) {m : Message Float64} (hm : m ∈ (d.send time trademap).1) : m.Small := by
  refine small_of_mem_send_of_turnover hm ?_
  rintro contract totalVolume turnover rfl
  rw [(eq_of_turnover_mem_send hm).1]
  exact toNat_toSize_lt_iff.mpr hd

end Market

/-! ## Documents -/

namespace Tmalpha.ReplayDataConsumer

/-- A level is read again if its size is a `long`; its price is what six digits show of it. -/
theorem parsePoint_pointJson (p : DataPoint Float64) :
    parsePoint (some (pointJson p)) = if p.size.toNat < 2 ^ 63 then .ok (p.map Float64.shown)
      else .error (.std (.outOfRange "stol")) := by
  -- the size goes through a signed number and back
  have hsize : (Int64.ofNat p.size.toNat).toUInt64 = p.size := by
    rw [Int64.toUInt64_ofNat', UInt64.ofNat_toNat]
  unfold parsePoint
  rw [getDouble_eq (x := p.price) rfl, Except.ok_bind, getInt_uint64 (n := p.size) rfl]
  by_cases hp : p.size.toNat < 2 ^ 63
  · rw [if_pos hp, if_pos hp, Except.ok_bind, hsize]
    rfl
  · rw [if_neg hp, if_neg hp]
    rfl

/-- Levels are read again if all of their sizes are `long`, and the first other one throws. -/
theorem mapM_parsePoint (ps : List (DataPoint Float64)) :
    (ps.map pointJson).mapM (fun item => parsePoint (some item)) =
      if ∀ p ∈ ps, p.size.toNat < 2 ^ 63 then .ok (ps.map (·.map Float64.shown))
      else .error (.std (.outOfRange "stol")) := by
  induction ps with
  | nil => rfl
  | cons p ps ih =>
    rw [List.map_cons, List.mapM_cons, parsePoint_pointJson, ih]
    simp only [List.forall_mem_cons]
    by_cases hp : p.size.toNat < 2 ^ 63
    · by_cases hps : ∀ q ∈ ps, q.size.toNat < 2 ^ 63
      · rw [if_pos hp, if_pos hps, if_pos ⟨hp, hps⟩]
        rfl
      · -- the levels behind this one throw
        rw [if_pos hp, if_neg hps, if_neg fun h => hps h.2]
        rfl
    · -- this level throws, whatever comes behind it
      rw [if_neg hp, if_neg fun h : _ ∧ _ => hp h.1]
      rfl

/-- What is thrown for a size that is not read -/
abbrev outOfRange {α : Type} : Except Error α := .error (.std (.outOfRange "stol"))

/-- The two best prices of a message are read again. -/
theorem parseBbo_eq (contract : String) (bid offer : DataPoint Float64) :
    parseBbo (some (render (.bbo contract bid offer)).2) =
      if (Message.bbo contract bid offer).Small then
        .ok (.market ((Message.bbo contract bid offer).map Float64.shown)) else outOfRange := by
  have hbid : getSub (some (render (.bbo contract bid offer)).2) "bid" = some (pointJson bid) := rfl
  have hoffer : getSub (some (render (.bbo contract bid offer)).2) "offer" =
    some (pointJson offer) := rfl
  have hsmall : (Message.bbo contract bid offer).Small ↔
      bid.size.toNat < 2 ^ 63 ∧ offer.size.toNat < 2 ^ 63 := by
    simp [Message.Small, Message.sizes]
  unfold parseBbo
  rw [getStr_eq (t := contract) rfl, Except.ok_bind, hbid, hoffer, parsePoint_pointJson,
    parsePoint_pointJson]
  simp only [hsmall]
  -- the bid is read first, and the offer only if that went well
  by_cases hb : bid.size.toNat < 2 ^ 63
  · by_cases ho : offer.size.toNat < 2 ^ 63
    · rw [if_pos hb, if_pos ho, if_pos ⟨hb, ho⟩]
      rfl
    · rw [if_pos hb, if_neg ho, if_neg fun h => ho h.2]
      rfl
  · rw [if_neg hb, if_neg fun h : _ ∧ _ => hb h.1]
    rfl

/-- A bid alone is read again. -/
theorem parseBid_eq (contract : String) (bid : DataPoint Float64) :
    parseBid (some (render (.bid contract bid)).2) =
      if (Message.bid contract bid).Small then
        .ok (.market ((Message.bid contract bid).map Float64.shown)) else outOfRange := by
  have hbid : getSub (some (render (.bid contract bid)).2) "bid" = some (pointJson bid) := rfl
  have hsmall : (Message.bid contract bid).Small ↔ bid.size.toNat < 2 ^ 63 := by
    simp [Message.Small, Message.sizes]
  unfold parseBid
  rw [getStr_eq (t := contract) rfl, Except.ok_bind, hbid, parsePoint_pointJson]
  simp only [hsmall]
  split <;> rfl

/-- An offer alone is read again. -/
theorem parseOffer_eq (contract : String) (offer : DataPoint Float64) :
    parseOffer (some (render (.offer contract offer)).2) =
      if (Message.offer contract offer).Small then
        .ok (.market ((Message.offer contract offer).map Float64.shown)) else outOfRange := by
  have hoffer : getSub (some (render (.offer contract offer)).2) "offer" =
    some (pointJson offer) := rfl
  have hsmall : (Message.offer contract offer).Small ↔ offer.size.toNat < 2 ^ 63 := by
    simp [Message.Small, Message.sizes]
  unfold parseOffer
  rw [getStr_eq (t := contract) rfl, Except.ok_bind, hoffer, parsePoint_pointJson]
  simp only [hsmall]
  split <;> rfl

/-- A trade is read again. -/
theorem parseTrade_eq (contract : String) (last : DataPoint Float64) (time : String) :
    parseTrade (some (render (.trade contract last time)).2) =
      if (Message.trade contract last time).Small then
        .ok (.market ((Message.trade contract last time).map Float64.shown)) else outOfRange := by
  have hlast : getSub (some (render (.trade contract last time)).2) "last" =
    some (pointJson last) := rfl
  have hsmall : (Message.trade contract last time).Small ↔ last.size.toNat < 2 ^ 63 := by
    simp [Message.Small, Message.sizes]
  unfold parseTrade
  rw [getStr_eq (t := contract) rfl, Except.ok_bind, hlast, parsePoint_pointJson]
  simp only [hsmall]
  split <;> rfl

/-- A turnover is read again; its volume is the size that can be too large. -/
theorem parseTurnover_eq (contract : String) (totalVolume : UInt64) (turnover : Float64) :
    parseTurnover (some (render (.turnover contract totalVolume turnover)).2) =
      if (Message.turnover contract totalVolume turnover).Small then
        .ok (.market ((Message.turnover contract totalVolume turnover).map Float64.shown))
      else outOfRange := by
  have hsmall : (Message.turnover contract totalVolume turnover).Small ↔
      totalVolume.toNat < 2 ^ 63 := by
    simp [Message.Small, Message.sizes]
  have hvolume : (Int64.ofNat totalVolume.toNat).toUInt64 = totalVolume := by
    rw [Int64.toUInt64_ofNat', UInt64.ofNat_toNat]
  unfold parseTurnover
  rw [getStr_eq (t := contract) rfl, Except.ok_bind, getInt_uint64 (n := totalVolume) rfl,
    getDouble_eq (x := turnover) rfl]
  -- the volume is read before the turnover
  by_cases htotal : totalVolume.toNat < 2 ^ 63
  · rw [if_pos htotal, if_pos (hsmall.mpr htotal), Except.ok_bind, Except.ok_bind, hvolume]
    rfl
  · rw [if_neg htotal, if_neg fun h => htotal (hsmall.mp h)]
    rfl

/-- The levels of both sides are read again. -/
theorem parseL2_eq (contract : String) (bids offers : List (DataPoint Float64)) (time : String) :
    parseL2 (some (render (.l2 contract bids offers time)).2) =
      if (Message.l2 contract bids offers time).Small then
        .ok (.market ((Message.l2 contract bids offers time).map Float64.shown))
      else outOfRange := by
  have hsmall : (Message.l2 contract bids offers time).Small ↔
      (∀ p ∈ bids, p.size.toNat < 2 ^ 63) ∧ ∀ p ∈ offers, p.size.toNat < 2 ^ 63 := by
    simp only [Message.Small, Message.sizes, List.mem_append, List.mem_map, or_imp, forall_and,
      forall_exists_index, and_imp, forall_apply_eq_imp_iff₂]
  unfold parseL2
  rw [getStr_eq (t := contract) rfl, Except.ok_bind, getArr_eq (l := bids.map pointJson) rfl,
    Except.ok_bind, mapM_parsePoint, getArr_eq (l := offers.map pointJson) rfl]
  -- an exception in the bids comes before the offers are looked at
  by_cases hb : ∀ p ∈ bids, p.size.toNat < 2 ^ 63
  · rw [if_pos hb, Except.ok_bind, Except.ok_bind, mapM_parsePoint]
    by_cases ho : ∀ p ∈ offers, p.size.toNat < 2 ^ 63
    · rw [if_pos ho, if_pos (hsmall.mpr ⟨hb, ho⟩)]
      rfl
    · rw [if_neg ho, if_neg fun h => ho (hsmall.mp h).2]
      rfl
  · rw [if_neg hb, if_neg fun h => hb (hsmall.mp h).1]
    rfl

/-- A document of a converter is read if its `VolumeMultiple` and all its sizes are. -/
theorem consume_document (market insertTime sendingTime sendingTimeStr volumeMultiple : String)
    (m : Message Float64) :
    consume (Persist.addVolumeMultiple volumeMultiple (BookConvert.document market (render m).1
        insertTime sendingTime sendingTimeStr (render m).2)) =
      (Cxx.stol volumeMultiple).mapError Error.std >>= fun multiple =>
        if m.Small then .ok (multiple.toInt32, some (.market (m.map Float64.shown)))
        else outOfRange := by
  -- appending the multiple leaves the message where it is
  have hmessage : getSub (some (Persist.addVolumeMultiple volumeMultiple (BookConvert.document market
      (render m).1 insertTime sendingTime sendingTimeStr (render m).2))) "message" =
      some (render m).2 := rfl
  have hmultiple : getInt32 (some (Persist.addVolumeMultiple volumeMultiple (BookConvert.document
      market (render m).1 insertTime sendingTime sendingTimeStr (render m).2))) "VolumeMultiple" =
      (Cxx.stol volumeMultiple).mapError Error.std >>= fun multiple => .ok multiple.toInt32 := rfl
  unfold consume
  rw [getStr_eq (t := (render m).1) rfl, getStr_eq (t := insertTime) rfl, hmessage, hmultiple,
    Except.ok_bind, Except.ok_bind]
  -- a multiple that is no number throws before the message is read
  cases (Cxx.stol volumeMultiple).mapError Error.std with
  | error e => rfl
  | ok multiple =>
    rw [Except.ok_bind, Except.ok_bind, Except.ok_bind]
    -- the type in the document is the one of the message, so that each has its own parser
    cases m with
    | bbo contract bid offer =>
      show (some <$> parseBbo (some (render (.bbo contract bid offer)).2) >>= _) = _
      rw [parseBbo_eq]
      split <;> rfl
    | bid contract bid =>
      show (some <$> parseBid (some (render (.bid contract bid)).2) >>= _) = _
      rw [parseBid_eq]
      split <;> rfl
    | offer contract offer =>
      show (some <$> parseOffer (some (render (.offer contract offer)).2) >>= _) = _
      rw [parseOffer_eq]
      split <;> rfl
    | trade contract last time =>
      show (some <$> parseTrade (some (render (.trade contract last time)).2) >>= _) = _
      rw [parseTrade_eq]
      split <;> rfl
    | turnover contract totalVolume turnover =>
      show (some <$> parseTurnover (some (render (.turnover contract totalVolume turnover)).2) >>=
        _) = _
      rw [parseTurnover_eq]
      split <;> rfl
    | l2 contract bids offers time =>
      show (some <$> parseL2 (some (render (.l2 contract bids offers time)).2) >>= _) = _
      rw [parseL2_eq]
      split <;> rfl

end Tmalpha.ReplayDataConsumer

end FixHandler
