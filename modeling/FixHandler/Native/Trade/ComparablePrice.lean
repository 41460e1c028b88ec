import Mathlib
import FixHandler.Cxx.Text
import FixHandler.ForStd.TreeMap
import FixHandler.Native.Ems

/-!
# Prices that can be compared

`trade_types.h` and `comparable_price.h`: prices in hundredths as 32-bit
integers, and the price of one side of a book, which sorts the best price
first. A market order has price `0`.

The sorted maps of a book hold the prices of one side only. `SidePrice` makes
that a matter of types, so the comparison that the maps use is total, while
`ComparablePrice.lt` keeps the exception the class throws when a buy price is
compared to a sell price.
-/

namespace FixHandler.Trade

open Cxx (Binary64 Exception)
open Ems (Order BuySell)

/-- Prices inside the simulater, in hundredths. -/
abbrev OrderPrice := UInt32

/-- Quantities. -/
abbrev OrderSize := UInt64

/-- `TO_ORDER_PRICE` -/
def toOrderPrice (price : Binary64) : OrderPrice :=
  (price.mul (.ofNat 100)).toUInt32

/-- `TO_REAL_PRICE` -/
def toRealPrice (orderPrice : OrderPrice) : Binary64 :=
  (Binary64.ofNat orderPrice.toNat).div (.ofNat 100)

/-- A price with its side, 0 being the market -/
structure ComparablePrice where
  isBuy : Bool
  price : OrderPrice
deriving DecidableEq, Repr

namespace ComparablePrice

/-- The price of an order. The conversion throws if the price text is no number. -/
def ofOrder (order : Order) : Except Exception ComparablePrice := do
  let price ← Cxx.stod order.price
  return ⟨order.buySell == .buy, toOrderPrice price⟩

/-- The market has the price 0. -/
def isMarket (p : ComparablePrice) : Bool := p.price == 0

/-- Can an order at `price` trade with one of the other side at `opposite`? -/
def isMatch (price opposite : ComparablePrice) : Except Exception Bool :=
  if price.isBuy == opposite.isBuy then .error (.invalidArgument "cannot match same side")
  else if price.isMarket && opposite.isMarket then .ok false
  else if price.isMarket || opposite.isMarket then .ok true
  else if price.price == opposite.price then .ok true
  else if price.isBuy then .ok (price.price > opposite.price)
  else .ok (price.price < opposite.price)

/-- The operator `<`: `a` is a better price than `b`. -/
def lt (a b : ComparablePrice) : Except Exception Bool :=
  if a.isBuy != b.isBuy then .error (.invalidArgument "cannot compare buy to sell")
  else if a.isMarket then .ok (!b.isMarket)
  else if b.isMarket then .ok false
  else .ok (if a.isBuy then a.price > b.price else a.price < b.price)

/-- The operator `==` -/
def eq (a b : ComparablePrice) : Except Exception Bool :=
  if a.isBuy != b.isBuy then .error (.invalidArgument "cannot compare buy to sell")
  else .ok (a.price == b.price)

end ComparablePrice

/-- A price of the buy side (`true`) or of the sell side (`false`). -/
structure SidePrice (isBuy : Bool) where
  price : OrderPrice
deriving DecidableEq, Repr

namespace SidePrice

variable {isBuy : Bool}

/-- The price with its side -/
def toComparable (p : SidePrice isBuy) : ComparablePrice := ⟨isBuy, p.price⟩

/-- The place of a price in its side: the market price first, then the highest
    price of a buy side or the lowest of a sell side. -/
def rank : {isBuy : Bool} → SidePrice isBuy → Nat
  | true, p => if p.price = 0 then 0 else 2 ^ 32 - p.price.toNat
  | false, p => p.price.toNat

/-- A number of 32 bits is zero where its value is. -/
private theorem uint32_eq_zero_iff (p : UInt32) : p = 0 ↔ p.toNat = 0 := by
  rw [← UInt32.toNat_inj]; rfl

/-- Equal ranks are of equal prices. -/
theorem rank_injective : Function.Injective (rank : SidePrice isBuy → Nat) := by
  rintro ⟨p⟩ ⟨q⟩ h
  have hp := p.toNat_lt
  have hq := q.toNat_lt
  congr 1
  apply UInt32.toNat_inj.mp
  cases isBuy with
  | false => exact h
  | true =>
    simp only [rank, uint32_eq_zero_iff] at h
    split at h <;> split at h <;> omega

instance : LinearOrder (SidePrice isBuy) := LinearOrder.lift' rank rank_injective

/-- The better price has the lower rank. -/
theorem lt_iff_rank (a b : SidePrice isBuy) : a < b ↔ a.rank < b.rank := Iff.rfl

/-- On the prices of one side the operator `<` never throws, and it is the order
    the maps sort by. -/
theorem lt_toComparable (a b : SidePrice isBuy) :
    a.toComparable.lt b.toComparable = .ok (decide (a < b)) := by
  obtain ⟨p⟩ := a
  obtain ⟨q⟩ := b
  have hp := p.toNat_lt
  have hq := q.toNat_lt
  cases isBuy <;>
    simp only [ComparablePrice.lt, toComparable, ComparablePrice.isMarket, bne_self_eq_false,
      Bool.false_eq_true, if_false, beq_iff_eq, lt_iff_rank, rank, uint32_eq_zero_iff, gt_iff_lt,
      UInt32.lt_iff_toNat_lt, if_true] <;>
    split_ifs <;> simp only [Except.ok.injEq, beq_eq_decide, decide_eq_decide, uint32_eq_zero_iff,
      decide_eq_false_iff_not, ← decide_not, Bool.false_eq, not_lt] <;> omega

end SidePrice

/-- One sorted map for each side of a book (`m_bid` and `m_ask`). -/
structure SideMaps (ν : Type) where
  bid : Std.TreeMap (SidePrice true) ν := ∅
  ask : Std.TreeMap (SidePrice false) ν := ∅

namespace SideMaps

variable {ν : Type}

/-- The map of a side. -/
def side (m : SideMaps ν) : (isBuy : Bool) → Std.TreeMap (SidePrice isBuy) ν
  | true => m.bid
  | false => m.ask

/-- Replace the map of a side. -/
def setSide (m : SideMaps ν) : (isBuy : Bool) → Std.TreeMap (SidePrice isBuy) ν → SideMaps ν
  | true, t => { m with bid := t }
  | false, t => { m with ask := t }

/-- What a side holds at a price. -/
def get? (m : SideMaps ν) (cp : ComparablePrice) : Option ν :=
  (m.side cp.isBuy)[(⟨cp.price⟩ : SidePrice cp.isBuy)]?

/-- Put a value under a price of its side -/
def insert (m : SideMaps ν) (cp : ComparablePrice) (v : ν) : SideMaps ν :=
  m.setSide cp.isBuy ((m.side cp.isBuy).insert ⟨cp.price⟩ v)

/-- Take a price out of its side -/
def erase (m : SideMaps ν) (cp : ComparablePrice) : SideMaps ν :=
  m.setSide cp.isBuy ((m.side cp.isBuy).erase ⟨cp.price⟩)

/-- Nothing is under any price. -/
@[simp] theorem get?_empty (cp : ComparablePrice) : ({} : SideMaps ν).get? cp = none := by
  obtain ⟨b, p⟩ := cp
  cases b <;> simp [get?, side]

/-- What is found after a value was put in -/
theorem get?_insert (m : SideMaps ν) (cp cp' : ComparablePrice) (v : ν) :
    (m.insert cp v).get? cp' = if cp' = cp then some v else m.get? cp' := by
  obtain ⟨b, p⟩ := cp
  obtain ⟨b', p'⟩ := cp'
  cases b <;> cases b' <;>
    simp [get?, insert, side, setSide, Std.TreeMap.getElem?_insert_if]

/-- What is found after a price was taken out -/
theorem get?_erase (m : SideMaps ν) (cp cp' : ComparablePrice) :
    (m.erase cp).get? cp' = if cp' = cp then none else m.get? cp' := by
  obtain ⟨b, p⟩ := cp
  obtain ⟨b', p'⟩ := cp'
  cases b <;> cases b' <;>
    simp [get?, erase, side, setSide, Std.TreeMap.getElem?_erase_if]

/-- The entries of a side's map are the prices that hold something. -/
theorem mem_toList_side (m : SideMaps ν) (isBuy : Bool) (p : SidePrice isBuy) (v : ν) :
    (p, v) ∈ (m.side isBuy).toList ↔ m.get? p.toComparable = some v :=
  Std.TreeMap.mem_toList_iff_getElem?_eq_some

end SideMaps

end FixHandler.Trade
