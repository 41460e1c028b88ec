import Mathlib
import FixHandler.Native.Trade.ComparablePrice

/-!
# The published book of a contract

`trade_market_state.cc`: the quantity that rests at every limit price. Prices
beyond the published depth are kept too, since they move up when a better price
disappears. Market orders do not show in the book.
-/

namespace FixHandler.Trade

open Cxx (Exception)
open Ems (Order)
open Dms (DataPoint L2 BBO)

/-- The sizes of the levels of both sides -/
structure TradeMarketState extends SideMaps OrderSize where
  contractName : String
  depth : UInt32

/-- `ComparablePrice::To_string` -/
def ComparablePrice.toString (cp : ComparablePrice) : String :=
  (if cp.isBuy then "Buy at " else "Sell at ") ++
    (if cp.isMarket then "Market" else (toRealPrice cp.price).toString)

namespace TradeMarketState

/-- `std::distance(current_states.begin(), current_states.find(price))`, an `int` -/
def level (m : TradeMarketState) (cp : ComparablePrice) : Int32 :=
  .ofNat ((m.side cp.isBuy).toList.takeWhile fun kv => kv.1 < ⟨cp.price⟩).length

/-- 0: the level is deeper than what is published, 1: only L2 changes, 2: BBO changes. -/
def changeOf (m : TradeMarketState) (level : Int32) : Nat :=
  if level ≥ m.depth.toInt32 then 0 else if level == 0 then 2 else 1

/-- A new order rests. -/
def onOrderCreated (m : TradeMarketState) (order : Order) :
    Except Exception (TradeMarketState × Nat) := do
  if order.orderType == .market then return (m, 0)
  let price ← ComparablePrice.ofOrder order
  let size := order.quantity
  let m' : TradeMarketState := { m with
    toSideMaps := m.insert price (match m.get? price with
      | some current => current + size
      | none => size) }
  return (m', m.changeOf (m'.level price))

/-- Take a quantity off an order's price, and the price out when nothing is left. -/
def deleteOrder (m : TradeMarketState) (order : Order) (deleteSize : OrderSize) :
    Except Exception (TradeMarketState × Nat) := do
  if order.orderType == .market then return (m, 0)
  let price ← ComparablePrice.ofOrder order
  let some current := m.get? price
    | throw (.invalidArgument ("price not found: " ++ price.toString))
  let size := current - deleteSize
  let level := m.level price
  return ({ m with toSideMaps := if size == 0 then m.erase price else m.insert price size },
    m.changeOf level)

/-- The quantity of a deleted order leaves its level. -/
def onOrderDeleted (m : TradeMarketState) (order : Order) :
    Except Exception (TradeMarketState × Nat) :=
  m.deleteOrder order order.quantity

/-- The quantity that was filled leaves its level. -/
def onOrderFilled (m : TradeMarketState) (order : Order) (filledSize : OrderSize) :
    Except Exception (TradeMarketState × Nat) :=
  m.deleteOrder order filledSize

/-- `Fill_data_point` -/
def fillDataPoint {isBuy : Bool} (kv : SidePrice isBuy × OrderSize) : DataPoint :=
  ⟨toRealPrice kv.1.price, kv.2⟩

/-- The loop of `L2` over one side: it stops once a row makes the depth full. -/
def rows {isBuy : Bool} (depth : Int32) :
    List (SidePrice isBuy × OrderSize) → List DataPoint → List DataPoint
  | [], added => added
  | kv :: rest, added =>
    let added := added ++ [fillDataPoint kv]
    if Int32.ofNat added.length ≥ depth then added else rows depth rest added

/-- The levels of both sides, down to the depth -/
def l2 (m : TradeMarketState) : L2 where
  contract := m.contractName
  bid := rows m.depth.toInt32 m.bid.toList []
  offer := rows m.depth.toInt32 m.ask.toList []

/-- The first level of each side, if there is one -/
def bbo (m : TradeMarketState) : BBO where
  contract := m.contractName
  bid := m.bid.toList.head?.map fillDataPoint
  offer := m.ask.toList.head?.map fillDataPoint

end TradeMarketState

end FixHandler.Trade
