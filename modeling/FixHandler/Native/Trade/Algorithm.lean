import Mathlib
import FixHandler.Native.Trade.OrderBox

/-!
# The matching algorithm

`trade_algorithm_simple.h`: walk the queues of the other side from the best
price on, and in each queue from the oldest order on, until the incoming order
is used up or the next price does not match.
-/

namespace FixHandler.Trade

open Cxx (Exception Heap Ptr)
open Ems (Order)

/-- A resting order with the quantity and the price of its fill -/
structure MatchedOrder where
  matchOrder : Ptr
  matchPrice : OrderPrice
  matchQuantity : OrderSize
deriving DecidableEq, Repr

namespace TradeAlgorithmSimple

/-- Match against the orders queued at one price. Returns the quantity left, the
    matches so far, and whether the walk is over because nothing is left. -/
def matchQueue (heap : Heap Order) (orderPrice workingPrice : ComparablePrice) :
    List Ptr → OrderSize → List MatchedOrder → Except Exception (OrderSize × List MatchedOrder × Bool)
  | [], orderSize, matched => return (orderSize, matched, false)
  | w :: queue, orderSize, matched => do
    let working ← heap.deref w
    let matchedPrice := if workingPrice.isMarket then orderPrice.price else workingPrice.price
    let matchedSize := min orderSize working.quantity
    let matched := matched ++ [⟨w, matchedPrice, matchedSize⟩]
    let orderSize := orderSize - matchedSize
    if orderSize == 0 then return (orderSize, matched, true)
    matchQueue heap orderPrice workingPrice queue orderSize matched

/-- Match against the prices of the other side, best first. -/
def matchLevels {isBuy : Bool} (heap : Heap Order) (orderPrice : ComparablePrice) :
    List (SidePrice isBuy × List Ptr) → OrderSize → List MatchedOrder →
      Except Exception (OrderSize × List MatchedOrder)
  | [], orderSize, matched => return (orderSize, matched)
  | (p, queue) :: levels, orderSize, matched => do
    let workingPrice := p.toComparable
    if orderPrice.isMarket && workingPrice.isMarket then
      matchLevels heap orderPrice levels orderSize matched
    else if !(← ComparablePrice.isMatch orderPrice workingPrice) then
      return (orderSize, matched)
    else
      let (orderSize, matched, done) ←
        matchQueue heap orderPrice workingPrice queue orderSize matched
      if done then return (orderSize, matched)
      matchLevels heap orderPrice levels orderSize matched

/-- The orders an incoming order trades with, the quantity left over, and whether
    that quantity has to be deleted at once. -/
def «matches» {isBuy : Bool} (heap : Heap Order) (order : Order)
    (oppositeWorkingOrders : Std.TreeMap (SidePrice isBuy) (List Ptr)) :
    Except Exception (List MatchedOrder × OrderSize × Bool) := do
  let orderPrice ← ComparablePrice.ofOrder order
  let (orderSize, matched) ←
    matchLevels heap orderPrice oppositeWorkingOrders.toList order.quantity []
  if orderSize == 0 then return (matched, 0, false)
  match order.tif with
  | .fak => return (matched, orderSize, true)
  | .fok => return ([], order.quantity, true)
  | _ => return (matched, orderSize, false)

end TradeAlgorithmSimple

end FixHandler.Trade
