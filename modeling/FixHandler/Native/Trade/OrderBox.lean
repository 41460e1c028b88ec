import Mathlib
import FixHandler.Native.Trade.ComparablePrice

/-!
# The order box of a contract

`trade_order_box.cc`. A box owns its orders through raw pointers: an order is
allocated when it starts to rest or is cancelled as a remainder, the queue of
its price and the map of working (or cancelled) orders share the pointer, and
the memory is given back when the order is completely filled or replaced.

`std::multimap` is used with `insert`, `find` and `equal_range` only, so the
fills are a list in the order of their insertion.
-/

namespace FixHandler.Trade

open Cxx (Exception Heap Ptr)
open Ems (Order Fill BuySell)

/-- All orders of one contract. `bid` and `ask` queue the working orders of each
    price by time; the maps are keyed by client order id. -/
structure TradeOrderBox extends SideMaps (List Ptr) where
  contractName : String
  workingOrders : Std.TreeMap String Ptr := ∅
  canceledOrders : Std.TreeMap String Ptr := ∅
  filledOrders : List Fill := []
  heap : Heap Order := Heap.empty

namespace TradeOrderBox

/-- The queues an order of the given side can trade with. -/
def oppositeWorkingOrders (box : TradeOrderBox) (buySell : BuySell) :
    Std.TreeMap (SidePrice !(buySell == .buy)) (List Ptr) :=
  box.side _

/-- Take a working order out of its queue, the price out of the map when nothing
    else is queued there, and the order out of the working orders. -/
def removeWorkingOrder (box : TradeOrderBox) (clientOrderId : String) :
    Except Exception (TradeOrderBox × Ptr) := do
  -- `operator[]` creates a null pointer for an unknown id, which the next line dereferences
  let some order := box.workingOrders[clientOrderId]? | throw (.undefined "null pointer")
  let cp ← ComparablePrice.ofOrder (← box.heap.deref order)
  let queue := ((box.get? cp).getD []).filter (· != order)
  return ({ box with
    toSideMaps := if queue.isEmpty then box.erase cp else box.insert cp queue
    workingOrders := box.workingOrders.erase clientOrderId }, order)

/-- Queue an allocated order behind the others of its price. -/
def addWorkingOrder (box : TradeOrderBox) (order : Ptr) : Except Exception TradeOrderBox := do
  let o ← box.heap.deref order
  let cp ← ComparablePrice.ofOrder o
  return { box with
    heap := box.heap.modify order fun o => { o with status := .working }
    toSideMaps := box.insert cp ((box.get? cp).getD [] ++ [order])
    workingOrders := box.workingOrders.insertIfNew o.clientOrderId order }

/-- Rest a new order. -/
def addOrder (box : TradeOrderBox) (order : Order) : Except Exception (TradeOrderBox × Ptr) := do
  let (heap, newOrder) := box.heap.alloc order
  return (← { box with heap }.addWorkingOrder newOrder, newOrder)

/-- Record an order as cancelled that never rested. -/
def addDeletedOrder (box : TradeOrderBox) (order : Order) : TradeOrderBox × Ptr :=
  let (heap, newOrder) := box.heap.alloc { order with status := .cancelled }
  ({ box with
    heap
    canceledOrders := box.canceledOrders.insertIfNew order.clientOrderId newOrder }, newOrder)

/-- Delete a working order, keeping it among the cancelled ones if asked to.
    Returns the deleted order. -/
def deleteOrder (box : TradeOrderBox) (order : Order) (isAddToCancelled : Bool) :
    Except Exception (TradeOrderBox × Order) := do
  let (box, target) ← box.removeWorkingOrder order.clientOrderId
  let heap := box.heap.modify target fun o => { o with status := .cancelled }
  let result ← heap.deref target
  if isAddToCancelled then
    return ({ box with
      heap
      canceledOrders := box.canceledOrders.insertIfNew order.clientOrderId target }, result)
  else
    return ({ box with heap := heap.free target }, result)

/-- The fills recorded for an id, oldest first (`equal_range`). -/
def fillsOf (box : TradeOrderBox) (clientOrderId : String) : List Fill :=
  box.filledOrders.filter (·.clientOrderId == clientOrderId)

/-- The answer to a query for an order. -/
def queryOrder (box : TradeOrderBox) (order : Order) : Except Exception Order := do
  if let some p := box.canceledOrders[order.clientOrderId]? then
    return ← box.heap.deref p
  if let some p := box.workingOrders[order.clientOrderId]? then
    let result ← box.heap.deref p
    return { result with workingPrice := result.price, workingQuantity := result.quantity }
  let range := box.fillsOf order.clientOrderId
  let filled := range.foldl (fun n f => n + f.fillQuantity) 0
  match range with
  | fill :: _ =>
    if filled != 0 then
      return { clientOrderId := fill.clientOrderId
               account := fill.account
               contract := fill.contract
               buySell := fill.buySell
               exchangeOrderId := fill.exchangeOrderId
               filledQuantity := filled
               status := .filled }
    else return { order with status := .rejected }
  | [] => return { order with status := .rejected }

/-- Record a fill of an order. -/
def addFilledOrder (box : TradeOrderBox) (order : Order) (fillId : String)
    (filledQuantity : OrderSize) (fillPrice : OrderPrice) : TradeOrderBox × Fill :=
  let fill : Fill :=
    { fillId
      fillPrice := (toRealPrice fillPrice).toString
      fillQuantity := filledQuantity
      account := order.account
      clientOrderId := order.clientOrderId
      exchangeOrderId := order.exchangeOrderId
      contract := order.contract
      buySell := order.buySell }
  ({ box with filledOrders := box.filledOrders ++ [fill] }, fill)

/-- Take a fill off a working order: remove and free it when nothing is left. -/
def workingOrderFilled (box : TradeOrderBox) (order : Ptr) (fillQuantity : OrderSize) :
    Except Exception TradeOrderBox := do
  let o ← box.heap.deref order
  if o.quantity == fillQuantity then
    let (box, target) ← box.removeWorkingOrder o.clientOrderId
    return { box with heap := box.heap.free target }
  else
    return { box with heap := box.heap.modify order fun o =>
      { o with
        quantity := o.quantity - fillQuantity
        filledQuantity := o.filledQuantity + fillQuantity } }

/-- A fill of an incoming order. -/
def fillOrder (box : TradeOrderBox) (order : Order) (fillId : String)
    (filledQuantity : OrderSize) (fillPrice : OrderPrice) : TradeOrderBox × Fill :=
  box.addFilledOrder order fillId filledQuantity fillPrice

/-- A fill of a working order. -/
def fillWorkingOrder (box : TradeOrderBox) (workingOrder : Ptr) (fillId : String)
    (filledQuantity : OrderSize) (fillPrice : OrderPrice) :
    Except Exception (TradeOrderBox × Fill) := do
  let order ← box.heap.deref workingOrder
  let (box, fill) := box.addFilledOrder order fillId filledQuantity fillPrice
  return (← box.workingOrderFilled workingOrder filledQuantity, fill)

/-- 1: cancelled, 2: working (or partially filled), 3: completely filled, 4: unknown. -/
def orderStatus (box : TradeOrderBox) (clientOrderId : String) : Nat :=
  if box.canceledOrders.contains clientOrderId then 1
  else if box.workingOrders.contains clientOrderId then 2
  else if (box.filledOrders.find? (·.clientOrderId == clientOrderId)).isSome then 3
  else 4

end TradeOrderBox

end FixHandler.Trade
