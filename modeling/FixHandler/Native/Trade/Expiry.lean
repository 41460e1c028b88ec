import Mathlib
import FixHandler.Native.Trade.Simulater

/-!
# The expiry of orders

`Delete_expired_order` of `trade_order_box.cc` and `trade_order_manager.cc`, and what
`trade_simulater.cc` does for an order that it deletes.

The test of an order reads the clock value `now`, a local variable to which nothing is assigned:
what is found there may be anything, and something else at each test. The expired orders come out
of a filtered range, and a range is gone through more than once.
-/

namespace FixHandler.Trade

open Cxx (Exception Heap Ptr)
open Ems (Order)

/-- The year, month and day of a day counted from 1970-01-01 -/
def civil (days : Int) : Int × Int × Int :=
  -- years begin in March, in eras of 400 of them
  let era := (days + 719468) / 146097
  let dayOfEra := (days + 719468) % 146097
  let yearOfEra := (dayOfEra - dayOfEra / 1460 + dayOfEra / 36524 - dayOfEra / 146096) / 365
  let dayOfYear := dayOfEra - (365 * yearOfEra + yearOfEra / 4 - yearOfEra / 100)
  let month := (5 * dayOfYear + 2) / 153
  let year := yearOfEra + 400 * era
  (if month < 10 then year else year + 1, if month < 10 then month + 3 else month - 9,
    dayOfYear - (153 * month + 2) / 5 + 1)

/-- The date of `std::gmtime`, which is a null pointer for a year that is no `int` -/
def gmtime (time : Int64) : Option (Int × Int × Int) :=
  let (year, month, day) := civil (time.toInt / 86400)
  if -2 ^ 31 ≤ year - 1900 ∧ year < 2 ^ 31 then some (year, month, day) else none

example : gmtime 1514851200 = some (2018, 1, 2) := by decide
example : gmtime (-1) = some (1969, 12, 31) := by decide

namespace TradeOrderBox

/-- `Is_expired` -/
def isExpired (now : Int64) (order : Order) : Except Exception Bool := do
  if order.tif != .gfd then return false
  let orderDate := order.submitTime.date
  let some (year, month, day) := gmtime now | throw (.undefined "null pointer")
  if year > orderDate.year.toInt32.toInt then return true
  if year < orderDate.year.toInt32.toInt then return false
  if month > orderDate.month.toInt32.toInt then return true
  if month < orderDate.month.toInt32.toInt then return false
  return day > orderDate.day.toInt32.toInt

/-- What is found in the variable at the tests of the orders of a box, which are given by their
    ids. An order is tested at most once on each way through the orders. -/
structure Found where
  /-- on the way to the first order that is expired -/
  first : String → Int64
  /-- when the orders behind it are counted -/
  count : String → Int64
  /-- when they are copied -/
  copy : String → Int64

/-- The beginning of a filtered range: the first order that is found expired, and what is behind
    it -/
def filteredBegin (heap : Heap Order) (now : String → Int64) :
    List (String × Ptr) → Except Exception (List (String × Ptr))
  | [] => return []
  | (id, p) :: orders => do
    if ← isExpired (now id) (← heap.deref p) then return (id, p) :: orders
    else filteredBegin heap now orders

/-- The orders that are found expired on the way to the end of the range -/
def filteredOrders (heap : Heap Order) (now : String → Int64) :
    List (String × Ptr) → Except Exception (List Ptr)
  | [] => return []
  | (id, p) :: orders => do
    let expired ← isExpired (now id) (← heap.deref p)
    let rest ← filteredOrders heap now orders
    return if expired then p :: rest else rest

/-- `boost::push_back` of the filtered orders to an empty vector. The first is found when the range
    is made. The vector counts the others, takes the memory for that many, and goes through the
    range once more to copy them. -/
def expiredOrders (heap : Heap Order) (now : Found) (orders : List (String × Ptr)) :
    Except Exception (List Ptr) := do
  match ← filteredBegin heap now.first orders with
  | [] => return []
  | (_, p) :: orders =>
    let counted ← filteredOrders heap now.count orders
    let copied ← filteredOrders heap now.copy orders
    -- the copies are written without a look at the memory that was taken
    if counted.length < copied.length then throw (.undefined "write outside of the vector")
    return p :: copied

/-- Move a working order to the cancelled ones. -/
def expireOrder (box : TradeOrderBox) (e : Ptr) : Except Exception TradeOrderBox := do
  let clientOrderId := (← box.heap.deref e).clientOrderId
  let (box, target) ← box.removeWorkingOrder clientOrderId
  return { box with
    heap := box.heap.modify target fun o => { o with status := .cancelled }
    canceledOrders := box.canceledOrders.insertIfNew clientOrderId target }

/-- `Delete_expired_order` -/
def deleteExpiredOrder (box : TradeOrderBox) (now : Found) :
    Except Exception (TradeOrderBox × List Ptr) := do
  let expired ← expiredOrders box.heap now box.workingOrders.toList
  return (← expired.foldlM expireOrder box, expired)

end TradeOrderBox

/-- What `TradeOrderManager::Delete_expired_order` does to one contract -/
def TradeOrderManager.deleteExpiredOrder (m : TradeOrderManager) (contractName : String)
    (now : TradeOrderBox.Found) : Except Exception (TradeOrderManager × List Order) := do
  let (box, deleted) ← (← m.orderBox contractName).deleteExpiredOrder now
  return (m.setBox contractName box, ← deleted.mapM box.heap.deref)

/-- The reason that an expired order is reported with -/
def Message.orderExpired := "order expired"

namespace TradeSimulater

/-- `On_order_expired` -/
def onOrderExpired (order : Order) : SimM Unit := do
  emit (.onOrder (makeCancelResponse order Message.orderExpired))
  changeMarketOnOrderDeleted order

/-- One contract of the loop of `TradeOrderManager::Delete_expired_order` -/
def expireContract (now : String → TradeOrderBox.Found) (contractName : String) : SimM Unit := do
  let deleted ← withOrders (·.deleteExpiredOrder contractName (now contractName))
  deleted.forM onOrderExpired

/-- `TradeOrderManager::Delete_expired_order`, which tells the simulater of every order -/
def deleteExpiredOrder (now : String → TradeOrderBox.Found) : SimM Unit := do
  (← get).orderManager.tradeOrders.keys.forM (expireContract now)

end TradeSimulater

end FixHandler.Trade
