import Mathlib
import FixHandler.ForStd.EStateM
import FixHandler.Native.Tmalpha.OrderInfo

/-!
# The order matcher of the replay

`tmalpha/replay/replay_order_matcher.cc`. The listener is set before the first request, and
`events` records every call of it. Logging is left out.

Nobody catches what a request throws, so that a run ends where one throws.
-/

namespace FixHandler.Tmalpha

open Cxx (Binary64 Exception)
open Ems (Order Fill OrderStatus Timestamp)

/-- The orders of a replay, and what the exchange listener was told -/
structure ReplayOrderMatcher where
  tradeRate : UInt32
  exchangeOrderId : UInt32 := 0
  fillId : UInt32 := 0
  workingOrders : Std.TreeMap String OrderInfo := ∅
  /-- the working orders in the order they came -/
  workingOrderIds : List String := []
  filledOrders : Std.TreeMap String Fill := ∅
  canceledOrders : Std.TreeMap String Order := ∅
  currentStates : Std.TreeMap String CurrentState := ∅
  now : Timestamp := {}
  events : List ExchangeEvent := []

namespace ReplayOrderMatcher

/-- A computation of the matcher. -/
abbrev MatcherM := EStateM Exception ReplayOrderMatcher

/-- The trade rate is cut to `[0, 100]`. -/
def create (tradeRate : Int32) : ReplayOrderMatcher :=
  { tradeRate := (max (min tradeRate 100) 0).toUInt32 }

/-- Tell the exchange listener -/
def emit (e : ExchangeEvent) : MatcherM Unit :=
  modify fun s => { s with events := s.events ++ [e] }

/-! ## Matching -/

/-- The test of `Is_price_matching`: a market order matches any price. -/
def isMatching (orgOrder : Order) (test : Binary64 → Bool) : Except Exception Bool :=
  if orgOrder.orderType == .market then .ok true else (Cxx.stod orgOrder.price).map test

/-- Whether an order matches the best opposite price, which becomes its price then. -/
def isPriceMatching (orgOrder : Order) (l2 : Dms.L2) : Except Exception (Bool × Order) :=
  match orgOrder.buySell with
  | .buy =>
    match l2.offer with
    | [] => .ok (false, orgOrder)
    | best :: _ => do
      let isMatching ← isMatching orgOrder (best.price.le ·)
      return (isMatching, if isMatching then { orgOrder with price := best.price.toString }
        else orgOrder)
  | .sell =>
    match l2.bid with
    | [] => .ok (false, orgOrder)
    | best :: _ => do
      let isMatching ← isMatching orgOrder (·.le best.price)
      return (isMatching, if isMatching then { orgOrder with price := best.price.toString }
        else orgOrder)
  | .none => .ok (false, orgOrder)

/-- The place of an order behind `size` lots. -/
def positionAt (s : ReplayOrderMatcher) (size : UInt64) : Int32 :=
  (size * s.tradeRate.toUInt64 / 100).toUInt32.toInt32

/-- Whether an order is filled at its place in the queue, by what is traded. -/
def isPositionReached (s : ReplayOrderMatcher) (orderInfo : OrderInfo)
    (prices : List Dms.DataPoint) (currentTurnoverSize : UInt32)
    (compare : Binary64 → Binary64 → Bool) : Except Exception (Bool × OrderInfo) :=
  match prices with
  | [] => .ok (false, orderInfo)
  | best :: _ => do
    let orderPrice ← Cxx.stod orderInfo.order.price
    if compare best.price orderPrice then return (false, orderInfo)
    else if compare orderPrice best.price then return (true, orderInfo)
    else if orderInfo.position == -1 then
      -- the first time at this price
      return (false, { orderInfo with position := s.positionAt best.size })
    else
      let turnover := orderInfo.turnover + currentTurnoverSize
      return (decide (turnover > orderInfo.position.toUInt32), { orderInfo with turnover })

/-- Whether a new order is filled, and at which price -/
def hasMatching (s : ReplayOrderMatcher) (orgOrder : Order) : Except Exception (Bool × Order) :=
  match s.currentStates[orgOrder.contract]? with
  | none => .ok (false, orgOrder)
  | some state => isPriceMatching orgOrder state.l2

/-- Whether a working order is filled by what was traded -/
def hasRematching (s : ReplayOrderMatcher) (orderInfo : OrderInfo) :
    Except Exception (Bool × OrderInfo) :=
  match s.currentStates[orderInfo.order.contract]? with
  | none => .ok (false, orderInfo)
  | some state => do
    let (isMatching, order) ← isPriceMatching orderInfo.order state.l2
    let orderInfo := { orderInfo with order }
    if isMatching then return (true, orderInfo)
    else match order.buySell with
      | .buy => s.isPositionReached orderInfo state.l2.bid state.bidVolumn fun a b => b.lt a
      | .sell => s.isPositionReached orderInfo state.l2.offer state.askVolumn fun a b => a.lt b
      | .none => return (false, orderInfo)

/-- The place of a new order in the queue of the best price of its side, -1 if it is not of
    this price. -/
def calculateOrderPosition (s : ReplayOrderMatcher) (orgOrder : Order) : Except Exception Int32 :=
  match s.currentStates[orgOrder.contract]? with
  | none => .ok (-1)
  | some state =>
    let prices := match orgOrder.buySell with
      | .buy => state.l2.bid
      | .sell => state.l2.offer
      | .none => []
    match prices with
    | [] => .ok (-1)
    | best :: _ => do
      let price ← Cxx.stod orgOrder.price
      return if price.eq best.price then s.positionAt best.size else -1

/-! ## Answers -/

/-- The counter is raised before its value is taken. -/
def nextExchangeOrderId : MatcherM String := do
  modify fun s => { s with exchangeOrderId := s.exchangeOrderId + 1 }
  return "Order-" ++ (← get).exchangeOrderId.toNat.repr

/-- The counter is raised before its value is taken. -/
def nextFillId : MatcherM String := do
  modify fun s => { s with fillId := s.fillId + 1 }
  return "Fill-" ++ (← get).fillId.toNat.repr

/-- The fill of the whole order -/
def orderFilled (orgOrder : Order) (nextExchangeOrderId : String) : MatcherM Fill := do
  emit (.onOrder { orgOrder with
    exchangeOrderId := nextExchangeOrderId
    status := .filled
    workingPrice := "0"
    workingQuantity := 0
    filledQuantity := orgOrder.quantity
    message := ""
    submitTime := (← get).now })
  let fill : Fill := {
    fillId := ← nextFillId
    fillPrice := orgOrder.price
    fillQuantity := orgOrder.quantity
    account := orgOrder.account
    clientOrderId := orgOrder.clientOrderId
    exchangeOrderId := nextExchangeOrderId
    contract := orgOrder.contract
    buySell := orgOrder.buySell }
  emit (.onFill fill)
  return fill

/-- The order is reported as working, and then its place is calculated. -/
def orderWorking (orgOrder : Order) (nextExchangeOrderId : String) : MatcherM OrderInfo := do
  let order := { orgOrder with
    exchangeOrderId := nextExchangeOrderId
    status := .working
    workingPrice := orgOrder.price
    workingQuantity := orgOrder.quantity
    filledQuantity := 0
    message := ""
    submitTime := (← get).now }
  emit (.onOrder order)
  let position ← EStateM.ofExcept ((← get).calculateOrderPosition orgOrder)
  return { order, position }

/-- Refuse a request -/
def orderReject (orgOrder : Order) (reason : String) : MatcherM Unit := do
  emit (.onOrder { orgOrder with
    status := .rejected, message := reason, submitTime := (← get).now })

/-- Report the status of an order -/
def orderStatus (orgOrder : Order) (status : OrderStatus) : MatcherM Unit := do
  emit (.onOrder { orgOrder with status, message := "", submitTime := (← get).now })

/-- `Order_status` of a fill -/
def fillStatus (orgFill : Fill) : MatcherM Unit := do
  emit (.onOrder {
    clientOrderId := orgFill.clientOrderId
    account := orgFill.account
    contract := orgFill.contract
    buySell := orgFill.buySell
    price := orgFill.fillPrice
    quantity := orgFill.fillQuantity
    exchangeOrderId := orgFill.exchangeOrderId
    status := .filled
    filledQuantity := orgFill.fillQuantity
    message := ""
    submitTime := (← get).now })

/-! ## Rematching -/

/-- `m_working_orders[id]`, which makes an empty one where there is none -/
def workingOrderAt (id : String) : MatcherM OrderInfo := do
  match (← get).workingOrders[id]? with
  | some orderInfo => return orderInfo
  | none =>
    modify fun s => { s with workingOrders := s.workingOrders.insert id {} }
    return {}

/-- A turn of the loop for the order `id`, between the orders `kept` and `rest`: whether it is
    filled. -/
def rematchOne (contract : String) (kept : List String) (id : String) (rest : List String) :
    MatcherM Bool := do
  let orderInfo ← workingOrderAt id
  if orderInfo.order.contract == contract then
    let (isMatching, orderInfo) ← EStateM.ofExcept ((← get).hasRematching orderInfo)
    modify fun s => { s with workingOrders := s.workingOrders.insert id orderInfo }
    if isMatching then
      let order := orderInfo.order
      let fill ← orderFilled order order.exchangeOrderId
      modify fun s => { s with
        filledOrders := s.filledOrders.insert order.clientOrderId fill
        workingOrderIds := kept ++ rest
        workingOrders := s.workingOrders.erase order.clientOrderId }
    return isMatching
  else return false

/-- The working orders from one on, with those kept before it -/
def rematchFrom (contract : String) (kept : List String) : List String → MatcherM Unit
  | [] => pure ()
  | id :: rest => do
    if ← rematchOne contract kept id rest then rematchFrom contract kept rest
    else rematchFrom contract (kept ++ [id]) rest

/-- All working orders of the contract -/
def rematching (contract : String) : MatcherM Unit := do
  rematchFrom contract [] (← get).workingOrderIds

/-! ## Requests -/

/-- New levels and volumes of a contract -/
def onStateChanged (l2 : Dms.L2) (bidVolumn askVolumn : UInt32) : MatcherM Unit := do
  modify fun s => { s with
    currentStates := s.currentStates.insert l2.contract { l2, bidVolumn, askVolumn } }
  rematching l2.contract

/-- `Add`: fill the order or let it work -/
def add (order : Order) : MatcherM Unit := do
  let (isMatching, orgOrder) ← EStateM.ofExcept ((← get).hasMatching order)
  if isMatching then
    let fill ← orderFilled orgOrder (← nextExchangeOrderId)
    modify fun s => { s with filledOrders := s.filledOrders.insert orgOrder.clientOrderId fill }
  else
    let orderInfo ← orderWorking orgOrder (← nextExchangeOrderId)
    modify fun s => { s with
      workingOrders := s.workingOrders.insert orgOrder.clientOrderId orderInfo
      workingOrderIds := s.workingOrderIds ++ [orgOrder.clientOrderId] }

/-- `Change`: replace the working order -/
def change (order : Order) : MatcherM Unit := do
  let s ← get
  if s.filledOrders.contains order.clientOrderId then orderReject order "order is filled"
  else if s.canceledOrders.contains order.clientOrderId then orderReject order "order is canceled"
  else match s.workingOrders[order.clientOrderId]? with
    | none => orderReject order "order not found"
    | some working =>
      let orderInfo ← orderWorking order working.order.exchangeOrderId
      modify fun s => { s with
        workingOrders := s.workingOrders.insert order.clientOrderId orderInfo }

/-- `Delete`: the working order is canceled. -/
def delete (order : Order) : MatcherM Unit := do
  let s ← get
  if s.filledOrders.contains order.clientOrderId then orderReject order "order is filled"
  else if s.canceledOrders.contains order.clientOrderId then orderReject order "order is canceled"
  else match s.workingOrders[order.clientOrderId]? with
    | none => orderReject order "order not found"
    | some working =>
      orderStatus working.order .cancelled
      modify fun s => { s with
        canceledOrders := s.canceledOrders.insert order.clientOrderId working.order
        workingOrderIds := s.workingOrderIds.filter (· != order.clientOrderId)
        workingOrders := s.workingOrders.erase order.clientOrderId }

/-- `Query`: report the state of the order -/
def query (order : Order) : MatcherM Unit := do
  let s ← get
  match s.filledOrders[order.clientOrderId]? with
  | some fill => fillStatus fill
  | none =>
    match s.canceledOrders[order.clientOrderId]? with
    | some canceled => orderStatus canceled .cancelled
    | none =>
      match s.workingOrders[order.clientOrderId]? with
      | none => orderReject order "order not found"
      | some working => orderStatus working.order .working

/-- One request -/
def handle : Request → MatcherM Unit
  | .add order => add order
  | .change order => change order
  | .delete order => delete order
  | .query order => query order
  | .stateChanged l2 bidVolumn askVolumn => onStateChanged l2 bidVolumn askVolumn

/-- One request at its time -/
def step (call : Call) : MatcherM Unit := do
  modify fun s => { s with now := call.now }
  handle call.request

/-- A run from the empty state. -/
def run (tradeRate : Int32) (calls : List Call) : EStateM.Result Exception ReplayOrderMatcher Unit :=
  calls.forM step (create tradeRate)

end ReplayOrderMatcher

end FixHandler.Tmalpha
