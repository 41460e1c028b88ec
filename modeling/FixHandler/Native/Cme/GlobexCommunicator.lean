import Mathlib
import FixHandler.Cxx.Text
import FixHandler.Native.Assist
import FixHandler.Native.Ems

/-!
# The CME order gateway

`cme/exchange/globex_communicator.cc`: the orders of the strategy as they are sent, the reports as
they are given to the strategy, and the initial orders whose status `Start` waits for. The order
manager that sends the FIX messages does not fail.
-/

namespace FixHandler.Cme

open Cxx (Binary64)
open Ems

/-! ## Messages -/

/-- An order of the strategy as it is parsed: a field that is not set is `none`. The id of the
    client is required. -/
structure StrategyOrder where
  clientOrderId : String
  account : Option String := none
  contract : Option String := none
  buySell : Option BuySell := none
  price : Option String := none
  quantity : Option UInt64 := none
  tif : Option TimeInForce := none
  orderType : Option Ems.OrderType := none
  exchangeOrderId : Option String := none
  status : Option OrderStatus := none
  message : Option String := none
deriving DecidableEq, Repr

namespace Exchange

/-- `Order` of `cme/exchange/order.h`, with the fields that are set. -/
structure Order where
  clOrderId : String
  symbol : String
  securityDesc : String
  side : Char
  price : Binary64
  orderQty : UInt64
  timeInForce : Char
  minQty : UInt64
  orderType : Char
  orderId : String
  origClOrderId : String
deriving DecidableEq, Repr

/-- `MassOrder`; its texts are the bytes that came. -/
structure MassOrder where
  clOrderId : List UInt8
  massActionType : UInt8 := 3
  massActionScope : UInt8 := 1
  massStatusReqId : List UInt8
  massStatusReqType : UInt8
  securityDesc : List UInt8
  symbol : List UInt8
deriving DecidableEq, Repr

/-- `SingleOrderReport`, with the fields that are read. -/
structure SingleOrderReport where
  execType : Char := '0'
  clOrderId : String
  account : String := ""
  orderId : String := ""
  execId : String := ""
  orderStatus : Char := '0'
  orderType : Char := '2'
  side : Char := '1'
  securityDesc : String := ""
  timeInForce : Char := '0'
  minQty : UInt64 := 0
  cumQty : UInt64 := 0
  leavesQty : UInt64 := 0
  orderQty : UInt64 := 0
  price : Binary64 := .fin 0
  lastPx : Binary64 := .fin 0
  lastQty : UInt64 := 0
  text : String := ""
  transactTime : String := ""
deriving DecidableEq, Repr

/-- `OrderReport` -/
structure OrderReport where
  messageType : String
  singleReport : SingleOrderReport
deriving DecidableEq, Repr

end Exchange

open Exchange (SingleOrderReport OrderReport MassOrder)

/-- `FIX::MsgType_ExecutionReport` -/
def executionReport : String := "8"

/-- `FIX::MsgType_OrderMassActionReport` -/
def orderMassActionReport : String := "BZ"

/-! ## Conversions -/

/-- What leaves a call other than by returning. -/
inductive Thrown where
  /-- `InvalidOrder` -/
  | invalidOrder (what : String)
  /-- an exception of the standard library -/
  | std (exception : Cxx.Exception)
deriving DecidableEq, Repr

/-- The time in force in FIX; an order without one is invalid. -/
def convertTif : TimeInForce → Except Thrown Char
  | .fak => .ok '3'
  | .fok => .ok '3'
  | .gfd => .ok '0'
  | .gtc => .ok '1'
  | .none => .error (.invalidOrder "invalid tif")

/-- The order type in FIX; an order without one is invalid. -/
def convertOrderType : Ems.OrderType → Except Thrown Char
  | .limit => .ok '2'
  | .market => .ok '1'
  | .none => .error (.invalidOrder "invalid order type")

/-- The side in FIX; an order without one is invalid. -/
def convertBuySell : BuySell → Except Thrown Char
  | .buy => .ok '1'
  | .sell => .ok '2'
  | .none => .error (.invalidOrder "invalid buy sell type")

/-- The time in force of a FIX report -/
def tifOfChar (tif : Char) : TimeInForce :=
  if tif = '0' then .gfd else if tif = '3' then .fak else if tif = '1' then .gtc else .none

/-- The order type of a FIX report -/
def orderTypeOfChar (type : Char) : Ems.OrderType :=
  if type = '2' then .limit else if type = '1' then .market else .none

/-- The side of a FIX report -/
def buySellOfChar (bs : Char) : BuySell :=
  if bs = '1' then .buy else if bs = '2' then .sell else .none

/-- The status of a FIX report -/
def convertOrderStatus (status : Char) : OrderStatus :=
  if status = '0' then .pending
  else if status = '1' then .working
  else if status = '2' then .filled
  else if status = '4' then .pending
  else if status = '5' then .pending
  else if status = '8' then .rejected
  else if status = 'C' then .cancelled
  else if status = 'H' then .cancelled
  else .none

/-- A field of a type that is converted; 0 where it is not set. -/
def convertIfSet {α : Type} (convert : α → Except Thrown Char) : Option α → Except Thrown Char
  | some a => convert a
  | none => .ok '\x00'

/-- `Create_order` -/
def createOrder (strategyOrder : StrategyOrder) : Except Thrown Exchange.Order := do
  let side ← convertIfSet convertBuySell strategyOrder.buySell
  let price ← (Cxx.stod (strategyOrder.price.getD "")).mapError .std
  let quantity := strategyOrder.quantity.getD 0
  let timeInForce ← convertIfSet convertTif strategyOrder.tif
  let minQty :=
    match strategyOrder.tif with
    | some .fok => quantity
    | some .fak => 1
    | _ => 0
  let orderType ← convertIfSet convertOrderType strategyOrder.orderType
  return {
    clOrderId := strategyOrder.clientOrderId
    symbol := strategyOrder.contract.getD ""
    securityDesc := strategyOrder.contract.getD ""
    side := side
    price := price
    orderQty := quantity
    timeInForce := timeInForce
    minQty := minQty
    orderType := orderType
    orderId := strategyOrder.exchangeOrderId.getD ""
    origClOrderId := strategyOrder.clientOrderId }

/-- `Create_mass_order`: 20 bytes of an id, a byte for the type, and a name. -/
def createMassOrder (data : List UInt8) : Except Thrown MassOrder :=
  match data[20]? with
  -- the bytes behind the message are not its own
  | none => .error (.std (.undefined "out of bounds"))
  | some reqType => .ok {
      clOrderId := data.take 20
      massStatusReqId := data.take 20
      massStatusReqType := reqType - 48
      securityDesc := data.drop 21
      symbol := data.drop 21 }

/-! ## Reports -/

/-- A call of the listener -/
inductive Report where
  | onExchangeReady
  | onOrder (order : Ems.Order)
  | onFill (fill : Ems.Fill)
deriving DecidableEq, Repr

/-- The fill of an execution report, if its time can be read. -/
def fillOfReport (r : SingleOrderReport) : Option Ems.Fill := do
  let _ ← Assist.toPbTime r.transactTime
  return {
    fillId := r.execId
    fillPrice := r.lastPx.toString
    fillQuantity := r.lastQty
    account := r.account
    clientOrderId := r.clOrderId
    exchangeOrderId := r.orderId
    contract := r.securityDesc
    buySell := buySellOfChar r.side }

/-- The order of any other report, if its time can be read. -/
def orderOfReport (r : SingleOrderReport) : Option Ems.Order := do
  let submitTime ← Assist.toPbTime r.transactTime
  return {
    clientOrderId := r.clOrderId
    account := r.account
    contract := r.securityDesc
    buySell := buySellOfChar r.side
    price := r.price.toString
    quantity := r.orderQty
    tif :=
      let tif := tifOfChar r.timeInForce
      if tif = .fak ∧ r.orderQty = r.minQty then .fok else tif
    orderType := orderTypeOfChar r.orderType
    exchangeOrderId := r.orderId
    status := convertOrderStatus r.orderStatus
    workingPrice := r.price.toString
    workingQuantity := r.leavesQty
    filledQuantity := r.cumQty
    message := r.text
    submitTime := submitTime }

/-- `On_order_status_sent` -/
def onOrderStatusSent (initOrders : List Ems.Order) (clOrderId : String) : List Ems.Order :=
  initOrders.eraseP fun order => order.clientOrderId == clOrderId

/-- `Order_response`: what the listener is given, and the initial orders that are still waited
    for. A time that cannot be read ends the call before the listener is called. -/
def orderResponse (initOrders : List Ems.Order) (report : OrderReport) :
    List Report × List Ems.Order :=
  let r := report.singleReport
  if report.messageType = "" then ([.onExchangeReady], initOrders)
  else if report.messageType = orderMassActionReport then ([], initOrders)
  else if report.messageType = executionReport ∧ r.orderStatus = 'H' then ([], initOrders)
  else if report.messageType = executionReport ∧ (r.orderStatus = '1' ∨ r.orderStatus = '2') then
    match fillOfReport r with
    | none => ([], initOrders)
    | some fill => ([.onFill fill], initOrders)
  else
    match orderOfReport r with
    | none => ([], initOrders)
    | some order =>
      -- the answer to a question for the status of an order
      if report.messageType = executionReport ∧ r.execType = 'I' then
        ([.onOrder order], onOrderStatusSent initOrders r.clOrderId)
      else ([.onOrder order], initOrders)

/-- The initial orders that are waited for after some reports; `Start` returns when there are
    none. -/
def waiting (initOrders : List Ems.Order) (reports : List OrderReport) : List Ems.Order :=
  reports.foldl (fun orders report => (orderResponse orders report).2) initOrders

end FixHandler.Cme
