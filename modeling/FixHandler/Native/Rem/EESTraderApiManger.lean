import Mathlib
import FixHandler.Native.Ems

/-!
# The order callbacks of the REM gateway

`rem/exchange/RemEESTraderApiManger.cc`: how the callbacks of the trading library are turned
into the reports for the strategy, and the two maps that take the tokens of the library back to
the id of the client. A strategy is set. The texts that `To_time_str` makes are longer than the
ones `To_pb_time` reads, so that `submit_time` stays empty.
-/

namespace FixHandler.Rem

open Cxx (Binary64)
open Ems

/-! ## The fields of the trading library that are read -/

namespace SideType

def openLong : UInt8 := 1
def closeTodayLong : UInt8 := 2
def closeTodayShort : UInt8 := 3
def openShort : UInt8 := 4
def closeOvnShort : UInt8 := 5
def closeOvnLong : UInt8 := 6

end SideType

/-- `EES_OrderState_order_dead` -/
def orderDead : UInt8 := 2

/-- `EES_OrderTif_IOC` -/
def tifIoc : UInt32 := 0

/-- The broker accepted an order. -/
structure OrderAcceptField where
  clientOrderToken : UInt32
  marketOrderToken : Int64
  orderState : UInt8 := 1
  userID : Int32 := 0
  side : UInt8 := 1
  symbol : String := ""
  price : Binary64 := .fin 0
  qty : UInt32 := 0
  tif : UInt32 := 0
deriving DecidableEq, Repr

/-- The market accepted an order. -/
structure OrderMarketAcceptField where
  account : String := ""
  marketOrderToken : Int64
  marketOrderId : String := ""
deriving DecidableEq, Repr

/-- The broker refused an order. -/
structure OrderRejectField where
  userid : Int32 := 0
  clientOrderToken : UInt32
deriving DecidableEq, Repr

/-- The market refused an order. -/
structure OrderMarketRejectField where
  account : String := ""
  marketOrderToken : Int64
deriving DecidableEq, Repr

/-- An order was executed. -/
structure OrderExecutionField where
  userid : Int32 := 0
  clientOrderToken : UInt32
  marketOrderToken : Int64
  quantity : UInt32 := 0
  price : Binary64 := .fin 0
  marketExecID : String := ""
deriving DecidableEq, Repr

/-- An order was canceled. -/
structure OrderCxled where
  userid : Int32 := 0
  clientOrderToken : UInt32
  marketOrderToken : Int64
deriving DecidableEq, Repr

/-- A cancel was refused. -/
structure CxlOrderRej where
  account : String := ""
  marketOrderToken : Int64
deriving DecidableEq, Repr

/-- An order of the account, as a query finds it -/
structure QueryAccountOrder where
  userid : Int32 := 0
  clientOrderToken : UInt32
  sideType : UInt8 := 1
  quantity : UInt32 := 0
  symbol : String := ""
  price : Binary64 := .fin 0
  marketOrderToken : Int64
  orderStatus : UInt8 := 0
  marketOrderId : String := ""
deriving DecidableEq, Repr

/-- An execution, as a query finds it -/
structure QueryOrderExecution where
  userid : Int32 := 0
  clientOrderToken : UInt32
  marketOrderToken : Int64
  executedQuantity : UInt32 := 0
  executionPrice : Binary64 := .fin 0
  marketExecID : String := ""
deriving DecidableEq, Repr

/-! ## The manager -/

/-- `CEESTraderApiManger` -/
structure State where
  initQueryNum : Int32 := 0
  /-- client tokens and the ids of the client -/
  ordermap : Std.TreeMap Int32 String := ∅
  /-- market tokens and client tokens -/
  orderTokenmap : Std.TreeMap Int32 Int32 := ∅
  startfinish : Bool := false

/-- `AddOrderToken`: what a market token has been given for stays. -/
def State.addOrderToken (s : State) (marketOrderToken iKey : Int32) : State :=
  { s with orderTokenmap := s.orderTokenmap.insertIfNew iKey marketOrderToken }

/-- `AddOrderId`: what a client token has been given for stays. -/
def State.addOrderId (s : State) (clOrderid : String) (iKey : Int32) : State :=
  { s with ordermap := s.ordermap.insertIfNew iKey clOrderid }

/-- `get_order_token`: -1 where the market token is unknown -/
def State.getOrderToken (s : State) (iKey : Int32) : Int32 := s.orderTokenmap[iKey]?.getD (-1)

/-- `get_order_id`: empty where the client token is unknown -/
def State.getOrderId (s : State) (iKey : Int32) : String := s.ordermap[iKey]?.getD ""

/-- A message to the strategy -/
inductive Report where
  | onOrder (order : Order)
  | onFill (fill : Fill)
deriving DecidableEq, Repr

/-- The id by which a report names its order -/
def Report.clientOrderId : Report → String
  | .onOrder order => order.clientOrderId
  | .onFill fill => fill.clientOrderId

/-- Buy or sell, open or close, for the sides that are known. -/
def setSide (side : UInt8) (order : Order) : Order :=
  if side = SideType.openLong then { order with buySell := .buy, orderFlag := .open }
  else if side = SideType.closeTodayShort then { order with buySell := .buy, orderFlag := .close }
  else if side = SideType.closeOvnShort then { order with buySell := .buy, orderFlag := .yClose }
  else if side = SideType.openShort then { order with buySell := .sell, orderFlag := .open }
  else if side = SideType.closeTodayLong then { order with buySell := .sell, orderFlag := .close }
  else if side = SideType.closeOvnLong then { order with buySell := .sell, orderFlag := .yClose }
  else order

/-- The id of the client for a client token, or a text made of the tokens; the market token is
    bound to a client token that is known. -/
def State.clientOrderIdByToken (s : State) (clientOrderToken : UInt32) (marketOrderToken : Int64)
    (unknown : String) : String × State :=
  let tmpcOrderId := s.getOrderId clientOrderToken.toInt32
  if tmpcOrderId = "" then (unknown, s)
  else (tmpcOrderId, s.addOrderToken clientOrderToken.toInt32 marketOrderToken.toInt32)

/-- The id of the client where only the market token is given. -/
def State.clientOrderIdByMarketToken (s : State) (marketOrderToken : Int64) (unknown : String) :
    String :=
  -- the token that is found is not looked up
  if s.getOrderToken marketOrderToken.toInt32 = -1 then unknown else ""

/-- `SendOrderAccept`, which binds the market token -/
def sendOrderAccept (s : State) (a : OrderAcceptField) : Report × State :=
  let (clientOrderId, s) := s.clientOrderIdByToken a.clientOrderToken a.marketOrderToken
    (toString a.clientOrderToken.toNat ++ "|" ++ toString a.marketOrderToken.toInt)
  (.onOrder (setSide a.side {
    clientOrderId := clientOrderId
    account := toString a.userID.toInt
    exchangeOrderId := toString a.marketOrderToken.toInt
    status := if a.orderState = orderDead then .rejected else .pending
    contract := a.symbol
    price := a.price.toString
    quantity := a.qty.toUInt64
    workingPrice := a.price.toString
    workingQuantity := a.qty.toUInt64
    tif := if a.tif = tifIoc then .fok else .gfd }), s)

/-- `SendOrderMarketAccept`, by the market token -/
def sendOrderMarketAccept (s : State) (a : OrderMarketAcceptField) : Report :=
  .onOrder {
    clientOrderId := s.clientOrderIdByMarketToken a.marketOrderToken
      (toString a.marketOrderToken.toInt ++ "|" ++ a.marketOrderId)
    account := a.account
    exchangeOrderId := toString a.marketOrderToken.toInt
    status := .working }

/-- `SendOrderReject`, by the client token -/
def sendOrderReject (s : State) (r : OrderRejectField) : Report :=
  let tmpcOrderId := s.getOrderId r.clientOrderToken.toInt32
  .onOrder {
    account := toString r.userid.toInt
    clientOrderId :=
      if tmpcOrderId = "" then toString r.userid.toInt ++ "|" ++ toString r.clientOrderToken.toNat
      else tmpcOrderId
    status := .rejected }

/-- `SendOrderMarketReject`, by the market token -/
def sendOrderMarketReject (s : State) (r : OrderMarketRejectField) : Report :=
  .onOrder {
    account := r.account
    clientOrderId := s.clientOrderIdByMarketToken r.marketOrderToken
      (r.account ++ "|" ++ toString r.marketOrderToken.toInt)
    exchangeOrderId := toString r.marketOrderToken.toInt
    status := .rejected }

/-- `SendOrderExecution`, which binds the market token -/
def sendOrderExecution (s : State) (e : OrderExecutionField) : Report × State :=
  let (clientOrderId, s) := s.clientOrderIdByToken e.clientOrderToken e.marketOrderToken
    (toString e.clientOrderToken.toNat ++ "|" ++ toString e.marketOrderToken.toInt ++ "|" ++
      e.marketExecID)
  (.onFill {
    clientOrderId := clientOrderId
    account := toString e.userid.toInt
    exchangeOrderId := toString e.marketOrderToken.toInt
    fillPrice := e.price.toString
    fillQuantity := e.quantity.toUInt64
    fillId := e.marketExecID }, s)

/-- `SendOrderCxled`, which binds the market token -/
def sendOrderCxled (s : State) (c : OrderCxled) : Report × State :=
  let (clientOrderId, s) := s.clientOrderIdByToken c.clientOrderToken c.marketOrderToken
    (toString c.clientOrderToken.toNat ++ "|" ++ toString c.marketOrderToken.toInt)
  (.onOrder {
    clientOrderId := clientOrderId
    account := toString c.userid.toInt
    exchangeOrderId := toString c.marketOrderToken.toInt
    status := .cancelled }, s)

/-- `SendCxlOrderReject`, by the market token -/
def sendCxlOrderReject (s : State) (r : CxlOrderRej) : Report :=
  .onOrder {
    account := r.account
    clientOrderId := s.clientOrderIdByMarketToken r.marketOrderToken
      (r.account ++ "|" ++ toString r.marketOrderToken.toInt)
    exchangeOrderId := toString r.marketOrderToken.toInt
    status := .rejected }

/-- The status of an order that is asked for; none for a status that has two bits. -/
def queryStatus (orderStatus : UInt8) : OrderStatus :=
  if orderStatus = 0x10 then .cancelled
  else if orderStatus = 0x20 then .working
  else if orderStatus = 0x01 then .rejected
  else if orderStatus = 0x40 then .pending
  else if orderStatus = 0x80 then .pending
  else if orderStatus = 0x08 then .cancelled
  else .none

/-- `SendQueryTradeOrder`, which binds the market token -/
def sendQueryTradeOrder (s : State) (q : QueryAccountOrder) : Report × State :=
  let (clientOrderId, s) := s.clientOrderIdByToken q.clientOrderToken q.marketOrderToken
    (toString q.clientOrderToken.toNat ++ "|" ++ toString q.marketOrderToken.toInt ++ "|" ++
      q.marketOrderId)
  (.onOrder (setSide q.sideType {
    clientOrderId := clientOrderId
    account := toString q.userid.toInt
    exchangeOrderId := toString q.marketOrderToken.toInt
    status := queryStatus q.orderStatus
    contract := q.symbol
    price := q.price.toString
    quantity := q.quantity.toUInt64 }), s)

/-- `SendQueryTradeOrderExec`, by the client token -/
def sendQueryTradeOrderExec (s : State) (q : QueryOrderExecution) (bFinish : Bool) :
    Report × State :=
  let tmpcOrderId := s.getOrderId q.clientOrderToken.toInt32
  (.onOrder {
    clientOrderId :=
      if tmpcOrderId = "" then
        toString q.clientOrderToken.toNat ++ "|" ++ toString q.marketOrderToken.toInt ++ "|" ++
          q.marketExecID
      else tmpcOrderId
    account := toString q.userid.toInt
    exchangeOrderId := toString q.marketOrderToken.toInt
    status := .filled
    price := q.executionPrice.toString
    quantity := q.executedQuantity.toUInt64
    workingPrice := q.executionPrice.toString
    workingQuantity := 0
    filledQuantity := q.executedQuantity.toUInt64 },
   { s with startfinish := s.startfinish || bFinish })

/-- What happens to the manager: an id is registered, or the trading library calls back. -/
inductive Event where
  /-- `AddOrderId`, as an order is entered with a client token -/
  | addOrderId (clOrderid : String) (clientOrderToken : UInt32)
  | onOrderAccept (accept : OrderAcceptField)
  | onOrderMarketAccept (accept : OrderMarketAcceptField)
  | onOrderReject (reject : OrderRejectField)
  | onOrderMarketReject (reject : OrderMarketRejectField)
  | onOrderExecution (exec : OrderExecutionField)
  | onOrderCxled (cxled : OrderCxled)
  | onCxlOrderReject (reject : CxlOrderRej)
  | onQueryTradeOrder (queryOrder : QueryAccountOrder)
  | onQueryTradeOrderExec (queryOrderExec : QueryOrderExecution) (bFinish : Bool)
deriving DecidableEq, Repr

/-- What is sent to the strategy, and the state after the event. -/
def State.step (s : State) : Event → List Report × State
  | .addOrderId clOrderid clientOrderToken =>
    ([], s.addOrderId clOrderid clientOrderToken.toInt32)
  | .onOrderAccept accept => (sendOrderAccept s accept).map (fun r => [r]) id
  | .onOrderMarketAccept accept => ([sendOrderMarketAccept s accept], s)
  | .onOrderReject reject => ([sendOrderReject s reject], s)
  | .onOrderMarketReject reject => ([sendOrderMarketReject s reject], s)
  | .onOrderExecution exec => (sendOrderExecution s exec).map (fun r => [r]) id
  | .onOrderCxled cxled => (sendOrderCxled s cxled).map (fun r => [r]) id
  | .onCxlOrderReject reject => ([sendCxlOrderReject s reject], s)
  | .onQueryTradeOrder queryOrder =>
    let s := if 0 < s.initQueryNum then { s with initQueryNum := s.initQueryNum - 1 } else s
    (sendQueryTradeOrder s queryOrder).map (fun r => [r]) id
  | .onQueryTradeOrderExec queryOrderExec bFinish =>
    (sendQueryTradeOrderExec s queryOrderExec bFinish).map (fun r => [r]) id

/-- The state after some events -/
def State.run (s : State) (events : List Event) : State := events.foldl (fun s e => (s.step e).2) s

end FixHandler.Rem
