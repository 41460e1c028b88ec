import Mathlib
import FixHandler.Cxx.Text
import FixHandler.Native.Assist
import FixHandler.Native.Ems

/-!
# The FEMAS gateway

`femas/exchange/communicator.cc` and `femas/exchange/FemasUstpFtdcTraderManger.cc`: the requests
that are made of the orders of the strategy, the map from local ids to the ids of the client, and
the reports that are made of the callbacks. A strategy is set. The fields of the trading library
are texts that fit; the fields that are neither set nor read are left out.
-/

namespace FixHandler.Femas

open Cxx (Binary64 atof atoi)
open Ems
open Assist (toPbTime)

/-! ## The fields of the trading library -/

/-- `CUstpFtdcInputOrderField`; a `char` that is not set is 0. -/
structure InputOrderField where
  userOrderLocalID : String
  brokerID : String := ""
  userID : String := ""
  instrumentID : String := ""
  investorID : String := ""
  direction : Char := '\x00'
  offsetFlag : Char := '\x00'
  hedgeFlag : Char := '\x00'
  limitPrice : Binary64 := .fin 0
  volume : Int32 := 0
  timeCondition : Char := '\x00'
  isAutoSuspend : Int32 := 0
  exchangeID : String := ""
  orderPriceType : Char := '\x00'
  volumeCondition : Char := '\x00'
  forceCloseReason : Char := '\x00'
  orderSysID : String := ""
  actionDay : String := ""
deriving DecidableEq, Repr

/-- `CUstpFtdcOrderActionField` -/
structure OrderActionField where
  orderSysID : String := ""
  userOrderLocalID : String := ""
  userOrderActionLocalID : String
  exchangeID : String := ""
  brokerID : String := ""
  userID : String := ""
  investorID : String := ""
  actionFlag : Char := '\x00'
  limitPrice : Binary64 := .fin 0
  volumeChange : Int32 := 0
deriving DecidableEq, Repr

/-- `CUstpFtdcQryOrderField` -/
structure QryOrderField where
  exchangeID : String := ""
  brokerID : String := ""
  userID : String := ""
  investorID : String := ""
  orderSysID : String := ""
  orderStatus : Char := '\x00'
deriving DecidableEq, Repr

/-- `CUstpFtdcOrderField` -/
structure OrderField where
  userOrderLocalID : String
  orderUserID : String := ""
  orderLocalID : String := ""
  orderSysID : String := ""
  userID : String := ""
  instrumentID : String := ""
  direction : Char := '0'
  offsetFlag : Char := '0'
  limitPrice : Binary64 := .fin 0
  volume : Int32 := 0
  orderPriceType : Char := '2'
  orderStatus : Char := '0'
  volumeRemain : Int32 := 0
  volumeTraded : Int32 := 0
  actionDay : String := ""
  insertTime : String := ""
deriving DecidableEq, Repr

/-- `CUstpFtdcTradeField` -/
structure TradeField where
  tradeID : String
  userOrderLocalID : String
  orderUserID : String := ""
  orderSysID : String := ""
  userID : String := ""
  instrumentID : String := ""
  direction : Char := '0'
  tradePrice : Binary64 := .fin 0
  tradeVolume : Int32 := 0
  actionDay : String := ""
  tradeTime : String := ""
deriving DecidableEq, Repr

namespace OffsetFlag

def open' : Char := '0'
def close : Char := '1'
def closeToday : Char := '3'
def closeYesterday : Char := '4'
def all : Char := '9'

end OffsetFlag

namespace ActionFlag

def delete : Char := '0'
def suspend : Char := '1'
def active : Char := '2'
def modify : Char := '3'

end ActionFlag

/-! ## The manager -/

/-- `CUstpFtdcTraderManger` -/
structure State where
  maxOrderLocalID : Int32
  /-- local ids and the ids of the client -/
  ordermap : Std.TreeMap Int32 String := ∅

/-- `AddOrderId` with the key it has by default: what a local id has been given for stays. -/
def State.addOrderId (s : State) (clOrderid : String) : State :=
  { s with ordermap := s.ordermap.insertIfNew s.maxOrderLocalID clOrderid }

/-- `get_order_id`: empty where the local id is unknown -/
def State.getOrderId (s : State) (iKey : Int32) : String := s.ordermap[iKey]?.getD ""

/-- The next local id -/
def State.next (s : State) : State := { s with maxOrderLocalID := s.maxOrderLocalID + 1 }

/-- Missing where a part of the text is no number -/
def InputOrderField.submitTime (p : InputOrderField) : Option Timestamp :=
  toPbTime (p.actionDay ++ "-" ++ "00:00:00" ++ ".000")

/-- Missing where a part of the text is no number -/
def OrderField.submitTime (p : OrderField) : Option Timestamp :=
  toPbTime (p.actionDay ++ "-" ++ p.insertTime ++ ".000")

/-- Missing where a part of the text is no number -/
def TradeField.fillTime (p : TradeField) : Option Timestamp :=
  toPbTime (p.actionDay ++ "-" ++ p.tradeTime ++ ".000")

/-- A signed volume as a quantity -/
def quantity (volume : Int32) : UInt64 := volume.toInt64.toUInt64

/-- The id of the client for a local id, or a text for an order that is not known. -/
def State.clientOrderId (s : State) (localID unknown : String) : String :=
  let tmpcOrderId := s.getOrderId (atoi localID)
  if tmpcOrderId = "" then unknown else tmpcOrderId

/-- Every direction but buying is taken for selling. -/
def buySell (direction : Char) : BuySell := if direction = '0' then .buy else .sell

/-- A limit or a market order; no type for any other price type. -/
def orderType (orderPriceType : Char) : Ems.OrderType :=
  if orderPriceType = '2' then .limit else if orderPriceType = '1' then .market else .none

/-- The flag of the answer to an insertion: yesterday's and today's positions are exchanged. -/
def orderFlag (offsetFlag : Char) : OrderFlag :=
  if offsetFlag = OffsetFlag.open' then .open
  else if offsetFlag = OffsetFlag.close then .close
  else if offsetFlag = OffsetFlag.closeYesterday then .tClose
  else if offsetFlag = OffsetFlag.closeToday then .yClose
  else .none

/-- The flag of an order that is reported or asked for -/
def qryOrderFlag (offsetFlag : Char) : OrderFlag :=
  if offsetFlag = OffsetFlag.open' then .open
  else if offsetFlag = OffsetFlag.close then .close
  else if offsetFlag = OffsetFlag.closeYesterday then .yClose
  else if offsetFlag = OffsetFlag.closeToday then .tClose
  else .none

/-- `SetOrderStatus` -/
def orderStatus (status : Char) : OrderStatus :=
  if status = '0' then .filled
  else if status = '1' then .working
  else if status = '2' then .filled
  else if status = '3' then .working
  else if status = '4' then .rejected
  else if status = '5' then .cancelled
  else if status = '6' then .pending
  else .none

/-- `OnQryOrder`: the report of a queried order -/
def State.onQryOrder (s : State) (p : OrderField) : Option Order := do
  let submitTime ← p.submitTime
  return {
    clientOrderId := s.clientOrderId p.userOrderLocalID
      (p.userOrderLocalID ++ "|" ++ p.orderUserID ++ "|" ++ p.orderLocalID)
    account := p.userID
    contract := p.instrumentID
    buySell := buySell p.direction
    price := p.limitPrice.toString
    quantity := quantity p.volume
    tif := .gfd
    orderType := if p.orderPriceType = '2' then .limit else .market
    exchangeOrderId := p.orderSysID
    status := orderStatus p.orderStatus
    workingPrice := p.limitPrice.toString
    workingQuantity := quantity p.volumeRemain
    filledQuantity := quantity p.volumeTraded
    submitTime := submitTime
    orderFlag := qryOrderFlag p.offsetFlag }

/-- `OnActionOrder`: the report of an action on an order -/
def State.onActionOrder (s : State) (p : OrderActionField) : Order where
  clientOrderId := s.clientOrderId p.userOrderActionLocalID
    (p.userOrderLocalID ++ "|" ++ p.userOrderActionLocalID ++ "|" ++ p.orderSysID)
  account := p.userID
  price := p.limitPrice.toString
  quantity := quantity p.volumeChange
  exchangeOrderId := p.orderSysID
  status :=
    if p.actionFlag = ActionFlag.delete then .cancelled
    else if p.actionFlag = ActionFlag.suspend then .pending
    else if p.actionFlag = ActionFlag.active then .working
    else if p.actionFlag = ActionFlag.modify then .working
    else .none

/-- `OnInsertOrder`: the report of an order that was accepted or refused -/
def State.onInsertOrder (s : State) (p : InputOrderField) (errorID : Int32) : Option Order := do
  let submitTime ← p.submitTime
  return {
    clientOrderId := s.clientOrderId p.userOrderLocalID
      (p.userOrderLocalID ++ "|" ++ p.orderSysID)
    account := p.userID
    contract := p.instrumentID
    buySell := buySell p.direction
    price := p.limitPrice.toString
    quantity := quantity p.volume
    tif := .gfd
    orderType := orderType p.orderPriceType
    exchangeOrderId := p.orderSysID
    status := if errorID ≠ 0 then .rejected else .none
    submitTime := submitTime
    orderFlag := orderFlag p.offsetFlag }

/-- `OnOrder`: the report of a change of an order -/
def State.onOrder (s : State) (p : OrderField) : Option Order := do
  let submitTime ← p.submitTime
  return {
    clientOrderId := s.clientOrderId p.userOrderLocalID
      (p.userOrderLocalID ++ "|" ++ p.orderSysID ++ "|" ++ p.orderUserID)
    account := p.userID
    contract := p.instrumentID
    buySell := buySell p.direction
    price := p.limitPrice.toString
    quantity := quantity p.volume
    tif := .gfd
    orderType := orderType p.orderPriceType
    exchangeOrderId := p.orderSysID
    status := orderStatus p.orderStatus
    workingPrice := p.limitPrice.toString
    workingQuantity := quantity p.volumeRemain
    filledQuantity := quantity p.volumeTraded
    submitTime := submitTime
    orderFlag := qryOrderFlag p.offsetFlag }

/-- `OnFill`: the report of a fill -/
def State.onFill (s : State) (p : TradeField) : Option Fill := do
  let _ ← p.fillTime
  return {
    fillId := p.tradeID
    account := p.userID
    contract := p.instrumentID
    buySell := buySell p.direction
    fillPrice := p.tradePrice.toString
    fillQuantity := quantity p.tradeVolume
    clientOrderId := s.clientOrderId p.userOrderLocalID
      (p.orderUserID ++ "|" ++ p.orderSysID ++ "|" ++ p.userOrderLocalID)
    exchangeOrderId := p.orderSysID }

/-! ## The communicator -/

/-- The settings of the gateway -/
structure Settings where
  brokerID : String := ""
  investorID : String := ""
  hedgeFlag : String := ""
  timeCondition : String := ""
  isAutoSuspend : String := ""
  exchangeID : String := ""
  volumeCondition : String := ""
  forceCloseReason : String := ""

/-- `c_str()[0]` -/
def firstChar (s : String) : Char := s.toList.headD '\x00'

/-- A request to the trading library, with the id it is made with, or a report to the
    strategy -/
inductive Output where
  | reqOrderInsert (inputOrder : InputOrderField) (requestID : Int32)
  | reqOrderAction (orderAction : OrderActionField) (requestID : Int32)
  | reqQryOrder (qryOrder : QryOrderField) (requestID : Int32)
  | onOrder (order : Order)
deriving DecidableEq, Repr

/-- The price, read as a number -/
def limitPrice (order : Order) : Binary64 := atof order.price

/-- The quantity, cut to 32 bits -/
def volume (order : Order) : Int32 := order.quantity.toUInt32.toInt32

/-- An order with a price or a volume that is not positive is rejected. -/
def refuses (order : Order) : Bool :=
  (limitPrice order).le (.fin 0) || decide (volume order ≤ 0)

/-- The request that an order is sent as -/
def inputOrder (settings : Settings) (order : Order) (maxOrderLocalID : Int32) :
    InputOrderField where
  userOrderLocalID := toString maxOrderLocalID.toInt
  brokerID := settings.brokerID
  userID := order.account
  instrumentID := order.contract
  investorID := settings.investorID
  direction :=
    if order.buySell = .buy then '0' else if order.buySell = .sell then '1' else '\x00'
  offsetFlag :=
    if order.orderFlag = .open then OffsetFlag.open'
    else if order.orderFlag = .close then OffsetFlag.close
    else if order.orderFlag = .tClose then OffsetFlag.closeToday
    else if order.orderFlag = .yClose then OffsetFlag.closeYesterday
    else OffsetFlag.all
  hedgeFlag := firstChar settings.hedgeFlag
  limitPrice := limitPrice order
  volume := volume order
  timeCondition := firstChar settings.timeCondition
  isAutoSuspend := atoi settings.isAutoSuspend
  exchangeID := settings.exchangeID
  orderPriceType :=
    if order.orderType = .limit then '2' else if order.orderType = .market then '1' else '\x00'
  volumeCondition := firstChar settings.volumeCondition
  forceCloseReason := firstChar settings.forceCloseReason

/-- `Add`: the id is registered before the order is looked at. -/
def add (settings : Settings) (s : State) (order : Order) : List Output × State :=
  let maxOrderLocalID := s.maxOrderLocalID
  let s := s.addOrderId order.clientOrderId
  if refuses order then
    ([.onOrder {
      clientOrderId := order.clientOrderId
      account := order.account
      contract := order.contract
      status := .rejected }], s)
  else ([.reqOrderInsert (inputOrder settings order maxOrderLocalID) s.maxOrderLocalID], s.next)

/-- `Delete` -/
def delete (settings : Settings) (s : State) (order : Order) : List Output × State :=
  let orderAction : OrderActionField := {
    orderSysID := order.exchangeOrderId
    userOrderLocalID := order.clientOrderId
    userOrderActionLocalID := toString s.maxOrderLocalID.toInt
    exchangeID := settings.exchangeID
    brokerID := settings.brokerID
    userID := order.account
    investorID := settings.investorID
    actionFlag := ActionFlag.delete }
  let s := s.addOrderId order.clientOrderId
  ([.reqOrderAction orderAction s.maxOrderLocalID], s.next)

/-- `Query` -/
def query (settings : Settings) (s : State) (order : Order) : List Output × State :=
  let s := s.addOrderId order.clientOrderId
  let qryOrder : QryOrderField := {
    exchangeID := settings.exchangeID
    brokerID := settings.brokerID
    userID := order.account
    investorID := settings.investorID
    orderSysID := order.exchangeOrderId
    orderStatus :=
      match order.status with
      | .cancelled => '5'
      | .filled => '0'
      | .rejected => '4'
      | .working => '3'
      | .pending => '6'
      | .none => '\x00' }
  ([.reqQryOrder qryOrder s.maxOrderLocalID], s.next)

/-- A call of the strategy -/
inductive Command where
  | add (order : Order)
  | delete (order : Order)
  | query (order : Order)
deriving DecidableEq, Repr

/-- One command, with what it sends and reports -/
def State.step (settings : Settings) (s : State) : Command → List Output × State
  | .add order => add settings s order
  | .delete order => delete settings s order
  | .query order => query settings s order

/-- The state after some calls -/
def State.run (settings : Settings) (s : State) (commands : List Command) : State :=
  commands.foldl (fun s c => (s.step settings c).2) s

/-- What is sent in some calls -/
def State.outputs (settings : Settings) : State → List Command → List Output
  | _, [] => []
  | s, c :: cs => (s.step settings c).1 ++ (s.step settings c).2.outputs settings cs

end FixHandler.Femas
