import Mathlib
import FixHandler.Cxx.Text
import FixHandler.ForStd.Swaps
import FixHandler.Native.Assist
import FixHandler.Native.Ems

/-!
# The CTP gateway

`ctp/exchange/ctp_trader_spi.cc`: the references of orders, the requests for an order and for its
cancellation, and the reports that are made of the callbacks. A strategy is set. The fields of the
trading library are texts that fit; the fields that are neither set nor read are left out.
-/

namespace FixHandler.Ctp

open Cxx (Binary64 atof atoi)
open Ems
open Assist (toPbTime)

/-! ## The fields of the trading library -/

/-- `CThostFtdcInputOrderField`; a `char` that is not set is 0. -/
structure InputOrderField where
  orderRef : String
  brokerID : String := ""
  investorID : String := ""
  instrumentID : String := ""
  orderPriceType : Char := '\x00'
  direction : Char := '\x00'
  combOffsetFlag : Char := '\x00'
  combHedgeFlag : Char := '\x00'
  limitPrice : Binary64 := .fin 0
  volumeTotalOriginal : Int32 := 0
  timeCondition : Char := '\x00'
  volumeCondition : Char := '\x00'
  minVolume : Int32 := 0
  contingentCondition : Char := '\x00'
  forceCloseReason : Char := '\x00'
  isAutoSuspend : Int32 := 0
  userForceClose : Int32 := 0
deriving DecidableEq, Repr

/-- `CThostFtdcInputOrderActionField` -/
structure InputOrderActionField where
  orderRef : String
  brokerID : String := ""
  investorID : String := ""
  exchangeID : String := ""
  orderSysID : String := ""
  actionFlag : Char := '\x00'
  limitPrice : Binary64 := .fin 0
  volumeChange : Int32 := 0
deriving DecidableEq, Repr

/-- `CThostFtdcOrderField` -/
structure OrderField where
  orderRef : String
  orderSysID : String := ""
  userID : String := ""
  instrumentID : String := ""
  direction : Char := '0'
  combOffsetFlag : Char := '0'
  limitPrice : Binary64 := .fin 0
  volumeTotalOriginal : Int32 := 0
  timeCondition : Char := '3'
  orderPriceType : Char := '2'
  orderStatus : Char := '3'
  volumeTotal : Int32 := 0
  volumeTraded : Int32 := 0
  tradingDay : String := ""
  insertTime : String := ""
deriving DecidableEq, Repr

/-- `CThostFtdcTradeField` -/
structure TradeField where
  orderRef : String
  orderSysID : String := ""
  tradeID : String := ""
  userID : String := ""
  instrumentID : String := ""
  direction : Char := '0'
  offsetFlag : Char := '0'
  price : Binary64 := .fin 0
  volume : Int32 := 0
  tradeDate : String := ""
  tradeTime : String := ""
deriving DecidableEq, Repr

namespace OffsetFlag

def open' : Char := '0'
def close : Char := '1'
def closeToday : Char := '3'
def closeYesterday : Char := '4'

end OffsetFlag

namespace ActionFlag

def delete : Char := '0'
def modify : Char := '3'

end ActionFlag

/-! ## Numbers as text -/

/-- The first loop of `itoa` with radix 10: the digits of a value that is not negative, the last one
    first. -/
def itoaDigits (val : Nat) : List Char :=
  let digval := val % 10
  let rest := val / 10
  Char.ofNat (digval + '0'.toNat) :: if 0 < rest then itoaDigits rest else []
termination_by val

/-- `itoa` with radix 10: the digits are put in order behind the sign. -/
def itoa (val : Int32) : String :=
  let sign := if val < 0 then ['-'] else []
  let val := if val < 0 then (-val.toInt64).toInt32 else val
  let buf := sign ++ itoaDigits val.toUInt32.toNat
  String.ofList (buf.reverseLoop sign.length (buf.length - 1))

/-! ## The manager -/

/-- `AccountID` -/
structure Account where
  brokerID : String := ""
  investorID : String := ""
  exchangeID : String := ""

/-- `CCtpTraderSpi`; before the first login the reference is whatever it is. -/
structure State where
  maxOrderRef : Int32
  /-- references and the ids of the client -/
  clientOrdersIndex : Std.TreeMap Int32 String := ∅

/-- The response to a login: the text of the last reference, and the id of an error -/
def State.onRspUserLogin (s : State) (maxOrderRef : String) (errorID : Int32) : State :=
  if errorID = 0 then { s with maxOrderRef := atoi maxOrderRef + 1 } else s

/-- The offset flag of a request -/
def combOffsetFlag : OrderFlag → Char
  | .open => OffsetFlag.open'
  | .close => OffsetFlag.close
  | .yClose => OffsetFlag.closeYesterday
  | .tClose => OffsetFlag.closeToday
  | .none => '\x00'

/-- The request of `reqOrderInsert` -/
def inputOrder (account : Account) (order : Order) (maxOrderRef : Int32) : InputOrderField where
  orderRef := itoa maxOrderRef
  brokerID := account.brokerID
  investorID := account.investorID
  instrumentID := order.contract
  orderPriceType := if order.orderType = .limit then '2' else '1'
  direction := if order.buySell = .buy then '0' else '1'
  combOffsetFlag := combOffsetFlag order.orderFlag
  combHedgeFlag := '1'
  limitPrice := if order.orderType = .limit then atof order.price else .fin 0
  volumeTotalOriginal := order.quantity.toUInt32.toInt32
  timeCondition := '3'
  volumeCondition := '1'
  minVolume := 1
  contingentCondition := '1'
  forceCloseReason := '0'

/-- `reqOrderInsert` -/
def State.reqOrderInsert (account : Account) (s : State) (order : Order) :
    InputOrderField × State :=
  (inputOrder account order s.maxOrderRef,
    { clientOrdersIndex := s.clientOrdersIndex.insert s.maxOrderRef order.clientOrderId
      maxOrderRef := s.maxOrderRef + 1 })

/-- `reqOrderAction`: nothing is sent for an order that was not inserted. -/
def State.reqOrderAction (account : Account) (s : State) (order : Order) :
    Option InputOrderActionField :=
  (s.clientOrdersIndex.toList.find? fun item => item.2 == order.clientOrderId).map fun item => {
    orderRef := itoa item.1
    brokerID := account.brokerID
    investorID := account.investorID
    exchangeID := account.exchangeID
    actionFlag := ActionFlag.delete }

/-! ## Reports -/

/-- The id of the client for a reference, or a text for an order that is not known -/
def State.clientOrderId (s : State) (orderRef unknown : String) : String :=
  s.clientOrdersIndex[atoi orderRef]?.getD unknown

/-- Missing where a part of the text is no number -/
def OrderField.submitTime (p : OrderField) : Option Timestamp :=
  toPbTime (p.tradingDay ++ "-" ++ p.insertTime ++ ".000")

/-- Missing where a part of the text is no number -/
def TradeField.time (p : TradeField) : Option Timestamp :=
  toPbTime (p.tradeDate ++ "-" ++ p.tradeTime ++ ".000")

/-- A signed volume as a quantity -/
def quantity (volume : Int32) : UInt64 := volume.toInt64.toUInt64

/-- Every direction but buying is taken for selling. -/
def buySell (direction : Char) : BuySell := if direction = '0' then .buy else .sell

/-- A limit or a market order; no type for any other price type. -/
def orderType (orderPriceType : Char) : Ems.OrderType :=
  if orderPriceType = '2' then .limit else if orderPriceType = '1' then .market else .none

/-- The number that `OnOrder` makes of a time condition: 1 for the character '1', and so on. -/
def tifNumber (timeCondition : Char) : Int32 := .ofNat timeCondition.toNat - 48

/-- The time in force that a number stands for -/
def tif (number : Int32) : TimeInForce :=
  if number = 1 then .fak
  else if number = 2 then .fok
  else if number = 3 then .gfd
  else if number = 4 then .gtc
  else .none

/-- An order as `OnOrder` reports it. The number of the time in force is stored as it is, also
    where the enumeration has no such number. -/
structure ReportedOrder extends Order where
  tifNumber : Int32
deriving DecidableEq, Repr

/-- The flag of a report -/
def orderFlag (offsetFlag : Char) : OrderFlag :=
  if offsetFlag = OffsetFlag.open' then .open
  else if offsetFlag = OffsetFlag.close then .close
  else if offsetFlag = OffsetFlag.closeYesterday then .yClose
  else if offsetFlag = OffsetFlag.closeToday then .tClose
  else .none

/-- `SetOrderStatus` -/
def orderStatus (status : Char) : OrderStatus :=
  if status = '0' then .filled
  else if status = '1' then .working
  else if status = '2' then .filled
  else if status = '3' then .working
  else if status = '4' then .rejected
  else if status = '5' then .cancelled
  else if status = 'a' then .pending
  else .none

/-- `OnInsertOrder` -/
def State.onInsertOrder (s : State) (p : InputOrderField) (errorID : Int32) : Order where
  clientOrderId := s.clientOrderId p.orderRef p.orderRef
  account := p.investorID
  contract := p.instrumentID
  buySell := buySell p.direction
  price := p.limitPrice.toString
  quantity := quantity p.volumeTotalOriginal
  tif := .gfd
  orderType := orderType p.orderPriceType
  status := if errorID ≠ 0 then .rejected else .none
  orderFlag := orderFlag p.combOffsetFlag

/-- `OnActionOrder` -/
def State.onActionOrder (s : State) (p : InputOrderActionField) : Order where
  clientOrderId := s.clientOrderId p.orderRef (p.orderRef ++ "|" ++ p.orderSysID)
  price := p.limitPrice.toString
  quantity := quantity p.volumeChange
  exchangeOrderId := p.orderSysID
  status :=
    if p.actionFlag = ActionFlag.delete then .cancelled
    else if p.actionFlag = ActionFlag.modify then .working
    else .none

/-- `OnOrder`; a time that cannot be read ends the callback. -/
def State.onOrder (s : State) (p : OrderField) : Option ReportedOrder := do
  let submitTime ← p.submitTime
  return {
    clientOrderId := s.clientOrderId p.orderRef (p.orderRef ++ "|" ++ p.orderSysID)
    account := p.userID
    contract := p.instrumentID
    buySell := buySell p.direction
    price := p.limitPrice.toString
    quantity := quantity p.volumeTotalOriginal
    tif := tif (tifNumber p.timeCondition)
    tifNumber := tifNumber p.timeCondition
    orderType := orderType p.orderPriceType
    exchangeOrderId := p.orderSysID
    status := orderStatus p.orderStatus
    workingPrice := p.limitPrice.toString
    workingQuantity := quantity p.volumeTotal
    filledQuantity := quantity p.volumeTraded
    submitTime := submitTime
    orderFlag := orderFlag p.combOffsetFlag }

/-- `OnFill`: an id of the client that is empty is replaced. -/
def State.onFill (s : State) (p : TradeField) : Option Fill := do
  let _ ← p.time
  let tmpcOrderId := s.clientOrderId p.orderRef (p.orderRef ++ "|" ++ p.orderSysID)
  return {
    fillId := p.tradeID
    account := p.userID
    contract := p.instrumentID
    buySell := buySell p.direction
    fillPrice := p.price.toString
    fillQuantity := quantity p.volume
    clientOrderId :=
      if tmpcOrderId = "" then p.orderSysID ++ "|" ++ p.orderRef else tmpcOrderId
    exchangeOrderId := p.orderSysID }

/-- `OnQryOrder` -/
def State.onQryOrder (s : State) (p : OrderField) : Option Order := do
  let submitTime ← p.submitTime
  return {
    clientOrderId := s.clientOrderId p.orderRef (p.orderRef ++ "|" ++ p.orderSysID)
    account := p.userID
    contract := p.instrumentID
    buySell := buySell p.direction
    price := p.limitPrice.toString
    quantity := quantity p.volumeTotalOriginal
    tif := .gfd
    orderType := if p.orderPriceType = '2' then .limit else .market
    exchangeOrderId := p.orderSysID
    status := orderStatus p.orderStatus
    workingPrice := p.limitPrice.toString
    workingQuantity := quantity p.volumeTotal
    filledQuantity := quantity p.volumeTraded
    submitTime := submitTime
    orderFlag := orderFlag p.combOffsetFlag }

/-- `OnQryTrade` -/
def State.onQryTrade (s : State) (p : TradeField) : Option Order := do
  let submitTime ← p.time
  return {
    clientOrderId := s.clientOrderId p.orderRef (p.orderRef ++ "|" ++ p.orderSysID)
    account := p.userID
    contract := p.instrumentID
    buySell := buySell p.direction
    price := p.price.toString
    quantity := quantity p.volume
    tif := .gfd
    exchangeOrderId := p.orderSysID
    status := .filled
    workingPrice := p.price.toString
    workingQuantity := 0
    filledQuantity := quantity p.volume
    submitTime := submitTime
    orderFlag := orderFlag p.offsetFlag }

/-! ## Runs -/

/-- A call that changes the references -/
inductive Event where
  | onRspUserLogin (maxOrderRef : String) (errorID : Int32)
  | reqOrderInsert (order : Order)
deriving DecidableEq, Repr

/-- One event: a login or an order -/
def State.step (account : Account) (s : State) : Event → State
  | .onRspUserLogin maxOrderRef errorID => s.onRspUserLogin maxOrderRef errorID
  | .reqOrderInsert order => (s.reqOrderInsert account order).2

/-- The state after some calls -/
def State.run (account : Account) (s : State) (events : List Event) : State :=
  events.foldl (State.step account) s

/-- The order that is inserted in a call, with the request that is made of it -/
def State.request (account : Account) (s : State) : Event → List (Order × InputOrderField)
  | .onRspUserLogin _ _ => []
  | .reqOrderInsert order => [(order, (s.reqOrderInsert account order).1)]

/-- The orders that are inserted in some calls -/
def State.requests (account : Account) : State → List Event → List (Order × InputOrderField)
  | _, [] => []
  | s, event :: events => s.request account event ++ (s.step account event).requests account events

end FixHandler.Ctp
