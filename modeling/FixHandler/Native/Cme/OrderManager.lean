import Mathlib
import FixHandler.Native.Cme.FixMessage
import FixHandler.Native.Cme.GlobexCommunicator

/-!
# The messages of orders

`cme/exchange/order_manager.cc`: the request for a new order, and what is read from a report. The
header of a message names the session and is left out, and the time of a request is a parameter.
-/

namespace FixHandler.Cme.OrderManager

open Cxx (Binary64)
open FixMessage Exchange

/-- The settings that are part of a request -/
structure Settings where
  account : String
  manualFlag : Bool
  securityType : String
  customerFlag : UInt8
  ctiCode : String
deriving DecidableEq, Repr

/-- `set` and `setField`: a field that is there is overwritten. -/
def setField (message : FieldMap) (tag : Nat) (text : String) : FieldMap := message.insert tag text

/-- The same under a condition -/
def setFieldIf (condition : Bool) (message : FieldMap) (tag : Nat) (text : String) : FieldMap :=
  if condition then setField message tag text else message

/-- `createNewOrderSingle42` -/
def createNewOrderSingle42 (settings : Settings) (now : String) (order : Exchange.Order) :
    FieldMap :=
  let message : FieldMap := ∅
  let message := setField message Field.account settings.account
  let message := setField message Field.clOrdId order.clOrderId
  let message := setField message Field.handlInst (CharConvertor.write '1')
  let message :=
    setField message Field.orderQty (DoubleConvertor.write (.ofNat order.orderQty.toNat))
  let message := setField message Field.ordType (CharConvertor.write order.orderType)
  let message := setField message Field.side (CharConvertor.write order.side)
  let message := setField message Field.symbol order.symbol
  let message := setFieldIf (order.timeInForce != '\x00') message Field.timeInForce
    (CharConvertor.write order.timeInForce)
  let message := setFieldIf (order.minQty != 0) message Field.minQty
    (DoubleConvertor.write (.ofNat order.minQty.toNat))
  let message := setField message Field.transactTime now
  let message := setField message Field.securityDesc order.securityDesc
  let message := setField message Field.securityType settings.securityType
  let message := setField message Field.customerOrFirm (toString settings.customerFlag.toNat)
  let message := setField message Field.ctiCode settings.ctiCode
  let message := setField message Field.correlationClOrdId order.clOrderId
  let message :=
    setField message Field.manualOrderIndicator (if settings.manualFlag then "Y" else "N")
  -- limit, and stop with a limit
  setFieldIf (order.orderType == '2' || order.orderType == '4') message Field.price
    (DoubleConvertor.write order.price)

/-! ## Reports -/

/-- What leaves `processOrderResult` other than by returning. -/
inductive Unreadable where
  /-- `IncorrectDataFormat` -/
  | incorrectDataFormat (field : Nat) (text : String)
  /-- `boost::bad_lexical_cast` -/
  | badLexicalCast
deriving DecidableEq, Repr

/-- `Try_pick_value`: the default where the field is not set. -/
def tryPickValue {α : Type} (read : String → Option α) (default : α) (message : FieldMap)
    (tag : Nat) : Except Unreadable α :=
  match message[tag]? with
  | none => .ok default
  | some text =>
    match read text with
    | some a => .ok a
    | none => .error (.incorrectDataFormat tag text)

/-- A field of type `CharField` -/
def tryPickChar : FieldMap → Nat → Except Unreadable Char :=
  tryPickValue CharConvertor.read '\x00'

/-- A field of type `DoubleField` -/
def tryPickDouble : FieldMap → Nat → Except Unreadable Binary64 :=
  tryPickValue DoubleConvertor.read (.fin 0)

/-- A field of type `StringField`, and `Try_pick_string`: nothing can go wrong. -/
def tryPickString (message : FieldMap) (tag : Nat) : String := message[tag]?.getD ""

/-- `Try_pick_int`: 0 where the field is not set, or empty. -/
def tryPickInt {α : Type} (lexicalCast : List Char → Option α) (zero : α) (message : FieldMap)
    (tag : Nat) : Except Unreadable α :=
  let text := tryPickString message tag
  if text = "" then .ok zero
  else
    match lexicalCast text.toList with
    | some a => .ok a
    | none => .error .badLexicalCast

/-- The tag of the reason a report of the type gives for a reject. -/
def rejReason (messageType : String) (execType : Char) : Nat :=
  if messageType = "9" then Field.cxlRejReason
  else if execType = 'I' then Field.businessRejectReason
  else Field.ordRejReason

/-- `processOrderResult`; texts that nothing reads are left out. -/
def processOrderResult (messageType : String) (message : FieldMap) :
    Except Unreadable SingleOrderReport := do
  let execType ← tryPickChar message Field.execType
  let orderStatus ← tryPickChar message Field.ordStatus
  let orderType ← tryPickChar message Field.ordType
  let side ← tryPickChar message Field.side
  let _ ← tryPickChar message Field.cxlRejResponseTo
  let timeInForce ← tryPickChar message Field.timeInForce
  let minQty ← tryPickInt lexicalCast64 0 message Field.minQty
  let cumQty ← tryPickDouble message Field.cumQty
  let leavesQty ← tryPickDouble message Field.leavesQty
  let orderQty ← tryPickDouble message Field.orderQty
  let price ← tryPickDouble message Field.price
  let lastPx ← tryPickDouble message Field.lastPx
  let lastQty ← tryPickInt lexicalCast64 0 message Field.lastQty
  let _ ← tryPickInt Assist.lexicalCast 0 message (rejReason messageType execType)
  return {
    execType := execType
    clOrderId := tryPickString message Field.clOrdId
    account := tryPickString message Field.account
    orderId := tryPickString message Field.orderId
    execId := tryPickString message Field.execId
    orderStatus := orderStatus
    orderType := orderType
    side := side
    securityDesc := tryPickString message Field.securityDesc
    timeInForce := timeInForce
    minQty := minQty
    cumQty := cumQty.toUInt64
    leavesQty := leavesQty.toUInt64
    orderQty := orderQty.toUInt64
    price := price
    lastPx := lastPx
    lastQty := lastQty
    text := tryPickString message Field.text
    transactTime := tryPickString message Field.transactTime }

/-! ## The fields of a request -/

theorem getElem?_setField (message : FieldMap) (tag tag' : Nat) (text : String) :
    (setField message tag text)[tag']? = if tag = tag' then some text else message[tag']? := by
  unfold setField
  rw [Std.TreeMap.getElem?_insert]
  simp only [Nat.compare_eq_eq]

theorem getElem?_setFieldIf (condition : Bool) (message : FieldMap) (tag tag' : Nat)
    (text : String) :
    (setFieldIf condition message tag text)[tag']? =
      if condition = true ∧ tag = tag' then some text else message[tag']? := by
  unfold setFieldIf
  cases condition with
  | false => simp
  | true => simp [getElem?_setField]

end FixHandler.Cme.OrderManager
