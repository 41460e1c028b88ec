import Mathlib
import FixHandler.Native.Assist
import FixHandler.Native.Cme.GlobexCommunicator

/-!
# The requests of the strategy

`core/strategy/strategy_communicator.cc` with the CME gateway as the exchange. How an order is
parsed is a parameter; nothing that is sent fails.
-/

namespace FixHandler.Strategy

open Ems
open Cme (StrategyOrder Thrown createOrder createMassOrder)
open Cme.Exchange (MassOrder)

/-- What is sent to the exchange, or back to the strategy. -/
inductive Sent where
  | newOrderSingle (order : Cme.Exchange.Order)
  | orderCancel (order : Cme.Exchange.Order)
  | orderCancelReplace (order : Cme.Exchange.Order)
  | orderStatus (order : Cme.Exchange.Order)
  | orderMassStatus (order : MassOrder)
  | orderMassAction (order : MassOrder)
  | rejectOrder (order : StrategyOrder)
deriving DecidableEq, Repr

/-! ## The exchange -/

/-- `GlobexCommunicator::Add` -/
def add (order : StrategyOrder) : Except Thrown Sent := (createOrder order).map .newOrderSingle

/-- `GlobexCommunicator::Change` -/
def change (order : StrategyOrder) : Except Thrown Sent :=
  (createOrder order).map .orderCancelReplace

/-- `GlobexCommunicator::Delete` -/
def delete (order : StrategyOrder) : Except Thrown Sent := (createOrder order).map .orderCancel

/-- `GlobexCommunicator::Query` -/
def query (order : StrategyOrder) : Except Thrown Sent := (createOrder order).map .orderStatus

/-- `GlobexCommunicator::Query_mass` -/
def queryMass (data : List UInt8) : Except Thrown Sent :=
  (createMassOrder data).map .orderMassStatus

/-- `GlobexCommunicator::Delete_mass` -/
def deleteMass (data : List UInt8) : Except Thrown Sent :=
  (createMassOrder data).map .orderMassAction

/-! ## The requests -/

/-- A field has to be set, and valid. -/
def checkField {α : Type} (field : Option α) (valid : α → Bool) (missing invalid : String) :
    Except Thrown Unit :=
  match field with
  | none => .error (.invalidOrder missing)
  | some a => if valid a then .ok () else .error (.invalidOrder invalid)

/-- `Check_order`. The id of the client is set in every order that is parsed, and a contract is
    not looked at. -/
def checkOrder (order : StrategyOrder) : Except Thrown Unit := do
  checkField (some order.clientOrderId) (fun _ => true) "Missing field: cl_order_id" ""
  checkField order.contract (fun _ => true) "Missing field: contract" ""
  checkField order.buySell (fun side => side == .buy || side == .sell) "Missing field: side"
    "Invalid side"
  checkField order.price Assist.isPriceValid "Missing field: price" "Invalid price"
  checkField order.quantity (fun quantity => quantity != 0) "Missing field: quantity"
    "Invalid OrderQty"
  checkField order.orderType (fun type => type == .limit || type == .market)
    "Missing field: order_type" "Invalid OrdType"

/-- The answer to a request that fails: what is no `InvalidOrder` leaves the call. -/
def answer (order : StrategyOrder) : Except Thrown Sent → List Sent × Option Thrown
  | .ok sent => ([sent], none)
  | .error (.invalidOrder what) =>
    ([.rejectOrder { order with status := some .rejected, message := some what }], none)
  | .error (.std exception) => ([], some (.std exception))

/-- A request that holds an order. The order that is rejected is empty if there is none. -/
def request (parse : List UInt8 → Option StrategyOrder) (data : List UInt8)
    (process : StrategyOrder → Except Thrown Sent) : List Sent × Option Thrown :=
  match parse data with
  | none => answer { clientOrderId := "" } (.error (.invalidOrder "order parse error"))
  | some order => answer order (process order)

/-- `Order_request`: what is sent, and what leaves the call. -/
def orderRequest (parse : List UInt8 → Option StrategyOrder) (data : List UInt8) :
    List Sent × Option Thrown :=
  match data with
  | [] => ([], some (.std (.undefined "out of bounds")))
  | type :: rest =>
    match (type - 49).toNat with
    | 0 => request parse rest fun order => do
      checkOrder order
      add order
    -- a cancel is not checked
    | 1 => request parse rest delete
    | 2 => request parse rest fun order => do
      checkOrder order
      change order
    | 3 => request parse rest fun order => do
      checkOrder order
      query order
    | 4 => answer { clientOrderId := "" } (queryMass rest)
    | 5 => answer { clientOrderId := "" } (deleteMass rest)
    | _ => ([], none)

end FixHandler.Strategy
