import Mathlib
import FixHandler.Spec.Tmalpha.MatcherCorrect
import FixHandler.Native.Tmalpha.ExchangeSimulater

/-!
# The two copies of the matcher

The order matcher of the replay is a copy of the simulated exchange. Both go through the same
tables, and their listeners hear the same, but for the report of an order that is filled:
only the matcher sends it, right before the fill.

## Key results

- `Same`: what the states of the copies have in common
- `copies_agree`: both copies make the same of every run
-/

namespace FixHandler.Tmalpha

open EStateM (Agree)
open Ems (Order Fill OrderStatus)

/-- What the listeners of the matcher and of the simulater heard: only the matcher reports an
    order as filled, right before its fill. -/
inductive Reported : List ExchangeEvent → List ExchangeEvent → Prop
  | nil : Reported [] []
  | order {heard heard' : List ExchangeEvent} (o : Order) (h : Reported heard heard') :
      Reported (heard ++ [.onOrder o]) (heard' ++ [.onOrder o])
  | fill {heard heard' : List ExchangeEvent} (o : Order) (f : Fill) (hstatus : o.status = .filled)
      (hclient : o.clientOrderId = f.clientOrderId) (hexchange : o.exchangeOrderId = f.exchangeOrderId)
      (h : Reported heard heard') :
      Reported (heard ++ [.onOrder o, .onFill f]) (heard' ++ [.onFill f])

/-- The two copies are in the same state. -/
structure Same (m : ReplayOrderMatcher) (x : ExchangeSimulater) : Prop where
  tradeRate : m.tradeRate = x.tradeRate
  exchangeOrderId : m.exchangeOrderId = x.exchangeOrderId
  fillId : m.fillId = x.fillId
  workingOrders : m.workingOrders = x.workingOrders
  workingOrderIds : m.workingOrderIds = x.workingOrderIds
  filledOrders : m.filledOrders = x.filledOrders
  canceledOrders : m.canceledOrders = x.canceledOrders
  currentStates : m.currentStates = x.currentStates
  now : m.now = x.now
  events : Reported m.events x.events

namespace Same

variable {m : ReplayOrderMatcher} {x : ExchangeSimulater}

/-- Both constructors leave the same empty tables. -/
theorem create (tradeRate : Int32) :
    Same (ReplayOrderMatcher.create tradeRate) (ExchangeSimulater.create tradeRate) :=
  ⟨rfl, rfl, rfl, rfl, rfl, rfl, rfl, rfl, rfl, .nil⟩

/-! ## What is read -/

/-- The check of a price against a book was copied word for word. -/
theorem isPriceMatching_eq : ReplayOrderMatcher.isPriceMatching = ExchangeSimulater.isPriceMatching :=
  rfl

/-- An order is matched on arrival by the same rule and the same book. -/
theorem hasMatching (h : Same m x) (o : Order) : m.hasMatching o = x.hasMatching o := by
  unfold ReplayOrderMatcher.hasMatching ExchangeSimulater.hasMatching
  -- the two bodies differ in the state that they look up and in nothing else
  rewrite [h.currentStates, isPriceMatching_eq]
  rfl

/-- The place in the queue depends on the rate alone. -/
theorem positionAt (h : Same m x) (size : UInt64) : m.positionAt size = x.positionAt size := by
  unfold ReplayOrderMatcher.positionAt ExchangeSimulater.positionAt
  rw [h.tradeRate]

/-- Whether the queue ahead is used up depends on the rate alone. -/
theorem isPositionReached (h : Same m x) : m.isPositionReached = x.isPositionReached := by
  unfold ReplayOrderMatcher.isPositionReached ExchangeSimulater.isPositionReached
  -- `positionAt` stands under a binder, so that it is rewritten as a function
  have hposition : m.positionAt = x.positionAt := funext h.positionAt
  rewrite [hposition]
  rfl

/-- A working order is looked at again by the same rule and the same book. -/
theorem hasRematching (h : Same m x) (info : OrderInfo) :
    m.hasRematching info = x.hasRematching info := by
  unfold ReplayOrderMatcher.hasRematching ExchangeSimulater.hasRematching
  rewrite [h.currentStates, isPriceMatching_eq, h.isPositionReached]
  rfl

/-- A new order is queued behind the same quantity. -/
theorem calculateOrderPosition (h : Same m x) (o : Order) :
    m.calculateOrderPosition o = x.calculateOrderPosition o := by
  unfold ReplayOrderMatcher.calculateOrderPosition ExchangeSimulater.calculateOrderPosition
  -- as in `isPositionReached`, under a binder
  have hposition : m.positionAt = x.positionAt := funext h.positionAt
  rewrite [h.currentStates, hposition]
  rfl

end Same

/-! ## Answers -/

/-- What both send keeps their reports in step. -/
theorem emit_agree (o : Order) :
    Agree Same (ReplayOrderMatcher.emit (.onOrder o)) (ExchangeSimulater.emit (.onOrder o)) :=
  .modify fun _ _ h => { h with events := h.events.order o }

/-- Both count the ids of the exchange in the same way. -/
theorem nextExchangeOrderId_agree :
    Agree Same ReplayOrderMatcher.nextExchangeOrderId ExchangeSimulater.nextExchangeOrderId := by
  unfold ReplayOrderMatcher.nextExchangeOrderId ExchangeSimulater.nextExchangeOrderId
  -- first the counter is raised, then its text is made of what it is now
  refine .bind (.modify fun _ _ h => ?_) fun _ => .get_bind fun m x h => ?_
  · exact { h with exchangeOrderId := by rw [h.exchangeOrderId] }
  · rw [h.exchangeOrderId]
    exact .pure _

/-- The fill is the same, and it is the only event of the simulater. -/
theorem orderFilled_agree (o : Order) (exchangeOrderId : String) :
    Agree Same (ReplayOrderMatcher.orderFilled o exchangeOrderId)
      (ExchangeSimulater.orderFilled o exchangeOrderId) := by
  intro m x h
  -- the simulater's call is written with the matcher's fill, whose id is drawn from the same
  -- counter
  have hfill : ExchangeSimulater.orderFilled o exchangeOrderId x =
      .ok (ReplayOrderMatcher.fillOf o m.fillIdOf exchangeOrderId) { x with
        fillId := x.fillId + 1
        events := x.events ++ [.onFill (ReplayOrderMatcher.fillOf o m.fillIdOf exchangeOrderId)] } := by
    unfold ReplayOrderMatcher.fillIdOf
    rw [h.fillId]
    rfl
  -- the matcher sends a report and the fill, which is what `Reported.fill` allows
  rw [ReplayOrderMatcher.orderFilled_eq, hfill]
  exact ⟨rfl, { h with
    fillId := by rw [h.fillId]
    events := h.events.fill _ _ rfl rfl rfl }⟩

/-- Both report a new order as working, and queue it at the same place. -/
theorem orderWorking_agree (o : Order) (exchangeOrderId : String) :
    Agree Same (ReplayOrderMatcher.orderWorking o exchangeOrderId)
      (ExchangeSimulater.orderWorking o exchangeOrderId) := by
  unfold ReplayOrderMatcher.orderWorking ExchangeSimulater.orderWorking
  refine .get_bind fun m x h => ?_
  rw [h.now]
  refine (emit_agree _).bind fun _ => .get_bind fun m x h => ?_
  rw [h.calculateOrderPosition]
  exact (Agree.ofExcept _).bind fun _ => .pure _

/-- Both reject with the same reason and the same time. -/
theorem orderReject_agree (o : Order) (reason : String) :
    Agree Same (ReplayOrderMatcher.orderReject o reason) (ExchangeSimulater.orderReject o reason) := by
  refine .get_bind fun m x h => ?_
  rw [h.now]
  exact emit_agree _

/-- Both report the same status of an order. -/
theorem orderStatus_agree (o : Order) (status : OrderStatus) :
    Agree Same (ReplayOrderMatcher.orderStatus o status) (ExchangeSimulater.orderStatus o status) := by
  refine .get_bind fun m x h => ?_
  rw [h.now]
  exact emit_agree _

/-- Both report an order that is filled from its fill alone. -/
theorem fillStatus_agree (f : Fill) :
    Agree Same (ReplayOrderMatcher.fillStatus f) (ExchangeSimulater.fillStatus f) := by
  refine .get_bind fun m x h => ?_
  rw [h.now]
  exact emit_agree _

/-! ## Rematching -/

/-- Looking up an id that is not there puts an empty entry into both maps. -/
theorem workingOrderAt_agree (id : String) :
    Agree Same (ReplayOrderMatcher.workingOrderAt id) (ExchangeSimulater.workingOrderAt id) := by
  unfold ReplayOrderMatcher.workingOrderAt ExchangeSimulater.workingOrderAt
  refine .get_bind fun m x h => ?_
  rw [h.workingOrders]
  cases x.workingOrders[id]? with
  | some info => exact .pure _
  | none =>
    -- `operator[]` of the map inserts a default entry
    refine .bind (.modify fun m x h => ?_) fun _ => .pure _
    exact { h with workingOrders := by rw [h.workingOrders] }

/-- One working order is matched again, or stays, in both copies. -/
theorem rematchOne_agree (contract : String) (kept : List String) (id : String)
    (rest : List String) :
    Agree Same (ReplayOrderMatcher.rematchOne contract kept id rest)
      (ExchangeSimulater.rematchOne contract kept id rest) := by
  unfold ReplayOrderMatcher.rematchOne ExchangeSimulater.rematchOne
  refine (workingOrderAt_agree id).bind fun info => .ite (.get_bind fun m x h => ?_) (.pure _)
  -- the check writes to the order's entry, whether it matches or not
  rw [h.hasRematching]
  refine (Agree.ofExcept _).bind fun ⟨matched, info'⟩ => .bind (.modify fun m x h => ?_) fun _ => ?_
  · exact { h with workingOrders := by rw [h.workingOrders] }
  · cases matched with
    | false => exact .pure _
    | true =>
      -- a fill takes the order out of the two tables of what works
      refine (orderFilled_agree _ _).bind fun f => .bind (.modify fun m x h => ?_) fun _ => .pure _
      exact { h with
        filledOrders := by rw [h.filledOrders]
        workingOrderIds := rfl
        workingOrders := by rw [h.workingOrders] }

/-- The walk over the ids that work keeps the copies in step. -/
theorem rematchFrom_agree (contract : String) (kept rest : List String) :
    Agree Same (ReplayOrderMatcher.rematchFrom contract kept rest)
      (ExchangeSimulater.rematchFrom contract kept rest) := by
  -- the induction is on the ids that are left; `kept` grows when an order stays
  induction rest generalizing kept with
  | nil => exact .pure _
  | cons id rest ih =>
    exact (rematchOne_agree contract kept id rest).bind fun matched => .ite (ih kept) (ih _)

/-! ## Requests -/

/-- A change of the book is stored, and then every working order of the contract is tried. -/
theorem onStateChanged_agree (l2 : Dms.L2) (bidVolumn askVolumn : UInt32) :
    Agree Same (ReplayOrderMatcher.onStateChanged l2 bidVolumn askVolumn)
      (ExchangeSimulater.onStateChanged l2 bidVolumn askVolumn) := by
  refine .bind (.modify fun m x h => ?_) fun _ => .get_bind fun m x h => ?_
  · exact { h with currentStates := by rw [h.currentStates] }
  · rw [h.workingOrderIds]
    exact rematchFrom_agree _ _ _

/-- A new order is filled at once or works, in both copies. -/
theorem add_agree (o : Order) :
    Agree Same (ReplayOrderMatcher.add o) (ExchangeSimulater.add o) := by
  unfold ReplayOrderMatcher.add ExchangeSimulater.add
  refine .get_bind fun m x h => ?_
  rw [h.hasMatching]
  refine (Agree.ofExcept _).bind fun ⟨matched, o'⟩ => .ite ?_ ?_
  · -- it is matched: an id is drawn, and the fill is stored
    refine nextExchangeOrderId_agree.bind fun id => (orderFilled_agree o' id).bind fun f =>
      .modify fun m x h => ?_
    exact { h with filledOrders := by rw [h.filledOrders] }
  · -- it is not: an id is drawn, and the order is queued
    refine nextExchangeOrderId_agree.bind fun id => (orderWorking_agree o' id).bind fun info =>
      .modify fun m x h => ?_
    exact { h with
      workingOrders := by rw [h.workingOrders]
      workingOrderIds := by rw [h.workingOrderIds] }

/-- A replacement is rejected by the same three checks, or works. -/
theorem change_agree (o : Order) :
    Agree Same (ReplayOrderMatcher.change o) (ExchangeSimulater.change o) := by
  unfold ReplayOrderMatcher.change ExchangeSimulater.change
  refine .get_bind fun m x h => ?_
  rw [h.filledOrders, h.canceledOrders, h.workingOrders]
  -- filled and cancelled orders are rejected first, and then those that are not known
  refine .ite (orderReject_agree _ _) (.ite (orderReject_agree _ _) ?_)
  cases x.workingOrders[o.clientOrderId]? with
  | none => exact orderReject_agree _ _
  | some working =>
    refine (orderWorking_agree _ _).bind fun info => .modify fun m x h => ?_
    exact { h with workingOrders := by rw [h.workingOrders] }

/-- A cancel is rejected by the same three checks, or takes the order out. -/
theorem delete_agree (o : Order) :
    Agree Same (ReplayOrderMatcher.delete o) (ExchangeSimulater.delete o) := by
  unfold ReplayOrderMatcher.delete ExchangeSimulater.delete
  refine .get_bind fun m x h => ?_
  rw [h.filledOrders, h.canceledOrders, h.workingOrders]
  -- the checks come in the same order as for a replacement
  refine .ite (orderReject_agree _ _) (.ite (orderReject_agree _ _) ?_)
  cases x.workingOrders[o.clientOrderId]? with
  | none => exact orderReject_agree _ _
  | some working =>
    refine (orderStatus_agree _ _).bind fun _ => .modify fun m x h => ?_
    exact { h with
      canceledOrders := by rw [h.canceledOrders]
      workingOrderIds := by rw [h.workingOrderIds]
      workingOrders := by rw [h.workingOrders] }

/-- A query looks into the three tables in the same order. -/
theorem query_agree (o : Order) :
    Agree Same (ReplayOrderMatcher.query o) (ExchangeSimulater.query o) := by
  unfold ReplayOrderMatcher.query ExchangeSimulater.query
  refine .get_bind fun m x h => ?_
  rw [h.filledOrders, h.canceledOrders, h.workingOrders]
  -- the tables of what is filled, cancelled and working are asked one after the other
  cases x.filledOrders[o.clientOrderId]? with
  | some fill => exact fillStatus_agree fill
  | none =>
    cases x.canceledOrders[o.clientOrderId]? with
    | some canceled => exact orderStatus_agree _ _
    | none =>
      cases x.workingOrders[o.clientOrderId]? with
      | none => exact orderReject_agree _ _
      | some working => exact orderStatus_agree _ _

/-- No call brings the copies out of step. -/
theorem step_agree (c : Call) :
    Agree Same (ReplayOrderMatcher.step c) (ExchangeSimulater.step c) := by
  refine .bind (.modify fun m x h => { h with now := rfl }) fun _ => ?_
  cases c.request with
  | add o => exact add_agree o
  | change o => exact change_agree o
  | delete o => exact delete_agree o
  | query o => exact query_agree o
  | stateChanged l2 bidVolumn askVolumn => exact onStateChanged_agree _ _ _

/-- Both copies make the same of every run: the same tables, the same ids, and the same
    events, but for the orders that only the matcher reports as filled. Where one of them
    throws, the other one throws the same. -/
theorem copies_agree (tradeRate : Int32) (calls : List Call) :
    (ReplayOrderMatcher.run tradeRate calls).Agree Same (ExchangeSimulater.run tradeRate calls) :=
  Agree.forM step_agree calls _ _ (Same.create tradeRate)

end FixHandler.Tmalpha
