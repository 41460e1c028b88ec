import Mathlib
import FixHandler.ForStd.EStateM
import FixHandler.Native.Trade.Contract
import FixHandler.Native.Trade.MarketState
import FixHandler.Native.Trade.Algorithm

/-!
# The exchange simulater

`trade_order_manager.cc`, `trade_market_manager.cc` and `trade_simulater.cc`.
The simulater answers requests to an exchange listener and publishes market data
to a market listener; `TradeSimulater.events` records every call of either, in
order. Logging is left out, and so is the loading of another algorithm than
`TradeAlgorithmSimple`, the only one there is.

A request runs in `SimM`: it may throw, and what it did before that stays done.
-/

namespace FixHandler.Trade

open Cxx (Exception Ptr)
open Ems (Order Fill BuySell Timestamp)

/-- The order boxes of all contracts. -/
structure TradeOrderManager where
  tradeOrders : Std.TreeMap String TradeOrderBox := ∅

namespace TradeOrderManager

/-- An empty order box for the contract -/
def addContract (m : TradeOrderManager) (contractName : String) : TradeOrderManager :=
  { m with tradeOrders := m.tradeOrders.insert contractName { contractName } }

/-- The order box of a contract, which has to exist. -/
def orderBox (m : TradeOrderManager) (contractName : String) : Except Exception TradeOrderBox :=
  match m.tradeOrders[contractName]? with
  | some box => .ok box
  | none => .error (.invalidArgument ("contract " ++ contractName ++ " not exist"))

/-- Store what an operation made of the box it was called on. -/
def setBox (m : TradeOrderManager) (contractName : String) (box : TradeOrderBox) :
    TradeOrderManager :=
  { m with tradeOrders := m.tradeOrders.insert contractName box }

/-- `Add_order` -/
def addOrder (m : TradeOrderManager) (order : Order) :
    Except Exception (TradeOrderManager × Order) := do
  let (box, newOrder) ← (← m.orderBox order.contract).addOrder order
  return (m.setBox order.contract box, ← box.heap.deref newOrder)

/-- `Add_deleted_order` -/
def addDeletedOrder (m : TradeOrderManager) (order : Order) :
    Except Exception (TradeOrderManager × Order) := do
  let (box, newOrder) := (← m.orderBox order.contract).addDeletedOrder order
  return (m.setBox order.contract box, ← box.heap.deref newOrder)

/-- `Delete_order` -/
def deleteOrder (m : TradeOrderManager) (order : Order) (isAddToCancelled : Bool) :
    Except Exception (TradeOrderManager × Order) := do
  let (box, deleted) ← (← m.orderBox order.contract).deleteOrder order isAddToCancelled
  return (m.setBox order.contract box, deleted)

/-- `Query_order` -/
def queryOrder (m : TradeOrderManager) (order : Order) : Except Exception Order := do
  (← m.orderBox order.contract).queryOrder order

/-- `Fill_order` -/
def fillOrder (m : TradeOrderManager) (order : Order) (fillId : String)
    (filledQuantity : OrderSize) (fillPrice : OrderPrice) :
    Except Exception (TradeOrderManager × Fill) := do
  let (box, fill) :=
    (← m.orderBox order.contract).fillOrder order fillId filledQuantity fillPrice
  return (m.setBox order.contract box, fill)

/-- `contractName` is the contract of the order the pointer leads to. -/
def fillWorkingOrder (m : TradeOrderManager) (contractName : String) (workingOrder : Ptr)
    (fillId : String) (filledQuantity : OrderSize) (fillPrice : OrderPrice) :
    Except Exception (TradeOrderManager × Fill) := do
  let (box, fill) ← (← m.orderBox contractName).fillWorkingOrder workingOrder fillId
    filledQuantity fillPrice
  return (m.setBox contractName box, fill)

/-- `Order_status` -/
def orderStatus (m : TradeOrderManager) (contractName clientOrderId : String) :
    Except Exception Nat := do
  return (← m.orderBox contractName).orderStatus clientOrderId

end TradeOrderManager

/-- The published books of all contracts, and whether somebody listens. -/
structure TradeMarketManager where
  marketListener : Bool := false
  marketStates : Std.TreeMap String TradeMarketState := ∅

/-- An empty market state for the contract -/
def TradeMarketManager.addContract (m : TradeMarketManager) (contractName : String)
    (depth : UInt32) : TradeMarketManager :=
  { m with marketStates := m.marketStates.insert contractName { contractName, depth } }

/-- The calls the simulater makes to its listeners, from when it has been started. -/
inductive Event where
  | onOrder (order : Order)
  | onFill (fill : Fill)
  | onTrade (trade : Dms.Trade)
  | onL2 (l2 : Dms.L2)
  | onBBO (bbo : Dms.BBO)
  | onBid (bid : Dms.Bid)
  | onOffer (offer : Dms.Offer)
deriving DecidableEq, Repr

/-- `clock n` is the time the wall clock shows when the call number `n` is made. -/
structure TradeSimulater where
  clock : Nat → Timestamp
  contractAssist : TradeContractAssist := {}
  marketManager : TradeMarketManager := {}
  orderManager : TradeOrderManager := {}
  exchangeOrderId : UInt32 := 0
  fillId : UInt32 := 0
  events : List Event := []

/-- A computation of the simulater. -/
abbrev SimM := EStateM Exception TradeSimulater

namespace Message

def clientOrderIdExist := "client order id already exist"
def workingOrderNotFound := "working order not found"
def orderCancelled := "order cancelled"
def contractNotFound := "order's contract not found"
def orderAlreadyCancelled := "order is already deleted"
def orderAlreadyFilled := "order is already filled"
def orderNotFound := "order not found"
def orderPriceTooLow := "order price too low"
def orderPriceTooHigh := "order price too high"
def orderPriceInvalid := "order price invalid"
def orderTypeInvalid := "order type invalid"
def orderBsInvalid := "order must be buy or sell"
def limitOrderPriceInvalid := "limit order must set price"
def marketOrderPriceInvalid := "market order's price must be 0"
def orderQuantityInvalid := "order quantity invalid"

end Message

namespace TradeSimulater

/-! ## Talking to the listeners -/

/-- Call a listener. -/
def emit (e : Event) : SimM Unit :=
  modify fun s => { s with events := s.events ++ [e] }

/-- Call the market listener, if there is one. -/
def emitMarket (e : Event) : SimM Unit := do
  if (← get).marketManager.marketListener then emit e

/-- `TradeMarketManager::Send_bbo` -/
def sendBbo (market : TradeMarketState) : SimM Unit :=
  let bbo := market.bbo
  match bbo.bid, bbo.offer with
  | some _, some _ => emitMarket (.onBBO bbo)
  | none, none => pure ()
  | some bid, none => emitMarket (.onBid { contract := bbo.contract, bid })
  | none, some offer => emitMarket (.onOffer { contract := bbo.contract, offer })

/-- `TradeMarketManager::Send_trade` -/
def sendTrade (contractName : String) (tradePrice : OrderPrice) (tradeQuantity : OrderSize) :
    SimM Unit :=
  emitMarket (.onTrade { contract := contractName, last := ⟨toRealPrice tradePrice, tradeQuantity⟩ })

/-- The three `Change_market_on_order_…` functions: change the published book of a
    contract and publish what changed. The book of an unknown contract is a null
    pointer. -/
def changeMarket (contractName : String)
    (change : TradeMarketState → Except Exception (TradeMarketState × Nat)) : SimM Unit := do
  let some market := (← get).marketManager.marketStates[contractName]?
    | throw (.undefined "null pointer")
  let (market, result) ← EStateM.ofExcept (change market)
  modify fun s => { s with marketManager := { s.marketManager with
    marketStates := s.marketManager.marketStates.insert contractName market } }
  if result != 0 then emitMarket (.onL2 market.l2)
  if result == 2 then sendBbo market

/-- A new order changes the published book. -/
def changeMarketOnOrderCreated (order : Order) : SimM Unit :=
  changeMarket order.contract (·.onOrderCreated order)

/-- A deleted order changes the published book. -/
def changeMarketOnOrderDeleted (order : Order) : SimM Unit :=
  changeMarket order.contract (·.onOrderDeleted order)

/-- A fill changes the published book. -/
def changeMarketOnOrderFilled (order : Order) (fillSize : OrderSize) : SimM Unit :=
  changeMarket order.contract (·.onOrderFilled order fillSize)

/-- Run an operation of the order manager. -/
def withOrders {α : Type} (op : TradeOrderManager → Except Exception (TradeOrderManager × α)) :
    SimM α := do
  let (orderManager, a) ← EStateM.ofExcept (op (← get).orderManager)
  modify fun s => { s with orderManager }
  return a

/-! ## The simulater -/

/-- The ids count up in 32 bits. -/
def nextExchangeOrderId : SimM String := do
  modify fun s => { s with exchangeOrderId := s.exchangeOrderId + 1 }
  return "Order-" ++ (← get).exchangeOrderId.toNat.repr

/-- The counter is raised before its value is taken. -/
def nextFillId : SimM String := do
  modify fun s => { s with fillId := s.fillId + 1 }
  return "Fill-" ++ (← get).fillId.toNat.repr

/-- The reason an order is refused for, `""` if there is none. -/
def checkOrder (a : TradeContractAssist) (order : Order) : Except Exception String := do
  match ← a.checkOrder order with
  | .contractNotExist => return Message.contractNotFound
  | .priceTooLow => return Message.orderPriceTooLow
  | .priceTooHigh => return Message.orderPriceTooHigh
  | .invalidPrice => return Message.orderPriceInvalid
  | .normal =>
    if order.orderType == .none then return Message.orderTypeInvalid
    if order.buySell == .none then return Message.orderBsInvalid
    if order.orderType == .limit && (← Cxx.stod order.price).eq (.fin 0) then
      return Message.limitOrderPriceInvalid
    if order.orderType == .market && !(← Cxx.stod order.price).eq (.fin 0) then
      return Message.marketOrderPriceInvalid
    if order.quantity == 0 then return Message.orderQuantityInvalid
    return ""

/-- The report of an order after a fill -/
def makeFilledOrder (order : Order) (fill : Fill) (workingQuantity : OrderSize)
    (now : Timestamp) : Order :=
  { order with
    exchangeOrderId := fill.exchangeOrderId
    status := .filled
    workingPrice := order.price
    workingQuantity
    filledQuantity := fill.fillQuantity
    message := ""
    submitTime := now }

/-- The report of a request that is refused -/
def makeRejectResponse (order : Order) (rejectReason : String) : Order :=
  { order with status := .rejected, message := rejectReason }

/-- The report of an order that is deleted -/
def makeCancelResponse (order : Order) (cancelReason : String) : Order :=
  { order with status := .cancelled, message := cancelReason }

/-- Report an order with the quantity that is filled now. -/
def reportFilled (order : Order) (fill : Fill) (workingQuantity : OrderSize) : SimM Unit := do
  let s ← get
  emit (.onOrder (makeFilledOrder order fill workingQuantity (s.clock s.events.length)))
  emit (.onFill fill)

/-- One round of the loop of `Match_order`. -/
def matchOne (order : Order) (remainder : OrderSize) (oppo : MatchedOrder) : SimM Unit := do
  let box ← EStateM.ofExcept ((← get).orderManager.orderBox order.contract)
  let matched ← EStateM.ofExcept (box.heap.deref oppo.matchOrder)
  let fillId ← nextFillId
  let fill ← withOrders (·.fillOrder order fillId oppo.matchQuantity oppo.matchPrice)
  reportFilled order fill remainder
  let wfill ← withOrders
    (·.fillWorkingOrder matched.contract oppo.matchOrder fillId oppo.matchQuantity oppo.matchPrice)
  reportFilled matched wfill (matched.quantity - wfill.fillQuantity)
  sendTrade order.contract oppo.matchPrice oppo.matchQuantity
  changeMarketOnOrderFilled matched oppo.matchQuantity

/-- Match an order; what is left of it works or is deleted. -/
def matchOrder (order : Order) : SimM Unit := do
  let box ← EStateM.ofExcept ((← get).orderManager.orderBox order.contract)
  let (matchedOrders, remainder, isDelete) ← EStateM.ofExcept
    (TradeAlgorithmSimple.matches box.heap order (box.oppositeWorkingOrders order.buySell))
  matchedOrders.forM (matchOne order remainder)
  if remainder > 0 then
    let order := { order with
      filledQuantity := order.quantity - remainder
      quantity := remainder }
    if isDelete then
      let deletedOrder ← withOrders (·.addDeletedOrder order)
      emit (.onOrder (makeCancelResponse deletedOrder Message.orderCancelled))
    else
      let workingOrder ← withOrders (·.addOrder order)
      emit (.onOrder workingOrder)
      changeMarketOnOrderCreated workingOrder

/-- `Add`: check the order, then match it -/
def add (order : Order) : SimM Unit := do
  let err ← EStateM.ofExcept (checkOrder (← get).contractAssist order)
  if err != "" then
    return ← emit (.onOrder (makeRejectResponse order err))
  let status ← EStateM.ofExcept ((← get).orderManager.orderStatus order.contract order.clientOrderId)
  if status != 4 then
    return ← emit (.onOrder (makeRejectResponse order Message.clientOrderIdExist))
  let pending := { order with exchangeOrderId := ← nextExchangeOrderId, status := .pending }
  emit (.onOrder pending)
  matchOrder pending

/-- `Change`: check the order, delete the working one, then match it anew -/
def change (order : Order) : SimM Unit := do
  let err ← EStateM.ofExcept (checkOrder (← get).contractAssist order)
  if err != "" then
    return ← emit (.onOrder (makeRejectResponse order err))
  let status ← EStateM.ofExcept ((← get).orderManager.orderStatus order.contract order.clientOrderId)
  if status != 2 then
    return ← emit (.onOrder (makeRejectResponse order Message.workingOrderNotFound))
  let pending := { order with status := .pending }
  emit (.onOrder pending)
  let deletedOrder ← withOrders (·.deleteOrder order false)
  emit (.onOrder (makeCancelResponse deletedOrder Message.orderCancelled))
  changeMarketOnOrderDeleted deletedOrder
  matchOrder pending

/-- The answers to a request to delete an order that is not working, by its status. -/
def deleteRejectReason : Nat → String
  | 1 => Message.orderAlreadyCancelled
  | 3 => Message.orderAlreadyFilled
  | 4 => Message.orderNotFound
  | _ => ""

/-- `Delete`: take the working order out of its box -/
def delete (order : Order) : SimM Unit := do
  if !(← get).contractAssist.isContractExist order.contract then
    return ← emit (.onOrder (makeRejectResponse order Message.contractNotFound))
  let status ← EStateM.ofExcept ((← get).orderManager.orderStatus order.contract order.clientOrderId)
  if status != 2 then
    return ← emit (.onOrder (makeRejectResponse order (deleteRejectReason status)))
  let deletedOrder ← withOrders (·.deleteOrder order true)
  emit (.onOrder (makeCancelResponse deletedOrder Message.orderCancelled))
  changeMarketOnOrderDeleted deletedOrder

/-- The order a query is answered with. -/
def queryResult (s : TradeSimulater) (order : Order) : Except Exception Order := do
  if !s.contractAssist.isContractExist order.contract then
    return makeRejectResponse order Message.contractNotFound
  let result ← s.orderManager.queryOrder order
  if result.status == .rejected then
    return { result with message := Message.orderNotFound }
  return result

/-- `Query`: report the order as its box knows it -/
def query (order : Order) : SimM Unit := do
  emit (.onOrder (← EStateM.ofExcept ((← get).queryResult order)))

/-! ## Loading contracts -/

/-- Make a contract known to the three managers. -/
def addContract (s : TradeSimulater) (tc : TradeContract) : TradeSimulater :=
  { s with
    contractAssist := s.contractAssist.add tc
    marketManager := s.marketManager.addContract tc.name tc.depth
    orderManager := s.orderManager.addContract tc.name }

/-- A simulater with both listeners set and the given contracts loaded. -/
def started (clock : Nat → Timestamp) (contracts : List TradeContract) : TradeSimulater :=
  contracts.foldl addContract { clock, marketManager := { marketListener := true } }

/-! ## Runs -/

/-- What the exchange is asked for -/
inductive Request where
  | add (order : Order)
  | change (order : Order)
  | delete (order : Order)
deriving DecidableEq, Repr

/-- The message of a request. -/
def Request.order : Request → Order
  | .add order | .change order | .delete order => order

/-- Carry out a request. -/
def handle : Request → SimM Unit
  | .add order => add order
  | .change order => change order
  | .delete order => delete order

/-- The state a request leaves behind, also when it throws. -/
def step (s : TradeSimulater) (r : Request) : TradeSimulater :=
  (handle r s).state

/-- The state after a sequence of requests. -/
def run (s : TradeSimulater) (rs : List Request) : TradeSimulater :=
  rs.foldl step s

end TradeSimulater

end FixHandler.Trade
