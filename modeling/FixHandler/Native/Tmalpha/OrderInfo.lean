import Mathlib
import FixHandler.Cxx.Text
import FixHandler.Native.Ems

/-!
# What the replay exchanges keep

The data that `tmalpha/replay/replay_order_matcher` and
`tmalpha/exchange/exchange_simulater` both have, and the requests that are made of them.
-/

namespace FixHandler.Tmalpha

open Ems (Order Fill Timestamp)

/-- An order that is not filled, its place in the queue of its price (-1: not known yet),
    and what was traded at this price since. -/
structure OrderInfo where
  order : Order := { clientOrderId := "" }
  position : Int32 := 0
  turnover : UInt32 := 0
deriving DecidableEq, Repr

/-- The last market data of a contract, with the last traded quantities. -/
structure CurrentState where
  l2 : Dms.L2
  bidVolumn : UInt32 := 0
  askVolumn : UInt32 := 0
deriving DecidableEq, Repr

/-- A call of the listener. -/
inductive ExchangeEvent where
  | onOrder (order : Order)
  | onFill (fill : Fill)
deriving DecidableEq, Repr

/-- A request of a strategy, or new market data -/
inductive Request where
  | add (order : Order)
  | change (order : Order)
  | delete (order : Order)
  | query (order : Order)
  | stateChanged (l2 : Dms.L2) (bidVolumn askVolumn : UInt32)
deriving DecidableEq, Repr

/-- A request, and what the clock shows while it is handled. -/
structure Call where
  request : Request
  now : Timestamp := {}
deriving DecidableEq, Repr

end FixHandler.Tmalpha
