import Mathlib
import FixHandler.Cxx.Binary64

/-!
# The messages `pb.ems` and `pb.dms`

The protocol buffer messages the components exchange. An optional field that is
not set reads as its default, so a field is modelled by its value; a field of
message type that a program tests for presence is an `Option`. The time at which
a fill happened (`Fill.fill_time`) and the `order_flag` of a fill are left out:
nothing reads them.
-/

namespace FixHandler

open Cxx (Binary64)

namespace Ems

/-- The side of an order -/
inductive BuySell where
  | none | buy | sell
deriving DecidableEq, Repr

/-- The states that a report gives an order -/
inductive OrderStatus where
  | none | cancelled | filled | rejected | working | pending
deriving DecidableEq, Repr

/-- Whether an order opens or closes a position -/
inductive OrderFlag where
  | none | open | close | yClose | tClose
deriving DecidableEq, Repr

/-- How long an order works -/
inductive TimeInForce where
  | none | fak | fok | gfd | gtc
deriving DecidableEq, Repr

/-- With a limit or at the market -/
inductive OrderType where
  | none | limit | market
deriving DecidableEq, Repr

/-- A day, as year, month and day -/
structure Date where
  year : UInt32 := 0
  month : UInt32 := 0
  day : UInt32 := 0
deriving DecidableEq, Repr

/-- A time of the day -/
structure Time where
  hour : UInt32 := 0
  minute : UInt32 := 0
  second : UInt32 := 0
  micros : UInt32 := 0
deriving DecidableEq, Repr

/-- A day and a time, with the time zone -/
structure Timestamp where
  date : Date := {}
  time : Time := {}
  timezone : Int32 := 0
deriving DecidableEq, Repr

/-- An order, in a request and in a report -/
structure Order where
  clientOrderId : String
  account : String := ""
  contract : String := ""
  buySell : BuySell := .none
  price : String := ""
  quantity : UInt64 := 0
  tif : TimeInForce := .none
  orderType : OrderType := .none
  exchangeOrderId : String := ""
  status : OrderStatus := .none
  workingPrice : String := ""
  workingQuantity : UInt64 := 0
  filledQuantity : UInt64 := 0
  message : String := ""
  submitTime : Timestamp := {}
  orderFlag : OrderFlag := .none
deriving DecidableEq, Repr

/-- A fill of an order -/
structure Fill where
  fillId : String
  fillPrice : String := ""
  fillQuantity : UInt64 := 0
  account : String := ""
  clientOrderId : String := ""
  exchangeOrderId : String := ""
  contract : String := ""
  buySell : BuySell := .none
deriving DecidableEq, Repr

end Ems

namespace Dms

/-- A price and a size -/
structure DataPoint where
  price : Binary64
  size : UInt64
deriving DecidableEq, Repr

/-- The last trade of a contract -/
structure Trade where
  contract : String
  last : DataPoint
deriving DecidableEq, Repr

/-- The best bid and the best offer -/
structure BBO where
  contract : String
  bid : Option DataPoint := none
  offer : Option DataPoint := none
deriving DecidableEq, Repr

/-- The best bid alone -/
structure Bid where
  contract : String
  bid : DataPoint
deriving DecidableEq, Repr

/-- The best offer alone -/
structure Offer where
  contract : String
  offer : DataPoint
deriving DecidableEq, Repr

/-- The levels of both sides -/
structure L2 where
  contract : String
  bid : List DataPoint := []
  offer : List DataPoint := []
deriving DecidableEq, Repr

end Dms

end FixHandler
