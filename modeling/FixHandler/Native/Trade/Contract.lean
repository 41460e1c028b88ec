import Mathlib
import FixHandler.Native.Trade.ComparablePrice

/-!
# Contracts

`trade_contract_assist.h`: what is known of a contract, and the check of an
order's price against it.
-/

namespace FixHandler.Trade

open Cxx (Binary64 Exception)
open Ems (Order)

/-- A contract; the prices are in hundredths. -/
structure TradeContract where
  name : String
  depth : UInt32
  tick : OrderPrice
  min : OrderPrice
  max : OrderPrice
deriving DecidableEq, Repr

/-- What the check of an order finds -/
inductive TradeOrderPreCheckStatus where
  | normal | contractNotExist | priceTooLow | priceTooHigh | invalidPrice
deriving DecidableEq, Repr

/-- The contracts, by their names -/
structure TradeContractAssist where
  contracts : Std.TreeMap String TradeContract := ∅

namespace TradeContractAssist

/-- The contract replaces the one of its name. -/
def add (a : TradeContractAssist) (contract : TradeContract) : TradeContractAssist :=
  { a with contracts := a.contracts.insert contract.name contract }

/-- Is the price of an order legal for its contract? Throws if the price text is
    no number, and if it divides by a tick of zero. -/
def checkOrder (a : TradeContractAssist) (order : Order) :
    Except Exception TradeOrderPreCheckStatus := do
  let some tc := a.contracts[order.contract]? | return .contractNotExist
  let price ← Cxx.stod order.price
  let nprice := toOrderPrice price
  if price.eq (.fin 0) then return .normal
  if !price.eq (toRealPrice nprice) then return .invalidPrice
  if nprice > tc.max then return .priceTooHigh
  if nprice < tc.min then return .priceTooLow
  if tc.tick == 0 then throw (.undefined "division by zero")
  if (nprice - tc.min) % tc.tick != 0 then return .invalidPrice
  return .normal

/-- Whether a contract of the name is known -/
def isContractExist (a : TradeContractAssist) (name : String) : Bool :=
  a.contracts.contains name

end TradeContractAssist

end FixHandler.Trade
