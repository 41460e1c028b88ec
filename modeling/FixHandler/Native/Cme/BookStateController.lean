import Mathlib
import FixHandler.Cxx.Deque
import FixHandler.Native.Cme.Book

/-!
# The order books

`book_state_controller.cc`.
-/

namespace FixHandler.Cme

open Cxx (OutOfRange)

/-- The books, by the ids of their securities -/
structure BookStateController where
  mdBookStates : Std.TreeMap UInt32 BookState := ∅

/-- What `Modify_state` returns: a code and a pointer. -/
inductive ChangedState where
  /-- 0 -/
  | noData
  /-- 1 -/
  | reset
  /-- 2, with the book state if it was changed -/
  | bookState (state : Option BookState)
  /-- 3, with the book passed in -/
  | trade (book : Book)
deriving DecidableEq, Repr

namespace BookState

/-- The side that an entry is about. -/
def target (s : BookState) (b : Book) : List BookPrice :=
  if b.mDEntryType = .bid then s.bid else s.ask

/-- The state with the side of the entry replaced -/
def withTarget (s : BookState) (b : Book) (target : List BookPrice) : BookState :=
  if b.mDEntryType = .bid then { s with bid := target } else { s with ask := target }

end BookState

/-- The row of an entry. -/
def Book.price (b : Book) : BookPrice := ⟨b.numberOfOrders, b.mDEntrySize, b.mDEntryPx⟩

/-- A level without orders -/
def BookPrice.blank : BookPrice := ⟨0, 0, (0, 0)⟩

namespace BookStateController

/-- An empty book of a security -/
def create (bookType : UInt8) (securityID : UInt32) (symbol : String) (marketDepth : UInt8) :
    BookState :=
  { bookType, securityID, symbol, marketDepth }

/-- Cut both sides to a smaller depth -/
def shrink (s : BookState) (marketNewDepth : UInt8) : BookState :=
  let s := { s with marketDepth := marketNewDepth }
  let s := if s.bid.length > marketNewDepth.toNat then
    { s with bid := Cxx.Deque.resize s.bid marketNewDepth.toNat .blank } else s
  if s.ask.length > marketNewDepth.toNat then
    { s with ask := Cxx.Deque.resize s.ask marketNewDepth.toNat .blank } else s

/-- Create, delete or adjust the book of a security whose definition has changed. -/
def createOrShrink (c : BookStateController) (instrument : Instrument) : BookStateController :=
  if instrument.securityUpdateAction == 'D' then
    ⟨c.mdBookStates.erase instrument.securityID⟩
  else
    match c.mdBookStates[instrument.securityID]? with
    | none =>
      ⟨c.mdBookStates.insert instrument.securityID
        (create 1 instrument.securityID instrument.symbol instrument.depthGBX)⟩
    | some state =>
      ⟨c.mdBookStates.insert instrument.securityID
        (shrink { state with symbol := instrument.symbol } instrument.depthGBX)⟩

/-- Clear all books. -/
def resetState (c : BookStateController) : BookStateController :=
  ⟨c.mdBookStates.map fun _ s => { s with bid := [], ask := [] }⟩

/-- A level is put in, and the ones behind it move down. -/
def newPrice (b : Book) (s : BookState) : Except OutOfRange BookState := do
  let depth := s.marketDepth
  let target := s.target b
  let currentSize := target.length
  let (target, newSize) ← if b.mDPriceLevel.toNat ≤ currentSize + 1 then do
      -- there are rows up to the place of the new one
      let target ← Cxx.Deque.insert target (b.mDPriceLevel.toNat - 1) b.price
      pure (target, currentSize + 1)
    else do
      -- blank rows fill the space between the last row and the new one
      let target := Cxx.Deque.resize target (b.mDPriceLevel.toNat - 1) .blank
      let target ← Cxx.Deque.insert target target.length b.price
      pure (target, b.mDPriceLevel.toNat)
  if newSize > depth.toNat then
    let target ← Cxx.Deque.eraseRange target depth.toNat target.length
    return s.withTarget b target
  return s.withTarget b target

/-- A level is replaced. -/
def changePrice (b : Book) (s : BookState) : Except OutOfRange BookState := do
  return s.withTarget b (← Cxx.Deque.set (s.target b) (b.mDPriceLevel.toNat - 1) b.price)

/-- A level is taken out, and the ones behind it move up. -/
def deletePrice (b : Book) (s : BookState) : Except OutOfRange BookState := do
  return s.withTarget b (← Cxx.Deque.erase (s.target b) (b.mDPriceLevel.toNat - 1))

/-- The side is emptied. -/
def deleteAllPrice (b : Book) (s : BookState) : Except OutOfRange BookState :=
  return s.withTarget b []

/-- The levels from the first to the one of the entry are taken out. -/
def deleteTopPrice (b : Book) (s : BookState) : Except OutOfRange BookState := do
  let target := s.target b
  return s.withTarget b
    (← Cxx.Deque.eraseRange target 0 (min b.mDPriceLevel.toNat target.length : Nat))

/-- Whether the level is within the depth, and for a change or a deletion within the side -/
def checkPriceLevel (b : Book) (s : BookState) (mDUpdateAction : MDUpdateAction := .new) : Bool :=
  match mDUpdateAction with
  | .new | .deleteFrom => !(b.mDPriceLevel == 0 || decide (b.mDPriceLevel > s.marketDepth))
  | .change | .delete =>
    !(b.mDPriceLevel == 0 || decide (b.mDPriceLevel > s.marketDepth)) &&
      !decide ((s.target b).length < b.mDPriceLevel.toNat)
  | _ => true

/-- Update the book of a security; `none` where the entry is ignored. -/
def updatePrice (b : Book) (s : BookState) : Except OutOfRange (Option BookState) := do
  if b.type == 'W' then
    -- a recovery book is new
    if checkPriceLevel b s == false then return none
    return some (← newPrice b s)
  else if b.type == 'X' then
    if checkPriceLevel b s b.mDUpdateAction == false then return none
    match b.mDUpdateAction with
    | .new => return some (← newPrice b s)
    | .change => return some (← changePrice b s)
    | .delete => return some (← deletePrice b s)
    | .deleteThru => return some (← deleteAllPrice b s)
    | .deleteFrom => return some (← deleteTopPrice b s)
    | _ => return none
  else return none

/-- Update the books by an entry. -/
def modifyState (c : BookStateController) (b : Book) :
    Except OutOfRange (ChangedState × BookStateController) := do
  if b.mDEntryType = .bookReset then return (.reset, c.resetState)
  match c.mdBookStates[b.securityID]? with
  | none => return (.noData, c)
  | some state =>
    match b.mDEntryType with
    | .bid | .offer =>
      match ← updatePrice b state with
      | none => return (.bookState none, c)
      | some state => return (.bookState (some state), ⟨c.mdBookStates.insert b.securityID state⟩)
    | .trade => return (.trade b, c)
    | _ => return (.noData, c)

/-- A call of the controller. -/
inductive Call where
  | createOrShrink (instrument : Instrument)
  | modifyState (b : Book)
deriving DecidableEq, Repr

/-- One call, which may reach outside a side -/
def step (c : BookStateController) : Call → Except OutOfRange BookStateController
  | .createOrShrink instrument => .ok (c.createOrShrink instrument)
  | .modifyState b => (c.modifyState b).map (·.2)

/-- The state after a list of calls. -/
def run (c : BookStateController) : List Call → Except OutOfRange BookStateController
  | [] => .ok c
  | call :: calls => do run (← c.step call) calls

end BookStateController

end FixHandler.Cme
