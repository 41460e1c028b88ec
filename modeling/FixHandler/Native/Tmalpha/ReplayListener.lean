import Mathlib

/-!
# The listener of the replay

`tmalpha/replay/replay_listener.h`: what was traded since the last turnover is divided between the
two sides when an L2 comes. Prices and turnovers are exact here. The callback is set; what is only
passed on to the market listener is left out.
-/

namespace FixHandler.Tmalpha.Listener

/-- A row of an L2 -/
structure DataPoint where
  price : ℚ
  size : UInt64
deriving DecidableEq, Repr

/-- `pb::dms::L2` -/
structure L2 where
  contract : String
  bid : List DataPoint := []
  offer : List DataPoint := []
deriving DecidableEq, Repr

/-- `pb::dms::Turnover` -/
structure Turnover where
  contract : String
  totalVolume : UInt64
  turnover : ℚ
deriving DecidableEq, Repr

/-- A volume and a turnover -/
structure Traded where
  volumn : UInt64 := 0
  turnover : ℚ := 0
deriving DecidableEq, Repr

/-- A call of the L2 changed callback -/
structure L2Changed where
  l2 : L2
  bidVolumn : UInt32
  askVolumn : UInt32
deriving DecidableEq, Repr

/-- What the listener is called with -/
inductive Event where
  | onTurnover (turnover : Turnover)
  | onL2 (l2 : L2) (volumeMultiple : Int32)
deriving DecidableEq, Repr

/-- The last totals of the contracts, and what was traded since -/
structure ReplayListener where
  lastTotalTurnover : Std.TreeMap String Traded := ∅
  currentTurnover : Std.TreeMap String Traded := ∅

/-- The conversion to `int`. Outside of the range of the type it is undefined in C++; the value
    given here is the one of the x86-64 instruction. -/
def toInt (q : ℚ) : Int32 :=
  let t := if q < 0 then -(-q).floor else q.floor
  if -2 ^ 31 ≤ t ∧ t < 2 ^ 31 then Int32.ofInt t else Int32.minValue

/-- A price that is 0 where there is no row -/
def bestPrice : List DataPoint → ℚ
  | [] => 0
  | best :: _ => best.price

/-- `Calculate_current_trade_volumn` for what was traded in the current interval -/
def calculateCurrentTradeVolumn (current : Traded) (l2 : L2) (volumeMultiple : Int32) :
    UInt32 × UInt32 :=
  let bidBestPrice := bestPrice l2.bid
  let askBestPrice := bestPrice l2.offer
  if volumeMultiple ≤ 0 ∨ current.volumn = 0 ∨ current.turnover ≤ 0 ∨
      (bidBestPrice ≤ 0 ∧ askBestPrice ≤ 0) ∨ bidBestPrice = askBestPrice then (0, 0)
  else
    let bidV := toInt ((current.turnover / volumeMultiple.toInt -
      current.volumn.toUInt32.toInt32.toInt * askBestPrice) / (bidBestPrice - askBestPrice))
    let askV := (current.volumn - bidV.toInt64.toUInt64).toUInt32.toInt32
    if bidV ≤ 0 then (0, current.volumn.toUInt32)
    else if askV ≤ 0 then (current.volumn.toUInt32, 0)
    else (bidV.toUInt32, askV.toUInt32)

namespace ReplayListener

/-- `OnTurnover` -/
def onTurnover (s : ReplayListener) (turnover : Turnover) : ReplayListener :=
  let last := s.lastTotalTurnover[turnover.contract]?.getD {}
  let risen := turnover.totalVolume.toUInt32.toInt32 - last.volumn.toUInt32.toInt32
  { currentTurnover := s.currentTurnover.insert turnover.contract {
      volumn := (max 0 risen).toInt64.toUInt64
      turnover := max 0 (turnover.turnover - last.turnover) }
    lastTotalTurnover := s.lastTotalTurnover.insert turnover.contract
      { volumn := turnover.totalVolume, turnover := turnover.turnover } }

/-- `OnL2`; a contract without a turnover gets an empty one. -/
def onL2 (s : ReplayListener) (l2 : L2) (volumeMultiple : Int32) : ReplayListener × L2Changed :=
  let current := s.currentTurnover[l2.contract]?.getD {}
  let volumn := calculateCurrentTradeVolumn current l2 volumeMultiple
  ({ s with currentTurnover := s.currentTurnover.insert l2.contract current },
    { l2, bidVolumn := volumn.1, askVolumn := volumn.2 })

/-- An event, and the calls it leads to -/
def step (s : ReplayListener) : Event → ReplayListener × List L2Changed
  | .onTurnover turnover => (s.onTurnover turnover, [])
  | .onL2 l2 volumeMultiple =>
    let (s, call) := s.onL2 l2 volumeMultiple
    (s, [call])

/-- The state after some events, and all calls -/
def run (s : ReplayListener) : List Event → ReplayListener × List L2Changed
  | [] => (s, [])
  | event :: events =>
    let (s, calls) := s.step event
    let (s, rest) := s.run events
    (s, calls ++ rest)

end ReplayListener

end FixHandler.Tmalpha.Listener
