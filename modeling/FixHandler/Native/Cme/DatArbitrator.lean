import Mathlib
import FixHandler.Cxx.Counting

/-!
# The arbitrator of the incremental feed

`dat_arbitrator.cc`. The arbitrator decides which packets of the two UDP lines
and of the TCP replay are processed. Before the first packet `currentSequence`
is the largest 32 bit number. A call is atomic: only the thread of the feed uses
`currentSequence`, and the mutex protects the lost numbers.
-/

namespace FixHandler.Cme

open Cxx (uint32Max countingRange)

/-- The number of the last packet of the feed, and the numbers that were lost -/
structure DatArbitrator where
  currentSequence : UInt32 := uint32Max
  lostSequences : Std.TreeSet UInt32 := ∅

namespace DatArbitrator

/-- Check a packet of the UDP feed: the largest number if it is to be discarded, the
    first number of the gap if it opens one, 0 otherwise. -/
def checkFeedPacket (a : DatArbitrator) (packetSeqNum : UInt32) : UInt32 × DatArbitrator :=
  if packetSeqNum == a.currentSequence + 1 then
    (0, { a with currentSequence := packetSeqNum })
  else if packetSeqNum == a.currentSequence then
    (uint32Max, a)
  else if a.currentSequence == uint32Max then
    -- the first packet
    (0, { a with currentSequence := packetSeqNum })
  else if packetSeqNum < a.currentSequence then
    if a.lostSequences.contains packetSeqNum then
      (0, { a with lostSequences := a.lostSequences.erase packetSeqNum })
    else (uint32Max, a)
  else
    let oldSeq := a.currentSequence + 1
    (oldSeq,
      { currentSequence := packetSeqNum
        lostSequences := a.lostSequences.insertMany (countingRange oldSeq packetSeqNum) })

/-- Check a packet of the TCP replay: 0 if it was lost, the largest number otherwise. -/
def checkReplayPacket (a : DatArbitrator) (packetSeqNum : UInt32) : UInt32 × DatArbitrator :=
  if a.lostSequences.contains packetSeqNum then
    (0, { a with lostSequences := a.lostSequences.erase packetSeqNum })
  else (uint32Max, a)

end DatArbitrator

/-- A call of the arbitrator. -/
inductive Call where
  | feed (packetSeqNum : UInt32)
  | replay (packetSeqNum : UInt32)
deriving DecidableEq, Repr

/-- The number of the packet that is checked -/
def Call.packetSeqNum : Call → UInt32
  | .feed n | .replay n => n

/-- The answer to a call -/
def DatArbitrator.check (a : DatArbitrator) : Call → UInt32 × DatArbitrator
  | .feed n => a.checkFeedPacket n
  | .replay n => a.checkReplayPacket n

/-- An arbitrator with the history of its calls: the numbers it has accepted, and the
    ranges from its answer up to the packet for which `DatProcessor::Process_feed_data`
    starts a TCP replay. -/
structure Arbitration where
  arbitrator : DatArbitrator := {}
  accepted : List UInt32 := []
  requested : List (UInt32 × UInt32) := []

namespace Arbitration

/-- The history after a call and its answer. -/
def record (s : Arbitration) (c : Call) (res : UInt32 × DatArbitrator) : Arbitration where
  arbitrator := res.2
  accepted := if res.1 = uint32Max then s.accepted else s.accepted ++ [c.packetSeqNum]
  requested := match c with
    | .feed n => if res.1 ≠ uint32Max ∧ res.1 > 0 then s.requested ++ [(res.1, n)]
        else s.requested
    | .replay _ => s.requested

/-- One call, with its answer recorded -/
def step (s : Arbitration) (c : Call) : Arbitration := s.record c (s.arbitrator.check c)

/-- Calls in their order -/
def run (s : Arbitration) (cs : List Call) : Arbitration := cs.foldl step s

end Arbitration

end FixHandler.Cme
