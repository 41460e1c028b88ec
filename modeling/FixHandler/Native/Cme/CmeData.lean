import Mathlib
import FixHandler.Cxx.Counting
import FixHandler.Native.Cme.RecoverySaver

/-!
# The data of a channel

`cme_data.cc`. The increments are kept in a multiset ordered by the number of their
packet, where an element is put behind the elements of its number. An iterator is
modelled by the number of the element it points to.
-/

namespace FixHandler.Cme

open Cxx (uint32Max countingRange)

structure CmeData where
  lastSeq : UInt32 := uint32Max
  unreceivedSeqs : Std.TreeSet UInt32 := ∅
  /-- the elements of the multiset, each with a number of its own -/
  incrementDatas : List (Nat × MdpMessage) := []
  nextNode : Nat := 0
  definitionSaver : RecoverySaver := { isDefinition := true }
  recoverySaver : RecoverySaver := { isDefinition := false }

namespace CmeData

/-- `std::multiset::insert` -/
def insert (d : CmeData) (m : MdpMessage) : CmeData :=
  let (before, after) := d.incrementDatas.span (·.2.packetSeqNum ≤ m.packetSeqNum)
  { d with incrementDatas := before ++ (d.nextNode, m) :: after, nextNode := d.nextNode + 1 }

/-- Save increments, and keep track of the numbers that are missing. -/
def insertIncrementData (d : CmeData) (packetSeqNum : UInt32) (messages : List MdpMessage) :
    CmeData :=
  let d := messages.foldl insert d
  if d.lastSeq == uint32Max then
    -- the first data
    { d with lastSeq := packetSeqNum }
  else if packetSeqNum < d.lastSeq then
    -- data that was missing
    { d with unreceivedSeqs := d.unreceivedSeqs.erase packetSeqNum }
  else
    { d with
      unreceivedSeqs :=
        d.unreceivedSeqs.insertMany (countingRange (d.lastSeq + 1) packetSeqNum)
      lastSeq := packetSeqNum }

/-- The smallest missing number, 0 if there is none. -/
def firstUnreceived (d : CmeData) : UInt32 := d.unreceivedSeqs.toList.head?.getD 0

/-- The message to process next; `none` where the caller has to wait for data. -/
def pickNextMessage (d : CmeData) : Option (Nat × MdpMessage) :=
  match d.incrementDatas with
  | [] => none
  | message :: _ =>
    if d.firstUnreceived ≠ 0 ∧ message.2.packetSeqNum ≥ d.firstUnreceived then none
    else some message

/-- `std::multiset::erase` of an iterator -/
def removeIncrementData (d : CmeData) (message : Nat) : CmeData :=
  { d with incrementDatas := d.incrementDatas.filter (·.1 != message) }

/-- The number of the first data; `none` where the caller has to wait for data. -/
def incrementFirstDataSeq (d : CmeData) : Option UInt32 :=
  d.incrementDatas.head?.map (·.2.packetSeqNum)

end CmeData

end FixHandler.Cme
