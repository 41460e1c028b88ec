import Mathlib
import FixHandler.Native.Cme.MdpMessage

/-!
# The saver of the recovery feeds

`recovery_saver.cc`. One saver collects the definitions and one the snapshot of a
channel; both feeds repeat their messages in cycles of packets numbered from 1.
-/

namespace FixHandler.Cme

open Cxx (readUInt32)

structure RecoverySaver where
  isDefinition : Bool
  currentSequence : UInt32 := 0
  /-- how many messages there are to receive -/
  totalNumber : UInt32 := 0
  recoveryDatas : List MdpMessage := []
deriving DecidableEq, Repr

namespace RecoverySaver

/-- Field 911 (TotNumReports) of the first message of a packet: behind the packet's
    number and time, the size and the header of the message, and one byte of a
    definition or four bytes of a recovery message. -/
def field911 (s : RecoverySaver) (buffer : List UInt8) : Option UInt32 :=
  readUInt32 buffer (4 + 8 + 2 + 8 + if s.isDefinition then 1 else 4)

/-- The first half of `Save_packet`: packet 1 starts a new cycle. -/
def startCycle (s : RecoverySaver) (buffer : List UInt8) (packetSeqNum : UInt32) :
    Except PacketFault RecoverySaver :=
  if packetSeqNum == 1 then do
    let totalNumber ← fetch (s.field911 buffer)
    return { s with recoveryDatas := [], totalNumber }
  else return s

/-- Append the messages of a packet; true if all messages are saved. -/
def savePacket (s : RecoverySaver) (buffer : List UInt8) (packetSeqNum : UInt32) :
    Except PacketFault (Bool × RecoverySaver) := do
  let s ← s.startCycle buffer packetSeqNum
  let (currentSequence, messages) ← MessageUtility.pickMessagesFromPacket buffer
  let s := { s with currentSequence, recoveryDatas := s.recoveryDatas ++ messages }
  return (decide (s.recoveryDatas.length ≥ s.totalNumber.toNat), s)

/-- Process a packet; true if the callback is called. -/
def processRecoveryPacket (s : RecoverySaver) (buffer : List UInt8) :
    Except PacketFault (Bool × RecoverySaver) := do
  let packetSeqNum ← fetch (readUInt32 buffer 0)
  if packetSeqNum ≠ s.currentSequence + 1 ∧ packetSeqNum ≠ 1 then
    return (false, s)
  s.savePacket buffer packetSeqNum

end RecoverySaver

end FixHandler.Cme
