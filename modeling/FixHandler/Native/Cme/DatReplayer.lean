import Mathlib
import FixHandler.Native.Cme.MdpMessage

/-!
# Replay over TCP

`On_recovery_data` of `dat_replayer.cc` under `core/tcp/tcp_receiver.cc`: what is read at a
time is taken to be packets, each behind its length.
-/

namespace FixHandler.Cme

open Cxx (readUInt16 readUInt32 bytesAt)

/-- `Get_sbe_template_id`: four bytes are read, of which the lower two are kept. -/
def MessageUtility.getSbeTemplateId (packet : List UInt8) : Except PacketFault UInt16 := do
  -- MsgSeqNum, SendingTime, MsgSize, BlockLength
  let value ← fetch (readUInt32 packet (4 + 8 + 2 + 2))
  return value.toUInt16

structure DatReplayer where
  /-- the packets that were handed to the processor -/
  processed : List (List UInt8) := []
  /-- the receives that wait for data -/
  receives : Nat := 1
  /-- the receiver has been stopped -/
  stopped : Bool := false
deriving DecidableEq, Repr

namespace DatReplayer

open MessageUtility (getSbeTemplateId)

/-- The packet behind its length is handed to the processor, if it is not a heartbeat. -/
def process (s : DatReplayer) (templateId packetLength : UInt16) (rest : List UInt8) :
    Except PacketFault DatReplayer :=
  if templateId != 12 then do
    let packet ← fetch (bytesAt rest 2 packetLength.toNat)
    return { s with processed := s.processed ++ [packet] }
  else .ok s

/-- The loop over the packets; `rest` is what `start` points to. It advances by two bytes at
    least, so that `fuel` bytes are enough turns. -/
def pickPackets (s : DatReplayer) : Nat → List UInt8 → Except PacketFault DatReplayer
  | _, [] => .ok s
  | 0, _ :: _ => .error .endless
  | fuel + 1, rest@(_ :: _) => do
    let packetLength ← fetch (readUInt16 rest 0)
    let templateId ← getSbeTemplateId (rest.drop 2)
    if templateId == 16 then
      -- logout
      return { s with stopped := true }
    let s ← s.process templateId packetLength rest
    -- the next receive
    pickPackets { s with receives := s.receives + 1 } fuel (rest.drop (packetLength.toNat + 2))

def onRecoveryData (s : DatReplayer) (buffer : List UInt8) : Except PacketFault DatReplayer :=
  s.pickPackets buffer.length buffer

/-- `TCPReceiver::On_received`: a receive is called with the bytes that were transferred. -/
def onReceived (s : DatReplayer) (buffer : List UInt8) : Except PacketFault DatReplayer :=
  if s.stopped || s.receives == 0 then .ok s
  else { s with receives := s.receives - 1 }.onRecoveryData buffer

/-- The reads of a connection, behind the request. -/
def run (reads : List (List UInt8)) : Except PacketFault DatReplayer :=
  reads.foldlM onReceived {}

end DatReplayer

end FixHandler.Cme
