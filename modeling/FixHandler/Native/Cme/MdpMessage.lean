import Mathlib
import FixHandler.Cxx.Bytes
import FixHandler.Native.Cme.SbeDecoder

/-!
# MDP packets and messages

`mdp_message.h`, and the splitting and the making of a packet in `message_utility.cc`. A packet is
its bytes: a sequence number, a sending time, and messages each behind a size
that counts itself. A message is decoded when it is made. The decoded header and
body are not kept here: who needs them decodes the bytes again.
-/

namespace FixHandler.Cme

open Cxx (readUInt16 readUInt32 readUInt64 bytesAt toBytes uint16Bytes)

structure MdpMessage where
  packetLength : Nat
  packetSeqNum : UInt32
  packetSendingTime : UInt64
  messageLength : UInt16
  buffer : List UInt8
deriving DecidableEq, Repr

/-- Field 369 of a recovery message. -/
def MdpMessage.lastMsgSeqNumProcessed (m : MdpMessage) : Option UInt32 := readUInt32 m.buffer 8

/-- How splitting a packet can go wrong. -/
inductive PacketFault where
  /-- a read outside the buffer -/
  | outOfRange
  /-- a message of size zero, over and over -/
  | endless
  /-- a `std::runtime_error` of a message that cannot be decoded -/
  | thrown (what : String)
deriving DecidableEq, Repr

/-- What is at a place of the buffer. -/
def fetch : Option α → Except PacketFault α
  | some a => .ok a
  | none => .error .outOfRange

/-- `Reset`, which the constructor calls: the bytes are decoded, or it throws. -/
def MdpMessage.reset (buffer : List UInt8) : Except PacketFault (UInt16 × Option SbeBody) :=
  match SBEDecoder.startDecode buffer with
  | .ok decoded => .ok decoded
  | .error (.thrown what) => .error (.thrown what)
  | .error .outside => .error .outOfRange

namespace MessageUtility

/-- The loop over the messages; `rest` is what the current position points to. It
    advances by the message's length, so that `fuel` bytes are enough turns. -/
def pickMessages (dataLength : Nat) (packetSeqNum : UInt32) (packetSendingTime : UInt64) :
    Nat → List UInt8 → Except PacketFault (List MdpMessage)
  | _, [] => .ok []
  | 0, _ :: _ => .error .endless
  | fuel + 1, rest@(_ :: _) => do
    let messageLength ← fetch (readUInt16 rest 0)
    let buffer ← fetch (bytesAt rest 2 (messageLength - 2).toNat)
    let _ ← MdpMessage.reset buffer
    let messages ← pickMessages dataLength packetSeqNum packetSendingTime fuel
      (rest.drop messageLength.toNat)
    return { packetLength := dataLength, packetSeqNum, packetSendingTime,
             messageLength := messageLength - 2, buffer } :: messages

/-- Split a packet into messages. -/
def pickMessagesFromPacket (buffer : List UInt8) :
    Except PacketFault (UInt32 × List MdpMessage) := do
  let packetSeqNum ← fetch (readUInt32 buffer 0)
  let packetSendingTime ← fetch (readUInt64 buffer 4)
  let messages ← pickMessages buffer.length packetSeqNum packetSendingTime buffer.length
    (buffer.drop (4 + 8))
  return (packetSeqNum, messages)

/-- `Make_message`: an encoded message behind its size, which counts its own two bytes. -/
def makeMessage (encoded : List UInt8) : List UInt8 := uint16Bytes (encoded.length + 2) ++ encoded

/-- `Make_packet`, with the time and the encoded messages that it draws. -/
def makePacket (packetSeqNum : UInt32) (time : UInt64) (messages : List (List UInt8)) :
    List UInt8 :=
  toBytes 4 packetSeqNum.toNat ++ (toBytes 8 time.toNat ++ messages.flatMap makeMessage)

end MessageUtility

/-- A packet that can be split, with what it is split into. -/
structure Packet where
  buffer : List UInt8
  seqNum : UInt32
  messages : List MdpMessage
  split : MessageUtility.pickMessagesFromPacket buffer = .ok (seqNum, messages)

/-- The packet in a buffer, if it can be split. -/
def Packet.ofBuffer? (buffer : List UInt8) : Option Packet :=
  match h : MessageUtility.pickMessagesFromPacket buffer with
  | .ok (seqNum, messages) => some ⟨buffer, seqNum, messages, h⟩
  | .error _ => none

end FixHandler.Cme
