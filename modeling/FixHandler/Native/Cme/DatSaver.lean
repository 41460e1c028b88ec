import Mathlib
import FixHandler.Native.Cme.BookManager

/-!
# The live path

The processing in `dat_saver.cc`: recovery data and increments are converted by the
book manager, and forwarded to be stored.
-/

namespace FixHandler.Cme

open Cxx (OutOfRange)

structure DatSaver where
  bookManager : BookManager := {}
  recoveryFirstSeq : UInt32 := 0
  /-- the messages forwarded with `OnOrginalMessage` -/
  stored : List Message := []

namespace DatSaver

/-- `MdpMessage::Serialize` makes nothing of the messages that need not be stored. -/
def serializes (m : Message) : Bool := m.body != .admin

def sendMessage (s : DatSaver) (m : Message) : DatSaver :=
  if serializes m then { s with stored := s.stored ++ [m] } else s

/-- `MdpMessage::last_msg_seq_num_processed` of a recovery message -/
def lastMsgSeqNumProcessed? (m : Message) : Option UInt32 :=
  match m.body with
  | .snapshot lastMsgSeqNumProcessed _ _ => some lastMsgSeqNumProcessed
  | _ => none

/-- `Process_recovery_data` behind its loop -/
def processRecoveryData (s : DatSaver) (definitions recoveries : List Message) :
    Except OutOfRange DatSaver := do
  let bookManager := s.bookManager.setDefinitionData definitions
  let bookManager ← bookManager.setRecoveryData recoveries
  let recoveryFirstSeq := (recoveries.head?.bind lastMsgSeqNumProcessed?).getD s.recoveryFirstSeq
  let s := { s with bookManager, recoveryFirstSeq }
  return (definitions ++ recoveries).foldl sendMessage s

/-- `Convert_message`: whether the message is to be forwarded. -/
def convertMessage (s : DatSaver) (m : Message) : Except OutOfRange (Bool × DatSaver) := do
  if m.packetSeqNum ≤ s.recoveryFirstSeq then return (false, s)
  let bookManager ← s.bookManager.parseToSend m
  return (true, { s with bookManager })

/-- A turn of the loop in `Start_save` -/
def saveMessage (s : DatSaver) (m : Message) : Except OutOfRange DatSaver := do
  let (shouldSendNow, s) ← s.convertMessage m
  return if shouldSendNow then s.sendMessage m else s

/-- Recovery data, and then the increments in the order they are picked. -/
def run (definitions recoveries increments : List Message) : Except OutOfRange DatSaver := do
  let s ← processRecoveryData {} definitions recoveries
  increments.foldlM saveMessage s

end DatSaver

end FixHandler.Cme
