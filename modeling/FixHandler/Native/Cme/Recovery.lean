import Mathlib
import FixHandler.ForStd.Guarded
import FixHandler.Native.Cme.CmeData

/-!
# Start-up from the recovery feeds

`DatSaver::Start_save` and `Process_recovery_data` with the receivers of the
definitions and of the snapshot, as `market_manager.cc` starts and stops them: the
definitions first, then the snapshot, each until its saver calls back. The saver
thread waits for the first increment, and then polls the recovery data.
-/

namespace FixHandler.Cme

/-- The recovery feed that is received. -/
inductive Feed where
  | definitions
  | recoveries
  | ended
deriving DecidableEq, Repr

/-- Where the thread of the saver is. -/
inductive Phase where
  /-- in `Get_first_data_seq` -/
  | starting
  /-- in the loop that waits for recovery data -/
  | waiting
  /-- behind the loop: the definitions are handed to the book manager next -/
  | handDefinitions
  /-- the recovery data are handed to the book manager next -/
  | handRecoveries
  /-- in the loop over the increments -/
  | saving
  /-- `Start_save` has returned -/
  | returned
deriving DecidableEq, Repr

/-- The recovery data, the feed that is received and the place of `Start_save` -/
structure Recovery where
  data : CmeData := {}
  feed : Feed := .definitions
  phase : Phase := .starting
  /-- what the book manager was given -/
  definitionDatas : Option (List MdpMessage) := none
  recoveryDatas : Option (List MdpMessage) := none

namespace Recovery

/-- What happens during a recovery -/
inductive Act where
  /-- an increment packet is inserted -/
  | insertIncrement (packet : Packet)
  /-- `Process_recovery_packet` of the definition saver -/
  | definitionPacket (buffer : List UInt8)
  /-- `Process_recovery_packet` of the recovery saver -/
  | recoveryPacket (buffer : List UInt8)
  /-- `Get_first_data_seq` returns -/
  | first
  /-- a turn of the loop in `Process_recovery_data` -/
  | poll
  | setDefinitionData
  | setRecoveryData

/-- A packet of the definition cycle -/
def definitionPacket (s : Recovery) (buffer : List UInt8) : Recovery :=
  match s.data.definitionSaver.processRecoveryPacket buffer with
  | .ok (called, saver) =>
    -- `On_definition_end` stops this receiver and starts the other
    { s with
      data := { s.data with definitionSaver := saver }
      feed := if called then .recoveries else s.feed }
  | .error _ => s

/-- A packet of the snapshot cycle -/
def recoveryPacket (s : Recovery) (buffer : List UInt8) : Recovery :=
  match s.data.recoverySaver.processRecoveryPacket buffer with
  | .ok (called, saver) =>
    -- `On_recovery_end` stops this receiver
    { s with
      data := { s.data with recoverySaver := saver }
      feed := if called then .ended else s.feed }
  | .error _ => s

/-- The branches of `Start_save` on the number of the first increment. -/
def first (s : Recovery) : Recovery :=
  match s.data.incrementFirstDataSeq with
  | none => s
  | some firstSeq =>
    { s with phase := if firstSeq == 1 then .saving else if firstSeq == 0 then .returned
        else .waiting }

/-- The loop ends as soon as there is any recovery data. -/
def poll (s : Recovery) : Recovery :=
  if s.data.recoverySaver.recoveryDatas.isEmpty then s else { s with phase := .handDefinitions }

/-- One step of one thread -/
def apply (s : Recovery) : Act → Recovery
  | .insertIncrement p => { s with data := s.data.insertIncrementData p.seqNum p.messages }
  | .definitionPacket buffer => s.definitionPacket buffer
  | .recoveryPacket buffer => s.recoveryPacket buffer
  | .first => s.first
  | .poll => s.poll
  | .setDefinitionData =>
    { s with
      definitionDatas := some s.data.definitionSaver.recoveryDatas, phase := .handRecoveries }
  | .setRecoveryData =>
    { s with recoveryDatas := some s.data.recoverySaver.recoveryDatas, phase := .saving }

/-- A packet is received while its feed is, and can be read. -/
def guard (s : Recovery) : Act → Prop
  | .insertIncrement _ => True
  | .definitionPacket buffer =>
    s.feed = .definitions ∧ (s.data.definitionSaver.processRecoveryPacket buffer).isOk
  | .recoveryPacket buffer =>
    s.feed = .recoveries ∧ (s.data.recoverySaver.processRecoveryPacket buffer).isOk
  | .first => s.phase = .starting ∧ s.data.incrementFirstDataSeq.isSome
  | .poll => s.phase = .waiting
  | .setDefinitionData => s.phase = .handDefinitions
  | .setRecoveryData => s.phase = .handRecoveries

instance (s : Recovery) : (a : Act) → Decidable (s.guard a)
  | .insertIncrement _ => inferInstanceAs (Decidable True)
  | .definitionPacket _ | .recoveryPacket _ | .first => inferInstanceAs (Decidable (_ = _ ∧ _ = _))
  | .poll | .setDefinitionData | .setRecoveryData => inferInstanceAs (Decidable (_ = _))

/-- The interleavings of the receivers and the saver. -/
def machine : Guarded Recovery Act where
  guard := guard
  apply := apply

instance (s : Recovery) (a : Act) : Decidable (machine.guard s a) :=
  inferInstanceAs (Decidable (s.guard a))

end Recovery

end FixHandler.Cme
