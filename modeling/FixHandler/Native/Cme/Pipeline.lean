import Mathlib
import FixHandler.Native.Cme.DatProcessor
import FixHandler.Native.Cme.DatSaver
import FixHandler.Native.Cme.MessageParser

/-!
# From a picked message to the listener

The messages that the loop of `DatSaver::Start_save` picks are those of the shared data: they are parsed
by the book manager when they are converted.
-/

namespace FixHandler.Cme

namespace DatSaver

/-- What ends the loop -/
inductive Fault where
  | sbe (fault : Sbe.Fault)
  | outOfRange
deriving DecidableEq, Repr

/-- A turn of the loop with the message that was picked -/
def saveMdpMessage (s : DatSaver) (m : MdpMessage) : Except Fault DatSaver := do
  let message ← m.parse.mapError .sbe
  (s.saveMessage message).mapError fun _ => .outOfRange

def saveMdpMessages (s : DatSaver) (messages : List MdpMessage) : Except Fault DatSaver :=
  messages.foldlM saveMdpMessage s

end DatSaver

end FixHandler.Cme
