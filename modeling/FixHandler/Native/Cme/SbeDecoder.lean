import Mathlib
import FixHandler.Native.Cme.Mktdata

/-!
# Decoding

`sbe_decoder.cc`: from the bytes of a message to its template and its root block. Both flyweights are
checked against the end of the buffer, and one that does not fit throws.
-/

namespace FixHandler.Cme

open Sbe Mktdata

/-- A body that is being read: its root block, and the position behind what is read. -/
structure SbeBody where
  root : View
  position : Nat

namespace SbeBody

/-- A loop over the entries of the group at the position -/
def group {α : Type} (d : Dimensions) (read : Accessor α) (b : SbeBody) :
    Except Fault (List α × SbeBody) := do
  let (g, position) ← d.wrapForDecode b.root.buffer b.position
  let (as, position) ←
    forEach b.root.buffer b.root.actingVersion g.blockLength read g.count position
  return (as, { b with position })

end SbeBody

namespace SBEDecoder

/-- The templates that have a class -/
def templates : List UInt16 :=
  [4, 12, 15, 16, 27, 29, 30, 32, 33, 34, 35, 36, 37, 38, 39, 41, 42, 43, 44]

/-- `Start_decode`: the template of a message, and its body if the template is known. -/
def startDecode (buffer : List UInt8) : Except Fault (UInt16 × Option SbeBody) := do
  let header : View := ⟨buffer, 0, 0⟩
  wrap 0 MessageHeader.encodedLength header
  let templateId ← MessageHeader.templateId.get header
  if templateId ∈ templates then
    let blockLength ← MessageHeader.blockLength.get header
    let version ← MessageHeader.version.get header
    let position := MessageHeader.encodedLength + blockLength.toNat
    if buffer.length < position then .error (.thrown "buffer too short [E100]")
    else
      let root : View := ⟨buffer, MessageHeader.encodedLength, version.toNat⟩
      return (templateId, some ⟨root, position⟩)
  else return (templateId, none)

end SBEDecoder

end FixHandler.Cme
