import Mathlib
import FixHandler.Sbe.Flyweight

/-!
# Repeating groups

A group is a header with the length of a block and the number of blocks, and the blocks behind it.
The position in the message moves over what is read: the groups of a message lie one behind the
other, and each is found where the one before it ends.

## Key results

- `Dimensions.wrapForDecode_append`: a header is read wherever it lies
- `forEach_append`: each block is read on its own, whatever the later versions of the schema have
  added at its end
- `forEach_inside`: no read leaves the buffer, and each block is read once
-/

namespace Sbe

open Cxx (bytesAt ofBytes toBytes)

/-- The layout of a group's header: the length of a block is first. -/
structure Dimensions where
  encodedLength : Nat
  /-- where the number of blocks is -/
  numInGroup : Nat
  blockLength_before : 2 ≤ numInGroup
  numInGroup_inside : numInGroup + 1 ≤ encodedLength

/-- The size of a block and the number of blocks -/
structure Group where
  blockLength : Nat
  count : Nat

namespace Dimensions

/-- A group is found at the position of its message, which then moves behind the header. -/
def wrapForDecode (d : Dimensions) (buffer : List UInt8) (position : Nat) :
    Except Fault (Group × Nat) := do
  let dimensions : View := ⟨buffer, position, 0⟩
  wrap 0 d.encodedLength dimensions
  let blockLength ← uint16 0 dimensions
  let count ← uint8 d.numInGroup dimensions
  return (⟨blockLength.toNat, count.toNat⟩, position + d.encodedLength)

/-- The bytes are the header of a group. -/
structure IsHeader (d : Dimensions) (header : List UInt8) (g : Group) : Prop where
  length_eq : header.length = d.encodedLength
  blockLength_lt : g.blockLength < 65536
  count_lt : g.count < 256
  blockLength : Holds header 0 (toBytes 2 g.blockLength)
  count : Holds header d.numInGroup [.ofNat g.count]

end Dimensions

/-- `next`: the position moves behind the block. -/
def next (buffer : List UInt8) (blockLength position : Nat) : Except Fault Nat :=
  if buffer.length < position + blockLength then
    .error (.thrown "buffer too short to support next group index [E108]")
  else .ok (position + blockLength)

/-- A loop over the blocks of a group: what is read of each of them, and the position behind the
    last one. -/
def forEach {α : Type} (buffer : List UInt8) (actingVersion blockLength : Nat) (read : Accessor α) :
    Nat → Nat → Except Fault (List α × Nat)
  | 0, position => .ok ([], position)
  | count + 1, position => do
    let behind ← next buffer blockLength position
    let a ← read ⟨buffer, position, actingVersion⟩
    let (as, position) ← forEach buffer actingVersion blockLength read count behind
    return (a :: as, position)

variable {α β : Type} {d : Dimensions} {g : Group} {r : Accessor α}
variable {buffer : List UInt8} {version size blockLength : Nat}

/-! ## Where a group lies -/

/-- The header of a group is read back. -/
theorem Dimensions.wrapForDecode_append {header : List UInt8} (h : d.IsHeader header g)
    (before after : List UInt8) :
    d.wrapForDecode (before ++ (header ++ after)) before.length =
      .ok (g, before.length + d.encodedLength) := by
  have hbefore := d.blockLength_before
  have hinside := d.numInGroup_inside
  have hlen := h.length_eq
  have hblock : (uint16 0 ⟨before ++ (header ++ after), before.length, 0⟩ : Except Fault UInt16) =
      .ok (.ofNat g.blockLength) := by
    rw [(Within.uint16 (Nat.le_refl 2)).run_eq _ _ _ _ (by omega)]
    refine uint16_eq ?_
    rw [UInt16.toNat_ofNat_of_lt' h.blockLength_lt]
    exact h.blockLength
  have hcount : (uint8 d.numInGroup ⟨before ++ (header ++ after), before.length, 0⟩ :
      Except Fault UInt8) = .ok (.ofNat g.count) := by
    rw [(Within.uint8 (Nat.le_refl _)).run_eq _ _ _ _ (by omega)]
    exact uint8_eq h.count
  have hwrap : wrap 0 d.encodedLength ⟨before ++ (header ++ after), before.length, 0⟩ = .ok () :=
    if_neg (by simp; omega)
  unfold wrapForDecode
  simp only [hwrap, hblock, hcount, Except.ok_bind, UInt16.toNat_ofNat_of_lt' h.blockLength_lt,
    UInt8.toNat_ofNat_of_lt' h.count_lt]
  rfl

/-- A block that is there can be entered. -/
theorem next_append (before block after : List UInt8) :
    next (before ++ (block ++ after)) block.length before.length =
      .ok (before.length + block.length) :=
  if_neg (by simp)

/-- Each block is read on its own. -/
theorem forEach_append (hr : Within r size) (hsize : size ≤ blockLength) {blocks : List (List UInt8)}
    (hblocks : ∀ b ∈ blocks, b.length = blockLength) (version : Nat) (before after : List UInt8) :
    forEach (before ++ (blocks.flatten ++ after)) version blockLength r blocks.length before.length =
      (do
        let as ← blocks.mapM fun b => r ⟨b, 0, version⟩
        return (as, before.length + blocks.flatten.length)) := by
  induction blocks generalizing before with
  | nil => rfl
  | cons b blocks ih =>
    have hb : b.length = blockLength := hblocks b List.mem_cons_self
    have hnext := next_append before b (blocks.flatten ++ after)
    rw [hb] at hnext
    have hread := hr.run_eq before b (blocks.flatten ++ after) version (by omega)
    -- the rest is read behind this block
    have hrest := ih (fun b hb => hblocks b (List.mem_cons_of_mem _ hb)) (before ++ b)
    rw [List.length_append, List.append_assoc, hb] at hrest
    rw [List.length_cons, forEach, List.flatten_cons, List.append_assoc, hnext, Except.ok_bind, hread,
      List.mapM_cons]
    cases r ⟨b, 0, version⟩ with
    | error e => rfl
    | ok a =>
      rw [Except.ok_bind, Except.ok_bind, hrest]
      cases blocks.mapM fun b => r ⟨b, 0, version⟩ with
      | error e => rfl
      | ok as => simp [hb, Nat.add_assoc]

/-- The bytes are a group with these blocks. -/
def Dimensions.IsGroup (d : Dimensions) (blockLength : Nat) (blocks : List (List UInt8))
    (group : List UInt8) : Prop :=
  ∃ header, group = header ++ blocks.flatten ∧ d.IsHeader header ⟨blockLength, blocks.length⟩ ∧
    ∀ b ∈ blocks, b.length = blockLength

/-! ## Reads inside the buffer -/

/-- A place that was checked lies within the buffer. -/
theorem wrap_inside {v : View} (place count : Nat) :
    Inside (wrap place count v) fun _ => v.offset + place + count ≤ v.buffer.length := by
  unfold wrap
  split
  · exact .thrown _
  · next hlt => exact .ok (Nat.le_of_not_lt hlt)

/-- What the wrapper has checked is enough for both of the reads. -/
theorem Dimensions.wrapForDecode_inside (position : Nat) :
    Inside (d.wrapForDecode buffer position) fun r => r.2 = position + d.encodedLength := by
  have hbefore := d.blockLength_before
  have hinside := d.numInGroup_inside
  refine (wrap_inside 0 d.encodedLength).bind fun _ _ hlen => ?_
  dsimp only at hlen
  refine ((Within.uint16 (Nat.le_refl 2)).insideOf (by dsimp only; omega)).bind fun _ _ _ => ?_
  refine ((Within.uint8 (Nat.le_refl _)).insideOf (by dsimp only; omega)).bind fun _ _ _ => ?_
  exact .ok rfl

/-- A block that was entered lies within the buffer. -/
theorem next_inside (position : Nat) :
    Inside (next buffer blockLength position) fun behind =>
      position + blockLength ≤ buffer.length ∧ behind = position + blockLength := by
  unfold next
  split
  · exact .thrown _
  · next hlt => exact .ok ⟨Nat.le_of_not_lt hlt, rfl⟩

/-- No block is read that is not in the buffer, and as many are read as the header says. -/
theorem forEach_inside (hr : Within r size) (hsize : size ≤ blockLength) (count position : Nat) :
    Inside (forEach buffer version blockLength r count position) fun read =>
      read.1.length = count ∧ read.2 = position + count * blockLength := by
  induction count generalizing position with
  | zero => exact .ok ⟨rfl, by simp⟩
  | succ count ih =>
    refine (next_inside position).bind fun behind _ hnext => ?_
    refine (hr.insideOf (by dsimp only; omega)).bind fun a _ _ => ?_
    refine (ih behind).bind fun rest _ hrest => .ok ?_
    constructor
    · rw [List.length_cons, hrest.1]
    · rw [hrest.2, hnext.2, Nat.succ_mul]
      omega

end Sbe
