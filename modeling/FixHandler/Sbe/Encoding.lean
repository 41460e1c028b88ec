import Mathlib
import FixHandler.Sbe.Group

/-!
# Encoding into a buffer

The setters of a flyweight write at fixed places of a buffer that is there already. Behind the last
write the buffer is what the reader of `Group` expects: a header, and one block after the other, each
holding what was written to it. The bytes that no setter writes keep what the buffer held.

## Key results

- `putAll_append`: the writes of a block change the block alone, and all of them can be read
- `putGroup_append`: what a group looks like when it is written
-/

namespace Sbe

open Cxx (bytesAt ofBytes toBytes)

/-- What a chain of setters writes: the places in the flyweight, and the bytes. -/
abbrev Writes := List (Nat × List UInt8)

/-- Write bytes within the buffer -/
def put (buffer : List UInt8) (position : Nat) (bs : List UInt8) : Except Fault (List UInt8) :=
  if position + bs.length ≤ buffer.length then
    .ok (buffer.take position ++ (bs ++ buffer.drop (position + bs.length)))
  else .error .outside

/-- Write several fields of one block -/
def putAll (offset : Nat) : Writes → List UInt8 → Except Fault (List UInt8)
  | [], buffer => .ok buffer
  | (place, bs) :: ws, buffer => do
    let buffer ← put buffer (offset + place) bs
    putAll offset ws buffer

/-- The header of a group; the position moves behind it. -/
def Dimensions.wrapForEncode (d : Dimensions) (blockLength count : Nat) (buffer : List UInt8)
    (position : Nat) : Except Fault (List UInt8 × Nat) :=
  if 254 < count then .error (.thrown "count outside of allowed range [E110]")
  else do
    wrap 0 d.encodedLength ⟨buffer, position, 0⟩
    let buffer ←
      putAll position [(0, toBytes 2 blockLength), (d.numInGroup, [.ofNat count])] buffer
    return (buffer, position + d.encodedLength)

/-- A loop over the blocks of a group: each is written behind the one before. -/
def putEach {α : Type} (blockLength : Nat) (writes : α → Writes) :
    List α → List UInt8 → Nat → Except Fault (List UInt8 × Nat)
  | [], buffer, position => .ok (buffer, position)
  | a :: as, buffer, position => do
    let behind ← next buffer blockLength position
    let buffer ← putAll position (writes a) buffer
    putEach blockLength writes as buffer behind

/-- A group with a block for each of a list. The number of blocks is kept in one byte. -/
def putGroup {α : Type} (d : Dimensions) (blockLength : Nat) (writes : α → Writes) (as : List α)
    (buffer : List UInt8) (position : Nat) : Except Fault (List UInt8 × Nat) := do
  let count := as.length % 256
  let (buffer, position) ← d.wrapForEncode blockLength count buffer position
  putEach blockLength writes (as.take count) buffer position

/-! ## Writing to a block -/

/-- Two writes do not touch each other. -/
def Apart (w w' : Nat × List UInt8) : Prop :=
  w.1 + w.2.length ≤ w'.1 ∨ w'.1 + w'.2.length ≤ w.1

/-- The writes stay in a block of a size, and no two of them overlap. -/
structure Fits (ws : Writes) (size : Nat) : Prop where
  inside : ∀ w ∈ ws, w.1 + w.2.length ≤ size
  apart : ws.Pairwise Apart

/-- Whether writes fit does not depend on what they write. -/
theorem fits_of_extents {ws : Writes} {size : Nat} (extents : List (Nat × Nat))
    (h : (ws.map fun w => (w.1, w.2.length)) = extents) (hinside : ∀ e ∈ extents, e.1 + e.2 ≤ size)
    (hapart : extents.Pairwise fun e e' => e.1 + e.2 ≤ e'.1 ∨ e'.1 + e'.2 ≤ e.1) : Fits ws size := by
  subst h
  constructor
  · intro w hw
    exact hinside (w.1, w.2.length) (List.mem_map_of_mem hw)
  · rw [List.pairwise_map] at hapart
    exact hapart

/-- All the writes can be read. -/
def HoldsAll (block : List UInt8) (ws : Writes) : Prop := ∀ w ∈ ws, Holds block w.1 w.2

instance (block : List UInt8) (ws : Writes) : Decidable (HoldsAll block ws) :=
  inferInstanceAs (Decidable (∀ w ∈ ws, Holds block w.1 w.2))

/-- The block behind a write -/
def patch (block : List UInt8) (place : Nat) (bs : List UInt8) : List UInt8 :=
  block.take place ++ (bs ++ block.drop (place + bs.length))

section

variable {block bs : List UInt8} {place : Nat}

/-- A patch keeps the length. -/
theorem length_patch (h : place + bs.length ≤ block.length) :
    (patch block place bs).length = block.length := by
  simp [patch]
  omega

/-- What was patched in is held. -/
theorem holds_patch (h : place + bs.length ≤ block.length) : Holds (patch block place bs) place bs := by
  have hat := Cxx.bytesAt_append (block.take place) bs (block.drop (place + bs.length))
  rwa [List.length_take, Nat.min_eq_left (by omega)] at hat

/-- A write that does not touch a field leaves it as it is. -/
theorem Holds.patch {w : Nat × List UInt8} (h : Holds block w.1 w.2)
    (hapart : Apart (place, bs) w) (hlen : place + bs.length ≤ block.length) :
    Holds (patch block place bs) w.1 w.2 := by
  have hle := h.le_length
  unfold Holds bytesAt at h ⊢
  rw [if_pos hle] at h
  rw [if_pos (by rw [length_patch hlen]; exact hle), Option.some.injEq]
  rw [Option.some.injEq] at h
  unfold Sbe.patch
  rcases hapart with hbefore | hbehind
  · -- the field lies behind the write
    dsimp only at hbefore
    rw [List.drop_append, List.drop_of_length_le (by simp; omega), List.nil_append,
      List.drop_append, List.drop_of_length_le (by simp; omega), List.nil_append, List.drop_drop,
      List.length_take, Nat.min_eq_left (by omega)]
    rw [show place + bs.length + (w.1 - place - bs.length) = w.1 by omega]
    exact h
  · -- the field lies before the write
    dsimp only at hbehind
    rw [List.drop_append_of_le_length (by simp; omega), List.drop_take,
      List.take_append_of_le_length (by simp; omega), List.take_take, Nat.min_eq_left (by omega)]
    exact h

/-- A write within a block leaves what is around it. -/
theorem put_append (h : place + bs.length ≤ block.length) (before after : List UInt8) :
    put (before ++ (block ++ after)) (before.length + place) bs =
      .ok (before ++ (patch block place bs ++ after)) := by
  unfold put patch
  rw [if_pos (by simp; omega), List.take_append, List.take_of_length_le (by omega),
    Nat.add_sub_cancel_left, List.take_append_of_le_length (by omega),
    Nat.add_assoc, List.drop_append, List.drop_of_length_le (by omega), List.nil_append,
    Nat.add_sub_cancel_left, List.drop_append_of_le_length (by omega)]
  simp only [List.append_assoc]

end

/-- The writes of a block change the block alone, and all of them can be read. -/
theorem putAll_append {ws : Writes} {size : Nat} (h : Fits ws size) {block : List UInt8}
    (hblock : block.length = size) (before after : List UInt8) :
    ∃ written, putAll before.length ws (before ++ (block ++ after)) =
        .ok (before ++ (written ++ after)) ∧
      written.length = size ∧ HoldsAll written ws := by
  -- what was held before and is not overwritten is still held
  suffices hkeep : ∀ (ws : Writes) (block : List UInt8), Fits ws size → block.length = size →
      ∃ written, putAll before.length ws (before ++ (block ++ after)) =
          .ok (before ++ (written ++ after)) ∧
        written.length = size ∧ HoldsAll written ws ∧
        ∀ w : Nat × List UInt8, Holds block w.1 w.2 → (∀ w' ∈ ws, Apart w' w) →
          Holds written w.1 w.2 by
    obtain ⟨written, hput, hlen, hall, -⟩ := hkeep ws block h hblock
    exact ⟨written, hput, hlen, hall⟩
  intro ws
  induction ws with
  | nil =>
    intro block _ hblock
    exact ⟨block, rfl, hblock, fun w hw => absurd hw List.not_mem_nil, fun w hw _ => hw⟩
  | cons w ws ih =>
    intro block hfits hblock
    obtain ⟨place, bs⟩ := w
    have hplace : place + bs.length ≤ block.length := by
      rw [hblock]
      exact hfits.inside _ List.mem_cons_self
    have hapart := List.pairwise_cons.mp hfits.apart
    obtain ⟨written, hput, hlen, hall, hkeep⟩ := ih (patch block place bs)
      ⟨fun w hw => hfits.inside w (List.mem_cons_of_mem _ hw), hapart.2⟩
      (by rw [length_patch hplace, hblock])
    refine ⟨written, ?_, hlen, ?_, ?_⟩
    · rw [putAll, put_append hplace, Except.ok_bind, hput]
    · intro w' hw'
      cases List.mem_cons.mp hw' with
      | inl heq =>
        subst heq
        -- the writes that follow are apart from this one
        refine hkeep (place, bs) (holds_patch hplace) fun w' hw' => ?_
        exact (hapart.1 w' hw').symm
      | inr hmem => exact hall w' hmem
    · intro w' hw' hothers
      refine hkeep w' (hw'.patch (hothers _ List.mem_cons_self) hplace) fun w'' hw'' => ?_
      exact hothers w'' (List.mem_cons_of_mem _ hw'')

/-! ## Writing a group -/

variable {α : Type} {d : Dimensions} {blockLength : Nat} {writes : α → Writes}

/-- What is in a block behind its writes -/
def IsBlock (blockLength : Nat) (writes : α → Writes) (a : α) (block : List UInt8) : Prop :=
  block.length = blockLength ∧ HoldsAll block (writes a)

/-- A header is written in front of the room for its group. -/
theorem Dimensions.wrapForEncode_append {count : Nat} (hcount : count ≤ 254)
    (hblock : blockLength < 65536) (room : List UInt8) (hroom : d.encodedLength ≤ room.length)
    (before : List UInt8) :
    ∃ header, d.wrapForEncode blockLength count (before ++ room) before.length =
        .ok (before ++ (header ++ room.drop d.encodedLength), before.length + d.encodedLength) ∧
      d.IsHeader header ⟨blockLength, count⟩ := by
  have hbefore := d.blockLength_before
  have hinside := d.numInGroup_inside
  have hfits : Fits [(0, toBytes 2 blockLength), (d.numInGroup, [UInt8.ofNat count])]
      d.encodedLength := by
    constructor
    · simp
      omega
    · simp [Apart]
      omega
  have hlen : (room.take d.encodedLength).length = d.encodedLength := by
    simp
    omega
  obtain ⟨header, hput, hheader, hall⟩ :=
    putAll_append hfits hlen before (room.drop d.encodedLength)
  rw [List.take_append_drop] at hput
  have hwrap : wrap 0 d.encodedLength ⟨before ++ room, before.length, 0⟩ = .ok () :=
    if_neg (by simp; omega)
  refine ⟨header, ?_, ?_⟩
  · unfold wrapForEncode
    rw [if_neg (by omega), hwrap, Except.ok_bind, hput, Except.ok_bind]
    rfl
  · exact ⟨hheader, hblock, by dsimp only; omega,
      hall _ List.mem_cons_self, hall _ (List.mem_cons_of_mem _ List.mem_cons_self)⟩

/-- The blocks of a group are written one behind the other. -/
theorem putEach_append {as : List α} (hfits : ∀ a ∈ as, Fits (writes a) blockLength)
    (room : List UInt8) (hroom : as.length * blockLength ≤ room.length) (before : List UInt8) :
    ∃ blocks after, putEach blockLength writes as (before ++ room) before.length =
        .ok (before ++ (blocks.flatten ++ after), before.length + as.length * blockLength) ∧
      List.Forall₂ (IsBlock blockLength writes) as blocks ∧
      after = room.drop (as.length * blockLength) := by
  induction as generalizing before room with
  | nil => exact ⟨[], room, by simp [putEach], .nil, by simp⟩
  | cons a as ih =>
    rw [List.length_cons, Nat.succ_mul] at hroom
    have hlen : (room.take blockLength).length = blockLength := by
      simp
      omega
    have hnext := next_append before (room.take blockLength) (room.drop blockLength)
    rw [List.take_append_drop, hlen] at hnext
    obtain ⟨block, hput, hblock, hall⟩ := putAll_append (hfits a List.mem_cons_self) hlen before
      (room.drop blockLength)
    rw [List.take_append_drop] at hput
    -- the rest is written behind this block
    obtain ⟨blocks, after, hrest, hblocks, hafter⟩ :=
      ih (fun a ha => hfits a (List.mem_cons_of_mem _ ha)) (room.drop blockLength)
        (by simp; omega) (before ++ block)
    rw [List.append_assoc, List.length_append, hblock] at hrest
    refine ⟨block :: blocks, after, ?_, .cons ⟨hblock, hall⟩ hblocks, ?_⟩
    · rw [putEach, hnext, Except.ok_bind, hput, Except.ok_bind, hrest, List.flatten_cons,
        List.append_assoc, List.append_assoc, List.length_cons, Nat.succ_mul]
      congr 2
      omega
    · rw [hafter, List.drop_drop, List.length_cons, Nat.succ_mul]
      congr 1
      omega

/-- What a group looks like when it is written. -/
theorem putGroup_append {as : List α} (hfits : ∀ a ∈ as, Fits (writes a) blockLength)
    (hcount : as.length ≤ 254) (hblock : blockLength < 65536) {room : List UInt8}
    (hroom : d.encodedLength + as.length * blockLength ≤ room.length) (before : List UInt8) :
    ∃ header blocks after, putGroup d blockLength writes as (before ++ room) before.length =
        .ok (before ++ (header ++ (blocks.flatten ++ after)),
          before.length + d.encodedLength + as.length * blockLength) ∧
      d.IsHeader header ⟨blockLength, as.length⟩ ∧
      List.Forall₂ (IsBlock blockLength writes) as blocks ∧
      after.length = room.length - d.encodedLength - as.length * blockLength := by
  obtain ⟨header, hwrap, hheader⟩ := Dimensions.wrapForEncode_append (d := d) hcount hblock
    room (by omega) before
  obtain ⟨blocks, after, hput, hblocks, hafter⟩ := putEach_append hfits
    (room.drop d.encodedLength) (by simp; omega) (before ++ header)
  rw [List.append_assoc, List.append_assoc, List.length_append, hheader.length_eq] at hput
  refine ⟨header, blocks, after, ?_, hheader, hblocks, ?_⟩
  · unfold putGroup
    dsimp only
    rw [Nat.mod_eq_of_lt (by omega), hwrap, Except.ok_bind]
    dsimp only
    rw [List.take_length, hput]
  · rw [hafter]
    simp
    omega

end Sbe
