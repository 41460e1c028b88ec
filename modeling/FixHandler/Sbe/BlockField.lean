import Mathlib
import FixHandler.Sbe.Encoding

/-!
# Fields

A field is what a generated class says of it: where it lies, how it is read, and which bytes its setter
puts there. That the one gives back what the other has put is part of the field.

## Key results

- `BlockField.get_put`: a field of a block is read as it was written
-/

namespace Sbe

open Cxx (toBytes)

/-- A field of a block, with its place and its bytes -/
structure BlockField (α : Type) where
  place : Nat
  size : Nat
  /-- the version of the schema that brought the field -/
  sinceVersion : Nat := 0
  get : Accessor α
  bytes : α → List UInt8
  length_bytes : ∀ a, (bytes a).length = size
  within : Within get (place + size)
  get_eq : ∀ (block : List UInt8) (version : Nat) (a : α), sinceVersion ≤ version →
    Holds block place (bytes a) → get ⟨block, 0, version⟩ = .ok a

namespace BlockField

/-- What the setter writes -/
def put {α : Type} (f : BlockField α) (a : α) : Nat × List UInt8 := (f.place, f.bytes a)

section

variable {α : Type} (f : BlockField α) (a : α)

/-- A field is written at its place. -/
@[simp] theorem put_fst : (f.put a).1 = f.place := rfl

/-- A field is written with its size. -/
@[simp] theorem length_put : (f.put a).2.length = f.size := f.length_bytes a

/-- A field is read as it was written. -/
theorem get_put {block : List UInt8} {ws : Writes} {version : Nat} (h : HoldsAll block ws)
    (hmem : f.put a ∈ ws) (hversion : f.sinceVersion ≤ version) :
    f.get ⟨block, 0, version⟩ = .ok a :=
  f.get_eq block version a hversion (h _ hmem)

end

/-! ## Integers -/

section

variable {place : Nat}

/-- An unsigned field of one byte -/
def uint8 (place : Nat) : BlockField UInt8 where
  place
  size := 1
  get := Sbe.uint8 place
  bytes n := [n]
  length_bytes _ := rfl
  within := .uint8 (Nat.le_refl _)
  get_eq _ _ _ _ h := uint8_eq h

/-- An unsigned field of two bytes -/
def uint16 (place : Nat) : BlockField UInt16 where
  place
  size := 2
  get := Sbe.uint16 place
  bytes n := toBytes 2 n.toNat
  length_bytes _ := Cxx.length_toBytes 2 _
  within := .uint16 (Nat.le_refl _)
  get_eq _ _ _ _ h := uint16_eq h

/-- An unsigned field of four bytes -/
def uint32 (place : Nat) : BlockField UInt32 where
  place
  size := 4
  get := Sbe.uint32 place
  bytes n := toBytes 4 n.toNat
  length_bytes _ := Cxx.length_toBytes 4 _
  within := .uint32 (Nat.le_refl _)
  get_eq _ _ _ _ h := uint32_eq h

/-- An unsigned field of eight bytes -/
def uint64 (place : Nat) : BlockField UInt64 where
  place
  size := 8
  get := Sbe.uint64 place
  bytes n := toBytes 8 n.toNat
  length_bytes _ := Cxx.length_toBytes 8 _
  within := .uint64 (Nat.le_refl _)
  get_eq _ _ _ _ h := uint64_eq h

/-- A field whose value is converted, and converted back before it is written. -/
def convert {α β : Type} (f : BlockField α) (read : α → β) (write : β → α) (h : ∀ b, read (write b) = b) :
    BlockField β where
  place := f.place
  size := f.size
  sinceVersion := f.sinceVersion
  get := do return read (← f.get)
  bytes b := f.bytes (write b)
  length_bytes b := f.length_bytes (write b)
  within := f.within.map
  get_eq block version b hversion hb := by
    rw [bind_apply, f.get_eq block version (write b) hversion hb, Except.ok_bind, pure_apply, h]

/-- A signed field of one byte -/
def int8 (place : Nat) : BlockField Int8 :=
  (uint8 place).convert UInt8.toInt8 Int8.toUInt8 fun _ => rfl

/-- A signed field of two bytes -/
def int16 (place : Nat) : BlockField Int16 :=
  (uint16 place).convert UInt16.toInt16 Int16.toUInt16 fun _ => rfl

/-- A signed field of four bytes -/
def int32 (place : Nat) : BlockField Int32 :=
  (uint32 place).convert UInt32.toInt32 Int32.toUInt32 fun _ => rfl

/-- A signed field of eight bytes -/
def int64 (place : Nat) : BlockField Int64 :=
  (uint64 place).convert UInt64.toInt64 Int64.toUInt64 fun _ => rfl

end

/-! ## Other fields -/

/-- A byte whose values are those of an enumeration -/
def enumeration {α : Type} (place : Nat) (get : UInt8 → Accessor α) (value : α → UInt8)
    (h : ∀ a, get (value a) = pure a) (hget : ∀ v, Within (get v) (place + 1)) : BlockField α where
  place
  size := 1
  get := do get (← Sbe.uint8 place)
  bytes a := [value a]
  length_bytes _ := rfl
  within := (Within.uint8 (Nat.le_refl _)).bind hget
  get_eq block version a _ hb := by
    rw [bind_apply, uint8_eq hb, Except.ok_bind, h, pure_apply]

/-- A composite that is an integer: its flyweight is wrapped before it is read. -/
def composite {α : Type} (f : BlockField α) : BlockField α where
  place := f.place
  size := f.size
  sinceVersion := f.sinceVersion
  get := do
    wrap f.place f.size
    f.get
  bytes := f.bytes
  length_bytes := f.length_bytes
  within := (Within.wrap (Nat.le_refl _)).bind fun _ => f.within
  get_eq block version a hversion hb := by
    have hle := hb.le_length
    rw [f.length_bytes] at hle
    have hwrap : wrap f.place f.size ⟨block, 0, version⟩ = .ok () := if_neg (by dsimp only; omega)
    rw [bind_apply, hwrap, Except.ok_bind, f.get_eq block version a hversion hb]

/-- A field that came with a version of the schema, and is null before. -/
def since {α : Type} (version : Nat) (nullValue : α) (f : BlockField α) : BlockField α where
  place := f.place
  size := f.size
  sinceVersion := max version f.sinceVersion
  get := Sbe.since version nullValue f.get
  bytes := f.bytes
  length_bytes := f.length_bytes
  within := f.within.since
  get_eq block acting a hversion hb := by
    unfold Sbe.since
    rw [if_neg (by dsimp only; omega)]
    exact f.get_eq block acting a (by omega) hb

end BlockField

end Sbe
