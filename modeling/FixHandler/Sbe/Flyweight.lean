import Mathlib
import FixHandler.Cxx.Bytes
import FixHandler.ForStd.Except

/-!
# Flyweights

Simple binary encoding, as its generated classes do it. A flyweight is a place in a buffer, and its
accessors read the integers and the texts at fixed places behind it. An accessor does not look where
the buffer ends; the checks that there are throw.

## Key results

- `Within.bind`: what is built from accessors of a block is an accessor of the block
- `Within.run_eq`: an accessor of a block reads the block, wherever it lies
- `Within.ne_outside`: and never reads behind it
- `Inside.bind`: reads inside the buffer compose
-/

namespace Sbe

open Cxx (bytesAt ofBytes toBytes)

/-- What goes wrong in a flyweight. -/
inductive Fault where
  /-- a `std::runtime_error` -/
  | thrown (what : String)
  /-- something outside the buffer is read or written -/
  | outside
deriving DecidableEq, Repr

/-- Where a flyweight lies, and the version of the schema that the sender used. -/
structure View where
  buffer : List UInt8
  offset : Nat
  actingVersion : Nat

/-- A read of a view, which may fail -/
abbrev Accessor (α : Type) := ReaderT View (Except Fault) α

/-! ## Accessors -/

/-- The `size` bytes at a place of the flyweight -/
def bytes (place size : Nat) : Accessor (List UInt8) := fun v =>
  match bytesAt v.buffer (v.offset + place) size with
  | some bs => .ok bs
  | none => .error .outside

/-- An unsigned number of one byte -/
def uint8 (place : Nat) : Accessor UInt8 := do return .ofNat (ofBytes (← bytes place 1))

/-- An unsigned number of two bytes -/
def uint16 (place : Nat) : Accessor UInt16 := do return .ofNat (ofBytes (← bytes place 2))

/-- An unsigned number of four bytes -/
def uint32 (place : Nat) : Accessor UInt32 := do return .ofNat (ofBytes (← bytes place 4))

/-- An unsigned number of eight bytes -/
def uint64 (place : Nat) : Accessor UInt64 := do return .ofNat (ofBytes (← bytes place 8))

/-- A signed number of one byte -/
def int8 (place : Nat) : Accessor Int8 := do return (← uint8 place).toInt8

/-- A signed number of two bytes -/
def int16 (place : Nat) : Accessor Int16 := do return (← uint16 place).toInt16

/-- A signed number of four bytes -/
def int32 (place : Nat) : Accessor Int32 := do return (← uint32 place).toInt32

/-- A signed number of eight bytes -/
def int64 (place : Nat) : Accessor Int64 := do return (← uint64 place).toInt64

/-- An exception of the generated code -/
def throw {α : Type} (what : String) : Accessor α := fun _ => .error (.thrown what)

/-- A value of an enumeration is one of those that it lists. -/
def enumeration (name : String) (values : List UInt8) (value : UInt8) : Accessor UInt8 :=
  if value ∈ values then pure value else throw s!"unknown value for enum {name} [E103]"

/-- A composite is wrapped where it lies in the flyweight. -/
def wrap (place size : Nat) : Accessor Unit := fun v =>
  if v.buffer.length < v.offset + place + size then
    .error (.thrown "buffer too short for flyweight [E107]")
  else .ok ()

/-- A field is null in the versions before the one that brought it. -/
def since {α : Type} (version : Nat) (nullValue : α) (r : Accessor α) : Accessor α := fun v =>
  if v.actingVersion < version then .ok nullValue else r v

variable {α β : Type} {v : View}

/-- Two reads of the same view -/
theorem bind_apply (r : Accessor α) (f : α → Accessor β) :
    (r >>= f) v = (r v >>= fun a => f a v) := rfl

/-- A value without a read -/
theorem pure_apply (a : α) : (pure a : Accessor α) v = .ok a := rfl

/-! ## Reads inside the buffer -/

/-- Nothing outside the buffer is read, and what is returned has a property. -/
def Inside (x : Except Fault α) (P : α → Prop) : Prop :=
  x ≠ .error .outside ∧ ∀ a, x = .ok a → P a

namespace Inside

variable {x : Except Fault α} {f : α → Except Fault β} {P P' : α → Prop} {Q : β → Prop}

/-- A value is no read outside. -/
theorem ok {a : α} (h : P a) : Inside (.ok a) P := by
  constructor
  · intro h
    cases h
  · intro b hb
    cases hb
    exact h

/-- An exception is no read outside. -/
theorem thrown (what : String) : Inside (.error (.thrown what)) P := by
  constructor
  · intro h
    cases h
  · intro b hb
    cases hb

/-- A weaker fact about the value -/
theorem mono (h : Inside x P) (hP : ∀ a, P a → P' a) : Inside x P' :=
  ⟨h.1, fun a ha => hP a (h.2 a ha)⟩

/-- What is read first is what the rest goes on from. -/
theorem bind (hx : Inside x P) (hf : ∀ a, x = .ok a → P a → Inside (f a) Q) : Inside (x >>= f) Q := by
  cases x with
  | error e =>
    constructor
    · intro h
      have he : e = .outside := Except.error.inj h
      exact hx.1 (congrArg Except.error he)
    · intro b hb
      cases hb
  | ok a => exact hf a rfl (hx.2 a rfl)

end Inside

/-! ## Accessors of a block -/

/-- An accessor stays within the first `size` bytes of its flyweight. -/
structure Within (r : Accessor α) (size : Nat) : Prop where
  /-- What is around a block does not matter. -/
  run_eq : ∀ (before block after : List UInt8) (version : Nat), size ≤ block.length →
    r ⟨before ++ (block ++ after), before.length, version⟩ = r ⟨block, 0, version⟩
  inside : ∀ (block : List UInt8) (version : Nat), size ≤ block.length →
    r ⟨block, 0, version⟩ ≠ .error .outside

namespace Within

variable {r : Accessor α} {f : α → Accessor β} {size : Nat}

/-- No read at all -/
theorem pure (a : α) : Within (Pure.pure a) size where
  run_eq _ _ _ _ _ := rfl
  inside _ _ _ h := by cases h

/-- An exception reads nothing. -/
theorem throw (what : String) : Within (Sbe.throw (α := α) what) size where
  run_eq _ _ _ _ _ := rfl
  inside _ _ _ h := by cases h

theorem bind (hr : Within r size) (hf : ∀ a, Within (f a) size) : Within (r >>= f) size where
  run_eq before block after version hsize := by
    rw [bind_apply, bind_apply, hr.run_eq before block after version hsize]
    cases r ⟨block, 0, version⟩ with
    | error e => rfl
    | ok a => exact (hf a).run_eq before block after version hsize
  inside block version hsize h := by
    rw [bind_apply, Except.bind_eq_error] at h
    cases h with
    | inl h => exact hr.inside block version hsize h
    | inr h =>
      obtain ⟨a, -, h⟩ := h
      exact (hf a).inside block version hsize h

/-- What is made of a value that was read -/
theorem map {g : α → β} (hr : Within r size) : Within (do return g (← r)) size :=
  hr.bind fun _ => .pure _

/-- A greater block -/
theorem mono {size' : Nat} (hr : Within r size) (hle : size ≤ size') : Within r size' where
  run_eq before block after version hsize :=
    hr.run_eq before block after version (Nat.le_trans hle hsize)
  inside block version hsize := hr.inside block version (Nat.le_trans hle hsize)

/-- An accessor of a block reads inside the buffer. -/
theorem ne_outside (hr : Within r size) (hv : v.offset + size ≤ v.buffer.length) :
    r v ≠ .error .outside := by
  obtain ⟨buffer, offset, version⟩ := v
  dsimp only at hv
  have hsplit : buffer = buffer.take offset ++ (buffer.drop offset ++ []) := by simp
  have hlen : (buffer.take offset).length = offset := by simp; omega
  have hrun := hr.run_eq (buffer.take offset) (buffer.drop offset) [] version (by simp; omega)
  rw [← hsplit, hlen] at hrun
  rw [hrun]
  exact hr.inside _ version (by simp; omega)

/-- A read within the block does not leave a buffer that has it. -/
theorem insideOf (hr : Within r size) (hv : v.offset + size ≤ v.buffer.length) :
    Inside (r v) fun _ => True := ⟨hr.ne_outside hv, fun _ _ => trivial⟩

/-- Bytes that lie within the block -/
theorem bytes {place count : Nat} (h : place + count ≤ size) :
    Within (Sbe.bytes place count) size where
  run_eq before block after version hsize := by
    have hat : bytesAt (before ++ (block ++ after)) (before.length + place) count =
        bytesAt block (0 + place) count := by
      unfold bytesAt
      rw [if_pos (by simp; omega), if_pos (by omega), List.drop_append, Nat.zero_add,
        List.drop_of_length_le (by omega), Nat.add_sub_cancel_left, List.nil_append,
        List.drop_append_of_le_length (by omega), List.take_append_of_le_length (by simp; omega)]
    unfold Sbe.bytes
    rw [hat]
  inside block version hsize h := by
    unfold Sbe.bytes bytesAt at h
    rw [if_pos (by dsimp only; omega)] at h
    cases h

variable {place : Nat}

theorem uint8 (h : place + 1 ≤ size) : Within (Sbe.uint8 place) size := (bytes h).map

theorem uint16 (h : place + 2 ≤ size) : Within (Sbe.uint16 place) size := (bytes h).map

theorem uint32 (h : place + 4 ≤ size) : Within (Sbe.uint32 place) size := (bytes h).map

theorem uint64 (h : place + 8 ≤ size) : Within (Sbe.uint64 place) size := (bytes h).map

theorem int8 (h : place + 1 ≤ size) : Within (Sbe.int8 place) size := (uint8 h).map

theorem int16 (h : place + 2 ≤ size) : Within (Sbe.int16 place) size := (uint16 h).map

theorem int32 (h : place + 4 ≤ size) : Within (Sbe.int32 place) size := (uint32 h).map

theorem int64 (h : place + 8 ≤ size) : Within (Sbe.int64 place) size := (uint64 h).map

/-- The check of a value reads nothing. -/
theorem enumeration {name : String} {values : List UInt8} {value : UInt8} :
    Within (Sbe.enumeration name values value) size := by
  unfold Sbe.enumeration
  split
  · exact .pure value
  · exact .throw _

/-- The check of a place reads nothing. -/
theorem wrap {count : Nat} (h : place + count ≤ size) : Within (Sbe.wrap place count) size where
  run_eq before block after version hsize := by
    unfold Sbe.wrap
    rw [if_neg (by simp; omega), if_neg (by simp; omega)]
  inside block version hsize h := by
    unfold Sbe.wrap at h
    rw [if_neg (by simp; omega)] at h
    cases h

/-- A field that older versions do not have -/
theorem since {version : Nat} {nullValue : α} (hr : Within r size) :
    Within (Sbe.since version nullValue r) size where
  run_eq before block after acting hsize := by
    unfold Sbe.since
    dsimp only
    rw [hr.run_eq before block after acting hsize]
  inside block acting hsize h := by
    unfold Sbe.since at h
    split at h
    · cases h
    · exact hr.inside block acting hsize h

end Within

/-! ## What a block holds -/

/-- The bytes at a place of a block -/
def Holds (block : List UInt8) (place : Nat) (bs : List UInt8) : Prop :=
  bytesAt block place bs.length = some bs

instance (block : List UInt8) (place : Nat) (bs : List UInt8) : Decidable (Holds block place bs) :=
  inferInstanceAs (Decidable (bytesAt block place bs.length = some bs))

section

variable {block bs : List UInt8} {place version : Nat}

/-- The bytes that a block holds are read. -/
theorem bytes_eq {count : Nat} (h : Holds block place bs) (hcount : bs.length = count) :
    bytes place count ⟨block, 0, version⟩ = .ok bs := by
  unfold bytes
  rw [Nat.zero_add, ← hcount, h]

/-- What a block holds lies within it. -/
theorem Holds.le_length (h : Holds block place bs) : place + bs.length ≤ block.length := by
  by_contra hlt
  unfold Holds bytesAt at h
  rw [if_neg hlt] at h
  cases h

/-- One byte is read back. -/
theorem uint8_eq {n : UInt8} (h : Holds block place [n]) :
    uint8 place ⟨block, 0, version⟩ = .ok n := by
  have hvalue : UInt8.ofNat (ofBytes [n]) = n := by simp [ofBytes]
  rw [uint8, bind_apply, bytes_eq h List.length_singleton, Except.ok_bind, hvalue, pure_apply]

/-- Two bytes are read back. -/
theorem uint16_eq {n : UInt16} (h : Holds block place (toBytes 2 n.toNat)) :
    uint16 place ⟨block, 0, version⟩ = .ok n := by
  rw [uint16, bind_apply, bytes_eq h (Cxx.length_toBytes 2 _), Except.ok_bind,
    Cxx.ofBytes_toBytes n.toNat_lt, UInt16.ofNat_toNat, pure_apply]

/-- Four bytes are read back. -/
theorem uint32_eq {n : UInt32} (h : Holds block place (toBytes 4 n.toNat)) :
    uint32 place ⟨block, 0, version⟩ = .ok n := by
  rw [uint32, bind_apply, bytes_eq h (Cxx.length_toBytes 4 _), Except.ok_bind,
    Cxx.ofBytes_toBytes n.toNat_lt, UInt32.ofNat_toNat, pure_apply]

/-- Eight bytes are read back. -/
theorem uint64_eq {n : UInt64} (h : Holds block place (toBytes 8 n.toNat)) :
    uint64 place ⟨block, 0, version⟩ = .ok n := by
  rw [uint64, bind_apply, bytes_eq h (Cxx.length_toBytes 8 _), Except.ok_bind,
    Cxx.ofBytes_toBytes n.toNat_lt, UInt64.ofNat_toNat, pure_apply]

end

end Sbe
