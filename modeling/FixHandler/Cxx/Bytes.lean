import Mathlib

/-!
# Reading integers from a buffer

A `char *` of a known length is the list of its bytes. The programs are built for
a little endian machine, where reading an integer through a cast pointer puts
the first byte lowest.
-/

namespace Cxx

/-- The value of bytes, the first one lowest. -/
def ofBytes : List UInt8 → Nat
  | [] => 0
  | b :: bs => b.toNat + 256 * ofBytes bs

/-- The `count` bytes from `position` on, if all of them are in the buffer. -/
def bytesAt (buffer : List UInt8) (position count : Nat) : Option (List UInt8) :=
  if position + count ≤ buffer.length then some ((buffer.drop position).take count) else none

/-- `*((std::uint16_t *)(buffer + position))` -/
def readUInt16 (buffer : List UInt8) (position : Nat) : Option UInt16 :=
  (bytesAt buffer position 2).map fun bs => .ofNat (ofBytes bs)

/-- `*((std::uint32_t *)(buffer + position))` -/
def readUInt32 (buffer : List UInt8) (position : Nat) : Option UInt32 :=
  (bytesAt buffer position 4).map fun bs => .ofNat (ofBytes bs)

/-- `*((std::uint64_t *)(buffer + position))` -/
def readUInt64 (buffer : List UInt8) (position : Nat) : Option UInt64 :=
  (bytesAt buffer position 8).map fun bs => .ofNat (ofBytes bs)

/-- The bytes of a 16 bit number. -/
def uint16Bytes (n : Nat) : List UInt8 := [.ofNat n, .ofNat (n / 256)]

/-- The `count` lowest bytes of a number. -/
def toBytes : Nat → Nat → List UInt8
  | 0, _ => []
  | count + 1, n => .ofNat n :: toBytes count (n / 256)

/-- As many bytes as asked for -/
@[simp] theorem length_toBytes (count n : Nat) : (toBytes count n).length = count := by
  induction count generalizing n with
  | zero => rfl
  | succ count ih => rw [toBytes, List.length_cons, ih]

/-- A number that fits its bytes is read back. -/
theorem ofBytes_toBytes {count n : Nat} (hn : n < 256 ^ count) : ofBytes (toBytes count n) = n := by
  induction count generalizing n with
  | zero =>
    rw [Nat.pow_zero, Nat.lt_one_iff] at hn
    rw [hn]
    rfl
  | succ count ih =>
    have hhigh : n / 256 < 256 ^ count := by
      rw [Nat.div_lt_iff_lt_mul (by decide), ← Nat.pow_succ]
      exact hn
    have hlow : (UInt8.ofNat n).toNat = n % 256 := UInt8.toNat_ofNat'
    rw [toBytes, ofBytes, ih hhigh, hlow]
    omega

/-- Reading at the beginning of the buffer gives what was put there. -/
theorem readUInt16_uint16Bytes {n : Nat} (hn : n < 65536) (rest : List UInt8) :
    readUInt16 (uint16Bytes n ++ rest) 0 = some (.ofNat n) := by
  have hlow : (UInt8.ofNat n).toNat = n % 256 := UInt8.toNat_ofNat'
  have hhigh : (UInt8.ofNat (n / 256)).toNat = n / 256 % 256 := UInt8.toNat_ofNat'
  have hvalue : ofBytes (uint16Bytes n) = n := by
    show (UInt8.ofNat n).toNat + 256 * ((UInt8.ofNat (n / 256)).toNat + 256 * 0) = n
    rw [hlow, hhigh]
    omega
  unfold readUInt16 bytesAt
  rw [if_pos (by rw [List.length_append]; exact Nat.le_add_right 2 _), List.drop_zero]
  show ((some ((uint16Bytes n ++ rest).take (uint16Bytes n).length)).map _) = _
  rw [List.take_left, Option.map_some, hvalue]

/-- Bytes are missing where they reach beyond the end. -/
theorem bytesAt_eq_none {buffer : List UInt8} {position count : Nat} :
    bytesAt buffer position count = none ↔ buffer.length < position + count := by
  unfold bytesAt
  split
  · exact iff_of_false (Option.some_ne_none _) (by omega)
  · exact iff_of_true rfl (by omega)

/-- What is between two parts of the buffer. -/
theorem bytesAt_append (before middle after : List UInt8) :
    bytesAt (before ++ (middle ++ after)) before.length middle.length = some middle := by
  unfold bytesAt
  rw [if_pos (by simp), List.drop_left, List.take_left]

/-- Reading a number gives what was put there. -/
theorem readUInt32_toBytes (n : UInt32) (before after : List UInt8) :
    readUInt32 (before ++ (toBytes 4 n.toNat ++ after)) before.length = some n := by
  have hbytes := bytesAt_append before (toBytes 4 n.toNat) after
  rw [length_toBytes] at hbytes
  unfold readUInt32
  rw [hbytes, Option.map_some, ofBytes_toBytes n.toNat_lt, UInt32.ofNat_toNat]

/-- Eight bytes in the middle are read back. -/
theorem readUInt64_toBytes (n : UInt64) (before after : List UInt8) :
    readUInt64 (before ++ (toBytes 8 n.toNat ++ after)) before.length = some n := by
  have hbytes := bytesAt_append before (toBytes 8 n.toNat) after
  rw [length_toBytes] at hbytes
  unfold readUInt64
  rw [hbytes, Option.map_some, ofBytes_toBytes n.toNat_lt, UInt64.ofNat_toNat]

/-- The lower half of four bytes is what is read from the first two. -/
theorem readUInt32_toUInt16 {buffer : List UInt8} {position : Nat}
    (h : position + 4 ≤ buffer.length) :
    (readUInt32 buffer position).map (·.toUInt16) = readUInt16 buffer position := by
  obtain ⟨a, b, c, d, rest, hrest⟩ : ∃ a b c d rest, buffer.drop position = a :: b :: c :: d :: rest := by
    match hdrop : buffer.drop position with
    | a :: b :: c :: d :: rest => exact ⟨a, b, c, d, rest, rfl⟩
    | [] | [_] | [_, _] | [_, _, _] =>
      have hlen := congrArg List.length hdrop
      rw [List.length_drop] at hlen
      simp only [List.length_cons, List.length_nil] at hlen
      omega
  unfold readUInt32 readUInt16 bytesAt
  rw [if_pos h, if_pos (by omega), hrest]
  simp only [List.take_succ_cons, List.take_zero, Option.map_some, Option.some_inj]
  rw [← UInt16.toNat_inj]
  show (UInt32.ofNat _).toUInt16.toNat = (UInt16.ofNat _).toNat
  rw [UInt32.toNat_toUInt16, UInt32.toNat_ofNat', UInt16.toNat_ofNat']
  simp only [ofBytes]
  omega

end Cxx
