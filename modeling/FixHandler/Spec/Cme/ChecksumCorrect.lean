import Mathlib
import FixHandler.Native.Cme.FixRequest

/-!
# The checksum of a FIX message

The sum that is kept in 32 bits agrees modulo 256 with the sum of the bytes: the sign that a `char`
is extended by, and what the sum loses, are multiples of 256.

## Key results

- `Assist.checksum_eq`: the checksum of a message, digit by digit
- `Cme.MessageUtility.trailed_logon`, `Cme.MessageUtility.trailed_recoveryRequest`: the messages
  end with the checksum of what is before it
-/

namespace FixHandler.Assist

/-- The sum of the bytes of a message, as unsigned values -/
def byteSum (message : List Int8) : Nat := (message.map fun c => c.toUInt8.toNat).sum

/-- A `char` that is extended to 32 bits is its byte up to a multiple of 256. -/
theorem toNat_extend_mod (c : Int8) : c.toInt32.toUInt32.toNat % 256 = c.toUInt8.toNat := by
  have hlt : c.toBitVec.toNat < 2 ^ 8 := c.toBitVec.isLt
  show (c.toBitVec.signExtend 32).toNat % 256 = c.toBitVec.toNat
  rw [BitVec.toNat_signExtend, BitVec.toNat_setWidth]
  -- the bits in front of the byte are all set, or none is
  split <;> omega

/-- One byte more. -/
theorem toNat_add_mod (sum : UInt32) (c : Int8) :
    (sum + c.toInt32.toUInt32).toNat % 256 = (sum.toNat + c.toUInt8.toNat) % 256 := by
  have hextend := toNat_extend_mod c
  rw [UInt32.toNat_add]
  omega

/-- The sum over a message, from any sum before it. -/
theorem toNat_foldl_mod (message : List Int8) (sum : UInt32) :
    (message.foldl (fun sum c => sum + c.toInt32.toUInt32) sum).toNat % 256 =
      (sum.toNat + byteSum message) % 256 := by
  induction message generalizing sum with
  | nil => rfl
  | cons c message ih =>
    have hstep := toNat_add_mod sum c
    have hsum : byteSum (c :: message) = c.toUInt8.toNat + byteSum message := rfl
    rw [List.foldl_cons, ih, hsum]
    omega

/-- The three digits of a number below 1000 -/
def threeDigits (n : Nat) : List Char :=
  [(n / 100).digitChar, (n / 10 % 10).digitChar, (n % 10).digitChar]

/-- A checksum is written with three digits. -/
theorem padLeft_three : ∀ n < 256, Cxx.Binary64.padLeft 3 n = threeDigits n := by
  decide +kernel

/-- Seven `char`s fit into the buffer, and none of them is zero. -/
theorem snprintf_threeDigits : ∀ n < 256,
    snprintf 8 (chars ['1', '0', '='] ++ chars (threeDigits n) ++ [1]) =
      chars (['1', '0', '='] ++ threeDigits n ++ ['\x01']) := by
  decide +kernel

/-- The checksum is the sum of the bytes modulo 256. -/
theorem checksum_eq (message : List Int8) :
    calculateFixChecksum message =
      chars (['1', '0', '='] ++ threeDigits (byteSum message % 256) ++ ['\x01']) := by
  have hsum := toNat_foldl_mod message 0
  rw [UInt32.toNat_zero, Nat.zero_add] at hsum
  have hlt : byteSum message % 256 < 256 := Nat.mod_lt _ (by decide)
  unfold calculateFixChecksum
  simp only [UInt32.toNat_mod, UInt32.reduceToNat, hsum]
  rw [padLeft_three _ hlt, snprintf_threeDigits _ hlt]

/-- Between `10=` and the end of the field are three decimal digits, whose number is the sum of the
    bytes modulo 256. -/
theorem checksum_digits (message : List Int8) :
    ∃ hundreds < 10, ∃ tens < 10, ∃ ones < 10,
      hundreds * 100 + tens * 10 + ones = byteSum message % 256 ∧
      calculateFixChecksum message = chars ['1', '0', '=', Nat.digitChar hundreds,
        Nat.digitChar tens, Nat.digitChar ones, '\x01'] := by
  have hlt : byteSum message % 256 < 256 := Nat.mod_lt _ (by decide)
  exact ⟨byteSum message % 256 / 100, by omega, byteSum message % 256 / 10 % 10, by omega,
    byteSum message % 256 % 10, by omega, by omega, checksum_eq message⟩

end FixHandler.Assist

namespace FixHandler.Cme.MessageUtility

open Assist (chars byteSum threeDigits checksum_eq)

/-- A message that ends with the checksum of what is before it -/
def Trailed (message : List Int8) : Prop :=
  ∃ body, message =
    body ++ chars (['1', '0', '='] ++ threeDigits (byteSum body % 256) ++ ['\x01'])

/-- Joined tags end in the separator. -/
theorem trailed_joinTags (tags : List (List Int8)) : Trailed (joinTags tags) :=
  ⟨(tags.map (· ++ [1])).flatten, by rw [joinTags, checksum_eq]⟩

/-- A logon message ends in the separator. -/
theorem trailed_logon (username password : List Int8) :
    Trailed (makeFixLogonMessage username password) :=
  trailed_joinTags _

/-- A recovery request ends in the separator. -/
theorem trailed_recoveryRequest (channelId reqId : List Int8) (first last : UInt32) :
    Trailed (makeFixRecoveryRequestMessage channelId reqId first last) :=
  trailed_joinTags _

end FixHandler.Cme.MessageUtility
