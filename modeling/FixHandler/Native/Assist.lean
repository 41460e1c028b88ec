import Mathlib
import FixHandler.Cxx.Decimal
import FixHandler.Cxx.Text
import FixHandler.Native.Ems

/-!
# Conversions of texts

What `core/assist/utility.cc` makes of the texts of times and prices, and the checksum of a FIX
message. A `char` is signed.
-/

namespace FixHandler.Assist

open Ems

/-- `boost::lexical_cast` to an unsigned number -/
def lexicalCast (cs : List Char) : Option UInt32 :=
  let (negative, ds) := Cxx.Text.sign cs
  if ds.isEmpty || !ds.all Char.isDigit then none
  else
    let n := Cxx.Text.digitsValue 10 ds
    if 2 ^ 32 ≤ n then none else some (if negative then 0 - UInt32.ofNat n else UInt32.ofNat n)

/-- `To_pb_time`: nothing for a text of another length, and no result for one that is not a
    time, where `boost::bad_lexical_cast` is thrown. -/
def toPbTime (datetime : String) : Option Timestamp :=
  let cs := datetime.toList
  if cs.length ≠ 21 then some {}
  else do
    let year ← lexicalCast (cs.take 4)
    let month ← lexicalCast ((cs.drop 4).take 2)
    let day ← lexicalCast ((cs.drop 6).take 2)
    let hour ← lexicalCast ((cs.drop 9).take 2)
    let minute ← lexicalCast ((cs.drop 12).take 2)
    let second ← lexicalCast ((cs.drop 15).take 2)
    let micros ← lexicalCast ((cs.drop 18).take 3)
    return { date := { year, month, day }, time := { hour, minute, second, micros } }

/-- `Is_price_valid`: digits with at most one point, which is neither first nor last. -/
def isPriceValid (str : String) : Bool :=
  let cs := str.toList
  match cs.head?, cs.getLast? with
  | some first, some last =>
    let middle := cs.tail.dropLast
    first.isDigit && last.isDigit && middle.all (fun c => c.isDigit || c == '.') &&
      decide (middle.count '.' ≤ 1)
  | _, _ => false

/-- The `char`s of a literal -/
def chars (cs : List Char) : List Int8 := cs.map fun c => Int8.ofNat c.toNat

/-- What a text that is read up to its first zero is after `snprintf` into `size` of them -/
def snprintf (size : Nat) (formatted : List Int8) : List Int8 :=
  (formatted.take (size - 1)).takeWhile (· != 0)

/-- `Calculate_fix_checksum`: a negative `char` is extended by its sign. -/
def calculateFixChecksum (message : List Int8) : List Int8 :=
  let sum : UInt32 := message.foldl (fun sum c => sum + c.toInt32.toUInt32) 0
  snprintf 8 (chars ['1', '0', '='] ++ chars (Cxx.Binary64.padLeft 3 (sum % 256).toNat) ++ [1])

end FixHandler.Assist
