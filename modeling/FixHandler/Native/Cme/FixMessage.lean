import Mathlib
import FixHandler.Cxx.Decimal
import FixHandler.Cxx.Text
import FixHandler.Native.Assist

/-!
# FIX messages

The fields of a message as `vendor/quickfix` keeps them: a text for a tag. The classes of the fields
differ in how a value becomes a text and how it is read again (`FieldConvertors.h`).
-/

namespace FixHandler.FixMessage

open Cxx (Binary64)

/-- `FieldMap`, with one field for a tag -/
abbrev FieldMap := Std.TreeMap Nat String

/-! ## Tags -/

namespace Field

def account : Nat := 1
def clOrdId : Nat := 11
def cumQty : Nat := 14
def execId : Nat := 17
def handlInst : Nat := 21
def lastPx : Nat := 31
def lastQty : Nat := 32
def orderId : Nat := 37
def orderQty : Nat := 38
def ordStatus : Nat := 39
def ordType : Nat := 40
def price : Nat := 44
def side : Nat := 54
def symbol : Nat := 55
def text : Nat := 58
def timeInForce : Nat := 59
def transactTime : Nat := 60
def cxlRejReason : Nat := 102
def ordRejReason : Nat := 103
def securityDesc : Nat := 107
def minQty : Nat := 110
def execType : Nat := 150
def leavesQty : Nat := 151
def securityType : Nat := 167
def customerOrFirm : Nat := 204
def businessRejectReason : Nat := 380
def cxlRejResponseTo : Nat := 434
def manualOrderIndicator : Nat := 1028
def ctiCode : Nat := 9702
def correlationClOrdId : Nat := 9717

end Field

/-! ## Values as texts -/

namespace CharConvertor

/-- A character that is zero is no text. -/
def write (value : Char) : String := if value = '\x00' then "" else String.singleton value

/-- The text has to be one byte. -/
def read (text : String) : Option Char :=
  match text.toList with
  | [c] => if c.utf8Size = 1 then some c else none
  | _ => none

end CharConvertor

namespace DoubleConvertor

/-- `0.0001` -/
def tiny : Binary64 := Binary64.round (mkRat 1 10000)

/-- `-0.0001` -/
def minusTiny : Binary64 := Binary64.round (mkRat (-1) 10000)

/-- `convert`, of a value -/
def write (value : Binary64) : String :=
  if Binary64.eq value (.fin 0) || Binary64.lt tiny value || Binary64.le value minusTiny then
    String.ofList (Binary64.formatG 15 value)
  else
    String.ofList ((Binary64.formatF 15 value).rdropWhile (· == '0'))

/-- A minus, and what is behind it -/
def minus : List Char → Bool × List Char
  | '-' :: cs => (true, cs)
  | cs => (false, cs)

/-- What is left of a text behind a minus, digits and a point with digits, and whether there was a
    digit. -/
def scan (cs : List Char) : List Char × Bool :=
  let cs := (minus cs).2
  let rest := cs.dropWhile Char.isDigit
  let haveDigit := !(cs.takeWhile Char.isDigit).isEmpty
  match rest with
  | '.' :: fraction =>
    (fraction.dropWhile Char.isDigit, haveDigit || !(fraction.takeWhile Char.isDigit).isEmpty)
  | rest => (rest, haveDigit)

/-- The value of a digit -/
def digit (c : Char) : Binary64 := .ofNat (c.toNat - 48)

/-- The digits before the point: every step is rounded. -/
def whole (ds : List Char) : Binary64 :=
  ds.foldl (fun value c => (value.mul (.ofNat 10)).add (digit c)) (.fin 0)

/-- The digits behind it -/
def fraction (value : Binary64) (ds : List Char) : Binary64 :=
  (ds.foldl
    (fun (value, pow10) c => (value.add ((digit c).div pow10), pow10.mul (.ofNat 10)))
    (value, Binary64.ofNat 10)).1

/-- `fast_atof`, for a text that passed the check: there are no blanks and no exponent, and the
    scale stays 1. -/
def fastAtof (cs : List Char) : Binary64 :=
  let (negative, cs) := minus cs
  let value := whole (cs.takeWhile Char.isDigit)
  let value := match cs.dropWhile Char.isDigit with
    | '.' :: ds => fraction value (ds.takeWhile Char.isDigit)
    | _ => value
  Binary64.mul (.fin (if negative then -1 else 1)) (value.mul (.fin 1))

/-- `convert`, of a text: an exponent is not read. -/
def read (text : String) : Option Binary64 :=
  let (rest, haveDigit) := scan text.toList
  if rest.isEmpty && haveDigit then some (fastAtof text.toList) else none

end DoubleConvertor

/-- `boost::lexical_cast` to an unsigned number of 64 bits -/
def lexicalCast64 (cs : List Char) : Option UInt64 :=
  let (negative, ds) := Cxx.Text.sign cs
  if ds.isEmpty || !ds.all Char.isDigit then none
  else
    let n := Cxx.Text.digitsValue 10 ds
    if 2 ^ 64 ≤ n then none else some (if negative then 0 - UInt64.ofNat n else UInt64.ofNat n)

/-! ## The texts of quantities -/

open Cxx.Text (digitsValue hexValue)

/-- A decimal text of 64 bits is read as its number. -/
theorem lexicalCast64_repr (n : UInt64) : lexicalCast64 n.toNat.repr.toList = some n := by
  have hsign : Cxx.Text.sign n.toNat.repr.toList = (false, n.toNat.repr.toList) := by
    have h := Cxx.Text.sign_repr n.toNat
    cases htext : n.toNat.repr.toList with
    | nil => exact absurd htext (Cxx.Text.repr_ne_nil _)
    | cons c cs =>
      have hc : c.isDigit = true :=
        Cxx.Text.isDigit_of_mem_repr (n := n.toNat) (by rw [htext]; exact List.mem_cons_self)
      rw [htext, List.dropWhile_cons_of_neg (by simp [Cxx.Text.isSpace_of_isDigit hc])] at h
      exact h
  have hempty : n.toNat.repr.toList.isEmpty = false :=
    List.isEmpty_eq_false_iff.mpr (Cxx.Text.repr_ne_nil _)
  have hall : n.toNat.repr.toList.all Char.isDigit = true :=
    List.all_eq_true.mpr fun _ hc => Cxx.Text.isDigit_of_mem_repr hc
  have hlt : ¬ 2 ^ 64 ≤ n.toNat := Nat.not_le.mpr n.toNat_lt
  unfold lexicalCast64
  rw [hsign]
  dsimp only
  rw [hempty, hall, Cxx.Text.digitsValue_repr, if_neg (by decide), if_neg hlt,
    if_neg Bool.false_ne_true, UInt64.ofNat_toNat]

namespace DoubleConvertor

/-- A digit makes a number no smaller. -/
theorem le_foldl_digits (ds : List Char) (m : Nat) :
    m ≤ ds.foldl (fun n c => n * 10 + hexValue c) m := by
  induction ds generalizing m with
  | nil => exact Nat.le_refl m
  | cons c ds ih =>
    calc m ≤ m * 10 + hexValue c := by omega
      _ ≤ ds.foldl (fun n c => n * 10 + hexValue c) (m * 10 + hexValue c) := ih _

/-- One more digit, as long as the value is exact -/
theorem step_eq {m : Nat} {c : Char} (hc : c.isDigit = true) (hlt : m * 10 + hexValue c < 2 ^ 53) :
    ((Binary64.fin m).mul (.ofNat 10)).add (digit c) = .fin (m * 10 + hexValue c : Nat) := by
  have hdigit : digit c = .fin (hexValue c : Nat) := by
    unfold digit
    rw [hexValue, if_pos hc] at hlt ⊢
    exact Binary64.ofNat_eq_fin (by omega)
  have hmul : (Binary64.fin m).mul (.ofNat 10) = .fin (m * 10 : Nat) := by
    rw [Binary64.ofNat_eq_fin (n := 10) (by decide), Binary64.mul, ← Nat.cast_mul]
    exact Binary64.ofNat_eq_fin (by omega)
  rw [hmul, hdigit, Binary64.add, ← Nat.cast_add]
  exact Binary64.ofNat_eq_fin hlt

/-- Digits are read exactly if what they say is a small integer. -/
theorem whole_eq {ds : List Char} (hds : ∀ c ∈ ds, c.isDigit = true)
    (hlt : digitsValue 10 ds < 2 ^ 53) : whole ds = .fin (digitsValue 10 ds) := by
  suffices h : ∀ m : Nat, ds.foldl (fun n c => n * 10 + hexValue c) m < 2 ^ 53 →
      ds.foldl (fun value c => (value.mul (.ofNat 10)).add (digit c)) (Binary64.fin m) =
        .fin (ds.foldl (fun n c => n * 10 + hexValue c) m : Nat) by
    exact h 0 hlt
  clear hlt
  induction ds with
  | nil => exact fun m _ => rfl
  | cons c ds ih =>
    intro m hlt
    rw [List.foldl_cons] at hlt
    have hstep : m * 10 + hexValue c < 2 ^ 53 := Nat.lt_of_le_of_lt (le_foldl_digits ds _) hlt
    rw [List.foldl_cons, List.foldl_cons, step_eq (hds c List.mem_cons_self) hstep]
    exact ih (fun c' hc' => hds c' (List.mem_cons_of_mem c hc')) _ hlt

/-- A decimal text has no sign. -/
theorem minus_repr (n : Nat) : minus n.repr.toList = (false, n.repr.toList) := by
  cases htext : n.repr.toList with
  | nil => rfl
  | cons c cs =>
    unfold minus
    split
    · next heq =>
      -- a minus is no digit
      rw [heq] at htext
      exact absurd (Cxx.Text.isDigit_of_mem_repr (htext ▸ List.mem_cons_self)) (by decide)
    · rfl

/-- A decimal text has digits only. -/
theorem dropWhile_repr (n : Nat) : n.repr.toList.dropWhile Char.isDigit = [] :=
  List.dropWhile_eq_nil_iff.mpr fun _ hc => Cxx.Text.isDigit_of_mem_repr hc

/-- The text of a small integer is read as that integer. -/
theorem read_repr {n : Nat} (hlt : n < 2 ^ 53) : read n.repr = some (.fin n) := by
  -- the digits of a number are scanned to their end
  have hscan : scan n.repr.toList = ([], true) := by
    unfold scan
    rw [minus_repr]
    dsimp only
    rw [dropWhile_repr, Cxx.Text.takeWhile_repr,
      List.isEmpty_eq_false_iff.mpr (Cxx.Text.repr_ne_nil n)]
    rfl
  -- no fraction is left, so the whole part is the value
  have hwhole : whole n.repr.toList = .fin n := by
    have hvalue := Cxx.Text.digitsValue_repr n
    rw [whole_eq (fun _ hc => Cxx.Text.isDigit_of_mem_repr hc) (by rw [hvalue]; exact hlt), hvalue]
  have hatof : fastAtof n.repr.toList = .fin n := by
    unfold fastAtof
    rw [minus_repr]
    dsimp only
    rw [dropWhile_repr, Cxx.Text.takeWhile_repr, hwhole]
    dsimp only
    rw [Binary64.mul, mul_one, ← Binary64.ofNat, Binary64.ofNat_eq_fin hlt, if_neg (by decide),
      Binary64.mul, one_mul, ← Binary64.ofNat, Binary64.ofNat_eq_fin hlt]
  unfold read
  rw [hscan, hatof]
  rfl

/-- A text with a letter in it is not read. -/
theorem read_eq_none {text : String} {c : Char} (hc : c ∈ text.toList) (hdigit : c.isDigit = false)
    (hminus : c ≠ '-') (hpoint : c ≠ '.') : read text = none := by
  -- a character that is no digit stops the digits, so it is not passed over
  have hmem {cs : List Char} (h : c ∈ cs) : c ∈ cs.dropWhile Char.isDigit := by
    rw [← List.takeWhile_append_dropWhile (p := Char.isDigit) (l := cs), List.mem_append] at h
    rcases h with h | h
    · exact absurd (List.mem_takeWhile_imp h) (by rw [hdigit]; decide)
    · exact h
  have hrest : c ∈ (scan text.toList).1 := by
    -- neither the sign nor the point takes the character away
    have htail : c ∈ (minus text.toList).2 := by
      unfold minus
      split
      · next heq =>
        rw [heq, List.mem_cons] at hc
        exact hc.resolve_left hminus
      · exact hc
    have hdrop := hmem htail
    unfold scan
    dsimp only
    split
    · next heq =>
      rw [heq, List.mem_cons] at hdrop
      exact hmem (hdrop.resolve_left hpoint)
    · exact hdrop
  unfold read
  dsimp only
  rw [List.isEmpty_eq_false_iff.mpr (List.ne_nil_of_mem hrest)]
  rfl

/-- From 1 on a value is above the threshold. -/
theorem tiny_lt {v : ℚ} (hv : 1 ≤ v) : Binary64.lt tiny (.fin v) = true := by
  have hone : Binary64.lt tiny (.fin 1) = true := by decide +kernel
  cases htiny : tiny with
  | nan =>
    rw [htiny] at hone
    exact nomatch hone
  | inf a =>
    rw [htiny] at hone
    exact hone
  | fin t =>
    rw [htiny] at hone
    exact decide_eq_true (lt_of_lt_of_le (of_decide_eq_true hone) hv)

/-- An integer is written to 15 digits. -/
theorem write_ofNat {n : Nat} (hlt : n < 2 ^ 64) :
    write (.ofNat n) = String.ofList (Binary64.formatG 15 (.ofNat n)) := by
  have hcase : (Binary64.eq (.ofNat n) (.fin 0) || Binary64.lt tiny (.ofNat n)) = true := by
    by_cases hzero : n = 0
    · rw [hzero]
      rfl
    · rw [Bool.or_eq_true]
      right
      by_cases hsmall : n < 2 ^ 53
      · rw [Binary64.ofNat_eq_fin hsmall]
        exact tiny_lt (Nat.one_le_cast.mpr (Nat.one_le_iff_ne_zero.mpr hzero))
      · obtain ⟨v, hv, hle⟩ := Binary64.ofNat_large (Nat.le_of_not_lt hsmall) hlt
        rw [hv]
        exact tiny_lt (Nat.one_le_cast.mpr (by omega))
  unfold write
  rw [hcase, Bool.true_or, if_pos rfl]

/-- A quantity is written with its digits if there are 15 at most; a larger one cannot be read
    again. -/
theorem read_write_ofNat {n : Nat} (hlt : n < 2 ^ 64) :
    read (write (.ofNat n)) = if n < 10 ^ 15 then some (.fin n) else none := by
  rw [write_ofNat hlt]
  by_cases hsmall : n < 10 ^ 15
  · rw [if_pos hsmall, Binary64.formatG_ofNat_small hsmall, String.ofList_toList]
    exact read_repr (by omega)
  · have he := Binary64.e_mem_formatG_ofNat (Nat.le_of_not_lt hsmall) hlt
    rw [if_neg hsmall]
    exact read_eq_none (by rw [String.toList_ofList]; exact he) (by decide) (by decide) (by decide)

/-- What an integer is written as, if it has 15 digits at most -/
theorem write_ofNat_small {n : Nat} (hlt : n < 10 ^ 15) : write (.ofNat n) = n.repr := by
  rw [write_ofNat (by omega), Binary64.formatG_ofNat_small hlt, String.ofList_toList]

end DoubleConvertor

end FixHandler.FixMessage
