import Mathlib
import FixHandler.Cxx.Heap
import FixHandler.Cxx.Binary64

/-!
# Numbers in text

`std::stod` and `std::stol` as `strtod` and `strtol` read them in the "C"
locale: leading white space, an optional sign, the longest prefix that is a
number, and whatever follows ignored.
-/

namespace Cxx

namespace Text

/-- `std::isspace` -/
def isSpace (c : Char) : Bool :=
  c == ' ' || (9 ≤ c.toNat && c.toNat ≤ 13)

/-- The value of a hexadecimal digit. -/
def hexValue (c : Char) : Nat :=
  if c.isDigit then c.toNat - 48 else c.toLower.toNat - 87

/-- The value of a digit sequence. -/
def digitsValue (base : Nat) (ds : List Char) : Nat :=
  ds.foldl (fun n c => n * base + hexValue c) 0

/-- Split off an optional sign; `true` is minus. -/
def sign : List Char → Bool × List Char
  | '-' :: cs => (true, cs)
  | '+' :: cs => (false, cs)
  | cs => (false, cs)

/-- The exponent part after `mark`; `0` where there is none. -/
def exponent (mark : Char) : List Char → Int
  | c :: cs =>
    if c.toLower == mark then
      let (negative, cs) := sign cs
      let e : Nat := digitsValue 10 (cs.takeWhile Char.isDigit)
      if negative then -(e : Int) else e
    else 0
  | [] => 0

/-- Digits with an optional point: the value of all digits as one integer, how
    many stand after the point, and the rest. `none` without any digit. -/
def mantissa (base : Nat) (isDigit : Char → Bool) (cs : List Char) :
    Option (Nat × Nat × List Char) :=
  let whole := cs.takeWhile isDigit
  let afterWhole := cs.dropWhile isDigit
  let (fraction, rest) :=
    match afterWhole with
    | '.' :: ds => (ds.takeWhile isDigit, ds.dropWhile isDigit)
    | ds => ([], ds)
  if whole.isEmpty && fraction.isEmpty then none
  else some (digitsValue base (whole ++ fraction), fraction.length, rest)

/-- `n * base ^ e` -/
def scale (n base : Nat) (e : Int) : ℚ :=
  if 0 ≤ e then (n * base ^ e.toNat : Nat) else mkRat n (base ^ (-e).toNat)

/-- The number a text starts with. -/
inductive Number where
  | nan
  | infinity
  | exact (q : ℚ)

/-- `strtod` after white space and sign. -/
def unsignedNumber (cs : List Char) : Option Number :=
  let lower := cs.map Char.toLower
  if lower.take 3 == ['i', 'n', 'f'] then some .infinity
  else if lower.take 3 == ['n', 'a', 'n'] then some .nan
  else
    let isHex (c : Char) : Bool := c.isDigit || ('a' ≤ c.toLower && c.toLower ≤ 'f')
    let hex := if lower.take 2 == ['0', 'x'] then mantissa 16 isHex (cs.drop 2) else none
    match hex with
    | some (n, k, rest) => some (.exact (scale n 2 (exponent 'p' rest - 4 * k)))
    | none =>
      (mantissa 10 Char.isDigit cs).map fun (n, k, rest) =>
        .exact (scale n 10 (exponent 'e' rest - k))

end Text

open Text in
/-- `std::stod` -/
@[irreducible] def stod (s : String) : Except Exception Binary64 :=
  let (negative, cs) := sign (s.toList.dropWhile isSpace)
  match unsignedNumber cs with
  | none => .error (.invalidArgument "stod")
  | some .nan => .ok .nan
  | some .infinity => .ok (.inf negative)
  | some (.exact q) =>
    let q := if negative then -q else q
    match Binary64.round q with
    | .fin v =>
      -- underflow is reported for a tiny result that is not exact
      if v ≠ q ∧ |q| < mkRat 1 (2 ^ 1022) then .error (.outOfRange "stod") else .ok (.fin v)
    | _ => .error (.outOfRange "stod")

open Text in
/-- `std::stol`, for a 64-bit `long` -/
def stol (s : String) : Except Exception Int64 :=
  let (negative, cs) := sign (s.toList.dropWhile isSpace)
  let ds := cs.takeWhile Char.isDigit
  if ds.isEmpty then .error (.invalidArgument "stol")
  else
    let n : Int := if negative then -digitsValue 10 ds else digitsValue 10 ds
    if n < -2 ^ 63 ∨ 2 ^ 63 ≤ n then .error (.outOfRange "stol") else .ok (Int64.ofInt n)

open Text in
/-- `std::atof`: what is no number is 0. -/
def atof (s : String) : Binary64 :=
  let (negative, cs) := sign (s.toList.dropWhile isSpace)
  match unsignedNumber cs with
  | none => .fin 0
  | some .nan => .nan
  | some .infinity => .inf negative
  | some (.exact q) => Binary64.round (if negative then -q else q)

open Text in
/-- `std::atoi`: what is no number is 0, and a `long` is cut to an `int`. -/
def atoi (s : String) : Int32 :=
  let (negative, cs) := sign (s.toList.dropWhile isSpace)
  let n : Int := digitsValue 10 (cs.takeWhile Char.isDigit)
  Int32.ofInt (if negative then max (-n) (-2 ^ 63) else min n (2 ^ 63 - 1))

/-- The exceptions of `std::stod`. -/
theorem stod_error {s : String} {e : Exception} (h : stod s = .error e) :
    e = .invalidArgument "stod" ∨ e = .outOfRange "stod" := by
  unfold stod at h
  simp only at h
  split at h
  · cases h; exact .inl rfl
  · exact nomatch h
  · exact nomatch h
  · next q _ =>
    generalize (if (Cxx.Text.sign (s.toList.dropWhile Cxx.Text.isSpace)).1 = true then -q else q) =
      q' at h
    split at h
    · split at h
      · cases h; exact .inr rfl
      · exact nomatch h
    · cases h; exact .inr rfl

namespace Text

/-- A decimal text has digits only. -/
theorem isDigit_of_mem_repr {n : Nat} {c : Char} (hc : c ∈ n.repr.toList) : c.isDigit = true := by
  rw [Nat.repr_eq_ofList_toDigits, String.toList_ofList] at hc
  exact Nat.isDigit_of_mem_toDigits (by decide) (by decide) hc

/-- Digits in decimal notation are read back. -/
theorem digitsValue_repr (n : Nat) : digitsValue 10 n.repr.toList = n := by
  have hfold : ∀ (ds : List Char) (m : Nat), (∀ c ∈ ds, c.isDigit = true) →
      ds.foldl (fun n c => n * 10 + hexValue c) m = Nat.ofDigitChars 10 ds m := by
    intro ds
    induction ds with
    | nil => exact fun m _ => by rw [Nat.ofDigitChars_nil]; rfl
    | cons c ds ih =>
      intro m hds
      rw [List.foldl_cons, ih _ fun c' hc' => hds c' (List.mem_cons_of_mem c hc'),
        Nat.ofDigitChars_cons, hexValue, if_pos (hds c List.mem_cons_self), Nat.mul_comm]
      rfl
  rw [digitsValue, hfold _ 0 fun c hc => isDigit_of_mem_repr hc, Nat.repr_eq_ofList_toDigits,
    String.toList_ofList, Nat.ofDigitChars_ten_toDigits]

/-- A digit is no space. -/
theorem isSpace_of_isDigit {c : Char} (hc : c.isDigit = true) : isSpace c = false := by
  rw [Char.isDigit_iff_toNat] at hc
  have hblank : c ≠ ' ' := by
    rintro rfl
    exact absurd hc.1 (by decide)
  simp only [isSpace, Bool.or_eq_false_iff, beq_eq_false_iff_ne, ne_eq, hblank, not_false_iff,
    Bool.and_eq_false_iff, decide_eq_false_iff_not, true_and]
  right
  have := hc.1
  simp at this
  omega

/-- A text that starts with a digit has neither white space nor a sign. -/
theorem sign_of_isDigit {c : Char} {cs : List Char} (hc : c.isDigit = true) :
    sign (List.dropWhile isSpace (c :: cs)) = (false, c :: cs) := by
  rw [List.dropWhile_cons_of_neg (by rw [isSpace_of_isDigit hc]; exact Bool.false_ne_true)]
  unfold sign
  split
  · next heq =>
    cases heq
    exact absurd hc (by decide)
  · next heq =>
    cases heq
    exact absurd hc (by decide)
  · rfl

/-- A decimal text is not empty. -/
theorem repr_ne_nil (n : Nat) : n.repr.toList ≠ [] := by
  rw [Nat.repr_eq_ofList_toDigits, String.toList_ofList]
  exact Nat.toDigits_ne_nil

/-- A number in decimal notation is read as a whole, and has no sign. -/
theorem sign_repr (n : Nat) :
    sign (n.repr.toList.dropWhile isSpace) = (false, n.repr.toList) := by
  cases htext : n.repr.toList with
  | nil => exact absurd htext (repr_ne_nil n)
  | cons c cs => exact sign_of_isDigit (isDigit_of_mem_repr (htext ▸ List.mem_cons_self))

/-- A decimal text is read to its end. -/
theorem takeWhile_repr (n : Nat) : n.repr.toList.takeWhile Char.isDigit = n.repr.toList :=
  List.takeWhile_eq_self_iff.mpr fun _ hc => isDigit_of_mem_repr hc

/-- A text that starts with a digit is a number. -/
theorem unsignedNumber_of_isDigit {c : Char} {cs : List Char} (hc : c.isDigit = true) :
    unsignedNumber (c :: cs) ≠ none := by
  have hmantissa : mantissa 10 Char.isDigit (c :: cs) ≠ none := by
    unfold mantissa
    rw [List.takeWhile_cons_of_pos hc]
    exact fun h => nomatch h
  unfold unsignedNumber
  dsimp only
  split
  · exact Option.some_ne_none _
  · split
    · exact Option.some_ne_none _
    · split
      · exact Option.some_ne_none _
      · rw [ne_eq, Option.map_eq_none_iff]
        exact hmantissa

end Text

open Text in
/-- A text that starts with a digit is a number, but maybe not one in range. -/
theorem stod_ne_invalidArgument {s : String} {c : Char} (hs : s.toList.head? = some c)
    (hc : c.isDigit = true) {what : String} : stod s ≠ .error (.invalidArgument what) := by
  obtain ⟨cs, hcs⟩ := List.head?_eq_some_iff.mp hs
  intro h
  unfold stod at h
  simp only at h
  split at h
  · next hnone =>
    rw [hcs, sign_of_isDigit hc] at hnone
    exact unsignedNumber_of_isDigit hc hnone
  · exact nomatch h
  · exact nomatch h
  · next q _ =>
    generalize (if (sign (s.toList.dropWhile isSpace)).1 = true then -q else q) = q' at h
    split at h
    · split at h
      · exact nomatch h
      · exact nomatch h
    · exact nomatch h

open Text in
/-- A number in decimal notation is read, if it is a `long`. -/
theorem stol_repr (n : Nat) :
    stol n.repr = if n < 2 ^ 63 then .ok (Int64.ofNat n) else .error (.outOfRange "stol") := by
  have hempty : n.repr.toList.isEmpty = false := List.isEmpty_eq_false_iff.mpr (repr_ne_nil n)
  unfold stol
  simp only [sign_repr, takeWhile_repr, hempty, digitsValue_repr, Bool.false_eq_true, if_false]
  by_cases hlt : n < 2 ^ 63
  · rw [if_neg (by omega), if_pos hlt]
    rfl
  · rw [if_pos (by omega), if_neg hlt]

open Text in
/-- An `int` in decimal notation is read back. -/
theorem atoi_toString (n : Int32) : atoi (toString n.toInt) = n := by
  have hlower := n.le_toInt
  have hupper := n.toInt_lt
  unfold atoi
  cases hn : n.toInt with
  | ofNat m =>
    have hsign : sign ((toString (Int.ofNat m)).toList.dropWhile isSpace) =
        (false, m.repr.toList) := sign_repr m
    rw [hsign]
    dsimp only
    rw [takeWhile_repr, digitsValue_repr, if_neg Bool.false_ne_true, min_eq_left]
    · rw [← Int.ofNat_eq_natCast, ← hn]
      exact Int32.ofInt_toInt n
    · rw [← Int.ofNat_eq_natCast, ← hn]
      omega
  | negSucc m =>
    have hsign : sign ((toString (Int.negSucc m)).toList.dropWhile isSpace) =
        (true, (m + 1).repr.toList) := by
      rw [show (toString (Int.negSucc m)) = "-" ++ (m + 1).repr from rfl, String.toList_append]
      rfl
    rw [hsign]
    dsimp only
    -- the value is in range, so nothing is clamped
    rw [takeWhile_repr, digitsValue_repr, if_pos rfl, max_eq_left]
    · rw [Int.natCast_succ, ← Int.negSucc_eq, ← hn]
      exact Int32.ofInt_toInt n
    · omega

end Cxx
