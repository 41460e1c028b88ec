import Mathlib
import FixHandler.Cxx.Decimal
import FixHandler.Cxx.Double
import FixHandler.Cxx.Text

/-!
# Doubles as texts of six digits

`std::to_string` writes a `double` to six digits after the point, and `std::stod` reads such a text.
Below `2 ^ 33` two doubles are closer than a millionth and a decimal of six digits is found in its
double; above, they are further apart, and a double is found in its six digits.

## Key results

- `stod_toString`: what is written is read
- `IsDecimal.stod_toString`: a double that is a decimal of six digits is read back
- `Binary64.stol_toString`: `std::stol` reads the digits before the point, if there are not too many
- `Cxx.stol_toString`: an `int` is read back
-/

namespace Cxx

namespace Text

/-- The value of digits in two parts -/
theorem digitsValue_append (base : Nat) (cs ds : List Char) :
    digitsValue base (cs ++ ds) = digitsValue base cs * base ^ ds.length + digitsValue base ds := by
  have hfold : ∀ (ds : List Char) (n : Nat), ds.foldl (fun n c => n * base + hexValue c) n =
      n * base ^ ds.length + digitsValue base ds := by
    intro ds
    induction ds with
    | nil => intro n; simp [digitsValue]
    | cons d ds ih =>
      intro n
      have hds : digitsValue base (d :: ds) = hexValue d * base ^ ds.length + digitsValue base ds := by
        rw [digitsValue, List.foldl_cons, ih, Nat.zero_mul, Nat.zero_add]
      rw [List.foldl_cons, ih, hds, List.length_cons, pow_succ]
      ring
  rw [digitsValue, List.foldl_append, hfold]
  rfl

/-- Zeros have no value. -/
theorem digitsValue_replicate_zero (base k : Nat) :
    digitsValue base (List.replicate k '0') = 0 := by
  induction k with
  | zero => rfl
  | succ k ih =>
    have hzero : digitsValue base ['0'] = 0 := by
      show 0 * base + 0 = 0
      rw [Nat.zero_mul]
    rw [List.replicate_succ', digitsValue_append, ih, hzero, Nat.zero_mul]

/-- Padding with zeros keeps the value. -/
theorem digitsValue_padLeft (width n : Nat) :
    digitsValue 10 (Binary64.padLeft width n) = n := by
  rw [Binary64.padLeft, digitsValue_append, digitsValue_replicate_zero, digitsValue_repr,
    Nat.zero_mul, Nat.zero_add]

/-- Padding puts digits in. -/
theorem isDigit_of_mem_padLeft {width n : Nat} {c : Char} (hc : c ∈ Binary64.padLeft width n) :
    c.isDigit = true := by
  rcases List.mem_append.mp hc with hc | hc
  · rw [List.eq_of_mem_replicate hc]
    decide
  · exact isDigit_of_mem_repr hc

/-- A number that fits is padded to the width. -/
theorem length_padLeft {width n : Nat} (hwidth : 0 < width) (hn : n < 10 ^ width) :
    (Binary64.padLeft width n).length = width := by
  have hle := Nat.repr_length n width hwidth hn
  rw [Binary64.padLeft, List.length_append, List.length_replicate, String.length_toList]
  omega

end Text

namespace Binary64

open Text

/-- The digits of a number of millionths -/
def digits (n : Nat) : List Char := (n / 10 ^ 6).repr.toList ++ '.' :: padLeft 6 (n % 10 ^ 6)

/-- The number of millionths that is nearest to the absolute value of a rational -/
def millionths (q : ℚ) : Nat := nearestEven (q.num.natAbs * 10 ^ 6) q.den

/-- A finite double is written as its millionths, rounded. -/
theorem toString_fin (q : ℚ) :
    (Binary64.fin q).toString.toList = (if q < 0 then ['-'] else []) ++ digits (millionths q) := by
  have hsign : (if q < 0 then "-" else "").toList = if q < 0 then ['-'] else [] := by
    split <;> rfl
  unfold toString digits millionths padLeft
  dsimp only
  generalize nearestEven (q.num.natAbs * 10 ^ 6) q.den = n
  generalize n % 10 ^ 6 = m
  generalize n / 10 ^ 6 = k
  rw [String.toList_append, String.toList_append, String.toList_append, hsign, List.append_assoc,
    List.append_assoc]
  have hpad : (String.ofList (List.replicate (6 - m.repr.length) '0') ++ m.repr).toList =
      List.replicate (6 - m.repr.length) '0' ++ m.repr.toList := by
    rw [String.toList_append, String.toList_ofList]
  rw [← hpad]
  rfl

/-! ## Reading digits -/

/-- The text starts with a digit. -/
private theorem digits_eq_cons (n : Nat) : ∃ c cs, digits n = c :: cs ∧ c.isDigit = true := by
  cases hrepr : (n / 10 ^ 6).repr.toList with
  | nil => exact absurd hrepr (repr_ne_nil _)
  | cons c cs =>
    refine ⟨c, cs ++ '.' :: padLeft 6 (n % 10 ^ 6), ?_, ?_⟩
    · rw [digits, hrepr, List.cons_append]
    · exact isDigit_of_mem_repr (n := n / 10 ^ 6) (hrepr ▸ List.mem_cons_self)

/-- The digits before the point -/
private theorem takeWhile_digits (n : Nat) :
    (digits n).takeWhile Char.isDigit = (n / 10 ^ 6).repr.toList := by
  rw [digits, List.takeWhile_append_of_pos fun c hc => isDigit_of_mem_repr hc,
    List.takeWhile_cons_of_neg (by decide), List.append_nil]

/-- The point and the six digits behind it -/
private theorem dropWhile_digits (n : Nat) :
    (digits n).dropWhile Char.isDigit = '.' :: padLeft 6 (n % 10 ^ 6) := by
  rw [digits, List.dropWhile_append_of_pos fun c hc => isDigit_of_mem_repr hc,
    List.dropWhile_cons_of_neg (by decide)]

/-- The text is read as a number of millionths. -/
private theorem mantissa_digits (n : Nat) :
    mantissa 10 Char.isDigit (digits n) = some (n, 6, []) := by
  have hlt : n % 10 ^ 6 < 10 ^ 6 := Nat.mod_lt _ (by decide)
  have hpad : ∀ c ∈ padLeft 6 (n % 10 ^ 6), c.isDigit = true :=
    fun c hc => isDigit_of_mem_padLeft hc
  have hempty : (n / 10 ^ 6).repr.toList.isEmpty = false :=
    List.isEmpty_eq_false_iff.mpr (repr_ne_nil _)
  unfold mantissa
  rw [takeWhile_digits, dropWhile_digits]
  simp only [List.takeWhile_eq_self_iff.mpr hpad, List.dropWhile_eq_nil_iff.mpr hpad, hempty,
    Bool.false_and, Bool.false_eq_true, if_false, length_padLeft (by decide : 0 < 6) hlt,
    digitsValue_append, digitsValue_repr, digitsValue_padLeft]
  rw [Nat.div_add_mod']

/-- No letter is among the digits. -/
private theorem toLower_of_mem_digits {n : Nat} {c : Char} (hc : c ∈ digits n) :
    c.toLower ≠ 'i' ∧ c.toLower ≠ 'n' ∧ c.toLower ≠ 'x' := by
  have hpoint : c.isDigit = true ∨ c = '.' := by
    rcases List.mem_append.mp hc with hc | hc
    · exact .inl (isDigit_of_mem_repr hc)
    · rcases List.mem_cons.mp hc with hc | hc
      · exact .inr hc
      · exact .inl (isDigit_of_mem_padLeft hc)
  rcases hpoint with hdigit | rfl
  · have hself : c.toLower = c := by
      rw [Char.isDigit_iff_toNat] at hdigit
      refine dif_neg fun h => ?_
      have hle : 'A'.toNat ≤ c.toNat := h.1
      have hlt : '9'.toNat < 'A'.toNat := by decide
      omega
    rw [hself]
    refine ⟨?_, ?_, ?_⟩ <;>
    · rintro rfl
      exact absurd hdigit (by decide)
  · decide

/-- The text starts with no word. -/
private theorem take_map_toLower_digits {n k : Nat} {a : Char} {cs : List Char}
    (ha : ∀ c ∈ digits n, c.toLower ≠ a) (hmem : a ∈ cs) :
    (((digits n).map Char.toLower).take k == cs) = false := by
  rw [beq_eq_false_iff_ne]
  intro heq
  rw [← heq] at hmem
  obtain ⟨c, hc, hlower⟩ := List.mem_map.mp (List.mem_of_mem_take hmem)
  exact ha c hc hlower

/-- The digits are read as the millionths that they are. -/
private theorem unsignedNumber_digits (n : Nat) :
    unsignedNumber (digits n) = some (.exact (n / 10 ^ 6)) := by
  have hscale : scale n 10 (exponent 'e' [] - (6 : Nat)) = n / 10 ^ 6 := by
    show mkRat n (10 ^ 6) = n / 10 ^ 6
    rw [Rat.mkRat_eq_div]
    push_cast
    rfl
  unfold unsignedNumber
  dsimp only
  rw [take_map_toLower_digits (fun c hc => (toLower_of_mem_digits hc).1) (by decide : 'i' ∈ _),
    take_map_toLower_digits (fun c hc => (toLower_of_mem_digits hc).2.1) (by decide : 'n' ∈ _),
    take_map_toLower_digits (fun c hc => (toLower_of_mem_digits hc).2.2) (by decide : 'x' ∈ _)]
  simp only [Bool.false_eq_true, if_false, mantissa_digits, Option.map_some, hscale]

/-- The sign of a text is split off from its digits. -/
private theorem sign_digits (negative : Bool) (n : Nat) :
    sign (((if negative then ['-'] else []) ++ digits n).dropWhile isSpace) =
      (negative, digits n) := by
  obtain ⟨c, cs, hdigits, hc⟩ := digits_eq_cons n
  cases negative with
  | true => rfl
  | false => rw [if_neg Bool.false_ne_true, List.nil_append, hdigits, sign_of_isDigit hc]

/-- A number of millionths with a sign -/
def ofMillionths (negative : Bool) (n : Nat) : ℚ :=
  if negative then -((n : ℚ) / 10 ^ 6) else (n : ℚ) / 10 ^ 6

/-- The absolute value of a number of millionths -/
theorem abs_ofMillionths (negative : Bool) (n : Nat) : |ofMillionths negative n| = n / 10 ^ 6 := by
  have hnonneg : (0 : ℚ) ≤ n / 10 ^ 6 := by positivity
  unfold ofMillionths
  split
  · rw [abs_neg, abs_of_nonneg hnonneg]
  · exact abs_of_nonneg hnonneg

/-- Millionths are not among the smallest doubles. -/
private theorem not_underflow {negative : Bool} {n : Nat} {v : ℚ}
    (hround : round (ofMillionths negative n) = .fin v) :
    ¬ (v ≠ ofMillionths negative n ∧ |ofMillionths negative n| < mkRat 1 (2 ^ 1022)) := by
  rintro ⟨hne, hlt⟩
  rw [abs_ofMillionths] at hlt
  by_cases hzero : n = 0
  · have hvalue : ofMillionths negative n = 0 := by
      rw [← abs_eq_zero, abs_ofMillionths, hzero, Nat.cast_zero, zero_div]
    rw [hvalue] at hround hne
    exact hne (Binary64.fin.inj hround).symm
  · have hone : (1 : ℚ) ≤ n := by exact_mod_cast Nat.one_le_iff_ne_zero.mpr hzero
    have hsmall : (mkRat 1 (2 ^ 1022) : ℚ) ≤ 1 / 10 ^ 6 := by
      rw [Rat.mkRat_eq_div, Int.cast_one, Nat.cast_pow, Nat.cast_ofNat]
      refine one_div_le_one_div_of_le (by norm_num) ?_
      calc (10 : ℚ) ^ 6 ≤ 2 ^ 20 := by norm_num
        _ ≤ 2 ^ 1022 := pow_le_pow_right₀ (by norm_num) (by norm_num)
    have hge : (1 : ℚ) / 10 ^ 6 ≤ n / 10 ^ 6 := by gcongr
    exact absurd hlt (not_lt.mpr (hsmall.trans hge))

/-- A text of six digits is read as the double of its millionths, if that is finite. -/
theorem stod_digits {s : String} (negative : Bool) {n : Nat} {v : ℚ}
    (hs : s.toList = (if negative then ['-'] else []) ++ digits n)
    (hround : round (ofMillionths negative n) = .fin v) : stod s = .ok (.fin v) := by
  unfold stod
  rw [hs, sign_digits]
  dsimp only
  rw [unsignedNumber_digits]
  dsimp only
  have hvalue : (if negative then -((n : ℚ) / 10 ^ 6) else (n : ℚ) / 10 ^ 6) =
    ofMillionths negative n := rfl
  rw [hvalue, hround]
  exact if_neg (not_underflow hround)

/-! ## Millionths and doubles -/

/-- The six digits are at most half a millionth off. -/
theorem abs_sub_millionths_le {q : ℚ} (hq : 0 < q) : |q - millionths q / 10 ^ 6| ≤ 1 / (2 * 10 ^ 6) := by
  have hnear := @abs_sub_nearestEven_le (q.num.natAbs * 10 ^ 6) _ q.den_ne_zero
  rw [Nat.cast_mul, mul_div_right_comm, natAbs_num_div_den hq, Nat.cast_pow] at hnear
  have hscale : q - millionths q / 10 ^ 6 = (q * 10 ^ 6 - millionths q) * (1 / 10 ^ 6) := by ring
  rw [hscale, abs_mul, abs_of_pos (by norm_num : (0 : ℚ) < 1 / 10 ^ 6)]
  calc |q * 10 ^ 6 - millionths q| * (1 / 10 ^ 6) ≤ 1 / 2 * (1 / 10 ^ 6) :=
        mul_le_mul_of_nonneg_right hnear (by norm_num)
    _ = 1 / (2 * 10 ^ 6) := by norm_num

/-- Less than half of a millionth away, a number of millionths is found. -/
theorem millionths_eq {q : ℚ} {m : Nat} (hq : 0 < q) (h : |q - m / 10 ^ 6| < 1 / (2 * 10 ^ 6)) :
    millionths q = m := by
  refine nearestEven_eq_of_abs_sub_lt q.den_ne_zero ?_
  rw [Nat.cast_mul, mul_div_right_comm, natAbs_num_div_den hq, Nat.cast_pow]
  have hscale : q * ((10 : Nat) : ℚ) ^ 6 - m = (q - m / 10 ^ 6) * 10 ^ 6 := by
    push_cast
    ring
  rw [hscale, abs_mul, abs_of_pos (by norm_num : (0 : ℚ) < 10 ^ 6)]
  calc |q - m / 10 ^ 6| * 10 ^ 6 < 1 / (2 * 10 ^ 6) * 10 ^ 6 :=
        mul_lt_mul_of_pos_right h (by norm_num)
    _ = 1 / 2 := by norm_num

/-- Below `2 ^ 33` the unit is small. -/
private theorem unitOf_le {q : ℚ} (hq : 0 < q) (hlt : q < 2 ^ 33) : unitOf q ≤ -20 := by
  by_contra hgt
  have hle := le_of_unitOf hq (by omega)
  have hexp := (zpow_lt_zpow_iff_right₀ (by norm_num : (1 : ℚ) < 2)).mp
    (hle.trans_lt (show q < 2 ^ (33 : Int) from hlt))
  omega

/-- From `2 ^ 33` on it is not. -/
private theorem le_unitOf {q : ℚ} (hge : 2 ^ 33 ≤ q) : -19 ≤ unitOf q := by
  have hq : 0 < q := lt_of_lt_of_le (by norm_num) hge
  have hexp := (zpow_lt_zpow_iff_right₀ (by norm_num : (1 : ℚ) < 2)).mp
    ((show (2 : ℚ) ^ (33 : Int) ≤ q from hge).trans_lt (lt_of_unitOf hq))
  omega

/-- A power of two, times another one -/
private theorem two_zpow_add (u : Int) (k : Nat) : (2 : ℚ) ^ (u + k) = 2 ^ k * 2 ^ u := by
  rw [zpow_add₀ (by norm_num), zpow_natCast, mul_comm]

/-- Rounding does not go below 2^33. -/
private theorem le_nearest_of_le {q : ℚ} (hge : 2 ^ 33 ≤ q) : 2 ^ 33 ≤ nearest q := by
  have hq : 0 < q := lt_of_lt_of_le (by norm_num) hge
  have hunit := le_unitOf hge
  obtain ⟨n, hn, -, -, hbits⟩ := nearest_spec_bits hq
  have hnormal : (2 : ℚ) ^ 52 ≤ n := by exact_mod_cast hbits (by omega)
  rw [hn]
  calc (2 : ℚ) ^ 33 = (2 : ℚ) ^ 52 * (2 : ℚ) ^ (-19 : Int) := by norm_num
    _ ≤ (n : ℚ) * 2 ^ unitOf q :=
        mul_le_mul hnormal (zpow_le_zpow_right₀ (by norm_num) hunit) (two_zpow_pos _).le
          (Nat.cast_nonneg n)

/-- Below `2 ^ 33`, millionths are found in their double. -/
theorem millionths_nearest {m : Nat} (hm : 0 < m) (hlt : (m : ℚ) / 10 ^ 6 < 2 ^ 33)
    (hpos : 0 < nearest (m / 10 ^ 6)) : millionths (nearest (m / 10 ^ 6)) = m := by
  have hq : (0 : ℚ) < m / 10 ^ 6 := by positivity
  obtain ⟨n, hn, hle⟩ := nearest_spec hq
  have hunit : (2 : ℚ) ^ unitOf (m / 10 ^ 6) ≤ 2 ^ (-20 : Int) :=
    zpow_le_zpow_right₀ (by norm_num) (unitOf_le hq hlt)
  refine millionths_eq hpos ?_
  rw [hn, abs_sub_comm]
  calc |(m : ℚ) / 10 ^ 6 - n * 2 ^ unitOf (m / 10 ^ 6)| ≤ 2 ^ unitOf (m / 10 ^ 6) / 2 := hle
    _ ≤ 2 ^ (-20 : Int) / 2 := by gcongr
    _ < 1 / (2 * 10 ^ 6) := by norm_num

/-- From `2 ^ 33` on, a double is found in its millionths. -/
theorem nearest_millionths {q : ℚ} (hge : 2 ^ 33 ≤ q) (hproper : nearest q = q) :
    nearest (millionths q / 10 ^ 6) = q := by
  have hq : 0 < q := lt_of_lt_of_le (by norm_num) hge
  have hunit := le_unitOf hge
  obtain ⟨n, hn, -, -, hbits⟩ := nearest_spec_bits hq
  rw [hproper] at hn
  have hnormal := hbits (by omega)
  have hupper := lt_of_unitOf hq
  have hnear := abs_sub_millionths_le hq
  generalize hu : unitOf q = u at hn hunit hupper
  have hpos := two_zpow_pos u
  -- from 2^33 on the unit is larger than a millionth
  have hsmall : (1 : ℚ) / (2 * 10 ^ 6) < 2 ^ u / 2 := by
    calc (1 : ℚ) / (2 * 10 ^ 6) < 2 ^ (-19 : Int) / 2 := by norm_num
      _ ≤ 2 ^ u / 2 := by gcongr; norm_num
  rw [show u + 53 = u + (53 : Nat) from rfl, two_zpow_add] at hupper
  have hlt : n < 2 ^ 53 := by
    rw [hn] at hupper
    exact_mod_cast lt_of_mul_lt_mul_right hupper hpos.le
  rcases hnormal.lt_or_eq with hgt | heq
  · -- the next doubles are one unit away on both sides
    have hlower : ((2 : ℚ) ^ 52 + 1) * 2 ^ u ≤ q := by
      rw [hn]
      exact mul_le_mul_of_nonneg_right (by exact_mod_cast hgt) hpos.le
    have hupper' : q ≤ ((2 : ℚ) ^ 53 - 1) * 2 ^ u := by
      rw [hn]
      refine mul_le_mul_of_nonneg_right ?_ hpos.le
      rw [le_sub_iff_add_le]
      exact_mod_cast hlt
    obtain ⟨hbelow, habove⟩ := abs_le.mp hnear
    have hr : (0 : ℚ) < millionths q / 10 ^ 6 := by linarith
    have hsame : unitOf (millionths q / 10 ^ 6) = u := by
      refine unitOf_eq hr (by omega) ?_ (.inr ?_)
      · rw [show u + 53 = u + (53 : Nat) from rfl, two_zpow_add]
        linarith
      · rw [show u + 52 = u + (52 : Nat) from rfl, two_zpow_add]
        linarith
    have hnear' := nearest_eq (m := n) hr (by rw [hsame, ← hn, abs_sub_comm]; linarith)
    rw [hnear', hsame, hn]
  · -- a power of two is an integer
    obtain ⟨k, hk⟩ := Int.eq_ofNat_of_zero_le (by omega : 0 ≤ u + 52)
    have hinteger : q = (2 ^ k : Nat) := by
      rw [hn, ← heq, Nat.cast_pow, Nat.cast_ofNat, ← two_zpow_add,
        show u + (52 : Nat) = k from hk, zpow_natCast, Nat.cast_pow, Nat.cast_ofNat]
    have hmillionths : millionths q = 2 ^ k * 10 ^ 6 := by
      refine millionths_eq hq ?_
      rw [hinteger, Nat.cast_mul, Nat.cast_pow 10, Nat.cast_ofNat, mul_div_cancel_right₀ _ (by norm_num),
        sub_self, abs_zero]
      norm_num
    rw [hmillionths, Nat.cast_mul, Nat.cast_pow 10, Nat.cast_ofNat,
      mul_div_cancel_right₀ _ (by norm_num), ← hinteger, hproper]

/-! ## Doubles -/

/-- A `double` that is a decimal of at most six digits after the point; `DBL_MAX` is one. -/
def IsDecimal (x : Binary64) : Prop := ∃ m : Int, x = round (m / 10 ^ 6)

/-- A number with six digits is a double. -/
theorem IsDecimal.proper {x : Binary64} (hx : x.IsDecimal) : x.Proper := by
  obtain ⟨m, rfl⟩ := hx
  exact proper_round _

/-- The negative of a number with six digits -/
theorem IsDecimal.neg {x : Binary64} (hx : x.IsDecimal) : x.neg.IsDecimal := by
  obtain ⟨m, rfl⟩ := hx
  refine ⟨-m, ?_⟩
  rw [← round_neg]
  push_cast
  rw [neg_div]

/-- A whole number is a decimal. -/
theorem isDecimal_ofInt (n : Int) : (round n).IsDecimal := by
  refine ⟨n * 10 ^ 6, ?_⟩
  rw [Int.cast_mul, Int.cast_pow, Int.cast_ofNat, mul_div_cancel_right₀ _ (by norm_num)]

/-- `DBL_MAX` is an integer. -/
theorem isDecimal_dblMax : (Double.dblMax : Binary64).IsDecimal := by
  have hmax : (Double.dblMax : Binary64) = round ((2 ^ 1024 - 2 ^ 971 : Int) : ℚ) := by
    rw [Int.cast_sub, Int.cast_pow, Int.cast_pow, Int.cast_ofNat]
    exact proper_dblMax.symm
  rw [hmax]
  exact isDecimal_ofInt _

/-- Rounding at most doubles a number, and one. -/
private theorem nearest_le {q : ℚ} (hq : 0 < q) : nearest q ≤ 2 * q + 1 := by
  obtain ⟨n, hn, hle⟩ := nearest_spec hq
  have hunit : (2 : ℚ) ^ unitOf q ≤ q + 1 := by
    by_cases hmin : unitOf q = -1074
    · have hone : (2 : ℚ) ^ unitOf q ≤ 1 := zpow_le_one_of_nonpos₀ (by norm_num) (by omega)
      linarith
    · have hge := le_of_unitOf hq (lt_of_le_of_ne (unitOf_ge q) (Ne.symm hmin))
      have hmono : (2 : ℚ) ^ unitOf q ≤ 2 ^ (unitOf q + 52) :=
        zpow_le_zpow_right₀ (by norm_num) (by omega)
      linarith
  rw [hn]
  have := (abs_le.mp hle).1
  linarith

/-- The double of the millionths of a positive double is finite, and it is that double if this is a
    decimal. -/
private theorem round_millionths {q : ℚ} (hq : 0 < q) (hx : (Binary64.fin q).Proper) :
    ∃ v, round (millionths q / 10 ^ 6) = .fin v ∧ ((Binary64.fin q).IsDecimal → v = q) := by
  obtain ⟨hnearest, hrange⟩ := nearest_of_proper hq hx
  rcases lt_or_ge q (2 ^ 33) with hlt | hge
  · -- below 2^33 a number with six digits comes back
    obtain ⟨v, hv⟩ : ∃ v, round (millionths q / 10 ^ 6) = .fin v := by
      by_cases hzero : millionths q = 0
      · exact ⟨0, by rw [hzero, Nat.cast_zero, zero_div, round_zero]⟩
      · have hpos : (0 : ℚ) < millionths q / 10 ^ 6 := by
          have : (0 : ℚ) < millionths q := by exact_mod_cast Nat.pos_of_ne_zero hzero
          positivity
        have hclose := (abs_le.mp (abs_sub_millionths_le hq)).1
        have hle := nearest_le hpos
        have hfinite : ¬ (2 : ℚ) ^ 1024 ≤ nearest (millionths q / 10 ^ 6) := by
          rw [not_le]
          calc nearest (millionths q / 10 ^ 6) < 2 ^ 35 := by linarith
            _ ≤ 2 ^ 1024 := pow_le_pow_right₀ (by norm_num) (by norm_num)
        exact ⟨_, by rw [round_of_pos hpos, if_neg hfinite]⟩
    refine ⟨v, hv, ?_⟩
    rintro ⟨m, hm⟩
    -- the millionths of a positive number are positive
    have hm0 : 0 < m := by
      by_contra hle
      rcases (not_lt.mp hle).lt_or_eq with hneg | hzero
      · have hpos : (0 : ℚ) < -(m / 10 ^ 6) := by
          have : (m : ℚ) < 0 := by exact_mod_cast hneg
          rw [← neg_div]
          exact div_pos (by linarith) (by norm_num)
        rw [← neg_neg ((m : ℚ) / 10 ^ 6), round_neg, round_of_pos hpos] at hm
        have hnonneg := nearest_nonneg hpos
        split at hm
        · exact nomatch hm
        · have := Binary64.fin.inj hm
          linarith
      · rw [hzero, Int.cast_zero, zero_div, round_zero] at hm
        exact hq.ne' (Binary64.fin.inj hm)
    obtain ⟨n, rfl⟩ := Int.eq_ofNat_of_zero_le hm0.le
    have hn : 0 < n := by exact_mod_cast hm0
    have hpos : (0 : ℚ) < n / 10 ^ 6 := by
      have : (0 : ℚ) < n := by exact_mod_cast hn
      positivity
    rw [Int.cast_natCast, round_of_pos hpos] at hm
    have hdecimal : q = nearest (n / 10 ^ 6) := by
      split at hm
      · exact nomatch hm
      · exact Binary64.fin.inj hm
    have hsmall : (n : ℚ) / 10 ^ 6 < 2 ^ 33 := by
      by_contra hbig
      have hge := le_nearest_of_le (not_lt.mp hbig)
      rw [← hdecimal] at hge
      exact absurd hlt (not_lt.mpr hge)
    rw [hdecimal, millionths_nearest hn hsmall (hdecimal ▸ hq), round_of_pos hpos, ← hdecimal,
      if_neg (not_le.mpr hrange)] at hv
    exact (Binary64.fin.inj hv).symm
  · -- from 2^33 on every double comes back
    have hfound := nearest_millionths hge hnearest
    have hpos : (0 : ℚ) < millionths q / 10 ^ 6 := by
      have hclose := (abs_le.mp (abs_sub_millionths_le hq)).2
      linarith
    refine ⟨q, ?_, fun _ => rfl⟩
    rw [round_of_pos hpos, hfound, if_neg (not_le.mpr hrange)]

/-- The millionths have no sign. -/
theorem millionths_neg (q : ℚ) : millionths (-q) = millionths q := by
  unfold millionths
  rw [Rat.num_neg_eq_neg_num, Rat.den_neg_eq_den, Int.natAbs_neg]

/-- A double is written with its sign and its millionths, and read as the double of these. -/
private theorem exists_stod_toString {q : ℚ} (hx : (Binary64.fin q).Proper) :
    ∃ v, stod (Binary64.fin q).toString = .ok (.fin v) ∧
      ((Binary64.fin q).IsDecimal → v = q) := by
  have htext := toString_fin q
  rcases lt_trichotomy q 0 with hq | rfl | hq
  · obtain ⟨v, hv, hdecimal⟩ := round_millionths (neg_pos.mpr hq) (proper_neg hx)
    rw [millionths_neg] at hv
    refine ⟨-v, stod_digits true (by rw [htext, if_pos hq]; rfl) ?_, fun h => ?_⟩
    · show round (-(millionths q / 10 ^ 6)) = _
      rw [round_neg, hv]
      rfl
    · rw [hdecimal h.neg, neg_neg]
  · exact ⟨0, by decide +kernel, fun _ => rfl⟩
  · obtain ⟨v, hv, hdecimal⟩ := round_millionths hq hx
    exact ⟨v, stod_digits false (by rw [htext, if_neg hq.not_gt]; rfl) hv, hdecimal⟩

/-- What is written to six digits is read. -/
theorem stod_toString {x : Binary64} (hx : x.Proper) : ∃ y, stod x.toString = .ok y := by
  cases x with
  | nan => exact ⟨.nan, by decide +kernel⟩
  | inf negative => exact ⟨.inf negative, by cases negative <;> decide +kernel⟩
  | fin q =>
    obtain ⟨v, hv, -⟩ := exists_stod_toString hx
    exact ⟨.fin v, hv⟩

/-- A decimal of six digits is read back. -/
theorem IsDecimal.stod_toString {x : Binary64} (hx : x.IsDecimal) : stod x.toString = .ok x := by
  cases x with
  | nan => decide +kernel
  | inf negative => cases negative <;> decide +kernel
  | fin q =>
    obtain ⟨v, hv, hdecimal⟩ := exists_stod_toString hx.proper
    rw [hv, hdecimal hx]

/-- What is read is a double. -/
theorem proper_stod {s : String} {x : Binary64} (h : stod s = .ok x) : x.Proper := by
  unfold stod at h
  dsimp only at h
  split at h
  · exact nomatch h
  · cases h
    trivial
  · cases h
    trivial
  · next q _ =>
    generalize (if (sign (s.toList.dropWhile isSpace)).1 = true then -q else q) = q' at h
    split at h
    · next v hv =>
      split at h
      · exact nomatch h
      · cases h
        rw [← hv]
        exact proper_round q'
    · exact nomatch h

/-- The number before the point -/
def whole : Binary64 → Option Int
  | .fin q =>
    let n : Int := (millionths q / 10 ^ 6 : Nat)
    some (if q < 0 then -n else n)
  | _ => none

/-- The digits before the point are read, if they are a `long`. -/
theorem stol_toString (x : Binary64) :
    stol x.toString = match x.whole with
      | none => .error (.invalidArgument "stol")
      | some n =>
        if n < -2 ^ 63 ∨ 2 ^ 63 ≤ n then .error (.outOfRange "stol") else .ok (Int64.ofInt n) := by
  cases x with
  | nan => decide +kernel
  | inf negative => cases negative <;> decide +kernel
  | fin q =>
    have hempty : (millionths q / 10 ^ 6).repr.toList.isEmpty = false :=
      List.isEmpty_eq_false_iff.mpr (repr_ne_nil _)
    have hsign : sign ((Binary64.fin q).toString.toList.dropWhile isSpace) =
        (decide (q < 0), digits (millionths q)) := by
      rw [toString_fin, ← sign_digits]
      simp only [decide_eq_true_eq]
    unfold stol
    rw [hsign]
    simp only [takeWhile_digits, hempty, digitsValue_repr, Bool.false_eq_true, if_false,
      decide_eq_true_eq]
    rfl

end Binary64

/-! ## The type -/

/-- A `double`: nothing else is a value of the type. -/
def Float64 : Type := { x : Binary64 // x.Proper }

namespace Float64

instance : DecidableEq Float64 := inferInstanceAs (DecidableEq { x : Binary64 // x.Proper })

/-- The `double` nearest to a rational -/
def ofRat (q : ℚ) : Float64 := ⟨Binary64.round q, Binary64.proper_round q⟩

instance : Inhabited Float64 := ⟨ofRat 0⟩

instance : Double Float64 where
  dblMax := ⟨Double.dblMax, Binary64.proper_dblMax⟩
  ofInt n := ofRat n

/-- `std::to_string` -/
def toText (x : Float64) : String := x.val.toString

/-- `std::stod` -/
def stod (s : String) : Except Exception Float64 :=
  match h : Cxx.stod s with
  | .ok x => .ok ⟨x, Binary64.proper_stod h⟩
  | .error e => .error e

/-- The conversion to an `int`; 0 stands for what is undefined, outside of its range. -/
def toInt32 (x : Float64) : Int32 :=
  match x.val with
  | .fin q =>
    let n := if q < 0 then -(-q).floor else q.floor
    if -2 ^ 31 ≤ n ∧ n < 2 ^ 31 then Int32.ofInt n else 0
  | _ => 0

/-- A decimal of at most six digits after the point -/
def IsDecimal (x : Float64) : Prop := x.val.IsDecimal

/-- What is read where a `double` is written -/
def shown (x : Float64) : Float64 :=
  match stod x.toText with
  | .ok y => y
  | .error _ => x

/-- The reading of a double by its text -/
theorem stod_of_stod {s : String} {x : Float64} (h : Cxx.stod s = .ok x.val) : stod s = .ok x := by
  unfold stod
  split
  · next y hy =>
    rw [h] at hy
    exact congrArg Except.ok (Subtype.ext (Except.ok.inj hy).symm)
  · next e he =>
    rw [h] at he
    exact nomatch he

/-- What is written is read. -/
theorem stod_toText (x : Float64) : stod x.toText = .ok x.shown := by
  obtain ⟨y, hy⟩ := Binary64.stod_toString x.property
  have hread : stod x.toText = .ok ⟨y, Binary64.proper_stod hy⟩ := stod_of_stod hy
  rw [shown, hread]

/-- A decimal is read back. -/
theorem IsDecimal.shown {x : Float64} (hx : x.IsDecimal) : x.shown = x := by
  have hread : stod x.toText = .ok x := stod_of_stod (Binary64.IsDecimal.stod_toString hx)
  rw [stod_toText] at hread
  exact Except.ok.inj hread

theorem isDecimal_dblMax : (Double.dblMax : Float64).IsDecimal := Binary64.isDecimal_dblMax

/-- The `double` nearest to a number of millionths -/
def ofMillionths (m : Int) : Float64 := ofRat (m / 10 ^ 6)

/-- A number of millionths has six digits. -/
theorem isDecimal_ofMillionths (m : Int) : (ofMillionths m).IsDecimal := ⟨m, rfl⟩

/-- Zero has six digits. -/
theorem isDecimal_default : (default : Float64).IsDecimal := by
  refine ⟨0, ?_⟩
  rw [Int.cast_zero, zero_div]
  rfl

end Float64

open Text in
/-- An `int` in decimal notation is read back. -/
theorem stol_toString (n : Int32) : stol (toString n.toInt) = .ok n.toInt64 := by
  have hlower := n.le_toInt
  have hupper := n.toInt_lt
  unfold stol
  cases hn : n.toInt with
  | ofNat m =>
    have hsign : sign ((toString (Int.ofNat m)).toList.dropWhile isSpace) =
        (false, m.repr.toList) := sign_repr m
    have hempty : m.repr.toList.isEmpty = false := List.isEmpty_eq_false_iff.mpr (repr_ne_nil m)
    rw [hsign]
    simp only [takeWhile_repr, hempty, digitsValue_repr, Bool.false_eq_true, if_false]
    rw [← Int.ofNat_eq_natCast, ← hn, if_neg (by omega)]
    rfl
  | negSucc m =>
    have hsign : sign ((toString (Int.negSucc m)).toList.dropWhile isSpace) =
        (true, (m + 1).repr.toList) := by
      rw [show (toString (Int.negSucc m)) = "-" ++ (m + 1).repr from rfl, String.toList_append]
      rfl
    have hempty : (m + 1).repr.toList.isEmpty = false :=
      List.isEmpty_eq_false_iff.mpr (repr_ne_nil _)
    rw [hsign]
    simp only [takeWhile_repr, hempty, digitsValue_repr, Bool.false_eq_true, if_false, if_true]
    rw [Int.natCast_succ, ← Int.negSucc_eq, ← hn, if_neg (by omega)]
    rfl

end Cxx
