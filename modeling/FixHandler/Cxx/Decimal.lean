import Mathlib
import FixHandler.Cxx.Binary64
import FixHandler.Cxx.Text

/-!
# Doubles as decimal text

The formats `%.<precision>g` and `%.<precision>f` of `printf`, and what integers become when they are
written through the first: their digits, as long as there are not more of them than the precision,
and a text with an exponent otherwise.

## Key results

- `ofNat_eq_fin`: an integer below `2 ^ 53` is a `double`
- `formatG_ofNat_small`: to 15 digits, an integer below `10 ^ 15` is written as it is
- `e_mem_formatG_ofNat`: a larger one is written with an exponent
-/

namespace Cxx

namespace Binary64

/-- The operator `+` -/
def add : Binary64 → Binary64 → Binary64
  | .nan, _ => .nan
  | _, .nan => .nan
  | .inf a, .inf b => if a = b then .inf a else .nan
  | .inf a, .fin _ => .inf a
  | .fin _, .inf b => .inf b
  | .fin x, .fin y => round (x + y)

/-- The conversion to `std::uint64_t`; 0 stands for what is undefined, outside of its range. -/
def toUInt64 : Binary64 → UInt64
  | .fin q => if 0 ≤ q ∧ q < 2 ^ 64 then .ofNat q.floor.toNat else 0
  | _ => 0

/-! ## The format -/

/-- `⌊log₁₀ (num / den)⌋` for positive `num` and `den`. -/
def floorLog10 (num den : Nat) : Int :=
  if den ≤ num then Nat.log 10 (num / den) else -(Nat.clog 10 ((den + num - 1) / num) : Int)

/-- `n` with zeros in front, `width` digits at least -/
def padLeft (width n : Nat) : List Char :=
  List.replicate (width - n.repr.length) '0' ++ n.repr.toList

/-- Digits with a point, without the zeros at the end -/
def withPoint (whole : Nat) (fraction : List Char) : List Char :=
  let fraction := fraction.rdropWhile (· == '0')
  whole.repr.toList ++ if fraction.isEmpty then [] else '.' :: fraction

/-- The digits of `num / den` to the precision, the first of them with the place `x`; they are not
    fewer when rounding carries. -/
def significant (precision num den : Nat) : Nat × Int :=
  let x := floorLog10 num den
  let shift := (precision : Int) - 1 - x
  let m :=
    if 0 ≤ shift then nearestEven (num * 10 ^ shift.toNat) den
    else nearestEven num (den * 10 ^ (-shift).toNat)
  if m = 10 ^ precision then (10 ^ (precision - 1), x + 1) else (m, x)

/-- A positive number in the format `%.<precision>g` -/
def formatPositive (precision num den : Nat) : List Char :=
  let (m, x) := significant precision num den
  if -4 ≤ x ∧ x < precision then
    let places := ((precision : Int) - 1 - x).toNat
    withPoint (m / 10 ^ places) (padLeft places (m % 10 ^ places))
  else
    withPoint (m / 10 ^ (precision - 1)) (padLeft (precision - 1) (m % 10 ^ (precision - 1))) ++
      'e' :: (if x < 0 then '-' else '+') :: padLeft 2 x.natAbs

/-- The format `%.<precision>g` -/
def formatG (precision : Nat) : Binary64 → List Char
  | .nan => "nan".toList
  | .inf true => "-inf".toList
  | .inf false => "inf".toList
  | .fin q =>
    if q = 0 then ['0']
    else (if q < 0 then ['-'] else []) ++ formatPositive precision q.num.natAbs q.den

/-- The format `%.<precision>f` -/
def formatF (precision : Nat) : Binary64 → List Char
  | .nan => "nan".toList
  | .inf true => "-inf".toList
  | .inf false => "inf".toList
  | .fin q =>
    let n := nearestEven (q.num.natAbs * 10 ^ precision) q.den
    (if q < 0 then ['-'] else []) ++ (n / 10 ^ precision).repr.toList ++
      '.' :: padLeft precision (n % 10 ^ precision)

/-! ## Integers -/

/-- An integer is its own nearest one. -/
theorem nearestEven_one (n : Nat) : nearestEven n 1 = n := by
  simp [nearestEven, Nat.mod_one]

/-- The nearest integer is not below the quotient. -/
theorem le_nearestEven (num den : Nat) : num / den ≤ nearestEven num den := by
  unfold nearestEven
  dsimp only
  split
  · exact Nat.le_refl _
  · split
    · exact Nat.le_succ _
    · split
      · exact Nat.le_refl _
      · exact Nat.le_succ _

/-- The nearest integer is at most one above the quotient. -/
theorem nearestEven_le (num den : Nat) : nearestEven num den ≤ num / den + 1 := by
  unfold nearestEven
  dsimp only
  split
  · exact Nat.le_succ _
  · split
    · exact Nat.le_refl _
    · split
      · exact Nat.le_succ _
      · exact Nat.le_refl _

/-- The exponent of an integer -/
theorem floorLog2_one {n : Nat} (hn : n ≠ 0) : floorLog2 n 1 = Nat.log2 n := by
  have hle := Nat.log2_self_le hn
  have hone : Nat.log2 1 = 0 := by decide
  unfold floorLog2
  simp [hone, Nat.not_lt.mpr hle]

/-- An integer is rounded to itself if it is small, and otherwise to an integer that is neither
    below `2 ^ 52` nor above its double. -/
theorem roundRatio_one {n : Nat} (hn : n ≠ 0) :
    (n < 2 ^ 53 → roundRatio n 1 = n) ∧
      (2 ^ 53 ≤ n → ∃ v : Nat, roundRatio n 1 = v ∧ 2 ^ 52 ≤ v ∧ v ≤ 2 * n) := by
  have hlog := Nat.log2_self_le hn
  have hlt : n < 2 ^ (n.log2 + 1) := Nat.lt_log2_self
  have he : max (floorLog2 n 1 - 52) (-1074) = (n.log2 : Int) - 52 := by
    rw [floorLog2_one hn]
    omega
  unfold roundRatio
  rw [he]
  by_cases hlog52 : n.log2 < 52
  · -- all bits of the integer are kept, and there is room for more
    have hneg : ¬ (0 : Int) ≤ (n.log2 : Int) - 52 := by omega
    have hsmall : n < 2 ^ 53 :=
      Nat.lt_of_lt_of_le hlt (Nat.pow_le_pow_right (by decide) (by omega))
    refine ⟨fun _ => ?_, fun h => absurd hsmall (by omega)⟩
    dsimp only
    rw [if_neg hneg, nearestEven_one, Rat.mkRat_eq_div]
    push_cast
    exact mul_div_cancel_right₀ _ (by positivity)
  · obtain ⟨e, he'⟩ := Nat.exists_eq_add_of_le (Nat.le_of_not_lt hlog52)
    have hcast : (n.log2 : Int) - 52 = e := by omega
    dsimp only
    rw [hcast, if_pos (Int.natCast_nonneg e), Int.toNat_natCast, Nat.one_mul]
    rw [he'] at hlog hlt
    cases e with
    | zero =>
      refine ⟨fun _ => ?_, fun h => absurd hlt (by omega)⟩
      rw [Nat.pow_zero, nearestEven_one, Nat.mul_one]
    | succ e =>
      -- bits are dropped, and what is left is within a factor of two
      have hbig : 2 ^ 53 ≤ n := Nat.le_trans (Nat.pow_le_pow_right (by decide) (by omega)) hlog
      refine ⟨fun h => absurd h (by omega), fun _ => ⟨_, rfl, ?_, ?_⟩⟩
      · have hquotient : 2 ^ 52 ≤ n / 2 ^ (e + 1) := by
          rw [Nat.le_div_iff_mul_le (by positivity), ← Nat.pow_add]
          exact hlog
        calc 2 ^ 52 ≤ n / 2 ^ (e + 1) := hquotient
          _ ≤ nearestEven n (2 ^ (e + 1)) := le_nearestEven _ _
          _ ≤ nearestEven n (2 ^ (e + 1)) * 2 ^ (e + 1) := Nat.le_mul_of_pos_right _ (by positivity)
      · have hstep : 2 ^ (e + 1) ≤ n :=
          Nat.le_trans (Nat.pow_le_pow_right (by decide) (by omega)) hlog
        calc nearestEven n (2 ^ (e + 1)) * 2 ^ (e + 1)
            ≤ (n / 2 ^ (e + 1) + 1) * 2 ^ (e + 1) := Nat.mul_le_mul_right _ (nearestEven_le _ _)
          _ = n / 2 ^ (e + 1) * 2 ^ (e + 1) + 2 ^ (e + 1) := Nat.succ_mul _ _
          _ ≤ n + n := Nat.add_le_add (Nat.div_mul_le_self _ _) hstep
          _ = 2 * n := (Nat.two_mul n).symm

/-- What a positive integer becomes is what it is rounded to, far from the end of the range. -/
theorem round_natCast {n v : Nat} (hn : n ≠ 0) (hv : roundRatio n 1 = v) (hlt : v < 2 ^ 65) :
    round n = .fin v := by
  have hcast : (n : ℚ) ≠ 0 := Nat.cast_ne_zero.mpr hn
  have hrange : ¬ (2 ^ 1024 : ℚ) ≤ v := by
    rw [not_le]
    calc (v : ℚ) < 2 ^ 65 := by exact_mod_cast hlt
      _ ≤ 2 ^ 1024 := pow_le_pow_right₀ (by norm_num) (by norm_num)
  unfold round
  rw [if_neg hcast, Rat.num_natCast, Rat.den_natCast, Int.natAbs_natCast, hv]
  dsimp only
  rw [if_neg hrange, if_neg (not_lt.mpr (Nat.cast_nonneg n))]

/-- An integer below `2 ^ 53` is a `double`. -/
theorem ofNat_eq_fin {n : Nat} (hn : n < 2 ^ 53) : ofNat n = .fin n := by
  by_cases hzero : n = 0
  · rw [hzero]
    rfl
  · exact round_natCast hzero ((roundRatio_one hzero).1 hn) (by omega)

/-- A large integer of 64 bits becomes an integer that is large too. -/
theorem ofNat_large {n : Nat} (hn : 2 ^ 53 ≤ n) (hlt : n < 2 ^ 64) :
    ∃ v : Nat, ofNat n = .fin v ∧ 2 ^ 52 ≤ v := by
  have hzero : n ≠ 0 := by omega
  obtain ⟨v, hv, hle, hle2⟩ := (roundRatio_one hzero).2 hn
  exact ⟨v, round_natCast hzero hv (by omega), hle⟩

/-! ## The texts of integers -/

/-- The decimal exponent of an integer -/
theorem floorLog10_one {n : Nat} (hn : n ≠ 0) : floorLog10 n 1 = Nat.log 10 n := by
  unfold floorLog10
  rw [if_pos (Nat.one_le_iff_ne_zero.mpr hn), Nat.div_one]

/-- Only zeros follow the point of an integer, and they are not written. -/
theorem withPoint_padLeft_zero (n width : Nat) : withPoint n (padLeft width 0) = n.repr.toList := by
  have hzeros : (padLeft width 0).rdropWhile (· == '0') = [] := by
    rw [List.rdropWhile_eq_nil_iff]
    intro c hc
    unfold padLeft at hc
    rcases List.mem_append.mp hc with h | h
    · rw [(List.mem_replicate.mp h).2]
      rfl
    · have hrepr : (0 : Nat).repr.toList = ['0'] := by decide
      rw [hrepr, List.mem_singleton] at h
      rw [h]
      rfl
  unfold withPoint
  rw [hzeros]
  exact List.append_nil _

/-- An integer with no more digits than the precision is written with its digits. -/
theorem formatPositive_natCast {precision n : Nat} (hn : n ≠ 0) (hlt : n < 10 ^ precision) :
    formatPositive precision n 1 = n.repr.toList := by
  have hlog : Nat.log 10 n < precision := Nat.log_lt_of_lt_pow hn hlt
  obtain ⟨places, hplaces⟩ := Nat.exists_eq_add_of_lt hlog
  have hshift : (precision : Int) - 1 - (Nat.log 10 n : Int) = places := by omega
  have hdigits : n * 10 ^ places < 10 ^ precision := by
    calc n * 10 ^ places < 10 ^ (Nat.log 10 n + 1) * 10 ^ places :=
          Nat.mul_lt_mul_of_pos_right (Nat.lt_pow_succ_log_self (by decide) n) (by positivity)
      _ = 10 ^ precision := by rw [← Nat.pow_add, hplaces]; congr 1; omega
  have hsignificant : significant precision n 1 = (n * 10 ^ places, (Nat.log 10 n : Int)) := by
    unfold significant
    dsimp only
    rw [floorLog10_one hn, hshift, if_pos (Int.natCast_nonneg places), Int.toNat_natCast,
      nearestEven_one, if_neg (Nat.ne_of_lt hdigits)]
  unfold formatPositive
  rw [hsignificant]
  dsimp only
  rw [if_pos (by omega), hshift, Int.toNat_natCast, Nat.mul_div_cancel _ (by positivity),
    Nat.mul_mod_left, withPoint_padLeft_zero]

/-- Rounding to some digits makes the exponent no smaller. -/
theorem le_significant (precision num den : Nat) :
    floorLog10 num den ≤ (significant precision num den).2 := by
  have hcarry (m : Nat) (x : Int) :
      x ≤ (if m = 10 ^ precision then (10 ^ (precision - 1), x + 1) else (m, x)).2 := by
    split
    · exact Int.le_add_one (Int.le_refl _)
    · exact Int.le_refl _
  exact hcarry _ _

/-- An integer with more digits than the precision is written with an exponent. -/
theorem e_mem_formatPositive {precision n : Nat} (hle : 10 ^ precision ≤ n) :
    'e' ∈ formatPositive precision n 1 := by
  have hn : n ≠ 0 := by
    have := Nat.pos_of_ne_zero (pow_ne_zero precision (by decide : (10 : Nat) ≠ 0))
    omega
  have hlog : precision ≤ Nat.log 10 n := Nat.le_log_of_pow_le (by decide) hle
  have hx := le_significant precision n 1
  rw [floorLog10_one hn] at hx
  unfold formatPositive
  generalize significant precision n 1 = digits at hx
  obtain ⟨m, x⟩ := digits
  dsimp only at hx ⊢
  rw [if_neg (by omega)]
  exact List.mem_append_right _ List.mem_cons_self

/-- The texts of the integers of 64 bits, to a precision of 15 digits -/
theorem formatG_ofNat_small {n : Nat} (hlt : n < 10 ^ 15) :
    formatG 15 (ofNat n) = n.repr.toList := by
  rw [ofNat_eq_fin (by omega)]
  by_cases hn : n = 0
  · rw [hn]
    decide
  · have hcast : (n : ℚ) ≠ 0 := Nat.cast_ne_zero.mpr hn
    unfold formatG
    dsimp only
    rw [if_neg hcast, if_neg (not_lt.mpr (Nat.cast_nonneg n)), Rat.num_natCast, Rat.den_natCast,
      Int.natAbs_natCast, formatPositive_natCast hn hlt, List.nil_append]

/-- An integer of more than 15 digits is written with an exponent. -/
theorem e_mem_formatG_ofNat {n : Nat} (hle : 10 ^ 15 ≤ n) (hlt : n < 2 ^ 64) :
    'e' ∈ formatG 15 (ofNat n) := by
  obtain ⟨v, hv, hlev⟩ : ∃ v : Nat, ofNat n = .fin v ∧ 10 ^ 15 ≤ v := by
    by_cases hsmall : n < 2 ^ 53
    · exact ⟨n, ofNat_eq_fin hsmall, hle⟩
    · obtain ⟨v, hv, hlev⟩ := ofNat_large (Nat.le_of_not_lt hsmall) hlt
      exact ⟨v, hv, by omega⟩
  have hcast : (v : ℚ) ≠ 0 := Nat.cast_ne_zero.mpr (by omega)
  rw [hv]
  unfold formatG
  dsimp only
  rw [if_neg hcast, if_neg (not_lt.mpr (Nat.cast_nonneg v)), Rat.num_natCast, Rat.den_natCast,
    Int.natAbs_natCast, List.nil_append]
  exact e_mem_formatPositive hlev

end Binary64

end Cxx
