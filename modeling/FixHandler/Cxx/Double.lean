import Mathlib
import FixHandler.Cxx.Binary64

/-!
# Rounding to a `double`

What `Binary64.round` makes of a rational: a multiple of a power of two, at most half of that power
away, and the only such multiple that is less than half of it away.

## Key results

- `roundRatio_eq`: a rational near a multiple is rounded to it
- `abs_sub_roundRatio_le`: the distance of a rational to what it is rounded to
- `proper_round`: what is rounded once stays as it is
-/

namespace Cxx

/-- What a `double` needs that is only passed on, and compared with `DBL_MAX` -/
class Double (α : Type) where
  /-- `DBL_MAX` -/
  dblMax : α
  /-- The conversion of an integer -/
  ofInt : Int → α

namespace Binary64

instance : Inhabited Binary64 := ⟨.fin 0⟩

instance : Double Binary64 where
  dblMax := .fin (2 ^ 1024 - 2 ^ 971)
  ofInt n := round n

/-- A `double` in the range of its type: rounding leaves it as it is. -/
def Proper : Binary64 → Prop
  | .fin q => round q = .fin q
  | _ => True

/-- The sign changed -/
def neg : Binary64 → Binary64
  | .nan => .nan
  | .inf negative => .inf (!negative)
  | .fin q => .fin (-q)

/-! ## The nearest integer -/

/-- A ratio less than a half away from an integer is rounded to it. -/
theorem nearestEven_eq {num den n : Nat} (hlower : 2 * n * den < 2 * num + den)
    (hupper : 2 * num < (2 * n + 1) * den) : nearestEven num den = n := by
  have hmod := Nat.div_add_mod num den
  have hpos : 0 < den := by
    by_contra hzero
    rw [Nat.eq_zero_of_not_pos hzero] at hlower hupper
    omega
  have hlt := Nat.mod_lt num hpos
  unfold nearestEven
  generalize num / den = q at hmod
  generalize num % den = r at hmod hlt
  -- the quotient is the integer or the one below it
  have hq : q ≤ n := by
    by_contra hn
    have hle : (2 * n + 1) * den ≤ 2 * q * den := Nat.mul_le_mul_right den (by omega)
    have hcomm : 2 * q * den = 2 * (den * q) := by ring
    omega
  have hn : n ≤ q + 1 := by
    by_contra hn
    have hle : (2 * q + 3) * den ≤ 2 * n * den - den := by
      have : (2 * q + 4) * den ≤ 2 * n * den := Nat.mul_le_mul_right den (by omega)
      have hexpand : (2 * q + 4) * den = (2 * q + 3) * den + den := by ring
      omega
    have hexpand : (2 * q + 3) * den = 2 * (den * q) + 3 * den := by ring
    omega
  dsimp only
  rcases Nat.lt_or_ge q n with hlt' | hge
  · -- the integer is above the quotient
    have hsucc : n = q + 1 := by omega
    have hexpand : 2 * n * den = 2 * (den * q) + 2 * den := by rw [hsucc]; ring
    rw [if_neg (by omega), if_pos (by omega), hsucc]
  · have heq : n = q := by omega
    have hexpand : (2 * n + 1) * den = 2 * (den * q) + den := by rw [heq]; ring
    rw [if_pos (by omega), heq]

/-- A ratio is at most a half away from the integer that it is rounded to. -/
theorem nearestEven_bounds {num den : Nat} (hden : den ≠ 0) :
    2 * nearestEven num den * den ≤ 2 * num + den ∧
      2 * num ≤ (2 * nearestEven num den + 1) * den := by
  have hmod := Nat.div_add_mod num den
  have hlt := Nat.mod_lt num (Nat.pos_of_ne_zero hden)
  unfold nearestEven
  generalize num / den = q at hmod
  generalize num % den = r at hmod hlt
  have hbelow : 2 * q * den = 2 * (den * q) := by ring
  have habove : 2 * (q + 1) * den = 2 * (den * q) + 2 * den := by ring
  have hbelow' : (2 * q + 1) * den = 2 * (den * q) + den := by ring
  have habove' : (2 * (q + 1) + 1) * den = 2 * (den * q) + 3 * den := by ring
  dsimp only
  split
  · omega
  · split
    · omega
    · split <;> omega

/-- The same of the rational that is the ratio -/
theorem abs_sub_nearestEven_le {num den : Nat} (hden : den ≠ 0) :
    |(num : ℚ) / den - nearestEven num den| ≤ 1 / 2 := by
  obtain ⟨hlower, hupper⟩ := @nearestEven_bounds num den hden
  have hpos : (0 : ℚ) < den := by exact_mod_cast Nat.pos_of_ne_zero hden
  have hlower' : 2 * (nearestEven num den : ℚ) * den ≤ 2 * num + den := by exact_mod_cast hlower
  have hupper' : 2 * (num : ℚ) ≤ (2 * nearestEven num den + 1) * den := by exact_mod_cast hupper
  rw [abs_le]
  constructor
  · rw [le_sub_iff_add_le, le_div_iff₀ hpos]
    linarith
  · rw [sub_le_iff_le_add, div_le_iff₀ hpos]
    linarith

/-- The integer that is less than one half away -/
theorem nearestEven_eq_of_abs_sub_lt {num den n : Nat} (hden : den ≠ 0)
    (h : |(num : ℚ) / den - n| < 1 / 2) : nearestEven num den = n := by
  have hpos : (0 : ℚ) < den := by exact_mod_cast Nat.pos_of_ne_zero hden
  obtain ⟨hlower, hupper⟩ := abs_lt.mp h
  rw [lt_sub_iff_add_lt, lt_div_iff₀ hpos] at hlower
  rw [sub_lt_iff_lt_add, div_lt_iff₀ hpos] at hupper
  have hlower' : 2 * (n : ℚ) * den < 2 * num + den := by linarith
  have hupper' : 2 * (num : ℚ) < (2 * n + 1) * den := by linarith
  exact nearestEven_eq (by exact_mod_cast hlower') (by exact_mod_cast hupper')

/-! ## The exponent -/

/-- A power of two is positive. -/
theorem two_zpow_pos (k : Int) : (0 : ℚ) < 2 ^ k := zpow_pos (by norm_num) k

/-- The next power of two -/
theorem two_zpow_succ (k : Int) : (2 : ℚ) ^ (k + 1) = 2 * 2 ^ k := by
  rw [zpow_add_one₀ (by norm_num), mul_comm]

/-- The logarithm is rounded down. -/
theorem floorLog2_spec {num den : Nat} (hnum : num ≠ 0) (hden : den ≠ 0) :
    (2 : ℚ) ^ floorLog2 num den ≤ num / den ∧ (num : ℚ) / den < 2 ^ (floorLog2 num den + 1) := by
  have hpos : (0 : ℚ) < den := by exact_mod_cast Nat.pos_of_ne_zero hden
  have hnumLower : (2 : ℚ) ^ (Nat.log2 num : Int) ≤ num := by
    rw [zpow_natCast]
    exact_mod_cast Nat.log2_self_le hnum
  have hnumUpper : (num : ℚ) < 2 ^ ((Nat.log2 num : Int) + 1) := by
    rw [← Nat.cast_succ, zpow_natCast]
    exact_mod_cast Nat.lt_log2_self
  have hdenLower : (2 : ℚ) ^ (Nat.log2 den : Int) ≤ den := by
    rw [zpow_natCast]
    exact_mod_cast Nat.log2_self_le hden
  have hdenUpper : (den : ℚ) < 2 ^ ((Nat.log2 den : Int) + 1) := by
    rw [← Nat.cast_succ, zpow_natCast]
    exact_mod_cast Nat.lt_log2_self
  -- the difference of the two exponents is off by one at most
  have hlower : (2 : ℚ) ^ ((Nat.log2 num : Int) - Nat.log2 den - 1) ≤ num / den := by
    rw [le_div_iff₀ hpos]
    calc (2 : ℚ) ^ ((Nat.log2 num : Int) - Nat.log2 den - 1) * den
        ≤ 2 ^ ((Nat.log2 num : Int) - Nat.log2 den - 1) * 2 ^ ((Nat.log2 den : Int) + 1) :=
          mul_le_mul_of_nonneg_left hdenUpper.le (two_zpow_pos _).le
      _ = 2 ^ (Nat.log2 num : Int) := by rw [← zpow_add₀ (by norm_num)]; congr 1; omega
      _ ≤ num := hnumLower
  have hupper : (num : ℚ) / den < 2 ^ ((Nat.log2 num : Int) - Nat.log2 den + 1) := by
    rw [div_lt_iff₀ hpos]
    calc (num : ℚ) < 2 ^ ((Nat.log2 num : Int) + 1) := hnumUpper
      _ = 2 ^ ((Nat.log2 num : Int) - Nat.log2 den + 1) * 2 ^ (Nat.log2 den : Int) := by
          rw [← zpow_add₀ (by norm_num)]; congr 1; omega
      _ ≤ 2 ^ ((Nat.log2 num : Int) - Nat.log2 den + 1) * den :=
          mul_le_mul_of_nonneg_left hdenLower (two_zpow_pos _).le
  unfold floorLog2
  generalize (Nat.log2 num : Int) - Nat.log2 den = e at hlower hupper ⊢
  -- the test that is made with integers
  have hbelow : (if 0 ≤ e then decide (num < den * 2 ^ e.toNat)
      else decide (num * 2 ^ (-e).toNat < den)) = decide ((num : ℚ) / den < 2 ^ e) := by
    by_cases he : 0 ≤ e
    · obtain ⟨k, rfl⟩ := Int.eq_ofNat_of_zero_le he
      rw [if_pos he, decide_eq_decide, div_lt_iff₀ hpos, Int.toNat_natCast, zpow_natCast, mul_comm]
      exact_mod_cast Iff.rfl
    · obtain ⟨k, hk⟩ := Int.eq_ofNat_of_zero_le (by omega : 0 ≤ -e)
      have hneg : (2 : ℚ) ^ e = (2 ^ k)⁻¹ := by
        rw [← neg_neg e, hk, zpow_neg, zpow_natCast]
      rw [if_neg he, decide_eq_decide, hneg, div_lt_iff₀ hpos, hk, Int.toNat_natCast,
        inv_mul_eq_div, lt_div_iff₀ (by positivity)]
      exact_mod_cast Iff.rfl
  dsimp only
  simp only [hbelow, decide_eq_true_eq]
  split
  · next hlt => exact ⟨hlower, by rwa [sub_add_cancel]⟩
  · next hge => exact ⟨not_lt.mp hge, hupper⟩

/-! ## The nearest multiple of a power of two -/

/-- The exponent of the multiples that a positive ratio is rounded to -/
def unit (num den : Nat) : Int := max (floorLog2 num den - 52) (-1074)

/-- A ratio is rounded to a multiple that is at most half of a unit away, and to the only one that is
    less than half of a unit away. -/
theorem roundRatio_spec (num : Nat) {den : Nat} (hden : den ≠ 0) :
    ∃ n : Nat, roundRatio num den = n * 2 ^ unit num den ∧
      |(num : ℚ) / den - n * 2 ^ unit num den| ≤ 2 ^ unit num den / 2 ∧
      ∀ m : Nat, |(num : ℚ) / den - m * 2 ^ unit num den| < 2 ^ unit num den / 2 → n = m := by
  have hpos : (0 : ℚ) < den := by exact_mod_cast Nat.pos_of_ne_zero hden
  -- a distance in units
  have hscale (m : Nat) : |(num : ℚ) / den - m * 2 ^ unit num den| =
      |(num : ℚ) / den / 2 ^ unit num den - m| * 2 ^ unit num den := by
    have hunit := two_zpow_pos (unit num den)
    rw [← abs_of_pos hunit, ← abs_mul, abs_of_pos hunit, sub_mul, div_mul_cancel₀ _ hunit.ne']
  have hunit := two_zpow_pos (unit num den)
  -- the ratio that is rounded to an integer
  obtain ⟨num', den', hden', hratio, hround⟩ : ∃ num' den' : Nat, den' ≠ 0 ∧
      (num' : ℚ) / den' = num / den / 2 ^ unit num den ∧
      roundRatio num den = nearestEven num' den' * 2 ^ unit num den := by
    unfold roundRatio
    rw [show max (floorLog2 num den - 52) (-1074) = unit num den from rfl]
    generalize unit num den = e
    dsimp only
    -- the unit is multiplied into the one or the other
    by_cases he : 0 ≤ e
    · obtain ⟨k, rfl⟩ := Int.eq_ofNat_of_zero_le he
      refine ⟨num, den * 2 ^ k, by positivity, ?_, ?_⟩
      · push_cast
        rw [zpow_natCast, div_div]
      · rw [if_pos he, Int.toNat_natCast]
        push_cast
        rw [zpow_natCast]
    · obtain ⟨k, hk⟩ := Int.eq_ofNat_of_zero_le (by omega : 0 ≤ -e)
      have hneg : (2 : ℚ) ^ e = (2 ^ k)⁻¹ := by
        rw [← neg_neg e, hk, zpow_neg, zpow_natCast]
      refine ⟨num * 2 ^ k, den, hden, ?_, ?_⟩
      · rw [hneg, div_inv_eq_mul]
        push_cast
        ring
      · rw [if_neg he, hk, Int.toNat_natCast, Rat.mkRat_eq_div, hneg, ← div_eq_mul_inv]
        push_cast
        rfl
  have hnear := @abs_sub_nearestEven_le num' _ hden'
  rw [hratio] at hnear
  refine ⟨nearestEven num' den', hround, ?_, ?_⟩
  · rw [hscale]
    calc |(num : ℚ) / den / 2 ^ unit num den - nearestEven num' den'| * 2 ^ unit num den
        ≤ 1 / 2 * 2 ^ unit num den := mul_le_mul_of_nonneg_right hnear hunit.le
      _ = 2 ^ unit num den / 2 := by ring
  · intro m hm
    refine nearestEven_eq_of_abs_sub_lt hden' ?_
    rw [hscale, ← lt_div_iff₀ hunit, div_div_cancel_left' hunit.ne'] at hm
    rw [hratio, one_div]
    exact hm

/-! ## Rationals -/

/-- What a positive rational is rounded to, before the range is looked at -/
def nearest (q : ℚ) : ℚ := roundRatio q.num.natAbs q.den

/-- The exponent of the unit of a positive rational -/
def unitOf (q : ℚ) : Int := unit q.num.natAbs q.den

/-- A positive rational is the ratio of its parts. -/
theorem natAbs_num_div_den {q : ℚ} (hq : 0 < q) : (q.num.natAbs : ℚ) / q.den = q := by
  have hnum : ((q.num.natAbs : Int) : ℚ) = q.num := by
    rw [Int.natAbs_of_nonneg (Rat.num_pos.mpr hq).le]
  rw [← Int.cast_natCast, hnum, Rat.num_div_den]

/-- The numerator of a positive rational is not zero. -/
theorem natAbs_num_ne_zero {q : ℚ} (hq : 0 < q) : q.num.natAbs ≠ 0 :=
  Int.natAbs_ne_zero.mpr (Rat.num_pos.mpr hq).ne'

/-- No unit is smaller than the one of the subnormals. -/
theorem unitOf_ge (q : ℚ) : -1074 ≤ unitOf q := le_max_right _ _

/-- A positive rational has 53 bits at most above its unit. -/
theorem lt_of_unitOf {q : ℚ} (hq : 0 < q) : q < 2 ^ (unitOf q + 53) := by
  have hupper := (floorLog2_spec (natAbs_num_ne_zero hq) q.den_ne_zero).2
  rw [natAbs_num_div_den hq] at hupper
  have hle := le_max_left (floorLog2 q.num.natAbs q.den - 52) (-1074)
  calc q < 2 ^ (floorLog2 q.num.natAbs q.den + 1) := hupper
    _ ≤ 2 ^ (unitOf q + 53) := zpow_le_zpow_right₀ (by norm_num) (by unfold unitOf unit; omega)

/-- It has 53 bits above its unit if it is not one of the smallest. -/
theorem le_of_unitOf {q : ℚ} (hq : 0 < q) (hunit : -1074 < unitOf q) : 2 ^ (unitOf q + 52) ≤ q := by
  have hlower := (floorLog2_spec (natAbs_num_ne_zero hq) q.den_ne_zero).1
  rw [natAbs_num_div_den hq] at hlower
  have heq : unitOf q + 52 = floorLog2 q.num.natAbs q.den := by
    unfold unitOf unit at hunit ⊢
    omega
  rwa [heq]

/-- The unit is known from the place of the first bit, or from there being none so high. -/
theorem unitOf_eq {q : ℚ} {e : Int} (hq : 0 < q) (he : -1074 ≤ e) (hupper : q < 2 ^ (e + 53))
    (hlower : e = -1074 ∨ 2 ^ (e + 52) ≤ q) : unitOf q = e := by
  have hspec := floorLog2_spec (natAbs_num_ne_zero hq) q.den_ne_zero
  rw [natAbs_num_div_den hq] at hspec
  have hlt := (zpow_lt_zpow_iff_right₀ (by norm_num : (1 : ℚ) < 2)).mp (hspec.1.trans_lt hupper)
  unfold unitOf unit
  rcases hlower with hlower | hlower
  · omega
  · have hge := (zpow_lt_zpow_iff_right₀ (by norm_num : (1 : ℚ) < 2)).mp (hlower.trans_lt hspec.2)
    omega

/-- A positive rational is rounded to a multiple of its unit, at most half of the unit away. -/
theorem nearest_spec {q : ℚ} (hq : 0 < q) : ∃ n : Nat, nearest q = n * 2 ^ unitOf q ∧
    |q - n * 2 ^ unitOf q| ≤ 2 ^ unitOf q / 2 := by
  obtain ⟨n, hn, hle, -⟩ := roundRatio_spec q.num.natAbs q.den_ne_zero
  rw [natAbs_num_div_den hq] at hle
  exact ⟨n, hn, hle⟩

/-- It is rounded to a multiple that is less than half of the unit away. -/
theorem nearest_eq {q : ℚ} {m : Nat} (hq : 0 < q)
    (hnear : |q - m * 2 ^ unitOf q| < 2 ^ unitOf q / 2) : nearest q = m * 2 ^ unitOf q := by
  obtain ⟨n, hn, -, huniq⟩ := roundRatio_spec q.num.natAbs q.den_ne_zero
  rw [natAbs_num_div_den hq] at huniq
  rw [← huniq m hnear]
  exact hn

/-- The double nearest to a positive rational is not negative. -/
theorem nearest_nonneg {q : ℚ} (hq : 0 < q) : 0 ≤ nearest q := by
  obtain ⟨n, hn, -⟩ := nearest_spec hq
  rw [hn]
  exact mul_nonneg (Nat.cast_nonneg n) (two_zpow_pos _).le

/-- The multiples have 53 bits at most, the largest of them apart. -/
theorem nearest_spec_bits {q : ℚ} (hq : 0 < q) : ∃ n : Nat, nearest q = n * 2 ^ unitOf q ∧
    |q - n * 2 ^ unitOf q| ≤ 2 ^ unitOf q / 2 ∧ n ≤ 2 ^ 53 ∧
    (-1074 < unitOf q → 2 ^ 52 ≤ n) := by
  obtain ⟨n, hn, hle⟩ := nearest_spec hq
  have hunit := two_zpow_pos (unitOf q)
  obtain ⟨hlower, hupper⟩ := abs_le.mp hle
  have hsplit (k : Nat) : (2 : ℚ) ^ (unitOf q + k) = 2 ^ k * 2 ^ unitOf q := by
    rw [zpow_add₀ (by norm_num), zpow_natCast, mul_comm]
  refine ⟨n, hn, hle, ?_, ?_⟩
  · have hlt := lt_of_unitOf hq
    rw [show unitOf q + 53 = unitOf q + (53 : Nat) from rfl, hsplit] at hlt
    by_contra hgt
    have hgt' : (2 : ℚ) ^ 53 + 1 ≤ n := by exact_mod_cast Nat.not_le.mp hgt
    have := mul_le_mul_of_nonneg_right hgt' hunit.le
    linarith
  · intro hnormal
    have hge := le_of_unitOf hq hnormal
    rw [show unitOf q + 52 = unitOf q + (52 : Nat) from rfl, hsplit] at hge
    by_contra hlt
    have hlt' : (n : ℚ) + 1 ≤ 2 ^ 52 := by exact_mod_cast Nat.not_le.mp hlt
    have := mul_le_mul_of_nonneg_right hlt' hunit.le
    linarith

/-- A multiple of a unit with 53 bits at most stays as it is. -/
theorem nearest_multiple {n : Nat} {e : Int} (hn : 0 < n) (hbits : n < 2 ^ 53) (he : -1074 ≤ e)
    (hnormal : e = -1074 ∨ 2 ^ 52 ≤ n) : nearest (n * 2 ^ e) = n * 2 ^ e := by
  have hpos := two_zpow_pos e
  have hn' : (0 : ℚ) < n := by exact_mod_cast hn
  have hq : (0 : ℚ) < n * 2 ^ e := mul_pos hn' hpos
  have hsplit (k : Nat) : (2 : ℚ) ^ (e + k) = 2 ^ k * 2 ^ e := by
    rw [zpow_add₀ (by norm_num), zpow_natCast, mul_comm]
  have hunit : unitOf (n * 2 ^ e) = e := by
    refine unitOf_eq hq he ?_ ?_
    · rw [show e + 53 = e + (53 : Nat) from rfl, hsplit]
      exact mul_lt_mul_of_pos_right (by exact_mod_cast hbits) hpos
    · refine hnormal.imp_right fun hle => ?_
      rw [show e + 52 = e + (52 : Nat) from rfl, hsplit]
      exact mul_le_mul_of_nonneg_right (by exact_mod_cast hle) hpos.le
  have hnear := nearest_eq (m := n) hq (by rw [hunit, sub_self, abs_zero]; positivity)
  rwa [hunit] at hnear

/-- What a rational is rounded to stays as it is. -/
theorem nearest_nearest {q : ℚ} (hq : 0 < q) (hpos : 0 < nearest q) :
    nearest (nearest q) = nearest q := by
  obtain ⟨n, hn, -, hbits, hnormal⟩ := nearest_spec_bits hq
  have he := unitOf_ge q
  have hn0 : 0 < n := by
    by_contra hzero
    rw [hn, Nat.eq_zero_of_not_pos hzero, Nat.cast_zero, zero_mul] at hpos
    exact hpos.ne rfl
  rw [hn]
  rcases Nat.lt_or_ge n (2 ^ 53) with hlt | hge
  · refine nearest_multiple hn0 hlt he ?_
    by_cases hmin : unitOf q = -1074
    · exact .inl hmin
    · exact .inr (hnormal (by omega))
  · -- the rounding has carried into the next power of two
    have hcarry : (n : ℚ) * 2 ^ unitOf q = (2 ^ 52 : Nat) * 2 ^ (unitOf q + 1) := by
      rw [show n = 2 ^ 53 by omega, two_zpow_succ]
      push_cast
      ring
    rw [hcarry]
    exact nearest_multiple (by decide) (by decide) (by omega) (.inr (by decide))

/-! ## Rounding -/

/-- A positive rational is rounded to the nearest double, or to infinity. -/
theorem round_of_pos {q : ℚ} (hq : 0 < q) :
    round q = if 2 ^ 1024 ≤ nearest q then .inf false else .fin (nearest q) := by
  unfold round
  rw [if_neg hq.ne']
  simp only [not_lt.mpr hq.le, decide_false, if_false]
  rfl

/-- Rounding is the same on both sides of zero. -/
theorem round_neg (q : ℚ) : round (-q) = neg (round q) := by
  have hzero : round 0 = neg (round 0) := by
    show Binary64.fin 0 = Binary64.fin (-0)
    rw [neg_zero]
  rcases lt_trichotomy q 0 with hq | rfl | hq
  · -- of a negative rational the sign is taken away
    have hflip : round q = neg (round (-q)) := by
      rw [round_of_pos (neg_pos.mpr hq)]
      unfold round nearest
      rw [if_neg hq.ne, Rat.num_neg_eq_neg_num, Rat.den_neg_eq_den, Int.natAbs_neg]
      simp only [hq, decide_true, if_true]
      split <;> rfl
    rw [hflip]
    cases round (-q) with
    | nan => rfl
    | inf negative => cases negative <;> rfl
    | fin v =>
      show Binary64.fin v = Binary64.fin (- -v)
      rw [neg_neg]
  · rw [neg_zero]
    exact hzero
  · have hneg : -q < 0 := neg_neg_of_pos hq
    rw [round_of_pos hq]
    unfold round
    rw [if_neg hneg.ne, Rat.num_neg_eq_neg_num, Rat.den_neg_eq_den, Int.natAbs_neg]
    simp only [hneg, decide_true, if_true]
    show (if 2 ^ 1024 ≤ nearest q then _ else _) = _
    split <;> rfl

/-- The negative of a double is one. -/
theorem proper_neg {x : Binary64} (hx : x.Proper) : (neg x).Proper := by
  cases x with
  | nan => trivial
  | inf _ => trivial
  | fin q =>
    show round (-q) = .fin (-q)
    rw [round_neg, show round q = .fin q from hx]
    rfl

/-- What a positive rational is rounded to is a double. -/
private theorem proper_round_of_pos {q : ℚ} (hq : 0 < q) : (round q).Proper := by
  rw [round_of_pos hq]
  by_cases hrange : 2 ^ 1024 ≤ nearest q
  · rw [if_pos hrange]
    trivial
  · rw [if_neg hrange]
    show round (nearest q) = .fin (nearest q)
    rcases (nearest_nonneg hq).lt_or_eq with hpos | hzero
    · rw [round_of_pos hpos, nearest_nearest hq hpos, if_neg hrange]
    · rw [← hzero, round_zero]

/-- What is rounded once stays as it is. -/
theorem proper_round (q : ℚ) : (round q).Proper := by
  rcases lt_trichotomy q 0 with hq | rfl | hq
  · rw [← neg_neg q, round_neg]
    exact proper_neg (proper_round_of_pos (neg_pos.mpr hq))
  · exact round_zero
  · exact proper_round_of_pos hq

/-- A positive `double` is the rational nearest to itself. -/
theorem nearest_of_proper {q : ℚ} (hq : 0 < q) (hx : (Binary64.fin q).Proper) :
    nearest q = q ∧ q < 2 ^ 1024 := by
  have hround : round q = .fin q := hx
  rw [round_of_pos hq] at hround
  by_cases hrange : 2 ^ 1024 ≤ nearest q
  · rw [if_pos hrange] at hround
    exact nomatch hround
  · rw [if_neg hrange] at hround
    have heq := Binary64.fin.inj hround
    exact ⟨heq, by rw [← heq]; exact not_le.mp hrange⟩

/-- The largest `double` -/
theorem proper_dblMax : (Double.dblMax : Binary64).Proper := by
  have hvalue : (2 ^ 1024 - 2 ^ 971 : ℚ) = (2 ^ 53 - 1 : Nat) * 2 ^ (971 : Int) := by
    rw [show ((2 : ℚ) ^ (971 : Int)) = 2 ^ 971 from zpow_natCast 2 971,
      show (2 : ℚ) ^ 1024 = 2 ^ 53 * 2 ^ 971 from pow_add 2 53 971,
      show ((2 ^ 53 - 1 : Nat) : ℚ) = 2 ^ 53 - 1 by norm_num, sub_mul, one_mul]
  have hlt : (2 : ℚ) ^ 971 < 2 ^ 1024 := pow_lt_pow_right₀ (by norm_num) (by norm_num)
  have hpos : (0 : ℚ) < 2 ^ 1024 - 2 ^ 971 := sub_pos.mpr hlt
  show round (2 ^ 1024 - 2 ^ 971) = .fin (2 ^ 1024 - 2 ^ 971)
  rw [round_of_pos hpos, hvalue,
    nearest_multiple (by decide) (by decide) (by decide) (.inr (by decide)), ← hvalue,
    if_neg (not_le.mpr (sub_lt_self _ (by positivity)))]

end Binary64

end Cxx
