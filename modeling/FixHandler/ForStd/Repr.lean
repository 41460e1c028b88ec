import Mathlib
import FixHandler.ForStd.List

/-!
# The order of decimal texts

Texts are ordered by their first characters that differ, so that the texts of numbers are in the
order of the numbers if these have as many digits.
-/

namespace Nat

/-- The text of a positive number is behind the one of 0. -/
theorem zero_lt_repr (n : Nat) : (0 : Nat).repr < n.repr ↔ 0 < n := by
  constructor
  · intro h
    rcases Nat.eq_zero_or_pos n with rfl | hn
    · exact absurd h (lt_irrefl _)
    · exact hn
  · intro hn
    induction n using Nat.strong_induction_on with
    | h n ih =>
      by_cases hten : n < 10
      · interval_cases n <;> decide
      · -- the digits of `n / 10` come first
        have h10 : 10 ≤ n := by omega
        have hhead := ih (n / 10) (by omega) (by omega)
        rw [Nat.repr_eq_repr_append_repr h10, String.lt_iff_toList_lt, String.toList_append]
        exact List.lt_append_right _ (String.lt_iff_toList_lt.mp hhead)

variable {k a b : Nat}

/-- Numbers between the same powers of ten have texts of one length. -/
theorem length_repr_eq (ha : 10 ^ k ≤ a) (ha' : a < 10 ^ (k + 1)) (hb : 10 ^ k ≤ b)
    (hb' : b < 10 ^ (k + 1)) : a.repr.toList.length = b.repr.toList.length := by
  induction k generalizing a b with
  | zero =>
    have hten : a < 10 ∧ b < 10 := by omega
    rw [Nat.repr_of_lt hten.1, Nat.repr_of_lt hten.2, String.toList_singleton,
      String.toList_singleton]
    rfl
  | succ k ih =>
    have h10 : 10 ≤ 10 ^ (k + 1) := Nat.le_self_pow (by omega) 10
    -- the last digits are cut off
    have hquotient := @ih (a / 10) (b / 10) (by omega) (by omega) (by omega) (by omega)
    rw [Nat.repr_eq_repr_append_repr (n := a) (by omega),
      Nat.repr_eq_repr_append_repr (n := b) (by omega), Nat.repr_of_lt (n := a % 10) (by omega),
      Nat.repr_of_lt (n := b % 10) (by omega)]
    simp only [String.toList_append, List.length_append, hquotient, String.toList_singleton,
      List.length_singleton]

/-- Of numbers with as many digits, the greater one has the greater text. -/
theorem repr_lt_repr (ha : 10 ^ k ≤ a) (hb : b < 10 ^ (k + 1)) (hlt : a < b) :
    a.repr < b.repr := by
  rw [String.lt_iff_toList_lt]
  have hdigits : ∀ b < 10, ∀ a < b, a.repr.toList < b.repr.toList := by decide +kernel
  induction k generalizing a b with
  | zero => exact hdigits b (by omega) a hlt
  | succ k ih =>
    have h10 : 10 ≤ 10 ^ (k + 1) := Nat.le_self_pow (by omega) 10
    rw [Nat.repr_eq_repr_append_repr (n := a) (by omega),
      Nat.repr_eq_repr_append_repr (n := b) (by omega), String.toList_append, String.toList_append]
    by_cases hquotient : a / 10 = b / 10
    · -- the last digit decides
      rw [hquotient]
      exact List.append_left_lt (hdigits (b % 10) (by omega) (a % 10) (by omega))
    · exact List.append_lt_append (ih (by omega) (by omega) (by omega))
        (length_repr_eq (k := k) (by omega) (by omega) (by omega) (by omega)) _ _

end Nat
