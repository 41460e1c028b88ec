import Mathlib

/-!
# The type `double`

IEEE 754 binary64 with rounding to nearest, ties to even. A finite value is
the rational it denotes; every finite value is made by `Binary64.round`. The
sign of a zero is not kept: no comparison can see it, and neither can
`toUInt32`. `std::to_string` can, which makes "-0.000000" of a negative zero;
`toString` is that of the positive one.
-/

namespace Cxx

/-- A `double`. -/
inductive Binary64 where
  | nan
  | inf (negative : Bool)
  | fin (value : ℚ)
deriving DecidableEq, Repr

namespace Binary64

/-- The integer nearest to `num / den`, the even one of two. -/
def nearestEven (num den : Nat) : Nat :=
  let q := num / den
  let r := num % den
  if 2 * r < den then q
  else if den < 2 * r then q + 1
  else if q % 2 = 0 then q else q + 1

/-- `⌊log₂ (num / den)⌋` for positive `num` and `den`. -/
def floorLog2 (num den : Nat) : Int :=
  let e : Int := (Nat.log2 num : Int) - Nat.log2 den
  let below : Bool :=
    if 0 ≤ e then num < den * 2 ^ e.toNat else num * 2 ^ (-e).toNat < den
  if below then e - 1 else e

/-- The binary64 value nearest to the non-negative `num / den`. -/
def roundRatio (num den : Nat) : ℚ :=
  let e : Int := max (floorLog2 num den - 52) (-1074)
  if 0 ≤ e then (nearestEven num (den * 2 ^ e.toNat) * 2 ^ e.toNat : Nat)
  else mkRat (nearestEven (num * 2 ^ (-e).toNat) den) (2 ^ (-e).toNat)

/-- Round a rational to binary64. -/
def round (q : ℚ) : Binary64 :=
  if q = 0 then .fin 0
  else
    let v := roundRatio q.num.natAbs q.den
    if 2 ^ 1024 ≤ v then .inf (q < 0) else .fin (if q < 0 then -v else v)

/-- Zero is a double. -/
@[simp] theorem round_zero : round 0 = .fin 0 := rfl

/-- The operator `*`. -/
def mul : Binary64 → Binary64 → Binary64
  | .nan, _ => .nan
  | _, .nan => .nan
  | .inf a, .inf b => .inf (a != b)
  | .inf a, .fin y => if y = 0 then .nan else .inf (a != decide (y < 0))
  | .fin x, .inf b => if x = 0 then .nan else .inf (b != decide (x < 0))
  | .fin x, .fin y => round (x * y)

/-- The operator `/`. -/
def div : Binary64 → Binary64 → Binary64
  | .nan, _ => .nan
  | _, .nan => .nan
  | .inf _, .inf _ => .nan
  | .inf a, .fin y => .inf (a != decide (y < 0))
  | .fin _, .inf _ => .fin 0
  | .fin x, .fin y => if y = 0 then (if x = 0 then .nan else .inf (x < 0)) else round (x / y)

/-- The operator `==`: a NaN equals nothing. -/
def eq : Binary64 → Binary64 → Bool
  | .nan, _ => false
  | x, y => decide (x = y)

/-- The operator `<`: nothing is less than a NaN, or greater. -/
def lt : Binary64 → Binary64 → Bool
  | .nan, _ => false
  | _, .nan => false
  | .inf a, .inf b => a && !b
  | .inf a, .fin _ => a
  | .fin _, .inf b => !b
  | .fin x, .fin y => decide (x < y)

/-- The operator `<=` -/
def le (x y : Binary64) : Bool := lt x y || eq x y

/-- No double is less than itself. -/
theorem lt_irrefl (x : Binary64) : lt x x = false := by
  cases x with
  | nan => rfl
  | inf a => cases a <;> rfl
  | fin x => simp [lt]

/-- What is at most `y` is not greater. -/
theorem not_lt_of_le {x y : Binary64} (h : le x y = true) : lt y x = false := by
  rw [le, Bool.or_eq_true] at h
  rcases h with h | h
  · cases x with
    | nan => exact nomatch h
    | inf a => cases y <;> cases a <;> simp_all [lt]
    | fin x =>
      cases y with
      | nan => exact nomatch h
      | inf b => cases b <;> simp_all [lt]
      | fin y =>
        rw [lt, decide_eq_true_iff] at h
        exact decide_eq_false h.le.not_gt
  · cases x with
    | nan => exact nomatch h
    | inf a =>
      cases of_decide_eq_true h
      exact lt_irrefl _
    | fin x =>
      cases of_decide_eq_true h
      exact lt_irrefl _

/-- The conversion to `std::uint32_t`. Outside of the type's range it is
    undefined in C++; the value given here is the one of the x86-64 instruction
    (through a 64-bit integer, then its low 32 bits). -/
def toUInt32 : Binary64 → UInt32
  | .fin q =>
    let t := if q < 0 then -(-q).floor else q.floor
    if -2 ^ 63 ≤ t ∧ t < 2 ^ 63 then UInt32.ofNat (t % 2 ^ 32).toNat else 0
  | _ => 0

/-- An unsigned integer as a `double`. -/
def ofNat (n : Nat) : Binary64 := round n

/-- Zero is a double. -/
@[simp] theorem ofNat_zero : ofNat 0 = .fin 0 := rfl

/-- Two finite doubles are compared by their values. -/
@[simp] theorem eq_fin (x y : ℚ) : eq (.fin x) (.fin y) = decide (x = y) := by
  simp [eq]

/-- Zero is cut to zero. -/
@[simp] theorem toUInt32_zero : toUInt32 (.fin 0) = 0 := by decide +kernel

/-- Zero times a finite double -/
@[simp] theorem zero_mul_fin (y : ℚ) : mul (.fin 0) (.fin y) = .fin 0 := by
  simp [mul]

/-- Left-pad a decimal to six digits. -/
private def pad6 (n : Nat) : String :=
  let s := n.repr
  String.ofList (List.replicate (6 - s.length) '0') ++ s

/-- `std::to_string`: the format `%f`, six digits after the point. -/
def toString : Binary64 → String
  | .nan => "nan"
  | .inf true => "-inf"
  | .inf false => "inf"
  | .fin q =>
    let n := nearestEven (q.num.natAbs * 10 ^ 6) q.den
    (if q < 0 then "-" else "") ++ (n / 10 ^ 6).repr ++ "." ++ pad6 (n % 10 ^ 6)

end Binary64

end Cxx
