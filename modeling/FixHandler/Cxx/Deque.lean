import Mathlib

/-!
# Checked access to a sequence

The members of `std::deque` that take a position: an access outside the sequence
is undefined behaviour, or an exception for `at`, and is an error here. A
position is an integer, for `begin() - 1` is written as easily as `begin() + 1`.
-/

namespace Cxx

/-- An access outside a sequence. -/
inductive OutOfRange where
  | outOfRange
deriving DecidableEq, Repr

namespace Deque

variable {α : Type u}

/-- `insert(begin() + i, x)` -/
def insert (q : List α) (i : Int) (x : α) : Except OutOfRange (List α) :=
  if 0 ≤ i ∧ i ≤ q.length then .ok (q.insertIdx i.toNat x) else .error .outOfRange

/-- `at(i) = x` -/
def set (q : List α) (i : Int) (x : α) : Except OutOfRange (List α) :=
  if 0 ≤ i ∧ i < q.length then .ok (q.set i.toNat x) else .error .outOfRange

/-- `erase(begin() + i)` -/
def erase (q : List α) (i : Int) : Except OutOfRange (List α) :=
  if 0 ≤ i ∧ i < q.length then .ok (q.eraseIdx i.toNat) else .error .outOfRange

/-- `erase(begin() + i, begin() + j)` -/
def eraseRange (q : List α) (i j : Int) : Except OutOfRange (List α) :=
  if 0 ≤ i ∧ i ≤ j ∧ j ≤ q.length then .ok (q.take i.toNat ++ q.drop j.toNat)
  else .error .outOfRange

/-- `resize(n, x)` -/
def resize (q : List α) (n : Nat) (x : α) : List α :=
  q.take n ++ List.replicate (n - q.length) x

/-! ### Accesses in range -/

/-- An element is put in up to the end. -/
theorem insert_eq {q : List α} {i : Nat} (hi : i ≤ q.length) (x : α) :
    insert q i x = .ok (q.insertIdx i x) := by
  rw [insert, if_pos (by omega), Int.toNat_natCast]

/-- An element is replaced within the bounds. -/
theorem set_eq {q : List α} {i : Nat} (hi : i < q.length) (x : α) :
    set q i x = .ok (q.set i x) := by
  rw [set, if_pos (by omega), Int.toNat_natCast]

/-- An element is taken out within the bounds. -/
theorem erase_eq {q : List α} {i : Nat} (hi : i < q.length) :
    erase q i = .ok (q.eraseIdx i) := by
  rw [erase, if_pos (by omega), Int.toNat_natCast]

/-- A range is taken out within the bounds. -/
theorem eraseRange_eq {q : List α} {i j : Nat} (hij : i ≤ j) (hj : j ≤ q.length) :
    eraseRange q i j = .ok (q.take i ++ q.drop j) := by
  rw [eraseRange, if_pos (by omega), Int.toNat_natCast, Int.toNat_natCast]

/-- Making a sequence longer. -/
theorem resize_of_le {q : List α} {n : Nat} (h : q.length ≤ n) (x : α) :
    resize q n x = q ++ List.replicate (n - q.length) x := by
  rw [resize, List.take_of_length_le h]

/-- Making a sequence shorter. -/
theorem resize_of_ge {q : List α} {n : Nat} (h : n ≤ q.length) (x : α) :
    resize q n x = q.take n := by
  rw [resize, Nat.sub_eq_zero_of_le h, List.replicate_zero, List.append_nil]

end Deque

end Cxx
