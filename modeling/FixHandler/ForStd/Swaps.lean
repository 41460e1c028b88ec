import Mathlib

/-!
# Reversal in place

The loop that exchanges the two ends of a piece of a list and goes inwards reverses the piece.

## Key results

- `swap_append`: what an exchange does to the two ends
- `reverseLoop_eq`: the piece is reversed, and what is around it stays
-/

namespace List

variable {α : Type u}

/-- Exchange the ends, and go on as long as there is something in between. -/
def reverseLoop (l : List α) (first last : Nat) : List α :=
  let l := l.swap first last
  if first + 1 < last - 1 then l.reverseLoop (first + 1) (last - 1) else l
termination_by last - first

/-- Two elements are exchanged and the rest stays. -/
theorem swap_append (before : List α) (a b : α) (middle after : List α) :
    (before ++ a :: (middle ++ b :: after)).swap before.length (before.length + middle.length + 1) =
      before ++ b :: (middle ++ a :: after) := by
  induction before with
  | nil =>
    rw [length_nil, Nat.zero_add, nil_append, nil_append]
    unfold swap
    have hb : (middle ++ b :: after)[middle.length]? = some b := by
      rw [getElem?_append_right (Nat.le_refl _), Nat.sub_self]
      rfl
    rw [hb, Option.getD_some, set_append_right _ _ (Nat.le_refl _), Nat.sub_self, set_cons_zero]
  | cons c before ih =>
    rw [cons_append, cons_append, length_cons, ← ih, Nat.add_right_comm before.length 1]
    rfl

/-- The loop over a piece that is not empty reverses it. -/
theorem reverseLoop_eq (piece : List α) (hpiece : piece ≠ []) (before after : List α) :
    (before ++ (piece ++ after)).reverseLoop before.length (before.length + piece.length - 1) =
      before ++ (piece.reverse ++ after) := by
  induction piece using List.bidirectionalRec generalizing before after with
  | nil => exact absurd rfl hpiece
  | singleton a =>
    unfold reverseLoop
    rw [length_singleton, Nat.add_sub_cancel, swap_self, if_neg (by omega), reverse_singleton]
  | cons_append a middle b ih =>
    have hlength : before.length + (a :: (middle ++ [b])).length - 1 =
        before.length + middle.length + 1 := by
      simp only [length_cons, length_append, length_nil]
      omega
    have hlist : before ++ (a :: (middle ++ [b]) ++ after) =
        before ++ a :: (middle ++ b :: after) := by simp
    unfold reverseLoop
    rw [hlength, hlist, swap_append, Nat.add_sub_cancel]
    -- the loop goes on while something lies between the two
    by_cases hmiddle : middle = []
    · rw [hmiddle, if_neg (by simp)]
      simp
    · have hpos := length_pos_iff.mpr hmiddle
      by_cases hone : middle.length = 1
      · -- the one element in between stays
        obtain ⟨c, rfl⟩ := length_eq_one_iff.mp hone
        rw [if_neg (by simp)]
        simp
      · have h := ih hmiddle (before ++ [b]) (a :: after)
        rw [length_append, length_singleton] at h
        dsimp only
        rw [if_pos (by omega)]
        rw [show before ++ b :: (middle ++ a :: after) = before ++ [b] ++ (middle ++ a :: after) by
          simp, show before.length + middle.length = before.length + 1 + middle.length - 1 by omega,
          h]
        simp

end List
