import Mathlib

/-!
# Greedy filling

A quantity is filled from a list of offers, one after the other: each offer is taken whole until
what is left is not more than the next one.

## Key results

- `fill_total`: what is taken and what is left are the quantity
- `fill_rest`: what is left is what the offers cannot fill
- `length_fill_cons_eq_one`: one offer is taken if it is the only one or if it is enough
- `fill_getElem?`: each offer that is taken but the last is taken whole, and the last as far as it
  is needed
- `fill_exhausted`: something is left only if all offers are taken
-/

namespace Greedy

/-- What is taken of each offer, and what is left. -/
def fill : Nat → List Nat → List Nat × Nat
  | n, [] => ([], n)
  | n, q :: qs =>
    if n - min n q = 0 then ([min n q], 0)
    else (min n q :: (fill (n - min n q) qs).1, (fill (n - min n q) qs).2)

/-- The first queue is enough. -/
theorem fill_cons_of_le {n q : Nat} (h : n ≤ q) (qs : List Nat) :
    fill n (q :: qs) = ([n], 0) := by
  rw [fill, min_eq_left h, if_pos (Nat.sub_self n)]

/-- The first queue is used up. -/
theorem fill_cons_of_lt {n q : Nat} (h : q < n) (qs : List Nat) :
    fill n (q :: qs) = (q :: (fill (n - q) qs).1, (fill (n - q) qs).2) := by
  rw [fill, min_eq_right h.le, if_neg (by omega)]

/-- Nothing gets lost. -/
theorem fill_total (n : Nat) (qs : List Nat) : (fill n qs).1.sum + (fill n qs).2 = n := by
  induction qs generalizing n with
  | nil => exact Nat.zero_add n
  | cons q qs ih =>
    rcases Nat.lt_or_ge q n with h | h
    · rw [fill_cons_of_lt h, List.sum_cons]
      have := ih (n - q)
      omega
    · rw [fill_cons_of_le h]
      exact List.sum_singleton

/-- What is left is what the offers cannot fill. -/
theorem fill_rest (n : Nat) (qs : List Nat) : (fill n qs).2 = n - qs.sum := by
  induction qs generalizing n with
  | nil => exact (Nat.sub_zero n).symm
  | cons q qs ih =>
    rcases Nat.lt_or_ge q n with h | h
    · rw [fill_cons_of_lt h, List.sum_cons, ih, Nat.sub_sub]
    · rw [fill_cons_of_le h, List.sum_cons]
      show 0 = n - (q + qs.sum)
      omega

/-- One offer is taken if it is the only one or if it is enough. -/
theorem length_fill_cons_eq_one {n q : Nat} {qs : List Nat} :
    (fill n (q :: qs)).1.length = 1 ↔ qs = [] ∨ n ≤ q := by
  rcases Nat.lt_or_ge q n with h | h
  · rw [fill_cons_of_lt h, List.length_cons, Nat.succ_inj, List.length_eq_zero_iff]
    have hno : ¬ n ≤ q := by omega
    cases qs with
    | nil => exact iff_of_true rfl (.inl rfl)
    | cons q' qs =>
      refine iff_of_false ?_ (by simp [hno])
      rw [fill]
      split <;> simp
  · rw [fill_cons_of_le h]
    exact iff_of_true rfl (.inr h)

/-- What is taken of an offer. -/
theorem fill_getElem? {n i x : Nat} {qs : List Nat} (h : (fill n qs).1[i]? = some x) :
    ∃ q, qs[i]? = some q ∧ x = min (n - ((fill n qs).1.take i).sum) q ∧
      (i + 1 < (fill n qs).1.length → x = q) := by
  induction qs generalizing n i with
  | nil => exact nomatch h
  | cons q qs ih =>
    rcases Nat.lt_or_ge q n with hlt | hge
    · rw [fill_cons_of_lt hlt] at h ⊢
      cases i with
      | zero =>
        cases h
        exact ⟨x, rfl, by simp [hlt.le], fun _ => rfl⟩
      | succ i =>
        rw [List.getElem?_cons_succ] at h
        obtain ⟨q', hq', hx, hwhole⟩ := ih h
        refine ⟨q', hq', ?_, fun hi => hwhole (by simpa using hi)⟩
        rw [List.take_succ_cons, List.sum_cons, Nat.sub_add_eq, ← hx]
    · rw [fill_cons_of_le hge] at h ⊢
      cases i with
      | zero =>
        cases h
        exact ⟨q, rfl, by simp [hge], fun hi => absurd hi (by simp)⟩
      | succ i => exact nomatch h

/-- Something is taken of each offer, if there is something to fill and to take. -/
theorem fill_pos {n x : Nat} (hn : 0 < n) {qs : List Nat} (hqs : ∀ q ∈ qs, 0 < q)
    (hx : x ∈ (fill n qs).1) : 0 < x := by
  induction qs generalizing n with
  | nil => exact nomatch hx
  | cons q qs ih =>
    rcases Nat.lt_or_ge q n with h | h
    · rw [fill_cons_of_lt h] at hx
      rcases List.mem_cons.mp hx with rfl | hx
      · exact hqs x List.mem_cons_self
      · exact ih (by omega) (fun q' hq' => hqs q' (List.mem_cons_of_mem q hq')) hx
    · rw [fill_cons_of_le h] at hx
      rw [List.mem_singleton.mp hx]
      exact hn

/-- What is left over was too much for all queues. -/
theorem fill_exhausted {n : Nat} {qs : List Nat} (h : (fill n qs).2 ≠ 0) :
    (fill n qs).1.length = qs.length := by
  induction qs generalizing n with
  | nil => rfl
  | cons q qs ih =>
    rcases Nat.lt_or_ge q n with hlt | hge
    · rw [fill_cons_of_lt hlt] at h ⊢
      rw [List.length_cons, List.length_cons, ih h]
    · rw [fill_cons_of_le hge] at h
      exact absurd rfl h

end Greedy
