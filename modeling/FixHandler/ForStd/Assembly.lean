import Mathlib

/-!
# Assembling numbered parts

Parts are numbered from 1 and arrive in any order, some of them lost and some more than once. The
part that comes next is kept, part 1 starts again, and all others are dropped. What is kept are
parts 1, 2, 3 and so on, each once.

## Key results

- `numbered_assemble`: the parts that are kept
- `assemble_of_numbered`: parts that arrive in order are all kept
-/

namespace Assembly

variable {α : Type*} (number : α → Nat)

/-- A part arrives. -/
def accept (parts : List α) (p : α) : List α :=
  if number p = 1 then [p]
  else if number p = parts.length + 1 then parts ++ [p]
  else parts

/-- The parts that are kept of what arrives -/
def assemble (arrived : List α) : List α := arrived.foldl (accept number) []

/-- Part `k` is at place `k`. -/
def Numbered (parts : List α) : Prop :=
  ∀ (k : Nat) (p : α), parts[k]? = some p → number p = k + 1

/-- The last one to arrive -/
theorem assemble_append_singleton (arrived : List α) (p : α) :
    assemble number (arrived ++ [p]) = accept number (assemble number arrived) p :=
  List.foldl_concat _ _ _ _

variable {number}

/-- One part more -/
theorem numbered_append_singleton {parts : List α} {p : α} :
    Numbered number (parts ++ [p]) ↔ Numbered number parts ∧ number p = parts.length + 1 := by
  constructor
  · intro h
    refine ⟨fun k q hq => h k q ?_, h _ p (List.getElem?_concat_length ..)⟩
    rw [List.getElem?_append_left (List.getElem?_eq_some_iff.mp hq).1, hq]
  · rintro ⟨h, hp⟩ k q hq
    rcases Nat.lt_trichotomy k parts.length with hlt | rfl | hgt
    · rw [List.getElem?_append_left hlt] at hq
      exact h k q hq
    · rw [List.getElem?_concat_length] at hq
      cases hq
      exact hp
    · rw [List.getElem?_eq_none (by simp; omega)] at hq
      exact nomatch hq

/-- The numbers are 1, 2 and so on. -/
theorem numbered_iff_map_eq {parts : List α} :
    Numbered number parts ↔ parts.map number = List.range' 1 parts.length := by
  induction parts using List.reverseRecOn with
  | nil => exact iff_of_true (fun k p hp => nomatch hp) rfl
  | append_singleton parts p ih =>
    rw [numbered_append_singleton, ih, List.map_append, List.length_append, List.length_singleton,
      List.range'_1_concat]
    constructor
    · rintro ⟨hparts, hp⟩
      rw [hparts, List.map_singleton, hp, Nat.add_comm]
    · intro h
      obtain ⟨hparts, hp⟩ := List.append_inj h (by simp)
      exact ⟨hparts, (List.singleton_inj.mp hp).trans (Nat.add_comm _ _)⟩

instance (parts : List α) : Decidable (Numbered number parts) :=
  decidable_of_iff _ numbered_iff_map_eq.symm

/-- What is accepted carries the next number. -/
theorem Numbered.accept {parts : List α} (h : Numbered number parts) (p : α) :
    Numbered number (accept number parts p) := by
  unfold Assembly.accept
  split
  · next hp =>
    refine (numbered_append_singleton : Numbered number ([] ++ [p]) ↔ _).mpr ⟨?_, hp⟩
    intro k q hq
    exact nomatch hq
  · split
    · next hp => exact numbered_append_singleton.mpr ⟨h, hp⟩
    · exact h

/-- What is kept is numbered. -/
theorem numbered_assemble (arrived : List α) : Numbered number (assemble number arrived) := by
  induction arrived using List.reverseRecOn with
  | nil =>
    intro k p hp
    exact nomatch hp
  | append_singleton arrived p ih =>
    rw [assemble_append_singleton]
    exact ih.accept p

/-- Only parts that arrived are kept. -/
theorem assemble_subset (arrived : List α) : assemble number arrived ⊆ arrived := by
  induction arrived using List.reverseRecOn with
  | nil => exact List.Subset.refl _
  | append_singleton arrived p ih =>
    have hleft : assemble number arrived ⊆ arrived ++ [p] :=
      List.Subset.trans ih (List.subset_append_left _ _)
    rw [assemble_append_singleton]
    unfold accept
    split
    · exact List.subset_append_right _ _
    · split
      · exact List.append_subset.mpr ⟨hleft, List.subset_append_right _ _⟩
      · exact hleft

/-- Parts that arrive in order are all kept. -/
theorem assemble_of_numbered {parts : List α} (h : Numbered number parts) :
    assemble number parts = parts := by
  induction parts using List.reverseRecOn with
  | nil => rfl
  | append_singleton parts p ih =>
    obtain ⟨hparts, hp⟩ := numbered_append_singleton.mp h
    rw [assemble_append_singleton, ih hparts]
    unfold accept
    by_cases hone : number p = 1
    · have hnil : parts = [] := List.length_eq_zero_iff.mp (by omega)
      rw [if_pos hone, hnil]
      rfl
    · rw [if_neg hone, if_pos hp]

end Assembly
