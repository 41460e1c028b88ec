import Mathlib

/-!
# What holds at each step of a sequence

A property of a step and of what came before it, for all steps of a sequence.

## Key results

- `eachStep_append_singleton`: the steps of a longer sequence
- `eachStep_congr`: properties that are equivalent as long as one of them held before
-/

namespace List

variable {α : Type u}

/-- `Q` holds of each element and what is before it. -/
def EachStep (Q : List α → α → Prop) (l : List α) : Prop :=
  ∀ before a, before ++ [a] <+: l → Q before a

variable {Q R : List α → α → Prop}

/-- There is no step. -/
@[simp] theorem eachStep_nil : EachStep Q [] := by
  intro before a h
  exact absurd (prefix_nil.mp h) (append_ne_nil_of_right_ne_nil _ (cons_ne_nil a []))

/-- The steps of a first part -/
theorem EachStep.of_prefix {l l' : List α} (h : EachStep Q l') (hl : l <+: l') : EachStep Q l :=
  fun before a ha => h before a (ha.trans hl)

/-- The last step -/
theorem eachStep_append_singleton {l : List α} {a : α} :
    EachStep Q (l ++ [a]) ↔ EachStep Q l ∧ Q l a := by
  constructor
  · exact fun h => ⟨h.of_prefix (prefix_append l [a]), h l a (prefix_refl _)⟩
  · rintro ⟨hl, ha⟩ before b hb
    rcases prefix_concat_iff.mp hb with heq | hpfx
    · obtain ⟨rfl, hsingle⟩ := append_inj' heq rfl
      cases hsingle
      exact ha
    · exact hl before b hpfx

/-- Two properties agree if they agree at each step before which the first one held. -/
theorem eachStep_congr {l : List α}
    (h : ∀ before a, before ++ [a] <+: l → EachStep Q before → (Q before a ↔ R before a)) :
    EachStep Q l ↔ EachStep R l := by
  induction l using List.reverseRecOn with
  | nil => exact iff_of_true eachStep_nil eachStep_nil
  | append_singleton l a ih =>
    have ih := ih fun before b hb => h before b (hb.trans (prefix_append l [a]))
    rw [eachStep_append_singleton, eachStep_append_singleton, ← ih]
    constructor
    · exact fun ⟨hl, ha⟩ => ⟨hl, (h l a (prefix_refl _) hl).mp ha⟩
    · exact fun ⟨hl, ha⟩ => ⟨hl, (h l a (prefix_refl _) hl).mpr ha⟩

end List
