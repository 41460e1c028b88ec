import Mathlib

/-!
# Machines with guarded actions

A `Guarded` machine has a state that actions change, and a guard that says in
which states an action may be taken. Its runs are lists of actions each of
which is allowed where it is taken; concurrent parties are modelled by letting
the actions of all of them occur in one run, in any order.

## Key results

- `Runs.invariant`: the induction rule for invariants
- `runs_append` / `Runs.of_isPrefix`: runs compose, and are closed under prefixes
- `Runs.countP_le`: actions that take something from a measure are bounded
- `Runs.of_not_restrict`: what the first action that fails a condition brings about
-/

/-- Actions `α` on states `σ`. -/
structure Guarded (σ : Type u) (α : Type v) where
  guard : σ → α → Prop
  apply : σ → α → σ

namespace Guarded

variable {σ : Type u} {α : Type v} (m : Guarded σ α)

/-- The state after a list of actions. -/
def exec (s : σ) (as : List α) : σ := as.foldl m.apply s

/-- No action -/
@[simp] theorem exec_nil (s : σ) : m.exec s [] = s := rfl

/-- The first action -/
@[simp] theorem exec_cons (s : σ) (a : α) (as : List α) :
    m.exec s (a :: as) = m.exec (m.apply s a) as := rfl

/-- Actions in two parts -/
@[simp] theorem exec_append (s : σ) (as bs : List α) :
    m.exec s (as ++ bs) = m.exec (m.exec s as) bs := List.foldl_append

/-- Every action is allowed in the state it is taken in. -/
def Runs (s : σ) : List α → Prop
  | [] => True
  | a :: as => m.guard s a ∧ Runs (m.apply s a) as

/-- No action has a guard. -/
@[simp] theorem runs_nil (s : σ) : m.Runs s [] := trivial

/-- The guard of the first action -/
@[simp] theorem runs_cons (s : σ) (a : α) (as : List α) :
    m.Runs s (a :: as) ↔ m.guard s a ∧ m.Runs (m.apply s a) as := Iff.rfl

instance decidableRuns [∀ s a, Decidable (m.guard s a)] (s : σ) :
    (as : List α) → Decidable (m.Runs s as)
  | [] => inferInstanceAs (Decidable True)
  | a :: as =>
    have := decidableRuns (m.apply s a) as
    inferInstanceAs (Decidable (m.guard s a ∧ m.Runs (m.apply s a) as))

/-- A run of a concatenation is a run of the first part and, from where it ends,
    of the second. -/
theorem runs_append (s : σ) (as bs : List α) :
    m.Runs s (as ++ bs) ↔ m.Runs s as ∧ m.Runs (m.exec s as) bs := by
  induction as generalizing s with
  | nil => simp
  | cons a as ih => simp [ih, and_assoc]

variable {m}

/-- A first part of a run is a run. -/
theorem Runs.of_isPrefix {s : σ} {as bs : List α} (h : m.Runs s bs) (hp : as <+: bs) :
    m.Runs s as := by
  obtain ⟨cs, rfl⟩ := hp
  exact ((m.runs_append s as cs).mp h).1

/-- What holds at the start and is preserved by every allowed action holds at
    the end of every run. -/
theorem Runs.invariant {I : σ → Prop}
    (step : ∀ s a, I s → m.guard s a → I (m.apply s a))
    {s : σ} {as : List α} (h : m.Runs s as) (hs : I s) : I (m.exec s as) := by
  induction as generalizing s with
  | nil => exact hs
  | cons a as ih => exact ih h.2 (step s a hs h.1)

/-- What holds at the start and is preserved by every allowed action of a kind holds at
    the end of every run of such actions. -/
theorem Runs.invariant_of_forall {I : σ → Prop} {P : α → Prop}
    (step : ∀ s a, I s → m.guard s a → P a → I (m.apply s a))
    {s : σ} {as : List α} (h : m.Runs s as) (hP : ∀ a ∈ as, P a) (hs : I s) : I (m.exec s as) := by
  induction as generalizing s with
  | nil => exact hs
  | cons a as ih =>
    exact ih h.2 (fun b hb => hP b (List.mem_cons_of_mem _ hb))
      (step s a hs h.1 (hP a List.mem_cons_self))

/-- The machine in which an action has to meet a condition also. -/
def restrict (m : Guarded σ α) (C : σ → α → Prop) : Guarded σ α :=
  { m with guard := fun s a => m.guard s a ∧ C s a }

/-- A run some action of which fails the condition `C`: what such an action brings about, and
    what every action keeps from there on, holds at the end. -/
theorem Runs.of_not_restrict {C : σ → α → Prop} {I J : σ → Prop}
    (met : ∀ s a, I s → m.guard s a → C s a → I (m.apply s a))
    (failed : ∀ s a, I s → m.guard s a → ¬ C s a → J (m.apply s a))
    (step : ∀ s a, J s → m.guard s a → J (m.apply s a))
    {s : σ} {as : List α} (h : m.Runs s as) (hC : ¬ (m.restrict C).Runs s as) (hs : I s) :
    J (m.exec s as) := by
  induction as generalizing s with
  | nil => exact absurd trivial hC
  | cons a as ih =>
    by_cases hmet : C s a
    · exact ih h.2 (fun hrest => hC ⟨⟨h.1, hmet⟩, hrest⟩) (met s a hs h.1 hmet)
    · show J (m.exec (m.apply s a) as)
      exact Runs.invariant step h.2 (failed s a hs h.1 hmet)

/-- Where every action of a kind takes something from a measure to which no other action adds,
    a run has no more actions of the kind than the measure at its start. -/
theorem Runs.countP_le {I : σ → Prop} {f : σ → Nat} {p : α → Bool}
    (step : ∀ s a, I s → m.guard s a → I (m.apply s a))
    (hlt : ∀ s a, I s → m.guard s a → p a = true → f (m.apply s a) < f s)
    (hle : ∀ s a, I s → m.guard s a → p a = false → f (m.apply s a) ≤ f s)
    {s : σ} {as : List α} (h : m.Runs s as) (hs : I s) : as.countP p ≤ f s := by
  induction as generalizing s with
  | nil => exact Nat.zero_le _
  | cons a as ih =>
    have hrest := ih h.2 (step s a hs h.1)
    cases hp : p a with
    | true =>
      -- a counted step makes the measure smaller
      have := hlt s a hs h.1 hp
      rw [List.countP_cons_of_pos hp]
      omega
    | false =>
      -- any other step does not make it larger
      have := hle s a hs h.1 hp
      rw [List.countP_cons_of_neg (by rw [hp]; exact Bool.false_ne_true)]
      omega

end Guarded
