import Mathlib

/-!
# Outcomes of stateful computations that may throw

A computation in `EStateM ε σ` ends normally or throws, and in both cases
leaves a state behind. `Result.Sat r Q E` says that a normal end satisfies `Q`
and a throw satisfies `E`. The rules below are the ones a proof by symbolic
execution needs: one for each way of composing computations, and consequence.

`Moves R x` says that `x` leads from every state to one that the preorder `R` relates to it. It
has a rule for each way of composing computations too, loops over a list included.

`Agree R x y` says that two computations, over states of two types that `R`
relates, give the same value or throw the same, and leave related states behind.
-/

namespace EStateM

variable {ε σ α β : Type u}

/-- A normal end satisfies `Q`; a throw satisfies `E`. -/
def Result.Sat (r : Result ε σ α) (Q : α → σ → Prop) (E : ε → σ → Prop) : Prop :=
  match r with
  | .ok a s => Q a s
  | .error e s => E e s

/-- The state a computation leaves behind, however it ends. -/
def Result.state : Result ε σ α → σ
  | .ok _ s => s
  | .error _ s => s

/-- A value satisfies its own condition. -/
@[simp] theorem Result.sat_ok (a : α) (s : σ) (Q : α → σ → Prop) (E : ε → σ → Prop) :
    (Result.ok a s : Result ε σ α).Sat Q E ↔ Q a s := Iff.rfl

/-- An error satisfies its own condition. -/
@[simp] theorem Result.sat_error (e : ε) (s : σ) (Q : α → σ → Prop) (E : ε → σ → Prop) :
    (Result.error e s : Result ε σ α).Sat Q E ↔ E e s := Iff.rfl

/-- Consequence: both postconditions may be weakened. -/
theorem Result.Sat.mono {r : Result ε σ α} {Q Q' : α → σ → Prop} {E E' : ε → σ → Prop}
    (h : r.Sat Q E) (hQ : ∀ a s, Q a s → Q' a s) (hE : ∀ e s, E e s → E' e s) :
    r.Sat Q' E' := by
  cases r with
  | ok a s => exact hQ a s h
  | error e s => exact hE e s h

/-- What holds of both ends holds of the state left behind. -/
theorem Result.Sat.state {r : Result ε σ α} {P : σ → Prop}
    (h : r.Sat (fun _ => P) (fun _ => P)) : P r.state := by
  cases r <;> exact h

/-- Sequencing: the second computation starts where the first ended. -/
theorem sat_bind {x : EStateM ε σ α} {f : α → EStateM ε σ β} {s : σ}
    {Q : β → σ → Prop} {E : ε → σ → Prop}
    (h : (x s).Sat (fun a s' => (f a s').Sat Q E) E) : ((x >>= f) s).Sat Q E := by
  simp only [bind, EStateM.bind]
  cases hx : x s with
  | ok a s' => rw [hx] at h; exact h
  | error e s' => rw [hx] at h; exact h

/-- A first computation with a known normal end is stepped over. -/
theorem bind_eq_of_ok {x : EStateM ε σ α} {f : α → EStateM ε σ β} {s s' : σ} {a : α}
    (h : x s = .ok a s') : (x >>= f) s = f a s' := by
  simp only [bind, EStateM.bind, h]

/-- A first computation that throws ends the whole. -/
theorem bind_eq_of_error {x : EStateM ε σ α} {f : α → EStateM ε σ β} {s s' : σ} {e : ε}
    (h : x s = .error e s') : (x >>= f) s = .error e s' := by
  simp only [bind, EStateM.bind, h]

/-- A sequence ends normally if both of its parts do. -/
theorem bind_eq_ok {x : EStateM ε σ α} {f : α → EStateM ε σ β} {s s'' : σ} {b : β} :
    (x >>= f) s = .ok b s'' ↔ ∃ a s', x s = .ok a s' ∧ f a s' = .ok b s'' := by
  cases h : x s with
  | ok a s' =>
    rw [bind_eq_of_ok h]
    refine ⟨fun hf => ⟨a, s', rfl, hf⟩, ?_⟩
    rintro ⟨_, _, ⟨⟩, hf⟩
    exact hf
  | error e s' =>
    rw [bind_eq_of_error h]
    exact ⟨(nomatch ·), fun ⟨_, _, hx, _⟩ => nomatch hx⟩

/-- The state is read. -/
theorem get_bind {f : σ → EStateM ε σ α} (s : σ) : (get >>= f) s = f s s := rfl

/-- The state is changed. -/
theorem modify_eq (f : σ → σ) (s : σ) :
    (modify f : EStateM ε σ PUnit) s = .ok .unit (f s) := rfl

/-- Lift a computation that touches no state. -/
def ofExcept : Except ε α → EStateM ε σ α
  | .ok a => pure a
  | .error e => throw e

/-- A value is taken over. -/
@[simp] theorem ofExcept_ok (a : α) (s : σ) :
    (ofExcept (.ok a) : EStateM ε σ α) s = .ok a s := rfl

/-- An error is taken over. -/
@[simp] theorem ofExcept_error (e : ε) (s : σ) :
    (ofExcept (.error e) : EStateM ε σ α) s = .error e s := rfl

/-! ## Where a computation can get -/

section Moves

variable {ε σ α β γ : Type} {R : σ → σ → Prop}

/-- However the computation ends, it leaves a state behind that is related to its first one. -/
def Moves (R : σ → σ → Prop) (x : EStateM ε σ α) : Prop := ∀ s, R s (x s).state

/-- A change of the state within the relation -/
theorem Moves.modify {f : σ → σ} (h : ∀ s, R s (f s)) :
    Moves R (modify f : EStateM ε σ PUnit) := h

/-- Only the states that can be read have to be considered. -/
theorem Moves.get_bind {f : σ → EStateM ε σ α} (h : ∀ s, R s (f s s).state) :
    Moves R (get >>= f) := h

/-- One branch or the other -/
theorem Moves.ite {c : Prop} [Decidable c] {x y : EStateM ε σ α} (hx : Moves R x)
    (hy : Moves R y) : Moves R (if c then x else y) := by
  split
  · exact hx
  · exact hy

variable [IsPreorder σ R]

/-- A value leaves the state. -/
theorem Moves.pure (a : α) : Moves R (Pure.pure a : EStateM ε σ α) :=
  fun s => Std.Refl.refl s

/-- An error leaves the state. -/
theorem Moves.throw (e : ε) : Moves R (throw e : EStateM ε σ α) :=
  fun s => Std.Refl.refl s

/-- What is taken over leaves the state. -/
theorem Moves.ofExcept (x : Except ε α) : Moves R (ofExcept x : EStateM ε σ α) := by
  intro s
  cases x <;> exact Std.Refl.refl s

/-- What goes on may use which value the first computation ends with. -/
theorem Moves.bind_of_ok {x : EStateM ε σ α} {f : α → EStateM ε σ β} (hx : Moves R x)
    (hf : ∀ s a s', x s = .ok a s' → Moves R (f a)) : Moves R (x >>= f) := by
  intro s
  have hs := hx s
  cases h : x s with
  | ok a s' =>
    rw [h] at hs
    rw [EStateM.bind_eq_of_ok h]
    exact IsTrans.trans s s' _ hs (hf s a s' h s')
  | error e s' =>
    rw [h] at hs
    rw [bind_eq_of_error h]
    exact hs

/-- One action after the other -/
theorem Moves.bind {x : EStateM ε σ α} {f : α → EStateM ε σ β} (hx : Moves R x)
    (hf : ∀ a, Moves R (f a)) : Moves R (x >>= f) :=
  hx.bind_of_ok fun _ a _ _ => hf a

/-- An action for every element -/
theorem Moves.forM {f : γ → EStateM ε σ PUnit} (h : ∀ a, Moves R (f a)) (l : List γ) :
    Moves R (l.forM f) := by
  induction l with
  | nil => exact .pure _
  | cons a l ih => exact (h a).bind fun _ => ih

end Moves

/-! ## Two computations -/

section Agree

variable {ε σ τ α β γ : Type} {R : σ → τ → Prop}

/-- Two ends with the same value, or the same error, and related states. -/
def Result.Agree (R : σ → τ → Prop) : Result ε σ α → Result ε τ α → Prop
  | .ok a s, .ok b t => a = b ∧ R s t
  | .error e s, .error f t => e = f ∧ R s t
  | _, _ => False

/-- From related states two computations end alike. -/
def Agree (R : σ → τ → Prop) (x : EStateM ε σ α) (y : EStateM ε τ α) : Prop :=
  ∀ s t, R s t → (x s).Agree R (y t)

/-- The same value on both sides -/
theorem Agree.pure (a : α) : Agree R (Pure.pure a : EStateM ε σ α) (Pure.pure a) :=
  fun _ _ h => ⟨rfl, h⟩

/-- One action after the other, on both sides -/
theorem Agree.bind {x : EStateM ε σ α} {y : EStateM ε τ α} {f : α → EStateM ε σ β}
    {g : α → EStateM ε τ β} (hx : Agree R x y) (hf : ∀ a, Agree R (f a) (g a)) :
    Agree R (x >>= f) (y >>= g) := by
  intro s t h
  have hst := hx s t h
  cases hs : x s with
  | ok a s' =>
    cases ht : y t with
    | ok b t' =>
      rw [hs, ht] at hst
      obtain ⟨rfl, h'⟩ := hst
      rw [bind_eq_of_ok hs, bind_eq_of_ok ht]
      -- both go on from states that are related
      exact hf a s' t' h'
    | error e t' =>
      rw [hs, ht] at hst
      -- one of the two returning alone is excluded
      exact hst.elim
  | error e s' =>
    cases ht : y t with
    | ok b t' =>
      rw [hs, ht] at hst
      exact hst.elim
    | error f t' =>
      rw [hs, ht] at hst
      rw [bind_eq_of_error hs, bind_eq_of_error ht]
      exact hst

/-- What goes on from the state may use that the states are related. -/
theorem Agree.get_bind {f : σ → EStateM ε σ α} {g : τ → EStateM ε τ α}
    (h : ∀ s t, R s t → Agree R (f s) (g t)) : Agree R (get >>= f) (get >>= g) :=
  fun s t hst => h s t hst s t hst

/-- Changes of the two states that keep the relation -/
theorem Agree.modify {f : σ → σ} {g : τ → τ} (h : ∀ s t, R s t → R (f s) (g t)) :
    Agree R (modify f : EStateM ε σ PUnit) (modify g) :=
  fun s t hst => ⟨rfl, h s t hst⟩

/-- The same value or error on both sides -/
theorem Agree.ofExcept (x : Except ε α) :
    Agree R (ofExcept x : EStateM ε σ α) (EStateM.ofExcept x) := by
  intro s t h
  cases x <;> exact ⟨rfl, h⟩

/-- The same branch on both sides -/
theorem Agree.ite {c : Prop} [Decidable c] {x x' : EStateM ε σ α} {y y' : EStateM ε τ α}
    (h : Agree R x y) (h' : Agree R x' y') :
    Agree R (if c then x else x') (if c then y else y') := by
  split
  · exact h
  · exact h'

/-- A loop over the same list. -/
theorem Agree.forM {f : γ → EStateM ε σ PUnit} {g : γ → EStateM ε τ PUnit}
    (h : ∀ a, Agree R (f a) (g a)) (l : List γ) : Agree R (l.forM f) (l.forM g) := by
  induction l with
  | nil => exact .pure _
  | cons a l ih => exact (h a).bind fun _ => ih

end Agree

end EStateM
