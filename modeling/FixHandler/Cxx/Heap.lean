import Mathlib

/-!
# Exceptions and the free store

The parts of the C++ runtime that programs with raw pointers and exceptions
rely on. A dereference of a null or dangling pointer is undefined in C++; here
it is an outcome of its own, `Exception.undefined`, so that a proof that a run
is free of it is a proof that the run never does it.
-/

namespace Cxx

/-- How a call can end other than by returning. -/
inductive Exception where
  /-- `std::invalid_argument` -/
  | invalidArgument (what : String)
  /-- `std::out_of_range` -/
  | outOfRange (what : String)
  /-- behaviour the language leaves undefined -/
  | undefined (what : String)
deriving DecidableEq, Repr

/-- An address in the free store. -/
abbrev Ptr := Nat

/-- The free store for objects of one type. Addresses are handed out in
    increasing order and never reused. -/
structure Heap (α : Type u) where
  cells : Ptr → Option α
  next : Ptr
  fresh : ∀ p, next ≤ p → cells p = none

namespace Heap

variable {α : Type u}

/-- Nothing allocated yet. -/
def empty : Heap α := ⟨fun _ => none, 0, fun _ _ => rfl⟩

/-- `new T(v)` -/
def alloc (h : Heap α) (v : α) : Heap α × Ptr :=
  (⟨Function.update h.cells h.next (some v), h.next + 1, fun p (hp : h.next < p) => by
    rw [Function.update_of_ne (Nat.ne_of_gt hp)]; exact h.fresh p (Nat.le_of_lt hp)⟩, h.next)

/-- `delete p` -/
def free (h : Heap α) (p : Ptr) : Heap α :=
  ⟨Function.update h.cells p none, h.next, fun q hq => by
    by_cases hqp : q = p
    · subst hqp; simp
    · rw [Function.update_of_ne hqp]; exact h.fresh q hq⟩

/-- `*p` -/
def deref (h : Heap α) (p : Ptr) : Except Exception α :=
  match h.cells p with
  | some v => .ok v
  | none => .error (.undefined "dangling pointer")

/-- Write through `p`. -/
def modify (h : Heap α) (p : Ptr) (f : α → α) : Heap α :=
  ⟨Function.update h.cells p ((h.cells p).map f), h.next, fun q hq => by
    by_cases hqp : q = p
    · subst hqp; simp [h.fresh q hq]
    · rw [Function.update_of_ne hqp]; exact h.fresh q hq⟩

/-- The next address is given out. -/
@[simp] theorem alloc_snd (h : Heap α) (v : α) : (h.alloc v).2 = h.next := rfl

/-- The new cell holds the value, the others what they held. -/
@[simp] theorem cells_alloc (h : Heap α) (v : α) (p : Ptr) :
    (h.alloc v).1.cells p = if p = h.next then some v else h.cells p := by
  simp [alloc, Function.update_apply]

/-- The freed cell is empty, the others hold what they held. -/
@[simp] theorem cells_free (h : Heap α) (p q : Ptr) :
    (h.free p).cells q = if q = p then none else h.cells q := by
  simp [free, Function.update_apply]

/-- The one cell is changed. -/
@[simp] theorem cells_modify (h : Heap α) (p : Ptr) (f : α → α) (q : Ptr) :
    (h.modify p f).cells q = if q = p then (h.cells p).map f else h.cells q := by
  simp [modify, Function.update_apply]

/-- A live pointer is not the next one to be handed out. -/
theorem ne_next_of_live {h : Heap α} {p : Ptr} {v : α} (hp : h.cells p = some v) :
    p ≠ h.next := by
  rintro rfl
  rw [h.fresh _ (Nat.le_refl _)] at hp
  exact nomatch hp

/-- A live pointer is read. -/
@[simp] theorem deref_of_live {h : Heap α} {p : Ptr} {v : α} (hp : h.cells p = some v) :
    h.deref p = .ok v := by
  simp [deref, hp]

end Heap

end Cxx
