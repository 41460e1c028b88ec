import Mathlib
import FixHandler.ForStd.EachStep

/-!
# A threshold that is set by the first hit

A counter waits for its first hit, which sets its level. The weights of the later hits are
added up, and it fires as soon as the sum is over the level. It fires at once where it is
told to.

## Key results

- `foldl_step_of_not_fired`, `foldl_step_of_fired`: the counter behind a sequence of events, in
  terms of its first hit and of the sum of the later ones
- `total_le_of_prefix`: the sum never falls
-/

namespace Threshold

/-- What a counter sees -/
inductive Event where
  | skip
  | fire
  | hit (level weight : Nat)
deriving DecidableEq, Repr

/-- A counter before its first hit, with a level to pass, or done -/
inductive Counter where
  | idle
  | armed (level total : Nat)
  | fired
deriving DecidableEq, Repr

/-- The first hit arms the counter, the later ones add up. -/
def Counter.step : Counter → Event → Counter
  | .fired, _ => .fired
  | counter, .skip => counter
  | _, .fire => .fired
  | .idle, .hit level _ => .armed level 0
  | .armed level total, .hit _ weight =>
    if level < total + weight then .fired else .armed level (total + weight)

/-- The level and the weight of a hit -/
def hit? : Event → Option (Nat × Nat)
  | .hit level weight => some (level, weight)
  | _ => none

/-- The level that the first hit sets. -/
def level? (events : List Event) : Option Nat := (events.filterMap hit?).head?.map (·.1)

/-- The weights of all hits but the first one. -/
def total (events : List Event) : Nat := ((events.filterMap hit?).tail.map (·.2)).sum

/-- Whether the event `e` is one to fire at, behind the events `before`. -/
def Fires (before : List Event) (e : Event) : Prop :=
  e = .fire ∨ e ≠ .skip ∧ ∃ level, level? before = some level ∧ level < total (before ++ [e])

/-- Some event fires. -/
def Fired (events : List Event) : Prop :=
  ∃ before e, before ++ [e] <+: events ∧ Fires before e

variable {events : List Event} {e : Event}

/-- No event fires after those before it. -/
theorem not_fired_iff : ¬ Fired events ↔ events.EachStep fun before e => ¬ Fires before e := by
  unfold Fired List.EachStep
  push Not
  rfl

/-- The last event -/
theorem not_fired_append_singleton :
    ¬ Fired (events ++ [e]) ↔ ¬ Fired events ∧ ¬ Fires events e := by
  rw [not_fired_iff, not_fired_iff, List.eachStep_append_singleton]

/-- Once fired, always fired -/
theorem Fired.append (h : Fired events) : Fired (events ++ [e]) := by
  obtain ⟨before, e', hpfx, hfires⟩ := h
  exact ⟨before, e', hpfx.trans (List.prefix_append events [e]), hfires⟩

/-- The event that fires -/
theorem Fires.fired (h : Fires events e) : Fired (events ++ [e]) :=
  ⟨events, e, List.prefix_rfl, h⟩

/-! ## The first hit and the later ones -/

/-- The first hit sets the level. -/
theorem level?_append : level? (events ++ [e]) =
    (level? events).or ((hit? e).map (·.1)) := by
  unfold level?
  rw [List.filterMap_append, List.head?_append]
  cases (events.filterMap hit?).head? <;> cases h : hit? e <;> simp [h]

/-- Without a hit there is no level. -/
theorem level?_eq_none : level? events = none ↔ events.filterMap hit? = [] := by
  rw [level?, Option.map_eq_none_iff, List.head?_eq_none_iff]

/-- The first hit does not count. -/
theorem total_append_of_none (h : level? events = none) : total (events ++ [e]) = 0 := by
  unfold total
  rw [List.filterMap_append, level?_eq_none.mp h, List.nil_append]
  cases he : hit? e <;> simp [he]

/-- After the first hit the weights add up. -/
theorem total_append_of_some {level : Nat} (h : level? events = some level) :
    total (events ++ [e]) = total events + ((hit? e).map (·.2)).getD 0 := by
  unfold total
  have hne : events.filterMap hit? ≠ [] := fun h' => by
    rw [level?_eq_none.mpr h'] at h
    exact nomatch h
  rw [List.filterMap_append, List.tail_append_of_ne_nil hne, List.map_append, List.sum_append]
  cases he : hit? e <;> simp [he]

/-- Without a hit nothing adds up. -/
theorem total_of_none (h : level? events = none) : total events = 0 := by
  rw [total, level?_eq_none.mp h]
  rfl

/-- The total does not fall. -/
theorem total_le_append : total events ≤ total (events ++ [e]) := by
  cases hlevel : level? events with
  | none => rw [total_of_none hlevel]; exact Nat.zero_le _
  | some level => rw [total_append_of_some hlevel]; exact Nat.le_add_right ..

/-- The total does not fall. -/
theorem total_le_of_prefix {before : List Event} (h : before <+: events) :
    total before ≤ total events := by
  induction events using List.reverseRecOn with
  | nil => rw [List.prefix_nil.mp h]
  | append_singleton events e ih =>
    rcases List.prefix_concat_iff.mp h with rfl | h
    · exact le_rfl
    · exact (ih h).trans total_le_append

/-! ## The counter -/

/-- The counter behind events none of which it fires at. -/
def counterOf (events : List Event) : Counter :=
  match level? events with
  | none => .idle
  | some level => .armed level (total events)

/-- An event the counter does not fire at. -/
theorem step_of_not_fires (h : ¬ Fires events e) :
    (counterOf events).step e = counterOf (events ++ [e]) := by
  unfold Fires at h
  push Not at h
  obtain ⟨hfire, hlevel⟩ := h
  unfold counterOf
  rw [level?_append]
  -- armed already or not
  cases hevents : level? events with
  | none =>
    cases e with
    | skip => rfl
    | fire => exact absurd rfl hfire
    | hit level weight =>
      show Counter.armed level 0 = .armed level (total (events ++ [.hit level weight]))
      rw [total_append_of_none hevents]
  | some level =>
    cases e with
    | skip =>
      show Counter.armed level (total events) = .armed level (total (events ++ [.skip]))
      rw [total_append_of_some hevents]
      rfl
    | fire => exact absurd rfl hfire
    | hit level' weight =>
      have htotal : total (events ++ [.hit level' weight]) = total events + weight :=
        total_append_of_some hevents
      have hbelow := hlevel (by simp) level hevents
      rw [htotal] at hbelow
      show (if level < total events + weight then Counter.fired
        else .armed level (total events + weight)) = .armed level (total _)
      rw [if_neg (by omega), htotal]

/-- The event that fires ends the count. -/
theorem step_of_fires (h : Fires events e) : (counterOf events).step e = .fired := by
  unfold counterOf
  rcases h with rfl | ⟨hskip, level, hlevel, hover⟩
  · cases level? events <;> rfl
  · rw [hlevel]
    cases e with
    | skip => exact absurd rfl hskip
    | fire => rfl
    | hit level' weight =>
      rw [total_append_of_some hlevel] at hover
      exact if_pos hover

/-- The counter shows what the events say. -/
theorem foldl_step (events : List Event) :
    (¬ Fired events → events.foldl Counter.step .idle = counterOf events) ∧
      (Fired events → events.foldl Counter.step .idle = .fired) := by
  induction events using List.reverseRecOn with
  | nil =>
    refine ⟨fun _ => rfl, ?_⟩
    rintro ⟨before, e, hpfx, -⟩
    exact absurd (List.prefix_nil.mp hpfx) (by simp)
  | append_singleton events e ih =>
    rw [List.foldl_append, List.foldl_cons, List.foldl_nil]
    -- once it has fired nothing changes
    by_cases hfired : Fired events
    · rw [ih.2 hfired]
      exact ⟨fun h => absurd hfired.append h, fun _ => rfl⟩
    rw [ih.1 hfired]
    -- the event itself fires, or the counter goes on
    by_cases hfires : Fires events e
    · exact ⟨fun h => absurd hfires.fired h, fun _ => step_of_fires hfires⟩
    · exact ⟨fun _ => step_of_not_fires hfires,
        fun h => absurd h (not_fired_append_singleton.mpr ⟨hfired, hfires⟩)⟩

/-- A counter that has not fired stands at the level of the first hit, with the weights of the
    later ones. -/
theorem foldl_step_of_not_fired (h : ¬ Fired events) :
    events.foldl Counter.step .idle = counterOf events := (foldl_step events).1 h

/-- The count has ended. -/
theorem foldl_step_of_fired (h : Fired events) : events.foldl Counter.step .idle = .fired :=
  (foldl_step events).2 h

/-- An armed counter has the level and the total of the events. -/
theorem of_foldl_step_eq_armed {level sum : Nat}
    (h : events.foldl Counter.step .idle = .armed level sum) :
    level? events = some level ∧ total events = sum := by
  by_cases hfired : Fired events
  · rw [foldl_step_of_fired hfired] at h
    exact nomatch h
  · rw [foldl_step_of_not_fired hfired, counterOf] at h
    cases hlevel : level? events with
    | none =>
      rw [hlevel] at h
      exact nomatch h
    | some level' =>
      rw [hlevel] at h
      cases h
      exact ⟨rfl, rfl⟩

/-- The level is the one of a hit. -/
theorem mem_of_level? {level : Nat} (h : level? events = some level) :
    ∃ weight, Event.hit level weight ∈ events := by
  obtain ⟨⟨level', weight⟩, hhead, rfl⟩ := Option.map_eq_some_iff.mp h
  obtain ⟨e, he, hhit⟩ := List.mem_filterMap.mp (List.mem_of_mem_head? hhead)
  cases e with
  | skip => exact nomatch hhit
  | fire => exact nomatch hhit
  | hit level'' weight' =>
    cases hhit
    exact ⟨_, he⟩

end Threshold
