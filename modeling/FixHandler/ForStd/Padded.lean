import Mathlib

/-!
# Placing entries in a padded list

Entries come with positions and are placed one after the other in a list of at most `depth` rows.
An entry moves the rows from its position on one down; if the list does not reach its position,
blank rows fill the space. So an entry stays at its position until one for an earlier position
comes, and the blank rows never go but at the end.

## Key results

- `placed_placeAll`: where the rows come from
- `placeAll_eq_iff`: when each entry ends at its position
-/

namespace Padded

variable {α : Type*} (blank : α) (depth : Nat)

/-- An entry at its position, with blank rows up to it if there are too few, and no more than
    `depth` rows afterwards -/
def place (rows : List α) (e : Nat × α) : List α :=
  ((rows ++ List.replicate (e.1 - rows.length) blank).insertIdx e.1 e.2).take depth

/-- All entries, one after the other -/
def placeAll (es : List (Nat × α)) : List α := es.foldl (place blank depth) []

/-- The last entry -/
theorem placeAll_append_singleton (es : List (Nat × α)) (e : Nat × α) :
    placeAll blank depth (es ++ [e]) = place blank depth (placeAll blank depth es) e :=
  List.foldl_concat _ _ _ _

/-! ## One entry -/

section Place

variable {depth} (rows : List α) (e : Nat × α)

/-- The list grows by one row, or up to the new entry, within the depth. -/
theorem length_place :
    (place blank depth rows e).length = min depth (max (rows.length + 1) (e.1 + 1)) := by
  unfold place
  rw [List.length_take, List.length_insertIdx_of_le_length, List.length_append,
    List.length_replicate]
  · omega
  · rw [List.length_append, List.length_replicate]
    omega

/-- Before the entry a row stays, or is made blank. -/
theorem getElem?_place_of_lt {p : Nat} (hp : p < e.1) (hdepth : p < depth) :
    (place blank depth rows e)[p]? = some (rows[p]?.getD blank) := by
  unfold place
  rw [List.getElem?_take_of_lt hdepth, List.getElem?_insertIdx_of_lt hp]
  by_cases h : p < rows.length
  · rw [List.getElem?_append_left h, List.getElem?_eq_getElem h]
    rfl
  · rw [List.getElem?_append_right (by omega), List.getElem?_replicate_of_lt (by omega),
      List.getElem?_eq_none (by omega)]
    rfl

/-- The entry is at its position. -/
theorem getElem?_place_self (hdepth : e.1 < depth) :
    (place blank depth rows e)[e.1]? = some e.2 := by
  unfold place
  rw [List.getElem?_take_of_lt hdepth, List.getElem?_insertIdx_self, if_pos]
  rw [List.length_append, List.length_replicate]
  omega

/-- Behind the entry a row has moved down. -/
theorem getElem?_place_of_gt {p : Nat} (hp : e.1 < p) (hdepth : p < depth) :
    (place blank depth rows e)[p]? = rows[p - 1]? := by
  unfold place
  rw [List.getElem?_take_of_lt hdepth, List.getElem?_insertIdx_of_gt hp]
  by_cases h : p - 1 < rows.length
  · rw [List.getElem?_append_left h]
  · rw [List.getElem?_eq_none (l := rows) (by omega), List.getElem?_eq_none]
    rw [List.length_append, List.length_replicate]
    omega

end Place

/-! ## Passed positions -/

/-- After the entry for the position `j`, one for an earlier position came. -/
def Passed (ps : List Nat) (j : Nat) : Prop := ∃ i < j, [j, i].Sublist ps

/-- A position that is passed is one of the list. -/
theorem Passed.mem {ps : List Nat} {j : Nat} (h : Passed ps j) : j ∈ ps := by
  obtain ⟨i, -, hsub⟩ := h
  exact hsub.subset List.mem_cons_self

/-- The last position passes those behind it. -/
theorem passed_append_singleton {ps : List Nat} {q j : Nat} :
    Passed (ps ++ [q]) j ↔ Passed ps j ∨ j ∈ ps ∧ q < j := by
  constructor
  · rintro ⟨i, hi, hsub⟩
    obtain ⟨l₁, l₂, heq, h₁, h₂⟩ := List.sublist_append_iff.mp hsub
    cases l₁ with
    | nil =>
      -- both would be the new entry
      have := h₂.length_le
      rw [← List.nil_append l₂, ← heq] at this
      simp at this
    | cons a l₁ =>
      cases l₁ with
      | nil =>
        rw [List.cons_append, List.nil_append, List.cons.injEq] at heq
        obtain ⟨rfl, rfl⟩ := heq
        have hiq : i = q := List.mem_singleton.mp (h₂.subset (List.mem_singleton.mpr rfl))
        exact .inr ⟨h₁.subset List.mem_cons_self, hiq ▸ hi⟩
      | cons a' l₁ =>
        rw [List.cons_append, List.cons_append, List.cons.injEq, List.cons.injEq] at heq
        obtain ⟨rfl, rfl, hnil⟩ := heq
        obtain ⟨rfl, -⟩ := List.append_eq_nil_iff.mp hnil.symm
        exact .inl ⟨i, hi, h₁⟩
  · rintro (⟨i, hi, hsub⟩ | ⟨hj, hq⟩)
    · exact ⟨i, hi, hsub.trans (List.sublist_append_left _ _)⟩
    · exact ⟨q, hq, (List.singleton_sublist.mpr hj).append (List.Sublist.refl [q])⟩

/-! ## Where the rows come from -/

/-- What the rows are after the entries `es`. -/
structure Placed (es : List (Nat × α)) (rows : List α) : Prop where
  /-- A row is blank, or an entry that is at its position if it was not passed, and further down if
      it was. -/
  origin : ∀ (p : Nat) (x : α), rows[p]? = some x → x = blank ∨
    ∃ j ≤ p, (j, x) ∈ es ∧ (j < p ↔ Passed (es.map (·.1)) j)
  /-- An entry that was not passed is at its position. -/
  settled : ∀ e ∈ es, ¬ Passed (es.map (·.1)) e.1 → e.1 < depth → rows[e.1]? = some e.2

/-- One entry more -/
theorem Placed.place {es : List (Nat × α)} {rows : List α} (h : Placed blank depth es rows)
    {e : Nat × α} (he : e.1 ∉ es.map (·.1)) :
    Placed blank depth (es ++ [e]) (place blank depth rows e) := by
  have hmap : (es ++ [e]).map (·.1) = es.map (·.1) ++ [e.1] := List.map_append
  have hmem : ∀ {j : Nat} {x : α}, (j, x) ∈ es → j ∈ es.map (·.1) := fun hj =>
    List.mem_map.mpr ⟨_, hj, rfl⟩
  constructor
  · intro p x hx
    rw [hmap]
    have hp : p < depth := by
      have hlen := (List.getElem?_eq_some_iff.mp hx).1
      rw [length_place] at hlen
      omega
    rcases Nat.lt_trichotomy p e.1 with hlt | rfl | hgt
    · -- before the new entry nothing changes
      rw [getElem?_place_of_lt blank rows e hlt hp] at hx
      cases hrow : rows[p]? with
      | none =>
        rw [hrow] at hx
        exact .inl (Option.some.inj hx).symm
      | some y =>
        rw [hrow] at hx
        cases hx
        refine (h.origin p y hrow).imp id ?_
        rintro ⟨j, hj, hjx, hpassed⟩
        refine ⟨j, hj, List.mem_append_left _ hjx, ?_⟩
        rw [passed_append_singleton, hpassed]
        exact (or_iff_left fun hj' => by omega).symm
    · rw [getElem?_place_self blank rows e hp] at hx
      cases hx
      refine .inr ⟨e.1, Nat.le_refl _, List.mem_append_right _ (List.mem_singleton.mpr rfl), ?_⟩
      rw [passed_append_singleton]
      exact iff_of_false (Nat.lt_irrefl _) fun hno => hno.elim (fun hno => he hno.mem)
        fun hno => Nat.lt_irrefl _ hno.2
    · -- after it the rows have moved down
      rw [getElem?_place_of_gt blank rows e hgt hp] at hx
      refine (h.origin (p - 1) x hx).imp id ?_
      rintro ⟨j, hj, hjx, hpassed⟩
      refine ⟨j, by omega, List.mem_append_left _ hjx, iff_of_true (by omega) ?_⟩
      rw [passed_append_singleton]
      by_cases hlast : j < p - 1
      · exact .inl (hpassed.mp hlast)
      · have hne : j ≠ e.1 := fun heq => he (heq ▸ hmem hjx)
        exact .inr ⟨hmem hjx, by omega⟩
  · intro e' he' hpassed hdepth
    rw [hmap, passed_append_singleton, not_or, not_and, Nat.not_lt] at hpassed
    rcases List.mem_append.mp he' with he' | he'
    · have hle := hpassed.2 (hmem he')
      have hne : e'.1 ≠ e.1 := fun heq => he (heq ▸ hmem he')
      rw [getElem?_place_of_lt blank rows e (by omega) hdepth,
        h.settled e' he' hpassed.1 hdepth]
      rfl
    · rw [List.mem_singleton.mp he'] at hdepth ⊢
      exact getElem?_place_self blank rows e hdepth

/-- Entries at distinct positions -/
theorem placed_placeAll {es : List (Nat × α)} (hnodup : (es.map (·.1)).Nodup) :
    Placed blank depth es (placeAll blank depth es) := by
  induction es using List.reverseRecOn with
  | nil =>
    constructor
    · intro p x hx
      exact nomatch hx
    · intro e he
      exact nomatch he
  | append_singleton es e ih =>
    rw [List.map_append, List.nodup_append] at hnodup
    rw [placeAll_append_singleton]
    refine (ih hnodup.1).place blank depth fun hmem => ?_
    exact hnodup.2.2 e.1 hmem e.1 List.mem_cons_self rfl

/-! ## How many rows there are -/

/-- The list stays within the depth. -/
theorem length_placeAll_le (es : List (Nat × α)) : (placeAll blank depth es).length ≤ depth := by
  induction es using List.reverseRecOn with
  | nil => exact Nat.zero_le _
  | append_singleton es e =>
    rw [placeAll_append_singleton, length_place]
    exact Nat.min_le_left _ _

/-- In the order of their positions, the entries need no blank rows. -/
theorem length_placeAll_of_range {es : List (Nat × α)}
    (hrange : es.map (·.1) = List.range es.length) (hdepth : es.length ≤ depth) :
    (placeAll blank depth es).length = es.length := by
  induction es using List.reverseRecOn with
  | nil => rfl
  | append_singleton es e ih =>
    rw [List.length_append, List.length_singleton] at hrange hdepth ⊢
    rw [List.map_append, List.range_succ] at hrange
    obtain ⟨hinit, hlast⟩ := List.append_inj hrange (by simp)
    have he : e.1 = es.length := List.singleton_inj.mp hlast
    rw [placeAll_append_singleton, length_place, ih hinit (by omega), he]
    omega

/-- In any other order there is a row too many, if there is place for it. -/
theorem length_placeAll_of_not_range {es : List (Nat × α)} (hnodup : (es.map (·.1)).Nodup)
    (hdepth : es.length ≤ depth) (hrange : es.map (·.1) ≠ List.range es.length) :
    min depth (es.length + 1) ≤ (placeAll blank depth es).length := by
  induction es using List.reverseRecOn with
  | nil => exact absurd rfl hrange
  | append_singleton es e ih =>
    rw [List.length_append, List.length_singleton] at hrange hdepth ⊢
    rw [List.map_append, List.nodup_append] at hnodup
    rw [placeAll_append_singleton, length_place]
    by_cases hinit : es.map (·.1) = List.range es.length
    · -- the first blank row
      have hlen := length_placeAll_of_range blank depth hinit (by omega)
      have hge : es.length ≤ e.1 := by
        by_contra hlt
        refine hnodup.2.2 e.1 ?_ e.1 List.mem_cons_self rfl
        rw [hinit, List.mem_range]
        omega
      have hne : e.1 ≠ es.length := by
        intro heq
        rw [List.map_append, List.range_succ, hinit, ← heq] at hrange
        exact hrange rfl
      omega
    · have := ih hnodup.1 (by omega) hinit
      omega

/-! ## When each entry ends at its position -/

section Target

variable {es : List (Nat × α)} (hnodup : (es.map (·.1)).Nodup)

include hnodup

/-- That the entries which are passed are blank, as a condition on pairs of entries -/
theorem passed_blank_iff :
    (∀ e ∈ es, Passed (es.map (·.1)) e.1 → e.2 = blank) ↔
      es.Pairwise fun e e' => e'.1 < e.1 → e.2 = blank := by
  rw [List.pairwise_iff_forall_sublist]
  constructor
  · intro h e e' hsub hlt
    exact h e (hsub.subset List.mem_cons_self) ⟨e'.1, hlt, hsub.map Prod.fst⟩
  · rintro h e he ⟨i, hi, hsub⟩
    obtain ⟨l, hl, heq⟩ := List.sublist_map_iff.mp hsub
    obtain ⟨a, l, rfl, ha, hrest⟩ := List.map_eq_cons_iff.mp heq.symm
    obtain ⟨a', l, rfl, ha', hnil⟩ := List.map_eq_cons_iff.mp hrest
    rw [List.map_eq_nil_iff.mp hnil] at hl
    have hea : e = a := List.inj_on_of_nodup_map hnodup he (hl.subset List.mem_cons_self) ha.symm
    rw [hea]
    exact h hl (by omega)

/-- Each entry ends at its position if they come in the order of their positions, or if there is no
    place for more rows and every entry that is passed is blank itself. -/
theorem placeAll_eq_iff {rows : List α} (hrows : ∀ (p : Nat) (x : α), (p, x) ∈ es ↔ rows[p]? = some x)
    (hdepth : rows.length ≤ depth) :
    placeAll blank depth es = rows ↔
      es.map (·.1) = List.range rows.length ∨
        rows.length = depth ∧ es.Pairwise fun e e' => e'.1 < e.1 → e.2 = blank := by
  -- the entries are the rows in some order
  have hlength : es.length = rows.length := by
    have hperm : (es.map (·.1)).Perm (List.range rows.length) := by
      refine (List.perm_ext_iff_of_nodup hnodup List.nodup_range).mpr fun p => ?_
      rw [List.mem_range, List.mem_map]
      constructor
      · rintro ⟨⟨q, x⟩, he, rfl⟩
        exact (List.getElem?_eq_some_iff.mp ((hrows q x).mp he)).1
      · intro hp
        exact ⟨(p, rows[p]), (hrows p _).mpr (List.getElem?_eq_getElem hp), rfl⟩
    simpa using hperm.length_eq
  have hplaced := placed_placeAll blank depth hnodup
  rw [← passed_blank_iff blank hnodup]
  constructor
  · intro h
    rw [h] at hplaced
    by_cases hrange : es.map (·.1) = List.range rows.length
    · exact .inl hrange
    · rw [← hlength] at hrange
      have hlen := length_placeAll_of_not_range blank depth hnodup (hlength ▸ hdepth) hrange
      rw [h] at hlen
      refine .inr ⟨by omega, ?_⟩
      -- a passed entry is at the position of another one, which was passed too
      rintro ⟨k, x⟩ he hpassed
      induction k using Nat.strong_induction_on with
      | _ k ih =>
        rcases hplaced.origin k x ((hrows k x).mp he) with hblank | ⟨j, hj, hjx, hiff⟩
        · exact hblank
        · rcases Nat.lt_or_eq_of_le hj with hlt | rfl
          · exact ih j hlt hjx (hiff.mp hlt)
          · exact absurd (hiff.mpr hpassed) (Nat.lt_irrefl _)
  · intro h
    -- a blank row may stand anywhere behind a passed position
    have hblank : ∀ e ∈ es, Passed (es.map (·.1)) e.1 → e.2 = blank := by
      rcases h with hrange | ⟨-, hblank⟩
      · rintro e - ⟨i, hi, hsub⟩
        rw [hrange] at hsub
        have := List.pairwise_iff_forall_sublist.mp List.pairwise_lt_range hsub
        omega
      · exact hblank
    have hlen : (placeAll blank depth es).length = rows.length := by
      by_cases hrange : es.map (·.1) = List.range es.length
      · exact (length_placeAll_of_range blank depth hrange (hlength ▸ hdepth)).trans hlength
      · have hfull := h.resolve_left (hlength ▸ hrange)
        have hge := length_placeAll_of_not_range blank depth hnodup (hlength ▸ hdepth) hrange
        have hle := length_placeAll_le blank depth es
        omega
    apply List.ext_getElem?
    intro p
    by_cases hp : p < rows.length
    · have hrow := List.getElem?_eq_getElem hp
      have he := (hrows p rows[p]).mpr hrow
      rw [hrow]
      by_cases hpassed : Passed (es.map (·.1)) p
      · have hx : rows[p] = blank := hblank _ he hpassed
        rw [hx, List.getElem?_eq_getElem (hlen ▸ hp), Option.some.injEq]
        rcases hplaced.origin p _ (List.getElem?_eq_getElem (hlen ▸ hp)) with hb | ⟨j, hj, hjx, hiff⟩
        · exact hb
        · rcases Nat.lt_or_eq_of_le hj with hlt | rfl
          · exact hblank _ hjx (hiff.mp hlt)
          · exact absurd (hiff.mpr hpassed) (Nat.lt_irrefl _)
      · exact hplaced.settled _ he hpassed (by omega)
    · rw [List.getElem?_eq_none (by omega), List.getElem?_eq_none (by omega)]

end Target

end Padded
