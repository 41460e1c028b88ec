import Mathlib
import FixHandler.ForStd.List

/-!
# `Std.TreeMap` over a linear order

`Std.TreeMap` states its lookup lemmas with `cmp k a = .eq`. Over a lawful
comparison the test is an equation of keys, which is the form that case
splits and `simp` want. The list of the entries is the only one that is sorted and has the same
lookups: that says what an `insert` or an `erase` does to it.
-/

namespace Std.TreeMap

variable {α : Type u} {β : Type v} {cmp : α → α → Ordering}

section Lookup

variable [TransCmp cmp] [LawfulEqCmp cmp]

/-- Lookup after `insert`, by equality of keys. -/
theorem getElem?_insert_if [DecidableEq α] (t : TreeMap α β cmp) (k a : α) (v : β) :
    (t.insert k v)[a]? = if a = k then some v else t[a]? := by
  rw [getElem?_insert]
  by_cases h : a = k
  · subst h; simp
  · rw [if_neg (fun hc => h (LawfulEqCmp.eq_of_compare hc).symm), if_neg h]

/-- Lookup after `erase`, by equality of keys. -/
theorem getElem?_erase_if [DecidableEq α] (t : TreeMap α β cmp) (k a : α) :
    (t.erase k)[a]? = if a = k then none else t[a]? := by
  rw [getElem?_erase]
  by_cases h : a = k
  · subst h; simp
  · rw [if_neg (fun hc => h (LawfulEqCmp.eq_of_compare hc).symm), if_neg h]

/-- `insertIfNew` of an absent key is `insert`. -/
theorem getElem?_insertIfNew_of_none [DecidableEq α] {t : TreeMap α β cmp} {k : α}
    (hk : t[k]? = none) (a : α) (v : β) :
    (t.insertIfNew k v)[a]? = if a = k then some v else t[a]? := by
  rw [getElem?_insertIfNew]
  have hnot : k ∉ t := by simpa using hk
  by_cases h : a = k
  · subst h; simp [hnot]
  · rw [if_neg (fun hc => h (LawfulEqCmp.eq_of_compare hc.1).symm), if_neg h]

/-- `insertIfNew` never changes what another key holds, and never replaces. -/
theorem getElem?_insertIfNew_if [DecidableEq α] (t : TreeMap α β cmp) (k a : α) (v : β) :
    (t.insertIfNew k v)[a]? = if a = k ∧ t[k]? = none then some v else t[a]? := by
  by_cases hk : t[k]? = none
  · rw [getElem?_insertIfNew_of_none hk]
    by_cases h : a = k <;> simp [h, hk]
  · rw [getElem?_insertIfNew, if_neg, if_neg (fun h => hk h.2)]
    rintro ⟨_, hnot⟩
    exact hk (by simpa using hnot)

/-- What a key holds stays. -/
theorem getElem?_insertIfNew_of_some [DecidableEq α] {t : TreeMap α β cmp} {a : α} {w : β}
    (h : t[a]? = some w) (k : α) (v : β) : (t.insertIfNew k v)[a]? = some w := by
  rw [getElem?_insertIfNew_if, if_neg, h]
  rintro ⟨rfl, hnone⟩
  rw [h] at hnone
  exact nomatch hnone

/-- The keys after `insert`. -/
theorem mem_insert_iff {t : TreeMap α β cmp} {k a : α} {v : β} :
    a ∈ t.insert k v ↔ a = k ∨ a ∈ t := by
  rw [mem_insert]
  exact or_congr_left ⟨fun h => (LawfulEqCmp.eq_of_compare h).symm, fun h => h ▸ ReflCmp.compare_self⟩

/-- The keys after `erase`. -/
theorem mem_erase_iff {t : TreeMap α β cmp} {k a : α} : a ∈ t.erase k ↔ a ≠ k ∧ a ∈ t := by
  rw [mem_erase]
  exact and_congr_left' (not_congr
    ⟨fun h => (LawfulEqCmp.eq_of_compare h).symm, fun h => h ▸ ReflCmp.compare_self⟩)

omit [LawfulEqCmp cmp] in
/-- A key that is found is in the map. -/
theorem mem_of_getElem? {t : TreeMap α β cmp} {a : α} {v : β} (h : t[a]? = some v) : a ∈ t :=
  mem_iff_isSome_getElem?.mpr (by rw [h]; rfl)

/-- Of what is inserted for a key, the last counts. -/
theorem getElem?_foldl_insert [DecidableEq α] {γ : Type w} (key : γ → α) (val : γ → β) (l : List γ)
    (a : α) :
    (l.foldl (fun t x => t.insert (key x) (val x)) (∅ : TreeMap α β cmp))[a]? =
      (l.filter (key · = a)).getLast?.map val := by
  induction l using List.reverseRecOn with
  | nil => exact getElem?_emptyc
  | append_singleton l x ih =>
    rw [List.foldl_append, List.foldl_cons, List.foldl_nil, getElem?_insert, ih, List.filter_append]
    by_cases hkey : key x = a
    · simp [hkey]
    · simp [hkey]

end Lookup

/-! ## The order of the entries -/

section Order

variable [TransCmp cmp] [LawfulEqCmp cmp]

/-- The entries of a map are known by their order and by the map's lookups. -/
theorem toList_eq {t : TreeMap α β cmp} {l : List (α × β)}
    (hsorted : l.Pairwise fun a b => cmp a.1 b.1 = .lt)
    (hl : ∀ k v, (k, v) ∈ l ↔ t[k]? = some v) : t.toList = l := by
  have hirrefl : ∀ a b : α × β, cmp a.1 b.1 = .lt → a ≠ b := by
    rintro a b hab rfl
    rw [show cmp a.1 a.1 = .eq from ReflCmp.compare_self] at hab
    exact nomatch hab
  have hperm : t.toList.Perm l := by
    rw [List.perm_ext_iff_of_nodup (ordered_keys_toList.imp (hirrefl _ _))
      (hsorted.imp (hirrefl _ _))]
    rintro ⟨k, v⟩
    rw [mem_toList_iff_getElem?_eq_some, hl]
  have hasymm : ∀ a b : α × β, a ∈ t.toList → b ∈ l → cmp a.1 b.1 = .lt → cmp b.1 a.1 = .lt →
      a = b := fun a b _ _ hab hba => absurd hba (OrientedCmp.not_lt_of_lt hab)
  exact hperm.eq_of_pairwise hasymm ordered_keys_toList hsorted

omit [LawfulEqCmp cmp] in
/-- The entries before a key, and those behind it. -/
private theorem pairwise_around (t : TreeMap α β cmp) (k : α) :
    (t.toList.filter (cmp ·.1 k = .lt) ++ t.toList.filter (cmp k ·.1 = .lt)).Pairwise
      fun a b => cmp a.1 b.1 = .lt := by
  rw [List.pairwise_append]
  refine ⟨ordered_keys_toList.filter _, ordered_keys_toList.filter _, fun a ha b hb => ?_⟩
  exact TransCmp.lt_trans (by simpa using (List.mem_filter.mp ha).2)
    (by simpa using (List.mem_filter.mp hb).2)

/-- The pairs without the one of the key -/
theorem toList_erase [DecidableEq α] (t : TreeMap α β cmp) (k : α) :
    (t.erase k).toList =
      t.toList.filter (cmp ·.1 k = .lt) ++ t.toList.filter (cmp k ·.1 = .lt) := by
  apply toList_eq (pairwise_around t k)
  intro a v
  rw [getElem?_erase_if]
  simp only [List.mem_append, List.mem_filter, mem_toList_iff_getElem?_eq_some, decide_eq_true_eq]
  by_cases hak : a = k
  · subst hak
    simp [ReflCmp.compare_self]
  · rw [if_neg hak, ← and_or_left, and_iff_left]
    cases h : cmp a k with
    | lt => exact .inl rfl
    | eq => exact absurd (LawfulEqCmp.eq_of_compare h) hak
    | gt => exact .inr (OrientedCmp.lt_of_gt h)

/-- The pairs with the new one between the smaller and the greater keys -/
theorem toList_insert [DecidableEq α] (t : TreeMap α β cmp) (k : α) (v : β) :
    (t.insert k v).toList =
      t.toList.filter (cmp ·.1 k = .lt) ++ (k, v) :: t.toList.filter (cmp k ·.1 = .lt) := by
  apply toList_eq
  · -- the keys around `k` are in order
    have h := pairwise_around t k
    rw [List.pairwise_append] at h ⊢
    refine ⟨h.1, List.pairwise_cons.mpr ⟨fun b hb => by simpa using (List.mem_filter.mp hb).2, h.2.1⟩,
      fun a ha b hb => ?_⟩
    rcases List.mem_cons.mp hb with rfl | hb
    · simpa using (List.mem_filter.mp ha).2
    · exact h.2.2 a ha b hb
  · -- and the map has these entries
    intro a w
    have he : (a, w) ∈ (t.erase k).toList ↔ (t.erase k)[a]? = some w := mem_toList_iff_getElem?_eq_some
    rw [toList_erase, List.mem_append, getElem?_erase_if] at he
    rw [getElem?_insert_if, List.mem_append, List.mem_cons, or_left_comm, he, Prod.mk.injEq]
    by_cases hak : a = k
    · simp [hak, eq_comm]
    · simp [hak]

omit [LawfulEqCmp cmp] in
/-- The smaller keys come first. -/
private theorem takeWhile_toList (t : TreeMap α β cmp) (k : α) :
    t.toList.takeWhile (cmp ·.1 k = .lt) = t.toList.filter (cmp ·.1 k = .lt) := by
  apply List.takeWhile_eq_filter
  refine ordered_keys_toList.imp fun hab hb => ?_
  rw [decide_eq_true_eq] at hb ⊢
  exact TransCmp.lt_trans hab hb

omit [LawfulEqCmp cmp] in
/-- What is filtered from both sides of a key. -/
private theorem filter_around (l : List (α × β)) (k : α) :
    (l.filter (cmp ·.1 k = .lt)).filter (cmp ·.1 k = .lt) = l.filter (cmp ·.1 k = .lt) ∧
    (l.filter (cmp k ·.1 = .lt)).filter (cmp ·.1 k = .lt) = [] := by
  refine ⟨by simp, ?_⟩
  rw [List.filter_eq_nil_iff]
  intro a ha hlt
  have hgt : cmp k a.1 = .lt := by simpa using (List.mem_filter.mp ha).2
  rw [decide_eq_true_eq] at hlt
  exact OrientedCmp.not_lt_of_lt hgt hlt

/-- An `insert` leaves the entries before the key as they are. -/
theorem takeWhile_toList_insert [DecidableEq α] (t : TreeMap α β cmp) (k : α) (v : β) :
    (t.insert k v).toList.takeWhile (cmp ·.1 k = .lt) =
      t.toList.takeWhile (cmp ·.1 k = .lt) := by
  have hself : cmp k k = .eq := ReflCmp.compare_self
  rw [takeWhile_toList, takeWhile_toList, toList_insert, List.filter_append, List.filter_cons_of_neg,
    (filter_around _ k).1, (filter_around _ k).2, List.append_nil]
  simp [hself]

/-- An `erase` leaves the entries before the key as they are. -/
theorem takeWhile_toList_erase [DecidableEq α] (t : TreeMap α β cmp) (k : α) :
    (t.erase k).toList.takeWhile (cmp ·.1 k = .lt) = t.toList.takeWhile (cmp ·.1 k = .lt) := by
  rw [takeWhile_toList, takeWhile_toList, toList_erase, List.filter_append,
    (filter_around _ k).1, (filter_around _ k).2, List.append_nil]

end Order

end Std.TreeMap

/-- The comparison of a linear order is lawful. -/
instance LinearOrder.instLawfulEqCmp {α : Type u} [LinearOrder α] :
    Std.LawfulEqCmp (compare : α → α → Ordering) where
  eq_of_compare := compare_eq_iff_eq.mp
