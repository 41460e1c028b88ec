import Mathlib

/-!
# Reading a collection page by page

A store is asked again and again for what lies behind a cursor, and answers with
the first `n` elements in the order of a key. The next cursor is the key of the
last element of the answer. Elements with the same key come in any order, and
where a page ends between two of them, the rest of them is never asked for.

## Key results

- `Pages.sorted`: the pages one after the other are in order
- `pages_iff`: they are all of the collection exactly if no two elements with
  the same key are on the two sides of a border
-/

namespace Paging

variable {α κ : Type*} [LinearOrder κ] (key : α → κ)

/-- The first `n` elements of a collection in the order of the key. -/
def FirstOf (n : Nat) (l page : List α) : Prop :=
  ∃ sorted : List α, sorted.Perm l ∧ sorted.Pairwise (fun a b => key a ≤ key b) ∧
    page = sorted.take n

/-- The elements behind a cursor. -/
def behind (l : List α) (c : κ) : List α := l.filter fun a => decide (c < key a)

/-- The pages that are read from a cursor on, until one is empty. The cursor can be taken from
    an element if the element is `ok`. -/
inductive Pages (find : κ → List α) (ok : α → Prop) : κ → List (List α) → Prop
  | done {c : κ} (h : find c = []) : Pages find ok c []
  | more {c : κ} {rest : List (List α)} (h : find c ≠ []) (hok : ok ((find c).getLast h))
      (hrest : Pages find ok (key ((find c).getLast h)) rest) : Pages find ok c (find c :: rest)

/-- No border of two pages of `n` elements lies between two elements with the same key. -/
def Seamless (n : Nat) (l : List α) : Prop :=
  ∀ r ∈ l, ∀ m, ¬ (l.countP (fun a => decide (key a < key r)) < m * n ∧
    m * n < l.countP fun a => decide (key a ≤ key r))

variable {key}

/-- The order of the elements does not matter. -/
theorem Seamless.perm {n : Nat} {l l' : List α} (h : Seamless key n l) (hperm : l.Perm l') :
    Seamless key n l' := by
  intro r hr m
  rw [← hperm.countP_eq, ← hperm.countP_eq]
  exact h r (hperm.mem_iff.mpr hr) m

/-- No border lies between two elements with the same key if there are none. -/
theorem seamless_of_nodup {n : Nat} {l : List α} (h : (l.map key).Nodup) : Seamless key n l := by
  intro r hr m hborder
  have hsplit : l.countP (fun a => decide (key a ≤ key r)) =
      l.countP (fun a => decide (key a < key r)) + (l.map key).count (key r) := by
    clear h hr hborder
    induction l with
    | nil => rfl
    | cons a l ih =>
      rcases lt_trichotomy (key a) (key r) with hlt | heq | hlt
      · simp [ih, hlt, hlt.le, hlt.ne]
        omega
      · simp [ih, heq]
        omega
      · simp [ih, hlt.not_ge, hlt.not_gt, hlt.ne']
  have hone := List.nodup_iff_count_le_one.mp h (key r)
  omega

/-- A first page can be taken off, if it is full or all there is. -/
theorem seamless_append {n : Nat} {page rest : List α} {c : κ} (hpage : ∀ a ∈ page, key a ≤ c)
    (hrest : ∀ a ∈ rest, c < key a) (hle : page.length ≤ n) (hfull : rest ≠ [] → page.length = n) :
    Seamless key n (page ++ rest) ↔ Seamless key n rest := by
  constructor
  · -- the page counts for one border more
    intro h r hr m
    have hlt : page.countP (fun a => decide (key a < key r)) = page.length :=
      List.countP_eq_length.mpr fun a ha =>
        decide_eq_true ((hpage a ha).trans_lt (hrest r hr))
    have hle' : page.countP (fun a => decide (key a ≤ key r)) = page.length :=
      List.countP_eq_length.mpr fun a ha =>
        decide_eq_true ((hpage a ha).trans (hrest r hr).le)
    have hlength := hfull (List.ne_nil_of_mem hr)
    have hborder := h r (List.mem_append_right page hr) (m + 1)
    rw [List.countP_append, List.countP_append, hlt, hle', hlength, Nat.add_mul, Nat.one_mul] at hborder
    omega
  · intro h r hr m
    rcases List.mem_append.mp hr with hr | hr
    · -- the elements of the page end at its border
      have hzero : rest.countP (fun a => decide (key a ≤ key r)) = 0 :=
        List.countP_eq_zero.mpr fun a ha => by
          simpa using (hpage r hr).trans_lt (hrest a ha)
      have hcount : page.countP (fun a => decide (key a ≤ key r)) ≤ page.length :=
        List.countP_le_length
      rw [List.countP_append, List.countP_append, hzero]
      rintro ⟨hlower, hupper⟩
      rcases Nat.eq_zero_or_pos m with rfl | hm
      · omega
      · have := Nat.le_mul_of_pos_left n hm
        omega
    · have hlt : page.countP (fun a => decide (key a < key r)) = page.length :=
        List.countP_eq_length.mpr fun a ha =>
          decide_eq_true ((hpage a ha).trans_lt (hrest r hr))
      have hle' : page.countP (fun a => decide (key a ≤ key r)) = page.length :=
        List.countP_eq_length.mpr fun a ha =>
          decide_eq_true ((hpage a ha).trans (hrest r hr).le)
      have hlength := hfull (List.ne_nil_of_mem hr)
      rw [List.countP_append, List.countP_append, hlt, hle', hlength]
      rintro ⟨hlower, hupper⟩
      rcases m with _ | m
      · omega
      · refine h r hr m ⟨?_, ?_⟩ <;> rw [Nat.add_mul, Nat.one_mul] at * <;> omega

section Split

variable {n : Nat} {l sorted : List α} {c : κ}

/-- The elements that lie behind -/
theorem mem_behind {a : α} : a ∈ behind key l c ↔ a ∈ l ∧ c < key a := by
  rw [behind, List.mem_filter, decide_eq_true_iff]

/-- The elements of a page are not behind its last one. -/
theorem le_getLast (hsorted : sorted.Pairwise (fun a b => key a ≤ key b))
    (h : sorted.take n ≠ []) {a : α} (ha : a ∈ sorted.take n) :
    key a ≤ key ((sorted.take n).getLast h) := by
  have hpage := hsorted.sublist (List.take_sublist n sorted)
  exact hpage.rel_getLast_of_rel_getLast_getLast ha le_rfl

/-- What follows a page is not before its last element. -/
theorem getLast_le (hsorted : sorted.Pairwise (fun a b => key a ≤ key b))
    (h : sorted.take n ≠ []) {a : α} (ha : a ∈ sorted.drop n) :
    key ((sorted.take n).getLast h) ≤ key a := by
  rw [← List.take_append_drop n sorted, List.pairwise_append] at hsorted
  exact hsorted.2.2 _ (List.getLast_mem h) a ha

/-- What lies behind the last element of a page is the rest, if the border is seamless. -/
theorem behind_getLast (hperm : sorted.Perm (behind key l c))
    (hsorted : sorted.Pairwise (fun a b => key a ≤ key b)) (h : sorted.take n ≠ [])
    (hborder : ∀ a ∈ sorted.drop n, key ((sorted.take n).getLast h) < key a) :
    (behind key l (key ((sorted.take n).getLast h))).Perm (sorted.drop n) := by
  have hlast : c < key ((sorted.take n).getLast h) :=
    (mem_behind.mp (hperm.subset (List.mem_of_mem_take (List.getLast_mem h)))).2
  -- what lies behind the last key of the page lies behind `c`, too
  have hfilter : behind key l (key ((sorted.take n).getLast h)) =
      (behind key l c).filter fun a => decide (key ((sorted.take n).getLast h) < key a) := by
    rw [behind, behind, List.filter_filter]
    refine List.filter_congr fun a _ => ?_
    by_cases hlt : key ((sorted.take n).getLast h) < key a
    · simp [hlt, hlast.trans hlt]
    · simp [hlt]
  have hle : ∀ a ∈ sorted.take n, key a ≤ key ((sorted.take n).getLast h) := fun a ha =>
    le_getLast hsorted h ha
  generalize key ((sorted.take n).getLast h) = k at hborder hfilter hle
  -- in the sorted list these are the elements that the page leaves
  have hrest : sorted.filter (fun a => decide (k < key a)) = sorted.drop n := by
    conv_lhs => rw [← List.take_append_drop n sorted, List.filter_append]
    rw [List.filter_eq_nil_iff.mpr fun a ha => ?_, List.nil_append, List.filter_eq_self.mpr fun a ha => ?_]
    · exact decide_eq_true (hborder a ha)
    · rw [decide_eq_true_iff, not_lt]
      exact hle a ha
  rw [hfilter, ← hrest]
  exact (hperm.filter _).symm

/-- A page that is not the last one is full. -/
theorem length_take_of_drop (h : sorted.drop n ≠ []) : (sorted.take n).length = n := by
  rw [List.length_take, Nat.min_eq_left]
  by_contra hlt
  exact h (List.drop_eq_nil_of_le (by omega))

/-- A seamless page ends before the elements that have a greater key. -/
theorem Seamless.border (hsorted : sorted.Pairwise (fun a b => key a ≤ key b))
    (hseam : Seamless key n sorted) (h : sorted.take n ≠ []) {a : α} (ha : a ∈ sorted.drop n) :
    key ((sorted.take n).getLast h) < key a := by
  refine lt_of_le_of_ne (getLast_le hsorted h ha) fun heq => ?_
  -- otherwise the page would end among equal keys
  have hfull : (sorted.take n).length = n := length_take_of_drop (List.ne_nil_of_mem ha)
  have hlast := List.getLast_mem h
  refine hseam _ (List.mem_of_mem_take hlast) 1 ?_
  have hle : ∀ b ∈ sorted.take n, key b ≤ key ((sorted.take n).getLast h) := fun b hb =>
    le_getLast hsorted h hb
  have hge : ∀ b ∈ sorted.drop n, key ((sorted.take n).getLast h) ≤ key b := fun b hb =>
    getLast_le hsorted h hb
  have hpage : (sorted.take n).dropLast ++ [(sorted.take n).getLast h] = sorted.take n :=
    List.dropLast_append_getLast h
  have hlength : (sorted.take n).dropLast.length = n - 1 := by rw [List.length_dropLast, hfull]
  have hpos : 0 < n := hfull ▸ List.length_pos_iff.mpr h
  generalize (sorted.take n).getLast h = last at heq hle hge hpage
  rw [← List.take_append_drop n sorted, List.countP_append, List.countP_append]
  constructor
  · -- the last element is not before itself
    have hzero : (sorted.drop n).countP (fun b => decide (key b < key last)) = 0 :=
      List.countP_eq_zero.mpr fun b hb => by simpa using hge b hb
    have hcount : ((sorted.take n).dropLast).countP (fun b => decide (key b < key last)) ≤
        (sorted.take n).dropLast.length := List.countP_le_length
    rw [hzero, ← hpage, List.countP_append]
    simp only [List.countP_singleton, lt_irrefl, decide_false]
    simp only [Bool.false_eq_true, if_false]
    omega
  · have hall : (sorted.take n).countP (fun b => decide (key b ≤ key last)) = n :=
      (List.countP_eq_length.mpr fun b hb => decide_eq_true (hle b hb)).trans hfull
    have hone : 0 < (sorted.drop n).countP (fun b => decide (key b ≤ key last)) :=
      List.countP_pos_iff.mpr ⟨a, ha, decide_eq_true heq.ge⟩
    omega

end Split

section Pages

variable {n : Nat} {l : List α} {find : κ → List α} {ok : α → Prop}

/-- The pages one after the other are in the order of the key, and behind the cursor. -/
theorem Pages.sorted (hfind : ∀ c, FirstOf key n (behind key l c) (find c)) {c : κ}
    {pages : List (List α)} (h : Pages key find ok c pages) :
    (∀ a ∈ pages.flatten, c < key a) ∧ pages.flatten.Pairwise (fun a b => key a ≤ key b) := by
  induction h with
  | done h => exact ⟨fun a ha => absurd ha List.not_mem_nil, .nil⟩
  | @more c rest h hok hrest ih =>
    obtain ⟨sorted, hperm, hsorted, hpage⟩ := hfind c
    have hbehind : ∀ a ∈ find c, c < key a := fun a ha =>
      (mem_behind.mp (hperm.subset (List.mem_of_mem_take (hpage ▸ ha)))).2
    have hle : ∀ a ∈ find c, key a ≤ key ((find c).getLast h) := by
      intro a ha
      simp only [hpage] at ha ⊢
      exact le_getLast hsorted _ ha
    rw [List.flatten_cons]
    refine ⟨fun a ha => ?_, List.pairwise_append.mpr ⟨?_, ih.2, fun a ha b hb => ?_⟩⟩
    · -- the pages behind the first one start above its last key
      rcases List.mem_append.mp ha with ha | ha
      · exact hbehind a ha
      · exact (hbehind _ (List.getLast_mem h)).trans (ih.1 a ha)
    · rw [hpage]
      exact hsorted.sublist (List.take_sublist n sorted)
    · exact (hle a ha).trans (ih.1 b hb).le

omit [LinearOrder κ] in
/-- The last element that is read is `ok`. -/
theorem Pages.ok_getLast {c : κ} {pages : List (List α)} (h : Pages key find ok c pages)
    (hne : pages.flatten ≠ []) : ok (pages.flatten.getLast hne) := by
  induction h with
  | done h => exact absurd rfl hne
  | @more c rest h hok hrest ih =>
    by_cases hnil : rest.flatten = []
    · simp only [List.flatten_cons, hnil, List.append_nil]
      exact hok
    · simp only [List.flatten_cons, List.getLast_append_of_ne_nil _ hnil]
      exact ih hnil

/-- Pages that leave nothing out have seamless borders. -/
theorem Pages.seamless (hfind : ∀ c, FirstOf key n (behind key l c) (find c)) {c : κ}
    {pages : List (List α)} (h : Pages key find ok c pages)
    (hall : pages.flatten.Perm (behind key l c)) : Seamless key n (behind key l c) := by
  induction h with
  | done h =>
    intro r hr
    rw [List.nil_perm.mp hall] at hr
    exact absurd hr List.not_mem_nil
  | @more c rest h hok hrest ih =>
    obtain ⟨sorted, hperm, hsorted, hpage⟩ := hfind c
    -- the pages behind the first have what the first leaves over
    have hdrop : rest.flatten.Perm (sorted.drop n) := by
      have hboth : (find c ++ rest.flatten).Perm (find c ++ sorted.drop n) := by
        conv_rhs => rw [hpage, List.take_append_drop]
        exact hall.trans hperm.symm
      exact (List.perm_append_left_iff _).mp hboth
    have hnext := (hrest.sorted hfind).1
    simp only [hpage] at h hnext ih
    -- they are asked for behind the last key of the first page
    have hborder : ∀ a ∈ sorted.drop n, key ((sorted.take n).getLast h) < key a :=
      fun a ha => hnext a (hdrop.mem_iff.mpr ha)
    -- so no element behind that key is missing, and none before it
    have hbehind := behind_getLast hperm hsorted h hborder
    have hseamless := (ih (hdrop.trans hbehind.symm)).perm hbehind
    refine Seamless.perm ?_ hperm
    rw [← List.take_append_drop n sorted]
    exact (seamless_append (fun a ha => le_getLast hsorted h ha) hborder
      (List.length_take_le n sorted) length_take_of_drop).mpr hseamless

/-- Seamless pages end, and leave nothing out. -/
theorem pages_of_seamless (hn : 0 < n) (hfind : ∀ c, FirstOf key n (behind key l c) (find c))
    (hok : ∀ a ∈ l, ok a) {c : κ} (h : Seamless key n (behind key l c)) :
    ∃ pages, Pages key find ok c pages ∧ pages.flatten.Perm (behind key l c) := by
  induction hlength : (behind key l c).length using Nat.strong_induction_on generalizing c with
  | h length ih =>
    obtain ⟨sorted, hperm, hsorted, hpage⟩ := hfind c
    by_cases hempty : sorted.take n = []
    · have hnil : sorted = [] := by
        rcases List.take_eq_nil_iff.mp hempty with hzero | hnil
        · omega
        · exact hnil
      subst hnil
      exact ⟨[], .done (hpage.trans hempty), hperm⟩
    · have hseam : Seamless key n sorted := h.perm hperm.symm
      have hborder : ∀ a ∈ sorted.drop n, key ((sorted.take n).getLast hempty) < key a :=
        fun a ha => hseam.border hsorted hempty ha
      have hbehind := behind_getLast hperm hsorted hempty hborder
      -- each page leaves less behind
      have hshorter : (behind key l (key ((sorted.take n).getLast hempty))).length < length := by
        rw [hbehind.length_eq, ← hlength, ← hperm.length_eq, List.length_drop]
        have : sorted ≠ [] := fun hnil => hempty (by rw [hnil, List.take_nil])
        have := List.length_pos_iff.mpr this
        omega
      have hrest := (seamless_append (fun a ha => le_getLast hsorted hempty ha) hborder
        (List.length_take_le n sorted) length_take_of_drop).mp
        ((List.take_append_drop n sorted).symm ▸ hseam)
      obtain ⟨pages, hpages, hall⟩ := ih _ hshorter (hrest.perm hbehind.symm) rfl
      have hne : find c ≠ [] := hpage ▸ hempty
      have hlast : (find c).getLast hne = (sorted.take n).getLast hempty := by simp only [hpage]
      refine ⟨find c :: pages, .more hne (hok _ ?_) (hlast ▸ hpages), ?_⟩
      · rw [hlast]
        exact (mem_behind.mp (hperm.subset (List.mem_of_mem_take (List.getLast_mem hempty)))).1
      · rw [List.flatten_cons, hpage]
        refine List.Perm.trans ?_ hperm
        conv_rhs => rw [← List.take_append_drop n sorted]
        exact (List.perm_append_left_iff _).mpr (hall.trans hbehind)

/-- The pages are all of the collection behind the cursor exactly if their borders are
    seamless. -/
theorem pages_iff (hn : 0 < n) (hfind : ∀ c, FirstOf key n (behind key l c) (find c))
    (hok : ∀ a ∈ l, ok a) {c : κ} :
    (∃ pages, Pages key find ok c pages ∧ pages.flatten.Perm (behind key l c)) ↔
      Seamless key n (behind key l c) :=
  ⟨fun ⟨_, hpages, hall⟩ => hpages.seamless hfind hall, pages_of_seamless hn hfind hok⟩

end Pages

end Paging
