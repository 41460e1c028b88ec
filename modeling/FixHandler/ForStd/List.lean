import Mathlib

/-!
# Lists

How a sum over a list without duplicates changes when the value at one element
changes, or when one element is taken out; how elements are found by a key that
no two of them share; how a list is split where a condition ends, or where its
parts are cut; and the order of lists.
-/

namespace List

variable {α : Type u}

/-- Changing a summand changes the sum by as much. -/
theorem sum_map_change {l : List α} (hnd : l.Nodup) {a : α} (ha : a ∈ l) {f g : α → Nat}
    (h : ∀ x ∈ l, x ≠ a → g x = f x) : (l.map g).sum + f a = (l.map f).sum + g a := by
  classical
  have hp := List.perm_cons_erase ha
  rw [(hp.map g).sum_nat, (hp.map f).sum_nat]
  have hrest : (l.erase a).map g = (l.erase a).map f := by
    apply List.map_congr_left
    intro x hx
    rw [hnd.mem_erase_iff] at hx
    exact h x hx.2 hx.1
  simp only [map_cons, sum_cons, hrest]
  omega

/-- Taking an element out takes its summand off the sum. -/
theorem sum_map_filter_ne [BEq α] [LawfulBEq α] {l : List α} (hnd : l.Nodup) {a : α} (ha : a ∈ l)
    {f g : α → Nat} (h : ∀ x ∈ l, x ≠ a → g x = f x) :
    ((l.filter (· != a)).map g).sum + f a = (l.map f).sum := by
  have hp := List.perm_cons_erase ha
  rw [(hp.map f).sum_nat, ← hnd.erase_eq_filter]
  have hrest : (l.erase a).map g = (l.erase a).map f := by
    apply List.map_congr_left
    intro x hx
    rw [hnd.mem_erase_iff] at hx
    exact h x hx.2 hx.1
  simp only [map_cons, sum_cons, hrest]
  omega

/-- Filtering keeps keys in their order. -/
theorem map_filterMap_sublist {β : Type v} {γ : Type w} {f : α → Option β} {g : β → γ} {h : α → γ}
    {l : List α} (hfg : ∀ a ∈ l, ∀ b, f a = some b → g b = h a) :
    ((l.filterMap f).map g).Sublist (l.map h) := by
  induction l with
  | nil => exact Sublist.slnil
  | cons a l ih =>
    have hrest := ih fun a' ha' => hfg a' (mem_cons_of_mem _ ha')
    cases hf : f a with
    | none =>
      rw [filterMap_cons_none hf]
      exact hrest.cons _
    | some b =>
      rw [filterMap_cons_some hf, map_cons, map_cons, hfg a mem_cons_self b hf]
      exact hrest.cons_cons _

/-- What is made of the elements of a list is found again by their keys. -/
theorem filter_flatMap_key {β : Type v} {γ : Type w} [BEq γ] [LawfulBEq γ] {f : α → List β}
    (key : α → γ) (key' : β → γ) {l : List α} (hnd : (l.map key).Nodup)
    (hf : ∀ a ∈ l, ∀ b ∈ f a, key' b = key a) {a : α} (ha : a ∈ l) :
    (l.flatMap f).filter (key' · == key a) = f a := by
  induction l with
  | nil => exact absurd ha not_mem_nil
  | cons x l ih =>
    rw [map_cons, nodup_cons] at hnd
    rw [flatMap_cons, filter_append]
    have hrest : ∀ a ∈ l, ∀ b ∈ f a, key' b = key a := fun a ha => hf a (mem_cons_of_mem _ ha)
    rcases mem_cons.mp ha with rfl | ha
    · have hown : (f a).filter (key' · == key a) = f a :=
        filter_eq_self.mpr fun b hb => by simpa using hf a mem_cons_self b hb
      -- the keys are distinct, so nothing else in the list has this one
      have hnone : (l.flatMap f).filter (key' · == key a) = [] := by
        rw [filter_eq_nil_iff]
        intro b hb heq
        obtain ⟨y, hy, hb⟩ := mem_flatMap.mp hb
        refine hnd.1 (mem_map.mpr ⟨y, hy, ?_⟩)
        rw [← hrest y hy b hb]
        exact eq_of_beq heq
      rw [hown, hnone, append_nil]
    · have hnone : (f x).filter (key' · == key a) = [] := by
        rw [filter_eq_nil_iff]
        intro b hb heq
        refine hnd.1 (mem_map.mpr ⟨a, ha, ?_⟩)
        rw [← hf x mem_cons_self b hb]
        exact (eq_of_beq heq).symm
      rw [hnone, nil_append, ih hnd.2 hrest ha]

/-! ### Splitting a list where a condition ends -/

/-- A new element is put where the condition ends: the part before it grows. -/
theorem takeWhile_insert {p : α → Bool} {x : α} (hx : p x = true) (l : List α) :
    (l.takeWhile p ++ x :: l.dropWhile p).takeWhile p = l.takeWhile p ++ [x] := by
  induction l with
  | nil => simp [hx]
  | cons a l ih =>
    cases ha : p a with
    | true => simp only [takeWhile_cons_of_pos ha, dropWhile_cons_of_pos ha, cons_append, ih]
    | false => simp [ha, hx]

/-- A new element is put where the condition ends: the part after it stays. -/
theorem dropWhile_insert {p : α → Bool} {x : α} (hx : p x = true) (l : List α) :
    (l.takeWhile p ++ x :: l.dropWhile p).dropWhile p = l.dropWhile p := by
  induction l with
  | nil => simp [hx]
  | cons a l ih =>
    cases ha : p a with
    | true => simp only [takeWhile_cons_of_pos ha, dropWhile_cons_of_pos ha, cons_append, ih]
    | false => simp [ha, hx]

/-- Where a predicate holds of the front of a list only, taking is filtering. -/
theorem takeWhile_eq_filter {p : α → Bool} {l : List α}
    (h : l.Pairwise fun a b => p b → p a) : l.takeWhile p = l.filter p := by
  induction l with
  | nil => rfl
  | cons a l ih =>
    rw [pairwise_cons] at h
    by_cases hp : p a
    · rw [takeWhile_cons_of_pos hp, filter_cons_of_pos hp, ih h.2]
    · rw [takeWhile_cons_of_neg hp, filter_cons_of_neg hp, eq_comm, filter_eq_nil_iff]
      exact fun b hb hpb => hp (h.1 b hb hpb)

/-- What is before the place where the condition ends. -/
theorem take_length_takeWhile (p : α → Bool) (l : List α) :
    l.take (l.takeWhile p).length = l.takeWhile p := by
  have h := @take_left _ (l.takeWhile p) (l.dropWhile p)
  rwa [takeWhile_append_dropWhile] at h

/-- What is after the place where the condition ends. -/
theorem drop_length_takeWhile (p : α → Bool) (l : List α) :
    l.drop (l.takeWhile p).length = l.dropWhile p := by
  have h := @drop_left _ (l.takeWhile p) (l.dropWhile p)
  rwa [takeWhile_append_dropWhile] at h

/-- Where a condition fails for an element it fails for all after it. -/
theorem not_of_mem_dropWhile {p : α → Bool} {l : List α}
    (hp : l.Pairwise fun a b => p b = true → p a = true) {a : α} (ha : a ∈ l.dropWhile p) :
    p a = false := by
  induction l with
  | nil => exact absurd ha not_mem_nil
  | cons b l ih =>
    rw [pairwise_cons] at hp
    cases hb : p b with
    | true =>
      rw [dropWhile_cons_of_pos hb] at ha
      exact ih hp.2 ha
    | false =>
      rw [dropWhile_cons_of_neg (by rw [hb]; exact Bool.false_ne_true), mem_cons] at ha
      rcases ha with rfl | ha
      · exact hb
      · cases hpa : p a with
        | true => rw [hp.1 a ha hpa] at hb; exact hb
        | false => rfl

/-- Splitting what is made of a list is splitting the list. -/
theorem takeWhile_flatMap {β : Type v} {f : α → List β} {p : α → Bool} {q : β → Bool} {l : List α}
    (hf : ∀ a ∈ l, ∀ b ∈ f a, q b = p a) (hp : l.Pairwise fun a b => p b = true → p a = true) :
    (l.flatMap f).takeWhile q = (l.takeWhile p).flatMap f ∧
      (l.flatMap f).dropWhile q = (l.dropWhile p).flatMap f := by
  induction l with
  | nil => exact ⟨rfl, rfl⟩
  | cons a l ih =>
    have htail : ∀ b ∈ (a :: l).dropWhile p, p b = false := fun b hb =>
      not_of_mem_dropWhile hp hb
    rw [pairwise_cons] at hp
    cases ha : p a with
    | true =>
      have hall : ∀ b ∈ f a, q b = true := fun b hb => by rw [hf a mem_cons_self b hb, ha]
      have hrest := ih (fun a' ha' => hf a' (mem_cons_of_mem _ ha')) hp.2
      rw [flatMap_cons, takeWhile_append_of_pos hall, dropWhile_append_of_pos hall,
        takeWhile_cons_of_pos ha, dropWhile_cons_of_pos ha, hrest.1, hrest.2]
      exact ⟨rfl, rfl⟩
    | false =>
      -- from here on nothing satisfies the predicate
      have hneg : ¬ p a = true := by rw [ha]; exact Bool.false_ne_true
      rw [dropWhile_cons_of_neg hneg] at htail
      have hnone : ∀ b ∈ (a :: l).flatMap f, ¬ q b = true := by
        intro b hb
        obtain ⟨a', ha', hb⟩ := mem_flatMap.mp hb
        rw [hf a' ha' b hb, htail a' ha']
        exact Bool.false_ne_true
      rw [takeWhile_cons_of_neg hneg, dropWhile_cons_of_neg hneg]
      cases hl : (a :: l).flatMap f with
      | nil => exact ⟨rfl, rfl⟩
      | cons b rest =>
        have hb := hnone b (by rw [hl]; exact mem_cons_self)
        rw [takeWhile_cons_of_neg hb, dropWhile_cons_of_neg hb]
        exact ⟨rfl, rfl⟩

/-- A relation of all elements to those before them, by the prefixes of the list. -/
theorem pairwise_of_forall_prefix {R : α → α → Prop} {l : List α}
    (h : ∀ before b, before ++ [b] <+: l → ∀ a ∈ before, R a b) : l.Pairwise R := by
  induction l using reverseRecOn with
  | nil => exact .nil
  | append_singleton l b ih =>
    rw [pairwise_append]
    refine ⟨ih fun before b' hb' => h before b' (hb'.trans (prefix_append l [b])),
      pairwise_singleton _ _, fun a ha b' hb' => ?_⟩
    rw [mem_singleton.mp hb']
    exact h l b prefix_rfl a ha

/-! ### Cutting a list of parts -/

/-- A cut through the parts of a list is between two parts or within one. -/
theorem append_eq_flatMap {f : α → List β} {l : List α} {r rest : List β}
    (h : r ++ rest = l.flatMap f) :
    ∃ g l', l = g ++ l' ∧ (r = g.flatMap f ∧ rest = l'.flatMap f ∨
      ∃ a l'' q, l' = a :: l'' ∧ r = g.flatMap f ++ q ∧ q <+: f a ∧ q ≠ f a ∧ q ≠ []) := by
  induction l generalizing r with
  | nil =>
    obtain ⟨hr, hrest⟩ := append_eq_nil_iff.mp h
    exact ⟨[], [], rfl, .inl ⟨hr, hrest⟩⟩
  | cons a l ih =>
    rw [flatMap_cons, append_eq_append_iff] at h
    rcases h with ⟨a', ha, hrest⟩ | ⟨c', hr, hl⟩
    · by_cases hnil : r = []
      · subst hnil
        refine ⟨[], a :: l, rfl, .inl ⟨rfl, ?_⟩⟩
        rw [hrest, flatMap_cons, ha, nil_append]
      · by_cases hfull : a' = []
        · subst hfull
          rw [append_nil] at ha
          exact ⟨[a], l, rfl, .inl ⟨by rw [flatMap_singleton, ha], hrest⟩⟩
        · -- the cut lies within the first piece
          refine ⟨[], a :: l, rfl, .inr ⟨a, l, r, rfl, rfl, ⟨a', ha.symm⟩, fun heq => ?_, hnil⟩⟩
          rw [← heq, self_eq_append_right] at ha
          exact hfull ha
    · -- the cut lies behind the first piece
      obtain ⟨g, l', rfl, hcut⟩ := ih hl.symm
      refine ⟨a :: g, l', rfl, ?_⟩
      rw [hr, flatMap_cons]
      rcases hcut with ⟨rfl, hrest⟩ | ⟨b, l'', q, rfl, rfl, hq⟩
      · exact .inl ⟨rfl, hrest⟩
      · exact .inr ⟨b, l'', q, rfl, (append_assoc _ _ _).symm, hq⟩

/-- Two sublists that make up the whole are the two parts. -/
theorem append_inj_of_sublist {l₁ l₂ a b : List α} (h₁ : l₁ <+ a) (h₂ : l₂ <+ b)
    (h : l₁ ++ l₂ = a ++ b) : l₁ = a ∧ l₂ = b := by
  have hlen := congrArg length h
  rw [length_append, length_append] at hlen
  have hle₁ := h₁.length_le
  have hle₂ := h₂.length_le
  exact ⟨h₁.eq_of_length (by omega), h₂.eq_of_length (by omega)⟩

/-! ### Consecutive numbers -/

/-- Increasing numbers from `f` on that leave none out are consecutive. -/
theorem eq_range'_of_pairwise {l : List Nat} {f : Nat} (hsorted : l.Pairwise (· < ·))
    (hge : ∀ n ∈ l, f ≤ n) (hall : ∀ n ∈ l, ∀ k, f ≤ k → k ≤ n → k ∈ l) :
    l = range' f l.length := by
  induction l generalizing f with
  | nil => rfl
  | cons a l ih =>
    rw [pairwise_cons] at hsorted
    -- the first number is there, and no other one is as small
    have ha : a = f := by
      have hle := hge a mem_cons_self
      rcases mem_cons.mp (hall a mem_cons_self f (Nat.le_refl f) hle) with heq | hmem
      · exact heq.symm
      · have := hsorted.1 f hmem
        omega
    subst ha
    -- the others follow from one number further on
    have hrest : l = range' (a + 1) l.length := by
      refine ih hsorted.2 (fun n hn => hsorted.1 n hn) fun n hn k hk hkn => ?_
      have hmem := hall n (mem_cons_of_mem _ hn) k (by omega) hkn
      exact (mem_cons.mp hmem).resolve_left (by omega)
    rw [length_cons, range'_succ, ← hrest]

/-- A prefix with a last element ends with the head, or in the tail. -/
theorem concat_prefix_cons {a b : α} {l before : List α} (h : before ++ [b] <+: a :: l) :
    before = [] ∧ b = a ∨ ∃ before', before = a :: before' ∧ before' ++ [b] <+: l := by
  cases before with
  | nil => exact .inl ⟨rfl, (cons_prefix_cons.mp h).1⟩
  | cons x before =>
    obtain ⟨rfl, htail⟩ := cons_prefix_cons.mp h
    exact .inr ⟨before, rfl, htail⟩

/-- Where no two elements have the same key, to take the one with a key out is to keep the
    others. -/
theorem eraseP_eq_filter {β : Type v} [BEq β] [LawfulBEq β] {f : α → β} {l : List α}
    (h : (l.map f).Nodup) (k : β) : (l.eraseP fun a => f a == k) = l.filter fun a => f a != k := by
  induction l with
  | nil => rfl
  | cons a l ih =>
    rw [map_cons, nodup_cons] at h
    by_cases ha : f a = k
    · subst ha
      have hothers : ∀ b ∈ l, f b != f a := fun b hb =>
        bne_iff_ne.mpr fun heq => h.1 (heq ▸ mem_map_of_mem hb)
      rw [eraseP_cons_of_pos (by simp), filter_cons_of_neg (by simp), filter_eq_self.mpr hothers]
    · rw [eraseP_cons_of_neg (by simpa using ha), filter_cons_of_pos (by simpa using ha), ih h.2]

/-- A part of a list without duplicates is what is found in it of the list. -/
theorem Sublist.filter_mem [DecidableEq α] {l m : List α} (h : l.Sublist m) (hnd : m.Nodup) :
    m.filter (fun a => decide (a ∈ l)) = l := by
  induction h with
  | slnil => rfl
  | @cons l m a h ih =>
    rw [nodup_cons] at hnd
    have ha : a ∉ l := fun hal => hnd.1 (h.subset hal)
    rw [filter_cons_of_neg (by simpa using ha), ih hnd.2]
  | @cons_cons l m a h ih =>
    rw [nodup_cons] at hnd
    -- behind `a` nothing is `a`
    have hrest : m.filter (fun b => decide (b ∈ a :: l)) = m.filter fun b => decide (b ∈ l) := by
      apply filter_congr
      intro b hb
      have hne : b ≠ a := fun heq => hnd.1 (heq ▸ hb)
      simp [hne]
    rw [filter_cons_of_pos (by simp), hrest, ih hnd.2]

/-- What is less than a list is less than a longer one. -/
theorem lt_append_right [LT α] {l m : List α} (r : List α) (h : l < m) : l < m ++ r := by
  have hlex : List.Lex (· < ·) l m := h
  show List.Lex (· < ·) l (m ++ r)
  induction hlex with
  | nil => exact .nil
  | cons hlex ih => exact .cons (ih hlex)
  | rel hlt => exact .rel hlt

/-- Between lists of one length it does not matter what follows. -/
theorem append_lt_append [LT α] {l m : List α} (h : l < m) (hlen : l.length = m.length)
    (r r' : List α) : l ++ r < m ++ r' := by
  have hlex : List.Lex (· < ·) l m := h
  show List.Lex (· < ·) (l ++ r) (m ++ r')
  induction hlex with
  | nil => exact nomatch hlen
  | cons hlex ih => exact .cons (ih hlex (Nat.succ.inj hlen))
  | rel hlt => exact .rel hlt

/-- An element of the first list has a partner in the second. -/
theorem Forall₂.exists_of_mem {β : Type v} {R : α → β → Prop} {l : List α} {m : List β}
    (h : Forall₂ R l m) {a : α} (ha : a ∈ l) : ∃ b ∈ m, R a b := by
  induction h with
  | nil => exact nomatch ha
  | cons hab _ ih =>
    rcases mem_cons.mp ha with rfl | ha
    · exact ⟨_, mem_cons_self, hab⟩
    · obtain ⟨b, hb, hR⟩ := ih ha
      exact ⟨b, mem_cons_of_mem _ hb, hR⟩

end List
