import Mathlib
import FixHandler.Native.Cme.DatArbitrator

/-!
# The arbitrator accounts for every packet

From the first packet accepted up to the current one every number is either
accepted or lost, never both, and what is lost was requested from the replay.
The numbers are below the largest 32 bit number, which the arbitrator uses as a
mark.

## Key results

- `feed_cases`, `replay_cases`: what a call does
- `Arbitration.Accounted.step`: a call keeps the account
- `arbitrator_accounts`: the statement for every sequence of calls
-/

namespace FixHandler.Cme

open Cxx (uint32Max countingRange mem_countingRange)

/-- Counting on does not wrap before the mark. -/
theorem toNat_add_one {n : UInt32} (h : n < uint32Max) : (n + 1).toNat = n.toNat + 1 := by
  have h : n.toNat < 2 ^ 32 - 1 := UInt32.lt_iff_toNat_lt.mp h
  rw [UInt32.toNat_add]
  have : (1 : UInt32).toNat = 1 := rfl
  omega

/-! ## What a call does -/

/-- What the check of a feed packet does, and its answer. -/
inductive FeedCase (a : DatArbitrator) (n : UInt32) : UInt32 × DatArbitrator → Prop where
  /-- the first packet -/
  | first (h : a.currentSequence = uint32Max) : FeedCase a n (0, { a with currentSequence := n })
  /-- the packet after the current one -/
  | next (h : a.currentSequence ≠ uint32Max) (hn : n.toNat = a.currentSequence.toNat + 1) :
      FeedCase a n (0, { a with currentSequence := n })
  /-- a packet from before that is lost -/
  | late (h : a.currentSequence ≠ uint32Max) (hn : n < a.currentSequence)
      (hlost : n ∈ a.lostSequences) :
      FeedCase a n (0, { a with lostSequences := a.lostSequences.erase n })
  /-- a packet from before that is not lost -/
  | known (h : a.currentSequence ≠ uint32Max) (hn : n ≤ a.currentSequence)
      (hlost : n = a.currentSequence ∨ n ∉ a.lostSequences) : FeedCase a n (uint32Max, a)
  /-- a packet that opens a gap -/
  | gap (h : a.currentSequence ≠ uint32Max) (hn : a.currentSequence.toNat + 1 < n.toNat) :
      FeedCase a n (a.currentSequence + 1,
        { currentSequence := n
          lostSequences :=
            a.lostSequences.insertMany (countingRange (a.currentSequence + 1) n) })

/-- What the check of a fed packet does -/
theorem feed_cases (a : DatArbitrator) {n : UInt32} (hn : n < uint32Max) :
    FeedCase a n (a.checkFeedPacket n) := by
  unfold DatArbitrator.checkFeedPacket
  by_cases hmax : a.currentSequence = uint32Max
  · -- whether or not the number after the mark is zero, this is the first packet
    have hne : n ≠ uint32Max := by
      rintro rfl
      exact absurd hn (by decide)
    simp only [beq_iff_eq, hmax, hne, if_true, if_false]
    split <;> exact .first hmax
  · -- after the first packet the number is below the mark
    have hlt : a.currentSequence < uint32Max := by
      have := a.currentSequence.toNat_lt
      have hne : a.currentSequence.toNat ≠ 2 ^ 32 - 1 := fun h => hmax (UInt32.toNat_inj.mp h)
      rw [UInt32.lt_iff_toNat_lt, Cxx.toNat_uint32Max]
      omega
    have hsucc := toNat_add_one hlt
    simp only [beq_iff_eq, hmax, if_false]
    split
    · next heq => exact .next hmax (by rw [heq, hsucc])
    · next hnext =>
      split
      · -- the number that was received last, once more
        next heq => exact .known hmax (by rw [heq]; exact UInt32.le_refl _) (.inl heq)
      · next hcur =>
        split
        · next hlt =>
          split
          · next hlost => exact .late hmax hlt (Std.TreeSet.mem_iff_contains.mpr hlost)
          · next hlost =>
            exact .known hmax (UInt32.le_of_lt hlt)
              (.inr fun h => hlost (Std.TreeSet.mem_iff_contains.mp h))
        · next hge =>
          -- neither the next number nor one up to the current one
          refine .gap hmax ?_
          have hge := UInt32.le_iff_toNat_le.mp (UInt32.not_lt.mp hge)
          have hcur : n.toNat ≠ a.currentSequence.toNat := fun h => hcur (UInt32.toNat_inj.mp h)
          have hnext : n.toNat ≠ (a.currentSequence + 1).toNat :=
            fun h => hnext (UInt32.toNat_inj.mp h)
          omega

/-- What the check of a replay packet does, and its answer. -/
inductive ReplayCase (a : DatArbitrator) (n : UInt32) : UInt32 × DatArbitrator → Prop where
  | lost (h : n ∈ a.lostSequences) :
      ReplayCase a n (0, { a with lostSequences := a.lostSequences.erase n })
  | known (h : n ∉ a.lostSequences) : ReplayCase a n (uint32Max, a)

/-- What the check of a replayed packet does -/
theorem replay_cases (a : DatArbitrator) (n : UInt32) :
    ReplayCase a n (a.checkReplayPacket n) := by
  unfold DatArbitrator.checkReplayPacket
  split
  · next h => exact .lost (Std.TreeSet.mem_iff_contains.mpr h)
  · next h => exact .known fun hmem => h (Std.TreeSet.mem_iff_contains.mp hmem)

/-! ## The account -/

namespace Arbitration

/-- Nothing was accepted yet, or the numbers from the first accepted one up to the
    current one are the accepted and the lost ones. -/
structure Accounted (s : Arbitration) : Prop where
  start : s.accepted = [] → s.arbitrator.currentSequence = uint32Max ∧
    (∀ n, n ∉ s.arbitrator.lostSequences) ∧ s.requested = []
  started : s.accepted ≠ [] → s.arbitrator.currentSequence ∈ s.accepted ∧
    s.arbitrator.currentSequence < uint32Max
  range : ∀ f, s.accepted.head? = some f → ∀ n,
    n ∈ s.accepted ∨ n ∈ s.arbitrator.lostSequences ↔ f ≤ n ∧ n ≤ s.arbitrator.currentSequence
  disjoint : ∀ n ∈ s.accepted, n ∉ s.arbitrator.lostSequences
  nodup : s.accepted.Nodup

/-- In the beginning nothing is accepted. -/
theorem Accounted.initial : Accounted {} where
  start _ := ⟨rfl, fun _ => Std.TreeSet.not_mem_emptyc, rfl⟩
  started h := absurd rfl h
  range _ h := nomatch h
  disjoint _ h := absurd h List.not_mem_nil
  nodup := List.nodup_nil

/-- As long as nothing was accepted the current number is the mark. -/
theorem Accounted.accepted_eq_nil_iff {s : Arbitration} (h : s.Accounted) :
    s.accepted = [] ↔ s.arbitrator.currentSequence = uint32Max := by
  refine ⟨fun hnil => (h.start hnil).1, fun hmax => ?_⟩
  by_contra hne
  have hlt := (h.started hne).2
  rw [hmax] at hlt
  exact absurd hlt (by decide)

/-- A lost number is below the current one, and the first was accepted before. -/
theorem Accounted.lost {s : Arbitration} (h : s.Accounted) {n : UInt32}
    (hn : n ∈ s.arbitrator.lostSequences) :
    ∃ f rest, s.accepted = f :: rest ∧ f ≤ n ∧ n < s.arbitrator.currentSequence := by
  cases hacc : s.accepted with
  | nil => exact absurd hn ((h.start hacc).2.1 n)
  | cons f rest =>
    have hrange := (h.range f (by rw [hacc]; rfl) n).mp (.inr hn)
    refine ⟨f, rest, rfl, hrange.1, ?_⟩
    have hne : n ≠ s.arbitrator.currentSequence := by
      rintro rfl
      exact h.disjoint _ (h.started (by rw [hacc]; exact List.cons_ne_nil _ _)).1 hn
    have hne : n.toNat ≠ s.arbitrator.currentSequence.toNat := fun heq =>
      hne (UInt32.toNat_inj.mp heq)
    have hle := UInt32.le_iff_toNat_le.mp hrange.2
    rw [UInt32.lt_iff_toNat_lt]
    omega

/-- A lost number that comes is accepted. -/
private theorem Accounted.found {s : Arbitration} (h : s.Accounted) {n : UInt32}
    (hn : n ∈ s.arbitrator.lostSequences) (requested : List (UInt32 × UInt32)) :
    Accounted { arbitrator := { s.arbitrator with
                  lostSequences := s.arbitrator.lostSequences.erase n }
                accepted := s.accepted ++ [n], requested } := by
  obtain ⟨f, rest, hacc, -, -⟩ := h.lost hn
  have hne : s.accepted ≠ [] := by rw [hacc]; exact List.cons_ne_nil _ _
  -- one number less is lost
  have herase : ∀ m, m ∈ s.arbitrator.lostSequences.erase n ↔
      m ≠ n ∧ m ∈ s.arbitrator.lostSequences := by
    intro m
    rw [Std.TreeSet.mem_erase, ne_eq, Std.LawfulEqCmp.compare_eq_iff_eq]
    simp only [ne_eq, eq_comm]
  constructor
  case start => exact fun hnil => absurd hnil (by simp)
  case started =>
    intro _
    exact ⟨List.mem_append_left _ (h.started hne).1, (h.started hne).2⟩
  -- the number goes over from the lost ones to the accepted ones
  case range =>
    intro f' hf' m
    have hf : s.accepted.head? = some f' := by
      rw [hacc] at hf' ⊢
      exact hf'
    rw [← h.range f' hf m, List.mem_append, List.mem_singleton, herase]
    by_cases hm : m = n
    · subst hm
      simp [hn]
    · simp [hm]
  case disjoint =>
    intro m hm
    rw [herase, not_and_or, not_not]
    rcases List.mem_append.mp hm with hm | hm
    · exact .inr (h.disjoint m hm)
    · exact .inl (List.mem_singleton.mp hm)
  -- a number that is lost was not accepted before
  case nodup =>
    refine List.nodup_append.mpr ⟨h.nodup, List.nodup_singleton n, ?_⟩
    intro m hm m' hm'
    rw [List.mem_singleton] at hm'
    subst hm'
    rintro rfl
    exact h.disjoint m hm hn

/-- A packet beyond the current one is accepted, and what lies between is lost. -/
private theorem Accounted.advance {s : Arbitration} (h : s.Accounted) {n : UInt32}
    (hn : n < uint32Max) (hne : s.accepted ≠ [])
    (hlt : s.arbitrator.currentSequence.toNat < n.toNat) {lost : Std.TreeSet UInt32}
    (hlost : ∀ m, m ∈ lost ↔ m ∈ s.arbitrator.lostSequences ∨
      s.arbitrator.currentSequence.toNat < m.toNat ∧ m.toNat < n.toNat)
    (requested : List (UInt32 × UInt32)) :
    Accounted { arbitrator := { currentSequence := n, lostSequences := lost }
                accepted := s.accepted ++ [n], requested } := by
  -- what was accepted before is at most the current number
  have hbelow : ∀ m ∈ s.accepted, m.toNat ≤ s.arbitrator.currentSequence.toNat := by
    intro m hm
    cases hacc : s.accepted with
    | nil => exact absurd hacc hne
    | cons f rest =>
      exact UInt32.le_iff_toNat_le.mp ((h.range f (by rw [hacc]; rfl) m).mp (.inl hm)).2
  constructor
  case start => exact fun hnil => absurd hnil (by simp)
  case started => exact fun _ => ⟨List.mem_append_right _ (List.mem_singleton_self n), hn⟩
  -- a number up to the new one is an old one, the new one or one in between
  case range =>
    intro f hf m
    have hf : s.accepted.head? = some f := by
      cases hacc : s.accepted with
      | nil => exact absurd hacc hne
      | cons f' rest =>
        rw [hacc] at hf
        exact hf
    have hrange := h.range f hf m
    have hfle := ((h.range f hf _).mp (.inl (h.started hne).1)).1
    rw [UInt32.le_iff_toNat_le] at hfle
    simp only [List.mem_append, List.mem_singleton, hlost, UInt32.le_iff_toNat_le,
      ← UInt32.toNat_inj (a := m)] at hrange ⊢
    constructor
    · rintro ((hm | hm) | hm | hm)
      · have := hrange.mp (.inl hm)
        omega
      · omega
      · have := hrange.mp (.inr hm)
        omega
      · omega
    · rintro ⟨hfm, hmn⟩
      by_cases hm : m.toNat ≤ s.arbitrator.currentSequence.toNat
      · exact (hrange.mpr ⟨hfm, hm⟩).elim (fun h => .inl (.inl h)) fun h => .inr (.inl h)
      · by_cases hmn' : m.toNat = n.toNat
        · exact .inl (.inr hmn')
        · exact .inr (.inr ⟨by omega, by omega⟩)
  case disjoint =>
    intro m hm hmlost
    -- the packet itself is behind the lost ones, old and new
    rcases (hlost m).mp hmlost with hold | hnew
    · rcases List.mem_append.mp hm with hm | hm
      · exact h.disjoint m hm hold
      · obtain ⟨-, -, -, -, hmlt⟩ := h.lost hold
        have := UInt32.lt_iff_toNat_lt.mp hmlt
        rw [List.mem_singleton.mp hm] at this
        omega
    · rcases List.mem_append.mp hm with hm | hm
      · have := hbelow m hm
        omega
      · rw [List.mem_singleton.mp hm] at hnew
        omega
  case nodup =>
    refine List.nodup_append.mpr ⟨h.nodup, List.nodup_singleton n, ?_⟩
    intro m hm m' hm'
    rw [List.mem_singleton] at hm'
    subst hm'
    rintro rfl
    have := hbelow m hm
    omega

/-- A call with a number below the mark keeps the account. -/
theorem Accounted.step {s : Arbitration} (h : s.Accounted) {c : Call}
    (hc : c.packetSeqNum < uint32Max) : (s.step c).Accounted := by
  cases c with
  | feed n =>
    have hc : n < uint32Max := hc
    have hcase := feed_cases s.arbitrator hc
    show (s.record (.feed n) (s.arbitrator.checkFeedPacket n)).Accounted
    generalize s.arbitrator.checkFeedPacket n = res at hcase
    unfold record Call.packetSeqNum
    have hzero : (0 : UInt32) ≠ uint32Max := by decide
    cases hcase with
    | first hmax =>
      -- nothing was accepted before the first packet
      have hnil := h.accepted_eq_nil_iff.mpr hmax
      have hnone := (h.start hnil).2.1
      simp only [hzero, if_false, hnil, List.nil_append]
      refine ⟨fun hnil => absurd hnil (List.cons_ne_nil _ _), fun _ => ⟨List.mem_singleton_self n, hc⟩,
        fun f hf m => ?_, fun m _ => hnone m, List.nodup_singleton n⟩
      cases hf
      have hm := hnone m
      simp only [List.mem_singleton, hm, or_false, UInt32.le_iff_toNat_le, ← UInt32.toNat_inj]
      omega
    | next hmax hn =>
      have hne := fun hnil => hmax (h.accepted_eq_nil_iff.mp hnil)
      simp only [hzero, if_false]
      exact h.advance hc hne (by omega) (fun m => ⟨.inl, fun h => h.resolve_right (by omega)⟩) _
    | late hmax hn hlost =>
      simp only [hzero, if_false]
      exact h.found hlost _
    | known hmax hn hlost =>
      -- a packet that is discarded changes nothing
      simp only [if_true]
      exact { h with start := fun hnil => by simpa using h.start hnil }
    | gap hmax hn =>
      have hne := fun hnil => hmax (h.accepted_eq_nil_iff.mp hnil)
      have hsucc := toNat_add_one (h.started hne).2
      have hle : s.arbitrator.currentSequence + 1 ≤ n := by
        rw [UInt32.le_iff_toNat_le]
        omega
      have hmark : s.arbitrator.currentSequence + 1 ≠ uint32Max := by
        intro heq
        have hn' := UInt32.lt_iff_toNat_lt.mp hc
        rw [← heq] at hn'
        omega
      simp only [hmark, if_false]
      -- the numbers in between are lost
      refine h.advance hc hne (by omega) (fun m => ?_) _
      rw [Std.TreeSet.mem_insertMany_list, List.contains_iff_mem, mem_countingRange hle,
        UInt32.le_iff_toNat_le, UInt32.lt_iff_toNat_lt]
      exact or_congr Iff.rfl (by omega)
  | replay n =>
    have hcase := replay_cases s.arbitrator n
    show (s.record (.replay n) (s.arbitrator.checkReplayPacket n)).Accounted
    generalize s.arbitrator.checkReplayPacket n = res at hcase
    unfold record Call.packetSeqNum
    cases hcase with
    | lost hlost =>
      -- a lost number is accepted from the replay
      have hzero : (0 : UInt32) ≠ uint32Max := by decide
      simp only [hzero, if_false]
      exact h.found hlost _
    | known hlost =>
      simp only [if_true]
      exact h

/-- The account is right along every run. -/
theorem Accounted.run {s : Arbitration} (h : s.Accounted) {cs : List Call}
    (hcs : ∀ c ∈ cs, c.packetSeqNum < uint32Max) : (s.run cs).Accounted := by
  induction cs generalizing s with
  | nil => exact h
  | cons c cs ih =>
    exact ih (h.step (hcs c List.mem_cons_self)) fun c' hc' => hcs c' (List.mem_cons_of_mem _ hc')

/-! ## The ranges that are requested -/

/-- A number of a half open range. -/
def Within (r : UInt32 × UInt32) (n : UInt32) : Prop := r.1 ≤ n ∧ n < r.2

/-- The requested ranges lie one after the other below the current number, and all that
    is lost is in one of them. -/
structure Requested (s : Arbitration) : Prop where
  below : ∀ r ∈ s.requested, r.2 ≤ s.arbitrator.currentSequence
  apart : s.requested.Pairwise fun r r' => ∀ n, ¬ (Within r n ∧ Within r' n)
  lost : ∀ n ∈ s.arbitrator.lostSequences, ∃ r ∈ s.requested, Within r n

/-- What a call does to the requests: nothing, unless it opens a gap; then all of the
    requested range is lost. -/
private theorem requested_step {s : Arbitration} (h : s.Accounted) {c : Call}
    (hc : c.packetSeqNum < uint32Max) :
    ((s.step c).requested = s.requested ∧
      (s.accepted = [] ∨
        s.arbitrator.currentSequence ≤ (s.step c).arbitrator.currentSequence) ∧
      ∀ n ∈ (s.step c).arbitrator.lostSequences, n ∈ s.arbitrator.lostSequences) ∨
    ∃ n, (s.step c).requested = s.requested ++ [(s.arbitrator.currentSequence + 1, n)] ∧
      s.arbitrator.currentSequence.toNat + 1 < n.toNat ∧ s.accepted ≠ [] ∧
      (s.step c).arbitrator.currentSequence = n ∧
      ∀ m, m ∈ (s.step c).arbitrator.lostSequences ↔
        m ∈ s.arbitrator.lostSequences ∨ Within (s.arbitrator.currentSequence + 1, n) m := by
  have herase : ∀ n m, m ∈ s.arbitrator.lostSequences.erase n →
      m ∈ s.arbitrator.lostSequences := fun n m hm => Std.TreeSet.mem_of_mem_erase hm
  cases c with
  | feed n =>
    have hc : n < uint32Max := hc
    have hcase := feed_cases s.arbitrator hc
    rw [show s.step (.feed n) = s.record (.feed n) (s.arbitrator.checkFeedPacket n) from rfl]
    generalize s.arbitrator.checkFeedPacket n = res at hcase
    unfold record
    cases hcase with
    | first hmax =>
      exact .inl ⟨by simp, .inl (h.accepted_eq_nil_iff.mpr hmax), fun _ h => h⟩
    | next hmax hn =>
      -- only a gap is requested; the other answers leave the requests
      refine .inl ⟨by simp, .inr ?_, fun _ h => h⟩
      show s.arbitrator.currentSequence ≤ n
      rw [UInt32.le_iff_toNat_le]
      omega
    | late hmax hn hlost =>
      exact .inl ⟨by simp, .inr (UInt32.le_refl _), herase n⟩
    | known hmax hn hlost =>
      exact .inl ⟨by simp, .inr (UInt32.le_refl _), fun _ h => h⟩
    | gap hmax hn =>
      have hne := fun hnil => hmax (h.accepted_eq_nil_iff.mp hnil)
      have hsucc := toNat_add_one (h.started hne).2
      have hle : s.arbitrator.currentSequence + 1 ≤ n := by
        rw [UInt32.le_iff_toNat_le]
        omega
      have hstatus : s.arbitrator.currentSequence + 1 ≠ uint32Max ∧
          s.arbitrator.currentSequence + 1 > 0 := by
        refine ⟨fun heq => ?_, ?_⟩
        · have hn' := UInt32.lt_iff_toNat_lt.mp hc
          rw [← heq] at hn'
          omega
        · rw [gt_iff_lt, UInt32.lt_iff_toNat_lt, hsucc]
          exact Nat.succ_pos _
      -- a gap is requested, from the next number up to this one
      refine .inr ⟨n, if_pos hstatus, hn, hne, rfl, fun m => ?_⟩
      rw [Std.TreeSet.mem_insertMany_list, List.contains_iff_mem, mem_countingRange hle]
      rfl
  | replay n =>
    have hcase := replay_cases s.arbitrator n
    rw [show s.step (.replay n) = s.record (.replay n) (s.arbitrator.checkReplayPacket n) from rfl]
    generalize s.arbitrator.checkReplayPacket n = res at hcase
    unfold record
    cases hcase with
    | lost hlost => exact .inl ⟨rfl, .inr (UInt32.le_refl _), herase n⟩
    | known hlost => exact .inl ⟨rfl, .inr (UInt32.le_refl _), fun _ h => h⟩

/-- The requests stay apart. -/
theorem Requested.step {s : Arbitration} (hr : s.Requested) (h : s.Accounted) {c : Call}
    (hc : c.packetSeqNum < uint32Max) : (s.step c).Requested := by
  rcases requested_step h hc with ⟨hreq, hcur, hlost⟩ | ⟨n, hreq, hn, hne, hcur, hlost⟩
  · -- nothing was requested, and no number got lost
    refine ⟨fun r hmem => ?_, ?_, fun m hm => ?_⟩
    · rw [hreq] at hmem
      rcases hcur with hnil | hle
      · rw [(h.start hnil).2.2] at hmem
        exact absurd hmem List.not_mem_nil
      · exact UInt32.le_trans (hr.below r hmem) hle
    · rw [hreq]; exact hr.apart
    · rw [hreq]; exact hr.lost m (hlost m hm)
  · -- the new range begins above the current number
    have hsucc := toNat_add_one (h.started hne).2
    refine ⟨fun r hmem => ?_, ?_, fun m hm => ?_⟩
    · rw [hcur, UInt32.le_iff_toNat_le]
      rw [hreq, List.mem_append, List.mem_singleton] at hmem
      rcases hmem with hmem | rfl
      · have := UInt32.le_iff_toNat_le.mp (hr.below r hmem)
        omega
      · exact Nat.le_refl _
    · rw [hreq, List.pairwise_append]
      refine ⟨hr.apart, List.pairwise_singleton _ _, fun r hmem r' hmem' m hboth => ?_⟩
      -- an earlier range ends before the new one begins
      rw [List.mem_singleton] at hmem'
      subst hmem'
      have hbelow := UInt32.le_iff_toNat_le.mp (hr.below r hmem)
      have hlt := UInt32.lt_iff_toNat_lt.mp hboth.1.2
      have hge := UInt32.le_iff_toNat_le.mp hboth.2.1
      simp only at hge
      omega
    · rw [hreq]
      rcases (hlost m).mp hm with hold | hnew
      · obtain ⟨r, hmem, hw⟩ := hr.lost m hold
        exact ⟨r, List.mem_append_left _ hmem, hw⟩
      · exact ⟨_, List.mem_append_right _ (List.mem_singleton_self _), hnew⟩

theorem Requested.run {s : Arbitration} (hr : s.Requested) (h : s.Accounted) {cs : List Call}
    (hcs : ∀ c ∈ cs, c.packetSeqNum < uint32Max) : (s.run cs).Requested := by
  induction cs generalizing s with
  | nil => exact hr
  | cons c cs ih =>
    exact ih (hr.step h (hcs c List.mem_cons_self)) (h.step (hcs c List.mem_cons_self))
      fun c' hc' => hcs c' (List.mem_cons_of_mem _ hc')

theorem Requested.initial : Requested {} where
  below _ h := absurd h List.not_mem_nil
  apart := List.Pairwise.nil
  lost _ h := absurd h Std.TreeSet.not_mem_emptyc

/-- What is requested in a run was requested before, or was lost at some time in it. -/
private theorem lost_of_requested {s : Arbitration} (h : s.Accounted) {cs : List Call}
    (hcs : ∀ c ∈ cs, c.packetSeqNum < uint32Max) {r : UInt32 × UInt32}
    (hr : r ∈ (s.run cs).requested) {n : UInt32} (hn : Within r n) :
    r ∈ s.requested ∨ ∃ pre, pre <+: cs ∧ n ∈ (s.run pre).arbitrator.lostSequences := by
  induction cs generalizing s with
  | nil => exact .inl hr
  | cons c cs ih =>
    have hc := hcs c List.mem_cons_self
    rcases ih (h.step hc) (fun c' hc' => hcs c' (List.mem_cons_of_mem _ hc')) hr with
      hmem | ⟨pre, hpre, hlost⟩
    · rcases requested_step h hc with ⟨hreq, -⟩ | ⟨m, hreq, -, -, -, hlost⟩
      · exact .inl (hreq ▸ hmem)
      · rw [hreq, List.mem_append, List.mem_singleton] at hmem
        rcases hmem with hmem | rfl
        · exact .inl hmem
        · exact .inr ⟨[c], List.cons_prefix_cons.mpr ⟨rfl, List.nil_prefix⟩,
            (hlost n).mpr (.inr hn)⟩
    · exact .inr ⟨c :: pre, List.cons_prefix_cons.mpr ⟨rfl, hpre⟩, hlost⟩

theorem requested_subset_step (s : Arbitration) (c : Call) {r : UInt32 × UInt32}
    (hr : r ∈ s.requested) : r ∈ (s.step c).requested := by
  cases c with
  | feed n =>
    simp only [step, record]
    split
    · exact List.mem_append_left _ hr
    · exact hr
  | replay n => exact hr

theorem requested_subset_run (s : Arbitration) (cs : List Call) {r : UInt32 × UInt32}
    (hr : r ∈ s.requested) : r ∈ (s.run cs).requested := by
  induction cs generalizing s with
  | nil => exact hr
  | cons c cs ih => exact ih (s.step c) (requested_subset_step s c hr)

/-! ## Every sequence of calls -/

/-- A packet skips a number: it is beyond all that was accepted, and below the packet. -/
def Skips (s : Arbitration) (n k : UInt32) : Prop :=
  s.accepted ≠ [] ∧ (∀ m ∈ s.accepted, m < k) ∧ k < n

/-- The answer to a feed packet is neither 0 nor the mark exactly if it skips numbers, and
    then it is the first of them. -/
theorem Accounted.status {s : Arbitration} (h : s.Accounted) {n : UInt32} (hn : n < uint32Max) :
    ((s.arbitrator.checkFeedPacket n).1 ≠ 0 ∧ (s.arbitrator.checkFeedPacket n).1 ≠ uint32Max ↔
      ∃ k, s.Skips n k) ∧
    ((s.arbitrator.checkFeedPacket n).1 ≠ 0 → (s.arbitrator.checkFeedPacket n).1 ≠ uint32Max →
      s.Skips n (s.arbitrator.checkFeedPacket n).1 ∧
        ∀ k, s.Skips n k → (s.arbitrator.checkFeedPacket n).1 ≤ k) := by
  -- a number that is skipped lies above the current one
  have hcur : ∀ k, s.Skips n k → s.arbitrator.currentSequence.toNat + 1 ≤ k.toNat ∧
      k.toNat < n.toNat := by
    rintro k ⟨hne, hall, hlt⟩
    have := UInt32.lt_iff_toNat_lt.mp (hall _ (h.started hne).1)
    exact ⟨this, UInt32.lt_iff_toNat_lt.mp hlt⟩
  have hcase := feed_cases s.arbitrator hn
  generalize s.arbitrator.checkFeedPacket n = res at hcase
  cases hcase with
  | first hmax =>
    refine ⟨⟨fun h => absurd rfl h.1, fun ⟨k, hk⟩ => ?_⟩, fun h => absurd rfl h⟩
    exact absurd (h.accepted_eq_nil_iff.mpr hmax) hk.1
  | next hmax hnext =>
    refine ⟨⟨fun h => absurd rfl h.1, fun ⟨k, hk⟩ => ?_⟩, fun h => absurd rfl h⟩
    have := hcur k hk
    omega
  | late hmax hlt hlost =>
    refine ⟨⟨fun h => absurd rfl h.1, fun ⟨k, hk⟩ => ?_⟩, fun h => absurd rfl h⟩
    have := hcur k hk
    have := UInt32.lt_iff_toNat_lt.mp hlt
    omega
  | known hmax hle hlost =>
    refine ⟨⟨fun h => absurd rfl h.2, fun ⟨k, hk⟩ => ?_⟩, fun _ h => absurd rfl h⟩
    have := hcur k hk
    have := UInt32.le_iff_toNat_le.mp hle
    omega
  | gap hmax hgap =>
    have hne := fun hnil => hmax (h.accepted_eq_nil_iff.mp hnil)
    have hsucc := toNat_add_one (h.started hne).2
    -- behind a gap the first number that is skipped is the next one
    have hskips : s.Skips n (s.arbitrator.currentSequence + 1) := by
      refine ⟨hne, fun m hm => ?_, ?_⟩
      · cases hacc : s.accepted with
        | nil => exact absurd hacc hne
        | cons f rest =>
          have := ((h.range f (by rw [hacc]; rfl) m).mp (.inl hm)).2
          rw [UInt32.le_iff_toNat_le] at this
          rw [UInt32.lt_iff_toNat_lt]
          omega
      · rw [UInt32.lt_iff_toNat_lt]
        omega
    refine ⟨⟨fun _ => ⟨_, hskips⟩, fun _ => ⟨fun heq => ?_, fun heq => ?_⟩⟩,
      fun _ _ => ⟨hskips, fun k hk => ?_⟩⟩
    · have heq : (s.arbitrator.currentSequence + 1).toNat = 0 := congrArg UInt32.toNat heq
      omega
    · have heq : s.arbitrator.currentSequence + 1 = uint32Max := heq
      have := UInt32.lt_iff_toNat_lt.mp hn
      rw [← heq] at this
      omega
    · show s.arbitrator.currentSequence + 1 ≤ k
      rw [UInt32.le_iff_toNat_le]
      have := hcur k hk
      omega

/-- For every sequence of calls with numbers below the mark: from the first accepted
    number `F` to the current one the numbers are the accepted and the lost ones, which
    are disjoint; no number is accepted twice; the next answer to a feed packet is neither
    0 nor the mark exactly if the packet skips numbers, and is the first of them; the
    requested ranges are disjoint and contain the numbers that were lost at some time. -/
theorem arbitrator_accounts (cs : List Call) (hcs : ∀ c ∈ cs, c.packetSeqNum < uint32Max) :
    let s := run {} cs
    (s.accepted = [] → s.arbitrator.currentSequence = uint32Max ∧
      ∀ n, n ∉ s.arbitrator.lostSequences) ∧
    (∀ F, s.accepted.head? = some F → ∀ n,
      n ∈ s.accepted ∨ n ∈ s.arbitrator.lostSequences ↔
        F ≤ n ∧ n ≤ s.arbitrator.currentSequence) ∧
    (∀ n ∈ s.accepted, n ∉ s.arbitrator.lostSequences) ∧
    s.accepted.Nodup ∧
    (∀ n < uint32Max,
      ((s.arbitrator.checkFeedPacket n).1 ≠ 0 ∧
        (s.arbitrator.checkFeedPacket n).1 ≠ uint32Max ↔ ∃ k, s.Skips n k) ∧
      ((s.arbitrator.checkFeedPacket n).1 ≠ 0 →
        (s.arbitrator.checkFeedPacket n).1 ≠ uint32Max →
          s.Skips n (s.arbitrator.checkFeedPacket n).1 ∧
            ∀ k, s.Skips n k → (s.arbitrator.checkFeedPacket n).1 ≤ k)) ∧
    (s.requested.Pairwise fun r r' => ∀ n, ¬ (Within r n ∧ Within r' n)) ∧
    ∀ n, (∃ r ∈ s.requested, Within r n) ↔
      ∃ pre, pre <+: cs ∧ n ∈ (run {} pre).arbitrator.lostSequences := by
  have h := Accounted.initial.run hcs
  have hr := Requested.initial.run .initial hcs
  refine ⟨fun hnil => ⟨(h.start hnil).1, (h.start hnil).2.1⟩, h.range, h.disjoint, h.nodup,
    fun n hn => h.status hn, hr.apart, fun n => ⟨?_, ?_⟩⟩
  · -- the initial state has requested nothing
    rintro ⟨r, hmem, hn⟩
    exact (lost_of_requested .initial hcs hmem hn).resolve_left List.not_mem_nil
  · rintro ⟨pre, ⟨post, rfl⟩, hlost⟩
    have hpre : ∀ c ∈ pre, c.packetSeqNum < uint32Max :=
      fun c hc => hcs c (List.mem_append_left _ hc)
    obtain ⟨r, hmem, hn⟩ := (Requested.initial.run .initial hpre).lost n hlost
    refine ⟨r, ?_, hn⟩
    rw [run, List.foldl_append]
    exact requested_subset_run _ post hmem

/-- Packets 5, 8, 6 and the replay of 7: six and seven are requested and accepted. -/
theorem arbitrator_accounts_for_gap :
    (run {} [.feed 5, .feed 8, .feed 6, .replay 7]).accepted = [5, 8, 6, 7] ∧
    (run {} [.feed 5, .feed 8, .feed 6, .replay 7]).requested = [(6, 8)] ∧
    ∃ pre, pre <+: [.feed 5, .feed 8, .feed 6, .replay 7] ∧
      7 ∈ (run {} pre).arbitrator.lostSequences := by
  have heval : (run {} [.feed 5, .feed 8, .feed 6, .replay 7]).accepted = [5, 8, 6, 7] ∧
      (run {} [.feed 5, .feed 8, .feed 6, .replay 7]).requested = [(6, 8)] := by
    decide +kernel
  have hspec := (arbitrator_accounts [.feed 5, .feed 8, .feed 6, .replay 7] (by decide)).2.2.2.2.2.2
  refine ⟨heval.1, heval.2, (hspec 7).mp ⟨(6, 8), ?_, by unfold Within; decide⟩⟩
  rw [heval.2]
  exact List.mem_singleton_self _

end Arbitration

end FixHandler.Cme
