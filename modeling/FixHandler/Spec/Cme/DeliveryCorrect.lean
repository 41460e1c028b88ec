import Mathlib
import FixHandler.Native.Cme.DatProcessor
import FixHandler.Spec.Cme.CmeDataCorrect

/-!
# Increments are delivered in order, without gaps, exactly once

In every interleaving of the feed, the replay threads and the saver the arbitrator
and the multiset agree: a packet that was accepted is either inserted or held by
exactly one thread. A packet that is held or still lost is beyond every message that
was picked, and so never comes too late.

## Key results

- `Consistent.apply`: an action of any thread keeps the two in agreement
- `picked_isPrefix`: the statement for every run
-/

namespace FixHandler.Cme

open Cxx (uint32Max)
open CmeData (numbers mem_numbers insertPacket insertPacket_perm mem_numbers_insertPacket)

namespace Delivery

/-- The number of the first packet accepted. -/
def first (s : Delivery) : UInt32 := (s.accepted.head?.map (·.seqNum)).getD 0

/-- The packets that threads hold between the check and the insertion. -/
def pending (s : Delivery) : List Packet := s.feed.toList ++ s.replay

/-- The packets `packets` were inserted and the messages `done` were removed. -/
structure Consistent (s : Delivery) (packets : List Packet) (done : List MdpMessage) : Prop where
  accounted : s.arbitration.Accounted
  accepted : s.arbitration.accepted = numbers s.accepted
  held : s.accepted.Perm (packets ++ s.pending)
  start : packets = [] → s.replay = []
  ordered : s.data.Ordered s.first packets done
  saver : ∀ x, s.saver = some x → s.data.incrementDatas.head? = some x
  picked : s.picked = done ++ s.saver.toList.map (·.2)
  passed : ∀ m ∈ s.picked, ∀ n, s.first ≤ n → n ≤ m.packetSeqNum → n ∈ numbers packets

/-- In the beginning nothing is accepted or inserted. -/
theorem Consistent.initial : Consistent {} [] [] where
  accounted := .initial
  accepted := rfl
  held := List.Perm.refl _
  start _ := rfl
  ordered := .initial _
  saver _ h := nomatch h
  picked := rfl
  passed _ h := absurd h List.not_mem_nil

variable {s : Delivery} {packets : List Packet} {done : List MdpMessage}

/-! ### What is accepted -/

/-- What was accepted is between the first number and the mark. -/
private theorem Consistent.range (h : s.Consistent packets done) {p : Packet}
    (hp : p ∈ s.accepted) : s.first ≤ p.seqNum ∧ p.seqNum < uint32Max := by
  have hmem : p.seqNum ∈ s.arbitration.accepted := by
    rw [h.accepted]
    exact mem_numbers.mpr ⟨p, hp, rfl⟩
  have hmax := (h.accounted.started (List.ne_nil_of_mem hmem)).2
  cases hacc : s.accepted with
  | nil => rw [hacc] at hp; exact absurd hp List.not_mem_nil
  | cons f rest =>
    have hhead : s.arbitration.accepted.head? = some f.seqNum := by rw [h.accepted, hacc]; rfl
    obtain ⟨hge, hle⟩ := (h.accounted.range _ hhead p.seqNum).mp (.inl hmem)
    rw [first, hacc]
    exact ⟨hge, UInt32.lt_of_le_of_lt hle hmax⟩

/-- A packet that a thread holds is not inserted, and is beyond all that was picked. -/
private theorem Consistent.of_pending (h : s.Consistent packets done) {p : Packet}
    (hp : p ∈ s.pending) : p.seqNum ∉ numbers packets ∧
      ∀ m ∈ s.picked, m.packetSeqNum < p.seqNum := by
  have hnodup : (numbers packets ++ numbers s.pending).Nodup := by
    have hn := h.accounted.nodup
    rw [h.accepted, numbers, (h.held.map _).nodup_iff, List.map_append] at hn
    exact hn
  have hnot : p.seqNum ∉ numbers packets := fun hmem =>
    (List.nodup_append.mp hnodup).2.2 _ hmem _ (mem_numbers.mpr ⟨p, hp, rfl⟩) rfl
  refine ⟨hnot, fun m hm => UInt32.not_le.mp fun hle => hnot ?_⟩
  have hacc := h.held.mem_iff.mpr (List.mem_append_right packets hp)
  exact h.passed m hm _ (h.range hacc).1 hle

/-- Before the first insertion only the thread of the feed can hold a packet, and it is the
    first one. -/
private theorem Consistent.of_nil (h : s.Consistent packets done) (hnil : packets = []) :
    s.accepted = s.feed.toList ∧ s.picked = [] := by
  have hheld := h.held
  have hstream := h.ordered.stream
  rw [hnil, pending, h.start hnil, List.append_nil, List.nil_append] at hheld
  rw [hnil] at hstream
  obtain ⟨hdone, hdatas⟩ := List.append_eq_nil_iff.mp hstream
  refine ⟨?_, ?_⟩
  · -- what was accepted waits with the feed, as nothing was inserted
    cases hfeed : s.feed with
    | none => rw [hfeed] at hheld; exact hheld.eq_nil
    | some p => rw [hfeed] at hheld; exact List.perm_singleton.mp hheld
  · -- a message that is held would be in the buffer
    rw [h.picked, hdone]
    cases hsaver : s.saver with
    | none => rfl
    | some x =>
      have := h.saver x hsaver
      rw [List.map_eq_nil_iff.mp hdatas] at this
      exact nomatch this

/-! ### The checks -/

/-- A checked packet is accepted if its check says so. -/
private theorem step_accepted (s : Delivery) (c : Call) :
    (s.arbitration.step c).accepted =
      if s.valid c then s.arbitration.accepted ++ [c.packetSeqNum] else s.arbitration.accepted := by
  show (if (s.arbitration.arbitrator.check c).1 = uint32Max then _ else _) = _
  by_cases h : s.valid c
  · rw [if_pos h]
    exact if_neg h
  · rw [if_neg h]
    exact if_pos (not_not.mp h)

/-- A packet that is accepted becomes held by the thread that has checked it. -/
private theorem Consistent.accept (h : s.Consistent packets done) {c : Call} {p : Packet}
    (hc : c.packetSeqNum = p.seqNum) (hmax : p.seqNum < uint32Max) (hvalid : s.valid c)
    {s' : Delivery} (harb : s'.arbitration = s.arbitration.step c) (hdata : s'.data = s.data)
    (hsaver : s'.saver = s.saver) (hpicked : s'.picked = s.picked)
    (haccepted : s'.accepted = s.accepted ++ [p])
    (hpending : s'.pending.Perm (s.pending ++ [p])) (hstart : packets = [] → s'.replay = []) :
    s'.Consistent packets done := by
  -- the first number is settled by the first packet
  have hfirst : packets ≠ [] → s'.first = s.first := by
    intro hne
    cases hacc : s.accepted with
    | nil =>
      have := h.held.symm
      rw [hacc] at this
      exact absurd (List.append_eq_nil_iff.mp this.eq_nil).1 hne
    | cons f rest => rw [first, first, haccepted, hacc]; rfl
  refine ⟨?_, ?_, ?_, hstart, ?_, ?_, ?_, ?_⟩
  · -- the arbitrator accounts for the packet, and keeps what it knew
    rw [harb]
    exact h.accounted.step (hc ▸ hmax)
  · rw [harb, step_accepted, if_pos hvalid, h.accepted, haccepted, hc, numbers, numbers,
      List.map_append]
    rfl
  · -- the packet is pending until it is inserted
    rw [haccepted]
    refine (h.held.append_right [p]).trans ?_
    rw [List.append_assoc]
    exact hpending.symm.append_left packets
  · rw [hdata]
    by_cases hnil : packets = []
    · -- nothing was inserted yet, and so any number may be the first one
      have hord := h.ordered
      subst hnil
      exact { hord with
        started := fun hne => absurd rfl hne
        range := fun n hn => absurd hn List.not_mem_nil
        unreceived := fun n => iff_of_false (fun hn => ((hord.unreceived n).mp hn).1 rfl)
          fun hn => hn.1 rfl }
    · rw [hfirst hnil]
      exact h.ordered
  · rw [hsaver, hdata]
    exact h.saver
  · rw [hsaver, hpicked]
    exact h.picked
  · -- nothing is picked by this step
    rw [hpicked]
    intro m hm
    by_cases hnil : packets = []
    · rw [(h.of_nil hnil).2] at hm
      exact absurd hm List.not_mem_nil
    · rw [hfirst hnil]
      exact h.passed m hm

/-- A packet that is discarded changes nothing. -/
private theorem Consistent.discard (h : s.Consistent packets done) {c : Call}
    (hmax : c.packetSeqNum < uint32Max) (hvalid : ¬ s.valid c) :
    Consistent { s with arbitration := s.arbitration.step c } packets done :=
  { h with
    accounted := h.accounted.step hmax
    accepted := by
      show (s.arbitration.step c).accepted = _
      rw [step_accepted, if_neg hvalid]
      exact h.accepted }

/-- A fed packet is accepted, and waits to be inserted, or is dropped. -/
private theorem Consistent.checkFeed (h : s.Consistent packets done) {p : Packet}
    (hmax : p.seqNum < uint32Max) (hfeed : s.feed = none) :
    (s.checkFeed p).Consistent packets done := by
  unfold Delivery.checkFeed
  by_cases hvalid : s.valid (.feed p.seqNum)
  · simp only [if_pos hvalid]
    refine h.accept (c := .feed p.seqNum) rfl hmax hvalid rfl rfl rfl rfl rfl ?_ h.start
    show (p :: s.replay).Perm (s.pending ++ [p])
    rw [pending, hfeed]
    exact (List.perm_append_singleton p s.replay).symm
  · simp only [if_neg hvalid]
    exact h.discard hmax hvalid

/-- A replayed packet is accepted, and waits to be inserted, or is dropped. -/
private theorem Consistent.checkReplay (h : s.Consistent packets done) {p : Packet}
    (hmax : p.seqNum < uint32Max) : (s.checkReplay p).Consistent packets done := by
  unfold Delivery.checkReplay
  by_cases hvalid : s.valid (.replay p.seqNum)
  · simp only [if_pos hvalid]
    refine h.accept (c := .replay p.seqNum) rfl hmax hvalid rfl rfl rfl rfl rfl ?_ fun hnil => ?_
    · show (s.feed.toList ++ (s.replay ++ [p])).Perm (s.feed.toList ++ s.replay ++ [p])
      rw [List.append_assoc]
    · -- something is lost only if the feed has gone on after the first packet
      exfalso
      -- the packet fills a gap
      have hlost : p.seqNum ∈ s.arbitration.arbitrator.lostSequences := by
        have hcase := replay_cases s.arbitration.arbitrator p.seqNum
        unfold valid at hvalid
        rw [show s.arbitration.arbitrator.check (.replay p.seqNum) =
          s.arbitration.arbitrator.checkReplayPacket p.seqNum from rfl] at hvalid
        generalize s.arbitration.arbitrator.checkReplayPacket p.seqNum = res at hcase hvalid
        cases hcase with
        | lost hlost => exact hlost
        | known _ => exact absurd rfl hvalid
      obtain ⟨f, rest, hacc, hle, hlt⟩ := h.accounted.lost hlost
      -- only the first packet was accepted, and there is no gap behind it
      have hone : rest = [] := by
        have hnumbers := h.accepted
        rw [hacc, (h.of_nil hnil).1] at hnumbers
        cases hfeed : s.feed with
        | none => rw [hfeed] at hnumbers; exact nomatch hnumbers
        | some q =>
          rw [hfeed] at hnumbers
          exact (List.cons.inj hnumbers).2
      have hcur := (h.accounted.started (by rw [hacc]; exact List.cons_ne_nil _ _)).1
      rw [hacc, hone, List.mem_singleton] at hcur
      rw [hcur] at hlt
      exact UInt32.not_le.mpr hlt hle
  · simp only [if_neg hvalid]
    exact h.discard hmax hvalid

/-! ### The insertions -/

/-- What a thread holds is inserted. -/
private theorem Consistent.insert (h : s.Consistent packets done) {p : Packet}
    (hp : p ∈ s.pending) (hstart : packets = [] → s.feed = some p)
    {s' : Delivery} (harb : s'.arbitration = s.arbitration)
    (hdata : s'.data = s.data.insertIncrementData p.seqNum p.messages)
    (hsaver : s'.saver = s.saver) (hpicked : s'.picked = s.picked)
    (haccepted : s'.accepted = s.accepted) (hpending : s.pending.Perm (p :: s'.pending)) :
    s'.Consistent (insertPacket p packets) done := by
  obtain ⟨hnot, hbeyond⟩ := h.of_pending hp
  obtain ⟨hfirst, hmax⟩ := h.range (h.held.mem_iff.mpr (List.mem_append_right packets hp))
  have hfirst' : s'.first = s.first := by rw [first, first, haccepted]
  -- the packet comes behind all that is done
  have hdone : ∀ m ∈ done, m.packetSeqNum < p.seqNum := fun m hm => hbeyond m (by
    rw [h.picked]
    exact List.mem_append_left _ hm)
  refine ⟨?_, ?_, ?_, fun hnil => ?_, ?_, fun x hx => ?_, ?_, ?_⟩
  · rw [harb]
    exact h.accounted
  · rw [harb, haccepted]
    exact h.accepted
  · rw [haccepted]
    refine h.held.trans ((hpending.append_left packets).trans ?_)
    exact List.perm_middle.trans ((insertPacket_perm p packets).symm.append_right _)
  · exact absurd hnil (by simp [insertPacket])
  · rw [hdata, hfirst']
    refine h.ordered.insert hnot hmax hfirst (fun hnil => ?_) hdone
    rw [first, (h.of_nil hnil).1, hstart hnil]
    rfl
  · -- the message picked is not beyond the packet, and so it stays in front
    rw [hsaver] at hx
    have hhead := h.saver x hx
    have hle : CmeData.upTo p.seqNum x = true := by
      have hmem : x.2 ∈ s.picked := by
        rw [h.picked, hx]
        exact List.mem_append_right _ List.mem_cons_self
      exact decide_eq_true (UInt32.le_of_lt (hbeyond x.2 hmem))
    -- the messages go behind those of smaller numbers
    have hdatas : s'.data.incrementDatas =
        (p.messages.foldl CmeData.insert s.data).incrementDatas := by
      rw [hdata, CmeData.insertIncrementData]
      split
      · rfl
      · split <;> rfl
    rw [hdatas, CmeData.foldl_insert s.data fun m hm => Packet.seqNum_of_mem hm]
    cases hcons : s.data.incrementDatas with
    | nil => rw [hcons] at hhead; cases hhead
    | cons y rest =>
      rw [hcons] at hhead
      cases hhead
      rw [List.takeWhile_cons_of_pos hle]
      rfl
  · rw [hpicked, hsaver]
    exact h.picked
  · rw [hpicked, hfirst']
    intro m hm n hge hle
    exact mem_numbers_insertPacket.mpr (.inr (h.passed m hm n hge hle))

/-! ### Every action -/

/-- An action of any thread keeps the arbitrator and the multiset in agreement. -/
theorem Consistent.apply (h : s.Consistent packets done) {a : Act} (ha : s.guard a)
    (hmax : ∀ p, a.packet? = some p → p.seqNum < uint32Max) :
    ∃ packets' done', (s.apply a).Consistent packets' done' := by
  cases a with
  | checkFeed p => exact ⟨_, _, h.checkFeed (hmax p rfl) ha⟩
  | checkReplay p => exact ⟨_, _, h.checkReplay (hmax p rfl)⟩
  | insertFeed =>
    cases hfeed : s.feed with
    | none => rw [guard, hfeed] at ha; exact nomatch ha
    | some p =>
      simp only [Delivery.apply, hfeed]
      refine ⟨insertPacket p packets, done, h.insert (p := p) ?_ (fun _ => hfeed) rfl rfl rfl rfl
        rfl ?_⟩
      · rw [pending, hfeed]
        exact List.mem_cons_self
      · rw [pending, hfeed]
        exact List.Perm.refl _
  | insertReplay i =>
    have ha : i < s.replay.length := ha
    simp only [Delivery.apply, List.getElem?_eq_getElem ha]
    -- a replayed packet comes after the first one
    have hne : packets ≠ [] := fun hnil => by
      rw [h.start hnil] at ha
      exact absurd ha (Nat.not_lt_zero i)
    refine ⟨insertPacket s.replay[i] packets, done, h.insert (p := s.replay[i]) ?_
      (fun hnil => absurd hnil hne) rfl rfl rfl rfl rfl ?_⟩
    · exact List.mem_append_right _ (List.getElem_mem ha)
    · show (s.feed.toList ++ s.replay).Perm
        (s.replay[i] :: (s.feed.toList ++ s.replay.eraseIdx i))
      exact ((List.getElem_cons_eraseIdx_perm ha).symm.append_left _).trans List.perm_middle
  | pick =>
    obtain ⟨hsaver, hsome⟩ : s.saver = none ∧ s.data.pickNextMessage.isSome := ha
    obtain ⟨x, hx⟩ := Option.isSome_iff_exists.mp hsome
    -- what is picked is the front, with all numbers before it there
    obtain ⟨hhead, hall⟩ := h.ordered.of_pick hx
    have hpicked : s.picked = done := by
      rw [h.picked, hsaver]
      exact List.append_nil done
    simp only [Delivery.apply, hx]
    refine ⟨packets, done, { h with saver := ?_, picked := ?_, passed := ?_ }⟩
    · intro y hy
      cases hy
      exact hhead
    · show s.picked ++ [x.2] = done ++ [x.2]
      rw [hpicked]
    · intro m hm
      rcases List.mem_append.mp hm with hm | hm
      · exact h.passed m hm
      · rw [List.mem_singleton] at hm
        subst hm
        exact hall
  | remove =>
    obtain ⟨x, hx⟩ := Option.isSome_iff_exists.mp (show s.saver.isSome from ha)
    simp only [Delivery.apply, hx]
    refine ⟨packets, done ++ [x.2], { h with
      ordered := h.ordered.remove (h.saver x hx), saver := ?_, picked := ?_ }⟩
    · exact fun y hy => nomatch hy
    · show s.picked = done ++ [x.2] ++ []
      rw [h.picked, hx]
      exact (List.append_nil _).symm

/-! ### Every run -/

/-- The messages of increasing packets do not go back. -/
private theorem stream_sorted (h : packets.Pairwise (·.seqNum < ·.seqNum)) :
    (packets.flatMap (·.messages)).Pairwise (·.packetSeqNum ≤ ·.packetSeqNum) := by
  rw [List.pairwise_flatMap]
  refine ⟨fun p _ => ?_, h.imp fun {p q} hlt m hm m' hm' => ?_⟩
  · refine List.pairwise_of_forall_mem_list ?_
    intro m hm m' hm'
    rw [Packet.seqNum_of_mem hm, Packet.seqNum_of_mem hm']
    exact UInt32.le_refl _
  · rw [Packet.seqNum_of_mem hm, Packet.seqNum_of_mem hm']
    exact UInt32.le_of_lt hlt

/-- The packets up to the last message picked: they are consecutive from the first one, and
    what was picked is a part of their messages from the front. -/
theorem Consistent.isPrefix (h : s.Consistent packets done) :
    ∃ ps : List Packet, (∀ p ∈ ps, p ∈ s.accepted) ∧
      ps.map (·.seqNum.toNat) = List.range' s.first.toNat ps.length ∧
      s.picked <+: ps.flatMap (·.messages) := by
  rcases List.eq_nil_or_concat s.picked with hnil | ⟨before, last, hlast⟩
  · refine ⟨[], fun p hp => absurd hp List.not_mem_nil, rfl, ?_⟩
    rw [hnil]
    exact List.nil_prefix
  -- what was picked is the front of what was inserted
  have hstream : s.picked <+: packets.flatMap (·.messages) := by
    rw [h.picked, ← h.ordered.stream]
    cases hsaver : s.saver with
    | none => exact (List.prefix_append_right_inj done).mpr List.nil_prefix
    | some x =>
      have hhead := h.saver x hsaver
      cases hdatas : s.data.incrementDatas with
      | nil => rw [hdatas] at hhead; exact nomatch hhead
      | cons y rest =>
        rw [hdatas] at hhead
        cases hhead
        exact (List.prefix_append_right_inj done).mpr ⟨rest.map (·.2), rfl⟩
  -- the packets up to the number of the last message
  have hkeep := CmeData.split_packets (n := last.packetSeqNum) h.ordered.sorted
  have hsub : (packets.takeWhile fun p => decide (p.seqNum ≤ last.packetSeqNum)).Sublist packets :=
    List.takeWhile_sublist _
  have hmem : ∀ p ∈ packets, p.seqNum ≤ last.packetSeqNum →
      p ∈ packets.takeWhile fun p => decide (p.seqNum ≤ last.packetSeqNum) := by
    intro p hp hle
    rw [← packets.takeWhile_append_dropWhile
      (p := fun p => decide (p.seqNum ≤ last.packetSeqNum)), List.mem_append] at hp
    refine hp.resolve_right fun hdrop => ?_
    exact of_decide_eq_false (List.not_of_mem_dropWhile hkeep hdrop) hle
  refine ⟨packets.takeWhile fun p => decide (p.seqNum ≤ last.packetSeqNum), fun p hp => ?_, ?_, ?_⟩
  · exact h.held.mem_iff.mpr (List.mem_append_left _ (hsub.subset hp))
  · rw [← List.length_map (f := fun p : Packet => p.seqNum.toNat)]
    -- their numbers follow one another, as none of them is missing
    refine List.eq_range'_of_pairwise ?_ (fun n hn => ?_) fun n hn k hk hkn => ?_
    · rw [List.pairwise_map]
      exact (h.ordered.sorted.sublist hsub).imp fun hlt => UInt32.lt_iff_toNat_lt.mp hlt
    · obtain ⟨p, hp, rfl⟩ := List.mem_map.mp hn
      exact UInt32.le_iff_toNat_le.mp
        (h.ordered.range _ (mem_numbers.mpr ⟨p, hsub.subset hp, rfl⟩)).1
    · obtain ⟨p, hp, rfl⟩ := List.mem_map.mp hn
      have hle : p.seqNum ≤ last.packetSeqNum := of_decide_eq_true
        (List.mem_takeWhile_imp (p := fun p : Packet => decide (p.seqNum ≤ last.packetSeqNum)) hp)
      have hle := UInt32.le_iff_toNat_le.mp hle
      have hk' : (UInt32.ofNat k).toNat = k := by
        have := p.seqNum.toNat_lt
        rw [UInt32.toNat_ofNat']
        omega
      have hin : UInt32.ofNat k ∈ numbers packets := by
        refine h.passed last (by
        rw [hlast, List.concat_eq_append]
        exact List.mem_concat_self) _ ?_ ?_
        · rw [UInt32.le_iff_toNat_le, hk']
          exact hk
        · rw [UInt32.le_iff_toNat_le, hk']
          exact Nat.le_trans hkn hle
      obtain ⟨p', hp', heq⟩ := mem_numbers.mp hin
      refine List.mem_map.mpr ⟨p', hmem p' hp' ?_, by rw [heq, hk']⟩
      rw [heq, UInt32.le_iff_toNat_le, hk']
      exact Nat.le_trans hkn hle
  · have hkey : ∀ p ∈ packets, ∀ m ∈ p.messages,
        decide (m.packetSeqNum ≤ last.packetSeqNum) = decide (p.seqNum ≤ last.packetSeqNum) :=
      fun p _ m hm => by rw [Packet.seqNum_of_mem hm]
    rw [← (List.takeWhile_flatMap hkey hkeep).1]
    obtain ⟨rest, hrest⟩ := hstream
    -- all that was picked is of these packets
    have hall : ∀ m ∈ s.picked, decide (m.packetSeqNum ≤ last.packetSeqNum) = true := by
      intro m hm
      have hpairs : s.picked.Pairwise (·.packetSeqNum ≤ ·.packetSeqNum) := by
        refine List.Pairwise.sublist (List.sublist_append_left s.picked rest) ?_
        rw [hrest]
        exact stream_sorted h.ordered.sorted
      rw [hlast, List.concat_eq_append] at hm hpairs
      rcases List.mem_append.mp hm with hm | hm
      · exact decide_eq_true ((List.pairwise_append.mp hpairs).2.2 m hm last List.mem_cons_self)
      · rw [List.mem_singleton] at hm
        subst hm
        exact decide_eq_true (UInt32.le_refl _)
    rw [← hrest, List.takeWhile_append_of_pos hall]
    exact List.prefix_append _ _

/-- For every interleaving of the threads and every order, loss and duplication of packets
    numbered below the mark: no packet number is accepted twice, and the messages picked
    are a prefix of the messages of consecutive accepted packets, the first of which is
    the first packet accepted. -/
theorem picked_isPrefix (as : List Act) (hrun : machine.Runs {} as)
    (hmax : ∀ a ∈ as, ∀ p, a.packet? = some p → p.seqNum < uint32Max) :
    let s := machine.exec {} as
    (s.accepted.map (·.seqNum)).Nodup ∧
    ∃ ps : List Packet, (∀ p ∈ ps, p ∈ s.accepted) ∧
      ps.map (·.seqNum.toNat) = List.range' s.first.toNat ps.length ∧
      s.picked <+: ps.flatMap (·.messages) := by
  obtain ⟨packets, done, h⟩ := hrun.invariant_of_forall
    (I := fun s => ∃ packets done, s.Consistent packets done)
    (P := fun a => ∀ p, a.packet? = some p → p.seqNum < uint32Max)
    (fun s a ⟨_, _, h⟩ ha hp => h.apply ha hp) hmax ⟨[], [], .initial⟩
  refine ⟨?_, h.isPrefix⟩
  have := h.accounted.nodup
  rwa [h.accepted] at this

/-- The bytes of a packet of one message, a heartbeat. -/
def sampleBuffer (n : UInt8) : List UInt8 :=
  [n, 0, 0, 0, 0, 0, 0, 0, 0, 0, 0, 0, 10, 0, 0, 0, 12, 0, 1, 0, 8, 0]

/-- A packet of one message -/
def samplePacket (n : UInt8)
    (h : (Packet.ofBuffer? (sampleBuffer n)).isSome := by decide +kernel) : Packet :=
  (Packet.ofBuffer? (sampleBuffer n)).get h

/-- Packet 6 comes from the replay after packet 7, between the pick and the removal of the
    message of packet 5. -/
def sampleRun : List Act :=
  [.checkFeed (samplePacket 5), .insertFeed, .checkFeed (samplePacket 7), .insertFeed, .pick,
    .checkReplay (samplePacket 6), .insertReplay 0, .remove, .pick, .remove, .pick]

/-- Packet 6 is lost and comes by the replay, after packet 7. -/
theorem picked_isPrefix_for_gap :
    (machine.exec {} sampleRun).picked.map (·.packetSeqNum) = [5, 6, 7] ∧
    ∃ ps : List Packet, (∀ p ∈ ps, p ∈ (machine.exec {} sampleRun).accepted) ∧
      ps.map (·.seqNum.toNat) = List.range' (machine.exec {} sampleRun).first.toNat ps.length ∧
      (machine.exec {} sampleRun).picked <+: ps.flatMap (·.messages) :=
  ⟨by decide +kernel, (picked_isPrefix sampleRun (by decide +kernel) (by decide +kernel)).2⟩

end Delivery

end FixHandler.Cme
