import Mathlib
import FixHandler.ForStd.Except
import FixHandler.ForStd.List
import FixHandler.Native.Cme.CmeData
import FixHandler.Spec.Cme.ArbitrationCorrect

/-!
# The increments are kept in order

What was taken out of the multiset and what is still in it are together the messages
of the packets that were inserted, in the order of their numbers, and the missing
numbers are those between the first and the last packet that were not inserted. So
where a message can be picked, all packets up to its own are there.

## Key results

- `foldl_insert`: the messages of a packet go between the smaller and the larger numbers
- `Ordered.insert`: the order is kept when a packet is inserted
- `Ordered.of_pick`: nothing is missing before a message that can be picked
-/

namespace FixHandler.Cme

open Cxx (uint32Max countingRange mem_countingRange)

/-! ## The messages of a packet -/

/-- The messages of a packet carry its number. -/
private theorem pickMessages_seqNum {dataLength : Nat} {packetSeqNum : UInt32}
    {packetSendingTime : UInt64} {fuel : Nat} {rest : List UInt8} {messages : List MdpMessage}
    (h : MessageUtility.pickMessages dataLength packetSeqNum packetSendingTime fuel rest =
      .ok messages) : ∀ m ∈ messages, m.packetSeqNum = packetSeqNum := by
  induction fuel generalizing rest messages with
  | zero =>
    cases rest with
    | nil =>
      cases h
      exact fun m hm => absurd hm List.not_mem_nil
    | cons b bs => exact nomatch h
  | succ fuel ih =>
    cases rest with
    | nil =>
      cases h
      exact fun m hm => absurd hm List.not_mem_nil
    | cons b bs =>
      unfold MessageUtility.pickMessages at h
      obtain ⟨messageLength, -, h⟩ := Except.bind_eq_ok.mp h
      obtain ⟨buffer, -, h⟩ := Except.bind_eq_ok.mp h
      obtain ⟨decoded, -, h⟩ := Except.bind_eq_ok.mp h
      -- each turn of the loop gives its message the number of the packet
      obtain ⟨tail, hrest, h⟩ := Except.bind_eq_ok.mp h
      cases h
      intro m hm
      rcases List.mem_cons.mp hm with rfl | hm
      · rfl
      · exact ih hrest m hm

/-- Every message carries the number of its packet. -/
theorem Packet.seqNum_of_mem {p : Packet} {m : MdpMessage} (hm : m ∈ p.messages) :
    m.packetSeqNum = p.seqNum := by
  have h := p.split
  unfold MessageUtility.pickMessagesFromPacket at h
  obtain ⟨packetSeqNum, -, h⟩ := Except.bind_eq_ok.mp h
  obtain ⟨packetSendingTime, -, h⟩ := Except.bind_eq_ok.mp h
  obtain ⟨messages, hmessages, h⟩ := Except.bind_eq_ok.mp h
  obtain ⟨hseqNum, hmessagesEq⟩ := Prod.mk.inj (Except.pure_eq_ok.mp h)
  rw [← hmessagesEq] at hm
  rw [pickMessages_seqNum hmessages m hm, hseqNum]

namespace CmeData

/-! ## Inserting the messages of a packet -/

/-- The elements of new messages. -/
def nodesFrom (start : Nat) (messages : List MdpMessage) : List (Nat × MdpMessage) :=
  (List.range' start messages.length).zip messages

/-- The nodes hold the messages. -/
theorem nodesFrom_map_snd (start : Nat) (messages : List MdpMessage) :
    (nodesFrom start messages).map (·.2) = messages := by
  rw [nodesFrom, List.map_snd_zip (by rw [List.length_range'])]

/-- The nodes are numbered on. -/
theorem nodesFrom_map_fst (start : Nat) (messages : List MdpMessage) :
    (nodesFrom start messages).map (·.1) = List.range' start messages.length := by
  rw [nodesFrom, List.map_fst_zip (by rw [List.length_range'])]

/-- The elements up to a number, and those beyond it. -/
def upTo (n : UInt32) (x : Nat × MdpMessage) : Bool := x.2.packetSeqNum ≤ n

/-- The messages of a packet go, in their order, behind the elements up to their number. -/
theorem foldl_insert (d : CmeData) {n : UInt32} {messages : List MdpMessage}
    (hn : ∀ m ∈ messages, m.packetSeqNum = n) :
    messages.foldl insert d = { d with
      incrementDatas := d.incrementDatas.takeWhile (upTo n) ++
        (nodesFrom d.nextNode messages ++ d.incrementDatas.dropWhile (upTo n))
      nextNode := d.nextNode + messages.length } := by
  induction messages generalizing d with
  | nil =>
    show d = _
    rw [show nodesFrom d.nextNode [] = [] from rfl, List.nil_append,
      List.takeWhile_append_dropWhile]
    rfl
  | cons m messages ih =>
    -- each message goes behind those of its packet
    have hm : upTo n (d.nextNode, m) = true := by
      rw [upTo, hn m List.mem_cons_self]
      exact decide_eq_true (UInt32.le_refl n)
    have hinsert : d.insert m = { d with
        incrementDatas := d.incrementDatas.takeWhile (upTo n) ++
          (d.nextNode, m) :: d.incrementDatas.dropWhile (upTo n)
        nextNode := d.nextNode + 1 } := by
      unfold insert
      rw [List.span_eq_takeWhile_dropWhile, hn m List.mem_cons_self]
      rfl
    rw [List.foldl_cons, ih _ fun m' hm' => hn m' (List.mem_cons_of_mem _ hm'), hinsert]
    have hnodes : nodesFrom d.nextNode (m :: messages) =
        (d.nextNode, m) :: nodesFrom (d.nextNode + 1) messages := rfl
    simp only [List.takeWhile_insert hm, List.dropWhile_insert hm, hnodes, List.append_assoc,
      List.cons_append, List.nil_append, List.length_cons, Nat.add_right_comm _ 1, ← Nat.add_assoc]

/-! ## The order of what was inserted -/

/-- The numbers of packets. -/
def numbers (packets : List Packet) : List UInt32 := packets.map (·.seqNum)

/-- A number is there if its packet is. -/
theorem mem_numbers {packets : List Packet} {n : UInt32} :
    n ∈ numbers packets ↔ ∃ p ∈ packets, p.seqNum = n := List.mem_map

/-- A packet where its number belongs. -/
def insertPacket (p : Packet) (packets : List Packet) : List Packet :=
  packets.takeWhile (·.seqNum ≤ p.seqNum) ++ p :: packets.dropWhile (·.seqNum ≤ p.seqNum)

/-- An inserted packet is added to the others. -/
theorem insertPacket_perm (p : Packet) (packets : List Packet) :
    (insertPacket p packets).Perm (p :: packets) := by
  have h := @List.perm_middle _ p (packets.takeWhile (·.seqNum ≤ p.seqNum))
    (packets.dropWhile (·.seqNum ≤ p.seqNum))
  rwa [List.takeWhile_append_dropWhile] at h

/-- Its number is added to the others. -/
theorem mem_numbers_insertPacket {p : Packet} {packets : List Packet} {n : UInt32} :
    n ∈ numbers (insertPacket p packets) ↔ n = p.seqNum ∨ n ∈ numbers packets := by
  rw [numbers, ((insertPacket_perm p packets).map _).mem_iff, List.map_cons, List.mem_cons]
  rfl

/-- The packets `packets` were inserted, the first of them with number `first`, and the
    messages `done` were removed. -/
structure Ordered (d : CmeData) (first : UInt32) (packets : List Packet)
    (done : List MdpMessage) : Prop where
  sorted : packets.Pairwise (·.seqNum < ·.seqNum)
  stream : done ++ d.incrementDatas.map (·.2) = packets.flatMap (·.messages)
  nodup : (d.incrementDatas.map (·.1)).Nodup
  fresh : ∀ x ∈ d.incrementDatas, x.1 < d.nextNode
  start : packets = [] → d.lastSeq = uint32Max
  started : packets ≠ [] → first ∈ numbers packets ∧ d.lastSeq ∈ numbers packets
  range : ∀ n ∈ numbers packets, first ≤ n ∧ n ≤ d.lastSeq ∧ n < uint32Max
  unreceived : ∀ n, n ∈ d.unreceivedSeqs ↔
    packets ≠ [] ∧ (first ≤ n ∧ n ≤ d.lastSeq) ∧ n ∉ numbers packets

/-- In the beginning there is nothing. -/
theorem Ordered.initial (first : UInt32) : Ordered {} first [] [] where
  sorted := List.Pairwise.nil
  stream := rfl
  nodup := List.nodup_nil
  fresh _ h := absurd h List.not_mem_nil
  start _ := rfl
  started h := absurd rfl h
  range _ h := absurd h List.not_mem_nil
  unreceived n := by
    refine iff_of_false Std.TreeSet.not_mem_emptyc fun h => h.1 rfl

variable {d : CmeData} {first : UInt32} {packets : List Packet} {done : List MdpMessage}

/-- In increasing packets the numbers up to `n` come first. -/
theorem split_packets {n : UInt32} (hs : packets.Pairwise (·.seqNum < ·.seqNum)) :
    packets.Pairwise fun a b => decide (b.seqNum ≤ n) = true → decide (a.seqNum ≤ n) = true :=
  hs.imp fun hlt hle => by
    have hle := of_decide_eq_true hle
    exact decide_eq_true (UInt32.le_trans (UInt32.le_of_lt hlt) hle)

/-- A number that is not inserted yet splits the packets into smaller and larger ones. -/
private theorem Ordered.insert_sorted (h : d.Ordered first packets done) {p : Packet}
    (hn : p.seqNum ∉ numbers packets) : (insertPacket p packets).Pairwise (·.seqNum < ·.seqNum) := by
  -- the packets before it have smaller numbers, and not the same
  have hbefore : ∀ a ∈ packets.takeWhile (·.seqNum ≤ p.seqNum), a.seqNum < p.seqNum := by
    intro a ha
    have hle : a.seqNum ≤ p.seqNum := of_decide_eq_true
      (List.mem_takeWhile_imp (p := fun x : Packet => decide (x.seqNum ≤ p.seqNum)) ha)
    have hne : a.seqNum ≠ p.seqNum := fun heq => hn
      (mem_numbers.mpr ⟨a, (List.takeWhile_sublist _).subset ha, heq⟩)
    rw [UInt32.le_iff_toNat_le] at hle
    rw [ne_eq, ← UInt32.toNat_inj] at hne
    rw [UInt32.lt_iff_toNat_lt]
    omega
  have hafter : ∀ b ∈ packets.dropWhile (·.seqNum ≤ p.seqNum), p.seqNum < b.seqNum := by
    intro b hb
    exact UInt32.not_le.mp (of_decide_eq_false
      (List.not_of_mem_dropWhile (split_packets h.sorted) hb))
  rw [insertPacket, List.pairwise_append, List.pairwise_cons]
  refine ⟨h.sorted.sublist (List.takeWhile_sublist _),
    ⟨hafter, h.sorted.sublist (List.dropWhile_sublist _)⟩, fun a ha b hb => ?_⟩
  rcases List.mem_cons.mp hb with rfl | hb
  · exact hbefore a ha
  · exact UInt32.lt_trans (hbefore a ha) (hafter b hb)

/-- The messages of a packet that is inserted beyond all that was removed come where the
    packet belongs. -/
private theorem Ordered.insert_stream (h : d.Ordered first packets done) {p : Packet}
    (hdone : ∀ m ∈ done, m.packetSeqNum < p.seqNum) :
    done ++ (p.messages.foldl insert d).incrementDatas.map (·.2) =
      (insertPacket p packets).flatMap (·.messages) := by
  have hkey : ∀ a ∈ packets, ∀ m ∈ a.messages,
      decide (m.packetSeqNum ≤ p.seqNum) = decide (a.seqNum ≤ p.seqNum) :=
    fun a _ m hm => by rw [Packet.seqNum_of_mem hm]
  obtain ⟨htake, hdrop⟩ := List.takeWhile_flatMap hkey (split_packets h.sorted)
  have hdone' : ∀ m ∈ done, decide (m.packetSeqNum ≤ p.seqNum) = true := fun m hm =>
    decide_eq_true (UInt32.le_of_lt (hdone m hm))
  rw [← h.stream, List.takeWhile_append_of_pos hdone', List.takeWhile_map] at htake
  rw [← h.stream, List.dropWhile_append_of_pos hdone', List.dropWhile_map] at hdrop
  rw [foldl_insert d fun m hm => Packet.seqNum_of_mem hm, insertPacket, List.flatMap_append,
    List.flatMap_cons, ← htake, ← hdrop]
  simp only [List.map_append, nodesFrom_map_snd, List.append_assoc]
  rfl

/-- The new nodes differ from the old ones. -/
private theorem Ordered.insert_nodes (h : d.Ordered first packets done) (p : Packet) :
    (((p.messages.foldl insert d).incrementDatas).map (·.1)).Nodup ∧
      ∀ x ∈ (p.messages.foldl insert d).incrementDatas,
        x.1 < (p.messages.foldl insert d).nextNode := by
  rw [foldl_insert d fun m hm => Packet.seqNum_of_mem hm]
  -- the nodes are the old ones and the new ones
  have hperm : (d.incrementDatas.takeWhile (upTo p.seqNum) ++
      (nodesFrom d.nextNode p.messages ++ d.incrementDatas.dropWhile (upTo p.seqNum))).Perm
        (nodesFrom d.nextNode p.messages ++ d.incrementDatas) := by
    have h := List.perm_append_comm_assoc (d.incrementDatas.takeWhile (upTo p.seqNum))
      (nodesFrom d.nextNode p.messages) (d.incrementDatas.dropWhile (upTo p.seqNum))
    rwa [List.takeWhile_append_dropWhile] at h
  have hnew : ∀ i ∈ (nodesFrom d.nextNode p.messages).map (·.1),
      d.nextNode ≤ i ∧ i < d.nextNode + p.messages.length := by
    intro i hi
    rwa [nodesFrom_map_fst, List.mem_range'_1] at hi
  refine ⟨(hperm.map _).nodup_iff.mpr ?_, fun x hx => ?_⟩
  · rw [List.map_append, List.nodup_append]
    refine ⟨?_, h.nodup, fun i hi j hj => ?_⟩
    · -- the new nodes are numbered behind all old ones
      rw [nodesFrom_map_fst]
      exact List.nodup_range'
    · obtain ⟨x, hx, rfl⟩ := List.mem_map.mp hj
      have := h.fresh x hx
      have := (hnew i hi).1
      omega
  · rcases List.mem_append.mp (hperm.mem_iff.mp hx) with hx | hx
    · exact (hnew x.1 (List.mem_map_of_mem hx)).2
    · have := h.fresh x hx
      show x.1 < d.nextNode + p.messages.length
      omega

/-- The order is kept when a packet is inserted that is not there yet: one with the first
    number if there is none, and one that is beyond all that was removed. -/
theorem Ordered.insert (h : d.Ordered first packets done) {p : Packet}
    (hn : p.seqNum ∉ numbers packets) (hmax : p.seqNum < uint32Max) (hfirst : first ≤ p.seqNum)
    (hstart : packets = [] → p.seqNum = first) (hdone : ∀ m ∈ done, m.packetSeqNum < p.seqNum) :
    (d.insertIncrementData p.seqNum p.messages).Ordered first (insertPacket p packets) done := by
  -- inserting messages leaves the last number and the missing ones
  have hlast : (p.messages.foldl CmeData.insert d).lastSeq = d.lastSeq ∧
      (p.messages.foldl CmeData.insert d).unreceivedSeqs = d.unreceivedSeqs := by
    rw [foldl_insert d fun m hm => Packet.seqNum_of_mem hm]
    exact ⟨rfl, rfl⟩
  -- the packet is there afterwards
  have hne : insertPacket p packets ≠ [] := by simp [insertPacket]
  have hmem : p.seqNum ∈ numbers (insertPacket p packets) := mem_numbers_insertPacket.mpr (.inl rfl)
  have hstream := h.insert_stream hdone
  have hnodes := h.insert_nodes p
  have hsorted := h.insert_sorted hn
  unfold insertIncrementData
  simp only [hlast.1, hlast.2]
  by_cases hnil : packets = []
  · -- the first packet
    have hnone : ∀ n, n ∉ d.unreceivedSeqs := fun n hn => ((h.unreceived n).mp hn).1 hnil
    have hp := hstart hnil
    subst hnil
    rw [h.start rfl, if_pos (beq_self_eq_true _)]
    have hnumbers : ∀ n, n ∈ numbers (insertPacket p []) ↔ n = p.seqNum := fun n => by
      rw [mem_numbers_insertPacket]
      exact or_iff_left List.not_mem_nil
    refine ⟨hsorted, hstream, hnodes.1, hnodes.2, fun h => absurd h hne,
      fun _ => ⟨hp ▸ hmem, hmem⟩, fun n hn => ?_, fun n => ?_⟩
    · rw [hnumbers] at hn
      subst hn
      exact ⟨hfirst, UInt32.le_refl _, hmax⟩
    · show n ∈ d.unreceivedSeqs ↔ _
      rw [hnumbers]
      refine iff_of_false (hnone n) fun ⟨_, ⟨hge, hle⟩, hne⟩ => hne ?_
      rw [← hp] at hge
      exact UInt32.le_antisymm hle hge
  · obtain ⟨hfirstMem, hlastMem⟩ := h.started hnil
    have hlastMax := (h.range _ hlastMem).2.2
    have hneMax : ¬ (d.lastSeq == uint32Max) = true := fun heq => by
      rw [eq_of_beq heq] at hlastMax
      exact absurd hlastMax (by decide)
    have hneLast : p.seqNum.toNat ≠ d.lastSeq.toNat := fun heq => hn
      (UInt32.toNat_inj.mp heq ▸ hlastMem)
    rw [if_neg hneMax]
    by_cases hlt : p.seqNum < d.lastSeq
    · -- a packet that was missing
      rw [if_pos hlt]
      refine ⟨hsorted, hstream, hnodes.1, hnodes.2, fun h => absurd h hne, fun _ => ⟨?_, ?_⟩,
        fun n hn' => ?_, fun n => ?_⟩
      · exact mem_numbers_insertPacket.mpr (.inr hfirstMem)
      · exact mem_numbers_insertPacket.mpr (.inr hlastMem)
      · show first ≤ n ∧ n ≤ d.lastSeq ∧ n < uint32Max
        rcases mem_numbers_insertPacket.mp hn' with rfl | hn'
        · exact ⟨hfirst, UInt32.le_of_lt hlt, hmax⟩
        · exact h.range n hn'
      · show n ∈ d.unreceivedSeqs.erase p.seqNum ↔ _ ∧ (first ≤ n ∧ n ≤ d.lastSeq) ∧ _
        rw [Std.TreeSet.mem_erase, h.unreceived, mem_numbers_insertPacket, ne_eq,
          Std.LawfulEqCmp.compare_eq_iff_eq, not_or, eq_comm (a := p.seqNum)]
        constructor
        · rintro ⟨hnp, -, hr, hnot⟩
          exact ⟨hne, hr, hnp, hnot⟩
        · rintro ⟨-, hr, hnp, hnot⟩
          exact ⟨hnp, hnil, hr, hnot⟩
    · -- a packet after the last one
      rw [if_neg hlt]
      have hge := UInt32.le_iff_toNat_le.mp (UInt32.not_lt.mp hlt)
      have hsucc := toNat_add_one hlastMax
      have hle : d.lastSeq + 1 ≤ p.seqNum := by
        rw [UInt32.le_iff_toNat_le]
        omega
      have hfirstLe := UInt32.le_iff_toNat_le.mp (h.range _ hfirstMem).2.1
      refine ⟨hsorted, hstream, hnodes.1, hnodes.2, fun h => absurd h hne,
        fun _ => ⟨mem_numbers_insertPacket.mpr (.inr hfirstMem), hmem⟩, fun n hn' => ?_,
        fun n => ?_⟩
      · rcases mem_numbers_insertPacket.mp hn' with rfl | hn'
        · exact ⟨hfirst, UInt32.le_refl _, hmax⟩
        · obtain ⟨hf, hl, hm⟩ := h.range n hn'
          refine ⟨hf, ?_, hm⟩
          rw [UInt32.le_iff_toNat_le] at hl ⊢
          show n.toNat ≤ p.seqNum.toNat
          omega
      · rw [Std.TreeSet.mem_insertMany_list, List.contains_iff_mem, mem_countingRange hle,
          h.unreceived, mem_numbers_insertPacket, not_or]
        show _ ↔ _ ∧ (first ≤ n ∧ n ≤ p.seqNum) ∧ _
        simp only [UInt32.le_iff_toNat_le, UInt32.lt_iff_toNat_lt, hsucc, ← UInt32.toNat_inj]
        constructor
        · rintro (⟨-, ⟨hf, hl⟩, hnot⟩ | ⟨hl, hlt'⟩)
          · exact ⟨hne, ⟨hf, by omega⟩, by omega, hnot⟩
          · refine ⟨hne, ⟨by omega, by omega⟩, by omega, fun hmem' => ?_⟩
            have := UInt32.le_iff_toNat_le.mp (h.range n hmem').2.1
            omega
        · rintro ⟨-, ⟨hf, hl⟩, hnp, hnot⟩
          by_cases hle' : n.toNat ≤ d.lastSeq.toNat
          · exact .inl ⟨hnil, ⟨hf, hle'⟩, hnot⟩
          · exact .inr ⟨by omega, by omega⟩

/-! ## Picking and removing a message -/

/-- The message picked is the first one, and all packets from the first up to its own were
    inserted. -/
theorem Ordered.of_pick (h : d.Ordered first packets done) {x : Nat × MdpMessage}
    (hpick : d.pickNextMessage = some x) :
    d.incrementDatas.head? = some x ∧
      ∀ n, first ≤ n → n ≤ x.2.packetSeqNum → n ∈ numbers packets := by
  unfold pickNextMessage at hpick
  cases hdatas : d.incrementDatas with
  | nil => rw [hdatas] at hpick; exact nomatch hpick
  | cons y rest =>
    rw [hdatas] at hpick
    simp only at hpick
    split at hpick
    · exact nomatch hpick
    · next hopen =>
      cases hpick
      refine ⟨rfl, fun n hfirst hn => ?_⟩
      by_contra hmem
      -- what is picked is of a packet that was inserted
      have hin : x.2 ∈ packets.flatMap (·.messages) := by
        rw [← h.stream, hdatas, List.map_cons]
        exact List.mem_append_right _ List.mem_cons_self
      obtain ⟨p, hp, hm⟩ := List.mem_flatMap.mp hin
      have hseq := Packet.seqNum_of_mem hm
      have hne := List.ne_nil_of_mem hp
      have hlast := (h.range _ (mem_numbers.mpr ⟨p, hp, rfl⟩)).2.1
      -- the number would be missing, and so the first missing one is not beyond it
      have hmissing : n ∈ d.unreceivedSeqs := (h.unreceived n).mpr
        ⟨hne, ⟨hfirst, UInt32.le_trans hn (hseq ▸ hlast)⟩, hmem⟩
      obtain ⟨k, hk⟩ := Option.isSome_iff_exists.mp (Std.TreeSet.isSome_min?_of_mem hmissing)
      obtain ⟨hkMem, hkMin⟩ := Std.TreeSet.min?_eq_some_iff_mem_and_forall.mp hk
      rw [Std.TreeSet.min?_eq_head?_toList] at hk
      have hkn : k ≤ n := Std.isLE_compare.mp (hkMin n hmissing)
      refine hopen ⟨?_, ?_⟩
      · rw [firstUnreceived, hk]
        rintro rfl
        -- zero can only be the first number, which is not missing
        obtain ⟨-, ⟨hle, -⟩, hnot⟩ := (h.unreceived _).mp hkMem
        have : first = 0 := UInt32.le_antisymm hle (UInt32.zero_le)
        exact hnot (this ▸ (h.started hne).1)
      · rw [firstUnreceived, hk]
        exact UInt32.le_trans hkn hn

/-- Removing the first element keeps the order. -/
theorem Ordered.remove (h : d.Ordered first packets done) {x : Nat × MdpMessage}
    (hx : d.incrementDatas.head? = some x) :
    (d.removeIncrementData x.1).Ordered first packets (done ++ [x.2]) := by
  cases hdatas : d.incrementDatas with
  | nil => rw [hdatas] at hx; exact nomatch hx
  | cons y rest =>
    rw [hdatas] at hx
    cases hx
    have hnodup := h.nodup
    rw [hdatas, List.map_cons, List.nodup_cons] at hnodup
    -- the front has its own node, so that nothing else goes
    have hrest : (d.removeIncrementData x.1).incrementDatas = rest := by
      rw [removeIncrementData, hdatas, List.filter_cons_of_neg (by simp), List.filter_eq_self]
      intro z hz
      exact bne_iff_ne.mpr fun heq => hnodup.1 (heq ▸ List.mem_map_of_mem hz)
    refine { h with stream := ?_, nodup := ?_, fresh := fun z hz => ?_ }
    · rw [hrest, ← h.stream, hdatas, List.append_assoc]
      rfl
    · rw [hrest]
      exact hnodup.2
    · rw [hrest] at hz
      exact h.fresh z (by rw [hdatas]; exact List.mem_cons_of_mem _ hz)

end CmeData

end FixHandler.Cme
