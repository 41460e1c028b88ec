import Mathlib
import FixHandler.ForStd.Assembly
import FixHandler.ForStd.Except
import FixHandler.Native.Cme.RecoverySaver

/-!
# What the saver of a recovery feed collects

The packets of a cycle are numbered, and both feeds repeat their cycles. Whatever arrives of them,
the saver holds the messages of packets 1, 2, 3 and so on, each in one of its copies. It calls back
when it holds as many messages as packet 1 announces. These are all packets of a cycle, unless
copies of fewer packets hold as many messages: the last packets may be empty, or the messages are
spread over the packets in another way when the cycle comes again.

## Key results

- `represents_receive`: the saver keeps the copies that the assembly keeps
- `callback_complete_iff`: when the callback is called with all packets only
-/

namespace FixHandler.Cme

open Assembly (Numbered assemble accept)

/-- The number of a packet -/
def Packet.number (p : Packet) : Nat := p.seqNum.toNat

/-- The messages of packets -/
def messagesOf (copies : List Packet) : List MdpMessage := copies.flatMap (·.messages)

/-- A cycle of a feed: packets 1 to `n`, of which the first announces the number of messages of
    them all. -/
structure Cycle (isDefinition : Bool) (n : Nat) (totNumReports : UInt32) where
  packets : List Packet
  length : packets.length = n
  numbered : Numbered Packet.number packets
  announced : ∀ p ∈ packets, p.number = 1 →
    ({ isDefinition } : RecoverySaver).field911 p.buffer = some totNumReports
  total : (messagesOf packets).length = totNumReports.toNat

/-- A packet of one of the cycles -/
def OfCycles {isDefinition : Bool} {n : Nat} {totNumReports : UInt32}
    (cycles : Set (Cycle isDefinition n totNumReports)) (p : Packet) : Prop :=
  ∃ c ∈ cycles, p ∈ c.packets

namespace RecoverySaver

/-- The packets that have arrived are processed, one after the other. -/
def receive (s : RecoverySaver) (arrived : List Packet) : Except PacketFault RecoverySaver :=
  arrived.foldlM (fun s p => (s.processRecoveryPacket p.buffer).map (·.2)) s

/-- The saver holds the messages of these copies. -/
structure Represents (isDefinition : Bool) (totNumReports : UInt32) (s : RecoverySaver)
    (copies : List Packet) : Prop where
  isDefinition : s.isDefinition = isDefinition
  currentSequence : s.currentSequence.toNat = copies.length
  recoveryDatas : s.recoveryDatas = messagesOf copies
  totalNumber : copies ≠ [] → s.totalNumber = totNumReports

/-- In the beginning there is no copy. -/
theorem Represents.initial (isDefinition : Bool) (totNumReports : UInt32) :
    Represents isDefinition totNumReports { isDefinition } [] :=
  ⟨rfl, rfl, rfl, fun h => absurd rfl h⟩

/-- The number of a packet is read before it is split. -/
theorem fetch_seqNum (p : Packet) : fetch (Cxx.readUInt32 p.buffer 0) = .ok p.seqNum := by
  have hsplit := p.split
  unfold MessageUtility.pickMessagesFromPacket at hsplit
  obtain ⟨seqNum, hfetch, hsplit⟩ := Except.bind_eq_ok.mp hsplit
  obtain ⟨time, -, hsplit⟩ := Except.bind_eq_ok.mp hsplit
  obtain ⟨messages, -, hsplit⟩ := Except.bind_eq_ok.mp hsplit
  cases hsplit
  exact hfetch

section Cycles

variable {isDefinition : Bool} {n : Nat} {totNumReports : UInt32}

/-- What is asked of a packet of a cycle -/
structure Fits (isDefinition : Bool) (n : Nat) (totNumReports : UInt32) (p : Packet) : Prop where
  pos : 1 ≤ p.number
  le : p.number ≤ n
  announced : p.number = 1 →
    ({ isDefinition } : RecoverySaver).field911 p.buffer = some totNumReports

/-- The packets of a cycle have numbers that fit. -/
theorem fits_of_cycle (c : Cycle isDefinition n totNumReports) {p : Packet} (hp : p ∈ c.packets) :
    Fits isDefinition n totNumReports p := by
  obtain ⟨k, hk⟩ := List.mem_iff_getElem?.mp hp
  have hnumber := c.numbered k p hk
  have hlt := (List.getElem?_eq_some_iff.mp hk).1
  have := c.length
  exact ⟨by omega, by omega, c.announced p hp⟩

/-- The first packet of a cycle starts the copies anew. -/
theorem savePacket_eq_of_one (s : RecoverySaver) {p : Packet} (hone : p.seqNum = 1)
    {totalNumber : UInt32} (hfield : s.field911 p.buffer = some totalNumber) :
    s.savePacket p.buffer p.seqNum = .ok (decide (p.messages.length ≥ totalNumber.toNat),
      { s with currentSequence := 1, totalNumber, recoveryDatas := p.messages }) := by
  unfold savePacket startCycle
  rw [p.split, hfield, hone]
  rfl

/-- A later packet is appended. -/
theorem savePacket_eq_of_ne_one (s : RecoverySaver) {p : Packet} (hone : p.seqNum ≠ 1) :
    s.savePacket p.buffer p.seqNum =
      .ok (decide ((s.recoveryDatas ++ p.messages).length ≥ s.totalNumber.toNat),
        { s with currentSequence := p.seqNum, recoveryDatas := s.recoveryDatas ++ p.messages }) := by
  unfold savePacket startCycle
  rw [p.split, beq_false_of_ne hone]
  rfl

/-- A packet that is not the next one or the first one is dropped. -/
theorem processRecoveryPacket_eq_ite (s : RecoverySaver) (p : Packet) :
    s.processRecoveryPacket p.buffer =
      if p.seqNum ≠ s.currentSequence + 1 ∧ p.seqNum ≠ 1 then .ok (false, s)
      else s.savePacket p.buffer p.seqNum := by
  unfold processRecoveryPacket
  rw [fetch_seqNum]
  rfl

/-- A packet is kept as the assembly keeps it, and the callback is called if the saver then holds
    all messages. -/
theorem processRecoveryPacket_eq {s : RecoverySaver} {copies : List Packet}
    (h : Represents isDefinition totNumReports s copies) {p : Packet}
    (hp : Fits isDefinition n totNumReports p) :
    ∃ called s', s.processRecoveryPacket p.buffer = .ok (called, s') ∧
      Represents isDefinition totNumReports s' (accept Packet.number copies p) ∧
      (called = true ↔ (p.number = 1 ∨ p.number = copies.length + 1) ∧
        totNumReports.toNat ≤ (messagesOf (accept Packet.number copies p)).length) := by
  have hone : p.seqNum = 1 ↔ p.number = 1 := by
    rw [← UInt32.toNat_inj]
    rfl
  -- the packet after the last possible one has the number 0
  have hnext : p.seqNum = s.currentSequence + 1 ↔ p.number = copies.length + 1 := by
    have hlt := p.seqNum.toNat_lt
    have hpos : 1 ≤ p.seqNum.toNat := hp.pos
    have hcurrent := s.currentSequence.toNat_lt
    rw [h.currentSequence] at hcurrent
    rw [← UInt32.toNat_inj, UInt32.toNat_add, h.currentSequence]
    show p.seqNum.toNat = (copies.length + 1) % 2 ^ 32 ↔ p.seqNum.toNat = copies.length + 1
    rcases Nat.lt_or_ge (copies.length + 1) (2 ^ 32) with hsmall | hbig
    · rw [Nat.mod_eq_of_lt hsmall]
    · have hwrap : copies.length + 1 = 2 ^ 32 := by omega
      rw [hwrap]
      omega
  rw [processRecoveryPacket_eq_ite]
  unfold accept
  by_cases h1 : p.number = 1
  · -- the first packet announces the number of reports
    have hfield : s.field911 p.buffer = some totNumReports := by
      have hfield := hp.announced h1
      unfold field911 at hfield ⊢
      rw [h.isDefinition]
      exact hfield
    rw [if_neg fun hno => hno.2 (hone.mpr h1), savePacket_eq_of_one s (hone.mpr h1) hfield,
      if_pos h1]
    refine ⟨_, _, rfl, ⟨h.isDefinition, rfl, (List.flatMap_singleton ..).symm, fun _ => rfl⟩, ?_⟩
    rw [decide_eq_true_eq, messagesOf, List.flatMap_singleton]
    exact (and_iff_right (.inl h1)).symm
  · rw [if_neg h1]
    by_cases h2 : p.number = copies.length + 1
    · -- a packet that is the next one, and not the first
      have hne : copies ≠ [] := by
        rintro rfl
        exact h1 h2
      rw [if_neg fun hno => hno.1 (hnext.mpr h2), savePacket_eq_of_ne_one s (mt hone.mp h1),
        if_pos h2]
      have hmessages : s.recoveryDatas ++ p.messages = messagesOf (copies ++ [p]) := by
        rw [h.recoveryDatas]
        simp [messagesOf]
      refine ⟨_, _, rfl, ⟨h.isDefinition, ?_, hmessages, fun _ => h.totalNumber hne⟩, ?_⟩
      · rw [List.length_append]
        exact h2
      · rw [decide_eq_true_eq, hmessages, h.totalNumber hne]
        exact (and_iff_right (.inr h2)).symm
    · -- any other packet is passed by
      rw [if_pos ⟨mt hnext.mp h2, mt hone.mp h1⟩, if_neg h2]
      refine ⟨_, _, rfl, h, iff_of_false Bool.false_ne_true ?_⟩
      rintro ⟨h1' | h2', -⟩
      · exact h1 h1'
      · exact h2 h2'

/-- The last packet is handled last. -/
theorem receive_append_singleton (s : RecoverySaver) (arrived : List Packet) (p : Packet) :
    s.receive (arrived ++ [p]) =
      (s.receive arrived >>= fun s => (s.processRecoveryPacket p.buffer).map (·.2)) := by
  unfold receive
  rw [List.foldlM_append]
  refine bind_congr fun s => ?_
  rw [List.foldlM_cons]
  simp

/-- Whatever packets of the cycles arrive, the saver keeps what the assembly keeps. -/
theorem represents_receive {arrived : List Packet}
    (harrived : ∀ p ∈ arrived, Fits isDefinition n totNumReports p) :
    ∃ s, receive { isDefinition } arrived = .ok s ∧
      Represents isDefinition totNumReports s (assemble Packet.number arrived) := by
  induction arrived using List.reverseRecOn with
  | nil => exact ⟨_, rfl, .initial _ _⟩
  | append_singleton arrived p ih =>
    obtain ⟨s, hs, hrep⟩ := ih fun p' hp' => harrived p' (List.mem_append_left _ hp')
    obtain ⟨called, s', hs', hrep', -⟩ := processRecoveryPacket_eq hrep
      (harrived p (List.mem_append_right _ (List.mem_singleton.mpr rfl)))
    refine ⟨s', ?_, ?_⟩
    · rw [receive_append_singleton, hs]
      show (s.processRecoveryPacket p.buffer).map (·.2) = _
      rw [hs']
      rfl
    · rw [Assembly.assemble_append_singleton]
      exact hrep'

/-- There are no more copies than packets of a cycle. -/
theorem length_le_of_numbered {copies : List Packet}
    (hnumbered : Numbered Packet.number copies)
    (hfits : ∀ p ∈ copies, Fits isDefinition n totNumReports p) : copies.length ≤ n := by
  rcases Nat.eq_zero_or_pos copies.length with hzero | hpos
  · omega
  · have hlast : copies.length - 1 < copies.length := by omega
    have hnumber := hnumbered _ _ (List.getElem?_eq_getElem hlast)
    have := (hfits _ (List.getElem_mem hlast)).le
    omega

variable (cycles : Set (Cycle isDefinition n totNumReports))

/-- A packet of one of the cycles fits. -/
theorem fits_of_ofCycles {cycles : Set (Cycle isDefinition n totNumReports)} {p : Packet}
    (h : OfCycles cycles p) : Fits isDefinition n totNumReports p := by
  obtain ⟨c, -, hp⟩ := h
  exact fits_of_cycle c hp

/-- The saver holds the messages of one copy of each of the packets up to its current one. -/
def HoldsCopies (s : RecoverySaver) (arrived : List Packet) : Prop :=
  ∃ copies, Numbered Packet.number copies ∧ copies ⊆ arrived ∧
    s.currentSequence.toNat = copies.length ∧ s.recoveryDatas = messagesOf copies

/-- Whenever the callback is called, the saver holds all `n` packets. -/
def CallsWhenComplete : Prop :=
  ∀ (arrived : List Packet) (p : Packet), (∀ q ∈ arrived ++ [p], OfCycles cycles q) →
    ∀ s s', receive { isDefinition } arrived = .ok s →
      s.processRecoveryPacket p.buffer = .ok (true, s') →
      s'.currentSequence.toNat = n ∧ HoldsCopies s' (arrived ++ [p])

/-- What is stored are copies with the numbers from 1 on. -/
theorem holdsCopies_receive {arrived : List Packet} (harrived : ∀ p ∈ arrived, OfCycles cycles p) :
    ∃ s, receive { isDefinition } arrived = .ok s ∧ HoldsCopies s arrived := by
  obtain ⟨s, hs, hrep⟩ := represents_receive fun p hp => fits_of_ofCycles (harrived p hp)
  exact ⟨s, hs, _, Assembly.numbered_assemble _, Assembly.assemble_subset _,
    hrep.currentSequence, hrep.recoveryDatas⟩

/-- Copies that hold all the messages complete the data when they arrive in their order. -/
theorem CallsWhenComplete.lt {cycles : Set (Cycle isDefinition n totNumReports)}
    (h : CallsWhenComplete cycles) {copies : List Packet} (hnumbered : Numbered Packet.number copies)
    (hcopies : ∀ p ∈ copies, OfCycles cycles p) (hne : copies ≠ []) (hlt : copies.length < n) :
    (messagesOf copies).length < totNumReports.toNat := by
  obtain ⟨init, p, rfl⟩ := List.eq_nil_or_concat' copies |>.resolve_left hne
  obtain ⟨hinit, hp⟩ := Assembly.numbered_append_singleton.mp hnumbered
  obtain ⟨s, hs, hrep⟩ := represents_receive fun q hq =>
    fits_of_ofCycles (hcopies q (List.mem_append_left _ hq))
  rw [Assembly.assemble_of_numbered hinit] at hrep
  obtain ⟨called, s', hs', hrep', hcalled⟩ := processRecoveryPacket_eq hrep
    (fits_of_ofCycles (hcopies p (List.mem_append_right _ (List.mem_singleton.mpr rfl))))
  have haccept : accept Packet.number init p = init ++ [p] := by
    have := Assembly.assemble_of_numbered hnumbered
    rwa [Assembly.assemble_append_singleton, Assembly.assemble_of_numbered hinit] at this
  rw [haccept] at hrep' hcalled
  by_contra hge
  -- the stored messages are enough, and the packets are not complete
  have hyes : called = true := hcalled.mpr ⟨.inr hp, Nat.le_of_not_lt hge⟩
  have hn := (h init p hcopies s s' hs (hyes ▸ hs')).1
  rw [hrep'.currentSequence] at hn
  omega

/-- The callback comes in time exactly if fewer packets never have messages enough. -/
theorem callsWhenComplete_iff :
    CallsWhenComplete cycles ↔
      ∀ copies : List Packet, Numbered Packet.number copies → (∀ p ∈ copies, OfCycles cycles p) →
        copies ≠ [] → copies.length < n → (messagesOf copies).length < totNumReports.toNat := by
  refine ⟨fun h copies hnumbered hcopies hne hlt => h.lt hnumbered hcopies hne hlt,
    fun h arrived p harrived s s' hs hcall => ?_⟩
  have hfits : ∀ q ∈ arrived ++ [p], Fits isDefinition n totNumReports q :=
    fun q hq => fits_of_ofCycles (harrived q hq)
  obtain ⟨s₀, hs₀, hrep⟩ := represents_receive fun q hq => hfits q (List.mem_append_left _ hq)
  rw [hs] at hs₀
  cases hs₀
  -- the saver keeps what the assembly of the packets keeps
  obtain ⟨called, s₁, hs₁, hrep', hcalled⟩ := processRecoveryPacket_eq hrep
    (hfits p (List.mem_append_right _ (List.mem_singleton.mpr rfl)))
  rw [hcall] at hs₁
  cases hs₁
  have hnumbered : Assembly.Numbered Packet.number _ := Assembly.numbered_assemble (arrived ++ [p])
  have hsubset : Assembly.assemble Packet.number _ ⊆ _ := Assembly.assemble_subset (arrived ++ [p])
  rw [← Assembly.assemble_append_singleton] at hrep' hcalled
  have hle := length_le_of_numbered hnumbered fun q hq => hfits q (hsubset hq)
  refine ⟨?_, _, hnumbered, hsubset, hrep'.currentSequence, hrep'.recoveryDatas⟩
  rw [hrep'.currentSequence]
  obtain ⟨hkept, htotal⟩ := hcalled.mp rfl
  -- the packet was kept, so there is one at least
  have hne : assemble Packet.number (arrived ++ [p]) ≠ [] := by
    rw [Assembly.assemble_append_singleton]
    unfold accept
    rcases hkept with h1 | h2
    · rw [if_pos h1]
      exact List.cons_ne_nil _ _
    · rw [if_pos h2]
      split <;> simp
  -- otherwise the packets so far would have been enough
  by_contra hno
  have := h _ hnumbered (fun q hq => harrived q (hsubset hq)) hne (by omega)
  omega

/-- Whatever arrives of the cycles, the saver holds one copy of each packet up to the current one;
    and the callback is always called with all packets if and only if no copies of the first packets
    hold as many messages as are announced, but for those of all packets. -/
theorem callback_complete_iff :
    (∀ arrived : List Packet, (∀ p ∈ arrived, OfCycles cycles p) →
      ∃ s, receive { isDefinition } arrived = .ok s ∧ HoldsCopies s arrived) ∧
    (CallsWhenComplete cycles ↔
      ∀ copies : List Packet, Numbered Packet.number copies → (∀ p ∈ copies, OfCycles cycles p) →
        copies ≠ [] → copies.length < n → (messagesOf copies).length < totNumReports.toNat) :=
  ⟨fun _ harrived => holdsCopies_receive cycles harrived, callsWhenComplete_iff cycles⟩

/-- So it is if no packet is empty, and the messages are spread over the packets in the same way in
    all cycles. -/
theorem callsWhenComplete_of_uniform
    (hmessages : ∀ c ∈ cycles, ∀ p ∈ c.packets, p.messages ≠ [])
    (huniform : ∀ c ∈ cycles, ∀ c' ∈ cycles, ∀ p ∈ c.packets, ∀ p' ∈ c'.packets,
      p.number = p'.number → p.messages.length = p'.messages.length) :
    CallsWhenComplete cycles := by
  rw [callsWhenComplete_iff]
  intro copies hnumbered hcopies hne hlt
  obtain ⟨p₀, hp₀⟩ := List.exists_mem_of_ne_nil _ hne
  obtain ⟨c, hc, -⟩ := hcopies p₀ hp₀
  -- each copy has as many messages as the packet of one cycle
  have hcount : (messagesOf copies).length = (messagesOf (c.packets.take copies.length)).length := by
    unfold messagesOf
    rw [List.length_flatMap, List.length_flatMap]
    congr 1
    apply List.ext_getElem?
    intro k
    rw [List.getElem?_map, List.getElem?_map]
    by_cases hk : k < copies.length
    · have hk' : k < c.packets.length := by
        rw [c.length]
        omega
      rw [List.getElem?_take_of_lt hk, List.getElem?_eq_getElem hk, List.getElem?_eq_getElem hk']
      obtain ⟨c', hc', hp'⟩ := hcopies _ (List.getElem_mem hk)
      have h1 := hnumbered k _ (List.getElem?_eq_getElem hk)
      have h2 := c.numbered k _ (List.getElem?_eq_getElem hk')
      exact congrArg some (huniform c' hc' c hc _ hp' _ (List.getElem_mem hk') (h1.trans h2.symm))
    · rw [List.getElem?_eq_none (by omega), List.getElem?_eq_none (by rw [List.length_take]; omega)]
  -- the packets that are missing have messages
  have hrest : 0 < (messagesOf (c.packets.drop copies.length)).length := by
    rw [List.length_pos_iff]
    obtain ⟨p, rest, hdrop⟩ := List.exists_cons_of_ne_nil
      (l := c.packets.drop copies.length) (by
        rw [ne_eq, List.drop_eq_nil_iff, c.length]
        omega)
    rw [hdrop, messagesOf, List.flatMap_cons]
    have hp : p ∈ c.packets := List.mem_of_mem_drop (hdrop ▸ List.mem_cons_self)
    exact fun h => hmessages c hc p hp (List.append_eq_nil_iff.mp h).1
  have htotal := c.total
  rw [← List.take_append_drop copies.length c.packets, messagesOf, List.flatMap_append,
    List.length_append] at htotal
  unfold messagesOf at hcount hrest
  unfold messagesOf
  omega

end Cycles

/-! ## Callbacks before the last packet -/

/-- A packet of a recovery feed with `count` snapshots without entries, each of which announces
    `totNumReports` -/
private def feedBuffer (seqNum totNumReports : UInt8) (count : Nat) : List UInt8 :=
  [seqNum, 0, 0, 0] ++ List.replicate 8 0 ++ (List.replicate count
    ([72, 0, 59, 0, 38, 0, 1, 0, 8, 0] ++ List.replicate 4 0 ++ [totNumReports, 0, 0, 0] ++
      List.replicate 51 0 ++ [22, 0, 0])).flatten

/-- A packet of the recovery feed -/
private def feedPacket (seqNum totNumReports : UInt8) (count : Nat)
    (h : (Packet.ofBuffer? (feedBuffer seqNum totNumReports count)).isSome := by decide +kernel) :
    Packet :=
  (Packet.ofBuffer? (feedBuffer seqNum totNumReports count)).get h

/-- One message in the first packet and none in the second -/
private def emptyLast : Cycle false 2 1 where
  packets := [feedPacket 1 1 1, feedPacket 2 1 0]
  length := rfl
  numbered := by decide +kernel
  announced := by decide +kernel
  total := by decide +kernel

/-- Four messages in three packets, spread in two ways -/
private def spreadFirst : Cycle false 3 4 where
  packets := [feedPacket 1 4 2, feedPacket 2 4 1, feedPacket 3 4 1]
  length := rfl
  numbered := by decide +kernel
  announced := by decide +kernel
  total := by decide +kernel

/-- A later cycle, with its messages in other packets -/
private def spreadSecond : Cycle false 3 4 where
  packets := [feedPacket 1 4 1, feedPacket 2 4 2, feedPacket 3 4 1]
  length := rfl
  numbered := by decide +kernel
  announced := by decide +kernel
  total := by decide +kernel

/-- The callback is called after the first of two packets, the second of which is empty; and after
    the first packet of one cycle and the second of another, which hold four messages together. -/
theorem callback_before_last_packet :
    ¬ CallsWhenComplete {emptyLast} ∧ ¬ CallsWhenComplete {spreadFirst, spreadSecond} := by
  constructor
  · -- the condition fails for the packets that have arrived first
    intro h
    have := h.lt (show Numbered Packet.number [feedPacket 1 1 1] by decide +kernel)
      (fun p hp => ⟨emptyLast, rfl, by
        rw [List.mem_singleton.mp hp]
        exact List.mem_cons_self⟩) (List.cons_ne_nil _ _) (by decide)
    exact absurd this (by decide +kernel)
  · intro h
    have := h.lt (show Numbered Packet.number [feedPacket 1 4 2, feedPacket 2 4 2] by decide +kernel)
      (fun p hp => by
        cases List.mem_pair.mp hp with
        | inl heq =>
          rw [heq]
          exact ⟨spreadFirst, .inl rfl, List.mem_cons_self⟩
        | inr heq =>
          rw [heq]
          exact ⟨spreadSecond, .inr rfl, List.mem_cons_of_mem _ List.mem_cons_self⟩)
      (List.cons_ne_nil _ _) (by decide)
    exact absurd this (by decide +kernel)

end RecoverySaver

end FixHandler.Cme
