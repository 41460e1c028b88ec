import Mathlib
import FixHandler.Spec.Cme.ParserCorrect
import FixHandler.Spec.Cme.PacketCorrect

/-!
# What is encoded is parsed

The encoder writes into a buffer that holds anything. What it makes is a message as the parsers expect
it, so that they give back what was drawn; and so do they for all the messages of a packet.

## Key results

- `encode_isMessage`: the header and the root block that are written
- `putGroup_isGroup`: and the groups
- `parse_startEncode`: a message is parsed to what was drawn for it
- `parse_packet`: and so are the messages of a packet
-/

namespace FixHandler.Cme

open Sbe Mktdata

/-! ## Groups -/

section

variable {α : Type} {d : Dimensions} {blockLength : Nat} {writes : α → Writes} {as : List α}

/-- Every block of a group has the length of the group. -/
theorem length_of_isBlock {blocks : List (List UInt8)}
    (h : List.Forall₂ (IsBlock blockLength writes) as blocks) : ∀ b ∈ blocks, b.length = blockLength := by
  induction h with
  | nil => simp
  | cons hblock _ ih =>
    intro b hb
    cases List.mem_cons.mp hb with
    | inl heq => rw [heq]; exact hblock.1
    | inr hmem => exact ih b hmem

/-- A group is written into the room behind the position. -/
theorem putGroup_isGroup (hfits : ∀ a, Fits (writes a) blockLength) (hcount : as.length ≤ 254)
    (hblock : blockLength < 65536) (room : List UInt8)
    (hroom : d.encodedLength + as.length * blockLength ≤ room.length) (before : List UInt8) :
    ∃ group blocks after,
      putGroup d blockLength writes as (before ++ room) before.length =
        .ok (before ++ (group ++ after), before.length + group.length) ∧
      d.IsGroup blockLength blocks group ∧ List.Forall₂ (IsBlock blockLength writes) as blocks ∧
      group.length = d.encodedLength + as.length * blockLength ∧
      after.length = room.length - group.length := by
  obtain ⟨header, blocks, after, hput, hheader, hblocks, hafter⟩ :=
    putGroup_append (fun a _ => hfits a) hcount hblock hroom before
  have hlengths := length_of_isBlock hblocks
  -- the blocks are of one length
  have hflatten : blocks.flatten.length = as.length * blockLength := by
    rw [List.length_flatten, List.eq_replicate_of_mem (l := blocks.map List.length)
      (a := blockLength) (by simpa using hlengths), List.sum_replicate, List.length_map,
      ← hblocks.length_eq, smul_eq_mul]
  have hlen : (header ++ blocks.flatten).length = d.encodedLength + as.length * blockLength := by
    rw [List.length_append, hheader.length_eq, hflatten]
  refine ⟨header ++ blocks.flatten, blocks, after, ?_, ⟨header, rfl, ?_, hlengths⟩, hblocks, hlen, ?_⟩
  · rw [hput, hlen, List.append_assoc, Nat.add_assoc]
  · rw [← hblocks.length_eq]
    exact hheader
  · rw [hafter, hlen, Nat.sub_sub]

end

/-! ## Messages -/

/-- The header is written in front. -/
theorem encodeHeader_append (templateId : UInt16) (blockLength : Nat) {buffer : List UInt8}
    (hlen : MessageHeader.encodedLength ≤ buffer.length) :
    ∃ header, SBEEncoder.encodeHeader blockLength templateId buffer =
        .ok (header ++ buffer.drop MessageHeader.encodedLength) ∧
      header.length = MessageHeader.encodedLength ∧
      HoldsAll header [MessageHeader.blockLength.put (.ofNat blockLength),
        MessageHeader.templateId.put templateId, MessageHeader.schemaId.put sbeSchemaId,
        MessageHeader.version.put sbeSchemaVersion] := by
  -- its four fields do not overlap
  have hfits : Fits [MessageHeader.blockLength.put (.ofNat blockLength),
      MessageHeader.templateId.put templateId, MessageHeader.schemaId.put sbeSchemaId,
      MessageHeader.version.put sbeSchemaVersion] MessageHeader.encodedLength :=
    fits_of_extents [(0, 2), (2, 2), (4, 2), (6, 2)] rfl (by decide) (by decide)
  have htake : (buffer.take MessageHeader.encodedLength).length = MessageHeader.encodedLength := by
    simp
    omega
  have hwrap : wrap 0 MessageHeader.encodedLength ⟨buffer, 0, 0⟩ = .ok () :=
    if_neg (by dsimp only; omega)
  obtain ⟨header, hput, hheader, hall⟩ :=
    putAll_append hfits htake [] (buffer.drop MessageHeader.encodedLength)
  rw [List.nil_append, List.nil_append, List.take_append_drop] at hput
  refine ⟨header, ?_, hheader, hall⟩
  unfold SBEEncoder.encodeHeader
  rw [hwrap, Except.ok_bind]
  exact hput

/-- The header and the root block are written; behind them is what the groups write. -/
theorem encode_isMessage (templateId : UInt16) (buffer : List UInt8) {blockLength : Nat}
    {root : Writes} {groups : List UInt8 → Nat → Except Fault (List UInt8 × Nat)}
    {P : List UInt8 → Prop} (hroot : Fits root blockLength) (hblock : blockLength < 65536)
    (hlen : MessageHeader.encodedLength + blockLength ≤ buffer.length)
    (hgroups : ∀ before room,
      room.length = buffer.length - (MessageHeader.encodedLength + blockLength) →
      ∃ group after, groups (before ++ room) before.length =
        .ok (before ++ (group ++ after), before.length + group.length) ∧ P group) :
    ∃ bytes block group, SBEEncoder.encode templateId blockLength root groups buffer = .ok bytes ∧
      IsMessage templateId sbeSchemaVersion block group bytes ∧ HoldsAll block root ∧
      block.length = blockLength ∧ P group := by
  obtain ⟨header, hencode, hheader, hall⟩ := encodeHeader_append templateId blockLength
    (Nat.le_trans (Nat.le_add_right _ _) hlen)
  -- the root block is written behind the header
  have htake : ((buffer.drop MessageHeader.encodedLength).take blockLength).length = blockLength := by
    simp
    omega
  obtain ⟨block, hput, hblockLen, hholds⟩ := putAll_append hroot htake header
    ((buffer.drop MessageHeader.encodedLength).drop blockLength)
  rw [List.take_append_drop, hheader] at hput
  have hrootEq : SBEEncoder.encodeRoot blockLength root
      (header ++ buffer.drop MessageHeader.encodedLength) =
      .ok (header ++ (block ++ (buffer.drop MessageHeader.encodedLength).drop blockLength),
        MessageHeader.encodedLength + blockLength) := by
    unfold SBEEncoder.encodeRoot
    dsimp only
    rw [if_neg (by simp; omega), hput]
    rfl
  -- and the groups behind that
  obtain ⟨group, after, hgroup, hP⟩ := hgroups (header ++ block)
    ((buffer.drop MessageHeader.encodedLength).drop blockLength)
    (by rw [List.length_drop, List.length_drop, Nat.sub_sub])
  have hposition : (header ++ block).length = MessageHeader.encodedLength + blockLength := by
    rw [List.length_append, hheader, hblockLen]
  rw [List.append_assoc, List.append_assoc, hposition] at hgroup
  refine ⟨header ++ (block ++ group), block, group, ?_, ?_, hholds, hblockLen, hP⟩
  · unfold SBEEncoder.encode
    rw [hencode, Except.ok_bind, hrootEq, Except.ok_bind]
    dsimp only
    rw [hgroup, Except.ok_bind]
    dsimp only
    have hall : header ++ (block ++ (group ++ after)) = (header ++ (block ++ group)) ++ after := by
      simp only [List.append_assoc]
    have hwhole : (header ++ (block ++ group)).length =
        MessageHeader.encodedLength + blockLength + group.length := by
      rw [List.length_append, List.length_append, hheader, hblockLen, Nat.add_assoc]
    rw [hall, ← hwhole, List.take_left]
    rfl
  · refine ⟨header, rfl, hheader, by rw [hblockLen]; exact hblock, ?_⟩
    rw [hblockLen]
    intro w hw
    refine hall w ?_
    simp only [List.mem_cons, List.not_mem_nil, or_false] at hw ⊢
    tauto

/-! ## What was drawn -/

/-- The bytes are a group of entries of a format, and what comes behind it. -/
def Format.Group {E : Type} (f : Format E) (es : List E) (size : Nat) (bytes : List UInt8) : Prop :=
  bytes.length = size ∧ ∃ group rest blocks, bytes = group ++ rest ∧
    groupSize.IsGroup f.entryLength blocks group ∧
    List.Forall₂ (IsBlock f.entryLength f.writes) es blocks

section

variable {E : Type} {f : Format E} {es : List E}

/-- A message with one group -/
theorem one_group (hcount : es.length ≤ 254) (hentry : f.entryLength < 65536) (room : List UInt8)
    (hroom : 3 + es.length * f.entryLength ≤ room.length) (before : List UInt8) :
    ∃ group after, putGroup groupSize f.entryLength f.writes es (before ++ room) before.length =
        .ok (before ++ (group ++ after), before.length + group.length) ∧
      f.Group es (3 + es.length * f.entryLength) group := by
  obtain ⟨group, blocks, after, hput, hgroup, hblocks, hlen, -⟩ :=
    putGroup_isGroup (d := groupSize) f.fits hcount hentry room hroom before
  exact ⟨group, after, hput, hlen, group, [], blocks, (List.append_nil _).symm, hgroup, hblocks⟩

/-- A message with a second group, of order numbers -/
theorem two_groups {O : Type} {orderLength : Nat} {writes : O → Writes} {os : List O}
    (hcount : es.length ≤ 254) (hentry : f.entryLength < 65536) (hcount' : os.length ≤ 254)
    (horder : orderLength < 65536) (hfits : ∀ o, Fits (writes o) orderLength) (room : List UInt8)
    (hroom : 3 + es.length * f.entryLength + (8 + os.length * orderLength) ≤ room.length)
    (before : List UInt8) :
    ∃ group after, SBEEncoder.andThen (putGroup groupSize f.entryLength f.writes es)
        (putGroup groupSize8Byte orderLength writes os) (before ++ room) before.length =
        .ok (before ++ (group ++ after), before.length + group.length) ∧
      f.Group es (3 + es.length * f.entryLength + (8 + os.length * orderLength)) group := by
  obtain ⟨group, blocks, after, hput, hgroup, hblocks, hlen, hafter⟩ :=
    putGroup_isGroup (d := groupSize) f.fits hcount hentry room
      (by show 3 + _ ≤ _; omega) before
  have hlen : group.length = 3 + es.length * f.entryLength := hlen
  -- the second group is written where the first one ends
  obtain ⟨orders, -, after', hput', -, -, hlen', -⟩ :=
    putGroup_isGroup (d := groupSize8Byte) hfits hcount' horder after
      (by show 8 + _ ≤ _; omega) (before ++ group)
  have hlen' : orders.length = 8 + os.length * orderLength := hlen'
  rw [List.append_assoc, List.append_assoc, List.length_append] at hput'
  refine ⟨group ++ orders, after', ?_, ?_, group, orders, blocks, rfl, hgroup, hblocks⟩
  · rw [SBEEncoder.andThen, hput, Except.ok_bind]
    dsimp only
    rw [hput', List.append_assoc, List.length_append, Nat.add_assoc]
  · rw [List.length_append, hlen, hlen']

/-- The root block of an increment has room for its fields. -/
theorem fits_rootWrites (root : IncrementRoot) : Fits (rootWrites root) 9 :=
  fits_of_extents [(0, 8), (8, 1)] rfl (by decide) (by decide)

/-- What fits in a block fits in a longer one. -/
theorem fits_mono {ws : Writes} {n n' : Nat} (h : Fits ws n) (hle : n ≤ n') : Fits ws n' :=
  ⟨fun w hw => Nat.le_trans (h.inside w hw) hle, h.apart⟩

end

/-- The root block of a snapshot has room for its fields. -/
theorem fits_rootWrites38 (root : Root38) :
    Fits (rootWrites38 root) SnapshotFullRefresh38.sbeBlockLength :=
  fits_of_extents [(0, 4), (4, 4), (8, 4), (12, 4), (16, 8), (24, 8), (32, 2), (34, 1), (35, 8),
    (43, 8), (51, 8)] rfl (by decide) (by decide)

/-- The root block of an order book snapshot has room for its fields. -/
theorem fits_rootWrites44 (root : Root44) :
    Fits (rootWrites44 root) SnapshotFullRefreshOrderBook44.sbeBlockLength :=
  fits_of_extents [(0, 4), (4, 4), (8, 4), (12, 4), (16, 4), (20, 8)] rfl (by decide) (by decide)

/-- An order entry has room for its fields. -/
theorem fits_orderIDWrites32 (order : OrderIDEntry32) :
    Fits (orderIDWrites32 order) MDIncrementalRefreshBook32.NoOrderIDEntries.sbeBlockLength :=
  fits_of_extents [(0, 8), (8, 8), (16, 4), (20, 1), (21, 1)] rfl (by decide) (by decide)

/-- An order entry has room for its fields. -/
theorem fits_orderIDWrites42 (order : OrderIDEntry42) :
    Fits (orderIDWrites42 order) MDIncrementalRefreshTradeSummary42.NoOrderIDEntries.sbeBlockLength :=
  fits_of_extents [(0, 8), (8, 4)] rfl (by decide) (by decide)

/-- A message is its header, its root block and its groups. -/
theorem IsMessage.length_eq {templateId version : UInt16} {root groups buffer : List UInt8}
    (h : IsMessage templateId version root groups buffer) :
    buffer.length = MessageHeader.encodedLength + root.length + groups.length := by
  obtain ⟨header, rfl, hlen, -, -⟩ := h
  rw [List.length_append, List.length_append, hlen, Nat.add_assoc]

namespace Draw

/-- The numbers of blocks in the groups -/
def counts : Draw → List Nat
  | channelReset4 _ es => [es.length]
  | book32 _ es os => [es.length, os.length]
  | dailyStatistics33 _ es => [es.length]
  | limitsBanding34 _ es => [es.length]
  | sessionStatistics35 _ es => [es.length]
  | trade36 _ es => [es.length]
  | volume37 _ es => [es.length]
  | tradeSummary42 _ es os => [es.length, os.length]
  | snapshot38 _ es => [es.length]
  | snapshot44 _ es => [es.length]

/-- The length of the message: the header, the root block, and the groups with their headers -/
def length : Draw → Nat
  | channelReset4 _ es => 8 + 9 + (3 + es.length * 2)
  | book32 _ es os => 8 + 11 + (3 + es.length * 32 + (8 + os.length * 24))
  | dailyStatistics33 _ es => 8 + 11 + (3 + es.length * 32)
  | limitsBanding34 _ es => 8 + 11 + (3 + es.length * 32)
  | sessionStatistics35 _ es => 8 + 11 + (3 + es.length * 24)
  | trade36 _ es => 8 + 11 + (3 + es.length * 32)
  | volume37 _ es => 8 + 11 + (3 + es.length * 16)
  | tradeSummary42 _ es os => 8 + 11 + (3 + es.length * 32 + (8 + os.length * 16))
  | snapshot38 _ es => 8 + 59 + (3 + es.length * 22)
  | snapshot44 _ es => 8 + 28 + (3 + es.length * 29)

/-- What is encoded is a message of the length, with the values that were drawn. -/
def Encoded (d : Draw) (encoded : Except Fault (List UInt8)) : Prop :=
  ∃ bytes, encoded = .ok bytes ∧ bytes.length = d.length ∧ d.Sent sbeSchemaVersion bytes

variable {d : Draw} {E : Type} {f : Format E} {es : List E} {blockLength size : Nat}
  {groups : List UInt8 → Nat → Except Fault (List UInt8 × Nat)} {buffer : List UInt8}

/-- A message is encoded if its groups are. -/
theorem encoded_of_groups (hroot : Fits d.rootBlock blockLength) (hblock : blockLength < 65536)
    (hlen : d.length = 8 + blockLength + size) (hsize : d.length ≤ buffer.length)
    (hgroups : ∀ room : List UInt8, size ≤ room.length → ∀ before,
      ∃ group after, groups (before ++ room) before.length =
        .ok (before ++ (group ++ after), before.length + group.length) ∧ f.Group es size group)
    (hsent : ∀ blocks, f.Sent f.entryLength es blocks →
      d.EntriesSent sbeSchemaVersion.toNat f.entryLength blocks) :
    d.Encoded (SBEEncoder.encode d.templateId blockLength d.rootBlock groups buffer) := by
  have hheader : MessageHeader.encodedLength = 8 := rfl
  obtain ⟨bytes, block, group, hencode, hmessage, hholds, hblockLen, hgroupLen, first, rest, blocks,
      rfl, hfirst, hblocks⟩ :=
    encode_isMessage d.templateId buffer hroot hblock (by omega)
      fun before room hroom => hgroups room (by omega) before
  refine ⟨bytes, hencode, ?_, block, first, rest, f.entryLength, blocks, hmessage, hholds, hfirst,
    hsent blocks ⟨Nat.le_refl _, hblocks⟩⟩
  rw [hmessage.length_eq, hblockLen, hgroupLen, hlen, hheader]

/-- Every message that is drawn is encoded, whatever the buffer holds before. -/
theorem startEncode_encoded (d : Draw) (buffer : List UInt8) (hcounts : ∀ n ∈ d.counts, n ≤ 254)
    (hsize : d.length ≤ buffer.length) : d.Encoded (SBEEncoder.startEncode d buffer) := by
  cases d with
  | channelReset4 r es =>
    have hcount := hcounts es.length (by simp [counts])
    exact encoded_of_groups (fits_rootWrites r) (by decide) rfl hsize
      (one_group (f := Format.reset4) hcount (by decide)) fun blocks h => ⟨h, by decide⟩
  | book32 r es os =>
    have hcount := hcounts es.length (by simp [counts])
    have horders := hcounts os.length (by simp [counts])
    exact encoded_of_groups (fits_mono (fits_rootWrites r) (by decide)) (by decide) rfl hsize
      (two_groups (f := Format.book32) hcount (by decide) horders (by decide) fits_orderIDWrites32)
      fun blocks h => h
  | dailyStatistics33 r es =>
    have hcount := hcounts es.length (by simp [counts])
    exact encoded_of_groups (fits_mono (fits_rootWrites r) (by decide)) (by decide) rfl hsize
      (one_group (f := Format.dailyStatistics33) hcount (by decide)) fun blocks h => h
  | limitsBanding34 r es =>
    have hcount := hcounts es.length (by simp [counts])
    exact encoded_of_groups (fits_mono (fits_rootWrites r) (by decide)) (by decide) rfl hsize
      (one_group (f := Format.limitsBanding34) hcount (by decide)) fun blocks h => h
  | sessionStatistics35 r es =>
    have hcount := hcounts es.length (by simp [counts])
    exact encoded_of_groups (fits_mono (fits_rootWrites r) (by decide)) (by decide) rfl hsize
      (one_group (f := Format.sessionStatistics35) hcount (by decide))
      fun blocks h => ⟨h, by decide⟩
  | trade36 r es =>
    have hcount := hcounts es.length (by simp [counts])
    exact encoded_of_groups (fits_mono (fits_rootWrites r) (by decide)) (by decide) rfl hsize
      (one_group (f := Format.trade36) hcount (by decide)) fun blocks h => h
  | volume37 r es =>
    have hcount := hcounts es.length (by simp [counts])
    exact encoded_of_groups (fits_mono (fits_rootWrites r) (by decide)) (by decide) rfl hsize
      (one_group (f := Format.volume37) hcount (by decide)) fun blocks h => h
  | tradeSummary42 r es os =>
    have hcount := hcounts es.length (by simp [counts])
    have horders := hcounts os.length (by simp [counts])
    exact encoded_of_groups (fits_mono (fits_rootWrites r) (by decide)) (by decide) rfl hsize
      (two_groups (f := Format.tradeSummary42) hcount (by decide) horders (by decide)
        fits_orderIDWrites42)
      fun blocks h => ⟨h, by decide⟩
  | snapshot38 r es =>
    have hcount := hcounts es.length (by simp [counts])
    exact encoded_of_groups (fits_rootWrites38 r) (by decide) rfl hsize
      (one_group (f := Format.snapshot38) hcount (by decide)) fun blocks h => h
  | snapshot44 r es =>
    have hcount := hcounts es.length (by simp [counts])
    exact encoded_of_groups (fits_rootWrites44 r) (by decide) rfl hsize
      (one_group (f := Format.snapshot44) hcount (by decide)) fun blocks h => h

end Draw

/-! ## What is encoded is parsed -/

/-- What is drawn for a message is what the parsers make of it, whatever the encoder's buffer held. -/
theorem parse_startEncode (d : Draw) (buffer : List UInt8) (hcounts : ∀ n ∈ d.counts, n ≤ 254)
    (hsize : d.length ≤ buffer.length) :
    ∃ bytes, SBEEncoder.startEncode d buffer = .ok bytes ∧ bytes.length = d.length ∧
      ∀ m : MdpMessage, m.buffer = bytes → m.parse = .ok ⟨m.packetSeqNum, d.body⟩ := by
  obtain ⟨bytes, hencode, hlen, hsent⟩ := d.startEncode_encoded buffer hcounts hsize
  refine ⟨bytes, hencode, hlen, fun m hm => ?_⟩
  rw [← hm] at hsent
  exact hsent.parse_eq

/-- A trade with two entries, in a buffer that was used before -/
def twoTrades : Draw :=
  .tradeSummary42 ⟨5, 0xAA⟩
    [⟨250000000, 72, 73, 3, 259, ⟨1, by decide⟩, 40, .new⟩,
      ⟨-10000000, -1, 73, 2147483647, 259, ⟨2, by decide⟩, 2, .delete⟩] [⟨123, 789⟩]

/-- Two trades are encoded in 110 bytes, and read back. -/
theorem parse_startEncode_twoTrades :
    ∃ bytes, SBEEncoder.startEncode twoTrades (List.replicate SBEEncoder.bufferMaxLength 7) =
        .ok bytes ∧ bytes.length = 110 ∧
      ∀ m : MdpMessage, m.buffer = bytes → m.parse = .ok ⟨m.packetSeqNum, twoTrades.body⟩ :=
  parse_startEncode twoTrades _ (by decide) (by rw [List.length_replicate]; decide)

/-- What was sent can be decoded. -/
theorem Draw.Sent.decodes {d : Draw} {version : UInt16} {bytes : List UInt8}
    (h : d.Sent version bytes) : Decodes bytes := by
  have hparse := h.parse_eq (m := ⟨0, 0, 0, 0, bytes⟩)
  obtain ⟨decoded, hdecoded, -⟩ := Except.bind_eq_ok.mp hparse
  exact startDecode_isOk_iff.mp ⟨decoded, hdecoded⟩

/-- A packet is split into the messages that were put into it. -/
theorem pickMessagesFromPacket_sent {packetSeqNum : UInt32} {time : UInt64}
    {messages : List (Draw × UInt16 × List UInt8)}
    (hsent : ∀ s ∈ messages, s.1.Sent s.2.1 s.2.2 ∧ s.2.2.length + 2 < 2 ^ 16) :
    MessageUtility.pickMessagesFromPacket
        (MessageUtility.makePacket packetSeqNum time (messages.map (·.2.2))) =
      .ok (packetSeqNum, messages.map fun s =>
        ⟨(MessageUtility.makePacket packetSeqNum time (messages.map (·.2.2))).length, packetSeqNum,
          time, .ofNat s.2.2.length, s.2.2⟩) := by
  have hbytes : ∀ l ∈ messages.map (·.2.2), l.length + 2 < 2 ^ 16 ∧ Decodes l := by
    intro l hl
    obtain ⟨s, hs, rfl⟩ := List.mem_map.mp hl
    exact ⟨(hsent s hs).2, (hsent s hs).1.decodes⟩
  rw [MessageUtility.pickMessagesFromPacket_makePacket, MessageUtility.pickMessages_flatMap hbytes
    (MessageUtility.length_flatMap_le packetSeqNum time _), List.map_map]
  rfl

/-- Each message is parsed on its own. -/
theorem mapM_parse_sent {messages : List (Draw × UInt16 × List UInt8)}
    (hsent : ∀ s ∈ messages, s.1.Sent s.2.1 s.2.2) (packetLength : Nat) (packetSeqNum : UInt32)
    (time : UInt64) :
    (messages.map fun s => (⟨packetLength, packetSeqNum, time, .ofNat s.2.2.length, s.2.2⟩ :
        MdpMessage)).mapM MdpMessage.parse =
      .ok (messages.map fun s => ⟨packetSeqNum, s.1.body⟩) := by
  induction messages with
  | nil => rfl
  | cons s messages ih =>
    have hparse := Draw.Sent.parse_eq (d := s.1) (m := ⟨packetLength, packetSeqNum, time,
      .ofNat s.2.2.length, s.2.2⟩) (hsent s List.mem_cons_self)
    rw [List.map_cons, List.mapM_cons, hparse, Except.ok_bind,
      ih fun s hs => hsent s (List.mem_cons_of_mem _ hs)]
    rfl

/-- The messages of a packet are parsed to what was sent, in the order they were sent, whatever
    versions of the schema their senders use. -/
theorem parse_packet (packetSeqNum : UInt32) (time : UInt64)
    (messages : List (Draw × UInt16 × List UInt8))
    (hsent : ∀ s ∈ messages, s.1.Sent s.2.1 s.2.2 ∧ s.2.2.length + 2 < 2 ^ 16) :
    ∃ split, MessageUtility.pickMessagesFromPacket
        (MessageUtility.makePacket packetSeqNum time (messages.map (·.2.2))) =
        .ok (packetSeqNum, split) ∧
      split.mapM MdpMessage.parse = .ok (messages.map fun s => ⟨packetSeqNum, s.1.body⟩) :=
  ⟨_, pickMessagesFromPacket_sent hsent,
    mapM_parse_sent (fun s hs => (hsent s hs).1) _ _ _⟩

/-- A packet with the trade, twice -/
theorem parse_packet_twoTrades :
    ∃ bytes split, SBEEncoder.startEncode twoTrades (List.replicate 200 0) = .ok bytes ∧
      MessageUtility.pickMessagesFromPacket (MessageUtility.makePacket 7 9 [bytes, bytes]) =
        .ok (7, split) ∧
      split.mapM MdpMessage.parse = .ok [⟨7, twoTrades.body⟩, ⟨7, twoTrades.body⟩] := by
  obtain ⟨bytes, hencode, hlen, hsent⟩ := twoTrades.startEncode_encoded
    (List.replicate 200 0) (by decide) (by rw [List.length_replicate]; decide)
  have hshort : bytes.length + 2 < 2 ^ 16 := by
    rw [hlen]
    decide
  obtain ⟨split, hpick, hparse⟩ := parse_packet 7 9
    [(twoTrades, sbeSchemaVersion, bytes), (twoTrades, sbeSchemaVersion, bytes)]
    (by
      intro s hs
      simp only [List.mem_cons, List.not_mem_nil, or_false, or_self] at hs
      rw [hs]
      exact ⟨hsent, hshort⟩)
  exact ⟨bytes, split, hencode, hpick, hparse⟩

end FixHandler.Cme
