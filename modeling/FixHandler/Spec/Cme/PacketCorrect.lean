import Mathlib
import FixHandler.ForStd.Except
import FixHandler.Native.Cme.MdpMessage

/-!
# Which packets can be split

A packet is split by the sizes that its messages carry, and nothing is checked. Each message is
decoded when it is picked, which throws where the message is too short. So the packet is split into
messages if and only if the buffer holds a header and messages that were laid out as a packet is made
and that can be decoded. There is one more way to get through: the size 1, which is less than a size
can be, stands for a message of 65535 bytes and moves on by one byte. The splitting also ends inside
the buffer where it comes to a message that cannot be decoded, whatever is behind it.

## Key results

- `startDecode_isOk_iff`: which messages can be decoded
- `pickMessages_ok_iff`, `pickMessages_ends_iff`: which bytes behind the header can be split, and
  where the splitting ends inside them
- `pick_total_iff`: the same for buffers
- `pick_makePacket`: what is made is split into what it was made of
-/

namespace FixHandler.Cme

open Cxx (readUInt16 readUInt32 readUInt64 bytesAt toBytes uint16Bytes)
open Sbe (View)

/-! ## Decoding -/

/-- A message that can be decoded: there is a header, and if the template is known, then also as many
    bytes behind it as the header gives for the block. -/
def Decodes (encoded : List UInt8) : Prop :=
  8 ≤ encoded.length ∧
    ((readUInt16 encoded 2).getD 0 ∈ SBEDecoder.templates →
      8 + ((readUInt16 encoded 0).getD 0).toNat ≤ encoded.length)

instance (encoded : List UInt8) : Decidable (Decodes encoded) := by
  unfold Decodes
  infer_instance

/-- The numbers of a header that is there. -/
theorem readUInt16_of_le {buffer : List UInt8} {position : Nat} (h : position + 2 ≤ buffer.length) :
    ∃ n, readUInt16 buffer position = some n ∧ Sbe.uint16 position ⟨buffer, 0, 0⟩ = .ok n := by
  refine ⟨.ofNat (Cxx.ofBytes ((buffer.drop position).take 2)), ?_, ?_⟩
  · unfold readUInt16 bytesAt
    rw [if_pos h]
    rfl
  · have hbytes : Sbe.bytes position 2 ⟨buffer, 0, 0⟩ = .ok ((buffer.drop position).take 2) := by
      unfold Sbe.bytes bytesAt
      simp [h]
    unfold Sbe.uint16
    rw [Sbe.bind_apply, hbytes]
    rfl

/-- Behind a header, decoding is a matter of the length that it gives. -/
theorem startDecode_of_header {encoded : List UInt8} (h : 8 ≤ encoded.length) :
    ∃ (blockLength templateId version : UInt16),
      readUInt16 encoded 0 = some blockLength ∧ readUInt16 encoded 2 = some templateId ∧
      SBEDecoder.startDecode encoded =
        if templateId ∈ SBEDecoder.templates then
          if encoded.length < 8 + blockLength.toNat then .error (.thrown "buffer too short [E100]")
          else .ok (templateId, some ⟨⟨encoded, 8, version.toNat⟩, 8 + blockLength.toNat⟩)
        else .ok (templateId, none) := by
  obtain ⟨blockLength, hread, hlength⟩ :=
    @readUInt16_of_le encoded 0 (by omega)
  obtain ⟨templateId, hread', htemplate⟩ :=
    @readUInt16_of_le encoded 2 (by omega)
  obtain ⟨version, -, hversion⟩ := @readUInt16_of_le encoded 6 (by omega)
  -- the header fits, so that its fields can be read
  have hwrap : Sbe.wrap 0 Mktdata.MessageHeader.encodedLength ⟨encoded, 0, 0⟩ = .ok () := by
    unfold Sbe.wrap
    rw [if_neg (by simp [Mktdata.MessageHeader.encodedLength]; omega)]
  have hlength : Mktdata.MessageHeader.blockLength.get ⟨encoded, 0, 0⟩ = .ok blockLength := hlength
  have htemplate : Mktdata.MessageHeader.templateId.get ⟨encoded, 0, 0⟩ = .ok templateId := htemplate
  have hversion : Mktdata.MessageHeader.version.get ⟨encoded, 0, 0⟩ = .ok version := hversion
  refine ⟨blockLength, templateId, version, hread, hread', ?_⟩
  unfold SBEDecoder.startDecode
  simp only [hwrap, htemplate, hlength, hversion, Except.ok_bind]
  rfl

/-- A message that can be decoded is. -/
theorem startDecode_of_decodes {encoded : List UInt8} (h : Decodes encoded) :
    ∃ decoded, SBEDecoder.startDecode encoded = .ok decoded := by
  obtain ⟨hheader, hblock⟩ := h
  obtain ⟨blockLength, templateId, version, hread, hread', heq⟩ := startDecode_of_header hheader
  rw [heq]
  split
  · next hknown =>
    rw [hread, hread'] at hblock
    have hfits : 8 + blockLength.toNat ≤ encoded.length := hblock hknown
    rw [if_neg (by omega)]
    exact ⟨_, rfl⟩
  · exact ⟨_, rfl⟩

/-- One that cannot is refused by an exception. -/
theorem startDecode_of_not_decodes {encoded : List UInt8} (h : ¬ Decodes encoded) :
    ∃ what, SBEDecoder.startDecode encoded = .error (.thrown what) := by
  by_cases hheader : 8 ≤ encoded.length
  · obtain ⟨blockLength, templateId, version, hread, hread', heq⟩ := startDecode_of_header hheader
    -- the header is there, so the block is not
    unfold Decodes at h
    simp only [hheader, hread, hread', Option.getD_some, true_and, Classical.not_imp] at h
    rw [heq, if_pos h.1, if_pos (by omega)]
    exact ⟨_, rfl⟩
  · have hwrap : Sbe.wrap 0 Mktdata.MessageHeader.encodedLength ⟨encoded, 0, 0⟩ =
        .error (.thrown "buffer too short for flyweight [E107]") := by
      unfold Sbe.wrap
      rw [if_pos (by simp [Mktdata.MessageHeader.encodedLength]; omega)]
    unfold SBEDecoder.startDecode
    simp only [hwrap]
    exact ⟨_, rfl⟩

/-- Decoding returns if and only if there are enough bytes. -/
theorem startDecode_isOk_iff {encoded : List UInt8} :
    (∃ decoded, SBEDecoder.startDecode encoded = .ok decoded) ↔ Decodes encoded := by
  refine ⟨fun hok => ?_, startDecode_of_decodes⟩
  by_contra hnot
  obtain ⟨decoded, hdecoded⟩ := hok
  obtain ⟨what, hwhat⟩ := startDecode_of_not_decodes hnot
  rw [hdecoded] at hwhat
  cases hwhat

/-- A message object is made of what can be decoded. -/
theorem reset_of_decodes {encoded : List UInt8} (h : Decodes encoded) :
    ∃ decoded, MdpMessage.reset encoded = .ok decoded := by
  obtain ⟨decoded, hdecoded⟩ := startDecode_of_decodes h
  exact ⟨decoded, by rw [MdpMessage.reset, hdecoded]⟩

/-- None is made of what cannot. -/
theorem reset_of_not_decodes {encoded : List UInt8} (h : ¬ Decodes encoded) :
    ∃ what, MdpMessage.reset encoded = .error (.thrown what) := by
  obtain ⟨what, hwhat⟩ := startDecode_of_not_decodes h
  exact ⟨what, by rw [MdpMessage.reset, hwhat]⟩

namespace MessageUtility

/-- Bytes that are laid out as messages that can be decoded. -/
inductive LaidOut : List UInt8 → Prop
  | nil : LaidOut []
  /-- a message behind its size -/
  | message (encoded : List UInt8) {rest : List UInt8} (hsize : encoded.length + 2 < 2 ^ 16)
      (hdecodes : Decodes encoded) (hrest : LaidOut rest) : LaidOut (makeMessage encoded ++ rest)
  /-- the size 1, with a message of 65535 bytes behind it -/
  | one {rest : List UInt8} (hzero : rest.head? = some 0) (hlong : 2 ^ 16 ≤ rest.length)
      (hdecodes : Decodes (rest.tail.take 65535)) (hrest : LaidOut rest) : LaidOut (1 :: rest)

/-- Bytes that are laid out as messages up to their end, or up to a message that cannot be
    decoded. -/
inductive Ends : List UInt8 → Prop
  | nil : Ends []
  | message (encoded : List UInt8) {rest : List UInt8} (hsize : encoded.length + 2 < 2 ^ 16)
      (hrest : Decodes encoded → Ends rest) : Ends (makeMessage encoded ++ rest)
  | one {rest : List UInt8} (hzero : rest.head? = some 0) (hlong : 2 ^ 16 ≤ rest.length)
      (hrest : Decodes (rest.tail.take 65535) → Ends rest) : Ends (1 :: rest)
  /-- the size 0, with a message of 65534 bytes behind it -/
  | zero {tail : List UInt8} (hlong : 65534 ≤ tail.length) (hnot : ¬ Decodes (tail.take 65534)) :
      Ends (0 :: 0 :: tail)

variable {dataLength : Nat} {packetSeqNum : UInt32} {packetSendingTime : UInt64}

/-! ## One turn of the loop -/

/-- A turn in which there are a size and the bytes that it stands for: the message is decoded, and
    the loop goes on behind it. -/
theorem pickMessages_cons {fuel : Nat} {rest encoded : List UInt8} {messageLength : UInt16}
    (hread : readUInt16 rest 0 = some messageLength)
    (hbytes : bytesAt rest 2 (messageLength - 2).toNat = some encoded) :
    pickMessages dataLength packetSeqNum packetSendingTime (fuel + 1) rest =
      (MdpMessage.reset encoded >>= fun _ =>
        (pickMessages dataLength packetSeqNum packetSendingTime fuel
          (rest.drop messageLength.toNat)).map
          (⟨dataLength, packetSeqNum, packetSendingTime, messageLength - 2, encoded⟩ :: ·)) := by
  cases rest with
  | nil => cases hread
  | cons b rest =>
    rw [pickMessages, hread, fetch, Except.ok_bind, hbytes, fetch, Except.ok_bind]
    cases MdpMessage.reset encoded with
    | error e => rfl
    | ok decoded =>
      rw [Except.ok_bind, Except.ok_bind]
      cases pickMessages dataLength packetSeqNum packetSendingTime fuel
        ((b :: rest).drop messageLength.toNat) <;> rfl

/-- At the end of the packet the loop ends. -/
@[simp] theorem pickMessages_nil (fuel : Nat) :
    pickMessages dataLength packetSeqNum packetSendingTime fuel [] = .ok [] := by
  unfold pickMessages
  rfl

/-- A message is picked, and the rest is what is behind it. -/
theorem pickMessages_makeMessage {encoded : List UInt8} (hsize : encoded.length + 2 < 2 ^ 16)
    (rest : List UInt8) (fuel : Nat) :
    pickMessages dataLength packetSeqNum packetSendingTime (fuel + 1) (makeMessage encoded ++ rest) =
      (MdpMessage.reset encoded >>= fun _ =>
        (pickMessages dataLength packetSeqNum packetSendingTime fuel rest).map
          (⟨dataLength, packetSeqNum, packetSendingTime, .ofNat encoded.length, encoded⟩ :: ·)) := by
  have hread : readUInt16 (makeMessage encoded ++ rest) 0 = some (.ofNat (encoded.length + 2)) := by
    unfold makeMessage
    rw [List.append_assoc]
    exact Cxx.readUInt16_uint16Bytes hsize _
  -- the length field counts its own two bytes
  have hlength : UInt16.ofNat (encoded.length + 2) - 2 = .ofNat encoded.length := by
    rw [UInt16.ofNat_add]
    exact UInt16.add_sub_cancel _ _
  have hnat : (UInt16.ofNat encoded.length).toNat = encoded.length :=
    UInt16.toNat_ofNat_of_lt' (by show _ < 2 ^ 16; omega)
  have hbytes : bytesAt (makeMessage encoded ++ rest) 2
      (UInt16.ofNat (encoded.length + 2) - 2).toNat = some encoded := by
    rw [hlength, hnat]
    unfold makeMessage
    rw [List.append_assoc]
    exact Cxx.bytesAt_append (uint16Bytes (encoded.length + 2)) encoded rest
  have hdrop : (makeMessage encoded ++ rest).drop (UInt16.ofNat (encoded.length + 2)).toNat = rest := by
    rw [UInt16.toNat_ofNat_of_lt' (by show _ < 2 ^ 16; omega)]
    have hlen : (makeMessage encoded).length = encoded.length + 2 := by
      unfold makeMessage
      rw [List.length_append, Nat.add_comm]
      rfl
    rw [← hlen, List.drop_left]
  rw [pickMessages_cons hread hbytes, hlength, hdrop]

/-- The size 1 stands for 65535 bytes, and the loop goes on one byte further. -/
theorem pickMessages_one {tail : List UInt8} (hlong : 65535 ≤ tail.length) (fuel : Nat) :
    pickMessages dataLength packetSeqNum packetSendingTime (fuel + 1) (1 :: 0 :: tail) =
      (MdpMessage.reset (tail.take 65535) >>= fun _ =>
        (pickMessages dataLength packetSeqNum packetSendingTime fuel (0 :: tail)).map
          (⟨dataLength, packetSeqNum, packetSendingTime, 1 - 2, tail.take 65535⟩ :: ·)) := by
  have hread : readUInt16 (1 :: 0 :: tail) 0 = some 1 := rfl
  have hbytes : bytesAt (1 :: 0 :: tail) 2 (1 - 2 : UInt16).toNat = some (tail.take 65535) := by
    show bytesAt (1 :: 0 :: tail) 2 65535 = _
    unfold bytesAt
    rw [if_pos (by simp only [List.length_cons]; omega)]
    rfl
  rw [pickMessages_cons hread hbytes]
  rfl

/-- The size 0 stands for 65534 bytes, and the loop stays where it is. -/
theorem pickMessages_zero {tail : List UInt8} (hlong : 65534 ≤ tail.length) (fuel : Nat) :
    pickMessages dataLength packetSeqNum packetSendingTime (fuel + 1) (0 :: 0 :: tail) =
      (MdpMessage.reset (tail.take 65534) >>= fun _ =>
        (pickMessages dataLength packetSeqNum packetSendingTime fuel (0 :: 0 :: tail)).map
          (⟨dataLength, packetSeqNum, packetSendingTime, 0 - 2, tail.take 65534⟩ :: ·)) := by
  have hread : readUInt16 (0 :: 0 :: tail) 0 = some 0 := rfl
  have hbytes : bytesAt (0 :: 0 :: tail) 2 (0 - 2 : UInt16).toNat = some (tail.take 65534) := by
    show bytesAt (0 :: 0 :: tail) 2 65534 = _
    unfold bytesAt
    rw [if_pos (by simp only [List.length_cons]; omega)]
    rfl
  rw [pickMessages_cons hread hbytes]
  rfl

/-! ## What can be split -/

/-- There is no end to messages of size 0. -/
theorem pickMessages_endless {tail : List UInt8} (hlong : 65534 ≤ tail.length)
    (hdecodes : Decodes (tail.take 65534)) (fuel : Nat) :
    pickMessages dataLength packetSeqNum packetSendingTime fuel (0 :: 0 :: tail) =
      .error .endless := by
  obtain ⟨decoded, hdecoded⟩ := reset_of_decodes hdecodes
  induction fuel with
  | zero => rfl
  | succ fuel ih =>
    rw [pickMessages_zero hlong, hdecoded, Except.ok_bind, ih]
    rfl

/-- The two bytes of a number that is read -/
theorem bytes_of_readUInt16 {rest : List UInt8} {n : UInt16} (h : readUInt16 rest 0 = some n) :
    ∃ low high tail, rest = low :: high :: tail ∧ n.toNat = low.toNat + 256 * high.toNat := by
  match rest with
  | [] => cases h
  | [_] => cases h
  | low :: high :: tail =>
    refine ⟨low, high, tail, rfl, ?_⟩
    have h : some (UInt16.ofNat (low.toNat + 256 * (high.toNat + 256 * 0))) = some n := h
    have hlow := low.toNat_lt
    have hhigh := high.toNat_lt
    rw [← Option.some.inj h, UInt16.toNat_ofNat_of_lt' (by show _ < 2 ^ 16; omega)]
    omega

/-- The bytes of a message whose size is at least that of the size itself -/
theorem eq_makeMessage {rest encoded : List UInt8} {messageLength : UInt16}
    (hread : readUInt16 rest 0 = some messageLength) (hsize : 2 ≤ messageLength.toNat)
    (hbytes : bytesAt rest 2 (messageLength.toNat - 2) = some encoded) :
    encoded.length + 2 = messageLength.toNat ∧
      rest = makeMessage encoded ++ rest.drop messageLength.toNat := by
  obtain ⟨low, high, tail, rfl, hvalue⟩ := bytes_of_readUInt16 hread
  unfold bytesAt at hbytes
  split at hbytes
  · next hle =>
    cases hbytes
    rw [List.length_cons, List.length_cons] at hle
    obtain ⟨n, hn⟩ := Nat.exists_eq_add_of_le' hsize
    have hlength : (((low :: high :: tail).drop 2).take (messageLength.toNat - 2)).length =
        messageLength.toNat - 2 := by
      rw [List.drop_succ_cons, List.drop_succ_cons, List.drop_zero, List.length_take]
      omega
    -- the length field is written as it was read
    have hhead : uint16Bytes messageLength.toNat = [low, high] := by
      have hlow := low.toNat_lt
      have hhigh := high.toNat_lt
      unfold uint16Bytes
      rw [List.cons.injEq, List.cons.injEq, ← UInt8.toNat_inj, ← UInt8.toNat_inj,
        UInt8.toNat_ofNat', UInt8.toNat_ofNat']
      refine ⟨?_, ?_, rfl⟩ <;> omega
    refine ⟨?_, ?_⟩
    · rw [hlength]
      omega
    unfold makeMessage
    rw [hlength, Nat.sub_add_cancel hsize, hhead, hn, Nat.add_sub_cancel]
    show low :: high :: tail = [low, high] ++ tail.take n ++ tail.drop n
    -- the body and the rest make up what follows the length
    rw [List.append_assoc, List.take_append_drop]
    rfl
  · cases hbytes

/-- What there can be at the position of a turn. -/
inductive Turn : List UInt8 → Prop
  | message (encoded rest : List UInt8) (hsize : encoded.length + 2 < 2 ^ 16) :
      Turn (makeMessage encoded ++ rest)
  | one (tail : List UInt8) (hlong : 65535 ≤ tail.length) : Turn (1 :: 0 :: tail)
  | zero (tail : List UInt8) (hlong : 65534 ≤ tail.length) : Turn (0 :: 0 :: tail)

/-- A turn reads outside the buffer, unless there are a size and the bytes that it stands for. -/
theorem turn_or_outOfRange {rest : List UInt8} (hne : rest ≠ []) :
    Turn rest ∨ ∀ fuel, pickMessages dataLength packetSeqNum packetSendingTime (fuel + 1) rest =
      .error .outOfRange := by
  obtain ⟨b, bs, rfl⟩ := List.exists_cons_of_ne_nil hne
  cases hread : readUInt16 (b :: bs) 0 with
  | none =>
    -- without two bytes there is no length to read
    refine .inr fun fuel => ?_
    rw [pickMessages, hread]
    rfl
  | some messageLength =>
    cases hbytes : bytesAt (b :: bs) 2 (messageLength - 2).toNat with
    | none =>
      refine .inr fun fuel => ?_
      rw [pickMessages, hread, fetch, Except.ok_bind, hbytes]
      rfl
    | some encoded =>
      left
      obtain ⟨low, high, tail, hrest, hvalue⟩ := bytes_of_readUInt16 hread
      -- the message is inside what is left
      have hle : 2 + (messageLength - 2).toNat ≤ (b :: bs).length := by
        by_contra hlt
        rw [Cxx.bytesAt_eq_none.mpr (Nat.lt_of_not_le hlt)] at hbytes
        cases hbytes
      rw [hrest, List.length_cons, List.length_cons] at hle
      rcases Nat.lt_or_ge messageLength.toNat 2 with hsmall | hsize
      · -- the subtraction of two wraps around
        have hhigh : high = 0 := UInt8.toNat_inj.mp (show high.toNat = 0 by omega)
        rw [hrest, hhigh]
        by_cases hzero : messageLength.toNat = 0
        · have hlength : messageLength = 0 := UInt16.toNat_inj.mp hzero
          have hlow : low = 0 := UInt8.toNat_inj.mp (show low.toNat = 0 by omega)
          rw [hlength] at hle
          have hle : 2 + 65534 ≤ tail.length + 1 + 1 := hle
          rw [hlow]
          exact .zero tail (by omega)
        · have hlength : messageLength = 1 :=
            UInt16.toNat_inj.mp (show messageLength.toNat = 1 by omega)
          have hlow : low = 1 := UInt8.toNat_inj.mp (show low.toNat = 1 by omega)
          rw [hlength] at hle
          have hle : 2 + 65535 ≤ tail.length + 1 + 1 := hle
          rw [hlow]
          exact .one tail (by omega)
      · -- a message with its two bytes of length
        have hlength : (messageLength - 2).toNat = messageLength.toNat - 2 :=
          UInt16.toNat_sub_of_le _ _ (UInt16.le_iff_toNat_le.mpr hsize)
        rw [hlength] at hbytes
        obtain ⟨hencoded, heq⟩ := eq_makeMessage hread hsize hbytes
        rw [heq]
        exact .message encoded _ (by have := messageLength.toNat_lt; omega)

/-- A message takes its bytes and two more. -/
theorem length_makeMessage (encoded : List UInt8) :
    (makeMessage encoded).length = encoded.length + 2 := by
  rw [makeMessage, List.length_append, Nat.add_comm]
  rfl

/-- Bytes can be split if and only if they are laid out as messages that can be decoded. -/
theorem pickMessages_ok_iff {fuel : Nat} {rest : List UInt8} (hfuel : rest.length ≤ fuel) :
    (∃ messages, pickMessages dataLength packetSeqNum packetSendingTime fuel rest = .ok messages) ↔
      LaidOut rest := by
  constructor
  · rintro ⟨messages, h⟩
    induction fuel generalizing rest messages with
    | zero =>
      have hnil : rest = [] := List.length_eq_zero_iff.mp (by omega)
      rw [hnil]
      exact .nil
    | succ fuel ih =>
      by_cases hne : rest = []
      · rw [hne]
        exact .nil
      cases @turn_or_outOfRange dataLength packetSeqNum packetSendingTime rest hne with
      | inr hout =>
        rw [hout] at h
        cases h
      | inl hturn =>
        cases hturn with
        | message encoded rest hsize =>
          rw [pickMessages_makeMessage hsize] at h
          rw [List.length_append, length_makeMessage] at hfuel
          -- the loop goes on only if the message can be decoded
          by_cases hdecodes : Decodes encoded
          · obtain ⟨decoded, -, h⟩ := Except.bind_eq_ok.mp h
            obtain ⟨messages', hrest, -⟩ := Except.map_eq_ok.mp h
            exact .message encoded hsize hdecodes (ih (by omega) _ hrest)
          · obtain ⟨what, hwhat⟩ := reset_of_not_decodes hdecodes
            rw [hwhat] at h
            cases h
        | one tail hlong =>
          -- a length of one moves on by a single byte
          rw [pickMessages_one hlong] at h
          simp only [List.length_cons] at hfuel
          by_cases hdecodes : Decodes (tail.take 65535)
          · obtain ⟨decoded, -, h⟩ := Except.bind_eq_ok.mp h
            obtain ⟨messages', hrest, -⟩ := Except.map_eq_ok.mp h
            exact .one rfl (by rw [List.length_cons]; omega) hdecodes
              (ih (by rw [List.length_cons]; omega) _ hrest)
          · obtain ⟨what, hwhat⟩ := reset_of_not_decodes hdecodes
            rw [hwhat] at h
            cases h
        | zero tail hlong =>
          by_cases hdecodes : Decodes (tail.take 65534)
          · -- a length of zero does not move on
            rw [pickMessages_endless hlong hdecodes] at h
            cases h
          · obtain ⟨what, hwhat⟩ := reset_of_not_decodes hdecodes
            rw [pickMessages_zero hlong, hwhat] at h
            cases h
  · intro h
    induction h generalizing fuel with
    | nil => exact ⟨[], pickMessages_nil fuel⟩
    | @message encoded rest hsize hdecodes hrest ih =>
      rw [List.length_append, length_makeMessage] at hfuel
      obtain ⟨fuel, rfl⟩ := Nat.exists_eq_add_one_of_ne_zero (by omega : fuel ≠ 0)
      obtain ⟨messages, hmessages⟩ := @ih fuel (by omega)
      obtain ⟨decoded, hdecoded⟩ := reset_of_decodes hdecodes
      exact ⟨_, by rw [pickMessages_makeMessage hsize, hdecoded, hmessages]; rfl⟩
    | @one rest hzero hlong hdecodes hrest ih =>
      rw [List.length_cons] at hfuel
      obtain ⟨fuel, rfl⟩ := Nat.exists_eq_add_one_of_ne_zero (by omega : fuel ≠ 0)
      obtain ⟨messages, hmessages⟩ := @ih fuel (by omega)
      obtain ⟨tail, rfl⟩ := List.head?_eq_some_iff.mp hzero
      obtain ⟨decoded, hdecoded⟩ := reset_of_decodes hdecodes
      rw [List.tail_cons] at hdecoded
      rw [List.length_cons] at hlong
      exact ⟨_, by rw [pickMessages_one (by omega), hdecoded, hmessages]; rfl⟩

/-- If a turn is decoded it ends as the rest does, and if not it ends at once. -/
private theorem ends_of_reset {encoded : List UInt8} {m : MdpMessage}
    {x : Except PacketFault (List MdpMessage)}
    (h : Decodes encoded → x ≠ .error .outOfRange ∧ x ≠ .error .endless) :
    (MdpMessage.reset encoded >>= fun _ => x.map (m :: ·)) ≠ .error .outOfRange ∧
      (MdpMessage.reset encoded >>= fun _ => x.map (m :: ·)) ≠ .error .endless := by
  by_cases hdecodes : Decodes encoded
  · obtain ⟨decoded, hdecoded⟩ := reset_of_decodes hdecodes
    obtain ⟨hinside, hend⟩ := h hdecodes
    rw [hdecoded, Except.ok_bind]
    cases x with
    | error e =>
      exact ⟨fun heq => hinside (congrArg _ (Except.error.inj heq)),
        fun heq => hend (congrArg _ (Except.error.inj heq))⟩
    | ok messages => exact ⟨fun heq => (by cases heq), fun heq => (by cases heq)⟩
  · obtain ⟨what, hwhat⟩ := reset_of_not_decodes hdecodes
    rw [hwhat]
    exact ⟨fun heq => (by cases heq), fun heq => (by cases heq)⟩

/-- The splitting comes to its end, with nothing read outside the bytes, if and only if they are laid
    out as messages up to there. -/
theorem pickMessages_ends_iff {fuel : Nat} {rest : List UInt8} (hfuel : rest.length ≤ fuel) :
    (pickMessages dataLength packetSeqNum packetSendingTime fuel rest ≠ .error .outOfRange ∧
      pickMessages dataLength packetSeqNum packetSendingTime fuel rest ≠ .error .endless) ↔
      Ends rest := by
  constructor
  · rintro ⟨hinside, hend⟩
    induction fuel generalizing rest with
    | zero =>
      have hnil : rest = [] := List.length_eq_zero_iff.mp (by omega)
      rw [hnil]
      exact .nil
    | succ fuel ih =>
      by_cases hne : rest = []
      · rw [hne]
        exact .nil
      cases @turn_or_outOfRange dataLength packetSeqNum packetSendingTime rest hne with
      -- a read outside the packet is what the condition excludes
      | inr hout => exact absurd (hout fuel) hinside
      | inl hturn =>
        cases hturn with
        | message encoded rest hsize =>
          rw [pickMessages_makeMessage hsize] at hinside hend
          rw [List.length_append, length_makeMessage] at hfuel
          -- the loop goes on behind a message that can be decoded, and else it has ended
          refine .message encoded hsize fun hdecodes => ih (by omega) (fun he => hinside ?_)
            fun he => hend ?_
          all_goals
            obtain ⟨decoded, hdecoded⟩ := reset_of_decodes hdecodes
            rw [hdecoded, Except.ok_bind, he]
            rfl
        | one tail hlong =>
          rw [pickMessages_one hlong] at hinside hend
          simp only [List.length_cons] at hfuel
          refine .one rfl (by rw [List.length_cons]; omega) fun hdecodes =>
            ih (by rw [List.length_cons]; omega) (fun he => hinside ?_) fun he => hend ?_
          all_goals
            obtain ⟨decoded, hdecoded⟩ := reset_of_decodes hdecodes
            rw [List.tail_cons] at hdecoded
            rw [hdecoded, Except.ok_bind, he]
            rfl
        | zero tail hlong =>
          -- a length of zero ends only with an exception
          exact .zero hlong fun hdecodes => hend (pickMessages_endless hlong hdecodes (fuel + 1))
  · -- by induction on the turns, with as much fuel as bytes
    intro h
    induction h generalizing fuel with
    | nil =>
      rw [pickMessages_nil]
      exact ⟨fun h => (by cases h), fun h => (by cases h)⟩
    | @message encoded rest hsize hrest ih =>
      rw [List.length_append, length_makeMessage] at hfuel
      obtain ⟨fuel, rfl⟩ := Nat.exists_eq_add_one_of_ne_zero (by omega : fuel ≠ 0)
      rw [pickMessages_makeMessage hsize]
      exact ends_of_reset fun hdecodes => @ih hdecodes fuel (by omega)
    | @one rest hzero hlong hrest ih =>
      rw [List.length_cons] at hfuel
      obtain ⟨fuel, rfl⟩ := Nat.exists_eq_add_one_of_ne_zero (by omega : fuel ≠ 0)
      obtain ⟨tail, rfl⟩ := List.head?_eq_some_iff.mp hzero
      rw [List.length_cons] at hlong
      rw [pickMessages_one (by omega)]
      exact ends_of_reset fun hdecodes => @ih hdecodes fuel (by omega)
    | @zero tail hlong hnot =>
      simp only [List.length_cons] at hfuel
      obtain ⟨fuel, rfl⟩ := Nat.exists_eq_add_one_of_ne_zero (by omega : fuel ≠ 0)
      rw [pickMessages_zero hlong]
      exact ends_of_reset fun hdecodes => absurd hdecodes hnot

/-! ## Whole packets -/

/-- The number and the time of a packet, behind which the loop begins. -/
theorem pickMessagesFromPacket_eq {buffer : List UInt8} (h : 12 ≤ buffer.length) :
    ∃ seqNum time, readUInt32 buffer 0 = some seqNum ∧ pickMessagesFromPacket buffer =
      (pickMessages buffer.length seqNum time buffer.length (buffer.drop 12)).map (seqNum, ·) := by
  obtain ⟨seqNum, hseq⟩ : ∃ n, readUInt32 buffer 0 = some n := by
    unfold readUInt32 bytesAt
    exact ⟨_, by rw [if_pos (by omega)]; rfl⟩
  obtain ⟨time, htime⟩ : ∃ n, readUInt64 buffer 4 = some n := by
    unfold readUInt64 bytesAt
    exact ⟨_, by rw [if_pos (by omega)]; rfl⟩
  refine ⟨seqNum, time, hseq, ?_⟩
  unfold pickMessagesFromPacket
  rw [hseq, htime]
  show (pickMessages buffer.length seqNum time buffer.length (buffer.drop 12) >>= _) = _
  cases pickMessages buffer.length seqNum time buffer.length (buffer.drop 12) <;> rfl

/-- A buffer is too short for the number and the time. -/
theorem pickMessagesFromPacket_of_short {buffer : List UInt8} (h : buffer.length < 12) :
    pickMessagesFromPacket buffer = .error .outOfRange := by
  have htime : readUInt64 buffer 4 = none := by
    unfold readUInt64
    rw [Cxx.bytesAt_eq_none.mpr (by omega)]
    rfl
  unfold pickMessagesFromPacket
  rw [htime]
  cases readUInt32 buffer 0 <;> rfl

/-- A buffer is split into messages if and only if it holds a header and, behind it, messages that
    can be decoded. The splitting comes to an end, and nothing outside the buffer is read or taken
    for a message, if and only if there is a header and the messages are laid out up to the end of
    the buffer, or up to one that cannot be decoded. -/
theorem pick_total_iff (buffer : List UInt8) :
    ((∃ seqNum messages, pickMessagesFromPacket buffer = .ok (seqNum, messages)) ↔
      12 ≤ buffer.length ∧ LaidOut (buffer.drop 12)) ∧
    ((pickMessagesFromPacket buffer ≠ .error .outOfRange ∧
        pickMessagesFromPacket buffer ≠ .error .endless) ↔
      12 ≤ buffer.length ∧ Ends (buffer.drop 12)) := by
  by_cases hlength : 12 ≤ buffer.length
  · obtain ⟨seqNum, time, -, heq⟩ := pickMessagesFromPacket_eq hlength
    -- each turn takes at least one byte, so that this fuel is enough
    have hfuel : (buffer.drop 12).length ≤ buffer.length := by
      rw [List.length_drop]
      omega
    rw [heq, ← @pickMessages_ok_iff buffer.length seqNum time _ _ hfuel,
      ← @pickMessages_ends_iff buffer.length seqNum time _ _ hfuel]
    cases pickMessages buffer.length seqNum time buffer.length (buffer.drop 12) with
    | error e => simp [Except.map, hlength]
    | ok messages => simp [Except.map, hlength]
  · rw [pickMessagesFromPacket_of_short (Nat.lt_of_not_le hlength)]
    simp [hlength]

/-- A message of size 0, one whose size is cut off, and one that has no header. -/
theorem pick_not_total :
    pickMessagesFromPacket (List.replicate 12 0 ++ [0, 0]) = .error .outOfRange ∧
    pickMessagesFromPacket (List.replicate 12 0 ++ [3]) = .error .outOfRange ∧
    pickMessagesFromPacket (List.replicate 12 0 ++ [2, 0]) =
      .error (.thrown "buffer too short for flyweight [E107]") := by
  decide +kernel

/-- The messages that are laid out one after the other -/
theorem pickMessages_flatMap {messages : List (List UInt8)}
    (hmessages : ∀ encoded ∈ messages, encoded.length + 2 < 2 ^ 16 ∧ Decodes encoded) {fuel : Nat}
    (hfuel : (messages.flatMap makeMessage).length ≤ fuel) :
    pickMessages dataLength packetSeqNum packetSendingTime fuel (messages.flatMap makeMessage) =
      .ok (messages.map fun encoded =>
        ⟨dataLength, packetSeqNum, packetSendingTime, .ofNat encoded.length, encoded⟩) := by
  induction messages generalizing fuel with
  | nil => exact pickMessages_nil fuel
  | cons encoded messages ih =>
    rw [List.flatMap_cons, List.length_append, length_makeMessage] at hfuel
    obtain ⟨fuel, rfl⟩ := Nat.exists_eq_add_one_of_ne_zero (by omega : fuel ≠ 0)
    obtain ⟨hsize, hdecodes⟩ := hmessages encoded List.mem_cons_self
    obtain ⟨decoded, hdecoded⟩ := reset_of_decodes hdecodes
    rw [List.flatMap_cons, pickMessages_makeMessage hsize, hdecoded, Except.ok_bind,
      ih (fun e he => hmessages e (List.mem_cons_of_mem _ he)) (by omega)]
    rfl

/-- The first of them that cannot be decoded throws. -/
theorem pickMessages_flatMap_thrown {messages : List (List UInt8)}
    (hsize : ∀ encoded ∈ messages, encoded.length + 2 < 2 ^ 16)
    (hnot : ∃ encoded ∈ messages, ¬ Decodes encoded) {fuel : Nat}
    (hfuel : (messages.flatMap makeMessage).length ≤ fuel) :
    ∃ what, pickMessages dataLength packetSeqNum packetSendingTime fuel
      (messages.flatMap makeMessage) = .error (.thrown what) := by
  induction messages generalizing fuel with
  | nil =>
    obtain ⟨encoded, hencoded, -⟩ := hnot
    cases hencoded
  | cons encoded messages ih =>
    rw [List.flatMap_cons, List.length_append, length_makeMessage] at hfuel
    obtain ⟨fuel, rfl⟩ := Nat.exists_eq_add_one_of_ne_zero (by omega : fuel ≠ 0)
    rw [List.flatMap_cons, pickMessages_makeMessage (hsize encoded List.mem_cons_self)]
    by_cases hdecodes : Decodes encoded
    · -- the one that throws is among those behind it
      obtain ⟨e, he, hthrows⟩ := hnot
      have hbehind : e ∈ messages := by
        cases List.mem_cons.mp he with
        | inl heq => exact absurd (heq ▸ hdecodes) hthrows
        | inr hmem => exact hmem
      obtain ⟨what, hwhat⟩ := @ih (fun e he => hsize e (List.mem_cons_of_mem _ he))
        ⟨e, hbehind, hthrows⟩ fuel (by omega)
      obtain ⟨decoded, hdecoded⟩ := reset_of_decodes hdecodes
      rw [hdecoded, Except.ok_bind, hwhat]
      exact ⟨what, rfl⟩
    · -- this one throws, whatever follows
      obtain ⟨what, hwhat⟩ := reset_of_not_decodes hdecodes
      rw [hwhat]
      exact ⟨what, rfl⟩

/-- The parts of a packet that is made -/
theorem pickMessagesFromPacket_makePacket (packetSeqNum : UInt32) (time : UInt64)
    (messages : List (List UInt8)) :
    pickMessagesFromPacket (makePacket packetSeqNum time messages) =
      (pickMessages (makePacket packetSeqNum time messages).length packetSeqNum time
        (makePacket packetSeqNum time messages).length (messages.flatMap makeMessage)).map
        (packetSeqNum, ·) := by
  -- the header is read as it was written
  have hseq : readUInt32 (makePacket packetSeqNum time messages) 0 = some packetSeqNum :=
    Cxx.readUInt32_toBytes packetSeqNum [] _
  have htime : readUInt64 (makePacket packetSeqNum time messages) 4 = some time :=
    Cxx.readUInt64_toBytes time (toBytes 4 packetSeqNum.toNat) _
  have hdrop : (makePacket packetSeqNum time messages).drop (4 + 8) =
      messages.flatMap makeMessage := by
    unfold makePacket
    rw [← List.append_assoc]
    exact List.drop_left' (by rw [List.length_append, Cxx.length_toBytes, Cxx.length_toBytes])
  unfold pickMessagesFromPacket
  rw [hseq, htime, hdrop]
  generalize (makePacket packetSeqNum time messages).length = dataLength
  show (pickMessages dataLength packetSeqNum time dataLength (messages.flatMap makeMessage) >>= _) = _
  cases pickMessages dataLength packetSeqNum time dataLength (messages.flatMap makeMessage) <;> rfl

/-- The messages are a part of the packet. -/
theorem length_flatMap_le (packetSeqNum : UInt32) (time : UInt64) (messages : List (List UInt8)) :
    (messages.flatMap makeMessage).length ≤ (makePacket packetSeqNum time messages).length := by
  unfold makePacket
  simp only [List.length_append]
  omega

/-- A packet that is made of messages that can be decoded is split into them, each with the number
    and the time of the packet. With one that cannot be decoded the splitting throws. -/
theorem pick_makePacket (packetSeqNum : UInt32) (time : UInt64) (messages : List (List UInt8))
    (hsize : ∀ encoded ∈ messages, encoded.length + 2 < 2 ^ 16) :
    ((∀ encoded ∈ messages, Decodes encoded) →
      pickMessagesFromPacket (makePacket packetSeqNum time messages) =
        .ok (packetSeqNum, messages.map fun encoded =>
          { packetLength := (makePacket packetSeqNum time messages).length, packetSeqNum,
            packetSendingTime := time, messageLength := .ofNat encoded.length,
            buffer := encoded })) ∧
    ((∃ encoded ∈ messages, ¬ Decodes encoded) →
      ∃ what, pickMessagesFromPacket (makePacket packetSeqNum time messages) =
        .error (.thrown what)) := by
  have hfuel := length_flatMap_le packetSeqNum time messages
  rw [pickMessagesFromPacket_makePacket]
  constructor
  · -- where every message can be decoded, and where one cannot
    intro hdecodes
    rw [pickMessages_flatMap (fun e he => ⟨hsize e he, hdecodes e he⟩) hfuel]
    rfl
  · intro hnot
    obtain ⟨what, hwhat⟩ := @pickMessages_flatMap_thrown
      (makePacket packetSeqNum time messages).length packetSeqNum time messages hsize hnot _ hfuel
    rw [hwhat]
    exact ⟨what, rfl⟩

/-- A heartbeat, which has no block, and a message of a template that is not known -/
theorem pick_makePacket_two :
    pickMessagesFromPacket (makePacket 7 9 [[0, 0, 12, 0, 1, 0, 8, 0], [9, 0, 1, 0, 1, 0, 8, 0, 5]]) =
      .ok (7, [⟨33, 7, 9, 8, [0, 0, 12, 0, 1, 0, 8, 0]⟩,
        ⟨33, 7, 9, 9, [9, 0, 1, 0, 1, 0, 8, 0, 5]⟩]) :=
  (pick_makePacket 7 9 [[0, 0, 12, 0, 1, 0, 8, 0], [9, 0, 1, 0, 1, 0, 8, 0, 5]] (by decide)).1
    (by decide +kernel)

/-- Bodies of two bytes and of none fit a packet, and have no header. -/
theorem pick_makePacket_short :
    (∀ encoded ∈ [[1, 2], ([] : List UInt8)], encoded.length + 2 < 2 ^ 16) ∧
    pickMessagesFromPacket (makePacket 7 9 [[1, 2], []]) =
      .error (.thrown "buffer too short for flyweight [E107]") := by
  decide +kernel

end MessageUtility

end FixHandler.Cme
