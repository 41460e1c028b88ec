import Mathlib
import FixHandler.Spec.Cme.EncoderCorrect
import FixHandler.Spec.Cme.PublicationCorrect

/-!
# What is decoded is what was sent

An exchange numbers its packets, and each of them carries some messages. On their way packets are lost,
repeated, overtaken and replayed, and the threads that receive and the one that saves run in any
order. The saver decodes the beginning of what was sent.

## Key results

- `Exchange.parse_messages`: the messages of a packet are parsed to what it says
- `saveMdpMessages_of_parse`: a saver does with bytes what it does with the messages they say
- `decoded_isPrefix`: the statement for every run
-/

namespace FixHandler.Cme

/-- The first elements of a list give the first results. -/
theorem mapM_of_isPrefix {α β ε : Type} {f : α → Except ε β} {l m : List α} {bs : List β}
    (hle : l <+: m) (h : m.mapM f = .ok bs) : ∃ as, l.mapM f = .ok as ∧ as <+: bs := by
  obtain ⟨rest, rfl⟩ := hle
  rw [List.mapM_append, Except.bind_eq_ok] at h
  obtain ⟨as, has, h⟩ := h
  obtain ⟨cs, -, h⟩ := Except.bind_eq_ok.mp h
  cases h
  exact ⟨as, has, List.prefix_append as cs⟩

namespace DatSaver

/-- What becomes of a saver by messages that were decoded -/
def saveMessages (s : DatSaver) (messages : List Message) : Except Fault DatSaver :=
  messages.foldlM (fun s m => (s.saveMessage m).mapError fun _ => .outOfRange) s

/-- Saving bytes is saving the messages they are parsed to. -/
theorem saveMdpMessages_of_parse {s : DatSaver} {ms : List MdpMessage} {decoded : List Message}
    (h : ms.mapM MdpMessage.parse = .ok decoded) : s.saveMdpMessages ms = s.saveMessages decoded := by
  unfold saveMdpMessages saveMessages
  induction ms generalizing s decoded with
  | nil =>
    cases h
    rfl
  | cons m ms ih =>
    rw [List.mapM_cons, Except.bind_eq_ok] at h
    obtain ⟨message, hmessage, h⟩ := h
    obtain ⟨rest, hrest, h⟩ := Except.bind_eq_ok.mp h
    cases h
    -- a turn with the bytes is a turn with the message
    have hsave : s.saveMdpMessage m = (s.saveMessage message).mapError fun _ => .outOfRange := by
      rw [saveMdpMessage, hmessage]
      rfl
    rw [List.foldlM_cons, List.foldlM_cons, hsave]
    cases (s.saveMessage message).mapError fun _ => Fault.outOfRange with
    | error e => rfl
    | ok s' => exact ih hrest

end DatSaver

/-! ## The exchange -/

/-- What an exchange sends in its packets: of each message what was drawn for it, the version of the
    schema, and the bytes. -/
structure Exchange where
  time : Nat → UInt64
  messages : Nat → List (Draw × UInt16 × List UInt8)
  sent : ∀ n, ∀ s ∈ messages n, s.1.Sent s.2.1 s.2.2 ∧ s.2.2.length + 2 < 2 ^ 16

namespace Exchange

variable {e : Exchange}

/-- The packet with a number -/
def buffer (e : Exchange) (packetSeqNum : UInt32) : List UInt8 :=
  MessageUtility.makePacket packetSeqNum (e.time packetSeqNum.toNat)
    ((e.messages packetSeqNum.toNat).map (·.2.2))

/-- What the packet with a number says -/
def said (e : Exchange) (packetSeqNum : UInt32) : List Message :=
  (e.messages packetSeqNum.toNat).map fun s => ⟨packetSeqNum, s.1.body⟩

/-- What packets say, from a number on -/
def saidFrom (e : Exchange) (first count : Nat) : List Message :=
  (List.range' first count).flatMap fun n => e.said (.ofNat n)

/-- The messages of a packet are parsed to what the exchange said in it. -/
theorem parse_messages {p : Packet} (h : p.buffer = e.buffer p.seqNum) :
    p.messages.mapM MdpMessage.parse = .ok (e.said p.seqNum) := by
  have hsplit := p.split
  rw [h, buffer, pickMessagesFromPacket_sent (e.sent _)] at hsplit
  obtain ⟨-, hmessages⟩ := Prod.mk.inj (Except.ok.inj hsplit)
  rw [← hmessages]
  exact mapM_parse_sent (fun s hs => (e.sent _ s hs).1) _ _ _

/-- So are those of packets that follow one another. -/
theorem parse_packets {ps : List Packet} (h : ∀ p ∈ ps, p.buffer = e.buffer p.seqNum) {first : Nat}
    (hnumbers : ps.map (·.seqNum.toNat) = List.range' first ps.length) :
    (ps.flatMap (·.messages)).mapM MdpMessage.parse = .ok (e.saidFrom first ps.length) := by
  induction ps generalizing first with
  | nil => rfl
  | cons p ps ih =>
    simp only [List.map_cons, List.length_cons, List.range'_succ, List.cons.injEq] at hnumbers
    obtain ⟨hfirst, hrest⟩ := hnumbers
    -- the first of the packets has the first number
    have hsaid : e.saidFrom first (p :: ps).length =
        e.said p.seqNum ++ e.saidFrom (first + 1) ps.length := by
      rw [saidFrom, List.length_cons, List.range'_succ, List.flatMap_cons, ← hfirst,
        UInt32.ofNat_toNat, hfirst]
      rfl
    rw [List.flatMap_cons, List.mapM_append, parse_messages (h p List.mem_cons_self), Except.ok_bind,
      ih (fun q hq => h q (List.mem_cons_of_mem p hq)) hrest, hsaid]
    rfl

end Exchange

/-! ## A run -/

namespace Delivery

/-- Whatever is lost, repeated, overtaken and replayed: the saver decodes the beginning of what the
    exchange says from the first packet on that is accepted, and works on that. -/
theorem decoded_isPrefix (e : Exchange) {as : List Act} (hrun : Run as)
    (hbrought : ∀ p ∈ packetsOf as, p.buffer = e.buffer p.seqNum) (s : DatSaver) :
    ∃ count decoded, (machine.exec {} as).picked.mapM MdpMessage.parse = .ok decoded ∧
      decoded <+: e.saidFrom (machine.exec {} as).first.toNat count ∧
      s.saveMdpMessages (machine.exec {} as).picked = s.saveMessages decoded := by
  obtain ⟨_, _, hconsistent⟩ := hrun.consistent
  obtain ⟨ps, hps, hnumbers, hpicked⟩ := hconsistent.isPrefix
  -- the packets that are picked from were accepted, and so they come from the exchange
  have hparse := Exchange.parse_packets (fun p hp => hbrought p (brought (hps p hp))) hnumbers
  obtain ⟨decoded, hdecoded, hle⟩ := mapM_of_isPrefix hpicked hparse
  exact ⟨ps.length, decoded, hdecoded, hle, DatSaver.saveMdpMessages_of_parse hdecoded⟩

/-- The bytes of a trade -/
def tradeBytes : List UInt8 :=
  (SBEEncoder.startEncode twoTrades (List.replicate 200 0)).toOption.getD []

/-- The bytes are those of two trades. -/
theorem sent_tradeBytes :
    twoTrades.Sent Mktdata.sbeSchemaVersion tradeBytes ∧ tradeBytes.length + 2 < 2 ^ 16 := by
  obtain ⟨bytes, hencode, hlen, hsent⟩ := twoTrades.startEncode_encoded
    (List.replicate 200 0) (by decide) (by rw [List.length_replicate]; decide)
  have hbytes : tradeBytes = bytes := by
    rw [tradeBytes, hencode]
    rfl
  rw [hbytes]
  refine ⟨hsent, ?_⟩
  rw [hlen]
  decide

/-- An exchange with a trade in every packet -/
def trades : Exchange where
  time _ := 9
  messages _ := [(twoTrades, Mktdata.sbeSchemaVersion, tradeBytes)]
  sent := by
    intro n s hs
    rw [List.mem_singleton.mp hs]
    dsimp only
    exact sent_tradeBytes

/-- A packet of two trades -/
def tradePacket (n : UInt32)
    (h : (Packet.ofBuffer? (trades.buffer n)).isSome := by decide +kernel) : Packet :=
  (Packet.ofBuffer? (trades.buffer n)).get h

/-- Packet 6 is overtaken by packet 7, and packet 5 comes twice. -/
def tradedRun : List Act :=
  [.checkFeed (tradePacket 5), .insertFeed, .pick, .checkFeed (tradePacket 7), .insertFeed,
    .checkReplay (tradePacket 6), .insertReplay 0, .checkFeed (tradePacket 5), .remove, .pick, .remove,
    .pick]

/-- A run over such packets -/
theorem decoded_isPrefix_traded :
    ∃ count decoded, (machine.exec {} tradedRun).picked.mapM MdpMessage.parse = .ok decoded ∧
      decoded <+: trades.saidFrom (machine.exec {} tradedRun).first.toNat count ∧
      DatSaver.saveMdpMessages {} (machine.exec {} tradedRun).picked =
        DatSaver.saveMessages {} decoded :=
  decoded_isPrefix trades ⟨by decide +kernel, by decide +kernel⟩ (by decide +kernel) {}

end Delivery

end FixHandler.Cme
