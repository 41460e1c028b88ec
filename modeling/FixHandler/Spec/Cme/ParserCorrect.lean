import Mathlib
import FixHandler.Native.Cme.MessageParser
import FixHandler.Native.Cme.SbeEncoder

/-!
# The parsers read what is sent

A message is a header, a root block and its groups. The sender may use a later version of the schema:
its blocks are then longer, and more groups follow. What the parsers make of a message does not depend
on that; it is the books of the entries that were sent, in their order.

## Key results

- `startDecode_eq`: the header and the root block of a message are found
- `group_eq`: and so are the blocks of each group
- `parse_increment`, `parse_snapshot38`, `parse_snapshot44`: what is parsed is what was sent
-/

namespace FixHandler.Cme

open Sbe Mktdata

/-! ## Messages -/

/-- The bytes are a message of a template, with a root block and what comes behind it. -/
def IsMessage (templateId version : UInt16) (root groups buffer : List UInt8) : Prop :=
  ∃ header, buffer = header ++ (root ++ groups) ∧ header.length = MessageHeader.encodedLength ∧
    root.length < 65536 ∧
    HoldsAll header [MessageHeader.blockLength.put (.ofNat root.length),
      MessageHeader.templateId.put templateId, MessageHeader.version.put version]

section

variable {templateId version : UInt16} {root groups buffer : List UInt8} {α : Type}

/-- A field of the header, wherever the buffer ends. -/
theorem header_get {header : List UInt8} {ws : Writes} (after : List UInt8) (f : BlockField α) (a : α)
    (hlen : header.length = MessageHeader.encodedLength) (hws : HoldsAll header ws)
    (hmem : f.put a ∈ ws) (hinside : f.place + f.size ≤ MessageHeader.encodedLength)
    (hversion : f.sinceVersion = 0) : f.get ⟨header ++ after, 0, 0⟩ = .ok a := by
  have hrun := f.within.run_eq [] header after 0 (by omega)
  rw [List.nil_append] at hrun
  rw [show (⟨header ++ after, 0, 0⟩ : View) = ⟨header ++ after, [].length, 0⟩ from rfl, hrun]
  exact f.get_put a hws hmem (by omega)

/-- The header and the root block are found. -/
theorem startDecode_eq (h : IsMessage templateId version root groups buffer)
    (hknown : templateId ∈ SBEDecoder.templates) :
    SBEDecoder.startDecode buffer =
      .ok (templateId, some ⟨⟨buffer, MessageHeader.encodedLength, version.toNat⟩,
        MessageHeader.encodedLength + root.length⟩) := by
  obtain ⟨header, rfl, hlen, hroot, hall⟩ := h
  -- the header fits into the buffer
  have hwrap : wrap 0 MessageHeader.encodedLength ⟨header ++ (root ++ groups), 0, 0⟩ = .ok () :=
    if_neg (by simp; omega)
  have htemplate := header_get (root ++ groups) MessageHeader.templateId templateId hlen hall
    (by simp) (by decide) rfl
  have hblock := header_get (root ++ groups) MessageHeader.blockLength (.ofNat root.length)
    hlen hall (by simp) (by decide) rfl
  have hversion := header_get (root ++ groups) MessageHeader.version version hlen hall
    (by simp) (by decide) rfl
  -- and so does the root block
  have hposition : ¬ (header ++ (root ++ groups)).length <
      MessageHeader.encodedLength + root.length := by
    simp
    omega
  unfold SBEDecoder.startDecode
  simp only [hwrap, htemplate, hblock, hversion, Except.ok_bind, if_pos hknown,
    UInt16.toNat_ofNat_of_lt' hroot, if_neg hposition]
  rfl

/-- A field of the root block is read as if the block were alone. -/
theorem root_run {n : Nat} {r : Accessor α} (hr : Within r n) (hn : n ≤ root.length)
    (h : IsMessage templateId version root groups buffer) (acting : Nat) :
    r ⟨buffer, MessageHeader.encodedLength, acting⟩ = r ⟨root, 0, acting⟩ := by
  obtain ⟨header, rfl, hlen, -, -⟩ := h
  rw [← hlen]
  exact hr.run_eq header root groups acting hn

/-- The blocks of a group are read one by one, and the position moves behind the group. -/
theorem group_eq {d : Dimensions} {blockLength size acting offset position : Nat}
    {blocks : List (List UInt8)} {before group after : List UInt8} {r : Accessor α}
    (hr : Within r size) (hsize : size ≤ blockLength) (hgroup : d.IsGroup blockLength blocks group)
    (hbuffer : buffer = before ++ (group ++ after)) (hposition : position = before.length) :
    SbeBody.group d r ⟨⟨buffer, offset, acting⟩, position⟩ =
      (do
        let as ← blocks.mapM fun b => r ⟨b, 0, acting⟩
        return (as, ⟨⟨buffer, offset, acting⟩, position + group.length⟩)) := by
  subst hposition
  obtain ⟨header, rfl, hheader, hblocks⟩ := hgroup
  -- the dimensions are read where the group begins
  have hwrap := Dimensions.wrapForDecode_append hheader before (blocks.flatten ++ after)
  -- each entry is read in its own block
  have heach := forEach_append hr hsize hblocks acting (before ++ header) after
  rw [List.length_append, hheader.length_eq, List.append_assoc] at heach
  rw [List.append_assoc] at hbuffer
  rw [← hbuffer] at hwrap heach
  unfold SbeBody.group
  dsimp only
  rw [hwrap, Except.ok_bind]
  dsimp only
  rw [heach]
  cases blocks.mapM fun b => r ⟨b, 0, acting⟩ with
  | error e => rfl
  | ok as =>
    simp only [Except.ok_bind, List.length_append, hheader.length_eq, Nat.add_assoc]
    rfl

/-- A field of the root block is read as it was written. -/
theorem root_get {ws : Writes} (h : IsMessage templateId version root groups buffer)
    (hws : HoldsAll root ws) {f : BlockField α} (a : α) (hmem : f.put a ∈ ws)
    (hversion : f.sinceVersion ≤ version.toNat) :
    f.get ⟨buffer, MessageHeader.encodedLength, version.toNat⟩ = .ok a := by
  have hle := (hws _ hmem).le_length
  rw [BlockField.put_fst, BlockField.length_put] at hle
  rw [root_run f.within hle h]
  exact f.get_put a hws hmem hversion

/-- A message is what the parser of its type makes of the body. -/
theorem parse_eq {m : MdpMessage} {body : Body} (hknown : templateId ∈ SBEDecoder.templates)
    (h : IsMessage templateId version root groups m.buffer)
    (hbody : MdpMessage.parseBody templateId
      ⟨⟨m.buffer, MessageHeader.encodedLength, version.toNat⟩,
        MessageHeader.encodedLength + root.length⟩ = .ok body) :
    m.parse = .ok ⟨m.packetSeqNum, body⟩ := by
  unfold MdpMessage.parse
  rw [startDecode_eq h hknown, Except.ok_bind]
  dsimp only
  rw [hbody]
  rfl

/-- The first group of a message lies behind the root block. -/
theorem first_group (h : IsMessage templateId version root groups buffer) :
    ∃ before, buffer = before ++ groups ∧
      MessageHeader.encodedLength + root.length = before.length := by
  obtain ⟨header, rfl, hlen, -, -⟩ := h
  exact ⟨header ++ root, (List.append_assoc ..).symm, by rw [List.length_append, hlen]⟩

end

/-! ## Entries -/

/-- What a template says of its entries: how they are written and read, and the book of each. -/
structure Format (E : Type) where
  entryLength : Nat
  sinceVersion : Nat
  read : Accessor Book
  writes : E → Writes
  book : E → Book
  within : Within read entryLength
  fits : ∀ e, Fits (writes e) entryLength
  read_eq : ∀ (e : E) (block : List UInt8) (version : Nat), sinceVersion ≤ version →
    HoldsAll block (writes e) → read ⟨block, 0, version⟩ = .ok (book e)

/-- The blocks hold the entries. They may be longer than those of this version of the schema. -/
def Format.Sent {E : Type} (f : Format E) (blockLength : Nat) (es : List E)
    (blocks : List (List UInt8)) : Prop :=
  f.entryLength ≤ blockLength ∧ List.Forall₂ (IsBlock blockLength f.writes) es blocks

section

variable {α β : Type} {v : View}

/-- A field is read within its block. -/
theorem within_get {f : BlockField α} {n : Nat} (h : f.place + f.size ≤ n) : Within f.get n :=
  f.within.mono h

/-- A price is read within its block. -/
theorem within_priceOf {f : BlockField Int64} {n : Nat} (h : f.place + f.size ≤ n) :
    Within (priceOf f) n := (within_get h).map

/-- What was read goes on to the next accessor. -/
theorem bind_ok {r : Accessor α} {a : α} (f : α → Accessor β) (h : r v = .ok a) :
    (r >>= f) v = f a v := by rw [bind_apply, h, Except.ok_bind]

/-- A field that was written is read, and the reading goes on with its value. -/
theorem bind_get {block : List UInt8} {ws : Writes} {version : Nat} (h : HoldsAll block ws)
    {f : BlockField α} (a : α) (k : α → Accessor β) (hmem : f.put a ∈ ws)
    (hversion : f.sinceVersion ≤ version) :
    (f.get >>= k) ⟨block, 0, version⟩ = k a ⟨block, 0, version⟩ :=
  bind_ok k (f.get_put a h hmem hversion)

/-- A price that a block holds is read with its exponent. -/
theorem bind_price {block : List UInt8} {ws : Writes} {version : Nat} (h : HoldsAll block ws)
    {f : BlockField Int64} (m : Int64) (k : Px → Accessor β) (hmem : f.put m ∈ ws)
    (hversion : f.sinceVersion ≤ version) :
    (priceOf f >>= k) ⟨block, 0, version⟩ = k (m, exponent) ⟨block, 0, version⟩ := by
  refine bind_ok k ?_
  rw [priceOf, bind_get h m _ hmem hversion, pure_apply]

/-- The type of an entry is among those of all the messages. -/
theorem bind_entryType {e : Enum} (t : EntryTypeOf e) (k : MDEntryType → Accessor β) :
    (MDEntryType.get t.value.val >>= k) v = k t.val v :=
  bind_ok k (congrFun (MDEntryType.get_value t.val) v)

/-- The type of an entry that is not sent -/
theorem bind_constType {value : UInt8} (t : MDEntryType) (k : MDEntryType → Accessor β)
    (h : value = t.value) : (MDEntryType.get value >>= k) v = k t v := by
  rw [h]
  exact bind_ok k (congrFun (MDEntryType.get_value t) v)

end

/-! The book of an entry -/

/-- A reset of the channel makes an empty book. -/
def Entry4.book (_ : Entry4) : Book := MessageParserX.book 0 .new .bookReset

/-- What the parser makes of an entry -/
def Entry32.book (e : Entry32) : Book :=
  { MessageParserX.book e.securityID e.mDUpdateAction e.mDEntryType.val with
    mDEntryPx := (e.mDEntryPx, exponent), mDEntrySize := e.mDEntrySize.toUInt32
    numberOfOrders := e.numberOfOrders.toUInt32, mDPriceLevel := e.mDPriceLevel }

/-- What the parser makes of an entry -/
def Entry33.book (e : Entry33) : Book :=
  { MessageParserX.book e.securityID e.mDUpdateAction e.mDEntryType.val with
    mDEntryPx := (e.mDEntryPx, exponent), mDEntrySize := e.mDEntrySize.toUInt32 }

/-- What the parser makes of an entry -/
def Entry34.book (e : Entry34) : Book :=
  MessageParserX.book e.securityID .new .thresholdLimitsandPriceBandVariation

/-- What the parser makes of an entry -/
def Entry35.book (e : Entry35) : Book :=
  { MessageParserX.book e.securityID e.mDUpdateAction e.mDEntryType.val with
    mDEntryPx := (e.mDEntryPx, exponent), mDEntrySize := e.mDEntrySize.toUInt32 }

/-- What the parser makes of an entry -/
def Entry36.book (e : Entry36) : Book :=
  { MessageParserX.book e.securityID e.mDUpdateAction .trade with
    mDEntryPx := (e.mDEntryPx, exponent), mDEntrySize := e.mDEntrySize.toUInt32
    numberOfOrders := e.numberOfOrders.toUInt32 }

/-- What the parser makes of an entry -/
def Entry37.book (e : Entry37) : Book :=
  { MessageParserX.book e.securityID e.mDUpdateAction .electronicVolume with
    mDEntrySize := e.mDEntrySize.toUInt32 }

/-- What the parser makes of an entry -/
def Entry42.book (e : Entry42) : Book :=
  { MessageParserX.book e.securityID e.mDUpdateAction .trade with
    mDEntryPx := (e.mDEntryPx, exponent), mDEntrySize := e.mDEntrySize.toUInt32
    numberOfOrders := e.numberOfOrders.toUInt32 }

/-- What the parser makes of an entry -/
def Entry38.book (e : Entry38) : Book :=
  { MessageParserX.book 0 .new e.mDEntryType with
    mDEntryPx := (e.mDEntryPx, exponent), mDEntrySize := e.mDEntrySize.toUInt32
    numberOfOrders := e.numberOfOrders.toUInt32, mDPriceLevel := e.mDPriceLevel.toUInt8 }

/-- What the parser makes of an entry -/
def Entry44.book (e : Entry44) : Book :=
  { MessageParserX.book 0 .new e.mDEntryType.val with mDEntryPx := (e.mDEntryPx, exponent) }

/-! The formats of the templates -/

namespace Format

open MessageParserX MessageParserW

/-- The entries of a `ChannelReset4` -/
def reset4 : Format Entry4 where
  entryLength := ChannelReset4.NoMDEntries.sbeBlockLength
  sinceVersion := 3
  read := entry4
  writes := writes4
  book := Entry4.book
  within :=
    (MDEntryType.within_get _ _).bind fun _ => (within_get (by decide)).bind fun _ => .pure _
  fits _ := fits_of_extents
    [(0, 2)] rfl (by decide) (by decide)
  read_eq e block version hversion h := by
    unfold entry4
    rw [bind_constType .bookReset _ (by rfl),
      bind_get h e.applID _ (by simp [writes4]) hversion, pure_apply]
    rfl

/-- The entries of an `MDIncrementalRefreshBook32` -/
def book32 : Format Entry32 where
  entryLength := MDIncrementalRefreshBook32.NoMDEntries.sbeBlockLength
  sinceVersion := 0
  read := entry32
  writes := writes32
  book := Entry32.book
  within :=
    (within_priceOf (by decide)).bind fun _ => (within_get (by decide)).bind fun _ =>
    (within_get (by decide)).bind fun _ => (within_get (by decide)).bind fun _ =>
    (within_get (by decide)).bind fun _ => (within_get (by decide)).bind fun _ =>
    (within_get (by decide)).bind fun _ => (within_get (by decide)).bind fun _ =>
    (MDEntryType.within_get _ _).bind fun _ => .pure _
  fits _ := fits_of_extents
    [(0, 8), (12, 4), (16, 4), (20, 4), (8, 4), (24, 1), (25, 1), (26, 1)] rfl (by decide) (by decide)
  read_eq e block version _ h := by
    unfold entry32
    rw [bind_price h e.mDEntryPx _ (by simp [writes32]) (Nat.zero_le _),
      bind_get h e.mDEntrySize _ (by simp [writes32]) (Nat.zero_le _),
      bind_get h e.securityID _ (by simp [writes32]) (Nat.zero_le _),
      bind_get h e.rptSeq _ (by simp [writes32]) (Nat.zero_le _),
      bind_get h e.numberOfOrders _ (by simp [writes32]) (Nat.zero_le _),
      bind_get h e.mDPriceLevel _ (by simp [writes32]) (Nat.zero_le _),
      bind_get h e.mDUpdateAction _ (by simp [writes32]) (Nat.zero_le _),
      bind_get h e.mDEntryType.value _ (by simp [writes32]) (Nat.zero_le _),
      bind_entryType e.mDEntryType, pure_apply]
    rfl

/-- The entries of an `MDIncrementalRefreshDailyStatistics33` -/
def dailyStatistics33 : Format Entry33 where
  entryLength := MDIncrementalRefreshDailyStatistics33.NoMDEntries.sbeBlockLength
  sinceVersion := 0
  read := entry33
  writes := writes33
  book := Entry33.book
  within :=
    (within_priceOf (by decide)).bind fun _ => (within_get (by decide)).bind fun _ =>
    (within_get (by decide)).bind fun _ => (within_get (by decide)).bind fun _ =>
    (within_get (by decide)).bind fun _ => (within_get (by decide)).bind fun _ =>
    (within_get (by decide)).bind fun _ => (MDEntryType.within_get _ _).bind fun _ =>
    (within_get (by decide)).bind fun _ => .pure _
  fits _ := fits_of_extents
    [(0, 8), (22, 1), (12, 4), (16, 4), (8, 4), (20, 2), (23, 1), (24, 1)] rfl (by decide) (by decide)
  read_eq e block version _ h := by
    unfold entry33
    rw [bind_price h e.mDEntryPx _ (by simp [writes33]) (Nat.zero_le _),
      bind_get h e.mDEntrySize _ (by simp [writes33]) (Nat.zero_le _),
      bind_get h e.securityID _ (by simp [writes33]) (Nat.zero_le _),
      bind_get h e.rptSeq _ (by simp [writes33]) (Nat.zero_le _),
      bind_get h e.tradingReferenceDate _ (by simp [writes33]) (Nat.zero_le _),
      bind_get h e.mDUpdateAction _ (by simp [writes33]) (Nat.zero_le _),
      bind_get h e.mDEntryType.value _ (by simp [writes33]) (Nat.zero_le _),
      bind_entryType e.mDEntryType,
      bind_get h e.settlPriceType _ (by simp [writes33]) (Nat.zero_le _), pure_apply]
    rfl

/-- The entries of an `MDIncrementalRefreshLimitsBanding34` -/
def limitsBanding34 : Format Entry34 where
  entryLength := MDIncrementalRefreshLimitsBanding34.NoMDEntries.sbeBlockLength
  sinceVersion := 0
  read := entry34
  writes := writes34
  book := Entry34.book
  within :=
    (within_priceOf (by decide)).bind fun _ => (within_priceOf (by decide)).bind fun _ =>
    (within_priceOf (by decide)).bind fun _ => (within_get (by decide)).bind fun _ =>
    (within_get (by decide)).bind fun _ => (MDEntryType.within_get _ _).bind fun _ => .pure _
  fits _ := fits_of_extents
    [(0, 8), (8, 8), (16, 8), (24, 4), (28, 4)] rfl (by decide) (by decide)
  read_eq e block version _ h := by
    unfold entry34
    rw [bind_price h e.highLimitPrice _ (by simp [writes34]) (Nat.zero_le _),
      bind_price h e.lowLimitPrice _ (by simp [writes34]) (Nat.zero_le _),
      bind_price h e.maxPriceVariation _ (by simp [writes34]) (Nat.zero_le _),
      bind_get h e.securityID _ (by simp [writes34]) (Nat.zero_le _),
      bind_get h e.rptSeq _ (by simp [writes34]) (Nat.zero_le _),
      bind_constType .thresholdLimitsandPriceBandVariation _ (by rfl), pure_apply]
    rfl

/-- The entries of an `MDIncrementalRefreshSessionStatistics35` -/
def sessionStatistics35 : Format Entry35 where
  entryLength := MDIncrementalRefreshSessionStatistics35.NoMDEntries.sbeBlockLength
  sinceVersion := 8
  read := entry35
  writes := writes35
  book := Entry35.book
  within :=
    (within_priceOf (by decide)).bind fun _ => (within_get (by decide)).bind fun _ =>
    (within_get (by decide)).bind fun _ => (within_get (by decide)).bind fun _ =>
    (within_get (by decide)).bind fun _ => (within_get (by decide)).bind fun _ =>
    (MDEntryType.within_get _ _).bind fun _ => (within_get (by decide)).bind fun _ => .pure _
  fits _ := fits_of_extents
    [(0, 8), (8, 4), (12, 4), (16, 1), (19, 4), (17, 1), (18, 1)] rfl (by decide) (by decide)
  read_eq e block version hversion h := by
    unfold entry35
    rw [bind_price h e.mDEntryPx _ (by simp [writes35]) (Nat.zero_le _),
      bind_get h e.securityID _ (by simp [writes35]) (Nat.zero_le _),
      bind_get h e.rptSeq _ (by simp [writes35]) (Nat.zero_le _),
      bind_get h e.openCloseSettlFlag _ (by simp [writes35]) (Nat.zero_le _),
      bind_get h e.mDUpdateAction _ (by simp [writes35]) (Nat.zero_le _),
      bind_get h e.mDEntryType.value _ (by simp [writes35]) (Nat.zero_le _),
      bind_entryType e.mDEntryType,
      bind_get h e.mDEntrySize _ (by simp [writes35]) hversion, pure_apply]
    rfl

/-- The entries of an `MDIncrementalRefreshTrade36` -/
def trade36 : Format Entry36 where
  entryLength := MDIncrementalRefreshTrade36.NoMDEntries.sbeBlockLength
  sinceVersion := 0
  read := entry36
  writes := writes36
  book := Entry36.book
  within :=
    (within_priceOf (by decide)).bind fun _ => (within_get (by decide)).bind fun _ =>
    (within_get (by decide)).bind fun _ => (within_get (by decide)).bind fun _ =>
    (within_get (by decide)).bind fun _ => (within_get (by decide)).bind fun _ =>
    (within_get (by decide)).bind fun _ => (within_get (by decide)).bind fun _ =>
    (MDEntryType.within_get _ _).bind fun _ => .pure _
  fits _ := fits_of_extents
    [(0, 8), (12, 4), (16, 4), (20, 4), (8, 4), (24, 4), (28, 1), (29, 1)] rfl (by decide) (by decide)
  read_eq e block version _ h := by
    unfold entry36
    rw [bind_price h e.mDEntryPx _ (by simp [writes36]) (Nat.zero_le _),
      bind_get h e.mDEntrySize _ (by simp [writes36]) (Nat.zero_le _),
      bind_get h e.securityID _ (by simp [writes36]) (Nat.zero_le _),
      bind_get h e.rptSeq _ (by simp [writes36]) (Nat.zero_le _),
      bind_get h e.numberOfOrders _ (by simp [writes36]) (Nat.zero_le _),
      bind_get h e.tradeID _ (by simp [writes36]) (Nat.zero_le _),
      bind_get h e.aggressorSide _ (by simp [writes36]) (Nat.zero_le _),
      bind_get h e.mDUpdateAction _ (by simp [writes36]) (Nat.zero_le _),
      bind_constType .trade _ (by rfl), pure_apply]
    rfl

/-- The entries of an `MDIncrementalRefreshVolume37` -/
def volume37 : Format Entry37 where
  entryLength := MDIncrementalRefreshVolume37.NoMDEntries.sbeBlockLength
  sinceVersion := 0
  read := entry37
  writes := writes37
  book := Entry37.book
  within :=
    (within_get (by decide)).bind fun _ => (within_get (by decide)).bind fun _ =>
    (within_get (by decide)).bind fun _ => (within_get (by decide)).bind fun _ =>
    (MDEntryType.within_get _ _).bind fun _ => .pure _
  fits _ := fits_of_extents
    [(0, 4), (4, 4), (8, 4), (12, 1)] rfl (by decide) (by decide)
  read_eq e block version _ h := by
    unfold entry37
    rw [bind_get h e.mDEntrySize _ (by simp [writes37]) (Nat.zero_le _),
      bind_get h e.securityID _ (by simp [writes37]) (Nat.zero_le _),
      bind_get h e.rptSeq _ (by simp [writes37]) (Nat.zero_le _),
      bind_get h e.mDUpdateAction _ (by simp [writes37]) (Nat.zero_le _),
      bind_constType .electronicVolume _ (by rfl), pure_apply]
    rfl

/-- The entries of an `MDIncrementalRefreshTradeSummary42` -/
def tradeSummary42 : Format Entry42 where
  entryLength := MDIncrementalRefreshTradeSummary42.NoMDEntries.sbeBlockLength
  sinceVersion := 7
  read := entry42
  writes := writes42
  book := Entry42.book
  within :=
    (within_priceOf (by decide)).bind fun _ => (within_get (by decide)).bind fun _ =>
    (within_get (by decide)).bind fun _ => (within_get (by decide)).bind fun _ =>
    (within_get (by decide)).bind fun _ => (within_get (by decide)).bind fun _ =>
    (within_get (by decide)).bind fun _ => (MDEntryType.within_get _ _).bind fun _ =>
    (within_get (by decide)).bind fun _ => .pure _
  fits _ := fits_of_extents
    [(0, 8), (12, 4), (16, 4), (20, 4), (26, 4), (24, 1), (8, 4), (25, 1)] rfl (by decide) (by decide)
  read_eq e block version hversion h := by
    unfold entry42
    rw [bind_price h e.mDEntryPx _ (by simp [writes42]) (Nat.zero_le _),
      bind_get h e.mDEntrySize _ (by simp [writes42]) (Nat.zero_le _),
      bind_get h e.securityID _ (by simp [writes42]) (Nat.zero_le _),
      bind_get h e.rptSeq _ (by simp [writes42]) (Nat.zero_le _),
      bind_get h e.numberOfOrders _ (by simp [writes42]) (Nat.zero_le _),
      bind_get h e.aggressorSide _ (by simp [writes42]) (Nat.zero_le _),
      bind_get h e.mDUpdateAction _ (by simp [writes42]) (Nat.zero_le _),
      bind_constType .trade _ (by rfl),
      bind_get h e.mDTradeEntryID _ (by simp [writes42]) hversion, pure_apply]
    rfl

/-- The entries of a `SnapshotFullRefresh38` -/
def snapshot38 : Format Entry38 where
  entryLength := SnapshotFullRefresh38.NoMDEntries.sbeBlockLength
  sinceVersion := 0
  read := entry38
  writes := writes38
  book := Entry38.book
  within :=
    (within_priceOf (by decide)).bind fun _ => (within_get (by decide)).bind fun _ =>
    (within_get (by decide)).bind fun _ => (within_get (by decide)).bind fun _ =>
    (within_get (by decide)).bind fun _ => (within_get (by decide)).bind fun _ =>
    (within_get (by decide)).bind fun _ => (within_get (by decide)).bind fun _ => .pure _
  fits _ := fits_of_extents
    [(0, 8), (8, 4), (12, 4), (16, 1), (17, 2), (19, 1), (20, 1), (21, 1)] rfl (by decide) (by decide)
  read_eq e block version _ h := by
    unfold entry38
    rw [bind_price h e.mDEntryPx _ (by simp [writes38]) (Nat.zero_le _),
      bind_get h e.mDEntrySize _ (by simp [writes38]) (Nat.zero_le _),
      bind_get h e.numberOfOrders _ (by simp [writes38]) (Nat.zero_le _),
      bind_get h e.mDPriceLevel _ (by simp [writes38]) (Nat.zero_le _),
      bind_get h e.tradingReferenceDate _ (by simp [writes38]) (Nat.zero_le _),
      bind_get h e.openCloseSettlFlag _ (by simp [writes38]) (Nat.zero_le _),
      bind_get h e.settlPriceType _ (by simp [writes38]) (Nat.zero_le _),
      bind_get h e.mDEntryType _ (by simp [writes38]) (Nat.zero_le _), pure_apply]
    rfl

/-- The entries of a `SnapshotFullRefreshOrderBook44` -/
def snapshot44 : Format Entry44 where
  entryLength := SnapshotFullRefreshOrderBook44.NoMDEntries.sbeBlockLength
  sinceVersion := 0
  read := entry44
  writes := writes44
  book := Entry44.book
  within :=
    (within_get (by decide)).bind fun _ => (within_get (by decide)).bind fun _ =>
    (within_priceOf (by decide)).bind fun _ => (within_get (by decide)).bind fun _ =>
    (within_get (by decide)).bind fun _ => (MDEntryType.within_get _ _).bind fun _ => .pure _
  fits _ := fits_of_extents
    [(0, 8), (8, 8), (16, 8), (24, 4), (28, 1)] rfl (by decide) (by decide)
  read_eq e block version _ h := by
    unfold entry44
    rw [bind_get h e.orderID _ (by simp [writes44]) (Nat.zero_le _),
      bind_get h e.mDOrderPriority _ (by simp [writes44]) (Nat.zero_le _),
      bind_price h e.mDEntryPx _ (by simp [writes44]) (Nat.zero_le _),
      bind_get h e.mDDisplayQty _ (by simp [writes44]) (Nat.zero_le _),
      bind_get h e.mDEntryType.value _ (by simp [writes44]) (Nat.zero_le _),
      bind_entryType e.mDEntryType, pure_apply]
    rfl

end Format

/-! ## What was sent is parsed -/

section

variable {E : Type} {f : Format E} {blockLength version : Nat} {es : List E}
  {blocks : List (List UInt8)}

/-- Each block gives the book of its entry. -/
theorem Format.Sent.mapM_eq (h : f.Sent blockLength es blocks) (hversion : f.sinceVersion ≤ version) :
    blocks.mapM (fun b => f.read ⟨b, 0, version⟩) = .ok (es.map f.book) := by
  have hblocks := h.2
  clear h
  induction hblocks with
  | nil => rfl
  | cons hblock _ ih =>
    rw [List.mapM_cons, f.read_eq _ _ version hversion hblock.2, Except.ok_bind, ih]
    rfl

/-- The loop over the first group gives the books of the entries. -/
theorem Format.Sent.group_eq (h : f.Sent blockLength es blocks) {templateId acting : UInt16}
    {root group rest buffer : List UInt8} (hversion : f.sinceVersion ≤ acting.toNat)
    (hgroup : groupSize.IsGroup blockLength blocks group)
    (hmessage : IsMessage templateId acting root (group ++ rest) buffer) :
    ∃ body, SbeBody.group groupSize f.read ⟨⟨buffer, MessageHeader.encodedLength, acting.toNat⟩,
      MessageHeader.encodedLength + root.length⟩ = .ok (es.map f.book, body) := by
  obtain ⟨before, hbuffer, hposition⟩ := first_group hmessage
  rw [Cme.group_eq f.within h.1 hgroup hbuffer hposition, h.mapM_eq hversion, Except.ok_bind]
  exact ⟨_, rfl⟩

end

/-- The templates of the increments, but for 43, whose entries are ignored -/
inductive IncrementTemplate where
  | channelReset4 | book32 | dailyStatistics33 | limitsBanding34 | sessionStatistics35 | trade36
  | volume37 | tradeSummary42
deriving DecidableEq, Repr

namespace IncrementTemplate

/-- The entries that a template carries -/
def Entry : IncrementTemplate → Type
  | channelReset4 => Entry4
  | book32 => Entry32
  | dailyStatistics33 => Entry33
  | limitsBanding34 => Entry34
  | sessionStatistics35 => Entry35
  | trade36 => Entry36
  | volume37 => Entry37
  | tradeSummary42 => Entry42

/-- The number of a template -/
def templateId : IncrementTemplate → UInt16
  | channelReset4 => ChannelReset4.sbeTemplateId
  | book32 => MDIncrementalRefreshBook32.sbeTemplateId
  | dailyStatistics33 => MDIncrementalRefreshDailyStatistics33.sbeTemplateId
  | limitsBanding34 => MDIncrementalRefreshLimitsBanding34.sbeTemplateId
  | sessionStatistics35 => MDIncrementalRefreshSessionStatistics35.sbeTemplateId
  | trade36 => MDIncrementalRefreshTrade36.sbeTemplateId
  | volume37 => MDIncrementalRefreshVolume37.sbeTemplateId
  | tradeSummary42 => MDIncrementalRefreshTradeSummary42.sbeTemplateId

/-- How the entries of a template are written and read -/
def format : (t : IncrementTemplate) → Format t.Entry
  | channelReset4 => Format.reset4
  | book32 => Format.book32
  | dailyStatistics33 => Format.dailyStatistics33
  | limitsBanding34 => Format.limitsBanding34
  | sessionStatistics35 => Format.sessionStatistics35
  | trade36 => Format.trade36
  | volume37 => Format.volume37
  | tradeSummary42 => Format.tradeSummary42

variable (t : IncrementTemplate)

/-- The parser reads the entries of a template in its format. -/
theorem entry?_templateId : MessageParserX.entry? t.templateId = some t.format.read := by
  cases t <;> rfl

/-- The decoder knows the templates. -/
theorem templateId_mem : t.templateId ∈ SBEDecoder.templates := by cases t <;> decide

/-- They are increments. -/
theorem messageType_templateId : MdpMessage.messageType t.templateId = .ok 'X' := by
  cases t <;> rfl

end IncrementTemplate

section

variable {version : UInt16} {root group rest : List UInt8} {blockLength : Nat}
  {blocks : List (List UInt8)}

/-- The event bits can be read from any root block that has them. -/
theorem matchEventIndicator_ok (acting : Nat) (hroot : 9 ≤ root.length) :
    ∃ bits, Increment.matchEventIndicator.get ⟨root, 0, acting⟩ = .ok bits := by
  have hwrap : wrap 8 1 ⟨root, 0, acting⟩ = .ok () := if_neg (by dsimp only; omega)
  have hbytes : bytes 8 1 ⟨root, 0, acting⟩ = .ok ((root.drop 8).take 1) := by
    unfold bytes Cxx.bytesAt
    rewrite [if_pos (by dsimp only; omega)]
    rfl
  refine ⟨.ofNat (Cxx.ofBytes ((root.drop 8).take 1)), ?_⟩
  show (wrap 8 1 >>= fun _ => uint8 8) _ = _
  rw [bind_ok _ hwrap, uint8, bind_ok _ hbytes, pure_apply]

/-- An increment is parsed as it was sent: the books of its entries, in their order. The sender may
    use a later version of the schema. -/
theorem parse_increment (t : IncrementTemplate) {es : List t.Entry} {m : MdpMessage}
    (hmessage : IsMessage t.templateId version root (group ++ rest) m.buffer)
    (hroot : 9 ≤ root.length) (hgroup : groupSize.IsGroup blockLength blocks group)
    (hsent : t.format.Sent blockLength es blocks)
    (hversion : t.format.sinceVersion ≤ version.toNat) :
    m.parse = .ok ⟨m.packetSeqNum, .increment t.templateId (es.map t.format.book)⟩ := by
  obtain ⟨bits, hbits⟩ := matchEventIndicator_ok version.toNat hroot
  -- the bits of the event are read first, and not used
  have hindicator := root_run (within_get (f := Increment.matchEventIndicator) (Nat.le_refl 9))
    hroot hmessage version.toNat
  rw [hbits] at hindicator
  obtain ⟨body, hentries⟩ := hsent.group_eq hversion hgroup hmessage
  -- the entries come next, in one group
  have hparse : MessageParserX.parse t.templateId
      ⟨⟨m.buffer, MessageHeader.encodedLength, version.toNat⟩,
        MessageHeader.encodedLength + root.length⟩ = .ok (es.map t.format.book) := by
    unfold MessageParserX.parse
    rw [t.entry?_templateId]
    dsimp only
    rw [MessageParserX.parseEntries, hentries, Except.ok_bind]
    dsimp only
    rw [hindicator, Except.ok_bind]
    rfl
  refine parse_eq t.templateId_mem hmessage ?_
  unfold MdpMessage.parseBody
  rw [t.messageType_templateId, Except.ok_bind]
  dsimp only
  rw [hparse]
  rfl

/-! ### Recovery messages -/

open SnapshotFullRefresh38 in
/-- A recovery message is parsed as it was sent, with the number and the security of its root
    block. -/
theorem parse_snapshot38 {r : Root38} {es : List Entry38} {m : MdpMessage}
    (hmessage : IsMessage sbeTemplateId version root (group ++ rest) m.buffer)
    (hroot : HoldsAll root (rootWrites38 r)) (hgroup : groupSize.IsGroup blockLength blocks group)
    (hsent : Format.snapshot38.Sent blockLength es blocks) :
    m.parse = .ok ⟨m.packetSeqNum,
      .snapshot r.lastMsgSeqNumProcessed r.securityID.toUInt32 (es.map Entry38.book)⟩ := by
  obtain ⟨body, hentries⟩ := hsent.group_eq (Nat.zero_le _) hgroup hmessage
  -- the root block holds every field of the message
  have hget {α : Type} (f : BlockField α) (a : α) (hmem : f.put a ∈ rootWrites38 r)
      (hversion : f.sinceVersion = 0) :
      f.get ⟨m.buffer, MessageHeader.encodedLength, version.toNat⟩ = .ok a :=
    root_get hmessage hroot a hmem (by omega)
  -- a price is its mantissa with the exponent of the schema
  have hprice (f : BlockField Int64) (a : Int64) (hmem : f.put a ∈ rootWrites38 r)
      (hversion : f.sinceVersion = 0) :
      priceOf f ⟨m.buffer, MessageHeader.encodedLength, version.toNat⟩ = .ok (a, exponent) := by
    rw [priceOf, bind_ok _ (hget f a hmem hversion), pure_apply]
  have hparse : MessageParserW.parse38
      ⟨⟨m.buffer, MessageHeader.encodedLength, version.toNat⟩,
        MessageHeader.encodedLength + root.length⟩ =
      .ok (r.lastMsgSeqNumProcessed, r.securityID.toUInt32, es.map Entry38.book) := by
    unfold MessageParserW.parse38
    rw [show MessageParserW.entry38 = Format.snapshot38.read from rfl, hentries, Except.ok_bind]
    dsimp only
    rw [hget _ r.lastMsgSeqNumProcessed (by simp [rootWrites38]) rfl, Except.ok_bind,
      hget _ r.securityID (by simp [rootWrites38]) rfl, Except.ok_bind,
      hget _ r.rptSeq (by simp [rootWrites38]) rfl, Except.ok_bind,
      hprice _ r.highLimitPrice (by simp [rootWrites38]) rfl, Except.ok_bind,
      hprice _ r.lowLimitPrice (by simp [rootWrites38]) rfl, Except.ok_bind,
      hprice _ r.maxPriceVariation (by simp [rootWrites38]) rfl, Except.ok_bind]
    rfl
  -- the template is of the type of a snapshot
  refine parse_eq (by decide) hmessage ?_
  unfold MdpMessage.parseBody
  rw [show MdpMessage.messageType sbeTemplateId = .ok 'W' from rfl, Except.ok_bind]
  dsimp only
  rw [show MessageParserW.parse sbeTemplateId = MessageParserW.parse38 from rfl, hparse]
  rfl

open SnapshotFullRefreshOrderBook44 in
/-- A snapshot of the order book is parsed as it was written. -/
theorem parse_snapshot44 {r : Root44} {es : List Entry44} {m : MdpMessage}
    (hmessage : IsMessage sbeTemplateId version root (group ++ rest) m.buffer)
    (hroot : HoldsAll root (rootWrites44 r)) (hgroup : groupSize.IsGroup blockLength blocks group)
    (hsent : Format.snapshot44.Sent blockLength es blocks) :
    m.parse = .ok ⟨m.packetSeqNum,
      .snapshot r.lastMsgSeqNumProcessed r.securityID.toUInt32 (es.map Entry44.book)⟩ := by
  obtain ⟨body, hentries⟩ := hsent.group_eq (Nat.zero_le _) hgroup hmessage
  -- the root block holds every field of the message
  have hget {α : Type} (f : BlockField α) (a : α) (hmem : f.put a ∈ rootWrites44 r)
      (hversion : f.sinceVersion = 0) :
      f.get ⟨m.buffer, MessageHeader.encodedLength, version.toNat⟩ = .ok a :=
    root_get hmessage hroot a hmem (by omega)
  have hparse : MessageParserW.parse44
      ⟨⟨m.buffer, MessageHeader.encodedLength, version.toNat⟩,
        MessageHeader.encodedLength + root.length⟩ =
      .ok (r.lastMsgSeqNumProcessed, r.securityID.toUInt32, es.map Entry44.book) := by
    unfold MessageParserW.parse44
    rw [show MessageParserW.entry44 = Format.snapshot44.read from rfl, hentries, Except.ok_bind]
    dsimp only
    rw [hget _ r.lastMsgSeqNumProcessed (by simp [rootWrites44]) rfl, Except.ok_bind,
      hget _ r.securityID (by simp [rootWrites44]) rfl, Except.ok_bind]
    rfl
  refine parse_eq (by decide) hmessage ?_
  unfold MdpMessage.parseBody
  rw [show MdpMessage.messageType sbeTemplateId = .ok 'W' from rfl, Except.ok_bind]
  dsimp only
  rw [show MessageParserW.parse sbeTemplateId = MessageParserW.parse44 from rfl, hparse]
  rfl

/-! ### All of them -/

namespace Draw

/-- The body that a message is parsed to -/
def body : Draw → Body
  | channelReset4 _ es => .increment ChannelReset4.sbeTemplateId (es.map Entry4.book)
  | book32 _ es _ => .increment MDIncrementalRefreshBook32.sbeTemplateId (es.map Entry32.book)
  | dailyStatistics33 _ es =>
    .increment MDIncrementalRefreshDailyStatistics33.sbeTemplateId (es.map Entry33.book)
  | limitsBanding34 _ es =>
    .increment MDIncrementalRefreshLimitsBanding34.sbeTemplateId (es.map Entry34.book)
  | sessionStatistics35 _ es =>
    .increment MDIncrementalRefreshSessionStatistics35.sbeTemplateId (es.map Entry35.book)
  | trade36 _ es => .increment MDIncrementalRefreshTrade36.sbeTemplateId (es.map Entry36.book)
  | volume37 _ es => .increment MDIncrementalRefreshVolume37.sbeTemplateId (es.map Entry37.book)
  | tradeSummary42 _ es _ =>
    .increment MDIncrementalRefreshTradeSummary42.sbeTemplateId (es.map Entry42.book)
  | snapshot38 r es =>
    .snapshot r.lastMsgSeqNumProcessed r.securityID.toUInt32 (es.map Entry38.book)
  | snapshot44 r es =>
    .snapshot r.lastMsgSeqNumProcessed r.securityID.toUInt32 (es.map Entry44.book)

/-- The number of the template of a drawn message -/
def templateId : Draw → UInt16
  | channelReset4 .. => ChannelReset4.sbeTemplateId
  | book32 .. => MDIncrementalRefreshBook32.sbeTemplateId
  | dailyStatistics33 .. => MDIncrementalRefreshDailyStatistics33.sbeTemplateId
  | limitsBanding34 .. => MDIncrementalRefreshLimitsBanding34.sbeTemplateId
  | sessionStatistics35 .. => MDIncrementalRefreshSessionStatistics35.sbeTemplateId
  | trade36 .. => MDIncrementalRefreshTrade36.sbeTemplateId
  | volume37 .. => MDIncrementalRefreshVolume37.sbeTemplateId
  | tradeSummary42 .. => MDIncrementalRefreshTradeSummary42.sbeTemplateId
  | snapshot38 .. => SnapshotFullRefresh38.sbeTemplateId
  | snapshot44 .. => SnapshotFullRefreshOrderBook44.sbeTemplateId

/-- What the setters write to the root block -/
def rootBlock : Draw → Writes
  | channelReset4 r _ | book32 r _ _ | dailyStatistics33 r _ | limitsBanding34 r _
  | sessionStatistics35 r _ | trade36 r _ | volume37 r _ | tradeSummary42 r _ _ => rootWrites r
  | snapshot38 r _ => rootWrites38 r
  | snapshot44 r _ => rootWrites44 r

/-- The blocks of the first group hold the entries, and have the fields that are read. -/
def EntriesSent (version blockLength : Nat) (blocks : List (List UInt8)) : Draw → Prop
  | channelReset4 _ es =>
    Format.reset4.Sent blockLength es blocks ∧ Format.reset4.sinceVersion ≤ version
  | book32 _ es _ => Format.book32.Sent blockLength es blocks
  | dailyStatistics33 _ es => Format.dailyStatistics33.Sent blockLength es blocks
  | limitsBanding34 _ es => Format.limitsBanding34.Sent blockLength es blocks
  | sessionStatistics35 _ es =>
    Format.sessionStatistics35.Sent blockLength es blocks ∧
      Format.sessionStatistics35.sinceVersion ≤ version
  | trade36 _ es => Format.trade36.Sent blockLength es blocks
  | volume37 _ es => Format.volume37.Sent blockLength es blocks
  | tradeSummary42 _ es _ =>
    Format.tradeSummary42.Sent blockLength es blocks ∧
      Format.tradeSummary42.sinceVersion ≤ version
  | snapshot38 _ es => Format.snapshot38.Sent blockLength es blocks
  | snapshot44 _ es => Format.snapshot44.Sent blockLength es blocks

/-- The bytes are a message with these values, in a version of the schema that has them. It may be a
    later one: its blocks may be longer, and anything may follow the first group. -/
def Sent (d : Draw) (version : UInt16) (buffer : List UInt8) : Prop :=
  ∃ root group rest blockLength blocks,
    IsMessage d.templateId version root (group ++ rest) buffer ∧ HoldsAll root d.rootBlock ∧
      groupSize.IsGroup blockLength blocks group ∧
      d.EntriesSent version.toNat blockLength blocks

/-- A message is parsed as it was sent. -/
theorem Sent.parse_eq {d : Draw} {m : MdpMessage} (h : d.Sent version m.buffer) :
    m.parse = .ok ⟨m.packetSeqNum, d.body⟩ := by
  obtain ⟨root, group, rest, blockLength, blocks, hmessage, hroot, hgroup, hsent⟩ := h
  -- the event bits are in the root block of an increment
  have hindicator {r : IncrementRoot} (hr : HoldsAll root (rootWrites r)) : 9 ≤ root.length := by
    have hle := (hr (Increment.matchEventIndicator.put r.matchEventIndicator)
      (by simp [rootWrites])).le_length
    rw [BlockField.put_fst, BlockField.length_put] at hle
    exact hle
  -- one case for each template that the encoder draws
  cases d with
  | channelReset4 r es =>
    exact parse_increment .channelReset4 hmessage (hindicator hroot) hgroup hsent.1 hsent.2
  | book32 r es orders =>
    exact parse_increment .book32 hmessage (hindicator hroot) hgroup hsent (Nat.zero_le _)
  | dailyStatistics33 r es =>
    exact parse_increment .dailyStatistics33 hmessage (hindicator hroot) hgroup hsent (Nat.zero_le _)
  | limitsBanding34 r es =>
    exact parse_increment .limitsBanding34 hmessage (hindicator hroot) hgroup hsent (Nat.zero_le _)
  | sessionStatistics35 r es =>
    exact parse_increment .sessionStatistics35 hmessage (hindicator hroot) hgroup hsent.1 hsent.2
  | trade36 r es =>
    exact parse_increment .trade36 hmessage (hindicator hroot) hgroup hsent (Nat.zero_le _)
  | volume37 r es =>
    exact parse_increment .volume37 hmessage (hindicator hroot) hgroup hsent (Nat.zero_le _)
  | tradeSummary42 r es orders =>
    exact parse_increment .tradeSummary42 hmessage (hindicator hroot) hgroup hsent.1 hsent.2
  | snapshot38 r es => exact parse_snapshot38 hmessage hroot hgroup hsent
  | snapshot44 r es => exact parse_snapshot44 hmessage hroot hgroup hsent

end Draw

/-! ### Definitions -/

/-- What the root block of a definition says of the security -/
structure DefinitionRoot where
  applID : Int16
  securityID : Int32
  securityUpdateAction : { v : UInt8 // v ∈ SecurityUpdateAction.values }
  symbol : List UInt8
  minPriceIncrement : Int64
  highLimitPrice : Int64
  lowLimitPrice : Int64

/-- Where the values are, but for the symbol -/
def definitionWrites (d : Definition) (r : DefinitionRoot) : Writes :=
  [Definition.applID.put r.applID, Definition.securityID.put r.securityID,
    Definition.securityUpdateAction.put r.securityUpdateAction,
    d.minPriceIncrement.put r.minPriceIncrement, d.highLimitPrice.put r.highLimitPrice,
    d.lowLimitPrice.put r.lowLimitPrice]

/-- The root block of a definition holds the values. -/
structure DefinitionRoot.In (r : DefinitionRoot) (d : Definition) (root : List UInt8) : Prop where
  fields : HoldsAll root (definitionWrites d r)
  symbol : Holds root 35 r.symbol
  length_symbol : r.symbol.length = 20

/-- A book that the security has, and its depth -/
structure FeedType where
  mDFeedType : List UInt8
  marketDepth : Int8
  length_eq : mDFeedType.length = 3

/-- The fields of a feed type in its block -/
def FeedType.writes (t : FeedType) : Writes :=
  [(0, t.mDFeedType), Definition.NoMDFeedTypes.marketDepth.put t.marketDepth]

/-- The depth of the book with real orders -/
def FeedType.depthGBX (t : FeedType) : Option UInt8 :=
  if t.mDFeedType == "GBX".toUTF8.toList then some t.marketDepth.toUInt8 else none

open MessageParserD in
/-- A feed type is read within its block. -/
theorem within_feedType : Within feedType Definition.NoMDFeedTypes.sbeBlockLength :=
  (Within.bytes (by decide)).bind fun _ => (within_get (by decide)).bind fun _ => .pure _

open MessageParserD in
/-- What the parser makes of a feed type -/
theorem feedType_eq {t : FeedType} {block : List UInt8} {acting : Nat}
    (h : HoldsAll block t.writes) : feedType ⟨block, 0, acting⟩ = .ok t.depthGBX := by
  have htype : Definition.NoMDFeedTypes.mDFeedType ⟨block, 0, acting⟩ = .ok t.mDFeedType :=
    bytes_eq (h (0, t.mDFeedType) (by simp [FeedType.writes])) t.length_eq
  rw [feedType, bind_ok _ htype, bind_get h t.marketDepth _ (by simp [FeedType.writes])
    (Nat.zero_le _), pure_apply]
  rfl

/-- The feed types are read block by block. -/
theorem mapM_feedType {types : List FeedType} {acting : Nat}
    (h : List.Forall₂ (IsBlock blockLength FeedType.writes) types blocks) :
    blocks.mapM (fun b => MessageParserD.feedType ⟨b, 0, acting⟩) =
      .ok (types.map FeedType.depthGBX) := by
  induction h with
  | nil => rfl
  | cons hblock _ ih =>
    rw [List.mapM_cons, feedType_eq hblock.2, Except.ok_bind, ih]
    rfl

/-- What is skipped is read without a fault. -/
theorem mapM_skip {acting : Nat} :
    blocks.mapM (fun b => (pure () : Accessor Unit) ⟨b, 0, acting⟩) =
      .ok (blocks.map fun _ => ()) := by
  induction blocks with
  | nil => rfl
  | cons b blocks ih =>
    rw [List.mapM_cons, pure_apply, Except.ok_bind, ih]
    rfl

/-- The instrument of a definition -/
def DefinitionRoot.instrument (r : DefinitionRoot) (types : List FeedType) : Instrument where
  securityUpdateAction := Char.ofNat r.securityUpdateAction.val.toNat
  securityID := r.securityID.toUInt32
  symbol := trimNull r.symbol
  minPriceIncrement := (r.minPriceIncrement, exponent)
  highLimitPrice := (r.highLimitPrice, exponent)
  lowLimitPrice := (r.lowLimitPrice, exponent)
  depthGBX := (types.filterMap FeedType.depthGBX).getLast?.getD 0

/-- The instrument is made of the root block and of the second group, whatever the events of the first
    are and whatever follows. -/
theorem parseX_eq {d : Definition} {templateId : UInt16} {r : DefinitionRoot}
    {types : List FeedType} {events : List (List UInt8)} {buffer eventGroup typeGroup : List UInt8}
    {eventLength typeLength : Nat}
    (hmessage : IsMessage templateId version root (eventGroup ++ (typeGroup ++ rest)) buffer)
    (hroot : r.In d root) (hsince : d.minPriceIncrement.sinceVersion = 0 ∧
      d.highLimitPrice.sinceVersion = 0 ∧ d.lowLimitPrice.sinceVersion = 0)
    (hevents : groupSize.IsGroup eventLength events eventGroup)
    (htypes : groupSize.IsGroup typeLength blocks typeGroup)
    (hlen : Definition.NoMDFeedTypes.sbeBlockLength ≤ typeLength)
    (hsent : List.Forall₂ (IsBlock typeLength FeedType.writes) types blocks) :
    MessageParserD.parseX d ⟨⟨buffer, MessageHeader.encodedLength, version.toNat⟩,
      MessageHeader.encodedLength + root.length⟩ = .ok (r.instrument types) := by
  -- the root block holds the numbers, and the symbol as bytes
  have hget {α : Type} (f : BlockField α) (a : α) (hmem : f.put a ∈ definitionWrites d r)
      (hversion : f.sinceVersion = 0) :
      f.get ⟨buffer, MessageHeader.encodedLength, version.toNat⟩ = .ok a :=
    root_get hmessage hroot.fields a hmem (by omega)
  have hprice (f : BlockField Int64) (a : Int64) (hmem : f.put a ∈ definitionWrites d r)
      (hversion : f.sinceVersion = 0) :
      priceOf f ⟨buffer, MessageHeader.encodedLength, version.toNat⟩ = .ok (a, exponent) := by
    rw [priceOf, bind_ok _ (hget f a hmem hversion), pure_apply]
  have hsymbol : Definition.symbol ⟨buffer, MessageHeader.encodedLength, version.toNat⟩ =
      .ok r.symbol := by
    have hle := hroot.symbol.le_length
    rw [hroot.length_symbol] at hle
    rw [Definition.symbol, root_run (Within.bytes (Nat.le_refl (35 + 20))) hle hmessage]
    exact bytes_eq hroot.symbol hroot.length_symbol
  obtain ⟨before, hbuffer, hposition⟩ := first_group hmessage
  -- the events are skipped
  have hfirst : SbeBody.group groupSize (pure ())
      ⟨⟨buffer, MessageHeader.encodedLength, version.toNat⟩,
        MessageHeader.encodedLength + root.length⟩ = .ok (events.map fun _ => (),
      ⟨⟨buffer, MessageHeader.encodedLength, version.toNat⟩,
        MessageHeader.encodedLength + root.length + eventGroup.length⟩) := by
    rw [group_eq (.pure ()) (Nat.zero_le _) hevents hbuffer hposition, mapM_skip]
    rfl
  -- the second group is found where the first one ends
  have hsecond : SbeBody.group groupSize MessageParserD.feedType
      ⟨⟨buffer, MessageHeader.encodedLength, version.toNat⟩,
        MessageHeader.encodedLength + root.length + eventGroup.length⟩ =
      .ok (types.map FeedType.depthGBX, ⟨⟨buffer, MessageHeader.encodedLength, version.toNat⟩,
        MessageHeader.encodedLength + root.length + eventGroup.length + typeGroup.length⟩) := by
    have hbuffer' : buffer = before ++ eventGroup ++ (typeGroup ++ rest) := by
      rw [hbuffer, List.append_assoc]
    rw [group_eq within_feedType hlen htypes hbuffer' (by rw [List.length_append, ← hposition]),
      mapM_feedType hsent]
    rfl
  unfold MessageParserD.parseX
  dsimp only
  rw [hget _ r.applID (by simp [definitionWrites]) rfl, Except.ok_bind,
    hget _ r.securityID (by simp [definitionWrites]) rfl, Except.ok_bind,
    hget _ r.securityUpdateAction (by simp [definitionWrites]) rfl, Except.ok_bind, hsymbol, Except.ok_bind,
    hprice _ r.minPriceIncrement (by simp [definitionWrites]) hsince.1, Except.ok_bind,
    hprice _ r.highLimitPrice (by simp [definitionWrites]) hsince.2.1, Except.ok_bind,
    hprice _ r.lowLimitPrice (by simp [definitionWrites]) hsince.2.2, Except.ok_bind, hfirst]
  rw [Except.ok_bind]
  dsimp only
  rw [hsecond, Except.ok_bind]
  dsimp only
  rw [List.filterMap_map]
  rfl

/-- The templates of the definitions -/
def definitions : List Definition :=
  [MDInstrumentDefinitionFuture27, MDInstrumentDefinitionSpread29, MDInstrumentDefinitionOption41]

/-- A definition is parsed as it was sent. -/
theorem parse_definition {d : Definition} (hd : d ∈ definitions) {r : DefinitionRoot}
    {types : List FeedType} {events : List (List UInt8)} {m : MdpMessage}
    {eventGroup typeGroup : List UInt8} {eventLength typeLength : Nat}
    (hmessage : IsMessage d.sbeTemplateId version root (eventGroup ++ (typeGroup ++ rest)) m.buffer)
    (hroot : r.In d root) (hevents : groupSize.IsGroup eventLength events eventGroup)
    (htypes : groupSize.IsGroup typeLength blocks typeGroup)
    (hlen : Definition.NoMDFeedTypes.sbeBlockLength ≤ typeLength)
    (hsent : List.Forall₂ (IsBlock typeLength FeedType.writes) types blocks) :
    m.parse = .ok ⟨m.packetSeqNum, .definition (r.instrument types)⟩ := by
  -- the three templates differ in their places only
  have hknown : d.sbeTemplateId ∈ SBEDecoder.templates ∧
      MdpMessage.messageType d.sbeTemplateId = .ok 'd' ∧
      (∀ body, MessageParserD.parse d.sbeTemplateId body =
        some <$> MessageParserD.parseX d body) ∧
      d.minPriceIncrement.sinceVersion = 0 ∧ d.highLimitPrice.sinceVersion = 0 ∧
      d.lowLimitPrice.sinceVersion = 0 := by
    simp only [definitions, List.mem_cons, List.not_mem_nil, or_false] at hd
    obtain rfl | rfl | rfl := hd <;> exact ⟨by decide, rfl, fun _ => rfl, rfl, rfl, rfl⟩
  obtain ⟨htemplate, htype, hparser, hsince⟩ := hknown
  refine parse_eq htemplate hmessage ?_
  unfold MdpMessage.parseBody
  rw [htype, Except.ok_bind]
  dsimp only
  rw [hparser, parseX_eq hmessage hroot hsince hevents htypes hlen hsent]
  rfl

/-! A future with one event, and two books -/

/-- The fields of a future -/
def futureRoot : DefinitionRoot :=
  ⟨0, 42, ⟨65, by decide⟩, [69, 83] ++ List.replicate 18 0, 9, 0, 0⟩

/-- Its root block -/
def futureBlock : List UInt8 :=
  List.replicate 5 0 ++ [65] ++ List.replicate 29 0 ++ [69, 83] ++ List.replicate 18 0 ++ [42] ++
    List.replicate 35 0 ++ [9] ++ List.replicate 124 0

/-- One event, which is skipped -/
def futureEvents : List UInt8 := [9, 0, 1] ++ List.replicate 9 0

/-- Two feed types, of which the second is implied -/
def futureTypes : List UInt8 := [4, 0, 2, 71, 66, 88, 10, 71, 66, 73, 2]

/-- The message as it is received -/
def futureMessage : MdpMessage where
  packetLength := 261
  packetSeqNum := 5
  packetSendingTime := 1
  messageLength := 247
  buffer := [216, 0, 27, 0, 1, 0, 8, 0] ++ (futureBlock ++ (futureEvents ++ futureTypes))

theorem parse_definition_future :
    futureMessage.parse =
      .ok ⟨5, .definition ⟨'A', 42, "ES", (9, -7), (0, -7), (0, -7), 10⟩⟩ := by
  have hmessage : IsMessage MDInstrumentDefinitionFuture27.sbeTemplateId 8 futureBlock
      (futureEvents ++ (futureTypes ++ [])) futureMessage.buffer :=
    ⟨[216, 0, 27, 0, 1, 0, 8, 0], rfl, rfl, by decide +kernel, by decide +kernel⟩
  have hroot : futureRoot.In MDInstrumentDefinitionFuture27 futureBlock :=
    ⟨by decide +kernel, by decide +kernel, rfl⟩
  have hevents : groupSize.IsGroup 9 [List.replicate 9 0] futureEvents :=
    ⟨[9, 0, 1], rfl, ⟨rfl, by decide, by decide, by decide, by decide⟩, by decide⟩
  have htypes : groupSize.IsGroup 4 [[71, 66, 88, 10], [71, 66, 73, 2]] futureTypes :=
    ⟨[4, 0, 2], rfl, ⟨rfl, by decide, by decide, by decide, by decide⟩, by decide⟩
  have hsent : List.Forall₂ (IsBlock 4 FeedType.writes)
      [⟨[71, 66, 88], 10, rfl⟩, ⟨[71, 66, 73], 2, rfl⟩] [[71, 66, 88, 10], [71, 66, 73, 2]] :=
    .cons ⟨rfl, by decide⟩ (.cons ⟨rfl, by decide⟩ .nil)
  have hinstrument : futureRoot.instrument [⟨[71, 66, 88], 10, rfl⟩, ⟨[71, 66, 73], 2, rfl⟩] =
      ⟨'A', 42, "ES", (9, -7), (0, -7), (0, -7), 10⟩ := by decide +kernel
  rw [← hinstrument]
  exact parse_definition (by simp [definitions]) hmessage hroot hevents htypes (by decide) hsent

/-! ### Status -/

open SecurityStatus30 in
/-- A status is parsed as it was sent. -/
theorem parse_status {id : Int32} {status : SecurityTradingStatus} {m : MdpMessage}
    (hmessage : IsMessage sbeTemplateId version root rest m.buffer)
    (hroot : HoldsAll root [securityID.put id, securityTradingStatus.put status]) :
    m.parse = .ok ⟨m.packetSeqNum, .status id.toUInt32 status⟩ := by
  refine parse_eq (by decide) hmessage ?_
  have hid := root_get hmessage hroot (f := securityID) id (by simp) (Nat.zero_le _)
  have hstatus := root_get hmessage hroot (f := securityTradingStatus) status (by simp)
    (Nat.zero_le _)
  unfold MdpMessage.parseBody
  rw [show MdpMessage.messageType sbeTemplateId = .ok 'f' from rfl, Except.ok_bind]
  dsimp only
  rw [MessageParserF.parse30, hid, Except.ok_bind, hstatus, Except.ok_bind]
  rfl

end

end FixHandler.Cme
