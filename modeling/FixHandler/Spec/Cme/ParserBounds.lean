import Mathlib
import FixHandler.Spec.Cme.ParserCorrect

/-!
# The parsers read inside the message

The accessors do not look where the buffer ends. What keeps their reads inside is that the lengths a
message announces are checked against the buffer; it has to announce blocks that are not shorter than
those the classes were made for.

## Key results

- `startDecode_inside`: decoding reads inside the buffer, whatever is in it
- `group_inside`: a group is read inside, if its blocks are not too short
- `parse_inside`: and so is a message; it has as many entries as it announces
-/

namespace FixHandler.Cme

open Sbe Mktdata

/-! ## Decoding -/

/-- Starting to decode reads the header only, and leaves the root block inside the buffer. -/
theorem startDecode_inside (buffer : List UInt8) :
    Inside (SBEDecoder.startDecode buffer) fun r => ∀ body, r.2 = some body →
      body.root.buffer = buffer ∧ body.root.offset ≤ body.position ∧
        body.position ≤ buffer.length := by
  unfold SBEDecoder.startDecode
  refine (wrap_inside 0 MessageHeader.encodedLength).bind fun _ _ hlen => ?_
  -- the header lies in the buffer, with all of its fields
  have hlen8 : (⟨buffer, 0, 0⟩ : View).offset + 8 ≤ (⟨buffer, 0, 0⟩ : View).buffer.length := by
    simpa [MessageHeader.encodedLength] using hlen
  refine ((MessageHeader.templateId.within.mono (by decide)).insideOf hlen8).bind
    fun templateId _ _ => ?_
  split
  · refine ((MessageHeader.blockLength.within.mono (by decide)).insideOf hlen8).bind
      fun blockLength _ _ => ?_
    refine ((MessageHeader.version.within.mono (by decide)).insideOf hlen8).bind
      fun version _ _ => ?_
    dsimp only
    split
    · exact .thrown _
    · next hlt =>
      refine .ok fun body hbody => ?_
      cases hbody
      exact ⟨rfl, Nat.le_add_right _ _, Nat.le_of_not_lt hlt⟩
  · refine .ok fun body hbody => ?_
    cases hbody

/-! ## Groups -/

/-- The group at a position has blocks of a length at least. -/
def Announces (buffer : List UInt8) (position length : Nat) : Prop :=
  ∀ r, groupSize.wrapForDecode buffer position = .ok r → length ≤ r.1.blockLength

variable {α : Type} {r : Accessor α} {size : Nat} {body : SbeBody}

/-- A group is read inside the buffer, block by block. -/
theorem group_inside (hr : Within r size)
    (h : Announces body.root.buffer body.position size) :
    Inside (body.group groupSize r) fun read => ∃ g : Group × Nat,
      groupSize.wrapForDecode body.root.buffer body.position = .ok g ∧
        read.1.length = g.1.count ∧ read.2.root = body.root ∧
          read.2.position = g.2 + g.1.count * g.1.blockLength := by
  unfold SbeBody.group
  refine (Dimensions.wrapForDecode_inside body.position).bind fun g hg _ => ?_
  refine (forEach_inside hr (h g hg) g.1.count g.2).bind fun read _ hread => ?_
  exact .ok ⟨g, hg, hread.1, rfl, hread.2⟩

/-- A field is read inside the buffer if its block is there. -/
theorem field_inside {f : BlockField α} {n : Nat} {v : View} (hf : f.place + f.size ≤ n)
    (hv : v.offset + n ≤ v.buffer.length) : Inside (f.get v) fun _ => True :=
  (f.within.mono hf).insideOf hv

/-- So is a price. -/
theorem price_inside {f : BlockField Int64} {n : Nat} {v : View} (hf : f.place + f.size ≤ n)
    (hv : v.offset + n ≤ v.buffer.length) : Inside (priceOf f v) fun _ => True :=
  ((f.within.mono hf).map).insideOf hv

/-! ## What the classes count on -/

/-- The length of the root block -/
def rootLength (templateId : UInt16) : Nat :=
  match templateId.toNat with
  | 4 => ChannelReset4.sbeBlockLength
  | 32 => MDIncrementalRefreshBook32.sbeBlockLength
  | 33 => MDIncrementalRefreshDailyStatistics33.sbeBlockLength
  | 34 => MDIncrementalRefreshLimitsBanding34.sbeBlockLength
  | 35 => MDIncrementalRefreshSessionStatistics35.sbeBlockLength
  | 36 => MDIncrementalRefreshTrade36.sbeBlockLength
  | 37 => MDIncrementalRefreshVolume37.sbeBlockLength
  | 42 => MDIncrementalRefreshTradeSummary42.sbeBlockLength
  | 38 => SnapshotFullRefresh38.sbeBlockLength
  | 44 => SnapshotFullRefreshOrderBook44.sbeBlockLength
  | 27 => MDInstrumentDefinitionFuture27.sbeBlockLength
  | 29 => MDInstrumentDefinitionSpread29.sbeBlockLength
  | 41 => MDInstrumentDefinitionOption41.sbeBlockLength
  | 30 => SecurityStatus30.sbeBlockLength
  | _ => 0

/-- The length of the blocks that are read -/
def entryLength (templateId : UInt16) : Nat :=
  match templateId.toNat with
  | 4 => ChannelReset4.NoMDEntries.sbeBlockLength
  | 32 => MDIncrementalRefreshBook32.NoMDEntries.sbeBlockLength
  | 33 => MDIncrementalRefreshDailyStatistics33.NoMDEntries.sbeBlockLength
  | 34 => MDIncrementalRefreshLimitsBanding34.NoMDEntries.sbeBlockLength
  | 35 => MDIncrementalRefreshSessionStatistics35.NoMDEntries.sbeBlockLength
  | 36 => MDIncrementalRefreshTrade36.NoMDEntries.sbeBlockLength
  | 37 => MDIncrementalRefreshVolume37.NoMDEntries.sbeBlockLength
  | 42 => MDIncrementalRefreshTradeSummary42.NoMDEntries.sbeBlockLength
  | 38 => SnapshotFullRefresh38.NoMDEntries.sbeBlockLength
  | 44 => SnapshotFullRefreshOrderBook44.NoMDEntries.sbeBlockLength
  | 27 | 29 | 41 => Definition.NoMDFeedTypes.sbeBlockLength
  | _ => 0

/-- Where the group of the entries is: that of a definition follows the events. -/
def AnnouncesEntries (templateId : UInt16) (body : SbeBody) : Prop :=
  match templateId.toNat with
  | 27 | 29 | 41 => ∀ events, groupSize.wrapForDecode body.root.buffer body.position = .ok events →
    Announces body.root.buffer (events.2 + events.1.count * events.1.blockLength)
      (entryLength templateId)
  | _ => Announces body.root.buffer body.position (entryLength templateId)

/-- What a message announces is not shorter than what the classes count on. -/
structure WellAnnounced (templateId : UInt16) (body : SbeBody) : Prop where
  root : body.root.offset + rootLength templateId ≤ body.position
  entries : AnnouncesEntries templateId body

/-! ## The parsers -/

/-- The entries of a template are read within their blocks. -/
theorem within_entry? {templateId : UInt16} {entry : Accessor Book}
    (h : MessageParserX.entry? templateId = some entry) :
    Within entry (entryLength templateId) ∧ 9 ≤ rootLength templateId ∧
      (AnnouncesEntries templateId body ↔
        Announces body.root.buffer body.position (entryLength templateId)) := by
  unfold MessageParserX.entry? at h
  unfold AnnouncesEntries entryLength rootLength
  split at h <;> cases h
  · next hid => rw [hid]; exact ⟨Format.reset4.within, by decide, Iff.rfl⟩
  · next hid => rw [hid]; exact ⟨Format.book32.within, by decide, Iff.rfl⟩
  · next hid => rw [hid]; exact ⟨Format.dailyStatistics33.within, by decide, Iff.rfl⟩
  · next hid => rw [hid]; exact ⟨Format.limitsBanding34.within, by decide, Iff.rfl⟩
  · next hid => rw [hid]; exact ⟨Format.sessionStatistics35.within, by decide, Iff.rfl⟩
  · next hid => rw [hid]; exact ⟨Format.trade36.within, by decide, Iff.rfl⟩
  · next hid => rw [hid]; exact ⟨Format.volume37.within, by decide, Iff.rfl⟩
  · next hid => rw [hid]; exact ⟨Format.tradeSummary42.within, by decide, Iff.rfl⟩

variable {templateId : UInt16}

/-- Entries are read inside the buffer if their blocks are as long as they should be. -/
theorem parseX_inside (hbody : body.position ≤ body.root.buffer.length)
    (h : WellAnnounced templateId body) :
    Inside (MessageParserX.parse templateId body) fun entries =>
      MessageParserX.entry? templateId ≠ none → ∃ g : Group × Nat,
        groupSize.wrapForDecode body.root.buffer body.position = .ok g ∧
          entries.length = g.1.count := by
  unfold MessageParserX.parse
  split
  · next entry hentry =>
    obtain ⟨hwithin, hroot, hannounces⟩ := within_entry? hentry
    unfold MessageParserX.parseEntries
    refine (group_inside hwithin (hannounces.mp h.entries)).bind fun read _ hread => ?_
    have hle := h.root
    refine (field_inside (n := 9) (by decide) (by omega)).bind fun _ _ _ => ?_
    obtain ⟨g, hg, hcount, -, -⟩ := hread
    exact .ok fun _ => ⟨g, hg, hcount⟩
  · next hnone => exact .ok fun hsome => absurd hnone hsome

/-- A snapshot is read inside the buffer. -/
theorem parseW_inside (hbody : body.position ≤ body.root.buffer.length)
    (h : WellAnnounced templateId body) :
    Inside (MessageParserW.parse templateId body) fun _ => True := by
  have hroot := h.root
  have hentries := h.entries
  unfold MessageParserW.parse
  split
  · next hid =>
    unfold rootLength at hroot
    unfold AnnouncesEntries entryLength at hentries
    rw [hid] at hroot hentries
    have hle : body.root.offset + 59 ≤ body.root.buffer.length := Nat.le_trans hroot hbody
    unfold MessageParserW.parse38
    -- the entries are read first, and then the root block
    refine (group_inside Format.snapshot38.within hentries).bind fun _ _ _ => ?_
    refine (field_inside (by decide) hle).bind fun _ _ _ => ?_
    refine (field_inside (by decide) hle).bind fun _ _ _ => ?_
    refine (field_inside (by decide) hle).bind fun _ _ _ => ?_
    refine (price_inside (by decide) hle).bind fun _ _ _ => ?_
    refine (price_inside (by decide) hle).bind fun _ _ _ => ?_
    refine (price_inside (by decide) hle).bind fun _ _ _ => ?_
    exact .ok trivial
  · next hid =>
    unfold rootLength at hroot
    unfold AnnouncesEntries entryLength at hentries
    rw [hid] at hroot hentries
    have hle : body.root.offset + 28 ≤ body.root.buffer.length := Nat.le_trans hroot hbody
    -- the other snapshot has a shorter root block
    unfold MessageParserW.parse44
    refine (group_inside Format.snapshot44.within hentries).bind fun _ _ _ => ?_
    refine (field_inside (by decide) hle).bind fun _ _ _ => ?_
    refine (field_inside (by decide) hle).bind fun _ _ _ => ?_
    exact .ok trivial
  · exact .ok trivial

/-- A definition reads its root block and its first two groups. -/
theorem parseX_definition_inside {d : Definition} {n : Nat}
    (hn : 59 ≤ n ∧ d.minPriceIncrement.place + d.minPriceIncrement.size ≤ n ∧
      d.highLimitPrice.place + d.highLimitPrice.size ≤ n ∧
      d.lowLimitPrice.place + d.lowLimitPrice.size ≤ n)
    (hroot : body.root.offset + n ≤ body.root.buffer.length)
    (h : ∀ events, groupSize.wrapForDecode body.root.buffer body.position = .ok events →
      Announces body.root.buffer (events.2 + events.1.count * events.1.blockLength)
        Definition.NoMDFeedTypes.sbeBlockLength) :
    Inside (MessageParserD.parseX d body) fun _ => True := by
  obtain ⟨h59, hmin, hhigh, hlow⟩ := hn
  have hfields : body.root.offset + 59 ≤ body.root.buffer.length := by omega
  unfold MessageParserD.parseX
  refine (field_inside (by decide) hfields).bind fun _ _ _ => ?_
  refine (field_inside (by decide) hfields).bind fun _ _ _ => ?_
  refine (field_inside (by decide) hfields).bind fun _ _ _ => ?_
  refine ((Within.bytes (by decide)).insideOf hfields).bind fun _ _ _ => ?_
  refine (price_inside hmin hroot).bind fun _ _ _ => ?_
  refine (price_inside hhigh hroot).bind fun _ _ _ => ?_
  refine (price_inside hlow hroot).bind fun _ _ _ => ?_
  -- events are skipped, whatever length they announce
  have hskip : Announces body.root.buffer body.position 0 := fun _ _ => Nat.zero_le _
  refine (group_inside (.pure ()) hskip).bind fun events _ hevents => ?_
  obtain ⟨g, hg, -, hsame, hposition⟩ := hevents
  -- the feed types are where the events end
  have htypes : Announces events.2.root.buffer events.2.position
      Definition.NoMDFeedTypes.sbeBlockLength := by
    rw [hsame, hposition]
    exact h g hg
  refine (group_inside within_feedType htypes).bind fun _ _ _ => ?_
  exact .ok trivial

/-- A definition is read inside the buffer. -/
theorem parseD_inside (hbody : body.position ≤ body.root.buffer.length)
    (h : WellAnnounced templateId body) :
    Inside (MessageParserD.parse templateId body) fun _ => True := by
  have hroot := h.root
  have hentries := h.entries
  -- what is announced is enough for each of the definitions
  have hmap {d : Definition} (hd : Inside (MessageParserD.parseX d body) fun _ => True) :
      Inside (some <$> MessageParserD.parseX d body) fun _ => True := by
    rw [map_eq_pure_bind]
    exact hd.bind fun _ _ _ => .ok trivial
  unfold MessageParserD.parse
  split
  · next hid =>
    unfold rootLength at hroot
    unfold AnnouncesEntries entryLength at hentries
    rw [hid] at hroot hentries
    exact hmap (parseX_definition_inside (by decide) (Nat.le_trans hroot hbody) hentries)
  · next hid =>
    unfold rootLength at hroot
    unfold AnnouncesEntries entryLength at hentries
    rw [hid] at hroot hentries
    exact hmap (parseX_definition_inside (by decide) (Nat.le_trans hroot hbody) hentries)
  · next hid =>
    unfold rootLength at hroot
    unfold AnnouncesEntries entryLength at hentries
    rw [hid] at hroot hentries
    exact hmap (parseX_definition_inside (by decide) (Nat.le_trans hroot hbody) hentries)
  · exact .ok trivial

/-! ## Messages -/

/-- The types of the templates end with a zero, behind which there is nothing. -/
theorem messageType_inside (h : templateId.toNat < 46) :
    Inside (MdpMessage.messageType templateId) fun c => c = 'f' → templateId.toNat = 30 := by
  have hlen : (MdpMessage.MDP_MESSAGE_TYPES.toList ++ ['\x00']).length = 46 := rfl
  have hstatus : ((MdpMessage.MDP_MESSAGE_TYPES.toList ++ ['\x00']).zipIdx.all fun p =>
      p.1 != 'f' || p.2 == 30) = true := rfl
  unfold MdpMessage.messageType
  rw [List.getElem?_eq_getElem (by rw [hlen]; exact h)]
  refine .ok fun hf => ?_
  have hmem := List.mk_mem_zipIdx_iff_getElem?.mpr
    ((List.getElem?_eq_getElem (by rw [hlen]; exact h)).trans (congrArg some hf))
  simpa using List.all_eq_true.mp hstatus _ hmem

/-- Every body is read inside the buffer. -/
theorem parseBody_inside (hid : templateId.toNat < 46)
    (hbody : body.position ≤ body.root.buffer.length) (h : WellAnnounced templateId body) :
    Inside (MdpMessage.parseBody templateId body) fun b => ∀ id entries, b = .increment id entries →
      id = templateId ∧ (MessageParserX.entry? templateId ≠ none → ∃ g : Group × Nat,
        groupSize.wrapForDecode body.root.buffer body.position = .ok g ∧
          entries.length = g.1.count) := by
  unfold MdpMessage.parseBody
  -- one case for each type of the table
  refine (messageType_inside hid).bind fun type _ htype => ?_
  split
  · -- only one template has this type
    have hroot := h.root
    unfold rootLength at hroot
    rw [htype rfl] at hroot
    have hle : body.root.offset + 30 ≤ body.root.buffer.length := Nat.le_trans hroot hbody
    unfold MessageParserF.parse30
    refine Inside.bind (P := fun _ => True) ((field_inside (by decide) hle).bind fun _ _ _ =>
      (field_inside (by decide) hle).bind fun _ _ _ => .ok trivial) fun _ _ _ => ?_
    exact .ok fun _ _ h => by cases h
  · refine (parseD_inside hbody h).bind fun instrument _ _ => ?_
    cases instrument with
    | none => exact .ok fun _ _ h => by cases h
    | some i => exact .ok fun _ _ h => by cases h
  · exact .ok fun _ _ h => by cases h
  · refine (parseX_inside hbody h).bind fun entries _ hcount => .ok fun id es hes => ?_
    cases hes
    exact ⟨rfl, hcount⟩
  · refine (parseW_inside hbody h).bind fun _ _ _ => ?_
    exact .ok fun _ _ h => by cases h
  · exact .ok fun _ _ h => by cases h

/-- Whatever the bytes of a message are: if it announces blocks that are not shorter than those the
    classes count on, it is parsed without a read outside, or thrown away. An increment has as many
    entries as its group announces. -/
theorem parse_inside {m : MdpMessage} (h : ∀ templateId body,
      SBEDecoder.startDecode m.buffer = .ok (templateId, body) →
        templateId.toNat < 46 ∧ ∀ b, body = some b → WellAnnounced templateId b) :
    m.parse ≠ .error .outside ∧ ∀ id entries,
      m.parse = .ok ⟨m.packetSeqNum, .increment id entries⟩ → MessageParserX.entry? id ≠ none →
        ∃ body g, SBEDecoder.startDecode m.buffer = .ok (id, some body) ∧
          groupSize.wrapForDecode m.buffer body.position = .ok g ∧ entries.length = g.1.count := by
  suffices hinside : Inside m.parse fun message => ∀ id entries, message.body = .increment id entries →
      MessageParserX.entry? id ≠ none → ∃ body g,
        SBEDecoder.startDecode m.buffer = .ok (id, some body) ∧
        groupSize.wrapForDecode m.buffer body.position = .ok g ∧ entries.length = g.1.count from
    ⟨hinside.1, fun id entries hparse => hinside.2 _ hparse id entries rfl⟩
  unfold MdpMessage.parse
  refine (startDecode_inside m.buffer).bind fun decoded hdecoded hbuffer => ?_
  obtain ⟨templateId, body⟩ := decoded
  obtain ⟨hid, hannounced⟩ := h _ _ hdecoded
  -- a template that is not known has no body to read
  cases body with
  | none =>
    refine (messageType_inside hid).bind fun _ _ _ => .ok fun _ _ h => ?_
    cases h
  | some body =>
    obtain ⟨hsame, -, hposition⟩ := hbuffer body rfl
    have hle : body.position ≤ body.root.buffer.length := by rw [hsame]; exact hposition
    refine (parseBody_inside hid hle (hannounced body rfl)).bind fun b _ hb => .ok ?_
    intro id entries hentries hsome
    obtain ⟨hsameId, hcount⟩ := hb id entries hentries
    rw [hsameId] at hsome ⊢
    obtain ⟨g, hg, hlen⟩ := hcount hsome
    rw [hsame] at hg
    exact ⟨body, g, hdecoded, hg, hlen⟩

/-- A message of volumes with one entry -/
def oneVolume : MdpMessage where
  packetLength := 60
  packetSeqNum := 5
  packetSendingTime := 1
  messageLength := 38
  buffer := [11, 0, 37, 0, 1, 0, 8, 0] ++ List.replicate 11 0 ++ [16, 0, 1] ++ List.replicate 16 0

/-- A message with one volume is read inside its buffer. -/
theorem parse_inside_oneVolume :
    oneVolume.parse ≠ .error .outside ∧ ∀ id entries,
      oneVolume.parse = .ok ⟨5, .increment id entries⟩ → MessageParserX.entry? id ≠ none →
        ∃ body g, SBEDecoder.startDecode oneVolume.buffer = .ok (id, some body) ∧
          groupSize.wrapForDecode oneVolume.buffer body.position = .ok g ∧
            entries.length = g.1.count :=
  parse_inside fun templateId body h => by
    have hdecode : SBEDecoder.startDecode oneVolume.buffer =
        .ok (37, some ⟨⟨oneVolume.buffer, 8, 8⟩, 19⟩) := rfl
    rw [hdecode] at h
    cases h
    refine ⟨by decide, fun b hb => ?_⟩
    cases hb
    refine ⟨by decide, fun r hr => ?_⟩
    have hgroup : groupSize.wrapForDecode oneVolume.buffer 19 = .ok (⟨16, 1⟩, 22) := rfl
    cases hgroup.symm.trans hr
    decide

end FixHandler.Cme
