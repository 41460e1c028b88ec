import Mathlib
import FixHandler.ForStd.Except
import FixHandler.ForStd.List
import FixHandler.Native.Cme.DatReplayer

/-!
# Replay packets and TCP reads

A replay is a stream of packets, each behind its length. TCP keeps the order of the
bytes, but not the places where the sender's writes end. Every read is parsed on its
own, which is right for reads of whole packets, and for few others.

## Key results

- `pickPackets_readable`: what is handed over of a read of whole packets
- `framed_iff_whole_reads`: when the packets are handed over whatever the reads are
-/

namespace FixHandler.Cme

open Cxx (readUInt16 readUInt32 bytesAt uint16Bytes)

namespace DatReplayer

open MessageUtility (getSbeTemplateId)

/-! ## The stream -/

/-- A packet behind its length. -/
def encode (p : List UInt8) : List UInt8 := uint16Bytes p.length ++ p

/-- The packets as they are sent, each with its length -/
def stream (packets : List (List UInt8)) : List UInt8 := packets.flatMap encode

/-- The template of the first message; a shorter packet has none. -/
def templateId? (p : List UInt8) : Option UInt16 := readUInt16 p 16

/-- The packet is a heartbeat. -/
def isHeartbeat (p : List UInt8) : Bool := templateId? p == some 12

/-- The packets that are to be handed over. -/
def payload (packets : List (List UInt8)) : List (List UInt8) := packets.filter (!isHeartbeat ·)

/-- The packets are handed over, each with its bytes, and no read is out of range. -/
def Framed (packets reads : List (List UInt8)) : Prop :=
  ∃ s, run reads = .ok s ∧ s.processed = payload packets

/-- Behind the length of the packet, the bytes from its first one to the end of the read
    contain the four bytes that are read for the template; and what is read for a packet
    without a template does not look like that of a heartbeat or a logout. -/
def Visible (p tail : List UInt8) : Prop :=
  20 ≤ p.length + tail.length ∧
    (p.length < 18 → readUInt16 (p ++ tail) 16 ≠ some 12 ∧ readUInt16 (p ++ tail) 16 ≠ some 16)

/-- Every packet of a read is visible; `tail` is the rest of the read. -/
def Readable (tail : List UInt8) : List (List UInt8) → Prop
  | [] => True
  | p :: after => Visible p (stream after ++ tail) ∧ Readable tail after

/-- The reads end where packets end. -/
def WholeReads (packets reads : List (List UInt8)) : Prop :=
  ∃ groups : List (List (List UInt8)),
    packets = groups.flatten ∧ reads = groups.map stream ∧ ∀ g ∈ groups, Readable [] g

/-- A read ends within a heartbeat, behind its template. -/
def EndsInHeartbeat (packets reads : List (List UInt8)) : Prop :=
  ∃ before p after sofar rest q, packets = before ++ p :: after ∧ reads = sofar ++ rest ∧
    sofar.flatten = stream before ++ q ∧ q <+: encode p ∧ q ≠ encode p ∧ 22 ≤ q.length ∧
    isHeartbeat p = true

/-! ## The template -/

/-- The template is read if there are twenty bytes. -/
theorem getSbeTemplateId_of_le {buffer : List UInt8} (h : 20 ≤ buffer.length) :
    ∃ t, readUInt16 buffer 16 = some t ∧ getSbeTemplateId buffer = .ok t := by
  have hlow : (readUInt32 buffer 16).map (·.toUInt16) = readUInt16 buffer 16 :=
    Cxx.readUInt32_toUInt16 h
  unfold getSbeTemplateId
  show ∃ t, _ ∧ (fetch (readUInt32 buffer 16) >>= fun value => pure value.toUInt16) = .ok t
  cases hvalue : readUInt32 buffer 16 with
  | none =>
    rw [readUInt32, Option.map_eq_none_iff, Cxx.bytesAt_eq_none] at hvalue
    omega
  | some value =>
    rw [hvalue] at hlow
    exact ⟨value.toUInt16, hlow.symm, rfl⟩

/-- It is not if there are fewer. -/
theorem getSbeTemplateId_of_lt {buffer : List UInt8} (h : buffer.length < 20) :
    getSbeTemplateId buffer = .error .outOfRange := by
  unfold getSbeTemplateId
  show (fetch (readUInt32 buffer 16) >>= _) = _
  rw [readUInt32, Cxx.bytesAt_eq_none.mpr h]
  rfl

/-- Bytes of a packet are read from the packet. -/
theorem readUInt16_of_isPrefix {p buffer : List UInt8} {position : Nat} (h : p <+: buffer)
    (hlen : position + 2 ≤ p.length) : readUInt16 buffer position = readUInt16 p position := by
  obtain ⟨tail, rfl⟩ := h
  unfold readUInt16 bytesAt
  rw [if_pos hlen, if_pos (by rw [List.length_append]; omega), List.drop_append_of_le_length (by omega),
    List.take_append_of_le_length (by rw [List.length_drop]; omega)]

/-- A packet that is too short has no template. -/
theorem templateId?_of_lt {p : List UInt8} (h : p.length < 18) : templateId? p = none := by
  rw [templateId?, readUInt16, Cxx.bytesAt_eq_none.mpr h]
  rfl

/-- A packet is visible exactly if the template that is seen is right about it. -/
theorem visible_iff {p tail : List UInt8} (hlogout : templateId? p ≠ some 16) :
    Visible p tail ↔ ∃ t, getSbeTemplateId (p ++ tail) = .ok t ∧ t ≠ 16 ∧
      (t = 12 ↔ isHeartbeat p = true) := by
  unfold Visible isHeartbeat
  rw [beq_iff_eq]
  by_cases hlen : 20 ≤ p.length + tail.length
  · have hlen' : 20 ≤ (p ++ tail).length := by rwa [List.length_append]
    obtain ⟨t, hread, hseen⟩ := getSbeTemplateId_of_le hlen'
    rw [hread, hseen]
    by_cases hp : p.length < 18
    · -- a short packet has no template of its own, and that of the bytes behind it is seen
      rw [templateId?_of_lt hp]
      constructor
      · rintro ⟨-, hother⟩
        obtain ⟨hheartbeat, hlogout⟩ := hother hp
        exact ⟨t, rfl, fun h => hlogout (congrArg some h),
          iff_of_false (fun h => hheartbeat (congrArg some h)) (Option.some_ne_none _).symm⟩
      · rintro ⟨t', ht', hne, hiff⟩
        cases ht'
        exact ⟨hlen, fun _ => ⟨fun h => Option.some_ne_none _ (hiff.mp (Option.some.inj h)).symm,
          fun h => hne (Option.some.inj h)⟩⟩
    · -- a long packet shows its own template
      have hown : templateId? p = some t := by
        rw [← hread, readUInt16_of_isPrefix (List.prefix_append p tail) (by omega)]
        rfl
      refine iff_of_true ⟨hlen, fun h => absurd h hp⟩ ⟨t, rfl, fun h => hlogout ?_, ?_⟩
      · rw [hown, h]
      · rw [hown, Option.some_inj]
  · -- too few bytes to read a template from
    refine iff_of_false (fun h => hlen h.1) ?_
    rintro ⟨t, ht, -⟩
    rw [getSbeTemplateId_of_lt (by rw [List.length_append]; omega)] at ht
    exact nomatch ht

/-! ## A read -/

/-- The state behind a packet of which the template `t` was seen. -/
def after (s : DatReplayer) (t : UInt16) (p : List UInt8) : DatReplayer :=
  { s with
    processed := s.processed ++ (if t = 12 then [] else [p])
    receives := s.receives + 1 }

/-- A turn of the loop at the beginning of a packet. -/
theorem pickPackets_encode {p : List UInt8} (hp : p.length < 65536) (s : DatReplayer) (fuel : Nat)
    (tail : List UInt8) :
    s.pickPackets (fuel + 1) (encode p ++ tail) = (getSbeTemplateId (p ++ tail)).bind fun t =>
      if t == 16 then .ok { s with stopped := true } else (s.after t p).pickPackets fuel tail := by
  -- the length, the packet and what lies behind it
  have hlength : readUInt16 (encode p ++ tail) 0 = some (.ofNat p.length) := by
    rw [encode, List.append_assoc]
    exact Cxx.readUInt16_uint16Bytes hp _
  have hnat : (UInt16.ofNat p.length).toNat = p.length := UInt16.toNat_ofNat_of_lt hp
  have hpacket : bytesAt (encode p ++ tail) 2 (UInt16.ofNat p.length).toNat = some p := by
    rw [hnat, encode, List.append_assoc]
    exact Cxx.bytesAt_append (uint16Bytes p.length) p tail
  have hdrop : (encode p ++ tail).drop 2 = p ++ tail := rfl
  have hnext : (encode p ++ tail).drop ((UInt16.ofNat p.length).toNat + 2) = tail := by
    rw [hnat, Nat.add_comm, ← List.drop_drop, hdrop, List.drop_left]
  obtain ⟨b, rest, hcons⟩ : ∃ b rest, encode p ++ tail = b :: rest := ⟨_, _, rfl⟩
  rw [hcons] at hlength hpacket hdrop hnext ⊢
  rw [pickPackets, hlength, hdrop]
  show (getSbeTemplateId (p ++ tail)).bind _ = _
  refine congrArg _ (funext fun t => ?_)
  rw [hnext]
  -- a logout ends the loop, and a heartbeat is passed by
  by_cases hlogout : (t == 16) = true
  · rw [if_pos hlogout, if_pos hlogout]
    rfl
  · rw [if_neg hlogout, if_neg hlogout]
    unfold process after
    by_cases ht : t = 12
    · rw [if_neg (by simp [ht]), if_pos ht, List.append_nil]
      rfl
    · rw [if_pos (by simpa using ht), if_neg ht, hpacket]
      rfl

/-- A turn of the loop where the read ends within the packet. -/
theorem pickPackets_part {p q : List UInt8} (hp : p.length < 65536) (hlogout : templateId? p ≠ some 16)
    (hq : q <+: encode p) (hpart : q ≠ encode p) (hne : q ≠ []) {s s' : DatReplayer} {fuel : Nat}
    (h : s.pickPackets fuel q = .ok s') : 22 ≤ q.length ∧ isHeartbeat p = true := by
  have hlt : q.length < p.length + 2 := by
    have hle := hq.length_le
    have hlen : q.length ≠ (encode p).length := fun heq => hpart (hq.eq_of_length heq)
    rw [show (encode p).length = p.length + 2 from rfl] at hle hlen
    omega
  obtain ⟨b, rest, rfl⟩ := List.exists_cons_of_ne_nil hne
  cases fuel with
  | zero => exact nomatch h
  | succ fuel =>
    rw [pickPackets] at h
    by_cases hshort : (b :: rest).length < 2
    · rw [readUInt16, Cxx.bytesAt_eq_none.mpr hshort] at h
      exact nomatch h
    · -- the length is that of the whole packet
      have hlength : readUInt16 (b :: rest) 0 = some (.ofNat p.length) := by
        rw [← readUInt16_of_isPrefix hq (by omega), encode]
        exact Cxx.readUInt16_uint16Bytes hp p
      have hpfx : (b :: rest).drop 2 <+: p := hq.drop 2
      rw [hlength] at h
      by_cases htemplate : ((b :: rest).drop 2).length < 20
      · have h : (getSbeTemplateId ((b :: rest).drop 2)).bind _ = _ := h
        rw [getSbeTemplateId_of_lt htemplate] at h
        exact nomatch h
      · obtain ⟨t, hread, hseen⟩ := getSbeTemplateId_of_le (Nat.not_lt.mp htemplate)
        have hown : templateId? p = some t := by
          rw [← hread, templateId?, readUInt16_of_isPrefix hpfx (by omega)]
        have h : (getSbeTemplateId ((b :: rest).drop 2)).bind _ = _ := h
        rw [hseen] at h
        -- the packet itself is not there as a whole
        have hpart : bytesAt (b :: rest) 2 (UInt16.ofNat p.length).toNat = none := by
          have hnat : (UInt16.ofNat p.length).toNat = p.length := UInt16.toNat_ofNat_of_lt hp
          rw [Cxx.bytesAt_eq_none, hnat]
          omega
        -- only a heartbeat is passed over without being read
        have ht : t = 12 := by
          by_contra hne
          have hnot : ¬ (t == 16) = true := fun heq => hlogout (by rw [hown, eq_of_beq heq])
          have h : (if t == 16 then _ else _) = _ := h
          rw [if_neg hnot, process, if_pos (by simpa using hne), hpart] at h
          exact nomatch h
        rw [List.length_drop] at htemplate
        exact ⟨by omega, by rw [isHeartbeat, hown, ht]; rfl⟩

/-- The payload is collected packet by packet. -/
theorem payload_append (packets packets' : List (List UInt8)) :
    payload (packets ++ packets') = payload packets ++ payload packets' := List.filter_append ..

/-- Without bytes nothing is picked. -/
private theorem pickPackets_nil (s : DatReplayer) (fuel : Nat) : s.pickPackets fuel [] = .ok s := by
  cases fuel <;> rfl

/-- What is seen of a packet that is not a logout is handed over, unless it looks like a
    heartbeat. -/
private theorem after_of_visible {s : DatReplayer} {p : List UInt8} {t : UInt16}
    (ht : t = 12 ↔ isHeartbeat p = true) :
    s.after t p = { s with
      processed := s.processed ++ payload [p]
      receives := s.receives + 1 } := by
  unfold after payload
  by_cases hheartbeat : isHeartbeat p = true
  · rw [if_pos (ht.mpr hheartbeat), List.filter_cons_of_neg (by simp [hheartbeat])]
    rfl
  · rw [if_neg (fun h => hheartbeat (ht.mp h)), List.filter_cons_of_pos (by simpa using hheartbeat)]
    rfl

/-- The packets at the beginning of a read, if all of them are visible. -/
theorem pickPackets_readable {packets : List (List UInt8)} {tail : List UInt8}
    (hlen : ∀ p ∈ packets, p.length < 65536) (hlogout : ∀ p ∈ packets, templateId? p ≠ some 16)
    (h : Readable tail packets) (s : DatReplayer) {fuel : Nat}
    (hfuel : (stream packets ++ tail).length ≤ fuel) :
    ∃ fuel', s.pickPackets fuel (stream packets ++ tail) = { s with
      processed := s.processed ++ payload packets
      receives := s.receives + packets.length }.pickPackets fuel' tail := by
  induction packets generalizing s fuel with
  | nil => exact ⟨fuel, by rw [payload, List.filter_nil, List.append_nil]; rfl⟩
  | cons p packets ih =>
    obtain ⟨hvisible, hrest⟩ := h
    obtain ⟨t, hseen, hne, ht⟩ := (visible_iff (hlogout p List.mem_cons_self)).mp hvisible
    have hsplit : stream (p :: packets) ++ tail = encode p ++ (stream packets ++ tail) :=
      List.append_assoc ..
    have hpos : (encode p ++ (stream packets ++ tail)).length =
        p.length + 2 + (stream packets ++ tail).length := List.length_append
    rw [hsplit] at hfuel ⊢
    obtain ⟨fuel, rfl⟩ : ∃ k, fuel = k + 1 := ⟨fuel - 1, by omega⟩
    -- the first packet is handed over, or passed over as a heartbeat
    obtain ⟨fuel', hnext⟩ := ih (fun p' hp' => hlen p' (List.mem_cons_of_mem _ hp'))
      (fun p' hp' => hlogout p' (List.mem_cons_of_mem _ hp')) hrest (s.after t p)
      (show (stream packets ++ tail).length ≤ fuel by omega)
    refine ⟨fuel', ?_⟩
    rw [pickPackets_encode (hlen p List.mem_cons_self), hseen]
    show (if t == 16 then _ else _) = _
    rw [if_neg (by simpa using hne), hnext, after_of_visible ht]
    congr 1
    rw [show p :: packets = [p] ++ packets from rfl, payload_append]
    simp only [List.append_assoc, List.length_append, List.length_singleton, Nat.add_assoc]

/-- A heartbeat has its template in the packet. -/
private theorem isHeartbeat_seen {p tail : List UInt8} {t : UInt16}
    (hseen : getSbeTemplateId (p ++ tail) = .ok t) (h : isHeartbeat p = true) : t = 12 := by
  rw [isHeartbeat, beq_iff_eq] at h
  have hlen : ¬ p.length < 18 := fun hlt => by
    rw [templateId?_of_lt hlt] at h
    exact nomatch h
  have hle : 20 ≤ (p ++ tail).length := by
    by_contra hlt
    rw [getSbeTemplateId_of_lt (Nat.not_le.mp hlt)] at hseen
    exact nomatch hseen
  obtain ⟨t', hread, hseen'⟩ := getSbeTemplateId_of_le hle
  rw [hseen] at hseen'
  cases hseen'
  rw [readUInt16_of_isPrefix (List.prefix_append p tail) (by omega)] at hread
  exact Option.some.inj (hread.symm.trans h)

/-- What can be handed over of the packets at the beginning of a read: all of them only if
    they are visible. -/
theorem pickPackets_seen {packets : List (List UInt8)} {tail : List UInt8}
    (hlen : ∀ p ∈ packets, p.length < 65536) (hlogout : ∀ p ∈ packets, templateId? p ≠ some 16)
    {s s' : DatReplayer} {fuel : Nat} (h : s.pickPackets fuel (stream packets ++ tail) = .ok s') :
    (s'.stopped = true ∧ ∃ l, s'.processed = s.processed ++ l ∧ l.Sublist (payload packets) ∧
      l ≠ payload packets) ∨
    ∃ l fuel', l.Sublist (payload packets) ∧ (l = payload packets → Readable tail packets) ∧
      { s with processed := s.processed ++ l, receives := s.receives + packets.length }.pickPackets
        fuel' tail = .ok s' := by
  induction packets generalizing s fuel with
  | nil =>
    refine .inr ⟨[], fuel, List.nil_sublist _, fun _ => trivial, ?_⟩
    rw [List.append_nil]
    exact h
  | cons p packets ih =>
    have hsplit : stream (p :: packets) ++ tail = encode p ++ (stream packets ++ tail) :=
      List.append_assoc ..
    -- the payload begins with that of the first packet
    have hcons : payload (p :: packets) = payload [p] ++ payload packets := payload_append [p] packets
    rw [hsplit] at h
    cases fuel with
    | zero => exact nomatch h
    | succ fuel =>
      rw [pickPackets_encode (hlen p List.mem_cons_self)] at h
      obtain ⟨t, hseen, h⟩ := Except.bind_eq_ok.mp h
      -- a heartbeat is seen as one
      have hown : isHeartbeat p = true → t = 12 := isHeartbeat_seen hseen
      by_cases hstop : t = 16
      · -- taken for a logout, which it is not
        rw [if_pos (by rw [hstop]; rfl)] at h
        cases h
        refine .inl ⟨rfl, [], (List.append_nil _).symm, List.nil_sublist _, fun hnil => ?_⟩
        have hheartbeat : ¬ isHeartbeat p = true := fun h => absurd (hown h) (by rw [hstop]; decide)
        rw [hcons, payload, List.filter_cons_of_pos (by simpa using hheartbeat)] at hnil
        exact nomatch hnil
      · rw [if_neg (by simpa using hstop)] at h
        -- what is handed over of this packet
        have hhanded : ∃ l, (s.after t p).processed = s.processed ++ l ∧
            l.Sublist (payload [p]) ∧
            (l = payload [p] → Visible p (stream packets ++ tail)) := by
          refine ⟨if t = 12 then [] else [p], rfl, ?_, fun heq => ?_⟩
          · by_cases ht : t = 12
            · rw [if_pos ht]
              exact List.nil_sublist _
            · rw [if_neg ht, payload,
                List.filter_cons_of_pos (by simpa using fun h => ht (hown h))]
              exact List.Sublist.refl _
          · rw [visible_iff (hlogout p List.mem_cons_self)]
            refine ⟨t, hseen, hstop, fun ht => ?_, hown⟩
            by_contra hheartbeat
            rw [if_pos ht, payload, List.filter_cons_of_pos (by simpa using hheartbeat)] at heq
            exact nomatch heq
        obtain ⟨l, hprocessed, hl, hvisible⟩ := hhanded
        rcases ih (fun p' hp' => hlen p' (List.mem_cons_of_mem _ hp'))
          (fun p' hp' => hlogout p' (List.mem_cons_of_mem _ hp')) h with
          ⟨hstopped, l', hl', hsub, hne⟩ | ⟨l', fuel', hsub, hreadable, hnext⟩
        · refine .inl ⟨hstopped, l ++ l', ?_, hcons ▸ hl.append hsub, fun heq => ?_⟩
          · rw [hl', hprocessed, List.append_assoc]
          · rw [hcons] at heq
            exact hne (List.append_inj_of_sublist hl hsub heq).2
        · refine .inr ⟨l ++ l', fuel', hcons ▸ hl.append hsub, fun heq => ?_, ?_⟩
          · rw [hcons] at heq
            obtain ⟨h₁, h₂⟩ := List.append_inj_of_sublist hl hsub heq
            exact ⟨hvisible h₁, hreadable h₂⟩
          · rw [hprocessed, List.append_assoc] at hnext
            rw [← hnext]
            congr 2
            show _ = s.receives + 1 + packets.length
            rw [List.length_cons]
            omega

/-! ## The reads of a connection -/

/-- A read that is expected is handled. -/
private theorem onReceived_eq {s : DatReplayer} (hstopped : s.stopped = false)
    (hreceives : s.receives ≠ 0) (buffer : List UInt8) :
    s.onReceived buffer =
      { s with receives := s.receives - 1 }.pickPackets buffer.length buffer := by
  unfold onReceived
  rw [if_neg (by simp [hstopped, hreceives])]
  rfl

/-- After a logout nothing is read. -/
private theorem foldlM_stopped {s : DatReplayer} (h : s.stopped = true)
    (reads : List (List UInt8)) : reads.foldlM onReceived s = .ok s := by
  induction reads with
  | nil => rfl
  | cons r reads ih =>
    rw [List.foldlM_cons, onReceived, if_pos (by rw [h]; rfl)]
    exact ih

/-- Packets are sent one after the other. -/
private theorem stream_append (packets packets' : List (List UInt8)) :
    stream (packets ++ packets') = stream packets ++ stream packets' := List.flatMap_append

/-- A sent packet is never empty. -/
private theorem encode_ne_nil (p : List UInt8) : encode p ≠ [] := List.cons_ne_nil _ _

/-- Nothing is sent only if there are no packets. -/
private theorem stream_eq_nil {packets : List (List UInt8)} (h : stream packets = []) :
    packets = [] := by
  cases packets with
  | nil => rfl
  | cons p packets => exact absurd (List.append_eq_nil_iff.mp h).1 (encode_ne_nil p)

/-- Reads of whole visible packets. -/
private theorem foldlM_whole {groups : List (List (List UInt8))}
    (hlen : ∀ p ∈ groups.flatten, p.length < 65536)
    (hlogout : ∀ p ∈ groups.flatten, templateId? p ≠ some 16)
    (hreads : ∀ g ∈ groups, stream g ≠ []) (hreadable : ∀ g ∈ groups, Readable [] g)
    {s : DatReplayer} (hstopped : s.stopped = false) (hreceives : s.receives ≠ 0) :
    ∃ s', (groups.map stream).foldlM onReceived s = .ok s' ∧
      s'.processed = s.processed ++ payload groups.flatten := by
  induction groups generalizing s with
  | nil => exact ⟨s, rfl, (List.append_nil _).symm⟩
  | cons g groups ih =>
    rw [List.flatten_cons] at hlen hlogout ⊢
    -- a read that ends where a packet ends is handled as a whole
    have hone : s.onReceived (stream g) = .ok { s with
        processed := s.processed ++ payload g
        receives := s.receives - 1 + g.length } := by
      have hfuel : (stream g ++ []).length ≤ (stream g).length := by rw [List.append_nil]
      obtain ⟨fuel', hpick⟩ := pickPackets_readable
        (fun p hp => hlen p (List.mem_append_left _ hp))
        (fun p hp => hlogout p (List.mem_append_left _ hp)) (hreadable g List.mem_cons_self)
        { s with receives := s.receives - 1 } hfuel
      rw [List.append_nil] at hpick
      rw [onReceived_eq hstopped hreceives, hpick, pickPackets_nil]
    -- at least one more read is expected
    have hpos : g.length ≠ 0 := fun h => hreads g List.mem_cons_self (by
      rw [List.length_eq_zero_iff.mp h]
      rfl)
    obtain ⟨s', hs', hprocessed⟩ := ih (fun p hp => hlen p (List.mem_append_right _ hp))
      (fun p hp => hlogout p (List.mem_append_right _ hp))
      (fun g' hg' => hreads g' (List.mem_cons_of_mem _ hg'))
      (fun g' hg' => hreadable g' (List.mem_cons_of_mem _ hg'))
      (s := { s with
        processed := s.processed ++ payload g
        receives := s.receives - 1 + g.length }) hstopped
      (show s.receives - 1 + g.length ≠ 0 by omega)
    refine ⟨s', ?_, ?_⟩
    · rw [List.map_cons, List.foldlM_cons, hone]
      exact hs'
    · rw [hprocessed, payload_append, List.append_assoc]

/-- What a replay hands over, unless a read ends within a heartbeat: some of the packets,
    and all of them only if the reads are of whole visible packets. -/
private theorem foldlM_framed {packets reads : List (List UInt8)}
    (hlen : ∀ p ∈ packets, p.length < 65536) (hlogout : ∀ p ∈ packets, templateId? p ≠ some 16)
    (hreads : ∀ r ∈ reads, r ≠ []) (hcut : reads.flatten = stream packets) {s s' : DatReplayer}
    (hstopped : s.stopped = false) (hreceives : s.receives ≠ 0)
    (h : reads.foldlM onReceived s = .ok s') :
    EndsInHeartbeat packets reads ∨ ∃ l, s'.processed = s.processed ++ l ∧
      l.Sublist (payload packets) ∧ (l = payload packets → WholeReads packets reads) := by
  induction reads generalizing s packets with
  | nil =>
    cases h
    rw [stream_eq_nil hcut.symm]
    exact .inr ⟨[], (List.append_nil _).symm, List.nil_sublist _,
      fun _ => ⟨[], rfl, rfl, fun g hg => absurd hg List.not_mem_nil⟩⟩
  | cons r reads ih =>
    obtain ⟨s₁, hs₁, h⟩ := Except.bind_eq_ok.mp (List.foldlM_cons.symm.trans h)
    rw [onReceived_eq hstopped hreceives] at hs₁
    -- the packets that the read has whole
    obtain ⟨g, packets', rfl, hsplit⟩ := List.append_eq_flatMap
      (show r ++ reads.flatten = packets.flatMap encode from hcut)
    have hlen₁ : ∀ p ∈ g, p.length < 65536 := fun p hp => hlen p (List.mem_append_left _ hp)
    have hlogout₁ : ∀ p ∈ g, templateId? p ≠ some 16 :=
      fun p hp => hlogout p (List.mem_append_left _ hp)
    -- the read are whole packets and a part of the next
    obtain ⟨tail, hr⟩ : ∃ tail, r = stream g ++ tail := by
      rcases hsplit with ⟨rfl, -⟩ | ⟨p, packets'', q, -, rfl, -⟩
      · exact ⟨[], (List.append_nil _).symm⟩
      · exact ⟨q, rfl⟩
    rw [hr] at hs₁
    rcases pickPackets_seen hlen₁ hlogout₁ hs₁ with
      ⟨hstop, l, hl, hsub, hne⟩ | ⟨l, fuel', hsub, hreadable, hpick⟩
    · -- the rest is not read
      rw [foldlM_stopped hstop] at h
      cases h
      refine .inr ⟨l, hl, payload_append g packets' ▸ hsub.trans (List.sublist_append_left _ _),
        fun heq => ?_⟩
      rw [payload_append] at heq
      have hle := hsub.length_le
      have heqlen := congrArg List.length heq
      rw [List.length_append] at heqlen
      exact absurd (hsub.eq_of_length (by omega)) hne
    · rcases hsplit with ⟨hr', hrest⟩ | ⟨p, packets'', q, rfl, hr', hq, hpart, hqne⟩
      · -- the read ends where a packet ends
        have htail : tail = [] := by
          rw [hr] at hr'
          exact List.append_right_eq_self.mp hr'
        subst htail
        rw [pickPackets_nil] at hpick
        cases hpick
        have hpos : g.length ≠ 0 := fun hnil => hreads r List.mem_cons_self (by
          rw [hr', List.length_eq_zero_iff.mp hnil]
          rfl)
        rcases ih (fun p hp => hlen p (List.mem_append_right _ hp))
          (fun p hp => hlogout p (List.mem_append_right _ hp))
          (fun r' hr' => hreads r' (List.mem_cons_of_mem _ hr')) hrest
          (s := { s with
            processed := s.processed ++ l, receives := s.receives - 1 + g.length })
          hstopped (show s.receives - 1 + g.length ≠ 0 by omega) h with
          ⟨before, p, after, sofar, rest, q, rfl, rfl, hsofar, hq⟩ | ⟨l', hl', hsub', hwhole⟩
        · refine .inl ⟨g ++ before, p, after, r :: sofar, rest, q, (List.append_assoc ..).symm,
            rfl, ?_, hq⟩
          rw [List.flatten_cons, hsofar, hr', stream_append, List.append_assoc]
          rfl
        · refine .inr ⟨l ++ l', ?_, payload_append g packets' ▸ hsub.append hsub', fun heq => ?_⟩
          · rw [hl', List.append_assoc]
          · rw [payload_append] at heq
            obtain ⟨h₁, h₂⟩ := List.append_inj_of_sublist hsub hsub' heq
            obtain ⟨groups, rfl, rfl, hgroups⟩ := hwhole h₂
            refine ⟨g :: groups, rfl, ?_, fun g' hg' => ?_⟩
            · rw [List.map_cons, hr']
              rfl
            · rcases List.mem_cons.mp hg' with rfl | hg'
              · exact hreadable h₁
              · exact hgroups g' hg'
      · -- the read ends within a packet
        have htail : tail = q := by
          rw [hr] at hr'
          exact List.append_cancel_left hr'
        subst htail
        have hp : p ∈ g ++ p :: packets'' := List.mem_append_right _ List.mem_cons_self
        obtain ⟨hlength, hheartbeat⟩ :=
          pickPackets_part (hlen p hp) (hlogout p hp) hq hpart hqne hpick
        refine .inl ⟨g, p, packets'', [r], reads, tail, rfl, rfl, ?_, hq, hpart, hlength,
          hheartbeat⟩
        rw [List.flatten_singleton]
        exact hr'

/-- Whatever packets are replayed, and however TCP cuts them: they are handed over if every
    read is of whole packets with their templates; and otherwise only if a read ends within a
    heartbeat. -/
theorem framed_iff_whole_reads {packets reads : List (List UInt8)}
    (hlen : ∀ p ∈ packets, p.length < 65536) (hlogout : ∀ p ∈ packets, templateId? p ≠ some 16)
    (hreads : ∀ r ∈ reads, r ≠ []) (hcut : reads.flatten = stream packets) :
    (WholeReads packets reads → Framed packets reads) ∧
      (Framed packets reads → WholeReads packets reads ∨ EndsInHeartbeat packets reads) := by
  constructor
  · rintro ⟨groups, rfl, rfl, hreadable⟩
    obtain ⟨s, hs, hprocessed⟩ := foldlM_whole hlen hlogout
      (fun g hg => hreads _ (List.mem_map_of_mem hg)) hreadable (s := {}) rfl Nat.one_ne_zero
    exact ⟨s, hs, hprocessed⟩
  · rintro ⟨s, hs, hprocessed⟩
    rcases foldlM_framed hlen hlogout hreads hcut (s := {}) rfl Nat.one_ne_zero hs with
      hends | ⟨l, hl, -, hwhole⟩
    · exact .inr hends
    · refine .inl (hwhole ?_)
      rw [← hprocessed, hl]
      rfl

/-- A packet of one message of template 32, which has no block. -/
private def packet : List UInt8 := List.replicate 12 0 ++ [10, 0, 0, 0, 32, 0, 1, 0, 8, 0]

/-- Two packets in one read. -/
theorem framed_one_read : Framed [packet, packet] [stream [packet, packet]] := by
  refine (framed_iff_whole_reads (by decide +kernel) (by decide +kernel) (by decide +kernel)
    (by decide +kernel)).1 ⟨[[packet, packet]], rfl, rfl, fun g hg => ?_⟩
  rw [List.mem_singleton.mp hg]
  exact ⟨⟨by decide, fun h => absurd h (by decide)⟩, ⟨by decide, fun h => absurd h (by decide)⟩,
    trivial⟩

/-- One packet in two reads is not handed over. -/
theorem packet_in_two_reads :
    run [(stream [packet]).take 8, (stream [packet]).drop 8] = .error .outOfRange ∧
      ¬ Framed [packet] [(stream [packet]).take 8, (stream [packet]).drop 8] := by
  have hfault : run [(stream [packet]).take 8, (stream [packet]).drop 8] = .error .outOfRange := by
    decide +kernel
  refine ⟨hfault, ?_⟩
  rintro ⟨s, hs, -⟩
  rw [hfault] at hs
  exact nomatch hs

end DatReplayer

end FixHandler.Cme
