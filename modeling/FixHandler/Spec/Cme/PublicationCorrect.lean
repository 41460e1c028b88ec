import Mathlib
import FixHandler.Native.Cme.Pipeline
import FixHandler.Spec.Cme.DeliveryCorrect

/-!
# What is published does not depend on the threads

The threads that receive and the one that saves run in any order, and packets are lost, repeated and
replayed in between. What is picked in one run and what is picked in another are the beginnings of one
stream of messages, if both start with the same packet; and so are the events that are published.

## Key results

- `accepted_of_exec`: what is accepted was brought in
- `picked_comparable`: two runs pick from the same stream
- `extends_of_isPrefix`: a saver only adds to what it has published
- `published_comparable`: two runs publish the same, as far as both of them get
-/

namespace FixHandler.Cme

/-! ## One stream -/

/-- Two lists that begin with parts of one list begin with each other. -/
theorem isPrefix_comparable {α : Type} {l l' whole whole' : List α} (h : l <+: whole)
    (h' : l' <+: whole') (hwhole : whole <+: whole' ∨ whole' <+: whole) : l <+: l' ∨ l' <+: l := by
  cases hwhole with
  | inl hle => exact List.prefix_or_prefix_of_prefix (h.trans hle) h'
  | inr hle => exact List.prefix_or_prefix_of_prefix h (h'.trans hle)

namespace Delivery

/-- Only the two checks accept a packet, and it is their own. -/
theorem accepted_of_apply {s : Delivery} {a : Act} {p : Packet} (hp : p ∈ (s.apply a).accepted) :
    p ∈ s.accepted ∨ a.packet? = some p := by
  cases a with
  | checkFeed q =>
    simp only [apply, checkFeed] at hp
    split at hp
    · simp only [List.mem_append, List.mem_singleton] at hp
      exact hp.imp_right fun heq => congrArg some heq.symm
    · exact .inl hp
  | checkReplay q =>
    simp only [apply, checkReplay] at hp
    split at hp
    · simp only [List.mem_append, List.mem_singleton] at hp
      exact hp.imp_right fun heq => congrArg some heq.symm
    · exact .inl hp
  | insertFeed | insertReplay _ | pick | remove =>
    simp only [apply] at hp
    split at hp <;> exact .inl hp

/-- A packet that is accepted in a run was brought in by an action. -/
theorem accepted_of_exec {s : Delivery} {as : List Act} {p : Packet}
    (hp : p ∈ (machine.exec s as).accepted) : p ∈ s.accepted ∨ ∃ a ∈ as, a.packet? = some p := by
  induction as generalizing s with
  | nil => exact .inl hp
  | cons a as ih =>
    cases ih hp with
    | inr h =>
      obtain ⟨a', ha', hpacket⟩ := h
      exact .inr ⟨a', List.mem_cons_of_mem _ ha', hpacket⟩
    | inl h => exact (accepted_of_apply h).imp_right fun hpacket => ⟨a, List.mem_cons_self, hpacket⟩

/-- Packets that are numbered alike carry the same messages. -/
def Agree (ps qs : List Packet) : Prop := ∀ p ∈ ps, ∀ q ∈ qs, p.seqNum = q.seqNum → p.messages = q.messages

/-- Packets that are numbered from the same number on carry one stream. -/
theorem stream_comparable {ps qs : List Packet} {n : Nat} (hagree : Agree ps qs)
    (hps : ps.map (·.seqNum.toNat) = List.range' n ps.length)
    (hqs : qs.map (·.seqNum.toNat) = List.range' n qs.length) :
    ps.flatMap (·.messages) <+: qs.flatMap (·.messages) ∨
      qs.flatMap (·.messages) <+: ps.flatMap (·.messages) := by
  induction ps generalizing qs n with
  | nil => exact .inl List.nil_prefix
  | cons p ps ih =>
    cases qs with
    | nil => exact .inr List.nil_prefix
    | cons q qs =>
      simp only [List.map_cons, List.length_cons, List.range'_succ, List.cons.injEq] at hps hqs
      have hsame : p.messages = q.messages := by
        refine hagree p List.mem_cons_self q List.mem_cons_self ?_
        rw [← UInt32.toNat_inj, hps.1, hqs.1]
      have hrest := ih (fun p' hp' q' hq' => hagree p' (List.mem_cons_of_mem _ hp') q'
        (List.mem_cons_of_mem _ hq')) hps.2 hqs.2
      rw [List.flatMap_cons, List.flatMap_cons, hsame]
      exact hrest.imp (List.prefix_append_right_inj _).mpr (List.prefix_append_right_inj _).mpr

/-- The packets that a run brings in -/
def packetsOf (as : List Act) : List Packet := as.filterMap Act.packet?

/-- What is accepted in a run was brought in. -/
theorem brought {as : List Act} {p : Packet} (hp : p ∈ (machine.exec {} as).accepted) :
    p ∈ packetsOf as := by
  cases accepted_of_exec hp with
  | inl h => exact absurd h List.not_mem_nil
  | inr h =>
    obtain ⟨a, ha, hpacket⟩ := h
    exact List.mem_filterMap.mpr ⟨a, ha, hpacket⟩

/-- A run of the threads from the start, with packets numbered below the mark -/
structure Run (as : List Act) : Prop where
  runs : machine.Runs {} as
  below : ∀ p ∈ packetsOf as, p.seqNum < Cxx.uint32Max

/-- Every run leads to a consistent state. -/
theorem Run.consistent {as : List Act} (h : Run as) :
    ∃ packets done, (machine.exec {} as).Consistent packets done := by
  have hbelow : ∀ a ∈ as, ∀ p, a.packet? = some p → p.seqNum < Cxx.uint32Max := fun a ha p hp =>
    h.below p (List.mem_filterMap.mpr ⟨a, ha, hp⟩)
  refine h.runs.invariant_of_forall (I := fun s => ∃ packets done, s.Consistent packets done)
    (P := fun a => ∀ p, a.packet? = some p → p.seqNum < Cxx.uint32Max) ?_ hbelow ⟨[], [], .initial⟩
  intro s a hs ha hp
  obtain ⟨_, _, hs⟩ := hs
  exact hs.apply ha hp

/-- Two runs that start with the same packet pick from the same stream. -/
theorem picked_comparable {as bs : List Act} (ha : Run as) (hb : Run bs)
    (hagree : Agree (packetsOf as) (packetsOf bs))
    (hfirst : (machine.exec {} as).first = (machine.exec {} bs).first) :
    (machine.exec {} as).picked <+: (machine.exec {} bs).picked ∨
      (machine.exec {} bs).picked <+: (machine.exec {} as).picked := by
  obtain ⟨_, _, hca⟩ := ha.consistent
  obtain ⟨_, _, hcb⟩ := hb.consistent
  obtain ⟨ps, hps, hpsNumbers, hpicked⟩ := hca.isPrefix
  obtain ⟨qs, hqs, hqsNumbers, hpicked'⟩ := hcb.isPrefix
  rw [hfirst] at hpsNumbers
  refine isPrefix_comparable hpicked hpicked' (stream_comparable ?_ hpsNumbers hqsNumbers)
  exact fun p hp q hq => hagree p (brought (hps p hp)) q (brought (hqs q hq))

end Delivery

/-! ## What is published -/

namespace BookManager

variable {s s' : BookManager}

/-- What is sent is appended. -/
theorem sent_send (events : List MarketEvent) : s.sent <+: (s.send events).sent :=
  List.prefix_append _ _

/-- Applying an entry takes nothing back. -/
theorem sent_applyBook {b : Book} (h : s.applyBook b = .ok s') : s.sent <+: s'.sent := by
  unfold applyBook at h
  obtain ⟨changed, -, h⟩ := Except.bind_eq_ok.mp h
  cases h
  exact sent_send _

/-- Applying one entry after the other takes nothing back. -/
theorem sent_applyBooks {books : List Book} (h : books.foldlM applyBook s = .ok s') :
    s.sent <+: s'.sent := by
  induction books generalizing s with
  | nil =>
    cases h
    exact List.prefix_rfl
  | cons b books ih =>
    rw [List.foldlM_cons] at h
    obtain ⟨s₁, hs₁, h⟩ := Except.bind_eq_ok.mp h
    exact (sent_applyBook hs₁).trans (ih h)

/-- A definition takes nothing back. -/
theorem sent_updateDefinition (instrument : Instrument) :
    s.sent <+: (s.updateDefinition instrument).sent := by
  unfold updateDefinition
  split
  · exact List.prefix_rfl
  · exact List.prefix_append _ _

/-- Parsing a message takes nothing back. -/
theorem sent_parseIncrement (m : Message) : s.sent <+: (s.parseIncrement m).2.sent := by
  unfold parseIncrement
  split
  · exact sent_send _
  · exact sent_updateDefinition _
  · exact List.prefix_rfl
  all_goals exact List.prefix_rfl

/-- Removing past entries sends nothing. -/
theorem sent_removePastBooks (seq : UInt32) (books : List Book) :
    (s.removePastBooks seq books).2.sent = s.sent := by
  unfold removePastBooks
  split <;> rfl

/-- A message takes back nothing that was sent. -/
theorem sent_parseToSend {m : Message} (h : s.parseToSend m = .ok s') : s.sent <+: s'.sent := by
  unfold parseToSend at h
  refine (sent_parseIncrement m).trans ?_
  dsimp only at h
  split at h
  · cases h
    exact List.prefix_rfl
  · have hbooks := sent_applyBooks h
    rwa [sent_removePastBooks] at hbooks

end BookManager

namespace DatSaver

variable {s s' : DatSaver}

/-- A saver only adds to what it has sent and stored. -/
structure Extends (s s' : DatSaver) : Prop where
  sent : s.bookManager.sent <+: s'.bookManager.sent
  stored : s.stored <+: s'.stored

/-- A saver extends itself. -/
theorem Extends.rfl : s.Extends s := ⟨List.prefix_rfl, List.prefix_rfl⟩

/-- What was stored and sent stays along two steps. -/
theorem Extends.trans {s₁ : DatSaver} (h : s.Extends s₁) (h' : s₁.Extends s') : s.Extends s' :=
  ⟨h.sent.trans h'.sent, h.stored.trans h'.stored⟩

/-- Storing a message appends it. -/
theorem extends_sendMessage (m : Message) : s.Extends (s.sendMessage m) := by
  unfold sendMessage
  split
  · exact ⟨List.prefix_rfl, List.prefix_append _ _⟩
  · exact .rfl

/-- Saving a message takes nothing back. -/
theorem extends_saveMessage {m : Message} (h : s.saveMessage m = .ok s') : s.Extends s' := by
  unfold saveMessage at h
  obtain ⟨converted, hconvert, h⟩ := Except.bind_eq_ok.mp h
  have hextends : s.Extends converted.2 := by
    unfold convertMessage at hconvert
    split at hconvert
    · cases hconvert
      exact .rfl
    · obtain ⟨b, hb, hconvert⟩ := Except.bind_eq_ok.mp hconvert
      cases hconvert
      exact ⟨BookManager.sent_parseToSend hb, List.prefix_rfl⟩
  cases h
  split
  · exact hextends.trans (extends_sendMessage m)
  · exact hextends

/-- Saving one message after the other takes nothing back. -/
theorem extends_saveMdpMessages {ms : List MdpMessage} (h : s.saveMdpMessages ms = .ok s') :
    s.Extends s' := by
  unfold saveMdpMessages at h
  induction ms generalizing s with
  | nil =>
    cases h
    exact .rfl
  | cons m ms ih =>
    rw [List.foldlM_cons] at h
    obtain ⟨s₁, hs₁, h⟩ := Except.bind_eq_ok.mp h
    refine Extends.trans ?_ (ih h)
    unfold saveMdpMessage at hs₁
    obtain ⟨message, -, hsave⟩ := Except.bind_eq_ok.mp hs₁
    exact extends_saveMessage (Except.mapError_eq_ok.mp hsave)

/-- What more messages make is added to what the first of them make. -/
theorem extends_of_isPrefix {s₀ : DatSaver} {ms ms' : List MdpMessage} (hle : ms <+: ms')
    (h : s₀.saveMdpMessages ms = .ok s) (h' : s₀.saveMdpMessages ms' = .ok s') : s.Extends s' := by
  obtain ⟨rest, rfl⟩ := hle
  unfold saveMdpMessages at h'
  rw [List.foldlM_append] at h'
  obtain ⟨s₁, hs₁, hrest⟩ := Except.bind_eq_ok.mp h'
  cases h.symm.trans hs₁
  exact extends_saveMdpMessages hrest

end DatSaver

/-! ## Two runs -/

open Delivery in
/-- Whatever the order in which the threads run, and whatever is lost, repeated and replayed: two runs
    that start with the same packet publish and store the same, as far as both of them get. -/
theorem published_comparable {as bs : List Act} (ha : Run as) (hb : Run bs)
    (hagree : Agree (packetsOf as) (packetsOf bs))
    (hfirst : (machine.exec {} as).first = (machine.exec {} bs).first) (s₀ s s' : DatSaver)
    (hs : s₀.saveMdpMessages (machine.exec {} as).picked = .ok s)
    (hs' : s₀.saveMdpMessages (machine.exec {} bs).picked = .ok s') :
    (s.Extends s' ∨ s'.Extends s) ∧
      ((machine.exec {} as).picked.length = (machine.exec {} bs).picked.length →
        s.bookManager.sent = s'.bookManager.sent ∧ s.stored = s'.stored) := by
  cases picked_comparable ha hb hagree hfirst with
  | inl hle =>
    refine ⟨.inl (DatSaver.extends_of_isPrefix hle hs hs'), fun hlen => ?_⟩
    rw [hle.eq_of_length hlen] at hs
    cases hs.symm.trans hs'
    exact ⟨rfl, rfl⟩
  | inr hle =>
    refine ⟨.inr (DatSaver.extends_of_isPrefix hle hs' hs), fun hlen => ?_⟩
    rw [hle.eq_of_length hlen.symm] at hs'
    cases hs.symm.trans hs'
    exact ⟨rfl, rfl⟩

namespace Delivery

/-- The bytes of a packet of one message: the market is open. -/
def openBuffer (n : UInt8) : List UInt8 :=
  [n, 0, 0, 0, 0, 0, 0, 0, 0, 0, 0, 0, 40, 0, 30, 0, 30, 0, 1, 0, 8, 0] ++
    List.replicate 20 0 ++ [255, 255, 255, 127, 0, 0, 0, 17, 0, 0]

/-- A packet with a status message -/
def openPacket (n : UInt8)
    (h : (Packet.ofBuffer? (openBuffer n)).isSome := by decide +kernel) : Packet :=
  (Packet.ofBuffer? (openBuffer n)).get h

/-- Packet 6 is replayed, after packet 7 was inserted. -/
def replayedRun : List Act :=
  [.checkFeed (openPacket 5), .insertFeed, .checkFeed (openPacket 7), .insertFeed, .pick,
    .checkReplay (openPacket 6), .insertReplay 0, .remove, .pick, .remove, .pick]

/-- Nothing is lost, and packet 6 comes twice. -/
def repeatedRun : List Act :=
  [.checkFeed (openPacket 5), .insertFeed, .pick, .checkFeed (openPacket 6), .insertFeed, .remove,
    .pick, .checkFeed (openPacket 6), .checkFeed (openPacket 7), .remove, .insertFeed, .pick]

/-- What the saver is at the end of a run. -/
def saved (as : List Act) : Except DatSaver.Fault DatSaver :=
  DatSaver.saveMdpMessages {} (machine.exec {} as).picked

/-- What is sent after the messages of a run were saved -/
def savedEvents (as : List Act) : Option (List MarketEvent) :=
  (saved as).toOption.map (·.bookManager.sent)

/-- Two runs on one feed, one with a gap and a replay: the same events are sent. -/
theorem published_comparable_replayed :
    savedEvents replayedRun = some (List.replicate 3 (.contractTrading "")) ∧
      savedEvents replayedRun = savedEvents repeatedRun := by
  refine ⟨by decide +kernel, ?_⟩
  have hrun : Run replayedRun := ⟨by decide +kernel, by decide +kernel⟩
  have hrun' : Run repeatedRun := ⟨by decide +kernel, by decide +kernel⟩
  -- both runs received packets of the same contents
  have hagree : Agree (packetsOf replayedRun) (packetsOf repeatedRun) := by
    unfold Agree
    decide +kernel
  have hok : (saved replayedRun).isOk := by decide +kernel
  have hok' : (saved repeatedRun).isOk := by decide +kernel
  cases h : saved replayedRun with
  | error e => rw [h] at hok; exact absurd hok Bool.false_ne_true
  | ok s =>
    cases h' : saved repeatedRun with
    | error e => rw [h'] at hok'; exact absurd hok' Bool.false_ne_true
    | ok s' =>
      have hsame := (published_comparable hrun hrun' hagree (by decide +kernel) {} s s' h h').2
        (by decide +kernel)
      unfold savedEvents
      rw [h, h']
      exact congrArg some hsame.1

end Delivery

end FixHandler.Cme
