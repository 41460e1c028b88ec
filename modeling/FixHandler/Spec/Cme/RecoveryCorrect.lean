import Mathlib
import FixHandler.ForStd.Except
import FixHandler.Native.Cme.Recovery

/-!
# When the recovery data are complete

`Start_save` says that it waits until all recovery data are received, but the loop
ends with the first of them. A snapshot cycle that is handed over is complete
exactly if no turn of the loop meets a snapshot in part: one that has begun and has
fewer messages than its first packet announces.

## Key results

- `Pending.apply`: while the snapshot is received, it is empty or in part
- `complete_iff_polls`: the statement for every run
-/

namespace FixHandler.Cme

namespace Recovery

/-- All of the snapshot was received, as `Save_packet` decides it. -/
def Complete (s : Recovery) : Prop :=
  s.data.recoverySaver.totalNumber.toNat ≤ s.data.recoverySaver.recoveryDatas.length

instance (s : Recovery) : Decidable s.Complete := inferInstanceAs (Decidable (_ ≤ _))

/-- The saver hands its data to the book manager. -/
def Handing (s : Recovery) : Prop := s.phase = .handDefinitions ∨ s.phase = .handRecoveries

instance (s : Recovery) : Decidable s.Handing := inferInstanceAs (Decidable (_ ∨ _))

/-- A turn of the loop meets no data, or all of them. -/
def PollsWhole (s : Recovery) (a : Act) : Prop :=
  a = .poll → s.data.recoverySaver.recoveryDatas = [] ∨ s.Complete

/-- The callback is called exactly if the packet is saved and completes the data. -/
theorem processRecoveryPacket_called {s s' : RecoverySaver} {buffer : List UInt8} {called : Bool}
    (h : s.processRecoveryPacket buffer = .ok (called, s')) :
    (called = true → s'.totalNumber.toNat ≤ s'.recoveryDatas.length) ∧
    (called = false → s' = s ∨ ¬ s'.totalNumber.toNat ≤ s'.recoveryDatas.length) := by
  unfold RecoverySaver.processRecoveryPacket at h
  obtain ⟨packetSeqNum, -, h⟩ := Except.bind_eq_ok.mp h
  by_cases hdiscard : packetSeqNum ≠ s.currentSequence + 1 ∧ packetSeqNum ≠ 1
  · rw [if_pos hdiscard] at h
    cases h
    exact ⟨fun h => absurd h Bool.false_ne_true, fun _ => .inl rfl⟩
  · rw [if_neg hdiscard] at h
    unfold RecoverySaver.savePacket at h
    obtain ⟨s, -, h⟩ := Except.bind_eq_ok.mp h
    obtain ⟨⟨currentSequence, messages⟩, -, h⟩ := Except.bind_eq_ok.mp h
    cases h
    exact ⟨fun h => of_decide_eq_true h, fun h => .inr (of_decide_eq_false h)⟩

/-- While the snapshot is received there is nothing of it yet, or it is not complete; and
    nothing is received any more while a complete one is handed over. -/
structure Whole (s : Recovery) : Prop where
  receiving : s.feed ≠ .ended → s.data.recoverySaver.recoveryDatas = [] ∨ ¬ s.Complete
  handing : s.Handing → s.Complete ∧ s.data.recoverySaver.recoveryDatas ≠ []

/-- In the beginning nothing is handed over. -/
theorem Whole.initial : Whole {} where
  receiving _ := .inl rfl
  handing h := by
    rcases h with h | h <;> exact nomatch h

/-- Increments do not touch the recovery. -/
private theorem insertIncrementData_recoverySaver (d : CmeData) (n : UInt32)
    (messages : List MdpMessage) :
    (d.insertIncrementData n messages).recoverySaver = d.recoverySaver := by
  have hfold : (messages.foldl CmeData.insert d).recoverySaver = d.recoverySaver := by
    induction messages generalizing d with
    | nil => rfl
    | cons m messages ih => exact ih (d.insert m)
  unfold CmeData.insertIncrementData
  simp only
  split
  · exact hfold
  · split <;> exact hfold

/-- What only depends on the recovery saver, the feed and the phase is kept with them. -/
private theorem Whole.congr {s s' : Recovery} (h : s.Whole)
    (hsaver : s'.data.recoverySaver = s.data.recoverySaver)
    (hfeed : s'.feed ≠ .ended → s.feed ≠ .ended) (hphase : s'.Handing → s.Handing) :
    s'.Whole := by
  refine ⟨fun hf => ?_, fun hp => ?_⟩
  · rw [Complete, hsaver]
    exact h.receiving (hfeed hf)
  · rw [Complete, hsaver]
    exact h.handing (hphase hp)

/-- A step that does not poll a snapshot in part keeps it whole. -/
theorem Whole.apply {s : Recovery} (h : s.Whole) {a : Act} (ha : s.guard a)
    (hpoll : s.PollsWhole a) : (s.apply a).Whole := by
  cases a with
  | insertIncrement p =>
    -- an increment touches neither saver
    exact h.congr (insertIncrementData_recoverySaver s.data p.seqNum p.messages) id id
  | definitionPacket buffer =>
    show (s.definitionPacket buffer).Whole
    unfold Recovery.definitionPacket
    split
    · refine h.congr rfl (fun _ => ?_) id
      rw [ha.1]
      exact Feed.noConfusion
    · exact h
  | recoveryPacket buffer =>
    have hne : s.feed ≠ .ended := by
      rw [ha.1]
      exact Feed.noConfusion
    -- what is handed over is complete, and then the receiver has stopped
    have hhanding : ¬ s.Handing := fun hp => by
      obtain ⟨hcomplete, hdatas⟩ := h.handing hp
      exact (h.receiving hne).elim hdatas fun hnot => hnot hcomplete
    show (s.recoveryPacket buffer).Whole
    unfold Recovery.recoveryPacket
    split
    · next called saver hsaver =>
      have hcalled := processRecoveryPacket_called hsaver
      refine ⟨fun hf => ?_, fun hp => absurd hp hhanding⟩
      cases called with
      | true => exact absurd rfl hf
      | false =>
        rcases hcalled.2 rfl with rfl | hnot
        · exact h.receiving hne
        · exact .inr hnot
    · exact h
  | first =>
    show (s.first).Whole
    unfold Recovery.first
    split
    · exact h
    · next firstSeq _ =>
      refine h.congr rfl id fun hp => ?_
      -- the phase after the first packet is none of those that hand over
      have hphase : (if firstSeq == 1 then Phase.saving
          else if firstSeq == 0 then .returned else .waiting) = .handDefinitions ∨
          (if firstSeq == 1 then Phase.saving
          else if firstSeq == 0 then .returned else .waiting) = .handRecoveries := hp
      split at hphase
      · simp at hphase
      · split at hphase <;> simp at hphase
  | poll =>
    show (s.poll).Whole
    unfold Recovery.poll
    split
    · exact h
    · next hne =>
      have hne : s.data.recoverySaver.recoveryDatas ≠ [] := fun hnil =>
        hne (List.isEmpty_iff.mpr hnil)
      exact ⟨h.receiving, fun _ => ⟨(hpoll rfl).resolve_left hne, hne⟩⟩
  | setDefinitionData => exact h.congr rfl id fun _ => .inl ha
  | setRecoveryData =>
    -- behind the last hand-over nothing is handed over any more
    exact h.congr rfl id fun hp => by
      rcases hp with hp | hp <;> exact nomatch hp

/-- A turn of the loop on a snapshot in part hands it over. -/
private theorem handing_of_poll {s : Recovery} (hne : s.data.recoverySaver.recoveryDatas ≠ []) :
    (s.apply .poll).Handing ∧ ((s.apply .poll).Complete ↔ s.Complete) := by
  have hpoll : s.apply .poll = { s with phase := .handDefinitions } :=
    if_neg fun hnil => hne (List.isEmpty_iff.mp hnil)
  rw [hpoll]
  exact ⟨.inl rfl, Iff.rfl⟩

/-- In a run every snapshot that is handed over is complete exactly if no turn of the loop
    meets a snapshot in part. -/
theorem complete_iff_polls (as : List Act) (hrun : machine.Runs {} as) :
    (∀ before, before <+: as →
      (machine.exec {} before).Handing → (machine.exec {} before).Complete) ↔
    ∀ before a, before ++ [a] <+: as → (machine.exec {} before).PollsWhole a := by
  constructor
  · rintro h before a hpfx rfl
    rw [or_iff_not_imp_left]
    intro hne
    obtain ⟨hhanding, hcomplete⟩ := handing_of_poll hne
    have h := h _ hpfx
    rw [Guarded.exec_append] at h
    exact hcomplete.mp (h hhanding)
  · intro h before hpfx
    -- from one poll to the next the recovery is whole
    have hwhole : (machine.exec {} before).Whole := by
      induction before using List.reverseRecOn with
      | nil => exact .initial
      | append_singleton before a ih =>
        have hbefore := (List.prefix_append before [a]).trans hpfx
        have hruns := hrun.of_isPrefix hpfx
        rw [Guarded.runs_append] at hruns
        rw [Guarded.exec_append]
        exact (ih hbefore).apply hruns.2.1 (h before a hpfx)
    exact fun hp => (hwhole.handing hp).1

/-- Increment packet 5, of one heartbeat. -/
def sampleIncrement : Packet :=
  (Packet.ofBuffer? [5, 0, 0, 0, 0, 0, 0, 0, 0, 0, 0, 0, 10, 0, 0, 0, 12, 0, 1, 0, 8, 0]).get
    (by decide +kernel)

/-- Definition packet 1, of the only definition, without events and feed types. -/
def sampleDefinition : List UInt8 :=
  [1, 0, 0, 0, 0, 0, 0, 0, 0, 0, 0, 0, 238, 0, 216, 0, 27, 0, 1, 0, 8, 0, 0, 1, 0, 0, 0] ++
    List.replicate 211 0 ++ [9, 0, 0, 4, 0, 0, 4, 0, 0, 5, 0, 0]

/-- A snapshot packet, of one of two messages, without entries. -/
def sampleSnapshot (packetSeqNum : UInt8) : List UInt8 :=
  [packetSeqNum, 0, 0, 0, 0, 0, 0, 0, 0, 0, 0, 0, 72, 0, 59, 0, 38, 0, 1, 0, 8, 0, 5, 0, 0, 0,
    2, 0, 0, 0] ++ List.replicate 51 0 ++ [22, 0, 0]

/-- The first packet is number 5, so that the recovery is needed. -/
def sampleStart : List Act :=
  [.insertIncrement sampleIncrement, .definitionPacket sampleDefinition, .first,
    .recoveryPacket (sampleSnapshot 1)]

/-- The loop may end after the first of two packets. -/
theorem handing_snapshot_in_part :
    machine.Runs {} (sampleStart ++ [.poll]) ∧
      (machine.exec {} (sampleStart ++ [.poll])).Handing ∧
      ¬ (machine.exec {} (sampleStart ++ [.poll])).Complete := by
  decide +kernel

/-- If the second packet comes before the turn of the loop, the snapshot is complete. -/
theorem handing_snapshot_complete :
    (machine.exec {} (sampleStart ++ [.recoveryPacket (sampleSnapshot 2), .poll])).Handing ∧
      ((∀ before, before <+: sampleStart ++ [.recoveryPacket (sampleSnapshot 2), .poll] →
        (machine.exec {} before).Handing → (machine.exec {} before).Complete) ↔
      ∀ before a, before ++ [a] <+: sampleStart ++ [.recoveryPacket (sampleSnapshot 2), .poll] →
        (machine.exec {} before).PollsWhole a) :=
  ⟨by decide +kernel, complete_iff_polls _ (by decide +kernel)⟩

end Recovery

end FixHandler.Cme
