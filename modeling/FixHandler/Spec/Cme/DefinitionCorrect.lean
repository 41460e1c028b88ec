import Mathlib
import FixHandler.ForStd.List
import FixHandler.Native.Cme.BookManager
import FixHandler.Spec.Cme.BookStateCorrect

/-!
# Definitions and books

The definition manager keeps the definitions, and the controller the books; they are
linked by a callback, which the definition manager does not call when a definition is
deleted. So the book of a deleted security stays, with its rows, and is published on.

## Key results

- `BookManager.run_keys`: what is defined and which books there are after a run
- `definitions_agree_iff`: when the two agree
-/

namespace FixHandler.Cme

open Cxx (OutOfRange)

/-- A changed book is of the same security. -/
@[simp] theorem BookState.securityID_withTarget (s : BookState) (b : Book)
    (rows : List BookPrice) : (s.withTarget b rows).securityID = s.securityID := by
  unfold withTarget
  split <;> rfl

namespace BookStateController

/-- Every book is stored under its security. -/
def Labelled (c : BookStateController) : Prop :=
  ∀ (id : UInt32) (s : BookState), c.mdBookStates[id]? = some s → s.securityID = id

/-- In the beginning there are no books. -/
theorem Labelled.initial : Labelled {} := fun id s h => by
  rw [Std.TreeMap.getElem?_emptyc] at h
  exact nomatch h

/-- A book is filed under its security. -/
private theorem Labelled.insert {c : BookStateController} (h : c.Labelled) {id : UInt32}
    {s : BookState} (hs : s.securityID = id) : Labelled ⟨c.mdBookStates.insert id s⟩ := by
  intro id' s' hs'
  simp only [Std.TreeMap.getElem?_insert_if] at hs'
  split at hs'
  · next heq =>
    cases hs'
    rw [heq, hs]
  · exact h id' s' hs'

/-- What a call for an entry may do: clear all books, nothing, or update the book of the
    security of the entry. -/
inductive Modifies (c : BookStateController) (b : Book) : ChangedState → BookStateController → Prop
  | reset : Modifies c b .reset c.resetState
  | nothing {r} (h : r = .noData ∨ r = .bookState none) : Modifies c b r c
  | trade (h : b.securityID ∈ c.mdBookStates) : Modifies c b (.trade b) c
  | book {s rows} (h : c.mdBookStates[b.securityID]? = some s) :
      Modifies c b (.bookState (some (s.withTarget b rows)))
        ⟨c.mdBookStates.insert b.securityID (s.withTarget b rows)⟩

/-- What a change of a book does -/
theorem modifies_of_ok {c c' : BookStateController} {b : Book} {r : ChangedState}
    (h : c.modifyState b = .ok (r, c')) : c.Modifies b r c' := by
  by_cases hside : b.mDEntryType = .bid ∨ b.mDEntryType = .offer
  · rw [modifyState_of_side hside] at h
    cases hs : c.mdBookStates[b.securityID]? with
    | none =>
      rw [hs] at h
      cases h
      exact .nothing (.inl rfl)
    | some s =>
      rw [hs] at h
      by_cases htype : b.type = 'W' ∨ b.type = 'X'
      · -- an entry of a snapshot or of an increment
        simp only [updatePrice_eq htype] at h
        cases hrows : b.applyTo s.marketDepth.toNat (s.target b) with
        | none =>
          rw [hrows] at h
          cases h
          exact .nothing (.inr rfl)
        | some rows =>
          rw [hrows] at h
          cases h
          exact .book hs
      · rw [not_or] at htype
        simp only [updatePrice_of_other htype.1 htype.2] at h
        cases h
        exact .nothing (.inr rfl)
  · rw [not_or] at hside
    unfold modifyState at h
    -- no side: a reset, a trade, or nothing
    by_cases hreset : b.mDEntryType = .bookReset
    · rw [if_pos hreset] at h
      cases h
      exact .reset
    · rw [if_neg hreset] at h
      cases hs : c.mdBookStates[b.securityID]? with
      | none =>
        rw [hs] at h
        cases h
        exact .nothing (.inl rfl)
      | some s =>
        rw [hs] at h
        have hmem : b.securityID ∈ c.mdBookStates :=
          Std.TreeMap.mem_iff_isSome_getElem?.mpr (by rw [hs]; rfl)
        cases htype : b.mDEntryType <;> rw [htype] at h <;> first
          | exact absurd htype hside.1
          | exact absurd htype hside.2
          | (cases h; exact .trade hmem)
          | (cases h; exact .nothing (.inl rfl))

/-- No entry makes a book, or deletes one. -/
theorem Modifies.mem {c c' : BookStateController} {b : Book} {r : ChangedState}
    (h : c.Modifies b r c') (id : UInt32) : id ∈ c'.mdBookStates ↔ id ∈ c.mdBookStates := by
  cases h with
  | reset => exact Std.TreeMap.mem_map
  | nothing => exact Iff.rfl
  | trade => exact Iff.rfl
  | book hs =>
    rw [Std.TreeMap.mem_insert, Std.LawfulEqCmp.compare_eq_iff_eq]
    refine or_iff_right_of_imp ?_
    rintro rfl
    exact Std.TreeMap.mem_iff_isSome_getElem?.mpr (by rw [hs]; rfl)

/-- The books stay under their securities. -/
theorem Modifies.labelled {c c' : BookStateController} {b : Book} {r : ChangedState}
    (h : c.Modifies b r c') (hlabelled : c.Labelled) : c'.Labelled := by
  cases h with
  | reset =>
    intro id s hs
    rw [resetState, Std.TreeMap.getElem?_map] at hs
    obtain ⟨s', hs', rfl⟩ := Option.map_eq_some_iff.mp hs
    exact hlabelled id s' hs'
  | nothing => exact hlabelled
  | trade => exact hlabelled
  | book hs =>
    have hlabel := hlabelled _ _ hs
    refine hlabelled.insert ?_
    rwa [BookState.securityID_withTarget]

/-- They do so when a definition creates or shrinks one. -/
theorem Labelled.createOrShrink {c : BookStateController} (h : c.Labelled) (i : Instrument) :
    (c.createOrShrink i).Labelled := by
  unfold BookStateController.createOrShrink
  split
  · intro id s hs
    simp only [Std.TreeMap.getElem?_erase_if] at hs
    split at hs
    · exact nomatch hs
    · exact h id s hs
  · split
    · exact h.insert rfl
    · next s hs =>
      have hlabel := h _ _ hs
      rw [shrink_eq]
      exact h.insert hlabel

end BookStateController

/-- The security of an L2, BBO, bid, offer or trade message. -/
def MarketEvent.securityID? : MarketEvent → Option UInt32
  | .l2 state | .bbo state | .bid state | .offer state => some state.securityID
  | .trade _ book => some book.securityID
  | _ => none

/-- Whether a message adds or modifies the definition of a security. -/
def Message.defines (m : Message) (id : UInt32) : Prop :=
  ∃ i, m.body = .definition i ∧ i.securityUpdateAction ≠ 'D' ∧ i.securityID = id

/-- Whether a message deletes the definition of a security. -/
def Message.deletes (m : Message) (id : UInt32) : Prop :=
  ∃ i, m.body = .definition i ∧ i.securityUpdateAction = 'D' ∧ i.securityID = id

namespace BookManager

/-- From `s` to `s'` no security gets or loses its definition or its book, and what is
    published is about securities that have a book. -/
structure Publishes (s s' : BookManager) : Prop where
  sound : s'.bookStateController.Sound
  labelled : s'.bookStateController.Labelled
  instruments : s'.instruments = s.instruments
  mem : ∀ id, id ∈ s'.bookStateController.mdBookStates ↔ id ∈ s.bookStateController.mdBookStates
  sent : ∃ events, s'.sent = s.sent ++ events ∧
    ∀ e ∈ events, ∀ id ∈ e.securityID?, id ∈ s.bookStateController.mdBookStates

/-- What two steps publish is published by their sequence. -/
theorem Publishes.trans {s s' s'' : BookManager} (h : s.Publishes s') (h' : s'.Publishes s'') :
    s.Publishes s'' := by
  obtain ⟨events, hsent, hevents⟩ := h.sent
  obtain ⟨events', hsent', hevents'⟩ := h'.sent
  refine ⟨h'.sound, h'.labelled, h'.instruments.trans h.instruments,
    fun id => (h'.mem id).trans (h.mem id), events ++ events', ?_, fun e he id hid => ?_⟩
  · rw [hsent', hsent, List.append_assoc]
  · rcases List.mem_append.mp he with he | he
    · exact hevents e he id hid
    · exact (h.mem id).mp (hevents' e he id hid)

/-- What is sent of a changed book is about the security of the book. -/
private theorem securityID_of_mem_bboEvents {state : BookState} {e : MarketEvent}
    (he : e ∈ bboEvents state) : e.securityID? = some state.securityID := by
  unfold bboEvents at he
  split at he
  · exact absurd he List.not_mem_nil
  · split at he
    · rw [List.mem_singleton.mp he]
      rfl
    · split at he <;> (rw [List.mem_singleton.mp he]; rfl)

/-- What is sent of a book is of a security that has one. -/
private theorem mem_of_mem_bookEvents {c c' : BookStateController} {b : Book} {r : ChangedState}
    (h : c.Modifies b r c') (hlabelled : c.Labelled) {contract : String} {e : MarketEvent}
    (he : e ∈ bookEvents b r contract) {id : UInt32} (hid : id ∈ e.securityID?) :
    id ∈ c.mdBookStates := by
  cases h with
  | reset => exact absurd he List.not_mem_nil
  | nothing hr => rcases hr with rfl | rfl <;> exact absurd he List.not_mem_nil
  | trade hmem =>
    -- a trade is sent with the entry's own security
    have htrade : e = .trade contract b := by
      unfold bookEvents tradeEvents at he
      simp only at he
      split at he
      iterate 3 exact absurd he List.not_mem_nil
      exact List.mem_singleton.mp he
    rw [htrade] at hid
    cases hid
    exact hmem
  | @book s rows hs =>
    have hlabel : (s.withTarget b rows).securityID = b.securityID := by
      rw [BookState.securityID_withTarget, hlabelled _ _ hs]
    -- the books and the best prices carry the security of the book
    have hevent : e.securityID? = some b.securityID := by
      rw [← hlabel]
      rcases List.mem_cons.mp he with rfl | he
      · rfl
      · split at he
        · exact securityID_of_mem_bboEvents he
        · exact absurd he List.not_mem_nil
    rw [hevent] at hid
    cases hid
    exact Std.TreeMap.mem_iff_isSome_getElem?.mpr (by rw [hs]; rfl)

/-- Applying an entry publishes only books that exist. -/
theorem publishes_applyBook {s : BookManager} (hsound : s.bookStateController.Sound)
    (hlabelled : s.bookStateController.Labelled) (b : Book) :
    ∃ s', s.applyBook b = .ok s' ∧ s.Publishes s' := by
  obtain ⟨r, c, hc, hsound'⟩ := hsound.modifyState b
  have hmodifies := BookStateController.modifies_of_ok hc
  refine ⟨{ s with bookStateController := c }.send (bookEvents b r (s.getSymbol b.securityID)),
    ?_, hsound', hmodifies.labelled hlabelled, rfl, hmodifies.mem, _, rfl,
    fun e he id hid => mem_of_mem_bookEvents hmodifies hlabelled he hid⟩
  rw [applyBook, hc]
  rfl

/-- So does applying one entry after the other. -/
theorem publishes_foldlM_applyBook {s : BookManager} (hsound : s.bookStateController.Sound)
    (hlabelled : s.bookStateController.Labelled) (books : List Book) :
    ∃ s', books.foldlM applyBook s = .ok s' ∧ s.Publishes s' := by
  induction books generalizing s with
  | nil =>
    exact ⟨s, rfl, hsound, hlabelled, rfl, fun _ => Iff.rfl, [], (List.append_nil _).symm,
      fun e he => absurd he List.not_mem_nil⟩
  | cons b books ih =>
    obtain ⟨s₁, hs₁, h₁⟩ := publishes_applyBook hsound hlabelled b
    obtain ⟨s₂, hs₂, h₂⟩ := ih h₁.sound h₁.labelled
    refine ⟨s₂, ?_, h₁.trans h₂⟩
    rw [List.foldlM_cons, hs₁]
    exact hs₂

/-- What a message does to the definitions and to the books, and what may be published. -/
structure Parses (s : BookManager) (m : Message) (s' : BookManager) : Prop where
  sound : s'.bookStateController.Sound
  labelled : s'.bookStateController.Labelled
  instruments : ∀ id, id ∈ s'.instruments ↔ m.defines id ∨ id ∈ s.instruments ∧ ¬ m.deletes id
  books : ∀ id, id ∈ s'.bookStateController.mdBookStates ↔
    m.defines id ∨ id ∈ s.bookStateController.mdBookStates
  sent : ∃ events, s'.sent = s.sent ++ events ∧
    ∀ e ∈ events, ∀ id ∈ e.securityID?, id ∈ s.bookStateController.mdBookStates

/-- A message that is not a definition. -/
private theorem Publishes.parses {s s' : BookManager} (h : s.Publishes s') {m : Message}
    (hm : ∀ i, m.body ≠ .definition i) : s.Parses m s' := by
  have hdefines : ∀ id, ¬ m.defines id := fun id ⟨i, hi, _⟩ => hm i hi
  have hdeletes : ∀ id, ¬ m.deletes id := fun id ⟨i, hi, _⟩ => hm i hi
  refine ⟨h.sound, h.labelled, fun id => ?_, fun id => ?_, h.sent⟩
  · rw [h.instruments, or_iff_right (hdefines id), and_iff_left (hdeletes id)]
  · rw [h.mem id, or_iff_right (hdefines id)]

/-- A definition makes a book for its security. -/
theorem mem_createOrShrink {c : BookStateController} {i : Instrument}
    (hi : i.securityUpdateAction ≠ 'D') (id : UInt32) :
    id ∈ (c.createOrShrink i).mdBookStates ↔ i.securityID = id ∨ id ∈ c.mdBookStates := by
  unfold BookStateController.createOrShrink
  rw [if_neg (by rwa [beq_iff_eq])]
  split <;> rw [Std.TreeMap.mem_insert, Std.LawfulEqCmp.compare_eq_iff_eq]

/-- A definition adds an instrument and a book, and a deletion takes the instrument away. -/
private theorem parses_definition {s : BookManager} (hsound : s.bookStateController.Sound)
    (hlabelled : s.bookStateController.Labelled) {m : Message} {i : Instrument}
    (hm : m.body = .definition i) : s.Parses m (s.updateDefinition i) := by
  by_cases hi : i.securityUpdateAction = 'D'
  · have hdefines : ∀ id, ¬ m.defines id := by
      rintro id ⟨j, hj, hne, -⟩
      rw [hm] at hj
      cases hj
      exact hne hi
    have hdeletes : ∀ id, m.deletes id ↔ i.securityID = id := by
      refine fun id => ⟨fun ⟨j, hj, _, hid⟩ => ?_, fun hid => ⟨i, hm, hi, hid⟩⟩
      rw [hm] at hj
      cases hj
      exact hid
    -- the instrument goes, and its book stays
    have hupdate : s.updateDefinition i = { s with
        instruments := s.instruments.erase i.securityID } := by
      rw [updateDefinition, if_pos (by rw [hi]; rfl)]
    rw [hupdate]
    refine ⟨hsound, hlabelled, fun id => ?_, fun id => (or_iff_right (hdefines id)).symm,
      [], (List.append_nil _).symm, fun e he => absurd he List.not_mem_nil⟩
    rw [or_iff_right (hdefines id), hdeletes, Std.TreeMap.mem_erase, ne_eq,
      Std.LawfulEqCmp.compare_eq_iff_eq, and_comm]
  · have hdefines : ∀ id, m.defines id ↔ i.securityID = id := by
      refine fun id => ⟨fun ⟨j, hj, _, hid⟩ => ?_, fun hid => ⟨i, hm, hi, hid⟩⟩
      rw [hm] at hj
      cases hj
      exact hid
    -- a definition that is new or changed
    have hdeletes : ∀ id, ¬ m.deletes id := by
      rintro id ⟨j, hj, heq, -⟩
      rw [hm] at hj
      cases hj
      exact hi heq
    have hupdate : s.updateDefinition i = { s with
        instruments := s.instruments.insert i.securityID i
        bookStateController := s.bookStateController.createOrShrink i
        sent := s.sent ++ [.contractDefinition i] } := by
      rw [updateDefinition, if_neg (by rwa [beq_iff_eq])]
      rfl
    rw [hupdate]
    refine ⟨hsound.createOrShrink i, hlabelled.createOrShrink i, fun id => ?_, fun id => ?_,
      [.contractDefinition i], rfl, fun e he id hid => ?_⟩
    · rw [hdefines, and_iff_left (hdeletes id), Std.TreeMap.mem_insert,
        Std.LawfulEqCmp.compare_eq_iff_eq]
    · rw [hdefines]
      exact mem_createOrShrink hi id
    · rw [List.mem_singleton.mp he] at hid
      exact nomatch hid

/-- The cursor is all that the merge changes. -/
private theorem removePastBooks_snd (s : BookManager) (n : UInt32) (books : List Book) :
    ∃ w, (s.removePastBooks n books).2 = { s with recoveryWaitMerge := w } := by
  unfold removePastBooks
  split
  · exact ⟨s.recoveryWaitMerge, rfl⟩
  · exact ⟨_, rfl⟩

/-- The books of an increment are merged and applied. -/
private theorem publishes_merged {s : BookManager} (hsound : s.bookStateController.Sound)
    (hlabelled : s.bookStateController.Labelled) (m : Message) (n : UInt32) (books : List Book) :
    ∃ s', (let (books, s) := s.removePastBooks n books
      books.foldlM applyBook { s with applied := s.applied ++ [(m, books)] }) = .ok s' ∧
      s.Publishes s' := by
  obtain ⟨w, hw⟩ := s.removePastBooks_snd n books
  generalize s.removePastBooks n books = merged at hw
  obtain ⟨left, s₁⟩ := merged
  simp only at hw
  subst hw
  obtain ⟨s₂, hs₂, h₂⟩ := publishes_foldlM_applyBook
    (s := { s with recoveryWaitMerge := w, applied := s.applied ++ [(m, left)] })
    hsound hlabelled left
  exact ⟨s₂, hs₂, h₂.sound, h₂.labelled, h₂.instruments, h₂.mem, h₂.sent⟩

/-- What a message does to the instruments and the books -/
theorem parseToSend_parses {s : BookManager} (hsound : s.bookStateController.Sound)
    (hlabelled : s.bookStateController.Labelled) (m : Message) :
    ∃ s', s.parseToSend m = .ok s' ∧ s.Parses m s' := by
  have hsame : s.Publishes s :=
    ⟨hsound, hlabelled, rfl, fun _ => Iff.rfl, [], (List.append_nil _).symm,
      fun e he => absurd he List.not_mem_nil⟩
  unfold BookManager.parseToSend BookManager.parseIncrement
  cases hbody : m.body with
  | definition i => exact ⟨_, rfl, parses_definition hsound hlabelled hbody⟩
  | status id st =>
    have hsent : s.Publishes (s.onNewStatus id st) := by
      refine ⟨hsound, hlabelled, rfl, fun _ => Iff.rfl, _, rfl, fun e he id' hid => ?_⟩
      -- a status is about a contract, not a book
      unfold statusEvents at he
      split at he
      iterate 5 (rw [List.mem_singleton.mp he] at hid; exact nomatch hid)
      exact absurd he List.not_mem_nil
    exact ⟨_, rfl, hsent.parses fun i hi => by rw [hbody] at hi; exact nomatch hi⟩
  | increment t es =>
    -- an increment defines nothing
    have hother : ∀ i, m.body ≠ .definition i := fun i hi => by rw [hbody] at hi; exact nomatch hi
    simp only
    by_cases hempty : (parseX m.packetSeqNum t es).isEmpty = true
    · rw [if_pos hempty]
      exact ⟨s, rfl, hsame.parses hother⟩
    · rw [if_neg hempty]
      obtain ⟨s', hs', h⟩ := publishes_merged hsound hlabelled m m.packetSeqNum
        (parseX m.packetSeqNum t es)
      exact ⟨s', hs', h.parses hother⟩
  | quoteRequest => exact ⟨s, rfl, hsame.parses fun i hi => by rw [hbody] at hi; exact nomatch hi⟩
  | snapshot n id es =>
    exact ⟨s, rfl, hsame.parses fun i hi => by rw [hbody] at hi; exact nomatch hi⟩
  | admin => exact ⟨s, rfl, hsame.parses fun i hi => by rw [hbody] at hi; exact nomatch hi⟩

/-! ## Runs -/

/-- The books are those of the securities that were ever defined, and what is published is
    about them. -/
theorem foldlM_parses {s : BookManager} (hsound : s.bookStateController.Sound)
    (hlabelled : s.bookStateController.Labelled) (messages : List Message) :
    ∃ s', messages.foldlM parseToSend s = .ok s' ∧
      s'.bookStateController.Sound ∧ s'.bookStateController.Labelled ∧
      (∀ id, id ∈ s'.bookStateController.mdBookStates ↔
        (∃ m ∈ messages, m.defines id) ∨ id ∈ s.bookStateController.mdBookStates) ∧
      ∃ events, s'.sent = s.sent ++ events ∧
        ∀ e ∈ events, ∀ id ∈ e.securityID?, id ∈ s'.bookStateController.mdBookStates := by
  induction messages generalizing s with
  | nil =>
    exact ⟨s, rfl, hsound, hlabelled, fun id => by simp, [], (List.append_nil _).symm,
      fun e he => absurd he List.not_mem_nil⟩
  | cons m messages ih =>
    obtain ⟨s₁, hs₁, h₁⟩ := parseToSend_parses hsound hlabelled m
    obtain ⟨s₂, hs₂, hsound₂, hlabelled₂, hbooks₂, events₂, hsent₂, hevents₂⟩ :=
      ih h₁.sound h₁.labelled
    obtain ⟨events₁, hsent₁, hevents₁⟩ := h₁.sent
    refine ⟨s₂, ?_, hsound₂, hlabelled₂, fun id => ?_, events₁ ++ events₂, ?_,
      fun e he id hid => ?_⟩
    · rw [List.foldlM_cons, hs₁]
      exact hs₂
    · rw [hbooks₂, h₁.books, ← or_assoc, or_comm (b := m.defines id)]
      simp only [List.mem_cons, exists_eq_or_imp]
    · rw [hsent₂, hsent₁, List.append_assoc]
    · -- what an earlier message sent is of a book that still exists
      rcases List.mem_append.mp he with he | he
      · exact (hbooks₂ id).mpr (.inr ((h₁.books id).mpr (.inr (hevents₁ e he id hid))))
      · exact hevents₂ e he id hid

/-- Without deletes of defined securities, what is defined has a book. -/
theorem foldlM_agree {s s' : BookManager} (hsound : s.bookStateController.Sound)
    (hlabelled : s.bookStateController.Labelled) {messages : List Message}
    (hagree : ∀ id, id ∈ s.instruments ↔ id ∈ s.bookStateController.mdBookStates)
    (hpast : ∀ m ∈ messages, ∀ id, m.deletes id → id ∉ s.bookStateController.mdBookStates)
    (hpairs : messages.Pairwise fun a b => ∀ id, a.defines id → ¬ b.deletes id)
    (h : messages.foldlM parseToSend s = .ok s') :
    ∀ id, id ∈ s'.instruments ↔ id ∈ s'.bookStateController.mdBookStates := by
  induction messages generalizing s with
  | nil =>
    cases h
    exact hagree
  | cons m messages ih =>
    obtain ⟨s₁, hs₁, h₁⟩ := parseToSend_parses hsound hlabelled m
    rw [List.foldlM_cons, hs₁] at h
    rw [List.pairwise_cons] at hpairs
    refine ih h₁.sound h₁.labelled (fun id => ?_) (fun m' hm' id hdel hbook => ?_) hpairs.2 h
    · rw [h₁.instruments, h₁.books, hagree]
      refine or_congr_right (and_iff_left_of_imp fun hbook hdel => ?_)
      -- no book exists of a security that is deleted
      exact hpast m List.mem_cons_self id hdel hbook
    · rcases (h₁.books id).mp hbook with hdef | hbook
      · exact hpairs.1 m' hm' id hdef hdel
      · exact hpast m' (List.mem_cons_of_mem _ hm') id hdel hbook

/-- What is defined and which books there are after a run. -/
theorem run_keys (messages : List Message) :
    ∃ s, run messages = .ok s ∧
      s.bookStateController.Sound ∧ s.bookStateController.Labelled ∧
      (∀ id, id ∈ s.bookStateController.mdBookStates ↔ ∃ m ∈ messages, m.defines id) := by
  obtain ⟨s, hs, hsound, hlabelled, hbooks, -⟩ :=
    foldlM_parses (s := {}) .initial .initial messages
  refine ⟨s, hs, hsound, hlabelled, fun id => ?_⟩
  rw [hbooks, or_iff_left Std.TreeMap.not_mem_emptyc]

/-- A run goes on from where it was. -/
theorem run_append {before : List Message} {s : BookManager} (h : run before = .ok s)
    (messages : List Message) : run (before ++ messages) = messages.foldlM parseToSend s := by
  unfold run at h ⊢
  rw [List.foldlM_append, h]
  rfl

end BookManager

/-- Definitions and books agree along a run: after every message the same securities have a
    definition and a book; and after a delete nothing is published about the security until
    it is added again, which makes an empty book. -/
structure DefinitionsAgree (messages : List Message) : Prop where
  agree : ∀ before, before <+: messages → ∃ s, BookManager.run before = .ok s ∧
    ∀ id, id ∈ s.instruments ↔ id ∈ s.bookStateController.mdBookStates
  deleted : ∀ before d between id, before ++ d :: between <+: messages → d.deletes id →
    (∀ m ∈ between, ¬ m.defines id) →
    ∃ s s', BookManager.run (before ++ [d]) = .ok s ∧
      BookManager.run (before ++ d :: between) = .ok s' ∧
      (∃ events, s'.sent = s.sent ++ events ∧ ∀ e ∈ events, e.securityID? ≠ some id) ∧
      ∀ i : Instrument, i.securityID = id → i.securityUpdateAction ≠ 'D' →
        ∃ state, (s'.updateDefinition i).bookStateController.mdBookStates[id]? = some state ∧
          state.bid = [] ∧ state.ask = []

namespace BookManager

/-- An added security that has no book gets an empty one. -/
private theorem updateDefinition_of_not_mem {s : BookManager} {i : Instrument}
    (hi : i.securityUpdateAction ≠ 'D')
    (hbook : i.securityID ∉ s.bookStateController.mdBookStates) :
    (s.updateDefinition i).bookStateController.mdBookStates[i.securityID]? =
      some (BookStateController.create 1 i.securityID i.symbol i.depthGBX) := by
  rw [updateDefinition, if_neg (by rwa [beq_iff_eq])]
  show (s.bookStateController.createOrShrink i).mdBookStates[i.securityID]? = _
  unfold BookStateController.createOrShrink
  rw [if_neg (by rwa [beq_iff_eq]), Std.TreeMap.getElem?_eq_none hbook]
  exact (Std.TreeMap.getElem?_insert_if _ _ _ _).trans (if_pos rfl)

/-- Without a deletion after a definition both tables agree. -/
private theorem agree_of_pairwise {messages : List Message}
    (hpairs : messages.Pairwise fun a b => ∀ id, a.defines id → ¬ b.deletes id) :
    ∃ s, run messages = .ok s ∧ s.bookStateController.Sound ∧ s.bookStateController.Labelled ∧
      (∀ id, id ∈ s.bookStateController.mdBookStates ↔ ∃ m ∈ messages, m.defines id) ∧
      ∀ id, id ∈ s.instruments ↔ id ∈ s.bookStateController.mdBookStates := by
  obtain ⟨s, hs, hsound, hlabelled, hbooks⟩ := run_keys messages
  refine ⟨s, hs, hsound, hlabelled, hbooks, foldlM_agree (s := {}) .initial .initial
    (fun id => iff_of_false Std.TreeMap.not_mem_emptyc Std.TreeMap.not_mem_emptyc)
    (fun _ _ _ _ => Std.TreeMap.not_mem_emptyc) hpairs hs⟩

end BookManager

open BookManager in
/-- Definitions and books agree along a run exactly if no security is deleted that was
    defined before. -/
theorem definitions_agree_iff (messages : List Message) :
    DefinitionsAgree messages ↔
      messages.Pairwise fun a b => ∀ id, a.defines id → ¬ b.deletes id := by
  constructor
  · intro h
    -- the book of a deleted security stays, so the two differ after the delete
    refine List.pairwise_of_forall_prefix fun before b hpfx a ha id hdef hdel => ?_
    obtain ⟨s, hs, hagree⟩ := h.agree (before ++ [b]) hpfx
    obtain ⟨s₁, hs₁, hsound, hlabelled, hbooks⟩ := run_keys before
    obtain ⟨s₂, hs₂, hparses⟩ := parseToSend_parses hsound hlabelled b
    have heq : s = s₂ := by
      rw [run_append hs₁, List.foldlM_cons, hs₂] at hs
      exact (Except.ok.inj hs).symm
    subst heq
    have hmem := (hagree id).mpr ((hparses.books id).mpr (.inr ((hbooks id).mpr ⟨a, ha, hdef⟩)))
    rcases (hparses.instruments id).mp hmem with ⟨i, hi, hne, -⟩ | ⟨-, hnot⟩
    · obtain ⟨j, hj, heq, -⟩ := hdel
      rw [hi] at hj
      cases hj
      exact hne heq
    · exact hnot hdel
  · intro hpairs
    refine ⟨fun before hbefore => ?_, fun before d between id hpfx hdel hbetween => ?_⟩
    · obtain ⟨s, hs, -, -, -, hagree⟩ := agree_of_pairwise (hpairs.sublist hbefore.sublist)
      exact ⟨s, hs, hagree⟩
    · have hpairs' := hpairs.sublist hpfx.sublist
      -- nothing before the deletion defines the security
      have hnone : ∀ m ∈ before ++ [d], ¬ m.defines id := by
        intro m hm hdef
        rcases List.mem_append.mp hm with hm | hm
        · exact (List.pairwise_append.mp hpairs').2.2 m hm d List.mem_cons_self id hdef hdel
        · rw [List.mem_singleton.mp hm] at hdef
          obtain ⟨i, hi, hne, -⟩ := hdef
          obtain ⟨j, hj, heq, -⟩ := hdel
          rw [hi] at hj
          cases hj
          exact hne heq
      obtain ⟨s, hs, hsound, hlabelled, hbooks⟩ := run_keys (before ++ [d])
      obtain ⟨s', hs', -, -, hbooks', events, hsent, hevents⟩ :=
        foldlM_parses hsound hlabelled between
      -- so it has no book when it is defined again
      have hgone : id ∉ s'.bookStateController.mdBookStates := by
        rw [hbooks', hbooks]
        rintro (⟨m, hm, hdef⟩ | ⟨m, hm, hdef⟩)
        · exact hbetween m hm hdef
        · exact hnone m hm hdef
      refine ⟨s, s', hs, ?_, ⟨events, hsent, fun e he hid => hgone (hevents e he id hid)⟩,
        fun i hi haction => ?_⟩
      · rw [← hs', ← run_append hs, List.append_assoc]
        rfl
      · subst hi
        exact ⟨_, updateDefinition_of_not_mem haction hgone, rfl, rfl⟩

private def contract (action : Char) : Message :=
  ⟨0, .definition { securityUpdateAction := action, securityID := 7, symbol := "A", depthGBX := 1 }⟩

private def topBid : Message :=
  ⟨0, .increment 32 [{ packetSeqNum := 0, type := 'X', securityID := 7, mDEntryType := .bid
                       mDPriceLevel := 1 }]⟩

/-- The security is deleted, and its book is still there and published. -/
theorem deleted_book_published :
    (BookManager.run [contract 'A', contract 'D']).map (fun s =>
      (decide (7 ∈ s.instruments), decide (7 ∈ s.bookStateController.mdBookStates))) =
        .ok (false, true) ∧
    (BookManager.run [contract 'A', contract 'D', topBid]).map
      (fun s => (s.sent.drop 1).map (·.securityID?)) = .ok [some 7, some 7] ∧
    ¬ DefinitionsAgree [contract 'A', contract 'D'] := by
  have hkeys : (BookManager.run [contract 'A', contract 'D']).map (fun s =>
      (decide (7 ∈ s.instruments), decide (7 ∈ s.bookStateController.mdBookStates))) =
        .ok (false, true) := by decide +kernel
  refine ⟨hkeys, by decide +kernel, fun h => ?_⟩
  obtain ⟨s, hs, hagree⟩ := h.agree _ List.prefix_rfl
  rw [hs] at hkeys
  obtain ⟨hdef, hbook⟩ := Prod.mk.inj (Except.ok.inj hkeys)
  exact of_decide_eq_false hdef ((hagree 7).mpr (of_decide_eq_true hbook))

end FixHandler.Cme
